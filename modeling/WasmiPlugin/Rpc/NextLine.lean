import WasmiPlugin.Rpc.Message

namespace WasmiPlugin
namespace Rpc

open Foundation

/-!
# Reading a line from a stream that may block

`JsonRpcTransport::next_line` calls `BufRead::read_line` until it returns
something other than `WouldBlock`, always with the same string, so that a line
may be assembled from several calls.  The standard library is modelled as
documented: a call appends up to and including a newline, keeps what it
appended before a failure only if that is valid UTF-8, and otherwise truncates
the string although the bytes are consumed.

The environment of a reader is the list of what its successive reads of the
underlying stream bring.  After the list, a closed stream is at its end and an
open one would block.
-/

/-- What one read of the underlying stream brings.  A chunk is not empty,
because an empty read means the end of the stream. -/
inductive Delivery where
  | chunk (first : UInt8) (others : List UInt8)
  | wouldBlock
  | failure
  deriving DecidableEq, Repr

/-- Some bytes in one chunk, if there are any. -/
def Delivery.ofBytes : List UInt8 -> Delivery
  | [] => .wouldBlock
  | first :: others => .chunk first others

/-- A `BufRead`: bytes fetched but not consumed, and what is yet to come. -/
structure LineReader where
  buffered : List UInt8
  incoming : List Delivery
  closed : Bool
  deriving DecidableEq, Repr

inductive Status where
  | ok
  | wouldBlock
  | failed
  deriving DecidableEq, Repr

/-- The bytes one call appended, how it ended and the reader it left. -/
structure Fetched where
  appended : List UInt8
  status : Status
  reader : LineReader
  deriving DecidableEq, Repr

/-- `read_until(b'\n')`: consume the buffer through a newline, fetching more
when there is none in it. -/
def readUntil (closed : Bool) : (buffered : List UInt8) -> (incoming : List Delivery) -> Fetched
  | buffered, [] =>
      match Lines.takeLine buffered with
      | some found => ⟨found.1, .ok, ⟨found.2, [], closed⟩⟩
      | none => ⟨buffered, if closed then .ok else .wouldBlock, ⟨[], [], closed⟩⟩
  | buffered, delivery :: incoming =>
      match Lines.takeLine buffered with
      | some found => ⟨found.1, .ok, ⟨found.2, delivery :: incoming, closed⟩⟩
      | none =>
          match delivery with
          | .chunk first others =>
              let later := readUntil closed (first :: others) incoming
              { later with appended := buffered ++ later.appended }
          | .wouldBlock => ⟨buffered, .wouldBlock, ⟨[], incoming, closed⟩⟩
          | .failure => ⟨buffered, .failed, ⟨[], incoming, closed⟩⟩

/-- The result of `read_line`: a count of bytes, `WouldBlock`, or any other error. -/
inductive ReadLine where
  | ok (count : Nat)
  | wouldBlock
  | failed
  deriving DecidableEq, Repr

/-- `BufRead::read_line` into `line`, with the string it leaves. -/
def LineReader.readLine (reader : LineReader) (line : List UInt8) :
    ReadLine × List UInt8 × LineReader :=
  let got := readUntil reader.closed reader.buffered reader.incoming
  if Utf8.Valid got.appended then
    match got.status with
    | .ok => (.ok got.appended.length, line ++ got.appended, got.reader)
    | .wouldBlock => (.wouldBlock, line ++ got.appended, got.reader)
    | .failed => (.failed, line ++ got.appended, got.reader)
  else
    match got.status with
    | .wouldBlock => (.wouldBlock, line, got.reader)
    | _ => (.failed, line, got.reader)

/-- `JsonRpcTransport::next_line` for a single task, from a partial line.  The
fuel bounds the retries after `WouldBlock`; without any left the call is still
waiting. -/
def nextLine : (fuel : Nat) -> LineReader -> (line : List UInt8) ->
    Option (Except RpcError (List UInt8) × LineReader)
  | 0, _, _ => none
  | fuel + 1, reader, line =>
      match reader.readLine line with
      | (.ok 0, _, rest) => some (.error .internalError, rest)
      | (.ok _, read, rest) => some (.ok read, rest)
      | (.wouldBlock, read, rest) => nextLine fuel rest read
      | (.failed, _, rest) => some (.error .internalError, rest)

/-- Repeated calls of `next_line` return these lines and then an error. -/
inductive LineResults : LineReader -> List (List UInt8) -> Prop
  | stop {reader rest : LineReader} {fuel : Nat} {error : RpcError} :
      nextLine fuel reader [] = some (.error error, rest) -> LineResults reader []
  | line {reader rest : LineReader} {fuel : Nat} {read : List UInt8} {later : List (List UInt8)} :
      nextLine fuel reader [] = some (.ok read, rest) -> LineResults rest later ->
      LineResults reader (read :: later)

/-! ## The stream as a sequence of arrivals -/

/-- A byte, or a `WouldBlock` between bytes. -/
abbrev Arrival := Option UInt8

def Delivery.arrivals : Delivery -> List Arrival
  | .chunk first others => (first :: others).map some
  | .wouldBlock => [none]
  | .failure => []

def LineReader.arrivals (reader : LineReader) : List Arrival :=
  reader.buffered.map some ++ reader.incoming.flatMap Delivery.arrivals

def bytesOf (arrivals : List Arrival) : List UInt8 :=
  arrivals.filterMap id

@[simp] theorem bytesOf_nil : bytesOf [] = [] := rfl

@[simp] theorem bytesOf_byte (byte : UInt8) (arrivals : List Arrival) :
    bytesOf (some byte :: arrivals) = byte :: bytesOf arrivals := rfl

@[simp] theorem bytesOf_block (arrivals : List Arrival) :
    bytesOf (none :: arrivals) = bytesOf arrivals := rfl

/-- The lines that `next_line` makes of some arrivals.  The current line
consists of what earlier calls of `read_line` kept and what the current call
has appended so far. -/
def deliveredLines : (kept fresh : List UInt8) -> List Arrival -> List (List UInt8)
  | kept, fresh, [] => if Utf8.Valid fresh ∧ fresh ≠ [] then [kept ++ fresh] else []
  | kept, fresh, some byte :: arrivals =>
      if byte = Lines.newline then
        if Utf8.Valid (fresh ++ [byte]) then
          (kept ++ fresh ++ [byte]) :: deliveredLines [] [] arrivals
        else []
      else deliveredLines kept (fresh ++ [byte]) arrivals
  | kept, fresh, none :: arrivals =>
      if Utf8.Valid fresh then deliveredLines (kept ++ fresh) [] arrivals
      else deliveredLines kept [] arrivals

theorem deliveredLines_plain (kept fresh : List UInt8) {body : List UInt8}
    (plain : Lines.newline ∉ body) (arrivals : List Arrival) :
    deliveredLines kept fresh (body.map some ++ arrivals) =
      deliveredLines kept (fresh ++ body) arrivals := by
  induction body generalizing fresh with
  | nil => rw [List.map_nil, List.nil_append, List.append_nil]
  | cons byte body inductionHypothesis =>
      have different : byte ≠ Lines.newline := fun same => plain (same ▸ List.mem_cons_self)
      rw [List.map_cons, List.cons_append, deliveredLines, if_neg different,
        inductionHypothesis _ fun member => plain (List.mem_cons_of_mem _ member),
        List.append_assoc, List.singleton_append]

/-! ## One call of `read_line` -/

/-- A reader whose stream ends and never fails. -/
structure LineReader.Finite (reader : LineReader) : Prop where
  closed : reader.closed = true
  sound : Delivery.failure ∉ reader.incoming

private theorem readUntil_found (closed : Bool) {buffered line rest : List UInt8}
    (found : Lines.takeLine buffered = some (line, rest)) (incoming : List Delivery) :
    readUntil closed buffered incoming = ⟨line, .ok, ⟨rest, incoming, closed⟩⟩ := by
  cases incoming <;> simp only [readUntil, found]

private theorem deliveredLines_found (kept fresh : List UInt8) {buffered line rest : List UInt8}
    (found : Lines.takeLine buffered = some (line, rest)) (arrivals : List Arrival) :
    deliveredLines kept fresh (buffered.map some ++ arrivals) =
      if Utf8.Valid (fresh ++ line) ∧ fresh ++ line ≠ [] then
        (kept ++ (fresh ++ line)) :: deliveredLines [] [] (rest.map some ++ arrivals)
      else [] := by
  rcases Lines.takeLine_some found with ⟨whole, body, plain, shape⟩
  subst shape
  rw [whole]
  simp only [List.map_append, List.append_assoc, deliveredLines_plain kept fresh plain]
  simp [deliveredLines]

/-- What a call of `read_until` fetched accounts for the arrivals that it used up.
The bytes of the call may already have a part `fresh` from before. -/
private theorem readUntil_accounts (kept fresh buffered : List UInt8) (incoming : List Delivery)
    (sound : Delivery.failure ∉ incoming) :
    let got := readUntil true buffered incoming
    got.reader.Finite ∧ got.reader.incoming.length ≤ incoming.length ∧
      (got.status = .wouldBlock -> got.reader.incoming.length < incoming.length) ∧
      deliveredLines kept fresh (LineReader.arrivals ⟨buffered, incoming, true⟩) =
        match got.status with
        | .ok =>
            if Utf8.Valid (fresh ++ got.appended) ∧ fresh ++ got.appended ≠ [] then
              (kept ++ (fresh ++ got.appended)) :: deliveredLines [] [] got.reader.arrivals
            else []
        | .wouldBlock =>
            if Utf8.Valid (fresh ++ got.appended) then
              deliveredLines (kept ++ (fresh ++ got.appended)) [] got.reader.arrivals
            else deliveredLines kept [] got.reader.arrivals
        | .failed => [] := by
  induction incoming generalizing fresh buffered with
  | nil =>
      cases found : Lines.takeLine buffered with
      | some pair =>
          rw [readUntil_found true found]
          exact ⟨⟨rfl, List.not_mem_nil⟩, Nat.le_refl _, fun impossible => (by cases impossible),
            deliveredLines_found kept fresh found _⟩
      | none =>
          have plain := (Lines.takeLine_none_iff buffered).mp found
          simp only [readUntil, found, if_true]
          refine ⟨⟨rfl, List.not_mem_nil⟩, Nat.le_refl _,
            fun impossible => (by cases impossible), ?_⟩
          simp only [LineReader.arrivals, List.flatMap_nil, List.map_nil,
            deliveredLines_plain kept fresh plain]
          simp [deliveredLines]
  | cons delivery incoming inductionHypothesis =>
      have soundLater : Delivery.failure ∉ incoming :=
        fun listed => sound (List.mem_cons_of_mem _ listed)
      cases found : Lines.takeLine buffered with
      | some pair =>
          rw [readUntil_found true found]
          exact ⟨⟨rfl, sound⟩, Nat.le_refl _, fun impossible => (by cases impossible),
            deliveredLines_found kept fresh found _⟩
      | none =>
          have plain := (Lines.takeLine_none_iff buffered).mp found
          cases delivery with
          | chunk first others =>
              have later := inductionHypothesis (fresh ++ buffered) (first :: others) soundLater
              simp only [readUntil, found]
              refine ⟨later.1, Nat.le_succ_of_le later.2.1,
                fun blocked => Nat.lt_succ_of_lt (later.2.2.1 blocked), ?_⟩
              have moved : deliveredLines kept fresh
                    (LineReader.arrivals ⟨buffered, .chunk first others :: incoming, true⟩) =
                  deliveredLines kept (fresh ++ buffered)
                    (LineReader.arrivals ⟨first :: others, incoming, true⟩) := by
                simp only [LineReader.arrivals, List.flatMap_cons, Delivery.arrivals,
                  deliveredLines_plain kept fresh plain]
              rw [moved, later.2.2.2]
              simp only [List.append_assoc]
          | wouldBlock =>
              simp only [readUntil, found]
              refine ⟨⟨rfl, soundLater⟩, Nat.le_succ _, fun _ => Nat.lt_succ_self _, ?_⟩
              simp only [LineReader.arrivals, List.flatMap_cons, Delivery.arrivals,
                deliveredLines_plain kept fresh plain, List.map_nil, List.nil_append,
                List.singleton_append, deliveredLines]
          | failure => exact absurd List.mem_cons_self sound

private theorem readLine_accounts (reader : LineReader) (finite : reader.Finite)
    (line : List UInt8) :
    match reader.readLine line with
    | (.ok 0, _, _) => deliveredLines line [] reader.arrivals = []
    | (.ok (_ + 1), read, rest) => rest.Finite ∧
        deliveredLines line [] reader.arrivals = read :: deliveredLines [] [] rest.arrivals
    | (.wouldBlock, read, rest) => rest.Finite ∧
        rest.incoming.length < reader.incoming.length ∧
        deliveredLines line [] reader.arrivals = deliveredLines read [] rest.arrivals
    | (.failed, _, _) => deliveredLines line [] reader.arrivals = [] := by
  rcases reader with ⟨buffered, incoming, closed⟩
  have isClosed : closed = true := finite.closed
  subst isClosed
  have accounts := readUntil_accounts line [] buffered incoming finite.sound
  simp only [List.nil_append] at accounts
  rcases accounts with ⟨rest, _, shorter, lines⟩
  simp only [LineReader.readLine]
  cases status : (readUntil true buffered incoming).status with
  | ok =>
      simp only [status] at lines
      by_cases valid : Utf8.Valid (readUntil true buffered incoming).appended
      · cases appended : (readUntil true buffered incoming).appended with
        | nil =>
            rw [appended] at lines
            simp only [if_pos Utf8.valid_nil, List.length_nil]
            simpa only [ne_eq, not_true, and_false, if_false] using lines
        | cons first others =>
            rw [appended] at valid lines
            simp only [if_pos valid, List.length_cons]
            exact ⟨rest, by simpa [valid] using lines⟩
      · simpa [valid] using lines
  | wouldBlock =>
      simp only [status] at lines shorter
      by_cases valid : Utf8.Valid (readUntil true buffered incoming).appended
      · simp only [if_pos valid] at lines ⊢
        exact ⟨rest, shorter trivial, lines⟩
      · simp only [if_neg valid] at lines ⊢
        exact ⟨rest, shorter trivial, lines⟩
  | failed =>
      simp only [status] at lines
      by_cases valid : Utf8.Valid (readUntil true buffered incoming).appended
      · simpa only [if_pos valid] using lines
      · simpa only [if_neg valid] using lines

def HeadOf (lines : List (List UInt8)) : Except RpcError (List UInt8) × LineReader -> Prop
  | (.ok read, rest) => rest.Finite ∧ lines = read :: deliveredLines [] [] rest.arrivals
  | (.error _, _) => lines = []

private theorem nextLine_accounts (fuel : Nat) (reader : LineReader) (finite : reader.Finite)
    (line : List UInt8) (outcome : Except RpcError (List UInt8) × LineReader)
    (returned : nextLine fuel reader line = some outcome) :
    HeadOf (deliveredLines line [] reader.arrivals) outcome := by
  induction fuel generalizing reader line with
  | zero => cases returned
  | succ fuel inductionHypothesis =>
      have accounts := readLine_accounts reader finite line
      unfold nextLine at returned
      rcases called : reader.readLine line with ⟨status, read, rest⟩
      rw [called] at accounts
      cases status with
      | ok count =>
          cases count with
          | zero =>
              simp only [called, Option.some.injEq] at returned
              subst returned
              exact accounts
          | succ count =>
              simp only [called, Option.some.injEq] at returned
              subst returned
              exact accounts
      | wouldBlock =>
          simp only [called] at returned
          have later := inductionHypothesis rest accounts.1 read returned
          rw [accounts.2.2]
          exact later
      | failed =>
          simp only [called, Option.some.injEq] at returned
          subst returned
          exact accounts

/-- A finite reader never keeps `next_line` waiting for ever: every
`WouldBlock` uses up a delivery. -/
private theorem nextLine_returns (fuel : Nat) (reader : LineReader) (finite : reader.Finite)
    (line : List UInt8) (enough : reader.incoming.length < fuel) :
    Exists fun outcome => nextLine fuel reader line = some outcome := by
  induction fuel generalizing reader line with
  | zero => exact absurd enough (Nat.not_lt_zero _)
  | succ fuel inductionHypothesis =>
      have accounts := readLine_accounts reader finite line
      unfold nextLine
      rcases called : reader.readLine line with ⟨status, read, rest⟩
      rw [called] at accounts
      cases status with
      | ok count => cases count <;> exact ⟨_, rfl⟩
      | wouldBlock => exact inductionHypothesis rest accounts.1 read (by omega)
      | failed => exact ⟨_, rfl⟩

/-- The results of repeated calls are exactly the delivered lines. -/
theorem lineResults_iff (reader : LineReader) (finite : reader.Finite)
    (lines : List (List UInt8)) :
    LineResults reader lines ↔ lines = deliveredLines [] [] reader.arrivals := by
  constructor
  · intro results
    induction results with
    | stop returned => exact (nextLine_accounts _ _ finite _ _ returned).symm
    | line returned _ inductionHypothesis =>
        have accounts := nextLine_accounts _ _ finite _ _ returned
        rw [accounts.2, ← inductionHypothesis accounts.1]
  · intro same
    induction lines generalizing reader with
    | nil =>
        rcases nextLine_returns (reader.incoming.length + 1) reader finite [] (Nat.lt_succ_self _)
          with ⟨⟨outcome, rest⟩, returned⟩
        have accounts := nextLine_accounts _ _ finite _ _ returned
        cases outcome with
        | error error => exact .stop returned
        | ok read =>
            rw [accounts.2] at same
            cases same
    | cons line later inductionHypothesis =>
        rcases nextLine_returns (reader.incoming.length + 1) reader finite [] (Nat.lt_succ_self _)
          with ⟨⟨outcome, rest⟩, returned⟩
        have accounts := nextLine_accounts _ _ finite _ _ returned
        cases outcome with
        | error error =>
            rw [accounts] at same
            cases same
        | ok read =>
            rw [accounts.2, List.cons.injEq] at same
            rw [same.1]
            exact .line returned (inductionHypothesis rest accounts.1 same.2)

/-! ## Cut streams against whole streams -/

/-- No `WouldBlock` falls inside a character, and none falls between the last
byte of an unterminated last line and the end of the stream.  `seen` is what
has arrived before. -/
def BlocksHarmless (seen : List UInt8) (arrivals : List Arrival) : Prop :=
  forall before after, arrivals = before ++ none :: after ->
    Utf8.Valid (seen ++ bytesOf before) ∧
      (bytesOf after = [] -> seen ++ bytesOf before = [] ∨
        (seen ++ bytesOf before).getLast? = some Lines.newline)

private theorem blocksHarmless_nil (seen : List UInt8) : BlocksHarmless seen [] := by
  intro before after split
  cases before <;> cases split

private theorem blocksHarmless_byte (seen : List UInt8) (byte : UInt8) (arrivals : List Arrival) :
    BlocksHarmless seen (some byte :: arrivals) ↔ BlocksHarmless (seen ++ [byte]) arrivals := by
  constructor
  · intro harmless before after split
    have longer := harmless (some byte :: before) after (by rw [split]; rfl)
    simpa only [bytesOf_byte, List.append_assoc, List.singleton_append] using longer
  · intro harmless before after split
    cases before with
    | nil => cases split
    | cons head before =>
        rw [List.cons_append, List.cons.injEq] at split
        rw [← split.1]
        have shorter := harmless before after split.2
        simpa only [bytesOf_byte, List.append_assoc, List.singleton_append] using shorter

private theorem blocksHarmless_block (seen : List UInt8) (arrivals : List Arrival) :
    BlocksHarmless seen (none :: arrivals) ↔
      (Utf8.Valid seen ∧ (bytesOf arrivals = [] -> seen = [] ∨
        seen.getLast? = some Lines.newline)) ∧ BlocksHarmless seen arrivals := by
  constructor
  · intro harmless
    have here := harmless [] arrivals rfl
    rw [bytesOf_nil, List.append_nil] at here
    refine ⟨here, fun before after split => ?_⟩
    exact harmless (none :: before) after (by rw [split]; rfl)
  · rintro ⟨here, harmless⟩ before after split
    cases before with
    | nil =>
        rw [List.nil_append, List.cons.injEq] at split
        rw [bytesOf_nil, List.append_nil, ← split.2]
        exact here
    | cons head before =>
        rw [List.cons_append, List.cons.injEq] at split
        rw [← split.1]
        exact harmless before after split.2

private theorem deliveredLines_size (kept fresh : List UInt8) (arrivals : List Arrival) :
    (deliveredLines kept fresh arrivals).flatten.length ≤
      kept.length + fresh.length + (bytesOf arrivals).length := by
  induction arrivals generalizing kept fresh with
  | nil =>
      unfold deliveredLines
      split <;> simp
  | cons arrival arrivals inductionHypothesis =>
      cases arrival with
      | none =>
          simp only [deliveredLines, bytesOf_block]
          split
          · have later := inductionHypothesis (kept ++ fresh) []
            simp only [List.length_append, List.length_nil] at later
            omega
          · have later := inductionHypothesis kept []
            simp only [List.length_nil] at later
            omega
      | some byte =>
          simp only [deliveredLines, bytesOf_byte, List.length_cons]
          split
          · split
            · have later := inductionHypothesis [] []
              simp only [List.flatten_cons, List.length_append, List.length_cons,
                List.length_nil] at later ⊢
              omega
            · simp
          · have later := inductionHypothesis kept (fresh ++ [byte])
            simp only [List.length_append, List.length_cons, List.length_nil] at later
            omega

private theorem deliveredLines_exhausted (kept : List UInt8) (arrivals : List Arrival)
    (nothing : bytesOf arrivals = []) : deliveredLines kept [] arrivals = [] := by
  induction arrivals with
  | nil => simp [deliveredLines]
  | cons arrival arrivals inductionHypothesis =>
      cases arrival with
      | none =>
          simp only [deliveredLines, if_pos Utf8.valid_nil, List.append_nil]
          exact inductionHypothesis nothing
      | some byte => cases nothing

/-- The comparison, from the middle of a line.  `done` are the complete lines
before it, `kept` and `fresh` the two parts of the current one. -/
private theorem deliveredLines_eq_iff (done kept fresh : List UInt8) (arrivals : List Arrival)
    (bounded : Utf8.Valid (done ++ kept)) (plain : Lines.newline ∉ kept ++ fresh)
    (complete : done = [] ∨ done.getLast? = some Lines.newline)
    (valid : Utf8.Valid (fresh ++ bytesOf arrivals))
    (pending : fresh = [] -> kept = [] ∨ bytesOf arrivals ≠ []) :
    deliveredLines kept fresh arrivals = Lines.splitAfter (kept ++ fresh) (bytesOf arrivals) ↔
      BlocksHarmless (done ++ kept ++ fresh) arrivals := by
  induction arrivals generalizing done kept fresh with
  | nil =>
      rw [bytesOf_nil, List.append_nil] at valid
      refine ⟨fun _ => blocksHarmless_nil _, fun _ => ?_⟩
      unfold deliveredLines Lines.splitAfter
      by_cases empty : fresh = []
      · have none := (pending empty).resolve_right (fun more => more rfl)
        simp [empty, none]
      · simp [empty, valid]
  | cons arrival arrivals inductionHypothesis =>
      cases arrival with
      | some byte =>
          rw [blocksHarmless_byte]
          simp only [deliveredLines, Lines.splitAfter, bytesOf_byte] at valid ⊢
          by_cases ends : byte = Lines.newline
          · have boundary : Utf8.Valid (fresh ++ [byte]) ∧ Utf8.Valid (bytesOf arrivals) := by
              rw [ends] at valid ⊢
              exact Utf8.valid_ascii_split (by decide) valid
            have tail := inductionHypothesis (done ++ kept ++ fresh ++ [byte]) [] []
              (by
                rw [List.append_nil, List.append_assoc (done ++ kept)]
                exact (Utf8.valid_append_iff bounded _).mpr boundary.1)
              List.not_mem_nil (Or.inr (by rw [List.getLast?_concat, ends])) boundary.2
              (fun _ => Or.inl rfl)
            simp only [List.append_nil] at tail
            simp only [if_pos ends, if_pos boundary.1, List.cons.injEq, true_and]
            exact tail
          · have step := inductionHypothesis done kept (fresh ++ [byte]) bounded
              (by
                rw [← List.append_assoc, List.mem_append, List.mem_singleton, not_or]
                exact ⟨plain, fun same => ends same.symm⟩)
              complete (by rw [List.append_assoc]; exact valid)
              (fun empty => absurd empty (List.append_ne_nil_of_right_ne_nil _ (by simp)))
            simp only [if_neg ends]
            rw [List.append_assoc kept, List.append_assoc (done ++ kept)]
            exact step
      | none =>
          rw [blocksHarmless_block]
          simp only [deliveredLines, bytesOf_block] at valid pending ⊢
          have bounds : Utf8.Valid (done ++ kept ++ fresh) ↔ Utf8.Valid fresh :=
            Utf8.valid_append_iff bounded fresh
          by_cases whole : Utf8.Valid fresh
          · have atLineStart : (done ++ kept ++ fresh = [] ∨
                (done ++ kept ++ fresh).getLast? = some Lines.newline) ↔ kept ++ fresh = [] := by
              rw [List.append_assoc]
              exact Lines.ends_complete_iff complete plain
            have step (later : kept ++ fresh = [] ∨ bytesOf arrivals ≠ []) :=
              inductionHypothesis done (kept ++ fresh) []
                (by rw [← List.append_assoc]; exact bounds.mpr whole)
                (by rw [List.append_nil]; exact plain) complete
                ((Utf8.valid_append_iff whole _).mp valid) (fun _ => later)
            simp only [List.append_nil, ← List.append_assoc] at step
            rw [if_pos whole, bounds, atLineStart]
            by_cases more : bytesOf arrivals = []
            · by_cases nothing : kept ++ fresh = []
              · simp only [whole, nothing, implies_true, and_self, true_and]
                rw [nothing] at step
                exact step (.inl rfl)
              · have lost : deliveredLines (kept ++ fresh) [] arrivals = [] :=
                  deliveredLines_exhausted _ _ more
                rw [lost, more, Lines.splitAfter, if_neg nothing]
                exact ⟨fun impossible => (by cases impossible),
                  fun harmless => absurd (harmless.1.2 rfl) nothing⟩
            · simp only [whole, more, false_implies, and_self, true_and]
              exact step (.inr more)
          · rw [if_neg whole]
            constructor
            · intro same
              have short := deliveredLines_size kept [] arrivals
              have nonempty : fresh ≠ [] := fun empty => whole (empty ▸ Utf8.valid_nil)
              have positive := List.length_pos_iff.mpr nonempty
              rw [same, Lines.splitAfter_flatten] at short
              simp only [List.length_append, List.length_nil] at short
              omega
            · exact fun harmless => absurd (bounds.mp harmless.1.1) whole

def onePiece : (stream : List UInt8) -> LineReader
  | [] => ⟨[], [], true⟩
  | first :: others => ⟨[], [.chunk first others], true⟩

theorem onePiece_arrivals (stream : List UInt8) :
    (onePiece stream).arrivals = stream.map some := by
  cases stream with
  | nil => rfl
  | cons first others => simp [onePiece, LineReader.arrivals, Delivery.arrivals]

theorem onePiece_finite (stream : List UInt8) : (onePiece stream).Finite := by
  cases stream with
  | nil => exact ⟨rfl, List.not_mem_nil⟩
  | cons first others => exact ⟨rfl, by simp [onePiece]⟩

theorem bytesOf_map_some (stream : List UInt8) : bytesOf (stream.map some) = stream := by
  induction stream with
  | nil => rfl
  | cons byte stream inductionHypothesis =>
      rw [List.map_cons, bytesOf_byte, inductionHypothesis]

/-- Of a well-formed stream that is delivered in one piece, `next_line` makes all its
lines. -/
theorem deliveredLines_onePiece (stream : List UInt8) (valid : Utf8.Valid stream) :
    deliveredLines [] [] (onePiece stream).arrivals = Lines.split stream := by
  have harmless : BlocksHarmless ([] ++ [] ++ []) (stream.map some) := by
    intro before after split
    have listed : (none : Arrival) ∈ stream.map some := by
      rw [split]
      exact List.mem_append_right _ List.mem_cons_self
    rcases List.mem_map.mp listed with ⟨byte, _, impossible⟩
    cases impossible
  have same := (deliveredLines_eq_iff [] [] [] (stream.map some) Utf8.valid_nil List.not_mem_nil
    (Or.inl rfl) (by rw [List.nil_append, bytesOf_map_some]; exact valid) (fun _ => Or.inl rfl)).mpr
    harmless
  rw [bytesOf_map_some] at same
  rw [onePiece_arrivals]
  exact same

/-- The results of `next_line` do not depend on how a well-formed stream is
cut and blocked, exactly when every `WouldBlock` is harmless. -/
theorem next_line_independent_iff (reader : LineReader) (finite : reader.Finite)
    (valid : Utf8.Valid (bytesOf reader.arrivals)) :
    (forall lines, LineResults reader lines ↔
        LineResults (onePiece (bytesOf reader.arrivals)) lines) ↔
      BlocksHarmless [] reader.arrivals := by
  have compare := deliveredLines_eq_iff [] [] [] reader.arrivals Utf8.valid_nil List.not_mem_nil
    (Or.inl rfl) valid (fun _ => Or.inl rfl)
  have whole := deliveredLines_onePiece (bytesOf reader.arrivals) valid
  rw [List.append_nil, List.append_nil] at compare
  rw [← compare]
  constructor
  · intro independent
    have results := (independent (deliveredLines [] [] reader.arrivals)).mp
      ((lineResults_iff reader finite _).mpr rfl)
    rw [lineResults_iff _ (onePiece_finite _), whole] at results
    exact results
  · intro same lines
    rw [lineResults_iff reader finite, lineResults_iff _ (onePiece_finite _), whole, same]
    rfl

/-- An accented letter and a newline, with a `WouldBlock` inside the letter. -/
def cutLetter : LineReader :=
  ⟨[], [.chunk 0xC3 [], .wouldBlock, .chunk 0xA9 [0x0A]], true⟩

theorem cutLetter_finite : cutLetter.Finite :=
  ⟨rfl, by decide⟩

/-- The lead byte of the letter is consumed and dropped, and the rest of the
line is then no valid text. -/
theorem cut_letter_loses_line :
    ¬ forall reader : LineReader, reader.Finite -> Utf8.Valid (bytesOf reader.arrivals) ->
        forall lines, LineResults reader lines ↔
          LineResults (onePiece (bytesOf reader.arrivals)) lines := by
  intro independent
  have valid : Utf8.Valid (bytesOf cutLetter.arrivals) := by decide
  have nothing : LineResults cutLetter [] :=
    (lineResults_iff cutLetter cutLetter_finite []).mpr (by decide)
  have whole := (independent cutLetter cutLetter_finite valid []).mp nothing
  rw [lineResults_iff _ (onePiece_finite _)] at whole
  exact absurd whole (by decide)

/-- The characterisation at that stream: the lines are not those of one piece, because
the `WouldBlock` falls inside a character. -/
theorem cut_letter_not_harmless :
    ¬ (forall lines, LineResults cutLetter lines ↔
      LineResults (onePiece (bytesOf cutLetter.arrivals)) lines) := by
  intro independent
  have harmless := (next_line_independent_iff cutLetter cutLetter_finite (by decide)).mp independent
  exact absurd (harmless [some 0xC3] [some 0xA9, some 0x0A] rfl).1 (by decide)

/-- An unterminated last line is lost when its reader blocks before the end. -/
example : deliveredLines [] [] [some 0x61, none] = [] ∧ Lines.split [0x61] = [[0x61]] := by
  decide

end Rpc
end WasmiPlugin
