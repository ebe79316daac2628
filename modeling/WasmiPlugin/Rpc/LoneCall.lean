import WasmiPlugin.Rpc.RequestReplies
import WasmiPlugin.Rpc.Stages
import WasmiPlugin.Rpc.WholeLines

namespace WasmiPlugin
namespace Rpc

open Foundation Lines

/-!
# A call by itself

`Plugin::call` makes one call on a transport that nobody else uses.  Its lines
come in pieces, it is polled now and then, and the handlers it runs take their
time.  None of this shows in what the call comes to.

`settle` says what that is, as a function of the lines and of what the handlers
return.  The invariant compares a call with it at every step: the lines that were
taken and the replies that were written are a beginning, and whatever follows is
settled from there.  The pieces are whole characters, reading does not fail, and
the stream does not end within a line.
-/

/-! ## What a call comes to -/

/-- What a handler returned, and whether the reply could be written. -/
abbrev Reaction := Except RpcError Value × Bool

/-- Where a call stands after some lines: it reads on, it waits for its handler's
result, or it has returned. -/
inductive Standing where
  | reading
  | serving (request : RpcRequest)
  | returned (result : Except RpcError RpcResponse)

/-- The replies that a call writes, and where it stands when it has read some lines
and its handlers have returned some results. -/
def settle (text : JsonText) (handler : Bool) (id : UInt64) (ended : Bool) :
    (lines : List (List UInt8)) -> (reactions : List Reaction) -> List RpcMessage × Standing
  | [], _ => ([], if ended then .returned (.error .internalError) else .reading)
  | line :: lines, reactions =>
      match decodeLine text line with
      | none => ([], .returned (.error .parseError))
      | some (.rpcErrorResponse response) => ([], .returned (.error response.error))
      | some (.rpcResponse response) =>
          if response.id = id then ([], .returned (.ok response))
          else settle text handler id ended lines reactions
      | some (.rpcRequest request) =>
          if handler then
            match reactions with
            | [] => ([], .serving request)
            | (_, false) :: _ => ([], .returned (.error .internalError))
            | (result, true) :: reactions =>
                let later := settle text handler id ended lines reactions
                (Transport.reply request result :: later.1, later.2)
          else ([], .returned (.error (.custom "Handler not found")))

/-- Where a task stands that runs a call. -/
def Phase.standing : Phase -> Option Standing
  | .awaitingReader => some .reading
  | .yielding _ => some .reading
  | .handling request => some (.serving request)
  | .answered response => some (.returned (.ok response))
  | .failed error => some (.returned (.error error))
  | _ => none

/-- A call has taken some lines and used some reactions, and whatever follows them
is settled from there. -/
def Continues (text : JsonText) (handler : Bool) (id : UInt64) (taken : List (List UInt8))
    (reactions : List Reaction) (replies : List RpcMessage) : Prop :=
  forall ended lines later, settle text handler id ended (taken ++ lines) (reactions ++ later) =
    (replies ++ (settle text handler id ended lines later).1,
      (settle text handler id ended lines later).2)

namespace Continues

variable {text : JsonText} {handler : Bool} {id : UInt64} {taken : List (List UInt8)}
  {reactions : List Reaction} {replies : List RpcMessage}

theorem start : Continues text handler id [] [] [] :=
  fun _ _ _ => rfl

theorem next (continues : Continues text handler id taken reactions replies) (ended : Bool)
    (line : List UInt8) (lines : List (List UInt8)) (later : List Reaction) :
    settle text handler id ended (taken ++ [line] ++ lines) (reactions ++ later) =
      (replies ++ (settle text handler id ended (line :: lines) later).1,
        (settle text handler id ended (line :: lines) later).2) := by
  rw [List.append_assoc, List.singleton_append]
  exact continues ended (line :: lines) later

theorem pass (continues : Continues text handler id taken reactions replies) {line : List UInt8}
    {response : RpcResponse} (read : decodeLine text line = some (.rpcResponse response))
    (other : response.id ≠ id) :
    Continues text handler id (taken ++ [line]) reactions replies := by
  intro ended lines later
  rw [continues.next]
  simp only [settle, read, if_neg other]

theorem replied (continues : Continues text true id taken reactions replies)
    {line : List UInt8} {request : RpcRequest}
    (read : decodeLine text line = some (.rpcRequest request)) (result : Except RpcError Value) :
    Continues text true id (taken ++ [line]) (reactions ++ [(result, true)])
      (replies ++ [Transport.reply request result]) := by
  intro ended lines later
  rw [List.append_assoc reactions, continues.next]
  simp only [settle, read, if_true, List.singleton_append, List.append_assoc]

end Continues

/-! ## One reader of whole characters -/

/-- What is buffered, and each piece to come, are whole characters, and reading
does not fail. -/
structure LineReader.Whole (reader : LineReader) : Prop where
  buffered : Utf8.Valid reader.buffered
  incoming : forall delivery, delivery ∈ reader.incoming -> Utf8.Valid delivery.bytes
  sound : Delivery.failure ∉ reader.incoming

private theorem takeLine_valid {stream line rest : List UInt8}
    (found : takeLine stream = some (line, rest)) (valid : Utf8.Valid stream) :
    Utf8.Valid line ∧ Utf8.Valid rest := by
  rcases takeLine_some found with ⟨shape, body, _, ends⟩
  rw [shape, ends, List.append_assoc, List.singleton_append] at valid
  rw [ends]
  exact Utf8.valid_ascii_split (show newline < 0x80 by decide) valid

private theorem readUntil_whole (closed : Bool) {buffered : List UInt8} {incoming : List Delivery}
    (whole : LineReader.Whole ⟨buffered, incoming, closed⟩) :
    Utf8.Valid (readUntil closed buffered incoming).appended ∧
      (readUntil closed buffered incoming).reader.Whole := by
  induction incoming generalizing buffered with
  | nil =>
      simp only [readUntil]
      cases found : takeLine buffered with
      | some parts =>
          rcases takeLine_valid found whole.buffered with ⟨line, rest⟩
          exact ⟨line, rest, whole.incoming, whole.sound⟩
      | none => exact ⟨whole.buffered, Utf8.valid_nil, whole.incoming, whole.sound⟩
  | cons delivery incoming inductionHypothesis =>
      have later : forall buffered, Utf8.Valid buffered ->
          LineReader.Whole ⟨buffered, incoming, closed⟩ := fun buffered valid =>
        ⟨valid, fun other listed => whole.incoming other (List.mem_cons_of_mem _ listed),
          fun listed => whole.sound (List.mem_cons_of_mem _ listed)⟩
      simp only [readUntil]
      cases found : takeLine buffered with
      | some parts =>
          rcases takeLine_valid found whole.buffered with ⟨line, rest⟩
          exact ⟨line, rest, whole.incoming, whole.sound⟩
      | none =>
          cases delivery with
          | chunk first others =>
              have chunk : Utf8.Valid (first :: others) := whole.incoming _ List.mem_cons_self
              rcases inductionHypothesis (later _ chunk) with ⟨appended, rest⟩
              exact ⟨(Utf8.valid_append_iff whole.buffered _).mpr appended, rest⟩
          | wouldBlock => exact ⟨whole.buffered, later [] Utf8.valid_nil⟩
          | failure => exact absurd List.mem_cons_self whole.sound

/-- What `read_line` makes of a partial line. -/
theorem readLine_whole {reader : LineReader} (whole : reader.Whole) (line : List UInt8) :
    Reads reader line (reader.readLine line) ∧ (reader.readLine line).2.2.Whole := by
  rcases reader with ⟨buffered, incoming, closed⟩
  rcases readUntil_fetches closed buffered incoming whole.sound with ⟨fetches, _⟩
  rcases readUntil_whole closed whole with ⟨valid, rest⟩
  simp only [LineReader.readLine, if_pos valid]
  generalize readUntil closed buffered incoming = got at fetches rest ⊢
  rcases got with ⟨appended, status, left⟩
  cases fetches with
  | line ok found =>
      dsimp only at ok found
      rcases (takeLine_some found).2 with ⟨body, _, ends⟩
      have counted : appended.length = body.length + 1 := by
        rw [ends, List.length_append, List.length_singleton]
      subst ok
      refine ⟨?_, rest⟩
      dsimp only
      rw [counted]
      exact .whole found
  | part blocks without shape =>
      dsimp only at blocks without shape
      subst blocks
      exact ⟨.more without shape, rest⟩
  | rest ok without ended shape none =>
      dsimp only at ok without ended shape none
      subst ok
      exact ⟨.ended without ended shape none rfl, rest⟩

/-- What a task that reads on comes to: it takes a line and processes it, it takes a
part of one and yields, or it is at the end. -/
inductive Finds (text : JsonText) (transport : Transport) (task : TaskId) (stream : List UInt8)
    (taken : List (List UInt8)) (rest : LineReader) : Transport -> Prop
  | line (found : List UInt8) : CutInto false stream (taken ++ [found]) [] rest.ahead ->
      Finds text transport task stream taken rest
        ({ transport with reader := rest, readerGuard := none }.processLine text task found)
  | part (partialLine : List UInt8) : CutInto false stream taken partialLine rest.ahead ->
      Finds text transport task stream taken rest
        ({ transport with reader := rest, readerGuard := some task }.setPhase task
          (.yielding partialLine))
  | ended : rest.closed = true -> CutInto false stream taken [] [] -> rest.ahead = [] ->
      Finds text transport task stream taken rest
        ({ transport with reader := rest, readerGuard := none }.setPhase task
          (.failed .internalError))

theorem Transport.nextLine_finds (text : JsonText) {transport : Transport} (task : TaskId)
    {stream : List UInt8} {taken : List (List UInt8)} {line : List UInt8}
    (whole : transport.reader.Whole)
    (ends : transport.reader.closed = true -> EndsLine stream)
    (cut : CutInto false stream taken line transport.reader.ahead) :
    Exists fun rest => rest.Whole ∧ rest.closed = transport.reader.closed ∧
      Finds text transport task stream taken rest (transport.nextLine text task line) := by
  rcases readLine_whole whole line with ⟨reads, left⟩
  have closed := readLine_closed transport.reader line
  simp only [Transport.nextLine]
  generalize transport.reader.readLine line = outcome at reads left closed ⊢
  cases reads with
  | @whole count found rest takes => exact ⟨rest, left, closed, .line _ (cut.line takes)⟩
  | @more body rest without shape =>
      rw [shape] at cut
      exact ⟨rest, left, closed, .part _ (cut.plain without)⟩
  | @ended count body rest without isClosed shape none counted =>
      -- the stream ends at the end of a line, so there is no part of one
      rw [shape, ← List.append_nil body] at cut
      have complete := (cut.plain without).complete (ends isClosed)
      rcases List.append_eq_nil_iff.mp complete with ⟨rfl, rfl⟩
      cases counted
      exact ⟨rest, left, closed, .ended (closed.trans isClosed) cut none⟩

/-! ## The call against its settlement -/

section Call

variable {text : JsonText} {handler : Bool} {task : TaskId} {request : RpcRequest}
  {stream : List UInt8} {reactions : List Reaction} {replies : List RpcMessage}
  {transport next : Transport}

/-- What the pending map and the channel of a call say while it has not returned: it
is the only one that waits for a response. -/
structure Waits (handler : Bool) (id : UInt64) (task : TaskId) (transport : Transport) : Prop where
  kind : (transport.task task).kind = .call
  channel : (transport.task task).channel = .empty
  own : transport.pending id = some task
  others : forall other, other ≠ id -> transport.pending other = none
  handler : transport.handler = handler

/-- How far a call has come: it reads, it serves the request in the line that it took
last, or it has returned, whatever follows. -/
inductive Course (text : JsonText) (handler : Bool) (id : UInt64) (task : TaskId)
    (stream : List UInt8) (reactions : List Reaction) (replies : List RpcMessage)
    (transport : Transport) : Prop
  | reading (line : List UInt8) (taken : List (List UInt8)) :
      (transport.task task).phase.partialLine = some line -> Waits handler id task transport ->
      CutInto false stream taken line transport.reader.ahead ->
      Continues text handler id taken reactions replies ->
      Course text handler id task stream reactions replies transport
  | serving (asked : RpcRequest) (line : List UInt8) (taken : List (List UInt8)) :
      (transport.task task).phase = .handling asked -> Waits true id task transport ->
      handler = true -> decodeLine text line = some (.rpcRequest asked) ->
      CutInto false stream (taken ++ [line]) [] transport.reader.ahead ->
      Continues text handler id taken reactions replies ->
      Course text handler id task stream reactions replies transport
  | returned (result : Except RpcError RpcResponse) :
      (transport.task task).phase.standing = some (.returned result) ->
      (forall more ended later, (transport.reader.closed = true -> more = [] ∧ ended = true) ->
        settle text handler id ended (split (stream ++ more)) (reactions ++ later) =
          (replies, .returned result)) ->
      Course text handler id task stream reactions replies transport

/-- The state of a transport with a call made alone: its request is written, its
reader cuts a stream of whole characters, and its course fits the lines that it took. -/
structure LoneCall (text : JsonText) (handler : Bool) (task : TaskId) (request : RpcRequest)
    (stream : List UInt8) (reactions : List Reaction) (transport : Transport) : Prop where
  reader : transport.reader.Whole
  ends : transport.reader.closed = true -> EndsLine stream
  free : (forall line, (transport.task task).phase ≠ .yielding line) ->
    transport.readerGuard = none
  course : Exists fun replies => transport.written = .rpcRequest request :: replies ∧
    Course text handler request.id task stream reactions replies transport

/-- A call that reads has nothing to read, and has not begun a line. -/
def CaughtUp (task : TaskId) (transport : Transport) : Prop :=
  (transport.task task).phase.partialLine ≠ none ->
    (transport.task task).phase.partialLine = some [] ∧ transport.reader.ahead = [] ∧
      transport.reader.closed = false

/-- What the call has written is a beginning of what it is to write, and where it
stands is where it is to stand, unless there is something left to read. -/
theorem LoneCall.settled (lone : LoneCall text handler task request stream reactions transport) :
    transport.written <+: .rpcRequest request :: (settle text handler request.id
        transport.reader.closed (split stream) reactions).1 ∧
      (CaughtUp task transport ->
        transport.written = .rpcRequest request :: (settle text handler request.id
          transport.reader.closed (split stream) reactions).1 ∧
        (transport.task task).phase.standing = some (settle text handler request.id
          transport.reader.closed (split stream) reactions).2) := by
  rcases lone.course with ⟨replies, written, course⟩
  rw [written]
  cases course with
  | reading line taken stands _ cut continues =>
      have whole := continues transport.reader.closed (splitAfter line transport.reader.ahead) []
      rw [← cut.whole, List.append_nil] at whole
      rw [whole]
      refine ⟨(List.prefix_cons_inj _).mpr (List.prefix_append _ _), fun caughtUp => ?_⟩
      rcases caughtUp (by rw [stands]; exact Option.some_ne_none _) with ⟨fresh, none, opened⟩
      rw [stands] at fresh
      cases fresh
      rw [none, opened, splitAfter, if_pos rfl]
      simp only [settle, List.append_nil, Bool.false_eq_true, if_false, true_and]
      cases place : (transport.task task).phase with
      | awaitingReader | yielding => rfl
      | idle | handling | answered | done | failed | dropped =>
          rw [place] at stands
          cases stands
  | serving asked line taken stands _ isTrue read cut continues =>
      have whole := continues.next transport.reader.closed line (split transport.reader.ahead) []
      have split := cut.whole
      rw [← Lines.split] at split
      rw [← split, List.append_nil] at whole
      subst isTrue
      simp only [settle, read, if_true, List.append_nil] at whole
      rw [whole, stands]
      exact ⟨List.prefix_rfl, fun _ => ⟨rfl, rfl⟩⟩
  | returned result stands returns =>
      have whole := returns [] transport.reader.closed [] fun closed => ⟨rfl, closed⟩
      rw [List.append_nil, List.append_nil] at whole
      rw [whole]
      exact ⟨List.prefix_rfl, fun _ => ⟨rfl, stands⟩⟩

/-- A call that has returned is settled, whatever was still to be read. -/
theorem LoneCall.returned (lone : LoneCall text handler task request stream reactions transport)
    {result : Except RpcError RpcResponse}
    (returned : (transport.task task).phase.returned = some result) {more : List UInt8}
    (ended : transport.reader.closed = true -> more = []) :
    transport.written = .rpcRequest request ::
        (settle text handler request.id true (split (stream ++ more)) reactions).1 ∧
      (settle text handler request.id true (split (stream ++ more)) reactions).2 =
        .returned result := by
  rcases lone.course with ⟨replies, written, course⟩
  cases course with
  | reading line taken stands =>
      cases place : (transport.task task).phase with
      | answered | failed =>
          rw [place] at stands
          cases stands
      | idle | awaitingReader | yielding | handling | done | dropped =>
          rw [place] at returned
          cases returned
  | serving asked line taken stands =>
      rw [stands] at returned
      cases returned
  | returned other stands returns =>
      have whole := returns more true [] fun closed => ⟨ended closed, rfl⟩
      rw [List.append_nil] at whole
      rw [whole, written]
      refine ⟨rfl, ?_⟩
      cases place : (transport.task task).phase with
      | answered | failed =>
          rw [place] at stands returned
          cases stands
          cases returned
          rfl
      | idle | awaitingReader | yielding | handling | done | dropped =>
          rw [place] at returned
          cases returned

/-- A call stays on its course when more arrives on its stream, or when the stream
ends. -/
theorem LoneCall.feed (lone : LoneCall text handler task request stream reactions transport)
    {reader : LineReader} {bytes : List UInt8} (whole : reader.Whole)
    (ahead : reader.ahead = transport.reader.ahead ++ bytes)
    (closed : transport.reader.closed = true -> reader.closed = true ∧ bytes = [])
    (ends : reader.closed = true -> EndsLine (stream ++ bytes)) :
    LoneCall text handler task request (stream ++ bytes) reactions
      { transport with reader := reader } := by
  rcases lone.course with ⟨replies, written, course⟩
  refine ⟨whole, ends, lone.free, replies, written, ?_⟩
  cases course with
  | reading line taken stands waits cut continues =>
      refine .reading line taken stands { waits with } ?_ continues
      rw [ahead]
      exact cut.arrive bytes
  | serving asked line taken stands waits isTrue read cut continues =>
      refine .serving asked line taken stands { waits with } isTrue read ?_ continues
      rw [ahead]
      exact cut.arrive bytes
  | returned result stands returns =>
      refine .returned result stands fun more ended later last => ?_
      rw [List.append_assoc]
      refine returns (bytes ++ more) ended later fun wasClosed => ?_
      rcases closed wasClosed with ⟨isClosed, none⟩
      rw [none]
      exact last isClosed

/-! ## The steps of the call -/

private theorem Waits.setPhase {id : UInt64} (waits : Waits handler id task transport)
    (phase : Phase) : Waits handler id task (transport.setPhase task phase) := by
  refine ⟨?_, ?_, waits.own, waits.others, waits.handler⟩
  · rw [Transport.setPhase_task]
    exact waits.kind
  · rw [Transport.setPhase_task]
    exact waits.channel

private theorem Waits.proceed {id : UInt64} (waits : Waits handler id task transport) :
    transport.proceed task = transport.setPhase task .awaitingReader := by
  simp only [Transport.proceed, waits.kind, waits.channel]

private theorem LoneCall.of_phase {phase : Phase} (reader : transport.reader.Whole)
    (ends : transport.reader.closed = true -> EndsLine stream)
    (free : transport.readerGuard = none)
    (written : transport.written = .rpcRequest request :: replies)
    (course : Course text handler request.id task stream reactions replies
      (transport.setPhase task phase)) :
    LoneCall text handler task request stream reactions (transport.setPhase task phase) :=
  ⟨reader, ends, fun _ => free, replies, written, course⟩

private theorem Course.failed {id : UInt64} {taken : List (List UInt8)} {line : List UInt8}
    {error : RpcError} (cut : CutInto false stream (taken ++ [line]) [] transport.reader.ahead)
    (continues : Continues text handler id taken reactions replies)
    (fails : forall ended lines later, settle text handler id ended (line :: lines) later =
      ([], .returned (.error error))) :
    Course text handler id task stream reactions replies
      (transport.setPhase task (.failed error)) := by
  refine .returned (.error error) ?_ fun more ended later _ => ?_
  · rw [Transport.setPhase_task]
    rfl
  · rw [cut more nofun, continues.next, fails, List.append_nil]

private theorem LoneCall.processLine {taken : List (List UInt8)} {line : List UInt8}
    (reader : transport.reader.Whole)
    (ends : transport.reader.closed = true -> EndsLine stream)
    (free : transport.readerGuard = none)
    (written : transport.written = .rpcRequest request :: replies)
    (waits : Waits handler request.id task transport)
    (inFlight : (transport.task task).phase.inFlight = true)
    (cut : CutInto false stream (taken ++ [line]) [] transport.reader.ahead)
    (continues : Continues text handler request.id taken reactions replies) :
    LoneCall text handler task request stream reactions
      (transport.processLine text task line) := by
  unfold Transport.processLine
  cases read : decodeLine text line with
  | none =>
      refine .of_phase reader ends free written (.failed cut continues fun ended lines later => ?_)
      simp only [settle, read]
  | some message =>
      cases message with
      | rpcErrorResponse response =>
          refine .of_phase reader ends free written
            (.failed cut continues fun ended lines later => ?_)
          simp only [settle, read]
      | rpcRequest asked =>
          have own : transport.hasHandler task = handler := by
            simp only [Transport.hasHandler, waits.kind, waits.handler]
          dsimp only [Transport.processMessage]
          rw [own]
          cases handler with
          | true =>
              rw [if_pos rfl]
              refine .of_phase reader ends free written
                (.serving asked line taken ?_ (waits.setPhase _) rfl read cut continues)
              rw [Transport.setPhase_task]
          | false =>
              rw [if_neg Bool.false_ne_true]
              refine .of_phase reader ends free written
                (.failed cut continues fun ended lines later => ?_)
              simp only [settle, read, Bool.false_eq_true, if_false]
      | rpcResponse response =>
          dsimp only [Transport.processMessage]
          by_cases own : response.id = request.id
          · -- the response is put into the call's channel, and found there
            have entry : transport.pending response.id = some task := by
              rw [own]
              exact waits.own
            have full := transport.deliver_task response task
            rw [if_pos ⟨entry, inFlight⟩] at full
            have kept := transport.deliver_reader response
            have frame := (transport.deliver_frame response).2.2
            rw [Transport.proceed_full response (by rw [full]; exact waits.kind) (by rw [full])]
            refine .of_phase (kept.1 ▸ reader) (kept.1 ▸ ends) (kept.2.trans free)
              (frame.trans written) (.returned (.ok response) ?_ fun more ended later _ => ?_)
            · rw [Transport.setPhase_task]
              rfl
            · rw [cut more nofun, continues.next]
              simp only [settle, read, if_pos own, List.append_nil]
          · rw [Transport.deliver_unknown (waits.others _ own), waits.proceed]
            refine .of_phase reader ends free written
              (.reading [] (taken ++ [line]) ?_ (waits.setPhase _) cut (continues.pass read own))
            rw [Transport.setPhase_task]
            rfl

/-- A poll of a call on its course leaves it on its course. -/
theorem LoneCall.poll (lone : LoneCall text handler task request stream reactions transport)
    (stepped : transport.step text (.poll task) = some next) :
    LoneCall text handler task request stream reactions next := by
  rcases lone.course with ⟨replies, written, course⟩
  rcases Transport.step_poll stepped with ⟨line, inLine, rfl⟩
  have inFlight := Phase.inFlight_of_partialLine inLine
  cases course with
  | serving asked line taken stands =>
      rw [stands] at inLine
      cases inLine
  | returned result stands =>
      cases place : (transport.task task).phase with
      | awaitingReader | yielding =>
          rw [place] at stands
          cases stands
      | idle | handling | answered | done | failed | dropped =>
          rw [place] at inLine
          cases inLine
  | reading same taken stands waits cut continues =>
      cases inLine.symm.trans stands
      rcases transport.nextLine_finds text task lone.reader lone.ends cut with
        ⟨rest, whole, closed, finds⟩
      generalize transport.nextLine text task line = next at finds ⊢
      cases finds with
      | line found cut =>
          exact .processLine whole (closed ▸ lone.ends) rfl written { waits with } inFlight cut
            continues
      | part partialLine cut =>
          have still : Waits handler request.id task
              { transport with reader := rest, readerGuard := some task } := { waits with }
          refine ⟨whole, closed ▸ lone.ends, fun awake => ?_, replies, written,
            .reading partialLine taken ?_ (still.setPhase _) cut continues⟩
          · refine absurd ?_ (awake partialLine)
            rw [Transport.setPhase_task]
          · rw [Transport.setPhase_task]
            rfl
      | ended isClosed cut none =>
          refine .of_phase whole (closed ▸ lone.ends) rfl written
            (.returned (.error .internalError) ?_ fun more ended later last => ?_)
          · rw [Transport.setPhase_task]
            rfl
          · rcases last isClosed with ⟨rfl, rfl⟩
            have settled := continues true [] later
            have lines := cut.whole
            rw [splitAfter, if_pos rfl, List.append_nil] at lines
            rw [List.append_nil] at settled ⊢
            rw [lines, settled]
            simp only [settle, if_true, List.append_nil]

/-- A result of its handler leaves a call on its course, and it has used one reaction
more. -/
theorem LoneCall.handlerReturns
    (lone : LoneCall text handler task request stream reactions transport)
    {result : Except RpcError Value} {writes : Bool}
    (stepped : transport.step text (.handlerReturns task result writes) = some next) :
    LoneCall text handler task request stream (reactions ++ [(result, writes)]) next := by
  rcases lone.course with ⟨replies, written, course⟩
  simp only [Transport.step] at stepped
  split at stepped
  · next asked handling =>
      have free := lone.free (by rw [handling]; exact fun _ => Phase.noConfusion)
      cases course with
      | reading line taken stands =>
          rw [handling] at stands
          cases stands
      | returned result stands =>
          rw [handling] at stands
          cases stands
      | serving same line taken stands waits isTrue read cut continues =>
          cases handling.symm.trans stands
          subst isTrue
          cases writes with
          | true =>
              rw [if_pos rfl] at stepped
              cases stepped
              have still : Waits true request.id task
                  (transport.writeMessage (Transport.reply asked result)) := { waits with }
              rw [still.proceed]
              refine .of_phase lone.reader lone.ends free ?_
                (.reading [] (taken ++ [line]) ?_ (still.setPhase _) cut
                  (continues.replied read result))
              · rw [Transport.writeMessage, written]
                rfl
              · rw [Transport.setPhase_task]
                rfl
          | false =>
              rw [if_neg Bool.false_ne_true] at stepped
              cases stepped
              refine .of_phase lone.reader lone.ends free written
                (.returned (.error .internalError) ?_ fun more ended later _ => ?_)
              · rw [Transport.setPhase_task]
                rfl
              · rw [cut more Bool.noConfusion, List.append_assoc reactions, continues.next]
                simp only [settle, read, if_true, List.singleton_append, List.append_nil]
  · cases stepped

theorem Transport.step_call_pending {method : String} {params : Value}
    (stepped : transport.step text (.call task method params true) = some next) :
    next.pending = Function.update transport.pending transport.id (some task) := by
  have idle := (Transport.step_call stepped).1
  simp only [Transport.step, idle, if_true, Option.some.injEq] at stepped
  rw [← stepped, Transport.proceed_pending]
  exact transport.register_pending task

/-- The state of a transport on which no call was made yet, with the stream that is
ahead of its reader. -/
structure Uncalled (handler : Bool) (stream : List UInt8) (transport : Transport) : Prop where
  idle : forall task, (transport.task task).phase = .idle
  id : transport.id = 0
  pending : forall id, transport.pending id = none
  written : transport.written = []
  guard : transport.readerGuard = none
  handler : transport.handler = handler
  reader : transport.reader.Whole
  ahead : transport.reader.ahead = stream
  ends : transport.reader.closed = true -> EndsLine stream

/-- A call that is made on such a transport begins its course. -/
theorem Uncalled.call (uncalled : Uncalled handler stream transport) {method : String}
    {params : Value} (stepped : transport.step text (.call task method params true) = some next) :
    LoneCall text handler task ⟨jsonRpcVersion, 0, method, params⟩ stream [] next := by
  rcases Transport.step_call stepped with
    ⟨_, own, entry, _, keeps, reader, wrote, _⟩
  have phase : (next.task task).phase = .awaitingReader := by rw [own]
  have pending : forall other, other ≠ 0 -> next.pending other = none := by
    intro other different
    rw [Transport.step_call_pending stepped, uncalled.id, Function.update_of_ne different]
    exact uncalled.pending other
  have guard : next.readerGuard = none := by
    simp only [Transport.step, uncalled.idle, if_true, Option.some.injEq] at stepped
    rcases Transport.proceed_shape ((transport.register task).writeMessage
      (.rpcRequest ⟨jsonRpcVersion, transport.id, method, params⟩)) task with ⟨phase, same⟩
    rw [← stepped, same]
    exact uncalled.guard
  rw [uncalled.id] at entry wrote
  refine ⟨reader ▸ uncalled.reader, reader ▸ uncalled.ends, fun _ => guard, [], ?_, ?_⟩
  · rw [wrote, uncalled.written]
    rfl
  · refine .reading [] [] ?_ ⟨?_, ?_, entry, pending, keeps.trans uncalled.handler⟩ ?_ .start
    · rw [phase]
      rfl
    · rw [own]
    · rw [own]
    · rw [reader, uncalled.ahead]
      exact .start false stream

end Call

/-! ## Every run -/

/-- The step is the call, or one that the call takes, or the peer's. -/
def Unaided (task : TaskId) (taken : Transition Transport TransportAction) : Prop :=
  match taken.action with
  | .call caller _ _ writes => caller = task ∧ writes = true
  | .poll polled => polled = task
  | .handlerReturns serving _ _ => serving = task
  | .arrive _ => True
  | .hangUp => True
  | .processNextLine _ _ => False
  | .drop _ => False

instance (task : TaskId) (taken : Transition Transport TransportAction) :
    Decidable (Unaided task taken) := by
  unfold Unaided
  split <;> infer_instance

/-- What arrives in a transition are whole characters, and no failure. -/
def WholePiece (taken : Transition Transport TransportAction) : Prop :=
  match taken.action with
  | .arrive delivery => Utf8.Valid delivery.bytes ∧ delivery ≠ .failure
  | _ => True

instance (taken : Transition Transport TransportAction) : Decidable (WholePiece taken) := by
  unfold WholePiece
  split <;> infer_instance

/-- The stream comes in whole characters and does not fail, and when it has ended it
has not ended within a line. -/
structure WholeInput (reader : LineReader) (history : List (Transition Transport TransportAction))
    (final : Transport) : Prop where
  start : reader.Whole
  pieces : forall taken, taken ∈ history -> WholePiece taken
  complete : final.reader.closed = true -> EndsLine (inputStream reader history)

/-- The call that begins in a transition. -/
def placing (taken : Transition Transport TransportAction) : Option (String × Value) :=
  match taken.action with
  | .call _ method params _ => some (method, params)
  | _ => none

def placed (history : List (Transition Transport TransportAction)) : List (String × Value) :=
  history.filterMap placing

/-- What a handler returns in a transition. -/
def reacting (taken : Transition Transport TransportAction) : Option Reaction :=
  match taken.action with
  | .handlerReturns _ result writes => some (result, writes)
  | _ => none

def reactions (history : List (Transition Transport TransportAction)) : List Reaction :=
  history.filterMap reacting

private theorem inputStream_extend (reader : LineReader)
    (history : List (Transition Transport TransportAction))
    (taken : Transition Transport TransportAction) :
    inputStream reader (history ++ [taken]) = inputStream reader history ++ arrived taken := by
  rw [inputStream, List.flatMap_append, List.flatMap_singleton, ← List.append_assoc, ← inputStream]

variable {text : JsonText} {handler : Bool} {task : TaskId} {begins : List (String × Value)}

theorem LineReader.Whole.arrive {reader : LineReader} (whole : reader.Whole)
    {delivery : Delivery} (valid : Utf8.Valid delivery.bytes) (sound : delivery ≠ .failure) :
    LineReader.Whole { reader with incoming := reader.incoming ++ [delivery] } := by
  refine ⟨whole.buffered, fun other listed => ?_, fun listed => ?_⟩
  · rcases List.mem_append.mp listed with before | last
    · exact whole.incoming other before
    · rw [List.mem_singleton.mp last]
      exact valid
  · rcases List.mem_append.mp listed with before | last
    · exact whole.sound before
    · exact sound (List.mem_singleton.mp last).symm

/-- No call has begun, or one has and is as it should be. -/
def Underway (text : JsonText) (handler : Bool) (task : TaskId)
    (begins : List (String × Value)) (stream : List UInt8) (reactions : List Reaction)
    (transport : Transport) : Prop :=
  (Uncalled handler stream transport ∧ begins = [] ∧ reactions = []) ∨
    Exists fun method => Exists fun params => begins = [(method, params)] ∧
      LoneCall text handler task ⟨jsonRpcVersion, 0, method, params⟩ stream reactions transport

theorem Underway.feed {stream : List UInt8} {reactions : List Reaction}
    {transport : Transport}
    (course : Underway text handler task begins stream reactions transport)
    {reader : LineReader} {bytes : List UInt8} (whole : reader.Whole)
    (ahead : reader.ahead = transport.reader.ahead ++ bytes)
    (closed : transport.reader.closed = true -> reader.closed = true ∧ bytes = [])
    (ends : reader.closed = true -> EndsLine (stream ++ bytes)) :
    Underway text handler task begins (stream ++ bytes) reactions
      { transport with reader := reader } := by
  rcases course with ⟨uncalled, none⟩ | ⟨method, params, begins, lone⟩
  · exact .inl ⟨{ uncalled with
      reader := whole
      ahead := by rw [ahead, uncalled.ahead]
      ends := ends }, none⟩
  · exact .inr ⟨method, params, begins, lone.feed whole ahead closed ends⟩

theorem Underway.whole {stream : List UInt8} {reactions : List Reaction}
    {transport : Transport}
    (course : Underway text handler task begins stream reactions transport) :
    transport.reader.Whole := by
  rcases course with ⟨uncalled, _⟩ | ⟨_, _, _, lone⟩
  · exact uncalled.reader
  · exact lone.reader

theorem Underway.step {stream : List UInt8} {reactions : List Reaction}
    {before after : Transport} {action : TransportAction}
    (course : Underway text handler task begins stream reactions before)
    (stepped : before.step text action = some after)
    (unaided : Unaided task ⟨before, action, after⟩)
    (piece : WholePiece ⟨before, action, after⟩)
    (complete : after.reader.closed = true ->
      EndsLine (stream ++ arrived ⟨before, action, after⟩)) :
    Underway text handler task (begins ++ (placing ⟨before, action, after⟩).toList)
      (stream ++ arrived ⟨before, action, after⟩)
      (reactions ++ (reacting ⟨before, action, after⟩).toList) after := by
  cases action with
  | call caller method params writes =>
      rcases unaided with ⟨rfl, rfl⟩
      simp only [arrived, placing, reacting, Option.toList_none, Option.toList_some,
        List.append_nil]
      rcases course with ⟨uncalled, rfl, rfl⟩ | ⟨_, _, _, lone⟩
      · exact .inr ⟨method, params, rfl, uncalled.call stepped⟩
      · rcases lone.course with ⟨replies, _, stands⟩
        have idle := (Transport.step_call stepped).1
        cases stands with
        | reading _ _ place =>
            rw [idle] at place
            cases place
        | serving _ _ _ place =>
            rw [idle] at place
            cases place
        | returned _ place =>
            rw [idle] at place
            cases place
  | poll polled =>
      cases unaided
      simp only [arrived, placing, reacting, Option.toList_none, List.append_nil]
      rcases course with ⟨uncalled, _⟩ | ⟨method, params, begins, lone⟩
      · rcases Transport.step_poll stepped with ⟨line, reading, _⟩
        rw [uncalled.idle] at reading
        cases reading
      · exact .inr ⟨method, params, begins, lone.poll stepped⟩
  | handlerReturns serving result writes =>
      cases unaided
      simp only [arrived, placing, reacting, Option.toList_none, Option.toList_some,
        List.append_nil]
      rcases course with ⟨uncalled, _⟩ | ⟨method, params, begins, lone⟩
      · simp only [Transport.step, uncalled.idle, reduceCtorEq] at stepped
      · exact .inr ⟨method, params, begins, lone.handlerReturns stepped⟩
  | arrive delivery =>
      simp only [Transport.step] at stepped
      split at stepped
      · cases stepped
      · next opened =>
          cases stepped
          simp only [placing, reacting, Option.toList_none, List.append_nil]
          refine course.feed (course.whole.arrive piece.1 piece.2) ?_
            (fun closed => absurd closed opened) complete
          simp only [LineReader.ahead, List.flatMap_append, List.flatMap_singleton,
            List.append_assoc, arrived]
  | hangUp =>
      cases stepped
      simp only [placing, reacting, Option.toList_none, List.append_nil]
      have whole := course.whole
      have ended : LineReader.Whole { before.reader with closed := true } :=
        ⟨whole.buffered, whole.incoming, whole.sound⟩
      exact course.feed ended (List.append_nil _).symm (fun _ => ⟨rfl, rfl⟩) complete
  | processNextLine | drop => cases unaided

private theorem underway {reader : LineReader}
    {history : List (Transition Transport TransportAction)} {final : Transport}
    (run : Run (Transport.step text) (.new reader handler) history final)
    (unaided : forall taken, taken ∈ history -> Unaided task taken)
    (input : WholeInput reader history final) :
    Underway text handler task (placed history) (inputStream reader history) (reactions history)
      final := by
  induction run with
  | start =>
      have stream : inputStream reader [] = reader.ahead := List.append_nil _
      exact .inl ⟨⟨fun _ => rfl, rfl, fun _ => rfl, rfl, rfl, rfl, input.start, stream.symm,
        input.complete⟩, rfl, rfl⟩
  | @extend history before after action run stepped inductionHypothesis =>
      have complete := input.complete
      have last : (⟨before, action, after⟩ : Transition Transport TransportAction) ∈
        history ++ [⟨before, action, after⟩] := List.mem_append_right _ List.mem_cons_self
      rw [inputStream_extend] at complete ⊢
      rw [reactions, placed, filterMap_extend, filterMap_extend, ← reactions, ← placed]
      refine (inductionHypothesis
        (fun taken member => unaided taken (List.mem_append_left _ member))
        ⟨input.start, fun taken member => input.pieces taken (List.mem_append_left _ member),
          fun closed => ?_⟩).step stepped (unaided _ last) (input.pieces _ last) complete
      rcases step_closed stepped closed with ⟨still, none⟩
      rw [none, List.append_nil] at complete
      exact complete still

/-- A call that is made alone, on a stream of whole characters that does not fail and
does not end within a line, writes and returns what `settle` makes of its lines and of
its handlers' results, whenever they come and whenever it is polled. -/
theorem lone_call_settles {reader : LineReader}
    {history : List (Transition Transport TransportAction)} {final : Transport}
    (run : Run (Transport.step text) (.new reader handler) history final)
    (unaided : forall taken, taken ∈ history -> Unaided task taken)
    (input : WholeInput reader history final) {method : String} {params : Value}
    (called : (method, params) ∈ placed history) {settled : List RpcMessage × Standing}
    (settles : settled = settle text handler 0 final.reader.closed
      (split (inputStream reader history)) (reactions history)) :
    final.written <+: .rpcRequest ⟨jsonRpcVersion, 0, method, params⟩ :: settled.1 ∧
      (CaughtUp task final ->
        final.written = .rpcRequest ⟨jsonRpcVersion, 0, method, params⟩ :: settled.1 ∧
        (final.task task).phase.standing = some settled.2) := by
  subst settles
  rcases underway run unaided input with ⟨_, none, _⟩ | ⟨_, _, one, lone⟩
  · rw [none] at called
    exact absurd called List.not_mem_nil
  · rw [one] at called
    cases List.mem_singleton.mp called
    exact lone.settled

/-- A call whose peer asks it something first, answers the peer and returns the peer's
reply. -/
theorem served_call_settles :
    let played := (Run.play (Transport.step requestText) (.new ⟨[], [], false⟩ true)
      requestServed).get requestServed_enabled
    played.2.written <+: .rpcRequest ⟨jsonRpcVersion, 0, "get", .null⟩ ::
        (settle requestText true 0 played.2.reader.closed
          (split (inputStream ⟨[], [], false⟩ played.1)) (reactions played.1)).1 ∧
      (CaughtUp 0 played.2 ->
        played.2.written = .rpcRequest ⟨jsonRpcVersion, 0, "get", .null⟩ ::
          (settle requestText true 0 played.2.reader.closed
            (split (inputStream ⟨[], [], false⟩ played.1)) (reactions played.1)).1 ∧
        (played.2.task 0).phase.standing = some (settle requestText true 0
          played.2.reader.closed (split (inputStream ⟨[], [], false⟩ played.1))
          (reactions played.1)).2) :=
  lone_call_settles (Run.of_enabled requestServed requestServed_enabled) (by decide)
    ⟨⟨Utf8.valid_nil, fun _ listed => absurd listed List.not_mem_nil, List.not_mem_nil⟩,
      by decide, nofun⟩ List.mem_cons_self rfl

end Rpc
end WasmiPlugin
