import WasmiPlugin.Wasi.Timers
import WasmiPlugin.Wasi.WriteReport

namespace WasmiPlugin
namespace Wasi

open Foundation

/-!
# Which calls the host survives

A call is survived when it does not panic and when an access outside the guest's
memory ends it with `Fault`.  `HostCall.Guarded` says for every call, from its
arguments and the state before it, when that is so.  Most functions are survived
always.  The others read a table of records or a result address with an `unwrap`,
allocate a vector of a length that the guest has given, or add to a number without
checking.  What length is too much for a vector depends on the target of the host.

The proofs compute the weakest precondition of each function for the endings
that are survived.  A panic is never one of them, so a step that may panic turns
into the condition under which it does not.
-/

section Target

variable [HostTarget]

/-- An ending that the host survives: it is no panic, and after an access outside of
the memory it is `Fault`. -/
def Fine (ending : Ending) (after : Caller) : Prop :=
  ending ≠ .panic ∧ (after.strayed = true -> ending = .errno .fault)

def HostCall.Survives (platform : Platform) (call : HostCall) (caller : Caller) : Prop :=
  Fine (call.perform platform caller).1 (call.perform platform caller).2

/-! ## The conditions -/

/-- The size of some strings as `args_sizes_get` computes it, without bound. -/
def stringsSize : List (List UInt8) -> Nat
  | [] => 0
  | string :: strings => string.length % 2 ^ 32 + 1 + stringsSize strings

/-- `fd_read` gets from a record on to its end: each record that it reaches is safe,
what it stores into the record's buffer lies within the memory and can be counted, and
the count has a place, unless the loop ends in an error. -/
def ReadGuarded (count : Region) : (remaining base total : Nat) -> GuestMemory ->
    Option Pipe.BufReader -> Pipe.Inner -> Prop
  | 0, _, _, memory, _, _ => memory.Covers count
  | remaining + 1, base, total, memory, reader, pipe =>
      SafeRecord memory base ∧
        match reader with
        | none => True
        | some reader =>
            match reader.read pipe (recordAt memory base).2 with
            | (.wouldBlock, _, _) => True
            | (.ok data, reader, pipe) =>
                if data.length = 0 then memory.Covers count
                else total + data.length < usizeModulus ∧
                  memory.Covers ⟨(recordAt memory base).1, data.length⟩ ∧
                  if data.length < (recordAt memory base).2 then memory.Covers count
                  else ReadGuarded count remaining (base + 8) (total + data.length)
                    (memory.overwrite (recordAt memory base).1 data) (some reader) pipe

/-- `fd_write` gets to its end: the first record that it does not pass is safe, and
the bytes that go out before can be counted in a `usize`. -/
def WriteGuarded (caller : Caller) (fd : Int32) (base count : Nat) : Prop :=
  forall leading, leading ≤ count ->
    (forall earlier, earlier < leading -> PassesRecord caller fd (base + earlier * 8)) ->
    LinearMemory.totalLength (buffersAt caller.memory base leading) < usizeModulus ∧
      (leading < count -> SafeRecord caller.memory (base + leading * 8))

/-- The condition under which the host survives a call, from the arguments of the call
and the state before it. -/
def HostCall.Guarded (platform : Platform) (caller : Caller) : HostCall -> Prop
  | .argsSizesGet _ _ => stringsSize caller.ctx.args < 2 ^ 32
  | .environSizesGet _ _ => stringsSize caller.ctx.env < 2 ^ 32
  | .fdRead fd iovPtr iovLen nreadPtr => fd ≠ 0 ∨
      ReadGuarded ⟨asUsize nreadPtr, 4⟩ (turns iovLen) (asUsize iovPtr) 0 caller.memory
        caller.ctx.stdinReader caller.stdin
  | .fdWrite fd ciovPtr ciovLen _ => WriteGuarded caller fd (asUsize ciovPtr) (turns ciovLen)
  | .randomGet _ bufLen => 0 ≤ bufLen.toInt
  | .pollOneoff subsPtr eventsPtr nsubscriptions resultPtr =>
      (forall index, index < turns nsubscriptions ->
        caller.memory.Covers ⟨asUsize subsPtr + index * 48, 48⟩) ∧
      (clockSubscriptions caller.memory (asUsize subsPtr) (turns nsubscriptions) 0 ≠ [] ->
        platform.sinceEpoch ≠ none ->
        caller.memory.Covers ⟨asUsize eventsPtr, 32⟩ ∧
          caller.memory.Covers ⟨asUsize resultPtr, 4⟩)
  | .procRaise sig => sig ∈ Host.ignoredSignals ∨ 128 + sig.toInt < 2 ^ 31
  | .argsGet _ _ | .environGet _ _ | .fdFdstatGet _ _ | .clockTimeGet _ _ _ | .fdClose _
  | .schedYield | .procExit _ => True

/-! ## Endings -/

theorem not_fine_panic (after : Caller) : ¬ Fine .panic after :=
  fun fine => fine.1 rfl

theorem fine_fault (after : Caller) : Fine (.errno .fault) after :=
  ⟨Ending.noConfusion, fun _ => rfl⟩

/-- Without an access outside, every ending but a panic is survived. -/
theorem fine_clean {ending : Ending} {after : Caller} (other : ending ≠ .panic)
    (clean : after.strayed = false) : Fine ending after := by
  refine ⟨other, fun strayed => ?_⟩
  rw [clean] at strayed
  cases strayed

theorem HostCall.survives_iff_wp (platform : Platform) (call : HostCall) (caller : Caller) :
    call.Survives platform caller ↔
      (call.body platform).wp Fine Fine { caller with strayed := false } :=
  call.perform_wp platform caller Fine

/-! ## Functions that are always survived -/

private theorem writeStrings_fine (strings : List (List UInt8)) (tablePtr bufPtr : Nat)
    {caller : Caller} (clean : caller.strayed = false) :
    (Host.writeStrings strings tablePtr bufPtr).wp Fine Fine caller := by
  induction strings generalizing tablePtr bufPtr caller with
  | nil => exact fine_clean Ending.noConfusion clean
  | cons string strings inductionHypothesis =>
      have small := GuestMemory.size_le_isizeMax caller.memory
      have isize := targetBounds.isize
      simp only [Host.writeStrings, Host.writePointerAndString, Program.wp_bind,
        Host.wp_writeMemory, Host.wp_usize, Program.wp_pure, LinearMemory.overwrite_covers]
      split
      · next table =>
          simp only [LinearMemory.Covers, leBytes_length] at table
          rw [if_pos (by omega)]
          split
          · next buffer =>
              simp only [LinearMemory.Covers, List.length_append, List.length_singleton] at buffer
              rw [if_pos (by omega)]
              apply inductionHypothesis
              exact clean
          · exact fine_fault _
      · exact fine_fault _

private theorem stringsGet_fine (select : WasiCtx -> List (List UInt8)) (table buf : UInt32)
    {caller : Caller} (clean : caller.strayed = false) :
    (Host.stringsGet select table buf).wp Fine Fine caller := by
  simp only [Host.stringsGet, Program.wp_bind, Program.wp_look]
  exact writeStrings_fine _ _ _ clean

private theorem fdFdstatGet_fine (fd bufPtr : Int32) {caller : Caller}
    (clean : caller.strayed = false) : (Host.fdFdstatGet fd bufPtr).wp Fine Fine caller := by
  have written : forall rights,
      (if caller.memory.Covers ⟨asUsize bufPtr, (Host.fdstat rights).length⟩
      then Fine (.errno .success)
        { caller with memory := caller.memory.overwrite (asUsize bufPtr) (Host.fdstat rights) }
      else Fine (.errno .fault) { caller with strayed := true }) := by
    intro rights
    split
    · exact fine_clean Ending.noConfusion clean
    · exact fine_fault _
  simp only [Host.fdFdstatGet, Program.wp_bind, Program.wp_ite, Program.wp_pure,
    Program.wp_stop, Host.wp_writeMemory]
  split
  · exact written _
  · split
    · exact written _
    · exact fine_clean Ending.noConfusion clean

private theorem clockTimeGet_fine (platform : Platform) (clockId resultPtr : Int32)
    {caller : Caller} (clean : caller.strayed = false) :
    (Host.clockTimeGet platform clockId resultPtr).wp Fine Fine caller := by
  simp only [Host.clockTimeGet, Program.wp_ite, Program.wp_pure]
  split
  · unfold Host.nowNanos
    cases platform.sinceEpoch with
    | none => exact fine_clean Ending.noConfusion clean
    | some nanos =>
        simp only [Program.wp_bind, Program.wp_pure, Host.wp_writeMemory]
        split
        · exact fine_clean Ending.noConfusion clean
        · exact fine_fault _
  · exact fine_clean Ending.noConfusion clean

private theorem fdClose_fine (fd : Int32) {caller : Caller} (clean : caller.strayed = false) :
    (Host.fdClose fd).wp Fine Fine caller := by
  simp only [Host.fdClose, Program.wp_ite, Program.wp_bind, Program.wp_change, Program.wp_pure]
  split
  · exact fine_clean Ending.noConfusion clean
  · split
    · exact fine_clean Ending.noConfusion clean
    · split <;> exact fine_clean Ending.noConfusion clean

/-! ## Sizes, random bytes and signals -/

theorem Host.wp_sumSizes {ends : Ending -> Caller -> Prop}
    (noPanic : forall after, ¬ ends .panic after) (strings : List (List UInt8)) (total : Nat)
    (small : total < 2 ^ 32) {post : Nat -> Caller -> Prop} {caller : Caller} :
    (Host.sumSizes strings total).wp post ends caller ↔
      total + stringsSize strings < 2 ^ 32 ∧ post (total + stringsSize strings) caller := by
  induction strings generalizing total with
  | nil =>
      simp only [Host.sumSizes, stringsSize, Program.wp_pure, Nat.add_zero]
      exact ⟨fun holds => ⟨small, holds⟩, fun holds => holds.2⟩
  | cons string strings inductionHypothesis =>
      simp only [Host.sumSizes, stringsSize, Program.wp_bind, Host.wp_u32, noPanic]
      generalize string.length % 2 ^ 32 + 1 = size
      by_cases fits : size < 2 ^ 32 ∧ total + size < 2 ^ 32
      · rw [if_pos fits.1, if_pos fits.2, inductionHypothesis (total + size) fits.2, Nat.add_assoc]
      · constructor
        · intro holds
          split at holds
          · next first =>
              split at holds
              · next second => exact absurd ⟨first, second⟩ fits
              · exact absurd holds id
          · exact absurd holds id
        · intro holds
          omega

private theorem stringsSizesGet_fine (select : WasiCtx -> List (List UInt8))
    (offset0 offset1 : UInt32) {caller : Caller} (clean : caller.strayed = false) :
    (Host.stringsSizesGet select offset0 offset1).wp Fine Fine caller ↔
      stringsSize (select caller.ctx) < 2 ^ 32 := by
  simp only [Host.stringsSizesGet, Program.wp_bind, Program.wp_look, Host.wp_writeMemory,
    Program.wp_pure, Host.wp_sumSizes not_fine_panic _ 0 (by decide), Nat.zero_add,
    LinearMemory.overwrite_covers]
  constructor
  · exact fun holds => holds.1
  · intro small
    refine ⟨small, ?_⟩
    split
    · split
      · exact fine_clean Ending.noConfusion clean
      · exact fine_fault _
    · exact fine_fault _

private theorem asUsize_le_isizeMax (value : Int32) :
    asUsize value ≤ isizeMax ↔ 0 ≤ value.toInt := by
  rcases asUsize_spec value with ⟨positive, negative⟩
  have signed := targetBounds.signed
  have below := value.toInt_lt
  omega

private theorem randomGet_fine (platform : Platform) (bufPtr bufLen : Int32) {caller : Caller}
    (clean : caller.strayed = false) :
    (Host.randomGet platform bufPtr bufLen).wp Fine Fine caller ↔ 0 ≤ bufLen.toInt := by
  simp only [Host.randomGet, Program.wp_bind, Host.wp_allocate_iff not_fine_panic,
    asUsize_le_isizeMax]
  constructor
  · exact fun holds => holds.1
  · intro positive
    refine ⟨positive, ?_⟩
    cases platform.random with
    | none => exact fine_clean Ending.noConfusion clean
    | some random =>
        simp only [Program.wp_bind, Host.wp_writeMemory, Program.wp_pure]
        split
        · exact fine_clean Ending.noConfusion clean
        · exact fine_fault _

private theorem procRaise_fine (sig : Int32) {caller : Caller} (clean : caller.strayed = false) :
    (Host.procRaise sig).wp Fine Fine caller ↔
      sig ∈ Host.ignoredSignals ∨ 128 + sig.toInt < 2 ^ 31 := by
  simp only [Host.procRaise, Program.wp_ite, Program.wp_pure, Program.wp_stop, not_fine_panic]
  by_cases ignored : sig ∈ Host.ignoredSignals
  · rw [if_pos ignored]
    exact ⟨fun _ => .inl ignored, fun _ => fine_clean Ending.noConfusion clean⟩
  · rw [if_neg ignored]
    by_cases fits : 128 + sig.toInt < 2 ^ 31
    · rw [if_pos fits]
      exact ⟨fun _ => .inr fits, fun _ => fine_clean Ending.noConfusion clean⟩
    · rw [if_neg fits]
      exact ⟨fun impossible => absurd impossible id, fun either => either.elim ignored fits⟩

/-! ## `fd_write` -/

theorem totalLength_buffersAt_le (memory : GuestMemory) (base : Nat) {fewer count : Nat}
    (below : fewer ≤ count) :
    LinearMemory.totalLength (buffersAt memory base fewer) ≤
      LinearMemory.totalLength (buffersAt memory base count) := by
  induction count generalizing fewer base with
  | zero =>
      rw [Nat.le_zero.mp below]
  | succ count inductionHypothesis =>
      cases fewer with
      | zero => exact Nat.zero_le _
      | succ fewer =>
          apply Nat.add_le_add_left
          exact inductionHypothesis (base + 8) (Nat.le_of_succ_le_succ below)

private theorem fdWrite_fine (fd ciovPtr ciovLen nwritePtr : Int32) {caller : Caller}
    (clean : caller.strayed = false) :
    (Host.fdWrite fd ciovPtr ciovLen nwritePtr).wp Fine Fine caller ↔
      WriteGuarded caller fd (asUsize ciovPtr) (turns ciovLen) := by
  rw [wp_fdWrite not_fine_panic fd ciovPtr ciovLen nwritePtr rfl rfl]
  generalize asUsize ciovPtr = base
  generalize turns ciovLen = count
  have sentClean (buffers : List Region) : (caller.sentAll fd buffers).strayed = false :=
    (caller.sentAll_frame fd buffers).2.trans clean
  rcases passed_spec caller fd count base with ⟨leading, next⟩
  have within := passed_le caller fd count base
  constructor
  · rintro ⟨counted, ends⟩ index inside passes
    have reached : index ≤ passed caller fd count base := by
      by_contra beyond
      have fewer : passed caller fd count base ≠ count := by omega
      exact next fewer (passes _ (Nat.lt_of_not_le beyond))
    refine ⟨Nat.lt_of_le_of_lt (totalLength_buffersAt_le _ base reached) counted, fun another => ?_⟩
    rcases Nat.eq_or_lt_of_le reached with last | inner
    · rw [last] at another ⊢
      rw [if_neg (Nat.ne_of_lt another)] at ends
      exact ends.1
    · exact (leading index inner).safe
  · intro guarded
    rcases guarded _ within leading with ⟨counted, safe⟩
    refine ⟨counted, ?_⟩
    split
    · split
      · exact fine_clean Ending.noConfusion (sentClean _)
      · exact fine_fault _
    · next fewer =>
        refine ⟨safe (Nat.lt_of_le_of_ne within fewer), ?_⟩
        split
        · exact fine_clean Ending.noConfusion (sentClean _)
        · exact fine_fault _

/-! ## `fd_read` -/

private theorem readStdin_fine (room : Nat) {post : List UInt8 -> Caller -> Prop}
    {caller : Caller} (clean : caller.strayed = false) :
    (Host.readStdin room).wp post Fine caller ↔
      match caller.ctx.stdinReader with
      | none => True
      | some reader =>
          match reader.read caller.stdin room with
          | (.wouldBlock, _, _) => True
          | (.ok data, reader, pipe) => post data { caller with
              ctx := { caller.ctx with stdinReader := some reader }
              stdin := pipe } := by
  rw [Host.wp_readStdin]
  cases caller.ctx.stdinReader with
  | none => exact iff_of_true (fine_clean Ending.noConfusion clean) trivial
  | some reader =>
      dsimp only
      rcases reader.read caller.stdin room with ⟨result, reader, pipe⟩
      cases result with
      | ok data => exact Iff.rfl
      | wouldBlock => exact iff_of_true (fine_clean Ending.noConfusion clean) trivial

/-- Whichever turn is the last, what follows stores the count. -/
private theorem wp_fdReadLoop (iovPtr : Int32) (count : Region) {post : Nat -> Caller -> Prop}
    (stored : forall total after, after.strayed = false ->
      (post total after ↔ after.memory.Covers count)) (remaining index total : Nat)
    {caller : Caller} (clean : caller.strayed = false) :
    (Program.loop (Host.fdReadTurn iovPtr) remaining index total).wp post Fine caller ↔
      ReadGuarded count remaining (asUsize iovPtr + index * 8) total caller.memory
        caller.ctx.stdinReader caller.stdin := by
  induction remaining generalizing index total caller with
  | zero => exact stored total caller clean
  | succ remaining inductionHypothesis =>
      simp only [Program.wp_loop_succ, Host.fdReadTurn, Program.wp_bind,
        Host.wp_iovec_iff not_fine_panic iovPtr, Host.wp_allocate_iff not_fine_panic,
        ReadGuarded, SafeRecord, bufferAt, and_assoc]
      generalize recordAt caller.memory (asUsize iovPtr + index * 8) = record
      apply and_congr_right
      intro covered
      apply and_congr_right
      intro allocated
      rw [readStdin_fine record.2 clean]
      cases caller.ctx.stdinReader with
      | none => exact Iff.rfl
      | some reader =>
          dsimp only
          rcases reader.read caller.stdin record.2 with ⟨result, reader', pipe⟩
          cases result with
          | wouldBlock => exact Iff.rfl
          | ok data =>
              simp only [Program.wp_ite, Program.wp_pure, Program.wp_bind,
                Host.wp_usize_iff not_fine_panic, Host.wp_writeMemory, not_fine_panic]
              by_cases ended : data.length = 0
              · rw [if_pos ended, if_pos ended]
                exact stored total _ (by exact clean)
              · rw [if_neg ended, if_neg ended]
                apply and_congr_right
                intro fits
                by_cases placed : caller.memory.Covers ⟨record.1, data.length⟩
                · rw [if_pos placed]
                  simp only [placed, true_and]
                  by_cases short : data.length < record.2
                  · rw [if_pos short, if_pos short]
                    exact stored _ _ (by exact clean)
                  · rw [if_neg short, if_neg short]
                    rw [show asUsize iovPtr + index * 8 + 8 = asUsize iovPtr + (index + 1) * 8 by
                      omega]
                    exact inductionHypothesis (index + 1) (total + data.length) (by exact clean)
                · rw [if_neg placed]
                  simp only [placed, false_and]

private theorem fdRead_fine (fd : UInt32) (iovPtr iovLen nreadPtr : Int32) {caller : Caller}
    (clean : caller.strayed = false) :
    (Host.fdRead fd iovPtr iovLen nreadPtr).wp Fine Fine caller ↔
      fd ≠ 0 ∨ ReadGuarded ⟨asUsize nreadPtr, 4⟩ (turns iovLen) (asUsize iovPtr) 0 caller.memory
        caller.ctx.stdinReader caller.stdin := by
  simp only [Host.fdRead, Program.wp_ite, Program.wp_bind, Program.wp_pure]
  by_cases other : fd ≠ 0
  · rw [if_pos other]
    exact ⟨fun _ => .inl other, fun _ => fine_clean Ending.noConfusion clean⟩
  · rw [if_neg other]
    rw [wp_fdReadLoop iovPtr ⟨asUsize nreadPtr, 4⟩ ?_ (turns iovLen) 0 0 clean]
    · rw [Nat.zero_mul, Nat.add_zero]
      exact ⟨.inr, fun either => either.elim (fun this => absurd this other) id⟩
    · intro total after afterClean
      simp only [Host.wp_writeMemory, leBytes_length, not_fine_panic]
      split
      · next covered => exact ⟨fun _ => covered, fun _ => fine_clean Ending.noConfusion afterClean⟩
      · next outside =>
          exact ⟨fun impossible => absurd impossible id, fun covered => outside covered⟩

/-! ## `poll_oneoff` -/

private theorem pollOneoff_fine (platform : Platform)
    (subsPtr eventsPtr nsubscriptions resultPtr : Int32) {caller : Caller}
    (clean : caller.strayed = false) :
    (Host.pollOneoff platform subsPtr eventsPtr nsubscriptions resultPtr).wp Fine Fine caller ↔
      (forall index, index < turns nsubscriptions ->
        caller.memory.Covers ⟨asUsize subsPtr + index * 48, 48⟩) ∧
      (clockSubscriptions caller.memory (asUsize subsPtr) (turns nsubscriptions) 0 ≠ [] ->
        platform.sinceEpoch ≠ none ->
        caller.memory.Covers ⟨asUsize eventsPtr, 32⟩ ∧
          caller.memory.Covers ⟨asUsize resultPtr, 4⟩) := by
  have refused : Fine (.errno .inval) caller := fine_clean Ending.noConfusion clean
  rw [wp_pollOneoff not_fine_panic]
  apply and_congr_right
  intro _
  cases clockSubscriptions caller.memory (asUsize subsPtr) (turns nsubscriptions) 0 with
  | nil => exact ⟨fun _ impossible => absurd rfl impossible, fun _ => refused⟩
  | cons first others =>
      cases platform.sinceEpoch with
      | none => exact ⟨fun _ _ impossible => absurd rfl impossible, fun _ => refused⟩
      | some nanos =>
          constructor
          · exact fun holds _ _ => ⟨holds.1, holds.2.1⟩
          · intro covered
            rcases covered (List.cons_ne_nil _ _) (Option.some_ne_none _) with ⟨events, result⟩
            exact ⟨events, result, fine_clean Ending.noConfusion clean⟩

/-! ## Every function -/

/-- The host survives a call exactly when the call is guarded. -/
theorem survives_iff_guarded (platform : Platform) (call : HostCall) (caller : Caller) :
    call.Survives platform caller ↔ call.Guarded platform caller := by
  have clean : ({ caller with strayed := false } : Caller).strayed = false := rfl
  rw [HostCall.survives_iff_wp]
  cases call with
  | argsGet argv argvBuf => exact iff_of_true (stringsGet_fine _ argv argvBuf clean) trivial
  | environGet environ environBuf =>
      exact iff_of_true (stringsGet_fine _ environ environBuf clean) trivial
  | argsSizesGet offset0 offset1 => exact stringsSizesGet_fine _ offset0 offset1 clean
  | environSizesGet offset0 offset1 => exact stringsSizesGet_fine _ offset0 offset1 clean
  | fdRead fd iovPtr iovLen nreadPtr => exact fdRead_fine fd iovPtr iovLen nreadPtr clean
  | fdFdstatGet fd bufPtr => exact iff_of_true (fdFdstatGet_fine fd bufPtr clean) trivial
  | fdWrite fd ciovPtr ciovLen nwritePtr => exact fdWrite_fine fd ciovPtr ciovLen nwritePtr clean
  | clockTimeGet clockId precision resultPtr =>
      exact iff_of_true (clockTimeGet_fine platform clockId resultPtr clean) trivial
  | fdClose fd => exact iff_of_true (fdClose_fine fd clean) trivial
  | randomGet bufPtr bufLen => exact randomGet_fine platform bufPtr bufLen clean
  | schedYield => exact iff_of_true (fine_clean Ending.noConfusion clean) trivial
  | pollOneoff subsPtr eventsPtr nsubscriptions resultPtr =>
      exact pollOneoff_fine platform subsPtr eventsPtr nsubscriptions resultPtr clean
  | procRaise sig => exact procRaise_fine sig clean
  | procExit status => exact iff_of_true (fine_clean Ending.noConfusion clean) trivial

end Target

/-! ## Calls that end the host -/

def earlyPlatform : Platform where
  sinceEpoch := some 0
  instant := 0
  random := none

/-- A guest with one page of zeros and all three streams open. -/
def onePageCaller : Caller where
  ctx := ⟨[], [], some ⟨[]⟩, true, true, none, false⟩
  memory := onePage fun _ => 0
  fuel := 100000
  stdin := Pipe.nonBlockingPipe
  stdout := Pipe.nonBlockingPipe
  stderr := Pipe.nonBlockingPipe
  strayed := false

/-- Calls that panic: one with a table beyond the page for each function that follows
one, one with a place for the result beyond it, one with a negative length, and a
signal near the end of its range. -/
def crashingCalls : List HostCall :=
  [.fdRead 0 65536 1 0, .fdRead 0 0 0 65536, .fdWrite 1 65536 1 0, .pollOneoff 65536 0 1 0,
    .pollOneoff 0 65536 1 0, .randomGet 0 (-1), .procRaise 2147483647]

theorem crashingCalls_panic : forall call, call ∈ crashingCalls ->
    (call.perform earlyPlatform onePageCaller).1 = .panic := by
  decide

/-- There are calls that end the host, since a guest may pass any number for an
address or a length. -/
theorem guest_ends_host :
    ¬ forall platform call caller, HostCall.Survives platform call caller := by
  intro law
  exact (law earlyPlatform (.fdRead 0 65536 1 0) onePageCaller).1
    (crashingCalls_panic _ List.mem_cons_self)

/-- On a native host only the place of a record matters, since a vector can have any
32-bit length. -/
theorem safeRecord_native (memory : GuestMemory) (base : Nat) :
    SafeRecord memory base ↔ memory.Covers ⟨base, 8⟩ := by
  have length := recordAt_small memory base
  refine ⟨And.left, fun covered => ⟨covered, ?_⟩⟩
  exact Nat.le_trans (Nat.le_of_lt length) (by decide)

/-- A guest whose memory has a record of two gigabytes at address 16. -/
def longRecordCaller [HostTarget] : Caller where
  ctx := ⟨[], [], some ⟨[]⟩, true, true, none, false⟩
  memory := onePage fun address => if address = 23 then 128 else 0
  fuel := 100000
  stdin := Pipe.nonBlockingPipe
  stdout := Pipe.nonBlockingPipe
  stderr := Pipe.nonBlockingPipe
  strayed := false

/-- A host in a browser cannot allocate that much, so there the length matters too. -/
example : (longRecordCaller.memory.Covers ⟨16, 8⟩) ∧
    (HostCall.perform earlyPlatform (.fdWrite 1 16 1 0) longRecordCaller).1 = .errno .fault ∧
    (@HostCall.perform HostTarget.wasm32 earlyPlatform (.fdWrite 1 16 1 0)
      (@longRecordCaller HostTarget.wasm32)).1 = .panic := by
  decide

end Wasi
end WasmiPlugin
