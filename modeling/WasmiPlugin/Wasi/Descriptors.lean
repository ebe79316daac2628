import WasmiPlugin.Foundation.Run
import WasmiPlugin.Wasi.Frames
import WasmiPlugin.Wasi.Insulation
import WasmiPlugin.Wasi.WriteReport

namespace WasmiPlugin
namespace Wasi

open Foundation Program

/-!
# Closed descriptors

`fd_close` drops a handle, and nothing brings it back.  `fd_read` and `fd_write`
notice that when they come to use it, which is inside their loops: without a
record they never do.  `fd_fdstat_get` and `fd_close` go by the number alone and
notice nothing.

The runs are those of a guest that calls what it likes and stores what it likes
between its calls, and of a host that does what it likes to the pipes.
-/

/-! ## Handles -/

def WasiCtx.handle (ctx : WasiCtx) (fd : Int32) : Bool :=
  if fd = 0 then ctx.stdinReader.isSome else Host.writable ctx fd

/-- Asking for data changes nothing but the reader, and does not drop it. -/
theorem WasiCtx.stdinAvailable_frame (ctx : WasiCtx) (pipe : Pipe.Inner) :
    (ctx.stdinAvailable pipe).2.1 =
        { ctx with stdinReader := (ctx.stdinAvailable pipe).2.1.stdinReader } ∧
      (ctx.stdinAvailable pipe).2.1.stdinReader.isSome = ctx.stdinReader.isSome := by
  unfold stdinAvailable
  cases present : ctx.stdinReader with
  | none =>
      dsimp only
      rw [present]
      exact ⟨by rw [← present], rfl⟩
  | some reader =>
      dsimp only
      rcases reader.fillBuf pipe with ⟨result, next, rest⟩
      cases result <;> exact ⟨rfl, rfl⟩

/-- What comes of asking for data depends on the reader and its pipe only. -/
theorem WasiCtx.stdinAvailable_congr {one other : WasiCtx}
    (same : one.stdinReader = other.stdinReader) (pipe : Pipe.Inner) :
    (one.stdinAvailable pipe).2.1.stdinReader = (other.stdinAvailable pipe).2.1.stdinReader ∧
      (one.stdinAvailable pipe).2.2 = (other.stdinAvailable pipe).2.2 := by
  unfold stdinAvailable
  cases present : other.stdinReader with
  | none =>
      rw [same, present]
      exact ⟨same.trans present, rfl⟩
  | some reader =>
      rw [same, present]
      dsimp only
      rcases reader.fillBuf pipe with ⟨result, next, rest⟩
      cases result <;> exact ⟨rfl, rfl⟩

theorem WasiCtx.handle_gone {ctx next : WasiCtx} (fd : Int32)
    (stdin : next.stdinReader.isSome = true -> ctx.stdinReader.isSome = true)
    (stdout : next.stdoutWriter = true -> ctx.stdoutWriter = true)
    (stderr : next.stderrWriter = true -> ctx.stderrWriter = true)
    (gone : ctx.handle fd = false) : next.handle fd = false := by
  rw [Bool.eq_false_iff] at gone ⊢
  intro there
  apply gone
  unfold handle Host.writable at there ⊢
  split at there
  · next zero =>
      rw [if_pos zero]
      exact stdin there
  · next notIn =>
      rw [if_neg notIn]
      split at there
      · next out =>
          rw [if_pos out]
          exact stdout there
      · next notOut =>
          rw [if_neg notOut]
          split at there
          · next err =>
              rw [if_pos err]
              exact stderr there
          · cases there

section Target

variable [HostTarget]

/-! ## Runs -/

/-- What can happen between a guest and its descriptors. -/
inductive DescriptorAction where
  | call (platform : Platform) (call : HostCall)
  | guestStore (memory : GuestMemory) (fuel : Nat)
  | stdinAvailable
  | host (stdin stdout stderr : Pipe.Inner) (sleepUntil : Option Nat) (awaitingStdin : Bool)

/-- How a call ends, and the state after an action. -/
def DescriptorAction.perform : DescriptorAction -> Caller -> Option Ending × Caller
  | .call platform made, caller =>
      (some (made.perform platform caller).1, (made.perform platform caller).2)
  | .guestStore memory fuel, caller => (none, { caller with memory := memory, fuel := fuel })
  | .stdinAvailable, caller =>
      let asked := caller.ctx.stdinAvailable caller.stdin
      (none, { caller with ctx := asked.2.1, stdin := asked.2.2 })
  | .host stdin stdout stderr sleepUntil awaitingStdin, caller =>
      (none, { caller with
        ctx := { caller.ctx with sleepUntil := sleepUntil, awaitingStdin := awaitingStdin }
        stdin := stdin
        stdout := stdout
        stderr := stderr })

def descriptorStep (caller : Caller) (action : DescriptorAction) : Option Caller :=
  some (action.perform caller).2

/-- The ends of the calls in a list of actions, and the state they lead to. -/
def follow : List DescriptorAction -> Caller -> List (Option Ending) × Caller
  | [], caller => ([], caller)
  | action :: actions, caller =>
      let rest := follow actions (action.perform caller).2
      ((action.perform caller).1 :: rest.1, rest.2)

/-! ## The law -/

def Closes (fd : Int32) (taken : Transition Caller DescriptorAction) : Prop :=
  Exists fun platform => taken.action = .call platform (.fdClose fd) ∧
    ((HostCall.fdClose fd).perform platform taken.before).1 = .errno .success

def ClosedIn (history : List (Transition Caller DescriptorAction)) (fd : Int32) : Prop :=
  Exists fun taken => taken ∈ history ∧ Closes fd taken

/-- The descriptor that a call names was closed, or was never open for it, such as
stdin for a write. -/
def Unopened (earlier : List (Transition Caller DescriptorAction)) : HostCall -> Prop
  | .fdRead fd _ _ _ => fd ≠ 0 ∨ ClosedIn earlier fd.toInt32
  | .fdWrite fd _ _ _ => fd ≠ 1 ∧ fd ≠ 2 ∨ ClosedIn earlier fd
  | .fdFdstatGet fd _ => ClosedIn earlier fd
  | .fdClose fd => ClosedIn earlier fd
  | _ => False

/-- An action does not name a descriptor. -/
def DescriptorAction.Spares (fd : Int32) : DescriptorAction -> Prop
  | .call _ made => made.descriptor ≠ some fd
  | _ => True

/-- A closed descriptor stays closed, and no other one is affected: whatever is done
with the others afterwards ends as it would have without the close. -/
structure ClosedForGood (history : List (Transition Caller DescriptorAction)) : Prop where
  badf : forall earlier taken later platform call, history = earlier ++ taken :: later ->
    taken.action = .call platform call -> Unopened earlier call ->
    (call.perform platform taken.before).1 = .errno .badf
  others : forall taken fd actions, taken ∈ history -> Closes fd taken ->
    (forall action, action ∈ actions -> action.Spares fd) ->
    (follow actions taken.before).1 = (follow actions taken.after).1 ∧
      AgreeOff fd (follow actions taken.before).2 (follow actions taken.after).2

/-- A call comes to use its handle: it has a first record, and gets through it. -/
def Notices (caller : Caller) : HostCall -> Prop
  | .fdRead fd iovPtr iovLen _ =>
      fd ≠ 0 ∨ 0 < turns iovLen ∧ SafeRecord caller.memory (asUsize iovPtr)
  | .fdWrite _ ciovPtr ciovLen _ =>
      0 < turns ciovLen ∧ caller.memory.Covers ⟨asUsize ciovPtr, 8⟩ ∧
        caller.memory.Covers (bufferAt caller.memory (asUsize ciovPtr))
  | _ => False

/-! ## What calls keep -/

theorem frame_gone (fd : Int32) :
    Frame fun before after : Caller =>
      before.ctx.handle fd = false -> after.ctx.handle fd = false where
  refl := fun _ => id
  trans := fun _ _ _ early late => late ∘ early
  strayed := fun _ _ => id
  memory := fun _ _ => id
  fuel := fun _ => id
  stdin := fun _ _ _ present =>
    WasiCtx.handle_gone fd (fun _ => Option.isSome_of_eq_some present) id id
  starved := fun _ _ _ present =>
    WasiCtx.handle_gone fd (fun _ => Option.isSome_of_eq_some present) id id
  stdout := fun _ _ _ => id
  stderr := fun _ _ _ => id

/-- A successful close is of stdin, stdout or stderr, and drops the handle that was
there. -/
theorem close_succeeded (platform : Platform) {fd : Int32} (caller : Caller)
    (success : ((HostCall.fdClose fd).perform platform caller).1 = .errno .success) :
    (fd = 0 ∨ fd = 1 ∨ fd = 2) ∧
      ((HostCall.fdClose fd).perform platform caller).2.ctx.handle fd = false := by
  have outcome := (HostCall.perform_wp platform (.fdClose fd) caller fun ending after =>
    ending = .errno .success -> (fd = 0 ∨ fd = 1 ∨ fd = 2) ∧ after.ctx.handle fd = false).mpr
  refine outcome ?_ success
  simp only [HostCall.body, Host.fdClose, wp_ite, wp_bind, wp_change, wp_pure]
  split
  · next zero =>
      subst zero
      exact fun _ => ⟨.inl rfl, rfl⟩
  · split
    · next out =>
        subst out
        exact fun _ => ⟨.inr (.inl rfl), rfl⟩
    · split
      · next err =>
          subst err
          exact fun _ => ⟨.inr (.inr rfl), rfl⟩
      · exact fun other => by cases other

/-- A descriptor that was closed in a run is stdin, stdout or stderr, and its handle
is gone at the end of the run. -/
theorem closed_run {caller final : Caller} {history : List (Transition Caller DescriptorAction)}
    (run : Run descriptorStep caller history final) {fd : Int32} (closed : ClosedIn history fd) :
    (fd = 0 ∨ fd = 1 ∨ fd = 2) ∧ final.ctx.handle fd = false := by
  refine run.remembered (fun state => (fd = 0 ∨ fd = 1 ∨ fd = 2) ∧ state.ctx.handle fd = false)
    (Closes fd) (fun before action after stepped cause => ?_) closed
  cases stepped
  rcases cause with ⟨standard, gone⟩ | ⟨platform, same, success⟩
  · refine ⟨standard, ?_⟩
    cases action with
    | call platform call =>
        refine call.perform_within (frame_gone fd) platform before ?_ ?_ gone
        · intro other _
          exact Host.fdClose_within (frame_gone fd)
            (fun _ => WasiCtx.handle_gone fd (fun there => by cases there) id id)
            (fun _ _ => WasiCtx.handle_gone fd id (fun there => by cases there) id)
            fun _ _ => WasiCtx.handle_gone fd id id fun there => by cases there
        · exact fun _ _ _ _ _ _ _ => Host.awaitDeadline_within (frame_gone fd) fun _ _ => id
    | guestStore | host => exact gone
    | stdinAvailable =>
        rcases before.ctx.stdinAvailable_frame before.stdin with ⟨same, reader⟩
        simp only [DescriptorAction.perform]
        rw [same]
        refine WasiCtx.handle_gone fd (fun there => ?_) ?_ ?_ gone
        · rw [← reader]
          exact there
        · exact id
        · exact id
  · dsimp only at same success
    subst same
    exact close_succeeded platform before success

/-! ## One call -/

private theorem not_badf_panic (after : Caller) :
    ¬ (fun ending (_ : Caller) => ending = Ending.errno .badf) .panic after :=
  fun same => by cases same

private theorem fdRead_badf_iff (platform : Platform) {caller : Caller}
    (gone : caller.ctx.stdinReader = none) (iovPtr iovLen nreadPtr : Int32) :
    ((HostCall.fdRead 0 iovPtr iovLen nreadPtr).perform platform caller).1 = .errno .badf ↔
      0 < turns iovLen ∧ SafeRecord caller.memory (asUsize iovPtr) := by
  refine (HostCall.perform_wp platform (.fdRead 0 iovPtr iovLen nreadPtr) caller
    fun ending _ => ending = .errno .badf).trans ?_
  simp only [HostCall.body, Host.fdRead, ne_eq, not_true_eq_false, if_false, wp_bind]
  cases turns iovLen with
  | zero =>
      simp only [wp_loop_zero, Host.wp_writeMemory, wp_pure, Nat.lt_irrefl, false_and, iff_false]
      split <;> exact fun same => by cases same
  | succ others =>
      rw [wp_loop_succ, Host.fdReadTurn, wp_bind, Host.wp_iovec_iff not_badf_panic, wp_bind,
        Nat.zero_mul, Nat.add_zero, Host.wp_allocate_iff not_badf_panic, wp_bind,
        Host.wp_readStdin]
      dsimp only
      rw [gone]
      simp only [Nat.succ_pos, true_and, and_true]
      exact Iff.rfl

/-- Without its handle `fd_write` ends in `Badf` if it gets to use it. -/
private theorem fdWrite_badf_iff (platform : Platform) {caller : Caller} {fd : Int32}
    (gone : Host.writable caller.ctx fd = false) (ciovPtr ciovLen nwritePtr : Int32) :
    ((HostCall.fdWrite fd ciovPtr ciovLen nwritePtr).perform platform caller).1 = .errno .badf ↔
      0 < turns ciovLen ∧ caller.memory.Covers ⟨asUsize ciovPtr, 8⟩ ∧
        caller.memory.Covers (bufferAt caller.memory (asUsize ciovPtr)) := by
  have none : passed { caller with strayed := false } fd (turns ciovLen) (asUsize ciovPtr) = 0 := by
    cases turns ciovLen with
    | zero => rfl
    | succ others =>
        rw [passed, if_neg]
        exact fun passes => Bool.false_ne_true (gone.symm.trans passes.2.2)
  refine (HostCall.perform_wp platform (.fdWrite fd ciovPtr ciovLen nwritePtr) caller
    fun ending _ => ending = .errno .badf).trans ?_
  rw [HostCall.body, wp_fdWrite not_badf_panic fd ciovPtr ciovLen nwritePtr rfl rfl, none]
  by_cases empty : 0 = turns ciovLen
  · rw [if_pos empty, ← empty]
    simp only [Nat.lt_irrefl, false_and, iff_false]
    rintro ⟨_, answered⟩
    split at answered <;> cases answered
  · have positive : 0 < usizeModulus := Nat.lt_of_lt_of_le (by decide) targetBounds.lengths
    rw [if_neg empty]
    simp only [buffersAt, LinearMemory.totalLength, Nat.zero_mul, Nat.add_zero,
      Nat.pos_of_ne_zero (Ne.symm empty), positive, true_and]
    constructor
    · rintro ⟨safe, answered⟩
      split at answered
      · next covered => exact ⟨safe.1, covered⟩
      · cases answered
    · rintro ⟨record, covered⟩
      rw [if_pos covered]
      exact ⟨⟨record, bufferAt_le_isizeMax covered⟩, trivial⟩

private theorem fdFdstatGet_not_badf (platform : Platform) (caller : Caller) {fd : Int32}
    (standard : fd = 0 ∨ fd = 1 ∨ fd = 2) (bufPtr : Int32) :
    ((HostCall.fdFdstatGet fd bufPtr).perform platform caller).1 ≠ .errno .badf := by
  apply (HostCall.perform_wp platform (.fdFdstatGet fd bufPtr) caller
    fun ending _ => ending ≠ .errno .badf).mpr
  rcases standard with same | same | same <;> subst same <;>
    simp [HostCall.body, Host.fdFdstatGet]

private theorem fdClose_not_badf (platform : Platform) (caller : Caller) {fd : Int32}
    (standard : fd = 0 ∨ fd = 1 ∨ fd = 2) :
    ((HostCall.fdClose fd).perform platform caller).1 ≠ .errno .badf := by
  apply (HostCall.perform_wp platform (.fdClose fd) caller
    fun ending _ => ending ≠ .errno .badf).mpr
  rcases standard with same | same | same <;> subst same <;>
    simp [HostCall.body, Host.fdClose]

/-- In any run, a call of an unopened descriptor ends in `Badf` exactly when it comes to
use the handle. -/
theorem badf_iff_notices {caller final : Caller}
    {history : List (Transition Caller DescriptorAction)}
    (run : Run descriptorStep caller history final) (platform : Platform) {call : HostCall}
    (unopened : Unopened history call) :
    (call.perform platform final).1 = .errno .badf ↔ Notices final call := by
  cases call with
  | fdRead fd iovPtr iovLen nreadPtr =>
      by_cases zero : fd = 0
      · subst zero
        rcases unopened with other | closed
        · exact absurd rfl other
        · have gone := (closed_run run closed).2
          simp only [Notices, ne_eq, not_true_eq_false, false_or]
          exact fdRead_badf_iff platform
            (Option.not_isSome_iff_eq_none.mp (Bool.eq_false_iff.mp gone)) iovPtr iovLen nreadPtr
      · refine iff_of_true ?_ (.inl zero)
        simp only [HostCall.perform, HostCall.body, Host.fdRead, ne_eq, zero, not_false_eq_true,
          if_true]
        rfl
  | fdWrite fd ciovPtr ciovLen nwritePtr =>
      refine fdWrite_badf_iff platform ?_ ciovPtr ciovLen nwritePtr
      rcases unopened with other | closed
      · simp only [Host.writable, other.1, other.2, if_false]
      · have gone := (closed_run run closed).2
        apply Bool.eq_false_iff.mpr
        intro opened
        rcases Host.writable_stream opened with same | same <;>
          · subst same
            exact Bool.false_ne_true (gone.symm.trans opened)
  | fdFdstatGet fd bufPtr =>
      exact iff_of_false
        (fdFdstatGet_not_badf platform final (closed_run run unopened).1 bufPtr) id
  | fdClose fd =>
      exact iff_of_false (fdClose_not_badf platform final (closed_run run unopened).1) id
  | _ => exact absurd unopened id

/-! ## Other descriptors -/

/-- An action that does not name a descriptor does not depend on it. -/
theorem DescriptorAction.perform_respects {off : Int32} {action : DescriptorAction}
    (spares : action.Spares off) {one other : Caller} (agree : AgreeOff off one other) :
    (action.perform one).1 = (action.perform other).1 ∧
      AgreeOff off (action.perform one).2 (action.perform other).2 := by
  cases action with
  | call platform made =>
      rcases made.perform_respects platform spares agree with ⟨same, kept⟩
      exact ⟨congrArg some same, kept⟩
  | guestStore memory fuel => exact ⟨rfl, { agree with memory := rfl, fuel := rfl }⟩
  | stdinAvailable =>
      have first := one.ctx.stdinAvailable_frame one.stdin
      have second := other.ctx.stdinAvailable_frame other.stdin
      refine ⟨rfl, ?_⟩
      simp only [perform]
      rw [first.1, second.1]
      refine { agree with stdin := fun apart => ?_ }
      rcases agree.stdin apart with ⟨reader, pipe⟩
      rw [← pipe]
      exact WasiCtx.stdinAvailable_congr reader one.stdin
  | host stdin stdout stderr sleepUntil awaitingStdin =>
      exact ⟨rfl, { agree with
        sleepUntil := rfl
        awaitingStdin := rfl
        stdin := fun apart => ⟨(agree.stdin apart).1, rfl⟩
        stdout := fun apart => ⟨(agree.stdout apart).1, rfl⟩
        stderr := fun apart => ⟨(agree.stderr apart).1, rfl⟩ }⟩

theorem follow_respects {off : Int32} {actions : List DescriptorAction}
    (spare : forall action, action ∈ actions -> action.Spares off) {one other : Caller}
    (agree : AgreeOff off one other) :
    (follow actions one).1 = (follow actions other).1 ∧
      AgreeOff off (follow actions one).2 (follow actions other).2 := by
  induction actions generalizing one other with
  | nil => exact ⟨rfl, agree⟩
  | cons action actions inductionHypothesis =>
      rcases DescriptorAction.perform_respects (spare action List.mem_cons_self) agree with
        ⟨same, kept⟩
      rcases inductionHypothesis (fun later member => spare later (List.mem_cons_of_mem _ member))
        kept with ⟨rest, last⟩
      exact ⟨congrArg₂ List.cons same rest, last⟩

/-- In any run, closed descriptors stay closed for good exactly when every call of an
unopened one comes to use the handle. -/
theorem closed_for_good_iff {caller final : Caller}
    {history : List (Transition Caller DescriptorAction)}
    (run : Run descriptorStep caller history final) :
    ClosedForGood history ↔
      forall earlier taken later platform call, history = earlier ++ taken :: later ->
        taken.action = .call platform call -> Unopened earlier call ->
        Notices taken.before call := by
  constructor
  · intro law earlier taken later platform call shape made unopened
    exact (badf_iff_notices (run.split shape).1 platform unopened).mp
      (law.badf earlier taken later platform call shape made unopened)
  · intro notices
    refine ⟨?_, ?_⟩
    · intro earlier taken later platform call shape made unopened
      exact (badf_iff_notices (run.split shape).1 platform unopened).mpr
        (notices earlier taken later platform call shape made unopened)
    · intro taken fd actions member closes spare
      apply follow_respects spare
      have stepped := run.stepped taken member
      rcases taken with ⟨before, action, after⟩
      rcases closes with ⟨platform, same, _⟩
      dsimp only at same stepped ⊢
      subst same
      cases stepped
      exact HostCall.close_agrees platform fd before

end Target

/-! ## A descriptor closed twice -/

def idlePlatform : Platform :=
  ⟨none, 0, none⟩

def writeAfterClose : List (Transition Caller DescriptorAction) :=
  let closing := DescriptorAction.call idlePlatform (.fdClose 1)
  let closed := (closing.perform strayCaller).2
  let writing := DescriptorAction.call idlePlatform (.fdWrite 1 0 1 16)
  [⟨strayCaller, closing, closed⟩, ⟨closed, writing, (writing.perform closed).2⟩]

/-- A guest that closes stdout and then writes to it gets past its first record, so
that the law holds of its run: the write ends in `Badf`. -/
theorem write_after_close_refused : ClosedForGood writeAfterClose := by
  have run : Run descriptorStep strayCaller writeAfterClose _ :=
    Run.of_play [.call idlePlatform (.fdClose 1), .call idlePlatform (.fdWrite 1 0 1 16)] _ _ rfl
  apply (closed_for_good_iff run).mpr
  intro earlier taken later platform call shape made unopened
  cases earlier with
  | nil =>
      cases shape
      cases made
      rcases unopened with ⟨_, member, _⟩
      exact absurd member List.not_mem_nil
  | cons first rest =>
      cases rest with
      | nil =>
          cases shape
          cases made
          exact ⟨by decide, by decide, by decide⟩
      | cons second rest => cases rest <;> cases shape

def closedTwice : List (Transition Caller DescriptorAction) :=
  let closing := DescriptorAction.call idlePlatform (.fdClose 1)
  let closed := (closing.perform strayCaller).2
  [⟨strayCaller, closing, closed⟩, ⟨closed, closing, (closing.perform closed).2⟩]

/-- A guest that closes stdout twice succeeds both times, although the second close
should have ended in `Badf`. -/
theorem close_succeeds_twice :
    ¬ forall caller history final, Run descriptorStep caller history final ->
      ClosedForGood history := by
  intro law
  have run : Run descriptorStep strayCaller closedTwice _ :=
    Run.of_play [.call idlePlatform (.fdClose 1), .call idlePlatform (.fdClose 1)] _ _ rfl
  have again := (law _ _ _ run).badf [_] _ [] idlePlatform (.fdClose 1) rfl rfl
    ⟨_, List.mem_cons_self, idlePlatform, rfl, by decide⟩
  exact absurd again (by decide)

end Wasi
end WasmiPlugin
