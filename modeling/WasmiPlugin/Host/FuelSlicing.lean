import WasmiPlugin.Foundation.Metered
import WasmiPlugin.Foundation.Run
import WasmiPlugin.Host.RunWasm
import WasmiPlugin.Wasi.Frames

namespace WasmiPlugin
namespace Host

open Foundation Wasi

/-!
# Running a guest in slices

The guest of this module is a machine that executes blocks and calls the host,
and its slices are those of `wasmi`: it is suspended before the first block that
costs more than its fuel, is told this cost, and is resumed there.  What a call
does to the store is arbitrary, except that it leaves the fuel as it is or takes
all of it.

`run_wasm` starts without fuel and resumes with the larger of `max_fuel` and the
reported cost.  When the guest is resumed it can therefore pay for the block it
stands before, and no block is executed twice, left out or waited for in vain.
-/

/-! ## Where the future waits -/

/-- How far the future has come since it last had control, counted from the sleep to
the yield before the next resume. -/
def Waiting.stage : Waiting -> Nat
  | .unpolled => 0
  | .sleeping _ => 1
  | .stdinWait => 2
  | .courtesyYield => 3
  | .ended _ => 0

theorem Waiting.stage_le (waiting : Waiting) : waiting.stage ≤ 3 := by
  cases waiting <;> simp [Waiting.stage]

section Target

variable [HostTarget]

theorem frame_fuel :
    Frame fun before after : Caller => after.fuel = before.fuel ∨ after.fuel = 0 where
  refl := fun _ => .inl rfl
  trans := by
    rintro first second third early (late | late)
    · exact early.imp late.trans late.trans
    · exact .inr late
  strayed := fun _ _ => .inl rfl
  memory := fun _ _ => .inl rfl
  fuel := fun _ => .inr rfl
  stdin := fun _ _ _ _ => .inl rfl
  starved := fun _ _ _ _ => .inl rfl
  stdout := fun _ _ _ => .inl rfl
  stderr := fun _ _ _ => .inl rfl

/-- Every host function leaves the fuel as it is or takes all of it. -/
theorem perform_fuel (platform : Platform) (call : HostCall) (caller : Caller) :
    (call.perform platform caller).2.fuel = caller.fuel ∨
      (call.perform platform caller).2.fuel = 0 := by
  refine HostCall.perform_within frame_fuel platform call caller ?_ ?_
  · exact fun _ _ => Wasi.Host.fdClose_within frame_fuel (fun _ => .inl rfl)
      (fun _ _ => .inl rfl) fun _ _ => .inl rfl
  · exact fun _ _ _ _ _ _ _ => Wasi.Host.awaitDeadline_within frame_fuel fun _ _ => .inl rfl

/-- A guest program in blocks that cost fuel, together with the answers it gets and
what its calls do to the store. -/
structure GuestProgram (Point Answer : Type) where
  next : Point -> Next Point Answer
  replies : Nat -> Reply Answer
  effect : Nat -> Caller -> Caller

variable {Point Answer : Type}

namespace GuestProgram

variable (program : GuestProgram Point Answer)

/-- The store after some steps of the guest program. -/
def storeAfter (steps : List (Position Point)) (store : Caller) : Caller :=
  steps.foldl (fun store position =>
    match program.next position.point with
    | .call _ => program.effect position.calls store
    | _ => store) store

/-- What `call_resumable` and `resume` return at the end of a slice, according to why
the program stopped. -/
def resumable : Stop -> Except PUnit ResumableCall
  | .ended .finished => .ok .finished
  | .ended .trapped => .ok .hostTrap
  | .ended .failed => .error ⟨⟩
  | .outOfFuel required => .ok (.outOfFuel required)

def comesBack (span : Span Point) (store : Caller) : Caller × Except PUnit ResumableCall :=
  ({ program.storeAfter span.steps store with fuel := span.fuel }, resumable span.stop)

/-- The result of `run_wasm` is right for the way in which the guest ended. An error
in the guest is reported as one of `call_resumable` or of `resume`, depending on which
of them ran it. -/
def Reports : Outcome -> Except RunError PUnit -> Prop
  | .finished, result => result = .ok ⟨⟩
  | .trapped, result => result = .error .hostTrap
  | .failed, result => result = .error .wasmiError ∨ result = .error .resumeError

end GuestProgram

/-- `run_wasm` with a guest program: where the guest stands and what it has executed
so far. Nobody clears `is_running` in these runs. -/
structure SlicedRun (Point : Type) where
  guest : PluginInstance
  position : Position Point
  executed : List (Position Point)

/-- The future of `run_wasm` is polled, or the host does something to the other ends
of the guest's pipes. -/
inductive SlicedAction where
  | poll (ready : Bool) (now bound : Nat)
  | pipes (stdin stdout stderr : Pipe.Inner)

def SlicedRun.step (program : GuestProgram Point Answer) (state : SlicedRun Point) :
    SlicedAction -> Option (SlicedRun Point)
  | .poll ready now bound =>
      if state.guest.givesControl ⟨ready, now, fun store => (store, .error ⟨⟩)⟩ then
        match slice program.next program.replies bound state.position
            state.guest.givenStore.fuel with
        | none => none
        | some span => some {
            guest := state.guest.poll true ⟨ready, now, program.comesBack span⟩
            position := span.position
            executed := state.executed ++ span.steps }
      else some { state with
        guest := state.guest.poll true ⟨ready, now, fun store => (store, .error ⟨⟩)⟩ }
  | .pipes stdin stdout stderr => some { state with guest := { state.guest with
      store := { state.guest.store with stdin := stdin, stdout := stdout, stderr := stderr } } }

def SlicedRun.spawned (store : Caller) (maxFuel : Option Nat) (start : Point) :
    SlicedRun Point where
  guest := .spawned store maxFuel
  position := ⟨start, 0⟩
  executed := []

def resumed (taken : Transition (SlicedRun Point) SlicedAction) : Bool :=
  match taken.action, taken.before.guest.waiting with
  | .poll ready _ _, .courtesyYield => ready
  | _, _ => false

/-- The transition polls the future at a moment when what it waits for is there. -/
def polledReady (taken : Transition (SlicedRun Point) SlicedAction) : Bool :=
  match taken.action with
  | .poll ready _ _ => ready
  | .pipes _ _ _ => false

/-- The guest executes the steps that it would execute with unlimited fuel and ends as
it would then. Every resume executes at least one block, so a run whose polls are
prompt comes to that end. -/
structure Transparent (program : GuestProgram Point Answer) (start : Point)
    (history : List (Transition (SlicedRun Point) SlicedAction)) (final : SlicedRun Point) :
    Prop where
  /-- It has executed the blocks and made the calls that it would have. -/
  same : Executes program.next program.replies ⟨start, 0⟩ final.executed final.position
  /-- When `run_wasm` has returned, the guest has ended, and in that way. -/
  ended : forall result, final.guest.waiting = .ended result -> Exists fun ends =>
    outcome program.next program.replies final.position = some ends ∧
      GuestProgram.Reports ends result
  /-- Each resume executes a block. -/
  progress : forall taken, taken ∈ history -> resumed taken = true ->
    blocks program.next taken.before.executed < blocks program.next taken.after.executed
  /-- There are not more resumes than blocks. -/
  resumes : history.countP resumed ≤ blocks program.next final.executed
  /-- If the unmetered guest ends, then `run_wasm` has returned and done all that
  this guest does, or it can be polled and has few polls left. -/
  ends : forall steps last ends, Executes program.next program.replies ⟨start, 0⟩ steps last ->
    outcome program.next program.replies last = some ends ->
    (Exists fun result => final.guest.waiting = .ended result ∧ final.executed = steps ∧
      final.position = last ∧ GuestProgram.Reports ends result) ∨
    (final.guest.waiting.isEnded = false ∧
      (forall ready now bound, steps.length < bound ->
        (final.step program (.poll ready now bound)).isSome = true) ∧
      history.countP polledReady ≤ 3 * blocks program.next steps + 3)

/-! ## From one wait to the next -/

namespace PluginInstance

theorem awaitStdin_waits (guest : PluginInstance) :
    guest.awaitStdin.store.fuel = guest.store.fuel ∧ 2 ≤ guest.awaitStdin.waiting.stage := by
  unfold awaitStdin
  split
  · refine ⟨rfl, ?_⟩
    dsimp only
    split
    · exact Nat.le_succ 2
    · exact Nat.le_refl 2
  · exact ⟨rfl, Nat.le_succ 2⟩

theorem awaitDeadline_waits (guest : PluginInstance) (now : Nat) :
    (guest.awaitDeadline now).store.fuel = guest.store.fuel ∧
      1 ≤ (guest.awaitDeadline now).waiting.stage := by
  have later (other : PluginInstance) : 1 ≤ other.awaitStdin.waiting.stage :=
    Nat.le_of_succ_le other.awaitStdin_waits.2
  unfold awaitDeadline
  split
  · split
    · exact ⟨rfl, Nat.le_refl 1⟩
    · exact ⟨guest.wake.awaitStdin_waits.1, later _⟩
  · exact ⟨guest.awaitStdin_waits.1, later _⟩

/-- After a slice either the future has ended as the guest did, or it waits and the
guest can pay for its next block when it is resumed. -/
theorem run_slice (program : GuestProgram Point Answer) (guest : PluginInstance)
    (span : Span Point) (ready : Bool) (now : Nat) {failure : RunError}
    (known : failure = .wasmiError ∨ failure = .resumeError) :
    (Exists fun ends => Exists fun result => span.stop = .ended ends ∧
      (guest.run true ⟨ready, now, program.comesBack span⟩ failure).waiting = .ended result ∧
      GuestProgram.Reports ends result) ∨
    (Exists fun required => span.stop = .outOfFuel required ∧
      required ≤ (guest.run true ⟨ready, now, program.comesBack span⟩ failure).store.fuel ∧
      1 ≤ (guest.run true ⟨ready, now, program.comesBack span⟩ failure).waiting.stage) := by
  simp only [run, GuestProgram.comesBack]
  cases span.stop with
  | ended ends =>
      refine .inl ⟨ends, ?_⟩
      cases ends with
      | finished => exact ⟨.ok ⟨⟩, rfl, rfl, rfl⟩
      | trapped => exact ⟨.error .hostTrap, rfl, rfl, rfl⟩
      | failed => exact ⟨.error failure, rfl, rfl, known.imp (congrArg _) (congrArg _)⟩
  | outOfFuel required =>
      refine .inr ⟨required, rfl, ?_⟩
      simp only [GuestProgram.resumable, dispatch, if_true]
      rcases awaitDeadline_waits _ now with ⟨fuel, waits⟩
      rw [fuel]
      exact ⟨Nat.le_max_left .., waits⟩

theorem poll_slice (program : GuestProgram Point Answer) {guest : PluginInstance}
    (span : Span Point) {ready : Bool} {now : Nat}
    (control : guest.givesControl ⟨ready, now, program.comesBack span⟩ = true) :
    (Exists fun ends => Exists fun result => span.stop = .ended ends ∧
      (guest.poll true ⟨ready, now, program.comesBack span⟩).waiting = .ended result ∧
      GuestProgram.Reports ends result) ∨
    (Exists fun required => span.stop = .outOfFuel required ∧
      required ≤ (guest.poll true ⟨ready, now, program.comesBack span⟩).store.fuel ∧
      1 ≤ (guest.poll true ⟨ready, now, program.comesBack span⟩).waiting.stage) := by
  rcases poll_control control true with ⟨failure, known, shape⟩
  rw [shape]
  exact run_slice program _ span ready now known

/-- A poll that does not give control to the guest brings the future on to its next
wait, if the present one is over, and does not touch the fuel. -/
theorem poll_waits {guest : PluginInstance} {poll : Poll}
    (kept : guest.givesControl poll = false) (waits : guest.waiting.isEnded = false) :
    (guest.poll true poll).store.fuel = guest.store.fuel ∧
      guest.waiting.stage + (if poll.ready then 1 else 0) ≤
        (guest.poll true poll).waiting.stage := by
  unfold givesControl at kept
  unfold PluginInstance.poll
  cases place : guest.waiting with
  | unpolled =>
      rw [place] at kept
      cases kept
  | sleeping resumeTime =>
      cases ready : poll.ready with
      | true => exact guest.wake.awaitStdin_waits
      | false => exact ⟨rfl, Nat.le_of_eq (congrArg Waiting.stage place).symm⟩
  | stdinWait =>
      cases ready : poll.ready with
      | true => exact ⟨rfl, Nat.le_refl 3⟩
      | false => exact ⟨rfl, Nat.le_of_eq (congrArg Waiting.stage place).symm⟩
  | courtesyYield =>
      rw [place] at kept
      dsimp only at kept ⊢
      rw [kept]
      exact ⟨rfl, Nat.le_of_eq (congrArg Waiting.stage place).symm⟩
  | ended result =>
      rw [place] at waits
      cases waits

end PluginInstance

/-! ## The invariant -/

/-- What holds at every point of a sliced run: the guest has executed a beginning of
its program, and the fuel in a store that waits for a resume pays for the next block. -/
private structure OnCourse (program : GuestProgram Point Answer) (start : Point)
    (history : List (Transition (SlicedRun Point) SlicedAction)) (state : SlicedRun Point) :
    Prop where
  same : Executes program.next program.replies ⟨start, 0⟩ state.executed state.position
  ended : forall result, state.guest.waiting = .ended result -> Exists fun ends =>
    outcome program.next program.replies state.position = some ends ∧
      GuestProgram.Reports ends result
  /-- A guest that waits to be resumed can pay for the block it stands before. -/
  paid : 1 ≤ state.guest.waiting.stage -> Exists fun cost => Exists fun next =>
    program.next state.position.point = .block cost next ∧ cost ≤ state.guest.store.fuel
  resumes : history.countP resumed ≤ blocks program.next state.executed
  polls : state.guest.waiting.isEnded = false ->
    history.countP polledReady ≤ 3 * history.countP resumed + state.guest.waiting.stage

variable {program : GuestProgram Point Answer} {start : Point}
  {history : List (Transition (SlicedRun Point) SlicedAction)} {before after : SlicedRun Point}

/-- A poll either gives the guest control for one slice or only waits; there is
nothing else it can do. -/
private theorem step_poll_cases {ready : Bool} {now bound : Nat}
    (stepped : before.step program (.poll ready now bound) = some after) :
    (Exists fun span => before.guest.givesControl ⟨ready, now, program.comesBack span⟩ = true ∧
      slice program.next program.replies bound before.position before.guest.givenStore.fuel =
        some span ∧
      after = ⟨before.guest.poll true ⟨ready, now, program.comesBack span⟩, span.position,
        before.executed ++ span.steps⟩) ∨
    (Exists fun poll : Poll => before.guest.givesControl poll = false ∧ poll.ready = ready ∧
      after = { before with guest := before.guest.poll true poll }) := by
  simp only [SlicedRun.step] at stepped
  split at stepped
  · next control =>
      split at stepped
      · cases stepped
      · next span sliced =>
          cases stepped
          exact .inl ⟨span, control, sliced, rfl⟩
  · next kept =>
      cases stepped
      exact .inr ⟨_, Bool.eq_false_iff.mpr kept, rfl, rfl⟩

private theorem resumed_waiting {action : SlicedAction}
    (resume : resumed ⟨before, action, after⟩ = true) :
    before.guest.waiting = .courtesyYield ∧ Exists fun now => Exists fun bound =>
      action = .poll true now bound := by
  unfold resumed at resume
  split at resume
  · next ready now bound polled waiting =>
      subst resume
      exact ⟨waiting, now, bound, polled⟩
  · cases resume

/-- A resumed guest executes at least one block in its slice. -/
private theorem resumed_progress (course : OnCourse program start history before)
    {action : SlicedAction} (stepped : before.step program action = some after)
    (resume : resumed ⟨before, action, after⟩ = true) :
    blocks program.next before.executed < blocks program.next after.executed := by
  rcases resumed_waiting resume with ⟨waiting, now, bound, rfl⟩
  rcases step_poll_cases stepped with ⟨span, _, sliced, rfl⟩ | ⟨poll, kept, ready, _⟩
  · rcases course.paid (by rw [waiting]; decide) with ⟨cost, next, here, paid⟩
    have given : before.guest.givenStore = before.guest.store := by
      rw [PluginInstance.givenStore, waiting]
    rw [given] at sliced
    rw [blocks_append]
    exact Nat.lt_add_of_pos_right (slice_progress here paid sliced)
  · rw [PluginInstance.givesControl, waiting] at kept
    rw [show poll.ready = true from ready] at kept
    cases kept

private theorem countP_extend (counted : Transition (SlicedRun Point) SlicedAction -> Bool)
    (taken : Transition (SlicedRun Point) SlicedAction) :
    (history ++ [taken]).countP counted =
      history.countP counted + if counted taken = true then 1 else 0 := by
  rw [List.countP_append, List.countP_singleton]

private theorem OnCourse.sliced (course : OnCourse program start history before)
    {ready : Bool} {now bound : Nat} {span : Span Point}
    (stepped : before.step program (.poll ready now bound) = some after)
    (control : before.guest.givesControl ⟨ready, now, program.comesBack span⟩ = true)
    (sliced : slice program.next program.replies bound before.position
      before.guest.givenStore.fuel = some span)
    (shape : after = ⟨before.guest.poll true ⟨ready, now, program.comesBack span⟩,
      span.position, before.executed ++ span.steps⟩) :
    OnCourse program start (history ++ [⟨before, .poll ready now bound, after⟩]) after := by
  have sound := slice_sound bound _ _ sliced
  have stops := before.guest.poll_slice program span control
  refine ⟨?_, ?_, ?_, ?_, ?_⟩
  · rw [shape]
    exact course.same.trans sound.executes
  · intro result ended
    rw [shape] at ended ⊢
    rcases stops with ⟨ends, reported, stop, waiting, reports⟩ | ⟨required, stop, _, waits⟩
    · cases waiting.symm.trans ended
      exact ⟨ends, sound.ended ends stop, reports⟩
    · rw [show _ = _ from ended] at waits
      exact absurd waits (Nat.not_succ_le_zero 0)
  · intro waits
    rw [shape] at waits ⊢
    rcases stops with ⟨ends, reported, _, waiting, _⟩ | ⟨required, stop, paid, _⟩
    · rw [show _ = _ from waiting] at waits
      exact absurd waits (Nat.not_succ_le_zero 0)
    · rcases sound.suspended required stop with ⟨next, here⟩
      exact ⟨required, next, here, paid⟩
  · rw [countP_extend]
    split
    · next resume =>
        exact Nat.succ_le_of_lt
          (Nat.lt_of_le_of_lt course.resumes (resumed_progress course stepped resume))
    · rw [shape, blocks_append]
      exact Nat.le_trans course.resumes (Nat.le_add_right _ _)
  · intro running
    rw [countP_extend, countP_extend]
    have stage : 1 ≤ after.guest.waiting.stage := by
      rw [shape] at running ⊢
      rcases stops with ⟨ends, reported, _, waiting, _⟩ | ⟨_, _, _, waits⟩
      · rw [show _ = _ from waiting] at running
        cases running
      · exact waits
    have counted :
        (if polledReady ⟨before, .poll ready now bound, after⟩ = true then 1 else 0) ≤ 1 := by
      split
      · exact Nat.le_refl 1
      · exact Nat.zero_le 1
    unfold PluginInstance.givesControl at control
    cases place : before.guest.waiting with
    | unpolled =>
        have polls := course.polls (by rw [place]; rfl)
        rw [place] at polls
        have polls : history.countP polledReady ≤ 3 * history.countP resumed := polls
        omega
    | courtesyYield =>
        rw [place] at control
        have polls := course.polls (by rw [place]; rfl)
        rw [place] at polls
        have polls : history.countP polledReady ≤ 3 * history.countP resumed + 3 := polls
        have resume : resumed ⟨before, .poll ready now bound, after⟩ = true := by
          simp only [resumed, place]
          exact control
        rw [if_pos resume]
        omega
    | sleeping | stdinWait | ended =>
        rw [place] at control
        cases control

private theorem OnCourse.waited (course : OnCourse program start history before)
    {ready : Bool} {now bound : Nat} {poll : Poll}
    (stepped : before.step program (.poll ready now bound) = some after)
    (kept : before.guest.givesControl poll = false) (same : poll.ready = ready)
    (shape : after = { before with guest := before.guest.poll true poll }) :
    OnCourse program start (history ++ [⟨before, .poll ready now bound, after⟩]) after := by
  have unresumed : ¬ resumed ⟨before, .poll ready now bound, after⟩ = true := by
    intro resume
    rcases resumed_waiting resume with ⟨waiting, _, _, polled⟩
    cases polled
    rw [PluginInstance.givesControl, waiting] at kept
    rw [show poll.ready = true from same] at kept
    cases kept
  have resumes : List.countP resumed (history ++ [⟨before, .poll ready now bound, after⟩]) =
      history.countP resumed := by
    rw [countP_extend, if_neg unresumed]
    rfl
  have polls : List.countP polledReady (history ++ [⟨before, .poll ready now bound, after⟩]) =
      history.countP polledReady + if poll.ready then 1 else 0 := by
    rw [countP_extend, same]
    rfl
  cases waits : before.guest.waiting.isEnded with
  | true =>
      have unmoved : after = before := by
        rw [shape, PluginInstance.poll_ended waits]
      rw [unmoved] at resumes polls ⊢
      refine ⟨course.same, course.ended, course.paid, ?_, fun running => ?_⟩
      · rw [resumes]
        exact course.resumes
      · rw [waits] at running
        cases running
  | false =>
      rcases PluginInstance.poll_waits kept waits with ⟨fuel, stage⟩
      have begun : 1 ≤ before.guest.waiting.stage := by
        cases place : before.guest.waiting with
        | unpolled =>
            rw [PluginInstance.givesControl, place] at kept
            cases kept
        | ended =>
            rw [place] at waits
            cases waits
        | sleeping | stdinWait | courtesyYield => exact Nat.succ_le_of_lt (Nat.succ_pos _)
      refine ⟨?_, ?_, ?_, ?_, fun running => ?_⟩
      · rw [shape]
        exact course.same
      · intro result ended
        rw [shape] at ended
        rw [show _ = _ from ended] at stage
        exact absurd (Nat.le_trans begun (Nat.le_of_add_right_le stage)) (Nat.not_succ_le_zero 0)
      · intro _
        rw [shape, show _ = _ from fuel]
        exact course.paid begun
      · rw [resumes, shape]
        exact course.resumes
      · rw [polls, resumes, shape]
        dsimp only
        have counted := course.polls waits
        omega

private theorem OnCourse.step (course : OnCourse program start history before)
    {action : SlicedAction} (stepped : before.step program action = some after) :
    OnCourse program start (history ++ [⟨before, action, after⟩]) after := by
  cases action with
  | pipes stdin stdout stderr =>
      cases stepped
      refine ⟨course.same, course.ended, course.paid, ?_, fun running => ?_⟩
      · rw [countP_extend]
        exact course.resumes
      · rw [countP_extend, countP_extend]
        exact course.polls running
  | poll ready now bound =>
      rcases step_poll_cases stepped with ⟨span, control, sliced, shape⟩ | ⟨poll, kept, same, shape⟩
      · exact course.sliced stepped control sliced shape
      · exact course.waited stepped kept same shape

/-! ## The run -/

/-- Whatever `max_fuel` is, however the guest's calls treat its fuel, and however
the future is polled, slicing is transparent to the guest. -/
theorem fuel_slicing_transparent (program : GuestProgram Point Answer) (start : Point)
    (store : Caller) (maxFuel : Option Nat)
    {history : List (Transition (SlicedRun Point) SlicedAction)} {final : SlicedRun Point}
    (run : Run (SlicedRun.step program) (.spawned store maxFuel start) history final) :
    Transparent program start history final := by
  have fresh : OnCourse program start [] (.spawned store maxFuel start) :=
    ⟨.here _, fun _ ended => (by cases ended), fun waits => absurd waits (Nat.not_succ_le_zero 0),
      Nat.zero_le _, fun _ => Nat.zero_le _⟩
  rcases run.throughout (OnCourse program start) (fun _ => True) fresh (fun _ _ => trivial)
    (fun _ _ _ _ course stepped _ => course.step stepped) with ⟨course, along⟩
  refine ⟨course.same, course.ended, fun taken member resume => ?_, course.resumes,
    fun steps last ends whole ended => ?_⟩
  · rcases List.append_of_mem member with ⟨earlier, later, shape⟩
    exact resumed_progress (along.before run shape) (run.stepped taken member) resume
  · rcases course.same.within whole ended with ⟨rest, shape, remaining⟩
    cases waits : final.guest.waiting.isEnded with
    | true =>
        refine .inl ?_
        cases place : final.guest.waiting with
        | ended result =>
            rcases course.ended result place with ⟨ends', stopped, reports⟩
            rcases course.same.unique whole stopped ended with ⟨executed, position, same⟩
            exact ⟨result, rfl, executed, position, same ▸ reports⟩
        | unpolled | sleeping | stdinWait | courtesyYield =>
            rw [place] at waits
            cases waits
    | false =>
        refine .inr ⟨rfl, fun ready now bound enough => ?_, ?_⟩
        · have shorter : rest.length < bound := by
            rw [shape, List.length_append] at enough
            omega
          simp only [SlicedRun.step]
          split
          · rcases Option.isSome_iff_exists.mp (slice_stops remaining ended
              final.guest.givenStore.fuel shorter) with ⟨span, sliced⟩
            rw [sliced]
            rfl
          · rfl
        · have polls := course.polls waits
          have resumes := course.resumes
          have stage := final.guest.waiting.stage_le
          rw [shape, blocks_append]
          omega

end Target

/-! ## A guest between two expensive blocks -/

/-- A program of three steps: a cheap block, a call that takes the remaining fuel
away, and a block that costs more than a slice has. -/
def thriftyGuest : GuestProgram Nat PUnit where
  next
    | 0 => .block 7 1
    | 1 => .call fun _ => 2
    | 2 => .block 500 3
    | _ => .finished
  replies := fun _ => ⟨some ⟨⟩, true⟩
  effect := fun _ store => store

/-- The polls in which the thrifty guest runs. Its first slice stops at once, because
`max_fuel` is 0, and its second at the expensive block. -/
def threeSlices : List SlicedAction :=
  [.poll true 0 5, .poll true 0 5, .poll true 0 5]

theorem threeSlices_enabled : (Run.play (SlicedRun.step thriftyGuest)
    (.spawned pluginStore (some 0) 0) threeSlices).isSome := by
  decide

/-- With `max_fuel` 0 the thrifty guest still ends, after two resumes. -/
theorem thrifty_guest_transparent :
    Transparent thriftyGuest 0
      ((Run.play (SlicedRun.step thriftyGuest) (.spawned pluginStore (some 0) 0) threeSlices).get
        threeSlices_enabled).1
      ((Run.play (SlicedRun.step thriftyGuest) (.spawned pluginStore (some 0) 0) threeSlices).get
        threeSlices_enabled).2 :=
  fuel_slicing_transparent thriftyGuest 0 pluginStore (some 0)
    (Run.of_enabled threeSlices threeSlices_enabled)

end Host
end WasmiPlugin
