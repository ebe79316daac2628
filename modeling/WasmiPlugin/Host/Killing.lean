import WasmiPlugin.Foundation.Run
import WasmiPlugin.Host.RunWasm

namespace WasmiPlugin
namespace Host

open Foundation

/-!
# Killing a guest

The flag of `spawn_wasm` can be cleared by whoever holds it.  `run_wasm` looks at
it after a slice and then waits, for a deadline, for input, and for the other
tasks.  It does not look again before it resumes the guest.

So the flag is set whenever the guest is resumed, unless it was cleared during one
of the waits.  Then the guest is resumed once more, however long the wait was.
-/

/-- The future of `run_wasm` has been polled and is suspended at one of its waits. -/
def Waiting.isSuspended : Waiting -> Bool
  | .sleeping _ => true
  | .stdinWait => true
  | .courtesyYield => true
  | .unpolled => false
  | .ended _ => false

theorem Waiting.isEnded_of_isSuspended {place : Waiting} (suspended : place.isSuspended = true) :
    place.isEnded = false := by
  cases place with
  | sleeping | stdinWait | courtesyYield => rfl
  | unpolled | ended => cases suspended

section Target

variable [Wasi.HostTarget]

/-- A spawned guest with the flag `is_running` that it shares with its owner. -/
structure SpawnedTask where
  guest : PluginInstance
  isRunning : Bool

/-- A spawned guest is polled, or another task clears its flag. During a poll the flag
may be cleared as well, by another thread. -/
inductive SpawnedAction where
  | poll (poll : Poll) (killed : Bool)
  | kill
  | pipes (stdin stdout stderr : Pipe.Inner)

namespace SpawnedTask

/-- `spawn_wasm`, before its first poll. -/
def spawned (store : Wasi.Caller) (maxFuel : Option Nat) : SpawnedTask where
  guest := .spawned store maxFuel
  isRunning := true

/-- One step of the spawned guest and its owner. `spawn_wasm` clears the flag itself
when `run_wasm` has ended. -/
def step (task : SpawnedTask) : SpawnedAction -> Option SpawnedTask
  | .poll poll killed =>
      if task.guest.waiting.isEnded then none
      else
        let guest := task.guest.poll (task.isRunning && !killed) poll
        some ⟨guest, task.isRunning && !killed && !guest.waiting.isEnded⟩
  | .kill => some { task with isRunning := false }
  | .pipes stdin stdout stderr =>
      some { task with guest := { task.guest with store :=
        { task.guest.store with stdin := stdin, stdout := stdout, stderr := stderr } } }

end SpawnedTask

def Resumes (taken : Transition SpawnedTask SpawnedAction) : Prop :=
  match taken.action, taken.before.guest.waiting with
  | .poll poll _, .courtesyYield => poll.ready = true
  | _, _ => False

/-- The flag is set whenever the guest is resumed. -/
def ResumedRunning (history : List (Transition SpawnedTask SpawnedAction)) : Prop :=
  forall taken, taken ∈ history -> Resumes taken -> taken.before.isRunning = true

/-- Once the flag has been cleared, the guest is not resumed any more. -/
def StaysKilled (history : List (Transition SpawnedTask SpawnedAction)) : Prop :=
  forall earlier taken later, history = earlier ++ taken :: later ->
    (Exists fun clearing => clearing ∈ earlier ∧ clearing.after.isRunning = false) ->
    ¬ Resumes taken

/-- The flag is not cleared while the future waits: another task clears it before
the first poll or after the last one, or another thread does while the guest has
control. -/
def KilledInControl (taken : Transition SpawnedTask SpawnedAction) : Prop :=
  match taken.action with
  | .kill => taken.before.guest.waiting.isSuspended = false
  | .poll poll true => taken.before.guest.givesControl poll = true
  | _ => True

instance decidableKilledInControl (taken : Transition SpawnedTask SpawnedAction) :
    Decidable (KilledInControl taken) :=
  match taken with
  | ⟨before, .kill, _⟩ => inferInstanceAs (Decidable (before.guest.waiting.isSuspended = false))
  | ⟨before, .poll poll true, _⟩ =>
      inferInstanceAs (Decidable (before.guest.givesControl poll = true))
  | ⟨_, .poll _ false, _⟩ => inferInstanceAs (Decidable True)
  | ⟨_, .pipes _ _ _, _⟩ => inferInstanceAs (Decidable True)

/-! ## What a poll leaves behind -/

namespace PluginInstance

/-- A run of the guest that ends at a wait has found the flag set. -/
theorem run_suspended {guest : PluginInstance} {isRunning : Bool} {poll : Poll}
    {failure : RunError}
    (suspended : (guest.run isRunning poll failure).waiting.isSuspended = true) :
    isRunning = true := by
  cases isRunning with
  | true => rfl
  | false =>
      unfold run at suspended
      split at suspended
      · next store resumable _ =>
          cases resumable with
          | finished | hostTrap | outOfFuel => cases suspended
      · cases suspended

/-- A poll that ends at a wait has found the flag set, unless the future was at a wait
before and the guest was not resumed. -/
theorem poll_suspended {guest : PluginInstance} {isRunning : Bool} {poll : Poll}
    (suspended : (guest.poll isRunning poll).waiting.isSuspended = true) :
    isRunning = true ∨
      guest.waiting.isSuspended = true ∧ guest.givesControl poll = false := by
  cases control : guest.givesControl poll with
  | true =>
      rcases poll_control control isRunning with ⟨failure, _, shape⟩
      rw [shape] at suspended
      exact .inl (run_suspended suspended)
  | false =>
      refine .inr ⟨?_, rfl⟩
      unfold givesControl at control
      unfold PluginInstance.poll at suspended
      cases place : guest.waiting with
      | unpolled =>
          rw [place] at control
          cases control
      | ended result =>
          simp only [place] at suspended
          cases suspended
      | sleeping | stdinWait | courtesyYield => rfl

end PluginInstance

/-! ## Runs -/

def SetWhileWaiting (task : SpawnedTask) : Prop :=
  task.guest.waiting.isSuspended = true -> task.isRunning = true

private theorem step_setWhileWaiting {before after : SpawnedTask} {action : SpawnedAction}
    (set : SetWhileWaiting before) (stepped : before.step action = some after)
    (killed : KilledInControl ⟨before, action, after⟩) : SetWhileWaiting after := by
  intro suspended
  cases action with
  | kill =>
      cases stepped
      unfold KilledInControl at killed
      dsimp only at killed suspended
      rw [killed] at suspended
      cases suspended
  | pipes stdin stdout stderr =>
      cases stepped
      exact set suspended
  | poll poll cleared =>
      simp only [SpawnedTask.step] at stepped
      split at stepped
      · cases stepped
      · cases stepped
        dsimp only at suspended ⊢
        rw [Waiting.isEnded_of_isSuspended suspended, Bool.not_false, Bool.and_true]
        rcases PluginInstance.poll_suspended suspended with running | ⟨was, control⟩
        · exact running
        · cases cleared with
          | false =>
              rw [set was]
              rfl
          | true =>
              unfold KilledInControl at killed
              dsimp only at killed
              rw [control] at killed
              cases killed

theorem cleared_stays {store : Wasi.Caller} {maxFuel : Option Nat}
    {history : List (Transition SpawnedTask SpawnedAction)} {final : SpawnedTask}
    (run : Run SpawnedTask.step (.spawned store maxFuel) history final)
    (cleared : Exists fun taken => taken ∈ history ∧ taken.after.isRunning = false) :
    final.isRunning = false := by
  refine run.remembered (fun task => task.isRunning = false)
    (fun taken => taken.after.isRunning = false) ?_ cleared
  intro before action after stepped either
  rcases either with was | clears
  · cases action with
    | kill =>
        cases stepped
        rfl
    | pipes stdin stdout stderr =>
        cases stepped
        exact was
    | poll poll killed =>
        simp only [SpawnedTask.step] at stepped
        split at stepped
        · cases stepped
        · cases stepped
          simp only [was, Bool.false_and]
  · exact clears

/-- If the flag is never cleared during a wait, it is set whenever the guest is
resumed, and so the guest is not resumed any more once it has been cleared. -/
theorem killed_not_resumed {store : Wasi.Caller} {maxFuel : Option Nat}
    {history : List (Transition SpawnedTask SpawnedAction)} {final : SpawnedTask}
    (run : Run SpawnedTask.step (.spawned store maxFuel) history final)
    (killed : forall taken, taken ∈ history -> KilledInControl taken) :
    ResumedRunning history ∧ StaysKilled history := by
  have holds := run.invariantWithin SetWhileWaiting KilledInControl (fun suspended => by
    cases suspended) killed fun _ _ _ set stepped meets => step_setWhileWaiting set stepped meets
  have running : ResumedRunning history := by
    intro taken member resumes
    apply (holds.2 taken member).1
    unfold Resumes at resumes
    split at resumes
    · next place =>
        rw [place]
        rfl
    · cases resumes
  refine ⟨running, fun earlier taken later shape cleared resumes => ?_⟩
  have member : taken ∈ history := by
    rw [shape]
    exact List.mem_append_right _ List.mem_cons_self
  have set := running taken member resumes
  rw [cleared_stays (run.split shape).1 cleared] at set
  cases set

/-! ## Killed during a wait -/

/-- A poll in which the runtime reports that the present wait is over. -/
def readyPoll : SpawnedAction :=
  .poll ⟨true, 0, fun store => (store, .ok .finished)⟩ false

section Waits

variable {store : Wasi.Caller} {maxFuel : Option Nat}
  {history : List (Transition SpawnedTask SpawnedAction)} {task : SpawnedTask}

/-- The run has a continuation in which the guest is resumed although the flag is
cleared. -/
def ResumesCleared (store : Wasi.Caller) (maxFuel : Option Nat)
    (history : List (Transition SpawnedTask SpawnedAction)) : Prop :=
  Exists fun more => Exists fun final =>
    Run SpawnedTask.step (.spawned store maxFuel) (history ++ more) final ∧
      ¬ ResumedRunning (history ++ more)

theorem ResumesCleared.earlier {taken : Transition SpawnedTask SpawnedAction}
    (resumes : ResumesCleared store maxFuel (history ++ [taken])) :
    ResumesCleared store maxFuel history := by
  rcases resumes with ⟨more, final, run, violated⟩
  rw [List.append_assoc] at run violated
  exact ⟨[taken] ++ more, final, run, violated⟩

private theorem step_readyPoll (suspended : task.guest.waiting.isSuspended = true)
    (cleared : task.isRunning = false) :
    Exists fun next => task.step readyPoll = some next ∧ next.isRunning = false ∧
      next.guest = task.guest.poll false ⟨true, 0, fun store => (store, .ok .finished)⟩ := by
  refine ⟨_, if_neg ?_, ?_, ?_⟩
  · rw [Waiting.isEnded_of_isSuspended suspended]
    exact Bool.false_ne_true
  · simp only [cleared, Bool.false_and]
  · simp only [cleared, Bool.false_and]

/-- A future at the last of its waits resumes the guest in its next poll, whatever the
flag says by then. -/
private theorem resumesCleared_yield
    (run : Run SpawnedTask.step (.spawned store maxFuel) history task)
    (cleared : task.isRunning = false) (place : task.guest.waiting = .courtesyYield) :
    ResumesCleared store maxFuel history := by
  rcases step_readyPoll (by rw [place]; rfl) cleared with ⟨next, stepped, _⟩
  refine ⟨[⟨task, readyPoll, next⟩], next, run.extend stepped, fun law => ?_⟩
  have resumes : Resumes ⟨task, readyPoll, next⟩ := by
    simp only [Resumes, readyPoll, place]
  have running := law _ (List.mem_append_right _ List.mem_cons_self) resumes
  rw [cleared] at running
  cases running

private theorem resumesCleared_stdin
    (run : Run SpawnedTask.step (.spawned store maxFuel) history task)
    (cleared : task.isRunning = false) (place : task.guest.waiting = .stdinWait) :
    ResumesCleared store maxFuel history := by
  rcases step_readyPoll (by rw [place]; rfl) cleared with ⟨next, stepped, kept, guest⟩
  apply ResumesCleared.earlier
  apply resumesCleared_yield (run.extend stepped) kept
  rw [guest, PluginInstance.poll, place]
  rfl

/-- Once the flag is cleared during a wait, the run has a continuation that resumes
the guest, because the flag is not looked at again before the next slice ends. -/
theorem resumesCleared_suspended
    (run : Run SpawnedTask.step (.spawned store maxFuel) history task)
    (cleared : task.isRunning = false) (suspended : task.guest.waiting.isSuspended = true) :
    ResumesCleared store maxFuel history := by
  cases place : task.guest.waiting with
  | courtesyYield => exact resumesCleared_yield run cleared place
  | stdinWait => exact resumesCleared_stdin run cleared place
  | sleeping resumeTime =>
      rcases step_readyPoll suspended cleared with ⟨next, stepped, kept, guest⟩
      have moved : next.guest.waiting = .courtesyYield ∨ next.guest.waiting = .stdinWait := by
        rw [guest, PluginInstance.poll, place]
        simp only [if_true, PluginInstance.awaitStdin]
        split
        · dsimp only
          split
          · exact .inl rfl
          · exact .inr rfl
        · exact .inl rfl
      apply ResumesCleared.earlier
      rcases moved with yields | waits
      · exact resumesCleared_yield (run.extend stepped) kept yields
      · exact resumesCleared_stdin (run.extend stepped) kept waits
  | unpolled | ended =>
      rw [place] at suspended
      cases suspended

end Waits

end Target

def sleepsAnHour : Poll where
  ready := true
  now := 0
  slice := fun store =>
    ({ store with ctx := { store.ctx with sleepUntil := some 3600 } }, .ok (.outOfFuel 1))

/-- The guest asks to be resumed an hour later, the flag is cleared during that hour,
and then the hour is over. -/
def killedAsleep : List SpawnedAction :=
  [.poll sleepsAnHour false, .kill, readyPoll, readyPoll]

theorem killedAsleep_enabled :
    (Run.play SpawnedTask.step (.spawned pluginStore none) killedAsleep).isSome := by
  decide

/-- A guest that was killed during its sleep is resumed when the sleep is over. -/
theorem killed_guest_resumed :
    ¬ forall store maxFuel history final,
        Run SpawnedTask.step (.spawned store maxFuel) history final -> ResumedRunning history := by
  intro law
  have running := law pluginStore none _ _ (Run.of_enabled killedAsleep killedAsleep_enabled) _
    (List.get_mem _ ⟨3, by decide⟩) rfl
  exact absurd running (by decide)

/-- Another thread clears the flag while the guest has control after a resume. -/
def killedComputing : List SpawnedAction :=
  [.poll sleepsAnHour false, readyPoll, .poll sleepsAnHour true, .kill]

theorem killedComputing_enabled :
    (Run.play SpawnedTask.step (.spawned pluginStore none) killedComputing).isSome := by
  decide

/-- A guest that is killed while it computes was resumed with the flag set only, and
is never resumed again. -/
theorem killedComputing_not_resumed :
    ResumedRunning ((Run.play SpawnedTask.step (.spawned pluginStore none) killedComputing).get
      killedComputing_enabled).1 ∧
    StaysKilled ((Run.play SpawnedTask.step (.spawned pluginStore none) killedComputing).get
      killedComputing_enabled).1 :=
  killed_not_resumed (Run.of_enabled killedComputing killedComputing_enabled) (by decide)

end Host
end WasmiPlugin
