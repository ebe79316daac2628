import WasmiPlugin.Wasi.Context

namespace WasmiPlugin
namespace Host

open Foundation Wasi

/-!
# Running the guest

`run_wasm` starts the guest without fuel and then resumes it with some fuel at a
time.  Between two slices it looks at the kill flag, waits for a deadline or for
input that the guest asked for, and yields.  The future is suspended at these
waits only, so its state is the store and the place where it waits.

A slice is what the guest does from a resume to its next return to `run_wasm`.
Nothing is assumed about it: it may change its memory, its context and the pipes
in any way, and finish, trap or run out of fuel.  Whether an awaited timer has
fired when the future is polled, and the time, come from the runtime.
-/

/-- What wasmi reports of a slice, as `wasmi::ResumableCall`: the guest has finished,
or it stands in a host trap, or its fuel is spent. -/
inductive ResumableCall where
  | finished
  | hostTrap
  | outOfFuel (requiredFuel : Nat)
  deriving DecidableEq, Repr

inductive RunError where
  | wasmiError
  | resumeError
  | hostTrap
  deriving DecidableEq, Repr

variable [HostTarget]

/-- What the guest does with its store when it is given control, and how it gives
control back. -/
abbrev Slice := Caller -> Caller × Except PUnit ResumableCall

/-- Where the future of `run_wasm` waits, or how it ended. -/
inductive Waiting where
  | unpolled
  | sleeping (resumeTime : Nat)
  | stdinWait
  | courtesyYield
  | ended (result : Except RunError PUnit)

/-- The future of `run_wasm` has completed. -/
def Waiting.isEnded : Waiting -> Bool
  | .ended _ => true
  | _ => false

/-- The fuel of a slice where none is configured, `MAX_FUEL`. -/
def maxFuelDefault : Nat := 100000

/-- A spawned guest: the store, the fuel for a slice, and the state of the future of
`run_wasm`. -/
structure PluginInstance where
  store : Caller
  maxFuel : Nat
  waiting : Waiting

/-- A store with the three pipes of `spawn_plugin`. -/
def pluginStore : Caller where
  ctx := ⟨[], [], some ⟨[]⟩, true, true, none, false⟩
  memory := onePage fun _ => 0
  fuel := 0
  stdin := Pipe.nonBlockingPipe
  stdout := Pipe.nonBlockingPipe
  stderr := Pipe.nonBlockingPipe
  strayed := false

/-- What the runtime and the guest contribute to one poll of the future. -/
structure Poll where
  ready : Bool
  now : Nat
  slice : Slice

namespace PluginInstance

def spawned (store : Caller) (maxFuel : Option Nat) : PluginInstance where
  store := store
  maxFuel := maxFuel.getD maxFuelDefault
  waiting := .unpolled

/-- What the future does from the stdin wait to the next place where it waits. -/
def awaitStdin (guest : PluginInstance) : PluginInstance :=
  if guest.store.ctx.awaitingStdin then
    let asked := guest.store.ctx.stdinAvailable guest.store.stdin
    { guest with
      store := { guest.store with ctx := asked.2.1, stdin := asked.2.2 }
      waiting := if asked.1 then .courtesyYield else .stdinWait }
  else { guest with waiting := .courtesyYield }

def wake (guest : PluginInstance) : PluginInstance :=
  { guest with store :=
    { guest.store with ctx := { guest.store.ctx with sleepUntil := none } } }

/-- What the future does from the sleep request to the next place where it waits. -/
def awaitDeadline (guest : PluginInstance) (now : Nat) : PluginInstance :=
  match guest.store.ctx.sleepUntil with
  | some resumeTime =>
      if resumeTime > now then { guest with waiting := .sleeping resumeTime }
      else guest.wake.awaitStdin
  | none => guest.awaitStdin

/-- The future completes, and the store is dropped with the handles in it. -/
def finish (guest : PluginInstance) (result : Except RunError PUnit) : PluginInstance :=
  { guest with
    store := { guest.store with
      ctx := { guest.store.ctx with
        stdinReader := none
        stdoutWriter := false
        stderrWriter := false }
      stdout := if guest.store.ctx.stdoutWriter then guest.store.stdout.dropWriter.2
        else guest.store.stdout
      stderr := if guest.store.ctx.stderrWriter then guest.store.stderr.dropWriter.2
        else guest.store.stderr }
    waiting := .ended result }

/-- `match resumable`, with the check of the kill flag. -/
def dispatch (guest : PluginInstance) (isRunning : Bool) (now : Nat) :
    ResumableCall -> PluginInstance
  | .finished => guest.finish (.ok ⟨⟩)
  | .hostTrap => guest.finish (.error .hostTrap)
  | .outOfFuel requiredFuel =>
      if isRunning then
        { guest with store := { guest.store with fuel := max requiredFuel guest.maxFuel } }
          |>.awaitDeadline now
      else guest.finish (.ok ⟨⟩)

/-- The guest gets control, by `call_resumable` or `resume`, until it gives it back. -/
def run (guest : PluginInstance) (isRunning : Bool) (poll : Poll) (failure : RunError) :
    PluginInstance :=
  match poll.slice guest.store with
  | (store, .ok resumable) => { guest with store := store }.dispatch isRunning poll.now resumable
  | (store, .error _) => { guest with store := store }.finish (.error failure)

/-- One poll of the future. -/
def poll (guest : PluginInstance) (isRunning : Bool) (poll : Poll) : PluginInstance :=
  match guest.waiting with
  | .unpolled =>
      { guest with store := { guest.store with fuel := 0 } }.run isRunning poll .wasmiError
  | .sleeping _ => if poll.ready then guest.wake.awaitStdin else guest
  | .stdinWait =>
      if poll.ready then
        { guest with
          store := { guest.store with ctx := { guest.store.ctx with awaitingStdin := false } }
          waiting := .courtesyYield }
      else guest
  | .courtesyYield => if poll.ready then guest.run isRunning poll .resumeError else guest
  | .ended _ => guest

def givesControl (guest : PluginInstance) (poll : Poll) : Bool :=
  match guest.waiting with
  | .unpolled => true
  | .courtesyYield => poll.ready
  | _ => false

def givenStore (guest : PluginInstance) : Caller :=
  match guest.waiting with
  | .unpolled => { guest.store with fuel := 0 }
  | _ => guest.store

/-- The value of `is_running` that a poll loads. It loads the flag only after a slice
that ran out of fuel. -/
def loads (guest : PluginInstance) (isRunning : Bool) (poll : Poll) : Option Bool :=
  if guest.givesControl poll then
    match (poll.slice guest.givenStore).2 with
    | .ok (.outOfFuel _) => some isRunning
    | _ => none
  else none

/-! ## Waiting -/

theorem poll_control {guest : PluginInstance} {poll : Poll}
    (control : guest.givesControl poll = true) (isRunning : Bool) :
    Exists fun failure : RunError => (failure = .wasmiError ∨ failure = .resumeError) ∧
      guest.poll isRunning poll =
        { guest with store := guest.givenStore }.run isRunning poll failure := by
  unfold givesControl at control
  unfold PluginInstance.poll givenStore
  cases place : guest.waiting with
  | unpolled => exact ⟨.wasmiError, .inl rfl, rfl⟩
  | courtesyYield =>
      rw [place] at control
      exact ⟨.resumeError, .inr rfl, if_pos control⟩
  | sleeping | stdinWait | ended =>
      rw [place] at control
      cases control

@[simp] theorem finish_isEnded (guest : PluginInstance) (result : Except RunError PUnit) :
    (guest.finish result).waiting.isEnded = true := rfl

theorem awaitStdin_isEnded (guest : PluginInstance) :
    guest.awaitStdin.waiting.isEnded = false := by
  unfold awaitStdin
  split
  · dsimp only
    split <;> rfl
  · rfl

/-- A future that ends in a poll gave control to the guest in that poll. -/
theorem ends_after_control {guest : PluginInstance} {isRunning : Bool} {poll : Poll}
    (waits : guest.waiting.isEnded = false)
    (ends : (guest.poll isRunning poll).waiting.isEnded = true) :
    guest.givesControl poll = true := by
  unfold PluginInstance.poll at ends
  unfold givesControl
  cases place : guest.waiting with
  | unpolled => rfl
  | sleeping resumeTime =>
      simp only [place] at ends
      split at ends
      · rw [awaitStdin_isEnded] at ends
        cases ends
      · rw [waits] at ends
        cases ends
  | stdinWait =>
      simp only [place] at ends
      split at ends
      · cases ends
      · rw [waits] at ends
        cases ends
  | courtesyYield =>
      simp only [place] at ends
      split at ends
      · next ready => exact ready
      · rw [waits] at ends
        cases ends
  | ended result =>
      simp only [place, Waiting.isEnded, Bool.true_eq_false] at waits

/-- A future that has ended gives no control to the guest and does not look at the
flag any more. -/
theorem ended_quiet {guest : PluginInstance} (ended : guest.waiting.isEnded = true)
    (isRunning : Bool) (poll : Poll) :
    guest.givesControl poll = false ∧ guest.loads isRunning poll = none := by
  have quiet : guest.givesControl poll = false := by
    unfold givesControl
    cases place : guest.waiting with
    | ended result => rfl
    | unpolled | sleeping | stdinWait | courtesyYield =>
        simp only [place, Waiting.isEnded, Bool.false_eq_true] at ended
  refine ⟨quiet, ?_⟩
  simp only [loads, quiet, Bool.false_eq_true, if_false]

theorem poll_ended {guest : PluginInstance} (ended : guest.waiting.isEnded = true)
    (isRunning : Bool) (poll : Poll) : guest.poll isRunning poll = guest := by
  cases place : guest.waiting with
  | ended result => rw [PluginInstance.poll, place]
  | unpolled | sleeping | stdinWait | courtesyYield =>
      rw [place] at ended
      cases ended

private theorem run_killed (guest : PluginInstance) {poll : Poll} {failure : RunError}
    {requiredFuel : Nat} (spent : (poll.slice guest.store).2 = .ok (.outOfFuel requiredFuel)) :
    (guest.run false poll failure).waiting.isEnded = true := by
  unfold run
  rcases slice : poll.slice guest.store with ⟨store, result⟩
  rw [slice] at spent
  dsimp only at spent
  subst spent
  rfl

/-- A cleared flag ends the future at its next check. -/
theorem killed_at_check {guest : PluginInstance} {poll : Poll} {value : Bool}
    (checked : guest.loads false poll = some value) :
    (guest.poll false poll).waiting.isEnded = true := by
  unfold loads at checked
  split at checked
  · next control =>
      split at checked
      · next requiredFuel spent =>
          rcases poll_control control false with ⟨failure, _, shape⟩
          rw [shape]
          exact run_killed _ spent
      · cases checked
  · cases checked

end PluginInstance

end Host
end WasmiPlugin
