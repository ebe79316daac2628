import WasmiPlugin.Foundation.Run
import WasmiPlugin.Host.RunWasm
import WasmiPlugin.Wasi.Frames
import WasmiPlugin.Wasi.Timers

namespace WasmiPlugin
namespace Host

open Foundation Wasi

/-!
# When a sleeping guest is woken

The wall clock and the monotonic clock advance together, so the time of a run is
an instant, counted in nanoseconds from the spawn, and what the wall clock shows
at the beginning.  It passes while the guest runs, within its calls between one
clock and the other, and while the future is not polled.  A timer fires no earlier
than the delay it was given, and perhaps later.

A successful `poll_oneoff` tells the guest that a timer has fired, and with it
promises that the timer's deadline will have passed when the guest is resumed.
The deadline is that of the earliest subscription, however late.

Between two suspensions a guest may call `poll_oneoff` again, since its fuel is
looked at only at the next block, and the context has room for one deadline only.
-/

/-- The two implementations of `sleep` in the runtime. -/
inductive Backend where
  | native
  | wasm32
  deriving DecidableEq, Repr

/-- The delay that `sleep` gives to its timer, in nanoseconds.  On `wasm32` it is
a number of milliseconds in a `u32`. -/
def Backend.sleep : (backend : Backend) -> (duration : Nat) -> Nat
  | .native, duration => duration
  | .wasm32, duration => duration / 10 ^ 6 % 2 ^ 32 * 10 ^ 6

/-- The back end's timer does not fire before some time is left of a sleep. On
`wasm32` there has to be a whole number of milliseconds that fits its `u32` in
between. -/
def Backend.Lasts : (backend : Backend) -> (left duration : Nat) -> Prop
  | .native, _, _ => True
  | .wasm32, left, duration => Exists fun millis : Nat => millis < 2 ^ 32 ∧
      left ≤ millis * 10 ^ 6 ∧ millis * 10 ^ 6 ≤ duration ∧ duration < (millis + 1) * 10 ^ 6

/-- A timer that lasts does not fire before the given time. -/
theorem Backend.Lasts.le_sleep {backend : Backend} {left duration : Nat}
    (lasts : backend.Lasts left duration) (within : left ≤ duration) :
    left ≤ backend.sleep duration := by
  cases backend with
  | native => exact within
  | wasm32 =>
      rcases lasts with ⟨millis, small, reached, above, below⟩
      have whole : duration / 10 ^ 6 = millis := Nat.div_eq_of_lt_le above below
      rw [Backend.sleep, whole, Nat.mod_eq_of_lt small]
      exact reached

def wall (origin : Int) (instant : Nat) : Int :=
  origin + instant

theorem wall_le (origin : Int) {early late : Nat} (before : early ≤ late) :
    wall origin early ≤ wall origin late := by
  unfold wall
  omega

/-- What the platform answers at an instant. -/
def platformAt (origin : Int) (instant lag : Nat) (random : Option (Nat -> UInt8)) : Platform where
  sinceEpoch := if 0 ≤ wall origin instant then some (wall origin instant).toNat else none
  instant := instant + lag
  random := random

theorem wall_of_platform {origin : Int} {instant lag nanos : Nat}
    {random : Option (Nat -> UInt8)}
    (current : (platformAt origin instant lag random).sinceEpoch = some nanos) :
    wall origin instant = nanos := by
  unfold platformAt at current
  dsimp only at current
  split at current
  · next epoch =>
      cases current
      exact (Int.toNat_of_nonneg epoch).symm
  · cases current

/-! ## Promises -/

/-- The deadline of a subscription in full, which may be later than what fits a `u64`. -/
def deadlineOf (now : Nat) (subscription : Wasi.Host.ClockSubscription) : Nat :=
  if subscription.isAbsolute then subscription.timeout else now + subscription.timeout

/-- What a successful `poll_oneoff` promises, and how the code arrives at a sleep:
whether it asks for one, and whether the addition of `now` saturates in every
subscription. -/
structure Request where
  deadline : Nat
  sleeps : Bool
  saturates : Bool
  lag : Nat
  deriving DecidableEq, Repr

def Request.of (now lag : Nat) (first : Wasi.Host.ClockSubscription)
    (others : List Wasi.Host.ClockSubscription) : Request where
  deadline := deadlineOf now (minByKey (deadlineOf now) first others)
  sleeps := now % 2 ^ 64 <
    (Wasi.Host.earliest (now % 2 ^ 64) first others).deadline (now % 2 ^ 64)
  saturates := (first :: others).all fun subscription =>
    !subscription.isAbsolute && 2 ^ 64 ≤ now % 2 ^ 64 + subscription.timeout
  lag := lag

def lastSleep (requests : List Request) : Option Request :=
  (requests.filter Request.sleeps).getLast?

theorem lastSleep_append (requests : List Request) (request : Request) :
    lastSleep (requests ++ [request]) =
      if request.sleeps then some request else lastSleep requests := by
  rw [lastSleep, lastSleep, List.filter_append, List.filter_singleton]
  cases request.sleeps with
  | true => exact List.getLast?_concat
  | false => exact congrArg List.getLast? (List.append_nil _)

/-! ## The length of a sleep -/

private def Fits (now : Nat) (subscription : Wasi.Host.ClockSubscription) : Prop :=
  subscription.isAbsolute = true ∨ now % 2 ^ 64 + subscription.timeout < 2 ^ 64

private theorem deadline_wait {now : Nat} {subscription : Wasi.Host.ClockSubscription}
    (small : subscription.timeout < 2 ^ 64) (ahead : now < deadlineOf now subscription) :
    subscription.deadline (now % 2 ^ 64) - now % 2 ^ 64 ≤ deadlineOf now subscription - now ∧
      (Fits now subscription -> subscription.deadline (now % 2 ^ 64) - now % 2 ^ 64 =
        deadlineOf now subscription - now) := by
  unfold deadlineOf at ahead ⊢
  unfold Wasi.Host.ClockSubscription.deadline Fits
  split at ahead
  · next absolute =>
      have early : now % 2 ^ 64 = now := Nat.mod_eq_of_lt (Nat.lt_trans ahead small)
      simp only [absolute, if_true, early]
      exact ⟨Nat.le_refl _, fun _ => trivial⟩
  · next relative =>
      simp only [relative, if_false, Bool.false_eq_true, false_or]
      omega

/-- A deadline that is ahead and not cut off is waited for as long as it takes. -/
theorem Request.of_wait {now lag : Nat} {first : Wasi.Host.ClockSubscription}
    {others : List Wasi.Host.ClockSubscription}
    (small : forall subscription, subscription ∈ first :: others ->
      subscription.timeout < 2 ^ 64)
    (whole : (Request.of now lag first others).saturates = false)
    (ahead : now < (Request.of now lag first others).deadline) :
    (Wasi.Host.earliest (now % 2 ^ 64) first others).deadline (now % 2 ^ 64) - now % 2 ^ 64 =
      (Request.of now lag first others).deadline - now := by
  have least : FirstMinimal (deadlineOf now) (first :: others)
      (minByKey (deadlineOf now) first others) := minByKey_firstMinimal first others
  have chosen : FirstMinimal (Wasi.Host.ClockSubscription.deadline (now % 2 ^ 64))
      (first :: others) (Wasi.Host.earliest (now % 2 ^ 64) first others) :=
    minByKey_firstMinimal first others
  have allAhead {subscription : Wasi.Host.ClockSubscription}
      (member : subscription ∈ first :: others) : now < deadlineOf now subscription :=
    Nat.lt_of_lt_of_le ahead (least.le member)
  have waits {subscription : Wasi.Host.ClockSubscription}
      (member : subscription ∈ first :: others) :=
    deadline_wait (small subscription member) (allAhead member)
  apply Nat.le_antisymm
  · calc _ ≤ _ := Nat.sub_le_sub_right (chosen.le least.mem) (now % 2 ^ 64)
      _ ≤ _ := (waits least.mem).1
  · have fits : Exists fun subscription => subscription ∈ first :: others ∧
        Fits now subscription := by
      by_contra none
      refine Bool.eq_false_iff.mp whole (List.all_eq_true.mpr fun subscription member => ?_)
      have cut : ¬ Fits now subscription := fun fits => none ⟨subscription, member, fits⟩
      rcases not_or.mp cut with ⟨relative, large⟩
      simp only [Bool.and_eq_true, Bool.not_eq_true', decide_eq_true_eq]
      exact ⟨Bool.eq_false_iff.mpr relative, Nat.le_of_not_lt large⟩
    have longest {subscription : Wasi.Host.ClockSubscription}
        (member : subscription ∈ first :: others) (fits : Fits now subscription) :
        (Request.of now lag first others).deadline - now ≤
          subscription.deadline (now % 2 ^ 64) - now % 2 ^ 64 := by
      rw [(waits member).2 fits]
      exact Nat.sub_le_sub_right (least.le member) now
    by_cases direct : Fits now (Wasi.Host.earliest (now % 2 ^ 64) first others)
    · exact longest chosen.mem direct
    · -- the chosen deadline is the last one there is, and the other is no earlier
      rcases fits with ⟨other, member, fits⟩
      refine Nat.le_trans (longest member fits) (Nat.sub_le_sub_right ?_ _)
      rcases not_or.mp direct with ⟨relative, large⟩
      have bound := small other member
      simp only [Wasi.Host.ClockSubscription.deadline, relative, if_false, Bool.false_eq_true]
      split
      · omega
      · omega

/-! ## The deadline in the context -/

/-- The context holds the deadline of the last request for a sleep, as an instant. It
is exact when the addition did not saturate and the deadline is still ahead. -/
def Tracked (origin : Int) (time : Nat) (requests : List Request) (sleepUntil : Option Nat) :
    Prop :=
  match lastSleep requests with
  | none => sleepUntil = none
  | some last => Exists fun resumeTime => sleepUntil = some resumeTime ∧
      (last.saturates = false -> (last.deadline : Int) ≤ wall origin time ∨
        wall origin resumeTime = last.deadline + last.lag)

theorem Tracked.later {origin : Int} {early late : Nat} {requests : List Request}
    {sleepUntil : Option Nat} (tracked : Tracked origin early requests sleepUntil)
    (before : early ≤ late) : Tracked origin late requests sleepUntil := by
  unfold Tracked at tracked ⊢
  cases last : lastSleep requests with
  | none =>
      rw [last] at tracked
      exact tracked
  | some last' =>
      rw [last] at tracked
      rcases tracked with ⟨resumeTime, held, exactly⟩
      refine ⟨resumeTime, held, fun whole => (exactly whole).imp_left fun passed => ?_⟩
      exact passed.trans (wall_le origin before)

private theorem Tracked.extend {origin : Int} {time instant lag : Nat} {requests : List Request}
    {sleepUntil : Option Nat} (tracked : Tracked origin time requests sleepUntil)
    (before : time ≤ instant) {first : Wasi.Host.ClockSubscription}
    {others : List Wasi.Host.ClockSubscription}
    (small : forall subscription, subscription ∈ first :: others ->
      subscription.timeout < 2 ^ 64)
    {nanos : Nat} (current : wall origin instant = nanos) :
    Tracked origin (instant + lag) (requests ++ [Request.of nanos lag first others])
      (if nanos % 2 ^ 64 < (Wasi.Host.earliest (nanos % 2 ^ 64) first others).deadline
          (nanos % 2 ^ 64) then
        some (instant + lag +
          ((Wasi.Host.earliest (nanos % 2 ^ 64) first others).deadline (nanos % 2 ^ 64) -
            nanos % 2 ^ 64))
      else sleepUntil) := by
  have sleeps : (Request.of nanos lag first others).sleeps =
      decide (nanos % 2 ^ 64 < (Wasi.Host.earliest (nanos % 2 ^ 64) first others).deadline
        (nanos % 2 ^ 64)) := rfl
  by_cases asks : nanos % 2 ^ 64 <
      (Wasi.Host.earliest (nanos % 2 ^ 64) first others).deadline (nanos % 2 ^ 64)
  · rw [if_pos asks, Tracked, lastSleep_append, sleeps, decide_eq_true asks, if_pos rfl]
    refine ⟨_, rfl, fun whole => ?_⟩
    by_cases ahead : nanos < (Request.of nanos lag first others).deadline
    · refine .inr ?_
      rw [Request.of_wait small whole ahead]
      show _ = _ + (lag : Int)
      unfold wall at current ⊢
      omega
    · refine .inl (le_trans ?_ (wall_le origin (Nat.le_add_right instant lag)))
      rw [current]
      exact Int.ofNat_le.mpr (Nat.le_of_not_lt ahead)
  · rw [if_neg asks, Tracked, lastSleep_append, sleeps, decide_eq_false asks,
      if_neg Bool.false_ne_true]
    exact tracked.later (Nat.le_trans before (Nat.le_add_right instant lag))

/-- A promised deadline has passed when `run_wasm` looks at the clock, or it is no
later than that of the last request for a sleep, which is met. -/
def Covered (backend : Backend) (origin : Int) (now : Nat) (requests : List Request)
    (deadline : Nat) : Prop :=
  (deadline : Int) ≤ wall origin now ∨ Exists fun last => lastSleep requests = some last ∧
    deadline ≤ last.deadline ∧ last.saturates = false ∧
    backend.Lasts (last.deadline - wall origin now).toNat
      ((last.deadline - wall origin now).toNat + last.lag)

theorem Covered.reached {backend : Backend} {origin : Int} {time now deadline : Nat}
    {requests : List Request} {sleepUntil : Option Nat}
    (covered : Covered backend origin now requests deadline)
    (tracked : Tracked origin time requests sleepUntil) (before : time ≤ now) :
    (deadline : Int) ≤ wall origin now ∨ Exists fun resumeTime => sleepUntil = some resumeTime ∧
      now < resumeTime ∧
      (deadline : Int) ≤ wall origin (now + backend.sleep (resumeTime - now)) := by
  rcases covered with passed | ⟨last, isLast, notLater, whole, lasts⟩
  · exact .inl passed
  · unfold Tracked at tracked
    rw [isLast] at tracked
    rcases tracked with ⟨resumeTime, held, exactly⟩
    have ordered := wall_le origin before
    by_cases ahead : (last.deadline : Int) ≤ wall origin now
    · exact .inl (le_trans (Int.ofNat_le.mpr notLater) ahead)
    · rcases exactly whole with passed | same
      · exact absurd (passed.trans ordered) ahead
      · have duration : resumeTime - now =
            (last.deadline - wall origin now).toNat + last.lag := by
          unfold wall at same ahead ⊢
          omega
        have reaches := lasts.le_sleep (Nat.le_add_right _ _)
        rw [← duration] at reaches
        refine .inr ⟨resumeTime, held, ?_, ?_⟩
        · omega
        · unfold wall at ahead reaches ⊢
          omega

section Target

variable [HostTarget]

/-! ## A slice -/

/-- A host call that a guest makes, the time it takes to it, what it has made of its
memory and its fuel until then, and how long the call takes from one clock to the
other. -/
structure GuestStep where
  elapsed : Nat
  memory : GuestMemory
  fuel : Nat
  call : HostCall
  lag : Nat
  random : Option (Nat -> UInt8)

def GuestStep.request (origin : Int) (instant : Nat) (step : GuestStep) : Option Request :=
  match step.call with
  | .pollOneoff subsPtr _ nsubscriptions _ =>
      match clockSubscriptions step.memory (asUsize subsPtr) (turns nsubscriptions) 0 with
      | [] => none
      | first :: others => some (.of (wall origin instant).toNat step.lag first others)
  | _ => none

/-- The guest in the middle of a slice, with the instant and the deadlines promised so
far. It is running until a call does not return. -/
structure Clocked where
  store : Caller
  time : Nat
  requests : List Request
  running : Bool

def returns : Ending -> Bool
  | .errno _ | .continues => true
  | .exit _ | .panic => false

def Clocked.call (origin : Int) (state : Clocked) (step : GuestStep) : Clocked :=
  let instant := state.time + step.elapsed
  let answered := step.call.perform (platformAt origin instant step.lag step.random)
    { state.store with memory := step.memory, fuel := step.fuel }
  { store := answered.2
    time := instant + step.lag
    requests := if answered.1 = .errno .success then
        state.requests ++ (step.request origin instant).toList
      else state.requests
    running := returns answered.1 }

/-- The guest makes its calls one after the other, up to one that does not return. -/
def Clocked.calls (origin : Int) : (steps : List GuestStep) -> (state : Clocked) -> Clocked
  | [], state => state
  | step :: steps, state =>
      let after := state.call origin step
      if after.running then after.calls origin steps else after

/-! ## The run -/

/-- `run_wasm` with its clocks: the instant, the earliest instant at which the timer
of the last sleep fires, and all deadlines that the guest was promised. -/
structure TimedRun where
  guest : PluginInstance
  time : Nat
  armed : Nat
  promised : List Nat

/-- Time passes, the future is polled, or the host does something to the other
ends of the pipes.  A slice makes some calls and ends some time later, either as
it wants or trapped by a call that does not return. -/
inductive TimedAction where
  | elapse (duration : Nat)
  | poll (isRunning ready : Bool) (steps : List GuestStep) (late : Nat)
      (result : Except PUnit ResumableCall)
  | pipes (stdin stdout stderr : Pipe.Inner)

namespace TimedRun

def spawned (store : Caller) (maxFuel : Option Nat) : TimedRun where
  guest := .spawned { store with ctx := { store.ctx with sleepUntil := none } } maxFuel
  time := 0
  armed := 0
  promised := []

def slice (origin : Int) (state : TimedRun) (steps : List GuestStep) : Clocked :=
  Clocked.calls origin steps ⟨state.guest.givenStore, state.time, [], true⟩

def resume (backend : Backend) (origin : Int) (state : TimedRun) (isRunning ready : Bool)
    (steps : List GuestStep) (late : Nat) (result : Except PUnit ResumableCall) : TimedRun :=
  let done := state.slice origin steps
  let now := done.time + late
  let guest := state.guest.poll isRunning
    ⟨ready, now, fun _ => (done.store, if done.running then result else .ok .hostTrap)⟩
  { guest := guest
    time := now
    armed := match guest.waiting with
      | .sleeping resumeTime => now + backend.sleep (resumeTime - now)
      | _ => state.armed
    promised := state.promised ++ done.requests.map Request.deadline }

def wait (state : TimedRun) (isRunning ready : Bool) : TimedRun :=
  { state with
    guest := state.guest.poll isRunning ⟨ready, state.time, fun store => (store, .error ⟨⟩)⟩ }

/-- The timer of a sleep may have fired by now. -/
def mayFire (state : TimedRun) : Bool :=
  match state.guest.waiting with
  | .sleeping _ => state.armed ≤ state.time
  | _ => true

def resumes (state : TimedRun) (ready : Bool) : Bool :=
  state.guest.givesControl ⟨ready, state.time, fun store => (store, .error ⟨⟩)⟩

def step (backend : Backend) (origin : Int) (state : TimedRun) : TimedAction -> Option TimedRun
  | .elapse duration => some { state with time := state.time + duration }
  | .poll isRunning ready steps late result =>
      if state.resumes ready then
        some (state.resume backend origin isRunning ready steps late result)
      else if ready && !state.mayFire then none
      else some (state.wait isRunning ready)
  | .pipes stdin stdout stderr => some { state with guest := { state.guest with
      store := { state.guest.store with stdin := stdin, stdout := stdout, stderr := stderr } } }

/-- Every promised deadline has passed. -/
def OnTime (origin : Int) (state : TimedRun) : Prop :=
  forall deadline, deadline ∈ state.promised -> (deadline : Int) ≤ wall origin state.time

end TimedRun

/-- The guest is not resumed before a deadline that it was promised. -/
def NotEarly (origin : Int) (history : List (Transition TimedRun TimedAction)) : Prop :=
  forall taken, taken ∈ history -> forall isRunning ready steps late result,
    taken.action = .poll isRunning ready steps late result ->
    taken.before.resumes ready = true -> taken.before.OnTime origin

/-- In no run on this back end is a guest resumed before a deadline that it was
promised. -/
def NeverEarly (backend : Backend) : Prop :=
  forall origin store maxFuel history final,
    Run (TimedRun.step backend origin) (.spawned store maxFuel) history final ->
      NotEarly origin history

/-! ## The condition -/

/-- A slice that will be resumed promises only what its last request for a sleep
covers. -/
def Covers (backend : Backend) (origin : Int) (taken : Transition TimedRun TimedAction) : Prop :=
  forall ready steps late requiredFuel,
    taken.action = .poll true ready steps late (.ok (.outOfFuel requiredFuel)) ->
    taken.before.resumes ready = true -> (taken.before.slice origin steps).running = true ->
    forall request, request ∈ (taken.before.slice origin steps).requests ->
      Covered backend origin ((taken.before.slice origin steps).time + late)
        (taken.before.slice origin steps).requests request.deadline

/-! ## What a call does to the deadline -/

theorem frame_sleepUntil :
    Frame fun before after : Caller => after.ctx.sleepUntil = before.ctx.sleepUntil where
  refl := fun _ => rfl
  trans := fun _ _ _ early late => late.trans early
  strayed := fun _ _ => rfl
  memory := fun _ _ => rfl
  fuel := fun _ => rfl
  stdin := fun _ _ _ _ => rfl
  starved := fun _ _ _ _ => rfl
  stdout := fun _ _ _ => rfl
  stderr := fun _ _ _ => rfl

theorem perform_sleepUntil (platform : Platform) (call : HostCall) (caller : Caller)
    (other : forall subsPtr eventsPtr nsubscriptions resultPtr,
      call ≠ .pollOneoff subsPtr eventsPtr nsubscriptions resultPtr) :
    (call.perform platform caller).2.ctx.sleepUntil = caller.ctx.sleepUntil := by
  refine HostCall.perform_within frame_sleepUntil platform call caller ?_ ?_
  · exact fun _ _ => Wasi.Host.fdClose_within frame_sleepUntil (fun _ => rfl) (fun _ _ => rfl)
      fun _ _ => rfl
  · intro subsPtr eventsPtr nsubscriptions resultPtr same
    exact absurd same (other subsPtr eventsPtr nsubscriptions resultPtr)

/-- A `poll_oneoff` that returns has found a timer and read the time, or it refuses
and asks for nothing. -/
theorem pollOneoff_asks (platform : Platform)
    (subsPtr eventsPtr nsubscriptions resultPtr : Int32) (caller : Caller) {ending : Ending}
    {after : Caller}
    (answered : (HostCall.pollOneoff subsPtr eventsPtr nsubscriptions resultPtr).perform platform
      caller = (ending, after)) (returned : ending ≠ .panic) :
    (ending = .errno .inval ∧ after.ctx.sleepUntil = caller.ctx.sleepUntil) ∨
    (Exists fun first => Exists fun others => Exists fun nanos =>
      clockSubscriptions caller.memory (asUsize subsPtr) (turns nsubscriptions) 0 =
        first :: others ∧
      platform.sinceEpoch = some nanos ∧ ending = .errno .success ∧
      after.ctx.sleepUntil =
        if nanos % 2 ^ 64 < (Wasi.Host.earliest (nanos % 2 ^ 64) first others).deadline
            (nanos % 2 ^ 64) then
          some (platform.instant +
            ((Wasi.Host.earliest (nanos % 2 ^ 64) first others).deadline (nanos % 2 ^ 64) -
              nanos % 2 ^ 64))
        else caller.ctx.sleepUntil) := by
  have comesTo := ((HostCall.pollOneoff subsPtr eventsPtr nsubscriptions resultPtr).perform_wp
    platform caller (fun reached left => reached ≠ .panic ∧ reached = ending ∧ left = after)).mp
      (by rw [answered]; exact ⟨returned, rfl, rfl⟩)
  have found := ((wp_pollOneoff (fun _ panics => panics.1 rfl) platform subsPtr eventsPtr
    nsubscriptions resultPtr).mp comesTo).2
  dsimp only at found
  cases considered : clockSubscriptions caller.memory (asUsize subsPtr) (turns nsubscriptions)
    0 with
  | nil =>
      rw [considered] at found
      rcases found with ⟨_, same, left⟩
      exact .inl ⟨same.symm, by rw [← left]⟩
  | cons first others =>
      cases current : platform.sinceEpoch with
      | none =>
          rw [considered, current] at found
          rcases found with ⟨_, same, left⟩
          exact .inl ⟨same.symm, by rw [← left]⟩
      | some nanos =>
          rw [considered, current] at found
          rcases found with ⟨_, _, _, same, left⟩
          refine .inr ⟨first, others, nanos, rfl, rfl, same.symm, ?_⟩
          rw [← left]
          simp only [Caller.answered, gt_iff_lt]
          split <;> rfl

/-! ## The deadline while the guest runs -/

theorem call_time (origin : Int) (state : Clocked) (step : GuestStep) :
    state.time ≤ (state.call origin step).time :=
  Nat.le_trans (Nat.le_add_right state.time step.elapsed) (Nat.le_add_right _ step.lag)

theorem calls_time (origin : Int) (steps : List GuestStep) (state : Clocked) :
    state.time ≤ (state.calls origin steps).time := by
  induction steps generalizing state with
  | nil => exact Nat.le_refl _
  | cons step steps inductionHypothesis =>
      unfold Clocked.calls
      dsimp only
      split
      · exact Nat.le_trans (call_time origin state step) (inductionHypothesis _)
      · exact call_time origin state step

private theorem call_tracked {origin : Int} {state : Clocked} (step : GuestStep)
    (tracked : Tracked origin state.time state.requests state.store.ctx.sleepUntil)
    (running : (state.call origin step).running = true) :
    Tracked origin (state.call origin step).time (state.call origin step).requests
      (state.call origin step).store.ctx.sleepUntil := by
  have later := call_time origin state step
  unfold Clocked.call at running later ⊢
  dsimp only at running later ⊢
  rcases answered : step.call.perform
    (platformAt origin (state.time + step.elapsed) step.lag step.random)
    { state.store with memory := step.memory, fuel := step.fuel } with ⟨ending, after⟩
  rw [answered] at running
  dsimp only at running ⊢
  by_cases polls : Exists fun subsPtr => Exists fun eventsPtr => Exists fun nsubscriptions =>
      Exists fun resultPtr => step.call = .pollOneoff subsPtr eventsPtr nsubscriptions resultPtr
  · rcases polls with ⟨subsPtr, eventsPtr, nsubscriptions, resultPtr, call⟩
    rw [call] at answered
    rcases pollOneoff_asks _ subsPtr eventsPtr nsubscriptions resultPtr _ answered
        (fun panics => by rw [panics] at running; cases running) with
      ⟨refused, kept⟩ | ⟨first, others, nanos, found, current, succeeded, asked⟩
    · rw [refused, if_neg (fun same => by cases same), kept]
      exact tracked.later later
    · have shown := wall_of_platform current
      have promised : step.request origin (state.time + step.elapsed) =
          some (.of nanos step.lag first others) := by
        rw [GuestStep.request, call]
        dsimp only at found ⊢
        rw [found, shown]
        rfl
      rw [if_pos succeeded, promised, asked]
      refine tracked.extend (Nat.le_add_right _ _) (fun subscription member => ?_) shown
      rw [← found] at member
      exact clockSubscriptions_timeout _ _ _ _ member
  · have other subsPtr eventsPtr nsubscriptions resultPtr :
        step.call ≠ .pollOneoff subsPtr eventsPtr nsubscriptions resultPtr :=
      fun call => polls ⟨subsPtr, eventsPtr, nsubscriptions, resultPtr, call⟩
    have silent : step.request origin (state.time + step.elapsed) = none := by
      unfold GuestStep.request
      split
      · next call => exact absurd call (other _ _ _ _)
      · rfl
    have kept := perform_sleepUntil (platformAt origin (state.time + step.elapsed) step.lag
      step.random) step.call { state.store with memory := step.memory, fuel := step.fuel } other
    rw [answered] at kept
    rw [silent, Option.toList_none, List.append_nil, ite_self, show _ = _ from kept]
    exact tracked.later later

/-- A slice in which every call returns leaves the deadline of its last request in the
context. -/
theorem calls_tracked {origin : Int} (steps : List GuestStep) {state : Clocked}
    (tracked : Tracked origin state.time state.requests state.store.ctx.sleepUntil)
    (running : (state.calls origin steps).running = true) :
    Tracked origin (state.calls origin steps).time (state.calls origin steps).requests
      (state.calls origin steps).store.ctx.sleepUntil := by
  induction steps generalizing state with
  | nil => exact tracked
  | cons step steps inductionHypothesis =>
      unfold Clocked.calls at running ⊢
      dsimp only at running ⊢
      split at running
      · next on =>
          rw [if_pos on]
          exact inductionHypothesis (call_tracked step tracked on) running
      · next off => exact absurd running off

/-! ## The invariant -/

namespace PluginInstance

/-- The future waits for the next resume, and there is no deadline left to wait for. -/
def Rested (guest : PluginInstance) : Prop :=
  guest.store.ctx.sleepUntil = none ∧
    (guest.waiting = .unpolled ∨ guest.waiting = .stdinWait ∨ guest.waiting = .courtesyYield)

theorem awaitStdin_rested {guest : PluginInstance} (awake : guest.store.ctx.sleepUntil = none) :
    guest.awaitStdin.Rested := by
  unfold awaitStdin
  split
  · refine ⟨?_, .inr ?_⟩
    · show (guest.store.ctx.stdinAvailable guest.store.stdin).2.1.sleepUntil = none
      unfold WasiCtx.stdinAvailable
      split
      · exact awake
      · split <;> exact awake
    · dsimp only
      split
      · exact .inr rfl
      · exact .inl rfl
  · exact ⟨awake, .inr (.inr rfl)⟩

/-- When the future looks at the deadline, either there is none ahead and it rests, or
it sleeps until the deadline. -/
theorem awaitDeadline_cases (guest : PluginInstance) (now : Nat) :
    (Exists fun resumeTime => guest.store.ctx.sleepUntil = some resumeTime ∧ now < resumeTime ∧
      (guest.awaitDeadline now).waiting = .sleeping resumeTime) ∨
    ((forall resumeTime, guest.store.ctx.sleepUntil = some resumeTime -> resumeTime ≤ now) ∧
      (guest.awaitDeadline now).Rested) := by
  unfold awaitDeadline
  cases asked : guest.store.ctx.sleepUntil with
  | none => exact .inr ⟨fun _ held => (by cases held), awaitStdin_rested asked⟩
  | some resumeTime =>
      dsimp only
      split
      · next ahead => exact .inl ⟨resumeTime, rfl, ahead, rfl⟩
      · next passed =>
          refine .inr ⟨fun _ held => ?_, awaitStdin_rested rfl⟩
          cases held
          exact Nat.le_of_not_lt passed

end PluginInstance

/-- Where a run stands between two resumes: it has ended, it sleeps with a timer that
covers every promised deadline, or it waits for the next resume with every deadline
passed. -/
inductive Settled (origin : Int) (state : TimedRun) : Prop
  | ended (finished : state.guest.waiting.isEnded = true)
  | asleep (resumeTime : Nat) (waits : state.guest.waiting = .sleeping resumeTime)
      (covered : forall deadline, deadline ∈ state.promised ->
        (deadline : Int) ≤ wall origin (max state.time state.armed))
  | rested (rests : state.guest.Rested) (onTime : state.OnTime origin)

private theorem awaitDeadline_settled {backend : Backend} {origin : Int} {guest : PluginInstance}
    {now armed : Nat} {promised : List Nat}
    (reached : forall deadline, deadline ∈ promised -> (deadline : Int) ≤ wall origin now ∨
      Exists fun resumeTime => guest.store.ctx.sleepUntil = some resumeTime ∧ now < resumeTime ∧
        (deadline : Int) ≤ wall origin (now + backend.sleep (resumeTime - now))) :
    Settled origin {
      guest := guest.awaitDeadline now
      time := now
      armed := match (guest.awaitDeadline now).waiting with
        | .sleeping resumeTime => now + backend.sleep (resumeTime - now)
        | _ => armed
      promised := promised } := by
  rcases guest.awaitDeadline_cases now with ⟨resumeTime, held, ahead, waits⟩ | ⟨passed, rests⟩
  · refine .asleep resumeTime waits fun deadline member => ?_
    dsimp only at member ⊢
    rw [waits]
    rcases reached deadline member with early | ⟨resumeTime', held', _, slept⟩
    · exact early.trans (wall_le origin (Nat.le_max_left ..))
    · cases held.symm.trans held'
      exact slept.trans (wall_le origin (Nat.le_max_right ..))
  · refine .rested rests fun deadline member => ?_
    rcases reached deadline member with early | ⟨resumeTime, held, ahead, _⟩
    · exact early
    · exact absurd ahead (Nat.not_lt_of_le (passed resumeTime held))

theorem poll_settled {backend : Backend} {origin : Int} {guest : PluginInstance}
    {isRunning ready running : Bool} {store : Caller} {now armed : Nat} {promised : List Nat}
    {result : Except PUnit ResumableCall}
    (control : guest.givesControl ⟨ready, now, fun _ => (store,
      if running then result else .ok .hostTrap)⟩ = true)
    (reached : forall requiredFuel, isRunning = true -> result = .ok (.outOfFuel requiredFuel) ->
      running = true -> forall deadline, deadline ∈ promised ->
        (deadline : Int) ≤ wall origin now ∨ Exists fun resumeTime =>
          store.ctx.sleepUntil = some resumeTime ∧ now < resumeTime ∧
            (deadline : Int) ≤ wall origin (now + backend.sleep (resumeTime - now))) :
    Settled origin {
      guest := guest.poll isRunning ⟨ready, now, fun _ => (store,
        if running then result else .ok .hostTrap)⟩
      time := now
      armed := match (guest.poll isRunning ⟨ready, now, fun _ => (store,
          if running then result else .ok .hostTrap)⟩).waiting with
        | .sleeping resumeTime => now + backend.sleep (resumeTime - now)
        | _ => armed
      promised := promised } := by
  rcases PluginInstance.poll_control control isRunning with ⟨failure, _, shape⟩
  rw [shape]
  cases running with
  | false => exact .ended rfl
  | true =>
      cases result with
      | error fault => exact .ended rfl
      | ok resumable =>
          cases resumable with
          | finished | hostTrap => exact .ended rfl
          | outOfFuel requiredFuel =>
              cases isRunning with
              | false => exact .ended rfl
              | true => exact awaitDeadline_settled (reached requiredFuel rfl rfl rfl)

theorem Settled.given {origin : Int} {state : TimedRun} (settled : Settled origin state)
    {ready : Bool} (control : state.resumes ready = true) :
    state.guest.Rested ∧ state.OnTime origin := by
  cases settled with
  | ended finished =>
      have quiet := PluginInstance.ended_quiet finished true
        ⟨ready, state.time, fun store => (store, .error ⟨⟩)⟩
      exact absurd control (Bool.eq_false_iff.mp quiet.1)
  | asleep resumeTime waits covered =>
      rw [TimedRun.resumes, PluginInstance.givesControl, waits] at control
      cases control
  | rested rests onTime => exact ⟨rests, onTime⟩

theorem PluginInstance.Rested.givenStore {guest : PluginInstance} (rests : guest.Rested) :
    guest.givenStore.ctx.sleepUntil = none := by
  unfold PluginInstance.givenStore
  split <;> exact rests.1

/-- A slice whose promises are covered leads from a run that is settled to one that is
settled again. -/
private theorem resume_settled {backend : Backend} {origin : Int} {state : TimedRun}
    {isRunning ready : Bool} {steps : List GuestStep} {late : Nat}
    {result : Except PUnit ResumableCall} (rests : state.guest.Rested)
    (onTime : state.OnTime origin) (control : state.resumes ready = true)
    (covers : forall requiredFuel, isRunning = true -> result = .ok (.outOfFuel requiredFuel) ->
      (state.slice origin steps).running = true ->
      forall request, request ∈ (state.slice origin steps).requests ->
        Covered backend origin ((state.slice origin steps).time + late)
          (state.slice origin steps).requests request.deadline) :
    Settled origin (state.resume backend origin isRunning ready steps late result) := by
  have begins : state.time ≤ (state.slice origin steps).time :=
    calls_time origin steps ⟨state.guest.givenStore, state.time, [], true⟩
  refine poll_settled (show state.guest.givesControl _ = true from control)
    fun requiredFuel runs spent running deadline member => ?_
  rcases List.mem_append.mp member with old | new
  · refine .inl ((onTime deadline old).trans (wall_le origin ?_))
    exact Nat.le_trans begins (Nat.le_add_right _ late)
  · rcases List.mem_map.mp new with ⟨request, made, same⟩
    rw [← same]
    exact (covers requiredFuel runs spent running request made).reached
      (calls_tracked steps rests.givenStore running) (Nat.le_add_right _ late)

theorem wait_settled {origin : Int} {state : TimedRun} {isRunning ready : Bool}
    (settled : Settled origin state) (kept : state.resumes ready = false)
    (fires : (ready && !state.mayFire) = false) :
    Settled origin (state.wait isRunning ready) := by
  unfold TimedRun.wait
  unfold TimedRun.resumes PluginInstance.givesControl at kept
  cases settled with
  | ended finished =>
      rw [PluginInstance.poll_ended finished]
      exact .ended finished
  | asleep resumeTime waits covered =>
      rw [PluginInstance.poll, waits]
      dsimp only
      cases ready with
      | false => exact .asleep resumeTime waits covered
      | true =>
          unfold TimedRun.mayFire at fires
          rw [waits] at fires
          simp only [Bool.true_and, Bool.not_eq_false', decide_eq_true_eq] at fires
          refine .rested (PluginInstance.awaitStdin_rested rfl) fun deadline member => ?_
          have reached := covered deadline member
          rw [Nat.max_eq_left fires] at reached
          exact reached
  | rested rests onTime =>
      rw [PluginInstance.poll]
      rcases rests.2 with place | place | place
      · rw [place] at kept
        cases kept
      · rw [place]
        dsimp only
        cases ready with
        | false => exact .rested rests onTime
        | true => exact .rested ⟨rests.1, .inr (.inr rfl)⟩ onTime
      · rw [place] at kept ⊢
        dsimp only at kept ⊢
        rw [kept]
        exact .rested rests onTime

theorem Settled.later {origin : Int} {state : TimedRun} (settled : Settled origin state)
    (duration : Nat) : Settled origin { state with time := state.time + duration } := by
  have later : state.time ≤ state.time + duration := Nat.le_add_right _ _
  cases settled with
  | ended finished => exact .ended finished
  | asleep resumeTime waits covered =>
      refine .asleep resumeTime waits fun deadline member => ?_
      exact (covered deadline member).trans (wall_le origin (max_le_max_right _ later))
  | rested rests onTime =>
      exact .rested rests fun deadline member =>
        (onTime deadline member).trans (wall_le origin later)

theorem Settled.pipes {origin : Int} {state : TimedRun} (settled : Settled origin state)
    (stdin stdout stderr : Pipe.Inner) :
    Settled origin { state with guest := { state.guest with store :=
      { state.guest.store with stdin := stdin, stdout := stdout, stderr := stderr } } } := by
  cases settled with
  | ended finished => exact .ended finished
  | asleep resumeTime waits covered => exact .asleep resumeTime waits covered
  | rested rests onTime => exact .rested rests onTime

private theorem step_settled {backend : Backend} {origin : Int} {before after : TimedRun}
    {action : TimedAction} (settled : Settled origin before)
    (stepped : before.step backend origin action = some after)
    (covers : Covers backend origin ⟨before, action, after⟩) : Settled origin after := by
  cases action with
  | elapse duration =>
      cases stepped
      exact settled.later duration
  | poll isRunning ready steps late result =>
      simp only [TimedRun.step] at stepped
      split at stepped
      · next control =>
          cases stepped
          rcases settled.given control with ⟨rests, onTime⟩
          refine resume_settled rests onTime control fun requiredFuel runs spent => ?_
          exact covers ready steps late requiredFuel (by rw [runs, spent]) control
      · next kept =>
          split at stepped
          · cases stepped
          · next fires =>
              cases stepped
              exact wait_settled settled (Bool.eq_false_iff.mpr kept) (Bool.eq_false_iff.mpr fires)
  | pipes stdin stdout stderr =>
      cases stepped
      exact settled.pipes stdin stdout stderr

/-- A run whose slices promise only what their last request for a sleep covers
never resumes the guest early. -/
theorem covered_guest_not_early (backend : Backend) (origin : Int) (store : Caller)
    (maxFuel : Option Nat) {history : List (Transition TimedRun TimedAction)} {final : TimedRun}
    (run : Run (TimedRun.step backend origin) (.spawned store maxFuel) history final)
    (covers : forall taken, taken ∈ history -> Covers backend origin taken) :
    NotEarly origin history := by
  have fresh : Settled origin (.spawned store maxFuel) :=
    .rested ⟨rfl, .inl rfl⟩ fun _ member => absurd member List.not_mem_nil
  have settled := (run.invariantWithin (Settled origin) (Covers backend origin) fresh covers
    fun state action next settled stepped meets => step_settled settled stepped meets).2
  intro taken member isRunning ready steps late result polled control
  exact ((settled taken member).1.given control).2

/-! ## Guests that are woken early, and one that is not -/

/-- A call of `poll_oneoff` with one relative timer, whose record is at the beginning
of the memory. -/
def sleepCall (timeout : Nat) : GuestStep where
  elapsed := 0
  memory := (onePage fun _ => 0).overwrite 24 (leBytes 8 timeout)
  fuel := 0
  call := .pollOneoff 0 64 1 96
  lag := 0
  random := none

/-- The guest sleeps in its first slice, and time passes until its timer fires. -/
def sleepingActions (steps : List GuestStep) (duration : Nat) : List TimedAction :=
  [.poll true true [] 0 (.ok (.outOfFuel 0)), .poll true true steps 0 (.ok (.outOfFuel 0)),
    .elapse duration, .poll true true [] 0 (.ok .finished)]

def wakesEarly (backend : Backend) (actions : List TimedAction) : Bool :=
  match Run.play (TimedRun.step backend 0) (.spawned pluginStore none) actions with
  | some (_, reached) => reached.resumes true &&
      reached.promised.any fun deadline => wall 0 reached.time < (deadline : Int)
  | none => false

private theorem not_neverEarly {backend : Backend} (actions : List TimedAction)
    (early : wakesEarly backend actions = true) : ¬ NeverEarly backend := by
  intro law
  unfold wakesEarly at early
  split at early
  · next history reached played =>
      rcases Bool.and_eq_true_iff.mp early with ⟨control, ahead⟩
      rcases List.any_eq_true.mp ahead with ⟨deadline, member, later⟩
      have run := (Run.of_play actions history reached played).extend (show
        reached.step backend 0 (.poll true true [] 0 (.ok .finished)) = _ from if_pos control)
      have passed := law 0 pluginStore none _ _ run _ (List.mem_append_right _ List.mem_cons_self)
        true true [] 0 (.ok .finished) rfl control deadline member
      exact absurd passed (not_le_of_gt (of_decide_eq_true later))
  · cases early

end Target

/-- On the native back end the second of two timers replaces the first, which was
later, and on the other one the delay of a timer of half a millisecond is cut to
nothing. -/
theorem guests_woken_early :
    ¬ NeverEarly .native ∧ ¬ @NeverEarly HostTarget.wasm32 .wasm32 :=
  ⟨not_neverEarly (sleepingActions [sleepCall 1000000000, sleepCall 1000] 1000) (by decide),
    @not_neverEarly HostTarget.wasm32 .wasm32
      (@sleepingActions HostTarget.wasm32 [@sleepCall HostTarget.wasm32 500000] 0) (by decide)⟩

/-- A slice on the native back end that asks for one sleep at most, with an addition
that does not saturate. -/
def calm (taken : Transition TimedRun TimedAction) : Bool :=
  match taken.action with
  | .poll _ _ steps _ _ => (taken.before.slice 0 steps).requests.all fun request =>
      lastSleep (taken.before.slice 0 steps).requests = some request && !request.saturates
  | _ => true

private theorem calm_covers {taken : Transition TimedRun TimedAction} (quiet : calm taken = true) :
    Covers .native 0 taken := by
  intro ready steps late requiredFuel polled _ _ request member
  rw [calm, polled] at quiet
  rcases Bool.and_eq_true_iff.mp (List.all_eq_true.mp quiet request member) with ⟨last, whole⟩
  exact .inr ⟨request, of_decide_eq_true last, Nat.le_refl _, by simpa using whole, trivial⟩

/-- The guest sleeps for a second, with one timer on the native back end. -/
def patientActions : List TimedAction :=
  sleepingActions [sleepCall 1000000000] 1000000000 ++ [.poll true true [] 0 (.ok .finished)]

theorem patientActions_enabled : (Run.play (TimedRun.step .native 0) (.spawned pluginStore none)
    patientActions).isSome := by
  decide

theorem patient_guest_not_early : NotEarly 0
    ((Run.play (TimedRun.step .native 0) (.spawned pluginStore none) patientActions).get
      patientActions_enabled).1 := by
  refine covered_guest_not_early .native 0 pluginStore none
    (Run.of_enabled patientActions patientActions_enabled) fun taken member => ?_
  have quiet : ((Run.play (TimedRun.step .native 0) (.spawned pluginStore none)
      patientActions).get patientActions_enabled).1.all calm = true := by
    decide
  exact calm_covers (List.all_eq_true.mp quiet taken member)

end Host
end WasmiPlugin
