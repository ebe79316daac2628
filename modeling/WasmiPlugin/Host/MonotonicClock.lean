import WasmiPlugin.Host.Sleeping

namespace WasmiPlugin
namespace Host

open Foundation Wasi

/-!
# The monotonic clock of a guest

A guest reads its monotonic clock with `clock_time_get`, and `poll_oneoff` has
timers of that clock.  Both look at the wall clock, while `run_wasm` waits by
`Instant`.  The wall clock can be set at any time, so every call of a guest has
its own lead of the wall clock over the instants of the run.

What a guest is told about time is a log.  In it the readings never decrease, and
after the guest is resumed they have reached the deadline of a timer that was
reported, if the wall clock is never set back and the sleep is covered.
-/

/-! ## What a guest is told about time -/

/-- The timer that a successful `poll_oneoff` reports, and the clocks when it was
called. -/
structure Report where
  clockId : Nat
  deadline : Nat
  now : Nat
  lag : Nat
  lead : Int
  deriving DecidableEq

def Report.sleeps (report : Report) : Bool :=
  report.now < report.deadline

/-- What a log records: a reading of the monotonic clock, a report of a timer, or that
the guest is given control. -/
inductive ClockEvent where
  | read (value : Nat)
  | reported (report : Report)
  | resumed
  deriving DecidableEq

/-- Readings of the monotonic clock never decrease, and one after a resume has
reached the deadline of a timer on that clock that was reported before. -/
structure Consistent (log : List ClockEvent) : Prop where
  neverDecrease : forall early late, [.read early, .read late].Sublist log -> early ≤ late
  reached : forall report value, [.reported report, .resumed, .read value].Sublist log ->
    report.clockId = 1 -> report.deadline ≤ value

/-! ## The log -/

private theorem sublist_concat {α : Type} (front : List α) {log : List α} {last event : α}
    (within : (front ++ [last]).Sublist (log ++ [event])) :
    (front ++ [last]).Sublist log ∨ front.Sublist log ∧ last = event := by
  rcases List.sublist_append_iff.mp within with ⟨earlier, later, same, inLog, isEvent⟩
  cases later with
  | nil =>
      rw [List.append_nil] at same
      exact .inl (same ▸ inLog)
  | cons other rest =>
      rcases List.sublist_singleton.mp isEvent with none | one
      · cases none
      · rw [one] at same
        rcases List.append_inj' same rfl with ⟨rfl, ends⟩
        exact .inr ⟨inLog, List.singleton_inj.mp ends⟩

/-- The log is consistent, no reading in it is ahead of the wall clock, and the wall
clock has reached the deadlines of all timers after which the guest was resumed. -/
structure Sound (log : List ClockEvent) (lead : Int) (time : Nat) : Prop where
  consistent : Consistent log
  shown : forall value, ClockEvent.read value ∈ log -> (value : Int) ≤ wall lead time
  passed : forall report, [.reported report, .resumed].Sublist log -> report.clockId = 1 ->
    (report.deadline : Int) ≤ wall lead time

theorem Sound.nil (lead : Int) (time : Nat) : Sound [] lead time where
  consistent := ⟨fun _ _ within => (by cases within), fun _ _ within => (by cases within)⟩
  shown _ member := absurd member List.not_mem_nil
  passed _ within := (by cases within)

/-- A sound log stays sound while time passes, if the wall clock is not set back
meanwhile. -/
theorem Sound.later {log : List ClockEvent} {lead lead' : Int} {time time' : Nat}
    (sound : Sound log lead time) (ahead : lead ≤ lead') (before : time ≤ time') :
    Sound log lead' time' := by
  have shows : wall lead time ≤ wall lead' time' := by
    unfold wall
    omega
  exact ⟨sound.consistent, fun value member => (sound.shown value member).trans shows,
    fun report within monotonic => (sound.passed report within monotonic).trans shows⟩

/-- A reading of the wall clock can be added to a sound log. -/
theorem Sound.read {log : List ClockEvent} {lead : Int} {time value : Nat}
    (sound : Sound log lead time) (shows : (value : Int) = wall lead time) :
    Sound (log ++ [.read value]) lead time where
  consistent := by
    refine ⟨fun early late within => ?_, fun report reading within monotonic => ?_⟩
    · rcases sublist_concat [ClockEvent.read early] within with old | ⟨old, new⟩
      · exact sound.consistent.neverDecrease early late old
      · cases new
        have below := sound.shown early (List.singleton_sublist.mp old)
        omega
    · rcases sublist_concat [ClockEvent.reported report, .resumed] within with old | ⟨old, new⟩
      · exact sound.consistent.reached report reading old monotonic
      · cases new
        have below := sound.passed report old monotonic
        omega
  shown other member := by
    rcases List.mem_append.mp member with old | new
    · exact sound.shown other old
    · cases List.mem_singleton.mp new
      exact le_of_eq shows
  passed report within monotonic := by
    rcases sublist_concat [ClockEvent.reported report] within with old | ⟨_, new⟩
    · exact sound.passed report old monotonic
    · cases new

/-- Any other event can be added to a sound log, provided that the deadlines have
passed if the guest is resumed. -/
theorem Sound.extend {log : List ClockEvent} {lead : Int} {time : Nat} {event : ClockEvent}
    (sound : Sound log lead time) (other : forall value, event ≠ .read value)
    (passes : event = .resumed -> forall report, ClockEvent.reported report ∈ log ->
      report.clockId = 1 -> (report.deadline : Int) ≤ wall lead time) :
    Sound (log ++ [event]) lead time where
  consistent := by
    refine ⟨fun early late within => ?_, fun report reading within monotonic => ?_⟩
    · rcases sublist_concat [ClockEvent.read early] within with old | ⟨_, new⟩
      · exact sound.consistent.neverDecrease early late old
      · exact absurd new.symm (other late)
    · rcases sublist_concat [ClockEvent.reported report, .resumed] within with old | ⟨_, new⟩
      · exact sound.consistent.reached report reading old monotonic
      · exact absurd new.symm (other reading)
  shown value member := by
    rcases List.mem_append.mp member with old | new
    · exact sound.shown value old
    · exact absurd (List.mem_singleton.mp new).symm (other value)
  passed report within monotonic := by
    rcases sublist_concat [ClockEvent.reported report] within with old | ⟨old, new⟩
    · exact sound.passed report old monotonic
    · exact passes new.symm report (List.singleton_sublist.mp old) monotonic

/-! ## The deadlines that were reported -/

/-- The deadlines of the timers on the monotonic clock that the guest was told of. -/
def ClockRun.deadlines (log : List ClockEvent) : List Nat :=
  log.filterMap fun event => match event with
    | .reported report => if report.clockId = 1 then some report.deadline else none
    | _ => none

private theorem mem_deadlines {log : List ClockEvent} {report : Report}
    (member : ClockEvent.reported report ∈ log) (monotonic : report.clockId = 1) :
    report.deadline ∈ ClockRun.deadlines log :=
  List.mem_filterMap.mpr ⟨_, member, if_pos monotonic⟩

/-- The last report of a timer that asks for a sleep. -/
def lastAsleep (log : List ClockEvent) : Option Report :=
  (log.filterMap fun event => match event with
    | .reported report => if report.sleeps then some report else none
    | _ => none).getLast?

theorem lastAsleep_append (log : List ClockEvent) (event : Option ClockEvent) :
    lastAsleep (log ++ event.toList) =
      match event with
      | some (.reported report) => if report.sleeps then some report else lastAsleep log
      | _ => lastAsleep log := by
  cases event with
  | none => rw [Option.toList_none, List.append_nil]
  | some event =>
      rw [lastAsleep, Option.toList_some, List.filterMap_append]
      cases event with
      | read value => exact congrArg List.getLast? (List.append_nil _)
      | resumed => exact congrArg List.getLast? (List.append_nil _)
      | reported report =>
          cases asks : report.sleeps with
          | true =>
              simp only [List.filterMap_cons, List.filterMap_nil, asks, if_true,
                List.getLast?_concat]
          | false =>
              simp only [List.filterMap_cons, List.filterMap_nil, asks, Bool.false_eq_true,
                if_false, List.append_nil, lastAsleep]

/-- The context holds the deadline of the last report that asks for a sleep, as an
instant. -/
def Held (lead : Int) (sleepUntil : Option Nat) : (asleep : Option Report) -> Prop
  | none => sleepUntil = none
  | some last => last.lead ≤ lead ∧ Exists fun resumeTime => sleepUntil = some resumeTime ∧
      wall last.lead resumeTime = last.deadline + last.lag

theorem Held.later {lead lead' : Int} {sleepUntil : Option Nat} {asleep : Option Report}
    (held : Held lead sleepUntil asleep) (ahead : lead ≤ lead') :
    Held lead' sleepUntil asleep := by
  cases asleep with
  | none => exact held
  | some last => exact ⟨held.1.trans ahead, held.2⟩

/-- A deadline has passed when `run_wasm` looks at the clock, or it is no later than
that of the last report that asks for a sleep, and the back end's timer lasts until
then. -/
def CoveredBy (backend : Backend) (lead : Int) (now : Nat) (log : List ClockEvent)
    (deadline : Nat) : Prop :=
  (deadline : Int) ≤ wall lead now ∨ Exists fun last => lastAsleep log = some last ∧
    deadline ≤ last.deadline ∧ backend.Lasts (last.deadline - wall last.lead now).toNat
      ((last.deadline - wall last.lead now).toNat + last.lag)

/-- When the sleep is over, or right away if there is none, a covered deadline has
been reached. -/
theorem CoveredBy.reached {backend : Backend} {lead : Int} {now deadline : Nat}
    {log : List ClockEvent} {sleepUntil : Option Nat}
    (covered : CoveredBy backend lead now log deadline)
    (held : Held lead sleepUntil (lastAsleep log)) :
    (deadline : Int) ≤ wall lead now ∨ Exists fun resumeTime => sleepUntil = some resumeTime ∧
      now < resumeTime ∧
      (deadline : Int) ≤ wall lead (now + backend.sleep (resumeTime - now)) := by
  rcases covered with passed | ⟨last, isLast, notLater, lasts⟩
  · exact .inl passed
  · rw [isLast] at held
    rcases held with ⟨behind, resumeTime, asked, exactly⟩
    by_cases ahead : (last.deadline : Int) ≤ wall last.lead now
    · refine .inl ?_
      unfold wall at ahead ⊢
      omega
    · have duration : resumeTime - now =
          (last.deadline - wall last.lead now).toNat + last.lag := by
        unfold wall at exactly ahead ⊢
        omega
      have reaches := lasts.le_sleep (Nat.le_add_right _ _)
      rw [← duration] at reaches
      refine .inr ⟨resumeTime, asked, ?_, ?_⟩
      · omega
      · unfold wall at ahead reaches ⊢
        omega

section Target

variable [HostTarget]

/-! ## A slice -/

/-- A host call, made while the wall clock is ahead of the instants by `lead`. -/
structure LeadStep extends GuestStep where
  lead : Int

def LeadStep.looksAtClock (step : LeadStep) : Bool :=
  match step.call with
  | .clockTimeGet clockId _ _ => clockId = 1
  | .pollOneoff _ _ _ _ => true
  | _ => false

/-- What a call that succeeds tells the guest about the time: a reading of the
monotonic clock, or a report of the earliest timer. -/
def LeadStep.told (step : LeadStep) (instant : Nat) (answered : Ending × Caller) :
    Option ClockEvent :=
  if answered.1 = .errno .success then
    match step.call with
    | .clockTimeGet clockId _ resultPtr =>
        if clockId = 1 then
          some (.read (leNat (answered.2.memory.contents ⟨asUsize resultPtr, 8⟩)))
        else none
    | .pollOneoff subsPtr _ nsubscriptions _ =>
        match clockSubscriptions step.memory (asUsize subsPtr) (turns nsubscriptions) 0 with
        | [] => none
        | first :: others =>
            let now := (wall step.lead instant).toNat % 2 ^ 64
            let chosen := Wasi.Host.earliest now first others
            some (.reported ⟨chosen.clockId, chosen.deadline now, now, step.lag, step.lead⟩)
    | _ => none
  else none

/-- The guest in a slice, with the lead of the wall clock when it was last looked
at.  It is running until a call does not return. -/
structure ClockSlice where
  store : Caller
  time : Nat
  lead : Int
  log : List ClockEvent
  running : Bool

namespace ClockSlice

def call (state : ClockSlice) (step : LeadStep) : ClockSlice :=
  let instant := state.time + step.elapsed
  let answered := step.call.perform (platformAt step.lead instant step.lag step.random)
    { state.store with memory := step.memory, fuel := step.fuel }
  { store := answered.2
    time := instant + step.lag
    lead := if step.looksAtClock then step.lead else state.lead
    log := state.log ++ (step.told instant answered).toList
    running := returns answered.1 }

def calls : (steps : List LeadStep) -> (state : ClockSlice) -> ClockSlice
  | [], state => state
  | step :: steps, state =>
      let after := state.call step
      if after.running then after.calls steps else after

/-- A call that looks at the wall clock finds it not set back since the last one,
and the time fits a `u64`. -/
def NotSetBack (state : ClockSlice) (step : LeadStep) : Prop :=
  step.looksAtClock = true ->
    state.lead ≤ step.lead ∧ wall step.lead (state.time + step.elapsed) < 2 ^ 64

instance (state : ClockSlice) (step : LeadStep) : Decidable (state.NotSetBack step) :=
  inferInstanceAs (Decidable (_ -> _))

def Steady : (steps : List LeadStep) -> (state : ClockSlice) -> Prop
  | [], _ => True
  | step :: steps, state => state.NotSetBack step ∧
      ((state.call step).running = true -> (state.call step).Steady steps)

instance decidableSteady : (steps : List LeadStep) -> (state : ClockSlice) ->
    Decidable (state.Steady steps)
  | [], _ => isTrue trivial
  | step :: steps, state =>
      have := decidableSteady steps (state.call step)
      inferInstanceAs (Decidable (state.NotSetBack step ∧ (_ -> _)))

end ClockSlice

/-! ## The run -/

/-- `run_wasm` with its clocks, the lead of the wall clock when the guest last looked
at it, and the log of what the guest was told. -/
structure ClockRun where
  timed : TimedRun
  lead : Int
  log : List ClockEvent

/-- Time passes, the future is polled, or the host does something to the other ends of
the guest's pipes. -/
inductive ClockAction where
  | elapse (duration : Nat)
  | poll (isRunning ready : Bool) (steps : List LeadStep) (late : Nat)
      (result : Except PUnit ResumableCall)
  | pipes (stdin stdout stderr : Pipe.Inner)

namespace ClockRun

def spawned (store : Caller) (maxFuel : Option Nat) (lead : Int) : ClockRun :=
  ⟨.spawned store maxFuel, lead, []⟩

def slice (state : ClockRun) (steps : List LeadStep) : ClockSlice :=
  ClockSlice.calls steps ⟨state.timed.guest.givenStore, state.timed.time, state.lead, [], true⟩

def resume (backend : Backend) (state : ClockRun) (isRunning ready : Bool)
    (steps : List LeadStep) (late : Nat) (result : Except PUnit ResumableCall) : ClockRun :=
  let done := state.slice steps
  let now := done.time + late
  let guest := state.timed.guest.poll isRunning
    ⟨ready, now, fun _ => (done.store, if done.running then result else .ok .hostTrap)⟩
  { timed := {
      guest := guest
      time := now
      armed := match guest.waiting with
        | .sleeping resumeTime => now + backend.sleep (resumeTime - now)
        | _ => state.timed.armed
      promised := state.timed.promised ++ deadlines done.log }
    lead := done.lead
    log := state.log ++ .resumed :: done.log }

def step (backend : Backend) (state : ClockRun) : ClockAction -> Option ClockRun
  | .elapse duration =>
      some { state with timed := { state.timed with time := state.timed.time + duration } }
  | .poll isRunning ready steps late result =>
      if state.timed.resumes ready then
        some (state.resume backend isRunning ready steps late result)
      else if ready && !state.timed.mayFire then none
      else some { state with timed := state.timed.wait isRunning ready }
  | .pipes stdin stdout stderr =>
      some { state with timed := { state.timed with guest := { state.timed.guest with
        store := { state.timed.guest.store with
          stdin := stdin, stdout := stdout, stderr := stderr } } } }

end ClockRun

/-- In every run on this back end the guest's readings of the monotonic clock are
consistent with each other and with the deadlines of its timers. -/
def AlwaysConsistent (backend : Backend) : Prop :=
  forall store maxFuel lead history final,
    Run (ClockRun.step backend) (.spawned store maxFuel lead) history final ->
      Consistent final.log

/-! ## The condition -/

/-- In a poll no call finds the wall clock set back, and if the guest will be resumed,
the timers on its monotonic clock are covered. -/
structure ClockKept (backend : Backend) (taken : Transition ClockRun ClockAction) : Prop where
  steady : forall isRunning ready steps late result,
    taken.action = .poll isRunning ready steps late result ->
    taken.before.timed.resumes ready = true -> ClockSlice.Steady steps
      ⟨taken.before.timed.guest.givenStore, taken.before.timed.time, taken.before.lead, [], true⟩
  covers : forall ready steps late requiredFuel,
    taken.action = .poll true ready steps late (.ok (.outOfFuel requiredFuel)) ->
    taken.before.timed.resumes ready = true -> (taken.before.slice steps).running = true ->
    forall deadline, deadline ∈ ClockRun.deadlines (taken.before.slice steps).log ->
      CoveredBy backend (taken.before.slice steps).lead ((taken.before.slice steps).time + late)
        (taken.before.slice steps).log deadline

/-! ## What a call tells -/

/-- A successful reading of a clock stores what the wall clock shows, in the 64 bits
of the result. -/
theorem clockTimeGet_reads (platform : Platform) (clockId : Int32) (precision : Int64)
    (resultPtr : Int32) (caller : Caller) {after : Caller}
    (answered : (HostCall.clockTimeGet clockId precision resultPtr).perform platform caller =
      (.errno .success, after)) :
    Exists fun nanos => platform.sinceEpoch = some nanos ∧
      leNat (after.memory.contents ⟨asUsize resultPtr, 8⟩) = nanos % 2 ^ 64 := by
  have comesTo := ((HostCall.clockTimeGet clockId precision resultPtr).perform_wp platform caller
    (fun reached left => reached = .errno .success ∧ left = after)).mp
      (by rw [answered]; exact ⟨rfl, rfl⟩)
  simp only [HostCall.body, Wasi.Host.clockTimeGet, Program.wp_ite, Program.wp_pure] at comesTo
  split at comesTo
  · unfold Wasi.Host.nowNanos at comesTo
    cases current : platform.sinceEpoch with
    | none =>
        rw [current] at comesTo
        simp only [Program.wp_bind, Program.wp_stop] at comesTo
        cases comesTo.1
    | some nanos =>
        rw [current] at comesTo
        simp only [Program.wp_bind, Program.wp_pure, Wasi.Host.wp_writeMemory] at comesTo
        split at comesTo
        · refine ⟨nanos, rfl, ?_⟩
          rw [← comesTo.2]
          dsimp only
          rw [LinearMemory.contents_overwrite_leBytes]
          exact leNat_leBytes (Nat.mod_lt _ (by decide))
        · cases comesTo.1
  · cases comesTo.1

private inductive Tells (step : LeadStep) (instant : Nat) (asked : Option Nat) :
    Option ClockEvent -> Option Nat -> Prop
  | nothing : Tells step instant asked none asked
  | read {nanos : Nat} : step.looksAtClock = true -> wall step.lead instant = nanos ->
      Tells step instant asked (some (.read (nanos % 2 ^ 64))) asked
  | reported {nanos : Nat} {report : Report} : step.looksAtClock = true ->
      wall step.lead instant = nanos -> report.now = nanos % 2 ^ 64 ->
      report.lag = step.lag -> report.lead = step.lead ->
      Tells step instant asked (some (.reported report))
        (if report.sleeps then some (instant + step.lag + (report.deadline - report.now))
        else asked)

private theorem perform_tells (step : LeadStep) (instant : Nat) (caller : Caller)
    (memory : caller.memory = step.memory) {ending : Ending} {after : Caller}
    (answered : step.call.perform (platformAt step.lead instant step.lag step.random) caller =
      (ending, after)) (returned : returns ending = true) :
    Tells step instant caller.ctx.sleepUntil (step.told instant (ending, after))
      after.ctx.sleepUntil := by
  by_cases polls : Exists fun subsPtr => Exists fun eventsPtr => Exists fun nsubscriptions =>
      Exists fun resultPtr => step.call = .pollOneoff subsPtr eventsPtr nsubscriptions resultPtr
  · rcases polls with ⟨subsPtr, eventsPtr, nsubscriptions, resultPtr, call⟩
    have looks : step.looksAtClock = true := by
      rw [LeadStep.looksAtClock, call]
    rw [call] at answered
    rcases pollOneoff_asks _ subsPtr eventsPtr nsubscriptions resultPtr _ answered
        (fun panics => by rw [panics] at returned; cases returned) with
      ⟨refused, kept⟩ | ⟨first, others, nanos, found, current, succeeded, asked⟩
    · rw [LeadStep.told, refused, if_neg (fun same => by cases same), kept]
      exact .nothing
    · have shown := wall_of_platform current
      rw [memory] at found
      rw [LeadStep.told, if_pos succeeded, call, asked]
      dsimp only
      rw [found]
      dsimp only
      rw [shown, Int.toNat_natCast]
      have tells : Tells step instant caller.ctx.sleepUntil (some (.reported
          ⟨(Wasi.Host.earliest (nanos % 2 ^ 64) first others).clockId,
            (Wasi.Host.earliest (nanos % 2 ^ 64) first others).deadline (nanos % 2 ^ 64),
            nanos % 2 ^ 64, step.lag, step.lead⟩)) _ := .reported looks shown rfl rfl rfl
      simp only [Report.sleeps, decide_eq_true_eq] at tells
      exact tells
  · have kept := perform_sleepUntil (platformAt step.lead instant step.lag step.random) step.call
      caller fun subsPtr eventsPtr nsubscriptions resultPtr call =>
        polls ⟨subsPtr, eventsPtr, nsubscriptions, resultPtr, call⟩
    rw [answered] at kept
    dsimp only at kept
    rw [kept, LeadStep.told]
    split
    · next succeeded =>
        dsimp only at succeeded
        subst succeeded
        split
        · next clockId precision resultPtr call =>
            rw [call] at answered
            rcases clockTimeGet_reads _ clockId precision resultPtr _ answered with
              ⟨nanos, current, shown⟩
            split
            · next monotonic =>
                rw [shown]
                refine .read ?_ (wall_of_platform current)
                rw [LeadStep.looksAtClock, call]
                exact decide_eq_true monotonic
            · exact .nothing
        · next call => exact absurd ⟨_, _, _, _, call⟩ polls
        · exact .nothing
    · exact .nothing

/-! ## What a slice does -/

theorem ClockSlice.call_time (state : ClockSlice) (step : LeadStep) :
    state.time ≤ (state.call step).time :=
  Nat.le_trans (Nat.le_add_right state.time step.elapsed) (Nat.le_add_right _ step.lag)

theorem ClockSlice.call_lead {state : ClockSlice} {step : LeadStep}
    (steady : state.NotSetBack step) : state.lead ≤ (state.call step).lead := by
  show _ ≤ if step.looksAtClock then step.lead else state.lead
  split
  · next looks => exact (steady looks).1
  · exact le_refl _

/-- A call that does not find the wall clock set back keeps the log sound, and if it
returns, the context still holds the last deadline asked for. -/
private theorem call_sound {before : List ClockEvent} {state : ClockSlice} {step : LeadStep}
    (steady : state.NotSetBack step)
    (sound : Sound (before ++ state.log) state.lead state.time)
    (held : Held state.lead state.store.ctx.sleepUntil (lastAsleep state.log)) :
    Sound (before ++ (state.call step).log) (state.call step).lead (state.call step).time ∧
      ((state.call step).running = true -> Held (state.call step).lead
        (state.call step).store.ctx.sleepUntil (lastAsleep (state.call step).log)) := by
  have ahead := ClockSlice.call_lead steady
  have later := ClockSlice.call_time state step
  unfold ClockSlice.NotSetBack at steady
  unfold ClockSlice.call at ahead later ⊢
  dsimp only at ahead later ⊢
  rcases answered : step.call.perform
    (platformAt step.lead (state.time + step.elapsed) step.lag step.random)
    { state.store with memory := step.memory, fuel := step.fuel } with ⟨ending, after⟩
  dsimp only
  cases returned : returns ending with
  | false =>
      have told : step.told (state.time + step.elapsed) (ending, after) = none := by
        refine if_neg fun succeeded => ?_
        rw [show ending = _ from succeeded] at returned
        cases returned
      rw [told, Option.toList_none, List.append_nil]
      exact ⟨sound.later ahead later, fun running => absurd running Bool.false_ne_true⟩
  | true =>
      have tells := perform_tells step (state.time + step.elapsed) _ rfl answered returned
      dsimp only at tells
      rw [lastAsleep_append]
      generalize step.told (state.time + step.elapsed) (ending, after) = told at tells ⊢
      generalize after.ctx.sleepUntil = asked at tells ⊢
      cases tells with
      | nothing =>
          rw [Option.toList_none, List.append_nil]
          exact ⟨sound.later ahead later, fun _ => held.later ahead⟩
      | @read nanos looks shown =>
          have whole : nanos % 2 ^ 64 = nanos := Nat.mod_eq_of_lt (by have := steady looks; omega)
          refine ⟨?_, fun _ => held.later ahead⟩
          rw [if_pos looks] at ahead ⊢
          rw [Option.toList_some, ← List.append_assoc, whole]
          have now := (sound.later ahead (Nat.le_add_right _ step.elapsed)).read shown.symm
          exact now.later (le_refl _) (Nat.le_add_right _ step.lag)
      | @reported nanos report looks shown now lag lead =>
          have whole : nanos % 2 ^ 64 = nanos := Nat.mod_eq_of_lt (by have := steady looks; omega)
          refine ⟨?_, fun _ => ?_⟩
          · rw [Option.toList_some, ← List.append_assoc]
            exact (sound.later ahead later).extend (fun _ => ClockEvent.noConfusion)
              ClockEvent.noConfusion
          · dsimp only
            cases asks : report.sleeps with
            | false => exact held.later ahead
            | true =>
                have below : report.now < report.deadline := of_decide_eq_true asks
                rw [if_pos looks]
                refine ⟨le_of_eq lead, _, if_pos rfl, ?_⟩
                rw [lead, lag]
                unfold wall at shown ⊢
                omega

private theorem calls_sound (before : List ClockEvent) (steps : List LeadStep)
    {state : ClockSlice} (steady : state.Steady steps)
    (sound : Sound (before ++ state.log) state.lead state.time)
    (held : Held state.lead state.store.ctx.sleepUntil (lastAsleep state.log)) :
    Sound (before ++ (state.calls steps).log) (state.calls steps).lead (state.calls steps).time ∧
      state.lead ≤ (state.calls steps).lead ∧ state.time ≤ (state.calls steps).time ∧
      ((state.calls steps).running = true -> Held (state.calls steps).lead
        (state.calls steps).store.ctx.sleepUntil (lastAsleep (state.calls steps).log)) := by
  induction steps generalizing state with
  | nil => exact ⟨sound, le_refl _, Nat.le_refl _, fun _ => held⟩
  | cons step steps inductionHypothesis =>
      have ahead := ClockSlice.call_lead steady.1
      have later := ClockSlice.call_time state step
      rcases call_sound steady.1 sound held with ⟨soundAfter, heldAfter⟩
      unfold ClockSlice.calls
      dsimp only
      split
      · next running =>
          rcases inductionHypothesis (steady.2 running) soundAfter (heldAfter running) with
            ⟨soundLast, aheadLast, laterLast, heldLast⟩
          exact ⟨soundLast, ahead.trans aheadLast, Nat.le_trans later laterLast, heldLast⟩
      · next stopped =>
          exact ⟨soundAfter, ahead, later, fun running => absurd running stopped⟩

/-! ## The invariant -/

private structure ClockSettled (state : ClockRun) : Prop where
  settled : Settled state.lead state.timed
  sound : Sound state.log state.lead state.timed.time
  known : forall report, ClockEvent.reported report ∈ state.log -> report.clockId = 1 ->
    report.deadline ∈ state.timed.promised

private theorem resume_clockSettled {backend : Backend} {state : ClockRun}
    {isRunning ready : Bool} {steps : List LeadStep} {late : Nat}
    {result : Except PUnit ResumableCall} (before : ClockSettled state)
    (control : state.timed.resumes ready = true)
    (steady : ClockSlice.Steady steps
      ⟨state.timed.guest.givenStore, state.timed.time, state.lead, [], true⟩)
    (covers : forall requiredFuel, isRunning = true -> result = .ok (.outOfFuel requiredFuel) ->
      (state.slice steps).running = true ->
      forall deadline, deadline ∈ ClockRun.deadlines (state.slice steps).log ->
        CoveredBy backend (state.slice steps).lead ((state.slice steps).time + late)
          (state.slice steps).log deadline) :
    ClockSettled (state.resume backend isRunning ready steps late result) := by
  rcases before.settled.given control with ⟨rests, onTime⟩
  have resumed : Sound (state.log ++ [.resumed]) state.lead state.timed.time :=
    before.sound.extend (fun _ => ClockEvent.noConfusion) fun _ report member monotonic =>
      onTime report.deadline (before.known report member monotonic)
  rcases calls_sound (state.log ++ [.resumed]) steps steady
    (by rw [List.append_nil]; exact resumed) rests.givenStore with ⟨sound, ahead, later, held⟩
  change Sound (_ ++ (state.slice steps).log) _ _ at sound
  change state.lead ≤ (state.slice steps).lead at ahead
  change state.timed.time ≤ (state.slice steps).time at later
  have shows : wall state.lead state.timed.time ≤
      wall (state.slice steps).lead ((state.slice steps).time + late) := by
    unfold wall
    omega
  refine ⟨?_, ?_, ?_⟩
  · refine poll_settled (show state.timed.guest.givesControl _ = true from control)
      fun requiredFuel runs spent running deadline member => ?_
    rcases List.mem_append.mp member with old | new
    · exact .inl ((onTime deadline old).trans shows)
    · exact (covers requiredFuel runs spent running deadline new).reached (held running)
  · rw [List.append_assoc, List.singleton_append] at sound
    exact sound.later (le_refl _) (Nat.le_add_right _ late)
  · intro report member monotonic
    rcases List.mem_append.mp member with old | new
    · exact List.mem_append_left _ (before.known report old monotonic)
    · rcases List.mem_cons.mp new with same | told
      · cases same
      · exact List.mem_append_right _ (mem_deadlines told monotonic)

private theorem step_clockSettled {backend : Backend} {before after : ClockRun}
    {action : ClockAction} (settled : ClockSettled before)
    (stepped : before.step backend action = some after)
    (kept : ClockKept backend ⟨before, action, after⟩) : ClockSettled after := by
  cases action with
  | elapse duration =>
      cases stepped
      exact ⟨settled.settled.later duration,
        settled.sound.later (le_refl _) (Nat.le_add_right _ duration), settled.known⟩
  | poll isRunning ready steps late result =>
      simp only [ClockRun.step] at stepped
      split at stepped
      · next control =>
          cases stepped
          refine resume_clockSettled settled control
            (kept.steady isRunning ready steps late result rfl control)
            fun requiredFuel runs spent => ?_
          exact kept.covers ready steps late requiredFuel (by rw [runs, spent]) control
      · next waits =>
          split at stepped
          · cases stepped
          · next fires =>
              cases stepped
              exact ⟨wait_settled settled.settled (Bool.eq_false_iff.mpr waits)
                (Bool.eq_false_iff.mpr fires), settled.sound, settled.known⟩
  | pipes stdin stdout stderr =>
      cases stepped
      exact ⟨settled.settled.pipes stdin stdout stderr, settled.sound, settled.known⟩

/-- In every run in which no call finds the wall clock set back and the timers of
the monotonic clock are covered, the guest's time is consistent. -/
theorem steady_clock_consistent (backend : Backend) (store : Caller) (maxFuel : Option Nat)
    (lead : Int) {history : List (Transition ClockRun ClockAction)} {final : ClockRun}
    (run : Run (ClockRun.step backend) (.spawned store maxFuel lead) history final)
    (kept : forall taken, taken ∈ history -> ClockKept backend taken) : Consistent final.log := by
  have fresh : ClockSettled (.spawned store maxFuel lead) :=
    ⟨.rested ⟨rfl, .inl rfl⟩ fun _ member => absurd member List.not_mem_nil, .nil lead 0,
      fun _ member => absurd member List.not_mem_nil⟩
  have settled := (run.invariantWithin ClockSettled (ClockKept backend) fresh kept
    fun state action next settled stepped meets => step_clockSettled settled stepped meets).1
  exact settled.sound.consistent

/-! ## A clock that is set back, and one that is not -/

def readCall (lead : Int) : LeadStep where
  elapsed := 0
  memory := onePage fun _ => 0
  fuel := 0
  call := .clockTimeGet 1 0 0
  lag := 0
  random := none
  lead := lead

/-- The guest reads the clock, the wall clock is set back by a second, and the guest
reads the clock again. -/
def setBackActions : List ClockAction :=
  [.poll true true [readCall 1000000000, readCall 0] 0 (.ok .finished)]

def logAfter (backend : Backend) (actions : List ClockAction) : Option (List ClockEvent) :=
  (Run.play (ClockRun.step backend) (.spawned pluginStore none 0) actions).map fun reached =>
    reached.2.log

private theorem not_alwaysConsistent {backend : Backend}
    (told : logAfter backend setBackActions =
      some [.resumed, .read 1000000000, .read 0]) : ¬ AlwaysConsistent backend := by
  intro law
  rcases Option.map_eq_some_iff.mp told with ⟨⟨history, reached⟩, played, log⟩
  have consistent := law pluginStore none 0 history reached
    (Run.of_play setBackActions history reached played)
  rw [show reached.log = _ from log] at consistent
  exact absurd (consistent.neverDecrease 1000000000 0 (List.sublist_cons_self ..)) (by decide)

end Target

/-- On each back end a guest reads less than before when the wall clock is set back
between its two readings. -/
theorem clock_set_back :
    ¬ AlwaysConsistent .native ∧ ¬ @AlwaysConsistent HostTarget.wasm32 .wasm32 :=
  ⟨not_alwaysConsistent (by decide),
    @not_alwaysConsistent HostTarget.wasm32 .wasm32 (by decide)⟩

def keepsClock (taken : Transition ClockRun ClockAction) : Bool :=
  match taken.action with
  | .poll _ _ steps _ _ =>
      ClockSlice.Steady steps ⟨taken.before.timed.guest.givenStore, taken.before.timed.time,
        taken.before.lead, [], true⟩ &&
      (ClockRun.deadlines (taken.before.slice steps).log).all fun deadline =>
        (lastAsleep (taken.before.slice steps).log).any fun last => deadline ≤ last.deadline
  | _ => true

private theorem keepsClock_kept {taken : Transition ClockRun ClockAction}
    (keeps : keepsClock taken = true) : ClockKept .native taken where
  steady isRunning ready steps late result polled _ := by
    rw [keepsClock, polled] at keeps
    exact of_decide_eq_true (Bool.and_eq_true_iff.mp keeps).1
  covers ready steps late requiredFuel polled _ _ deadline member := by
    rw [keepsClock, polled] at keeps
    have slept := List.all_eq_true.mp (Bool.and_eq_true_iff.mp keeps).2 deadline member
    rcases (Option.any_eq_true _ _).mp slept with ⟨last, asks, within⟩
    exact .inr ⟨last, asks, of_decide_eq_true within, trivial⟩

def monotonicSleep : LeadStep :=
  { sleepCall 1000000000 with
    memory := (sleepCall 1000000000).memory.overwrite 16 (leBytes 4 1)
    lead := 0 }

/-- The guest sleeps for a second on the monotonic clock and reads that clock when it
wakes. -/
def steadyActions : List ClockAction :=
  [.poll true true [monotonicSleep] 0 (.ok (.outOfFuel 0)), .elapse 1000000000,
    .poll true true [] 0 (.ok .finished), .poll true true [readCall 5] 0 (.ok .finished)]

theorem steadyActions_enabled : (Run.play (ClockRun.step .native)
    (.spawned pluginStore none 0) steadyActions).isSome := by
  decide

theorem steady_sleep_consistent : Consistent [.resumed,
    .reported ⟨1, 1000000000, 0, 0, 0⟩, .resumed, .read 1000000005] := by
  have keeps : ((Run.play (ClockRun.step .native) (.spawned pluginStore none 0)
      steadyActions).get steadyActions_enabled).1.all keepsClock = true := by
    decide
  have consistent := steady_clock_consistent .native pluginStore none 0
    (Run.of_enabled steadyActions steadyActions_enabled) fun taken member =>
      keepsClock_kept (List.all_eq_true.mp keeps taken member)
  exact consistent

end Host
end WasmiPlugin
