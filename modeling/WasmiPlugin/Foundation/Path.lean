import WasmiPlugin.Foundation.Run
import Mathlib.Order.WellFounded

namespace WasmiPlugin
namespace Foundation

universe u v

/-!
# Endless executions, fairness and what must happen

A run is finite and says what may have happened so far.  That something happens
at last is a property of an execution that does not end.  At each time such a
path takes one step of the system or none, so that a system in which nothing is
left to do has paths as well.  Up to any time a path is a run.

Nothing makes a party take its steps but fairness: actions that can always be
taken from some time on are taken then.  The rule for a system whose parties
wait for one another is `Path.LeadsTo.chain`.  It asks for a rank, and for each
state the party whose turn it is: that party can take a step, every such step
lowers the rank, and the steps of the others do not take the turn away.
-/

variable {State : Type u} {Action : Type v}

/-- An execution without an end, in which a step may be left out. -/
structure Path (step : State -> Action -> Option State) (initial : State) where
  state : Nat -> State
  action : Nat -> Option Action
  starts : state 0 = initial
  follows : forall time, match action time with
    | none => state (time + 1) = state time
    | some action => step (state time) action = some (state (time + 1))

def Enabled (step : State -> Action -> Option State) (kind : Action -> Prop) (state : State) :
    Prop :=
  Exists fun action => kind action ∧ (step state action).isSome

namespace Path

variable {step : State -> Action -> Option State} {initial : State}

/-- The transition taken at a time. -/
def taken (path : Path step initial) (time : Nat) (action : Action) : Transition State Action :=
  ⟨path.state time, action, path.state (time + 1)⟩

def Meets (path : Path step initial) (condition : Transition State Action -> Prop) : Prop :=
  forall time action, path.action time = some action -> condition (path.taken time action)

/-- Actions of a kind that can be taken at every time from some time on are taken. -/
def Fair (path : Path step initial) (kind : Action -> Prop) : Prop :=
  forall time, (forall later, time ≤ later -> Enabled step kind (path.state later)) ->
    Exists fun later => time ≤ later ∧ Exists fun action =>
      path.action later = some action ∧ kind action

/-- Whenever the first property holds, the second holds then or later. -/
def LeadsTo (path : Path step initial) (Before After : State -> Prop) : Prop :=
  forall time, Before (path.state time) -> Exists fun later => time ≤ later ∧
    After (path.state later)

theorem stepped (path : Path step initial) {time : Nat} {action : Action}
    (acts : path.action time = some action) :
    step (path.state time) action = some (path.state (time + 1)) := by
  have follows := path.follows time
  rw [acts] at follows
  exact follows

theorem stutters (path : Path step initial) {time : Nat} (rests : path.action time = none) :
    path.state (time + 1) = path.state time := by
  have follows := path.follows time
  rw [rests] at follows
  exact follows

theorem run (path : Path step initial) (time : Nat) :
    Exists fun history => Run step initial history (path.state time) ∧
      forall taken, taken ∈ history -> Exists fun earlier => Exists fun action =>
        path.action earlier = some action ∧ taken = path.taken earlier action := by
  induction time with
  | zero =>
      rw [path.starts]
      exact ⟨[], .start, fun taken member => absurd member List.not_mem_nil⟩
  | succ time inductionHypothesis =>
      rcases inductionHypothesis with ⟨history, run, listed⟩
      cases acts : path.action time with
      | none =>
          rw [path.stutters acts]
          exact ⟨history, run, listed⟩
      | some action =>
          refine ⟨_, run.extend (path.stepped acts), fun taken member => ?_⟩
          rcases List.mem_append.mp member with before | last
          · exact listed taken before
          · exact ⟨time, action, acts, List.mem_singleton.mp last⟩

/-- What holds initially, and is preserved by every transition that meets the
condition, holds at every time. -/
theorem invariantWithin (path : Path step initial) (Inv : State -> Prop)
    (condition : Transition State Action -> Prop) (start : Inv initial)
    (meets : path.Meets condition)
    (preserved : forall state action next, Inv state -> step state action = some next ->
      condition ⟨state, action, next⟩ -> Inv next) (time : Nat) : Inv (path.state time) := by
  rcases path.run time with ⟨history, run, listed⟩
  refine (run.invariantWithin Inv condition start (fun taken member => ?_) preserved).1
  rcases listed taken member with ⟨earlier, action, acts, same⟩
  rw [same]
  exact meets earlier action acts

/-- What every transition keeps is never lost. -/
theorem stable (path : Path step initial) (Kept : State -> Prop)
    (kept : forall time action, path.action time = some action -> Kept (path.state time) ->
      Kept (path.state (time + 1))) {time later : Nat} (late : time ≤ later)
    (holds : Kept (path.state time)) : Kept (path.state later) := by
  induction later, late using Nat.le_induction with
  | base => exact holds
  | succ later _ inductionHypothesis =>
      cases acts : path.action later with
      | none =>
          rw [path.stutters acts]
          exact inductionHypothesis
      | some action => exact kept later action acts inductionHypothesis

namespace LeadsTo

variable {path : Path step initial} {Before After : State -> Prop}

/-- The chain rule.  While the goal is not reached it is some party's turn.  That
party can take a step, and whatever step it takes lowers the rank.  Other steps
either lower the rank as well or leave the rank and the turn as they are. -/
theorem chain {Party Rank : Type*} {below : Rank -> Rank -> Prop} (wellFounded : WellFounded below)
    (rank : State -> Rank) (turn : State -> Party) (works : Party -> Action -> Prop)
    (fair : forall party, path.Fair (works party))
    (enabled : forall time, Before (path.state time) ->
      Enabled step (works (turn (path.state time))) (path.state time))
    (moves : forall time action, path.action time = some action -> Before (path.state time) ->
      After (path.state (time + 1)) ∨ Before (path.state (time + 1)) ∧
        (below (rank (path.state (time + 1))) (rank (path.state time)) ∨
          rank (path.state (time + 1)) = rank (path.state time) ∧
            turn (path.state (time + 1)) = turn (path.state time) ∧
            ¬ works (turn (path.state time)) action)) :
    path.LeadsTo Before After := by
  suffices every : forall level time, rank (path.state time) = level ->
      Before (path.state time) -> Exists fun later => time ≤ later ∧ After (path.state later) from
    fun time holds => every _ time rfl holds
  intro level
  induction level using wellFounded.induction with
  | _ level inductionHypothesis =>
      intro time ranked holds
      -- either the rank is lowered at some time, or the turn never passes on
      by_cases progress : Exists fun later => time ≤ later ∧ (After (path.state later) ∨
        Before (path.state later) ∧ below (rank (path.state later)) level)
      · rcases progress with ⟨later, late, reached | ⟨still, lower⟩⟩
        · exact ⟨later, late, reached⟩
        · rcases inductionHypothesis _ lower later rfl still with ⟨last, later', reached⟩
          exact ⟨last, Nat.le_trans late later', reached⟩
      · exfalso
        have stays : forall delay, Before (path.state (time + delay)) ∧
            rank (path.state (time + delay)) = level ∧
            turn (path.state (time + delay)) = turn (path.state time) := by
          intro delay
          induction delay with
          | zero => exact ⟨holds, ranked, rfl⟩
          | succ delay earlier =>
              rcases earlier with ⟨still, same, party⟩
              cases acts : path.action (time + delay) with
              | none =>
                  rw [← Nat.add_assoc, path.stutters acts]
                  exact ⟨still, same, party⟩
              | some action =>
                  rcases moves _ action acts still with reached | ⟨still, lower | kept⟩
                  · exact absurd ⟨_, Nat.le_add_right time (delay + 1), .inl reached⟩ progress
                  · rw [same] at lower
                    exact absurd ⟨_, Nat.le_add_right time (delay + 1), .inr ⟨still, lower⟩⟩
                      progress
                  · exact ⟨still, kept.1.trans same, kept.2.1.trans party⟩
        have acting := fair (turn (path.state time)) time fun later late => by
          rcases Nat.exists_eq_add_of_le late with ⟨delay, rfl⟩
          have ready := enabled _ (stays delay).1
          rw [(stays delay).2.2] at ready
          exact ready
        rcases acting with ⟨later, late, action, acts, working⟩
        rcases Nat.exists_eq_add_of_le late with ⟨delay, rfl⟩
        rcases stays delay with ⟨still, same, party⟩
        rcases moves _ action acts still with reached | ⟨after, lower | kept⟩
        · exact progress ⟨_, Nat.le_add_right time (delay + 1), .inl reached⟩
        · rw [same] at lower
          exact progress ⟨_, Nat.le_add_right time (delay + 1), .inr ⟨after, lower⟩⟩
        · rw [party] at kept
          exact kept.2.2 working

end LeadsTo

/-! ## Paths that come to rest -/

def states (step : State -> Action -> Option State) : State -> List Action -> Nat -> State
  | state, _, 0 => state
  | state, [], _ + 1 => state
  | state, action :: rest, time + 1 => states step ((step state action).getD state) rest time

private theorem states_rest (state : State) (time : Nat) :
    states step state ([] : List Action) time = state := by
  cases time <;> rfl

private theorem states_start (state : State) (actions : List Action) :
    states step state actions 0 = state := by
  cases actions <;> rfl

private theorem states_follow {state : State} {actions : List Action}
    (enabled : (Run.play step state actions).isSome) (time : Nat) :
    match actions[time]? with
    | none => states step state actions (time + 1) = states step state actions time
    | some action => step (states step state actions time) action =
        some (states step state actions (time + 1)) := by
  induction actions generalizing state time with
  | nil => exact (states_rest state _).trans (states_rest state _).symm
  | cons action rest inductionHypothesis =>
      cases moved : step state action with
      | none =>
          rw [Run.play, moved] at enabled
          cases enabled
      | some next =>
          cases time with
          | zero =>
              simp only [List.getElem?_cons_zero, states, moved, Option.getD_some]
          | succ time =>
              rw [Run.play, moved] at enabled
              simp only [Option.isSome_map] at enabled
              simp only [List.getElem?_cons_succ, states, moved, Option.getD_some]
              exact inductionHypothesis enabled time

private theorem states_last {state last : State} {actions : List Action}
    {history : List (Transition State Action)}
    (played : Run.play step state actions = some (history, last)) {time : Nat}
    (late : actions.length ≤ time) : states step state actions time = last := by
  induction actions generalizing state history time with
  | nil =>
      cases played
      exact states_rest _ time
  | cons action rest inductionHypothesis =>
      cases time with
      | zero => exact absurd late (Nat.not_succ_le_zero _)
      | succ time =>
          unfold Run.play at played
          cases moved : step state action with
          | none => simp only [moved, reduceCtorEq] at played
          | some next =>
              simp only [moved, Option.map_eq_some_iff, Prod.mk.injEq] at played
              rcases played with ⟨⟨later, reached⟩, remaining, _, atEnd⟩
              subst atEnd
              rw [states, moved, Option.getD_some]
              exact inductionHypothesis remaining (Nat.le_of_succ_le_succ late)

private theorem states_listed {state last : State} {actions : List Action}
    {history : List (Transition State Action)}
    (played : Run.play step state actions = some (history, last)) {time : Nat} {action : Action}
    (acts : actions[time]? = some action) :
    ⟨states step state actions time, action, states step state actions (time + 1)⟩ ∈ history := by
  induction actions generalizing state history time with
  | nil => cases acts
  | cons first rest inductionHypothesis =>
      unfold Run.play at played
      cases moved : step state first with
      | none => simp only [moved, reduceCtorEq] at played
      | some next =>
          simp only [moved, Option.map_eq_some_iff, Prod.mk.injEq] at played
          rcases played with ⟨⟨later, reached⟩, remaining, same, atEnd⟩
          subst same
          subst atEnd
          cases time with
          | zero =>
              cases acts
              simp only [states, moved, Option.getD_some, states_start, List.mem_cons, true_or]
          | succ time =>
              simp only [states, moved, Option.getD_some]
              exact List.mem_cons_of_mem _ (inductionHypothesis remaining acts)

/-- The path that takes some enabled actions, one after another, and then rests. -/
def ofActions (actions : List Action) (enabled : (Run.play step initial actions).isSome) :
    Path step initial where
  state := states step initial actions
  action := fun time => actions[time]?
  starts := states_start initial actions
  follows := states_follow enabled

theorem ofActions_rests {actions : List Action}
    (enabled : (Run.play step initial actions).isSome) {time : Nat}
    (late : actions.length ≤ time) :
    (ofActions actions enabled).state time = ((Run.play step initial actions).get enabled).2 :=
  have played : Run.play step initial actions =
      some (((Run.play step initial actions).get enabled).1,
        ((Run.play step initial actions).get enabled).2) := (Option.some_get enabled).symm
  states_last played late

/-- A path that comes to rest is fair to every kind of action that cannot be taken there. -/
theorem ofActions_fair {actions : List Action}
    (enabled : (Run.play step initial actions).isSome) {kind : Action -> Prop}
    (idle : forall action, kind action ->
      step ((Run.play step initial actions).get enabled).2 action = none) :
    (ofActions actions enabled).Fair kind := by
  intro time ready
  rcases ready _ (Nat.le_max_left time actions.length) with ⟨action, kindly, some⟩
  rw [ofActions_rests enabled (Nat.le_max_right time actions.length), idle action kindly] at some
  cases some

theorem ofActions_meets {actions : List Action}
    (enabled : (Run.play step initial actions).isSome)
    {condition : Transition State Action -> Prop}
    (holds : forall taken, taken ∈ ((Run.play step initial actions).get enabled).1 ->
      condition taken) :
    (ofActions actions enabled).Meets condition := by
  intro time action acts
  have played : Run.play step initial actions =
      some (((Run.play step initial actions).get enabled).1,
        ((Run.play step initial actions).get enabled).2) := (Option.some_get enabled).symm
  exact holds _ (states_listed played acts)

end Path

end Foundation
end WasmiPlugin
