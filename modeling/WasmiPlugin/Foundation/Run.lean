import Mathlib.Data.List.Basic

namespace WasmiPlugin
namespace Foundation

universe u v

/-!
# Finite runs of a partial transition function

A system is given by a partial function from a state and an action to the next
state.  The action carries everything the system does not decide by itself:
which party moves, what its environment answers, how long a write is.  A run
keeps its whole history, oldest transition first, so that a property of a run
may speak about what happened and not only about the state that was reached.

Nothing here depends on the system.  The rules a development uses are
`Run.invariant`, for a property of states, and `Run.invariantWithin`, for a
property that only has to be preserved by the transitions meeting a condition.
`Run.throughout` is the same for a property that also speaks about the history,
and `Run.remembered` is for what an event in the history leaves behind.
-/

variable {State : Type u} {Action : Type v}

/-- One transition, with the state it was taken in and the state it led to. -/
structure Transition (State : Type u) (Action : Type v) where
  before : State
  action : Action
  after : State

/-- What one more transition adds to a record of the history. -/
theorem filterMap_extend {Event : Type*} (event : Transition State Action -> Option Event)
    (history : List (Transition State Action)) (taken : Transition State Action) :
    (history ++ [taken]).filterMap event = history.filterMap event ++ (event taken).toList := by
  rw [List.filterMap_append]
  cases made : event taken with
  | none => rw [List.filterMap_cons_none made, List.filterMap_nil, Option.toList_none]
  | some item => rw [List.filterMap_cons_some made, List.filterMap_nil, Option.toList_some]

/-- The finite runs from `initial`, each with its complete history. -/
inductive Run (step : State -> Action -> Option State) (initial : State) :
    List (Transition State Action) -> State -> Prop
  | start : Run step initial [] initial
  | extend {history : List (Transition State Action)} {state next : State} {action : Action} :
      Run step initial history state -> step state action = some next ->
      Run step initial (history ++ [⟨state, action, next⟩]) next

namespace Run

variable {step : State -> Action -> Option State} {initial final : State}
  {history : List (Transition State Action)}

/-- A property that every transition of the run preserves holds at its end,
and at both ends of every transition before.  The condition is only asked of
the transitions that the run takes. -/
theorem invariantWithin (run : Run step initial history final) (Inv : State -> Prop)
    (Meets : Transition State Action -> Prop) (start : Inv initial)
    (meets : forall taken, taken ∈ history -> Meets taken)
    (preserved : forall state action next, Inv state -> step state action = some next ->
      Meets ⟨state, action, next⟩ -> Inv next) :
    Inv final ∧ forall taken, taken ∈ history ->
      Inv taken.before ∧ Inv taken.after ∧ step taken.before taken.action = some taken.after := by
  induction run with
  | start => exact ⟨start, fun taken member => absurd member List.not_mem_nil⟩
  | @extend history state next action _ stepped inductionHypothesis =>
      have earlier := inductionHypothesis fun taken member =>
        meets taken (List.mem_append_left _ member)
      have reached := preserved state action next earlier.1 stepped
        (meets _ (List.mem_append_right _ List.mem_cons_self))
      refine ⟨reached, fun taken member => ?_⟩
      rcases List.mem_append.mp member with before | last
      · exact earlier.2 taken before
      · rw [List.mem_singleton.mp last]
        exact ⟨earlier.1, reached, stepped⟩

/-- The unconditional rule: what every transition preserves holds throughout. -/
theorem invariant (run : Run step initial history final) (Inv : State -> Prop)
    (start : Inv initial)
    (preserved : forall state action next, Inv state -> step state action = some next -> Inv next) :
    Inv final ∧ forall taken, taken ∈ history ->
      Inv taken.before ∧ Inv taken.after ∧ step taken.before taken.action = some taken.after :=
  run.invariantWithin Inv (fun _ => True) start (fun _ _ => trivial)
    (fun state action next holds stepped _ => preserved state action next holds stepped)

theorem stepped (run : Run step initial history final) (taken : Transition State Action)
    (member : taken ∈ history) : step taken.before taken.action = some taken.after :=
  ((run.invariant (fun _ => True) trivial (fun _ _ _ _ _ => trivial)).2 taken member).2.2

/-- The state before a recorded transition was itself reached, by the part of
the history that ends there. -/
theorem reached_before (run : Run step initial history final) (taken : Transition State Action)
    (member : taken ∈ history) :
    Exists fun earlier => earlier ++ [taken] <+: history ∧
      Run step initial earlier taken.before := by
  induction run with
  | start => exact absurd member List.not_mem_nil
  | @extend history state next action before stepped inductionHypothesis =>
      rcases List.mem_append.mp member with listed | last
      · rcases inductionHypothesis listed with ⟨earlier, initialPart, reached⟩
        exact ⟨earlier, initialPart.trans (List.prefix_append _ _), reached⟩
      · rw [List.mem_singleton.mp last]
        exact ⟨history, List.prefix_refl _, before⟩

theorem split {earlier later : List (Transition State Action)} {taken : Transition State Action}
    (run : Run step initial history final) (shape : history = earlier ++ taken :: later) :
    Run step initial earlier taken.before ∧ step taken.before taken.action = some taken.after := by
  induction run generalizing later with
  | start => cases earlier <;> cases shape
  | @extend history state next action before stepped inductionHypothesis =>
      rcases List.eq_nil_or_concat later with none | ⟨between, last, some⟩
      · subst none
        rcases List.append_inj' shape rfl with ⟨same, single⟩
        cases single
        subst same
        exact ⟨before, stepped⟩
      · subst some
        rw [List.concat_eq_append, ← List.cons_append, ← List.append_assoc] at shape
        exact inductionHypothesis (List.append_inj' shape rfl).1

/-- What some transition of the run leaves behind is there at the end, if every
transition keeps it. -/
theorem remembered (run : Run step initial history final) (mark : State -> Prop)
    (leaves : Transition State Action -> Prop)
    (kept : forall state action next, step state action = some next ->
      mark state ∨ leaves ⟨state, action, next⟩ -> mark next)
    (left : Exists fun taken => taken ∈ history ∧ leaves taken) : mark final := by
  rcases left with ⟨taken, member, leaving⟩
  induction run with
  | start => exact absurd member List.not_mem_nil
  | @extend history state next action _ stepped inductionHypothesis =>
      apply kept state action next stepped
      rcases List.mem_append.mp member with before | last
      · exact .inl (inductionHypothesis before)
      · rw [List.mem_singleton.mp last] at leaving
        exact .inr leaving

/-- A property of a history and of the state it leads to holds at the start of
a run and after each of its transitions. -/
def Throughout (Holds : List (Transition State Action) -> State -> Prop) (initial : State)
    (history : List (Transition State Action)) : Prop :=
  Holds [] initial ∧ forall earlier taken later, history = earlier ++ taken :: later ->
    Holds (earlier ++ [taken]) taken.after

/-- The rule for a property of the history and the state, for transitions that meet a
condition: it holds at the start, and every transition that meets the condition keeps
it. -/
theorem throughout (run : Run step initial history final)
    (Holds : List (Transition State Action) -> State -> Prop)
    (Meets : Transition State Action -> Prop) (start : Holds [] initial)
    (meets : forall taken, taken ∈ history -> Meets taken)
    (preserved : forall earlier state action next, Holds earlier state ->
      step state action = some next -> Meets ⟨state, action, next⟩ ->
      Holds (earlier ++ [⟨state, action, next⟩]) next) :
    Holds history final ∧ Throughout Holds initial history := by
  induction run with
  | start => exact ⟨start, start, fun earlier _ _ shape => by cases earlier <;> cases shape⟩
  | @extend history state next action _ stepped inductionHypothesis =>
      have before := inductionHypothesis fun taken member =>
        meets taken (List.mem_append_left _ member)
      have reached := preserved history state action next before.1 stepped
        (meets _ (List.mem_append_right _ List.mem_cons_self))
      refine ⟨reached, start, fun earlier taken later shape => ?_⟩
      rcases List.eq_nil_or_concat later with none | ⟨between, last, some⟩
      · subst none
        rcases List.append_inj' shape rfl with ⟨same, single⟩
        cases single
        subst same
        exact reached
      · subst some
        rw [List.concat_eq_append, ← List.cons_append, ← List.append_assoc] at shape
        exact before.2.2 earlier taken between (List.append_inj' shape rfl).1

theorem Throughout.last {Holds : List (Transition State Action) -> State -> Prop}
    (run : Run step initial history final) (holds : Throughout Holds initial history) :
    Holds history final := by
  cases run with
  | start => exact holds.1
  | extend _ _ => exact holds.2 _ _ [] rfl

/-- A property that holds throughout holds before each transition, of the history up to there. -/
theorem Throughout.before {Holds : List (Transition State Action) -> State -> Prop}
    (run : Run step initial history final) (holds : Throughout Holds initial history)
    {earlier later : List (Transition State Action)} {taken : Transition State Action}
    (shape : history = earlier ++ taken :: later) : Holds earlier taken.before := by
  refine Throughout.last (run.split shape).1 ⟨holds.1, fun first between rest same => ?_⟩
  refine holds.2 first between (rest ++ taken :: later) ?_
  rw [shape, same, List.append_assoc, List.cons_append]

/-- What every transition passes on in order is passed on in order by the run:
what has gone out, followed by the stock, is the first stock followed by what has
come in. -/
theorem flow {Item : Type*} (run : Run step initial history final) (stock : State -> List Item)
    (out into : Transition State Action -> List Item)
    (balanced : forall state action next, step state action = some next ->
      out ⟨state, action, next⟩ ++ stock next = stock state ++ into ⟨state, action, next⟩) :
    history.flatMap out ++ stock final = stock initial ++ history.flatMap into := by
  induction run with
  | start => exact (List.append_nil _).symm
  | @extend history state next action _ stepped inductionHypothesis =>
      rw [List.flatMap_append, List.flatMap_append, List.flatMap_singleton, List.flatMap_singleton,
        List.append_assoc, balanced state action next stepped, ← List.append_assoc,
        inductionHypothesis, List.append_assoc]

/-- Running a list of actions gives a run, provided every action is enabled. -/
def play (step : State -> Action -> Option State) :
    State -> List Action -> Option (List (Transition State Action) × State)
  | state, [] => some ([], state)
  | state, action :: rest =>
      match step state action with
      | none => none
      | some next => (play step next rest).map fun played =>
          (⟨state, action, next⟩ :: played.1, played.2)

theorem append_play (run : Run step initial history final) (actions : List Action)
    (more : List (Transition State Action)) (last : State)
    (played : play step final actions = some (more, last)) :
    Run step initial (history ++ more) last := by
  induction actions generalizing history final more with
  | nil =>
      cases played
      rw [List.append_nil]
      exact run
  | cons action rest inductionHypothesis =>
      unfold play at played
      cases taken : step final action with
      | none => simp only [taken, reduceCtorEq] at played
      | some next =>
          simp only [taken, Option.map_eq_some_iff, Prod.mk.injEq] at played
          rcases played with ⟨⟨later, reached⟩, remaining, same, atEnd⟩
          subst same
          subst atEnd
          have extended := inductionHypothesis (run.extend taken) later remaining
          simpa only [List.append_assoc, List.singleton_append] using extended

/-- A concrete list of enabled actions is a run from the initial state. -/
theorem of_play (actions : List Action) (history : List (Transition State Action)) (last : State)
    (played : play step initial actions = some (history, last)) :
    Run step initial history last :=
  append_play Run.start actions history last played

/-- A concrete list of enabled actions is a run, with the history and the last state
that `play` computes. -/
theorem of_enabled (actions : List Action) (enabled : (play step initial actions).isSome) :
    Run step initial ((play step initial actions).get enabled).1
      ((play step initial actions).get enabled).2 :=
  of_play actions _ _ (Option.some_get enabled).symm

theorem play_listed {actions : List Action} {enabled : (play step initial actions).isSome}
    {taken : Transition State Action}
    (member : taken ∈ ((play step initial actions).get enabled).1) :
    taken.action ∈ actions := by
  induction actions generalizing initial with
  | nil => exact absurd member List.not_mem_nil
  | cons action rest inductionHypothesis =>
      unfold play at enabled member
      cases moved : step initial action with
      | none => simp only [moved, Option.isSome_none, Bool.false_eq_true] at enabled
      | some next =>
          simp only [moved, Option.isSome_map] at enabled
          simp only [moved, Option.get_map, List.mem_cons] at member
          rcases member with first | later
          · rw [first]
            exact List.mem_cons_self
          · exact List.mem_cons_of_mem _ (inductionHypothesis later)

end Run

end Foundation
end WasmiPlugin
