import Mathlib.Logic.Basic

namespace WasmiPlugin
namespace Foundation

universe u

/-!
# Programs that may stop early

A program runs in a state and finishes with a value, or stops before its end
with what it stopped for.  It keeps the state either way: what was done before
stopping is done.  This is the shape of a function with early returns, with
errors, and with panics.

`wp` is the weakest precondition, with one postcondition for each way to
finish.  Programs are functions, so it is an equivalent description of what they
do and its rules are equivalences, also that for one more turn of a counted loop.

`Within` relates the state before a program to the one after it, however it
finishes.  For a preorder it passes from the parts of a program to the whole, so
that a frame condition needs no weakest precondition.

`Respects` compares two executions of one program.  It says that from related
states the program finishes alike, in related states, so that nobody can tell from
it what the relation leaves open.
-/

/-- How a program finishes: with a value for what follows, or with an ending of the whole. -/
inductive Finish (Ending Value : Type u) where
  | value (value : Value)
  | stopped (ending : Ending)

/-- A computation over a state that can end before it gives a value. -/
def Program (State Ending Value : Type u) : Type u :=
  State -> Finish Ending Value × State

namespace Program

variable {State Ending Value Other : Type u}

instance : Monad (Program State Ending) where
  pure value := fun state => (.value value, state)
  bind program next := fun state =>
    match program state with
    | (.value value, after) => next value after
    | (.stopped ending, after) => (.stopped ending, after)

def stop (ending : Ending) : Program State Ending Value :=
  fun state => (.stopped ending, state)

def look (view : State -> Value) : Program State Ending Value :=
  fun state => (.value (view state), state)

def change (update : State -> State) : Program State Ending PUnit :=
  fun state => (.value ⟨⟩, update state)

def take (update : State -> Value × State) : Program State Ending Value :=
  fun state => (.value (update state).1, (update state).2)

/-- The weakest precondition for a value in `post` or an ending in `ends`. -/
def wp (program : Program State Ending Value) (post : Value -> State -> Prop)
    (ends : Ending -> State -> Prop) (state : State) : Prop :=
  match program state with
  | (.value value, after) => post value after
  | (.stopped ending, after) => ends ending after

variable {post : Value -> State -> Prop} {ends : Ending -> State -> Prop} {state : State}

@[simp] theorem wp_pure (value : Value) :
    (pure value : Program State Ending Value).wp post ends state ↔ post value state := Iff.rfl

@[simp] theorem wp_bind (program : Program State Ending Other)
    (next : Other -> Program State Ending Value) :
    (program >>= next).wp post ends state ↔
      program.wp (fun value after => (next value).wp post ends after) ends state := by
  change (match (match program state with
      | (.value value, after) => next value after
      | (.stopped ending, after) => (.stopped ending, after)) with
    | (.value value, after) => post value after
    | (.stopped ending, after) => ends ending after) ↔ _
  unfold wp
  rcases program state with ⟨finish, after⟩
  cases finish with
  | value value => exact Iff.rfl
  | stopped ending => exact Iff.rfl

@[simp] theorem wp_stop (ending : Ending) :
    (stop ending : Program State Ending Value).wp post ends state ↔ ends ending state := Iff.rfl

@[simp] theorem wp_look (view : State -> Value) :
    (look view : Program State Ending Value).wp post ends state ↔ post (view state) state := Iff.rfl

@[simp] theorem wp_change {post : PUnit -> State -> Prop} (update : State -> State) :
    (change update : Program State Ending PUnit).wp post ends state ↔ post ⟨⟩ (update state) :=
  Iff.rfl

@[simp] theorem wp_take (update : State -> Value × State) :
    (take update : Program State Ending Value).wp post ends state ↔
      post (update state).1 (update state).2 := Iff.rfl

@[simp] theorem wp_ite (condition : Prop) [Decidable condition]
    (yes no : Program State Ending Value) :
    (if condition then yes else no).wp post ends state ↔
      if condition then yes.wp post ends state else no.wp post ends state := by
  split <;> exact Iff.rfl

/-- The consequence rule. -/
theorem wp_mono {program : Program State Ending Value} {post' : Value -> State -> Prop}
    {ends' : Ending -> State -> Prop} (holds : program.wp post ends state)
    (values : forall value after, post value after -> post' value after)
    (endings : forall ending after, ends ending after -> ends' ending after) :
    program.wp post' ends' state := by
  unfold wp at holds ⊢
  split
  · next value after same =>
      rw [same] at holds
      exact values value after holds
  · next ending after same =>
      rw [same] at holds
      exact endings ending after holds

/-! ## Frames -/

/-- However the program finishes, the state that it leaves is related to the one it
found. -/
def Within (relation : State -> State -> Prop) (program : Program State Ending Value) : Prop :=
  forall state, relation state (program state).2

namespace Within

variable {relation : State -> State -> Prop} (refl : forall state, relation state state)
  (trans : forall first second third, relation first second -> relation second third ->
    relation first third)

include refl in
theorem pure (value : Value) : Within relation (pure value : Program State Ending Value) :=
  refl

include refl in
theorem stop (ending : Ending) : Within relation (stop ending : Program State Ending Value) :=
  refl

include refl in
theorem look (view : State -> Value) :
    Within relation (look view : Program State Ending Value) :=
  refl

theorem change {update : State -> State} (kept : forall state, relation state (update state)) :
    Within relation (change update : Program State Ending PUnit) :=
  kept

theorem take {update : State -> Value × State}
    (kept : forall state, relation state (update state).2) :
    Within relation (take update : Program State Ending Value) :=
  kept

include trans in
theorem bind {program : Program State Ending Other}
    {next : Other -> Program State Ending Value} (first : Within relation program)
    (later : forall value, Within relation (next value)) :
    Within relation (program >>= next) := by
  intro state
  have early := first state
  change relation state (match program state with
    | (.value value, after) => next value after
    | (.stopped ending, after) => (.stopped ending, after)).2
  rcases same : program state with ⟨finish, after⟩
  rw [same] at early
  cases finish with
  | value value => exact trans _ _ _ early (later value after)
  | stopped ending => exact early

theorem ite {condition : Prop} [Decidable condition] {yes no : Program State Ending Value}
    (held : Within relation yes) (failed : Within relation no) :
    Within relation (if condition then yes else no) := by
  split
  · exact held
  · exact failed

end Within

/-! ## Related states -/

/-- From related states the program finishes alike, and leaves related states. -/
def Respects (relation : State -> State -> Prop) (program : Program State Ending Value) : Prop :=
  forall one other, relation one other ->
    (program one).1 = (program other).1 ∧ relation (program one).2 (program other).2

namespace Respects

variable {relation : State -> State -> Prop}

theorem pure (value : Value) :
    Respects relation (pure value : Program State Ending Value) :=
  fun _ _ related => ⟨rfl, related⟩

theorem stop (ending : Ending) :
    Respects relation (stop ending : Program State Ending Value) :=
  fun _ _ related => ⟨rfl, related⟩

theorem change {update : State -> State}
    (kept : forall one other, relation one other -> relation (update one) (update other)) :
    Respects relation (change update : Program State Ending PUnit) :=
  fun one other related => ⟨rfl, kept one other related⟩

theorem take {update : State -> Value × State}
    (alike : forall one other, relation one other -> (update one).1 = (update other).1)
    (kept : forall one other, relation one other -> relation (update one).2 (update other).2) :
    Respects relation (take update : Program State Ending Value) :=
  fun one other related => ⟨congrArg Finish.value (alike one other related), kept one other related⟩

theorem bind {program : Program State Ending Other}
    {next : Other -> Program State Ending Value} (first : Respects relation program)
    (later : forall value, Respects relation (next value)) :
    Respects relation (program >>= next) := by
  intro one other related
  rcases first one other related with ⟨same, kept⟩
  change (match program one with
      | (.value value, after) => next value after
      | (.stopped ending, after) => (.stopped ending, after)).1 =
    (match program other with
      | (.value value, after) => next value after
      | (.stopped ending, after) => (.stopped ending, after)).1 ∧
    relation (match program one with
      | (.value value, after) => next value after
      | (.stopped ending, after) => (.stopped ending, after)).2
      (match program other with
      | (.value value, after) => next value after
      | (.stopped ending, after) => (.stopped ending, after)).2
  rcases early : program one with ⟨finish, after⟩
  rcases late : program other with ⟨finish', after'⟩
  rw [early, late] at same kept
  cases same
  cases finish with
  | value value => exact later value after after' kept
  | stopped ending => exact ⟨rfl, kept⟩

/-- A look respects a relation if what follows depends only on what related states
have in common. -/
theorem look {view : State -> Other} {next : Other -> Program State Ending Value}
    (alike : forall one other, relation one other -> next (view one) = next (view other))
    (later : forall value, Respects relation (next value)) :
    Respects relation (look view >>= next) := by
  intro one other related
  change (next (view one) one).1 = (next (view other) other).1 ∧
    relation (next (view one) one).2 (next (view other) other).2
  rw [alike one other related]
  exact later (view other) one other related

theorem ite {condition : Prop} [Decidable condition] {yes no : Program State Ending Value}
    (held : condition -> Respects relation yes) (failed : ¬ condition -> Respects relation no) :
    Respects relation (if condition then yes else no) := by
  split
  · next holds => exact held holds
  · next fails => exact failed fails

end Respects

/-! ## Loops -/

/-- How a turn of a loop ends: with `continue` or with `break`. -/
inductive Turn (Value : Type u) where
  | next (value : Value)
  | done (value : Value)

/-- The loop `for index in index..index + remaining`, with the value of its local
variables passed from turn to turn. -/
def loop (body : Nat -> Value -> Program State Ending (Turn Value)) :
    (remaining index : Nat) -> Value -> Program State Ending Value
  | 0, _, value => pure value
  | remaining + 1, index, value => do
      match ← body index value with
      | .next value => loop body remaining (index + 1) value
      | .done value => pure value

@[simp] theorem wp_loop_zero (body : Nat -> Value -> Program State Ending (Turn Value))
    (index : Nat) (value : Value) :
    (loop body 0 index value).wp post ends state ↔ post value state := Iff.rfl

theorem wp_loop_succ (body : Nat -> Value -> Program State Ending (Turn Value))
    (remaining index : Nat) (value : Value) :
    (loop body (remaining + 1) index value).wp post ends state ↔
      (body index value).wp (fun turn after =>
        match turn with
        | .next value => (loop body remaining (index + 1) value).wp post ends after
        | .done value => post value after) ends state := by
  rw [loop, wp_bind]
  unfold wp
  split
  · next turn after same => cases turn <;> exact Iff.rfl
  · exact Iff.rfl

/-- The rule for a counted loop with an invariant.  A turn that goes on keeps it,
and one that leaves the loop gives what the loop gives. -/
theorem wp_loop_invariant {body : Nat -> Value -> Program State Ending (Turn Value)}
    (invariant : Nat -> Value -> State -> Prop) {first remaining : Nat} {value : Value}
    (turns : forall index value state, index < first + remaining ->
      invariant index value state -> (body index value).wp (fun turn after =>
        match turn with
        | .next value => invariant (index + 1) value after
        | .done value => post value after) ends state)
    (last : forall value state, invariant (first + remaining) value state -> post value state)
    (begins : invariant first value state) :
    (loop body remaining first value).wp post ends state := by
  induction remaining generalizing first value state with
  | zero => exact last value state begins
  | succ remaining inductionHypothesis =>
      have shift : first + 1 + remaining = first + (remaining + 1) := by omega
      rw [wp_loop_succ]
      refine wp_mono (turns first value state (by omega) begins) (fun turn after reached => ?_)
        fun _ _ ended => ended
      cases turn with
      | next value =>
          refine inductionHypothesis ?_ ?_ reached
          · rw [shift]
            exact turns
          · rw [shift]
            exact last
      | done value => exact reached

theorem loop_congr {body other : Nat -> Value -> Program State Ending (Turn Value)}
    {remaining index : Nat} (same : forall later, later < index + remaining ->
      body later = other later) (value : Value) :
    loop body remaining index value = loop other remaining index value := by
  induction remaining generalizing index value with
  | zero => rfl
  | succ remaining inductionHypothesis =>
      rw [loop, loop, same index (by omega)]
      refine congrArg (other index value >>= ·) (funext fun turn => ?_)
      cases turn with
      | next value => exact inductionHypothesis (fun later below => same later (by omega)) value
      | done value => rfl

theorem Within.loop {relation : State -> State -> Prop}
    (refl : forall state, relation state state)
    (trans : forall first second third, relation first second -> relation second third ->
      relation first third)
    {body : Nat -> Value -> Program State Ending (Turn Value)}
    (turns : forall index value, Within relation (body index value))
    (remaining index : Nat) (value : Value) :
    Within relation (loop body remaining index value) := by
  induction remaining generalizing index value with
  | zero => exact refl
  | succ remaining inductionHypothesis =>
      refine Within.bind trans (turns index value) fun turn => ?_
      cases turn with
      | next value => exact inductionHypothesis (index + 1) value
      | done value => exact refl

theorem Respects.loop {relation : State -> State -> Prop}
    {body : Nat -> Value -> Program State Ending (Turn Value)}
    (turns : forall index value, Respects relation (body index value))
    (remaining index : Nat) (value : Value) :
    Respects relation (loop body remaining index value) := by
  induction remaining generalizing index value with
  | zero => exact .pure _
  | succ remaining inductionHypothesis =>
      refine .bind (turns index value) fun turn => ?_
      cases turn with
      | next value => exact inductionHypothesis (index + 1) value
      | done value => exact .pure _

end Program

end Foundation
end WasmiPlugin
