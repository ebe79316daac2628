import Mathlib.Data.List.Basic

namespace WasmiPlugin
namespace Foundation

universe u v

/-!
# Metered execution

A guest executes blocks, each at a cost, and calls its host.  Under a meter it
has some fuel, and it is suspended before a block that costs more than it has
left.  The host may take all the fuel away in a call.  A guest that goes on
after a call does so until the next block, whatever its fuel.

`Executes` is the execution without a meter and `slice` the metered one, from a
resume to the next suspension or to the end.  A slice does what the unmetered
guest does, as far as it goes; it goes on as long as it has the fuel, and it
stops if the unmetered guest does.

The host's answers are given as a sequence, so that both executions get the
same.  Nothing here depends on what the guest or the host is.
-/

/-- What a guest does next: it executes a block for some cost, calls its host and goes
on with the answer, or ends. -/
inductive Next (Point : Type u) (Answer : Type v) where
  | block (cost : Nat) (next : Point)
  | call (next : Answer -> Point)
  | finished
  | failed

/-- How the host answers a call, and whether the call takes the fuel away.  Without an
answer the call traps. -/
structure Reply (Answer : Type v) where
  answer : Option Answer
  exhausts : Bool

/-- Where a guest stands, and how many calls it has made. -/
structure Position (Point : Type u) where
  point : Point
  calls : Nat
  deriving DecidableEq

inductive Outcome where
  | finished
  | trapped
  | failed
  deriving DecidableEq, Repr

/-- How a slice stops: the guest has ended, or it has run out of fuel before a block. -/
inductive Stop where
  | ended (outcome : Outcome)
  | outOfFuel (required : Nat)
  deriving DecidableEq, Repr

/-- What a slice did, and where it left the guest. -/
structure Span (Point : Type u) where
  steps : List (Position Point)
  position : Position Point
  fuel : Nat
  stop : Stop
  deriving DecidableEq

def Span.after {Point : Type u} (position : Position Point) (rest : Span Point) : Span Point :=
  { rest with steps := position :: rest.steps }

section Executions

variable {Point : Type u} {Answer : Type v} (guest : Point -> Next Point Answer)
  (replies : Nat -> Reply Answer)

/-- The step from a position, if the guest does not end there. -/
def advance (position : Position Point) : Option (Position Point) :=
  match guest position.point with
  | .block _ next => some ⟨next, position.calls⟩
  | .call next => (replies position.calls).answer.map fun answer =>
      ⟨next answer, position.calls + 1⟩
  | .finished => none
  | .failed => none

def outcome (position : Position Point) : Option Outcome :=
  match guest position.point with
  | .block _ _ => none
  | .call _ => if (replies position.calls).answer.isSome then none else some .trapped
  | .finished => some .finished
  | .failed => some .failed

/-- Without a meter the guest takes these steps from one position to another. -/
inductive Executes : Position Point -> List (Position Point) -> Position Point -> Prop
  | here (position : Position Point) : Executes position [] position
  | step {position next last : Position Point} {steps : List (Position Point)} :
      advance guest replies position = some next -> Executes next steps last ->
      Executes position (position :: steps) last

/-- The guest executes with some fuel until it is suspended or ends.  The bound
limits how many steps are looked at. -/
def slice : (bound : Nat) -> Position Point -> (fuel : Nat) -> Option (Span Point)
  | 0, _, _ => none
  | bound + 1, position, fuel =>
      match guest position.point with
      | .block cost next =>
          if cost ≤ fuel then
            (slice bound ⟨next, position.calls⟩ (fuel - cost)).map (Span.after position)
          else some ⟨[], position, fuel, .outOfFuel cost⟩
      | .call next =>
          let fuel := if (replies position.calls).exhausts then 0 else fuel
          match (replies position.calls).answer with
          | none => some ⟨[], position, fuel, .ended .trapped⟩
          | some answer =>
              (slice bound ⟨next answer, position.calls + 1⟩ fuel).map (Span.after position)
      | .finished => some ⟨[], position, fuel, .ended .finished⟩
      | .failed => some ⟨[], position, fuel, .ended .failed⟩

def atBlock (position : Position Point) : Bool :=
  match guest position.point with
  | .block _ _ => true
  | _ => false

def blocks (steps : List (Position Point)) : Nat :=
  steps.countP (atBlock guest)

end Executions

variable {Point : Type u} {Answer : Type v} {guest : Point -> Next Point Answer}
  {replies : Nat -> Reply Answer}

/-! ## Execution without a meter -/

namespace Executes

variable {first middle last other : Position Point} {steps more : List (Position Point)}

theorem trans (early : Executes guest replies first steps middle)
    (late : Executes guest replies middle more last) :
    Executes guest replies first (steps ++ more) last := by
  induction early with
  | here => exact late
  | step taken _ inductionHypothesis => exact .step taken (inductionHypothesis late)

theorem advance_of_outcome {position : Position Point} {ends : Outcome}
    (ended : outcome guest replies position = some ends) :
    advance guest replies position = none := by
  unfold outcome at ended
  unfold advance
  cases here : guest position.point with
  | block cost next =>
      rw [here] at ended
      cases ended
  | call next =>
      rw [here] at ended
      dsimp only at ended ⊢
      cases answered : (replies position.calls).answer with
      | none => rfl
      | some answer =>
          rw [answered] at ended
          cases ended
  | finished => rfl
  | failed => rfl

/-- Every execution from a position is a part of the one that leads to the end of the guest. -/
theorem within (part : Executes guest replies first steps middle)
    (whole : Executes guest replies first more last) {ends : Outcome}
    (ended : outcome guest replies last = some ends) :
    Exists fun rest => more = steps ++ rest ∧ Executes guest replies middle rest last := by
  induction part generalizing more with
  | here => exact ⟨more, rfl, whole⟩
  | step taken _ inductionHypothesis =>
      cases whole with
      | here =>
          rw [advance_of_outcome ended] at taken
          cases taken
      | step same onward =>
          rw [taken] at same
          cases same
          rcases inductionHypothesis onward with ⟨rest, shape, remaining⟩
          exact ⟨rest, by rw [shape, List.cons_append], remaining⟩

/-- A guest that comes to an end does so in one way only, since every position has one
next step. -/
theorem unique (part : Executes guest replies first steps middle)
    (whole : Executes guest replies first more last) {ends ends' : Outcome}
    (partEnded : outcome guest replies middle = some ends)
    (ended : outcome guest replies last = some ends') :
    steps = more ∧ middle = last ∧ ends = ends' := by
  rcases part.within whole ended with ⟨rest, shape, remaining⟩
  cases remaining with
  | here =>
      rw [List.append_nil] at shape
      exact ⟨shape.symm, rfl, Option.some.inj (partEnded.symm.trans ended)⟩
  | step taken _ =>
      rw [advance_of_outcome partEnded] at taken
      cases taken

end Executes

/-! ## Slices -/

@[simp] theorem blocks_append (steps more : List (Position Point)) :
    blocks guest (steps ++ more) = blocks guest steps + blocks guest more :=
  List.countP_append

private theorem slice_after {position : Position Point} {inner : Option (Span Point)}
    {found : Span Point} (same : inner.map (Span.after position) = some found) :
    Exists fun rest => inner = some rest ∧ found.steps = position :: rest.steps ∧
      found.position = rest.position ∧ found.fuel = rest.fuel ∧ found.stop = rest.stop := by
  rcases Option.map_eq_some_iff.mp same with ⟨rest, made, shape⟩
  subst shape
  exact ⟨rest, made, rfl, rfl, rfl, rfl⟩

/-- What a slice leaves behind: it took steps of the unmetered guest, and ended
where that guest ends or before a block it cannot pay. -/
structure Span.Sound (guest : Point -> Next Point Answer) (replies : Nat -> Reply Answer)
    (position : Position Point) (found : Span Point) : Prop where
  executes : Executes guest replies position found.steps found.position
  ended : forall ends, found.stop = .ended ends ->
    outcome guest replies found.position = some ends
  suspended : forall required, found.stop = .outOfFuel required ->
    Exists fun next => guest found.position.point = .block required next

private theorem Span.Sound.after {position next : Position Point} {found rest : Span Point}
    (sound : rest.Sound guest replies next)
    (taken : advance guest replies position = some next)
    (same : found.steps = position :: rest.steps ∧ found.position = rest.position ∧
      found.fuel = rest.fuel ∧ found.stop = rest.stop) :
    found.Sound guest replies position := by
  rcases same with ⟨steps, place, _, stop⟩
  refine ⟨?_, ?_, ?_⟩
  · rw [steps, place]
    exact .step taken sound.executes
  · rw [stop, place]
    exact sound.ended
  · rw [stop, place]
    exact sound.suspended

theorem slice_sound (bound : Nat) (position : Position Point) (fuel : Nat) {found : Span Point}
    (sliced : slice guest replies bound position fuel = some found) :
    found.Sound guest replies position := by
  induction bound generalizing position fuel found with
  | zero => cases sliced
  | succ bound inductionHypothesis =>
      unfold slice at sliced
      cases here : guest position.point with
      | block cost next =>
          rw [here] at sliced
          dsimp only at sliced
          split at sliced
          · rcases slice_after sliced with ⟨rest, made, same⟩
            refine (inductionHypothesis _ _ made).after ?_ same
            simp only [advance, here]
          · cases sliced
            refine ⟨.here position, fun _ stop => (by cases stop), fun _ stop => ?_⟩
            cases stop
            exact ⟨next, here⟩
      | call next =>
          rw [here] at sliced
          dsimp only at sliced
          cases answered : (replies position.calls).answer with
          | none =>
              rw [answered] at sliced
              cases sliced
              refine ⟨.here position, fun _ stop => ?_, fun _ stop => (by cases stop)⟩
              cases stop
              simp [outcome, here, answered]
          | some answer =>
              rw [answered] at sliced
              rcases slice_after sliced with ⟨rest, made, same⟩
              refine (inductionHypothesis _ _ made).after ?_ same
              simp only [advance, here, answered, Option.map_some]
      | finished | failed =>
          rw [here] at sliced
          cases sliced
          refine ⟨.here position, fun _ stop => ?_, fun _ stop => (by cases stop)⟩
          cases stop
          simp only [outcome, here]

/-- A guest that can pay its block executes it. -/
theorem slice_progress {bound : Nat} {position : Position Point} {fuel cost : Nat} {next : Point}
    {found : Span Point} (here : guest position.point = .block cost next)
    (paid : cost ≤ fuel) (sliced : slice guest replies bound position fuel = some found) :
    0 < blocks guest found.steps := by
  cases bound with
  | zero => cases sliced
  | succ bound =>
      unfold slice at sliced
      rw [here] at sliced
      dsimp only at sliced
      rw [if_pos paid] at sliced
      rcases slice_after sliced with ⟨rest, _, steps, _⟩
      rw [steps, blocks, List.countP_cons_of_pos (by simp only [atBlock, here])]
      exact Nat.succ_pos _

/-- Given enough of a bound, a slice stops whenever the unmetered guest comes to an end. -/
theorem slice_stops {position last : Position Point} {steps : List (Position Point)}
    (whole : Executes guest replies position steps last) {ends : Outcome}
    (ended : outcome guest replies last = some ends) (fuel : Nat) {bound : Nat}
    (enough : steps.length < bound) :
    (slice guest replies bound position fuel).isSome = true := by
  induction whole generalizing fuel bound with
  | here position =>
      cases bound with
      | zero => exact absurd enough (Nat.not_lt_zero _)
      | succ bound =>
          unfold outcome at ended
          unfold slice
          cases here : guest position.point with
          | block cost next =>
              rw [here] at ended
              cases ended
          | call next =>
              rw [here] at ended
              dsimp only at ended ⊢
              cases answered : (replies position.calls).answer with
              | none => rfl
              | some answer =>
                  rw [answered] at ended
                  cases ended
          | finished => rfl
          | failed => rfl
  | @step position next last steps taken _ inductionHypothesis =>
      cases bound with
      | zero => exact absurd enough (Nat.not_lt_zero _)
      | succ bound =>
          have shorter : steps.length < bound := Nat.lt_of_succ_lt_succ enough
          unfold advance at taken
          unfold slice
          cases here : guest position.point with
          | block cost next =>
              rw [here] at taken
              cases taken
              dsimp only
              split
              · rw [Option.isSome_map]
                exact inductionHypothesis ended _ shorter
              · rfl
          | call next =>
              rw [here] at taken
              dsimp only at taken ⊢
              cases answered : (replies position.calls).answer with
              | none => rfl
              | some answer =>
                  rw [answered] at taken
                  cases taken
                  dsimp only
                  rw [Option.isSome_map]
                  exact inductionHypothesis ended _ shorter
          | finished => rfl
          | failed => rfl

end Foundation
end WasmiPlugin
