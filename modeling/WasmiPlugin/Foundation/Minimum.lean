import Mathlib.Data.List.MinMax

namespace WasmiPlugin
namespace Foundation

universe u v

/-!
# The first minimum of a list

`List.argmin` scans a list and replaces its best candidate only by a strictly
smaller one.  So what comes before the element it finds is larger, and what comes
after it is not smaller.
-/

variable {Item : Type u} {Key : Type v} [LinearOrder Key] (key : Item -> Key)

/-- An element of the list with the smallest key, and the first of those if there are several. -/
def FirstMinimal (items : List Item) (chosen : Item) : Prop :=
  Exists fun before => Exists fun after => items = before ++ chosen :: after ∧
    (forall other, other ∈ before -> key chosen < key other) ∧
    (forall other, other ∈ after -> key chosen ≤ key other)

/-- `Iterator::min_by_key`, for a list that is not empty. -/
def minByKey (first : Item) (others : List Item) : Item :=
  ((first :: others).argmin key).getD first

variable {key}

theorem FirstMinimal.mem {items : List Item} {chosen : Item}
    (minimal : FirstMinimal key items chosen) : chosen ∈ items := by
  rcases minimal with ⟨before, after, shape, _⟩
  rw [shape]
  exact List.mem_append_right before List.mem_cons_self

theorem FirstMinimal.le {items : List Item} {chosen other : Item}
    (minimal : FirstMinimal key items chosen) (member : other ∈ items) :
    key chosen ≤ key other := by
  rcases minimal with ⟨before, after, shape, larger, notSmaller⟩
  rw [shape] at member
  rcases List.mem_append.mp member with front | rest
  · exact (larger other front).le
  · rcases List.mem_cons.mp rest with same | back
    · rw [same]
    · exact notSmaller other back

/-- What `argmin` finds comes before every other element with the same key. -/
theorem firstMinimal_of_argmin {items : List Item} {chosen : Item}
    (found : chosen ∈ items.argmin key) : FirstMinimal key items chosen := by
  classical
  rcases List.eq_append_cons_of_mem (List.argmin_mem found) with ⟨before, after, shape, first⟩
  refine ⟨before, after, shape, fun other member => ?_, fun other member => ?_⟩
  · by_contra notLarger
    have within : other ∈ items := by
      rw [shape]
      exact List.mem_append_left _ member
    have early := List.index_of_argmin found within (not_lt.mp notLarger)
    rw [shape, List.idxOf_append_of_notMem first, List.idxOf_cons_self,
      List.idxOf_append_of_mem member] at early
    exact absurd (List.idxOf_lt_length_of_mem member) (not_lt.mpr early)
  · apply List.le_of_mem_argmin _ found
    rw [shape]
    exact List.mem_append_right _ (List.mem_cons_of_mem _ member)

theorem minByKey_firstMinimal (first : Item) (others : List Item) :
    FirstMinimal key (first :: others) (minByKey key first others) := by
  apply firstMinimal_of_argmin
  rw [minByKey]
  cases found : (first :: others).argmin key with
  | none => exact absurd (List.argmin_eq_none.mp found) (List.cons_ne_nil _ _)
  | some chosen => rfl

/-- A first minimum of images comes from one of the elements. -/
theorem FirstMinimal.of_map {Source : Type u} {image : Source -> Item} {sources : List Source}
    {chosen : Item} (minimal : FirstMinimal key (sources.map image) chosen) :
    Exists fun source => image source = chosen ∧
      FirstMinimal (fun source => key (image source)) sources source := by
  rcases minimal with ⟨before, after, shape, larger, notSmaller⟩
  rcases List.map_eq_append_iff.mp shape with ⟨front, rest, whole, frontImage, restImage⟩
  rcases List.map_eq_cons_iff.mp restImage with ⟨source, back, restShape, same, backImage⟩
  refine ⟨source, same, front, back, by rw [whole, restShape], fun other member => ?_,
    fun other member => ?_⟩
  · dsimp only
    rw [same]
    exact larger _ (frontImage ▸ List.mem_map_of_mem member)
  · dsimp only
    rw [same]
    exact notSmaller _ (backImage ▸ List.mem_map_of_mem member)

end Foundation
end WasmiPlugin
