import Mathlib.Data.List.Induction
import Mathlib.Order.Lattice

namespace WasmiPlugin
namespace Foundation
namespace SortedMap

/-!
# Entries in the order of their keys

A finite map can be kept as the list of its entries in increasing order of the
keys, each key once.  Inserting an entry replaces the one with its key, so the
entries that are collected from a list are the last ones for their keys, and a
list that is in order already is collected as it is.
-/

variable {Key Item : Type} [LinearOrder Key]

/-- The keys increase from each entry to the next. -/
def Sorted (entries : List (Key × Item)) : Prop :=
  entries.Pairwise fun left right => left.1 < right.1

/-- Put an entry into its place, instead of the entry that has its key. -/
def insert (key : Key) (item : Item) : List (Key × Item) -> List (Key × Item)
  | [] => [(key, item)]
  | entry :: entries =>
      if key < entry.1 then (key, item) :: entry :: entries
      else if key = entry.1 then (key, item) :: entries
      else entry :: insert key item entries

/-- Insert the entries of a list one after the other, so that later ones replace
earlier ones with their key. -/
def collect (entries : List (Key × Item)) : List (Key × Item) :=
  entries.foldl (fun kept entry => insert entry.1 entry.2 kept) []

/-- What an insertion leaves is the new entry and the old ones with other keys. -/
theorem mem_insert {key : Key} {item : Item} {kept : List (Key × Item)} (sorted : Sorted kept)
    (entry : Key × Item) :
    entry ∈ insert key item kept ↔ entry = (key, item) ∨ entry ∈ kept ∧ entry.1 ≠ key := by
  induction kept with
  | nil => simp [insert]
  | cons first rest inductionHypothesis =>
      rcases List.pairwise_cons.mp sorted with ⟨above, ordered⟩
      rw [insert]
      split
      · next below =>
          have others : forall other, other ∈ first :: rest -> other.1 ≠ key := by
            intro other listed
            rcases List.mem_cons.mp listed with same | later
            · exact same ▸ ne_of_gt below
            · exact ne_of_gt (lt_trans below (above other later))
          rw [List.mem_cons]
          exact or_congr_right ⟨fun listed => ⟨listed, others entry listed⟩, fun both => both.1⟩
      · next notBelow =>
          split
          · next same =>
              have others : forall other, other ∈ rest -> other.1 ≠ key := by
                intro other listed
                rw [same]
                exact ne_of_gt (above other listed)
              rw [List.mem_cons, List.mem_cons]
              constructor
              · rintro (new | listed)
                · exact .inl new
                · exact .inr ⟨.inr listed, others entry listed⟩
              · rintro (new | ⟨replaced | listed, other⟩)
                · exact .inl new
                · exact absurd (replaced ▸ same.symm) other
                · exact .inr listed
          · next different =>
              rw [List.mem_cons, inductionHypothesis ordered, List.mem_cons]
              constructor
              · rintro (first | new | ⟨listed, other⟩)
                · exact .inr ⟨.inl first, first ▸ Ne.symm different⟩
                · exact .inl new
                · exact .inr ⟨.inr listed, other⟩
              · rintro (new | ⟨first | listed, other⟩)
                · exact .inr (.inl new)
                · exact .inl first
                · exact .inr (.inr ⟨listed, other⟩)

theorem sorted_insert (key : Key) (item : Item) {kept : List (Key × Item)}
    (sorted : Sorted kept) : Sorted (insert key item kept) := by
  induction kept with
  | nil => exact List.pairwise_singleton _ _
  | cons first rest inductionHypothesis =>
      rcases List.pairwise_cons.mp sorted with ⟨above, ordered⟩
      rw [insert]
      split
      · next below =>
          refine List.pairwise_cons.mpr ⟨fun other listed => ?_, sorted⟩
          rcases List.mem_cons.mp listed with same | later
          · exact same ▸ below
          · exact lt_trans below (above other later)
      · next notBelow =>
          split
          · next same =>
              refine List.pairwise_cons.mpr ⟨fun other listed => ?_, ordered⟩
              rw [same]
              exact above other listed
          · next different =>
              refine List.pairwise_cons.mpr ⟨fun other listed => ?_, inductionHypothesis ordered⟩
              rcases (mem_insert ordered other).mp listed with new | ⟨later, _⟩
              · rw [new]
                exact lt_of_le_of_ne (not_lt.mp notBelow) (Ne.symm different)
              · exact above other later

theorem insert_above {key : Key} (item : Item) {kept : List (Key × Item)}
    (below : forall entry, entry ∈ kept -> entry.1 < key) :
    insert key item kept = kept ++ [(key, item)] := by
  induction kept with
  | nil => rfl
  | cons first rest inductionHypothesis =>
      have firstBelow := below first List.mem_cons_self
      rw [insert, if_neg (lt_asymm firstBelow), if_neg (ne_of_gt firstBelow), inductionHypothesis]
      · rfl
      · exact fun entry listed => below entry (List.mem_cons_of_mem _ listed)

theorem collect_append (entries : List (Key × Item)) (entry : Key × Item) :
    collect (entries ++ [entry]) = insert entry.1 entry.2 (collect entries) := by
  rw [collect, List.foldl_append]
  rfl

theorem sorted_collect (entries : List (Key × Item)) : Sorted (collect entries) := by
  induction entries using List.reverseRecOn with
  | nil => exact List.Pairwise.nil
  | append_singleton entries entry inductionHypothesis =>
      rw [collect_append]
      exact sorted_insert _ _ inductionHypothesis

/-- The entries collected from a list are the last ones for their keys. -/
theorem mem_collect (entries : List (Key × Item)) (entry : Key × Item) :
    entry ∈ collect entries ↔ Exists fun before => Exists fun after =>
      entries = before ++ entry :: after ∧ forall other, other ∈ after -> other.1 ≠ entry.1 := by
  induction entries using List.reverseRecOn with
  | nil => simp [collect]
  | append_singleton entries last inductionHypothesis =>
      rw [collect_append, mem_insert (sorted_collect entries), inductionHypothesis]
      constructor
      · rintro (rfl | ⟨⟨before, after, same, others⟩, different⟩)
        · exact ⟨entries, [], rfl, fun _ listed => absurd listed List.not_mem_nil⟩
        · refine ⟨before, after ++ [last], by rw [same, List.append_assoc]; rfl, ?_⟩
          intro other listed
          rcases List.mem_append.mp listed with earlier | final
          · exact others other earlier
          · rw [List.mem_singleton.mp final]
            exact Ne.symm different
      · rintro ⟨before, after, same, others⟩
        rcases List.eq_nil_or_concat after with none | ⟨front, final, shape⟩
        · rw [none] at same
          exact .inl (List.singleton_inj.mp (List.append_inj' same rfl).2).symm
        · rw [List.concat_eq_append] at shape
          have split : entries ++ [last] = (before ++ entry :: front) ++ [final] := by
            rw [same, shape, List.append_assoc]
            rfl
          rcases List.append_inj' split rfl with ⟨earlier, ends⟩
          refine .inr ⟨⟨before, front, earlier, fun other listed => ?_⟩, ?_⟩
          · exact others other (shape ▸ List.mem_append_left _ listed)
          · rw [List.singleton_inj.mp ends]
            have different := others final (shape ▸ List.mem_append_right _ List.mem_cons_self)
            exact Ne.symm different

theorem collect_of_sorted {entries : List (Key × Item)} (sorted : Sorted entries) :
    collect entries = entries := by
  induction entries using List.reverseRecOn with
  | nil => rfl
  | append_singleton entries last inductionHypothesis =>
      rcases List.pairwise_append.mp sorted with ⟨ordered, _, below⟩
      rw [collect_append, inductionHypothesis ordered]
      exact insert_above _ fun entry listed => below entry listed last (List.mem_singleton_self _)

end SortedMap
end Foundation
end WasmiPlugin
