import Mathlib.Order.Interval.Finset.Nat

namespace WasmiPlugin
namespace Foundation

/-!
# Bounds-checked linear memory

A memory is a number of bytes, at most a given limit, and their contents.  An
access names an offset that need not be an address at all: offsets are natural
numbers, and an access outside the memory has no result.

The laws are the usual ones.  A write is read back, leaves everything outside
its region alone, and does not change the size.  A scattered write fills several
regions one after the other and obeys the same laws when they are disjoint.
-/

/-- A memory of `size` bytes.  What `byte` says beyond them has no meaning. -/
structure LinearMemory (limit : Nat) where
  size : Nat
  byte : Nat -> UInt8
  small : size ≤ limit

/-- The bytes from `start` on, `length` of them. -/
structure Region where
  start : Nat
  length : Nat
  deriving DecidableEq, Repr

/-- Two regions have no byte in common.  A region without bytes is disjoint from
every other, wherever it is. -/
def Region.Disjoint (left right : Region) : Prop :=
  left.length = 0 ∨ right.length = 0 ∨
    left.start + left.length ≤ right.start ∨ right.start + right.length ≤ left.start

instance (left right : Region) : Decidable (left.Disjoint right) :=
  inferInstanceAs (Decidable (_ ∨ _))

theorem Region.Disjoint.symm {left right : Region} (disjoint : left.Disjoint right) :
    right.Disjoint left := by
  unfold Region.Disjoint at disjoint ⊢
  omega

theorem Region.Disjoint.part {left right : Region} (disjoint : left.Disjoint right)
    {start length : Nat} (above : right.start ≤ start)
    (below : start + length ≤ right.start + right.length) : left.Disjoint ⟨start, length⟩ := by
  simp only [Region.Disjoint] at disjoint ⊢
  omega

namespace LinearMemory

variable {limit : Nat}

/-- A region lies within the memory. -/
def Covers (memory : LinearMemory limit) (region : Region) : Prop :=
  region.start + region.length ≤ memory.size

instance (memory : LinearMemory limit) (region : Region) : Decidable (memory.Covers region) :=
  inferInstanceAs (Decidable (_ ≤ _))

/-- The contents of a region, whether or not it lies within the memory. -/
def contents (memory : LinearMemory limit) (region : Region) : List UInt8 :=
  (List.range region.length).map fun index => memory.byte (region.start + index)

/-- Bytes put from an offset on, whether or not they lie within the memory. -/
def overwrite (memory : LinearMemory limit) (offset : Nat) (bytes : List UInt8) :
    LinearMemory limit where
  size := memory.size
  byte address :=
    if offset ≤ address then (bytes[address - offset]?).getD (memory.byte address)
    else memory.byte address
  small := memory.small

/-- Read a region, if it lies within the memory. -/
def read (memory : LinearMemory limit) (region : Region) : Option (List UInt8) :=
  if memory.Covers region then some (memory.contents region) else none

/-- Write some bytes, if they lie within the memory. -/
def write (memory : LinearMemory limit) (offset : Nat) (bytes : List UInt8) :
    Option (LinearMemory limit) :=
  if memory.Covers ⟨offset, bytes.length⟩ then some (memory.overwrite offset bytes) else none

@[simp] theorem overwrite_size (memory : LinearMemory limit) (offset : Nat) (bytes : List UInt8) :
    (memory.overwrite offset bytes).size = memory.size := rfl

theorem overwrite_covers (memory : LinearMemory limit) (offset : Nat) (bytes : List UInt8)
    (region : Region) :
    (memory.overwrite offset bytes).Covers region ↔ memory.Covers region := Iff.rfl

@[simp] theorem contents_length (memory : LinearMemory limit) (region : Region) :
    (memory.contents region).length = region.length := by
  simp only [contents, List.length_map, List.length_range]

theorem overwrite_byte_outside (memory : LinearMemory limit) {offset address : Nat}
    {bytes : List UInt8} (outside : address < offset ∨ offset + bytes.length ≤ address) :
    (memory.overwrite offset bytes).byte address = memory.byte address := by
  simp only [overwrite]
  split
  · next reached =>
      have beyond : bytes[address - offset]? = none := by
        apply List.getElem?_eq_none
        omega
      rw [beyond, Option.getD_none]
  · rfl

theorem contents_overwrite_disjoint (memory : LinearMemory limit) {offset : Nat}
    {bytes : List UInt8} {region : Region} (disjoint : region.Disjoint ⟨offset, bytes.length⟩) :
    (memory.overwrite offset bytes).contents region = memory.contents region := by
  apply List.map_congr_left
  intro index member
  have inside := List.mem_range.mp member
  apply overwrite_byte_outside
  simp only [Region.Disjoint] at disjoint
  omega

theorem overwrite_nil (memory : LinearMemory limit) (offset : Nat) :
    memory.overwrite offset [] = memory := by
  rcases memory with ⟨size, byte, small⟩
  simp only [overwrite, LinearMemory.mk.injEq, true_and]
  funext address
  split <;> rfl

theorem contents_overwrite_same (memory : LinearMemory limit) (offset : Nat) (bytes : List UInt8) :
    (memory.overwrite offset bytes).contents ⟨offset, bytes.length⟩ = bytes := by
  apply List.ext_getElem
  · exact contents_length ..
  · intro index inside within
    simp only [contents, List.getElem_map, List.getElem_range, overwrite]
    rw [if_pos (Nat.le_add_right _ _), Nat.add_sub_cancel_left, List.getElem?_eq_getElem within,
      Option.getD_some]

/-- A region splits at any of its bytes. -/
theorem contents_append (memory : LinearMemory limit) (start first second : Nat) :
    memory.contents ⟨start, first + second⟩ =
      memory.contents ⟨start, first⟩ ++ memory.contents ⟨start + first, second⟩ := by
  simp only [contents, List.range_add, List.map_append, List.map_map, Function.comp_def,
    Nat.add_assoc]

/-- Bytes that are put into a region, and are no more than it holds, are read back
from its beginning. -/
theorem contents_overwrite_take (memory : LinearMemory limit) (region : Region) (bytes : List UInt8)
    (fits : bytes.length ≤ region.length) :
    ((memory.overwrite region.start bytes).contents region).take bytes.length = bytes := by
  have cut : region = ⟨region.start, bytes.length + (region.length - bytes.length)⟩ := by
    rw [Nat.add_sub_cancel' fits]
  calc ((memory.overwrite region.start bytes).contents region).take bytes.length
    _ = ((memory.overwrite region.start bytes).contents
          ⟨region.start, bytes.length + (region.length - bytes.length)⟩).take bytes.length := by
      rw [← cut]
    _ = (memory.overwrite region.start bytes).contents ⟨region.start, bytes.length⟩ := by
      rw [contents_append]
      apply List.take_left'
      exact contents_length ..
    _ = bytes := contents_overwrite_same memory region.start bytes

def totalLength : List Region -> Nat
  | [] => 0
  | region :: regions => region.length + totalLength regions

theorem flatMap_contents_length (memory : LinearMemory limit) (regions : List Region) :
    (regions.flatMap memory.contents).length = totalLength regions := by
  induction regions with
  | nil => rfl
  | cons region regions inductionHypothesis =>
      rw [List.flatMap_cons, List.length_append, contents_length, inductionHypothesis, totalLength]

/-- The addresses in some regions. -/
private def addresses : List Region -> Finset Nat
  | [] => ∅
  | region :: regions => Finset.Ico region.start (region.start + region.length) ∪ addresses regions

private theorem mem_addresses (regions : List Region) (address : Nat) :
    address ∈ addresses regions ↔ Exists fun region => region ∈ regions ∧
      region.start ≤ address ∧ address < region.start + region.length := by
  induction regions with
  | nil => simp [addresses]
  | cons region regions inductionHypothesis =>
      simp [addresses, inductionHypothesis]

/-- Regions without a common byte fit into a memory only if their lengths do. -/
theorem totalLength_le (memory : LinearMemory limit) (regions : List Region)
    (apart : regions.Pairwise Region.Disjoint)
    (covered : forall region, region ∈ regions -> region.length ≠ 0 -> memory.Covers region) :
    totalLength regions ≤ memory.size := by
  have counted : (addresses regions).card = totalLength regions := by
    clear covered
    induction regions with
    | nil => rfl
    | cons region regions inductionHypothesis =>
        rcases List.pairwise_cons.mp apart with ⟨first, rest⟩
        rw [addresses, Finset.card_union_of_disjoint, Nat.card_Ico, inductionHypothesis rest,
          totalLength, Nat.add_sub_cancel_left]
        rw [Finset.disjoint_left]
        intro address inFirst inRest
        rcases (mem_addresses regions address).mp inRest with ⟨other, member, above, below⟩
        have separate := first other member
        rw [Finset.mem_Ico] at inFirst
        unfold Region.Disjoint at separate
        omega
  have inside : addresses regions ⊆ Finset.range memory.size := by
    intro address member
    rcases (mem_addresses regions address).mp member with ⟨region, listed, above, below⟩
    have within := covered region listed (by omega)
    unfold Covers at within
    rw [Finset.mem_range]
    omega
  rw [← counted]
  exact (Finset.card_le_card inside).trans (Finset.card_range memory.size).le

/-! ## Memories that differ in some regions -/

/-- Two memories have the same size, and the same byte at every address that is in
none of the regions. -/
structure AgreesOutside (regions : List Region) (memory other : LinearMemory limit) : Prop where
  size : other.size = memory.size
  byte : forall address,
    (forall region, region ∈ regions ->
      address < region.start ∨ region.start + region.length ≤ address) ->
    other.byte address = memory.byte address

namespace AgreesOutside

variable {regions : List Region} {memory other : LinearMemory limit}

theorem refl (regions : List Region) (memory : LinearMemory limit) :
    AgreesOutside regions memory memory :=
  ⟨rfl, fun _ _ => rfl⟩

theorem trans {last : LinearMemory limit} (first : AgreesOutside regions memory other)
    (second : AgreesOutside regions other last) : AgreesOutside regions memory last where
  size := second.size.trans first.size
  byte address outside := (second.byte address outside).trans (first.byte address outside)

/-- A write that stays inside one of the regions agrees outside of them. -/
theorem overwrite (memory : LinearMemory limit) {region : Region} (listed : region ∈ regions)
    {offset : Nat} {bytes : List UInt8} (above : region.start ≤ offset)
    (below : offset + bytes.length ≤ region.start + region.length) :
    AgreesOutside regions memory (memory.overwrite offset bytes) where
  size := rfl
  byte address outside := by
    apply overwrite_byte_outside
    have apart := outside region listed
    omega

/-- Memories that agree outside of some regions agree outside of larger ones. -/
theorem widen (agrees : AgreesOutside regions memory other) {wider : List Region}
    (within : forall region, region ∈ regions -> Exists fun outer => outer ∈ wider ∧
      outer.start ≤ region.start ∧ region.start + region.length ≤ outer.start + outer.length) :
    AgreesOutside wider memory other where
  size := agrees.size
  byte address outside := by
    apply agrees.byte
    intro region listed
    rcases within region listed with ⟨outer, member, above, below⟩
    have apart := outside outer member
    omega

/-- A region that is disjoint from all of these has the same contents in memories that
agree outside of them. -/
theorem contents (agrees : AgreesOutside regions memory other) {region : Region}
    (apart : forall changed, changed ∈ regions -> region.Disjoint changed) :
    other.contents region = memory.contents region := by
  apply List.map_congr_left
  intro index member
  have inside := List.mem_range.mp member
  apply agrees.byte
  intro changed listed
  have disjoint := apart changed listed
  unfold Region.Disjoint at disjoint
  omega

end AgreesOutside

/-! ## Scattered writes -/

/-- Bytes spread over some regions, each filled before the next. -/
def scatter : (memory : LinearMemory limit) -> (regions : List Region) -> (bytes : List UInt8) ->
    LinearMemory limit
  | memory, [], _ => memory
  | memory, region :: regions, bytes =>
      (memory.overwrite region.start (bytes.take region.length)).scatter regions
        (bytes.drop region.length)

@[simp] theorem scatter_size (memory : LinearMemory limit) (regions : List Region)
    (bytes : List UInt8) : (memory.scatter regions bytes).size = memory.size := by
  induction regions generalizing memory bytes with
  | nil => rfl
  | cons region regions inductionHypothesis =>
      rw [scatter, inductionHypothesis, overwrite_size]

theorem scatter_nil (memory : LinearMemory limit) (regions : List Region) :
    memory.scatter regions [] = memory := by
  induction regions with
  | nil => rfl
  | cons region regions inductionHypothesis =>
      rw [scatter, List.take_nil, List.drop_nil, overwrite_nil, inductionHypothesis]

/-- Bytes that fit into the first region all go there. -/
theorem scatter_first (memory : LinearMemory limit) {region : Region} (regions : List Region)
    {bytes : List UInt8} (fits : bytes.length ≤ region.length) :
    memory.scatter (region :: regions) bytes = memory.overwrite region.start bytes := by
  rw [scatter, List.take_of_length_le fits, List.drop_of_length_le fits, scatter_nil]

/-- Bytes that are enough for the first region fill it, and the rest of them is spread
over the others. -/
theorem scatter_full (memory : LinearMemory limit) {region : Region} (regions : List Region)
    {bytes : List UInt8} (full : bytes.length = region.length) (more : List UInt8) :
    memory.scatter (region :: regions) (bytes ++ more) =
      (memory.overwrite region.start bytes).scatter regions more := by
  rw [scatter, List.take_left' full, List.drop_left' full]

/-- Spreading leaves a region alone that is disjoint from all that are written. -/
theorem contents_scatter_disjoint (memory : LinearMemory limit) {regions : List Region}
    (bytes : List UInt8) {region : Region}
    (apart : forall other, other ∈ regions -> region.Disjoint other) :
    (memory.scatter regions bytes).contents region = memory.contents region := by
  induction regions generalizing memory bytes with
  | nil => rfl
  | cons first regions inductionHypothesis =>
      have written : region.Disjoint ⟨first.start, (bytes.take first.length).length⟩ := by
        apply Region.Disjoint.part (apart first List.mem_cons_self)
        · exact Nat.le_refl _
        · exact Nat.add_le_add_left (List.length_take_le _ _) _
      rw [scatter, inductionHypothesis _ _ fun other member =>
        apart other (List.mem_cons_of_mem _ member)]
      exact contents_overwrite_disjoint memory written

/-- What was spread over disjoint regions is read back from them in order. -/
theorem flatMap_contents_scatter (memory : LinearMemory limit) {regions : List Region}
    {bytes : List UInt8} (apart : regions.Pairwise Region.Disjoint)
    (fits : bytes.length ≤ totalLength regions) :
    (regions.flatMap (memory.scatter regions bytes).contents).take bytes.length = bytes := by
  induction regions generalizing memory bytes with
  | nil =>
      have empty : bytes = [] := List.length_eq_zero_iff.mp (Nat.le_zero.mp fits)
      subst empty
      rfl
  | cons region regions inductionHypothesis =>
      rcases List.pairwise_cons.mp apart with ⟨first, rest⟩
      simp only [totalLength] at fits
      have fewer : (bytes.drop region.length).length ≤ totalLength regions := by
        rw [List.length_drop]
        omega
      have rest := inductionHypothesis (memory.overwrite region.start (bytes.take region.length))
        rest fewer
      have kept := contents_scatter_disjoint
        (memory.overwrite region.start (bytes.take region.length)) (bytes.drop region.length) first
      have here := contents_overwrite_take memory region (bytes.take region.length)
        (List.length_take_le _ _)
      rw [List.flatMap_cons, scatter, kept]
      rw [List.length_drop] at rest
      by_cases enough : bytes.length ≤ region.length
      · rw [List.take_of_length_le enough] at here ⊢
        rw [List.take_append_of_le_length (by rw [contents_length]; exact enough)]
        exact here
      · rw [List.length_take, Nat.min_eq_left (by omega)] at here
        rw [List.take_append, contents_length, rest]
        rw [List.take_of_length_le (by rw [contents_length]; omega)]
        rw [List.take_of_length_le (by rw [contents_length])] at here
        rw [here, List.take_append_drop]

end LinearMemory

/-! ## Little-endian numbers -/

/-- The number that some bytes stand for when the least significant comes first. -/
def leNat : List UInt8 -> Nat
  | [] => 0
  | byte :: bytes => byte.toNat + 256 * leNat bytes

/-- The little-endian bytes of a number, as many as asked for. -/
def leBytes : (count : Nat) -> (value : Nat) -> List UInt8
  | 0, _ => []
  | count + 1, value => UInt8.ofNat value :: leBytes count (value / 256)

@[simp] theorem leBytes_length (count value : Nat) : (leBytes count value).length = count := by
  induction count generalizing value with
  | zero => rfl
  | succ count inductionHypothesis => rw [leBytes, List.length_cons, inductionHypothesis]

theorem leNat_lt (bytes : List UInt8) : leNat bytes < 256 ^ bytes.length := by
  induction bytes with
  | nil => exact Nat.one_pos
  | cons byte bytes inductionHypothesis =>
      rw [leNat, List.length_cons, Nat.pow_succ]
      have small := byte.toNat_lt
      omega

/-- A number that fits is read back from its bytes. -/
theorem leNat_leBytes {count value : Nat} (fits : value < 256 ^ count) :
    leNat (leBytes count value) = value := by
  induction count generalizing value with
  | zero =>
      rw [Nat.pow_zero] at fits
      rw [leBytes, leNat]
      omega
  | succ count inductionHypothesis =>
      rw [Nat.pow_succ] at fits
      have quotient : value / 256 < 256 ^ count := by
        apply Nat.div_lt_of_lt_mul
        rw [Nat.mul_comm]
        exact fits
      rw [leBytes, leNat, inductionHypothesis quotient, UInt8.toNat_ofNat']
      omega

theorem LinearMemory.contents_overwrite_leBytes {limit : Nat} (memory : LinearMemory limit)
    (offset count value : Nat) :
    (memory.overwrite offset (leBytes count value)).contents ⟨offset, count⟩ =
      leBytes count value := by
  have same := memory.contents_overwrite_same offset (leBytes count value)
  rwa [leBytes_length] at same

end Foundation
end WasmiPlugin
