import WasmiPlugin.Wasi.HostFunctions

namespace WasmiPlugin
namespace Wasi

open Foundation

/-!
# Tables of records

`fd_read` and `fd_write` follow a table of records `{ buf: u32, len: u32 }` in
the guest's memory.  The rules here say what the steps of the two loops do when
their accesses lie within the memory, for any postcondition.
-/

theorem turns_small (count : Int32) : turns count ≤ 2 ^ 31 := by
  have below := count.toInt_lt
  unfold turns
  omega

/-- Only stdout and stderr can be written to. -/
theorem Host.writable_stream {ctx : WasiCtx} {fd : Int32} (opened : writable ctx fd = true) :
    fd = 1 ∨ fd = 2 := by
  unfold writable at opened
  split at opened
  · next stdout => exact .inl stdout
  · split at opened
    · next stderr => exact .inr stderr
    · cases opened

variable [HostTarget]

/-- The two fields of a record `{ buf: u32, len: u32 }`. -/
def recordAt (memory : GuestMemory) (base : Nat) : Nat × Nat :=
  (leNat (memory.contents ⟨base, 4⟩), leNat (memory.contents ⟨base + 4, 4⟩))

/-- The buffer that a record describes. -/
def bufferAt (memory : GuestMemory) (base : Nat) : Region :=
  ⟨(recordAt memory base).1, (recordAt memory base).2⟩

def buffersAt (memory : GuestMemory) : (base count : Nat) -> List Region
  | _, 0 => []
  | base, count + 1 => bufferAt memory base :: buffersAt memory (base + 8) count

/-- A record that a loop gets past without a panic: it lies within the memory, and a
vector of its length can be allocated. -/
def SafeRecord (memory : GuestMemory) (base : Nat) : Prop :=
  memory.Covers ⟨base, 8⟩ ∧ (bufferAt memory base).length ≤ isizeMax

instance (memory : GuestMemory) (base : Nat) : Decidable (SafeRecord memory base) :=
  inferInstanceAs (Decidable (_ ∧ _))

/-- A buffer within the memory is no longer than the memory. -/
theorem bufferAt_le_isizeMax {memory : GuestMemory} {base : Nat}
    (covered : memory.Covers (bufferAt memory base)) :
    (bufferAt memory base).length ≤ isizeMax := by
  have size := GuestMemory.size_le_isizeMax memory
  simp only [LinearMemory.Covers] at covered
  omega

theorem recordAt_small (memory : GuestMemory) (base : Nat) :
    (recordAt memory base).2 < 2 ^ 32 := by
  have bound := leNat_lt (memory.contents ⟨base + 4, 4⟩)
  rw [LinearMemory.contents_length] at bound
  exact bound

theorem recordAt_overwrite (memory : GuestMemory) {base offset : Nat} {bytes : List UInt8}
    (apart : Region.Disjoint ⟨offset, bytes.length⟩ ⟨base, 8⟩) :
    recordAt (memory.overwrite offset bytes) base = recordAt memory base := by
  have first : Region.Disjoint ⟨base, 4⟩ ⟨offset, bytes.length⟩ := by
    apply Region.Disjoint.symm
    apply apart.part (Nat.le_refl _)
    dsimp only
    omega
  have second : Region.Disjoint ⟨base + 4, 4⟩ ⟨offset, bytes.length⟩ := by
    apply Region.Disjoint.symm
    exact apart.part (Nat.le_add_right _ _) (Nat.le_refl _)
  unfold recordAt
  rw [LinearMemory.contents_overwrite_disjoint memory first,
    LinearMemory.contents_overwrite_disjoint memory second]

/-- A table of records that a write does not touch describes the same buffers as
before. -/
theorem buffersAt_overwrite (memory : GuestMemory) {base count offset : Nat}
    {bytes : List UInt8}
    (apart : Region.Disjoint ⟨offset, bytes.length⟩ ⟨base, count * 8⟩) :
    buffersAt (memory.overwrite offset bytes) base count = buffersAt memory base count := by
  induction count generalizing base with
  | zero => rfl
  | succ count inductionHypothesis =>
      have first : Region.Disjoint ⟨offset, bytes.length⟩ ⟨base, 8⟩ := by
        apply apart.part (Nat.le_refl _)
        dsimp only
        omega
      have rest : Region.Disjoint ⟨offset, bytes.length⟩ ⟨base + 8, count * 8⟩ := by
        apply apart.part (Nat.le_add_right _ _)
        dsimp only
        omega
      simp only [buffersAt, bufferAt, recordAt_overwrite memory first, inductionHypothesis rest]

namespace Host

variable {caller : Caller} {ends : Ending -> Caller -> Prop}

theorem wp_iovec (ptr : Int32) {index : Nat}
    (covered : caller.memory.Covers ⟨asUsize ptr + index * 8, 8⟩)
    {post : Nat × Nat -> Caller -> Prop} :
    (iovec ptr index).wp post ends caller ↔
      post (recordAt caller.memory (asUsize ptr + index * 8)) caller := by
  have small := GuestMemory.size_le caller.memory
  have lengths := targetBounds.lengths
  have first : caller.memory.Covers ⟨asUsize ptr + index * 8, 4⟩ := by
    simp only [LinearMemory.Covers] at covered ⊢
    omega
  have second : caller.memory.Covers ⟨asUsize ptr + index * 8 + 4, 4⟩ := by
    simp only [LinearMemory.Covers] at covered ⊢
    omega
  simp only [LinearMemory.Covers] at covered
  simp only [iovec, Program.wp_bind, wp_usize, wp_readMemory, Program.wp_pure, recordAt]
  rw [if_pos (by omega), if_pos (by omega), if_pos first, if_pos (by omega), if_pos second]

/-- For endings that exclude a panic, reading a record comes to its two fields, and
the record has to lie within the memory. -/
theorem wp_iovec_iff (noPanic : forall after, ¬ ends .panic after) (ptr : Int32) {index : Nat}
    {post : Nat × Nat -> Caller -> Prop} :
    (iovec ptr index).wp post ends caller ↔
      caller.memory.Covers ⟨asUsize ptr + index * 8, 8⟩ ∧
        post (recordAt caller.memory (asUsize ptr + index * 8)) caller := by
  by_cases covered : caller.memory.Covers ⟨asUsize ptr + index * 8, 8⟩
  · rw [wp_iovec ptr covered]
    simp only [covered, true_and]
  · simp only [covered, false_and, iff_false]
    intro holds
    simp only [iovec, Program.wp_bind, wp_usize, wp_readMemory, Program.wp_pure, noPanic] at holds
    split at holds
    · split at holds
      · split at holds
        · split at holds
          · split at holds
            · next second =>
                simp only [LinearMemory.Covers] at second covered
                omega
            · exact holds
          · exact holds
        · exact holds
      · exact holds
    · exact holds

/-- For endings that exclude a panic, arithmetic in `usize` comes to the number, which
has to fit. -/
theorem wp_usize_iff (noPanic : forall after, ¬ ends .panic after) (value : Nat)
    {post : Nat -> Caller -> Prop} :
    (usize value).wp post ends caller ↔ value < usizeModulus ∧ post value caller := by
  rw [wp_usize]
  split
  · next fits => exact ⟨fun holds => ⟨fits, holds⟩, fun holds => holds.2⟩
  · next large => exact iff_of_false (noPanic caller) (fun holds => large holds.1)

/-- For endings that exclude a panic, an allocation goes through, and the length must
not be more than `isize::MAX`. -/
theorem wp_allocate_iff (noPanic : forall after, ¬ ends .panic after) (length : Nat)
    {post : PUnit -> Caller -> Prop} :
    (allocate length).wp post ends caller ↔ length ≤ isizeMax ∧ post ⟨⟩ caller := by
  rw [allocate, Program.wp_ite]
  split
  · next fits => exact ⟨fun holds => ⟨fits, holds⟩, fun holds => holds.2⟩
  · next large => exact iff_of_false (noPanic caller) (fun holds => large holds.1)

theorem wp_allocate {length : Nat} (fits : length ≤ isizeMax) {post : PUnit -> Caller -> Prop} :
    (allocate length).wp post ends caller ↔ post ⟨⟩ caller := by
  simp only [allocate, if_pos fits, Program.wp_pure]

/-- A read of stdin gives data, or ends the call with `Badf` or `Again`. -/
theorem wp_readStdin (room : Nat) {post : List UInt8 -> Caller -> Prop} :
    (readStdin room).wp post ends caller ↔
      match caller.ctx.stdinReader with
      | none => ends (.errno .badf) caller
      | some reader =>
          match reader.read caller.stdin room with
          | (.ok data, reader, pipe) => post data { caller with
              ctx := { caller.ctx with stdinReader := some reader }
              stdin := pipe }
          | (.wouldBlock, reader, pipe) => ends (.errno .again) { caller with
              ctx := { caller.ctx with stdinReader := some reader, awaitingStdin := true }
              stdin := pipe
              fuel := 0 } := by
  simp only [readStdin, Program.wp_bind, Program.wp_look, id]
  cases caller.ctx.stdinReader with
  | none => exact Iff.rfl
  | some reader =>
      dsimp only
      rcases reader.read caller.stdin room with ⟨result, reader, pipe⟩
      cases result with
      | ok data => exact Iff.rfl
      | wouldBlock => exact Iff.rfl

end Host

end Wasi
end WasmiPlugin
