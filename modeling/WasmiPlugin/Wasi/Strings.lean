import WasmiPlugin.Wasi.Frames
import WasmiPlugin.Wasi.Survival

namespace WasmiPlugin
namespace Wasi

open Foundation

/-!
# The two calls for a list of strings

A guest fetches its arguments, and its environment, in two calls.  The first
says how much room is needed.  The second fills a table with addresses and a
buffer with the strings.  They walk over the list separately: one adds up sizes,
the other moves two pointers, and the guest relies on both walks ending at the
same place.

A walk is described by what it leaves in the memory.  The description of a list
is put together from what its first string does and the description of the rest,
whose table and buffer begin where the two pointers then stand.
-/

/-! ## The bytes and their places -/

/-- The bytes of some strings, each followed by a NUL. -/
def terminated (strings : List (List UInt8)) : List UInt8 :=
  strings.flatMap fun string => string ++ [0]

@[simp] theorem terminated_nil : terminated [] = [] := rfl

theorem terminated_cons (string : List UInt8) (strings : List (List UInt8)) :
    terminated (string :: strings) = (string ++ [0]) ++ terminated strings := rfl

theorem terminated_cons_length (string : List UInt8) (strings : List (List UInt8)) :
    (terminated (string :: strings)).length = string.length + 1 + (terminated strings).length := by
  rw [terminated_cons, List.length_append, List.length_append, List.length_singleton]

/-- Every string takes at least the byte for its NUL. -/
theorem length_le_terminated (strings : List (List UInt8)) :
    strings.length ≤ (terminated strings).length := by
  induction strings with
  | nil => exact Nat.le_refl 0
  | cons string strings inductionHypothesis =>
      rw [terminated_cons_length, List.length_cons]
      omega

/-- The sum of the sizes is the size of the buffer, if that is a `u32`. -/
theorem stringsSize_eq {strings : List (List UInt8)}
    (small : (terminated strings).length < 2 ^ 32) :
    stringsSize strings = (terminated strings).length := by
  induction strings with
  | nil => rfl
  | cons string strings inductionHypothesis =>
      rw [terminated_cons_length] at small ⊢
      rw [stringsSize, Nat.mod_eq_of_lt (by omega), inductionHypothesis (by omega)]

/-- The table with an address for each string. -/
def tableRegion (table : Nat) (strings : List (List UInt8)) : Region :=
  ⟨table, 4 * strings.length⟩

def bufferRegion (buf : Nat) (strings : List (List UInt8)) : Region :=
  ⟨buf, (terminated strings).length⟩

/-- The address of a string in the buffer. -/
def stringAddress (buf : Nat) (strings : List (List UInt8)) (index : Nat) : Nat :=
  buf + (terminated (strings.take index)).length

private theorem tail_within (string : List UInt8) (strings : List (List UInt8))
    (table buf : Nat) (region : Region)
    (listed : region ∈ [tableRegion (table + 4) strings,
      bufferRegion (buf + (string.length + 1)) strings]) :
    Exists fun outer =>
      outer ∈ [tableRegion table (string :: strings), bufferRegion buf (string :: strings)] ∧
      outer.start ≤ region.start ∧ region.start + region.length ≤ outer.start + outer.length := by
  rcases List.mem_pair.mp listed with rfl | rfl
  · refine ⟨_, List.mem_cons_self, ?_⟩
    simp only [tableRegion, List.length_cons]
    omega
  · refine ⟨_, List.mem_cons_of_mem _ List.mem_cons_self, ?_⟩
    simp only [bufferRegion, terminated_cons_length]
    omega

section Target

variable [HostTarget]

/-! ## The two lists -/

/-- The two lists that a guest can ask for. -/
inductive Listing where
  | args
  | environ

namespace Listing

def strings : Listing -> WasiCtx -> List (List UInt8)
  | args => WasiCtx.args
  | environ => WasiCtx.env

def sizesGet : Listing -> (offset0 offset1 : UInt32) -> HostCall
  | args => .argsSizesGet
  | environ => .environSizesGet

def get : Listing -> (table buf : UInt32) -> HostCall
  | args => .argsGet
  | environ => .environGet

theorem sizesGet_body (listing : Listing) (platform : Platform) (offset0 offset1 : UInt32) :
    (listing.sizesGet offset0 offset1).body platform =
      Host.stringsSizesGet listing.strings offset0 offset1 := by
  cases listing <;> rfl

theorem get_body (listing : Listing) (platform : Platform) (table buf : UInt32) :
    (listing.get table buf).body platform = Host.stringsGet listing.strings table buf := by
  cases listing <;> rfl

theorem frame_same (listing : Listing) :
    Frame fun before after => listing.strings after.ctx = listing.strings before.ctx where
  refl _ := rfl
  trans _ _ _ first second := second.trans first
  strayed _ _ := rfl
  memory _ _ := rfl
  fuel _ := rfl
  stdin _ _ _ _ := by cases listing <;> rfl
  starved _ _ _ _ := by cases listing <;> rfl
  stdout _ _ _ := rfl
  stderr _ _ _ := rfl

/-- A guest that has asked for the sizes asks for the same strings, whatever it
has called in between. -/
theorem perform_same (listing : Listing) (platform : Platform) (call : HostCall)
    (caller : Caller) :
    listing.strings (call.perform platform caller).2.ctx = listing.strings caller.ctx := by
  refine call.perform_within listing.frame_same platform caller (fun fd _ => ?_)
    (fun _ _ _ _ _ now deadline => ?_)
  · apply Host.fdClose_within listing.frame_same
    all_goals
      intros
      cases listing <;> rfl
  · apply Host.awaitDeadline_within listing.frame_same
    intros
    cases listing <;> rfl

end Listing

/-! ## The strings in the memory -/

/-- The strings are in the buffer, their addresses are in the table, and nothing
else has changed. -/
structure StringsPlaced (strings : List (List UInt8)) (table buf : Nat)
    (memory after : GuestMemory) : Prop where
  buffer : after.contents (bufferRegion buf strings) = terminated strings
  entry : forall index, index < strings.length ->
    leNat (after.contents ⟨table + 4 * index, 4⟩) = stringAddress buf strings index
  string : forall index (inside : index < strings.length),
    after.contents ⟨stringAddress buf strings index, strings[index].length + 1⟩ =
      strings[index] ++ [0]
  agrees : LinearMemory.AgreesOutside [tableRegion table strings, bufferRegion buf strings]
    memory after

theorem StringsPlaced.nil (table buf : Nat) (memory : GuestMemory) :
    StringsPlaced [] table buf memory memory where
  buffer := rfl
  entry index inside := absurd inside (Nat.not_lt_zero index)
  string index inside := absurd inside (Nat.not_lt_zero index)
  agrees := .refl _ memory

private def placeFirst (string : List UInt8) (table buf : Nat) (memory : GuestMemory) :
    GuestMemory :=
  (memory.overwrite table (leBytes 4 buf)).overwrite buf (string ++ [0])

private theorem placeFirst_agrees (string : List UInt8) (strings : List (List UInt8))
    (table buf : Nat) (memory : GuestMemory) :
    LinearMemory.AgreesOutside
      [tableRegion table (string :: strings), bufferRegion buf (string :: strings)]
      memory (placeFirst string table buf memory) := by
  refine .trans (.overwrite memory List.mem_cons_self (Nat.le_refl _) ?_)
    (.overwrite _ (List.mem_cons_of_mem _ List.mem_cons_self) (Nat.le_refl _) ?_)
  · simp only [tableRegion, leBytes_length, List.length_cons]
    omega
  · simp only [bufferRegion, terminated_cons_length, List.length_append, List.length_singleton]
    omega

/-- The first string and the rest, placed behind it. -/
private theorem StringsPlaced.cons {string : List UInt8} {strings : List (List UInt8)}
    {table buf : Nat} {memory after : GuestMemory}
    (covered : memory.Covers (bufferRegion buf (string :: strings)))
    (apart : (tableRegion table (string :: strings)).Disjoint
      (bufferRegion buf (string :: strings)))
    (rest : StringsPlaced strings (table + 4) (buf + (string.length + 1))
      (placeFirst string table buf memory) after) :
    StringsPlaced (string :: strings) table buf memory after := by
  have size := terminated_cons_length string strings
  have length : (string ++ [0]).length = string.length + 1 := List.length_append
  have small := GuestMemory.size_le memory
  simp only [LinearMemory.Covers, bufferRegion, size] at covered
  simp only [Region.Disjoint, tableRegion, bufferRegion, size, List.length_cons] at apart
  -- What is placed first is not touched by the rest.
  have head : after.contents ⟨buf, string.length + 1⟩ = string ++ [0] := by
    rw [rest.agrees.contents, ← length]
    · exact LinearMemory.contents_overwrite_same _ _ _
    · simp only [List.forall_mem_cons, List.not_mem_nil, false_implies, implies_true, and_true,
        Region.Disjoint, tableRegion, bufferRegion]
      omega
  have first : after.contents ⟨table, 4⟩ = leBytes 4 buf := by
    rw [rest.agrees.contents, placeFirst, LinearMemory.contents_overwrite_disjoint]
    · exact LinearMemory.contents_overwrite_leBytes _ _ _ _
    · simp only [Region.Disjoint, length]
      omega
    · simp only [List.forall_mem_cons, List.not_mem_nil, false_implies, implies_true, and_true,
        Region.Disjoint, tableRegion, bufferRegion]
      omega
  refine ⟨?_, fun index inside => ?_, fun index inside => ?_, ?_⟩
  · rw [bufferRegion, size, LinearMemory.contents_append, head, terminated_cons]
    exact congrArg (string ++ [0] ++ ·) rest.buffer
  · cases index with
    | zero =>
        rw [Nat.mul_zero, Nat.add_zero, first, leNat_leBytes (by omega), stringAddress,
          List.take_zero]
        rfl
    | succ index =>
        have later := rest.entry index (Nat.lt_of_succ_lt_succ inside)
        rw [show table + 4 * (index + 1) = table + 4 + 4 * index by omega, later, stringAddress,
          stringAddress, List.take_succ_cons, terminated_cons_length]
        omega
  · cases index with
    | zero => exact head
    | succ index =>
        have later := rest.string index (Nat.lt_of_succ_lt_succ inside)
        rw [stringAddress, Nat.add_assoc, ← terminated_cons_length, ← List.take_succ_cons] at later
        exact later
  · apply (placeFirst_agrees string strings table buf memory).trans
    exact rest.agrees.widen (tail_within string strings table buf)

/-! ## The walk with the two pointers -/

/-- One turn of the walk, with the `usize` arithmetic done: an address that is
covered is far from the end of that range. -/
private theorem wp_writeStrings_cons (string : List UInt8) (strings : List (List UInt8))
    (table buf : Nat) {caller : Caller} {post ends : Ending -> Caller -> Prop} :
    (Host.writeStrings (string :: strings) table buf).wp post ends caller ↔
      if caller.memory.Covers ⟨table, 4⟩ then
        if caller.memory.Covers ⟨buf, string.length + 1⟩ then
          (Host.writeStrings strings (table + 4) (buf + (string.length + 1))).wp post ends
            { caller with memory := placeFirst string table buf caller.memory }
        else ends (.errno .fault) { caller with
          memory := caller.memory.overwrite table (leBytes 4 buf)
          strayed := true }
      else ends (.errno .fault) { caller with strayed := true } := by
  have small := GuestMemory.size_le_isizeMax caller.memory
  have isize := targetBounds.isize
  simp only [Host.writeStrings, Host.writePointerAndString, Program.wp_bind, Host.wp_writeMemory,
    Host.wp_usize, Program.wp_pure, LinearMemory.overwrite_covers, leBytes_length,
    List.length_append, List.length_singleton]
  by_cases entry : caller.memory.Covers ⟨table, 4⟩
  · have entryBelow : table + 4 < usizeModulus := by
      unfold LinearMemory.Covers at entry
      dsimp only at entry
      omega
    rw [if_pos entry, if_pos entry, if_pos entryBelow]
    by_cases place : caller.memory.Covers ⟨buf, string.length + 1⟩
    · have placeBelow : buf + (string.length + 1) < usizeModulus := by
        unfold LinearMemory.Covers at place
        dsimp only at place
        omega
      rw [if_pos place, if_pos place, if_pos placeBelow]
      exact Iff.rfl
    · rw [if_neg place, if_neg place]
  · rw [if_neg entry, if_neg entry]

private theorem writeStrings_placed (strings : List (List UInt8)) (table buf : Nat)
    {caller : Caller} (tableCovered : caller.memory.Covers (tableRegion table strings))
    (bufferCovered : caller.memory.Covers (bufferRegion buf strings))
    (apart : (tableRegion table strings).Disjoint (bufferRegion buf strings)) :
    (Host.writeStrings strings table buf).wp
      (fun ending after => ending = .errno .success ∧
        StringsPlaced strings table buf caller.memory after.memory)
      (fun _ _ => False) caller := by
  induction strings generalizing table buf caller with
  | nil => exact ⟨rfl, .nil table buf caller.memory⟩
  | cons string strings inductionHypothesis =>
      have size := terminated_cons_length string strings
      rw [wp_writeStrings_cons, if_pos, if_pos]
      · refine Program.wp_mono
          (inductionHypothesis (table + 4) (buf + (string.length + 1)) ?_ ?_ ?_)
          (fun ending after placed => ⟨placed.1, .cons bufferCovered apart placed.2⟩)
          (fun ending after impossible => impossible)
        · simp only [LinearMemory.Covers, tableRegion, List.length_cons, placeFirst,
            LinearMemory.overwrite_size] at tableCovered ⊢
          omega
        · simp only [LinearMemory.Covers, bufferRegion, size, placeFirst,
            LinearMemory.overwrite_size] at bufferCovered ⊢
          omega
        · simp only [Region.Disjoint, tableRegion, bufferRegion, size, List.length_cons] at apart ⊢
          omega
      · simp only [LinearMemory.Covers, bufferRegion, size] at bufferCovered ⊢
        omega
      · simp only [LinearMemory.Covers, tableRegion, List.length_cons] at tableCovered ⊢
        omega

/-- If a region is not there, the walk stops with a fault inside the two regions. -/
private theorem writeStrings_fault (strings : List (List UInt8)) (table buf : Nat)
    {caller : Caller} (some : strings ≠ [])
    (outside : ¬ (caller.memory.Covers (tableRegion table strings) ∧
      caller.memory.Covers (bufferRegion buf strings))) :
    (Host.writeStrings strings table buf).wp (fun _ _ => False)
      (fun ending after => ending = .errno .fault ∧
        LinearMemory.AgreesOutside [tableRegion table strings, bufferRegion buf strings]
          caller.memory after.memory) caller := by
  induction strings generalizing table buf caller with
  | nil => exact absurd rfl some
  | cons string strings inductionHypothesis =>
      have size := terminated_cons_length string strings
      simp only [LinearMemory.Covers, tableRegion, bufferRegion, size, List.length_cons] at outside
      rw [wp_writeStrings_cons]
      split
      · next entry =>
          unfold LinearMemory.Covers at entry
          dsimp only at entry
          split
          · next place =>
              unfold LinearMemory.Covers at place
              dsimp only at place
              -- Both regions end where those of the rest end.
              have more : strings ≠ [] := by
                rintro rfl
                simp only [terminated_nil, List.length_nil] at outside
                omega
              refine Program.wp_mono (inductionHypothesis (table + 4) (buf + (string.length + 1))
                more ?_) (fun ending after impossible => impossible)
                fun ending after stopped => ⟨stopped.1, ?_⟩
              · simp only [LinearMemory.Covers, tableRegion, bufferRegion, placeFirst,
                  LinearMemory.overwrite_size]
                omega
              · apply (placeFirst_agrees string strings table buf caller.memory).trans
                exact stopped.2.widen (tail_within string strings table buf)
          · refine ⟨rfl, .overwrite _ List.mem_cons_self (Nat.le_refl _) ?_⟩
            simp only [tableRegion, leBytes_length, List.length_cons]
            omega
      · exact ⟨rfl, .refl _ _⟩

/-! ## The agreement -/

def Caller.stored (caller : Caller) (address : UInt32) : Nat :=
  leNat (caller.memory.contents ⟨address.toNat, 4⟩)

/-- What the two calls promise to each other: the first reports the number of the
strings and the size of the buffer, and the second, given two disjoint regions of
just that size, fills both, or ends with a fault without leaving them. -/
structure CallsAgree (strings : List (List UInt8)) (sized got : Ending × Caller)
    (offset0 offset1 table buf : UInt32) (memory : GuestMemory) : Prop where
  sizes : sized.1 = .errno .success
  count : sized.2.stored offset0 = strings.length
  size : sized.2.stored offset1 = (terminated strings).length
  placed : Region.Disjoint ⟨table.toNat, 4 * sized.2.stored offset0⟩
      ⟨buf.toNat, sized.2.stored offset1⟩ ->
    memory.Covers ⟨table.toNat, 4 * sized.2.stored offset0⟩ ->
    memory.Covers ⟨buf.toNat, sized.2.stored offset1⟩ ->
    got.1 = .errno .success ∧
      StringsPlaced strings table.toNat buf.toNat memory got.2.memory
  fault : Region.Disjoint ⟨table.toNat, 4 * sized.2.stored offset0⟩
      ⟨buf.toNat, sized.2.stored offset1⟩ ->
    strings ≠ [] ->
    ¬ (memory.Covers ⟨table.toNat, 4 * sized.2.stored offset0⟩ ∧
      memory.Covers ⟨buf.toNat, sized.2.stored offset1⟩) ->
    got.1 = .errno .fault ∧
      LinearMemory.AgreesOutside
        [⟨table.toNat, 4 * sized.2.stored offset0⟩, ⟨buf.toNat, sized.2.stored offset1⟩]
        memory got.2.memory

private theorem sizesGet_stored (listing : Listing) (platform : Platform)
    (offset0 offset1 : UInt32) (caller : Caller)
    (small : (terminated (listing.strings caller.ctx)).length < 2 ^ 32)
    (countCovered : caller.memory.Covers ⟨offset0.toNat, 4⟩)
    (sizeCovered : caller.memory.Covers ⟨offset1.toNat, 4⟩)
    (apart : Region.Disjoint ⟨offset0.toNat, 4⟩ ⟨offset1.toNat, 4⟩) :
    ((listing.sizesGet offset0 offset1).perform platform caller).1 = .errno .success ∧
      ((listing.sizesGet offset0 offset1).perform platform caller).2.stored offset0 =
        (listing.strings caller.ctx).length ∧
      ((listing.sizesGet offset0 offset1).perform platform caller).2.stored offset1 =
        (terminated (listing.strings caller.ctx)).length := by
  have fewer := length_le_terminated (listing.strings caller.ctx)
  rw [(listing.sizesGet offset0 offset1).perform_wp platform caller fun ending after =>
    ending = .errno .success ∧ after.stored offset0 = (listing.strings caller.ctx).length ∧
      after.stored offset1 = (terminated (listing.strings caller.ctx)).length]
  simp only [Listing.sizesGet_body, Host.stringsSizesGet, Program.wp_bind, Program.wp_look,
    Program.wp_pure]
  rw [Host.wp_sumSizes (fun _ panicked => Ending.noConfusion panicked.1) _ 0 (by decide),
    Nat.zero_add, stringsSize_eq small]
  refine ⟨small, ?_⟩
  simp only [Host.wp_writeMemory, leBytes_length, LinearMemory.overwrite_covers,
    if_pos countCovered, if_pos sizeCovered, Caller.stored]
  refine ⟨trivial, ?_, ?_⟩
  · rw [LinearMemory.contents_overwrite_disjoint _ (by rw [leBytes_length]; exact apart),
      LinearMemory.contents_overwrite_leBytes, leNat_leBytes (by omega)]
  · rw [LinearMemory.contents_overwrite_leBytes, leNat_leBytes small]

/-- The calls for the arguments agree, and so do those for the environment.
Between the two calls the guest may do with its memory what it likes. -/
theorem strings_calls_agree (listing : Listing) (platform platform' : Platform)
    (caller caller' : Caller) (same : listing.strings caller'.ctx = listing.strings caller.ctx)
    (offset0 offset1 table buf : UInt32)
    (small : (terminated (listing.strings caller.ctx)).length < 2 ^ 32)
    (countCovered : caller.memory.Covers ⟨offset0.toNat, 4⟩)
    (sizeCovered : caller.memory.Covers ⟨offset1.toNat, 4⟩)
    (apart : Region.Disjoint ⟨offset0.toNat, 4⟩ ⟨offset1.toNat, 4⟩) :
    CallsAgree (listing.strings caller.ctx)
      ((listing.sizesGet offset0 offset1).perform platform caller)
      ((listing.get table buf).perform platform' caller')
      offset0 offset1 table buf caller'.memory := by
  rcases sizesGet_stored listing platform offset0 offset1 caller small countCovered sizeCovered
    apart with ⟨sizes, count, size⟩
  have walk (outcome : Ending -> Caller -> Prop) :
      outcome ((listing.get table buf).perform platform' caller').1
          ((listing.get table buf).perform platform' caller').2 ↔
        (Host.writeStrings (listing.strings caller.ctx) table.toNat buf.toNat).wp outcome outcome
          { caller' with strayed := false } := by
    rw [HostCall.perform_wp platform' _ caller' outcome, Listing.get_body, Host.stringsGet,
      Program.wp_bind, Program.wp_look, ← same]
  refine ⟨sizes, count, size, ?_, ?_⟩
  · rw [count, size]
    intro disjoint tableCovered bufferCovered
    apply (walk fun ending after => ending = .errno .success ∧
      StringsPlaced _ table.toNat buf.toNat caller'.memory after.memory).mpr
    exact Program.wp_mono
      (writeStrings_placed _ table.toNat buf.toNat tableCovered bufferCovered disjoint)
      (fun _ _ placed => placed) (fun _ _ impossible => impossible.elim)
  · rw [count, size]
    intro disjoint some outside
    apply (walk fun ending after => ending = .errno .fault ∧
      LinearMemory.AgreesOutside _ caller'.memory after.memory).mpr
    exact Program.wp_mono (writeStrings_fault _ table.toNat buf.toNat some outside)
      (fun _ _ impossible => impossible.elim) (fun _ _ stopped => stopped)

end Target

def threeStrings : List (List UInt8) := [[97], [], [195, 169]]

def stringsCaller : Caller :=
  { onePageCaller with ctx := { onePageCaller.ctx with args := threeStrings } }

/-- The guest after it has asked for the sizes. -/
def sizedCaller : Caller :=
  ((Listing.args.sizesGet 0 4).perform earlyPlatform stringsCaller).2

/-- The three arguments are reported at 0 and 4 and placed at 16 and 32. -/
theorem three_strings_agree :
    CallsAgree threeStrings ((Listing.args.sizesGet 0 4).perform earlyPlatform stringsCaller)
      ((Listing.args.get 16 32).perform earlyPlatform sizedCaller) 0 4 16 32
      sizedCaller.memory :=
  strings_calls_agree .args earlyPlatform earlyPlatform stringsCaller sizedCaller
    (Listing.args.perform_same earlyPlatform (Listing.args.sizesGet 0 4) stringsCaller) 0 4 16 32
    (by decide) (by decide) (by decide) (by decide)

end Wasi
end WasmiPlugin
