import WasmiPlugin.Wasi.Records

namespace WasmiPlugin
namespace Wasi

open Foundation

/-!
# What `fd_write` reports

`fd_write` takes its buffers one at a time, and each goes out before the next is
looked at.  So a record or a buffer outside the memory is noticed when the buffers
before it have already been written, and the place of the count is tried when
everything has.

What the call comes to is an equivalence for every postcondition that no panic
satisfies: the leading records that pass go out, and the first that does not pass,
or the place of the count, decides how the call ends.
-/

section Target

variable [HostTarget]

def Caller.sent (fd : Int32) (bytes : List UInt8) (caller : Caller) : Caller :=
  if fd = 1 then { caller with stdout := (caller.stdout.write bytes).2.2 }
  else { caller with stderr := (caller.stderr.write bytes).2.2 }

/-- The caller after some buffers went out, one after the other. -/
def Caller.sentAll (fd : Int32) : (buffers : List Region) -> (caller : Caller) -> Caller
  | [], caller => caller
  | buffer :: buffers, caller =>
      (caller.sent fd (caller.memory.contents buffer)).sentAll fd buffers

/-- `fd_write` passes a record: it and its buffer lie within the memory, and the
descriptor is open. -/
def PassesRecord (caller : Caller) (fd : Int32) (base : Nat) : Prop :=
  caller.memory.Covers ⟨base, 8⟩ ∧ caller.memory.Covers (bufferAt caller.memory base) ∧
    Host.writable caller.ctx fd = true

instance (caller : Caller) (fd : Int32) (base : Nat) : Decidable (PassesRecord caller fd base) :=
  inferInstanceAs (Decidable (_ ∧ _ ∧ _))

theorem PassesRecord.safe {caller : Caller} {fd : Int32} {base : Nat}
    (passes : PassesRecord caller fd base) : SafeRecord caller.memory base :=
  ⟨passes.1, bufferAt_le_isizeMax passes.2.1⟩

def passed (caller : Caller) (fd : Int32) : (count base : Nat) -> Nat
  | 0, _ => 0
  | count + 1, base =>
      if PassesRecord caller fd base then passed caller fd count (base + 8) + 1 else 0

theorem Caller.sent_frame (fd : Int32) (bytes : List UInt8) (caller : Caller) :
    (caller.sent fd bytes).ctx = caller.ctx ∧ (caller.sent fd bytes).memory = caller.memory ∧
      (caller.sent fd bytes).strayed = caller.strayed := by
  unfold Caller.sent
  split <;> exact ⟨rfl, rfl, rfl⟩

theorem Caller.sentAll_frame (fd : Int32) (buffers : List Region) (caller : Caller) :
    (caller.sentAll fd buffers).memory = caller.memory ∧
      (caller.sentAll fd buffers).strayed = caller.strayed := by
  induction buffers generalizing caller with
  | nil => exact ⟨rfl, rfl⟩
  | cons buffer buffers inductionHypothesis =>
      rcases caller.sent_frame fd (caller.memory.contents buffer) with ⟨_, memory, strayed⟩
      rcases inductionHypothesis (caller.sent fd (caller.memory.contents buffer)) with
        ⟨memoryLater, strayedLater⟩
      exact ⟨memoryLater.trans memory, strayedLater.trans strayed⟩

theorem passed_congr {caller other : Caller} (ctx : other.ctx = caller.ctx)
    (memory : other.memory = caller.memory) (fd : Int32) (count base : Nat) :
    passed other fd count base = passed caller fd count base := by
  induction count generalizing base with
  | zero => rfl
  | succ count inductionHypothesis =>
      have same : PassesRecord other fd base ↔ PassesRecord caller fd base := by
        simp only [PassesRecord, ctx, memory]
      simp only [passed, same, inductionHypothesis]

theorem passed_le (caller : Caller) (fd : Int32) (count base : Nat) :
    passed caller fd count base ≤ count := by
  induction count generalizing base with
  | zero => exact Nat.le_refl 0
  | succ count inductionHypothesis =>
      rw [passed]
      split
      · exact Nat.succ_le_succ (inductionHypothesis _)
      · exact Nat.zero_le _

theorem passed_spec (caller : Caller) (fd : Int32) (count base : Nat) :
    (forall earlier, earlier < passed caller fd count base ->
      PassesRecord caller fd (base + earlier * 8)) ∧
    (passed caller fd count base ≠ count ->
      ¬ PassesRecord caller fd (base + passed caller fd count base * 8)) := by
  induction count generalizing base with
  | zero => exact ⟨fun _ below => absurd below (Nat.not_lt_zero _), fun other => absurd rfl other⟩
  | succ count inductionHypothesis =>
      rcases inductionHypothesis (base + 8) with ⟨leading, next⟩
      rw [passed]
      split
      · next passes =>
          constructor
          · intro earlier below
            cases earlier with
            | zero =>
                rw [Nat.zero_mul]
                exact passes
            | succ earlier =>
                rw [show base + (earlier + 1) * 8 = base + 8 + earlier * 8 by omega]
                exact leading earlier (Nat.lt_of_succ_lt_succ below)
          · intro other
            rw [show base + (passed caller fd count (base + 8) + 1) * 8 =
              base + 8 + passed caller fd count (base + 8) * 8 by omega]
            exact next fun same => other (congrArg Nat.succ same)
      · next fails =>
          refine ⟨fun _ below => absurd below (Nat.not_lt_zero _), fun _ => ?_⟩
          rw [Nat.zero_mul]
          exact fails

section Loop

variable {outcome : Ending -> Caller -> Prop} (noPanic : forall after, ¬ outcome .panic after)

theorem wp_writeOut (fd : Int32) (bytes : List UInt8) {post : Nat -> Caller -> Prop}
    {caller : Caller} :
    (Host.writeOut fd bytes).wp post outcome caller ↔
      if Host.writable caller.ctx fd then post bytes.length (caller.sent fd bytes)
      else outcome (.errno .badf) caller := by
  simp only [Host.writeOut, Program.wp_bind, Program.wp_look, Program.wp_ite, Program.wp_take,
    Program.wp_stop, Caller.sent]
  split
  · split <;> exact Iff.rfl
  · exact Iff.rfl

include noPanic

theorem wp_fdWriteTurn (fd ciovPtr : Int32) {index total : Nat}
    {post : Program.Turn Nat -> Caller -> Prop} {caller : Caller} {base : Nat}
    (here : base = asUsize ciovPtr + index * 8) :
    (Host.fdWriteTurn fd ciovPtr index total).wp post outcome caller ↔
      SafeRecord caller.memory base ∧
        if caller.memory.Covers (bufferAt caller.memory base) then
          if Host.writable caller.ctx fd then
            total + (bufferAt caller.memory base).length < usizeModulus ∧
              post (.next (total + (bufferAt caller.memory base).length))
                (caller.sent fd (caller.memory.contents (bufferAt caller.memory base)))
          else outcome (.errno .badf) caller
        else outcome (.errno .fault) { caller with strayed := true } := by
  subst here
  simp only [Host.fdWriteTurn, Program.wp_bind, Host.wp_iovec_iff noPanic ciovPtr,
    Host.wp_allocate_iff noPanic, Host.wp_readMemory, wp_writeOut, Host.wp_usize_iff noPanic,
    Program.wp_ite, Program.wp_pure, LinearMemory.contents_length, Nat.lt_irrefl, if_false,
    SafeRecord, and_assoc]
  exact Iff.rfl

/-- The loop of `fd_write`: the leading records that pass go out, and the first
that does not pass ends the call. -/
theorem wp_fdWriteLoop (fd ciovPtr : Int32) (remaining index total : Nat)
    {post : Nat -> Caller -> Prop} {caller : Caller} (small : total < usizeModulus) {base : Nat}
    (here : base = asUsize ciovPtr + index * 8) :
    (Program.loop (Host.fdWriteTurn fd ciovPtr) remaining index total).wp post outcome caller ↔
      total + LinearMemory.totalLength
          (buffersAt caller.memory base (passed caller fd remaining base)) < usizeModulus ∧
        if passed caller fd remaining base = remaining then
          post (total + LinearMemory.totalLength (buffersAt caller.memory base remaining))
            (caller.sentAll fd (buffersAt caller.memory base remaining))
        else
          SafeRecord caller.memory (base + passed caller fd remaining base * 8) ∧
            if caller.memory.Covers
                (bufferAt caller.memory (base + passed caller fd remaining base * 8)) then
              outcome (.errno .badf) (caller.sentAll fd
                (buffersAt caller.memory base (passed caller fd remaining base)))
            else outcome (.errno .fault) { caller.sentAll fd
              (buffersAt caller.memory base (passed caller fd remaining base)) with
                strayed := true } := by
  induction remaining generalizing index total caller base with
  | zero =>
      rw [if_pos (show passed caller fd 0 base = 0 from rfl)]
      exact ⟨fun holds => ⟨small, holds⟩, fun holds => holds.2⟩
  | succ remaining inductionHypothesis =>
      rw [Program.wp_loop_succ, wp_fdWriteTurn noPanic fd ciovPtr here, passed]
      by_cases passes : PassesRecord caller fd base
      · rcases caller.sent_frame fd (caller.memory.contents (bufferAt caller.memory base)) with
          ⟨ctx, memory, _⟩
        have next : base + 8 = asUsize ciovPtr + (index + 1) * 8 := by omega
        have shift : base + (passed caller fd remaining (base + 8) + 1) * 8 =
            base + 8 + passed caller fd remaining (base + 8) * 8 := by omega
        rw [if_pos passes, if_pos passes.2.1, if_pos passes.2.2, and_iff_right passes.safe]
        dsimp only
        by_cases fits : total + (bufferAt caller.memory base).length < usizeModulus
        · rw [and_iff_right fits, inductionHypothesis (index + 1) _ fits next, memory,
            passed_congr ctx memory]
          simp only [Nat.add_right_cancel_iff, shift, buffersAt, LinearMemory.totalLength,
            Caller.sentAll, Nat.add_assoc]
        · refine iff_of_false (fun holds => fits holds.1) (fun holds => fits ?_)
          have bound := holds.1
          simp only [buffersAt, LinearMemory.totalLength] at bound
          omega
      · rw [if_neg passes, if_neg (Nat.succ_ne_zero remaining).symm]
        simp only [Nat.zero_mul, Nat.add_zero, buffersAt, LinearMemory.totalLength, small, true_and]
        apply and_congr_right
        intro safe
        by_cases buffer : caller.memory.Covers (bufferAt caller.memory base)
        · rw [if_pos buffer, if_pos buffer,
            if_neg (fun writable => passes ⟨safe.1, buffer, writable⟩)]
          exact Iff.rfl
        · rw [if_neg buffer, if_neg buffer]
          exact Iff.rfl

/-- What `fd_write` comes to when it does not panic: it sends the buffers of the
records that it passes, and then it stores their total length or ends at the first
record that it does not pass. -/
theorem wp_fdWrite (fd ciovPtr ciovLen nwritePtr : Int32) {caller : Caller} {base count : Nat}
    (here : base = asUsize ciovPtr) (counted : count = turns ciovLen) :
    (Host.fdWrite fd ciovPtr ciovLen nwritePtr).wp outcome outcome caller ↔
      LinearMemory.totalLength (buffersAt caller.memory base (passed caller fd count base)) <
          usizeModulus ∧
        if passed caller fd count base = count then
          if caller.memory.Covers ⟨asUsize nwritePtr, 4⟩ then
            outcome (.errno .success) { caller.sentAll fd (buffersAt caller.memory base count) with
              memory := caller.memory.overwrite (asUsize nwritePtr)
                (leBytes 4 (LinearMemory.totalLength (buffersAt caller.memory base count))) }
          else outcome (.errno .fault)
            { caller.sentAll fd (buffersAt caller.memory base count) with strayed := true }
        else
          SafeRecord caller.memory (base + passed caller fd count base * 8) ∧
            if caller.memory.Covers
                (bufferAt caller.memory (base + passed caller fd count base * 8)) then
              outcome (.errno .badf) (caller.sentAll fd
                (buffersAt caller.memory base (passed caller fd count base)))
            else outcome (.errno .fault) { caller.sentAll fd
              (buffersAt caller.memory base (passed caller fd count base)) with
                strayed := true } := by
  have positive : 0 < usizeModulus := Nat.lt_of_lt_of_le (by decide) targetBounds.lengths
  simp only [Host.fdWrite, Program.wp_bind, Host.wp_writeMemory, Program.wp_pure, leBytes_length]
  rw [← counted, wp_fdWriteLoop noPanic fd ciovPtr count 0 0 positive
    (show base = asUsize ciovPtr + 0 * 8 by rw [here]; rfl)]
  simp only [(caller.sentAll_frame fd _).1, Nat.zero_add]

end Loop

/-! ## Exact reports -/

def streams (caller : Caller) : List UInt8 × List UInt8 :=
  (caller.stdout.buf, caller.stderr.buf)

/-- The streams after some bytes were appended to that of a descriptor. -/
def appended (fd : Int32) (bytes : List UInt8) (caller : Caller) : List UInt8 × List UInt8 :=
  (if fd = 1 then caller.stdout.buf ++ bytes else caller.stdout.buf,
    if fd = 2 then caller.stderr.buf ++ bytes else caller.stderr.buf)

/-- A write succeeded and appended as many bytes as its count says, or it failed and
appended none. -/
def WritesExactly (fd : Int32) (nwrite : Nat) (bytes : List UInt8) (caller : Caller)
    (ending : Ending) (after : Caller) : Prop :=
  (ending = .errno .success ∧ Exists fun nwritten => nwritten ≤ bytes.length ∧
    streams after = appended fd (bytes.take nwritten) caller ∧
    leNat (after.memory.contents ⟨nwrite, 4⟩) = nwritten) ∨
  (Exists fun code => ending = .errno code ∧ code ≠ .success ∧ streams after = streams caller)

/-- Either all records pass, and they are empty, or their length is a `u32` and has
a place; or the first that does not pass lies within the memory, its length can be
allocated, and all before it are empty. -/
def Reportable (caller : Caller) (fd ciovPtr ciovLen nwritePtr : Int32) : Prop :=
  let base := asUsize ciovPtr
  let count := turns ciovLen
  let leading := passed caller fd count base
  if leading = count then
    LinearMemory.totalLength (buffersAt caller.memory base count) = 0 ∨
      caller.memory.Covers ⟨asUsize nwritePtr, 4⟩ ∧
        LinearMemory.totalLength (buffersAt caller.memory base count) < 2 ^ 32
  else SafeRecord caller.memory (base + leading * 8) ∧
    LinearMemory.totalLength (buffersAt caller.memory base leading) = 0

/-! ## Streams -/

theorem streams_sentAll (fd : Int32) (buffers : List Region) (caller : Caller) :
    streams (caller.sentAll fd buffers) =
      if fd = 1 then
        (caller.stdout.buf ++ buffers.flatMap caller.memory.contents, caller.stderr.buf)
      else (caller.stdout.buf, caller.stderr.buf ++ buffers.flatMap caller.memory.contents) := by
  induction buffers generalizing caller with
  | nil =>
      simp only [Caller.sentAll, List.flatMap_nil, List.append_nil, ite_self]
      rfl
  | cons buffer buffers inductionHypothesis =>
      rw [Caller.sentAll, inductionHypothesis, (caller.sent_frame fd _).2.1, List.flatMap_cons]
      unfold Caller.sent
      split
      · simp only [Pipe.write_buf, List.append_assoc]
      · simp only [Pipe.write_buf, List.append_assoc]

theorem streams_sentAll_unchanged (fd : Int32) (buffers : List Region) (caller : Caller) :
    streams (caller.sentAll fd buffers) = streams caller ↔
      LinearMemory.totalLength buffers = 0 := by
  rw [streams_sentAll, ← caller.memory.flatMap_contents_length, List.length_eq_zero_iff, streams]
  split
  · rw [Prod.mk.injEq, List.append_right_eq_self]
    exact and_iff_left rfl
  · rw [Prod.mk.injEq, List.append_right_eq_self]
    exact and_iff_right rfl

theorem streams_sentAll_appended {fd : Int32} (stream : fd = 1 ∨ fd = 2) (buffers : List Region)
    (caller : Caller) :
    streams (caller.sentAll fd buffers) =
      appended fd (buffers.flatMap caller.memory.contents) caller := by
  rw [streams_sentAll, appended]
  rcases stream with stdout | stderr
  · subst stdout
    rfl
  · subst stderr
    rfl

theorem appended_nil (fd : Int32) (caller : Caller) : appended fd [] caller = streams caller := by
  simp only [appended, List.append_nil, ite_self, streams]

theorem appended_injective {fd : Int32} (stream : fd = 1 ∨ fd = 2) {caller : Caller}
    {left right : List UInt8} (same : appended fd left caller = appended fd right caller) :
    left = right := by
  rcases Prod.mk.inj same with ⟨stdout, stderr⟩
  rcases stream with first | second
  · rw [if_pos first, if_pos first] at stdout
    exact List.append_cancel_left stdout
  · rw [if_pos second, if_pos second] at stderr
    exact List.append_cancel_left stderr

theorem stream_of_passed {caller : Caller} {fd : Int32} {count base : Nat}
    (some : passed caller fd count base ≠ 0) : fd = 1 ∨ fd = 2 := by
  cases count with
  | zero => exact absurd rfl some
  | succ count =>
      rw [passed] at some
      split at some
      · next passes => exact Host.writable_stream passes.2.2
      · exact absurd rfl some

/-! ## The condition -/

theorem not_writesExactly_panic {fd : Int32} {nwrite : Nat} {bytes : List UInt8}
    {caller : Caller} (after : Caller) : ¬ WritesExactly fd nwrite bytes caller .panic after := by
  rintro (⟨success, _⟩ | ⟨code, error, _⟩)
  · cases success
  · cases error

theorem writesExactly_failure {fd : Int32} {nwrite : Nat} {bytes : List UInt8} {caller : Caller}
    {code : Errno} (error : code ≠ .success) (after : Caller) :
    WritesExactly fd nwrite bytes caller (.errno code) after ↔ streams after = streams caller := by
  constructor
  · rintro (⟨success, _⟩ | ⟨_, _, _, kept⟩)
    · exact absurd (Ending.errno.inj success) error
    · exact kept
  · exact fun kept => .inr ⟨code, rfl, error, kept⟩

theorem writesExactly_success {fd : Int32} (stream : fd = 1 ∨ fd = 2) {nwrite : Nat}
    {bytes : List UInt8} {caller after : Caller} (sent : streams after = appended fd bytes caller)
    (stored : after.memory.contents ⟨nwrite, 4⟩ = leBytes 4 bytes.length) :
    WritesExactly fd nwrite bytes caller (.errno .success) after ↔ bytes.length < 2 ^ 32 := by
  unfold WritesExactly
  rw [sent, stored]
  constructor
  · rintro (⟨_, nwritten, within, same, count⟩ | ⟨code, success, error, _⟩)
    · have whole := congrArg List.length (appended_injective stream same)
      rw [List.length_take, Nat.min_eq_left within] at whole
      have small := leNat_lt (leBytes 4 bytes.length)
      rw [count, leBytes_length, ← whole] at small
      exact small
    · exact absurd (Ending.errno.inj success).symm error
  · intro fits
    refine .inl ⟨rfl, bytes.length, Nat.le_refl _, ?_, leNat_leBytes fits⟩
    rw [List.take_length]

private theorem writesExactly_fdWrite (caller : Caller) (fd ciovPtr ciovLen nwritePtr : Int32) :
    (Host.fdWrite fd ciovPtr ciovLen nwritePtr).wp
        (WritesExactly fd (asUsize nwritePtr) ((buffersAt caller.memory (asUsize ciovPtr)
          (turns ciovLen)).flatMap caller.memory.contents) caller)
        (WritesExactly fd (asUsize nwritePtr) ((buffersAt caller.memory (asUsize ciovPtr)
          (turns ciovLen)).flatMap caller.memory.contents) caller) caller ↔
      Reportable caller fd ciovPtr ciovLen nwritePtr := by
  rw [wp_fdWrite not_writesExactly_panic fd ciovPtr ciovLen nwritePtr rfl rfl]
  unfold Reportable
  dsimp only
  generalize asUsize ciovPtr = base
  generalize turns ciovLen = count
  have fault : Errno.fault ≠ .success := Errno.noConfusion
  have badf : Errno.badf ≠ .success := Errno.noConfusion
  have lengths := targetBounds.lengths
  by_cases all : passed caller fd count base = count
  · rw [if_pos all, if_pos all, all]
    have unchanged := streams_sentAll_unchanged fd (buffersAt caller.memory base count) caller
    have length := caller.memory.flatMap_contents_length (buffersAt caller.memory base count)
    have stored := caller.memory.contents_overwrite_leBytes (asUsize nwritePtr) 4
    by_cases empty : LinearMemory.totalLength (buffersAt caller.memory base count) = 0
    · refine iff_of_true ⟨by omega, ?_⟩ (.inl empty)
      split
      · refine .inl ⟨rfl, 0, Nat.zero_le _, ?_, ?_⟩
        · rw [List.take_zero, appended_nil]
          exact unchanged.mpr empty
        · rw [empty, stored, leNat_leBytes (Nat.pow_pos (by decide))]
      · exact (writesExactly_failure fault _).mpr (unchanged.mpr empty)
    · have stream : fd = 1 ∨ fd = 2 := by
        refine stream_of_passed (show passed caller fd count base ≠ 0 from fun none => ?_)
        rw [none] at all
        rw [← all] at empty
        exact empty rfl
      by_cases placed : caller.memory.Covers ⟨asUsize nwritePtr, 4⟩
      · rw [if_pos placed, or_iff_right empty, and_iff_right placed]
        refine (and_congr_right fun _ => ?_).trans
          (and_iff_right_of_imp fun small => Nat.lt_of_lt_of_le small lengths)
        rw [← length]
        exact writesExactly_success stream (streams_sentAll_appended stream _ caller) (stored _)
      · rw [if_neg placed]
        refine iff_of_false (fun holds => ?_) (not_or.mpr ⟨empty, fun both => placed both.1⟩)
        exact empty (unchanged.mp ((writesExactly_failure fault _).mp holds.2))
  · rw [if_neg all, if_neg all, and_left_comm]
    apply and_congr_right
    intro safe
    have unchanged := streams_sentAll_unchanged fd
      (buffersAt caller.memory base (passed caller fd count base)) caller
    refine (and_congr_right fun _ => ?_).trans (and_iff_right_of_imp fun empty => by omega)
    split
    · exact (writesExactly_failure badf _).trans unchanged
    · exact (writesExactly_failure fault _).trans unchanged

/-- `fd_write` reports exactly what it wrote, or writes nothing, exactly when its
arguments are reportable. -/
theorem fd_write_exact_iff (platform : Platform) (caller : Caller)
    (fd ciovPtr ciovLen nwritePtr : Int32) :
    WritesExactly fd (asUsize nwritePtr) ((buffersAt caller.memory (asUsize ciovPtr)
          (turns ciovLen)).flatMap caller.memory.contents) caller
        ((HostCall.fdWrite fd ciovPtr ciovLen nwritePtr).perform platform caller).1
        ((HostCall.fdWrite fd ciovPtr ciovLen nwritePtr).perform platform caller).2 ↔
      Reportable caller fd ciovPtr ciovLen nwritePtr := by
  have clean : Reportable { caller with strayed := false } fd ciovPtr ciovLen nwritePtr ↔
      Reportable caller fd ciovPtr ciovLen nwritePtr := by
    unfold Reportable
    dsimp only
    rw [passed_congr (show ({ caller with strayed := false } : Caller).ctx = caller.ctx from rfl)
      rfl]
  rw [← clean]
  exact (HostCall.perform_wp platform (.fdWrite fd ciovPtr ciovLen nwritePtr) caller _).trans
    (writesExactly_fdWrite { caller with strayed := false } fd ciovPtr ciovLen nwritePtr)

end Target

/-! ## A second buffer outside -/

/-- A guest whose first buffer is one byte of its memory, and whose second lies
outside. -/
def strayCaller : Caller where
  ctx := ⟨[], [], none, true, true, none, false⟩
  memory := onePage fun address =>
    match address with
    | 0 => 100
    | 4 => 1
    | 10 => 1
    | 12 => 1
    | 100 => 65
    | _ => 0
  fuel := 10000
  stdin := Pipe.nonBlockingPipe
  stdout := Pipe.nonBlockingPipe
  stderr := Pipe.nonBlockingPipe
  strayed := false

/-- A guest whose second buffer lies outside of its memory is told of a failure when
the byte of its first buffer has already gone out. -/
theorem fault_after_output : ¬ forall platform caller fd ciovPtr ciovLen nwritePtr,
    WritesExactly fd (asUsize nwritePtr) ((buffersAt caller.memory (asUsize ciovPtr)
        (turns ciovLen)).flatMap caller.memory.contents) caller
      ((HostCall.fdWrite fd ciovPtr ciovLen nwritePtr).perform platform caller).1
      ((HostCall.fdWrite fd ciovPtr ciovLen nwritePtr).perform platform caller).2 := by
  intro law
  rcases law ⟨none, 0, none⟩ strayCaller 1 0 2 16 with ⟨success, _⟩ | ⟨_, _, _, kept⟩
  · exact absurd success (by decide)
  · exact absurd kept (by decide)

end Wasi
end WasmiPlugin
