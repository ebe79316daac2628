import WasmiPlugin.Pipe.NonBlockingPipe

namespace WasmiPlugin
namespace Pipe

open Foundation

/-!
# Wake-ups

A reader task that got `Pending` sleeps until its waker is woken.  What it is
waiting for is read off the history of the operations: `awaited` follows the
latest `Pending` and forgets it when that waker is woken.  The slot inside
`Inner` is the code's own record of the same fact, and the two agree except
after a writer was dropped over a registered waker.  That is the only way a
wake-up is lost, because `drop` clears the slot before it takes the waker out.
-/

def awaitedAfter (awaited : Option Waker) (taken : Transition Inner Operation) : Option Waker :=
  match taken.action, (perform taken.before taken.action).1 with
  | .pollRead _ waker, .polled .pending => some waker
  | _, .polled _ => none
  | _, .wrote _ (some woken) => if awaited = some woken then none else awaited
  | _, .dropped (some woken) => if awaited = some woken then none else awaited
  | _, _ => awaited

/-- The waker that the latest `Pending` registered and nobody has woken since. -/
def awaited (history : List (Transition Inner Operation)) : Option Waker :=
  history.foldl awaitedAfter none

theorem awaited_extend (history : List (Transition Inner Operation))
    (taken : Transition Inner Operation) :
    awaited (history ++ [taken]) = awaitedAfter (awaited history) taken := by
  unfold awaited
  rw [List.foldl_append, List.foldl_cons, List.foldl_nil]

/-- A sleeping reader has nothing to read and a living writer. -/
def NoLostWakeUp (history : List (Transition Inner Operation)) (inner : Inner) : Prop :=
  awaited history ≠ none -> inner.buf = [] ∧ inner.closed = false

/-- The operations in question: an asynchronous read offers some room. -/
def PollsWithRoom (taken : Transition Inner Operation) : Prop :=
  forall room waker, taken.action = .pollRead room waker -> 0 < room

/-- A writer is dropped only while no reader's waker is registered. -/
def DropsUnawaited (taken : Transition Inner Operation) : Prop :=
  taken.action = .dropWriter -> taken.before.waker = none

/-! ## What one operation does to the slot and to the sleeping reader -/

private theorem registered_step (sleeping : Option Waker) (before after : Inner)
    (operation : Operation) (room : PollsWithRoom ⟨before, operation, after⟩)
    (registered : forall waker, before.waker = some waker -> sleeping = some waker)
    (waker : Waker) (slot : (perform before operation).2.waker = some waker) :
    awaitedAfter sleeping ⟨before, operation, after⟩ = some waker := by
  cases operation with
  | read size =>
      simp only [perform, read_frame] at slot
      exact registered waker slot
  | pollRead size asker =>
      rcases pollRead_cases before (room size asker rfl) asker with
        ⟨_, ready⟩ | ⟨_, _, ended⟩ | ⟨_, _, blocked⟩
      · simp only [perform, ready, reduceCtorEq] at slot
      · simp only [perform, ended, reduceCtorEq] at slot
      · simp only [perform, blocked] at slot
        simpa only [awaitedAfter, perform, blocked] using slot
  | write bytes => cases slot
  | dropWriter => cases slot

/-- While writers are dropped only with an empty slot, the slot is exactly
what the reader sleeps on, and a sleeping reader misses nothing. -/
private theorem unawaited_step (sleeping : Option Waker) (before after : Inner)
    (operation : Operation) (room : PollsWithRoom ⟨before, operation, after⟩)
    (drops : DropsUnawaited ⟨before, operation, after⟩)
    (slot : before.waker = sleeping)
    (misses : sleeping ≠ none -> before.buf = [] ∧ before.closed = false) :
    (perform before operation).2.waker = awaitedAfter sleeping ⟨before, operation, after⟩ ∧
      (awaitedAfter sleeping ⟨before, operation, after⟩ ≠ none ->
        (perform before operation).2.buf = [] ∧ (perform before operation).2.closed = false) := by
  cases operation with
  | read size =>
      have unchanged : awaitedAfter sleeping ⟨before, .read size, after⟩ = sleeping := rfl
      rw [unchanged]
      simp only [perform, read_frame]
      refine ⟨slot, fun asleep => ?_⟩
      rw [(misses asleep).1, (misses asleep).2, List.drop_nil]
      exact ⟨rfl, rfl⟩
  | pollRead size asker =>
      rcases pollRead_cases before (room size asker rfl) asker with
        ⟨_, ready⟩ | ⟨_, _, ended⟩ | ⟨empty, alive, blocked⟩
      · simp only [awaitedAfter, perform, ready, ne_eq, not_true, false_implies, and_self]
      · simp only [awaitedAfter, perform, ended, ne_eq, not_true, false_implies, and_self]
      · simp only [awaitedAfter, perform, blocked, empty, alive, implies_true, and_self]
  | write bytes =>
      have woken : awaitedAfter sleeping ⟨before, .write bytes, after⟩ = none := by
        subst slot
        cases registered : before.waker with
        | none => simp only [awaitedAfter, perform, Inner.write, registered]
        | some waker => simp only [awaitedAfter, perform, Inner.write, registered, if_true]
      rw [woken]
      exact ⟨rfl, fun asleep => absurd rfl asleep⟩
  | dropWriter =>
      have awake : sleeping = none := slot.symm.trans (drops rfl)
      have unchanged : awaitedAfter sleeping ⟨before, .dropWriter, after⟩ = sleeping := rfl
      rw [unchanged, awake]
      exact ⟨rfl, fun asleep => absurd rfl asleep⟩

/-! ## Whole runs -/

private theorem registered_run {history : List (Transition Inner Operation)} {inner : Inner}
    (run : Run step nonBlockingPipe history inner)
    (room : forall taken, taken ∈ history -> PollsWithRoom taken) (waker : Waker)
    (slot : inner.waker = some waker) : awaited history = some waker := by
  induction run generalizing waker with
  | start => cases slot
  | @extend history before after operation _ stepped inductionHypothesis =>
      cases stepped
      rw [awaited_extend]
      exact registered_step (awaited history) before _ operation
        (room _ (List.mem_append_right _ List.mem_cons_self))
        (fun earlier registered => inductionHypothesis
          (fun taken member => room taken (List.mem_append_left _ member)) earlier registered)
        waker slot

private theorem unawaited_run {history : List (Transition Inner Operation)} {inner : Inner}
    (run : Run step nonBlockingPipe history inner)
    (room : forall taken, taken ∈ history -> PollsWithRoom taken)
    (drops : forall taken, taken ∈ history -> DropsUnawaited taken) :
    inner.waker = awaited history ∧ NoLostWakeUp history inner := by
  induction run with
  | start => exact ⟨rfl, fun asleep => absurd rfl asleep⟩
  | @extend history before after operation _ stepped inductionHypothesis =>
      cases stepped
      have earlier := inductionHypothesis
        (fun taken member => room taken (List.mem_append_left _ member))
        (fun taken member => drops taken (List.mem_append_left _ member))
      have last : (⟨before, operation, (perform before operation).2⟩ : Transition Inner Operation) ∈
          history ++ [⟨before, operation, (perform before operation).2⟩] :=
        List.mem_append_right _ List.mem_cons_self
      have next := unawaited_step (awaited history) before _ operation (room _ last)
        (drops _ last) earlier.1 earlier.2
      rw [← awaited_extend] at next
      exact next

/-- In a run, every state reached satisfies the wake-up law exactly when no
writer was dropped over a registered waker. -/
theorem no_lost_wake_up_iff {history : List (Transition Inner Operation)} {inner : Inner}
    (run : Run step nonBlockingPipe history inner)
    (room : forall taken, taken ∈ history -> PollsWithRoom taken) :
    (forall earlier reached, earlier <+: history -> Run step nonBlockingPipe earlier reached ->
        NoLostWakeUp earlier reached) ↔
      forall taken, taken ∈ history -> DropsUnawaited taken := by
  constructor
  · intro law taken member dropped
    rcases run.reached_before taken member with ⟨earlier, initialPart, reached⟩
    cases slot : taken.before.waker with
    | none => rfl
    | some waker =>
        have asleep := registered_run reached
          (fun other listed => room other (initialPart.subset (List.mem_append_left _ listed)))
          waker slot
        have after := law _ _ initialPart (reached.extend (run.stepped taken member))
        have lost : awaited (earlier ++ [taken]) ≠ none := by
          rw [awaited_extend, awaitedAfter, dropped, asleep]
          exact Option.some_ne_none waker
        have stepped := run.stepped taken member
        rw [dropped] at stepped
        have closed : taken.after.closed = true := by
          rw [← Option.some.inj stepped]
          rfl
        rw [(after lost).2] at closed
        cases closed
  · intro drops earlier reached initialPart reaching
    exact (unawaited_run reaching
      (fun taken member => room taken (initialPart.subset member))
      (fun taken member => drops taken (initialPart.subset member))).2

/-- A reader polls an empty pipe and the writer is dropped afterwards. -/
def hangUpHistory : List (Transition Inner Operation) :=
  [⟨nonBlockingPipe, .pollRead 16 1, ⟨[], false, some 1⟩⟩,
    ⟨⟨[], false, some 1⟩, .dropWriter, ⟨[], true, none⟩⟩]

private theorem hangUp_run : Run step nonBlockingPipe hangUpHistory ⟨[], true, none⟩ :=
  Run.of_play [.pollRead 16 1, .dropWriter] _ _ rfl

private theorem hangUp_room (taken : Transition Inner Operation)
    (member : taken ∈ hangUpHistory) : PollsWithRoom taken := by
  intro room waker polled
  simp only [hangUpHistory, List.mem_cons, List.not_mem_nil, or_false] at member
  rcases member with same | same <;> subst same <;> cases polled
  exact Nat.succ_pos 15

/-- The hang-up leaves the reader asleep although the end of file is there. -/
theorem wake_up_lost_on_drop :
    ¬ forall history inner, Run step nonBlockingPipe history inner ->
        (forall taken, taken ∈ history -> PollsWithRoom taken) -> NoLostWakeUp history inner := by
  intro law
  have after := law hangUpHistory ⟨[], true, none⟩ hangUp_run hangUp_room
  cases (after (by decide)).2

/-- The characterisation at that run: it violates the law because it drops the
writer over the waker of task 1. -/
theorem hang_up_violates :
    ¬ forall earlier reached, earlier <+: hangUpHistory ->
        Run step nonBlockingPipe earlier reached -> NoLostWakeUp earlier reached := by
  intro law
  have drops := (no_lost_wake_up_iff hangUp_run hangUp_room).mp law
  have slot := drops ⟨⟨[], false, some 1⟩, .dropWriter, ⟨[], true, none⟩⟩
    (List.mem_cons_of_mem _ List.mem_cons_self) rfl
  cases slot

end Pipe
end WasmiPlugin
