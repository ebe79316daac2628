import WasmiPlugin.Pipe.Handles

namespace WasmiPlugin
namespace Pipe

open Foundation

/-!
# Readiness and end of file

A reader is told to wait, or that the file has ended, by one flag, and every
writer sets it when it is dropped.  The pipe is truthful to its readers as long as
nobody can see the flag while it is wrong: while a writer is alive although
another was dropped, there has to be something to read.
-/

/-- A read into a buffer that is not empty reports the end of the file. -/
def signalsEnd (taken : Transition Shared HandleAction) : Prop :=
  Exists fun operation : Operation => taken.action.operation = some operation ∧
    0 < operation.room ∧ (outcome taken = some (.read (.ok [])) ∨
      outcome taken = some (.polled (.ready [])))

/-- The pipe tells its readers what is the case, and what it said about the end of
the file stays true. -/
structure Truthful (history : List (Transition Shared HandleAction)) (shared : Shared) : Prop where
  waits : shared.readers ≠ [] -> forall room waker, 0 < room ->
    ((shared.inner.read room).1 = .wouldBlock ↔ shared.inner.buf = [] ∧ shared.writers ≠ []) ∧
    ((shared.inner.pollRead room waker).1 = .pending ↔
      shared.inner.buf = [] ∧ shared.writers ≠ [])
  ends : shared.readers ≠ [] -> forall room waker, 0 < room ->
    ((shared.inner.read room).1 = .ok [] ↔ shared.inner.buf = [] ∧ shared.writers = []) ∧
    ((shared.inner.pollRead room waker).1 = .ready [] ↔
      shared.inner.buf = [] ∧ shared.writers = [])
  stays : shared.readers ≠ [] -> (Exists fun taken => taken ∈ history ∧ signalsEnd taken) ->
    forall room waker, (shared.inner.read room).1 = .ok [] ∧
      (shared.inner.pollRead room waker).1 = .ready []

/-- The pipe is truthful in every state that a history reaches. -/
def AlwaysTruthful (history : List (Transition Shared HandleAction)) : Prop :=
  forall earlier reached, earlier <+: history -> Run Shared.step freshPair earlier reached ->
    Truthful earlier reached

/-- A writer that is dropped over an empty pipe is the last one, and after a writer
was dropped nobody empties the pipe before the last one is. -/
def Graceful (taken : Transition Shared HandleAction) : Prop :=
  match taken.action with
  | .dropWriter writer => taken.before.readers ≠ [] -> taken.before.inner.buf = [] ->
      taken.before.writers.erase writer = []
  | .read _ room | .pollRead _ room _ => taken.before.inner.closed = true ->
      taken.before.inner.buf.length ≤ room -> taken.before.writers = []
  | _ => True

instance (taken : Transition Shared HandleAction) : Decidable (Graceful taken) :=
  match taken with
  | ⟨_, .dropWriter _, _⟩ => inferInstanceAs (Decidable (_ -> _ -> _))
  | ⟨_, .read _ _, _⟩ => inferInstanceAs (Decidable (_ -> _ -> _))
  | ⟨_, .pollRead _ _ _, _⟩ => inferInstanceAs (Decidable (_ -> _ -> _))
  | ⟨_, .cloneReader _ _, _⟩ => .isTrue trivial
  | ⟨_, .cloneWriter _ _, _⟩ => .isTrue trivial
  | ⟨_, .dropReader _, _⟩ => .isTrue trivial
  | ⟨_, .write _ _, _⟩ => .isTrue trivial

/-! ## States in which the flag is right -/

/-- A pipe whose last writer is gone is closed. -/
def ClosedByLast (shared : Shared) : Prop :=
  shared.writers = [] -> shared.inner.closed = true

/-- Whoever finds the pipe empty and closed finds it without a writer, so nobody can
see the flag while it is wrong. -/
def Unexposed (shared : Shared) : Prop :=
  shared.readers ≠ [] -> shared.inner.buf = [] -> shared.inner.closed = true -> shared.writers = []

/-- The file has ended for good: the pipe is empty and closed, and no writer is alive. -/
def Ended (shared : Shared) : Prop :=
  shared.inner.buf = [] ∧ shared.inner.closed = true ∧ shared.writers = []

theorem closedByLast_step {shared after : Shared} {action : HandleAction}
    (closes : ClosedByLast shared) (stepped : shared.step action = some after) :
    ClosedByLast after := by
  unfold ClosedByLast at closes ⊢
  have does := step_does stepped
  cases action with
  | cloneReader | dropReader =>
      rw [does.2]
      exact closes
  | cloneWriter writer copy =>
      rw [does.2]
      exact fun none => absurd none (List.cons_ne_nil copy _)
  | dropWriter writer =>
      rw [does.2]
      exact fun _ => rfl
  | read reader room =>
      rw [does.2]
      dsimp only
      rw [read_frame]
      exact closes
  | pollRead reader room waker =>
      rw [does.2]
      dsimp only
      rw [(pollRead_frame shared.inner room waker).2]
      exact closes
  | write writer bytes =>
      rw [does.2]
      exact closes

/-- A graceful step exposes nothing, and any other exposes the flag. -/
theorem unexposed_step {shared after : Shared} {action : HandleAction}
    (unexposed : Unexposed shared) (stepped : shared.step action = some after) :
    Unexposed after ↔ Graceful ⟨shared, action, after⟩ := by
  have does := step_does stepped
  unfold Unexposed at unexposed ⊢
  cases action with
  | cloneReader reader copy =>
      rw [does.2]
      exact iff_of_true (fun _ => unexposed (List.ne_nil_of_mem does.1)) trivial
  | cloneWriter writer copy =>
      rw [does.2]
      refine iff_of_true (fun reading empty closed => ?_) trivial
      exact absurd (unexposed reading empty closed) (List.ne_nil_of_mem does.1)
  | dropReader reader =>
      rw [does.2]
      refine iff_of_true (fun reading => unexposed fun none => reading ?_) trivial
      dsimp only
      rw [none, List.erase_nil]
  | dropWriter writer =>
      rw [does.2]
      exact ⟨fun hides reading empty => hides reading empty rfl,
        fun graceful reading empty _ => graceful reading empty⟩
  | read reader room =>
      rw [does.2]
      dsimp only [Graceful]
      rw [read_frame, List.drop_eq_nil_iff]
      have reading := List.ne_nil_of_mem does.1
      exact ⟨fun hides closed emptied => hides reading emptied closed,
        fun graceful _ emptied closed => graceful closed emptied⟩
  | pollRead reader room waker =>
      rw [does.2]
      dsimp only [Graceful]
      rw [(pollRead_frame shared.inner room waker).1, (pollRead_frame shared.inner room waker).2,
        List.drop_eq_nil_iff]
      have reading := List.ne_nil_of_mem does.1
      exact ⟨fun hides closed emptied => hides reading emptied closed,
        fun graceful _ emptied closed => graceful closed emptied⟩
  | write writer bytes =>
      rw [does.2]
      refine iff_of_true (fun reading empty closed => ?_) trivial
      exact unexposed reading (List.append_eq_nil_iff.mp empty).1 closed

theorem ended_step {shared after : Shared} {action : HandleAction} (ended : Ended shared)
    (stepped : shared.step action = some after) : Ended after := by
  rcases ended with ⟨empty, closed, gone⟩
  have does := step_does stepped
  cases action with
  | cloneReader | dropReader =>
      rw [does.2]
      exact ⟨empty, closed, gone⟩
  | cloneWriter writer | dropWriter writer | write writer =>
      have alive := does.1
      rw [gone] at alive
      exact absurd alive List.not_mem_nil
  | read reader room =>
      rw [does.2, Ended]
      dsimp only
      rw [read_empty shared.inner room empty]
      exact ⟨empty, closed, gone⟩
  | pollRead reader room waker =>
      rw [does.2, Ended]
      dsimp only
      rw [(pollRead_frame shared.inner room waker).1, (pollRead_frame shared.inner room waker).2,
        empty, List.drop_nil]
      exact ⟨rfl, closed, gone⟩

private theorem signal_empty {taken : Transition Shared HandleAction}
    (signals : signalsEnd taken) :
    taken.before.inner.buf = [] ∧ taken.before.inner.closed = true := by
  rcases signals with ⟨operation, operates, positive, reported⟩
  simp only [outcome, operates, Option.map_some, Option.some.injEq] at reported
  cases operation with
  | read room =>
      rcases reported with same | same
      · exact (read_end_iff taken.before.inner positive).mp (Outcome.read.inj same)
      · cases same
  | pollRead room waker =>
      rcases reported with same | same
      · cases same
      · exact (pollRead_end_iff taken.before.inner positive waker).mp (Outcome.polled.inj same)
  | write bytes => exact absurd positive (Nat.lt_irrefl 0)
  | dropWriter => exact absurd positive (Nat.lt_irrefl 0)

private theorem ended_of_signal {shared after : Shared} {action : HandleAction}
    (unexposed : Unexposed shared) (stepped : shared.step action = some after)
    (signals : signalsEnd ⟨shared, action, after⟩) : Ended after := by
  rcases signal_empty signals with ⟨empty, closed⟩
  refine ended_step ⟨empty, closed, unexposed ?_ empty closed⟩ stepped
  have does := step_does stepped
  rcases signals with ⟨operation, operates, positive, _⟩
  cases action with
  | read | pollRead => exact List.ne_nil_of_mem does.1
  | _ =>
      cases operates
      all_goals exact absurd positive (Nat.lt_irrefl 0)

/-! ## Truthful states -/

/-- What holds at every point of a graceful run: a pipe without writers is closed,
nobody can see the flag while it is wrong, and an end of the file that was reported is
there for good. -/
private structure Honest (history : List (Transition Shared HandleAction)) (shared : Shared) :
    Prop where
  closes : ClosedByLast shared
  unexposed : Unexposed shared
  ended : (Exists fun taken => taken ∈ history ∧ signalsEnd taken) -> Ended shared

private theorem Honest.truthful {history : List (Transition Shared HandleAction)} {shared : Shared}
    (honest : Honest history shared) : Truthful history shared := by
  have flag (reading : shared.readers ≠ []) (empty : shared.inner.buf = []) :
      shared.inner.closed = true ↔ shared.writers = [] :=
    ⟨honest.unexposed reading empty, honest.closes⟩
  have alive (reading : shared.readers ≠ []) (empty : shared.inner.buf = []) :
      shared.inner.closed = false ↔ shared.writers ≠ [] := by
    rw [← Bool.not_eq_true]
    exact (flag reading empty).not
  refine ⟨fun reading room waker positive => ?_, fun reading room waker positive => ?_,
    fun reading reported room waker => ?_⟩
  · rw [read_wouldBlock_iff shared.inner positive, pollRead_pending_iff shared.inner positive]
    exact ⟨and_congr_right (alive reading), and_congr_right (alive reading)⟩
  · rw [read_end_iff shared.inner positive, pollRead_end_iff shared.inner positive]
    exact ⟨and_congr_right (flag reading), and_congr_right (flag reading)⟩
  · rcases honest.ended reported with ⟨empty, closed, _⟩
    constructor
    · rw [read_empty shared.inner room empty, closed]
      rfl
    · simp only [Inner.pollRead, popFront_eq, empty, closed, List.take_nil, List.length_nil,
        gt_iff_lt, Nat.lt_irrefl, if_false, if_true]

private theorem Truthful.unexposed {history : List (Transition Shared HandleAction)}
    {shared : Shared} (truthful : Truthful history shared) : Unexposed shared := by
  intro reading empty closed
  have ended := (truthful.ends reading 1 0 Nat.one_pos).1
  exact (ended.mp ((read_end_iff shared.inner Nat.one_pos).mpr ⟨empty, closed⟩)).2

/-! ## Whole runs -/

private theorem honest_run {history : List (Transition Shared HandleAction)} {final : Shared}
    (run : Run Shared.step freshPair history final)
    (graceful : forall taken, taken ∈ history -> Graceful taken) : Honest history final := by
  have fresh : Honest [] freshPair := by
    refine ⟨fun none => absurd none (List.cons_ne_nil 0 []), fun _ _ closed => ?_, ?_⟩
    · cases closed
    · rintro ⟨_, member, _⟩
      exact absurd member List.not_mem_nil
  refine (run.throughout Honest Graceful fresh graceful ?_).1
  intro earlier shared action after honest stepped graceful
  refine ⟨closedByLast_step honest.closes stepped,
    (unexposed_step honest.unexposed stepped).mpr graceful, ?_⟩
  rintro ⟨taken, member, signals⟩
  rcases List.mem_append.mp member with before | last
  · exact ended_step (honest.ended ⟨taken, before, signals⟩) stepped
  · rw [List.mem_singleton.mp last] at signals
    exact ended_of_signal honest.unexposed stepped signals

/-- In a run, the pipe is truthful in every state reached exactly when every step is
graceful. -/
theorem pipe_truthful_iff {history : List (Transition Shared HandleAction)} {final : Shared}
    (run : Run Shared.step freshPair history final) :
    AlwaysTruthful history ↔ forall taken, taken ∈ history -> Graceful taken := by
  constructor
  · intro law taken member
    rcases run.reached_before taken member with ⟨earlier, initialPart, reached⟩
    have stepped := run.stepped taken member
    have before := law earlier taken.before
      ((List.prefix_append earlier [taken]).trans initialPart) reached
    have after := law _ _ initialPart (reached.extend stepped)
    exact (unexposed_step before.unexposed stepped).mp after.unexposed
  · intro graceful earlier reached initialPart reaching
    exact (honest_run reaching fun taken member =>
      graceful taken (initialPart.subset member)).truthful

/-- A writer is cloned, and the clone is dropped. -/
def clonedActions : List HandleAction :=
  [.cloneWriter 0 1, .dropWriter 1]

theorem clonedActions_enabled : (Run.play Shared.step freshPair clonedActions).isSome := by
  decide

/-- The end of the file is reported although a writer is alive. -/
theorem end_reported_early :
    ¬ forall history final, Run Shared.step freshPair history final -> Truthful history final := by
  intro law
  have told := (law _ _ (Run.of_enabled clonedActions clonedActions_enabled)).ends
    (by decide) 1 0 Nat.one_pos
  have alive := (told.1.mp (by decide)).2
  exact absurd alive (by decide)

/-- Both writers are dropped before their bytes are read. -/
def graciousActions : List HandleAction :=
  [.cloneWriter 0 1, .write 1 [65], .dropWriter 1, .dropWriter 0, .read 0 4, .pollRead 0 4 7]

theorem graciousActions_enabled : (Run.play Shared.step freshPair graciousActions).isSome := by
  decide

theorem gracious_writers_truthful :
    AlwaysTruthful ((Run.play Shared.step freshPair graciousActions).get
      graciousActions_enabled).1 := by
  refine (pipe_truthful_iff (Run.of_enabled graciousActions graciousActions_enabled)).mpr ?_
  decide

end Pipe
end WasmiPlugin
