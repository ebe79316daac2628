import WasmiPlugin.Pipe.NonBlockingPipe

namespace WasmiPlugin
namespace Pipe

open Foundation

/-!
# The handles of a pipe

Both handles of a pipe can be cloned any number of times, and every clone is used
and dropped on its own.  Cloning a handle and dropping a reader leave the shared
state alone.  In a run the handles have names, so that it is clear who is alive,
and a handle is used only while it is.

The pipe is a queue for all of them together.  What the readers get is what the
writers wrote, in the order of the operations, whoever performs them and whatever
the size of the buffers.
-/

abbrev HandleId := Nat

/-- The shared state of a pipe, and the names of the handles that are alive. -/
structure Shared where
  inner : Inner
  readers : List HandleId
  writers : List HandleId
  deriving DecidableEq, Repr

/-- The pair of handles that `non_blocking_pipe` returns. -/
def freshPair : Shared where
  inner := nonBlockingPipe
  readers := [0]
  writers := [0]

inductive HandleAction where
  | cloneReader (reader copy : HandleId)
  | cloneWriter (writer copy : HandleId)
  | dropReader (reader : HandleId)
  | dropWriter (writer : HandleId)
  | read (reader : HandleId) (room : Nat)
  | pollRead (reader : HandleId) (room : Nat) (waker : Waker)
  | write (writer : HandleId) (bytes : List UInt8)
  deriving DecidableEq, Repr

namespace Shared

def use (shared : Shared) (alive : Bool) (operation : Operation) : Option Shared :=
  if alive then some { shared with inner := (perform shared.inner operation).2 } else none

/-- An action of a handle that is alive.  A copy gets a name of its own. -/
def step (shared : Shared) : HandleAction -> Option Shared
  | .cloneReader reader copy =>
      if reader ∈ shared.readers ∧ copy ∉ shared.readers then
        some { shared with readers := copy :: shared.readers }
      else none
  | .cloneWriter writer copy =>
      if writer ∈ shared.writers ∧ copy ∉ shared.writers then
        some { shared with writers := copy :: shared.writers }
      else none
  | .dropReader reader =>
      if reader ∈ shared.readers then
        some { shared with readers := shared.readers.erase reader }
      else none
  | .dropWriter writer =>
      (shared.use (writer ∈ shared.writers) .dropWriter).map fun after =>
        { after with writers := after.writers.erase writer }
  | .read reader room => shared.use (reader ∈ shared.readers) (.read room)
  | .pollRead reader room waker => shared.use (reader ∈ shared.readers) (.pollRead room waker)
  | .write writer bytes => shared.use (writer ∈ shared.writers) (.write bytes)

end Shared

def HandleAction.operation : HandleAction -> Option Operation
  | .read _ room => some (.read room)
  | .pollRead _ room waker => some (.pollRead room waker)
  | .write _ bytes => some (.write bytes)
  | .dropWriter _ => some .dropWriter
  | .cloneReader _ _ | .cloneWriter _ _ | .dropReader _ => none

def outcome (taken : Transition Shared HandleAction) : Option Outcome :=
  taken.action.operation.map fun operation => (perform taken.before.inner operation).1

/-- What an action does, and whose handle it needs. -/
def Shared.Does (shared after : Shared) : HandleAction -> Prop
  | .cloneReader reader copy =>
      reader ∈ shared.readers ∧ after = { shared with readers := copy :: shared.readers }
  | .cloneWriter writer copy =>
      writer ∈ shared.writers ∧ after = { shared with writers := copy :: shared.writers }
  | .dropReader reader =>
      reader ∈ shared.readers ∧ after = { shared with readers := shared.readers.erase reader }
  | .dropWriter writer => writer ∈ shared.writers ∧ after =
      { shared with inner := shared.inner.dropWriter.2, writers := shared.writers.erase writer }
  | .read reader room =>
      reader ∈ shared.readers ∧ after = { shared with inner := (shared.inner.read room).2 }
  | .pollRead reader room waker => reader ∈ shared.readers ∧
      after = { shared with inner := (shared.inner.pollRead room waker).2 }
  | .write writer bytes =>
      writer ∈ shared.writers ∧ after = { shared with inner := (shared.inner.write bytes).2.2 }

theorem step_does {shared after : Shared} {action : HandleAction}
    (stepped : shared.step action = some after) : shared.Does after action := by
  cases action with
  | cloneReader | cloneWriter =>
      simp only [Shared.step] at stepped
      split at stepped
      · next alive =>
          cases stepped
          exact ⟨alive.1, rfl⟩
      · cases stepped
  | dropReader reader =>
      simp only [Shared.step] at stepped
      split at stepped
      · next alive =>
          cases stepped
          exact ⟨alive, rfl⟩
      · cases stepped
  | dropWriter | read | pollRead | write =>
      simp only [Shared.step, Shared.use] at stepped
      split at stepped
      · next alive =>
          cases stepped
          exact ⟨of_decide_eq_true alive, rfl⟩
      · cases stepped

theorem step_inner {shared after : Shared} {action : HandleAction}
    (stepped : shared.step action = some after) :
    after.inner = match action.operation with
      | some operation => (perform shared.inner operation).2
      | none => shared.inner := by
  have does := step_does stepped
  cases action <;> rw [does.2] <;> rfl

/-! ## The queue -/

/-- The bytes that a result places in the caller's buffer. -/
def Outcome.data : Outcome -> List UInt8
  | .read (.ok data) => data
  | .polled (.ready data) => data
  | _ => []

def Operation.room : Operation -> Nat
  | .read room => room
  | .pollRead room _ => room
  | .write _ | .dropWriter => 0

def Operation.accepted (inner : Inner) : Operation -> List UInt8
  | .write bytes => bytes.take (inner.write bytes).1
  | _ => []

/-- An operation passes on its bytes in order, and gives no more than fits. -/
theorem perform_balanced (inner : Inner) (operation : Operation) :
    (perform inner operation).1.data ++ (perform inner operation).2.buf =
        inner.buf ++ operation.accepted inner ∧
      (perform inner operation).1.data.length ≤ operation.room := by
  cases operation with
  | read room =>
      have conserved := read_conserves inner room
      simp only [perform, Operation.accepted, Operation.room, List.append_nil]
      cases result : (inner.read room).1 with
      | ok data =>
          rw [result] at conserved
          exact ⟨conserved.1.symm, conserved.2⟩
      | wouldBlock =>
          rw [result] at conserved
          exact ⟨conserved, Nat.zero_le room⟩
  | pollRead room waker =>
      have conserved := pollRead_conserves inner room waker
      simp only [perform, Operation.accepted, Operation.room, List.append_nil]
      cases result : (inner.pollRead room waker).1 with
      | ready data =>
          rw [result] at conserved
          exact ⟨conserved.1.symm, conserved.2⟩
      | pending =>
          rw [result] at conserved
          exact ⟨conserved, Nat.zero_le room⟩
  | write bytes => exact ⟨congrArg (inner.buf ++ ·) List.take_length.symm, Nat.zero_le 0⟩
  | dropWriter => exact ⟨(List.append_nil inner.buf).symm, Nat.zero_le 0⟩

def bytesRead (taken : Transition Shared HandleAction) : List UInt8 :=
  ((outcome taken).map Outcome.data).getD []

def bytesAccepted (taken : Transition Shared HandleAction) : List UInt8 :=
  (taken.action.operation.map fun operation => operation.accepted taken.before.inner).getD []

/-- A read that gives no bytes, for whatever reason. -/
def givesNothing (taken : Transition Shared HandleAction) : Prop :=
  outcome taken = some (.read .wouldBlock) ∨ outcome taken = some (.read (.ok [])) ∨
    outcome taken = some (.polled .pending) ∨ outcome taken = some (.polled (.ready []))

/-- What was read, followed by what is still in the pipe, is what was written, byte
for byte and in order.  A read that gives nothing leaves the pipe as it is, and no
read gives more than fits into its caller's buffer. -/
structure LosslessFifo (history : List (Transition Shared HandleAction)) (final : Shared) :
    Prop where
  conserved : history.flatMap bytesRead ++ final.inner.buf = history.flatMap bytesAccepted
  nothing : forall taken, taken ∈ history -> givesNothing taken ->
    taken.after.inner.buf = taken.before.inner.buf
  fits : forall taken, taken ∈ history -> forall operation,
    taken.action.operation = some operation -> (bytesRead taken).length ≤ operation.room

private theorem step_balanced {shared after : Shared} {action : HandleAction}
    (stepped : shared.step action = some after) :
    bytesRead ⟨shared, action, after⟩ ++ after.inner.buf =
      shared.inner.buf ++ bytesAccepted ⟨shared, action, after⟩ := by
  rw [step_inner stepped]
  unfold bytesRead bytesAccepted outcome
  cases action.operation with
  | none => exact (List.append_nil _).symm
  | some operation => exact (perform_balanced shared.inner operation).1

private theorem givesNothing_bytes {taken : Transition Shared HandleAction}
    (nothing : givesNothing taken) : bytesRead taken = [] ∧ bytesAccepted taken = [] := by
  constructor
  · unfold bytesRead
    rcases nothing with same | same | same | same <;> rw [same] <;> rfl
  · rcases taken with ⟨before, action, after⟩
    cases action with
    | write writer bytes => rcases nothing with same | same | same | same <;> cases same
    | _ => rfl

/-- Whatever the handles do, the pipe is a lossless queue. -/
theorem pipe_lossless_fifo {history : List (Transition Shared HandleAction)} {final : Shared}
    (run : Run Shared.step freshPair history final) : LosslessFifo history final where
  conserved := run.flow (fun shared => shared.inner.buf) bytesRead bytesAccepted
    fun _ _ _ stepped => step_balanced stepped
  nothing := by
    intro taken member nothing
    have balanced := step_balanced (run.stepped taken member)
    rcases givesNothing_bytes nothing with ⟨noRead, noWrite⟩
    have same : bytesRead taken ++ taken.after.inner.buf =
        taken.before.inner.buf ++ bytesAccepted taken := balanced
    rw [noRead, noWrite, List.append_nil] at same
    exact same
  fits := by
    intro taken member operation operates
    rw [bytesRead, outcome, operates]
    exact (perform_balanced taken.before.inner operation).2

/-- Two writers and two readers, with buffers too large, too small and empty. -/
def sharedActions : List HandleAction :=
  [.cloneWriter 0 1, .write 0 [1, 2], .write 1 [3], .dropWriter 1, .cloneReader 0 1, .read 1 2,
    .pollRead 0 0 7, .dropReader 1, .write 0 [4], .pollRead 0 8 7, .read 0 1]

theorem sharedActions_enabled : (Run.play Shared.step freshPair sharedActions).isSome := by
  decide

theorem shared_actions_lossless :
    LosslessFifo ((Run.play Shared.step freshPair sharedActions).get sharedActions_enabled).1
      ((Run.play Shared.step freshPair sharedActions).get sharedActions_enabled).2 :=
  pipe_lossless_fifo (Run.of_enabled sharedActions sharedActions_enabled)

end Pipe
end WasmiPlugin
