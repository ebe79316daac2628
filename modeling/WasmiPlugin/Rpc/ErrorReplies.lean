import WasmiPlugin.Rpc.Correlation

namespace WasmiPlugin
namespace Rpc

open Foundation

/-!
# Error replies and the calls they answer

The error arm of `process_message` does not look at the id of the reply.  It
returns the error to whichever task read the line.  The reply therefore reaches
the call it answers exactly when that call read it, and harms no other call
exactly when no other call did.
-/

/-- An error reply ends the call whose id it carries, and no other call. -/
def Attributed (text : JsonText) (taken : Transition Transport TransportAction) : Prop :=
  forall task response, consuming text taken = some (task, .rpcErrorResponse response) ->
    forall call, (taken.before.task call).kind = .call ->
      (taken.before.task call).phase.inFlight = true ->
      if (taken.before.task call).id = response.id then
        (taken.after.task call).phase = .failed response.error
      else forall error, (taken.after.task call).phase ≠ .failed error

/-- An error reply is read by the call it answers or, when it answers no call in
flight, by a task that is not a call. -/
def ReadByOwner (text : JsonText) (taken : Transition Transport TransportAction) : Prop :=
  forall task response, consuming text taken = some (task, .rpcErrorResponse response) ->
    ((taken.before.task task).kind = .call ∧ (taken.before.task task).id = response.id) ∨
      ((taken.before.task task).kind ≠ .call ∧
        forall call, (taken.before.task call).kind = .call ->
          (taken.before.task call).phase.inFlight = true ->
          (taken.before.task call).id ≠ response.id)

variable {text : JsonText}

private theorem not_failed {phase : Phase} (inFlight : phase.inFlight = true)
    (error : RpcError) : phase ≠ .failed error := by
  intro failed
  rw [failed] at inFlight
  cases inFlight

/-- The task that reads an error reply fails with its error, and every other
task stays as it is. -/
private theorem error_consumed {before after : Transport} {action : TransportAction}
    {task : TaskId} {response : RpcErrorResponse} (stepped : before.step text action = some after)
    (consumed : consuming text ⟨before, action, after⟩ = some (task, .rpcErrorResponse response)) :
    (before.task task).phase.inFlight = true ∧
      (after.task task).phase = .failed response.error ∧
      forall other, other ≠ task -> after.task other = before.task other := by
  rcases Transport.step_consuming stepped consumed with ⟨⟨line, reading⟩, reader, same⟩
  refine ⟨Phase.inFlight_of_partialLine reading, ?_, fun other different => ?_⟩
  · rw [same, Transport.processMessage, Transport.setPhase_task]
  · rw [same, Transport.processMessage, Transport.setPhase_other _ _ different]

private theorem attributed_iff {calls : List (TaskId × UInt64)}
    {answers : UInt64 -> List RpcResponse} {before after : Transport} {action : TransportAction}
    (book : Book calls answers before) (few : calls.length ≤ 2 ^ 64)
    (stepped : before.step text action = some after) :
    Attributed text ⟨before, action, after⟩ ↔ ReadByOwner text ⟨before, action, after⟩ := by
  constructor
  · intro attributed task response consumed
    rcases error_consumed stepped consumed with ⟨inFlight, failed, others⟩
    by_cases call : (before.task task).kind = .call
    · refine .inl ⟨call, ?_⟩
      have own := attributed task response consumed task call inFlight
      by_cases same : (before.task task).id = response.id
      · exact same
      · rw [if_neg same] at own
        exact absurd failed (own response.error)
    · refine .inr ⟨call, fun other otherCall otherInFlight same => ?_⟩
      have answered := attributed task response consumed other otherCall otherInFlight
      have different : other ≠ task := fun this => call (this ▸ otherCall)
      rw [if_pos same, show after.task other = _ from others other different] at answered
      exact not_failed otherInFlight response.error answered
  · intro read task response consumed other otherCall otherInFlight
    rcases error_consumed stepped consumed with ⟨inFlight, failed, others⟩
    rcases read task response consumed with ⟨call, same⟩ | ⟨notCall, foreign⟩
    · by_cases own : (before.task other).id = response.id
      · rw [if_pos own]
        -- Both tasks are calls with this id, hence one task.
        have taskListed := book.started task call fun idle => by
          rw [idle] at inFlight
          cases inFlight
        have otherListed := book.started other otherCall fun idle => by
          rw [idle] at otherInFlight
          cases otherInFlight
        rw [show (before.task task).id = response.id from same] at taskListed
        rw [own] at otherListed
        rw [book.unique few otherListed taskListed]
        exact failed
      · rw [if_neg own]
        intro error
        have different : other ≠ task := fun this => own (this ▸ same)
        rw [show after.task other = _ from others other different]
        exact not_failed otherInFlight error
    · rw [if_neg (foreign other otherCall otherInFlight)]
      intro error
      have different : other ≠ task := fun this => notCall (this ▸ otherCall)
      rw [show after.task other = _ from others other different]
      exact not_failed otherInFlight error

/-- In a run, every error reply reaches the call it answers and no other call
exactly when each is read by its owner. -/
theorem error_replies_attributed_iff {reader : LineReader} {handler : Bool}
    {history : List (Transition Transport TransportAction)} {final : Transport}
    (run : Run (Transport.step text) (.new reader handler) history final)
    (few : (calls history).length ≤ 2 ^ 64) :
    (forall taken, taken ∈ history -> Attributed text taken) ↔
      forall taken, taken ∈ history -> ReadByOwner text taken := by
  have each : forall taken, taken ∈ history ->
      (Attributed text taken ↔ ReadByOwner text taken) := by
    intro taken member
    rcases List.append_of_mem member with ⟨earlier, later, shape⟩
    rcases run.split shape with ⟨reached, stepped⟩
    have shorter := Nat.le_trans (calls_earlier shape) few
    exact attributed_iff (Book.run reached shorter) shorter stepped
  exact ⟨fun all taken member => (each taken member).mp (all taken member),
    fun all taken member => (each taken member).mpr (all taken member)⟩

/-! ## A refusal of the second call -/

def secondRefused : RpcMessage := .rpcErrorResponse ⟨jsonRpcVersion, 1, .methodNotFound⟩

def refusalText : JsonText := compactText [secondRefused.serialize]

/-- Task 0 waits for input and task 1 for the reader when the second call is
refused, so that task 0 reads the refusal. -/
def refusedElsewhere : List TransportAction :=
  [.call 0 "first" .null true, .poll 0, .call 1 "second" .null true,
    arrives refusalText secondRefused, .poll 0]

theorem refusedElsewhere_enabled : (Run.play (Transport.step refusalText)
    (.new ⟨[], [], false⟩ false) refusedElsewhere).isSome := by
  decide

def refusedHistory : List (Transition Transport TransportAction) :=
  ((Run.play (Transport.step refusalText) (.new ⟨[], [], false⟩ false) refusedElsewhere).get
    refusedElsewhere_enabled).1

/-- The last transition of this run, in which task 0 reads the refusal of task 1's
call. -/
def refusedRead : Transition Transport TransportAction :=
  refusedHistory.get ⟨4, by decide⟩

theorem secondRefused_faithful : refusalText.Faithful secondRefused.serialize :=
  .of_text rfl (by decide) (by decide) (by decide)

theorem refusedRead_consuming : consuming refusalText refusedRead = some (0, secondRefused) := by
  have line : refusedRead.before.lineRead 0 = some (frame refusalText secondRefused) := by decide
  have action : refusedRead.action = .poll 0 := rfl
  simp only [consuming, action, line, Option.bind_some, decodeLine_frame secondRefused_faithful,
    Option.map_some]

theorem refused_not_attributed :
    ¬ forall taken, taken ∈ refusedHistory -> Attributed refusalText taken := by
  intro attributed
  have member : refusedRead ∈ refusedHistory := List.get_mem ..
  have spared := attributed refusedRead member 0 _ refusedRead_consuming 0 (by decide) (by decide)
  rw [if_neg (by decide)] at spared
  have stepped := (Run.of_enabled refusedElsewhere refusedElsewhere_enabled).stepped _ member
  exact spared _ (error_consumed stepped refusedRead_consuming).2.1

/-- The error reply to the second of two calls fails the first one, which happens to
read it. -/
theorem refusal_ends_wrong_call :
    ¬ forall text reader handler history final,
        Run (Transport.step text) (.new reader handler) history final ->
        (calls history).length ≤ 2 ^ 64 ->
        forall taken, taken ∈ history -> Attributed text taken := by
  intro law
  exact refused_not_attributed (law refusalText _ _ _ _
    (Run.of_enabled refusedElsewhere refusedElsewhere_enabled) (by decide))

/-- The characterisation at that run: the refusal does not reach its call, because
another call reads it. -/
theorem refused_not_read_by_owner :
    ¬ forall taken, taken ∈ refusedHistory -> ReadByOwner refusalText taken := by
  intro owned
  exact refused_not_attributed ((error_replies_attributed_iff
    (Run.of_enabled refusedElsewhere refusedElsewhere_enabled) (by decide)).mpr owned)

end Rpc
end WasmiPlugin
