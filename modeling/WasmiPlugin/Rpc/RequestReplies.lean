import WasmiPlugin.Rpc.Correlation

namespace WasmiPlugin
namespace Rpc

open Foundation

/-!
# Requests and their replies

A task that reads a request passes it to the handler it was given, and writes
the reply when the handler returns.  It reads no other line in between, so the
requests a task consumes and the replies it writes correspond one by one, in
order.  A task without a handler returns an error instead and writes nothing.
For a call this is the handler of the transport, which one made by
`JsonRpcTransport::new` does not have.

The writer does not fail here, and a handler that was called returns.
-/

def Phase.request : Phase -> Option RpcRequest
  | .handling request => some request
  | _ => none

/-- The lines that answer a request. -/
def RpcMessage.isReply : RpcMessage -> Bool
  | .rpcRequest _ => false
  | .rpcResponse _ => true
  | .rpcErrorResponse _ => true

/-- `Router::handle_with_state`, given which methods are registered and what
the registered function returns. -/
def Router.handleWithState (registered : String -> Bool) (method : String)
    (outcome : Except RpcError Value) : Except RpcError Value :=
  if registered method then outcome else .error .methodNotFound

section Events

variable (text : JsonText) (taken : Transition Transport TransportAction)

/-- The request that a transition consumes, with the task that does. -/
def requesting : Option (TaskId × RpcRequest) :=
  match consuming text taken with
  | some (task, .rpcRequest request) => some (task, request)
  | _ => none

/-- What a handler returns in a transition, with its task and its request. -/
def returning : Option (TaskId × RpcRequest × Except RpcError Value) :=
  match taken.action with
  | .handlerReturns task result _ =>
      (taken.before.task task).phase.request.map fun request => (task, request, result)
  | _ => none

def writing : List RpcMessage :=
  taken.after.written.drop taken.before.written.length

/-- The writer does not fail, and a task is not dropped while it waits for a
handler. -/
def Works : Prop :=
  match taken.action with
  | .call _ _ _ writes => writes = true
  | .handlerReturns _ _ writes => writes = true
  | .drop task => (taken.before.task task).phase.request = none
  | _ => True

/-- A request is read by a task that has a handler. -/
def ReadByHandler : Prop :=
  forall task request, requesting text taken = some (task, request) ->
    taken.before.hasHandler task = true

/-- What a handler returns in this transition it has from a router. -/
def Routed (registered : String -> Bool) : Prop :=
  forall task request result, returning taken = some (task, request, result) ->
    Exists fun outcome => result = Router.handleWithState registered request.method outcome

instance decidableWorks : Decidable (Works taken) :=
  match taken with
  | ⟨_, .call _ _ _ writes, _⟩ => inferInstanceAs (Decidable (writes = true))
  | ⟨_, .handlerReturns _ _ writes, _⟩ => inferInstanceAs (Decidable (writes = true))
  | ⟨before, .drop task, _⟩ =>
      inferInstanceAs (Decidable ((before.task task).phase.request = none))
  | ⟨_, .processNextLine _ _, _⟩ => inferInstanceAs (Decidable True)
  | ⟨_, .poll _, _⟩ => inferInstanceAs (Decidable True)
  | ⟨_, .arrive _, _⟩ => inferInstanceAs (Decidable True)
  | ⟨_, .hangUp, _⟩ => inferInstanceAs (Decidable True)

instance decidableReadByHandler : Decidable (ReadByHandler text taken) :=
  decidable_of_iff (forall request, request ∈ requesting text taken ->
    taken.before.hasHandler request.1 = true)
    ⟨fun all task request requested => all (task, request) requested,
      fun all request requested => all request.1 request.2 requested⟩

end Events

section History

variable (text : JsonText) (history : List (Transition Transport TransportAction))

/-- The requests that a task has consumed, in order. -/
def consumedBy (task : TaskId) : List RpcRequest :=
  history.filterMap fun taken => (requesting text taken).bind fun request =>
    if request.1 = task then some request.2 else none

def handledBy (task : TaskId) : List (RpcRequest × Except RpcError Value) :=
  history.filterMap fun taken => (returning taken).bind fun returned =>
    if returned.1 = task then some returned.2 else none

def repliesBy (task : TaskId) : List RpcMessage :=
  history.flatMap fun taken =>
    if taken.action.actor = some task then (writing taken).filter RpcMessage.isReply else []

/-- Every request is answered exactly once, and one that nobody can handle is refused. -/
structure RequestsAnswered (transport : Transport) : Prop where
  /-- The handler was called for each request and has returned, except perhaps
  for the last. -/
  handled : forall task, consumedBy text history task =
    (handledBy history task).map Prod.fst ++ (transport.task task).phase.request.toList
  /-- Each result is written in one line with the id of its request. -/
  replied : forall task, repliesBy history task =
    (handledBy history task).map fun returned => Transport.reply returned.1 returned.2
  /-- A request that nobody can handle is refused: there is no handler,. -/
  refused : forall taken task request, taken ∈ history ->
    requesting text taken = some (task, request) -> taken.before.hasHandler task = false ->
    Transport.reply request (.error .methodNotFound) ∈ transport.written
  /-- or the handler is a router without the method. -/
  unrouted : forall registered, (forall taken, taken ∈ history -> Routed taken registered) ->
    forall task request result, (request, result) ∈ handledBy history task ->
    registered request.method = false -> result = .error .methodNotFound
  /-- Responses and error replies are consumed in silence. -/
  silent : forall taken task message, taken ∈ history ->
    consuming text taken = some (task, message) -> message.isReply = true -> writing taken = []
  /-- Neither reading nor answering a request ends a call.  A call whose sender
  was dropped ends by itself. -/
  unharmed : forall taken, taken ∈ history ->
    requesting text taken ≠ none ∨ returning taken ≠ none ->
    forall call, (taken.before.task call).kind = .call ->
    (taken.before.task call).phase.inFlight = true ->
    (taken.before.task call).channel ≠ .canceled ->
    (taken.after.task call).phase.error = none

end History

variable {text : JsonText}

/-! ## What a step does for a request -/

theorem Transport.proceed_written (transport : Transport) (task : TaskId) :
    (transport.proceed task).written = transport.written := by
  rcases transport.proceed_shape task with ⟨phase, same⟩
  rw [same]
  rfl

theorem Transport.deliver_written (transport : Transport) (response : RpcResponse) :
    (transport.deliver response).written = transport.written := by
  unfold Transport.deliver
  split
  · rfl
  · split <;> rfl

theorem Transport.proceed_request (transport : Transport) (task : TaskId) :
    ((transport.proceed task).task task).phase.request = none := by
  unfold Transport.proceed
  split <;> rw [Transport.setPhase_task] <;> rfl

theorem Transport.setPhase_request (transport : Transport) (task : TaskId) (phase : Phase) :
    ((transport.setPhase task phase).task task).phase.request = phase.request := by
  rw [Transport.setPhase_task]

/-- What a call finds in its channel is not an error unless its sender is gone. -/
theorem Transport.proceed_error {transport : Transport} {task : TaskId}
    (present : (transport.task task).channel ≠ .canceled) :
    ((transport.proceed task).task task).phase.error = none := by
  unfold Transport.proceed
  split
  · rw [Transport.setPhase_task]; rfl
  · rw [Transport.setPhase_task]; rfl
  · next canceled => exact absurd canceled present
  · rw [Transport.setPhase_task]; rfl

theorem writing_same {before after : Transport} {action : TransportAction}
    (same : after.written = before.written) : writing ⟨before, action, after⟩ = [] := by
  simp only [writing, same, List.drop_length]

theorem writing_message {before after : Transport} {action : TransportAction}
    {message : RpcMessage} (same : after.written = before.written ++ [message]) :
    writing ⟨before, action, after⟩ = [message] := by
  simp only [writing, same, List.drop_left]

/-- A transition takes a request from the reader, or answers one, or has nothing
to do with requests. -/
inductive Serves (text : JsonText) (taken : Transition Transport TransportAction) : Prop
  | takes (task : TaskId) (request : RpcRequest) :
      requesting text taken = some (task, request) -> returning taken = none ->
      writing taken = [] -> taken.action.actor = some task ->
      (taken.before.task task).phase.request = none ->
      (taken.after.task task).phase.request = (if taken.before.hasHandler task then some request
        else none) -> Serves text taken
  | answers (task : TaskId) (request : RpcRequest) (result : Except RpcError Value) :
      requesting text taken = none -> returning taken = some (task, request, result) ->
      writing taken = [Transport.reply request result] -> taken.action.actor = some task ->
      (taken.before.task task).phase.request = some request ->
      (taken.after.task task).phase.request = none -> Serves text taken
  | other : requesting text taken = none -> returning taken = none ->
      (writing taken).filter RpcMessage.isReply = [] ->
      (forall task,
        (taken.after.task task).phase.request = (taken.before.task task).phase.request) ->
      Serves text taken

private theorem request_kept {before after : Transport} {action : TransportAction}
    (stepped : before.step text action = some after)
    (actor : forall task, action.actor = some task ->
      (before.task task).phase.request = none ∧ (after.task task).phase.request = none)
    (task : TaskId) : (after.task task).phase.request = (before.task task).phase.request := by
  by_cases acting : action.actor = some task
  · rw [(actor task acting).1, (actor task acting).2]
  · rw [Transport.step_other stepped acting]

private theorem request_of_partialLine {phase : Phase} {line : List UInt8}
    (reading : phase.partialLine = some line) : phase.request = none := by
  cases phase <;> first | rfl | cases reading

private theorem nextLine_silent {transport : Transport} {task : TaskId} {line : List UInt8}
    (reading : (transport.task task).phase.partialLine = some line)
    (silent : (transport.lineRead task).bind (decodeLine text) = none) :
    ((transport.nextLine text task line).task task).phase.request = none := by
  simp only [Transport.lineRead, reading] at silent
  rw [Transport.nextLine]
  rcases outcome : transport.reader.readLine line with ⟨result, read, rest⟩
  rw [outcome] at silent
  cases result with
  | ok count =>
      cases count with
      | zero => exact Transport.setPhase_request ..
      | succ count =>
          have malformed : decodeLine text read = none := silent
          simp only [Transport.processLine, malformed, Transport.setPhase_task, Phase.request]
  | wouldBlock | failed => exact Transport.setPhase_request ..

private theorem poll_serves {before after : Transport} {task : TaskId}
    (stepped : before.step text (.poll task) = some after) :
    Serves text ⟨before, .poll task, after⟩ := by
  have kept := request_kept stepped
  rcases Transport.step_poll stepped with ⟨line, reading, rfl⟩
  have none := request_of_partialLine reading
  rcases Transport.nextLine_cases text before task line reading with
    ⟨reader, guard, ⟨silent, phase, onward, same⟩ | ⟨message, read, rfl, same⟩⟩
  · refine .other ?_ rfl ?_ (kept fun acting this => ?_)
    · simp only [requesting, consuming, silent, Option.map_none]
    · rw [writing_same (by rw [same]; rfl)]
      rfl
    · cases this
      exact ⟨none, nextLine_silent reading silent⟩
  · have consumed : consuming text ⟨before, .poll task, before.nextLine text task line⟩ =
        some (task, message) := by
      simp only [consuming, read, Option.map_some]
    cases message with
    | rpcResponse response =>
        refine .other (by simp only [requesting, consumed]) rfl ?_ (kept fun acting this => ?_)
        · rw [writing_same]
          · rfl
          · rw [same, Transport.processMessage, Transport.proceed_written,
              Transport.deliver_written]
        · cases this
          exact ⟨none, by rw [same]; exact Transport.proceed_request ..⟩
    | rpcErrorResponse response =>
        refine .other (by simp only [requesting, consumed]) rfl ?_ (kept fun acting this => ?_)
        · rw [writing_same (by rw [same]; rfl)]
          rfl
        · cases this
          exact ⟨none, by rw [same, Transport.processMessage, Transport.setPhase_task]; rfl⟩
    | rpcRequest request =>
        refine .takes task request (by simp only [requesting, consumed]) rfl
          (writing_same ?_) rfl none ?_
        · rw [same, Transport.processMessage]
          split <;> rfl
        · rw [same, Transport.processMessage]
          have able : Transport.hasHandler
              { before with reader := reader, readerGuard := Option.none } task =
                before.hasHandler task := rfl
          rw [able]
          split <;> rw [Transport.setPhase_task] <;> rfl

theorem step_serves {before after : Transport} {action : TransportAction}
    (stepped : before.step text action = some after) (works : Works ⟨before, action, after⟩) :
    Serves text ⟨before, action, after⟩ := by
  have kept := request_kept stepped
  cases action with
  | call task method params writes =>
      have succeeds : writes = true := works
      simp only [Transport.step, succeeds, if_true] at stepped
      split at stepped
      · next idle =>
          have same := Option.some.inj stepped
          refine .other rfl rfl ?_ (kept fun acting this => ?_)
          · have written : after.written = before.written ++
                [.rpcRequest ⟨jsonRpcVersion, before.id, method, params⟩] := by
              rw [← same, Transport.proceed_written]
              rfl
            rw [writing_message written]
            rfl
          · cases this
            exact ⟨by rw [idle]; rfl, by rw [← same]; exact Transport.proceed_request ..⟩
      · cases stepped
  | processNextLine task handler =>
      simp only [Transport.step] at stepped
      split at stepped
      · next idle =>
          have same := Option.some.inj stepped
          refine .other rfl rfl ?_ (kept fun acting this => ?_)
          · rw [writing_same (by rw [← same]; rfl)]
            rfl
          · cases this
            refine ⟨by rw [idle]; rfl, ?_⟩
            rw [← same, Transport.setTask_task]
            rfl
      · cases stepped
  | poll task => exact poll_serves stepped
  | handlerReturns task result writes =>
      have succeeds : writes = true := works
      simp only [Transport.step, succeeds, if_true] at stepped
      split at stepped
      · next request handling =>
          have same := Option.some.inj stepped
          refine .answers task request result rfl ?_ (writing_message ?_) rfl ?_ ?_
          · simp only [returning, handling, Phase.request, Option.map_some]
          · rw [← same, Transport.proceed_written]
            rfl
          · rw [handling]
            rfl
          · rw [← same]
            exact Transport.proceed_request ..
      · cases stepped
  | drop task =>
      have waiting : (before.task task).phase.request = none := works
      have dropped : after.written = before.written ∧
          (after.task task).phase.request = none := by
        simp only [Transport.step] at stepped
        split at stepped
        · rw [← Option.some.inj stepped, Transport.setPhase_task]
          exact ⟨rfl, rfl⟩
        · split at stepped
          · rw [← Option.some.inj stepped, Transport.setPhase_task]
            exact ⟨rfl, rfl⟩
          · cases stepped
      refine .other rfl rfl ?_ (kept fun acting this => ?_)
      · rw [writing_same dropped.1]
        rfl
      · cases this
        exact ⟨waiting, dropped.2⟩
  | arrive delivery =>
      simp only [Transport.step] at stepped
      split at stepped
      · cases stepped
      · refine .other rfl rfl ?_ (kept fun acting this => by cases this)
        rw [writing_same (by rw [← Option.some.inj stepped])]
        rfl
  | hangUp =>
      refine .other rfl rfl ?_ (kept fun acting this => by cases this)
      rw [writing_same (by rw [← Option.some.inj stepped])]
      rfl

/-! ## One transition more -/

section Extend

variable (history : List (Transition Transport TransportAction))
  (taken : Transition Transport TransportAction) (task : TaskId)

theorem consumedBy_extend : consumedBy text (history ++ [taken]) task =
    consumedBy text history task ++ ((requesting text taken).bind fun request =>
      if request.1 = task then some request.2 else none).toList :=
  filterMap_extend ..

theorem handledBy_extend : handledBy (history ++ [taken]) task =
    handledBy history task ++ ((returning taken).bind fun returned =>
      if returned.1 = task then some returned.2 else none).toList :=
  filterMap_extend ..

theorem repliesBy_extend : repliesBy (history ++ [taken]) task =
    repliesBy history task ++
      if taken.action.actor = some task then (writing taken).filter RpcMessage.isReply else [] := by
  rw [repliesBy, List.flatMap_append, List.flatMap_singleton]
  rfl

end Extend

private structure Served (text : JsonText)
    (history : List (Transition Transport TransportAction)) (transport : Transport) : Prop where
  handled : forall task, consumedBy text history task =
    (handledBy history task).map Prod.fst ++ (transport.task task).phase.request.toList
  replied : forall task, repliesBy history task =
    (handledBy history task).map fun returned => Transport.reply returned.1 returned.2
  unrouted : forall registered, (forall taken, taken ∈ history -> Routed taken registered) ->
    forall task request result, (request, result) ∈ handledBy history task ->
    registered request.method = false -> result = .error .methodNotFound

private theorem reply_isReply (request : RpcRequest) (result : Except RpcError Value) :
    (Transport.reply request result).isReply = true := by
  cases result <;> rfl

private theorem Served.step {history : List (Transition Transport TransportAction)}
    {before after : Transport} {action : TransportAction} (served : Served text history before)
    (stepped : before.step text action = some after) (works : Works ⟨before, action, after⟩)
    (read : ReadByHandler text ⟨before, action, after⟩) :
    Served text (history ++ [⟨before, action, after⟩]) after where
  handled := by
    intro task
    rw [consumedBy_extend, handledBy_extend, served.handled task]
    cases step_serves stepped works with
    | takes reader request requested quiet silent acting idle handling =>
        rw [requested, quiet]
        rw [read reader request requested, if_pos rfl] at handling
        by_cases same : reader = task
        · subst same
          rw [idle, handling]
          simp
        · have kept := Transport.step_other stepped fun this =>
            same (Option.some.inj (acting.symm.trans this))
          rw [kept]
          simp [same]
    | answers reader request result unrequested returned written acting handling idle =>
        rw [unrequested, returned]
        by_cases same : reader = task
        · subst same
          rw [idle, handling]
          simp
        · have kept := Transport.step_other stepped fun this =>
            same (Option.some.inj (acting.symm.trans this))
          rw [kept]
          simp [same]
    | other unrequested quiet silent kept =>
        rw [unrequested, quiet, kept task]
        simp
  replied := by
    intro task
    rw [repliesBy_extend, handledBy_extend, served.replied task]
    cases step_serves stepped works with
    | takes reader request requested quiet silent acting idle handling =>
        rw [quiet, silent]
        simp
    | answers reader request result unrequested returned written acting handling idle =>
        rw [returned, written, acting]
        by_cases same : reader = task
        · simp [same, reply_isReply]
        · simp [same]
    | other unrequested quiet silent kept =>
        rw [quiet, silent]
        simp
  unrouted := by
    intro registered routed task request result member unregistered
    have earlier : forall taken, taken ∈ history -> Routed taken registered :=
      fun taken listed => routed taken (List.mem_append_left _ listed)
    rw [handledBy_extend] at member
    rcases List.mem_append.mp member with old | new
    · exact served.unrouted registered earlier task request result old unregistered
    · rcases Option.bind_eq_some_iff.mp (Option.mem_toList.mp new) with ⟨returned, made, own⟩
      split at own
      · have last := routed _ (List.mem_append_right _ List.mem_cons_self) returned.1 request result
          (by rw [made, ← Option.some.inj own])
        rcases last with ⟨outcome, same⟩
        rw [same, Router.handleWithState, unregistered, if_neg Bool.false_ne_true]
      · cases own

private theorem reply_silent {before after : Transport} {action : TransportAction}
    (stepped : before.step text action = some after) {task : TaskId} {message : RpcMessage}
    (consumed : consuming text ⟨before, action, after⟩ = some (task, message))
    (reply : message.isReply = true) : writing ⟨before, action, after⟩ = [] := by
  rcases Transport.step_consuming stepped consumed with ⟨_, reader, same⟩
  refine writing_same ?_
  rw [same]
  cases message with
  | rpcRequest request => cases reply
  | rpcResponse response =>
      rw [Transport.processMessage, Transport.proceed_written, Transport.deliver_written]
  | rpcErrorResponse response => rfl

theorem consuming_of_requesting {taken : Transition Transport TransportAction} {task : TaskId}
    {request : RpcRequest} (requested : requesting text taken = some (task, request)) :
    consuming text taken = some (task, .rpcRequest request) := by
  unfold requesting at requested
  split at requested
  · next consumed =>
      cases requested
      exact consumed
  · cases requested

private theorem request_unhandled {before after : Transport} {action : TransportAction}
    (stepped : before.step text action = some after) {task : TaskId} {request : RpcRequest}
    (requested : requesting text ⟨before, action, after⟩ = some (task, request))
    (unable : before.hasHandler task = false) :
    (before.task task).phase.request = none ∧ (after.task task).phase.request = none ∧
      returning ⟨before, action, after⟩ = none := by
  have consumed := consuming_of_requesting requested
  rcases Transport.step_consuming stepped consumed with ⟨⟨line, reading⟩, reader, same⟩
  have polled : action = .poll task := consuming_poll consumed
  refine ⟨request_of_partialLine reading, ?_, by rw [polled]; rfl⟩
  have still : Transport.hasHandler
      { before with reader := reader, readerGuard := none } task = false := unable
  rw [same, Transport.processMessage, still, if_neg Bool.false_ne_true,
    Transport.setPhase_request]
  rfl

private theorem request_harmless {before after : Transport} {action : TransportAction}
    (stepped : before.step text action = some after) (works : Works ⟨before, action, after⟩)
    (read : ReadByHandler text ⟨before, action, after⟩)
    (serving : requesting text ⟨before, action, after⟩ ≠ none ∨
      returning ⟨before, action, after⟩ ≠ none) (call : TaskId)
    (inFlight : (before.task call).phase.inFlight = true)
    (present : (before.task call).channel ≠ .canceled) :
    (after.task call).phase.error = none := by
  have running : (before.task call).phase.error = none := by
    cases phase : (before.task call).phase <;>
      first | rfl | (rw [phase] at inFlight; cases inFlight)
  by_cases acting : action.actor = some call
  · rcases serving with requested | returned
    · rcases Option.ne_none_iff_exists'.mp requested with ⟨⟨task, request⟩, requested⟩
      have consumed := consuming_of_requesting requested
      have polled : action = .poll task := consuming_poll consumed
      rw [polled] at acting
      cases acting
      rcases Transport.step_consuming stepped consumed with ⟨_, reader, same⟩
      have able : Transport.hasHandler
          { before with reader := reader, readerGuard := none } call = true :=
        read call request requested
      rw [same, Transport.processMessage, able, if_pos rfl, Transport.setPhase_task]
      rfl
    · cases action with
      | handlerReturns task result writes =>
          cases acting
          have succeeds : writes = true := works
          simp only [Transport.step, succeeds, if_true] at stepped
          split at stepped
          · rw [← Option.some.inj stepped]
            exact Transport.proceed_error present
          · cases stepped
      | call | processNextLine | poll | drop | arrive | hangUp => exact absurd rfl returned
  · rw [Transport.step_other stepped acting]
    exact running

private theorem Served.requestsAnswered {part : List (Transition Transport TransportAction)}
    {transport : Transport} (served : Served text part transport)
    (stepped : forall taken, taken ∈ part ->
      taken.before.step text taken.action = some taken.after)
    (works : forall taken, taken ∈ part -> Works taken)
    (read : forall taken, taken ∈ part -> ReadByHandler text taken) :
    RequestsAnswered text part transport where
  handled := served.handled
  replied := served.replied
  unrouted := served.unrouted
  refused := by
    intro taken task request member requested unable
    rw [read taken member task request requested] at unable
    cases unable
  silent := fun taken _ _ member consumed reply =>
    reply_silent (stepped taken member) consumed reply
  unharmed := fun taken member serving call _ inFlight present =>
    request_harmless (stepped taken member) (works taken member) (read taken member) serving call
      inFlight present

/-- With a writer that does not fail and handlers that return, every request is
answered exactly once, at every point of a run, exactly when each is read by a
task that has a handler. -/
theorem requests_answered_iff {reader : LineReader} {handler : Bool}
    {history : List (Transition Transport TransportAction)} {final : Transport}
    (run : Run (Transport.step text) (.new reader handler) history final)
    (works : forall taken, taken ∈ history -> Works taken) :
    Run.Throughout (RequestsAnswered text) (.new reader handler) history ↔
      forall taken, taken ∈ history -> ReadByHandler text taken := by
  constructor
  · intro answered taken member task request requested
    rcases List.append_of_mem member with ⟨earlier, later, shape⟩
    have before := (Run.Throughout.before run answered shape).handled task
    have after := (answered.2 earlier taken later shape).handled task
    cases able : taken.before.hasHandler task with
    | true => rfl
    | false =>
        -- The request would be one that was neither answered nor is waited for.
        rcases request_unhandled (run.stepped taken member) requested able with
          ⟨idle, still, quiet⟩
        have idle : (taken.before.task task).phase.request = none := idle
        have quiet : returning taken = none := quiet
        have requested : requesting text taken = some (task, request) := requested
        rw [consumedBy_extend, handledBy_extend, requested, quiet, before, idle, still] at after
        simp at after
  · intro read
    have along := run.throughout (Served text)
      (fun taken => Works taken ∧ ReadByHandler text taken)
      ⟨fun _ => rfl, fun _ => rfl, fun _ _ _ _ _ member => absurd member List.not_mem_nil⟩
      (fun taken member => ⟨works taken member, read taken member⟩)
      (fun earlier state action next served stepped meets => served.step stepped meets.1 meets.2)
    have within (earlier : List (Transition Transport TransportAction)) (state : Transport)
        (part : earlier <+: history) (served : Served text earlier state) :
        RequestsAnswered text earlier state :=
      served.requestsAnswered (fun taken member => run.stepped taken (part.subset member))
        (fun taken member => works taken (part.subset member))
        (fun taken member => read taken (part.subset member))
    refine ⟨within [] _ List.nil_prefix along.2.1, fun earlier taken later shape => ?_⟩
    refine within _ _ ⟨later, ?_⟩ (along.2.2 earlier taken later shape)
    rw [shape, List.append_assoc, List.singleton_append]

/-! ## A request during a call -/

def peerRequest : RpcMessage := .rpcRequest ⟨jsonRpcVersion, 7, "log", .null⟩

def requestText : JsonText := compactText [peerRequest.serialize, firstReply.serialize]

/-- The peer sends a request while a call waits for its response. -/
def requestDuringCall : List TransportAction :=
  [.call 0 "get" .null true, arrives requestText peerRequest, .poll 0]

theorem requestDuringCall_enabled : (Run.play (Transport.step requestText)
    (.new ⟨[], [], false⟩ false) requestDuringCall).isSome := by
  decide

/-- Without a handler the call that reads the request returns an error, and the
request has no reply. -/
theorem request_ends_call :
    ¬ forall text reader handler history final,
        Run (Transport.step text) (.new reader handler) history final ->
        (forall taken, taken ∈ history -> Works taken) ->
        Run.Throughout (RequestsAnswered text) (.new reader handler) history := by
  intro law
  have run := Run.of_enabled requestDuringCall requestDuringCall_enabled
  have answered := Run.Throughout.last run (law _ _ _ _ _ run (by decide))
  have spared := answered.unharmed _ (List.get_mem _ ⟨2, by decide⟩)
    (.inl (Option.isSome_iff_ne_none.mp (by decide))) 0 (by decide) (by decide) nofun
  exact absurd spared (by decide)

/-- A task with a handler reads a request, and its handler returns. -/
def requestServed : List TransportAction :=
  requestDuringCall ++
    [.handlerReturns 0 (.ok .null) true, arrives requestText firstReply, .poll 0]

theorem requestServed_enabled : (Run.play (Transport.step requestText)
    (.new ⟨[], [], false⟩ true) requestServed).isSome := by
  decide

/-- The characterisation at that run: the request is answered, because a task with a
handler reads it. -/
theorem served_request_answered :
    Run.Throughout (RequestsAnswered requestText) (.new ⟨[], [], false⟩ true)
      ((Run.play (Transport.step requestText) (.new ⟨[], [], false⟩ true) requestServed).get
        requestServed_enabled).1 :=
  (requests_answered_iff (Run.of_enabled requestServed requestServed_enabled) (by decide)).mpr
    (by decide)

end Rpc
end WasmiPlugin
