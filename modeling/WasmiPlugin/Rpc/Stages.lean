import WasmiPlugin.Rpc.Conversation

namespace WasmiPlugin
namespace Rpc

open Foundation

/-!
# The stages of a conversation

The two sides number their calls independently, so a host's and a guest's message
may carry the same id.  What keeps them apart is that at most one message is
under way at any time, and that exactly one party can read it.  A conversation is
always in one of eight stages, which say where that message is.

First come the steps of one transport, as far as a conversation takes them.
-/

variable {text : JsonText}

/-! ## One transport -/

namespace Transport

@[simp] theorem setPhase_handler (transport : Transport) (task : TaskId) (phase : Phase) :
    (transport.setPhase task phase).handler = transport.handler := rfl

@[simp] theorem setPhase_reader (transport : Transport) (task : TaskId) (phase : Phase) :
    (transport.setPhase task phase).reader = transport.reader := rfl

@[simp] theorem setPhase_written (transport : Transport) (task : TaskId) (phase : Phase) :
    (transport.setPhase task phase).written = transport.written := rfl

theorem setPhase_injective {transport : Transport} {task : TaskId} {phase other : Phase}
    (same : transport.setPhase task phase = transport.setPhase task other) : phase = other := by
  have stands := congrArg (fun transport : Transport => (transport.task task).phase) same
  simpa only [setPhase_task] using stands

/-- A task is inside `next_line` at the beginning of a line, and its reader will find
these messages and nothing else. -/
structure Awaits (text : JsonText) (transport : Transport) (task : TaskId) (kind : TaskKind)
    (inbox : List RpcMessage) (closed : Bool) : Prop where
  phase : (transport.task task).phase.partialLine = some []
  kind : (transport.task task).kind = kind
  channel : (transport.task task).channel = .empty
  reader : transport.reader = .holding text inbox closed

/-- What a step leaves alone but for one task. -/
structure Beside (task : TaskId) (before after : Transport) : Prop where
  id : after.id = before.id
  handler : after.handler = before.handler
  others : forall other, other ≠ task -> after.task other = before.task other

theorem Beside.setPhase (transport : Transport) (task : TaskId) (phase : Phase)
    (reader : LineReader) (guard : Option TaskId) :
    Beside task transport
      ({ transport with reader := reader, readerGuard := guard }.setPhase task phase) :=
  ⟨rfl, rfl, fun _ different => setPhase_other _ phase different⟩

/-- A poll of a task whose pipe is empty changes nothing but its phase. -/
theorem Awaits.silent {transport next : Transport} {task : TaskId} {kind : TaskKind}
    (awaits : transport.Awaits text task kind [] false)
    (stepped : transport.step text (.poll task) = some next) :
    next.Awaits text task kind [] false ∧ Beside task transport next ∧
      next.pending = transport.pending ∧ next.written = transport.written := by
  rcases step_poll stepped with ⟨line, reading, rfl⟩
  cases reading.symm.trans awaits.phase
  have same : transport.nextLine text task [] =
      { transport with
        reader := .holding text [] false
        readerGuard := some task }.setPhase task (.yielding []) := by
    -- an empty pipe with a living writer would block
    rw [nextLine, awaits.reader]
    rfl
  rw [same]
  refine ⟨⟨?_, ?_, ?_, rfl⟩, .setPhase .., rfl, rfl⟩
  · rw [setPhase_task]
    rfl
  · rw [setPhase_task]
    exact awaits.kind
  · rw [setPhase_task]
    exact awaits.channel

/-- A poll of a task whose pipe holds a message processes it. -/
theorem Awaits.message {transport next : Transport} {task : TaskId} {kind : TaskKind}
    {message : RpcMessage} {closed : Bool}
    (awaits : transport.Awaits text task kind [message] closed)
    (faithful : text.Faithful message.serialize)
    (stepped : transport.step text (.poll task) = some next) :
    next = { transport with
      reader := .holding text [] closed
      readerGuard := none }.processMessage task message := by
  rcases step_poll stepped with ⟨line, reading, rfl⟩
  cases reading.symm.trans awaits.phase
  have long : (frame text message).length =
      (text.toString message.serialize).length + 1 := List.length_append ..
  simp only [nextLine, awaits.reader, readLine_holding [] closed faithful, long, processLine,
    decodeLine_frame faithful]

theorem Awaits.request {transport next : Transport} {task : TaskId} {kind : TaskKind}
    {request : RpcRequest} {closed : Bool}
    (awaits : transport.Awaits text task kind [.rpcRequest request] closed)
    (faithful : text.Faithful (RpcMessage.rpcRequest request).serialize)
    (served : transport.hasHandler task = true)
    (stepped : transport.step text (.poll task) = some next) :
    next.task task = { transport.task task with phase := .handling request } ∧
      next.reader = .holding text [] closed ∧ Beside task transport next ∧
      next.pending = transport.pending ∧ next.written = transport.written := by
  have processed := awaits.message faithful stepped
  have served : { transport with
      reader := .holding text [] closed
      readerGuard := none }.hasHandler task = true := served
  rw [processMessage, served, if_pos rfl] at processed
  rw [processed]
  exact ⟨setPhase_task .., rfl, .setPhase .., rfl, rfl⟩

theorem deliver_frame (transport : Transport) (response : RpcResponse) :
    (transport.deliver response).reader = transport.reader ∧
      (transport.deliver response).handler = transport.handler ∧
      (transport.deliver response).written = transport.written := by
  unfold deliver
  split
  · exact ⟨rfl, rfl, rfl⟩
  · split <;> exact ⟨rfl, rfl, rfl⟩

/-- The phase in which a call ends that returns the result of the other side's handler. -/
def outcome (id : UInt64) : Except RpcError Value -> Phase
  | .ok value => .answered ⟨jsonRpcVersion, id, value⟩
  | .error error => .failed error

theorem Awaits.returns {transport next : Transport} {task : TaskId} {request : RpcRequest}
    {result : Except RpcError Value} {closed : Bool}
    (awaits : transport.Awaits text task .call [reply request result] closed)
    (faithful : text.Faithful (reply request result).serialize)
    (entry : transport.pending request.id = some task)
    (stepped : transport.step text (.poll task) = some next) :
    (next.task task).phase = outcome request.id result ∧
      next.reader = .holding text [] closed ∧ Beside task transport next ∧
      next.written = transport.written := by
  have processed := awaits.message faithful stepped
  cases result with
  | error error =>
      rw [reply, processMessage] at processed
      rw [processed]
      exact ⟨by rw [setPhase_task]; rfl, rfl, .setPhase .., rfl⟩
  | ok value =>
      have inFlight : (transport.task task).phase.inFlight = true :=
        Phase.inFlight_of_partialLine awaits.phase
      generalize emptied : { transport with
        reader := .holding text [] closed
        readerGuard := none } = after at processed
      have entry : after.pending request.id = some task := by rw [← emptied]; exact entry
      have tasks : after.task = transport.task := by rw [← emptied]
      have frame := deliver_frame after ⟨jsonRpcVersion, request.id, value⟩
      have delivered := deliver_task after ⟨jsonRpcVersion, request.id, value⟩
      have full : ((after.deliver ⟨jsonRpcVersion, request.id, value⟩).task task) =
          { transport.task task with channel := .full ⟨jsonRpcVersion, request.id, value⟩ } := by
        rw [delivered, if_pos ⟨entry, by rw [tasks]; exact inFlight⟩, tasks]
      rw [reply, processMessage, proceed_full ⟨jsonRpcVersion, request.id, value⟩
        (by rw [full]; exact awaits.kind) (by rw [full])] at processed
      rw [processed]
      refine ⟨by rw [setPhase_task]; rfl, ?_, ⟨?_, ?_, fun other different => ?_⟩, ?_⟩
      · rw [setPhase_reader, frame.1, ← emptied]
      · rw [setPhase_id, deliver_id, ← emptied]
      · rw [setPhase_handler, frame.2.1, ← emptied]
      · rw [setPhase_other _ _ different, delivered, if_neg ?_, tasks]
        rintro ⟨listed, _⟩
        rw [entry] at listed
        exact different (Option.some.inj listed).symm
      · rw [setPhase_written, frame.2.2, ← emptied]

/-- A call that is made awaits its reply under the next id. -/
theorem step_call {transport next : Transport} {task : TaskId} {method : String} {params : Value}
    (stepped : transport.step text (.call task method params true) = some next) :
    (transport.task task).phase = .idle ∧
      next.task task = ⟨.call, transport.id, .empty, .awaitingReader⟩ ∧
      next.pending transport.id = some task ∧ next.id = transport.id + 1 ∧
      next.handler = transport.handler ∧ next.reader = transport.reader ∧
      next.written = transport.written ++
        [.rpcRequest ⟨jsonRpcVersion, transport.id, method, params⟩] ∧
      forall other, other ≠ task -> (next.task other).phase = (transport.task other).phase ∧
        (next.task other).kind = (transport.task other).kind := by
  simp only [step] at stepped
  split at stepped
  · next idle =>
      have fresh := register_task transport task
      rw [if_pos trivial] at stepped
      cases stepped
      generalize registered : (transport.register task).writeMessage
        (.rpcRequest ⟨jsonRpcVersion, transport.id, method, params⟩) = after
      have own : after.task task = ⟨.call, transport.id, .empty, .awaitingReader⟩ := by
        rw [← registered]
        exact fresh
      have same : after.proceed task = after.setPhase task .awaitingReader := by
        simp only [proceed, own]
      rw [same]
      refine ⟨idle, by rw [setPhase_task, own], ?_, ?_, ?_, ?_, ?_, fun other different => ?_⟩
      · rw [setPhase_pending, ← registered]
        exact Function.update_self ..
      · rw [setPhase_id, ← registered]
        rfl
      · rw [setPhase_handler, ← registered]
        rfl
      · rw [setPhase_reader, ← registered]
        rfl
      · rw [setPhase_written, ← registered]
        rfl
      · rw [setPhase_other _ _ different, ← registered]
        constructor
        · exact register_phase transport different
        · rw [← (displace_frame transport other).2]
          exact congrArg Task.kind (Function.update_of_ne different ..)
  · cases stepped

theorem step_processNextLine {transport next : Transport} {task : TaskId} {handler : Bool}
    (stepped : transport.step text (.processNextLine task handler) = some next) :
    (transport.task task).phase = .idle ∧
      next.task task = ⟨.pump handler, 0, .empty, .awaitingReader⟩ ∧
      next.reader = transport.reader ∧ Beside task transport next ∧
      next.written = transport.written := by
  simp only [step] at stepped
  split at stepped
  · next idle =>
      cases stepped
      exact ⟨idle, Function.update_self .., rfl,
        ⟨rfl, rfl, fun other different => Function.update_of_ne different ..⟩, rfl⟩
  · cases stepped

/-- A handler's result is written as the reply to its request.  A call that has no
answer goes on reading then, and a pump is done. -/
theorem step_handlerReturns {transport next : Transport} {task : TaskId}
    {result : Except RpcError Value}
    (stepped : transport.step text (.handlerReturns task result true) = some next) :
    Exists fun request => Exists fun phase =>
      (transport.task task).phase = .handling request ∧
      next.task task = { transport.task task with phase := phase } ∧
      next.written = transport.written ++ [reply request result] ∧
      next.reader = transport.reader ∧ next.pending = transport.pending ∧
      Beside task transport next ∧
      ((transport.task task).kind = .call -> (transport.task task).channel = .empty ->
        phase = .awaitingReader) ∧
      forall handler, (transport.task task).kind = .pump handler -> phase = .done := by
  simp only [step] at stepped
  split at stepped
  · next request handling =>
      rw [if_pos trivial] at stepped
      cases stepped
      rcases proceed_shape (transport.writeMessage (reply request result)) task with
        ⟨phase, same⟩
      refine ⟨request, phase, handling, ?_, ?_, ?_, ?_, ⟨?_, ?_, fun other different => ?_⟩,
        fun call empty => ?_, fun handler pump => ?_⟩
      · rw [same]
        exact setPhase_task ..
      · rw [same]
        rfl
      · rw [same]
        rfl
      · rw [same]
        rfl
      · rw [same]
        rfl
      · rw [same]
        rfl
      · rw [same]
        exact setPhase_other _ _ different
      · have goesOn : (transport.writeMessage (reply request result)).proceed task =
            (transport.writeMessage (reply request result)).setPhase task .awaitingReader := by
          simp only [proceed, writeMessage, call, empty]
        exact setPhase_injective (same.symm.trans goesOn)
      · have done : (transport.writeMessage (reply request result)).proceed task =
            (transport.writeMessage (reply request result)).setPhase task .done := by
          simp only [proceed, writeMessage, pump]
        exact setPhase_injective (same.symm.trans done)
  · cases stepped

end Transport

/-! ## What the parties have written -/

theorem wrote_of_append {before after : Transport} {messages : List RpcMessage}
    (written : after.written = before.written ++ messages) : before.wrote after = messages := by
  rw [Transport.wrote, written, List.drop_left]

theorem wrote_nothing {before after : Transport} (written : after.written = before.written) :
    before.wrote after = [] := by
  rw [Transport.wrote, written, List.drop_length]

@[simp] theorem hear_nil (text : JsonText) (transport : Transport) :
    transport.hear text [] = transport := by
  simp only [Transport.hear, List.map_nil, List.append_nil]

theorem hear_holding {transport : Transport} {inbox : List RpcMessage} {closed : Bool}
    (reader : transport.reader = .holding text inbox closed) (messages : List RpcMessage) :
    (transport.hear text messages).reader = .holding text (inbox ++ messages) closed := by
  simp only [Transport.hear, reader, LineReader.holding, List.map_append]

/-- A task that awaits some messages awaits the messages that arrive as well. -/
theorem Transport.Awaits.hear {transport : Transport} {task : TaskId} {kind : TaskKind}
    {inbox : List RpcMessage} {closed : Bool}
    (awaits : transport.Awaits text task kind inbox closed) (messages : List RpcMessage) :
    (transport.hear text messages).Awaits text task kind (inbox ++ messages) closed :=
  ⟨awaits.phase, awaits.kind, awaits.channel, hear_holding awaits.reader messages⟩

/-! ## The stages of a conversation -/

/-- The host's call is registered under the id 0, and there is no other call. -/
structure HostCall (host : Transport) : Prop where
  entry : host.pending 0 = some 0
  handler : host.handler = true
  others : forall task, task ≠ 0 -> (host.task task).phase = .idle

/-- The host's call waits for a line. -/
structure HostWaits (text : JsonText) (host : Transport) (inbox : List RpcMessage)
    (closed : Bool) : Prop extends HostCall host where
  awaits : host.Awaits text 0 .call inbox closed

structure HostHandles (text : JsonText) (host : Transport) (request : RpcRequest) : Prop
    extends HostCall host where
  phase : (host.task 0).phase = .handling request
  kind : (host.task 0).kind = .call
  channel : (host.task 0).channel = .empty
  reader : host.reader = .holding text [] false

theorem HostCall.beside {host after : Transport} (call : HostCall host)
    (beside : Transport.Beside 0 host after) (pending : after.pending = host.pending) :
    HostCall after where
  entry := by
    rw [pending]
    exact call.entry
  handler := beside.handler.trans call.handler
  others := by
    intro task different
    rw [beside.others task different]
    exact call.others task different

theorem HostWaits.hear {host : Transport} {inbox : List RpcMessage} {closed : Bool}
    (waits : HostWaits text host inbox closed) (messages : List RpcMessage) :
    HostWaits text (host.hear text messages) (inbox ++ messages) closed where
  toHostCall := waits.toHostCall.beside ⟨rfl, rfl, fun _ _ => rfl⟩ rfl
  awaits := waits.awaits.hear messages

theorem HostWaits.reading {host : Transport} {inbox : List RpcMessage} {closed : Bool}
    (waits : HostWaits text host inbox closed) {phase : Phase}
    (stands : (host.task 0).phase = phase) : phase.partialLine = some [] :=
  stands ▸ waits.awaits.phase

/-- The guest has not read the host's request, so its handler has not begun and it has
made no call. -/
structure GuestFresh (text : JsonText) (conversation : Conversation) (inbox : List RpcMessage) :
    Prop where
  pump : (conversation.guest.task 0).phase = .idle ∨
    conversation.guest.Awaits text 0 (.pump true) inbox false
  others : forall task, task ≠ 0 -> (conversation.guest.task task).phase = .idle
  id : conversation.guest.id = 0
  reader : conversation.guest.reader = .holding text inbox false
  serving : conversation.serving = .notYet
  hostInvocations : conversation.hostInvocations = []
  hostResults : conversation.hostResults = []
  guestCalls : conversation.guestCalls = []
  guestInvocations : conversation.guestInvocations = []
  guestResults : conversation.guestResults = []

/-- The calls of the guest so far.  The first `ended` of them have returned what
the host's handler did, and those not yet made are idle. -/
structure Past (conversation : Conversation) (ended : Nat) : Prop where
  returned : forall index, index < ended -> Exists fun result =>
    conversation.hostResults[index]? = some result ∧
      (conversation.guest.task (index + 1)).phase =
        Transport.outcome (UInt64.ofNat index) result
  ahead : forall index, conversation.guestCalls.length ≤ index ->
    (conversation.guest.task (index + 1)).phase = .idle

/-- The guest handles the host's request, so its pump is inside the handler. -/
structure GuestServes (text : JsonText) (conversation : Conversation) : Prop where
  pump : Exists fun request => request.id = 0 ∧
    (conversation.guest.task 0).phase = .handling request ∧
    conversation.hostCalls = [request.invocation]
  kind : (conversation.guest.task 0).kind = .pump true
  id : conversation.guest.id = UInt64.ofNat conversation.guestCalls.length
  invoked : conversation.guestInvocations = conversation.hostCalls
  results : conversation.guestResults = []

/-- The guest's handler waits for a call that it made after some others. -/
structure Calling (text : JsonText) (conversation : Conversation) (request : RpcRequest)
    (earlier : List Invocation) (inbox : List RpcMessage) : Prop where
  calls : conversation.guestCalls = earlier ++ [request.invocation]
  id : request.id = UInt64.ofNat earlier.length
  awaits : conversation.guest.Awaits text (earlier.length + 1) .call inbox false
  entry : conversation.guest.pending request.id = some (earlier.length + 1)
  past : Past conversation earlier.length
  serving : Exists fun next => conversation.serving = .calling next

theorem Calling.stands {conversation : Conversation} {request : RpcRequest}
    {earlier : List Invocation} {inbox : List RpcMessage}
    (calling : Calling text conversation request earlier inbox) {serving : Serving}
    (stands : conversation.serving = serving) : Exists fun next => serving = .calling next :=
  stands ▸ calling.serving

theorem Calling.latest {conversation : Conversation} {request : RpcRequest}
    {earlier : List Invocation} {inbox : List RpcMessage}
    (calling : Calling text conversation request earlier inbox) :
    conversation.guestCalls.length = earlier.length + 1 := by
  rw [calling.calls, List.length_append, List.length_singleton]

/-- The guest has answered the host's request with this result, and each of its calls
has returned. -/
structure GuestDone (conversation : Conversation) (result : Except RpcError Value) : Prop where
  pump : (conversation.guest.task 0).phase = .done
  serving : conversation.serving = .served
  calls : conversation.hostCalls.length = 1
  invoked : conversation.guestInvocations = conversation.hostCalls
  results : conversation.guestResults = [result]
  past : Past conversation conversation.guestCalls.length
  answered : conversation.hostInvocations = conversation.guestCalls
  counted : conversation.hostResults.length = conversation.guestCalls.length

/-- Where a conversation stands, from the host's call to its return.  In each stage at
most one message is under way. -/
inductive Stage (text : JsonText) (conversation : Conversation) : Prop
  | starting
      (host : conversation.host = .new ⟨[], [], false⟩ true)
      (calls : conversation.hostCalls = [])
      (guest : GuestFresh text conversation [])
  | requested (request : RpcRequest)
      (faithful : text.Faithful (RpcMessage.rpcRequest request).serialize)
      (id : request.id = 0)
      (calls : conversation.hostCalls = [request.invocation])
      (host : HostWaits text conversation.host [] false)
      (guest : GuestFresh text conversation [.rpcRequest request])
  | between
      (host : HostWaits text conversation.host [] false)
      (reader : conversation.guest.reader = .holding text [] false)
      (guest : GuestServes text conversation)
      (past : Past conversation conversation.guestCalls.length)
      (serving : (Exists fun program => conversation.serving = .running program) ∨
        Exists fun next => conversation.serving = .calling next)
      (invoked : conversation.hostInvocations = conversation.guestCalls)
      (results : conversation.hostResults.length = conversation.guestCalls.length)
  | asking (request : RpcRequest) (earlier : List Invocation)
      (faithful : text.Faithful (RpcMessage.rpcRequest request).serialize)
      (host : HostWaits text conversation.host [.rpcRequest request] false)
      (guest : GuestServes text conversation)
      (calling : Calling text conversation request earlier [])
      (invoked : conversation.hostInvocations = earlier)
      (results : conversation.hostResults.length = earlier.length)
  | hosting (request : RpcRequest) (earlier : List Invocation)
      (host : HostHandles text conversation.host request)
      (guest : GuestServes text conversation)
      (calling : Calling text conversation request earlier [])
      (invoked : conversation.hostInvocations = conversation.guestCalls)
      (results : conversation.hostResults.length = earlier.length)
  | answering (request : RpcRequest) (earlier : List Invocation)
      (result : Except RpcError Value)
      (faithful : text.Faithful (Transport.reply request result).serialize)
      (host : HostWaits text conversation.host [] false)
      (guest : GuestServes text conversation)
      (calling : Calling text conversation request earlier [Transport.reply request result])
      (invoked : conversation.hostInvocations = conversation.guestCalls)
      (results : conversation.hostResults.length = earlier.length + 1)
      (last : conversation.hostResults[earlier.length]? = some result)
  | replied (request : RpcRequest) (result : Except RpcError Value) (closed : Bool)
      (faithful : text.Faithful (Transport.reply request result).serialize)
      (id : request.id = 0)
      (host : HostWaits text conversation.host [Transport.reply request result] closed)
      (guest : GuestDone conversation result)
  | finished (result : Except RpcError Value)
      (host : (conversation.host.task 0).phase = Transport.outcome 0 result)
      (others : forall task, task ≠ 0 -> (conversation.host.task task).phase = .idle)
      (guest : GuestDone conversation result)

/-! ## Agreement -/

/-- One side's calls and the other side's invocations agree.  Each call causes
at most one invocation, in order and with its method and parameters.  A call that
has returned caused one, and returned its result with the call's number as the
id. -/
structure Agreed (calls : List Invocation) (phase : Nat -> Phase) (invocations : List Invocation)
    (results : List (Except RpcError Value)) : Prop where
  once : invocations <+: calls
  inTurn : results.length ≤ invocations.length
  returned : forall index result, (phase index).returned = some result ->
    results[index]? = some (result.map RpcResponse.result) ∧
      Exists fun invocation => calls[index]? = some invocation ∧
        invocations[index]? = some invocation
  numbered : forall index response, (phase index).returned = some (.ok response) ->
    response.id.toNat = index % 2 ^ 64

theorem outcome_returned (id : UInt64) (result : Except RpcError Value) :
    (Transport.outcome id result).returned =
      some (result.map fun value => ⟨jsonRpcVersion, id, value⟩) := by
  cases result <;> rfl

theorem returned_of_partialLine {phase : Phase} {line : List UInt8}
    (reading : phase.partialLine = some line) : phase.returned = none := by
  cases phase <;> first | rfl | cases reading

/-- Calls agree with the peer's results if those that have ended do, and the
others have not returned. -/
private theorem Agreed.of_ended {calls invocations : List Invocation} {phase : Nat -> Phase}
    {results : List (Except RpcError Value)} (once : invocations <+: calls)
    (inTurn : results.length ≤ invocations.length) (ended : Nat)
    (past : forall index, index < ended -> Exists fun result => results[index]? = some result ∧
      phase index = Transport.outcome (UInt64.ofNat index) result)
    (pending : forall index, ended ≤ index -> (phase index).returned = none) :
    Agreed calls phase invocations results := by
  have known : forall index result, (phase index).returned = some result ->
      Exists fun value => results[index]? = some value ∧
        result = value.map fun value => ⟨jsonRpcVersion, UInt64.ofNat index, value⟩ := by
    intro index result returned
    by_cases before : index < ended
    · rcases past index before with ⟨value, listed, same⟩
      rw [same, outcome_returned, Option.some.injEq] at returned
      exact ⟨value, listed, returned.symm⟩
    · rw [pending index (Nat.le_of_not_lt before)] at returned
      cases returned
  refine ⟨once, inTurn, fun index result returned => ?_, fun index response returned => ?_⟩
  · rcases known index result returned with ⟨value, listed, same⟩
    rcases List.getElem?_eq_some_iff.mp listed with ⟨short, _⟩
    have made : index < invocations.length := Nat.lt_of_lt_of_le short inTurn
    refine ⟨?_, invocations[index], List.prefix_iff_getElem?.mp once index made,
      List.getElem?_eq_getElem made⟩
    subst same
    rw [listed]
    cases value <;> rfl
  · rcases known index _ returned with ⟨value, _, same⟩
    cases value with
    | error error => cases same
    | ok value =>
        cases same
        exact UInt64.toNat_ofNat'

private theorem agreed_host_waiting {conversation : Conversation}
    (once : conversation.guestInvocations <+: conversation.hostCalls)
    (results : conversation.guestResults = [])
    (first : (conversation.host.task 0).phase.returned = none)
    (others : forall task, task ≠ 0 -> (conversation.host.task task).phase = .idle) :
    Agreed conversation.hostCalls (fun index => (conversation.host.task index).phase)
      conversation.guestInvocations conversation.guestResults := by
  apply Agreed.of_ended once (by rw [results]; exact Nat.zero_le _) 0
  · exact fun index before => absurd before (Nat.not_lt_zero index)
  · intro index _
    cases index with
    | zero => exact first
    | succ index =>
        rw [others (index + 1) (Nat.succ_ne_zero index)]
        rfl

private theorem agreed_guest {conversation : Conversation} {ended : Nat}
    (once : conversation.hostInvocations <+: conversation.guestCalls)
    (inTurn : conversation.hostResults.length ≤ conversation.hostInvocations.length)
    (past : Past conversation ended)
    (current : forall index, ended ≤ index -> index < conversation.guestCalls.length ->
      (conversation.guest.task (index + 1)).phase.returned = none) :
    Agreed conversation.guestCalls (fun index => (conversation.guest.task (index + 1)).phase)
      conversation.hostInvocations conversation.hostResults := by
  apply Agreed.of_ended once inTurn ended past.returned
  intro index beyond
  by_cases made : index < conversation.guestCalls.length
  · exact current index beyond made
  · rw [past.ahead index (Nat.le_of_not_lt made)]
    rfl

private theorem Calling.current {conversation : Conversation} {request : RpcRequest}
    {earlier : List Invocation} {inbox : List RpcMessage}
    (calling : Calling text conversation request earlier inbox) (index : Nat)
    (beyond : earlier.length ≤ index) (made : index < conversation.guestCalls.length) :
    (conversation.guest.task (index + 1)).phase.returned = none := by
  rw [calling.latest] at made
  have same : index = earlier.length := by omega
  subst same
  exact returned_of_partialLine calling.awaits.phase

private theorem GuestFresh.agreed {conversation : Conversation} {inbox : List RpcMessage}
    (guest : GuestFresh text conversation inbox) :
    Agreed conversation.guestCalls (fun index => (conversation.guest.task (index + 1)).phase)
      conversation.hostInvocations conversation.hostResults := by
  apply Agreed.of_ended _ _ 0
  · exact fun index before => absurd before (Nat.not_lt_zero index)
  · intro index _
    rw [guest.others (index + 1) (Nat.succ_ne_zero index)]
    rfl
  · rw [guest.hostInvocations]
    exact List.nil_prefix
  · rw [guest.hostResults]
    exact Nat.zero_le _

private theorem GuestFresh.waited_for {conversation : Conversation} {inbox : List RpcMessage}
    (guest : GuestFresh text conversation inbox)
    (first : (conversation.host.task 0).phase.returned = none)
    (others : forall task, task ≠ 0 -> (conversation.host.task task).phase = .idle) :
    Agreed conversation.hostCalls (fun index => (conversation.host.task index).phase)
      conversation.guestInvocations conversation.guestResults := by
  refine agreed_host_waiting ?_ guest.guestResults first others
  rw [guest.guestInvocations]
  exact List.nil_prefix

private theorem GuestServes.agreed {conversation : Conversation}
    (guest : GuestServes text conversation)
    (first : (conversation.host.task 0).phase.returned = none)
    (others : forall task, task ≠ 0 -> (conversation.host.task task).phase = .idle) :
    Agreed conversation.hostCalls (fun index => (conversation.host.task index).phase)
      conversation.guestInvocations conversation.guestResults :=
  agreed_host_waiting (guest.invoked ▸ List.prefix_rfl) guest.results first others

private theorem GuestDone.agreed {conversation : Conversation} {result : Except RpcError Value}
    (guest : GuestDone conversation result) :
    Agreed conversation.guestCalls (fun index => (conversation.guest.task (index + 1)).phase)
      conversation.hostInvocations conversation.hostResults := by
  apply agreed_guest (guest.answered ▸ List.prefix_rfl)
    (Nat.le_of_eq (by rw [guest.counted, guest.answered])) guest.past
  intro index beyond made
  omega

/-- In every stage both sides agree. -/
theorem Stage.agreed {conversation : Conversation} (stage : Stage text conversation) :
    Agreed conversation.hostCalls (fun index => (conversation.host.task index).phase)
        conversation.guestInvocations conversation.guestResults ∧
      Agreed conversation.guestCalls (fun index => (conversation.guest.task (index + 1)).phase)
        conversation.hostInvocations conversation.hostResults := by
  cases stage with
  | starting host calls guest =>
      refine ⟨guest.waited_for ?_ fun task _ => ?_, guest.agreed⟩
      · rw [host]
        rfl
      · rw [host]
        rfl
  | requested request faithful id calls host guest =>
      exact ⟨guest.waited_for (returned_of_partialLine host.awaits.phase) host.others,
        guest.agreed⟩
  | between host reader guest past serving invoked results =>
      refine ⟨guest.agreed (returned_of_partialLine host.awaits.phase) host.others, ?_⟩
      apply agreed_guest (invoked ▸ List.prefix_rfl) (Nat.le_of_eq (by rw [results, invoked])) past
      intro index beyond made
      omega
  | asking request earlier faithful host guest calling invoked results =>
      refine ⟨guest.agreed (returned_of_partialLine host.awaits.phase) host.others, ?_⟩
      apply agreed_guest _ _ calling.past calling.current
      · rw [invoked, calling.calls]
        exact List.prefix_append ..
      · exact Nat.le_of_eq (by rw [results, invoked])
  | hosting request earlier host guest calling invoked results =>
      refine ⟨guest.agreed (by rw [host.phase]; rfl) host.others, ?_⟩
      apply agreed_guest (invoked ▸ List.prefix_rfl) _ calling.past calling.current
      rw [results, invoked, calling.latest]
      exact Nat.le_succ _
  | answering request earlier result faithful host guest calling invoked results last =>
      refine ⟨guest.agreed (returned_of_partialLine host.awaits.phase) host.others, ?_⟩
      apply agreed_guest (invoked ▸ List.prefix_rfl) _ calling.past calling.current
      exact Nat.le_of_eq (by rw [results, invoked, calling.latest])
  | replied request result closed faithful id host guest =>
      refine ⟨?_, guest.agreed⟩
      apply Agreed.of_ended (guest.invoked ▸ List.prefix_rfl) _ 0
      · exact fun index before => absurd before (Nat.not_lt_zero index)
      · intro index _
        cases index with
        | zero => exact returned_of_partialLine host.awaits.phase
        | succ index =>
            rw [host.others (index + 1) (Nat.succ_ne_zero index)]
            rfl
      · rw [guest.results, guest.invoked, guest.calls]
        exact Nat.le_refl 1
  | finished result host others guest =>
      refine ⟨?_, guest.agreed⟩
      apply Agreed.of_ended (guest.invoked ▸ List.prefix_rfl) _ 1
      · intro index before
        cases Nat.lt_one_iff.mp before
        exact ⟨result, by rw [guest.results]; rfl, host⟩
      · intro index beyond
        rw [others index (Nat.pos_iff_ne_zero.mp beyond)]
        rfl
      · rw [guest.results, guest.invoked, guest.calls]
        exact Nat.le_refl 1

end Rpc
end WasmiPlugin
