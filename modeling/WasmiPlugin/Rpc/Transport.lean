import WasmiPlugin.Rpc.NextLine
import WasmiPlugin.Rpc.WriteMessage

namespace WasmiPlugin
namespace Rpc

open Foundation

/-!
# The transport and its tasks

A task runs `JsonRpcTransport::call`, or `process_next_line` by itself.  All
tasks share one id counter, one map of pending calls, one reader behind a lock
and one writer.  A step of the transport is one task running from one place
where it may be suspended to the next.  These places are few.  The guards of the
pending map and of the writer are dropped before the next `await`, so a task
always finds these locks free and taking them does not suspend it.  The reader's
guard lives to the end of the `match` in `next_line` and is therefore held while
a task yields.  When that task is polled again it drops the guard and takes the
lock again at once, as nobody else runs in between.

A task that has processed a line and goes on to the next may be overtaken here
by others, which a cooperative executor does not do.  What is proved of every
run holds of its runs as well.

What the environment decides is part of an action: the method and the parameters
of a call, the handler's result, whether a write succeeds, and when a task is
dropped.  A call made by a handler is a task of its own.
-/

/-- What a task runs.  A call uses the transport's own handler; a pump is given
one or none. -/
inductive TaskKind where
  | call
  | pump (handler : Bool)
  deriving DecidableEq, Repr

/-- The receiving end of a call's `oneshot` channel. -/
inductive Channel where
  | empty
  | full (response : RpcResponse)
  | canceled

/-- Where a task stands.  A call that is `answered` returned `Ok`, a pump that
is `done` did, and either may have `failed`. -/
inductive Phase where
  | idle
  | awaitingReader
  | yielding (line : List UInt8)
  | handling (request : RpcRequest)
  | answered (response : RpcResponse)
  | done
  | failed (error : RpcError)
  | dropped

/-- A task that was started and whose future still exists. -/
def Phase.inFlight : Phase -> Bool
  | .awaitingReader => true
  | .yielding _ => true
  | .handling _ => true
  | _ => false

def Phase.error : Phase -> Option RpcError
  | .failed error => some error
  | _ => none

def Phase.returned : Phase -> Option (Except RpcError RpcResponse)
  | .answered response => some (.ok response)
  | .failed error => some (.error error)
  | _ => none

/-- The part of a line that a task inside `next_line` has read. -/
def Phase.partialLine : Phase -> Option (List UInt8)
  | .awaitingReader => some []
  | .yielding line => some line
  | _ => none

theorem Phase.inFlight_of_partialLine {phase : Phase} {line : List UInt8}
    (reading : phase.partialLine = some line) : phase.inFlight = true := by
  cases phase <;> first | rfl | cases reading

/-- A task with its local state.  The id and the channel are those of a call. -/
structure Task where
  kind : TaskKind
  id : UInt64
  channel : Channel
  phase : Phase

/-- `JsonRpcTransport` and the tasks that use it.  `written` are the messages
whose writes succeeded, and `handler` says whether there is one. -/
structure Transport where
  id : UInt64
  pending : UInt64 -> Option TaskId
  reader : LineReader
  readerGuard : Option TaskId
  written : List RpcMessage
  handler : Bool
  task : TaskId -> Task

/-- `JsonRpcTransport::new` and `JsonRpcTransport::with_handler`. -/
def Transport.new (reader : LineReader) (handler : Bool) : Transport where
  id := 0
  pending := fun _ => none
  reader := reader
  readerGuard := none
  written := []
  handler := handler
  task := fun _ => ⟨.call, 0, .empty, .idle⟩

inductive TransportAction where
  | call (task : TaskId) (method : String) (params : Value) (writes : Bool)
  | processNextLine (task : TaskId) (handler : Bool)
  | poll (task : TaskId)
  | handlerReturns (task : TaskId) (result : Except RpcError Value) (writes : Bool)
  | drop (task : TaskId)
  | arrive (delivery : Delivery)
  | hangUp

/-- The task that takes the step, if it is not the peer's. -/
def TransportAction.actor : TransportAction -> Option TaskId
  | .call task _ _ _ => some task
  | .processNextLine task _ => some task
  | .poll task => some task
  | .handlerReturns task _ _ => some task
  | .drop task => some task
  | .arrive _ => none
  | .hangUp => none

namespace Transport

/-! ## The parts of a step -/

def setTask (transport : Transport) (task : TaskId) (state : Task) : Transport :=
  { transport with task := Function.update transport.task task state }

def setPhase (transport : Transport) (task : TaskId) (phase : Phase) : Transport :=
  transport.setTask task { transport.task task with phase := phase }

/-- A sender is dropped.  What it sent before can still be received, and after that
nothing. -/
def cancel (task : Task) : Task :=
  match task.channel with
  | .empty => { task with channel := .canceled }
  | _ => task

/-- Inserting under an id drops the sender that was stored there. -/
def displace (transport : Transport) : Transport :=
  match transport.pending transport.id with
  | none => transport
  | some previous => transport.setTask previous (cancel (transport.task previous))

/-- The beginning of `call`: a new channel, `fetch_add` on the counter, and
`self.pending.lock().await.insert(id, tx)`. -/
def register (transport : Transport) (task : TaskId) : Transport :=
  { transport with
    id := transport.id + 1
    pending := Function.update transport.pending transport.id (some task)
    task := Function.update transport.displace.task task
      ⟨.call, transport.id, .empty, .awaitingReader⟩ }

/-- `write_message`, when it succeeds. -/
def writeMessage (transport : Transport) (message : RpcMessage) : Transport :=
  { transport with written := transport.written ++ [message] }

/-- What follows `process_next_line` when it returned `Ok`.  A pump is done, and
a call looks into its channel before it goes on to the next line. -/
def proceed (transport : Transport) (task : TaskId) : Transport :=
  match (transport.task task).kind, (transport.task task).channel with
  | .pump _, _ => transport.setPhase task .done
  | .call, .full response => transport.setPhase task (.answered response)
  | .call, .canceled => transport.setPhase task (.failed .internalError)
  | .call, .empty => transport.setPhase task .awaitingReader

/-- The response arm of `process_message`: the sender is removed from the map
and used.  Sending is without effect when the receiver is gone. -/
def deliver (transport : Transport) (response : RpcResponse) : Transport :=
  match transport.pending response.id with
  | none => transport
  | some receiver =>
      let removed := { transport with
        pending := Function.update transport.pending response.id none }
      if (transport.task receiver).phase.inFlight then
        removed.setTask receiver { transport.task receiver with channel := .full response }
      else removed

def hasHandler (transport : Transport) (task : TaskId) : Bool :=
  match (transport.task task).kind with
  | .call => transport.handler
  | .pump handler => handler

/-- `process_message`, up to the handler's result when there is a request. -/
def processMessage (transport : Transport) (task : TaskId) : RpcMessage -> Transport
  | .rpcResponse response => (transport.deliver response).proceed task
  | .rpcErrorResponse response => transport.setPhase task (.failed response.error)
  | .rpcRequest request =>
      if transport.hasHandler task then transport.setPhase task (.handling request)
      else transport.setPhase task (.failed (.custom "Handler not found"))

/-- The reply to a request: a response with the result of its handler, or an error
response. -/
def reply (request : RpcRequest) : Except RpcError Value -> RpcMessage
  | .ok result => .rpcResponse ⟨jsonRpcVersion, request.id, result⟩
  | .error error => .rpcErrorResponse ⟨jsonRpcVersion, request.id, error⟩

variable (text : JsonText)

/-- `process_next_line` from the line on. -/
def processLine (transport : Transport) (task : TaskId) (line : List UInt8) : Transport :=
  match decodeLine text line with
  | none => transport.setPhase task (.failed .parseError)
  | some message => transport.processMessage task message

/-- The loop of `next_line`, by a task that has the reader.  It keeps the guard
only while it yields. -/
def nextLine (transport : Transport) (task : TaskId) (line : List UInt8) : Transport :=
  match transport.reader.readLine line with
  | (.ok 0, _, rest) =>
      { transport with reader := rest, readerGuard := none }.setPhase task (.failed .internalError)
  | (.ok _, read, rest) =>
      { transport with reader := rest, readerGuard := none }.processLine text task read
  | (.wouldBlock, read, rest) =>
      { transport with reader := rest, readerGuard := some task }.setPhase task (.yielding read)
  | (.failed, _, rest) =>
      { transport with reader := rest, readerGuard := none }.setPhase task (.failed .internalError)

/-- One step of a task or of the peer. -/
def step (transport : Transport) : TransportAction -> Option Transport
  | .call task method params writes =>
      match (transport.task task).phase with
      | .idle =>
          let registered := transport.register task
          if writes then some ((registered.writeMessage
            (.rpcRequest ⟨jsonRpcVersion, transport.id, method, params⟩)).proceed task)
          else some (registered.setPhase task (.failed .internalError))
      | _ => none
  | .processNextLine task handler =>
      match (transport.task task).phase with
      | .idle => some (transport.setTask task ⟨.pump handler, 0, .empty, .awaitingReader⟩)
      | _ => none
  | .poll task =>
      match (transport.task task).phase with
      | .awaitingReader =>
          if transport.readerGuard = none then some (transport.nextLine text task []) else none
      | .yielding line => some (transport.nextLine text task line)
      | _ => none
  | .handlerReturns task result writes =>
      match (transport.task task).phase with
      | .handling request =>
          if writes then some ((transport.writeMessage (reply request result)).proceed task)
          else some (transport.setPhase task (.failed .internalError))
      | _ => none
  | .drop task =>
      match (transport.task task).phase with
      | .yielding _ => some ({ transport with readerGuard := none }.setPhase task .dropped)
      | phase => if phase.inFlight then some (transport.setPhase task .dropped) else none
  | .arrive delivery =>
      if transport.reader.closed then none
      else some { transport with reader :=
        { transport.reader with incoming := transport.reader.incoming ++ [delivery] } }
  | .hangUp =>
      some { transport with reader := { transport.reader with closed := true } }

end Transport

/-! ## What happens in a step -/

/-- The line that a task which is polled now would complete. -/
def Transport.lineRead (transport : Transport) (task : TaskId) : Option (List UInt8) :=
  match (transport.task task).phase.partialLine with
  | none => none
  | some line =>
      match transport.reader.readLine line with
      | (.ok (_ + 1), read, _) => some read
      | _ => none

/-- The message that a transition consumes from the reader, with the task that
does. -/
def consuming (text : JsonText) (taken : Transition Transport TransportAction) :
    Option (TaskId × RpcMessage) :=
  match taken.action with
  | .poll task => ((taken.before.lineRead task).bind (decodeLine text)).map fun message =>
      (task, message)
  | _ => none

def answering (text : JsonText) (taken : Transition Transport TransportAction) :
    Option RpcResponse :=
  match consuming text taken with
  | some (_, .rpcResponse response) => some response
  | _ => none

theorem consuming_poll {text : JsonText} {taken : Transition Transport TransportAction}
    {task : TaskId} {message : RpcMessage}
    (consumed : consuming text taken = some (task, message)) :
    taken.action = .poll task := by
  unfold consuming at consumed
  split at consumed
  · next polled action =>
      rcases Option.map_eq_some_iff.mp consumed with ⟨found, _, same⟩
      cases same
      exact action
  · cases consumed

theorem answering_frame {text : JsonText} {taken : Transition Transport TransportAction}
    {task : TaskId} {response : RpcResponse}
    (faithful : text.Faithful (RpcMessage.rpcResponse response).serialize)
    (polled : taken.action = .poll task)
    (line : taken.before.lineRead task = some (frame text (.rpcResponse response))) :
    answering text taken = some response := by
  simp only [answering, consuming, polled, line, Option.bind_some, decodeLine_frame faithful,
    Option.map_some]

theorem consuming_of_answering {text : JsonText}
    {taken : Transition Transport TransportAction} {response : RpcResponse}
    (read : answering text taken = some response) :
    Exists fun task => consuming text taken = some (task, .rpcResponse response) := by
  unfold answering at read
  split at read
  · next task _ consumed => exact ⟨task, Option.some.inj read ▸ consumed⟩
  · cases read

/-- The call that a transition registers, with its id. -/
def registering (taken : Transition Transport TransportAction) : Option (TaskId × UInt64) :=
  match taken.action with
  | .call task _ _ _ => some (task, taken.before.id)
  | _ => none

def calls (history : List (Transition Transport TransportAction)) : List (TaskId × UInt64) :=
  history.filterMap registering

/-! ## Moving on

Most of what a step does to the tasks is to move one of them on.  A task that
has ended stays as it is, and a call gets an answer from its channel only. -/

/-- A task in flight may go on to a phase.  It is answered from its channel, and
it does not begin to read when a response is there. -/
structure Task.Onward (before : Task) (phase : Phase) : Prop where
  inFlight : before.phase.inFlight = true
  started : phase ≠ .idle
  answered : forall response, phase = .answered response ->
    before.kind = .call ∧ before.channel = .full response
  reads : phase.partialLine ≠ none -> before.phase.partialLine ≠ none ∨ before.kind ≠ .call ∨
    forall response, before.channel ≠ .full response

/-- A task that is reading may stop or go on, but it is not answered. -/
theorem Task.Onward.ofReading {before : Task} {line : List UInt8}
    (reading : before.phase.partialLine = some line) (phase : Phase) (started : phase ≠ .idle)
    (unanswered : forall response, phase ≠ .answered response) : before.Onward phase where
  inFlight := Phase.inFlight_of_partialLine reading
  started := started
  answered := fun response same => absurd same (unanswered response)
  reads := fun _ => .inl (by rw [reading]; exact Option.some_ne_none line)

theorem Task.Onward.failed {before : Task} (inFlight : before.phase.inFlight = true)
    (error : RpcError) : before.Onward (.failed error) where
  inFlight := inFlight
  started := nofun
  answered := nofun
  reads := fun silent => absurd rfl silent

theorem Task.Onward.dropped {before : Task} (inFlight : before.phase.inFlight = true) :
    before.Onward .dropped where
  inFlight := inFlight
  started := nofun
  answered := nofun
  reads := fun silent => absurd rfl silent

/-- A task is as it was, went onward, or is a new pump. -/
inductive Task.Moved (before after : Task) : Prop
  | same : after = before -> Moved before after
  | onward (phase : Phase) : before.Onward phase -> after = { before with phase := phase } ->
      Moved before after
  | pump (handler : Bool) : before.phase = .idle ->
      after = ⟨.pump handler, 0, .empty, .awaitingReader⟩ -> Moved before after

/-- Nothing happened but that tasks moved on. -/
structure Transport.Moved (before after : Transport) : Prop where
  id : after.id = before.id
  pending : after.pending = before.pending
  task : forall task, (before.task task).Moved (after.task task)

namespace Transport

@[simp] theorem setPhase_id (transport : Transport) (task : TaskId) (phase : Phase) :
    (transport.setPhase task phase).id = transport.id := rfl

@[simp] theorem setPhase_pending (transport : Transport) (task : TaskId) (phase : Phase) :
    (transport.setPhase task phase).pending = transport.pending := rfl

theorem setTask_task (transport : Transport) (task : TaskId) (state : Task) :
    (transport.setTask task state).task task = state :=
  Function.update_self ..

theorem setPhase_task (transport : Transport) (task : TaskId) (phase : Phase) :
    (transport.setPhase task phase).task task = { transport.task task with phase := phase } :=
  Function.update_self ..

theorem setPhase_other (transport : Transport) {task other : TaskId} (phase : Phase)
    (different : other ≠ task) :
    (transport.setPhase task phase).task other = transport.task other :=
  Function.update_of_ne different ..

theorem proceed_onward {transport : Transport} {task : TaskId}
    (inFlight : (transport.task task).phase.inFlight = true) :
    Exists fun phase => (transport.task task).Onward phase ∧
      transport.proceed task = transport.setPhase task phase := by
  unfold proceed
  split
  · next handler _ pump _ =>
      exact ⟨.done, ⟨inFlight, nofun, nofun, fun silent => absurd rfl silent⟩, rfl⟩
  · next response call full =>
      refine ⟨.answered response, ⟨inFlight, nofun, fun other same => ?_,
        fun silent => absurd rfl silent⟩, rfl⟩
      cases same
      exact ⟨call, full⟩
  · exact ⟨.failed .internalError, .failed inFlight .internalError, rfl⟩
  · next call empty =>
      refine ⟨.awaitingReader, ⟨inFlight, nofun, nofun, fun _ => .inr (.inr ?_)⟩, rfl⟩
      intro response full
      rw [empty] at full
      cases full

theorem proceed_shape (transport : Transport) (task : TaskId) :
    Exists fun phase => transport.proceed task = transport.setPhase task phase := by
  unfold proceed
  split <;> exact ⟨_, rfl⟩

theorem proceed_pending (transport : Transport) (task : TaskId) :
    (transport.proceed task).pending = transport.pending := by
  rcases proceed_shape transport task with ⟨phase, same⟩
  rw [same, setPhase_pending]

theorem proceed_channel (transport : Transport) (task other : TaskId) :
    ((transport.proceed task).task other).channel = (transport.task other).channel := by
  rcases proceed_shape transport task with ⟨phase, same⟩
  rw [same]
  by_cases this : other = task
  · rw [this, setPhase_task]
  · rw [setPhase_other transport phase this]

theorem proceed_other (transport : Transport) {task other : TaskId} (different : other ≠ task) :
    (transport.proceed task).task other = transport.task other := by
  rcases proceed_shape transport task with ⟨phase, same⟩
  rw [same, setPhase_other transport phase different]

/-- A call whose channel is full is answered. -/
theorem proceed_full {transport : Transport} {task : TaskId} (response : RpcResponse)
    (call : (transport.task task).kind = .call)
    (full : (transport.task task).channel = .full response) :
    transport.proceed task = transport.setPhase task (.answered response) := by
  simp only [proceed, call, full]

namespace Moved

theorem of_tasks {before after : Transport} (id : after.id = before.id)
    (pending : after.pending = before.pending) (task : after.task = before.task) :
    before.Moved after :=
  ⟨id, pending, fun other => .same (congrFun task other)⟩

/-- When one task goes onward, that is all that happened to the tasks, whatever became
of the reader and its guard. -/
theorem setPhase {before : Transport} {task : TaskId} {phase : Phase}
    (onward : (before.task task).Onward phase) (reader : LineReader) (guard : Option TaskId) :
    before.Moved ({ before with reader := reader, readerGuard := guard }.setPhase task phase) := by
  refine ⟨rfl, rfl, fun other => ?_⟩
  by_cases this : other = task
  · subst this
    exact .onward phase onward (setPhase_task ..)
  · exact .same (setPhase_other _ phase this)

theorem proceed {transport : Transport} {task : TaskId}
    (inFlight : (transport.task task).phase.inFlight = true) :
    transport.Moved (transport.proceed task) := by
  rcases proceed_onward inFlight with ⟨phase, onward, same⟩
  rw [same]
  exact setPhase onward transport.reader transport.readerGuard

theorem written {before after : Transport} {message : RpcMessage}
    (moved : (before.writeMessage message).Moved after) : before.Moved after :=
  ⟨moved.id, moved.pending, moved.task⟩

end Moved

/-- `deliver` fills the channel of the receiver, if that is in flight, and does
nothing else to the tasks. -/
theorem deliver_task (transport : Transport) (response : RpcResponse) (task : TaskId) :
    (transport.deliver response).task task =
      if transport.pending response.id = some task ∧
          (transport.task task).phase.inFlight = true then
        { transport.task task with channel := .full response }
      else transport.task task := by
  cases entry : transport.pending response.id with
  | none => simp only [deliver, entry, reduceCtorEq, false_and, if_false]
  | some receiver =>
      simp only [deliver, entry, Option.some.injEq]
      by_cases this : receiver = task
      · subst this
        cases inFlight : (transport.task receiver).phase.inFlight with
        | true => simp only [if_true, and_self, setTask, Function.update_self]
        | false => simp only [Bool.false_eq_true, if_false, and_false]
      · simp only [this, false_and, if_false]
        split
        · exact Function.update_of_ne (Ne.symm this) ..
        · rfl

theorem deliver_phase (transport : Transport) (response : RpcResponse) (task : TaskId) :
    ((transport.deliver response).task task).phase = (transport.task task).phase := by
  rw [deliver_task]
  split <;> rfl

theorem deliver_kind (transport : Transport) (response : RpcResponse) (task : TaskId) :
    ((transport.deliver response).task task).kind = (transport.task task).kind := by
  rw [deliver_task]
  split <;> rfl

theorem deliver_callId (transport : Transport) (response : RpcResponse) (task : TaskId) :
    ((transport.deliver response).task task).id = (transport.task task).id := by
  rw [deliver_task]
  split <;> rfl

@[simp] theorem deliver_id (transport : Transport) (response : RpcResponse) :
    (transport.deliver response).id = transport.id := by
  unfold deliver
  split
  · rfl
  · split <;> rfl

/-- The entry is removed whether or not its receiver is still there. -/
theorem deliver_pending (transport : Transport) (response : RpcResponse) :
    (transport.deliver response).pending =
      Function.update transport.pending response.id none := by
  cases entry : transport.pending response.id with
  | none =>
      simp only [deliver, entry]
      rw [← entry, Function.update_eq_self]
  | some receiver =>
      simp only [deliver, entry]
      split <;> rfl

/-- A response whose id is not in the map changes nothing. -/
theorem deliver_unknown {transport : Transport} {response : RpcResponse}
    (unknown : transport.pending response.id = none) : transport.deliver response = transport := by
  simp only [deliver, unknown]

/-- One call of `next_line`: the task yields, fails or has consumed a message.
Only in the last case has anything happened to other tasks. -/
theorem nextLine_cases (text : JsonText) (transport : Transport) (task : TaskId)
    (line : List UInt8) (reading : (transport.task task).phase.partialLine = some line) :
    Exists fun reader => Exists fun guard =>
      ((transport.lineRead task).bind (decodeLine text) = none ∧
        Exists fun phase => (transport.task task).Onward phase ∧
          transport.nextLine text task line =
            { transport with reader := reader, readerGuard := guard }.setPhase task phase) ∨
      (Exists fun message => (transport.lineRead task).bind (decodeLine text) = some message ∧
        guard = none ∧ transport.nextLine text task line =
          { transport with
            reader := reader
            readerGuard := guard }.processMessage task message) := by
  have onward := Task.Onward.ofReading reading
  simp only [Transport.nextLine, Transport.lineRead, reading]
  rcases transport.reader.readLine line with ⟨result, read, rest⟩
  cases result with
  | ok count =>
      cases count with
      | zero => exact ⟨rest, none, .inl ⟨rfl, .failed .internalError, onward _ nofun nofun, rfl⟩⟩
      | succ count =>
          refine ⟨rest, none, ?_⟩
          simp only [processLine, Option.bind_some]
          cases decodeLine text read with
          | none => exact .inl ⟨rfl, .failed .parseError, onward _ nofun nofun, rfl⟩
          | some message => exact .inr ⟨message, rfl, trivial, rfl⟩
  | wouldBlock => exact ⟨rest, some task, .inl ⟨rfl, .yielding read, onward _ nofun nofun, rfl⟩⟩
  | failed => exact ⟨rest, none, .inl ⟨rfl, .failed .internalError, onward _ nofun nofun, rfl⟩⟩

/-- A task that is polled is inside `next_line`. -/
theorem step_poll {text : JsonText} {transport next : Transport} {task : TaskId}
    (stepped : transport.step text (.poll task) = some next) :
    Exists fun line => (transport.task task).phase.partialLine = some line ∧
      next = transport.nextLine text task line := by
  simp only [step] at stepped
  split at stepped
  · next phase =>
      split at stepped
      · exact ⟨[], by rw [phase]; rfl, (Option.some.inj stepped).symm⟩
      · cases stepped
  · next line phase => exact ⟨line, by rw [phase]; rfl, (Option.some.inj stepped).symm⟩
  · cases stepped

end Transport

/-- Everything that a step can mean to the calls: one is registered, a response is
delivered, or tasks move on. -/
inductive Effect (text : JsonText) (taken : Transition Transport TransportAction) : Prop
  | quiet : registering taken = none -> answering text taken = none ->
      taken.before.Moved taken.after -> Effect text taken
  | registered (task : TaskId) : registering taken = some (task, taken.before.id) ->
      answering text taken = none -> (taken.before.task task).phase = .idle ->
      (taken.before.register task).Moved taken.after -> Effect text taken
  | delivered (task : TaskId) (response : RpcResponse) (reader : LineReader) :
      registering taken = none -> consuming text taken = some (task, .rpcResponse response) ->
      (taken.before.task task).phase.inFlight = true ->
      taken.after = ({ taken.before with reader := reader, readerGuard := none }.deliver
        response).proceed task -> Effect text taken

namespace Transport

theorem displace_frame (transport : Transport) (task : TaskId) :
    (transport.displace.task task).phase = (transport.task task).phase ∧
      (transport.displace.task task).kind = (transport.task task).kind := by
  unfold displace
  split
  · exact ⟨rfl, rfl⟩
  · next previous _ =>
      by_cases this : task = previous
      · subst this
        simp only [setTask, Function.update_self, cancel]
        split <;> exact ⟨rfl, rfl⟩
      · simp only [setTask, Function.update_of_ne this, and_self]

theorem register_phase (transport : Transport) {task other : TaskId} (different : other ≠ task) :
    ((transport.register task).task other).phase = (transport.task other).phase := by
  rw [← (displace_frame transport other).1]
  exact congrArg Task.phase (Function.update_of_ne different ..)

theorem register_other {transport : Transport} (unused : transport.pending transport.id = none)
    {task other : TaskId} (different : other ≠ task) :
    (transport.register task).task other = transport.task other := by
  have kept : transport.displace = transport := by simp only [displace, unused]
  rw [register, kept]
  exact Function.update_of_ne different ..

theorem register_task (transport : Transport) (task : TaskId) :
    (transport.register task).task task = ⟨.call, transport.id, .empty, .awaitingReader⟩ :=
  Function.update_self ..

theorem register_pending (transport : Transport) (task : TaskId) :
    (transport.register task).pending =
      Function.update transport.pending transport.id (some task) := rfl

theorem step_consuming {text : JsonText} {before after : Transport} {action : TransportAction}
    {task : TaskId} {message : RpcMessage} (stepped : before.step text action = some after)
    (consumed : consuming text ⟨before, action, after⟩ = some (task, message)) :
    (Exists fun line => (before.task task).phase.partialLine = some line) ∧
      Exists fun reader => after =
        { before with reader := reader, readerGuard := none }.processMessage task message := by
  cases action with
  | poll polled =>
      rcases step_poll stepped with ⟨line, reading, rfl⟩
      rcases nextLine_cases text before polled line reading with ⟨reader, guard, waits | consumes⟩
      · simp only [consuming, waits.1, Option.map_none, reduceCtorEq] at consumed
      · rcases consumes with ⟨found, read, rfl, same⟩
        simp only [consuming, read, Option.map_some, Option.some.injEq, Prod.mk.injEq] at consumed
        rcases consumed with ⟨rfl, rfl⟩
        exact ⟨⟨line, reading⟩, reader, same⟩
  | call | processNextLine | handlerReturns | drop | arrive | hangUp => cases consumed

/-- A message other than a response moves on the task that consumed it. -/
theorem processMessage_moved {transport : Transport} {task : TaskId} {line : List UInt8}
    (reading : (transport.task task).phase.partialLine = some line) (message : RpcMessage)
    (other : forall response, message ≠ .rpcResponse response) (reader : LineReader) :
    transport.Moved
      ({ transport with reader := reader, readerGuard := none }.processMessage task message) := by
  cases message with
  | rpcResponse response => exact absurd rfl (other response)
  | rpcErrorResponse response =>
      exact .setPhase (.ofReading reading (.failed response.error) nofun nofun) reader none
  | rpcRequest request =>
      simp only [processMessage]
      split
      · exact .setPhase (.ofReading reading (.handling request) nofun nofun) reader none
      · exact .setPhase (.ofReading reading (.failed _) nofun nofun) reader none

theorem step_other {text : JsonText} {before after : Transport} {action : TransportAction}
    (stepped : before.step text action = some after) {other : TaskId}
    (idle : action.actor ≠ some other) :
    (after.task other).phase = (before.task other).phase := by
  have apart {task : TaskId} (acting : action.actor = some task) : other ≠ task :=
    fun this => idle (this ▸ acting)
  cases action with
  | call task method params writes =>
      simp only [step] at stepped
      split at stepped
      · split at stepped
        · rw [← Option.some.inj stepped, proceed_other _ (apart rfl)]
          exact register_phase before (apart rfl)
        · rw [← Option.some.inj stepped, setPhase_other _ _ (apart rfl)]
          exact register_phase before (apart rfl)
      · cases stepped
  | processNextLine task handler =>
      simp only [step] at stepped
      split at stepped
      · rw [← Option.some.inj stepped]
        exact congrArg Task.phase (Function.update_of_ne (apart rfl) ..)
      · cases stepped
  | poll task =>
      rcases step_poll stepped with ⟨line, reading, rfl⟩
      rcases nextLine_cases text before task line reading with
        ⟨reader, guard, ⟨_, phase, _, same⟩ | ⟨message, _, _, same⟩⟩
      · rw [same, setPhase_other _ _ (apart rfl)]
      · rw [same]
        cases message with
        | rpcResponse response =>
            rw [processMessage, proceed_other _ (apart rfl), deliver_phase]
        | rpcErrorResponse response => rw [processMessage, setPhase_other _ _ (apart rfl)]
        | rpcRequest request =>
            simp only [processMessage]
            split <;> rw [setPhase_other _ _ (apart rfl)]
  | handlerReturns task result writes =>
      simp only [step] at stepped
      split at stepped
      · split at stepped
        · rw [← Option.some.inj stepped, proceed_other _ (apart rfl)]
          rfl
        · rw [← Option.some.inj stepped, setPhase_other _ _ (apart rfl)]
      · cases stepped
  | drop task =>
      simp only [step] at stepped
      split at stepped
      · rw [← Option.some.inj stepped, setPhase_other _ _ (apart rfl)]
      · split at stepped
        · rw [← Option.some.inj stepped, setPhase_other _ _ (apart rfl)]
        · cases stepped
  | arrive delivery =>
      simp only [step] at stepped
      split at stepped
      · cases stepped
      · rw [← Option.some.inj stepped]
  | hangUp => rw [← Option.some.inj stepped]

theorem step_effect {text : JsonText} {before after : Transport} {action : TransportAction}
    (stepped : before.step text action = some after) : Effect text ⟨before, action, after⟩ := by
  cases action with
  | call task method params writes =>
      simp only [step] at stepped
      split at stepped
      · next idle =>
          refine .registered task rfl rfl idle ?_
          have fresh : ((before.register task).task task).phase.inFlight = true := by
            rw [register_task]
            rfl
          split at stepped
          · rw [← Option.some.inj stepped]
            exact Moved.written (.proceed fresh)
          · rw [← Option.some.inj stepped]
            exact .setPhase (.failed fresh .internalError) _ _
      · cases stepped
  | processNextLine task handler =>
      simp only [step] at stepped
      split at stepped
      · next idle =>
          rw [← Option.some.inj stepped]
          refine .quiet rfl rfl ⟨rfl, rfl, fun other => ?_⟩
          by_cases this : other = task
          · subst this
            exact .pump handler idle (Function.update_self ..)
          · exact .same (Function.update_of_ne this ..)
      · cases stepped
  | poll task =>
      cases consumed : consuming text ⟨before, .poll task, after⟩ with
      | none =>
          rcases step_poll stepped with ⟨line, reading, rfl⟩
          rcases nextLine_cases text before task line reading with ⟨reader, guard, waits | consumes⟩
          · rcases waits with ⟨_, phase, onward, same⟩
            refine .quiet rfl (by rw [answering, consumed]) ?_
            rw [same]
            exact .setPhase onward reader guard
          · rcases consumes with ⟨message, read, _, _⟩
            simp only [consuming, read, Option.map_some, reduceCtorEq] at consumed
      | some found =>
          rcases found with ⟨reading, message⟩
          rcases step_consuming stepped consumed with ⟨⟨line, inLine⟩, reader, same⟩
          cases message with
          | rpcResponse response =>
              exact .delivered reading response reader rfl consumed
                (Phase.inFlight_of_partialLine inLine) same
          | rpcErrorResponse response =>
              refine .quiet rfl (by rw [answering, consumed]) ?_
              rw [same]
              exact processMessage_moved inLine (.rpcErrorResponse response) nofun reader
          | rpcRequest request =>
              refine .quiet rfl (by rw [answering, consumed]) ?_
              rw [same]
              exact processMessage_moved inLine (.rpcRequest request) nofun reader
  | handlerReturns task result writes =>
      simp only [step] at stepped
      split at stepped
      · next request handling =>
          have inFlight : (before.task task).phase.inFlight = true := by rw [handling]; rfl
          split at stepped
          · rw [← Option.some.inj stepped]
            exact .quiet rfl rfl (Moved.written (.proceed inFlight))
          · rw [← Option.some.inj stepped]
            exact .quiet rfl rfl (.setPhase (.failed inFlight .internalError) _ _)
      · cases stepped
  | drop task =>
      simp only [step] at stepped
      split at stepped
      · next line yielding =>
          rw [← Option.some.inj stepped]
          exact .quiet rfl rfl (.setPhase (.dropped (by rw [yielding]; rfl)) _ _)
      · split at stepped
        · next inFlight =>
            rw [← Option.some.inj stepped]
            exact .quiet rfl rfl (.setPhase (.dropped inFlight) _ _)
        · cases stepped
  | arrive delivery =>
      simp only [step] at stepped
      split at stepped
      · cases stepped
      · rw [← Option.some.inj stepped]
        exact .quiet rfl rfl (.of_tasks rfl rfl rfl)
  | hangUp =>
      rw [← Option.some.inj stepped]
      exact .quiet rfl rfl (.of_tasks rfl rfl rfl)

theorem step_ended {text : JsonText} {before after : Transport} {action : TransportAction}
    (stepped : before.step text action = some after) {task : TaskId}
    (started : (before.task task).phase ≠ .idle)
    (ended : (before.task task).phase.inFlight = false) :
    (after.task task).phase = (before.task task).phase := by
  refine step_other stepped fun acting => ?_
  cases action with
  | call | processNextLine =>
      cases acting
      simp only [step, reduceCtorEq] at stepped
  | poll =>
      cases acting
      rcases step_poll stepped with ⟨line, reading, _⟩
      rw [Phase.inFlight_of_partialLine reading] at ended
      cases ended
  | handlerReturns =>
      cases acting
      simp only [step] at stepped
      split at stepped
      · next request handling =>
          rw [handling] at ended
          cases ended
      · cases stepped
  | drop =>
      cases acting
      simp only [step] at stepped
      split at stepped
      · next line yielding =>
          rw [yielding] at ended
          cases ended
      · simp only [ended, Bool.false_eq_true, if_false, reduceCtorEq] at stepped
  | arrive | hangUp => cases acting

/-- A task inside a handler stays there until the handler returns or the task is
dropped. -/
theorem step_handling {text : JsonText} {before after : Transport} {action : TransportAction}
    (stepped : before.step text action = some after) {task : TaskId} {request : RpcRequest}
    (handling : (before.task task).phase = .handling request) :
    (after.task task).phase = .handling request ∨ (after.task task).phase = .dropped ∨
      Exists fun result => Exists fun writes => action = .handlerReturns task result writes := by
  by_cases acting : action.actor = some task
  · cases action with
    | call | processNextLine =>
        cases acting
        simp only [step, handling, reduceCtorEq] at stepped
    | poll =>
        cases acting
        rcases step_poll stepped with ⟨line, reading, _⟩
        rw [handling] at reading
        cases reading
    | handlerReturns _ result writes =>
        cases acting
        exact .inr (.inr ⟨result, writes, rfl⟩)
    | drop =>
        cases acting
        simp only [step, handling, Phase.inFlight, if_true] at stepped
        rw [← Option.some.inj stepped, setPhase_task]
        exact .inr (.inl rfl)
    | arrive | hangUp => cases acting
  · exact .inl ((step_other stepped acting).trans handling)

end Transport

end Rpc
end WasmiPlugin
