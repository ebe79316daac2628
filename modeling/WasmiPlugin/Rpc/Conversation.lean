import WasmiPlugin.Foundation.Run
import WasmiPlugin.Rpc.Transport

namespace WasmiPlugin
namespace Rpc

open Foundation

/-!
# A host and a guest that call each other

`Plugin::call` makes one call on the host's transport, which has the host's
handler, and then processes lines until the answer is there.
`PluginServer::run` processes one line on the guest's transport, with its router
as the handler.  What the guest's handler does is a program that may call back
before it returns, as often as it likes and depending on what the earlier calls
returned.  Each transport numbers its own calls from 0.

The two are connected by two pipes, in which every message arrives whole.  A
step is one side running from one place where it may be suspended to the next.
The guest is a single future, so polling it polls the call that its handler has
made, if there is one.  When the guest is done its end of the pipe is closed.

The lists of calls, invocations and results are written and never read.
-/

/-- What a handler does: it returns, or it makes a call and goes on with what
that returned. -/
inductive HandlerProgram where
  | ret (result : Except RpcError Value)
  | call (method : String) (params : Value) (next : Except RpcError RpcResponse -> HandlerProgram)

/-- Where the guest's handler stands. -/
inductive Serving where
  | notYet
  | running (program : HandlerProgram)
  | calling (next : Except RpcError RpcResponse -> HandlerProgram)
  | served

/-- The method and the parameters that a handler was invoked with. -/
abbrev Invocation := String × Value

structure Conversation where
  host : Transport
  guest : Transport
  serving : Serving
  hostCalls : List Invocation
  hostInvocations : List Invocation
  hostResults : List (Except RpcError Value)
  guestCalls : List Invocation
  guestInvocations : List Invocation
  guestResults : List (Except RpcError Value)

/-- The conversation before its first step: both transports are new and both pipes are
empty. -/
def Conversation.new : Conversation where
  host := .new ⟨[], [], false⟩ true
  guest := .new ⟨[], [], false⟩ false
  serving := .notYet
  hostCalls := []
  hostInvocations := []
  hostResults := []
  guestCalls := []
  guestInvocations := []
  guestResults := []

inductive ConversationAction where
  | hostCalls (method : String) (params : Value)
  | hostPolls
  | hostHandlerReturns (result : Except RpcError Value)
  | guestPumps
  | guestPolls
  | guestCalls
  | guestContinues
  | guestReturns
  | guestExits

/-- The messages that a step has written. -/
def Transport.wrote (before after : Transport) : List RpcMessage :=
  after.written.drop before.written.length

/-- The messages arrive at the other side, each in one piece. -/
def Transport.hear (text : JsonText) (transport : Transport) (messages : List RpcMessage) :
    Transport :=
  { transport with reader := { transport.reader with
    incoming := transport.reader.incoming ++
      messages.map fun message => Delivery.ofBytes (frame text message) } }

/-- The request whose handler a task has invoked. -/
def Transport.handled (transport : Transport) (task : TaskId) : Option RpcRequest :=
  match (transport.task task).phase with
  | .handling request => some request
  | _ => none

def RpcRequest.invocation (request : RpcRequest) : Invocation :=
  (request.method, request.params)

namespace Conversation

variable (text : JsonText) (handler : String -> Value -> HandlerProgram)

def hostStep (conversation : Conversation) (action : TransportAction) : Option Conversation :=
  (conversation.host.step text action).map fun host =>
    { conversation with
      host := host
      guest := conversation.guest.hear text (conversation.host.wrote host) }

def guestStep (conversation : Conversation) (action : TransportAction) : Option Conversation :=
  (conversation.guest.step text action).map fun guest =>
    { conversation with
      guest := guest
      host := conversation.host.hear text (conversation.guest.wrote guest) }

def hostInvokes (conversation : Conversation) : Conversation :=
  { conversation with
    hostInvocations := conversation.hostInvocations ++
      ((conversation.host.handled 0).map RpcRequest.invocation).toList }

/-- The guest begins to handle a request, if its transport has read one. -/
def guestInvokes (conversation : Conversation) : Conversation :=
  match conversation.guest.handled 0 with
  | none => conversation
  | some request =>
      { conversation with
        serving := .running (handler request.method request.params)
        guestInvocations := conversation.guestInvocations ++ [request.invocation] }

def step (conversation : Conversation) : ConversationAction -> Option Conversation
  | .hostCalls method params =>
      (conversation.hostStep text (.call 0 method params true)).map fun next =>
        { next with hostCalls := next.hostCalls ++ [(method, params)] }
  | .hostPolls => (conversation.hostStep text (.poll 0)).map hostInvokes
  | .hostHandlerReturns result =>
      (conversation.hostStep text (.handlerReturns 0 result true)).map fun next =>
        { next with hostResults := next.hostResults ++ [result] }
  | .guestPumps => conversation.guestStep text (.processNextLine 0 true)
  | .guestPolls =>
      match conversation.serving with
      | .notYet => (conversation.guestStep text (.poll 0)).map (guestInvokes handler)
      | .calling _ => conversation.guestStep text (.poll conversation.guestCalls.length)
      | _ => none
  | .guestCalls =>
      match conversation.serving with
      | .running (.call method params next) =>
          (conversation.guestStep text
            (.call (conversation.guestCalls.length + 1) method params true)).map fun after =>
              { after with
                serving := .calling next
                guestCalls := after.guestCalls ++ [(method, params)] }
      | _ => none
  | .guestContinues =>
      match conversation.serving,
          (conversation.guest.task conversation.guestCalls.length).phase.returned with
      | .calling next, some result =>
          some { conversation with serving := .running (next result) }
      | _, _ => none
  | .guestReturns =>
      match conversation.serving with
      | .running (.ret result) =>
          (conversation.guestStep text (.handlerReturns 0 result true)).map fun after =>
            { after with
              serving := .served
              guestResults := after.guestResults ++ [result] }
      | _ => none
  | .guestExits =>
      match conversation.serving with
      | .served => (conversation.host.step text .hangUp).map fun host =>
          { conversation with host := host }
      | _ => none

end Conversation

/-! ## What the pipes bring -/

/-- A reader with nothing buffered that will find these messages, one piece each, and
then the end if the pipe is closed. -/
def LineReader.holding (text : JsonText) (messages : List RpcMessage) (closed : Bool) :
    LineReader :=
  ⟨[], messages.map fun message => Delivery.ofBytes (frame text message), closed⟩

/-- A message that has arrived is read as one line. -/
theorem readLine_holding {text : JsonText} {message : RpcMessage} (messages : List RpcMessage)
    (closed : Bool) (faithful : text.Faithful message.serialize) :
    (LineReader.holding text (message :: messages) closed).readLine [] =
      (.ok (frame text message).length, frame text message,
        LineReader.holding text messages closed) := by
  have line : Lines.takeLine (frame text message) = some (frame text message, []) :=
    Lines.takeLine_append faithful.no_newline
  have valid : Utf8.Valid (frame text message) := by
    apply (Utf8.valid_append_iff faithful.valid _).mpr
    decide
  have delivered : forall later,
      readUntil closed [] (Delivery.ofBytes (frame text message) :: later) =
        ⟨frame text message, .ok, ⟨[], later, closed⟩⟩ := by
    intro later
    cases shape : frame text message with
    | nil =>
        rw [shape] at line
        cases line
    | cons first others =>
        rw [shape] at line
        simp only [readUntil, Lines.takeLine, Delivery.ofBytes]
        cases later <;> simp only [readUntil, line, List.nil_append]
  simp only [LineReader.holding, List.map_cons, LineReader.readLine, delivered, valid, if_true,
    List.nil_append]

end Rpc
end WasmiPlugin
