import WasmiPlugin.Rpc.Agreement
import WasmiPlugin.Rpc.LoneCall

namespace WasmiPlugin
namespace Rpc

open Foundation Lines

/-!
# The run of a plugin's server

`PluginServer::run` processes one line of stdin, which should be a request.  The
handler's program may call back before it returns, and each call takes further
lines until its response is there.  Stdin comes in pieces, and the run is polled
now and then.

`serve` is what all this comes to: one pass over the lines, in which the program
goes on from call to call.

The guest of a conversation is such a run, whose stdin comes in whole messages.
-/

/-! ## The run -/

/-- The transport of the server, where the handler stands, and how many calls it has
made. -/
structure ServerRun where
  transport : Transport
  serving : Serving
  calls : Nat

/-- `new_with_transport`.  The transport has no handler of its own. -/
def ServerRun.new : ServerRun where
  transport := .new ⟨[], [], false⟩ false
  serving := .notYet
  calls := 0

inductive ServerAction where
  | pumps
  | polls
  | calls
  | continues
  | returns
  | arrive (delivery : Delivery)
  | hangUp

namespace ServerRun

variable (text : JsonText) (handler : String -> Value -> HandlerProgram)

def invokes (run : ServerRun) : ServerRun :=
  match run.transport.handled 0 with
  | none => run
  | some request => { run with serving := .running (handler request.method request.params) }

/-- One step.  A poll of the run's future gets to the pump, or to the call that the
handler waits for. -/
def step (run : ServerRun) : ServerAction -> Option ServerRun
  | .pumps => (run.transport.step text (.processNextLine 0 true)).map fun transport =>
      { run with transport := transport }
  | .polls =>
      match run.serving with
      | .notYet => (run.transport.step text (.poll 0)).map fun transport =>
          { run with transport := transport }.invokes handler
      | .calling _ => (run.transport.step text (.poll run.calls)).map fun transport =>
          { run with transport := transport }
      | _ => none
  | .calls =>
      match run.serving with
      | .running (.call method params next) =>
          (run.transport.step text (.call (run.calls + 1) method params true)).map
            fun transport => ⟨transport, .calling next, run.calls + 1⟩
      | _ => none
  | .continues =>
      match run.serving, (run.transport.task run.calls).phase.returned with
      | .calling next, some result => some { run with serving := .running (next result) }
      | _, _ => none
  | .returns =>
      match run.serving with
      | .running (.ret result) =>
          (run.transport.step text (.handlerReturns 0 result true)).map fun transport =>
            { run with transport := transport, serving := .served }
      | _ => none
  | .arrive delivery => (run.transport.step text (.arrive delivery)).map fun transport =>
      { run with transport := transport }
  | .hangUp => (run.transport.step text .hangUp).map fun transport =>
      { run with transport := transport }

end ServerRun

/-- The piece of stdin that a step brings. -/
def ServerAction.delivery : ServerAction -> Option Delivery
  | .arrive delivery => some delivery
  | _ => none

def ServerAction.bytes : ServerAction -> List UInt8
  | .arrive delivery => delivery.bytes
  | _ => []

/-- The piece of stdin that a step brings, if it brings one, is of whole characters,
and does not fail. -/
def ServerAction.Whole : ServerAction -> Prop
  | .arrive delivery => Utf8.Valid delivery.bytes ∧ delivery ≠ .failure
  | _ => True

instance (action : ServerAction) : Decidable action.Whole := by
  unfold ServerAction.Whole
  split <;> infer_instance

def stdinOf (history : List (Transition ServerRun ServerAction)) : List UInt8 :=
  history.flatMap fun taken => taken.action.bytes

/-! ## What a run comes to -/

/-- What a call returns that reads these lines, and the lines that it leaves. -/
def awaitResponse (text : JsonText) (id : UInt64) (ended : Bool) :
    List (List UInt8) -> Option (Except RpcError RpcResponse × List (List UInt8))
  | [] => if ended then some (.error .internalError, []) else none
  | line :: lines =>
      match decodeLine text line with
      | none => some (.error .parseError, lines)
      | some (.rpcErrorResponse response) => some (.error response.error, lines)
      | some (.rpcRequest _) => some (.error (.custom "Handler not found"), lines)
      | some (.rpcResponse response) =>
          if response.id = id then some (.ok response, lines)
          else awaitResponse text id ended lines

/-- What the program of a request tells, and whether it comes to its end.  The ids of
its calls are their numbers. -/
def HandlerProgram.serve (text : JsonText) (ended : Bool) (request : RpcRequest) :
    HandlerProgram -> (calls : Nat) -> (lines : List (List UInt8)) -> List RpcMessage × Bool
  | .ret result, _, _ => ([Transport.reply request result], true)
  | .call method params next, calls, lines =>
      let asked := RpcMessage.rpcRequest ⟨jsonRpcVersion, UInt64.ofNat calls, method, params⟩
      match awaitResponse text (UInt64.ofNat calls) ended lines with
      | none => ([asked], false)
      | some (result, lines) =>
          let later := (next result).serve text ended request (calls + 1) lines
          (asked :: later.1, later.2)

/-- What a server tells that is given these lines, and whether it is done then.  A
first line that is no request ends it. -/
def serve (text : JsonText) (handler : String -> Value -> HandlerProgram) (ended : Bool) :
    List (List UInt8) -> List RpcMessage × Bool
  | [] => ([], ended)
  | line :: lines =>
      match decodeLine text line with
      | some (.rpcRequest request) =>
          (handler request.method request.params).serve text ended request 0 lines
      | _ => ([], true)

def resume (text : JsonText) (request : RpcRequest)
    (next : Except RpcError RpcResponse -> HandlerProgram) (calls : Nat) (ended : Bool)
    (lines : List (List UInt8)) : List RpcMessage × Bool :=
  match awaitResponse text (UInt64.ofNat (calls - 1)) ended lines with
  | none => ([], false)
  | some (result, lines) => (next result).serve text ended request calls lines

section Resume

variable {text : JsonText} {request : RpcRequest} {calls : Nat}
  {next : Except RpcError RpcResponse -> HandlerProgram}

theorem HandlerProgram.serve_call (method : String) (params : Value) (ended : Bool)
    (lines : List (List UInt8)) :
    (HandlerProgram.call method params next).serve text ended request calls lines =
      (.rpcRequest ⟨jsonRpcVersion, UInt64.ofNat calls, method, params⟩ ::
          (resume text request next (calls + 1) ended lines).1,
        (resume text request next (calls + 1) ended lines).2) := by
  rw [HandlerProgram.serve, resume, Nat.add_sub_cancel]
  cases awaitResponse text (UInt64.ofNat calls) ended lines <;> rfl

theorem resume_some {ended : Bool} {lines later : List (List UInt8)}
    {result : Except RpcError RpcResponse}
    (awaited : awaitResponse text (UInt64.ofNat (calls - 1)) ended lines = some (result, later)) :
    resume text request next calls ended lines =
      (next result).serve text ended request calls later := by
  simp only [resume, awaited]

end Resume

section Steps

variable {text : JsonText} {handler : String -> Value -> HandlerProgram} {run after : ServerRun}

/-! ## Every step -/

/-- A step leaves the transport as it is, or is the one step of the transport that the
action means. -/
theorem ServerRun.step_transport {action : ServerAction}
    (stepped : run.step text handler action = some after) :
    (after.transport = run.transport ∧ action.bytes = []) ∨
      Exists fun moved => run.transport.step text moved = some after.transport ∧
        arrived ⟨run.transport, moved, after.transport⟩ = action.bytes ∧
        (moved = .hangUp -> action = .hangUp) := by
  have invoked (transport : Transport) :
      ({ run with transport := transport }.invokes handler).transport = transport := by
    unfold ServerRun.invokes
    split <;> rfl
  cases action with
  | pumps | arrive =>
      rcases Option.map_eq_some_iff.mp stepped with ⟨transport, moved, rfl⟩
      exact .inr ⟨_, moved, rfl, TransportAction.noConfusion⟩
  | hangUp =>
      cases stepped
      exact .inr ⟨.hangUp, rfl, rfl, fun _ => rfl⟩
  | polls =>
      simp only [ServerRun.step] at stepped
      split at stepped
      · rcases Option.map_eq_some_iff.mp stepped with ⟨transport, moved, rfl⟩
        exact .inr ⟨_, (invoked transport).symm ▸ moved, rfl, TransportAction.noConfusion⟩
      · rcases Option.map_eq_some_iff.mp stepped with ⟨transport, moved, rfl⟩
        exact .inr ⟨_, moved, rfl, TransportAction.noConfusion⟩
      · cases stepped
  | calls | returns =>
      simp only [ServerRun.step] at stepped
      split at stepped
      · rcases Option.map_eq_some_iff.mp stepped with ⟨transport, moved, rfl⟩
        exact .inr ⟨_, moved, rfl, TransportAction.noConfusion⟩
      · cases stepped
  | continues =>
      simp only [ServerRun.step] at stepped
      split at stepped
      · cases stepped
        exact .inl ⟨rfl, rfl⟩
      · cases stepped

theorem ServerRun.step_closed {action : ServerAction}
    (stepped : run.step text handler action = some after)
    (closed : run.transport.reader.closed = true) :
    after.transport.reader.closed = true ∧ action.bytes = [] := by
  rcases ServerRun.step_transport stepped with ⟨same, none⟩ | ⟨moved, taken, brings, _⟩
  · exact ⟨by rw [same]; exact closed, none⟩
  · rw [← brings]
    exact Rpc.step_closed taken closed

theorem ServerRun.step_opened {action : ServerAction}
    (stepped : run.step text handler action = some after) (other : action ≠ .hangUp) :
    after.transport.reader.closed = run.transport.reader.closed := by
  rcases ServerRun.step_transport stepped with ⟨same, _⟩ | ⟨moved, taken, _, hangsUp⟩
  · rw [same]
  · exact step_closed_eq taken fun this => other (hangsUp this)

end Steps

/-! ## The guest of a conversation -/

/-- The guest's side of a conversation, as a run of a server. -/
def Conversation.server (conversation : Conversation) : ServerRun :=
  ⟨conversation.guest, conversation.serving, conversation.guestCalls.length⟩

/-- The step of `PluginServer::run` that an action of the guest in a conversation
stands for, if it is one. -/
def ConversationAction.server : ConversationAction -> Option ServerAction
  | .guestPumps => some .pumps
  | .guestPolls => some .polls
  | .guestCalls => some .calls
  | .guestContinues => some .continues
  | .guestReturns => some .returns
  | _ => none

section Guest

variable {text : JsonText} {handler : String -> Value -> HandlerProgram}
  {conversation next : Conversation} {action : ConversationAction}

/-- A step of the guest is a step of its server, which the host does not notice but by
what it hears. -/
theorem Conversation.server_step {served : ServerAction} (guests : action.server = some served)
    (stepped : conversation.step text handler action = some next) :
    conversation.server.step text handler served = some next.server ∧
      next.host.written = conversation.host.written := by
  have moved {taken : TransportAction} {after : Conversation}
      (stepped : conversation.guestStep text taken = some after) :
      conversation.guest.step text taken = some after.guest ∧
        after.serving = conversation.serving ∧ after.guestCalls = conversation.guestCalls ∧
        after.host.written = conversation.host.written := by
    rcases guestStep_eq stepped with ⟨guest, taken, rfl⟩
    exact ⟨taken, rfl, rfl, rfl⟩
  cases action with
  | hostCalls | hostPolls | hostHandlerReturns | guestExits => cases guests
  | guestPumps =>
      cases guests
      rcases moved stepped with ⟨taken, serving, calls, written⟩
      refine ⟨?_, written⟩
      simp only [ServerRun.step, Conversation.server, taken, Option.map_some, serving, calls]
  | guestPolls =>
      cases guests
      simp only [Conversation.step] at stepped
      split at stepped
      · next fresh =>
          rcases Option.map_eq_some_iff.mp stepped with ⟨after, polled, rfl⟩
          rcases moved polled with ⟨taken, serving, calls, written⟩
          simp only [ServerRun.step, Conversation.server, fresh, taken, Option.map_some,
            ServerRun.invokes, Conversation.guestInvokes]
          cases after.guest.handled 0 <;>
            exact ⟨by simp only [serving, calls, fresh], written⟩
      · next calling =>
          rcases moved stepped with ⟨taken, serving, calls, written⟩
          refine ⟨?_, written⟩
          simp only [ServerRun.step, Conversation.server, calling, taken, Option.map_some, serving,
            calls]
      · cases stepped
  | guestCalls =>
      cases guests
      simp only [Conversation.step] at stepped
      split at stepped
      · next running =>
          rcases Option.map_eq_some_iff.mp stepped with ⟨after, called, rfl⟩
          rcases moved called with ⟨taken, serving, calls, written⟩
          refine ⟨?_, written⟩
          simp only [ServerRun.step, Conversation.server, running, taken, Option.map_some, calls,
            List.length_append, List.length_singleton]
      · cases stepped
  | guestContinues =>
      cases guests
      simp only [Conversation.step] at stepped
      split at stepped
      · next calling returned =>
          cases stepped
          refine ⟨?_, rfl⟩
          simp only [ServerRun.step, Conversation.server, calling, returned]
      · cases stepped
  | guestReturns =>
      cases guests
      simp only [Conversation.step] at stepped
      split at stepped
      · next running =>
          rcases Option.map_eq_some_iff.mp stepped with ⟨after, replied, rfl⟩
          rcases moved replied with ⟨taken, serving, calls, written⟩
          refine ⟨?_, written⟩
          simp only [ServerRun.step, Conversation.server, running, taken, Option.map_some, calls]
      · cases stepped

theorem ConversationAction.server_quiet {served : ServerAction}
    (guests : action.server = some served) : served.delivery = none ∧ served ≠ .hangUp := by
  cases action with
  | hostCalls | hostPolls | hostHandlerReturns | guestExits => cases guests
  | guestPumps | guestPolls | guestCalls | guestContinues | guestReturns =>
      cases guests
      exact ⟨rfl, ServerAction.noConfusion⟩

/-- A step of a conversation that is none of its server leaves the server what it is,
but for what it hears. -/
theorem Conversation.server_hears (others : action.server = none)
    (stepped : conversation.step text handler action = some next) :
    (Exists fun taken => conversation.host.step text taken = some next.host) ∧
      next.server = { conversation.server with
        transport := conversation.guest.hear text (conversation.host.wrote next.host) } := by
  have moved {taken : TransportAction} {after : Conversation}
      (stepped : conversation.hostStep text taken = some after) :
      conversation.host.step text taken = some after.host ∧
        after.server = { conversation.server with
          transport := conversation.guest.hear text (conversation.host.wrote after.host) } := by
    rcases hostStep_eq stepped with ⟨host, taken, rfl⟩
    exact ⟨taken, rfl⟩
  cases action with
  | guestPumps | guestPolls | guestCalls | guestContinues | guestReturns => cases others
  | hostCalls | hostPolls | hostHandlerReturns =>
      rcases Option.map_eq_some_iff.mp stepped with ⟨after, taken, rfl⟩
      exact ⟨⟨_, (moved taken).1⟩, (moved taken).2⟩
  | guestExits =>
      simp only [Conversation.step] at stepped
      split at stepped
      · rcases Option.map_eq_some_iff.mp stepped with ⟨host, taken, rfl⟩
        have nothing : conversation.host.wrote host = [] := by
          cases taken
          exact wrote_nothing rfl
        refine ⟨⟨.hangUp, taken⟩, ?_⟩
        dsimp only
        rw [nothing, hear_nil]
        rfl
      · cases stepped

theorem Transport.processMessage_written (transport : Transport) (task : TaskId)
    (message : RpcMessage) :
    (transport.processMessage task message).written = transport.written := by
  cases message with
  | rpcResponse response =>
      rw [Transport.processMessage, Transport.proceed_written, Transport.deliver_written]
  | rpcErrorResponse response => rfl
  | rpcRequest request =>
      rw [Transport.processMessage, apply_ite Transport.written]
      exact ite_self _

theorem Transport.step_wrote {before after : Transport} {action : TransportAction}
    (stepped : before.step text action = some after) :
    after.written = before.written ++ before.wrote after := by
  suffices before.written <+: after.written from (List.prefix_iff_eq_append.mp this).symm
  cases action with
  | call task method params writes =>
      simp only [Transport.step] at stepped
      split at stepped
      · split at stepped
        · cases stepped
          rw [Transport.proceed_written]
          exact List.prefix_append _ _
        · cases stepped
          exact List.prefix_rfl
      · cases stepped
  | processNextLine task handler =>
      simp only [Transport.step] at stepped
      split at stepped
      · cases stepped
        exact List.prefix_rfl
      · cases stepped
  | poll task =>
      rcases Transport.step_poll stepped with ⟨line, reading, rfl⟩
      rcases Transport.nextLine_cases text before task line reading with
        ⟨reader, guard, ⟨_, phase, _, same⟩ | ⟨message, _, _, same⟩⟩
      · rw [same]
        exact List.prefix_rfl
      · have kept := same ▸ Transport.processMessage_written _ task message
        exact kept ▸ List.prefix_rfl
  | handlerReturns task result writes =>
      simp only [Transport.step] at stepped
      split at stepped
      · split at stepped
        · cases stepped
          rw [Transport.proceed_written]
          exact List.prefix_append _ _
        · cases stepped
          exact List.prefix_rfl
      · cases stepped
  | drop task =>
      simp only [Transport.step] at stepped
      split at stepped
      · cases stepped
        exact List.prefix_rfl
      · split at stepped
        · cases stepped
          exact List.prefix_rfl
        · cases stepped
  | arrive delivery =>
      simp only [Transport.step] at stepped
      split at stepped
      · cases stepped
      · cases stepped
        exact List.prefix_rfl
  | hangUp =>
      cases stepped
      exact List.prefix_rfl

def deliveries (history : List (Transition ServerRun ServerAction)) : List Delivery :=
  history.filterMap fun taken => taken.action.delivery

theorem deliveries_extend (history : List (Transition ServerRun ServerAction))
    (taken : Transition ServerRun ServerAction) :
    deliveries (history ++ [taken]) = deliveries history ++ taken.action.delivery.toList :=
  filterMap_extend (fun taken : Transition ServerRun ServerAction => taken.action.delivery)
    history taken

/-- The piece in which a message comes whole. -/
def inOnePiece (text : JsonText) (message : RpcMessage) : Delivery :=
  .ofBytes (frame text message)

private theorem ServerRun.hears {run : ServerRun}
    {served : List (Transition ServerRun ServerAction)}
    (reached : Run (ServerRun.step text handler) .new served run)
    (opened : run.transport.reader.closed = false) (messages : List RpcMessage) :
    Exists fun later => Run (ServerRun.step text handler) .new later
        { run with transport := run.transport.hear text messages } ∧
      deliveries later = deliveries served ++ messages.map (inOnePiece text) := by
  induction messages generalizing run served with
  | nil => exact ⟨served, by rw [hear_nil]; exact reached, (List.append_nil _).symm⟩
  | cons message messages inductionHypothesis =>
      have heard : run.step text handler (.arrive (inOnePiece text message)) =
          some { run with transport := run.transport.hear text [message] } := by
        simp only [ServerRun.step, Transport.step, opened, Bool.false_eq_true, if_false,
          Option.map_some, Transport.hear, List.map_cons, List.map_nil, inOnePiece]
      rcases inductionHypothesis (reached.extend heard) opened with ⟨later, goesOn, came⟩
      have both : (run.transport.hear text [message]).hear text messages =
          run.transport.hear text (message :: messages) := by
        simp only [Transport.hear, List.map_cons, List.map_nil, List.append_assoc,
          List.singleton_append]
      rw [deliveries_extend, List.append_assoc] at came
      rw [← both]
      exact ⟨later, goesOn, came⟩

/-- In every conversation the guest is a run of its server, which gets the messages of
the host, each in one piece. -/
theorem Conversation.guest_runs {history : List (Transition Conversation ConversationAction)}
    {final : Conversation} (run : Run (Conversation.step text handler) .new history final) :
    final.guest.reader.closed = false ∧
      Exists fun served => Run (ServerRun.step text handler) .new served final.server ∧
        deliveries served = final.host.written.map (inOnePiece text) := by
  induction run with
  | start => exact ⟨rfl, [], .start, rfl⟩
  | @extend history before after action run stepped inductionHypothesis =>
      rcases inductionHypothesis with ⟨opened, served, reached, came⟩
      cases part : action.server with
      | some taken =>
          rcases Conversation.server_step part stepped with ⟨goesOn, written⟩
          rcases ConversationAction.server_quiet part with ⟨silent, other⟩
          refine ⟨(ServerRun.step_opened goesOn other).trans opened, _, reached.extend goesOn, ?_⟩
          rw [deliveries_extend, silent, Option.toList_none, List.append_nil, came, written]
      | none =>
          rcases Conversation.server_hears part stepped with ⟨⟨taken, moved⟩, hears⟩
          rcases ServerRun.hears reached opened (before.host.wrote after.host) with
            ⟨later, goesOn, brought⟩
          refine ⟨?_, later, ?_, ?_⟩
          · have guest : after.guest = before.guest.hear text (before.host.wrote after.host) :=
              congrArg ServerRun.transport hears
            rw [guest]
            exact opened
          · rw [hears]
            exact goesOn
          · rw [brought, came, Transport.step_wrote moved, List.map_append]

end Guest

end Rpc
end WasmiPlugin
