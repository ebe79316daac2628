import WasmiPlugin.Rpc.Liveness
import WasmiPlugin.Rpc.Server

namespace WasmiPlugin
namespace TestPlugin

open Foundation Rpc Rpc.Server

/-!
# The test plugin asks for many echoes

`many_echo` calls the host once for each number below its limit, and compares the
id and the result of every response with the number.  The host of the integration
tests is a `HostServer` that returns what it is given.

The test runs this once, with a limit of 200.  Here it is every limit, and every
execution in which both sides are polled again and again.
-/

/-- The JSON value of a number, as `Value::Number(i.into())` makes it. -/
def number (value : UInt64) : Value := .num (.posInt value)

@[simp] theorem number_asU64 (value : UInt64) : (number value).asU64 = some value := rfl

/-- `from_value` for `()`, which is read from `null` only. -/
def asUnit : Value -> Option PUnit
  | .null => some ⟨⟩
  | _ => none

/-! ## The plugin -/

/-- The loop of `many_echo`, from an index on. -/
def echoes : (remaining index : Nat) -> HandlerProgram
  | 0, _ => .ret (.ok .null)
  | remaining + 1, index =>
      .call "echo" (number (UInt64.ofNat index)) fun
        | .error error => .ret (.error error)
        | .ok resp =>
            if resp.id ≠ UInt64.ofNat index then .ret (.error .internalError)
            else if resp.result.asU64 ≠ some (UInt64.ofNat index) then
              .ret (.error .internalError)
            else echoes remaining (index + 1)

def manyEcho (limit : UInt64) : HandlerProgram :=
  echoes limit.toNat 0

/-- The closure that `with_method` makes of a method. -/
def withParams {P : Type} (deserialize : Value -> Option P) (func : P -> HandlerProgram)
    (params : Value) : HandlerProgram :=
  match deserialize params with
  | none => .ret (.error .invalidParams)
  | some p => func p

/-- The handler of the plugin's server, with `many_echo` among methods that are left
open. -/
def pluginHandler (others : String -> Value -> HandlerProgram) (method : String) (params : Value) :
    HandlerProgram :=
  if method = "ping" then withParams asUnit (fun _ => .ret (.ok (.str "pong"))) params
  else if method = "many_echo" then withParams Value.asU64 manyEcho params
  else others method params

/-! ## The host -/

variable {PluginId : Type}

def hostPing : Method (PluginId × PUnit) PUnit where
  P := PUnit
  R := String
  deserialize := asUnit
  serialize := fun text => some (.str text)
  func := fun _ _ world => (.ok "pong", world)

def hostEcho : Method (PluginId × PUnit) PUnit where
  P := Value
  R := Value
  deserialize := some
  serialize := some
  func := fun _ params world => (.ok params, world)

/-- The server that the integration tests give to the host, `get_host_server`. -/
def hostServer : HostServer PluginId PUnit PUnit :=
  .build ⟨⟩ [("ping", hostPing), ("echo", hostEcho)]

/-- The host's handler is the server, which is told the plugin that asks. -/
def Hosted (server : HostServer PluginId PUnit PUnit) (plugin : PluginId)
    (taken : Transition Conversation ConversationAction) : Prop :=
  forall request result, (taken.before.host.task 0).phase = .handling request ->
    taken.action = .hostHandlerReturns result ->
    (server.handle plugin request.method request.params ⟨⟩).1 = .returned result

def answerOf (server : HostServer PluginId PUnit PUnit) (plugin : PluginId) : HostAnswer :=
  fun asked =>
    match asked.getLast? with
    | none => .error .internalError
    | some invocation =>
        match (server.handle plugin invocation.1 invocation.2 ⟨⟩).1 with
        | .returned result => result
        | .panicked => .error .internalError

variable {text : JsonText} {handler : String -> Value -> HandlerProgram}
  {server : HostServer PluginId PUnit PUnit} {plugin : PluginId}

/-- When the host's handler is a server that is told who asks, its answer to the
latest invocation is that of the server. -/
theorem Hosted.answers {taken : Transition Conversation ConversationAction}
    (hosted : Hosted server plugin taken) (stage : Stage text taken.before)
    (stepped : taken.before.step text handler taken.action = some taken.after) :
    Answers (answerOf server plugin) taken := by
  intro result returns
  rw [returns] at stepped
  rcases Option.map_eq_some_iff.mp stepped with ⟨_, moved, _⟩
  rcases hostStep_eq moved with ⟨_, returned, _⟩
  rcases Transport.step_handlerReturns returned with ⟨request, _, handling, _⟩
  rcases stage.of_handling handling with ⟨invoked, _, last, _⟩
  have handled := hosted request result handling returns
  simp only [answerOf, invoked, last, RpcRequest.invocation, handled]

theorem hostServer_echoes (asked : List Invocation) (params : Value) :
    answerOf hostServer plugin (asked ++ [("echo", params)]) = .ok params := by
  simp only [answerOf, List.getLast?_concat]
  rfl

/-! ## The loop -/

/-- The loop asks for every number in turn, and if each comes back its result is
`null`. -/
theorem echoes_evaluate {answer : HostAnswer}
    (honest : forall asked params, answer (asked ++ [("echo", params)]) = .ok params)
    (remaining index : Nat) {asked : List Invocation} (counted : asked.length = index) :
    (echoes remaining index).evaluate answer asked =
      (.ok .null, asked ++ (List.range' index remaining).map fun value =>
        ("echo", number (UInt64.ofNat value))) := by
  induction remaining generalizing index asked with
  | zero => simp only [echoes, HandlerProgram.evaluate, List.range'_zero, List.map_nil,
      List.append_nil]
  | succ remaining inductionHypothesis =>
      have longer : (asked ++ [("echo", number (UInt64.ofNat index))]).length = index + 1 := by
        rw [List.length_append, List.length_singleton, counted]
      have later := inductionHypothesis (index + 1) longer
      simp only [echoes, HandlerProgram.evaluate, honest, counted, returnedAs, Except.map,
        number_asU64, ne_eq, not_true, if_false, List.range'_succ, List.map_cons]
      rw [later, List.append_assoc, List.singleton_append]

theorem manyEcho_evaluate {answer : HostAnswer}
    (honest : forall asked params, answer (asked ++ [("echo", params)]) = .ok params)
    (others : String -> Value -> HandlerProgram) (limit : UInt64) :
    (pluginHandler others "many_echo" (number limit)).evaluate answer [] =
      (.ok .null, (List.range limit.toNat).map fun value =>
        ("echo", number (UInt64.ofNat value))) := by
  rw [List.range_eq_range']
  exact echoes_evaluate honest limit.toNat 0 rfl

/-! ## Every execution -/

/-- For every limit, a call of `many_echo` returns `null` under its own id, after the
host has been asked for each number below the limit, once and in order. -/
theorem many_echo_returns {others : String -> Value -> HandlerProgram}
    {path : Path (Conversation.step text (pluginHandler others)) .new}
    (attended : Attended path) (hosted : path.Meets (Hosted hostServer plugin)) (limit : UInt64) :
    path.LeadsTo (fun conversation => ("many_echo", number limit) ∈ conversation.hostCalls)
      fun conversation =>
        (conversation.host.task 0).phase.returned = some (.ok ⟨jsonRpcVersion, 0, .null⟩) ∧
          conversation.hostInvocations = (List.range limit.toNat).map fun value =>
            ("echo", number (UInt64.ofNat value)) := by
  have reached : forall time, Stage text (path.state time) ∧
      OnCourse (answerOf hostServer plugin) (pluginHandler others) (path.state time) := by
    intro time
    refine path.invariantWithin (fun conversation => Stage text conversation ∧
        OnCourse (answerOf hostServer plugin) (pluginHandler others) conversation)
      (fun taken => WritesFaithfully text taken ∧ Hosted hostServer plugin taken) ⟨.new, .new⟩
      (fun time action acts => ⟨attended.faithful time action acts, hosted time action acts⟩)
      (fun state action next holds stepped meets => ?_) time
    have answers := meets.2.answers holds.1 stepped
    exact ⟨holds.1.step stepped meets.1, holds.2.step holds.1 stepped meets.1 answers⟩
  have evaluates := attended.evaluates "many_echo" (number limit) fun time _ => (reached time).2
  rw [manyEcho_evaluate hostServer_echoes] at evaluates
  exact evaluates

/-! ## One echo -/

def oneEchoMessages : List RpcMessage :=
  [.rpcRequest ⟨jsonRpcVersion, 0, "many_echo", number 1⟩,
    .rpcRequest ⟨jsonRpcVersion, 0, "echo", number 0⟩,
    .rpcResponse ⟨jsonRpcVersion, 0, number 0⟩,
    .rpcResponse ⟨jsonRpcVersion, 0, .null⟩]

def oneEchoText : JsonText := compactText (oneEchoMessages.map RpcMessage.serialize)

def noOthers (_ : String) (_ : Value) : HandlerProgram := .ret (.error .methodNotFound)

def oneEcho : List ConversationAction :=
  [.hostCalls "many_echo" (number 1), .guestPumps, .guestPolls, .guestCalls, .hostPolls,
    .hostHandlerReturns (.ok (number 0)), .guestPolls, .guestContinues, .guestReturns, .hostPolls]

theorem oneEcho_enabled : (Run.play
    (Conversation.step oneEchoText (pluginHandler noOthers)) .new oneEcho).isSome := by
  decide

def oneEchoPath : Path (Conversation.step oneEchoText (pluginHandler noOthers)) .new :=
  .ofActions oneEcho oneEcho_enabled

theorem oneEcho_faithful : forall message, message ∈ oneEchoMessages ->
    oneEchoText.Faithful message.serialize := by
  simp only [oneEchoMessages, List.forall_mem_cons]
  refine ⟨?_, ?_, ?_, ?_, fun _ member => absurd member List.not_mem_nil⟩
  all_goals exact .of_text rfl (by decide) (by decide) (by decide)

theorem oneEchoPath_attended : Attended oneEchoPath :=
  .ofActions oneEcho_enabled (rfl : _ = oneEchoMessages) oneEcho_faithful rfl Phase.noConfusion
    (Option.some_ne_none _)

def hosting (taken : Transition Conversation ConversationAction) :
    Option (RpcRequest × Except RpcError Value) :=
  match (taken.before.host.task 0).phase, taken.action with
  | .handling request, .hostHandlerReturns result => some (request, result)
  | _, _ => none

theorem oneEcho_hosted (taken : Transition Conversation ConversationAction)
    (member : taken ∈ ((Run.play (Conversation.step oneEchoText (pluginHandler noOthers)) .new
      oneEcho).get oneEcho_enabled).1) : Hosted hostServer 7 taken := by
  intro request result handling returns
  have listed : (request, result) ∈ ((Run.play (Conversation.step oneEchoText
      (pluginHandler noOthers)) .new oneEcho).get oneEcho_enabled).1.filterMap hosting :=
    List.mem_filterMap.mpr ⟨taken, member, by rw [hosting, handling, returns]⟩
  have all : ((Run.play (Conversation.step oneEchoText (pluginHandler noOthers)) .new
      oneEcho).get oneEcho_enabled).1.filterMap hosting =
      [(⟨jsonRpcVersion, 0, "echo", number 0⟩, .ok (number 0))] := rfl
  rw [all, List.mem_singleton, Prod.mk.injEq] at listed
  rw [listed.1, listed.2]
  rfl

/-- With the limit 1 there is one echo, and then the answer. -/
theorem one_echo_returns : Exists fun later => 1 ≤ later ∧
    ((oneEchoPath.state later).host.task 0).phase.returned =
        some (.ok ⟨jsonRpcVersion, 0, .null⟩) ∧
      (oneEchoPath.state later).hostInvocations = [("echo", number 0)] :=
  many_echo_returns oneEchoPath_attended (Path.ofActions_meets oneEcho_enabled oneEcho_hosted) 1 1
    List.mem_cons_self

end TestPlugin
end WasmiPlugin
