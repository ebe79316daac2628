import WasmiPlugin.Rpc.RequestReplies
import Mathlib.Logic.Function.Basic

namespace WasmiPlugin
namespace Rpc
namespace Server

/-!
# Methods that are registered by name

A `Router` is built by registrations, each of a name and a function with its own
types for parameters and result.  Both types are known only to `serde`: a method
brings the decoder of the one and the encoder of the other, and either of them
can fail.  The world is whatever the functions change, so a function that is not
run leaves it as it was.

The router answers every request unless the result of the function has no JSON.
Encoding it ends with an `unwrap`.
-/

/-- What is registered: a function with the codecs of its types. -/
structure Method (S W : Type) where
  P : Type
  R : Type
  /-- The parameters are read by `serde_json::from_value`. -/
  deserialize : Value -> Option P
  /-- The result is turned into a value by `serde_json::to_value`. -/
  serialize : R -> Option Value
  func : S -> P -> W -> Except RpcError R × W

/-- How the future of a handler ends. -/
inductive Reply where
  | returned (result : Except RpcError Value)
  | panicked

/-- `HandlerFn`, run to its end. -/
def HandlerFn (S W : Type) : Type :=
  S -> Value -> W -> Reply × W

variable {S W : Type}

/-- The closure that `with_method` makes of a function. -/
def Method.handlerFn (method : Method S W) : HandlerFn S W := fun state params world =>
  match method.deserialize params with
  | none => (.returned (.error .invalidParams), world)
  | some p =>
      match method.func state p world with
      | (.error error, world) => (.returned (.error error), world)
      | (.ok result, world) =>
          match method.serialize result with
          | some value => (.returned (.ok value), world)
          | none => (.panicked, world)

/-- `Router`, whose map of handlers is a function of the name. -/
structure Router (S W : Type) where
  handlers : String -> Option (HandlerFn S W)

namespace Router

def new : Router S W :=
  ⟨fun _ => none⟩

def withMethod (router : Router S W) (name : String) (method : Method S W) : Router S W :=
  ⟨Function.update router.handlers name (some method.handlerFn)⟩

def handleWithState (router : Router S W) (state : S) (method : String) (params : Value)
    (world : W) : Reply × W :=
  match router.handlers method with
  | none => (.returned (.error .methodNotFound), world)
  | some handler => handler state params world

def build (registrations : List (String × Method S W)) : Router S W :=
  registrations.foldl (fun router registration => router.withMethod registration.1 registration.2)
    new

end Router

/-- `HostServer`, which is a router and the state that its handlers are given. -/
structure HostServer (PluginId S W : Type) where
  state : S
  router : Router (PluginId × S) W

namespace HostServer

variable {PluginId : Type}

/-- A host server after `HostServer::new` and a sequence of registrations. -/
def build (state : S) (registrations : List (String × Method (PluginId × S) W)) :
    HostServer PluginId S W :=
  ⟨state, Router.build registrations⟩

def handle (server : HostServer PluginId S W) (plugin : PluginId) (method : String)
    (params : Value) (world : W) : Reply × W :=
  server.router.handleWithState (plugin, server.state) method params world

end HostServer

/-! ## Correct dispatch -/

/-- The name was never registered. -/
def Unregistered (registrations : List (String × Method S W)) (name : String) : Prop :=
  forall registration, registration ∈ registrations -> registration.1 ≠ name

/-- The method was registered under the name, and no other after it. -/
def MostRecent (registrations : List (String × Method S W)) (name : String)
    (method : Method S W) : Prop :=
  Exists fun earlier => Exists fun later =>
    registrations = earlier ++ (name, method) :: later ∧ Unregistered later name

/-- A request is answered by the most recent method of its name, or refused
without running anything. -/
structure Dispatched (registrations : List (String × Method S W)) (state : S) (name : String)
    (params : Value) (world : W) (reply : Reply) (after : W) : Prop where
  unregistered : Unregistered registrations name ->
    reply = .returned (.error .methodNotFound) ∧ after = world
  undecodable : forall method, MostRecent registrations name method ->
    method.deserialize params = none ->
    reply = .returned (.error .invalidParams) ∧ after = world
  failed : forall method, MostRecent registrations name method ->
    forall p, method.deserialize params = some p ->
    forall error changed, method.func state p world = (.error error, changed) ->
    reply = .returned (.error error) ∧ after = changed
  succeeded : forall method, MostRecent registrations name method ->
    forall p, method.deserialize params = some p ->
    forall result changed, method.func state p world = (.ok result, changed) ->
    forall value, method.serialize result = some value ->
    reply = .returned (.ok value) ∧ after = changed
  unrepresentable : forall method, MostRecent registrations name method ->
    forall p, method.deserialize params = some p ->
    forall result changed, method.func state p world = (.ok result, changed) ->
    method.serialize result = none ->
    (Exists fun error => reply = .returned (.error error)) ∧ after = changed

/-- The function that a request is for returns something that has no JSON. -/
def ReturnsUnrepresentable (registrations : List (String × Method S W)) (state : S)
    (name : String) (params : Value) (world : W) : Prop :=
  Exists fun method => MostRecent registrations name method ∧
    Exists fun p => method.deserialize params = some p ∧
      Exists fun result => (method.func state p world).1 = .ok result ∧
        method.serialize result = none

/-! ## Registrations -/

/-- Registrations under other names leave a handler alone. -/
theorem foldl_handlers_other {registrations : List (String × Method S W)} {name : String}
    (others : Unregistered registrations name) (router : Router S W) :
    (registrations.foldl (fun router registration =>
      router.withMethod registration.1 registration.2) router).handlers name =
      router.handlers name := by
  induction registrations generalizing router with
  | nil => rfl
  | cons registration registrations inductionHypothesis =>
      have different := others registration List.mem_cons_self
      have rest : Unregistered registrations name := fun later listed =>
        others later (List.mem_cons_of_mem _ listed)
      rw [List.foldl_cons, inductionHypothesis rest]
      exact Function.update_of_ne (Ne.symm different) _ _

/-- A name that was never registered has no handler. -/
theorem handlers_of_unregistered {registrations : List (String × Method S W)} {name : String}
    (never : Unregistered registrations name) :
    (Router.build registrations).handlers name = none :=
  foldl_handlers_other never .new

/-- A registered name has the handler of its most recent method. -/
theorem handlers_of_mostRecent {registrations : List (String × Method S W)} {name : String}
    {method : Method S W} (recent : MostRecent registrations name method) :
    (Router.build registrations).handlers name = some method.handlerFn := by
  rcases recent with ⟨earlier, later, rfl, others⟩
  rw [Router.build, List.foldl_append, List.foldl_cons, foldl_handlers_other others]
  exact Function.update_self ..

/-- A name was never registered or has a most recent method. -/
theorem unregistered_or_mostRecent (registrations : List (String × Method S W)) (name : String) :
    Unregistered registrations name ∨
      Exists fun method => MostRecent registrations name method := by
  induction registrations with
  | nil => exact .inl fun _ listed => absurd listed List.not_mem_nil
  | cons registration registrations inductionHypothesis =>
      rcases inductionHypothesis with never | ⟨method, earlier, later, split, others⟩
      · rcases registration with ⟨first, method⟩
        by_cases same : first = name
        · subst same
          exact .inr ⟨method, [], registrations, rfl, never⟩
        · exact .inl (List.forall_mem_cons.mpr ⟨same, never⟩)
      · exact .inr ⟨method, registration :: earlier, later, by rw [split, List.cons_append], others⟩

/-! ## Requests -/

variable {registrations : List (String × Method S W)} {state : S} {name : String}
  {params : Value} {world : W}

/-- A request for a registered name is up to the most recent method. -/
theorem handleWithState_of_mostRecent {method : Method S W}
    (recent : MostRecent registrations name method) :
    (Router.build registrations).handleWithState state name params world =
      method.handlerFn state params world := by
  rw [Router.handleWithState, handlers_of_mostRecent recent]

/-- A correct dispatch is a reply, whatever was registered. -/
theorem Dispatched.answered {reply : Reply} {after : W}
    (dispatched : Dispatched registrations state name params world reply after) :
    Exists fun result => reply = .returned result := by
  rcases unregistered_or_mostRecent registrations name with never | ⟨method, recent⟩
  · exact ⟨_, (dispatched.unregistered never).1⟩
  · cases decoded : method.deserialize params with
    | none => exact ⟨_, (dispatched.undecodable method recent decoded).1⟩
    | some p =>
        rcases ran : method.func state p world with ⟨outcome, changed⟩
        cases outcome with
        | error error => exact ⟨_, (dispatched.failed method recent p decoded error changed ran).1⟩
        | ok result =>
            cases encoded : method.serialize result with
            | none =>
                rcases dispatched.unrepresentable method recent p decoded result changed ran
                  encoded with ⟨⟨error, replied⟩, _⟩
                exact ⟨_, replied⟩
            | some value =>
                exact ⟨_, (dispatched.succeeded method recent p decoded result changed ran value
                  encoded).1⟩

/-- The router panics on a result that `to_value` cannot represent. -/
theorem handleWithState_panics
    (unrepresentable : ReturnsUnrepresentable registrations state name params world) :
    ((Router.build registrations).handleWithState state name params world).1 = .panicked := by
  rcases unrepresentable with ⟨method, recent, p, decoded, result, ran, encoded⟩
  rw [handleWithState_of_mostRecent recent, Method.handlerFn]
  rcases outcome : method.func state p world with ⟨returned, changed⟩
  rw [outcome] at ran
  subst ran
  simp only [decoded, outcome, encoded]

/-- A request that does not lead to an unrepresentable result is dispatched as
registered: an unknown method, undecodable parameters and the handler's own answer
each get their reply. -/
theorem handleWithState_dispatched
    (representable : ¬ ReturnsUnrepresentable registrations state name params world) :
    Dispatched registrations state name params world
      ((Router.build registrations).handleWithState state name params world).1
      ((Router.build registrations).handleWithState state name params world).2 where
  unregistered never := by
    rw [Router.handleWithState, handlers_of_unregistered never]
    exact ⟨rfl, rfl⟩
  undecodable method recent decoded := by
    rw [handleWithState_of_mostRecent recent, Method.handlerFn, decoded]
    exact ⟨rfl, rfl⟩
  failed method recent p decoded error changed ran := by
    simp only [handleWithState_of_mostRecent recent, Method.handlerFn, decoded, ran, and_self]
  succeeded method recent p decoded result changed ran value encoded := by
    simp only [handleWithState_of_mostRecent recent, Method.handlerFn, decoded, ran, encoded,
      and_self]
  unrepresentable method recent p decoded result changed ran encoded :=
    absurd ⟨method, recent, p, decoded, result, congrArg Prod.fst ran, encoded⟩ representable

private theorem dispatched_iff (registrations : List (String × Method S W)) (state : S)
    (name : String) (params : Value) (world : W) :
    Dispatched registrations state name params world
        ((Router.build registrations).handleWithState state name params world).1
        ((Router.build registrations).handleWithState state name params world).2 ↔
      ¬ ReturnsUnrepresentable registrations state name params world := by
  constructor
  · intro dispatched unrepresentable
    rcases dispatched.answered with ⟨result, replied⟩
    rw [handleWithState_panics unrepresentable] at replied
    cases replied
  · exact handleWithState_dispatched

/-- A request is dispatched correctly exactly if the function does not return
something that has no JSON.  The server of the host adds the plugin to the state
and leaves the rest to its router. -/
theorem dispatched_iff_representable {PluginId : Type}
    (registrations : List (String × Method S W)) (state : S)
    (hosted : List (String × Method (PluginId × S) W)) (plugin : PluginId)
    (name : String) (params : Value) (world : W) :
    (Dispatched registrations state name params world
        ((Router.build registrations).handleWithState state name params world).1
        ((Router.build registrations).handleWithState state name params world).2 ↔
      ¬ ReturnsUnrepresentable registrations state name params world) ∧
    (Dispatched hosted (plugin, state) name params world
        ((HostServer.build state hosted).handle plugin name params world).1
        ((HostServer.build state hosted).handle plugin name params world).2 ↔
      ¬ ReturnsUnrepresentable hosted (plugin, state) name params world) :=
  ⟨dispatched_iff registrations state name params world,
    dispatched_iff hosted (plugin, state) name params world⟩

/-- What a router returns is what its outline for the transport allows. -/
theorem handleWithState_routed {result : Except RpcError Value}
    (replied : ((Router.build registrations).handleWithState state name params world).1 =
      .returned result) :
    Exists fun outcome => result = Rpc.Router.handleWithState
      (fun name => ((Router.build registrations).handlers name).isSome) name outcome := by
  rw [Router.handleWithState] at replied
  unfold Rpc.Router.handleWithState
  cases found : (Router.build registrations).handlers name with
  | none =>
      rw [found] at replied
      cases replied
      exact ⟨.error .methodNotFound, (ite_self _).symm⟩
  | some handler => exact ⟨result, (if_pos (Option.isSome_of_eq_some found)).symm⟩

/-! ## A result without JSON -/

/-- A method without parameters whose result is a map from byte strings.  Keys in
JSON are texts, so `to_value` fails unless the map is empty. -/
def weights : Method Unit Unit where
  P := Unit
  R := List (List UInt8 × UInt64)
  deserialize value :=
    match value.json with
    | .null => some ()
    | _ => none
  serialize
    | [] => some (.ofJson (.obj []))
    | _ :: _ => none
  func _ _ world := (.ok [([1], 2)], world)

/-- A map whose keys are lists has no JSON, and the router panics on it where an error
was due. -/
theorem weights_not_dispatched :
    ¬ Dispatched [("weights", weights)] () "weights" .null ()
      ((Router.build [("weights", weights)]).handleWithState () "weights" .null ()).1
      ((Router.build [("weights", weights)]).handleWithState () "weights" .null ()).2 := by
  intro dispatched
  rcases dispatched.answered with ⟨result, replied⟩
  cases replied

end Server
end Rpc
end WasmiPlugin
