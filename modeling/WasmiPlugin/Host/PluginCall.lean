import WasmiPlugin.Host.RunWasm
import WasmiPlugin.Rpc.Transport

namespace WasmiPlugin
namespace Host

open Foundation Rpc

/-!
# One call of a plugin

`Plugin::call` spawns a guest and joins three futures: the call on a transport
over the guest's stdin and stdout, the guest itself, and the logger of its
stderr.  The join is done when all three are.  Only then does `Plugin::call`
clear the kill flag, which the guest's own future clears as well when it ends.

A step is one of the futures being polled, in any order, or the join seeing the
last of them done.  The transport's reader finds what is in the stdout pipe, and
what the transport writes goes into the stdin pipe.  When the logger's loop ends
is left open, as is everything about the guest.
-/

variable [Wasi.HostTarget]

structure PluginCall where
  rpc : Transport
  guest : PluginInstance
  loggerDone : Bool
  isRunning : Bool
  result : Option (Except RpcError RpcResponse)

inductive PluginAction where
  | call (method : String) (params : Value) (writes : Bool)
  | rpc
  | handlerReturns (result : Except RpcError Value) (writes : Bool)
  | guest (poll : Poll)
  | logger (ends : Bool)
  | join

namespace PluginCall

/-- The call right after `spawn_plugin`: the pipes are in the store, and the call is
task 0 of a transport that has a handler. -/
def spawned (store : Wasi.Caller) (maxFuel : Option Nat) : PluginCall where
  rpc := .new ⟨[], [], false⟩ true
  guest := .spawned store maxFuel
  loggerDone := false
  isRunning := true
  result := none

/-- The result of the transport's call, once its future has resolved. -/
def resolved (call : PluginCall) : Option (Except RpcError RpcResponse) :=
  (call.rpc.task 0).phase.returned

/-- The reader of the transport takes what is in the stdout pipe. -/
def feed (call : PluginCall) : PluginCall :=
  let stdout := call.guest.store.stdout
  { call with
    rpc := { call.rpc with reader := { call.rpc.reader with
      incoming := call.rpc.reader.incoming ++
        if stdout.buf = [] then [] else [Delivery.ofBytes stdout.buf]
      closed := stdout.closed } }
    guest := { call.guest with store := { call.guest.store with
      stdout := { stdout with buf := [] } } } }

/-- What the transport wrote in a step goes into the stdin pipe. -/
def send (call : PluginCall) (text : JsonText) (rpc : Transport) : PluginCall :=
  let bytes := (rpc.written.drop call.rpc.written.length).flatMap (frame text)
  { call with
    rpc := rpc
    guest := { call.guest with store := { call.guest.store with
      stdin := if bytes = [] then call.guest.store.stdin
        else (call.guest.store.stdin.write bytes).2.2 } } }

/-- A step of the transport between the pipes. -/
def rpcStep (call : PluginCall) (text : JsonText) (action : TransportAction) :
    Option PluginCall :=
  (call.feed.rpc.step text action).map (call.feed.send text)

/-- One step of the call. `spawn_wasm` clears the flag when `run_wasm` has ended, and
`Plugin::call` does when everything is done and the call was answered. -/
def step (text : JsonText) (call : PluginCall) : PluginAction -> Option PluginCall
  | .call method params writes => call.rpcStep text (.call 0 method params writes)
  | .rpc => call.rpcStep text (.poll 0)
  | .handlerReturns result writes => call.rpcStep text (.handlerReturns 0 result writes)
  | .guest poll =>
      if call.guest.waiting.isEnded then none
      else
        let guest := call.guest.poll call.isRunning poll
        some { call with
          guest := guest
          isRunning := call.isRunning && !guest.waiting.isEnded }
  | .logger ends =>
      if call.loggerDone then none else some { call with loggerDone := ends }
  | .join =>
      match call.resolved, call.guest.waiting.isEnded, call.loggerDone, call.result with
      | some (.ok response), true, true, none =>
          some { call with isRunning := false, result := some (.ok response) }
      | some (.error error), true, true, none =>
          some { call with result := some (.error error) }
      | _, _, _, _ => none

end PluginCall

/-! ## What happens in a step -/

/-- The guest is given control in this step, to start it or to resume it. -/
def controlling (taken : Transition PluginCall PluginAction) : Bool :=
  match taken.action with
  | .guest poll => taken.before.guest.givesControl poll
  | _ => false

/-- The value of the flag that `run_wasm` loads in this step. -/
def loading (taken : Transition PluginCall PluginAction) : Option Bool :=
  match taken.action with
  | .guest poll => taken.before.guest.loads taken.before.isRunning poll
  | _ => none

def Resolves (taken : Transition PluginCall PluginAction) : Prop :=
  taken.before.resolved = none ∧ taken.after.resolved ≠ none

namespace PluginCall

theorem rpcStep_frame {text : JsonText} {before after : PluginCall} {action : TransportAction}
    (stepped : before.rpcStep text action = some after) :
    after.guest.waiting = before.guest.waiting ∧ after.isRunning = before.isRunning ∧
      after.result = before.result ∧
      Exists fun reader => { before.rpc with reader := reader }.step text action =
        some after.rpc := by
  rcases Option.map_eq_some_iff.mp stepped with ⟨rpc, moved, same⟩
  subst same
  exact ⟨rfl, rfl, rfl, _, moved⟩

theorem rpcStep_resolved {text : JsonText} {before after : PluginCall} {action : TransportAction}
    (stepped : before.rpcStep text action = some after) (resolved : before.resolved ≠ none) :
    after.resolved = before.resolved := by
  rcases rpcStep_frame stepped with ⟨_, _, _, reader, moved⟩
  have kept : (after.rpc.task 0).phase = (before.rpc.task 0).phase := by
    unfold PluginCall.resolved at resolved
    apply Transport.step_ended moved
    · intro idle
      dsimp only at idle
      rw [idle] at resolved
      exact resolved rfl
    · dsimp only
      cases place : (before.rpc.task 0).phase with
      | awaitingReader | yielding | handling =>
          rw [place] at resolved
          exact absurd rfl resolved
      | idle | answered | done | failed | dropped => rfl
  unfold PluginCall.resolved
  rw [kept]

/-- What a step can do to the facts that matter here: the call resolves once, the
guest ends once and only when it is given control, and the flag stays set while the
guest has not ended. -/
structure Progress (before : PluginCall) (action : PluginAction) (after : PluginCall) : Prop where
  resolved : before.resolved ≠ none -> after.resolved ≠ none
  ended : before.guest.waiting.isEnded = true -> after.guest.waiting.isEnded = true
  apart : Resolves ⟨before, action, after⟩ -> after.guest.waiting = before.guest.waiting
  ends : before.guest.waiting.isEnded = false -> after.guest.waiting.isEnded = true ->
    controlling ⟨before, action, after⟩ = true
  running : (before.guest.waiting.isEnded = false -> before.isRunning = true) ->
    after.guest.waiting.isEnded = false -> after.isRunning = true
  joined : before.result = none -> after.result ≠ none -> before.guest.waiting.isEnded = true

private theorem Progress.of_frame {before after : PluginCall} {action : PluginAction}
    (resolved : before.resolved ≠ none -> after.resolved ≠ none)
    (waiting : after.guest.waiting = before.guest.waiting)
    (running : after.isRunning = before.isRunning) (result : after.result = before.result) :
    Progress before action after where
  resolved := resolved
  ended := fun ended => waiting ▸ ended
  apart := fun _ => waiting
  ends := by
    intro waits ends
    rw [waiting, waits] at ends
    cases ends
  running := by
    intro flag waits
    rw [running]
    exact flag (waiting ▸ waits)
  joined := by
    intro fresh joined
    rw [result] at joined
    exact absurd fresh joined

private theorem Progress.of_ended {before after : PluginCall} {action : PluginAction}
    (ended : before.guest.waiting.isEnded = true) (guest : after.guest = before.guest)
    (rpc : after.rpc = before.rpc) : Progress before action after := by
  have same : after.resolved = before.resolved := by
    rw [PluginCall.resolved, rpc, PluginCall.resolved]
  refine ⟨fun resolves => same ▸ resolves, fun _ => guest ▸ ended, fun _ => by rw [guest],
    fun waits _ => ?_, fun _ waits => ?_, fun _ _ => ended⟩
  · rw [ended] at waits
    cases waits
  · rw [guest, ended] at waits
    cases waits

private theorem Progress.of_rpcStep (text : JsonText) {before after : PluginCall}
    (action : TransportAction) (stepped : before.rpcStep text action = some after)
    (taken : PluginAction) : Progress before taken after := by
  rcases rpcStep_frame stepped with ⟨waiting, running, result, _⟩
  refine .of_frame (fun resolved => ?_) waiting running result
  rw [rpcStep_resolved stepped resolved]
  exact resolved

theorem step_progress {text : JsonText} {before after : PluginCall} {action : PluginAction}
    (stepped : before.step text action = some after) : Progress before action after := by
  cases action with
  | call method params writes =>
      exact .of_rpcStep text (.call 0 method params writes) stepped _
  | rpc => exact .of_rpcStep text (.poll 0) stepped _
  | handlerReturns result writes =>
      exact .of_rpcStep text (.handlerReturns 0 result writes) stepped _
  | guest poll =>
      simp only [step] at stepped
      split at stepped
      · cases stepped
      · next waits =>
          cases stepped
          constructor
          · exact id
          · exact fun ended => absurd ended waits
          · intro resolves
            exact absurd resolves.1 resolves.2
          · intro _ ends
            exact PluginInstance.ends_after_control (Bool.eq_false_iff.mpr waits) ends
          · intro flag running
            have before := flag (Bool.eq_false_iff.mpr waits)
            simp only [before, Bool.true_and, Bool.not_eq_true'] at running ⊢
            exact running
          · exact fun fresh joined => absurd fresh joined
  | logger ends =>
      simp only [step] at stepped
      split at stepped
      · cases stepped
      · cases stepped
        exact .of_frame id rfl rfl rfl
  | join =>
      simp only [step] at stepped
      split at stepped
      · next response resolved ended done fresh =>
          cases stepped
          exact .of_ended ended rfl rfl
      · next error resolved ended done fresh =>
          cases stepped
          exact .of_ended ended rfl rfl
      · cases stepped

end PluginCall

end Host
end WasmiPlugin
