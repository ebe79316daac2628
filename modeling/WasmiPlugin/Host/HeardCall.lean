import WasmiPlugin.Host.JoinedCall
import WasmiPlugin.Rpc.ServerRun
import WasmiPlugin.Wasi.Inputs

namespace WasmiPlugin
namespace Host

open Foundation Rpc Wasi

/-!
# What the guest of a call hears

What the transport of `Plugin::call` writes goes into the stdin pipe of the guest.
From there it comes in pieces: `stdin_available` moves some into the reader on the
host's side while the guest waits, and `fd_read` takes some out of the reader or of
the pipe.  Whatever the polls look like, the guest hears what was written, in order,
and until it ends nothing of it is lost.
-/

section Target

variable [HostTarget]

section Heard

variable (text : JsonText) (method : String) (params : Value)

/-- The guest as it is when its future is polled in a round, which is after the
transport's call was polled. -/
def JoinedCall.polledGuest (state : JoinedCall) (round : Round) : PluginInstance :=
  (state.afterRpc text method params round).call.guest

/-- The bytes that a guest hears in a poll: none, unless it is given control. -/
def PluginInstance.Hears (guest : PluginInstance) (poll : Poll) (heard : List UInt8) : Prop :=
  if guest.givesControl poll then
    Wasi.Hears guest.givenStore heard (poll.slice guest.givenStore).1
  else heard = []

/-- In this round the guest reads exactly these bytes from its stdin. -/
def GuestHears (heard : List UInt8) (taken : Transition JoinedCall Round) : Prop :=
  (taken.before.polledGuest text method params taken.action).Hears taken.action.guest heard

end Heard

/-! ## One poll of the guest -/

namespace PluginInstance

/-- The guest has an open stdin, and the reader and the pipe together still hold
exactly these bytes for it. -/
def Expects (guest : PluginInstance) (stream : List UInt8) : Prop :=
  guest.store.ctx.stdinReader ≠ none ∧ unread guest.store = stream

theorem awaitStdin_expects {guest : PluginInstance} {stream : List UInt8}
    (expects : guest.Expects stream) : guest.awaitStdin.Expects stream := by
  unfold awaitStdin
  split
  · rcases stdinAvailable_stream guest.store expects.1 with ⟨opened, same⟩
    exact ⟨opened, same.trans expects.2⟩
  · exact expects

theorem awaitDeadline_expects {guest : PluginInstance} {stream : List UInt8}
    (expects : guest.Expects stream) (now : Nat) : (guest.awaitDeadline now).Expects stream := by
  unfold awaitDeadline
  split
  · split
    · exact expects
    · exact awaitStdin_expects expects
  · exact awaitStdin_expects expects

/-- After a slice the guest still expects what it has not heard in it, unless the
slice ended the guest. -/
theorem run_expects {guest : PluginInstance} {poll : Poll} {heard stream : List UInt8}
    (expects : guest.Expects stream)
    (hears : Wasi.Hears guest.store heard (poll.slice guest.store).1) (isRunning : Bool)
    (failure : RunError) : Exists fun rest => stream = heard ++ rest ∧
      ((guest.run isRunning poll failure).waiting.isEnded = false ->
        (guest.run isRunning poll failure).Expects rest) := by
  rcases hears.stream expects.1 with ⟨opened, taken⟩
  refine ⟨unread (poll.slice guest.store).1, by rw [taken, expects.2], ?_⟩
  unfold run
  rcases slice : poll.slice guest.store with ⟨store, result⟩
  rw [slice] at opened
  intro goes
  cases result with
  | error _ => cases goes
  | ok resumable =>
      cases resumable with
      | finished | hostTrap => cases goes
      | outOfFuel requiredFuel =>
          dsimp only [dispatch] at goes ⊢
          split at goes
          · next running =>
              rw [if_pos running]
              exact awaitDeadline_expects ⟨opened, rfl⟩ poll.now
          · cases goes

theorem poll_expects {guest : PluginInstance} {poll : Poll} {heard stream : List UInt8}
    (expects : guest.Expects stream) (hears : guest.Hears poll heard) (isRunning : Bool) :
    Exists fun rest => stream = heard ++ rest ∧
      ((guest.poll isRunning poll).waiting.isEnded = false ->
        (guest.poll isRunning poll).Expects rest) := by
  cases control : guest.givesControl poll with
  | true =>
      rw [Hears, if_pos control] at hears
      rcases poll_control control isRunning with ⟨failure, _, same⟩
      rw [same]
      refine run_expects ?_ hears isRunning failure
      unfold givenStore
      split <;> exact expects
  | false =>
      rw [Hears, control, if_neg Bool.false_ne_true] at hears
      refine ⟨stream, by rw [hears, List.nil_append], fun goes => ?_⟩
      unfold PluginInstance.poll at goes ⊢
      unfold givesControl at control
      split
      · next place =>
          rw [place] at control
          cases control
      · split
        · exact awaitStdin_expects expects
        · exact expects
      · split <;> exact expects
      · next place =>
          rw [place] at control
          dsimp only at control
          rw [control, if_neg Bool.false_ne_true]
          exact expects
      · exact expects

end PluginInstance

/-! ## The call -/

/-- What the guest has heard is the front of what the call has written, and while the
guest goes on, the rest is still to come. -/
structure Listens (text : JsonText) (heard : List UInt8) (call : PluginCall) : Prop where
  front : heard <+: call.rpc.written.flatMap (frame text)
  goesOn : call.guest.waiting.isEnded = false -> Exists fun rest =>
    call.rpc.written.flatMap (frame text) = heard ++ rest ∧ call.guest.Expects rest

namespace Listens

variable {text : JsonText} {method : String} {params : Value} {heard : List UInt8}

theorem spawned (memory : GuestMemory) (maxFuel : Option Nat) :
    Listens text [] (.spawned { pluginStore with memory := memory } maxFuel) :=
  ⟨List.nil_prefix, fun _ => ⟨[], rfl, Option.some_ne_none _, rfl⟩⟩

theorem congr {before after : PluginCall} (listens : Listens text heard before)
    (written : after.rpc.written = before.rpc.written)
    (waiting : after.guest.waiting = before.guest.waiting)
    (stdin : SameStdin before.guest.store after.guest.store) : Listens text heard after := by
  constructor
  · rw [written]
    exact listens.front
  · intro goes
    rcases listens.goesOn (waiting ▸ goes) with ⟨rest, shape, opened, same⟩
    refine ⟨rest, by rw [written, shape], ?_, stdin.unread.trans same⟩
    rw [stdin.reader]
    exact opened

/-- The transport's messages go to the end of what the guest still expects. -/
theorem rpcStep {before after : PluginCall} {action : TransportAction}
    (listens : Listens text heard before) (stepped : before.rpcStep text action = some after) :
    Listens text heard after := by
  rcases Option.map_eq_some_iff.mp stepped with ⟨rpc, moved, rfl⟩
  have told := Transport.step_wrote moved
  have wrote : rpc.written =
      before.rpc.written ++ rpc.written.drop before.rpc.written.length := told
  have sent : forall bytes : List UInt8,
      (if bytes = [] then before.guest.store.stdin
        else (before.guest.store.stdin.write bytes).2.2).buf =
        before.guest.store.stdin.buf ++ bytes := by
    intro bytes
    split
    · next none => rw [none, List.append_nil]
    · rfl
  constructor
  · dsimp only [PluginCall.send]
    rw [wrote, List.flatMap_append]
    exact listens.front.trans (List.prefix_append _ _)
  · intro goes
    rcases listens.goesOn goes with ⟨rest, shape, opened, same⟩
    refine ⟨rest ++ (rpc.written.drop before.rpc.written.length).flatMap (frame text), ?_,
      opened, ?_⟩
    · dsimp only [PluginCall.send]
      rw [← List.append_assoc, ← shape, ← List.flatMap_append, ← wrote]
    · rw [← same, unread, unread, List.append_assoc]
      exact congrArg (List.append _) (sent _)

theorem guestStep {call : PluginCall} {poll : Poll} {more : List UInt8}
    (listens : Listens text heard call) (hears : call.guest.Hears poll more) :
    Listens text (heard ++ more) ((call.step text (.guest poll)).getD call) := by
  simp only [PluginCall.step]
  cases ended : call.guest.waiting.isEnded with
  | true =>
      have none : more = [] := by
        rw [PluginInstance.Hears, (PluginInstance.ended_quiet ended true poll).1,
          if_neg Bool.false_ne_true] at hears
        exact hears
      rw [if_pos rfl, none, List.append_nil]
      exact listens
  | false =>
      rw [if_neg Bool.false_ne_true]
      rcases listens.goesOn ended with ⟨stream, shape, expects⟩
      rcases PluginInstance.poll_expects expects hears call.isRunning with ⟨rest, taken, later⟩
      have whole : call.rpc.written.flatMap (frame text) = heard ++ more ++ rest := by
        rw [shape, taken, List.append_assoc]
      exact ⟨whole ▸ List.prefix_append _ _, fun goes => ⟨rest, whole, later goes⟩⟩

theorem roundEnds {state next : JoinedCall} {round : Round}
    (listens : Listens text heard (state.afterGuest text method params round).call)
    (stepped : state.step text method params round = some next) :
    Listens text heard next.call := by
  have ends := JoinedCall.step_frame stepped
  refine listens.congr (congrArg Transport.written ends.rpc) ends.waiting ?_
  have fresh := JoinedCall.step_fresh stepped
  unfold JoinedCall.step at stepped
  rw [fresh] at stepped
  cases stepped
  have joined :=
    ((state.afterGuest text method params round).pollLogger round.waker).call.joined text
  dsimp only [JoinedCall.poll]
  rw [joined.guest]
  unfold JoinedCall.pollLogger
  split <;> exact ⟨rfl, rfl⟩

theorem round {state next : JoinedCall} {round : Round} {more : List UInt8}
    (listens : Listens text heard state.call)
    (hears : GuestHears text method params more ⟨state, round, next⟩)
    (stepped : state.step text method params round = some next) :
    Listens text (heard ++ more) next.call := by
  have polled : Listens text heard (state.afterRpc text method params round).call :=
    PluginCall.pollRpc_keeps (fun call _ => Listens text heard call)
      (fun _ _ _ listens stepped => listens.rpcStep stepped)
      (fun _ _ _ listens stepped => listens.rpcStep stepped)
      (fun _ _ _ _ listens stepped => listens.rpcStep stepped) round listens
  exact (polled.guestStep hears).roundEnds stepped

end Listens

variable {text : JsonText} {method : String} {params : Value} {memory : GuestMemory}
  {maxFuel : Option Nat} {history : List (Transition JoinedCall Round)} {final : JoinedCall}
  {heard : Transition JoinedCall Round -> List UInt8}

theorem listens_run
    (run : Run (JoinedCall.step text method params) (.spawned memory maxFuel) history final)
    (hears : forall taken, taken ∈ history -> GuestHears text method params (heard taken) taken) :
    Listens text (history.flatMap heard) final.call := by
  refine (run.throughout (fun history state => Listens text (history.flatMap heard) state.call)
    (fun taken => GuestHears text method params (heard taken) taken) (.spawned memory maxFuel)
    hears ?_).1
  intro earlier state round next listens stepped hears
  rw [List.flatMap_append, List.flatMap_singleton]
  exact listens.round hears stepped

/-- In every run of polls a guest that does not close its stdin hears the front of
what the transport has written, and as long as it has not ended, the rest is in the
reader and in the pipe. Nothing on the way is lost, repeated or reordered. -/
theorem joined_stdin_is_intact
    (run : Run (JoinedCall.step text method params) (.spawned memory maxFuel) history final)
    (hears : forall taken, taken ∈ history -> GuestHears text method params (heard taken) taken) :
    history.flatMap heard <+: final.call.rpc.written.flatMap (frame text) ∧
      (final.call.guest.waiting.isEnded = false ->
        history.flatMap heard ++ unread final.call.guest.store =
          final.call.rpc.written.flatMap (frame text)) := by
  have listens := listens_run run hears
  refine ⟨listens.front, fun goes => ?_⟩
  rcases listens.goesOn goes with ⟨rest, shape, expects⟩
  rw [expects.2, shape]

end Target

/-! ### A guest that listens -/

/-- A memory with a buffer of 128 bytes at the address 128, and the record that
describes it at the address 0. -/
def listeningMemory : GuestMemory :=
  onePage fun address => [32, 0, 0, 0, 128].getD address 0

/-- The store after the guest has read what there is into the buffer of
`listeningMemory`. -/
def listening (store : Caller) : Caller :=
  ((HostCall.fdRead 0 0 1 8).perform ⟨none, 0, none⟩ { store with memory := listeningMemory }).2

def heardBy (store : Caller) : List UInt8 :=
  reported ⟨none, 0, none⟩
    ⟨{ store with memory := listeningMemory }, .fdRead 0 1 8, listening store⟩

/-- A slice in which the guest reads its stdin, writes some text to its stdout and
gives control back. -/
def repliesWith (text : List UInt8) (resumable : ResumableCall) : Poll where
  ready := true
  now := 0
  slice := fun store => (tells 1 text resumable).slice (listening store)

theorem listening_single : buffersAt listeningMemory (asUsize 0) (turns 1) = [⟨32, 128⟩] := by
  decide

theorem listening_placed (before after : Caller) (same : before.memory = listeningMemory) :
    WellPlaced ⟨before, .fdRead 0 1 8, after⟩ := by
  unfold WellPlaced
  dsimp only
  rw [same, listening_single]
  refine ⟨⟨?_, ?_, ?_, ?_⟩, ?_, ?_⟩
  all_goals try rw [listening_single]
  all_goals decide

theorem listening_hears (store : Caller) :
    Wasi.Hears store (heardBy store) (listening store) := by
  have start : Wasi.Hears store [] { store with memory := listeningMemory } :=
    .computes listeningMemory store.fuel .idles
  have stepped : stdinStep ⟨none, 0, none⟩ { store with memory := listeningMemory }
      (.fdRead 0 1 8) = some (listening store) := rfl
  have read := start.reads ⟨none, 0, none⟩ stepped (listening_placed _ _ rfl)
    (not_starvesMidway listening_single)
  rw [List.nil_append] at read
  unfold heardBy
  exact read

theorem listening_controls (store : Caller) : Controls store (listening store) :=
  .calls _ (.fdRead 0 0 1 8) (.computes listeningMemory store.fuel .idles)

theorem tells_hears (fd : Int32) (text : List UInt8) (resumable : ResumableCall)
    {given store : Caller} {heard : List UInt8} (hears : Wasi.Hears given heard store) :
    Wasi.Hears given heard ((tells fd text resumable).slice store).1 := by
  dsimp only [tells]
  exact .calls _ (.fdWrite fd 0 1 8) rfl (.computes _ store.fuel hears)

theorem repliesWith_controls (text : List UInt8) (resumable : ResumableCall) (store : Caller) :
    Controls store ((repliesWith text resumable).slice store).1 := by
  dsimp only [repliesWith]
  exact tells_after 1 text resumable (listening_controls store)

theorem repliesWith_hears (text : List UInt8) (resumable : ResumableCall) (store : Caller) :
    Wasi.Hears store (heardBy store) ((repliesWith text resumable).slice store).1 := by
  dsimp only [repliesWith]
  exact tells_hears 1 text resumable (listening_hears store)

/-- The bytes that a guest of the kind `repliesWith` hears in a round. -/
def heardIn (text : JsonText) (method : String) (params : Value)
    (taken : Transition JoinedCall Round) : List UInt8 :=
  let guest := taken.before.polledGuest text method params taken.action
  if guest.givesControl taken.action.guest then heardBy guest.givenStore else []

theorem repliesWith_heard {taken : Transition JoinedCall Round} {told : List UInt8}
    {resumable : ResumableCall} (listens : taken.action.guest = repliesWith told resumable) :
    GuestHears text method params (heardIn text method params taken) taken := by
  rw [GuestHears, PluginInstance.Hears, heardIn]
  cases (taken.before.polledGuest text method params taken.action).givesControl
    taken.action.guest with
  | true =>
      rw [if_pos rfl, if_pos rfl, listens]
      exact repliesWith_hears told resumable _
  | false => rfl

/-- The round in which the guest reads the request of the call and ends without an
answer. -/
def reading : List Round :=
  [⟨false, [], repliesWith [] (.outOfFuel 1), 0⟩, ⟨true, [], repliesWith [] .finished, 0⟩]

theorem reading_enabled : (Run.play (JoinedCall.step quoteText "quote" (.bool true))
    (.spawned pluginStore.memory none) reading).isSome := by
  decide

/-- A guest that only reads has heard the whole request of the call. -/
theorem reading_is_intact :
    let played := (Run.play (JoinedCall.step quoteText "quote" (.bool true))
      (.spawned pluginStore.memory none) reading).get reading_enabled
    let heard := played.1.flatMap (heardIn quoteText "quote" (.bool true))
    heard <+: played.2.call.rpc.written.flatMap (frame quoteText) ∧
      (played.2.call.guest.waiting.isEnded = false ->
        heard ++ unread played.2.call.guest.store =
          played.2.call.rpc.written.flatMap (frame quoteText)) := by
  refine joined_stdin_is_intact (Run.of_enabled reading reading_enabled) fun taken member => ?_
  have listed := Run.play_listed member
  simp only [reading, List.mem_cons, List.not_mem_nil, or_false] at listed
  rcases listed with first | second
  · exact repliesWith_heard (congrArg Round.guest first)
  · exact repliesWith_heard (congrArg Round.guest second)

end Host
end WasmiPlugin
