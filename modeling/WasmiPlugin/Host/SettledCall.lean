import WasmiPlugin.Host.JoinedCall

namespace WasmiPlugin
namespace Host

open Foundation Lines Rpc Wasi

/-!
# What a call of a plugin comes to

In the end a call of a plugin is two texts: what the guest told on its stdout, and
what the handlers returned.  `settle` makes the replies and the result of them.  How
the guest cut its text, which poll found it, how often the transport yielded and
when a handler was ready leave no trace in either.

The transport is behind the guest by what is in the stdout pipe.  The invariant says
that it is on its course in what it was fed, and that the rest is in the pipe.
-/

/-- The handlers' results as the transport meets them. Each comes with a reply that
could be written, because the stdin pipe takes everything. -/
def reactionsTo (results : List (Except RpcError Value)) : List Reaction :=
  results.map fun result => (result, true)

section Target

variable [HostTarget]

/-- The transport has been fed what the guest told, up to what is still in the pipe. -/
structure Talks (text : JsonText) (method : String) (params : Value) (told : List UInt8)
    (results : List (Except RpcError Value)) (call : PluginCall) : Prop where
  valid : Utf8.Valid call.guest.store.stdout.buf
  closed : call.rpc.reader.closed = true ->
    call.guest.store.stdout.closed = true ∧ call.guest.store.stdout.buf = []
  ends : call.guest.store.stdout.closed = true -> EndsLine told
  underway : Exists fun fed => Exists fun begins =>
    told = fed ++ call.guest.store.stdout.buf ∧
      (forall begun, begun ∈ begins -> begun = (method, params)) ∧
      Underway text true 0 begins fed (reactionsTo results) call.rpc

variable {text : JsonText} {method : String} {params : Value} {told : List UInt8}
  {results : List (Except RpcError Value)}

/-! ## The transport's call -/

theorem Talks.feed {call : PluginCall} (talks : Talks text method params told results call) :
    Exists fun begins => (forall begun, begun ∈ begins -> begun = (method, params)) ∧
      Underway text true 0 begins told (reactionsTo results) call.feed.rpc := by
  rcases talks.underway with ⟨fed, begins, shape, own, underway⟩
  have whole := underway.whole
  have ends := talks.ends
  refine ⟨begins, own, ?_⟩
  rw [shape] at ends ⊢
  refine underway.feed ⟨whole.buffered, fun delivery listed => ?_, fun listed => ?_⟩
    call.feed_ahead talks.closed ends
  · rcases List.mem_append.mp listed with before | last
    · exact whole.incoming delivery before
    · rw [(PluginCall.found_piece last).1]
      exact talks.valid
  · rcases List.mem_append.mp listed with before | last
    · exact whole.sound before
    · exact (PluginCall.found_piece last).2.1 rfl

private theorem Talks.rpcStep {call next : PluginCall} {action : TransportAction}
    (talks : Talks text method params told results call)
    (returned : List (Except RpcError Value))
    (stepped : call.rpcStep text action = some next)
    (unaided : Unaided 0 ⟨call.feed.rpc, action, next.rpc⟩)
    (silent : arrived ⟨call.feed.rpc, action, next.rpc⟩ = [])
    (piece : WholePiece ⟨call.feed.rpc, action, next.rpc⟩) (other : action ≠ .hangUp)
    (begins : forall begun, placing ⟨call.feed.rpc, action, next.rpc⟩ = some begun ->
      begun = (method, params))
    (reacts : reactionsTo returned = (reacting ⟨call.feed.rpc, action, next.rpc⟩).toList) :
    Talks text method params told (results ++ returned) next := by
  have moved := PluginCall.rpcStep_moved stepped
  have closed : next.rpc.reader.closed = call.guest.store.stdout.closed :=
    step_closed_eq moved.stepped other
  rcases talks.feed with ⟨begun, own, underway⟩
  have after := underway.step moved.stepped unaided piece fun ended => by
    rw [silent, List.append_nil]
    exact talks.ends (closed ▸ ended)
  rw [silent, List.append_nil] at after
  refine ⟨?_, fun ended => ?_, fun ended => ?_, told,
    begun ++ (placing ⟨call.feed.rpc, action, next.rpc⟩).toList, ?_, fun entry listed => ?_, ?_⟩
  · rw [moved.drained]
    exact Utf8.valid_nil
  · rw [moved.drained]
    exact ⟨closed ▸ ended, rfl⟩
  · rw [moved.drained] at ended
    exact talks.ends ended
  · rw [moved.drained]
    exact (List.append_nil told).symm
  · rcases List.mem_append.mp listed with before | last
    · exact own entry before
    · exact begins entry (Option.mem_toList.mp last)
  · rw [reactionsTo, List.map_append, ← reactionsTo, ← reactionsTo, reacts]
    exact after

private theorem Talks.pollRpc {call : PluginCall} (round : Round)
    (talks : Talks text method params told results call) :
    Exists fun used =>
      round.results = used ++ (call.pollRpc text method params round).2 ∧
        Talks text method params told (results ++ used)
          (call.pollRpc text method params round).1 := by
  refine PluginCall.pollRpc_keeps (fun next left => Exists fun used =>
    round.results = used ++ left ∧ Talks text method params told (results ++ used) next)
    ?_ ?_ ?_ round ⟨[], rfl, (List.append_nil results).symm ▸ talks⟩
  · rintro between next left ⟨used, shape, kept⟩ stepped
    refine ⟨used, shape, ?_⟩
    have after := kept.rpcStep [] stepped ⟨rfl, rfl⟩ rfl trivial nofun ?_ rfl
    · rwa [List.append_nil] at after
    · rintro begun same
      cases same
      rfl
  · rintro between next left ⟨used, shape, kept⟩ stepped
    refine ⟨used, shape, ?_⟩
    have after := kept.rpcStep [] stepped rfl rfl trivial nofun nofun rfl
    rwa [List.append_nil] at after
  · rintro between next result left ⟨used, shape, kept⟩ stepped
    refine ⟨used ++ [result], by rw [shape, List.append_assoc]; rfl, ?_⟩
    have after := kept.rpcStep [result] stepped rfl rfl trivial nofun nofun rfl
    rwa [List.append_assoc] at after

/-! ## The guest -/

private theorem Talks.guest {poll : Poll} {before after : PluginCall}
    (talks : Talks text method params told results before)
    (polled : PluginCall.GuestPolled poll before after) {fresh : List UInt8}
    (emits : Emits before.guest.store.stdout after.guest.store.stdout)
    (wrote : fresh = after.guest.store.stdout.buf.drop before.guest.store.stdout.buf.length)
    (valid : Utf8.Valid fresh)
    (ends : after.guest.store.stdout.closed = true -> EndsLine (told ++ fresh)) :
    Talks text method params (told ++ fresh) results after := by
  rcases talks.underway with ⟨fed, begins, shape, own, underway⟩
  have grown : after.guest.store.stdout.buf = before.guest.store.stdout.buf ++ fresh := by
    rw [wrote]
    exact (List.prefix_iff_eq_append.mp emits.appends).symm
  refine ⟨?_, fun closed => ?_, ends, fed, begins, ?_, own, ?_⟩
  · rw [grown]
    exact (Utf8.valid_append_iff talks.valid _).mpr valid
  · rw [polled.rpc] at closed
    rcases talks.closed closed with ⟨ended, empty⟩
    rcases emits.closed ended with ⟨still, same⟩
    exact ⟨still, same.trans empty⟩
  · rw [grown, shape, List.append_assoc]
  · rw [polled.rpc]
    exact underway

private theorem Talks.of_same {before after : PluginCall}
    (talks : Talks text method params told results before) (rpc : after.rpc = before.rpc)
    (stdout : after.guest.store.stdout = before.guest.store.stdout) :
    Talks text method params told results after := by
  rcases talks with ⟨valid, closed, ends, underway⟩
  rw [← rpc, ← stdout] at closed underway
  rw [← stdout] at valid ends
  exact ⟨valid, closed, ends, underway⟩

/-! ## Rounds -/

section Rounds

variable {state next : JoinedCall} {round : Round}

/-- In a round the guest only adds to its stdout, or closes it. -/
private theorem round_emits (attached : Attached state.call.guest.store)
    (controls : GuestControls ⟨state, round, next⟩) :
    Emits (state.afterRpc text method params round).call.guest.store.stdout
      (state.afterGuest text method params round).call.guest.store.stdout := by
  have frame := PluginCall.pollRpc_frame text method params round state.call
  have polled := (state.afterRpc text method params round).call.guest_polled text round.guest
  have between : Attached (state.afterRpc text method params round).call.guest.store := by
    constructor
    · dsimp only [JoinedCall.afterRpc]
      rw [frame.closed, frame.ctx]
      exact attached.stdout
    · dsimp only [JoinedCall.afterRpc]
      rw [frame.stderr, frame.ctx]
      exact attached.stderr
  exact (polled.outputs controls between).2.1

private theorem round_closed (attached : Attached state.call.guest.store)
    (controls : GuestControls ⟨state, round, next⟩)
    (stepped : state.step text method params round = some next)
    (closed : state.call.guest.store.stdout.closed = true) :
    next.call.guest.store.stdout.closed = true ∧
      wroteStdout text method params ⟨state, round, next⟩ = [] := by
  have frame := PluginCall.pollRpc_frame text method params round state.call
  rcases (round_emits attached controls).closed (frame.closed.trans closed) with ⟨still, same⟩
  rw [(JoinedCall.step_frame stepped).stdout]
  refine ⟨still, ?_⟩
  rw [wroteStdout, same, List.drop_length]

/-- One round of a joined call that is on its course keeps it there. -/
private theorem Talks.polled (talks : Talks text method params told results state.call)
    (attached : Attached state.call.guest.store) (controls : GuestControls ⟨state, round, next⟩)
    (valid : Utf8.Valid (wroteStdout text method params ⟨state, round, next⟩))
    (stepped : state.step text method params round = some next)
    (ends : next.call.guest.store.stdout.closed = true ->
      EndsLine (told ++ wroteStdout text method params ⟨state, round, next⟩)) :
    Talks text method params (told ++ wroteStdout text method params ⟨state, round, next⟩)
      (results ++ handlersReturned text method params ⟨state, round, next⟩) next.call := by
  rcases talks.pollRpc round with ⟨used, shape, polled⟩
  have frame := JoinedCall.step_frame stepped
  have returned : handlersReturned text method params ⟨state, round, next⟩ = used := by
    rw [handlersReturned, shape, List.length_append, Nat.add_sub_cancel, List.take_left]
  rw [returned]
  have controlled := (state.afterRpc text method params round).call.guest_polled text round.guest
  rw [frame.stdout] at ends
  exact (polled.guest controlled (round_emits attached controls) rfl valid ends).of_same frame.rpc
    frame.stdout

end Rounds

/-! ## Runs -/

variable {memory : GuestMemory} {maxFuel : Option Nat}
  {history : List (Transition JoinedCall Round)} {final : JoinedCall}

private theorem talks_spawned : Talks text method params [] [] (PluginCall.spawned
    { pluginStore with memory := memory } maxFuel) := by
  refine ⟨Utf8.valid_nil, nofun, nofun, [], [], rfl, ?_, .inl ⟨?_, rfl, rfl⟩⟩
  · exact fun begun listed => absurd listed List.not_mem_nil
  · refine ⟨fun _ => rfl, rfl, fun _ => rfl, rfl, rfl, rfl, ?_, rfl, nofun⟩
    exact ⟨Utf8.valid_nil, fun _ listed => absurd listed List.not_mem_nil, List.not_mem_nil⟩

private theorem talks_run
    (run : Run (JoinedCall.step text method params) (.spawned memory maxFuel) history final)
    (controls : forall taken, taken ∈ history -> GuestControls taken)
    (valid : forall taken, taken ∈ history -> Utf8.Valid (wroteStdout text method params taken))
    (ends : final.call.guest.store.stdout.closed = true ->
      EndsLine (stdoutOf text method params history)) :
    Talks text method params (stdoutOf text method params history)
      (resultsOf text method params history) final.call := by
  induction run with
  | start => exact talks_spawned
  | @extend history before after round run stepped inductionHypothesis =>
      have last : (⟨before, round, after⟩ : Transition JoinedCall Round) ∈
        history ++ [⟨before, round, after⟩] := List.mem_append_right _ List.mem_cons_self
      have earlier : forall taken, taken ∈ history -> taken ∈ history ++ [⟨before, round, after⟩] :=
        fun taken member => List.mem_append_left _ member
      have attached := (JoinedCall.logs_run run fun taken member =>
        controls taken (earlier taken member)).1.attached
      rw [stdoutOf, List.flatMap_append, List.flatMap_singleton, ← stdoutOf] at ends ⊢
      rw [resultsOf, List.flatMap_append, List.flatMap_singleton, ← resultsOf]
      refine (inductionHypothesis (fun taken member => controls taken (earlier taken member))
        (fun taken member => valid taken (earlier taken member)) fun closed => ?_).polled attached
          (controls _ last) (valid _ last) stepped ends
      rcases round_closed attached (controls _ last) stepped closed with ⟨still, none⟩
      rw [none, List.append_nil] at ends
      exact ends still

private theorem result_run
    (run : Run (JoinedCall.step text method params) (.spawned memory maxFuel) history final)
    {result : Except RpcError RpcResponse} (returned : final.call.result = some result) :
    final.call.resolved = some result := by
  cases run with
  | start => cases returned
  | extend run stepped => exact ((JoinedCall.step_result stepped result).mp returned).1

/-- A call that has returned has written all that `settle` says. -/
theorem settles_run
    (run : Run (JoinedCall.step text method params) (.spawned memory maxFuel) history final)
    (controls : forall taken, taken ∈ history -> GuestControls taken)
    (valid : forall taken, taken ∈ history -> Utf8.Valid (wroteStdout text method params taken))
    (ends : final.call.guest.store.stdout.closed = true ->
      EndsLine (stdoutOf text method params history)) {result : Except RpcError RpcResponse}
    (returned : final.call.result = some result) :
    let settled := settle text true 0 true (split (stdoutOf text method params history))
      (reactionsTo (resultsOf text method params history))
    final.call.rpc.written = .rpcRequest ⟨jsonRpcVersion, 0, method, params⟩ :: settled.1 ∧
      settled.2 = .returned result := by
  have talks := talks_run run controls valid ends
  have resolved := result_run run returned
  rcases talks.underway with ⟨fed, begins, shape, own, ⟨uncalled, _⟩ | ⟨_, _, one, lone⟩⟩
  · rw [PluginCall.resolved, uncalled.idle] at resolved
    cases resolved
  · rw [one] at own
    cases own _ (List.mem_singleton_self _)
    rw [shape]
    exact lone.returned resolved fun closed => (talks.closed closed).2

/-- Whatever a run of polls looks like, a call of a plugin writes to the guest what
`settle` makes of the guest's text and of the handlers' results, as far as it has
come, and what it returns in the end is what `settle` says.  The guest tells whole
characters at a time, and does not end within a line. -/
theorem plugin_call_settles
    (run : Run (JoinedCall.step text method params) (.spawned memory maxFuel) history final)
    (controls : forall taken, taken ∈ history -> GuestControls taken)
    (valid : forall taken, taken ∈ history -> Utf8.Valid (wroteStdout text method params taken))
    (ends : final.call.guest.store.stdout.closed = true ->
      EndsLine (stdoutOf text method params history)) {told : List UInt8}
    (tells : told = stdoutOf text method params history) {reactions : List Reaction}
    (reacts : reactions = reactionsTo (resultsOf text method params history)) :
    final.call.rpc.written <+: .rpcRequest ⟨jsonRpcVersion, 0, method, params⟩ ::
        (settle text true 0 final.call.guest.store.stdout.closed (split told) reactions).1 ∧
      forall result, final.call.result = some result ->
        final.call.rpc.written = .rpcRequest ⟨jsonRpcVersion, 0, method, params⟩ ::
          (settle text true 0 true (split told) reactions).1 ∧
        (settle text true 0 true (split told) reactions).2 = .returned result := by
  subst tells
  subst reacts
  refine ⟨?_, fun result returned => settles_run run controls valid ends returned⟩
  have talks := talks_run run controls valid ends
  rcases talks.feed with ⟨begins, own, ⟨uncalled, _⟩ | ⟨_, _, one, lone⟩⟩
  · have none : final.call.rpc.written = [] := uncalled.written
    rw [none]
    exact List.nil_prefix
  · rw [one] at own
    cases own _ (List.mem_singleton_self _)
    exact lone.settled.1

end Target

/-! ### A guest that asks its host -/

/-- The guest asks its host for something, and replies when it has been answered. -/
def asking : List Round :=
  [⟨false, [], tells 1 (Rpc.frame requestText peerRequest) (.outOfFuel 1), 0⟩,
    ⟨true, [.ok .null], tells 1 (Rpc.frame requestText firstReply) .finished, 0⟩,
    ⟨true, [], tells 1 [] .finished, 0⟩]

theorem asking_enabled : (Run.play (JoinedCall.step requestText "get" .null)
    (.spawned pluginStore.memory none) asking).isSome := by
  decide

/-- The call of the asking guest is settled by the two lines that the guest told and
the one answer that it got. -/
theorem asking_settles :
    let played := (Run.play (JoinedCall.step requestText "get" .null)
      (.spawned pluginStore.memory none) asking).get asking_enabled
    played.2.call.rpc.written <+: .rpcRequest ⟨jsonRpcVersion, 0, "get", .null⟩ ::
        (settle requestText true 0 played.2.call.guest.store.stdout.closed
          (split (stdoutOf requestText "get" .null played.1))
          (reactionsTo (resultsOf requestText "get" .null played.1))).1 ∧
      forall result, played.2.call.result = some result ->
        played.2.call.rpc.written = .rpcRequest ⟨jsonRpcVersion, 0, "get", .null⟩ ::
          (settle requestText true 0 true (split (stdoutOf requestText "get" .null played.1))
            (reactionsTo (resultsOf requestText "get" .null played.1))).1 ∧
        (settle requestText true 0 true (split (stdoutOf requestText "get" .null played.1))
          (reactionsTo (resultsOf requestText "get" .null played.1))).2 = .returned result := by
  refine plugin_call_settles (Run.of_enabled asking asking_enabled) (fun taken member => ?_)
    (by decide) (by decide) rfl rfl
  have listed := Run.play_listed member
  simp only [asking, List.mem_cons, List.not_mem_nil, or_false] at listed
  rcases listed with first | second | third
  · rw [GuestControls, first]
    exact tells_controls _ _ _
  · rw [GuestControls, second]
    exact tells_controls _ _ _
  · rw [GuestControls, third]
    exact tells_controls _ _ _

end Host
end WasmiPlugin
