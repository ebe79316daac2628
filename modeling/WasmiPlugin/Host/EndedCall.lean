import WasmiPlugin.Host.JoinedCall

namespace WasmiPlugin
namespace Host

open Foundation Lines Rpc Wasi

/-!
# A call whose guest has ended

The guest decides when it ends.  After that nothing keeps a call of a plugin but what
is left in the stdout pipe and the handlers that are asked for it: the stream of the
transport has an end, the logger is done, and each poll that brings what the call
waits for leaves less to be done.

The count is exact enough to be a bound: three polls for each byte that was not read
yet, and a few more.  The same count bounds the steps of a single poll, so each poll
gives control back.
-/

variable {text : JsonText} {method : String} {params : Value}

section Target

variable [HostTarget]

namespace PluginCall

/-! ## One step of the transport's call -/

private theorem feed_toil (call : PluginCall) : call.feed.rpc.toil 0 = call.backlog := by
  rw [backlog, Transport.toil, Transport.toil, feed_ahead, List.length_append]
  dsimp only [feed]
  omega

private theorem feed_own {call : PluginCall} (own : OwnCall call.rpc 0) :
    OwnCall call.feed.rpc 0 :=
  own.feed (own.piped.arrive (fun _ listed => (found_piece listed).2) _)

private theorem moved_backlog {action : TransportAction} {before after : PluginCall}
    (moved : RpcMoved text action before after) : after.backlog = after.rpc.toil 0 := by
  rw [backlog, moved.drained]
  rfl

private theorem begins_own {call next : PluginCall} (own : OwnCall call.rpc 0)
    (stepped : call.step text (.call method params true) = some next) :
    OwnCall next.rpc 0 ∧ next.backlog < call.backlog := by
  have moved := rpcStep_moved stepped
  rw [moved_backlog moved, ← feed_toil]
  exact (feed_own own).call moved.stepped

private theorem reads_own {call next : PluginCall} (own : OwnCall call.rpc 0)
    (stepped : call.step text .rpc = some next) :
    OwnCall next.rpc 0 ∧ next.backlog ≤ call.backlog ∧
      ((call.rpc.task 0).phase = .awaitingReader ∨ call.guest.store.stdout.closed = true ->
        next.backlog < call.backlog) := by
  have moved := rpcStep_moved stepped
  rw [moved_backlog moved, ← feed_toil]
  exact (feed_own own).poll moved.stepped

private theorem returns_own {call next : PluginCall} (own : OwnCall call.rpc 0)
    {result : Except RpcError Value}
    (stepped : call.step text (.handlerReturns result true) = some next) :
    OwnCall next.rpc 0 ∧ next.backlog < call.backlog := by
  have moved := rpcStep_moved stepped
  rw [moved_backlog moved, ← feed_toil]
  exact (feed_own own).handlerReturns moved.stepped

/-! ## One poll of the transport's call -/

private theorem drive_own (text : JsonText) {call : PluginCall} (own : OwnCall call.rpc 0)
    (fuel : Nat)
    (results : List (Except RpcError Value)) :
    OwnCall (call.drive text fuel results).1.rpc 0 ∧
      (call.drive text fuel results).1.backlog ≤ call.backlog := by
  refine drive_keeps (fun next _ => OwnCall next.rpc 0 ∧ next.backlog ≤ call.backlog) ?_ ?_ fuel
    ⟨own, Nat.le_refl _⟩
  · rintro between next left ⟨own, bound⟩ stepped
    have reads := reads_own own stepped
    exact ⟨reads.1, Nat.le_trans reads.2.1 bound⟩
  · rintro between next result left ⟨own, bound⟩ stepped
    have returns := returns_own own stepped
    exact ⟨returns.1, Nat.le_trans (Nat.le_of_lt returns.2) bound⟩

private theorem rpcStep_some {call : PluginCall} {action : TransportAction}
    (enabled : (call.feed.rpc.step text action).isSome) :
    Exists fun next => call.rpcStep text action = some next := by
  rcases Option.isSome_iff_exists.mp enabled with ⟨rpc, moved⟩
  exact ⟨_, Option.map_eq_some_iff.mpr ⟨rpc, moved, rfl⟩⟩

private theorem reads_some {call : PluginCall} (own : OwnCall call.rpc 0)
    (reading : (call.rpc.task 0).phase.partialLine ≠ none) :
    Exists fun next => call.step text .rpc = some next :=
  rpcStep_some ((feed_own own).polls reading)

private theorem drive_reads {call next : PluginCall}
    (awaiting : (call.rpc.task 0).phase = .awaitingReader)
    (stepped : call.step text .rpc = some next) (fuel : Nat)
    (results : List (Except RpcError Value)) :
    call.drive text (fuel + 1) results = next.drive text fuel results := by
  simp only [drive, awaiting, stepped]

private theorem drive_returns {call next : PluginCall} {request : RpcRequest}
    (handling : (call.rpc.task 0).phase = .handling request) {result : Except RpcError Value}
    (stepped : call.step text (.handlerReturns result true) = some next) (fuel : Nat)
    (later : List (Except RpcError Value)) :
    call.drive text (fuel + 1) (result :: later) = next.drive text fuel later := by
  simp only [drive, handling, stepped]

private theorem drive_on {call : PluginCall} (own : OwnCall call.rpc 0)
    {results : List (Except RpcError Value)}
    (goes : (call.rpc.task 0).phase = .awaitingReader ∨
      (Exists fun request => (call.rpc.task 0).phase = .handling request) ∧ results ≠ []) :
    (call.drive text call.backlog results).1.backlog < call.backlog := by
  have whole : call.backlog = call.rpc.toil 0 + 3 * call.guest.store.stdout.buf.length := rfl
  have toil : call.rpc.toil 0 = 3 * call.rpc.reader.ahead.length +
    (call.rpc.task 0).phase.toil := rfl
  rcases goes with awaiting | ⟨⟨request, handling⟩, any⟩
  · rw [awaiting, Phase.toil] at toil
    rcases Nat.exists_eq_succ_of_ne_zero (show call.backlog ≠ 0 by omega) with ⟨fuel, enough⟩
    have stepping : Exists fun next => call.step text .rpc = some next :=
      reads_some own (by rw [awaiting]; exact Option.some_ne_none _)
    rcases stepping with ⟨next, stepped⟩
    have reads := reads_own own stepped
    have driven := drive_own text reads.1 fuel results
    rw [enough, Nat.succ_eq_add_one, drive_reads awaiting stepped, ← Nat.succ_eq_add_one, ← enough]
    exact Nat.lt_of_le_of_lt driven.2 (reads.2.2 (.inl awaiting))
  · rw [handling, Phase.toil] at toil
    rcases Nat.exists_eq_succ_of_ne_zero (show call.backlog ≠ 0 by omega) with ⟨fuel, enough⟩
    rcases List.exists_cons_of_ne_nil any with ⟨result, later, rfl⟩
    have asked : (call.feed.rpc.task 0).phase = .handling request := handling
    have stepping : Exists fun next => call.step text (.handlerReturns result true) = some next :=
      rpcStep_some (by simp only [Transport.step, asked, if_true, Option.isSome_some])
    rcases stepping with ⟨next, stepped⟩
    have returns := returns_own own stepped
    have driven := drive_own text returns.1 fuel later
    rw [enough, Nat.succ_eq_add_one, drive_returns handling stepped, ← Nat.succ_eq_add_one,
      ← enough]
    exact Nat.lt_of_le_of_lt driven.2 returns.2

/-- A poll runs until the call yields, asks for a result that is not there, or has
returned: it is never cut short. The steps that the unread bytes allow are always
enough. -/
theorem drive_suspends {call : PluginCall} (own : OwnCall call.rpc 0) {fuel : Nat}
    (enough : call.backlog ≤ fuel) (results : List (Except RpcError Value)) :
    ((call.drive text fuel results).1.rpc.task 0).phase ≠ .awaitingReader ∧
      forall request, ((call.drive text fuel results).1.rpc.task 0).phase = .handling request ->
        (call.drive text fuel results).2 = [] := by
  induction fuel generalizing call results with
  | zero =>
      have none : (call.rpc.task 0).phase.toil = 0 :=
        (Nat.add_eq_zero_iff.mp (Nat.add_eq_zero_iff.mp (Nat.le_zero.mp enough)).1).2
      refine ⟨fun awaiting => ?_, fun request handling => ?_⟩
      · rw [drive] at awaiting
        rw [awaiting] at none
        cases none
      · rw [drive] at handling
        rw [handling] at none
        cases none
  | succ fuel inductionHypothesis =>
      cases place : (call.rpc.task 0).phase with
      | awaitingReader =>
          have stepping : Exists fun next => call.step text .rpc = some next :=
            reads_some own (by rw [place]; exact Option.some_ne_none _)
          rcases stepping with ⟨next, stepped⟩
          have reads := reads_own own stepped
          have fewer := reads.2.2 (.inl place)
          rw [drive_reads place stepped]
          exact inductionHypothesis reads.1 (by omega) results
      | handling request =>
          cases results with
          | nil =>
              simp only [drive, place]
              exact ⟨Phase.noConfusion, fun _ _ => trivial⟩
          | cons result later =>
              have asked : (call.feed.rpc.task 0).phase = .handling request := place
              have stepping :
                  Exists fun next => call.step text (.handlerReturns result true) = some next :=
                rpcStep_some (by simp only [Transport.step, asked, if_true, Option.isSome_some])
              rcases stepping with ⟨next, stepped⟩
              have returns := returns_own own stepped
              rw [drive_returns place stepped]
              exact inductionHypothesis returns.1 (by omega) later
      | idle | yielding | answered | done | failed | dropped =>
          simp only [drive, place]
          exact ⟨Phase.noConfusion, fun _ => Phase.noConfusion⟩

private theorem wakeRpc_own {call : PluginCall} (own : OwnCall call.rpc 0) (yielded : Bool) :
    OwnCall (call.wakeRpc text method params yielded).rpc 0 := by
  have kept {action : PluginAction} (stepped : forall next, call.step text action = some next ->
      OwnCall next.rpc 0) : OwnCall ((call.step text action).getD call).rpc 0 := by
    cases moved : call.step text action with
    | none => exact own
    | some next => exact stepped next moved
  unfold wakeRpc
  split
  · exact kept fun next moved => (begins_own own moved).1
  · split
    · exact kept fun next moved => (reads_own own moved).1
    · exact own
  · exact own

private theorem pollRpc_own {call : PluginCall} (own : OwnCall call.rpc 0) (round : Round) :
    OwnCall (call.pollRpc text method params round).1.rpc 0 ∧
      (call.pollRpc text method params round).1.backlog ≤ call.backlog := by
  refine pollRpc_keeps (fun next _ => OwnCall next.rpc 0 ∧ next.backlog ≤ call.backlog) ?_ ?_ ?_
    round ⟨own, Nat.le_refl _⟩
  · rintro between next left ⟨own, bound⟩ stepped
    have begins := begins_own own stepped
    exact ⟨begins.1, Nat.le_trans (Nat.le_of_lt begins.2) bound⟩
  · rintro between next left ⟨own, bound⟩ stepped
    have reads := reads_own own stepped
    exact ⟨reads.1, Nat.le_trans reads.2.1 bound⟩
  · rintro between next result left ⟨own, bound⟩ stepped
    have returns := returns_own own stepped
    exact ⟨returns.1, Nat.le_trans (Nat.le_of_lt returns.2) bound⟩

end PluginCall

/-- The poll brings what the transport's call waits for, if it waits for something. -/
def Prompt (taken : Transition JoinedCall Round) : Bool :=
  match (taken.before.call.rpc.task 0).phase with
  | .yielding _ => taken.action.yielded
  | .handling _ => !taken.action.results.isEmpty
  | _ => true

/-- When the guest has dropped its stdout, a prompt poll of a call that has not
returned leaves strictly less in its backlog. -/
private theorem pollRpc_on {state next : JoinedCall} {round : Round}
    (own : OwnCall state.call.rpc 0) (closed : state.call.guest.store.stdout.closed = true)
    (going : state.call.resolved = none) (prompt : Prompt ⟨state, round, next⟩ = true) :
    (state.call.pollRpc text method params round).1.backlog < state.call.backlog := by
  unfold Prompt at prompt
  unfold PluginCall.resolved at going
  unfold PluginCall.pollRpc PluginCall.wakeRpc
  cases place : (state.call.rpc.task 0).phase with
  | idle =>
      have fresh : (state.call.feed.rpc.task 0).phase = .idle := place
      have stepping : Exists fun woken =>
          state.call.step text (.call method params true) = some woken :=
        PluginCall.rpcStep_some (by simp only [Transport.step, fresh, if_true, Option.isSome_some])
      rcases stepping with ⟨woken, stepped⟩
      have begins := PluginCall.begins_own own stepped
      dsimp only
      rw [stepped, Option.getD_some]
      exact Nat.lt_of_le_of_lt (PluginCall.drive_own text begins.1 _ _).2 begins.2
  | awaitingReader => exact PluginCall.drive_on own (.inl place)
  | yielding line =>
      rw [place] at prompt
      have stepping : Exists fun woken => state.call.step text .rpc = some woken :=
        PluginCall.reads_some own (by rw [place]; exact Option.some_ne_none _)
      rcases stepping with ⟨woken, stepped⟩
      have reads := PluginCall.reads_own own stepped
      dsimp only
      rw [if_pos prompt, stepped, Option.getD_some]
      exact Nat.lt_of_le_of_lt (PluginCall.drive_own text reads.1 _ _).2 (reads.2.2 (.inr closed))
  | handling request =>
      rw [place] at prompt
      refine PluginCall.drive_on own (.inr ⟨⟨request, place⟩, fun none => ?_⟩)
      rw [none] at prompt
      cases prompt
  | answered | failed =>
      rw [place] at going
      cases going
  | done | dropped =>
      rcases own.place with idle | stands
      · rw [place] at idle
        cases idle
      · rw [place] at stands
        exact absurd rfl stands

/-! ## The end of a call -/

/-- The guest has ended, so nothing changes any more but the transport's call and its
pipes. -/
structure GuestGone (state : JoinedCall) : Prop where
  own : OwnCall state.call.rpc 0
  ended : state.call.guest.waiting.isEnded = true
  done : state.call.loggerDone = true
  closed : state.call.guest.store.stdout.closed = true
  going : state.call.result = none -> state.call.resolved = none

private theorem GuestGone.round {state next : JoinedCall} {taken : Round} (gone : GuestGone state)
    (stepped : state.step text method params taken = some next) :
    GuestGone next ∧ next.call.backlog ≤ state.call.backlog ∧
      (Prompt ⟨state, taken, next⟩ = true -> next.call.backlog < state.call.backlog) := by
  have fresh := JoinedCall.step_fresh stepped
  have frame := PluginCall.pollRpc_frame text method params taken state.call
  -- The guest is not polled any more.
  have rests : (state.afterGuest text method params taken).call =
      (state.call.pollRpc text method params taken).1 :=
    ((state.afterRpc text method params taken).call.guest_polled text taken.guest).ended
      (frame.waiting ▸ gone.ended)
  have ends := JoinedCall.step_frame stepped
  have rpc := rests ▸ ends.rpc
  have stdout := rests ▸ ends.stdout
  have waiting : next.call.guest.waiting.isEnded = true := by
    rw [ends.waiting, rests, frame.waiting]
    exact gone.ended
  have done : next.call.loggerDone = true := ends.done (by
    rw [rests, frame.logger]
    exact gone.done)
  have backlog : next.call.backlog = (state.call.pollRpc text method params taken).1.backlog := by
    rw [PluginCall.backlog, rpc, stdout, PluginCall.backlog]
  have polled : OwnCall (state.call.pollRpc text method params taken).1.rpc 0 ∧ _ :=
    PluginCall.pollRpc_own gone.own taken
  rw [backlog]
  refine ⟨⟨rpc ▸ polled.1, waiting, done, ?_, fun fresh => ?_⟩, polled.2, fun prompt => ?_⟩
  · rw [stdout, frame.closed]
    exact gone.closed
  · cases resolved : next.call.resolved with
    | none => rfl
    | some result =>
        have returned := (JoinedCall.step_result stepped result).mpr ⟨resolved, waiting, done⟩
        rw [fresh] at returned
        cases returned
  · exact pollRpc_on gone.own gone.closed (gone.going fresh) prompt

private theorem GuestGone.run {state final : JoinedCall}
    {later : List (Transition JoinedCall Round)} (gone : GuestGone state)
    (run : Run (JoinedCall.step text method params) state later final) :
    GuestGone final ∧ final.call.backlog + later.countP Prompt ≤ state.call.backlog := by
  induction run with
  | start => exact ⟨gone, Nat.le_refl _⟩
  | @extend later before next round _ stepped inductionHypothesis =>
      rcases inductionHypothesis with ⟨still, bound⟩
      rcases still.round stepped with ⟨last, fewer, prompt⟩
      refine ⟨last, ?_⟩
      rw [List.countP_append, List.countP_singleton]
      split
      · next counts =>
          have lower := prompt counts
          omega
      · omega

variable {memory : GuestMemory} {maxFuel : Option Nat}
  {history later : List (Transition JoinedCall Round)} {state final : JoinedCall}

private theorem own_run
    (run : Run (JoinedCall.step text method params) (.spawned memory maxFuel) history state) :
    OwnCall state.call.rpc 0 := by
  refine (run.invariant (fun state => OwnCall state.call.rpc 0) ?_ ?_).1
  · exact ⟨rfl, .inl rfl, fun _ => rfl, List.not_mem_nil, List.not_mem_nil⟩
  · intro before round next own stepped
    have polled := (before.afterRpc text method params round).call.guest_polled text round.guest
    rw [(JoinedCall.step_frame stepped).rpc, show
      (before.afterGuest text method params round).call.rpc = _ from polled.rpc]
    exact (PluginCall.pollRpc_own own round).1

private theorem gone_run
    (run : Run (JoinedCall.step text method params) (.spawned memory maxFuel) history state)
    (controls : forall taken, taken ∈ history -> GuestControls taken)
    (ended : state.call.guest.waiting.isEnded = true) : GuestGone state := by
  have own := own_run run
  rcases JoinedCall.logs_run run controls with ⟨logs, rests⟩
  cases run with
  | start => cases ended
  | @extend history before state round run stepped =>
      have done := JoinedCall.logs_ended logs (rests (List.append_ne_nil_of_right_ne_nil _
        (List.cons_ne_nil _ _))) ended
      refine ⟨own, ended, done, ?_, fun fresh => ?_⟩
      · rw [logs.attached.stdout, (logs.gone ended).1]
        rfl
      · cases resolved : state.call.resolved with
        | none => rfl
        | some result =>
            have returned := (JoinedCall.step_result stepped result).mpr ⟨resolved, ended, done⟩
            rw [fresh] at returned
            cases returned

/-- A call whose guest has ended cannot go on for long: while it has not returned,
there have been fewer prompt polls than was left of it. -/
theorem ended_call_returns
    (run : Run (JoinedCall.step text method params) (.spawned memory maxFuel) history state)
    (controls : forall taken, taken ∈ history -> GuestControls taken)
    (ended : state.call.guest.waiting.isEnded = true)
    (goesOn : Run (JoinedCall.step text method params) state later final)
    (going : final.call.result = none) : later.countP Prompt < state.call.backlog := by
  rcases (gone_run run controls ended).run goesOn with ⟨gone, bound⟩
  have resolved := gone.going going
  refine Nat.lt_of_lt_of_le (Nat.lt_add_of_pos_left ?_) bound
  have whole : final.call.backlog = 3 * final.call.rpc.reader.ahead.length +
    (final.call.rpc.task 0).phase.toil + 3 * final.call.guest.store.stdout.buf.length := rfl
  unfold PluginCall.resolved at resolved
  cases place : (final.call.rpc.task 0).phase with
  | idle | awaitingReader | yielding | handling =>
      rw [place] at whole
      dsimp only [Phase.toil] at whole
      omega
  | answered | failed =>
      rw [place] at resolved
      cases resolved
  | done | dropped =>
      rcases gone.own.place with idle | stands
      · rw [place] at idle
        cases idle
      · rw [place] at stands
        exact absurd rfl stands

end Target

/-! ### A guest that does not wait for its host -/

/-- A guest that asks its host something, replies to the call at once, and ends
without waiting for the answer. -/
def hasty : List Round :=
  [⟨false, [], tells 1 (Rpc.frame requestText peerRequest ++ Rpc.frame requestText firstReply)
    .finished, 0⟩]

theorem hasty_enabled : (Run.play (JoinedCall.step requestText "get" .null)
    (.spawned pluginStore.memory none) hasty).isSome := by
  decide

/-- The round in which the call reads the request of the hasty guest and starts to
wait for its handler. -/
def serving : List Round :=
  [⟨true, [], tells 1 [] .finished, 0⟩]

theorem serving_enabled : (Run.play (JoinedCall.step requestText "get" .null)
    ((Run.play (JoinedCall.step requestText "get" .null) (.spawned pluginStore.memory none)
      hasty).get hasty_enabled).2 serving).isSome := by
  decide

/-- The call of the hasty guest has not returned after one more poll, and the bound
allows exactly that one. -/
theorem hasty_call_goes_on :
    let hastened := (Run.play (JoinedCall.step requestText "get" .null)
      (.spawned pluginStore.memory none) hasty).get hasty_enabled
    ((Run.play (JoinedCall.step requestText "get" .null) hastened.2 serving).get
      serving_enabled).1.countP Prompt < hastened.2.call.backlog := by
  refine ended_call_returns (Run.of_enabled hasty hasty_enabled) (fun taken member => ?_)
    (by decide) (Run.of_enabled serving serving_enabled) (by decide +kernel)
  rw [GuestControls, List.mem_singleton.mp (Run.play_listed member)]
  exact tells_controls _ _ _

section Target

variable [HostTarget]

/-! ## Every poll -/

/-- After every poll the transport's call has yielded, waits for a result that was not
there, or is done, and likewise the logger waits for more or is done. No poll stops
where a task could still have gone on. -/
theorem every_poll_suspends {round : Round} {next : JoinedCall}
    (run : Run (JoinedCall.step text method params) (.spawned memory maxFuel) history state)
    (stepped : state.step text method params round = some next)
    (controls : forall taken, taken ∈ history ++ [⟨state, round, next⟩] -> GuestControls taken) :
    (next.call.rpc.task 0).phase ≠ .awaitingReader ∧
      (forall request, (next.call.rpc.task 0).phase = .handling request ->
        (state.call.pollRpc text method params round).2 = []) ∧ next.Rests := by
  have polled := (state.afterRpc text method params round).call.guest_polled text round.guest
  have rpc : next.call.rpc = (state.call.pollRpc text method params round).1.rpc :=
    (JoinedCall.step_frame stepped).rpc.trans polled.rpc
  have own : OwnCall (state.call.wakeRpc text method params round.yielded).rpc 0 :=
    PluginCall.wakeRpc_own (own_run run) round.yielded
  have suspends := @PluginCall.drive_suspends text _ _ own _ (Nat.le_refl _) round.results
  rw [rpc]
  refine ⟨suspends.1, suspends.2, ?_⟩
  exact (JoinedCall.logs_run (run.extend stepped) controls).2
    (List.append_ne_nil_of_right_ne_nil _ (List.cons_ne_nil _ _))

end Target

/-- The poll in which the host's handler is asked ends at the wait for its result. -/
theorem hasty_poll_suspends :
    let hastened := (Run.play (JoinedCall.step requestText "get" .null)
      (.spawned pluginStore.memory none) hasty).get hasty_enabled
    let served := hastened.2.poll requestText "get" .null ⟨true, [], tells 1 [] .finished, 0⟩
    (served.call.rpc.task 0).phase ≠ .awaitingReader ∧
      (forall request, (served.call.rpc.task 0).phase = .handling request ->
        (hastened.2.call.pollRpc requestText "get" .null
          ⟨true, [], tells 1 [] .finished, 0⟩).2 = []) ∧ served.Rests := by
  intro hastened served
  refine every_poll_suspends (Run.of_enabled hasty hasty_enabled) rfl fun taken member => ?_
  rw [GuestControls]
  rcases List.mem_append.mp member with earlier | last
  · rw [List.mem_singleton.mp (Run.play_listed earlier)]
    exact tells_controls _ _ _
  · rw [List.mem_singleton.mp last]
    exact tells_controls _ _ _

end Host
end WasmiPlugin
