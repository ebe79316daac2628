import WasmiPlugin.Foundation.Run
import WasmiPlugin.Host.PluginCall
import WasmiPlugin.Rpc.Correlation

namespace WasmiPlugin
namespace Host

open Foundation Rpc

/-!
# Stopping the guest when its call is over

The call of a plugin is over when the transport's future has resolved.  The
guest should then meet a cleared flag at its next check and not be given control
again.  But the flag is cleared after the join, and the join waits for the guest,
so every check of every run sees the flag set.  A guest is stopped with its call
only if it has ended by itself before.
-/

section Target

variable [Wasi.HostTarget]

/-- Once the call has resolved, a check of the flag sees it cleared and the guest is
not given control any more. -/
def StopsWithCall (history : List (Transition PluginCall PluginAction)) : Prop :=
  forall taken, taken ∈ history -> taken.before.resolved ≠ none ->
    loading taken ≠ some true ∧ controlling taken = false

/-- Whenever the call resolves, the guest has already ended by itself. -/
def EndedFirst (history : List (Transition PluginCall PluginAction)) : Prop :=
  forall taken, taken ∈ history -> Resolves taken -> taken.before.guest.waiting.isEnded = true

/-- Whatever happens, no check ever sees the flag cleared. -/
theorem check_sees_running {text : JsonText} {store : Wasi.Caller} {maxFuel : Option Nat}
    {history : List (Transition PluginCall PluginAction)} {final : PluginCall}
    (run : Run (PluginCall.step text) (.spawned store maxFuel) history final)
    (taken : Transition PluginCall PluginAction) (member : taken ∈ history) :
    loading taken ≠ some false := by
  have flag := ((run.invariant
    (fun call => call.guest.waiting.isEnded = false -> call.isRunning = true) (fun _ => rfl)
    (fun _ _ _ set stepped => (PluginCall.step_progress stepped).running set)).2 taken member).1
  intro cleared
  unfold loading at cleared
  split at cleared
  · next poll action =>
      cases ended : taken.before.guest.waiting.isEnded with
      | true =>
          rw [(PluginInstance.ended_quiet ended _ poll).2] at cleared
          cases cleared
      | false =>
          rw [flag ended] at cleared
          unfold PluginInstance.loads at cleared
          split at cleared
          · split at cleared <;> cases cleared
          · cases cleared
  · cases cleared

/-- The call is over only after the guest has ended. -/
private theorem ended_run {text : JsonText} {store : Wasi.Caller} {maxFuel : Option Nat}
    {history : List (Transition PluginCall PluginAction)} {final : PluginCall}
    (run : Run (PluginCall.step text) (.spawned store maxFuel) history final)
    (first : EndedFirst history) :
    (final.resolved ≠ none -> final.guest.waiting.isEnded = true) ∧
      forall taken, taken ∈ history -> taken.before.resolved ≠ none ->
        taken.before.guest.waiting.isEnded = true := by
  have holds := run.invariantWithin
    (fun call => call.resolved ≠ none -> call.guest.waiting.isEnded = true)
    (fun taken => Resolves taken -> taken.before.guest.waiting.isEnded = true)
    (fun resolved => absurd rfl resolved) first
    (fun before action after ended stepped meets resolved => by
      have progress := PluginCall.step_progress stepped
      apply progress.ended
      by_cases fresh : before.resolved = none
      · exact meets ⟨fresh, resolved⟩
      · exact ended fresh)
  exact ⟨holds.1, fun taken member => (holds.2 taken member).1⟩

private theorem controlled_run {text : JsonText} {store : Wasi.Caller} {maxFuel : Option Nat}
    {history : List (Transition PluginCall PluginAction)} {final : PluginCall}
    (run : Run (PluginCall.step text) (.spawned store maxFuel) history final)
    (late : Exists fun taken => taken ∈ history ∧ Resolves taken ∧
      taken.before.guest.waiting.isEnded = false) :
    final.resolved ≠ none ∧ (final.guest.waiting.isEnded = false ∨
      Exists fun taken => taken ∈ history ∧ taken.before.resolved ≠ none ∧
        controlling taken = true) := by
  induction run with
  | start =>
      rcases late with ⟨taken, member, _⟩
      cases member
  | @extend history before after action _ stepped inductionHypothesis =>
      have progress := PluginCall.step_progress stepped
      rcases late with ⟨taken, member, resolves, waits⟩
      rcases List.mem_append.mp member with earlier | last
      · rcases inductionHypothesis ⟨taken, earlier, resolves, waits⟩ with ⟨resolved, open'⟩
        refine ⟨progress.resolved resolved, ?_⟩
        rcases open' with waiting | ⟨other, listed, isOver, control⟩
        · cases ends : after.guest.waiting.isEnded with
          | false => exact .inl rfl
          | true => exact .inr ⟨_, List.mem_append_right _ List.mem_cons_self, resolved,
              progress.ends waiting ends⟩
        · exact .inr ⟨other, List.mem_append_left _ listed, isOver, control⟩
      · rw [List.mem_singleton.mp last] at resolves waits
        refine ⟨resolves.2, .inl ?_⟩
        rw [progress.apart resolves]
        exact waits

/-- `Plugin::call` returns only after the guest has ended. -/
theorem returned_run {text : JsonText} {store : Wasi.Caller} {maxFuel : Option Nat}
    {history : List (Transition PluginCall PluginAction)} {final : PluginCall}
    (run : Run (PluginCall.step text) (.spawned store maxFuel) history final)
    (returned : final.result ≠ none) : final.guest.waiting.isEnded = true := by
  apply (run.invariant
    (fun call => call.result ≠ none -> call.guest.waiting.isEnded = true)
    (fun joined => absurd rfl joined) _).1 returned
  intro before action after ended stepped joined
  have progress := PluginCall.step_progress stepped
  apply progress.ended
  by_cases fresh : before.result = none
  · exact progress.joined fresh joined
  · exact ended fresh

/-- A run of `Plugin::call` stops the guest with its call if the guest has already
ended whenever the call resolves. Once `Plugin::call` has returned, only such a run
does. -/
theorem guest_stops_with_call_iff {text : JsonText} {store : Wasi.Caller} {maxFuel : Option Nat}
    {history : List (Transition PluginCall PluginAction)} {final : PluginCall}
    (run : Run (PluginCall.step text) (.spawned store maxFuel) history final) :
    (EndedFirst history -> StopsWithCall history) ∧
      (final.result ≠ none -> StopsWithCall history -> EndedFirst history) := by
  constructor
  · intro first taken member resolved
    have ended := (ended_run run first).2 taken member resolved
    unfold loading controlling
    cases action : taken.action with
    | guest poll =>
        have quiet := PluginInstance.ended_quiet ended taken.before.isRunning poll
        simp only [quiet, ne_eq, reduceCtorEq, not_false_iff, and_self]
    | call | rpc | handlerReturns | logger | join =>
        simp only [ne_eq, reduceCtorEq, not_false_iff, and_self]
  · intro returned stops taken member resolves
    have ended := returned_run run returned
    cases waits : taken.before.guest.waiting.isEnded with
    | true => rfl
    | false =>
        rcases (controlled_run run ⟨taken, member, resolves, waits⟩).2 with
          open' | ⟨other, listed, isOver, control⟩
        · rw [ended] at open'
          cases open'
        · rw [(stops other listed isOver).2] at control
          cases control

end Target

/-! ## A guest that answers and goes on -/

/-- The guest computes until its fuel is spent. -/
def computes : Poll where
  ready := true
  now := 0
  slice := fun store => (store, .ok (.outOfFuel 1))

/-- A slice in which the guest writes the reply to the first call and then does what
is given. -/
def replies (resumable : ResumableCall) : Poll where
  ready := true
  now := 0
  slice := fun store =>
    ({ store with stdout := (store.stdout.write (frame replyText firstReply)).2.2 }, .ok resumable)

/-- The guest writes its reply and goes on computing after the transport has read it. -/
def lingering : List PluginAction :=
  [.call "first" .null true, .rpc, .guest computes, .rpc, .guest (replies (.outOfFuel 1)), .rpc,
    .guest computes]

theorem lingering_enabled :
    (Run.play (PluginCall.step replyText) (.spawned pluginStore none) lingering).isSome := by
  decide

/-- The lingering guest is given control although its call has resolved, and the flag
is still set then. -/
theorem guest_outlives_call :
    ¬ forall text store maxFuel history final,
        Run (PluginCall.step text) (.spawned store maxFuel) history final ->
          StopsWithCall history := by
  intro law
  have stops := law replyText pluginStore none _ _ (Run.of_enabled lingering lingering_enabled)
  have last := stops _ (List.get_mem _ ⟨6, by decide⟩) (by decide)
  exact absurd last.1 (by decide)

/-- The guest returns from `_start` right after its reply. -/
def prompt : List PluginAction :=
  [.call "first" .null true, .rpc, .guest computes, .rpc, .guest (replies .finished), .rpc,
    .logger true, .join]

theorem prompt_enabled :
    (Run.play (PluginCall.step replyText) (.spawned pluginStore none) prompt).isSome := by
  decide

/-- A guest that returns right after its reply is stopped with its call. -/
theorem prompt_guest_stops :
    StopsWithCall ((Run.play (PluginCall.step replyText) (.spawned pluginStore none) prompt).get
      prompt_enabled).1 :=
  (guest_stops_with_call_iff (Run.of_enabled prompt prompt_enabled)).1
    (by unfold EndedFirst Resolves; decide)

end Host
end WasmiPlugin
