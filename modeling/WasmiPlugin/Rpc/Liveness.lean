import WasmiPlugin.Foundation.Path
import WasmiPlugin.Rpc.ReaderLock
import WasmiPlugin.Rpc.Evaluation

namespace WasmiPlugin
namespace Rpc

open Foundation

/-!
# Every call is answered

A conversation never gets stuck.  As long as both sides are polled again and
again, the host's call returns at last, and so does every call that the guest's
handler makes on the way.  Polling may bring nothing any number of times, and
the two sides may be interleaved in any way.

At any time one party has the turn, the one that can read the message under way
or has to go on with its handler, and all that the other one can do is to find
its pipe empty.  What a step of the party with the turn uses up is a rank.  First
comes what the guest's handler still has to do, as a program; a handler calls
only finitely often, but how often may depend on the answers.  Then comes how far
the call that is on its way has got.
-/

/-- One of the two futures that an executor polls. -/
inductive Party where
  | host
  | guest
  deriving DecidableEq, Repr

/-- A step of a party's future.  That the host makes its call, and that the guest
exits, is not asked of anybody. -/
def Party.Works : Party -> ConversationAction -> Prop
  | .host, .hostPolls => True
  | .host, .hostHandlerReturns _ => True
  | .guest, .guestPumps => True
  | .guest, .guestPolls => True
  | .guest, .guestCalls => True
  | .guest, .guestContinues => True
  | .guest, .guestReturns => True
  | _, _ => False

/-- Where the guest's handler may stand after it got on: it begins, makes its next
call, goes on with a reply, or has returned. -/
inductive Serving.Later : Serving -> Serving -> Prop
  | invoked (program : HandlerProgram) : Later (.running program) .notYet
  | calls (method : String) (params : Value)
      (next : Except RpcError RpcResponse -> HandlerProgram) :
      Later (.calling next) (.running (.call method params next))
  | continues (next : Except RpcError RpcResponse -> HandlerProgram)
      (result : Except RpcError RpcResponse) : Later (.running (next result)) (.calling next)
  | returns (result : Except RpcError Value) : Later .served (.running (.ret result))

/-- A handler cannot get on forever, since its program is finite. -/
theorem Serving.later_wellFounded : WellFounded Later := by
  have served : Acc Later .served := .intro _ fun _ later => nomatch later
  have running (program : HandlerProgram) : Acc Later (.running program) := by
    induction program with
    | ret result =>
        refine .intro _ fun _ later => ?_
        cases later
        exact served
    | call method params next inductionHypothesis =>
        refine .intro _ fun _ later => ?_
        cases later
        refine .intro _ fun _ after => ?_
        cases after with
        | continues _ result => exact inductionHypothesis result
  have calling (next : Except RpcError RpcResponse -> HandlerProgram) :
      Acc Later (.calling next) := by
    refine .intro _ fun _ later => ?_
    cases later with
    | continues _ result => exact running (next result)
  refine ⟨fun serving => ?_⟩
  cases serving with
  | notYet =>
      refine .intro _ fun _ later => ?_
      cases later with
      | invoked program => exact running program
  | running program => exact running program
  | calling next => exact calling next
  | served => exact served

namespace Conversation

def turn (conversation : Conversation) : Party :=
  match conversation.serving with
  | .notYet => .guest
  | .running _ => .guest
  | .calling _ =>
      if conversation.hostResults.length < conversation.guestCalls.length then .host else .guest
  | .served => .host

def unreturned (conversation : Conversation) : Bool :=
  (conversation.guest.task conversation.guestCalls.length).phase.returned.isNone

/-- The steps before the guest's handler gets on: the guest begins to read, and its
latest call is heard, handled and answered. -/
def ahead (conversation : Conversation) : Nat :=
  match conversation.serving with
  | .notYet =>
      match (conversation.guest.task 0).phase with
      | .idle => 1
      | _ => 0
  | .calling _ =>
      (conversation.guestCalls.length - conversation.hostInvocations.length) +
        (conversation.guestCalls.length - conversation.hostResults.length) +
        conversation.unreturned.toNat
  | _ => 0

def rank (conversation : Conversation) : Serving × Nat :=
  (conversation.serving, conversation.ahead)

end Conversation

/-- A rank is lower when the handler got on, or else its call did. -/
abbrev Lower : Serving × Nat -> Serving × Nat -> Prop :=
  Prod.Lex Serving.Later (· < ·)

theorem lower_wellFounded : WellFounded Lower :=
  WellFounded.prod_lex Serving.later_wellFounded Nat.lt_wfRel.wf

variable {text : JsonText} {handler : String -> Value -> HandlerProgram}
  {conversation next : Conversation}

/-! ## What holds throughout -/

/-- What holds at every time of an attended path: where the conversation stands, that
the locks of both readers are sound, and that a handler which waits for a call has
made one. -/
structure Sound (text : JsonText) (conversation : Conversation) : Prop where
  stage : Stage text conversation
  host : LockSound conversation.host
  guest : LockSound conversation.guest
  asked : forall rest, conversation.serving = .calling rest -> conversation.guestCalls ≠ []

theorem Sound.new : Sound text .new where
  stage := .new
  host := fun _ => ⟨nofun, fun yields => nomatch yields.choose_spec⟩
  guest := fun _ => ⟨nofun, fun yields => nomatch yields.choose_spec⟩
  asked := nofun

theorem LockSound.hear {transport : Transport} (sound : LockSound transport)
    (messages : List RpcMessage) : LockSound (transport.hear text messages) := sound

private theorem hostStep_locks {action : TransportAction} (sound : Sound text conversation)
    (stepped : conversation.hostStep text action = some next) :
    LockSound next.host ∧ LockSound next.guest ∧ next.serving = conversation.serving ∧
      next.guestCalls = conversation.guestCalls := by
  rcases hostStep_eq stepped with ⟨host, moved, rfl⟩
  exact ⟨sound.host.step moved, sound.guest.hear _, rfl, rfl⟩

private theorem guestStep_locks {action : TransportAction} (sound : Sound text conversation)
    (stepped : conversation.guestStep text action = some next) :
    LockSound next.host ∧ LockSound next.guest ∧ next.serving = conversation.serving ∧
      next.guestCalls = conversation.guestCalls := by
  rcases guestStep_eq stepped with ⟨guest, moved, rfl⟩
  exact ⟨sound.host.hear _, sound.guest.step moved, rfl, rfl⟩

theorem Sound.step {action : ConversationAction} (sound : Sound text conversation)
    (stepped : conversation.step text handler action = some next)
    (faithful : WritesFaithfully text ⟨conversation, action, next⟩) : Sound text next := by
  have stage := sound.stage.step stepped faithful
  have quiet {after : Conversation} (locks : LockSound after.host ∧ LockSound after.guest ∧
      after.serving = conversation.serving ∧ after.guestCalls = conversation.guestCalls)
      (stage : Stage text after) : Sound text after := by
    refine ⟨stage, locks.1, locks.2.1, fun rest waits => ?_⟩
    rw [locks.2.2.1] at waits
    rw [locks.2.2.2]
    exact sound.asked rest waits
  cases action with
  | hostCalls method params =>
      rcases Option.map_eq_some_iff.mp stepped with ⟨_, moved, rfl⟩
      have locks := hostStep_locks sound moved
      exact quiet locks stage
  | hostPolls =>
      rcases Option.map_eq_some_iff.mp stepped with ⟨_, moved, rfl⟩
      have locks := hostStep_locks sound moved
      exact quiet locks stage
  | hostHandlerReturns result =>
      rcases Option.map_eq_some_iff.mp stepped with ⟨_, moved, rfl⟩
      have locks := hostStep_locks sound moved
      exact quiet locks stage
  | guestPumps => exact quiet (guestStep_locks sound stepped) stage
  | guestPolls =>
      simp only [Conversation.step] at stepped
      split at stepped
      · next unserved =>
          rcases Option.map_eq_some_iff.mp stepped with ⟨middle, moved, rfl⟩
          have locks := guestStep_locks sound moved
          unfold Conversation.guestInvokes at stage ⊢
          split
          · next none =>
              rw [none] at stage
              exact quiet locks stage
          · next request handled =>
              rw [handled] at stage
              exact ⟨stage, locks.1, locks.2.1, fun _ waits => by cases waits⟩
      · exact quiet (guestStep_locks sound stepped) stage
      · cases stepped
  | guestCalls =>
      simp only [Conversation.step] at stepped
      split at stepped
      · rcases Option.map_eq_some_iff.mp stepped with ⟨_, moved, rfl⟩
        have locks := guestStep_locks sound moved
        exact ⟨stage, locks.1, locks.2.1, fun _ _ => List.append_ne_nil_of_right_ne_nil _ (by simp)⟩
      · cases stepped
  | guestContinues =>
      simp only [Conversation.step] at stepped
      split at stepped
      · cases stepped
        exact ⟨stage, sound.host, sound.guest, fun _ waits => by cases waits⟩
      · cases stepped
  | guestReturns =>
      simp only [Conversation.step] at stepped
      split at stepped
      · rcases Option.map_eq_some_iff.mp stepped with ⟨_, moved, rfl⟩
        have locks := guestStep_locks sound moved
        exact ⟨stage, locks.1, locks.2.1, fun _ waits => by cases waits⟩
      · cases stepped
  | guestExits =>
      simp only [Conversation.step] at stepped
      split at stepped
      · rcases Option.map_eq_some_iff.mp stepped with ⟨host, moved, rfl⟩
        exact quiet ⟨sound.host.step moved, sound.guest, rfl, rfl⟩ stage
      · cases stepped

/-! ## The party with the turn can take a step -/

private theorem guestStep_isSome {action : TransportAction}
    (ready : (conversation.guest.step text action).isSome) :
    (conversation.guestStep text action).isSome := by
  rw [Conversation.guestStep, Option.isSome_map]
  exact ready

private theorem hostStep_isSome {action : TransportAction}
    (ready : (conversation.host.step text action).isSome) :
    (conversation.hostStep text action).isSome := by
  rw [Conversation.hostStep, Option.isSome_map]
  exact ready

private theorem HostWaits.ready {inbox : List RpcMessage} {closed : Bool}
    (host : HostWaits text conversation.host inbox closed) (sound : Sound text conversation) :
    (conversation.step text handler .hostPolls).isSome := by
  rw [Conversation.step, Option.isSome_map]
  refine hostStep_isSome (sound.host.pollable ?_ fun other different line => ?_)
  · rw [host.awaits.phase]
    exact Option.some_ne_none _
  · rw [host.others other different]
    exact Phase.noConfusion

private theorem outcome_awake (id : UInt64) (result : Except RpcError Value)
    (line : List UInt8) : Transport.outcome id result ≠ .yielding line := by
  cases result <;> exact Phase.noConfusion

private theorem Calling.ready {request : RpcRequest} {earlier : List Invocation}
    {inbox : List RpcMessage} (calling : Calling text conversation request earlier inbox)
    (guest : GuestServes text conversation) (sound : Sound text conversation) :
    (conversation.step text handler .guestPolls).isSome := by
  rcases calling.serving with ⟨rest, waits⟩
  simp only [Conversation.step, waits]
  refine guestStep_isSome (sound.guest.pollable ?_ fun other different line => ?_)
  · rw [calling.latest, calling.awaits.phase]
    exact Option.some_ne_none _
  · rw [calling.latest] at different
    cases other with
    | zero =>
        rcases guest.pump with ⟨_, _, handling, _⟩
        rw [handling]
        exact Phase.noConfusion
    | succ index =>
        by_cases before : index < earlier.length
        · rcases calling.past.returned index before with ⟨result, _, ended⟩
          rw [ended]
          exact outcome_awake _ result line
        · have beyond : conversation.guestCalls.length ≤ index := by
            have apart : index ≠ earlier.length := fun same => different (congrArg Nat.succ same)
            rw [calling.latest]
            omega
          rw [calling.past.ahead index beyond]
          exact Phase.noConfusion

/-- While the guest's handler runs, or has to go on with a reply, the guest can take
a step. -/
private theorem GuestServes.ready (guest : GuestServes text conversation)
    (past : Past conversation conversation.guestCalls.length)
    (sound : Sound text conversation)
    (serving : (Exists fun program => conversation.serving = .running program) ∨
      Exists fun rest => conversation.serving = .calling rest) :
    Enabled (Conversation.step text handler) (Party.Works .guest) conversation := by
  rcases serving with ⟨program, running⟩ | ⟨rest, waits⟩
  · cases program with
    | ret result =>
        refine ⟨.guestReturns, trivial, ?_⟩
        rcases guest.pump with ⟨request, _, handling, _⟩
        simp only [Conversation.step, running, Option.isSome_map]
        apply guestStep_isSome
        simp only [Transport.step, handling, if_true, Option.isSome_some]
    | call method params rest =>
        refine ⟨.guestCalls, trivial, ?_⟩
        simp only [Conversation.step, running, Option.isSome_map]
        apply guestStep_isSome
        simp only [Transport.step, past.ahead _ (Nat.le_refl _), if_true, Option.isSome_some]
  · refine ⟨.guestContinues, trivial, ?_⟩
    rcases Nat.exists_eq_succ_of_ne_zero (List.length_pos_of_ne_nil (sound.asked rest waits)).ne'
      with ⟨last, made⟩
    rcases past.returned last (by omega) with ⟨result, _, ended⟩
    simp only [Conversation.step, waits, made, Nat.succ_eq_add_one, ended, outcome_returned,
      Option.isSome_some]

/-- While the host's call has not returned, the party with the turn can take a
step. -/
theorem Sound.ready (sound : Sound text conversation) (called : conversation.hostCalls ≠ [])
    (waiting : (conversation.host.task 0).phase.returned = none) :
    Enabled (Conversation.step text handler) conversation.turn.Works conversation := by
  cases sound.stage with
  | starting host calls guest => exact absurd calls called
  | requested request faithful id calls host guest =>
      have turn : conversation.turn = .guest := by rw [Conversation.turn, guest.serving]
      rw [turn]
      rcases guest.pump with idle | awaits
      · refine ⟨.guestPumps, trivial, guestStep_isSome ?_⟩
        simp only [Transport.step, idle, Option.isSome_some]
      · refine ⟨.guestPolls, trivial, ?_⟩
        simp only [Conversation.step, guest.serving, Option.isSome_map]
        refine guestStep_isSome (sound.guest.pollable ?_ fun other different line => ?_)
        · rw [awaits.phase]
          exact Option.some_ne_none _
        · rw [guest.others other different]
          exact Phase.noConfusion
  | between host reader guest past serving invoked results =>
      have turn : conversation.turn = .guest := by
        rcases serving with ⟨program, running⟩ | ⟨rest, waits⟩
        · rw [Conversation.turn, running]
        · simp only [Conversation.turn, waits, results, Nat.lt_irrefl, if_false]
      rw [turn]
      exact guest.ready past sound serving
  | asking request earlier faithful host guest calling invoked results =>
      rcases calling.serving with ⟨rest, waits⟩
      have turn : conversation.turn = .host := by
        simp only [Conversation.turn, waits, results, calling.latest, Nat.lt_succ_self, if_true]
      rw [turn]
      exact ⟨.hostPolls, trivial, host.ready sound⟩
  | hosting request earlier host guest calling invoked results =>
      rcases calling.serving with ⟨rest, waits⟩
      have turn : conversation.turn = .host := by
        simp only [Conversation.turn, waits, results, calling.latest, Nat.lt_succ_self, if_true]
      rw [turn]
      refine ⟨.hostHandlerReturns (.ok .null), trivial, ?_⟩
      rw [Conversation.step, Option.isSome_map]
      apply hostStep_isSome
      simp only [Transport.step, host.phase, if_true, Option.isSome_some]
  | answering request earlier result faithful host guest calling invoked results last =>
      rcases calling.serving with ⟨rest, waits⟩
      have turn : conversation.turn = .guest := by
        simp only [Conversation.turn, waits, results, calling.latest, Nat.lt_irrefl, if_false]
      rw [turn]
      exact ⟨.guestPolls, trivial, calling.ready guest sound⟩
  | replied request result closed faithful id host guest =>
      have turn : conversation.turn = .host := by rw [Conversation.turn, guest.serving]
      rw [turn]
      exact ⟨.hostPolls, trivial, host.ready sound⟩
  | finished result host others guest =>
      rw [host, outcome_returned] at waiting
      cases waiting

/-! ## What a step does to the rank -/

/-- What a step comes to while the host's call has not returned. -/
def Advances (conversation : Conversation) (action : ConversationAction) (next : Conversation) :
    Prop :=
  (next.host.task 0).phase.returned ≠ none ∨ Lower next.rank conversation.rank ∨
    next.rank = conversation.rank ∧ next.turn = conversation.turn ∧
      ¬ conversation.turn.Works action

private theorem Advances.later {action : ConversationAction}
    (later : Serving.Later next.serving conversation.serving) :
    Advances conversation action next :=
  .inr (.inl (.left _ _ later))

private theorem Advances.nearer {action : ConversationAction}
    (same : next.serving = conversation.serving) (less : next.ahead < conversation.ahead) :
    Advances conversation action next := by
  refine .inr (.inl ?_)
  rw [Conversation.rank, Conversation.rank, same]
  exact .right _ less

/-- While the guest has the turn, a poll of the host changes neither the rank nor the
turn. -/
private theorem HostWaits.idles (host : HostWaits text conversation.host [] false)
    (turn : conversation.turn = .guest)
    (stepped : conversation.step text handler .hostPolls = some next) :
    Advances conversation .hostPolls next := by
  rcases host.silent stepped with ⟨after, rfl, _⟩
  refine .inr (.inr ⟨rfl, rfl, ?_⟩)
  rw [turn]
  exact id

private theorem Sound.hostPolls (sound : Sound text conversation)
    (called : conversation.hostCalls ≠ [])
    (stepped : conversation.step text handler .hostPolls = some next) :
    Advances conversation .hostPolls next := by
  rcases hostPolls_eq stepped with ⟨after, polled, shape⟩
  have reading := poll_reading polled
  cases sound.stage with
  | starting host calls => exact absurd calls called
  | requested request faithful id calls host guest =>
      exact host.idles (by rw [Conversation.turn, guest.serving]) stepped
  | between host reader guest past serving invoked results =>
      refine host.idles ?_ stepped
      rcases serving with ⟨program, running⟩ | ⟨rest, waits⟩
      · rw [Conversation.turn, running]
      · simp only [Conversation.turn, waits, results, Nat.lt_irrefl, if_false]
  | answering request earlier result faithful host guest calling invoked results last =>
      refine host.idles ?_ stepped
      rcases calling.serving with ⟨rest, waits⟩
      simp only [Conversation.turn, waits, results, calling.latest, Nat.lt_irrefl, if_false]
  | asking request earlier faithful host guest calling invoked results =>
      have served : conversation.host.hasHandler 0 = true := by
        simp only [Transport.hasHandler, host.awaits.kind, host.handler]
      rcases host.awaits.request faithful served polled with ⟨own, _, _, _, written⟩
      have handled : after.handled 0 = some request := by rw [Transport.handled, own]
      rcases calling.serving with ⟨rest, waits⟩
      rw [shape written, handled]
      refine .nearer rfl ?_
      simp only [Conversation.ahead, Conversation.unreturned, waits, invoked, calling.latest,
        results, Option.map_some, Option.toList_some, List.length_append, List.length_singleton]
      omega
  | hosting request earlier host =>
      rw [host.phase] at reading
      exact absurd rfl reading
  | replied request result closed faithful id host guest =>
      have entry : conversation.host.pending request.id = some 0 := by
        rw [id]
        exact host.entry
      rcases host.awaits.returns faithful entry polled with ⟨own, _, _, written⟩
      refine .inl ?_
      rw [shape written]
      dsimp only
      rw [own, outcome_returned]
      exact Option.some_ne_none _
  | finished result host =>
      rw [host] at reading
      cases result <;> exact absurd rfl reading

private theorem Sound.hostHandlerReturns {result : Except RpcError Value}
    (sound : Sound text conversation)
    (stepped : conversation.step text handler (.hostHandlerReturns result) = some next) :
    Advances conversation (.hostHandlerReturns result) next := by
  rcases Option.map_eq_some_iff.mp stepped with ⟨_, moved, same⟩
  rcases hostStep_eq moved with ⟨host, returned, rfl⟩
  subst same
  rcases Transport.step_handlerReturns returned with ⟨request, _, handling, _⟩
  rcases sound.stage.of_handling handling with ⟨invoked, latest, _, rest, waits⟩
  refine .nearer rfl ?_
  simp only [Conversation.ahead, Conversation.unreturned, Transport.hear, waits, invoked, latest,
    List.length_append, List.length_singleton]
  omega

private theorem Stage.of_idle (stage : Stage text conversation)
    (idle : (conversation.guest.task 0).phase = .idle) : conversation.serving = .notYet := by
  have serves (guest : GuestServes text conversation) : conversation.serving = .notYet := by
    rcases guest.pump with ⟨_, _, handling, _⟩
    cases handling.symm.trans idle
  cases stage with
  | starting _ _ guest => exact guest.serving
  | requested _ _ _ _ _ guest => exact guest.serving
  | between _ _ guest => exact serves guest
  | asking _ _ _ _ guest => exact serves guest
  | hosting _ _ _ guest => exact serves guest
  | answering _ _ _ _ _ guest => exact serves guest
  | replied _ _ _ _ _ _ guest => cases guest.pump.symm.trans idle
  | finished _ _ _ guest => cases guest.pump.symm.trans idle

private theorem Sound.guestPumps (sound : Sound text conversation)
    (stepped : conversation.step text handler .guestPumps = some next) :
    Advances conversation .guestPumps next := by
  rcases guestStep_eq stepped with ⟨after, pumped, rfl⟩
  rcases Transport.step_processNextLine pumped with ⟨idle, own, _⟩
  refine .nearer rfl ?_
  simp only [Conversation.ahead, sound.stage.of_idle idle, idle, own, Nat.lt_one_iff]

/-- While the host has the turn, a poll of the guest's latest call changes neither the
rank nor the turn. -/
private theorem Calling.idles {request : RpcRequest} {earlier : List Invocation}
    (calling : Calling text conversation request earlier [])
    (guest : GuestServes text conversation)
    (results : conversation.hostResults.length = earlier.length)
    (stepped : conversation.guestStep text (.poll conversation.guestCalls.length) = some next) :
    Advances conversation .guestPolls next := by
  rcases calling.silent guest stepped with ⟨after, rfl, _, still⟩
  rcases calling.serving with ⟨rest, waits⟩
  have turn : conversation.turn = .host := by
    simp only [Conversation.turn, waits, results, calling.latest, Nat.lt_succ_self, if_true]
  refine .inr (.inr ⟨?_, rfl, ?_⟩)
  · have unreturned := calling.unreturned
    have still := still.unreturned
    dsimp only at still
    simp only [Conversation.rank, Conversation.ahead, Conversation.unreturned, waits, unreturned,
      still]
  · rw [turn]
    exact not_false

private theorem Sound.guestListens (sound : Sound text conversation)
    (called : conversation.hostCalls ≠ []) (unserved : conversation.serving = .notYet)
    (stepped : (conversation.guestStep text (.poll 0)).map (·.guestInvokes handler) = some next) :
    Advances conversation .guestPolls next := by
  rcases Option.map_eq_some_iff.mp stepped with ⟨_, moved, same⟩
  rcases guestStep_eq moved with ⟨after, polled, rfl⟩
  have reading := poll_reading polled
  cases sound.stage with
  | starting _ calls => exact absurd calls called
  | requested request faithful id calls host guest =>
      rcases guest.pump with idle | awaits
      · rw [idle] at reading
        exact absurd rfl reading
      · have served : conversation.guest.hasHandler 0 = true := by
          simp only [Transport.hasHandler, awaits.kind]
        rcases awaits.request faithful served polled with ⟨own, _⟩
        have handled : after.handled 0 = some request := by rw [Transport.handled, own]
        apply Advances.later
        rw [← same, unserved]
        simp only [Conversation.guestInvokes, handled]
        exact .invoked _
  | between _ _ _ _ serving =>
      rcases serving with ⟨_, same⟩ | ⟨_, same⟩ <;> cases unserved.symm.trans same
  | asking _ _ _ _ _ calling => obtain ⟨_, ⟨⟩⟩ := calling.stands unserved
  | hosting _ _ _ _ calling => obtain ⟨_, ⟨⟩⟩ := calling.stands unserved
  | answering _ _ _ _ _ _ calling => obtain ⟨_, ⟨⟩⟩ := calling.stands unserved
  | replied _ _ _ _ _ _ guest => cases unserved.symm.trans guest.serving
  | finished _ _ _ guest => cases unserved.symm.trans guest.serving

private theorem Sound.guestAwaits {rest : Except RpcError RpcResponse -> HandlerProgram}
    (sound : Sound text conversation) (waits : conversation.serving = .calling rest)
    (stepped : conversation.guestStep text (.poll conversation.guestCalls.length) = some next) :
    Advances conversation .guestPolls next := by
  cases sound.stage with
  | starting _ _ guest => cases waits.symm.trans guest.serving
  | requested _ _ _ _ _ guest => cases waits.symm.trans guest.serving
  | between host reader guest past serving =>
      -- the latest call has returned, so it cannot be polled
      rcases guestStep_eq stepped with ⟨after, polled, _⟩
      have reading := poll_reading polled
      rcases Nat.exists_eq_succ_of_ne_zero
        (List.length_pos_of_ne_nil (sound.asked rest waits)).ne' with ⟨last, made⟩
      rcases past.returned last (by omega) with ⟨result, _, ended⟩
      rw [made, Nat.succ_eq_add_one, ended] at reading
      cases result <;> exact absurd rfl reading
  | asking request earlier faithful host guest calling invoked results =>
      exact calling.idles guest results stepped
  | hosting request earlier host guest calling invoked results =>
      exact calling.idles guest results stepped
  | answering request earlier result faithful host guest calling invoked results last =>
      have unreturned := calling.unreturned
      rcases guestStep_eq stepped with ⟨after, polled, rfl⟩
      rw [calling.latest] at polled
      rcases calling.awaits.returns faithful calling.entry polled with ⟨own, _⟩
      refine .nearer rfl ?_
      rw [calling.latest] at unreturned
      simp only [Conversation.ahead, Conversation.unreturned, waits, calling.latest, own,
        outcome_returned, unreturned, Option.isNone_some, Option.isNone_none, Bool.toNat_false,
        Bool.toNat_true, Nat.lt_succ_self]
  | replied _ _ _ _ _ _ guest => cases waits.symm.trans guest.serving
  | finished _ _ _ guest => cases waits.symm.trans guest.serving

/-- Every step of a conversation that is under way advances it. -/
theorem Sound.advances {action : ConversationAction} (sound : Sound text conversation)
    (called : conversation.hostCalls ≠ [])
    (stepped : conversation.step text handler action = some next) :
    Advances conversation action next := by
  cases action with
  | hostCalls method params =>
      rcases Option.map_eq_some_iff.mp stepped with ⟨_, moved, _⟩
      rcases hostStep_eq moved with ⟨_, made, _⟩
      exact absurd (sound.stage.host_idle (Transport.step_call made).1).2.1 called
  | hostPolls => exact sound.hostPolls called stepped
  | hostHandlerReturns result => exact sound.hostHandlerReturns stepped
  | guestPumps => exact sound.guestPumps stepped
  | guestPolls =>
      simp only [Conversation.step] at stepped
      split at stepped
      · next unserved => exact sound.guestListens called unserved stepped
      · next rest waits => exact sound.guestAwaits waits stepped
      · cases stepped
  | guestCalls =>
      simp only [Conversation.step] at stepped
      split at stepped
      · next method params rest running =>
          rcases Option.map_eq_some_iff.mp stepped with ⟨_, _, rfl⟩
          apply Advances.later
          rw [running]
          exact .calls method params rest
      · cases stepped
  | guestContinues =>
      simp only [Conversation.step] at stepped
      split at stepped
      · next rest result waits _ =>
          cases stepped
          apply Advances.later
          rw [waits]
          exact .continues rest result
      · cases stepped
  | guestReturns =>
      simp only [Conversation.step] at stepped
      split at stepped
      · next result running =>
          rcases Option.map_eq_some_iff.mp stepped with ⟨_, _, rfl⟩
          apply Advances.later
          rw [running]
          exact .returns result
      · cases stepped
  | guestExits =>
      simp only [Conversation.step] at stepped
      split at stepped
      · next served =>
          rcases Option.map_eq_some_iff.mp stepped with ⟨host, _, rfl⟩
          refine .inr (.inr ⟨rfl, rfl, ?_⟩)
          rw [Conversation.turn, served]
          exact not_false
      · cases stepped

/-! ## Every execution -/

theorem step_calls {action : ConversationAction}
    (stepped : conversation.step text handler action = some next) :
    conversation.hostCalls <+: next.hostCalls ∧ conversation.guestCalls <+: next.guestCalls := by
  have byHost {action : TransportAction} {after : Conversation}
      (moved : conversation.hostStep text action = some after) :
      after.hostCalls = conversation.hostCalls ∧ after.guestCalls = conversation.guestCalls := by
    rcases hostStep_eq moved with ⟨host, _, rfl⟩
    exact ⟨rfl, rfl⟩
  have byGuest {action : TransportAction} {after : Conversation}
      (moved : conversation.guestStep text action = some after) :
      after.hostCalls = conversation.hostCalls ∧ after.guestCalls = conversation.guestCalls := by
    rcases guestStep_eq moved with ⟨guest, _, rfl⟩
    exact ⟨rfl, rfl⟩
  have kept {after : Conversation} (same : after.hostCalls = conversation.hostCalls ∧
      after.guestCalls = conversation.guestCalls) :
      conversation.hostCalls <+: after.hostCalls ∧
        conversation.guestCalls <+: after.guestCalls := by
    rw [same.1, same.2]
    exact ⟨List.prefix_rfl, List.prefix_rfl⟩
  cases action with
  | hostCalls method params =>
      rcases Option.map_eq_some_iff.mp stepped with ⟨_, moved, rfl⟩
      have same := byHost moved
      exact ⟨same.1 ▸ List.prefix_append .., same.2 ▸ List.prefix_rfl⟩
  | hostPolls =>
      rcases Option.map_eq_some_iff.mp stepped with ⟨_, moved, rfl⟩
      have same := byHost moved
      exact kept same
  | hostHandlerReturns result =>
      rcases Option.map_eq_some_iff.mp stepped with ⟨_, moved, rfl⟩
      have same := byHost moved
      exact kept same
  | guestPumps => exact kept (byGuest stepped)
  | guestPolls =>
      simp only [Conversation.step] at stepped
      split at stepped
      · rcases Option.map_eq_some_iff.mp stepped with ⟨_, moved, rfl⟩
        have same := byGuest moved
        unfold Conversation.guestInvokes
        split <;> exact kept same
      · exact kept (byGuest stepped)
      · cases stepped
  | guestCalls =>
      simp only [Conversation.step] at stepped
      split at stepped
      · rcases Option.map_eq_some_iff.mp stepped with ⟨_, moved, rfl⟩
        have same := byGuest moved
        exact ⟨same.1 ▸ List.prefix_rfl, same.2 ▸ List.prefix_append ..⟩
      · cases stepped
  | guestContinues =>
      simp only [Conversation.step] at stepped
      split at stepped
      · cases stepped
        exact ⟨List.prefix_rfl, List.prefix_rfl⟩
      · cases stepped
  | guestReturns =>
      simp only [Conversation.step] at stepped
      split at stepped
      · rcases Option.map_eq_some_iff.mp stepped with ⟨_, moved, rfl⟩
        have same := byGuest moved
        exact kept same
      · cases stepped
  | guestExits =>
      simp only [Conversation.step] at stepped
      split at stepped
      · rcases Option.map_eq_some_iff.mp stepped with ⟨_, _, rfl⟩
        exact ⟨List.prefix_rfl, List.prefix_rfl⟩
      · cases stepped

/-- Both futures are polled again and again, and all text is faithful. -/
structure Attended (path : Path (Conversation.step text handler) .new) : Prop where
  faithful : path.Meets (WritesFaithfully text)
  fair : forall party : Party, path.Fair party.Works

variable {path : Path (Conversation.step text handler) .new}

theorem Attended.sound (attended : Attended path) (time : Nat) : Sound text (path.state time) :=
  path.invariantWithin (Sound text) (WritesFaithfully text) .new attended.faithful
    (fun _ _ _ sound stepped faithful => sound.step stepped faithful) time

theorem Attended.host_returns (attended : Attended path) :
    path.LeadsTo (fun conversation => conversation.hostCalls ≠ [])
      fun conversation => (conversation.host.task 0).phase.returned ≠ none := by
  have underWay : path.LeadsTo (fun conversation => conversation.hostCalls ≠ [] ∧
        (conversation.host.task 0).phase.returned = none)
      fun conversation => (conversation.host.task 0).phase.returned ≠ none := by
    refine .chain lower_wellFounded Conversation.rank Conversation.turn Party.Works attended.fair
      (fun time waits => (attended.sound time).ready waits.1 waits.2)
      fun time action acts waits => ?_
    have stepped := path.stepped acts
    by_cases returned : ((path.state (time + 1)).host.task 0).phase.returned = none
    · have still : (path.state (time + 1)).hostCalls ≠ [] :=
        fun none => waits.1 (List.prefix_nil.mp (none ▸ (step_calls stepped).1))
      rcases (attended.sound time).advances waits.1 stepped with done | advances
      · exact absurd returned done
      · exact .inr ⟨⟨still, returned⟩, advances⟩
    · exact .inl returned
  intro time called
  by_cases returned : ((path.state time).host.task 0).phase.returned = none
  · exact underWay time ⟨called, returned⟩
  · exact ⟨time, Nat.le_refl time, returned⟩

theorem Stage.called (stage : Stage text conversation) {index : Nat}
    (made : index < conversation.guestCalls.length) : conversation.hostCalls ≠ [] := by
  intro none
  have fresh {inbox : List RpcMessage} (guest : GuestFresh text conversation inbox) : False := by
    rw [guest.guestCalls] at made
    exact absurd made (Nat.not_lt_zero index)
  have serves (guest : GuestServes text conversation) : False := by
    rcases guest.pump with ⟨_, _, _, calls⟩
    cases none.symm.trans calls
  have done {result : Except RpcError Value} (guest : GuestDone conversation result) : False := by
    have calls := guest.calls
    rw [none] at calls
    cases calls
  cases stage with
  | starting _ _ guest => exact fresh guest
  | requested _ _ _ _ _ guest => exact fresh guest
  | between _ _ guest => exact serves guest
  | asking _ _ _ _ guest => exact serves guest
  | hosting _ _ _ guest => exact serves guest
  | answering _ _ _ _ _ guest => exact serves guest
  | replied _ _ _ _ _ _ guest => exact done guest
  | finished _ _ _ guest => exact done guest

/-- On an attended path every call that the host makes returns at some time, and so
does every call that the guest's handler makes on its way. -/
theorem every_call_returns (attended : Attended path) :
    path.LeadsTo (fun conversation => conversation.hostCalls ≠ [])
        (fun conversation => (conversation.host.task 0).phase.returned ≠ none) ∧
      forall index, path.LeadsTo (fun conversation => index < conversation.guestCalls.length)
        (fun conversation => (conversation.guest.task (index + 1)).phase.returned ≠ none) := by
  refine ⟨attended.host_returns, fun index time made => ?_⟩
  rcases attended.host_returns time ((attended.sound time).stage.called made)
    with ⟨later, late, returned⟩
  refine ⟨later, late, ?_⟩
  have still : index < (path.state later).guestCalls.length :=
    path.stable (fun conversation => index < conversation.guestCalls.length)
      (fun _ _ acts before =>
        Nat.lt_of_lt_of_le before (step_calls (path.stepped acts)).2.length_le) late made
  -- the host's call returns only when the guest has answered, after all its calls
  rcases Option.ne_none_iff_exists.mp returned with ⟨result, same⟩
  rcases (attended.sound later).stage.of_hostReturned same.symm with ⟨_, guest, _⟩
  rcases guest.past.returned index still with ⟨value, _, ended⟩
  dsimp only
  rw [ended, outcome_returned]
  exact Option.some_ne_none _

/-- On the course of an evaluation a call returns what the evaluation comes to, and
the host's handler is asked what the evaluation asks. -/
theorem Attended.evaluates (attended : Attended path) {answer : HostAnswer} (method : String)
    (params : Value) (course : forall time, (method, params) ∈ (path.state time).hostCalls ->
      OnCourse answer handler (path.state time)) :
    path.LeadsTo (fun conversation => (method, params) ∈ conversation.hostCalls)
      fun conversation =>
        (conversation.host.task 0).phase.returned =
            some (returnedAs 0 ((handler method params).evaluate answer []).1) ∧
          conversation.hostInvocations = ((handler method params).evaluate answer []).2 := by
  intro time called
  rcases attended.host_returns time (List.ne_nil_of_mem called) with ⟨later, late, returned⟩
  have still : (method, params) ∈ (path.state later).hostCalls :=
    path.stable (fun conversation => (method, params) ∈ conversation.hostCalls)
      (fun _ _ acts before => (step_calls (path.stepped acts)).1.subset before) late called
  rcases Option.ne_none_iff_exists'.mp returned with ⟨result, same⟩
  have stage := (attended.sound later).stage
  rcases ((course later still).compared stage still).2 result same with ⟨shape, asked⟩
  exact ⟨later, late, same.trans (congrArg some shape), asked⟩

/-! ## Calls that ask nothing -/

/-- Whatever the host has called is a method whose handler asks nothing in turn. -/
def Unasking (answer : HostAnswer) (handler : String -> Value -> HandlerProgram)
    (conversation : Conversation) : Prop :=
  forall method params, (method, params) ∈ conversation.hostCalls ->
    ((handler method params).evaluate answer []).2 = []

/-- While the host calls only methods that ask nothing, it has nothing to handle. -/
theorem Unasking.not_handling {answer : HostAnswer}
    (unasking : Unasking answer handler conversation) (stage : Stage text conversation)
    (course : OnCourse answer handler conversation) {request : RpcRequest} :
    (conversation.host.task 0).phase ≠ .handling request := by
  intro handling
  rcases stage.of_handling handling with ⟨invoked, latest, _⟩
  have asked : 0 < conversation.guestCalls.length := by omega
  rcases List.exists_mem_of_ne_nil _ (stage.called asked) with ⟨call, called⟩
  have part := (course.compared stage called).1
  rw [unasking call.1 call.2 called, List.prefix_nil, invoked] at part
  rw [part] at asked
  exact absurd asked (Nat.lt_irrefl 0)

theorem Unasking.onCourse {answer : HostAnswer} {action : ConversationAction}
    (stage : Stage text conversation)
    (course : Unasking answer handler conversation -> OnCourse answer handler conversation)
    (stepped : conversation.step text handler action = some next)
    (faithful : WritesFaithfully text ⟨conversation, action, next⟩)
    (unasking : Unasking answer handler next) : OnCourse answer handler next := by
  have before : Unasking answer handler conversation := fun method params called =>
    unasking method params ((step_calls stepped).1.subset called)
  have onCourse := course before
  refine onCourse.step stage stepped faithful fun result returns => ?_
  dsimp only at returns
  rw [returns] at stepped
  rcases Option.map_eq_some_iff.mp stepped with ⟨_, moved, _⟩
  rcases hostStep_eq moved with ⟨_, returned, _⟩
  rcases Transport.step_handlerReturns returned with ⟨_, _, handling, _⟩
  exact absurd handling (before.not_handling stage onCourse)

/-- A call of a method that asks nothing returns what its handler comes to, whatever
the host would answer. -/
theorem Attended.unasking_returns (attended : Attended path) (answer : HostAnswer)
    (method : String) (params : Value)
    (unasking : ((handler method params).evaluate answer []).2 = []) :
    path.LeadsTo (fun conversation => (method, params) ∈ conversation.hostCalls)
      fun conversation =>
        (conversation.host.task 0).phase.returned =
            some (returnedAs 0 ((handler method params).evaluate answer []).1) ∧
          conversation.hostInvocations = [] := by
  have reached : forall time, Stage text (path.state time) ∧
      (Unasking answer handler (path.state time) -> OnCourse answer handler (path.state time)) := by
    intro time
    refine path.invariantWithin (fun conversation => Stage text conversation ∧
        (Unasking answer handler conversation -> OnCourse answer handler conversation))
      (WritesFaithfully text) ⟨.new, fun _ => .new⟩ attended.faithful
      (fun state action next holds stepped faithful => ?_) time
    exact ⟨holds.1.step stepped faithful, Unasking.onCourse holds.1 holds.2 stepped faithful⟩
  have course : forall time, (method, params) ∈ (path.state time).hostCalls ->
      OnCourse answer handler (path.state time) := by
    intro time called
    refine (reached time).2 fun other others member => ?_
    rw [(reached time).1.only called, List.mem_singleton] at member
    cases member
    exact unasking
  have evaluates := attended.evaluates method params course
  rw [unasking] at evaluates
  exact evaluates

/-- Where the host's call has returned and the guest's handler has ended, neither future
can be polled. -/
theorem Party.rests (served : conversation.serving = .served)
    (pumped : (conversation.guest.task 0).phase ≠ .idle)
    (returned : (conversation.host.task 0).phase.returned ≠ none) (party : Party)
    {action : ConversationAction} (works : party.Works action) :
    conversation.step text handler action = none := by
  cases action with
  | hostPolls =>
      rw [Conversation.step, Conversation.hostStep, Option.map_eq_none_iff,
        Option.map_eq_none_iff, Transport.step]
      split
      · next awaits => exact absurd (by rw [awaits]; rfl) returned
      · next line yields => exact absurd (by rw [yields]; rfl) returned
      · rfl
  | hostHandlerReturns result =>
      rw [Conversation.step, Conversation.hostStep, Option.map_eq_none_iff,
        Option.map_eq_none_iff, Transport.step]
      split
      · next request handles => exact absurd (by rw [handles]; rfl) returned
      · rfl
  | guestPumps =>
      rw [Conversation.step, Conversation.guestStep, Option.map_eq_none_iff, Transport.step]
      split
      · next idle => exact absurd idle pumped
      · rfl
  | guestPolls | guestCalls | guestContinues | guestReturns =>
      simp only [Conversation.step, served]
  | hostCalls | guestExits => cases party <;> cases works

/-- A played run is attended, with silence after it, if the text of its messages is
faithful, the host's call has returned and the guest's handler has ended. -/
theorem Attended.ofActions {actions : List ConversationAction}
    (enabled : (Run.play (Conversation.step text handler) .new actions).isSome)
    {messages : List RpcMessage} (wrote : writtenIn ((Run.play (Conversation.step text handler)
      .new actions).get enabled).1 = messages)
    (faithful : forall message, message ∈ messages -> text.Faithful message.serialize)
    (served : ((Run.play (Conversation.step text handler) .new actions).get
      enabled).2.serving = .served)
    (pumped : (((Run.play (Conversation.step text handler) .new actions).get
      enabled).2.guest.task 0).phase ≠ .idle)
    (returned : (((Run.play (Conversation.step text handler) .new actions).get
      enabled).2.host.task 0).phase.returned ≠ none) :
    Attended (.ofActions actions enabled) where
  faithful := Path.ofActions_meets enabled (writesFaithfully_of wrote faithful)
  fair party := Path.ofActions_fair enabled fun _ works => party.rests served pumped returned works

/-- The conversation about a quote, with silence after it. -/
def quotePath : Path (Conversation.step quoteText quote) .new :=
  .ofActions quoteActions quote_enabled

theorem quotePath_attended : Attended quotePath :=
  .ofActions quote_enabled (rfl : _ = quoteMessages) quote_faithful rfl Phase.noConfusion
    (Option.some_ne_none _)

/-- The host's call of the quote returns, and so does the guest's question. -/
theorem quote_returns :
    (Exists fun later => 2 ≤ later ∧
      ((quotePath.state later).host.task 0).phase.returned ≠ none) ∧
    Exists fun later => 4 ≤ later ∧
      ((quotePath.state later).guest.task 1).phase.returned ≠ none :=
  have law := every_call_returns quotePath_attended
  ⟨law.1 2 (List.cons_ne_nil _ _), law.2 0 4 (Nat.lt_succ_self 0)⟩

end Rpc
end WasmiPlugin
