import WasmiPlugin.Rpc.Agreement

namespace WasmiPlugin
namespace Rpc

open Foundation

/-!
# A remote call is an evaluation

A guest's handler is a program that calls the host on its way.  What such a
program means needs no transports: every call is answered at once, by a host
whose answer may depend on everything it was asked before.  This is `evaluate`.

Over the two transports, with their pipes, ids and pumps, and for every
interleaving of the two sides, a call of the host returns exactly what the
evaluation of the guest's handler comes to, and the host's handler is invoked
exactly as the evaluation asks, in the same order.
-/

/-- A host as the guest sees it: its answer to the last of the invocations so far. -/
abbrev HostAnswer := List Invocation -> Except RpcError Value

/-- What a call returns when its handler came to a result. -/
def returnedAs (id : UInt64) (result : Except RpcError Value) : Except RpcError RpcResponse :=
  result.map fun value => ⟨jsonRpcVersion, id, value⟩

/-- The result of a program, and everything it asked, if a host answers each of its
calls at once.  The ids of its calls are their numbers. -/
def HandlerProgram.evaluate (answer : HostAnswer) :
    List Invocation -> HandlerProgram -> Except RpcError Value × List Invocation
  | asked, .ret result => (result, asked)
  | asked, .call method params next =>
      (next (returnedAs (UInt64.ofNat asked.length)
        (answer (asked ++ [(method, params)])))).evaluate answer (asked ++ [(method, params)])

theorem HandlerProgram.evaluate_asks (answer : HostAnswer) (program : HandlerProgram)
    (asked : List Invocation) : asked <+: (program.evaluate answer asked).2 := by
  induction program generalizing asked with
  | ret result => exact List.prefix_rfl
  | call method params next inductionHypothesis =>
      exact (List.prefix_append _ _).trans (inductionHypothesis _ _)

/-- The host's handler returns what the host answers. -/
def Answers (answer : HostAnswer) (taken : Transition Conversation ConversationAction) : Prop :=
  forall result, taken.action = .hostHandlerReturns result ->
    result = answer taken.before.hostInvocations

variable {text : JsonText} {handler : String -> Value -> HandlerProgram} {answer : HostAnswer}

def Conversation.evaluation (answer : HostAnswer) (handler : String -> Value -> HandlerProgram)
    (conversation : Conversation) : Option (Except RpcError Value × List Invocation) :=
  conversation.hostCalls.head?.map fun invocation =>
    (handler invocation.1 invocation.2).evaluate answer []

/-! ## How far the evaluation has come -/

/-- What remains to be done from where the guest's handler stands, if it stands
somewhere: a program and what it has asked. -/
def Conversation.remaining (answer : HostAnswer) (conversation : Conversation) :
    Option (Except RpcError Value × List Invocation) :=
  match conversation.serving with
  | .notYet => none
  | .running program => some (program.evaluate answer conversation.guestCalls)
  | .calling next => some ((next (returnedAs (UInt64.ofNat (conversation.guestCalls.length - 1))
      (answer conversation.guestCalls))).evaluate answer conversation.guestCalls)
  | .served => conversation.guestResults.head?.map fun result => (result, conversation.guestCalls)

/-- A conversation is on the course of the evaluation: what remains comes to the
same as the whole, and the host has answered as it should. -/
structure OnCourse (answer : HostAnswer) (handler : String -> Value -> HandlerProgram)
    (conversation : Conversation) : Prop where
  remaining : conversation.serving ≠ .notYet ->
    conversation.remaining answer = conversation.evaluation answer handler
  answered : forall index, index < conversation.hostResults.length ->
    conversation.hostResults[index]? = some (answer (conversation.guestCalls.take (index + 1)))

private theorem OnCourse.congr {conversation next : Conversation}
    (course : OnCourse answer handler conversation)
    (serving : next.serving = conversation.serving)
    (hostCalls : next.hostCalls = conversation.hostCalls)
    (guestCalls : next.guestCalls = conversation.guestCalls)
    (hostResults : next.hostResults = conversation.hostResults)
    (guestResults : next.guestResults = conversation.guestResults) :
    OnCourse answer handler next := by
  refine ⟨fun stands => ?_, fun index before => ?_⟩
  · rw [serving] at stands
    have same := course.remaining stands
    simpa only [Conversation.remaining, Conversation.evaluation, serving, hostCalls, guestCalls,
      guestResults] using same
  · rw [hostResults] at before
    rw [hostResults, guestCalls]
    exact course.answered index before

/-- Before the guest has read the request nothing has been asked. -/
theorem Stage.of_notYet {conversation : Conversation} (stage : Stage text conversation)
    (unserved : conversation.serving = .notYet) :
    Exists fun inbox => GuestFresh text conversation inbox := by
  cases stage with
  | starting _ _ guest => exact ⟨_, guest⟩
  | requested _ _ _ _ _ guest => exact ⟨_, guest⟩
  | between _ _ _ _ serving =>
      rcases serving with ⟨_, same⟩ | ⟨_, same⟩ <;> cases unserved.symm.trans same
  | asking _ _ _ _ _ calling => obtain ⟨_, ⟨⟩⟩ := calling.stands unserved
  | hosting _ _ _ _ calling => obtain ⟨_, ⟨⟩⟩ := calling.stands unserved
  | answering _ _ _ _ _ _ calling => obtain ⟨_, ⟨⟩⟩ := calling.stands unserved
  | replied _ _ _ _ _ _ guest => cases unserved.symm.trans guest.serving
  | finished _ _ _ guest => cases unserved.symm.trans guest.serving

/-- While the host handles a request, it is the guest's latest call. -/
theorem Stage.of_handling {conversation : Conversation} (stage : Stage text conversation)
    {request : RpcRequest} (handling : (conversation.host.task 0).phase = .handling request) :
    conversation.hostInvocations = conversation.guestCalls ∧
      conversation.guestCalls.length = conversation.hostResults.length + 1 ∧
      conversation.guestCalls.getLast? = some request.invocation ∧
      Exists fun next => conversation.serving = .calling next := by
  cases stage with
  | starting host =>
      rw [host] at handling
      cases handling
  | requested _ _ _ _ host => cases host.reading handling
  | between host => cases host.reading handling
  | asking _ _ _ host => cases host.reading handling
  | answering _ _ _ _ host => cases host.reading handling
  | replied _ _ _ _ _ host => cases host.reading handling
  | finished result host =>
      rw [host] at handling
      cases result <;> cases handling
  | hosting asked earlier host guest calling invoked results =>
      cases handling.symm.trans host.phase
      exact ⟨invoked, by rw [results, calling.latest],
        by rw [calling.calls, List.getLast?_concat], calling.serving⟩

/-- When the latest call of the guest has returned, it returned the host's latest
result. -/
theorem Stage.of_returned {conversation : Conversation} (stage : Stage text conversation)
    {next : Except RpcError RpcResponse -> HandlerProgram}
    (waiting : conversation.serving = .calling next) {result : Except RpcError RpcResponse}
    (returned : (conversation.guest.task conversation.guestCalls.length).phase.returned =
      some result) :
    Exists fun last => conversation.guestCalls.length = last + 1 ∧
      conversation.hostResults.length = last + 1 ∧
      Exists fun value => conversation.hostResults[last]? = some value ∧
        result = returnedAs (UInt64.ofNat last) value := by
  cases stage with
  | starting _ _ guest => cases waiting.symm.trans guest.serving
  | requested _ _ _ _ _ guest => cases waiting.symm.trans guest.serving
  | between host reader guest past serving invoked results =>
      cases made : conversation.guestCalls.length with
      | zero =>
          rcases guest.pump with ⟨_, _, handling, _⟩
          rw [made, handling] at returned
          cases returned
      | succ last =>
          rcases past.returned last (by omega) with ⟨value, listed, stands⟩
          rw [made, stands, outcome_returned] at returned
          exact ⟨last, rfl, results.trans made, value, listed, (Option.some.inj returned).symm⟩
  | asking _ _ _ _ _ calling => cases calling.unreturned.symm.trans returned
  | hosting _ _ _ _ calling => cases calling.unreturned.symm.trans returned
  | answering _ _ _ _ _ _ calling => cases calling.unreturned.symm.trans returned
  | replied _ _ _ _ _ _ guest => cases waiting.symm.trans guest.serving
  | finished _ _ _ guest => cases waiting.symm.trans guest.serving

/-! ## Every step -/

variable {conversation next : Conversation}

private theorem OnCourse.hostStep {action : TransportAction}
    (course : OnCourse answer handler conversation)
    (stepped : conversation.hostStep text action = some next) :
    OnCourse answer handler next := by
  rcases hostStep_eq stepped with ⟨host, _, rfl⟩
  exact course.congr rfl rfl rfl rfl rfl

private theorem OnCourse.guestStep {action : TransportAction}
    (course : OnCourse answer handler conversation)
    (stepped : conversation.guestStep text action = some next) :
    OnCourse answer handler next := by
  rcases guestStep_eq stepped with ⟨guest, _, rfl⟩
  exact course.congr rfl rfl rfl rfl rfl

private theorem OnCourse.guestInvokes {request : RpcRequest}
    (course : OnCourse answer handler conversation) (asked : conversation.guestCalls = [])
    (calls : conversation.hostCalls = [request.invocation])
    (handled : conversation.guest.handled 0 = some request) :
    OnCourse answer handler (conversation.guestInvokes handler) := by
  refine ⟨fun _ => ?_, ?_⟩
  · simp only [Conversation.guestInvokes, handled, Conversation.remaining, Conversation.evaluation,
      calls, asked, List.head?_cons, Option.map_some, RpcRequest.invocation]
  · simp only [Conversation.guestInvokes, handled]
    exact course.answered

private theorem OnCourse.hostCalls {method : String} {params : Value}
    (stage : Stage text conversation)
    (stepped : conversation.step text handler (.hostCalls method params) = some next) :
    OnCourse answer handler next := by
  rcases Option.map_eq_some_iff.mp stepped with ⟨_, moved, same⟩
  rcases hostStep_eq moved with ⟨host, called, rfl⟩
  subst same
  have guest := (stage.host_idle (Transport.step_call called).1).2.2
  refine ⟨fun stands => absurd guest.serving stands, ?_⟩
  simp only [guest.hostResults, List.length_nil, Nat.not_lt_zero, false_implies, implies_true]

/-- The host's result is the answer to the latest of the guest's calls. -/
private theorem OnCourse.hostHandlerReturns {result : Except RpcError Value}
    (stage : Stage text conversation) (course : OnCourse answer handler conversation)
    (stepped : conversation.step text handler (.hostHandlerReturns result) = some next)
    (answers : Answers answer ⟨conversation, .hostHandlerReturns result, next⟩) :
    OnCourse answer handler next := by
  rcases Option.map_eq_some_iff.mp stepped with ⟨_, moved, same⟩
  rcases hostStep_eq moved with ⟨host, returned, rfl⟩
  subst same
  rcases Transport.step_handlerReturns returned with ⟨request, _, handling, _⟩
  rcases stage.of_handling handling with ⟨invoked, latest, _⟩
  refine ⟨course.remaining, fun index before => ?_⟩
  dsimp only at before ⊢
  rw [List.length_append, List.length_singleton] at before
  rcases Nat.lt_succ_iff_lt_or_eq.mp before with before | rfl
  · rw [List.getElem?_append_left before]
    exact course.answered index before
  · rw [List.getElem?_concat_length, ← latest, List.take_length, answers result rfl, invoked]

/-- The guest listens for the request.  Once it has read one it serves the host's
call. -/
private theorem OnCourse.guestListens (stage : Stage text conversation)
    (course : OnCourse answer handler conversation) (unserved : conversation.serving = .notYet)
    (stepped : (conversation.guestStep text (.poll 0)).map (·.guestInvokes handler) = some next)
    (after : Stage text next) : OnCourse answer handler next := by
  rcases stage.of_notYet unserved with ⟨inbox, guest⟩
  rcases Option.map_eq_some_iff.mp stepped with ⟨middle, moved, same⟩
  have kept := course.guestStep moved
  rcases guestStep_eq moved with ⟨polled, _, rfl⟩
  cases handled : polled.handled 0 with
  | none =>
      simp only [Conversation.guestInvokes, handled] at same
      rw [← same]
      exact kept
  | some request =>
      -- the guest has just begun to serve, so this is the request of the host's call
      have began := same
      simp only [Conversation.guestInvokes, handled] at began
      rcases (after.of_running (by rw [← began])).2.2.1.pump with ⟨served, _, handling, calls⟩
      rw [← began] at handling calls
      have again : polled.handled 0 = some served := by
        rw [Transport.handled, handling]
      cases handled.symm.trans again
      rw [← same]
      exact kept.guestInvokes guest.guestCalls calls handled

private theorem OnCourse.guestPolls (stage : Stage text conversation)
    (course : OnCourse answer handler conversation)
    (stepped : conversation.step text handler .guestPolls = some next)
    (after : Stage text next) : OnCourse answer handler next := by
  simp only [Conversation.step] at stepped
  split at stepped
  · next unserved => exact course.guestListens stage unserved stepped after
  · next waiting => exact course.guestStep stepped
  · cases stepped

/-- A call of the guest's handler is the next question of its evaluation. -/
private theorem OnCourse.guestCalls (stage : Stage text conversation)
    (course : OnCourse answer handler conversation)
    (stepped : conversation.step text handler .guestCalls = some next) :
    OnCourse answer handler next := by
  simp only [Conversation.step] at stepped
  split at stepped
  · next method params rest running =>
      rcases Option.map_eq_some_iff.mp stepped with ⟨_, moved, same⟩
      rcases guestStep_eq moved with ⟨_, _, rfl⟩
      subst same
      have counted := (stage.of_running running).2.2.2.2.2
      refine ⟨fun _ => ?_, fun index before => ?_⟩
      · have same := course.remaining
          (by simp only [running, ne_eq, reduceCtorEq, not_false_eq_true])
        simp only [Conversation.remaining, running, HandlerProgram.evaluate] at same
        refine Eq.trans ?_ same
        simp only [Conversation.remaining, List.length_append, List.length_singleton,
          Nat.add_sub_cancel]
      · dsimp only at before ⊢
        rw [course.answered index before, List.take_append_of_le_length (by omega)]
  · cases stepped

private theorem OnCourse.guestContinues (stage : Stage text conversation)
    (course : OnCourse answer handler conversation)
    (stepped : conversation.step text handler .guestContinues = some next) :
    OnCourse answer handler next := by
  simp only [Conversation.step] at stepped
  split at stepped
  · next rest result waiting returned =>
      cases stepped
      rcases stage.of_returned waiting returned with ⟨last, made, counted, value, listed, same⟩
      refine ⟨fun _ => ?_, course.answered⟩
      have whole := course.remaining
        (by simp only [waiting, ne_eq, reduceCtorEq, not_false_eq_true])
      have said := course.answered last (by omega)
      rw [← made, List.take_length, listed] at said
      cases said
      simp only [Conversation.remaining, waiting, made, Nat.add_sub_cancel] at whole
      rw [← same] at whole
      exact whole
  · cases stepped

private theorem OnCourse.guestReturns (stage : Stage text conversation)
    (course : OnCourse answer handler conversation)
    (stepped : conversation.step text handler .guestReturns = some next) :
    OnCourse answer handler next := by
  simp only [Conversation.step] at stepped
  split at stepped
  · next result running =>
      have fresh := (stage.of_running running).2.2.1.results
      rcases Option.map_eq_some_iff.mp stepped with ⟨_, moved, same⟩
      rcases guestStep_eq moved with ⟨_, _, rfl⟩
      subst same
      refine ⟨fun _ => ?_, course.answered⟩
      have whole := course.remaining
        (by simp only [running, ne_eq, reduceCtorEq, not_false_eq_true])
      simp only [Conversation.remaining, running, HandlerProgram.evaluate] at whole
      refine Eq.trans ?_ whole
      simp only [Conversation.remaining, fresh, List.nil_append, List.head?_cons, Option.map_some]
  · cases stepped

private theorem OnCourse.guestExits (course : OnCourse answer handler conversation)
    (stepped : conversation.step text handler .guestExits = some next) :
    OnCourse answer handler next := by
  simp only [Conversation.step] at stepped
  split at stepped
  · rcases Option.map_eq_some_iff.mp stepped with ⟨host, _, rfl⟩
    exact course.congr rfl rfl rfl rfl rfl
  · cases stepped

theorem OnCourse.step {action : ConversationAction} (stage : Stage text conversation)
    (course : OnCourse answer handler conversation)
    (stepped : conversation.step text handler action = some next)
    (faithful : WritesFaithfully text ⟨conversation, action, next⟩)
    (answers : Answers answer ⟨conversation, action, next⟩) :
    OnCourse answer handler next := by
  cases action with
  | hostCalls method params => exact OnCourse.hostCalls stage stepped
  | hostPolls =>
      rcases Option.map_eq_some_iff.mp stepped with ⟨_, moved, same⟩
      rw [← same]
      exact (course.hostStep moved).congr rfl rfl rfl rfl rfl
  | hostHandlerReturns result => exact course.hostHandlerReturns stage stepped answers
  | guestPumps => exact course.guestStep stepped
  | guestPolls => exact course.guestPolls stage stepped (stage.step stepped faithful)
  | guestCalls => exact course.guestCalls stage stepped
  | guestContinues => exact course.guestContinues stage stepped
  | guestReturns => exact course.guestReturns stage stepped
  | guestExits => exact course.guestExits stepped

/-! ## Every run -/

theorem OnCourse.new : OnCourse answer handler .new :=
  ⟨fun stands => absurd rfl stands, fun _ before => absurd before (Nat.not_lt_zero _)⟩

theorem Stage.single (stage : Stage text conversation) : conversation.hostCalls.length ≤ 1 := by
  have serves (guest : GuestServes text conversation) : conversation.hostCalls.length ≤ 1 := by
    rcases guest.pump with ⟨_, _, _, calls⟩
    rw [calls]
    exact Nat.le_refl 1
  cases stage with
  | starting _ calls =>
      rw [calls]
      exact Nat.zero_le 1
  | requested _ _ _ calls =>
      rw [calls]
      exact Nat.le_refl 1
  | between _ _ guest => exact serves guest
  | asking _ _ _ _ guest => exact serves guest
  | hosting _ _ _ guest => exact serves guest
  | answering _ _ _ _ _ guest => exact serves guest
  | replied _ _ _ _ _ _ guest => exact Nat.le_of_eq guest.calls
  | finished _ _ _ guest => exact Nat.le_of_eq guest.calls

theorem Stage.only (stage : Stage text conversation) {call : Invocation}
    (called : call ∈ conversation.hostCalls) : conversation.hostCalls = [call] := by
  have single := stage.single
  match conversation.hostCalls, called, single with
  | [only], member, _ => rw [List.mem_singleton.mp member]

/-- What the guest has called is a part of what the evaluation asks. -/
private theorem OnCourse.called (course : OnCourse answer handler conversation)
    (stands : conversation.serving ≠ .notYet)
    {evaluated : Except RpcError Value × List Invocation}
    (whole : conversation.evaluation answer handler = some evaluated) :
    conversation.guestCalls <+: evaluated.2 := by
  have same := (course.remaining stands).trans whole
  unfold Conversation.remaining at same
  split at same
  · cases same
  · next program _ =>
      rw [← Option.some.inj same]
      exact program.evaluate_asks answer _
  · next rest _ =>
      rw [← Option.some.inj same]
      exact (rest _).evaluate_asks answer _
  · rcases Option.map_eq_some_iff.mp same with ⟨_, _, shape⟩
    subst shape
    exact List.prefix_rfl

private theorem OnCourse.asked (stage : Stage text conversation)
    (course : OnCourse answer handler conversation)
    {evaluated : Except RpcError Value × List Invocation}
    (whole : conversation.evaluation answer handler = some evaluated) :
    conversation.hostInvocations <+: evaluated.2 := by
  by_cases unserved : conversation.serving = .notYet
  · rcases stage.of_notYet unserved with ⟨_, guest⟩
    rw [guest.hostInvocations]
    exact List.nil_prefix
  · exact stage.agreed.2.once.trans (course.called unserved whole)

/-- When the host's call has returned, the guest has answered. -/
theorem Stage.of_hostReturned (stage : Stage text conversation)
    {result : Except RpcError RpcResponse}
    (returned : (conversation.host.task 0).phase.returned = some result) :
    Exists fun value => GuestDone conversation value ∧ result = returnedAs 0 value := by
  cases stage with
  | starting host =>
      rw [host] at returned
      cases returned
  | requested _ _ _ _ host =>
      cases (returned_of_partialLine host.awaits.phase).symm.trans returned
  | between host => cases (returned_of_partialLine host.awaits.phase).symm.trans returned
  | asking _ _ _ host => cases (returned_of_partialLine host.awaits.phase).symm.trans returned
  | answering _ _ _ _ host =>
      cases (returned_of_partialLine host.awaits.phase).symm.trans returned
  | replied _ _ _ _ _ host =>
      cases (returned_of_partialLine host.awaits.phase).symm.trans returned
  | hosting _ _ host =>
      rw [host.phase] at returned
      cases returned
  | finished value host others guest =>
      rw [host, outcome_returned] at returned
      exact ⟨value, guest, (Option.some.inj returned).symm⟩

/-- What a conversation on the course has come to, compared with the evaluation. -/
theorem OnCourse.compared (stage : Stage text conversation)
    (course : OnCourse answer handler conversation) {method : String} {params : Value}
    (called : (method, params) ∈ conversation.hostCalls) :
    let evaluated := (handler method params).evaluate answer []
    conversation.hostInvocations <+: evaluated.2 ∧
      forall result, (conversation.host.task 0).phase.returned = some result ->
        result = returnedAs 0 evaluated.1 ∧ conversation.hostInvocations = evaluated.2 := by
  intro evaluated
  have whole : conversation.evaluation answer handler = some evaluated := by
    rw [Conversation.evaluation, stage.only called]
    rfl
  refine ⟨course.asked stage whole, fun result returned => ?_⟩
  rcases stage.of_hostReturned returned with ⟨value, guest, same⟩
  have remains := course.remaining (by rw [guest.serving]; exact nofun)
  simp only [Conversation.remaining, guest.serving, guest.results, List.head?_cons,
    Option.map_some, whole, Option.some.injEq] at remains
  rw [← remains, guest.answered]
  exact ⟨same, rfl⟩

/-- In every run the host's handler is asked, in order, a part of what the
evaluation of the guest's handler asks.  When the host's call has returned, it
was asked all of that, and the call returned what the evaluation came to. -/
theorem remote_call_evaluates {history : List (Transition Conversation ConversationAction)}
    {final : Conversation} (run : Run (Conversation.step text handler) .new history final)
    (faithful : forall taken, taken ∈ history -> WritesFaithfully text taken)
    (answers : forall taken, taken ∈ history -> Answers answer taken)
    {method : String} {params : Value} (called : (method, params) ∈ final.hostCalls) :
    let evaluated := (handler method params).evaluate answer []
    final.hostInvocations <+: evaluated.2 ∧
      forall result, (final.host.task 0).phase.returned = some result ->
        result = returnedAs 0 evaluated.1 ∧ final.hostInvocations = evaluated.2 := by
  have reached := run.invariantWithin
    (fun conversation => Stage text conversation ∧ OnCourse answer handler conversation)
    (fun taken => WritesFaithfully text taken ∧ Answers answer taken) ⟨.new, .new⟩
    (fun taken member => ⟨faithful taken member, answers taken member⟩)
    fun _ _ _ holds stepped meets =>
      ⟨holds.1.step stepped meets.1, holds.2.step holds.1 stepped meets.1 meets.2⟩
  exact reached.1.2.compared reached.1.1 called

def knowsNothing : HostAnswer := fun _ => .error .methodNotFound

theorem quote_answers (taken : Transition Conversation ConversationAction)
    (member : taken ∈ ((Run.play (Conversation.step quoteText quote) .new quoteActions).get
      quote_enabled).1) : Answers knowsNothing taken := by
  intro result returns
  have listed : taken.action ∈ quoteActions :=
    List.mem_map_of_mem (f := Transition.action) member
  rw [returns] at listed
  simp only [quoteActions, List.mem_cons, List.not_mem_nil, reduceCtorEq, false_or, or_false,
    ConversationAction.hostHandlerReturns.injEq] at listed
  exact listed

/-- The evaluation of the quote asks for the price and gets none, and so the call
returns the quote that is made without it. -/
theorem quote_evaluates :
    let final := ((Run.play (Conversation.step quoteText quote) .new quoteActions).get
      quote_enabled).2
    final.hostInvocations <+: [("price", .bool true)] ∧
      forall result, (final.host.task 0).phase.returned = some result ->
        result = .ok ⟨jsonRpcVersion, 0, .null⟩ ∧
          final.hostInvocations = [("price", .bool true)] :=
  remote_call_evaluates (Run.of_enabled quoteActions quote_enabled) quote_writes quote_answers
    (show ("quote", Value.bool true) ∈ _ from List.mem_cons_self)

end Rpc
end WasmiPlugin
