import WasmiPlugin.Rpc.Stages

namespace WasmiPlugin
namespace Rpc

open Foundation

/-!
# The two parties agree

Whatever the host's and the guest's handlers do and however the two sides are
interleaved, each call causes at most one invocation of the peer's handler, with
its own method and parameters, and returns what that invocation returned.

Every step leads from a stage of the conversation to a stage, and in every stage
both directions agree.
-/

variable {text : JsonText}

/-! ## Steps of the host -/

/-- The text of everything that a step writes is faithful. -/
def WritesFaithfully (text : JsonText) (taken : Transition Conversation ConversationAction) :
    Prop :=
  forall message, message ∈ taken.before.host.wrote taken.after.host ++
    taken.before.guest.wrote taken.after.guest -> text.Faithful message.serialize

/-- The messages that are written in some steps. -/
def writtenIn (history : List (Transition Conversation ConversationAction)) : List RpcMessage :=
  history.flatMap fun taken =>
    taken.before.host.wrote taken.after.host ++ taken.before.guest.wrote taken.after.guest

/-- If the text of all messages of a run is faithful, so is what a step of it writes. -/
theorem writesFaithfully_of {history : List (Transition Conversation ConversationAction)}
    {messages : List RpcMessage} (wrote : writtenIn history = messages)
    (faithful : forall message, message ∈ messages -> text.Faithful message.serialize) :
    forall taken, taken ∈ history -> WritesFaithfully text taken := by
  intro taken member message written
  apply faithful
  rw [← wrote]
  exact List.mem_flatMap.mpr ⟨taken, member, written⟩

variable {handler : String -> Value -> HandlerProgram}

theorem hostStep_eq {conversation next : Conversation} {action : TransportAction}
    (stepped : conversation.hostStep text action = some next) :
    Exists fun host => conversation.host.step text action = some host ∧
      next = { conversation with
        host := host
        guest := conversation.guest.hear text (conversation.host.wrote host) } := by
  rcases Option.map_eq_some_iff.mp stepped with ⟨host, moved, same⟩
  exact ⟨host, moved, same.symm⟩

theorem guestStep_eq {conversation next : Conversation} {action : TransportAction}
    (stepped : conversation.guestStep text action = some next) :
    Exists fun guest => conversation.guest.step text action = some guest ∧
      next = { conversation with
        guest := guest
        host := conversation.host.hear text (conversation.guest.wrote guest) } := by
  rcases Option.map_eq_some_iff.mp stepped with ⟨guest, moved, same⟩
  exact ⟨guest, moved, same.symm⟩

theorem Stage.host_idle {conversation : Conversation} (stage : Stage text conversation)
    (idle : (conversation.host.task 0).phase = .idle) :
    conversation.host = .new ⟨[], [], false⟩ true ∧ conversation.hostCalls = [] ∧
      GuestFresh text conversation [] := by
  cases stage with
  | starting host calls guest => exact ⟨host, calls, guest⟩
  | requested _ _ _ _ host => cases host.reading idle
  | between host => cases host.reading idle
  | asking _ _ _ host => cases host.reading idle
  | answering _ _ _ _ host => cases host.reading idle
  | replied _ _ _ _ _ host => cases host.reading idle
  | hosting request earlier host => cases host.phase.symm.trans idle
  | finished result host =>
      rw [host] at idle
      cases result <;> cases idle

private theorem Stage.hostCalls {conversation next : Conversation} {method : String}
    {params : Value} (stage : Stage text conversation)
    (stepped : conversation.step text handler (.hostCalls method params) = some next)
    (faithful : WritesFaithfully text ⟨conversation, .hostCalls method params, next⟩) :
    Stage text next := by
  rcases Option.map_eq_some_iff.mp stepped with ⟨_, moved, same⟩
  rcases hostStep_eq moved with ⟨host, called, rfl⟩
  subst same
  rcases Transport.step_call called with
    ⟨idle, own, entry, _, handles, reader, written, others⟩
  rcases stage.host_idle idle with ⟨start, calls, guest⟩
  have wrote := wrote_of_append written
  have zero : conversation.host.id = 0 := by rw [start]; rfl
  rw [zero] at own entry wrote
  apply Stage.requested ⟨jsonRpcVersion, 0, method, params⟩
  · apply faithful
    rw [wrote]
    exact List.mem_cons_self
  · rfl
  · dsimp only
    rw [calls]
    rfl
  · refine ⟨⟨entry, ?_, fun task different => ?_⟩, ⟨?_, ?_, ?_, ?_⟩⟩
    · dsimp only
      rw [handles, start]
      rfl
    · dsimp only
      rw [(others task different).1, start]
      rfl
    · rw [own]
      rfl
    · rw [own]
    · rw [own]
    · rw [reader, start]
      rfl
  · rw [wrote]
    exact { guest with
      pump := guest.pump.imp id fun awaits => awaits.hear _
      reader := hear_holding guest.reader _ }

theorem handled_of_partialLine {transport : Transport} {task : TaskId} {line : List UInt8}
    (reading : (transport.task task).phase.partialLine = some line) :
    transport.handled task = none := by
  unfold Transport.handled
  split
  · next request handling =>
      rw [handling] at reading
      cases reading
  · rfl

/-- When the host polls its transport, what that did to the transport is all that
happened, unless the transport read a request and its handler was invoked. -/
theorem hostPolls_eq {conversation next : Conversation}
    (stepped : conversation.step text handler .hostPolls = some next) :
    Exists fun host => conversation.host.step text (.poll 0) = some host ∧
      (host.written = conversation.host.written -> next = { conversation with
        host := host
        hostInvocations := conversation.hostInvocations ++
          ((host.handled 0).map RpcRequest.invocation).toList }) := by
  rcases Option.map_eq_some_iff.mp stepped with ⟨_, moved, same⟩
  rcases hostStep_eq moved with ⟨host, polled, rfl⟩
  refine ⟨host, polled, fun written => ?_⟩
  rw [← same, wrote_nothing written, hear_nil]
  rfl

/-- A host that waits and has nothing to read is polled without effect: it waits as
before. -/
theorem HostWaits.silent {conversation next : Conversation}
    (host : HostWaits text conversation.host [] false)
    (stepped : conversation.step text handler .hostPolls = some next) :
    Exists fun after => next = { conversation with host := after } ∧
      HostWaits text after [] false := by
  rcases hostPolls_eq stepped with ⟨after, polled, shape⟩
  rcases host.awaits.silent polled with ⟨awaits, beside, pending, written⟩
  refine ⟨after, ?_, host.toHostCall.beside beside pending, awaits⟩
  rw [shape written, handled_of_partialLine awaits.phase]
  simp only [Option.map_none, Option.toList_none, List.append_nil]

theorem poll_reading {transport next : Transport} {task : TaskId}
    (stepped : transport.step text (.poll task) = some next) :
    (transport.task task).phase.partialLine ≠ none := by
  rcases Transport.step_poll stepped with ⟨line, reading, _⟩
  rw [reading]
  exact Option.some_ne_none line

private theorem Stage.hostPolls {conversation next : Conversation}
    (stage : Stage text conversation)
    (stepped : conversation.step text handler .hostPolls = some next) : Stage text next := by
  rcases hostPolls_eq stepped with ⟨after, polled, shape⟩
  have reading := poll_reading polled
  cases stage with
  | starting host calls guest =>
      rw [host] at reading
      exact absurd rfl reading
  | requested request faithful id calls host guest =>
      rcases host.silent stepped with ⟨_, same, waits⟩
      subst same
      exact .requested request faithful id calls waits { guest with }
  | between host reader guest past serving invoked results =>
      rcases host.silent stepped with ⟨_, same, waits⟩
      subst same
      exact .between waits reader { guest with } { past with } serving invoked results
  | answering request earlier result faithful host guest calling invoked results last =>
      rcases host.silent stepped with ⟨_, same, waits⟩
      subst same
      exact .answering request earlier result faithful waits { guest with }
        { calling with past := { calling.past with } } invoked results last
  | asking request earlier faithful host guest calling invoked results =>
      have served : conversation.host.hasHandler 0 = true := by
        simp only [Transport.hasHandler, host.awaits.kind, host.handler]
      rcases host.awaits.request faithful served polled with
        ⟨own, reader, beside, pending, written⟩
      have handled : after.handled 0 = some request := by
        unfold Transport.handled
        rw [own]
      rw [shape written, handled]
      apply Stage.hosting request earlier
      · refine ⟨host.toHostCall.beside beside pending, by rw [own], ?_, ?_, reader⟩
        · rw [own]
          exact host.awaits.kind
        · rw [own]
          exact host.awaits.channel
      · exact { guest with }
      · exact { calling with past := { calling.past with } }
      · dsimp only
        rw [invoked, calling.calls]
        rfl
      · exact results
  | hosting request earlier host guest calling invoked results =>
      rw [host.phase] at reading
      exact absurd rfl reading
  | replied request result closed faithful id host guest =>
      have entry : conversation.host.pending request.id = some 0 := by
        rw [id]
        exact host.entry
      rcases host.awaits.returns faithful entry polled with ⟨own, reader, beside, written⟩
      rw [id] at own
      have handled : after.handled 0 = none := by
        unfold Transport.handled
        rw [own]
        cases result <;> rfl
      rw [shape written, handled]
      apply Stage.finished result own
      · intro task different
        dsimp only
        rw [beside.others task different]
        exact host.others task different
      · refine { guest with past := { guest.past with }, answered := ?_ }
        dsimp only
        rw [← guest.answered]
        exact List.append_nil _
  | finished result host others guest =>
      rw [host] at reading
      cases result <;> exact absurd rfl reading

/-- A further result of the host does not change those that the guest's calls
have returned. -/
private theorem Past.append {conversation after : Conversation} {ended : Nat}
    (past : Past conversation ended) (counted : conversation.hostResults.length = ended)
    {result : Except RpcError Value}
    (results : after.hostResults = conversation.hostResults ++ [result])
    (calls : after.guestCalls = conversation.guestCalls)
    (tasks : forall task, (after.guest.task task).phase = (conversation.guest.task task).phase) :
    Past after ended where
  returned := by
    intro index before
    rcases past.returned index before with ⟨value, listed, same⟩
    refine ⟨value, ?_, by rw [tasks]; exact same⟩
    rw [results, List.getElem?_append_left (by omega)]
    exact listed
  ahead := by
    intro index beyond
    rw [calls] at beyond
    rw [tasks]
    exact past.ahead index beyond

private theorem Stage.hostHandlerReturns {conversation next : Conversation}
    {result : Except RpcError Value} (stage : Stage text conversation)
    (stepped : conversation.step text handler (.hostHandlerReturns result) = some next)
    (faithful : WritesFaithfully text ⟨conversation, .hostHandlerReturns result, next⟩) :
    Stage text next := by
  rcases Option.map_eq_some_iff.mp stepped with ⟨_, moved, same⟩
  rcases hostStep_eq moved with ⟨host', returned, rfl⟩
  subst same
  rcases Transport.step_handlerReturns returned with
    ⟨request, phase, handling, own, written, reader, pending, beside, goesOn, _⟩
  cases stage with
  | starting host =>
      rw [host] at handling
      cases handling
  | requested _ _ _ _ host => cases host.reading handling
  | between host => cases host.reading handling
  | asking _ _ _ host => cases host.reading handling
  | answering _ _ _ _ host => cases host.reading handling
  | replied _ _ _ _ _ host => cases host.reading handling
  | finished value host =>
      rw [host] at handling
      cases value <;> cases handling
  | hosting asked earlier host guest calling invoked results =>
      cases handling.symm.trans host.phase
      have wrote := wrote_of_append written
      cases goesOn host.kind host.channel
      apply Stage.answering request earlier result
      · apply faithful
        rw [wrote]
        exact List.mem_cons_self
      · refine ⟨host.toHostCall.beside beside pending, ⟨?_, ?_, ?_, reader.trans host.reader⟩⟩
        · rw [own]
          rfl
        · rw [own]
          exact host.kind
        · rw [own]
          exact host.channel
      · rw [wrote]
        exact { guest with }
      · rw [wrote]
        exact { calling with
          awaits := calling.awaits.hear _
          past := calling.past.append results rfl rfl fun _ => rfl }
      · exact invoked
      · dsimp only
        rw [List.length_append, results]
        rfl
      · dsimp only
        rw [← results, List.getElem?_concat_length]

/-! ## Steps of the guest -/

theorem guestStep_quiet {conversation next : Conversation} {action : TransportAction}
    (stepped : conversation.guestStep text action = some next) :
    Exists fun guest => conversation.guest.step text action = some guest ∧
      (guest.written = conversation.guest.written ->
        next = { conversation with guest := guest }) := by
  rcases guestStep_eq stepped with ⟨guest, moved, same⟩
  refine ⟨guest, moved, fun written => ?_⟩
  rw [same, wrote_nothing written, hear_nil]

private theorem Past.kept {conversation after : Conversation} {ended task : Nat}
    (past : Past conversation ended) (results : after.hostResults = conversation.hostResults)
    (calls : conversation.guestCalls.length ≤ after.guestCalls.length)
    (others : forall other, other ≠ task ->
      (after.guest.task other).phase = (conversation.guest.task other).phase)
    (apart : forall index, index + 1 = task ->
      ended ≤ index ∧ index < after.guestCalls.length) : Past after ended where
  returned := by
    intro index before
    have different : index + 1 ≠ task := fun same =>
      Nat.not_lt_of_le (apart index same).1 before
    rw [results, others _ different]
    exact past.returned index before
  ahead := by
    intro index beyond
    have different : index + 1 ≠ task := fun same =>
      Nat.not_lt_of_le beyond (apart index same).2
    rw [others _ different]
    exact past.ahead index (Nat.le_trans calls beyond)

private theorem GuestServes.beside {conversation : Conversation} {task : TaskId}
    {after : Transport} (guest : GuestServes text conversation) (apart : task ≠ 0)
    (beside : Transport.Beside task conversation.guest after) :
    GuestServes text { conversation with guest := after } := by
  have pump : after.task 0 = conversation.guest.task 0 := beside.others 0 apart.symm
  refine { guest with pump := ?_, kind := ?_, id := ?_ }
  · rw [pump]
    exact guest.pump
  · rw [pump]
    exact guest.kind
  · rw [beside.id]
    exact guest.id

/-- A guest's call that is on its way and has nothing to read is polled without
effect: it is on its way as before. -/
theorem Calling.silent {conversation next : Conversation} {request : RpcRequest}
    {earlier : List Invocation} (calling : Calling text conversation request earlier [])
    (guest : GuestServes text conversation)
    (stepped : conversation.guestStep text (.poll conversation.guestCalls.length) = some next) :
    Exists fun after => next = { conversation with guest := after } ∧
      GuestServes text { conversation with guest := after } ∧
      Calling text { conversation with guest := after } request earlier [] := by
  rcases guestStep_quiet stepped with ⟨after, polled, shape⟩
  rw [calling.latest] at polled
  rcases calling.awaits.silent polled with ⟨awaits, beside, pending, written⟩
  refine ⟨after, shape written, guest.beside (Nat.succ_ne_zero _) beside, ?_⟩
  refine { calling with awaits := awaits, entry := ?_, past := ?_ }
  · dsimp only
    rw [pending]
    exact calling.entry
  · refine calling.past.kept rfl (Nat.le_refl _)
      (fun other different => congrArg Task.phase (beside.others other different)) ?_
    intro index same
    cases same
    exact ⟨Nat.le_refl _, by rw [calling.latest]; exact Nat.lt_succ_self _⟩

/-- The guest's transport is asked for one line only once. -/
private theorem Stage.guestPumps {conversation next : Conversation}
    (stage : Stage text conversation)
    (stepped : conversation.step text handler .guestPumps = some next) : Stage text next := by
  rcases guestStep_quiet stepped with ⟨after, pumped, shape⟩
  rcases Transport.step_processNextLine pumped with ⟨idle, own, same, beside, written⟩
  have fresh : forall {inbox}, GuestFresh text conversation inbox ->
      GuestFresh text { conversation with guest := after } inbox := by
    intro inbox guest
    have reader : after.reader = .holding text inbox false := same.trans guest.reader
    refine { guest with pump := .inr ?_, others := fun task different => ?_, id := ?_, reader }
    · exact ⟨by rw [own]; rfl, by rw [own], by rw [own], reader⟩
    · dsimp only
      rw [beside.others task different]
      exact guest.others task different
    · exact beside.id.trans guest.id
  have serves : ¬ GuestServes text conversation := by
    intro guest
    rcases guest.pump with ⟨_, _, handling, _⟩
    rw [idle] at handling
    cases handling
  have done : forall {result}, ¬ GuestDone conversation result := by
    intro result guest
    have ended := guest.pump
    rw [idle] at ended
    cases ended
  rw [shape written]
  cases stage with
  | starting host calls guest => exact .starting host calls (fresh guest)
  | requested request faithful id calls host guest =>
      exact .requested request faithful id calls host (fresh guest)
  | between _ _ guest => exact absurd guest serves
  | asking _ _ _ _ guest => exact absurd guest serves
  | hosting _ _ _ guest => exact absurd guest serves
  | answering _ _ _ _ _ guest => exact absurd guest serves
  | replied _ _ _ _ _ _ guest => exact absurd guest done
  | finished _ _ _ guest => exact absurd guest done

private theorem Stage.guestListens {conversation next : Conversation}
    (stage : Stage text conversation) (unserved : conversation.serving = .notYet)
    (stepped : (conversation.guestStep text (.poll 0)).map (·.guestInvokes handler) = some next) :
    Stage text next := by
  rcases Option.map_eq_some_iff.mp stepped with ⟨_, moved, rfl⟩
  rcases guestStep_quiet moved with ⟨after, polled, shape⟩
  have reads : forall {inbox}, GuestFresh text conversation inbox ->
      conversation.guest.Awaits text 0 (.pump true) inbox false := by
    intro inbox guest
    rcases guest.pump with idle | awaits
    · exact absurd (by rw [idle]; rfl) (poll_reading polled)
    · exact awaits
  cases stage with
  | starting host hostCalls guest =>
      rcases (reads guest).silent polled with ⟨awaits, beside, pending, written⟩
      have handled : after.handled 0 = none := handled_of_partialLine awaits.phase
      rw [shape written, Conversation.guestInvokes, handled]
      refine .starting host hostCalls { guest with
        pump := .inr awaits, others := fun task different => ?_, id := ?_, reader := awaits.reader }
      · dsimp only
        rw [beside.others task different]
        exact guest.others task different
      · exact beside.id.trans guest.id
  | requested request faithful id hostCalls host guest =>
      have served : conversation.guest.hasHandler 0 = true := by
        simp only [Transport.hasHandler, (reads guest).kind]
      rcases (reads guest).request faithful served polled with
        ⟨own, reader, beside, pending, written⟩
      have handled : after.handled 0 = some request := by
        unfold Transport.handled
        rw [own]
      rw [shape written, Conversation.guestInvokes, handled]
      refine .between host reader ?_ ⟨?_, ?_⟩ (.inl ⟨_, rfl⟩)
        (guest.hostInvocations.trans guest.guestCalls.symm) ?_
      · refine ⟨⟨request, id, by rw [own], hostCalls⟩, ?_, ?_, ?_, guest.guestResults⟩
        · rw [own]
          exact (reads guest).kind
        · dsimp only
          rw [beside.id, guest.id, guest.guestCalls]
          rfl
        · dsimp only
          rw [guest.guestInvocations, hostCalls]
          rfl
      · intro index before
        dsimp only at before
        rw [guest.guestCalls] at before
        exact absurd before (Nat.not_lt_zero index)
      · intro index _
        dsimp only
        rw [beside.others (index + 1) (Nat.succ_ne_zero index)]
        exact guest.others (index + 1) (Nat.succ_ne_zero index)
      · dsimp only
        rw [guest.hostResults, guest.guestCalls]
        rfl
  | between host reader guest past serving =>
      rcases serving with ⟨_, same⟩ | ⟨_, same⟩ <;> cases unserved.symm.trans same
  | asking _ _ _ _ _ calling => obtain ⟨_, ⟨⟩⟩ := calling.stands unserved
  | hosting _ _ _ _ calling => obtain ⟨_, ⟨⟩⟩ := calling.stands unserved
  | answering _ _ _ _ _ _ calling => obtain ⟨_, ⟨⟩⟩ := calling.stands unserved
  | replied _ _ _ _ _ _ guest => cases unserved.symm.trans guest.serving
  | finished _ _ _ guest => cases unserved.symm.trans guest.serving

private theorem Stage.guestAwaits {conversation next : Conversation}
    {rest : Except RpcError RpcResponse -> HandlerProgram}
    (stage : Stage text conversation) (calling : conversation.serving = .calling rest)
    (stepped : conversation.guestStep text (.poll conversation.guestCalls.length) = some next) :
    Stage text next := by
  cases stage with
  | starting host calls guest => cases calling.symm.trans guest.serving
  | requested request faithful id calls host guest => cases calling.symm.trans guest.serving
  | between host reader guest past serving =>
      rcases guestStep_quiet stepped with ⟨after, polled, _⟩
      have reading := poll_reading polled
      cases made : conversation.guestCalls.length with
      | zero =>
          rcases guest.pump with ⟨_, _, handling, _⟩
          rw [made, handling] at reading
          exact absurd rfl reading
      | succ last =>
          rcases past.returned last (by omega) with ⟨result, _, ended⟩
          rw [made, ended] at reading
          cases result <;> exact absurd rfl reading
  | asking request earlier faithful host guest calling invoked results =>
      rcases calling.silent guest stepped with ⟨after, rfl, guest, calling⟩
      exact .asking request earlier faithful host guest calling invoked results
  | hosting request earlier host guest calling invoked results =>
      rcases calling.silent guest stepped with ⟨after, rfl, guest, calling⟩
      exact .hosting request earlier host guest calling invoked results
  | answering request earlier result faithful host guest calling invoked results last =>
      rcases guestStep_quiet stepped with ⟨after, polled, shape⟩
      rw [calling.latest] at polled
      rcases calling.awaits.returns faithful calling.entry polled with
        ⟨own, reader, beside, written⟩
      rw [shape written]
      refine .between host reader (guest.beside (Nat.succ_ne_zero _) beside) ⟨?_, ?_⟩
        (.inr calling.serving) invoked (results.trans calling.latest.symm)
      · intro index before
        dsimp only at before
        rw [calling.latest] at before
        rcases Nat.lt_succ_iff_lt_or_eq.mp before with before | rfl
        · dsimp only
          rw [beside.others (index + 1) (Nat.ne_of_lt (Nat.succ_lt_succ before))]
          exact calling.past.returned index before
        · exact ⟨result, last, by rw [← calling.id]; exact own⟩
      · intro index beyond
        dsimp only at beyond
        have apart : index + 1 ≠ earlier.length + 1 := by
          rw [calling.latest] at beyond
          omega
        dsimp only
        rw [beside.others (index + 1) apart]
        exact calling.past.ahead index beyond
  | replied _ _ _ _ _ _ guest => cases calling.symm.trans guest.serving
  | finished _ _ _ guest => cases calling.symm.trans guest.serving

/-- While the guest's handler runs, nothing is under way. -/
theorem Stage.of_running {conversation : Conversation} {program : HandlerProgram}
    (stage : Stage text conversation) (running : conversation.serving = .running program) :
    HostWaits text conversation.host [] false ∧
      conversation.guest.reader = .holding text [] false ∧
      GuestServes text conversation ∧ Past conversation conversation.guestCalls.length ∧
      conversation.hostInvocations = conversation.guestCalls ∧
      conversation.hostResults.length = conversation.guestCalls.length := by
  cases stage with
  | starting _ _ guest => cases running.symm.trans guest.serving
  | requested _ _ _ _ _ guest => cases running.symm.trans guest.serving
  | between host reader guest past _ invoked results =>
      exact ⟨host, reader, guest, past, invoked, results⟩
  | asking _ _ _ _ _ calling => obtain ⟨_, ⟨⟩⟩ := calling.stands running
  | hosting _ _ _ _ calling => obtain ⟨_, ⟨⟩⟩ := calling.stands running
  | answering _ _ _ _ _ _ calling => obtain ⟨_, ⟨⟩⟩ := calling.stands running
  | replied _ _ _ _ _ _ guest => cases running.symm.trans guest.serving
  | finished _ _ _ guest => cases running.symm.trans guest.serving

private theorem Stage.guestPolls {conversation next : Conversation}
    (stage : Stage text conversation)
    (stepped : conversation.step text handler .guestPolls = some next) : Stage text next := by
  simp only [Conversation.step] at stepped
  split at stepped
  · next unserved => exact stage.guestListens unserved stepped
  · next calling => exact stage.guestAwaits calling stepped
  · cases stepped

private theorem Stage.guestCalls {conversation next : Conversation}
    (stage : Stage text conversation)
    (stepped : conversation.step text handler .guestCalls = some next)
    (faithful : WritesFaithfully text ⟨conversation, .guestCalls, next⟩) : Stage text next := by
  simp only [Conversation.step] at stepped
  split at stepped
  · next method params rest running =>
      rcases stage.of_running running with ⟨host, reader, guest, past, invoked, results⟩
      rcases Option.map_eq_some_iff.mp stepped with ⟨_, moved, same⟩
      rcases guestStep_eq moved with ⟨after, called, rfl⟩
      subst same
      rcases Transport.step_call called with
        ⟨idle, own, entry, id, _, kept, written, others⟩
      have wrote := wrote_of_append written
      have pump := others 0 (Nat.succ_ne_zero _).symm
      apply Stage.asking ⟨jsonRpcVersion, conversation.guest.id, method, params⟩
        conversation.guestCalls
      · apply faithful
        rw [wrote]
        exact List.mem_append_right _ List.mem_cons_self
      · rw [wrote]
        exact host.hear _
      · refine { guest with pump := ?_, kind := ?_, id := ?_ }
        · dsimp only
          rw [pump.1]
          exact guest.pump
        · exact pump.2.trans guest.kind
        · dsimp only
          rw [id, guest.id, List.length_append]
          exact (UInt64.ofNat_add ..).symm
      · refine ⟨rfl, guest.id, ⟨?_, ?_, ?_, kept.trans reader⟩, entry, ?_, ⟨rest, rfl⟩⟩
        · dsimp only
          rw [own]
          rfl
        · dsimp only
          rw [own]
        · dsimp only
          rw [own]
        · refine past.kept rfl (by simp) (fun other different => (others other different).1) ?_
          intro index same
          cases same
          exact ⟨Nat.le_refl _, by simp⟩
      · exact invoked
      · exact results
  · cases stepped

theorem Calling.unreturned {conversation : Conversation} {request : RpcRequest}
    {earlier : List Invocation} {inbox : List RpcMessage}
    (calling : Calling text conversation request earlier inbox) :
    (conversation.guest.task conversation.guestCalls.length).phase.returned = none := by
  rw [calling.latest]
  exact returned_of_partialLine calling.awaits.phase

private theorem Stage.guestContinues {conversation next : Conversation}
    (stage : Stage text conversation)
    (stepped : conversation.step text handler .guestContinues = some next) : Stage text next := by
  simp only [Conversation.step] at stepped
  split at stepped
  · next rest result waiting returned =>
      cases stepped
      cases stage with
      | starting _ _ guest => cases waiting.symm.trans guest.serving
      | requested _ _ _ _ _ guest => cases waiting.symm.trans guest.serving
      | between host reader guest past _ invoked results =>
          exact .between host reader { guest with } { past with } (.inl ⟨_, rfl⟩)
            invoked results
      | asking _ _ _ _ _ calling => cases calling.unreturned.symm.trans returned
      | hosting _ _ _ _ calling => cases calling.unreturned.symm.trans returned
      | answering _ _ _ _ _ _ calling => cases calling.unreturned.symm.trans returned
      | replied _ _ _ _ _ _ guest => cases waiting.symm.trans guest.serving
      | finished _ _ _ guest => cases waiting.symm.trans guest.serving
  · cases stepped

private theorem Stage.guestReturns {conversation next : Conversation}
    (stage : Stage text conversation)
    (stepped : conversation.step text handler .guestReturns = some next)
    (faithful : WritesFaithfully text ⟨conversation, .guestReturns, next⟩) : Stage text next := by
  simp only [Conversation.step] at stepped
  split at stepped
  · next result running =>
      rcases stage.of_running running with ⟨host, reader, guest, past, invoked, results⟩
      rcases guest.pump with ⟨request, id, handling, calls⟩
      rcases Option.map_eq_some_iff.mp stepped with ⟨_, moved, same⟩
      rcases guestStep_eq moved with ⟨after, returned, rfl⟩
      subst same
      rcases Transport.step_handlerReturns returned with
        ⟨asked, phase, handled, own, written, _, _, beside, _, ends⟩
      cases handled.symm.trans handling
      cases ends true guest.kind
      have wrote := wrote_of_append written
      apply Stage.replied request result false
      · apply faithful
        rw [wrote]
        exact List.mem_append_right _ List.mem_cons_self
      · exact id
      · rw [wrote]
        exact host.hear _
      · refine ⟨?_, rfl, ?_, guest.invoked, ?_, ?_, invoked, results⟩
        · dsimp only
          rw [own]
        · dsimp only
          rw [calls]
          rfl
        · dsimp only
          rw [guest.results]
          rfl
        · exact past.kept rfl (Nat.le_refl _)
            (fun other different => congrArg Task.phase (beside.others other different))
            fun index same => absurd same (Nat.succ_ne_zero index)
  · cases stepped

private theorem Stage.guestExits {conversation next : Conversation}
    (stage : Stage text conversation)
    (stepped : conversation.step text handler .guestExits = some next) : Stage text next := by
  simp only [Conversation.step] at stepped
  split at stepped
  · next served =>
      cases stepped
      cases stage with
      | starting _ _ guest => cases served.symm.trans guest.serving
      | requested _ _ _ _ _ guest => cases served.symm.trans guest.serving
      | between _ _ _ _ serving =>
          rcases serving with ⟨_, same⟩ | ⟨_, same⟩ <;> cases served.symm.trans same
      | asking _ _ _ _ _ calling => obtain ⟨_, ⟨⟩⟩ := calling.stands served
      | hosting _ _ _ _ calling => obtain ⟨_, ⟨⟩⟩ := calling.stands served
      | answering _ _ _ _ _ _ calling => obtain ⟨_, ⟨⟩⟩ := calling.stands served
      | replied request result closed faithful id host guest =>
          refine .replied request result true faithful id { host with awaits := ?_ } { guest with
            past := { guest.past with } }
          refine { host.awaits with reader := ?_ }
          dsimp only
          rw [host.awaits.reader]
          rfl
      | finished result host others guest =>
          exact .finished result host others { guest with past := { guest.past with } }
  · cases stepped

/-! ## Every run -/

theorem Stage.step {conversation next : Conversation} {action : ConversationAction}
    (stage : Stage text conversation)
    (stepped : conversation.step text handler action = some next)
    (faithful : WritesFaithfully text ⟨conversation, action, next⟩) : Stage text next := by
  cases action with
  | hostCalls method params => exact stage.hostCalls stepped faithful
  | hostPolls => exact stage.hostPolls stepped
  | hostHandlerReturns result => exact stage.hostHandlerReturns stepped faithful
  | guestPumps => exact stage.guestPumps stepped
  | guestPolls => exact stage.guestPolls stepped
  | guestCalls => exact stage.guestCalls stepped faithful
  | guestContinues => exact stage.guestContinues stepped
  | guestReturns => exact stage.guestReturns stepped faithful
  | guestExits => exact stage.guestExits stepped

theorem Stage.new : Stage text .new :=
  .starting rfl rfl ⟨.inl rfl, fun _ _ => rfl, rfl, rfl, rfl, rfl, rfl, rfl, rfl, rfl⟩

/-- In every run both directions agree: the host's calls with the guest's
invocations, and the calls of the guest's handler, which are the tasks from 1 on,
with the host's invocations. -/
theorem two_party_agreement {history : List (Transition Conversation ConversationAction)}
    {final : Conversation} (run : Run (Conversation.step text handler) .new history final)
    (faithful : forall taken, taken ∈ history -> WritesFaithfully text taken) :
    Agreed final.hostCalls (fun index => (final.host.task index).phase) final.guestInvocations
        final.guestResults ∧
      Agreed final.guestCalls (fun index => (final.guest.task (index + 1)).phase)
        final.hostInvocations final.hostResults := by
  have reached := run.invariantWithin (Stage text) (WritesFaithfully text) .new faithful
    fun _ _ _ stage stepped written => stage.step stepped written
  exact reached.1.agreed

/-! ## A handler that goes on after an error -/

/-- Ask the host for a price, and do without when there is none. -/
def quote (_ : String) (params : Value) : HandlerProgram :=
  .call "price" params fun
    | .ok response => .ret (.ok response.result)
    | .error _ => .ret (.ok .null)

def quoteMessages : List RpcMessage :=
  [.rpcRequest ⟨jsonRpcVersion, 0, "quote", .bool true⟩,
    .rpcRequest ⟨jsonRpcVersion, 0, "price", .bool true⟩,
    .rpcErrorResponse ⟨jsonRpcVersion, 0, .methodNotFound⟩,
    .rpcResponse ⟨jsonRpcVersion, 0, .null⟩]

def quoteText : JsonText := compactText (quoteMessages.map RpcMessage.serialize)

/-- The host asks for a quote and the guest for a price, which the host's handler
refuses.  All four messages carry the id 0. -/
def quoteActions : List ConversationAction :=
  [.guestPumps, .hostCalls "quote" (.bool true), .guestPolls, .guestCalls, .guestPolls, .hostPolls,
    .hostHandlerReturns (.error .methodNotFound), .guestPolls, .hostPolls, .guestContinues,
    .guestReturns, .guestExits, .hostPolls]

theorem quote_enabled :
    (Run.play (Conversation.step quoteText quote) .new quoteActions).isSome := by
  decide

theorem quote_faithful : forall message, message ∈ quoteMessages ->
    quoteText.Faithful message.serialize := by
  simp only [quoteMessages, List.forall_mem_cons]
  refine ⟨?_, ?_, ?_, ?_, fun _ member => absurd member List.not_mem_nil⟩
  all_goals exact .of_text rfl (by decide) (by decide) (by decide)

theorem quote_writes : forall taken, taken ∈
    ((Run.play (Conversation.step quoteText quote) .new quoteActions).get quote_enabled).1 ->
      WritesFaithfully quoteText taken :=
  writesFaithfully_of (rfl : _ = quoteMessages) quote_faithful

/-- Both parties use the id 0, and the host's error is not taken for its answer. -/
theorem quote_agreement :
    (Agreed [("quote", .bool true)]
      (fun index => (((Run.play (Conversation.step quoteText quote) .new quoteActions).get
        quote_enabled).2.host.task index).phase) [("quote", .bool true)] [.ok .null]) ∧
    (Agreed [("price", .bool true)]
      (fun index => (((Run.play (Conversation.step quoteText quote) .new quoteActions).get
        quote_enabled).2.guest.task (index + 1)).phase) [("price", .bool true)]
        [.error .methodNotFound]) :=
  two_party_agreement (Run.of_enabled quoteActions quote_enabled) quote_writes

end Rpc
end WasmiPlugin
