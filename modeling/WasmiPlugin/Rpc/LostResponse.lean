import WasmiPlugin.Rpc.Correlation

namespace WasmiPlugin
namespace Rpc

open Foundation

/-!
# Responses that their callers miss

A call looks into its channel before it waits for the reader, and not again
before a line has come.  When another task puts its response there in between,
the call goes on waiting: it needs one more line to notice, and fails when the
stream ends instead.

The responses that are not missed are those that the call reads itself, and
those that arrive while it is inside a handler, since it looks into the channel
when the handler has returned and the reply is written.
-/

structure Transport.Outstanding (transport : Transport) (task : TaskId) (id : UInt64) : Prop where
  call : (transport.task task).kind = .call
  id : (transport.task task).id = id
  inFlight : (transport.task task).phase.inFlight = true

/-- A response was consumed with the id of a call in flight. -/
def ConsumedFor (text : JsonText) (history : List (Transition Transport TransportAction))
    (task : TaskId) (response : RpcResponse) : Prop :=
  Exists fun taken => taken ∈ history ∧ answering text taken = some response ∧
    taken.before.Outstanding task response.id

/-- A call returned its response, or will when its handler returns, unless it is
dropped.  No further line is needed. -/
def Settled (text : JsonText) (transport : Transport) (task : TaskId)
    (response : RpcResponse) : Prop :=
  (transport.task task).phase = .answered response ∨ (transport.task task).phase = .dropped ∨
    ((Exists fun request => (transport.task task).phase = .handling request) ∧
      forall result next, transport.step text (.handlerReturns task result true) = some next ->
        (next.task task).phase = .answered response)

/-- The response for a call in flight is read by the call itself, or while the
call is inside a handler and has none yet; and a call that has its response can
write the handler's reply. -/
structure Timely (text : JsonText) (taken : Transition Transport TransportAction) : Prop where
  reads : forall reading response task,
    consuming text taken = some (reading, .rpcResponse response) ->
    taken.before.Outstanding task response.id ->
    task = reading ∨ ((Exists fun request => (taken.before.task task).phase = .handling request) ∧
      (taken.before.task task).channel = .empty)
  replies : forall task result response, taken.action = .handlerReturns task result false ->
    (taken.before.task task).channel ≠ .full response

/-! ## The invariant -/

/-- No call waits for a line that has its response. -/
def Attentive (answers : UInt64 -> List RpcResponse) (transport : Transport) : Prop :=
  forall task line, (transport.task task).kind = .call ->
    (transport.task task).phase.partialLine = some line ->
    answers (transport.task task).id = []

/-- A call has returned its response, or holds it while it is inside a handler. -/
def Held (answers : UInt64 -> List RpcResponse) (transport : Transport) (task : TaskId)
    (response : RpcResponse) : Prop :=
  (transport.task task).phase = .answered response ∨ (transport.task task).phase = .dropped ∨
    ((transport.task task).kind = .call ∧ (transport.task task).id = response.id ∧
      (Exists fun request => (transport.task task).phase = .handling request) ∧
      Exists fun later => answers response.id = response :: later)

variable {text : JsonText}

private theorem channel_full {calls : List (TaskId × UInt64)}
    {answers : UInt64 -> List RpcResponse} {transport : Transport}
    (book : Book calls answers transport) {task : TaskId} {response : RpcResponse}
    {later : List RpcResponse} (outstanding : transport.Outstanding task response.id)
    (had : answers response.id = response :: later) :
    (transport.task task).channel = .full response := by
  have member := book.started task outstanding.call fun idle => by
    have inFlight := outstanding.inFlight
    rw [idle] at inFlight
    cases inFlight
  rw [book.channels task _ member outstanding.inFlight, outstanding.id, had]

private theorem answers_of_channel {calls : List (TaskId × UInt64)}
    {answers : UInt64 -> List RpcResponse} {transport : Transport}
    (book : Book calls answers transport) {task : TaskId}
    (call : (transport.task task).kind = .call)
    (inFlight : (transport.task task).phase.inFlight = true)
    (notFull : forall response, (transport.task task).channel ≠ .full response) :
    answers (transport.task task).id = [] := by
  have member := book.started task call fun idle => by
    rw [idle] at inFlight
    cases inFlight
  have channel := book.channels task _ member inFlight
  cases had : answers (transport.task task).id with
  | nil => rfl
  | cons response later =>
      rw [had] at channel
      exact absurd channel (notFull response)

private theorem attentive_moved {calls : List (TaskId × UInt64)}
    {answers : UInt64 -> List RpcResponse} {before after : Transport}
    (book : Book calls answers before) (moved : before.Moved after) {task : TaskId}
    {line : List UInt8} (call : (after.task task).kind = .call)
    (reading : (after.task task).phase.partialLine = some line)
    (attentive : forall line, (before.task task).kind = .call ->
      (before.task task).phase.partialLine = some line -> answers (before.task task).id = []) :
    answers (after.task task).id = [] := by
  cases moved.task task with
  | same same =>
      rw [same] at call reading ⊢
      exact attentive line call reading
  | onward phase onward shape =>
      rw [shape] at call reading ⊢
      rcases onward.reads (by rw [reading]; exact Option.some_ne_none line) with
        already | notCall | notFull
      · rcases Option.ne_none_iff_exists'.mp already with ⟨earlier, inLine⟩
        exact attentive earlier call inLine
      · exact absurd call notCall
      · exact answers_of_channel book call onward.inFlight notFull
  | pump handler _ shape =>
      rw [shape] at call
      cases call

section Steps

variable {history : List (Transition Transport TransportAction)} {before after : Transport}
  {action : TransportAction}

private theorem reads_own (book : Book (calls history) (answers text history) before)
    (attentive : Attentive (answers text history) before)
    (stepped : before.step text action = some after) {task : TaskId} {response : RpcResponse}
    (consumed : consuming text ⟨before, action, after⟩ = some (task, .rpcResponse response))
    (outstanding : before.Outstanding task response.id) :
    (after.task task).phase = .answered response := by
  rcases Transport.step_consuming stepped consumed with ⟨⟨line, reading⟩, reader, same⟩
  have none := attentive task line outstanding.call reading
  rw [outstanding.id] at none
  have member := book.started task outstanding.call fun idle => by
    rw [idle] at reading
    cases reading
  rw [outstanding.id] at member
  have entry := (book.entries response.id task).mpr ⟨member, none⟩
  rw [same, Transport.processMessage, Transport.proceed_full response]
  · rw [Transport.setPhase_task]
  · rw [Transport.deliver_kind]
    exact outstanding.call
  · rw [Transport.deliver_task, if_pos ⟨entry, outstanding.inFlight⟩]

private theorem attentive_step (book : Book (calls history) (answers text history) before)
    (few : (calls (history ++ [⟨before, action, after⟩])).length ≤ 2 ^ 64)
    (attentive : Attentive (answers text history) before)
    (stepped : before.step text action = some after)
    (timely : Timely text ⟨before, action, after⟩) :
    Attentive (answers text (history ++ [⟨before, action, after⟩])) after := by
  intro task line call reading
  rw [answers_extend]
  cases Transport.step_effect stepped with
  | quiet notRegistering notAnswering moved =>
      simp only [answersAfter, notRegistering, notAnswering]
      exact attentive_moved book moved call reading (attentive task)
  | registered caller registered notAnswering idle moved =>
      have room : (calls history).length < 2 ^ 64 := by
        rw [calls_extend, registered, Option.toList_some, List.length_append] at few
        exact few
      simp only [answersAfter, registered]
      refine attentive_moved (book.register room idle) moved call reading
        fun line wasCall already => ?_
      by_cases this : task = caller
      · subst this
        rw [Transport.register_task]
        exact if_pos rfl
      · rw [Transport.register_other (book.unused room) this] at wasCall already ⊢
        have none := attentive task line wasCall already
        split
        · rfl
        · exact none
  | delivered reader response rest notRegistering consumed inFlight shape =>
      have read : answering text ⟨before, action, after⟩ = some response := by
        rw [answering, consumed]
      simp only [answersAfter, notRegistering, read]
      have freed : Book (calls history) (answers text history)
          { before with reader := rest, readerGuard := none } :=
        book.moved (.of_tasks rfl rfl rfl)
      have moved : (({ before with reader := rest, readerGuard := none } : Transport).deliver
          response).Moved after := by
        rw [show after = _ from shape]
        refine .proceed ?_
        rw [Transport.deliver_phase]
        exact inFlight
      refine attentive_moved (freed.deliver response) moved call reading
        fun line wasCall already => ?_
      rw [Transport.deliver_kind] at wasCall
      rw [Transport.deliver_phase] at already
      rw [Transport.deliver_callId]
      have none := attentive task line wasCall already
      by_cases own : response.id = (before.task task).id
      · have outstanding : before.Outstanding task response.id :=
          ⟨wasCall, own.symm, Phase.inFlight_of_partialLine already⟩
        rcases timely.reads reader response task consumed outstanding with
          itself | ⟨⟨request, handling⟩, _⟩
        · subst itself
          rw [reads_own book attentive stepped consumed outstanding] at reading
          cases reading
        · rw [show (before.task task).phase = _ from handling] at already
          cases already
      · rw [if_neg own]
        exact none

private theorem held_step (book : Book (calls history) (answers text history) before)
    (few : (calls (history ++ [⟨before, action, after⟩])).length ≤ 2 ^ 64)
    (stepped : before.step text action = some after)
    (timely : Timely text ⟨before, action, after⟩) {task : TaskId} {response : RpcResponse}
    (held : Held (answers text history) before task response) :
    Held (answers text (history ++ [⟨before, action, after⟩])) after task response := by
  rcases held with answered | dropped | ⟨call, own, ⟨request, handling⟩, later, had⟩
  · left
    rw [← answered]
    exact Transport.step_ended stepped (by rw [answered]; nofun) (by rw [answered]; rfl)
  · right; left
    rw [← dropped]
    exact Transport.step_ended stepped (by rw [dropped]; nofun) (by rw [dropped]; rfl)
  · have inFlight : (before.task task).phase.inFlight = true := by rw [handling]; rfl
    have full := channel_full book ⟨call, own, inFlight⟩ had
    rcases Transport.step_handling stepped handling with stays | gone | ⟨result, writes, returns⟩
    · right; right
      have member := book.started task call (by rw [handling]; nofun)
      rw [own] at member
      have after := (book.step stepped few).listed task response.id (by
        rw [calls_extend]
        exact List.mem_append_left _ member)
      exact ⟨after.1, after.2.1, ⟨request, stays⟩, book.answers_grow few member had⟩
    · exact .inr (.inl gone)
    · left
      subst returns
      cases writes with
      | false => exact absurd full (timely.replies task result response rfl)
      | true =>
          simp only [Transport.step, handling, if_true] at stepped
          rw [← Option.some.inj stepped, Transport.proceed_full response]
          · rw [Transport.setPhase_task]
          · exact call
          · exact full

/-- A response that is consumed in time is held. -/
private theorem held_consumed (book : Book (calls history) (answers text history) before)
    (few : (calls (history ++ [⟨before, action, after⟩])).length ≤ 2 ^ 64)
    (attentive : Attentive (answers text history) before)
    (stepped : before.step text action = some after)
    (timely : Timely text ⟨before, action, after⟩) {task : TaskId} {response : RpcResponse}
    (read : answering text ⟨before, action, after⟩ = some response)
    (outstanding : before.Outstanding task response.id) :
    Held (answers text (history ++ [⟨before, action, after⟩])) after task response := by
  rcases consuming_of_answering read with ⟨reader, consumed⟩
  rcases timely.reads reader response task consumed outstanding with
    itself | ⟨⟨request, handling⟩, empty⟩
  · subst itself
    exact .inl (reads_own book attentive stepped consumed outstanding)
  · right; right
    have unanswered := answers_of_channel book outstanding.call outstanding.inFlight
      fun other full => by
      rw [show (before.task task).channel = _ from empty] at full
      cases full
    rw [outstanding.id] at unanswered
    have different : reader ≠ task := by
      intro itself
      subst itself
      rcases (Transport.step_consuming stepped consumed).1 with ⟨line, reading⟩
      rw [show (before.task reader).phase = _ from handling] at reading
      cases reading
    have stays : (after.task task).phase = .handling request := by
      rcases Transport.step_consuming stepped consumed with ⟨_, rest, same⟩
      rw [same, Transport.processMessage, Transport.proceed_other _ different.symm,
        Transport.deliver_phase]
      exact handling
    have member := book.started task outstanding.call fun idle => by
      rw [show (before.task task).phase = _ from handling] at idle
      cases idle
    rw [outstanding.id] at member
    have listed := (book.step stepped few).listed task response.id (by
      rw [calls_extend]
      exact List.mem_append_left _ member)
    refine ⟨listed.1, listed.2.1, ⟨request, stays⟩, [], ?_⟩
    rw [answers_extend]
    simp only [answersAfter, registering_of_answering read, read, if_true, unanswered,
      List.nil_append]

end Steps

/-! ## Whole runs -/

/-- In a run in which every response for a call in flight comes in time, every
such call returns that response without another line, unless it is dropped. -/
theorem timely_response_returned {reader : LineReader} {handler : Bool}
    {history : List (Transition Transport TransportAction)} {final : Transport}
    (run : Run (Transport.step text) (.new reader handler) history final)
    (few : (calls history).length ≤ 2 ^ 64)
    (timely : forall taken, taken ∈ history -> Timely text taken) (task : TaskId)
    (response : RpcResponse) (consumed : ConsumedFor text history task response) :
    Settled text final task response := by
  have book := Book.run run few
  have held : Attentive (answers text history) final ∧ forall task response,
      ConsumedFor text history task response ->
        Held (answers text history) final task response := by
    clear book consumed task response
    induction run with
    | start =>
        refine ⟨fun task line _ reading => (by cases reading), fun task response consumed => ?_⟩
        rcases consumed with ⟨taken, member, _⟩
        exact absurd member List.not_mem_nil
    | @extend history before after action reached stepped inductionHypothesis =>
        have shorter : (calls history).length ≤ 2 ^ 64 := by
          refine Nat.le_trans ?_ few
          rw [calls_extend, List.length_append]
          exact Nat.le_add_right _ _
        have book := Book.run reached shorter
        have last := timely _ (List.mem_append_right _ List.mem_cons_self)
        rcases inductionHypothesis shorter
          (fun taken member => timely taken (List.mem_append_left _ member)) with ⟨attentive, held⟩
        refine ⟨attentive_step book few attentive stepped last, fun task response consumed => ?_⟩
        rcases consumed with ⟨taken, member, read, outstanding⟩
        rcases List.mem_append.mp member with old | new
        · exact held_step book few stepped last (held task response ⟨taken, old, read, outstanding⟩)
        · rw [List.mem_singleton.mp new] at read outstanding
          exact held_consumed book few attentive stepped last read outstanding
  rcases held.2 task response consumed with answered | dropped | ⟨call, own, inHandler, later, had⟩
  · exact .inl answered
  · exact .inr (.inl dropped)
  · rcases inHandler with ⟨request, handling⟩
    refine .inr (.inr ⟨⟨request, handling⟩, fun result next stepped => ?_⟩)
    have inFlight : (final.task task).phase.inFlight = true := by rw [handling]; rfl
    simp only [Transport.step, handling, if_true] at stepped
    rw [← Option.some.inj stepped, Transport.proceed_full response]
    · rw [Transport.setPhase_task]
    · exact call
    · exact channel_full book ⟨call, own, inFlight⟩ had

/-! ## Two calls whose replies come in the other order -/

/-- Task 0 waits for input and task 1 for the reader.  Task 0 reads the reply to the
second call and then its own, and then the stream ends. -/
def crossedReplies : List TransportAction :=
  [.call 0 "first" .null true, .poll 0, .call 1 "second" .null true,
    arrives replyText secondReply, arrives replyText firstReply, .hangUp,
    .poll 0, .poll 0, .poll 1]

theorem crossedReplies_enabled : (Run.play (Transport.step replyText)
    (.new ⟨[], [], false⟩ false) crossedReplies).isSome := by
  decide

/-- Task 1 fails although its response was consumed while it was waiting. -/
theorem crossed_reply_lost :
    ¬ forall text reader handler history final,
        Run (Transport.step text) (.new reader handler) history final ->
        (calls history).length ≤ 2 ^ 64 -> forall task response,
        ConsumedFor text history task response -> Settled text final task response := by
  intro law
  have run := Run.of_enabled crossedReplies crossedReplies_enabled
  generalize ended : ((Run.play (Transport.step replyText) (.new ⟨[], [], false⟩ false)
    crossedReplies).get crossedReplies_enabled).2 = final at run
  have failed : (final.task 1).phase.error = some .internalError := by
    rw [← ended]
    decide
  have consumed : ConsumedFor replyText ((Run.play (Transport.step replyText)
      (.new ⟨[], [], false⟩ false) crossedReplies).get crossedReplies_enabled).1 1
      ⟨jsonRpcVersion, 1, .bool false⟩ := by
    refine ⟨_, List.get_mem _ ⟨6, by decide⟩, ?_, ⟨by decide, by decide, by decide⟩⟩
    exact answering_frame secondReply_faithful rfl (by decide)
  rcases law replyText _ _ _ _ run (by decide) 1 _ consumed with
    answered | dropped | ⟨⟨request, handling⟩, _⟩
  · rw [answered] at failed
    cases failed
  · rw [dropped] at failed
    cases failed
  · rw [handling] at failed
    cases failed

/-- A call whose reply is there when it first looks for a line. -/
def promptReply : List TransportAction :=
  [.call 0 "first" .null true, arrives replyText firstReply, .poll 0]

theorem promptReply_enabled : (Run.play (Transport.step replyText)
    (.new ⟨[], [], false⟩ false) promptReply).isSome := by
  decide

def promptHistory : List (Transition Transport TransportAction) :=
  ((Run.play (Transport.step replyText) (.new ⟨[], [], false⟩ false) promptReply).get
    promptReply_enabled).1

theorem promptReply_timely (taken : Transition Transport TransportAction)
    (member : taken ∈ promptHistory) : Timely replyText taken := by
  have all : promptHistory = [promptHistory.get ⟨0, by decide⟩, promptHistory.get ⟨1, by decide⟩,
    promptHistory.get ⟨2, by decide⟩] := rfl
  rw [all] at member
  simp only [List.mem_cons, List.not_mem_nil, or_false] at member
  rcases member with first | second | third
  · subst first
    exact ⟨fun _ _ _ consumed => (nomatch consuming_poll consumed),
      fun _ _ _ returned => (nomatch returned)⟩
  · subst second
    exact ⟨fun _ _ _ consumed => (nomatch consuming_poll consumed),
      fun _ _ _ returned => (nomatch returned)⟩
  · subst third
    refine ⟨fun reading response task consumed outstanding => .inl ?_,
      fun _ _ _ returned => (nomatch returned)⟩
    cases consuming_poll consumed
    cases task with
    | zero => rfl
    | succ other => cases outstanding.inFlight

/-- A call whose reply is there when it first looks for a line reads the reply itself
and returns it. -/
theorem prompt_reply_returned :
    Settled replyText
      ((Run.play (Transport.step replyText) (.new ⟨[], [], false⟩ false) promptReply).get
        promptReply_enabled).2 0 ⟨jsonRpcVersion, 0, .bool true⟩ :=
  timely_response_returned (Run.of_enabled promptReply promptReply_enabled) (by decide)
    promptReply_timely 0 _
    ⟨_, List.get_mem promptHistory ⟨2, by decide⟩,
      answering_frame firstReply_faithful rfl (by decide), by decide, by decide, by decide⟩

end Rpc
end WasmiPlugin
