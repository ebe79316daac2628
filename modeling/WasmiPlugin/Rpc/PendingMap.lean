import WasmiPlugin.Rpc.Correlation

namespace WasmiPlugin
namespace Rpc

open Foundation

/-!
# The pending map and the live calls

A call is in the pending map from its registration on.  The response arm of
`process_message` is the only place that takes it out again.  A call that
returns its response has therefore left the map, and a call that returns an
error before its response was consumed has not.

Nothing here limits the number of calls.  When the ids have wrapped around, two
calls may wait under one id, and the map has the entry of the later one.
-/

variable (text : JsonText)

/-- The calls that wait for a response to be consumed, one transition later. -/
def awaitingAfter (waiting : List (TaskId × UInt64))
    (taken : Transition Transport TransportAction) : List (TaskId × UInt64) :=
  match registering taken, answering text taken with
  | some call, _ => waiting ++ [call]
  | none, some response => waiting.filter fun call => call.2 ≠ response.id
  | none, none => waiting

/-- The calls that have registered and since then had no response consumed with
their id. -/
def awaiting (history : List (Transition Transport TransportAction)) :
    List (TaskId × UInt64) :=
  history.foldl (awaitingAfter text) []

/-- The ids in the map are those of the calls that wait for a response and have
not returned, and a call that has returned has no entry. -/
structure PendingExact (history : List (Transition Transport TransportAction))
    (transport : Transport) : Prop where
  ids : forall id, (transport.pending id).isSome = true ↔
    Exists fun task => (task, id) ∈ awaiting text history ∧
      (transport.task task).phase.returned = none
  gone : forall task id, (transport.task task).phase.returned ≠ none ->
    transport.pending id ≠ some task

/-- The next line of a task ends `process_next_line` with an error: there is
none, or it cannot be read or parsed, or it is an error reply or a request that
has no handler. -/
def Transport.lineFails (transport : Transport) (task : TaskId) : Bool :=
  match (transport.task task).phase.partialLine with
  | none => false
  | some line =>
      match transport.reader.readLine line with
      | (.ok 0, _, _) => true
      | (.ok (_ + 1), read, _) =>
          match decodeLine text read with
          | none => true
          | some (.rpcErrorResponse _) => true
          | some (.rpcRequest _) => !transport.hasHandler task
          | some (.rpcResponse _) => false
      | (.wouldBlock, _, _) => false
      | (.failed, _, _) => true

/-- A call returns an error in this step while its id is in the map: its request or
its reply cannot be written, or its next line fails. -/
def Abandons (taken : Transition Transport TransportAction) : Prop :=
  match taken.action with
  | .call _ _ _ writes => writes = false
  | .poll task =>
      taken.before.pending (taken.before.task task).id = some task ∧
        taken.before.lineFails text task = true
  | .handlerReturns task _ writes =>
      taken.before.pending (taken.before.task task).id = some task ∧ writes = false
  | _ => False

instance decidableAbandons :
    forall taken : Transition Transport TransportAction, Decidable (Abandons text taken)
  | ⟨_, .call _ _ _ writes, _⟩ => inferInstanceAs (Decidable (writes = false))
  | ⟨before, .poll task, _⟩ => inferInstanceAs (Decidable (
      before.pending (before.task task).id = some task ∧ before.lineFails text task = true))
  | ⟨before, .handlerReturns task _ writes, _⟩ => inferInstanceAs (Decidable (
      before.pending (before.task task).id = some task ∧ writes = false))
  | ⟨_, .processNextLine _ _, _⟩ => inferInstanceAs (Decidable False)
  | ⟨_, .drop _, _⟩ => inferInstanceAs (Decidable False)
  | ⟨_, .arrive _, _⟩ => inferInstanceAs (Decidable False)
  | ⟨_, .hangUp, _⟩ => inferInstanceAs (Decidable False)

variable {text}

theorem awaiting_extend (history : List (Transition Transport TransportAction))
    (taken : Transition Transport TransportAction) :
    awaiting text (history ++ [taken]) = awaitingAfter text (awaiting text history) taken := by
  unfold awaiting
  rw [List.foldl_append, List.foldl_cons, List.foldl_nil]

/-! ## The entries of the map -/

/-- An entry belongs to a call that waits under its id and whose channel is
empty, and a call that waits has an entry under its id. -/
structure Entries (waiting : List (TaskId × UInt64)) (transport : Transport) : Prop where
  own : forall id task, transport.pending id = some task -> (task, id) ∈ waiting ∧
    (transport.task task).kind = .call ∧ (transport.task task).id = id ∧
    (transport.task task).channel = .empty ∧ (transport.task task).phase ≠ .idle
  covered : forall task id, (task, id) ∈ waiting -> (transport.pending id).isSome = true

namespace Entries

variable {waiting : List (TaskId × UInt64)} {transport next : Transport}

theorem new (reader : LineReader) (handler : Bool) : Entries [] (Transport.new reader handler) where
  own := fun _ _ entry => by cases entry
  covered := fun _ _ member => absurd member List.not_mem_nil

theorem moved (entries : Entries waiting transport) (moved : transport.Moved next) :
    Entries waiting next where
  own := by
    intro id task entry
    rw [moved.pending] at entry
    rcases entries.own id task entry with ⟨member, call, same, empty, started⟩
    cases moved.task task with
    | same unchanged =>
        rw [unchanged]
        exact ⟨member, call, same, empty, started⟩
    | onward phase onward shape =>
        rw [shape]
        exact ⟨member, call, same, empty, onward.started⟩
    | pump handler idle _ => exact absurd idle started
  covered := by
    intro task id member
    rw [moved.pending]
    exact entries.covered task id member

theorem register (entries : Entries waiting transport) {task : TaskId}
    (idle : (transport.task task).phase = .idle) :
    Entries (waiting ++ [(task, transport.id)]) (transport.register task) where
  own := by
    intro id other entry
    by_cases same : id = transport.id
    · subst same
      rw [Transport.register_pending, Function.update_self] at entry
      cases entry
      rw [Transport.register_task]
      exact ⟨List.mem_append_right _ List.mem_cons_self, rfl, rfl, rfl, nofun⟩
    · rw [Transport.register_pending, Function.update_of_ne same] at entry
      rcases entries.own id other entry with ⟨member, call, owned, empty, started⟩
      have different : other ≠ task := fun this => started (this ▸ idle)
      -- The displaced call waits under another id, so this one is not touched.
      have kept : (transport.register task).task other = transport.task other := by
        refine (Function.update_of_ne different ..).trans ?_
        rw [Transport.displace]
        split
        · rfl
        · next previous displaced =>
            refine Function.update_of_ne (fun this => same ?_) ..
            rw [← owned, this, (entries.own _ previous displaced).2.2.1]
      rw [kept]
      exact ⟨List.mem_append_left _ member, call, owned, empty, started⟩
  covered := by
    intro other id member
    by_cases same : id = transport.id
    · subst same
      rw [Transport.register_pending, Function.update_self]
      rfl
    · rw [Transport.register_pending, Function.update_of_ne same]
      rcases List.mem_append.mp member with before | new
      · exact entries.covered other id before
      · exact absurd (Prod.mk.inj (List.mem_singleton.mp new)).2 same

theorem deliver (entries : Entries waiting transport) (response : RpcResponse) :
    Entries (waiting.filter fun call => call.2 ≠ response.id) (transport.deliver response) where
  own := by
    intro id task entry
    rw [Transport.deliver_pending] at entry
    by_cases same : id = response.id
    · rw [same, Function.update_self] at entry
      cases entry
    · rw [Function.update_of_ne same] at entry
      rcases entries.own id task entry with ⟨member, call, owned, empty, started⟩
      have kept : (transport.deliver response).task task = transport.task task := by
        rw [Transport.deliver_task, if_neg]
        intro receives
        exact same (owned.symm.trans (entries.own _ task receives.1).2.2.1)
      rw [kept]
      exact ⟨List.mem_filter.mpr ⟨member, decide_eq_true same⟩, call, owned, empty, started⟩
  covered := by
    intro task id member
    rcases List.mem_filter.mp member with ⟨before, different⟩
    rw [Transport.deliver_pending, Function.update_of_ne (of_decide_eq_true different)]
    exact entries.covered task id before

theorem step {history : List (Transition Transport TransportAction)} {before after : Transport}
    {action : TransportAction} (entries : Entries (awaiting text history) before)
    (stepped : before.step text action = some after) :
    Entries (awaiting text (history ++ [⟨before, action, after⟩])) after := by
  rw [awaiting_extend]
  cases Transport.step_effect stepped with
  | quiet notRegistering notAnswering moved =>
      simp only [awaitingAfter, notRegistering, notAnswering]
      exact entries.moved moved
  | registered task registered notAnswering idle moved =>
      simp only [awaitingAfter, registered]
      exact (entries.register idle).moved moved
  | delivered task response reader notRegistering consumed inFlight shape =>
      have read : answering text ⟨before, action, after⟩ = some response := by
        rw [answering, consumed]
      have freed : Entries (awaiting text history)
          { before with reader := reader, readerGuard := none } :=
        entries.moved (.of_tasks rfl rfl rfl)
      simp only [awaitingAfter, notRegistering, read]
      rw [show after = _ from shape]
      refine (freed.deliver response).moved (.proceed ?_)
      rw [Transport.deliver_phase]
      exact inFlight

end Entries

/-! ## What ends a call that has an entry -/

/-- What becomes of a task that reads on, by the line that comes next. -/
inductive Transport.ReadsOn (text : JsonText) (transport : Transport) (task : TaskId)
    (next : Transport) : Prop
  | fails (reader : LineReader) (error : RpcError) : transport.lineFails text task = true ->
      next = { transport with reader := reader, readerGuard := none }.setPhase task
        (.failed error) -> ReadsOn text transport task next
  | yields (reader : LineReader) (line : List UInt8) : transport.lineFails text task = false ->
      next = { transport with reader := reader, readerGuard := some task }.setPhase task
        (.yielding line) -> ReadsOn text transport task next
  | handles (reader : LineReader) (request : RpcRequest) :
      transport.lineFails text task = false ->
      next = { transport with reader := reader, readerGuard := none }.setPhase task
        (.handling request) -> ReadsOn text transport task next
  | delivers (reader : LineReader) (response : RpcResponse) :
      transport.lineFails text task = false ->
      next = ({ transport with reader := reader, readerGuard := none }.deliver
        response).proceed task -> ReadsOn text transport task next

theorem Transport.nextLine_readsOn (text : JsonText) (transport : Transport) (task : TaskId)
    (line : List UInt8)
    (reading : (transport.task task).phase.partialLine = some line) :
    transport.ReadsOn text task (transport.nextLine text task line) := by
  rw [Transport.nextLine]
  rcases outcome : transport.reader.readLine line with ⟨result, read, rest⟩
  cases result with
  | ok count =>
      cases count with
      | zero =>
          refine .fails rest .internalError ?_ rfl
          simp only [Transport.lineFails, reading, outcome]
      | succ count =>
          simp only [Transport.processLine]
          cases decoded : decodeLine text read with
          | none =>
              refine .fails rest .parseError ?_ rfl
              simp only [Transport.lineFails, reading, outcome, decoded]
          | some message =>
              cases message with
              | rpcResponse response =>
                  refine .delivers rest response ?_ rfl
                  simp only [Transport.lineFails, reading, outcome, decoded]
              | rpcErrorResponse response =>
                  refine .fails rest response.error ?_ rfl
                  simp only [Transport.lineFails, reading, outcome, decoded]
              | rpcRequest request =>
                  cases able : transport.hasHandler task with
                  | true =>
                      refine .handles rest request ?_ (if_pos able)
                      simp only [Transport.lineFails, reading, outcome, decoded, able,
                        Bool.not_true]
                  | false =>
                      refine .fails rest (.custom "Handler not found") ?_
                        (if_neg (Bool.eq_false_iff.mp able))
                      simp only [Transport.lineFails, reading, outcome, decoded, able,
                        Bool.not_false]
  | wouldBlock =>
      refine .yields rest read ?_ rfl
      simp only [Transport.lineFails, reading, outcome]
  | failed =>
      refine .fails rest .internalError ?_ rfl
      simp only [Transport.lineFails, reading, outcome]

private theorem proceed_waits {waiting : List (TaskId × UInt64)} {transport : Transport}
    (entries : Entries waiting transport) {id : UInt64} {task : TaskId}
    (entry : transport.pending id = some task) :
    ((transport.proceed task).task task).phase.returned = none := by
  rcases entries.own id task entry with ⟨_, call, _, empty, _⟩
  simp only [Transport.proceed, call, empty, Transport.setPhase_task, Phase.returned]

private theorem registering_actor {taken : Transition Transport TransportAction}
    {task : TaskId} {id : UInt64} (made : registering taken = some (task, id)) :
    taken.action.actor = some task := by
  unfold registering at made
  split at made
  · next action =>
      cases made
      rw [action]
      rfl
  · cases made

private theorem entry_before {before after : Transport} {action : TransportAction}
    (stepped : before.step text action = some after) {id : UInt64} {task : TaskId}
    (entry : after.pending id = some task) :
    before.pending id = some task ∨ registering ⟨before, action, after⟩ = some (task, id) := by
  cases Transport.step_effect stepped with
  | quiet _ _ moved => exact .inl ((congrFun moved.pending id).symm.trans entry)
  | registered registered made _ _ moved =>
      rw [show after.pending = _ from moved.pending, Transport.register_pending] at entry
      by_cases same : id = before.id
      · rw [same, Function.update_self] at entry
        cases entry
        exact .inr (same ▸ made)
      · rw [Function.update_of_ne same] at entry
        exact .inl entry
  | delivered reading response reader _ _ _ shape =>
      rw [show after = _ from shape, Transport.proceed_pending, Transport.deliver_pending] at entry
      by_cases same : id = response.id
      · rw [same, Function.update_self] at entry
        cases entry
      · rw [Function.update_of_ne same] at entry
        exact .inl entry

private theorem alive_step {waiting : List (TaskId × UInt64)} {before after : Transport}
    {action : TransportAction} (entries : Entries waiting before)
    (stepped : before.step text action = some after)
    (kept : ¬ Abandons text ⟨before, action, after⟩)
    (alive : forall id task, before.pending id = some task ->
      (before.task task).phase.returned = none) (id : UInt64) (task : TaskId)
    (entry : after.pending id = some task) : (after.task task).phase.returned = none := by
  have entered := entry_before stepped entry
  by_cases acting : action.actor = some task
  · cases action with
    | call _ method params writes =>
        cases acting
        have succeeds : writes = true := Bool.not_eq_false _ |>.mp kept
        simp only [Transport.step, succeeds, if_true] at stepped
        split at stepped
        · rw [← Option.some.inj stepped]
          have registered : (before.register task).task task = _ := before.register_task task
          simp only [Transport.proceed, Transport.writeMessage, registered,
            Transport.setPhase_task, Phase.returned]
        · cases stepped
    | processNextLine _ handler =>
        cases acting
        rcases entered with old | new
        · have started := (entries.own id task old).2.2.2.2
          simp only [Transport.step, reduceCtorEq] at stepped
        · cases new
    | poll =>
        cases acting
        rcases entered with old | new
        · rcases entries.own id task old with ⟨_, _, owned, _, _⟩
          rcases Transport.step_poll stepped with ⟨line, reading, rfl⟩
          cases before.nextLine_readsOn text task line reading with
          | fails reader error fails shape =>
              exact absurd ⟨owned.symm ▸ old, fails⟩ kept
          | yields reader line _ shape => rw [shape, Transport.setPhase_task]; rfl
          | handles reader request _ shape => rw [shape, Transport.setPhase_task]; rfl
          | delivers reader response _ shape =>
              rw [shape, Transport.proceed_pending] at entry
              have freed : Entries waiting
                  { before with reader := reader, readerGuard := none } :=
                entries.moved (.of_tasks rfl rfl rfl)
              rw [shape]
              exact proceed_waits (freed.deliver response) entry
        · cases new
    | handlerReturns _ result writes =>
        cases acting
        rcases entered with old | new
        · rcases entries.own id task old with ⟨_, _, owned, _, _⟩
          have succeeds : writes = true :=
            Bool.not_eq_false _ |>.mp fun fails => kept ⟨owned.symm ▸ old, fails⟩
          simp only [Transport.step, succeeds, if_true] at stepped
          split at stepped
          · rw [← Option.some.inj stepped]
            have written (message : RpcMessage) : Entries waiting (before.writeMessage message) :=
              entries.moved (.of_tasks rfl rfl rfl)
            exact proceed_waits (written _) old
          · cases stepped
        · cases new
    | drop =>
        cases acting
        simp only [Transport.step] at stepped
        split at stepped
        · rw [← Option.some.inj stepped, Transport.setPhase_task]
          rfl
        · split at stepped
          · rw [← Option.some.inj stepped, Transport.setPhase_task]
            rfl
          · cases stepped
    | arrive | hangUp => cases acting
  · rw [Transport.step_other stepped acting]
    rcases entered with old | new
    · exact alive id task old
    · exact absurd (registering_actor new) acting

private theorem abandons_gone {before after : Transport} {action : TransportAction}
    (stepped : before.step text action = some after)
    (abandons : Abandons text ⟨before, action, after⟩) :
    Exists fun task => Exists fun id => (after.task task).phase.returned ≠ none ∧
      after.pending id = some task := by
  cases action with
  | call task method params writes =>
      have fails : writes = false := abandons
      simp only [Transport.step, fails, Bool.false_eq_true, if_false] at stepped
      split at stepped
      · rw [← Option.some.inj stepped]
        refine ⟨task, before.id, ?_, Function.update_self ..⟩
        rw [Transport.setPhase_task]
        exact Option.some_ne_none _
      · cases stepped
  | poll task =>
      rcases abandons with ⟨entry, fails⟩
      rcases Transport.step_poll stepped with ⟨line, reading, rfl⟩
      have goesOn (next : Transport.ReadsOn text before task (before.nextLine text task line))
          (fails : before.lineFails text task = true) :
          ((before.nextLine text task line).task task).phase.returned ≠ none ∧
            (before.nextLine text task line).pending = before.pending := by
        cases next with
        | fails reader error _ shape =>
            rw [shape, Transport.setPhase_task]
            exact ⟨Option.some_ne_none _, rfl⟩
        | yields _ _ succeeds | handles _ _ succeeds | delivers _ _ succeeds =>
            rw [succeeds] at fails
            cases fails
      rcases goesOn (before.nextLine_readsOn text task line reading) fails with ⟨returned, same⟩
      exact ⟨task, (before.task task).id, returned, (congrFun same _).trans entry⟩
  | handlerReturns task result writes =>
      rcases abandons with ⟨entry, fails⟩
      have fails : writes = false := fails
      simp only [Transport.step, fails, Bool.false_eq_true, if_false] at stepped
      split at stepped
      · rw [← Option.some.inj stepped]
        refine ⟨task, _, ?_, entry⟩
        rw [Transport.setPhase_task]
        exact Option.some_ne_none _
      · cases stepped
  | processNextLine | drop | arrive | hangUp => cases abandons

theorem PendingExact.of_alive {history : List (Transition Transport TransportAction)}
    {transport : Transport} (entries : Entries (awaiting text history) transport)
    (alive : forall id task, transport.pending id = some task ->
      (transport.task task).phase.returned = none) : PendingExact text history transport where
  ids := by
    intro id
    constructor
    · intro listed
      rcases Option.isSome_iff_exists.mp listed with ⟨task, entry⟩
      exact ⟨task, (entries.own id task entry).1, alive id task entry⟩
    · rintro ⟨task, waits, _⟩
      exact entries.covered task id waits
  gone := fun task id returned entry => returned (alive id task entry)

/-- The map is exact in every state that a run reaches, whatever the number of
calls, exactly when no call in the map returns an error. -/
theorem pending_exact_iff {reader : LineReader} {handler : Bool}
    {history : List (Transition Transport TransportAction)} {final : Transport}
    (run : Run (Transport.step text) (.new reader handler) history final) :
    Run.Throughout (PendingExact text) (.new reader handler) history ↔
      forall taken, taken ∈ history -> ¬ Abandons text taken := by
  constructor
  · intro precise taken member abandons
    rcases List.append_of_mem member with ⟨earlier, later, shape⟩
    rcases abandons_gone (run.stepped taken member) abandons with ⟨task, id, returned, entry⟩
    exact (precise.2 earlier taken later shape).gone task id returned entry
  · intro kept
    have along := run.throughout
      (fun earlier state => Entries (awaiting text earlier) state ∧
        forall id task, state.pending id = some task -> (state.task task).phase.returned = none)
      (fun taken => ¬ Abandons text taken)
      ⟨.new reader handler, fun _ _ entry => by cases entry⟩ kept
      (fun earlier state action next holds stepped meets =>
        ⟨holds.1.step stepped, alive_step holds.1 stepped meets holds.2⟩)
    exact ⟨.of_alive along.2.1.1 along.2.1.2, fun earlier taken later shape =>
      have reached := along.2.2 earlier taken later shape
      .of_alive reached.1 reached.2⟩

/-! ## A call that meets the end of the file -/

def unansweredCall : List TransportAction :=
  [.call 0 "get" .null true, .hangUp, .poll 0]

theorem unansweredCall_enabled : (Run.play (Transport.step replyText)
    (.new ⟨[], [], false⟩ false) unansweredCall).isSome := by
  decide

/-- The call has returned its error, and its id is still in the map. -/
theorem returned_call_still_pending :
    ¬ forall text reader handler history final,
        Run (Transport.step text) (.new reader handler) history final ->
        Run.Throughout (PendingExact text) (.new reader handler) history := by
  intro law
  have run := Run.of_enabled unansweredCall unansweredCall_enabled
  exact (Run.Throughout.last run (law _ _ _ _ _ run)).gone 0 0 (by decide) (by decide)

/-- The first task yields, reads its response and returns it. -/
def answeredCall : List TransportAction :=
  [.call 0 "get" .null true, .poll 0, arrives replyText firstReply, .poll 0]

theorem answeredCall_enabled : (Run.play (Transport.step replyText)
    (.new ⟨[], [], false⟩ false) answeredCall).isSome := by
  decide

/-- The characterisation at that run, in which no call fails: the map is exact in
every state. -/
theorem answered_call_exact :
    Run.Throughout (PendingExact replyText) (.new ⟨[], [], false⟩ false)
      ((Run.play (Transport.step replyText) (.new ⟨[], [], false⟩ false) answeredCall).get
        answeredCall_enabled).1 :=
  (pending_exact_iff (Run.of_enabled answeredCall answeredCall_enabled)).mpr (by decide)

end Rpc
end WasmiPlugin
