import WasmiPlugin.Rpc.ServerRun

namespace WasmiPlugin
namespace Rpc

open Foundation Lines

/-!
# A server is a function of its stdin

However stdin is cut into pieces, and whenever the run is polled, what a server has
told is a beginning of what `serve` makes of the complete lines so far.  When it has
nothing left to read it has told all of that, and it has returned exactly if `serve`
comes to its end.

The invariant says that whatever is still to come, `serve` makes of the whole stream
what was told and then what it makes of the rest from where the run stands.
-/

/-! ## How far a run has come -/

variable {text : JsonText} {handler : String -> Value -> HandlerProgram}

/-- Some lines of the stream were taken and a part of the next one.  Whatever lines
follow, what is told in all is what was told so far and then what `rest` tells of
them; at the end of the stream none follow. -/
structure Follows (text : JsonText) (handler : String -> Value -> HandlerProgram)
    (stream : List UInt8) (taken : List (List UInt8)) (line : List UInt8) (atEnd : Bool)
    (rest : Bool -> List (List UInt8) -> List RpcMessage × Bool) (transport : Transport) :
    Prop where
  cut : CutInto false stream taken line transport.reader.ahead
  exhausted : atEnd = true ->
    transport.reader.closed = true ∧ line = [] ∧ transport.reader.ahead = []
  tells : forall ended lines, (atEnd = true -> ended = true ∧ lines = []) ->
    serve text handler ended (taken ++ lines) =
      (transport.written ++ (rest ended lines).1, (rest ended lines).2)

/-- A run of a server whose pump has not read a request: nothing is called, and
nothing is told. -/
structure Unasked (run : ServerRun) : Prop where
  serving : run.serving = .notYet
  pending : forall id, run.transport.pending id = none
  handler : run.transport.handler = false
  id : run.transport.id = 0
  calls : run.calls = 0
  written : run.transport.written = []

/-- The pump is in the handler, and the entries of the pending map are its calls. -/
structure InHandler (request : RpcRequest) (run : ServerRun) : Prop where
  phase : (run.transport.task 0).phase = .handling request
  kind : (run.transport.task 0).kind = .pump true
  entries : forall id task, run.transport.pending id = some task -> 0 < task ∧ task ≤ run.calls
  handler : run.transport.handler = false
  id : run.transport.id = UInt64.ofNat run.calls

/-- The latest call of the handler is on its way, and only its own response is its. -/
structure OnItsWay (run : ServerRun) : Prop where
  made : 0 < run.calls
  kind : (run.transport.task run.calls).kind = .call
  channel : (run.transport.task run.calls).channel = .empty
  own : run.transport.pending (UInt64.ofNat (run.calls - 1)) = some run.calls
  others : forall other, other ≠ UInt64.ofNat (run.calls - 1) ->
    run.transport.pending other ≠ some run.calls

/-- Where a run stands: before its request, in the handler that the request has, or
behind it. -/
inductive ServerCourse (text : JsonText) (handler : String -> Value -> HandlerProgram)
    (stream : List UInt8) (run : ServerRun) : Prop
  | waiting : Unasked run -> (forall task, (run.transport.task task).phase = .idle) ->
      Follows text handler stream [] [] false (serve text handler) run.transport ->
      ServerCourse text handler stream run
  | reading (line : List UInt8) : Unasked run ->
      (run.transport.task 0).phase.partialLine = some line ->
      (run.transport.task 0).kind = .pump true ->
      Follows text handler stream [] line false (serve text handler) run.transport ->
      ServerCourse text handler stream run
  | running (request : RpcRequest) (program : HandlerProgram) (taken : List (List UInt8))
      (atEnd : Bool) : run.serving = .running program -> InHandler request run ->
      Follows text handler stream taken [] atEnd
        (fun ended => program.serve text ended request run.calls) run.transport ->
      ServerCourse text handler stream run
  | calling (request : RpcRequest) (next : Except RpcError RpcResponse -> HandlerProgram)
      (line : List UInt8) (taken : List (List UInt8)) (atEnd : Bool) :
      run.serving = .calling next -> InHandler request run -> OnItsWay run ->
      (run.transport.task run.calls).phase.partialLine = some line ->
      Follows text handler stream taken line atEnd (resume text request next run.calls)
        run.transport ->
      ServerCourse text handler stream run
  | answered (request : RpcRequest) (next : Except RpcError RpcResponse -> HandlerProgram)
      (result : Except RpcError RpcResponse) (taken : List (List UInt8)) (atEnd : Bool) :
      run.serving = .calling next -> InHandler request run ->
      (run.transport.task run.calls).phase.returned = some result ->
      Follows text handler stream taken [] atEnd
        (fun ended => (next result).serve text ended request run.calls) run.transport ->
      ServerCourse text handler stream run
  | finished (taken : List (List UInt8)) (atEnd : Bool) :
      (run.serving = .notYet ∧ run.transport.written = [] ∨ run.serving = .served) ->
      (run.transport.task 0).phase.inFlight = false -> (run.transport.task 0).phase ≠ .idle ->
      Follows text handler stream taken [] atEnd (fun _ _ => ([], true)) run.transport ->
      ServerCourse text handler stream run

/-- The state of a run on a stream of whole characters that does not end within a
line, with the course that the run has taken on it. -/
structure ServerStands (text : JsonText) (handler : String -> Value -> HandlerProgram)
    (stream : List UInt8) (run : ServerRun) : Prop where
  reader : run.transport.reader.Whole
  ends : run.transport.reader.closed = true -> EndsLine stream
  course : ServerCourse text handler stream run

/-! ### What follows -/

namespace Follows

variable {stream : List UInt8} {taken : List (List UInt8)} {line : List UInt8} {atEnd : Bool}
  {rest : Bool -> List (List UInt8) -> List RpcMessage × Bool} {transport next : Transport}

/-- That a run follows its stream depends only on its reader and on what it has
written. -/
theorem of_same (follows : Follows text handler stream taken line atEnd rest transport)
    (reader : next.reader = transport.reader) (written : next.written = transport.written) :
    Follows text handler stream taken line atEnd rest next := by
  rcases follows with ⟨cut, exhausted, tells⟩
  rw [← reader] at cut exhausted
  rw [← written] at tells
  exact ⟨cut, exhausted, tells⟩

theorem whole (follows : Follows text handler stream taken line atEnd rest transport) :
    let later := (splitAfter line (transport.reader.ahead ++ [newline])).dropLast
    serve text handler transport.reader.closed (completeLines stream) =
      (transport.written ++ (rest transport.reader.closed later).1,
        (rest transport.reader.closed later).2) := by
  intro later
  rw [follows.cut.completeLines_eq]
  refine follows.tells transport.reader.closed later fun isEnd => ?_
  rcases follows.exhausted isEnd with ⟨closed, fresh, none⟩
  refine ⟨closed, ?_⟩
  simp only [later, fresh, none, List.nil_append, splitAfter, if_true, List.dropLast_singleton]

/-- When there is nothing to be read, what follows is known: it is what `rest` tells
of no lines. -/
theorem caught_up (follows : Follows text handler stream taken [] atEnd rest transport)
    (none : transport.reader.ahead = []) :
    serve text handler transport.reader.closed (completeLines stream) =
      (transport.written ++ (rest transport.reader.closed []).1,
        (rest transport.reader.closed []).2) := by
  have whole := follows.whole
  rwa [none, List.nil_append, splitAfter, if_pos rfl, splitAfter, if_pos rfl,
    List.dropLast_singleton] at whole

/-- A run follows its stream when more arrives on it, or when it ends. -/
theorem feed (follows : Follows text handler stream taken line atEnd rest transport)
    {reader : LineReader} {bytes : List UInt8}
    (ahead : reader.ahead = transport.reader.ahead ++ bytes)
    (closed : transport.reader.closed = true -> reader.closed = true ∧ bytes = []) :
    Follows text handler (stream ++ bytes) taken line atEnd rest
      { transport with reader := reader } := by
  refine ⟨?_, fun isEnd => ?_, follows.tells⟩
  · rw [ahead]
    exact follows.cut.arrive bytes
  · rcases follows.exhausted isEnd with ⟨isClosed, fresh, none⟩
    rcases closed isClosed with ⟨stays, nothing⟩
    exact ⟨stays, fresh, by rw [ahead, none, nothing, List.append_nil]⟩

/-- At the end of the stream there are no more bytes, however it is cut. -/
theorem nothing_left (follows : Follows text handler stream taken line atEnd rest transport)
    (isEnd : atEnd = true) {lines : List (List UInt8)} {partialLine ahead : List UInt8}
    (cut : CutInto false stream (taken ++ lines) partialLine ahead) :
    lines = [] ∧ partialLine = [] ∧ ahead = [] := by
  rcases follows.exhausted isEnd with ⟨_, fresh, none⟩
  have before := follows.cut.whole
  have after := cut.whole
  rw [before, fresh, none, splitAfter, if_pos rfl, List.append_assoc] at after
  have empty := List.append_eq_nil_iff.mp (List.append_cancel_left after).symm
  have rest := splitAfter_flatten partialLine ahead
  rw [empty.2, List.flatten_nil] at rest
  exact ⟨empty.1, List.append_eq_nil_iff.mp rest.symm⟩

theorem takes (follows : Follows text handler stream taken line atEnd rest transport)
    {later : Bool -> List (List UInt8) -> List RpcMessage × Bool} {found : List UInt8}
    (cut : CutInto false stream (taken ++ [found]) [] next.reader.ahead)
    (written : next.written = transport.written)
    (turns : forall ended lines, rest ended (found :: lines) = later ended lines) :
    Follows text handler stream (taken ++ [found]) [] false later next := by
  refine ⟨cut, nofun, fun ended lines _ => ?_⟩
  have goesOn : atEnd = true -> ended = true ∧ found :: lines = [] := fun isEnd =>
    absurd (follows.nothing_left isEnd cut).1 (List.cons_ne_nil _ _)
  rw [List.append_assoc, List.singleton_append, follows.tells ended (found :: lines) goesOn,
    written, turns]

theorem takesPart (follows : Follows text handler stream taken line atEnd rest transport)
    {partialLine : List UInt8} (cut : CutInto false stream taken partialLine next.reader.ahead)
    (closed : next.reader.closed = transport.reader.closed)
    (written : next.written = transport.written) :
    Follows text handler stream taken partialLine atEnd rest next := by
  refine ⟨cut, fun isEnd => ?_, written ▸ follows.tells⟩
  have shape : taken ++ [] = taken := List.append_nil taken
  rw [← shape] at cut
  exact ⟨closed.trans (follows.exhausted isEnd).1, (follows.nothing_left isEnd cut).2⟩

theorem finds_end (follows : Follows text handler stream taken line atEnd rest transport)
    {later : Bool -> List (List UInt8) -> List RpcMessage × Bool}
    (cut : CutInto false stream taken [] next.reader.ahead) (none : next.reader.ahead = [])
    (closed : next.reader.closed = true) (written : next.written = transport.written)
    (turns : rest true [] = later true []) :
    Follows text handler stream taken [] true later next := by
  refine ⟨cut, fun _ => ⟨closed, rfl, none⟩, fun ended lines last => ?_⟩
  rcases last rfl with ⟨rfl, rfl⟩
  rw [follows.tells true [] (fun _ => ⟨rfl, rfl⟩), written, turns]

theorem told (follows : Follows text handler stream taken line atEnd rest transport)
    {later : Bool -> List (List UInt8) -> List RpcMessage × Bool} {message : RpcMessage}
    (reader : next.reader = transport.reader)
    (written : next.written = transport.written ++ [message])
    (turns : forall ended lines,
      rest ended lines = (message :: (later ended lines).1, (later ended lines).2)) :
    Follows text handler stream taken line atEnd later next := by
  rcases follows with ⟨cut, exhausted, tells⟩
  rw [← reader] at cut exhausted
  refine ⟨cut, exhausted, fun ended lines last => ?_⟩
  rw [tells ended lines last, written, turns, List.append_assoc, List.singleton_append]

end Follows

/-! ### The pump -/

section Steps

variable {stream : List UInt8} {run after : ServerRun} {request : RpcRequest}

theorem ServerRun.invokes_nothing
    (none : forall request, (run.transport.task 0).phase ≠ .handling request) :
    run.invokes handler = run := by
  have unhandled : run.transport.handled 0 = Option.none := by
    unfold Transport.handled
    split
    · next request handling => exact absurd handling (none request)
    · rfl
  simp only [ServerRun.invokes, unhandled]

private theorem ServerStands.pump_ends {transport : Transport} (taken : List (List UInt8))
    (atEnd : Bool) (fresh : run.serving = .notYet) (silent : transport.written = [])
    (reader : transport.reader.Whole)
    (ends : transport.reader.closed = true -> EndsLine stream) {phase : Phase}
    (ended : phase.inFlight = false) (started : phase ≠ .idle)
    (follows : Follows text handler stream taken [] atEnd (fun _ _ => ([], true)) transport) :
    ServerStands text handler stream
      ({ run with transport := transport.setPhase 0 phase }.invokes handler) := by
  have own : (transport.setPhase 0 phase).task 0 = { transport.task 0 with phase := phase } :=
    transport.setPhase_task 0 phase
  rw [ServerRun.invokes_nothing fun request handling => ?_]
  · refine ⟨reader, ends, .finished taken atEnd (.inl ⟨fresh, silent⟩) ?_ ?_
      (follows.of_same rfl rfl)⟩
    · exact (congrArg (fun task => task.phase.inFlight) own).trans ended
    · exact fun idle => started ((congrArg Task.phase own).symm.trans idle)
  · have same : phase = .handling request := (congrArg Task.phase own).symm.trans handling
    rw [same] at ended
    cases ended

private theorem ServerStands.pumps (stands : ServerStands text handler stream run)
    (stepped : run.step text handler .pumps = some after) :
    ServerStands text handler stream after := by
  rcases Option.map_eq_some_iff.mp stepped with ⟨transport, moved, rfl⟩
  rcases Transport.step_processNextLine moved with ⟨idle, own, reader, beside, written⟩
  have pending : transport.pending = run.transport.pending := by
    simp only [Transport.step, idle, Option.some.injEq] at moved
    rw [← moved]
    rfl
  refine ⟨by rw [reader]; exact stands.reader, by rw [reader]; exact stands.ends, ?_⟩
  cases stands.course with
  | waiting unasked _ follows =>
      refine .reading [] ⟨unasked.serving, fun id => ?_, beside.handler.trans unasked.handler,
        beside.id.trans unasked.id, unasked.calls, written.trans unasked.written⟩ ?_ ?_
        (follows.of_same reader written)
      · rw [pending]
        exact unasked.pending id
      · rw [own]
        rfl
      · rw [own]
  | reading _ _ place =>
      rw [idle] at place
      cases place
  | running _ _ _ _ _ inHandler => cases idle.symm.trans inHandler.phase
  | calling _ _ _ _ _ _ inHandler => cases idle.symm.trans inHandler.phase
  | answered _ _ _ _ _ _ inHandler => cases idle.symm.trans inHandler.phase
  | finished _ _ _ _ started => exact absurd idle started

private theorem ServerStands.pump_line {found : List UInt8} {taken : List (List UInt8)}
    (unasked : Unasked run) (kind : (run.transport.task 0).kind = .pump true)
    (reader : run.transport.reader.Whole)
    (ends : run.transport.reader.closed = true -> EndsLine stream)
    (follows : forall later, (forall ended lines, serve text handler ended (found :: lines) =
      later ended lines) -> Follows text handler stream taken [] false later run.transport) :
    ServerStands text handler stream
      ({ run with transport := run.transport.processLine text 0 found }.invokes handler) := by
  unfold Transport.processLine
  cases read : decodeLine text found with
  | none =>
      refine .pump_ends taken false unasked.serving unasked.written reader ends rfl
        Phase.noConfusion (follows _ fun ended lines => ?_)
      simp only [serve, read]
  | some message =>
      cases message with
      | rpcErrorResponse response =>
          refine .pump_ends taken false unasked.serving unasked.written reader ends rfl
            Phase.noConfusion (follows _ fun ended lines => ?_)
          simp only [serve, read]
      | rpcResponse response =>
          dsimp only [Transport.processMessage]
          rw [Transport.deliver_unknown (unasked.pending response.id)]
          simp only [Transport.proceed, kind]
          refine .pump_ends taken false unasked.serving unasked.written reader ends rfl
            Phase.noConfusion (follows _ fun ended lines => ?_)
          simp only [serve, read]
      | rpcRequest request =>
          simp only [Transport.processMessage, Transport.hasHandler, kind, if_true]
          have invoked : ServerRun.invokes handler
              { run with transport := run.transport.setPhase 0 (.handling request) } =
              { run with
                transport := run.transport.setPhase 0 (.handling request)
                serving := .running (handler request.method request.params) } := by
            simp only [ServerRun.invokes, Transport.handled, Transport.setPhase_task]
          rw [invoked]
          refine ⟨reader, ends, .running request (handler request.method request.params)
            taken false rfl ⟨?_, ?_, fun id task entry => ?_, unasked.handler, ?_⟩ ?_⟩
          · rw [Transport.setPhase_task]
          · rw [Transport.setPhase_task]
            exact kind
          · cases (unasked.pending id).symm.trans entry
          · rw [Transport.setPhase_id, unasked.calls]
            exact unasked.id
          · refine (follows _ fun ended lines => ?_).of_same rfl rfl
            simp only [serve, read, unasked.calls]

private theorem ServerStands.pump_polls {transport : Transport}
    (stands : ServerStands text handler stream run) (fresh : run.serving = .notYet)
    (moved : run.transport.step text (.poll 0) = some transport) :
    ServerStands text handler stream ({ run with transport := transport }.invokes handler) := by
  rcases Transport.step_poll moved with ⟨line, inLine, rfl⟩
  cases stands.course with
  | waiting _ idle =>
      rw [idle] at inLine
      cases inLine
  | running _ _ _ _ serving => cases fresh.symm.trans serving
  | calling _ _ _ _ _ serving => cases fresh.symm.trans serving
  | answered _ _ _ _ _ serving => cases fresh.symm.trans serving
  | finished _ _ _ ended =>
      rw [Phase.inFlight_of_partialLine inLine] at ended
      cases ended
  | reading same unasked place kind follows =>
      cases inLine.symm.trans place
      rcases run.transport.nextLine_finds text 0 stands.reader stands.ends follows.cut with
        ⟨rest, whole, closed, finds⟩
      have ends : rest.closed = true -> EndsLine stream := fun isClosed =>
        stands.ends (closed.symm.trans isClosed)
      generalize run.transport.nextLine text 0 line = transport at finds ⊢
      cases finds with
      | part partialLine cut =>
          rw [ServerRun.invokes_nothing fun request => ?_]
          · refine ⟨whole, ends, .reading partialLine { unasked with } ?_ ?_
              (follows.takesPart cut closed rfl)⟩
            · rw [Transport.setPhase_task]
              rfl
            · rw [Transport.setPhase_task]
              exact kind
          · rw [Transport.setPhase_task]
            exact Phase.noConfusion
      | ended isClosed cut none =>
          refine .pump_ends [] true fresh ?_ whole ends rfl Phase.noConfusion ?_
          · exact unasked.written
          · exact follows.finds_end (none ▸ cut) none isClosed rfl rfl
      | line found cut =>
          have still : Unasked { run with transport := { run.transport with
              reader := rest
              readerGuard := Option.none } } := { unasked with }
          exact .pump_line still kind whole ends fun later turns => follows.takes cut rfl turns

/-! ### The calls of the handler -/

private theorem InHandler.setPhase (inHandler : InHandler request run) {task : TaskId}
    (made : 0 < task) (phase : Phase) :
    InHandler request { run with transport := run.transport.setPhase task phase } := by
  have apart : (run.transport.setPhase task phase).task 0 = run.transport.task 0 :=
    run.transport.setPhase_other phase (Nat.ne_of_lt made)
  refine ⟨?_, ?_, inHandler.entries, inHandler.handler, inHandler.id⟩
  · exact (congrArg Task.phase apart).trans inHandler.phase
  · exact (congrArg Task.kind apart).trans inHandler.kind

private theorem InHandler.deliver (inHandler : InHandler request run) (response : RpcResponse) :
    InHandler request { run with transport := run.transport.deliver response } := by
  have apart : (run.transport.deliver response).task 0 = run.transport.task 0 := by
    rw [Transport.deliver_task, if_neg]
    exact fun both => Nat.lt_irrefl 0 (inHandler.entries _ _ both.1).1
  refine ⟨?_, ?_, fun id task entry => ?_, ?_, ?_⟩
  · exact (congrArg Task.phase apart).trans inHandler.phase
  · exact (congrArg Task.kind apart).trans inHandler.kind
  · dsimp only at entry
    rw [Transport.deliver_pending] at entry
    by_cases same : id = response.id
    · rw [same, Function.update_self] at entry
      cases entry
    · rw [Function.update_of_ne same] at entry
      exact inHandler.entries id task entry
  · exact (run.transport.deliver_frame response).2.1.trans inHandler.handler
  · exact (run.transport.deliver_id response).trans inHandler.id

private theorem OnItsWay.setPhase (onItsWay : OnItsWay run) (phase : Phase) :
    OnItsWay { run with transport := run.transport.setPhase run.calls phase } := by
  have own : (run.transport.setPhase run.calls phase).task run.calls =
      { run.transport.task run.calls with phase := phase } :=
    run.transport.setPhase_task run.calls phase
  refine ⟨onItsWay.made, ?_, ?_, onItsWay.own, onItsWay.others⟩
  · exact (congrArg Task.kind own).trans onItsWay.kind
  · exact (congrArg Task.channel own).trans onItsWay.channel

private theorem OnItsWay.deliver (onItsWay : OnItsWay run) {response : RpcResponse}
    (other : response.id ≠ UInt64.ofNat (run.calls - 1)) :
    OnItsWay { run with transport := run.transport.deliver response } := by
  have apart : (run.transport.deliver response).task run.calls = run.transport.task run.calls := by
    rw [Transport.deliver_task, if_neg]
    exact fun both => onItsWay.others _ other both.1
  refine ⟨onItsWay.made, ?_, ?_, ?_, fun id different entry => ?_⟩
  · exact (congrArg Task.kind apart).trans onItsWay.kind
  · exact (congrArg Task.channel apart).trans onItsWay.channel
  · dsimp only
    rw [Transport.deliver_pending, Function.update_of_ne (Ne.symm other)]
    exact onItsWay.own
  · dsimp only at entry
    rw [Transport.deliver_pending] at entry
    by_cases same : id = response.id
    · rw [same, Function.update_self] at entry
      cases entry
    · rw [Function.update_of_ne same] at entry
      exact onItsWay.others id different entry

private theorem ServerStands.call_ends (run : ServerRun)
    {next : Except RpcError RpcResponse -> HandlerProgram}
    (serving : run.serving = .calling next) (inHandler : InHandler request run)
    (made : 0 < run.calls) (reader : run.transport.reader.Whole)
    (ends : run.transport.reader.closed = true -> EndsLine stream) (taken : List (List UInt8))
    (atEnd : Bool) (result : Except RpcError RpcResponse) {phase : Phase}
    (returned : phase.returned = some result)
    (follows : Follows text handler stream taken [] atEnd
      (fun ended => (next result).serve text ended request run.calls) run.transport) :
    ServerStands text handler stream
      { run with transport := run.transport.setPhase run.calls phase } := by
  refine ⟨reader, ends, .answered request next result taken atEnd serving
    (inHandler.setPhase made phase) ?_ (follows.of_same rfl rfl)⟩
  rw [Transport.setPhase_task]
  exact returned

private theorem ServerStands.call_line (run : ServerRun)
    {next : Except RpcError RpcResponse -> HandlerProgram} {found : List UInt8}
    {taken : List (List UInt8)} (serving : run.serving = .calling next)
    (inHandler : InHandler request run) (onItsWay : OnItsWay run)
    (inFlight : (run.transport.task run.calls).phase.inFlight = true)
    (reader : run.transport.reader.Whole)
    (ends : run.transport.reader.closed = true -> EndsLine stream)
    (follows : forall later, (forall ended lines, resume text request next run.calls ended
      (found :: lines) = later ended lines) ->
      Follows text handler stream taken [] false later run.transport) :
    ServerStands text handler stream
      { run with transport := run.transport.processLine text run.calls found } := by
  have goesOn {result : Except RpcError RpcResponse}
      (awaited : forall ended lines, awaitResponse text (UInt64.ofNat (run.calls - 1)) ended
        (found :: lines) = some (result, lines)) :
      Follows text handler stream taken [] false
        (fun ended => (next result).serve text ended request run.calls) run.transport :=
    follows _ fun ended lines => resume_some (awaited ended lines)
  unfold Transport.processLine
  cases read : decodeLine text found with
  | none =>
      refine .call_ends run serving inHandler onItsWay.made reader ends taken false
        (.error .parseError) rfl (goesOn fun ended lines => ?_)
      simp only [awaitResponse, read]
  | some message =>
      cases message with
      | rpcErrorResponse response =>
          refine .call_ends run serving inHandler onItsWay.made reader ends taken false
            (.error response.error) rfl (goesOn fun ended lines => ?_)
          simp only [awaitResponse, read]
      | rpcRequest asked =>
          have refused : run.transport.processMessage run.calls (.rpcRequest asked) =
              run.transport.setPhase run.calls (.failed (.custom "Handler not found")) := by
            simp only [Transport.processMessage, Transport.hasHandler, onItsWay.kind,
              inHandler.handler, Bool.false_eq_true, if_false]
          dsimp only
          rw [refused]
          refine .call_ends run serving inHandler onItsWay.made reader ends taken false
            (.error (.custom "Handler not found")) rfl (goesOn fun ended lines => ?_)
          simp only [awaitResponse, read]
      | rpcResponse response =>
          have kept := (run.transport.deliver_reader response).1
          have written := (run.transport.deliver_frame response).2.2
          have delivered := inHandler.deliver response
          rw [← kept] at reader ends
          dsimp only [Transport.processMessage]
          by_cases own : response.id = UInt64.ofNat (run.calls - 1)
          · -- the response is put into the call's channel, and found there
            have full := run.transport.deliver_task response run.calls
            rw [if_pos ⟨own ▸ onItsWay.own, inFlight⟩] at full
            rw [Transport.proceed_full response (by rw [full]; exact onItsWay.kind) (by rw [full])]
            refine .call_ends { run with transport := run.transport.deliver response } serving
              delivered onItsWay.made reader ends taken false
              (.ok response) rfl ((goesOn fun ended lines => ?_).of_same kept written)
            simp only [awaitResponse, read, if_pos own]
          · have waits := onItsWay.deliver own
            have goes : (run.transport.deliver response).proceed run.calls =
                (run.transport.deliver response).setPhase run.calls .awaitingReader := by
              have kind : ((run.transport.deliver response).task run.calls).kind = .call :=
                waits.kind
              have channel : ((run.transport.deliver response).task run.calls).channel = .empty :=
                waits.channel
              simp only [Transport.proceed, kind, channel]
            rw [goes]
            refine ⟨reader, ends, .calling request next [] taken false serving
              (delivered.setPhase onItsWay.made _) (waits.setPhase _) ?_ ?_⟩
            · rw [Transport.setPhase_task]
              rfl
            · refine (follows _ fun ended lines => ?_).of_same kept written
              simp only [resume, awaitResponse, read, if_neg own]

private theorem ServerStands.call_polls {transport : Transport}
    {next : Except RpcError RpcResponse -> HandlerProgram}
    (stands : ServerStands text handler stream run) (calling : run.serving = .calling next)
    (moved : run.transport.step text (.poll run.calls) = some transport) :
    ServerStands text handler stream { run with transport := transport } := by
  rcases Transport.step_poll moved with ⟨line, inLine, rfl⟩
  have inFlight := Phase.inFlight_of_partialLine inLine
  cases stands.course with
  | waiting unasked => cases unasked.serving.symm.trans calling
  | reading _ unasked => cases unasked.serving.symm.trans calling
  | running _ _ _ _ serving => cases calling.symm.trans serving
  | finished _ _ serving =>
      rcases serving with ⟨serving, _⟩ | serving <;> cases calling.symm.trans serving
  | answered _ _ _ _ _ _ _ returned =>
      rw [returned_of_partialLine inLine] at returned
      cases returned
  | calling request same partialLine taken atEnd serving inHandler onItsWay place follows =>
      cases inLine.symm.trans place
      cases calling.symm.trans serving
      rcases run.transport.nextLine_finds text run.calls stands.reader stands.ends follows.cut with
        ⟨rest, whole, closed, finds⟩
      have ends : rest.closed = true -> EndsLine stream := fun isClosed =>
        stands.ends (closed.symm.trans isClosed)
      generalize run.transport.nextLine text run.calls line = transport at finds ⊢
      have still (guard : Option TaskId) : InHandler request
          { run with transport := { run.transport with
            reader := rest
            readerGuard := guard } } := { inHandler with }
      have waits (guard : Option TaskId) : OnItsWay
          { run with transport := { run.transport with
            reader := rest
            readerGuard := guard } } := { onItsWay with }
      cases finds with
      | part partialLine cut =>
          refine ⟨whole, ends, .calling request next partialLine taken atEnd serving
            ((still _).setPhase onItsWay.made _) ((waits _).setPhase _) ?_
            (follows.takesPart cut closed rfl)⟩
          rw [Transport.setPhase_task]
          rfl
      | ended isClosed cut none =>
          refine .call_ends { run with transport := { run.transport with
            reader := rest
            readerGuard := Option.none } } serving (still Option.none) onItsWay.made whole ends
            taken true (.error .internalError) rfl ?_
          exact follows.finds_end (none ▸ cut) none isClosed rfl (resume_some rfl)
      | line found cut =>
          exact .call_line { run with transport := { run.transport with
            reader := rest
            readerGuard := Option.none } } serving (still Option.none) (waits Option.none) inFlight
            whole ends fun later turns => follows.takes cut rfl turns

private theorem ServerStands.begins {method : String} {params : Value}
    {next : Except RpcError RpcResponse -> HandlerProgram} {transport : Transport}
    (stands : ServerStands text handler stream run)
    (running : run.serving = .running (.call method params next))
    (moved : run.transport.step text (.call (run.calls + 1) method params true) =
      some transport) :
    ServerStands text handler stream ⟨transport, .calling next, run.calls + 1⟩ := by
  rcases Transport.step_call moved with ⟨_, own, _, id, keeps, reader, wrote, others⟩
  have pending := Transport.step_call_pending moved
  refine ⟨by rw [reader]; exact stands.reader, by rw [reader]; exact stands.ends, ?_⟩
  cases stands.course with
  | waiting unasked => cases unasked.serving.symm.trans running
  | reading _ unasked => cases unasked.serving.symm.trans running
  | calling _ _ _ _ _ serving => cases running.symm.trans serving
  | answered _ _ _ _ _ serving => cases running.symm.trans serving
  | finished _ _ serving =>
      rcases serving with ⟨serving, _⟩ | serving <;> cases running.symm.trans serving
  | running request program taken atEnd serving inHandler follows =>
      cases running.symm.trans serving
      rcases others 0 (Nat.succ_ne_zero run.calls).symm with ⟨phase, kind⟩
      refine .calling request next [] taken atEnd rfl
        ⟨phase.trans inHandler.phase, kind.trans inHandler.kind, fun other task entry => ?_,
          keeps.trans inHandler.handler, ?_⟩
        ⟨Nat.succ_pos run.calls, ?_, ?_, ?_, fun other different entry => ?_⟩ ?_
        (follows.told reader wrote fun ended lines => ?_)
      · rw [pending] at entry
        by_cases same : other = run.transport.id
        · rw [same, Function.update_self] at entry
          cases entry
          exact ⟨Nat.succ_pos run.calls, Nat.le_refl _⟩
        · rw [Function.update_of_ne same] at entry
          exact ⟨(inHandler.entries _ _ entry).1, Nat.le_succ_of_le (inHandler.entries _ _ entry).2⟩
      · rw [id, inHandler.id]
        exact (UInt64.ofNat_add ..).symm
      · rw [own]
      · rw [own]
      · rw [pending, inHandler.id]
        exact Function.update_self ..
      · have different : other ≠ UInt64.ofNat run.calls := different
        rw [pending, inHandler.id, Function.update_of_ne different] at entry
        exact Nat.not_succ_le_self run.calls (inHandler.entries _ _ entry).2
      · rw [own]
        rfl
      · rw [HandlerProgram.serve_call, inHandler.id]

private theorem ServerStands.goes_on {next : Except RpcError RpcResponse -> HandlerProgram}
    {result : Except RpcError RpcResponse} (stands : ServerStands text handler stream run)
    (calling : run.serving = .calling next)
    (returned : (run.transport.task run.calls).phase.returned = some result) :
    ServerStands text handler stream { run with serving := .running (next result) } := by
  refine ⟨stands.reader, stands.ends, ?_⟩
  cases stands.course with
  | waiting unasked => cases unasked.serving.symm.trans calling
  | reading _ unasked => cases unasked.serving.symm.trans calling
  | running _ _ _ _ serving => cases calling.symm.trans serving
  | finished _ _ serving =>
      rcases serving with ⟨serving, _⟩ | serving <;> cases calling.symm.trans serving
  | calling _ _ _ _ _ _ _ _ place =>
      rw [returned_of_partialLine place] at returned
      cases returned
  | answered request other same taken atEnd serving inHandler ends follows =>
      cases calling.symm.trans serving
      cases returned.symm.trans ends
      exact .running request (next result) taken atEnd rfl { inHandler with } follows

private theorem ServerStands.replies {result : Except RpcError Value} {transport : Transport}
    (stands : ServerStands text handler stream run)
    (running : run.serving = .running (.ret result))
    (moved : run.transport.step text (.handlerReturns 0 result true) = some transport) :
    ServerStands text handler stream ⟨transport, .served, run.calls⟩ := by
  rcases Transport.step_handlerReturns moved with
    ⟨asked, phase, handling, own, wrote, reader, _, _, _, done⟩
  refine ⟨by rw [reader]; exact stands.reader, by rw [reader]; exact stands.ends, ?_⟩
  cases stands.course with
  | waiting unasked => cases unasked.serving.symm.trans running
  | reading _ unasked => cases unasked.serving.symm.trans running
  | calling _ _ _ _ _ serving => cases running.symm.trans serving
  | answered _ _ _ _ _ serving => cases running.symm.trans serving
  | finished _ _ serving =>
      rcases serving with ⟨serving, _⟩ | serving <;> cases running.symm.trans serving
  | running request program taken atEnd serving inHandler follows =>
      cases running.symm.trans serving
      cases handling.symm.trans inHandler.phase
      have isDone := done true inHandler.kind
      refine .finished taken atEnd (.inr rfl) ?_ ?_ (follows.told reader wrote fun _ _ => rfl)
      · rw [own, isDone]
        rfl
      · rw [own, isDone]
        exact Phase.noConfusion

private theorem ServerStands.feed (stands : ServerStands text handler stream run)
    {reader : LineReader} {bytes : List UInt8} (whole : reader.Whole)
    (ahead : reader.ahead = run.transport.reader.ahead ++ bytes)
    (closed : run.transport.reader.closed = true -> reader.closed = true ∧ bytes = [])
    (ends : reader.closed = true -> EndsLine (stream ++ bytes)) :
    ServerStands text handler (stream ++ bytes)
      { run with transport := { run.transport with reader := reader } } := by
  refine ⟨whole, ends, ?_⟩
  cases stands.course with
  | waiting unasked idle follows =>
      exact .waiting { unasked with } idle (follows.feed ahead closed)
  | reading line unasked place kind follows =>
      exact .reading line { unasked with } place kind (follows.feed ahead closed)
  | running request program taken atEnd serving inHandler follows =>
      exact .running request program taken atEnd serving { inHandler with }
        (follows.feed ahead closed)
  | calling request next line taken atEnd serving inHandler onItsWay place follows =>
      exact .calling request next line taken atEnd serving { inHandler with } { onItsWay with }
        place (follows.feed ahead closed)
  | answered request next result taken atEnd serving inHandler returned follows =>
      exact .answered request next result taken atEnd serving { inHandler with } returned
        (follows.feed ahead closed)
  | finished taken atEnd serving ended started follows =>
      exact .finished taken atEnd serving ended started (follows.feed ahead closed)

private theorem ServerStands.step {action : ServerAction}
    (stands : ServerStands text handler stream run)
    (stepped : run.step text handler action = some after) (whole : action.Whole)
    (ends : after.transport.reader.closed = true -> EndsLine (stream ++ action.bytes)) :
    ServerStands text handler (stream ++ action.bytes) after := by
  cases action with
  | arrive delivery =>
      rcases Option.map_eq_some_iff.mp stepped with ⟨transport, moved, rfl⟩
      simp only [Transport.step] at moved
      split at moved
      · cases moved
      · next opened =>
          cases moved
          refine stands.feed (stands.reader.arrive whole.1 whole.2) ?_
            (fun closed => absurd closed opened) ends
          simp only [LineReader.ahead, List.flatMap_append, List.flatMap_singleton,
            List.append_assoc, ServerAction.bytes]
  | hangUp =>
      cases stepped
      have ended : LineReader.Whole { run.transport.reader with closed := true } :=
        ⟨stands.reader.buffered, stands.reader.incoming, stands.reader.sound⟩
      exact stands.feed ended (List.append_nil _).symm (fun _ => ⟨rfl, rfl⟩) ends
  | pumps =>
      simp only [ServerAction.bytes, List.append_nil]
      exact stands.pumps stepped
  | polls =>
      simp only [ServerAction.bytes, List.append_nil]
      simp only [ServerRun.step] at stepped
      split at stepped
      · next fresh =>
          rcases Option.map_eq_some_iff.mp stepped with ⟨transport, moved, rfl⟩
          exact stands.pump_polls fresh moved
      · next calling =>
          rcases Option.map_eq_some_iff.mp stepped with ⟨transport, moved, rfl⟩
          exact stands.call_polls calling moved
      · cases stepped
  | calls =>
      simp only [ServerAction.bytes, List.append_nil]
      simp only [ServerRun.step] at stepped
      split at stepped
      · next running =>
          rcases Option.map_eq_some_iff.mp stepped with ⟨transport, moved, rfl⟩
          exact stands.begins running moved
      · cases stepped
  | continues =>
      simp only [ServerAction.bytes, List.append_nil]
      simp only [ServerRun.step] at stepped
      split at stepped
      · next calling returned =>
          cases stepped
          exact stands.goes_on calling returned
      · cases stepped
  | returns =>
      simp only [ServerAction.bytes, List.append_nil]
      simp only [ServerRun.step] at stepped
      split at stepped
      · next running =>
          rcases Option.map_eq_some_iff.mp stepped with ⟨transport, moved, rfl⟩
          exact stands.replies running moved
      · cases stepped

end Steps

/-! ## Every run -/

variable {history : List (Transition ServerRun ServerAction)} {final : ServerRun}

theorem serverStands_run (run : Run (ServerRun.step text handler) .new history final)
    (whole : forall taken, taken ∈ history -> taken.action.Whole)
    (ends : final.transport.reader.closed = true -> EndsLine (stdinOf history)) :
    ServerStands text handler (stdinOf history) final := by
  induction run with
  | start =>
      refine ⟨⟨Utf8.valid_nil, fun _ listed => absurd listed List.not_mem_nil,
        List.not_mem_nil⟩, nofun, .waiting ⟨rfl, fun _ => rfl, rfl, rfl, rfl, rfl⟩
        (fun _ => rfl) ?_⟩
      exact ⟨.start false [], nofun, fun _ _ _ => rfl⟩
  | @extend history before after action run stepped inductionHypothesis =>
      have last : (⟨before, action, after⟩ : Transition ServerRun ServerAction) ∈
        history ++ [⟨before, action, after⟩] := List.mem_append_right _ List.mem_cons_self
      rw [stdinOf, List.flatMap_append, List.flatMap_singleton, ← stdinOf] at ends ⊢
      refine (inductionHypothesis
        (fun taken member => whole taken (List.mem_append_left _ member)) fun closed => ?_).step
          stepped (whole _ last) ends
      rcases ServerRun.step_closed stepped closed with ⟨still, none⟩
      have complete := ends still
      rwa [none, List.append_nil] at complete

/-- A run that has replied, or that can do nothing but look whether something has come
on stdin. -/
def ServerRun.Quiet (run : ServerRun) : Prop :=
  match run.serving with
  | .notYet => (run.transport.task 0).phase ≠ .idle ∧ CaughtUp 0 run.transport
  | .running _ => False
  | .calling _ => (run.transport.task run.calls).phase.returned = none ∧
      CaughtUp run.calls run.transport
  | .served => True

def ServerRun.hasEnded (run : ServerRun) : Bool :=
  !(run.transport.task 0).phase.inFlight

/-- What a run has told is a beginning of what its server tells that is given the
lines of stdin.  When there is nothing left to read, it is all of that. -/
theorem ServerStands.served {stream : List UInt8} {run : ServerRun}
    (stands : ServerStands text handler stream run) :
    run.transport.written <+:
        (serve text handler run.transport.reader.closed (completeLines stream)).1 ∧
      (run.Quiet -> run.transport.written =
          (serve text handler run.transport.reader.closed (completeLines stream)).1 ∧
        run.hasEnded =
          (serve text handler run.transport.reader.closed (completeLines stream)).2) := by
  have prefixed {taken : List (List UInt8)} {line : List UInt8} {atEnd : Bool}
      {rest : Bool -> List (List UInt8) -> List RpcMessage × Bool}
      (follows : Follows text handler stream taken line atEnd rest run.transport) :
      run.transport.written <+:
        (serve text handler run.transport.reader.closed (completeLines stream)).1 := by
    rw [follows.whole]
    exact List.prefix_append _ _
  cases stands.course with
  | waiting unasked idle follows =>
      refine ⟨prefixed follows, fun quiet => ?_⟩
      simp only [ServerRun.Quiet, unasked.serving] at quiet
      exact absurd (idle 0) quiet.1
  | running request program taken atEnd serving inHandler follows =>
      refine ⟨prefixed follows, fun quiet => ?_⟩
      simp only [ServerRun.Quiet, serving] at quiet
  | answered request next result taken atEnd serving inHandler returned follows =>
      refine ⟨prefixed follows, fun quiet => ?_⟩
      simp only [ServerRun.Quiet, serving, returned] at quiet
      exact absurd quiet.1 (Option.some_ne_none result)
  | finished taken atEnd serving ended started follows =>
      refine ⟨prefixed follows, fun _ => ?_⟩
      rw [follows.whole, List.append_nil, ServerRun.hasEnded, ended]
      exact ⟨rfl, rfl⟩
  | reading line unasked place kind follows =>
      refine ⟨prefixed follows, fun quiet => ?_⟩
      simp only [ServerRun.Quiet, unasked.serving] at quiet
      rcases quiet.2 (by rw [place]; exact Option.some_ne_none line) with ⟨fresh, none, opened⟩
      cases place.symm.trans fresh
      rw [follows.caught_up none, opened, ServerRun.hasEnded,
        Phase.inFlight_of_partialLine place, serve, List.append_nil]
      exact ⟨rfl, rfl⟩
  | calling request next line taken atEnd serving inHandler onItsWay place follows =>
      refine ⟨prefixed follows, fun quiet => ?_⟩
      simp only [ServerRun.Quiet, serving] at quiet
      rcases quiet.2 (by rw [place]; exact Option.some_ne_none line) with ⟨fresh, none, opened⟩
      cases place.symm.trans fresh
      rw [follows.caught_up none, opened, ServerRun.hasEnded, inHandler.phase, resume,
        awaitResponse, if_neg Bool.false_ne_true, List.append_nil]
      exact ⟨rfl, rfl⟩

theorem HandlerProgram.serve_tells (text : JsonText) (ended : Bool) (request : RpcRequest)
    (program : HandlerProgram) (calls : Nat) (lines : List (List UInt8)) :
    (program.serve text ended request calls lines).1 ≠ [] := by
  cases program with
  | ret result => exact List.cons_ne_nil _ _
  | call method params next =>
      rw [HandlerProgram.serve_call]
      exact List.cons_ne_nil _ _

theorem ServerStands.of_served {stream : List UInt8} {run : ServerRun}
    (stands : ServerStands text handler stream run) (served : run.serving = .served) :
    run.transport.written =
        (serve text handler run.transport.reader.closed (completeLines stream)).1 ∧
      (serve text handler run.transport.reader.closed (completeLines stream)).2 = true := by
  cases stands.course with
  | waiting unasked => cases unasked.serving.symm.trans served
  | reading _ unasked => cases unasked.serving.symm.trans served
  | running _ _ _ _ serving => cases serving.symm.trans served
  | answered _ _ _ _ _ serving => cases serving.symm.trans served
  | calling _ _ _ _ _ serving => cases serving.symm.trans served
  | finished taken atEnd serving ended started follows =>
      rw [follows.whole, List.append_nil]
      exact ⟨rfl, rfl⟩

/-- A run that has told something, and all that its server tells until it is done, has
a handler that has returned. -/
theorem ServerStands.served_of {stream : List UInt8} {run : ServerRun}
    (stands : ServerStands text handler stream run) (some : run.transport.written ≠ [])
    (all : run.transport.written =
      (serve text handler run.transport.reader.closed (completeLines stream)).1)
    (ends : (serve text handler run.transport.reader.closed (completeLines stream)).2 = true) :
    run.serving = .served := by
  have silent {rest : List RpcMessage}
      (all : run.transport.written = run.transport.written ++ rest) : rest = [] :=
    List.self_eq_append_right.mp all
  cases stands.course with
  | waiting unasked => exact absurd unasked.written some
  | reading _ unasked => exact absurd unasked.written some
  | running request program taken atEnd serving inHandler follows =>
      rw [follows.whole] at all
      exact absurd (silent all) (program.serve_tells _ _ _ _ _)
  | answered request next result taken atEnd serving inHandler returned follows =>
      rw [follows.whole] at all
      exact absurd (silent all) ((next result).serve_tells _ _ _ _ _)
  | calling request next line taken atEnd serving inHandler onItsWay place follows =>
      rw [follows.whole] at all ends
      have nothing := silent all
      unfold resume at nothing ends
      split at nothing
      · next waits =>
          rw [waits] at ends
          cases ends
      · next result later _ => exact absurd nothing ((next result).serve_tells _ _ _ _ _)
  | finished taken atEnd serving ended started follows =>
      rcases serving with ⟨_, none⟩ | serving
      · exact absurd none some
      · exact serving

/-- If stdin brings whole characters, does not fail and does not end within a line,
then what a run tells is a beginning of what `serve` makes of the lines of stdin.
When there is nothing left to read it is all of that, however stdin was cut and the
run was polled. -/
theorem server_run_serves (run : Run (ServerRun.step text handler) .new history final)
    (whole : forall taken, taken ∈ history -> taken.action.Whole)
    (ends : final.transport.reader.closed = true -> EndsLine (stdinOf history))
    {served : List RpcMessage × Bool} (serves : served =
      serve text handler final.transport.reader.closed (completeLines (stdinOf history))) :
    final.transport.written <+: served.1 ∧
      (final.Quiet -> final.transport.written = served.1 ∧ final.hasEnded = served.2) := by
  rw [serves]
  exact (serverStands_run run whole ends).served

/-! ### A quote -/

def quoteRequestFrame : List UInt8 :=
  frame quoteText (.rpcRequest ⟨jsonRpcVersion, 0, "quote", .bool true⟩)

/-- The request comes in two pieces, and the host refuses the price that the handler
asks for. -/
def quoteServed : List ServerAction :=
  [.pumps, .arrive (.ofBytes (quoteRequestFrame.take 7)), .polls,
    .arrive (.ofBytes (quoteRequestFrame.drop 7)), .polls, .calls, .polls,
    .arrive (.ofBytes (frame quoteText (.rpcErrorResponse ⟨jsonRpcVersion, 0, .methodNotFound⟩))),
    .polls, .continues, .returns]

theorem quoteServed_enabled :
    (Run.play (ServerRun.step quoteText quote) .new quoteServed).isSome := by
  decide

/-- The server that is asked for a quote asks its host for the price, and then it
replies. -/
theorem quote_is_served :
    let played := (Run.play (ServerRun.step quoteText quote) .new quoteServed).get
      quoteServed_enabled
    played.2.transport.written <+:
        (serve quoteText quote played.2.transport.reader.closed
          (completeLines (stdinOf played.1))).1 ∧
      (played.2.Quiet -> played.2.transport.written =
          (serve quoteText quote played.2.transport.reader.closed
            (completeLines (stdinOf played.1))).1 ∧
        played.2.hasEnded = (serve quoteText quote played.2.transport.reader.closed
          (completeLines (stdinOf played.1))).2) :=
  server_run_serves (Run.of_enabled quoteServed quoteServed_enabled) (by decide) nofun rfl

/-! ## The guest of a conversation -/

theorem stdinOf_deliveries (history : List (Transition ServerRun ServerAction)) :
    stdinOf history = (deliveries history).flatMap Delivery.bytes := by
  induction history with
  | nil => rfl
  | cons taken history inductionHypothesis =>
      rw [stdinOf, List.flatMap_cons, ← stdinOf, inductionHypothesis, deliveries, deliveries]
      rcases taken with ⟨before, action, after⟩
      cases action <;> rfl

theorem inOnePiece_whole {message : RpcMessage} (faithful : text.Faithful message.serialize) :
    (inOnePiece text message).bytes = frame text message ∧
      Utf8.Valid (inOnePiece text message).bytes ∧ inOnePiece text message ≠ .failure := by
  have valid : Utf8.Valid (frame text message) := by
    apply (Utf8.valid_append_iff faithful.valid _).mpr
    decide
  cases shape : frame text message with
  | nil => exact absurd (List.append_eq_nil_iff.mp shape).2 (List.cons_ne_nil _ _)
  | cons first others =>
      rw [shape] at valid
      rw [inOnePiece, shape]
      exact ⟨rfl, valid, Delivery.noConfusion⟩

theorem split_messages {messages : List RpcMessage}
    (faithful : forall message, message ∈ messages -> text.Faithful message.serialize)
    (rest : List UInt8) :
    split (messages.flatMap (frame text) ++ rest) = messages.map (frame text) ++ split rest := by
  have plain : forall line, line ∈ messages.map (fun message =>
      text.toString message.serialize) -> newline ∉ line := by
    intro line listed
    rcases List.mem_map.mp listed with ⟨message, member, rfl⟩
    exact (faithful message member).no_newline
  have lines := split_frames_append plain rest
  rw [List.flatMap_map, List.map_map] at lines
  exact lines

/-- The complete lines of a stream of messages are the frames of all the messages. -/
theorem completeLines_messages {messages : List RpcMessage}
    (faithful : forall message, message ∈ messages -> text.Faithful message.serialize) :
    completeLines (messages.flatMap (frame text)) = messages.map (frame text) := by
  rw [completeLines, split_messages faithful, split, splitAfter, if_pos rfl, splitAfter,
    if_pos rfl, List.nil_append, List.dropLast_concat]

/-- The complete lines of a beginning of a stream of messages are the first of the
frames. -/
theorem completeLines_beginning {messages : List RpcMessage} {stream : List UInt8}
    (faithful : forall message, message ∈ messages -> text.Faithful message.serialize)
    (begins : stream <+: messages.flatMap (frame text)) :
    Exists fun begun => begun <+: messages ∧ completeLines stream = begun.map (frame text) := by
  rcases begins with ⟨more, whole⟩
  have complete := completeLines_prefix stream more
  have lines := split_messages faithful []
  have nothing : split [] = [] := rfl
  rw [nothing, List.append_nil, List.append_nil] at lines
  rw [whole, lines, List.prefix_iff_eq_take] at complete
  refine ⟨messages.take (completeLines stream).length, List.take_prefix _ _, ?_⟩
  rw [List.map_take]
  exact complete

/-- In every conversation the guest has told a beginning of what its server tells that
is given the messages of the host. -/
theorem conversation_guest_serves {history : List (Transition Conversation ConversationAction)}
    {final : Conversation} (run : Run (Conversation.step text handler) .new history final)
    (faithful : forall message, message ∈ final.host.written -> text.Faithful message.serialize) :
    final.guest.written <+: (serve text handler false (final.host.written.map (frame text))).1 := by
  rcases Conversation.guest_runs run with ⟨opened, served, reached, came⟩
  have stdin : stdinOf served = final.host.written.flatMap (frame text) := by
    rw [stdinOf_deliveries, came, List.flatMap_map]
    exact List.flatMap_congr fun message listed => (inOnePiece_whole (faithful message listed)).1
  have whole : forall taken, taken ∈ served -> taken.action.Whole := by
    intro taken member
    cases made : taken.action with
    | arrive delivery =>
        have listed : delivery ∈ deliveries served :=
          List.mem_filterMap.mpr ⟨taken, member, by rw [made]; rfl⟩
        rw [came] at listed
        rcases List.mem_map.mp listed with ⟨message, written, rfl⟩
        exact (inOnePiece_whole (faithful message written)).2
    | pumps | polls | calls | continues | returns | hangUp => trivial
  have told := (serverStands_run reached whole fun closed =>
    absurd (opened.symm.trans closed) Bool.noConfusion).served.1
  rw [stdin, completeLines_messages faithful] at told
  have still : final.server.transport.reader.closed = false := opened
  rw [still] at told
  exact told

/-- The guest of the conversation about a quote has asked for the price and has
replied. -/
theorem quote_guest_serves :
    let final := ((Run.play (Conversation.step quoteText quote) .new quoteActions).get
      quote_enabled).2
    final.guest.written <+:
      (serve quoteText quote false (final.host.written.map (frame quoteText))).1 := by
  refine conversation_guest_serves (Run.of_enabled quoteActions quote_enabled)
    fun message listed => quote_faithful message ?_
  have written : ((Run.play (Conversation.step quoteText quote) .new quoteActions).get
      quote_enabled).2.host.written = [.rpcRequest ⟨jsonRpcVersion, 0, "quote", .bool true⟩,
        .rpcErrorResponse ⟨jsonRpcVersion, 0, .methodNotFound⟩] := rfl
  rw [written] at listed
  simp only [quoteMessages, List.mem_cons, List.not_mem_nil, or_false] at listed ⊢
  tauto

end Rpc
end WasmiPlugin
