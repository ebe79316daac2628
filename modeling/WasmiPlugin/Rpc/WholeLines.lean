import WasmiPlugin.Rpc.Transport

namespace WasmiPlugin
namespace Rpc

open Foundation Lines

/-!
# Many tasks read whole lines

Every task that runs `next_line` keeps the part of a line that it has read to
itself.  Lines stay whole although many tasks read from one stream, because a
task that waits for more of its line keeps the guard of the reader while it does:
the guard is a temporary of the `match`, and lives until the task goes on.

The invariant is that all tasks together are one reader.  What they have
returned, the partial line of the task that has the guard, and what is still to
be read are the stream that has arrived.  Bytes are ASCII, the stream does not
fail, and it does not end within a line.
-/

/-! ## One call of `read_line` -/

/-- The bytes that a delivery brings. -/
def Delivery.bytes : Delivery -> List UInt8
  | .chunk first others => first :: others
  | .wouldBlock => []
  | .failure => []

/-- The bytes that a reader still has ahead of it: those in its buffer, and then those
to come. -/
def LineReader.ahead (reader : LineReader) : List UInt8 :=
  reader.buffered ++ reader.incoming.flatMap Delivery.bytes

/-- A reader of ASCII text whose stream does not fail. -/
structure LineReader.Plain (reader : LineReader) : Prop where
  ascii : forall byte, byte ∈ reader.ahead -> byte < 0x80
  sound : Delivery.failure ∉ reader.incoming

/-- What a call of `read_until` fetches: a line, a part of one when it would block,
or the rest of a stream that has ended. -/
inductive Fetches (reader : LineReader) (got : Fetched) : Prop
  | line : got.status = .ok -> takeLine reader.ahead = some (got.appended, got.reader.ahead) ->
      Fetches reader got
  | part : got.status = .wouldBlock -> newline ∉ got.appended ->
      reader.ahead = got.appended ++ got.reader.ahead -> Fetches reader got
  | rest : got.status = .ok -> newline ∉ got.appended -> reader.closed = true ->
      reader.ahead = got.appended -> got.reader.ahead = [] -> Fetches reader got

theorem readLine_closed (reader : LineReader) (line : List UInt8) :
    (reader.readLine line).2.2.closed = reader.closed := by
  have fetched : forall (incoming : List Delivery) (buffered : List UInt8),
      (readUntil reader.closed buffered incoming).reader.closed = reader.closed := by
    intro incoming
    induction incoming with
    | nil =>
        intro buffered
        simp only [readUntil]
        split <;> rfl
    | cons delivery incoming inductionHypothesis =>
        intro buffered
        simp only [readUntil]
        split
        · rfl
        · split
          · exact inductionHypothesis _
          · rfl
          · rfl
  simp only [LineReader.readLine]
  split
  · split <;> exact fetched _ _
  · split <;> exact fetched _ _

theorem readUntil_fetches (closed : Bool) (buffered : List UInt8)
    (incoming : List Delivery) (sound : Delivery.failure ∉ incoming) :
    Fetches ⟨buffered, incoming, closed⟩ (readUntil closed buffered incoming) ∧
      Delivery.failure ∉ (readUntil closed buffered incoming).reader.incoming := by
  induction incoming generalizing buffered with
  | nil =>
      simp only [readUntil]
      cases found : takeLine buffered with
      | some parts =>
          refine ⟨.line rfl ?_, List.not_mem_nil⟩
          simp only [LineReader.ahead, List.flatMap_nil, List.append_nil, found]
      | none =>
          have plain := (takeLine_none_iff buffered).mp found
          refine ⟨?_, List.not_mem_nil⟩
          cases closed with
          | true =>
              refine .rest rfl plain rfl ?_ rfl
              simp only [LineReader.ahead, List.flatMap_nil, List.append_nil]
          | false =>
              refine .part rfl plain ?_
              simp only [LineReader.ahead, List.flatMap_nil, List.append_nil]
  | cons delivery incoming inductionHypothesis =>
      have soundLater : Delivery.failure ∉ incoming :=
        fun listed => sound (List.mem_cons_of_mem _ listed)
      cases found : takeLine buffered with
      | some parts =>
          simp only [readUntil, found]
          refine ⟨.line rfl ?_, sound⟩
          exact takeLine_append_right found _
      | none =>
          have plain := (takeLine_none_iff buffered).mp found
          cases delivery with
          | chunk first others =>
              rcases inductionHypothesis (first :: others) soundLater with ⟨fetches, rest⟩
              simp only [readUntil, found]
              refine ⟨?_, rest⟩
              have ahead : LineReader.ahead ⟨buffered, .chunk first others :: incoming, closed⟩ =
                  buffered ++ LineReader.ahead ⟨first :: others, incoming, closed⟩ := by
                simp only [LineReader.ahead, List.flatMap_cons, Delivery.bytes]
              have without {more : List UInt8} (later : newline ∉ more) :
                  newline ∉ buffered ++ more :=
                fun listed => (List.mem_append.mp listed).elim plain later
              cases fetches with
              | line ok line =>
                  refine .line ok ?_
                  rw [ahead]
                  exact takeLine_behind plain line
              | part blocks part same =>
                  refine .part blocks (without part) ?_
                  rw [ahead, same, List.append_assoc]
              | rest ok part ended same none =>
                  refine .rest ok (without part) ended ?_ none
                  rw [ahead, same]
          | wouldBlock =>
              simp only [readUntil, found]
              refine ⟨.part rfl plain ?_, soundLater⟩
              simp only [LineReader.ahead, List.flatMap_cons, Delivery.bytes, List.nil_append]
          | failure => exact absurd List.mem_cons_self sound

/-- What a call of `read_line` makes of a partial line: a whole line, or more of
one when it would block.  At the end of the stream it may have the rest. -/
inductive Reads (reader : LineReader) (line : List UInt8) :
    ReadLine × List UInt8 × LineReader -> Prop
  | whole {count : Nat} {found : List UInt8} {rest : LineReader} :
      takeLine reader.ahead = some (found, rest.ahead) ->
      Reads reader line (.ok (count + 1), line ++ found, rest)
  | more {body : List UInt8} {rest : LineReader} : newline ∉ body ->
      reader.ahead = body ++ rest.ahead -> Reads reader line (.wouldBlock, line ++ body, rest)
  | ended {count : Nat} {body : List UInt8} {rest : LineReader} : newline ∉ body ->
      reader.closed = true -> reader.ahead = body -> rest.ahead = [] -> count = body.length ->
      Reads reader line (.ok count, line ++ body, rest)

private theorem readLine_reads (reader : LineReader) (plain : reader.Plain) (line : List UInt8) :
    Reads reader line (reader.readLine line) ∧ (reader.readLine line).2.2.Plain := by
  rcases reader with ⟨buffered, incoming, closed⟩
  rcases readUntil_fetches closed buffered incoming plain.sound with ⟨fetches, sound⟩
  simp only [LineReader.readLine]
  generalize readUntil closed buffered incoming = got at fetches sound ⊢
  rcases got with ⟨appended, status, rest⟩
  have part : Exists fun more => LineReader.ahead ⟨buffered, incoming, closed⟩ =
      appended ++ more ∧ rest.ahead = more := by
    cases fetches with
    | line _ found => exact ⟨_, (takeLine_some found).1, rfl⟩
    | part _ _ shape => exact ⟨_, shape, rfl⟩
    | rest _ _ _ shape none => exact ⟨[], by rw [shape, List.append_nil], none⟩
  rcases part with ⟨_, shape, rfl⟩
  have valid : Utf8.Valid appended := Utf8.valid_ascii fun byte listed =>
    plain.ascii byte (shape ▸ List.mem_append_left _ listed)
  have later : rest.Plain := ⟨fun byte listed =>
    plain.ascii byte (shape ▸ List.mem_append_right _ listed), sound⟩
  dsimp only
  rw [if_pos valid]
  cases fetches with
  | line ok found =>
      dsimp only at ok found
      rcases (takeLine_some found).2 with ⟨body, _, ends⟩
      subst ok
      refine ⟨?_, later⟩
      have counted : appended.length = body.length + 1 := by
        rw [ends, List.length_append, List.length_singleton]
      dsimp only
      rw [counted]
      exact .whole found
  | part blocks without shape =>
      dsimp only at blocks without shape
      subst blocks
      exact ⟨.more without shape, later⟩
  | rest ok without ended shape none =>
      dsimp only at ok without ended shape none
      subst ok
      exact ⟨.ended without ended shape none rfl, later⟩

/-! ## What is asked of a run, and what it gives -/

/-- The line that `next_line` returns in a transition, with the task it is
returned to. -/
def lineReturned (taken : Transition Transport TransportAction) : Option (TaskId × List UInt8) :=
  match taken.action with
  | .poll task => (taken.before.lineRead task).map fun line => (task, line)
  | _ => none

def returnedLines (history : List (Transition Transport TransportAction)) :
    List (TaskId × List UInt8) :=
  history.filterMap lineReturned

def arrived (taken : Transition Transport TransportAction) : List UInt8 :=
  match taken.action with
  | .arrive delivery => delivery.bytes
  | _ => []

/-- The stream, as far as it has arrived. -/
def inputStream (reader : LineReader) (history : List (Transition Transport TransportAction)) :
    List UInt8 :=
  reader.ahead ++ history.flatMap arrived

/-- The stream is ASCII, does not fail, and when it has ended it has not ended
within a line.  No task is dropped with a part of a line. -/
structure PlainInput (reader : LineReader)
    (history : List (Transition Transport TransportAction)) (final : Transport) : Prop where
  ascii : forall byte, byte ∈ inputStream reader history -> byte < 0x80
  start : Delivery.failure ∉ reader.incoming
  sound : forall taken, taken ∈ history -> taken.action ≠ .arrive .failure
  complete : final.reader.closed = true -> EndsLine (inputStream reader history)
  kept : forall taken, taken ∈ history -> forall task, taken.action = .drop task ->
    forall line, (taken.before.task task).phase = .yielding line -> line = []

/-- The lines of the stream are returned in order, each whole, and all of them
once nothing is left to be read.  Only one task has a part of a line, and it has
the guard of the reader. -/
structure LinesWhole (stream : List UInt8) (returned : List (List UInt8))
    (transport : Transport) : Prop where
  inOrder : returned <+: split stream
  whole : forall line, line ∈ returned ->
    Exists fun body => newline ∉ body ∧ line = body ++ [newline]
  all : transport.reader.ahead = [] -> EndsLine stream -> returned = split stream
  alone : forall task line, (transport.task task).phase = .yielding line -> line ≠ [] ->
    transport.readerGuard = some task ∧
      forall other part, (transport.task other).phase = .yielding part -> part ≠ [] -> other = task

/-! ## All tasks are one reader -/

/-- The partial line of the task that has the guard. -/
def Transport.heldLine (transport : Transport) : List UInt8 :=
  match transport.readerGuard with
  | none => []
  | some task =>
      match (transport.task task).phase with
      | .yielding line => line
      | _ => []

/-- A task yields exactly if it has the guard, and the stream is what was returned,
what is held, and what is ahead. -/
structure OneReader (stream : List UInt8) (returned : List (List UInt8))
    (transport : Transport) : Prop where
  guarded : forall task line, (transport.task task).phase = .yielding line ->
    transport.readerGuard = some task
  plain : transport.reader.Plain
  cut : CutInto false stream returned transport.heldLine transport.reader.ahead
  held : newline ∉ transport.heldLine
  whole : forall line, line ∈ returned ->
    Exists fun body => newline ∉ body ∧ line = body ++ [newline]

theorem Transport.heldLine_none {transport : Transport} (free : transport.readerGuard = none) :
    transport.heldLine = [] := by
  rw [heldLine, free]

theorem Transport.heldLine_some {transport : Transport} {task : TaskId} {line : List UInt8}
    (guard : transport.readerGuard = some task)
    (yields : (transport.task task).phase = .yielding line) : transport.heldLine = line := by
  rw [heldLine, guard]
  dsimp only
  rw [yields]

theorem OneReader.lines_whole {stream : List UInt8} {returned : List (List UInt8)}
    {transport : Transport} (one : OneReader stream returned transport) :
    LinesWhole stream returned transport where
  inOrder := by
    rw [one.cut.whole]
    exact List.prefix_append _ _
  whole := one.whole
  all none ends := by
    have cut := one.cut
    rw [none] at cut
    rw [cut.whole, cut.complete ends, splitAfter, if_pos rfl, List.append_nil]
  alone task line yields _ := by
    have guard := one.guarded task line yields
    refine ⟨guard, fun other part otherYields _ => ?_⟩
    have same := one.guarded other part otherYields
    rw [guard] at same
    exact (Option.some.inj same).symm

/-! ## Steps that do not read -/

/-- The same tasks yield, with the same partial lines. -/
def SameYields (before after : Transport) : Prop :=
  forall task line, (after.task task).phase = .yielding line ↔
    (before.task task).phase = .yielding line

private theorem heldLine_congr {before after : Transport}
    (guard : after.readerGuard = before.readerGuard) (same : SameYields before after) :
    after.heldLine = before.heldLine := by
  unfold Transport.heldLine
  rw [guard]
  cases before.readerGuard with
  | none => rfl
  | some task =>
      dsimp only
      split
      · next line yields => rw [(same task line).mp yields]
      · next waits =>
          split
          · next line yields => exact absurd ((same task line).mpr yields) (waits line)
          · rfl

private theorem OneReader.quiet {stream : List UInt8} {returned : List (List UInt8)}
    {before after : Transport} (one : OneReader stream returned before)
    (guard : after.readerGuard = before.readerGuard) (same : SameYields before after)
    {bytes : List UInt8} (plain : after.reader.Plain)
    (ahead : after.reader.ahead = before.reader.ahead ++ bytes) :
    OneReader (stream ++ bytes) returned after where
  guarded task line yields := by
    rw [guard]
    exact one.guarded task line ((same task line).mp yields)
  plain := plain
  cut := by
    rw [heldLine_congr guard same, ahead]
    exact one.cut.arrive bytes
  held := by
    rw [heldLine_congr guard same]
    exact one.held
  whole := one.whole

/-- If the task that takes a step does not yield before it or after it, the same
tasks yield. -/
theorem sameYields_of_actor {text : JsonText} {before after : Transport}
    {action : TransportAction} (stepped : before.step text action = some after)
    (actor : forall task, action.actor = some task -> forall line,
      (before.task task).phase ≠ .yielding line ∧ (after.task task).phase ≠ .yielding line) :
    SameYields before after := by
  intro task line
  by_cases acts : action.actor = some task
  · exact iff_of_false (actor task acts line).2 (actor task acts line).1
  · rw [Transport.step_other stepped acts]

theorem Transport.proceed_reader (transport : Transport) (task : TaskId) :
    (transport.proceed task).reader = transport.reader ∧
      (transport.proceed task).readerGuard = transport.readerGuard := by
  rcases proceed_shape transport task with ⟨phase, same⟩
  rw [same]
  exact ⟨rfl, rfl⟩

theorem Transport.proceed_awake (transport : Transport) (task : TaskId) (line : List UInt8) :
    ((transport.proceed task).task task).phase ≠ .yielding line := by
  unfold proceed
  split <;> rw [setPhase_task] <;> exact Phase.noConfusion

theorem Transport.deliver_reader (transport : Transport) (response : RpcResponse) :
    (transport.deliver response).reader = transport.reader ∧
      (transport.deliver response).readerGuard = transport.readerGuard := by
  unfold deliver
  split
  · exact ⟨rfl, rfl⟩
  · dsimp only
    split <;> exact ⟨rfl, rfl⟩

/-- What becomes of a line concerns neither the reader nor its guard, and the task
does not yield. -/
theorem Transport.processLine_frame (text : JsonText) (transport : Transport) (task : TaskId)
    (line : List UInt8) :
    (processLine text transport task line).reader = transport.reader ∧
      (processLine text transport task line).readerGuard = transport.readerGuard ∧
      forall part, ((processLine text transport task line).task task).phase ≠ .yielding part := by
  unfold processLine
  split
  · exact ⟨rfl, rfl, fun part => by rw [setPhase_task]; exact Phase.noConfusion⟩
  · next message _ =>
      cases message with
      | rpcResponse response =>
          have kept := proceed_reader (transport.deliver response) task
          have delivered := deliver_reader transport response
          exact ⟨kept.1.trans delivered.1, kept.2.trans delivered.2, proceed_awake _ task⟩
      | rpcErrorResponse response =>
          exact ⟨rfl, rfl, fun part => by
            rw [processMessage, setPhase_task]
            exact Phase.noConfusion⟩
      | rpcRequest request =>
          simp only [processMessage]
          split
          · exact ⟨rfl, rfl, fun part => by rw [setPhase_task]; exact Phase.noConfusion⟩
          · exact ⟨rfl, rfl, fun part => by rw [setPhase_task]; exact Phase.noConfusion⟩

/-! ## Steps that read -/

private theorem poll_held {text : JsonText} {stream : List UInt8} {returned : List (List UInt8)}
    {before after : Transport} {task : TaskId} (one : OneReader stream returned before)
    (stepped : before.step text (.poll task) = some after) :
    Exists fun line => (before.task task).phase.partialLine = some line ∧
      before.heldLine = line ∧ after = before.nextLine text task line ∧
      forall other, other ≠ task -> forall part,
        (before.task other).phase ≠ .yielding part := by
  simp only [Transport.step] at stepped
  split at stepped
  · next phase =>
      split at stepped
      · next free =>
          refine ⟨[], by rw [phase]; rfl, Transport.heldLine_none free,
            (Option.some.inj stepped).symm, fun other _ part yields => ?_⟩
          have guard := one.guarded other part yields
          rw [free] at guard
          cases guard
      · cases stepped
  · next line phase =>
      have guard := one.guarded task line phase
      refine ⟨line, by rw [phase]; rfl, Transport.heldLine_some guard phase,
        (Option.some.inj stepped).symm, fun other different part yields => ?_⟩
      have taken := one.guarded other part yields
      rw [guard] at taken
      exact different (Option.some.inj taken).symm
  · cases stepped

private theorem poll_alone {text : JsonText} {stream : List UInt8} {returned : List (List UInt8)}
    {before after : Transport} {task : TaskId} (one : OneReader stream returned before)
    (stepped : before.step text (.poll task) = some after) :
    forall other, other ≠ task -> forall part, (after.task other).phase ≠ .yielding part := by
  intro other different part
  rcases poll_held one stepped with ⟨_, _, _, _, others⟩
  rw [Transport.step_other stepped fun acts => different (Option.some.inj acts).symm]
  exact others other different part

private theorem poll_one {text : JsonText} {stream : List UInt8} {returned : List (List UInt8)}
    {before after : Transport} {task : TaskId} (one : OneReader stream returned before)
    (complete : before.reader.closed = true -> EndsLine stream)
    (stepped : before.step text (.poll task) = some after) :
    OneReader stream (returned ++ (before.lineRead task).toList) after := by
  rcases poll_held one stepped with ⟨line, reading, held, same, _⟩
  have alone := poll_alone one stepped
  have cut := one.cut
  have without := one.held
  rw [held] at cut without
  -- Once the guard is free and the task does not yield, nobody does.
  have freed (free : forall part, (after.task task).phase ≠ .yielding part) :
      forall other part, (after.task other).phase = .yielding part ->
        after.readerGuard = some other := by
    intro other part yields
    by_cases this : other = task
    · exact absurd (this ▸ yields) (free part)
    · exact absurd yields (alone other this part)
  rcases readLine_reads before.reader one.plain line with ⟨reads, plain⟩
  simp only [Transport.nextLine] at same
  simp only [Transport.lineRead, reading]
  generalize before.reader.readLine line = outcome at reads plain same ⊢
  cases reads with
  | @whole count found rest first =>
      dsimp only at plain ⊢
      change after = Transport.processLine text
        { before with reader := rest, readerGuard := none } task (line ++ found) at same
      rcases Transport.processLine_frame text
        { before with reader := rest, readerGuard := none } task (line ++ found) with
        ⟨reader, guard, awake⟩
      rw [← same] at reader guard awake
      refine ⟨freed awake, ?_, ?_, ?_, ?_⟩
      · rw [reader]
        exact plain
      · rw [reader, Transport.heldLine_none guard]
        exact cut.line first
      · rw [Transport.heldLine_none guard]
        exact List.not_mem_nil
      · intro other listed
        rcases List.mem_append.mp listed with earlier | last
        · exact one.whole other earlier
        · rcases (takeLine_some first).2 with ⟨body, plainBody, ends⟩
          rw [List.mem_singleton.mp last, ends, ← List.append_assoc]
          refine ⟨line ++ body, fun inside => ?_, rfl⟩
          exact (List.mem_append.mp inside).elim without plainBody
  | @more body rest plainBody ahead =>
      dsimp only at plain same ⊢
      have phase : (after.task task).phase = .yielding (line ++ body) := by
        rw [same, Transport.setPhase_task]
      have guard : after.readerGuard = some task := by
        rw [same]
        rfl
      have holds := Transport.heldLine_some guard phase
      rw [Option.toList_none, List.append_nil]
      refine ⟨fun other part yields => ?_, ?_, ?_, ?_, one.whole⟩
      · by_cases this : other = task
        · rw [this]
          exact guard
        · exact absurd yields (alone other this part)
      · rw [same]
        exact plain
      · rw [holds, same]
        rw [ahead] at cut
        exact cut.plain plainBody
      · rw [holds]
        exact fun inside => (List.mem_append.mp inside).elim without plainBody
  | @ended count body rest plainBody closed ahead drained counted =>
      have nothing : line ++ body = [] := by
        rw [ahead, ← List.append_nil body] at cut
        exact (cut.plain plainBody).complete (complete closed)
      rcases List.append_eq_nil_iff.mp nothing with ⟨rfl, rfl⟩
      subst counted
      dsimp only [List.length_nil] at plain ⊢
      change after = { before with reader := rest, readerGuard := none }.setPhase task
        (.failed .internalError) at same
      have guard : after.readerGuard = none := by
        rw [same]
        rfl
      rw [Option.toList_none, List.append_nil]
      refine ⟨freed fun part => ?_, ?_, ?_, ?_, one.whole⟩
      · rw [same, Transport.setPhase_task]
        exact Phase.noConfusion
      · rw [same]
        exact plain
      · rw [Transport.heldLine_none guard, same]
        rw [ahead] at cut
        exact drained ▸ cut
      · rw [Transport.heldLine_none guard]
        exact List.not_mem_nil

/-- What a step has to do with the reader: a poll reads, a task that yields is
dropped, the peer writes or hangs up, and every other step leaves the reader and the
partial lines alone. -/
inductive Moves (before after : Transport) : TransportAction -> Prop
  | polls (task : TaskId) : Moves before after (.poll task)
  | drops (task : TaskId) (line : List UInt8) : (before.task task).phase = .yielding line ->
      after = { before with readerGuard := none }.setPhase task .dropped ->
        Moves before after (.drop task)
  | arrives (delivery : Delivery) : before.reader.closed = false ->
      after = { before with reader :=
        { before.reader with incoming := before.reader.incoming ++ [delivery] } } ->
        Moves before after (.arrive delivery)
  | hangsUp : after = { before with reader := { before.reader with closed := true } } ->
      Moves before after .hangUp
  | stands {action : TransportAction} : lineReturned ⟨before, action, after⟩ = none ->
      arrived ⟨before, action, after⟩ = [] -> after.reader = before.reader ->
      after.readerGuard = before.readerGuard ->
      (forall task, action.actor = some task -> forall line,
        (before.task task).phase ≠ .yielding line ∧ (after.task task).phase ≠ .yielding line) ->
      Moves before after action

theorem step_moves {text : JsonText} {before after : Transport}
    {action : TransportAction} (stepped : before.step text action = some after) :
    Moves before after action := by
  cases action with
  | poll task => exact .polls task
  | call task method params writes =>
      simp only [Transport.step] at stepped
      split at stepped
      · next idle =>
          have asleep (line : List UInt8) : (before.task task).phase ≠ .yielding line := by
            rw [idle]
            exact Phase.noConfusion
          split at stepped
          · cases stepped
            have frame := Transport.proceed_reader ((before.register task).writeMessage
              (.rpcRequest ⟨jsonRpcVersion, before.id, method, params⟩)) task
            refine .stands rfl rfl frame.1 frame.2 fun other acts line => ?_
            cases acts
            exact ⟨asleep line, Transport.proceed_awake _ task line⟩
          · cases stepped
            refine .stands rfl rfl rfl rfl fun other acts line => ?_
            cases acts
            refine ⟨asleep line, ?_⟩
            rw [Transport.setPhase_task]
            exact Phase.noConfusion
      · cases stepped
  | processNextLine task handler =>
      simp only [Transport.step] at stepped
      split at stepped
      · next idle =>
          cases stepped
          refine .stands rfl rfl rfl rfl fun other acts line => ?_
          cases acts
          refine ⟨?_, ?_⟩
          · rw [idle]
            exact Phase.noConfusion
          · rw [Transport.setTask_task]
            exact Phase.noConfusion
      · cases stepped
  | handlerReturns task result writes =>
      simp only [Transport.step] at stepped
      split at stepped
      · next request handling =>
          have asleep (line : List UInt8) : (before.task task).phase ≠ .yielding line := by
            rw [handling]
            exact Phase.noConfusion
          split at stepped
          · cases stepped
            have frame := Transport.proceed_reader
              (before.writeMessage (Transport.reply request result)) task
            refine .stands rfl rfl frame.1 frame.2 fun other acts line => ?_
            cases acts
            exact ⟨asleep line, Transport.proceed_awake _ task line⟩
          · cases stepped
            refine .stands rfl rfl rfl rfl fun other acts line => ?_
            cases acts
            refine ⟨asleep line, ?_⟩
            rw [Transport.setPhase_task]
            exact Phase.noConfusion
      · cases stepped
  | drop task =>
      simp only [Transport.step] at stepped
      split at stepped
      · next line yields => exact .drops task line yields (Option.some.inj stepped).symm
      · next phase notYields =>
          split at stepped
          · cases stepped
            refine .stands rfl rfl rfl rfl fun other acts line => ?_
            cases acts
            refine ⟨fun yields => notYields line yields, ?_⟩
            rw [Transport.setPhase_task]
            exact Phase.noConfusion
          · cases stepped
  | arrive delivery =>
      simp only [Transport.step] at stepped
      split at stepped
      · cases stepped
      · next opened =>
          exact .arrives delivery (Bool.eq_false_iff.mpr opened) (Option.some.inj stepped).symm
  | hangUp => exact .hangsUp (Option.some.inj stepped).symm

private theorem step_one {text : JsonText} {stream : List UInt8} {returned : List (List UInt8)}
    {before after : Transport} {action : TransportAction}
    (one : OneReader stream returned before) (stepped : before.step text action = some after)
    (ascii : forall byte, byte ∈ arrived ⟨before, action, after⟩ -> byte < 0x80)
    (sound : action ≠ .arrive .failure)
    (complete : before.reader.closed = true -> EndsLine stream)
    (kept : forall task, action = .drop task -> forall line,
      (before.task task).phase = .yielding line -> line = []) :
    OneReader (stream ++ arrived ⟨before, action, after⟩)
      (returned ++ ((lineReturned ⟨before, action, after⟩).map Prod.snd).toList) after := by
  cases step_moves stepped with
  | polls task =>
      have same : (lineReturned ⟨before, .poll task, after⟩).map Prod.snd =
          before.lineRead task := by
        simp only [lineReturned, Option.map_map, Function.comp_def, Option.map_id_fun', id]
      rw [same]
      change OneReader (stream ++ []) _ after
      rw [List.append_nil]
      exact poll_one one complete stepped
  | drops task line yields same =>
      have nothing := kept task rfl line yields
      subst nothing
      subst same
      have guard := one.guarded task [] yields
      have cut := one.cut
      rw [Transport.heldLine_some guard yields] at cut
      change OneReader (stream ++ []) (returned ++ []) _
      rw [List.append_nil, List.append_nil]
      refine ⟨fun other part otherYields => ?_, one.plain, cut, List.not_mem_nil, one.whole⟩
      by_cases this : other = task
      · rw [this, Transport.setPhase_task] at otherYields
        cases otherYields
      · rw [Transport.setPhase_other _ _ this] at otherYields
        have taken := one.guarded other part otherYields
        rw [guard] at taken
        exact absurd (Option.some.inj taken).symm this
  | arrives delivery opened same =>
      subst same
      change OneReader (stream ++ delivery.bytes) (returned ++ []) _
      rw [List.append_nil]
      have ahead : LineReader.ahead
          { before.reader with incoming := before.reader.incoming ++ [delivery] } =
            before.reader.ahead ++ delivery.bytes := by
        simp only [LineReader.ahead, List.flatMap_append, List.flatMap_singleton,
          List.append_assoc]
      refine one.quiet ?_ ?_ ⟨?_, ?_⟩ ahead
      · rfl
      · exact fun _ _ => Iff.rfl
      · intro byte listed
        rw [ahead] at listed
        exact (List.mem_append.mp listed).elim (one.plain.ascii byte) (ascii byte)
      · intro listed
        rcases List.mem_append.mp listed with earlier | last
        · exact one.plain.sound earlier
        · exact sound (by rw [List.mem_singleton.mp last])
  | hangsUp same =>
      subst same
      change OneReader (stream ++ []) (returned ++ []) _
      rw [List.append_nil returned]
      refine one.quiet ?_ ?_ ⟨one.plain.ascii, one.plain.sound⟩ ?_
      · rfl
      · exact fun _ _ => Iff.rfl
      · exact (List.append_nil _).symm
  | stands silent nothing reader guard actor =>
      rw [silent, nothing, Option.map_none, Option.toList_none, List.append_nil returned]
      refine one.quiet guard (sameYields_of_actor stepped actor) (reader ▸ one.plain) ?_
      rw [reader, List.append_nil]

/-! ## Runs -/

theorem step_closed_eq {text : JsonText} {before after : Transport} {action : TransportAction}
    (stepped : before.step text action = some after) (other : action ≠ .hangUp) :
    after.reader.closed = before.reader.closed := by
  cases step_moves stepped with
  | polls task =>
      rcases Transport.step_poll stepped with ⟨line, _, rfl⟩
      have same := readLine_closed before.reader line
      unfold Transport.nextLine
      generalize before.reader.readLine line = outcome at same ⊢
      rcases outcome with ⟨result, read, rest⟩
      cases result with
      | ok count =>
          cases count with
          | zero => exact same
          | succ count =>
              rw [← same]
              exact congrArg LineReader.closed (Transport.processLine_frame text _ task read).1
      | wouldBlock | failed => exact same
  | drops task line yields same =>
      subst same
      rfl
  | arrives delivery opened same =>
      subst same
      rfl
  | hangsUp same => exact absurd rfl other
  | stands silent nothing reader guard actor => rw [reader]

theorem step_closed {text : JsonText} {before after : Transport}
    {action : TransportAction} (stepped : before.step text action = some after)
    (closed : before.reader.closed = true) :
    after.reader.closed = true ∧ arrived ⟨before, action, after⟩ = [] := by
  cases step_moves stepped with
  | polls task => exact ⟨(step_closed_eq stepped nofun).trans closed, rfl⟩
  | drops task line yields same => exact ⟨(step_closed_eq stepped nofun).trans closed, rfl⟩
  | arrives delivery opened same => exact absurd (closed.symm.trans opened) Bool.noConfusion
  | hangsUp same =>
      subst same
      exact ⟨rfl, rfl⟩
  | stands silent nothing reader guard actor => exact ⟨reader ▸ closed, nothing⟩

private theorem PlainInput.shorter {text : JsonText} {reader : LineReader}
    {history : List (Transition Transport TransportAction)} {before after : Transport}
    {action : TransportAction}
    (input : PlainInput reader (history ++ [⟨before, action, after⟩]) after)
    (stepped : before.step text action = some after) : PlainInput reader history before := by
  have stream : inputStream reader (history ++ [⟨before, action, after⟩]) =
      inputStream reader history ++ arrived ⟨before, action, after⟩ := by
    rw [inputStream, List.flatMap_append, List.flatMap_singleton, ← List.append_assoc,
      inputStream]
  refine ⟨fun byte listed => input.ascii byte ?_, input.start, fun taken member =>
    input.sound taken (List.mem_append_left _ member), fun closed => ?_, fun taken member =>
    input.kept taken (List.mem_append_left _ member)⟩
  · rw [stream]
    exact List.mem_append_left _ listed
  · rcases step_closed stepped closed with ⟨still, none⟩
    have complete := input.complete still
    rwa [stream, none, List.append_nil] at complete

private theorem one_reader {text : JsonText} {reader : LineReader} {handler : Bool}
    {history : List (Transition Transport TransportAction)} {final : Transport}
    (run : Run (Transport.step text) (.new reader handler) history final)
    (input : PlainInput reader history final) :
    OneReader (inputStream reader history) ((returnedLines history).map Prod.snd) final := by
  induction run with
  | start =>
      have stream : inputStream reader [] = reader.ahead := List.append_nil _
      refine ⟨fun task line yields => (by cases yields), ⟨?_, input.start⟩, ?_,
        List.not_mem_nil, fun line listed => absurd listed List.not_mem_nil⟩
      · exact fun byte listed => input.ascii byte (stream.symm ▸ listed)
      · rw [stream]
        exact .start false reader.ahead
  | @extend history before after action run stepped inductionHypothesis =>
      have earlier := input.shorter stepped
      have one := step_one (inductionHypothesis earlier) stepped ?_ ?_ earlier.complete ?_
      · rw [inputStream, List.flatMap_append, List.flatMap_singleton, ← List.append_assoc,
          ← inputStream, returnedLines, filterMap_extend, List.map_append, ← returnedLines,
          ← Option.toList_map]
        exact one
      · intro byte listed
        apply input.ascii byte
        rw [inputStream, List.flatMap_append, List.flatMap_singleton, ← List.append_assoc]
        exact List.mem_append_right _ listed
      · exact input.sound ⟨before, action, after⟩ (List.mem_append_right _ List.mem_cons_self)
      · exact input.kept ⟨before, action, after⟩ (List.mem_append_right _ List.mem_cons_self)

/-- Concurrent tasks neither tear lines nor steal parts of them: in every run on such
a stream the lines are returned in order, each of them whole. -/
theorem lines_returned_whole {text : JsonText} {reader : LineReader} {handler : Bool}
    {history : List (Transition Transport TransportAction)} {final : Transport}
    (run : Run (Transport.step text) (.new reader handler) history final)
    (input : PlainInput reader history final) :
    LinesWhole (inputStream reader history) ((returnedLines history).map Prod.snd) final :=
  (one_reader run input).lines_whole

/-- Two tasks share a stream of two lines, and the chunks cut the first line.  While
the first task waits for the rest, the second cannot read. -/
private def sharedLines : List TransportAction :=
  [.processNextLine 0 false, .processNextLine 1 false, .arrive (.chunk 0x61 []), .poll 0,
    .arrive (.chunk 0x62 [newline, 0x63]), .arrive (.chunk newline []), .poll 0, .poll 1]

private theorem sharedLines_enabled :
    (Run.play (Transport.step (compactText [])) (.new ⟨[], [], false⟩ false)
      sharedLines).isSome := by
  decide

theorem two_lines_returned_whole : Exists fun history => Exists fun final =>
    Run (Transport.step (compactText [])) (.new ⟨[], [], false⟩ false) history final ∧
      returnedLines history = [(0, [0x61, 0x62, newline]), (1, [0x63, newline])] ∧
      LinesWhole [0x61, 0x62, newline, 0x63, newline]
        [[0x61, 0x62, newline], [0x63, newline]] final := by
  have run := Run.of_enabled sharedLines sharedLines_enabled
  have taken : forall transition, transition ∈ ((Run.play (Transport.step (compactText []))
      (.new ⟨[], [], false⟩ false) sharedLines).get sharedLines_enabled).1 ->
      transition.action ∈ sharedLines := by
    intro transition member
    exact List.mem_map_of_mem (f := Transition.action) member
  refine ⟨_, _, run, rfl, lines_returned_whole run ?_⟩
  have ascii : [0x61, 0x62, newline, 0x63, newline].all (fun byte => byte < 0x80) := by decide
  refine ⟨fun byte listed => of_decide_eq_true (List.all_eq_true.mp ascii byte listed),
    List.not_mem_nil, fun transition member same => ?_, ?_,
    fun transition member task same => ?_⟩
  · have := taken transition member
    simp only [same, sharedLines, List.mem_cons, reduceCtorEq, List.not_mem_nil, or_false,
      TransportAction.arrive.injEq] at this
  · exact fun closed => absurd closed (by decide)
  · have := taken transition member
    simp only [same, sharedLines, List.mem_cons, reduceCtorEq, List.not_mem_nil, or_false] at this

end Rpc
end WasmiPlugin
