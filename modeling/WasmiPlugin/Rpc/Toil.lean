import WasmiPlugin.Rpc.LoneCall

namespace WasmiPlugin
namespace Rpc

open Foundation Lines

/-!
# What is left of a call

A call on a transport of its own that reads from a pipe cannot be held up by
anything but the pipe and its handlers.  Each line that it takes has a byte at
least, and between two lines it does a bounded number of things.  So what is left
of it, counted as three for each byte and a little for the place where it stands,
becomes less with every step, unless it yields because there is nothing to read.

The bytes need not be characters, and the stream may end anywhere.
-/

def Phase.toil : Phase -> Nat
  | .idle => 3
  | .handling _ => 3
  | .awaitingReader => 2
  | .yielding _ => 1
  | _ => 0

theorem Phase.toil_le (phase : Phase) : phase.toil ≤ 3 := by
  cases phase <;> simp only [toil] <;> omega

/-- What is left of the call of a task: three times the bytes ahead of its reader, and
what is left at the place where it stands. -/
def Transport.toil (transport : Transport) (task : TaskId) : Nat :=
  3 * transport.reader.ahead.length + (transport.task task).phase.toil

/-! ## Reading from a pipe -/

/-- The stream is that of a pipe that was found to have some bytes now and then.  It
does not fail, and blocks only where nothing more was found. -/
structure LineReader.Piped (reader : LineReader) : Prop where
  sound : Delivery.failure ∉ reader.incoming
  flowing : Delivery.wouldBlock ∉ reader.incoming

theorem LineReader.Piped.arrive {reader : LineReader} (piped : reader.Piped)
    {found : List Delivery} (chunks : forall delivery, delivery ∈ found ->
      delivery ≠ .failure ∧ delivery ≠ .wouldBlock) (closed : Bool) :
    LineReader.Piped { reader with incoming := reader.incoming ++ found, closed := closed } := by
  constructor
  · intro listed
    rcases List.mem_append.mp listed with before | last
    · exact piped.sound before
    · exact (chunks _ last).1 rfl
  · intro listed
    rcases List.mem_append.mp listed with before | last
    · exact piped.flowing before
    · exact (chunks _ last).2 rfl

private theorem readUntil_piped (closed : Bool) {buffered : List UInt8} {incoming : List Delivery}
    (piped : LineReader.Piped ⟨buffered, incoming, closed⟩) :
    (readUntil closed buffered incoming).reader.Piped ∧
      ((readUntil closed buffered incoming).status = .wouldBlock -> closed = false) := by
  induction incoming generalizing buffered with
  | nil =>
      simp only [readUntil]
      cases takeLine buffered with
      | some parts => exact ⟨⟨piped.sound, piped.flowing⟩, Status.noConfusion⟩
      | none =>
          refine ⟨⟨piped.sound, piped.flowing⟩, fun blocks => ?_⟩
          cases closed with
          | true => cases blocks
          | false => rfl
  | cons delivery incoming inductionHypothesis =>
      simp only [readUntil]
      cases takeLine buffered with
      | some parts => exact ⟨⟨piped.sound, piped.flowing⟩, Status.noConfusion⟩
      | none =>
          cases delivery with
          | chunk first others =>
              exact inductionHypothesis ⟨fun listed => piped.sound (List.mem_cons_of_mem _ listed),
                fun listed => piped.flowing (List.mem_cons_of_mem _ listed)⟩
          | wouldBlock => exact absurd List.mem_cons_self piped.flowing
          | failure => exact absurd List.mem_cons_self piped.sound

private theorem Fetches.size {reader : LineReader} {got : Fetched} (fetches : Fetches reader got) :
    got.appended.length + got.reader.ahead.length = reader.ahead.length := by
  cases fetches with
  | line _ found => rw [(takeLine_some found).1, List.length_append]
  | part _ _ shape => rw [shape, List.length_append]
  | rest _ _ _ shape none => rw [shape, none, List.length_nil, Nat.add_zero]

/-- What a call of `read_line` on a piped stream leaves: the stream is no longer than
before, shorter if a line was taken, and open if the call would block. -/
structure ReadsOn (reader : LineReader) (result : ReadLine × List UInt8 × LineReader) : Prop where
  piped : result.2.2.Piped
  fewer : result.2.2.ahead.length ≤ reader.ahead.length
  taken : forall count, result.1 = .ok (count + 1) ->
    result.2.2.ahead.length < reader.ahead.length
  blocks : result.1 = .wouldBlock -> reader.closed = false

theorem LineReader.Piped.readLine {reader : LineReader} (piped : reader.Piped)
    (line : List UInt8) : ReadsOn reader (reader.readLine line) := by
  rcases reader with ⟨buffered, incoming, closed⟩
  rcases readUntil_piped closed piped with ⟨rest, blocks⟩
  have size := (readUntil_fetches closed buffered incoming piped.sound).1.size
  simp only [LineReader.readLine]
  generalize readUntil closed buffered incoming = got at rest blocks size
  rcases got with ⟨appended, status, left⟩
  dsimp only at rest blocks size ⊢
  have fewer := Nat.le.intro ((Nat.add_comm _ _).trans size)
  split
  · cases status with
    | ok =>
        refine ⟨rest, fewer, fun count same => ?_, ReadLine.noConfusion⟩
        have counted : appended.length = count + 1 := ReadLine.ok.inj same
        dsimp only
        omega
    | wouldBlock => exact ⟨rest, fewer, fun _ => ReadLine.noConfusion, fun _ => blocks rfl⟩
    | failed => exact ⟨rest, fewer, fun _ => ReadLine.noConfusion, ReadLine.noConfusion⟩
  · cases status with
    | wouldBlock => exact ⟨rest, fewer, fun _ => ReadLine.noConfusion, fun _ => blocks rfl⟩
    | ok | failed => exact ⟨rest, fewer, fun _ => ReadLine.noConfusion, ReadLine.noConfusion⟩

/-! ## The call -/

/-- A call that nobody helps and nobody hinders, on a pipe. -/
structure OwnCall (transport : Transport) (task : TaskId) : Prop where
  kind : (transport.task task).kind = .call
  place : (transport.task task).phase = .idle ∨ (transport.task task).phase.standing ≠ none
  free : (forall line, (transport.task task).phase ≠ .yielding line) ->
    transport.readerGuard = none
  piped : transport.reader.Piped

section Steps

variable {text : JsonText} {transport next : Transport} {task : TaskId}

theorem OwnCall.feed (own : OwnCall transport task) {reader : LineReader}
    (piped : reader.Piped) : OwnCall { transport with reader := reader } task :=
  ⟨own.kind, own.place, own.free, piped⟩

private theorem proceed_own (transport : Transport)
    (kind : (transport.task task).kind = .call) :
    ((transport.proceed task).task task).kind = .call ∧
      ((transport.proceed task).task task).phase.standing ≠ none ∧
      ((transport.proceed task).task task).phase.toil ≤ 2 := by
  unfold Transport.proceed
  rw [kind]
  cases (transport.task task).channel with
  | empty =>
      rw [Transport.setPhase_task]
      exact ⟨kind, Option.some_ne_none _, Nat.le_refl 2⟩
  | full | canceled =>
      rw [Transport.setPhase_task]
      exact ⟨kind, Option.some_ne_none _, Nat.zero_le 2⟩

private theorem deliver_kind (response : RpcResponse) :
    ((transport.deliver response).task task).kind = (transport.task task).kind := by
  rw [Transport.deliver_task]
  split <;> rfl

private theorem processLine_own (text : JsonText) (transport : Transport)
    (kind : (transport.task task).kind = .call) (line : List UInt8) :
    ((transport.processLine text task line).task task).kind = .call ∧
      ((transport.processLine text task line).task task).phase.standing ≠ none := by
  unfold Transport.processLine
  split
  · rw [Transport.setPhase_task]
    exact ⟨kind, Option.some_ne_none _⟩
  · next message _ =>
      cases message with
      | rpcResponse response =>
          have delivered := (deliver_kind response).trans kind
          have proceeds := proceed_own _ delivered
          exact ⟨proceeds.1, proceeds.2.1⟩
      | rpcErrorResponse response =>
          rw [Transport.processMessage, Transport.setPhase_task]
          exact ⟨kind, Option.some_ne_none _⟩
      | rpcRequest request =>
          rw [Transport.processMessage]
          split
          · rw [Transport.setPhase_task]
            exact ⟨kind, Option.some_ne_none _⟩
          · rw [Transport.setPhase_task]
            exact ⟨kind, Option.some_ne_none _⟩

private theorem taken_own (text : JsonText) (kind : (transport.task task).kind = .call)
    {rest : LineReader} (piped : rest.Piped) (line : List UInt8) :
    let processed := Transport.processLine text
      { transport with reader := rest, readerGuard := none } task line
    OwnCall processed task ∧ processed.toil task ≤ 3 * rest.ahead.length + 3 := by
  have frame := Transport.processLine_frame text
    { transport with reader := rest, readerGuard := none } task line
  have own := processLine_own text { transport with reader := rest, readerGuard := none } kind line
  refine ⟨⟨own.1, .inr own.2, fun _ => frame.2.1, ?_⟩, ?_⟩
  · rw [frame.1]
    exact piped
  · rw [Transport.toil, frame.1]
    exact Nat.add_le_add_left (Phase.toil_le _) _

private theorem nextLine_own (text : JsonText) (own : OwnCall transport task) (line : List UInt8) :
    OwnCall (transport.nextLine text task line) task ∧
      ((transport.nextLine text task line).toil task ≤ 3 * transport.reader.ahead.length ∨
        transport.reader.closed = false ∧
          (transport.nextLine text task line).toil task ≤
            3 * transport.reader.ahead.length + 1) := by
  have reads := own.piped.readLine line
  unfold Transport.nextLine
  generalize transport.reader.readLine line = outcome at reads ⊢
  rcases outcome with ⟨result, read, rest⟩
  have fewer := reads.fewer
  have failed : OwnCall ({ transport with reader := rest, readerGuard := none }.setPhase task
      (.failed .internalError)) task := by
    refine ⟨?_, .inr ?_, fun _ => rfl, reads.piped⟩
    · rw [Transport.setPhase_task]
      exact own.kind
    · rw [Transport.setPhase_task]
      exact Option.some_ne_none _
  have failedToil : ({ transport with reader := rest, readerGuard := none }.setPhase task
      (.failed .internalError)).toil task ≤ 3 * transport.reader.ahead.length := by
    rw [Transport.toil, Transport.setPhase_task]
    exact Nat.mul_le_mul_left 3 fewer
  cases result with
  | ok count =>
      cases count with
      | zero => exact ⟨failed, .inl failedToil⟩
      | succ count =>
          have line := taken_own text own.kind reads.piped read
          have shorter := reads.taken count rfl
          refine ⟨line.1, .inl (Nat.le_trans line.2 ?_)⟩
          dsimp only at shorter ⊢
          omega
  | wouldBlock =>
      refine ⟨⟨?_, .inr ?_, fun awake => ?_, reads.piped⟩, .inr ⟨reads.blocks rfl, ?_⟩⟩
      · rw [Transport.setPhase_task]
        exact own.kind
      · rw [Transport.setPhase_task]
        exact Option.some_ne_none _
      · exact absurd (congrArg Task.phase (Transport.setPhase_task _ _ _)) (awake read)
      · rw [Transport.toil, Transport.setPhase_task]
        exact Nat.add_le_add_right (Nat.mul_le_mul_left 3 fewer) 1
  | failed => exact ⟨failed, .inl failedToil⟩

/-- A poll of a call never adds to what is left of it, and lowers it unless the call
had yielded and its stream is still open. -/
theorem OwnCall.poll (own : OwnCall transport task)
    (stepped : transport.step text (.poll task) = some next) :
    OwnCall next task ∧ next.toil task ≤ transport.toil task ∧
      ((transport.task task).phase = .awaitingReader ∨ transport.reader.closed = true ->
        next.toil task < transport.toil task) := by
  rcases Transport.step_poll stepped with ⟨line, reading, rfl⟩
  rcases nextLine_own text own line with ⟨still, lower⟩
  refine ⟨still, ?_⟩
  have whole : transport.toil task = 3 * transport.reader.ahead.length +
      (transport.task task).phase.toil := rfl
  cases place : (transport.task task).phase with
  | awaitingReader =>
      rw [place, Phase.toil] at whole
      omega
  | yielding part =>
      rw [place, Phase.toil] at whole
      refine ⟨by omega, fun ended => ?_⟩
      rcases ended with awaiting | closed
      · cases awaiting
      · rcases lower with less | ⟨opened, _⟩
        · omega
        · rw [closed] at opened
          cases opened
  | idle | handling | answered | done | failed | dropped =>
      rw [place] at reading
      cases reading

/-- A call that waits to read can be polled. -/
theorem OwnCall.polls (own : OwnCall transport task)
    (reading : (transport.task task).phase.partialLine ≠ none) :
    (transport.step text (.poll task)).isSome := by
  cases place : (transport.task task).phase with
  | awaitingReader =>
      have free : transport.readerGuard = none := own.free fun line yields => by
        rw [place] at yields
        cases yields
      simp only [Transport.step, place, free, if_true, Option.isSome_some]
  | yielding part => simp only [Transport.step, place, Option.isSome_some]
  | idle | handling | answered | done | failed | dropped =>
      rw [place] at reading
      exact absurd rfl reading

theorem OwnCall.handlerReturns (own : OwnCall transport task) {result : Except RpcError Value}
    (stepped : transport.step text (.handlerReturns task result true) = some next) :
    OwnCall next task ∧ next.toil task < transport.toil task := by
  simp only [Transport.step] at stepped
  split at stepped
  · next request handling =>
      have free : transport.readerGuard = none := own.free fun line yields => by
        rw [handling] at yields
        cases yields
      have proceeds :=
        proceed_own (transport.writeMessage (Transport.reply request result)) own.kind
      have frame := Transport.proceed_reader
        (transport.writeMessage (Transport.reply request result)) task
      rw [if_pos trivial] at stepped
      cases stepped
      refine ⟨⟨proceeds.1, .inr proceeds.2.1, fun _ => frame.2.trans free, ?_⟩, ?_⟩
      · rw [frame.1]
        exact own.piped
      · have lower := proceeds.2.2
        rw [Transport.toil, Transport.toil, frame.1, handling]
        dsimp only [Transport.writeMessage, Phase.toil] at lower ⊢
        omega
  · cases stepped

theorem OwnCall.call (own : OwnCall transport task) {method : String} {params : Value}
    (stepped : transport.step text (.call task method params true) = some next) :
    OwnCall next task ∧ next.toil task < transport.toil task := by
  rcases Transport.step_call stepped with ⟨idle, called, _, _, _, reader, _, _⟩
  have phase : (next.task task).phase = .awaitingReader := by rw [called]
  have free : next.readerGuard = none := by
    simp only [Transport.step, idle, if_true, Option.some.injEq] at stepped
    rw [← stepped, (Transport.proceed_reader _ task).2]
    exact own.free fun line yields => by
      rw [idle] at yields
      cases yields
  refine ⟨⟨by rw [called], .inr ?_, fun _ => free, reader ▸ own.piped⟩, ?_⟩
  · rw [phase]
    exact Option.some_ne_none _
  · rw [Transport.toil, Transport.toil, reader, phase, idle]
    exact Nat.lt_succ_self _

end Steps

end Rpc
end WasmiPlugin
