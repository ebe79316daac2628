import WasmiPlugin.Foundation.Utf8
import WasmiPlugin.Pipe.NonBlockingPipe
import WasmiPlugin.Rpc.Text

namespace WasmiPlugin
namespace Host

open Foundation Lines

/-!
# The log of a plugin

What the guest writes to stderr goes through a pipe.  A task of `Plugin::call`
reads lines from it and passes each to the logger, until `read_line` gives
nothing.  It gives nothing at the end of the stream, and also when a line is not
UTF-8: the loop does not tell the two apart.

The stream is cut into chunks by the guest's writes, by the pipe's reads and by
the buffer, and none of this shows.  `Lines.CutInto` is the invariant: the lines
that were read, the part of the next one, and what is buffered are the stream.
-/

/-- The capacity of the `BufReader`. -/
def bufferCapacity : Nat := 8192

/-- The task that logs, with the pipe it reads from.  `line` are the bytes that
`read_line` has collected. -/
structure StderrTask where
  pipe : Pipe.Inner
  buffer : List UInt8
  line : List UInt8
  logged : List (List UInt8)
  done : Bool

/-- What happens to the log: the guest writes or drops its end, or the task takes
one turn of the loop in `read_line`. -/
inductive LogAction where
  | write (bytes : List UInt8)
  | close
  | turn (waker : Pipe.Waker)

namespace StderrTask

def spawned : StderrTask where
  pipe := Pipe.nonBlockingPipe
  buffer := []
  line := []
  logged := []
  done := false

/-- `read_line` has found the end of a line: the line is logged if it is UTF-8, and
otherwise the loop ends. -/
def endLine (task : StderrTask) (line : List UInt8) : StderrTask :=
  if Utf8.Valid line then { task with line := [], logged := task.logged ++ [Rpc.trimEnd line] }
  else { task with line := [], done := true }

/-- `read_line` with some bytes in the buffer, or with none at the end of the stream. -/
def consume (task : StderrTask) : StderrTask :=
  if task.buffer = [] then
    if task.line = [] then { task with done := true } else task.endLine task.line
  else
    match takeLine task.buffer with
    | some (found, rest) => { task with buffer := rest }.endLine (task.line ++ found)
    | none => { task with line := task.line ++ task.buffer, buffer := [] }

/-- One turn: fill the buffer if it is empty, and consume what is there. -/
def turn (task : StderrTask) (waker : Pipe.Waker) : StderrTask :=
  if task.buffer = [] then
    match task.pipe.pollRead bufferCapacity waker with
    | (.pending, pipe) => { task with pipe := pipe }
    | (.ready data, pipe) => { task with pipe := pipe, buffer := data }.consume
  else task.consume

/-- One step of the guest's stderr and the task. The guest does not write after it has
dropped its end, and a task that is done is not polled. -/
def step (task : StderrTask) : LogAction -> Option StderrTask
  | .write bytes =>
      if task.pipe.closed then none
      else some { task with pipe := (task.pipe.write bytes).2.2 }
  | .close =>
      if task.pipe.closed then none else some { task with pipe := task.pipe.dropWriter.2 }
  | .turn waker => if task.done then none else some (task.turn waker)

end StderrTask

def stderrStream (history : List (Transition StderrTask LogAction)) : List UInt8 :=
  history.flatMap fun taken =>
    match taken.action with
    | .write bytes => bytes
    | _ => []

/-- The text of a line as the logger should get it: without trailing white space, and
in some rendering if it is not UTF-8. -/
def Renders (line text : List UInt8) : Prop :=
  Utf8.Valid line -> text = Rpc.trimEnd line

/-- The logger is called once for each line, in order. -/
def LogsEveryLine (stream : List UInt8) (logged : List (List UInt8)) : Prop :=
  List.Forall₂ Renders (split stream) logged

/-- Every line of a stream is UTF-8. -/
def AllValid (lines : List (List UInt8)) : Prop :=
  forall line, line ∈ lines -> Utf8.Valid line

/-! ## The invariant -/

/-- The lines that were read have been logged.  A task that is done has read
everything, or has met a line that is not UTF-8 after them. -/
structure Progress (stream : List UInt8) (task : StderrTask) (read : List (List UInt8)) : Prop where
  cut : CutInto task.pipe.closed stream read task.line (task.buffer ++ task.pipe.buf)
  going : task.done = false -> AllValid read ∧ task.logged = read.map Rpc.trimEnd
  done : task.done = true ->
    (AllValid read ∧ task.logged = read.map Rpc.trimEnd ∧ task.pipe.closed = true ∧
      task.line = [] ∧ task.buffer ++ task.pipe.buf = []) ∨
    Exists fun earlier => Exists fun bad => read = earlier ++ [bad] ∧ ¬ Utf8.Valid bad ∧
      task.logged = earlier.map Rpc.trimEnd

private theorem endLine_progress {stream line : List UInt8} {task : StderrTask}
    {read : List (List UInt8)}
    (cut : CutInto task.pipe.closed stream (read ++ [line]) [] (task.buffer ++ task.pipe.buf))
    (going : task.done = false) (valid : AllValid read)
    (logged : task.logged = read.map Rpc.trimEnd) :
    Progress stream (task.endLine line) (read ++ [line]) := by
  unfold StderrTask.endLine
  split
  · next isValid =>
      refine ⟨cut, fun _ => ⟨?_, ?_⟩, fun isDone => ?_⟩
      · intro other listed
        rcases List.mem_append.mp listed with before | last
        · exact valid other before
        · rw [List.mem_singleton.mp last]
          exact isValid
      · rw [List.map_append, logged]
        rfl
      · rw [show task.done = true from isDone] at going
        cases going
  · next bad =>
      refine ⟨cut, fun isGoing => ?_, fun _ => .inr ⟨read, line, rfl, bad, logged⟩⟩
      cases isGoing

private theorem consume_progress {stream : List UInt8} {task : StderrTask}
    {read : List (List UInt8)} (progress : Progress stream task read)
    (going : task.done = false)
    (atEnd : task.buffer = [] -> task.pipe.closed = true ∧ task.pipe.buf = []) :
    Exists fun read => Progress stream task.consume read := by
  rcases progress.going going with ⟨valid, logged⟩
  have cut := progress.cut
  unfold StderrTask.consume
  by_cases empty : task.buffer = []
  · rcases atEnd empty with ⟨closed, drained⟩
    rw [if_pos empty]
    rw [empty, drained, closed, List.append_nil] at cut
    by_cases noLine : task.line = []
    · rw [if_pos noLine]
      refine ⟨read, ?_, fun isGoing => (by cases isGoing), fun _ => .inl ⟨valid, logged, closed,
        noLine, ?_⟩⟩
      · dsimp only
        rw [empty, drained, closed, List.append_nil]
        exact cut
      · dsimp only
        rw [empty, drained, List.append_nil]
    · rw [if_neg noLine]
      refine ⟨read ++ [task.line], endLine_progress ?_ going valid logged⟩
      rw [empty, drained, closed, List.append_nil]
      exact cut.last noLine
  · rw [if_neg empty]
    cases found : takeLine task.buffer with
    | some parts =>
        rcases parts with ⟨line, rest⟩
        refine ⟨read ++ [task.line ++ line], endLine_progress ?_ going valid logged⟩
        exact cut.line (takeLine_append_right found task.pipe.buf)
    | none =>
        have plain := (takeLine_none_iff task.buffer).mp found
        refine ⟨read, ?_, fun _ => ⟨valid, logged⟩, fun isDone => ?_⟩
        · exact cut.plain plain
        · rw [show task.done = true from isDone] at going
          cases going

private theorem Progress.refill {stream : List UInt8} {task : StderrTask}
    {read : List (List UInt8)} (progress : Progress stream task read)
    (going : task.done = false) {pipe : Pipe.Inner} {buffer : List UInt8}
    (closed : pipe.closed = task.pipe.closed)
    (same : buffer ++ pipe.buf = task.buffer ++ task.pipe.buf) :
    Progress stream { task with pipe := pipe, buffer := buffer } read := by
  refine ⟨?_, progress.going, fun isDone => ?_⟩
  · dsimp only
    rw [closed, same]
    exact progress.cut
  · rw [show task.done = true from isDone] at going
    cases going

/-- A turn of the task makes progress in the same stream, since it only moves bytes
from the pipe to the log. -/
theorem turn_progress {stream : List UInt8} {task : StderrTask}
    {read : List (List UInt8)} (progress : Progress stream task read)
    (going : task.done = false) (waker : Pipe.Waker) :
    Exists fun read => Progress stream (task.turn waker) read := by
  unfold StderrTask.turn
  by_cases empty : task.buffer = []
  · rw [if_pos empty]
    rcases Pipe.pollRead_cases task.pipe (show 0 < bufferCapacity by decide) waker with
      ⟨some, ready⟩ | ⟨drained, closed, ended⟩ | ⟨drained, alive, pending⟩
    · rw [ready]
      refine consume_progress (progress.refill going rfl ?_) going fun none => ?_
      · dsimp only
        rw [List.take_append_drop, empty, List.nil_append]
      · have nothing : (task.pipe.buf.take bufferCapacity).length = 0 :=
          List.length_eq_zero_iff.mpr none
        exact absurd ((Pipe.take_eq_nil_of_room task.pipe.buf
          (show 0 < bufferCapacity by decide)).mp nothing) some
    · rw [ended]
      refine consume_progress (progress.refill going rfl ?_) going fun _ => ⟨closed, drained⟩
      rw [empty]
    · rw [pending]
      exact ⟨read, progress.refill going rfl rfl⟩
  · rw [if_neg empty]
    exact consume_progress progress going fun none => absurd none empty

private theorem step_progress {history : List (Transition StderrTask LogAction)}
    {before after : StderrTask} {action : LogAction}
    (progress : Exists fun read => Progress (stderrStream history) before read)
    (stepped : before.step action = some after) :
    Exists fun read =>
      Progress (stderrStream (history ++ [⟨before, action, after⟩])) after read := by
  rcases progress with ⟨read, progress⟩
  rw [stderrStream, List.flatMap_append, List.flatMap_singleton, ← stderrStream]
  cases action with
  | write bytes =>
      simp only [StderrTask.step] at stepped
      split at stepped
      · cases stepped
      · next alive =>
          cases stepped
          have opened : before.pipe.closed = false := Bool.not_eq_true _ ▸ alive
          have cut := progress.cut
          rw [opened] at cut
          refine ⟨read, ?_, progress.going, fun isDone => ?_⟩
          · dsimp only
            rw [Pipe.write_buf, Pipe.write_closed, opened, ← List.append_assoc]
            exact cut.arrive bytes
          · rcases progress.done isDone with ⟨_, _, closed, _⟩ | stopped
            · rw [closed] at opened
              cases opened
            · exact .inr stopped
  | close =>
      simp only [StderrTask.step] at stepped
      split at stepped
      · cases stepped
      · cases stepped
        dsimp only
        rw [List.append_nil]
        refine ⟨read, progress.cut.finish, progress.going, fun isDone => ?_⟩
        rcases progress.done isDone with ⟨valid, logged, closed, ended⟩ | stopped
        · exact .inl ⟨valid, logged, rfl, ended⟩
        · exact .inr stopped
  | turn waker =>
      simp only [StderrTask.step] at stepped
      split at stepped
      · cases stepped
      · next going =>
          cases stepped
          dsimp only
          rw [List.append_nil]
          exact turn_progress progress (Bool.not_eq_true _ ▸ going) waker

theorem stderr_progress {history : List (Transition StderrTask LogAction)} {final : StderrTask}
    (run : Run StderrTask.step .spawned history final) :
    Exists fun read => Progress (stderrStream history) final read := by
  refine (run.throughout
    (fun history task => Exists fun read => Progress (stderrStream history) task read)
    (fun _ => True) ?_ (fun _ _ => trivial)
    fun _ _ _ _ progress stepped _ => step_progress progress stepped).1
  exact ⟨[], .start false [], fun _ => ⟨fun _ listed => absurd listed List.not_mem_nil, rfl⟩,
    fun isDone => (by cases isDone)⟩

/-! ## The end of the task -/

namespace StderrTask

/-- The turns that are left when nothing more is written: one for each byte at most,
one for a last line, and one for the end, counted generously. -/
def remaining (task : StderrTask) : Nat :=
  if task.done then 0
  else 1 + (if task.line = [] then 0 else 1) + 2 * (task.buffer.length + task.pipe.buf.length)

def turns : StderrTask -> List Pipe.Waker -> StderrTask
  | task, [] => task
  | task, waker :: wakers => if task.done then task else (task.turn waker).turns wakers

private theorem remaining_going {task : StderrTask} (going : task.done = false) :
    task.remaining = 1 + (if task.line = [] then 0 else 1) +
      2 * (task.buffer.length + task.pipe.buf.length) := by
  simp only [remaining, going, Bool.false_eq_true, if_false]

private theorem endLine_remaining (task : StderrTask) (line : List UInt8) :
    (task.endLine line).remaining ≤ 1 + 2 * (task.buffer.length + task.pipe.buf.length) := by
  unfold endLine
  split
  · simp only [remaining, if_true]
    split <;> omega
  · simp only [remaining, if_true]
    omega

theorem endLine_pipe (task : StderrTask) (line : List UInt8) :
    (task.endLine line).pipe = task.pipe := by
  unfold endLine
  split <;> rfl

theorem consume_pipe (task : StderrTask) : task.consume.pipe = task.pipe := by
  unfold consume
  split
  · split
    · rfl
    · exact task.endLine_pipe _
  · split
    · exact endLine_pipe _ _
    · rfl

private theorem consume_remaining {task : StderrTask} (going : task.done = false) :
    task.consume.remaining < task.remaining := by
  rw [remaining_going going]
  unfold consume
  by_cases empty : task.buffer = []
  · rw [if_pos empty]
    by_cases noLine : task.line = []
    · rw [if_pos noLine]
      simp only [remaining, if_true]
      omega
    · rw [if_neg noLine, if_neg noLine]
      have bound := task.endLine_remaining task.line
      omega
  · rw [if_neg empty]
    have some : 0 < task.buffer.length := List.length_pos_iff.mpr empty
    cases found : takeLine task.buffer with
    | some parts =>
        rcases parts with ⟨line, rest⟩
        have shape := (takeLine_some found).1
        rcases (takeLine_some found).2 with ⟨body, _, ends⟩
        have fewer : rest.length < task.buffer.length := by
          rw [shape, ends]
          simp only [List.length_append, List.length_singleton]
          omega
        have bound := { task with buffer := rest }.endLine_remaining (task.line ++ line)
        dsimp only at bound ⊢
        omega
    | none =>
        simp only [remaining, going, Bool.false_eq_true, if_false, List.length_nil]
        split <;> split <;> omega

private theorem turn_remaining {task : StderrTask} (going : task.done = false)
    (closed : task.pipe.closed = true) (waker : Pipe.Waker) :
    (task.turn waker).remaining < task.remaining ∧ (task.turn waker).pipe.closed = true := by
  unfold turn
  by_cases empty : task.buffer = []
  · rw [if_pos empty]
    -- What the pipe gives is as much as it loses.
    rcases Pipe.pollRead_cases task.pipe (show 0 < bufferCapacity by decide) waker with
      ⟨_, ready⟩ | ⟨_, _, ended⟩ | ⟨_, alive, _⟩
    · rw [ready]
      dsimp only
      rw [consume_pipe]
      refine ⟨Nat.lt_of_lt_of_le (consume_remaining (by exact going)) ?_, closed⟩
      have moved := congrArg List.length (List.take_append_drop bufferCapacity task.pipe.buf)
      rw [List.length_append] at moved
      rw [remaining_going going, remaining_going (by exact going), empty, List.length_nil]
      dsimp only
      omega
    · rw [ended]
      dsimp only
      rw [consume_pipe]
      refine ⟨Nat.lt_of_lt_of_le (consume_remaining (by exact going)) (Nat.le_of_eq ?_), closed⟩
      rw [remaining_going going, remaining_going (by exact going), empty]
    · rw [closed] at alive
      cases alive
  · rw [if_neg empty, consume_pipe]
    exact ⟨consume_remaining going, closed⟩

/-- A task whose stream has ended is done after as many turns as it has remaining. -/
theorem turns_done {task : StderrTask} (closed : task.pipe.closed = true)
    {wakers : List Pipe.Waker} (enough : task.remaining ≤ wakers.length) :
    (task.turns wakers).done = true := by
  induction wakers generalizing task with
  | nil =>
      cases done : task.done with
      | true => exact done
      | false =>
          rw [remaining_going done, List.length_nil] at enough
          omega
  | cons waker wakers inductionHypothesis =>
      rw [turns]
      cases done : task.done with
      | true =>
          rw [if_pos rfl]
          exact done
      | false =>
          rw [if_neg Bool.false_ne_true]
          rcases turn_remaining done closed waker with ⟨fewer, still⟩
          apply inductionHypothesis still
          rw [List.length_cons] at enough
          omega

/-! ### Polling -/

/-- A poll of the task is turns of its loop until it waits or is done.  A task that
waits only registers its waker again in the turns that are left. -/
def poll (task : StderrTask) (waker : Pipe.Waker) : StderrTask :=
  task.turns (List.replicate task.remaining waker)

structure Idle (task : StderrTask) (waker : Pipe.Waker) : Prop where
  going : task.done = false
  buffer : task.buffer = []
  drained : task.pipe.buf = []
  opened : task.pipe.closed = false
  registered : task.pipe.waker = some waker

private theorem Idle.turn {task : StderrTask} {waker : Pipe.Waker} (idle : task.Idle waker) :
    task.turn waker = task := by
  rcases task with ⟨⟨buf, closed, slot⟩, buffer, line, logged, done⟩
  rcases idle with ⟨_, rfl, rfl, rfl, rfl⟩
  rfl

private theorem Idle.turns {task : StderrTask} {waker : Pipe.Waker} (idle : task.Idle waker)
    (count : Nat) : task.turns (List.replicate count waker) = task := by
  induction count with
  | zero => rfl
  | succ count inductionHypothesis =>
      rw [List.replicate_succ, StderrTask.turns, idle.going, if_neg Bool.false_ne_true, idle.turn,
        inductionHypothesis]

private theorem turn_rests {task : StderrTask} (going : task.done = false) (waker : Pipe.Waker) :
    (task.turn waker).remaining < task.remaining ∨ (task.turn waker).Idle waker := by
  unfold turn
  by_cases empty : task.buffer = []
  · rw [if_pos empty]
    rcases Pipe.pollRead_cases task.pipe (show 0 < bufferCapacity by decide) waker with
      ⟨_, ready⟩ | ⟨_, _, ended⟩ | ⟨drained, opened, pending⟩
    · rw [ready]
      refine .inl (Nat.lt_of_lt_of_le (consume_remaining (by exact going)) ?_)
      have moved := congrArg List.length (List.take_append_drop bufferCapacity task.pipe.buf)
      rw [List.length_append] at moved
      rw [remaining_going going, remaining_going (by exact going), empty, List.length_nil]
      dsimp only
      omega
    · rw [ended]
      refine .inl (Nat.lt_of_lt_of_le (consume_remaining (by exact going)) (Nat.le_of_eq ?_))
      rw [remaining_going going, remaining_going (by exact going), empty]
    · rw [pending]
      exact .inr ⟨going, empty, drained, opened, rfl⟩
  · rw [if_neg empty]
    exact .inl (consume_remaining going)

private theorem turns_rest (waker : Pipe.Waker) {count : Nat} {task : StderrTask}
    (enough : task.remaining ≤ count) :
    (task.turns (List.replicate count waker)).done = true ∨
      (task.turns (List.replicate count waker)).Idle waker := by
  induction count generalizing task with
  | zero =>
      cases done : task.done with
      | true => exact .inl done
      | false =>
          rw [remaining_going done] at enough
          omega
  | succ count inductionHypothesis =>
      rw [List.replicate_succ, turns]
      cases done : task.done with
      | true => exact .inl (by rw [if_pos rfl, done])
      | false =>
          rw [if_neg Bool.false_ne_true]
          rcases turn_rests done waker with fewer | idle
          · exact inductionHypothesis (by omega)
          · rw [idle.turns]
            exact .inr idle

theorem turn_closed (task : StderrTask) (waker : Pipe.Waker) :
    (task.turn waker).pipe.closed = task.pipe.closed := by
  have frame := Pipe.pollRead_frame task.pipe bufferCapacity waker
  unfold turn
  split
  · split
    · next pipe same =>
        rw [same] at frame
        exact frame.2
    · next data pipe same =>
        rw [same] at frame
        rw [consume_pipe]
        exact frame.2
  · rw [consume_pipe]

theorem turns_closed (task : StderrTask) (wakers : List Pipe.Waker) :
    (task.turns wakers).pipe.closed = task.pipe.closed := by
  induction wakers generalizing task with
  | nil => rfl
  | cons waker wakers inductionHypothesis =>
      rw [turns]
      split
      · rfl
      · rw [inductionHypothesis, turn_closed]

/-- A task that was polled is done, or it has read everything and waits for more. -/
theorem poll_rests (task : StderrTask) (waker : Pipe.Waker) :
    (task.poll waker).done = true ∨ (task.poll waker).Idle waker :=
  turns_rest waker (Nat.le_refl _)

end StderrTask

/-! ## The law -/

theorem logged_iff {stream : List UInt8} {task : StderrTask} {read : List (List UInt8)}
    (progress : Progress stream task read) (done : task.done = true) :
    LogsEveryLine stream task.logged ↔ AllValid (split stream) := by
  have whole := progress.cut.whole
  unfold LogsEveryLine
  rcases progress.done done with
    ⟨valid, logged, _, noLine, drained⟩ | ⟨earlier, bad, shape, invalid, logged⟩
  · rw [noLine, drained, splitAfter, if_pos rfl, List.append_nil] at whole
    rw [whole, logged]
    refine iff_of_true ?_ valid
    rw [List.forall₂_map_right_iff]
    exact List.forall₂_same.mpr fun line _ _ => rfl
  · rw [whole, shape, logged]
    constructor
    · intro all
      have same := all.length_eq
      simp only [List.length_append, List.length_map, List.length_singleton] at same
      omega
    · intro valid
      refine absurd (valid bad ?_) invalid
      exact List.mem_append_left _ (List.mem_append_right _ List.mem_cons_self)

theorem turns_progress {stream : List UInt8} {task : StderrTask}
    {read : List (List UInt8)} (progress : Progress stream task read)
    (wakers : List Pipe.Waker) :
    Exists fun read => Progress stream (task.turns wakers) read := by
  induction wakers generalizing task read with
  | nil => exact ⟨read, progress⟩
  | cons waker wakers inductionHypothesis =>
      rw [StderrTask.turns]
      cases done : task.done with
      | true => exact ⟨read, progress⟩
      | false =>
          rcases turn_progress progress done waker with ⟨read, progress⟩
          exact inductionHypothesis progress

/-- After the guest has dropped its end, the task is done with its stream in a
bounded number of turns.  It has then logged every line exactly if every line is
UTF-8. -/
theorem logs_every_line_iff {history : List (Transition StderrTask LogAction)}
    {final : StderrTask} (run : Run StderrTask.step .spawned history final)
    (closed : final.pipe.closed = true) (wakers : List Pipe.Waker)
    (enough : final.remaining ≤ wakers.length) :
    (final.turns wakers).done = true ∧
      (LogsEveryLine (stderrStream history) (final.turns wakers).logged ↔
        AllValid (split (stderrStream history))) := by
  rcases stderr_progress run with ⟨_, progress⟩
  rcases turns_progress progress wakers with ⟨_, progress⟩
  have done := StderrTask.turns_done closed enough
  exact ⟨done, logged_iff progress done⟩

/-! ## A line that is not UTF-8 -/

/-- The guest writes two lines to its stderr, of which the first is not UTF-8, and
ends. -/
def badLine : List LogAction :=
  [.write [0xFF, 0x0A], .write [0x68, 0x0A], .close, .turn 0]

theorem badLine_enabled : (Run.play StderrTask.step .spawned badLine).isSome := by
  decide

/-- The line after one that is not UTF-8 is never logged, so the log does not have
every line. -/
theorem bad_line_silences :
    ¬ forall history final, Run StderrTask.step .spawned history final ->
        final.pipe.closed = true -> final.done = true ->
          LogsEveryLine (stderrStream history) final.logged := by
  intro law
  have logged := law _ _ (Run.of_enabled badLine badLine_enabled) (by decide) (by decide)
  exact absurd logged.length_eq (by decide)

/-- The guest writes a line in two pieces and a part of another one, and ends. -/
def goodLines : List LogAction :=
  [.write [0x68], .turn 0, .write [0x69, 0x20, 0x0A, 0x6F], .turn 0, .close]

theorem goodLines_enabled : (Run.play StderrTask.step .spawned goodLines).isSome := by
  decide

/-- The history and the state after `goodLines`, when the part of the second line is
still unread. -/
def goodLog : List (Transition StderrTask LogAction) × StderrTask :=
  (Run.play StderrTask.step .spawned goodLines).get goodLines_enabled

/-- Four more turns log both lines of `goodLines`, the second one without its newline. -/
theorem goodLines_logged :
    (goodLog.2.turns [0, 0, 0, 0]).done = true ∧
      (LogsEveryLine (stderrStream goodLog.1) (goodLog.2.turns [0, 0, 0, 0]).logged ↔
        AllValid (split (stderrStream goodLog.1))) :=
  logs_every_line_iff (Run.of_enabled goodLines goodLines_enabled) (by decide) [0, 0, 0, 0]
    (by decide)

end Host
end WasmiPlugin
