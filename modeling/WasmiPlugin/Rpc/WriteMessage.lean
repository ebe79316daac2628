import Mathlib.Logic.Function.Basic
import WasmiPlugin.Foundation.Run
import WasmiPlugin.Rpc.Text

namespace WasmiPlugin
namespace Rpc

open Foundation

/-!
# Concurrent writers of one stream

`write_message` serializes its message, takes the writer lock, hands the whole
line to `write_all` and flushes before the guard is dropped.  The underlying
writer may accept a line in any number of parts.  Tasks are interleaved after
every one of these actions, which is more than a cooperative executor does, so
that what is proved rests on the lock alone.

The messages a task asked to be written and the messages whose writes have
completed are read off the history of a run.
-/

/-- The identity of a task on the executor. -/
abbrev TaskId := Nat

/-- Where a task stands in `write_message`. -/
inductive WritePhase where
  | idle
  | locking (message : RpcMessage)
  | writing (message : RpcMessage) (rest : List UInt8)
  | flushing (message : RpcMessage)

/-- The writer behind its mutex, and the tasks that use it. -/
structure Writers where
  output : List UInt8
  guard : Option TaskId
  task : TaskId -> WritePhase

/-- Nothing written, nobody writing. -/
def Writers.start : Writers where
  output := []
  guard := none
  task := fun _ => .idle

inductive WriteAction where
  | call (task : TaskId) (message : RpcMessage)
  | lock (task : TaskId)
  | accept (task : TaskId) (count : Nat)
  | flush (task : TaskId)

namespace Writers

variable (text : JsonText)

/-- One action of one task.  An `accept` is one call of `Write::write` inside
`write_all`, by which the writer takes at least one byte. -/
def step (writers : Writers) : WriteAction -> Option Writers
  | .call task message =>
      match writers.task task with
      | .idle => some { writers with task := Function.update writers.task task (.locking message) }
      | _ => none
  | .lock task =>
      match writers.task task, writers.guard with
      | .locking message, none => some { writers with
          guard := some task
          task := Function.update writers.task task (.writing message (frame text message)) }
      | _, _ => none
  | .accept task count =>
      match writers.task task with
      | .writing message rest =>
          if 0 < count ∧ count ≤ rest.length then some { writers with
            output := writers.output ++ rest.take count
            task := Function.update writers.task task
              (if rest.drop count = [] then .flushing message
                else .writing message (rest.drop count)) }
          else none
      | _ => none
  | .flush task =>
      match writers.task task with
      | .flushing _ => some { writers with
          guard := none
          task := Function.update writers.task task .idle }
      | _ => none

end Writers

/-- The write a transition begins, with its task. -/
def beginning : Transition Writers WriteAction -> Option (TaskId × RpcMessage)
  | ⟨_, .call task message, _⟩ => some (task, message)
  | _ => none

def completing : Transition Writers WriteAction -> Option (TaskId × RpcMessage)
  | ⟨before, .flush task, _⟩ =>
      match before.task task with
      | .flushing message => some (task, message)
      | _ => none
  | _ => none

def begun (history : List (Transition Writers WriteAction)) : List (TaskId × RpcMessage) :=
  history.filterMap beginning

def completed (history : List (Transition Writers WriteAction)) : List (TaskId × RpcMessage) :=
  history.filterMap completing

/-- The message a task is busy with. -/
def WritePhase.message : WritePhase -> Option RpcMessage
  | .idle => none
  | .locking message => some message
  | .writing message _ => some message
  | .flushing message => some message

/-- The part of a holder's line that the writer has not accepted yet. -/
def WritePhase.unwritten : WritePhase -> List UInt8
  | .writing _ rest => rest
  | _ => []

/-- A task between taking the lock and dropping the guard. -/
def WritePhase.Holding : WritePhase -> Prop
  | .writing _ _ => True
  | .flushing _ => True
  | _ => False

def WriteAction.task : WriteAction -> TaskId
  | .call task _ => task
  | .lock task => task
  | .accept task _ => task
  | .flush task => task

section Discipline

variable (text : JsonText)

def frames (writes : List (TaskId × RpcMessage)) : List UInt8 :=
  writes.flatMap fun write => frame text write.2

def ofTask (task : TaskId) (writes : List (TaskId × RpcMessage)) : List (TaskId × RpcMessage) :=
  writes.filter fun write => write.1 = task

def underWay (task : TaskId) (phase : WritePhase) : List (TaskId × RpcMessage) :=
  (phase.message.map fun message => (task, message)).toList

/-- The lock's discipline.  The task with the guard is the only holder.  The
output is the frames of the completed writes, followed by what has been accepted
of the holder's line, and every task's writes are completed in its own order. -/
structure Orderly (history : List (Transition Writers WriteAction)) (writers : Writers) : Prop where
  holder : forall task, (writers.task task).Holding ↔ writers.guard = some task
  free : writers.guard = none -> writers.output = frames text (completed history)
  held : forall task message, (writers.task task).Holding ->
    (writers.task task).message = some message ->
    Exists fun accepted => writers.output = frames text (completed history) ++ accepted ∧
      accepted ++ (writers.task task).unwritten = frame text message
  served : forall task, ofTask task (begun history) = ofTask task (completed history) ++
    underWay task (writers.task task)

variable {text}

private theorem Orderly.only_holder {history : List (Transition Writers WriteAction)}
    {writers : Writers} (orderly : Orderly text history writers) {task other : TaskId}
    (guard : writers.guard = some task) (holding : (writers.task other).Holding) :
    other = task :=
  (Option.some.inj (guard.symm.trans ((orderly.holder other).mp holding))).symm

/-! ### What an action did -/

private theorem step_call {writers next : Writers} {task : TaskId} {message : RpcMessage}
    (stepped : writers.step text (.call task message) = some next) :
    writers.task task = .idle ∧ next = { writers with
      task := Function.update writers.task task (.locking message) } := by
  simp only [Writers.step] at stepped
  split at stepped
  · next idle => exact ⟨idle, (Option.some.inj stepped).symm⟩
  · cases stepped

private theorem step_lock {writers next : Writers} {task : TaskId}
    (stepped : writers.step text (.lock task) = some next) :
    Exists fun message => writers.task task = .locking message ∧ writers.guard = none ∧
      next = { writers with
        guard := some task
        task := Function.update writers.task task (.writing message (frame text message)) } := by
  simp only [Writers.step] at stepped
  split at stepped
  · next message locking free => exact ⟨message, locking, free, (Option.some.inj stepped).symm⟩
  · cases stepped

private theorem step_accept {writers next : Writers} {task : TaskId} {count : Nat}
    (stepped : writers.step text (.accept task count) = some next) :
    Exists fun message => Exists fun rest => Exists fun phase =>
      writers.task task = .writing message rest ∧ phase.Holding ∧
      phase.message = some message ∧ phase.unwritten = rest.drop count ∧
      next = { writers with
        output := writers.output ++ rest.take count
        task := Function.update writers.task task phase } := by
  simp only [Writers.step] at stepped
  split at stepped
  · next message rest writing =>
      split at stepped
      · refine ⟨message, rest, _, writing, ?_, ?_, ?_, (Option.some.inj stepped).symm⟩ <;>
          by_cases all : rest.drop count = [] <;>
          simp [all, WritePhase.Holding, WritePhase.message, WritePhase.unwritten]
      · cases stepped
  · cases stepped

private theorem step_flush {writers next : Writers} {task : TaskId}
    (stepped : writers.step text (.flush task) = some next) :
    Exists fun message => writers.task task = .flushing message ∧ next = { writers with
      guard := none
      task := Function.update writers.task task .idle } := by
  simp only [Writers.step] at stepped
  split at stepped
  · next message flushing => exact ⟨message, flushing, (Option.some.inj stepped).symm⟩
  · cases stepped

/-! ### Counting the writes -/

private theorem frames_append (left right : List (TaskId × RpcMessage)) :
    frames text (left ++ right) = frames text left ++ frames text right :=
  List.flatMap_append

private theorem begun_extend (history : List (Transition Writers WriteAction))
    (taken : Transition Writers WriteAction) :
    begun (history ++ [taken]) = begun history ++ (beginning taken).toList :=
  filterMap_extend beginning history taken

private theorem completed_extend (history : List (Transition Writers WriteAction))
    (taken : Transition Writers WriteAction) :
    completed (history ++ [taken]) = completed history ++ (completing taken).toList :=
  filterMap_extend completing history taken

private theorem completed_same {history : List (Transition Writers WriteAction)}
    {taken : Transition Writers WriteAction} (none : completing taken = none) :
    completed (history ++ [taken]) = completed history := by
  rw [completed_extend, none]
  exact List.append_nil _

private theorem ofTask_append (task : TaskId) (left right : List (TaskId × RpcMessage)) :
    ofTask task (left ++ right) = ofTask task left ++ ofTask task right :=
  List.filter_append left right

private theorem beginning_task {taken : Transition Writers WriteAction}
    {write : TaskId × RpcMessage} (made : beginning taken = some write) :
    write.1 = taken.action.task := by
  unfold beginning at made
  split at made
  · rw [← Option.some.inj made]
    rfl
  · cases made

private theorem completing_task {taken : Transition Writers WriteAction}
    {write : TaskId × RpcMessage} (made : completing taken = some write) :
    write.1 = taken.action.task := by
  unfold completing at made
  split at made
  · split at made
    · rw [← Option.some.inj made]
      rfl
    · cases made
  · cases made

private theorem ofTask_option {made : Option (TaskId × RpcMessage)} {acting : TaskId}
    (own : forall write, made = some write -> write.1 = acting) (task : TaskId) :
    ofTask task made.toList = if acting = task then made.toList else [] := by
  cases made with
  | none => simp [ofTask]
  | some write =>
      rw [← own write rfl]
      by_cases same : write.1 = task <;> simp [ofTask, same]

private theorem served_extend {history : List (Transition Writers WriteAction)}
    {writers : Writers} (orderly : Orderly text history writers)
    (taken : Transition Writers WriteAction) {phase : WritePhase}
    (moved : underWay taken.action.task (writers.task taken.action.task) ++
        (beginning taken).toList =
      (completing taken).toList ++ underWay taken.action.task phase) (task : TaskId) :
    ofTask task (begun (history ++ [taken])) = ofTask task (completed (history ++ [taken])) ++
      underWay task (Function.update writers.task taken.action.task phase task) := by
  rw [begun_extend, completed_extend, ofTask_append, ofTask_append,
    ofTask_option (fun _ => beginning_task), ofTask_option (fun _ => completing_task),
    orderly.served task]
  by_cases same : taken.action.task = task
  · subst same
    rw [if_pos rfl, if_pos rfl, Function.update_self, List.append_assoc, List.append_assoc, moved]
  · rw [if_neg same, if_neg same, Function.update_of_ne (Ne.symm same), List.append_nil,
      List.append_nil]

/-! ### The discipline is kept -/

private theorem orderly_call {history : List (Transition Writers WriteAction)}
    {writers next : Writers} (orderly : Orderly text history writers) (task : TaskId)
    (message : RpcMessage) (stepped : writers.step text (.call task message) = some next) :
    Orderly text (history ++ [⟨writers, .call task message, next⟩]) next := by
  have same : completed (history ++ [⟨writers, .call task message, next⟩]) =
      completed history := completed_same rfl
  rcases step_call stepped with ⟨idle, rfl⟩
  have moved : underWay task (writers.task task) ++ [(task, message)] =
      [] ++ underWay task (.locking message) := by
    rw [idle]
    rfl
  refine ⟨fun other => ?_, ?_, fun other written => ?_, served_extend orderly _ moved⟩
  · have before := orderly.holder other
    by_cases this : other = task
    · subst this
      rw [idle] at before
      simp only [Function.update_self]
      exact before
    · simpa only [Function.update_of_ne this] using before
  · rw [same]
    exact orderly.free
  · by_cases this : other = task
    · subst this
      simp only [Function.update_self]
      exact fun holding => False.elim holding
    · rw [same]
      simpa only [Function.update_of_ne this] using orderly.held other written

private theorem orderly_lock {history : List (Transition Writers WriteAction)}
    {writers next : Writers} (orderly : Orderly text history writers) (task : TaskId)
    (stepped : writers.step text (.lock task) = some next) :
    Orderly text (history ++ [⟨writers, .lock task, next⟩]) next := by
  have same : completed (history ++ [⟨writers, .lock task, next⟩]) = completed history :=
    completed_same rfl
  rcases step_lock stepped with ⟨message, locking, free, rfl⟩
  have moved : underWay task (writers.task task) ++ [] =
      [] ++ underWay task (.writing message (frame text message)) := by
    rw [locking]
    rfl
  -- Nobody held the lock, so the new holder is the only one.
  have nobody : forall other, ¬ (writers.task other).Holding := by
    intro other holding
    have impossible := (orderly.holder other).mp holding
    rw [free] at impossible
    cases impossible
  refine ⟨fun other => ?_, fun impossible => (by cases impossible), fun other written => ?_,
    served_extend orderly _ moved⟩
  · by_cases this : other = task
    · subst this
      simp only [Function.update_self]
      exact ⟨fun _ => trivial, fun _ => trivial⟩
    · simp only [Function.update_of_ne this]
      exact ⟨fun holding => absurd holding (nobody other),
        fun guard => absurd (Option.some.inj guard).symm this⟩
  · by_cases this : other = task
    · subst this
      simp only [Function.update_self]
      intro _ busy
      cases busy
      rw [same, ← orderly.free free]
      exact ⟨[], (List.append_nil _).symm, rfl⟩
    · simp only [Function.update_of_ne this]
      exact fun holding => absurd holding (nobody other)

private theorem orderly_accept {history : List (Transition Writers WriteAction)}
    {writers next : Writers} (orderly : Orderly text history writers) (task : TaskId)
    (count : Nat) (stepped : writers.step text (.accept task count) = some next) :
    Orderly text (history ++ [⟨writers, .accept task count, next⟩]) next := by
  have same : completed (history ++ [⟨writers, .accept task count, next⟩]) =
      completed history := completed_same rfl
  rcases step_accept stepped with ⟨message, rest, phase, writing, holds, busy, left, rfl⟩
  have moved : underWay task (writers.task task) ++ [] = [] ++ underWay task phase := by
    rw [writing, underWay, underWay, busy]
    rfl
  have held : (writers.task task).Holding := by
    rw [writing]
    trivial
  have guard := (orderly.holder task).mp held
  refine ⟨fun other => ?_, fun free => ?_, fun other written => ?_, served_extend orderly _ moved⟩
  · by_cases this : other = task
    · subst this
      simp only [Function.update_self]
      exact ⟨fun _ => guard, fun _ => holds⟩
    · simpa only [Function.update_of_ne this] using orderly.holder other
  · rw [guard] at free
    cases free
  · by_cases this : other = task
    · subst this
      simp only [Function.update_self]
      intro _ again
      cases busy.symm.trans again
      rcases orderly.held other message held (by rw [writing]; rfl) with ⟨accepted, output, line⟩
      rw [writing] at line
      refine ⟨accepted ++ rest.take count, ?_, ?_⟩
      · rw [same, output, List.append_assoc]
      · rw [left, List.append_assoc, List.take_append_drop]
        exact line
    · simp only [Function.update_of_ne this]
      intro holding
      exact absurd (orderly.only_holder guard holding) this

private theorem orderly_flush {history : List (Transition Writers WriteAction)}
    {writers next : Writers} (orderly : Orderly text history writers) (task : TaskId)
    (stepped : writers.step text (.flush task) = some next) :
    Orderly text (history ++ [⟨writers, .flush task, next⟩]) next := by
  rcases step_flush stepped with ⟨message, flushing, shape⟩
  have made : completing ⟨writers, .flush task, next⟩ = some (task, message) := by
    simp only [completing, flushing]
  have moved : underWay task (writers.task task) ++ [] =
      (completing ⟨writers, .flush task, next⟩).toList ++ underWay task .idle := by
    rw [flushing, made]
    rfl
  have served := served_extend orderly ⟨writers, .flush task, next⟩ moved
  have held : (writers.task task).Holding := by
    rw [flushing]
    trivial
  have guard := (orderly.holder task).mp held
  -- The holder was the only one, so nobody holds the lock any more.
  have nobody : forall other, ¬ (Function.update writers.task task .idle other).Holding := by
    intro other
    by_cases this : other = task
    · subst this
      simp only [Function.update_self]
      exact fun holding => False.elim holding
    · simp only [Function.update_of_ne this]
      intro holding
      exact absurd (orderly.only_holder guard holding) this
  rcases orderly.held task message held (by rw [flushing]; rfl) with ⟨accepted, output, line⟩
  have whole : writers.output =
      frames text (completed (history ++ [⟨writers, .flush task, next⟩])) := by
    rw [flushing] at line
    have complete : accepted = frame text message := (List.append_nil accepted).symm.trans line
    rw [completed_extend, made, frames_append, output, complete]
    simp only [frames, Option.toList_some, List.flatMap_cons, List.flatMap_nil, List.append_nil]
  subst shape
  refine ⟨fun other => ⟨fun holding => absurd holding (nobody other), ?_⟩, fun _ => whole,
    fun other _ holding => absurd holding (nobody other), served⟩
  exact fun impossible => (by cases impossible)

theorem orderly_run {history : List (Transition Writers WriteAction)} {writers : Writers}
    (run : Run (Writers.step text) .start history writers) : Orderly text history writers := by
  induction run with
  | start =>
      exact ⟨fun _ => ⟨fun holding => False.elim holding, fun impossible => (by cases impossible)⟩,
        fun _ => rfl, fun _ _ holding => False.elim holding, fun _ => rfl⟩
  | @extend history before next action _ stepped orderly =>
      cases action with
      | call task message => exact orderly_call orderly task message stepped
      | lock task => exact orderly_lock orderly task stepped
      | accept task count => exact orderly_accept orderly task count stepped
      | flush task => exact orderly_flush orderly task stepped

/-! ## Reading the stream back -/

/-- A stream of frames, with a part of a line after it, decodes to the messages it
is made of and what the part decodes to. -/
theorem decode_frames (writes : List (TaskId × RpcMessage)) (part : List UInt8)
    (faithful : forall write, write ∈ writes -> text.Faithful write.2.serialize) :
    (Lines.split (frames text writes ++ part)).map (decodeLine text) =
      writes.map (fun write => some write.2) ++ (Lines.split part).map (decodeLine text) := by
  have framed : frames text writes =
      (writes.map fun write => text.toString write.2.serialize).flatMap
        fun line => line ++ [Lines.newline] := by
    rw [List.flatMap_map]
    rfl
  have plain : forall line, line ∈ (writes.map fun write => text.toString write.2.serialize) ->
      Lines.newline ∉ line := by
    intro line member
    rcases List.mem_map.mp member with ⟨write, listed, same⟩
    rw [← same]
    exact (faithful write listed).no_newline
  rw [framed, Lines.split_frames_append plain, List.map_append, List.map_map, List.map_map]
  congr 1
  apply List.map_congr_left
  intro write listed
  exact decodeLine_frame (faithful write listed)

private theorem Orderly.asked {history : List (Transition Writers WriteAction)}
    {writers : Writers} (orderly : Orderly text history writers) {write : TaskId × RpcMessage}
    (known : write ∈ completed history ∨ write ∈ underWay write.1 (writers.task write.1)) :
    write ∈ begun history := by
  have served : write ∈ ofTask write.1 (begun history) := by
    rw [orderly.served write.1]
    rcases known with done | busy
    · exact List.mem_append_left _ (List.mem_filter.mpr ⟨done, decide_eq_true rfl⟩)
    · exact List.mem_append_right _ busy
  exact List.mem_of_mem_filter served

/-- The output is the frames of the completed writes and a part of one that was
begun.  The part is empty when nobody holds the writer. -/
private theorem Orderly.output {history : List (Transition Writers WriteAction)}
    {writers : Writers} (orderly : Orderly text history writers) :
    Exists fun part => writers.output = frames text (completed history) ++ part ∧
      (writers.guard = none -> part = []) ∧
      (part = [] ∨ Exists fun write => write ∈ begun history ∧ part <+: frame text write.2) := by
  cases guard : writers.guard with
  | none => exact ⟨[], by rw [orderly.free guard, List.append_nil], fun _ => rfl, .inl rfl⟩
  | some task =>
      have holds := (orderly.holder task).mpr guard
      have busy : Exists fun message => (writers.task task).message = some message := by
        cases phase : writers.task task with
        | idle => rw [phase] at holds; exact False.elim holds
        | locking message => exact ⟨message, rfl⟩
        | writing message rest => exact ⟨message, rfl⟩
        | flushing message => exact ⟨message, rfl⟩
      rcases busy with ⟨message, busy⟩
      rcases orderly.held task message holds busy with ⟨accepted, output, line⟩
      refine ⟨accepted, output, fun impossible => (by cases impossible),
        .inr ⟨(task, message), ?_, ?_⟩⟩
      · apply orderly.asked (.inr _)
        simp only [underWay, busy, Option.map_some, Option.toList_some, List.mem_singleton]
      · exact ⟨_, line⟩

/-- The output splits and decodes to the messages whose writes have completed, in
that order, and to what there is of one more line while somebody holds the writer.
A task that is idle has had each of its messages written exactly once, in its own
order. -/
theorem stream_round_trip {history : List (Transition Writers WriteAction)} {writers : Writers}
    (run : Run (Writers.step text) .start history writers)
    (faithful : forall write, write ∈ begun history -> text.Faithful write.2.serialize) :
    (Exists fun unfinished =>
      (Lines.split writers.output).map (decodeLine text) =
        (completed history).map (fun write => some write.2) ++ unfinished ∧
      unfinished.length ≤ 1 ∧ (writers.guard = none -> unfinished = [])) ∧
    forall task, writers.task task = .idle ->
      ofTask task (completed history) = ofTask task (begun history) := by
  have orderly := orderly_run run
  refine ⟨?_, fun task idle => ?_⟩
  · rcases orderly.output with ⟨part, output, free, arrived⟩
    have done : forall write, write ∈ completed history -> text.Faithful write.2.serialize :=
      fun write listed => faithful write (orderly.asked (.inl listed))
    refine ⟨(Lines.split part).map (decodeLine text), ?_, ?_, fun nobody => ?_⟩
    · rw [output]
      exact decode_frames (completed history) part done
    · rw [List.length_map]
      rcases arrived with empty | ⟨write, asked, arrived⟩
      · rw [empty]
        exact Nat.zero_le 1
      · exact Lines.split_prefix_length (faithful write asked).no_newline arrived
    · rw [free nobody]
      rfl
  · have served := orderly.served task
    rw [idle] at served
    rw [served]
    exact (List.append_nil _).symm

end Discipline

/-! ## Two tasks writing at once -/

def pingRequest : RpcMessage := .rpcRequest ⟨jsonRpcVersion, 0, "ping", .null⟩

def refusal : RpcMessage := .rpcErrorResponse ⟨jsonRpcVersion, 7, .custom "no"⟩

def pingText : JsonText := compactText [pingRequest.serialize, refusal.serialize]

/-- Task 1 takes the lock first and its line is accepted in two parts, while
task 0 waits. -/
def twoTasks : List WriteAction :=
  [.call 0 pingRequest, .call 1 refusal, .lock 1, .accept 1 5, .accept 1 59, .flush 1,
    .lock 0, .accept 0 55, .flush 0]

theorem pingRequest_faithful : pingText.Faithful pingRequest.serialize :=
  .of_text rfl (by decide) (by decide) (by decide)

theorem refusal_faithful : pingText.Faithful refusal.serialize :=
  .of_text rfl (by decide) (by decide) (by decide)

theorem twoTasks_enabled : (Run.play (Writers.step pingText) .start twoTasks).isSome := by
  decide

theorem two_tasks_round_trip :
    (Lines.split ((Run.play (Writers.step pingText) .start twoTasks).get
        twoTasks_enabled).2.output).map (decodeLine pingText) =
      [some refusal, some pingRequest] := by
  have asked : begun ((Run.play (Writers.step pingText) .start twoTasks).get
      twoTasks_enabled).1 = [(0, pingRequest), (1, refusal)] := rfl
  have both := stream_round_trip (Run.of_enabled twoTasks twoTasks_enabled) (by
    rw [asked]
    intro write member
    rcases List.mem_cons.mp member with first | second
    · rw [first]
      exact pingRequest_faithful
    · rw [List.mem_singleton.mp second]
      exact refusal_faithful)
  rcases both.1 with ⟨unfinished, decoded, _, free⟩
  rw [free rfl, List.append_nil] at decoded
  exact decoded

end Rpc
end WasmiPlugin
