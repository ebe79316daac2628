import WasmiPlugin.Foundation.Run

namespace WasmiPlugin
namespace Pipe

open Foundation

/-!
# The in-memory pipe between host and guest

`non_blocking_pipe` hands out a reader and a writer over one shared `Inner`.
Both handles can be cloned and every clone locks the same `Inner`, so the
operations are modelled as functions of the shared state.  A read never waits:
it takes what is buffered, reports end of file once a writer has been dropped,
and otherwise answers `WouldBlock` or `Pending`.

The two read paths are written separately, as in the source, although both run
the same loop over the queue.  Waking a task is part of an operation's outcome.
-/

/-- The identity of a task's waker. -/
abbrev Waker := Nat

/-- The state shared by all clones of both handles. -/
structure Inner where
  buf : List UInt8
  closed : Bool
  waker : Option Waker
  deriving DecidableEq, Repr

def nonBlockingPipe : Inner where
  buf := []
  closed := false
  waker := none

/-- The loop shared by both read paths: pop from the front until the caller's
buffer, of which `room` bytes are left, is full or the queue is empty. -/
def popFront : (room : Nat) -> (queue : List UInt8) -> List UInt8 × List UInt8
  | 0, queue => ([], queue)
  | _ + 1, [] => ([], [])
  | room + 1, byte :: queue =>
      let popped := popFront room queue
      (byte :: popped.1, popped.2)

/-- The result of a synchronous read: `Ok(n)` with the first `n` bytes of the
caller's buffer, or the `WouldBlock` error. -/
inductive ReadResult where
  | ok (data : List UInt8)
  | wouldBlock
  deriving DecidableEq, Repr

/-- The result of `poll_read`. -/
inductive PollResult where
  | ready (data : List UInt8)
  | pending
  deriving DecidableEq, Repr

namespace Inner

/-- `NonBlockingPipeReader::read` with a buffer of `room` bytes. -/
def read (inner : Inner) (room : Nat) : ReadResult × Inner :=
  let popped := popFront room inner.buf
  let inner := { inner with buf := popped.2 }
  if popped.1.length = 0 ∧ inner.closed then (.ok [], inner)
  else if popped.1.length = 0 then (.wouldBlock, inner)
  else (.ok popped.1, inner)

/-- `NonBlockingPipeReader::poll_read` with a buffer of `room` bytes. -/
def pollRead (inner : Inner) (room : Nat) (waker : Waker) : PollResult × Inner :=
  let popped := popFront room inner.buf
  let inner := { inner with buf := popped.2 }
  if popped.1.length > 0 then (.ready popped.1, { inner with waker := none })
  else if inner.closed then (.ready [], { inner with waker := none })
  else (.pending, { inner with waker := some waker })

/-- `NonBlockingPipeWriter::write`: the whole buffer is accepted, and the
registered waker, if any, is taken and woken. -/
def write (inner : Inner) (bytes : List UInt8) : Nat × Option Waker × Inner :=
  (bytes.length, inner.waker, { inner with buf := inner.buf ++ bytes, waker := none })

/-- `NonBlockingPipeWriter::drop`.  The slot is cleared before `take` looks at
it, so the waker that is woken is always that of an empty slot. -/
def dropWriter (inner : Inner) : Option Waker × Inner :=
  let inner := { inner with closed := true, waker := none }
  (inner.waker, { inner with waker := none })

end Inner

/-- The operations that any clone of either handle can perform. -/
inductive Operation where
  | read (room : Nat)
  | pollRead (room : Nat) (waker : Waker)
  | write (bytes : List UInt8)
  | dropWriter
  deriving DecidableEq, Repr

inductive Outcome where
  | read (result : ReadResult)
  | polled (result : PollResult)
  | wrote (accepted : Nat) (woken : Option Waker)
  | dropped (woken : Option Waker)
  deriving DecidableEq, Repr

def perform (inner : Inner) : Operation -> Outcome × Inner
  | .read room => let done := inner.read room; (.read done.1, done.2)
  | .pollRead room waker => let done := inner.pollRead room waker; (.polled done.1, done.2)
  | .write bytes => let done := inner.write bytes; (.wrote done.1 done.2.1, done.2.2)
  | .dropWriter => let done := inner.dropWriter; (.dropped done.1, done.2)

def step (inner : Inner) (operation : Operation) : Option Inner :=
  some (perform inner operation).2

/-! ## The loop takes a prefix of the queue -/

theorem popFront_eq (room : Nat) (queue : List UInt8) :
    popFront room queue = (queue.take room, queue.drop room) := by
  induction room generalizing queue with
  | zero => rfl
  | succ room inductionHypothesis =>
      cases queue with
      | nil => rfl
      | cons byte queue =>
          simp only [popFront, inductionHypothesis, List.take_succ_cons, List.drop_succ_cons]

theorem take_eq_nil_of_room (queue : List UInt8) {room : Nat} (positive : 0 < room) :
    (queue.take room).length = 0 ↔ queue = [] := by
  rw [List.length_take]
  constructor
  · intro none
    apply List.length_eq_zero_iff.mp
    omega
  · intro empty
    rw [empty, List.length_nil, Nat.min_zero]

theorem drop_of_take_nothing {queue : List UInt8} {room : Nat}
    (nothing : (queue.take room).length = 0) : queue.drop room = queue := by
  have whole := List.take_append_drop room queue
  rw [List.length_eq_zero_iff.mp nothing] at whole
  exact whole

/-! ## Each operation in closed form -/

/-- A synchronous read leaves the flag and the waker slot alone, whatever it
returns. -/
theorem read_frame (inner : Inner) (room : Nat) :
    (inner.read room).2 = { inner with buf := inner.buf.drop room } := by
  simp only [Inner.read, popFront_eq]
  split
  · rfl
  · split <;> rfl

/-- The bytes a synchronous read gives are exactly those it removed, and a
read that gives nothing removed nothing. -/
theorem read_conserves (inner : Inner) (room : Nat) :
    match (inner.read room).1 with
    | .ok data => inner.buf = data ++ (inner.read room).2.buf ∧ data.length ≤ room
    | .wouldBlock => (inner.read room).2.buf = inner.buf := by
  rw [read_frame]
  simp only [Inner.read, popFront_eq]
  by_cases nothing : (inner.buf.take room).length = 0
  · simp only [nothing, true_and, if_true, drop_of_take_nothing nothing]
    cases inner.closed <;> simp
  · simp only [nothing, false_and, if_false]
    exact ⟨(List.take_append_drop room inner.buf).symm, List.length_take_le room inner.buf⟩

/-- The bytes an asynchronous read gives are exactly those it removed, and a read that
waits removed nothing. -/
theorem pollRead_conserves (inner : Inner) (room : Nat) (waker : Waker) :
    match (inner.pollRead room waker).1 with
    | .ready data => inner.buf = data ++ (inner.pollRead room waker).2.buf ∧ data.length ≤ room
    | .pending => (inner.pollRead room waker).2.buf = inner.buf := by
  simp only [Inner.pollRead, popFront_eq]
  by_cases nothing : (inner.buf.take room).length = 0
  · simp only [nothing, gt_iff_lt, Nat.lt_irrefl, if_false, drop_of_take_nothing nothing]
    cases inner.closed <;> simp
  · rw [if_pos (Nat.pos_of_ne_zero nothing)]
    exact ⟨(List.take_append_drop room inner.buf).symm, List.length_take_le room inner.buf⟩

theorem read_nonempty (inner : Inner) {room : Nat} (positive : 0 < room)
    (nonempty : inner.buf ≠ []) :
    inner.read room = (.ok (inner.buf.take room), { inner with buf := inner.buf.drop room }) := by
  have something : ¬ (inner.buf.take room).length = 0 := fun nothing =>
    nonempty ((take_eq_nil_of_room inner.buf positive).mp nothing)
  simp only [Inner.read, popFront_eq, something, false_and, if_false]

theorem read_empty (inner : Inner) (room : Nat) (empty : inner.buf = []) :
    inner.read room = (if inner.closed then .ok [] else .wouldBlock, inner) := by
  rcases inner with ⟨buf, closed, waker⟩
  dsimp only at empty
  subst empty
  simp only [Inner.read, popFront_eq, List.take_nil, List.drop_nil, List.length_nil, true_and,
    if_true]
  split <;> rfl

/-- With room in the buffer, a synchronous read would block exactly on an
empty queue whose writer is alive. -/
theorem read_wouldBlock_iff (inner : Inner) {room : Nat} (positive : 0 < room) :
    (inner.read room).1 = .wouldBlock ↔ inner.buf = [] ∧ inner.closed = false := by
  by_cases empty : inner.buf = []
  · rw [read_empty inner room empty]
    cases inner.closed <;> simp [empty]
  · simp only [read_nonempty inner positive empty, empty, false_and, reduceCtorEq]

/-- With room in the buffer, a synchronous read reports the end exactly on an
empty queue that is closed. -/
theorem read_end_iff (inner : Inner) {room : Nat} (positive : 0 < room) :
    (inner.read room).1 = .ok [] ↔ inner.buf = [] ∧ inner.closed = true := by
  by_cases empty : inner.buf = []
  · rw [read_empty inner room empty]
    cases inner.closed <;> simp [empty]
  · have some : ¬ inner.buf.take room = [] := fun none =>
      empty ((take_eq_nil_of_room inner.buf positive).mp (by rw [none, List.length_nil]))
    simp only [read_nonempty inner positive empty, empty, false_and, ReadResult.ok.injEq, some]

/-- The three ways a `poll_read` with room in its buffer can end. -/
theorem pollRead_cases (inner : Inner) {room : Nat} (positive : 0 < room) (waker : Waker) :
    (inner.buf ≠ [] ∧ inner.pollRead room waker =
        (.ready (inner.buf.take room), { inner with buf := inner.buf.drop room, waker := none })) ∨
    (inner.buf = [] ∧ inner.closed = true ∧
      inner.pollRead room waker = (.ready [], { inner with waker := none })) ∨
    (inner.buf = [] ∧ inner.closed = false ∧
      inner.pollRead room waker = (.pending, { inner with waker := some waker })) := by
  have empty := take_eq_nil_of_room inner.buf positive
  simp only [Inner.pollRead, popFront_eq]
  by_cases nothing : inner.buf = []
  · have taken : inner.buf.take room = [] := List.length_eq_zero_iff.mp (empty.mpr nothing)
    have kept : inner.buf.drop room = inner.buf := by rw [nothing, List.drop_nil]
    simp only [taken, kept, List.length_nil, gt_iff_lt, Nat.lt_irrefl, if_false]
    cases closed : inner.closed with
    | true => exact Or.inr (Or.inl ⟨nothing, rfl, rfl⟩)
    | false => exact Or.inr (Or.inr ⟨nothing, rfl, by simp⟩)
  · have some : (inner.buf.take room).length > 0 := by
      have different : (inner.buf.take room).length ≠ 0 := fun none => nothing (empty.mp none)
      omega
    rw [if_pos some]
    exact Or.inl ⟨nothing, rfl⟩

/-- With room in the buffer, an asynchronous read waits exactly on an empty queue
whose writer is alive. -/
theorem pollRead_pending_iff (inner : Inner) {room : Nat} (positive : 0 < room) (waker : Waker) :
    (inner.pollRead room waker).1 = .pending ↔ inner.buf = [] ∧ inner.closed = false := by
  rcases pollRead_cases inner positive waker with
    ⟨nonempty, ready⟩ | ⟨empty, closed, ended⟩ | ⟨empty, alive, blocked⟩
  · simp only [ready, nonempty, false_and, reduceCtorEq]
  · simp only [ended, empty, closed, and_false, reduceCtorEq]
  · simp only [blocked, empty, alive, and_self]

/-- With room in the buffer, an asynchronous read reports the end exactly on an empty
queue that is closed. -/
theorem pollRead_end_iff (inner : Inner) {room : Nat} (positive : 0 < room) (waker : Waker) :
    (inner.pollRead room waker).1 = .ready [] ↔ inner.buf = [] ∧ inner.closed = true := by
  rcases pollRead_cases inner positive waker with
    ⟨nonempty, ready⟩ | ⟨empty, closed, ended⟩ | ⟨empty, alive, blocked⟩
  · have some : ¬ inner.buf.take room = [] := fun none =>
      nonempty ((take_eq_nil_of_room inner.buf positive).mp (by rw [none, List.length_nil]))
    simp only [ready, nonempty, false_and, PollResult.ready.injEq, some]
  · simp only [ended, empty, closed, and_self]
  · simp only [blocked, empty, alive, and_false, reduceCtorEq, Bool.false_eq_true]

theorem pollRead_frame (inner : Inner) (room : Nat) (waker : Waker) :
    (inner.pollRead room waker).2.buf = inner.buf.drop room ∧
      (inner.pollRead room waker).2.closed = inner.closed := by
  simp only [Inner.pollRead, popFront_eq]
  split
  · exact ⟨rfl, rfl⟩
  · split <;> exact ⟨rfl, rfl⟩

@[simp] theorem write_buf (inner : Inner) (bytes : List UInt8) :
    (inner.write bytes).2.2.buf = inner.buf ++ bytes := rfl

@[simp] theorem write_closed (inner : Inner) (bytes : List UInt8) :
    (inner.write bytes).2.2.closed = inner.closed := rfl

@[simp] theorem dropWriter_buf (inner : Inner) : inner.dropWriter.2.buf = inner.buf := rfl

end Pipe
end WasmiPlugin
