import WasmiPlugin.Pipe.NonBlockingPipe

namespace WasmiPlugin
namespace Pipe

/-!
# The buffered reader over a pipe

`std::io::BufReader` reads the pipe in pieces of up to its capacity.  A read
that is at least as large goes straight to the pipe when the buffer is empty.
Two readers may differ in how they cut the stream, but not in the stream: what
is still in the buffer, followed by what is still in the pipe.
-/

/-- `std::io::BufReader`, which is its unread bytes: the pipe below it is shared and
stands beside it. -/
structure BufReader where
  buffered : List UInt8
  deriving DecidableEq, Repr

namespace BufReader

def capacity : Nat := 8192

/-- `BufRead::fill_buf`: the buffer, filled from the pipe when it is empty. -/
def fillBuf (reader : BufReader) (pipe : Inner) : ReadResult × BufReader × Inner :=
  if reader.buffered = [] then
    match pipe.read capacity with
    | (.ok data, pipe) => (.ok data, ⟨data⟩, pipe)
    | (.wouldBlock, pipe) => (.wouldBlock, reader, pipe)
  else (.ok reader.buffered, reader, pipe)

/-- `Read::read` into a buffer of `room` bytes. -/
def read (reader : BufReader) (pipe : Inner) (room : Nat) : ReadResult × BufReader × Inner :=
  if reader.buffered = [] ∧ capacity ≤ room then
    match pipe.read room with
    | (result, pipe) => (result, ⟨[]⟩, pipe)
  else
    match reader.fillBuf pipe with
    | (.ok data, _, pipe) => (.ok (data.take room), ⟨data.drop room⟩, pipe)
    | (.wouldBlock, reader, pipe) => (.wouldBlock, reader, pipe)

/-- Everything that is still to be read: what the buffer holds, and then what is in the pipe. -/
def stream (reader : BufReader) (pipe : Inner) : List UInt8 :=
  reader.buffered ++ pipe.buf

theorem fillBuf_stream (reader : BufReader) (pipe : Inner) :
    (reader.fillBuf pipe).2.1.stream (reader.fillBuf pipe).2.2 = reader.stream pipe ∧
      (reader.fillBuf pipe).2.2.closed = pipe.closed ∧
      match (reader.fillBuf pipe).1 with
      | .ok data => (reader.fillBuf pipe).2.1.buffered = data
      | .wouldBlock => reader.stream pipe = [] := by
  have conserved := read_conserves pipe capacity
  have frame := read_frame pipe capacity
  have blocked := read_wouldBlock_iff pipe (show 0 < capacity by decide)
  unfold fillBuf stream
  by_cases empty : reader.buffered = []
  · simp only [if_pos empty]
    rcases read : pipe.read capacity with ⟨result, rest⟩
    rw [read] at conserved frame blocked
    simp only at frame
    cases result with
    | ok data =>
        simp only [empty, List.nil_append]
        exact ⟨conserved.1.symm, by rw [frame], trivial⟩
    | wouldBlock =>
        simp only [empty, List.nil_append]
        exact ⟨conserved, by rw [frame], (blocked.mp rfl).1⟩
  · simp only [if_neg empty, and_self]

/-! ## A read in closed form -/

theorem read_buffered (reader : BufReader) (pipe : Inner) (room : Nat)
    (nonempty : reader.buffered ≠ []) :
    reader.read pipe room =
      (.ok (reader.buffered.take room), ⟨reader.buffered.drop room⟩, pipe) := by
  simp only [read, fillBuf, nonempty, false_and, if_false]

/-- A read of a pipe with bytes in it goes through the buffer if the room is smaller
than the buffer's capacity. -/
theorem read_refilled (pipe : Inner) {room : Nat} (small : room < capacity)
    (nonempty : pipe.buf ≠ []) :
    (⟨[]⟩ : BufReader).read pipe room =
      (.ok ((pipe.buf.take capacity).take room), ⟨(pipe.buf.take capacity).drop room⟩,
        { pipe with buf := pipe.buf.drop capacity }) := by
  have filled := read_nonempty pipe (show 0 < capacity by decide) nonempty
  simp only [read, fillBuf, Nat.not_le_of_lt small, and_false, if_false, if_true, filled]

/-- A read with an empty buffer and room for a whole buffer goes straight to the pipe. -/
theorem read_direct (pipe : Inner) {room : Nat} (large : capacity ≤ room)
    (nonempty : pipe.buf ≠ []) :
    (⟨[]⟩ : BufReader).read pipe room =
      (.ok (pipe.buf.take room), ⟨[]⟩, { pipe with buf := pipe.buf.drop room }) := by
  have taken := read_nonempty pipe (Nat.lt_of_lt_of_le (show 0 < capacity by decide) large)
    nonempty
  simp only [read, large, and_self, if_true, taken]

theorem read_exhausted (pipe : Inner) (room : Nat) (empty : pipe.buf = []) :
    (⟨[]⟩ : BufReader).read pipe room =
      (if pipe.closed then .ok [] else .wouldBlock, ⟨[]⟩, pipe) := by
  simp only [read, fillBuf, if_true, true_and, read_empty pipe _ empty]
  split
  · rfl
  · cases pipe.closed with
    | false => rfl
    | true => simp only [if_true, List.take_nil, List.drop_nil]

/-! ## A read and the stream -/

/-- A read takes the front of the stream, and a read that would block finds the
stream empty and leaves it so. -/
theorem read_stream (reader : BufReader) (pipe : Inner) (room : Nat) :
    (reader.read pipe room).2.2.closed = pipe.closed ∧
      match (reader.read pipe room).1 with
      | .ok data => data.length ≤ room ∧ reader.stream pipe =
          data ++ (reader.read pipe room).2.1.stream (reader.read pipe room).2.2
      | .wouldBlock => reader.stream pipe = [] ∧
          (reader.read pipe room).2.1.stream (reader.read pipe room).2.2 = [] := by
  rcases reader with ⟨buffered⟩
  by_cases buffer : buffered = []
  · subst buffer
    by_cases empty : pipe.buf = []
    · rw [read_exhausted pipe room empty]
      cases pipe.closed <;> simp [stream, empty]
    · rcases Nat.lt_or_ge room capacity with small | large
      · rw [read_refilled pipe small empty]
        refine ⟨rfl, List.length_take_le room _, ?_⟩
        simp only [stream, List.nil_append, ← List.append_assoc, List.take_append_drop]
      · rw [read_direct pipe large empty]
        exact ⟨rfl, List.length_take_le room _, (List.take_append_drop room pipe.buf).symm⟩
  · rw [read_buffered ⟨buffered⟩ pipe room buffer]
    refine ⟨rfl, List.length_take_le room _, ?_⟩
    simp only [stream, ← List.append_assoc, List.take_append_drop]

theorem read_length {reader : BufReader} {pipe : Inner} {room : Nat} {data : List UInt8}
    {next : BufReader × Inner} (taken : reader.read pipe room = (.ok data, next)) :
    data.length ≤ room := by
  have stream := (read_stream reader pipe room).2
  rw [taken] at stream
  exact stream.1

end BufReader

end Pipe
end WasmiPlugin
