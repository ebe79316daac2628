import WasmiPlugin.Foundation.Run
import WasmiPlugin.Wasi.Records

namespace WasmiPlugin
namespace Wasi

open Foundation

/-!
# The guest's stdin as a stream

The host writes into the stdin pipe, `stdin_available` pulls bytes into the
reader's buffer, and `fd_read` hands them to the guest, several buffers in one
call.  The stream is intact when everything the host wrote is either reported
to the guest or still to be read, in order.

`fd_read` in closed form is a gathering loop over the reader followed by a
scattered write.  It loses bytes in one situation: the first buffers use up all
that is there, and the read for the next one would block.  Then the bytes in the
first buffers are gone, but the call ends in `Again` and reports none of them.
-/

/-! ## Reading into several buffers -/

/-- What a loop of reads into buffers of the given sizes came to. -/
structure Gathered where
  data : List UInt8
  blocked : Bool
  reader : Pipe.BufReader
  pipe : Pipe.Inner

/-- Read into one buffer after the other, up to the first that is not filled. -/
def gather (reader : Pipe.BufReader) (pipe : Pipe.Inner) : (rooms : List Nat) -> Gathered
  | [] => ⟨[], false, reader, pipe⟩
  | room :: rooms =>
      match reader.read pipe room with
      | (.wouldBlock, reader, pipe) => ⟨[], true, reader, pipe⟩
      | (.ok data, reader, pipe) =>
          if data.length = 0 ∨ data.length < room then ⟨data, false, reader, pipe⟩
          else
            let rest := gather reader pipe rooms
            ⟨data ++ rest.data, rest.blocked, rest.reader, rest.pipe⟩

/-- The buffers of the given sizes are filled exactly, one after the other and
each with a single read, by what is buffered and piped, and one more is to be
filled. -/
def Exhausts : (buffered piped : Nat) -> (rooms : List Nat) -> Prop
  | _, _, [] => False
  | buffered, piped, room :: rooms =>
      if buffered = 0 ∧ piped = 0 then True
      else if buffered = 0 ∧ Pipe.BufReader.capacity ≤ room then
        room ≤ piped ∧ Exhausts 0 (piped - room) rooms
      else if buffered = 0 then
        0 < room ∧ room ≤ piped ∧
          Exhausts (min Pipe.BufReader.capacity piped - room) (piped - Pipe.BufReader.capacity)
            rooms
      else 0 < room ∧ room ≤ buffered ∧ Exhausts (buffered - room) piped rooms

/-- Gathering takes the front of the stream, and blocks only at its end. -/
theorem gather_stream (reader : Pipe.BufReader) (pipe : Pipe.Inner) (rooms : List Nat) :
    reader.stream pipe =
        (gather reader pipe rooms).data ++
          (gather reader pipe rooms).reader.stream (gather reader pipe rooms).pipe ∧
      ((gather reader pipe rooms).blocked = true ->
        (gather reader pipe rooms).reader.stream (gather reader pipe rooms).pipe = []) := by
  induction rooms generalizing reader pipe with
  | nil => exact ⟨rfl, fun blocked => by cases blocked⟩
  | cons room rooms inductionHypothesis =>
      have one := (Pipe.BufReader.read_stream reader pipe room).2
      rw [gather]
      rcases read : reader.read pipe room with ⟨result, next, rest⟩
      rw [read] at one
      cases result with
      | wouldBlock =>
          dsimp only at one ⊢
          exact ⟨by rw [one.1, one.2, List.nil_append], fun _ => one.2⟩
      | ok data =>
          dsimp only at one ⊢
          split
          · exact ⟨one.2, fun blocked => by cases blocked⟩
          · have later := inductionHypothesis next rest
            refine ⟨?_, later.2⟩
            rw [one.2, later.1, List.append_assoc]

theorem gather_length (reader : Pipe.BufReader) (pipe : Pipe.Inner) (regions : List Region) :
    (gather reader pipe (regions.map Region.length)).data.length ≤
      LinearMemory.totalLength regions := by
  induction regions generalizing reader pipe with
  | nil => exact Nat.le_refl _
  | cons region regions inductionHypothesis =>
      have one := (Pipe.BufReader.read_stream reader pipe region.length).2
      rw [List.map_cons, gather, LinearMemory.totalLength]
      rcases read : reader.read pipe region.length with ⟨result, next, rest⟩
      rw [read] at one
      cases result with
      | wouldBlock => exact Nat.zero_le _
      | ok data =>
          dsimp only at one ⊢
          split
          · exact Nat.le_add_right_of_le one.1
          · rw [List.length_append]
            exact Nat.add_le_add one.1 (inductionHypothesis next rest)

private theorem gather_goes_on {reader next : Pipe.BufReader} {pipe rest : Pipe.Inner}
    {room : Nat} {source : List UInt8} (rooms : List Nat) (something : source ≠ [])
    (read : reader.read pipe room = (.ok (source.take room), next, rest)) :
    (gather reader pipe (room :: rooms)).blocked = true ↔
      0 < room ∧ room ≤ source.length ∧ (gather next rest rooms).blocked = true := by
  have positive := List.length_pos_iff.mpr something
  simp only [gather, read, List.length_take]
  by_cases filled : 0 < room ∧ room ≤ source.length
  · rw [if_neg (by omega)]
    simp only [filled, true_and]
  · rw [if_pos (by omega)]
    constructor
    · intro blocked
      cases blocked
    · exact fun holds => absurd ⟨holds.1, holds.2.1⟩ filled

/-- Gathering blocks exactly when the pipe is open and its bytes are used up
while buffers remain. -/
theorem gather_blocked_iff (reader : Pipe.BufReader) (pipe : Pipe.Inner) (rooms : List Nat) :
    (gather reader pipe rooms).blocked = true ↔
      pipe.closed = false ∧ Exhausts reader.buffered.length pipe.buf.length rooms := by
  induction rooms generalizing reader pipe with
  | nil => simp only [gather, Exhausts, and_false, reduceCtorEq]
  | cons room rooms inductionHypothesis =>
      rcases reader with ⟨buffered⟩
      by_cases buffer : buffered = []
      · subst buffer
        by_cases empty : pipe.buf = []
        · simp only [gather, Pipe.BufReader.read_exhausted pipe room empty, Exhausts, empty,
            List.length_nil, and_self, if_true, and_true]
          cases pipe.closed with
          | false => exact iff_of_true rfl rfl
          | true => simp
        · have piped := List.length_pos_iff.mpr empty
          have some : ¬ pipe.buf.length = 0 := by omega
          by_cases large : Pipe.BufReader.capacity ≤ room
          · have read := Pipe.BufReader.read_direct pipe large empty
            have positive : 0 < room := Nat.lt_of_lt_of_le (by decide) large
            rw [gather_goes_on rooms empty read, inductionHypothesis]
            simp only [Exhausts, List.length_nil, some, and_false, if_false, large, and_self,
              if_true, positive, true_and, List.length_drop]
            exact and_left_comm
          · have read := Pipe.BufReader.read_refilled pipe (Nat.lt_of_not_le large) empty
            have refilled : pipe.buf.take Pipe.BufReader.capacity ≠ [] := by
              intro nothing
              have short := congrArg List.length nothing
              rw [List.length_take, List.length_nil] at short
              have big : 0 < Pipe.BufReader.capacity := by decide
              omega
            have same : room ≤ min Pipe.BufReader.capacity pipe.buf.length ↔
                room ≤ pipe.buf.length := by omega
            rw [gather_goes_on rooms refilled read, inductionHypothesis]
            simp only [Exhausts, List.length_nil, some, and_false, if_false, large, if_true,
              List.length_drop, List.length_take, same]
            rw [and_left_comm (a := room ≤ pipe.buf.length), and_left_comm]
      · have some : ¬ buffered.length = 0 := fun none =>
          buffer (List.length_eq_zero_iff.mp none)
        have read := Pipe.BufReader.read_buffered ⟨buffered⟩ pipe room buffer
        rw [gather_goes_on rooms buffer read, inductionHypothesis]
        simp only [Exhausts, some, false_and, if_false, List.length_drop]
        rw [and_left_comm (a := room ≤ buffered.length), and_left_comm]

/-! ## `fd_read` in closed form -/

section Target

variable [HostTarget]

/-- The table at `base` and its buffers lie within the memory, and no buffer
overlaps another or the table. -/
structure Placed (memory : GuestMemory) (base count : Nat) : Prop where
  table : memory.Covers ⟨base, count * 8⟩
  buffers : forall buffer, buffer ∈ buffersAt memory base count -> memory.Covers buffer
  apart : (buffersAt memory base count).Pairwise Region.Disjoint
  offTable : forall buffer, buffer ∈ buffersAt memory base count ->
    buffer.Disjoint ⟨base, count * 8⟩

/-- The table at `base` and its buffers lie within the memory, and the buffers do not
overlap the table.  They may overlap each other. -/
structure InPlace (memory : GuestMemory) (base count : Nat) : Prop where
  table : memory.Covers ⟨base, count * 8⟩
  buffers : forall buffer, buffer ∈ buffersAt memory base count -> memory.Covers buffer
  offTable : forall buffer, buffer ∈ buffersAt memory base count ->
    buffer.Disjoint ⟨base, count * 8⟩

theorem Placed.inPlace {memory : GuestMemory} {base count : Nat}
    (placed : Placed memory base count) : InPlace memory base count :=
  ⟨placed.table, placed.buffers, placed.offTable⟩

/-- The state after gathering, with the data in the buffers. -/
def Caller.filled (caller : Caller) (buffers : List Region) (gathered : Gathered) : Caller :=
  { caller with
    ctx := { caller.ctx with stdinReader := some gathered.reader }
    memory := caller.memory.scatter buffers gathered.data
    stdin := gathered.pipe }

/-- The state after gathering when the last read would have blocked: the data is in
the buffers, the guest waits for input, and its fuel is gone. -/
def Caller.starved (caller : Caller) (buffers : List Region) (gathered : Gathered) : Caller :=
  { caller with
    ctx := { caller.ctx with stdinReader := some gathered.reader, awaitingStdin := true }
    memory := caller.memory.scatter buffers gathered.data
    stdin := gathered.pipe
    fuel := 0 }

private theorem InPlace.later {memory : GuestMemory} {base count : Nat}
    (placed : InPlace memory base (count + 1)) {bytes : List UInt8}
    (fits : bytes.length ≤ (bufferAt memory base).length) :
    let after := memory.overwrite (bufferAt memory base).start bytes
    buffersAt after (base + 8) count = buffersAt memory (base + 8) count ∧
      InPlace after (base + 8) count := by
  have whole := placed.offTable _ List.mem_cons_self
  have written : Region.Disjoint ⟨(bufferAt memory base).start, bytes.length⟩
      ⟨base + 8, count * 8⟩ := by
    simp only [Region.Disjoint] at whole ⊢
    omega
  have same := buffersAt_overwrite memory written
  refine ⟨same, ?_⟩
  constructor
  · have table := placed.table
    simp only [LinearMemory.Covers, LinearMemory.overwrite_size] at table ⊢
    omega
  · rw [same]
    exact fun buffer member => placed.buffers buffer (List.mem_cons_of_mem _ member)
  · rw [same]
    intro buffer member
    apply (placed.offTable buffer (List.mem_cons_of_mem _ member)).part
    · exact Nat.le_add_right _ _
    · dsimp only
      omega

/-- One turn of the loop of `fd_read`: read into the buffer, and go on if it is
full. -/
private theorem wp_fdReadTurn (iovPtr : Int32) {index total : Nat} {caller : Caller}
    {reader : Pipe.BufReader} (present : caller.ctx.stdinReader = some reader)
    (record : caller.memory.Covers ⟨asUsize iovPtr + index * 8, 8⟩)
    {buffer : Region} (same : bufferAt caller.memory (asUsize iovPtr + index * 8) = buffer)
    (covered : caller.memory.Covers buffer) (small : total + buffer.length < usizeModulus)
    {post : Program.Turn Nat -> Caller -> Prop} {ends : Ending -> Caller -> Prop} :
    (Host.fdReadTurn iovPtr index total).wp post ends caller ↔
      match reader.read caller.stdin buffer.length with
      | (.wouldBlock, next, pipe) => ends (.errno .again)
          (caller.starved [] ⟨[], true, next, pipe⟩)
      | (.ok data, next, pipe) => post
          (if data.length = 0 ∨ data.length < buffer.length then .done (total + data.length)
            else .next (total + data.length))
          (caller.filled [buffer] ⟨data, false, next, pipe⟩) := by
  have fields : recordAt caller.memory (asUsize iovPtr + index * 8) =
      (buffer.start, buffer.length) := by
    rw [← same]
    rfl
  have length : buffer.length ≤ isizeMax := by
    have size := GuestMemory.size_le_isizeMax caller.memory
    simp only [LinearMemory.Covers] at covered
    omega
  simp only [Host.fdReadTurn, Program.wp_bind, Host.wp_iovec iovPtr record, fields]
  rw [Host.wp_allocate length, Host.wp_readStdin, present]
  dsimp only
  rcases read : reader.read caller.stdin buffer.length with ⟨result, next, pipe⟩
  cases result with
  | wouldBlock => exact Iff.rfl
  | ok data =>
      have fits := Pipe.BufReader.read_length read
      have spread := caller.memory.scatter_first [] fits
      simp only [Caller.filled, spread, Program.wp_ite, Program.wp_pure, Program.wp_bind,
        Host.wp_usize, Host.wp_writeMemory]
      by_cases nothing : data.length = 0
      · rw [if_pos nothing, if_pos (.inl nothing), List.length_eq_zero_iff.mp nothing,
          LinearMemory.overwrite_nil]
        exact Iff.rfl
      · have room : caller.memory.Covers ⟨buffer.start, data.length⟩ := by
          simp only [LinearMemory.Covers] at covered ⊢
          omega
        rw [if_neg nothing, if_pos (show total + data.length < usizeModulus by omega), if_pos room]
        by_cases short : data.length < buffer.length
        · rw [if_pos short, if_pos (.inr short)]
        · rw [if_neg short, if_neg (fun either => either.elim nothing short)]

/-- The loop of `fd_read` over buffers in place gathers into them. -/
private theorem wp_gatherLoop (iovPtr : Int32) {post : Nat -> Caller -> Prop}
    {ends : Ending -> Caller -> Prop} (remaining index total : Nat) (caller : Caller)
    {reader : Pipe.BufReader} (present : caller.ctx.stdinReader = some reader)
    (placed : InPlace caller.memory (asUsize iovPtr + index * 8) remaining)
    {buffers : List Region}
    (table : buffersAt caller.memory (asUsize iovPtr + index * 8) remaining = buffers)
    (small : total + LinearMemory.totalLength buffers < usizeModulus) {gathered : Gathered}
    (gathering : gather reader caller.stdin (buffers.map Region.length) = gathered) :
    (Program.loop (Host.fdReadTurn iovPtr) remaining index total).wp post ends caller ↔
      if gathered.blocked then ends (.errno .again) (caller.starved buffers gathered)
      else post (total + gathered.data.length) (caller.filled buffers gathered) := by
  induction remaining generalizing index total caller reader buffers gathered with
  | zero =>
      subst table
      subst gathering
      have unchanged : caller.filled [] ⟨[], false, reader, caller.stdin⟩ = caller := by
        unfold Caller.filled
        rw [← present]
        rfl
      simp only [buffersAt, List.map_nil, gather, unchanged, Program.wp_loop_zero,
        Bool.false_eq_true, if_false, List.length_nil, Nat.add_zero]
  | succ remaining inductionHypothesis =>
      have here : caller.memory.Covers ⟨asUsize iovPtr + index * 8, 8⟩ := by
        have table := placed.table
        simp only [LinearMemory.Covers] at table ⊢
        omega
      subst table
      simp only [buffersAt, LinearMemory.totalLength] at small
      simp only [buffersAt, List.map_cons, gather] at gathering
      rw [Program.wp_loop_succ, wp_fdReadTurn iovPtr present here rfl
        (placed.buffers _ List.mem_cons_self) (by omega)]
      rcases read : reader.read caller.stdin
        (bufferAt caller.memory (asUsize iovPtr + index * 8)).length with ⟨result, next, pipe⟩
      rw [read] at gathering
      cases result with
      | wouldBlock =>
          dsimp only at gathering ⊢
          subst gathering
          simp only [if_true, Caller.starved, LinearMemory.scatter_nil]
      | ok data =>
          have fits := Pipe.BufReader.read_length read
          dsimp only at gathering ⊢
          by_cases last : data.length = 0 ∨ data.length <
              (bufferAt caller.memory (asUsize iovPtr + index * 8)).length
          · rw [if_pos last] at gathering ⊢
            subst gathering
            simp only [Bool.false_eq_true, if_false, Caller.filled, buffersAt,
              LinearMemory.scatter_first caller.memory _ fits]
          · have full : data.length =
                (bufferAt caller.memory (asUsize iovPtr + index * 8)).length := by omega
            have later := placed.later fits
            rw [if_neg last] at gathering ⊢
            subst gathering
            have memory : (caller.filled [bufferAt caller.memory (asUsize iovPtr + index * 8)]
                ⟨data, false, next, pipe⟩).memory = caller.memory.overwrite
                  (bufferAt caller.memory (asUsize iovPtr + index * 8)).start data :=
              caller.memory.scatter_first [] fits
            have base : asUsize iovPtr + index * 8 + 8 = asUsize iovPtr + (index + 1) * 8 := by
              omega
            rw [base, ← memory] at later
            dsimp only
            rw [inductionHypothesis (index + 1) (total + data.length) _ rfl later.2 later.1
              (by rw [← base]; omega) rfl]
            simp only [Caller.filled, Caller.starved, buffersAt, base,
              LinearMemory.scatter_full _ _ full, List.length_append, Nat.add_assoc,
              LinearMemory.scatter_first _ _ fits]

/-- `fd_read` over buffers and a count in place: gather, and report what was
gathered unless the last read would have blocked. -/
theorem fdRead_perform (platform : Platform) (caller : Caller) {reader : Pipe.BufReader}
    (present : caller.ctx.stdinReader = some reader) (iovPtr iovLen nreadPtr : Int32)
    (placed : InPlace caller.memory (asUsize iovPtr) (turns iovLen))
    (count : caller.memory.Covers ⟨asUsize nreadPtr, 4⟩) {buffers : List Region}
    (table : buffersAt caller.memory (asUsize iovPtr) (turns iovLen) = buffers)
    (small : LinearMemory.totalLength buffers < usizeModulus) {gathered : Gathered}
    (gathering : gather reader caller.stdin (buffers.map Region.length) = gathered) :
    (HostCall.fdRead 0 iovPtr iovLen nreadPtr).perform platform caller =
      if gathered.blocked then
        (.errno .again, Caller.starved { caller with strayed := false } buffers gathered)
      else
        (.errno .success, { Caller.filled { caller with strayed := false } buffers gathered with
          memory := (caller.memory.scatter buffers gathered.data).overwrite (asUsize nreadPtr)
            (leBytes 4 gathered.data.length) }) := by
  have start : asUsize iovPtr = asUsize iovPtr + 0 * 8 := by omega
  rw [start] at placed table
  apply (HostCall.perform_wp platform (.fdRead 0 iovPtr iovLen nreadPtr) caller
    fun ending after => (ending, after) = _).mpr
  simp only [HostCall.body, Host.fdRead, ne_eq, not_true, if_false, Program.wp_bind]
  rw [wp_gatherLoop iovPtr (turns iovLen) 0 0 { caller with strayed := false } present placed
    table (by rw [Nat.zero_add]; exact small) gathering]
  split
  · rfl
  · have stored : (Caller.filled { caller with strayed := false } buffers gathered).memory.Covers
        ⟨asUsize nreadPtr, (leBytes 4 gathered.data.length).length⟩ := by
      rw [leBytes_length]
      simp only [Caller.filled, LinearMemory.Covers, LinearMemory.scatter_size] at count ⊢
      exact count
    simp only [Host.wp_writeMemory, Nat.zero_add, if_pos stored, Program.wp_pure]
    rfl

/-! ## Runs -/

/-- What can happen to stdin.  Between its calls the guest stores what it likes
in its memory. -/
inductive StdinAction where
  | hostWrite (bytes : List UInt8)
  | hostDrop
  | stdinAvailable
  | guestStore (memory : GuestMemory)
  | fdRead (iovPtr iovLen nreadPtr : Int32)

def stdinStep (platform : Platform) (caller : Caller) : StdinAction -> Option Caller
  | .hostWrite bytes => some { caller with stdin := (caller.stdin.write bytes).2.2 }
  | .hostDrop => some { caller with stdin := caller.stdin.dropWriter.2 }
  | .stdinAvailable =>
      let asked := caller.ctx.stdinAvailable caller.stdin
      some { caller with ctx := asked.2.1, stdin := asked.2.2 }
  | .guestStore memory => some { caller with memory := memory }
  | .fdRead iovPtr iovLen nreadPtr =>
      some ((HostCall.fdRead 0 iovPtr iovLen nreadPtr).perform platform caller).2

def freshStdin (caller : Caller) : Caller :=
  { caller with
    ctx := { caller.ctx with stdinReader := some ⟨[]⟩ }
    stdin := Pipe.nonBlockingPipe }

def buffered (caller : Caller) : List UInt8 :=
  (caller.ctx.stdinReader.map Pipe.BufReader.buffered).getD []

/-- The bytes still to be read: in the reader, and then in the pipe. -/
def unread (caller : Caller) : List UInt8 :=
  buffered caller ++ caller.stdin.buf

def hostWritten (taken : Transition Caller StdinAction) : List UInt8 :=
  match taken.action with
  | .hostWrite bytes => bytes
  | _ => []

/-- The bytes that an `fd_read` reported: as many as its count says, from its
buffers in order, provided it succeeded. -/
def reported (platform : Platform) (taken : Transition Caller StdinAction) : List UInt8 :=
  match taken.action with
  | .fdRead iovPtr iovLen nreadPtr =>
      if ((HostCall.fdRead 0 iovPtr iovLen nreadPtr).perform platform taken.before).1 =
          .errno .success then
        ((buffersAt taken.before.memory (asUsize iovPtr) (turns iovLen)).flatMap
          taken.after.memory.contents).take
            (leNat (taken.after.memory.contents ⟨asUsize nreadPtr, 4⟩))
      else []
  | _ => []

/-- What the guest was told, followed by what it has still to read, is what the host
wrote: nothing is lost, duplicated or reordered. -/
def Intact (platform : Platform) (history : List (Transition Caller StdinAction))
    (final : Caller) : Prop :=
  history.flatMap (reported platform) ++ unread final = history.flatMap hostWritten

/-- The regions of an `fd_read` lie within the memory, and its buffers do not
overlap each other, the table or the count. -/
def WellPlaced (taken : Transition Caller StdinAction) : Prop :=
  match taken.action with
  | .fdRead iovPtr iovLen nreadPtr =>
      Placed taken.before.memory (asUsize iovPtr) (turns iovLen) ∧
        taken.before.memory.Covers ⟨asUsize nreadPtr, 4⟩ ∧
        forall buffer, buffer ∈ buffersAt taken.before.memory (asUsize iovPtr) (turns iovLen) ->
          buffer.Disjoint ⟨asUsize nreadPtr, 4⟩
  | _ => True

/-- An `fd_read` whose first buffers use up a stream that is neither empty nor
at its end. -/
def StarvesMidway (taken : Transition Caller StdinAction) : Prop :=
  match taken.action with
  | .fdRead iovPtr iovLen _ =>
      taken.before.stdin.closed = false ∧ unread taken.before ≠ [] ∧
        Exhausts (buffered taken.before).length taken.before.stdin.buf.length
          ((buffersAt taken.before.memory (asUsize iovPtr) (turns iovLen)).map Region.length)
  | _ => False

theorem unread_present {caller : Caller} {reader : Pipe.BufReader}
    (present : caller.ctx.stdinReader = some reader) :
    unread caller = reader.stream caller.stdin := by
  simp only [unread, buffered, present, Option.map_some, Option.getD_some, Pipe.BufReader.stream]

theorem starvesMidway_iff {caller : Caller} {reader : Pipe.BufReader}
    (present : caller.ctx.stdinReader = some reader) (iovPtr iovLen nreadPtr : Int32)
    (after : Caller) :
    StarvesMidway ⟨caller, .fdRead iovPtr iovLen nreadPtr, after⟩ ↔
      (gather reader caller.stdin ((buffersAt caller.memory (asUsize iovPtr)
        (turns iovLen)).map Region.length)).blocked = true ∧ unread caller ≠ [] := by
  rw [gather_blocked_iff, and_assoc, and_comm (b := unread caller ≠ [])]
  simp only [StarvesMidway, buffered, present, Option.map_some, Option.getD_some]

/-! ## One step -/

private theorem totalLength_small {memory : GuestMemory} {buffers : List Region} {nread : Nat}
    (apart : buffers.Pairwise Region.Disjoint)
    (covered : forall buffer, buffer ∈ buffers -> memory.Covers buffer)
    (count : memory.Covers ⟨nread, 4⟩)
    (offCount : forall buffer, buffer ∈ buffers -> buffer.Disjoint ⟨nread, 4⟩) :
    LinearMemory.totalLength buffers < 256 ^ 4 := by
  have fits := memory.totalLength_le (⟨nread, 4⟩ :: buffers)
    (List.pairwise_cons.mpr ⟨fun buffer member => (offCount buffer member).symm, apart⟩)
    (fun buffer member _ => (List.mem_cons.mp member).elim (fun same => same ▸ count)
      (covered buffer))
  have size := GuestMemory.size_le memory
  simp only [LinearMemory.totalLength] at fits
  omega

private theorem reported_fdRead (platform : Platform) {caller : Caller} {reader : Pipe.BufReader}
    (present : caller.ctx.stdinReader = some reader) {iovPtr iovLen nreadPtr : Int32}
    {after : Caller} (placed : WellPlaced ⟨caller, .fdRead iovPtr iovLen nreadPtr, after⟩)
    (stepped : stdinStep platform caller (.fdRead iovPtr iovLen nreadPtr) = some after)
    {gathered : Gathered}
    (gathering : gather reader caller.stdin ((buffersAt caller.memory (asUsize iovPtr)
      (turns iovLen)).map Region.length) = gathered) :
    reported platform ⟨caller, .fdRead iovPtr iovLen nreadPtr, after⟩ =
        (if gathered.blocked then [] else gathered.data) ∧
      after.ctx.stdinReader = some gathered.reader ∧ after.stdin = gathered.pipe := by
  rcases placed with ⟨table, count, offCount⟩
  have apart := table.apart
  have small := totalLength_small apart table.buffers count offCount
  have fits := gather_length reader caller.stdin
    (buffersAt caller.memory (asUsize iovPtr) (turns iovLen))
  rw [gathering] at fits
  have performed := fdRead_perform platform caller present iovPtr iovLen nreadPtr table.inPlace
    count rfl (Nat.lt_of_lt_of_le small targetBounds.lengths) gathering
  cases stepped
  simp only [reported]
  dsimp only at offCount small
  generalize buffersAt caller.memory (asUsize iovPtr) (turns iovLen) = buffers at *
  by_cases blocked : gathered.blocked = true
  · rw [if_pos blocked] at performed ⊢
    rw [performed]
    exact ⟨rfl, rfl, rfl⟩
  · rw [if_neg blocked] at performed ⊢
    rw [performed]
    refine ⟨?_, rfl, rfl⟩
    have counted := (caller.memory.scatter buffers gathered.data).contents_overwrite_leBytes
      (asUsize nreadPtr) 4 gathered.data.length
    have kept : forall buffer, buffer ∈ buffers ->
        ((caller.memory.scatter buffers gathered.data).overwrite (asUsize nreadPtr)
          (leBytes 4 gathered.data.length)).contents buffer =
            (caller.memory.scatter buffers gathered.data).contents buffer := by
      intro buffer member
      apply LinearMemory.contents_overwrite_disjoint
      rw [leBytes_length]
      exact offCount buffer member
    rw [if_pos rfl, counted, leNat_leBytes (Nat.lt_of_le_of_lt fits small),
      List.flatMap_congr kept]
    exact caller.memory.flatMap_contents_scatter apart fits

/-- A step keeps the reader open, and keeps the stream exactly when no `fd_read`
starves midway. -/
theorem stream_step (platform : Platform) {caller after : Caller} {action : StdinAction}
    (opened : caller.ctx.stdinReader ≠ none) (placed : WellPlaced ⟨caller, action, after⟩)
    (stepped : stdinStep platform caller action = some after) :
    after.ctx.stdinReader ≠ none ∧
      (reported platform ⟨caller, action, after⟩ ++ unread after =
          unread caller ++ hostWritten ⟨caller, action, after⟩ ↔
        ¬ StarvesMidway ⟨caller, action, after⟩) := by
  rcases Option.ne_none_iff_exists'.mp opened with ⟨reader, present⟩
  cases action with
  | hostWrite bytes =>
      cases stepped
      refine ⟨opened, iff_of_true ?_ id⟩
      simp only [reported, hostWritten, unread, buffered, Pipe.write_buf, List.nil_append,
        List.append_assoc]
  | hostDrop =>
      cases stepped
      refine ⟨opened, iff_of_true ?_ id⟩
      simp only [reported, hostWritten, unread, buffered, Pipe.dropWriter_buf, List.nil_append,
        List.append_nil]
  | guestStore memory =>
      cases stepped
      refine ⟨opened, iff_of_true ?_ id⟩
      simp only [reported, hostWritten, unread, buffered, List.nil_append, List.append_nil]
  | stdinAvailable =>
      have filled := (Pipe.BufReader.fillBuf_stream reader caller.stdin).1
      cases stepped
      simp only [WasiCtx.stdinAvailable, present, reported, hostWritten, unread, buffered,
        List.nil_append, List.append_nil, Option.map_some, Option.getD_some]
      rcases fill : reader.fillBuf caller.stdin with ⟨result, next, pipe⟩
      rw [fill] at filled
      cases result with
      | ok data => exact ⟨Option.some_ne_none _, iff_of_true filled id⟩
      | wouldBlock => exact ⟨Option.some_ne_none _, iff_of_true filled id⟩
  | fdRead iovPtr iovLen nreadPtr =>
      generalize rooms : (buffersAt caller.memory (asUsize iovPtr) (turns iovLen)).map
        Region.length = lengths
      have read := reported_fdRead platform present placed stepped rfl
      have stream := gather_stream reader caller.stdin lengths
      rw [rooms] at read
      have before := unread_present present
      have later : unread after = (gather reader caller.stdin lengths).reader.stream
          (gather reader caller.stdin lengths).pipe := by
        simp only [unread, buffered, read.2.1, read.2.2, Option.map_some, Option.getD_some,
          Pipe.BufReader.stream]
      have midway := starvesMidway_iff present iovPtr iovLen nreadPtr after
      rw [rooms] at midway
      refine ⟨by rw [read.2.1]; exact Option.some_ne_none _, ?_⟩
      rw [midway, read.1, later, hostWritten, List.append_nil, before]
      by_cases starved : (gather reader caller.stdin lengths).blocked = true
      · rw [if_pos starved, stream.2 starved]
        simp only [starved, true_and, List.append_nil, ne_eq, not_not]
        exact eq_comm
      · rw [if_neg starved]
        simp only [starved, false_and, not_false_iff, iff_true, Bool.false_eq_true]
        exact stream.1.symm

/-! ## Whole runs -/

private theorem intact_extend (platform : Platform)
    {history : List (Transition Caller StdinAction)} {caller after : Caller}
    {action : StdinAction} (opened : caller.ctx.stdinReader ≠ none)
    (placed : WellPlaced ⟨caller, action, after⟩)
    (stepped : stdinStep platform caller action = some after)
    (intact : Intact platform history caller) :
    Intact platform (history ++ [⟨caller, action, after⟩]) after ↔
      ¬ StarvesMidway ⟨caller, action, after⟩ := by
  rw [← (stream_step platform opened placed stepped).2]
  unfold Intact at intact ⊢
  simp only [List.flatMap_append, List.flatMap_singleton]
  rw [← intact, List.append_assoc, List.append_assoc]
  exact List.append_right_inj _

private theorem intact_run (platform : Platform) {caller final : Caller}
    {history : List (Transition Caller StdinAction)}
    (run : Run (stdinStep platform) (freshStdin caller) history final)
    (placed : forall taken, taken ∈ history -> WellPlaced taken)
    (fed : forall taken, taken ∈ history -> ¬ StarvesMidway taken) :
    final.ctx.stdinReader ≠ none ∧ Intact platform history final := by
  induction run with
  | start => exact ⟨Option.some_ne_none _, rfl⟩
  | @extend history before after action _ stepped inductionHypothesis =>
      rcases inductionHypothesis
        (fun taken member => placed taken (List.mem_append_left _ member))
        (fun taken member => fed taken (List.mem_append_left _ member)) with ⟨opened, intact⟩
      have last : (⟨before, action, after⟩ : Transition Caller StdinAction) ∈
          history ++ [⟨before, action, after⟩] :=
        List.mem_append_right _ List.mem_cons_self
      constructor
      · exact (stream_step platform opened (placed _ last) stepped).1
      · exact (intact_extend platform opened (placed _ last) stepped intact).mpr (fed _ last)

private theorem opened_run (platform : Platform) {caller final : Caller}
    {history : List (Transition Caller StdinAction)}
    (run : Run (stdinStep platform) (freshStdin caller) history final)
    (placed : forall taken, taken ∈ history -> WellPlaced taken) :
    final.ctx.stdinReader ≠ none := by
  apply (run.invariantWithin (fun state => state.ctx.stdinReader ≠ none) WellPlaced
    (Option.some_ne_none _) placed _).1
  intro state action next opened stepped here
  exact (stream_step platform opened here stepped).1

/-- In a run whose calls have well placed regions, the stream is intact in every
state reached exactly when no `fd_read` starves midway. -/
theorem stdin_stream_intact_iff (platform : Platform) {caller final : Caller}
    {history : List (Transition Caller StdinAction)}
    (run : Run (stdinStep platform) (freshStdin caller) history final)
    (placed : forall taken, taken ∈ history -> WellPlaced taken) :
    (forall earlier reached, earlier <+: history ->
        Run (stdinStep platform) (freshStdin caller) earlier reached ->
          Intact platform earlier reached) ↔
      forall taken, taken ∈ history -> ¬ StarvesMidway taken := by
  constructor
  · intro law taken member
    rcases run.reached_before taken member with ⟨earlier, initialPart, reached⟩
    have stepped := run.stepped taken member
    have before := law earlier taken.before ((List.prefix_append _ _).trans initialPart) reached
    have after := law (earlier ++ [taken]) taken.after initialPart (reached.extend stepped)
    have opened := opened_run platform reached fun other listed =>
      placed other (initialPart.subset (List.mem_append_left _ listed))
    exact (intact_extend platform opened (placed taken member) stepped before).mp after
  · intro fed earlier reached initialPart reaching
    exact (intact_run platform reaching
      (fun taken member => placed taken (initialPart.subset member))
      (fun taken member => fed taken (initialPart.subset member))).2

end Target

/-! ## A byte that nobody gets -/

/-- A guest whose table at 0 has two buffers of one byte each. -/
def twoBuffersCaller : Caller where
  ctx := ⟨[], [], none, true, true, none, false⟩
  memory := onePage fun address =>
    match address with
    | 0 => 100
    | 4 => 1
    | 8 => 101
    | 12 => 1
    | _ => 0
  fuel := 100000
  stdin := Pipe.nonBlockingPipe
  stdout := Pipe.nonBlockingPipe
  stderr := Pipe.nonBlockingPipe
  strayed := false

def silentPlatform : Platform where
  sinceEpoch := none
  instant := 0
  random := none

def oneByteCaller : Caller :=
  { freshStdin twoBuffersCaller with stdin := ⟨[65], false, none⟩ }

/-- The host writes one byte, and the guest asks for two, into two buffers. -/
def starvingHistory : List (Transition Caller StdinAction) :=
  [⟨freshStdin twoBuffersCaller, .hostWrite [65], oneByteCaller⟩,
    ⟨oneByteCaller, .fdRead 0 2 16,
      ((HostCall.fdRead 0 0 2 16).perform silentPlatform oneByteCaller).2⟩]

private theorem starving_run : Run (stdinStep silentPlatform) (freshStdin twoBuffersCaller)
    starvingHistory ((HostCall.fdRead 0 0 2 16).perform silentPlatform oneByteCaller).2 :=
  Run.of_play [.hostWrite [65], .fdRead 0 2 16] _ _ rfl

private theorem starving_placed (taken : Transition Caller StdinAction)
    (member : taken ∈ starvingHistory) : WellPlaced taken := by
  simp only [starvingHistory, List.mem_cons, List.not_mem_nil, or_false] at member
  rcases member with same | same <;> subst same
  · exact trivial
  · have table : buffersAt oneByteCaller.memory (asUsize 0) (turns 2) = [⟨100, 1⟩, ⟨101, 1⟩] := by
      decide
    refine ⟨⟨by decide, ?_, ?_, ?_⟩, by decide, ?_⟩
    all_goals
      dsimp only
      rw [table]
      decide

/-- The byte is taken from the stream, but the call ends in `Again`. -/
theorem byte_lost_midway :
    ¬ forall platform caller history final,
        Run (stdinStep platform) (freshStdin caller) history final ->
        (forall taken, taken ∈ history -> WellPlaced taken) -> Intact platform history final := by
  intro law
  have intact := law silentPlatform twoBuffersCaller starvingHistory _ starving_run starving_placed
  exact absurd intact (by unfold Intact; decide)

/-- The characterisation at that run: it violates the law because the call
starves midway. -/
theorem starving_violates :
    ¬ forall earlier reached, earlier <+: starvingHistory ->
        Run (stdinStep silentPlatform) (freshStdin twoBuffersCaller) earlier reached ->
          Intact silentPlatform earlier reached := by
  intro law
  have fed := (stdin_stream_intact_iff silentPlatform starving_run starving_placed).mp law
  apply fed _ (List.mem_cons_of_mem _ List.mem_cons_self)
  have table : buffersAt oneByteCaller.memory (asUsize 0) (turns 2) = [⟨100, 1⟩, ⟨101, 1⟩] := by
    decide
  refine ⟨rfl, by decide, ?_⟩
  dsimp only
  rw [table]
  simp [Exhausts, Pipe.BufReader.capacity, oneByteCaller, buffered, freshStdin]

end Wasi
end WasmiPlugin
