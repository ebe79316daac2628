import WasmiPlugin.Wasi.Frames
import WasmiPlugin.Wasi.StdinStream

namespace WasmiPlugin
namespace Wasi

open Foundation

/-!
# The end of stdin

A guest learns that the host has hung up by a successful `fd_read` of no bytes.
The loop takes an empty read for the end of the file, and it is one if there was
room for something.  A first buffer without room gives an empty read as well.
-/

/-- What an answer says about stdin is true: no bytes mean the end of the file, what
is there is given, and without it a living host is waited for. -/
structure TrueAnswer (dropped : Prop) (available : List UInt8) (ending : Ending) (nread : Nat) :
    Prop where
  ends : ending = .errno .success -> nread = 0 -> dropped ∧ available = []
  gives : available ≠ [] -> ending = .errno .success ∧ 0 < nread
  waits : available = [] -> ¬ dropped -> ending = .errno .again

private theorem TrueAnswer.of_nothing {dropped : Prop} {available : List UInt8}
    {closed blocked : Bool} (nothing : available = []) (hungUp : closed = true ↔ dropped)
    (waits : blocked = !closed) (nread : Nat) :
    TrueAnswer dropped available (if blocked then .errno .again else .errno .success) nread := by
  subst waits
  cases closed with
  | true =>
      exact ⟨fun _ _ => ⟨hungUp.mp rfl, nothing⟩, fun some => absurd nothing some,
        fun _ alive => absurd (hungUp.mp rfl) alive⟩
  | false =>
      exact ⟨fun success => (by cases success), fun some => absurd nothing some, fun _ _ => rfl⟩

private theorem TrueAnswer.something_iff {dropped : Prop} {available : List UInt8}
    {blocked : Bool} {nread : Nat} (something : available ≠ []) :
    TrueAnswer dropped available (if blocked then .errno .again else .errno .success) nread ↔
      blocked = false ∧ nread ≠ 0 := by
  constructor
  · intro answer
    rcases answer.gives something with ⟨success, given⟩
    cases blocked with
    | true => cases success
    | false => exact ⟨rfl, Nat.pos_iff_ne_zero.mp given⟩
  · rintro ⟨goes, given⟩
    subst goes
    exact ⟨fun _ none => absurd none given, fun _ => ⟨rfl, Nat.pos_iff_ne_zero.mpr given⟩,
      fun none => absurd none something⟩

/-! ## Gathering into the first buffer -/

private theorem read_something (reader : Pipe.BufReader) (pipe : Pipe.Inner) (room : Nat)
    (some : reader.stream pipe ≠ []) :
    Exists fun source => Exists fun next => Exists fun rest => source ≠ [] ∧
      reader.read pipe room = (.ok (source.take room), next, rest) := by
  rcases reader with ⟨buffered⟩
  by_cases buffer : buffered = []
  · subst buffer
    have piped : pipe.buf ≠ [] := some
    rcases Nat.lt_or_ge room Pipe.BufReader.capacity with small | large
    · refine ⟨_, _, _, ?_, Pipe.BufReader.read_refilled pipe small piped⟩
      intro nothing
      exact piped ((Pipe.take_eq_nil_of_room pipe.buf (by decide)).mp
        (List.length_eq_zero_iff.mpr nothing))
    · exact ⟨_, _, _, piped, Pipe.BufReader.read_direct pipe large piped⟩
  · exact ⟨_, _, _, buffer, Pipe.BufReader.read_buffered ⟨buffered⟩ pipe room buffer⟩

/-- From a stream that is not empty, nothing is gathered only if the first buffer has
no room. -/
private theorem gather_nothing_iff (reader : Pipe.BufReader) (pipe : Pipe.Inner) (room : Nat)
    (rooms : List Nat) (some : reader.stream pipe ≠ []) :
    (gather reader pipe (room :: rooms)).data.length = 0 ↔ room = 0 := by
  rcases read_something reader pipe room some with ⟨source, next, rest, something, read⟩
  have positive := List.length_pos_iff.mpr something
  rw [gather, read]
  dsimp only
  rw [List.length_take]
  split
  · dsimp only
    rw [List.length_take]
    omega
  · dsimp only
    rw [List.length_append, List.length_take]
    omega

private theorem gather_empty (reader : Pipe.BufReader) (pipe : Pipe.Inner) (room : Nat)
    (rooms : List Nat) (empty : reader.stream pipe = []) :
    (gather reader pipe (room :: rooms)).blocked = !pipe.closed := by
  rcases reader with ⟨buffered⟩
  rcases List.append_eq_nil_iff.mp empty with ⟨buffer, piped⟩
  dsimp only at buffer
  subst buffer
  rw [gather, Pipe.BufReader.read_exhausted pipe room piped]
  cases pipe.closed <;> rfl

section Target

variable [HostTarget]

/-! ## Answers in a run -/

def Dropped (history : List (Transition Caller StdinAction)) : Prop :=
  Exists fun taken => taken ∈ history ∧ taken.action = .hostDrop

/-- The table, the buffers and the count of an `fd_read` lie within the memory, the
buffers off the table, and there is room for something and not for more than can be
counted. -/
def ValidRead (taken : Transition Caller StdinAction) : Prop :=
  match taken.action with
  | .fdRead iovPtr iovLen nreadPtr =>
      InPlace taken.before.memory (asUsize iovPtr) (turns iovLen) ∧
        taken.before.memory.Covers ⟨asUsize nreadPtr, 4⟩ ∧
        0 < LinearMemory.totalLength
          (buffersAt taken.before.memory (asUsize iovPtr) (turns iovLen)) ∧
        LinearMemory.totalLength
          (buffersAt taken.before.memory (asUsize iovPtr) (turns iovLen)) < 2 ^ 32
  | _ => False

/-- The answer of an `fd_read` after a history. -/
def AnswersTruly (platform : Platform) (earlier : List (Transition Caller StdinAction))
    (taken : Transition Caller StdinAction) : Prop :=
  match taken.action with
  | .fdRead iovPtr iovLen nreadPtr => TrueAnswer (Dropped earlier) (unread taken.before)
      ((HostCall.fdRead 0 iovPtr iovLen nreadPtr).perform platform taken.before).1
      (leNat (taken.after.memory.contents ⟨asUsize nreadPtr, 4⟩))
  | _ => True

/-- If something is there then the first buffer has room for some of it, and the
call does not starve midway. -/
def Answerable (taken : Transition Caller StdinAction) : Prop :=
  match taken.action with
  | .fdRead iovPtr _ _ => unread taken.before ≠ [] ->
      (bufferAt taken.before.memory (asUsize iovPtr)).length ≠ 0 ∧ ¬ StarvesMidway taken
  | _ => True

/-! ## The reader and the pipe -/

/-- No call opens or closes the pipe behind stdin, and only `fd_close` drops the
reader. -/
theorem frame_stdin :
    Frame fun before after : Caller =>
      (before.ctx.stdinReader ≠ none -> after.ctx.stdinReader ≠ none) ∧
        after.stdin.closed = before.stdin.closed where
  refl := fun _ => ⟨id, rfl⟩
  trans := fun _ _ _ early late => ⟨late.1 ∘ early.1, late.2.trans early.2⟩
  strayed := fun _ _ => ⟨id, rfl⟩
  memory := fun _ _ => ⟨id, rfl⟩
  fuel := fun _ => ⟨id, rfl⟩
  stdin := fun caller reader room _ =>
    ⟨fun _ => Option.some_ne_none _, (Pipe.BufReader.read_stream reader caller.stdin room).1⟩
  starved := fun caller reader room _ =>
    ⟨fun _ => Option.some_ne_none _, (Pipe.BufReader.read_stream reader caller.stdin room).1⟩
  stdout := fun _ _ _ => ⟨id, rfl⟩
  stderr := fun _ _ _ => ⟨id, rfl⟩

private theorem dropped_extend (history : List (Transition Caller StdinAction))
    (taken : Transition Caller StdinAction) :
    Dropped (history ++ [taken]) ↔ Dropped history ∨ taken.action = .hostDrop := by
  simp only [Dropped, List.mem_append, List.mem_singleton, or_and_right, exists_or,
    exists_eq_left]

private theorem stdinStep_closed (platform : Platform) {before after : Caller}
    {action : StdinAction} (opened : before.ctx.stdinReader ≠ none)
    (stepped : stdinStep platform before action = some after) :
    after.ctx.stdinReader ≠ none ∧
      (after.stdin.closed = true ↔ before.stdin.closed = true ∨ action = .hostDrop) := by
  cases action with
  | hostWrite | guestStore =>
      cases stepped
      exact ⟨opened, (or_iff_left (fun other => by cases other)).symm⟩
  | hostDrop =>
      cases stepped
      exact ⟨opened, iff_of_true rfl (.inr rfl)⟩
  | stdinAvailable =>
      rcases Option.ne_none_iff_exists'.mp opened with ⟨reader, present⟩
      have filled := (Pipe.BufReader.fillBuf_stream reader before.stdin).2.1
      cases stepped
      rw [or_iff_left (fun other => by cases other), ← filled]
      simp only [WasiCtx.stdinAvailable, present]
      rcases reader.fillBuf before.stdin with ⟨result, next, pipe⟩
      cases result with
      | ok | wouldBlock => exact ⟨Option.some_ne_none _, Iff.rfl⟩
  | fdRead iovPtr iovLen nreadPtr =>
      have kept := HostCall.perform_within frame_stdin platform
        (.fdRead 0 iovPtr iovLen nreadPtr) before (fun _ other => by cases other)
        (fun _ _ _ _ other => by cases other)
      cases stepped
      rw [or_iff_left (fun other => by cases other), kept.2]
      exact ⟨kept.1 opened, Iff.rfl⟩

/-- In any run the reader is there, and the pipe is closed when the host has dropped
its end. -/
theorem stdin_run (platform : Platform) {caller final : Caller}
    {history : List (Transition Caller StdinAction)}
    (run : Run (stdinStep platform) (freshStdin caller) history final) :
    final.ctx.stdinReader ≠ none ∧ (final.stdin.closed = true ↔ Dropped history) := by
  induction run with
  | start =>
      refine ⟨Option.some_ne_none _, iff_of_false Bool.false_ne_true ?_⟩
      rintro ⟨_, member, _⟩
      exact absurd member List.not_mem_nil
  | @extend history before after action _ stepped inductionHypothesis =>
      rcases stdinStep_closed platform inductionHypothesis.1 stepped with ⟨opened, closed⟩
      refine ⟨opened, ?_⟩
      rw [closed, dropped_extend, inductionHypothesis.2]

/-! ## Answers -/

private theorem fdRead_answer (platform : Platform) {before after : Caller}
    {reader : Pipe.BufReader} (present : before.ctx.stdinReader = some reader)
    {iovPtr iovLen nreadPtr : Int32}
    (valid : ValidRead ⟨before, .fdRead iovPtr iovLen nreadPtr, after⟩)
    (stepped : stdinStep platform before (.fdRead iovPtr iovLen nreadPtr) = some after) :
    Exists fun rooms => Exists fun gathered =>
      (buffersAt before.memory (asUsize iovPtr) (turns iovLen)).map Region.length =
        (bufferAt before.memory (asUsize iovPtr)).length :: rooms ∧
      gather reader before.stdin ((bufferAt before.memory (asUsize iovPtr)).length :: rooms) =
        gathered ∧
      ((HostCall.fdRead 0 iovPtr iovLen nreadPtr).perform platform before).1 =
        (if gathered.blocked then .errno .again else .errno .success) ∧
      (gathered.blocked = false ->
        leNat (after.memory.contents ⟨asUsize nreadPtr, 4⟩) = gathered.data.length) := by
  rcases valid with ⟨inPlace, count, positive, small⟩
  dsimp only at inPlace count positive small
  have fits := gather_length reader before.stdin
    (buffersAt before.memory (asUsize iovPtr) (turns iovLen))
  have performed := fdRead_perform platform before present iovPtr iovLen nreadPtr inPlace count rfl
    (Nat.lt_of_lt_of_le small targetBounds.lengths) rfl
  cases stepped
  cases counted : turns iovLen with
  | zero =>
      rw [counted] at positive
      exact absurd positive (Nat.lt_irrefl 0)
  | succ others =>
      rw [counted] at fits performed small
      refine ⟨(buffersAt before.memory (asUsize iovPtr + 8) others).map Region.length, _, rfl, rfl,
        ?_, fun goes => ?_⟩
      · rw [performed]
        simp only [buffersAt, List.map_cons]
        split <;> rfl
      · simp only [buffersAt, List.map_cons] at performed fits goes ⊢
        rw [if_neg (Bool.eq_false_iff.mp goes)] at performed
        rw [performed]
        rw [LinearMemory.contents_overwrite_leBytes, leNat_leBytes (Nat.lt_of_le_of_lt fits small)]

/-- In any run, the answer of a valid `fd_read` is true exactly when the call is
answerable. -/
theorem fd_read_answers_truly_iff (platform : Platform) {caller final : Caller}
    {history earlier later : List (Transition Caller StdinAction)}
    {taken : Transition Caller StdinAction}
    (run : Run (stdinStep platform) (freshStdin caller) history final)
    (shape : history = earlier ++ taken :: later) (valid : ValidRead taken) :
    AnswersTruly platform earlier taken ↔ Answerable taken := by
  rcases run.split shape with ⟨reached, stepped⟩
  rcases stdin_run platform reached with ⟨opened, dropped⟩
  rcases taken with ⟨before, action, after⟩
  cases action with
  | hostWrite | hostDrop | stdinAvailable | guestStore => exact absurd valid id
  | fdRead iovPtr iovLen nreadPtr =>
      dsimp only at opened dropped stepped
      rcases Option.ne_none_iff_exists'.mp opened with ⟨reader, present⟩
      rcases fdRead_answer platform present valid stepped with
        ⟨rooms, gathered, table, gathering, ending, count⟩
      have stream := unread_present present
      have starves := starvesMidway_iff present iovPtr iovLen nreadPtr after
      rw [table, gathering] at starves
      simp only [AnswersTruly, Answerable]
      rw [ending, starves]
      by_cases empty : unread before = []
      · have waits := gather_empty reader before.stdin
          (bufferAt before.memory (asUsize iovPtr)).length rooms (stream ▸ empty)
        rw [gathering] at waits
        exact iff_of_true (TrueAnswer.of_nothing empty dropped waits _)
          fun some => absurd empty some
      · have nothing := gather_nothing_iff reader before.stdin
          (bufferAt before.memory (asUsize iovPtr)).length rooms (stream ▸ empty)
        rw [gathering] at nothing
        rw [TrueAnswer.something_iff empty]
        constructor
        · rintro ⟨goes, given⟩ _
          rw [count goes] at given
          refine ⟨fun none => given (nothing.mpr none), fun midway => ?_⟩
          exact Bool.false_ne_true (goes.symm.trans midway.1)
        · intro answerable
          rcases answerable empty with ⟨room, fed⟩
          have goes : gathered.blocked = false :=
            Bool.eq_false_iff.mpr fun blocked => fed ⟨blocked, empty⟩
          rw [count goes]
          exact ⟨goes, fun none => room (nothing.mp none)⟩

end Target

/-! ## A first buffer without room -/

private theorem served_valid (after : Caller) :
    ValidRead ⟨oneByteCaller, .fdRead 0 1 16, after⟩ := by
  have table : buffersAt oneByteCaller.memory (asUsize 0) (turns 1) = [⟨100, 1⟩] := by decide
  dsimp only [ValidRead]
  refine ⟨⟨by decide, ?_, ?_⟩, by decide, ?_, ?_⟩
  all_goals
    rw [table]
    decide

/-- A guest that asks for one byte after the host wrote one gets the byte, and so the
answer is true. -/
theorem byte_served :
    AnswersTruly silentPlatform [⟨freshStdin twoBuffersCaller, .hostWrite [65], oneByteCaller⟩]
      ⟨oneByteCaller, .fdRead 0 1 16,
        ((HostCall.fdRead 0 0 1 16).perform silentPlatform oneByteCaller).2⟩ := by
  have run : Run (stdinStep silentPlatform) (freshStdin twoBuffersCaller)
      [⟨freshStdin twoBuffersCaller, .hostWrite [65], oneByteCaller⟩,
        ⟨oneByteCaller, .fdRead 0 1 16,
          ((HostCall.fdRead 0 0 1 16).perform silentPlatform oneByteCaller).2⟩] _ :=
    Run.of_play [.hostWrite [65], .fdRead 0 1 16] _ _ rfl
  refine (fd_read_answers_truly_iff silentPlatform run rfl (served_valid _)).mpr fun _ => ?_
  have table : buffersAt oneByteCaller.memory (asUsize 0) (turns 1) = [⟨100, 1⟩] := by decide
  refine ⟨by decide, fun midway => ?_⟩
  have exhausted := midway.2.2
  dsimp only at exhausted
  rw [table] at exhausted
  simp [Exhausts, oneByteCaller, buffered, freshStdin] at exhausted

/-- A guest whose table at 0 has a buffer without room, and then one with room for a
byte. -/
def roomlessFirstCaller : Caller :=
  { twoBuffersCaller with
    memory := onePage fun address =>
      match address with
      | 0 => 100
      | 8 => 101
      | 12 => 1
      | _ => 0 }

def roomlessReadCaller : Caller :=
  { freshStdin roomlessFirstCaller with stdin := ⟨[65], false, none⟩ }

private theorem roomless_valid (after : Caller) :
    ValidRead ⟨roomlessReadCaller, .fdRead 0 2 16, after⟩ := by
  have table : buffersAt roomlessReadCaller.memory (asUsize 0) (turns 2) =
      [⟨100, 0⟩, ⟨101, 1⟩] := by decide
  dsimp only [ValidRead]
  refine ⟨⟨by decide, ?_, ?_⟩, by decide, ?_, ?_⟩
  all_goals
    rw [table]
    decide

private theorem roomless_run : Run (stdinStep silentPlatform) (freshStdin roomlessFirstCaller)
    ([⟨freshStdin roomlessFirstCaller, .hostWrite [65], roomlessReadCaller⟩] ++
      [⟨roomlessReadCaller, .fdRead 0 2 16,
        ((HostCall.fdRead 0 0 2 16).perform silentPlatform roomlessReadCaller).2⟩])
    ((HostCall.fdRead 0 0 2 16).perform silentPlatform roomlessReadCaller).2 :=
  Run.of_play [.hostWrite [65], .fdRead 0 2 16] _ _ rfl

/-- The host has written a byte and is still there, and the guest is told that it has
hung up. -/
theorem hang_up_invented :
    ¬ forall platform caller final history earlier taken later,
        Run (stdinStep platform) (freshStdin caller) history final ->
        history = earlier ++ taken :: later -> ValidRead taken ->
          AnswersTruly platform earlier taken := by
  intro law
  have answer := law silentPlatform roomlessFirstCaller _ _ _ _ [] roomless_run rfl
    (roomless_valid _)
  rcases answer.ends (by decide) (by decide) with ⟨⟨taken, member, drops⟩, _⟩
  rw [List.mem_singleton.mp member] at drops
  cases drops

end Wasi
end WasmiPlugin
