import WasmiPlugin.Wasi.Timers
import WasmiPlugin.Wasi.WriteReport

namespace WasmiPlugin
namespace Wasi

open Foundation

/-!
# Addresses from 2^31 on

Six functions take their addresses, counts and lengths as `i32` and extend the
sign, where others take `u32`.  Here the six are functions of numbers, so that one
definition has a run with the numbers that the code arrives at and a run with
those that the guest meant.  They compute addresses without a bound, and the code
never comes to one beyond 2^64: the host of this module is the native one.

Within a memory the two runs agree as long as nothing that is accessed is at an
address from 2^31 on.
-/

def unsigned (value : Int32) : Nat :=
  value.toUInt32.toNat

/-- The number is the same when its sign is extended. -/
def Low (value : Int32) : Prop :=
  unsigned value < 2 ^ 31

instance (value : Int32) : Decidable (Low value) :=
  inferInstanceAs (Decidable (_ < _))

/-! ## The six functions of numbers -/

namespace Host

/-- The record `index` of a table of `{ buf: u32, len: u32 }`. -/
def iovecAt (table index : Nat) : Host (Nat × Nat) := do
  let bufAddr ← readMemory ⟨table + index * 8, 4⟩ .panic
  let bufLen ← readMemory ⟨table + index * 8 + 4, 4⟩ .panic
  pure (leNat bufAddr, leNat bufLen)

def fdReadTurnAt (table index totalRead : Nat) : Host (Program.Turn Nat) := do
  let record ← iovecAt table index
  allocate record.2
  let data ← readStdin record.2
  if data.length = 0 then pure (.done totalRead)
  else do
    let totalRead ← usize (totalRead + data.length)
    writeMemory record.1 data .panic
    if data.length < record.2 then pure (.done totalRead) else pure (.next totalRead)

def fdReadAt (fd : UInt32) (table count nread : Nat) : Host Ending :=
  if fd ≠ 0 then pure (.errno .badf)
  else do
    let totalRead ← Program.loop (fdReadTurnAt table) count 0 0
    writeMemory nread (leBytes 4 totalRead) .panic
    pure (.errno .success)

def fdWriteTurnAt (fd : Int32) (table index totalWritten : Nat) : Host (Program.Turn Nat) := do
  let record ← iovecAt table index
  allocate record.2
  let bytes ← readMemory ⟨record.1, record.2⟩ (.errno .fault)
  let accepted ← writeOut fd bytes
  let totalWritten ← usize (totalWritten + accepted)
  if accepted < record.2 then pure (.done totalWritten) else pure (.next totalWritten)

def fdWriteAt (fd : Int32) (table count nwrite : Nat) : Host Ending := do
  let totalWritten ← Program.loop (fdWriteTurnAt fd table) count 0 0
  writeMemory nwrite (leBytes 4 totalWritten) (.errno .fault)
  pure (.errno .success)

def rightsOf (fd : Int32) : Host Nat :=
  if fd = 0 then pure (2 ^ 1)
  else if fd = 1 ∨ fd = 2 then pure (2 ^ 6)
  else Program.stop (.errno .badf)

def fdFdstatGetAt (fd : Int32) (buf : Nat) : Host Ending := do
  let rightsBase ← rightsOf fd
  writeMemory buf (fdstat rightsBase) (.errno .fault)
  pure (.errno .success)

variable (platform : Platform)

def clockTimeGetAt (clockId : Int32) (result : Nat) : Host Ending :=
  if clockId = 0 ∨ clockId = 1 then do
    let now ← nowNanos platform
    writeMemory result (leBytes 8 now) (.errno .fault)
    pure (.errno .success)
  else pure (.errno .inval)

def randomGetAt (buf length : Nat) : Host Ending := do
  allocate length
  match platform.random with
  | none => pure (.errno .io)
  | some random => do
      writeMemory buf ((List.range length).map random) (.errno .fault)
      pure (.errno .success)

def pollTurnAt (table index : Nat) (found : List ClockSubscription) :
    Host (Program.Turn (List ClockSubscription)) := do
  let bytes ← readMemory ⟨table + index * 48, 48⟩ .panic
  match ClockSubscription.ofBytes bytes with
  | none => pure (.next found)
  | some subscription => pure (.next (found ++ [subscription]))

def pollOneoffAt (table events count result : Nat) : Host Ending :=
  if count = 0 then pure (.errno .inval)
  else do
    let found ← Program.loop (pollTurnAt table) count 0 []
    match found with
    | [] => pure (.errno .inval)
    | first :: others => do
        let now ← nowNanos platform
        let chosen := earliest now first others
        awaitDeadline platform now (chosen.deadline now)
        writeMemory events (clockEvent chosen) .panic
        writeMemory result (leBytes 4 1) .panic
        pure (.errno .success)

end Host

/-- The function behind a name, with addresses and counts decoded in some way, and
without a bound on the numbers that it computes. -/
def HostCall.bodyAt (address count : Int32 -> Nat) (platform : Platform) : HostCall -> Host Ending
  | .fdRead fd iovPtr iovLen nreadPtr =>
      Host.fdReadAt fd (address iovPtr) (count iovLen) (address nreadPtr)
  | .fdWrite fd ciovPtr ciovLen nwritePtr =>
      Host.fdWriteAt fd (address ciovPtr) (count ciovLen) (address nwritePtr)
  | .fdFdstatGet fd bufPtr => Host.fdFdstatGetAt fd (address bufPtr)
  | .clockTimeGet clockId _ resultPtr => Host.clockTimeGetAt platform clockId (address resultPtr)
  | .randomGet bufPtr bufLen => Host.randomGetAt platform (address bufPtr) (address bufLen)
  | .pollOneoff subsPtr eventsPtr nsubscriptions resultPtr =>
      Host.pollOneoffAt platform (address subsPtr) (address eventsPtr) (count nsubscriptions)
        (address resultPtr)
  | call => call.body platform

def Host.run (body : Host Ending) (caller : Caller) : Ending × Caller :=
  match body { caller with strayed := false } with
  | (.value ending, after) => (ending, after)
  | (.stopped ending, after) => (ending, after)

/-- In every state of the host the call computes addresses that do not wrap, and if
the guest means addresses within its memory, it does what the guest means. -/
structure AddressesUnsigned (memory : GuestMemory) (call : HostCall) : Prop where
  unwrapped : forall platform caller, caller.memory = memory ->
    call.perform platform caller = Host.run (call.bodyAt asUsize turns platform) caller
  unsigned : forall platform caller, caller.memory = memory ->
    (Host.run (call.bodyAt unsigned unsigned platform) caller).2.strayed = false ->
      call.perform platform caller = Host.run (call.bodyAt unsigned unsigned platform) caller

/-! ## The condition -/

/-- An address is low, or what is there does not lie within the memory. -/
def Harmless (memory : GuestMemory) (ptr : Int32) (length : Nat) : Prop :=
  Low ptr ∨ ¬ memory.Covers ⟨unsigned ptr, length⟩

/-- A record and its buffer lie within the memory. -/
def BufferCovered (memory : GuestMemory) (base : Nat) : Prop :=
  memory.Covers ⟨base, 8⟩ ∧ memory.Covers (bufferAt memory base)

/-- Whatever a call accesses within the memory is at low addresses, and its counts
and lengths are low. -/
def HostCall.StaysLow (memory : GuestMemory) : HostCall -> Prop
  | .fdRead fd iovPtr iovLen nreadPtr => fd = 0 ->
      if iovLen = 0 then Harmless memory nreadPtr 4
      else memory.Covers ⟨unsigned iovPtr, 8⟩ ->
        Low iovLen ∧ Low iovPtr ∧ Harmless memory nreadPtr 4
  | .fdWrite fd ciovPtr ciovLen nwritePtr =>
      if ciovLen = 0 then Harmless memory nwritePtr 4
      else BufferCovered memory (unsigned ciovPtr) -> Low ciovLen ∧ Low ciovPtr ∧
        (fd = 1 ∨ fd = 2 -> (forall index, index < unsigned ciovLen ->
          BufferCovered memory (unsigned ciovPtr + index * 8)) -> Harmless memory nwritePtr 4)
  | .fdFdstatGet fd bufPtr => fd = 0 ∨ fd = 1 ∨ fd = 2 -> Harmless memory bufPtr 24
  | .clockTimeGet clockId _ resultPtr =>
      clockId = 0 ∨ clockId = 1 -> Harmless memory resultPtr 8
  | .randomGet bufPtr bufLen => Low bufLen ∧ Harmless memory bufPtr (unsigned bufLen)
  | .pollOneoff subsPtr eventsPtr nsubscriptions resultPtr => nsubscriptions ≠ 0 ->
      (forall index, index < unsigned nsubscriptions ->
        memory.Covers ⟨unsigned subsPtr + index * 48, 48⟩) -> Low subsPtr ∧
      (clockSubscriptions memory (unsigned subsPtr) (unsigned nsubscriptions) 0 ≠ [] ->
        memory.Covers ⟨unsigned eventsPtr, 32⟩ -> memory.Covers ⟨unsigned resultPtr, 4⟩ ->
          Low eventsPtr ∧ Low resultPtr)
  | _ => True

/-! ## Numbers -/

theorem usizeModulus_native : usizeModulus = 2 ^ 64 := rfl

theorem isizeMax_native : isizeMax = 2 ^ 63 - 1 := rfl

/-- A vector of a length that a guest can write down can be allocated. -/
theorem le_isizeMax {length : Nat} (small : length < 2 ^ 32) : length ≤ isizeMax := by
  rw [isizeMax_native]
  omega

theorem unsigned_lt (value : Int32) : unsigned value < 2 ^ 32 :=
  value.toUInt32.toNat_lt

theorem toInt_eq (value : Int32) :
    value.toInt = if unsigned value < 2 ^ 31 then (unsigned value : Int)
      else unsigned value - 2 ^ 32 := by
  have bits : value.toInt = value.toBitVec.toInt := rfl
  have same : unsigned value = value.toBitVec.toNat := rfl
  rw [bits, same, BitVec.toInt_eq_toNat_cond]
  split <;> split <;> omega

theorem asUsize_low {value : Int32} (low : Low value) : asUsize value = unsigned value := by
  have shown := toInt_eq value
  unfold Low at low
  rw [if_pos low] at shown
  unfold asUsize
  rw [usizeModulus_native]
  omega

theorem asUsize_high {value : Int32} (high : ¬ Low value) :
    2 ^ 63 ≤ asUsize value ∧ asUsize value < 2 ^ 64 := by
  have shown := toInt_eq value
  have bound := unsigned_lt value
  unfold Low at high
  rw [if_neg high] at shown
  unfold asUsize
  rw [usizeModulus_native]
  omega

theorem turns_low {count : Int32} (low : Low count) : turns count = unsigned count := by
  have shown := toInt_eq count
  unfold Low at low
  rw [if_pos low] at shown
  unfold turns
  omega

theorem turns_high {count : Int32} (high : ¬ Low count) : turns count = 0 := by
  have shown := toInt_eq count
  have bound := unsigned_lt count
  unfold Low at high
  rw [if_neg high] at shown
  unfold turns
  omega

theorem unsigned_eq_zero_iff {value : Int32} : unsigned value = 0 ↔ value = 0 := by
  constructor
  · intro none
    apply Int32.toInt_inj.mp
    rw [toInt_eq, none]
    rfl
  · intro none
    rw [none]
    rfl

/-- No region from a negative number on lies within a memory. -/
theorem not_covers_high {ptr : Int32} (high : ¬ Low ptr) (memory : GuestMemory)
    (offset length : Nat) : ¬ memory.Covers ⟨asUsize ptr + offset, length⟩ := by
  have beyond := asUsize_high high
  have small := GuestMemory.size_le memory
  unfold LinearMemory.Covers
  dsimp only
  omega

/-! ## Programs that stray -/

/-- The program accesses something outside of the memory and ends there. -/
def Strays {Value : Type} (program : Host Value) (ending : Ending) (caller : Caller) : Prop :=
  program caller = (.stopped ending, { caller with strayed := true })

section Strays

variable {Value Other : Type} {program : Host Value} {ending : Ending} {caller : Caller}

theorem Strays.bind {next : Value -> Host Other} (strays : Strays program ending caller) :
    Strays (program >>= next) ending caller := by
  unfold Strays at strays ⊢
  simp only [Bind.bind, strays]

theorem Strays.loop {body : Nat -> Value -> Host (Program.Turn Value)} {remaining index : Nat}
    {value : Value} (strays : Strays (body index value) ending caller) :
    Strays (Program.loop body (remaining + 1) index value) ending caller :=
  strays.bind

theorem strays_of_wp (holds : program.wp (fun _ _ => False)
    (fun reached after => reached = ending ∧ after = { caller with strayed := true }) caller) :
    Strays program ending caller := by
  unfold Strays
  unfold Program.wp at holds
  rcases same : program caller with ⟨finish, after⟩
  rw [same] at holds
  cases finish with
  | value value => cases holds
  | stopped reached => rw [holds.1, holds.2]

end Strays

namespace Host

variable {caller : Caller} {ends : Ending -> Caller -> Prop}

/-- A record is read whole, or the guest's memory does not have all of it. -/
theorem wp_iovecAt (table index : Nat) {post : Nat × Nat -> Caller -> Prop} :
    (iovecAt table index).wp post ends caller ↔
      if caller.memory.Covers ⟨table + index * 8, 8⟩ then
        post (recordAt caller.memory (table + index * 8)) caller
      else ends .panic { caller with strayed := true } := by
  simp only [iovecAt, Program.wp_bind, wp_readMemory, Program.wp_pure, recordAt]
  by_cases covered : caller.memory.Covers ⟨table + index * 8, 8⟩
  · have first : caller.memory.Covers ⟨table + index * 8, 4⟩ := by
      simp only [LinearMemory.Covers] at covered ⊢
      omega
    have second : caller.memory.Covers ⟨table + index * 8 + 4, 4⟩ := by
      simp only [LinearMemory.Covers] at covered ⊢
      omega
    rw [if_pos covered, if_pos first, if_pos second]
  · have second : ¬ caller.memory.Covers ⟨table + index * 8 + 4, 4⟩ := by
      simp only [LinearMemory.Covers] at covered ⊢
      omega
    rw [if_neg covered, if_neg second, ite_self]

theorem iovecAt_strays {table index : Nat}
    (outside : ¬ caller.memory.Covers ⟨table + index * 8, 8⟩) :
    Strays (iovecAt table index) .panic caller := by
  apply strays_of_wp
  rw [wp_iovecAt, if_neg outside]
  exact ⟨rfl, rfl⟩

theorem pollTurnAt_strays {table index : Nat} {found : List ClockSubscription}
    (outside : ¬ caller.memory.Covers ⟨table + index * 48, 48⟩) :
    Strays (pollTurnAt table index found) .panic caller := by
  apply strays_of_wp
  simp only [pollTurnAt, Program.wp_bind, wp_readMemory, if_neg outside, and_self]

/-! ## Addresses do not wrap -/

theorem usize_fits {value : Nat} (fits : value < 2 ^ 64) : usize value = pure value :=
  if_pos fits

private theorem pure_then {Value Other : Type} (value : Value) (next : Value -> Host Other) :
    (pure value >>= next) = next value := rfl

theorem iovec_low {ptr : Int32} (low : Low ptr) {index : Nat} (bounded : index < 2 ^ 31) :
    iovec ptr index = iovecAt (asUsize ptr) index := by
  have same := asUsize_low low
  unfold Low at low
  have offset : usize (index * 8) = pure (index * 8) := usize_fits (by omega)
  have base : usize (asUsize ptr + index * 8) = pure (asUsize ptr + index * 8) :=
    usize_fits (by omega)
  have second : usize (asUsize ptr + index * 8 + 4) = pure (asUsize ptr + index * 8 + 4) :=
    usize_fits (by omega)
  simp only [iovec, iovecAt, offset, base, second, pure_then]

theorem iovec_strays {ptr : Int32} (high : ¬ Low ptr) : Strays (iovec ptr 0) .panic caller := by
  have below := (asUsize_high high).2
  have outside := not_covers_high high caller.memory (0 * 8) 4
  apply strays_of_wp
  simp only [iovec, Program.wp_bind, wp_usize, wp_readMemory, usizeModulus_native]
  rw [if_pos (by omega), if_pos (by omega), if_neg outside]
  exact ⟨trivial, trivial⟩

theorem pollTurn_low {ptr : Int32} (low : Low ptr) {index : Nat} (bounded : index < 2 ^ 31) :
    pollTurn ptr index = pollTurnAt (asUsize ptr) index := by
  have same := asUsize_low low
  unfold Low at low
  have offset : usize (index * 48) = pure (index * 48) := usize_fits (by omega)
  have base : usize (asUsize ptr + index * 48) = pure (asUsize ptr + index * 48) :=
    usize_fits (by omega)
  funext found
  rw [pollTurn, offset, pure_then, base]
  rfl

theorem pollTurn_strays {ptr : Int32} (high : ¬ Low ptr) {found : List ClockSubscription} :
    Strays (pollTurn ptr 0 found) .panic caller := by
  have below := (asUsize_high high).2
  have outside := not_covers_high high caller.memory (0 * 48) 48
  apply strays_of_wp
  simp only [pollTurn, Program.wp_bind, wp_usize, wp_readMemory, usizeModulus_native]
  rw [if_pos (by omega), if_pos (by omega), if_neg outside]
  exact ⟨trivial, trivial⟩

private theorem loop_unwrapped {Value : Type} {ptr : Int32}
    {turn turnAt : Nat -> Value -> Host (Program.Turn Value)} (count : Int32) (value : Value)
    (low : Low ptr -> forall index, index < 2 ^ 31 -> turn index = turnAt index)
    (high : ¬ Low ptr -> forall caller, Strays (turn 0 value) .panic caller ∧
      Strays (turnAt 0 value) .panic caller) :
    Program.loop turn (turns count) 0 value = Program.loop turnAt (turns count) 0 value := by
  have small := turns_small count
  by_cases below : Low ptr
  · exact Program.loop_congr (fun index inside => low below index (by omega)) value
  · cases turns count with
    | zero => rfl
    | succ remaining =>
        funext caller
        rcases high below caller with ⟨strays, straysAt⟩
        exact strays.loop.trans straysAt.loop.symm

theorem fdRead_unwrapped (fd : UInt32) (iovPtr iovLen nreadPtr : Int32) :
    fdRead fd iovPtr iovLen nreadPtr =
      fdReadAt fd (asUsize iovPtr) (turns iovLen) (asUsize nreadPtr) := by
  have loops : Program.loop (fdReadTurn iovPtr) (turns iovLen) 0 0 =
      Program.loop (fdReadTurnAt (asUsize iovPtr)) (turns iovLen) 0 0 := by
    refine loop_unwrapped iovLen 0 (fun low index bounded => funext fun totalRead => ?_)
      fun high caller => ⟨(iovec_strays high).bind, (iovecAt_strays ?_).bind⟩
    · rw [fdReadTurn, fdReadTurnAt, iovec_low low bounded]
    · exact not_covers_high high caller.memory (0 * 8) 8
  rw [fdRead, fdReadAt, loops]

theorem fdWrite_unwrapped (fd ciovPtr ciovLen nwritePtr : Int32) :
    fdWrite fd ciovPtr ciovLen nwritePtr =
      fdWriteAt fd (asUsize ciovPtr) (turns ciovLen) (asUsize nwritePtr) := by
  have loops : Program.loop (fdWriteTurn fd ciovPtr) (turns ciovLen) 0 0 =
      Program.loop (fdWriteTurnAt fd (asUsize ciovPtr)) (turns ciovLen) 0 0 := by
    refine loop_unwrapped ciovLen 0 (fun low index bounded => funext fun totalWritten => ?_)
      fun high caller => ⟨(iovec_strays high).bind, (iovecAt_strays ?_).bind⟩
    · rw [fdWriteTurn, fdWriteTurnAt, iovec_low low bounded]
    · exact not_covers_high high caller.memory (0 * 8) 8
  rw [fdWrite, fdWriteAt, loops]

theorem fdFdstatGet_unwrapped (fd bufPtr : Int32) :
    fdFdstatGet fd bufPtr = fdFdstatGetAt fd (asUsize bufPtr) := by
  unfold fdFdstatGet fdFdstatGetAt rightsOf
  split
  · rfl
  · split <;> rfl

/-- A negative number of subscriptions finds none, as no subscription does. -/
theorem pollOneoff_unwrapped (platform : Platform)
    (subsPtr eventsPtr nsubscriptions resultPtr : Int32) :
    pollOneoff platform subsPtr eventsPtr nsubscriptions resultPtr =
      pollOneoffAt platform (asUsize subsPtr) (asUsize eventsPtr) (turns nsubscriptions)
        (asUsize resultPtr) := by
  have loops : Program.loop (pollTurn subsPtr) (turns nsubscriptions) 0 [] =
      Program.loop (pollTurnAt (asUsize subsPtr)) (turns nsubscriptions) 0 [] := by
    refine loop_unwrapped nsubscriptions [] (fun low index bounded => pollTurn_low low bounded)
      fun high caller => ⟨pollTurn_strays high, pollTurnAt_strays ?_⟩
    exact not_covers_high high caller.memory (0 * 48) 48
  rw [pollOneoff, pollOneoffAt, loops]
  by_cases none : nsubscriptions = 0
  · subst none
    rfl
  · rw [if_neg none]
    cases counted : turns nsubscriptions with
    | zero => rfl
    | succ remaining => exact (if_neg (Nat.succ_ne_zero remaining)).symm

end Host

theorem HostCall.body_unwrapped (platform : Platform) (call : HostCall) :
    call.body platform = call.bodyAt asUsize turns platform := by
  cases call with
  | fdRead fd iovPtr iovLen nreadPtr => exact Host.fdRead_unwrapped fd iovPtr iovLen nreadPtr
  | fdWrite fd ciovPtr ciovLen nwritePtr =>
      exact Host.fdWrite_unwrapped fd ciovPtr ciovLen nwritePtr
  | pollOneoff subsPtr eventsPtr nsubscriptions resultPtr =>
      exact Host.pollOneoff_unwrapped platform subsPtr eventsPtr nsubscriptions resultPtr
  | fdFdstatGet fd bufPtr => exact Host.fdFdstatGet_unwrapped fd bufPtr
  | argsGet | argsSizesGet | environGet | environSizesGet | clockTimeGet | fdClose | randomGet
  | schedYield | procRaise | procExit => rfl

/-- No call computes an address that wraps. -/
theorem HostCall.perform_unwrapped (platform : Platform) (call : HostCall) (caller : Caller) :
    call.perform platform caller = Host.run (call.bodyAt asUsize turns platform) caller := by
  rw [HostCall.perform, call.body_unwrapped platform, Host.run]
  rcases call.bodyAt asUsize turns platform { caller with strayed := false } with ⟨finish, after⟩
  cases finish <;> rfl

/-! ## What the code does and what the guest means -/

theorem Host.run_wp (body : Host Ending) (caller : Caller) (outcome : Ending -> Caller -> Prop) :
    outcome (Host.run body caller).1 (Host.run body caller).2 ↔
      body.wp outcome outcome { caller with strayed := false } := by
  unfold Host.run Program.wp
  rcases body { caller with strayed := false } with ⟨finish, after⟩
  cases finish <;> exact Iff.rfl

/-- From every caller with a memory, if what the guest means does not stray, the
code does that. -/
def Alike (memory : GuestMemory) (code meant : Host Ending) : Prop :=
  forall caller, caller.memory = memory -> (Host.run meant caller).2.strayed = false ->
    Host.run code caller = Host.run meant caller

theorem addressesUnsigned_iff_alike (memory : GuestMemory) (call : HostCall) :
    AddressesUnsigned memory call ↔ forall platform,
      Alike memory (call.bodyAt asUsize turns platform)
        (call.bodyAt unsigned unsigned platform) := by
  constructor
  · intro holds platform caller same clean
    rw [← call.perform_unwrapped platform caller]
    exact holds.unsigned platform caller same clean
  · intro alike
    refine ⟨fun platform caller _ => call.perform_unwrapped platform caller,
      fun platform caller same clean => ?_⟩
    rw [call.perform_unwrapped platform caller]
    exact alike platform caller same clean

/-- A part of a body does from some caller what the guest means by it, if that does
not stray. -/
def Meets {Value : Type} (code meant : Host Value) (start : Caller) : Prop :=
  (meant start).2.strayed = false -> code start = meant start

theorem Alike.of_meets {memory : GuestMemory} {code meant : Host Ending}
    (meets : forall start, start.memory = memory -> Meets code meant start) :
    Alike memory code meant := by
  intro caller same clean
  have kept : (meant { caller with strayed := false }).2.strayed = false := by
    have found := (Host.run_wp meant caller (fun _ after => after.strayed = false)).mp clean
    unfold Program.wp at found
    rcases reached : meant { caller with strayed := false } with ⟨finish, after⟩
    rw [reached] at found
    cases finish <;> exact found
  unfold Host.run
  rw [meets { caller with strayed := false } same kept]

section Meets

variable {Value Other : Type} {start : Caller}

theorem Meets.refl (program : Host Value) : Meets program program start :=
  fun _ => rfl

theorem Meets.of_wp {code meant : Host Value} (strays : meant.wp
    (fun _ after => after.strayed = true) (fun _ after => after.strayed = true) start) :
    Meets code meant start := by
  intro clean
  unfold Program.wp at strays
  rcases same : meant start with ⟨finish, after⟩
  rw [same] at clean strays
  cases finish with
  | value value => exact absurd (clean.symm.trans strays) Bool.false_ne_true
  | stopped ending => exact absurd (clean.symm.trans strays) Bool.false_ne_true

theorem Meets.of_strays {code meant : Host Value} {ending : Ending}
    (strays : Strays meant ending start) : Meets code meant start := by
  apply Meets.of_wp
  unfold Strays at strays
  unfold Program.wp
  rw [strays]

theorem Meets.bind {program : Host Other} {code meant : Other -> Host Value}
    (later : program.wp (fun value after => Meets (code value) (meant value) after)
      (fun _ _ => True) start) : Meets (program >>= code) (program >>= meant) start := by
  unfold Program.wp at later
  unfold Meets
  simp only [Bind.bind]
  rcases same : program start with ⟨finish, after⟩
  rw [same] at later
  cases finish with
  | value value => exact later
  | stopped ending => exact fun _ => rfl

theorem Meets.write {ptr : Int32} {bytes : List UInt8} {outside : Ending}
    {next : PUnit -> Host Value} (harmless : Harmless start.memory ptr bytes.length) :
    Meets (Host.writeMemory (asUsize ptr) bytes outside >>= next)
      (Host.writeMemory (unsigned ptr) bytes outside >>= next) start := by
  rcases harmless with low | absent
  · rw [asUsize_low low]
    exact .refl _
  · have strays : Strays (Host.writeMemory (unsigned ptr) bytes outside) outside start := by
      apply strays_of_wp
      rw [Host.wp_writeMemory, if_neg absent]
      exact ⟨rfl, rfl⟩
    exact .of_strays strays.bind

end Meets

private theorem not_alike {memory : GuestMemory} {code meant : Host Ending}
    (property : Ending -> Prop) (caller : Caller) (same : caller.memory = memory)
    (clean : caller.strayed = false)
    (means : meant.wp (fun ending after => property ending ∧ after.strayed = false)
      (fun ending after => property ending ∧ after.strayed = false) caller)
    (does : code.wp (fun ending _ => ¬ property ending) (fun ending _ => ¬ property ending)
      caller) : ¬ Alike memory code meant := by
  intro alike
  rw [show caller = { caller with strayed := false } by rw [← clean]] at means does
  have reached := (Host.run_wp meant caller _).mpr means
  have refused := (Host.run_wp code caller (fun ending _ => ¬ property ending)).mpr does
  rw [alike caller same reached.2] at refused
  exact refused reached.1

/-! ## Functions that end with one write -/

section Answer

variable {Value : Type} {memory : GuestMemory} (program : Host Value)
  {bytes : Value -> List UInt8} {length : Nat} {outside : Ending} {ptr : Int32}

def KeepsSize (memory : GuestMemory) (program : Host Value) (start : Caller) : Prop :=
  program.wp (fun _ after => after.memory.size = memory.size) (fun _ _ => True) start

/-- At a harmless address the code does what is meant. -/
theorem answer_alike (sized : forall value, (bytes value).length = length)
    (keeps : forall start, start.memory = memory -> KeepsSize memory program start)
    (harmless : Harmless memory ptr length) : Alike memory
      (program >>= fun value => Host.writeMemory (asUsize ptr) (bytes value) outside >>=
        fun _ => pure (.errno .success))
      (program >>= fun value => Host.writeMemory (unsigned ptr) (bytes value) outside >>=
        fun _ => pure (.errno .success)) := by
  refine .of_meets fun start same => ?_
  refine .bind (Program.wp_mono (keeps start same) (fun value after size => .write ?_)
    fun _ _ _ => trivial)
  rw [sized value]
  unfold Harmless LinearMemory.Covers at harmless ⊢
  rwa [size]

theorem answer_harmless (sized : forall value, (bytes value).length = length)
    (refuses : outside ≠ .errno .success) (caller : Caller) (same : caller.memory = memory)
    (clean : caller.strayed = false)
    (reaches : program.wp (fun _ after => after.memory.size = memory.size ∧
      after.strayed = false) (fun _ _ => False) caller)
    (alike : Alike memory
      (program >>= fun value => Host.writeMemory (asUsize ptr) (bytes value) outside >>=
        fun _ => pure (.errno .success))
      (program >>= fun value => Host.writeMemory (unsigned ptr) (bytes value) outside >>=
        fun _ => pure (.errno .success))) : Harmless memory ptr length := by
  by_contra harms
  rcases not_or.mp harms with ⟨high, covered⟩
  refine not_alike (· = .errno .success) caller same clean ?_ ?_ alike
  · rw [Program.wp_bind]
    refine Program.wp_mono reaches (fun value after kept => ?_)
      fun _ _ impossible => impossible.elim
    have inside : after.memory.Covers ⟨unsigned ptr, (bytes value).length⟩ := by
      rw [not_not] at covered
      rw [sized value]
      unfold LinearMemory.Covers at covered ⊢
      rwa [kept.1]
    rw [Program.wp_bind, Host.wp_writeMemory, if_pos inside]
    exact ⟨rfl, kept.2⟩
  · rw [Program.wp_bind]
    refine Program.wp_mono reaches (fun value after kept => ?_)
      fun _ _ impossible => impossible.elim
    have beyond : ¬ after.memory.Covers ⟨asUsize ptr, (bytes value).length⟩ :=
      not_covers_high high after.memory 0 (bytes value).length
    rw [Program.wp_bind, Host.wp_writeMemory, if_neg beyond]
    exact refuses

end Answer

private def callerOf (memory : GuestMemory) (reader : Option Pipe.BufReader)
    (writers : Bool) : Caller where
  ctx := ⟨[], [], reader, writers, writers, none, false⟩
  memory := memory
  fuel := 0
  stdin := Pipe.nonBlockingPipe.dropWriter.2
  stdout := Pipe.nonBlockingPipe
  stderr := Pipe.nonBlockingPipe
  strayed := false

theorem fdstat_length (rightsBase : Nat) : (Host.fdstat rightsBase).length = 24 := by
  simp only [Host.fdstat, List.length_append, leBytes_length]

/-- A status is written where the guest means it exactly if its address is harmless. -/
theorem fdFdstatGet_alike_iff (memory : GuestMemory) (fd bufPtr : Int32) :
    Alike memory (Host.fdFdstatGetAt fd (asUsize bufPtr))
      (Host.fdFdstatGetAt fd (unsigned bufPtr)) ↔
      (fd = 0 ∨ fd = 1 ∨ fd = 2 -> Harmless memory bufPtr 24) := by
  constructor
  · intro alike known
    refine answer_harmless (Host.rightsOf fd) fdstat_length (by decide)
      (callerOf memory none false) rfl rfl ?_ alike
    rcases known with rfl | rfl | rfl <;> exact ⟨rfl, rfl⟩
  · intro harmless
    by_cases known : fd = 0 ∨ fd = 1 ∨ fd = 2
    · refine answer_alike (Host.rightsOf fd) fdstat_length (fun start same => ?_)
        (harmless known)
      rw [← same]
      rcases known with rfl | rfl | rfl <;> exact rfl
    · rcases not_or.mp known with ⟨notStdin, notOutput⟩
      refine .of_meets fun start _ => .bind ?_
      rw [Host.rightsOf, if_neg notStdin, if_neg notOutput]
      trivial

/-- The time of a clock that is there is written where the guest means it exactly if
its address is harmless. -/
theorem clockTimeGet_alike_iff (memory : GuestMemory) (clockId resultPtr : Int32) :
    (forall platform, Alike memory (Host.clockTimeGetAt platform clockId (asUsize resultPtr))
      (Host.clockTimeGetAt platform clockId (unsigned resultPtr))) ↔
      (clockId = 0 ∨ clockId = 1 -> Harmless memory resultPtr 8) := by
  constructor
  · intro alike known
    have told := alike ⟨some 0, 0, none⟩
    unfold Host.clockTimeGetAt at told
    rw [if_pos known, if_pos known] at told
    exact answer_harmless (Host.nowNanos ⟨some 0, 0, none⟩) (leBytes_length 8) (by decide)
      (callerOf memory none false) rfl rfl ⟨rfl, rfl⟩ told
  · intro harmless platform
    unfold Host.clockTimeGetAt
    by_cases known : clockId = 0 ∨ clockId = 1
    · rw [if_pos known, if_pos known]
      refine answer_alike (Host.nowNanos platform) (leBytes_length 8) (fun start same => ?_)
        (harmless known)
      unfold KeepsSize Host.nowNanos
      cases platform.sinceEpoch with
      | none => trivial
      | some nanos => exact congrArg LinearMemory.size same
    · rw [if_neg known, if_neg known]
      exact .of_meets fun start _ => .refl _

/-- Random bytes are written where the guest means them exactly if the length is below
2^31 and the address is harmless.  A longer length panics, whether or not there are
random bytes. -/
theorem randomGet_alike_iff (memory : GuestMemory) (bufPtr bufLen : Int32) :
    (forall platform,
      Alike memory (Host.randomGetAt platform (asUsize bufPtr) (asUsize bufLen))
        (Host.randomGetAt platform (unsigned bufPtr) (unsigned bufLen))) ↔
      Low bufLen ∧ Harmless memory bufPtr (unsigned bufLen) := by
  have fits : unsigned bufLen ≤ isizeMax := le_isizeMax (unsigned_lt bufLen)
  have sized (random : Nat -> UInt8) :
      ((List.range (unsigned bufLen)).map random).length = unsigned bufLen := by
    rw [List.length_map, List.length_range]
  constructor
  · intro alike
    have low : Low bufLen := by
      by_contra high
      have told := alike ⟨none, 0, none⟩
      have huge := (asUsize_high high).1
      refine not_alike (· = .errno .io) (callerOf memory none false) rfl rfl ?_ ?_ told
      · rw [Host.randomGetAt, Program.wp_bind, Host.wp_allocate fits]
        exact ⟨rfl, rfl⟩
      · rw [Host.randomGetAt, Program.wp_bind, Host.allocate, isizeMax_native,
          if_neg (by omega)]
        exact Ending.noConfusion
    refine ⟨low, ?_⟩
    have told := alike ⟨none, 0, some fun _ => 0⟩
    rw [asUsize_low low] at told
    refine answer_harmless (Host.allocate (unsigned bufLen)) (fun _ => sized _) (by decide)
      (callerOf memory none false) rfl rfl ?_ told
    rw [Host.wp_allocate fits]
    exact ⟨rfl, rfl⟩
  · rintro ⟨low, harmless⟩ platform
    rw [asUsize_low low]
    unfold Host.randomGetAt
    cases platform.random with
    | none => exact .of_meets fun start _ => .refl _
    | some random =>
        refine answer_alike (Host.allocate (unsigned bufLen)) (fun _ => sized random)
          (fun start same => ?_) harmless
        unfold KeepsSize
        rw [Host.wp_allocate fits, same]

private theorem pure_alike_iff {memory : GuestMemory} {ptr : Int32} {outside : Ending}
    (refuses : outside ≠ .errno .success) (total : Nat) : Alike memory
      ((pure total : Host Nat) >>= fun total =>
        Host.writeMemory (asUsize ptr) (leBytes 4 total) outside >>=
          fun _ => pure (.errno .success))
      ((pure total : Host Nat) >>= fun total =>
        Host.writeMemory (unsigned ptr) (leBytes 4 total) outside >>=
          fun _ => pure (.errno .success)) ↔ Harmless memory ptr 4 := by
  constructor
  · exact answer_harmless (pure total) (leBytes_length 4) refuses (callerOf memory none false)
      rfl rfl ⟨rfl, rfl⟩
  · exact answer_alike (pure total) (leBytes_length 4) fun start same =>
      congrArg LinearMemory.size same

theorem Strays.wp {Value : Type} {program : Host Value} {ending : Ending} {start : Caller}
    (strays : Strays program ending start) {post : Value -> Caller -> Prop}
    {ends : Ending -> Caller -> Prop} :
    program.wp post ends start ↔ ends ending { start with strayed := true } := by
  unfold Strays at strays
  rw [Program.wp, strays]

section Refused

variable {memory : GuestMemory} {code meant : Host Ending} (refuses : meant.wp
  (fun ending after => ending = .errno .badf ∧ after.strayed = false)
  (fun ending after => ending = .errno .badf ∧ after.strayed = false)
  (callerOf memory none false))
include refuses

private theorem count_of_refused {turn : Nat -> Nat -> Host (Program.Turn Nat)} {count ptr : Int32}
    {outside : Ending} (other : outside ≠ .errno .badf) (alike : Alike memory
      (Program.loop turn (turns count) 0 0 >>= fun total =>
        Host.writeMemory (asUsize ptr) (leBytes 4 total) outside >>=
          fun _ => pure (.errno .success)) meant) : Low count := by
  by_contra high
  rw [turns_high high] at alike
  refine not_alike (· = .errno .badf) (callerOf memory none false) rfl rfl refuses ?_ alike
  rw [Program.wp_bind, Program.wp_loop_zero, Program.wp_bind, Host.wp_writeMemory]
  split
  · exact (by decide : Ending.errno .success ≠ .errno .badf)
  · exact other

private theorem table_of_refused {ptr : Int32}
    (strays : ¬ Low ptr -> Strays code .panic (callerOf memory none false))
    (alike : Alike memory code meant) : Low ptr := by
  by_contra high
  exact not_alike (· = .errno .badf) (callerOf memory none false) rfl rfl refuses
    ((strays high).wp.mpr (by decide)) alike

end Refused

/-! ## Reading -/

theorem fdReadLoop_keeps (table count : Nat) (start : Caller) :
    KeepsSize start.memory (Program.loop (Host.fdReadTurnAt table) count 0 0) start := by
  refine Program.wp_loop_invariant (fun _ _ state => state.memory.size = start.memory.size)
    (fun index totalRead state _ kept => ?_) (fun _ _ kept => kept) rfl
  rw [Host.fdReadTurnAt, Program.wp_bind, Host.wp_iovecAt]
  split
  · have small := recordAt_small state.memory (table + index * 8)
    rw [Program.wp_bind, Host.wp_allocate (le_isizeMax (by omega)), Program.wp_bind,
      Host.wp_readStdin]
    cases state.ctx.stdinReader with
    | none => trivial
    | some reader =>
        dsimp only
        rcases reader.read state.stdin _ with ⟨result, reader, pipe⟩
        cases result with
        | wouldBlock => trivial
        | ok data =>
            simp only [Program.wp_ite, Program.wp_bind, Program.wp_pure, Host.wp_usize,
              Host.wp_writeMemory]
            split
            · exact kept
            · split
              · split
                · split <;> exact kept
                · trivial
              · trivial
  · trivial

section FirstTurn

variable {table remaining : Nat} {start : Caller} (covered : start.memory.Covers ⟨table, 8⟩)
  {post : Nat -> Caller -> Prop} {ends : Ending -> Caller -> Prop}
include covered

private theorem wp_fdReadLoop_closed (closed : start.ctx.stdinReader = none) :
    (Program.loop (Host.fdReadTurnAt table) (remaining + 1) 0 0).wp post ends start ↔
      ends (.errno .badf) start := by
  have small := recordAt_small start.memory table
  have here : table + 0 * 8 = table := by omega
  rw [Program.wp_loop_succ, Host.fdReadTurnAt, Program.wp_bind, Host.wp_iovecAt, here,
    if_pos covered, Program.wp_bind, Host.wp_allocate (le_isizeMax (by omega)), Program.wp_bind,
    Host.wp_readStdin, closed]

private theorem wp_fdReadLoop_end (reader : start.ctx.stdinReader = some ⟨[]⟩)
    (drained : start.stdin.buf = []) (closed : start.stdin.closed = true) :
    (Program.loop (Host.fdReadTurnAt table) (remaining + 1) 0 0).wp post ends start ↔
      post 0 { start with ctx := { start.ctx with stdinReader := some ⟨[]⟩ } } := by
  have small := recordAt_small start.memory table
  have here : table + 0 * 8 = table := by omega
  rw [Program.wp_loop_succ, Host.fdReadTurnAt, Program.wp_bind, Host.wp_iovecAt, here,
    if_pos covered, Program.wp_bind, Host.wp_allocate (le_isizeMax (by omega)), Program.wp_bind,
    Host.wp_readStdin, reader]
  dsimp only
  rw [Pipe.BufReader.read_exhausted start.stdin _ drained, closed]
  exact Iff.rfl

end FirstTurn

/-- Reading needs a low table only if the first record lies within the memory, since
without a handle the call is refused after that record. -/
theorem fdRead_alike_iff (memory : GuestMemory) (fd : UInt32)
    (iovPtr iovLen nreadPtr : Int32) :
    Alike memory (Host.fdReadAt fd (asUsize iovPtr) (turns iovLen) (asUsize nreadPtr))
      (Host.fdReadAt fd (unsigned iovPtr) (unsigned iovLen) (unsigned nreadPtr)) ↔
      (HostCall.fdRead fd iovPtr iovLen nreadPtr).StaysLow memory := by
  unfold HostCall.StaysLow Host.fdReadAt
  by_cases stdin : fd = 0
  · rw [if_neg (not_not.mpr stdin), if_neg (not_not.mpr stdin)]
    simp only [stdin, true_imp_iff]
    by_cases empty : iovLen = 0
    · subst empty
      rw [if_pos rfl]
      exact pure_alike_iff (by decide) 0
    · rw [if_neg empty]
      rcases Nat.exists_eq_add_one_of_ne_zero (mt unsigned_eq_zero_iff.mp empty) with
        ⟨remaining, counted⟩
      rw [counted]
      constructor
      · intro alike covered
        have refuses : (Program.loop (Host.fdReadTurnAt (unsigned iovPtr)) (remaining + 1) 0 0 >>=
            fun totalRead => Host.writeMemory (unsigned nreadPtr) (leBytes 4 totalRead) .panic >>=
              fun _ => pure (.errno .success)).wp
            (fun ending after => ending = Ending.errno .badf ∧ after.strayed = false)
            (fun ending after => ending = Ending.errno .badf ∧ after.strayed = false)
            (callerOf memory none false) := by
          rw [Program.wp_bind, wp_fdReadLoop_closed covered rfl]
          exact ⟨rfl, rfl⟩
        have low : Low iovLen := count_of_refused refuses (by decide) alike
        rw [turns_low low, counted] at alike
        have lowTable : Low iovPtr := by
          refine table_of_refused refuses (fun high => ?_) alike
          have beyond := not_covers_high high memory (0 * 8) 8
          have strays : Strays (Host.fdReadTurnAt (asUsize iovPtr) 0 0) .panic
              (callerOf memory none false) := (Host.iovecAt_strays beyond).bind
          exact strays.loop.bind
        refine ⟨low, lowTable, ?_⟩
        rw [asUsize_low lowTable] at alike
        exact answer_harmless _ (leBytes_length 4) (by decide)
          (callerOf memory (some ⟨[]⟩) false) rfl rfl
          ((wp_fdReadLoop_end covered rfl rfl rfl).mpr ⟨rfl, rfl⟩) alike
      · intro stays
        by_cases covered : memory.Covers ⟨unsigned iovPtr, 8⟩
        · rcases stays covered with ⟨low, lowTable, harmless⟩
          rw [turns_low low, counted, asUsize_low lowTable]
          exact answer_alike _ (leBytes_length 4) (fun start same =>
            same ▸ fdReadLoop_keeps _ _ start) harmless
        · refine .of_meets fun start same => ?_
          have outside : ¬ start.memory.Covers ⟨unsigned iovPtr + 0 * 8, 8⟩ := by
            rw [same]
            exact covered
          have strays : Strays (Host.fdReadTurnAt (unsigned iovPtr) 0 0) .panic start :=
            (Host.iovecAt_strays outside).bind
          exact .of_strays strays.loop.bind
  · rw [if_pos stdin, if_pos stdin]
    exact iff_of_true (.of_meets fun start _ => .refl _) fun isStdin => absurd isStdin stdin

/-! ## Writing -/

theorem wp_fdWriteTurnAt (fd : Int32) (table : Nat) {index total : Nat}
    (bounded : index < 2 ^ 32) (small : total ≤ index * 2 ^ 32)
    {post : Program.Turn Nat -> Caller -> Prop} {ends : Ending -> Caller -> Prop}
    {caller : Caller} :
    (Host.fdWriteTurnAt fd table index total).wp post ends caller ↔
      if caller.memory.Covers ⟨table + index * 8, 8⟩ then
        if caller.memory.Covers (bufferAt caller.memory (table + index * 8)) then
          if Host.writable caller.ctx fd then
            post (.next (total + (bufferAt caller.memory (table + index * 8)).length))
              (caller.sent fd
                (caller.memory.contents (bufferAt caller.memory (table + index * 8))))
          else ends (.errno .badf) caller
        else ends (.errno .fault) { caller with strayed := true }
      else ends .panic { caller with strayed := true } := by
  have length := recordAt_small caller.memory (table + index * 8)
  have fits : total + (recordAt caller.memory (table + index * 8)).2 < usizeModulus := by
    rw [usizeModulus_native]
    omega
  simp only [Host.fdWriteTurnAt, Program.wp_bind, Host.wp_iovecAt]
  rw [Host.wp_allocate (le_isizeMax (by omega))]
  simp only [Host.wp_readMemory, wp_writeOut, Host.wp_usize, Program.wp_ite, Program.wp_pure,
    LinearMemory.contents_length, Nat.lt_irrefl, if_false, bufferAt, if_pos fits]
  exact Iff.rfl

private theorem fdWriteLoop_passed (fd : Int32) (table : Nat) {count : Nat}
    (bounded : count < 2 ^ 32) (start : Caller) :
    (Program.loop (Host.fdWriteTurnAt fd table) count 0 0).wp (fun _ after =>
      after.memory = start.memory ∧ (forall index, index < count ->
        BufferCovered start.memory (table + index * 8) ∧ (fd = 1 ∨ fd = 2)))
      (fun _ _ => True) start := by
  refine Program.wp_loop_invariant (fun index total state => total ≤ index * 2 ^ 32 ∧
      state.memory = start.memory ∧ forall earlier, earlier < index ->
        BufferCovered start.memory (table + earlier * 8) ∧ (fd = 1 ∨ fd = 2))
    (fun index total state inside kept => ?_) (fun total state kept => ?_) ?_
  · rcases kept with ⟨small, memory, passed⟩
    have length := recordAt_small state.memory (table + index * 8)
    rw [wp_fdWriteTurnAt fd table (by omega) small]
    split
    · next record =>
        split
        · next buffer =>
            split
            · next opened =>
                rw [memory] at record buffer
                refine ⟨?_, ?_, fun earlier before => ?_⟩
                · have short : (bufferAt state.memory (table + index * 8)).length < 2 ^ 32 :=
                    length
                  omega
                · rw [(state.sent_frame fd _).2.1, memory]
                · rcases Nat.lt_succ_iff_lt_or_eq.mp before with below | same
                  · exact passed earlier below
                  · rw [same]
                    exact ⟨⟨record, buffer⟩, Host.writable_stream opened⟩
            · trivial
        · trivial
    · trivial
  · rw [Nat.zero_add] at kept
    exact kept.2
  · exact ⟨Nat.zero_le _, rfl, fun _ none => absurd none (Nat.not_lt_zero _)⟩

private theorem fdWriteLoop_reaches (fd : Int32) (table : Nat) {count : Nat}
    (bounded : count < 2 ^ 32) (start : Caller) (opened : Host.writable start.ctx fd = true)
    (passes : forall index, index < count -> BufferCovered start.memory (table + index * 8)) :
    (Program.loop (Host.fdWriteTurnAt fd table) count 0 0).wp (fun _ after =>
      after.memory = start.memory ∧ after.strayed = start.strayed) (fun _ _ => False) start := by
  refine Program.wp_loop_invariant (fun index total state => total ≤ index * 2 ^ 32 ∧
      state.ctx = start.ctx ∧ state.memory = start.memory ∧ state.strayed = start.strayed)
    (fun index total state inside kept => ?_) (fun total state kept => kept.2.2)
    ⟨Nat.zero_le _, rfl, rfl, rfl⟩
  rcases kept with ⟨small, ctx, memory, strayed⟩
  have length := recordAt_small state.memory (table + index * 8)
  have short : (bufferAt state.memory (table + index * 8)).length < 2 ^ 32 := length
  rcases passes index (by omega) with ⟨record, buffer⟩
  rw [wp_fdWriteTurnAt fd table (by omega) small, ctx, if_pos (memory ▸ record),
    if_pos (memory ▸ buffer), if_pos opened]
  rcases state.sent_frame fd
    (state.memory.contents (bufferAt state.memory (table + index * 8))) with
    ⟨sameCtx, sameMemory, sameStrayed⟩
  exact ⟨by omega, sameCtx.trans ctx, sameMemory.trans memory, sameStrayed.trans strayed⟩

/-- Writing looks at the first buffer too, and at the place of the count only when all
records pass. -/
theorem fdWrite_alike_iff (memory : GuestMemory) (fd ciovPtr ciovLen nwritePtr : Int32) :
    Alike memory (Host.fdWriteAt fd (asUsize ciovPtr) (turns ciovLen) (asUsize nwritePtr))
      (Host.fdWriteAt fd (unsigned ciovPtr) (unsigned ciovLen) (unsigned nwritePtr)) ↔
      (HostCall.fdWrite fd ciovPtr ciovLen nwritePtr).StaysLow memory := by
  unfold HostCall.StaysLow Host.fdWriteAt
  dsimp only
  have bounded := unsigned_lt ciovLen
  have here : unsigned ciovPtr + 0 * 8 = unsigned ciovPtr := by omega
  by_cases empty : ciovLen = 0
  · subst empty
    rw [if_pos rfl]
    exact pure_alike_iff (by decide) 0
  · rw [if_neg empty]
    rcases Nat.exists_eq_add_one_of_ne_zero (mt unsigned_eq_zero_iff.mp empty) with
      ⟨remaining, counted⟩
    rw [counted] at bounded ⊢
    constructor
    · intro alike first
      have refuses : (Program.loop (Host.fdWriteTurnAt fd (unsigned ciovPtr)) (remaining + 1) 0 0
          >>= fun total => Host.writeMemory (unsigned nwritePtr) (leBytes 4 total) (.errno .fault)
            >>= fun _ => pure (.errno .success)).wp
          (fun ending after => ending = Ending.errno .badf ∧ after.strayed = false)
          (fun ending after => ending = Ending.errno .badf ∧ after.strayed = false)
          (callerOf memory none false) := by
        have shut : Host.writable (callerOf memory none false).ctx fd = false := by
          unfold Host.writable
          split
          · rfl
          · split <;> rfl
        have record : (callerOf memory none false).memory.Covers ⟨unsigned ciovPtr, 8⟩ := first.1
        have buffer : (callerOf memory none false).memory.Covers
            (bufferAt (callerOf memory none false).memory (unsigned ciovPtr)) := first.2
        rw [Program.wp_bind, Program.wp_loop_succ, wp_fdWriteTurnAt fd _ (by decide) (by decide),
          here, if_pos record, if_pos buffer, if_neg (Bool.eq_false_iff.mp shut)]
        exact ⟨rfl, rfl⟩
      have low : Low ciovLen := count_of_refused refuses (by decide) alike
      rw [turns_low low, counted] at alike
      have lowTable : Low ciovPtr := by
        refine table_of_refused refuses (fun high => ?_) alike
        have beyond := not_covers_high high memory (0 * 8) 8
        have strays : Strays (Host.fdWriteTurnAt fd (asUsize ciovPtr) 0 0) .panic
            (callerOf memory none false) := (Host.iovecAt_strays beyond).bind
        exact strays.loop.bind
      refine ⟨low, lowTable, fun output passes => ?_⟩
      rw [asUsize_low lowTable] at alike
      have opened : Host.writable (callerOf memory none true).ctx fd = true := by
        rcases output with rfl | rfl <;> rfl
      refine answer_harmless _ (leBytes_length 4) (by decide) (callerOf memory none true) rfl rfl
        ?_ alike
      refine Program.wp_mono (fdWriteLoop_reaches fd (unsigned ciovPtr) bounded
        (callerOf memory none true) opened passes) (fun total after kept => ?_) fun _ _ none => none
      exact ⟨congrArg LinearMemory.size kept.1, kept.2⟩
    · intro stays
      by_cases first : BufferCovered memory (unsigned ciovPtr)
      · rcases stays first with ⟨low, lowTable, harmless⟩
        rw [turns_low low, counted, asUsize_low lowTable]
        refine .of_meets fun start same => .bind ?_
        refine Program.wp_mono (fdWriteLoop_passed fd (unsigned ciovPtr) bounded start)
          (fun total after kept => .write ?_) fun _ _ _ => trivial
        rcases kept with ⟨sameAfter, passed⟩
        rw [leBytes_length, sameAfter, same]
        rw [same] at passed
        exact harmless (passed 0 (Nat.succ_pos remaining)).2 fun index inside =>
          (passed index inside).1
      · refine .of_meets fun start same => .of_wp ?_
        rw [Program.wp_bind, Program.wp_loop_succ, wp_fdWriteTurnAt fd _ (by decide) (by decide),
          here, same]
        split
        · next record =>
            rw [if_neg fun buffer => first ⟨record, buffer⟩]
        · rfl

/-! ## Timers -/

theorem wp_pollTurnAt (table index : Nat) (found : List Host.ClockSubscription)
    {post : Program.Turn (List Host.ClockSubscription) -> Caller -> Prop}
    {ends : Ending -> Caller -> Prop} {caller : Caller} :
    (Host.pollTurnAt table index found).wp post ends caller ↔
      if caller.memory.Covers ⟨table + index * 48, 48⟩ then
        post (.next (found ++ (Host.ClockSubscription.ofBytes
          (caller.memory.contents ⟨table + index * 48, 48⟩)).toList)) caller
      else ends .panic { caller with strayed := true } := by
  rw [Host.pollTurnAt, Program.wp_bind, Host.wp_readMemory]
  split
  · cases Host.ClockSubscription.ofBytes
        (caller.memory.contents ⟨table + index * 48, 48⟩) with
    | none =>
        rw [Option.toList_none, List.append_nil]
        exact Iff.rfl
    | some subscription => exact Iff.rfl
  · exact Iff.rfl

theorem wp_pollLoopAt (table remaining index : Nat) (found : List Host.ClockSubscription)
    {post : List Host.ClockSubscription -> Caller -> Prop} {ends : Ending -> Caller -> Prop}
    {caller : Caller} (covered : forall later, later < index + remaining ->
      caller.memory.Covers ⟨table + later * 48, 48⟩) :
    (Program.loop (Host.pollTurnAt table) remaining index found).wp post ends caller ↔
      post (found ++ clockSubscriptions caller.memory table remaining index) caller := by
  induction remaining generalizing index found with
  | zero => rw [Program.wp_loop_zero, clockSubscriptions, List.append_nil]
  | succ remaining inductionHypothesis =>
      rw [Program.wp_loop_succ, wp_pollTurnAt, if_pos (covered index (by omega))]
      dsimp only
      rw [inductionHypothesis (index + 1) _ fun later below => covered later (by omega),
        clockSubscriptions, List.append_assoc]

private theorem pollLoop_covered (table count : Nat) (start : Caller) :
    (Program.loop (Host.pollTurnAt table) count 0 []).wp
      (fun _ _ => forall index, index < count ->
        start.memory.Covers ⟨table + index * 48, 48⟩)
      (fun _ after => after.strayed = true) start := by
  refine Program.wp_loop_invariant (fun index _ state => state = start ∧
      forall earlier, earlier < index -> start.memory.Covers ⟨table + earlier * 48, 48⟩)
    (fun index found state inside kept => ?_) (fun found state kept => ?_) ?_
  · rcases kept with ⟨rfl, passed⟩
    rw [wp_pollTurnAt]
    split
    · next covered =>
        refine ⟨rfl, fun earlier before => ?_⟩
        rcases Nat.lt_succ_iff_lt_or_eq.mp before with below | same
        · exact passed earlier below
        · rw [same]
          exact covered
    · rfl
  · rw [Nat.zero_add] at kept
    exact kept.2
  · exact ⟨rfl, fun _ none => absurd none (Nat.not_lt_zero _)⟩

private theorem count_low {memory : GuestMemory} {table : Nat} {count : Int32}
    (covered : forall index, index < unsigned count ->
      memory.Covers ⟨table + index * 48, 48⟩) : Low count := by
  by_contra high
  unfold Low at high
  have last := covered (unsigned count - 1) (by omega)
  have small := GuestMemory.size_le memory
  simp only [LinearMemory.Covers] at last
  omega

private def pollAnswer (platform : Platform) (events result : Nat) :
    List Host.ClockSubscription -> Host Ending
  | [] => pure (.errno .inval)
  | first :: others => do
      let now ← Host.nowNanos platform
      let chosen := Host.earliest now first others
      Host.awaitDeadline platform now (chosen.deadline now)
      Host.writeMemory events (Host.clockEvent chosen) .panic
      Host.writeMemory result (leBytes 4 1) .panic
      pure (.errno .success)

private theorem pollOneoffAt_eq (platform : Platform) (table events result : Nat) {count : Nat}
    (some : count ≠ 0) : Host.pollOneoffAt platform table events count result =
      Program.loop (Host.pollTurnAt table) count 0 [] >>= pollAnswer platform events result := by
  rw [Host.pollOneoffAt, if_neg some]
  refine congrArg (Program.loop (Host.pollTurnAt table) count 0 [] >>= ·) (funext fun found => ?_)
  cases found with
  | nil => rfl
  | cons first others => rfl

/-- When there is a time, a timer is answered exactly if both places lie within the
memory. -/
private theorem pollAnswer_ends {platform : Platform} {nanos : Nat}
    (current : platform.sinceEpoch = some nanos) (events result : Nat)
    (first : Host.ClockSubscription) (others : List Host.ClockSubscription) (caller : Caller)
    {outcome : Ending -> Caller -> Prop} (ends : forall ending after,
      (if caller.memory.Covers ⟨events, 32⟩ ∧ caller.memory.Covers ⟨result, 4⟩ then
        ending = .errno .success ∧ after.strayed = caller.strayed
      else ending = .panic ∧ after.strayed = true) -> outcome ending after) :
    (pollAnswer platform events result (first :: others)).wp outcome outcome caller := by
  have length (chosen : Host.ClockSubscription) : (Host.clockEvent chosen).length = 32 := by
    simp only [Host.clockEvent, List.length_append, leBytes_length]
  have writes (waiting : Caller) (memory : waiting.memory = caller.memory)
      (strayed : waiting.strayed = caller.strayed) (chosen : Host.ClockSubscription) :
      (Host.writeMemory events (Host.clockEvent chosen) .panic >>= fun _ =>
        Host.writeMemory result (leBytes 4 1) .panic >>= fun _ =>
          pure (Ending.errno .success)).wp outcome outcome waiting := by
    simp only [Program.wp_bind, Host.wp_writeMemory, Program.wp_pure, length, leBytes_length,
      LinearMemory.overwrite_covers, memory]
    split
    · next inEvents =>
        split
        · next inResult =>
            refine ends _ _ ?_
            rw [if_pos ⟨inEvents, inResult⟩]
            exact ⟨rfl, strayed⟩
        · next outside =>
            refine ends _ _ ?_
            rw [if_neg fun both => outside both.2]
            exact ⟨rfl, rfl⟩
    · next outside =>
        refine ends _ _ ?_
        rw [if_neg fun both => outside both.1]
        exact ⟨rfl, rfl⟩
  unfold pollAnswer Host.nowNanos Host.awaitDeadline
  rw [current]
  dsimp only
  rw [Program.wp_bind, Program.wp_pure, Program.wp_bind]
  split
  · rw [Program.wp_bind, Program.wp_change, Host.wp_giveUpFuel]
    apply writes
    · rfl
    · rfl
  · apply writes
    · rfl
    · rfl

private theorem pollAnswer_meets (platform : Platform) {eventsPtr resultPtr : Int32}
    {found : List Host.ClockSubscription} {start : Caller}
    (places : found ≠ [] -> start.memory.Covers ⟨unsigned eventsPtr, 32⟩ ->
      start.memory.Covers ⟨unsigned resultPtr, 4⟩ -> Low eventsPtr ∧ Low resultPtr) :
    Meets (pollAnswer platform (asUsize eventsPtr) (asUsize resultPtr) found)
      (pollAnswer platform (unsigned eventsPtr) (unsigned resultPtr) found) start := by
  cases found with
  | nil => exact .refl _
  | cons first others =>
      by_cases both : start.memory.Covers ⟨unsigned eventsPtr, 32⟩ ∧
          start.memory.Covers ⟨unsigned resultPtr, 4⟩
      · rcases places (List.cons_ne_nil _ _) both.1 both.2 with ⟨lowEvents, lowResult⟩
        rw [asUsize_low lowEvents, asUsize_low lowResult]
        exact .refl _
      · cases current : platform.sinceEpoch with
        | none =>
            refine .bind ?_
            rw [Host.nowNanos, current]
            trivial
        | some nanos =>
            refine .of_wp (pollAnswer_ends current _ _ first others start
              fun ending after answered => ?_)
            rw [if_neg both] at answered
            exact answered.2

section PollNeeds

variable {memory : GuestMemory} {subsPtr eventsPtr nsubscriptions resultPtr : Int32}
  (counted : unsigned nsubscriptions ≠ 0)
  (covered : forall index, index < unsigned nsubscriptions ->
    memory.Covers ⟨unsigned subsPtr + index * 48, 48⟩)
  (alike : forall platform, Alike memory
    (Program.loop (Host.pollTurnAt (asUsize subsPtr)) (unsigned nsubscriptions) 0 [] >>=
      pollAnswer platform (asUsize eventsPtr) (asUsize resultPtr))
    (Program.loop (Host.pollTurnAt (unsigned subsPtr)) (unsigned nsubscriptions) 0 [] >>=
      pollAnswer platform (unsigned eventsPtr) (unsigned resultPtr)))
include covered alike

include counted in
/-- Without a time the call is refused, unless the code panics before. -/
private theorem pollTable_low : Low subsPtr := by
  by_contra high
  refine not_alike (· = .errno .inval) (callerOf memory none false) rfl rfl ?_ ?_
    (alike ⟨none, 0, none⟩)
  · rw [Program.wp_bind, wp_pollLoopAt _ _ _ _ fun later below => covered later (by omega)]
    cases [] ++ clockSubscriptions (callerOf memory none false).memory (unsigned subsPtr)
        (unsigned nsubscriptions) 0 with
    | nil => exact ⟨rfl, rfl⟩
    | cons first others => exact ⟨rfl, rfl⟩
  · rcases Nat.exists_eq_add_one_of_ne_zero counted with ⟨remaining, turns⟩
    rw [turns]
    have beyond := not_covers_high high memory (0 * 48) 48
    have strays : Strays (Host.pollTurnAt (asUsize subsPtr) 0 []) .panic
        (callerOf memory none false) := Host.pollTurnAt_strays beyond
    exact strays.loop.bind.wp.mpr (by decide)

/-- With a timer and a time the call is answered, unless the code panics. -/
private theorem pollPlaces_low (low : Low subsPtr)
    (some : clockSubscriptions memory (unsigned subsPtr) (unsigned nsubscriptions) 0 ≠ [])
    (inEvents : memory.Covers ⟨unsigned eventsPtr, 32⟩)
    (inResult : memory.Covers ⟨unsigned resultPtr, 4⟩) : Low eventsPtr ∧ Low resultPtr := by
  by_contra high
  rw [asUsize_low low] at alike
  rcases List.exists_cons_of_ne_nil some with ⟨first, others, found⟩
  have reached : [] ++ clockSubscriptions (callerOf memory none false).memory
      (unsigned subsPtr) (unsigned nsubscriptions) 0 = first :: others := found
  refine not_alike (· = .errno .success) (callerOf memory none false) rfl rfl ?_ ?_
    (alike ⟨Option.some 0, 0, none⟩)
  · rw [Program.wp_bind, wp_pollLoopAt _ _ _ _ (fun later below => covered later (by omega)),
      reached]
    refine pollAnswer_ends rfl _ _ first others _ fun ending after answered => ?_
    rw [if_pos ⟨inEvents, inResult⟩] at answered
    exact answered
  · rw [Program.wp_bind, wp_pollLoopAt _ _ _ _ (fun later below => covered later (by omega)),
      reached]
    refine pollAnswer_ends rfl _ _ first others _ fun ending after answered => ?_
    rw [if_neg] at answered
    · rw [answered.1]
      decide
    · intro both
      refine high ⟨?_, ?_⟩
      · by_contra beyond
        exact not_covers_high beyond memory 0 32 both.1
      · by_contra beyond
        exact not_covers_high beyond memory 0 4 both.2

end PollNeeds

/-- `poll_oneoff` does what is meant exactly when its addresses stay low wherever they
lie within the memory. A table beyond the memory panics with either reading of its
address. -/
theorem pollOneoff_alike_iff (memory : GuestMemory)
    (subsPtr eventsPtr nsubscriptions resultPtr : Int32) :
    (forall platform, Alike memory
      (Host.pollOneoffAt platform (asUsize subsPtr) (asUsize eventsPtr) (turns nsubscriptions)
        (asUsize resultPtr))
      (Host.pollOneoffAt platform (unsigned subsPtr) (unsigned eventsPtr)
        (unsigned nsubscriptions) (unsigned resultPtr))) ↔
      (HostCall.pollOneoff subsPtr eventsPtr nsubscriptions resultPtr).StaysLow memory := by
  unfold HostCall.StaysLow
  dsimp only
  by_cases empty : nsubscriptions = 0
  · subst empty
    refine iff_of_true (fun platform => .of_meets fun start _ => .refl _) fun some => ?_
    exact absurd rfl some
  · have counted : unsigned nsubscriptions ≠ 0 := mt unsigned_eq_zero_iff.mp empty
    simp only [ne_eq, empty, not_false_eq_true, true_imp_iff]
    constructor
    · intro alike covered
      simp only [turns_low (count_low covered), pollOneoffAt_eq _ _ _ _ counted] at alike
      have low := pollTable_low counted covered alike
      exact ⟨low, pollPlaces_low covered alike low⟩
    · intro stays platform
      rw [pollOneoffAt_eq platform (unsigned subsPtr) _ _ counted]
      by_cases covered : forall index, index < unsigned nsubscriptions ->
          memory.Covers ⟨unsigned subsPtr + index * 48, 48⟩
      · rcases stays covered with ⟨low, places⟩
        rw [turns_low (count_low covered), asUsize_low low, pollOneoffAt_eq platform _ _ _ counted]
        refine .of_meets fun start same => .bind ?_
        subst same
        rw [wp_pollLoopAt _ _ _ _ fun later below => covered later (by omega), List.nil_append]
        exact pollAnswer_meets platform places
      · refine .of_meets fun start same => .of_wp ?_
        subst same
        rw [Program.wp_bind]
        exact Program.wp_mono (pollLoop_covered _ _ start)
          (fun found after all => absurd all covered) fun _ _ strayed => strayed

/-- On a native host, the code reaches what the guest means exactly when all that its
call accesses within the memory stays below 2^31. -/
theorem addresses_unsigned_iff (memory : GuestMemory) (call : HostCall) :
    AddressesUnsigned memory call ↔ call.StaysLow memory := by
  rw [addressesUnsigned_iff_alike]
  cases call with
  | fdRead fd iovPtr iovLen nreadPtr =>
      exact ⟨fun alike => (fdRead_alike_iff memory fd iovPtr iovLen nreadPtr).mp
        (alike ⟨none, 0, none⟩), fun stays _ =>
        (fdRead_alike_iff memory fd iovPtr iovLen nreadPtr).mpr stays⟩
  | fdWrite fd ciovPtr ciovLen nwritePtr =>
      exact ⟨fun alike => (fdWrite_alike_iff memory fd ciovPtr ciovLen nwritePtr).mp
        (alike ⟨none, 0, none⟩), fun stays _ =>
        (fdWrite_alike_iff memory fd ciovPtr ciovLen nwritePtr).mpr stays⟩
  | fdFdstatGet fd bufPtr =>
      exact ⟨fun alike => (fdFdstatGet_alike_iff memory fd bufPtr).mp (alike ⟨none, 0, none⟩),
        fun stays _ => (fdFdstatGet_alike_iff memory fd bufPtr).mpr stays⟩
  | clockTimeGet clockId precision resultPtr =>
      exact clockTimeGet_alike_iff memory clockId resultPtr
  | randomGet bufPtr bufLen => exact randomGet_alike_iff memory bufPtr bufLen
  | pollOneoff subsPtr eventsPtr nsubscriptions resultPtr =>
      exact pollOneoff_alike_iff memory subsPtr eventsPtr nsubscriptions resultPtr
  | argsGet | argsSizesGet | environGet | environSizesGet | fdClose | schedYield | procRaise
  | procExit => exact iff_of_true (fun _ => .of_meets fun _ _ => .refl _) trivial

/-- A memory of 4 GiB. -/
def fourGigabytes : GuestMemory where
  size := 2 ^ 32
  byte := fun _ => 0
  small := Nat.le_refl _

/-- The time is not written to the middle of a memory of 4 GiB, because the address is
a negative number to the code. -/
theorem negative_address_faults :
    ¬ AddressesUnsigned fourGigabytes (.clockTimeGet 0 0 (-2147483648)) := by
  rw [addressesUnsigned_iff_alike]
  intro alike
  have harmless := (clockTimeGet_alike_iff fourGigabytes 0 (-2147483648)).mp alike (.inl rfl)
  rcases harmless with low | outside
  · exact absurd low (by decide)
  · exact absurd outside (by decide)

end Wasi
end WasmiPlugin
