import WasmiPlugin.Foundation.Minimum
import WasmiPlugin.Wasi.Context

namespace WasmiPlugin
namespace Wasi

open Foundation

/-!
# The functions registered by `add_to_linker`

Each function of `wasi_snapshot_preview1` that a guest can import, step by step
as the source has it: what is checked first, which access may fault and which
one panics, and where the loops end.  A guest without an exported memory is not
modelled.  The two pairs for arguments and environment are one function each,
applied to the two lists.

The reader and the writers are pipes, which answer with data, the end of the
file or `WouldBlock`, and accept every write whole, so the branches for other
errors are not reached.
-/

variable [HostTarget]

namespace Host

/-! ## Arguments and environment -/

/-- `write_pointer_and_string`, with the two advanced pointers. -/
def writePointerAndString (tablePtr bufPtr : Nat) (string : List UInt8) : Host (Nat × Nat) := do
  writeMemory tablePtr (leBytes 4 bufPtr) (.errno .fault)
  let tablePtr ← usize (tablePtr + 4)
  writeMemory bufPtr (string ++ [0]) (.errno .fault)
  let bufPtr ← usize (bufPtr + (string.length + 1))
  pure (tablePtr, bufPtr)

/-- The loop of `args_get` and `env_get`. -/
def writeStrings : (strings : List (List UInt8)) -> (tablePtr bufPtr : Nat) -> Host Ending
  | [], _, _ => pure (.errno .success)
  | string :: strings, tablePtr, bufPtr => do
      let pointers ← writePointerAndString tablePtr bufPtr string
      writeStrings strings pointers.1 pointers.2

def stringsGet (select : WasiCtx -> List (List UInt8)) (table buf : UInt32) : Host Ending := do
  let strings ← Program.look fun caller => select caller.ctx
  writeStrings strings table.toNat buf.toNat

/-- The sum in `args_sizes_get` and `env_sizes_get`. -/
def sumSizes : (strings : List (List UInt8)) -> (total : Nat) -> Host Nat
  | [], total => pure total
  | string :: strings, total => do
      let size ← u32 (string.length % 2 ^ 32 + 1)
      let total ← u32 (total + size)
      sumSizes strings total

/-- `args_sizes_get` and `env_sizes_get` on their list. -/
def stringsSizesGet (select : WasiCtx -> List (List UInt8)) (offset0 offset1 : UInt32) :
    Host Ending := do
  let strings ← Program.look fun caller => select caller.ctx
  let size ← sumSizes strings 0
  writeMemory offset0.toNat (leBytes 4 strings.length) (.errno .fault)
  writeMemory offset1.toNat (leBytes 4 size) (.errno .fault)
  pure (.errno .success)

def argsGet (argv argvBuf : UInt32) : Host Ending :=
  stringsGet WasiCtx.args argv argvBuf

def argsSizesGet (offset0 offset1 : UInt32) : Host Ending :=
  stringsSizesGet WasiCtx.args offset0 offset1

def envGet (environ environBuf : UInt32) : Host Ending :=
  stringsGet WasiCtx.env environ environBuf

def envSizesGet (offset0 offset1 : UInt32) : Host Ending :=
  stringsSizesGet WasiCtx.env offset0 offset1

/-! ## Reading and writing -/

/-- `vec![0u8; length]`, which panics beyond `isize::MAX`. -/
def allocate (length : Nat) : Host PUnit :=
  if length ≤ isizeMax then pure ⟨⟩ else Program.stop .panic

/-- The record `index` of a table of `{ buf: u32, len: u32 }`, read in two
halves. -/
def iovec (ptr : Int32) (index : Nat) : Host (Nat × Nat) := do
  let offset ← usize (index * 8)
  let base ← usize (asUsize ptr + offset)
  let bufAddr ← readMemory ⟨base, 4⟩ .panic
  let lenAddr ← usize (base + 4)
  let bufLen ← readMemory ⟨lenAddr, 4⟩ .panic
  pure (leNat bufAddr, leNat bufLen)

/-- The call of `read` in `fd_read`, with what becomes of its errors. -/
def readStdin (room : Nat) : Host (List UInt8) := do
  let caller ← Program.look id
  match caller.ctx.stdinReader with
  | none => Program.stop (.errno .badf)
  | some reader =>
      match reader.read caller.stdin room with
      | (.ok data, reader, pipe) => do
          Program.change fun caller => { caller with
            ctx := { caller.ctx with stdinReader := some reader }
            stdin := pipe }
          pure data
      | (.wouldBlock, reader, pipe) => do
          Program.change fun caller => { caller with
            ctx := { caller.ctx with stdinReader := some reader, awaitingStdin := true }
            stdin := pipe }
          giveUpFuel
          Program.stop (.errno .again)

def fdReadTurn (iovPtr : Int32) (index totalRead : Nat) : Host (Program.Turn Nat) := do
  let record ← iovec iovPtr index
  allocate record.2
  let data ← readStdin record.2
  if data.length = 0 then pure (.done totalRead)
  else do
    let totalRead ← usize (totalRead + data.length)
    writeMemory record.1 data .panic
    if data.length < record.2 then pure (.done totalRead) else pure (.next totalRead)

def fdRead (fd : UInt32) (iovPtr iovLen nreadPtr : Int32) : Host Ending :=
  if fd ≠ 0 then pure (.errno .badf)
  else do
    let totalRead ← Program.loop (fdReadTurn iovPtr) (turns iovLen) 0 0
    writeMemory (asUsize nreadPtr) (leBytes 4 totalRead) .panic
    pure (.errno .success)

def writable (ctx : WasiCtx) (fd : Int32) : Bool :=
  if fd = 1 then ctx.stdoutWriter
  else if fd = 2 then ctx.stderrWriter
  else false

/-- The call of `write` in `fd_write`, with the number of bytes accepted. -/
def writeOut (fd : Int32) (bytes : List UInt8) : Host Nat := do
  let ctx ← Program.look Caller.ctx
  if writable ctx fd then
    if fd = 1 then
      Program.take fun caller =>
        let written := caller.stdout.write bytes
        (written.1, { caller with stdout := written.2.2 })
    else
      Program.take fun caller =>
        let written := caller.stderr.write bytes
        (written.1, { caller with stderr := written.2.2 })
  else Program.stop (.errno .badf)

def fdWriteTurn (fd ciovPtr : Int32) (index totalWritten : Nat) : Host (Program.Turn Nat) := do
  let record ← iovec ciovPtr index
  allocate record.2
  let bytes ← readMemory ⟨record.1, record.2⟩ (.errno .fault)
  let accepted ← writeOut fd bytes
  let totalWritten ← usize (totalWritten + accepted)
  if accepted < record.2 then pure (.done totalWritten) else pure (.next totalWritten)

def fdWrite (fd ciovPtr ciovLen nwritePtr : Int32) : Host Ending := do
  let totalWritten ← Program.loop (fdWriteTurn fd ciovPtr) (turns ciovLen) 0 0
  writeMemory (asUsize nwritePtr) (leBytes 4 totalWritten) (.errno .fault)
  pure (.errno .success)

/-! ## Descriptors -/

/-- The `fdstat` of a descriptor with the given rights: a character device, no
flags, and no inheriting rights. -/
def fdstat (rightsBase : Nat) : List UInt8 :=
  leBytes 1 2 ++ leBytes 2 0 ++ leBytes 5 0 ++ leBytes 8 rightsBase ++ leBytes 8 0

def fdFdstatGet (fd bufPtr : Int32) : Host Ending := do
  let rightsBase ←
    if fd = 0 then pure (2 ^ 1)
    else if fd = 1 ∨ fd = 2 then pure (2 ^ 6)
    else Program.stop (.errno .badf)
  writeMemory (asUsize bufPtr) (fdstat rightsBase) (.errno .fault)
  pure (.errno .success)

/-- Closing a descriptor drops its handle, and with it a writer that is still
there. -/
def fdClose (fd : Int32) : Host Ending :=
  if fd = 0 then do
    Program.change fun caller => { caller with ctx := { caller.ctx with stdinReader := none } }
    pure (.errno .success)
  else if fd = 1 then do
    Program.change fun caller => { caller with
      ctx := { caller.ctx with stdoutWriter := false }
      stdout := if caller.ctx.stdoutWriter then caller.stdout.dropWriter.2 else caller.stdout }
    pure (.errno .success)
  else if fd = 2 then do
    Program.change fun caller => { caller with
      ctx := { caller.ctx with stderrWriter := false }
      stderr := if caller.ctx.stderrWriter then caller.stderr.dropWriter.2 else caller.stderr }
    pure (.errno .success)
  else pure (.errno .badf)

/-! ## Time, random bytes and scheduling -/

variable (platform : Platform)

/-- `SystemTime::now().duration_since(UNIX_EPOCH)` as nanoseconds in a `u64`. -/
def nowNanos : Host Nat :=
  match platform.sinceEpoch with
  | some nanos => pure (nanos % 2 ^ 64)
  | none => Program.stop (.errno .inval)

def clockTimeGet (clockId : Int32) (resultPtr : Int32) : Host Ending :=
  if clockId = 0 ∨ clockId = 1 then do
    let now ← nowNanos platform
    writeMemory (asUsize resultPtr) (leBytes 8 now) (.errno .fault)
    pure (.errno .success)
  else pure (.errno .inval)

def randomGet (bufPtr bufLen : Int32) : Host Ending := do
  allocate (asUsize bufLen)
  match platform.random with
  | none => pure (.errno .io)
  | some random => do
      writeMemory (asUsize bufPtr) ((List.range (asUsize bufLen)).map random) (.errno .fault)
      pure (.errno .success)

def schedYield : Host Ending := do
  giveUpFuel
  pure (.errno .success)

/-- The entry of `clock_subscriptions`: what `poll_oneoff` keeps of a timer. -/
structure ClockSubscription where
  userdata : Nat
  clockId : Nat
  timeout : Nat
  isAbsolute : Bool
  deriving DecidableEq, Repr

def field (bytes : List UInt8) (offset length : Nat) : Nat :=
  leNat ((bytes.drop offset).take length)

/-- The clock subscription in a record of 48 bytes.  Other types and other
clocks are skipped. -/
def ClockSubscription.ofBytes (bytes : List UInt8) : Option ClockSubscription :=
  if field bytes 8 1 ≠ 0 then none
  else if field bytes 16 4 > 1 then none
  else some {
    userdata := field bytes 0 8
    clockId := field bytes 16 4
    timeout := field bytes 24 8
    isAbsolute := field bytes 40 2 % 2 = 1 }

/-- The deadline of a subscription in 64 bits, which saturates if the timeout is
relative. -/
def ClockSubscription.deadline (now : Nat) (subscription : ClockSubscription) : Nat :=
  if subscription.isAbsolute then subscription.timeout
  else min (now + subscription.timeout) (2 ^ 64 - 1)

/-- The first of the subscriptions with the smallest deadline. -/
def earliest (now : Nat) (first : ClockSubscription) (others : List ClockSubscription) :
    ClockSubscription :=
  minByKey (ClockSubscription.deadline now) first others

def pollTurn (subsPtr : Int32) (index : Nat) (found : List ClockSubscription) :
    Host (Program.Turn (List ClockSubscription)) := do
  let offset ← usize (index * 48)
  let base ← usize (asUsize subsPtr + offset)
  let bytes ← readMemory ⟨base, 48⟩ .panic
  match ClockSubscription.ofBytes bytes with
  | none => pure (.next found)
  | some subscription => pure (.next (found ++ [subscription]))

/-- The event for a subscription whose deadline has come: its userdata, no
error, and the type of a clock. -/
def clockEvent (subscription : ClockSubscription) : List UInt8 :=
  leBytes 8 subscription.userdata ++ leBytes 2 0 ++ leBytes 1 0 ++ leBytes 21 0

/-- Ask to be resumed at a deadline, if that is still to come. -/
def awaitDeadline (now deadline : Nat) : Host PUnit :=
  if deadline > now then do
    Program.change fun caller => { caller with
      ctx := { caller.ctx with sleepUntil := some (platform.instant + (deadline - now)) } }
    giveUpFuel
  else pure ⟨⟩

def pollOneoff (subsPtr eventsPtr nsubscriptions resultPtr : Int32) : Host Ending :=
  if nsubscriptions = 0 then pure (.errno .inval)
  else do
    let found ← Program.loop (pollTurn subsPtr) (turns nsubscriptions) 0 []
    match found with
    | [] => pure (.errno .inval)
    | first :: others => do
        let now ← nowNanos platform
        let chosen := earliest now first others
        awaitDeadline platform now (chosen.deadline now)
        writeMemory (asUsize eventsPtr) (clockEvent chosen) .panic
        writeMemory (asUsize resultPtr) (leBytes 4 1) .panic
        pure (.errno .success)

/-! ## Ending the guest -/

/-- The signals that `proc_raise` ignores. -/
def ignoredSignals : List Int32 := [0, 13, 16, 17, 22, 27]

def procRaise (sig : Int32) : Host Ending :=
  if sig ∈ ignoredSignals then pure .continues
  else if 128 + sig.toInt < 2 ^ 31 then pure (.exit (128 + sig))
  else Program.stop .panic

def procExit (status : Int32) : Host Ending :=
  pure (.exit status)

end Host

/-! ## Calls -/

/-- A call of one of the fourteen functions with its arguments. -/
inductive HostCall where
  | argsGet (argv argvBuf : UInt32)
  | argsSizesGet (offset0 offset1 : UInt32)
  | environGet (environ environBuf : UInt32)
  | environSizesGet (offset0 offset1 : UInt32)
  | fdRead (fd : UInt32) (iovPtr iovLen nreadPtr : Int32)
  | fdFdstatGet (fd bufPtr : Int32)
  | fdWrite (fd ciovPtr ciovLen nwritePtr : Int32)
  | clockTimeGet (clockId : Int32) (precision : Int64) (resultPtr : Int32)
  | fdClose (fd : Int32)
  | randomGet (bufPtr bufLen : Int32)
  | schedYield
  | pollOneoff (subsPtr eventsPtr nsubscriptions resultPtr : Int32)
  | procRaise (sig : Int32)
  | procExit (status : Int32)

def HostCall.body (platform : Platform) : HostCall -> Host Ending
  | .argsGet argv argvBuf => Host.argsGet argv argvBuf
  | .argsSizesGet offset0 offset1 => Host.argsSizesGet offset0 offset1
  | .environGet environ environBuf => Host.envGet environ environBuf
  | .environSizesGet offset0 offset1 => Host.envSizesGet offset0 offset1
  | .fdRead fd iovPtr iovLen nreadPtr => Host.fdRead fd iovPtr iovLen nreadPtr
  | .fdFdstatGet fd bufPtr => Host.fdFdstatGet fd bufPtr
  | .fdWrite fd ciovPtr ciovLen nwritePtr => Host.fdWrite fd ciovPtr ciovLen nwritePtr
  | .clockTimeGet clockId _ resultPtr => Host.clockTimeGet platform clockId resultPtr
  | .fdClose fd => Host.fdClose fd
  | .randomGet bufPtr bufLen => Host.randomGet platform bufPtr bufLen
  | .schedYield => Host.schedYield
  | .pollOneoff subsPtr eventsPtr nsubscriptions resultPtr =>
      Host.pollOneoff platform subsPtr eventsPtr nsubscriptions resultPtr
  | .procRaise sig => Host.procRaise sig
  | .procExit status => Host.procExit status

/-- A call from its beginning, when it has not strayed yet, to its end. -/
def HostCall.perform (platform : Platform) (call : HostCall) (caller : Caller) :
    Ending × Caller :=
  match call.body platform { caller with strayed := false } with
  | (.value ending, after) => (ending, after)
  | (.stopped ending, after) => (ending, after)

/-- What a call comes to is what its body comes to, whichever way it ends. -/
theorem HostCall.perform_wp (platform : Platform) (call : HostCall) (caller : Caller)
    (outcome : Ending -> Caller -> Prop) :
    outcome (call.perform platform caller).1 (call.perform platform caller).2 ↔
      (call.body platform).wp outcome outcome { caller with strayed := false } := by
  unfold perform Program.wp
  rcases call.body platform { caller with strayed := false } with ⟨finish, after⟩
  cases finish <;> exact Iff.rfl

end Wasi
end WasmiPlugin
