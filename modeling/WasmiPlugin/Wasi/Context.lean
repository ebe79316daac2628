import WasmiPlugin.Foundation.LinearMemory
import WasmiPlugin.Foundation.Program
import WasmiPlugin.Pipe.BufReader

namespace WasmiPlugin
namespace Wasi

open Foundation

/-!
# The state a host function works on

A host function is called with a `Caller`: the `WasiCtx` of the store, the
guest's memory and its fuel.  It answers with an error number, or ends the guest,
or panics, which ends the host.  What the platform contributes to a call, the
time and the random bytes, is a parameter of the call.

The two accessors of the memory say what happens outside of it: most callers
turn that into `Fault`, and those that `unwrap` panic.  An access outside the
memory is recorded in `strayed`, which no function looks at.

The host may be a native program or itself run in a browser, with pointers of 64
or of 32 bits.  Arithmetic in `usize` panics at the end of that range, a negative
`i32` becomes a number just below it, and no object is larger than `isize::MAX`,
neither a vector nor the memory of a guest.
-/

/-! ## The target of the host -/

/-- `target_pointer_width`, which is 64 for a native host and 32 for one in a browser. -/
inductive PointerWidth where
  | bits32
  | bits64
  deriving DecidableEq, Repr

/-- The target that the host is compiled for.  All results about the host functions
that take it as an instance hold for both widths. -/
class HostTarget where
  pointerWidth : PointerWidth

/-- A host that runs in a browser has pointers of 32 bits. -/
@[reducible] def HostTarget.wasm32 : HostTarget := ⟨.bits32⟩

/-- Where no target is given, the host is a native one of today. -/
instance (priority := low) HostTarget.native : HostTarget := ⟨.bits64⟩

section Target

variable [HostTarget]

/-- The number of values of `usize` on the host. -/
def usizeModulus : Nat :=
  match HostTarget.pointerWidth with
  | .bits32 => 2 ^ 32
  | .bits64 => 2 ^ 64

/-- `isize::MAX`, which is also the size of the largest object. -/
def isizeMax : Nat :=
  match HostTarget.pointerWidth with
  | .bits32 => 2 ^ 31 - 1
  | .bits64 => 2 ^ 63 - 1

/-- The largest memory of a guest: what 32-bit addresses reach, unless the host
cannot hold that much in one object. -/
def memoryLimit : Nat :=
  min (2 ^ 32) isizeMax

/-- The relations between the limits of a target that hold for either width. The
proofs about addresses use these and do not look at the width. -/
structure TargetBounds : Prop where
  isize : 2 * isizeMax + 2 = usizeModulus
  addresses : memoryLimit ≤ 2 ^ 32
  objects : memoryLimit ≤ isizeMax
  signed : 2 ^ 31 ≤ isizeMax + 1
  lengths : 2 ^ 32 ≤ usizeModulus

theorem targetBounds : TargetBounds := by
  rcases width : HostTarget.pointerWidth with _ | _
  all_goals
    constructor <;> simp only [memoryLimit, isizeMax, usizeModulus, width] <;> decide

abbrev GuestMemory := LinearMemory memoryLimit

def onePage (byte : Nat -> UInt8) : GuestMemory where
  size := 65536
  byte := byte
  small := by
    have bounds := targetBounds
    have limit : memoryLimit = min (2 ^ 32) isizeMax := rfl
    have signed := bounds.signed
    omega

theorem GuestMemory.size_le (memory : GuestMemory) : memory.size ≤ 2 ^ 32 :=
  memory.small.trans targetBounds.addresses

theorem GuestMemory.size_le_isizeMax (memory : GuestMemory) : memory.size ≤ isizeMax :=
  memory.small.trans targetBounds.objects

end Target

inductive Errno where
  | success
  | access
  | again
  | badf
  | fault
  | inval
  | io
  deriving DecidableEq, Repr

/-- How a call of a host function ends.  A function without a result either
lets the guest continue or makes it exit. -/
inductive Ending where
  | errno (code : Errno)
  | continues
  | exit (status : Int32)
  | panic
  deriving DecidableEq, Repr

/-- The part of `WasiCtx` that the functions use.  Strings are their bytes, and
of the writers only their presence matters, since both are pipes. -/
structure WasiCtx where
  args : List (List UInt8)
  env : List (List UInt8)
  stdinReader : Option Pipe.BufReader
  stdoutWriter : Bool
  stderrWriter : Bool
  sleepUntil : Option Nat
  awaitingStdin : Bool

/-- `WasiCtx::stdin_available`, with the pipe below the reader. -/
def WasiCtx.stdinAvailable (ctx : WasiCtx) (pipe : Pipe.Inner) : Bool × WasiCtx × Pipe.Inner :=
  match ctx.stdinReader with
  | none => (false, ctx, pipe)
  | some reader =>
      match reader.fillBuf pipe with
      | (.ok data, reader, pipe) => (!data.isEmpty, { ctx with stdinReader := some reader }, pipe)
      | (.wouldBlock, reader, pipe) => (false, { ctx with stdinReader := some reader }, pipe)

/-- What a host function is called with, and the pipes behind its handles. -/
structure Caller [HostTarget] where
  ctx : WasiCtx
  memory : GuestMemory
  fuel : Nat
  stdin : Pipe.Inner
  stdout : Pipe.Inner
  stderr : Pipe.Inner
  strayed : Bool

/-- What the platform answers during one call: the wall clock in nanoseconds
since the epoch unless it is before that, the monotonic clock, and random
bytes unless there are none. -/
structure Platform where
  sinceEpoch : Option Nat
  instant : Nat
  random : Option (Nat -> UInt8)

variable [HostTarget]

/-- A piece of a host function: it works on a caller, and ends the call or gives a
value to the next piece. -/
abbrev Host (Value : Type) := Program Caller Ending Value

namespace Host

def readMemory (region : Region) (outside : Ending) : Host (List UInt8) := do
  let caller ← Program.look id
  match caller.memory.read region with
  | some bytes => pure bytes
  | none => do
      Program.change fun caller => { caller with strayed := true }
      Program.stop outside

def writeMemory (offset : Nat) (bytes : List UInt8) (outside : Ending) : Host PUnit := do
  let caller ← Program.look id
  match caller.memory.write offset bytes with
  | some memory => Program.change fun caller => { caller with memory := memory }
  | none => do
      Program.change fun caller => { caller with strayed := true }
      Program.stop outside

/-- Keep a number that fits into a type with `bound` values; an overflow
panics. -/
def fits (bound value : Nat) : Host Nat :=
  if value < bound then pure value else Program.stop .panic

/-- Arithmetic in `usize`, which panics at the end of its range. -/
def usize (value : Nat) : Host Nat :=
  fits usizeModulus value

/-- Arithmetic in `u32`, which panics at the end of its range. -/
def u32 (value : Nat) : Host Nat :=
  fits (2 ^ 32) value

def giveUpFuel : Host PUnit :=
  Program.change fun caller => { caller with fuel := 0 }

variable {Value : Type} {post : Value -> Caller -> Prop} {ends : Ending -> Caller -> Prop}
  {caller : Caller}

@[simp] theorem wp_readMemory {post : List UInt8 -> Caller -> Prop} (region : Region)
    (outside : Ending) :
    (readMemory region outside).wp post ends caller ↔
      if caller.memory.Covers region then post (caller.memory.contents region) caller
      else ends outside { caller with strayed := true } := by
  simp only [readMemory, Program.wp_bind, Program.wp_look, id, LinearMemory.read]
  by_cases covered : caller.memory.Covers region
  · simp only [if_pos covered, Program.wp_pure]
  · simp only [if_neg covered, Program.wp_bind, Program.wp_change, Program.wp_stop]

@[simp] theorem wp_writeMemory {post : PUnit -> Caller -> Prop} (offset : Nat)
    (bytes : List UInt8) (outside : Ending) :
    (writeMemory offset bytes outside).wp post ends caller ↔
      if caller.memory.Covers ⟨offset, bytes.length⟩ then
        post ⟨⟩ { caller with memory := caller.memory.overwrite offset bytes }
      else ends outside { caller with strayed := true } := by
  simp only [writeMemory, Program.wp_bind, Program.wp_look, id, LinearMemory.write]
  by_cases covered : caller.memory.Covers ⟨offset, bytes.length⟩
  · simp only [if_pos covered, Program.wp_change]
  · simp only [if_neg covered, Program.wp_bind, Program.wp_change, Program.wp_stop]

@[simp] theorem wp_fits {post : Nat -> Caller -> Prop} (bound value : Nat) :
    (fits bound value).wp post ends caller ↔
      if value < bound then post value caller else ends .panic caller := by
  simp only [fits, Program.wp_ite, Program.wp_pure, Program.wp_stop]

@[simp] theorem wp_usize {post : Nat -> Caller -> Prop} (value : Nat) :
    (usize value).wp post ends caller ↔
      if value < usizeModulus then post value caller else ends .panic caller :=
  wp_fits usizeModulus value

@[simp] theorem wp_u32 {post : Nat -> Caller -> Prop} (value : Nat) :
    (u32 value).wp post ends caller ↔
      if value < 2 ^ 32 then post value caller else ends .panic caller :=
  wp_fits (2 ^ 32) value

@[simp] theorem wp_giveUpFuel {post : PUnit -> Caller -> Prop} :
    giveUpFuel.wp post ends caller ↔ post ⟨⟩ { caller with fuel := 0 } := Iff.rfl

end Host

/-- `value as usize`, which extends the sign. -/
def asUsize (value : Int32) : Nat :=
  (value.toInt % usizeModulus).toNat

/-- A value that is not negative is the same number as a `usize`, and a negative
one is beyond `isize::MAX`. -/
theorem asUsize_spec (value : Int32) :
    (0 ≤ value.toInt -> (asUsize value : Int) = value.toInt) ∧
      (value.toInt < 0 -> isizeMax < asUsize value ∧ asUsize value < usizeModulus) := by
  have bounds := targetBounds
  have isize := bounds.isize
  have signed := bounds.signed
  have below := value.toInt_lt
  have above := value.le_toInt
  unfold asUsize
  constructor
  · intro positive
    rw [Int.emod_eq_of_lt positive (by omega)]
    omega
  · intro negative
    have wrapped : value.toInt % (usizeModulus : Int) = value.toInt + usizeModulus := by
      rw [← Int.add_emod_right, Int.emod_eq_of_lt (by omega) (by omega)]
    omega

/-- The number of turns of `0..count`, which is none for a negative count. -/
def turns (count : Int32) : Nat :=
  count.toInt.toNat

end Wasi
end WasmiPlugin
