import WasmiPlugin.Wasi.Outputs
import WasmiPlugin.Wasi.StdinStream

namespace WasmiPlugin
namespace Wasi

open Foundation Program

/-!
# What a guest takes from its stdin

A guest reads its stdin with `fd_read`, and nothing else that it can do takes a byte
from the stream.  As long as its reads are well placed and do not starve midway, the
bytes that it gets are the front of the stream, in order, whatever it does between
them.  One that reads into a single buffer at a time, as the standard library of the
plugin does, never starves midway.
-/

variable [HostTarget]

/-- Two states with the same stdin and the same reader of it. -/
structure SameStdin (before after : Caller) : Prop where
  reader : after.ctx.stdinReader = before.ctx.stdinReader
  pipe : after.stdin = before.stdin

theorem SameStdin.trans {first second third : Caller} (early : SameStdin first second)
    (late : SameStdin second third) : SameStdin first third :=
  ⟨late.reader.trans early.reader, late.pipe.trans early.pipe⟩

theorem SameStdin.unread {before after : Caller} (same : SameStdin before after) :
    unread after = unread before := by
  simp only [Wasi.unread, buffered, same.reader, same.pipe]

theorem still_sameStdin : StillFrame SameStdin where
  refl := fun _ => ⟨rfl, rfl⟩
  trans := fun _ _ _ => .trans
  strayed := fun _ _ => ⟨rfl, rfl⟩
  memory := fun _ _ => ⟨rfl, rfl⟩
  fuel := fun _ => ⟨rfl, rfl⟩
  stdout := fun _ _ _ => ⟨rfl, rfl⟩
  stderr := fun _ _ _ => ⟨rfl, rfl⟩

/-- The call reads stdin or closes it. -/
def HostCall.concernsStdin : HostCall -> Bool
  | .fdRead fd _ _ _ => fd = 0
  | .fdClose fd => fd = 0
  | _ => false

/-- A call that neither reads stdin nor closes it leaves stdin and the reader alone. -/
theorem HostCall.perform_sameStdin (platform : Platform) {call : HostCall}
    (apart : call.concernsStdin = false) (caller : Caller) :
    SameStdin caller (call.perform platform caller).2 := by
  have frame := still_sameStdin
  refine call.perform_still frame platform caller ?_ ?_ ?_
  · rintro fd iovPtr iovLen nreadPtr rfl
    rw [Host.fdRead, if_pos (of_decide_eq_false apart)]
    exact .pure frame.refl _
  · rintro fd rfl
    rw [Host.fdClose, if_neg (of_decide_eq_false apart)]
    refine .ite (.bind frame.trans (.change fun _ => ⟨rfl, rfl⟩) fun _ => .pure frame.refl _) ?_
    exact .ite (.bind frame.trans (.change fun _ => ⟨rfl, rfl⟩) fun _ => .pure frame.refl _)
      (.pure frame.refl _)
  · intro _ _ _ _ _ now deadline
    refine .ite ?_ (.pure frame.refl _)
    exact .bind frame.trans (.change fun _ => ⟨rfl, rfl⟩) fun _ => Host.giveUpFuel_within frame

/-- What a guest that keeps its stdin open can do while it has control, and the bytes
that it gets from stdin by it. -/
inductive Hears (given : Caller) : List UInt8 -> Caller -> Prop
  | idles : Hears given [] given
  | computes {heard : List UInt8} {caller : Caller} (memory : GuestMemory) (fuel : Nat) :
      Hears given heard caller -> Hears given heard { caller with memory := memory, fuel := fuel }
  | calls {heard : List UInt8} {caller : Caller} (platform : Platform) (call : HostCall)
      (apart : call.concernsStdin = false) :
      Hears given heard caller -> Hears given heard (call.perform platform caller).2
  | reads {heard : List UInt8} {caller after : Caller} (platform : Platform)
      {iovPtr iovLen nreadPtr : Int32}
      (stepped : stdinStep platform caller (.fdRead iovPtr iovLen nreadPtr) = some after)
      (placed : WellPlaced ⟨caller, .fdRead iovPtr iovLen nreadPtr, after⟩)
      (fed : ¬StarvesMidway ⟨caller, .fdRead iovPtr iovLen nreadPtr, after⟩) :
      Hears given heard caller ->
      Hears given (heard ++ reported platform ⟨caller, .fdRead iovPtr iovLen nreadPtr, after⟩) after

/-- The bytes that a guest gets from stdin while it has control are the front of what
was unread before. -/
theorem Hears.stream {given caller : Caller} {heard : List UInt8}
    (hears : Hears given heard caller) (opened : given.ctx.stdinReader ≠ none) :
    caller.ctx.stdinReader ≠ none ∧ heard ++ unread caller = unread given := by
  induction hears with
  | idles => exact ⟨opened, rfl⟩
  | computes memory fuel _ inductionHypothesis => exact inductionHypothesis
  | @calls _ between platform call apart _ inductionHypothesis =>
      have same := call.perform_sameStdin platform apart between
      rw [same.reader, same.unread]
      exact inductionHypothesis
  | reads platform stepped placed fed _ inductionHypothesis =>
      rcases stream_step platform inductionHypothesis.1 placed stepped with ⟨still, kept⟩
      have taken := kept.mpr fed
      rw [hostWritten, List.append_nil] at taken
      refine ⟨still, ?_⟩
      rw [List.append_assoc, taken]
      exact inductionHypothesis.2

theorem not_starvesMidway {caller after : Caller} {iovPtr iovLen nreadPtr : Int32}
    {buffer : Region}
    (single : buffersAt caller.memory (asUsize iovPtr) (turns iovLen) = [buffer]) :
    ¬StarvesMidway ⟨caller, .fdRead iovPtr iovLen nreadPtr, after⟩ := by
  rintro ⟨_, something, exhausts⟩
  rw [single] at exhausts
  have rest : (buffered caller).length = 0 ∧ caller.stdin.buf.length = 0 := by
    by_contra some
    simp only [List.map_cons, List.map_nil, Exhausts, if_neg some, and_false, ite_self] at exhausts
  apply something
  rw [unread, List.length_eq_zero_iff.mp rest.1, List.length_eq_zero_iff.mp rest.2]
  rfl

/-- To ask whether there is input takes nothing from the stream. -/
theorem stdinAvailable_stream (caller : Caller) (opened : caller.ctx.stdinReader ≠ none) :
    let asked := caller.ctx.stdinAvailable caller.stdin
    asked.2.1.stdinReader ≠ none ∧
      unread { caller with ctx := asked.2.1, stdin := asked.2.2 } = unread caller := by
  intro asked
  rcases @stream_step _ ⟨none, 0, none⟩ caller _ .stdinAvailable opened trivial rfl with
    ⟨still, kept⟩
  have same := kept.mpr id
  rw [hostWritten, List.append_nil] at same
  exact ⟨still, same⟩

end Wasi
end WasmiPlugin
