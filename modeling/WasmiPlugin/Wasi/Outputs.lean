import WasmiPlugin.Wasi.Frames

namespace WasmiPlugin
namespace Wasi

open Foundation Program

/-!
# What a guest does to its output pipes

A guest holds the only writers of its stdout and stderr.  It can append to the two
pipes, and it can drop a writer, which closes the pipe for good.  It cannot take
anything back, and a closed pipe is full for ever.  So the other ends find
everything that the guest has written, in order, and then the end.
-/

/-- The pipe has grown at its end, or it has been closed, or both. -/
structure Emits (before after : Pipe.Inner) : Prop where
  appends : before.buf <+: after.buf
  closed : before.closed = true -> after.closed = true ∧ after.buf = before.buf

theorem Emits.refl (pipe : Pipe.Inner) : Emits pipe pipe :=
  ⟨List.prefix_rfl, fun closed => ⟨closed, rfl⟩⟩

theorem Emits.trans {first second third : Pipe.Inner} (early : Emits first second)
    (late : Emits second third) : Emits first third := by
  refine ⟨early.appends.trans late.appends, fun closed => ?_⟩
  rcases early.closed closed with ⟨still, same⟩
  rcases late.closed still with ⟨last, unchanged⟩
  exact ⟨last, unchanged.trans same⟩

theorem Emits.write {pipe : Pipe.Inner} (opened : pipe.closed = false) (bytes : List UInt8) :
    Emits pipe (pipe.write bytes).2.2 := by
  refine ⟨List.prefix_append _ _, fun closed => ?_⟩
  rw [opened] at closed
  cases closed

theorem Emits.dropWriter (pipe : Pipe.Inner) : Emits pipe pipe.dropWriter.2 :=
  ⟨List.prefix_rfl, fun _ => ⟨rfl, rfl⟩⟩

variable [HostTarget]

/-- A pipe is closed exactly if its writer is gone. -/
structure Attached (caller : Caller) : Prop where
  stdout : caller.stdout.closed = !caller.ctx.stdoutWriter
  stderr : caller.stderr.closed = !caller.ctx.stderrWriter

/-- From one state to another the output pipes changed as a guest can change them:
bytes were added, or a pipe was closed with its writer. -/
def Outputs (before after : Caller) : Prop :=
  Attached before -> Attached after ∧ Emits before.stdout after.stdout ∧
    Emits before.stderr after.stderr

namespace Outputs

theorem of_same {before after : Caller} (out : after.ctx.stdoutWriter = before.ctx.stdoutWriter)
    (err : after.ctx.stderrWriter = before.ctx.stderrWriter)
    (stdout : after.stdout = before.stdout) (stderr : after.stderr = before.stderr) :
    Outputs before after := by
  intro attached
  rw [stdout, stderr]
  refine ⟨⟨?_, ?_⟩, .refl _, .refl _⟩
  · rw [stdout, out]
    exact attached.stdout
  · rw [stderr, err]
    exact attached.stderr

theorem trans {first second third : Caller} (early : Outputs first second)
    (late : Outputs second third) : Outputs first third := by
  intro attached
  rcases early attached with ⟨between, stdout, stderr⟩
  rcases late between with ⟨last, stdoutLater, stderrLater⟩
  exact ⟨last, stdout.trans stdoutLater, stderr.trans stderrLater⟩

end Outputs

theorem frame_outputs : Frame Outputs where
  refl := fun _ => .of_same rfl rfl rfl rfl
  trans := fun _ _ _ => .trans
  strayed := fun _ _ => .of_same rfl rfl rfl rfl
  memory := fun _ _ => .of_same rfl rfl rfl rfl
  fuel := fun _ => .of_same rfl rfl rfl rfl
  stdin := fun _ _ _ _ => .of_same rfl rfl rfl rfl
  starved := fun _ _ _ _ => .of_same rfl rfl rfl rfl
  stdout := by
    intro caller bytes present attached
    have opened : caller.stdout.closed = false := by rw [attached.stdout, present]; rfl
    exact ⟨⟨attached.stdout, attached.stderr⟩, .write opened bytes, .refl _⟩
  stderr := by
    intro caller bytes present attached
    have opened : caller.stderr.closed = false := by rw [attached.stderr, present]; rfl
    exact ⟨⟨attached.stdout, attached.stderr⟩, .refl _, .write opened bytes⟩

namespace Host

theorem fdClose_outputs {fd : Int32} : Within Outputs (fdClose fd) := by
  refine .ite (.bind frame_outputs.trans (.change fun caller => ?_) fun _ => ?_)
    (.ite (.bind frame_outputs.trans (.change fun caller => ?_) fun _ => ?_)
      (.ite (.bind frame_outputs.trans (.change fun caller => ?_) fun _ => ?_) ?_))
  · exact .of_same rfl rfl rfl rfl
  · exact .pure frame_outputs.refl _
  · intro attached
    cases present : caller.ctx.stdoutWriter with
    | true => exact ⟨⟨rfl, attached.stderr⟩, .dropWriter _, .refl _⟩
    | false =>
        refine ⟨⟨?_, attached.stderr⟩, .refl _, .refl _⟩
        exact attached.stdout.trans (by rw [present])
  · exact .pure frame_outputs.refl _
  · intro attached
    cases present : caller.ctx.stderrWriter with
    | true => exact ⟨⟨attached.stdout, rfl⟩, .refl _, .dropWriter _⟩
    | false =>
        refine ⟨⟨attached.stdout, ?_⟩, .refl _, .refl _⟩
        exact attached.stderr.trans (by rw [present])
  · exact .pure frame_outputs.refl _
  · exact .pure frame_outputs.refl _

end Host

/-- Whatever host function is called, the output pipes change only as a guest can
change them. -/
theorem HostCall.perform_outputs (platform : Platform) (call : HostCall) (caller : Caller) :
    Outputs caller (call.perform platform caller).2 := by
  refine perform_within frame_outputs platform call caller (fun _ _ => Host.fdClose_outputs) ?_
  intro _ _ _ _ _ _ _
  exact Host.awaitDeadline_within frame_outputs fun _ _ => .of_same rfl rfl rfl rfl

/-- What a guest can do to the store while it has control: it computes, which changes
its memory and its fuel, and it calls the host, whatever the platform answers. -/
inductive Controls (given : Caller) : Caller -> Prop
  | idles : Controls given given
  | computes {caller : Caller} (memory : GuestMemory) (fuel : Nat) : Controls given caller ->
      Controls given { caller with memory := memory, fuel := fuel }
  | calls {caller : Caller} (platform : Platform) (call : HostCall) : Controls given caller ->
      Controls given (call.perform platform caller).2

/-- While a guest has control it can only add to its output pipes and close them. -/
theorem Controls.outputs {given caller : Caller} (controls : Controls given caller) :
    Outputs given caller := by
  induction controls with
  | idles => exact .of_same rfl rfl rfl rfl
  | computes memory fuel _ inductionHypothesis =>
      exact inductionHypothesis.trans (.of_same rfl rfl rfl rfl)
  | calls platform call _ inductionHypothesis =>
      exact inductionHypothesis.trans (call.perform_outputs platform _)

end Wasi
end WasmiPlugin
