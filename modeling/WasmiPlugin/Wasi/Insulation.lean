import WasmiPlugin.Wasi.Records

namespace WasmiPlugin
namespace Wasi

open Foundation Program

/-!
# Descriptors do not depend on each other

Two callers may differ in the handle behind one descriptor, and in its pipe.  A
call that does not name this descriptor does not show the difference: it ends in
the same way, and leaves callers that again differ in nothing else.  Closing a
descriptor makes just such a difference.
-/

variable [HostTarget]

/-- Two callers agree except for the handle and the pipe behind one descriptor. -/
structure AgreeOff (off : Int32) (one other : Caller) : Prop where
  memory : one.memory = other.memory
  fuel : one.fuel = other.fuel
  args : one.ctx.args = other.ctx.args
  env : one.ctx.env = other.ctx.env
  sleepUntil : one.ctx.sleepUntil = other.ctx.sleepUntil
  awaitingStdin : one.ctx.awaitingStdin = other.ctx.awaitingStdin
  stdin : off ≠ 0 -> one.ctx.stdinReader = other.ctx.stdinReader ∧ one.stdin = other.stdin
  stdout : off ≠ 1 -> one.ctx.stdoutWriter = other.ctx.stdoutWriter ∧ one.stdout = other.stdout
  stderr : off ≠ 2 -> one.ctx.stderrWriter = other.ctx.stderrWriter ∧ one.stderr = other.stderr

namespace Host

variable {off : Int32}

theorem readMemory_respects {region : Region} {outside : Ending} :
    Respects (AgreeOff off) (readMemory region outside) := by
  refine .look (fun one other agree => ?_) fun caller => ?_
  · simp only [id, agree.memory]
  · split
    · exact .pure _
    · exact .bind (.change fun _ _ agree => { agree with }) fun _ => .stop _

theorem writeMemory_respects {offset : Nat} {bytes : List UInt8} {outside : Ending} :
    Respects (AgreeOff off) (writeMemory offset bytes outside) := by
  refine .look (fun one other agree => ?_) fun caller => ?_
  · simp only [id, agree.memory]
  · split
    · exact .change fun _ _ agree => { agree with memory := rfl }
    · exact .bind (.change fun _ _ agree => { agree with }) fun _ => .stop _

theorem fits_respects {bound value : Nat} : Respects (AgreeOff off) (fits bound value) :=
  .ite (fun _ => .pure _) fun _ => .stop _

theorem allocate_respects {length : Nat} : Respects (AgreeOff off) (allocate length) :=
  .ite (fun _ => .pure _) fun _ => .stop _

theorem giveUpFuel_respects : Respects (AgreeOff off) giveUpFuel :=
  .change fun _ _ agree => { agree with fuel := rfl }

theorem writeMemory_pure_respects {offset : Nat} {bytes : List UInt8} {outside ending : Ending} :
    Respects (AgreeOff off) (writeMemory offset bytes outside >>= fun _ => pure ending) :=
  .bind writeMemory_respects fun _ => .pure _

/-! ## Arguments and environment -/

theorem writeStrings_respects {strings : List (List UInt8)} {tablePtr bufPtr : Nat} :
    Respects (AgreeOff off) (writeStrings strings tablePtr bufPtr) := by
  induction strings generalizing tablePtr bufPtr with
  | nil => exact .pure _
  | cons string strings inductionHypothesis =>
      refine .bind ?_ fun pointers => inductionHypothesis
      refine .bind writeMemory_respects fun _ => ?_
      refine .bind fits_respects fun _ => ?_
      refine .bind writeMemory_respects fun _ => ?_
      exact .bind fits_respects fun _ => .pure _

theorem stringsGet_respects {select : WasiCtx -> List (List UInt8)} {table buf : UInt32}
    (same : forall one other, AgreeOff off one other -> select one.ctx = select other.ctx) :
    Respects (AgreeOff off) (stringsGet select table buf) := by
  refine .look (fun one other agree => ?_) fun _ => writeStrings_respects
  simp only [same one other agree]

theorem sumSizes_respects {strings : List (List UInt8)} {total : Nat} :
    Respects (AgreeOff off) (sumSizes strings total) := by
  induction strings generalizing total with
  | nil => exact .pure _
  | cons string strings inductionHypothesis =>
      refine .bind fits_respects fun size => ?_
      exact .bind fits_respects fun total => inductionHypothesis

theorem stringsSizesGet_respects {select : WasiCtx -> List (List UInt8)}
    {offset0 offset1 : UInt32}
    (same : forall one other, AgreeOff off one other -> select one.ctx = select other.ctx) :
    Respects (AgreeOff off) (stringsSizesGet select offset0 offset1) := by
  refine .look (fun one other agree => ?_) fun strings => ?_
  · simp only [same one other agree]
  · refine .bind sumSizes_respects fun size => ?_
    refine .bind writeMemory_respects fun _ => ?_
    exact writeMemory_pure_respects

/-! ## Reading and writing -/

theorem iovec_respects {ptr : Int32} {index : Nat} : Respects (AgreeOff off) (iovec ptr index) := by
  refine .bind fits_respects fun offset => ?_
  refine .bind fits_respects fun base => ?_
  refine .bind readMemory_respects fun bufAddr => ?_
  refine .bind fits_respects fun lenAddr => ?_
  exact .bind readMemory_respects fun bufLen => .pure _

theorem readStdin_respects {room : Nat} (apart : off ≠ 0) :
    Respects (AgreeOff off) (readStdin room) := by
  refine .look (fun one other agree => ?_) fun caller => ?_
  · simp only [id, (agree.stdin apart).1, (agree.stdin apart).2]
  · split
    · exact .stop _
    · split
      · refine .bind (.change fun _ _ agree => ?_) fun _ => .pure _
        exact { agree with stdin := fun _ => ⟨rfl, rfl⟩ }
      · refine .bind (.change fun _ _ agree => ?_) fun _ =>
          .bind giveUpFuel_respects fun _ => .stop _
        exact { agree with stdin := fun _ => ⟨rfl, rfl⟩, awaitingStdin := rfl }

theorem fdRead_respects {fd : UInt32} {iovPtr iovLen nreadPtr : Int32} (apart : fd.toInt32 ≠ off) :
    Respects (AgreeOff off) (fdRead fd iovPtr iovLen nreadPtr) := by
  refine .ite (fun _ => .pure _) fun zero => .bind ?_ fun _ => writeMemory_pure_respects
  have open0 : off ≠ 0 := fun same => apart (by rw [not_not.mp zero, same]; rfl)
  refine .loop (fun index totalRead => ?_) _ _ _
  refine .bind iovec_respects fun record => ?_
  refine .bind allocate_respects fun _ => ?_
  refine .bind (readStdin_respects open0) fun data => ?_
  refine .ite (fun _ => .pure _) fun _ => .bind fits_respects fun _ => ?_
  refine .bind writeMemory_respects fun _ => ?_
  exact .ite (fun _ => .pure _) fun _ => .pure _

theorem writable_agree {one other : Caller} (agree : AgreeOff off one other) {fd : Int32}
    (apart : fd ≠ off) : writable one.ctx fd = writable other.ctx fd := by
  unfold writable
  by_cases out : fd = 1
  · rw [if_pos out, if_pos out, (agree.stdout fun same => apart (out.trans same.symm)).1]
  · rw [if_neg out, if_neg out]
    by_cases err : fd = 2
    · rw [if_pos err, if_pos err, (agree.stderr fun same => apart (err.trans same.symm)).1]
    · rw [if_neg err, if_neg err]

theorem writeOut_respects {fd : Int32} {bytes : List UInt8} (apart : fd ≠ off) :
    Respects (AgreeOff off) (writeOut fd bytes) := by
  refine .look (fun one other agree => ?_) fun ctx => .ite (fun opened => ?_) fun _ => .stop _
  · simp only [writable_agree agree apart]
  · refine .ite (fun out => ?_) fun notOut => ?_
    · subst out
      refine .take (fun one other agree => ?_) fun one other agree => ?_
      · rw [(agree.stdout apart.symm).2]
      · exact { agree with
          stdout := fun _ => ⟨(agree.stdout apart.symm).1, by rw [(agree.stdout apart.symm).2]⟩ }
    · cases (writable_stream opened).resolve_left notOut
      refine .take (fun one other agree => ?_) fun one other agree => ?_
      · rw [(agree.stderr apart.symm).2]
      · exact { agree with
          stderr := fun _ => ⟨(agree.stderr apart.symm).1, by rw [(agree.stderr apart.symm).2]⟩ }

theorem fdWrite_respects {fd ciovPtr ciovLen nwritePtr : Int32} (apart : fd ≠ off) :
    Respects (AgreeOff off) (fdWrite fd ciovPtr ciovLen nwritePtr) := by
  refine .bind ?_ fun _ => writeMemory_pure_respects
  refine .loop (fun index totalWritten => ?_) _ _ _
  refine .bind iovec_respects fun record => ?_
  refine .bind allocate_respects fun _ => ?_
  refine .bind readMemory_respects fun bytes => ?_
  refine .bind (writeOut_respects apart) fun accepted => ?_
  refine .bind fits_respects fun _ => ?_
  exact .ite (fun _ => .pure _) fun _ => .pure _

/-! ## The others -/

theorem fdFdstatGet_respects {fd bufPtr : Int32} :
    Respects (AgreeOff off) (fdFdstatGet fd bufPtr) := by
  have ends {rights : Host Nat} (respects : Respects (AgreeOff off) rights) :
      Respects (AgreeOff off) (rights >>= fun rightsBase =>
        writeMemory (asUsize bufPtr) (fdstat rightsBase) (.errno .fault) >>= fun _ =>
          pure (Ending.errno .success)) :=
    .bind respects fun _ => writeMemory_pure_respects
  exact .ite (fun _ => ends (.pure _)) fun _ =>
    .ite (fun _ => ends (.pure _)) fun _ => ends (.stop _)

/-- Closing one descriptor does not depend on another. -/
theorem fdClose_respects {fd : Int32} (apart : fd ≠ off) :
    Respects (AgreeOff off) (fdClose fd) := by
  refine .ite (fun zero => ?_) fun _ => .ite (fun out => ?_) fun _ =>
    .ite (fun err => ?_) fun _ => .pure _
  · subst zero
    refine .bind (.change fun one other agree => ?_) fun _ => .pure _
    exact { agree with stdin := fun _ => ⟨rfl, (agree.stdin apart.symm).2⟩ }
  · subst out
    refine .bind (.change fun one other agree => ?_) fun _ => .pure _
    rcases agree.stdout apart.symm with ⟨writer, pipe⟩
    exact { agree with stdout := fun _ => ⟨rfl, by rw [writer, pipe]⟩ }
  · subst err
    refine .bind (.change fun one other agree => ?_) fun _ => .pure _
    rcases agree.stderr apart.symm with ⟨writer, pipe⟩
    exact { agree with stderr := fun _ => ⟨rfl, by rw [writer, pipe]⟩ }

theorem nowNanos_respects {platform : Platform} : Respects (AgreeOff off) (nowNanos platform) := by
  unfold nowNanos
  split
  · exact .pure _
  · exact .stop _

theorem clockTimeGet_respects {platform : Platform} {clockId resultPtr : Int32} :
    Respects (AgreeOff off) (clockTimeGet platform clockId resultPtr) :=
  .ite (fun _ => .bind nowNanos_respects fun _ => writeMemory_pure_respects) fun _ => .pure _

theorem randomGet_respects {platform : Platform} {bufPtr bufLen : Int32} :
    Respects (AgreeOff off) (randomGet platform bufPtr bufLen) := by
  refine .bind allocate_respects fun _ => ?_
  split
  · exact .pure _
  · exact writeMemory_pure_respects

theorem awaitDeadline_respects {platform : Platform} {now deadline : Nat} :
    Respects (AgreeOff off) (awaitDeadline platform now deadline) := by
  refine .ite (fun _ => .bind (.change fun _ _ agree => ?_) fun _ => giveUpFuel_respects)
    fun _ => .pure _
  exact { agree with sleepUntil := rfl }

theorem pollOneoff_respects {platform : Platform}
    {subsPtr eventsPtr nsubscriptions resultPtr : Int32} :
    Respects (AgreeOff off) (pollOneoff platform subsPtr eventsPtr nsubscriptions resultPtr) := by
  refine .ite (fun _ => .pure _) fun _ => .bind ?_ fun found => ?_
  · refine .loop (fun index found => ?_) _ _ _
    refine .bind fits_respects fun offset => ?_
    refine .bind fits_respects fun base => ?_
    refine .bind readMemory_respects fun bytes => ?_
    split <;> exact .pure _
  · cases found with
    | nil => exact .pure _
    | cons first others =>
        refine .bind nowNanos_respects fun now => ?_
        refine .bind awaitDeadline_respects fun _ => ?_
        refine .bind writeMemory_respects fun _ => ?_
        exact writeMemory_pure_respects

theorem procRaise_respects {sig : Int32} : Respects (AgreeOff off) (procRaise sig) :=
  .ite (fun _ => .pure _) fun _ => .ite (fun _ => .pure _) fun _ => .stop _

end Host

def HostCall.descriptor : HostCall -> Option Int32
  | .fdRead fd _ _ _ => some fd.toInt32
  | .fdFdstatGet fd _ => some fd
  | .fdWrite fd _ _ _ => some fd
  | .fdClose fd => some fd
  | _ => none

/-- A call that does not name a descriptor does not depend on it. -/
theorem HostCall.perform_respects {off : Int32} (platform : Platform) (call : HostCall)
    (apart : call.descriptor ≠ some off) {one other : Caller} (agree : AgreeOff off one other) :
    (call.perform platform one).1 = (call.perform platform other).1 ∧
      AgreeOff off (call.perform platform one).2 (call.perform platform other).2 := by
  have respects : Respects (AgreeOff off) (call.body platform) := by
    cases call with
    | argsGet => exact Host.stringsGet_respects fun _ _ agree => agree.args
    | environGet => exact Host.stringsGet_respects fun _ _ agree => agree.env
    | argsSizesGet => exact Host.stringsSizesGet_respects fun _ _ agree => agree.args
    | environSizesGet => exact Host.stringsSizesGet_respects fun _ _ agree => agree.env
    | fdRead => exact Host.fdRead_respects fun same => apart (congrArg some same)
    | fdFdstatGet => exact Host.fdFdstatGet_respects
    | fdWrite => exact Host.fdWrite_respects fun same => apart (congrArg some same)
    | clockTimeGet => exact Host.clockTimeGet_respects
    | fdClose => exact Host.fdClose_respects fun same => apart (congrArg some same)
    | randomGet => exact Host.randomGet_respects
    | schedYield => exact .bind Host.giveUpFuel_respects fun _ => .pure _
    | pollOneoff => exact Host.pollOneoff_respects
    | procRaise => exact Host.procRaise_respects
    | procExit => exact .pure _
  have clean : AgreeOff off { one with strayed := false } { other with strayed := false } :=
    { agree with }
  rcases respects _ _ clean with ⟨same, kept⟩
  unfold perform
  rcases first : call.body platform { one with strayed := false } with ⟨finish, after⟩
  rcases second : call.body platform { other with strayed := false } with ⟨finish', after'⟩
  rw [first, second] at same kept
  cases same
  cases finish <;> exact ⟨rfl, kept⟩

/-- Before and after a descriptor is closed the callers agree except for that
descriptor. -/
theorem HostCall.close_agrees (platform : Platform) (fd : Int32) (caller : Caller) :
    AgreeOff fd caller ((HostCall.fdClose fd).perform platform caller).2 := by
  apply (perform_wp platform (.fdClose fd) caller fun _ after => AgreeOff fd caller after).mpr
  have rest : AgreeOff fd caller { caller with strayed := false } :=
    ⟨rfl, rfl, rfl, rfl, rfl, rfl, fun _ => ⟨rfl, rfl⟩, fun _ => ⟨rfl, rfl⟩, fun _ => ⟨rfl, rfl⟩⟩
  simp only [HostCall.body, Host.fdClose, wp_ite, wp_bind, wp_change, wp_pure]
  split
  · next zero => exact { rest with stdin := fun other => absurd zero other }
  · split
    · next out => exact { rest with stdout := fun other => absurd out other }
    · split
      · next err => exact { rest with stderr := fun other => absurd err other }
      · exact rest

end Wasi
end WasmiPlugin
