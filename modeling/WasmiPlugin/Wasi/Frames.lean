import WasmiPlugin.Wasi.HostFunctions

namespace WasmiPlugin
namespace Wasi

open Foundation Program

/-!
# What a host function can do to its caller

A host function does a few things to the state: it writes to the memory, reads
from stdin or finds it empty, writes to stdout or stderr, and gives up the fuel.
Only `fd_close` drops a handle, and only `poll_oneoff` asks for a deadline.  A
preorder that allows all of the former is a frame condition of every function
but these two, and of these two as well if it allows what they do.
-/

variable [HostTarget]

/-- A preorder on callers that allows everything except closing a descriptor and
asking for a deadline. -/
structure Frame (relation : Caller -> Caller -> Prop) : Prop where
  refl : forall caller, relation caller caller
  trans : forall first second third, relation first second -> relation second third ->
    relation first third
  strayed : forall caller strayed, relation caller { caller with strayed := strayed }
  memory : forall caller memory, relation caller { caller with memory := memory }
  fuel : forall caller, relation caller { caller with fuel := 0 }
  stdin : forall caller reader room, caller.ctx.stdinReader = some reader ->
    relation caller { caller with
      ctx := { caller.ctx with stdinReader := some (reader.read caller.stdin room).2.1 }
      stdin := (reader.read caller.stdin room).2.2 }
  starved : forall caller reader room, caller.ctx.stdinReader = some reader ->
    relation caller { caller with
      ctx := { caller.ctx with
        stdinReader := some (reader.read caller.stdin room).2.1
        awaitingStdin := true }
      stdin := (reader.read caller.stdin room).2.2 }
  stdout : forall caller bytes, caller.ctx.stdoutWriter = true ->
    relation caller { caller with stdout := (caller.stdout.write bytes).2.2 }
  stderr : forall caller bytes, caller.ctx.stderrWriter = true ->
    relation caller { caller with stderr := (caller.stderr.write bytes).2.2 }

/-- The conditions of a frame that have nothing to do with reads of stdin. -/
structure StillFrame (relation : Caller -> Caller -> Prop) : Prop where
  refl : forall caller, relation caller caller
  trans : forall first second third, relation first second -> relation second third ->
    relation first third
  strayed : forall caller strayed, relation caller { caller with strayed := strayed }
  memory : forall caller memory, relation caller { caller with memory := memory }
  fuel : forall caller, relation caller { caller with fuel := 0 }
  stdout : forall caller bytes, caller.ctx.stdoutWriter = true ->
    relation caller { caller with stdout := (caller.stdout.write bytes).2.2 }
  stderr : forall caller bytes, caller.ctx.stderrWriter = true ->
    relation caller { caller with stderr := (caller.stderr.write bytes).2.2 }

variable {relation : Caller -> Caller -> Prop}

theorem Frame.still (frame : Frame relation) : StillFrame relation :=
  ⟨frame.refl, frame.trans, frame.strayed, frame.memory, frame.fuel, frame.stdout, frame.stderr⟩

namespace Host

section Still

variable (frame : StillFrame relation)
include frame

theorem readMemory_within {region : Region} {outside : Ending} :
    Within relation (readMemory region outside) := by
  refine .bind frame.trans (.look frame.refl _) fun caller => ?_
  split
  · exact .pure frame.refl _
  · exact .bind frame.trans (.change fun caller => frame.strayed caller true) fun _ =>
      .stop frame.refl _

theorem writeMemory_within {offset : Nat} {bytes : List UInt8} {outside : Ending} :
    Within relation (writeMemory offset bytes outside) := by
  refine .bind frame.trans (.look frame.refl _) fun caller => ?_
  split
  · exact .change fun caller => frame.memory caller _
  · exact .bind frame.trans (.change fun caller => frame.strayed caller true) fun _ =>
      .stop frame.refl _

theorem fits_within {bound value : Nat} : Within relation (fits bound value) :=
  .ite (.pure frame.refl _) (.stop frame.refl _)

theorem allocate_within {length : Nat} : Within relation (allocate length) :=
  .ite (.pure frame.refl _) (.stop frame.refl _)

theorem giveUpFuel_within : Within relation giveUpFuel :=
  .change frame.fuel

/-- A write to the memory is the last thing most functions do. -/
theorem writeMemory_pure_within {offset : Nat} {bytes : List UInt8} {outside ending : Ending} :
    Within relation (writeMemory offset bytes outside >>= fun _ => pure ending) :=
  .bind frame.trans (writeMemory_within frame) fun _ => .pure frame.refl _

/-! ## Arguments and environment -/

theorem writeStrings_within {strings : List (List UInt8)} {tablePtr bufPtr : Nat} :
    Within relation (writeStrings strings tablePtr bufPtr) := by
  induction strings generalizing tablePtr bufPtr with
  | nil => exact .pure frame.refl _
  | cons string strings inductionHypothesis =>
      refine .bind frame.trans ?_ fun pointers => inductionHypothesis
      refine .bind frame.trans (writeMemory_within frame) fun _ => ?_
      refine .bind frame.trans (fits_within frame) fun _ => ?_
      refine .bind frame.trans (writeMemory_within frame) fun _ => ?_
      exact .bind frame.trans (fits_within frame) fun _ => .pure frame.refl _

theorem stringsGet_within {select : WasiCtx -> List (List UInt8)} {table buf : UInt32} :
    Within relation (stringsGet select table buf) :=
  .bind frame.trans (.look frame.refl _) fun _ => writeStrings_within frame

theorem sumSizes_within {strings : List (List UInt8)} {total : Nat} :
    Within relation (sumSizes strings total) := by
  induction strings generalizing total with
  | nil => exact .pure frame.refl _
  | cons string strings inductionHypothesis =>
      refine .bind frame.trans (fits_within frame) fun size => ?_
      exact .bind frame.trans (fits_within frame) fun total => inductionHypothesis

theorem stringsSizesGet_within {select : WasiCtx -> List (List UInt8)}
    {offset0 offset1 : UInt32} :
    Within relation (stringsSizesGet select offset0 offset1) := by
  refine .bind frame.trans (.look frame.refl _) fun strings => ?_
  refine .bind frame.trans (sumSizes_within frame) fun size => ?_
  refine .bind frame.trans (writeMemory_within frame) fun _ => ?_
  exact writeMemory_pure_within frame

/-! ## Reading and writing -/

theorem iovec_within {ptr : Int32} {index : Nat} : Within relation (iovec ptr index) := by
  refine .bind frame.trans (fits_within frame) fun offset => ?_
  refine .bind frame.trans (fits_within frame) fun base => ?_
  refine .bind frame.trans (readMemory_within frame) fun bufAddr => ?_
  refine .bind frame.trans (fits_within frame) fun lenAddr => ?_
  exact .bind frame.trans (readMemory_within frame) fun bufLen => .pure frame.refl _

theorem writeOut_within {fd : Int32} {bytes : List UInt8} :
    Within relation (writeOut fd bytes) := by
  intro caller
  simp only [writeOut, Bind.bind, look]
  by_cases opened : writable caller.ctx fd = true
  · rw [if_pos opened]
    unfold writable at opened
    split at opened
    · next out =>
        rw [if_pos out]
        exact frame.stdout caller bytes opened
    · next notOut =>
        rw [if_neg notOut]
        split at opened
        · exact frame.stderr caller bytes opened
        · cases opened
  · rw [if_neg opened]
    exact frame.refl caller

theorem fdWrite_within {fd ciovPtr ciovLen nwritePtr : Int32} :
    Within relation (fdWrite fd ciovPtr ciovLen nwritePtr) := by
  refine .bind frame.trans ?_ fun _ => writeMemory_pure_within frame
  refine .loop frame.refl frame.trans (fun index totalWritten => ?_) _ _ _
  refine .bind frame.trans (iovec_within frame) fun record => ?_
  refine .bind frame.trans (allocate_within frame) fun _ => ?_
  refine .bind frame.trans (readMemory_within frame) fun bytes => ?_
  refine .bind frame.trans (writeOut_within frame) fun accepted => ?_
  refine .bind frame.trans (fits_within frame) fun _ => ?_
  exact .ite (.pure frame.refl _) (.pure frame.refl _)

/-! ## The others -/

theorem fdFdstatGet_within {fd bufPtr : Int32} : Within relation (fdFdstatGet fd bufPtr) := by
  have ends {rights : Host Nat} (within : Within relation rights) :
      Within relation (rights >>= fun rightsBase =>
        writeMemory (asUsize bufPtr) (fdstat rightsBase) (.errno .fault) >>= fun _ =>
          pure (Ending.errno .success)) :=
    .bind frame.trans within fun _ => writeMemory_pure_within frame
  exact .ite (ends (.pure frame.refl _))
    (.ite (ends (.pure frame.refl _)) (ends (.stop frame.refl _)))

theorem nowNanos_within {platform : Platform} : Within relation (nowNanos platform) := by
  unfold nowNanos
  split
  · exact .pure frame.refl _
  · exact .stop frame.refl _

theorem clockTimeGet_within {platform : Platform} {clockId resultPtr : Int32} :
    Within relation (clockTimeGet platform clockId resultPtr) :=
  .ite (.bind frame.trans (nowNanos_within frame) fun _ => writeMemory_pure_within frame)
    (.pure frame.refl _)

theorem randomGet_within {platform : Platform} {bufPtr bufLen : Int32} :
    Within relation (randomGet platform bufPtr bufLen) := by
  refine .bind frame.trans (allocate_within frame) fun _ => ?_
  split
  · exact .pure frame.refl _
  · exact writeMemory_pure_within frame

theorem procRaise_within {sig : Int32} : Within relation (procRaise sig) :=
  .ite (.pure frame.refl _) (.ite (.pure frame.refl _) (.stop frame.refl _))

/-- `poll_oneoff` stays within the frame if its request for a deadline does. -/
theorem pollOneoff_within {platform : Platform}
    {subsPtr eventsPtr nsubscriptions resultPtr : Int32}
    (sleeps : forall now deadline, Within relation (awaitDeadline platform now deadline)) :
    Within relation (pollOneoff platform subsPtr eventsPtr nsubscriptions resultPtr) := by
  refine .ite (.pure frame.refl _) (.bind frame.trans ?_ fun found => ?_)
  · refine .loop frame.refl frame.trans (fun index found => ?_) _ _ _
    refine .bind frame.trans (fits_within frame) fun offset => ?_
    refine .bind frame.trans (fits_within frame) fun base => ?_
    refine .bind frame.trans (readMemory_within frame) fun bytes => ?_
    split <;> exact .pure frame.refl _
  · cases found with
    | nil => exact .pure frame.refl _
    | cons first others =>
        refine .bind frame.trans (nowNanos_within frame) fun now => ?_
        refine .bind frame.trans (sleeps now _) fun _ => ?_
        refine .bind frame.trans (writeMemory_within frame) fun _ => ?_
        exact writeMemory_pure_within frame

end Still

/-! ## What the frame has to allow -/

variable (frame : Frame relation)
include frame

theorem readStdin_within {room : Nat} : Within relation (readStdin room) := by
  intro caller
  cases handle : caller.ctx.stdinReader with
  | none =>
      have unchanged : (readStdin room caller).2 = caller := by
        simp only [readStdin, Bind.bind, look, id, handle, stop]
      rw [unchanged]
      exact frame.refl caller
  | some reader =>
      have kept := frame.stdin caller reader room handle
      have starved := frame.starved caller reader room handle
      rcases outcome : reader.read caller.stdin room with ⟨result, after, pipe⟩
      rw [outcome] at kept starved
      cases result with
      | ok data =>
          have changed : (readStdin room caller).2 = { caller with
              ctx := { caller.ctx with stdinReader := some after }
              stdin := pipe } := by
            simp only [readStdin, Bind.bind, look, id, handle, outcome, change, Pure.pure]
          rw [changed]
          exact kept
      | wouldBlock =>
          have changed : (readStdin room caller).2 = { caller with
              ctx := { caller.ctx with stdinReader := some after, awaitingStdin := true }
              stdin := pipe
              fuel := 0 } := by
            simp only [readStdin, Bind.bind, look, id, handle, outcome, change, giveUpFuel, stop]
          rw [changed]
          exact frame.trans _ _ _ starved (frame.fuel _)

theorem fdRead_within {fd : UInt32} {iovPtr iovLen nreadPtr : Int32} :
    Within relation (fdRead fd iovPtr iovLen nreadPtr) := by
  refine .ite (.pure frame.refl _)
    (.bind frame.trans ?_ fun _ => writeMemory_pure_within frame.still)
  refine .loop frame.refl frame.trans (fun index totalRead => ?_) _ _ _
  refine .bind frame.trans (iovec_within frame.still) fun record => ?_
  refine .bind frame.trans (allocate_within frame.still) fun _ => ?_
  refine .bind frame.trans (readStdin_within frame) fun data => ?_
  refine .ite (.pure frame.refl _) (.bind frame.trans (fits_within frame.still) fun _ => ?_)
  refine .bind frame.trans (writeMemory_within frame.still) fun _ => ?_
  exact .ite (.pure frame.refl _) (.pure frame.refl _)

/-- `fd_close` stays within the frame if the loss of each handle does. -/
theorem fdClose_within {fd : Int32}
    (stdin : forall caller : Caller,
      relation caller { caller with ctx := { caller.ctx with stdinReader := none } })
    (stdout : forall (caller : Caller) pipe, relation caller { caller with
      ctx := { caller.ctx with stdoutWriter := false }
      stdout := pipe })
    (stderr : forall (caller : Caller) pipe, relation caller { caller with
      ctx := { caller.ctx with stderrWriter := false }
      stderr := pipe }) :
    Within relation (fdClose fd) := by
  refine .ite (.bind frame.trans (.change stdin) fun _ => .pure frame.refl _) ?_
  refine .ite (.bind frame.trans (.change fun _ => stdout _ _) fun _ => .pure frame.refl _) ?_
  exact .ite (.bind frame.trans (.change fun _ => stderr _ _) fun _ => .pure frame.refl _)
    (.pure frame.refl _)

/-- A request for a deadline stays within the frame if the field that takes it is free. -/
theorem awaitDeadline_within {platform : Platform} {now deadline : Nat}
    (asks : forall (caller : Caller) sleepUntil, relation caller { caller with
      ctx := { caller.ctx with sleepUntil := sleepUntil } }) :
    Within relation (awaitDeadline platform now deadline) :=
  .ite
    (.bind frame.trans (.change fun caller => asks caller _) fun _ =>
      giveUpFuel_within frame.still)
    (.pure frame.refl _)

end Host

/-- A call stays within a frame, provided what only it may do does. -/
theorem HostCall.perform_still (frame : StillFrame relation) (platform : Platform)
    (call : HostCall) (caller : Caller)
    (reads : forall fd iovPtr iovLen nreadPtr, call = .fdRead fd iovPtr iovLen nreadPtr ->
      Within relation (Host.fdRead fd iovPtr iovLen nreadPtr))
    (closes : forall fd, call = .fdClose fd -> Within relation (Host.fdClose fd))
    (sleeps : forall subsPtr eventsPtr nsubscriptions resultPtr,
      call = .pollOneoff subsPtr eventsPtr nsubscriptions resultPtr ->
      forall now deadline, Within relation (Host.awaitDeadline platform now deadline)) :
    relation caller (call.perform platform caller).2 := by
  have within : Within relation (call.body platform) := by
    cases call with
    | argsGet | environGet => exact Host.stringsGet_within frame
    | argsSizesGet | environSizesGet => exact Host.stringsSizesGet_within frame
    | fdRead => exact reads _ _ _ _ rfl
    | fdFdstatGet => exact Host.fdFdstatGet_within frame
    | fdWrite => exact Host.fdWrite_within frame
    | clockTimeGet => exact Host.clockTimeGet_within frame
    | fdClose fd => exact closes fd rfl
    | randomGet => exact Host.randomGet_within frame
    | schedYield =>
        exact .bind frame.trans (Host.giveUpFuel_within frame) fun _ => .pure frame.refl _
    | pollOneoff => exact Host.pollOneoff_within frame (sleeps _ _ _ _ rfl)
    | procRaise => exact Host.procRaise_within frame
    | procExit => exact .pure frame.refl _
  have done := within { caller with strayed := false }
  refine frame.trans _ _ _ (frame.strayed caller false) ?_
  unfold perform
  rcases outcome : call.body platform { caller with strayed := false } with ⟨finish, after⟩
  rw [outcome] at done
  cases finish <;> exact done

theorem HostCall.perform_within (frame : Frame relation) (platform : Platform) (call : HostCall)
    (caller : Caller)
    (closes : forall fd, call = .fdClose fd -> Within relation (Host.fdClose fd))
    (sleeps : forall subsPtr eventsPtr nsubscriptions resultPtr,
      call = .pollOneoff subsPtr eventsPtr nsubscriptions resultPtr ->
      forall now deadline, Within relation (Host.awaitDeadline platform now deadline)) :
    relation caller (call.perform platform caller).2 :=
  call.perform_still frame.still platform caller (fun _ _ _ _ _ => Host.fdRead_within frame) closes
    sleeps

end Wasi
end WasmiPlugin
