import WasmiPlugin.Rpc.WholeLines

namespace WasmiPlugin
namespace Rpc

open Foundation

/-!
# The reader's lock is never lost

The guard of the reader's lock lives as long as the `match` in `next_line`, which
includes the time in which a task yields.  A task that is dropped while it yields
drops the guard with it.  So in every run, with any number of calls and pumps and
whatever of them is dropped, the lock is held exactly by the task that yields.
There is at most one, and while some task is reading some task can be polled.
-/

/-- The lock is held by a task exactly when that task yields. -/
def LockSound (transport : Transport) : Prop :=
  forall task, transport.readerGuard = some task ↔
    Exists fun line => (transport.task task).phase = .yielding line

variable {text : JsonText} {before after : Transport}

theorem LockSound.awake (sound : LockSound before) (free : before.readerGuard = none)
    (task : TaskId) (line : List UInt8) : (before.task task).phase ≠ .yielding line := by
  intro yields
  have guard := (sound task).mpr ⟨line, yields⟩
  rw [free] at guard
  cases guard

theorem LockSound.alone (sound : LockSound before) {task other : TaskId} {line part : List UInt8}
    (yields : (before.task task).phase = .yielding line)
    (too : (before.task other).phase = .yielding part) : task = other := by
  have guard := (sound task).mpr ⟨line, yields⟩
  rw [(sound other).mpr ⟨part, too⟩] at guard
  exact (Option.some.inj guard).symm

/-- If only the task that was polled may yield, and it has the lock exactly if it
yields, then the lock is sound. -/
theorem LockSound.polled (task : TaskId)
    (others : forall other, other ≠ task -> forall line,
      (after.task other).phase ≠ .yielding line)
    (own : (after.readerGuard = some task ∧
        Exists fun line => (after.task task).phase = .yielding line) ∨
      after.readerGuard = none ∧ forall line, (after.task task).phase ≠ .yielding line) :
    LockSound after := by
  intro other
  by_cases this : other = task
  · subst this
    rcases own with ⟨guard, line, yields⟩ | ⟨free, awake⟩
    · exact ⟨fun _ => ⟨line, yields⟩, fun _ => guard⟩
    · refine ⟨fun guard => ?_, fun yields => ?_⟩
      · rw [free] at guard
        cases guard
      · exact absurd yields.choose_spec (awake _)
  · refine ⟨fun guard => ?_, fun yields => absurd yields.choose_spec (others other this _)⟩
    rcases own with ⟨same, _⟩ | ⟨free, _⟩
    · rw [same] at guard
      exact absurd (Option.some.inj guard).symm this
    · rw [free] at guard
      cases guard

/-- A poll leaves the lock with the task that was polled if that task yields, and free
otherwise. -/
theorem Transport.nextLine_lock (text : JsonText) (transport : Transport) (task : TaskId)
    (line : List UInt8) :
    ((transport.nextLine text task line).readerGuard = some task ∧
        Exists fun part => ((transport.nextLine text task line).task task).phase =
          .yielding part) ∨
      (transport.nextLine text task line).readerGuard = none ∧
        forall part, ((transport.nextLine text task line).task task).phase ≠ .yielding part := by
  unfold nextLine
  split
  · next rest _ =>
      refine .inr ⟨rfl, fun part => ?_⟩
      rw [setPhase_task]
      exact Phase.noConfusion
  · next read rest _ _ =>
      have frame := processLine_frame text
        { transport with reader := rest, readerGuard := none } task read
      exact .inr ⟨frame.2.1, frame.2.2⟩
  · next read rest _ => exact .inl ⟨rfl, read, by rw [setPhase_task]⟩
  · next rest _ =>
      refine .inr ⟨rfl, fun part => ?_⟩
      rw [setPhase_task]
      exact Phase.noConfusion

theorem LockSound.others_awake {task other : TaskId} (sound : LockSound before)
    (stepped : before.step text (.poll task) = some after) (different : other ≠ task)
    (line : List UInt8) : (before.task other).phase ≠ .yielding line := by
  intro yields
  simp only [Transport.step] at stepped
  split at stepped
  · split at stepped
    · next free => exact sound.awake free other line yields
    · cases stepped
  · next part holds => exact different (sound.alone yields holds)
  · cases stepped

theorem LockSound.step {action : TransportAction} (sound : LockSound before)
    (stepped : before.step text action = some after) : LockSound after := by
  cases step_moves stepped with
  | polls task =>
      rcases Transport.step_poll stepped with ⟨line, reading, same⟩
      refine .polled task (fun other different part => ?_) ?_
      · rw [Transport.step_other stepped fun acts => different (Option.some.inj acts).symm]
        exact sound.others_awake stepped different part
      · rw [same]
        exact Transport.nextLine_lock text before task line
  | drops task line yields same =>
      refine .polled task (fun other different part => ?_) (.inr ⟨?_, fun part => ?_⟩)
      · rw [Transport.step_other stepped fun acts => different (Option.some.inj acts).symm]
        exact fun too => different (sound.alone too yields)
      · rw [same]
        rfl
      · rw [same, Transport.setPhase_task]
        exact Phase.noConfusion
  | arrives delivery opened same =>
      rw [same]
      exact sound
  | hangsUp same =>
      rw [same]
      exact sound
  | stands _ _ _ guard awake =>
      intro task
      rw [guard, sound task]
      exact exists_congr fun line => (sameYields_of_actor stepped awake task line).symm

/-- A task that is reading can be polled when no other task yields. -/
theorem LockSound.pollable {task : TaskId} (sound : LockSound before)
    (reading : (before.task task).phase.partialLine ≠ none)
    (others : forall other, other ≠ task -> forall line,
      (before.task other).phase ≠ .yielding line) :
    (before.step text (.poll task)).isSome := by
  simp only [Transport.step]
  cases stands : (before.task task).phase with
  | awaitingReader =>
      have free : before.readerGuard = none := by
        cases guard : before.readerGuard with
        | none => rfl
        | some other =>
            rcases (sound other).mp guard with ⟨line, yields⟩
            by_cases this : other = task
            · rw [this, stands] at yields
              cases yields
            · exact absurd yields (others other this line)
      simp only [free, if_true, Option.isSome_some]
  | yielding line => rfl
  | idle | handling | answered | done | failed | dropped =>
      rw [stands] at reading
      exact absurd rfl reading

/-- In every run the lock is held exactly by the task that yields, and while some
task is reading some task can be polled. -/
theorem reader_lock_never_lost {history : List (Transition Transport TransportAction)}
    {final : Transport} {reader : LineReader} {handler : Bool}
    (run : Run (Transport.step text) (.new reader handler) history final) :
    (forall task, final.readerGuard = some task ↔
      Exists fun line => (final.task task).phase = .yielding line) ∧
    forall task, (final.task task).phase.partialLine ≠ none ->
      Exists fun other => (final.step text (.poll other)).isSome := by
  have sound : LockSound final := by
    refine (run.invariant LockSound (fun task => ?_) fun _ _ _ sound stepped =>
      sound.step stepped).1
    exact ⟨nofun, fun yields => nomatch yields.choose_spec⟩
  refine ⟨sound, fun task reading => ?_⟩
  by_cases held : Exists fun other => Exists fun line => (final.task other).phase = .yielding line
  · rcases held with ⟨other, line, yields⟩
    refine ⟨other, ?_⟩
    simp only [Transport.step, yields, Option.isSome_some]
  · exact ⟨task, sound.pollable reading fun other _ line yields => held ⟨other, line, yields⟩⟩

/-- A pump is dropped while it holds the lock and another waits for it. -/
def abandonedPump : List TransportAction :=
  [.processNextLine 1 false, .processNextLine 2 false, .poll 1, .drop 1]

theorem abandonedPump_enabled : (Run.play (Transport.step (compactText []))
    (.new ⟨[], [], false⟩ false) abandonedPump).isSome := by
  decide

theorem abandoned_pump_frees_lock :
    let final := ((Run.play (Transport.step (compactText [])) (.new ⟨[], [], false⟩ false)
      abandonedPump).get abandonedPump_enabled).2
    LockSound final ∧ Exists fun other =>
      (final.step (compactText []) (.poll other)).isSome :=
  have law := reader_lock_never_lost (Run.of_enabled abandonedPump abandonedPump_enabled)
  ⟨law.1, law.2 2 (by decide)⟩

end Rpc
end WasmiPlugin
