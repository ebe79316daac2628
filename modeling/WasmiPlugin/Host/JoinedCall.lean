import WasmiPlugin.Host.Logging
import WasmiPlugin.Host.PluginCall
import WasmiPlugin.Rpc.Toil
import WasmiPlugin.Wasi.Outputs

namespace WasmiPlugin
namespace Host

open Foundation Lines Rpc Wasi

/-!
# Polling a call of a plugin

`futures::join!` polls the transport's call, the guest and the logger in this
order, each of them to its next suspension, whenever the future of `Plugin::call`
is polled.  A future that has completed is not polled again, and the join is done
when all three are.

A round is one such poll.  What it depends on comes from outside: whether the
transport's yield is over, what the handlers return that return in it, and what
the guest does when it is given control.  The three futures meet in the pipes of
the guest's store only.
-/

/-! ## What arrives in a pipe -/

/-- Each time the reader looks into the pipe, it finds everything that is there as one
piece, or nothing. -/
theorem PluginCall.found_piece {buf : List UInt8} {delivery : Delivery}
    (listed : delivery ∈ if buf = [] then [] else [Delivery.ofBytes buf]) :
    delivery.bytes = buf ∧ delivery ≠ .failure ∧ delivery ≠ .wouldBlock := by
  cases buf with
  | nil => exact absurd listed List.not_mem_nil
  | cons first others =>
      rw [if_neg (List.cons_ne_nil _ _)] at listed
      rw [List.mem_singleton.mp listed]
      exact ⟨rfl, nofun, nofun⟩

theorem Progress.emits {stream : List UInt8} {task : StderrTask} {read : List (List UInt8)}
    (progress : Progress stream task read) {pipe : Pipe.Inner} (emits : Emits task.pipe pipe) :
    Progress (stream ++ pipe.buf.drop task.pipe.buf.length) { task with pipe := pipe } read := by
  rcases emits.appends with ⟨bytes, shape⟩
  rw [← shape, List.drop_left]
  cases closed : task.pipe.closed with
  | true =>
      rcases emits.closed closed with ⟨still, same⟩
      have none : bytes = [] := by
        rw [same] at shape
        exact List.append_right_eq_self.mp shape
      subst none
      rw [List.append_nil]
      refine ⟨?_, progress.going, fun done => ?_⟩
      · dsimp only
        rw [still, same, ← closed]
        exact progress.cut
      · dsimp only
        rw [still, same]
        have stopped := progress.done done
        rw [closed] at stopped
        exact stopped
  | false =>
      have cut := progress.cut
      rw [closed] at cut
      have arrived := cut.arrive bytes
      rw [List.append_assoc, shape] at arrived
      refine ⟨?_, progress.going, fun done => ?_⟩
      · dsimp only
        cases pipe.closed with
        | true => exact arrived.finish
        | false => exact arrived
      · rcases progress.done done with ⟨_, _, ended, _⟩ | stopped
        · rw [closed] at ended
          cases ended
        · exact .inr stopped

section Target

variable [HostTarget]

/-- `Plugin::call` as the join of three futures: the transport's call, the guest and
the logger. The logger reads from the stderr pipe that is in the guest's store. -/
structure JoinedCall where
  call : PluginCall
  logger : StderrTask

/-- What the runtime, the handlers and the guest contribute to one poll of the joined
futures. -/
structure Round where
  yielded : Bool
  results : List (Except RpcError Value)
  guest : Poll
  waker : Pipe.Waker

namespace PluginCall

def backlog (call : PluginCall) : Nat :=
  call.rpc.toil 0 + 3 * call.guest.store.stdout.buf.length

variable (text : JsonText)

/-- The transport's call runs on until it yields, waits for a handler or returns.
Results of handlers that it does not ask for are left over. -/
def drive : (fuel : Nat) -> List (Except RpcError Value) -> PluginCall ->
    PluginCall × List (Except RpcError Value)
  | 0, results, call => (call, results)
  | fuel + 1, results, call =>
      match (call.rpc.task 0).phase with
      | .awaitingReader =>
          match call.step text .rpc with
          | some next => drive fuel results next
          | none => (call, results)
      | .handling _ =>
          match results with
          | [] => (call, [])
          | result :: later =>
              match call.step text (.handlerReturns result true) with
              | some next => drive fuel later next
              | none => (call, results)
      | _ => (call, results)

/-- The transport's call begins with its request, or goes on after its yield. -/
def wakeRpc (method : String) (params : Value) (yielded : Bool) (call : PluginCall) : PluginCall :=
  match (call.rpc.task 0).phase with
  | .idle => (call.step text (.call method params true)).getD call
  | .yielding _ => if yielded then (call.step text .rpc).getD call else call
  | _ => call

/-- One poll of the transport's call. -/
def pollRpc (method : String) (params : Value) (round : Round) (call : PluginCall) :
    PluginCall × List (Except RpcError Value) :=
  let woken := call.wakeRpc text method params round.yielded
  woken.drive text woken.backlog round.results

end PluginCall

namespace JoinedCall

/-- The joined call right after `spawn_plugin`, when none of the three futures has
been polled. -/
def spawned (memory : GuestMemory) (maxFuel : Option Nat) : JoinedCall where
  call := .spawned { pluginStore with memory := memory } maxFuel
  logger := .spawned

def task (state : JoinedCall) : StderrTask :=
  { state.logger with pipe := state.call.guest.store.stderr }

def pollLogger (state : JoinedCall) (waker : Pipe.Waker) : JoinedCall :=
  if state.call.loggerDone then state
  else
    let polled := state.task.poll waker
    { call := { state.call with
        guest := { state.call.guest with
          store := { state.call.guest.store with stderr := polled.pipe } }
        loggerDone := polled.done }
      logger := polled }

variable (text : JsonText) (method : String) (params : Value)

/-- The joined call in the middle of a round, after the transport's call was polled. -/
def afterRpc (state : JoinedCall) (round : Round) : JoinedCall :=
  { state with call := (state.call.pollRpc text method params round).1 }

/-- The joined call in the middle of a round, after the guest was polled as well. -/
def afterGuest (state : JoinedCall) (round : Round) : JoinedCall :=
  let state := state.afterRpc text method params round
  { state with call := (state.call.step text (.guest round.guest)).getD state.call }

/-- One poll of the joined futures in the order of `join!`, and the end of
`Plugin::call` when all of them have completed. -/
def poll (state : JoinedCall) (round : Round) : JoinedCall :=
  let state := (state.afterGuest text method params round).pollLogger round.waker
  { state with call := (state.call.step text .join).getD state.call }

/-- The runtime polls `Plugin::call` until it has returned. -/
def step (state : JoinedCall) (round : Round) : Option JoinedCall :=
  if state.call.result.isSome then none else some (state.poll text method params round)

end JoinedCall

/-! ## What happens in a round -/

section Records

variable (text : JsonText) (method : String) (params : Value)

/-- What the guest appends to its stdout in one round. -/
def wroteStdout (taken : Transition JoinedCall Round) : List UInt8 :=
  (taken.before.afterGuest text method params taken.action).call.guest.store.stdout.buf.drop
    (taken.before.afterRpc text method params taken.action).call.guest.store.stdout.buf.length

/-- What the guest appends to its stderr in one round. -/
def wroteStderr (taken : Transition JoinedCall Round) : List UInt8 :=
  (taken.before.afterGuest text method params taken.action).call.guest.store.stderr.buf.drop
    (taken.before.afterRpc text method params taken.action).call.guest.store.stderr.buf.length

/-- The results of the handlers that returned in one round. -/
def handlersReturned (taken : Transition JoinedCall Round) : List (Except RpcError Value) :=
  let left := (taken.before.call.pollRpc text method params taken.action).2
  taken.action.results.take (taken.action.results.length - left.length)

/-- All that the guest has written to its stdout in a run. -/
def stdoutOf (history : List (Transition JoinedCall Round)) : List UInt8 :=
  history.flatMap (wroteStdout text method params)

/-- All that the guest has written to its stderr in a run. -/
def stderrOf (history : List (Transition JoinedCall Round)) : List UInt8 :=
  history.flatMap (wroteStderr text method params)

/-- All that the host's handlers have returned in a run, in order. -/
def resultsOf (history : List (Transition JoinedCall Round)) : List (Except RpcError Value) :=
  history.flatMap (handlersReturned text method params)

end Records

/-- With the store that it is given in a round the guest only computes and calls host
functions. -/
def GuestControls (taken : Transition JoinedCall Round) : Prop :=
  forall store, Controls store (taken.action.guest.slice store).1

/-! ## The transport's call -/

namespace PluginCall

variable {text : JsonText} {method : String} {params : Value}

/-- What holds of a call and the results that are left, and is kept by each step that
the transport's call takes, is kept while it runs on. -/
theorem drive_keeps (Kept : PluginCall -> List (Except RpcError Value) -> Prop)
    (reads : forall call next left, Kept call left -> call.step text .rpc = some next ->
      Kept next left)
    (returns : forall call next result left, Kept call (result :: left) ->
      call.step text (.handlerReturns result true) = some next -> Kept next left)
    (fuel : Nat) {results : List (Except RpcError Value)} {call : PluginCall}
    (start : Kept call results) :
    Kept (call.drive text fuel results).1 (call.drive text fuel results).2 := by
  induction fuel generalizing call results with
  | zero => exact start
  | succ fuel inductionHypothesis =>
      unfold drive
      split
      · split
        · next next moved => exact inductionHypothesis (reads call next results start moved)
        · exact start
      · split
        · exact start
        · split
          · next result later _ next moved =>
              exact inductionHypothesis (returns call next result later start moved)
          · exact start
      · exact start

theorem pollRpc_keeps (Kept : PluginCall -> List (Except RpcError Value) -> Prop)
    (begins : forall call next left, Kept call left ->
      call.step text (.call method params true) = some next -> Kept next left)
    (reads : forall call next left, Kept call left -> call.step text .rpc = some next ->
      Kept next left)
    (returns : forall call next result left, Kept call (result :: left) ->
      call.step text (.handlerReturns result true) = some next -> Kept next left)
    (round : Round) {call : PluginCall} (start : Kept call round.results) :
    Kept (call.pollRpc text method params round).1 (call.pollRpc text method params round).2 := by
  refine drive_keeps Kept reads returns _ ?_
  have stepped {action : PluginAction} (kept : forall next, call.step text action = some next ->
      Kept next round.results) : Kept ((call.step text action).getD call) round.results := by
    cases moved : call.step text action with
    | none => exact start
    | some next => exact kept next moved
  unfold wakeRpc
  split
  · exact stepped fun next moved => begins call next _ start moved
  · split
    · exact stepped fun next moved => reads call next _ start moved
    · exact start
  · exact start

theorem feed_ahead (call : PluginCall) : call.feed.rpc.reader.ahead =
    call.rpc.reader.ahead ++ call.guest.store.stdout.buf := by
  have bytes : forall buf : List UInt8,
      (if buf = [] then [] else [Delivery.ofBytes buf]).flatMap Delivery.bytes = buf := by
    intro buf
    cases buf with
    | nil => rfl
    | cons first others => exact List.append_nil _
  simp only [feed, LineReader.ahead, List.flatMap_append, List.append_assoc, bytes]

/-- A step of the transport's call moves what is in the stdout pipe into the reader,
and leaves everything else of the guest but its stdin alone. -/
structure RpcMoved (text : JsonText) (action : TransportAction) (before after : PluginCall) :
    Prop where
  stepped : before.feed.rpc.step text action = some after.rpc
  drained : after.guest.store.stdout = { before.guest.store.stdout with buf := [] }
  stderr : after.guest.store.stderr = before.guest.store.stderr
  ctx : after.guest.store.ctx = before.guest.store.ctx
  waiting : after.guest.waiting = before.guest.waiting
  logger : after.loggerDone = before.loggerDone
  result : after.result = before.result
  isRunning : after.isRunning = before.isRunning

theorem rpcStep_moved {action : TransportAction} {before after : PluginCall}
    (stepped : before.rpcStep text action = some after) : RpcMoved text action before after := by
  rcases Option.map_eq_some_iff.mp stepped with ⟨rpc, moved, rfl⟩
  exact ⟨moved, rfl, rfl, rfl, rfl, rfl, rfl, rfl⟩

/-- A poll of the transport's call may write to the guest's stdin and empty its
stdout. It leaves the state of the guest's future, its context and its stderr alone,
and whether its stdout is closed. -/
structure RpcPolled (before after : PluginCall) : Prop where
  closed : after.guest.store.stdout.closed = before.guest.store.stdout.closed
  stderr : after.guest.store.stderr = before.guest.store.stderr
  ctx : after.guest.store.ctx = before.guest.store.ctx
  waiting : after.guest.waiting = before.guest.waiting
  logger : after.loggerDone = before.loggerDone
  result : after.result = before.result
  isRunning : after.isRunning = before.isRunning

theorem pollRpc_frame (text : JsonText) (method : String) (params : Value) (round : Round)
    (call : PluginCall) : RpcPolled call (call.pollRpc text method params round).1 := by
  have extend {next later : PluginCall} {action : TransportAction} (polled : RpcPolled call next)
      (stepped : next.rpcStep text action = some later) : RpcPolled call later := by
    have moved := rpcStep_moved stepped
    refine ⟨?_, moved.stderr.trans polled.stderr, moved.ctx.trans polled.ctx,
      moved.waiting.trans polled.waiting, moved.logger.trans polled.logger,
      moved.result.trans polled.result, moved.isRunning.trans polled.isRunning⟩
    rw [moved.drained]
    exact polled.closed
  exact pollRpc_keeps (fun next _ => RpcPolled call next)
    (fun _ _ _ polled stepped => extend polled stepped)
    (fun _ _ _ polled stepped => extend polled stepped)
    (fun _ _ _ _ polled stepped => extend polled stepped) round
    ⟨rfl, rfl, rfl, rfl, rfl, rfl, rfl⟩

end PluginCall

/-! ## The guest -/

namespace PluginInstance

/-- When the store is dropped at the end of `run_wasm`, the writers of the guest's
outputs go with it. -/
theorem finish_outputs (guest : PluginInstance) (result : Except RunError PUnit) :
    Outputs guest.store (guest.finish result).store := by
  intro attached
  refine ⟨⟨?_, ?_⟩, ?_, ?_⟩
  · cases present : guest.store.ctx.stdoutWriter with
    | true => simp only [finish, present, if_true, Pipe.Inner.dropWriter, Bool.not_false]
    | false =>
        simp only [finish, present, Bool.false_eq_true, if_false, Bool.not_false]
        exact attached.stdout.trans (by rw [present]; rfl)
  · cases present : guest.store.ctx.stderrWriter with
    | true => simp only [finish, present, if_true, Pipe.Inner.dropWriter, Bool.not_false]
    | false =>
        simp only [finish, present, Bool.false_eq_true, if_false, Bool.not_false]
        exact attached.stderr.trans (by rw [present]; rfl)
  · dsimp only [finish]
    split
    · exact .dropWriter _
    · exact .refl _
  · dsimp only [finish]
    split
    · exact .dropWriter _
    · exact .refl _

theorem awaitStdin_outputs (guest : PluginInstance) :
    Outputs guest.store guest.awaitStdin.store := by
  unfold awaitStdin
  split
  · have kept : forall (ctx : WasiCtx) (pipe : Pipe.Inner),
        (ctx.stdinAvailable pipe).2.1.stdoutWriter = ctx.stdoutWriter ∧
          (ctx.stdinAvailable pipe).2.1.stderrWriter = ctx.stderrWriter := by
      intro ctx pipe
      unfold WasiCtx.stdinAvailable
      split
      · exact ⟨rfl, rfl⟩
      · split <;> exact ⟨rfl, rfl⟩
    exact .of_same (kept _ _).1 (kept _ _).2 rfl rfl
  · exact .of_same rfl rfl rfl rfl

theorem wake_outputs (guest : PluginInstance) : Outputs guest.store guest.wake.awaitStdin.store :=
  have kept : Outputs guest.store guest.wake.store := .of_same rfl rfl rfl rfl
  kept.trans guest.wake.awaitStdin_outputs

theorem awaitDeadline_outputs (guest : PluginInstance) (now : Nat) :
    Outputs guest.store (guest.awaitDeadline now).store := by
  unfold awaitDeadline
  split
  · split
    · exact .of_same rfl rfl rfl rfl
    · exact guest.wake_outputs
  · exact guest.awaitStdin_outputs

theorem dispatch_outputs (guest : PluginInstance) (isRunning : Bool) (now : Nat)
    (resumable : ResumableCall) :
    Outputs guest.store (guest.dispatch isRunning now resumable).store := by
  cases resumable with
  | finished | hostTrap => exact guest.finish_outputs _
  | outOfFuel requiredFuel =>
      unfold dispatch
      dsimp only
      split
      · have fuelled : Outputs guest.store
            { guest.store with fuel := max requiredFuel guest.maxFuel } := .of_same rfl rfl rfl rfl
        exact fuelled.trans (awaitDeadline_outputs { guest with store := _ } now)
      · exact guest.finish_outputs _

/-- Giving control to the guest changes the outputs as the slice does, and drops them
if the slice ends the guest. -/
theorem run_outputs (guest : PluginInstance) (isRunning : Bool) (poll : Poll) (failure : RunError)
    (controls : forall store, Controls store (poll.slice store).1) :
    Outputs guest.store (guest.run isRunning poll failure).store := by
  have wrote := (controls guest.store).outputs
  unfold run
  split
  · next store resumable same =>
      rw [same] at wrote
      exact wrote.trans
        (dispatch_outputs { guest with store := store } isRunning poll.now resumable)
  · next store _ same =>
      rw [same] at wrote
      exact wrote.trans (finish_outputs { guest with store := store } _)

theorem poll_outputs (guest : PluginInstance) (isRunning : Bool) (poll : Poll)
    (controls : forall store, Controls store (poll.slice store).1) :
    Outputs guest.store (guest.poll isRunning poll).store := by
  unfold PluginInstance.poll
  split
  · have unfuelled : Outputs guest.store { guest.store with fuel := 0 } := .of_same rfl rfl rfl rfl
    exact unfuelled.trans (run_outputs { guest with store := _ } isRunning poll _ controls)
  · split
    · exact guest.wake_outputs
    · exact .of_same rfl rfl rfl rfl
  · split
    · exact .of_same rfl rfl rfl rfl
    · exact .of_same rfl rfl rfl rfl
  · split
    · exact guest.run_outputs isRunning poll _ controls
    · exact .of_same rfl rfl rfl rfl
  · exact .of_same rfl rfl rfl rfl

/-- A guest whose future has completed has no writer of an output any more. -/
def WritersGone (guest : PluginInstance) : Prop :=
  guest.waiting.isEnded = true ->
    guest.store.ctx.stdoutWriter = false ∧ guest.store.ctx.stderrWriter = false

theorem run_writersGone (guest : PluginInstance) (isRunning : Bool) (poll : Poll)
    (failure : RunError) : (guest.run isRunning poll failure).WritersGone := by
  intro ended
  unfold run at ended ⊢
  split
  · next store resumable same =>
      simp only [same] at ended
      cases resumable with
      | finished | hostTrap => exact ⟨rfl, rfl⟩
      | outOfFuel requiredFuel =>
          unfold dispatch at ended ⊢
          dsimp only at ended ⊢
          split
          · next running =>
              rw [if_pos running] at ended
              unfold awaitDeadline at ended
              split at ended
              · split at ended
                · cases ended
                · rw [awaitStdin_isEnded] at ended
                  cases ended
              · rw [awaitStdin_isEnded] at ended
                cases ended
          · exact ⟨rfl, rfl⟩
  · exact ⟨rfl, rfl⟩

theorem WritersGone.poll {guest : PluginInstance} (gone : guest.WritersGone) (isRunning : Bool)
    (poll : Poll) : (guest.poll isRunning poll).WritersGone := by
  intro ended
  cases waits : guest.waiting.isEnded with
  | true =>
      rw [poll_ended waits]
      exact gone waits
  | false =>
      rcases poll_control (ends_after_control waits ended) isRunning with ⟨failure, _, same⟩
      rw [same] at ended ⊢
      exact run_writersGone _ isRunning poll failure ended

end PluginInstance

namespace PluginCall

variable (text : JsonText)

/-- What a poll of the guest does to the joined call. The outputs change as a guest
can change them, and a guest that has ended is not polled, so that nothing changes at
all. -/
structure GuestPolled (poll : Poll) (before after : PluginCall) : Prop where
  outputs : (forall store, Controls store (poll.slice store).1) ->
    Outputs before.guest.store after.guest.store
  gone : before.guest.WritersGone -> after.guest.WritersGone
  ended : before.guest.waiting.isEnded = true -> after = before
  rpc : after.rpc = before.rpc
  logger : after.loggerDone = before.loggerDone
  result : after.result = before.result

theorem guest_polled (call : PluginCall) (poll : Poll) :
    GuestPolled poll call ((call.step text (.guest poll)).getD call) := by
  simp only [step]
  split
  · next ended =>
      exact ⟨fun _ => .of_same rfl rfl rfl rfl, id, fun _ => rfl, rfl, rfl, rfl⟩
  · next waits =>
      exact ⟨call.guest.poll_outputs _ poll, fun gone => gone.poll _ poll,
        fun ended => absurd ended waits, rfl, rfl, rfl⟩

/-- The join changes nothing but the result and the flag. -/
structure Joined (before after : PluginCall) : Prop where
  guest : after.guest = before.guest
  rpc : after.rpc = before.rpc
  logger : after.loggerDone = before.loggerDone
  result : before.result = none -> forall result, after.result = some result ↔
    before.resolved = some result ∧ before.guest.waiting.isEnded = true ∧
      before.loggerDone = true

theorem joined (call : PluginCall) : Joined call ((call.step text .join).getD call) := by
  simp only [step]
  split
  · next response resolved ended done fresh =>
      refine ⟨rfl, rfl, rfl, fun _ result => ?_⟩
      simp only [Option.getD_some, Option.some.injEq, resolved, ended, done, and_self, and_true]
  · next error resolved ended done fresh =>
      refine ⟨rfl, rfl, rfl, fun _ result => ?_⟩
      simp only [Option.getD_some, Option.some.injEq, resolved, ended, done, and_self, and_true]
  · next notDone failed =>
      refine ⟨rfl, rfl, rfl, fun fresh result => ?_⟩
      rw [Option.getD_none, fresh]
      refine iff_of_false (Option.some_ne_none result).symm ?_
      rintro ⟨resolved, ended, done⟩
      cases result with
      | ok response => exact notDone response resolved ended done fresh
      | error error => exact failed error resolved ended done fresh

end PluginCall

/-! ## The log -/

/-- The log holds what the guest has written to its stderr, as far as the logger has
read it. -/
structure Logs (written : List UInt8) (state : JoinedCall) : Prop where
  attached : Attached state.call.guest.store
  gone : state.call.guest.WritersGone
  done : state.call.loggerDone = state.logger.done
  progress : Exists fun read => Progress written state.task read

namespace JoinedCall

variable {text : JsonText} {method : String} {params : Value}

/-- A logger that is not done has read everything there is and waits for more. -/
def Rests (state : JoinedCall) : Prop :=
  state.call.loggerDone = true ∨ Exists fun waker => state.task.Idle waker

/-- A poll of the logger leaves the transport's call, the guest's stdout and the state
of its future alone, and a logger that is done stays done. -/
structure LoggerPolled (before after : JoinedCall) : Prop where
  rpc : after.call.rpc = before.call.rpc
  stdout : after.call.guest.store.stdout = before.call.guest.store.stdout
  closed : after.call.guest.store.stderr.closed = before.call.guest.store.stderr.closed
  ctx : after.call.guest.store.ctx = before.call.guest.store.ctx
  waiting : after.call.guest.waiting = before.call.guest.waiting
  result : after.call.result = before.call.result
  done : before.call.loggerDone = true -> after.call.loggerDone = true

theorem pollLogger_frame (state : JoinedCall) (waker : Pipe.Waker) :
    LoggerPolled state (state.pollLogger waker) := by
  unfold pollLogger
  split
  · exact ⟨rfl, rfl, rfl, rfl, rfl, rfl, id⟩
  · next going =>
      exact ⟨rfl, rfl, state.task.turns_closed _, rfl, rfl, rfl, fun done => absurd done going⟩

theorem step_fresh {state next : JoinedCall} {round : Round}
    (stepped : state.step text method params round = some next) :
    state.call.result = none := by
  unfold step at stepped
  split at stepped
  · cases stepped
  · next fresh => exact Option.not_isSome_iff_eq_none.mp fresh

/-- The logger and the join leave the transport, the guest and its stdout as they
are. -/
structure RoundEnds (between after : JoinedCall) : Prop where
  rpc : after.call.rpc = between.call.rpc
  stdout : after.call.guest.store.stdout = between.call.guest.store.stdout
  waiting : after.call.guest.waiting = between.call.guest.waiting
  done : between.call.loggerDone = true -> after.call.loggerDone = true

theorem step_frame {state next : JoinedCall} {round : Round}
    (stepped : state.step text method params round = some next) :
    RoundEnds (state.afterGuest text method params round) next := by
  have fresh := step_fresh stepped
  unfold step at stepped
  rw [fresh] at stepped
  cases stepped
  have logged := (state.afterGuest text method params round).pollLogger_frame round.waker
  have joined :=
    ((state.afterGuest text method params round).pollLogger round.waker).call.joined text
  refine ⟨joined.rpc.trans logged.rpc, ?_, ?_, fun done => joined.logger.trans (logged.done done)⟩
  · dsimp only [poll]
    rw [joined.guest]
    exact logged.stdout
  · dsimp only [poll]
    rw [joined.guest]
    exact logged.waiting

/-- After a poll there is a result exactly if all three futures have completed, and
then it is that of the transport's call. -/
theorem step_result {state next : JoinedCall} {round : Round}
    (stepped : state.step text method params round = some next)
    (result : Except RpcError RpcResponse) :
    next.call.result = some result ↔ next.call.resolved = some result ∧
      next.call.guest.waiting.isEnded = true ∧ next.call.loggerDone = true := by
  have fresh := step_fresh stepped
  unfold step at stepped
  rw [fresh] at stepped
  cases stepped
  have frame := PluginCall.pollRpc_frame text method params round state.call
  have controlled := (state.afterRpc text method params round).call.guest_polled text round.guest
  have logged := (state.afterGuest text method params round).pollLogger_frame round.waker
  have joined :=
    ((state.afterGuest text method params round).pollLogger round.waker).call.joined text
  have still := logged.result.trans (controlled.result.trans (frame.result.trans fresh))
  dsimp only [poll]
  rw [joined.result still result, joined.guest, joined.logger, PluginCall.resolved,
    PluginCall.resolved, joined.rpc]

private theorem logs_spawned (memory : GuestMemory) (maxFuel : Option Nat) :
    Logs [] (spawned memory maxFuel) := by
  refine ⟨⟨rfl, rfl⟩, nofun, rfl, [], .start false [], fun _ => ⟨?_, rfl⟩, nofun⟩
  exact fun _ listed => absurd listed List.not_mem_nil

private theorem logs_afterRpc {written : List UInt8} {state : JoinedCall}
    (logs : Logs written state) (round : Round) :
    Logs written (state.afterRpc text method params round) := by
  have polled := PluginCall.pollRpc_frame text method params round state.call
  have attached := logs.attached
  refine ⟨⟨?_, ?_⟩, fun ended => ?_, polled.logger.trans logs.done, ?_⟩
  · dsimp only [afterRpc]
    rw [polled.closed, polled.ctx]
    exact attached.stdout
  · dsimp only [afterRpc]
    rw [polled.stderr, polled.ctx]
    exact attached.stderr
  · dsimp only [afterRpc] at ended ⊢
    rw [polled.ctx]
    exact logs.gone (polled.waiting ▸ ended)
  · have same : (state.afterRpc text method params round).task = state.task := by
      simp only [task, afterRpc, polled.stderr]
    rw [same]
    exact logs.progress

private theorem logs_afterGuest {written : List UInt8} {state : JoinedCall} {round : Round}
    (logs : Logs written (state.afterRpc text method params round))
    (controls : forall store, Controls store (round.guest.slice store).1) :
    Logs (written ++
        (state.afterGuest text method params round).call.guest.store.stderr.buf.drop
          (state.afterRpc text method params round).call.guest.store.stderr.buf.length)
      (state.afterGuest text method params round) := by
  have polled := (state.afterRpc text method params round).call.guest_polled text round.guest
  rcases polled.outputs controls logs.attached with ⟨attached, _, stderr⟩
  rcases logs.progress with ⟨read, progress⟩
  exact ⟨attached, polled.gone logs.gone, polled.logger.trans logs.done, read,
    progress.emits stderr⟩

private theorem logs_pollLogger {written : List UInt8} {state : JoinedCall}
    (logs : Logs written state) (waker : Pipe.Waker) :
    Logs written (state.pollLogger waker) ∧ (state.pollLogger waker).Rests := by
  have frame := state.pollLogger_frame waker
  have attached : Attached (state.pollLogger waker).call.guest.store := by
    constructor
    · rw [frame.stdout, frame.ctx]
      exact logs.attached.stdout
    · rw [frame.closed, frame.ctx]
      exact logs.attached.stderr
  have gone : (state.pollLogger waker).call.guest.WritersGone := by
    intro ended
    rw [frame.ctx]
    exact logs.gone (frame.waiting ▸ ended)
  unfold pollLogger at attached gone ⊢
  cases done : state.call.loggerDone with
  | true =>
      rw [if_pos rfl]
      exact ⟨logs, .inl done⟩
  | false =>
      rw [done, if_neg Bool.false_ne_true] at attached gone
      rw [if_neg Bool.false_ne_true]
      rcases logs.progress with ⟨read, progress⟩
      have polled := turns_progress progress (List.replicate state.task.remaining waker)
      refine ⟨⟨attached, gone, rfl, polled⟩, ?_⟩
      exact (state.task.poll_rests waker).imp id fun idle => ⟨waker, idle⟩

private theorem logs_join {written : List UInt8} {state : JoinedCall}
    (logs : Logs written state) (rests : state.Rests) :
    let joined : JoinedCall :=
      { state with call := (state.call.step text .join).getD state.call }
    Logs written joined ∧ joined.Rests := by
  have joined := state.call.joined text
  have same : task { state with call := (state.call.step text .join).getD state.call } =
      state.task := by
    simp only [task, joined.guest]
  refine ⟨⟨?_, ?_, joined.logger.trans logs.done, ?_⟩, ?_⟩
  · dsimp only
    rw [joined.guest]
    exact logs.attached
  · dsimp only
    rw [joined.guest]
    exact logs.gone
  · rw [same]
    exact logs.progress
  · unfold Rests
    rw [same]
    dsimp only
    rw [joined.logger]
    exact rests

private theorem logs_round {written : List UInt8} {state next : JoinedCall} {round : Round}
    (logs : Logs written state) (controls : GuestControls ⟨state, round, next⟩)
    (stepped : state.step text method params round = some next) :
    Logs (written ++ wroteStderr text method params ⟨state, round, next⟩) next ∧ next.Rests := by
  unfold step at stepped
  split at stepped
  · cases stepped
  · cases stepped
    have polled : Logs written (state.afterRpc text method params round) := logs_afterRpc logs round
    rcases logs_pollLogger (logs_afterGuest polled controls) round.waker with ⟨logged, rests⟩
    exact logs_join logged rests

/-- A guest that has ended has dropped its end of the pipe, so a logger that was
polled after that is done. -/
theorem logs_ended {written : List UInt8} {state : JoinedCall}
    (logs : Logs written state) (rests : state.Rests)
    (ended : state.call.guest.waiting.isEnded = true) : state.call.loggerDone = true := by
  rcases rests with done | ⟨waker, idle⟩
  · exact done
  · have opened := idle.opened
    have closed := logs.attached.stderr
    rw [(logs.gone ended).2] at closed
    rw [task, closed] at opened
    cases opened

private theorem logs_complete {written : List UInt8} {state : JoinedCall}
    (logs : Logs written state) (rests : state.Rests) (going : state.call.loggerDone = false) :
    AllValid (completeLines written) ∧
      state.logger.logged = (completeLines written).map trimEnd := by
  rcases rests with done | ⟨waker, idle⟩
  · rw [going] at done
    cases done
  · rcases logs.progress with ⟨read, progress⟩
    have cut := progress.cut
    rw [idle.opened, idle.buffer, idle.drained] at cut
    rw [cut.completeLines]
    exact progress.going idle.going

theorem logs_run {memory : GuestMemory} {maxFuel : Option Nat}
    {history : List (Transition JoinedCall Round)} {final : JoinedCall}
    (run : Run (step text method params) (.spawned memory maxFuel) history final)
    (controls : forall taken, taken ∈ history -> GuestControls taken) :
    Logs (stderrOf text method params history) final ∧ (history ≠ [] -> final.Rests) := by
  refine (run.throughout
    (fun history state => Logs (stderrOf text method params history) state ∧
      (history ≠ [] -> state.Rests)) GuestControls ?_ controls ?_).1
  · exact ⟨logs_spawned memory maxFuel, fun some => absurd rfl some⟩
  · intro earlier state round next holds stepped guest
    have round := logs_round holds.1 guest stepped
    rw [stderrOf, List.flatMap_append, List.flatMap_singleton, ← stderrOf]
    exact ⟨round.1, fun _ => round.2⟩

/-- The join polls the logger after the guest, so it never leaves anything behind.
While it goes on, every line that the guest has completed was logged, and it is done
after the poll in which the guest ends.  When it is done it has logged every line
exactly if every line is UTF-8. -/
theorem joined_log_is_complete {memory : GuestMemory} {maxFuel : Option Nat}
    {history : List (Transition JoinedCall Round)} {final : JoinedCall}
    (run : Run (step text method params) (.spawned memory maxFuel) history final)
    (controls : forall taken, taken ∈ history -> GuestControls taken) (polled : history ≠ [])
    {written : List UInt8} (wrote : written = stderrOf text method params history) :
    (final.call.guest.waiting.isEnded = true -> final.call.loggerDone = true) ∧
      (final.call.loggerDone = true ->
        (LogsEveryLine written final.logger.logged ↔ AllValid (split written))) ∧
      (final.call.loggerDone = false -> AllValid (completeLines written) ∧
        final.logger.logged = (completeLines written).map trimEnd) := by
  rcases logs_run run controls with ⟨logs, rests⟩
  have rests := rests polled
  subst wrote
  refine ⟨logs_ended logs rests, fun done => ?_, logs_complete logs rests⟩
  rcases logs.progress with ⟨read, progress⟩
  have whole := logged_iff progress (logs.done.symm.trans done)
  exact whole

end JoinedCall

end Target

/-! ### A guest that greets -/

/-- A slice in which the guest writes some text, which is in its memory behind the
record that describes it, to one of its outputs and gives control back. -/
def tells (fd : Int32) (text : List UInt8) (resumable : ResumableCall) : Poll where
  ready := true
  now := 0
  slice := fun store =>
    (((HostCall.fdWrite fd 0 1 8).perform ⟨none, 0, none⟩ { store with
      memory := onePage fun address =>
        ([16, 0, 0, 0, text.length.toUInt8, 0, 0, 0, 0, 0, 0, 0, 0, 0, 0, 0] ++ text).getD
          address 0 }).2, .ok resumable)

theorem tells_after (fd : Int32) (text : List UInt8) (resumable : ResumableCall)
    {given store : Caller} (controls : Controls given store) :
    Controls given ((tells fd text resumable).slice store).1 := by
  dsimp only [tells]
  exact .calls _ (.fdWrite fd 0 1 8) (.computes _ store.fuel controls)

theorem tells_controls (fd : Int32) (text : List UInt8) (resumable : ResumableCall)
    (store : Caller) : Controls store ((tells fd text resumable).slice store).1 :=
  tells_after fd text resumable .idles

/-- The round in which the guest says hi to its stderr and ends without an answer to
the call. -/
def greeting : List Round :=
  [⟨false, [], tells 2 [0x68, 0x69, 0x0A] .finished, 0⟩,
    ⟨true, [], tells 2 [] .finished, 0⟩]

theorem greeting_enabled : (Run.play (JoinedCall.step replyText "first" .null)
    (.spawned pluginStore.memory none) greeting).isSome := by
  decide

/-- The greeting of a guest that ends right after it is logged. -/
theorem greeting_is_logged :
    let played := (Run.play (JoinedCall.step replyText "first" .null)
      (.spawned pluginStore.memory none) greeting).get greeting_enabled
    (played.2.call.guest.waiting.isEnded = true -> played.2.call.loggerDone = true) ∧
      (played.2.call.loggerDone = true ->
        (LogsEveryLine (stderrOf replyText "first" .null played.1) played.2.logger.logged ↔
          AllValid (split (stderrOf replyText "first" .null played.1)))) ∧
      (played.2.call.loggerDone = false ->
        AllValid (completeLines (stderrOf replyText "first" .null played.1)) ∧
        played.2.logger.logged =
          (completeLines (stderrOf replyText "first" .null played.1)).map trimEnd) := by
  refine JoinedCall.joined_log_is_complete (Run.of_enabled greeting greeting_enabled) ?_ ?_ rfl
  · intro taken member store
    rcases List.mem_cons.mp (Run.play_listed member) with first | later
    · rw [first]
      exact tells_controls _ _ _ store
    · rw [List.mem_singleton.mp later]
      exact tells_controls _ _ _ store
  · exact List.cons_ne_nil _ _

end Host
end WasmiPlugin
