import WasmiPlugin.Host.HeardCall
import WasmiPlugin.Host.SettledCall
import WasmiPlugin.Rpc.Evaluation
import WasmiPlugin.Rpc.ServedRun

namespace WasmiPlugin
namespace Host

open Foundation Lines Rpc Wasi

/-!
# A call of a plugin over its pipes is an evaluation

Here the two sides meet over bytes.  The host's side is `Plugin::call` with its
pipes, its fuel slices and its logger.  The guest's side is a run of the plugin's
server, which gets what the host wrote in pieces of its own.  Each is a function of
what it was told, `settle` and `serve`, and so far nothing says where these two
come to rest.

They do so in the evaluation of the guest's handler, by induction on its program.
If the guest ends before it has told its reply, the call returns an internal error
instead, and never anything else.
-/

/-- A host that answers with these results, one after the other. -/
def answersOf (results : List (Except RpcError Value)) : HostAnswer :=
  fun asked => (results[asked.length - 1]?).getD (.error .internalError)

/-- The host answers with what remains of its results when some of them have been
given. -/
def Answering (answer : HostAnswer) (asked : List Invocation)
    (results : List (Except RpcError Value)) : Prop :=
  forall invocations, asked.length < invocations.length ->
    invocations.length ≤ asked.length + results.length ->
    some (answer invocations) = results[invocations.length - asked.length - 1]?

theorem answering_all (results : List (Except RpcError Value)) :
    Answering (answersOf results) [] results := by
  intro invocations some few
  rw [List.length_nil, Nat.zero_add] at few
  rw [List.length_nil, Nat.sub_zero, answersOf, List.getElem?_eq_getElem (by omega)]
  rfl

theorem Answering.next {answer : HostAnswer} {asked : List Invocation}
    {result : Except RpcError Value} {results : List (Except RpcError Value)}
    (answering : Answering answer asked (result :: results)) (invocation : Invocation) :
    answer (asked ++ [invocation]) = result ∧
      Answering answer (asked ++ [invocation]) results := by
  constructor
  · have first := answering (asked ++ [invocation]) (by simp) (by simp)
    rw [List.length_append, List.length_singleton, Nat.add_sub_cancel_left] at first
    exact Option.some.inj first
  · intro invocations some few
    rw [List.length_append, List.length_singleton] at some few ⊢
    rw [answering invocations (by omega) (by rw [List.length_cons]; omega),
      show invocations.length - asked.length - 1 =
        invocations.length - (asked.length + 1) - 1 + 1 by omega, List.getElem?_cons_succ]

/-- If the guest has told everything, the call returns the value. Otherwise it finds
the end of the guest's stdout and returns an internal error. -/
def ComesTo (all : Prop) (value result : Except RpcError RpcResponse) : Prop :=
  (all -> result = value) ∧ (¬all -> result = .error .internalError)

/-! ## The two functions together -/

section Together

variable {text : JsonText} {request : RpcRequest} {answer : HostAnswer}

/-- A reply is the result of the call that it replies to. -/
theorem settle_reply (request : RpcRequest) (value : Except RpcError Value)
    (faithful : text.Faithful (Transport.reply request value).serialize) (ended : Bool)
    (lines : List (List UInt8)) (reactions : List Reaction) :
    settle text true request.id ended (frame text (Transport.reply request value) :: lines)
      reactions = ([], .returned (returnedAs request.id value)) := by
  have read := decodeLine_frame faithful
  cases value with
  | ok result =>
      simp only [Transport.reply] at read
      simp only [settle, Transport.reply, read, if_true]
      rfl
  | error error =>
      simp only [Transport.reply] at read
      simp only [settle, Transport.reply, read]
      rfl

theorem awaitResponse_reply (request : RpcRequest) (value : Except RpcError Value)
    (faithful : text.Faithful (Transport.reply request value).serialize) (ended : Bool)
    (lines : List (List UInt8)) :
    awaitResponse text request.id ended (frame text (Transport.reply request value) :: lines) =
      some (returnedAs request.id value, lines) := by
  have read := decodeLine_frame faithful
  cases value with
  | ok result =>
      simp only [Transport.reply] at read
      simp only [awaitResponse, Transport.reply, read, if_true]
      rfl
  | error error =>
      simp only [Transport.reply] at read
      simp only [awaitResponse, Transport.reply, read]
      rfl

/-- A server and a call that hear a beginning of what the other side tells settle each
other: the call returns what the handler's program evaluates to, or it finds the end
before the server has told everything. -/
theorem serve_settle (program : HandlerProgram) {calls : Nat} {asked : List Invocation}
    {results : List (Except RpcError Value)} {told heard replies : List RpcMessage}
    {result : Except RpcError RpcResponse} {served : List RpcMessage × Bool}
    (counted : asked.length = calls) (answering : Answering answer asked results)
    (toldFaithful : forall message, message ∈ told -> text.Faithful message.serialize)
    (repliesFaithful : forall message, message ∈ replies -> text.Faithful message.serialize)
    (serves : served = program.serve text false request calls (heard.map (frame text)))
    (tells : told <+: served.1) (hears : heard <+: replies)
    (settles : settle text true request.id true (told.map (frame text)) (reactionsTo results) =
      (replies, .returned result)) :
    ComesTo (told = served.1 ∧ served.2 = true)
      (returnedAs request.id (program.evaluate answer asked).1) result := by
  subst serves
  induction program generalizing calls asked results told heard replies with
  | ret value =>
      cases told with
      | nil =>
          cases settles
          exact ⟨fun all => absurd all.1.symm (List.cons_ne_nil _ _), fun _ => rfl⟩
      | cons first told =>
          rcases List.cons_prefix_cons.mp tells with ⟨rfl, none⟩
          cases List.prefix_nil.mp none
          rw [List.map_cons,
            settle_reply request value (toldFaithful _ List.mem_cons_self)] at settles
          cases settles
          exact ⟨fun _ => rfl, fun part => absurd ⟨rfl, rfl⟩ part⟩
  | call method params next inductionHypothesis =>
      rw [HandlerProgram.serve_call] at tells ⊢
      cases told with
      | nil =>
          cases settles
          exact ⟨fun all => absurd all.1.symm (List.cons_ne_nil _ _), fun _ => rfl⟩
      | cons first told =>
          rcases List.cons_prefix_cons.mp tells with ⟨rfl, follows⟩
          have read := decodeLine_frame (toldFaithful _ List.mem_cons_self)
          rw [List.map_cons] at settles
          simp only [settle, read, if_true] at settles
          cases results with
          | nil => cases settles
          | cons value results =>
              rcases answering.next (method, params) with ⟨answered, answering⟩
              rcases Prod.mk.inj settles with ⟨replied, returned⟩
              subst replied
              rw [HandlerProgram.evaluate, counted, answered]
              cases heard with
              | nil =>
                  -- the program waits for the reply, so it has told nothing more
                  cases List.prefix_nil.mp follows
                  cases returned
                  exact ⟨fun all => absurd all.2 Bool.false_ne_true, fun _ => rfl⟩
              | cons reply heard =>
                  rcases List.cons_prefix_cons.mp hears with ⟨rfl, later⟩
                  have awaited := awaitResponse_reply
                    ⟨jsonRpcVersion, UInt64.ofNat calls, method, params⟩ value
                    (repliesFaithful _ List.mem_cons_self) false (heard.map (frame text))
                  rw [List.map_cons, resume_some awaited] at follows ⊢
                  have rest := inductionHypothesis _ (by rw [List.length_append, counted]; rfl)
                    answering (fun message listed => toldFaithful _ (List.mem_cons_of_mem _ listed))
                    (fun message listed => repliesFaithful _ (List.mem_cons_of_mem _ listed))
                    later (Prod.ext rfl returned) follows
                  exact ⟨fun all => rest.1 ⟨(List.cons.inj all.1).2, all.2⟩,
                    fun part => rest.2 fun all => part ⟨congrArg (List.cons _) all.1, all.2⟩⟩

end Together

theorem told_all {told written : List RpcMessage} {bytes : List UInt8}
    (faithful : forall message, message ∈ written -> text.Faithful message.serialize)
    (toldOf : told <+: written) (lines : split bytes = told.map (frame text)) :
    bytes = written.flatMap (frame text) ↔ told = written := by
  constructor
  · intro whole
    have all := split_messages faithful []
    have nothing : split [] = [] := rfl
    rw [nothing, List.append_nil, List.append_nil, ← whole, lines] at all
    have lengths := congrArg List.length all
    rw [List.length_map, List.length_map] at lengths
    exact toldOf.eq_of_length lengths
  · intro same
    have whole := splitAfter_flatten [] bytes
    rw [← split, lines, List.nil_append] at whole
    rw [← whole, same]
    rfl

section Target

variable [HostTarget]

/-! ## The two runs together -/

variable {text : JsonText} {handler : String -> Value -> HandlerProgram} {method : String}
  {params : Value} {memory : GuestMemory} {maxFuel : Option Nat}
  {history : List (Transition JoinedCall Round)} {final : JoinedCall}
  {served : List (Transition ServerRun ServerAction)} {guest : ServerRun}
  {heard : Transition JoinedCall Round -> List UInt8}

/-- When a call returns its guest has ended, and with it its stdout. -/
theorem stdout_closed
    (run : Run (JoinedCall.step text method params) (.spawned memory maxFuel) history final)
    (controls : forall taken, taken ∈ history -> GuestControls taken)
    {result : Except RpcError RpcResponse} (returned : final.call.result = some result) :
    final.call.guest.store.stdout.closed = true := by
  have logs := (JoinedCall.logs_run run controls).1
  have ended : final.call.guest.waiting.isEnded = true := by
    cases run with
    | start => cases returned
    | extend run stepped => exact ((JoinedCall.step_result stepped result).mp returned).2.1
  rw [logs.attached.stdout, (logs.gone ended).1]
  rfl

/-- A call of a plugin, whose guest passes on to its server what it hears and tells a
beginning of what its server tells then, returns what the evaluation of the guest's
handler comes to, with the results of the host's handlers for answers, if the guest
has told everything. If it has not, the call returns an internal error. In each poll
the guest tells whole characters, its stdout ends with a line, and its server gets
whole characters from a stdin that stays open. Between characters the streams may be
cut anywhere, and either side may be polled at any time. -/
theorem piped_call_evaluates
    (run : Run (JoinedCall.step text method params) (.spawned memory maxFuel) history final)
    (controls : forall taken, taken ∈ history -> GuestControls taken)
    (valid : forall taken, taken ∈ history -> Utf8.Valid (wroteStdout text method params taken))
    (ends : final.call.guest.store.stdout.closed = true ->
      EndsLine (stdoutOf text method params history))
    (serves : Run (ServerRun.step text handler) .new served guest)
    (whole : forall taken, taken ∈ served -> taken.action.Whole)
    (opened : guest.transport.reader.closed = false)
    (hears : forall taken, taken ∈ history -> GuestHears text method params (heard taken) taken)
    (arrives : stdinOf served <+: history.flatMap heard)
    (tells : stdoutOf text method params history <+: guest.transport.written.flatMap (frame text))
    (faithful : forall message, message ∈ final.call.rpc.written ++ guest.transport.written ->
      text.Faithful message.serialize)
    {result : Except RpcError RpcResponse} (returned : final.call.result = some result) :
    ComesTo (guest.serving = .served ∧
        stdoutOf text method params history = guest.transport.written.flatMap (frame text))
      (returnedAs 0 ((handler method params).evaluate
        (answersOf (resultsOf text method params history)) []).1) result := by
  have hostFaithful : forall message, message ∈ final.call.rpc.written ->
      text.Faithful message.serialize := fun message listed =>
    faithful message (List.mem_append_left _ listed)
  have guestFaithful : forall message, message ∈ guest.transport.written ->
      text.Faithful message.serialize := fun message listed =>
    faithful message (List.mem_append_right _ listed)
  have ended := ends (stdout_closed run controls returned)
  rcases settles_run run controls valid ends returned with ⟨written, returns⟩
  rcases completeLines_beginning guestFaithful tells with ⟨told, toldOf, lines⟩
  rcases completeLines_beginning hostFaithful (arrives.trans (listens_run run hears).front)
    with ⟨heard, heardOf, stdin⟩
  rw [ended.completeLines] at lines
  rw [lines] at written returns
  have stands := serverStands_run serves whole fun closed =>
    absurd (opened.symm.trans closed) Bool.noConfusion
  have begins := stands.served.1
  have wholly := stands.of_served
  have only := stands.served_of
  rw [opened, stdin] at begins wholly only
  rw [told_all guestFaithful toldOf lines]
  cases heard with
  | nil =>
      -- the guest has not heard the request, and tells nothing
      cases List.prefix_nil.mp (toldOf.trans begins)
      cases returns
      exact ⟨fun all => absurd (wholly all.1).2 Bool.false_ne_true, fun _ => rfl⟩
  | cons first heard =>
      rw [written] at heardOf hostFaithful
      rcases List.cons_prefix_cons.mp heardOf with ⟨rfl, later⟩
      have read := decodeLine_frame (hostFaithful _ List.mem_cons_self)
      have asked : serve text handler false
          ((RpcMessage.rpcRequest ⟨jsonRpcVersion, 0, method, params⟩ :: heard).map (frame text)) =
          (handler method params).serve text false ⟨jsonRpcVersion, 0, method, params⟩ 0
            (heard.map (frame text)) := by
        simp only [List.map_cons, serve, read]
      rw [asked] at begins wholly only
      have comes := serve_settle (handler method params) rfl
        (answering_all (resultsOf text method params history))
        (fun message listed => guestFaithful message (toldOf.subset listed))
        (fun message listed => hostFaithful message (List.mem_cons_of_mem _ listed)) rfl
        (toldOf.trans begins) later (Prod.ext rfl returns)
      refine ⟨fun all => comes.1 ?_, fun part => comes.2 fun all => part ?_⟩
      · rw [all.2]
        exact wholly all.1
      · have same : told = guest.transport.written :=
          toldOf.eq_of_length_le (all.1 ▸ begins.length_le)
        refine ⟨only ?_ (same ▸ all.1) all.2, same⟩
        rw [← same, all.1]
        exact (handler method params).serve_tells _ _ _ _ _

end Target

/-! ### A quote over the pipes -/

/-- The guest reads the request, asks for the price, reads that there is none, and
replies. -/
def quoting : List Round :=
  [⟨false, [], repliesWith (frame quoteText (.rpcRequest ⟨jsonRpcVersion, 0, "price", .bool true⟩))
      (.outOfFuel 1), 0⟩,
    ⟨true, [.error .methodNotFound],
      repliesWith (frame quoteText (.rpcResponse ⟨jsonRpcVersion, 0, .null⟩)) .finished, 0⟩,
    ⟨true, [], repliesWith [] .finished, 0⟩]

theorem quoting_enabled : (Run.play (JoinedCall.step quoteText "quote" (.bool true))
    (.spawned pluginStore.memory none) quoting).isSome := by
  decide

theorem quoting_listed {taken : Transition JoinedCall Round} (listed : taken.action ∈ quoting) :
    Exists fun told => Exists fun resumable => taken.action.guest = repliesWith told resumable := by
  simp only [quoting, List.mem_cons, List.not_mem_nil, or_false] at listed
  rcases listed with first | second | third
  · exact ⟨_, _, congrArg Round.guest first⟩
  · exact ⟨_, _, congrArg Round.guest second⟩
  · exact ⟨_, _, congrArg Round.guest third⟩

set_option maxRecDepth 4000 in
/-- The call of the quoting guest returns the quote that is made without a price. -/
theorem quoting_evaluates :
    let played := (Run.play (JoinedCall.step quoteText "quote" (.bool true))
      (.spawned pluginStore.memory none) quoting).get quoting_enabled
    played.2.call.result = some (returnedAs 0 ((quote "quote" (.bool true)).evaluate
      (answersOf (resultsOf quoteText "quote" (.bool true) played.1)) []).1) := by
  intro played
  have returned : played.2.call.result = some (.ok ⟨jsonRpcVersion, 0, .null⟩) := rfl
  have written : played.2.call.rpc.written ++ ((Run.play (ServerRun.step quoteText quote) .new
      quoteServed).get quoteServed_enabled).2.transport.written =
      [.rpcRequest ⟨jsonRpcVersion, 0, "quote", .bool true⟩,
        .rpcErrorResponse ⟨jsonRpcVersion, 0, .methodNotFound⟩,
        .rpcRequest ⟨jsonRpcVersion, 0, "price", .bool true⟩,
        .rpcResponse ⟨jsonRpcVersion, 0, .null⟩] := rfl
  have hears : forall taken, taken ∈ played.1 -> GuestHears quoteText "quote" (.bool true)
      (heardIn quoteText "quote" (.bool true) taken) taken := by
    intro taken member
    rcases quoting_listed (Run.play_listed member) with ⟨told, resumable, same⟩
    exact repliesWith_heard same
  have law := piped_call_evaluates (Run.of_enabled quoting quoting_enabled) (fun taken member => ?_)
    (by decide) (by decide) (Run.of_enabled quoteServed quoteServed_enabled) (by decide) rfl
    hears (by decide) (by decide) (fun message listed => ?_) returned
  · rw [returned, law.1 ⟨rfl, by decide⟩]
  · rcases quoting_listed (Run.play_listed member) with ⟨told, resumable, same⟩
    rw [GuestControls, same]
    exact repliesWith_controls told resumable
  · rw [written] at listed
    apply quote_faithful
    simp only [quoteMessages, List.mem_cons, List.not_mem_nil, or_false] at listed ⊢
    tauto

end Host
end WasmiPlugin
