import Mathlib.Data.List.Induction
import Mathlib.Data.List.Nodup
import WasmiPlugin.Rpc.Transport

namespace WasmiPlugin
namespace Rpc

open Foundation

/-!
# Responses and the calls they answer

`Book` relates the counter, the map of pending calls and every channel to what
has happened: which calls were registered, and which responses with a call's id
were consumed since.  An entry is in the map exactly while its call has had no
response, and the first response is in the call's channel for as long as the
call is in flight.  The ids are distinct because there are fewer calls than ids.

`Book` does not mention the reader, its lock or the output.  It therefore holds
whichever task reads which line, and `Effect` says all that a step can do to it.
-/

variable (text : JsonText)

/-- The responses consumed with an id since a call was registered under it, one
transition later. -/
def answersAfter (id : UInt64) (seen : List RpcResponse)
    (taken : Transition Transport TransportAction) : List RpcResponse :=
  match registering taken, answering text taken with
  | some call, _ => if call.2 = id then [] else seen
  | none, some response => if response.id = id then seen ++ [response] else seen
  | none, none => seen

/-- The responses consumed with an id since a call was registered under it. -/
def answers (history : List (Transition Transport TransportAction)) (id : UInt64) :
    List RpcResponse :=
  history.foldl (answersAfter text id) []

variable {text}

theorem answers_extend (history : List (Transition Transport TransportAction))
    (taken : Transition Transport TransportAction) (id : UInt64) :
    answers text (history ++ [taken]) id =
      answersAfter text id (answers text history id) taken := by
  unfold answers
  rw [List.foldl_append, List.foldl_cons, List.foldl_nil]

theorem calls_extend (history : List (Transition Transport TransportAction))
    (taken : Transition Transport TransportAction) :
    calls (history ++ [taken]) = calls history ++ (registering taken).toList :=
  filterMap_extend registering history taken

/-! ## The invariant -/

/-- What the transport knows about its calls, given the calls that were
registered and the responses each has had. -/
structure Book (calls : List (TaskId × UInt64)) (answers : UInt64 -> List RpcResponse)
    (transport : Transport) : Prop where
  counter : transport.id = UInt64.ofNat calls.length
  numbered : calls.map Prod.snd = (List.range calls.length).map UInt64.ofNat
  listed : forall task id, (task, id) ∈ calls -> (transport.task task).kind = .call ∧
    (transport.task task).id = id ∧ (transport.task task).phase ≠ .idle
  started : forall task, (transport.task task).kind = .call ->
    (transport.task task).phase ≠ .idle -> (task, (transport.task task).id) ∈ calls
  entries : forall id task, transport.pending id = some task ↔ (task, id) ∈ calls ∧ answers id = []
  channels : forall task id, (task, id) ∈ calls ->
    (transport.task task).phase.inFlight = true ->
    (transport.task task).channel = match answers id with
      | [] => .empty
      | response :: _ => .full response
  answered : forall task response, (transport.task task).phase = .answered response ->
    (transport.task task).kind = .call
  results : forall task id response, (task, id) ∈ calls ->
    (transport.task task).phase = .answered response ->
    Exists fun later => answers id = response :: later

namespace Book

variable {calls : List (TaskId × UInt64)} {answers : UInt64 -> List RpcResponse}
  {transport next : Transport}

theorem distinct (book : Book calls answers transport) (few : calls.length ≤ 2 ^ 64) :
    (calls.map Prod.snd).Nodup := by
  rw [book.numbered]
  refine List.Nodup.map_on (fun first firstListed second secondListed same => ?_)
    List.nodup_range
  have firstSmall : first < 2 ^ 64 := Nat.lt_of_lt_of_le (List.mem_range.mp firstListed) few
  have secondSmall : second < 2 ^ 64 := Nat.lt_of_lt_of_le (List.mem_range.mp secondListed) few
  have values := congrArg UInt64.toNat same
  rwa [UInt64.toNat_ofNat_of_lt' firstSmall, UInt64.toNat_ofNat_of_lt' secondSmall] at values

theorem unique (book : Book calls answers transport) (few : calls.length ≤ 2 ^ 64)
    {first second : TaskId} {id : UInt64} (firstListed : (first, id) ∈ calls)
    (secondListed : (second, id) ∈ calls) : first = second :=
  congrArg Prod.fst (List.inj_on_of_nodup_map (book.distinct few) firstListed secondListed rfl)

theorem fresh (book : Book calls answers transport) (few : calls.length < 2 ^ 64)
    (task : TaskId) : (task, transport.id) ∉ calls := by
  intro listed
  have among : transport.id ∈ (List.range calls.length).map UInt64.ofNat :=
    book.numbered ▸ List.mem_map_of_mem (f := Prod.snd) listed
  rcases List.mem_map.mp among with ⟨number, small, same⟩
  rw [book.counter] at same
  have values := congrArg UInt64.toNat same
  have numberSmall := List.mem_range.mp small
  rw [UInt64.toNat_ofNat_of_lt' (Nat.lt_trans numberSmall few),
    UInt64.toNat_ofNat_of_lt' few] at values
  exact absurd values (Nat.ne_of_lt numberSmall)

theorem unused (book : Book calls answers transport) (few : calls.length < 2 ^ 64) :
    transport.pending transport.id = none := by
  cases entry : transport.pending transport.id with
  | none => rfl
  | some receiver =>
      exact absurd ((book.entries transport.id receiver).mp entry).1 (book.fresh few receiver)

/-- A book stays right when tasks move on without touching what it records. -/
theorem moved (book : Book calls answers transport) (moved : transport.Moved next) :
    Book calls answers next where
  counter := moved.id.trans book.counter
  numbered := book.numbered
  listed := by
    intro task id member
    rcases book.listed task id member with ⟨call, same, started⟩
    cases moved.task task with
    | same unchanged =>
        rw [unchanged]
        exact ⟨call, same, started⟩
    | onward phase onward shape =>
        rw [shape]
        exact ⟨call, same, onward.started⟩
    | pump handler idle _ => exact absurd idle started
  started := by
    intro task call started
    cases moved.task task with
    | same unchanged =>
        rw [unchanged] at call started ⊢
        exact book.started task call started
    | onward phase onward shape =>
        rw [shape] at call ⊢
        refine book.started task call fun idle => ?_
        have inFlight := onward.inFlight
        rw [idle] at inFlight
        cases inFlight
    | pump handler _ shape =>
        rw [shape] at call
        cases call
  entries := by
    intro id task
    rw [moved.pending]
    exact book.entries id task
  channels := by
    intro task id member inFlight
    cases moved.task task with
    | same unchanged =>
        rw [unchanged] at inFlight ⊢
        exact book.channels task id member inFlight
    | onward phase onward shape =>
        rw [shape]
        exact book.channels task id member onward.inFlight
    | pump handler idle _ => exact absurd idle (book.listed task id member).2.2
  answered := by
    intro task response answered
    cases moved.task task with
    | same unchanged =>
        rw [unchanged] at answered ⊢
        exact book.answered task response answered
    | onward phase onward shape =>
        rw [shape] at answered ⊢
        exact (onward.answered response answered).1
    | pump handler _ shape =>
        rw [shape] at answered
        cases answered
  results := by
    intro task id response member answered
    cases moved.task task with
    | same unchanged =>
        rw [unchanged] at answered
        exact book.results task id response member answered
    | onward phase onward shape =>
        rw [shape] at answered
        have channel := (onward.answered response answered).2
        rw [book.channels task id member onward.inFlight] at channel
        cases had : answers id with
        | nil =>
            rw [had] at channel
            cases channel
        | cons first later =>
            rw [had] at channel
            cases channel
            exact ⟨later, rfl⟩
    | pump handler idle _ => exact absurd idle (book.listed task id member).2.2

/-- A response goes to the entry of its id, and to the channel of a call that
is in flight. -/
theorem deliver (book : Book calls answers transport) (response : RpcResponse) :
    Book calls (fun id => if response.id = id then answers id ++ [response] else answers id)
      (transport.deliver response) where
  counter := (Transport.deliver_id ..).trans book.counter
  numbered := book.numbered
  listed := by
    intro task id member
    rw [Transport.deliver_kind, Transport.deliver_callId, Transport.deliver_phase]
    exact book.listed task id member
  started := by
    intro task call started
    rw [Transport.deliver_kind] at call
    rw [Transport.deliver_phase] at started
    rw [Transport.deliver_callId]
    exact book.started task call started
  entries := by
    intro id task
    rw [Transport.deliver_pending]
    by_cases same : response.id = id
    · subst same
      rw [Function.update_self, if_pos rfl]
      simp
    · rw [Function.update_of_ne (Ne.symm same), if_neg same]
      exact book.entries id task
  channels := by
    intro task id member inFlight
    rw [Transport.deliver_phase] at inFlight
    have before := book.channels task id member inFlight
    rw [Transport.deliver_task]
    by_cases same : response.id = id
    · subst same
      rw [if_pos rfl]
      cases had : answers response.id with
      | nil => rw [if_pos ⟨(book.entries response.id task).mpr ⟨member, had⟩, inFlight⟩]; rfl
      | cons first later =>
          rw [if_neg fun both => ?_, before, had]
          · rfl
          · have none := ((book.entries response.id task).mp both.1).2
            rw [had] at none
            cases none
    · rw [if_neg same, if_neg fun both => ?_, before]
      have owner := (book.entries response.id task).mp both.1
      exact same ((book.listed task _ owner.1).2.1.symm.trans (book.listed task id member).2.1)
  answered := by
    intro task result answered
    rw [Transport.deliver_phase] at answered
    rw [Transport.deliver_kind]
    exact book.answered task result answered
  results := by
    intro task id result member answered
    rw [Transport.deliver_phase] at answered
    rcases book.results task id result member answered with ⟨later, had⟩
    by_cases same : response.id = id
    · exact ⟨later ++ [response], by rw [if_pos same, had, List.cons_append]⟩
    · exact ⟨later, by rw [if_neg same, had]⟩

/-- A new call gets a fresh id, an entry and an empty channel. -/
theorem register (book : Book calls answers transport) (few : calls.length < 2 ^ 64)
    {task : TaskId} (idle : (transport.task task).phase = .idle) :
    Book (calls ++ [(task, transport.id)])
      (fun id => if transport.id = id then [] else answers id) (transport.register task) := by
  have unlisted : forall id, (task, id) ∉ calls := fun id member =>
    (book.listed task id member).2.2 idle
  have self : (transport.register task).task task =
      ⟨.call, transport.id, .empty, .awaitingReader⟩ :=
    transport.register_task task
  have others : forall other, other ≠ task ->
      (transport.register task).task other = transport.task other :=
    fun other different => Transport.register_other (book.unused few) different
  refine ⟨?_, ?_, fun other id member => ?_, fun other call started => ?_, fun id other => ?_,
    fun other id member inFlight => ?_, fun other response answered => ?_,
    fun other id response member answered => ?_⟩
  · rw [List.length_append, List.length_singleton, UInt64.ofNat_add, ← book.counter]
    rfl
  · rw [List.map_append, List.length_append, List.length_singleton, List.range_succ,
      List.map_append, book.numbered, book.counter]
    rfl
  · rcases List.mem_append.mp member with before | new
    · by_cases this : other = task
      · subst this
        exact absurd before (unlisted id)
      · rw [others other this]
        exact book.listed other id before
    · cases List.mem_singleton.mp new
      rw [self]
      exact ⟨rfl, rfl, nofun⟩
  · by_cases this : other = task
    · subst this
      rw [self]
      exact List.mem_append_right _ List.mem_cons_self
    · rw [others other this] at call started ⊢
      exact List.mem_append_left _ (book.started other call started)
  · rw [Transport.register_pending]
    by_cases same : transport.id = id
    · subst same
      rw [Function.update_self, if_pos rfl, Option.some.injEq]
      constructor
      · intro this
        rw [this]
        exact ⟨List.mem_append_right _ List.mem_cons_self, rfl⟩
      · rintro ⟨member, -⟩
        rcases List.mem_append.mp member with before | new
        · exact absurd before (book.fresh few other)
        · cases List.mem_singleton.mp new
          rfl
    · rw [Function.update_of_ne (Ne.symm same), if_neg same, book.entries id other]
      have only : (other, id) ∈ calls ++ [(task, transport.id)] ↔ (other, id) ∈ calls := by
        simp only [List.mem_append, List.mem_singleton, Prod.mk.injEq, or_iff_left_iff_imp]
        exact fun new => absurd new.2.symm same
      rw [only]
  · rcases List.mem_append.mp member with before | new
    · have different : other ≠ task := fun this => unlisted id (this ▸ before)
      have old : transport.id ≠ id := fun this => book.fresh few other (this ▸ before)
      rw [others other different] at inFlight ⊢
      rw [if_neg old]
      exact book.channels other id before inFlight
    · cases List.mem_singleton.mp new
      rw [self, if_pos rfl]
  · by_cases this : other = task
    · subst this
      rw [self]
    · rw [others other this] at answered ⊢
      exact book.answered other response answered
  · rcases List.mem_append.mp member with before | new
    · have different : other ≠ task := fun this => unlisted id (this ▸ before)
      have old : transport.id ≠ id := fun this => book.fresh few other (this ▸ before)
      rw [others other different] at answered
      rw [if_neg old]
      exact book.results other id response before answered
    · cases List.mem_singleton.mp new
      rw [self] at answered
      cases answered

theorem new (reader : LineReader) (handler : Bool) :
    Book [] (fun _ => []) (Transport.new reader handler) where
  counter := rfl
  numbered := rfl
  listed := fun _ _ member => absurd member List.not_mem_nil
  started := fun _ _ started => absurd rfl started
  entries := fun _ _ => ⟨nofun, fun listed => absurd listed.1 List.not_mem_nil⟩
  channels := fun _ _ member => absurd member List.not_mem_nil
  answered := fun _ _ answered => by cases answered
  results := fun _ _ _ member => absurd member List.not_mem_nil

theorem step {history : List (Transition Transport TransportAction)}
    {before after : Transport} {action : TransportAction}
    (book : Book (Rpc.calls history) (Rpc.answers text history) before)
    (stepped : before.step text action = some after)
    (few : (Rpc.calls (history ++ [⟨before, action, after⟩])).length ≤ 2 ^ 64) :
    Book (Rpc.calls (history ++ [⟨before, action, after⟩]))
      (Rpc.answers text (history ++ [⟨before, action, after⟩])) after := by
  have answered : Rpc.answers text (history ++ [⟨before, action, after⟩]) = fun id =>
      answersAfter text id (Rpc.answers text history id) ⟨before, action, after⟩ :=
    funext fun id => answers_extend history _ id
  rw [calls_extend] at few ⊢
  rw [answered]
  cases Transport.step_effect stepped with
  | quiet notRegistering notAnswering moved =>
      simp only [answersAfter, notRegistering, notAnswering, Option.toList_none, List.append_nil]
      exact book.moved moved
  | registered task registered notAnswering idle moved =>
      rw [registered, Option.toList_some] at few ⊢
      have room : (Rpc.calls history).length < 2 ^ 64 := by
        rw [List.length_append, List.length_singleton] at few
        exact few
      simp only [answersAfter, registered]
      exact (book.register room idle).moved moved
  | delivered task response reader notRegistering consumed inFlight shape =>
      rw [notRegistering, Option.toList_none, List.append_nil] at few ⊢
      have read : answering text ⟨before, action, after⟩ = some response := by
        rw [answering, consumed]
      have freed : Book (Rpc.calls history) (Rpc.answers text history)
          { before with reader := reader, readerGuard := none } :=
        book.moved (.of_tasks rfl rfl rfl)
      simp only [answersAfter, notRegistering, read]
      rw [show after = _ from shape]
      refine (freed.deliver response).moved (.proceed ?_)
      rw [Transport.deliver_phase]
      exact inFlight

/-- The book is kept in every run with fewer calls than there are ids. -/
theorem run {reader : LineReader} {handler : Bool}
    {history : List (Transition Transport TransportAction)} {final : Transport}
    (run : Run (Transport.step text) (.new reader handler) history final)
    (few : (Rpc.calls history).length ≤ 2 ^ 64) :
    Book (Rpc.calls history) (Rpc.answers text history) final := by
  induction run with
  | start => exact .new reader handler
  | @extend history before after action _ stepped inductionHypothesis =>
      refine (inductionHypothesis (Nat.le_trans ?_ few)).step stepped few
      rw [calls_extend, List.length_append]
      exact Nat.le_add_right _ _

/-- The first answer of a call remains the first. -/
theorem answers_grow {history : List (Transition Transport TransportAction)}
    {before after : Transport} {action : TransportAction}
    (book : Book (Rpc.calls history) (Rpc.answers text history) before)
    (few : (Rpc.calls (history ++ [⟨before, action, after⟩])).length ≤ 2 ^ 64)
    {task : TaskId} {id : UInt64} {response : RpcResponse} {later : List RpcResponse}
    (member : (task, id) ∈ Rpc.calls history)
    (had : Rpc.answers text history id = response :: later) :
    Exists fun later =>
      Rpc.answers text (history ++ [⟨before, action, after⟩]) id = response :: later := by
  rw [answers_extend]
  cases made : registering (⟨before, action, after⟩ : Transition Transport TransportAction) with
  | some call =>
      have room : (Rpc.calls history).length < 2 ^ 64 := by
        rw [calls_extend, made, Option.toList_some, List.length_append] at few
        exact few
      have next : call.2 = before.id := by
        unfold registering at made
        split at made
        · rw [← Option.some.inj made]
        · cases made
      have old : call.2 ≠ id := fun same => book.fresh room task (next ▸ same ▸ member)
      simp only [answersAfter, made, if_neg old]
      exact ⟨later, had⟩
  | none =>
      cases read : answering text ⟨before, action, after⟩ with
      | none =>
          simp only [answersAfter, made, read]
          exact ⟨later, had⟩
      | some last =>
          simp only [answersAfter, made, read]
          split
          · exact ⟨later ++ [last], by rw [had, List.cons_append]⟩
          · exact ⟨later, had⟩

end Book

/-! ## Where an answer comes from -/

/-- The history contains the registration of a call and after it the
consumption of this response, the first one since with the call's id. -/
def FirstAnswer (text : JsonText) (history : List (Transition Transport TransportAction))
    (task : TaskId) (response : RpcResponse) : Prop :=
  Exists fun earlier => Exists fun registered => Exists fun waiting => Exists fun taken =>
    Exists fun later =>
      history = earlier ++ registered :: waiting ++ taken :: later ∧
      registering registered = some (task, response.id) ∧
      answering text taken = some response ∧
      forall other another, other ∈ waiting -> answering text other = some another ->
        another.id ≠ response.id

private theorem answering_of_registering {taken : Transition Transport TransportAction}
    {call : TaskId × UInt64} (registered : registering taken = some call) :
    answering text taken = none := by
  unfold registering at registered
  split at registered
  · next action => simp only [answering, consuming, action]
  · cases registered

theorem registering_of_answering {taken : Transition Transport TransportAction}
    {response : RpcResponse} (read : answering text taken = some response) :
    registering taken = none := by
  cases made : registering taken with
  | none => rfl
  | some call =>
      rw [answering_of_registering made] at read
      cases read

/-- The part of a history from the registration of a call, when no response
with its id was consumed since. -/
private theorem waiting_since (history : List (Transition Transport TransportAction))
    (task : TaskId) (id : UInt64) (distinct : ((calls history).map Prod.snd).Nodup)
    (member : (task, id) ∈ calls history) (unanswered : answers text history id = []) :
    Exists fun earlier => Exists fun registered => Exists fun waiting =>
      history = earlier ++ registered :: waiting ∧ registering registered = some (task, id) ∧
      forall other another, other ∈ waiting -> answering text other = some another ->
        another.id ≠ id := by
  induction history using List.reverseRecOn with
  | nil => exact absurd member List.not_mem_nil
  | append_singleton history taken inductionHypothesis =>
      rw [calls_extend, List.map_append] at distinct
      rw [calls_extend] at member
      rw [answers_extend] at unanswered
      rcases List.mem_append.mp member with before | new
      · -- The call is an old one, and the last transition is part of its waiting.
        have old : answers text history id = [] ∧
            forall another, answering text taken = some another -> another.id ≠ id := by
          cases made : registering taken with
          | some call =>
              have different : call.2 ≠ id := by
                rw [made] at distinct
                exact fun same => (List.nodup_append.mp distinct).2.2 id
                  (List.mem_map_of_mem (f := Prod.snd) before) call.2 List.mem_cons_self same.symm
              simp only [answersAfter, made, if_neg different] at unanswered
              rw [answering_of_registering made]
              exact ⟨unanswered, nofun⟩
          | none =>
              cases read : answering text taken with
              | none =>
                  simp only [answersAfter, made, read] at unanswered
                  exact ⟨unanswered, nofun⟩
              | some response =>
                  simp only [answersAfter, made, read] at unanswered
                  by_cases same : response.id = id
                  · simp [if_pos same] at unanswered
                  · rw [if_neg same] at unanswered
                    exact ⟨unanswered, fun another this => Option.some.inj this ▸ same⟩
        rcases inductionHypothesis (List.nodup_append.mp distinct).1 before old.1 with
          ⟨earlier, registered, waiting, shape, same, none⟩
        refine ⟨earlier, registered, waiting ++ [taken], by rw [shape]; simp, same,
          fun other another listed read => ?_⟩
        rcases List.mem_append.mp listed with within | last
        · exact none other another within read
        · exact old.2 another (List.mem_singleton.mp last ▸ read)
      · exact ⟨history, taken, [], rfl, Option.mem_toList.mp new,
          fun _ _ listed => absurd listed List.not_mem_nil⟩

theorem firstAnswer_of_answers (history : List (Transition Transport TransportAction))
    (task : TaskId) (id : UInt64) (distinct : ((calls history).map Prod.snd).Nodup)
    (member : (task, id) ∈ calls history) (response : RpcResponse) (later : List RpcResponse)
    (answered : answers text history id = response :: later) :
    response.id = id ∧ FirstAnswer text history task response := by
  induction history using List.reverseRecOn generalizing later with
  | nil => exact absurd member List.not_mem_nil
  | append_singleton history taken inductionHypothesis =>
      rw [calls_extend, List.map_append] at distinct
      rw [calls_extend] at member
      rw [answers_extend] at answered
      have longer : forall later, (task, id) ∈ calls history ->
          answers text history id = response :: later ->
          response.id = id ∧ FirstAnswer text (history ++ [taken]) task response := by
        intro later before had
        rcases inductionHypothesis (List.nodup_append.mp distinct).1 before later had with
          ⟨same, earlier, registered, waiting, consumed, rest, shape, answer⟩
        exact ⟨same, earlier, registered, waiting, consumed, rest ++ [taken],
          by rw [shape]; simp, answer⟩
      cases made : registering taken with
      | some call =>
          simp only [answersAfter, made] at answered
          by_cases same : call.2 = id
          · simp [if_pos same] at answered
          · rw [if_neg same] at answered
            rw [made, Option.toList_some] at member
            rcases List.mem_append.mp member with before | new
            · exact longer later before answered
            · cases List.mem_singleton.mp new
              exact absurd rfl same
      | none =>
          rw [made, Option.toList_none, List.append_nil] at member
          cases read : answering text taken with
          | none =>
              simp only [answersAfter, made, read] at answered
              exact longer later member answered
          | some last =>
              simp only [answersAfter, made, read] at answered
              by_cases same : last.id = id
              · rw [if_pos same] at answered
                cases had : answers text history id with
                | cons first rest =>
                    rw [had, List.cons_append] at answered
                    cases answered
                    exact longer rest member had
                | nil =>
                    rw [had] at answered
                    cases answered
                    rcases waiting_since history task id (List.nodup_append.mp distinct).1
                      member had with ⟨earlier, registered, waiting, shape, call, none⟩
                    exact ⟨same, earlier, registered, waiting, taken, [], by rw [shape],
                      same ▸ call, read, same ▸ none⟩
              · rw [if_neg same] at answered
                exact longer later member answered

/-! ## Correlation -/

/-- Responses and calls correspond, at the end of a run and at each of its
transitions. -/
structure Correlated (text : JsonText) (history : List (Transition Transport TransportAction))
    (final : Transport) : Prop where
  /-- Distinct calls have distinct ids. -/
  distinct : ((calls history).map Prod.snd).Nodup
  /-- A call returns the first response with its id since it registered. -/
  own : forall task response, (final.task task).phase = .answered response ->
    (task, response.id) ∈ calls history ∧ FirstAnswer text history task response
  /-- Two calls do not return one response. -/
  once : forall first second response another, (final.task first).phase = .answered response ->
    (final.task second).phase = .answered another -> first ≠ second -> response.id ≠ another.id
  /-- The first response for a call in flight is put into its channel. -/
  kept : forall earlier taken later task response, history = earlier ++ taken :: later ->
    answering text taken = some response -> (task, response.id) ∈ calls earlier ->
    (taken.before.task task).phase.inFlight = true -> answers text earlier response.id = [] ->
    (taken.after.task task).channel = .full response
  /-- A response with an unknown or answered id is skipped: the task that read
  it goes on, and nothing else changes. -/
  skipped : forall earlier taken later task response, history = earlier ++ taken :: later ->
    consuming text taken = some (task, .rpcResponse response) ->
    (forall call, (call, response.id) ∈ calls earlier -> answers text earlier response.id ≠ []) ->
    taken.after.pending = taken.before.pending ∧
      (forall call, (taken.after.task call).channel = (taken.before.task call).channel) ∧
      Exists fun reader =>
        taken.after = { taken.before with reader := reader, readerGuard := none }.proceed task

theorem calls_earlier {history earlier later : List (Transition Transport TransportAction)}
    {taken : Transition Transport TransportAction} (shape : history = earlier ++ taken :: later) :
    (calls earlier).length ≤ (calls history).length := by
  rw [shape, calls, calls, List.filterMap_append, List.length_append]
  exact Nat.le_add_right _ _

/-- Whatever lines the peer sends and however the tasks are interleaved and
dropped, responses and calls correspond. -/
theorem response_correlation {reader : LineReader} {handler : Bool}
    {history : List (Transition Transport TransportAction)} {final : Transport}
    (run : Run (Transport.step text) (.new reader handler) history final)
    (few : (calls history).length ≤ 2 ^ 64) : Correlated text history final := by
  have book := Book.run run few
  have answer : forall task response, (final.task task).phase = .answered response ->
      (task, response.id) ∈ calls history ∧ FirstAnswer text history task response := by
    intro task response answered
    have member := book.started task (book.answered task response answered)
      (by rw [answered]; nofun)
    rcases book.results task _ response member answered with ⟨later, had⟩
    have first := firstAnswer_of_answers history task _ (book.distinct few) member response
      later had
    exact ⟨first.1.symm ▸ member, first.2⟩
  refine ⟨book.distinct few, answer, ?_, ?_, ?_⟩
  · intro first second response another firstAnswered secondAnswered different same
    have firstListed := (answer first response firstAnswered).1
    have secondListed := (answer second another secondAnswered).1
    rw [same] at firstListed
    exact different (book.unique few firstListed secondListed)
  · intro earlier taken later task response shape read member inFlight none
    rcases run.split shape with ⟨reached, stepped⟩
    have before := Book.run reached (Nat.le_trans (calls_earlier shape) few)
    have entry := (before.entries response.id task).mpr ⟨member, none⟩
    rcases consuming_of_answering read with ⟨reading, consumed⟩
    rcases Transport.step_consuming stepped consumed with ⟨_, rest, moved⟩
    rw [moved]
    simp only [Transport.processMessage, Transport.proceed_channel, Transport.deliver, entry,
      inFlight, if_true, Transport.setTask, Function.update_self]
  · intro earlier taken later task response shape consumed stale
    rcases run.split shape with ⟨reached, stepped⟩
    have before := Book.run reached (Nat.le_trans (calls_earlier shape) few)
    have unknown : taken.before.pending response.id = none := by
      cases entry : taken.before.pending response.id with
      | none => rfl
      | some receiver =>
          have owner := (before.entries response.id receiver).mp entry
          exact absurd owner.2 (stale receiver owner.1)
    rcases Transport.step_consuming stepped consumed with ⟨_, rest, moved⟩
    rw [Transport.processMessage, Transport.deliver_unknown (by exact unknown)] at moved
    refine ⟨?_, fun call => ?_, rest, moved⟩
    · rw [moved, Transport.proceed_pending]
    · rw [moved, Transport.proceed_channel]

/-! ## Two calls and a duplicate -/

def firstReply : RpcMessage := .rpcResponse ⟨jsonRpcVersion, 0, .bool true⟩

def secondReply : RpcMessage := .rpcResponse ⟨jsonRpcVersion, 1, .bool false⟩

def replyText : JsonText := compactText [firstReply.serialize, secondReply.serialize]

theorem firstReply_faithful : replyText.Faithful firstReply.serialize :=
  .of_text rfl (by decide) (by decide) (by decide)

theorem secondReply_faithful : replyText.Faithful secondReply.serialize :=
  .of_text rfl (by decide) (by decide) (by decide)

def arrives (text : JsonText) (message : RpcMessage) : TransportAction :=
  .arrive (Delivery.ofBytes (frame text message))

/-- Task 0 is waiting for input when task 1 makes its call.  The reply to the
first call comes twice, so that task 1 reads it once more before its own. -/
def duplicateReply : List TransportAction :=
  [.call 0 "first" .null true, .poll 0, .call 1 "second" .null true,
    arrives replyText firstReply, arrives replyText firstReply, arrives replyText secondReply,
    .poll 0, .poll 1, .poll 1]

theorem duplicateReply_enabled : (Run.play (Transport.step replyText)
    (.new ⟨[], [], false⟩ false) duplicateReply).isSome := by
  decide

theorem duplicate_reply_correlated :
    Correlated replyText
      ((Run.play (Transport.step replyText) (.new ⟨[], [], false⟩ false) duplicateReply).get
        duplicateReply_enabled).1
      ((Run.play (Transport.step replyText) (.new ⟨[], [], false⟩ false) duplicateReply).get
        duplicateReply_enabled).2 :=
  response_correlation (Run.of_enabled duplicateReply duplicateReply_enabled) (by decide)

end Rpc
end WasmiPlugin
