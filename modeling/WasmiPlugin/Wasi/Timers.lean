import WasmiPlugin.Foundation.Minimum
import WasmiPlugin.Wasi.Records

namespace WasmiPlugin
namespace Wasi

open Foundation

/-!
# The timers of `poll_oneoff`

A table of subscriptions is read record by record.  Those that are not timers or
name another clock are skipped, the rest are given their deadlines, and the first
with the earliest deadline is answered.  What the call comes to is an equivalence
for every postcondition that no panic satisfies, and from it follow the condition
for surviving the call and what it does to a caller whose regions are in place.
-/

/-! ## Records -/

/-- A subscription as a guest writes it, with whatever stands in the gaps.  For a
type other than a clock the fields after the type mean something else. -/
structure Subscription where
  userdata : UInt64
  type : UInt8
  typeGap : List UInt8
  clockId : UInt32
  clockGap : List UInt8
  timeout : UInt64
  precision : UInt64
  flags : UInt16
  flagsGap : List UInt8
  typeGap_length : typeGap.length = 7
  clockGap_length : clockGap.length = 4
  flagsGap_length : flagsGap.length = 6

namespace Subscription

variable (subscription : Subscription)

def encode : List UInt8 :=
  leBytes 8 subscription.userdata.toNat ++ (leBytes 1 subscription.type.toNat ++
    (subscription.typeGap ++ (leBytes 4 subscription.clockId.toNat ++ (subscription.clockGap ++
      (leBytes 8 subscription.timeout.toNat ++ (leBytes 8 subscription.precision.toNat ++
        (leBytes 2 subscription.flags.toNat ++ subscription.flagsGap)))))))

def valid : Bool :=
  subscription.type = 0 ∧ (subscription.clockId = 0 ∨ subscription.clockId = 1)

/-- The effective deadline of a timer.  The first of the flags makes the timeout
absolute. -/
def deadline (now : Nat) : Nat :=
  if subscription.flags.toNat % 2 = 1 then subscription.timeout.toNat
  else min (now + subscription.timeout.toNat) (2 ^ 64 - 1)

/-- What `poll_oneoff` keeps of a clock subscription while it looks for the earliest
one. -/
def clock : Host.ClockSubscription :=
  ⟨subscription.userdata.toNat, subscription.clockId.toNat, subscription.timeout.toNat,
    subscription.flags.toNat % 2 = 1⟩

def event : List UInt8 :=
  leBytes 8 subscription.userdata.toNat ++ List.replicate 24 0

theorem valid_iff : subscription.valid = true ↔ subscription.type = 0 ∧
    (subscription.clockId = 0 ∨ subscription.clockId = 1) :=
  decide_eq_true_iff

theorem encode_length : subscription.encode.length = 48 := by
  simp only [encode, List.length_append, leBytes_length, subscription.typeGap_length,
    subscription.clockGap_length, subscription.flagsGap_length]

theorem clock_deadline (now : Nat) :
    subscription.clock.deadline now = subscription.deadline now := by
  simp only [clock, Host.ClockSubscription.deadline, deadline, decide_eq_true_eq]

theorem clockEvent_clock : Host.clockEvent subscription.clock = subscription.event := by
  simp only [Host.clockEvent, clock, event, List.append_assoc]
  rfl

end Subscription

private theorem field_head {bytes after : List UInt8} {offset length : Nat}
    (start : offset = 0) (size : bytes.length = length) :
    Host.field (bytes ++ after) offset length = leNat bytes := by
  rw [Host.field, start, List.drop_zero, List.take_left' size]

private theorem field_skip {before after : List UInt8} {offset length skipped : Nat}
    (size : before.length = skipped) (beyond : skipped ≤ offset) :
    Host.field (before ++ after) offset length = Host.field after (offset - skipped) length := by
  rw [Host.field, Host.field, List.drop_append, size,
    List.drop_eq_nil_of_le (by rw [size]; exact beyond), List.nil_append]

theorem ofBytes_encode (subscription : Subscription) :
    Host.ClockSubscription.ofBytes subscription.encode =
      if subscription.valid then some subscription.clock else none := by
  have eight (value : Nat) : (leBytes 8 value).length = 8 := leBytes_length 8 value
  have four (value : Nat) : (leBytes 4 value).length = 4 := leBytes_length 4 value
  have one (value : Nat) : (leBytes 1 value).length = 1 := leBytes_length 1 value
  have userdata : Host.field subscription.encode 0 8 = subscription.userdata.toNat := by
    rw [Subscription.encode, field_head rfl (eight _),
      leNat_leBytes subscription.userdata.toNat_lt]
  have type : Host.field subscription.encode 8 1 = subscription.type.toNat := by
    rw [Subscription.encode, field_skip (eight _) (by decide), field_head rfl (one _),
      leNat_leBytes subscription.type.toNat_lt]
  have clockId : Host.field subscription.encode 16 4 = subscription.clockId.toNat := by
    rw [Subscription.encode, field_skip (eight _) (by decide), field_skip (one _) (by decide),
      field_skip subscription.typeGap_length (by decide), field_head rfl (four _),
      leNat_leBytes subscription.clockId.toNat_lt]
  have timeout : Host.field subscription.encode 24 8 = subscription.timeout.toNat := by
    rw [Subscription.encode, field_skip (eight _) (by decide), field_skip (one _) (by decide),
      field_skip subscription.typeGap_length (by decide), field_skip (four _) (by decide),
      field_skip subscription.clockGap_length (by decide), field_head rfl (eight _),
      leNat_leBytes subscription.timeout.toNat_lt]
  have flags : Host.field subscription.encode 40 2 = subscription.flags.toNat := by
    rw [Subscription.encode, field_skip (eight _) (by decide), field_skip (one _) (by decide),
      field_skip subscription.typeGap_length (by decide), field_skip (four _) (by decide),
      field_skip subscription.clockGap_length (by decide), field_skip (eight _) (by decide),
      field_skip (eight _) (by decide), field_head rfl (leBytes_length 2 _),
      leNat_leBytes subscription.flags.toNat_lt]
  rw [Host.ClockSubscription.ofBytes, userdata, type, clockId, timeout, flags]
  have isTimer : subscription.type.toNat = 0 ↔ subscription.type = 0 :=
    UInt8.toNat_inj (b := 0)
  have realtime : subscription.clockId.toNat = 0 ↔ subscription.clockId = 0 :=
    UInt32.toNat_inj (b := 0)
  have monotonic : subscription.clockId.toNat = 1 ↔ subscription.clockId = 1 :=
    UInt32.toNat_inj (b := 1)
  by_cases timer : subscription.type = 0
  · rw [if_neg (not_not.mpr (isTimer.mpr timer))]
    by_cases known : subscription.clockId = 0 ∨ subscription.clockId = 1
    · have small : ¬ subscription.clockId.toNat > 1 := by
        rcases known with zero | one
        · rw [realtime.mpr zero]
          decide
        · rw [monotonic.mpr one]
          decide
      rw [if_neg small, if_pos (subscription.valid_iff.mpr ⟨timer, known⟩)]
      rfl
    · have large : subscription.clockId.toNat > 1 := by
        rcases not_or.mp known with ⟨notRealtime, notMonotonic⟩
        have notZero := mt realtime.mp notRealtime
        have notOne := mt monotonic.mp notMonotonic
        omega
      rw [if_pos large, if_neg]
      exact fun valid => known (subscription.valid_iff.mp valid).2
  · rw [if_pos (mt isTimer.mp timer), if_neg]
    exact fun valid => timer (subscription.valid_iff.mp valid).1

section Target

variable [HostTarget]

/-! ## The loop and the call -/

/-- The subscriptions of a table that `poll_oneoff` considers. -/
def clockSubscriptions (memory : GuestMemory) (base : Nat) :
    (remaining index : Nat) -> List Host.ClockSubscription
  | 0, _ => []
  | remaining + 1, index =>
      (Host.ClockSubscription.ofBytes (memory.contents ⟨base + index * 48, 48⟩)).toList ++
        clockSubscriptions memory base remaining (index + 1)

/-- The timeouts that `poll_oneoff` collects are decoded from 64 bits. -/
theorem clockSubscriptions_timeout (memory : GuestMemory) (base remaining index : Nat)
    {subscription : Host.ClockSubscription}
    (member : subscription ∈ clockSubscriptions memory base remaining index) :
    subscription.timeout < 2 ^ 64 := by
  induction remaining generalizing index with
  | zero => exact absurd member List.not_mem_nil
  | succ remaining inductionHypothesis =>
      rcases List.mem_append.mp member with here | later
      · have decoded := Option.mem_toList.mp here
        unfold Host.ClockSubscription.ofBytes at decoded
        split at decoded
        · cases decoded
        · split at decoded
          · cases decoded
          · rw [← Option.some.inj decoded]
            refine Nat.lt_of_lt_of_le (leNat_lt _) ?_
            rw [show 2 ^ 64 = 256 ^ 8 from rfl]
            exact Nat.pow_le_pow_right (by decide) (List.length_take_le 8 _)
      · exact inductionHypothesis (index + 1) later

/-- The caller after `poll_oneoff` has answered a subscription. -/
def Caller.answered (platform : Platform) (now : Nat) (chosen : Host.ClockSubscription)
    (events result : Nat) (caller : Caller) : Caller :=
  let waits := chosen.deadline now > now
  { caller with
    ctx := if waits then
        { caller.ctx with
          sleepUntil := some (platform.instant + (chosen.deadline now - now)) }
      else caller.ctx
    fuel := if waits then 0 else caller.fuel
    memory := (caller.memory.overwrite events (Host.clockEvent chosen)).overwrite result
      (leBytes 4 1) }

section Loop

variable {outcome : Ending -> Caller -> Prop} (noPanic : forall after, ¬ outcome .panic after)
include noPanic

/-- A turn of `poll_oneoff` does not panic exactly when the record lies within the
memory, and goes on whether or not the record is considered. -/
theorem wp_pollTurn (subsPtr : Int32) (index : Nat) (found : List Host.ClockSubscription)
    {post : Program.Turn (List Host.ClockSubscription) -> Caller -> Prop} {caller : Caller} :
    (Host.pollTurn subsPtr index found).wp post outcome caller ↔
      caller.memory.Covers ⟨asUsize subsPtr + index * 48, 48⟩ ∧
        post (.next (found ++ (Host.ClockSubscription.ofBytes
          (caller.memory.contents ⟨asUsize subsPtr + index * 48, 48⟩)).toList)) caller := by
  have small := GuestMemory.size_le caller.memory
  have lengths := targetBounds.lengths
  simp only [Host.pollTurn, Program.wp_bind, Host.wp_usize, Host.wp_readMemory, noPanic]
  by_cases covered : caller.memory.Covers ⟨asUsize subsPtr + index * 48, 48⟩
  · have inside := covered
    simp only [LinearMemory.Covers] at inside
    rw [if_pos (show index * 48 < usizeModulus by omega),
      if_pos (show asUsize subsPtr + index * 48 < usizeModulus by omega), if_pos covered]
    simp only [covered, true_and]
    cases Host.ClockSubscription.ofBytes
        (caller.memory.contents ⟨asUsize subsPtr + index * 48, 48⟩) with
    | none => simp only [Option.toList_none, List.append_nil, Program.wp_pure]
    | some subscription => exact Iff.rfl
  · simp only [covered, if_false, ite_self, false_and]

theorem wp_pollLoop (subsPtr : Int32) (remaining index : Nat)
    (found : List Host.ClockSubscription) {post : List Host.ClockSubscription -> Caller -> Prop}
    {caller : Caller} :
    (Program.loop (Host.pollTurn subsPtr) remaining index found).wp post outcome caller ↔
      (forall later, later < remaining ->
        caller.memory.Covers ⟨asUsize subsPtr + (index + later) * 48, 48⟩) ∧
      post (found ++ clockSubscriptions caller.memory (asUsize subsPtr) remaining index)
        caller := by
  induction remaining generalizing index found with
  | zero =>
      simp only [Program.wp_loop_zero, clockSubscriptions, List.append_nil, Nat.not_lt_zero,
        false_implies, implies_true, true_and]
  | succ remaining inductionHypothesis =>
      rw [Program.wp_loop_succ, wp_pollTurn noPanic]
      simp only [inductionHypothesis (index + 1), clockSubscriptions, List.append_assoc,
        ← and_assoc]
      apply and_congr_left
      intro _
      constructor
      · rintro ⟨covered, rest⟩ later below
        cases later with
        | zero => exact covered
        | succ later =>
            rw [show index + (later + 1) = index + 1 + later by omega]
            exact rest later (by omega)
      · intro all
        refine ⟨all 0 (Nat.succ_pos remaining), fun later below => ?_⟩
        rw [show index + 1 + later = index + (later + 1) by omega]
        exact all (later + 1) (by omega)

/-- What `poll_oneoff` comes to when it does not panic: the subscriptions are
read, and without a timer or a time the call is refused. -/
theorem wp_pollOneoff (platform : Platform)
    (subsPtr eventsPtr nsubscriptions resultPtr : Int32) {caller : Caller} :
    (Host.pollOneoff platform subsPtr eventsPtr nsubscriptions resultPtr).wp outcome outcome
        caller ↔
      (forall index, index < turns nsubscriptions ->
        caller.memory.Covers ⟨asUsize subsPtr + index * 48, 48⟩) ∧
      match clockSubscriptions caller.memory (asUsize subsPtr) (turns nsubscriptions) 0,
          platform.sinceEpoch with
      | first :: others, some nanos =>
          caller.memory.Covers ⟨asUsize eventsPtr, 32⟩ ∧
            caller.memory.Covers ⟨asUsize resultPtr, 4⟩ ∧
            outcome (.errno .success) (caller.answered platform (nanos % 2 ^ 64)
              (Host.earliest (nanos % 2 ^ 64) first others) (asUsize eventsPtr)
              (asUsize resultPtr))
      | _, _ => outcome (.errno .inval) caller := by
  simp only [Host.pollOneoff, Program.wp_ite, Program.wp_pure, Program.wp_bind]
  by_cases none : nsubscriptions = 0
  · subst none
    simp only [if_true, show turns 0 = 0 from rfl, Nat.not_lt_zero, false_implies, implies_true,
      clockSubscriptions, true_and]
  · rw [if_neg none, wp_pollLoop noPanic]
    simp only [Nat.zero_add, List.nil_append]
    apply and_congr_right
    intro _
    cases clockSubscriptions caller.memory (asUsize subsPtr) (turns nsubscriptions) 0 with
    | nil => exact Iff.rfl
    | cons first others =>
        simp only [Program.wp_bind, Host.nowNanos]
        cases platform.sinceEpoch with
        | none => exact Iff.rfl
        | some nanos =>
            have event : (Host.clockEvent (Host.earliest (nanos % 2 ^ 64) first others)).length =
                32 := by
              simp only [Host.clockEvent, List.length_append, leBytes_length]
            simp only [Program.wp_pure, Host.awaitDeadline, Program.wp_ite, Program.wp_bind,
              Program.wp_change, Host.wp_giveUpFuel, Host.wp_writeMemory, event, leBytes_length,
              LinearMemory.overwrite_covers, noPanic, Caller.answered]
            by_cases events : caller.memory.Covers ⟨asUsize eventsPtr, 32⟩
            · by_cases result : caller.memory.Covers ⟨asUsize resultPtr, 4⟩
              · simp only [events, result, if_true, true_and]
                split <;> exact Iff.rfl
              · simp only [events, result, if_false, false_and, and_false, ite_self]
            · simp only [events, if_false, false_and, ite_self]

end Loop

/-- The subscriptions that are considered are the valid ones, in order. -/
theorem clockSubscriptions_encode (memory : GuestMemory) (base index : Nat)
    (subscriptions : List Subscription)
    (stored : memory.contents ⟨base + index * 48, subscriptions.length * 48⟩ =
      subscriptions.flatMap Subscription.encode) :
    clockSubscriptions memory base subscriptions.length index =
      (subscriptions.filter Subscription.valid).map Subscription.clock := by
  induction subscriptions generalizing index with
  | nil => rfl
  | cons first rest inductionHypothesis =>
      rw [List.length_cons, Nat.add_mul, Nat.one_mul, Nat.add_comm (rest.length * 48),
        LinearMemory.contents_append, List.flatMap_cons] at stored
      rcases List.append_inj stored (by
        rw [LinearMemory.contents_length, first.encode_length]) with ⟨here, later⟩
      have next : base + index * 48 + 48 = base + (index + 1) * 48 := by omega
      rw [next] at later
      rw [List.length_cons, clockSubscriptions, here, ofBytes_encode,
        inductionHypothesis (index + 1) later, List.filter_cons]
      split <;> rfl

/-! ## The earliest timer -/

/-- A table of subscriptions stands in the memory, and the event and the count
have their places.  A region that the memory covers begins below 2^31, as a
negative pointer is no address. -/
structure PlacedPoll (memory : GuestMemory) (subscriptions : List Subscription)
    (subsPtr eventsPtr nsubscriptions resultPtr : Int32) : Prop where
  nonempty : subscriptions ≠ []
  count : nsubscriptions.toInt = subscriptions.length
  covered : memory.Covers ⟨asUsize subsPtr, subscriptions.length * 48⟩
  stored : memory.contents ⟨asUsize subsPtr, subscriptions.length * 48⟩ =
    subscriptions.flatMap Subscription.encode
  events : memory.Covers ⟨asUsize eventsPtr, 32⟩
  result : memory.Covers ⟨asUsize resultPtr, 4⟩
  apart : Region.Disjoint ⟨asUsize eventsPtr, 32⟩ ⟨asUsize resultPtr, 4⟩

/-- A call answered the first of the valid timers with the earliest deadline: one
event with its userdata is stored, and if the deadline is still to come the guest will
be resumed at it. -/
structure PicksEarliest (platform : Platform) (caller : Caller)
    (subscriptions : List Subscription) (events result : Nat) (ending : Ending) (after : Caller) :
    Prop where
  /-- Without a valid timer nothing happens. -/
  refused : subscriptions.filter Subscription.valid = [] ->
    ending = .errno .inval ∧ after.memory = caller.memory ∧ after.fuel = caller.fuel ∧
      after.ctx.sleepUntil = caller.ctx.sleepUntil
  picked : forall nanos, platform.sinceEpoch = some nanos ->
    subscriptions.filter Subscription.valid ≠ [] -> Exists fun chosen : Subscription =>
      FirstMinimal (fun other : Subscription => other.deadline (nanos % 2 ^ 64))
        (subscriptions.filter Subscription.valid) chosen ∧
      ending = .errno .success ∧
      after.memory.contents ⟨events, 32⟩ = chosen.event ∧
      after.memory.contents ⟨result, 4⟩ = leBytes 4 1 ∧
      after.memory.size = caller.memory.size ∧
      (forall address, address < events ∨ events + 32 ≤ address ->
        address < result ∨ result + 4 ≤ address ->
        after.memory.byte address = caller.memory.byte address) ∧
      if nanos % 2 ^ 64 < chosen.deadline (nanos % 2 ^ 64) then
        after.ctx.sleepUntil = some (platform.instant +
          (chosen.deadline (nanos % 2 ^ 64) - nanos % 2 ^ 64)) ∧ after.fuel = 0
      else after.ctx.sleepUntil = caller.ctx.sleepUntil ∧ after.fuel = caller.fuel

private theorem answered_picks (platform : Platform) (caller : Caller) (nanos : Nat)
    (current : platform.sinceEpoch = some nanos) {subscriptions : List Subscription}
    {chosen : Subscription} {events result : Nat}
    (apart : Region.Disjoint ⟨events, 32⟩ ⟨result, 4⟩)
    (minimal : FirstMinimal (fun other : Subscription => other.deadline (nanos % 2 ^ 64))
      (subscriptions.filter Subscription.valid) chosen) :
    PicksEarliest platform caller subscriptions events result (.errno .success)
      (Caller.answered platform (nanos % 2 ^ 64) chosen.clock events result
        { caller with strayed := false }) where
  refused := by
    intro none
    rcases minimal with ⟨before, after, shape, _⟩
    rw [none] at shape
    cases before <;> cases shape
  picked := by
    intro nanos' current' _
    cases current.symm.trans current'
    have eventLength : (Host.clockEvent chosen.clock).length = 32 := by
      simp only [Host.clockEvent, List.length_append, leBytes_length]
    refine ⟨chosen, minimal, rfl, ?_, ?_, rfl, fun address outEvents outResult => ?_, ?_⟩
    · rw [← chosen.clockEvent_clock]
      have apart' : Region.Disjoint ⟨events, 32⟩ ⟨result, (leBytes 4 1).length⟩ := by
        rw [leBytes_length]
        exact apart
      refine (LinearMemory.contents_overwrite_disjoint _ apart').trans ?_
      rw [← eventLength]
      exact LinearMemory.contents_overwrite_same ..
    · exact LinearMemory.contents_overwrite_same _ result (leBytes 4 1)
    · rw [← leBytes_length 4 1] at outResult
      rw [← eventLength] at outEvents
      exact (LinearMemory.overwrite_byte_outside _ outResult).trans
        (LinearMemory.overwrite_byte_outside _ outEvents)
    · simp only [Caller.answered, chosen.clock_deadline, gt_iff_lt]
      split <;> exact ⟨rfl, rfl⟩

/-- A call of `poll_oneoff` with its table in place answers the first of the valid
timers with the earliest deadline, and asks to be resumed then. -/
theorem poll_oneoff_picks_earliest (platform : Platform) (caller : Caller)
    {subscriptions : List Subscription} {subsPtr eventsPtr nsubscriptions resultPtr : Int32}
    (placed : PlacedPoll caller.memory subscriptions subsPtr eventsPtr nsubscriptions resultPtr) :
    PicksEarliest platform caller subscriptions (asUsize eventsPtr) (asUsize resultPtr)
      ((HostCall.pollOneoff subsPtr eventsPtr nsubscriptions resultPtr).perform platform caller).1
      ((HostCall.pollOneoff subsPtr eventsPtr nsubscriptions resultPtr).perform platform
        caller).2 := by
  have counted : turns nsubscriptions = subscriptions.length := by
    rw [turns, placed.count]
    exact Int.toNat_natCast _
  have found : clockSubscriptions caller.memory (asUsize subsPtr) (turns nsubscriptions) 0 =
      (subscriptions.filter Subscription.valid).map Subscription.clock := by
    rw [counted]
    exact clockSubscriptions_encode caller.memory (asUsize subsPtr) 0 subscriptions placed.stored
  refine (((HostCall.pollOneoff subsPtr eventsPtr nsubscriptions resultPtr).perform_wp platform
    caller (fun ending after => ending ≠ .panic ∧ PicksEarliest platform caller subscriptions
      (asUsize eventsPtr) (asUsize resultPtr) ending after)).mpr ?_).2
  refine (wp_pollOneoff (fun after picks => picks.1 rfl) platform subsPtr eventsPtr nsubscriptions
    resultPtr).mpr ⟨fun index below => ?_, ?_⟩
  · have covered := placed.covered
    rw [counted] at below
    simp only [LinearMemory.Covers] at covered ⊢
    omega
  · dsimp only
    rw [found]
    cases considered : subscriptions.filter Subscription.valid with
    | nil => exact ⟨Ending.noConfusion, fun _ => ⟨rfl, rfl, rfl, rfl⟩,
        fun _ _ some => absurd considered some⟩
    | cons first rest =>
        have some : subscriptions.filter Subscription.valid ≠ [] := by
          rw [considered]
          exact List.cons_ne_nil first rest
        cases current : platform.sinceEpoch with
        | none => exact ⟨Ending.noConfusion, fun none => absurd none some,
            fun _ early => absurd (current.symm.trans early) (by simp only [reduceCtorEq,
              not_false_eq_true])⟩
        | some nanos =>
            have minimal : FirstMinimal
                (fun other : Host.ClockSubscription => other.deadline (nanos % 2 ^ 64))
                ((subscriptions.filter Subscription.valid).map Subscription.clock)
                (Host.earliest (nanos % 2 ^ 64) first.clock (rest.map Subscription.clock)) := by
              rw [considered]
              exact minByKey_firstMinimal first.clock (rest.map Subscription.clock)
            rcases minimal.of_map with ⟨chosen, same, earliest⟩
            simp only [Subscription.clock_deadline] at earliest
            refine ⟨placed.events, placed.result, Ending.noConfusion, ?_⟩
            rw [← same]
            exact answered_picks platform caller nanos current placed.apart earliest

end Target

/-! ## Three timers -/

/-- A timer that fires some nanoseconds from now. -/
def relativeTimer (userdata timeout : UInt64) : Subscription where
  userdata := userdata
  type := 0
  typeGap := List.replicate 7 0
  clockId := 1
  clockGap := List.replicate 4 0
  timeout := timeout
  precision := 0
  flags := 0
  flagsGap := List.replicate 6 0
  typeGap_length := rfl
  clockGap_length := rfl
  flagsGap_length := rfl

/-- A long timer and two equal ones that are shorter. -/
def threeTimers : List Subscription :=
  [relativeTimer 7 900, relativeTimer 8 500, relativeTimer 9 500]

def timerCaller : Caller where
  ctx := ⟨[], [], none, false, false, none, false⟩
  memory := (onePage fun _ => 0).overwrite 0 (threeTimers.flatMap Subscription.encode)
  fuel := 10000
  stdin := Pipe.nonBlockingPipe
  stdout := Pipe.nonBlockingPipe
  stderr := Pipe.nonBlockingPipe
  strayed := false

private theorem three_timers_stored :
    timerCaller.memory.contents ⟨asUsize 0, threeTimers.length * 48⟩ =
      threeTimers.flatMap Subscription.encode := by
  have length : (threeTimers.flatMap Subscription.encode).length = 144 := by
    simp only [threeTimers, List.flatMap_cons, List.flatMap_nil, List.length_append,
      Subscription.encode_length, List.length_nil]
  have stored := LinearMemory.contents_overwrite_same (onePage fun _ => 0) 0
    (threeTimers.flatMap Subscription.encode)
  rw [length] at stored
  exact stored

/-- A guest with three timers is answered the first of the two that are shorter. -/
theorem three_timers_pick_earliest :
    PicksEarliest ⟨some 1000, 40, none⟩ timerCaller threeTimers (asUsize 256) (asUsize 288)
      ((HostCall.pollOneoff 0 256 3 288).perform ⟨some 1000, 40, none⟩ timerCaller).1
      ((HostCall.pollOneoff 0 256 3 288).perform ⟨some 1000, 40, none⟩ timerCaller).2 :=
  poll_oneoff_picks_earliest ⟨some 1000, 40, none⟩ timerCaller {
    nonempty := List.cons_ne_nil _ _
    count := rfl
    covered := by decide
    stored := three_timers_stored
    events := by decide
    result := by decide
    apart := by decide }

end Wasi
end WasmiPlugin
