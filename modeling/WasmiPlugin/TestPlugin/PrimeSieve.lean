import Mathlib.Data.Nat.Find
import Mathlib.NumberTheory.PrimeCounting
import WasmiPlugin.TestPlugin.ManyEcho

namespace WasmiPlugin
namespace TestPlugin

open Foundation Rpc Rpc.Server

/-!
# The test plugin counts primes

`prime_sieve` computes in the plugin and does not call the host.  It crosses out, for
each number up to the root of its limit that is not crossed out itself, the multiples
from its square on.  The benchmarks count with it how much a plugin may compute.

A plugin has 32-bit addresses, so the limit of a request, which has 64 bits, is cut,
and a vector of flags has at most `isize::MAX` of them.  A step outside of these
bounds is a panic, which is `none` here.  That there is memory is taken for granted.
-/

/-! ## Crossing out -/

/-- None of the numbers below the bound has crossed this number out. -/
def Sifted (bound number : Nat) : Prop :=
  2 ≤ number ∧ forall divisor, 2 ≤ divisor -> divisor < bound -> divisor ∣ number ->
    number < divisor * divisor

theorem sifted_two (number : Nat) : Sifted 2 number ↔ 2 ≤ number :=
  ⟨fun sifted => sifted.1, fun big => ⟨big, fun _ low high _ => absurd high (by omega)⟩⟩

/-- Going from one bound to the next, the number at the bound crosses out its
multiples from its square on. -/
theorem sifted_succ {bound : Nat} (big : 2 ≤ bound) (number : Nat) :
    Sifted (bound + 1) number ↔
      Sifted bound number ∧ ¬(bound ∣ number ∧ bound * bound ≤ number) := by
  constructor
  · rintro ⟨large, none⟩
    refine ⟨⟨large, fun divisor low high => none divisor low (Nat.lt_succ_of_lt high)⟩, ?_⟩
    rintro ⟨divides, square⟩
    exact Nat.not_lt.mpr square (none bound big (Nat.lt_succ_self bound) divides)
  · rintro ⟨⟨large, none⟩, kept⟩
    refine ⟨large, fun divisor low high divides => ?_⟩
    rcases Nat.lt_succ_iff_lt_or_eq.mp high with below | rfl
    · exact none divisor low below divides
    · exact Nat.not_le.mp fun square => kept ⟨divides, square⟩

/-- A number that is crossed out itself has no multiples left to cross out. -/
theorem sifted_skip {bound : Nat} (big : 2 ≤ bound) (crossed : ¬Sifted bound bound)
    (number : Nat) : Sifted (bound + 1) number ↔ Sifted bound number := by
  rw [sifted_succ big]
  refine ⟨fun both => both.1, fun sifted => ⟨sifted, ?_⟩⟩
  rintro ⟨divides, square⟩
  refine crossed ⟨big, fun divisor low high smaller => ?_⟩
  have below := sifted.2 divisor low high (smaller.trans divides)
  exact Nat.lt_of_le_of_lt (Nat.le_mul_self bound) (Nat.lt_of_le_of_lt square below)

/-- What is left below the square of the bound are the primes. -/
theorem sifted_iff_prime {bound number : Nat} (small : number < bound * bound) :
    Sifted bound number ↔ number.Prime := by
  constructor
  · rintro ⟨large, none⟩
    by_contra composite
    have square := Nat.minFac_sq_le_self (by omega) composite
    rw [Nat.pow_two] at square
    have factor := (Nat.minFac_prime (show number ≠ 1 by omega)).two_le
    have below : number.minFac < bound := Nat.mul_self_lt_mul_self_iff.mp (by omega)
    have bigger := none number.minFac factor below number.minFac_dvd
    omega
  · intro prime
    refine ⟨prime.two_le, fun divisor low _ divides => ?_⟩
    rcases (Nat.dvd_prime prime).mp divides with one | rfl
    · omega
    · exact lt_mul_of_one_lt_left (by omega) (by omega)

/-! ## The sieve -/

/-- `usize` has 32 bits in a plugin. -/
def usizeModulus : Nat := 2 ^ 32

/-- `isize::MAX`, which no vector of flags exceeds. -/
def isizeMax : Nat := 2 ^ 31 - 1

/-- The assignment `flags[index] = false`, which panics beyond the vector. -/
def strike (flags : Array Bool) (index : Nat) : Option (Array Bool) :=
  if inside : index < flags.size then some (flags.set index false inside) else none

/-- The indices of `(start..=limit).step_by(step)`. -/
def stepBy (start limit step : Nat) : List Nat :=
  if limit < start then [] else List.range' start ((limit - start) / step + 1) step

/-- `(limit as f64).sqrt() as usize`.  The float of a number of 32 bits is exact, and so
is the whole part of its root. -/
def root (limit : Nat) : Nat :=
  Nat.findGreatest (fun value => value * value ≤ limit) limit

/-- The body of the outer loop of the sieve. -/
def sift (limit : Nat) (flags : Array Bool) (i : Nat) : Option (Array Bool) :=
  match flags[i]? with
  | none => none
  | some true => (stepBy (i * i % usizeModulus) limit i).foldlM strike flags
  | some false => some flags

/-- The numbers that `(2..=limit).filter(|&i| is_prime[i]).collect()` gives, with the
check of each index. -/
def collect (flags : Array Bool) : List Nat -> Option (List Nat)
  | [] => some []
  | i :: rest =>
      match flags[i]?, collect flags rest with
      | some isPrime, some kept => some (if isPrime then i :: kept else kept)
      | _, _ => none

/-- `sieve_of_eratosthenes`.  Without overflow checks `limit + 1` wraps, and the vector
is too short for what follows. -/
def sieveOfEratosthenes (limit : Nat) : Option (List Nat) :=
  if limit < 2 then some []
  else
    let size := (limit + 1) % usizeModulus
    if isizeMax < size then none
    else do
      let flags ← strike (Array.replicate size true) 0
      let flags ← strike flags 1
      let flags ← (List.range' 2 (root limit - 1)).foldlM (sift limit) flags
      collect flags (List.range' 2 (limit - 1))

/-! ## Marks -/

/-- The flags up to the limit tell which numbers are kept. -/
def Marks (limit : Nat) (kept : Nat -> Prop) (flags : Array Bool) : Prop :=
  forall number, number ≤ limit ->
    Exists fun mark => flags[number]? = some mark ∧ (mark = true ↔ kept number)

theorem Marks.congr {limit : Nat} {kept others : Nat -> Prop} {flags : Array Bool}
    (marks : Marks limit kept flags)
    (same : forall number, number ≤ limit -> (kept number ↔ others number)) :
    Marks limit others flags := by
  intro number inside
  rcases marks number inside with ⟨mark, found, told⟩
  exact ⟨mark, found, told.trans (same number inside)⟩

theorem marks_all {limit size : Nat} (large : limit < size) :
    Marks limit (fun _ => True) (Array.replicate size true) := by
  intro number inside
  refine ⟨true, ?_, by simp only⟩
  rw [Array.getElem?_replicate, if_pos (Nat.lt_of_le_of_lt inside large)]

theorem strike_marks {limit index : Nat} {kept : Nat -> Prop} {flags : Array Bool}
    (marks : Marks limit kept flags) (inside : index ≤ limit) : Exists fun struck =>
      strike flags index = some struck ∧
        Marks limit (fun number => kept number ∧ number ≠ index) struck := by
  rcases marks index inside with ⟨_, found, _⟩
  rcases Array.getElem?_eq_some_iff.mp found with ⟨within, _⟩
  refine ⟨flags.set index false within, dif_pos within, ?_⟩
  intro number below
  rw [Array.getElem?_set]
  by_cases same : index = number
  · rw [if_pos same]
    exact ⟨false, rfl, fun never => Bool.noConfusion never, fun both => absurd same.symm both.2⟩
  · rw [if_neg same]
    rcases marks number below with ⟨mark, found, told⟩
    refine ⟨mark, found, told.trans ?_⟩
    exact ⟨fun kept => ⟨kept, Ne.symm same⟩, fun both => both.1⟩

theorem strikes_marks {limit : Nat} (indices : List Nat) {kept : Nat -> Prop} {flags : Array Bool}
    (marks : Marks limit kept flags) (inside : forall index, index ∈ indices -> index ≤ limit) :
    Exists fun struck => indices.foldlM strike flags = some struck ∧
      Marks limit (fun number => kept number ∧ number ∉ indices) struck := by
  induction indices generalizing kept flags with
  | nil =>
      refine ⟨flags, rfl, marks.congr fun number _ => ?_⟩
      simp only [List.not_mem_nil, not_false_eq_true, and_true]
  | cons index rest inductionHypothesis =>
      rw [List.forall_mem_cons] at inside
      rcases strike_marks marks inside.1 with ⟨first, struck, marked⟩
      rcases inductionHypothesis marked inside.2 with ⟨last, folded, all⟩
      refine ⟨last, ?_, all.congr fun number _ => ?_⟩
      · rw [List.foldlM_cons, struck, Option.bind_eq_bind, Option.bind_some, folded]
      · rw [List.mem_cons, not_or, and_assoc]

theorem mem_stepBy {limit step number : Nat} (positive : 0 < step) :
    number ∈ stepBy (step * step) limit step ↔
      (step ∣ number ∧ step * step ≤ number) ∧ number ≤ limit := by
  rw [stepBy]
  split
  next short =>
    simp only [List.not_mem_nil, false_iff]
    omega
  next long =>
    rw [List.mem_range']
    constructor
    · rintro ⟨count, few, rfl⟩
      have steps : step * count ≤ limit - step * step :=
        (Nat.mul_comm step count).le.trans
          ((Nat.le_div_iff_mul_le positive).mp (Nat.le_of_lt_succ few))
      exact ⟨⟨⟨step + count, (Nat.mul_add step step count).symm⟩, by omega⟩, by omega⟩
    · rintro ⟨⟨⟨factor, rfl⟩, square⟩, inside⟩
      have enough : step ≤ factor := Nat.le_of_mul_le_mul_left square positive
      have split : step * factor = step * step + step * (factor - step) := by
        rw [← Nat.mul_add, Nat.add_sub_cancel' enough]
      refine ⟨factor - step, Nat.lt_succ_of_le ((Nat.le_div_iff_mul_le positive).mpr ?_), split⟩
      rw [Nat.mul_comm]
      omega

/-- One round of the outer loop keeps exactly what its number does not cross out. -/
theorem sift_marks {limit i : Nat} {flags : Array Bool} (small : limit < usizeModulus)
    (big : 2 ≤ i) (square : i * i ≤ limit) (marks : Marks limit (Sifted i) flags) :
    Exists fun sifted => sift limit flags i = some sifted ∧
      Marks limit (Sifted (i + 1)) sifted := by
  have inside : i ≤ limit := (Nat.le_mul_self i).trans square
  rcases marks i inside with ⟨mark, found, told⟩
  cases mark with
  | false =>
      have crossed : ¬Sifted i i := fun sifted => Bool.noConfusion (told.mpr sifted)
      refine ⟨flags, by rw [sift, found], marks.congr fun number _ => ?_⟩
      exact (sifted_skip big crossed number).symm
  | true =>
      have whole : i * i % usizeModulus = i * i := Nat.mod_eq_of_lt (by omega)
      have positive : 0 < i := Nat.zero_lt_of_lt big
      rcases strikes_marks (stepBy (i * i) limit i) marks
        fun index member => ((mem_stepBy positive).mp member).2 with ⟨struck, folded, marked⟩
      refine ⟨struck, by rw [sift, found, whole]; exact folded, ?_⟩
      refine marked.congr fun number below => ?_
      rw [sifted_succ big, mem_stepBy positive, and_iff_left below]

theorem sifts_mark {limit : Nat} (small : limit < usizeModulus) (count start : Nat)
    {flags : Array Bool} (big : 2 ≤ start)
    (squares : (start + count - 1) * (start + count - 1) ≤ limit)
    (marks : Marks limit (Sifted start) flags) : Exists fun sifted =>
      (List.range' start count).foldlM (sift limit) flags = some sifted ∧
        Marks limit (Sifted (start + count)) sifted := by
  induction count generalizing start flags with
  | zero => exact ⟨flags, rfl, marks⟩
  | succ count inductionHypothesis =>
      have last : start + 1 + count = start + (count + 1) := by omega
      have square : start * start ≤ limit :=
        (Nat.mul_self_le_mul_self (by omega)).trans squares
      rcases sift_marks small big square marks with ⟨first, sifted, marked⟩
      rcases inductionHypothesis (start + 1) (by omega) (by rw [last]; exact squares) marked
        with ⟨rest, folded, all⟩
      refine ⟨rest, ?_, last ▸ all⟩
      rw [List.range'_succ, List.foldlM_cons, sifted, Option.bind_eq_bind, Option.bind_some, folded]

theorem collect_marks {limit : Nat} {kept : Nat -> Prop} [DecidablePred kept] {flags : Array Bool}
    (marks : Marks limit kept flags) (indices : List Nat)
    (inside : forall index, index ∈ indices -> index ≤ limit) :
    collect flags indices = some (indices.filter fun index => kept index) := by
  induction indices with
  | nil => rfl
  | cons index rest inductionHypothesis =>
      rw [List.forall_mem_cons] at inside
      rcases marks index inside.1 with ⟨mark, found, told⟩
      have same : mark = decide (kept index) := by
        rw [Bool.eq_iff_iff, told, decide_eq_true_eq]
      rw [collect, found, inductionHypothesis inside.2, List.filter_cons, same]

/-! ## The primes -/

theorem root_square (limit : Nat) : root limit * root limit ≤ limit :=
  Nat.findGreatest_spec (P := fun value => value * value ≤ limit) (Nat.zero_le limit)
    (Nat.zero_le limit)

theorem lt_root_square (limit : Nat) : limit < (root limit + 1) * (root limit + 1) := by
  by_contra small
  have next : root limit + 1 ≤ root limit :=
    Nat.le_findGreatest ((Nat.le_mul_self _).trans (Nat.not_lt.mp small)) (Nat.not_lt.mp small)
  omega

/-- The primes up to a limit, in order. -/
def primesUpTo (limit : Nat) : List Nat :=
  (List.range (limit + 1)).filter fun number => number.Prime

theorem primesUpTo_length (limit : Nat) :
    (primesUpTo limit).length = Nat.primeCounting limit := by
  rw [primesUpTo, ← List.countP_eq_length_filter, Nat.primeCounting, Nat.primeCounting', Nat.count]

theorem primesUpTo_eq {limit : Nat} :
    primesUpTo limit = (List.range' 2 (limit - 1)).filter fun number => number.Prime := by
  cases limit with
  | zero => rfl
  | succ limit =>
      have parts : List.range (limit + 1 + 1) = List.range' 0 2 ++ List.range' 2 limit := by
        rw [List.range_eq_range', Nat.add_assoc, Nat.add_comm]
        exact List.range'_append_1.symm
      rw [primesUpTo, parts, List.filter_append]
      rfl

theorem sieve_small {limit : Nat} (short : limit < isizeMax) :
    sieveOfEratosthenes limit = some (primesUpTo limit) := by
  rw [sieveOfEratosthenes, primesUpTo_eq]
  split
  next least =>
    have none : limit - 1 = 0 := by omega
    rw [none]
    rfl
  next large =>
    have big : 2 ≤ limit := Nat.not_lt.mp large
    have word : isizeMax < usizeModulus := by decide
    have size : (limit + 1) % usizeModulus = limit + 1 := Nat.mod_eq_of_lt (by omega)
    rcases strike_marks (marks_all (Nat.lt_succ_self limit)) (Nat.zero_le limit)
      with ⟨zeroth, struck, marks⟩
    rcases strike_marks marks (Nat.le_of_succ_le big) with ⟨first, struckToo, marked⟩
    have start : Marks limit (Sifted 2) first := marked.congr fun number _ => by
      simp only [true_and, sifted_two]
      omega
    have small : 1 ≤ limit := Nat.le_of_succ_le big
    have positive : 1 ≤ root limit := Nat.le_findGreatest small small
    have last : 2 + (root limit - 1) = root limit + 1 := by omega
    rcases sifts_mark (by omega) (root limit - 1) 2 (Nat.le_refl 2)
      (by rw [last]; exact root_square limit) start with ⟨sifted, folded, kept⟩
    have primes : Marks limit Nat.Prime sifted := kept.congr fun number inside =>
      sifted_iff_prime (by rw [last]; exact Nat.lt_of_le_of_lt inside (lt_root_square limit))
    rw [size, if_neg (by omega), struck, Option.bind_eq_bind, Option.bind_some, struckToo]
    rw [Option.bind_some, folded, Option.bind_some]
    refine collect_marks primes _ fun index member => ?_
    rw [List.mem_range'_1] at member
    omega

theorem sieve_large {limit : Nat} (wide : limit < usizeModulus) (long : isizeMax ≤ limit) :
    sieveOfEratosthenes limit = none := by
  have big : ¬limit < 2 := by
    rw [isizeMax] at long
    omega
  rw [sieveOfEratosthenes, if_neg big]
  rcases Nat.lt_or_eq_of_le (Nat.succ_le_of_lt wide) with below | wraps
  · exact if_pos (by rw [Nat.mod_eq_of_lt below]; exact Nat.lt_succ_of_le long)
  · have none : (limit + 1) % usizeModulus = 0 := wraps ▸ Nat.mod_self usizeModulus
    rw [none]
    rfl

/-! ## The method -/

/-- The value that `prime_sieve` makes of the primes up to a limit. -/
def counted (limit count : Nat) : Value :=
  .ofJson (.obj [("count", .num (.posInt (UInt64.ofNat count))),
    ("limit", .num (.posInt (UInt64.ofNat limit)))])

def asUsize (limit : UInt64) : Nat := limit.toNat % usizeModulus

/-- `prime_sieve`, with the result that its future comes to. -/
def primeSieve (limit : UInt64) : Option (Except RpcError Value) :=
  (sieveOfEratosthenes (asUsize limit)).map fun primes =>
    .ok (counted (asUsize limit) primes.length)

/-- A method that computes without asking the host. What a panic leads to is left open. -/
def computing (panicked : HandlerProgram) : Option (Except RpcError Value) -> HandlerProgram
  | none => panicked
  | some result => .ret result

/-- The methods of the plugin's server with `prime_sieve` among them. -/
def sievingHandler (panicked : HandlerProgram) (others : String -> Value -> HandlerProgram) :
    String -> Value -> HandlerProgram :=
  pluginHandler fun method params =>
    if method = "prime_sieve" then
      withParams Value.asU64 (fun limit => computing panicked (primeSieve limit)) params
    else others method params

theorem primeSieve_small {limit : UInt64} (short : asUsize limit < isizeMax) :
    primeSieve limit =
      some (.ok (counted (asUsize limit) (Nat.primeCounting (asUsize limit)))) := by
  rw [primeSieve, sieve_small short, Option.map_some, primesUpTo_length]

/-- For every limit that a request can give, the sieve finds the primes up to the limit,
cut to the plugin's words, unless that is too long for a vector of flags. -/
theorem prime_sieve_counts (limit : UInt64) :
    sieveOfEratosthenes (asUsize limit) = (if asUsize limit < isizeMax then
        some ((List.range (asUsize limit + 1)).filter fun number => number.Prime) else none) ∧
      primeSieve limit = if asUsize limit < isizeMax then
        some (.ok (counted (asUsize limit) (Nat.primeCounting (asUsize limit)))) else none := by
  have wide : asUsize limit < usizeModulus := Nat.mod_lt _ (by decide)
  by_cases short : asUsize limit < isizeMax
  · rw [if_pos short, if_pos short]
    exact ⟨sieve_small short, primeSieve_small short⟩
  · have large := sieve_large wide (Nat.not_lt.mp short)
    rw [if_neg short, if_neg short, primeSieve, large]
    exact ⟨rfl, rfl⟩

example : sieveOfEratosthenes 30 = some [2, 3, 5, 7, 11, 13, 17, 19, 23, 29] := by decide

variable {text : JsonText} {panicked : HandlerProgram} {others : String -> Value -> HandlerProgram}

/-- In every execution in which both sides are polled again and again, a call of
`prime_sieve` with a limit that has room returns the count of the primes, whatever the
host's methods are, and asks for none of them. -/
theorem prime_sieve_returns {path : Path (Conversation.step text (sievingHandler panicked others))
      .new} (attended : Attended path) {limit : UInt64}
    (short : asUsize limit < isizeMax) :
    path.LeadsTo (fun conversation => ("prime_sieve", number limit) ∈ conversation.hostCalls)
      fun conversation =>
        (conversation.host.task 0).phase.returned = some (.ok ⟨jsonRpcVersion, 0,
          counted (asUsize limit) (Nat.primeCounting (asUsize limit))⟩) ∧
          conversation.hostInvocations = [] := by
  have program : sievingHandler panicked others "prime_sieve" (number limit) =
      computing panicked (primeSieve limit) := rfl
  rw [primeSieve_small short, computing] at program
  have returns := attended.unasking_returns knowsNothing "prime_sieve" (number limit)
    (by rw [program]; rfl)
  rw [program] at returns
  exact returns

/-! ## Four numbers -/

def fourMessages : List RpcMessage :=
  [.rpcRequest ⟨jsonRpcVersion, 0, "prime_sieve", number 4⟩,
    .rpcResponse ⟨jsonRpcVersion, 0, counted 4 2⟩]

def fourText : JsonText := compactText (fourMessages.map RpcMessage.serialize)

def fourActions : List ConversationAction :=
  [.hostCalls "prime_sieve" (number 4), .guestPumps, .guestPolls, .guestReturns, .hostPolls]

def fourHandler : String -> Value -> HandlerProgram :=
  sievingHandler (.ret (.error .internalError)) noOthers

theorem four_enabled :
    (Run.play (Conversation.step fourText fourHandler) .new fourActions).isSome := by
  decide

def fourPath : Path (Conversation.step fourText fourHandler) .new :=
  .ofActions fourActions four_enabled

theorem four_faithful : forall message, message ∈ fourMessages ->
    fourText.Faithful message.serialize := by
  simp only [fourMessages, List.forall_mem_cons]
  refine ⟨?_, ?_, fun _ member => absurd member List.not_mem_nil⟩
  all_goals exact .of_text rfl (by decide) (by decide) (by decide)

theorem fourPath_attended : Attended fourPath :=
  .ofActions four_enabled (rfl : _ = fourMessages) four_faithful rfl Phase.noConfusion
    (Option.some_ne_none _)

/-- A call of `prime_sieve` with the limit 4 returns the count 2. -/
theorem four_returns : Exists fun later => 1 ≤ later ∧
    ((fourPath.state later).host.task 0).phase.returned =
        some (.ok ⟨jsonRpcVersion, 0, counted 4 (Nat.primeCounting 4)⟩) ∧
      (fourPath.state later).hostInvocations = [] :=
  prime_sieve_returns fourPath_attended
    (show asUsize 4 < isizeMax by decide) 1 List.mem_cons_self

end TestPlugin
end WasmiPlugin
