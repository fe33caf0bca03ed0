import Mathlib.Data.Nat.Fib.Basic
import RequestEngine.Proofs.Standings

/-!
Contract: the Fibonacci numbers, a recursion with two calls that memoization makes linear.

Owns:
- the counter of the computations, and how much room it has;
- the cache that the recursion builds up, in the order in which numbers are completed;
- what evaluating a number does on an empty cache, below the overflow and above it,
  and when the counter has no room for all computations;
- what an overflow leaves behind, and how it answers afterwards.

The first call of every number descends to the first one and fills the cache on
its way back, so that every second call but the lowest is a cache hit. The sum
that no longer fits is met on the way back as well, at the same number whatever
number was asked for. Everything above it is still being computed at that time.
A counter that is full is met on the way down, before anything is kept, unless
only the very last computation has no room.

Does not own: other recursions.
-/

namespace RequestEngine

namespace Fixtures

open Program (Takes)

abbrev FixtureStanding := Standing FixtureRequest FixtureValue FixtureState

variable {forest : List TreeNode} {depth index bound least : Nat} {α : Type}
variable {before final : FixtureStanding} {world : FixtureState}
variable {active : List FixtureRequest} {metrics : Metrics}

abbrev number (index : Nat) : FixtureRequest := .fibonacci (UInt32.ofNat index)

def numberValue (index : Nat) : UInt64 := UInt64.ofNat (Nat.fib index)

/-- A number with its value, as the result cache keeps it. -/
def numberResult (index : Nat) : StoredResult FixtureRequest FixtureValue :=
  ⟨number index, numberValue index⟩

/-- What asking for a number does to the standing of an evaluator. -/
abbrev Asks (forest : List TreeNode) (depth index : Nat) (before : FixtureStanding)
    (outcome : Outcome UInt64) (after : FixtureStanding) : Prop :=
  Takes (program forest) fixturesZone depth (Computation.evaluate (number index)) before outcome
    after

/-! ### Numbers and words -/

theorem fib_lt (small : index ≤ 93) : Nat.fib index < 18446744073709551616 :=
  Nat.lt_of_le_of_lt (Nat.fib_mono small) (by decide +kernel)

theorem toNat_numberValue (small : index ≤ 93) : (numberValue index).toNat = Nat.fib index :=
  UInt64.toNat_ofNat_of_lt' (fib_lt small)

theorem number_inj {other : Nat} (fits : index < 4294967296) (otherFits : other < 4294967296)
    (same : number index = number other) : index = other := by
  have sameWord : UInt32.ofNat index = UInt32.ofNat other := FixtureRequest.fibonacci.inj same
  have sameNumber := congrArg UInt32.toNat sameWord
  rwa [UInt32.toNat_ofNat_of_lt' fits, UInt32.toNat_ofNat_of_lt' otherFits] at sameNumber

theorem addNumbers_of_le (small : index + 2 ≤ 93) :
    addNumbers (numberValue (index + 1)) (numberValue index) = .done (numberValue (index + 2)) := by
  have sum : (numberValue (index + 1)).toNat + (numberValue index).toNat =
      Nat.fib (index + 2) := by
    rw [toNat_numberValue (by omega), toNat_numberValue (by omega), Nat.fib_add_two, Nat.add_comm]
  have noOverflow := fib_lt small
  unfold addNumbers
  rw [if_pos (by omega)]
  congr 1
  apply UInt64.toNat_inj.mp
  rw [UInt64.toNat_add, sum, toNat_numberValue small]
  exact Nat.mod_eq_of_lt noOverflow

/-- The first sum that does not fit into a word. -/
theorem addNumbers_overflow :
    addNumbers (numberValue 93) (numberValue 92) = .abort "attempt to add with overflow" := by
  unfold addNumbers
  rw [toNat_numberValue (by decide), toNat_numberValue (by decide), if_neg (by decide +kernel)]

theorem number_toNat (index : UInt32) : number index.toNat = .fibonacci index :=
  congrArg FixtureRequest.fibonacci UInt32.ofNat_toNat

theorem numberResult_toNat (index : UInt32) :
    numberResult index.toNat = ⟨.fibonacci index, numberValue index.toNat⟩ :=
  congrArg (fun word => (⟨.fibonacci word, numberValue index.toNat⟩ :
    StoredResult FixtureRequest FixtureValue)) UInt32.ofNat_toNat

/-! ### The counter -/

/-- How many more numbers can be computed before the counter is full. -/
def spare (world : FixtureState) : Nat :=
  4294967295 - (world.calls .fibonacci).toNat

/-- The state after so many more computations of numbers. -/
def counted (times : Nat) (world : FixtureState) : FixtureState :=
  (FixtureState.count .fibonacci)^[times] world

theorem room_iff (world : FixtureState) :
    (world.calls .fibonacci).toNat + 1 < 4294967296 ↔ 1 ≤ spare world := by
  have bounded := (world.calls .fibonacci).toNat_lt
  unfold spare
  omega

theorem toNat_calls_count (room : 1 ≤ spare world) :
    ((world.count .fibonacci).calls .fibonacci).toNat = (world.calls .fibonacci).toNat + 1 := by
  rw [← room_iff] at room
  unfold FixtureState.count FixtureState.calls at *
  rw [FixtureCounters.calls_setCalls, UInt32.toNat_add]
  exact Nat.mod_eq_of_lt room

theorem toNat_calls_counted {times : Nat} (room : times ≤ spare world) :
    ((counted times world).calls .fibonacci).toNat = (world.calls .fibonacci).toNat + times := by
  induction times generalizing world with
  | zero => rfl
  | succ times inductionHypothesis =>
      have first := toNat_calls_count (Nat.le_trans (Nat.le_add_left 1 times) room)
      have roomThere : times ≤ spare (world.count .fibonacci) := by
        unfold spare at *
        omega
      have further := inductionHypothesis roomThere
      show ((counted times (world.count .fibonacci)).calls .fibonacci).toNat = _
      omega

theorem spare_counted {times : Nat} (room : times ≤ spare world) :
    spare (counted times world) = spare world - times := by
  have calls := toNat_calls_counted room
  unfold spare
  omega

/-- A number that is counted is computed. -/
theorem takes_counting {next : FixtureComputation α} {outcome : Outcome α}
    (room : 1 ≤ spare before.world)
    (takes : Takes (program forest) fixturesZone depth next
      { before with world := counted 1 before.world } outcome final) :
    Takes (program forest) fixturesZone depth (counting .fibonacci fun _ => next) before outcome
      final := by
  apply Takes.read
  rw [if_pos ((room_iff _).mpr room)]
  exact takes.update

/-- A number that cannot be counted is not computed. -/
theorem takes_counting_full {next : FixtureComputation α} (full : spare before.world = 0) :
    Takes (program forest) fixturesZone depth (counting .fibonacci fun _ => next) before
      (.aborted "attempt to add with overflow") before := by
  have isFull : ¬ 1 ≤ spare before.world := by omega
  apply Takes.read
  rw [if_neg (mt (room_iff _).mp isFull)]
  exact Program.takes_abort _

/-! ### The computation of a number -/

theorem zone_kind (request : FixtureRequest) :
    ((program forest).kind request).zone = fixturesZone := by
  cases request <;> rfl

theorem fibonacci_of_lt_two (small : index < 2) :
    fibonacci (UInt32.ofNat index) = .done (numberValue index) := by
  have isSmall : index = 0 ∨ index = 1 := by omega
  rcases isSmall with rfl | rfl
  · rfl
  · rfl

theorem fibonacci_add_two (fits : index + 2 < 4294967296) :
    fibonacci (UInt32.ofNat (index + 2)) =
      (Computation.evaluate (number (index + 1))).bind fun previous =>
        (Computation.evaluate (number index)).bind fun beforeThat =>
          addNumbers previous beforeThat := by
  have toNat_eq : (UInt32.ofNat (index + 2)).toNat = index + 2 := UInt32.toNat_ofNat_of_lt' fits
  have one : UInt32.ofNat (index + 2) - 1 = UInt32.ofNat (index + 1) :=
    (UInt32.ofNat_sub (Nat.le_add_left 1 (index + 1))).symm
  have two : UInt32.ofNat (index + 2) - 2 = UInt32.ofNat index :=
    (UInt32.ofNat_sub (Nat.le_add_left 2 index)).symm
  unfold fibonacci
  rw [if_neg (by omega), one, two]

/-- The standing in which a number is computed. -/
def started (before : FixtureStanding) (index : Nat) : FixtureStanding :=
  { before.entered (number index) with world := counted 1 before.world }

section Vacant

variable (vacant : ResultCache.find? (number index) before.cache = none)
variable (notActive : number index ∉ before.active)
include vacant notActive

/-- A number is kept when its computation has a value. -/
theorem asks_computed {cache : ResultCache FixtureRequest FixtureValue} {value : UInt64}
    (room : 1 ≤ spare before.world)
    (computes : Takes (program forest) fixturesZone depth (fibonacci (UInt32.ofNat index))
      (started before index) (.success value)
      ⟨⟨before.active ++ [number index], cache, world⟩, metrics⟩)
    (stillVacant : ResultCache.find? (number index) cache = none) :
    Asks forest (depth + 1) index before (.success value)
      ⟨⟨before.active, cache ++ [⟨number index, value⟩], world⟩, metrics⟩ :=
  Program.takes_computed (distinctIdentities forest) (zone_kind _) rfl vacant notActive
    (takes_counting room computes) stillVacant

/-- A number is abandoned when its computation is. -/
theorem asks_stopped {message : String} (room : 1 ≤ spare before.world)
    (stops : Takes (program forest) fixturesZone depth (fibonacci (UInt32.ofNat index))
      (started before index) (.aborted message) final) :
    Asks forest (depth + 1) index before (.aborted message) final :=
  Program.takes_abandoned (distinctIdentities forest) (zone_kind _) rfl vacant notActive
    (takes_counting room stops)

/-- A number is abandoned when the counter is full. -/
theorem asks_full (full : spare before.world = 0) :
    Asks forest (depth + 1) index before (.aborted "attempt to add with overflow")
      (before.entered (number index)) :=
  have stillFull : spare (before.entered (number index)).world = 0 := full
  Program.takes_abandoned (distinctIdentities forest) (zone_kind _) rfl vacant notActive
    (takes_counting_full stillFull)

/-- One of the two numbers at the bottom is computed without further calls. -/
theorem asks_bottom (small : index < 2) (room : 1 ≤ spare before.world) :
    Asks forest (depth + 1) index before (.success (numberValue index))
      ⟨⟨before.active, before.cache ++ [numberResult index], counted 1 before.world⟩,
        before.metrics.plus 0 1⟩ := by
  apply asks_computed vacant notActive room _ vacant
  rw [fibonacci_of_lt_two small]
  exact Program.takes_done _

end Vacant

/-- A number is the sum of what its two calls return, and is kept after them. -/
theorem asks_sum {between : FixtureStanding} {cache : ResultCache FixtureRequest FixtureValue}
    (small : index + 2 ≤ 93)
    (vacant : ResultCache.find? (number (index + 2)) before.cache = none)
    (notActive : number (index + 2) ∉ before.active) (room : 1 ≤ spare before.world)
    (previous : Asks forest depth (index + 1) (started before (index + 2))
      (.success (numberValue (index + 1))) between)
    (beforeThat : Asks forest depth index between (.success (numberValue index))
      ⟨⟨before.active ++ [number (index + 2)], cache, world⟩, metrics⟩)
    (stillVacant : ResultCache.find? (number (index + 2)) cache = none) :
    Asks forest (depth + 1) (index + 2) before (.success (numberValue (index + 2)))
      ⟨⟨before.active, cache ++ [numberResult (index + 2)], world⟩, metrics⟩ := by
  apply asks_computed vacant notActive room _ stillVacant
  rw [fibonacci_add_two (by omega)]
  apply previous.bind
  apply beforeThat.bind
  rw [addNumbers_of_le small]
  exact Program.takes_done _

/-! ### The cache -/

/-- The numbers up to a bound, in the order in which the recursion completes them. -/
def completed (bound : Nat) : ResultCache FixtureRequest FixtureValue :=
  (1 :: 0 :: List.range' 2 (bound - 1)).map numberResult

theorem length_completed (positive : 1 ≤ bound) : (completed bound).length = bound + 1 := by
  simp only [completed, List.length_map, List.length_cons, List.length_range']
  omega

theorem mem_completed {entry : StoredResult FixtureRequest FixtureValue} (positive : 1 ≤ bound) :
    entry ∈ completed bound ↔ ∃ index ≤ bound, entry = numberResult index := by
  simp only [completed, List.mem_map, List.mem_cons, List.mem_range'_1]
  constructor
  · rintro ⟨index, listed, rfl⟩
    exact ⟨index, by omega, rfl⟩
  · rintro ⟨index, below, rfl⟩
    exact ⟨index, by omega, rfl⟩

theorem completed_succ (positive : 1 ≤ bound) :
    completed (bound + 1) = completed bound ++ [numberResult (bound + 1)] := by
  have last : 2 + 1 * (bound - 1) = bound + 1 := by omega
  have longer : bound + 1 - 1 = (bound - 1) + 1 := by omega
  rw [completed, longer, List.range'_concat, last]
  simp [completed]

theorem find?_completed_of_lt (positive : 1 ≤ bound) (above : bound < index)
    (fits : index < 4294967296) :
    ResultCache.find? (number index) (completed bound) = none := by
  apply ResultCache.find?_eq_none
  intro entry listed isNumber
  obtain ⟨other, below, rfl⟩ := (mem_completed positive).mp listed
  have same := number_inj (by omega) fits isNumber
  omega

theorem find?_completed_of_le (positive : 1 ≤ bound) (below : index ≤ bound)
    (fits : bound < 4294967296) :
    ResultCache.find? (number index) (completed bound) = some (numberValue index) := by
  apply (ResultCache.find?_eq_some_iff_mem _).mpr
  · exact (mem_completed positive).mpr ⟨index, below, rfl⟩
  · rw [completed, List.map_map]
    apply List.Nodup.map_on
    · intro left isLeft right isRight same
      simp only [List.mem_cons, List.mem_range'_1] at isLeft isRight
      exact number_inj (by omega) (by omega) same
    · simp [List.nodup_range']

/-! ### The recursion -/

/-- What is being computed does not stand in the way of lower numbers. -/
private theorem not_mem_entered {above : Nat} (fits : above < 4294967296)
    (notActive : ∀ below ≤ above, number below ∉ active) (below : Nat) (isBelow : below < above) :
    number below ∉ active ++ [number above] := by
  intro isActive
  rcases List.mem_append.mp isActive with wasActive | isAbove
  · exact notActive below (by omega) wasActive
  · have same := number_inj (by omega) fits (List.mem_singleton.mp isAbove)
    omega

/-- A number that was completed is a cache hit. -/
theorem asks_completed (positive : 1 ≤ bound) (below : index ≤ bound)
    (fits : bound < 4294967296) :
    Asks forest (depth + 1) index ⟨⟨active, completed bound, world⟩, metrics⟩
      (.success (numberValue index))
      ⟨⟨active, completed bound, world⟩, metrics.plus 1 0⟩ :=
  Program.takes_held (distinctIdentities forest) (zone_kind _) rfl
    (find?_completed_of_le positive below fits)

/-- The first call of the lowest sum computes the number one. -/
private theorem asks_one (room : 2 ≤ spare world)
    (notActive : ∀ below ≤ 2, number below ∉ active) :
    Asks forest (depth + 1) 1 (started ⟨⟨active, [], world⟩, metrics⟩ 2)
      (.success (numberValue 1))
      ⟨⟨active ++ [number 2], [numberResult 1], counted 2 world⟩, metrics.plus 0 2⟩ := by
  have oneFree := not_mem_entered (by decide) notActive 1 (by decide)
  have roomForOne : 1 ≤ spare (counted 1 world) := by
    rw [spare_counted (by omega)]
    omega
  exact asks_bottom rfl oneFree (by decide) roomForOne

/-- On an empty cache, each number up to the asked one is computed once, and each
but the two highest and the lowest one is a cache hit once. -/
theorem asks_number (two : 2 ≤ index) (small : index ≤ 93) (deep : index ≤ depth)
    (room : index + 1 ≤ spare world) (notActive : ∀ below ≤ index, number below ∉ active) :
    Asks forest depth index ⟨⟨active, [], world⟩, metrics⟩ (.success (numberValue index))
      ⟨⟨active, completed index, counted (index + 1) world⟩,
        metrics.plus (index - 2) (index + 1)⟩ := by
  induction index, two using Nat.le_induction generalizing depth active metrics world with
  | base =>
      obtain ⟨depth, rfl⟩ := Nat.exists_eq_add_of_le' deep
      -- Both calls find nothing, so the lowest number is no cache hit.
      have zeroFree := not_mem_entered (by decide) notActive 0 (by decide)
      have roomForZero : 1 ≤ spare (counted 2 world) := by
        rw [spare_counted (by omega)]
        omega
      have zeroVacant : ResultCache.find? (number 0) [numberResult 1] = none := rfl
      have second : Asks forest (depth + 1) 0
          ⟨⟨active ++ [number 2], [numberResult 1], counted 2 world⟩, metrics.plus 0 2⟩
          (.success (numberValue 0))
          ⟨⟨active ++ [number 2], [numberResult 1, numberResult 0], counted 3 world⟩,
            metrics.plus 0 3⟩ :=
        asks_bottom zeroVacant zeroFree (by decide) roomForZero
      have roomForTwo : 1 ≤ spare world := by omega
      exact asks_sum (by decide) rfl (notActive 2 (Nat.le_refl 2)) roomForTwo
        (asks_one (by omega) notActive) second rfl
  | succ below two inductionHypothesis =>
      obtain ⟨index, rfl⟩ : ∃ index, below = index + 1 := ⟨below - 1, by omega⟩
      obtain ⟨depth, rfl⟩ : ∃ lower, depth = lower + 2 := ⟨depth - 2, by omega⟩
      have free := not_mem_entered (by omega) notActive
      have roomHere : 1 ≤ spare world := by omega
      have roomBelow : index + 1 + 1 ≤ spare (counted 1 world) := by
        rw [spare_counted roomHere]
        omega
      have first : Asks forest (depth + 1) (index + 1)
          (started ⟨⟨active, [], world⟩, metrics⟩ (index + 2)) (.success (numberValue (index + 1)))
          ⟨⟨active ++ [number (index + 2)], completed (index + 1),
              counted (index + 2 + 1) world⟩,
            (metrics.plus 0 1).plus (index + 1 - 2) (index + 2)⟩ :=
        inductionHypothesis (by omega) (by omega) roomBelow fun lower isLower =>
          free lower (by omega)
      have stillVacant : ResultCache.find? (number (index + 2)) (completed (index + 1)) = none :=
        find?_completed_of_lt (by omega) (by omega) (by omega)
      have whole := asks_sum small rfl (notActive _ (Nat.le_refl _)) roomHere first
        (asks_completed (by omega) (by omega) (by omega)) stillVacant
      have sameMetrics : ((metrics.plus 0 1).plus (index + 1 - 2) (index + 2)).plus 1 0 =
          metrics.plus (index + 2 - 2) (index + 2 + 1) := by
        rw [Metrics.plus_plus, Metrics.plus_plus]
        congr 1 <;> omega
      rw [← completed_succ (by omega), sameMetrics] at whole
      exact whole

/-! ### Numbers that are abandoned -/

/-- The numbers from a bound down to a least one. -/
def downFrom (bound least : Nat) : List FixtureRequest :=
  (List.range' least (bound + 1 - least)).reverse.map number

theorem mem_downFrom {request : FixtureRequest} :
    request ∈ downFrom bound least ↔
      ∃ index, least ≤ index ∧ index ≤ bound ∧ request = number index := by
  simp only [downFrom, List.mem_map, List.mem_reverse, List.mem_range'_1]
  constructor
  · rintro ⟨index, listed, rfl⟩
    exact ⟨index, by omega, by omega, rfl⟩
  · rintro ⟨index, least, below, rfl⟩
    exact ⟨index, by omega, rfl⟩

theorem downFrom_empty (bound : Nat) : downFrom bound (bound + 1) = [] := by
  simp [downFrom]

theorem downFrom_succ (fewer : least ≤ bound + 1) :
    downFrom (bound + 1) least = number (bound + 1) :: downFrom bound least := by
  have longer : bound + 1 + 1 - least = (bound + 1 - least) + 1 := by omega
  have last : least + 1 * (bound + 1 - least) = bound + 1 := by omega
  rw [downFrom, longer, List.range'_concat, last, List.reverse_append, List.map_append]
  rfl

theorem downFrom_concat (fewer : least ≤ bound) :
    downFrom bound least = downFrom bound (least + 1) ++ [number least] := by
  have longer : bound + 1 - least = (bound + 1 - (least + 1)) + 1 := by omega
  rw [downFrom, longer, List.range'_succ, List.reverse_cons, List.map_append]
  rfl

/-- A number is abandoned when its first call is. -/
theorem asks_abandoned {message : String} (positive : 1 ≤ index) (fits : index + 1 < 4294967296)
    (vacant : ResultCache.find? (number (index + 1)) before.cache = none)
    (notActive : number (index + 1) ∉ before.active) (room : 1 ≤ spare before.world)
    (previous : Asks forest depth index (started before (index + 1)) (.aborted message) final) :
    Asks forest (depth + 1) (index + 1) before (.aborted message) final := by
  obtain ⟨index, rfl⟩ := Nat.exists_eq_add_of_le' positive
  apply asks_stopped vacant notActive room
  rw [fibonacci_add_two fits]
  exact previous.evaluate_bind_aborted

/-- A number whose computation is abandoned stops every number above it in the middle of
its first call, and all of them stay on the stack. -/
theorem asks_above {low extra times hits computations : Nat} {message : String}
    {left : List FixtureRequest} {cache : ResultCache FixtureRequest FixtureValue}
    (allows : Nat → Prop) (positive : 1 ≤ low)
    (bottom : ∀ {depth active world metrics}, low ≤ depth → allows (spare world) →
      (∀ below ≤ low, number below ∉ active) →
      Asks forest depth low ⟨⟨active, [], world⟩, metrics⟩ (.aborted message)
        ⟨⟨active ++ left, cache, counted times world⟩, metrics.plus hits computations⟩)
    (fits : low + extra < 4294967296) (deep : low + extra ≤ depth)
    (room : extra ≤ spare world) (allowed : allows (spare world - extra))
    (notActive : ∀ below ≤ low + extra, number below ∉ active) :
    Asks forest depth (low + extra) ⟨⟨active, [], world⟩, metrics⟩ (.aborted message)
      ⟨⟨active ++ downFrom (low + extra) (low + 1) ++ left, cache, counted (extra + times) world⟩,
        metrics.plus hits (extra + computations)⟩ := by
  -- The stack and the counter grow on the way down, so both are arbitrary at the bottom.
  induction extra generalizing depth active metrics world with
  | zero =>
      rw [Nat.add_zero] at deep notActive ⊢
      rw [downFrom_empty, List.append_nil, Nat.zero_add, Nat.zero_add]
      exact bottom deep allowed notActive
  | succ extra inductionHypothesis =>
      obtain ⟨depth, rfl⟩ : ∃ lower, depth = lower + 1 := ⟨depth - 1, by omega⟩
      have free := not_mem_entered fits notActive
      have roomHere : 1 ≤ spare world := by omega
      have spareBelow : spare (counted 1 world) = spare world - 1 := spare_counted roomHere
      have roomBelow : extra ≤ spare (counted 1 world) := by omega
      have allowedBelow : allows (spare (counted 1 world) - extra) := by
        rwa [spareBelow, Nat.sub_sub, Nat.add_comm 1 extra]
      have first : Asks forest depth (low + extra)
          (started ⟨⟨active, [], world⟩, metrics⟩ (low + extra + 1)) (.aborted message)
          ⟨⟨active ++ [number (low + extra + 1)] ++ downFrom (low + extra) (low + 1) ++ left, cache,
              counted (extra + times + 1) world⟩,
            (metrics.plus 0 1).plus hits (extra + computations)⟩ :=
        inductionHypothesis (by omega) (by omega) roomBelow allowedBelow fun lower isLower =>
          free lower (by omega)
      have sameMetrics : (metrics.plus 0 1).plus hits (extra + computations) =
          metrics.plus hits (extra + 1 + computations) := by
        rw [Metrics.plus_plus]
        congr 1 <;> omega
      have sameCount : extra + times + 1 = extra + 1 + times := Nat.add_right_comm extra times 1
      have whole := asks_abandoned (Nat.le_add_right_of_le positive) fits rfl
        (notActive _ (Nat.le_refl _)) roomHere first
      rw [sameMetrics, sameCount, List.append_assoc active, List.singleton_append,
        ← downFrom_succ (by omega)] at whole
      exact whole

/-! ### The overflow of a sum -/

/-- On an empty cache, the first sum that does not fit into a word stops the number that
it is for, which has the values of both calls by then. -/
private theorem asks_first_overflow (deep : 94 ≤ depth) (room : 95 ≤ spare world)
    (notActive : ∀ below ≤ 94, number below ∉ active) :
    Asks forest depth 94 ⟨⟨active, [], world⟩, metrics⟩ (.aborted "attempt to add with overflow")
      ⟨⟨active ++ [number 94], completed 93, counted 95 world⟩, metrics.plus 92 95⟩ := by
  obtain ⟨depth, rfl⟩ : ∃ lower, depth = lower + 2 := ⟨depth - 2, by omega⟩
  have free := not_mem_entered (by decide) notActive
  have roomHere : 1 ≤ spare world := by omega
  have roomBelow : 93 + 1 ≤ spare (counted 1 world) := by
    rw [spare_counted roomHere]
    omega
  have first : Asks forest (depth + 1) 93 (started ⟨⟨active, [], world⟩, metrics⟩ 94)
      (.success (numberValue 93))
      ⟨⟨active ++ [number 94], completed 93, counted 95 world⟩, (metrics.plus 0 1).plus 91 94⟩ :=
    asks_number (by decide) (by decide) (by omega) roomBelow fun lower isLower =>
      free lower (by omega)
  apply asks_stopped rfl (notActive 94 (Nat.le_refl 94)) roomHere
  rw [fibonacci_add_two (by decide)]
  apply first.bind
  apply (asks_completed (by decide) (by decide) (by decide)).bind
  rw [addNumbers_overflow]
  have sameMetrics : ((metrics.plus 0 1).plus 91 94).plus 1 0 = metrics.plus 92 95 := by
    rw [Metrics.plus_plus, Metrics.plus_plus]
  rw [sameMetrics]
  exact Program.takes_abort _

/-- On an empty cache, the first sum that does not fit into a word stops every number
above it. -/
theorem asks_overflow (large : 94 ≤ index) (fits : index < 4294967296) (deep : index ≤ depth)
    (room : index + 1 ≤ spare world) (notActive : ∀ below ≤ index, number below ∉ active) :
    Asks forest depth index ⟨⟨active, [], world⟩, metrics⟩
      (.aborted "attempt to add with overflow")
      ⟨⟨active ++ downFrom index 94, completed 93, counted (index + 1) world⟩,
        metrics.plus 92 (index + 1)⟩ := by
  obtain ⟨extra, rfl⟩ := Nat.exists_eq_add_of_le large
  have roomBelow : 95 ≤ spare world - extra := by omega
  have whole : Asks forest depth (94 + extra) ⟨⟨active, [], world⟩, metrics⟩ _ _ :=
    asks_above (95 ≤ ·) (by decide) asks_first_overflow fits deep (by omega) roomBelow notActive
  rw [List.append_assoc, ← downFrom_concat large] at whole
  have sameCount : extra + 95 = 94 + extra + 1 := by omega
  rwa [sameCount] at whole

/-! ### The overflow of the counter -/

/-- A counter that is full stops a number at once. -/
private theorem asks_first_unfinished (positive : 1 ≤ index) (deep : index ≤ depth)
    (full : spare world = 0) (notActive : ∀ below ≤ index, number below ∉ active) :
    Asks forest depth index ⟨⟨active, [], world⟩, metrics⟩
      (.aborted "attempt to add with overflow")
      ⟨⟨active ++ [number index], [], counted 0 world⟩, metrics.plus 0 1⟩ := by
  obtain ⟨depth, rfl⟩ : ∃ lower, depth = lower + 1 := ⟨depth - 1, by omega⟩
  exact asks_full rfl (notActive index (Nat.le_refl index)) full

/-- On an empty cache, a counter that becomes full before the lowest number is reached
stops everything on the way down. Nothing was completed by then. -/
theorem asks_unfinished (early : spare world < index) (fits : index < 4294967296)
    (deep : index ≤ depth) (notActive : ∀ below ≤ index, number below ∉ active) :
    Asks forest depth index ⟨⟨active, [], world⟩, metrics⟩
      (.aborted "attempt to add with overflow")
      ⟨⟨active ++ downFrom index (index - spare world), [], counted (spare world) world⟩,
        metrics.plus 0 (spare world + 1)⟩ := by
  obtain ⟨low, rfl⟩ : ∃ low, index = low + spare world := ⟨index - spare world, by omega⟩
  have positive : 1 ≤ low := by omega
  have whole : Asks forest depth (low + spare world) ⟨⟨active, [], world⟩, metrics⟩ _ _ :=
    asks_above (· = 0) positive (asks_first_unfinished positive) fits deep (Nat.le_refl _)
      (Nat.sub_self _) notActive
  rw [List.append_assoc, ← downFrom_concat (Nat.le_add_right low _)] at whole
  rwa [Nat.add_sub_cancel]

/-- A counter that has room for two computations stops the third one, that of zero. -/
private theorem asks_two_unfinished (deep : 2 ≤ depth) (isSpare : spare world = 2)
    (notActive : ∀ below ≤ 2, number below ∉ active) :
    Asks forest depth 2 ⟨⟨active, [], world⟩, metrics⟩ (.aborted "attempt to add with overflow")
      ⟨⟨active ++ [number 2, number 0], [numberResult 1], counted 2 world⟩,
        metrics.plus 0 3⟩ := by
  obtain ⟨depth, rfl⟩ := Nat.exists_eq_add_of_le' deep
  have zeroFree := not_mem_entered (by decide) notActive 0 (by decide)
  have full : spare (counted 2 world) = 0 := by
    rw [spare_counted (by omega), isSpare]
  have zeroVacant : ResultCache.find? (number 0) [numberResult 1] = none := rfl
  have second : Asks forest (depth + 1) 0
      ⟨⟨active ++ [number 2], [numberResult 1], counted 2 world⟩, metrics.plus 0 2⟩
      (.aborted "attempt to add with overflow")
      ⟨⟨active ++ [number 2] ++ [number 0], [numberResult 1], counted 2 world⟩,
        metrics.plus 0 3⟩ :=
    asks_full zeroVacant zeroFree full
  rw [List.append_assoc] at second
  have roomForTwo : 1 ≤ spare world := by omega
  apply asks_stopped rfl (notActive 2 (Nat.le_refl 2)) roomForTwo
  rw [fibonacci_add_two (by decide)]
  apply (asks_one (by omega) notActive).bind
  exact second.evaluate_bind_aborted

/-- On an empty cache, a counter that only the last computation finds full stops that of
the lowest number. The only number that was completed by then is the one above it. -/
theorem asks_unfinished_last (two : 2 ≤ index) (isSpare : spare world = index)
    (fits : index < 4294967296) (deep : index ≤ depth)
    (notActive : ∀ below ≤ index, number below ∉ active) :
    Asks forest depth index ⟨⟨active, [], world⟩, metrics⟩
      (.aborted "attempt to add with overflow")
      ⟨⟨active ++ (downFrom index 2 ++ [number 0]), [numberResult 1], counted index world⟩,
        metrics.plus 0 (index + 1)⟩ := by
  obtain ⟨extra, rfl⟩ := Nat.exists_eq_add_of_le two
  have twoSpare : spare world - extra = 2 := by omega
  have whole : Asks forest depth (2 + extra) ⟨⟨active, [], world⟩, metrics⟩ _ _ :=
    asks_above (· = 2) (by decide) asks_two_unfinished fits deep (by omega) twoSpare notActive
  have lowest : downFrom (2 + extra) 2 = downFrom (2 + extra) 3 ++ [number 2] :=
    downFrom_concat (Nat.le_add_right 2 extra)
  have sameCount : extra + 3 = 2 + extra + 1 := by omega
  rw [List.append_assoc, Nat.add_comm extra 2, sameCount] at whole
  rw [lowest, List.append_assoc]
  exact whole

/-! ### Asking for a number -/

variable {session after later : Session FixtureRequest FixtureValue FixtureState}

/-- A result cache keeps the numbers up to a bound, each with its value, and nothing else. -/
structure Keeps (bound : Nat) (cache : ResultCache FixtureRequest FixtureValue) : Prop where
  length : cache.length = bound + 1
  entries : ∀ entry, entry ∈ cache ↔ ∃ (index : UInt32) (value : UInt64),
    index.toNat ≤ bound ∧ value.toNat = Nat.fib index.toNat ∧ entry = ⟨.fibonacci index, value⟩

theorem keeps_completed (positive : 1 ≤ bound) (small : bound ≤ 93) :
    Keeps bound (completed bound) where
  length := length_completed positive
  entries := by
    intro entry
    rw [mem_completed positive]
    constructor
    · rintro ⟨index, below, rfl⟩
      have fits : index < 4294967296 := by omega
      have toNat_eq : (UInt32.ofNat index).toNat = index := UInt32.toNat_ofNat_of_lt' fits
      refine ⟨UInt32.ofNat index, numberValue index, by omega, ?_, rfl⟩
      rw [toNat_eq]
      exact toNat_numberValue (by omega)
    · rintro ⟨index, value, below, isValue, rfl⟩
      have isNumberValue : value = numberValue index.toNat := by
        apply UInt64.toNat_inj.mp
        rw [isValue, toNat_numberValue (by omega)]
      refine ⟨index.toNat, below, ?_⟩
      rw [numberResult_toNat, isNumberValue]

/-- The number was computed, and so were all numbers below it. -/
structure Returned (index : UInt32) (outcome : Outcome UInt64)
    (after : Session FixtureRequest FixtureValue FixtureState) : Prop where
  value : ∃ value, outcome = .success value ∧ value.toNat = Nat.fib index.toNat
  metrics : after.evaluator.metrics =
    { cacheHits := index.toNat - 2, computations := index.toNat + 1 }
  active : after.evaluator.active = []
  keeps : Keeps index.toNat after.evaluator.cache

/-- The number is answered with a cycle that leads back to it, and is not computed. -/
def MeetsCycle (forest : List TreeNode) (index : UInt32)
    (session : Session FixtureRequest FixtureValue FixtureState) : Prop :=
  ∀ depth, ∃ error again,
    (program forest).evaluate (depth + 1) (.fibonacci index) session =
      (.failed (.cycle error), again) ∧
    error.request = (program forest).display (.fibonacci index) ∧
    again.evaluator.metrics =
      { session.evaluator.metrics with
        cyclesDetected := session.evaluator.metrics.cyclesDetected + 1 }

/-- The number is answered from the result cache, and is not computed. -/
def IsHit (forest : List TreeNode) (index : UInt32)
    (session : Session FixtureRequest FixtureValue FixtureState) : Prop :=
  ∀ depth, ∃ value again,
    (program forest).evaluate (depth + 1) (.fibonacci index) session = (.success value, again) ∧
    value.toNat = Nat.fib index.toNat ∧
    again.evaluator.metrics =
      { session.evaluator.metrics with
        cacheHits := session.evaluator.metrics.cacheHits + 1 }

/-- The recursion stopped at the first sum that does not fit into a word. The numbers
above stay on the stack for good, and the numbers below stay in the result cache. -/
structure Overflowed (forest : List TreeNode) (index : UInt32) (outcome : Outcome UInt64)
    (after : Session FixtureRequest FixtureValue FixtureState) : Prop where
  message : outcome = .aborted "attempt to add with overflow"
  metrics : after.evaluator.metrics = { cacheHits := 92, computations := index.toNat + 1 }
  active : after.evaluator.active = downFrom index.toNat 94
  keeps : Keeps 93 after.evaluator.cache
  cycles : ∀ later, Program.Later (program forest) after later → ∀ other : UInt32,
    94 ≤ other.toNat → other.toNat ≤ index.toNat → MeetsCycle forest other later
  hits : ∀ later, Program.Later (program forest) after later → ∀ other : UInt32,
    other.toNat ≤ 93 → IsHit forest other later

/-- The recursion stopped because the counter was full. It had been on its way down, and
what it had begun stays on the stack. -/
structure Exhausted (world : FixtureState) (index : UInt32) (outcome : Outcome UInt64)
    (after : Session FixtureRequest FixtureValue FixtureState) : Prop where
  message : outcome = .aborted "attempt to add with overflow"
  metrics : after.evaluator.metrics = { computations := spare world + 1 }
  calls : after.world.calls .fibonacci = 4294967295
  early : spare world < index.toNat →
    after.evaluator.active = downFrom index.toNat (index.toNat - spare world) ∧
      after.evaluator.cache = []
  last : spare world = index.toNat →
    after.evaluator.active = downFrom index.toNat 2 ++ [.fibonacci 0] ∧
      after.evaluator.cache = [⟨.fibonacci 1, (1 : UInt64)⟩]

section Afterwards

variable (grown : Program.Extends (program forest) fixturesZone after later) {other : UInt32}
include grown

/-- A number that stayed on the stack meets a cycle. -/
theorem meetsCycle_of_active (isActive : .fibonacci other ∈ after.evaluator.active) :
    MeetsCycle forest other later := by
  intro depth
  have stillActive : .fibonacci other ∈ later.evaluator.active := grown.active.subset isActive
  have vacant : ResultCache.find? (.fibonacci other) later.standing.cache = none :=
    grown.separated.vacant stillActive
  obtain ⟨again, runs, _, stands⟩ :=
    Program.takes_rejected (distinctIdentities forest) (zone_kind _) rfl vacant stillActive later
      (.inl grown.known) rfl
  rw [Program.run_evaluate] at runs
  exact ⟨_, again, runs, rfl, congrArg Standing.metrics stands⟩

/-- A number that stayed in the result cache is a cache hit. -/
theorem isHit_of_kept (isKept : ⟨.fibonacci other, numberValue other.toNat⟩ ∈ after.evaluator.cache)
    (small : other.toNat ≤ 93) : IsHit forest other later := by
  intro depth
  have found : ResultCache.find? (.fibonacci other) later.standing.cache =
      some (numberValue other.toNat) :=
    (ResultCache.find?_eq_some_iff_mem grown.separated.entriesDistinct).mpr
      (grown.cache.subset isKept)
  obtain ⟨again, runs, _, stands⟩ :=
    Program.takes_held (distinctIdentities forest) (zone_kind _) rfl found later
      (.inl grown.known) rfl
  rw [Program.run_evaluate] at runs
  exact ⟨_, again, runs, toNat_numberValue small, congrArg Standing.metrics stands⟩

end Afterwards

theorem returned_of_standing {asked : UInt32} (two : 2 ≤ asked.toNat)
    (small : asked.toNat ≤ 93)
    (stands : after.standing =
      ⟨⟨[], completed asked.toNat, world⟩, Metrics.plus {} (asked.toNat - 2) (asked.toNat + 1)⟩) :
    Returned asked (.success (numberValue asked.toNat)) after where
  value := ⟨_, rfl, toNat_numberValue small⟩
  metrics := by
    have metrics : after.evaluator.metrics =
        Metrics.plus {} (asked.toNat - 2) (asked.toNat + 1) := congrArg Standing.metrics stands
    simpa [Metrics.plus] using metrics
  active := congrArg (·.active) stands
  keeps := by
    have cache : after.evaluator.cache = completed asked.toNat := congrArg (·.cache) stands
    rw [cache]
    exact keeps_completed (by omega) small

theorem overflowed_of_standing {asked : UInt32}
    (stands : after.standing =
      ⟨⟨[] ++ downFrom asked.toNat 94, completed 93, world⟩,
        Metrics.plus {} 92 (asked.toNat + 1)⟩)
    (isKnown : fixturesZone.declaration ∈ after.evaluator.knownZones)
    (separated : Separated (program forest) after.core) :
    Overflowed forest asked (.aborted "attempt to add with overflow") after := by
  have active : after.evaluator.active = downFrom asked.toNat 94 := congrArg (·.active) stands
  have cache : after.evaluator.cache = completed 93 := congrArg (·.cache) stands
  have metrics : after.evaluator.metrics = Metrics.plus {} 92 (asked.toNat + 1) :=
    congrArg Standing.metrics stands
  have keeps : Keeps 93 after.evaluator.cache := by
    rw [cache]
    exact keeps_completed (by decide) (by decide)
  refine ⟨rfl, by simpa [Metrics.plus] using metrics, active, keeps, ?cycles, ?hits⟩
  case cycles =>
    intro later isLater other large below
    have grown := isLater.extends (distinctIdentities forest) zone_kind isKnown separated
    apply meetsCycle_of_active grown
    rw [active]
    exact mem_downFrom.mpr ⟨_, large, below, (number_toNat other).symm⟩
  case hits =>
    intro later isLater other small
    have grown := isLater.extends (distinctIdentities forest) zone_kind isKnown separated
    apply isHit_of_kept grown _ small
    exact (keeps.entries _).mpr ⟨other, _, small, toNat_numberValue small, rfl⟩

theorem calls_counted_spare (world : FixtureState) :
    (counted (spare world) world).calls .fibonacci = 4294967295 := by
  have calls := toNat_calls_counted (Nat.le_refl (spare world))
  have bounded := (world.calls .fibonacci).toNat_lt
  apply UInt32.toNat_inj.mp
  rw [calls]
  unfold spare
  show _ = 4294967295
  omega

theorem exhausted_of_standing {asked : UInt32} {left : List FixtureRequest}
    {cache : ResultCache FixtureRequest FixtureValue}
    (stands : after.standing =
      ⟨⟨[] ++ left, cache, counted (spare world) world⟩, Metrics.plus {} 0 (spare world + 1)⟩)
    (early : spare world < asked.toNat →
      left = downFrom asked.toNat (asked.toNat - spare world) ∧ cache = [])
    (last : spare world = asked.toNat →
      left = downFrom asked.toNat 2 ++ [number 0] ∧ cache = [numberResult 1]) :
    Exhausted world asked (.aborted "attempt to add with overflow") after := by
  have sameActive : after.evaluator.active = left := congrArg (·.active) stands
  have sameCache : after.evaluator.cache = cache := congrArg (·.cache) stands
  have sameWorld : after.world = counted (spare world) world := congrArg (·.world) stands
  have metrics : after.evaluator.metrics = Metrics.plus {} 0 (spare world + 1) :=
    congrArg Standing.metrics stands
  refine ⟨rfl, by simpa [Metrics.plus] using metrics, ?_, ?_, ?_⟩
  · rw [sameWorld, calls_counted_spare]
  · rwa [sameActive, sameCache]
  · rw [sameActive, sameCache]
    exact last

section Fresh

variable {options : Options} {observed : Bool} {asked : UInt32}
variable (isFresh : session.evaluator = .fresh options observed)
variable (admits : session.registry.Admits fixturesZone)
include isFresh admits

/-- What asking for a number does to the standing of a fresh evaluator is what it
does to this one, and the zone is known afterwards. -/
theorem exists_asked {outcome : Outcome UInt64} {standing : FixtureStanding}
    (asks : ∀ depth, asked.toNat ≤ depth →
      Asks forest depth asked.toNat ⟨⟨[], [], session.world⟩, {}⟩ outcome standing)
    (decided : outcome ≠ .tooDeep) :
    ∃ after,
      Program.EndsFrom (program forest) asked.toNat (.fibonacci asked) session outcome after ∧
      after.standing = standing ∧ Program.Extends (program forest) fixturesZone session after := by
  have isEmpty : session.standing = ⟨⟨[], [], session.world⟩, {}⟩ := by
    rw [Session.standing, Session.core, isFresh]
    rfl
  have reached : Program.Reached (program forest) (fun _ _ => True) [] session :=
    .created isFresh
  have separated := reached.separated (distinctIdentities forest)
  obtain ⟨after, ends, stands⟩ := Program.exists_endsFrom asks decided (.inr admits) isEmpty
  have ends : Program.EndsFrom (program forest) asked.toNat (.fibonacci (.ofNat asked.toNat))
      session outcome after := ends
  rw [UInt32.ofNat_toNat] at ends
  have grown := Program.extends_of_evaluate (distinctIdentities forest) zone_kind (.inr admits)
    separated (ends.evaluates (Nat.le_refl _)) decided
  exact ⟨after, ends, stands, grown⟩

/-- A number whose value fits into a word is returned. -/
theorem exists_returned (two : 2 ≤ asked.toNat) (small : asked.toNat ≤ 93)
    (room : asked.toNat + 1 ≤ spare session.world) :
    ∃ outcome after,
      Program.EndsFrom (program forest) asked.toNat (.fibonacci asked) session outcome after ∧
      Returned asked outcome after ∧ after.world = counted (asked.toNat + 1) session.world := by
  obtain ⟨after, ends, stands, _⟩ := exists_asked isFresh admits
    (fun depth deep => asks_number two small deep room (by simp)) (by simp)
  exact ⟨_, after, ends, returned_of_standing two small stands, congrArg (·.world) stands⟩

/-- A number whose value does not fit into a word is not returned. -/
theorem exists_overflowed (large : 94 ≤ asked.toNat)
    (room : asked.toNat + 1 ≤ spare session.world) :
    ∃ outcome after,
      Program.EndsFrom (program forest) asked.toNat (.fibonacci asked) session outcome after ∧
      Overflowed forest asked outcome after ∧
      after.world = counted (asked.toNat + 1) session.world := by
  obtain ⟨after, ends, stands, grown⟩ := exists_asked isFresh admits
    (fun depth deep => asks_overflow large asked.toNat_lt deep room (by simp)) (by simp)
  have overflowed := overflowed_of_standing stands grown.known grown.separated
  exact ⟨_, after, ends, overflowed, congrArg (·.world) stands⟩

/-- A counter without room for all computations stops the recursion. -/
theorem exists_exhausted (two : 2 ≤ asked.toNat) (scarce : spare session.world ≤ asked.toNat) :
    ∃ outcome after,
      Program.EndsFrom (program forest) asked.toNat (.fibonacci asked) session outcome after ∧
      Exhausted session.world asked outcome after := by
  rcases Nat.lt_or_eq_of_le scarce with early | last
  · obtain ⟨after, ends, stands, _⟩ := exists_asked isFresh admits
      (fun depth deep => asks_unfinished early asked.toNat_lt deep (by simp)) (by simp)
    have exhausted : Exhausted session.world asked _ after :=
      exhausted_of_standing stands (fun _ => ⟨rfl, rfl⟩) fun same => by omega
    exact ⟨_, after, ends, exhausted⟩
  · obtain ⟨after, ends, stands, _⟩ := exists_asked isFresh admits
      (fun depth deep => asks_unfinished_last two last asked.toNat_lt deep (by simp)) (by simp)
    rw [← last] at stands
    have exhausted : Exhausted session.world asked _ after :=
      exhausted_of_standing stands (fun early => by omega) fun _ => by
        rw [last]
        exact ⟨rfl, rfl⟩
    exact ⟨_, after, ends, exhausted⟩

/-- Memoization makes the recursion linear. Whatever is asked for, each number is
computed once at most, and an overflow leaves behind what was being computed. -/
theorem fibonacci_linear (two : 2 ≤ asked.toNat) :
    ∃ outcome after,
      Program.EndsFrom (program forest) asked.toNat (.fibonacci asked) session outcome after ∧
      (asked.toNat + 1 ≤ spare session.world →
        after.evaluator.metrics.computations = asked.toNat + 1 ∧
        (after.world.calls .fibonacci).toNat =
          (session.world.calls .fibonacci).toNat + (asked.toNat + 1) ∧
        (asked.toNat ≤ 93 → Returned asked outcome after) ∧
        (94 ≤ asked.toNat → Overflowed forest asked outcome after)) ∧
      (spare session.world ≤ asked.toNat → Exhausted session.world asked outcome after) := by
  rcases Nat.lt_or_ge asked.toNat (spare session.world) with room | scarce
  · have calls := toNat_calls_counted room
    rcases Nat.lt_or_ge 93 asked.toNat with large | small
    · obtain ⟨outcome, after, ends, overflowed, sameWorld⟩ :=
        @exists_overflowed forest session _ _ asked isFresh admits large room
      have computations : after.evaluator.metrics.computations = asked.toNat + 1 := by
        rw [overflowed.metrics]
      rw [← sameWorld] at calls
      exact ⟨outcome, after, ends, fun _ => ⟨computations, calls, fun small => by omega,
        fun _ => overflowed⟩, fun scarce => by omega⟩
    · obtain ⟨outcome, after, ends, returned, sameWorld⟩ :=
        @exists_returned forest session _ _ asked isFresh admits two small room
      have computations : after.evaluator.metrics.computations = asked.toNat + 1 := by
        rw [returned.metrics]
      rw [← sameWorld] at calls
      exact ⟨outcome, after, ends, fun _ => ⟨computations, calls, fun _ => returned,
        fun large => by omega⟩, fun scarce => by omega⟩
  · obtain ⟨outcome, after, ends, exhausted⟩ := exists_exhausted isFresh admits two scarce
    exact ⟨outcome, after, ends, fun room => by omega, fun _ => exhausted⟩

end Fresh

/-- Ten returns, a hundred overflows, and with room for four computations ten is
abandoned at six. -/
theorem fibonacci_ten_and_hundred :
    let session : Session FixtureRequest FixtureValue FixtureState :=
      { evaluator := .fresh {} false, world := {} }
    let scarce : Session FixtureRequest FixtureValue FixtureState :=
      { evaluator := .fresh {} false, world := { counters := { fibonacci := 4294967291 } } }
    (∃ after, (program []).evaluate 10 (.fibonacci 10) session = (.success 55, after) ∧
      Returned 10 (.success 55) after) ∧
    (∃ outcome after, (program []).evaluate 100 (.fibonacci 100) session = (outcome, after) ∧
      Overflowed [] 100 outcome after) ∧
    ∃ outcome after, (program []).evaluate 10 (.fibonacci 10) scarce = (outcome, after) ∧
      Exhausted scarce.world 10 outcome after ∧
      after.evaluator.active = [10, 9, 8, 7, 6].map FixtureRequest.fibonacci := by
  intro session scarce
  have admits : session.registry.Admits fixturesZone := fun declaration claimed => by cases claimed
  obtain ⟨outcome, after, ends, enough, _⟩ :=
    @fibonacci_linear [] session {} false 10 rfl admits (by decide)
  obtain ⟨overflow, afterOverflow, endsOverflow, enoughForHundred, _⟩ :=
    @fibonacci_linear [] session {} false 100 rfl admits (by decide)
  obtain ⟨stop, afterStop, endsStop, _, lacking⟩ :=
    @fibonacci_linear [] scarce {} false 10 rfl admits (by decide)
  obtain ⟨_, _, returned, _⟩ := enough (by decide)
  obtain ⟨_, _, _, overflowed⟩ := enoughForHundred (by decide)
  have exhausted := lacking (by decide)
  have returned := returned (by decide)
  obtain ⟨value, rfl, isValue⟩ := returned.value
  have isFiftyFive : value = 55 := UInt64.toNat_inj.mp isValue
  subst isFiftyFive
  exact ⟨⟨after, ends.evaluates (by decide), returned⟩,
    ⟨overflow, afterOverflow, endsOverflow.evaluates (by decide), overflowed (by decide)⟩,
    ⟨stop, afterStop, endsStop.evaluates (by decide), exhausted, (exhausted.early (by decide)).1⟩⟩

/-- A fresh evaluator does not return the tenth number when another zone holds the id of the
fixtures, or when the counter has room for four more computations only. -/
theorem fibonacci_stopped_by_zone_or_counter :
    let other : ZoneDefinition := ⟨100, 200, "Other", [⟨.type, "X"⟩]⟩
    let squatted : Session FixtureRequest FixtureValue FixtureState :=
      { evaluator := .fresh {} false, registry := .afterRegister .initial other, world := {} }
    let scarce : Session FixtureRequest FixtureValue FixtureState :=
      { evaluator := .fresh {} false, world := { counters := { fibonacci := 4294967291 } } }
    (∃ after, (program []).evaluate 10 (.fibonacci 10) squatted =
        (.aborted "type zone id 200 is claimed by both 'Other' and 'Fixtures'", after) ∧
      after.evaluator.metrics.computations = 0) ∧
    ∃ after, (program []).evaluate 10 (.fibonacci 10) scarce =
        (.aborted "attempt to add with overflow", after) ∧
      after.evaluator.metrics.computations = 5 ∧ after.evaluator.cache = [] :=
  ⟨⟨_, rfl, rfl⟩, ⟨_, rfl, rfl, rfl⟩⟩

end Fixtures

end RequestEngine
