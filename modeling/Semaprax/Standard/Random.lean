/-
**Random numbers of the standard library** (`std/random`).

* `normalizeSeed`, `nextSeed`, `advance`, `sampleBelow` — the functions. A call that traps or breaks a
  contract has no result.
* `nextSeed_eq` — the quotient and the remainder give the product modulo a prime.
* `random_exact` — every number gives a seed, and the stream of a seed meets all seeds before it
  starts again.
-/

import Semaprax.Standard.Overflow

namespace Semaprax.Standard

/-- The condition on a seed. -/
abbrev IsSeed (seed : Int) : Prop := 1 ≤ seed ∧ seed ≤ 2147483646

def normalizeSeed (value : Int) : Option Int := do
  let remainder ← checkedRem value 2147483646
  let result ← if remainder < 0 then checked (1 - remainder) else checked (remainder + 1)
  ensuring (some (IsSeed result)) result

def nextSeed (seed : Int) : Option Int :=
  if IsSeed seed then do
    let quotient ← checkedDiv seed 127773
    let remainder ← checkedRem seed 127773
    let candidate ← checked ((← checked (16807 * remainder)) - (← checked (2836 * quotient)))
    let result ← if candidate > 0 then pure candidate else checked (candidate + 2147483647)
    ensuring (some (IsSeed result)) result
  else none

/-- The loop of `advance`. -/
def advanceLoop (current remaining : Int) : Option Int :=
  if remaining > 0 then do advanceLoop (← nextSeed current) (remaining - 1) else some current
termination_by remaining.toNat

def advance (seed steps : Int) : Option Int :=
  if IsSeed seed ∧ 0 ≤ steps ∧ steps ≤ 100000 then do
    let result ← advanceLoop seed steps
    ensuring (some (IsSeed result)) result
  else none

def sampleBelow (seed upper : Int) : Option Int :=
  if IsSeed seed ∧ 0 < upper ∧ upper ≤ 2147483647 then do
    let result ← checkedRem (← nextSeed seed) upper
    ensuring (some (0 ≤ result && result < upper)) result
  else none

/-- The seed after some steps. -/
def seedAt (seed : Int) (steps : Nat) : Int := 16807 ^ steps * seed % 2147483647

variable {seed target : Int}

theorem nextSeed_eq (isSeed : IsSeed seed) :
    nextSeed seed = some (16807 * seed % 2147483647) ∧ IsSeed (16807 * seed % 2147483647) := by
  have quotient : seed.tdiv 127773 = seed / 127773 := Int.tdiv_eq_ediv_of_nonneg (by omega)
  have remainder : seed.tmod 127773 = seed % 127773 := Int.tmod_eq_emod_of_nonneg (by omega)
  have split : 16807 * seed = 16807 * (seed % 127773) - 2836 * (seed / 127773) +
      2147483647 * (seed / 127773) := by omega
  have nonzero : 16807 * (seed % 127773) - 2836 * (seed / 127773) ≠ 0 := by
    intro zero
    omega
  unfold nextSeed checkedDiv checkedRem
  rw [if_pos isSeed, if_neg (by decide), if_neg (by omega), quotient, remainder,
    checked_eq (by omega), split, Int.add_mul_emod_self_left]
  simp only [Option.bind_eq_bind, Option.bind_some]
  rw [checked_eq (by omega), Option.bind_some, checked_eq (by omega), Option.bind_some,
    checked_eq (by omega), Option.bind_some]
  have bounds : -2147483647 < 16807 * (seed % 127773) - 2836 * (seed / 127773) ∧
      16807 * (seed % 127773) - 2836 * (seed / 127773) < 2147483647 := by omega
  generalize 16807 * (seed % 127773) - 2836 * (seed / 127773) = candidate at *
  by_cases positive : candidate > 0
  · rw [if_pos positive, Int.emod_eq_of_lt (by omega) (by omega)]
    exact ⟨if_pos (decide_eq_true (by omega)), by omega⟩
  · have wraps : candidate % 2147483647 = candidate + 2147483647 := by omega
    rw [if_neg positive, checked_eq (by omega), wraps]
    exact ⟨if_pos (decide_eq_true (by omega)), by omega⟩

theorem seedAt_succ (steps : Nat) :
    seedAt (16807 * seed % 2147483647) steps = seedAt seed (steps + 1) := by
  unfold seedAt
  rw [Int.mul_emod, Int.emod_emod_of_dvd _ dvd_rfl, ← Int.mul_emod, ← mul_assoc, ← pow_succ]

theorem advanceLoop_eq (isSeed : IsSeed seed) (steps : Nat) :
    advanceLoop seed steps = some (seedAt seed steps) ∧ IsSeed (seedAt seed steps) := by
  induction steps generalizing seed with
  | zero =>
    have same : seedAt seed 0 = seed := by
      unfold seedAt
      rw [pow_zero, one_mul]
      exact Int.emod_eq_of_lt (by omega) (by omega)
    rw [advanceLoop, same]
    exact ⟨rfl, isSeed⟩
  | succ steps ih =>
    obtain ⟨next, again⟩ := nextSeed_eq isSeed
    rw [advanceLoop, if_pos (by omega), next, Option.bind_eq_bind, Option.bind_some,
      Nat.cast_succ, add_sub_cancel_right, ← seedAt_succ]
    exact ih again

/-- No power of the multiplier is one before the last one. -/
theorem multiplier_powers : (16807 : ZMod 2147483647) ^ 2147483646 = 1 ∧
    ∀ q : Nat, q.Prime → q ∣ 2147483646 →
      (16807 : ZMod 2147483647) ^ (2147483646 / q) ≠ 1 := by
  refine ⟨by reduce_mod_char, fun q prime divides => ?_⟩
  have among := (Nat.mem_primeFactorsList (by decide)).mpr ⟨prime, divides⟩
  simp only [Nat.primeFactorsList_ofNat, List.mem_cons, List.not_mem_nil, or_false] at among
  rcases among with rfl | rfl | rfl | rfl | rfl | rfl | rfl | rfl <;>
    (reduce_mod_char; decide)

theorem prime_modulus : Nat.Prime 2147483647 :=
  lucas_primality _ _ multiplier_powers.1 multiplier_powers.2

instance primeFact : Fact (Nat.Prime 2147483647) := ⟨prime_modulus⟩

theorem orderOf_multiplier : orderOf (16807 : ZMod 2147483647) = 2147483646 :=
  orderOf_eq_of_pow_and_pow_div_prime (by decide) multiplier_powers.1 multiplier_powers.2

theorem seedAt_eq_iff (isSeed : IsSeed target) (steps : Nat) : seedAt seed steps = target ↔
    (16807 ^ steps * seed : ZMod 2147483647) = target := by
  have cast := ZMod.intCast_eq_intCast_iff (16807 ^ steps * seed) target 2147483647
  push_cast at cast
  rw [cast, Int.ModEq, Int.emod_eq_of_lt (a := target) (by omega) (by show _ < (2147483647 : Int); omega)]
  rfl

theorem seed_ne_zero (isSeed : IsSeed seed) : (seed : ZMod 2147483647) ≠ 0 := by
  rw [Ne, ZMod.intCast_zmod_eq_zero_iff_dvd]
  omega

/-- What the functions give for a seed. -/
structure Streams (seed : Int) : Prop where
  seeds : ∀ steps, IsSeed (seedAt seed steps)
  advances : ∀ steps : Nat, steps ≤ 100000 → advance seed steps = some (seedAt seed steps)
  samples : ∀ upper, 0 < upper → upper ≤ 2147483647 →
    sampleBelow seed upper = some (seedAt seed 1 % upper)
  meets : ∀ target, IsSeed target → ∃ steps < 2147483646, seedAt seed steps = target
  repeats : ∀ first second, seedAt seed first = seedAt seed second ↔
    first ≡ second [MOD 2147483646]

/-- **Every number gives a seed, and the stream of a seed meets every seed once before it starts
again.** No call within its conditions traps. -/
theorem random_exact :
    (∀ value, InI64 value → ∃ seed, normalizeSeed value = some seed ∧ IsSeed seed) ∧
      ∀ seed, IsSeed seed → Streams seed := by
  refine ⟨fun value fits => ?_, fun seed isSeed => ⟨fun steps => (advanceLoop_eq isSeed steps).2,
    fun steps few => ?_, fun upper positive bound => ?_, fun target isTarget => ?_,
    fun first second => ?_⟩⟩
  · have small : (value.tmod 2147483646).natAbs < 2147483646 := by
      rw [Int.natAbs_tmod]
      exact Nat.mod_lt _ (by decide)
    unfold normalizeSeed checkedRem
    rw [if_neg (by omega), Option.bind_eq_bind, Option.bind_some]
    split_ifs
    · rw [checked_eq (by omega)]
      exact ⟨_, if_pos (decide_eq_true (by omega)), by omega⟩
    · rw [checked_eq (by omega)]
      exact ⟨_, if_pos (decide_eq_true (by omega)), by omega⟩
  · obtain ⟨ends, again⟩ := advanceLoop_eq isSeed steps
    unfold advance
    rw [if_pos ⟨isSeed, by omega, by omega⟩, ends]
    exact if_pos (decide_eq_true again)
  · obtain ⟨next, again⟩ := nextSeed_eq isSeed
    have same : seedAt seed 1 = 16807 * seed % 2147483647 := by
      unfold seedAt
      rw [pow_one]
    rw [same]
    unfold sampleBelow checkedRem
    rw [if_pos ⟨isSeed, positive, bound⟩, next, Option.bind_eq_bind, Option.bind_some,
      if_neg (by omega), Option.bind_some, Int.tmod_eq_emod_of_nonneg (by omega)]
    have lower := Int.emod_nonneg (16807 * seed % 2147483647) (by omega : upper ≠ 0)
    have above := Int.emod_lt_of_pos (16807 * seed % 2147483647) positive
    exact if_pos (by simp [lower, above])
  · have nonzero := seed_ne_zero isSeed
    have power : (target / seed : ZMod 2147483647) ^ 2147483646 = 1 :=
      ZMod.pow_card_sub_one_eq_one (div_ne_zero (seed_ne_zero isTarget) nonzero)
    have primitive := IsPrimitiveRoot.orderOf (16807 : ZMod 2147483647)
    rw [orderOf_multiplier] at primitive
    obtain ⟨steps, few, same⟩ := primitive.eq_pow_of_pow_eq_one power
    exact ⟨steps, few, (seedAt_eq_iff isTarget steps).mpr (by rw [same, div_mul_cancel₀ _ nonzero])⟩
  · rw [seedAt_eq_iff (advanceLoop_eq isSeed second).2]
    rw [(seedAt_eq_iff (advanceLoop_eq isSeed second).2 second).mp rfl |>.symm, 
      mul_left_inj' (seed_ne_zero isSeed), ← orderOf_multiplier]
    exact (orderOf_pos_iff.mp (orderOf_multiplier ▸ Nat.succ_pos _)).pow_eq_pow_iff_modEq

end Semaprax.Standard
