/-
**Overflow of signed 64-bit arithmetic** (`std/num-overflow`).

Every operation of the language on `i64` traps when its result does not fit.

* `checked`, `checkedDiv`, `checkedRem` — the operations, without a result where they trap.
* `addOverflows`, …, `saturatingMul` — the functions of the module.
* `overflow_exact` — none of them traps, and each gives what the exact result says.
-/

import Semaprax.Library.Saturating

namespace Semaprax.Standard

open Library

/-- The numbers of 64 bits. -/
abbrev InI64 (value : Int) : Prop := -2 ^ 63 ≤ value ∧ value ≤ 2 ^ 63 - 1

/-- A result, unless it does not fit. -/
def checked (value : Int) : Option Int := if InI64 value then some value else none

def checkedDiv (left right : Int) : Option Int :=
  if right = 0 then none else checked (left.tdiv right)

def checkedRem (left right : Int) : Option Int :=
  if right = 0 ∨ left = -2 ^ 63 ∧ right = -1 then none else some (left.tmod right)

/-- `&&`, whose second half is computed only if the first one holds. -/
def andAlso (first : Bool) (second : Option Bool) : Option Bool :=
  if first then second else some false

/-- A result whose contract holds. -/
def ensuring {A : Type} (contract : Option Bool) (result : A) : Option A := do
  if ← contract then pure result else none

/-! Functions

The module writes the greatest number in decimals, and the least one as its negation less one. -/

def magnitude (value : Int) : Option Int := if value < 0 then checked (0 - value) else some value

def addOverflows (left right : Int) : Option Bool :=
  if right > 0 then do pure (left > (← checked (2 ^ 63 - 1 - right)))
  else do pure (left < (← checked (-2 ^ 63 - right)))

def subOverflows (left right : Int) : Option Bool :=
  if right < 0 then do pure (left > (← checked (2 ^ 63 - 1 + right)))
  else do pure (left < (← checked (-2 ^ 63 + right)))

def negOverflows (value : Int) : Option Bool := some (value = -2 ^ 63)

def mulOverflows (left right : Int) : Option Bool :=
  if left = 0 ∨ right = 0 ∨ left = 1 ∨ right = 1 then some false
  else if left = -1 then some (right = -2 ^ 63)
  else if right = -1 then some (left = -2 ^ 63)
  else if left = -2 ^ 63 ∨ right = -2 ^ 63 then some true
  else do
    let magnitudeLeft ← magnitude left
    let magnitudeRight ← magnitude right
    let quotient ← checkedDiv (2 ^ 63 - 1) magnitudeRight
    let remainder ← checkedRem (2 ^ 63 - 1) magnitudeRight
    if decide (left < 0) == decide (right < 0) then pure (magnitudeLeft > quotient)
    else
      let last ← checked (magnitudeRight - 1)
      pure (magnitudeLeft > (← checked (quotient + if remainder = last then 1 else 0)))

/-- The tests of `wrapping_add` and `saturating_add`. -/
def sumAbove (left right : Int) : Option Bool :=
  andAlso (right > 0) do pure (left > (← checked (2 ^ 63 - 1 - right)))

def sumBelow (left right : Int) : Option Bool :=
  andAlso (right < 0) do pure (left < (← checked (-2 ^ 63 - right)))

/-- The tests of `wrapping_sub` and `saturating_sub`. -/
def differenceAbove (left right : Int) : Option Bool :=
  andAlso (right < 0) do pure (left > (← checked (2 ^ 63 - 1 + right)))

def differenceBelow (left right : Int) : Option Bool :=
  andAlso (right > 0) do pure (left < (← checked (-2 ^ 63 + right)))

/-- What is computed above the range, below it and in it. -/
def ranged (above below : Option Bool) (greater less exact : Option Int) : Option Int := do
  if ← above then greater else if ← below then less else exact

def wrappingAdd (left right : Int) : Option Int :=
  ranged (sumAbove left right) (sumBelow left right)
    (do checked ((← checked ((← checked (left - (← checked (2 ^ 63 - 1 - right)))) - 1)) + -2 ^ 63))
    (do checked ((← checked ((← checked (left - (← checked (-2 ^ 63 - right)))) + 1)) + (2 ^ 63 - 1)))
    (checked (left + right))

def wrappingSub (left right : Int) : Option Int :=
  ranged (differenceAbove left right) (differenceBelow left right)
    (do checked ((← checked ((← checked (left + -2 ^ 63)) - (← checked (right + (2 ^ 63 - 1))))) - 1))
    (do checked ((← checked ((← checked (left + (2 ^ 63 - 1))) - (← checked (right + -2 ^ 63)))) + 1))
    (checked (left - right))

def wrappingNeg (value : Int) : Option Int :=
  if value = -2 ^ 63 then some value else checked (0 - value)

/-- The loop of `wrapping_mul`; halving a number never traps. -/
def mulLoop (product doubled remaining : Int) : Option Int :=
  if remaining > 0 then do
    let product ← if remaining.tmod 2 = 1 then wrappingAdd product doubled else pure product
    let doubled ← wrappingAdd doubled doubled
    mulLoop product doubled (remaining.tdiv 2)
  else some product
termination_by remaining.toNat
decreasing_by
  rw [Int.tdiv_eq_ediv_of_nonneg (by omega)]
  omega

def wrappingMul (left right : Int) : Option Int := do
  let result ←
    if left = -2 ^ 63 then pure (if right.tmod 2 = 0 then 0 else -2 ^ 63)
    else if right = -2 ^ 63 then pure (if left.tmod 2 = 0 then 0 else -2 ^ 63)
    else if left = 0 ∨ right = 0 then pure 0
    else
      let product ← mulLoop 0 (← magnitude left) (← magnitude right)
      if decide (left < 0) == decide (right < 0) then pure product else wrappingNeg product
  let contract ← mulOverflows left right
  ensuring (if contract then some true else do pure (result == (← checked (left * right)))) result

def saturatingAdd (left right : Int) : Option Int :=
  ranged (sumAbove left right) (sumBelow left right) (some (2 ^ 63 - 1)) (some (-2 ^ 63))
    (checked (left + right))

def saturatingSub (left right : Int) : Option Int :=
  ranged (differenceAbove left right) (differenceBelow left right) (some (2 ^ 63 - 1)) (some (-2 ^ 63))
    (checked (left - right))

def saturatingNeg (value : Int) : Option Int :=
  if value = -2 ^ 63 then some (2 ^ 63 - 1) else checked (0 - value)

def saturatingAbs (value : Int) : Option Int := do
  let result ← if value = -2 ^ 63 then pure (2 ^ 63 - 1) else magnitude value
  ensuring (some (result ≥ 0)) result

def saturatingMul (left right : Int) : Option Int := do
  if ← mulOverflows left right then
    pure (if decide (left < 0) == decide (right < 0) then 2 ^ 63 - 1 else -2 ^ 63)
  else checked (left * right)

/-- The number of the range that is the exact result modulo `2 ^ 64`. -/
structure Wraps (exact result : Int) : Prop where
  fits : InI64 result
  same : (2 ^ 64 : Int) ∣ exact - result

/-- What the functions give for two numbers. -/
structure OverflowExact (left right : Int) : Prop where
  addOverflows : addOverflows left right = some (decide ¬InI64 (left + right))
  subOverflows : subOverflows left right = some (decide ¬InI64 (left - right))
  negOverflows : negOverflows left = some (decide ¬InI64 (-left))
  mulOverflows : mulOverflows left right = some (decide ¬InI64 (left * right))
  wrappingAdd : ∃ result, wrappingAdd left right = some result ∧ Wraps (left + right) result
  wrappingSub : ∃ result, wrappingSub left right = some result ∧ Wraps (left - right) result
  wrappingNeg : ∃ result, wrappingNeg left = some result ∧ Wraps (-left) result
  wrappingMul : ∃ result, wrappingMul left right = some result ∧ Wraps (left * right) result
  saturatingAdd : saturatingAdd left right = some (I64.saturate (left + right)).val
  saturatingSub : saturatingSub left right = some (I64.saturate (left - right)).val
  saturatingNeg : saturatingNeg left = some (I64.saturate (-left)).val
  saturatingAbs : saturatingAbs left = some (I64.saturate |left|).val
  saturatingMul : saturatingMul left right = some (I64.saturate (left * right)).val

variable {value left right : Int}

theorem checked_eq (fits : InI64 value) : checked value = some value := if_pos fits

theorem saturate_val (exact : Int) :
    (I64.saturate exact).val = max (-2 ^ 63) (min (2 ^ 63 - 1) exact) := rfl

/-- A test whose bound is computed only where it fits. -/
theorem andAlso_checked {applies holds : Prop} [Decidable applies] [Decidable holds] {bound : Int}
    {test : Int → Bool} (fits : applies → InI64 bound)
    (same : applies ∧ test bound = true ↔ holds) :
    andAlso applies (do pure (test (← checked bound))) = some (decide holds) := by
  unfold andAlso
  by_cases here : applies
  · rw [if_pos (decide_eq_true here), checked_eq (fits here)]
    exact congrArg some (Bool.eq_iff_iff.mpr (by simp [← same, here]))
  · rw [if_neg (by simpa using here)]
    exact congrArg some (decide_eq_false fun holds => here (same.mpr holds).1).symm

theorem ranged_eq {above below : Prop} [Decidable above] [Decidable below]
    {greater less exact : Option Int} :
    ranged (some (decide above)) (some (decide below)) greater less exact =
      if above then greater else if below then less else exact := by
  unfold ranged
  simp only [Option.bind_eq_bind, Option.bind_some, decide_eq_true_eq]

/-- Tests of the exact result, and results for the case that it does not fit. -/
theorem ranged_wraps {exact : Int} {greater less : Option Int}
    (above : exact > 2 ^ 63 - 1 → greater = some (exact - 2 ^ 64) ∧ InI64 (exact - 2 ^ 64))
    (below : exact < -2 ^ 63 → less = some (exact + 2 ^ 64) ∧ InI64 (exact + 2 ^ 64)) :
    ∃ result, ranged (some (decide (exact > 2 ^ 63 - 1))) (some (decide (exact < -2 ^ 63))) greater
      less (checked exact) = some result ∧ Wraps exact result := by
  rw [ranged_eq]
  split_ifs with high low
  · exact ⟨_, (above high).1, (above high).2, by omega⟩
  · exact ⟨_, (below low).1, (below low).2, by omega⟩
  · exact ⟨exact, checked_eq (by omega), by omega, by omega⟩

theorem ranged_saturates (exact : Int) :
    ranged (some (decide (exact > 2 ^ 63 - 1))) (some (decide (exact < -2 ^ 63)))
      (some (2 ^ 63 - 1)) (some (-2 ^ 63)) (checked exact) = some (I64.saturate exact).val := by
  rw [ranged_eq, saturate_val]
  split_ifs with high low
  · exact congrArg some (by omega)
  · exact congrArg some (by omega)
  · rw [checked_eq (by omega)]
    exact congrArg some (by omega)

section Numbers

variable (first : InI64 left) (second : InI64 right)

include first second

theorem sumAbove_eq : sumAbove left right = some (decide (left + right > 2 ^ 63 - 1)) :=
  andAlso_checked (by omega) (by simp only [decide_eq_true_eq]; omega)

theorem sumBelow_eq : sumBelow left right = some (decide (left + right < -2 ^ 63)) :=
  andAlso_checked (by omega) (by simp only [decide_eq_true_eq]; omega)

theorem differenceAbove_eq :
    differenceAbove left right = some (decide (left - right > 2 ^ 63 - 1)) :=
  andAlso_checked (by omega) (by simp only [decide_eq_true_eq]; omega)

theorem differenceBelow_eq : differenceBelow left right = some (decide (left - right < -2 ^ 63)) :=
  andAlso_checked (by omega) (by simp only [decide_eq_true_eq]; omega)

theorem wrappingAdd_wraps :
    ∃ result, wrappingAdd left right = some result ∧ Wraps (left + right) result := by
  unfold wrappingAdd
  rw [sumAbove_eq first second, sumBelow_eq first second]
  refine ranged_wraps (fun above => ⟨?_, by omega⟩) fun below => ⟨?_, by omega⟩
  all_goals
    simp (disch := omega) only [checked_eq, Option.bind_eq_bind, Option.bind_some]
    exact congrArg some (by omega)

theorem wrappingSub_wraps :
    ∃ result, wrappingSub left right = some result ∧ Wraps (left - right) result := by
  unfold wrappingSub
  rw [differenceAbove_eq first second, differenceBelow_eq first second]
  refine ranged_wraps (fun above => ⟨?_, by omega⟩) fun below => ⟨?_, by omega⟩
  all_goals
    simp (disch := omega) only [checked_eq, Option.bind_eq_bind, Option.bind_some]
    exact congrArg some (by omega)

theorem addOverflows_eq : addOverflows left right = some (decide ¬InI64 (left + right)) := by
  unfold addOverflows
  split_ifs
  all_goals
    rw [checked_eq (by omega)]
    exact congrArg some (decide_eq_decide.mpr (by omega))

theorem subOverflows_eq : subOverflows left right = some (decide ¬InI64 (left - right)) := by
  unfold subOverflows
  split_ifs
  all_goals
    rw [checked_eq (by omega)]
    exact congrArg some (decide_eq_decide.mpr (by omega))

end Numbers

theorem magnitude_eq (fits : InI64 value) (inner : value ≠ -2 ^ 63) :
    magnitude value = some |value| := by
  unfold magnitude
  split_ifs with negative
  · rw [checked_eq (by omega), abs_of_neg negative, zero_sub]
  · rw [abs_of_nonneg (by omega)]

theorem abs_le (fits : InI64 value) (inner : value ≠ -2 ^ 63) : |value| ≤ 2 ^ 63 - 1 := by
  rcases abs_cases value with ⟨same, sign⟩ | ⟨same, sign⟩ <;> omega

/-- A quotient grows by one at each multiple. -/
theorem succ_ediv (value : Int) {step : Int} (positive : 0 < step) :
    (value + 1) / step = value / step + if value % step = step - 1 then 1 else 0 := by
  have split := Int.mul_ediv_add_emod value step
  have lower := Int.emod_nonneg value positive.ne'
  have upper := Int.emod_lt_of_pos value positive
  split_ifs with last
  · refine ((Int.ediv_emod_unique positive).mpr ⟨?_, le_rfl, positive⟩).1
    linear_combination split - last
  · have unique := @Int.ediv_emod_unique (value + 1) step (value % step + 1) (value / step + 0)
    refine ((unique positive).mpr ⟨?_, by omega, by omega⟩).1
    linear_combination split

/-- A product by the magnitudes of its factors. -/
theorem mul_eq_magnitudes (left right : Int) : left * right =
    if decide (left < 0) == decide (right < 0) then |left| * |right| else -(|left| * |right|) := by
  rcases abs_cases left with ⟨first, sign⟩ | ⟨first, sign⟩ <;>
    rcases abs_cases right with ⟨second, other⟩ | ⟨second, other⟩ <;>
    simp [first, second, sign, other, not_lt.mpr]

section Numbers

variable (first : InI64 left) (second : InI64 right)

include first second

theorem mulOverflows_eq : mulOverflows left right = some (decide ¬InI64 (left * right)) := by
  unfold mulOverflows
  by_cases small : left = 0 ∨ right = 0 ∨ left = 1 ∨ right = 1
  · rw [if_pos small]
    refine congrArg some (decide_eq_false ?_).symm
    rcases small with rfl | rfl | rfl | rfl <;> omega
  by_cases negated : left = -1
  · rw [if_neg small, if_pos negated, negated]
    exact congrArg some (decide_eq_decide.mpr (by omega))
  by_cases negating : right = -1
  · rw [if_neg small, if_neg negated, if_pos negating, negating]
    exact congrArg some (decide_eq_decide.mpr (by omega))
  rw [if_neg small, if_neg negated, if_neg negating]
  by_cases edge : left = -2 ^ 63 ∨ right = -2 ^ 63
  · rw [if_pos edge]
    refine congrArg some (decide_eq_true ?_).symm
    rcases edge with rfl | rfl <;> omega
  rw [if_neg edge]
  obtain ⟨leftInner, rightInner⟩ := not_or.mp edge
  have most := abs_le second rightInner
  have atLeast : 2 ≤ |right| := by
    rcases abs_cases right with ⟨same, sign⟩ | ⟨same, sign⟩ <;> omega
  have positive : 0 < |right| := by omega
  have nonneg := mul_nonneg (abs_nonneg left) (abs_nonneg right)
  -- a quotient by two or more is in the range, also that of the number past the greatest
  have bounded : 0 ≤ (2 ^ 63 - 1 + 1 : Int) / |right| ∧
      2 * ((2 ^ 63 - 1 + 1 : Int) / |right|) ≤ 2 ^ 63 - 1 + 1 := by
    have below := Int.ediv_mul_le (2 ^ 63 - 1 + 1) positive.ne'
    have lower := Int.ediv_nonneg (show (0 : Int) ≤ 2 ^ 63 - 1 + 1 by omega) positive.le
    exact ⟨lower, by nlinarith⟩
  have next := succ_ediv (2 ^ 63 - 1) positive
  have least := Int.ediv_nonneg (show (0 : Int) ≤ 2 ^ 63 - 1 by omega) positive.le
  have quotient : checkedDiv (2 ^ 63 - 1) |right| = some ((2 ^ 63 - 1) / |right|) := by
    unfold checkedDiv
    rw [if_neg positive.ne', Int.tdiv_eq_ediv_of_nonneg (by omega)]
    exact checked_eq ⟨by omega, by split_ifs at next <;> omega⟩
  have remainder : checkedRem (2 ^ 63 - 1) |right| = some ((2 ^ 63 - 1) % |right|) := by
    unfold checkedRem
    rw [if_neg (by omega), Int.tmod_eq_emod_of_nonneg (by omega)]
  rw [magnitude_eq first leftInner, magnitude_eq second rightInner, mul_eq_magnitudes]
  simp only [Option.bind_eq_bind, Option.bind_some, quotient, remainder]
  split_ifs with signs
  · refine congrArg some (decide_eq_decide.mpr ?_)
    rw [gt_iff_lt, Int.ediv_lt_iff_lt_mul positive]
    omega
  · rw [checked_eq (by omega)]
    simp only [Option.bind_some, ← next]
    rw [checked_eq (by omega)]
    refine congrArg some (decide_eq_decide.mpr ?_)
    rw [gt_iff_lt, Int.ediv_lt_iff_lt_mul positive]
    omega

theorem saturatingMul_eq : saturatingMul left right = some (I64.saturate (left * right)).val := by
  have nonneg := mul_nonneg (abs_nonneg left) (abs_nonneg right)
  unfold saturatingMul
  rw [mulOverflows_eq first second, saturate_val]
  by_cases fits : InI64 (left * right)
  · rw [decide_eq_false (not_not.mpr fits)]
    show checked _ = _
    rw [checked_eq fits]
    exact congrArg some (by omega)
  · rw [decide_eq_true fits]
    rw [mul_eq_magnitudes] at fits ⊢
    by_cases signs : (decide (left < 0) == decide (right < 0)) = true
    · rw [if_pos signs] at fits
      simp only [Option.bind_eq_bind, Option.bind_some, if_true, if_pos signs]
      exact congrArg some (by omega)
    · rw [if_neg signs] at fits
      simp only [Option.bind_eq_bind, Option.bind_some, if_true, if_neg signs]
      exact congrArg some (by omega)

end Numbers

/-- What the loop has added, and what it still has to add. -/
theorem mulLoop_wraps (bits : Nat) {product doubled remaining : Int} (first : InI64 product)
    (second : InI64 doubled) (nonneg : 0 ≤ remaining) (below : remaining < 2 ^ bits) :
    ∃ result, mulLoop product doubled remaining = some result ∧
      Wraps (product + doubled * remaining) result := by
  induction bits generalizing product doubled remaining with
  | zero =>
    obtain rfl : remaining = 0 := by omega
    rw [mulLoop, if_neg (lt_irrefl _)]
    exact ⟨product, rfl, first, by simp⟩
  | succ bits ih =>
    by_cases positive : remaining > 0
    · have split := Int.mul_ediv_add_emod remaining 2
      obtain ⟨twice, doubles, fits, a, wraps⟩ := wrappingAdd_wraps second second
      have goesOn : ∀ sum, Wraps (product + doubled * (remaining % 2)) sum →
          ∃ result, mulLoop sum twice (remaining / 2) = some result ∧
            Wraps (product + doubled * remaining) result := by
        rintro sum ⟨inside, b, same⟩
        obtain ⟨result, ends, keeps, c, rest⟩ := @ih sum twice (remaining / 2) inside fits
          (by omega) (by rw [pow_succ] at below; omega)
        refine ⟨result, ends, keeps, a * (remaining / 2) + b + c, ?_⟩
        linear_combination wraps * (remaining / 2) + same + rest - doubled * split
      rw [mulLoop, if_pos positive, Int.tmod_eq_emod_of_nonneg nonneg,
        Int.tdiv_eq_ediv_of_nonneg nonneg]
      simp only [doubles, Option.bind_eq_bind, Option.bind_some]
      rcases Int.emod_two_eq_zero_or_one remaining with even | odd
      · rw [if_neg (by omega)]
        exact goesOn product ⟨first, by simp [even]⟩
      · obtain ⟨sum, adds, wraps⟩ := wrappingAdd_wraps first second
        rw [if_pos odd, adds]
        refine goesOn sum ?_
        rwa [odd, mul_one]
    · obtain rfl : remaining = 0 := by omega
      rw [mulLoop, if_neg positive]
      exact ⟨product, rfl, first, by simp⟩

theorem wrappingNeg_wraps (fits : InI64 value) :
    ∃ result, wrappingNeg value = some result ∧ Wraps (-value) result := by
  unfold wrappingNeg
  split_ifs with edge
  · exact ⟨value, rfl, fits, by omega⟩
  · rw [checked_eq (by omega), zero_sub]
    exact ⟨-value, rfl, by omega, by omega⟩

/-- A multiple of the least number is even or odd. -/
theorem wraps_least (factor : Int) :
    Wraps (-2 ^ 63 * factor) (if factor.tmod 2 = 0 then 0 else -2 ^ 63) := by
  have parity : factor.tmod 2 = 0 ↔ factor % 2 = 0 := by
    rw [← Int.dvd_iff_tmod_eq_zero, ← Int.dvd_iff_emod_eq_zero]
  split_ifs with even
  · exact ⟨by omega, by omega⟩
  · exact ⟨by omega, by omega⟩

theorem wrappingMul_wraps (first : InI64 left) (second : InI64 right) :
    ∃ result, wrappingMul left right = some result ∧ Wraps (left * right) result := by
  have meets : ∀ result, Wraps (left * right) result →
      (do let contract ← mulOverflows left right
          ensuring (if contract then some true
            else do pure (result == (← checked (left * right)))) result) = some result := by
    rintro result ⟨inside, same⟩
    rw [mulOverflows_eq first second]
    by_cases fits : InI64 (left * right)
    · have equal : result = left * right := by omega
      simp [ensuring, checked_eq fits, equal]
    · simp [fits, ensuring]
  unfold wrappingMul
  by_cases edge : left = -2 ^ 63
  · subst edge
    rw [if_pos rfl]
    exact ⟨_, meets _ (wraps_least right), wraps_least right⟩
  rw [if_neg edge]
  by_cases other : right = -2 ^ 63
  · have wraps := wraps_least left
    rw [← other, mul_comm] at wraps
    rw [if_pos other, ← other]
    exact ⟨_, meets _ wraps, wraps⟩
  rw [if_neg other]
  by_cases zero : left = 0 ∨ right = 0
  · have wraps : Wraps (left * right) 0 := by
      rw [mul_eq_zero.mpr zero]
      exact ⟨by omega, by omega⟩
    rw [if_pos zero]
    exact ⟨0, meets 0 wraps, wraps⟩
  have most := abs_le first edge
  have few := abs_le second other
  have lower := abs_nonneg left
  obtain ⟨product, ends, wraps⟩ := @mulLoop_wraps 63 0 |left| |right| (by omega) (by omega)
    (abs_nonneg right) (by omega)
  rw [zero_add] at wraps
  rw [if_neg zero, magnitude_eq first edge, magnitude_eq second other]
  simp only [Option.bind_eq_bind, Option.bind_some, ends]
  by_cases signs : (decide (left < 0) == decide (right < 0)) = true
  · have same : Wraps (left * right) product := by rwa [mul_eq_magnitudes, if_pos signs]
    rw [if_pos signs]
    exact ⟨product, meets _ same, same⟩
  · obtain ⟨result, negated, inside, negates⟩ := wrappingNeg_wraps wraps.fits
    have same : Wraps (left * right) result := by
      refine ⟨inside, ?_⟩
      rw [mul_eq_magnitudes, if_neg signs]
      have exact := wraps.same
      omega
    rw [if_neg signs, negated]
    exact ⟨result, meets _ same, same⟩

theorem saturatingNeg_eq (fits : InI64 value) :
    saturatingNeg value = some (I64.saturate (-value)).val := by
  unfold saturatingNeg
  rw [saturate_val]
  split_ifs with edge
  · exact congrArg some (by omega)
  · rw [checked_eq (by omega)]
    exact congrArg some (by omega)

theorem saturatingAbs_eq (fits : InI64 value) :
    saturatingAbs value = some (I64.saturate |value|).val := by
  unfold saturatingAbs ensuring
  rw [saturate_val]
  by_cases edge : value = -2 ^ 63
  · rw [if_pos edge, edge]
    rfl
  · have most := abs_le fits edge
    have lower := abs_nonneg value
    rw [if_neg edge, magnitude_eq fits edge]
    simp only [Option.bind_eq_bind, Option.bind_some, ge_iff_le, lower, decide_true, if_pos]
    exact congrArg some (by omega)

/-- **No function of the module traps, and each gives what the exact result says.** -/
theorem overflow_exact (left right : I64) : OverflowExact left.val right.val := by
  have first : InI64 left.val := ⟨left.lower, left.upper⟩
  have second : InI64 right.val := ⟨right.lower, right.upper⟩
  exact {
    addOverflows := addOverflows_eq first second
    subOverflows := subOverflows_eq first second
    negOverflows := congrArg some (decide_eq_decide.mpr (by omega))
    mulOverflows := mulOverflows_eq first second
    wrappingAdd := wrappingAdd_wraps first second
    wrappingSub := wrappingSub_wraps first second
    wrappingNeg := wrappingNeg_wraps first
    wrappingMul := wrappingMul_wraps first second
    saturatingAdd := by
      unfold saturatingAdd
      rw [sumAbove_eq first second, sumBelow_eq first second]
      exact ranged_saturates _
    saturatingSub := by
      unfold saturatingSub
      rw [differenceAbove_eq first second, differenceBelow_eq first second]
      exact ranged_saturates _
    saturatingNeg := saturatingNeg_eq first
    saturatingAbs := saturatingAbs_eq first
    saturatingMul := saturatingMul_eq first second }

end Semaprax.Standard
