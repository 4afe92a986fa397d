/-
**Exact numbers of the standard library** (`std/num`).

* `divEuclid`, …, `log10Floor` — the functions. A call that traps or breaks a contract, its own
  conditions on the arguments included, has no result.
* `numbers_exact` — what they give for the arguments that meet the conditions.
-/

import Semaprax.Standard.Overflow

namespace Semaprax.Standard

open Library

/-- The conditions of `div_euclid` and `rem_euclid`. -/
abbrev Divisible (dividend divisor : Int) : Prop :=
  divisor ≠ 0 ∧ (dividend ≠ -2 ^ 63 ∨ divisor ≠ -1)

def divEuclid (dividend divisor : Int) : Option Int :=
  if Divisible dividend divisor then do
    let quotient ← checkedDiv dividend divisor
    if (← checkedRem dividend divisor) < 0 then
      if divisor > 0 then checked (quotient - 1) else checked (quotient + 1)
    else pure quotient
  else none

def remEuclid (dividend divisor : Int) : Option Int :=
  if Divisible dividend divisor then do
    let remainder ← checkedRem dividend divisor
    let result ←
      if remainder < 0 then
        if divisor > 0 then checked (remainder + divisor) else checked (remainder - divisor)
      else pure remainder
    ensuring (some (result ≥ 0)) result
  else none

/-- The loop of `gcd`; a remainder traps for the least number and `-1` only. -/
def gcdLoop (a b : Int) : Option Int :=
  if b = 0 then some a else if a = -2 ^ 63 ∧ b = -1 then none else gcdLoop b (a.tmod b)
termination_by b.natAbs
decreasing_by
  rw [Int.natAbs_tmod]
  exact Nat.mod_lt _ (Int.natAbs_pos.mpr ‹_›)

def gcd (left right : Int) : Option Int :=
  if left ≥ 0 ∧ right ≥ 0 then do
    let result ← gcdLoop left right
    ensuring (some (result ≥ 0)) result
  else none

def powLoop (base product remaining : Int) : Option Int :=
  if remaining > 0 then do powLoop base (← checked (product * base)) (remaining - 1)
  else some product
termination_by remaining.toNat

def pow (base exponent : Int) : Option Int :=
  if exponent ≥ 0 then do
    let result ← powLoop base 1 exponent
    ensuring (some (exponent > 0 || result == 1)) result
  else none

/-- The loop of `isqrt`; each number that is computed has to fit. -/
def isqrtLoop (value low high : Int) : Option Int :=
  if low < high then
    let middle := low + (high - low + 1).tdiv 2
    if InI64 (high - low) ∧ InI64 (high - low + 1) ∧ InI64 middle ∧ InI64 (middle * middle) then
      if middle * middle ≤ value then isqrtLoop value middle high
      else if InI64 (middle - 1) then isqrtLoop value low (middle - 1) else none
    else none
  else some low
termination_by (high - low).toNat
decreasing_by
  all_goals
    rw [Int.tdiv_eq_ediv_of_nonneg (by omega)]
    omega

def isqrt (value : Int) : Option Int :=
  if value ≥ 0 then do
    let result ← isqrtLoop value 0 (if value < 3037000499 then value else 3037000499)
    let square ← checked (result * result)
    ensuring (some (result ≥ 0 && result ≤ 3037000499 && square ≤ value)) result
  else none

/-- A quotient is nearer to zero. -/
theorem natAbs_tdiv_lt {value base : Int} (nonzero : value ≠ 0) (large : 2 ≤ base) :
    (value.tdiv base).natAbs < value.natAbs := by
  rw [Int.natAbs_tdiv]
  exact Nat.div_lt_self (Int.natAbs_pos.mpr nonzero) (by omega)

/-- The loop of `digit_count`. -/
def digitLoop (remaining digits : Int) : Option Int :=
  if remaining ≠ 0 then do digitLoop (remaining.tdiv 10) (← checked (digits + 1)) else some digits
termination_by remaining.natAbs
decreasing_by exact natAbs_tdiv_lt ‹_› (by decide)

def digitCount (value : Int) : Option Int := do
  let result ← digitLoop (value.tdiv 10) 1
  ensuring (some (result ≥ 1 && result ≤ 19)) result

/-- The loop of `is_power_of_two`, whose remainder is only taken of a number past one. -/
def halvings (remaining : Int) : Int :=
  if remaining > 1 ∧ remaining.tmod 2 = 0 then halvings (remaining.tdiv 2) else remaining
termination_by remaining.natAbs
decreasing_by exact natAbs_tdiv_lt (by omega) (by decide)

def isPowerOfTwo (value : Int) : Option Bool :=
  let result := halvings value == 1
  ensuring (some (!result || value > 0)) result

/-- The loops of `log2_floor` and `log10_floor`. -/
def logLoop (base : Int) (large : 2 ≤ base) (remaining exponent : Int) : Option Int :=
  if remaining > 0 then do
    logLoop base large (remaining.tdiv base) (← checked (exponent + 1))
  else some exponent
termination_by remaining.natAbs
decreasing_by exact natAbs_tdiv_lt (by omega) large

def log2Floor (value : Int) : Option Int :=
  if value > 0 then do
    let result ← logLoop 2 (by decide) (value.tdiv 2) 0
    ensuring (some (result ≥ 0 && result ≤ 62)) result
  else none

def log10Floor (value : Int) : Option Int :=
  if value > 0 then do
    let result ← logLoop 10 (by decide) (value.tdiv 10) 0
    ensuring (some (result ≥ 0 && result ≤ 18)) result
  else none

theorem ensuring_eq {A : Type} {contract : Bool} (holds : contract = true) (result : A) :
    ensuring (some contract) result = some result := if_pos holds

def Euclid (dividend divisor quotient remainder : Int) : Prop :=
  divisor * quotient + remainder = dividend ∧ 0 ≤ remainder ∧ remainder < |divisor|

section Division

variable {dividend divisor : Int}

theorem euclid_iff (nonzero : divisor ≠ 0) {quotient remainder : Int} :
    Euclid dividend divisor quotient remainder ↔
      quotient = dividend / divisor ∧ remainder = dividend % divisor := by
  constructor
  · rintro ⟨rfl, lower, upper⟩
    have same : remainder = (divisor * quotient + remainder) % divisor := by
      rw [Int.mul_add_emod_self_left, ← Int.emod_abs, Int.emod_eq_of_lt lower upper]
    have split := Int.mul_ediv_add_emod (divisor * quotient + remainder) divisor
    rw [← same, add_left_inj] at split
    exact ⟨(mul_left_cancel₀ nonzero split).symm, same⟩
  · rintro ⟨rfl, rfl⟩
    exact ⟨Int.mul_ediv_add_emod .., Int.emod_nonneg _ nonzero, Int.emod_lt_abs _ nonzero⟩

/-- A quotient that leaves a remainder is far from the ends of the range. -/
theorem tdiv_fits (fits : InI64 dividend) (divisible : Divisible dividend divisor) :
    InI64 (dividend.tdiv divisor) ∧
      (dividend.tmod divisor < 0 → -2 ^ 62 ≤ dividend.tdiv divisor ∧
        dividend.tdiv divisor ≤ 2 ^ 62) := by
  obtain ⟨nonzero, inner⟩ := divisible
  by_cases unit : divisor.natAbs = 1
  · rcases Int.natAbs_eq_iff.mp unit with rfl | rfl
    · simpa using fits
    · rw [Int.tdiv_neg, Int.tmod_neg]
      simp only [Nat.cast_one, Int.tdiv_one, Int.tmod_one]
      omega
  · have halved : (dividend.tdiv divisor).natAbs ≤ dividend.natAbs / 2 := by
      rw [Int.natAbs_tdiv]
      exact Nat.div_le_div_left (by omega) (by decide)
    omega

theorem euclid_spec (fits : InI64 dividend) (bound : InI64 divisor)
    (divisible : Divisible dividend divisor) :
    divEuclid dividend divisor = some (dividend / divisor) ∧
      remEuclid dividend divisor = some (dividend % divisor) := by
  obtain ⟨quotient, far⟩ := tdiv_fits fits divisible
  have lower := Int.emod_nonneg dividend divisible.1
  have upper := Int.emod_lt_abs dividend divisible.1
  have least : ¬(dividend = -2 ^ 63 ∧ divisor = -1) := fun least =>
    divisible.2.elim (· least.1) (· least.2)
  unfold divEuclid remEuclid ensuring
  rw [if_pos divisible, if_pos divisible, checkedDiv, checkedRem, if_neg divisible.1,
    checked_eq quotient, if_neg (not_or.mpr ⟨divisible.1, least⟩)]
  have tdiv := @Int.tdiv_eq_ediv dividend divisor
  have tmod := @Int.tmod_eq_emod dividend divisor
  simp only [Option.bind_eq_bind, Option.bind_some]
  by_cases exact : 0 ≤ dividend ∨ divisor ∣ dividend
  · rw [if_pos exact] at tdiv tmod
    rw [if_neg (by omega), if_neg (by omega)]
    simp [tdiv, tmod, lower]
  · rw [if_neg exact] at tdiv tmod
    rcases divisible.1.lt_or_gt with negative | positive
    · rw [Int.sign_eq_neg_one_of_neg negative] at tdiv
      rw [abs_of_neg negative] at upper
      rw [if_pos (by omega), if_neg (by omega), checked_eq (by omega), if_pos (by omega),
        if_neg (by omega), checked_eq (by omega), Option.bind_some, if_pos (by simp; omega)]
      exact ⟨congrArg some (by omega), congrArg some (by omega)⟩
    · rw [Int.sign_eq_one_of_pos positive] at tdiv
      rw [abs_of_pos positive] at upper
      rw [if_pos (by omega), if_pos positive, checked_eq (by omega), if_pos (by omega),
        if_pos positive, checked_eq (by omega), Option.bind_some, if_pos (by simp; omega)]
      exact ⟨congrArg some (by omega), congrArg some (by omega)⟩

end Division

theorem gcdLoop_eq (right left : Nat) :
    gcdLoop left right = some ((Nat.gcd right left : Nat) : Int) := by
  induction right, left using Nat.gcd.induction with
  | H0 left => rw [gcdLoop, if_pos Nat.cast_zero, Nat.gcd_zero_left]
  | H1 right left positive ih =>
    rw [gcdLoop, if_neg (by omega), if_neg (by omega), ← Int.ofNat_tmod, ih, ← Nat.gcd_rec]

theorem pow_overflows {base : Int} {least exponent : Nat} (past : ¬InI64 (base ^ least))
    (more : least ≤ exponent) : ¬InI64 (base ^ exponent) := by
  obtain ⟨extra, rfl⟩ := Nat.exists_eq_add_of_le more
  rcases extra.eq_zero_or_pos with rfl | positive
  · exact past
  have large : 2 ^ 63 ≤ base.natAbs ^ least := by
    rw [← Int.natAbs_pow]
    omega
  have steep : 2 ≤ base.natAbs := by
    by_contra flat
    have := Nat.pow_le_pow_left (show base.natAbs ≤ 1 by omega) least
    simp only [one_pow] at this
    omega
  have twice := Nat.mul_le_mul large (steep.trans (Nat.le_self_pow positive.ne' _))
  rw [← pow_add, ← Int.natAbs_pow] at twice
  omega

theorem powLoop_eq (base : Int) (done left : Nat) (fits : InI64 (base ^ done)) :
    powLoop base (base ^ done) left = checked (base ^ (done + left)) := by
  induction left generalizing done with
  | zero => rw [powLoop, if_neg (by decide), Nat.add_zero, checked_eq fits]
  | succ left ih =>
    rw [powLoop, if_pos (by omega), ← pow_succ, Nat.cast_succ, add_sub_cancel_right]
    by_cases next : InI64 (base ^ (done + 1))
    · rw [checked_eq next]
      exact (ih (done + 1) next).trans (congrArg (fun sum => checked (base ^ sum)) (by omega))
    · rw [checked, if_neg next, checked, if_neg (pow_overflows next (by omega))]
      rfl

theorem isqrtLoop_eq (value low high : Int) (nonneg : 0 ≤ low) (ordered : low ≤ high)
    (bound : high ≤ 3037000499) (below : low * low ≤ value)
    (above : value < (high + 1) * (high + 1)) :
    ∃ root, isqrtLoop value low high = some root ∧ 0 ≤ root ∧ root ≤ 3037000499 ∧
      root * root ≤ value ∧ value < (root + 1) * (root + 1) := by
  fun_induction isqrtLoop value low high with
  | case1 low high less middle fits small ih =>
    have half := Int.tdiv_eq_ediv_of_nonneg (b := 2) (show 0 ≤ high - low + 1 by omega)
    exact ih (by omega) (by omega) bound small above
  | case2 low high less middle fits large inner ih =>
    have half := Int.tdiv_eq_ediv_of_nonneg (b := 2) (show 0 ≤ high - low + 1 by omega)
    exact ih nonneg (by omega) (by omega) below (by rw [sub_add_cancel]; omega)
  | case3 low high less middle fits large outer =>
    have half := Int.tdiv_eq_ediv_of_nonneg (b := 2) (show 0 ≤ high - low + 1 by omega)
    omega
  | case4 low high less middle unfit =>
    have half := Int.tdiv_eq_ediv_of_nonneg (b := 2) (show 0 ≤ high - low + 1 by omega)
    refine absurd ⟨by omega, by omega, by omega, ?_⟩ unfit
    have square := mul_le_mul (show middle ≤ 3037000499 by omega)
      (show middle ≤ 3037000499 by omega) (by omega) (by omega)
    have nonneg := mul_nonneg (show 0 ≤ middle by omega) (show 0 ≤ middle by omega)
    omega
  | case5 low high ends =>
    obtain rfl : low = high := by omega
    exact ⟨low, rfl, nonneg, bound, below, above⟩

theorem logLoop_eq {base : Nat} (large : 2 ≤ (base : Int)) {value : Nat} (positive : 0 < value)
    (exponent : Int) (nonneg : 0 ≤ exponent) (room : exponent + Nat.log base value ≤ 2 ^ 63 - 1) :
    logLoop base large (value / base : Nat) exponent = some (exponent + Nat.log base value) := by
  induction value using Nat.strong_induction_on generalizing exponent with
  | _ value ih =>
    rw [logLoop]
    by_cases ends : value < base
    · rw [Nat.div_eq_of_lt ends, if_neg (by decide), Nat.log_of_lt ends]
      simp
    · have next := Nat.div_pos (not_lt.mp ends) (by omega)
      have log := Nat.log_of_one_lt_of_le (by omega) (not_lt.mp ends)
      rw [log, Nat.cast_succ] at room ⊢
      rw [if_pos (by omega), checked_eq (by omega), ← Int.ofNat_tdiv]
      exact (ih _ (Nat.div_lt_self positive (by omega)) next (exponent + 1) (by omega)
        (by omega)).trans (congrArg some (by omega))

theorem floorLog_eq {base limit : Nat} (large : 2 ≤ (base : Int)) {value : Int}
    (positive : 0 < value) (below : value < base ^ (limit + 1)) (small : limit ≤ 62) :
    (logLoop base large (value.tdiv base) 0 >>= fun result =>
      ensuring (some (decide (result ≥ 0) && decide (result ≤ limit))) result) =
        some (Nat.log base value.toNat : Int) := by
  obtain ⟨value, rfl⟩ := Int.eq_ofNat_of_zero_le positive.le
  have log : Nat.log base value < limit + 1 :=
    Nat.log_lt_of_lt_pow (by omega) (by exact_mod_cast below)
  rw [← Int.ofNat_tdiv, logLoop_eq large (by omega) 0 le_rfl (by omega), zero_add]
  exact ensuring_eq (by simp; omega) _

theorem digitLoop_eq (remaining digits : Int) :
    digitLoop remaining digits = logLoop (10 : Nat) (by decide) remaining.natAbs digits := by
  fun_induction digitLoop remaining digits with
  | case1 remaining digits more ih =>
    rw [logLoop, if_pos (by omega)]
    refine congrArg (Option.bind _) (funext fun next => ?_)
    rw [ih, Int.natAbs_tdiv]
    rfl
  | case2 remaining digits ends => rw [logLoop, if_neg (by omega)]

theorem halvings_iff (value : Int) :
    halvings value = 1 ↔ ∃ exponent : Nat, value = 2 ^ exponent := by
  fun_induction halvings value with
  | case1 value even ih =>
    rw [ih, Int.tdiv_eq_ediv_of_nonneg (by omega)]
    rw [Int.tmod_eq_emod_of_nonneg (by omega)] at even
    constructor
    · rintro ⟨exponent, same⟩
      exact ⟨exponent + 1, by rw [pow_succ]; omega⟩
    · rintro ⟨- | exponent, rfl⟩
      · omega
      · exact ⟨exponent, by rw [pow_succ]; omega⟩
  | case2 value odd =>
    constructor
    · rintro rfl
      exact ⟨0, rfl⟩
    · rintro ⟨- | exponent, rfl⟩
      · rfl
      · have positive := Int.pow_pos (n := 2) (m := exponent) (by decide)
        rw [pow_succ, Int.tmod_eq_emod_of_nonneg (by omega)] at odd
        omega

/-- What the functions give for two numbers, of which most take the first one only. -/
structure NumbersExact (left right : Int) : Prop where
  euclid : Divisible left right → ∀ quotient remainder,
    Euclid left right quotient remainder ↔
      divEuclid left right = some quotient ∧ remEuclid left right = some remainder
  gcd : 0 ≤ left → 0 ≤ right → gcd left right = some (Int.gcd left right : Int)
  pow : 0 ≤ right → pow left right = checked (left ^ right.toNat)
  isqrt : 0 ≤ left → isqrt left = some (Nat.sqrt left.toNat : Int)
  digitCount : digitCount left = some (max 1 (Nat.digits 10 left.natAbs).length : Int)
  isPowerOfTwo : ∃ result, isPowerOfTwo left = some result ∧
    (result = true ↔ ∃ exponent : Nat, left = 2 ^ exponent)
  log2Floor : 0 < left → log2Floor left = some (Nat.log 2 left.toNat : Int)
  log10Floor : 0 < left → log10Floor left = some (Nat.log 10 left.toNat : Int)

/-- **The functions are exact wherever they are defined.** -/
theorem numbers_exact (left right : I64) : NumbersExact left.val right.val := by
  have first : InI64 left.val := ⟨left.lower, left.upper⟩
  have second : InI64 right.val := ⟨right.lower, right.upper⟩
  generalize left.val = left at *
  generalize right.val = right at *
  refine ⟨fun divisible quotient remainder => ?_, fun nonneg nonneg' => ?_, fun nonneg => ?_,
    fun nonneg => ?_, ?_, ?_, fun positive => ?_, fun positive => ?_⟩
  · rw [euclid_iff divisible.1, (euclid_spec first second divisible).1,
      (euclid_spec first second divisible).2, Option.some.injEq, Option.some.injEq,
      eq_comm, eq_comm (a := remainder)]
  · obtain ⟨left, rfl⟩ := Int.eq_ofNat_of_zero_le nonneg
    obtain ⟨right, rfl⟩ := Int.eq_ofNat_of_zero_le nonneg'
    unfold Standard.gcd
    rw [if_pos ⟨nonneg, nonneg'⟩, gcdLoop_eq, Nat.gcd_comm, Int.gcd_natCast_natCast,
      Option.bind_eq_bind, Option.bind_some]
    exact ensuring_eq (decide_eq_true (Int.natCast_nonneg _)) _
  · obtain ⟨exponent, rfl⟩ := Int.eq_ofNat_of_zero_le nonneg
    have power := powLoop_eq left 0 exponent (by rw [pow_zero]; omega)
    rw [pow_zero, zero_add] at power
    unfold Standard.pow
    rw [if_pos nonneg, power, Int.toNat_natCast]
    by_cases fits : InI64 (left ^ exponent)
    · rw [checked_eq fits]
      refine ensuring_eq ?_ _
      rcases exponent with - | exponent <;> simp
    · rw [checked, if_neg fits]
      rfl
  · obtain ⟨root, ends, lower, upper, below, above⟩ := isqrtLoop_eq left 0
      (if left < 3037000499 then left else 3037000499) le_rfl (by split_ifs <;> omega)
      (by split_ifs <;> omega) nonneg (by split_ifs <;> [nlinarith; omega])
    obtain ⟨root, rfl⟩ := Int.eq_ofNat_of_zero_le lower
    obtain ⟨left, rfl⟩ := Int.eq_ofNat_of_zero_le nonneg
    unfold Standard.isqrt
    rw [if_pos nonneg, ends]
    show (checked (root * root) >>= _) = _
    have square := mul_nonneg lower lower
    rw [checked_eq ⟨by omega, by omega⟩, Int.toNat_natCast,
      ← Nat.eq_sqrt.mpr ⟨by exact_mod_cast below, by exact_mod_cast above⟩]
    exact ensuring_eq (by simp [upper, below]) _
  · have log := Nat.log_lt_of_lt_pow' (b := 10) (x := 19) (y := left.natAbs) (by decide) (by omega)
    have loop : digitLoop (left.tdiv 10) 1 = some (1 + Nat.log 10 left.natAbs : Int) := by
      rw [digitLoop_eq, Int.natAbs_tdiv]
      rcases left.natAbs.eq_zero_or_pos with zero | positive
      · rw [zero, logLoop]
        rfl
      · exact logLoop_eq _ positive 1 (by decide) (by omega)
    have digits : (Nat.digits 10 left.natAbs).length ≤ Nat.log 10 left.natAbs + 1 ∧
        Nat.log 10 left.natAbs + 1 ≤ max 1 (Nat.digits 10 left.natAbs).length := by
      by_cases zero : left.natAbs = 0
      · simp [zero]
      · rw [Nat.length_digits 10 _ (by decide) zero]
        exact ⟨le_rfl, le_max_right ..⟩
    unfold Standard.digitCount
    rw [loop, show (max 1 (Nat.digits 10 left.natAbs).length : Int) =
      1 + Nat.log 10 left.natAbs by omega]
    exact ensuring_eq (by simp; omega) _
  · refine ⟨halvings left == 1, ensuring_eq ?_ _, by rw [beq_iff_eq, halvings_iff]⟩
    by_cases power : halvings left = 1
    · obtain ⟨exponent, rfl⟩ := (halvings_iff left).mp power
      simp
    · simp [power]
  · exact (if_pos positive).trans (@floorLog_eq 2 62 (by decide) _ positive (by omega) (by decide))
  · exact (if_pos positive).trans (@floorLog_eq 10 18 (by decide) _ positive (by omega) (by decide))

end Semaprax.Standard
