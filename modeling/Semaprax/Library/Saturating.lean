/-
**Signed 64-bit integers with saturating arithmetic.**

An `I64` is an integer with the proof that it lies in the range of a signed 64-bit word. The
arithmetic here never wraps: a result past either end is that end, or there is none.

* `saturatingAdd_val` / `saturatingSub_val` — the integer result, brought back into the range.
* `sumSaturating_val` — a saturating sum of nonnegative numbers is the sum, up to the greatest number.
-/

import Mathlib

namespace Library

/-- The least and the greatest signed 64-bit number. -/
def minI64 : Int := -2 ^ 63
def maxI64 : Int := 2 ^ 63 - 1

/-- A signed 64-bit integer. -/
structure I64 where
  val : Int
  lower : minI64 ≤ val
  upper : val ≤ maxI64
deriving DecidableEq

namespace I64

instance : Repr I64 where
  reprPrec number _ := repr number.val

/-- The number of the range that is closest to an integer. -/
def saturate (value : Int) : I64 where
  val := max minI64 (min maxI64 value)
  lower := le_max_left _ _
  upper := max_le (by decide) (min_le_left _ _)

instance (n : Nat) : OfNat I64 n where
  ofNat := saturate n

instance : LE I64 where
  le a b := a.val ≤ b.val

instance : LT I64 where
  lt a b := a.val < b.val

instance (a b : I64) : Decidable (a ≤ b) := inferInstanceAs (Decidable (a.val ≤ b.val))

instance (a b : I64) : Decidable (a < b) := inferInstanceAs (Decidable (a.val < b.val))

/-- `saturating_add`. -/
def saturatingAdd (a b : I64) : I64 := saturate (a.val + b.val)

/-- `saturating_sub`. -/
def saturatingSub (a b : I64) : I64 := saturate (a.val - b.val)

/-- The number, if it lies in the range. -/
def checked (value : Int) : Option I64 :=
  if lower : minI64 ≤ value then
    if upper : value ≤ maxI64 then some ⟨value, lower, upper⟩ else none
  else none

/-- `checked_add`. -/
def checkedAdd (a b : I64) : Option I64 := checked (a.val + b.val)

/-- `checked_sub`. -/
def checkedSub (a b : I64) : Option I64 := checked (a.val - b.val)

/-- `checked_mul`. -/
def checkedMul (a b : I64) : Option I64 := checked (a.val * b.val)

/-- `max(0)`. -/
def atLeastZero (a : I64) : I64 := if a.val < 0 then 0 else a

variable {value : Int} {amounts : List I64}

theorem ext_val {a b : I64} (same : a.val = b.val) : a = b := by
  cases a
  cases b
  cases same
  rfl

theorem saturate_val (lower : minI64 ≤ value) (upper : value ≤ maxI64) :
    (saturate value).val = value := by
  show max minI64 (min maxI64 value) = value
  rw [min_eq_right upper, max_eq_right lower]

@[simp]
theorem zero_val : (0 : I64).val = 0 := rfl

theorem saturatingAdd_val (a b : I64) :
    (a.saturatingAdd b).val = max minI64 (min maxI64 (a.val + b.val)) := rfl

theorem saturatingSub_val (a b : I64) :
    (a.saturatingSub b).val = max minI64 (min maxI64 (a.val - b.val)) := rfl

theorem checked_eq_some {number : I64} : checked value = some number ↔ value = number.val := by
  unfold checked
  split_ifs with lower upper
  · refine ⟨fun same => congrArg I64.val (Option.some.inj same), fun same => ?_⟩
    exact congrArg some (ext_val same)
  · exact ⟨(nomatch ·), fun same => absurd (same ▸ number.upper) upper⟩
  · exact ⟨(nomatch ·), fun same => absurd (same ▸ number.lower) lower⟩

theorem checked_eq_none : checked value = none ↔ ¬(minI64 ≤ value ∧ value ≤ maxI64) := by
  unfold checked
  split_ifs with lower upper
  · exact ⟨(nomatch ·), fun past => absurd ⟨lower, upper⟩ past⟩
  · exact ⟨fun _ fits => upper fits.2, fun _ => rfl⟩
  · exact ⟨fun _ fits => lower fits.1, fun _ => rfl⟩

theorem atLeastZero_val (a : I64) : a.atLeastZero.val = max 0 a.val := by
  unfold atLeastZero
  split_ifs with negative
  · exact (max_eq_left negative.le).symm
  · exact (max_eq_right (not_lt.mp negative)).symm

theorem atLeastZero_nonneg (a : I64) : 0 ≤ a.atLeastZero.val := by
  rw [atLeastZero_val]
  exact le_max_left _ _

def sumSaturating (amounts : List I64) : I64 := amounts.foldl saturatingAdd 0

/-- The integer sum of a list. -/
def total (amounts : List I64) : Int := (amounts.map (·.val)).sum

@[simp]
theorem total_nil : total [] = 0 := rfl

@[simp]
theorem total_append (amounts more : List I64) :
    total (amounts ++ more) = total amounts + total more := by
  unfold total
  rw [List.map_append, List.sum_append]

@[simp]
theorem total_singleton (amount : I64) : total [amount] = amount.val := by
  unfold total
  rw [List.map_singleton, List.sum_singleton]

theorem total_nonneg (nonneg : ∀ amount ∈ amounts, 0 ≤ amount.val) : 0 ≤ total amounts := by
  refine List.sum_nonneg fun value member => ?_
  obtain ⟨amount, listed, rfl⟩ := List.mem_map.mp member
  exact nonneg amount listed

theorem sumSaturating_append (amounts : List I64) (amount : I64) :
    sumSaturating (amounts ++ [amount]) = (sumSaturating amounts).saturatingAdd amount := by
  unfold sumSaturating
  rw [List.foldl_append]
  rfl

theorem sumSaturating_val (nonneg : ∀ amount ∈ amounts, 0 ≤ amount.val) :
    (sumSaturating amounts).val = min maxI64 (total amounts) := by
  induction amounts using List.reverseRecOn with
  | nil => rfl
  | append_singleton amounts amount ih =>
    have before := ih fun other member => nonneg other (List.mem_append_left _ member)
    have sum := total_nonneg fun other member => nonneg other (List.mem_append_left [amount] member)
    have added := nonneg amount (List.mem_append_right _ (List.mem_singleton_self amount))
    rw [sumSaturating_append, saturatingAdd_val, total_append, total_singleton, before]
    have bounds : minI64 ≤ 0 ∧ 0 ≤ maxI64 := by decide
    omega

end I64

end Library
