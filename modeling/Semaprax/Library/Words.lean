/-
**Unsigned machine words.**

A `Word top` is a natural number up to `top`. Nothing here wraps: an addition is checked, and has no
result when it overflows, or it saturates at `top`.

* `checkedAdd_eq_some` — the sums that fit.
* `saturatingAdd_val` / `saturatingSub_val` — the results, brought back into the range.
* `saturatingAdd_one` — counting up to a bound.
-/

import Mathlib

namespace Library

/-- A natural number up to `top`. -/
structure Word (top : Nat) where
  val : Nat
  upper : val ≤ top
deriving DecidableEq

/-- Unsigned numbers of 32 and of 64 bits. -/
abbrev U32 := Word (2 ^ 32 - 1)
abbrev U64 := Word (2 ^ 64 - 1)

namespace Word

variable {top : Nat}

instance : Repr (Word top) where
  reprPrec word _ := repr word.val

def greatest : Word top := ⟨top, le_rfl⟩

/-- The word that is closest to a number. -/
def saturate (value : Nat) : Word top := ⟨min value top, min_le_right _ _⟩

instance (n : Nat) : OfNat (Word top) n where
  ofNat := saturate n

instance : LE (Word top) where
  le a b := a.val ≤ b.val

instance : LT (Word top) where
  lt a b := a.val < b.val

instance (a b : Word top) : Decidable (a ≤ b) := inferInstanceAs (Decidable (a.val ≤ b.val))

instance (a b : Word top) : Decidable (a < b) := inferInstanceAs (Decidable (a.val < b.val))

/-- `saturating_add`. -/
def saturatingAdd (a b : Word top) : Word top := saturate (a.val + b.val)

/-- `saturating_sub`. -/
def saturatingSub (a b : Word top) : Word top := ⟨a.val - b.val, (Nat.sub_le _ _).trans a.upper⟩

/-- `checked_add`. -/
def checkedAdd (a b : Word top) : Option (Word top) :=
  if fits : a.val + b.val ≤ top then some ⟨a.val + b.val, fits⟩ else none

/-- `checked_sub`. -/
def checkedSub (a b : Word top) : Option (Word top) :=
  if b.val ≤ a.val then some (a.saturatingSub b) else none

/-- The word of a number, if it is not too great (`try_from`). -/
def tryFrom (value : Nat) : Option (Word top) :=
  if fits : value ≤ top then some ⟨value, fits⟩ else none

theorem ext_val {a b : Word top} (same : a.val = b.val) : a = b := by
  cases a
  cases b
  cases same
  rfl

theorem saturatingAdd_val (a b : Word top) : (a.saturatingAdd b).val = min (a.val + b.val) top := rfl

theorem saturatingAdd_one {a bound : Word top} (below : a.val < bound.val) :
    (a.saturatingAdd 1).val = a.val + 1 := by
  have upper := bound.upper
  have one : (1 : Word top).val = min 1 top := rfl
  rw [saturatingAdd_val, one]
  omega

theorem le_saturatingAdd (a b : Word top) : a ≤ a.saturatingAdd b :=
  le_min (Nat.le_add_right _ _) a.upper

theorem saturatingSub_val (a b : Word top) : (a.saturatingSub b).val = a.val - b.val := rfl

theorem checkedAdd_eq_some {a b sum : Word top} :
    a.checkedAdd b = some sum ↔ a.val + b.val = sum.val := by
  unfold checkedAdd
  split_ifs with fits
  · refine ⟨fun same => congrArg Word.val (Option.some.inj same), fun same => ?_⟩
    exact congrArg some (ext_val same)
  · exact ⟨(nomatch ·), fun same => absurd (same.le.trans sum.upper) fits⟩

theorem checkedAdd_eq_none {a b : Word top} : a.checkedAdd b = none ↔ top < a.val + b.val := by
  unfold checkedAdd
  split_ifs with fits
  · exact ⟨(nomatch ·), fun past => absurd fits (not_le.mpr past)⟩
  · exact ⟨fun _ => not_le.mp fits, fun _ => rfl⟩

theorem checkedSub_eq_some {a b difference : Word top} :
    a.checkedSub b = some difference ↔ a.val = b.val + difference.val := by
  unfold checkedSub
  split_ifs with fits
  · refine ⟨fun same => ?_, fun same => congrArg some (ext_val ?_)⟩
    · rw [← Option.some.inj same, saturatingSub_val]
      omega
    · rw [saturatingSub_val]
      omega
  · exact ⟨(nomatch ·), fun same => absurd (same ▸ Nat.le_add_right _ _) fits⟩

theorem tryFrom_eq_some {value : Nat} {word : Word top} :
    tryFrom value = some word ↔ value = word.val := by
  unfold tryFrom
  split_ifs with fits
  · refine ⟨fun same => congrArg Word.val (Option.some.inj same), fun same => ?_⟩
    exact congrArg some (ext_val same)
  · exact ⟨(nomatch ·), fun same => absurd (same ▸ word.upper) fits⟩

end Word

end Library
