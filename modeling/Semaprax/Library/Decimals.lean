/-
**Canonical decimals.**

The decimal digits of a natural number, and the texts that are such digits.

* `Canonical` — digits only, at least one, and no zero before others.
* `toDigits_ofDigitChars` — canonical digits are those of their value, so that there is one canonical
  text for each number (`canonical_toDigits`).
* `utf8Length` — the number of bytes of a text; of digits it is their number.
-/

import Mathlib

namespace Library

/-- Digits, at least one, and no zero before others. -/
structure Canonical (digits : List Char) : Prop where
  nonempty : digits ≠ []
  isDigit : ∀ digit ∈ digits, digit.isDigit
  unpadded : 1 < digits.length → digits.head? ≠ some '0'

def utf8Length (text : List Char) : Nat := (text.map Char.utf8Size).sum

variable {digits : List Char} {digit : Char}

theorem isDigit_bounds (isDigit : digit.isDigit) : 48 ≤ digit.toNat ∧ digit.toNat ≤ 57 := by
  simp only [Char.isDigit, Bool.and_eq_true, decide_eq_true_eq] at isDigit
  exact ⟨UInt32.le_iff_toNat_le.mp isDigit.1, UInt32.le_iff_toNat_le.mp isDigit.2⟩

theorem digitChar_of_isDigit (isDigit : digit.isDigit) :
    Nat.digitChar (digit.toNat - 48) = digit := by
  obtain ⟨low, high⟩ := isDigit_bounds isDigit
  refine Char.toNat_inj.mp ?_
  interval_cases code : digit.toNat <;> rfl

theorem digit_pos (isDigit : digit.isDigit) (other : digit ≠ '0') : 0 < digit.toNat - 48 := by
  obtain ⟨low, -⟩ := isDigit_bounds isDigit
  have nonzero : digit.toNat ≠ 48 := fun same => other (Char.toNat_inj.mp same)
  omega

theorem ofDigitChars_singleton : Nat.ofDigitChars 10 [digit] 0 = digit.toNat - 48 := by
  rw [Nat.ofDigitChars_cons, Nat.ofDigitChars_nil, Nat.mul_zero, Nat.zero_add]
  rfl

theorem Canonical.front (canonical : Canonical (digits ++ [digit])) (nonempty : digits ≠ []) :
    Canonical digits where
  nonempty := nonempty
  isDigit := fun other member => canonical.isDigit other (List.mem_append_left _ member)
  unpadded := fun long => by
    have unpadded := canonical.unpadded (by rw [List.length_append]; omega)
    rwa [List.head?_append_of_ne_nil _ nonempty] at unpadded

theorem Canonical.pos (canonical : Canonical (digits ++ [digit])) (nonempty : digits ≠ []) :
    0 < Nat.ofDigitChars 10 digits 0 := by
  obtain ⟨first, rest, rfl⟩ := List.exists_cons_of_ne_nil nonempty
  have unpadded := canonical.unpadded (by simp)
  have leading := digit_pos (canonical.isDigit first (by simp)) fun same => unpadded (by simp [same])
  rw [Nat.ofDigitChars_cons, Nat.ofDigitChars_eq_ofDigitChars_zero]
  exact Nat.add_pos_left (Nat.mul_pos (Nat.pow_pos (by decide)) (by simpa using leading)) _

/-- **Canonical digits are those of their value.** -/
theorem toDigits_ofDigitChars (canonical : Canonical digits) :
    Nat.toDigits 10 (Nat.ofDigitChars 10 digits 0) = digits := by
  induction digits using List.reverseRecOn with
  | nil => exact absurd rfl canonical.nonempty
  | append_singleton digits digit ih =>
    have isDigit := canonical.isDigit digit (by simp)
    obtain ⟨low, high⟩ := isDigit_bounds isDigit
    have small : digit.toNat - 48 < 10 := by omega
    by_cases empty : digits = []
    · subst empty
      rw [List.nil_append, ofDigitChars_singleton, Nat.toDigits_of_lt_base small,
        digitChar_of_isDigit isDigit]
    · have last : Nat.ofDigitChars 10 (digits ++ [digit]) 0 =
          10 * Nat.ofDigitChars 10 digits 0 + (digit.toNat - 48) := by
        rw [Nat.ofDigitChars_append, Nat.ofDigitChars_cons, Nat.ofDigitChars_nil]
        rfl
      rw [last, ← Nat.toDigits_append_toDigits (by decide) (canonical.pos empty) small,
        ih (canonical.front empty), Nat.toDigits_of_lt_base small, digitChar_of_isDigit isDigit]

theorem head?_toDigits (number : Nat) (long : 1 < (Nat.toDigits 10 number).length) :
    (Nat.toDigits 10 number).head? ≠ some '0' := by
  induction number using Nat.strong_induction_on with
  | _ number ih =>
    by_cases small : number < 10
    · rw [Nat.toDigits_of_lt_base small] at long
      exact absurd long (by simp)
    · rw [Nat.toDigits_of_base_le (by decide) (Nat.le_of_not_lt small),
        List.head?_append_of_ne_nil _ Nat.toDigits_ne_nil]
      by_cases short : number / 10 < 10
      · rw [Nat.toDigits_of_lt_base short]
        have positive : 0 < number / 10 := by omega
        intro same
        have zero := Option.some.inj same
        interval_cases number / 10 <;> exact absurd zero (by decide)
      · refine ih (number / 10) (by omega) ?_
        rw [Nat.toDigits_of_base_le (by decide) (Nat.le_of_not_lt short), List.length_append]
        have := List.length_pos_of_ne_nil
          (Nat.toDigits_ne_nil : Nat.toDigits 10 (number / 10 / 10) ≠ [])
        simp
        omega

theorem canonical_toDigits (number : Nat) : Canonical (Nat.toDigits 10 number) where
  nonempty := Nat.toDigits_ne_nil
  isDigit := fun _ member => Nat.isDigit_of_mem_toDigits (by decide) (by decide) member
  unpadded := head?_toDigits number

theorem utf8Length_append (first second : List Char) :
    utf8Length (first ++ second) = utf8Length first + utf8Length second := by
  unfold utf8Length
  rw [List.map_append, List.sum_append]

theorem utf8Length_cons (first : Char) (rest : List Char) :
    utf8Length (first :: rest) = first.utf8Size + utf8Length rest := rfl

theorem utf8Length_digits (isDigit : ∀ digit ∈ digits, digit.isDigit) :
    utf8Length digits = digits.length := by
  induction digits with
  | nil => rfl
  | cons digit digits ih =>
    have one : digit.utf8Size = 1 := by
      obtain ⟨-, high⟩ := isDigit_bounds (isDigit digit List.mem_cons_self)
      have small : digit.val ≤ 127 := UInt32.le_iff_toNat_le.mpr (by
        show digit.toNat ≤ 127
        omega)
      simp [Char.utf8Size, small]
    rw [utf8Length_cons, one, ih fun other member => isDigit other (List.mem_cons_of_mem _ member),
      List.length_cons, Nat.add_comm]

end Library
