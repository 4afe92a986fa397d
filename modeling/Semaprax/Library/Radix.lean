/-
**Arithmetic on lists of digits.**

A number in some base is multiplied and added to digit by digit, least significant first, with a carry
that is either pushed behind the digits or must be zero.

* `mulAdd`, `mulAdd_value` — the pass with its carry.
* `grow`, `grow_digits` — the carry is pushed behind the digits, which stay those of their number.
* `horner` — the number that digits write, most significant first; `horner_inj` — it determines them.
-/

import Mathlib

namespace Library

def mulAdd (base factor : Nat) : List Nat → Nat → List Nat × Nat
  | [], carry => ([], carry)
  | digit :: digits, carry =>
    let value := digit * factor + carry
    let (above, last) := mulAdd base factor digits (value / base)
    (value % base :: above, last)

section Pass

variable {base factor : Nat}

@[simp]
theorem length_mulAdd (digits : List Nat) (carry : Nat) :
    (mulAdd base factor digits carry).1.length = digits.length := by
  induction digits generalizing carry with
  | nil => rfl
  | cons digit digits ih => exact congrArg (· + 1) (ih _)

theorem mulAdd_lt (positive : 0 < base) (digits : List Nat) (carry : Nat) :
    ∀ digit ∈ (mulAdd base factor digits carry).1, digit < base := by
  induction digits generalizing carry with
  | nil => exact List.forall_mem_nil _
  | cons digit digits ih => exact List.forall_mem_cons.mpr ⟨Nat.mod_lt _ positive, ih _⟩

theorem mulAdd_value (digits : List Nat) (carry : Nat) :
    Nat.ofDigits base (mulAdd base factor digits carry).1 +
      base ^ digits.length * (mulAdd base factor digits carry).2 =
        Nat.ofDigits base digits * factor + carry := by
  induction digits generalizing carry with
  | nil => simp [mulAdd]
  | cons digit digits ih =>
    have above := ih ((digit * factor + carry) / base)
    have split := Nat.mod_add_div (digit * factor + carry) base
    rw [mulAdd, Nat.ofDigits_cons, Nat.ofDigits_cons, List.length_cons, pow_succ]
    calc (digit * factor + carry) % base +
          base * Nat.ofDigits base (mulAdd base factor digits _).1 +
          base ^ digits.length * base * (mulAdd base factor digits _).2
        = (digit * factor + carry) % base +
          base * (Nat.ofDigits base (mulAdd base factor digits _).1 +
            base ^ digits.length * (mulAdd base factor digits _).2) := by ring
      _ = (digit * factor + carry) % base + base * ((digit * factor + carry) / base) +
            base * (Nat.ofDigits base digits * factor) := by rw [above]; ring
      _ = (digit + base * Nat.ofDigits base digits) * factor + carry := by rw [split]; ring

theorem mulAdd_carry (positive : 0 < base) (large : base ≤ factor) {digits : List Nat}
    (nonempty : digits ≠ []) (significant : digits.getLast nonempty ≠ 0) (carry : Nat) :
    (mulAdd base factor digits carry).2 ≠ 0 := by
  induction digits generalizing carry with
  | nil => exact absurd rfl nonempty
  | cons digit digits ih =>
    cases digits with
    | nil =>
      have product : factor ≤ digit * factor :=
        Nat.le_mul_of_pos_left _ (Nat.pos_of_ne_zero significant)
      exact (Nat.div_pos (large.trans (product.trans (Nat.le_add_right _ _))) positive).ne'
    | cons next digits => exact ih (List.cons_ne_nil _ _) significant _

end Pass

/-- The carry of a pass is pushed behind the digits, digit by digit until it is zero. -/
def grow (base factor : Nat) (digits : List Nat) (carry : Nat) : List Nat :=
  (mulAdd base factor digits carry).1 ++ base.digits (mulAdd base factor digits carry).2

/-- **The digits of a number stay its digits.** -/
theorem grow_digits {base factor : Nat} (two : 1 < base) (large : base ≤ factor)
    (number carry : Nat) :
    grow base factor (base.digits number) carry = base.digits (number * factor + carry) := by
  have positive : 0 < base := Nat.lt_of_succ_lt two
  have value : Nat.ofDigits base (grow base factor (base.digits number) carry) =
      number * factor + carry := by
    have pass := @mulAdd_value base factor (base.digits number) carry
    rw [Nat.ofDigits_digits] at pass
    rw [grow, Nat.ofDigits_append, Nat.ofDigits_digits, length_mulAdd, pass]
  rw [← value]
  refine (Nat.digits_ofDigits base two _ ?_ ?_).symm
  · intro digit mem
    rcases List.mem_append.mp mem with inside | pushed
    · exact mulAdd_lt positive _ _ digit inside
    · exact Nat.digits_lt_base two pushed
  · intro nonempty
    by_cases out : (mulAdd base factor (base.digits number) carry).2 = 0
    · -- nothing is carried out of a number that has a significant digit
      by_cases zero : number = 0
      · subst zero
        rw [grow, Nat.digits_zero] at nonempty
        rw [Nat.digits_zero] at out
        exact absurd (by rw [out, Nat.digits_zero]; rfl) nonempty
      · exact absurd out (mulAdd_carry positive large (Nat.digits_ne_nil_iff_ne_zero.mpr zero)
          (Nat.getLast_digit_ne_zero base zero) carry)
    · have pushed := (@Nat.digits_ne_nil_iff_ne_zero base _).mpr out
      rw [show (grow base factor (base.digits number) carry).getLast nonempty = _ from
        List.getLast_append_of_ne_nil nonempty pushed]
      exact Nat.getLast_digit_ne_zero base out

/-- The number that digits write, most significant first. -/
def horner (base : Nat) (digits : List Nat) : Nat :=
  digits.foldl (fun value digit => value * base + digit) 0

theorem horner_append (base : Nat) (digits : List Nat) (digit : Nat) :
    horner base (digits ++ [digit]) = horner base digits * base + digit := by
  rw [horner, List.foldl_append]
  rfl

theorem horner_eq (base : Nat) (digits : List Nat) :
    horner base digits = Nat.ofDigits base digits.reverse := by
  induction digits using List.reverseRecOn with
  | nil => rfl
  | append_singleton digits digit ih =>
    rw [horner_append, List.reverse_append, List.reverse_singleton, List.singleton_append,
      Nat.ofDigits_cons, ih]
    ring

theorem horner_replicate_append (base count : Nat) (digits : List Nat) :
    horner base (List.replicate count 0 ++ digits) = horner base digits := by
  rw [horner_eq, horner_eq, List.reverse_append, List.reverse_replicate,
    Nat.ofDigits_append_replicate_zero]

/-- So many digits write at most one number each. -/
theorem horner_inj {base : Nat} {first second : List Nat} (two : 1 < base)
    (same : first.length = second.length) (small : ∀ digit ∈ first, digit < base)
    (small' : ∀ digit ∈ second, digit < base) (value : horner base first = horner base second) :
    first = second := by
  rw [horner_eq, horner_eq] at value
  refine List.reverse_injective (Nat.ofDigits_inj_of_len_eq two ?_ ?_ ?_ value)
  · rw [List.length_reverse, List.length_reverse, same]
  · exact fun digit mem => small digit (List.mem_reverse.mp mem)
  · exact fun digit mem => small' digit (List.mem_reverse.mp mem)

theorem horner_lt {base : Nat} {digits : List Nat} (two : 1 < base)
    (small : ∀ digit ∈ digits, digit < base) : horner base digits < base ^ digits.length := by
  rw [horner_eq, ← List.length_reverse]
  exact Nat.ofDigits_lt_base_pow_length two fun digit mem => small digit (List.mem_reverse.mp mem)

end Library
