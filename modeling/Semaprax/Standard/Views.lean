/-
**Reading a view of bytes** (`at_is`, `at_in` of the modules of `std`).

* `atIs`, `atIn` — the byte at an index is the expected one, or in a range; past the end it is not.
* `cons_isPrefix_drop` — some bytes stand at an index, read one by one.
-/

import Mathlib

namespace Semaprax.Standard

def atIs (input : List UInt8) (index : Nat) (expected : UInt8) : Bool :=
  input[index]?.any (· == expected)

def atIn (input : List UInt8) (index : Nat) (low high : UInt8) : Bool :=
  input[index]?.any fun byte => low ≤ byte && byte ≤ high

variable {input text : List UInt8} {index start : Nat}

theorem atIs_iff {expected : UInt8} :
    atIs input index expected = true ↔ input[index]? = some expected := by
  unfold atIs
  cases input[index]? with
  | none | some byte => simp

theorem atIn_iff {low high : UInt8} : atIn input index low high = true ↔
      ∃ byte, input[index]? = some byte ∧ low.toNat ≤ byte.toNat ∧ byte.toNat ≤ high.toNat := by
  unfold atIn
  cases input[index]? with
  | none => simp
  | some byte => simp [UInt8.le_iff_toNat_le]

/-- Bytes stand at an index if the first one does, and the others stand behind it. -/
theorem cons_isPrefix_drop {byte : UInt8} : byte :: text <+: input.drop start ↔
      input[start]? = some byte ∧ text <+: input.drop (start + 1) := by
  rw [← List.head?_drop, ← List.tail_drop]
  cases input.drop start with
  | nil => simp
  | cons first rest => simp [List.cons_prefix_cons, eq_comm]

end Semaprax.Standard
