/-
**Numbers in positional notation.**

* `beBytes`, `beValue` — a number in so many bytes, most significant first.
* `beBytes_pad` — the bytes of a number are zeros and any shorter bytes of it.
* `exists_significant` — a number has bytes that do not begin with a zero.
* `findIdx?_pad` — where they begin.
-/

import Semaprax.Library.Bytes

namespace Library

/-- The low bytes of a number, most significant first. -/
def beBytes (width number : Nat) : List UInt8 := (leBytes width number).reverse

/-- The number that bytes write, most significant first. -/
def beValue (bytes : List UInt8) : Nat :=
  bytes.foldl (fun value byte => value * 256 + byte.toNat) 0

theorem beValue_append (bytes : List UInt8) (byte : UInt8) :
    beValue (bytes ++ [byte]) = beValue bytes * 256 + byte.toNat := by
  rw [beValue, List.foldl_append]
  rfl

/-- The same number is written the other way round. -/
theorem beValue_eq (bytes : List UInt8) : beValue bytes = leValue bytes.reverse := by
  induction bytes using List.reverseRecOn with
  | nil => rfl
  | append_singleton bytes byte ih =>
    rw [beValue_append, List.reverse_append, List.reverse_singleton, List.singleton_append, leValue,
      ih]
    omega

theorem beValue_lt (bytes : List UInt8) : beValue bytes < 256 ^ bytes.length := by
  rw [beValue_eq, ← List.length_reverse]
  exact leValue_lt bytes.reverse

theorem beValue_cons (byte : UInt8) (bytes : List UInt8) :
    beValue (byte :: bytes) = byte.toNat * 256 ^ bytes.length + beValue bytes := by
  induction bytes using List.reverseRecOn with
  | nil => simp [beValue]
  | append_singleton bytes last ih =>
    rw [← List.cons_append, beValue_append, beValue_append, ih, List.length_append,
      List.length_singleton, pow_succ]
    ring

theorem beValue_zeros (count : Nat) (bytes : List UInt8) :
    beValue (List.replicate count 0 ++ bytes) = beValue bytes := by
  induction count with
  | zero => rfl
  | succ count ih => rw [List.replicate_succ, List.cons_append, beValue_cons, ih, UInt8.toNat_zero,
      Nat.zero_mul, Nat.zero_add]

@[simp]
theorem length_beBytes (width number : Nat) : (beBytes width number).length = width := by
  rw [beBytes, List.length_reverse, length_leBytes]

theorem beValue_beBytes (width number : Nat) :
    beValue (beBytes width number) = number % 256 ^ width := by
  rw [beValue_eq, beBytes, List.reverse_reverse, leValue_leBytes]

/-- The number of some bytes is written by them. -/
theorem beBytes_beValue (bytes : List UInt8) : beBytes bytes.length (beValue bytes) = bytes := by
  rw [beValue_eq, beBytes, ← List.length_reverse, leBytes_leValue, List.reverse_reverse]

theorem beBytes_pad {width : Nat} {bytes : List UInt8} (room : bytes.length ≤ width) :
    beBytes width (beValue bytes) = List.replicate (width - bytes.length) 0 ++ bytes := by
  have padded : (List.replicate (width - bytes.length) 0 ++ bytes).length = width := by
    rw [List.length_append, List.length_replicate]
    omega
  have written := beBytes_beValue (List.replicate (width - bytes.length) 0 ++ bytes)
  rwa [padded, beValue_zeros] at written

/-- A number has bytes that do not begin with a zero. -/
theorem exists_significant {number width : Nat} (positive : 0 < number)
    (room : number < 256 ^ width) : ∃ (first : UInt8) (rest : List UInt8), first ≠ 0 ∧
      beValue (first :: rest) = number ∧ (first :: rest).length ≤ width := by
  have shorten : ∀ bytes : List UInt8, 0 < beValue bytes → ∃ (first : UInt8) (rest : List UInt8),
      first ≠ 0 ∧ beValue (first :: rest) = beValue bytes ∧
        (first :: rest).length ≤ bytes.length := by
    intro bytes
    induction bytes with
    | nil => exact fun absurd' => absurd absurd' (lt_irrefl 0)
    | cons byte bytes ih =>
      intro some'
      by_cases zero : byte = 0
      · have same : beValue (byte :: bytes) = beValue bytes := by
          rw [beValue_cons, zero, UInt8.toNat_zero, Nat.zero_mul, Nat.zero_add]
        rw [same] at some' ⊢
        obtain ⟨first, rest, nonzero, value, short⟩ := ih some'
        exact ⟨first, rest, nonzero, value, short.trans (Nat.le_succ _)⟩
      · exact ⟨byte, bytes, zero, rfl, le_rfl⟩
  have value : beValue (beBytes width number) = number := by
    rw [beValue_beBytes, Nat.mod_eq_of_lt room]
  obtain ⟨first, rest, nonzero, same, short⟩ := shorten (beBytes width number) (by rwa [value])
  exact ⟨first, rest, nonzero, same.trans value, by rwa [length_beBytes] at short⟩

/-- Where the bytes begin that are not zeros. -/
theorem findIdx?_pad {first : UInt8} {rest : List UInt8} (nonzero : first ≠ 0) (count : Nat) :
    (List.replicate count 0 ++ first :: rest).findIdx? (· ≠ 0) = some count := by
  induction count with
  | zero => simp [List.findIdx?_cons, nonzero]
  | succ count ih =>
    rw [List.replicate_succ, List.cons_append, List.findIdx?_cons, ih]
    simp

end Library
