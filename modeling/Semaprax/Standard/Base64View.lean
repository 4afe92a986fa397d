/-
**Base64 of a view** (`std/encoding-base64`, `std/encoding`).

A digit is computed on its own, from an index; a read past the end is zero. A call whose contract
does not hold has no result; contracts that hold whatever the arguments are, as that of `base64_len`,
are left out. The numbers are small, so that `i64` is `Nat` and `Int` here.

* `base64Byte`, `decodeBase64Quad` — the functions.
* `encode` — the encoding by groups of three bytes and an alphabet, with padding.
* `base64_exact` — the digits are the encoding, and the encoding is read back.
-/

import Mathlib

namespace Semaprax.Standard

/-- A result whose contract holds. -/
def meeting {A : Type} (contract : Prop) [Decidable contract] (result : A) : Option A :=
  if contract then some result else none

def base64Len (input : Nat) : Nat := (input + 2) / 3 * 4

def byteAtOrZero (view : List UInt8) (index : Nat) : Nat := (view[index]?.map UInt8.toNat).getD 0

def encodeBase64Digit (value : Nat) : Option Nat :=
  if value ≤ 63 then
    let digit :=
      if value < 26 then 65 + value else if value < 52 then 71 + value
      else if value < 62 then value - 4 else if value = 62 then 43 else 47
    meeting (43 ≤ digit ∧ digit ≤ 122) digit
  else none

def base64Byte (view : List UInt8) (index : Nat) : Option Nat :=
  if index < base64Len view.length then do
    let base := index / 4 * 3
    let slot := index % 4
    let first := byteAtOrZero view base
    let second := byteAtOrZero view (base + 1)
    let third := byteAtOrZero view (base + 2)
    let digit ←
      if slot = 0 then encodeBase64Digit (first / 4)
      else if slot = 1 then encodeBase64Digit (first % 4 * 16 + second / 16)
      else if slot = 2 then
        if base + 1 < view.length then encodeBase64Digit (second % 16 * 4 + third / 64) else some 61
      else if base + 2 < view.length then encodeBase64Digit (third % 64) else some 61
    meeting (43 ≤ digit ∧ digit ≤ 122) digit
  else none

def base64Value (byte : UInt8) : Int :=
  if 65 ≤ byte ∧ byte ≤ 90 then byte.toNat - 65
  else if 97 ≤ byte ∧ byte ≤ 122 then byte.toNat - 71
  else if 48 ≤ byte ∧ byte ≤ 57 then byte.toNat + 4
  else if byte = 43 then 62 else if byte = 47 then 63 else -1

def decodeBase64Quad (first second third fourth : UInt8) : Option Int :=
  let a := base64Value first
  let b := base64Value second
  let c := base64Value third
  let d := base64Value fourth
  let word := if a < 0 ∨ b < 0 ∨ c < 0 ∨ d < 0 then -1 else ((a * 64 + b) * 64 + c) * 64 + d
  meeting (-1 ≤ word ∧ word ≤ 16777215) word

def digitOf (sextet : Nat) : UInt8 :=
  ("ABCDEFGHIJKLMNOPQRSTUVWXYZabcdefghijklmnopqrstuvwxyz0123456789+/".toList.map fun letter =>
    UInt8.ofNat letter.toNat).getD sextet 0

/-- The digits of three bytes. -/
def digits (first second third : UInt8) : List UInt8 :=
  let word := first.toNat * 2 ^ 16 + second.toNat * 2 ^ 8 + third.toNat
  [word / 2 ^ 18, word / 2 ^ 12 % 64, word / 2 ^ 6 % 64, word % 64].map digitOf

def encode : List UInt8 → List UInt8
  | first :: second :: third :: rest => digits first second third ++ encode rest
  | [first, second] => (digits first second 0).take 3 ++ [61]
  | [first] => (digits first 0 0).take 2 ++ [61, 61]
  | [] => []

/-- A digit, and the digit of zero for the padding. -/
def unpadded (digit : UInt8) : UInt8 := if digit = 61 then 65 else digit

/-- The bytes of four digits, with one less for each padding. -/
def quadBytes (quad : List UInt8) (word : Int) : List UInt8 :=
  ([word / 2 ^ 16, word / 2 ^ 8 % 256, word % 256].map fun byte => UInt8.ofNat byte.toNat).take
    (3 - quad.count 61)

def decodeQuads : List UInt8 → Option (List UInt8)
  | first :: second :: third :: fourth :: rest => do
      let rest ← decodeQuads rest
      let word ← decodeBase64Quad (unpadded first) (unpadded second) (unpadded third)
        (unpadded fourth)
      pure (quadBytes [first, second, third, fourth] word ++ rest)
  | _ => some []

theorem encodeBase64Digit_eq {value : Nat} (small : value < 64) :
    encodeBase64Digit value = some (digitOf value).toNat := by
  have all : ∀ value : Fin 64, encodeBase64Digit value = some (digitOf value).toNat := by
    decide +kernel
  exact all ⟨value, small⟩

theorem digitOf_spec {value : Nat} (small : value < 64) : digitOf value ≠ 61 ∧
    base64Value (digitOf value) = value ∧ 43 ≤ (digitOf value).toNat ∧
      (digitOf value).toNat ≤ 122 := by
  have all : ∀ value : Fin 64, digitOf value ≠ 61 ∧ base64Value (digitOf value) = value.val ∧
      43 ≤ (digitOf value).toNat ∧ (digitOf value).toNat ≤ 122 := by
    decide +kernel
  exact all ⟨value, small⟩

theorem digits_eq (first second third : UInt8) : digits first second third =
    [first.toNat / 4, first.toNat % 4 * 16 + second.toNat / 16,
      second.toNat % 16 * 4 + third.toNat / 64, third.toNat % 64].map digitOf := by
  have a := first.toNat_lt
  have b := second.toNat_lt
  have c := third.toNat_lt
  exact congrArg (List.map digitOf) (by simp only [List.cons.injEq, and_true]; omega)

/-- A digit, and the padding, meet the contract. -/
theorem digit_meets {value : Nat} (small : value < 64) : ((encodeBase64Digit value).bind fun digit =>
    meeting (43 ≤ digit ∧ digit ≤ 122) digit) = some (digitOf value).toNat := by
  rw [encodeBase64Digit_eq small]
  exact if_pos (digitOf_spec small).2.2

theorem padding_meets : meeting True 61 = some 61 := rfl

/-- The digits behind the first four are those of the bytes behind the first three. -/
theorem base64Byte_next (first second third : UInt8) (rest : List UInt8) (index : Nat) :
    base64Byte (first :: second :: third :: rest) (index + 4) = base64Byte rest index := by
  have base : (index + 4) / 4 * 3 = index / 4 * 3 + 3 := by omega
  have range : index + 4 < base64Len (rest.length + 3) ↔ index < base64Len rest.length := by
    unfold base64Len
    omega
  have reads : ∀ index, byteAtOrZero (first :: second :: third :: rest) (index + 3) =
      byteAtOrZero rest index := fun _ => rfl
  simp only [base64Byte, base, Nat.add_mod_right, List.length_cons, range, reads,
    Nat.add_right_comm _ 3, Nat.add_lt_add_iff_right]

theorem base64Byte_eq (view : List UInt8) (index : Nat) :
    base64Byte view index = (encode view)[index]?.map UInt8.toNat := by
  fun_induction encode view generalizing index with
  | case1 first second third rest ih =>
    have a := first.toNat_lt
    have b := second.toNat_lt
    have c := third.toNat_lt
    rw [digits_eq]
    rcases index with - | - | - | - | index
    rotate_left 4
    · rw [base64Byte_next, ih]
      rfl
    all_goals
      have range : ∀ slot < 4, slot < base64Len (first :: second :: third :: rest).length := by
        simp only [base64Len, List.length_cons]
        omega
      unfold base64Byte
      rw [if_pos (range _ (by decide))]
      simp [byteAtOrZero]
    · exact digit_meets (by omega)
    · exact digit_meets (by omega)
    · exact digit_meets (by omega)
    · exact digit_meets (by omega)
  | case2 first second =>
    have a := first.toNat_lt
    have b := second.toNat_lt
    rw [digits_eq]
    rcases index with - | - | - | - | index <;> simp [base64Byte, byteAtOrZero, base64Len]
    · exact digit_meets (by omega)
    · exact digit_meets (by omega)
    · exact digit_meets (by omega)
    · exact padding_meets
  | case3 first =>
    have a := first.toNat_lt
    rw [digits_eq]
    rcases index with - | - | - | - | index <;> simp [base64Byte, byteAtOrZero, base64Len]
    · exact digit_meets (by omega)
    · exact digit_meets (by omega)
    · exact padding_meets
    · exact padding_meets
  | case4 => simp [base64Byte, base64Len]

theorem length_encode (view : List UInt8) : (encode view).length = base64Len view.length := by
  fun_induction encode view with
  | case1 first second third rest ih =>
    simp only [List.length_append, ih, digits, base64Len, List.length_map, List.length_cons,
      List.length_nil]
    omega
  | case2 | case3 | case4 => simp [digits, base64Len]

theorem unpadded_digitOf {value : Nat} (small : value < 64) :
    unpadded (digitOf value) = digitOf value := if_neg (digitOf_spec small).1

theorem decodeBase64Quad_digitOf {a b c d : Nat} (one : a < 64) (two : b < 64) (three : c < 64)
    (four : d < 64) : decodeBase64Quad (digitOf a) (digitOf b) (digitOf c) (digitOf d) =
      some ((((a * 64 + b) * 64 + c) * 64 + d : Nat) : Int) := by
  unfold decodeBase64Quad
  rw [(digitOf_spec one).2.1, (digitOf_spec two).2.1, (digitOf_spec three).2.1,
    (digitOf_spec four).2.1]
  dsimp only
  rw [if_neg (by omega)]
  exact if_pos (by omega)

/-- The bytes of a word, of which the padded ones are dropped. -/
theorem quadBytes_eq (quad : List UInt8) (first second third : UInt8) (word : Nat)
    (same : word = first.toNat * 2 ^ 16 + second.toNat * 2 ^ 8 + third.toNat) :
    quadBytes quad word = [first, second, third].take (3 - quad.count 61) := by
  have a := first.toNat_lt
  have b := second.toNat_lt
  have c := third.toNat_lt
  refine congrArg (List.take _) ?_
  have bytes : (word / 2 ^ 16 : Int) = first.toNat ∧ (word / 2 ^ 8 % 256 : Int) = second.toNat ∧
      (word % 256 : Int) = third.toNat := by omega
  simp only [List.map_cons, List.map_nil, bytes, Int.toNat_natCast, UInt8.ofNat_toNat]

theorem decodeQuads_encode (view : List UInt8) : decodeQuads (encode view) = some view := by
  have padding : unpadded 61 = digitOf 0 := by decide
  have zero : (0 : UInt8).toNat = 0 := rfl
  have other : ∀ {value : Nat}, value < 64 → (digitOf value == 61) = false := fun small =>
    beq_false_of_ne (digitOf_spec small).1
  fun_induction encode view with
  | case1 first second third rest ih =>
    have a := first.toNat_lt
    have b := second.toNat_lt
    have c := third.toNat_lt
    rw [digits_eq]
    simp (disch := omega) only [List.map_cons, List.map_nil, List.cons_append, List.nil_append,
      decodeQuads, ih, unpadded_digitOf, decodeBase64Quad_digitOf, Option.bind_eq_bind,
      Option.bind_some]
    rw [quadBytes_eq _ first second third _ (by omega)]
    simp (disch := omega) [List.count_cons, other]
  | case2 first second =>
    have a := first.toNat_lt
    have b := second.toNat_lt
    rw [digits_eq, zero]
    simp (disch := omega) only [List.map_cons, List.map_nil, List.cons_append, List.nil_append,
      List.take_succ_cons, List.take_zero, decodeQuads, padding, unpadded_digitOf,
      decodeBase64Quad_digitOf, Option.bind_eq_bind, Option.bind_some]
    rw [quadBytes_eq _ first second 0 _ (by omega)]
    simp (disch := omega) [List.count_cons, other]
  | case3 first =>
    have a := first.toNat_lt
    rw [digits_eq, zero]
    simp (disch := omega) only [List.map_cons, List.map_nil, List.cons_append, List.nil_append,
      List.take_succ_cons, List.take_zero, decodeQuads, padding, unpadded_digitOf,
      decodeBase64Quad_digitOf, Option.bind_eq_bind, Option.bind_some]
    rw [quadBytes_eq _ first 0 0 _ (by omega)]
    simp (disch := omega) [List.count_cons, other]
  | case4 => rfl

/-- **The digits of a view are its encoding, and the encoding is read back.** -/
theorem base64_exact (view : List UInt8) : (encode view).length = base64Len view.length ∧
    (∀ index, base64Byte view index = (encode view)[index]?.map UInt8.toNat) ∧
      decodeQuads (encode view) = some view :=
  ⟨length_encode view, base64Byte_eq view, decodeQuads_encode view⟩

end Semaprax.Standard
