/-
**Base64url without padding** (`authentication/session.rs`: `base64url_encode`, `base64url_decode`).

Three bytes are written as four letters, and one or two bytes at the end as two or three letters,
whose last bits are zero. The decoder refuses other last bits, so that bytes have one spelling.

* `base64urlEncode`, `base64urlDecode` — the two functions.
* `base64urlDecode_encode` — bytes that are written are read back.
* `base64urlEncode_decode` — a text that is read is the one that is written.
-/

import Semaprax.Library.Results

namespace Semaprax.SessionTokens

open Library

inductive AuthError
  | invalidInput | invalidPolicy | invalidCredential | capacity | entropy | storage | expired
  | revoked | conflict
  deriving DecidableEq

def maxTokenBytes : Nat := 768

def alphabet : List UInt8 :=
  "ABCDEFGHIJKLMNOPQRSTUVWXYZabcdefghijklmnopqrstuvwxyz0123456789-_".toList.map fun letter =>
    UInt8.ofNat letter.toNat

def letterOf (bits : Nat) : UInt8 := alphabet.getD bits 0

def base64urlValue (byte : UInt8) : Except AuthError Nat :=
  if 65 ≤ byte ∧ byte ≤ 90 then .ok (byte.toNat - 65)
  else if 97 ≤ byte ∧ byte ≤ 122 then .ok (byte.toNat - 97 + 26)
  else if 48 ≤ byte ∧ byte ≤ 57 then .ok (byte.toNat - 48 + 52)
  else if byte = 45 then .ok 62
  else if byte = 95 then .ok 63
  else .error .invalidCredential

variable {bits high low word number : Nat} {byte : UInt8} {text bytes : List UInt8}

theorem base64urlValue_letterOf (small : bits < 64) :
    base64urlValue (letterOf bits) = .ok bits := by
  have all : ∀ bits : Fin 64, base64urlValue (letterOf bits) = .ok bits.val := by decide +kernel
  exact all ⟨bits, small⟩

theorem letterOf_base64urlValue
    (read : base64urlValue byte = .ok bits) : bits < 64 ∧ letterOf bits = byte := by
  have all : ∀ number : Fin 256, (base64urlValue (UInt8.ofNat number)).toOption.all fun bits =>
      bits < 64 ∧ letterOf bits = UInt8.ofNat number := by
    decide +kernel
  have found := all ⟨byte.toNat, byte.toNat_lt⟩
  have same : UInt8.ofNat byte.toNat = byte := UInt8.ofNat_toNat
  rw [same, read] at found
  exact of_decide_eq_true found

/-- The first byte of a group of letters, its second and its third. -/
def base64urlEncode : List UInt8 → List UInt8
  | [] => []
  | [first] =>
    let word := first.toNat <<< 16
    [letterOf (word >>> 18 &&& 63), letterOf (word >>> 12 &&& 63)]
  | [first, second] =>
    let word := first.toNat <<< 16 ||| second.toNat <<< 8
    [letterOf (word >>> 18 &&& 63), letterOf (word >>> 12 &&& 63), letterOf (word >>> 6 &&& 63)]
  | first :: second :: third :: rest =>
    let word := first.toNat <<< 16 ||| second.toNat <<< 8 ||| third.toNat
    letterOf (word >>> 18 &&& 63) :: letterOf (word >>> 12 &&& 63) ::
      letterOf (word >>> 6 &&& 63) :: letterOf (word &&& 63) :: base64urlEncode rest

/-- Groups of four letters, and one of two or three letters at the end. -/
def decodeGroups : List UInt8 → Except AuthError (List UInt8)
  | [] => .ok []
  | [first] => do
      let _ ← base64urlValue first
      .error .invalidCredential
  | [first, second] => do
      let a ← base64urlValue first
      let b ← base64urlValue second
      if b &&& 15 ≠ 0 then .error .invalidCredential
      else
        let word := a <<< 18 ||| b <<< 12
        .ok [UInt8.ofNat (word >>> 16)]
  | [first, second, third] => do
      let a ← base64urlValue first
      let b ← base64urlValue second
      let c ← base64urlValue third
      if c &&& 3 ≠ 0 then .error .invalidCredential
      else
        let word := a <<< 18 ||| b <<< 12 ||| c <<< 6
        .ok [UInt8.ofNat (word >>> 16), UInt8.ofNat (word >>> 8)]
  | first :: second :: third :: fourth :: rest => do
      let a ← base64urlValue first
      let b ← base64urlValue second
      let c ← base64urlValue third
      let d ← base64urlValue fourth
      let word := a <<< 18 ||| b <<< 12 ||| c <<< 6 ||| d
      let bytes ← decodeGroups rest
      .ok (UInt8.ofNat (word >>> 16) :: UInt8.ofNat (word >>> 8) :: UInt8.ofNat word :: bytes)

def base64urlDecode (input : List UInt8) : Except AuthError (List UInt8) :=
  if input = [] ∨ input.length > maxTokenBytes ∨ input.length % 4 = 1 then
    .error .invalidCredential
  else decodeGroups input

/-- Bits that are put in front of eight others, or of six. -/
theorem before_byte (small : low < 256) : high <<< 8 ||| low = high * 256 + low := by
  rw [← Nat.shiftLeft_add_eq_or_of_lt small, Nat.shiftLeft_eq]

theorem before_sextet (small : low < 64) : high <<< 6 ||| low = high * 64 + low := by
  rw [← Nat.shiftLeft_add_eq_or_of_lt small, Nat.shiftLeft_eq]

theorem word_of_bytes {first second third : Nat} (less : second < 256) (least : third < 256) :
    first <<< 16 ||| second <<< 8 ||| third = (first * 256 + second) * 256 + third := by
  have high : first <<< 16 ||| second <<< 8 = (first * 256 + second) <<< 8 := by
    rw [← before_byte less, Nat.shiftLeft_or_distrib, ← Nat.shiftLeft_add]
  rw [high, before_byte least]

theorem word_of_sextets {a b c d : Nat} (second : b < 64) (third : c < 64) (fourth : d < 64) :
    a <<< 18 ||| b <<< 12 ||| c <<< 6 ||| d = ((a * 64 + b) * 64 + c) * 64 + d := by
  have highest : a <<< 18 ||| b <<< 12 = (a * 64 + b) <<< 12 := by
    rw [← before_sextet second, Nat.shiftLeft_or_distrib, ← Nat.shiftLeft_add]
  have high : (a * 64 + b) <<< 12 ||| c <<< 6 = ((a * 64 + b) * 64 + c) <<< 6 := by
    rw [← before_sextet third, Nat.shiftLeft_or_distrib, ← Nat.shiftLeft_add]
  rw [highest, high, before_sextet fourth]

theorem low_bits (number : Nat) : number &&& 63 = number % 64 := Nat.and_two_pow_sub_one_eq_mod number 6

/-- Three bytes are four times six bits. -/
theorem sextets {first second third : Nat} (small : first < 256) (less : second < 256)
    (least : third < 256) (joined : word = first <<< 16 ||| second <<< 8 ||| third) :
    word >>> 18 &&& 63 = first / 4 ∧ word >>> 12 &&& 63 = first % 4 * 16 + second / 16 ∧
      word >>> 6 &&& 63 = second % 16 * 4 + third / 64 ∧ word &&& 63 = third % 64 := by
  rw [word_of_bytes less least] at joined
  simp only [low_bits, Nat.shiftRight_eq_div_pow]
  omega

theorem ofNat_eq {other : Nat} (same : number % 256 = other % 256) :
    UInt8.ofNat number = UInt8.ofNat other := by
  apply UInt8.toNat_inj.mp
  rw [UInt8.toNat_ofNat', UInt8.toNat_ofNat']
  exact same

/-- Four times six bits are three bytes. -/
theorem octets {a b c d : Nat} (second : b < 64) (third : c < 64)
    (fourth : d < 64) (joined : word = a <<< 18 ||| b <<< 12 ||| c <<< 6 ||| d) :
    UInt8.ofNat (word >>> 16) = UInt8.ofNat (a * 4 + b / 16) ∧
      UInt8.ofNat (word >>> 8) = UInt8.ofNat (b % 16 * 16 + c / 4) ∧
        UInt8.ofNat word = UInt8.ofNat (c % 4 * 64 + d) := by
  rw [word_of_sextets second third fourth] at joined
  refine ⟨ofNat_eq ?_, ofNat_eq ?_, ofNat_eq (by omega)⟩
  · rw [Nat.shiftRight_eq_div_pow]
    omega
  · rw [Nat.shiftRight_eq_div_pow]
    omega

theorem encode_three (first second third : UInt8) (rest : List UInt8) :
    base64urlEncode (first :: second :: third :: rest) =
      letterOf (first.toNat / 4) :: letterOf (first.toNat % 4 * 16 + second.toNat / 16) ::
        letterOf (second.toNat % 16 * 4 + third.toNat / 64) :: letterOf (third.toNat % 64) ::
          base64urlEncode rest := by
  obtain ⟨one, two, three, four⟩ := sextets first.toNat_lt second.toNat_lt third.toNat_lt rfl
  rw [base64urlEncode]
  simp only [one, two, three, four]

theorem encode_two (first second : UInt8) : base64urlEncode [first, second] =
    [letterOf (first.toNat / 4), letterOf (first.toNat % 4 * 16 + second.toNat / 16),
      letterOf (second.toNat % 16 * 4)] := by
  have joined : first.toNat <<< 16 ||| second.toNat <<< 8 =
      first.toNat <<< 16 ||| second.toNat <<< 8 ||| 0 := (Nat.or_zero _).symm
  obtain ⟨one, two, three, -⟩ := sextets first.toNat_lt second.toNat_lt (Nat.zero_lt_succ 255) joined
  rw [base64urlEncode]
  simp only [one, two, three, Nat.zero_div, Nat.add_zero]

theorem encode_one (first : UInt8) : base64urlEncode [first] =
    [letterOf (first.toNat / 4), letterOf (first.toNat % 4 * 16)] := by
  have joined : first.toNat <<< 16 = first.toNat <<< 16 ||| 0 <<< 8 ||| 0 := by simp
  obtain ⟨one, two, -, -⟩ := sextets first.toNat_lt (Nat.zero_lt_succ 255) (Nat.zero_lt_succ 255)
    joined
  rw [base64urlEncode]
  simp only [one, two, Nat.zero_div, Nat.add_zero]

section Letters

variable {first second third fourth : UInt8} {a b c d : Nat}
  (one : base64urlValue first = .ok a) (two : base64urlValue second = .ok b)

include one two

theorem decode_two : decodeGroups [first, second] =
    if b % 16 ≠ 0 then .error .invalidCredential else .ok [UInt8.ofNat (a * 4 + b / 16)] := by
  have low : b &&& 15 = b % 16 := Nat.and_two_pow_sub_one_eq_mod b 4
  have joined : a <<< 18 ||| b <<< 12 = a <<< 18 ||| b <<< 12 ||| 0 <<< 6 ||| 0 := by simp
  obtain ⟨high, -, -⟩ := octets (letterOf_base64urlValue two).1 (Nat.zero_lt_succ 63)
    (Nat.zero_lt_succ 63) joined
  rw [decodeGroups, one, two]
  simp only [bind, Except.bind, low, high]

theorem decode_three (three : base64urlValue third = .ok c) : decodeGroups [first, second, third] =
    if c % 4 ≠ 0 then .error .invalidCredential
    else .ok [UInt8.ofNat (a * 4 + b / 16), UInt8.ofNat (b % 16 * 16 + c / 4)] := by
  have low : c &&& 3 = c % 4 := Nat.and_two_pow_sub_one_eq_mod c 2
  have joined : a <<< 18 ||| b <<< 12 ||| c <<< 6 = a <<< 18 ||| b <<< 12 ||| c <<< 6 ||| 0 := by simp
  obtain ⟨high, middle, -⟩ := octets (letterOf_base64urlValue two).1
    (letterOf_base64urlValue three).1 (Nat.zero_lt_succ 63) joined
  rw [decodeGroups, one, two, three]
  simp only [bind, Except.bind, low, high, middle]

theorem decode_four (three : base64urlValue third = .ok c) (four : base64urlValue fourth = .ok d)
    (rest : List UInt8) : decodeGroups (first :: second :: third :: fourth :: rest) =
      (decodeGroups rest).map fun bytes => UInt8.ofNat (a * 4 + b / 16) ::
        UInt8.ofNat (b % 16 * 16 + c / 4) :: UInt8.ofNat (c % 4 * 64 + d) :: bytes := by
  obtain ⟨high, middle, low⟩ := octets (a := a) (letterOf_base64urlValue two).1
    (letterOf_base64urlValue three).1 (letterOf_base64urlValue four).1 rfl
  rw [decodeGroups, one, two, three, four]
  simp only [bind, Except.bind, high, middle, low]
  cases decodeGroups rest <;> rfl

end Letters

theorem ofNat_bits (byte : UInt8) (same : number = byte.toNat) : UInt8.ofNat number = byte := by
  rw [same, UInt8.ofNat_toNat]

theorem decodeGroups_encode (bytes : List UInt8) : decodeGroups (base64urlEncode bytes) = .ok bytes := by
  induction bytes using base64urlEncode.induct with
  | case1 => rfl
  | case2 first =>
    have small := first.toNat_lt
    rw [encode_one, decode_two (base64urlValue_letterOf (by omega))
      (base64urlValue_letterOf (by omega)), if_neg (by omega), ofNat_bits first (by omega)]
  | case3 first second =>
    have small := first.toNat_lt
    have less := second.toNat_lt
    rw [encode_two, decode_three (base64urlValue_letterOf (by omega))
      (base64urlValue_letterOf (by omega)) (base64urlValue_letterOf (by omega)),
      if_neg (by omega), ofNat_bits first (by omega),
      ofNat_bits second (by omega)]
  | case4 first second third rest ih =>
    have small := first.toNat_lt
    have less := second.toNat_lt
    have least := third.toNat_lt
    rw [encode_three, decode_four (base64urlValue_letterOf (by omega))
      (base64urlValue_letterOf (by omega)) (base64urlValue_letterOf (by omega))
      (base64urlValue_letterOf (by omega)), ih, ofNat_bits first (by omega),
      ofNat_bits second (by omega), ofNat_bits third (by omega)]
    rfl

theorem letterOf_bits (read : base64urlValue byte = .ok bits)
    (same : number = bits) : letterOf number = byte := same ▸ (letterOf_base64urlValue read).2

theorem encode_decodeGroups (read : decodeGroups text = .ok bytes) :
    base64urlEncode bytes = text := by
  induction text using decodeGroups.induct generalizing bytes with
  | case1 =>
    cases read
    rfl
  | case2 first =>
    rw [decodeGroups] at read
    obtain ⟨_, -, refused⟩ := bind_eq_ok.mp read
    cases refused
  | case3 first second =>
    have reads := read
    rw [decodeGroups] at reads
    obtain ⟨a, one, reads⟩ := bind_eq_ok.mp reads
    obtain ⟨b, two, -⟩ := bind_eq_ok.mp reads
    rw [decode_two one two] at read
    split_ifs at read with low
    cases read
    have small := (letterOf_base64urlValue one).1
    have less := (letterOf_base64urlValue two).1
    rw [encode_one, UInt8.toNat_ofNat', letterOf_bits one (by omega),
      letterOf_bits two (by omega)]
  | case4 first second third =>
    have reads := read
    rw [decodeGroups] at reads
    obtain ⟨a, one, reads⟩ := bind_eq_ok.mp reads
    obtain ⟨b, two, reads⟩ := bind_eq_ok.mp reads
    obtain ⟨c, three, -⟩ := bind_eq_ok.mp reads
    rw [decode_three one two three] at read
    split_ifs at read with low
    cases read
    have small := (letterOf_base64urlValue one).1
    have less := (letterOf_base64urlValue two).1
    have least := (letterOf_base64urlValue three).1
    rw [encode_two, UInt8.toNat_ofNat', UInt8.toNat_ofNat', letterOf_bits one (by omega),
      letterOf_bits two (by omega), letterOf_bits three (by omega)]
  | case5 first second third fourth rest ih =>
    have reads := read
    rw [decodeGroups] at reads
    obtain ⟨a, one, reads⟩ := bind_eq_ok.mp reads
    obtain ⟨b, two, reads⟩ := bind_eq_ok.mp reads
    obtain ⟨c, three, reads⟩ := bind_eq_ok.mp reads
    obtain ⟨d, four, -⟩ := bind_eq_ok.mp reads
    rw [decode_four one two three four] at read
    cases later : decodeGroups rest with
    | error wrong =>
      rw [later] at read
      cases read
    | ok others =>
      rw [later] at read
      cases read
      have small := (letterOf_base64urlValue one).1
      have less := (letterOf_base64urlValue two).1
      have least := (letterOf_base64urlValue three).1
      have last := (letterOf_base64urlValue four).1
      rw [encode_three, UInt8.toNat_ofNat', UInt8.toNat_ofNat', UInt8.toNat_ofNat',
        letterOf_bits one (by omega), letterOf_bits two (by omega),
        letterOf_bits three (by omega), letterOf_bits four (by omega), ih later]

theorem length_base64urlEncode (bytes : List UInt8) :
    (base64urlEncode bytes).length = (bytes.length * 4 + 2) / 3 := by
  induction bytes using base64urlEncode.induct with
  | case1 => rfl
  | case2 first =>
    rw [encode_one]
    simp
  | case3 first second =>
    rw [encode_two]
    simp
  | case4 first second third rest ih =>
    rw [encode_three]
    simp only [List.length_cons, ih]
    omega

theorem base64urlDecode_encode (some_bytes : bytes ≠ [])
    (short : (base64urlEncode bytes).length ≤ maxTokenBytes) :
    base64urlDecode (base64urlEncode bytes) = .ok bytes := by
  have length := length_base64urlEncode bytes
  have positive := List.length_pos_iff.mpr some_bytes
  unfold base64urlDecode
  rw [if_neg, decodeGroups_encode]
  rintro (empty | long | odd)
  · rw [empty, List.length_nil] at length
    omega
  · exact absurd short (Nat.not_le.mpr long)
  · omega

theorem base64urlEncode_decode (read : base64urlDecode text = .ok bytes) :
    base64urlEncode bytes = text := by
  unfold base64urlDecode at read
  split_ifs at read
  exact encode_decodeGroups read

theorem dot_not_mem_base64urlEncode (bytes : List UInt8) : (46 : UInt8) ∉ base64urlEncode bytes := by
  have letters : ∀ bits, letterOf bits ≠ 46 := by
    intro bits
    by_cases small : bits < 64
    · intro dot
      have read := base64urlValue_letterOf small
      rw [dot] at read
      cases read
    · unfold letterOf
      rw [List.getD_eq_default _ _ (Nat.not_lt.mp small)]
      decide
  induction bytes using base64urlEncode.induct with
  | case1 => exact List.not_mem_nil
  | case2 first | case3 first second => simp [base64urlEncode, (letters _).symm]
  | case4 first second third rest ih => simp [base64urlEncode, (letters _).symm, ih]

end Semaprax.SessionTokens
