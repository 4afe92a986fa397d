/-
**One text in base 58 for each key.**

The characters are the digits of the number that the bytes write, behind a one for each leading zero,
and a text is only accepted when it is the one that is written for its bytes.

* `base58Digits_eq` — the digits are those of the number.
* `Slots`, `decodeStep_char`, `foldlM_decodeStep` — what the slots hold after each character.
* `decodeBase58_32_eq_some` — a text is accepted for a key exactly when it is written for it.
-/

import Semaprax.Library.Positional
import Semaprax.EconomicAgent.Address

namespace Semaprax.EconomicAgent

open Library

variable {digit number : Nat} {output : List Nat} {text : List UInt8}

theorem horner_toNat (bytes : List UInt8) : horner 256 (bytes.map UInt8.toNat) = beValue bytes := by
  rw [horner, List.foldl_map]
  rfl

theorem base58Digits_eq (bytes : List UInt8) :
    base58Digits bytes = Nat.digits 58 (beValue bytes) := by
  induction bytes using List.reverseRecOn with
  | nil => rfl
  | append_singleton bytes byte ih =>
    have step : base58Digits (bytes ++ [byte]) = grow 58 256 (base58Digits bytes) byte.toNat := by
      rw [base58Digits, List.foldl_append]
      rfl
    rw [step, ih, grow_digits (by decide) (by decide), beValue_append]

theorem zeros_append (bytes : List UInt8) : List.replicate (bytes.takeWhile (· = 0)).length 0 ++
      bytes.drop (bytes.takeWhile (· = 0)).length = bytes := by
  have zeros : bytes.takeWhile (· = 0) =
      List.replicate (bytes.takeWhile (· = 0)).length 0 :=
    List.eq_replicate_iff.mpr ⟨rfl, fun byte mem => by simpa using List.mem_takeWhile_imp mem⟩
  have whole := List.takeWhile_append_dropWhile (p := (· = (0 : UInt8))) (l := bytes)
  calc List.replicate (bytes.takeWhile (· = 0)).length 0 ++
        bytes.drop (bytes.takeWhile (· = 0)).length
      = bytes.takeWhile (· = 0) ++ bytes.dropWhile (· = 0) := by
        rw [← zeros]
        congr 1
        nth_rewrite 2 [← whole]
        exact List.drop_left' rfl
    _ = bytes := whole

theorem encodeBase58_eq {bytes : List UInt8} (some' : bytes ≠ []) : ∃ digits : List Nat,
    encodeBase58 bytes = digits.map base58Char ∧ (∀ digit ∈ digits, digit < 58) ∧
      horner 58 digits = beValue bytes ∧ digits ≠ [] := by
  generalize count : (bytes.takeWhile (· = 0)).length = zeros
  have split := zeros_append bytes
  rw [count] at split
  refine ⟨List.replicate zeros 0 ++ (base58Digits (bytes.drop zeros)).reverse, ?_, ?_, ?_, ?_⟩
  · rw [encodeBase58, if_neg some', count, List.map_append, List.map_replicate]
  · intro digit mem
    rcases List.mem_append.mp mem with zero | rest
    · rw [(List.mem_replicate.mp zero).2]
      decide
    · rw [base58Digits_eq] at rest
      exact Nat.digits_lt_base (by decide) (List.mem_reverse.mp rest)
  · rw [horner_replicate_append, horner_eq, List.reverse_reverse, base58Digits_eq,
      Nat.ofDigits_digits]
    nth_rewrite 2 [← split]
    rw [beValue_zeros]
  · intro none'
    obtain ⟨noZeros, noDigits⟩ := List.append_eq_nil_iff.mp none'
    have zero : zeros = 0 := by simpa using congrArg List.length noZeros
    rw [List.reverse_eq_nil_iff, base58Digits_eq, Nat.digits_eq_nil_iff_eq_zero, zero,
      List.drop_zero] at noDigits
    cases bytes with
    | nil => exact some' rfl
    | cons byte bytes =>
      by_cases leading : byte = 0
      · rw [List.takeWhile_cons_of_pos (by simpa using leading), List.length_cons] at count
        omega
      · have positive : 0 < byte.toNat := Nat.pos_of_ne_zero fun same =>
          leading (UInt8.toNat_inj.mp same)
        have power : 0 < 256 ^ bytes.length := Nat.pow_pos (by decide)
        rw [beValue_cons] at noDigits
        have product := Nat.mul_pos positive power
        omega

theorem findIdx?_base58Char (small : digit < 58) :
    base58Alphabet.findIdx? (· = base58Char digit) = some digit := by
  have all : ∀ place : Fin 58,
      base58Alphabet.findIdx? (· = base58Char place.val) = some place.val := by
    decide +kernel
  exact all ⟨digit, small⟩

structure Slots (output : List Nat) (number : Nat) : Prop where
  whole : output.length = 32
  small : ∀ slot ∈ output, slot < 256
  value : horner 256 output = number

theorem decodeStep_char (slots : Slots output number)
    (small : digit < 58) (fits : number * 58 + digit < 256 ^ 32) :
    ∃ next, decodeStep output (base58Char digit) = some next ∧
      Slots next (number * 58 + digit) := by
  have pass := @mulAdd_value 256 58 output.reverse digit
  rw [← horner_eq, slots.value, List.length_reverse, slots.whole] at pass
  have carry : (mulAdd 256 58 output.reverse digit).2 = 0 := by
    by_contra carried
    have large : 256 ^ 32 ≤ 256 ^ 32 * (mulAdd 256 58 output.reverse digit).2 :=
      Nat.le_mul_of_pos_right _ (Nat.pos_of_ne_zero carried)
    omega
  refine ⟨(mulAdd 256 58 output.reverse digit).1.reverse, ?_, ?_, ?_, ?_⟩
  · rw [decodeStep, findIdx?_base58Char small]
    show (if (mulAdd 256 58 output.reverse digit).2 ≠ 0 then none else some _) = _
    rw [if_neg (not_not.mpr carry)]
  · rw [List.length_reverse, length_mulAdd, List.length_reverse, slots.whole]
  · exact fun slot mem => mulAdd_lt (by decide) _ _ slot (List.mem_reverse.mp mem)
  · rw [horner_eq, List.reverse_reverse, ← pass, carry, Nat.mul_zero, Nat.add_zero]

theorem le_foldl (digits : List Nat) (number : Nat) :
    number ≤ digits.foldl (fun value digit => value * 58 + digit) number := by
  induction digits generalizing number with
  | nil => exact le_rfl
  | cons digit digits ih =>
    have step := ih (number * 58 + digit)
    rw [List.foldl_cons]
    omega

theorem foldlM_decodeStep {digits : List Nat}
    (slots : Slots output number) (small : ∀ digit ∈ digits, digit < 58)
    (fits : digits.foldl (fun value digit => value * 58 + digit) number < 256 ^ 32) :
    ∃ final, (digits.map base58Char).foldlM decodeStep output = some final ∧
      Slots final (digits.foldl (fun value digit => value * 58 + digit) number) := by
  induction digits generalizing output number with
  | nil => exact ⟨output, rfl, slots⟩
  | cons digit digits ih =>
    obtain ⟨first, rest⟩ := List.forall_mem_cons.mp small
    obtain ⟨next, step, slots'⟩ :=
      decodeStep_char slots first ((le_foldl digits _).trans_lt fits)
    obtain ⟨final, steps, slots''⟩ := ih slots' rest fits
    refine ⟨final, ?_, slots''⟩
    rw [List.map_cons, List.foldlM_cons, step]
    exact steps

theorem length_decodeStep {next : List Nat} {byte : UInt8}
    (step : decodeStep output byte = some next) : next.length = output.length := by
  obtain ⟨digit, _, step⟩ := Option.bind_eq_some_iff.mp step
  change (if (mulAdd 256 58 output.reverse digit).2 ≠ 0 then none
    else some (mulAdd 256 58 output.reverse digit).1.reverse) = some next at step
  split_ifs at step
  obtain rfl := Option.some.inj step
  rw [List.length_reverse, length_mulAdd, List.length_reverse]

theorem length_foldlM_decodeStep {final : List Nat}
    (steps : text.foldlM decodeStep output = some final) : final.length = output.length := by
  induction text generalizing output with
  | nil => rw [Option.some.inj steps]
  | cons byte text ih =>
    rw [List.foldlM_cons] at steps
    obtain ⟨next, step, rest⟩ := Option.bind_eq_some_iff.mp steps
    rw [ih rest, length_decodeStep step]

/-- **A text is accepted for a key exactly when it is written for it.** -/
theorem decodeBase58_32_eq_some {key : List UInt8} :
    decodeBase58_32 text = some key ↔ key.length = 32 ∧ text = encodeBase58 key := by
  constructor
  · intro read
    unfold decodeBase58_32 at read
    split_ifs at read
    obtain ⟨slots, steps, written⟩ := Option.bind_eq_some_iff.mp read
    change (if encodeBase58 (slots.map UInt8.ofNat) = text then some (slots.map UInt8.ofNat)
      else none) = some key at written
    split_ifs at written with same
    obtain rfl := Option.some.inj written
    refine ⟨?_, same.symm⟩
    rw [List.length_map, length_foldlM_decodeStep steps, List.length_replicate]
  · rintro ⟨whole, rfl⟩
    have some' : key ≠ [] := by
      rintro rfl
      exact absurd whole (by decide)
    obtain ⟨digits, text, small, value, nonempty⟩ := encodeBase58_eq some'
    have empty : Slots (List.replicate 32 0) 0 :=
      ⟨List.length_replicate, fun slot mem => by rw [(List.mem_replicate.mp mem).2]; decide, rfl⟩
    have fits : horner 58 digits < 256 ^ 32 := value ▸ whole ▸ beValue_lt key
    obtain ⟨final, steps, slots⟩ := foldlM_decodeStep empty small fits
    have same : final = key.map UInt8.toNat := by
      refine horner_inj (by decide) ?_ slots.small ?_ ?_
      · rw [slots.whole, List.length_map, whole]
      · intro slot mem
        obtain ⟨byte, _, rfl⟩ := List.mem_map.mp mem
        exact byte.toNat_lt
      · rw [slots.value, horner_toNat, ← value]
        rfl
    have output : final.map UInt8.ofNat = key := by
      rw [same, List.map_map]
      exact (List.map_congr_left fun byte _ => UInt8.ofNat_toNat).trans (List.map_id key)
    rw [decodeBase58_32, text, if_neg (by simpa using nonempty), steps]
    show (if encodeBase58 (final.map UInt8.ofNat) = _ then some (final.map UInt8.ofNat) else none) = _
    rw [output, if_pos text]

end Semaprax.EconomicAgent
