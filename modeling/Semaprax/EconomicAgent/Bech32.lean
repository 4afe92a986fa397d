/-
**One text with a checksum for each script.**

The checksum is linear in exclusive or, and the first six groups after a state of zero are not folded
back into it. Two texts with the same data in front of the checksum so have the same checksum.

* `polymodStep_xor`, `foldl_polymodStep_xor` — the checksum of a difference.
* `foldl_polymodStep_zero` — six groups are a number in base 32.
* `decodeRegtestP2wpkh_inj` — one text for each script.
* `one_text_per_key` — the same for every key, and what a list of texts admits.
-/

import Semaprax.EconomicAgent.Base58
import Semaprax.EconomicAgent.BitGroups

namespace Semaprax.EconomicAgent

open Library

variable {first second hrp data script text : List UInt8} {bits chk : Nat} {byte : UInt8}
variable {rail : KeyRail}

theorem bit_eq_testBit (top place : Nat) : (top >>> place) &&& 1 ≠ 0 ↔ top.testBit place = true := by
  rw [Nat.testBit, Nat.and_comm, bne_iff_ne]

theorem addGenerators_xor (top top' place : Nat) (generators : List Nat) (chk chk' : Nat) :
    addGenerators (top ^^^ top') place generators (chk ^^^ chk') =
      addGenerators top place generators chk ^^^ addGenerators top' place generators chk' := by
  induction generators generalizing place chk chk' with
  | nil => rfl
  | cons generator generators ih =>
    simp only [addGenerators, bit_eq_testBit, Nat.testBit_xor]
    rw [← ih]
    congr 1
    cases top.testBit place <;> cases top'.testBit place
    · rfl
    · exact Nat.xor_assoc _ _ _
    · show chk ^^^ chk' ^^^ generator = chk ^^^ generator ^^^ chk'
      rw [Nat.xor_assoc, Nat.xor_comm chk', ← Nat.xor_assoc]
    · show chk ^^^ chk' = chk ^^^ generator ^^^ (chk' ^^^ generator)
      rw [Nat.xor_comm chk' generator, Nat.xor_assoc chk, ← Nat.xor_assoc generator generator,
        Nat.xor_self, Nat.zero_xor]

/-- **The checksum is linear** in exclusive or. -/
theorem polymodStep_xor (chk chk' : Nat) (value value' : UInt8) :
    polymodStep (chk ^^^ chk') (value ^^^ value') =
      polymodStep chk value ^^^ polymodStep chk' value' := by
  unfold polymodStep
  rw [← addGenerators_xor, Nat.shiftRight_xor_distrib, Nat.and_xor_distrib_right,
    Nat.shiftLeft_xor_distrib, UInt8.toNat_xor]
  congr 1
  generalize (chk &&& 0x1ffffff) <<< 5 = first
  generalize (chk' &&& 0x1ffffff) <<< 5 = second
  rw [Nat.xor_assoc, ← Nat.xor_assoc second, Nat.xor_comm second, Nat.xor_assoc, Nat.xor_assoc]

theorem foldl_polymodStep_xor (same : first.length = second.length)
    (chk chk' : Nat) : (List.zipWith (· ^^^ ·) first second).foldl polymodStep (chk ^^^ chk') =
      first.foldl polymodStep chk ^^^ second.foldl polymodStep chk' := by
  induction first generalizing second chk chk' with
  | nil =>
    obtain rfl := List.eq_nil_of_length_eq_zero same.symm
    rfl
  | cons value first ih =>
    cases second with
    | nil => exact nomatch same
    | cons value' second =>
      rw [List.zipWith_cons_cons, List.foldl_cons, polymodStep_xor]
      exact ih (Nat.succ.inj same) _ _

theorem addGenerators_zero (place : Nat) (generators : List Nat) (chk : Nat) :
    addGenerators 0 place generators chk = chk := by
  induction generators generalizing place with
  | nil => rfl
  | cons generator generators ih =>
    rw [addGenerators, Nat.zero_shiftRight, if_neg (by simp)]
    exact ih _

theorem shiftLeft_xor_of_lt {high low : Nat} (small : low < 2 ^ bits) :
    (high <<< bits) ^^^ low = high * 2 ^ bits + low := by
  apply Nat.eq_of_testBit_eq
  intro place
  rw [Nat.testBit_xor, Nat.testBit_shiftLeft, Nat.mul_comm, Nat.testBit_two_pow_mul_add _ small]
  split_ifs with inside
  · simp [not_le.mpr inside]
  · have above : low.testBit place = false :=
      Nat.testBit_lt_two_pow (small.trans_le (Nat.pow_le_pow_right (by decide) (not_lt.mp inside)))
    simp [above, not_lt.mp inside]

/-- While nothing is shifted out, one more group is appended. -/
theorem polymodStep_small {value : UInt8} (few : chk < 2 ^ 25)
    (small : value.toNat < 2 ^ 5) : polymodStep chk value = chk * 2 ^ 5 + value.toNat := by
  have out : chk >>> 25 = 0 := shiftRight_eq_zero_iff.mpr few
  have kept : chk &&& 0x1ffffff = chk := by
    rw [show (0x1ffffff : Nat) = 2 ^ 25 - 1 from rfl, Nat.and_two_pow_sub_one_eq_mod,
      Nat.mod_eq_of_lt few]
  rw [polymodStep, out, addGenerators_zero, kept, shiftLeft_xor_of_lt small]

/-- **Six groups are a number in base 32.** -/
theorem foldl_polymodStep_zero {groups : List UInt8} (small : SmallGroups 5 groups)
    (few : groups.length ≤ 6) : groups.foldl polymodStep 0 = groupsValue 5 groups := by
  induction groups using List.reverseRecOn with
  | nil => rfl
  | append_singleton groups last ih =>
    rw [List.length_append, List.length_singleton] at few
    have small' : SmallGroups 5 groups := fun group mem => small group (List.mem_append_left _ mem)
    have below : groupsValue 5 groups < 2 ^ 25 := by
      have digits : ∀ digit ∈ groups.map UInt8.toNat, digit < 2 ^ 5 := by
        intro digit mem
        obtain ⟨group, mem', rfl⟩ := List.mem_map.mp mem
        exact small' group mem'
      refine (horner_lt (by decide) digits).trans_le ?_
      rw [← pow_mul, List.length_map]
      exact Nat.pow_le_pow_right (by decide) (by omega)
    rw [List.foldl_append, ih small' (by omega), groupsValue_append]
    exact polymodStep_small below (small last (List.mem_append_right _ List.mem_cons_self))

theorem xor_eq_zero {first second : UInt8} (zero : first ^^^ second = 0) : first = second :=
  UInt8.xor_eq_zero_iff.mp zero

theorem eq_of_zipWith_xor (same : first.length = second.length)
    (zero : List.zipWith (· ^^^ ·) first second = List.replicate first.length 0) :
    first = second := by
  induction first generalizing second with
  | nil => exact (List.eq_nil_of_length_eq_zero same.symm).symm
  | cons value first ih =>
    cases second with
    | nil => exact nomatch same
    | cons value' second =>
      rw [List.zipWith_cons_cons, List.length_cons, List.replicate_succ] at zero
      obtain ⟨head, tail⟩ := List.cons.inj zero
      rw [xor_eq_zero head, ih (Nat.succ.inj same) tail]

theorem smallGroups_zipWith (small : SmallGroups bits first) (small' : SmallGroups bits second) :
    SmallGroups bits (List.zipWith (· ^^^ ·) first second) := by
  intro group mem
  obtain ⟨value, value', mem', rfl⟩ : ∃ value value', (value, value') ∈ first.zip second ∧
      value ^^^ value' = group := by
    rw [← List.map_uncurry_zip_eq_zipWith] at mem
    obtain ⟨⟨value, value'⟩, mem', same⟩ := List.mem_map.mp mem
    exact ⟨value, value', mem', same⟩
  obtain ⟨left, right⟩ := List.of_mem_zip mem'
  rw [UInt8.toNat_xor]
  exact Nat.xor_lt_two_pow (small value left) (small' value' right)

/-- **The checksum is determined by what is in front of it.** -/
theorem checksum_unique (count : first.length = 6)
    (count' : second.length = 6) (small : SmallGroups 5 first) (small' : SmallGroups 5 second)
    (same : first.foldl polymodStep chk = second.foldl polymodStep chk) : first = second := by
  have lengths := count.trans count'.symm
  have difference := foldl_polymodStep_xor lengths chk chk
  rw [same, Nat.xor_self, Nat.xor_self] at difference
  have length : (List.zipWith (· ^^^ ·) first second).length = first.length := by
    rw [List.length_zipWith, ← lengths, Nat.min_self]
  have smallBoth := smallGroups_zipWith small small'
  rw [foldl_polymodStep_zero smallBoth (by rw [length, count])] at difference
  refine eq_of_zipWith_xor lengths (groupsValue_inj (by decide) ?_ smallBoth ?_ ?_)
  · rw [length, List.length_replicate]
  · intro group mem
    rw [(List.mem_replicate.mp mem).2]
    decide
  · rw [difference, groupsValue, List.map_replicate, UInt8.toNat_zero]
    have zeros := horner_replicate_append (2 ^ 5) first.length []
    rw [List.append_nil] at zeros
    exact zeros.symm

/-- What is accepted as data: a version, the groups of a program, and six groups of a checksum. -/
theorem decodeData_eq_some
    (decoded : decodeData hrp data = some script) : ∃ groups checksum program,
      data = 0 :: groups ++ checksum ∧ checksum.length = 6 ∧
        convertBits groups 5 8 false = some program ∧ script = 0x00 :: 0x14 :: program ∧
          (hrpExpand hrp ++ data).foldl polymodStep 1 = 1 := by
  obtain ⟨_, checked, decoded⟩ := Option.bind_eq_some_iff.mp decoded
  obtain ⟨enough, verified⟩ := (Option.guard_eq_some' _).mp checked
  obtain ⟨_, checked, decoded⟩ := Option.bind_eq_some_iff.mp decoded
  have version := (Option.guard_eq_some' _).mp checked
  obtain ⟨program, converted, decoded⟩ := Option.bind_eq_some_iff.mp decoded
  obtain ⟨_, _, same⟩ := Option.bind_eq_some_iff.mp decoded
  obtain ⟨groups, begins⟩ : ∃ groups, data.take (data.length - 6) = 0 :: groups := by
    cases front : data.take (data.length - 6) with
    | nil => rw [front] at version; exact nomatch version
    | cons first groups =>
      rw [front] at version
      exact ⟨groups, by rw [Option.some.inj version]⟩
  refine ⟨groups, data.drop (data.length - 6), program, ?_, ?_, ?_, (Option.some.inj same).symm, ?_⟩
  · rw [← begins, List.take_append_drop]
  · rw [List.length_drop]
    omega
  · rw [begins] at converted
    exact converted
  · simpa [bech32Verify] using verified

/-- **The data of a script.** -/
theorem decodeData_inj (small : SmallGroups 5 first)
    (small' : SmallGroups 5 second) (decoded : decodeData hrp first = some script)
    (decoded' : decodeData hrp second = some script) : first = second := by
  obtain ⟨groups, checksum, program, rfl, six, converted, script', verified⟩ :=
    decodeData_eq_some decoded
  obtain ⟨groups', checksum', program', rfl, six', converted', script'', verified'⟩ :=
    decodeData_eq_some decoded'
  have same : program = program' :=
    (List.cons.inj (List.cons.inj (script'.symm.trans script'')).2).2
  subst same
  obtain rfl := convertBits_inj converted converted'
  rw [← List.append_assoc, List.foldl_append] at verified verified'
  rw [checksum_unique six six' (fun group mem => small group (List.mem_append_right _ mem))
    (fun group mem => small' group (List.mem_append_right _ mem)) (verified.trans verified'.symm)]

theorem charsetPosition_eq_some {group : UInt8} (read : charsetPosition byte = some group) :
    byte = bech32Charset.getD group.toNat 0 ∧ group.toNat < 2 ^ 5 := by
  obtain ⟨place, found, rfl⟩ := Option.map_eq_some_iff.mp read
  obtain ⟨inside, here, -⟩ := List.findIdx?_eq_some_iff_getElem.mp found
  have count : bech32Charset.length = 32 := by decide +kernel
  have exact' : (UInt8.ofNat place).toNat = place := by
    rw [UInt8.toNat_ofNat', Nat.mod_eq_of_lt (by omega)]
  rw [exact']
  refine ⟨?_, by omega⟩
  rw [List.getD_eq_getElem?_getD, List.getElem?_eq_getElem inside, Option.getD_some]
  exact (of_decide_eq_true here).symm

theorem mapM_charsetPosition (read : text.mapM charsetPosition = some data) :
    text = data.map (fun group => bech32Charset.getD group.toNat 0) ∧ SmallGroups 5 data := by
  induction text generalizing data with
  | nil =>
    obtain rfl := Option.some.inj read
    exact ⟨rfl, List.forall_mem_nil _⟩
  | cons byte text ih =>
    rw [List.mapM_cons] at read
    obtain ⟨group, first, read⟩ := Option.bind_eq_some_iff.mp read
    obtain ⟨groups, rest, same⟩ := Option.bind_eq_some_iff.mp read
    obtain rfl := Option.some.inj same
    obtain ⟨written, small⟩ := charsetPosition_eq_some first
    obtain ⟨writtenRest, smallRest⟩ := ih rest
    refine ⟨?_, List.forall_mem_cons.mpr ⟨small, smallRest⟩⟩
    rw [List.map_cons, ← written, ← writtenRest]

theorem rfind_eq_some {position : Nat} (found : rfind text byte = some position) :
    text = text.take position ++ byte :: text.drop (position + 1) := by
  obtain ⟨back, foundBack, rfl⟩ := Option.map_eq_some_iff.mp found
  obtain ⟨inside, here, -⟩ := List.findIdx?_eq_some_iff_getElem.mp foundBack
  rw [List.length_reverse] at inside
  have there : text[text.length - 1 - back] = byte := by
    rw [List.getElem_reverse] at here
    exact of_decide_eq_true here
  rw [← there, List.getElem_cons_drop, List.take_append_drop]

/-- **One text for each script.** -/
theorem decodeRegtestP2wpkh_inj (decoded : decodeRegtestP2wpkh first = some script)
    (decoded' : decodeRegtestP2wpkh second = some script) : first = second := by
  have facts : ∀ {value : List UInt8}, decodeRegtestP2wpkh value = some script → ∃ data,
      value = ascii "bcrt" ++ 0x31 :: data.map (fun group => bech32Charset.getD group.toNat 0) ∧
        SmallGroups 5 data ∧ decodeData (ascii "bcrt") data = some script := by
    intro value decoded
    obtain ⟨_, _, decoded⟩ := Option.bind_eq_some_iff.mp decoded
    obtain ⟨position, found, decoded⟩ := Option.bind_eq_some_iff.mp decoded
    obtain ⟨_, checked, decoded⟩ := Option.bind_eq_some_iff.mp decoded
    have hrp := (Option.guard_eq_some' _).mp checked
    obtain ⟨data, read, decoded⟩ := Option.bind_eq_some_iff.mp decoded
    obtain ⟨written, small⟩ := mapM_charsetPosition read
    refine ⟨data, ?_, small, hrp ▸ decoded⟩
    rw [← written, ← hrp]
    exact rfind_eq_some found
  obtain ⟨data, rfl, small, accepted⟩ := facts decoded
  obtain ⟨data', rfl, small', accepted'⟩ := facts decoded'
  rw [decodeData_inj small small' accepted accepted']

theorem recipientKey_inj {key : List UInt8} (decoded : recipientKey rail first = some key)
    (decoded' : recipientKey rail second = some key) : first = second := by
  cases rail with
  | solana =>
    exact (decodeBase58_32_eq_some.mp decoded).2.trans
      (decodeBase58_32_eq_some.mp decoded').2.symm
  | bitcoin => exact decodeRegtestP2wpkh_inj decoded decoded'

/-- **A list of texts admits exactly the keys that it lists.** -/
theorem recipientAllowed_iff {recipients : List (List UInt8)}
    (valid : ∀ listed ∈ recipients, validRecipient rail listed = true) (recipient : List UInt8) :
    recipientAllowed recipients recipient = true ↔ ∃ key, recipientKey rail recipient = some key ∧
      ∃ listed ∈ recipients, recipientKey rail listed = some key := by
  rw [recipientAllowed, List.any_eq_true]
  constructor
  · rintro ⟨listed, mem, same⟩
    obtain rfl := of_decide_eq_true same
    obtain ⟨key, decoded⟩ := Option.isSome_iff_exists.mp (valid listed mem)
    exact ⟨key, decoded, listed, mem, decoded⟩
  · rintro ⟨key, decoded, listed, mem, decoded'⟩
    exact ⟨listed, mem, decide_eq_true (recipientKey_inj decoded' decoded)⟩

/-- **One text for each key.** Keys of 32 bytes are read back from the one text that is accepted for
them, no two texts are accepted for one script, bits in other groups are the same bits, and a list
of valid recipients admits exactly the keys that it lists. -/
theorem one_text_per_key (rail : KeyRail) (recipients : List (List UInt8))
    (valid : ∀ listed ∈ recipients, validRecipient rail listed = true) :
    (∀ key : List UInt8, key.length = 32 → decodeBase58_32 (encodeBase58 key) = some key) ∧
    (∀ text key, decodeBase58_32 text = some key → text = encodeBase58 key) ∧
    (∀ first second script, decodeRegtestP2wpkh first = some script →
      decodeRegtestP2wpkh second = some script → first = second) ∧
    (∀ program, ((convertBits program 8 5 true).bind fun groups => convertBits groups 5 8 false) =
      some program) ∧
    (∀ recipient, recipientAllowed recipients recipient = true ↔
      ∃ key, recipientKey rail recipient = some key ∧
        ∃ listed ∈ recipients, recipientKey rail listed = some key) := by
  refine ⟨?_, ?_, ?_, convertBits_back, recipientAllowed_iff valid⟩
  · exact fun key whole => decodeBase58_32_eq_some.mpr ⟨whole, rfl⟩
  · exact fun text key read => (decodeBase58_32_eq_some.mp read).2
  · exact fun first second script decoded decoded' => decodeRegtestP2wpkh_inj decoded decoded'

/-- A list with one recipient on the rail with checksums. -/
theorem one_text_per_key_regtest :
    (∀ key : List UInt8, key.length = 32 → decodeBase58_32 (encodeBase58 key) = some key) ∧
    (∀ text key, decodeBase58_32 text = some key → text = encodeBase58 key) ∧
    (∀ first second script, decodeRegtestP2wpkh first = some script →
      decodeRegtestP2wpkh second = some script → first = second) ∧
    (∀ program, ((convertBits program 8 5 true).bind fun groups => convertBits groups 5 8 false) =
      some program) ∧
    (∀ recipient,
      recipientAllowed [ascii "bcrt1qqqqqqqqqqqqqqqqqqqqqqqqqqqqqqqqqdku202"] recipient = true ↔
        ∃ key, recipientKey .bitcoin recipient = some key ∧
          ∃ listed ∈ [ascii "bcrt1qqqqqqqqqqqqqqqqqqqqqqqqqqqqqqqqqdku202"],
            recipientKey .bitcoin listed = some key) :=
  one_text_per_key .bitcoin [ascii "bcrt1qqqqqqqqqqqqqqqqqqqqqqqqqqqqqqqqqdku202"]
    (by decide +kernel)

end Semaprax.EconomicAgent
