/-
**The headers are exact.**

What is read from the front of some bytes is the header that would be written for the payload behind
it, and a header that was written is read. The sum of a header and its length is not checked, so that
one kind of bytes makes the reader panic.

* `rlpLead` — the header that is written for a payload.
* `Overlong`, `rlpHeader_panics_iff` — the bytes at which the reader panics.
-/

import Semaprax.Library.Results
import Semaprax.EconomicAgent.Rlp

namespace Semaprax.EconomicAgent

open Library

section Checks

variable {A B : Type}

variable {condition : Prop}

theorem refuseIf_eq_ok [Decidable condition] {value : Unit} :
    refuseIf condition = .ok value ↔ ¬condition := by
  unfold refuseIf
  split_ifs with holds <;> simp [holds]

theorem refuseIf_bind [Decidable condition] {rest : Unit → Except Stop A} :
    (refuseIf condition >>= rest) = if condition then .error .refused else rest () := by
  unfold refuseIf
  split_ifs <;> rfl

theorem ok_bind {value : A} {rest : A → Except Stop B} :
    ((.ok value : Except Stop A) >>= rest) = rest value := rfl

theorem add_eq_ok {left right total : Nat} :
    add left right = .ok total ↔ left + right = total ∧ total ≤ maxUsize := by
  unfold add
  split_ifs with fits
  · exact ⟨fun same => by cases same; exact ⟨rfl, fits⟩, fun ⟨same, _⟩ => congrArg _ same⟩
  · exact ⟨(nomatch ·), fun ⟨same, upper⟩ => absurd (same ▸ upper) fits⟩

theorem slice_eq_ok {items part : List A} {start stop : Nat} (order : start ≤ stop)
    (inside : stop ≤ items.length) (same : (items.take stop).drop start = part) :
    slice items start stop = .ok part := by
  rw [slice, if_pos ⟨order, inside⟩, same]

end Checks

/-- The header that is written for a payload. -/
def rlpLead (list : Bool) (payload : List UInt8) : List UInt8 :=
  if list = true then lengthHeader 0xc0 0xf7 payload.length
  else if payload.length = 1 ∧ payload.all (· < 0x80) then []
  else lengthHeader 0x80 0xb7 payload.length

variable {short long number : Nat} {first : UInt8} {more bytes payload : List UInt8} {list : Bool}

theorem rlpBytes_eq (value : List UInt8) : rlpBytes value = rlpLead false value ++ value := by
  unfold rlpBytes rlpLead
  rw [if_neg (by decide : ¬false = true)]
  split_ifs <;> rfl

theorem rlpList_eq (items : List (List UInt8)) :
    rlpList items = rlpLead true items.flatten ++ items.flatten := rfl

theorem lengthHeader_short {length : Nat} (few : length < 56) :
    lengthHeader short long length = [UInt8.ofNat (short + length)] := if_pos few

theorem lengthHeader_long (many : 56 ≤ beValue (first :: more)) (nonzero : first ≠ 0)
    (room : (first :: more).length ≤ 8) :
    lengthHeader short long (beValue (first :: more)) =
      UInt8.ofNat (long + (first :: more).length) :: first :: more := by
  unfold lengthHeader
  rw [if_neg (not_lt.mpr many), beBytes_pad room]
  simp only [findIdx?_pad nonzero, Option.getD_some]
  have count : 8 - (8 - (first :: more).length) = (first :: more).length := by omega
  rw [count, List.drop_left' (List.length_replicate ..)]

theorem foldlM_lengthStep {bytes : List UInt8} {value : Nat}
    (fits : value * 256 ^ bytes.length + beValue bytes ≤ maxUsize) :
    bytes.foldlM lengthStep value = .ok (value * 256 ^ bytes.length + beValue bytes) := by
  induction bytes generalizing value with
  | nil => simp [beValue, pure, Except.pure]
  | cons byte bytes ih =>
    rw [beValue_cons, List.length_cons, pow_succ] at fits
    have split : value * (256 ^ bytes.length * 256) + (byte.toNat * 256 ^ bytes.length +
        beValue bytes) = (value * 256 + byte.toNat) * 256 ^ bytes.length + beValue bytes := by
      ring
    rw [split] at fits
    have positive : 1 ≤ 256 ^ bytes.length := Nat.one_le_pow _ _ (by decide)
    have next : value * 256 + byte.toNat ≤ maxUsize :=
      (Nat.le_mul_of_pos_right _ positive).trans ((Nat.le_add_right _ _).trans fits)
    have step : lengthStep value byte = .ok (value * 256 + byte.toNat) := by
      unfold lengthStep checked
      rw [if_pos ((Nat.le_add_right _ _).trans next)]
      exact if_pos next
    rw [List.foldlM_cons, step, beValue_cons, List.length_cons, pow_succ, split]
    exact ih fits

theorem beValue_le_maxUsize (room : bytes.length ≤ 8) : beValue bytes ≤ maxUsize := by
  have below := beValue_lt bytes
  have power : 256 ^ bytes.length ≤ 256 ^ 8 := Nat.pow_le_pow_right (by decide) room
  have top : (256 : Nat) ^ 8 = maxUsize + 1 := by decide
  omega

theorem rlpLongHeader_eq (list : Bool) (lead first : UInt8) (more rest : List UInt8)
    (room : (first :: more).length ≤ 8) :
    rlpLongHeader list (first :: more).length (lead :: (first :: more ++ rest)) =
      if first = 0 then .error .refused
      else if beValue (first :: more) < 56 then .error .refused
      else if maxUsize < 1 + (first :: more).length + beValue (first :: more) then
        .error (.panicked .overflow)
      else if rest.length < beValue (first :: more) then .error .refused
      else .ok (list, 1 + (first :: more).length, beValue (first :: more)) := by
  have header : add 1 (first :: more).length = .ok (1 + (first :: more).length) :=
    add_eq_ok.mpr ⟨rfl, by
      have top : 9 ≤ maxUsize := by decide
      omega⟩
  have here : index (lead :: (first :: more ++ rest)) 1 = .ok first := rfl
  have length : (lead :: (first :: more ++ rest)).length =
      1 + (first :: more).length + rest.length := by
    rw [List.length_cons, List.length_append]
    omega
  have lengthBytes : slice (lead :: (first :: more ++ rest)) 1 (1 + (first :: more).length) =
      .ok (first :: more) := by
    refine slice_eq_ok (Nat.le_add_right _ _) (by omega) ?_
    rw [Nat.add_comm, List.take_succ_cons, List.drop_succ_cons, List.drop_zero, List.take_left]
  have folded : (first :: more).foldlM lengthStep 0 = .ok (beValue (first :: more)) := by
    have summed := @foldlM_lengthStep (first :: more) 0
    rw [Nat.zero_mul, Nat.zero_add] at summed
    exact summed (beValue_le_maxUsize room)
  unfold rlpLongHeader
  rw [header, ok_bind, refuseIf_bind, if_neg (by omega), here, ok_bind, refuseIf_bind]
  split_ifs with zero small past
  · rfl
  · rw [lengthBytes, ok_bind, folded, ok_bind, refuseIf_bind, if_pos small]
  · rw [lengthBytes, ok_bind, folded, ok_bind, refuseIf_bind, if_neg small]
    unfold add
    rw [if_neg (not_le.mpr past)]
    rfl
  all_goals
    rw [lengthBytes, ok_bind, folded, ok_bind, refuseIf_bind, if_neg small,
      add_eq_ok.mpr ⟨rfl, not_lt.mp past⟩, ok_bind, refuseIf_bind, length]
  · rename_i short
    rw [if_pos (by omega)]
  · rename_i enough
    rw [if_neg (by omega)]
    rfl

theorem toNat_ofNat_small (small : number < 256) : (UInt8.ofNat number).toNat = number := by
  rw [UInt8.toNat_ofNat', Nat.mod_eq_of_lt small]

theorem exists_length (many : 56 ≤ payload.length)
    (fits : payload.length ≤ maxUsize) : ∃ (first : UInt8) (more : List UInt8), first ≠ 0 ∧
      beValue (first :: more) = payload.length ∧ (first :: more).length ≤ 8 := by
  refine exists_significant (by omega) ?_
  have top : (256 : Nat) ^ 8 = maxUsize + 1 := by decide
  omega

theorem rlpHeader_long (list : Bool) (first : UInt8) (more rest : List UInt8)
    (room : (first :: more).length ≤ 8) :
    rlpHeader (UInt8.ofNat ((if list = true then 0xf7 else 0xb7) + (first :: more).length) ::
      (first :: more ++ rest)) = rlpLongHeader list (first :: more).length
        (UInt8.ofNat ((if list = true then 0xf7 else 0xb7) + (first :: more).length) ::
          (first :: more ++ rest)) := by
  have some' : 1 ≤ (first :: more).length := Nat.le_add_left _ _
  generalize (first :: more).length = count at room some' ⊢
  cases list with
  | true =>
    simp only [if_true]
    have lead := toNat_ofNat_small (show 0xf7 + count < 256 by omega)
    rw [rlpHeader, lead, if_neg (by omega), if_neg (by omega), if_neg (by omega),
      if_neg (by omega), Nat.add_sub_cancel_left]
  | false =>
    simp only [Bool.false_eq_true, if_false]
    have lead := toNat_ofNat_small (show 0xb7 + count < 256 by omega)
    rw [rlpHeader, lead, if_neg (by omega), if_neg (by omega), if_pos (by omega),
      Nat.add_sub_cancel_left]

theorem rlpLead_long (list : Bool) (many : 56 ≤ payload.length) (nonzero : first ≠ 0)
    (value : beValue (first :: more) = payload.length) (room : (first :: more).length ≤ 8) :
    rlpLead list payload = UInt8.ofNat ((if list = true then 0xf7 else 0xb7) +
      (first :: more).length) :: first :: more := by
  unfold rlpLead
  rw [← value, lengthHeader_long (value ▸ many) nonzero room,
    lengthHeader_long (value ▸ many) nonzero room, value]
  cases list with
  | true => rfl
  | false => rw [if_neg (by decide), if_neg (by omega), if_neg (by decide)]

theorem rlpShortString_of {rest : List UInt8} {lead : UInt8}
    (high : ¬(payload.length = 1 ∧ payload.all (· < 0x80))) :
    rlpShortString payload.length (lead :: (payload ++ rest)) =
      .ok (false, 1, payload.length) := by
  unfold rlpShortString
  rw [refuseIf_bind, if_neg (by rw [List.length_cons, List.length_append]; omega)]
  by_cases single : payload.length = 1
  · obtain ⟨byte, rfl⟩ := List.length_eq_one_iff.mp single
    have large : ¬byte < 0x80 := fun small => high ⟨rfl, by simpa using small⟩
    rw [if_pos single]
    show (refuseIf (byte < 0x80) >>= fun _ => pure (false, 1, 1)) = _
    rw [refuseIf_bind, if_neg large]
    rfl
  · rw [if_neg single]
    rfl

/-- **A header that was written is read**, whatever follows its payload. -/
theorem rlpHeader_lead (rest : List UInt8)
    (fits : (rlpLead list payload).length + payload.length ≤ maxUsize) :
    rlpHeader (rlpLead list payload ++ payload ++ rest) =
      .ok (list, (rlpLead list payload).length, payload.length) := by
  by_cases many : 56 ≤ payload.length
  · obtain ⟨first, more, nonzero, value, room⟩ := exists_length many (by omega)
    have written := rlpLead_long list many nonzero value room
    have length : (rlpLead list payload).length = 1 + (first :: more).length := by
      rw [written, List.length_cons, Nat.add_comm]
    rw [length] at fits ⊢
    rw [written, List.append_assoc, List.cons_append, rlpHeader_long list first more _ room,
      rlpLongHeader_eq list _ first more _ room, if_neg nonzero, value, if_neg (by omega),
      if_neg (by omega), if_neg (by rw [List.length_append]; omega)]
  · have few : payload.length < 56 := not_le.mp many
    cases list with
    | true =>
      have written : rlpLead true payload = [UInt8.ofNat (0xc0 + payload.length)] :=
        lengthHeader_short few
      have lead := toNat_ofNat_small (show 0xc0 + payload.length < 256 by omega)
      rw [written, List.singleton_append, List.cons_append, rlpHeader, lead, if_neg (by omega),
        if_neg (by omega), if_neg (by omega), if_pos (by omega), Nat.add_sub_cancel_left,
        refuseIf_bind, if_neg (by rw [List.length_cons, List.length_append]; omega)]
      rfl
    | false =>
      by_cases low : payload.length = 1 ∧ payload.all (· < 0x80)
      · obtain ⟨byte, rfl⟩ := List.length_eq_one_iff.mp low.1
        have small : byte < 0x80 := by simpa using low.2
        have written : rlpLead false [byte] = [] := by
          rw [rlpLead, if_neg (by decide), if_pos low]
        have lead : byte.toNat ≤ 0x7f := Nat.lt_succ_iff.mp (UInt8.lt_iff_toNat_lt.mp small)
        rw [written, List.nil_append, List.singleton_append, rlpHeader, if_pos lead]
        rfl
      · have written : rlpLead false payload = [UInt8.ofNat (0x80 + payload.length)] := by
          rw [rlpLead, if_neg (by decide), if_neg low, lengthHeader_short few]
        have lead := toNat_ofNat_small (show 0x80 + payload.length < 256 by omega)
        rw [written, List.singleton_append, List.cons_append, rlpHeader, lead, if_neg (by omega),
          if_pos (by omega), Nat.add_sub_cancel_left]
        exact rlpShortString_of low

/-- A header that announces a payload of which the end cannot be computed. -/
def Overlong (bytes : List UInt8) : Prop :=
  ∃ (lead : UInt8) (lengthBytes rest : List UInt8), bytes = lead :: (lengthBytes ++ rest) ∧
    (lead = 0xbf ∨ lead = 0xff) ∧ lengthBytes.length = 8 ∧ 2 ^ 64 - 9 ≤ beValue lengthBytes

def Headed (list : Bool) (payload rest bytes : List UInt8) : Prop :=
  bytes = rlpLead list payload ++ payload ++ rest ∧
    (rlpLead list payload).length + payload.length ≤ maxUsize

/-- How a header is read: it was written, or it is refused, or the reader panics. -/
inductive Outcome (bytes : List UInt8) : Prop
  | refused (result : rlpHeader bytes = .error .refused)
  | headed (list : Bool) (payload rest : List UInt8) (written : Headed list payload rest bytes)
  | overlong (long : Overlong bytes) (result : rlpHeader bytes = .error (.panicked .overflow))

/-- A number of bytes that goes past the end of memory has eight bytes. -/
theorem overlong_of_past (room : (first :: more).length ≤ 8)
    (past : maxUsize < 1 + (first :: more).length + beValue (first :: more)) :
    (first :: more).length = 8 ∧ 2 ^ 64 - 9 ≤ beValue (first :: more) := by
  have below := beValue_lt (first :: more)
  have top : maxUsize = 2 ^ 64 - 1 := rfl
  have eight : (first :: more).length = 8 := by
    by_contra other
    have power : 256 ^ (first :: more).length ≤ 256 ^ 7 :=
      Nat.pow_le_pow_right (by decide) (by omega)
    omega
  exact ⟨eight, by omega⟩

theorem outcome_long {list : Bool} {bytes : List UInt8} {lead : UInt8} {tail : List UInt8}
    {count : Nat} (some' : 1 ≤ count) (room : count ≤ 8) (split : bytes = lead :: tail)
    (first : lead = UInt8.ofNat ((if list = true then 0xf7 else 0xb7) + count))
    (dispatched : rlpHeader bytes = rlpLongHeader list count bytes) : Outcome bytes := by
  subst split
  by_cases short : tail.length < count
  · refine .refused (dispatched.trans ?_)
    have header : add 1 count = .ok (1 + count) := add_eq_ok.mpr ⟨rfl, by
      have top : 9 ≤ maxUsize := by decide
      omega⟩
    rw [rlpLongHeader, header, ok_bind, refuseIf_bind, if_pos (by rw [List.length_cons]; omega)]
  obtain ⟨byte, more, begins⟩ : ∃ byte more, tail.take count = byte :: more := by
    refine List.exists_cons_of_ne_nil fun none' => ?_
    have length := congrArg List.length none'
    rw [List.length_take, List.length_nil] at length
    omega
  have length : (byte :: more).length = count := by
    rw [← begins, List.length_take]
    omega
  obtain ⟨rest, rfl⟩ : ∃ rest, tail = byte :: more ++ rest :=
    ⟨tail.drop count, by rw [← begins, List.take_append_drop]⟩
  subst length
  rw [rlpLongHeader_eq list lead byte more rest room] at dispatched
  split_ifs at dispatched with zero few past missing
  · exact .refused dispatched
  · exact .refused dispatched
  · obtain ⟨eight, value⟩ := overlong_of_past room past
    refine .overlong ⟨lead, byte :: more, rest, rfl, ?_, eight, value⟩ dispatched
    rw [first, eight]
    cases list with
    | true => exact Or.inr rfl
    | false => exact Or.inl rfl
  · exact .refused dispatched
  · have payload : (rest.take (beValue (byte :: more))).length = beValue (byte :: more) := by
      rw [List.length_take]
      omega
    have many : 56 ≤ (rest.take (beValue (byte :: more))).length := by
      rw [payload]
      exact not_lt.mp few
    have written := rlpLead_long list many zero payload.symm room
    refine .headed list (rest.take (beValue (byte :: more))) (rest.drop (beValue (byte :: more)))
      ⟨?_, ?_⟩
    · rw [written, first, List.append_assoc, List.take_append_drop]
      rfl
    · rw [written, payload, List.length_cons]
      omega

theorem eq_ofNat {byte : UInt8} (same : byte.toNat = number) : byte = UInt8.ofNat number := by
  apply UInt8.toNat_inj.mp
  rw [UInt8.toNat_ofNat', Nat.mod_eq_of_lt (same ▸ byte.toNat_lt), same]

theorem outcome_shortString {lead : UInt8} {tail : List UInt8} {count : Nat} (few : count < 56)
    (first : lead = UInt8.ofNat (0x80 + count))
    (dispatched : rlpHeader (lead :: tail) = rlpShortString count (lead :: tail)) :
    Outcome (lead :: tail) := by
  by_cases short : (lead :: tail).length ≤ count
  · refine .refused (dispatched.trans ?_)
    rw [rlpShortString, refuseIf_bind, if_pos short]
  have payload : (tail.take count).length = count := by
    rw [List.length_cons] at short
    rw [List.length_take]
    omega
  by_cases low : (tail.take count).length = 1 ∧ (tail.take count).all (· < 0x80)
  · refine .refused (dispatched.trans ?_)
    obtain ⟨byte, single⟩ := List.length_eq_one_iff.mp low.1
    have small : byte < 0x80 := by simpa [single] using low.2
    have one : count = 1 := payload.symm.trans low.1
    obtain ⟨rest, rfl⟩ : ∃ rest, tail = byte :: rest :=
      ⟨tail.drop count, by rw [← List.singleton_append, ← single, List.take_append_drop]⟩
    rw [rlpShortString, refuseIf_bind, if_neg short, if_pos one]
    show (refuseIf (byte < 0x80) >>= fun _ => pure (false, 1, count)) = _
    rw [refuseIf_bind, if_pos small]
  · have written : rlpLead false (tail.take count) = [lead] := by
      rw [rlpLead, if_neg (by decide), if_neg low, payload, lengthHeader_short few, first]
    refine .headed false (tail.take count) (tail.drop count) ⟨?_, ?_⟩
    · rw [written, List.singleton_append, List.cons_append, List.take_append_drop]
    · have top : 57 ≤ maxUsize := by decide
      rw [written, payload, List.length_singleton]
      omega

/-- **How a header is read.** -/
theorem rlpHeader_outcome (bytes : List UInt8) : Outcome bytes := by
  cases bytes with
  | nil => exact .refused rfl
  | cons lead tail =>
    have upper := lead.toNat_lt
    by_cases single : lead.toNat ≤ 0x7f
    · have low : [lead].length = 1 ∧ [lead].all (· < 0x80) := by
        refine ⟨rfl, ?_⟩
        simpa [UInt8.lt_iff_toNat_lt] using Nat.lt_succ_of_le single
      have written : rlpLead false [lead] = [] := by
        rw [rlpLead, if_neg (by decide), if_pos low]
      refine .headed false [lead] tail ⟨?_, ?_⟩
      · rw [written]
        rfl
      · rw [written]
        show 1 ≤ maxUsize
        decide
    by_cases string : lead.toNat ≤ 0xb7
    · refine @outcome_shortString lead tail (lead.toNat - 0x80) (by omega)
        (eq_ofNat (by omega)) ?_
      rw [rlpHeader, if_neg single, if_pos string]
    by_cases longString : lead.toNat ≤ 0xbf
    · refine @outcome_long false _ lead tail (lead.toNat - 0xb7) (by omega) (by omega) rfl
        (eq_ofNat ?_) ?_
      · show _ = 0xb7 + (lead.toNat - 0xb7)
        omega
      · rw [rlpHeader, if_neg single, if_neg string, if_pos longString]
    by_cases list : lead.toNat ≤ 0xf7
    · have read : rlpHeader (lead :: tail) =
          (refuseIf ((lead :: tail).length ≤ lead.toNat - 0xc0) >>= fun _ =>
            pure (true, 1, lead.toNat - 0xc0)) := by
        rw [rlpHeader, if_neg single, if_neg string, if_neg longString, if_pos list]
      rw [refuseIf_bind] at read
      split_ifs at read with short
      · exact .refused read
      have payload : (tail.take (lead.toNat - 0xc0)).length = lead.toNat - 0xc0 := by
        rw [List.length_cons] at short
        rw [List.length_take]
        omega
      have written : rlpLead true (tail.take (lead.toNat - 0xc0)) = [lead] := by
        rw [rlpLead, if_pos rfl, payload, lengthHeader_short (by omega)]
        exact congrArg ([·]) (eq_ofNat (by omega)).symm
      refine .headed true (tail.take (lead.toNat - 0xc0)) (tail.drop (lead.toNat - 0xc0)) ⟨?_, ?_⟩
      · rw [written, List.singleton_append, List.cons_append, List.take_append_drop]
      · have top : 57 ≤ maxUsize := by decide
        rw [written, payload, List.length_singleton]
        omega
    · refine @outcome_long true _ lead tail (lead.toNat - 0xf7) (by omega) (by omega) rfl
        (eq_ofNat ?_) ?_
      · show _ = 0xf7 + (lead.toNat - 0xf7)
        omega
      · rw [rlpHeader, if_neg single, if_neg string, if_neg longString, if_neg list]

/-- **The bytes at which the reader panics.** -/
theorem rlpHeader_panics_iff {panic : Panic} :
    rlpHeader bytes = .error (.panicked panic) ↔ panic = .overflow ∧ Overlong bytes := by
  constructor
  · intro panics
    cases rlpHeader_outcome bytes with
    | refused result => exact nomatch panics.symm.trans result
    | headed list payload rest written =>
      rw [written.1, rlpHeader_lead rest written.2] at panics
      exact nomatch panics
    | overlong long result =>
      have same := panics.symm.trans result
      exact ⟨by simpa using same, long⟩
  · rintro ⟨rfl, lead, lengthBytes, rest, rfl, first, eight, value⟩
    obtain ⟨byte, more, rfl⟩ : ∃ byte more, lengthBytes = byte :: more :=
      List.exists_cons_of_ne_nil (by rintro rfl; exact nomatch eight)
    have room : (byte :: more).length ≤ 8 := eight.le
    have top : maxUsize = 2 ^ 64 - 1 := rfl
    have nonzero : byte ≠ 0 := by
      rintro rfl
      have below := beValue_lt more
      have seven : more.length = 7 := Nat.succ.inj eight
      rw [beValue_cons, UInt8.toNat_zero, Nat.zero_mul, Nat.zero_add] at value
      rw [seven] at below
      omega
    have evaluated : ∀ list : Bool,
        lead = UInt8.ofNat ((if list = true then 0xf7 else 0xb7) + (byte :: more).length) →
          rlpHeader (lead :: (byte :: more ++ rest)) = .error (.panicked .overflow) := by
      rintro list rfl
      rw [rlpHeader_long list byte more rest room, rlpLongHeader_eq list _ byte more rest room,
        if_neg nonzero, if_neg (by omega), if_pos (by omega)]
    rcases first with rfl | rfl
    · exact evaluated false (by rw [eight]; rfl)
    · exact evaluated true (by rw [eight]; rfl)

end Semaprax.EconomicAgent
