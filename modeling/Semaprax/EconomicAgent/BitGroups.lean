/-
**Bits in groups of another size.**

The groups that have been written and the bits that have not are the number of the groups that were
taken in. The accumulator drops high bits, which have all been written by then.

* `Grouped` — what has been written of a number, and how many bits have been taken in.
* `emit_grouped`, `feed_grouped`, `foldlM_grouped` — one group out, one group in, and all of them.
* `convertBits_back` — bytes in groups of five bits are the bytes again.
* `convertBits_inj` — groups that have been converted without padding are determined by the result.
-/

import Semaprax.EconomicAgent.Address

namespace Semaprax.EconomicAgent

open Library

/-- The number of some groups. -/
def groupsValue (bits : Nat) (groups : List UInt8) : Nat := horner (2 ^ bits) (groups.map UInt8.toNat)

def SmallGroups (bits : Nat) (groups : List UInt8) : Prop :=
  ∀ group ∈ groups, group.toNat < 2 ^ bits

variable {bits toBits total count fromBits value : Nat} {groups : Groups}
variable {first second data : List UInt8}

theorem groupsValue_append (bits : Nat) (groups : List UInt8) (group : UInt8) :
    groupsValue bits (groups ++ [group]) = groupsValue bits groups * 2 ^ bits + group.toNat := by
  rw [groupsValue, List.map_append]
  exact horner_append _ _ _

theorem SmallGroups.append {groups : List UInt8} {group : UInt8}
    (small : SmallGroups bits groups) (last : group.toNat < 2 ^ bits) :
    SmallGroups bits (groups ++ [group]) := by
  intro one mem
  rcases List.mem_append.mp mem with inside | here
  · exact small one inside
  · exact List.mem_singleton.mp here ▸ last

theorem groupsValue_inj (positive : 0 < bits)
    (same : first.length = second.length) (small : SmallGroups bits first)
    (small' : SmallGroups bits second) (value : groupsValue bits first = groupsValue bits second) :
    first = second := by
  have digits : ∀ groups, SmallGroups bits groups →
      ∀ digit ∈ groups.map UInt8.toNat, digit < 2 ^ bits := by
    intro groups small digit mem
    obtain ⟨group, mem', rfl⟩ := List.mem_map.mp mem
    exact small group mem'
  refine List.map_injective_iff.mpr (fun _ _ => UInt8.toNat_inj.mp) (horner_inj ?_ ?_
    (digits first small) (digits second small') value)
  · exact Nat.one_lt_two_pow positive.ne'
  · rw [List.length_map, List.length_map, same]

/-- The groups are those of the front of a number, and the rest of it is in the low bits. -/
structure Grouped (toBits total count : Nat) (groups : Groups) : Prop where
  value : groupsValue toBits groups.out * 2 ^ groups.bits + groups.acc % 2 ^ groups.bits = total
  length : toBits * groups.out.length + groups.bits = count
  small : SmallGroups toBits groups.out

theorem toNat_masked (upper : bits ≤ 8) (value : Nat) :
    (UInt8.ofNat (value &&& (1 <<< bits - 1))).toNat = value % 2 ^ bits := by
  have power : 2 ^ bits ≤ 2 ^ 8 := Nat.pow_le_pow_right (by decide) upper
  have below := Nat.mod_lt value (Nat.two_pow_pos bits)
  rw [Nat.one_shiftLeft, Nat.and_two_pow_sub_one_eq_mod, UInt8.toNat_ofNat',
    Nat.mod_eq_of_lt (below.trans_le power)]

theorem grouped_emit (upper : toBits ≤ 8)
    (enough : toBits ≤ groups.bits) (grouped : Grouped toBits total count groups) :
    Grouped toBits total count ⟨groups.acc, groups.bits - toBits, groups.out ++
      [UInt8.ofNat ((groups.acc >>> (groups.bits - toBits)) &&& (1 <<< toBits - 1))]⟩ := by
  obtain ⟨value, length, small⟩ := grouped
  obtain ⟨rest, split⟩ := Nat.exists_eq_add_of_le enough
  have left : groups.bits - toBits = rest := by omega
  have masked := toNat_masked upper (groups.acc >>> rest)
  rw [left]
  refine ⟨?_, ?_, small.append ?_⟩
  · have parts := @Nat.mod_mul (2 ^ rest) (2 ^ toBits) groups.acc
    rw [← pow_add, Nat.add_comm rest, ← split] at parts
    rw [groupsValue_append, masked, Nat.shiftRight_eq_div_pow, ← value, parts, split, pow_add]
    ring
  · show toBits * (groups.out ++ [_]).length + rest = count
    rw [List.length_append, List.length_singleton]
    rw [← length, split]
    ring
  · rw [masked]
    exact Nat.mod_lt _ (Nat.two_pow_pos toBits)

/-- **Groups are written until the bits do not suffice.** -/
theorem emit_grouped {fuel : Nat} (positive : 0 < toBits)
    (upper : toBits ≤ 8) (enough : groups.bits ≤ fuel)
    (grouped : Grouped toBits total count groups) :
    Grouped toBits total count (emit toBits fuel groups) ∧
      (emit toBits fuel groups).bits < toBits := by
  induction fuel generalizing groups with
  | zero => exact ⟨grouped, (Nat.le_zero.mp enough).trans_lt positive⟩
  | succ fuel ih =>
    rw [emit]
    split_ifs with more
    · refine ih ?_ (grouped_emit upper more grouped)
      show groups.bits - toBits ≤ fuel
      omega
    · exact ⟨grouped, not_le.mp more⟩

/-- The accumulator holds the bits that have not been written and the new ones. -/
theorem acc_mod {acc : Nat} (room : bits + fromBits ≤ 32) (small : value < 2 ^ fromBits) :
    ((acc <<< fromBits) % 2 ^ 32 ||| value) % 2 ^ (bits + fromBits) =
      acc % 2 ^ bits * 2 ^ fromBits + value := by
  obtain ⟨rest, split⟩ := Nat.exists_eq_add_of_le ((Nat.le_add_left fromBits bits).trans room)
  have dropped : (acc <<< fromBits) % 2 ^ 32 = 2 ^ fromBits * (acc % 2 ^ rest) := by
    rw [Nat.shiftLeft_eq, Nat.mul_comm, split, pow_add, Nat.mul_mod_mul_left]
  have inside : 2 ^ bits ∣ 2 ^ rest := Nat.pow_dvd_pow 2 (by omega)
  rw [dropped, ← Nat.two_pow_add_eq_or_of_lt small, Nat.add_comm bits, pow_add, Nat.mod_mul,
    Nat.mul_add_mod, Nat.mod_eq_of_lt small, Nat.mul_add_div (Nat.two_pow_pos fromBits),
    Nat.div_eq_of_lt small, Nat.add_zero, Nat.mod_mod_of_dvd _ inside]
  ring

theorem shiftRight_eq_zero_iff : value >>> bits = 0 ↔ value < 2 ^ bits := by
  rw [Nat.shiftRight_eq_div_pow, Nat.div_eq_zero_iff]
  exact ⟨fun either => either.resolve_left (Nat.two_pow_pos bits).ne', Or.inr⟩

/-- **One group is taken in.** -/
theorem feed_grouped {value : UInt8}
    (positive : 0 < toBits) (upper : toBits ≤ 8) (room : toBits + fromBits ≤ 32)
    (few : groups.bits < toBits) (small : value.toNat < 2 ^ fromBits)
    (grouped : Grouped toBits total count groups) :
    ∃ next, feed fromBits toBits groups value = some next ∧
      Grouped toBits (total * 2 ^ fromBits + value.toNat) (count + fromBits) next ∧
        next.bits < toBits := by
  have fed : feed fromBits toBits groups value = some (emit toBits (groups.bits + fromBits)
      ⟨(groups.acc <<< fromBits) % 2 ^ 32 ||| value.toNat, groups.bits + fromBits, groups.out⟩) :=
    if_neg (not_not.mpr (shiftRight_eq_zero_iff.mpr small))
  refine ⟨_, fed, emit_grouped positive upper le_rfl ⟨?_, ?_, grouped.small⟩⟩
  · show groupsValue toBits groups.out * 2 ^ (groups.bits + fromBits) + _ % _ = _
    rw [acc_mod (by omega) small, ← grouped.value, pow_add]
    ring
  · show toBits * groups.out.length + (groups.bits + fromBits) = _
    rw [← grouped.length, Nat.add_assoc]

theorem small_of_feed {next : Groups} {value : UInt8}
    (fed : feed fromBits toBits groups value = some next) : value.toNat < 2 ^ fromBits := by
  unfold feed at fed
  split_ifs at fed with large
  exact shiftRight_eq_zero_iff.mp (not_not.mp large)

/-- **All groups are taken in.** -/
theorem foldlM_grouped (positive : 0 < toBits)
    (upper : toBits ≤ 8) (room : toBits + fromBits ≤ 32) (small : SmallGroups fromBits data) :
    ∃ groups, data.foldlM (feed fromBits toBits) ⟨0, 0, []⟩ = some groups ∧
      Grouped toBits (groupsValue fromBits data) (fromBits * data.length) groups ∧
        groups.bits < toBits := by
  induction data using List.reverseRecOn with
  | nil =>
    refine ⟨⟨0, 0, []⟩, rfl, ⟨?_, ?_, List.forall_mem_nil _⟩, positive⟩
    · rfl
    · rfl
  | append_singleton data last ih =>
    obtain ⟨groups, fed, grouped, few⟩ :=
      ih fun group mem => small group (List.mem_append_left _ mem)
    obtain ⟨next, step, grouped', few'⟩ := feed_grouped positive upper room few
      (small last (List.mem_append_right _ List.mem_cons_self)) grouped
    refine ⟨next, ?_, ?_, few'⟩
    · rw [List.foldlM_append, fed]
      show (feed fromBits toBits groups last >>= fun next => pure next) = some next
      rw [step]
      rfl
    · rw [groupsValue_append, List.length_append, List.length_singleton, Nat.mul_succ]
      exact grouped'

theorem small_of_foldlM {final : Groups}
    (fed : data.foldlM (feed fromBits toBits) groups = some final) :
    SmallGroups fromBits data := by
  induction data generalizing groups with
  | nil => exact List.forall_mem_nil _
  | cons value data ih =>
    rw [List.foldlM_cons] at fed
    obtain ⟨next, step, rest⟩ := Option.bind_eq_some_iff.mp fed
    exact List.forall_mem_cons.mpr ⟨small_of_feed step, ih rest⟩

theorem last_eq (upper : toBits ≤ 8) (few : groups.bits < toBits) :
    ((groups.acc <<< (toBits - groups.bits)) % 2 ^ 32) &&& (1 <<< toBits - 1) =
      groups.acc % 2 ^ groups.bits * 2 ^ (toBits - groups.bits) := by
  obtain ⟨gap, split⟩ := Nat.exists_eq_add_of_le few.le
  have left : toBits - groups.bits = gap := by omega
  have inside : 2 ^ toBits ∣ 2 ^ 32 := Nat.pow_dvd_pow 2 (by omega)
  rw [left, Nat.one_shiftLeft, Nat.and_two_pow_sub_one_eq_mod, Nat.mod_mod_of_dvd _ inside,
    Nat.shiftLeft_eq, split, pow_add, Nat.mul_mod_mul_right]

theorem smallGroups_bytes (data : List UInt8) : SmallGroups 8 data := fun group _ => group.toNat_lt

theorem convertBits_pad {fromBits toBits : Nat} {data : List UInt8} (positive : 0 < toBits)
    (upper : toBits ≤ 8) (room : toBits + fromBits ≤ 32) (small : SmallGroups fromBits data) :
    ∃ out gap, convertBits data fromBits toBits true = some out ∧ gap < toBits ∧
      groupsValue toBits out = groupsValue fromBits data * 2 ^ gap ∧
        toBits * out.length = fromBits * data.length + gap ∧ SmallGroups toBits out := by
  obtain ⟨groups, fed, grouped, few⟩ := foldlM_grouped positive upper room small
  have last := last_eq upper few
  have converted : convertBits data fromBits toBits true =
      if 0 < groups.bits then some (groups.out ++
        [UInt8.ofNat (((groups.acc <<< (toBits - groups.bits)) % 2 ^ 32) &&& (1 <<< toBits - 1))])
      else some groups.out := by
    rw [convertBits, fed]
    rfl
  rw [converted]
  split_ifs with left
  · refine ⟨_, toBits - groups.bits, rfl, by omega, ?_, ?_, grouped.small.append ?_⟩
    · have split : 2 ^ toBits = 2 ^ groups.bits * 2 ^ (toBits - groups.bits) := by
        rw [← pow_add, Nat.add_sub_cancel' few.le]
      have masked := toNat_masked upper ((groups.acc <<< (toBits - groups.bits)) % 2 ^ 32)
      have same : (groups.acc <<< (toBits - groups.bits)) % 2 ^ 32 % 2 ^ toBits =
          groups.acc % 2 ^ groups.bits * 2 ^ (toBits - groups.bits) := by
        rw [← last, Nat.one_shiftLeft, Nat.and_two_pow_sub_one_eq_mod]
      rw [groupsValue_append, masked, same, split, ← grouped.value]
      ring
    · rw [List.length_append, List.length_singleton, Nat.mul_succ, ← grouped.length]
      omega
    · rw [toNat_masked upper]
      exact Nat.mod_lt _ (Nat.two_pow_pos toBits)
  · have none' : groups.bits = 0 := Nat.eq_zero_of_not_pos left
    refine ⟨_, 0, rfl, positive, ?_, ?_, grouped.small⟩
    · rw [← grouped.value, none', pow_zero, Nat.mod_one]
      ring
    · rw [← grouped.length, none', Nat.add_zero]

/-- Without padding, the conversion succeeds when fewer bits are left than a group that was taken in
has, and all of them are zero. -/
theorem convertBits_whole {fromBits toBits : Nat} {data : List UInt8} (positive : 0 < toBits)
    (upper : toBits ≤ 8) (room : toBits + fromBits ≤ 32) (small : SmallGroups fromBits data) :
    ∃ groups, Grouped toBits (groupsValue fromBits data) (fromBits * data.length) groups ∧
      groups.bits < toBits ∧ convertBits data fromBits toBits false =
        if fromBits ≤ groups.bits ∨ groups.acc % 2 ^ groups.bits ≠ 0 then none
        else some groups.out := by
  obtain ⟨groups, fed, grouped, few⟩ := foldlM_grouped positive upper room small
  have last := last_eq upper few
  refine ⟨groups, grouped, few, ?_⟩
  have converted : convertBits data fromBits toBits false =
      if fromBits ≤ groups.bits ∨
        ((groups.acc <<< (toBits - groups.bits)) % 2 ^ 32) &&& (1 <<< toBits - 1) ≠ 0 then none
      else some groups.out := by
    rw [convertBits, fed]
    rfl
  have same : groups.acc % 2 ^ groups.bits * 2 ^ (toBits - groups.bits) ≠ 0 ↔
      groups.acc % 2 ^ groups.bits ≠ 0 := by
    rw [Ne, Nat.mul_eq_zero, or_iff_left (Nat.two_pow_pos _).ne']
  rw [converted, last]
  simp only [same]

/-- **Bytes in groups of five bits are the bytes again.** -/
theorem convertBits_back (program : List UInt8) :
    ((convertBits program 8 5 true).bind fun groups => convertBits groups 5 8 false) =
      some program := by
  obtain ⟨out, gap, converted, short, value, length, small⟩ :=
    @convertBits_pad 8 5 program (by decide) (by decide) (by decide) (smallGroups_bytes program)
  obtain ⟨groups, grouped, few, back⟩ :=
    @convertBits_whole 5 8 out (by decide) (by decide) (by decide) small
  have counted := grouped.length
  have gap' : groups.bits = gap := by omega
  have same : groups.out.length = program.length := by omega
  have parts := grouped.value
  rw [value, gap'] at parts
  have rest := Nat.mod_lt groups.acc (Nat.two_pow_pos gap)
  have front : groupsValue 8 groups.out = groupsValue 8 program := by
    have quotient := congrArg (· / 2 ^ gap) parts
    simpa only [Nat.add_comm, Nat.add_mul_div_right _ _ (Nat.two_pow_pos gap),
      Nat.div_eq_of_lt rest, Nat.zero_add, Nat.mul_div_cancel _ (Nat.two_pow_pos gap)] using quotient
  have zero : groups.acc % 2 ^ gap = 0 := by
    rw [front] at parts
    exact Nat.add_eq_left.mp parts
  have bytes : groups.out = program := groupsValue_inj (by decide) same
    (smallGroups_bytes _) (smallGroups_bytes _) front
  rw [converted, Option.bind_some, back, gap', if_neg, bytes]
  rintro (many | nonzero)
  · omega
  · exact nonzero zero

/-- **Groups that have been converted without padding** are determined by the result. -/
theorem convertBits_inj {out : List UInt8} (converted : convertBits first 5 8 false = some out)
    (converted' : convertBits second 5 8 false = some out) : first = second := by
  have facts : ∀ {data : List UInt8}, convertBits data 5 8 false = some out →
      SmallGroups 5 data ∧ ∃ bits < 5, 8 * out.length + bits = 5 * data.length ∧
        groupsValue 8 out * 2 ^ bits = groupsValue 5 data := by
    intro data converted
    have small : SmallGroups 5 data := by
      obtain ⟨groups, fed, -⟩ := Option.bind_eq_some_iff.mp converted
      exact small_of_foldlM fed
    obtain ⟨groups, grouped, _, whole⟩ :=
      @convertBits_whole 5 8 data (by decide) (by decide) (by decide) small
    rw [whole] at converted
    split_ifs at converted with refused
    obtain rfl := Option.some.inj converted
    obtain ⟨few, zero⟩ := not_or.mp refused
    refine ⟨small, groups.bits, not_le.mp few, grouped.length, ?_⟩
    rw [← grouped.value, not_not.mp zero, Nat.add_zero]
  obtain ⟨small, bits, few, length, value⟩ := facts converted
  obtain ⟨small', bits', few', length', value'⟩ := facts converted'
  have same : bits = bits' := by omega
  subst same
  exact groupsValue_inj (by decide) (by omega) small small' (value.symm.trans value')

end Semaprax.EconomicAgent
