/-
**The UTF-8 validator of the standard library** (`std/data-json-utf8`).

* `offsetAt` — how far a byte lies above a base, found by probing one byte value after another.
* `scalarAt`, `sequenceEnd` — the scalar of the sequence at an index, and where it ends.
* `utf8End`, `isUtf8` — one sequence after another, up to the end or to the first fault.
* `utf8_exact` — they accept exactly the encodings of characters, and a fault is reported where the
  first sequence begins that is none.
-/

import Semaprax.Standard.Views

namespace Semaprax.Standard

/-- The loop of `offset_at`: `probe` is the byte that is tried, and `value` its distance. -/
def probing (input : List UInt8) (index : Nat) (span : Int) (probe : UInt8) (value : Int) : Int :=
  if atIs input index probe then value
  else if value < span ∧ probe < 255 then probing input index span (probe + 1) (value + 1)
  else -1
termination_by 255 - probe.toNat
decreasing_by
  rename_i more
  have below : probe.toNat < 255 := UInt8.lt_iff_toNat_lt.mp more.2
  have next : (probe + 1).toNat = probe.toNat + 1 := by
    rw [UInt8.toNat_add]
    exact Nat.mod_eq_of_lt (by show probe.toNat + 1 < 256; omega)
  omega

def offsetAt (input : List UInt8) (index : Nat) (base : UInt8) (span : Int) : Int :=
  probing input index span base 0

def continuationAt (input : List UInt8) (index : Nat) : Int := offsetAt input index 128 63

def sequenceKind (input : List UInt8) (start : Nat) : Int :=
  if atIn input start 0 127 then 1
  else if atIn input start 194 223 then 2
  else if atIn input start 224 239 then 3
  else if atIn input start 240 244 then 4
  else 0

def isSurrogate (value : Int) : Bool := value ≥ 55296 && value ≤ 57343

def isShortest (kind value : Int) : Bool :=
  if kind = 1 then value ≥ 0 && value ≤ 127
  else if kind = 2 then value ≥ 128 && value ≤ 2047
  else if kind = 3 then value ≥ 2048 && value ≤ 65535 && !isSurrogate value
  else if kind = 4 then value ≥ 65536 && value ≤ 1114111
  else false

def scalarAt (input : List UInt8) (start : Nat) : Int :=
  let kind := sequenceKind input start
  let head :=
    if kind = 1 then offsetAt input start 0 127
    else if kind = 2 then offsetAt input start 194 29
    else if kind = 3 then offsetAt input start 224 15
    else if kind = 4 then offsetAt input start 240 4
    else -1
  let first := if kind ≥ 2 then continuationAt input (start + 1) else 0
  let second := if kind ≥ 3 then continuationAt input (start + 2) else 0
  let third := if kind = 4 then continuationAt input (start + 3) else 0
  let ready := head ≥ 0 ∧ first ≥ 0 ∧ second ≥ 0 ∧ third ≥ 0
  let value :=
    if kind = 1 then head
    else if kind = 2 then head * 64 + first + 128
    else if kind = 3 then head * 4096 + first * 64 + second
    else if kind = 4 then head * 262144 + first * 4096 + second * 64 + third
    else -1
  if ready ∧ isShortest kind value then value else -1

def sequenceEnd (input : List UInt8) (start : Nat) : Nat :=
  let width :=
    if atIn input start 0 127 then 1
    else if scalarAt input start ≥ 0 then sequenceKind input start
    else 0
  if width = 1 then start + 1
  else if width = 2 then start + 2
  else if width = 3 then start + 3
  else if width = 4 then start + 4
  else input.length + 1 + start

theorem lt_sequenceEnd (input : List UInt8) (start : Nat) : start < sequenceEnd input start := by
  unfold sequenceEnd
  dsimp only
  split_ifs <;> omega

/-- The loop of `utf8_end`. -/
def utf8EndFrom (input : List UInt8) (index : Nat) : Nat :=
  if index < input.length then
    if sequenceEnd input index > input.length then input.length + 1 + index
    else utf8EndFrom input (sequenceEnd input index)
  else index
termination_by input.length - index
decreasing_by
  have further := lt_sequenceEnd input index
  omega

def utf8End (input : List UInt8) (start : Nat) : Nat :=
  utf8EndFrom input (if start > input.length then input.length else start)

def isUtf8 (input : List UInt8) : Bool := utf8End input 0 == input.length

/-- The bytes are the encodings of characters. -/
def WellFormed (bytes : List UInt8) : Prop :=
  ∃ text : List Char, bytes = text.flatMap String.utf8EncodeChar

/-- The encoding of a character stands at an index. -/
def Begins (input : List UInt8) (start : Nat) (char : Char) : Prop :=
  String.utf8EncodeChar char <+: input.drop start

variable {input : List UInt8} {index start : Nat} {char : Char}

theorem probing_none {span : Int} (past : input[index]? = none) (probe : UInt8) (value : Int) :
    probing input index span probe value = -1 := by
  have missed (probe : UInt8) : ¬ atIs input index probe = true := by
    rw [atIs_iff, past]
    exact nofun
  induction probe, value using probing.induct input index span with
  | case1 probe value found => exact absurd found (missed probe)
  | case2 probe value _ more ih =>
    rw [probing, if_neg (missed probe), if_pos more]
    exact ih
  | case3 probe value _ done => rw [probing, if_neg (missed probe), if_neg done]

theorem probing_some {span : Int} {byte : UInt8} (present : input[index]? = some byte)
    (probe : UInt8) (value : Int) (inside : value ≤ span) :
    probing input index span probe value =
      if probe.toNat ≤ byte.toNat ∧ value + (byte.toNat - probe.toNat) ≤ span then
        value + (byte.toNat - probe.toNat) else -1 := by
  have bound : byte.toNat < 256 := byte.toNat_lt
  have meets (probe : UInt8) : atIs input index probe = true ↔ byte.toNat = probe.toNat := by
    rw [atIs_iff, present, Option.some_inj, UInt8.toNat_inj]
  induction probe, value using probing.induct input index span with
  | case1 probe value found =>
    have same := (meets probe).mp found
    rw [probing, if_pos found, if_pos (by omega)]
    omega
  | case2 probe value missed more ih =>
    have other := mt (meets probe).mpr missed
    have below : probe.toNat < 255 := UInt8.lt_iff_toNat_lt.mp more.2
    have next : (probe + 1).toNat = probe.toNat + 1 := by
      rw [UInt8.toNat_add]
      exact Nat.mod_eq_of_lt (by show probe.toNat + 1 < 256; omega)
    rw [probing, if_neg missed, if_pos more, ih (by omega), next]
    by_cases reached : probe.toNat ≤ byte.toNat ∧ value + (byte.toNat - probe.toNat) ≤ span
    · rw [if_pos reached, if_pos (by omega)]
      omega
    · rw [if_neg reached, if_neg (by omega)]
  | case3 probe value missed done =>
    have other := mt (meets probe).mpr missed
    rw [UInt8.lt_iff_toNat_lt] at done
    have last : ((255 : UInt8)).toNat = 255 := rfl
    rw [probing, if_neg missed, if_neg (by rw [UInt8.lt_iff_toNat_lt]; exact done),
      if_neg (by omega)]

/-- **The offset of a byte** above the base, if there is one within the span. -/
theorem offsetAt_iff {base : UInt8} {span : Int} {offset : Nat} (wide : 0 ≤ span) :
    offsetAt input index base span = offset ↔
      offset ≤ span ∧ base.toNat + offset < 256 ∧
        input[index]? = some (UInt8.ofNat (base.toNat + offset)) := by
  unfold offsetAt
  cases present : input[index]? with
  | none =>
    rw [probing_none present]
    constructor
    · intro same
      omega
    · rintro ⟨-, -, same⟩
      cases same
  | some byte =>
    have bound : byte.toNat < 256 := byte.toNat_lt
    rw [probing_some present base 0 wide, Option.some_inj, ← UInt8.toNat_inj]
    constructor
    · intro same
      split_ifs at same with reached
      · refine ⟨by omega, by omega, ?_⟩
        rw [UInt8.toNat_ofNat_of_lt' (by show _ < 256; omega)]
        omega
    · rintro ⟨within, fits, same⟩
      rw [UInt8.toNat_ofNat_of_lt' (by show _ < 256; omega)] at same
      rw [if_pos (by omega)]
      omega

theorem exists_of_offsetAt_nonneg {base : UInt8} {span : Int} (wide : 0 ≤ span)
    (found : 0 ≤ offsetAt input index base span) :
    ∃ offset : Nat, offsetAt input index base span = offset ∧ offset ≤ span ∧
      base.toNat + offset < 256 ∧ input[index]? = some (UInt8.ofNat (base.toNat + offset)) := by
  obtain ⟨offset, same⟩ := Int.eq_ofNat_of_zero_le found
  exact ⟨offset, same, (offsetAt_iff wide).mp same⟩

theorem sequenceKind_eq {byte : UInt8} (present : input[start]? = some byte) :
    sequenceKind input start =
      if byte.toNat ≤ 127 then 1
      else if 194 ≤ byte.toNat ∧ byte.toNat ≤ 223 then 2
      else if 224 ≤ byte.toNat ∧ byte.toNat ≤ 239 then 3
      else if 240 ≤ byte.toNat ∧ byte.toNat ≤ 244 then 4
      else 0 := by
  have within (low high : UInt8) : atIn input start low high = true ↔
      low.toNat ≤ byte.toNat ∧ byte.toNat ≤ high.toNat := by
    rw [atIn_iff, present]
    simp
  unfold sequenceKind
  simp only [within, UInt8.toNat_ofNat, Nat.reducePow, Nat.reduceMod, Nat.zero_le, true_and]

theorem sequenceKind_none (past : input[start]? = none) : sequenceKind input start = 0 := by
  unfold sequenceKind atIn
  rw [past]
  rfl

theorem encode_cases (char : Char) :
    (char.val.toNat ≤ 127 ∧ String.utf8EncodeChar char = [UInt8.ofNat char.val.toNat]) ∨
    (128 ≤ char.val.toNat ∧ char.val.toNat ≤ 2047 ∧
      String.utf8EncodeChar char = [UInt8.ofNat (194 + (char.val.toNat / 64 - 2)),
        UInt8.ofNat (128 + char.val.toNat % 64)]) ∨
    (2048 ≤ char.val.toNat ∧ char.val.toNat ≤ 65535 ∧
      ¬ (55296 ≤ char.val.toNat ∧ char.val.toNat ≤ 57343) ∧
      String.utf8EncodeChar char = [UInt8.ofNat (224 + char.val.toNat / 4096),
        UInt8.ofNat (128 + char.val.toNat / 64 % 64), UInt8.ofNat (128 + char.val.toNat % 64)]) ∨
    (65536 ≤ char.val.toNat ∧ char.val.toNat ≤ 1114111 ∧
      String.utf8EncodeChar char = [UInt8.ofNat (240 + char.val.toNat / 262144),
        UInt8.ofNat (128 + char.val.toNat / 4096 % 64), UInt8.ofNat (128 + char.val.toNat / 64 % 64),
        UInt8.ofNat (128 + char.val.toNat % 64)]) := by
  have valid : char.val.toNat < 55296 ∨ 57343 < char.val.toNat ∧ char.val.toNat < 1114112 :=
    char.valid
  unfold String.utf8EncodeChar
  dsimp only
  by_cases one : char.val.toNat ≤ 127
  · exact .inl ⟨one, if_pos one⟩
  · by_cases two : char.val.toNat ≤ 2047
    · refine .inr (.inl ⟨by omega, two, ?_⟩)
      rw [if_neg one, if_pos two, List.cons.injEq, List.cons.injEq]
      refine ⟨congrArg _ ?_, congrArg _ ?_, rfl⟩ <;> omega
    · by_cases three : char.val.toNat ≤ 65535
      · refine .inr (.inr (.inl ⟨by omega, three, by omega, ?_⟩))
        rw [if_neg one, if_neg two, if_pos three, List.cons.injEq, List.cons.injEq, List.cons.injEq]
        refine ⟨congrArg _ ?_, congrArg _ ?_, congrArg _ ?_, rfl⟩ <;> omega
      · refine .inr (.inr (.inr ⟨by omega, by omega, ?_⟩))
        rw [if_neg one, if_neg two, if_neg three]
        simp only [List.cons.injEq, and_true]
        refine ⟨congrArg _ ?_, congrArg _ ?_, congrArg _ ?_, congrArg _ ?_⟩ <;> omega

/-- **The scalar of a character** is found where its encoding stands. -/
theorem scalarAt_begins (begins : Begins input start char) : scalarAt input start = char.val.toNat ∧
      sequenceKind input start = (String.utf8EncodeChar char).length := by
  have stands : String.utf8EncodeChar char <+: input.drop start := begins
  have within (base : UInt8) (span : Int) {offset index : Nat}
      (there : input[index]? = some (UInt8.ofNat (base.toNat + offset))) (close : offset ≤ span)
      (fits : base.toNat + offset < 256) : offsetAt input index base span = offset :=
    (offsetAt_iff (by omega)).mpr ⟨close, fits, there⟩
  have follows {index : Nat} (offset : Nat)
      (there : input[index]? = some (UInt8.ofNat (128 + offset % 64))) :
      continuationAt input index = (offset % 64 : Nat) :=
    within 128 63 there (by omega) (by show 128 + _ < 256; omega)
  obtain ⟨below, bytes⟩ | ⟨above, below, bytes⟩ | ⟨above, below, scalar, bytes⟩ |
    ⟨above, below, bytes⟩ := encode_cases char
  all_goals
    rw [bytes] at stands ⊢
    generalize char.val.toNat = value at *
    simp only [cons_isPrefix_drop, Nat.add_assoc, Nat.reduceAdd] at stands
    have first := stands.1
    have kind := sequenceKind_eq first
    rw [UInt8.toNat_ofNat_of_lt' (by show _ < 256; omega)] at kind
  · rw [if_pos below] at kind
    have head : offsetAt input start 0 127 = value :=
      within 0 127 (by rw [first]; simp) (by omega) (by show 0 + _ < 256; omega)
    refine ⟨?_, kind⟩
    norm_num [scalarAt, kind, isShortest, head]
    omega
  · rw [if_neg (by omega), if_pos (by omega)] at kind
    have head := within 194 29 first (by omega) (by show 194 + _ < 256; omega)
    have second := follows value stands.2.1
    refine ⟨?_, kind⟩
    norm_num [scalarAt, kind, isShortest, head, second]
    omega
  · rw [if_neg (by omega), if_neg (by omega), if_pos (by omega)] at kind
    have head := within 224 15 first (by omega) (by show 224 + _ < 256; omega)
    have second := follows _ stands.2.1
    have third := follows value stands.2.2.1
    refine ⟨?_, kind⟩
    norm_num [scalarAt, kind, isShortest, isSurrogate, head, second, third]
    omega
  · rw [if_neg (by omega), if_neg (by omega), if_neg (by omega), if_pos (by omega)] at kind
    have head := within 240 4 first (by omega) (by show 240 + _ < 256; omega)
    have second := follows _ stands.2.1
    have third := follows _ stands.2.2.1
    have fourth := follows value stands.2.2.2.1
    refine ⟨?_, kind⟩
    norm_num [scalarAt, kind, isShortest, head, second, third, fourth]
    omega

/-- A number in the range of scalars is that of a character. -/
theorem exists_char {value : Nat} (valid : value.isValidChar) :
    ∃ char : Char, char.val.toNat = value :=
  ⟨Char.ofNatAux value valid, rfl⟩

theorem of_guarded_nonneg {guard : Prop} [Decidable guard] {value : Int}
    (found : 0 ≤ if guard then value else -1) : guard := by
  by_contra refused
  rw [if_neg refused] at found
  omega

/-- **Nothing else has a scalar.** -/
theorem exists_begins (found : 0 ≤ scalarAt input start) : ∃ char, Begins input start char := by
  have follows {index : Nat} (there : 0 ≤ continuationAt input index) :
      ∃ offset : Nat, continuationAt input index = offset ∧ offset ≤ 63 ∧
        input[index]? = some (UInt8.ofNat (128 + offset)) := by
    obtain ⟨offset, same, close, -, byte⟩ := exists_of_offsetAt_nonneg (by omega) there
    exact ⟨offset, same, by omega, byte⟩
  cases present : input[start]? with
  | none => norm_num [scalarAt, sequenceKind_none present] at found
  | some byte =>
    have kind := sequenceKind_eq present
    unfold Begins
    split_ifs at kind with one two three four
    · obtain ⟨char, same⟩ := @exists_char byte.toNat (.inl (by omega))
      refine ⟨char, ?_⟩
      obtain ⟨-, bytes⟩ | shape | shape | shape := encode_cases char
      · rw [bytes, same, UInt8.ofNat_toNat, cons_isPrefix_drop]
        exact ⟨present, List.nil_prefix⟩
      all_goals omega
    · norm_num [scalarAt, kind, isShortest] at found
      obtain ⟨⟨nonneg, second⟩, range⟩ := of_guarded_nonneg found
      obtain ⟨head, first, small, -, byte⟩ := exists_of_offsetAt_nonneg (by omega) nonneg
      obtain ⟨offset, second, small', byte'⟩ := follows second
      rw [first, second] at range
      obtain ⟨char, same⟩ := @exists_char (head * 64 + offset + 128) (.inl (by omega))
      refine ⟨char, ?_⟩
      obtain shape | ⟨-, -, bytes⟩ | shape | shape := encode_cases char
      · omega
      · rw [bytes, same, cons_isPrefix_drop, cons_isPrefix_drop, byte', byte]
        refine ⟨@congrArg _ _ (194 + head) _ (some ∘ UInt8.ofNat) ?_,
          congrArg (some ∘ UInt8.ofNat) ?_, List.nil_prefix⟩ <;> omega
      all_goals omega
    · norm_num [scalarAt, kind, isShortest, isSurrogate] at found
      obtain ⟨⟨nonneg, second, third⟩, range, scalar⟩ := of_guarded_nonneg found
      obtain ⟨head, first, small, -, byte⟩ := exists_of_offsetAt_nonneg (by omega) nonneg
      obtain ⟨offset, second, small', byte'⟩ := follows second
      obtain ⟨offset', third, small'', byte''⟩ := follows third
      rw [first, second, third] at range scalar
      obtain ⟨char, same⟩ := @exists_char (head * 4096 + offset * 64 + offset')
        (by show _ < _ ∨ _ < _ ∧ _ < _; omega)
      refine ⟨char, ?_⟩
      obtain shape | shape | ⟨-, -, -, bytes⟩ | shape := encode_cases char
      · omega
      · omega
      · simp only [bytes, same, cons_isPrefix_drop, Nat.add_assoc, Nat.reduceAdd, byte, byte',
          byte'']
        refine ⟨@congrArg _ _ (224 + head) _ (some ∘ UInt8.ofNat) ?_,
          congrArg (some ∘ UInt8.ofNat) ?_, congrArg (some ∘ UInt8.ofNat) ?_,
          List.nil_prefix⟩ <;> omega
      · omega
    · norm_num [scalarAt, kind, isShortest] at found
      obtain ⟨⟨nonneg, second, third, fourth⟩, range⟩ := of_guarded_nonneg found
      obtain ⟨head, first, small, -, byte⟩ := exists_of_offsetAt_nonneg (by omega) nonneg
      obtain ⟨offset, second, small', byte'⟩ := follows second
      obtain ⟨offset', third, small'', byte''⟩ := follows third
      obtain ⟨last, fourth, small''', byte'''⟩ := follows fourth
      rw [first, second, third, fourth] at range
      obtain ⟨char, same⟩ :=
        @exists_char (head * 262144 + offset * 4096 + offset' * 64 + last)
          (.inr (by omega))
      refine ⟨char, ?_⟩
      obtain shape | shape | shape | ⟨-, -, bytes⟩ := encode_cases char
      · omega
      · omega
      · omega
      · simp only [bytes, same, cons_isPrefix_drop, Nat.add_assoc, Nat.reduceAdd, byte, byte',
          byte'', byte''']
        refine ⟨@congrArg _ _ (240 + head) _ (some ∘ UInt8.ofNat) ?_,
          congrArg (some ∘ UInt8.ofNat) ?_, congrArg (some ∘ UInt8.ofNat) ?_,
          congrArg (some ∘ UInt8.ofNat) ?_, List.nil_prefix⟩ <;> omega
    · norm_num [scalarAt, kind] at found

/-- A byte below 128 is a sequence of its own. -/
theorem scalarAt_nonneg_of_ascii (ascii : atIn input start 0 127 = true) :
    0 ≤ scalarAt input start := by
  obtain ⟨byte, present, -, small⟩ := atIn_iff.mp ascii
  have kind : sequenceKind input start = 1 := by rw [sequenceKind, if_pos ascii]
  have small : byte.toNat ≤ 127 := small
  have head : offsetAt input start 0 127 = byte.toNat := by
    refine (offsetAt_iff (by omega)).mpr ⟨by omega, by show 0 + _ < 256; omega, ?_⟩
    rw [present, UInt8.toNat_zero, Nat.zero_add, UInt8.ofNat_toNat]
  norm_num [scalarAt, kind, isShortest, head]
  rw [if_pos (by omega)]
  omega

theorem sequenceEnd_begins (begins : Begins input start char) :
    sequenceEnd input start = start + (String.utf8EncodeChar char).length := by
  obtain ⟨scalar, kind⟩ := scalarAt_begins begins
  have width : (if atIn input start 0 127 then 1
      else if scalarAt input start ≥ 0 then sequenceKind input start else 0) =
      ((String.utf8EncodeChar char).length : Int) := by
    by_cases ascii : atIn input start 0 127 = true
    · rw [if_pos ascii, ← kind, sequenceKind, if_pos ascii]
    · rw [if_neg ascii, scalar, if_pos (Int.natCast_nonneg _), kind]
  have long := char.utf8Size_pos
  have short := char.utf8Size_le_four
  rw [String.length_utf8EncodeChar] at width ⊢
  unfold sequenceEnd
  dsimp only
  rw [width]
  split_ifs <;> omega

theorem sequenceEnd_fault (nothing : ∀ char, ¬ Begins input start char) :
    sequenceEnd input start = input.length + 1 + start := by
  have absent : ¬ scalarAt input start ≥ 0 := fun found =>
    (exists_begins found).elim nothing
  unfold sequenceEnd
  rw [if_neg (mt scalarAt_nonneg_of_ascii absent), if_neg absent]
  norm_num

theorem utf8EndFrom_wellFormed (text : List Char)
    (bytes : input.drop index = text.flatMap String.utf8EncodeChar) (inside : index ≤ input.length) :
    utf8EndFrom input index = input.length := by
  induction text generalizing index with
  | nil =>
    have done : input.length ≤ index := List.drop_eq_nil_iff.mp bytes
    rw [utf8EndFrom, if_neg (by omega)]
    omega
  | cons char text ih =>
    rw [List.flatMap_cons] at bytes
    have begins : Begins input index char := ⟨_, bytes.symm⟩
    have step := sequenceEnd_begins begins
    have length := congrArg List.length bytes
    have long := char.utf8Size_pos
    rw [List.length_drop, List.length_append, String.length_utf8EncodeChar] at length
    rw [String.length_utf8EncodeChar] at step
    rw [utf8EndFrom, if_pos (by omega), if_neg (by omega), step]
    refine ih ?_ (by omega)
    rw [← List.drop_drop, bytes, ← String.length_utf8EncodeChar, List.drop_left]

/-- **A scan** reads the encodings of characters, up to the end or to where none begins. -/
theorem utf8EndFrom_cases (inside : index ≤ input.length) :
    (utf8EndFrom input index = input.length ∧ WellFormed (input.drop index)) ∨
      ∃ fault, utf8EndFrom input index = input.length + 1 + fault ∧ index ≤ fault ∧
        fault < input.length ∧ WellFormed ((input.drop index).take (fault - index)) ∧
        ∀ char, ¬ Begins input fault char := by
  induction index using utf8EndFrom.induct input with
  | case1 index more bad =>
    rw [utf8EndFrom, if_pos more, if_pos bad]
    refine .inr ⟨index, rfl, le_rfl, more, ⟨[], ?_⟩, fun char begins => ?_⟩
    · rw [Nat.sub_self]
      rfl
    · have short := begins.length_le
      rw [sequenceEnd_begins begins] at bad
      rw [List.length_drop] at short
      omega
  | case2 index more good ih =>
    rw [utf8EndFrom, if_pos more, if_neg good]
    obtain ⟨char, begins⟩ : ∃ char, Begins input index char := by
      by_contra nothing
      have fault := sequenceEnd_fault (not_exists.mp nothing)
      omega
    have step := sequenceEnd_begins begins
    obtain ⟨rest, bytes⟩ := begins
    have tail : input.drop (sequenceEnd input index) = rest := by
      rw [step, ← List.drop_drop, ← bytes, List.drop_left]
    obtain ⟨all, text, formed⟩ | ⟨fault, all, after, before, ⟨text, formed⟩, nothing⟩ :=
      ih (by omega)
    · refine .inl ⟨all, char :: text, ?_⟩
      rw [← bytes, ← tail, formed, List.flatMap_cons]
    · refine .inr ⟨fault, all, by omega, before, ⟨char :: text, ?_⟩, nothing⟩
      rw [← bytes, List.flatMap_cons, ← formed, tail, List.take_append,
        List.take_of_length_le (by omega)]
      congr 2
      omega
  | case3 index done =>
    rw [utf8EndFrom, if_neg done]
    refine .inl ⟨by omega, [], ?_⟩
    exact List.drop_eq_nil_of_le (by omega)

/-- **The validator is exact.** A view is accepted exactly if it encodes characters. From a start on,
the end is the length exactly if the bytes from there do; otherwise it tells where the first sequence
begins that encodes none. Where a character is encoded, its scalar and its end are found. -/
theorem utf8_exact (input : List UInt8) : (isUtf8 input = true ↔ WellFormed input) ∧
    (∀ start ≤ input.length, (utf8End input start = input.length ↔ WellFormed (input.drop start)) ∧
      (¬ WellFormed (input.drop start) → ∃ fault,
        utf8End input start = input.length + 1 + fault ∧ start ≤ fault ∧ fault < input.length ∧
        WellFormed ((input.drop start).take (fault - start)) ∧
        ∀ char, ¬ Begins input fault char)) ∧
    ∀ start char, Begins input start char →
      scalarAt input start = char.val.toNat ∧
      sequenceEnd input start = start + (String.utf8EncodeChar char).length := by
  have from_start (start : Nat) (inside : start ≤ input.length) :
      utf8End input start = utf8EndFrom input start := by
    rw [utf8End, if_neg (by omega)]
  have whole (start : Nat) (inside : start ≤ input.length) :
      utf8End input start = input.length ↔ WellFormed (input.drop start) := by
    rw [from_start start inside]
    constructor
    · intro complete
      obtain ⟨-, formed⟩ | ⟨fault, all, -⟩ := utf8EndFrom_cases inside
      · exact formed
      · omega
    · rintro ⟨text, bytes⟩
      exact utf8EndFrom_wellFormed text bytes inside
  refine ⟨?_, fun start inside => ⟨whole start inside, fun broken => ?_⟩, fun start char begins =>
    ⟨(scalarAt_begins begins).1, sequenceEnd_begins begins⟩⟩
  · rw [isUtf8, beq_iff_eq]
    exact whole 0 (Nat.zero_le _)
  · rw [from_start start inside]
    exact (utf8EndFrom_cases inside).resolve_left fun complete => broken complete.2

/-- The euro sign, read from the first of its three bytes on. -/
theorem utf8_exact_euro : utf8End [226, 130, 172] 0 = 3 ∧ scalarAt [226, 130, 172] 0 = 8364 :=
  ⟨((utf8_exact [226, 130, 172]).2.1 0 (by decide)).1.mpr ⟨['€'], by decide⟩,
    ((utf8_exact [226, 130, 172]).2.2 0 '€' ⟨[], by decide⟩).1⟩

end Semaprax.Standard
