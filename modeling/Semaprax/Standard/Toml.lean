/-
**The TOML line scanners of the standard library** (`std/data-toml`).

* `keyEnd` — where a key ends: here escapes are read.
* `assignmentIndex`, `valueStart`, `valueEnd` — where a line is split: here quotes only toggle.
* `Line` — a line in its parts.
* `line_split_iff` — a line is split where its parts meet exactly if toggling over the key and over the
  value loses no quoted span; an escaped quote can make it.
-/

import Semaprax.Standard.Views

namespace Semaprax.Standard

def isBareByte (byte : UInt8) : Bool :=
  65 ≤ byte && byte ≤ 90 || 97 ≤ byte && byte ≤ 122 || 48 ≤ byte && byte ≤ 57 || byte == 45 ||
    byte == 95

def isBareKey (value : List UInt8) : Bool := !value.isEmpty && value.all isBareByte

/-- A result beyond the record, which no scanner returns otherwise. -/
def scanFailure (record : List UInt8) (offset : Nat) : Nat := record.length + 1 + offset

def isHexByte (byte : UInt8) : Bool :=
  48 ≤ byte && byte ≤ 57 || 97 ≤ byte && byte ≤ 102 || 65 ≤ byte && byte ≤ 70

def hexRunEnd (record : List UInt8) (start count : Nat) : Nat :=
  if (List.range count).all fun offset => record[start + offset]?.any isHexByte then start + count
  else scanFailure record start

def basicEscapeEnd (record : List UInt8) (start : Nat) : Nat :=
  let marker := record[start + 1]?.getD 0
  if marker ∈ [98, 116, 110, 102, 114, 34, 92] then start + 2
  else if marker = 117 then hexRunEnd record (start + 2) 4
  else if marker = 85 then hexRunEnd record (start + 2) 8
  else scanFailure record start

theorem lt_basicEscapeEnd (record : List UInt8) (start : Nat) :
    start < basicEscapeEnd record start := by
  unfold basicEscapeEnd hexRunEnd scanFailure
  dsimp only
  split_ifs <;> omega

/-- One turn of the loop of `basic_quoted_key_end`, at a byte that does not close the key. -/
def basicStep (record : List UInt8) (index : Nat) : Nat :=
  if atIs record index 92 then basicEscapeEnd record index
  else if record[index]?.any (32 ≤ ·) then index + 1
  else scanFailure record index

theorem lt_basicStep (record : List UInt8) (index : Nat) : index < basicStep record index := by
  have escape := lt_basicEscapeEnd record index
  unfold basicStep scanFailure
  split_ifs <;> omega

def basicQuotedFrom (record : List UInt8) (index : Nat) : Nat :=
  if atIs record index 34 then index + 1
  else if basicStep record index > record.length then scanFailure record index
  else basicQuotedFrom record (basicStep record index)
termination_by record.length + 1 - index
decreasing_by
  have further := lt_basicStep record index
  omega

def basicQuotedKeyEnd (record : List UInt8) (start : Nat) : Nat :=
  if atIs record start 34 then basicQuotedFrom record (start + 1)
  else scanFailure record (start + 1)

def literalQuotedFrom (record : List UInt8) (index : Nat) : Nat :=
  if atIs record index 39 then index + 1
  else if record[index]?.any (32 ≤ ·) then literalQuotedFrom record (index + 1)
  else scanFailure record index
termination_by record.length - index
decreasing_by
  rename_i plain
  have inside : index < record.length := by
    by_contra past
    rw [List.getElem?_eq_none (by omega)] at plain
    cases plain
  omega

def literalQuotedKeyEnd (record : List UInt8) (start : Nat) : Nat :=
  if atIs record start 39 then literalQuotedFrom record (start + 1)
  else scanFailure record (start + 1)

def bareKeyFrom (index : Nat) : List UInt8 → Nat
  | [] => index
  | byte :: rest => if isBareByte byte then bareKeyFrom (index + 1) rest else index

def bareKeyEnd (record : List UInt8) (start : Nat) : Nat :=
  let index := bareKeyFrom start (record.drop start)
  if index > start && isBareKey (record.extract start index) then index
  else scanFailure record start

def keyEnd (record : List UInt8) (start : Nat) : Nat :=
  let opening := record[start]?.getD 0
  if opening = 34 then basicQuotedKeyEnd record start
  else if opening = 39 then literalQuotedKeyEnd record start
  else bareKeyEnd record start

def isBlankByte (byte : UInt8) : Bool := byte == 32 || byte == 9

def quoteState (byte : UInt8) (basic literal : Bool) : Int :=
  let nextBasic := if byte == 34 && !literal then !basic else basic
  let nextLiteral := if byte == 39 && !basic then !literal else literal
  (if nextBasic then 1 else 0) + if nextLiteral then 2 else 0

/-- The loop of `assignment_index`. -/
def assignmentFrom (position : Int) (basic literal : Bool) : List UInt8 → Int
  | [] => -1
  | byte :: rest =>
      let outside := !basic && !literal
      let nextBasic := if byte == 34 && !literal then !basic else basic
      let nextLiteral := if byte == 39 && !nextBasic then !literal else literal
      if byte == 61 && outside then position
      else if byte == 35 && outside then -1
      else assignmentFrom (position + 1) nextBasic nextLiteral rest

def assignmentIndex (line : List UInt8) : Int := assignmentFrom 0 false false line

def valueStartFrom (index : Nat) : List UInt8 → Nat
  | [] => index
  | byte :: rest => if isBlankByte byte then valueStartFrom (index + 1) rest else index

def valueStart (record : List UInt8) (delimiter : Nat) : Nat :=
  let index := if delimiter + 1 > record.length then record.length else delimiter + 1
  valueStartFrom index (record.drop index)

/-- The loop of `value_content_end`. -/
def valueContentFrom (index : Nat) (basic literal : Bool) : List UInt8 → Nat
  | [] => index
  | byte :: rest =>
      let state := quoteState byte basic literal
      if byte == 35 && !basic && !literal then index
      else valueContentFrom (index + 1) (state % 2 == 1) (state ≥ 2) rest

def valueContentEnd (record : List UInt8) (start : Nat) : Nat :=
  let index := if start > record.length then record.length else start
  valueContentFrom index false false (record.drop index)

/-- The loop of `value_end`. -/
def trimFrom (record : List UInt8) (start : Nat) : Nat → Nat
  | 0 => 0
  | index + 1 =>
      if index + 1 > start && record[index]?.any isBlankByte then trimFrom record start index
      else index + 1

def valueEnd (record : List UInt8) (delimiter : Nat) : Nat :=
  let start := valueStart record delimiter
  trimFrom record start (valueContentEnd record start)

/-- The parts of a line around its assignment; the comment is empty if there is none. -/
structure Line where
  key : List UInt8
  before : List UInt8
  after : List UInt8
  value : List UInt8
  trailing : List UInt8
  comment : List UInt8

def Line.rest (line : Line) : List UInt8 := line.value ++ (line.trailing ++ line.comment)

def Line.bytes (line : Line) : List UInt8 :=
  line.key ++ (line.before ++ 61 :: (line.after ++ line.rest))

def Line.delimiter (line : Line) : Nat := line.key.length + line.before.length

def Line.valueAt (line : Line) : Nat := line.delimiter + 1 + line.after.length

/-- A run of bytes without quotes and `#` that neither begins nor ends with a blank. -/
structure Bare (value : List UInt8) : Prop where
  plain : ∀ byte ∈ value, byte ≠ 34 ∧ byte ≠ 39 ∧ byte ≠ 35
  first : ∃ byte, value.head? = some byte ∧ isBlankByte byte = false
  last : ∃ byte, value.getLast? = some byte ∧ isBlankByte byte = false

structure Line.WellFormed (line : Line) : Prop where
  key : keyEnd line.bytes 0 = line.key.length
  before : line.before.all isBlankByte = true
  after : line.after.all isBlankByte = true
  value : basicQuotedKeyEnd line.bytes line.valueAt = line.valueAt + line.value.length ∨
    (∃ content, 39 ∉ content ∧ line.value = 39 :: (content ++ [39])) ∨ Bare line.value
  trailing : line.trailing.all isBlankByte = true
  comment : line.comment = [] ∨ line.comment.head? = some 35

/-- Whether a basic and a literal span are open after some bytes, as `quoteState` counts them. -/
def spansAfter (bytes : List UInt8) (spans : Bool × Bool) : Bool × Bool :=
  bytes.foldl (fun spans byte => let state := quoteState byte spans.1 spans.2
    (state % 2 == 1, state ≥ 2)) spans

/-- The first stop outside the spans, with its offset. -/
def meets (stops : List UInt8) (spans : Bool × Bool) : List UInt8 → Option (Nat × UInt8)
  | [] => none
  | byte :: rest =>
    if byte ∈ stops ∧ spans = (false, false) then some (0, byte)
    else (meets stops (spansAfter [byte] spans) rest).map fun met => (met.1 + 1, met.2)

/-- The quotes of the key and of the value, toggled one by one, lose no span. -/
structure Line.Toggles (line : Line) : Prop where
  key : meets [61, 35] (false, false) line.key = none
  outside : spansAfter line.key (false, false) = (false, false)
  value : meets [35] (false, false) line.value = none
  comment : spansAfter line.value (false, false) = (false, false) ∨ line.comment = []

variable {stops bytes rest record : List UInt8} {spans : Bool × Bool} {byte : UInt8}
variable {met : Nat × UInt8} {index start stop : Nat} {line : Line}

theorem spansAfter_singleton (byte : UInt8) (basic literal : Bool) :
    spansAfter [byte] (basic, literal) =
      (if byte == 34 && !literal then !basic else basic,
        if byte == 39 && !basic then !literal else literal) := by
  show (_ == _, decide _) = _
  unfold quoteState
  by_cases double : byte = 34
  · subst double
    cases basic <;> cases literal <;> rfl
  · by_cases single : byte = 39
    · subst single
      cases basic <;> cases literal <;> rfl
    · simp only [beq_eq_false_iff_ne.mpr double, beq_eq_false_iff_ne.mpr single, Bool.false_and]
      cases basic <;> cases literal <;> rfl

theorem meets_append (rest : List UInt8) (unbroken : meets stops spans bytes = none) :
    meets stops spans (bytes ++ rest) = (meets stops (spansAfter bytes spans) rest).map fun met =>
      (met.1 + bytes.length, met.2) := by
  induction bytes generalizing spans with
  | nil => exact Option.map_id'.symm
  | cons byte bytes ih =>
    rw [meets] at unbroken
    by_cases here : byte ∈ stops ∧ spans = (false, false)
    · rw [if_pos here] at unbroken
      cases unbroken
    · rw [if_neg here, Option.map_eq_none_iff] at unbroken
      rw [List.cons_append, meets, if_neg here, ih unbroken, Option.map_map]
      rfl

theorem meets_within (rest : List UInt8) (broken : meets stops spans bytes = some met) :
    meets stops spans (bytes ++ rest) = some met ∧ met.1 < bytes.length := by
  induction bytes generalizing spans met with
  | nil => cases broken
  | cons byte bytes ih =>
    rw [List.cons_append, meets]
    rw [meets] at broken
    by_cases here : byte ∈ stops ∧ spans = (false, false)
    · rw [if_pos here] at broken ⊢
      cases broken
      exact ⟨rfl, Nat.succ_pos _⟩
    · rw [if_neg here] at broken ⊢
      obtain ⟨later, found, rfl⟩ := Option.map_eq_some_iff.mp broken
      obtain ⟨whole, inside⟩ := ih found
      rw [whole]
      exact ⟨rfl, Nat.succ_lt_succ inside⟩

theorem meets_blanks (stops : List UInt8) (spans : Bool × Bool) (blank : bytes.all isBlankByte = true)
    (stopping : stops.all (!isBlankByte ·) = true) :
    meets stops spans bytes = none ∧ spansAfter bytes spans = spans := by
  induction bytes with
  | nil => exact ⟨rfl, rfl⟩
  | cons byte bytes ih =>
    obtain ⟨first, blank⟩ := Bool.and_eq_true_iff.mp blank
    obtain ⟨unmet, kept⟩ := ih blank
    have no_stop : byte ∉ stops := by
      intro among
      have other := List.all_eq_true.mp stopping byte among
      rw [first] at other
      cases other
    have same : spansAfter [byte] spans = spans := by
      have either : byte = 32 ∨ byte = 9 := by simpa [isBlankByte] using first
      obtain rfl | rfl := either <;> exact spansAfter_singleton _ _ _
    rw [meets, if_neg fun here => no_stop here.1, same, unmet]
    refine ⟨rfl, ?_⟩
    show spansAfter bytes (spansAfter [byte] spans) = spans
    rw [same, kept]

theorem assignmentFrom_eq (position : Int) (spans : Bool × Bool) :
    assignmentFrom position spans.1 spans.2 bytes = (meets [61, 35] spans bytes).elim (-1) fun met =>
      if met.2 = 61 then position + met.1 else -1 := by
  induction bytes generalizing position spans with
  | nil => rfl
  | cons byte bytes ih =>
    obtain ⟨basic, literal⟩ := spans
    have step := ih (position + 1) (spansAfter [byte] (basic, literal))
    have toggled : (if byte == 39 && !(if byte == 34 && !literal then !basic else basic) then !literal
        else literal) = (spansAfter [byte] (basic, literal)).2 := by
      rw [spansAfter_singleton]
      by_cases double : byte = 34
      · subst double
        rfl
      · simp only [beq_eq_false_iff_ne.mpr double, Bool.false_and, Bool.false_eq_true, if_false]
    have opened : (if byte == 34 && !literal then !basic else basic) =
        (spansAfter [byte] (basic, literal)).1 := by
      rw [spansAfter_singleton]
    rw [meets, assignmentFrom]
    dsimp only
    rw [toggled, opened, step]
    by_cases stops : byte ∈ [(61 : UInt8), 35] ∧ (basic, literal) = (false, false)
    · rw [if_pos stops]
      obtain ⟨among, outside⟩ := stops
      obtain ⟨rfl, rfl⟩ := Prod.mk.inj outside
      rcases List.mem_cons.mp among with rfl | comments
      · exact (add_zero position).symm
      · obtain rfl := List.mem_singleton.mp comments
        rfl
    · have goes (stop : UInt8) (among : stop ∈ [(61 : UInt8), 35]) :
          ¬ (byte == stop && (!basic && !literal)) = true := by
        intro met
        simp only [Bool.and_eq_true, beq_iff_eq, Bool.not_eq_true'] at met
        exact stops ⟨met.1 ▸ among, by rw [met.2.1, met.2.2]⟩
      rw [if_neg stops, if_neg (goes 61 (by simp)), if_neg (goes 35 (by simp)), Option.elim_map]
      congr 1
      funext met
      show _ = if met.2 = 61 then position + (met.1 + 1 : Nat) else -1
      by_cases assigns : met.2 = 61
      · rw [if_pos assigns, if_pos assigns]
        omega
      · rw [if_neg assigns, if_neg assigns]

theorem valueContentFrom_eq (spans : Bool × Bool) : valueContentFrom index spans.1 spans.2 bytes =
      (meets [35] spans bytes).elim (index + bytes.length) fun met => index + met.1 := by
  induction bytes generalizing index spans with
  | nil => rfl
  | cons byte bytes ih =>
    obtain ⟨basic, literal⟩ := spans
    have step := @ih (index + 1) (spansAfter [byte] (basic, literal))
    rw [meets, valueContentFrom]
    dsimp only
    rw [show (quoteState byte basic literal % 2 == 1) = (spansAfter [byte] (basic, literal)).1 from rfl,
      show decide (quoteState byte basic literal ≥ 2) = (spansAfter [byte] (basic, literal)).2 from rfl,
      step]
    by_cases stops : byte ∈ [(35 : UInt8)] ∧ (basic, literal) = (false, false)
    · rw [if_pos stops]
      obtain ⟨among, outside⟩ := stops
      obtain ⟨rfl, rfl⟩ := Prod.mk.inj outside
      obtain rfl := List.mem_singleton.mp among
      rfl
    · rw [if_neg stops, if_neg, Option.elim_map, List.length_cons, ← Nat.add_assoc,
        Nat.add_right_comm]
      · congr 1
        funext met
        show _ = index + (met.1 + 1)
        omega
      · intro met
        simp only [Bool.and_eq_true, beq_iff_eq, Bool.not_eq_true'] at met
        exact stops ⟨List.mem_singleton.mpr met.1.1, by rw [met.1.2, met.2]⟩

theorem assignmentIndex_iff (formed : line.WellFormed) :
    assignmentIndex line.bytes = line.delimiter ↔
      meets [61, 35] (false, false) line.key = none ∧
        spansAfter line.key (false, false) = (false, false) := by
  have read := @assignmentFrom_eq line.bytes 0 (false, false)
  unfold assignmentIndex
  rw [read]
  unfold Line.delimiter Line.bytes
  cases key : meets [61, 35] (false, false) line.key with
  | some met =>
    obtain ⟨whole, inside⟩ := meets_within _ key
    rw [whole, Option.elim_some]
    constructor
    · intro same
      split_ifs at same
      omega
    · rintro ⟨none, -⟩
      cases none
  | none =>
    obtain ⟨unmet, kept⟩ := meets_blanks [61, 35] (spansAfter line.key (false, false)) formed.before
      (by decide)
    rw [meets_append _ key, meets_append _ unmet, kept, meets]
    by_cases outside : spansAfter line.key (false, false) = (false, false)
    · rw [if_pos ⟨List.mem_cons_self, outside⟩]
      simp [outside]
      omega
    · rw [if_neg fun here => outside here.2]
      refine ⟨fun same => ?_, fun kept => absurd kept.2 outside⟩
      rw [Option.map_map, Option.map_map, Option.elim_map] at same
      cases later : meets [61, 35] (spansAfter [61] (spansAfter line.key (false, false)))
          (line.after ++ line.rest) with
      | none =>
        rw [later, Option.elim_none] at same
        omega
      | some met =>
        rw [later, Option.elim_some] at same
        simp only [Function.comp_apply] at same
        split_ifs at same
        omega

theorem valueStartFrom_blanks (blank : bytes.all isBlankByte = true)
    (first : ∃ byte, rest.head? = some byte ∧ isBlankByte byte = false) :
    valueStartFrom index (bytes ++ rest) = index + bytes.length := by
  induction bytes generalizing index with
  | nil =>
    obtain ⟨byte, head, other⟩ := first
    obtain ⟨tail, rfl⟩ := List.head?_eq_some_iff.mp head
    rw [List.nil_append, valueStartFrom, other]
    rfl
  | cons byte bytes ih =>
    obtain ⟨here, blank⟩ := Bool.and_eq_true_iff.mp blank
    rw [List.cons_append, valueStartFrom, if_pos here, ih blank, List.length_cons]
    omega

theorem basicQuotedFrom_closes (inside : basicQuotedFrom record index ≤ record.length) :
    index < basicQuotedFrom record index ∧
      record[basicQuotedFrom record index - 1]? = some 34 := by
  induction index using basicQuotedFrom.induct record with
  | case1 index closed =>
    rw [basicQuotedFrom, if_pos closed]
    exact ⟨Nat.lt_succ_self _, atIs_iff.mp closed⟩
  | case2 index closed bad =>
    rw [basicQuotedFrom, if_neg closed, if_pos bad, scanFailure] at inside
    omega
  | case3 index closed good ih =>
    rw [basicQuotedFrom, if_neg closed, if_neg good] at inside ⊢
    obtain ⟨further, quote⟩ := ih inside
    exact ⟨(lt_basicStep record index).trans further, quote⟩

theorem drop_valueAt (line : Line) : line.bytes.drop line.valueAt = line.rest := by
  have split : line.bytes =
      (line.key ++ line.before ++ 61 :: line.after) ++ line.rest := by
    simp [Line.bytes]
  have length : line.valueAt = (line.key ++ line.before ++ 61 :: line.after).length := by
    simp [Line.valueAt, Line.delimiter]
    omega
  rw [split, length, List.drop_left]

theorem trimFrom_le (record : List UInt8) (start index : Nat) :
    trimFrom record start index ≤ index := by
  induction index with
  | zero => exact le_rfl
  | succ index ih =>
    rw [trimFrom]
    split_ifs
    · exact ih.trans (Nat.le_succ _)
    · exact le_rfl

theorem le_trimFrom (start : Nat) {place : Nat} (present : record[place]? = some byte)
    (solid : isBlankByte byte = false) (before : place < index) :
    place < trimFrom record start index := by
  induction index with
  | zero => omega
  | succ index ih =>
    rw [trimFrom]
    by_cases last : place = index
    · rw [← last, present, Option.any_some, solid, Bool.and_false, if_neg nofun]
      exact Nat.lt_succ_self _
    · have earlier := ih (by omega)
      split_ifs
      · exact earlier
      · exact before

theorem trimFrom_le_of_blank (inside : start ≤ stop) (reached : stop ≤ index)
    (blank : ∀ place, stop ≤ place → place < index → record[place]?.any isBlankByte = true) :
    trimFrom record start index ≤ stop := by
  induction index with
  | zero => exact Nat.zero_le _
  | succ index ih =>
    rw [trimFrom]
    rcases reached.lt_or_eq with more | rfl
    · rw [blank index (by omega) (Nat.lt_succ_self _), Bool.and_true,
        if_pos (decide_eq_true (by omega))]
      exact ih (by omega) fun place after before => blank place after (before.trans (by omega))
    · split_ifs
      · exact (trimFrom_le _ _ _).trans (Nat.le_succ _)
      · exact le_rfl

theorem Line.WellFormed.ends (formed : line.WellFormed) :
    (∃ byte, line.rest.head? = some byte ∧ isBlankByte byte = false) ∧
      ∃ place byte, line.value.length = place + 1 ∧ line.rest[place]? = some byte ∧
        isBlankByte byte = false := by
  have within {byte : UInt8} {value : List UInt8} (place : Nat) (same : line.value = value)
      (present : value[place]? = some byte) : line.rest[place]? = some byte := by
    rw [Line.rest, same, List.getElem?_append_left (List.getElem?_eq_some_iff.mp present).1, present]
  have behind (place : Nat) : line.rest[place]? = line.bytes[line.valueAt + place]? := by
    rw [← drop_valueAt, List.getElem?_drop]
  have long : line.valueAt + line.value.length ≤ line.bytes.length := by
    have length := congrArg List.length (drop_valueAt line)
    simp only [List.length_drop, Line.rest, List.length_append] at length
    have split : line.valueAt ≤ line.bytes.length := by
      simp [Line.valueAt, Line.delimiter, Line.bytes]
      omega
    omega
  obtain quoted | ⟨content, -, literal⟩ | ⟨-, ⟨first, head, firstSolid⟩, last, final, lastSolid⟩ :=
    formed.value
  · unfold basicQuotedKeyEnd at quoted
    split_ifs at quoted with opened
    · obtain ⟨further, closed⟩ := basicQuotedFrom_closes (quoted ▸ long)
      rw [quoted] at further closed
      refine ⟨⟨34, ?_, rfl⟩, line.value.length - 1, 34, by omega, ?_, rfl⟩
      · rw [List.head?_eq_getElem?, behind]
        exact atIs_iff.mp opened
      · rw [behind, ← closed]
        congr 1
        omega
    · unfold scanFailure at quoted
      omega
  · refine ⟨⟨39, ?_, rfl⟩, content.length + 1, 39, by rw [literal]; simp, ?_, rfl⟩
    · rw [List.head?_eq_getElem?]
      exact within 0 literal rfl
    · exact within _ literal (by simp)
  · have filled : line.value ≠ [] := by
      intro empty
      rw [empty] at head
      cases head
    have positive := List.length_pos_iff.mpr filled
    refine ⟨⟨first, ?_, firstSolid⟩, line.value.length - 1, last, by omega, ?_, lastSolid⟩
    · rw [List.head?_eq_getElem?]
      exact within 0 rfl (by rw [← List.head?_eq_getElem?, head])
    · exact within _ rfl (by rw [← List.getLast?_eq_getElem?, final])

theorem valueStart_eq (formed : line.WellFormed) :
    valueStart line.bytes line.delimiter = line.valueAt := by
  have length : line.bytes.length =
      line.delimiter + 1 + (line.after ++ line.rest).length := by
    simp [Line.bytes, Line.delimiter]
    omega
  have split : line.bytes =
      (line.key ++ line.before ++ [61]) ++ (line.after ++ line.rest) := by
    simp [Line.bytes]
  have front : line.delimiter + 1 = (line.key ++ line.before ++ [(61 : UInt8)]).length := by
    simp [Line.delimiter, Nat.add_assoc]
  unfold valueStart
  rw [if_neg (by omega)]
  dsimp only
  rw [split, front, List.drop_left, ← front, valueStartFrom_blanks formed.after formed.ends.1]
  rfl

theorem valueEnd_iff (formed : line.WellFormed) :
    valueEnd line.bytes line.delimiter = line.valueAt + line.value.length ↔
      meets [35] (false, false) line.value = none ∧
        (spansAfter line.value (false, false) = (false, false) ∨ line.comment = []) := by
  obtain ⟨-, last, byte, length, present, solid⟩ := formed.ends
  have behind (place : Nat) : line.bytes[line.valueAt + place]? = line.rest[place]? := by
    rw [← drop_valueAt, List.getElem?_drop]
  have whole := congrArg List.length (drop_valueAt line)
  rw [List.length_drop] at whole
  have start : ¬ line.valueAt > line.bytes.length := by
    have inside := (List.getElem?_eq_some_iff.mp ((behind last).trans present)).1
    omega
  have content : valueContentEnd line.bytes line.valueAt =
      (meets [35] (false, false) line.rest).elim (line.valueAt + line.rest.length)
        fun met => line.valueAt + met.1 := by
    unfold valueContentEnd
    dsimp only
    rw [if_neg start, drop_valueAt]
    exact valueContentFrom_eq (false, false)
  unfold valueEnd
  dsimp only
  rw [valueStart_eq formed, content]
  cases value : meets [35] (false, false) line.value with
  | some met =>
    obtain ⟨found, inside⟩ := meets_within (line.trailing ++ line.comment) value
    rw [Line.rest, found, Option.elim_some]
    have short := trimFrom_le line.bytes line.valueAt (line.valueAt + met.1)
    refine ⟨fun same => by omega, fun told => ?_⟩
    cases told.1
  | none =>
    obtain ⟨unmet, kept⟩ := meets_blanks [35] (spansAfter line.value (false, false)) formed.trailing
      (by decide)
    have found : meets [35] (false, false) line.rest =
        (meets [35] (spansAfter line.value (false, false)) line.comment).map fun met =>
          (met.1 + line.trailing.length + line.value.length, met.2) := by
      rw [Line.rest, meets_append _ value, meets_append _ unmet, kept, Option.map_map]
      rfl
    have trimmed : trimFrom line.bytes line.valueAt
        (line.valueAt + (line.value.length + line.trailing.length)) =
          line.valueAt + line.value.length := by
      refine Nat.le_antisymm (trimFrom_le_of_blank (by omega) (by omega) ?_) ?_
      · intro place after before
        obtain ⟨offset, rfl⟩ : ∃ offset, place = line.valueAt + (line.value.length + offset) :=
          ⟨place - line.valueAt - line.value.length, by omega⟩
        have inside : offset < line.trailing.length := by omega
        rw [behind, Line.rest, List.getElem?_append_right (Nat.le_add_right _ _),
          Nat.add_sub_cancel_left, List.getElem?_append_left inside, List.getElem?_eq_getElem inside]
        exact List.all_eq_true.mp formed.trailing _ (List.getElem_mem _)
      · have before : line.valueAt + last < trimFrom line.bytes line.valueAt
            (line.valueAt + (line.value.length + line.trailing.length)) :=
          le_trimFrom _ ((behind last).trans present) solid (by omega)
        omega
    rw [found]
    obtain without | marked := formed.comment
    · rw [without]
      refine ⟨fun _ => ⟨rfl, .inr rfl⟩, fun _ => ?_⟩
      show trimFrom _ _ (line.valueAt + line.rest.length) = _
      rw [Line.rest, without, List.append_nil, List.length_append]
      exact trimmed
    · obtain ⟨comment, same⟩ := List.head?_eq_some_iff.mp marked
      rw [same, meets]
      by_cases outside : spansAfter line.value (false, false) = (false, false)
      · rw [if_pos ⟨List.mem_cons_self, outside⟩]
        refine ⟨fun _ => ⟨rfl, .inl outside⟩, fun _ => ?_⟩
        show trimFrom _ _ (line.valueAt + (0 + line.trailing.length + line.value.length)) = _
        rw [Nat.zero_add, Nat.add_comm line.trailing.length]
        exact trimmed
      · rw [if_neg fun here => outside here.2]
        refine ⟨fun ended => ?_, fun told => ?_⟩
        · -- the mark of the comment was passed over, and it is not trimmed
          have mark : line.bytes[line.valueAt + (line.value.length + line.trailing.length)]? =
              some 35 := by
            rw [behind, Line.rest, same, ← List.append_assoc, ← List.length_append,
              List.getElem?_append_right le_rfl, Nat.sub_self]
            rfl
          have long : line.rest.length =
              line.value.length + line.trailing.length + (comment.length + 1) := by
            rw [Line.rest, same]
            simp [Nat.add_assoc]
          refine absurd (ended ▸ le_trimFrom line.valueAt mark (by decide) ?_) (by omega)
          cases meets [35] (spansAfter [35] (spansAfter line.value (false, false))) comment with
          | none =>
            show _ < line.valueAt + line.rest.length
            omega
          | some met =>
            show _ < line.valueAt + (met.1 + 1 + line.trailing.length + line.value.length)
            omega
        · rcases told.2 with opened | without
          · exact absurd opened outside
          · cases without

/-- **Where a line is split.** The three scanners find the parts of a line exactly if toggling at each
quote of the key and of the value loses no quoted span. -/
theorem line_split_iff (line : Line) (formed : line.WellFormed) :
    (assignmentIndex line.bytes = line.delimiter ∧
      valueStart line.bytes line.delimiter = line.valueAt ∧
      valueEnd line.bytes line.delimiter = line.valueAt + line.value.length) ↔ line.Toggles := by
  rw [assignmentIndex_iff formed, valueEnd_iff formed]
  constructor
  · rintro ⟨⟨key, outside⟩, -, value, comment⟩
    exact ⟨key, outside, value, comment⟩
  · rintro ⟨key, outside, value, comment⟩
    exact ⟨⟨key, outside⟩, valueStart_eq formed, value, comment⟩

/-- The line `a = 'b' # c`. -/
def literalLine : Line := ⟨[97], [32], [32], [39, 98, 39], [32], [35, 32, 99]⟩

theorem line_split_literal : valueEnd literalLine.bytes 2 = 7 := by
  refine ((line_split_iff literalLine ⟨?_, rfl, rfl, ?_, rfl, .inr rfl⟩).mpr
    ⟨rfl, rfl, rfl, .inl rfl⟩).2.2
  · decide
  · exact .inr (.inl ⟨[98], by decide, rfl⟩)

/-- The line `"a\\"=b" = 1`. -/
def escapedLine : Line := ⟨[34, 97, 92, 34, 61, 98, 34], [32], [32], [49], [], []⟩

theorem escapedLine_formed : escapedLine.WellFormed where
  key := by
    show keyEnd [34, 97, 92, 34, 61, 98, 34, 32, 61, 32, 49] 0 = 7
    simp [keyEnd, basicQuotedKeyEnd, basicQuotedFrom, basicStep, basicEscapeEnd, atIs]
  before := rfl
  after := rfl
  value := .inr (.inr ⟨by simp [escapedLine], ⟨49, rfl, rfl⟩, ⟨49, rfl, rfl⟩⟩)
  trailing := rfl
  comment := .inl rfl

/-- **An escaped quote splits the line.** The assignment is found within the key. -/
theorem line_split_escaped : escapedLine.WellFormed ∧
    assignmentIndex escapedLine.bytes = 4 ∧ escapedLine.delimiter = 8 :=
  ⟨escapedLine_formed, rfl, rfl⟩

end Semaprax.Standard
