/-
**The CSV scanners of the standard library** (`std/data-csv`).

* `scan`, `wellFormedFrom`, `fieldEndFrom` — the loops over a record. Each tells again which quotes
  open, close or stand doubled; what is left of the record is a list.
* `Field`, `recordBytes` — what a record is: fields joined by commas.
* `csv_agree` — the records that are accepted are these, and the cursors visit their fields.
-/

import Mathlib

namespace Semaprax.Standard

/-- A quote is one half of a doubled one. -/
def escapedQuote (quoted : Bool) (byte : UInt8) (rest : List UInt8) : Bool :=
  byte == 34 && quoted && rest.head? == some 34

def quotedAfter (quoted : Bool) (byte : UInt8) (rest : List UInt8) : Bool :=
  if byte == 34 && !escapedQuote quoted byte rest then !quoted else quoted

/-- The bytes from the next index on. -/
def following (quoted : Bool) (byte : UInt8) (rest : List UInt8) : List UInt8 :=
  if escapedQuote quoted byte rest then rest.tail else rest

theorem length_following (quoted : Bool) (byte : UInt8) (rest : List UInt8) :
    (following quoted byte rest).length + (if escapedQuote quoted byte rest then 1 else 0) =
      rest.length := by
  unfold following
  cases rest with
  | nil => simp [escapedQuote]
  | cons next rest => split_ifs <;> rfl

theorem length_following_lt (quoted : Bool) (byte : UInt8) (rest : List UInt8) :
    (following quoted byte rest).length < (byte :: rest).length :=
  Nat.lt_succ_of_le (length_following quoted byte rest ▸ Nat.le_add_right _ _)

/-- The loop of `field_count` and of `has_balanced_quotes`. -/
def scan (fields : Nat) (quoted : Bool) : List UInt8 → Nat × Bool
  | [] => (fields, quoted)
  | byte :: rest =>
    scan (if byte == 44 && !quotedAfter quoted byte rest then fields + 1 else fields)
      (quotedAfter quoted byte rest) (following quoted byte rest)
termination_by rest => rest.length
decreasing_by exact length_following_lt quoted byte rest

def fieldCount (record : List UInt8) : Nat := (scan 1 false record).1

def hasBalancedQuotes (record : List UInt8) : Bool := !(scan 1 false record).2

/-- The loop of `is_well_formed_record`. -/
def wellFormedFrom (quoted fieldStart afterQuote : Bool) : List UInt8 → Bool
  | [] => !quoted
  | byte :: rest =>
    let quote := byte == 34
    let comma := byte == 44
    if quoted then
      wellFormedFrom (quotedAfter quoted byte rest) fieldStart
        (quote && !escapedQuote quoted byte rest) (following quoted byte rest)
    else if afterQuote then comma && wellFormedFrom false comma false rest
    else (!quote || fieldStart) && wellFormedFrom (quote && fieldStart) comma false rest
termination_by rest => rest.length
decreasing_by
  · exact length_following_lt quoted byte rest
  · exact Nat.lt_succ_self _
  · exact Nat.lt_succ_self _

def isWellFormedRecord (record : List UInt8) : Bool := wellFormedFrom false true false record

/-- The loop of `field_end`, which ends with the length if nothing stops it. -/
def fieldEndFrom (index : Nat) (quoted : Bool) : List UInt8 → Nat
  | [] => index
  | byte :: rest =>
    if byte == 44 && !quotedAfter quoted byte rest then index
    else fieldEndFrom (index + if escapedQuote quoted byte rest then 2 else 1)
      (quotedAfter quoted byte rest) (following quoted byte rest)
termination_by rest => rest.length
decreasing_by exact length_following_lt quoted byte rest

def csvFieldEnd (record : List UInt8) (start : Nat) : Nat :=
  fieldEndFrom start false (record.drop start)

def csvFieldIsQuoted (record : List UInt8) (start : Nat) : Bool :=
  if csvFieldEnd record start - start ≥ 2 then record[start]?.any (· == 34) else false

def csvContentStart (record : List UInt8) (start : Nat) : Nat :=
  if csvFieldIsQuoted record start then start + 1 else start

def csvContentEnd (record : List UInt8) (start : Nat) : Nat :=
  let fieldEnd := csvFieldEnd record start
  if csvFieldIsQuoted record start then fieldEnd - 1 else fieldEnd

/-- A field: a text without quotes and commas, or any text within quotes. -/
inductive Field
  | plain (text : List UInt8) (free : ∀ byte ∈ text, byte ≠ 34 ∧ byte ≠ 44)
  | quoted (content : List UInt8)

def doubled (content : List UInt8) : List UInt8 :=
  content.flatMap fun byte => if byte = 34 then [34, 34] else [byte]

/-- What stands between the outer quotes of a field, or the whole of a plain one. -/
def Field.inner : Field → List UInt8
  | .plain text _ => text
  | .quoted content => doubled content

def Field.bytes : Field → List UInt8
  | .plain text _ => text
  | .quoted content => 34 :: (doubled content ++ [34])

/-- Further fields, each behind its comma. -/
def fieldsAfter (fields : List Field) : List UInt8 := fields.flatMap fun field => 44 :: field.bytes

def recordBytes (first : Field) (fields : List Field) : List UInt8 :=
  first.bytes ++ fieldsAfter fields

variable {rest : List UInt8} {byte : UInt8} {fieldStart afterQuote : Bool} {fields index : Nat}

theorem le_fieldEndFrom (index : Nat) (quoted : Bool) (rest : List UInt8) :
    index ≤ fieldEndFrom index quoted rest := by
  induction index, quoted, rest using fieldEndFrom.induct with
  | case1 index quoted => rw [fieldEndFrom]
  | case2 index quoted byte rest stop => rw [fieldEndFrom, if_pos stop]
  | case3 index quoted byte rest on ih =>
    rw [fieldEndFrom, if_neg on]
    exact le_trans (Nat.le_add_right _ _) ih

/-- The starts of the fields from one on: the next one is behind the end, while that is not the end of
the record. -/
def visits (record : List UInt8) (start : Nat) : List Nat :=
  start :: if csvFieldEnd record start < record.length then
    visits record (csvFieldEnd record start + 1) else []
termination_by record.length - start
decreasing_by
  have after := le_fieldEndFrom start false (record.drop start)
  unfold csvFieldEnd at *
  omega

/-- What follows a closing quote is no quote. -/
def Closed (rest : List UInt8) : Prop := rest.head? ≠ some 34

theorem closed_fieldsAfter (fields : List Field) : Closed (fieldsAfter fields) := by
  cases fields with
  | nil => exact nofun
  | cons field fields => exact fun same => by cases same

theorem following_other {quoted : Bool} (other : byte ≠ 34) :
    following quoted byte rest = rest ∧ quotedAfter quoted byte rest = quoted ∧
      escapedQuote quoted byte rest = false := by
  simp [following, quotedAfter, escapedQuote, other]

theorem following_opening : following false 34 rest = rest ∧ quotedAfter false 34 rest = true ∧
      escapedQuote false 34 rest = false := by
  simp [following, quotedAfter, escapedQuote]

theorem following_doubled :
    following true 34 (34 :: rest) = rest ∧ quotedAfter true 34 (34 :: rest) = true ∧
      escapedQuote true 34 (34 :: rest) = true := by
  simp [following, quotedAfter, escapedQuote]

theorem following_closing (closed : Closed rest) :
    following true 34 rest = rest ∧ quotedAfter true 34 rest = false ∧
      escapedQuote true 34 rest = false := by
  have other : (rest.head? == some 34) = false := beq_eq_false_iff_ne.mpr closed
  simp [following, quotedAfter, escapedQuote, other]

theorem following_comma : following false 44 rest = rest ∧ quotedAfter false 44 rest = false :=
  ⟨(following_other (by decide)).1, (following_other (by decide)).2.1⟩

/-- The machine passes over bytes among which no comma ends a field. -/
inductive Passes : Bool → List UInt8 → Bool → List UInt8 → Prop
  | done (quoted : Bool) (rest : List UInt8) : Passes quoted rest quoted rest
  | next {quoted after : Bool} {byte : UInt8} {rest left : List UInt8} :
      (byte == 44 && !quotedAfter quoted byte rest) = false →
      Passes (quotedAfter quoted byte rest) (following quoted byte rest) after left →
      Passes quoted (byte :: rest) after left

theorem passes_doubled (content : List UInt8) (closed : Closed rest) :
    Passes true (doubled content ++ 34 :: rest) false rest := by
  induction content with
  | nil =>
    refine .next rfl ?_
    rw [(following_closing closed).1, (following_closing closed).2.1]
    exact .done _ _
  | cons byte content ih =>
    rw [doubled, List.flatMap_cons]
    by_cases quote : byte = 34
    · rw [if_pos quote]
      refine .next rfl ?_
      show Passes (quotedAfter true 34 (34 :: (doubled content ++ 34 :: rest)))
        (following true 34 (34 :: (doubled content ++ 34 :: rest))) false rest
      rw [following_doubled.1, following_doubled.2.1]
      exact ih
    · rw [if_neg quote]
      refine .next ?_ ?_
      · simp [following_other quote]
      · rw [(following_other quote).1, (following_other quote).2.1]
        exact ih

/-- **A field is passed over,** however it is written. -/
theorem passes_field (field : Field) (closed : Closed rest) :
    Passes false (field.bytes ++ rest) false rest := by
  cases field with
  | plain text free =>
    show Passes false (text ++ rest) false rest
    induction text with
    | nil => exact .done _ _
    | cons byte text ih =>
      obtain ⟨noQuote, noComma⟩ := free byte List.mem_cons_self
      refine .next ?_ ?_
      · simp [noComma]
      · rw [(following_other noQuote).1, (following_other noQuote).2.1]
        exact ih fun other among => free other (List.mem_cons_of_mem _ among)
  | quoted content =>
    show Passes false (34 :: (doubled content ++ [34] ++ rest)) false rest
    refine .next rfl ?_
    rw [following_opening.1, following_opening.2.1, List.append_assoc]
    exact passes_doubled content closed

theorem scan_passes {quoted after : Bool} {left : List UInt8}
    (passes : Passes quoted rest after left) : scan fields quoted rest = scan fields after left := by
  induction passes with
  | done quoted rest => rfl
  | next noStop _ ih => rw [scan, noStop, if_neg nofun, ih]

theorem fieldEndFrom_passes {quoted after : Bool} {left : List UInt8}
    (passes : Passes quoted rest after left) :
    left.length ≤ rest.length ∧ fieldEndFrom index quoted rest =
      fieldEndFrom (index + (rest.length - left.length)) after left := by
  induction passes generalizing index with
  | done quoted rest => exact ⟨le_rfl, by rw [Nat.sub_self]; rfl⟩
  | @next quoted after byte rest left noStop _ ih =>
    obtain ⟨shorter, reached⟩ := @ih (index + if escapedQuote quoted byte rest then 2 else 1)
    have length := length_following quoted byte rest
    rw [fieldEndFrom, noStop, if_neg nofun, reached, List.length_cons]
    refine ⟨by omega, congrArg (fieldEndFrom · _ _) ?_⟩
    split_ifs at length ⊢ <;> omega

theorem fieldEndFrom_field (field : Field) (fields : List Field) :
    fieldEndFrom index false (field.bytes ++ fieldsAfter fields) = index + field.bytes.length := by
  have closed := closed_fieldsAfter fields
  rw [(fieldEndFrom_passes (passes_field field closed)).2, List.length_append, Nat.add_sub_cancel]
  cases fields with
  | nil => exact fieldEndFrom.eq_1 _ _
  | cons field fields =>
    show fieldEndFrom _ false (44 :: (recordBytes field fields)) = _
    rw [fieldEndFrom, following_comma.2]
    rfl

theorem scan_record (first : Field) (rest : List Field) :
    scan fields false (recordBytes first rest) = (fields + rest.length, false) := by
  induction rest generalizing first fields with
  | nil =>
    rw [recordBytes, scan_passes (passes_field first (closed_fieldsAfter []))]
    exact scan.eq_1 _ _
  | cons field rest ih =>
    rw [recordBytes, scan_passes (passes_field first (closed_fieldsAfter _))]
    show scan fields false (44 :: recordBytes field rest) = _
    rw [scan, following_comma.1, following_comma.2]
    show scan (fields + 1) false (recordBytes field rest) = _
    rw [ih, List.length_cons, Nat.add_assoc, Nat.add_comm 1]

theorem wellFormedFrom_doubled (content : List UInt8) (closed : Closed rest)
    (formed : wellFormedFrom false fieldStart true rest = true) :
    wellFormedFrom true fieldStart afterQuote (doubled content ++ 34 :: rest) = true := by
  induction content generalizing afterQuote with
  | nil =>
    show wellFormedFrom true fieldStart afterQuote (34 :: rest) = true
    rw [wellFormedFrom]
    simpa [following_closing closed] using formed
  | cons byte content ih =>
    rw [doubled, List.flatMap_cons]
    by_cases quote : byte = 34
    · rw [if_pos quote]
      show wellFormedFrom true fieldStart afterQuote
        (34 :: 34 :: (doubled content ++ 34 :: rest)) = true
      rw [wellFormedFrom]
      simpa [following_doubled] using ih
    · rw [if_neg quote]
      show wellFormedFrom true fieldStart afterQuote
        (byte :: (doubled content ++ 34 :: rest)) = true
      rw [wellFormedFrom]
      simpa [following_other quote] using ih

theorem wellFormedFrom_field (field : Field) (closed : Closed rest)
    (formed : ∀ fieldStart afterQuote, wellFormedFrom false fieldStart afterQuote rest = true) :
    wellFormedFrom false true false (field.bytes ++ rest) = true := by
  cases field with
  | plain text free =>
    show wellFormedFrom false true false (text ++ rest) = true
    suffices all : ∀ fieldStart, wellFormedFrom false fieldStart false (text ++ rest) = true from
      all true
    intro fieldStart
    induction text generalizing fieldStart with
    | nil => exact formed fieldStart false
    | cons byte text ih =>
      obtain ⟨noQuote, noComma⟩ := free byte List.mem_cons_self
      rw [List.cons_append, wellFormedFrom]
      have tail := ih (fun other among => free other (List.mem_cons_of_mem _ among)) false
      simpa [beq_eq_false_iff_ne.mpr noQuote, beq_eq_false_iff_ne.mpr noComma] using tail
  | quoted content =>
    show wellFormedFrom false true false (34 :: (doubled content ++ [34] ++ rest)) = true
    rw [List.append_assoc, wellFormedFrom]
    simpa using wellFormedFrom_doubled content closed (formed false true)

theorem wellFormedFrom_fieldsAfter (fields : List Field) (fieldStart afterQuote : Bool) :
    wellFormedFrom false fieldStart afterQuote (fieldsAfter fields) = true := by
  induction fields generalizing fieldStart afterQuote with
  | nil => exact wellFormedFrom.eq_1 _ _ _
  | cons field fields ih =>
    show wellFormedFrom false fieldStart afterQuote (44 :: (field.bytes ++ fieldsAfter fields)) = _
    rw [wellFormedFrom]
    have formed := wellFormedFrom_field field (closed_fieldsAfter fields) ih
    simp [formed]

/-- What the state of the scanner leaves for the rest of a record. -/
def Remainder (quoted fieldStart afterQuote : Bool) (rest : List UInt8) : Prop :=
  if quoted then ∃ content fields, rest = doubled content ++ 34 :: fieldsAfter fields
  else if afterQuote then ∃ fields, rest = fieldsAfter fields
  else (∃ text fields, (∀ byte ∈ text, byte ≠ 34 ∧ byte ≠ 44) ∧ rest = text ++ fieldsAfter fields) ∨
    fieldStart = true ∧ ∃ first fields, rest = recordBytes first fields

theorem remainder_of_wellFormedFrom (quoted fieldStart afterQuote : Bool) (rest : List UInt8)
    (formed : wellFormedFrom quoted fieldStart afterQuote rest = true) :
    Remainder quoted fieldStart afterQuote rest := by
  have starts {rest : List UInt8} (remainder : Remainder false true false rest) :
      ∃ first fields, rest = recordBytes first fields := by
    obtain ⟨text, fields, free, rfl⟩ | ⟨-, record⟩ := remainder
    · exact ⟨.plain text free, fields, rfl⟩
    · exact record
  induction quoted, fieldStart, afterQuote, rest using wellFormedFrom.induct with
  | case1 quoted fieldStart afterQuote =>
    rw [wellFormedFrom] at formed
    cases quoted with
    | true => cases formed
    | false =>
      cases afterQuote with
      | true => exact ⟨[], rfl⟩
      | false => exact .inl ⟨[], [], nofun, rfl⟩
  | case2 fieldStart afterQuote byte rest quote ih =>
    rw [wellFormedFrom, if_pos rfl] at formed
    have remainder := ih formed
    by_cases same : byte = 34
    · subst same
      by_cases closed : Closed rest
      · obtain ⟨left, after, single⟩ := following_closing closed
        rw [left, after, single] at remainder
        obtain ⟨fields, rfl⟩ := remainder
        exact ⟨[], fields, rfl⟩
      · obtain ⟨rest, rfl⟩ := List.head?_eq_some_iff.mp (not_not.mp closed)
        obtain ⟨left, after, double⟩ := @following_doubled rest
        rw [left, after] at remainder
        obtain ⟨content, fields, rfl⟩ := remainder
        exact ⟨34 :: content, fields, rfl⟩
    · obtain ⟨left, after, single⟩ := @following_other rest byte true same
      rw [left, after] at remainder
      obtain ⟨content, fields, rfl⟩ := remainder
      refine ⟨byte :: content, fields, ?_⟩
      rw [doubled, doubled, List.flatMap_cons, if_neg same]
      rfl
  | case3 quoted fieldStart byte rest comma unquoted ih =>
    obtain rfl := Bool.eq_false_of_not_eq_true unquoted
    rw [wellFormedFrom, if_neg unquoted, if_pos rfl, Bool.and_eq_true, beq_iff_eq] at formed
    obtain ⟨rfl, formed⟩ := formed
    obtain ⟨first, fields, rfl⟩ := starts (ih formed)
    exact ⟨first :: fields, rfl⟩
  | case4 quoted fieldStart afterQuote byte rest quote comma unquoted before ih =>
    obtain rfl := Bool.eq_false_of_not_eq_true unquoted
    obtain rfl := Bool.eq_false_of_not_eq_true before
    rw [wellFormedFrom, if_neg unquoted, if_neg before, Bool.and_eq_true] at formed
    obtain ⟨fits, formed⟩ := formed
    have remainder := ih formed
    by_cases opens : byte = 34
    · subst opens
      obtain rfl : fieldStart = true := fits
      obtain ⟨content, fields, rfl⟩ := remainder
      exact .inr ⟨rfl, .quoted content, fields, by simp [recordBytes, Field.bytes]⟩
    · have plain : quote = false := beq_eq_false_iff_ne.mpr opens
      rw [plain] at remainder
      by_cases separates : byte = 44
      · subst separates
        obtain ⟨first, fields, rfl⟩ := starts remainder
        exact .inl ⟨[], first :: fields, nofun, rfl⟩
      · have inner : comma = false := beq_eq_false_iff_ne.mpr separates
        rw [inner] at remainder
        obtain ⟨text, fields, free, rfl⟩ | ⟨start, -⟩ := remainder
        · refine .inl ⟨byte :: text, fields, ?_, rfl⟩
          exact List.forall_mem_cons.mpr ⟨⟨opens, separates⟩, free⟩
        · cases start

theorem isWellFormedRecord_iff (record : List UInt8) :
    isWellFormedRecord record = true ↔ ∃ first fields, record = recordBytes first fields := by
  constructor
  · intro formed
    obtain ⟨text, fields, free, rfl⟩ | ⟨-, record⟩ := remainder_of_wellFormedFrom _ _ _ _ formed
    · exact ⟨.plain text free, fields, rfl⟩
    · exact record
  · rintro ⟨first, fields, rfl⟩
    exact wellFormedFrom_field first (closed_fieldsAfter fields) (wellFormedFrom_fieldsAfter fields)

/-- **At a field,** the cursors delimit its bytes and what it contains. -/
theorem cursors_field (front : List UInt8) (field : Field) (fields : List Field) :
    csvFieldEnd (front ++ recordBytes field fields) front.length =
        front.length + field.bytes.length ∧
      (front ++ recordBytes field fields).extract
          (csvContentStart (front ++ recordBytes field fields) front.length)
          (csvContentEnd (front ++ recordBytes field fields) front.length) = field.inner := by
  have ends : csvFieldEnd (front ++ recordBytes field fields) front.length =
      front.length + field.bytes.length := by
    rw [csvFieldEnd, List.drop_left, recordBytes, fieldEndFrom_field]
  refine ⟨ends, ?_⟩
  have first : (front ++ recordBytes field fields)[front.length]? =
      (recordBytes field fields)[0]? := by
    rw [List.getElem?_append_right le_rfl, Nat.sub_self]
  unfold csvContentStart csvContentEnd csvFieldIsQuoted
  dsimp only
  rw [ends, first, Nat.add_sub_cancel_left]
  cases field with
  | plain text free =>
    have unquoted : ¬ (if text.length ≥ 2 then
        (recordBytes (.plain text free) fields)[0]?.any (· == 34) else false) = true := by
      cases text with
      | nil => exact nofun
      | cons byte text =>
        have other := (free byte List.mem_cons_self).1
        simp [recordBytes, Field.bytes, other]
    show List.extract _ _ _ = text
    rw [show (Field.plain text free).bytes = text from rfl, if_neg unquoted, if_neg unquoted]
    simp [recordBytes, Field.bytes]
  | quoted content =>
    have length : (Field.quoted content).bytes.length = (doubled content).length + 2 := by
      simp [Field.bytes]
    have quoted : (if (Field.quoted content).bytes.length ≥ 2 then
        (recordBytes (.quoted content) fields)[0]?.any (· == 34) else false) = true := by
      rw [length, if_pos (Nat.le_add_left _ _)]
      rfl
    rw [if_pos quoted, if_pos quoted, length]
    show List.extract _ _ _ = doubled content
    have split : front ++ recordBytes (.quoted content) fields =
        (front ++ [34]) ++ (doubled content ++ ([34] ++ fieldsAfter fields)) := by
      simp [recordBytes, Field.bytes]
    have length : (front ++ [(34 : UInt8)]).length = front.length + 1 := by simp
    rw [split, ← length, List.extract_eq_take_drop, List.drop_left, length,
      show front.length + ((doubled content).length + 2) - 1 - (front.length + 1) =
        (doubled content).length by omega, List.take_left]

theorem visits_record (fields : List Field) (front : List UInt8) (first : Field) :
    (visits (front ++ recordBytes first fields) front.length).map (fun start =>
        (front ++ recordBytes first fields).extract start
          (csvFieldEnd (front ++ recordBytes first fields) start)) =
        (first :: fields).map Field.bytes ∧
      (visits (front ++ recordBytes first fields) front.length).map (fun start =>
        (front ++ recordBytes first fields).extract
          (csvContentStart (front ++ recordBytes first fields) start)
          (csvContentEnd (front ++ recordBytes first fields) start)) =
        (first :: fields).map Field.inner := by
  induction fields generalizing front first with
  | nil =>
    obtain ⟨ends, inner⟩ := cursors_field front first []
    have last : ¬ front.length + first.bytes.length <
        (front ++ recordBytes first []).length := by
      simp [recordBytes, fieldsAfter]
    rw [visits, ends, if_neg last]
    refine ⟨?_, congrArg ([·]) inner⟩
    rw [List.map_singleton, ends]
    simp [recordBytes, fieldsAfter]
  | cons field fields ih =>
    obtain ⟨ends, inner⟩ := cursors_field front first (field :: fields)
    have more : front.length + first.bytes.length <
        (front ++ recordBytes first (field :: fields)).length := by
      simp [recordBytes, fieldsAfter]
    have next : front ++ recordBytes first (field :: fields) =
        (front ++ first.bytes ++ [44]) ++ recordBytes field fields := by
      simp [recordBytes, fieldsAfter]
    have length : (front ++ first.bytes ++ [(44 : UInt8)]).length =
        front.length + first.bytes.length + 1 := by
      simp [Nat.add_assoc]
    obtain ⟨bytes, inners⟩ := ih (front ++ first.bytes ++ [44]) field
    rw [← next, length] at bytes inners
    rw [visits, ends, if_pos more]
    refine ⟨?_, congrArg₂ List.cons inner inners⟩
    rw [List.map_cons, ends, bytes]
    simp [recordBytes]

/-- **The scanners agree.** The records that are accepted are the fields that are joined by commas. Of
such a record the quotes are balanced and the fields counted; they are visited in order from the first
one on, and of each what stands within its quotes, or the whole of a plain one, is delimited. -/
theorem csv_agree (record : List UInt8) :
    (isWellFormedRecord record = true ↔ ∃ first fields, record = recordBytes first fields) ∧
    ∀ first fields, record = recordBytes first fields →
      hasBalancedQuotes record = true ∧
      (visits record 0).map (fun start => record.extract start (csvFieldEnd record start)) =
        (first :: fields).map Field.bytes ∧
      fieldCount record = (first :: fields).length ∧
      (visits record 0).map (fun start =>
        record.extract (csvContentStart record start) (csvContentEnd record start)) =
        (first :: fields).map Field.inner := by
  refine ⟨isWellFormedRecord_iff record, ?_⟩
  rintro first fields rfl
  obtain ⟨whole, inner⟩ := visits_record fields [] first
  refine ⟨?_, whole, ?_, inner⟩
  · rw [hasBalancedQuotes, scan_record]
    rfl
  · rw [fieldCount, scan_record, List.length_cons, Nat.add_comm]

/-- The record `a,"b""c"`. -/
theorem csv_agree_quoted : fieldCount [97, 44, 34, 98, 34, 34, 99, 34] = 2 ∧
    hasBalancedQuotes [97, 44, 34, 98, 34, 34, 99, 34] = true := by
  obtain ⟨balanced, -, counted, -⟩ := (csv_agree [97, 44, 34, 98, 34, 34, 99, 34]).2
    (.plain [97] (by simp)) [.quoted [98, 34, 99]] rfl
  exact ⟨counted, balanced⟩

end Semaprax.Standard
