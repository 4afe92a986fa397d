/-
**Reading UTF-8 in parts.**

`confirm` reads the whole characters at the front of some bytes: what it leaves is either broken, so
that no further bytes make it a character, or it is cut off and may still become one.

* `expected` — the ranges of the bytes that follow the first byte of a character.
* `confirm_append` — what is confirmed of more bytes is what is confirmed of the first, and then of
  the bytes that were left over, with the rest after them.
* `confirm_broken` — what is broken stays so.
-/

import Mathlib

namespace Library

/-- The ranges of the bytes after the first byte of a character; `none` if none begins with it. -/
def expected (first : UInt8) : Option (List (UInt8 × UInt8)) :=
  if first < 0x80 then some []
  else if first < 0xc2 then none
  else if first ≤ 0xdf then some [(0x80, 0xbf)]
  else if first = 0xe0 then some [(0xa0, 0xbf), (0x80, 0xbf)]
  else if first = 0xed then some [(0x80, 0x9f), (0x80, 0xbf)]
  else if first ≤ 0xef then some [(0x80, 0xbf), (0x80, 0xbf)]
  else if first = 0xf0 then some [(0x90, 0xbf), (0x80, 0xbf), (0x80, 0xbf)]
  else if first ≤ 0xf3 then some [(0x80, 0xbf), (0x80, 0xbf), (0x80, 0xbf)]
  else if first = 0xf4 then some [(0x80, 0x8f), (0x80, 0xbf), (0x80, 0xbf)]
  else none

def prepend (front : List UInt8) (result : List UInt8 × Bool) : List UInt8 × Bool :=
  (front ++ result.1, result.2)

/-- The whole characters of some bytes, and whether what follows them is broken. Of a character that
is begun, `held` are the bytes so far, and `ranges` those of the bytes to come. -/
def confirmFrom : List (UInt8 × UInt8) → List UInt8 → List UInt8 → List UInt8 × Bool
  | _, _, [] => ([], false)
  | [], _, byte :: bytes =>
    match expected byte with
    | none => ([], true)
    | some [] => prepend [byte] (confirmFrom [] [] bytes)
    | some (range :: ranges) => confirmFrom (range :: ranges) [byte] bytes
  | (low, high) :: ranges, held, byte :: bytes =>
    if low ≤ byte ∧ byte ≤ high then
      if ranges.isEmpty then prepend (held ++ [byte]) (confirmFrom [] [] bytes)
      else confirmFrom ranges (held ++ [byte]) bytes
    else ([], true)

/-- The whole characters at the front of some bytes, and whether what follows them is broken. -/
def confirm (bytes : List UInt8) : List UInt8 × Bool := confirmFrom [] [] bytes

section Confirm

variable {ranges : List (UInt8 × UInt8)} {held bytes text : List UInt8} {broken : Bool}

theorem prepend_eq {front : List UInt8} {result : List UInt8 × Bool} :
    prepend front result = (text, broken) ↔
      ∃ rest, result = (rest, broken) ∧ text = front ++ rest := by
  obtain ⟨rest, flag⟩ := result
  constructor
  · intro same
    obtain ⟨rfl, rfl⟩ := Prod.mk.inj same
    exact ⟨rest, rfl, rfl⟩
  · rintro ⟨rest, same, rfl⟩
    obtain ⟨rfl, rfl⟩ := Prod.mk.inj same
    rfl

theorem prepend_prepend (first second : List UInt8) (result : List UInt8 × Bool) :
    prepend first (prepend second result) = prepend (first ++ second) result := by
  unfold prepend
  rw [List.append_assoc]

/-- The bytes that are held are those of a character that is begun, and want the ranges. -/
structure Holds (ranges : List (UInt8 × UInt8)) (held : List UInt8) : Prop where
  reads : ∀ bytes, confirm (held ++ bytes) = confirmFrom ranges held bytes
  none : ranges = [] → held = []

theorem Holds.nil : Holds [] [] := ⟨fun _ => rfl, fun _ => rfl⟩

theorem Holds.first {byte : UInt8} {range : UInt8 × UInt8}
    (begun : expected byte = some (range :: ranges)) : Holds (range :: ranges) [byte] where
  reads := fun bytes => by
    show confirmFrom [] [] (byte :: bytes) = _
    rw [confirmFrom, begun]
  none := fun empty => by cases empty

theorem Holds.next {byte low high : UInt8} (holds : Holds ((low, high) :: ranges) held)
    (fits : low ≤ byte ∧ byte ≤ high) (wants : ¬ ranges.isEmpty = true) :
    Holds ranges (held ++ [byte]) where
  reads := fun bytes => by
    have whole := holds.reads (byte :: bytes)
    rw [confirmFrom, if_pos fits, if_neg wants] at whole
    rw [List.append_assoc]
    exact whole
  none := fun empty => absurd (List.isEmpty_iff.mpr empty) wants

/-- **What is broken stays so,** whatever follows. -/
theorem confirmFrom_broken (more : List UInt8)
    (read : confirmFrom ranges held bytes = (text, true)) :
    confirmFrom ranges held (bytes ++ more) = (text, true) := by
  induction bytes generalizing ranges held text with
  | nil =>
    rw [confirmFrom] at read
    cases read
  | cons byte bytes ih =>
    rw [List.cons_append]
    cases ranges with
    | nil =>
      rw [confirmFrom] at read ⊢
      cases begun : expected byte with
      | none =>
        rw [begun] at read
        exact read
      | some wanted =>
        rw [begun] at read
        cases wanted with
        | nil =>
          obtain ⟨rest, broken, rfl⟩ := prepend_eq.mp read
          exact prepend_eq.mpr ⟨rest, ih broken, rfl⟩
        | cons range ranges => exact ih read
    | cons range ranges =>
      obtain ⟨low, high⟩ := range
      rw [confirmFrom] at read ⊢
      by_cases fits : low ≤ byte ∧ byte ≤ high
      · rw [if_pos fits] at read ⊢
        by_cases last : ranges.isEmpty = true
        · rw [if_pos last] at read ⊢
          obtain ⟨rest, broken, rfl⟩ := prepend_eq.mp read
          exact prepend_eq.mpr ⟨rest, ih broken, rfl⟩
        · rw [if_neg last] at read ⊢
          exact ih read
      · rw [if_neg fits] at read ⊢
        exact read

/-- What is cut off is read again with the bytes that follow. -/
theorem confirmFrom_append (holds : Holds ranges held)
    (read : confirmFrom ranges held bytes = (text, false)) :
    ∃ left, held ++ bytes = text ++ left ∧
      ∀ more, confirmFrom ranges held (bytes ++ more) = prepend text (confirm (left ++ more)) := by
  induction bytes generalizing ranges held text with
  | nil =>
    rw [confirmFrom] at read
    obtain ⟨rfl, -⟩ := Prod.mk.inj read
    exact ⟨held, by rw [List.append_nil, List.nil_append], fun more => (holds.reads more).symm⟩
  | cons byte bytes ih =>
    cases ranges with
    | nil =>
      obtain rfl := holds.none rfl
      rw [confirmFrom] at read
      cases begun : expected byte with
      | none =>
        rw [begun] at read
        cases read
      | some wanted =>
        rw [begun] at read
        cases wanted with
        | nil =>
          obtain ⟨rest, cut, rfl⟩ := prepend_eq.mp read
          obtain ⟨left, parted, again⟩ := ih .nil cut
          refine ⟨left, ?_, fun more => ?_⟩
          · rw [List.append_assoc, ← parted]
            rfl
          · rw [List.cons_append, confirmFrom, begun]
            show prepend [byte] (confirmFrom [] [] (bytes ++ more)) = _
            rw [again, prepend_prepend]
        | cons range ranges =>
          obtain ⟨left, parted, again⟩ := ih (.first begun) read
          refine ⟨left, parted, fun more => ?_⟩
          rw [List.cons_append, confirmFrom, begun]
          exact again more
    | cons range ranges =>
      obtain ⟨low, high⟩ := range
      rw [confirmFrom] at read
      by_cases fits : low ≤ byte ∧ byte ≤ high
      · rw [if_pos fits] at read
        by_cases last : ranges.isEmpty = true
        · rw [if_pos last] at read
          obtain ⟨rest, cut, rfl⟩ := prepend_eq.mp read
          obtain ⟨left, parted, again⟩ := ih .nil cut
          refine ⟨left, ?_, fun more => ?_⟩
          · rw [List.append_assoc, ← parted]
            simp
          · rw [List.cons_append, confirmFrom, if_pos fits, if_pos last, again, prepend_prepend]
        · rw [if_neg last] at read
          obtain ⟨left, parted, again⟩ :=
            ih (holds.next fits last) read
          refine ⟨left, ?_, fun more => ?_⟩
          · rw [← parted]
            simp
          · rw [List.cons_append, confirmFrom, if_pos fits, if_neg last, again]
      · rw [if_neg fits] at read
        cases read

theorem confirm_broken (more : List UInt8) (read : confirm bytes = (text, true)) :
    confirm (bytes ++ more) = (text, true) :=
  confirmFrom_broken more read

/-- **Reading in parts.** What is confirmed of the bytes stands, and the bytes that are left over are
read again with those that follow. -/
theorem confirm_append (read : confirm bytes = (text, false)) : ∃ left, bytes = text ++ left ∧
      ∀ more, confirm (bytes ++ more) = prepend text (confirm (left ++ more)) :=
  confirmFrom_append .nil read

end Confirm

end Library
