/-
**Lines and words of a text.**

A text is cut at its newlines into lines, and a line at its whitespace into words. Words that are
written with one space between them, and lines that are ended with a newline each, are read back.

* `isWhitespace`, `trim`, `lines`, `words` — the cuts.
* `IsWord` — a word, as the cut yields it; `isWord_of_mem_words`.
* `words_unwords`, `trim_unwords`, `unwords_single`, `lines_unlines` — what is written is read back.
-/

import Mathlib

namespace Library

/-- The property `White_Space` of Unicode. -/
def isWhitespace (letter : Char) : Bool :=
  (0x9 ≤ letter.toNat && letter.toNat ≤ 0xd) || letter.toNat = 0x20 || letter.toNat = 0x85 ||
    letter.toNat = 0xa0 || letter.toNat = 0x1680 ||
    (0x2000 ≤ letter.toNat && letter.toNat ≤ 0x200a) || letter.toNat = 0x2028 ||
    letter.toNat = 0x2029 || letter.toNat = 0x202f || letter.toNat = 0x205f ||
    letter.toNat = 0x3000

/-- A text without the whitespace at its ends. -/
def trim (text : List Char) : List Char := (text.dropWhile isWhitespace).rdropWhile isWhitespace

/-- A line without the carriage return at its end. -/
def stripReturn (line : List Char) : List Char :=
  if line.getLast? = some '\r' then line.dropLast else line

def linesFrom (held : List Char) : List Char → List (List Char)
  | [] => if held.isEmpty then [] else [held]
  | letter :: text =>
    if letter = '\n' then stripReturn held :: linesFrom [] text
    else linesFrom (held ++ [letter]) text

def lines (text : List Char) : List (List Char) := linesFrom [] text

def wordsFrom (held : List Char) : List Char → List (List Char)
  | [] => if held.isEmpty then [] else [held]
  | letter :: text =>
    if isWhitespace letter then
      if held.isEmpty then wordsFrom [] text else held :: wordsFrom [] text
    else wordsFrom (held ++ [letter]) text

def words (text : List Char) : List (List Char) := wordsFrom [] text

/-- Words with one space between them. -/
def unwords (parts : List (List Char)) : List Char := [' '].intercalate parts

/-- Lines, each with a newline at its end. -/
def unlines (parts : List (List Char)) : List Char := parts.flatMap (· ++ ['\n'])

/-- A word has letters, and none of them is whitespace. -/
structure IsWord (word : List Char) : Prop where
  nonempty : word ≠ []
  solid : ∀ letter ∈ word, isWhitespace letter = false

section Words

variable {held word line text : List Char} {parts : List (List Char)}

variable {letter : Char}

theorem wordsFrom_isWord (solid : ∀ letter ∈ held, isWhitespace letter = false) :
    ∀ word ∈ wordsFrom held text, IsWord word := by
  induction text generalizing held with
  | nil =>
    intro word member
    unfold wordsFrom at member
    split_ifs at member with empty
    · cases member
    · obtain rfl := List.mem_singleton.mp member
      exact ⟨fun none => empty (List.isEmpty_iff.mpr none), solid⟩
  | cons letter text ih =>
    intro word member
    have fresh := ih (List.forall_mem_nil _ : ∀ letter ∈ [], _)
    unfold wordsFrom at member
    split_ifs at member with space empty
    · exact fresh word member
    · rcases List.mem_cons.mp member with rfl | member
      · exact ⟨fun none => empty (List.isEmpty_iff.mpr none), solid⟩
      · exact fresh word member
    · refine ih (fun other among => ?_) word member
      rcases List.mem_append.mp among with among | among
      · exact solid other among
      · rw [List.mem_singleton.mp among]
        exact Bool.not_eq_true _ ▸ space

theorem isWord_of_mem_words (member : word ∈ words text) : IsWord word :=
  wordsFrom_isWord (List.forall_mem_nil _) word member

theorem wordsFrom_append (solid : ∀ letter ∈ word, isWhitespace letter = false) :
    wordsFrom held (word ++ text) = wordsFrom (held ++ word) text := by
  induction word generalizing held with
  | nil => rw [List.nil_append, List.append_nil]
  | cons letter word ih =>
    rw [List.cons_append, wordsFrom, solid letter List.mem_cons_self]
    rw [if_neg Bool.false_ne_true, ih fun other member => solid other (List.mem_cons_of_mem _ member),
      List.append_assoc]
    rfl

theorem unwords_singleton (word : List Char) : unwords [word] = word := List.append_nil word

theorem unwords_cons (word : List Char) (more : parts ≠ []) :
    unwords (word :: parts) = word ++ ' ' :: unwords parts := by
  obtain ⟨next, parts, rfl⟩ := List.exists_cons_of_ne_nil more
  rfl

section AllWords

variable (isWord : ∀ word ∈ parts, IsWord word)

include isWord

/-- **Words are read back.** -/
theorem words_unwords : words (unwords parts) = parts := by
  induction parts with
  | nil => rfl
  | cons word parts ih =>
    have first := isWord word List.mem_cons_self
    have rest := ih fun other member => isWord other (List.mem_cons_of_mem _ member)
    have some' : word.isEmpty = false := by
      rw [List.isEmpty_eq_false_iff]
      exact first.nonempty
    by_cases last : parts = []
    · rw [last, unwords_singleton]
      show wordsFrom [] word = _
      conv_lhs => rw [← List.append_nil word]
      rw [wordsFrom_append first.solid, List.nil_append, wordsFrom, some']
      rfl
    · rw [unwords_cons word last]
      show wordsFrom [] (word ++ _) = _
      rw [wordsFrom_append first.solid, List.nil_append, wordsFrom, some']
      exact congrArg (word :: ·) rest

theorem unwords_ne_nil (some' : parts ≠ []) : unwords parts ≠ [] := by
  obtain ⟨word, parts, rfl⟩ := List.exists_cons_of_ne_nil some'
  have first := (isWord word List.mem_cons_self).nonempty
  by_cases last : parts = []
  · rw [last, unwords_singleton]
    exact first
  · rw [unwords_cons word last]
    exact fun none => first (List.append_eq_nil_iff.mp none).1

/-- The first letter is that of the first word. -/
theorem head?_unwords : (unwords parts).head? = parts.head?.bind List.head? := by
  cases parts with
  | nil => rfl
  | cons word parts =>
    have first := (isWord word List.mem_cons_self).nonempty
    by_cases last : parts = []
    · rw [last, unwords_singleton]
      rfl
    · rw [unwords_cons word last, List.head?_append_of_ne_nil _ first]
      rfl

theorem getLast?_unwords
    (ends : (unwords parts).getLast? = some letter) : isWhitespace letter = false := by
  induction parts with
  | nil => cases ends
  | cons word parts ih =>
    have rest : ∀ other ∈ parts, IsWord other := fun other member =>
      isWord other (List.mem_cons_of_mem _ member)
    by_cases last : parts = []
    · rw [last, unwords_singleton] at ends
      exact (isWord word List.mem_cons_self).solid letter (List.mem_of_getLast? ends)
    · rw [unwords_cons word last, List.getLast?_append_of_ne_nil _ (List.cons_ne_nil _ _),
        List.getLast?_cons_of_ne_nil (unwords_ne_nil rest last)] at ends
      exact ih rest ends

/-- Words with spaces between them have no whitespace at their ends. -/
theorem trim_unwords : trim (unwords parts) = unwords parts := by
  have front : (unwords parts).dropWhile isWhitespace = unwords parts := by
    have opens := head?_unwords isWord
    cases equal : unwords parts with
    | nil => rfl
    | cons letter rest =>
      rw [equal] at opens
      obtain ⟨word, first, starts⟩ := Option.bind_eq_some_iff.mp opens.symm
      have solid := (isWord word (List.mem_of_head? first)).solid letter (List.mem_of_head? starts)
      exact List.dropWhile_cons_of_neg (by rw [solid]; exact Bool.false_ne_true)
  unfold trim
  rw [front, List.rdropWhile_eq_self_iff]
  intro some' space
  have solid := getLast?_unwords isWord (List.getLast?_eq_getLast_of_ne_nil some')
  rw [solid] at space
  cases space

end AllWords

theorem mem_unwords (member : letter ∈ unwords parts) :
    letter = ' ' ∨ ∃ word ∈ parts, letter ∈ word := by
  induction parts with
  | nil => cases member
  | cons word parts ih =>
    by_cases last : parts = []
    · rw [last, unwords_singleton] at member
      exact .inr ⟨word, List.mem_cons_self, member⟩
    · rw [unwords_cons word last] at member
      rcases List.mem_append.mp member with member | member
      · exact .inr ⟨word, List.mem_cons_self, member⟩
      · rcases List.mem_cons.mp member with same | member
        · exact .inl same
        · rcases ih member with same | ⟨other, among, member⟩
          · exact .inl same
          · exact .inr ⟨other, List.mem_cons_of_mem _ among, member⟩

/-- Words with spaces between them are one line. -/
theorem unwords_single (isWord : ∀ word ∈ parts, IsWord word) :
    '\n' ∉ unwords parts ∧ (unwords parts).getLast? ≠ some '\r' := by
  constructor
  · intro member
    rcases mem_unwords member with same | ⟨word, among, member⟩
    · exact absurd same (by decide)
    · exact absurd ((isWord word among).solid _ member) (by decide)
  · intro ends
    exact absurd (getLast?_unwords isWord ends) (by decide)

/-- Letters that are no newline are held. -/
theorem linesFrom_append (single : '\n' ∉ line) :
    linesFrom held (line ++ text) = linesFrom (held ++ line) text := by
  induction line generalizing held with
  | nil => rw [List.nil_append, List.append_nil]
  | cons letter line ih =>
    have other : letter ≠ '\n' := fun same => single (same ▸ List.mem_cons_self)
    rw [List.cons_append, linesFrom, if_neg other,
      ih fun member => single (List.mem_cons_of_mem _ member), List.append_assoc]
    rfl

theorem unlines_cons (line : List Char) (parts : List (List Char)) :
    unlines (line :: parts) = line ++ '\n' :: unlines parts := by
  unfold unlines
  rw [List.flatMap_cons, List.append_assoc]
  rfl

theorem unlines_append (first second : List (List Char)) :
    unlines (first ++ second) = unlines first ++ unlines second := List.flatMap_append

/-- **Lines are read back,** unless they have a newline or a carriage return at their end. -/
theorem lines_unlines (single : ∀ line ∈ parts, '\n' ∉ line ∧ line.getLast? ≠ some '\r') :
    lines (unlines parts) = parts := by
  induction parts with
  | nil => rfl
  | cons line parts ih =>
    obtain ⟨alone, unreturned⟩ := single line List.mem_cons_self
    have rest := ih fun other member => single other (List.mem_cons_of_mem _ member)
    rw [unlines_cons]
    unfold lines
    rw [linesFrom_append alone, List.nil_append, linesFrom, if_pos rfl]
    unfold stripReturn
    rw [if_neg unreturned]
    exact congrArg (line :: ·) rest

end Words

end Library
