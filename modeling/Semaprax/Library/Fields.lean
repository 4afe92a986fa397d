/-
**Fields at an offset of fixed bytes.**

A reader is given all bytes and keeps an offset into them. A field is written behind its length.

* `encodeText`, `decodeText` — a text and its bytes.
* `framed` — a field behind its length; `framed_inj` — it can be told from what follows it.
* `Takes` — a reader takes off what a writer puts in front, or stops for a reason that is allowed.
* `Finds` — a reader ends with a value where these bytes stand, whatever follows them.
-/

import Semaprax.Library.Bytes

namespace Library

def encodeText (text : String) : List UInt8 := text.toUTF8.data.toList

def decodeText (bytes : List UInt8) : Option String := String.fromUTF8? ⟨bytes.toArray⟩

variable {width first second : Nat} {rest rest' : List UInt8}

theorem decodeText_encodeText (text : String) : decodeText (encodeText text) = some text := by
  unfold decodeText encodeText String.fromUTF8?
  rw [Array.toArray_toList]
  exact dif_pos text.isValidUTF8

theorem encodeText_of_decodeText {bytes : List UInt8} {text : String}
    (read : decodeText bytes = some text) : encodeText text = bytes := by
  unfold decodeText String.fromUTF8? at read
  split_ifs at read with valid
  obtain rfl := Option.some.inj read
  rfl

theorem encodeText_injective : Function.Injective encodeText := by
  intro first second same
  have read := decodeText_encodeText first
  rw [same, decodeText_encodeText] at read
  exact (Option.some.inj read).symm

/-- A field behind its length. -/
def framed (bytes : List UInt8) : List UInt8 := leBytes 8 bytes.length ++ bytes

@[simp]
theorem length_framed (bytes : List UInt8) : (framed bytes).length = 8 + bytes.length := by
  rw [framed, List.length_append, length_leBytes]

theorem leBytes_inj (small : first < 256 ^ width)
    (small' : second < 256 ^ width) (same : leBytes width first = leBytes width second) :
    first = second := by
  have values := congrArg leValue same
  rwa [leValue_leBytes, leValue_leBytes, Nat.mod_eq_of_lt small, Nat.mod_eq_of_lt small'] at values

/-- A number can be told from what follows it. -/
theorem leBytes_append_inj (small : first < 256 ^ width) (small' : second < 256 ^ width)
    (same : leBytes width first ++ rest = leBytes width second ++ rest') :
    first = second ∧ rest = rest' := by
  have parts := List.append_inj same (by rw [length_leBytes, length_leBytes])
  exact ⟨leBytes_inj small small' parts.1, parts.2⟩

/-- **A field can be told from what follows it** where all lengths are numbers of eight bytes. -/
theorem framed_inj {first second : List UInt8} (small : (framed first ++ rest).length < 256 ^ 8)
    (same : framed first ++ rest = framed second ++ rest') :
    first = second ∧ rest = rest' ∧ rest.length < 256 ^ 8 := by
  have small' := small
  rw [same] at small'
  rw [List.length_append, length_framed] at small small'
  rw [framed, framed, List.append_assoc, List.append_assoc] at same
  obtain ⟨lengths, fields⟩ := leBytes_append_inj (by omega) (by omega) same
  obtain ⟨rfl, rfl⟩ := List.append_inj fields lengths
  exact ⟨rfl, rfl, by omega⟩

theorem framed_text_inj {first second : String}
    (small : (framed (encodeText first) ++ rest).length < 256 ^ 8)
    (same : framed (encodeText first) ++ rest = framed (encodeText second) ++ rest') :
    first = second ∧ rest = rest' ∧ rest.length < 256 ^ 8 := by
  obtain ⟨fields, rests⟩ := framed_inj small same
  exact ⟨encodeText_injective fields, rests⟩

section Takes

variable {A B C X : Type} {bytes : List B} {reader : Prog Nat X A} {write : A → List B}
  {allowed : X → Prop} {offset : Nat}

/-- The reader takes off what the writer of its value puts in front, or stops for a reason that is
allowed. -/
def Takes (bytes : List B) (reader : Prog Nat X A) (write : A → List B) (allowed : X → Prop) :
    Prop :=
  ∀ offset ≤ bytes.length, reader.wp
    (fun value next => next ≤ bytes.length ∧ bytes.drop offset = write value ++ bytes.drop next)
    (fun reason _ => allowed reason) offset

/-- What a program that goes on has taken off. -/
theorem Takes.step (takes : Takes bytes reader write allowed) (inside : offset ≤ bytes.length)
    {next : A → Prog Nat X C} {ends : C → Nat → Prop}
    (goes : ∀ value after, after ≤ bytes.length →
      bytes.drop offset = write value ++ bytes.drop after →
        (next value).wp ends (fun reason _ => allowed reason) after) :
    (reader >>= next).wp ends (fun reason _ => allowed reason) offset := by
  rw [wp_bind]
  exact wp_mono (takes offset inside) (fun value after taken => goes value after taken.1 taken.2)
    fun _ _ => id

/-- How far a reader goes. -/
theorem offset_of_drop {written : List B} {after : Nat} (inside : offset ≤ bytes.length)
    (inside' : after ≤ bytes.length) (taken : bytes.drop offset = written ++ bytes.drop after) :
    after = offset + written.length := by
  have lengths := congrArg List.length taken
  rw [List.length_append, List.length_drop, List.length_drop] at lengths
  omega

theorem stopIf_goes {condition : Prop} [Decidable condition] {reason : X}
    {next : Unit → Prog Nat X C} {ends : C → Nat → Prop} (stops : condition → allowed reason)
    (goes : ¬condition → (next ()).wp ends (fun reason _ => allowed reason) offset) :
    (stopIf condition reason >>= next).wp ends (fun reason _ => allowed reason) offset := by
  rw [wp_bind, wp_stopIf]
  exact ⟨stops, goes⟩

theorem ofOption_goes {found : Option A} {reason : X} {next : A → Prog Nat X C}
    {ends : C → Nat → Prop} (stops : found = none → allowed reason)
    (goes : ∀ value, found = some value →
      (next value).wp ends (fun reason _ => allowed reason) offset) :
    (ofOption reason found >>= next).wp ends (fun reason _ => allowed reason) offset := by
  rw [wp_bind, wp_ofOption]
  exact ⟨stops, goes⟩

end Takes

section Finds

variable {A B C X : Type} {bytes written written' : List B} {reader : Prog Nat X A} {value : A}

/-- Where these bytes stand the reader ends with the value behind them. -/
def Finds (bytes : List B) (reader : Prog Nat X A) (written : List B) (value : A) : Prop :=
  ∀ offset rest, bytes.drop offset = written ++ rest →
    reader offset = (.ok value, offset + written.length)

variable {S : Type} {condition : Prop}

theorem drop_behind {offset : Nat} {rest : List B} (stands : bytes.drop offset = written ++ rest) :
    bytes.drop (offset + written.length) = rest := by
  rw [← List.drop_drop, stands, List.drop_left]

theorem run_get {next : S → Prog S X C} {state : S} :
    (Prog.get >>= next) state = next state state := rfl

theorem run_set {next : Unit → Prog S X C} {state after : S} :
    (Prog.set after >>= next) state = next () after := rfl

theorem run_ofOption {found : Option A} {reason : X} {next : A → Prog S X C} {state : S}
    (same : found = some value) : (ofOption reason found >>= next) state = next value state := by
  subst same
  rfl

theorem run_stopIf [Decidable condition] {reason : X}
    {next : Unit → Prog S X C} {state : S} (holds : ¬condition) :
    (stopIf condition reason >>= next) state = next () state := by
  simp only [Bind.bind, stopIf, if_neg holds]
  rfl

theorem finds_pure : Finds bytes (pure value : Prog Nat X A) [] value := fun _ _ _ => rfl

theorem Finds.bind {next : A → Prog Nat X C} {result : C} (first : Finds bytes reader written value)
    (later : Finds bytes (next value) written' result) :
    Finds bytes (reader >>= next) (written ++ written') result := by
  intro offset rest stands
  rw [List.append_assoc] at stands
  rw [run_bind (first offset _ stands), later _ rest (drop_behind stands), List.length_append,
    Nat.add_assoc]

/-- The last reader of a program. -/
theorem Finds.map {next : A → Prog Nat X C} {result : C} (first : Finds bytes reader written value)
    (later : Finds bytes (next value) [] result) :
    Finds bytes (reader >>= next) written result := by
  have whole := first.bind later
  rwa [List.append_nil] at whole

theorem Finds.stopIf_bind [Decidable condition] {reason : X}
    {next : Unit → Prog Nat X C} {result : C} (holds : ¬condition)
    (later : Finds bytes (next ()) written result) :
    Finds bytes (stopIf condition reason >>= next) written result := by
  intro offset rest stands
  rw [run_stopIf holds]
  exact later offset rest stands

theorem Finds.ofOption_bind {found : Option A} {reason : X} {next : A → Prog Nat X C} {result : C}
    (same : found = some value) (later : Finds bytes (next value) written result) :
    Finds bytes (ofOption reason found >>= next) written result := by
  intro offset rest stands
  rw [run_ofOption same]
  exact later offset rest stands

end Finds

end Library
