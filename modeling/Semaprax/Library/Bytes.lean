/-
**Numbers and records as bytes.**

* `leBytes`, `leValue` — a number in so many bytes, least significant first.
* `Readable` — a written value can be told from what follows it: two values that are written in
  front of something the same are the same.
* `Readable.of_length`, `Readable.many` — values of one length, and as many values as are counted.
* `flatMap_inj` — values that can be told from what follows in as far as they are related.
* `Reads` — a reader takes off what a writer puts in front.
* `Parses` — a reader ends with a value on these bytes, whatever follows them.
-/

import Semaprax.Library.Programs

namespace Library

/-- The low bytes of a number, least significant first. -/
def leBytes : Nat → Nat → List UInt8
  | 0, _ => []
  | width + 1, number => UInt8.ofNat number :: leBytes width (number / 256)

/-- The number that bytes write, least significant first. -/
def leValue : List UInt8 → Nat
  | [] => 0
  | byte :: bytes => byte.toNat + 256 * leValue bytes

@[simp]
theorem length_leBytes (width number : Nat) : (leBytes width number).length = width := by
  induction width generalizing number with
  | zero => rfl
  | succ width ih => rw [leBytes, List.length_cons, ih]

theorem leValue_lt (bytes : List UInt8) : leValue bytes < 256 ^ bytes.length := by
  induction bytes with
  | nil => exact Nat.one_pos
  | cons byte bytes ih =>
    have small : byte.toNat < 256 := byte.toNat_lt
    rw [leValue, List.length_cons, pow_succ]
    omega

theorem leValue_leBytes (width number : Nat) :
    leValue (leBytes width number) = number % 256 ^ width := by
  induction width generalizing number with
  | zero => rw [leBytes, leValue, pow_zero, Nat.mod_one]
  | succ width ih =>
    rw [leBytes, leValue, ih, pow_succ', Nat.mod_mul, UInt8.toNat_ofNat']

/-- The number of some bytes is written by them. -/
theorem leBytes_leValue (bytes : List UInt8) : leBytes bytes.length (leValue bytes) = bytes := by
  induction bytes with
  | nil => rfl
  | cons byte bytes ih =>
    have small : byte.toNat < 256 := byte.toNat_lt
    have high : (byte.toNat + 256 * leValue bytes) / 256 = leValue bytes := by omega
    rw [List.length_cons, leValue, leBytes, high, ih]
    congr 1
    apply UInt8.toNat_inj.mp
    rw [UInt8.toNat_ofNat']
    omega

section Readable

variable {A B : Type*} {write : A → List B}

/-- A written value can be told from what follows it. -/
def Readable (write : A → List B) : Prop :=
  ∀ ⦃first second : A⦄ ⦃rest rest' : List B⦄,
    write first ++ rest = write second ++ rest' → first = second ∧ rest = rest'

theorem Readable.of_length {width : Nat} (length : ∀ value, (write value).length = width)
    (injective : Function.Injective write) : Readable write := by
  intro first second rest rest' same
  have equal := List.append_inj same (by rw [length, length])
  exact ⟨injective equal.1, equal.2⟩

theorem flatMap_inj {related : A → A → Prop} {first second : List A} {rest rest' : List B}
    (readable : ∀ ⦃value value' rest rest'⦄, related value value' →
      write value ++ rest = write value' ++ rest' → value = value' ∧ rest = rest')
    (places : List.Forall₂ related first second)
    (same : first.flatMap write ++ rest = second.flatMap write ++ rest') :
    first = second ∧ rest = rest' := by
  induction places with
  | nil => exact ⟨rfl, same⟩
  | cons related _ ih =>
    rw [List.flatMap_cons, List.flatMap_cons, List.append_assoc, List.append_assoc] at same
    obtain ⟨rfl, others⟩ := readable related same
    obtain ⟨rfl, rfl⟩ := ih others
    exact ⟨rfl, rfl⟩

/-- As many values, one after another. -/
theorem Readable.many (readable : Readable write) {first second : List A} {rest rest' : List B}
    (count : first.length = second.length)
    (same : first.flatMap write ++ rest = second.flatMap write ++ rest') :
    first = second ∧ rest = rest' := by
  have places : List.Forall₂ (fun _ _ => True) first second :=
    List.forall₂_iff_get.mpr ⟨count, fun _ _ _ => trivial⟩
  exact flatMap_inj (fun _ _ _ _ _ equal => readable equal) places same

end Readable

section Reads

variable {A B C X : Type} {reader : Prog (List B) X A} {write : A → List B}

/-- The reader takes off what the writer of its value puts in front. -/
def Reads (reader : Prog (List B) X A) (write : A → List B) : Prop :=
  ∀ bytes, reader.wp (fun value rest => bytes = write value ++ rest) (fun _ _ => True) bytes

variable {S : Type}

theorem Reads.step (reads : Reads reader write) {next : A → Prog (List B) X C} {bytes : List B}
    {ends : C → List B → Prop}
    (goes : ∀ value rest, bytes = write value ++ rest →
      (next value).wp ends (fun _ _ => True) rest) :
    (reader >>= next).wp ends (fun _ _ => True) bytes := by
  rw [wp_bind]
  exact wp_mono (reads bytes) goes fun _ _ _ => trivial

/-- A reader that goes on after a refusal has not been refused. -/
theorem stopIf_step {condition : Prop} [Decidable condition] {reason : X}
    {next : Unit → Prog S X C} {state : S} {ends : C → S → Prop}
    (goes : ¬condition → (next ()).wp ends (fun _ _ => True) state) :
    (stopIf condition reason >>= next).wp ends (fun _ _ => True) state := by
  rw [wp_bind, wp_stopIf]
  exact ⟨fun _ => trivial, goes⟩

/-- A program of which nothing is asked. -/
theorem any_step {program : Prog S X A} {next : A → Prog S X C} {state : S}
    {ends : C → S → Prop} (goes : ∀ value after, (next value).wp ends (fun _ _ => True) after) :
    (program >>= next).wp ends (fun _ _ => True) state := by
  rw [wp_bind]
  exact wp_of_forall program goes fun _ _ => trivial

theorem ofOption_step {found : Option B} {reason : X} {next : B → Prog S X C} {state : S}
    {ends : C → S → Prop}
    (goes : ∀ value, found = some value → (next value).wp ends (fun _ _ => True) state) :
    (ofOption reason found >>= next).wp ends (fun _ _ => True) state := by
  rw [wp_bind, wp_ofOption]
  exact ⟨fun _ => trivial, goes⟩

/-- The reader of so many bytes. -/
def takeBytes (reason : X) (length : Nat) : Prog (List B) X (List B) := do
  let bytes ← Prog.get
  stopIf (bytes.length < length) reason
  Prog.set (bytes.drop length)
  pure (bytes.take length)

theorem reads_takeBytes (reason : X) (length : Nat) (bytes : List B) : (takeBytes reason length).wp
      (fun value rest => bytes = value ++ rest ∧ value.length = length) (fun _ _ => True) bytes := by
  unfold takeBytes
  rw [wp_bind, wp_get]
  refine stopIf_step fun enough => ?_
  rw [wp_bind, wp_set, wp_pure, List.length_take]
  exact ⟨(List.take_append_drop length bytes).symm, by omega⟩

/-- What a program that goes on has taken off. -/
theorem take_step {reason : X} {length : Nat} {bytes : List B} {next : List B → Prog (List B) X C}
    {ends : C → List B → Prop} (goes : ∀ value rest, bytes = value ++ rest → value.length = length →
      (next value).wp ends (fun _ _ => True) rest) :
    (takeBytes reason length >>= next).wp ends (fun _ _ => True) bytes := by
  rw [wp_bind]
  exact wp_mono (reads_takeBytes reason length bytes)
    (fun value rest split => goes value rest split.1 split.2) fun _ _ _ => trivial

theorem ended_of_wp {program : Prog S X A} {state : S} {ends : A → S → Prop} {value : A}
    (meets : program.wp ends (fun _ _ => True) state) (ended : (program state).1 = .ok value) :
    ∃ after, ends value after := by
  rcases wp_run meets with ⟨found, after, ran, ending⟩ | ⟨reason, after, ran, _⟩
  · rw [ran] at ended
    cases ended
    exact ⟨after, ending⟩
  · rw [ran] at ended
    cases ended

def readMany (reader : Prog (List B) X A) : Nat → Prog (List B) X (List A)
  | 0 => pure []
  | count + 1 => do
      let value ← reader
      let values ← readMany reader count
      pure (value :: values)

theorem Reads.many (reads : Reads reader write) (count : Nat) (bytes : List B) :
    (readMany reader count).wp
      (fun values rest => bytes = values.flatMap write ++ rest ∧ values.length = count)
      (fun _ _ => True) bytes := by
  induction count generalizing bytes with
  | zero => exact (wp_pure _).mpr ⟨rfl, rfl⟩
  | succ count ih =>
    unfold readMany
    refine reads.step fun value rest split => ?_
    rw [wp_bind]
    refine wp_mono (ih rest) (fun values rest' splits => ?_) fun _ _ _ => trivial
    rw [wp_pure, split, splits.1, List.flatMap_cons, List.append_assoc, List.length_cons, splits.2]
    exact ⟨rfl, rfl⟩

theorem Reads.many_step (reads : Reads reader write) {count : Nat}
    {next : List A → Prog (List B) X C}
    {bytes : List B} {ends : C → List B → Prop}
    (goes : ∀ values rest, bytes = values.flatMap write ++ rest → values.length = count →
      (next values).wp ends (fun _ _ => True) rest) :
    (readMany reader count >>= next).wp ends (fun _ _ => True) bytes := by
  rw [wp_bind]
  exact wp_mono (reads.many count bytes)
    (fun values rest split => goes values rest split.1 split.2) fun _ _ _ => trivial

end Reads

section Parses

variable {A B C X : Type} {reader : Prog (List B) X A} {bytes bytes' : List B} {value : A}

/-- The reader takes these bytes off whatever follows them, and ends with the value. -/
def Parses (reader : Prog (List B) X A) (bytes : List B) (value : A) : Prop :=
  ∀ rest, reader (bytes ++ rest) = (.ok value, rest)

variable {condition : Prop}

theorem parses_pure : Parses (pure value : Prog (List B) X A) [] value := fun _ => rfl

theorem Parses.bind {next : A → Prog (List B) X C} {result : C} (first : Parses reader bytes value)
    (later : Parses (next value) bytes' result) :
    Parses (reader >>= next) (bytes ++ bytes') result := by
  intro rest
  simp only [Bind.bind]
  rw [List.append_assoc, first]
  exact later rest

/-- The last step of a reader that goes on. -/
theorem Parses.map {result : C} {change : A → C} (first : Parses reader bytes value)
    (same : change value = result) :
    Parses (reader >>= fun value => pure (change value)) bytes result := by
  have whole : Parses (reader >>= fun value => pure (change value)) (bytes ++ []) (change value) :=
    first.bind parses_pure
  rwa [List.append_nil, same] at whole

theorem Parses.stopIf_bind [Decidable condition] {reason : X}
    {next : Unit → Prog (List B) X C} {result : C} (holds : ¬condition)
    (later : Parses (next ()) bytes result) :
    Parses (stopIf condition reason >>= next) bytes result := by
  intro rest
  simp only [Bind.bind, stopIf, if_neg holds]
  exact later rest

theorem parses_takeBytes {reason : X} {length : Nat} (same : bytes.length = length) :
    Parses (takeBytes reason length) bytes bytes := by
  subst same
  intro rest
  have fits : ¬(bytes ++ rest).length < bytes.length := by
    rw [List.length_append]
    omega
  simp only [takeBytes, Bind.bind, Prog.get, Prog.step, stopIf, if_neg fits]
  show (Except.ok ((bytes ++ rest).take bytes.length), (bytes ++ rest).drop bytes.length) = _
  rw [List.take_left, List.drop_left]

theorem Parses.finish {next : A → Prog (List B) X C} {outcome : Except X C × List B}
    (first : Parses reader bytes value) (later : next value bytes' = outcome) :
    (reader >>= next) (bytes ++ bytes') = outcome := by
  simp only [Bind.bind]
  rw [first]
  exact later

theorem finish_stopIf [Decidable condition] {reason : X}
    {next : Unit → Prog (List B) X C} {outcome : Except X C × List B} (holds : ¬condition)
    (later : next () bytes = outcome) : (stopIf condition reason >>= next) bytes = outcome := by
  simp only [Bind.bind, stopIf, if_neg holds]
  exact later

theorem Parses.many {write : A → List B} {values : List A}
    (each : ∀ value ∈ values, Parses reader (write value) value) :
    Parses (readMany reader values.length) (values.flatMap write) values := by
  induction values with
  | nil => exact parses_pure
  | cons value values ih =>
    rw [List.flatMap_cons]
    refine (each value List.mem_cons_self).bind ?_
    exact (ih fun other member => each other (List.mem_cons_of_mem _ member)).map rfl

end Parses

end Library
