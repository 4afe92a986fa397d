/-
**Programs over a state that may stop early.**

A program reads and changes a state and ends with a value, or stops early for a reason. What it
guarantees from a given state is a weakest precondition: `Prog.wp program ends stops state` says that
from `state` the program ends with a value and a state in `ends`, or stops for a reason and in a
state in `stops`.

* `wp_bind`, `wp_pure`, `wp_stop`, `wp_step` — the precondition of each way to build a program.
* `onFirst`, `onSecond`, `withSecond`, `attempt`, `mapStop` — a program on one half of a state, or with its stops
  caught or renamed.
* `Mirrors` — two programs that run alike from a state and from its image.
* `wp_mono` — a program guarantees whatever follows from what it guarantees.
* `run_bind`, `wp.ended` — where a run of a program leads, and what is guaranteed of it.
-/

import Mathlib

namespace Library

/-- A computation over the state `S` that may stop early for a reason in `X`. -/
def Prog (S X A : Type) : Type := S → Except X A × S

namespace Prog

variable {S T X Y A B : Type}

instance : Monad (Prog S X) where
  pure value := fun state => (.ok value, state)
  bind program rest := fun state =>
    match program state with
    | (.ok value, state) => rest value state
    | (.error reason, state) => (.error reason, state)

def stop (reason : X) : Prog S X A := fun state => (.error reason, state)

/-- A step that always ends. -/
def step (change : S → A × S) : Prog S X A := fun state =>
  let (value, state) := change state
  (.ok value, state)

/-- Read the state. -/
def get : Prog S X S := step fun state => (state, state)

def set (state : S) : Prog S X Unit := step fun _ => ((), state)

def stopIf (condition : Prop) [Decidable condition] (reason : X) : Prog S X Unit :=
  if condition then stop reason else pure ()

def ofOption (reason : X) : Option A → Prog S X A
  | some value => pure value
  | none => stop reason

/-- Run on the first half of a state. -/
def onFirst (program : Prog S X A) : Prog (S × T) X A := fun state =>
  ((program state.1).1, ((program state.1).2, state.2))

/-- Run on the second half of a state. -/
def onSecond (program : Prog T X A) : Prog (S × T) X A := fun state =>
  ((program state.2).1, (state.1, (program state.2).2))

/-- Run with another half of the state that is dropped afterwards. -/
def withSecond (other : T) (program : Prog (S × T) X A) : Prog S X A := fun state =>
  ((program (state, other)).1, (program (state, other)).2.1)

/-- Run a program and go on if it stops. -/
def attempt (program : Prog S X A) : Prog S Y (Option A) := fun state =>
  ((program state).1.toOption |> .ok, (program state).2)

/-- Stop for a reason of another kind. -/
def mapStop (translate : X → Y) (program : Prog S X A) : Prog S Y A := fun state =>
  ((program state).1.mapError translate, (program state).2)

/-- From `state` the program ends in `ends`, or stops in `stops`. -/
def wp (program : Prog S X A) (ends : A → S → Prop) (stops : X → S → Prop) (state : S) : Prop :=
  match program state with
  | (.ok value, state) => ends value state
  | (.error reason, state) => stops reason state

theorem bind_assoc {C : Type} (program : Prog S X A) (middle : A → Prog S X B)
    (rest : B → Prog S X C) :
    (program >>= middle) >>= rest = program >>= fun value => middle value >>= rest := by
  funext state
  simp only [bind]
  cases program state with
  | mk outcome after => cases outcome <;> rfl

variable {ends : A → S → Prop} {stops : X → S → Prop} {state : S}

@[simp]
theorem wp_pure (value : A) : (pure value : Prog S X A).wp ends stops state ↔ ends value state :=
  Iff.rfl

@[simp]
theorem wp_stop (reason : X) : (stop reason : Prog S X A).wp ends stops state ↔ stops reason state :=
  Iff.rfl

@[simp]
theorem wp_step (change : S → A × S) :
    (step change : Prog S X A).wp ends stops state ↔ ends (change state).1 (change state).2 :=
  Iff.rfl

@[simp]
theorem wp_bind (program : Prog S X B) (rest : B → Prog S X A) :
    (program >>= rest).wp ends stops state ↔
      program.wp (fun value => (rest value).wp ends stops) stops state := by
  unfold wp
  simp only [bind]
  cases program state with
  | mk outcome state => cases outcome <;> rfl

@[simp]
theorem wp_get {ends : S → S → Prop} : (get : Prog S X S).wp ends stops state ↔ ends state state :=
  Iff.rfl

@[simp]
theorem wp_set (after : S) {ends : Unit → S → Prop} :
    (set after : Prog S X Unit).wp ends stops state ↔ ends () after :=
  Iff.rfl

@[simp]
theorem wp_stopIf (condition : Prop) [Decidable condition] (reason : X)
    {ends : Unit → S → Prop} : (stopIf condition reason : Prog S X Unit).wp ends stops state ↔
      (condition → stops reason state) ∧ (¬condition → ends () state) := by
  unfold stopIf
  split_ifs with holds <;> simp [holds]

@[simp]
theorem wp_ofOption (reason : X) (value : Option A) :
    (ofOption reason value : Prog S X A).wp ends stops state ↔
      (value = none → stops reason state) ∧ ∀ found, value = some found → ends found state := by
  cases value <;> simp [ofOption]

@[simp]
theorem wp_onFirst (program : Prog S X A) (other : T) {ends : A → S × T → Prop}
    {stops : X → S × T → Prop} : program.onFirst.wp ends stops (state, other) ↔
      program.wp (fun value after => ends value (after, other))
        (fun reason after => stops reason (after, other)) state := by
  unfold wp onFirst
  cases program state with
  | mk outcome after => cases outcome <;> rfl

@[simp]
theorem wp_onSecond (program : Prog T X A) (other : T) {ends : A → S × T → Prop}
    {stops : X → S × T → Prop} : program.onSecond.wp ends stops (state, other) ↔
      program.wp (fun value after => ends value (state, after))
        (fun reason after => stops reason (state, after)) other := by
  unfold wp onSecond
  cases program other with
  | mk outcome after => cases outcome <;> rfl

@[simp]
theorem wp_withSecond (program : Prog (S × T) X A) (other : T) :
    (program.withSecond other).wp ends stops state ↔
      program.wp (fun value after => ends value after.1) (fun reason after => stops reason after.1)
        (state, other) := by
  unfold wp withSecond
  cases program (state, other) with
  | mk outcome after => cases outcome <;> rfl

@[simp]
theorem wp_attempt (program : Prog S X A) {ends : Option A → S → Prop} {stops : Y → S → Prop} :
    program.attempt.wp ends stops state ↔
      program.wp (fun value after => ends (some value) after)
        (fun _ after => ends none after) state := by
  unfold wp attempt
  cases program state with
  | mk outcome after => cases outcome <;> rfl

@[simp]
theorem wp_mapStop (translate : X → Y) (program : Prog S X A) {stops : Y → S → Prop} :
    (program.mapStop translate).wp ends stops state ↔
      program.wp ends (fun reason after => stops (translate reason) after) state := by
  unfold wp mapStop
  cases program state with
  | mk outcome after => cases outcome <;> rfl

theorem wp_mono {program : Prog S X A} {ends' : A → S → Prop} {stops' : X → S → Prop}
    (meets : program.wp ends stops state) (ending : ∀ value state, ends value state → ends' value state)
    (stopping : ∀ reason state, stops reason state → stops' reason state) :
    program.wp ends' stops' state := by
  unfold wp at meets ⊢
  cases ran : program state with
  | mk outcome after =>
    rw [ran] at meets
    cases outcome with
    | ok value => exact ending value after meets
    | error reason => exact stopping reason after meets

/-- Two guarantees of one program. -/
theorem wp.both {program : Prog S X A} {ends' : A → S → Prop} {stops' : X → S → Prop}
    (meets : program.wp ends stops state) (meets' : program.wp ends' stops' state) :
    program.wp (fun value after => ends value after ∧ ends' value after)
      (fun reason after => stops reason after ∧ stops' reason after) state := by
  unfold wp at meets meets' ⊢
  cases ran : program state with
  | mk outcome after =>
    rw [ran] at meets meets'
    cases outcome with
    | ok value | error reason => exact ⟨meets, meets'⟩

/-- A program guarantees its own run. -/
theorem wp_self (program : Prog S X A) (state : S) :
    program.wp (fun value after => program state = (.ok value, after))
      (fun reason after => program state = (.error reason, after)) state := by
  unfold wp
  cases program state with
  | mk outcome after => cases outcome <;> rfl

theorem wp_of_forall (program : Prog S X A) (ending : ∀ value after, ends value after)
    (stopping : ∀ reason after, stops reason after) : program.wp ends stops state := by
  unfold wp
  cases program state with
  | mk outcome after =>
    cases outcome with
    | ok value => exact ending value after
    | error reason => exact stopping reason after

theorem wp_run {program : Prog S X A} (meets : program.wp ends stops state) :
    (∃ value after, program state = (.ok value, after) ∧ ends value after) ∨
      ∃ reason after, program state = (.error reason, after) ∧ stops reason after := by
  unfold wp at meets
  cases ran : program state with
  | mk outcome after =>
    rw [ran] at meets
    cases outcome with
    | ok value => exact .inl ⟨value, after, rfl, meets⟩
    | error reason => exact .inr ⟨reason, after, rfl, meets⟩

section Runs

variable {program : Prog S X B} {rest : B → Prog S X A} {after : S}

/-- A program that went on goes on from where it was. -/
theorem run_bind {value : B} (ran : program state = (.ok value, after)) :
    (program >>= rest) state = rest value after := by
  simp only [bind, ran]

/-- A program that stopped has stopped. -/
theorem run_bind_stop {reason : X} (ran : program state = (.error reason, after)) :
    (program >>= rest) state = (.error reason, after) := by
  simp only [bind, ran]

/-- The parts of a program that has ended. -/
theorem run_bind_ok {value : A} (ran : (program >>= rest) state = (.ok value, after)) :
    ∃ middle between, program state = (.ok middle, between) ∧
      rest middle between = (.ok value, after) := by
  simp only [bind] at ran
  cases run : program state with
  | mk outcome between =>
    rw [run] at ran
    cases outcome with
    | ok middle => exact ⟨middle, between, rfl, ran⟩
    | error reason => cases ran

theorem wp.ended {ends : B → S → Prop} {value : B} (meets : program.wp ends stops state)
    (ran : program state = (.ok value, after)) : ends value after := by
  unfold wp at meets
  rw [ran] at meets
  exact meets

theorem wp.stopped {ends : B → S → Prop} {reason : X} (meets : program.wp ends stops state)
    (ran : program state = (.error reason, after)) : stops reason after := by
  unfold wp at meets
  rw [ran] at meets
  exact meets

/-- What is guaranteed of every end. -/
theorem wp_always {holds : S → Prop} {state : S} (program : Prog S X A) :
    program.wp (fun _ => holds) (fun _ => holds) state ↔ holds (program state).2 := by
  unfold wp
  cases program state with
  | mk outcome after => cases outcome <;> rfl

end Runs

section Mirror

variable (image : S → S)

/-- From a state and from its image the two programs have the same outcome, and they end in a state
and its image. -/
def Mirrors (program other : Prog S X A) (state : S) : Prop :=
  other (image state) = ((program state).1, image (program state).2)

variable {image}

theorem mirrors_stopIf (condition : Prop) [Decidable condition] (reason : X) :
    Mirrors image (stopIf condition reason) (stopIf condition reason) state := by
  unfold Mirrors stopIf
  split_ifs <;> rfl

theorem mirrors_ofOption (reason : X) (value : Option A) :
    Mirrors image (ofOption reason value) (ofOption reason value) state := by
  cases value <;> rfl

theorem Mirrors.bind {program other : Prog S X B} {rest rest' : B → Prog S X A}
    (first : Mirrors image program other state)
    (later : ∀ value after, Mirrors image (rest value) (rest' value) after) :
    Mirrors image (program >>= rest) (other >>= rest') state := by
  unfold Mirrors at first ⊢
  simp only [Bind.bind]
  rw [first]
  cases program state with
  | mk outcome after =>
    cases outcome with
    | ok value => exact later value after
    | error reason => rfl

theorem Mirrors.get_bind {rest rest' : S → Prog S X A}
    (later : Mirrors image (rest state) (rest' (image state)) state) :
    Mirrors image (get >>= rest) (get >>= rest') state := later

theorem Mirrors.set_bind {before after : S} {rest rest' : Unit → Prog S X A}
    (later : Mirrors image (rest ()) (rest' ()) after) :
    Mirrors image (set after >>= rest) (set (image after) >>= rest') before := later

end Mirror

end Prog

export Prog (stopIf ofOption wp_pure wp_bind wp_get wp_set wp_stopIf wp_ofOption wp_onFirst
  wp_onSecond wp_withSecond wp_attempt wp_mapStop wp_stop wp_step wp_mono wp_self wp_of_forall wp_run
  run_bind run_bind_stop run_bind_ok)

end Library
