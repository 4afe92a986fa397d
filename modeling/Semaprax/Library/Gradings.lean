/-
**Programs whose moves are counted.**

A program over a state moves it along a relation that is graded by numbers: moves that follow one
another add up. What a program builds is counted too, and the program is sound if what it builds
is the grade of its move. A number that has been built before is carried along, so that the rule for
a sequence is the plain one.

* `Prog.loop` — loops of so many turns at most.
* `Grading` — a relation of moves, with a number each.
* `AddsFrom`, `Adds` — what is built, beyond what is carried, is the grade of the move.
* `Adds.bind`, `Adds.loop`, … — the rules, one for each way to write a program.
-/

import Semaprax.Library.Programs

namespace Library

section Loops

variable {S T X A : Type}

/-- What a turn of a loop ends in. -/
inductive Turn (T A : Type)
  | again (state : T)
  | done (value : A)

/-- The number of what a turn ends in. -/
def Turn.count (size : T → Nat) (total : A → Nat) : Turn T A → Nat
  | .again state => size state
  | .done value => total value

def Prog.loop (exhausted : X) (body : T → Prog S X (Turn T A)) : Nat → T → Prog S X A
  | 0, _ => stop exhausted
  | fuel + 1, state => do
      match ← body state with
      | .again state => loop exhausted body fuel state
      | .done value => pure value

def Prog.mapStopIn (rename : S → X → X) (program : Prog S X A) : Prog S X A := fun state =>
  match program state with
  | (.ok value, after) => (.ok value, after)
  | (.error reason, after) => (.error (rename after reason), after)

end Loops

/-- A relation of moves between states, each with its number. -/
structure Grading (S : Type) where
  moves : Nat → S → S → Prop
  refl : ∀ state, moves 0 state state
  trans : ∀ {m n state middle after}, moves m state middle → moves n middle after →
    moves (m + n) state after

section Adds

variable {S T X A B : Type} (grading : Grading S)

/-- From a state and what is carried, the program ends in a value with a total, and its move has the
difference as its number. -/
def AddsFrom (state : S) (carried : Nat) (program : Prog S X A) (total : A → Nat) : Prop :=
  ∀ value after, program state = (.ok value, after) →
    ∃ added, total value = carried + added ∧ grading.moves added state after

/-- From every state. -/
def Adds (carried : Nat) (program : Prog S X A) (total : A → Nat) : Prop :=
  ∀ state, AddsFrom grading state carried program total

variable {grading} {state : S} {carried : Nat} {total : A → Nat} {program : Prog S X A}

variable {condition : Prop}

theorem AddsFrom.bind {between : B → Nat} {first : Prog S X B} {rest : B → Prog S X A}
    (begins : AddsFrom grading state carried first between)
    (follows : ∀ value, Adds grading (between value) (rest value) total) :
    AddsFrom grading state carried (first >>= rest) total := by
  intro value after ran
  obtain ⟨middle, between', ran, more⟩ := run_bind_ok ran
  obtain ⟨first', counted, moved⟩ := begins _ _ ran
  obtain ⟨second', counted', moved'⟩ := follows _ _ _ _ more
  refine ⟨first' + second', ?_, grading.trans moved moved'⟩
  rw [counted', counted, Nat.add_assoc]

theorem AddsFrom.ite [Decidable condition] {first second : Prog S X A}
    (holds : condition → AddsFrom grading state carried first total)
    (fails : ¬condition → AddsFrom grading state carried second total) :
    AddsFrom grading state carried (if condition then first else second) total := by
  split_ifs with decided
  · exact holds decided
  · exact fails decided

theorem Adds.pure {value : A} (same : total value = carried) :
    Adds grading carried (Pure.pure value : Prog S X A) total := by
  intro state result after ran
  cases ran
  exact ⟨0, same, grading.refl state⟩

theorem Adds.stop (reason : X) : Adds grading carried (Prog.stop reason : Prog S X A) total := by
  intro state result after ran
  cases ran

theorem Adds.bind {between : B → Nat} {first : Prog S X B} {rest : B → Prog S X A}
    (begins : Adds grading carried first between)
    (follows : ∀ value, Adds grading (between value) (rest value) total) :
    Adds grading carried (first >>= rest) total :=
  fun state => (begins state).bind follows

theorem Adds.get_bind {rest : S → Prog S X A}
    (follows : ∀ state, AddsFrom grading state carried (rest state) total) :
    Adds grading carried (Prog.get >>= rest) total :=
  fun state => follows state

theorem Adds.look_bind {rest : S → Prog S X A}
    (follows : ∀ state, Adds grading carried (rest state) total) :
    Adds grading carried (Prog.get >>= rest) total :=
  .get_bind fun state => follows state state

theorem Adds.ite [Decidable condition] {first second : Prog S X A}
    (holds : condition → Adds grading carried first total)
    (fails : ¬condition → Adds grading carried second total) :
    Adds grading carried (if condition then first else second) total :=
  fun state => .ite (fun decided => holds decided state) fun decided => fails decided state

theorem Adds.mapStopIn {rename : S → X → X} (adds : Adds grading carried program total) :
    Adds grading carried (program.mapStopIn rename) total := by
  intro state value after ran
  unfold Prog.mapStopIn at ran
  cases reached : program state with
  | mk outcome middle =>
    rw [reached] at ran
    cases outcome with
    | error reason => cases ran
    | ok result =>
      cases ran
      exact adds _ _ _ reached

/-- **A loop**, of which each turn adds what it builds. -/
theorem Adds.loop {exhausted : X} {body : T → Prog S X (Turn T A)} (size : T → Nat)
    (turn : ∀ state, Adds grading (size state) (body state) (Turn.count size total)) (fuel : Nat)
    (state : T) : Adds grading (size state) (Prog.loop exhausted body fuel state) total := by
  induction fuel generalizing state with
  | zero => exact .stop _
  | succ fuel ih =>
    refine .bind (turn state) fun reached => ?_
    cases reached with
    | again state => exact ih state
    | done value => exact .pure rfl

end Adds

end Library
