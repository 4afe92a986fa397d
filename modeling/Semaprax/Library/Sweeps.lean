/-
**Sweeps over cells with a log.**

A sweep visits the cells of a list one after the other, from the first or from the last, and stops at
the first visit that refuses. A visit may change its cell and the log, also where it refuses.

* `forwards`, `backwards` — the two sweeps; the cells are numbered from an index on.
* `forwards_related`, `backwards_related` — what every visit preserves, a sweep preserves.
* `forwards_all` — sweeps in which no visit refuses.
* `backwards_logged` — what is logged by a sweep from the last cell that is not stopped.
-/

import Semaprax.Library.Programs

namespace Library

variable {C L X V : Type} (visit : Nat → Prog (C × L) X Unit)

def forwards : Nat → List C → L → Except X Unit × List C × L
  | _, [], log => (.ok (), [], log)
  | index, cell :: rest, log =>
    match visit index (cell, log) with
    | (.error reason, after, log) => (.error reason, after :: rest, log)
    | (.ok _, after, log) =>
      let (outcome, rest, log) := forwards (index + 1) rest log
      (outcome, after :: rest, log)

/-- Visit the cells from the last on. -/
def backwards : Nat → List C → L → Except X Unit × List C × L
  | _, [], log => (.ok (), [], log)
  | index, cell :: rest, log =>
    match backwards (index + 1) rest log with
    | (.error reason, rest, log) => (.error reason, cell :: rest, log)
    | (.ok _, rest, log) =>
      let (outcome, after, log) := visit index (cell, log)
      (outcome, after :: rest, log)

/-- What is guaranteed whether a program ends or stops is guaranteed of the state that it leaves. -/
theorem Prog.wp_after {S A : Type} {program : Prog S X A} {P : S → Prop} {state : S} :
    program.wp (fun _ => P) (fun _ => P) state ↔ P (program state).2 := by
  unfold Prog.wp
  cases program state with
  | mk outcome after => cases outcome <;> exact Iff.rfl

export Prog (wp_after)

section Sweeps

variable {visit} {Rel : List C × L → List C × L → Prop} (refl : ∀ state, Rel state state)
  (trans : ∀ {first second third}, Rel first second → Rel second third → Rel first third)
  (visited : ∀ done cell rest log, Rel (done ++ cell :: rest, log)
    (done ++ (visit done.length (cell, log)).2.1 :: rest, (visit done.length (cell, log)).2.2))

include refl trans visited

theorem forwards_related (done cells : List C) (log : L) : Rel (done ++ cells, log)
    (done ++ (forwards visit done.length cells log).2.1,
      (forwards visit done.length cells log).2.2) := by
  induction cells generalizing done log with
  | nil => exact refl _
  | cons cell rest ih =>
    have first := visited done cell rest log
    unfold forwards
    cases ran : visit done.length (cell, log) with
    | mk outcome found =>
      rw [ran] at first
      cases outcome with
      | error reason => exact first
      | ok _ =>
        have next := ih (done ++ [found.1]) found.2
        rw [List.length_append, List.length_singleton, List.append_assoc, List.append_assoc] at next
        exact trans first next

theorem backwards_related (done cells : List C) (log : L) : Rel (done ++ cells, log)
    (done ++ (backwards visit done.length cells log).2.1,
      (backwards visit done.length cells log).2.2) := by
  induction cells generalizing done log with
  | nil => exact refl _
  | cons cell rest ih =>
    have later := ih (done ++ [cell]) log
    rw [List.length_append, List.length_singleton, List.append_assoc, List.append_assoc] at later
    unfold backwards
    cases ran : backwards visit (done.length + 1) rest log with
    | mk outcome found =>
      rw [ran] at later
      cases outcome with
      | error reason => exact later
      | ok _ => exact trans later (visited done cell found.1 found.2)

end Sweeps

variable {visit}

theorem forwards_all {change : C → C} {cells : List C} (index : Nat) (log : L)
    (visited : ∀ cell ∈ cells, ∀ index log, visit index (cell, log) = (.ok (), change cell, log)) :
    forwards visit index cells log = (.ok (), cells.map change, log) := by
  induction cells generalizing index with
  | nil => rfl
  | cons cell rest ih =>
    unfold forwards
    rw [visited cell List.mem_cons_self]
    simp only
    rw [ih (index + 1) fun other member => visited other (List.mem_cons_of_mem _ member)]
    rfl

section Succeeding

variable {V : Type} {view : L → V} {P Q : C → Prop} (visited : ∀ index cell log, P cell →
  ∃ after later, visit index (cell, log) = (.ok (), after, later) ∧ Q after ∧ view later = view log)

include visited

end Succeeding

theorem backwards_logged {view : L → List V} {entry : Nat → V} (logs : ∀ index cell log after later,
      visit index (cell, log) = (.ok (), after, later) → view later = view log ++ [entry index])
    (index : Nat) (cells : List C) (log : L) (all : (backwards visit index cells log).1 = .ok ()) :
    view (backwards visit index cells log).2.2 =
      view log ++ ((List.range' index cells.length).map entry).reverse := by
  induction cells generalizing index log with
  | nil => exact (List.append_nil _).symm
  | cons cell rest ih =>
    have later := ih (index + 1) log
    unfold backwards at all ⊢
    cases ran : backwards visit (index + 1) rest log with
    | mk outcome found =>
      rw [ran] at all later
      cases outcome with
      | error reason => cases all
      | ok _ =>
        simp only at all ⊢
        have last := logs index cell found.2 _ _ (Prod.ext all rfl)
        rw [last, later rfl, List.length_cons, List.range'_succ, List.map_cons,
          List.reverse_cons, List.append_assoc]

end Library
