/-
**Properties of a history.**

A history is the list of what happened, earliest first. A property of a history says of every entry
something that may depend on what came before it.

* `Throughout` — every entry has the property, given what came before.
* `throughout_append` — a history that grows by one entry.
* `Throughout.mono` — from one property to another; `Throughout.at_place` — the entry at a place.
* `Since`, `since_append` — something happened, and since then only what is allowed.
-/

import Mathlib

namespace Library

section Histories

variable {A : Type*} {holds : List A → A → Prop} {history : List A}

/-- Every entry of the history has the property, given what came before it. -/
def Throughout (holds : List A → A → Prop) (history : List A) : Prop :=
  ∀ (earlier : List A) (entry : A) (later : List A),
    history = earlier ++ entry :: later → holds earlier entry

@[simp]
theorem throughout_nil : Throughout holds [] := fun earlier _ _ split =>
  absurd (congrArg List.length split) (by simp)

theorem throughout_append {entry : A} :
    Throughout holds (history ++ [entry]) ↔ Throughout holds history ∧ holds history entry := by
  constructor
  · refine fun all => ⟨fun earlier other later split => ?_, all history entry [] rfl⟩
    exact all earlier other (later ++ [entry]) (by rw [split]; simp)
  · rintro ⟨before, last⟩ earlier other later split
    rcases later.eq_nil_or_concat with rfl | ⟨later, final, rfl⟩
    · obtain ⟨rfl, same⟩ := List.append_inj' split rfl
      obtain rfl := (List.cons.inj same).1
      exact last
    · have moved : history ++ [entry] = (earlier ++ other :: later) ++ [final] := by
        rw [split]
        simp
      exact before earlier other later (List.append_inj' moved rfl).1

theorem Throughout.mono {others : List A → A → Prop} (all : Throughout holds history)
    (weaker : ∀ earlier entry, holds earlier entry → others earlier entry) :
    Throughout others history := fun earlier entry later split =>
  weaker earlier entry (all earlier entry later split)

theorem Throughout.at_place (all : Throughout holds history) {place : Nat} {entry : A}
    (here : history[place]? = some entry) : holds (history.take place) entry := by
  obtain ⟨below, same⟩ := List.getElem?_eq_some_iff.mp here
  refine all _ entry (history.drop (place + 1)) ?_
  rw [← same, List.cons_getElem_drop_succ, List.take_append_drop]

variable {happens allowed : A → Prop}

def Since (happens allowed : A → Prop) (history : List A) : Prop :=
  ∃ (earlier : List A) (entry : A) (later : List A),
    history = earlier ++ entry :: later ∧ happens entry ∧ ∀ other ∈ later, allowed other

@[simp]
theorem since_nil : ¬Since happens allowed [] := by
  rintro ⟨earlier, entry, later, split, -⟩
  exact absurd (congrArg List.length split) (by simp)

theorem since_append {entry : A} : Since happens allowed (history ++ [entry]) ↔
    (Since happens allowed history ∧ allowed entry) ∨ happens entry := by
  constructor
  · rintro ⟨earlier, other, later, split, happened, since⟩
    rcases later.eq_nil_or_concat with rfl | ⟨later, final, rfl⟩
    · obtain ⟨-, same⟩ := List.append_inj' split rfl
      obtain rfl := (List.cons.inj same).1
      exact .inr happened
    · have moved : history ++ [entry] = (earlier ++ other :: later) ++ [final] := by
        rw [split]
        simp
      obtain ⟨before, same⟩ := List.append_inj' moved rfl
      obtain rfl := (List.cons.inj same).1
      rw [List.concat_eq_append] at since
      refine .inl ⟨⟨earlier, other, later, before, happened, fun old member => ?_⟩, ?_⟩
      · exact since old (List.mem_append_left _ member)
      · exact since entry (List.mem_append_right _ List.mem_cons_self)
  · rintro (⟨⟨earlier, other, later, rfl, happened, since⟩, last⟩ | happened)
    · refine ⟨earlier, other, later ++ [entry], by simp, happened, fun old member => ?_⟩
      rcases List.mem_append.mp member with member | member
      · exact since old member
      · rwa [List.mem_singleton.mp member]
    · exact ⟨history, entry, [], rfl, happened, fun _ member => nomatch member⟩

end Histories

end Library
