/-
**Reachability by a counted number of steps.**

A transition relation with its starting states, and the states it reaches in exactly `n` steps.

* `ReachesIn.invariant` / `Reaches.invariant` — what holds at the start and survives a step holds
  of every reachable state.
* `ReachesIn.covered` — the layered form that a breadth-first search needs: a set of seen states,
  each with a depth, that is closed under steps up to a limit contains everything reachable within
  that limit, at no greater depth.
-/

import Mathlib

namespace Library

section Reachability

variable {S : Type*} (start : S → Prop) (next : S → S → Prop)

/-- The state `s` is reached from a starting state by exactly `n` steps. -/
inductive ReachesIn : Nat → S → Prop
  | base {s : S} (initial : start s) : ReachesIn 0 s
  | step {n : Nat} {s t : S} (prior : ReachesIn n s) (move : next s t) : ReachesIn (n + 1) t

/-- The state `s` is reached by some number of steps. -/
def Reaches (s : S) : Prop := ∃ n, ReachesIn start next n s

variable {start next}

variable {n : Nat}

theorem Reaches.base {s : S} (initial : start s) : Reaches start next s := ⟨0, .base initial⟩

theorem Reaches.step {s t : S} (prior : Reaches start next s) (move : next s t) :
    Reaches start next t := by
  obtain ⟨n, prior⟩ := prior
  exact ⟨n + 1, .step prior move⟩

/-- An invariant of the starting states and of every step holds wherever the steps lead. -/
theorem ReachesIn.invariant {P : S → Prop} (base : ∀ s, start s → P s)
    (keeps : ∀ s t, P s → next s t → P t) {s : S} (reached : ReachesIn start next n s) :
    P s := by
  induction reached with
  | base initial => exact base _ initial
  | step _ move ih => exact keeps _ _ ih move

theorem Reaches.invariant {P : S → Prop} (base : ∀ s, start s → P s)
    (keeps : ∀ s t, P s → next s t → P t) {s : S} (reached : Reaches start next s) : P s := by
  obtain ⟨n, reached⟩ := reached
  exact reached.invariant base keeps

theorem ReachesIn.mono {start' : S → Prop} (wider : ∀ s, start s → start' s) {s : S}
    (reached : ReachesIn start next n s) : ReachesIn start' next n s := by
  induction reached with
  | base initial => exact .base (wider _ initial)
  | step _ move ih => exact .step ih move

theorem ReachesIn.under {start' : S → Prop} (below : ∀ s, start s → ∃ t, start' t ∧ next t s)
    {s : S} (reached : ReachesIn start next n s) : ReachesIn start' next (n + 1) s := by
  induction reached with
  | base initial =>
    obtain ⟨t, initial', move⟩ := below _ initial
    exact .step (.base initial') move
  | step _ move ih => exact .step ih move

/-- What is reached stands in the closure of the steps from some starting state. -/
theorem ReachesIn.reflTransGen {s : S} (reached : ReachesIn start next n s) :
    ∃ t, start t ∧ Relation.ReflTransGen next t s := by
  induction reached with
  | base initial => exact ⟨_, initial, .refl⟩
  | step _ move ih =>
    obtain ⟨t, initial, path⟩ := ih
    exact ⟨t, initial, path.tail move⟩

/-- Layered closure. If the starting states are seen at depth `0`, and every step out of a seen
state of depth below `m` leads to a seen state at most one deeper, then whatever is reached in
`n ≤ m` steps is seen at a depth of at most `n`. -/
theorem ReachesIn.covered {P : S → Prop} {d : S → Nat} {m : Nat}
    (base : ∀ s, start s → P s ∧ d s = 0)
    (closed : ∀ s t, P s → d s < m → next s t → P t ∧ d t ≤ d s + 1)
    {s : S} (reached : ReachesIn start next n s) (within : n ≤ m) : P s ∧ d s ≤ n := by
  induction reached with
  | base initial =>
    obtain ⟨seen, depth⟩ := base _ initial
    exact ⟨seen, depth.le⟩
  | @step n s t _ move ih =>
    obtain ⟨seen, depth⟩ := ih (by omega)
    obtain ⟨seen', depth'⟩ := closed s t seen (by omega) move
    exact ⟨seen', by omega⟩

end Reachability

end Library
