/-
**Results of fallible computations.**

A computation in `Except` that succeeds has succeeded at every step, and one that fails has failed
at some step. The two lemmas take a sequence of steps apart without unfolding the monad.
-/

import Mathlib

namespace Library

variable {E A B : Type}

theorem bind_eq_ok {first : Except E A} {rest : A → Except E B} {result : B} :
    (first >>= rest) = .ok result ↔ ∃ value, first = .ok value ∧ rest value = .ok result := by
  cases first with
  | error failure => exact ⟨(nomatch ·), fun ⟨_, equal, _⟩ => nomatch equal⟩
  | ok value =>
    refine ⟨fun equal => ⟨value, rfl, equal⟩, fun ⟨value', equal, after⟩ => ?_⟩
    obtain rfl := Except.ok.inj equal
    exact after

theorem bind_eq_error {first : Except E A} {rest : A → Except E B} {failure : E} :
    (first >>= rest) = .error failure ↔
      first = .error failure ∨ ∃ value, first = .ok value ∧ rest value = .error failure := by
  cases first with
  | error failure' =>
    refine ⟨fun equal => Or.inl (congrArg Except.error (Except.error.inj equal)), ?_⟩
    rintro (equal | ⟨_, equal, _⟩)
    · exact congrArg Except.error (Except.error.inj equal)
    · exact nomatch equal
  | ok value =>
    refine ⟨fun equal => Or.inr ⟨value, rfl, equal⟩, ?_⟩
    rintro (equal | ⟨value', equal, after⟩)
    · exact nomatch equal
    · obtain rfl := Except.ok.inj equal
      exact after

theorem toOption_eq_some {result : Except E A} {value : A} :
    result.toOption = some value ↔ result = .ok value := by
  cases result with
  | error failure => exact ⟨(nomatch ·), (nomatch ·)⟩
  | ok other =>
    exact ⟨fun same => congrArg Except.ok (Option.some.inj same),
      fun same => congrArg some (Except.ok.inj same)⟩

end Library
