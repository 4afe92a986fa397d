/-
**The search without its accounting.**

Work units, decision counts and rejection flags decide whether the search goes on, never where it
goes. `Visits` is the search as a relation between a state and its result.

* `State.Branches` — a candidate fits, and the state in which it is selected.
* `admitCandidate_spec` — one turn of the loop: a branch if and only if the candidate fits.
* `visit_visits` — a search that returns is one that `Visits` describes.
-/

import Semaprax.PackageResolver.Solution
import Semaprax.Library.Results

namespace Semaprax.PackageResolver

open Library

variable {δ ν ω κ ε : Type}

section Relation

variable [LinearOrder κ] [LinearOrder ε]
variable (edition : Edition δ ν ω κ ε) (input : ResolutionInput) (catalog : Catalog δ ν)

def State.select (state : State δ ν ω κ ε) (package : String) (candidate : Entry δ ν) :
    State δ ν ω κ ε :=
  { state with selected := state.selected.insert package candidate }

/-- The state with every row of a selected candidate recorded. -/
def State.place (state : State δ ν ω κ ε) (package : String) (candidate : Entry δ ν) :
    State δ ν ω κ ε :=
  candidate.rows.zipIdx.foldl (fun state row => state.demand edition candidate row)
    (state.select package candidate)

/-- A candidate passes every check up to that of the graph. -/
structure State.Fits (state : State δ ν ω κ ε) (package : String) (candidate : Entry δ ν) :
    Prop where
  admitted : ∀ constraint ∈ state.constraints.getD package [],
    edition.admits constraint.value candidate.version = true
  permitted : Permitted input candidate
  consistent : ∀ row ∈ candidate.rows,
    consistent edition catalog (state.select package candidate) row = true

/-- A candidate fits, and `branch` is the state in which it is selected. -/
def State.Branches (state : State δ ν ω κ ε) (package : String) (candidate : Entry δ ν)
    (branch : State δ ν ω κ ε) : Prop :=
  state.Fits edition input catalog package candidate ∧
    (state.place edition package candidate).validated edition = some branch

/-- The search as a relation between a state and its result. -/
inductive Visits : State δ ν ω κ ε → Option (State δ ν ω κ ε) → Prop
  | complete {state} (resolved : state.unresolved = none) : Visits state (some state)
  | exhausted {state package} (unresolved : state.unresolved = some package)
      (rejected : ∀ candidate ∈ catalog.byPackage.getD package [], ∀ branch,
        state.Branches edition input catalog package candidate branch → Visits branch none) :
      Visits state none
  | chosen {state package} {before after : List (Entry δ ν)} {candidate branch final}
      (unresolved : state.unresolved = some package)
      (listed : catalog.byPackage.getD package [] = before ++ candidate :: after)
      (rejected : ∀ earlier ∈ before, ∀ branch,
        state.Branches edition input catalog package earlier branch → Visits branch none)
      (branches : state.Branches edition input catalog package candidate branch)
      (rest : Visits branch (some final)) : Visits state (some final)

end Relation

section Candidate

variable {edition : Edition δ ν ω κ ε} {input : ResolutionInput} {catalog : Catalog δ ν}

variable {search after : Search} {admitted : Bool} {package : String}

theorem admitConstraints_spec {version : Version} {constraints : List (Constraint κ ω)}
    (run : admitConstraints edition version constraints search = .ok (admitted, after)) :
    admitted = constraints.all fun constraint => edition.admits constraint.value version := by
  induction constraints generalizing search with
  | nil => exact (Prod.mk.inj (Except.ok.inj run)).1.symm
  | cons constraint rest ih =>
    unfold admitConstraints at run
    obtain ⟨search', -, run⟩ := bind_eq_ok.mp run
    rw [List.all_cons]
    split at run
    · rename_i admits
      rw [admits, Bool.true_and]
      exact ih run
    · rename_i refuses
      rw [Bool.eq_false_of_not_eq_true refuses, Bool.false_and]
      exact (Prod.mk.inj (Except.ok.inj run)).1.symm

theorem admitTarget_spec {candidate : Entry δ ν}
    (run : admitTarget edition input candidate search = .ok (admitted, after)) :
    admitted = decide (candidate.subject.targets[input.target]? = some "available") := by
  unfold admitTarget at run
  obtain ⟨search', -, run⟩ := bind_eq_ok.mp run
  split at run
  · rename_i available
    rw [decide_eq_true available]
    exact (Prod.mk.inj (Except.ok.inj run)).1.symm
  · rename_i missing
    rw [decide_eq_false missing]
    exact (Prod.mk.inj (Except.ok.inj run)).1.symm

theorem allowed_contains (capability : String) :
    input.allowed.contains capability = decide (capability ∈ input.allowedCapabilities) := by
  rw [ResolutionInput.allowed, Std.TreeSet.contains_ofList, List.contains_eq_mem]

theorem admitCapabilities_spec {capabilities : List String}
    (run : admitCapabilities edition input capabilities search = .ok (admitted, after)) :
    admitted = capabilities.all fun capability =>
      decide (capability ∈ input.allowedCapabilities) := by
  induction capabilities generalizing search with
  | nil => exact (Prod.mk.inj (Except.ok.inj run)).1.symm
  | cons capability rest ih =>
    unfold admitCapabilities at run
    obtain ⟨search', -, run⟩ := bind_eq_ok.mp run
    rw [List.all_cons, ← allowed_contains]
    split at run
    · rename_i allowed
      rw [allowed, Bool.true_and]
      exact ih run
    · rename_i forbidden
      rw [Bool.eq_false_of_not_eq_true forbidden, Bool.false_and]
      exact (Prod.mk.inj (Except.ok.inj run)).1.symm

variable [LinearOrder ε]

theorem consistent_congr {state state' : State δ ν ω κ ε}
    (same : state.selected = state'.selected) (row : δ × ν) :
    consistent edition catalog state row = consistent edition catalog state' row := by
  unfold consistent
  rw [same]

variable [LinearOrder κ]

theorem insertRows_spec {candidate : Entry δ ν} {rows : List ((δ × ν) × Nat)}
    {state branch : State δ ν ω κ ε}
    (run : insertRows edition catalog candidate rows state search = .ok (admitted, branch, after)) :
    (admitted = rows.all fun row => consistent edition catalog state row.1) ∧
      (admitted = true →
        branch = rows.foldl (fun state row => state.demand edition candidate row) state) := by
  induction rows generalizing state search with
  | nil =>
    obtain ⟨rfl, rest⟩ := Prod.mk.inj (Except.ok.inj run)
    exact ⟨rfl, fun _ => (Prod.mk.inj rest).1.symm⟩
  | cons row rest ih =>
    unfold insertRows at run
    obtain ⟨search', -, run⟩ := bind_eq_ok.mp run
    obtain ⟨search'', -, run⟩ := bind_eq_ok.mp run
    have same : (state.demand edition candidate row).selected = state.selected := rfl
    rw [List.all_cons, List.foldl_cons]
    split at run
    · rename_i holds
      rw [consistent_congr same] at holds
      rw [holds, Bool.true_and]
      refine ⟨?_, (ih run).2⟩
      rw [(ih run).1]
      exact congrArg rest.all (funext fun row => consistent_congr same row.1)
    · rename_i fails
      rw [consistent_congr same] at fails
      rw [Bool.eq_false_of_not_eq_true fails, Bool.false_and]
      obtain ⟨rfl, -⟩ := Prod.mk.inj (Except.ok.inj run)
      exact ⟨rfl, (nomatch ·)⟩

/-- **One turn of the loop**: a branch if and only if the candidate fits. -/
theorem admitCandidate_spec {state : State δ ν ω κ ε} {candidate : Entry δ ν}
    {result : Option (State δ ν ω κ ε)}
    (run : admitCandidate edition input catalog package state candidate search =
      .ok (result, after)) (branch : State δ ν ω κ ε) :
    result = some branch ↔ state.Branches edition input catalog package candidate branch := by
  unfold admitCandidate at run
  obtain ⟨search₀, -, run⟩ := bind_eq_ok.mp run
  split at run
  · cases run
  rename_i constraints found
  have held : state.constraints.getD package [] = constraints := by
    rw [Std.TreeMap.getD_eq_getD_getElem?, found, Option.getD_some]
  obtain ⟨⟨admitted, search₁⟩, run₁, run⟩ := bind_eq_ok.mp run
  have spec₁ := admitConstraints_spec run₁
  cases admitted with
  | false =>
    obtain rfl := (Prod.mk.inj (Except.ok.inj run)).1
    refine ⟨(nomatch ·), fun ⟨fits, _⟩ => ?_⟩
    have all := List.all_eq_true.mpr (held ▸ fits.admitted)
    exact absurd (spec₁.trans all) Bool.false_ne_true
  | true =>
  obtain ⟨⟨available, search₂⟩, run₂, run⟩ := bind_eq_ok.mp run
  have spec₂ := admitTarget_spec run₂
  cases available with
  | false =>
    obtain rfl := (Prod.mk.inj (Except.ok.inj run)).1
    exact ⟨(nomatch ·), fun ⟨fits, _⟩ =>
      absurd fits.permitted.available (of_decide_eq_false spec₂.symm)⟩
  | true =>
  obtain ⟨⟨allowed, search₃⟩, run₃, run⟩ := bind_eq_ok.mp run
  have spec₃ := admitCapabilities_spec run₃
  cases allowed with
  | false =>
    obtain rfl := (Prod.mk.inj (Except.ok.inj run)).1
    refine ⟨(nomatch ·), fun ⟨fits, _⟩ => ?_⟩
    have all := List.all_eq_true.mpr fun capability member =>
      decide_eq_true (fits.permitted.allowed capability member)
    exact absurd (spec₃.trans all) Bool.false_ne_true
  | true =>
  obtain ⟨⟨inserted, placed, search₄⟩, run₄, run⟩ := bind_eq_ok.mp run
  obtain ⟨spec₄, placed_eq⟩ := insertRows_spec run₄
  have rows : (candidate.rows.zipIdx.all fun row =>
      consistent edition catalog (state.select package candidate) row.1) = true ↔
      ∀ row ∈ candidate.rows,
        consistent edition catalog (state.select package candidate) row = true := by
    rw [List.all_eq_true]
    refine ⟨fun all row member => ?_,
      fun all row member => all _ (List.fst_mem_of_mem_zipIdx member)⟩
    obtain ⟨index, bound, rfl⟩ := List.mem_iff_getElem.mp member
    exact all (candidate.rows[index], index)
      (List.mk_mem_zipIdx_iff_getElem?.mpr (List.getElem?_eq_getElem bound))
  cases inserted with
  | false =>
    obtain rfl := (Prod.mk.inj (Except.ok.inj run)).1
    exact ⟨(nomatch ·), fun ⟨fits, _⟩ =>
      absurd (spec₄.trans (rows.mpr fits.consistent)) Bool.false_ne_true⟩
  | true =>
    obtain rfl := placed_eq rfl
    have fits : state.Fits edition input catalog package candidate := by
      refine ⟨?_, ⟨of_decide_eq_true spec₂.symm, fun capability member => ?_⟩,
        rows.mp spec₄.symm⟩
      · rw [held]
        exact List.all_eq_true.mp spec₁.symm
      · exact of_decide_eq_true (List.all_eq_true.mp spec₃.symm capability member)
    show _ ↔ _ ∧ State.validated edition (state.place edition package candidate) = some branch
    rw [and_iff_right fits]
    simp only [Bool.not_true, Bool.false_eq_true, if_false] at run
    split at run
    · rename_i valid validated
      obtain rfl := (Prod.mk.inj (Except.ok.inj run)).1
      exact (Eq.congr_left validated).symm
    · rename_i refused
      obtain rfl := (Prod.mk.inj (Except.ok.inj run)).1
      exact (Eq.congr_left refused).symm

/-- What the loop over the candidates returns: nothing, when no candidate leads to a result, or
what the first candidate that does leads to. -/
theorem tryCandidates_spec
    {below : State δ ν ω κ ε → Search → Except Halt (Option (State δ ν ω κ ε) × Search)}
    (visits : ∀ {branch search result after}, below branch search = .ok (result, after) →
      Visits edition input catalog branch result)
    {state : State δ ν ω κ ε} {candidates : List (Entry δ ν)}
    {result : Option (State δ ν ω κ ε)}
    (run : tryCandidates edition input catalog below package state candidates search =
      .ok (result, after)) :
    match result with
    | none => ∀ candidate ∈ candidates, ∀ branch,
        state.Branches edition input catalog package candidate branch →
        Visits edition input catalog branch none
    | some final => ∃ before candidate rest branch, candidates = before ++ candidate :: rest ∧
        (∀ earlier ∈ before, ∀ branch, state.Branches edition input catalog package earlier branch →
          Visits edition input catalog branch none) ∧
        state.Branches edition input catalog package candidate branch ∧
        Visits edition input catalog branch (some final) := by
  induction candidates generalizing search with
  | nil =>
    obtain rfl := (Prod.mk.inj (Except.ok.inj run)).1
    exact List.forall_mem_nil _
  | cons candidate rest ih =>
    unfold tryCandidates at run
    split at run
    · cases run
    obtain ⟨⟨branch?, search₁⟩, admitted, run⟩ := bind_eq_ok.mp run
    have branches := admitCandidate_spec admitted
    obtain ⟨⟨found, search₂⟩, visited, run⟩ := bind_eq_ok.mp run
    cases found with
    | some final =>
      obtain rfl := (Prod.mk.inj (Except.ok.inj run)).1
      cases branch? with
      | none => cases visited
      | some branch =>
        exact ⟨[], candidate, rest, branch, rfl, List.forall_mem_nil _,
          (branches branch).mp rfl, visits visited⟩
    | none =>
      have fails : ∀ branch, state.Branches edition input catalog package candidate branch →
          Visits edition input catalog branch none := by
        intro branch fits
        obtain rfl := (branches branch).mpr fits
        exact visits visited
      obtain ⟨search₃, -, run⟩ := bind_eq_ok.mp run
      have remaining := ih run
      cases result with
      | none =>
        intro other member
        rcases List.mem_cons.mp member with rfl | later
        · exact fails
        · exact remaining other later
      | some final =>
        obtain ⟨before, chosen, later, branch, rfl, rejected, fits, deeper⟩ := remaining
        refine ⟨candidate :: before, chosen, later, branch, rfl, ?_, fits, deeper⟩
        intro other member
        rcases List.mem_cons.mp member with rfl | earlier
        · exact fails
        · exact rejected other earlier

/-- **A search that returns is one that `Visits` describes.** -/
theorem visit_visits {levels : Nat} {state : State δ ν ω κ ε} {result : Option (State δ ν ω κ ε)}
    (run : visit edition input catalog levels state search = .ok (result, after)) :
    Visits edition input catalog state result := by
  induction levels generalizing state search result after with
  | zero => cases run
  | succ levels ih =>
    unfold visit at run
    cases unresolved : state.unresolved with
    | none =>
      simp only [unresolved] at run
      obtain rfl := (Prod.mk.inj (Except.ok.inj run)).1
      exact Visits.complete unresolved
    | some package =>
      simp only [unresolved] at run
      cases listed : catalog.byPackage[package]? with
      | none =>
        simp only [listed] at run
        obtain rfl := (Prod.mk.inj (Except.ok.inj run)).1
        refine Visits.exhausted unresolved fun candidate member => ?_
        rw [Std.TreeMap.getD_eq_getD_getElem?, listed] at member
        cases member
      | some candidates =>
        simp only [listed] at run
        have candidates_eq : catalog.byPackage.getD package [] = candidates := by
          rw [Std.TreeMap.getD_eq_getD_getElem?, listed, Option.getD_some]
        have spec := tryCandidates_spec ih run
        cases result with
        | none => exact Visits.exhausted unresolved (candidates_eq.symm ▸ spec)
        | some final =>
          obtain ⟨before, candidate, rest, branch, rfl, rejected, fits, deeper⟩ := spec
          exact Visits.chosen unresolved candidates_eq rejected fits deeper

end Candidate

end Semaprax.PackageResolver
