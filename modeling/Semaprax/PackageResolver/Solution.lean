/-
**What a resolver is for.**

An assignment of catalog entries to packages, whatever found it, is a solution when it chooses an
entry for exactly the packages that are reachable from the requirements, every requirement and every
row is satisfied, every entry is permitted, and nothing depends on itself.

* `Demanded` — the packages reachable from the requirements through the rows of what is chosen.
* `Solution`, `WithinBounds` — the solutions, and those of admissible size.
* `Edition.Lawful` — what the two resolvers have in common, for `packageResolver` and
  `packageResolverV2`.
-/

import Semaprax.PackageResolver.Solver

namespace Semaprax.PackageResolver

open Library Relation

variable {δ ν ω κ ε : Type}

/-- A choice of entries. -/
abbrev Assignment (δ ν : Type) := String → Option (Entry δ ν)

/-- One assignment chooses whatever another does. -/
def Assignment.Extends (larger smaller : Assignment δ ν) : Prop :=
  ∀ package entry, smaller package = some entry → larger package = some entry

def Assignment.Adds (after before : Assignment δ ν) (package : String) (candidate : Entry δ ν) :
    Prop :=
  ∀ other, after other = if package = other then some candidate else before other

/-- The target and the capabilities of an entry are in order. -/
structure Permitted (input : ResolutionInput) (entry : Entry δ ν) : Prop where
  available : entry.subject.targets[input.target]? = some "available"
  allowed : ∀ capability ∈ entry.subject.capabilities, capability ∈ input.allowedCapabilities

section Solution

variable (edition : Edition δ ν ω κ ε) (input : ResolutionInput) (catalog : Catalog δ ν)
variable (requirements : List ParsedRequirement)

/-- What is chosen for the second package has a row that names the first. -/
def DependsOn (chosen : Assignment δ ν) (dependency dependent : String) : Prop :=
  ∃ entry, chosen dependent = some entry ∧
    ∃ row ∈ entry.rows, edition.package row.1 = dependency

/-- The packages reachable from the requirements through the rows of what is chosen. -/
inductive Demanded (chosen : Assignment δ ν) : String → Prop
  | root {requirement} (member : requirement ∈ requirements) :
      Demanded chosen requirement.package
  | row {dependency dependent} (demanded : Demanded chosen dependent)
      (step : DependsOn edition chosen dependency dependent) : Demanded chosen dependency

/-- A complete and valid choice. -/
structure Solution (chosen : Assignment δ ν) : Prop where
  listed : ∀ package entry, chosen package = some entry →
    entry ∈ catalog.entries ∧ entry.package = package
  exact : ∀ package,
    (∃ entry, chosen package = some entry) ↔ Demanded edition requirements chosen package
  roots : ∀ requirement ∈ requirements, ∃ entry,
    chosen requirement.package = some entry ∧ requirement.range.contains entry.version = true
  rows : ∀ package entry, chosen package = some entry → ∀ row ∈ entry.rows, ∃ selected,
    chosen (edition.package row.1) = some selected ∧ edition.agrees row.2 selected.version = true
  permitted : ∀ package entry, chosen package = some entry → Permitted input entry
  acyclic : ∀ package, ¬ TransGen (DependsOn edition chosen) package package

/-- A choice of admissible size: packages, edges and the length of chains. -/
structure WithinBounds (chosen : Assignment δ ν) : Prop where
  packages : {package | Demanded edition requirements chosen package}.encard ≤ maxSelectedPackages
  edges : {edge : String × String | DependsOn edition chosen edge.1 edge.2}.encard ≤ maxEdges
  depth : ∀ chain, ChainOf (Demanded edition requirements chosen) (DependsOn edition chosen) chain →
    chain.length ≤ maxDepth

end Solution

section Adds

variable {after before : Assignment δ ν} {package : String} {candidate : Entry δ ν}

theorem Assignment.Adds.here (adds : after.Adds before package candidate) :
    after package = some candidate := by
  rw [adds, if_pos rfl]

theorem Assignment.Adds.cases (adds : after.Adds before package candidate) {other : String}
    {entry : Entry δ ν} (there : after other = some entry) :
    (other = package ∧ entry = candidate) ∨ before other = some entry := by
  rw [adds] at there
  split at there
  · rename_i same
    exact Or.inl ⟨same.symm, (Option.some.inj there).symm⟩
  · exact Or.inr there

theorem Assignment.Adds.extends (adds : after.Adds before package candidate)
    (fresh : before package = none) : after.Extends before := by
  intro other entry there
  rw [adds, if_neg, there]
  rintro rfl
  rw [fresh] at there
  cases there

end Adds

section Extends

variable {edition : Edition δ ν ω κ ε} {requirements : List ParsedRequirement}
variable {larger smaller : Assignment δ ν}

theorem DependsOn.mono (extends' : larger.Extends smaller) {dependency dependent : String}
    (step : DependsOn edition smaller dependency dependent) :
    DependsOn edition larger dependency dependent := by
  obtain ⟨entry, chosen, row⟩ := step
  exact ⟨entry, extends' _ _ chosen, row⟩

theorem Demanded.mono (extends' : larger.Extends smaller) {package : String}
    (demanded : Demanded edition requirements smaller package) :
    Demanded edition requirements larger package := by
  induction demanded with
  | root member => exact Demanded.root member
  | row _ step ih => exact Demanded.row ih (step.mono extends')

end Extends

/-- An edition reads its rows consistently. -/
structure Edition.Lawful (edition : Edition δ ν ω κ ε) : Prop where
  ends : ∀ dependency (dependent : Coordinate),
    edition.ends (edition.edge dependency dependent) =
      (edition.package dependency, dependent.package)
  required : ∀ range version,
    edition.admits (edition.required range) version = range.contains version
  demanded : ∀ value version,
    edition.admits (edition.demanded value) version = edition.agrees value version
  known : ∀ {catalog : Catalog δ ν} {dependency value}, catalog.Indexed →
    ∀ entry ∈ catalog.entries, entry.package = edition.package dependency →
      edition.agrees value entry.version = true → edition.known catalog dependency value = true

theorem packageResolver_lawful : packageResolver.Lawful where
  ends _ _ := rfl
  required _ _ := rfl
  demanded expected version := decide_eq_decide.mpr eq_comm
  known {catalog dependency value} indexed entry member ofPackage agrees := by
    show catalog.byCoordinate.contains _ = true
    rw [Std.TreeMap.contains_iff_mem, indexed.coordinates]
    refine ⟨entry, member, ?_⟩
    rw [Entry.key, ofPackage, show entry.version = value from of_decide_eq_true agrees]
    rfl

theorem packageResolverV2_lawful : packageResolverV2.Lawful where
  ends _ _ := rfl
  required _ _ := rfl
  demanded _ _ := rfl
  known {catalog dependency _} indexed entry member ofPackage _ := by
    refine List.any_eq_true.mpr ⟨entry.key, ?_, decide_eq_true ofPackage⟩
    rw [BTreeMap.mem_keys_iff, indexed.coordinates]
    exact ⟨entry, member, rfl⟩

end Semaprax.PackageResolver
