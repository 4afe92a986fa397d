/-
**What a state of the search records.**

A state of the search is the record of what is selected: its constraints are the requirements and
the rows of the selected entries, its edges are the dependencies among them, and every constraint on
a selected package is met. This holds at the start and is kept by every branch, whether a constraint
arrives before its package is selected or after.

* `recorded_requirements`, `recorded_place` — what the requirements and the rows of a candidate add.
* `Tracks` — the invariant; `Tracks.initial` and `Tracks.branch` establish and keep it.
* `Tracks.graph_sound` — the graph that a state has passed is that of what it selects.
-/

import Semaprax.PackageResolver.Branching

namespace Semaprax.PackageResolver

open Library Relation

variable {δ ν ω κ ε : Type}

section Asks

variable [LinearOrder ε]

def State.Asks (state : State δ ν ω κ ε) (package : String) (value : ω) : Prop :=
  ∃ constraint ∈ state.constraints.getD package [], constraint.value = value

def State.chosen (state : State δ ν ω κ ε) : Assignment δ ν := fun package =>
  state.selected[package]?

theorem State.Asks.mem {state : State δ ν ω κ ε} {package : String} {value : ω}
    (asks : state.Asks package value) : package ∈ state.constraints := by
  obtain ⟨constraint, member, -⟩ := asks
  rw [Std.TreeMap.mem_iff_isSome_getElem?]
  rw [Std.TreeMap.getD_eq_getD_getElem?] at member
  cases found : state.constraints[package]? with
  | none => simp [found] at member
  | some constraints => rfl

variable {edition : Edition δ ν ω κ ε}

theorem asks_require (state : State δ ν ω κ ε) (requirement : ParsedRequirement)
    (package : String) (value : ω) :
    (state.require edition requirement).Asks package value ↔
      state.Asks package value ∨
        (requirement.package = package ∧ edition.required requirement.range = value) := by
  simp only [State.Asks, State.require, Std.TreeMap.getD_insert, Std.LawfulEqCmp.compare_eq_iff_eq]
  by_cases same : requirement.package = package
  · subst same
    simp only [if_true, List.mem_append, List.mem_singleton, or_and_right, exists_or,
      exists_eq_left, true_and]
  · simp only [same, if_false, false_and, or_false]

theorem recorded_requirements (edition : Edition δ ν ω κ ε)
    (requirements : List ParsedRequirement) (state : State δ ν ω κ ε) :
    let after := requirements.foldl (fun state requirement => state.require edition requirement) state
    after.selected = state.selected ∧ after.edges = state.edges ∧ after.depth = state.depth ∧
      (∀ package value, after.Asks package value ↔ state.Asks package value ∨
        ∃ requirement ∈ requirements,
          requirement.package = package ∧ edition.required requirement.range = value) ∧
      ((∀ package ∈ state.constraints, ∃ value, state.Asks package value) →
        ∀ package ∈ after.constraints, ∃ value, after.Asks package value) := by
  induction requirements generalizing state with
  | nil => exact ⟨rfl, rfl, rfl, by simp, id⟩
  | cons requirement rest ih =>
    obtain ⟨selected, edges, depth, asks, named⟩ := ih (state.require edition requirement)
    refine ⟨selected, edges, depth, fun package value => ?_, fun before => named ?_⟩
    · rw [List.foldl_cons, asks, asks_require, List.exists_mem_cons_iff, or_assoc]
    · intro package member
      rcases (BTreeMap.mem_insert_iff _ _ _ _).mp member with same | old
      · exact ⟨_, (asks_require _ _ _ _).mpr (Or.inr ⟨same, rfl⟩)⟩
      · obtain ⟨value, asked⟩ := before package old
        exact ⟨value, (asks_require _ _ _ _).mpr (Or.inl asked)⟩

variable [LinearOrder κ]

theorem asks_demand (state : State δ ν ω κ ε) (candidate : Entry δ ν) (row : (δ × ν) × Nat)
    (package : String) (value : ω) :
    (state.demand edition candidate row).Asks package value ↔
      state.Asks package value ∨
        (edition.package row.1.1 = package ∧ edition.demanded row.1.2 = value) := by
  simp only [State.Asks, State.demand, Std.TreeMap.getD_insert, Std.LawfulEqCmp.compare_eq_iff_eq]
  by_cases same : edition.package row.1.1 = package
  · subst same
    simp only [if_true, List.mem_insertionSort, List.mem_append, List.mem_singleton, or_and_right,
      exists_or, exists_eq_left, true_and]
  · simp only [same, if_false, false_and, or_false]

theorem edge_demand (lawful : edition.Lawful) (state : State δ ν ω κ ε) (candidate : Entry δ ν)
    (row : (δ × ν) × Nat) (u v : String) :
    Edge ((state.demand edition candidate row).joins edition) u v ↔
      Edge (state.joins edition) u v ∨ (edition.package row.1.1 = u ∧ candidate.package = v) := by
  simp only [Edge, State.joins, State.demand, List.mem_map, Std.TreeSet.mem_toList,
    BTreeSet.mem_insert_iff, or_and_right, exists_or, exists_eq_left', lawful.ends, Prod.mk.injEq]
  exact or_comm

/-- What recording every row of a candidate adds. -/
structure Recorded (edition : Edition δ ν ω κ ε) (rows : List (δ × ν)) (dependent : String)
    (before after : State δ ν ω κ ε) : Prop where
  selected : after.selected = before.selected
  asks : ∀ package value, after.Asks package value ↔ before.Asks package value ∨
    ∃ row ∈ rows, edition.package row.1 = package ∧ edition.demanded row.2 = value
  edges : ∀ u v, Edge (after.joins edition) u v ↔ Edge (before.joins edition) u v ∨
    ∃ row ∈ rows, edition.package row.1 = u ∧ dependent = v
  named : (∀ package ∈ before.constraints, ∃ value, before.Asks package value) →
    ∀ package ∈ after.constraints, ∃ value, after.Asks package value

theorem recorded_demands (lawful : edition.Lawful) (candidate : Entry δ ν)
    (rows : List ((δ × ν) × Nat)) (state : State δ ν ω κ ε) :
    Recorded edition (rows.map Prod.fst) candidate.package state
      (rows.foldl (fun state row => state.demand edition candidate row) state) := by
  induction rows generalizing state with
  | nil => exact ⟨rfl, by simp, by simp, id⟩
  | cons row rest ih =>
    obtain ⟨selected, asks, edges, named⟩ := ih (state.demand edition candidate row)
    refine ⟨selected, fun package value => ?_, fun u v => ?_, fun before => named ?_⟩
    · rw [List.foldl_cons, asks, asks_demand, List.map_cons, List.exists_mem_cons_iff, or_assoc]
    · rw [List.foldl_cons, edges, edge_demand lawful, List.map_cons, List.exists_mem_cons_iff,
        or_assoc]
    · intro package member
      rcases (BTreeMap.mem_insert_iff _ _ _ _).mp member with same | old
      · exact ⟨_, (asks_demand _ _ _ _ _).mpr (Or.inr ⟨same, rfl⟩)⟩
      · obtain ⟨value, asked⟩ := before package old
        exact ⟨value, (asks_demand _ _ _ _ _).mpr (Or.inl asked)⟩

theorem recorded_place (lawful : edition.Lawful) (state : State δ ν ω κ ε) (package : String)
    (candidate : Entry δ ν) :
    Recorded edition candidate.rows candidate.package (state.select package candidate)
      (state.place edition package candidate) := by
  have recorded := recorded_demands lawful candidate candidate.rows.zipIdx
    (state.select package candidate)
  rwa [List.zipIdx_map_fst] at recorded

theorem adds_place (lawful : edition.Lawful) (state : State δ ν ω κ ε) (package : String)
    (candidate : Entry δ ν) :
    (state.place edition package candidate).chosen.Adds state.chosen package candidate := by
  intro other
  unfold State.chosen
  rw [(recorded_place lawful state package candidate).selected]
  exact BTreeMap.getElem?_insert_eq _ _ _ _

end Asks

section Tracks

/-- A constraint with this value on the package comes from a requirement or from a row of what is
chosen. -/
def Asked (edition : Edition δ ν ω κ ε) (requirements : List ParsedRequirement)
    (chosen : Assignment δ ν) (package : String) (value : ω) : Prop :=
  (∃ requirement ∈ requirements,
    requirement.package = package ∧ edition.required requirement.range = value) ∨
  ∃ dependent entry, chosen dependent = some entry ∧
    ∃ row ∈ entry.rows, edition.package row.1 = package ∧ edition.demanded row.2 = value

theorem Asked.demanded {edition : Edition δ ν ω κ ε} {requirements : List ParsedRequirement}
    {chosen : Assignment δ ν} {package : String} {value : ω}
    (reached : ∀ package entry, chosen package = some entry →
      Demanded edition requirements chosen package)
    (asked : Asked edition requirements chosen package value) :
    Demanded edition requirements chosen package := by
  rcases asked with ⟨requirement, member, rfl, -⟩ | ⟨dependent, entry, there, row, member, rfl, -⟩
  · exact Demanded.root member
  · exact Demanded.row (reached _ _ there) ⟨entry, there, row, member, rfl⟩

theorem Demanded.asked {edition : Edition δ ν ω κ ε} {requirements : List ParsedRequirement}
    {chosen : Assignment δ ν} {package : String}
    (demanded : Demanded edition requirements chosen package) :
    ∃ value, Asked edition requirements chosen package value := by
  cases demanded with
  | root member => exact ⟨_, Or.inl ⟨_, member, rfl, rfl⟩⟩
  | row _ step =>
    obtain ⟨entry, there, row, inside, named⟩ := step
    exact ⟨_, Or.inr ⟨_, entry, there, row, inside, named, rfl⟩⟩

section Adds

variable {edition : Edition δ ν ω κ ε} {requirements : List ParsedRequirement}
variable {after before : Assignment δ ν} {package : String} {candidate : Entry δ ν}

theorem Assignment.Adds.asked_iff (adds : after.Adds before package candidate)
    (fresh : before package = none) (other : String) (value : ω) :
    Asked edition requirements after other value ↔ Asked edition requirements before other value ∨
      ∃ row ∈ candidate.rows, edition.package row.1 = other ∧ edition.demanded row.2 = value := by
  constructor
  · rintro (root | ⟨dependent, entry, there, row, inside, rfl, rfl⟩)
    · exact Or.inl (Or.inl root)
    · rcases adds.cases there with ⟨rfl, rfl⟩ | old
      · exact Or.inr ⟨row, inside, rfl, rfl⟩
      · exact Or.inl (Or.inr ⟨dependent, entry, old, row, inside, rfl, rfl⟩)
  · rintro ((root | ⟨dependent, entry, there, row⟩) | row)
    · exact Or.inl root
    · exact Or.inr ⟨dependent, entry, adds.extends fresh _ _ there, row⟩
    · exact Or.inr ⟨package, candidate, adds.here, row⟩

theorem Assignment.Adds.dependsOn_iff (adds : after.Adds before package candidate)
    (fresh : before package = none) (u v : String) :
    DependsOn edition after u v ↔ DependsOn edition before u v ∨
      ∃ row ∈ candidate.rows, edition.package row.1 = u ∧ package = v := by
  constructor
  · rintro ⟨entry, there, row, inside, rfl⟩
    rcases adds.cases there with ⟨rfl, rfl⟩ | old
    · exact Or.inr ⟨row, inside, rfl, rfl⟩
    · exact Or.inl ⟨entry, old, row, inside, rfl⟩
  · rintro (old | ⟨row, inside, rfl, rfl⟩)
    · exact old.mono (adds.extends fresh)
    · exact ⟨candidate, adds.here, row, inside, rfl⟩

end Adds

variable [LinearOrder ε]

theorem mem_packages (state : State δ ν ω κ ε) (package : String) :
    package ∈ state.packages ↔ package ∈ state.constraints :=
  BTreeMap.mem_keys_iff _ _

theorem nodup_packages (state : State δ ν ω κ ε) : state.packages.Nodup :=
  Std.TreeMap.distinct_keys.imp fun differ equal =>
    differ (Std.LawfulEqCmp.compare_eq_iff_eq.mpr equal)

variable (edition : Edition δ ν ω κ ε) (input : ResolutionInput) (catalog : Catalog δ ν)
variable (requirements : List ParsedRequirement)

/-- A state is the record of what it selects: its constraints are the requirements and the rows of
the selected entries, its edges their dependencies, and nothing is selected without being demanded. -/
structure Records (state : State δ ν ω κ ε) : Prop where
  asks : ∀ package value,
    state.Asks package value ↔ Asked edition requirements state.chosen package value
  named : ∀ package ∈ state.constraints, ∃ value, state.Asks package value
  edges : ∀ u v, Edge (state.joins edition) u v ↔ DependsOn edition state.chosen u v
  reached : ∀ package entry, state.chosen package = some entry →
    Demanded edition requirements state.chosen package

/-- The invariant of the search: a record in which every constraint on a selected package is met,
with permitted entries of the catalog, and whose graph has been checked. -/
structure Tracks (state : State δ ν ω κ ε) : Prop
    extends Records edition requirements state where
  listed : ∀ package entry, state.chosen package = some entry →
    entry ∈ catalog.entries ∧ entry.package = package
  met : ∀ package entry value, state.chosen package = some entry → state.Asks package value →
    edition.admits value entry.version = true
  permitted : ∀ package entry, state.chosen package = some entry → Permitted input entry
  graph : validateGraph state.packages (state.joins edition) = some state.depth ∨
    ((∀ package, state.chosen package = none) ∧ state.depth = 0)

variable {edition input catalog requirements}

theorem unresolved_some {state : State δ ν ω κ ε} {package : String}
    (unresolved : state.unresolved = some package) :
    package ∈ state.constraints ∧ state.chosen package = none := by
  refine ⟨(mem_packages _ _).mp (List.mem_of_find?_eq_some unresolved), ?_⟩
  have missing := List.find?_some unresolved
  rw [Bool.not_eq_true', ← Bool.not_eq_true, Std.TreeMap.contains_iff_mem] at missing
  exact Std.TreeMap.getElem?_eq_none missing

theorem unresolved_none {state : State δ ν ω κ ε} (resolved : state.unresolved = none)
    {package : String} (named : package ∈ state.constraints) :
    ∃ entry, state.chosen package = some entry := by
  have found := List.find?_eq_none.mp resolved package ((mem_packages _ _).mpr named)
  rw [Bool.not_eq_true', Bool.not_eq_false, Std.TreeMap.contains_iff_mem] at found
  exact Option.isSome_iff_exists.mp (Std.TreeMap.mem_iff_isSome_getElem?.mp found)

/-- Nothing is selected at the start. -/
theorem initial_chosen (edition : Edition δ ν ω κ ε) (requirements : List ParsedRequirement)
    (package : String) : (initial edition requirements).chosen package = none := by
  have start := recorded_requirements edition requirements ⟨∅, ∅, ∅, 0⟩
  unfold State.chosen initial
  rw [start.1]
  exact Std.TreeMap.getElem?_emptyc

theorem Tracks.initial : Tracks edition input catalog requirements
    (initial edition requirements) := by
  obtain ⟨-, edges, depth, asks, named⟩ :=
    recorded_requirements edition requirements (⟨∅, ∅, ∅, 0⟩ : State δ ν ω κ ε)
  have nothing := initial_chosen edition requirements
  have absent : ∀ {P : Prop} {package entry},
      (PackageResolver.initial edition requirements).chosen package = some entry → P :=
    fun chosen => nomatch (nothing _).symm.trans chosen
  refine ⟨⟨fun package value => (asks package value).trans ?_, named ?_, fun u v => ?_,
    fun _ _ => absent⟩, fun _ _ => absent, fun _ _ _ => absent, fun _ _ => absent,
    Or.inr ⟨nothing, depth⟩⟩
  · simp only [State.Asks, Std.TreeMap.getD_emptyc, List.not_mem_nil, false_and, exists_false,
      false_or]
    refine ⟨Or.inl, ?_⟩
    rintro (root | ⟨dependent, entry, chosen, -⟩)
    · exact root
    · exact absent chosen
  · exact fun package member => absurd member Std.TreeMap.not_mem_emptyc
  · refine ⟨fun edge => ?_, fun ⟨entry, chosen, _⟩ => absent chosen⟩
    unfold Edge State.joins PackageResolver.initial at edge
    rw [edges] at edge
    simp at edge

theorem Records.mem_packages {state : State δ ν ω κ ε}
    (records : Records edition requirements state) {package : String}
    (demanded : Demanded edition requirements state.chosen package) : package ∈ state.packages := by
  obtain ⟨value, asked⟩ := demanded.asked
  exact (PackageResolver.mem_packages _ _).mpr ((records.asks _ _).mpr asked).mem

theorem Records.chosen_mem {state : State δ ν ω κ ε}
    (records : Records edition requirements state) {package : String}
    {entry : Entry δ ν} (there : state.chosen package = some entry) : package ∈ state.packages :=
  records.mem_packages (records.reached _ _ there)

theorem Records.ends {state : State δ ν ω κ ε}
    (records : Records edition requirements state) (u v : String)
    (edge : Edge (state.joins edition) u v) : u ∈ state.packages ∧ v ∈ state.packages := by
  have step := (records.edges u v).mp edge
  obtain ⟨entry, there, -⟩ := id step
  have demanded := records.reached v entry there
  exact ⟨records.mem_packages (demanded.row step), records.mem_packages demanded⟩

/-- A relation of packages, of the graph or of what is selected. -/
theorem Records.edge_eq {state : State δ ν ω κ ε} (records : Records edition requirements state) :
    Edge (state.joins edition) = DependsOn edition state.chosen :=
  funext fun u => funext fun v => propext (records.edges u v)

/-- **The graph of a state**: few packages, no cycle, and the depth of its longest chain. -/
theorem Tracks.graph_sound {state : State δ ν ω κ ε}
    (tracks : Tracks edition input catalog requirements state) :
    (state.packages.length ≤ maxSelectedPackages ∧
      (∀ package, ¬ TransGen (DependsOn edition state.chosen) package package) ∧
      LongestChain (· ∈ state.packages) (DependsOn edition state.chosen) state.depth) ∨
    ((∀ package, state.chosen package = none) ∧ state.depth = 0) := by
  rcases tracks.graph with graph | nothing
  · obtain ⟨few, -, -, acyclic, longest⟩ :=
      validateGraph_sound tracks.ends (nodup_packages state) graph
    rw [tracks.edge_eq] at acyclic longest
    exact Or.inl ⟨few, acyclic, longest⟩
  · exact Or.inr nothing

variable [LinearOrder κ]

theorem Records.place {state : State δ ν ω κ ε} {package : String} {candidate : Entry δ ν}
    (records : Records edition requirements state) (lawful : edition.Lawful)
    (unresolved : state.unresolved = some package) (ofPackage : candidate.package = package) :
    Records edition requirements (state.place edition package candidate) := by
  obtain ⟨named, fresh⟩ := unresolved_some unresolved
  have adds := adds_place lawful state package candidate
  obtain ⟨-, asks, edges, named'⟩ := recorded_place lawful state package candidate
  refine ⟨fun other value => ?_, named' records.named, fun u v => ?_, fun other entry there => ?_⟩
  · rw [asks, adds.asked_iff fresh, ← records.asks]
    rfl
  · rw [edges, adds.dependsOn_iff fresh, ← records.edges, ofPackage]
    rfl
  · rcases adds.cases there with ⟨rfl, rfl⟩ | old
    · obtain ⟨value, asked⟩ := records.named _ named
      have demanded := ((records.asks _ _).mp asked).demanded records.reached
      exact demanded.mono (adds.extends fresh)
    · exact (records.reached _ _ old).mono (adds.extends fresh)

/-- **A branch keeps the invariant.** -/
theorem Tracks.branch {state branch : State δ ν ω κ ε} {package : String} {candidate : Entry δ ν}
    (tracks : Tracks edition input catalog requirements state) (lawful : edition.Lawful)
    (unresolved : state.unresolved = some package)
    (listed : candidate ∈ catalog.entries ∧ candidate.package = package)
    (branches : state.Branches edition input catalog package candidate branch) :
    Tracks edition input catalog requirements branch := by
  obtain ⟨fits, validated⟩ := branches
  have records := tracks.toRecords.place lawful unresolved listed.2
  have adds := adds_place lawful state package candidate
  obtain ⟨selected, asks, -, -⟩ := recorded_place lawful state package candidate
  obtain ⟨depth, graph, rfl⟩ := Option.map_eq_some_iff.mp validated
  refine ⟨⟨records.asks, records.named, records.edges, records.reached⟩,
    fun other entry there => ?_, fun other entry value there asked => ?_,
    fun other entry there => ?_, Or.inl graph⟩
  · rcases adds.cases there with ⟨rfl, rfl⟩ | old
    · exact listed
    · exact tracks.listed _ _ old
  · rcases (asks other value).mp asked with old | ⟨row, inside, rfl, rfl⟩
    -- a constraint from before: the candidate is checked against it, the others met it already
    · rcases adds.cases there with ⟨rfl, rfl⟩ | before
      · obtain ⟨constraint, member, rfl⟩ := old
        exact fits.admitted constraint member
      · exact tracks.met _ _ _ before old
    -- a row of the candidate is checked against what is selected, the candidate included
    · have holds := fits.consistent row inside
      unfold consistent at holds
      rw [Bool.and_eq_true, ← selected] at holds
      have agrees := holds.2
      have here : (state.place edition package candidate).selected[edition.package row.1]? =
          some entry := there
      rw [here] at agrees
      rw [lawful.demanded]
      exact agrees
  · rcases adds.cases there with ⟨rfl, rfl⟩ | old
    · exact fits.permitted
    · exact tracks.permitted _ _ old

end Tracks

end Semaprax.PackageResolver
