/-
**Completeness of the resolver, and its preference.**

A test that rejects a candidate looks at a part of what would be chosen. Whatever it objects to is
there in every choice that contains this part, so a rejected candidate belongs to no solution that
extends what is selected.

* `Records.fits` — a candidate that some admissible solution chooses passes every test.
* `Visits.complete_none` — where the search finds nothing there is no admissible solution.
* `Decides` — the packages in the order in which they are decided, none of them with a higher version
  that an admissible solution could have taken.
* `visit_complete` — for `package_resolver_v2`: the search stops at a limit, or finds nothing where
  there is nothing, or returns a solution that is preferred at every decision.
-/

import Semaprax.PackageResolver.Soundness

namespace Semaprax.PackageResolver

open Library Relation

variable {δ ν ω κ ε : Type}

section Extends

variable {edition : Edition δ ν ω κ ε} {input : ResolutionInput} {catalog : Catalog δ ν}
variable {requirements : List ParsedRequirement} {chosen smaller : Assignment δ ν}

variable {package : String}

theorem Solution.admits (solution : Solution edition input catalog requirements chosen)
    (lawful : edition.Lawful) (extends' : chosen.Extends smaller) {value : ω}
    (asked : Asked edition requirements smaller package value) :
    ∃ entry, chosen package = some entry ∧ edition.admits value entry.version = true := by
  rcases asked with ⟨requirement, member, rfl, rfl⟩ | ⟨dependent, entry, there, row, member, rfl, rfl⟩
  · obtain ⟨entry, there, contains⟩ := solution.roots requirement member
    exact ⟨entry, there, (lawful.required _ _).trans contains⟩
  · obtain ⟨selected, there', agrees⟩ :=
      solution.rows dependent entry (extends' _ _ there) row member
    exact ⟨selected, there', (lawful.demanded _ _).trans agrees⟩

theorem length_le_of_encard_le {A : Type} {list : List A} {set : Set A} {n : Nat}
    (distinct : list.Nodup) (inside : ∀ a ∈ list, a ∈ set) (bound : set.encard ≤ n) :
    list.length ≤ n := by
  classical
  have counted : (list.toFinset : Set A).encard = list.length := by
    rw [Set.encard_coe_eq_coe_finsetCard, List.toFinset_card_of_nodup distinct]
  have subset : (list.toFinset : Set A) ⊆ set := fun a member =>
    inside a (List.mem_toFinset.mp (Finset.mem_coe.mp member))
  have le := (Set.encard_le_encard subset).trans bound
  rw [counted] at le
  exact_mod_cast le

variable [LinearOrder ε]

theorem Records.validates {state : State δ ν ω κ ε} (records : Records edition requirements state)
    (separate : Function.Injective edition.ends)
    (solution : Solution edition input catalog requirements chosen)
    (bounds : WithinBounds edition requirements chosen)
    (extends' : chosen.Extends state.chosen) :
    ∃ depth, validateGraph state.packages (state.joins edition) = some depth := by
  have nodes : ∀ package ∈ state.packages, Demanded edition requirements chosen package := by
    intro package member
    obtain ⟨value, asks⟩ := records.named package ((PackageResolver.mem_packages _ _).mp member)
    exact (((records.asks _ _).mp asks).demanded records.reached).mono extends'
  have steps : ∀ u v, Edge (state.joins edition) u v → DependsOn edition chosen u v :=
    fun u v edge => ((records.edges u v).mp edge).mono extends'
  have distinct : (state.joins edition).Nodup :=
    List.Nodup.map separate (Std.TreeSet.distinct_toList.imp fun differ equal =>
      differ (Std.LawfulEqCmp.compare_eq_iff_eq.mpr equal))
  refine validateGraph_complete records.ends (nodup_packages state)
    (length_le_of_encard_le (nodup_packages state) nodes bounds.packages)
    (length_le_of_encard_le distinct (fun edge member => steps edge.1 edge.2 member) bounds.edges)
    (fun package cycle => solution.acyclic package (TransGen.mono steps _ _ cycle))
    (fun chain ofNodes => bounds.depth chain (ofNodes.mono nodes steps))

variable [LinearOrder κ]

/-- **A candidate that some admissible solution chooses passes every test.** -/
theorem Records.fits {state : State δ ν ω κ ε} {candidate : Entry δ ν}
    (records : Records edition requirements state) (lawful : edition.Lawful)
    (separate : Function.Injective edition.ends) (indexed : catalog.Indexed)
    (unresolved : state.unresolved = some package)
    (solution : Solution edition input catalog requirements chosen)
    (bounds : WithinBounds edition requirements chosen) (extends' : chosen.Extends state.chosen)
    (chooses : chosen package = some candidate) :
    ∃ branch, state.Branches edition input catalog package candidate branch ∧
      chosen.Extends branch.chosen := by
  have ofPackage := (solution.listed _ _ chooses).2
  have adds := adds_place lawful state package candidate
  have placed := records.place lawful unresolved ofPackage
  have contains : chosen.Extends (state.place edition package candidate).chosen := by
    intro other entry there
    rcases adds.cases there with ⟨rfl, rfl⟩ | old
    · exact chooses
    · exact extends' _ _ old
  obtain ⟨depth, graph⟩ := placed.validates separate solution bounds contains
  refine ⟨{ state.place edition package candidate with depth := depth },
    ⟨⟨fun constraint member => ?_, solution.permitted _ _ chooses, fun row member => ?_⟩,
      by rw [State.validated, graph, Option.map_some]⟩, contains⟩
  · obtain ⟨entry, there, admits⟩ := solution.admits lawful extends'
      ((records.asks package constraint.value).mp ⟨constraint, member, rfl⟩)
    rw [chooses] at there
    obtain rfl := Option.some.inj there
    exact admits
  · obtain ⟨selected, there, agrees⟩ := solution.rows package candidate chooses row member
    obtain ⟨listed, named⟩ := solution.listed _ _ there
    unfold consistent
    rw [Bool.and_eq_true]
    refine ⟨lawful.known indexed selected listed named agrees, ?_⟩
    rw [← (recorded_place lawful state package candidate).selected]
    cases held : (state.place edition package candidate).selected[edition.package row.1]? with
    | none => rfl
    | some entry =>
      have same := contains _ _ held
      rw [there] at same
      obtain rfl := Option.some.inj same
      exact agrees

/-- **Where the search finds nothing there is no admissible solution** that extends what is
selected. -/
theorem Visits.complete_none {state : State δ ν ω κ ε} {result : Option (State δ ν ω κ ε)}
    (visits : Visits edition input catalog state result) (lawful : edition.Lawful)
    (separate : Function.Injective edition.ends) (indexed : catalog.Indexed)
    (tracks : Tracks edition input catalog requirements state) (nothing : result = none)
    (solution : Solution edition input catalog requirements chosen)
    (bounds : WithinBounds edition requirements chosen) :
    ¬ chosen.Extends state.chosen := by
  induction visits with
  | complete | chosen => cases nothing
  | @exhausted state package unresolved _ ih =>
    intro extends'
    obtain ⟨value, asks⟩ := tracks.named package (unresolved_some unresolved).1
    obtain ⟨candidate, chooses, -⟩ :=
      solution.admits lawful extends' ((tracks.asks _ _).mp asks)
    obtain ⟨listed, ofPackage⟩ := solution.listed _ _ chooses
    have member : candidate ∈ catalog.byPackage.getD package [] := by
      obtain ⟨versions, found, inside⟩ := indexed.complete candidate listed
      rw [ofPackage] at found
      rwa [Std.TreeMap.getD_eq_getD_getElem?, found]
    obtain ⟨branch, branches, contains⟩ := tracks.toRecords.fits lawful separate indexed unresolved
      solution bounds extends' chooses
    exact ih candidate member branch branches
      (tracks.branch lawful unresolved ⟨listed, ofPackage⟩ branches) rfl contains

end Extends

section Preference

variable (edition : Edition δ ν ω κ ε) (input : ResolutionInput) (catalog : Catalog δ ν)
variable (requirements : List ParsedRequirement) (chosen : Assignment δ ν)

def Names (earlier : List String) (package : String) : Prop :=
  (∃ requirement ∈ requirements, requirement.package = package) ∨
    ∃ dependent ∈ earlier, DependsOn edition chosen package dependent

/-- An admissible solution that keeps the earlier choices and takes this entry. -/
def Completes (earlier : List String) (package : String) (entry : Entry δ ν) : Prop :=
  ∃ other : Assignment δ ν, Solution edition input catalog requirements other ∧
    WithinBounds edition requirements other ∧
    (∀ decided ∈ earlier, other decided = chosen decided) ∧ other package = some entry

/-- The packages that remain to be decided after the earlier ones, in order: always the least that
is named and not yet decided, and with the highest version that an admissible solution could have. -/
inductive Decides : List String → List String → Prop
  | finished {earlier} (closed : ∀ package, Names edition requirements chosen earlier package →
      package ∈ earlier) : Decides earlier []
  | next {earlier package later entry}
      (least : IsLeast {package | Names edition requirements chosen earlier package ∧
        package ∉ earlier} package)
      (there : chosen package = some entry)
      (best : ∀ higher ∈ catalog.entries, higher.package = package →
        entry.version < higher.version →
        ¬ Completes edition input catalog requirements chosen earlier package higher)
      (rest : Decides (earlier ++ [package]) later) : Decides earlier (package :: later)

end Preference

section Decides

variable {edition : Edition δ ν ω κ ε} {input : ResolutionInput} {catalog : Catalog δ ν}
variable {requirements : List ParsedRequirement}
variable [LinearOrder ε]

variable {earlier : List String}

theorem unresolved_least {state : State δ ν ω κ ε} {package other : String}
    (unresolved : state.unresolved = some package) (named : other ∈ state.constraints)
    (open' : state.chosen other = none) : package ≤ other := by
  obtain ⟨-, before, after, split, decided⟩ := List.find?_eq_some_iff_append.mp unresolved
  have member := (mem_packages state other).mpr named
  rw [split] at member
  rcases List.mem_append.mp member with early | late
  · have held := decided other early
    rw [Bool.not_not, Std.TreeMap.contains_eq_isSome_getElem?] at held
    rw [State.chosen] at open'
    rw [open'] at held
    cases held
  · rcases List.mem_cons.mp late with rfl | later
    · exact le_rfl
    · have sorted : (before ++ package :: after).Pairwise fun a b => compare a b = .lt :=
        split ▸ Std.TreeMap.ordered_keys
      have above := (List.pairwise_cons.mp (List.pairwise_append.mp sorted).2.1).1 other later
      exact (compare_lt_iff_lt.mp above).le

theorem Records.names_iff {state : State δ ν ω κ ε} (records : Records edition requirements state)
    {final : Assignment δ ν}
    (decided : ∀ package, package ∈ earlier ↔ ∃ entry, state.chosen package = some entry)
    (extends' : final.Extends state.chosen) (package : String) :
    Names edition requirements final earlier package ↔ package ∈ state.constraints := by
  constructor
  · rintro (⟨requirement, member, rfl⟩ | ⟨dependent, member, entry, there, row, inside, rfl⟩)
    · exact ((records.asks _ _).mpr (Or.inl ⟨requirement, member, rfl, rfl⟩)).mem
    · obtain ⟨entry', chosen⟩ := (decided dependent).mp member
      have same := extends' _ _ chosen
      rw [there] at same
      obtain rfl := Option.some.inj same
      exact ((records.asks _ _).mpr (Or.inr ⟨dependent, entry, chosen, row, inside, rfl, rfl⟩)).mem
  · intro named
    obtain ⟨value, asks⟩ := records.named package named
    rcases (records.asks _ _).mp asks with ⟨requirement, member, rfl, -⟩ |
      ⟨dependent, entry, there, row, inside, rfl, -⟩
    · exact Or.inl ⟨requirement, member, rfl⟩
    · exact Or.inr ⟨dependent, (decided dependent).mpr ⟨entry, there⟩, entry,
        extends' _ _ there, row, inside, rfl⟩

variable [LinearOrder κ]

/-- The search never takes a choice back in what it returns. -/
theorem Visits.extends {state : State δ ν ω κ ε} {result : Option (State δ ν ω κ ε)}
    (visits : Visits edition input catalog state result) (lawful : edition.Lawful)
    (final : State δ ν ω κ ε) (found : result = some final) :
    final.chosen.Extends state.chosen := by
  induction visits with
  | complete =>
    obtain rfl := Option.some.inj found
    exact fun _ _ there => there
  | exhausted => cases found
  | @chosen state package _ _ candidate branch _ unresolved _ _ branches _ _ ih =>
    intro other entry there
    refine ih found other entry ?_
    obtain ⟨depth, -, rfl⟩ := Option.map_eq_some_iff.mp branches.2
    exact (adds_place lawful state package candidate).extends (unresolved_some unresolved).2
      other entry there

/-- **The search decides the least package first, and for the highest version that can be
completed.** -/
theorem Visits.decides {state : State δ ν ω κ ε} {result : Option (State δ ν ω κ ε)}
    (visits : Visits edition input catalog state result) (lawful : edition.Lawful)
    (separate : Function.Injective edition.ends) (indexed : catalog.Indexed)
    (tracks : Tracks edition input catalog requirements state)
    {final : State δ ν ω κ ε} (found : result = some final)
    (decided : ∀ package, package ∈ earlier ↔ ∃ entry, state.chosen package = some entry) :
    ∃ later, Decides edition input catalog requirements final.chosen earlier later ∧
      ∀ package, package ∈ earlier ++ later ↔ ∃ entry, final.chosen package = some entry := by
  have contains := visits.extends lawful final found
  induction visits generalizing earlier with
  | @complete state resolved =>
    obtain rfl := Option.some.inj found
    refine ⟨[], Decides.finished fun package named => ?_, by simpa using decided⟩
    exact (decided package).mpr
      (unresolved_none resolved ((tracks.names_iff decided contains package).mp named))
  | exhausted => cases found
  | @chosen state package before after candidate branch _ unresolved listed rejected branches rest
      _ ih =>
    obtain ⟨named, fresh⟩ := unresolved_some unresolved
    have member : candidate ∈ catalog.byPackage.getD package [] := by
      rw [listed]
      exact List.mem_append_right _ List.mem_cons_self
    have ofPackage := indexed.candidate member
    have adds : branch.chosen.Adds state.chosen package candidate := by
      obtain ⟨depth, -, rfl⟩ := Option.map_eq_some_iff.mp branches.2
      exact adds_place lawful state package candidate
    have contains' := rest.extends lawful final found
    have decided' : ∀ other, other ∈ earlier ++ [package] ↔
        ∃ entry, branch.chosen other = some entry := by
      intro other
      rw [List.mem_append, List.mem_singleton, decided]
      constructor
      · rintro (⟨entry, there⟩ | rfl)
        · exact ⟨entry, adds.extends fresh _ _ there⟩
        · exact ⟨candidate, adds.here⟩
      · rintro ⟨entry, there⟩
        rcases adds.cases there with ⟨rfl, -⟩ | old
        · exact Or.inr rfl
        · exact Or.inl ⟨entry, old⟩
    obtain ⟨later, decides, selects⟩ :=
      ih (tracks.branch lawful unresolved ofPackage branches) found decided' contains'
    refine ⟨package :: later, Decides.next ⟨⟨?_, fun old => ?_⟩, fun other => ?_⟩
      (contains' _ _ adds.here) ?_ decides, fun other => ?_⟩
    · exact (tracks.names_iff decided contains package).mpr named
    · obtain ⟨entry, there⟩ := (decided package).mp old
      rw [fresh] at there
      cases there
    · rintro ⟨names, undecided⟩
      refine unresolved_least unresolved ((tracks.names_iff decided contains other).mp names) ?_
      rw [← Option.not_isSome_iff_eq_none, Option.isSome_iff_exists, ← decided]
      exact undecided
    · rintro higher member ofPackage' above ⟨better, solution, bounds, keeps, chooses⟩
      have extends' : better.Extends state.chosen := by
        intro other entry there
        rw [keeps other ((decided other).mpr ⟨entry, there⟩)]
        exact contains _ _ there
      -- a higher version stands before the candidate and was rejected
      have earlier' : higher ∈ before := by
        obtain ⟨versions, found', inside⟩ := indexed.complete higher member
        rw [ofPackage'] at found'
        have all : versions = before ++ candidate :: after := by
          rw [← listed, Std.TreeMap.getD_eq_getD_getElem?, found', Option.getD_some]
        have sorted := indexed.descending package versions found'
        rw [all] at inside sorted
        rcases List.mem_append.mp inside with early | late
        · exact early
        · exfalso
          rcases List.mem_cons.mp late with rfl | lower
          · exact lt_irrefl _ above
          · have below := (List.pairwise_cons.mp (List.pairwise_append.mp sorted).2.1).1
              higher lower
            exact lt_asymm above below
      obtain ⟨branch', branches', contains''⟩ := tracks.toRecords.fits lawful separate indexed
        unresolved solution bounds extends' chooses
      exact (rejected higher earlier' branch' branches').complete_none lawful separate indexed
        (tracks.branch lawful unresolved ⟨member, ofPackage'⟩ branches') rfl solution bounds
        contains''
    · rw [← selects other, List.append_assoc]
      rfl

end Decides

/-- **Completeness and preference of `package_resolver_v2`.** On an authenticated catalog the search
stops at the decision or work limit, or finds nothing where no admissible solution exists, or returns
a solution whose packages are decided least first and none of which could have had a higher
version. -/
theorem visit_complete
    (parse : String → Nat → Except Diagnostic (Entry DependencyRequirement Range × Nat))
    (input : ResolutionInput) (requirements : List ParsedRequirement)
    (catalog : Catalog DependencyRequirement Range) (search : Search) (work spent : Nat)
    (authentic : authenticate packageResolverV2.codes parse input work = .ok (catalog, spent)) :
    Limits packageResolverV2.codes (visit packageResolverV2 input catalog levels
      (initial packageResolverV2 requirements) search) ∧
    (∀ after, visit packageResolverV2 input catalog levels
        (initial packageResolverV2 requirements) search = .ok (none, after) →
      ¬ ∃ chosen, Solution packageResolverV2 input catalog requirements chosen ∧
        WithinBounds packageResolverV2 requirements chosen) ∧
    (∀ state after, visit packageResolverV2 input catalog levels
        (initial packageResolverV2 requirements) search = .ok (some state, after) →
      ∃ order, Decides packageResolverV2 input catalog requirements state.chosen [] order ∧
        ∀ package, package ∈ order ↔ ∃ entry, state.chosen package = some entry) := by
  have indexed := authenticate_indexed authentic
  have lawful := packageResolverV2_lawful
  have separate : Function.Injective packageResolverV2.ends := ofLex.injective
  have start : Tracks packageResolverV2 input catalog requirements
      (initial packageResolverV2 requirements) := Tracks.initial
  have nothing := initial_chosen packageResolverV2 requirements
  refine ⟨visit_limits lawful indexed start (Nat.lt_of_lt_of_le (Nat.lt_succ_self _)
    (Nat.le_add_left _ _)) search, fun after run => ?_, fun state after run => ?_⟩
  · rintro ⟨chosen, solution, bounds⟩
    refine (visit_visits run).complete_none lawful separate indexed start rfl solution bounds ?_
    intro package entry there
    rw [nothing] at there
    cases there
  · have decided : ∀ package, package ∈ ([] : List String) ↔
        ∃ entry, (initial packageResolverV2 requirements).chosen package = some entry := by
      simp [nothing]
    obtain ⟨order, decides, selects⟩ :=
      (visit_visits run).decides lawful separate indexed start rfl decided
    exact ⟨order, decides, selects⟩

/-- Whether the second resolver finds something in the sample catalog. -/
def sampleVisit (requirements : List ParsedRequirement) : Option Bool :=
  match authenticate packageResolverV2.codes readSample sampleInput 0 with
  | .error _ => none
  | .ok (catalog, work) =>
    match visit packageResolverV2 sampleInput catalog levels
      (initial packageResolverV2 requirements) ⟨work, 0, false, false⟩ with
    | .error _ => none
    | .ok (result, _) => some result.isSome

/-- In the sample there is a preferred solution for `app`, and none for the unavailable version of
`lib`. -/
theorem visit_complete_sample : ∃ catalog,
    (∃ state : State DependencyRequirement Range Range (String ×ₗ Version) (String ×ₗ String),
      ∃ order, Decides packageResolverV2 sampleInput catalog sampleRequirements
        state.chosen [] order) ∧
    ¬ ∃ chosen, Solution packageResolverV2 sampleInput catalog [⟨"lib", .exact ⟨1, 3, 0⟩, 0⟩]
      chosen ∧ WithinBounds packageResolverV2 [⟨"lib", .exact ⟨1, 3, 0⟩, 0⟩] chosen := by
  have found : sampleVisit sampleRequirements = some true := by decide +kernel
  have missed : sampleVisit [⟨"lib", .exact ⟨1, 3, 0⟩, 0⟩] = some false := by decide +kernel
  unfold sampleVisit at found missed
  cases authentic : authenticate packageResolverV2.codes readSample sampleInput 0 with
  | error diagnostic => simp [authentic] at found
  | ok result =>
    obtain ⟨catalog, work⟩ := result
    simp only [authentic] at found missed
    refine ⟨catalog, ?_, ?_⟩
    · split at found
      · cases found
      rename_i result after run
      obtain ⟨state, rfl⟩ := Option.isSome_iff_exists.mp (Option.some.inj found)
      obtain ⟨order, decides, -⟩ :=
        (visit_complete _ _ _ _ _ _ _ authentic).2.2 state after run
      exact ⟨state, order, decides⟩
    · split at missed
      · cases missed
      rename_i result after run
      have none' := Option.not_isSome_iff_eq_none.mp (Bool.eq_false_iff.mp (Option.some.inj missed))
      subst none'
      exact (visit_complete _ _ _ _ _ _ _ authentic).2.1 after run

end Semaprax.PackageResolver
