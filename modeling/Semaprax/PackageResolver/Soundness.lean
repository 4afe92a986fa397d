/-
**Soundness of the resolver.**

* `Tracks.solution` — a state with nothing left to decide is a solution.
* `solve_solution` — what the search returns is such a state.
* `solves_sound` — for both resolvers: what they return is a solution, and the depth they report is
  the length of its longest chain.
* `visit_limits` — a search that stops without a result has met the decision or the work limit.
* `authenticate_perm` — the order in which the subjects are given does not matter.
-/

import Semaprax.PackageResolver.Tracking

namespace Semaprax.PackageResolver

open Library Relation

variable {δ ν ω κ ε : Type} [LinearOrder ε]
variable {edition : Edition δ ν ω κ ε} {input : ResolutionInput} {catalog : Catalog δ ν}
variable {requirements : List ParsedRequirement}

def Solved.chosen (solved : Solved δ ν) : Assignment δ ν := fun package =>
  solved.selected[package]?

variable {package : String} {work spent : Nat}

/-- Once nothing is left to decide, whatever is demanded is selected. -/
theorem Tracks.chosen_of_demanded {state : State δ ν ω κ ε}
    (tracks : Tracks edition input catalog requirements state) (resolved : state.unresolved = none)
    (demanded : Demanded edition requirements state.chosen package) :
    ∃ entry, state.chosen package = some entry :=
  unresolved_none resolved ((PackageResolver.mem_packages _ _).mp (tracks.mem_packages demanded))

/-- What meets every constraint that is asked for. -/
theorem Tracks.chosen_of_asked {state : State δ ν ω κ ε}
    (tracks : Tracks edition input catalog requirements state) (resolved : state.unresolved = none)
    {value : ω}
    (asked : Asked edition requirements state.chosen package value) :
    ∃ entry, state.chosen package = some entry ∧ edition.admits value entry.version = true := by
  obtain ⟨entry, there⟩ := tracks.chosen_of_demanded resolved (asked.demanded tracks.reached)
  exact ⟨entry, there, tracks.met _ _ _ there ((tracks.asks _ _).mpr asked)⟩

theorem Tracks.solution {state : State δ ν ω κ ε}
    (tracks : Tracks edition input catalog requirements state) (lawful : edition.Lawful)
    (resolved : state.unresolved = none) :
    Solution edition input catalog requirements state.chosen where
  listed := tracks.listed
  exact package :=
    ⟨fun ⟨entry, there⟩ => tracks.reached _ entry there, tracks.chosen_of_demanded resolved⟩
  roots requirement member := by
    obtain ⟨entry, there, admits⟩ :=
      tracks.chosen_of_asked resolved (Or.inl ⟨requirement, member, rfl, rfl⟩)
    exact ⟨entry, there, (lawful.required _ _).symm.trans admits⟩
  rows package entry there row member := by
    obtain ⟨selected, there', admits⟩ :=
      tracks.chosen_of_asked resolved (Or.inr ⟨package, entry, there, row, member, rfl, rfl⟩)
    exact ⟨selected, there', (lawful.demanded _ _).symm.trans admits⟩
  permitted := tracks.permitted
  acyclic package cycle := by
    rcases tracks.graph_sound with ⟨-, acyclic, -⟩ | ⟨nothing, -⟩
    · exact acyclic package cycle
    · obtain ⟨dependency, -, entry, there, -⟩ := TransGen.tail'_iff.mp cycle
      rw [nothing] at there
      cases there

/-- The depth of a state with nothing left to decide. -/
theorem Tracks.longest {state : State δ ν ω κ ε}
    (tracks : Tracks edition input catalog requirements state) (resolved : state.unresolved = none) :
    LongestChain (· ∈ state.selected) (DependsOn edition state.chosen) state.depth := by
  have nodes : (· ∈ state.selected) = (· ∈ state.packages) := by
    funext package
    refine propext (Iff.trans Std.TreeMap.mem_iff_isSome_getElem? (Option.isSome_iff_exists.trans ?_))
    exact ⟨fun ⟨entry, there⟩ => tracks.chosen_mem there,
      fun member => unresolved_none resolved ((PackageResolver.mem_packages _ _).mp member)⟩
  rcases tracks.graph_sound with ⟨-, -, longest⟩ | ⟨nothing, depth⟩
  · rw [nodes]
    exact longest
  · refine ⟨⟨[], ⟨List.IsChain.nil, by simp⟩, depth.symm⟩, fun chain ofNodes => ?_⟩
    cases chain with
    | nil => exact Nat.zero_le _
    | cons package rest =>
      have member := ofNodes.nodes package List.mem_cons_self
      rw [Std.TreeMap.mem_iff_isSome_getElem?] at member
      have missing : state.selected[package]? = none := nothing package
      rw [missing] at member
      cases member

theorem Tracks.selected_size_le {state : State δ ν ω κ ε}
    (tracks : Tracks edition input catalog requirements state) :
    state.selected.size ≤ maxSelectedPackages := by
  have distinct : state.selected.keys.Nodup :=
    Std.TreeMap.distinct_keys.imp fun differ equal =>
      differ (Std.LawfulEqCmp.compare_eq_iff_eq.mpr equal)
  have there : ∀ package ∈ state.selected.keys, ∃ entry, state.chosen package = some entry :=
    fun package member => Option.isSome_iff_exists.mp
      (Std.TreeMap.mem_iff_isSome_getElem?.mp ((BTreeMap.mem_keys_iff _ _).mp member))
  rw [← Std.TreeMap.length_keys]
  rcases tracks.graph_sound with ⟨few, -, -⟩ | ⟨nothing, -⟩
  · refine (distinct.subperm fun package member => ?_).length_le.trans few
    obtain ⟨entry, chosen⟩ := there package member
    exact tracks.chosen_mem chosen
  · have empty : state.selected.keys = [] := by
      refine List.eq_nil_iff_forall_not_mem.mpr fun package member => ?_
      obtain ⟨entry, chosen⟩ := there package member
      rw [nothing] at chosen
      cases chosen
    rw [empty]
    exact Nat.zero_le _

variable [LinearOrder κ]

theorem Catalog.Indexed.candidate (indexed : catalog.Indexed)
    {candidate : Entry δ ν} (member : candidate ∈ catalog.byPackage.getD package []) :
    candidate ∈ catalog.entries ∧ candidate.package = package := by
  rw [Std.TreeMap.getD_eq_getD_getElem?] at member
  cases listed : catalog.byPackage[package]? with
  | none => simp [listed] at member
  | some versions => exact indexed.listed _ _ listed _ (by simpa [listed] using member)

/-- The search ends in a state with nothing left to decide. -/
theorem Visits.tracks {state : State δ ν ω κ ε} {result : Option (State δ ν ω κ ε)}
    (visits : Visits edition input catalog state result) (lawful : edition.Lawful)
    (indexed : catalog.Indexed) (tracks : Tracks edition input catalog requirements state)
    (final : State δ ν ω κ ε) (found : result = some final) :
    Tracks edition input catalog requirements final ∧ final.unresolved = none := by
  induction visits with
  | complete resolved =>
    obtain rfl := Option.some.inj found
    exact ⟨tracks, resolved⟩
  | exhausted => cases found
  | chosen unresolved listed _ branches _ _ ih =>
    refine ih (tracks.branch lawful unresolved (indexed.candidate ?_) branches) found
    rw [listed]
    exact List.mem_append_right _ List.mem_cons_self

theorem solve_eq_ok {solved : Solved δ ν}
    (run : solve edition input catalog requirements work = .ok (solved, spent)) :
    ∃ state search, visit edition input catalog levels (initial edition requirements)
        ⟨work, 0, false, false⟩ = .ok (some state, search) ∧
      solved = ⟨state.selected, state.edges.size, state.depth, search.decisions⟩ := by
  unfold solve at run
  obtain ⟨⟨result, search⟩, visited, run⟩ := bind_eq_ok.mp run
  cases result with
  | some state => exact ⟨state, search, visited, (Prod.mk.inj (Except.ok.inj run)).1.symm⟩
  | none =>
    dsimp only at run
    split at run
    · cases run
    · split at run <;> cases run

/-- What the search returns is a solution with the depth it reports. -/
theorem solve_solution (lawful : edition.Lawful) (indexed : catalog.Indexed) {solved : Solved δ ν}
    (run : solve edition input catalog requirements work = .ok (solved, spent)) :
    Solution edition input catalog requirements solved.chosen ∧
      LongestChain (· ∈ solved.selected) (DependsOn edition solved.chosen) solved.depth := by
  obtain ⟨state, search, visited, rfl⟩ := solve_eq_ok run
  have start : Tracks edition input catalog requirements (initial edition requirements) :=
    Tracks.initial
  obtain ⟨tracks, resolved⟩ := (visit_visits visited).tracks lawful indexed start state rfl
  exact ⟨tracks.solution lawful resolved, tracks.longest resolved⟩

/-- A computation that fails only at a limit. -/
def Limits (codes : Codes) {A : Type} (run : Except Halt A) : Prop :=
  ∀ halt, run = .error halt → ∃ message, halt = .refused (codes.limitError message)

theorem Limits.ok {codes : Codes} {A : Type} (value : A) : Limits codes (.ok value) :=
  fun _ failed => nomatch failed

theorem Limits.bind {codes : Codes} {A B : Type} {first : Except Halt A}
    {rest : A → Except Halt B} (limits : Limits codes first)
    (after : ∀ value, first = .ok value → Limits codes (rest value)) :
    Limits codes (first >>= rest) := by
  intro halt failed
  rcases bind_eq_error.mp failed with here | ⟨value, ran, later⟩
  · exact limits halt here
  · exact after value ran halt later

theorem charge_limits (codes : Codes) (search : Search) : Limits codes (search.charge codes) := by
  intro halt failed
  unfold Search.charge at failed
  cases charged : PackageResolver.charge codes search.work 1 with
  | ok work => simp [charged] at failed
  | error diagnostic =>
    simp only [charged, Except.error.injEq] at failed
    subst failed
    unfold PackageResolver.charge at charged
    split at charged
    · exact ⟨_, congrArg Halt.refused (Except.error.inj charged).symm⟩
    · split at charged
      · exact ⟨_, congrArg Halt.refused (Except.error.inj charged).symm⟩
      · cases charged

theorem insertRows_limits (candidate : Entry δ ν) (rows : List ((δ × ν) × Nat))
    (state : State δ ν ω κ ε) (search : Search) :
    Limits edition.codes (insertRows edition catalog candidate rows state search) := by
  induction rows generalizing state search with
  | nil => exact Limits.ok _
  | cons row rest ih =>
    unfold insertRows
    refine (charge_limits _ _).bind fun search _ => (charge_limits _ _).bind fun search _ => ?_
    split
    · exact ih _ _
    · exact Limits.ok _

theorem admitCandidate_limits {state : State δ ν ω κ ε}
    (named : package ∈ state.constraints) (candidate : Entry δ ν) (search : Search) :
    Limits edition.codes (admitCandidate edition input catalog package state candidate search) := by
  have constraintsLimits : ∀ (constraints : List (Constraint κ ω)) (search : Search),
      Limits edition.codes
        (admitConstraints edition candidate.version constraints search) := by
    intro constraints
    induction constraints with
    | nil => exact fun search => Limits.ok _
    | cons constraint rest ih =>
      intro search
      unfold admitConstraints
      refine (charge_limits _ _).bind fun search _ => ?_
      split
      · exact ih _
      · exact Limits.ok _
  have targetLimits : ∀ search : Search,
      Limits edition.codes (admitTarget edition input candidate search) := by
    intro search
    unfold admitTarget
    refine (charge_limits _ _).bind fun search _ => ?_
    split <;> exact Limits.ok _
  have capabilitiesLimits : ∀ (capabilities : List String) (search : Search),
      Limits edition.codes (admitCapabilities edition input capabilities search) := by
    intro capabilities
    induction capabilities with
    | nil => exact fun search => Limits.ok _
    | cons capability rest ih =>
      intro search
      unfold admitCapabilities
      refine (charge_limits _ _).bind fun search _ => ?_
      split
      · exact ih _
      · exact Limits.ok _
  obtain ⟨constraints, found⟩ :=
    Option.isSome_iff_exists.mp (Std.TreeMap.mem_iff_isSome_getElem?.mp named)
  unfold admitCandidate
  refine (charge_limits _ _).bind fun search _ => ?_
  simp only [found]
  refine (constraintsLimits _ _).bind fun outcome _ => ?_
  obtain ⟨admitted, search⟩ := outcome
  cases admitted with
  | false => exact Limits.ok _
  | true =>
  refine (targetLimits _).bind fun outcome _ => ?_
  obtain ⟨admitted, search⟩ := outcome
  cases admitted with
  | false => exact Limits.ok _
  | true =>
  refine (capabilitiesLimits _ _).bind fun outcome _ => ?_
  obtain ⟨admitted, search⟩ := outcome
  cases admitted with
  | false => exact Limits.ok _
  | true =>
  refine (insertRows_limits _ _ _ _).bind fun outcome _ => ?_
  obtain ⟨admitted, branch, search⟩ := outcome
  cases admitted with
  | false => exact Limits.ok _
  | true =>
    simp only [Bool.not_true, Bool.false_eq_true, if_false]
    split <;> exact Limits.ok _

theorem tryCandidates_limits
    {below : State δ ν ω κ ε → Search → Except Halt (Option (State δ ν ω κ ε) × Search)}
    {state : State δ ν ω κ ε} (named : package ∈ state.constraints)
    {candidates : List (Entry δ ν)}
    (limits : ∀ candidate ∈ candidates, ∀ branch,
      state.Branches edition input catalog package candidate branch →
      ∀ search, Limits edition.codes (below branch search)) (search : Search) :
    Limits edition.codes
      (tryCandidates edition input catalog below package state candidates search) := by
  induction candidates generalizing search with
  | nil => exact Limits.ok _
  | cons candidate rest ih =>
    unfold tryCandidates
    split
    · exact fun halt failed => ⟨_, (Except.error.inj failed).symm⟩
    refine (admitCandidate_limits named _ _).bind fun outcome admitted => ?_
    obtain ⟨branch?, search⟩ := outcome
    refine Limits.bind ?_ fun outcome _ => ?_
    · cases branch? with
      | none => exact Limits.ok _
      | some branch =>
        exact limits candidate List.mem_cons_self branch
          ((admitCandidate_spec admitted branch).mp rfl) search
    · obtain ⟨result, search⟩ := outcome
      cases result with
      | some final => exact Limits.ok _
      | none =>
        refine (charge_limits _ _).bind fun search _ => ih (fun other member => ?_) _
        exact limits other (List.mem_cons_of_mem _ member)

theorem branch_size (lawful : edition.Lawful) {state branch : State δ ν ω κ ε}
    {candidate : Entry δ ν} (fresh : state.chosen package = none)
    (branches : state.Branches edition input catalog package candidate branch) :
    branch.selected.size = state.selected.size + 1 := by
  obtain ⟨depth, -, rfl⟩ := Option.map_eq_some_iff.mp branches.2
  show (state.place edition package candidate).selected.size = _
  rw [(recorded_place lawful state package candidate).selected]
  exact BTreeMap.size_insert_fresh _ _ _ fresh

/-- **A search that stops without a result has met the decision or the work limit.** -/
theorem visit_limits (lawful : edition.Lawful) (indexed : catalog.Indexed) {levels : Nat}
    {state : State δ ν ω κ ε} (tracks : Tracks edition input catalog requirements state)
    (enough : maxSelectedPackages < state.selected.size + levels) (search : Search) :
    Limits edition.codes (visit edition input catalog levels state search) := by
  induction levels generalizing state search with
  | zero => exact absurd tracks.selected_size_le (not_le.mpr enough)
  | succ levels ih =>
    unfold visit
    cases unresolved : state.unresolved with
    | none => exact Limits.ok _
    | some package =>
      dsimp only
      obtain ⟨named, fresh⟩ := unresolved_some unresolved
      cases listed : catalog.byPackage[package]? with
      | none => exact Limits.ok _
      | some candidates =>
        refine tryCandidates_limits named (fun candidate member branch branches => ?_) search
        refine ih (tracks.branch lawful unresolved ?_ branches) ?_
        · exact indexed.listed _ _ listed _ member
        · rw [branch_size lawful fresh branches]
          omega

/-- On every catalog it authenticates, a resolver returns nothing but solutions, with the length of
their longest chain as their depth. -/
def Edition.Sound (edition : Edition δ ν ω κ ε) : Prop :=
  ∀ (parse : String → Nat → Except Diagnostic (Entry δ ν × Nat)) (input : ResolutionInput)
    (requirements : List ParsedRequirement) (catalog : Catalog δ ν) (solved : Solved δ ν)
    (work spent work' spent' : Nat),
    authenticate edition.codes parse input work = .ok (catalog, spent) →
    solve edition input catalog requirements work' = .ok (solved, spent') →
    Solution edition input catalog requirements solved.chosen ∧
      LongestChain (· ∈ solved.selected) (DependsOn edition solved.chosen) solved.depth

theorem Edition.Lawful.sound {edition : Edition δ ν ω κ ε} (lawful : edition.Lawful) :
    edition.Sound := by
  intro parse input requirements catalog solved work spent work' spent' authentic run
  exact solve_solution lawful (authenticate_indexed authentic) run

/-- **Both resolvers are sound.** -/
theorem solves_sound : packageResolver.Sound ∧ packageResolverV2.Sound :=
  ⟨packageResolver_lawful.sound, packageResolverV2_lawful.sound⟩

/-- A catalog of two packages: `app`, which asks for `lib` from 1.0 on, and three versions of
`lib`, the last of which is not available. -/
def readSample (bytes : String) (work : Nat) :
    Except Diagnostic (Entry DependencyRequirement Range × Nat) :=
  let entry (package text : String) (version : Version)
      (rows : List (DependencyRequirement × Range)) (status : String) :
      Entry DependencyRequirement Range :=
    ⟨⟨⟨package, text⟩, rows.map Prod.fst, [], Std.TreeMap.ofList [("wasm32", status)] compare⟩,
      version, rows.map Prod.snd⟩
  match bytes with
  | "app" => .ok (entry "app" "1.0.0" ⟨1, 0, 0⟩
      [(⟨"lib", "^1.0.0"⟩, .bounded ⟨1, 0, 0⟩ ⟨2, 0, 0⟩)] "available", work)
  | "lib-1.1" => .ok (entry "lib" "1.1.0" ⟨1, 1, 0⟩ [] "available", work)
  | "lib-1.2" => .ok (entry "lib" "1.2.0" ⟨1, 2, 0⟩ [] "available", work)
  | "lib-1.3" => .ok (entry "lib" "1.3.0" ⟨1, 3, 0⟩ [] "unavailable", work)
  | _ => .error ⟨"SPX-PR602", "unknown subject"⟩

def sampleInput : ResolutionInput :=
  ⟨["lib-1.2", "app", "lib-1.3", "lib-1.1"], "wasm32", []⟩

def sampleRequirements : List ParsedRequirement := [⟨"app", .exact ⟨1, 0, 0⟩, 0⟩]

/-- What the second resolver selects in the sample, and the depth. -/
def sampleRun : Option (List (String × Version) × Nat) :=
  match authenticate packageResolverV2.codes readSample sampleInput 0 with
  | .error _ => none
  | .ok (catalog, work) =>
    match solve packageResolverV2 sampleInput catalog sampleRequirements work with
    | .error _ => none
    | .ok (solved, _) =>
      some (solved.selected.toList.map fun row => (row.1, row.2.version), solved.depth)

theorem solves_sound_sample : ∃ catalog, ∃ solved : Solved DependencyRequirement Range,
    solved.selected.toList.map (fun row => (row.1, row.2.version)) =
      [("app", ⟨1, 0, 0⟩), ("lib", ⟨1, 2, 0⟩)] ∧ solved.depth = 2 ∧
    Solution packageResolverV2 sampleInput catalog sampleRequirements solved.chosen ∧
      LongestChain (· ∈ solved.selected) (DependsOn packageResolverV2 solved.chosen)
        solved.depth := by
  have ran : sampleRun = some ([("app", ⟨1, 0, 0⟩), ("lib", ⟨1, 2, 0⟩)], 2) := by decide +kernel
  unfold sampleRun at ran
  split at ran
  · cases ran
  rename_i catalog work authentic
  split at ran
  · cases ran
  rename_i solved spent run
  obtain ⟨selected, depth⟩ := Prod.mk.inj (Option.some.inj ran)
  exact ⟨catalog, solved, selected, depth, solves_sound.2 _ _ _ _ _ _ _ _ _ authentic run⟩

/-- The entries that are read, one for each subject, and the bytes that are counted. -/
theorem readSubjects_spec {parse : String → Nat → Except Diagnostic (Entry δ ν × Nat)}
    {subjects : List String} {totalBytes work : Nat} {entries : List (Entry δ ν)} {result : Nat × Nat}
    (read : readSubjects codes parse subjects totalBytes work = .ok (entries, result)) :
    subjects.Forall₂ (fun text entry => ∃ before after, parse text before = .ok (entry, after))
        entries ∧
      result.1 = totalBytes + (subjects.map String.utf8ByteSize).sum := by
  induction subjects generalizing totalBytes work entries result with
  | nil =>
    cases read
    exact ⟨.nil, rfl⟩
  | cons text subjects ih =>
    unfold readSubjects at read
    split_ifs at read
    obtain ⟨charged, -, read⟩ := bind_eq_ok.mp read
    obtain ⟨⟨entry, spent⟩, parsed, read⟩ := bind_eq_ok.mp read
    obtain ⟨⟨others, later⟩, rest, read⟩ := bind_eq_ok.mp read
    cases read
    obtain ⟨all, total⟩ := ih rest
    refine ⟨.cons ⟨_, _, parsed⟩ all, ?_⟩
    rw [total, List.map_cons, List.sum_cons, Nat.add_assoc]

/-- Entries that are indexed are told apart by their keys. -/
theorem Catalog.Indexed.key_inj {catalog : Catalog δ ν} (indexed : catalog.Indexed)
    {first second : Entry δ ν} (member : first ∈ catalog.entries)
    (listed : second ∈ catalog.entries) (same : first.key = second.key) : first = second := by
  obtain ⟨package, version⟩ := Prod.mk.inj (toLex.injective same)
  obtain ⟨versions, found, inside⟩ := indexed.complete first member
  obtain ⟨others, found', inside'⟩ := indexed.complete second listed
  rw [← package, found] at found'
  obtain rfl := Option.some.inj found'
  have distinct : (versions.map Entry.version).Nodup :=
    List.pairwise_map.mpr ((indexed.descending _ _ found).imp fun later => later.ne')
  exact List.inj_on_of_nodup_map distinct inside inside' version

instance : Std.Total (Entry.before (δ := δ) (ν := ν)) :=
  ⟨fun left right => le_total left.key right.key⟩

instance : IsTrans (Entry δ ν) Entry.before := ⟨fun _ _ _ => le_trans⟩

/-- What is read of a text does not depend on the work that was charged before. -/
def Steady (parse : String → Nat → Except Diagnostic (Entry δ ν × Nat)) : Prop :=
  ∀ text work work' entry entry' spent spent', parse text work = .ok (entry, spent) →
    parse text work' = .ok (entry', spent') → entry = entry'

/-- **The order in which the subjects are listed does not matter**: a catalog has the same entries and
indexes. -/
theorem authenticate_perm {codes : Codes}
    {parse : String → Nat → Except Diagnostic (Entry δ ν × Nat)} (steady : Steady parse)
    {input input' : ResolutionInput} (listed : input.subjects.Perm input'.subjects)
    {work work' spent spent' : Nat} {catalog catalog' : Catalog δ ν}
    (authentic : authenticate codes parse input work = .ok (catalog, spent))
    (authentic' : authenticate codes parse input' work' = .ok (catalog', spent')) :
    catalog = catalog' := by
  have indexed := authenticate_indexed authentic
  obtain ⟨unsorted, total, _, index, first, rest, read, sorted, built, rfl⟩ :=
    authenticate_made authentic
  obtain ⟨unsorted', total', _, index', first', rest', read', sorted', built', rfl⟩ :=
    authenticate_made authentic'
  obtain ⟨all, counted⟩ := readSubjects_spec read
  obtain ⟨all', counted'⟩ := readSubjects_spec read'
  have unique : Relator.RightUnique fun text (entry : Entry δ ν) =>
      ∃ before after, parse text before = .ok (entry, after) :=
    fun _ _ _ ⟨_, _, parsed⟩ ⟨_, _, parsed'⟩ => steady _ _ _ _ _ _ _ parsed parsed'
  have perm : (first :: rest).Perm (first' :: rest') := by
    rw [← sorted, ← sorted']
    exact (List.perm_insertionSort ..).trans
      ((List.rel_perm_imp unique all all' listed).trans (List.perm_insertionSort ..).symm)
  have entries : first :: rest = first' :: rest' := by
    refine List.Perm.eq_of_pairwise (fun one other member member' below above =>
      indexed.key_inj member (perm.mem_iff.mpr member') (le_antisymm below above)) ?_ ?_ perm
    · exact sorted ▸ List.pairwise_insertionSort Entry.before unsorted
    · exact sorted' ▸ List.pairwise_insertionSort Entry.before unsorted'
  obtain ⟨rfl, rfl⟩ := List.cons.inj entries
  obtain rfl := Except.ok.inj (built.symm.trans built')
  have total : total = total' := by
    dsimp only at counted counted'
    rw [counted, counted', (listed.map _).sum_eq]
  rw [total]

/-- The sample, listed the other way round. -/
theorem authenticate_perm_sample : ∃ catalog spent spent',
    authenticate packageResolverV2.codes readSample sampleInput 0 = .ok (catalog, spent) ∧
      authenticate packageResolverV2.codes readSample
        { sampleInput with subjects := sampleInput.subjects.reverse } 0 = .ok (catalog, spent') := by
  have steady : Steady readSample := by
    intro text work work' entry entry' spent spent' parsed parsed'
    unfold readSample at parsed parsed'
    split at parsed <;> cases parsed <;> cases parsed' <;> rfl
  have read : (authenticate packageResolverV2.codes readSample sampleInput 0).toOption.isSome ∧
      (authenticate packageResolverV2.codes readSample
        { sampleInput with subjects := sampleInput.subjects.reverse } 0).toOption.isSome := by
    decide +kernel
  cases authentic : authenticate packageResolverV2.codes readSample sampleInput 0 with
  | error diagnostic => simp [authentic, Except.toOption] at read
  | ok result =>
    cases authentic' : authenticate packageResolverV2.codes readSample
        { sampleInput with subjects := sampleInput.subjects.reverse } 0 with
    | error diagnostic => simp [authentic', Except.toOption] at read
    | ok result' =>
      have same := authenticate_perm steady (List.reverse_perm _).symm authentic authentic'
      exact ⟨result.1, result.2, result'.2, rfl, congrArg (fun catalog => Except.ok (catalog, _)) same.symm⟩

end Semaprax.PackageResolver
