/-
**What an accepted model promises.**

* `ScopedTaskModel.Sound` — the scopes form one tree, with the depths and the children that the tables
  give; every task lives in a scope; the dependencies are between tasks, and well founded.
* `tryNew_sound` — a model that is accepted is sound.
-/

import Semaprax.ScopedTasks.Model

namespace Semaprax.ScopedTasks

open Library

def ScopedTaskModel.parentOf (model : ScopedTaskModel) :
    DeclarationId → Option (Option DeclarationId) := parentIn model.scopes

/-- The dependency relation. -/
def ScopedTaskModel.Depends (model : ScopedTaskModel) (prerequisite dependent : DeclarationId) :
    Prop :=
  toLex (prerequisite, dependent) ∈ model.dependencies

/-- The shape of a model on which its runs rely. -/
structure ScopedTaskModel.Sound (model : ScopedTaskModel) : Prop where
  root : model.parentOf model.root = some none
  single : ∀ id, model.parentOf id = some none → id = model.root
  deep : ∀ (id : DeclarationId) (entry : ScopeEntry), model.scopes[id]? = some entry →
    DepthOf model.parentOf id entry.depth
  children : ∀ above below, below ∈ targetsOf model.children above ↔
    model.parentOf below = some (some above)
  homes : ∀ (id : DeclarationId) (entry : TaskEntry), model.tasks[id]? = some entry →
    entry.scope ∈ model.scopes
  ends : ∀ prerequisite dependent, model.Depends prerequisite dependent →
    prerequisite ∈ model.tasks ∧ dependent ∈ model.tasks
  acyclic : WellFounded model.Depends

theorem refuseIf_eq_ok {condition : Prop} [Decidable condition] {error : ScopedTasksError}
    {result : Unit} : refuseIf condition error = .ok result ↔ ¬ condition := by
  unfold refuseIf
  split_ifs with refused
  · exact ⟨(nomatch ·), fun passed => absurd refused passed⟩
  · exact ⟨fun _ => refused, fun _ => rfl⟩

theorem expect_eq_ok {A : Type} {found : Option A} {value : A} :
    expect found = .ok value ↔ found = some value := by
  cases found with
  | none => exact ⟨(nomatch ·), (nomatch ·)⟩
  | some other =>
    exact ⟨fun equal => congrArg some (Except.ok.inj equal),
      fun equal => congrArg Except.ok (Option.some.inj equal)⟩

section Scopes

variable {scopes : List ScopeSpec} {parents after : Parents}

variable {depths depths' : BTreeMap DeclarationId Nat} {cursor : DeclarationId}
variable {stack : List DeclarationId} {rest : List (DeclarationId × Option DeclarationId)}
variable {entries entries' : BTreeMap DeclarationId ScopeEntry}

theorem scopeParents_some (built : scopeParents scopes parents = .ok after) (id : DeclarationId)
    (parent : Option DeclarationId) : after[id]? = some parent ↔
      parents[id]? = some parent ∨ ∃ scope ∈ scopes, scope.id = id ∧ scope.parent = parent := by
  induction scopes generalizing parents with
  | nil =>
    obtain rfl := Except.ok.inj built
    simp
  | cons scope scopes ih =>
    unfold scopeParents at built
    obtain ⟨_, -, built⟩ := bind_eq_ok.mp built
    obtain ⟨_, fresh, built⟩ := bind_eq_ok.mp built
    rw [refuseIf_eq_ok, Std.TreeMap.mem_iff_isSome_getElem?, Option.not_isSome_iff_eq_none]
      at fresh
    rw [ih built, BTreeMap.getElem?_insert_eq]
    simp only [List.mem_cons, exists_eq_or_imp]
    split_ifs with same
    · rw [← same, fresh]
      simp
    · simp [same]

theorem checkRoots_single (single : checkRoots scopes = .ok ()) {first second : ScopeSpec}
    (isFirst : first ∈ scopes) (isSecond : second ∈ scopes) (root : first.parent = none)
    (root' : second.parent = none) : first = second := by
  unfold checkRoots at single
  obtain ⟨_, -, single⟩ := bind_eq_ok.mp single
  rw [refuseIf_eq_ok, not_not, List.length_eq_one_iff] at single
  obtain ⟨only, single⟩ := single
  have inside : ∀ scope ∈ scopes, scope.parent = none → scope = only := by
    intro scope member isRoot
    have kept : scope ∈ scopes.filter fun scope => scope.parent.isNone :=
      List.mem_filter.mpr ⟨member, by rw [isRoot]; rfl⟩
    rw [single] at kept
    exact List.mem_singleton.mp kept
  rw [inside first isFirst root, inside second isSecond root']

def Passed (parents : Parents) : DeclarationId → List DeclarationId → Prop
  | _, [] => True
  | cursor, name :: stack => parents[name]? = some (some cursor) ∧ Passed parents name stack

/-- The table has the depths of its scopes. -/
def DepthsOf (parents : Parents) (depths : BTreeMap DeclarationId Nat) : Prop :=
  ∀ (id : DeclarationId) (depth : Nat), depths[id]? = some depth →
    DepthOf (fun id => parents[id]?) id depth

theorem climb_depth (sound : DepthsOf parents depths) {room : Nat}
    {climbed : List DeclarationId × DeclarationId × Nat} (passed : Passed parents cursor stack)
    (ran : climb parents depths room cursor stack = .ok climbed) :
    DepthOf (fun id => parents[id]?) climbed.2.1 climbed.2.2 ∧
      Passed parents climbed.2.1 climbed.1 := by
  induction room generalizing cursor stack with
  | zero =>
    unfold climb at ran
    split at ran
    · rename_i known found
      obtain rfl := Except.ok.inj ran
      exact ⟨sound cursor known found, passed⟩
    · split at ran
      · exact nomatch ran
      · rename_i isRoot
        obtain rfl := Except.ok.inj ran
        exact ⟨.root isRoot, passed⟩
      · exact nomatch ran
  | succ room ih =>
    unfold climb at ran
    split at ran
    · rename_i known found
      obtain rfl := Except.ok.inj ran
      exact ⟨sound cursor known found, passed⟩
    · split at ran
      · exact nomatch ran
      · rename_i isRoot
        obtain rfl := Except.ok.inj ran
        exact ⟨.root isRoot, passed⟩
      · rename_i parent isChild
        have passed' : Passed parents parent (cursor :: stack) := ⟨isChild, passed⟩
        exact ih passed' ran

theorem DepthsOf.insert (sound : DepthsOf parents depths)
    {id : DeclarationId} {depth : Nat} (deep : DepthOf (fun id => parents[id]?) id depth) :
    DepthsOf parents (depths.insert id depth) := by
  intro other depth' found
  rw [BTreeMap.getElem?_insert_eq] at found
  split_ifs at found with same
  · obtain rfl := Option.some.inj found
    exact same ▸ deep
  · exact sound other depth' found

theorem descend_depths {running : Nat} (sound : DepthsOf parents depths)
    (deep : DepthOf (fun id => parents[id]?) cursor running)
    (passed : Passed parents cursor stack) (ran : descend stack running depths = .ok depths') :
    DepthsOf parents depths' := by
  induction stack generalizing cursor running depths with
  | nil =>
    obtain rfl := Except.ok.inj ran
    exact sound
  | cons name stack ih =>
    unfold descend at ran
    obtain ⟨_, -, ran⟩ := bind_eq_ok.mp ran
    have deeper := DepthOf.child passed.1 deep
    exact ih (sound.insert deeper) deeper passed.2 ran

theorem canonicalDepths_depths {ids : List DeclarationId} (sound : DepthsOf parents depths)
    (ran : canonicalDepths parents ids depths = .ok depths') : DepthsOf parents depths' := by
  induction ids generalizing depths with
  | nil =>
    obtain rfl := Except.ok.inj ran
    exact sound
  | cons id ids ih =>
    unfold canonicalDepths at ran
    obtain ⟨climbed, climbs, ran⟩ := bind_eq_ok.mp ran
    obtain ⟨between, descends, ran⟩ := bind_eq_ok.mp ran
    have start : Passed parents id [] := trivial
    obtain ⟨deep, passed⟩ := climb_depth sound start climbs
    have sound' := descend_depths sound deep passed descends
    refine ih (fun other depth found => ?_) ran
    rw [Std.TreeMap.getElem?_insertIfNew] at found
    split_ifs at found with here
    · obtain rfl := Option.some.inj found
      rw [Std.LawfulEqCmp.compare_eq_iff_eq] at here
      exact here.1 ▸ deep
    · exact sound' other depth found

theorem scopeEntries_some (distinct : (rest.map Prod.fst).Nodup)
    (built : scopeEntries depths rest entries = .ok entries') (id : DeclarationId)
    (entry : ScopeEntry) : entries'[id]? = some entry ↔
      ((id, entry.parent) ∈ rest ∧ depths[id]? = some entry.depth) ∨
        (id ∉ rest.map Prod.fst ∧ entries[id]? = some entry) := by
  induction rest generalizing entries with
  | nil =>
    obtain rfl := Except.ok.inj built
    simp
  | cons first rest ih =>
    obtain ⟨name, parent⟩ := first
    unfold scopeEntries at built
    obtain ⟨depth, found, built⟩ := bind_eq_ok.mp built
    rw [expect_eq_ok] at found
    rw [List.map_cons, List.nodup_cons] at distinct
    rw [ih distinct.2 built, BTreeMap.getElem?_insert_eq]
    have absent : ∀ parent, (name, parent) ∉ rest := fun parent member =>
      distinct.1 (List.mem_map.mpr ⟨_, member, rfl⟩)
    by_cases same : name = id
    · subst same
      obtain ⟨above, level⟩ := entry
      simp only [absent, distinct.1, found, List.mem_cons, List.map_cons, Prod.mk.injEq,
        if_true, not_false_eq_true, Option.some.injEq, ScopeEntry.mk.injEq, true_and, false_and,
        or_false, false_or, not_true_eq_false, eq_comm]
    · simp [same, Ne.symm same]

theorem scopeEntries_deep (built : scopeEntries depths rest entries = .ok entries') :
    ∀ scope ∈ rest, ∃ depth, depths[scope.1]? = some depth := by
  induction rest generalizing entries with
  | nil => exact List.forall_mem_nil _
  | cons first rest ih =>
    obtain ⟨name, parent⟩ := first
    unfold scopeEntries at built
    obtain ⟨depth, found, built⟩ := bind_eq_ok.mp built
    intro scope member
    rcases List.mem_cons.mp member with rfl | old
    · exact ⟨depth, expect_eq_ok.mp found⟩
    · exact ih built scope old

end Scopes

section Tasks

variable {scopes : BTreeMap DeclarationId ScopeEntry} {tasks : BTreeMap DeclarationId TaskEntry}

theorem taskEntries_homes {specs : List TaskSpec} {entries : BTreeMap DeclarationId TaskEntry}
    (built : taskEntries scopes specs entries = .ok tasks)
    (homes : ∀ (id : DeclarationId) (entry : TaskEntry),
      entries[id]? = some entry → entry.scope ∈ scopes) :
    ∀ (id : DeclarationId) (entry : TaskEntry),
      tasks[id]? = some entry → entry.scope ∈ scopes := by
  induction specs generalizing entries with
  | nil =>
    obtain rfl := Except.ok.inj built
    exact homes
  | cons spec specs ih =>
    unfold taskEntries at built
    obtain ⟨_, -, built⟩ := bind_eq_ok.mp built
    obtain ⟨_, known, built⟩ := bind_eq_ok.mp built
    obtain ⟨_, -, built⟩ := bind_eq_ok.mp built
    obtain ⟨_, -, built⟩ := bind_eq_ok.mp built
    rw [refuseIf_eq_ok, not_not] at known
    refine ih built fun id entry found => ?_
    rw [BTreeMap.getElem?_insert_eq] at found
    split_ifs at found with same
    · obtain rfl := Option.some.inj found
      exact known
    · exact homes id entry found

theorem dependencySet_ends {specs : List DependencyEdge}
    {edges edges' : BTreeSet (DeclarationId ×ₗ DeclarationId)}
    (built : dependencySet scopes tasks specs edges = .ok edges')
    (ends : ∀ edge ∈ edges, (ofLex edge).1 ∈ tasks ∧ (ofLex edge).2 ∈ tasks) :
    ∀ edge ∈ edges', (ofLex edge).1 ∈ tasks ∧ (ofLex edge).2 ∈ tasks := by
  induction specs generalizing edges with
  | nil =>
    obtain rfl := Except.ok.inj built
    exact ends
  | cons spec specs ih =>
    unfold dependencySet at built
    split at built
    · rename_i prerequisite dependent found found'
      iterate 3 obtain ⟨_, -, built⟩ := bind_eq_ok.mp built
      refine ih built fun edge member => ?_
      rcases (BTreeSet.mem_insert_iff ..).mp member with rfl | old
      · constructor <;> rw [Std.TreeMap.mem_iff_isSome_getElem?]
        · exact Option.isSome_iff_exists.mpr ⟨_, found⟩
        · exact Option.isSome_iff_exists.mpr ⟨_, found'⟩
      · exact ends edge old
    · exact nomatch built

variable {dependencies : BTreeSet (DeclarationId ×ₗ DeclarationId)}

theorem mem_edgeList (edge : DeclarationId × DeclarationId) :
    edge ∈ edgeList dependencies ↔ toLex edge ∈ dependencies := by
  unfold edgeList
  rw [List.mem_map]
  constructor
  · rintro ⟨other, member, rfl⟩
    exact (BTreeSet.mem_toList_iff dependencies other).mp member
  · exact fun member => ⟨toLex edge, (BTreeSet.mem_toList_iff dependencies _).mpr member, rfl⟩

theorem edgeList_nodup : (edgeList dependencies).Nodup :=
  List.Nodup.map ofLex.injective (BTreeSet.nodup_toList dependencies)

theorem tally_edges (ends : ∀ edge ∈ dependencies, (ofLex edge).2 ∈ tasks) :
    ∃ counts, tally (edgeList dependencies) (BTreeMap.ofKeys tasks.keys 0) = some counts ∧
      Tallied {task | task ∈ tasks.keys} {edge | edge ∈ edgeList dependencies} ∅ counts := by
  refine tally_tallied edgeList_nodup (fun edge member => ?_) fun task member => ?_
  · exact Std.TreeMap.mem_keys.mpr (ends _ ((mem_edgeList edge).mp member))
  · rw [BTreeMap.getElem?_ofKeys]
    exact if_pos member

theorem validateAcyclic_wellFounded
    (ends : ∀ edge ∈ dependencies, (ofLex edge).1 ∈ tasks ∧ (ofLex edge).2 ∈ tasks)
    (passed : validateAcyclic tasks dependencies = .ok ()) :
    WellFounded fun prerequisite dependent => (prerequisite, dependent) ∈ edgeList dependencies := by
  unfold validateAcyclic at passed
  obtain ⟨indegree, counts, passed⟩ := bind_eq_ok.mp passed
  obtain ⟨processed, peels, passed⟩ := bind_eq_ok.mp passed
  rw [expect_eq_ok] at counts peels
  have all := not_not.mp (refuseIf_eq_ok.mp passed)
  obtain ⟨counted, tallies, tallied⟩ := tally_edges fun edge member => (ends edge member).2
  obtain rfl := Option.some.inj (tallies.symm.trans counts)
  have finite : {edge | edge ∈ edgeList dependencies}.Finite := List.finite_toSet _
  have ends' : ∀ edge ∈ {edge | edge ∈ edgeList dependencies}, edge.2 ∈ tasks.keys :=
    fun edge member => Std.TreeMap.mem_keys.mpr (ends _ ((mem_edgeList edge).mp member)).2
  have nothing : {task | task ∈ ([] : List DeclarationId)} = ∅ := by
    ext task
    exact iff_of_false List.not_mem_nil id
  have start : Peeling tasks.keys {edge | edge ∈ edgeList dependencies} [] counted
      (Std.TreeSet.ofList (counted.keys.filter fun id => counted[id]? = some 0) compare) := by
    refine ⟨List.nodup_nil, ?_, ?_, ?_, nothing ▸ tallied, fun task isReady => ?_⟩
    · exact List.forall_mem_nil _
    · exact fun _ _ _ member => absurd member List.not_mem_nil
    · exact List.forall_mem_nil _
    · rw [Std.TreeSet.mem_ofList, List.contains_iff_mem, List.mem_filter, decide_eq_true_iff,
        BTreeMap.mem_keys_iff, mem_tally tallies, Std.TreeMap.mem_iff_isSome_getElem?,
        BTreeMap.getElem?_ofKeys] at isReady
      have isTask : task ∈ tasks.keys := by
        by_contra absent
        rw [if_neg absent] at isReady
        exact Bool.false_ne_true isReady.1
      have zero := isReady.2
      rw [tallied task isTask, Option.some_inj, Set.ncard_eq_zero (waitingFor_finite finite _ task)]
        at zero
      refine ⟨isTask, List.not_mem_nil, fun prerequisite edge => ?_⟩
      have waits : prerequisite ∈ waitingFor {edge | edge ∈ edgeList dependencies} ∅ task :=
        ⟨edge, id⟩
      rw [zero] at waits
      exact waits.elim
  refine peel_wellFounded finite (fun above below => mem_successors _ above below) ends' start
    peels ?_
  rw [all, List.length_nil, zero_add, Std.TreeMap.length_keys]

end Tasks

theorem tryNew_sound {scopes : List ScopeSpec} {tasks : List TaskSpec}
    {dependencies : List DependencyEdge} {joins : List ScopeJoin} {model : ScopedTaskModel}
    (accepted : ScopedTaskModel.tryNew scopes tasks dependencies joins = .ok model) :
    model.Sound := by
  unfold ScopedTaskModel.tryNew at accepted
  iterate 5 obtain ⟨_, -, accepted⟩ := bind_eq_ok.mp accepted
  obtain ⟨parents, parented, accepted⟩ := bind_eq_ok.mp accepted
  obtain ⟨_, single, accepted⟩ := bind_eq_ok.mp accepted
  obtain ⟨_, -, accepted⟩ := bind_eq_ok.mp accepted
  obtain ⟨depths, deep, accepted⟩ := bind_eq_ok.mp accepted
  obtain ⟨entries, entered, accepted⟩ := bind_eq_ok.mp accepted
  obtain ⟨root, rooted, accepted⟩ := bind_eq_ok.mp accepted
  obtain ⟨taskEntries, tasked, accepted⟩ := bind_eq_ok.mp accepted
  obtain ⟨edges, linked, accepted⟩ := bind_eq_ok.mp accepted
  obtain ⟨_, acyclic, accepted⟩ := bind_eq_ok.mp accepted
  obtain ⟨_, -, accepted⟩ := bind_eq_ok.mp accepted
  obtain ⟨joinMap, -, accepted⟩ := bind_eq_ok.mp accepted
  obtain ⟨_, -, accepted⟩ := bind_eq_ok.mp accepted
  obtain rfl := Except.ok.inj accepted
  have declared : ∀ (id : DeclarationId) (parent : Option DeclarationId),
      parents[id]? = some parent ↔ ∃ scope ∈ scopes, scope.id = id ∧ scope.parent = parent := by
    intro id parent
    rw [scopeParents_some parented]
    simp
  have entry_iff : ∀ (id : DeclarationId) (entry : ScopeEntry), entries[id]? = some entry ↔
      parents[id]? = some entry.parent ∧ depths[id]? = some entry.depth := by
    intro id entry
    have distinct : (parents.toList.map Prod.fst).Nodup := by
      rw [Std.TreeMap.map_fst_toList_eq_keys]
      exact parents.nodup_keys
    rw [scopeEntries_some distinct entered, Std.TreeMap.mem_toList_iff_getElem?_eq_some]
    simp
  have parent_eq : parentIn entries = fun id => parents[id]? := by
    funext id
    unfold parentIn
    cases found : parents[id]? with
    | none =>
      cases found' : entries[id]? with
      | none => rfl
      | some entry =>
        rw [entry_iff, found] at found'
        exact nomatch found'.1
    | some parent =>
      obtain ⟨depth, known⟩ := scopeEntries_deep entered (id, parent)
        (Std.TreeMap.mem_toList_iff_getElem?_eq_some.mpr found)
      rw [(entry_iff id ⟨parent, depth⟩).mpr ⟨found, known⟩]
      rfl
  obtain ⟨scope, isFirst, rfl⟩ := Option.map_eq_some_iff.mp (expect_eq_ok.mp rooted)
  have isRoot : scope.parent = none := by
    have found := List.find?_some isFirst
    exact Option.isNone_iff_eq_none.mp found
  have isScope := List.mem_of_find?_eq_some isFirst
  have ends := dependencySet_ends linked fun edge member => by simp at member
  refine ⟨?_, fun id orphan => ?_, fun id entry found => ?_, fun above below => ?_, ?_,
    fun prerequisite dependent depends => ends _ depends, ?_⟩
  · show parentIn entries scope.id = some none
    rw [parent_eq]
    exact (declared _ _).mpr ⟨scope, isScope, rfl, isRoot⟩
  · change parentIn entries id = some none at orphan
    rw [parent_eq] at orphan
    obtain ⟨other, isOther, rfl, isRoot'⟩ := (declared _ _).mp orphan
    rw [checkRoots_single single isOther isScope isRoot' isRoot]
  · show DepthOf (parentIn entries) id entry.depth
    rw [parent_eq]
    have sound := canonicalDepths_depths (fun id depth found => by simp at found) deep
    exact sound id entry.depth ((entry_iff id entry).mp found).2
  · show below ∈ targetsOf (successors (childLinks parents)) above ↔ parentIn entries below = _
    rw [parent_eq, mem_successors]
    unfold childLinks
    rw [List.mem_filterMap]
    constructor
    · rintro ⟨⟨id, parent⟩, member, isChild⟩
      obtain ⟨above', rfl, same⟩ := Option.map_eq_some_iff.mp isChild
      obtain ⟨rfl, rfl⟩ := Prod.mk.inj same
      exact Std.TreeMap.mem_toList_iff_getElem?_eq_some.mp member
    · intro isChild
      exact ⟨(below, some above), Std.TreeMap.mem_toList_iff_getElem?_eq_some.mpr isChild, rfl⟩
  · exact taskEntries_homes tasked fun id entry found => by simp at found
  · have founded := validateAcyclic_wellFounded ends acyclic
    exact Subrelation.wf (fun depends => (mem_edgeList _).mpr depends) founded

end Semaprax.ScopedTasks
