/-
**The partial graph** (`validate_graph` of `package_resolver{,_v2}/solver.rs`).

After every selection the resolver checks the graph of what is selected so far: packages, and edges
from a dependency to its dependent. A traversal takes packages without unprocessed dependencies, the
least name first, and lengthens the depth of their dependents.

* `validateGraph` — the traversal within the package, edge and depth bounds.
* `Progress` — what holds between two packages of the traversal; `release_spec` says what taking one
  package does.
* `validateGraph_sound`, `validateGraph_complete` — it accepts exactly the acyclic graphs within the
  bounds, and the depth it reports is the length of the longest chain.
-/

import Semaprax.PackageResolver.Catalog
import Semaprax.Library.Heights

namespace Semaprax.PackageResolver

open Library Relation

/-- The maps and counters of the traversal. -/
structure Traversal where
  indegree : BTreeMap String Nat
  ready : BTreeSet String
  depths : BTreeMap String Nat
  seen : Nat

/-- How many edges lead to each package. -/
def indegrees (packages : List String) (edges : List (String × String)) : BTreeMap String Nat :=
  edges.foldl (fun counts edge => counts.insert edge.2 (counts.getD edge.2 0 + 1))
    (BTreeMap.ofKeys packages 0)

def dependentsOf (edges : List (String × String)) : BTreeMap String (List String) :=
  edges.foldl (fun dependents edge =>
    dependents.insert edge.1 (dependents.getD edge.1 [] ++ [edge.2])) ∅

def raise (depths : BTreeMap String Nat) (dependent : String) (proposed : Nat) :
    BTreeMap String Nat :=
  match depths[dependent]? with
  | some depth => depths.insert dependent (max depth proposed)
  | none => depths

/-- Pass a taken package on to its dependents. A dependent without a count refuses the graph; the
count is positive whenever it is lowered, and depths stay far below the largest `usize`. -/
def release (package : String) (traversal : Traversal) : List String → Option Traversal
  | [] => some traversal
  | dependent :: rest =>
    match traversal.indegree[dependent]? with
    | none => none
    | some count =>
      release package
        { traversal with
          indegree := traversal.indegree.insert dependent (count - 1)
          ready :=
            if count - 1 = 0 then traversal.ready.insert dependent else traversal.ready
          depths :=
            raise traversal.depths dependent (traversal.depths.getD package 0 + 1) } rest

def traverse (dependents : BTreeMap String (List String)) : Nat → Traversal → Option Traversal
  | 0, traversal => some traversal
  | turns + 1, traversal =>
    match traversal.ready.first? with
    | none => some traversal
    | some package => do
        let next ← release package
          { traversal with
            ready := traversal.ready.erase package
            seen := traversal.seen + 1 } (dependents.getD package [])
        traverse dependents turns next

/-- The traversal before its first package. -/
def Traversal.initial (indegree : BTreeMap String Nat) : Traversal where
  indegree := indegree
  ready := Std.TreeSet.ofList ((indegree.toList.filter fun row => row.2 = 0).map Prod.fst) compare
  depths := BTreeMap.ofKeys indegree.keys 1
  seen := 0

def Traversal.depth (traversal : Traversal) : Nat :=
  (traversal.depths.toList.map Prod.snd).max?.getD 0

/-- Check a graph and report its depth (`validate_graph`). -/
def validateGraph (packages : List String) (edges : List (String × String)) : Option Nat :=
  if maxSelectedPackages < packages.length ∨ maxEdges < edges.length then none
  else
    let indegree := indegrees packages edges
    match traverse (dependentsOf edges) indegree.size (Traversal.initial indegree) with
    | none => none
    | some traversal =>
      if traversal.seen ≠ traversal.indegree.size ∨ maxDepth < traversal.depth then none
      else some traversal.depth

/-- The edge relation: the second package depends on the first. -/
def Edge (edges : List (String × String)) (dependency dependent : String) : Prop :=
  (dependency, dependent) ∈ edges
deriving Decidable

def pending (edges : List (String × String)) (processed : List String) (package : String) : Nat :=
  edges.countP fun edge => edge.2 = package ∧ edge.1 ∉ processed

theorem pending_cons (edges : List (String × String)) {processed : List String} {taken : String}
    (fresh : taken ∉ processed) (package : String) :
    pending edges processed package =
      pending edges (taken :: processed) package + edges.count (taken, package) := by
  unfold pending
  induction edges with
  | nil => rfl
  | cons edge rest ih =>
    obtain ⟨dependency, dependent⟩ := edge
    simp only [List.countP_cons, List.count_cons, List.mem_cons, beq_iff_eq, Prod.mk.injEq,
      decide_eq_true_eq, ih]
    by_cases first : dependency = taken <;> by_cases second : dependent = package <;>
      by_cases old : dependency ∈ processed <;> simp_all <;> omega

theorem pending_eq_zero_iff (edges : List (String × String)) (processed : List String)
    (package : String) :
    pending edges processed package = 0 ↔
      ∀ dependency, Edge edges dependency package → dependency ∈ processed := by
  simp only [pending, List.countP_eq_zero, decide_eq_true_eq, not_and, not_not, Prod.forall, Edge]
  exact ⟨fun none dependency edge => none dependency package edge rfl,
    fun none dependency other edge same => none dependency (same ▸ edge)⟩

theorem indegrees_eq_some (packages : List String) (edges : List (String × String))
    (ends : ∀ dependency dependent, Edge edges dependency dependent → dependent ∈ packages)
    (package : String) :
    (indegrees packages edges)[package]? =
      if package ∈ packages then some (pending edges [] package) else none := by
  have count : ∀ (rest : List (String × String)) (counts : BTreeMap String Nat),
      (rest.foldl (fun counts edge => counts.insert edge.2 (counts.getD edge.2 0 + 1))
          counts)[package]? =
        if pending rest [] package = 0 then counts[package]?
        else some (counts.getD package 0 + pending rest [] package) := by
    intro rest
    induction rest with
    | nil => simp [pending]
    | cons edge rest ih =>
      intro counts
      rw [List.foldl_cons, ih, BTreeMap.getElem?_insert_eq, Std.TreeMap.getD_insert]
      simp only [Std.LawfulEqCmp.compare_eq_iff_eq]
      simp only [pending, List.countP_cons, List.not_mem_nil, not_false_eq_true, and_true,
        decide_eq_true_eq]
      by_cases same : edge.2 = package
      · simp only [same, if_true]
        split <;> simp_all <;> omega
      · simp only [same, if_false, Nat.add_zero]
  rw [indegrees, count, Std.TreeMap.getD_eq_getD_getElem?, BTreeMap.getElem?_ofKeys]
  by_cases inside : package ∈ packages
  · by_cases none : pending edges [] package = 0 <;> simp [inside, none]
  · have none : pending edges [] package = 0 :=
      (pending_eq_zero_iff _ _ _).mpr fun dependency edge => absurd (ends _ _ edge) inside
    simp [inside, none]

theorem count_dependentsOf (edges : List (String × String)) (package dependent : String) :
    ((dependentsOf edges).getD package []).count dependent = edges.count (package, dependent) := by
  have collect : ∀ (rest : List (String × String)) (dependents : BTreeMap String (List String)),
      ((rest.foldl (fun dependents edge =>
          dependents.insert edge.1 (dependents.getD edge.1 [] ++ [edge.2])) dependents).getD
            package []).count dependent =
        (dependents.getD package []).count dependent + rest.count (package, dependent) := by
    intro rest
    induction rest with
    | nil => simp
    | cons edge rest ih =>
      intro dependents
      obtain ⟨first, second⟩ := edge
      rw [List.foldl_cons, ih, Std.TreeMap.getD_insert]
      simp only [Std.LawfulEqCmp.compare_eq_iff_eq, List.count_cons, beq_iff_eq, Prod.mk.injEq]
      by_cases same : first = package
      · subst same
        by_cases same' : second = dependent
        · simp only [same', if_true, List.count_append, List.count_singleton, beq_self_eq_true]
          simp
          omega
        · simp [same']
      · simp [same]
  rw [dependentsOf, collect]
  simp

theorem getD_raise (depths : BTreeMap String Nat) {dependent : String} (proposed : Nat)
    (present : dependent ∈ depths) (package : String) :
    (raise depths dependent proposed).getD package 0 =
      if dependent = package then max (depths.getD package 0) proposed
      else depths.getD package 0 := by
  unfold raise
  obtain ⟨depth, found⟩ := Option.isSome_iff_exists.mp
    (Std.TreeMap.mem_iff_isSome_getElem?.mp present)
  rw [found]
  show (depths.insert dependent (max depth proposed)).getD package 0 = _
  rw [Std.TreeMap.getD_insert]
  simp only [Std.LawfulEqCmp.compare_eq_iff_eq]
  by_cases same : dependent = package
  · rw [if_pos same, if_pos same, Std.TreeMap.getD_eq_getD_getElem?, ← same, found]
    rfl
  · rw [if_neg same, if_neg same]

theorem mem_raise (depths : BTreeMap String Nat) (dependent : String) (proposed : Nat)
    (package : String) : package ∈ raise depths dependent proposed ↔ package ∈ depths := by
  unfold raise
  split
  · rename_i depth found
    rw [BTreeMap.mem_insert_iff]
    refine ⟨?_, Or.inr⟩
    rintro (rfl | old)
    · rw [Std.TreeMap.mem_iff_isSome_getElem?, found]
      rfl
    · exact old
  · rfl

/-- What passing a package on to its dependents does, when each of them has a depth and a count of
at least its occurrences. -/
structure Released (package : String) (dependents : List String) (before after : Traversal) :
    Prop where
  seen : after.seen = before.seen
  counts : ∀ v, after.indegree[v]? = (before.indegree[v]?).map (· - dependents.count v)
  ready : ∀ v, v ∈ after.ready ↔
    v ∈ before.ready ∨ (v ∈ dependents ∧ before.indegree[v]? = some (dependents.count v))
  keyed : ∀ v, v ∈ after.depths ↔ v ∈ before.depths
  depths : ∀ v, after.depths.getD v 0 =
    if v ∈ dependents then max (before.depths.getD v 0) (before.depths.getD package 0 + 1)
    else before.depths.getD v 0

theorem release_spec (package : String) (dependents : List String) (before : Traversal)
    (other : package ∉ dependents)
    (counted : ∀ v ∈ dependents, ∃ n, before.indegree[v]? = some n ∧ dependents.count v ≤ n)
    (keyed : ∀ v ∈ dependents, v ∈ before.depths) :
    ∃ after, release package before dependents = some after ∧
      Released package dependents before after := by
  induction dependents generalizing before with
  | nil => exact ⟨before, rfl, by constructor <;> simp⟩
  | cons dependent rest ih =>
    obtain ⟨differs, other'⟩ := not_or.mp (mt List.mem_cons.mpr other)
    obtain ⟨n, held, enough⟩ := counted dependent List.mem_cons_self
    have present := keyed dependent List.mem_cons_self
    rw [List.count_cons_self] at enough
    let middle : Traversal :=
      { before with
        indegree := before.indegree.insert dependent (n - 1)
        ready := if n - 1 = 0 then before.ready.insert dependent else before.ready
        depths := raise before.depths dependent (before.depths.getD package 0 + 1) }
    have held' : ∀ v, middle.indegree[v]? =
        if dependent = v then some (n - 1) else before.indegree[v]? :=
      fun v => BTreeMap.getElem?_insert_eq _ _ v _
    have depth' : ∀ v, middle.depths.getD v 0 =
        if dependent = v then max (before.depths.getD v 0) (before.depths.getD package 0 + 1)
        else before.depths.getD v 0 := getD_raise _ _ present
    have ready' : ∀ v, v ∈ middle.ready ↔ v ∈ before.ready ∨ (dependent = v ∧ n = 1) := by
      intro v
      show v ∈ (if n - 1 = 0 then _ else _) ↔ _
      by_cases last : n = 1
      · rw [if_pos (by omega), BTreeSet.mem_insert_iff]
        simp [last, or_comm]
      · rw [if_neg (by omega)]
        simp [last]
    obtain ⟨after, released, spec⟩ := ih middle other'
      (fun v member => by
        obtain ⟨m, heldV, enoughV⟩ := counted v (List.mem_cons_of_mem _ member)
        by_cases same : dependent = v
        · subst same
          exact ⟨n - 1, by rw [held', if_pos rfl], by omega⟩
        · rw [List.count_cons_of_ne same] at enoughV
          exact ⟨m, by rw [held', if_neg same, heldV], enoughV⟩)
      (fun v member => (mem_raise _ _ _ v).mpr (keyed v (List.mem_cons_of_mem _ member)))
    refine ⟨after, ?_, spec.seen, fun v => ?_, fun v => ?_, fun v => ?_, fun v => ?_⟩
    · unfold release
      rw [held]
      exact released
    · rw [spec.counts, held']
      by_cases same : dependent = v
      · subst same
        rw [if_pos rfl, held, List.count_cons_self]
        simp only [Option.map_some, Option.some.injEq]
        omega
      · rw [if_neg same, List.count_cons_of_ne same]
    · rw [spec.ready, ready', held']
      by_cases same : dependent = v
      · subst same
        rw [if_pos rfl, held, List.count_cons_self]
        by_cases again : dependent ∈ rest
        · have more := List.count_pos_iff.mpr again
          simp only [again, List.mem_cons_self, true_and, Option.some.injEq, or_assoc]
          refine or_congr_right ?_
          omega
        · have once := List.count_eq_zero.mpr again
          simp [again, once]
      · rw [if_neg same, List.count_cons_of_ne same]
        simp [same, Ne.symm same]
    · rw [spec.keyed]
      exact mem_raise _ _ _ v
    · rw [spec.depths, depth', depth', if_neg (Ne.symm differs)]
      by_cases same : dependent = v
      · subst same
        simp
      · simp [same, Ne.symm same]

section Traverse

variable {packages : List String} {edges : List (String × String)}

/-- What holds between two packages of the traversal, when the listed ones are processed. -/
structure Progress (packages : List String) (edges : List (String × String))
    (processed : List String) (traversal : Traversal) : Prop where
  distinct : processed.Nodup
  inside : ∀ v ∈ processed, v ∈ packages
  closed : ∀ u v, Edge edges u v → v ∈ processed → u ∈ processed
  counts : ∀ v, traversal.indegree[v]? =
    if v ∈ packages then some (pending edges processed v) else none
  ready : ∀ v, v ∈ traversal.ready ↔
    v ∈ packages ∧ v ∉ processed ∧ pending edges processed v = 0
  seen : traversal.seen = processed.length
  keyed : ∀ v, v ∈ traversal.depths ↔ v ∈ packages
  positive : ∀ v ∈ packages, 1 ≤ traversal.depths.getD v 0
  rises : ∀ u v, Edge edges u v → u ∈ processed →
    traversal.depths.getD u 0 + 1 ≤ traversal.depths.getD v 0
  tight : ∀ v ∈ packages, traversal.depths.getD v 0 = 1 ∨
    ∃ u ∈ processed, Edge edges u v ∧ traversal.depths.getD v 0 = traversal.depths.getD u 0 + 1

variable {processed : List String} {traversal : Traversal}

theorem Progress.start
    (ends : ∀ dependency dependent, Edge edges dependency dependent → dependent ∈ packages) :
    Progress packages edges [] (Traversal.initial (indegrees packages edges)) := by
  have counts := indegrees_eq_some packages edges ends
  have keys : ∀ v, v ∈ (indegrees packages edges).keys ↔ v ∈ packages := by
    intro v
    rw [Std.TreeMap.mem_keys, Std.TreeMap.mem_iff_isSome_getElem?, counts]
    split <;> simp [*]
  have ones : ∀ v, (BTreeMap.ofKeys (indegrees packages edges).keys 1)[v]? =
      if v ∈ packages then some 1 else none := by
    intro v
    rw [BTreeMap.getElem?_ofKeys]
    simp only [keys]
  have one : ∀ v ∈ packages,
      (BTreeMap.ofKeys (indegrees packages edges).keys 1).getD v 0 = 1 := by
    intro v member
    rw [Std.TreeMap.getD_eq_getD_getElem?, ones, if_pos member]
    rfl
  refine ⟨List.nodup_nil, by simp, by simp, counts, fun v => ?_, rfl, fun v => ?_,
    fun v member => (one v member).ge, by simp, fun v member => Or.inl (one v member)⟩
  · show v ∈ Std.TreeSet.ofList _ _ ↔ _
    rw [Std.TreeSet.mem_ofList, List.contains_iff_mem]
    simp only [List.mem_map, List.mem_filter, Prod.exists, exists_and_right, exists_eq_right,
      Std.TreeMap.mem_toList_iff_getElem?_eq_some, counts, decide_eq_true_eq]
    by_cases member : v ∈ packages <;> simp [member]
  · show v ∈ BTreeMap.ofKeys _ _ ↔ _
    rw [Std.TreeMap.mem_iff_isSome_getElem?, ones]
    split <;> simp [*]

theorem mem_dependentsOf (package dependent : String) :
    dependent ∈ (dependentsOf edges).getD package [] ↔ Edge edges package dependent := by
  rw [← List.count_pos_iff, count_dependentsOf, List.count_pos_iff]
  rfl

variable (progress : Progress packages edges processed traversal)

include progress

theorem Progress.take {package : String}
    (ends : ∀ dependency dependent, Edge edges dependency dependent → dependent ∈ packages)
    (isReady : package ∈ traversal.ready) :
    ∃ next, release package
        { traversal with
          ready := traversal.ready.erase package
          seen := traversal.seen + 1 } ((dependentsOf edges).getD package []) = some next ∧
      Progress packages edges (package :: processed) next := by
  obtain ⟨isPackage, fresh, free⟩ := (progress.ready package).mp isReady
  rw [pending_eq_zero_iff] at free
  -- a package on which a processed one depends is processed, so no dependent is
  have unprocessed : ∀ v, Edge edges package v → v ∉ package :: processed := by
    intro v edge member
    rcases List.mem_cons.mp member with rfl | old
    · exact fresh (free _ edge)
    · exact fresh (progress.closed _ _ edge old)
  have passed : ∀ v, pending edges processed v =
      pending edges (package :: processed) v +
        ((dependentsOf edges).getD package []).count v := by
    intro v
    rw [count_dependentsOf]
    exact pending_cons edges fresh v
  obtain ⟨next, released, spec⟩ := release_spec package ((dependentsOf edges).getD package [])
    { traversal with
      ready := traversal.ready.erase package
      seen := traversal.seen + 1 }
    (fun own => unprocessed package ((mem_dependentsOf _ _).mp own) List.mem_cons_self)
    (fun v member => by
      refine ⟨_, (progress.counts v).trans (if_pos ?_), by rw [passed v]; omega⟩
      exact ends _ _ ((mem_dependentsOf _ _).mp member))
    (fun v member =>
      (progress.keyed v).mpr (ends _ _ ((mem_dependentsOf _ _).mp member)))
  have depths : ∀ v, next.depths.getD v 0 =
      if Edge edges package v then
        max (traversal.depths.getD v 0) (traversal.depths.getD package 0 + 1)
      else traversal.depths.getD v 0 := by
    intro v
    rw [spec.depths]
    simp only [mem_dependentsOf]
  have settled : ∀ v ∈ package :: processed,
      next.depths.getD v 0 = traversal.depths.getD v 0 := fun v member => by
    rw [depths, if_neg fun edge => unprocessed v edge member]
  have grown : ∀ v, traversal.depths.getD v 0 ≤ next.depths.getD v 0 := fun v => by
    rw [depths]
    split
    · exact le_max_left _ _
    · exact le_rfl
  refine ⟨next, released, List.nodup_cons.mpr ⟨fresh, progress.distinct⟩, ?_, ?_, ?_, ?_, ?_, ?_,
    ?_, ?_, ?_⟩
  · intro v member
    rcases List.mem_cons.mp member with rfl | old
    · exact isPackage
    · exact progress.inside v old
  · intro u v edge member
    rcases List.mem_cons.mp member with rfl | old
    · exact List.mem_cons_of_mem _ (free u edge)
    · exact List.mem_cons_of_mem _ (progress.closed u v edge old)
  · intro v
    rw [spec.counts, progress.counts v]
    split
    · rw [passed v, Option.map_some, Nat.add_sub_cancel]
    · rfl
  · intro v
    rw [spec.ready, Std.TreeSet.mem_erase, mem_dependentsOf]
    simp only [progress.counts v, progress.ready v, Ne, Std.LawfulEqCmp.compare_eq_iff_eq]
    constructor
    · rintro (⟨differs, member, new, none⟩ | ⟨edge, last⟩)
      · refine ⟨member, fun old => ?_, ?_⟩
        · rcases List.mem_cons.mp old with rfl | old
          · exact differs rfl
          · exact new old
        · have := passed v
          omega
      · have member := ends _ _ edge
        rw [if_pos member, Option.some.injEq] at last
        refine ⟨member, unprocessed v edge, ?_⟩
        have := passed v
        omega
    · rintro ⟨member, new, none⟩
      obtain ⟨differs, new⟩ := not_or.mp (mt List.mem_cons.mpr new)
      have sum := passed v
      rw [none, Nat.zero_add] at sum
      by_cases edge : Edge edges package v
      · exact Or.inr ⟨edge, by rw [if_pos member, sum]⟩
      · have unlinked : ((dependentsOf edges).getD package []).count v = 0 :=
          List.count_eq_zero.mpr (mt (mem_dependentsOf _ _).mp edge)
        exact Or.inl ⟨Ne.symm differs, member, new, sum.trans unlinked⟩
  · rw [spec.seen, List.length_cons]
    exact congrArg (· + 1) progress.seen
  · intro v
    rw [spec.keyed]
    exact progress.keyed v
  · exact fun v member => (progress.positive v member).trans (grown v)
  · intro u v edge member
    rw [settled u member]
    rcases List.mem_cons.mp member with rfl | old
    · rw [depths, if_pos edge]
      exact le_max_right _ _
    · exact (progress.rises u v edge old).trans (grown v)
  · intro v member
    by_cases longer : Edge edges package v ∧
        traversal.depths.getD v 0 ≤ traversal.depths.getD package 0 + 1
    · refine Or.inr ⟨package, List.mem_cons_self, longer.1, ?_⟩
      rw [settled package List.mem_cons_self, depths, if_pos longer.1, max_eq_right longer.2]
    · have same : next.depths.getD v 0 = traversal.depths.getD v 0 := by
        rw [depths]
        split
        · rename_i edge
          exact max_eq_left (le_of_lt (not_le.mp fun le => longer ⟨edge, le⟩))
        · rfl
      rw [same]
      rcases progress.tight v member with lowest | ⟨u, old, edge, above⟩
      · exact Or.inl lowest
      · refine Or.inr ⟨u, List.mem_cons_of_mem _ old, edge, ?_⟩
        rw [settled u (List.mem_cons_of_mem _ old), above]

theorem Progress.traverse {turns : Nat}
    (ends : ∀ dependency dependent, Edge edges dependency dependent → dependent ∈ packages)
    (enough : packages.length ≤ processed.length + turns) :
    ∃ last processed', traverse (dependentsOf edges) turns traversal = some last ∧
      Progress packages edges processed' last ∧ ∀ v, v ∉ last.ready := by
  induction turns generalizing processed traversal with
  | zero =>
    refine ⟨traversal, processed, rfl, progress, fun v isReady => ?_⟩
    obtain ⟨member, fresh, -⟩ := (progress.ready v).mp isReady
    have all := progress.distinct.subperm progress.inside |>.perm_of_length_le enough
    exact fresh (all.mem_iff.mpr member)
  | succ turns ih =>
    unfold PackageResolver.traverse
    cases least : traversal.ready.first? with
    | none =>
      exact ⟨traversal, processed, rfl, progress, BTreeSet.not_mem_of_first? least⟩
    | some package =>
      obtain ⟨next, released, progress'⟩ :=
        progress.take ends (BTreeSet.mem_of_first? least)
      simp only [released, Option.bind_eq_bind, Option.bind_some]
      exact ih progress' (by rw [List.length_cons]; omega)

theorem depth_bounds (v : String) (member : v ∈ packages) :
    traversal.depths.getD v 0 ≤ traversal.depth := by
  obtain ⟨depth, found⟩ := Option.isSome_iff_exists.mp
    (Std.TreeMap.mem_iff_isSome_getElem?.mp ((progress.keyed v).mpr member))
  have listed : depth ∈ traversal.depths.toList.map Prod.snd :=
    List.mem_map.mpr ⟨(v, depth), Std.TreeMap.mem_toList_iff_getElem?_eq_some.mpr found, rfl⟩
  rw [Std.TreeMap.getD_eq_getD_getElem?, found, Option.getD_some, Traversal.depth]
  cases greatest : (traversal.depths.toList.map Prod.snd).max? with
  | none =>
    rw [List.max?_eq_none_iff.mp greatest] at listed
    cases listed
  | some most => exact (List.max?_eq_some_iff.mp greatest).2 depth listed

theorem depth_attained :
    traversal.depth = 0 ∨ ∃ v, v ∈ packages ∧ traversal.depths.getD v 0 = traversal.depth := by
  unfold Traversal.depth
  cases greatest : (traversal.depths.toList.map Prod.snd).max? with
  | none => exact Or.inl rfl
  | some most =>
    obtain ⟨⟨v, depth⟩, listed, rfl⟩ :=
      List.mem_map.mp (List.max?_eq_some_iff.mp greatest).1
    have found := Std.TreeMap.mem_toList_iff_getElem?_eq_some.mp listed
    refine Or.inr ⟨v, (progress.keyed v).mp ?_, ?_⟩
    · rw [Std.TreeMap.mem_iff_isSome_getElem?, found]
      rfl
    · rw [Std.TreeMap.getD_eq_getD_getElem?, found, Option.getD_some]

variable (ends : ∀ u v, Edge edges u v → u ∈ packages ∧ v ∈ packages)

include ends

theorem Progress.height (all : ∀ v ∈ packages, v ∈ processed) :
    Height (· ∈ packages) (Edge edges) fun v => traversal.depths.getD v 0 where
  positive := progress.positive
  rises u v edge := progress.rises u v edge (all u (ends u v edge).1)
  tight v member := by
    rcases progress.tight v member with lowest | ⟨u, old, edge, above⟩
    · exact Or.inl lowest
    · exact Or.inr ⟨u, progress.inside u old, edge, above⟩

theorem Progress.exists_cycle
    (none : ∀ v, v ∉ traversal.ready) {left : String} (isPackage : left ∈ packages)
    (unprocessed : left ∉ processed) : ∃ v, TransGen (Edge edges) v v := by
  let waiting : Set String := {v | v ∈ packages ∧ v ∉ processed}
  refine Library.exists_cycle (s := waiting)
    ((List.finite_toSet packages).subset fun v member => member.1)
    ⟨left, isPackage, unprocessed⟩ ?_
  rintro v ⟨member, fresh⟩
  have waits : pending edges processed v ≠ 0 := fun free =>
    none v ((progress.ready v).mpr ⟨member, fresh, free⟩)
  rw [Ne, pending_eq_zero_iff] at waits
  push Not at waits
  obtain ⟨u, edge, fresh'⟩ := waits
  exact ⟨u, ⟨(ends u v edge).1, fresh'⟩, edge⟩

omit progress

theorem traverse_initial (distinct : packages.Nodup) :
    ∃ last processed, PackageResolver.traverse (dependentsOf edges)
        (indegrees packages edges).size (Traversal.initial (indegrees packages edges)) =
          some last ∧
      Progress packages edges processed last ∧ (∀ v, v ∉ last.ready) ∧
      last.indegree.size = packages.length := by
  have sized : ∀ counts : BTreeMap String Nat,
      (∀ v, (counts[v]?).isSome ↔ v ∈ packages) → counts.size = packages.length :=
    fun counts keys => BTreeMap.size_eq_length distinct fun v =>
      Std.TreeMap.mem_iff_isSome_getElem?.trans (keys v)
  have start := Progress.start fun u v edge => (ends u v edge).2
  have size : (indegrees packages edges).size = packages.length := by
    refine sized _ fun v => ?_
    rw [indegrees_eq_some packages edges fun u v edge => (ends u v edge).2]
    split <;> simp [*]
  have enough : packages.length ≤ ([] : List String).length + (indegrees packages edges).size := by
    rw [size, List.length_nil, Nat.zero_add]
  obtain ⟨last, processed, run, progress, none⟩ :=
    start.traverse (fun u v edge => (ends u v edge).2) enough
  refine ⟨last, processed, run, progress, none, sized _ fun v => ?_⟩
  rw [progress.counts]
  split <;> simp [*]

/-- **What `validate_graph` accepts** is within the bounds and acyclic, and the depth it reports is
the length of the longest chain. -/
theorem validateGraph_sound (distinct : packages.Nodup) {depth : Nat}
    (accepted : validateGraph packages edges = some depth) :
    packages.length ≤ maxSelectedPackages ∧ edges.length ≤ maxEdges ∧ depth ≤ maxDepth ∧
      (∀ v, ¬ TransGen (Edge edges) v v) ∧ LongestChain (· ∈ packages) (Edge edges) depth := by
  unfold validateGraph at accepted
  split at accepted
  · cases accepted
  rename_i inBounds
  obtain ⟨last, processed, run, progress, none, size⟩ := traverse_initial ends distinct
  simp only [run] at accepted
  split at accepted
  · cases accepted
  rename_i complete
  obtain ⟨seen, shallow⟩ := not_or.mp complete
  rw [not_not, size, progress.seen] at seen
  obtain rfl := Option.some.inj accepted
  have all : ∀ v ∈ packages, v ∈ processed := fun v member =>
    ((progress.distinct.subperm progress.inside).perm_of_length_le seen.ge).mem_iff.mpr member
  have tall := progress.height ends all
  exact ⟨by omega, by omega, not_lt.mp shallow, tall.acyclic,
    tall.longest (depth_bounds progress) (depth_attained progress)⟩

/-- **What `validate_graph` refuses** is outside the bounds or has a cycle. -/
theorem validateGraph_complete (distinct : packages.Nodup) (few : packages.length ≤ maxSelectedPackages)
    (sparse : edges.length ≤ maxEdges) (acyclic : ∀ v, ¬ TransGen (Edge edges) v v)
    (shallow : ∀ chain, ChainOf (· ∈ packages) (Edge edges) chain → chain.length ≤ maxDepth) :
    ∃ depth, validateGraph packages edges = some depth := by
  unfold validateGraph
  rw [if_neg (by omega)]
  obtain ⟨last, processed, run, progress, none, size⟩ := traverse_initial ends distinct
  simp only [run]
  have all : ∀ v ∈ packages, v ∈ processed := by
    intro v member
    by_contra fresh
    obtain ⟨u, cycle⟩ := progress.exists_cycle ends none member fresh
    exact acyclic u cycle
  have seen : last.seen = last.indegree.size := by
    rw [size, progress.seen]
    exact le_antisymm (progress.distinct.subperm progress.inside).length_le
      (distinct.subperm all).length_le
  have tall := progress.height ends all
  obtain ⟨chain, ofNodes, length⟩ :=
    (tall.longest (depth_bounds progress) (depth_attained progress)).attained
  have bounded := shallow chain ofNodes
  rw [if_neg (by omega)]
  exact ⟨_, rfl⟩

end Traverse

end Semaprax.PackageResolver
