/-
**The graph of some histories.**

Both checks build the graph of the flags that follow each other, and take ready flags until none is
left. Nothing is missing from the graph, and all flags are taken just when the histories have a common
order.

* `Built`, `precedence_spec` — the graph holds the pairs, and its degrees count them.
* `takenOrder_spec` — the order in which flags are taken.
* `Common`, `takenOrder_complete_iff` — all are taken if and only if there is a common order.
-/

import Semaprax.CleanupJoins.Model

namespace Semaprax.CleanupJoins

open Library

/-- The pairs of some histories. -/
def edgesOf (histories : List (List LivenessFlagId)) : Set (LivenessFlagId × LivenessFlagId) :=
  {edge | edge ∈ histories.flatMap windows}

variable {histories : List (List LivenessFlagId)} {edge pair : LivenessFlagId × LivenessFlagId}
variable {history flags order : List LivenessFlagId} {flag : LivenessFlagId}
variable {added : List (LivenessFlagId × LivenessFlagId)} {graph : Precedence}

theorem mem_edgesOf : edge ∈ edgesOf histories ↔ ∃ history ∈ histories, edge ∈ windows history :=
  List.mem_flatMap

theorem edgesOf_finite (histories : List (List LivenessFlagId)) : (edgesOf histories).Finite :=
  List.finite_toSet _

theorem mem_of_windows (pair : edge ∈ windows history) : edge.1 ∈ history ∧ edge.2 ∈ history := by
  obtain ⟨first, second⟩ := List.of_mem_zip (show (edge.1, edge.2) ∈ history.zip _ from pair)
  exact ⟨first, List.mem_of_mem_tail second⟩

theorem mem_flagsOf : flag ∈ flagsOf histories ↔ ∃ history ∈ histories, flag ∈ history := by
  rw [flagsOf, BTreeSet.mem_toList_iff, BTreeSet.mem_collect, List.mem_flatten]

theorem flagsOf_nodup (histories : List (List LivenessFlagId)) : (flagsOf histories).Nodup :=
  BTreeSet.nodup_toList _

theorem edge_inside :
    ∀ edge ∈ edgesOf histories, edge.1 ∈ flagsOf histories ∧ edge.2 ∈ flagsOf histories := by
  intro edge inside
  obtain ⟨history, mem, pair⟩ := mem_edgesOf.mp inside
  obtain ⟨first, second⟩ := mem_of_windows pair
  exact ⟨mem_flagsOf.mpr ⟨history, mem, first⟩, mem_flagsOf.mpr ⟨history, mem, second⟩⟩

theorem isChain_iff_windows {R : LivenessFlagId → LivenessFlagId → Prop} :
    history.IsChain R ↔ ∀ edge ∈ windows history, R edge.1 edge.2 := by
  induction history with
  | nil => simp [windows]
  | cons first rest ih =>
    cases rest with
    | nil => simp [windows]
    | cons second rest =>
      have cons : windows (first :: second :: rest) =
          (first, second) :: windows (second :: rest) := rfl
      rw [List.isChain_cons_cons, ih, cons, List.forall_mem_cons]

structure Built (flags : List LivenessFlagId) (added : List (LivenessFlagId × LivenessFlagId))
    (graph : Precedence) : Prop where
  indexed : ∀ flag ∈ flags, ∃ targets, graph.successors[flag]? = some targets
  linked : ∀ above below, below ∈ targetsOf graph.successors above ↔ (above, below) ∈ added
  tallied : Tallied {flag | flag ∈ flags} {edge | edge ∈ added} ∅ graph.indegree
  known : ∀ flag, flag ∈ graph.indegree ↔ flag ∈ flags

theorem Built.again (built : Built flags added graph)
    (old : pair ∈ added) : Built flags (added ++ [pair]) graph := by
  have same : ∀ edge, edge ∈ added ++ [pair] ↔ edge ∈ added := by
    intro edge
    rw [List.mem_append, List.mem_singleton]
    exact ⟨fun either => either.elim id fun equal => equal ▸ old, Or.inl⟩
  refine ⟨built.indexed, fun above below => (built.linked above below).trans (same _).symm, ?_,
    built.known⟩
  rw [show {edge | edge ∈ added ++ [pair]} = {edge | edge ∈ added} from Set.ext same]
  exact built.tallied

theorem Built.add (built : Built flags added graph)
    (new : pair ∉ added) (inside : pair.2 ∈ flags) {targets : BTreeSet LivenessFlagId}
    (found : graph.successors[pair.1]? = some targets) {degree : Nat}
    (counted : graph.indegree[pair.2]? = some degree) :
    Built flags (added ++ [pair]) ⟨graph.successors.insert pair.1 (targets.insert pair.2),
      graph.indegree.insert pair.2 (degree + 1)⟩ := by
  refine ⟨fun flag mem => ?_, fun above below => ?_, fun flag mem => ?_, fun flag => ?_⟩
  · rw [BTreeMap.getElem?_insert_eq]
    split_ifs
    · exact ⟨_, rfl⟩
    · exact built.indexed flag mem
  · have linked := mem_targetsOf_insert graph.successors pair.1 pair.2 above below
    rw [Std.TreeMap.getD_eq_getD_getElem?, found, Option.getD_some, built.linked] at linked
    rw [linked, List.mem_append, List.mem_singleton, or_comm, eq_comm]
  · rw [BTreeMap.getElem?_insert_eq]
    have finite := waitingFor_finite (List.finite_toSet added) ∅ flag
    split_ifs with same
    · have grown : waitingFor {edge | edge ∈ added ++ [pair]} ∅ flag =
          insert pair.1 (waitingFor {edge | edge ∈ added} ∅ flag) := by
        ext earlier
        show (earlier, flag) ∈ added ++ [pair] ∧ _ ↔ _ = _ ∨ ((earlier, flag) ∈ added ∧ _)
        rw [List.mem_append, List.mem_singleton, Prod.ext_iff, ← same]
        show (_ ∨ earlier = pair.1 ∧ pair.2 = pair.2) ∧ _ ↔ _
        simp only [Set.mem_empty_iff_false, not_false_eq_true, and_true]
        exact or_comm
      have absent : pair.1 ∉ waitingFor {edge | edge ∈ added} ∅ flag := fun waits =>
        new (show (pair.1, pair.2) ∈ added from same ▸ waits.1)
      have before : degree = (waitingFor {edge | edge ∈ added} ∅ flag).ncard :=
        Option.some.inj (counted.symm.trans (same ▸ built.tallied flag mem))
      rw [grown, Set.ncard_insert_of_notMem absent finite, ← before]
    · have unchanged : waitingFor {edge | edge ∈ added ++ [pair]} ∅ flag =
          waitingFor {edge | edge ∈ added} ∅ flag := by
        ext earlier
        show (earlier, flag) ∈ added ++ [pair] ∧ _ ↔ (earlier, flag) ∈ added ∧ _
        rw [List.mem_append, List.mem_singleton, Prod.ext_iff]
        show (_ ∨ _ ∧ flag = pair.2) ∧ _ ↔ _
        simp only [Ne.symm same, and_false, or_false]
      rw [unchanged]
      exact built.tallied flag mem
  · rw [BTreeMap.mem_insert_iff, built.known]
    exact ⟨fun either => either.elim (fun same => same ▸ inside) id, Or.inr⟩

theorem addPair_spec (built : Built flags added graph) (inside : pair.1 ∈ flags ∧ pair.2 ∈ flags) :
    ∃ next, addPair graph pair = some next ∧ Built flags (added ++ [pair]) next := by
  obtain ⟨targets, found⟩ := built.indexed pair.1 inside.1
  have member : pair.2 ∈ targets ↔ pair ∈ added := by
    have linked := built.linked pair.1 pair.2
    rw [targetsOf, found] at linked
    exact (BTreeSet.mem_toList_iff targets pair.2).symm.trans linked
  by_cases old : pair ∈ added
  · refine ⟨graph, ?_, built.again old⟩
    rw [addPair, found]
    exact if_pos (member.mpr old)
  · have counted := built.tallied pair.2 inside.2
    refine ⟨_, ?_, built.add old inside.2 found counted⟩
    rw [addPair, found]
    show (if pair.2 ∈ targets then _ else _) = _
    rw [if_neg fun mem => old (member.mp mem), counted]
    rfl

/-- **The graph of some histories.** No flag is missing from it. -/
theorem precedence_spec (histories : List (List LivenessFlagId)) :
    ∃ graph, precedence histories = some graph ∧
      Built (flagsOf histories) (histories.flatMap windows) graph := by
  have steps : ∀ (pairs added : List (LivenessFlagId × LivenessFlagId)) (graph : Precedence),
      (∀ pair ∈ pairs, pair.1 ∈ flagsOf histories ∧ pair.2 ∈ flagsOf histories) →
      Built (flagsOf histories) added graph → ∃ final, pairs.foldlM addPair graph = some final ∧
        Built (flagsOf histories) (added ++ pairs) final := by
    intro pairs
    induction pairs with
    | nil => exact fun added graph _ built => ⟨graph, rfl, by rwa [List.append_nil]⟩
    | cons pair pairs ih =>
      intro added graph inside built
      obtain ⟨here, rest⟩ := List.forall_mem_cons.mp inside
      obtain ⟨next, step, built'⟩ := addPair_spec built here
      obtain ⟨final, ran, built''⟩ := ih (added ++ [pair]) next rest built'
      refine ⟨final, ?_, by rwa [List.append_cons]⟩
      rw [List.foldlM_cons, step]
      exact ran
  refine steps _ [] _ edge_inside ⟨fun flag mem => ⟨∅, ?_⟩, fun above below => ?_,
    fun flag mem => ?_, fun flag => ?_⟩
  · rw [BTreeMap.getElem?_ofKeys, if_pos mem]
  · unfold targetsOf
    rw [BTreeMap.getElem?_ofKeys]
    split_ifs <;> simp
  · have none' : waitingFor {edge : LivenessFlagId × LivenessFlagId | edge ∈ []} ∅ flag = ∅ :=
      Set.eq_empty_iff_forall_notMem.mpr fun earlier waits => List.not_mem_nil waits.1
    rw [BTreeMap.getElem?_ofKeys, if_pos (show flag ∈ flagsOf histories from mem), none',
      Set.ncard_empty]
  · rw [Std.TreeMap.mem_iff_isSome_getElem?, BTreeMap.getElem?_ofKeys]
    split_ifs with mem <;> simp [mem]

def takenOrder (histories : List (List LivenessFlagId)) : Option (List LivenessFlagId) := do
  let graph ← precedence histories
  peelOrder graph.successors (flagsOf histories).length graph.indegree (readyFlags graph.indegree)

theorem mem_readyFlags {indegree : BTreeMap LivenessFlagId Nat} :
    flag ∈ readyFlags indegree ↔ indegree[flag]? = some 0 := by
  rw [readyFlags, BTreeSet.mem_collect, List.mem_filterMap]
  constructor
  · rintro ⟨⟨other, degree⟩, mem, here⟩
    change (if degree = 0 then some other else none) = some flag at here
    by_cases zero : degree = 0
    · rw [if_pos zero] at here
      obtain rfl := Option.some.inj here
      rw [(BTreeMap.mem_toList_iff _ _ _).mp mem, zero]
    · rw [if_neg zero] at here
      exact nomatch here
  · exact fun found => ⟨(flag, 0), (BTreeMap.mem_toList_iff _ _ _).mpr found, rfl⟩

/-- **The flags are taken** until those that are left wait for each other. -/
theorem takenOrder_spec (histories : List (List LivenessFlagId)) :
    ∃ order, takenOrder histories = some order ∧
      TakenAfter (flagsOf histories) (edgesOf histories) [] order := by
  obtain ⟨graph, built, spec⟩ := precedence_spec histories
  have finite := edgesOf_finite histories
  have empty : {flag : LivenessFlagId | flag ∈ ([] : List LivenessFlagId)} = ∅ :=
    Set.eq_empty_iff_forall_notMem.mpr fun _ => List.not_mem_nil
  have tallied : Tallied {flag | flag ∈ flagsOf histories} (edgesOf histories)
      {flag | flag ∈ ([] : List LivenessFlagId)} graph.indegree := by
    rw [empty]
    exact spec.tallied
  have waits : ∀ flag, flag ∈ readyFlags graph.indegree ↔ flag ∈ flagsOf histories ∧
      ∀ earlier, (earlier, flag) ∉ edgesOf histories := by
    intro flag
    rw [mem_readyFlags]
    constructor
    · intro found
      have mem : flag ∈ flagsOf histories := (spec.known flag).mp (by
        rw [Std.TreeMap.mem_iff_isSome_getElem?, found]
        rfl)
      have count := Option.some.inj (found.symm.trans (spec.tallied flag mem))
      have none' := (Set.ncard_eq_zero (waitingFor_finite finite ∅ flag)).mp count.symm
      exact ⟨mem, fun earlier edge => Set.eq_empty_iff_forall_notMem.mp none' earlier
        ⟨edge, fun absurd' => absurd'⟩⟩
    · rintro ⟨mem, free⟩
      have none' : waitingFor {edge | edge ∈ histories.flatMap windows} ∅ flag = ∅ :=
        Set.eq_empty_iff_forall_notMem.mpr fun earlier waits => free earlier waits.1
      rw [spec.tallied flag mem, none', Set.ncard_empty]
  obtain ⟨order, ran, after⟩ := @peelOrder_spec _ _ (flagsOf histories) (edgesOf histories)
    graph.successors finite spec.linked (fun edge mem => (edge_inside edge mem).2)
    (flagsOf histories).length [] graph.indegree (readyFlags graph.indegree)
    ⟨List.nodup_nil, List.forall_mem_nil _,
      fun _ _ _ mem => absurd mem List.not_mem_nil, List.forall_mem_nil _,
      tallied, fun flag mem => ⟨((waits flag).mp mem).1, List.not_mem_nil,
        fun earlier edge => absurd edge (((waits flag).mp mem).2 earlier)⟩⟩
    (fun flag mem _ free => (waits flag).mpr ⟨mem, fun earlier edge =>
      absurd (free earlier edge) List.not_mem_nil⟩)
    (by rw [List.length_nil, Nat.zero_add])
  refine ⟨order, ?_, after⟩
  rw [takenOrder, built]
  exact ran

def Common (histories : List (List LivenessFlagId)) (order : List LivenessFlagId) : Prop :=
  order.Nodup ∧ ∀ history ∈ histories, history.Sublist order

theorem windows_precedes (history : List LivenessFlagId) :
    ∀ edge ∈ windows history, Precedes history edge.1 edge.2 := by
  have chain : history.IsChain (Precedes history) := by
    have whole : ∀ front back, history = front ++ back → back.IsChain (Precedes history) := by
      intro front back
      induction back generalizing front with
      | nil => exact fun _ => List.isChain_nil
      | cons first back ih =>
        intro split
        have rest := ih (front ++ [first]) (by rw [split]; simp)
        cases back with
        | nil => exact List.isChain_singleton _
        | cons second back =>
          refine List.isChain_cons_cons.mpr ⟨?_, rest⟩
          rw [split]
          exact (List.Sublist.cons_cons first (List.Sublist.cons_cons second
            (List.nil_sublist _))).trans (List.sublist_append_right _ _)
    exact whole [] history rfl
  exact isChain_iff_windows.mp chain

theorem Common.placed (common : Common histories order) : Placed (edgesOf histories) order := by
  rintro front flag back rfl earlier edge
  obtain ⟨history, mem, pair⟩ := mem_edgesOf.mp edge
  exact mem_front_of_precedes common.1
    ((windows_precedes history _ pair).trans (common.2 history mem))

section Taken

variable (after : TakenAfter (flagsOf histories) (edgesOf histories) [] order)

include after

theorem common_of_taken
    (all : ∀ flag ∈ flagsOf histories, flag ∈ order) : Common histories order := by
  refine ⟨after.distinct, fun history mem => sublist_of_precedes after.distinct ?_ ?_⟩
  · exact fun flag inside => all flag (mem_flagsOf.mpr ⟨history, mem, inside⟩)
  · refine isChain_iff_windows.mpr fun edge pair => ?_
    have isFlag := mem_flagsOf.mpr ⟨history, mem, (mem_of_windows pair).2⟩
    obtain ⟨front, back, split⟩ := List.append_of_mem (all edge.2 isFlag)
    have inFront := (after.placed front edge.2 back split edge.1
      (mem_edgesOf.mpr ⟨history, mem, pair⟩)).resolve_left List.not_mem_nil
    rw [split]
    exact precedes_of_split inFront

theorem length_eq_iff :
    order.length = (flagsOf histories).length ↔ ∀ flag ∈ flagsOf histories, flag ∈ order := by
  have subperm := List.subperm_of_subset after.distinct fun flag mem => (after.fresh flag mem).1
  constructor
  · exact fun same flag mem => (subperm.perm_of_length_le same.ge).mem_iff.mpr mem
  · intro all
    exact le_antisymm subperm.length_le
      (List.subperm_of_subset (flagsOf_nodup histories) all).length_le

/-- **All flags are taken if and only if the histories have a common order.** -/
theorem takenOrder_complete_iff :
    order.length = (flagsOf histories).length ↔ ∃ common, Common histories common := by
  rw [length_eq_iff after]
  constructor
  · exact fun all => ⟨order, common_of_taken after all⟩
  · rintro ⟨other, common⟩
    refine after.complete (fun edge mem => (edge_inside edge mem).1) common.placed ?_
    intro flag isFlag
    obtain ⟨history, mem, inside⟩ := mem_flagsOf.mp isFlag
    exact (common.2 history mem).subset inside

end Taken

end Semaprax.CleanupJoins
