/-
**Orders of nodes.**

A list without repetition orders its elements. Lists are merged into one in which each of them is in
order, and a set of nodes with prerequisites is put in the order in which the smallest ready node always
comes first.

* `Precedes`, `sublist_of_precedes` — a list is in order when each next element comes later.
* `Opposed`, `exists_merge_iff` — two lists are merged unless they have two elements in opposite orders.
* `Placed`, `SmallestFirst` — the orders of nodes; `order_unique` — at most one is both.
* `peelOrder` — the order in which ready nodes are taken; `peelOrder_spec`, `peelOrder_complete`.
-/

import Semaprax.Library.Prerequisites

namespace Library

variable {K : Type}

/-- One element comes before another. -/
def Precedes (order : List K) (first second : K) : Prop := [first, second].Sublist order

/-- Two elements are in opposite orders. -/
def Opposed (left right : List K) : Prop :=
  ∃ first second, Precedes left first second ∧ Precedes right second first

theorem precedes_cons_iff {order : List K} {head first second : K} :
    Precedes (head :: order) first second ↔
      (first = head ∧ second ∈ order) ∨ Precedes order first second := by
  unfold Precedes
  rw [List.sublist_cons_iff]
  constructor
  · rintro (inside | ⟨rest, same, inside⟩)
    · exact Or.inr inside
    · obtain ⟨rfl, rfl⟩ := List.cons.inj same
      exact Or.inl ⟨rfl, List.singleton_sublist.mp inside⟩
  · rintro (⟨rfl, mem⟩ | inside)
    · exact Or.inr ⟨[second], rfl, List.singleton_sublist.mpr mem⟩
    · exact Or.inl inside

theorem not_precedes_nil {first second : K} : ¬Precedes [] first second := by
  intro inside
  exact absurd (List.sublist_nil.mp inside) (List.cons_ne_nil _ _)

theorem Precedes.mem {order : List K} {first second : K} (precedes : Precedes order first second) :
    first ∈ order ∧ second ∈ order :=
  ⟨precedes.subset List.mem_cons_self, precedes.subset (List.mem_cons_of_mem _ List.mem_cons_self)⟩

theorem precedes_asymm {order : List K} (distinct : order.Nodup) {first second : K}
    (precedes : Precedes order first second) : ¬Precedes order second first := by
  induction order with
  | nil => exact fun _ => not_precedes_nil precedes
  | cons head order ih =>
    obtain ⟨fresh, distinct⟩ := List.nodup_cons.mp distinct
    intro opposite
    rcases precedes_cons_iff.mp precedes with ⟨rfl, mem⟩ | inside
    · rcases precedes_cons_iff.mp opposite with ⟨rfl, mem'⟩ | inside'
      · exact fresh mem
      · exact fresh inside'.mem.2
    · rcases precedes_cons_iff.mp opposite with ⟨rfl, mem'⟩ | inside'
      · exact fresh inside.mem.2
      · exact ih distinct inside inside'

/-- What comes before an element is in front of it. -/
theorem precedes_of_split {front back : List K} {first second : K} (mem : first ∈ front) :
    Precedes (front ++ second :: back) first second := by
  obtain ⟨before, between, rfl⟩ := List.append_of_mem mem
  rw [List.append_assoc, List.cons_append]
  refine (List.Sublist.cons_cons first ?_).trans (List.sublist_append_right _ _)
  exact List.singleton_sublist.mpr (by simp)

theorem mem_front_of_precedes {front back : List K} {first second : K}
    (distinct : (front ++ second :: back).Nodup)
    (precedes : Precedes (front ++ second :: back) first second) : first ∈ front := by
  have mem := precedes.mem.1
  rcases List.mem_append.mp mem with inside | rest
  · exact inside
  · rcases List.mem_cons.mp rest with rfl | later
    · have twice : [first, first].Nodup := distinct.sublist precedes
      exact absurd twice (by simp)
    · obtain ⟨between, after, rfl⟩ := List.append_of_mem later
      have opposite : Precedes (front ++ second :: (between ++ first :: after)) second first := by
        have shown := @precedes_of_split K (front ++ second :: between) after second first
          (by simp)
        rwa [List.append_assoc, List.cons_append] at shown
      exact absurd opposite (precedes_asymm distinct precedes)

theorem precedes_trans {order : List K} (distinct : order.Nodup) {first second third : K}
    (left : Precedes order first second) (right : Precedes order second third) :
    Precedes order first third := by
  obtain ⟨front, back, rfl⟩ := List.append_of_mem right.mem.2
  have inside := mem_front_of_precedes distinct right
  obtain ⟨before, between, rfl⟩ := List.append_of_mem inside
  refine precedes_of_split (List.mem_append_left _ ?_)
  rw [List.append_assoc, List.cons_append] at distinct left
  exact mem_front_of_precedes distinct left

/-- **A list is in order when each next element comes later.** -/
theorem sublist_of_precedes {history order : List K} (distinct : order.Nodup)
    (inside : ∀ item ∈ history, item ∈ order)
    (steps : history.IsChain (Precedes order)) : history.Sublist order := by
  induction order generalizing history with
  | nil =>
    cases history with
    | nil => exact List.Sublist.refl _
    | cons item history => exact absurd (inside item List.mem_cons_self) List.not_mem_nil
  | cons head order ih =>
    obtain ⟨fresh, distinct'⟩ := List.nodup_cons.mp distinct
    -- whatever is not the first element comes after another one, so it is not the head
    have rest : ∀ items : List K, items.IsChain (Precedes (head :: order)) →
        (∀ item ∈ items, item ∈ order) → items.Sublist order := by
      intro items chain members
      refine ih distinct' members (chain.imp_of_mem_imp fun first second mem _ precedes => ?_)
      rcases precedes_cons_iff.mp precedes with ⟨rfl, _⟩ | inside'
      · exact absurd (members first mem) fresh
      · exact inside'
    cases history with
    | nil => exact List.nil_sublist _
    | cons first history =>
      have pairwise : ∀ item ∈ history, Precedes (head :: order) first item := by
        have whole : (first :: history).Pairwise (Precedes (head :: order)) := by
          have transitive : IsTrans K (Precedes (head :: order)) :=
            ⟨fun _ _ _ left right => precedes_trans distinct left right⟩
          exact List.isChain_iff_pairwise.mp steps
        exact (List.pairwise_cons.mp whole).1
      have later : ∀ item ∈ history, item ∈ order := by
        intro item mem
        rcases precedes_cons_iff.mp (pairwise item mem) with ⟨_, mem'⟩ | inside'
        · exact mem'
        · exact inside'.mem.2
      have tail := rest history steps.tail later
      rcases List.mem_cons.mp (inside first List.mem_cons_self) with rfl | mem
      · exact tail.cons_cons first
      · refine (rest (first :: history) steps ?_).trans (List.sublist_cons_self _ _)
        exact List.forall_mem_cons.mpr ⟨mem, later⟩

theorem filter_eq_of_sublist [DecidableEq K] {history order : List K} (distinct : order.Nodup)
    (inside : history.Sublist order) : order.filter (· ∈ history) = history := by
  refine ((List.Sublist.filter (· ∈ history) inside).eq_of_length_le ?_).symm.trans ?_
  · have nodup : (order.filter (· ∈ history)).Nodup := distinct.filter _
    have subset : order.filter (· ∈ history) ⊆ history.filter (· ∈ history) := by
      intro item mem
      have member : item ∈ history := by simpa using (List.mem_filter.mp mem).2
      exact List.mem_filter.mpr ⟨member, by simpa using member⟩
    exact (List.subperm_of_subset nodup subset).length_le
  · exact List.filter_eq_self.mpr fun item mem => by simpa using mem

/-- A list in which two lists are in order, without anything else. -/
structure Merges (left right merged : List K) : Prop where
  distinct : merged.Nodup
  mem_iff : ∀ item, item ∈ merged ↔ item ∈ left ∨ item ∈ right
  first : left.Sublist merged
  second : right.Sublist merged

/-- The heads of two lists that are not opposed can be placed: one of them is not behind the other. -/
theorem exists_merge {left right : List K} (distinct : left.Nodup) (distinct' : right.Nodup)
    (agree : ¬Opposed left right) : ∃ merged, Merges left right merged := by
  induction left generalizing right with
  | nil =>
    exact ⟨right, distinct', fun item => by simp, List.nil_sublist _, List.Sublist.refl _⟩
  | cons first left ihLeft =>
    induction right with
    | nil =>
      exact ⟨first :: left, distinct, fun item => by simp, List.Sublist.refl _,
        List.nil_sublist _⟩
    | cons second right ihRight =>
      obtain ⟨fresh, nodup⟩ := List.nodup_cons.mp distinct
      obtain ⟨fresh', nodup'⟩ := List.nodup_cons.mp distinct'
      by_cases absent : first ∈ second :: right
      · rcases List.mem_cons.mp absent with rfl | behind
        · -- both begin with the same element
          obtain ⟨merged, nodupMerged, mem_iff, inLeft, inRight⟩ := @ihLeft right nodup nodup' fun
            ⟨one, other, precedes, precedes'⟩ => agree ⟨one, other,
              precedes.trans (List.sublist_cons_self _ _),
              precedes'.trans (List.sublist_cons_self _ _)⟩
          refine ⟨first :: merged, List.nodup_cons.mpr ⟨?_, nodupMerged⟩, fun item => ?_,
            inLeft.cons_cons first, inRight.cons_cons first⟩
          · rw [mem_iff]
            exact fun either => either.elim fresh fresh'
          · rw [List.mem_cons, List.mem_cons, List.mem_cons, mem_iff]
            tauto
        · -- then the second head is not behind the first one
          have alone : second ∉ first :: left := by
            intro mem
            rcases List.mem_cons.mp mem with rfl | behind'
            · exact fresh' behind
            · exact agree ⟨first, second, precedes_cons_iff.mpr (Or.inl ⟨rfl, behind'⟩),
                precedes_cons_iff.mpr (Or.inl ⟨rfl, behind⟩)⟩
          obtain ⟨merged, nodupMerged, mem_iff, inLeft, inRight⟩ := ihRight nodup' fun
            ⟨one, other, precedes, precedes'⟩ => agree ⟨one, other, precedes,
              precedes'.trans (List.sublist_cons_self _ _)⟩
          refine ⟨second :: merged, List.nodup_cons.mpr ⟨?_, nodupMerged⟩, fun item => ?_,
            inLeft.trans (List.sublist_cons_self _ _), inRight.cons_cons second⟩
          · rw [mem_iff]
            exact fun either => either.elim alone fresh'
          · rw [List.mem_cons, mem_iff, List.mem_cons (l := right)]
            tauto
      · obtain ⟨merged, nodupMerged, mem_iff, inLeft, inRight⟩ :=
          @ihLeft (second :: right) nodup distinct' fun
            ⟨one, other, precedes, precedes'⟩ => agree ⟨one, other,
              precedes.trans (List.sublist_cons_self _ _), precedes'⟩
        refine ⟨first :: merged, List.nodup_cons.mpr ⟨?_, nodupMerged⟩, fun item => ?_,
          inLeft.cons_cons first, inRight.trans (List.sublist_cons_self _ _)⟩
        · rw [mem_iff]
          exact fun either => either.elim fresh absent
        · rw [List.mem_cons, mem_iff, List.mem_cons (l := left)]
          tauto

/-- **Two lists are merged unless they have two elements in opposite orders.** -/
theorem exists_merge_iff {left right : List K} (distinct : left.Nodup) (distinct' : right.Nodup) :
    (∃ merged, Merges left right merged) ↔ ¬Opposed left right := by
  refine ⟨?_, exists_merge distinct distinct'⟩
  rintro ⟨merged, merges⟩ ⟨first, second, precedes, precedes'⟩
  exact precedes_asymm merges.distinct (precedes.trans merges.first) (precedes'.trans merges.second)

section Nodes

variable [LinearOrder K]

/-- The prerequisites of a node are in front of it. -/
def Placed (edges : Set (K × K)) (order : List K) : Prop :=
  ∀ front node back, order = front ++ node :: back → ∀ earlier, (earlier, node) ∈ edges →
    earlier ∈ front

/-- The next node is the smallest one of which the prerequisites are in front. -/
def SmallestFirst (edges : Set (K × K)) (order : List K) : Prop :=
  ∀ front node back, order = front ++ node :: back → ∀ other ∈ back,
    (∀ earlier, (earlier, other) ∈ edges → earlier ∈ front) → node ≤ other

/-- **There is at most one order in which the smallest node comes first.** -/
theorem order_unique {edges : Set (K × K)} {first second : List K} (distinct : first.Nodup)
    (distinct' : second.Nodup) (same : ∀ node, node ∈ first ↔ node ∈ second)
    (placed : Placed edges first) (placed' : Placed edges second)
    (smallest : SmallestFirst edges first) (smallest' : SmallestFirst edges second) :
    first = second := by
  have rest : ∀ behind behind' front, first = front ++ behind → second = front ++ behind' →
      behind = behind' := by
    intro behind
    induction behind with
    | nil =>
      intro behind' front split split'
      cases behind' with
      | nil => rfl
      | cons node behind' =>
        have mem : node ∈ first := (same node).mpr (split' ▸ by simp)
        rw [split, List.append_nil] at mem
        rw [split'] at distinct'
        exact absurd rfl
          ((List.nodup_append.mp distinct').2.2 node mem node List.mem_cons_self)
    | cons node behind ih =>
      intro behind' front split split'
      -- each of the two next nodes is behind the other one, and ready
      have behindOther : ∀ {one other : List K} {next : K} {tail tail' : List K},
          one = front ++ next :: tail → one.Nodup → (∀ node, node ∈ one ↔ node ∈ other) →
            other = front ++ tail' → next ∈ tail' := by
        intro one other next tail tail' split nodup same split'
        have mem : next ∈ other := (same next).mp (split ▸ by simp)
        rw [split'] at mem
        rw [split] at nodup
        rcases List.mem_append.mp mem with inside | here
        · exact absurd rfl
            ((List.nodup_append.mp nodup).2.2 next inside next List.mem_cons_self)
        · exact here
      have here := behindOther split distinct same split'
      cases behind' with
      | nil => cases here
      | cons node' behind' =>
        have here' := behindOther split' distinct' (fun node => (same node).symm) split
        have equal : node = node' := by
          rcases List.mem_cons.mp here with equal | later
          · exact equal
          rcases List.mem_cons.mp here' with equal | later'
          · exact equal.symm
          exact le_antisymm
            (smallest front node behind split node' later' (placed' front node' behind' split'))
            (smallest' front node' behind' split' node later (placed front node behind split))
        subst equal
        rw [ih behind' (front ++ [node]) (by rw [split]; simp) (by rw [split']; simp)]
  exact rest first second [] rfl rfl

/-- What comes before what in one of two lists. -/
def before (left right : List K) : Set (K × K) :=
  {edge | Precedes left edge.1 edge.2 ∨ Precedes right edge.1 edge.2}

/-- The merged list in which the smallest possible element always comes first. -/
structure SmallestMerge (left right merged : List K) : Prop extends Merges left right merged where
  smallest : SmallestFirst (before left right) merged

omit [LinearOrder K] in
theorem Merges.placed {left right merged : List K} (merges : Merges left right merged) :
    Placed (before left right) merged := by
  rintro front node back rfl earlier (precedes | precedes)
  · exact mem_front_of_precedes merges.distinct (precedes.trans merges.first)
  · exact mem_front_of_precedes merges.distinct (precedes.trans merges.second)

theorem SmallestMerge.unique {left right first second : List K}
    (merge : SmallestMerge left right first) (merge' : SmallestMerge left right second) :
    first = second :=
  order_unique merge.distinct merge'.distinct
    (fun item => (merge.mem_iff item).trans (merge'.mem_iff item).symm) merge.placed merge'.placed
    merge.smallest merge'.smallest

/-- Take ready nodes, least first, and release their dependents: the order in which they are taken. -/
def peelOrder (dependents : Links K) : Nat → BTreeMap K Nat → BTreeSet K → Option (List K)
  | 0, _, _ => some []
  | fuel + 1, counts, ready =>
    match ready.first? with
    | none => some []
    | some node => do
        let released ← releaseAll (targetsOf dependents node) counts (ready.erase node)
        let rest ← peelOrder dependents fuel released.1 released.2
        pure (node :: rest)

/-- As many nodes are counted as are taken. -/
theorem peel_eq_length (dependents : Links K) (fuel : Nat) (counts : BTreeMap K Nat)
    (ready : BTreeSet K) :
    peel dependents fuel counts ready = (peelOrder dependents fuel counts ready).map List.length := by
  induction fuel generalizing counts ready with
  | zero => rfl
  | succ fuel ih =>
    rw [peel, peelOrder]
    cases ready.first? with
    | none => rfl
    | some node =>
      show (releaseAll _ _ _ >>= _) = Option.map List.length (releaseAll _ _ _ >>= _)
      cases releaseAll (targetsOf dependents node) counts (ready.erase node) with
      | none => rfl
      | some released =>
        show (peel dependents fuel released.1 released.2 >>= _) =
          Option.map List.length (peelOrder dependents fuel released.1 released.2 >>= _)
        rw [ih]
        cases peelOrder dependents fuel released.1 released.2 <;> rfl

/-- The order in which nodes are taken after others. -/
structure TakenAfter (nodes : List K) (edges : Set (K × K)) (taken rest : List K) : Prop where
  distinct : rest.Nodup
  fresh : ∀ node ∈ rest, node ∈ nodes ∧ node ∉ taken
  placed : ∀ front node back, rest = front ++ node :: back → ∀ earlier, (earlier, node) ∈ edges →
    earlier ∈ taken ∨ earlier ∈ front
  smallest : ∀ front node back, rest = front ++ node :: back → ∀ other ∈ nodes, other ∉ taken →
    other ∉ front → (∀ earlier, (earlier, other) ∈ edges → earlier ∈ taken ∨ earlier ∈ front) →
      node ≤ other
  stuck : ∀ node ∈ nodes, node ∉ taken → node ∉ rest →
    ∃ earlier, (earlier, node) ∈ edges ∧ earlier ∉ taken ∧ earlier ∉ rest

theorem releaseAll_of_lowerAll {list : List K} {counts after : BTreeMap K Nat}
    (lowered : lowerAll counts list = some after) (ready : BTreeSet K) :
    ∃ ready', releaseAll list counts ready = some (after, ready') := by
  induction list generalizing counts ready with
  | nil =>
    obtain rfl := Option.some.inj lowered
    exact ⟨ready, rfl⟩
  | cons node list ih =>
    obtain ⟨between, first, rest⟩ := Option.bind_eq_some_iff.mp lowered
    obtain ⟨ready', released⟩ :=
      ih rest (if between[node]? = some 0 then ready.insert node else ready)
    refine ⟨ready', ?_⟩
    rw [releaseAll, first]
    exact released

theorem first?_le {set : BTreeSet K} {least other : K} (first : set.first? = some least)
    (mem : other ∈ set) : least ≤ other := by
  have sorted := Std.TreeSet.ordered_toList (t := set)
  have member : other ∈ set.toList := Std.TreeSet.mem_toList.mpr mem
  unfold BTreeSet.first? at first
  cases list : set.toList with
  | nil =>
    rw [list] at member
    cases member
  | cons head tail =>
    rw [list] at first member sorted
    obtain rfl := Option.some.inj first
    rcases List.mem_cons.mp member with rfl | later
    · exact le_rfl
    · exact (compare_lt_iff_lt.mp ((List.pairwise_cons.mp sorted).1 other later)).le

variable {nodes : List K} {edges : Set (K × K)} {dependents : Links K}

def AllReady (nodes : List K) (edges : Set (K × K)) (taken : List K) (ready : BTreeSet K) : Prop :=
  ∀ node ∈ nodes, node ∉ taken → (∀ earlier, (earlier, node) ∈ edges → earlier ∈ taken) →
    node ∈ ready

theorem AllReady.take {taken : List K} {counts counts' : BTreeMap K Nat} {ready ready' : BTreeSet K}
    {node : K} (all : AllReady nodes edges taken ready)
    (linked : ∀ above below, below ∈ targetsOf dependents above ↔ (above, below) ∈ edges)
    (tallied : Tallied {node | node ∈ nodes} edges {other | other ∈ node :: taken} counts')
    (released : releaseAll (targetsOf dependents node) counts (ready.erase node) =
      some (counts', ready')) : AllReady nodes edges (node :: taken) ready' := by
  intro other isNode untaken free
  obtain ⟨notNode, untaken'⟩ := not_or.mp (fun either => untaken (List.mem_cons.mpr either))
  obtain ⟨_, readies⟩ := releaseAll_eq_some (targetsOf_nodup dependents node) released
  rw [readies]
  by_cases dependent : other ∈ targetsOf dependents node
  · refine Or.inr ⟨dependent, ?_⟩
    have none' : waitingFor edges {taken' | taken' ∈ node :: taken} other = ∅ :=
      Set.eq_empty_iff_forall_notMem.mpr fun earlier waits => waits.2 (free earlier waits.1)
    rw [tallied other isNode, none', Set.ncard_empty]
  · refine Or.inl (Std.TreeSet.mem_erase.mpr ⟨?_, all other isNode untaken' ?_⟩)
    · exact fun same => notNode (Std.LawfulEqCmp.compare_eq_iff_eq.mp same).symm
    · intro earlier edge
      rcases List.mem_cons.mp (free earlier edge) with rfl | before
      · exact absurd ((linked _ _).mpr edge) dependent
      · exact before

/-- **The order in which ready nodes are taken.** Nothing goes wrong, and the nodes that are left wait
for each other. -/
theorem peelOrder_spec (finite : edges.Finite)
    (linked : ∀ above below, below ∈ targetsOf dependents above ↔ (above, below) ∈ edges)
    (ends : ∀ edge ∈ edges, edge.2 ∈ nodes) {fuel : Nat} {taken : List K}
    {counts : BTreeMap K Nat} {ready : BTreeSet K}
    (peeling : Peeling nodes edges taken counts ready) (all : AllReady nodes edges taken ready)
    (enough : nodes.length ≤ taken.length + fuel) :
    ∃ rest, peelOrder dependents fuel counts ready = some rest ∧
      TakenAfter nodes edges taken rest := by
  have none' : ∀ {taken : List K}, (∀ node ∈ nodes, node ∉ taken →
      ∃ earlier, (earlier, node) ∈ edges ∧ earlier ∉ taken) → TakenAfter nodes edges taken [] :=
    fun stuck => ⟨List.nodup_nil, List.forall_mem_nil _,
      fun front node back split => absurd split (by simp),
      fun front node back split => absurd split (by simp), fun node isNode untaken _ =>
        (stuck node isNode untaken).imp fun _ ⟨edge, untaken'⟩ =>
          ⟨edge, untaken', List.not_mem_nil⟩⟩
  induction fuel generalizing taken counts ready with
  | zero =>
    have same := (List.subperm_of_subset peeling.distinct peeling.inside).perm_of_length_le enough
    exact ⟨[], rfl, none' fun node isNode untaken => absurd (same.mem_iff.mpr isNode) untaken⟩
  | succ fuel ih =>
    rw [peelOrder]
    cases least : ready.first? with
    | none =>
      refine ⟨[], rfl, none' fun node isNode untaken => ?_⟩
      by_contra free
      push Not at free
      exact BTreeSet.not_mem_of_first? least node (all node isNode untaken free)
    | some node =>
      have isReady := BTreeSet.mem_of_first? least
      obtain ⟨isNode, fresh, free⟩ := peeling.ready node isReady
      obtain ⟨counts', lowered, tallied⟩ := peeling.tallied.settle finite fresh
        (targetsOf_nodup dependents node) (linked node) fun _ edge => ends _ edge
      obtain ⟨ready', released⟩ := releaseAll_of_lowerAll lowered (ready.erase node)
      have grown : insert node {other | other ∈ taken} = {other | other ∈ node :: taken} := by
        ext other
        exact List.mem_cons.symm
      rw [grown] at tallied
      obtain ⟨rest, ran, after⟩ := ih (peeling.take finite linked ends isReady released)
        (all.take linked tallied released) (by rw [List.length_cons]; omega)
      refine ⟨node :: rest, ?_, ?_, ?_, ?_, ?_, ?_⟩
      · show (releaseAll _ _ _ >>= _) = _
        rw [released]
        show (peelOrder dependents fuel counts' ready' >>= _) = _
        rw [ran]
        rfl
      · exact List.nodup_cons.mpr
          ⟨fun mem => (after.fresh node mem).2 List.mem_cons_self, after.distinct⟩
      · refine List.forall_mem_cons.mpr ⟨⟨isNode, fresh⟩, fun other mem => ?_⟩
        obtain ⟨isNode', untaken⟩ := after.fresh other mem
        exact ⟨isNode', fun before => untaken (List.mem_cons_of_mem _ before)⟩
      · intro front other back split earlier edge
        cases front with
        | nil =>
          obtain ⟨rfl, _⟩ := List.cons.inj split
          exact Or.inl (free earlier edge)
        | cons first front =>
          obtain ⟨rfl, split'⟩ := List.cons.inj split
          rcases after.placed front other back split' earlier edge with before | inside
          · rcases List.mem_cons.mp before with rfl | before'
            · exact Or.inr List.mem_cons_self
            · exact Or.inl before'
          · exact Or.inr (List.mem_cons_of_mem _ inside)
      · intro front other back split third isNode' untaken outside free'
        cases front with
        | nil =>
          obtain ⟨rfl, _⟩ := List.cons.inj split
          refine first?_le least (all third isNode' untaken fun earlier edge => ?_)
          exact (free' earlier edge).resolve_right List.not_mem_nil
        | cons first front =>
          obtain ⟨rfl, split'⟩ := List.cons.inj split
          obtain ⟨notFirst, outside'⟩ := not_or.mp fun either =>
            outside (List.mem_cons.mpr either)
          refine after.smallest front other back split' third isNode' ?_ outside' ?_
          · exact fun mem => (List.mem_cons.mp mem).elim notFirst untaken
          · intro earlier edge
            rcases free' earlier edge with before | inside
            · exact Or.inl (List.mem_cons_of_mem _ before)
            · rcases List.mem_cons.mp inside with rfl | inside'
              · exact Or.inl List.mem_cons_self
              · exact Or.inr inside'
      · intro other isNode' untaken outside
        obtain ⟨notFirst, outside'⟩ := not_or.mp fun either =>
          outside (List.mem_cons.mpr either)
        obtain ⟨earlier, edge, untaken', outside''⟩ := after.stuck other isNode'
          (fun mem => (List.mem_cons.mp mem).elim notFirst untaken) outside'
        exact ⟨earlier, edge, fun before => untaken' (List.mem_cons_of_mem _ before),
          fun mem => (List.mem_cons.mp mem).elim
            (fun same => untaken' (same ▸ List.mem_cons_self)) outside''⟩

/-- **All nodes are taken if they can be ordered.** -/
theorem TakenAfter.complete {rest order : List K} (after : TakenAfter nodes edges [] rest)
    (starts : ∀ edge ∈ edges, edge.1 ∈ nodes) (placed : Placed edges order)
    (all : ∀ node ∈ nodes, node ∈ order) : ∀ node ∈ nodes, node ∈ rest := by
  have front : ∀ front back, order = front ++ back → ∀ node ∈ front, node ∈ nodes →
      node ∈ rest := by
    intro front
    induction front using List.reverseRecOn with
    | nil => exact fun back split node mem => absurd mem List.not_mem_nil
    | append_singleton front last ih =>
      intro back split node mem isNode
      rw [List.append_assoc, List.singleton_append] at split
      have before := ih (last :: back) split
      rcases List.mem_append.mp mem with inside | here
      · exact before node inside isNode
      · obtain rfl := List.mem_singleton.mp here
        by_contra outside
        obtain ⟨earlier, edge, _, outside'⟩ := after.stuck node isNode List.not_mem_nil outside
        exact outside' (before earlier (placed front node back split earlier edge) (starts _ edge))
  exact fun node isNode => front order [] (List.append_nil order).symm node (all node isNode) isNode

end Nodes

end Library
