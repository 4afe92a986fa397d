/-
**Counting unsettled prerequisites.**

Edges lead from a prerequisite to a dependent. Every node has a counter of the prerequisites that are
not settled, and settling a node lowers the counters of its dependents.

* `Tallied` — the counters say how many unsettled prerequisites there are; `tally_tallied`,
  `Tallied.settle` — they do at the start, and go on to when a node is settled.
* `peel` — settle nodes without unsettled prerequisites one after the other; `peel_wellFounded` — if
  that settles all nodes, then the edges are well founded.
-/

import Semaprax.Library.Links

namespace Library

variable {K : Type} [LinearOrder K]

def waitingFor (edges : Set (K × K)) (settled : Set K) (node : K) : Set K :=
  {prerequisite | (prerequisite, node) ∈ edges ∧ prerequisite ∉ settled}

/-- Every node has a counter, which says how many unsettled prerequisites it has. -/
def Tallied (nodes : Set K) (edges : Set (K × K)) (settled : Set K)
    (counts : BTreeMap K Nat) : Prop :=
  ∀ node ∈ nodes, counts[node]? = some (waitingFor edges settled node).ncard

/-- Count the prerequisites; `none` where a dependent has no counter. -/
def tally : List (K × K) → BTreeMap K Nat → Option (BTreeMap K Nat)
  | [], counts => some counts
  | edge :: edges, counts =>
    match counts[edge.2]? with
    | none => none
    | some count => tally edges (counts.insert edge.2 (count + 1))

/-- The dependents of every prerequisite. -/
def successors (edges : List (K × K)) : Links K :=
  edges.foldl (fun links edge => links.insert edge.1 ((links.getD edge.1 ∅).insert edge.2)) ∅

/-- Lower a counter; `none` where there is none, or it is zero. -/
def lower (counts : BTreeMap K Nat) (node : K) : Option (BTreeMap K Nat) :=
  match counts[node]? with
  | none => none
  | some 0 => none
  | some (count + 1) => some (counts.insert node count)

def lowerAll (counts : BTreeMap K Nat) : List K → Option (BTreeMap K Nat)
  | [] => some counts
  | node :: nodes => do
      let counts ← lower counts node
      lowerAll counts nodes

def releaseAll : List K → BTreeMap K Nat → BTreeSet K → Option (BTreeMap K Nat × BTreeSet K)
  | [], counts, ready => some (counts, ready)
  | node :: nodes, counts, ready => do
      let counts ← lower counts node
      releaseAll nodes counts (if counts[node]? = some 0 then ready.insert node else ready)

def peel (dependents : Links K) : Nat → BTreeMap K Nat → BTreeSet K → Option Nat
  | 0, _, _ => some 0
  | fuel + 1, counts, ready =>
    match ready.first? with
    | none => some 0
    | some node => do
        let released ← releaseAll (targetsOf dependents node) counts (ready.erase node)
        let processed ← peel dependents fuel released.1 released.2
        pure (processed + 1)

theorem mem_targetsOf_insert (links : Links K) (owner target other aim : K) :
    aim ∈ targetsOf (links.insert owner ((links.getD owner ∅).insert target)) other ↔
      (owner, target) = (other, aim) ∨ aim ∈ targetsOf links other := by
  unfold targetsOf
  rw [BTreeMap.getElem?_insert_eq, Std.TreeMap.getD_eq_getD_getElem?]
  by_cases same : owner = other
  · subst same
    rw [if_pos rfl]
    show aim ∈ Std.TreeSet.toList _ ↔ _
    rw [Std.TreeSet.mem_toList, BTreeSet.mem_insert_iff]
    cases links[owner]? with
    | none => simp
    | some targets => simp [Std.TreeSet.mem_toList]
  · rw [if_neg same]
    simp [same]

theorem mem_successors (edges : List (K × K)) (prerequisite dependent : K) :
    dependent ∈ targetsOf (successors edges) prerequisite ↔ (prerequisite, dependent) ∈ edges := by
  have collect : ∀ links : Links K,
      dependent ∈ targetsOf (edges.foldl (fun links edge =>
        links.insert edge.1 ((links.getD edge.1 ∅).insert edge.2)) links) prerequisite ↔
        (prerequisite, dependent) ∈ edges ∨ dependent ∈ targetsOf links prerequisite := by
    induction edges with
    | nil => simp
    | cons edge edges ih =>
      intro links
      rw [List.foldl_cons, ih, mem_targetsOf_insert, List.mem_cons]
      tauto
  rw [successors, collect]
  simp [targetsOf]

section Counting

variable {nodes settled : Set K} {edges : Set (K × K)} {counts after : BTreeMap K Nat}

omit [LinearOrder K] in
theorem waitingFor_finite (finite : edges.Finite) (settled : Set K) (node : K) :
    (waitingFor edges settled node).Finite :=
  (finite.image Prod.fst).subset fun prerequisite waits =>
    ⟨(prerequisite, node), waits.1, rfl⟩

omit [LinearOrder K] in
theorem waitingFor_insert (edges : Set (K × K)) (settled : Set K) (taken node : K) :
    waitingFor edges (insert taken settled) node = waitingFor edges settled node \ {taken} := by
  ext prerequisite
  show _ ∧ ¬ (_ ∨ _) ↔ (_ ∧ _) ∧ ¬ (_ = _)
  tauto

theorem tally_tallied {list : List (K × K)} (distinct : list.Nodup)
    (ends : ∀ edge ∈ list, edge.2 ∈ nodes) (zero : ∀ node ∈ nodes, counts[node]? = some 0) :
    ∃ after, tally list counts = some after ∧ Tallied nodes {edge | edge ∈ list} ∅ after := by
  have count : ∀ (list earlier : List (K × K)) (counts : BTreeMap K Nat), (earlier ++ list).Nodup →
      (∀ edge ∈ list, edge.2 ∈ nodes) → Tallied nodes {edge | edge ∈ earlier} ∅ counts →
      ∃ after, tally list counts = some after ∧
        Tallied nodes {edge | edge ∈ earlier ++ list} ∅ after := by
    intro list
    induction list with
    | nil =>
      intro earlier counts _ _ tallied
      exact ⟨counts, rfl, by rwa [List.append_nil]⟩
    | cons edge list ih =>
      intro earlier counts distinct ends tallied
      have known := tallied edge.2 (ends edge List.mem_cons_self)
      rw [List.append_cons] at distinct ⊢
      unfold tally
      rw [known]
      refine ih (earlier ++ [edge]) _ distinct
        (fun other member => ends other (List.mem_cons_of_mem _ member)) fun node member => ?_
      rw [BTreeMap.getElem?_insert_eq]
      have fresh : edge ∉ earlier := fun old => by
        have apart := (List.nodup_append.mp (List.nodup_append.mp distinct).1).2.2
        exact apart edge old edge (List.mem_singleton_self edge) rfl
      split_ifs with same
      · have grown : waitingFor {other | other ∈ earlier ++ [edge]} ∅ node =
            insert edge.1 (waitingFor {other | other ∈ earlier} ∅ node) := by
          ext prerequisite
          simp only [waitingFor, Set.mem_ofPred_eq, List.mem_append, List.mem_singleton,
            Prod.ext_iff, same, and_true, Set.mem_empty_iff_false, not_false_eq_true,
            Set.mem_insert_iff]
          tauto
        have absent : edge.1 ∉ waitingFor {other | other ∈ earlier} ∅ node := fun waits =>
          fresh (show (edge.1, edge.2) ∈ earlier from same ▸ waits.1)
        rw [grown, Set.ncard_insert_of_notMem absent
          (waitingFor_finite (List.finite_toSet earlier) ∅ node), same]
      · have same' : waitingFor {other | other ∈ earlier ++ [edge]} ∅ node =
            waitingFor {other | other ∈ earlier} ∅ node := by
          ext prerequisite
          simp only [waitingFor, Set.mem_ofPred_eq, List.mem_append, List.mem_singleton,
            Prod.ext_iff, Ne.symm same, and_false, or_false]
        rw [same', tallied node member]
  refine count list [] counts distinct ends fun node member => ?_
  have none : waitingFor {edge : K × K | edge ∈ ([] : List (K × K))} ∅ node = ∅ := by
    ext prerequisite
    simp [waitingFor]
  rw [zero node member, none, Set.ncard_empty]

theorem mem_tally {list : List (K × K)} (counted : tally list counts = some after) (node : K) :
    node ∈ after ↔ node ∈ counts := by
  induction list generalizing counts with
  | nil =>
    obtain rfl := Option.some.inj counted
    exact Iff.rfl
  | cons edge list ih =>
    unfold tally at counted
    split at counted
    · exact nomatch counted
    · rename_i count found
      rw [ih counted, BTreeMap.mem_insert_iff]
      refine or_iff_right_of_imp ?_
      rintro rfl
      rw [Std.TreeMap.mem_iff_isSome_getElem?, found]
      rfl

theorem lower_eq_some {node : K} (lowered : lower counts node = some after) (other : K) :
    after[other]? = if node = other then (counts[other]?).map (· - 1) else counts[other]? := by
  unfold lower at lowered
  split at lowered
  · exact nomatch lowered
  · exact nomatch lowered
  · rename_i count found
    obtain rfl := Option.some.inj lowered
    rw [BTreeMap.getElem?_insert_eq]
    split_ifs with same
    · rw [← same, found]
      rfl
    · rfl

theorem lowerAll_some {list : List K} (distinct : list.Nodup)
    (positive : ∀ node ∈ list, ∃ count, counts[node]? = some (count + 1)) :
    ∃ after, lowerAll counts list = some after ∧ ∀ other, after[other]? =
      if other ∈ list then (counts[other]?).map (· - 1) else counts[other]? := by
  induction list generalizing counts with
  | nil => exact ⟨counts, rfl, fun other => rfl⟩
  | cons node list ih =>
    rw [List.nodup_cons] at distinct
    obtain ⟨count, found⟩ := positive node List.mem_cons_self
    have first : lower counts node = some (counts.insert node count) := by
      unfold lower
      rw [found]
    have lowered := lower_eq_some first
    obtain ⟨after, rest, lowers⟩ := ih distinct.2 fun other member => by
      have different : node ≠ other := fun same => distinct.1 (same ▸ member)
      obtain ⟨count', found'⟩ := positive other (List.mem_cons_of_mem _ member)
      exact ⟨count', by rw [lowered, if_neg different, found']⟩
    refine ⟨after, ?_, fun other => ?_⟩
    · unfold lowerAll
      rw [first]
      exact rest
    · rw [lowers, lowered]
      by_cases same : node = other
      · have absent : other ∉ list := same ▸ distinct.1
        simp [same, absent]
      · simp [same, Ne.symm same]

theorem releaseAll_eq_some {list : List K} {ready ready' : BTreeSet K} (distinct : list.Nodup)
    (released : releaseAll list counts ready = some (after, ready')) :
    (∀ other, after[other]? =
      if other ∈ list then (counts[other]?).map (· - 1) else counts[other]?) ∧
    ∀ other, other ∈ ready' ↔ other ∈ ready ∨ other ∈ list ∧ after[other]? = some 0 := by
  induction list generalizing counts ready with
  | nil =>
    obtain ⟨rfl, rfl⟩ := Prod.mk.inj (Option.some.inj released)
    exact ⟨fun other => rfl, fun other => by simp⟩
  | cons node list ih =>
    rw [List.nodup_cons] at distinct
    unfold releaseAll at released
    obtain ⟨between, first, rest⟩ := Option.bind_eq_some_iff.mp released
    have lowered := lower_eq_some first
    obtain ⟨lowers, readies⟩ := ih distinct.2 rest
    have here : after[node]? = between[node]? := by rw [lowers, if_neg distinct.1]
    refine ⟨fun other => ?_, fun other => ?_⟩
    · rw [lowers, lowered]
      by_cases same : node = other
      · have absent : other ∉ list := same ▸ distinct.1
        simp [same, absent]
      · simp [same, Ne.symm same]
    · rw [readies, List.mem_cons, ← here]
      split_ifs with zero
      · rw [BTreeSet.mem_insert_iff]
        constructor
        · rintro ((rfl | old) | new)
          · exact .inr ⟨.inl rfl, zero⟩
          · exact .inl old
          · exact .inr ⟨.inr new.1, new.2⟩
        · rintro (old | ⟨rfl | new, none⟩)
          · exact .inl (.inr old)
          · exact .inl (.inl rfl)
          · exact .inr ⟨new, none⟩
      · constructor
        · rintro (old | new)
          · exact .inl old
          · exact .inr ⟨.inr new.1, new.2⟩
        · rintro (old | ⟨rfl | new, none⟩)
          · exact .inl old
          · exact absurd none zero
          · exact .inr ⟨new, none⟩

theorem Tallied.lowered {taken : K} (tallied : Tallied nodes edges settled counts)
    (fresh : taken ∉ settled) {list : List K}
    (dependents : ∀ node, node ∈ list ↔ (taken, node) ∈ edges)
    (lowers : ∀ other, after[other]? =
      if other ∈ list then (counts[other]?).map (· - 1) else counts[other]?) :
    Tallied nodes edges (insert taken settled) after := by
  intro node member
  rw [lowers, tallied node member, waitingFor_insert]
  split_ifs with dependent
  · have waits : taken ∈ waitingFor edges settled node := ⟨(dependents node).mp dependent, fresh⟩
    rw [Set.ncard_sdiff_singleton_of_mem waits]
    rfl
  · rw [Set.sdiff_singleton_eq_self fun waits => dependent ((dependents node).mpr waits.1)]

/-- **Settling a node.** Its dependents have positive counters, which are lowered. -/
theorem Tallied.settle {taken : K} (tallied : Tallied nodes edges settled counts)
    (finite : edges.Finite) (fresh : taken ∉ settled) {list : List K} (distinct : list.Nodup)
    (dependents : ∀ node, node ∈ list ↔ (taken, node) ∈ edges)
    (ends : ∀ node, (taken, node) ∈ edges → node ∈ nodes) :
    ∃ after, lowerAll counts list = some after ∧
      Tallied nodes edges (insert taken settled) after := by
  obtain ⟨after, lowered, lowers⟩ := lowerAll_some distinct fun node member => by
    have edge := (dependents node).mp member
    have positive : 0 < (waitingFor edges settled node).ncard :=
      (Set.ncard_pos (waitingFor_finite finite settled node)).mpr ⟨taken, edge, fresh⟩
    refine ⟨(waitingFor edges settled node).ncard - 1, ?_⟩
    rw [tallied node (ends node edge), Nat.sub_add_cancel positive]
  exact ⟨after, lowered, tallied.lowered fresh dependents lowers⟩

end Counting

section Peeling

variable {nodes : List K} {edges : Set (K × K)} {dependents : Links K}

/-- What holds when the listed nodes have been taken. -/
structure Peeling (nodes : List K) (edges : Set (K × K)) (taken : List K)
    (counts : BTreeMap K Nat) (ready : BTreeSet K) : Prop where
  distinct : taken.Nodup
  inside : ∀ node ∈ taken, node ∈ nodes
  closed : ∀ prerequisite node, (prerequisite, node) ∈ edges → node ∈ taken → prerequisite ∈ taken
  accessible : ∀ node ∈ taken, Acc (fun prerequisite node => (prerequisite, node) ∈ edges) node
  tallied : Tallied {node | node ∈ nodes} edges {node | node ∈ taken} counts
  ready : ∀ node ∈ ready, node ∈ nodes ∧ node ∉ taken ∧
    ∀ prerequisite, (prerequisite, node) ∈ edges → prerequisite ∈ taken

/-- A node is taken once all its prerequisites are, so it is accessible. -/
theorem Peeling.take {taken : List K} {counts counts' : BTreeMap K Nat}
    {ready ready' : BTreeSet K} {node : K} (peeling : Peeling nodes edges taken counts ready)
    (finite : edges.Finite)
    (linked : ∀ above below, below ∈ targetsOf dependents above ↔ (above, below) ∈ edges)
    (ends : ∀ edge ∈ edges, edge.2 ∈ nodes) (isReady : node ∈ ready)
    (released : releaseAll (targetsOf dependents node) counts (ready.erase node) =
      some (counts', ready')) :
    Peeling nodes edges (node :: taken) counts' ready' := by
  obtain ⟨isNode, fresh, free⟩ := peeling.ready node isReady
  obtain ⟨lowers, readies⟩ := releaseAll_eq_some (targetsOf_nodup dependents node) released
  have closed : ∀ prerequisite other, (prerequisite, other) ∈ edges → other ∈ node :: taken →
      prerequisite ∈ taken := by
    intro prerequisite other edge member
    rcases List.mem_cons.mp member with rfl | old
    · exact free prerequisite edge
    · exact peeling.closed prerequisite other edge old
  have grown : {other | other ∈ node :: taken} = insert node {other | other ∈ taken} := by
    ext other
    exact List.mem_cons
  have tallied : Tallied {node | node ∈ nodes} edges {other | other ∈ node :: taken} counts' := by
    rw [grown]
    exact peeling.tallied.lowered fresh (linked node) lowers
  refine ⟨List.nodup_cons.mpr ⟨fresh, peeling.distinct⟩, ?_, ?_, ?_, tallied, ?_⟩
  · intro other member
    rcases List.mem_cons.mp member with rfl | old
    · exact isNode
    · exact peeling.inside other old
  · exact fun prerequisite other edge member =>
      List.mem_cons_of_mem _ (closed prerequisite other edge member)
  · intro other member
    rcases List.mem_cons.mp member with rfl | old
    · exact ⟨_, fun prerequisite edge => peeling.accessible _ (free prerequisite edge)⟩
    · exact peeling.accessible other old
  · intro other member
    rcases (readies other).mp member with old | ⟨dependent, zero⟩
    · rw [Std.TreeSet.mem_erase] at old
      obtain ⟨isNode', fresh', free'⟩ := peeling.ready other old.2
      have different : other ≠ node := fun same =>
        old.1 (Std.LawfulEqCmp.compare_eq_iff_eq.mpr same.symm)
      refine ⟨isNode', ?_, fun prerequisite edge =>
        List.mem_cons_of_mem _ (free' prerequisite edge)⟩
      rw [List.mem_cons]
      rintro (same | old')
      · exact different same
      · exact fresh' old'
    · have edge := (linked node other).mp dependent
      have isNode' := ends _ edge
      rw [tallied other isNode', Option.some_inj,
        Set.ncard_eq_zero (waitingFor_finite finite _ other)] at zero
      refine ⟨isNode', fun member => fresh (closed node other edge member), ?_⟩
      intro prerequisite edge'
      by_contra waits
      have : prerequisite ∈ waitingFor edges {other | other ∈ node :: taken} other := ⟨edge', waits⟩
      rw [zero] at this
      exact this

/-- **If peeling takes all nodes, the edges are well founded.** -/
theorem peel_wellFounded (finite : edges.Finite)
    (linked : ∀ above below, below ∈ targetsOf dependents above ↔ (above, below) ∈ edges)
    (ends : ∀ edge ∈ edges, edge.2 ∈ nodes) {fuel processed : Nat} {taken : List K}
    {counts : BTreeMap K Nat} {ready : BTreeSet K}
    (peeling : Peeling nodes edges taken counts ready)
    (peeled : peel dependents fuel counts ready = some processed)
    (all : taken.length + processed = nodes.length) :
    WellFounded fun prerequisite node => (prerequisite, node) ∈ edges := by
  have finish : ∀ taken counts ready, Peeling nodes edges taken counts ready →
      taken.length = nodes.length →
      WellFounded fun prerequisite node => (prerequisite, node) ∈ edges := by
    intro taken counts ready peeling all
    have same := (List.subperm_of_subset peeling.distinct peeling.inside).perm_of_length_le all.ge
    refine ⟨fun node => ?_⟩
    by_cases member : node ∈ nodes
    · exact peeling.accessible node (same.mem_iff.mpr member)
    · exact ⟨_, fun prerequisite edge => absurd (ends _ edge) member⟩
  induction fuel generalizing taken counts ready processed with
  | zero =>
    obtain rfl := Option.some.inj peeled
    exact finish taken counts ready peeling all
  | succ fuel ih =>
    unfold peel at peeled
    cases least : ready.first? with
    | none =>
      rw [least] at peeled
      obtain rfl := Option.some.inj peeled
      exact finish taken counts ready peeling all
    | some node =>
      rw [least] at peeled
      obtain ⟨⟨counts', ready'⟩, released, rest⟩ := Option.bind_eq_some_iff.mp peeled
      obtain ⟨fewer, ran, last⟩ := Option.bind_eq_some_iff.mp rest
      obtain rfl := Option.some.inj last
      refine ih (peeling.take finite linked ends (BTreeSet.mem_of_first? least) released)
        ran ?_
      rw [List.length_cons]
      omega

end Peeling

end Library
