/-
**Objects on a reference cycle** (`arc_zones.rs`, `cycle_participants`).

The iterative search for strongly connected components over the live objects of a zone, with its work
list, its component stack and its two tables of indices. Every table lookup that the source takes for
granted may fail here.

* `Search.step` — one turn of the loop; `searchFrom` — the loop, with fuel.
* `Search.Sound` — the tables know every node on the work list.
* `Search.remaining` — what the loop still has to do; `step_some` — a turn does not fail and leaves
  less to do.
* `cycleParticipants_some` — the search ends, without a failed lookup.
-/

import Semaprax.Library.Links
import Semaprax.ArcZones.Model

namespace Semaprax.ArcZones

open Library

/-- The successors of every node. -/
abbrev Adjacency := BTreeMap DeclarationId (List DeclarationId)

/-- The variables of the search; the stacks have their top in front. -/
structure Search where
  indexOf : BTreeMap DeclarationId Nat
  lowlink : BTreeMap DeclarationId Nat
  onStack : BTreeSet DeclarationId
  component : List DeclarationId
  participants : BTreeSet DeclarationId
  nextIndex : Nat
  work : List (DeclarationId × Nat)

/-- The search before its first node. -/
def Search.start : Search := ⟨∅, ∅, ∅, [], ∅, 0, []⟩

/-- Number a node and put it on both stacks. -/
def Search.visit (search : Search) (node : DeclarationId) : Search :=
  { search with
    indexOf := search.indexOf.insert node search.nextIndex
    lowlink := search.lowlink.insert node search.nextIndex
    onStack := search.onStack.insert node
    component := node :: search.component
    nextIndex := search.nextIndex + 1
    work := (node, 0) :: search.work }

def popComponent (node : DeclarationId) :
    List DeclarationId → List DeclarationId × List DeclarationId
  | [] => ([], [])
  | member :: rest =>
    if member = node then ([member], rest)
    else
      let popped := popComponent node rest
      (member :: popped.1, popped.2)

/-- Close the component of a node whose low link is its own index. -/
def Search.close (search : Search) (node : DeclarationId) : Search :=
  let popped := popComponent node search.component
  { search with
    component := popped.2
    onStack := popped.1.foldl (fun stack member => stack.erase member) search.onStack
    participants :=
      if popped.1.length > 1 then
        popped.1.foldl (fun members member => members.insert member) search.participants
      else search.participants }

def Search.lower (search : Search) (node : DeclarationId) (index : Nat) : Option Search := do
  let low ← search.lowlink[node]?
  pure { search with
    lowlink := search.lowlink.insert node (min low index) }

/-- Lower the low link of the node that is now on top, if any. -/
def Search.lowerParent (search : Search) (low : Nat) : Option Search :=
  match search.work with
  | [] => some search
  | (parent, _) :: _ => search.lower parent low

def Search.leave (search : Search) (node : DeclarationId) : Option Search := do
  let nodeLow ← search.lowlink[node]?
  let search ← search.lowerParent nodeLow
  let index ← search.indexOf[node]?
  pure (if nodeLow = index then search.close node else search)

def Search.step (adjacency : Adjacency) (search : Search) (node : DeclarationId) (slot : Nat)
    (work : List (DeclarationId × Nat)) : Option Search := do
  let successors ← adjacency[node]?
  match successors[slot]? with
  | some successor =>
    let advanced := { search with
      work := (node, slot + 1) :: work }
    match search.indexOf[successor]? with
    | none => some (advanced.visit successor)
    | some index =>
      if successor ∈ search.onStack then advanced.lower node index else some advanced
  | none =>
    let left := { search with
      work := work }
    left.leave node

/-- The loop over the work list. -/
def searchFrom (adjacency : Adjacency) : Nat → Search → Option Search
  | fuel, search =>
    match search.work with
    | [] => some search
    | (node, slot) :: work =>
      match fuel with
      | 0 => none
      | fuel + 1 => do
          let search ← search.step adjacency node slot work
          searchFrom adjacency fuel search

/-- The successors of a node in the table. -/
def Adjacency.degree (adjacency : Adjacency) (node : DeclarationId) : Nat :=
  (adjacency.getD node []).length

/-- Fuel for every slot of every node. -/
def Adjacency.size (adjacency : Adjacency) : Nat :=
  ∑ node ∈ adjacency.keys.toFinset, (adjacency.degree node + 1)

/-- The loop over the nodes that are not numbered yet. -/
def searchAll (adjacency : Adjacency) : List DeclarationId → Search → Option Search
  | [], search => some search
  | node :: nodes, search => do
      let search ←
        if node ∈ search.indexOf then some search
        else searchFrom adjacency (Adjacency.size adjacency) (search.visit node)
      searchAll adjacency nodes search

def adjacencyOf (live : List DeclarationId) (links : Links DeclarationId) : Adjacency :=
  live.foldl (fun adjacency id =>
    adjacency.insert id ((targetsOf links id).filter fun target => target ∈ live)) ∅

/-- The nodes on a cycle of the live subgraph: members of a component of more than one, and nodes that
link to themselves. -/
def cycleParticipants (live : List DeclarationId) (links : Links DeclarationId)
    (isLive : DeclarationId → Bool) : Option (BTreeSet DeclarationId) := do
  let search ← searchAll (adjacencyOf live links) live .start
  pure (live.foldl (fun members id =>
    if isLive id ∧ id ∈ targetsOf links id then members.insert id else members)
    search.participants)

variable {adjacency : Adjacency} {search after : Search} {node : DeclarationId} {slot : Nat}

/-- The successors of every node are nodes. -/
def Adjacency.Closed (adjacency : Adjacency) : Prop :=
  ∀ (node : DeclarationId) (successors : List DeclarationId),
    adjacency[node]? = some successors → ∀ successor ∈ successors, successor ∈ adjacency

/-- The tables know every node on the work list, and none of its slots is passed. -/
structure Search.Sound (adjacency : Adjacency) (search : Search) : Prop where
  known : ∀ entry ∈ search.work, entry.1 ∈ adjacency ∧ entry.2 ≤ Adjacency.degree adjacency entry.1
  linked : ∀ entry ∈ search.work, entry.1 ∈ search.lowlink
  indexed : ∀ entry ∈ search.work, entry.1 ∈ search.indexOf

/-- The nodes that are not numbered yet. -/
def Search.unvisited (adjacency : Adjacency) (search : Search) : Finset DeclarationId :=
  adjacency.keys.toFinset.filter (· ∉ search.indexOf)

/-- What the work list still has to do: the slots that are left, and leaving each node. -/
def workLeft (adjacency : Adjacency) (work : List (DeclarationId × Nat)) : Nat :=
  (work.map fun entry => Adjacency.degree adjacency entry.1 + 1 - entry.2).sum

def Search.remaining (adjacency : Adjacency) (search : Search) : Nat :=
  ∑ node ∈ search.unvisited adjacency, (Adjacency.degree adjacency node + 1) +
    workLeft adjacency search.work

theorem Search.visit_remaining (fresh : node ∉ search.indexOf) (known : node ∈ adjacency) :
    (search.visit node).remaining adjacency = search.remaining adjacency := by
  have member : node ∈ search.unvisited adjacency := by
    unfold Search.unvisited
    rw [Finset.mem_filter, List.mem_toFinset, BTreeMap.mem_keys_iff]
    exact ⟨known, fresh⟩
  have less : (search.visit node).unvisited adjacency = (search.unvisited adjacency).erase node := by
    ext other
    unfold Search.unvisited Search.visit
    rw [Finset.mem_filter, Finset.mem_erase, Finset.mem_filter, BTreeMap.mem_insert_iff]
    tauto
  unfold Search.remaining
  rw [less]
  have split := Finset.add_sum_erase (search.unvisited adjacency)
    (fun node => Adjacency.degree adjacency node + 1) member
  show _ + workLeft adjacency ((node, 0) :: search.work) = _
  unfold workLeft
  rw [List.map_cons, List.sum_cons, Nat.sub_zero]
  dsimp only at split ⊢
  omega

theorem Search.Sound.visit (sound : search.Sound adjacency) (known : node ∈ adjacency) :
    (search.visit node).Sound adjacency where
  known := fun entry member => by
    rcases List.mem_cons.mp member with rfl | old
    · exact ⟨known, Nat.zero_le _⟩
    · exact sound.known entry old
  linked := fun entry member => by
    refine (BTreeMap.mem_insert_iff ..).mpr ?_
    rcases List.mem_cons.mp member with rfl | old
    · exact .inl rfl
    · exact .inr (sound.linked entry old)
  indexed := fun entry member => by
    refine (BTreeMap.mem_insert_iff ..).mpr ?_
    rcases List.mem_cons.mp member with rfl | old
    · exact .inl rfl
    · exact .inr (sound.indexed entry old)

/-- What lowering a low link leaves as it was. -/
structure Search.Lowered (search after : Search) : Prop where
  indexOf : after.indexOf = search.indexOf
  work : after.work = search.work
  lowlink : ∀ other, other ∈ search.lowlink → other ∈ after.lowlink

theorem Search.Lowered.sound (lowered : search.Lowered after) (sound : search.Sound adjacency) :
    after.Sound adjacency where
  known := by
    rw [lowered.work]
    exact sound.known
  linked := by
    rw [lowered.work]
    exact fun entry member => lowered.lowlink _ (sound.linked entry member)
  indexed := by
    rw [lowered.work, lowered.indexOf]
    exact sound.indexed

theorem Search.Lowered.remaining (lowered : search.Lowered after) :
    after.remaining adjacency = search.remaining adjacency := by
  unfold Search.remaining Search.unvisited
  rw [lowered.work, lowered.indexOf]

theorem getElem?_of_mem {V : Type} {map : BTreeMap DeclarationId V} (member : node ∈ map) :
    ∃ value, map[node]? = some value := by
  rwa [Std.TreeMap.mem_iff_isSome_getElem?, Option.isSome_iff_exists] at member

theorem Search.lower_some (index : Nat) (linked : node ∈ search.lowlink) :
    ∃ after, search.lower node index = some after ∧ search.Lowered after := by
  obtain ⟨low, found⟩ := getElem?_of_mem linked
  unfold Search.lower
  rw [found]
  exact ⟨_, rfl, rfl, rfl, fun other member => (BTreeMap.mem_insert_iff ..).mpr (.inr member)⟩

theorem Search.lowerParent_some (low : Nat) (sound : search.Sound adjacency) :
    ∃ after, search.lowerParent low = some after ∧ search.Lowered after := by
  unfold Search.lowerParent
  cases work : search.work with
  | nil => exact ⟨search, rfl, rfl, rfl, fun _ member => member⟩
  | cons entry rest => exact search.lower_some low (sound.linked entry (work ▸ List.mem_cons_self))

theorem Search.leave_some (sound : search.Sound adjacency) (linked : node ∈ search.lowlink)
    (indexed : node ∈ search.indexOf) :
    ∃ after, search.leave node = some after ∧ search.Lowered after := by
  obtain ⟨low, foundLow⟩ := getElem?_of_mem linked
  obtain ⟨index, foundIndex⟩ := getElem?_of_mem indexed
  obtain ⟨between, ran, lowered⟩ := search.lowerParent_some low sound
  unfold Search.leave
  rw [foundLow]
  dsimp only [Option.bind_eq_bind, Option.bind_some]
  rw [ran]
  dsimp only [Option.bind_some]
  rw [lowered.indexOf, foundIndex]
  refine ⟨_, rfl, ?_⟩
  split_ifs
  · exact ⟨lowered.indexOf, lowered.work, lowered.lowlink⟩
  · exact lowered

/-- A turn of the loop does not fail, and leaves less to do. -/
theorem Search.step_some {work : List (DeclarationId × Nat)} (closed : Adjacency.Closed adjacency)
    (sound : search.Sound adjacency) (top : search.work = (node, slot) :: work) :
    ∃ after, search.step adjacency node slot work = some after ∧ after.Sound adjacency ∧
      after.remaining adjacency < search.remaining adjacency := by
  have here := sound.known (node, slot) (top ▸ List.mem_cons_self)
  have linked := sound.linked (node, slot) (top ▸ List.mem_cons_self)
  have indexed := sound.indexed (node, slot) (top ▸ List.mem_cons_self)
  obtain ⟨successors, found⟩ : ∃ successors, adjacency[node]? = some successors := by
    have member := here.1
    rwa [Std.TreeMap.mem_iff_isSome_getElem?, Option.isSome_iff_exists] at member
  have degree : Adjacency.degree adjacency node = successors.length := by
    unfold Adjacency.degree
    rw [Std.TreeMap.getD_eq_getD_getElem?, found]
    rfl
  have below : ∀ entry ∈ work, entry ∈ search.work := fun entry member =>
    top ▸ List.mem_cons_of_mem _ member
  have before : search.remaining adjacency =
      ∑ node ∈ search.unvisited adjacency, (Adjacency.degree adjacency node + 1) +
        (successors.length + 1 - slot + workLeft adjacency work) := by
    unfold Search.remaining workLeft
    rw [top, List.map_cons, List.sum_cons, degree]
  unfold Search.step
  rw [found]
  dsimp only [Option.bind_eq_bind, Option.bind_some]
  cases next : successors[slot]? with
  | some successor =>
    obtain ⟨room, named⟩ := List.getElem?_eq_some_iff.mp next
    have known := closed node successors found successor (named ▸ List.getElem_mem room)
    let advanced : Search := { search with
      work := (node, slot + 1) :: work }
    have less : advanced.remaining adjacency < search.remaining adjacency := by
      rw [before]
      show _ + workLeft adjacency ((node, slot + 1) :: work) < _
      unfold workLeft
      rw [List.map_cons, List.sum_cons, degree]
      show ∑ node ∈ search.unvisited adjacency, (Adjacency.degree adjacency node + 1) + _ < _
      omega
    have advances : advanced.Sound adjacency := by
      refine ⟨fun entry member => ?_, fun entry member => ?_, fun entry member => ?_⟩ <;>
        rcases List.mem_cons.mp member with rfl | old
      · exact ⟨here.1, by rw [degree]; exact room⟩
      · exact sound.known entry (below entry old)
      · exact linked
      · exact sound.linked entry (below entry old)
      · exact indexed
      · exact sound.indexed entry (below entry old)
    dsimp only
    cases numbered : search.indexOf[successor]? with
    | none =>
      have fresh : successor ∉ search.indexOf := by
        rw [Std.TreeMap.mem_iff_isSome_getElem?, numbered]
        exact Bool.false_ne_true
      have same : (advanced.visit successor).remaining adjacency =
          advanced.remaining adjacency := Search.visit_remaining fresh known
      exact ⟨_, rfl, advances.visit known, same.trans_lt less⟩
    | some index =>
      dsimp only
      split_ifs
      · obtain ⟨after, ran, lowered⟩ := advanced.lower_some index linked
        exact ⟨after, ran, lowered.sound advances, lowered.remaining.trans_lt less⟩
      · exact ⟨advanced, rfl, advances, less⟩
  | none =>
    let left : Search := { search with
      work := work }
    have leaves : left.Sound adjacency :=
      ⟨fun entry member => sound.known entry (below entry member),
        fun entry member => sound.linked entry (below entry member),
        fun entry member => sound.indexed entry (below entry member)⟩
    obtain ⟨after, ran, lowered⟩ := Search.leave_some leaves linked indexed
    refine ⟨after, ran, lowered.sound leaves, lowered.remaining.trans_lt ?_⟩
    have within := here.2
    rw [before]
    show ∑ node ∈ search.unvisited adjacency, _ + workLeft adjacency work < _
    dsimp only at within
    omega

theorem searchFrom_some {fuel : Nat} (closed : Adjacency.Closed adjacency)
    (sound : search.Sound adjacency) (enough : search.remaining adjacency ≤ fuel) :
    ∃ after, searchFrom adjacency fuel search = some after ∧ after.Sound adjacency ∧
      after.work = [] := by
  induction fuel generalizing search with
  | zero =>
    unfold searchFrom
    cases top : search.work with
    | nil => exact ⟨search, rfl, sound, top⟩
    | cons entry work =>
      obtain ⟨after, -, -, less⟩ := search.step_some closed sound top
      omega
  | succ fuel ih =>
    unfold searchFrom
    cases top : search.work with
    | nil => exact ⟨search, rfl, sound, top⟩
    | cons entry work =>
      obtain ⟨after, ran, sound', less⟩ := search.step_some closed sound top
      dsimp only
      rw [ran]
      exact ih sound' (by omega)

theorem Search.remaining_le (empty : search.work = []) :
    search.remaining adjacency ≤ Adjacency.size adjacency := by
  unfold Search.remaining workLeft
  rw [empty, List.map_nil, List.sum_nil, add_zero]
  exact Finset.sum_le_sum_of_subset (Finset.filter_subset _ _)

theorem searchAll_some {nodes : List DeclarationId} (closed : Adjacency.Closed adjacency)
    (sound : search.Sound adjacency) (empty : search.work = [])
    (known : ∀ node ∈ nodes, node ∈ adjacency) :
    ∃ after, searchAll adjacency nodes search = some after := by
  induction nodes generalizing search with
  | nil => exact ⟨search, rfl⟩
  | cons node nodes ih =>
    have rest := fun other member => known other (List.mem_cons_of_mem _ member)
    unfold searchAll
    split_ifs with numbered
    · exact ih sound empty rest
    · have here := known node List.mem_cons_self
      have enough : (search.visit node).remaining adjacency ≤ Adjacency.size adjacency := by
        rw [Search.visit_remaining numbered here]
        exact Search.remaining_le empty
      obtain ⟨after, ran, sound', empty'⟩ := searchFrom_some closed (sound.visit here) enough
      rw [ran]
      exact ih sound' empty' rest

theorem getElem?_adjacencyOf (live : List DeclarationId) (links : Links DeclarationId)
    (node : DeclarationId) :
    (adjacencyOf live links)[node]? =
      if node ∈ live then some ((targetsOf links node).filter fun target => target ∈ live)
      else none := by
  have grow : ∀ (ids : List DeclarationId) (table : Adjacency),
      (ids.foldl (fun adjacency id => adjacency.insert id
        ((targetsOf links id).filter fun target => target ∈ live)) table)[node]? =
        if node ∈ ids then some ((targetsOf links node).filter fun target => target ∈ live)
        else table[node]? := fun ids => by
    induction ids with
    | nil => simp
    | cons first rest ih =>
      intro table
      rw [List.foldl_cons, ih, BTreeMap.getElem?_insert_eq]
      by_cases inside : node ∈ rest
      · simp [inside]
      · by_cases same : first = node
        · simp [same]
        · simp [inside, same, Ne.symm same]
  unfold adjacencyOf
  rw [grow]
  simp

/-- The search for cycles ends, without a failed lookup. -/
theorem cycleParticipants_some (live : List DeclarationId) (links : Links DeclarationId)
    (isLive : DeclarationId → Bool) :
    ∃ participants, cycleParticipants live links isLive = some participants := by
  have known : ∀ node, node ∈ adjacencyOf live links ↔ node ∈ live := fun node => by
    rw [Std.TreeMap.mem_iff_isSome_getElem?, getElem?_adjacencyOf]
    split_ifs with listed
    · exact ⟨fun _ => listed, fun _ => rfl⟩
    · exact ⟨fun absent => absurd absent Bool.false_ne_true, fun member => absurd member listed⟩
  have closed : Adjacency.Closed (adjacencyOf live links) :=
    fun node successors found successor member => by
      rw [getElem?_adjacencyOf] at found
      split_ifs at found
      obtain rfl := Option.some.inj found
      exact (known successor).mpr (of_decide_eq_true (List.mem_filter.mp member).2)
  have sound : Search.start.Sound (adjacencyOf live links) :=
    ⟨List.forall_mem_nil _, List.forall_mem_nil _, List.forall_mem_nil _⟩
  obtain ⟨after, ran⟩ := searchAll_some closed sound rfl fun node member => (known node).mpr member
  unfold cycleParticipants
  rw [ran]
  exact ⟨_, rfl⟩

end Semaprax.ArcZones
