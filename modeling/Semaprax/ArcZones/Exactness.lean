/-
**Cycles are rejected exactly** (`arc_zones.rs`, `cycle_participants` and `exit_zone`).

The search over the work list is the depth-first search for components: its tables, its stacks and the
slots that it has passed are the state of such a search, and each turn of its loop is one of the
operations on it.

* `Search.explored` — the search, as a search for components; `Search.Tracks` — the invariant.
* `Search.step_tracks` — a turn keeps the invariant; `searchAll_tracks` — so does the whole search.
* `OnCycle` — the objects on a cycle of the links between live objects.
* `mem_cycleParticipants` — the search finds these objects and no others.
* `cycles_rejected_exactly` — the exit of a zone is rejected exactly if one of its live objects is on a
  cycle, with the least of these as the witness, and then finalizes nothing.
-/

import Semaprax.Library.Components
import Semaprax.ArcZones.Demotion

namespace Semaprax.ArcZones

open Library Relation

variable {adjacency : Adjacency} {search after : Search} {node successor : DeclarationId}
  {slot : Nat} {work : List (DeclarationId × Nat)}

def Adjacency.Edge (adjacency : Adjacency) (source target : DeclarationId) : Prop :=
  target ∈ adjacency.getD source []

/-- The slots that the search has passed. -/
def Search.Scanned (adjacency : Adjacency) (search : Search) (source target : DeclarationId) : Prop :=
  source ∈ search.indexOf ∧ ∃ place, (adjacency.getD source [])[place]? = some target ∧
    ∀ slot, (source, slot) ∈ search.work → place < slot

def Search.explored (adjacency : Adjacency) (search : Search) : Exploration DeclarationId where
  visited node := node ∈ search.indexOf
  num node := search.indexOf.getD node 0
  low node := search.lowlink.getD node 0
  stack := search.component
  path := search.work.map Prod.fst
  scanned := search.Scanned adjacency

variable {index : Nat}

theorem getD_insert_update (map : BTreeMap DeclarationId Nat) (node : DeclarationId) (value : Nat) :
    (fun other => (map.insert node value).getD other 0) =
      Function.update (fun other => map.getD other 0) node value := by
  funext other
  rw [Std.TreeMap.getD_eq_getD_getElem?, BTreeMap.getElem?_insert_eq]
  by_cases same : other = node
  · rw [same, Function.update_self, if_pos rfl]
    rfl
  · rw [Function.update_of_ne same, if_neg (Ne.symm same), Std.TreeMap.getD_eq_getD_getElem?]

theorem Search.explored_visit (fresh : node ∉ search.indexOf) :
    (search.visit node).explored adjacency =
      (search.explored adjacency).push node search.nextIndex := by
  have visited : (fun other => other ∈ (search.visit node).indexOf) =
      fun other => other = node ∨ other ∈ search.indexOf := by
    funext other
    exact propext ((BTreeMap.mem_insert_iff ..).trans (or_congr_left eq_comm))
  have scanned : (search.visit node).Scanned adjacency = search.Scanned adjacency := by
    funext source target
    refine propext ⟨?_, ?_⟩
    · rintro ⟨known, place, found, passed⟩
      by_cases same : source = node
      · exact absurd (passed 0 (same ▸ List.mem_cons_self)) (Nat.not_lt_zero place)
      · refine ⟨((BTreeMap.mem_insert_iff ..).mp known).resolve_left (Ne.symm same), place, found,
          fun slot member => passed slot (List.mem_cons_of_mem _ member)⟩
    · rintro ⟨known, place, found, passed⟩
      refine ⟨(BTreeMap.mem_insert_iff ..).mpr (.inr known), place, found, fun slot member => ?_⟩
      rcases List.mem_cons.mp member with same | old
      · exact absurd ((Prod.mk.inj same).1 ▸ known) fresh
      · exact passed slot old
  unfold Search.explored Exploration.push
  rw [visited, scanned]
  congr 1
  · exact getD_insert_update _ _ _
  · exact getD_insert_update _ _ _

theorem Search.explored_lower (lowered : search.lower node index = some after) :
    after.explored adjacency = (search.explored adjacency).lower node index := by
  unfold Search.lower at lowered
  obtain ⟨low, found, rest⟩ := Option.bind_eq_some_iff.mp lowered
  obtain rfl := Option.some.inj rest
  have same : search.lowlink.getD node 0 = low := by
    rw [Std.TreeMap.getD_eq_getD_getElem?, found]
    rfl
  unfold Search.explored Exploration.lower
  congr 1
  rw [← same]
  exact getD_insert_update _ _ _

section Turns

variable (top : search.work = (node, slot) :: work) (alone : ∀ slot, (node, slot) ∉ work)

include top alone

theorem Search.explored_advance (known : node ∈ search.indexOf)
    (found : (adjacency.getD node [])[slot]? = some successor) :
    Search.explored adjacency { search with
      work := (node, slot + 1) :: work } = (search.explored adjacency).scan node successor := by
  have scanned : Search.Scanned adjacency { search with
      work := (node, slot + 1) :: work } = fun source target =>
        source = node ∧ target = successor ∨ search.Scanned adjacency source target := by
    funext source target
    refine propext ⟨?_, ?_⟩
    · rintro ⟨was, place, here, passed⟩
      by_cases same : source = node
      · subst same
        by_cases new : place = slot
        · subst new
          exact .inl ⟨rfl, Option.some.inj (here.symm.trans found)⟩
        · have before : place < slot + 1 := passed (slot + 1) List.mem_cons_self
          refine .inr ⟨was, place, here, fun other member => ?_⟩
          rw [top] at member
          rcases List.mem_cons.mp member with equal | old
          · rw [(Prod.mk.inj equal).2]
            omega
          · exact absurd old (alone other)
      · refine .inr ⟨was, place, here, fun other member => ?_⟩
        rw [top] at member
        rcases List.mem_cons.mp member with equal | old
        · exact absurd (Prod.mk.inj equal).1 same
        · exact passed other (List.mem_cons_of_mem _ old)
    · rintro (⟨rfl, rfl⟩ | ⟨was, place, here, passed⟩)
      · refine ⟨known, slot, found, fun other member => ?_⟩
        rcases List.mem_cons.mp member with equal | old
        · rw [(Prod.mk.inj equal).2]
          exact Nat.lt_succ_self slot
        · exact absurd old (alone other)
      · refine ⟨was, place, here, fun other member => ?_⟩
        rcases List.mem_cons.mp member with equal | old
        · obtain ⟨rfl, rfl⟩ := Prod.mk.inj equal
          exact Nat.lt_succ_of_lt (passed slot (top ▸ List.mem_cons_self))
        · exact passed other (top ▸ List.mem_cons_of_mem _ old)
  unfold Search.explored Exploration.scan
  rw [scanned, top]
  rfl

theorem Search.explored_left (passedAll : (adjacency.getD node []).length ≤ slot) :
    Search.explored adjacency { search with
      work := work } = (search.explored adjacency).drop := by
  have scanned : Search.Scanned adjacency { search with
      work := work } = search.Scanned adjacency := by
    funext source target
    refine propext ⟨?_, ?_⟩
    · rintro ⟨was, place, here, passed⟩
      refine ⟨was, place, here, fun other member => ?_⟩
      rw [top] at member
      rcases List.mem_cons.mp member with equal | old
      · obtain ⟨rfl, rfl⟩ := Prod.mk.inj equal
        exact (List.getElem?_eq_some_iff.mp here).1.trans_le passedAll
      · exact passed other old
    · rintro ⟨was, place, here, passed⟩
      exact ⟨was, place, here, fun other member => passed other (top ▸ List.mem_cons_of_mem _ member)⟩
  unfold Search.explored Exploration.drop
  rw [scanned, top]
  rfl

end Turns

def Adjacency.Joined (adjacency : Adjacency) (node : DeclarationId) : Prop :=
  ∃ other, other ≠ node ∧ ReflTransGen adjacency.Edge node other ∧
    ReflTransGen adjacency.Edge other node

/-- The search is one for components; it has collected the nodes of those that have more than one. -/
structure Search.Tracks (adjacency : Adjacency) (search : Search) : Prop where
  exploring : Exploring adjacency.Edge (search.explored adjacency)
  onStack : ∀ node, node ∈ search.onStack ↔ node ∈ search.component
  below : ∀ node ∈ search.component, search.indexOf.getD node 0 < search.nextIndex
  collected : ∀ node, node ∈ search.participants ↔
    (node ∈ search.indexOf ∧ node ∉ search.component) ∧ adjacency.Joined node

namespace Search.Tracks

theorem alone (tracks : search.Tracks adjacency) (top : search.work = (node, slot) :: work) :
    ∀ slot, (node, slot) ∉ work := by
  have distinct := tracks.exploring.nodup.sublist tracks.exploring.listed
  have path : (search.explored adjacency).path = node :: work.map Prod.fst := by
    show search.work.map Prod.fst = _
    rw [top]
    rfl
  rw [path] at distinct
  exact fun slot member => (List.nodup_cons.mp distinct).1 (List.mem_map_of_mem member)

theorem visit (tracks : search.Tracks adjacency) (fresh : node ∉ search.indexOf)
    (reached : ∀ other ∈ search.work.map Prod.fst, ReflTransGen adjacency.Edge other node) :
    (search.visit node).Tracks adjacency where
  exploring := by
    rw [Search.explored_visit fresh]
    exact tracks.exploring.push fresh tracks.below reached
  onStack := fun other => by
    show other ∈ search.onStack.insert node ↔ other ∈ node :: search.component
    rw [BTreeSet.mem_insert_iff, List.mem_cons, tracks.onStack, eq_comm]
  below := fun other member => by
    show (search.indexOf.insert node search.nextIndex).getD other 0 < search.nextIndex + 1
    rw [congrFun (getD_insert_update _ _ _) other]
    by_cases same : other = node
    · rw [same, Function.update_self]
      exact Nat.lt_succ_self _
    · rw [Function.update_of_ne same]
      exact Nat.lt_succ_of_lt (tracks.below other ((List.mem_cons.mp member).resolve_left same))
  collected := fun other => by
    show other ∈ search.participants ↔ (other ∈ search.indexOf.insert node search.nextIndex ∧
      other ∉ node :: search.component) ∧ _
    rw [tracks.collected, BTreeMap.mem_insert_iff, List.mem_cons, not_or]
    refine and_congr_left fun _ => ?_
    by_cases same : other = node
    · subst same
      exact ⟨fun known => absurd known.1 fresh, fun known => absurd rfl known.2.1⟩
    · simp [same, Ne.symm same]

end Search.Tracks

theorem popComponent_split {front below : List DeclarationId} (absent : node ∉ front) :
    popComponent node (front ++ node :: below) = (front ++ [node], below) := by
  induction front with
  | nil => simp [popComponent]
  | cons member front ih =>
    obtain ⟨differs, absent⟩ := not_or.mp (mt List.mem_cons.mpr absent)
    rw [List.cons_append, popComponent, if_neg (Ne.symm differs), ih absent]
    rfl

theorem mem_foldl_erase (members : List DeclarationId) (set : BTreeSet DeclarationId)
    (node : DeclarationId) :
    node ∈ members.foldl (fun set member => set.erase member) set ↔ node ∈ set ∧ node ∉ members := by
  induction members generalizing set with
  | nil => simp
  | cons member members ih =>
    rw [List.foldl_cons, ih, Std.TreeSet.mem_erase]
    simp only [ne_eq, Std.LawfulEqCmp.compare_eq_iff_eq, List.mem_cons, not_or]
    tauto

theorem mem_foldl_insert (members : List DeclarationId) (set : BTreeSet DeclarationId)
    (node : DeclarationId) :
    node ∈ members.foldl (fun set member => set.insert member) set ↔ node ∈ set ∨ node ∈ members := by
  induction members generalizing set with
  | nil => simp
  | cons member members ih =>
    rw [List.foldl_cons, ih, BTreeSet.mem_insert_iff, List.mem_cons]
    tauto

theorem Search.lower_lowlink (lowered : search.lower node index = some after) :
    ∃ lowlink, after = { search with
      lowlink := lowlink } := by
  unfold Search.lower at lowered
  obtain ⟨low, -, rest⟩ := Option.bind_eq_some_iff.mp lowered
  exact ⟨_, (Option.some.inj rest).symm⟩

theorem Search.explored_lowerParent (top : search.work = (node, slot) :: work)
    (alone : ∀ slot, (node, slot) ∉ work) (passedAll : (adjacency.getD node []).length ≤ slot)
    (lowered : Search.lowerParent { search with
      work := work } (search.lowlink.getD node 0) = some after) :
    after.explored adjacency = (search.explored adjacency).report.drop ∧
      ∃ lowlink, after = { search with
        work := work
        lowlink := lowlink } := by
  have left : Search.explored adjacency { search with
      work := work } = _ := Search.explored_left top alone passedAll
  have path : (search.explored adjacency).path = node :: work.map Prod.fst := by
    show search.work.map Prod.fst = _
    rw [top]
    rfl
  unfold Exploration.report
  rw [path]
  cases work with
  | nil =>
    obtain rfl := Option.some.inj lowered
    exact ⟨left, search.lowlink, rfl⟩
  | cons entry work =>
    have parent : Search.lower _ entry.1 (search.lowlink.getD node 0) = some after := lowered
    obtain ⟨lowlink, same⟩ := Search.lower_lowlink parent
    refine ⟨?_, lowlink, same⟩
    rw [Search.explored_lower parent, left]
    rfl

theorem one_lt_length_iff {members : List DeclarationId} (distinct : members.Nodup)
    (member : node ∈ members) : 1 < members.length ↔ ∃ other ∈ members, other ≠ node := by
  rw [← List.toFinset_card_of_nodup distinct, Finset.one_lt_card]
  constructor
  · rintro ⟨first, onFirst, second, onSecond, differ⟩
    by_cases same : first = node
    · exact ⟨second, List.mem_toFinset.mp onSecond, fun equal => differ (same.trans equal.symm)⟩
    · exact ⟨first, List.mem_toFinset.mp onFirst, same⟩
  · rintro ⟨other, onOther, differs⟩
    exact ⟨other, List.mem_toFinset.mpr onOther, node, List.mem_toFinset.mpr member, differs⟩

namespace Search.Tracks

theorem collect {front below : List DeclarationId} (tracks : search.Tracks adjacency)
    (split : search.component = front ++ node :: below)
    (segment : ∀ other ∈ front ++ [node], ∀ target,
      ReflTransGen adjacency.Edge other target ∧ ReflTransGen adjacency.Edge target other ↔
        target ∈ front ++ [node]) (other : DeclarationId) :
    other ∈ (if (front ++ [node]).length > 1 then
        (front ++ [node]).foldl (fun members member => members.insert member) search.participants
      else search.participants) ↔
      (other ∈ search.indexOf ∧ other ∉ below) ∧ adjacency.Joined other := by
  have split : search.component = (front ++ [node]) ++ below := by
    rw [split, List.append_cons]
  have distinct : ((front ++ [node]) ++ below).Nodup := split ▸ tracks.exploring.nodup
  obtain ⟨popped, -, apart⟩ := List.nodup_append.mp distinct
  by_cases member : other ∈ front ++ [node]
  · have onStack : other ∈ search.component := split ▸ List.mem_append_left _ member
    have known : other ∈ search.indexOf := tracks.exploring.visited other onStack
    have fresh : other ∉ search.participants := fun found =>
      ((tracks.collected other).mp found).1.2 onStack
    have joined : adjacency.Joined other ↔ 1 < (front ++ [node]).length := by
      rw [one_lt_length_iff popped member]
      unfold Adjacency.Joined
      refine exists_congr fun target => ?_
      rw [and_comm, segment other member target]
    have absent : other ∉ below := fun found => apart other member other found rfl
    rw [joined]
    split_ifs with several
    · rw [mem_foldl_insert]
      exact ⟨fun _ => ⟨⟨known, absent⟩, several⟩, fun _ => .inr member⟩
    · exact ⟨fun found => absurd found fresh, fun found => absurd found.2 several⟩
  · have same : other ∉ below ↔ other ∉ search.component := by
      rw [split, List.mem_append, not_or]
      exact (and_iff_right member).symm
    rw [same, ← tracks.collected other]
    split_ifs
    · rw [mem_foldl_insert]
      exact or_iff_left member
    · exact Iff.rfl

/-- A node whose slots are passed is left, and its component is closed where it leads to no earlier
node. -/
theorem leave (tracks : search.Tracks adjacency) (top : search.work = (node, slot) :: work)
    (passedAll : (adjacency.getD node []).length ≤ slot)
    (left : Search.leave { search with
      work := work } node = some after) : after.Tracks adjacency := by
  have alone := tracks.alone top
  have path : (search.explored adjacency).path = node :: work.map Prod.fst := by
    show search.work.map Prod.fst = _
    rw [top]
    rfl
  obtain ⟨onPath, onStack⟩ := tracks.exploring.top_on path
  have all : ∀ target, adjacency.Edge node target →
      (search.explored adjacency).scanned node target := fun target linked => by
    obtain ⟨place, room, found⟩ := List.mem_iff_getElem.mp linked
    refine ⟨tracks.exploring.visited node onStack, place,
      List.getElem?_eq_some_iff.mpr ⟨room, found⟩, fun other member => ?_⟩
    rw [top] at member
    rcases List.mem_cons.mp member with equal | old
    · rw [(Prod.mk.inj equal).2]
      exact room.trans_le passedAll
    · exact absurd old (alone other)
  unfold Search.leave at left
  obtain ⟨nodeLow, foundLow, left⟩ := Option.bind_eq_some_iff.mp left
  obtain ⟨between, lowered, left⟩ := Option.bind_eq_some_iff.mp left
  obtain ⟨index, foundIndex, left⟩ := Option.bind_eq_some_iff.mp left
  have low : search.lowlink.getD node 0 = nodeLow := by
    rw [Std.TreeMap.getD_eq_getD_getElem?]
    exact congrArg (Option.getD · 0) foundLow
  rw [← low] at lowered
  obtain ⟨explored, lowlink, rfl⟩ := Search.explored_lowerParent top alone passedAll lowered
  have num : search.indexOf.getD node 0 = index := by
    rw [Std.TreeMap.getD_eq_getD_getElem?]
    exact congrArg (Option.getD · 0) foundIndex
  obtain ⟨reported, sameLow, knows⟩ := tracks.exploring.report path
  have reportedPath : (search.explored adjacency).report.path = node :: work.map Prod.fst := by
    rw [Exploration.report_path, path]
  have reportedAll : ∀ target, adjacency.Edge node target →
      (search.explored adjacency).report.scanned node target := by
    rw [Exploration.report_scanned]
    exact all
  obtain rfl := Option.some.inj left
  split_ifs with own
  · have reportedOwn : (search.explored adjacency).report.low node =
        (search.explored adjacency).report.num node := by
      rw [sameLow, Exploration.report_num]
      exact low.trans (own.trans num.symm)
    obtain ⟨front, below, split, absent⟩ := List.eq_append_cons_of_mem onStack
    have popped : popComponent node search.component = (front ++ [node], below) :=
      (congrArg (popComponent node) split).trans (popComponent_split absent)
    have reportedSplit : (search.explored adjacency).report.stack = front ++ node :: below := by
      rw [Exploration.report_stack]
      exact split
    have distinct : ((front ++ [node]) ++ below).Nodup := by
      rw [← List.append_cons, ← split]
      exact tracks.exploring.nodup
    have segment := fun other (member : other ∈ front ++ [node]) =>
      reported.segment reportedPath reportedAll reportedOwn reportedSplit member
    refine ⟨?_, fun other => ?_, fun other member => ?_, fun other => ?_⟩
    · have closes := reported.close reportedPath reportedAll reportedOwn reportedSplit
      show Exploring adjacency.Edge { Search.explored adjacency { search with
        work := work
        lowlink := lowlink } with
          stack := (popComponent node search.component).2 }
      rw [explored, popped]
      exact closes
    · show other ∈ (popComponent node search.component).1.foldl (fun stack member =>
        stack.erase member) search.onStack ↔ other ∈ (popComponent node search.component).2
      rw [popped, mem_foldl_erase, tracks.onStack]
      have here : search.component = (front ++ [node]) ++ below := by
        rw [← List.append_cons]
        exact split
      rw [here, List.mem_append]
      constructor
      · exact fun found => found.1.resolve_left found.2
      · exact fun found => ⟨.inr found, fun member =>
          (List.nodup_append.mp distinct).2.2 other member other found rfl⟩
    · have member : other ∈ (popComponent node search.component).2 := member
      rw [popped] at member
      have here : other ∈ search.component := by
        have listed : search.component = front ++ node :: below := split
        rw [listed]
        exact List.mem_append_right _ (List.mem_cons_of_mem _ member)
      exact tracks.below other here
    · show other ∈ (if (popComponent node search.component).1.length > 1 then _
        else search.participants) ↔ (other ∈ search.indexOf ∧
          other ∉ (popComponent node search.component).2) ∧ _
      rw [popped]
      exact tracks.collect split segment other
  · have less : (search.explored adjacency).low node < (search.explored adjacency).num node := by
      refine (tracks.exploring.low_le node onStack).lt_of_ne fun same => own ?_
      exact low.symm.trans (same.trans num)
    refine ⟨?_, tracks.onStack, tracks.below, tracks.collected⟩
    rw [explored]
    refine reported.drop reportedPath reportedAll ?_ ?_
    · rw [sameLow, Exploration.report_num]
      exact less
    · rw [sameLow, Exploration.report_num]
      exact knows

/-- A turn of the loop keeps the invariant. -/
theorem step (tracks : search.Tracks adjacency) (top : search.work = (node, slot) :: work)
    (ran : search.step adjacency node slot work = some after) : after.Tracks adjacency := by
  have alone := tracks.alone top
  have path : (search.explored adjacency).path = node :: work.map Prod.fst := by
    show search.work.map Prod.fst = _
    rw [top]
    rfl
  obtain ⟨onPath, onStack⟩ := tracks.exploring.top_on path
  have known : node ∈ search.indexOf := tracks.exploring.visited node onStack
  unfold Search.step at ran
  obtain ⟨successors, found, ran⟩ := Option.bind_eq_some_iff.mp ran
  have listed : adjacency.getD node [] = successors := by
    rw [Std.TreeMap.getD_eq_getD_getElem?]
    exact congrArg (Option.getD · []) found
  cases next : successors[slot]? with
  | none =>
    rw [next] at ran
    exact tracks.leave top (listed ▸ List.getElem?_eq_none_iff.mp next) ran
  | some successor =>
    rw [next] at ran
    have here : (adjacency.getD node [])[slot]? = some successor := listed ▸ next
    have linked : adjacency.Edge node successor := List.mem_of_getElem? here
    have advanced := Search.explored_advance top alone known here
    dsimp only at ran
    cases numbered : search.indexOf[successor]? with
    | none =>
      rw [numbered] at ran
      obtain rfl := Option.some.inj ran
      -- The edge is looked at after its target is numbered.
      have fresh : successor ∉ search.indexOf := by
        rw [Std.TreeMap.mem_iff_isSome_getElem?, numbered]
        exact Bool.false_ne_true
      have reached : ∀ other ∈ search.work.map Prod.fst,
          ReflTransGen adjacency.Edge other successor := fun other member => by
        refine ReflTransGen.tail (tracks.exploring.leads other member node onStack ?_) linked
        have inPath : other ∈ (search.explored adjacency).path := member
        rw [path] at inPath
        rcases List.mem_cons.mp inPath with rfl | earlier
        · exact le_rfl
        · exact (tracks.exploring.rest_less path other earlier).le
      have visited := tracks.visit fresh reached
      refine ⟨?_, visited.onStack, visited.below, visited.collected⟩
      rw [Search.explored_visit (by exact fresh), advanced]
      have exploring := visited.exploring
      rw [Search.explored_visit fresh] at exploring
      refine exploring.scan linked (.inr known) (.inl rfl) fun _ => ?_
      have differs : node ≠ successor := fun same => fresh (same ▸ known)
      have low : ((search.explored adjacency).push successor search.nextIndex).low node = _ :=
        Function.update_of_ne differs ..
      have num : ((search.explored adjacency).push successor search.nextIndex).num successor =
        search.nextIndex := Function.update_self ..
      rw [low, num]
      exact (tracks.exploring.low_le node onStack).trans (tracks.below node onStack).le
    | some index =>
      rw [numbered] at ran
      dsimp only at ran
      have knows : successor ∈ search.indexOf := by
        rw [Std.TreeMap.mem_iff_isSome_getElem?, numbered]
        rfl
      have num : search.indexOf.getD successor 0 = index := by
        rw [Std.TreeMap.getD_eq_getD_getElem?]
        exact congrArg (Option.getD · 0) numbered
      split_ifs at ran with isOpen
      · obtain ⟨lowlink, same⟩ := Search.lower_lowlink ran
        have explored : after.explored adjacency = _ := Search.explored_lower ran
        have onOpen : successor ∈ search.component := (tracks.onStack successor).mp isOpen
        have lowered := tracks.exploring.lower onPath onOpen (.single linked)
        have scanned : Exploring adjacency.Edge
            (((search.explored adjacency).lower node index).scan node successor) := by
          rw [← num]
          refine lowered.scan linked known knows fun _ => ?_
          exact (Function.update_self ..).trans_le (min_le_right _ _)
        rw [same] at explored ⊢
        refine ⟨?_, tracks.onStack, tracks.below, tracks.collected⟩
        rw [explored, advanced]
        exact scanned
      · obtain rfl := Option.some.inj ran
        refine ⟨?_, tracks.onStack, tracks.below, tracks.collected⟩
        rw [advanced]
        refine tracks.exploring.scan linked known knows fun member => ?_
        exact absurd ((tracks.onStack successor).mpr member) isOpen

theorem start : Search.start.Tracks adjacency where
  exploring := .start (fun _ => Std.TreeMap.not_mem_emptyc) rfl rfl
    fun _ _ scanned => Std.TreeMap.not_mem_emptyc scanned.1
  onStack := fun node => by
    refine iff_of_false Std.TreeSet.not_mem_emptyc List.not_mem_nil
  below := List.forall_mem_nil _
  collected := fun node => by
    refine iff_of_false Std.TreeSet.not_mem_emptyc fun found => ?_
    exact Std.TreeMap.not_mem_emptyc found.1.1

end Search.Tracks

theorem Search.step_known {other : DeclarationId}
    (ran : search.step adjacency node slot work = some after) (known : other ∈ search.indexOf) :
    other ∈ after.indexOf := by
  unfold Search.step at ran
  obtain ⟨successors, -, ran⟩ := Option.bind_eq_some_iff.mp ran
  cases next : successors[slot]? with
  | none =>
    rw [next] at ran
    unfold Search.leave at ran
    obtain ⟨_, -, ran⟩ := Option.bind_eq_some_iff.mp ran
    obtain ⟨between, lowered, ran⟩ := Option.bind_eq_some_iff.mp ran
    obtain ⟨_, -, ran⟩ := Option.bind_eq_some_iff.mp ran
    obtain rfl := Option.some.inj ran
    have same : between.indexOf = search.indexOf := by
      unfold Search.lowerParent at lowered
      cases work with
      | nil =>
        obtain rfl := Option.some.inj lowered
        rfl
      | cons entry work =>
        obtain ⟨_, rfl⟩ := Search.lower_lowlink lowered
        rfl
    split_ifs
    · exact same ▸ known
    · exact same ▸ known
  | some successor =>
    rw [next] at ran
    dsimp only at ran
    cases numbered : search.indexOf[successor]? with
    | none =>
      rw [numbered] at ran
      obtain rfl := Option.some.inj ran
      exact (BTreeMap.mem_insert_iff ..).mpr (.inr known)
    | some index =>
      rw [numbered] at ran
      dsimp only at ran
      split_ifs at ran
      · obtain ⟨_, rfl⟩ := Search.lower_lowlink ran
        exact known
      · obtain rfl := Option.some.inj ran
        exact known

theorem searchFrom_tracks {fuel : Nat} (tracks : search.Tracks adjacency)
    (ran : searchFrom adjacency fuel search = some after) :
    after.Tracks adjacency ∧ after.work = [] ∧
      ∀ other, other ∈ search.indexOf → other ∈ after.indexOf := by
  induction fuel generalizing search with
  | zero =>
    unfold searchFrom at ran
    cases top : search.work with
    | nil =>
      rw [top] at ran
      obtain rfl := Option.some.inj ran
      exact ⟨tracks, top, fun _ known => known⟩
    | cons entry work =>
      rw [top] at ran
      cases ran
  | succ fuel ih =>
    unfold searchFrom at ran
    cases top : search.work with
    | nil =>
      rw [top] at ran
      obtain rfl := Option.some.inj ran
      exact ⟨tracks, top, fun _ known => known⟩
    | cons entry work =>
      rw [top] at ran
      obtain ⟨between, turned, ran⟩ := Option.bind_eq_some_iff.mp ran
      obtain ⟨tracks', empty, known⟩ := ih (tracks.step top turned) ran
      exact ⟨tracks', empty, fun other was => known other (Search.step_known turned was)⟩

theorem searchAll_tracks {nodes : List DeclarationId} (tracks : search.Tracks adjacency)
    (empty : search.work = []) (ran : searchAll adjacency nodes search = some after) :
    after.Tracks adjacency ∧ after.work = [] ∧
      ∀ other, other ∈ nodes ∨ other ∈ search.indexOf → other ∈ after.indexOf := by
  induction nodes generalizing search with
  | nil =>
    obtain rfl := Option.some.inj ran
    exact ⟨tracks, empty, fun other known => known.resolve_left List.not_mem_nil⟩
  | cons node nodes ih =>
    have middle : ∃ between, searchAll adjacency nodes between = some after ∧
        between.Tracks adjacency ∧ between.work = [] ∧ node ∈ between.indexOf ∧
        ∀ other, other ∈ search.indexOf → other ∈ between.indexOf := by
      unfold searchAll at ran
      split_ifs at ran with numbered
      · exact ⟨search, ran, tracks, empty, numbered, fun _ known => known⟩
      · obtain ⟨between, turned, ran⟩ := Option.bind_eq_some_iff.mp ran
        have visited := tracks.visit numbered fun other member => by
          rw [empty] at member
          cases member
        obtain ⟨tracks', empty', known⟩ := searchFrom_tracks visited turned
        exact ⟨between, ran, tracks', empty',
          known node ((BTreeMap.mem_insert_iff ..).mpr (.inl rfl)),
          fun other was => known other ((BTreeMap.mem_insert_iff ..).mpr (.inr was))⟩
    obtain ⟨between, ran, tracks', empty', here, known⟩ := middle
    obtain ⟨final, done, all⟩ := ih tracks' empty' ran
    refine ⟨final, done, fun other among => all other ?_⟩
    rcases among with listed | was
    · rcases List.mem_cons.mp listed with rfl | later
      · exact .inr here
      · exact .inl later
    · exact .inr (known other was)

def LinkedWithin (live : List DeclarationId) (links : Links DeclarationId)
    (source target : DeclarationId) : Prop :=
  source ∈ live ∧ target ∈ live ∧ target ∈ targetsOf links source

def OnCycle (live : List DeclarationId) (links : Links DeclarationId) (object : DeclarationId) : Prop :=
  TransGen (LinkedWithin live links) object object

theorem OnCycle.member {live : List DeclarationId} {links : Links DeclarationId}
    {object : DeclarationId} (cycle : OnCycle live links object) : object ∈ live := by
  obtain ⟨next, linked, -⟩ := TransGen.head'_iff.mp cycle
  exact linked.1

section Participants

variable {live : List DeclarationId} {links : Links DeclarationId} {isLive : DeclarationId → Bool}

theorem edge_adjacencyOf : (adjacencyOf live links).Edge = LinkedWithin live links := by
  funext source target
  unfold Adjacency.Edge LinkedWithin
  rw [Std.TreeMap.getD_eq_getD_getElem?, getElem?_adjacencyOf]
  refine propext ?_
  split_ifs with listed
  · simp [listed, and_comm]
  · simp [listed]

theorem mem_foldl_looped (looped : DeclarationId → Prop) [DecidablePred looped]
    (members : List DeclarationId) (set : BTreeSet DeclarationId) (node : DeclarationId) :
    node ∈ members.foldl (fun set member => if looped member then set.insert member else set) set ↔
      node ∈ set ∨ node ∈ members ∧ looped node := by
  induction members generalizing set with
  | nil => simp
  | cons member members ih =>
    rw [List.foldl_cons, ih, List.mem_cons]
    split_ifs with loops
    · rw [BTreeSet.mem_insert_iff]
      constructor
      · rintro ((rfl | old) | found)
        · exact .inr ⟨.inl rfl, loops⟩
        · exact .inl old
        · exact .inr ⟨.inr found.1, found.2⟩
      · rintro (old | ⟨rfl | found, loop⟩)
        · exact .inl (.inr old)
        · exact .inl (.inl rfl)
        · exact .inr ⟨found, loop⟩
    · refine or_congr_right (and_congr_left fun loop => ?_)
      exact (or_iff_right fun same : node = member => loops (same ▸ loop)).symm

theorem mem_cycleParticipants {participants : BTreeSet DeclarationId}
    (alive : ∀ object ∈ live, isLive object)
    (ran : cycleParticipants live links isLive = some participants) (object : DeclarationId) :
    object ∈ participants ↔ OnCycle live links object := by
  unfold cycleParticipants at ran
  obtain ⟨search, searched, ran⟩ := Option.bind_eq_some_iff.mp ran
  obtain rfl := Option.some.inj ran
  obtain ⟨tracks, empty, known⟩ := searchAll_tracks .start rfl searched
  have closed : search.component = [] := tracks.exploring.finished (by
    show search.work.map Prod.fst = []
    rw [empty]
    rfl)
  rw [mem_foldl_looped, tracks.collected, closed]
  unfold OnCycle
  rw [transGen_self_iff, ← edge_adjacencyOf, or_comm]
  refine or_congr ?_ ?_
  · rw [edge_adjacencyOf]
    constructor
    · exact fun ⟨listed, _, linked⟩ => ⟨listed, listed, linked⟩
    · exact fun ⟨listed, _, linked⟩ => ⟨listed, alive object listed, linked⟩
  · refine ⟨fun joined => joined.2, fun joined => ⟨⟨?_, List.not_mem_nil⟩, joined⟩⟩
    obtain ⟨other, differs, there, -⟩ := joined
    obtain same | ⟨next, linked, -⟩ := ReflTransGen.cases_head there
    · exact absurd same.symm differs
    · rw [edge_adjacencyOf] at linked
      exact known object (.inl linked.1)

end Participants

section Exit

variable {model : ArcZonesModel} {run after : ArcZonesRun} {calls : List Finalization}
  {object zone : DeclarationId}

theorem finalize_status {fuel : Nat} {cause : FinalizeCause}
    (ran : finalize fuel cause run object = .ok (after, calls)) : after.status = run.status := by
  induction fuel generalizing run object after calls cause with
  | zero => cases ran
  | succ fuel ih =>
    unfold finalize at ran
    split_ifs at ran
    obtain ⟨inDegree, -, ran⟩ := bind_eq_ok.mp ran
    obtain ⟨⟨last, more⟩, rest, ran⟩ := bind_eq_ok.mp ran
    cases ran
    have same : last.status = (run.mark object inDegree).status :=
      sweep_related (fun run after => after.status = run.status) (fun _ => rfl)
        (fun first second => second.trans first) (fun _ _ _ _ one => ih one) rest
    exact same

/-- What the exit of the innermost zone does: it finds the objects on a cycle, and is rejected with the
least of them if there is one. -/
theorem exitZone_cases (known : zone ∈ model.zones) (innermost : run.openZones.head? = some zone) :
    (∃ witness, IsLeast {object | OnCycle (liveHere model run zone) run.liveLinks object} witness ∧
      exitZone model run zone = .ok (ArcZonesRun.record { run with
        status := .rejected
        rejectedWitness := some witness
        totals := { run.totals with
          zonesRejected := run.totals.zonesRejected + 1 } }
        [.zoneRejectedCycle zone witness] [])) ∨
    (∀ object, ¬OnCycle (liveHere model run zone) run.liveLinks object) ∧
      ∀ applied, exitZone model run zone = .ok applied → run.status = .running →
        applied.run.status ≠ .rejected := by
  obtain ⟨participants, searched⟩ :=
    cycleParticipants_some (liveHere model run zone) run.liveLinks run.isLive
  have alive : ∀ object ∈ liveHere model run zone, run.isLive object := fun object member =>
    isLive_iff.mpr (mem_liveHere.mp member).1
  have cyclic : ∀ object, object ∈ ((liveHere model run zone).filter fun id => id ∈ participants) ↔
      OnCycle (liveHere model run zone) run.liveLinks object := fun object => by
    rw [List.mem_filter, decide_eq_true_iff, mem_cycleParticipants alive searched]
    exact and_iff_right_of_imp OnCycle.member
  have declared : refuseOpIf (zone ∉ model.zones) .unknownZone = .ok () :=
    if_neg (not_not.mpr known)
  have balanced : refuseOpIf (run.openZones.head? ≠ some zone ∧ zone ∈ run.openZones)
      .unbalancedZoneExit = .ok () := if_neg fun refused => refused.1 innermost
  have isOpen : refuseOpIf (run.openZones.head? ≠ some zone) .zoneNotOpen = .ok () :=
    if_neg (not_not.mpr innermost)
  cases least : ((liveHere model run zone).filter fun id => id ∈ participants).min? with
  | some witness =>
    obtain ⟨member, below⟩ := List.min?_eq_some_iff.mp least
    refine .inl ⟨witness, ⟨(cyclic witness).mp member, fun object cycle =>
      below object ((cyclic object).mpr cycle)⟩, ?_⟩
    refine bind_eq_ok.mpr ⟨(), declared, bind_eq_ok.mpr ⟨(), balanced, bind_eq_ok.mpr ⟨(), isOpen,
      bind_eq_ok.mpr ⟨participants, congrArg expect searched, ?_⟩⟩⟩⟩
    rw [least]
    rfl
  | none =>
    have nothing := List.min?_eq_none_iff.mp least
    refine .inr ⟨fun object cycle => ?_, fun applied exited running rejected => ?_⟩
    · have member := (cyclic object).mpr cycle
      rw [nothing] at member
      exact List.not_mem_nil member
    · obtain ⟨-, -, exited⟩ := bind_eq_ok.mp exited
      obtain ⟨-, -, exited⟩ := bind_eq_ok.mp exited
      obtain ⟨-, -, exited⟩ := bind_eq_ok.mp exited
      obtain ⟨found, same, exited⟩ := bind_eq_ok.mp exited
      rw [searched] at same
      obtain rfl := Except.ok.inj same
      rw [least] at exited
      obtain ⟨draining, -, exited⟩ := bind_eq_ok.mp exited
      obtain ⟨⟨drained, calls⟩, swept, exited⟩ := bind_eq_ok.mp exited
      obtain rfl := Except.ok.inj exited
      have same := sweep_related (fun run after => after.status = run.status) (fun _ => rfl)
        (fun first second => second.trans first) (fun _ _ _ _ one => finalize_status one) swept
      have ended : (if drained.openZones.tail.isEmpty then RunStatus.complete
        else drained.status) = .rejected := rejected
      rw [same, running] at ended
      split_ifs at ended

/-- An exit that is rejected with the least object on a cycle, and finalizes nothing. -/
structure RejectedExit (model : ArcZonesModel) (run : ArcZonesRun) (zone : DeclarationId)
    (applied : Applied) : Prop where
  least : ∃ witness,
    IsLeast {object | object ∈ liveHere model run zone ∧
      OnCycle (liveHere model run zone) run.liveLinks object} witness ∧
    applied.run.rejectedWitness = some witness ∧
    applied.batch = [.zoneRejectedCycle zone witness]
  calls : applied.calls = []
  phases : applied.run.phases = run.phases

end Exit

/-- **Cycles are rejected exactly.** The search finds the live objects on a cycle of the links between
live objects and no others. In every state that a script of an accepted model reaches, the exit of the
innermost zone is rejected exactly if a live object of the zone is on such a cycle. -/
theorem cycles_rejected_exactly :
    (∀ (live : List DeclarationId) (links : Links DeclarationId) (isLive : DeclarationId → Bool),
      (∀ object ∈ live, isLive object) → ∃ participants,
        cycleParticipants live links isLive = some participants ∧
          ∀ object, object ∈ participants ↔ OnCycle live links object) ∧
    ∀ (zones : List ZoneSpec) (objects : List ObjectSpec) (model : ArcZonesModel)
      (script : List Op) (run : ArcZonesRun) (zone : DeclarationId),
      ArcZonesModel.tryNew zones objects = .ok model →
      Reaches (· = prepareRun script) (Steps model) run → run.status = .running →
      run.openZones.head? = some zone →
        ((∃ applied, exitZone model run zone = .ok applied ∧ applied.run.status = .rejected) ↔
          ∃ object ∈ liveHere model run zone,
            OnCycle (liveHere model run zone) run.liveLinks object) ∧
        ∀ applied, exitZone model run zone = .ok applied → applied.run.status = .rejected →
          RejectedExit model run zone applied := by
  constructor
  · intro live links isLive alive
    obtain ⟨participants, searched⟩ := cycleParticipants_some live links isLive
    exact ⟨participants, searched, mem_cycleParticipants alive searched⟩
  · intro zones objects model script run zone accepted reached running innermost
    have accounted := reached_accounted accepted reached
    have known := accounted.zones zone (List.mem_of_head? innermost)
    rcases exitZone_cases known innermost with ⟨witness, ⟨cycle, below⟩, exits⟩ | ⟨acyclic, stays⟩
    · refine ⟨⟨fun _ => ⟨witness, cycle.member, cycle⟩, fun _ => ⟨_, exits, rfl⟩⟩, ?_⟩
      intro applied exited _
      rw [exits] at exited
      obtain rfl := Except.ok.inj exited
      exact ⟨⟨witness, ⟨⟨cycle.member, cycle⟩, fun object found => below found.2⟩, rfl, rfl⟩, rfl, rfl⟩
    · refine ⟨⟨?_, ?_⟩, fun applied exited rejected => ?_⟩
      · rintro ⟨applied, exited, rejected⟩
        exact absurd rejected (stays applied exited running)
      · rintro ⟨object, -, cycle⟩
        exact absurd cycle (acyclic object)
      · exact absurd rejected (stays applied exited running)

/-- Two objects that link to each other. -/
def knottedScript : List Op :=
  [.enterZone "root", .construct "a", .construct "b", .link "a" "b", .link "b" "a"]

theorem cycles_rejected_knotted :
    (∃ participants, cycleParticipants ["a"] ∅ (fun _ => true) = some participants ∧
      ∀ object, object ∈ participants ↔ OnCycle ["a"] ∅ object) ∧
    ∃ model run, ArcZonesModel.tryNew smallZones smallObjects = .ok model ∧
      run.openZones.head? = some "root" ∧
      ((∃ applied, exitZone model run "root" = .ok applied ∧ applied.run.status = .rejected) ↔
        ∃ object ∈ liveHere model run "root",
          OnCycle (liveHere model run "root") run.liveLinks object) ∧
      ∃ applied, exitZone model run "root" = .ok applied ∧ RejectedExit model run "root" applied := by
  refine ⟨cycles_rejected_exactly.1 ["a"] ∅ (fun _ => true) fun _ _ => rfl, ?_⟩
  have exits : ((ArcZonesModel.tryNew smallZones smallObjects).toOption.bind fun model =>
      ((prepareRun knottedScript).steps model 5).toOption.bind fun run =>
        (exitZone model run "root").toOption.map fun applied =>
          (run.openZones.head?, run.status, applied.run.status)) =
      some (some "root", .running, .rejected) := by decide +kernel
  obtain ⟨model, built, ran⟩ := Option.bind_eq_some_iff.mp exits
  obtain ⟨run, steps, ended⟩ := Option.bind_eq_some_iff.mp ran
  obtain ⟨applied, exited, same⟩ := Option.map_eq_some_iff.mp ended
  obtain ⟨innermost, running, rejected⟩ : run.openZones.head? = some "root" ∧
      run.status = .running ∧ applied.run.status = .rejected := by simpa using same
  have builds := toOption_eq_some.mp built
  have reached : Reaches (· = prepareRun knottedScript) (Steps model) run :=
    steps_reaches (toOption_eq_some.mp steps) (Reaches.base rfl)
  obtain ⟨exactly, rejects⟩ := cycles_rejected_exactly.2 smallZones smallObjects model knottedScript
    run "root" builds reached running innermost
  have exits := toOption_eq_some.mp exited
  exact ⟨model, run, builds, innermost, exactly, applied, exits, rejects applied exits rejected⟩

end Semaprax.ArcZones
