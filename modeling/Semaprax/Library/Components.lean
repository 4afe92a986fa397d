/-
**Strongly connected components by one depth-first search.**

A search numbers the nodes as it meets them, keeps the nodes whose component is not known yet on a
stack, and with every node the least number on the stack that it is known to lead to.

* `Exploration` — the state of a search; `push`, `scan`, `lower`, `report`, `drop` and `close` — what it
  does.
* `Exploring` — the invariant; `Exploring.push` and the others — each operation keeps it.
* `Exploring.segment` — what is popped with a node whose least number is its own is one component.
* `Exploring.finished` — when no node is left on the path, none is left on the stack.
* `transGen_self_iff` — a node is on a cycle when it is linked to itself, or leads to another node and
  back.
-/

import Mathlib

namespace Library

open Relation

/-- A search: the nodes that are numbered, their numbers, the least numbers that they lead to, the
nodes whose component is open and those that are not left yet, latest first, and the edges that were
looked at. -/
structure Exploration (K : Type*) where
  visited : K → Prop
  num : K → ℕ
  low : K → ℕ
  stack : List K
  path : List K
  scanned : K → K → Prop

namespace Exploration

variable {K : Type*} [DecidableEq K]

def push (search : Exploration K) (node : K) (number : ℕ) : Exploration K where
  visited other := other = node ∨ search.visited other
  num := Function.update search.num node number
  low := Function.update search.low node number
  stack := node :: search.stack
  path := node :: search.path
  scanned := search.scanned

/-- Look at an edge. -/
def scan (search : Exploration K) (source target : K) : Exploration K :=
  { search with
    scanned := fun first second => first = source ∧ second = target ∨ search.scanned first second }

def lower (search : Exploration K) (node : K) (number : ℕ) : Exploration K :=
  { search with
    low := Function.update search.low node (min (search.low node) number) }

/-- Tell the node before the top of the path what the top leads to. -/
def report (search : Exploration K) : Exploration K :=
  match search.path with
  | node :: parent :: _ => search.lower parent (search.low node)
  | _ => search

/-- Leave a node; its component stays open. -/
def drop (search : Exploration K) : Exploration K :=
  { search with
    path := search.path.tail }

/-- Leave a node and close the component on top of some nodes. -/
def close (search : Exploration K) (below : List K) : Exploration K :=
  { search with
    path := search.path.tail
    stack := below }

variable (search : Exploration K)

@[simp]
theorem report_path : search.report.path = search.path := by
  unfold report
  split <;> rfl

@[simp]
theorem report_num : search.report.num = search.num := by
  unfold report
  split <;> rfl

@[simp]
theorem report_stack : search.report.stack = search.stack := by
  unfold report
  split <;> rfl

@[simp]
theorem report_scanned : search.report.scanned = search.scanned := by
  unfold report
  split <;> rfl

end Exploration

/-- The invariant of a search. -/
structure Exploring {K : Type*} (edge : K → K → Prop) (search : Exploration K) : Prop where
  visited : ∀ node ∈ search.stack, search.visited node
  descending : search.stack.Pairwise fun later earlier => search.num earlier < search.num later
  listed : search.path.Sublist search.stack
  edges : ∀ source target, search.scanned source target →
    edge source target ∧ search.visited source ∧ search.visited target
  left : ∀ source target, search.visited source → source ∉ search.path → edge source target →
    search.scanned source target
  closed : ∀ source target, search.visited source → source ∉ search.stack → edge source target →
    target ∉ search.stack
  leads : ∀ node ∈ search.path, ∀ other ∈ search.stack, search.num node ≤ search.num other →
    ReflTransGen edge node other
  rooted : ∀ node ∈ search.stack, ∃ root ∈ search.path, search.num root ≤ search.num node
  low_le : ∀ node ∈ search.stack, search.low node ≤ search.num node
  low_leads : ∀ node ∈ search.stack, ∃ other ∈ search.stack, search.num other = search.low node ∧
    ReflTransGen edge node other
  low_left : ∀ node ∈ search.stack, node ∉ search.path → search.low node < search.num node
  low_scanned : ∀ source ∈ search.stack, ∀ target ∈ search.stack, search.scanned source target →
    search.low source ≤ search.num target
  /-- The last node of the path before a node that is left knows what that node leads to. -/
  low_owner : ∀ owner ∈ search.path, ∀ node ∈ search.stack, node ∉ search.path →
    search.num owner < search.num node →
    (∀ other ∈ search.path, search.num other ≤ search.num owner ∨
      search.num node < search.num other) →
    search.low owner ≤ search.low node

namespace Exploring

variable {K : Type*} {edge : K → K → Prop} {search : Exploration K} {node other : K} {number : ℕ}
  {rest below front : List K}

theorem start (fresh : ∀ node, ¬search.visited node) (stack : search.stack = [])
    (path : search.path = []) (unscanned : ∀ source target, ¬search.scanned source target) :
    Exploring edge search := by
  have off : ∀ node, node ∉ search.stack := fun node member =>
    List.not_mem_nil (stack ▸ member)
  have away : ∀ node, node ∉ search.path := fun node member => List.not_mem_nil (path ▸ member)
  constructor
  · exact fun node member => absurd member (off node)
  · rw [stack]
    exact .nil
  · rw [path]
    exact List.nil_sublist _
  · exact fun source target scanned => absurd scanned (unscanned source target)
  · exact fun source _ known => absurd known (fresh source)
  · exact fun source _ known => absurd known (fresh source)
  · exact fun node member => absurd member (away node)
  · exact fun node member => absurd member (off node)
  · exact fun node member => absurd member (off node)
  · exact fun node member => absurd member (off node)
  · exact fun node member => absurd member (off node)
  · exact fun source member => absurd member (off source)
  · exact fun owner member => absurd member (away owner)

theorem nodup (exploring : Exploring edge search) : search.stack.Nodup :=
  exploring.descending.imp fun less same => by
    rw [same] at less
    exact less.false

theorem eq_of_num (exploring : Exploring edge search) (first : node ∈ search.stack)
    (second : other ∈ search.stack) (same : search.num node = search.num other) : node = other := by
  by_contra differ
  have apart : search.stack.Pairwise fun later earlier => search.num later ≠ search.num earlier :=
    exploring.descending.imp fun less => less.ne'
  have : Std.Symm fun later earlier => search.num later ≠ search.num earlier := ⟨fun _ _ => Ne.symm⟩
  exact apart.forall first second differ same

theorem closed_leads (exploring : Exploring edge search) (known : search.visited node)
    (off : node ∉ search.stack) (leads : ReflTransGen edge node other) :
    search.visited other ∧ other ∉ search.stack := by
  induction leads with
  | refl => exact ⟨known, off⟩
  | tail _ linked ih =>
    have passed := fun found => ih.2 (exploring.listed.subset found)
    exact ⟨(exploring.edges _ _ (exploring.left _ _ ih.1 passed linked)).2.2,
      exploring.closed _ _ ih.1 ih.2 linked⟩

variable [DecidableEq K]

theorem push (exploring : Exploring edge search) (fresh : ¬search.visited node)
    (larger : ∀ other ∈ search.stack, search.num other < number)
    (reached : ∀ other ∈ search.path, ReflTransGen edge other node) :
    Exploring edge (search.push node number) := by
  have apart : ∀ other ∈ search.stack, other ≠ node := fun other member same =>
    fresh (same ▸ exploring.visited other member)
  have onPath : ∀ other ∈ search.path, other ∈ search.stack := fun other member =>
    exploring.listed.subset member
  have num : ∀ other ∈ search.stack, (search.push node number).num other = search.num other :=
    fun other member => Function.update_of_ne (apart other member) ..
  have low : ∀ other ∈ search.stack, (search.push node number).low other = search.low other :=
    fun other member => Function.update_of_ne (apart other member) ..
  have numNew : (search.push node number).num node = number := Function.update_self ..
  have lowNew : (search.push node number).low node = number := Function.update_self ..
  have fits : ∀ other ∈ search.path, (search.push node number).num other < number :=
    fun other member => by
      rw [num other (onPath other member)]
      exact larger other (onPath other member)
  constructor
  · rintro other (_ | ⟨_, member⟩)
    · exact .inl rfl
    · exact .inr (exploring.visited other member)
  · refine .cons (fun other member => ?_) (exploring.descending.imp_of_mem ?_)
    · rw [num other member, numNew]
      exact larger other member
    · intro later earlier first second less
      rw [num later first, num earlier second]
      exact less
  · exact exploring.listed.cons_cons node
  · intro source target scanned
    obtain ⟨linked, known, knows⟩ := exploring.edges source target scanned
    exact ⟨linked, .inr known, .inr knows⟩
  · intro source target known absent linked
    obtain ⟨differs, absent⟩ := not_or.mp (mt List.mem_cons.mpr absent)
    exact exploring.left source target (known.resolve_left differs) absent linked
  · intro source target known absent linked member
    obtain ⟨differs, off⟩ := not_or.mp (mt List.mem_cons.mpr absent)
    have was := known.resolve_left differs
    rcases List.mem_cons.mp member with rfl | old
    · have passed : source ∉ search.path := fun member => off (onPath source member)
      exact fresh (exploring.edges _ _ (exploring.left _ _ was passed linked)).2.2
    · exact exploring.closed source target was off linked old
  · intro first onFirst second onSecond
    rcases List.mem_cons.mp onFirst with rfl | first_on <;>
      rcases List.mem_cons.mp onSecond with rfl | second_on
    · exact fun _ => .refl
    · rw [numNew, num second second_on]
      exact fun most => absurd (larger second second_on) (not_lt.mpr most)
    · exact fun _ => reached first first_on
    · rw [num first (onPath first first_on), num second second_on]
      exact exploring.leads first first_on second second_on
  · rintro other (_ | ⟨_, member⟩)
    · exact ⟨node, List.mem_cons_self, le_rfl⟩
    · obtain ⟨root, onRoot, most⟩ := exploring.rooted other member
      refine ⟨root, List.mem_cons_of_mem _ onRoot, ?_⟩
      rw [num root (onPath root onRoot), num other member]
      exact most
  · rintro other (_ | ⟨_, member⟩)
    · rw [lowNew, numNew]
    · rw [low other member, num other member]
      exact exploring.low_le other member
  · rintro other (_ | ⟨_, member⟩)
    · exact ⟨node, List.mem_cons_self, by rw [lowNew, numNew], .refl⟩
    · obtain ⟨least, onLeast, same, leads⟩ := exploring.low_leads other member
      refine ⟨least, List.mem_cons_of_mem _ onLeast, ?_, leads⟩
      rw [num least onLeast, low other member]
      exact same
  · rintro other (_ | ⟨_, member⟩) absent
    · exact absurd List.mem_cons_self absent
    · rw [low other member, num other member]
      exact exploring.low_left other member (List.not_mem_of_not_mem_cons absent)
  · intro source onSource target onTarget scanned
    obtain ⟨-, known, knows⟩ := exploring.edges source target scanned
    have onSource := (List.mem_cons.mp onSource).resolve_left fun same => fresh (same ▸ known)
    have onTarget := (List.mem_cons.mp onTarget).resolve_left fun same => fresh (same ▸ knows)
    rw [low source onSource, num target onTarget]
    exact exploring.low_scanned source onSource target onTarget scanned
  · intro owner onOwner other onOther absent before between
    obtain ⟨differs, off⟩ := not_or.mp (mt List.mem_cons.mpr absent)
    have other_on := (List.mem_cons.mp onOther).resolve_left differs
    rcases List.mem_cons.mp onOwner with rfl | owner_on
    · rw [numNew, num other other_on] at before
      exact absurd (larger other other_on) before.asymm
    · rw [num owner (onPath owner owner_on), num other other_on] at before
      rw [low owner (onPath owner owner_on), low other other_on]
      refine exploring.low_owner owner owner_on other other_on off before fun third onThird => ?_
      have apart := between third (List.mem_cons_of_mem _ onThird)
      rwa [num third (onPath third onThird), num owner (onPath owner owner_on),
        num other other_on] at apart

omit [DecidableEq K] in
/-- An edge to a numbered node is looked at; the number of a node on the stack is taken into account. -/
theorem scan (exploring : Exploring edge search) (linked : edge node other)
    (known : search.visited node) (knows : search.visited other)
    (counted : other ∈ search.stack → search.low node ≤ search.num other) :
    Exploring edge (search.scan node other) where
  visited := exploring.visited
  descending := exploring.descending
  listed := exploring.listed
  edges := by
    rintro source target (⟨rfl, rfl⟩ | scanned)
    · exact ⟨linked, known, knows⟩
    · exact exploring.edges source target scanned
  left := fun source target known absent linked =>
    .inr (exploring.left source target known absent linked)
  closed := exploring.closed
  leads := exploring.leads
  rooted := exploring.rooted
  low_le := exploring.low_le
  low_leads := exploring.low_leads
  low_left := exploring.low_left
  low_scanned := by
    rintro source onSource target onTarget (⟨rfl, rfl⟩ | scanned)
    · exact counted onTarget
    · exact exploring.low_scanned source onSource target onTarget scanned
  low_owner := exploring.low_owner

theorem lower (exploring : Exploring edge search) (onPath : node ∈ search.path)
    (onStack : other ∈ search.stack) (leads : ReflTransGen edge node other) :
    Exploring edge (search.lower node (search.num other)) := by
  have lowered : (search.lower node (search.num other)).low node =
      min (search.low node) (search.num other) := Function.update_self ..
  have low : ∀ third, third ≠ node →
      (search.lower node (search.num other)).low third = search.low third :=
    fun third differs => Function.update_of_ne differs ..
  have low_le : ∀ third, (search.lower node (search.num other)).low third ≤ search.low third :=
    fun third => by
      by_cases same : third = node
      · rw [same, lowered]
        exact min_le_left _ _
      · rw [low third same]
  refine ⟨exploring.visited, exploring.descending, exploring.listed, exploring.edges, exploring.left,
    exploring.closed, exploring.leads, exploring.rooted, ?_, ?_, ?_, ?_, ?_⟩
  · exact fun third member => (low_le third).trans (exploring.low_le third member)
  · intro third member
    by_cases same : third = node
    · subst same
      rw [lowered]
      rcases min_choice (search.low third) (search.num other) with least | least
      · rw [least]
        exact exploring.low_leads third member
      · rw [least]
        exact ⟨other, onStack, rfl, leads⟩
    · rw [low third same]
      exact exploring.low_leads third member
  · exact fun third member absent =>
      (low_le third).trans_lt (exploring.low_left third member absent)
  · exact fun source onSource target onTarget scanned =>
      (low_le source).trans (exploring.low_scanned source onSource target onTarget scanned)
  · intro owner onOwner third member absent before between
    have differs : third ≠ node := fun same => absent (same ▸ onPath)
    rw [low third differs]
    exact (low_le owner).trans
      (exploring.low_owner owner onOwner third member absent before between)

omit [DecidableEq K]

section Leaving

variable (exploring : Exploring edge search) (top : search.path = node :: rest)
  (all : ∀ target, edge node target → search.scanned node target)

include exploring top

theorem top_on : node ∈ search.path ∧ node ∈ search.stack := by
  have member : node ∈ search.path := top ▸ List.mem_cons_self
  exact ⟨member, exploring.listed.subset member⟩

/-- The top of the path has the largest number on it. -/
theorem rest_less : ∀ other ∈ rest, search.num other < search.num node := by
  have path := exploring.descending.sublist exploring.listed
  rw [top] at path
  exact (List.pairwise_cons.mp path).1

/-- The node before the top of the path is told what the top leads to. -/
theorem report [DecidableEq K] : Exploring edge search.report ∧
    search.report.low node = search.low node ∧
    ∀ parent ∈ rest, (∀ other ∈ rest, search.num other ≤ search.num parent) →
      search.report.low parent ≤ search.low node := by
  obtain ⟨onPath, onStack⟩ := exploring.top_on top
  unfold Exploration.report
  rw [top]
  cases rest with
  | nil => exact ⟨exploring, rfl, List.forall_mem_nil _⟩
  | cons before rest =>
    have less := exploring.rest_less top before List.mem_cons_self
    have member : before ∈ search.path := top ▸ List.mem_cons_of_mem _ List.mem_cons_self
    obtain ⟨least, onLeast, same, leads⟩ := exploring.low_leads node onStack
    have reaches := (exploring.leads before member node onStack less.le).trans leads
    have lowered := exploring.lower member onLeast reaches
    rw [same] at lowered
    refine ⟨lowered, Function.update_of_ne (fun equal => less.ne' (congrArg _ equal)) .., ?_⟩
    intro parent found last
    have here : parent ∈ search.path := top ▸ List.mem_cons_of_mem _ found
    have path := exploring.descending.sublist exploring.listed
    rw [top] at path
    have earlier : search.num parent ≤ search.num before := by
      rcases List.mem_cons.mp found with rfl | later
      · exact le_rfl
      · exact ((List.pairwise_cons.mp (List.pairwise_cons.mp path).2).1 parent later).le
    obtain rfl := exploring.eq_of_num (exploring.listed.subset here)
      (exploring.listed.subset member) (earlier.antisymm (last before List.mem_cons_self))
    show Function.update search.low parent _ parent ≤ _
    rw [Function.update_self]
    exact min_le_right _ _

include all

/-- A node that leads to an earlier one is left, when the node before it on the path knows that. -/
theorem drop (less : search.low node < search.num node)
    (knows : ∀ parent ∈ rest, (∀ other ∈ rest, search.num other ≤ search.num parent) →
      search.low parent ≤ search.low node) :
    Exploring edge search.drop := by
  obtain ⟨onPath, onStack⟩ := exploring.top_on top
  have rest_less := exploring.rest_less top
  have tail : search.drop.path = rest := congrArg List.tail top
  have below : rest ⊆ search.path := fun other member => top ▸ List.mem_cons_of_mem node member
  have parts : ∀ other, other ∉ rest → other = node ∨ other ∉ search.path := fun other absent => by
    rw [top, List.mem_cons, not_or]
    by_cases same : other = node
    · exact .inl same
    · exact .inr ⟨same, absent⟩
  -- What the node leads to is on the path before it.
  obtain ⟨least, onLeast, same, -⟩ := exploring.low_leads node onStack
  obtain ⟨root, onRoot, most⟩ := exploring.rooted least onLeast
  have early : search.num root < search.num node := most.trans_lt (same.trans_lt less)
  have root_rest : root ∈ rest := by
    rw [top] at onRoot
    rcases List.mem_cons.mp onRoot with rfl | member
    · exact absurd early (lt_irrefl _)
    · exact member
  refine ⟨exploring.visited, exploring.descending, ?_, exploring.edges, ?_, exploring.closed, ?_, ?_,
    exploring.low_le, exploring.low_leads, ?_, exploring.low_scanned, ?_⟩
  · exact (List.tail_sublist _).trans exploring.listed
  · rw [tail]
    intro source target known absent linked
    rcases parts source absent with rfl | absent
    · exact all target linked
    · exact exploring.left source target known absent linked
  · rw [tail]
    exact fun first member => exploring.leads first (below member)
  · rw [tail]
    intro other member
    obtain ⟨owner, onOwner, reaches⟩ := exploring.rooted other member
    rw [top] at onOwner
    rcases List.mem_cons.mp onOwner with rfl | onOwner
    · exact ⟨root, root_rest, (early.trans_le reaches).le⟩
    · exact ⟨owner, onOwner, reaches⟩
  · rw [tail]
    intro other member absent
    rcases parts other absent with rfl | absent
    · exact less
    · exact exploring.low_left other member absent
  · rw [tail]
    intro owner onOwner other member absent before between
    have owned := rest_less owner onOwner
    by_cases late : search.num node ≤ search.num other
    · -- The node was the owner, and is itself owned by the node before it on the path.
      have last : ∀ third ∈ rest, search.num third ≤ search.num owner := fun third onThird =>
        (between third onThird).resolve_right fun later =>
          (later.trans (rest_less third onThird)).not_ge late
      refine (knows owner onOwner last).trans ?_
      rcases parts other absent with rfl | off
      · exact le_rfl
      · have strict : search.num node < search.num other := late.lt_of_ne fun same =>
          off (exploring.eq_of_num onStack member same ▸ onPath)
        refine exploring.low_owner node onPath other member off strict fun third onThird => .inl ?_
        rw [top] at onThird
        rcases List.mem_cons.mp onThird with rfl | onThird
        · exact le_rfl
        · exact (rest_less third onThird).le
    · have off : other ∉ search.path := (parts other absent).resolve_left fun same =>
        late (same ▸ le_rfl)
      refine exploring.low_owner owner (below onOwner) other member off before fun third onThird => ?_
      rw [top] at onThird
      rcases List.mem_cons.mp onThird with rfl | onThird
      · exact .inr (not_le.mp late)
      · exact between third onThird

/-- A node on the stack, not before the top of the path, was looked at in full. -/
theorem late_scanned {target : K} (member : other ∈ search.stack)
    (late : search.num node ≤ search.num other) (linked : edge other target) :
    search.scanned other target := by
  by_cases onPath : other ∈ search.path
  · rw [top] at onPath
    rcases List.mem_cons.mp onPath with rfl | earlier
    · exact all target linked
    · exact absurd (exploring.rest_less top other earlier) (not_lt.mpr late)
  · exact exploring.left other target (exploring.visited other member) onPath linked

section Closing

variable (own : search.low node = search.num node)

include own

/-- The nodes on the stack after the top of the path lead to no number before its own. -/
theorem late_low (member : other ∈ search.stack) (late : search.num node ≤ search.num other) :
    search.num node ≤ search.low other := by
  obtain ⟨onPath, onStack⟩ := exploring.top_on top
  by_cases same : other = node
  · rw [same, own]
  · have strict : search.num node < search.num other := late.lt_of_ne fun equal =>
      same (exploring.eq_of_num onStack member equal).symm
    have off : other ∉ search.path := fun found => by
      rw [top] at found
      rcases List.mem_cons.mp found with equal | earlier
      · exact same equal
      · exact absurd (exploring.rest_less top other earlier) strict.asymm
    rw [← own]
    refine exploring.low_owner node onPath other member off strict fun third onThird => .inl ?_
    rw [top] at onThird
    rcases List.mem_cons.mp onThird with rfl | earlier
    · exact le_rfl
    · exact (exploring.rest_less top third earlier).le

theorem late_leads (member : other ∈ search.stack) (late : search.num node ≤ search.num other) :
    ReflTransGen edge other node := by
  obtain ⟨onPath, onStack⟩ := exploring.top_on top
  induction number : search.num other using Nat.strong_induction_on generalizing other with
  | _ number earlier =>
    subst number
    by_cases same : other = node
    · rw [same]
    · have off : other ∉ search.path := fun found => by
        rw [top] at found
        rcases List.mem_cons.mp found with equal | before
        · exact same equal
        · exact absurd (exploring.rest_less top other before) (not_lt.mpr late)
      obtain ⟨least, onLeast, low, leads⟩ := exploring.low_leads other member
      have less : search.num least < search.num other :=
        low.trans_lt (exploring.low_left other member off)
      have bounded : search.num node ≤ search.num least :=
        (exploring.late_low top all own member late).trans low.ge
      exact leads.trans (earlier (search.num least) less onLeast bounded rfl)

theorem late_closed {target : K} (member : other ∈ search.stack)
    (late : search.num node ≤ search.num other) (linked : edge other target)
    (onStack : target ∈ search.stack) : search.num node ≤ search.num target := by
  have scanned := exploring.late_scanned top all member late linked
  exact (exploring.late_low top all own member late).trans
    (exploring.low_scanned other member target onStack scanned)

variable (split : search.stack = front ++ node :: below)

include split

/-- The nodes that are popped are those after the top of the path. -/
theorem late_iff (member : other ∈ search.stack) :
    search.num node ≤ search.num other ↔ other ∉ below := by
  have descending := exploring.descending
  rw [split] at descending member
  obtain ⟨-, lower, upper⟩ := List.pairwise_append.mp descending
  rcases List.mem_append.mp member with before | after
  · have later := upper other before
    refine ⟨fun _ found => ?_, fun _ => (later node List.mem_cons_self).le⟩
    exact (later other (List.mem_cons_of_mem _ found)).false
  · have earlier := (List.pairwise_cons.mp lower).1
    rcases List.mem_cons.mp after with rfl | found
    · exact ⟨fun _ found => (earlier other found).false, fun _ => le_rfl⟩
    · exact ⟨fun late => absurd (earlier other found) (not_lt.mpr late),
        fun absent => absurd found absent⟩

/-- **What is popped with a node that leads to no earlier one is its component.** -/
theorem segment (member : other ∈ front ++ [node]) (target : K) :
    ReflTransGen edge other target ∧ ReflTransGen edge target other ↔ target ∈ front ++ [node] := by
  obtain ⟨onPath, onStack⟩ := exploring.top_on top
  have popped : ∀ third, third ∈ front ++ [node] ↔
      third ∈ search.stack ∧ search.num node ≤ search.num third := by
    intro third
    constructor
    · intro found
      have here : third ∈ search.stack := by
        rw [split, List.append_cons]
        exact List.mem_append_left _ found
      refine ⟨here, (exploring.late_iff top all own split here).mpr fun later => ?_⟩
      have distinct := exploring.nodup
      rw [split, List.append_cons] at distinct
      exact (List.nodup_append.mp distinct).2.2 third found third later rfl
    · rintro ⟨here, late⟩
      have absent := (exploring.late_iff top all own split here).mp late
      rw [split, List.append_cons] at here
      exact (List.mem_append.mp here).resolve_right absent
  have leads : ∀ third ∈ front ++ [node], ReflTransGen edge third node ∧
      ReflTransGen edge node third := fun third found => by
    obtain ⟨here, late⟩ := (popped third).mp found
    exact ⟨exploring.late_leads top all own here late, exploring.leads node onPath third here late⟩
  constructor
  · rintro ⟨there, back⟩
    -- What is reached stays among the popped nodes, or leaves the stack for good.
    have stays : ∀ third, ReflTransGen edge other third →
        third ∈ front ++ [node] ∨ search.visited third ∧ third ∉ search.stack := by
      intro third reached
      induction reached with
      | refl => exact .inl member
      | @tail before third _ linked ih =>
        rcases ih with found | ⟨known, off⟩
        · obtain ⟨here, late⟩ := (popped before).mp found
          by_cases on : third ∈ search.stack
          · exact .inl ((popped third).mpr
              ⟨on, exploring.late_closed top all own here late linked on⟩)
          · exact .inr ⟨(exploring.edges _ _
              (exploring.late_scanned top all here late linked)).2.2, on⟩
        · exact .inr (exploring.closed_leads known off (.single linked))
    refine (stays target there).resolve_right ?_
    rintro ⟨known, off⟩
    exact (exploring.closed_leads known off back).2 ((popped other).mp member).1
  · intro found
    exact ⟨(leads other member).1.trans (leads target found).2,
      (leads target found).1.trans (leads other member).2⟩

/-- A node that leads to no earlier one is left, and its component is closed. -/
theorem close : Exploring edge (search.close below) := by
  obtain ⟨onPath, onStack⟩ := exploring.top_on top
  have tail : (search.close below).path = rest := congrArg List.tail top
  have on : ∀ other ∈ below, other ∈ search.stack := fun other member => by
    rw [split]
    exact List.mem_append_right _ (List.mem_cons_of_mem _ member)
  have early : ∀ other ∈ below, search.num other < search.num node := fun other member =>
    not_le.mp fun late => (exploring.late_iff top all own split (on other member)).mp late member
  have remains : ∀ other ∈ search.stack, search.num other < search.num node → other ∈ below :=
    fun other member less => by
      by_contra absent
      exact less.not_ge ((exploring.late_iff top all own split member).mpr absent)
  have onRest : ∀ other ∈ rest, other ∈ search.path := fun other member =>
    top ▸ List.mem_cons_of_mem node member
  have passed : ∀ other ∈ below, other ∉ rest → other ∉ search.path := fun other member absent => by
    rw [top, List.mem_cons, not_or]
    exact ⟨fun same => (early other member).ne (congrArg search.num same), absent⟩
  refine ⟨?_, ?_, ?_, exploring.edges, ?_, ?_, ?_, ?_, ?_, ?_, ?_, ?_, ?_⟩
  · exact fun other member => exploring.visited other (on other member)
  · have descending := exploring.descending
    rw [split] at descending
    exact (List.pairwise_cons.mp (List.pairwise_append.mp descending).2.1).2
  · -- The rest of the path has smaller numbers than the node, so it lies below it.
    rw [tail]
    have listed := (List.sublist_cons_self node rest).trans (top ▸ exploring.listed)
    rw [split, List.append_cons] at listed
    obtain ⟨popped, kept, same, among, sublist⟩ := List.sublist_append_iff.mp listed
    have none : popped = [] := by
      refine List.eq_nil_iff_forall_not_mem.mpr fun other member => ?_
      have inRest : other ∈ rest := same ▸ List.mem_append_left _ member
      have less := exploring.rest_less top other inRest
      have found := remains other (exploring.listed.subset (onRest other inRest)) less
      have distinct := exploring.nodup
      rw [split, List.append_cons] at distinct
      exact (List.nodup_append.mp distinct).2.2 other (among.subset member) other found rfl
    rw [same, none]
    exact sublist
  · rw [tail]
    intro source target known absent linked
    by_cases same : source = node
    · rw [same] at linked ⊢
      exact all target linked
    · refine exploring.left source target known (fun found => ?_) linked
      rw [top] at found
      exact (List.mem_cons.mp found).elim same absent
  · intro source target known absent linked member
    by_cases onSource : source ∈ search.stack
    · have late := (exploring.late_iff top all own split onSource).mpr absent
      have later := exploring.late_closed top all own onSource late linked (on target member)
      exact later.not_gt (early target member)
    · exact exploring.closed source target known onSource linked (on target member)
  · rw [tail]
    exact fun first member second found =>
      exploring.leads first (onRest first member) second (on second found)
  · rw [tail]
    intro other member
    obtain ⟨root, onRoot, most⟩ := exploring.rooted other (on other member)
    rw [top] at onRoot
    rcases List.mem_cons.mp onRoot with rfl | onRoot
    · exact absurd most (not_le.mpr (early other member))
    · exact ⟨root, onRoot, most⟩
  · exact fun other member => exploring.low_le other (on other member)
  · intro other member
    obtain ⟨least, onLeast, same, leads⟩ := exploring.low_leads other (on other member)
    refine ⟨least, remains least onLeast ?_, same, leads⟩
    exact same.trans_lt ((exploring.low_le other (on other member)).trans_lt (early other member))
  · rw [tail]
    exact fun other member absent =>
      exploring.low_left other (on other member) (passed other member absent)
  · exact fun source onSource target onTarget scanned =>
      exploring.low_scanned source (on source onSource) target (on target onTarget) scanned
  · rw [tail]
    intro owner onOwner other member absent before between
    refine exploring.low_owner owner (onRest owner onOwner) other (on other member)
      (passed other member absent) before fun third onThird => ?_
    rw [top] at onThird
    rcases List.mem_cons.mp onThird with rfl | onThird
    · exact .inr (early other member)
    · exact between third onThird

end Closing

end Leaving

/-- When no node is left on the path, every component is closed. -/
theorem finished (exploring : Exploring edge search) (empty : search.path = []) :
    search.stack = [] := by
  refine List.eq_nil_iff_forall_not_mem.mpr fun node member => ?_
  obtain ⟨root, onRoot, -⟩ := exploring.rooted node member
  rw [empty] at onRoot
  exact List.not_mem_nil onRoot

end Exploring

/-- A node is on a cycle when it is linked to itself, or leads to another node and back. -/
theorem transGen_self_iff {K : Type*} {edge : K → K → Prop} {node : K} :
    TransGen edge node node ↔ edge node node ∨
      ∃ other, other ≠ node ∧ ReflTransGen edge node other ∧ ReflTransGen edge other node := by
  constructor
  · intro cycle
    obtain ⟨other, linked, back⟩ := TransGen.head'_iff.mp cycle
    by_cases same : other = node
    · exact .inl (same ▸ linked)
    · exact .inr ⟨other, same, .single linked, back⟩
  · rintro (linked | ⟨other, differs, there, back⟩)
    · exact .single linked
    · have goes : TransGen edge node other :=
        (reflTransGen_iff_eq_or_transGen.mp there).resolve_left differs
      exact goes.trans_left back

end Library
