/-
**Depth-first walks.**

A walk visits the children of a node before it finishes the node, and passes over the nodes that are
finished. It keeps no budget: `Meeting` records how deep, and after how many finished nodes, a node is
met for the first time.

* `Layered` — a list in which the children of a node stand before it; it has no cycle.
* `Walk` — the walk as a relation; `Walk.layered`, `Walk.nodup` — what it leaves is layered, and has
  every node once.
* `Walk.exists_of_bounded` — there is a walk wherever the chains of children are bounded.
-/

import Semaprax.Library.Reachability

namespace Library

variable {V : Type*}

/-- The children of a node are its successors. -/
def Follows (next : V → List V) (v w : V) : Prop := w ∈ next v

/-- A node is met for the first time. -/
structure Meeting (V : Type*) where
  node : V
  depth : Nat
  finished : Nat

/-- Visit nodes at a depth, from the nodes that are finished to those that are finished after it. -/
inductive Walk (next : V → List V) : Nat → List V → List V → List V → List (Meeting V) → Prop
  | done (depth : Nat) (finished : List V) : Walk next depth finished [] finished []
  | again {depth : Nat} {finished after : List V} {v : V} {vs : List V} {meetings : List (Meeting V)}
      (known : v ∈ finished) (rest : Walk next depth finished vs after meetings) :
      Walk next depth finished (v :: vs) after meetings
  | first {depth : Nat} {finished middle after : List V} {v : V} {vs : List V}
      {inner outer : List (Meeting V)} (fresh : v ∉ finished)
      (below : Walk next (depth + 1) finished (next v) middle inner)
      (rest : Walk next depth (middle ++ [v]) vs after outer) :
      Walk next depth finished (v :: vs) after (⟨v, depth, finished.length⟩ :: inner ++ outer)

section Layered

variable (next : V → List V)

/-- The children of every node of the list stand before it. -/
inductive Layered : List V → Prop
  | nil : Layered []
  | concat {l : List V} {v : V} (layered : Layered l) (children : ∀ w ∈ next v, w ∈ l) :
      Layered (l ++ [v])

variable {next} {l : List V}

theorem Layered.closed (layered : Layered next l) {v w : V} (member : v ∈ l) (child : w ∈ next v) :
    w ∈ l := by
  induction layered with
  | nil => cases member
  | concat _ children ih =>
    rcases List.mem_append.mp member with inside | last
    · exact List.mem_append_left _ (ih inside)
    · rw [List.mem_singleton.mp last] at child
      exact List.mem_append_left _ (children _ child)

theorem Layered.closed_reflTransGen (layered : Layered next l) {v w : V} (member : v ∈ l)
    (path : Relation.ReflTransGen (Follows next) v w) : w ∈ l := by
  induction path with
  | refl => exact member
  | tail _ child ih => exact layered.closed ih child

/-- A node of a layered list is on no cycle. -/
theorem Layered.acyclic (layered : Layered next l) {v : V} (member : v ∈ l) :
    ¬ Relation.TransGen (Follows next) v v := by
  intro cycle
  induction layered with
  | nil => cases member
  | @concat l u layered children ih =>
    by_cases inside : v ∈ l
    · exact ih inside
    · obtain rfl : v = u :=
        List.mem_singleton.mp ((List.mem_append.mp member).resolve_left inside)
      obtain ⟨w, child, back⟩ := Relation.TransGen.head'_iff.mp cycle
      exact inside (layered.closed_reflTransGen (children w child) back)

/-- The children of a node stand before it wherever the list is parted at it. -/
theorem Layered.before (layered : Layered next l) (nodup : l.Nodup) :
    ∀ {front back : List V} {v : V}, l = front ++ v :: back → ∀ w ∈ next v, w ∈ front := by
  induction layered with
  | nil =>
    intro front back v parted
    simp at parted
  | @concat l u layered children ih =>
    intro front back v parted w child
    obtain ⟨nodup', -, apart⟩ := List.nodup_append.mp nodup
    rcases List.eq_nil_or_concat back with rfl | ⟨back, last, rfl⟩
    · obtain ⟨rfl, same⟩ := List.append_inj' parted rfl
      obtain rfl : u = v := by simpa using same
      exact children w child
    · have shape : l ++ [u] = (front ++ v :: back) ++ [last] := by simpa using parted
      obtain ⟨same, -⟩ := List.append_inj' shape rfl
      exact ih nodup' same w child

end Layered

namespace Walk

variable {next : V → List V} {depth : Nat} {finished after vs : List V} {meetings : List (Meeting V)}

section Walked

variable (walk : Walk next depth finished vs after meetings)

include walk

theorem mem_iff {x : V} : x ∈ after ↔ x ∈ finished ∨ x ∈ meetings.map Meeting.node := by
  induction walk with
  | done => simp
  | again _ _ ih => exact ih
  | first _ _ _ below rest =>
    rw [rest, List.mem_append, below, List.mem_singleton, List.cons_append, List.map_cons,
      List.map_append, List.mem_cons, List.mem_append]
    tauto

theorem subset : finished ⊆ after :=
  fun _ member => walk.mem_iff.mpr (Or.inl member)

theorem visited : vs ⊆ after := by
  induction walk with
  | done => exact List.nil_subset _
  | again known rest ih => exact List.cons_subset.mpr ⟨rest.subset known, ih⟩
  | first _ _ rest _ ih =>
    exact List.cons_subset.mpr ⟨rest.subset (by simp), ih⟩

/-- **What a walk leaves is layered**, if what it starts from is. -/
theorem layered (before : Layered next finished) : Layered next after := by
  induction walk with
  | done => exact before
  | again _ _ ih => exact ih before
  | first _ below _ inner outer => exact outer (.concat (inner before) below.visited)

theorem meeting_reached {meeting : Meeting V}
    (met : meeting ∈ meetings) : ∃ n, meeting.depth = depth + n ∧
      ReachesIn (· ∈ vs) (Follows next) n meeting.node := by
  induction walk generalizing meeting with
  | done => cases met
  | again _ _ ih =>
    obtain ⟨n, deep, reached⟩ := ih met
    refine ⟨n, deep, reached.mono fun _ => List.mem_cons_of_mem _⟩
  | @first depth finished middle after v vs inner outer _ _ _ below rest =>
    rcases List.mem_cons.mp met with rfl | met
    · exact ⟨0, rfl, .base List.mem_cons_self⟩
    · rcases List.mem_append.mp met with met | met
      · obtain ⟨n, deep, reached⟩ := below met
        refine ⟨n + 1, by omega, ?_⟩
        exact reached.under fun w child => ⟨v, List.mem_cons_self, child⟩
      · obtain ⟨n, deep, reached⟩ := rest met
        exact ⟨n, deep, reached.mono fun _ => List.mem_cons_of_mem _⟩

end Walked

theorem not_mem_below {v : V} {middle : List V} {inner : List (Meeting V)} (fresh : v ∉ finished)
    (before : Layered next finished) (below : Walk next depth finished (next v) middle inner) :
    v ∉ middle := by
  intro member
  obtain ⟨meeting, met, rfl⟩ := List.mem_map.mp ((below.mem_iff.mp member).resolve_left fresh)
  obtain ⟨n, -, reached⟩ := below.meeting_reached met
  obtain ⟨w, child, path⟩ := reached.reflTransGen
  exact (below.layered before).acyclic member (Relation.TransGen.head' child path)

/-- **A walk finishes every node once.** -/
theorem nodup (walk : Walk next depth finished vs after meetings) (before : Layered next finished)
    (distinct : finished.Nodup) : after.Nodup := by
  induction walk with
  | done => exact distinct
  | again _ _ ih => exact ih before distinct
  | @first depth finished middle after v vs inner outer fresh below rest ih ih' =>
    refine ih' (.concat (below.layered before) below.visited) ?_
    exact (ih before distinct).append (List.nodup_singleton v)
      (List.disjoint_singleton.mpr (not_mem_below fresh before below))

theorem meeting_finished (walk : Walk next depth finished vs after meetings)
    (before : Layered next finished) (distinct : finished.Nodup) {meeting : Meeting V}
    (met : meeting ∈ meetings) : ∃ l : List V, l.length = meeting.finished ∧
      (l ++ [meeting.node]).Nodup ∧ l ++ [meeting.node] ⊆ after := by
  induction walk generalizing meeting with
  | done => cases met
  | again _ _ ih => exact ih before distinct met
  | @first depth finished middle after v vs inner outer fresh below rest ih ih' =>
    have layered := Layered.concat (below.layered before) below.visited
    have once : (middle ++ [v]).Nodup := (below.nodup before distinct).append
      (List.nodup_singleton v) (List.disjoint_singleton.mpr (not_mem_below fresh before below))
    rcases List.mem_cons.mp met with rfl | met
    · refine ⟨finished, rfl, distinct.append (List.nodup_singleton v)
        (List.disjoint_singleton.mpr fresh), ?_⟩
      intro x member
      rcases List.mem_append.mp member with inside | last
      · exact rest.subset (List.mem_append_left _ (below.subset inside))
      · exact rest.subset (List.mem_append_right _ last)
    · rcases List.mem_append.mp met with met | met
      · obtain ⟨l, length, apart, inside⟩ := ih before distinct met
        exact ⟨l, length, apart, fun x member =>
          rest.subset (List.mem_append_left _ (inside member))⟩
      · exact ih' layered once met

/-- **There is a walk** from nodes whose chains of children are bounded. -/
theorem exists_of_bounded (next : V → List V) (bound : Nat) (depth : Nat) (finished vs : List V)
    (bounded : ∀ n v, ReachesIn (· ∈ vs) (Follows next) n v → n < bound) :
    ∃ after meetings, Walk next depth finished vs after meetings := by
  induction bound generalizing depth finished vs with
  | zero =>
    cases vs with
    | nil => exact ⟨finished, [], .done _ _⟩
    | cons v vs => exact absurd (bounded 0 v (.base List.mem_cons_self)) (Nat.not_lt_zero 0)
  | succ bound ih =>
    induction vs generalizing finished with
    | nil => exact ⟨finished, [], .done _ _⟩
    | cons v vs ih' =>
      have rest := fun finished => ih' finished fun n w reached =>
        bounded n w (reached.mono fun _ => List.mem_cons_of_mem _)
      by_cases known : v ∈ finished
      · obtain ⟨after, meetings, walk⟩ := rest finished
        exact ⟨after, meetings, .again known walk⟩
      · obtain ⟨middle, inner, below⟩ := ih (depth + 1) finished (next v) fun n w reached =>
          Nat.lt_of_succ_lt_succ (bounded (n + 1) w
            (reached.under fun u child => ⟨v, List.mem_cons_self, child⟩))
        obtain ⟨after, outer, walk⟩ := rest (middle ++ [v])
        exact ⟨after, _, .first known below walk⟩

end Walk

end Library
