/-
**Trees given by parents.**

A forest as a partial map from nodes to parents: `none` for what is no node, `some none` for a root,
`some (some p)` for a child of `p`.

* `DepthOf` — the depth of a node below its root; a node has at most one.
* `Within` — a node is another, or lies below it.
* `lineage` — the walk from a node up to its root, which lists exactly the nodes that it lies within
  once there is fuel for its depth; `DepthOf.lt_size` — the number of nodes is fuel enough.
* `collectFrom` — the walk from a node down to its descendants, which lists exactly the nodes within
  it; the number of nodes is fuel enough here too.
-/

import Semaprax.Library.Links

namespace Library

open Relation

section Tree

variable {K : Type} (parent : K → Option (Option K))

/-- The depth of a node: the number of steps up to its root. -/
inductive DepthOf : K → Nat → Prop
  | root {node : K} (isRoot : parent node = some none) : DepthOf node 0
  | child {node above : K} {depth : Nat} (isChild : parent node = some (some above))
      (deep : DepthOf above depth) : DepthOf node (depth + 1)

/-- A node is another, or lies below it. -/
def Within (inner outer : K) : Prop :=
  ReflTransGen (fun child above => parent child = some (some above)) inner outer

variable {parent} {node inner outer : K} {depth depth' : Nat}

section Deep

variable (deep : DepthOf parent node depth)

include deep

theorem DepthOf.isNode : (parent node).isSome := by
  cases deep with
  | root isRoot => rw [isRoot]; rfl
  | child isChild _ => rw [isChild]; rfl

omit deep in
theorem DepthOf.unique (first : DepthOf parent node depth) (second : DepthOf parent node depth') :
    depth = depth' := by
  induction first generalizing depth' with
  | root isRoot =>
    cases second with
    | root _ => rfl
    | child isChild _ => exact nomatch isRoot.symm.trans isChild
  | child isChild _ ih =>
    cases second with
    | root isRoot => exact nomatch isRoot.symm.trans isChild
    | child isChild' deep =>
      obtain rfl := Option.some.inj (Option.some.inj (isChild.symm.trans isChild'))
      rw [ih deep]

theorem DepthOf.parent_deep {above : K} (isChild : parent node = some (some above)) :
    ∃ depth', DepthOf parent above depth' ∧ depth = depth' + 1 := by
  cases deep with
  | root isRoot => exact nomatch isRoot.symm.trans isChild
  | child isChild' deep =>
    obtain rfl := Option.some.inj (Option.some.inj (isChild'.symm.trans isChild))
    exact ⟨_, deep, rfl⟩

theorem DepthOf.rooted : ∃ root, parent root = some none ∧ Within parent node root := by
  induction deep with
  | root isRoot => exact ⟨_, isRoot, ReflTransGen.refl⟩
  | child isChild _ ih =>
    obtain ⟨root, isRoot, above⟩ := ih
    exact ⟨root, isRoot, ReflTransGen.head isChild above⟩

omit deep in
theorem within_iff : Within parent inner outer ↔
    inner = outer ∨ ∃ above, parent inner = some (some above) ∧ Within parent above outer := by
  refine ⟨fun inside => ?_, ?_⟩
  · rcases ReflTransGen.cases_head inside with same | ⟨above, isChild, inside⟩
    · exact .inl same
    · exact .inr ⟨above, isChild, inside⟩
  · rintro (rfl | ⟨above, isChild, inside⟩)
    · exact ReflTransGen.refl
    · exact ReflTransGen.head isChild inside

theorem DepthOf.exists_of_le {level : Nat} (le : level ≤ depth) :
    ∃ other, DepthOf parent other level := by
  induction deep with
  | root isRoot =>
    obtain rfl := Nat.le_zero.mp le
    exact ⟨_, .root isRoot⟩
  | child isChild deep ih =>
    rcases Nat.le_or_eq_of_le_succ le with less | rfl
    · exact ih less
    · exact ⟨_, .child isChild deep⟩

theorem DepthOf.lt_size {nodes : List K}
    (all : ∀ other, (parent other).isSome → other ∈ nodes) : depth < nodes.length := by
  classical
  choose nodeAt deepAt using fun level : Fin (depth + 1) =>
    deep.exists_of_le (Nat.lt_succ_iff.mp level.isLt)
  have injective : Function.Injective nodeAt := fun first second same => by
    have deep' := deepAt second
    rw [← same] at deep'
    exact Fin.ext ((deepAt first).unique deep')
  have inside : Finset.univ.image nodeAt ⊆ nodes.toFinset := fun other member => by
    obtain ⟨level, -, rfl⟩ := Finset.mem_image.mp member
    exact List.mem_toFinset.mpr (all _ (deepAt level).isNode)
  have size := (Finset.card_le_card inside).trans (List.toFinset_card_le nodes)
  rwa [Finset.card_image_of_injective _ injective, Finset.card_univ, Fintype.card_fin,
    Nat.succ_le_iff] at size

end Deep

/-- The walk from a node up to its root. -/
def lineage (parent : K → Option (Option K)) : Nat → K → List K
  | 0, _ => []
  | fuel + 1, node =>
    match (parent node).join with
    | none => [node]
    | some above => node :: lineage parent fuel above

theorem mem_lineage {fuel : Nat} (deep : DepthOf parent inner depth) (room : depth < fuel) :
    outer ∈ lineage parent fuel inner ↔ Within parent inner outer := by
  induction fuel generalizing inner depth with
  | zero => exact absurd room (Nat.not_lt_zero _)
  | succ fuel ih =>
    rw [within_iff, lineage]
    cases deep with
    | root isRoot =>
      rw [isRoot]
      simp [eq_comm]
    | child isChild deep =>
      rw [isChild]
      show outer ∈ inner :: lineage parent fuel _ ↔ _
      rw [List.mem_cons, ih deep (by omega), eq_comm]
      simp

end Tree

section Descendants

variable {K : Type} [LinearOrder K]

/-- Append what is not collected yet. -/
def collectNew (collected nodes : List K) : List K :=
  nodes.foldl (fun collected node =>
    if collected.contains node then collected else collected ++ [node]) collected

def collectFrom (children : Links K) : Nat → Nat → List K → List K
  | 0, _, collected => collected
  | fuel + 1, index, collected =>
    match collected[index]? with
    | none => collected
    | some node =>
      collectFrom children fuel (index + 1) (collectNew collected (targetsOf children node))

theorem collectNew_cons (collected nodes : List K) (node : K) :
    collectNew collected (node :: nodes) =
      collectNew (if node ∈ collected then collected else collected ++ [node]) nodes := by
  unfold collectNew
  rw [List.foldl_cons]
  simp only [List.contains_iff_mem]

theorem mem_collectNew {collected nodes : List K} {other : K} :
    other ∈ collectNew collected nodes ↔ other ∈ collected ∨ other ∈ nodes := by
  induction nodes generalizing collected with
  | nil => simp [collectNew]
  | cons node nodes ih =>
    rw [collectNew_cons, ih]
    split_ifs with known
    · rw [List.mem_cons]
      constructor
      · tauto
      · rintro (old | rfl | new)
        · exact .inl old
        · exact .inl known
        · exact .inr new
    · simp only [List.mem_append, List.mem_cons]
      tauto

theorem nodup_collectNew {collected nodes : List K} (distinct : collected.Nodup) :
    (collectNew collected nodes).Nodup := by
  induction nodes generalizing collected with
  | nil => exact distinct
  | cons node nodes ih =>
    rw [collectNew_cons]
    split_ifs with known
    · exact ih distinct
    · refine ih (List.nodup_append.mpr ⟨distinct, List.nodup_singleton node, ?_⟩)
      intro first member second same
      rw [List.mem_singleton.mp same]
      rintro rfl
      exact known member

theorem collectNew_extends (collected nodes : List K) : collected <+: collectNew collected nodes := by
  induction nodes generalizing collected with
  | nil => exact List.prefix_rfl
  | cons node nodes ih =>
    rw [collectNew_cons]
    split_ifs
    · exact ih collected
    · exact (List.prefix_append collected [node]).trans (ih _)

variable {children : Links K} {parent : K → Option (Option K)} {outer : K} {nodes : List K}

/-- What the walk has collected when it comes to an index. -/
structure Collected (children : Links K) (parent : K → Option (Option K)) (outer : K)
    (index : Nat) (collected : List K) : Prop where
  top : outer ∈ collected
  distinct : collected.Nodup
  inside : ∀ node ∈ collected, Within parent node outer ∧ (parent node).isSome
  closed : ∀ i < index, ∀ node, collected[i]? = some node →
    ∀ child ∈ targetsOf children node, child ∈ collected

theorem Collected.mem_iff {index : Nat} {collected : List K}
    (linked : ∀ above child, child ∈ targetsOf children above ↔ parent child = some (some above))
    (held : Collected children parent outer index collected) (done : collected.length ≤ index)
    (inner : K) : inner ∈ collected ↔ Within parent inner outer := by
  refine ⟨fun member => (held.inside inner member).1, fun inside => ?_⟩
  induction inside using ReflTransGen.head_induction_on with
  | refl => exact held.top
  | head isChild _ ih =>
    obtain ⟨i, here⟩ := List.mem_iff_getElem?.mp ih
    have room := (List.getElem?_eq_some_iff.mp here).1
    exact held.closed i (room.trans_le done) _ here _ ((linked _ _).mpr isChild)

/-- **The walk down lists exactly the nodes within.** -/
theorem mem_collectFrom {fuel index : Nat} {collected : List K}
    (linked : ∀ above child, child ∈ targetsOf children above ↔ parent child = some (some above))
    (all : ∀ node, (parent node).isSome → node ∈ nodes)
    (held : Collected children parent outer index collected)
    (room : nodes.length ≤ fuel + index) (inner : K) :
    inner ∈ collectFrom children fuel index collected ↔ Within parent inner outer := by
  induction fuel generalizing index collected with
  | zero =>
    refine held.mem_iff linked ?_ inner
    have few := (List.subperm_of_subset held.distinct fun node member =>
      all node (held.inside node member).2).length_le
    omega
  | succ fuel ih =>
    rw [collectFrom]
    cases here : collected[index]? with
    | none => exact held.mem_iff linked (List.getElem?_eq_none_iff.mp here) inner
    | some node =>
      refine ih ⟨?_, nodup_collectNew held.distinct, ?_, ?_⟩ (by omega)
      · exact mem_collectNew.mpr (.inl held.top)
      · intro other member
        rcases mem_collectNew.mp member with old | new
        · exact held.inside other old
        · have isChild := (linked _ _).mp new
          have below := (held.inside node (List.mem_iff_getElem?.mpr ⟨index, here⟩)).1
          exact ⟨ReflTransGen.head isChild below, by rw [isChild]; rfl⟩
      · intro i before other there child member
        obtain ⟨rest, grown⟩ := collectNew_extends collected (targetsOf children node)
        have bound : index < collected.length := (List.getElem?_eq_some_iff.mp here).1
        rw [← grown, List.getElem?_append_left (by omega)] at there
        refine mem_collectNew.mpr ?_
        rcases Nat.lt_succ_iff_lt_or_eq.mp before with less | rfl
        · exact .inl (held.closed i less other there child member)
        · obtain rfl := Option.some.inj (here.symm.trans there)
          exact .inr member

end Descendants

end Library
