/-
**Chains, heights and cycles of a finite relation.**

`r u v` is read "v stands on u". A height gives every node at least one, gives a node more than
whatever it stands on, and gives no more than that asks for.

* `Height.acyclic` — a relation with a height has no cycle.
* `Height.longest` — the greatest height is the length of the longest chain of nodes.
* `exists_cycle` — in a finite set in which every node stands on another there is a cycle.
-/

import Mathlib

namespace Library

open Relation

variable {V : Type*}

/-- A chain of nodes, each standing on the one before. -/
structure ChainOf (node : V → Prop) (r : V → V → Prop) (chain : List V) : Prop where
  linked : chain.IsChain r
  nodes : ∀ v ∈ chain, node v

/-- `n` is the length of the longest chain of nodes. -/
structure LongestChain (node : V → Prop) (r : V → V → Prop) (n : Nat) : Prop where
  attained : ∃ chain, ChainOf node r chain ∧ chain.length = n
  bounds : ∀ chain, ChainOf node r chain → chain.length ≤ n

/-- A height of the nodes: tight on `r`. -/
structure Height (node : V → Prop) (r : V → V → Prop) (height : V → Nat) : Prop where
  positive : ∀ v, node v → 1 ≤ height v
  rises : ∀ u v, r u v → height u + 1 ≤ height v
  tight : ∀ v, node v → height v = 1 ∨ ∃ u, node u ∧ r u v ∧ height v = height u + 1

section Height

variable {node : V → Prop} {r : V → V → Prop} {height : V → Nat}

section Tall

variable (tall : Height node r height)

include tall

theorem Height.lt_of_transGen {u v : V} (path : TransGen r u v) : height u < height v := by
  induction path with
  | single step => exact tall.rises _ _ step
  | tail _ step ih => exact ih.trans (tall.rises _ _ step)

theorem Height.acyclic (v : V) : ¬ TransGen r v v :=
  fun cycle => lt_irrefl _ (tall.lt_of_transGen cycle)

theorem Height.chain_length_le {chain : List V} {last : V}
    (ofNodes : ChainOf node r (chain ++ [last])) : chain.length + 1 ≤ height last := by
  induction chain using List.reverseRecOn generalizing last with
  | nil => exact tall.positive last (ofNodes.nodes last (List.mem_singleton_self last))
  | append_singleton chain v ih =>
    obtain ⟨linked, _, joined⟩ := List.isChain_append.mp ofNodes.linked
    have shorter := ih ⟨linked, fun w member => ofNodes.nodes w (List.mem_append_left _ member)⟩
    have step : r v last := joined v (by simp) last (by simp)
    have rises := tall.rises v last step
    rw [List.length_append, List.length_singleton]
    omega

theorem Height.exists_chain {v : V} (isNode : node v) :
    ∃ chain, ChainOf node r (chain ++ [v]) ∧ chain.length + 1 = height v := by
  induction size : height v using Nat.strong_induction_on generalizing v with
  | _ size ih =>
    rcases tall.tight v isNode with lowest | ⟨u, isNode', step, above⟩
    · refine ⟨[], ⟨List.IsChain.singleton v, fun w member => ?_⟩, lowest.symm.trans size⟩
      rw [List.mem_singleton.mp member]
      exact isNode
    · obtain ⟨chain, ofNodes, length⟩ := ih (height u) (by omega) isNode' rfl
      refine ⟨chain ++ [u], ⟨?_, fun w member => ?_⟩, ?_⟩
      · refine List.isChain_append.mpr ⟨ofNodes.linked, List.IsChain.singleton v, ?_⟩
        intro x isLast y isFirst
        rw [List.getLast?_concat, Option.mem_some_iff] at isLast
        obtain rfl := isLast
        obtain rfl : v = y := by simpa using isFirst
        exact step
      · rcases List.mem_append.mp member with inside | last
        · exact ofNodes.nodes w inside
        · rw [List.mem_singleton.mp last]
          exact isNode
      · rw [List.length_append, List.length_singleton]
        omega

/-- **The greatest height is the length of the longest chain.** -/
theorem Height.longest {n : Nat}
    (bounded : ∀ v, node v → height v ≤ n) (attained : n = 0 ∨ ∃ v, node v ∧ height v = n) :
    LongestChain node r n := by
  constructor
  · rcases attained with rfl | ⟨v, isNode, rfl⟩
    · exact ⟨[], ⟨List.IsChain.nil, List.forall_mem_nil _⟩, rfl⟩
    · obtain ⟨chain, ofNodes, length⟩ := tall.exists_chain isNode
      exact ⟨_, ofNodes, by rw [List.length_append, List.length_singleton, length]⟩
  · intro chain ofNodes
    induction chain using List.reverseRecOn with
    | nil => exact Nat.zero_le n
    | append_singleton chain v _ =>
      have isNode := ofNodes.nodes v (List.mem_append_right _ (List.mem_singleton_self v))
      rw [List.length_append, List.length_singleton]
      exact (tall.chain_length_le ofNodes).trans (bounded v isNode)

end Tall

end Height

theorem exists_cycle {r : V → V → Prop} {s : Set V} (finite : s.Finite) (nonempty : s.Nonempty)
    (stands : ∀ v ∈ s, ∃ u ∈ s, r u v) : ∃ v, TransGen r v v := by
  by_contra acyclic
  have irreflexive : ∀ v : s, ¬ TransGen r v.1 v.1 := fun v cycle => acyclic ⟨v.1, cycle⟩
  have : Finite s := finite
  have : IsTrans s fun u v => TransGen r u.1 v.1 := ⟨fun _ _ _ => TransGen.trans⟩
  have : Std.Irrefl fun u v : s => TransGen r u.1 v.1 := ⟨irreflexive⟩
  have wellFounded : WellFounded fun u v : s => TransGen r u.1 v.1 :=
    Finite.wellFounded_of_trans_of_irrefl _
  obtain ⟨start, member⟩ := nonempty
  obtain ⟨least, _, minimal⟩ := wellFounded.has_min Set.univ ⟨⟨start, member⟩, trivial⟩
  obtain ⟨below, member', step⟩ := stands least.1 least.2
  exact minimal ⟨below, member'⟩ trivial (TransGen.single step)

theorem ChainOf.mono {node node' : V → Prop} {r r' : V → V → Prop} {chain : List V}
    (nodes : ∀ v, node v → node' v) (steps : ∀ u v, r u v → r' u v)
    (ofNodes : ChainOf node r chain) : ChainOf node' r' chain :=
  ⟨ofNodes.linked.imp steps, fun v member => nodes v (ofNodes.nodes v member)⟩

end Library
