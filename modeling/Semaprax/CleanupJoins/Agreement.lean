/-
**Where the join agrees with the check.**

The check asks for one order of all histories. The join settles an order of the first two, in which
flags that no history relates are put in the order of their numbers, and then asks the next history to
agree with that order too.

* `joinLiveOrders_eq_ok` — two histories are joined in the smallest order in which both are in order.
* `validateGroup_eq_ok` — a group is accepted if its states have the same control and its histories
  have a common order.
* `Settles`, `Agrees` — the order that is settled for some histories, and the histories of which none
  is opposed to the order that was settled before it.
* `joinedLiveOrder_eq_ok_iff` — a group is joined exactly when its histories agree.
-/

import Semaprax.Library.Results
import Semaprax.CleanupJoins.Graphs

namespace Semaprax.CleanupJoins

open Library

variable {left right order first : List LivenessFlagId} {histories : List (List LivenessFlagId)}

theorem smallestFirst_of_taken
    (after : TakenAfter (flagsOf [left, right]) (edgesOf [left, right]) [] order) :
    SmallestFirst (before left right) order := by
  intro front flag back split other mem free
  have inside : other ∈ order := by
    rw [split]
    simp [mem]
  have behind : other ∉ front := by
    intro early
    have distinct := after.distinct
    rw [split] at distinct
    exact absurd rfl ((List.nodup_append.mp distinct).2.2 other early other
      (List.mem_cons_of_mem _ mem))
  refine after.smallest front flag back split other (after.fresh other inside).1
    List.not_mem_nil behind fun earlier edge => Or.inr (free earlier ?_)
  obtain ⟨history, isHistory, pair⟩ := mem_edgesOf.mp edge
  have precedes := windows_precedes history _ pair
  rcases List.mem_cons.mp isHistory with rfl | second
  · exact Or.inl precedes
  · exact Or.inr (List.mem_singleton.mp second ▸ precedes)

theorem Common.merges (common : Common [left, right] order)
    (inside : ∀ flag ∈ order, flag ∈ flagsOf [left, right]) : Merges left right order := by
  have first := common.2 left List.mem_cons_self
  have second := common.2 right (List.mem_cons_of_mem _ List.mem_cons_self)
  refine ⟨common.1, fun flag => ⟨fun mem => ?_, fun either => ?_⟩, first, second⟩
  · obtain ⟨history, isHistory, here⟩ := mem_flagsOf.mp (inside flag mem)
    rcases List.mem_cons.mp isHistory with rfl | last
    · exact Or.inl here
    · exact Or.inr (List.mem_singleton.mp last ▸ here)
  · exact either.elim (fun mem => first.subset mem) fun mem => second.subset mem

theorem Merges.common (merges : Library.Merges left right order) : Common [left, right] order := by
  refine ⟨merges.distinct, fun history isHistory => ?_⟩
  rcases List.mem_cons.mp isHistory with rfl | last
  · exact merges.first
  · exact List.mem_singleton.mp last ▸ merges.second

theorem joinLiveOrders_eq (left right : List LivenessFlagId) :
    joinLiveOrders left right = match takenOrder [left, right] with
      | none => .error .panicked
      | some joined =>
        if joined.length ≠ (flagsOf [left, right]).length then .error .conflictingJoin
        else .ok joined := rfl

/-- **Two histories are joined** in the smallest order in which both are in order. -/
theorem joinLiveOrders_eq_ok {joined : List LivenessFlagId} :
    joinLiveOrders left right = .ok joined ↔ SmallestMerge left right joined := by
  obtain ⟨order, taken, after⟩ := takenOrder_spec [left, right]
  have evaluated : joinLiveOrders left right =
      if order.length ≠ (flagsOf [left, right]).length then .error .conflictingJoin
      else .ok order := by
    rw [joinLiveOrders_eq, taken]
  have merged : order.length = (flagsOf [left, right]).length → SmallestMerge left right order := by
    intro whole
    have common := common_of_taken after ((length_eq_iff after).mp whole)
    exact ⟨common.merges fun flag mem => (after.fresh flag mem).1, smallestFirst_of_taken after⟩
  rw [evaluated]
  constructor
  · intro ok
    split_ifs at ok with short
    obtain rfl := Except.ok.inj ok
    exact merged (not_not.mp short)
  · intro merge
    have whole := (takenOrder_complete_iff after).mpr ⟨joined, Merges.common merge.toMerges⟩
    rw [if_neg (not_not.mpr whole), (merged whole).unique merge]

theorem exists_joinLiveOrders_iff (distinct : left.Nodup) (distinct' : right.Nodup) :
    (∃ joined, joinLiveOrders left right = .ok joined) ↔ ¬Opposed left right := by
  rw [← exists_merge_iff distinct distinct']
  constructor
  · rintro ⟨joined, ok⟩
    exact ⟨joined, (joinLiveOrders_eq_ok.mp ok).toMerges⟩
  · rintro ⟨merged, merges⟩
    obtain ⟨order, taken, after⟩ := takenOrder_spec [left, right]
    have whole := (takenOrder_complete_iff after).mpr ⟨merged, Merges.common merges⟩
    refine ⟨order, ?_⟩
    rw [joinLiveOrders_eq, taken]
    exact if_neg (not_not.mpr whole)

section States

variable {Source Staged : Type} [DecidableEq Source]

def SameControl (first second : PathState Source Staged) : Prop :=
  first.renewals = second.renewals ∧ first.pendingFailure = second.pendingFailure ∧
    first.selectedFailure = second.selectedFailure ∧ first.published = second.published

variable {block : Nat}

/-- **A state is accepted** if it has the control of the others and there is a common order. -/
theorem validateJoinCompatibility_eq_ok {existing : List (PathState Source Staged)}
    {incoming : PathState Source Staged} :
    validateJoinCompatibility existing incoming block = .ok () ↔
      (∀ state ∈ existing, SameControl state incoming) ∧
        ∃ order, Common (existing.map PathState.liveOrder ++ [incoming.liveOrder]) order := by
  obtain ⟨order, taken, after⟩ :=
    takenOrder_spec (existing.map PathState.liveOrder ++ [incoming.liveOrder])
  rw [← takenOrder_complete_iff after]
  have control : (∀ state ∈ existing, SameControl state incoming) ↔
      ¬(existing.any fun state => state.renewals ≠ incoming.renewals ∨
        state.pendingFailure ≠ incoming.pendingFailure ∨
        state.selectedFailure ≠ incoming.selectedFailure ∨
        state.published ≠ incoming.published) = true := by
    rw [List.any_eq_true]
    simp only [SameControl, decide_eq_true_eq, not_exists, not_and, not_or, not_not, ne_eq]
  have visited : (do
      let graph ← precedence (existing.map PathState.liveOrder ++ [incoming.liveOrder])
      peel graph.successors
        (flagsOf (existing.map PathState.liveOrder ++ [incoming.liveOrder])).length graph.indegree
        (readyFlags graph.indegree)) = some order.length := by
    have counted : ∀ graph : Option Precedence, (graph.bind fun graph =>
        peelOrder graph.successors
          (flagsOf (existing.map PathState.liveOrder ++ [incoming.liveOrder])).length
          graph.indegree (readyFlags graph.indegree)) = some order →
        (graph.bind fun graph => peel graph.successors
          (flagsOf (existing.map PathState.liveOrder ++ [incoming.liveOrder])).length
          graph.indegree (readyFlags graph.indegree)) = some order.length := by
      intro graph ran
      cases graph with
      | none => exact nomatch ran
      | some graph =>
        rw [Option.bind_some] at ran ⊢
        rw [peel_eq_length, ran, Option.map_some]
    exact counted _ taken
  rw [control, validateJoinCompatibility]
  simp only [visited]
  split_ifs with other whole <;> simp_all

/-- **A group is accepted** if its states have the same control and its histories have a common
order. -/
theorem validateGroup_eq_ok {states : List (PathState Source Staged)} :
    validateGroup block [] states = .ok () ↔
      (∀ first ∈ states, ∀ second ∈ states, SameControl first second) ∧
        ∃ order, Common (states.map PathState.liveOrder) order := by
  have steps : ∀ (states checked : List (PathState Source Staged)),
      validateGroup block checked states = .ok () ↔ ∀ front state back,
        states = front ++ state :: back →
          validateJoinCompatibility (checked ++ front) state block = .ok () := by
    intro states
    induction states with
    | nil =>
      intro checked
      exact ⟨fun _ front state back split => absurd split (by simp), fun _ => rfl⟩
    | cons first states ih =>
      intro checked
      rw [validateGroup, bind_eq_ok]
      constructor
      · rintro ⟨_, here, rest⟩ front state back split
        cases front with
        | nil =>
          obtain ⟨rfl, rfl⟩ := List.cons.inj split
          rwa [List.append_nil]
        | cons head front =>
          obtain ⟨rfl, split'⟩ := List.cons.inj split
          have shown := (ih (checked ++ [first])).mp rest front state back split'
          rwa [List.append_assoc, List.singleton_append] at shown
      · intro all
        refine ⟨(), ?_, (ih (checked ++ [first])).mpr fun front state back split => ?_⟩
        · have shown := all [] first states rfl
          rwa [List.append_nil] at shown
        · have shown := all (first :: front) state back (by rw [split, List.cons_append])
          rwa [List.append_assoc, List.singleton_append]
  rw [steps]
  simp only [List.nil_append, validateJoinCompatibility_eq_ok]
  constructor
  · intro all
    refine ⟨fun first isFirst second isSecond => ?_, ?_⟩
    · -- of two states, the later one was compared with the earlier one
      obtain ⟨front, back, split⟩ := List.append_of_mem isSecond
      rw [split] at isFirst
      rcases List.mem_append.mp isFirst with early | rest
      · exact (all front second back split).1 first early
      · rcases List.mem_cons.mp rest with rfl | late
        · exact ⟨rfl, rfl, rfl, rfl⟩
        · obtain ⟨between, after, rfl⟩ := List.append_of_mem late
          obtain ⟨renewals, pending, selected, published⟩ :=
            (all (front ++ second :: between) first after (by rw [split]; simp)).1 second (by simp)
          exact ⟨renewals.symm, pending.symm, selected.symm, published.symm⟩
    · rcases List.eq_nil_or_concat' states with rfl | ⟨front, last, split⟩
      · exact ⟨[], List.nodup_nil, List.forall_mem_nil _⟩
      · obtain ⟨order, common⟩ := (all front last [] split).2
        refine ⟨order, ?_⟩
        rwa [split, List.map_append]
  · rintro ⟨same, order, distinct, common⟩ front state back rfl
    refine ⟨fun other mem => same other (by simp [mem]) state (by simp), order, distinct, ?_⟩
    intro history mem
    refine common history ?_
    rw [List.map_append, List.map_cons]
    rcases List.mem_append.mp mem with early | here
    · exact List.mem_append_left _ early
    · rw [List.mem_singleton.mp here]
      exact List.mem_append_right _ List.mem_cons_self

end States

/-- The order that is settled for a history and the ones after it: each is merged in turn, the smallest
flag first. -/
def Settles (first : List LivenessFlagId) : List (List LivenessFlagId) → List LivenessFlagId → Prop
  | [], order => order = first
  | history :: histories, order =>
    ∃ next, SmallestMerge first history next ∧ Settles next histories order

/-- No history has two flags in the opposite order to the one that was settled before it. -/
def Agrees (first : List LivenessFlagId) (histories : List (List LivenessFlagId)) : Prop :=
  ∀ earlier history later, histories = earlier ++ history :: later →
    ∀ order, Settles first earlier order → ¬Opposed order history

/-- Some histories in one order, once each. -/
structure Joined (histories : List (List LivenessFlagId)) (joined : List LivenessFlagId) : Prop where
  distinct : joined.Nodup
  mem_iff : ∀ flag, flag ∈ joined ↔ ∃ history ∈ histories, flag ∈ history
  restricted : ∀ history ∈ histories, joined.filter (· ∈ history) = history

theorem Agrees.tail {first history next : List LivenessFlagId}
    {histories : List (List LivenessFlagId)} (agrees : Agrees first (history :: histories))
    (merge : SmallestMerge first history next) : Agrees next histories := by
  intro earlier other later split order settles
  exact agrees (history :: earlier) other later (by rw [split, List.cons_append]) order
    ⟨next, merge, settles⟩

theorem agrees_cons_iff {history next : List LivenessFlagId}
    (merge : SmallestMerge first history next) :
    Agrees first (history :: histories) ↔ ¬Opposed first history ∧ Agrees next histories := by
  constructor
  · exact fun agrees => ⟨agrees [] history histories rfl first rfl, agrees.tail merge⟩
  · rintro ⟨apart, agrees⟩ earlier other later split order settles
    cases earlier with
    | nil =>
      obtain ⟨rfl, _⟩ := List.cons.inj split
      obtain rfl : order = first := settles
      exact apart
    | cons head earlier =>
      obtain ⟨rfl, split'⟩ := List.cons.inj split
      obtain ⟨next', merge', settles'⟩ := settles
      obtain rfl := merge.unique merge'
      exact agrees earlier other later split' order settles'

/-- **The joined order is the settled one**, and there is one exactly when the histories agree. -/
theorem foldlM_joinLiveOrders
    (distinct : first.Nodup) (distinct' : ∀ history ∈ histories, history.Nodup) :
    (∀ joined, histories.foldlM joinLiveOrders first = .ok joined → Settles first histories joined) ∧
      ((∃ joined, histories.foldlM joinLiveOrders first = .ok joined) ↔ Agrees first histories) := by
  induction histories generalizing first with
  | nil =>
    refine ⟨fun joined ok => (Except.ok.inj ok).symm, ?_⟩
    exact ⟨fun _ earlier history later split => absurd split (by simp), fun _ => ⟨first, rfl⟩⟩
  | cons history histories ih =>
    obtain ⟨here, rest⟩ := List.forall_mem_cons.mp distinct'
    rw [List.foldlM_cons]
    by_cases apart : Opposed first history
    · -- neither is there a merge, nor do the histories agree
      have failed : ∀ joined, (joinLiveOrders first history >>= fun next =>
          histories.foldlM joinLiveOrders next) ≠ .ok joined := by
        intro joined ok
        obtain ⟨next, step, _⟩ := bind_eq_ok.mp ok
        exact (exists_joinLiveOrders_iff distinct here).mp ⟨next, step⟩ apart
      refine ⟨fun joined ok => absurd ok (failed joined), fun ⟨joined, ok⟩ =>
        absurd ok (failed joined), fun agrees => ?_⟩
      exact absurd apart (agrees [] history histories rfl first rfl)
    · obtain ⟨next, step⟩ := (exists_joinLiveOrders_iff distinct here).mpr apart
      have merge := joinLiveOrders_eq_ok.mp step
      obtain ⟨settled, succeeds⟩ := ih merge.distinct rest
      rw [step]
      show (∀ joined, histories.foldlM joinLiveOrders next = .ok joined → _) ∧
        ((∃ joined, histories.foldlM joinLiveOrders next = .ok joined) ↔ _)
      refine ⟨fun joined ok => ⟨next, merge, settled joined ok⟩, ?_⟩
      rw [succeeds, agrees_cons_iff merge]
      exact (and_iff_right apart).symm

theorem Settles.joined (distinct : first.Nodup) (settles : Settles first histories order) :
    order.Nodup ∧ (∀ flag, flag ∈ order ↔ ∃ history ∈ first :: histories, flag ∈ history) ∧
      ∀ history ∈ first :: histories, history.Sublist order := by
  induction histories generalizing first with
  | nil =>
    obtain rfl : order = first := settles
    refine ⟨distinct, fun flag => by simp, fun history mem => ?_⟩
    exact List.mem_singleton.mp mem ▸ List.Sublist.refl _
  | cons history histories ih =>
    obtain ⟨next, merge, rest⟩ := settles
    obtain ⟨nodup, mem_iff, inside⟩ := ih merge.distinct rest
    refine ⟨nodup, fun flag => ?_, ?_⟩
    · rw [mem_iff]
      simp only [List.exists_mem_cons_iff, merge.mem_iff]
      exact or_assoc
    · have next' := inside next List.mem_cons_self
      refine List.forall_mem_cons.mpr ⟨merge.first.trans next', List.forall_mem_cons.mpr
        ⟨merge.second.trans next', fun other mem => inside other (List.mem_cons_of_mem _ mem)⟩⟩

theorem foldlM_liveOrder {Source Staged : Type} (first : List LivenessFlagId)
    (states : List (PathState Source Staged)) :
    states.foldlM (fun order state => joinLiveOrders order state.liveOrder) first =
      (states.map PathState.liveOrder).foldlM joinLiveOrders first := by
  rw [List.foldlM_map]

def historyState (liveOrder : List LivenessFlagId) : PathState Unit Unit :=
  ⟨[], liveOrder, none, none, none, false⟩

end Semaprax.CleanupJoins
