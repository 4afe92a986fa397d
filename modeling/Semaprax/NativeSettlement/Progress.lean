/-
**What a certificate guarantees** (`native_settlement.rs`).

* `NativeSettlementCertificate.edge_moves` — an edge changes the one owner that its action names.
* `NativeSettlementCertificate.start_live` — where every owner is live at the start, and where the
  validator does not look: a certificate of one checkpoint without edges.
* `tally_applyActions` — applying actions finalizes an owner at most once, and so does publishing.
-/

import Semaprax.NativeSettlement.Frame

namespace Semaprax.NativeSettlement

open Library

variable {checkpoints : List SettlementCheckpointSpec}

theorem validateCheckpoints_ok {resourceCount expected : Nat}
    (valid : validateCheckpoints resourceCount expected checkpoints = .ok ()) {index : Nat}
    {spec : SettlementCheckpointSpec} (found : checkpoints[index]? = some spec) :
    spec.checkpoint = expected + index ∧ validateCheckpoint spec resourceCount = .ok () := by
  induction checkpoints generalizing expected index with
  | nil => exact nomatch found
  | cons first rest ih =>
    unfold validateCheckpoints at valid
    obtain ⟨_, numbered, valid⟩ := bind_eq_ok.mp valid
    obtain ⟨_, checked, valid⟩ := bind_eq_ok.mp valid
    cases index with
    | zero =>
      obtain rfl := Option.some.inj found
      exact ⟨not_not.mp (refuseIf_eq_ok.mp numbered), checked⟩
    | succ index =>
      obtain ⟨same, fits⟩ := ih valid found
      exact ⟨by omega, fits⟩

def tally (state : SettlementResourceState) (resources : List SettlementResourceState)
    (ownerOrdinal : Nat) : Nat :=
  if resources[ownerOrdinal]? = some state then 1 else 0

theorem changedOwnerState_set {source target : List SettlementResourceState} {ownerOrdinal : Nat}
    {expectedSource expectedTarget : SettlementResourceState}
    (same : source.length = target.length)
    (changed : changedOwnerState source target ownerOrdinal expectedSource expectedTarget = true) :
    source[ownerOrdinal]? = some expectedSource ∧
      target = source.set ownerOrdinal expectedTarget := by
  unfold changedOwnerState at changed
  rw [Bool.and_eq_true, List.all_eq_true, decide_eq_true_eq] at changed
  obtain ⟨all, bound⟩ := changed
  have at' : ∀ index (inside : index < source.length),
      if index = ownerOrdinal then source[index] = expectedSource ∧
        target[index] = expectedTarget
      else source[index] = target[index] := by
    intro index inside
    have member : ((source[index], target[index]), index) ∈ (source.zip target).zipIdx := by
      rw [List.mem_zipIdx_iff_getElem?]
      simp [inside, same ▸ inside]
    have held := all _ member
    split_ifs with here
    · simpa [here] using held
    · simpa [here] using held
  have owner := at' ownerOrdinal bound
  rw [if_pos rfl] at owner
  refine ⟨?_, List.ext_getElem (by rw [List.length_set, same]) fun index left right => ?_⟩
  · rw [List.getElem?_eq_getElem bound, owner.1]
  · have held := at' index (same ▸ left)
    rw [List.getElem_set]
    split_ifs at held ⊢ with here here' here'
    · exact held.2
    · exact absurd here.symm here'
    · exact absurd here'.symm here
    · exact held.symm

def SettlementProgressAction.Moves (source target : List SettlementResourceState) :
    SettlementProgressAction → Prop
  | .finalize ownerOrdinal => target = source.set ownerOrdinal .dead ∧
      (source[ownerOrdinal]? = some .live ∨ source[ownerOrdinal]? = some .provisionalResult)
  | .stageOwnedResult ownerOrdinal => target = source.set ownerOrdinal .provisionalResult ∧
      source[ownerOrdinal]? = some .live
  | .certifyOutcome _ => target = source

theorem validProgressTransition_moves {source target : SettlementCheckpointSpec}
    {action : SettlementProgressAction}
    (valid : validProgressTransition source target action = true) :
    action.Moves source.resources target.resources := by
  unfold validProgressTransition at valid
  rw [Bool.and_eq_true, decide_eq_true_eq] at valid
  obtain ⟨same, valid⟩ := valid
  cases action with
  | finalize ownerOrdinal =>
    obtain ⟨-, changed | changed, -⟩ := of_decide_eq_true valid
    · obtain ⟨before, after⟩ := changedOwnerState_set same changed
      exact ⟨after, .inl before⟩
    · obtain ⟨before, after⟩ := changedOwnerState_set same changed
      exact ⟨after, .inr before⟩
  | stageOwnedResult ownerOrdinal =>
    obtain ⟨-, changed, -⟩ := of_decide_eq_true valid
    obtain ⟨before, after⟩ := changedOwnerState_set same changed
    exact ⟨after, before⟩
  | certifyOutcome traceEvidence =>
    obtain ⟨-, -, same, -⟩ := of_decide_eq_true valid
    exact same.symm

theorem validateEdges_ok {seenEdges : Finset SettlementProgressEdge}
    {seenActions : Finset (Nat × SettlementProgressAction)} {reachable reached : Finset Nat}
    {edges : List SettlementProgressEdge}
    (valid : validateEdges checkpoints seenEdges seenActions reachable edges = .ok reached) :
    ∀ edge ∈ edges, ∃ source target, checkpoints[edge.source - 1]? = some source ∧
      checkpoints[edge.target - 1]? = some target ∧
      validProgressTransition source target edge.action = true ∧ edge.source ≠ 0 := by
  induction edges generalizing seenEdges seenActions reachable with
  | nil => exact fun _ member => nomatch member
  | cons first rest ih =>
    unfold validateEdges at valid
    obtain ⟨_, canonical, valid⟩ := bind_eq_ok.mp valid
    split at valid
    · rename_i source target sourceFound targetFound
      obtain ⟨_, moves, valid⟩ := bind_eq_ok.mp valid
      intro edge member
      rcases List.mem_cons.mp member with rfl | member
      · refine ⟨source, target, sourceFound, targetFound, ?_, ?_⟩
        · exact not_not.mp (not_or.mp (refuseIf_eq_ok.mp moves)).2
        · exact (not_or.mp (refuseIf_eq_ok.mp canonical)).1
      · exact ih valid edge member
    · exact nomatch valid

namespace NativeSettlementCertificate

variable {fingerprint : NativeSettlementCertificate → Digest}
variable {certificate : NativeSettlementCertificate}

variable {number : Nat} {spec : SettlementCheckpointSpec}

theorem certified_parts (certificate : NativeSettlementCertificate) :
    validateCheckpoints certificate.resourceCount 1 certificate.checkpoints = .ok () ∧
      validateProgress certificate.checkpoints certificate.startCheckpoints
        certificate.progressEdges = .ok () := by
  have passed := certificate.certified
  unfold certify at passed
  iterate 6 obtain ⟨_, -, passed⟩ := bind_eq_ok.mp passed
  obtain ⟨_, checkpoints, progress⟩ := bind_eq_ok.mp passed
  exact ⟨checkpoints, progress⟩

theorem checkpoint_ok : certificate.checkpoint number = .ok spec ↔
      number ≠ 0 ∧ certificate.checkpoints[number - 1]? = some spec := by
  unfold checkpoint
  by_cases zero : number = 0
  · simp [zero]
  · rw [if_neg zero]
    cases found : certificate.checkpoints[number - 1]? with
    | none => simp
    | some candidate =>
      have numbered := (validateCheckpoints_ok certificate.certified_parts.1 found).1
      have same : candidate.checkpoint = number := by omega
      simp [zero, same]

theorem checkpoint_valid (found : certificate.checkpoint number = .ok spec) :
    validateCheckpoint spec certificate.resourceCount = .ok () :=
  (validateCheckpoints_ok certificate.certified_parts.1 (checkpoint_ok.mp found).2).2

theorem checkpoint_length (found : certificate.checkpoint number = .ok spec) :
    spec.resources.length = certificate.resourceCount := by
  have valid := checkpoint_valid found
  unfold validateCheckpoint at valid
  obtain ⟨_, length, -⟩ := bind_eq_ok.mp valid
  exact not_not.mp (refuseIf_eq_ok.mp length)

theorem edge_moves {edge : SettlementProgressEdge} (member : edge ∈ certificate.progressEdges)
    {source target : SettlementCheckpointSpec}
    (sourceFound : certificate.checkpoint edge.source = .ok source)
    (targetFound : certificate.checkpoint edge.target = .ok target) :
    validProgressTransition source target edge.action = true := by
  have progress := certificate.certified_parts.2
  unfold validateProgress at progress
  split_ifs at progress with independent
  · rw [independent.1] at member
    exact nomatch member
  · obtain ⟨_, -, progress⟩ := bind_eq_ok.mp progress
    obtain ⟨reachable, edges, -⟩ := bind_eq_ok.mp progress
    obtain ⟨source', target', sourceFound', targetFound', valid, -⟩ :=
      validateEdges_ok edges edge member
    rw [(checkpoint_ok.mp sourceFound).2] at sourceFound'
    rw [(checkpoint_ok.mp targetFound).2] at targetFound'
    obtain rfl := Option.some.inj sourceFound'
    obtain rfl := Option.some.inj targetFound'
    exact valid

theorem single_starts (single : certificate.checkpoints.length = 1) :
    certificate.startCheckpoints = [1] := by
  have progress := certificate.certified_parts.2
  unfold validateProgress at progress
  split_ifs at progress with independent
  · rw [independent.2, single]
    rfl
  · obtain ⟨_, starts, -⟩ := bind_eq_ok.mp progress
    exact not_not.mp (not_or.mp (refuseIf_eq_ok.mp starts)).1

theorem start_live (starts : certificate.startCheckpoints = [1])
    (several : certificate.checkpoints.length ≠ 1)
    (found : certificate.checkpoint 1 = .ok spec) : ∀ state ∈ spec.resources, state = .live := by
  have progress := certificate.certified_parts.2
  unfold validateProgress at progress
  split_ifs at progress with independent
  · have length := congrArg List.length (starts.symm.trans independent.2)
    rw [List.length_map, List.length_range, List.length_singleton] at length
    exact absurd length.symm several
  · obtain ⟨_, started, -⟩ := bind_eq_ok.mp progress
    intro state member
    by_contra other
    refine (not_or.mp (refuseIf_eq_ok.mp started)).2 ⟨spec, ?_, .inr ⟨state, member, other⟩⟩
    rw [List.head?_eq_getElem?]
    exact (checkpoint_ok.mp found).2

end NativeSettlementCertificate

section Actions

variable {resources after : List SettlementResourceState} {ownerOrdinal : Nat}

variable {action : SettlementAction} {actions : List SettlementAction}

theorem tally_set {state old changed : SettlementResourceState} {other : Nat}
    (found : resources[ownerOrdinal]? = some old) (differ : old ≠ state) :
    tally state (resources.set ownerOrdinal changed) other =
      tally state resources other + if other = ownerOrdinal ∧ changed = state then 1 else 0 := by
  unfold tally
  obtain ⟨inside, same⟩ := List.getElem?_eq_some_iff.mp found
  by_cases here : other = ownerOrdinal
  · subst here
    have before : resources[other] ≠ state := same ▸ differ
    by_cases reached : changed = state
    · simp [inside, reached, before]
    · simp [inside, reached, before]
  · simp [here, Ne.symm here]

theorem applyAction_ok (applied : applyAction resources action = .ok after) :
    ∃ owner old, resources[owner]? = some old ∧ (old = .live ∨ old = .provisionalResult) ∧
      ((action = .finalize owner ∧ after = resources.set owner .dead) ∨
        (action = .publish owner ∧ after = resources.set owner .published)) := by
  cases action with
  | finalize owner =>
    simp only [applyAction] at applied
    split at applied
    · exact ⟨owner, .live, ‹_›, .inl rfl, .inl ⟨rfl, (Except.ok.inj applied).symm⟩⟩
    · exact ⟨owner, .provisionalResult, ‹_›, .inr rfl, .inl ⟨rfl, (Except.ok.inj applied).symm⟩⟩
    · exact nomatch applied
  | publish owner =>
    simp only [applyAction] at applied
    split at applied
    · exact ⟨owner, .provisionalResult, ‹_›, .inr rfl, .inr ⟨rfl, (Except.ok.inj applied).symm⟩⟩
    · exact nomatch applied

theorem length_applyAction
    (applied : applyAction resources action = .ok after) : after.length = resources.length := by
  obtain ⟨owner, old, -, -, ⟨-, rfl⟩ | ⟨-, rfl⟩⟩ := applyAction_ok applied
  · exact List.length_set
  · exact List.length_set

theorem length_applyActions
    (applied : applyActions resources actions = .ok after) : after.length = resources.length := by
  induction actions generalizing resources with
  | nil =>
    obtain rfl := Except.ok.inj applied
    rfl
  | cons action actions ih =>
    obtain ⟨next, first, rest⟩ := bind_eq_ok.mp applied
    exact (ih rest).trans (length_applyAction first)

theorem tally_applyAction (other : Nat) (applied : applyAction resources action = .ok after) :
    tally .dead after other = tally .dead resources other + [action].count (.finalize other) ∧
      tally .published after other =
        tally .published resources other + [action].count (.publish other) := by
  obtain ⟨owner, old, found, open', ⟨rfl, rfl⟩ | ⟨rfl, rfl⟩⟩ := applyAction_ok applied
  all_goals
    have notDead : old ≠ .dead := by rcases open' with rfl | rfl <;> exact nofun
    have notPublished : old ≠ .published := by rcases open' with rfl | rfl <;> exact nofun
    rw [tally_set found notDead, tally_set found notPublished, List.count_singleton,
      List.count_singleton]
    by_cases same : other = owner
    · simp [same]
    · simp [same, Ne.symm same]

theorem tally_applyActions (other : Nat) (applied : applyActions resources actions = .ok after) :
    tally .dead after other = tally .dead resources other + actions.count (.finalize other) ∧
      tally .published after other =
        tally .published resources other + actions.count (.publish other) := by
  induction actions generalizing resources with
  | nil =>
    obtain rfl := Except.ok.inj applied
    exact ⟨rfl, rfl⟩
  | cons action actions ih =>
    obtain ⟨next, first, rest⟩ := bind_eq_ok.mp applied
    obtain ⟨dead, published⟩ := tally_applyAction other first
    obtain ⟨dead', published'⟩ := ih rest
    have split : action :: actions = [action] ++ actions := rfl
    rw [dead', published', dead, published, split, List.count_append, List.count_append,
      add_assoc, add_assoc]
    exact ⟨rfl, rfl⟩

theorem terminalDispositions_ok {dispositions : List SettlementDisposition}
    (settled : terminalDispositions resources = .ok dispositions) :
    ∀ state ∈ resources, state = .dead ∨ state = .published := by
  unfold terminalDispositions at settled
  induction resources generalizing dispositions with
  | nil => exact fun _ member => nomatch member
  | cons first rest ih =>
    rw [List.mapM_cons] at settled
    obtain ⟨disposition, ends, settled⟩ := bind_eq_ok.mp settled
    obtain ⟨others, rests, -⟩ := bind_eq_ok.mp settled
    intro state member
    rcases List.mem_cons.mp member with rfl | member
    · cases state with
      | dead => exact .inl rfl
      | published => exact .inr rfl
      | live | provisionalResult | finalizing => exact nomatch ends
    · exact ih rests state member

theorem publish_mem_actionsFor {checkpoint : SettlementCheckpointSpec}
    {decision : SettlementDecision}
    (chosen : actionsFor checkpoint decision = .ok actions) :
    .publish ownerOrdinal ∈ actions ↔ decision = .accept (.ownedSuccess ownerOrdinal) := by
  unfold actionsFor at chosen
  cases decision with
  | abort reason =>
    obtain rfl := Except.ok.inj chosen
    simp
  | accept outcome =>
    dsimp only at chosen
    split_ifs at chosen with admitted
    obtain rfl := Except.ok.inj chosen
    cases outcome <;> simp [eq_comm]

end Actions

end Semaprax.NativeSettlement
