/-
**Provider evidence has no freedom** (`callable_wire_v3.rs`).

What the gate of provider evidence lets pass is fixed by the checkpoint, the request and the decision:
the records one by one, where every owner ends, and every field of the candidate.

* `settlementActions` — the records of a decision at a checkpoint.
* `replayCleanup_records`, `replayPublish_record` — the records that pass are these.
* `CellsSettled`, `replayCells_settled` — where the owners end.
* `Settled`, `validateCandidateReplay_settled` — everything that passes.
* `evidence_exact` — **what passes is exact, and passes for one frame digest only**.
-/

import Semaprax.CallableWire.Replay

namespace Semaprax.CallableWire

open Library

theorem refuseIf_eq_ok {condition : Prop} [Decidable condition] {error : WireError} {done : Unit} :
    refuseIf condition error = .ok done ↔ ¬condition := by
  unfold refuseIf
  split_ifs with holds <;> simp [holds]

theorem okOr_eq_ok {A : Type} {error : WireError} {value : Option A} {result : A} :
    okOr error value = .ok result ↔ value = some result := by
  cases value <;> simp [okOr]

def payloadOf (request : ExecuteRequest) (owner : UInt32) : UInt64 :=
  (ownedPayload request owner).getD 0

def Checkpoint.cellOf (checkpoint : Checkpoint) (owner : UInt32) : CellState :=
  (checkpoint.stateOf owner).toOption.getD .dead

section Records

variable (identity : RecoveryIdentity) (request : ExecuteRequest) (checkpoint : Checkpoint)

/-- The two records of an owner that is finalized, in its place. -/
def finalizingRecords (entry : UInt32 × Nat) : List ActionRecord :=
  [⟨identity, UInt32.ofNat entry.2, .started, entry.1, payloadOf request entry.1,
      checkpoint.cellOf entry.1, .finalizing, checkpoint.id⟩,
    ⟨identity, UInt32.ofNat entry.2, .completed, entry.1, payloadOf request entry.1,
      .finalizing, .dead, checkpoint.id⟩]

def publishRecord (owner : UInt32) (index : Nat) : ActionRecord :=
  ⟨identity, UInt32.ofNat index, .publish, owner, payloadOf request owner, .provisionalResult,
    .published, checkpoint.id⟩

/-- The records of a decision: for every owner of the order in which the checkpoint has them
finalized, that it was started and that it was completed; then the publication, if there is one. -/
def settlementActions (decision : Decision) : List ActionRecord :=
  (decision.cleanup checkpoint).zipIdx.flatMap (finalizingRecords identity request checkpoint) ++
    decision.publishOwner.toList.map fun owner =>
      publishRecord identity request checkpoint owner (decision.cleanup checkpoint).length

end Records

section Replays

variable {identity : RecoveryIdentity} {request : ExecuteRequest} {checkpoint : Checkpoint}
  {frame : RecoveryFrame} {actions : List ActionRecord}

variable {semanticCursor recordCursor : Nat} {cleanup : List UInt32} {owner : UInt32}
variable {publishOwner : Option UInt32}

theorem ActionRecord.of_fields {record other : ActionRecord}
    (ours : record.identity = other.identity)
    (index : record.semanticActionIndex.toNat = semanticCursor)
    (index' : other.semanticActionIndex = UInt32.ofNat semanticCursor)
    (boundary : record.boundary = other.boundary) (owner : record.ownerOrdinal = other.ownerOrdinal)
    (payload : record.payload = other.payload) (before : record.before = other.before)
    (after : record.after = other.after) (place : record.checkpoint = other.checkpoint) :
    record = other := by
  rw [← index, UInt32.ofNat_toNat] at index'
  cases record
  cases other
  congr
  exact index'.symm

/-- **The records that pass** are two for each owner, in order. -/
theorem replayCleanup_records (own : ∀ action ∈ actions, action.identity = identity)
    (located : frame.checkpoint = checkpoint.id)
    (passed : replayCleanup request frame checkpoint actions cleanup recordCursor semanticCursor =
      .ok ()) :
    actions.drop recordCursor =
        (cleanup.zipIdx semanticCursor).flatMap (finalizingRecords identity request checkpoint) ++
          actions.drop (recordCursor + cleanup.length * 2) ∧
      ∀ owner ∈ cleanup, (ownedPayload request owner).isSome = true := by
  induction cleanup generalizing recordCursor semanticCursor with
  | nil => exact ⟨rfl, List.forall_mem_nil _⟩
  | cons owner cleanup ih =>
    unfold replayCleanup at passed
    obtain ⟨started, first, passed⟩ := bind_eq_ok.mp passed
    obtain ⟨completed, second, passed⟩ := bind_eq_ok.mp passed
    obtain ⟨beforeState, state, passed⟩ := bind_eq_ok.mp passed
    obtain ⟨payload, paid, passed⟩ := bind_eq_ok.mp passed
    obtain ⟨_, fits, passed⟩ := bind_eq_ok.mp passed
    have fits := refuseIf_eq_ok.mp fits
    push Not at fits
    have first := okOr_eq_ok.mp first
    have second := okOr_eq_ok.mp second
    have paid := okOr_eq_ok.mp paid
    obtain ⟨rest, known⟩ := ih passed
    obtain ⟨index, index', place, place', named, named', amount, amount', bound, before, after,
      bound', before', after'⟩ := fits
    have records : [started, completed] =
        finalizingRecords identity request checkpoint (owner, semanticCursor) := by
      unfold finalizingRecords payloadOf Checkpoint.cellOf
      rw [paid, state]
      have ours := own started (List.mem_of_getElem? first)
      have ours' := own completed (List.mem_of_getElem? second)
      rw [located] at place place'
      exact congrArg₂ (fun first second => [first, second])
        (ActionRecord.of_fields ours index rfl bound named amount before after place)
        (ActionRecord.of_fields ours' index' rfl bound' named' amount' before' after' place')
    refine ⟨?_, fun other member => ?_⟩
    · rw [List.zipIdx_cons, List.flatMap_cons, ← records, List.append_assoc, List.length_cons,
        show recordCursor + (cleanup.length + 1) * 2 =
          recordCursor + 2 + cleanup.length * 2 by omega, ← rest,
        List.drop_eq_getElem?_toList_append, List.drop_eq_getElem?_toList_append, first, second]
      rfl
    · rcases List.mem_cons.mp member with rfl | member
      · rw [paid]
        rfl
      · exact known other member

/-- **The record that passes** as the publication of an owner. -/
theorem replayPublish_record (own : ∀ action ∈ actions, action.identity = identity)
    (located : frame.checkpoint = checkpoint.id)
    (passed : replayPublish request frame checkpoint actions recordCursor semanticCursor
      (some owner) = .ok ()) :
    actions[recordCursor]? = some (publishRecord identity request checkpoint owner semanticCursor) ∧
      (ownedPayload request owner).isSome = true := by
  unfold replayPublish at passed
  obtain ⟨record, found, passed⟩ := bind_eq_ok.mp passed
  obtain ⟨initialState, -, passed⟩ := bind_eq_ok.mp passed
  obtain ⟨payload, paid, passed⟩ := bind_eq_ok.mp passed
  have fits := refuseIf_eq_ok.mp passed
  push Not at fits
  have found := okOr_eq_ok.mp found
  have paid := okOr_eq_ok.mp paid
  obtain ⟨index, place, named, amount, bound, before, after, -⟩ := fits
  rw [located] at place
  rw [found, paid]
  refine ⟨congrArg some ?_, rfl⟩
  unfold publishRecord payloadOf
  rw [paid]
  exact ActionRecord.of_fields (own record (List.mem_of_getElem? found)) index rfl bound named amount
    before after place

/-- An owner ends dead, or it is the one that the decision publishes; with the payload of the
request. -/
structure CellSettled (request : ExecuteRequest) (cleanup : List UInt32)
    (publishOwner : Option UInt32) (owner : UInt32) (candidateCell : DispositionCell)
    (frameCell : ResourceCell) : Prop where
  disposition : candidateCell.disposition =
    if owner ∉ cleanup ∧ publishOwner = some owner then .published else .dead
  state : frameCell.state =
    if owner ∉ cleanup ∧ publishOwner = some owner then .published else .dead
  payload : ownedPayload request owner = some candidateCell.payload
  payload' : frameCell.payload = candidateCell.payload

theorem finalState_settled
    {initialState : GraphResourceState} {state : CellState} {disposition : Disposition}
    (ends : finalState cleanup publishOwner owner initialState = .ok state)
    (expected : finalDisposition state = .ok disposition) :
    (disposition = if owner ∉ cleanup ∧ publishOwner = some owner then .published else .dead) ∧
      state = if owner ∉ cleanup ∧ publishOwner = some owner then .published else .dead := by
  unfold finalState at ends
  by_cases finalized : owner ∈ cleanup
  · rw [if_pos finalized] at ends
    cases ends
    cases expected
    rw [if_neg fun both => both.1 finalized, if_neg fun both => both.1 finalized]
    exact ⟨rfl, rfl⟩
  · rw [if_neg finalized] at ends
    by_cases chosen : publishOwner = some owner
    · rw [if_pos chosen] at ends
      cases ends
      cases expected
      rw [if_pos ⟨finalized, chosen⟩, if_pos ⟨finalized, chosen⟩]
      exact ⟨rfl, rfl⟩
    · rw [if_neg chosen] at ends
      rw [if_neg fun both => chosen both.2, if_neg fun both => chosen both.2]
      cases initialState <;> cases ends <;> cases expected
      exact ⟨rfl, rfl⟩

theorem replayCells_settled {first : Nat}
    {cells : List ((DispositionCell × ResourceCell) × GraphResourceState)}
    (passed : replayCells request cleanup publishOwner first cells = .ok ()) {index : Nat}
    {cell : (DispositionCell × ResourceCell) × GraphResourceState} (found : cells[index]? = some cell) :
    CellSettled request cleanup publishOwner (UInt32.ofNat (first + index)) cell.1.1 cell.1.2 := by
  induction cells generalizing first index with
  | nil => cases found
  | cons head cells ih =>
    obtain ⟨⟨candidateCell, frameCell⟩, initialState⟩ := head
    unfold replayCells at passed
    obtain ⟨state, ends, passed⟩ := bind_eq_ok.mp passed
    obtain ⟨disposition, expected, passed⟩ := bind_eq_ok.mp passed
    obtain ⟨_, fits, passed⟩ := bind_eq_ok.mp passed
    cases index with
    | zero =>
      cases found
      have fits := refuseIf_eq_ok.mp fits
      push Not at fits
      obtain ⟨same, paid, disposed, amount⟩ := fits
      obtain ⟨ended, ended'⟩ := finalState_settled ends expected
      exact ⟨disposed.trans ended, same.trans ended', amount ▸ paid, amount.symm⟩
    | succ index =>
      have settled := ih passed found
      rw [Nat.add_right_comm, Nat.add_assoc] at settled
      exact settled

end Replays

def Decision.candidateOutcome : Decision → CandidateOutcome
  | .acceptScalar => .scalar
  | .acceptSemanticFailure => .failure
  | .acceptOwned owner => .owned owner
  | _ => .abort

section Gate

variable (sha256 : Bytes → Digest) (descriptor : CallableDescriptor) (request : ExecuteRequest)

def acceptedTrace (response : Option ExecuteResponse) (decision : Decision) :
    Except WireError Digest :=
  if decision.accepts then do
    let response ← okOr .replayMismatch response
    semanticTraceDigest sha256 descriptor response
  else .ok zeroDigest

/-- What the records and the cells are at a checkpoint. -/
structure Settled (checkpoint : Checkpoint) (frame : RecoveryFrame) (decision : Decision)
    (actions : List ActionRecord) (candidate : CandidateReceipt) : Prop where
  /-- the records are those of the decision, in order -/
  records : actions = settlementActions
    (recoveryIdentityFromCall request.identity descriptor.toDescriptor) request checkpoint decision
  /-- with the payloads of the request -/
  payloads : ∀ action ∈ actions, ownedPayload request action.ownerOrdinal = some action.payload
  covered : candidate.dispositions.length = checkpoint.resources.length
  covered' : frame.cells.length = checkpoint.resources.length
  /-- every owner ends dead or published, and published only as the decision's -/
  cells : ∀ (index : Nat) (candidateCell : DispositionCell),
    candidate.dispositions[index]? = some candidateCell →
      ∃ frameCell, frame.cells[index]? = some frameCell ∧
        CellSettled request (decision.cleanup checkpoint) decision.publishOwner
          (UInt32.ofNat index) candidateCell frameCell

variable {sha256 descriptor request} {checkpoint : Checkpoint} {frame : RecoveryFrame}
  {decision : Decision} {actions : List ActionRecord} {candidate : CandidateReceipt}

theorem checkpoint_id (found : descriptor.graph.checkpoint frame.checkpoint = .ok checkpoint) :
    frame.checkpoint = checkpoint.id := by
  unfold SettlementGraph.checkpoint at found
  obtain ⟨other, -, found⟩ := bind_eq_ok.mp found
  obtain ⟨_, same, found⟩ := bind_eq_ok.mp found
  cases found
  exact (not_not.mp (refuseIf_eq_ok.mp same)).symm

theorem payloads_of_records {identity : RecoveryIdentity}
    (known : ∀ owner ∈ decision.cleanup checkpoint, (ownedPayload request owner).isSome = true)
    (published : ∀ owner, decision.publishOwner = some owner →
      (ownedPayload request owner).isSome = true) :
    ∀ action ∈ settlementActions identity request checkpoint decision,
      ownedPayload request action.ownerOrdinal = some action.payload := by
  have paid : ∀ owner, (ownedPayload request owner).isSome = true →
      ownedPayload request owner = some (payloadOf request owner) := by
    intro owner some'
    obtain ⟨payload, same⟩ := Option.isSome_iff_exists.mp some'
    unfold payloadOf
    rw [same]
    rfl
  intro action member
  rcases List.mem_append.mp member with member | member
  · obtain ⟨⟨owner, index⟩, listed, member⟩ := List.mem_flatMap.mp member
    have among : owner ∈ decision.cleanup checkpoint := (List.mem_zipIdx' listed).2 ▸
      List.getElem_mem _
    rcases List.mem_cons.mp member with rfl | member
    · exact paid owner (known owner among)
    · obtain rfl := List.mem_singleton.mp member
      exact paid owner (known owner among)
  · obtain ⟨owner, listed, rfl⟩ := List.mem_map.mp member
    exact paid owner (published owner (Option.mem_toList.mp listed))

def Decision.actionCount (decision : Decision) (checkpoint : Checkpoint) : Nat :=
  (decision.cleanup checkpoint).length + if decision.publishOwner.isSome then 1 else 0

theorem replayActionsAndDispositions_settled (own : ∀ action ∈ actions,
      action.identity = recoveryIdentityFromCall request.identity descriptor.toDescriptor)
    (passed : replayActionsAndDispositions sha256 descriptor request frame decision actions
      candidate = .ok ()) :
    ∃ checkpoint, descriptor.graph.checkpoint frame.checkpoint = .ok checkpoint ∧
      Settled descriptor request checkpoint frame decision actions candidate ∧
      candidate.frameDigest = frame.preCandidateDigest ∧
      actionChainDigest sha256 candidate.decisionDigest (decision.actionCount checkpoint) actions =
        .ok candidate.actionEvidenceDigest := by
  unfold replayActionsAndDispositions at passed
  obtain ⟨checkpoint, found, passed⟩ := bind_eq_ok.mp passed
  obtain ⟨_, -, passed⟩ := bind_eq_ok.mp passed
  obtain ⟨_, counted, passed⟩ := bind_eq_ok.mp passed
  obtain ⟨chained, chain, passed⟩ := bind_eq_ok.mp passed
  obtain ⟨_, digests, passed⟩ := bind_eq_ok.mp passed
  obtain ⟨_, cleaned, passed⟩ := bind_eq_ok.mp passed
  obtain ⟨_, published, passed⟩ := bind_eq_ok.mp passed
  obtain ⟨_, covers, passed⟩ := bind_eq_ok.mp passed
  have counted := not_not.mp (refuseIf_eq_ok.mp counted)
  have digests := refuseIf_eq_ok.mp digests
  have covers := refuseIf_eq_ok.mp covers
  push Not at digests covers
  obtain ⟨-, -, covered, covered'⟩ := covers
  have located := checkpoint_id found
  obtain ⟨records, known⟩ := replayCleanup_records own located cleaned
  rw [List.drop_zero, Nat.zero_add] at records
  have publication : actions.drop ((decision.cleanup checkpoint).length * 2) =
        (decision.publishOwner.toList.map fun owner => publishRecord
          (recoveryIdentityFromCall request.identity descriptor.toDescriptor) request checkpoint owner
          (decision.cleanup checkpoint).length) ∧
      ∀ owner, decision.publishOwner = some owner → (ownedPayload request owner).isSome = true := by
    cases chosen : decision.publishOwner with
    | none =>
      rw [chosen] at counted
      exact ⟨List.drop_eq_nil_of_le counted.le, fun _ same => by cases same⟩
    | some owner =>
      rw [chosen] at counted published
      obtain ⟨record, paid⟩ := replayPublish_record own located published
      refine ⟨?_, fun other same => by cases same; exact paid⟩
      have last : actions.length ≤ (decision.cleanup checkpoint).length * 2 + 1 := counted.le
      rw [List.drop_eq_getElem?_toList_append, record, List.drop_eq_nil_of_le last]
      rfl
  have exactly : actions = settlementActions
      (recoveryIdentityFromCall request.identity descriptor.toDescriptor) request checkpoint
      decision := by
    rw [records, publication.1]
    rfl
  refine ⟨checkpoint, found, ⟨exactly, ?_, covered, covered', ?_⟩, digests.2.2.symm, ?_⟩
  · rw [exactly]
    exact payloads_of_records known publication.2
  · intro index candidateCell listed
    have short : index < candidate.dispositions.length := (List.getElem?_eq_some_iff.mp listed).1
    have frameCell := List.getElem?_eq_getElem (show index < frame.cells.length by omega)
    have state := List.getElem?_eq_getElem (show index < checkpoint.resources.length by omega)
    have zipped : ((candidate.dispositions.zip frame.cells).zip checkpoint.resources)[index]? =
        some ((candidateCell, frame.cells[index]), checkpoint.resources[index]) := by
      rw [List.getElem?_zip_eq_some, List.getElem?_zip_eq_some]
      exact ⟨⟨listed, frameCell⟩, state⟩
    refine ⟨_, frameCell, ?_⟩
    have settled := replayCells_settled passed zipped
    rw [Nat.zero_add] at settled
    exact settled
  · rw [digests.2.1]
    exact chain

/-- What passes the gate, at a checkpoint: the records, the cells and every field of the candidate. -/
structure Exact (sha256 : Bytes → Digest) (descriptor : CallableDescriptor) (request : ExecuteRequest)
    (requestStorage : Bytes) (executeReturnCode : UInt32) (responseStorage : Bytes)
    (response : Option ExecuteResponse) (decision : Decision) (decisionStorage : Bytes)
    (checkpoint : Checkpoint) (frame : RecoveryFrame) (actions : List ActionRecord)
    (candidate : CandidateReceipt) : Prop
    extends Settled descriptor request checkpoint frame decision actions candidate where
  identity : candidate.identity =
    recoveryIdentityFromCall request.identity descriptor.toDescriptor
  requested : candidate.requestDigest = requestDigest sha256 requestStorage
  responded : candidate.responseStorageDigest =
    responseStorageDigest sha256 executeReturnCode responseStorage
  traced : acceptedTrace sha256 descriptor response decision = .ok candidate.semanticTraceDigest
  framed : candidate.frameDigest = frame.preCandidateDigest
  decided : candidate.decisionDigest = decisionDigest sha256 decisionStorage
  evidenced : actionChainDigest sha256 candidate.decisionDigest (decision.actionCount checkpoint)
    actions = .ok candidate.actionEvidenceDigest
  outcome : candidate.outcome = decision.candidateOutcome
  idle : candidate.activeFinalizers = 0

theorem outcomesAgree_candidate {outcome : ExecuteOutcome}
    (agree : outcomesAgree decision outcome frame candidate = true) :
    candidate.outcome = decision.candidateOutcome := by
  unfold outcomesAgree at agree
  split at agree
  · assumption
  · assumption
  · rename_i same
    have fits := of_decide_eq_true agree
    rw [same]
    exact congrArg CandidateOutcome.owned fits.2.1.symm
  · cases agree

theorem candidateOutcome_abort (aborts : ¬decision.accepts = true) :
    decision.candidateOutcome = .abort := by
  cases decision with
  | acceptScalar | acceptSemanticFailure | acceptOwned owner => exact absurd rfl aborts
  | _ => rfl

theorem validateSuccessfulExecuteResponse_trace {requestStorage : Bytes}
    {executeReturnCode : UInt32} {responseStorage : Bytes} {response : ExecuteResponse}
    {validated : ValidatedSuccessfulExecute}
    (valid : validateSuccessfulExecuteResponse sha256 descriptor request requestStorage
      executeReturnCode responseStorage response = .ok validated) :
    semanticTraceDigest sha256 descriptor response = .ok validated.semanticTraceDigest := by
  unfold validateSuccessfulExecuteResponse at valid
  iterate 4 obtain ⟨_, -, valid⟩ := bind_eq_ok.mp valid
  obtain ⟨digest, traced, valid⟩ := bind_eq_ok.mp valid
  iterate 3 obtain ⟨_, -, valid⟩ := bind_eq_ok.mp valid
  cases valid
  exact traced

theorem validateCandidateReplay_exact {requestStorage : Bytes} {executeReturnCode : UInt32}
    {responseStorage : Bytes} {response : Option ExecuteResponse} {decision : SettlementDecision}
    {decisionStorage : Bytes}
    (passed : validateCandidateReplay sha256 descriptor request requestStorage executeReturnCode
      responseStorage response frame decision decisionStorage actions candidate = .ok ()) :
    ∃ checkpoint, descriptor.graph.checkpoint frame.checkpoint = .ok checkpoint ∧
      Exact sha256 descriptor request requestStorage executeReturnCode responseStorage response
        decision.decision decisionStorage checkpoint frame actions candidate := by
  unfold validateCandidateReplay at passed
  obtain ⟨_, identities, passed⟩ := bind_eq_ok.mp passed
  obtain ⟨_, -, passed⟩ := bind_eq_ok.mp passed
  obtain ⟨_, -, passed⟩ := bind_eq_ok.mp passed
  obtain ⟨_, digests, passed⟩ := bind_eq_ok.mp passed
  obtain ⟨_, decided, passed⟩ := bind_eq_ok.mp passed
  obtain ⟨_, -, passed⟩ := bind_eq_ok.mp passed
  have identities := refuseIf_eq_ok.mp identities
  have digests := refuseIf_eq_ok.mp digests
  have decided := refuseIf_eq_ok.mp decided
  push Not at identities digests decided
  obtain ⟨-, -, identity, own⟩ := identities
  obtain ⟨-, requested, -, responded, -, -, -, idle, -⟩ := digests
  have settles : ∀ (_ : replayActionsAndDispositions sha256 descriptor request frame
      decision.decision actions candidate = .ok ())
      (_ : acceptedTrace sha256 descriptor response decision.decision =
        .ok candidate.semanticTraceDigest)
      (_ : candidate.outcome = decision.decision.candidateOutcome),
      ∃ checkpoint, descriptor.graph.checkpoint frame.checkpoint = .ok checkpoint ∧
        Exact sha256 descriptor request requestStorage executeReturnCode responseStorage response
          decision.decision decisionStorage checkpoint frame actions candidate := by
    intro replayed traced outcome
    obtain ⟨checkpoint, found, settled, framed, evidenced⟩ :=
      replayActionsAndDispositions_settled own replayed
    exact ⟨checkpoint, found, settled, identity, requested, responded, traced, framed, decided.2,
      evidenced, outcome, idle⟩
  by_cases accepts : decision.decision.accepts = true
  · rw [if_pos accepts] at passed
    obtain ⟨response', given, passed⟩ := bind_eq_ok.mp passed
    unfold replayAccepted at passed
    obtain ⟨_, -, passed⟩ := bind_eq_ok.mp passed
    obtain ⟨validated, valid, passed⟩ := bind_eq_ok.mp passed
    obtain ⟨_, same, passed⟩ := bind_eq_ok.mp passed
    obtain ⟨_, agree, passed⟩ := bind_eq_ok.mp passed
    have same := refuseIf_eq_ok.mp same
    push Not at same
    refine settles passed ?_ (outcomesAgree_candidate (not_not.mp (refuseIf_eq_ok.mp agree)))
    unfold acceptedTrace
    rw [if_pos accepts]
    refine bind_eq_ok.mpr ⟨response', given, ?_⟩
    rw [same.2.2.2.2.2]
    exact validateSuccessfulExecuteResponse_trace valid
  · rw [if_neg accepts] at passed
    unfold replayAborted at passed
    obtain ⟨_, blank, passed⟩ := bind_eq_ok.mp passed
    have blank := refuseIf_eq_ok.mp blank
    push Not at blank
    refine settles passed ?_ (blank.2.2.trans (candidateOutcome_abort accepts).symm)
    unfold acceptedTrace
    rw [if_neg accepts, blank.1]

end Gate

section Freedom

variable {sha256 : Bytes → Digest} {descriptor : CallableDescriptor} {request : ExecuteRequest}
  {requestStorage : Bytes} {executeReturnCode : UInt32} {responseStorage : Bytes}
  {response : Option ExecuteResponse} {decision : Decision} {decisionStorage : Bytes}
  {checkpoint : Checkpoint} {frame frame' : RecoveryFrame} {actions actions' : List ActionRecord}
  {candidate candidate' : CandidateReceipt}

theorem Settled.dispositions_eq
    (settled : Settled descriptor request checkpoint frame decision actions candidate)
    (settled' : Settled descriptor request checkpoint frame' decision actions' candidate') :
    candidate.dispositions = candidate'.dispositions := by
  apply List.ext_getElem?
  intro index
  cases found : candidate.dispositions[index]? with
  | none =>
    have past := List.getElem?_eq_none_iff.mp found
    rw [settled.covered, ← settled'.covered] at past
    exact (List.getElem?_eq_none_iff.mpr past).symm
  | some cell =>
    have short : index < candidate'.dispositions.length := by
      rw [settled'.covered, ← settled.covered]
      exact (List.getElem?_eq_some_iff.mp found).1
    have found' := List.getElem?_eq_getElem short
    obtain ⟨frameCell, -, ends⟩ := settled.cells index cell found
    obtain ⟨frameCell', -, ends'⟩ := settled'.cells index _ found'
    rw [found']
    refine congrArg some ?_
    have disposition := ends.disposition.trans ends'.disposition.symm
    have payload := Option.some.inj (ends.payload.symm.trans ends'.payload)
    cases cell
    cases equal : candidate'.dispositions[index]
    rw [equal] at disposition payload
    cases disposition
    cases payload
    rfl

/-- **Two pieces of evidence** at one checkpoint with one frame digest are the same. -/
theorem Exact.unique
    (exact : Exact sha256 descriptor request requestStorage executeReturnCode responseStorage response
      decision decisionStorage checkpoint frame actions candidate)
    (exact' : Exact sha256 descriptor request requestStorage executeReturnCode responseStorage
      response decision decisionStorage checkpoint frame' actions' candidate')
    (digest : frame.preCandidateDigest = frame'.preCandidateDigest) :
    actions = actions' ∧ candidate = candidate' := by
  have same : actions = actions' := exact.records.trans exact'.records.symm
  refine ⟨same, ?_⟩
  have identity := exact.identity.trans exact'.identity.symm
  have requested := exact.requested.trans exact'.requested.symm
  have responded := exact.responded.trans exact'.responded.symm
  have traced := Except.ok.inj (exact.traced.symm.trans exact'.traced)
  have framed := exact.framed.trans (digest.trans exact'.framed.symm)
  have decided := exact.decided.trans exact'.decided.symm
  have evidenced := exact.evidenced
  rw [same, decided, exact'.evidenced] at evidenced
  have evidence := Except.ok.inj evidenced
  have outcome := exact.outcome.trans exact'.outcome.symm
  have idle := exact.idle.trans exact'.idle.symm
  have dispositions := exact.toSettled.dispositions_eq exact'.toSettled
  cases candidate
  cases candidate'
  simp_all

end Freedom

/-- **Provider evidence has no freedom.** What passes the gate is exact: the records are that every
owner of the checkpoint's order was started and completed, in order, and then the one publication of
an accepted owner, with the payloads of the request; every owner ends dead or published, and published
only as that owner. What passes twice at one checkpoint, for frames with one digest, is the same. -/
theorem evidence_exact (sha256 : Bytes → Digest) (descriptor : CallableDescriptor)
    (request : ExecuteRequest) (requestStorage : Bytes) (executeReturnCode : UInt32)
    (responseStorage : Bytes) (response : Option ExecuteResponse) (decision : SettlementDecision)
    (decisionStorage : Bytes) :
    (∀ frame actions candidate,
      validateCandidateReplay sha256 descriptor request requestStorage executeReturnCode
        responseStorage response frame decision decisionStorage actions candidate = .ok () →
      ∃ checkpoint, descriptor.graph.checkpoint frame.checkpoint = .ok checkpoint ∧
        Settled descriptor request checkpoint frame decision.decision actions candidate) ∧
    ∀ frame frame' actions actions' candidate candidate',
      validateCandidateReplay sha256 descriptor request requestStorage executeReturnCode
        responseStorage response frame decision decisionStorage actions candidate = .ok () →
      validateCandidateReplay sha256 descriptor request requestStorage executeReturnCode
        responseStorage response frame' decision decisionStorage actions' candidate' = .ok () →
      frame.checkpoint = frame'.checkpoint →
      frame.preCandidateDigest = frame'.preCandidateDigest →
        actions = actions' ∧ candidate = candidate' := by
  refine ⟨fun frame actions candidate passed => ?_,
    fun frame frame' actions actions' candidate candidate' passed passed' same digest => ?_⟩
  · obtain ⟨checkpoint, found, exact⟩ := validateCandidateReplay_exact passed
    exact ⟨checkpoint, found, exact.toSettled⟩
  · obtain ⟨checkpoint, found, exact⟩ := validateCandidateReplay_exact passed
    obtain ⟨checkpoint', found', exact'⟩ := validateCandidateReplay_exact passed'
    rw [same, found'] at found
    cases found
    exact exact.unique exact' digest

end Semaprax.CallableWire
