/-
**The gate of provider evidence** (`callable_wire_v3.rs`).

A provider that has settled a call hands over a recovery frame, its action records and a candidate
receipt. None of them is trusted: each is compared with the settlement graph, with the request and the
decision, and with the digests of both.

* `SettlementGraph`, `CallableDescriptor` — what the gate needs of a descriptor.
* `requestDigest`, `actionChainDigest`, `semanticTraceDigest` — the digests of the evidence.
* `validateSuccessfulExecuteResponse` — a response that the execution of the call returned.
* `replayActionsAndDispositions` — the records and the cells, one after the other.
* `validateCandidateReplay` — the whole gate (`validate_candidate_replay_preencoded`).

SHA-256 is a parameter.
-/

import Semaprax.Library.Results
import Semaprax.CallableWire.Formats

namespace Semaprax.CallableWire

open Library

inductive GraphResourceState
  | live
  | provisionalResult
  | finalizing
  | dead
  | published
deriving DecidableEq

inductive GraphOutcome
  | scalarSuccess
  | semanticFailure
  | ownedSuccess (owner : UInt32)
deriving DecidableEq

inductive TraceOutcome
  | scalarSuccess
  | ownedSuccess
  | failure (selectedOrdinal : UInt32)
deriving DecidableEq

structure TraceEvidence where
  digest : Digest
  ordinals : List UInt32
  outcome : TraceOutcome
deriving DecidableEq

inductive GraphAction
  | finalize (owner : UInt32)
  | stageOwnedResult (owner : UInt32)
  | certifyOutcome (evidence : TraceEvidence)
deriving DecidableEq

structure Checkpoint where
  id : UInt32
  resources : List GraphResourceState
  outcome : Option GraphOutcome
  abortOrder : List UInt32
  acceptOrder : List UInt32

structure Edge where
  source : UInt32
  target : UInt32
  action : GraphAction

structure SettlementGraph where
  checkpoints : List Checkpoint
  edges : List Edge

/-- A descriptor with its settlement graph. -/
structure CallableDescriptor extends Descriptor where
  tracePathCertificate : Digest
  graph : SettlementGraph

def refuseIf (condition : Prop) [Decidable condition] (error : WireError) : Except WireError Unit :=
  if condition then .error error else .ok ()

def okOr {A : Type} (error : WireError) : Option A → Except WireError A
  | some value => .ok value
  | none => .error error

/-- The checkpoint that stands in the place of an ordinal. -/
def SettlementGraph.checkpointAt (graph : SettlementGraph) (checkpoint : UInt32) :
    Except WireError Checkpoint := do
  refuseIf (checkpoint = 0) .replayMismatch
  okOr .replayMismatch graph.checkpoints[checkpoint.toNat - 1]?

/-- The checkpoint of an ordinal, which it bears itself. -/
def SettlementGraph.checkpoint (graph : SettlementGraph) (checkpoint : UInt32) :
    Except WireError Checkpoint := do
  let found ← graph.checkpointAt checkpoint
  refuseIf (found.id ≠ checkpoint) .replayMismatch
  pure found

def graphStateToCell : GraphResourceState → Except WireError CellState
  | .live => .ok .live
  | .provisionalResult => .ok .provisionalResult
  | .dead => .ok .dead
  | .finalizing => .error .replayMismatch
  | .published => .error .replayMismatch

def recoveryIdentityFromCall (call : CallIdentity) (descriptor : Descriptor) : RecoveryIdentity :=
  ⟨call, descriptor.fingerprints.recoveryContract, descriptor.fingerprints.settlementGraph⟩

section Digests

variable (sha256 : Bytes → Digest)

def requestDigestDomain : Bytes := ascii "semaprax.native-callable-request-digest.v3" ++ [0]

def responseStorageDigestDomain : Bytes :=
  ascii "semaprax.native-callable-execute-response-storage-digest.v3" ++ [0]

def decisionDigestDomain : Bytes := ascii "semaprax.native-callable-decision-digest.v3" ++ [0]

def actionChainSeedDomain : Bytes := ascii "semaprax.native-callable-action-chain-seed.v3" ++ [0]

def actionChainStepDomain : Bytes := ascii "semaprax.native-callable-action-chain-step.v3" ++ [0]

def traceEvidenceDomain : Bytes := ascii "semaprax.native-recovery-trace-evidence.v1" ++ [0]

/-- A field of a digest, behind its length. -/
def hashField (bytes : Bytes) : Bytes := (leBytes 8 bytes.length).reverse ++ bytes

def requestDigest (bytes : Bytes) : Digest := hashFramed sha256 requestDigestDomain bytes

def responseStorageDigest (code : UInt32) (storage : Bytes) : Digest :=
  sha256 (responseStorageDigestDomain ++ u32Bytes code ++ hashField storage)

def decisionDigest (bytes : Bytes) : Digest := hashFramed sha256 decisionDigestDomain bytes

def chainRecords (digest : Digest) (index : Nat) : List ActionRecord → Except WireError Digest
  | [] => .ok digest
  | record :: records => do
      let bytes ← record.encodeFixed
      chainRecords
        (sha256 (actionChainStepDomain ++ digest.val ++ leBytes 8 index ++ hashField bytes))
        (index + 1) records

def actionChainDigest (decision : Digest) (expectedSemanticActionCount : Nat)
    (records : List ActionRecord) : Except WireError Digest :=
  chainRecords sha256
    (sha256 (actionChainSeedDomain ++ decision.val ++ leBytes 8 expectedSemanticActionCount)) 0
    records

def TraceOutcome.bytes : TraceOutcome → Bytes
  | .scalarSuccess => [1]
  | .ownedSuccess => [2]
  | .failure selectedOrdinal => 3 :: u32Bytes selectedOrdinal

/-- What a response says of its trace; a failure is one of its events. -/
def ExecuteResponse.traceOutcome (response : ExecuteResponse) : Except WireError TraceOutcome :=
  match response.outcome with
  | .scalar _ => .ok .scalarSuccess
  | .owned _ _ => .ok .ownedSuccess
  | .semanticFailure selectedOrdinal => do
      refuseIf (selectedOrdinal ∉ response.eventOrdinals) .replayMismatch
      pure (.failure selectedOrdinal)

/-- The outcome that the checkpoint of a response has to have. -/
def ExecuteOutcome.graphOutcome : ExecuteOutcome → GraphOutcome
  | .scalar _ => .scalarSuccess
  | .semanticFailure _ => .semanticFailure
  | .owned ownerOrdinal _ => .ownedSuccess ownerOrdinal

/-- The digest of the trace of a response, which exactly one edge of the graph certifies. -/
def semanticTraceDigest (descriptor : CallableDescriptor) (response : ExecuteResponse) :
    Except WireError Digest := do
  let outcome ← response.traceOutcome
  let digest := sha256 (traceEvidenceDomain ++ descriptor.tracePathCertificate.val ++
    leBytes 8 response.eventOrdinals.length ++ response.eventOrdinals.flatMap u32Bytes ++
    outcome.bytes)
  let checkpoint ← descriptor.graph.checkpointAt response.checkpoint
  refuseIf (checkpoint.outcome ≠ some response.outcome.graphOutcome) .replayMismatch
  refuseIf ((descriptor.graph.edges.countP fun edge => edge.target = checkpoint.id ∧
    edge.action = .certifyOutcome ⟨digest, response.eventOrdinals, outcome⟩) ≠ 1) .replayMismatch
  pure digest

end Digests

def RequestArgument.owner : RequestArgument → Option UInt32
  | .owned _ ownerOrdinal _ => some ownerOrdinal
  | _ => none

def RequestArgument.payloadOf (owner : UInt32) : RequestArgument → Option UInt64
  | .owned _ ownerOrdinal payload => if ownerOrdinal = owner then some payload else none
  | _ => none

def ownedPayload (request : ExecuteRequest) (owner : UInt32) : Option UInt64 :=
  request.arguments.findSome? (RequestArgument.payloadOf owner)

def validateOwnedPayloads (descriptor : Descriptor) (request : ExecuteRequest) :
    Except WireError Unit := do
  let owners := request.arguments.filterMap RequestArgument.owner
  refuseIf (∃ owner ∈ List.range descriptor.capacities.resourceCount.toNat,
    owners.count (UInt32.ofNat owner) ≠ 1) .replayMismatch
  refuseIf (owners.length ≠ descriptor.capacities.resourceCount.toNat) .replayMismatch

structure ValidatedSuccessfulExecute where
  requestDigest : Digest
  responseStorageDigest : Digest
  semanticTraceDigest : Digest

section Gate

variable (sha256 : Bytes → Digest) (descriptor : CallableDescriptor) (request : ExecuteRequest)

/-- The owner of an owned outcome has the payload of the request, and is the provisional result. -/
def validateOutcome (checkpoint : Checkpoint) : ExecuteOutcome → Except WireError Unit
  | .owned ownerOrdinal payload =>
    refuseIf (ownedPayload request ownerOrdinal ≠ some payload ∨
      checkpoint.resources[ownerOrdinal.toNat]? ≠ some .provisionalResult) .replayMismatch
  | _ => .ok ()

def validateSuccessfulExecuteResponse (requestStorage : Bytes) (executeReturnCode : UInt32)
    (responseStorage : Bytes) (response : ExecuteResponse) :
    Except WireError ValidatedSuccessfulExecute := do
  refuseIf (executeReturnCode ≠ 0 ∨
    responseStorage.length ≠ descriptor.capacities.executeResponse.toNat ∨
    response.identity ≠ request.identity) .crossBinding
  refuseIf (requestStorage.length ≠ descriptor.capacities.request.toNat) .capacityMismatch
  refuseIf (response.requestDigest ≠ requestDigest sha256 requestStorage) .digestMismatch
  let checkpoint ← descriptor.graph.checkpoint response.checkpoint
  let traceDigest ← semanticTraceDigest sha256 descriptor response
  refuseIf (traceDigest = zeroDigest) .digestMismatch
  validateOwnedPayloads descriptor.toDescriptor request
  validateOutcome request checkpoint response.outcome
  pure ⟨requestDigest sha256 requestStorage,
    responseStorageDigest sha256 executeReturnCode responseStorage, traceDigest⟩

/-- The order in which a decision has the owners of a checkpoint finalized. -/
def Decision.cleanup (decision : Decision) (checkpoint : Checkpoint) : List UInt32 :=
  match decision with
  | .acceptScalar => checkpoint.acceptOrder
  | .acceptSemanticFailure => checkpoint.acceptOrder
  | .acceptOwned _ => checkpoint.acceptOrder
  | _ => checkpoint.abortOrder

def Decision.publishOwner : Decision → Option UInt32
  | .acceptOwned owner => some owner
  | _ => none

def Checkpoint.stateOf (checkpoint : Checkpoint) (owner : UInt32) : Except WireError CellState := do
  let state ← okOr .replayMismatch checkpoint.resources[owner.toNat]?
  graphStateToCell state

def replayCleanup (frame : RecoveryFrame) (checkpoint : Checkpoint) (actions : List ActionRecord) :
    List UInt32 → Nat → Nat → Except WireError Unit
  | [], _, _ => .ok ()
  | owner :: cleanup, recordCursor, semanticCursor => do
      let started ← okOr .replayMismatch actions[recordCursor]?
      let completed ← okOr .replayMismatch actions[recordCursor + 1]?
      let beforeState ← checkpoint.stateOf owner
      let payload ← okOr .replayMismatch (ownedPayload request owner)
      refuseIf (started.semanticActionIndex.toNat ≠ semanticCursor ∨
        completed.semanticActionIndex.toNat ≠ semanticCursor ∨
        started.checkpoint ≠ frame.checkpoint ∨ completed.checkpoint ≠ frame.checkpoint ∨
        started.ownerOrdinal ≠ owner ∨ completed.ownerOrdinal ≠ owner ∨
        started.payload ≠ payload ∨ completed.payload ≠ payload ∨
        started.boundary ≠ .started ∨ started.before ≠ beforeState ∨
        started.after ≠ .finalizing ∨ completed.boundary ≠ .completed ∨
        completed.before ≠ .finalizing ∨ completed.after ≠ .dead) .replayMismatch
      replayCleanup frame checkpoint actions cleanup (recordCursor + 2) (semanticCursor + 1)

def replayPublish (frame : RecoveryFrame) (checkpoint : Checkpoint) (actions : List ActionRecord)
    (recordCursor semanticCursor : Nat) : Option UInt32 → Except WireError Unit
  | none => .ok ()
  | some owner => do
      let record ← okOr .replayMismatch actions[recordCursor]?
      let initialState ← checkpoint.stateOf owner
      let payload ← okOr .replayMismatch (ownedPayload request owner)
      refuseIf (record.semanticActionIndex.toNat ≠ semanticCursor ∨
        record.checkpoint ≠ frame.checkpoint ∨ record.ownerOrdinal ≠ owner ∨
        record.payload ≠ payload ∨ record.boundary ≠ .publish ∨
        record.before ≠ .provisionalResult ∨ record.after ≠ .published ∨
        initialState ≠ .provisionalResult) .replayMismatch

def finalDisposition : CellState → Except WireError Disposition
  | .dead => .ok .dead
  | .published => .ok .published
  | _ => .error .replayMismatch

def finalState (cleanup : List UInt32) (publishOwner : Option UInt32) (owner : UInt32)
    (initialState : GraphResourceState) : Except WireError CellState :=
  if owner ∈ cleanup then .ok .dead
  else if publishOwner = some owner then .ok .published
  else graphStateToCell initialState

def replayCells (cleanup : List UInt32) (publishOwner : Option UInt32) :
    Nat → List ((DispositionCell × ResourceCell) × GraphResourceState) → Except WireError Unit
  | _, [] => .ok ()
  | owner, ((candidateCell, frameCell), initialState) :: cells => do
      let state ← finalState cleanup publishOwner (UInt32.ofNat owner) initialState
      let expected ← finalDisposition state
      refuseIf (frameCell.state ≠ state ∨
        ownedPayload request (UInt32.ofNat owner) ≠ some frameCell.payload ∨
        candidateCell.disposition ≠ expected ∨ candidateCell.payload ≠ frameCell.payload)
        .replayMismatch
      replayCells cleanup publishOwner (owner + 1) cells

/-- The records are those of the decision, and every owner is dead or published at the end. -/
def replayActionsAndDispositions (frame : RecoveryFrame) (decision : Decision)
    (actions : List ActionRecord) (candidate : CandidateReceipt) : Except WireError Unit := do
  let checkpoint ← descriptor.graph.checkpoint frame.checkpoint
  validateOwnedPayloads descriptor.toDescriptor request
  let cleanup := decision.cleanup checkpoint
  let publishOwner := decision.publishOwner
  let published := if publishOwner.isSome then 1 else 0
  refuseIf (actions.length ≠ cleanup.length * 2 + published) .replayMismatch
  let expectedActionDigest ← actionChainDigest sha256 candidate.decisionDigest
    (cleanup.length + published) actions
  refuseIf (frame.actionChainDigest ≠ expectedActionDigest ∨
    candidate.actionEvidenceDigest ≠ expectedActionDigest ∨
    frame.preCandidateDigest ≠ candidate.frameDigest) .digestMismatch
  replayCleanup request frame checkpoint actions cleanup 0 0
  replayPublish request frame checkpoint actions (cleanup.length * 2) cleanup.length publishOwner
  -- the cursor of the records stands at their end
  refuseIf (cleanup.length * 2 + published ≠ actions.length ∨
    frame.nextAction.toNat ≠ cleanup.length + published ∨
    candidate.dispositions.length ≠ checkpoint.resources.length ∨
    frame.cells.length ≠ checkpoint.resources.length) .replayMismatch
  replayCells request cleanup publishOwner 0
    ((candidate.dispositions.zip frame.cells).zip checkpoint.resources)

def Decision.expectedCode : Decision → UInt32
  | .abortHostUnwind => preExecuteHostUnwindCode
  | .abortPhysical expected => expected
  | _ => 0

def Decision.accepts : Decision → Bool
  | .acceptScalar => true
  | .acceptSemanticFailure => true
  | .acceptOwned _ => true
  | _ => false

def outcomesAgree (decision : Decision) (outcome : ExecuteOutcome) (frame : RecoveryFrame)
    (candidate : CandidateReceipt) : Bool :=
  match decision, outcome, candidate.outcome with
  | .acceptScalar, .scalar _, .scalar => true
  | .acceptSemanticFailure, .semanticFailure _, .failure => true
  | .acceptOwned expected, .owned ownerOrdinal payload, .owned actual =>
    expected = ownerOrdinal ∧ expected = actual ∧
      (frame.cells[expected.toNat]?).any (fun cell => cell.payload = payload) ∧
      (candidate.dispositions[expected.toNat]?).any fun cell => cell.payload = payload
  | _, _, _ => false

/-- The evidence of a call that was accepted. -/
def replayAccepted (requestStorage : Bytes) (executeReturnCode : UInt32) (responseStorage : Bytes)
    (response : ExecuteResponse) (frame : RecoveryFrame) (decision : Decision)
    (actions : List ActionRecord) (candidate : CandidateReceipt) : Except WireError Unit := do
  refuseIf (response.checkpoint ≠ frame.checkpoint) .crossBinding
  let validated ← validateSuccessfulExecuteResponse sha256 descriptor request requestStorage
    executeReturnCode responseStorage response
  refuseIf (frame.requestDigest ≠ validated.requestDigest ∨
    candidate.requestDigest ≠ validated.requestDigest ∨
    frame.responseStorageDigest ≠ validated.responseStorageDigest ∨
    candidate.responseStorageDigest ≠ validated.responseStorageDigest ∨
    frame.semanticTraceDigest ≠ validated.semanticTraceDigest ∨
    candidate.semanticTraceDigest ≠ validated.semanticTraceDigest) .digestMismatch
  refuseIf (¬outcomesAgree decision response.outcome frame candidate) .replayMismatch
  replayActionsAndDispositions sha256 descriptor request frame decision actions candidate

/-- The evidence of a call that was aborted. -/
def replayAborted (frame : RecoveryFrame) (decision : Decision) (actions : List ActionRecord)
    (candidate : CandidateReceipt) : Except WireError Unit := do
  refuseIf (candidate.semanticTraceDigest ≠ zeroDigest ∨ frame.semanticTraceDigest ≠ zeroDigest ∨
    candidate.outcome ≠ .abort) .replayMismatch
  replayActionsAndDispositions sha256 descriptor request frame decision actions candidate

def validateCandidateReplay (requestStorage : Bytes) (executeReturnCode : UInt32)
    (responseStorage : Bytes) (response : Option ExecuteResponse) (frame : RecoveryFrame)
    (decision : SettlementDecision) (decisionStorage : Bytes) (actions : List ActionRecord)
    (candidate : CandidateReceipt) : Except WireError Unit := do
  let identity := recoveryIdentityFromCall request.identity descriptor.toDescriptor
  refuseIf (frame.identity ≠ identity ∨ decision.identity ≠ identity ∨
    candidate.identity ≠ identity ∨ ∃ action ∈ actions, action.identity ≠ identity) .crossBinding
  refuseIf (responseStorage.length ≠ descriptor.capacities.executeResponse.toNat) .capacityMismatch
  refuseIf (requestStorage.length ≠ descriptor.capacities.request.toNat ∨
    decisionStorage.length ≠ descriptor.capacities.decision.toNat) .capacityMismatch
  let requestDigestValue := requestDigest sha256 requestStorage
  let responseDigestValue := responseStorageDigest sha256 executeReturnCode responseStorage
  let executeReturn := if decision.decision = .abortHostUnwind then .preExecuteHostUnwind
    else .returned executeReturnCode
  refuseIf (frame.requestDigest ≠ requestDigestValue ∨
    candidate.requestDigest ≠ requestDigestValue ∨
    frame.responseStorageDigest ≠ responseDigestValue ∨
    candidate.responseStorageDigest ≠ responseDigestValue ∨
    frame.executeReturn ≠ executeReturn ∨ frame.phase ≠ .providerSettled ∨
    frame.activeFinalizers ≠ 0 ∨ candidate.activeFinalizers ≠ 0 ∨
    frame.recordCount.toNat ≠ actions.length) .replayMismatch
  let decisionDigestValue := decisionDigest sha256 decisionStorage
  refuseIf (frame.decisionDigest ≠ decisionDigestValue ∨
    candidate.decisionDigest ≠ decisionDigestValue) .digestMismatch
  refuseIf (executeReturnCode ≠ decision.decision.expectedCode) .replayMismatch
  if decision.decision.accepts then
    let response ← okOr .replayMismatch response
    replayAccepted sha256 descriptor request requestStorage executeReturnCode responseStorage
      response frame decision.decision actions candidate
  else
    replayAborted sha256 descriptor request frame decision.decision actions candidate

end Gate

end Semaprax.CallableWire
