/-
**Settlement certificates** (`native_settlement.rs`).

A certificate lists the checkpoints of one exported function: the state of every owner there, the
outcome that may be accepted, and the order in which owners are finalized on either decision.

* `validateCheckpoint` — a cleanup order is an exact permutation of the owners it has to finalize.
* `validateProgress` — an edge changes one owner, or none and certifies an outcome.
* `NativeSettlementCertificate.tryNewWithProgress`, and the actions of a decision (`actionsFor`).

The hash of a certificate is a function of it that is not modelled further.
-/

import Semaprax.Library.Results

namespace Semaprax.NativeSettlement

open Library

/-- A hash of 32 bytes. -/
abbrev Digest := Vector UInt8 32

inductive SettlementResourceState
  | live
  | provisionalResult
  | finalizing
  | dead
  | published
deriving DecidableEq, Repr

inductive SettlementOutcome
  | scalarSuccess
  | semanticFailure
  | ownedSuccess (ownerOrdinal : Nat)
deriving DecidableEq, Repr

inductive AdapterAbortReason
  | physicalResult (code : Nat)
  | malformedResponse
  | traceRejected
  | hostUnwind
deriving DecidableEq, Repr

inductive SettlementDecision
  | accept (outcome : SettlementOutcome)
  | abort (reason : AdapterAbortReason)
deriving DecidableEq, Repr

inductive SettlementAction
  | finalize (ownerOrdinal : Nat)
  | publish (ownerOrdinal : Nat)
deriving DecidableEq, Repr

/-- A transition between checkpoints. -/
inductive SettlementProgressAction
  | finalize (ownerOrdinal : Nat)
  | stageOwnedResult (ownerOrdinal : Nat)
  | certifyOutcome (traceEvidence : Digest)
deriving DecidableEq

structure SettlementProgressEdge where
  source : Nat
  target : Nat
  action : SettlementProgressAction
deriving DecidableEq

inductive SettlementDisposition
  | dead
  | published
deriving DecidableEq, Repr

structure SettlementCheckpointSpec where
  checkpoint : Nat
  resources : List SettlementResourceState
  normalOutcome : Option SettlementOutcome
  abortCleanupOrder : List Nat
  acceptCleanupOrder : List Nat
deriving DecidableEq, Repr

inductive SettlementError
  | invalidFunctionIdentity
  | zeroRecoveryContract
  | resourceCountOutOfBounds
  | checkpointCountOutOfBounds
  | workBudgetExceeded
  | nonCanonicalCheckpoint
  | checkpointResourceCountMismatch
  | invalidCheckpointState
  | multipleProvisionalResults
  | invalidCleanupOrder
  | invalidNormalOutcome
  | invalidProgressStart
  | nonCanonicalProgressEdge
  | invalidProgressTransition
  | unreachableCheckpoint
  | progressActionNotAdmitted
  | invalidAbortReason
  | unknownCheckpoint
  | frameBindingMismatch
  | frameStateMismatch
  | decisionNotAdmitted
  | conflictingTerminalDecision
  | invalidStateTransition
  | receiptSchemaMismatch
  | receiptBindingMismatch
  | receiptActionMismatch
  | receiptDispositionMismatch
  | notQuiescent
  | invalidSettlementPhase
  | conflictingLockedDecision
  | transactionQuarantined
  | finalizerActionNotPending
  | finalizerTicketMismatch
  | finalizerCompletionUncertain
  | publishActionNotPending
  | settlementActionsIncomplete
  | receiptCommitMismatch
deriving DecidableEq, Repr

def maxSettlementResources : Nat := 4096

def maxSettlementCheckpoints : Nat := 65536

def maxSettlementWorkUnits : Nat := 1000000

def refuseIf (condition : Prop) [Decidable condition] (error : SettlementError) :
    Except SettlementError Unit :=
  if condition then .error error else .ok ()

@[simp]
theorem refuseIf_eq_ok {condition : Prop} [Decidable condition] {error : SettlementError}
    {done : Unit} : refuseIf condition error = .ok done ↔ ¬condition := by
  unfold refuseIf
  split_ifs with holds <;> simp [holds]

def ordinalsWhere (among : SettlementResourceState → Bool)
    (resources : List SettlementResourceState) : List Nat :=
  (resources.zipIdx.filter fun entry => among entry.1).map Prod.snd

/-- A cleanup order names exactly the required owners, each once. -/
def validateExactOrder (order : List Nat) (required : Finset Nat) : Except SettlementError Unit :=
  refuseIf (order.toFinset.card ≠ order.length ∨ order.toFinset ≠ required) .invalidCleanupOrder

/-- The accepted outcome, and the cleanup order that it needs, fit the owners. -/
def validateOutcome (checkpoint : SettlementCheckpointSpec) : Except SettlementError Unit :=
  let provisional := ordinalsWhere (· = .provisionalResult) checkpoint.resources
  let acceptRequired := (ordinalsWhere (· = .live) checkpoint.resources).toFinset
  match checkpoint.normalOutcome with
  | none => refuseIf (checkpoint.acceptCleanupOrder ≠ []) .invalidNormalOutcome
  | some (.ownedSuccess ownerOrdinal) => do
      refuseIf (provisional ≠ [ownerOrdinal]) .invalidNormalOutcome
      validateExactOrder checkpoint.acceptCleanupOrder acceptRequired
  | some _ => do
      refuseIf (provisional ≠ []) .invalidNormalOutcome
      validateExactOrder checkpoint.acceptCleanupOrder acceptRequired

def validateCheckpoint (checkpoint : SettlementCheckpointSpec) (resourceCount : Nat) :
    Except SettlementError Unit := do
  refuseIf (checkpoint.resources.length ≠ resourceCount) .checkpointResourceCountMismatch
  refuseIf (∃ state ∈ checkpoint.resources, state = .finalizing ∨ state = .published)
    .invalidCheckpointState
  refuseIf (1 < (ordinalsWhere (· = .provisionalResult) checkpoint.resources).length)
    .multipleProvisionalResults
  validateExactOrder checkpoint.abortCleanupOrder
    (ordinalsWhere (· ≠ .dead) checkpoint.resources).toFinset
  validateOutcome checkpoint

/-- The checkpoints are numbered from one and valid. -/
def validateCheckpoints (resourceCount : Nat) :
    Nat → List SettlementCheckpointSpec → Except SettlementError Unit
  | _, [] => .ok ()
  | expected, checkpoint :: checkpoints => do
      refuseIf (checkpoint.checkpoint ≠ expected) .nonCanonicalCheckpoint
      validateCheckpoint checkpoint resourceCount
      validateCheckpoints resourceCount (expected + 1) checkpoints

def changedOwnerState (source target : List SettlementResourceState) (ownerOrdinal : Nat)
    (expectedSource expectedTarget : SettlementResourceState) : Bool :=
  ((source.zip target).zipIdx.all fun entry =>
    if entry.2 = ownerOrdinal then
      entry.1.1 = expectedSource ∧ entry.1.2 = expectedTarget
    else entry.1.1 = entry.1.2) && ownerOrdinal < source.length

/-- What a transition changes. The ordinals of cleanup orders are in range in valid checkpoints. -/
def validProgressTransition (source target : SettlementCheckpointSpec)
    (action : SettlementProgressAction) : Bool :=
  source.resources.length = target.resources.length &&
  match action with
  | .finalize ownerOrdinal => decide <|
      target.normalOutcome = none ∧
      (changedOwnerState source.resources target.resources ownerOrdinal .live .dead ∨
        changedOwnerState source.resources target.resources ownerOrdinal .provisionalResult .dead) ∧
      ownerOrdinal ∈ source.abortCleanupOrder ∧
      source.acceptCleanupOrder = [] ∧
      target.acceptCleanupOrder = [] ∧
      (∀ ordinal ∈ source.abortCleanupOrder.takeWhile (· ≠ ownerOrdinal),
        source.resources[ordinal]? = some .provisionalResult) ∧
      target.abortCleanupOrder = source.abortCleanupOrder.erase ownerOrdinal
  | .stageOwnedResult ownerOrdinal => decide <|
      target.normalOutcome = none ∧
      changedOwnerState source.resources target.resources ownerOrdinal .live .provisionalResult ∧
      source.acceptCleanupOrder = [] ∧
      target.acceptCleanupOrder = [] ∧
      source.abortCleanupOrder = target.abortCleanupOrder
  | .certifyOutcome traceEvidence => decide <|
      source.normalOutcome = none ∧
      target.normalOutcome.isSome ∧
      source.resources = target.resources ∧
      source.acceptCleanupOrder = [] ∧
      source.abortCleanupOrder = target.abortCleanupOrder ∧
      target.acceptCleanupOrder = target.abortCleanupOrder.filter
        (fun ordinal => target.resources[ordinal]? = some .live) ∧
      traceEvidence.any (· ≠ 0)

def validateEdges (checkpoints : List SettlementCheckpointSpec) :
    Finset SettlementProgressEdge → Finset (Nat × SettlementProgressAction) → Finset Nat →
    List SettlementProgressEdge → Except SettlementError (Finset Nat)
  | _, _, reachable, [] => .ok reachable
  | seenEdges, seenActions, reachable, edge :: edges => do
      refuseIf (edge.source = 0 ∨ edge.target = 0 ∨ edge.source ≥ edge.target ∨
        edge.target > checkpoints.length ∨ edge ∈ seenEdges ∨
        (edge.source, edge.action) ∈ seenActions ∨ edge.source ∉ reachable)
        .nonCanonicalProgressEdge
      match checkpoints[edge.source - 1]?, checkpoints[edge.target - 1]? with
      | some source, some target =>
        refuseIf (source.normalOutcome.isSome ∨
          ¬validProgressTransition source target edge.action) .invalidProgressTransition
        validateEdges checkpoints (insert edge seenEdges)
          (insert (edge.source, edge.action) seenActions) (insert edge.target reachable) edges
      -- both are in range by now
      | _, _ => .error .nonCanonicalProgressEdge

def validateProgress (checkpoints : List SettlementCheckpointSpec) (starts : List Nat)
    (edges : List SettlementProgressEdge) : Except SettlementError Unit :=
  -- each row can independently prepare a frame
  if edges = [] ∧ starts = (List.range checkpoints.length).map (· + 1) then .ok ()
  else do
    refuseIf (starts ≠ [1] ∨ ∃ first, checkpoints.head? = some first ∧
      (first.normalOutcome.isSome ∨ ∃ state ∈ first.resources, state ≠ .live))
      .invalidProgressStart
    let reachable ← validateEdges checkpoints ∅ ∅ {1} edges
    refuseIf (reachable.card ≠ checkpoints.length) .unreachableCheckpoint

/-- The checks of a certificate, in source order. -/
def certify (function : String) (recoveryContract : Digest) (resourceCount : Nat)
    (checkpoints : List SettlementCheckpointSpec) (startCheckpoints : List Nat)
    (progressEdges : List SettlementProgressEdge) : Except SettlementError Unit := do
  refuseIf (function.isEmpty ∨ '\x00' ∈ function.toList) .invalidFunctionIdentity
  refuseIf (recoveryContract.all (· = 0)) .zeroRecoveryContract
  refuseIf (resourceCount = 0 ∨ resourceCount > maxSettlementResources) .resourceCountOutOfBounds
  refuseIf (checkpoints = [] ∨ checkpoints.length > maxSettlementCheckpoints)
    .checkpointCountOutOfBounds
  let work := resourceCount * checkpoints.length
  refuseIf (work > maxSettlementWorkUnits) .workBudgetExceeded
  refuseIf (¬(progressEdges = [] ∧ startCheckpoints.length = checkpoints.length) ∧
    work + startCheckpoints.length + progressEdges.length > maxSettlementWorkUnits)
    .workBudgetExceeded
  validateCheckpoints resourceCount 1 checkpoints
  validateProgress checkpoints startCheckpoints progressEdges

/-- A certificate that has passed its checks. -/
structure NativeSettlementCertificate where
  function : String
  recoveryContract : Digest
  resourceCount : Nat
  checkpoints : List SettlementCheckpointSpec
  startCheckpoints : List Nat
  progressEdges : List SettlementProgressEdge
  certified : certify function recoveryContract resourceCount checkpoints startCheckpoints
    progressEdges = .ok ()

namespace NativeSettlementCertificate

def tryNewWithProgress (function : String) (recoveryContract : Digest) (resourceCount : Nat)
    (checkpoints : List SettlementCheckpointSpec) (startCheckpoints : List Nat)
    (progressEdges : List SettlementProgressEdge) :
    Except SettlementError NativeSettlementCertificate :=
  match passed : certify function recoveryContract resourceCount checkpoints startCheckpoints
      progressEdges with
  | .error error => .error error
  | .ok () => .ok ⟨function, recoveryContract, resourceCount, checkpoints, startCheckpoints,
      progressEdges, passed⟩

def checkpoint (certificate : NativeSettlementCertificate) (number : Nat) :
    Except SettlementError SettlementCheckpointSpec :=
  if number = 0 then .error .unknownCheckpoint
  else
    match certificate.checkpoints[number - 1]? with
    | none => .error .unknownCheckpoint
    | some candidate =>
      if candidate.checkpoint = number then .ok candidate else .error .unknownCheckpoint

end NativeSettlementCertificate

def validateDecision (decision : SettlementDecision) : Except SettlementError Unit :=
  refuseIf (decision = .abort (.physicalResult 0)) .invalidAbortReason

def actionsFor (checkpoint : SettlementCheckpointSpec) (decision : SettlementDecision) :
    Except SettlementError (List SettlementAction) :=
  match decision with
  | .abort _ => .ok (checkpoint.abortCleanupOrder.map .finalize)
  | .accept outcome =>
    if checkpoint.normalOutcome ≠ some outcome then .error .decisionNotAdmitted
    else .ok (checkpoint.acceptCleanupOrder.map .finalize ++
      match outcome with
      | .ownedSuccess ownerOrdinal => [.publish ownerOrdinal]
      | _ => [])

def applyAction (resources : List SettlementResourceState) :
    SettlementAction → Except SettlementError (List SettlementResourceState)
  | .finalize ownerOrdinal =>
    match resources[ownerOrdinal]? with
    | some .live | some .provisionalResult => .ok (resources.set ownerOrdinal .dead)
    | _ => .error .invalidStateTransition
  | .publish ownerOrdinal =>
    match resources[ownerOrdinal]? with
    | some .provisionalResult => .ok (resources.set ownerOrdinal .published)
    | _ => .error .invalidStateTransition

def applyActions : List SettlementResourceState → List SettlementAction →
    Except SettlementError (List SettlementResourceState)
  | resources, [] => .ok resources
  | resources, action :: actions => do
      let resources ← applyAction resources action
      applyActions resources actions

def SettlementResourceState.disposition :
    SettlementResourceState → Except SettlementError SettlementDisposition
  | .dead => .ok .dead
  | .published => .ok .published
  | .live | .provisionalResult | .finalizing => .error .notQuiescent

def terminalDispositions (resources : List SettlementResourceState) :
    Except SettlementError (List SettlementDisposition) :=
  resources.mapM SettlementResourceState.disposition

end Semaprax.NativeSettlement
