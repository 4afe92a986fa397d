/-
**Settlement transactions** (`native_settlement.rs`).

A transaction settles in phases: execution, a locked decision, one finalizer at a time, a provider
receipt and its commit. What cannot be certain any more is quarantined.

* `NativeSettlementTransaction`, `SettlementTransactionState` — the transaction and its phase.
* `authenticateTransaction`, `validateTransactionState` — what every operation checks first.
* `advanceTransaction` to `replayCommittedReceipt` — the operations.
* `TransactionSession.run` — any operations on a transaction, with their answers.
-/

import Semaprax.NativeSettlement.Frame

namespace Semaprax.NativeSettlement

open Library

inductive SettlementTransactionState
  | executing
  | decisionLocked (decision : SettlementDecision)
  | actionInProgress (decision : SettlementDecision) (actionIndex ownerOrdinal : Nat)
  | providerSettled (decision : SettlementDecision)
  | receiptCommitted (decision : SettlementDecision)
  | quarantined (decision : Option SettlementDecision)
deriving DecidableEq

structure NativeSettlementTransaction where
  function : String
  recoveryContract : Digest
  certificateFingerprint : Digest
  invocation : ℕ+
  checkpoint : Nat
  resources : List SettlementResourceState
  phase : SettlementTransactionState
  actions : List SettlementAction
  nextAction : Nat
  candidateReceipt : Option NativeSettlementReceipt
  committedReceipt : Option NativeSettlementReceipt
deriving DecidableEq

/-- Evidence that a finalizer was marked as in progress. -/
structure SettlementFinalizerTicket where
  certificateFingerprint : Digest
  invocation : ℕ+
  checkpoint : Nat
  decision : SettlementDecision
  actionIndex : Nat
  ownerOrdinal : Nat
deriving DecidableEq

namespace NativeSettlementTransaction

def lockedDecision (transaction : NativeSettlementTransaction) : Option SettlementDecision :=
  match transaction.phase with
  | .executing => none
  | .decisionLocked decision | .actionInProgress decision _ _ | .providerSettled decision
  | .receiptCommitted decision => some decision
  | .quarantined decision => decision

def quarantine {A : Type} (decision : Option SettlementDecision) (error : SettlementError) :
    Prog NativeSettlementTransaction SettlementError A := do
  let transaction ← Prog.get
  Prog.set
    { transaction with
      phase := .quarantined decision }
  Prog.stop error

/-- A check; where it fails, the transaction is quarantined. -/
def checkOr {A : Type} (decision : Option SettlementDecision) (result : Except SettlementError A) :
    Prog NativeSettlementTransaction SettlementError A :=
  match result with
  | .ok value => pure value
  | .error error => quarantine decision error

def quarantineIf (condition : Prop) [Decidable condition] (decision : Option SettlementDecision)
    (error : SettlementError) : Prog NativeSettlementTransaction SettlementError Unit :=
  if condition then quarantine decision error else pure ()

def setState (transaction : NativeSettlementTransaction) (ownerOrdinal : Nat)
    (state : SettlementResourceState) : NativeSettlementTransaction :=
  { transaction with
    resources := transaction.resources.set ownerOrdinal state }

end NativeSettlementTransaction

open NativeSettlementTransaction

namespace NativeSettlementCertificate

variable (fingerprint : NativeSettlementCertificate → Digest)
variable (certificate : NativeSettlementCertificate)

def prepareStartTransaction (invocation : ℕ+) :
    Except SettlementError NativeSettlementTransaction := do
  let frame ← certificate.prepareStartFrame fingerprint invocation
  .ok
    { function := frame.function
      recoveryContract := frame.recoveryContract
      certificateFingerprint := frame.certificateFingerprint
      invocation := frame.invocation
      checkpoint := frame.checkpoint
      resources := frame.resources
      phase := .executing
      actions := []
      nextAction := 0
      candidateReceipt := none
      committedReceipt := none }

/-- The owners are those of the actions performed so far, and of a finalizer in progress. -/
def validateLockedTransactionState (transaction : NativeSettlementTransaction)
    (checkpoint : SettlementCheckpointSpec) (decision : SettlementDecision)
    (inProgress : Option (Nat × Nat)) : Except SettlementError Unit := do
  let expectedActions ← actionsFor checkpoint decision
  refuseIf (transaction.actions ≠ expectedActions ∨
    transaction.nextAction > transaction.actions.length ∨
    transaction.candidateReceipt.isSome ∨ transaction.committedReceipt.isSome) .frameStateMismatch
  let performed ← applyActions checkpoint.resources
    (transaction.actions.take transaction.nextAction)
  match inProgress with
  | none => refuseIf (transaction.resources ≠ performed) .frameStateMismatch
  | some (actionIndex, ownerOrdinal) => do
      refuseIf (actionIndex ≠ transaction.nextAction ∨
        transaction.actions[actionIndex]? ≠ some (.finalize ownerOrdinal)) .frameStateMismatch
      refuseIf (performed[ownerOrdinal]? ≠ some .live ∧
        performed[ownerOrdinal]? ≠ some .provisionalResult) .frameStateMismatch
      refuseIf (transaction.resources ≠ performed.set ownerOrdinal .finalizing) .frameStateMismatch

/-- The owners are those after every action, with the receipt for them. -/
def validateSettledTransactionState (transaction : NativeSettlementTransaction)
    (checkpoint : SettlementCheckpointSpec) (decision : SettlementDecision) (committed : Bool) :
    Except SettlementError Unit := do
  let expectedActions ← actionsFor checkpoint decision
  let expectedResources ← applyActions checkpoint.resources expectedActions
  match transaction.candidateReceipt with
  | none => .error .frameStateMismatch
  | some candidate => do
      refuseIf (transaction.actions ≠ expectedActions ∨
        transaction.nextAction ≠ expectedActions.length ∨
        transaction.resources ≠ expectedResources ∨ candidate.decision ≠ decision ∨
        certificate.validateReceipt fingerprint transaction.invocation candidate ≠ .ok ())
        .frameStateMismatch
      refuseIf (transaction.committedReceipt ≠ if committed then some candidate else none)
        .frameStateMismatch

def validateTransactionState (transaction : NativeSettlementTransaction) :
    Except SettlementError Unit :=
  match transaction.phase with
  | .quarantined _ => .ok ()
  | .executing => do
      let checkpoint ← certificate.checkpoint transaction.checkpoint
      refuseIf (transaction.resources ≠ checkpoint.resources ∨ transaction.actions ≠ [] ∨
        transaction.nextAction ≠ 0 ∨ transaction.candidateReceipt.isSome ∨
        transaction.committedReceipt.isSome) .frameStateMismatch
  | .decisionLocked decision => do
      let checkpoint ← certificate.checkpoint transaction.checkpoint
      validateLockedTransactionState transaction checkpoint decision none
  | .actionInProgress decision actionIndex ownerOrdinal => do
      let checkpoint ← certificate.checkpoint transaction.checkpoint
      validateLockedTransactionState transaction checkpoint decision
        (some (actionIndex, ownerOrdinal))
  | .providerSettled decision => do
      let checkpoint ← certificate.checkpoint transaction.checkpoint
      certificate.validateSettledTransactionState fingerprint transaction checkpoint decision false
  | .receiptCommitted decision => do
      let checkpoint ← certificate.checkpoint transaction.checkpoint
      certificate.validateSettledTransactionState fingerprint transaction checkpoint decision true

def authenticateTransaction (transaction : NativeSettlementTransaction) :
    Except SettlementError Unit := do
  refuseIf (transaction.function ≠ certificate.function ∨
    transaction.recoveryContract ≠ certificate.recoveryContract ∨
    transaction.certificateFingerprint ≠ fingerprint certificate ∨
    transaction.resources.length ≠ certificate.resourceCount) .frameBindingMismatch
  certificate.validateTransactionState fingerprint transaction

def authenticated :
    Prog NativeSettlementTransaction SettlementError NativeSettlementTransaction := do
  let transaction ← Prog.get
  checkOr transaction.lockedDecision (certificate.authenticateTransaction fingerprint transaction)
  pure transaction

def advanceTransaction (action : SettlementProgressAction) :
    Prog NativeSettlementTransaction SettlementError Unit := do
  let transaction ← certificate.authenticated fingerprint
  match transaction.phase with
  | .quarantined _ => Prog.stop .transactionQuarantined
  | .executing => do
      let current ← checkOr none (certificate.checkpoint transaction.checkpoint)
      quarantineIf (transaction.resources ≠ current.resources) none .frameStateMismatch
      match certificate.edgesBy transaction.checkpoint action with
      | [] => quarantine none .progressActionNotAdmitted
      | [edge] => do
          let destination ← checkOr none (certificate.checkpoint edge.target)
          Prog.set
            { transaction with
              checkpoint := edge.target
              resources := destination.resources }
      | _ => quarantine none .nonCanonicalProgressEdge
  | _ => quarantine transaction.lockedDecision .invalidSettlementPhase

def lockTransactionDecision (decision : SettlementDecision) :
    Prog NativeSettlementTransaction SettlementError Unit := do
  let transaction ← certificate.authenticated fingerprint
  match transaction.phase with
  | .quarantined _ => Prog.stop .transactionQuarantined
  | phase => do
      check (validateDecision decision)
      match phase with
      | .executing => do
          let checkpoint ← check (certificate.checkpoint transaction.checkpoint)
          quarantineIf (transaction.resources ≠ checkpoint.resources) none .frameStateMismatch
          let actions ← check (actionsFor checkpoint decision)
          Prog.set
            { transaction with
              actions := actions
              nextAction := 0
              phase := .decisionLocked decision }
      | .decisionLocked locked =>
        quarantineIf (locked ≠ decision) (some locked) .conflictingLockedDecision
      | .actionInProgress locked _ _ =>
        quarantine (some locked)
          (if locked = decision then .invalidSettlementPhase else .conflictingLockedDecision)
      | .providerSettled locked | .receiptCommitted locked =>
        if locked = decision then Prog.stop .invalidSettlementPhase
        else quarantine (some locked) .conflictingLockedDecision
      | .quarantined _ => Prog.stop .transactionQuarantined

def observeTransactionUnwind :
    Prog NativeSettlementTransaction SettlementError SettlementDecision := do
  let transaction ← certificate.authenticated fingerprint
  match transaction.phase with
  | .quarantined _ => Prog.stop .transactionQuarantined
  | .actionInProgress _ _ _ =>
    quarantine transaction.lockedDecision .finalizerCompletionUncertain
  | _ =>
    match transaction.lockedDecision with
    | some decision => pure decision
    | none => do
        certificate.lockTransactionDecision fingerprint (.abort .hostUnwind)
        pure (.abort .hostUnwind)

/-- The locked decision, while no finalizer is in progress. -/
def lockedIdle (transaction : NativeSettlementTransaction) :
    Prog NativeSettlementTransaction SettlementError SettlementDecision :=
  match transaction.phase with
  | .decisionLocked decision => pure decision
  | .actionInProgress decision _ _ => quarantine (some decision) .finalizerCompletionUncertain
  | .quarantined _ => Prog.stop .transactionQuarantined
  | _ => Prog.stop .invalidSettlementPhase

def beginNextFinalizer :
    Prog NativeSettlementTransaction SettlementError SettlementFinalizerTicket := do
  let transaction ← certificate.authenticated fingerprint
  let decision ← lockedIdle transaction
  match transaction.actions[transaction.nextAction]? with
  | some (.finalize ownerOrdinal) => do
      quarantineIf (transaction.resources[ownerOrdinal]? ≠ some .live ∧
        transaction.resources[ownerOrdinal]? ≠ some .provisionalResult) (some decision)
        .invalidStateTransition
      Prog.set
        { transaction.setState ownerOrdinal .finalizing with
          phase := .actionInProgress decision transaction.nextAction ownerOrdinal }
      pure
        { certificateFingerprint := transaction.certificateFingerprint
          invocation := transaction.invocation
          checkpoint := transaction.checkpoint
          decision := decision
          actionIndex := transaction.nextAction
          ownerOrdinal := ownerOrdinal }
  | _ => Prog.stop .finalizerActionNotPending

def completeFinalizer (ticket : SettlementFinalizerTicket) :
    Prog NativeSettlementTransaction SettlementError Unit := do
  let transaction ← certificate.authenticated fingerprint
  match transaction.phase with
  | .actionInProgress decision actionIndex ownerOrdinal => do
      quarantineIf (ticket.certificateFingerprint ≠ transaction.certificateFingerprint ∨
        ticket.invocation ≠ transaction.invocation ∨
        ticket.checkpoint ≠ transaction.checkpoint ∨
        (ticket.decision, ticket.actionIndex, ticket.ownerOrdinal) ≠
          (decision, actionIndex, ownerOrdinal)) (some decision) .finalizerTicketMismatch
      quarantineIf (transaction.resources[ownerOrdinal]? ≠ some .finalizing) (some decision)
        .invalidStateTransition
      Prog.set
        { transaction.setState ownerOrdinal .dead with
          nextAction := transaction.nextAction + 1
          phase := .decisionLocked decision }
  | .quarantined _ => Prog.stop .transactionQuarantined
  | _ => quarantine transaction.lockedDecision .invalidSettlementPhase

/-- Quarantine a finalizer whose completion is not known. -/
def markFinalizerUncertain : Prog NativeSettlementTransaction SettlementError Unit := do
  let transaction ← certificate.authenticated fingerprint
  match transaction.phase with
  | .quarantined _ => Prog.stop .transactionQuarantined
  | .actionInProgress decision _ _ =>
    Prog.set
      { transaction with
        phase := .quarantined (some decision) }
  | _ => Prog.stop .invalidSettlementPhase

/-- Turn the provisional result into candidate evidence. -/
def publishOwnedCandidate : Prog NativeSettlementTransaction SettlementError Unit := do
  let transaction ← certificate.authenticated fingerprint
  let decision ← lockedIdle transaction
  match transaction.actions[transaction.nextAction]? with
  | some (.publish ownerOrdinal) => do
      quarantineIf (transaction.nextAction + 1 ≠ transaction.actions.length ∨
        ∃ state ∈ transaction.resources, state = .live ∨ state = .finalizing) (some decision)
        .invalidStateTransition
      quarantineIf (transaction.resources[ownerOrdinal]? ≠ some .provisionalResult) (some decision)
        .invalidStateTransition
      Prog.set
        { transaction.setState ownerOrdinal .published with
          nextAction := transaction.nextAction + 1 }
  | _ => quarantine (some decision) .publishActionNotPending

/-- Produce the candidate receipt once every action is complete. -/
def finishProviderSettlement :
    Prog NativeSettlementTransaction SettlementError SettlementApplication := do
  let transaction ← certificate.authenticated fingerprint
  let decision ← lockedIdle transaction
  quarantineIf (transaction.nextAction ≠ transaction.actions.length ∨
    .finalizing ∈ transaction.resources) (some decision) .settlementActionsIncomplete
  let dispositions ← checkOr (some decision) (terminalDispositions transaction.resources)
  let receipt := certificate.receiptFor fingerprint transaction.invocation transaction.checkpoint
    decision transaction.actions dispositions
  checkOr (some decision) (certificate.validateReceipt fingerprint transaction.invocation receipt)
  Prog.set
    { transaction with
      candidateReceipt := some receipt
      phase := .providerSettled decision }
  pure ⟨receipt, []⟩

def commitProviderReceipt (candidate : NativeSettlementReceipt) :
    Prog NativeSettlementTransaction SettlementError SettlementApplication := do
  let transaction ← certificate.authenticated fingerprint
  match transaction.phase with
  | .receiptCommitted decision =>
    match transaction.committedReceipt with
    | none => quarantine (some decision) .frameStateMismatch
    | some committed => do
        quarantineIf (candidate ≠ committed ∨ candidate.decision ≠ decision) (some decision)
          .receiptCommitMismatch
        pure ⟨committed, []⟩
  | .providerSettled decision => do
      quarantineIf (transaction.candidateReceipt ≠ some candidate ∨
        certificate.validateReceipt fingerprint transaction.invocation candidate ≠ .ok ())
        (some decision) .receiptCommitMismatch
      Prog.set
        { transaction with
          committedReceipt := some candidate
          phase := .receiptCommitted decision }
      pure ⟨candidate, []⟩
  | .quarantined _ => Prog.stop .transactionQuarantined
  | _ => quarantine transaction.lockedDecision .invalidSettlementPhase

def replay (decision locked : SettlementDecision) (receipt : Option NativeSettlementReceipt) :
    Prog NativeSettlementTransaction SettlementError SettlementApplication := do
  quarantineIf (locked ≠ decision) (some locked) .conflictingLockedDecision
  match receipt with
  | none => quarantine (some locked) .frameStateMismatch
  | some receipt => pure ⟨receipt, []⟩

def replayProviderCandidate (decision : SettlementDecision) :
    Prog NativeSettlementTransaction SettlementError SettlementApplication := do
  let transaction ← certificate.authenticated fingerprint
  match transaction.phase with
  | .quarantined _ => Prog.stop .transactionQuarantined
  | phase => do
      check (validateDecision decision)
      match phase with
      | .providerSettled locked => replay decision locked transaction.candidateReceipt
      | _ => Prog.stop .invalidSettlementPhase

def replayCommittedReceipt (decision : SettlementDecision) :
    Prog NativeSettlementTransaction SettlementError SettlementApplication := do
  let transaction ← certificate.authenticated fingerprint
  match transaction.phase with
  | .quarantined _ => Prog.stop .transactionQuarantined
  | phase => do
      check (validateDecision decision)
      match phase with
      | .receiptCommitted locked => replay decision locked transaction.committedReceipt
      | _ => Prog.stop .invalidSettlementPhase

end NativeSettlementCertificate

/-- An operation on a transaction, with any decision, ticket or candidate. -/
inductive TransactionCall
  | advanceTransaction (action : SettlementProgressAction)
  | lockTransactionDecision (decision : SettlementDecision)
  | observeTransactionUnwind
  | beginNextFinalizer
  | completeFinalizer (ticket : SettlementFinalizerTicket)
  | markFinalizerUncertain
  | publishOwnedCandidate
  | finishProviderSettlement
  | commitProviderReceipt (candidate : NativeSettlementReceipt)
  | replayProviderCandidate (decision : SettlementDecision)
  | replayCommittedReceipt (decision : SettlementDecision)

inductive TransactionAnswer
  | done
  | decision (decision : SettlementDecision)
  | ticket (ticket : SettlementFinalizerTicket)
  | application (application : SettlementApplication)

section Sessions

variable (fingerprint : NativeSettlementCertificate → Digest)
variable (certificate : NativeSettlementCertificate)

def NativeSettlementCertificate.perform : TransactionCall →
    Prog NativeSettlementTransaction SettlementError TransactionAnswer
  | .advanceTransaction action => do
      certificate.advanceTransaction fingerprint action
      pure .done
  | .lockTransactionDecision decision => do
      certificate.lockTransactionDecision fingerprint decision
      pure .done
  | .observeTransactionUnwind => do
      let decision ← certificate.observeTransactionUnwind fingerprint
      pure (.decision decision)
  | .beginNextFinalizer => do
      let ticket ← certificate.beginNextFinalizer fingerprint
      pure (.ticket ticket)
  | .completeFinalizer ticket => do
      certificate.completeFinalizer fingerprint ticket
      pure .done
  | .markFinalizerUncertain => do
      certificate.markFinalizerUncertain fingerprint
      pure .done
  | .publishOwnedCandidate => do
      certificate.publishOwnedCandidate fingerprint
      pure .done
  | .finishProviderSettlement => do
      let application ← certificate.finishProviderSettlement fingerprint
      pure (.application application)
  | .commitProviderReceipt candidate => do
      let application ← certificate.commitProviderReceipt fingerprint candidate
      pure (.application application)
  | .replayProviderCandidate decision => do
      let application ← certificate.replayProviderCandidate fingerprint decision
      pure (.application application)
  | .replayCommittedReceipt decision => do
      let application ← certificate.replayCommittedReceipt fingerprint decision
      pure (.application application)

/-- An operation, and what came of it. -/
structure TransactionEvent where
  call : TransactionCall
  answer : Except SettlementError TransactionAnswer

def TransactionEvent.advanced (event : TransactionEvent) : Option SettlementProgressAction :=
  match event.call, event.answer with
  | .advanceTransaction action, .ok _ => some action
  | _, _ => none

def TransactionEvent.begun (event : TransactionEvent) : Option Nat :=
  match event.call, event.answer with
  | .beginNextFinalizer, .ok (.ticket ticket) => some ticket.ownerOrdinal
  | _, _ => none

/-- A transaction with the operations on it. -/
structure TransactionSession where
  transaction : NativeSettlementTransaction
  events : List TransactionEvent

namespace TransactionSession

/-- One more operation. -/
def step (session : TransactionSession) (call : TransactionCall) : TransactionSession :=
  ⟨(certificate.perform fingerprint call session.transaction).2,
    session.events ++ [⟨call, (certificate.perform fingerprint call session.transaction).1⟩]⟩

/-- The operations on a transaction, in order. -/
def run (transaction : NativeSettlementTransaction) (calls : List TransactionCall) :
    TransactionSession :=
  calls.foldl (step fingerprint certificate) ⟨transaction, []⟩

def advanced (session : TransactionSession) : List SettlementProgressAction :=
  session.events.filterMap TransactionEvent.advanced

def begun (session : TransactionSession) : List Nat :=
  session.events.filterMap TransactionEvent.begun

end TransactionSession

end Sessions

end Semaprax.NativeSettlement
