/-
**Settlement frames** (`native_settlement.rs`).

A frame is at a checkpoint of its certificate until it is settled by a decision, all at once.

* `advanceFrame` — along one certified edge.
* `settle` — every action of the decision at the checkpoint, with a receipt; repeated, the receipt.
* `validateReceipt` — a receipt against the certificate.
* `FrameSession.run` — any calls on a start frame, with their answers.
-/

import Semaprax.Library.Programs
import Semaprax.NativeSettlement.Certificate

namespace Semaprax.NativeSettlement

open Library

def nativeSettlementReceiptV2 : String := "semaprax.native-settlement-receipt.v2"

structure NativeSettlementReceipt where
  schema : String
  function : String
  recoveryContract : Digest
  certificateFingerprint : Digest
  invocation : ℕ+
  checkpoint : Nat
  decision : SettlementDecision
  actions : List SettlementAction
  dispositions : List SettlementDisposition
  activeFinalizers : Nat
deriving DecidableEq

structure TerminalSettlement where
  decision : SettlementDecision
  receipt : NativeSettlementReceipt
deriving DecidableEq

structure NativeSettlementFrame where
  function : String
  recoveryContract : Digest
  certificateFingerprint : Digest
  invocation : ℕ+
  checkpoint : Nat
  resources : List SettlementResourceState
  terminal : Option TerminalSettlement
deriving DecidableEq

/-- A receipt, and the actions that were performed for it. -/
structure SettlementApplication where
  receipt : NativeSettlementReceipt
  performedActions : List SettlementAction
deriving DecidableEq

namespace NativeSettlementCertificate

variable (fingerprint : NativeSettlementCertificate → Digest)
variable (certificate : NativeSettlementCertificate)

def prepareStartFrame (invocation : ℕ+) : Except SettlementError NativeSettlementFrame := do
  refuseIf (certificate.startCheckpoints ≠ [1]) .invalidProgressStart
  let checkpoint ← certificate.checkpoint 1
  .ok
    { function := certificate.function
      recoveryContract := certificate.recoveryContract
      certificateFingerprint := fingerprint certificate
      invocation := invocation
      checkpoint := 1
      resources := checkpoint.resources
      terminal := none }

def authenticateFrame (frame : NativeSettlementFrame) : Except SettlementError Unit := do
  refuseIf (frame.function ≠ certificate.function ∨
    frame.recoveryContract ≠ certificate.recoveryContract ∨
    frame.certificateFingerprint ≠ fingerprint certificate) .frameBindingMismatch
  refuseIf (frame.resources.length ≠ certificate.resourceCount) .frameStateMismatch

/-- The receipt is the one of its decision at its checkpoint. -/
def validateReceipt (expectedInvocation : ℕ+) (receipt : NativeSettlementReceipt) :
    Except SettlementError Unit := do
  refuseIf (receipt.schema ≠ nativeSettlementReceiptV2) .receiptSchemaMismatch
  refuseIf (receipt.function ≠ certificate.function ∨
    receipt.recoveryContract ≠ certificate.recoveryContract ∨
    receipt.certificateFingerprint ≠ fingerprint certificate ∨
    receipt.invocation ≠ expectedInvocation) .receiptBindingMismatch
  validateDecision receipt.decision
  refuseIf (receipt.activeFinalizers ≠ 0) .notQuiescent
  let checkpoint ← certificate.checkpoint receipt.checkpoint
  let expectedActions ← actionsFor checkpoint receipt.decision
  refuseIf (receipt.actions ≠ expectedActions) .receiptActionMismatch
  let resources ← applyActions checkpoint.resources expectedActions
  let dispositions ← terminalDispositions resources
  refuseIf (receipt.dispositions ≠ dispositions) .receiptDispositionMismatch

def edgesBy (checkpoint : Nat) (action : SettlementProgressAction) : List SettlementProgressEdge :=
  certificate.progressEdges.filter fun edge => edge.source = checkpoint ∧ edge.action = action

/-- A check that may refuse a call. -/
def check {S A : Type} (result : Except SettlementError A) : Prog S SettlementError A :=
  match result with
  | .ok value => pure value
  | .error error => Prog.stop error

def advanceFrame (action : SettlementProgressAction) :
    Prog NativeSettlementFrame SettlementError Unit := do
  let frame ← Prog.get
  check (certificate.authenticateFrame fingerprint frame)
  stopIf (frame.terminal.isSome = true) .progressActionNotAdmitted
  match certificate.edgesBy frame.checkpoint action with
  | [] => Prog.stop .progressActionNotAdmitted
  | [edge] => do
      let destination ← check (certificate.checkpoint edge.target)
      Prog.set
        { frame with
          checkpoint := edge.target
          resources := destination.resources }
  | _ => Prog.stop .nonCanonicalProgressEdge

def receiptFor (invocation : ℕ+) (checkpoint : Nat) (decision : SettlementDecision)
    (actions : List SettlementAction) (dispositions : List SettlementDisposition) :
    NativeSettlementReceipt where
  schema := nativeSettlementReceiptV2
  function := certificate.function
  recoveryContract := certificate.recoveryContract
  certificateFingerprint := fingerprint certificate
  invocation := invocation
  checkpoint := checkpoint
  decision := decision
  actions := actions
  dispositions := dispositions
  activeFinalizers := 0

def settle (decision : SettlementDecision) :
    Prog NativeSettlementFrame SettlementError SettlementApplication := do
  let frame ← Prog.get
  check (validateDecision decision)
  check (certificate.authenticateFrame fingerprint frame)
  match frame.terminal with
  | some terminal => do
      stopIf (terminal.decision ≠ decision) .conflictingTerminalDecision
      check (certificate.validateReceipt fingerprint frame.invocation terminal.receipt)
      let dispositions ← check (terminalDispositions frame.resources)
      stopIf (dispositions ≠ terminal.receipt.dispositions) .frameStateMismatch
      pure ⟨terminal.receipt, []⟩
  | none => do
      let checkpoint ← check (certificate.checkpoint frame.checkpoint)
      stopIf (frame.resources ≠ checkpoint.resources) .frameStateMismatch
      let actions ← check (actionsFor checkpoint decision)
      let resources ← check (applyActions frame.resources actions)
      let dispositions ← check (terminalDispositions resources)
      let receipt := certificate.receiptFor fingerprint frame.invocation frame.checkpoint decision
        actions dispositions
      check (certificate.validateReceipt fingerprint frame.invocation receipt)
      Prog.set
        { frame with
          resources := resources
          terminal := some ⟨decision, receipt⟩ }
      pure ⟨receipt, actions⟩

end NativeSettlementCertificate

inductive FrameCall
  | advanceFrame (action : SettlementProgressAction)
  | settle (decision : SettlementDecision)

/-- A call that was made, and what came of it. -/
inductive FrameEvent
  | advanced (action : SettlementProgressAction) (result : Except SettlementError Unit)
  | settled (decision : SettlementDecision) (result : Except SettlementError SettlementApplication)

def FrameEvent.performed : FrameEvent → List SettlementAction
  | .advanced (.finalize ownerOrdinal) (.ok ()) => [.finalize ownerOrdinal]
  | .settled _ (.ok application) => application.performedActions
  | _ => []

/-- A frame with the calls on it. -/
structure FrameSession where
  frame : NativeSettlementFrame
  events : List FrameEvent

namespace FrameSession

variable (fingerprint : NativeSettlementCertificate → Digest)
variable (certificate : NativeSettlementCertificate)

def step (session : FrameSession) : FrameCall → FrameSession
  | .advanceFrame action =>
    ⟨(certificate.advanceFrame fingerprint action session.frame).2, session.events ++
        [.advanced action (certificate.advanceFrame fingerprint action session.frame).1]⟩
  | .settle decision =>
    ⟨(certificate.settle fingerprint decision session.frame).2, session.events ++
        [.settled decision (certificate.settle fingerprint decision session.frame).1]⟩

def run (frame : NativeSettlementFrame) (calls : List FrameCall) : FrameSession :=
  calls.foldl (step fingerprint certificate) ⟨frame, []⟩

def performed (session : FrameSession) : List SettlementAction :=
  session.events.flatMap FrameEvent.performed

end FrameSession

end Semaprax.NativeSettlement
