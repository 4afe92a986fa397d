/-
**The six formats of the callable wires** (`callable_wire_v3.rs`).

Each format has its fields, `read` (the reader behind the envelope, with the checks of the descriptor),
`parse` and `encode`; a decision and an action record also have `encodeFixed`.

* `ExecuteRequest` — the arguments, of which a scalar has the kind that the descriptor gives it.
* `ExecuteResponse` — the outcome and the events, in a storage that is filled up with zeros.
* `RecoveryFrame` — the cells of a call with a digest of the frame; `validateFrameState`.
* `SettlementDecision`, `ActionRecord` — of fixed size.
* `CandidateReceipt` — the dispositions of a call.
-/

import Semaprax.CallableWire.Wire

namespace Semaprax.CallableWire

open Library

def Reader.run {A : Type} (reader : Reader A) (bytes : Bytes) : Except WireError A :=
  (reader bytes).1

def ResultShape.IsOwned (result : ResultShape) (owner : UInt32) : Prop :=
  match result with
  | .ownedInput _ ownerOrdinal => ownerOrdinal = owner.toNat
  | .scalarI64 => False

instance (result : ResultShape) (owner : UInt32) : Decidable (result.IsOwned owner) := by
  cases result <;> unfold ResultShape.IsOwned <;> infer_instance

inductive RequestArgument
  | i64 (index : UInt32) (value : Int64)
  | bool (index : UInt32) (value : Bool)
  | owned (index ownerOrdinal : UInt32) (payload : UInt64)
deriving DecidableEq

structure ExecuteRequest where
  identity : CallIdentity
  arguments : List RequestArgument
deriving DecidableEq

def RequestArgument.write (writer : Writer) : RequestArgument → Writer
  | .i64 index value => ((writer.u32 1).u32 index).i64 value
  | .bool index value => ((writer.u32 1).u32 index).u32 value.toUInt32
  | .owned index ownerOrdinal payload => (((writer.u32 2).u32 index).u32 ownerOrdinal).u64 payload

def RequestArgument.read (expectedIndex : Nat) (parameter : Parameter) :
    Reader RequestArgument := do
  let tag ← Reader.u32
  let index ← Reader.u32
  stopIf (index.toNat ≠ expectedIndex) .nonCanonical
  match parameter with
  | .scalar .i64 => do
      stopIf (tag ≠ 1) .nonCanonical
      let value ← Reader.i64
      pure (.i64 index value)
  | .scalar .bool => do
      stopIf (tag ≠ 1) .nonCanonical
      let value ← Reader.u32
      stopIf (value > 1) .nonCanonical
      pure (.bool index (value == 1))
  | .owned ownerOrdinal => do
      stopIf (tag ≠ 2) .nonCanonical
      let actualOwner ← Reader.u32
      stopIf (actualOwner.toNat ≠ ownerOrdinal) .nonCanonical
      let payload ← Reader.u64
      pure (.owned index actualOwner payload)

def readArguments (expectedIndex : Nat) : List Parameter → Reader (List RequestArgument)
  | [] => pure []
  | parameter :: parameters => do
      let argument ← RequestArgument.read expectedIndex parameter
      let arguments ← readArguments (expectedIndex + 1) parameters
      pure (argument :: arguments)

namespace ExecuteRequest

def encode (request : ExecuteRequest) : Option Bytes :=
  let writer := (Writer.new requestMagic).callIdentity request.identity
  let writer := writer.u32 (UInt32.ofNat request.arguments.length)
  (request.arguments.foldl RequestArgument.write writer).finish

def read (descriptor : Descriptor) : Reader ExecuteRequest := do
  let bytes ← Prog.get
  stopIf (bytes.length ≠ descriptor.capacities.request.toNat) .capacityMismatch
  Reader.envelope requestMagic
  let identity ← Reader.callIdentity
  Reader.ofResult (validateCallIdentity identity descriptor)
  let count ← Reader.usize
  stopIf (count ≠ descriptor.parameters.length) .nonCanonical
  let arguments ← readArguments 0 descriptor.parameters
  Reader.finish
  stopIf (encode ⟨identity, arguments⟩ ≠ some bytes) .nonCanonical
  pure ⟨identity, arguments⟩

def parse (descriptor : Descriptor) (bytes : Bytes) : Except WireError ExecuteRequest :=
  (read descriptor).run bytes

end ExecuteRequest

inductive ExecuteOutcome
  | scalar (value : Int64)
  | semanticFailure (selectedOrdinal : UInt32)
  | owned (ownerOrdinal : UInt32) (payload : UInt64)
deriving DecidableEq

structure ExecuteResponse where
  identity : CallIdentity
  requestDigest : Digest
  checkpoint : UInt32
  outcome : ExecuteOutcome
  eventOrdinals : List UInt32
  storageCapacity : Nat
deriving DecidableEq

def ExecuteOutcome.fields : ExecuteOutcome → UInt32 × UInt32 × UInt64
  | .scalar value => (1, 0, value.toUInt64)
  | .semanticFailure selectedOrdinal => (2, selectedOrdinal, 0)
  | .owned ownerOrdinal payload => (3, ownerOrdinal, payload)

def ExecuteOutcome.ofFields (descriptor : Descriptor) (tag detail : UInt32) (payload : UInt64) :
    Option ExecuteOutcome :=
  if tag = 1 ∧ detail = 0 ∧ descriptor.result = .scalarI64 then some (.scalar payload.toInt64)
  else if tag = 2 ∧ detail ≠ 0 ∧ detail ≤ descriptor.capacities.dictionaryEntries ∧ payload = 0 then
    some (.semanticFailure detail)
  else if tag = 3 ∧ detail < descriptor.capacities.resourceCount ∧
      descriptor.result.IsOwned detail then some (.owned detail payload)
  else none

def readEventOrdinal (descriptor : Descriptor) : Reader UInt32 := do
  let ordinal ← Reader.u32
  stopIf (ordinal = 0 ∨ ordinal > descriptor.capacities.dictionaryEntries) .nonCanonical
  pure ordinal

def readCheckpoint (descriptor : Descriptor) : Reader UInt32 := do
  let checkpoint ← Reader.u32
  stopIf (checkpoint = 0 ∨ checkpoint > descriptor.capacities.checkpointCount) .nonCanonical
  pure checkpoint

/-- Bytes cut off or filled up with zeros to a length. -/
def resize (bytes : Bytes) (length : Nat) : Bytes :=
  bytes.take length ++ List.replicate (length - bytes.length) 0

namespace ExecuteResponse

/-- The response without its padding. -/
def sealed (response : ExecuteResponse) : Option Bytes :=
  let writer := (Writer.new responseMagic).callIdentity response.identity
  let writer := (writer.digest response.requestDigest).u32 response.checkpoint
  let writer := ((writer.u32 response.outcome.fields.1).u32 response.outcome.fields.2.1).u64
    response.outcome.fields.2.2
  let writer := writer.u32 (UInt32.ofNat response.eventOrdinals.length)
  (response.eventOrdinals.foldl Writer.u32 writer).finish

def encode (response : ExecuteResponse) : Option Bytes :=
  response.sealed.map fun bytes => resize bytes response.storageCapacity

def read (descriptor : Descriptor) : Reader ExecuteResponse := do
  let bytes ← Prog.get
  stopIf (bytes.length ≠ descriptor.capacities.executeResponse.toNat) .capacityMismatch
  let declared ← Reader.ofResult (declaredTotal bytes responseMagic)
  stopIf (declared < 156 ∨ ∃ byte ∈ bytes.drop declared, byte ≠ 0) .nonCanonical
  Prog.set (bytes.take declared)
  Reader.envelope responseMagic
  let identity ← Reader.callIdentity
  Reader.ofResult (validateCallIdentity identity descriptor)
  let requestDigest ← Reader.nonzeroDigest
  let checkpoint ← readCheckpoint descriptor
  let tag ← Reader.u32
  let detail ← Reader.u32
  let payload ← Reader.u64
  let outcome ← ofOption .nonCanonical (ExecuteOutcome.ofFields descriptor tag detail payload)
  let eventCount ← Reader.usize
  stopIf (eventCount = 0 ∨ eventCount > descriptor.capacities.eventCount.toNat)
    .capacityMismatch
  let eventOrdinals ← readMany (readEventOrdinal descriptor) eventCount
  Reader.finish
  pure ⟨identity, requestDigest, checkpoint, outcome, eventOrdinals, bytes.length⟩

def parse (descriptor : Descriptor) (bytes : Bytes) : Except WireError ExecuteResponse :=
  (read descriptor).run bytes

end ExecuteResponse

inductive ExecuteReturn
  | pending
  | returned (code : UInt32)
  | preExecuteHostUnwind
deriving DecidableEq

inductive FramePhase
  | executing
  | decisionLocked
  | actionInProgress
  | providerSettled
  | receiptCommitted
  | quarantined
deriving DecidableEq

inductive CellState
  | live
  | provisionalResult
  | finalizing
  | dead
  | published
deriving DecidableEq

structure ResourceCell where
  state : CellState
  payload : UInt64
deriving DecidableEq

structure RecoveryFrame where
  identity : RecoveryIdentity
  requestDigest : Digest
  responseStorageDigest : Digest
  semanticTraceDigest : Digest
  executeReturn : ExecuteReturn
  checkpoint : UInt32
  phase : FramePhase
  decisionDigest : Digest
  nextAction : UInt32
  recordCount : UInt32
  activeFinalizers : UInt32
  cells : List ResourceCell
  actionChainDigest : Digest
  preCandidateDigest : Digest
deriving DecidableEq

def cellStateTag : CellState → UInt32
  | .live => 1
  | .provisionalResult => 2
  | .finalizing => 3
  | .dead => 4
  | .published => 5

def parseCellState (tag : UInt32) : Option CellState :=
  if tag = 1 then some .live
  else if tag = 2 then some .provisionalResult
  else if tag = 3 then some .finalizing
  else if tag = 4 then some .dead
  else if tag = 5 then some .published
  else none

def FramePhase.tag : FramePhase → UInt32
  | .executing => 1
  | .decisionLocked => 2
  | .actionInProgress => 3
  | .providerSettled => 4
  | .receiptCommitted => 5
  | .quarantined => 6

def FramePhase.ofTag (tag : UInt32) : Option FramePhase :=
  if tag = 1 then some .executing
  else if tag = 2 then some .decisionLocked
  else if tag = 3 then some .actionInProgress
  else if tag = 4 then some .providerSettled
  else if tag = 5 then some .receiptCommitted
  else if tag = 6 then some .quarantined
  else none

def ExecuteReturn.fields : ExecuteReturn → UInt32 × UInt32
  | .pending => (1, 0)
  | .returned code => (2, code)
  | .preExecuteHostUnwind => (3, preExecuteHostUnwindCode)

def ExecuteReturn.ofFields (tag code : UInt32) : Option ExecuteReturn :=
  if tag = 1 ∧ code = 0 then some .pending
  else if tag = 2 then some (.returned code)
  else if tag = 3 ∧ code = preExecuteHostUnwindCode then some .preExecuteHostUnwind
  else none

def ResourceCell.write (writer : Writer) (cell : ResourceCell) : Writer :=
  (writer.u32 (cellStateTag cell.state)).u64 cell.payload

def ResourceCell.read : Reader ResourceCell := do
  let tag ← Reader.u32
  let state ← ofOption .nonCanonical (parseCellState tag)
  let payload ← Reader.u64
  pure ⟨state, payload⟩

def frameDigestDomain : Bytes :=
  ascii "semaprax.native-callable-pre-candidate-frame-digest.v3" ++ [0]

section Frames

variable (sha256 : Bytes → Digest)

def hashFramed (domain bytes : Bytes) : Digest :=
  sha256 (domain ++ (leBytes 8 bytes.length).reverse ++ bytes)

def frameDigest (prefixWithoutDigest : Bytes) : Digest :=
  hashFramed sha256 frameDigestDomain prefixWithoutDigest

/-- What a return says of the digests of a response. -/
def ExecuteReturn.Agrees (frame : RecoveryFrame) : Prop :=
  match frame.executeReturn with
  | .pending => frame.responseStorageDigest = zeroDigest ∧ frame.semanticTraceDigest = zeroDigest
  | .returned _ => frame.responseStorageDigest ≠ zeroDigest
  | .preExecuteHostUnwind =>
    frame.responseStorageDigest ≠ zeroDigest ∧ frame.semanticTraceDigest = zeroDigest

instance (frame : RecoveryFrame) : Decidable (ExecuteReturn.Agrees frame) := by
  unfold ExecuteReturn.Agrees
  split <;> infer_instance

/-- What a phase says of a frame, of which so many cells are being finalized. -/
def FramePhase.Agrees (frame : RecoveryFrame) (finalizing : Nat) : Prop :=
  match frame.phase with
  | .executing =>
    frame.decisionDigest = zeroDigest ∧ frame.actionChainDigest = zeroDigest ∧
      frame.nextAction = 0 ∧ frame.recordCount = 0 ∧ frame.activeFinalizers ≤ 1 ∧
        finalizing = frame.activeFinalizers.toNat
  | .decisionLocked =>
    frame.decisionDigest ≠ zeroDigest ∧ frame.actionChainDigest ≠ zeroDigest ∧
      frame.nextAction = 0 ∧ frame.recordCount = 0 ∧ frame.activeFinalizers = 0 ∧ finalizing = 0
  | .actionInProgress =>
    frame.decisionDigest ≠ zeroDigest ∧ frame.actionChainDigest ≠ zeroDigest ∧
      frame.activeFinalizers ≤ 1 ∧ finalizing = frame.activeFinalizers.toNat
  | .providerSettled =>
    frame.decisionDigest ≠ zeroDigest ∧ frame.actionChainDigest ≠ zeroDigest ∧
      frame.activeFinalizers = 0 ∧ finalizing = 0 ∧
        ∀ cell ∈ frame.cells, cell.state = .dead ∨ cell.state = .published
  | .receiptCommitted => False
  | .quarantined => False

instance (frame : RecoveryFrame) (finalizing : Nat) :
    Decidable (FramePhase.Agrees frame finalizing) := by
  unfold FramePhase.Agrees
  split <;> infer_instance

def validateFrameState (frame : RecoveryFrame) : Except WireError Unit :=
  let finalizing := frame.cells.countP fun cell => cell.state = .finalizing
  if frame.requestDigest = zeroDigest then .error .nonCanonical
  else if ¬ExecuteReturn.Agrees frame then .error .nonCanonical
  else if ¬FramePhase.Agrees frame finalizing then .error .nonCanonical
  else .ok ()

namespace RecoveryFrame

def encode (frame : RecoveryFrame) : Option Bytes :=
  let writer := (Writer.new frameMagic).recoveryIdentity frame.identity
  let writer := ((writer.digest frame.requestDigest).digest frame.responseStorageDigest).digest
    frame.semanticTraceDigest
  let writer := (writer.u32 frame.executeReturn.fields.1).u32 frame.executeReturn.fields.2
  let writer := ((writer.u32 frame.checkpoint).u32 frame.phase.tag).digest frame.decisionDigest
  let writer := ((writer.u32 frame.nextAction).u32 frame.recordCount).u32 frame.activeFinalizers
  let writer := writer.u32 (UInt32.ofNat frame.cells.length)
  let writer := frame.cells.foldl ResourceCell.write writer
  ((writer.digest frame.actionChainDigest).digest frame.preCandidateDigest).finish

def read (descriptor : Descriptor) : Reader RecoveryFrame := do
  let bytes ← Prog.get
  stopIf (bytes.length ≠ descriptor.capacities.frame.toNat) .capacityMismatch
  Reader.envelope frameMagic
  let identity ← Reader.recoveryIdentity
  Reader.ofResult (validateRecoveryIdentity identity descriptor)
  let requestDigest ← Reader.digest
  let responseStorageDigest ← Reader.digest
  let semanticTraceDigest ← Reader.digest
  let returnTag ← Reader.u32
  let executeCode ← Reader.u32
  let executeReturn ← ofOption .nonCanonical (ExecuteReturn.ofFields returnTag executeCode)
  let checkpoint ← readCheckpoint descriptor
  let phaseTag ← Reader.u32
  let phase ← ofOption .nonCanonical (FramePhase.ofTag phaseTag)
  let decisionDigest ← Reader.digest
  let nextAction ← Reader.u32
  let recordCount ← Reader.u32
  let activeFinalizers ← Reader.u32
  let resourceCount ← Reader.usize
  stopIf (resourceCount ≠ descriptor.capacities.resourceCount.toNat) .capacityMismatch
  let cells ← readMany ResourceCell.read resourceCount
  let actionChainDigest ← Reader.digest
  let preCandidateDigest ← Reader.digest
  Reader.finish
  stopIf (phase = .receiptCommitted ∨ phase = .quarantined) .nonCanonical
  stopIf (preCandidateDigest ≠ frameDigest sha256 (bytes.take (bytes.length - 32)))
    .digestMismatch
  let value : RecoveryFrame :=
    { identity, requestDigest, responseStorageDigest, semanticTraceDigest, executeReturn,
      checkpoint, phase, decisionDigest, nextAction, recordCount, activeFinalizers, cells,
      actionChainDigest, preCandidateDigest }
  Reader.ofResult (validateFrameState value)
  pure value

def parse (descriptor : Descriptor) (bytes : Bytes) : Except WireError RecoveryFrame :=
  (read sha256 descriptor).run bytes

end RecoveryFrame

end Frames

inductive Decision
  | acceptScalar
  | acceptSemanticFailure
  | acceptOwned (owner : UInt32)
  | abortPhysical (code : UInt32)
  | abortMalformed
  | abortTraceRejected
  | abortHostUnwind
deriving DecidableEq

structure SettlementDecision where
  identity : RecoveryIdentity
  decision : Decision
deriving DecidableEq

/-- Tag and detail of a decision. -/
def Decision.fields : Decision → UInt32 × UInt32
  | .acceptScalar => (1, 0)
  | .acceptSemanticFailure => (2, 0)
  | .acceptOwned owner => (3, owner)
  | .abortPhysical code => (4, code)
  | .abortMalformed => (5, 0)
  | .abortTraceRejected => (6, 0)
  | .abortHostUnwind => (7, 0)

def Decision.ofFields (descriptor : Descriptor) (tag detail : UInt32) : Option Decision :=
  if tag = 1 ∧ detail = 0 ∧ descriptor.result = .scalarI64 then some .acceptScalar
  else if tag = 2 ∧ detail = 0 then some .acceptSemanticFailure
  else if tag = 3 ∧ descriptor.result.IsOwned detail then some (.acceptOwned detail)
  else if tag = 4 ∧ detail ≠ 0 then some (.abortPhysical detail)
  else if tag = 5 ∧ detail = 0 then some .abortMalformed
  else if tag = 6 ∧ detail = 0 then some .abortTraceRejected
  else if tag = 7 ∧ detail = 0 then some .abortHostUnwind
  else none

namespace SettlementDecision

def encode (value : SettlementDecision) : Option Bytes :=
  let writer := (Writer.new decisionMagic).recoveryIdentity value.identity
  ((writer.u32 value.decision.fields.1).u32 value.decision.fields.2).finish

def encodeFixed (value : SettlementDecision) : Except WireError Bytes :=
  SliceWriter.fill decisionBytes do
    SliceWriter.new decisionMagic
    SliceWriter.recoveryIdentity value.identity
    SliceWriter.u32 value.decision.fields.1
    SliceWriter.u32 value.decision.fields.2
    SliceWriter.finish

def read (descriptor : Descriptor) : Reader SettlementDecision := do
  let bytes ← Prog.get
  stopIf (bytes.length ≠ descriptor.capacities.decision.toNat) .capacityMismatch
  Reader.envelope decisionMagic
  let identity ← Reader.recoveryIdentity
  Reader.ofResult (validateRecoveryIdentity identity descriptor)
  let tag ← Reader.u32
  let detail ← Reader.u32
  let decision ← ofOption .nonCanonical (Decision.ofFields descriptor tag detail)
  Reader.finish
  stopIf (encode ⟨identity, decision⟩ ≠ some bytes) .nonCanonical
  pure ⟨identity, decision⟩

def parse (descriptor : Descriptor) (bytes : Bytes) : Except WireError SettlementDecision :=
  (read descriptor).run bytes

end SettlementDecision

inductive ActionBoundary
  | started
  | completed
  | publish
deriving DecidableEq

structure ActionRecord where
  identity : RecoveryIdentity
  semanticActionIndex : UInt32
  boundary : ActionBoundary
  ownerOrdinal : UInt32
  payload : UInt64
  before : CellState
  after : CellState
  checkpoint : UInt32
deriving DecidableEq

def ActionBoundary.tag : ActionBoundary → UInt32
  | .started => 1
  | .completed => 2
  | .publish => 3

def ActionBoundary.ofTag (tag : UInt32) : Option ActionBoundary :=
  if tag = 1 then some .started
  else if tag = 2 then some .completed
  else if tag = 3 then some .publish
  else none

def ActionBoundary.Moves : ActionBoundary → CellState → CellState → Prop
  | .started, before, after =>
    (before = .live ∨ before = .provisionalResult) ∧ after = .finalizing
  | .completed, before, after => before = .finalizing ∧ after = .dead
  | .publish, before, after => before = .provisionalResult ∧ after = .published

instance (boundary : ActionBoundary) (before after : CellState) :
    Decidable (boundary.Moves before after) := by
  cases boundary <;> unfold ActionBoundary.Moves <;> infer_instance

namespace ActionRecord

def encode (value : ActionRecord) : Option Bytes :=
  let writer := (Writer.new actionMagic).recoveryIdentity value.identity
  let writer := (writer.u32 value.semanticActionIndex).u32 value.boundary.tag
  let writer := (writer.u32 value.ownerOrdinal).u64 value.payload
  let writer := (writer.u32 (cellStateTag value.before)).u32 (cellStateTag value.after)
  (writer.u32 value.checkpoint).finish

def encodeFixed (value : ActionRecord) : Except WireError Bytes :=
  SliceWriter.fill actionRecordBytes do
    SliceWriter.new actionMagic
    SliceWriter.recoveryIdentity value.identity
    SliceWriter.u32 value.semanticActionIndex
    SliceWriter.u32 value.boundary.tag
    SliceWriter.u32 value.ownerOrdinal
    SliceWriter.u64 value.payload
    SliceWriter.u32 (cellStateTag value.before)
    SliceWriter.u32 (cellStateTag value.after)
    SliceWriter.u32 value.checkpoint
    SliceWriter.finish

def read (descriptor : Descriptor) : Reader ActionRecord := do
  let bytes ← Prog.get
  stopIf (bytes.length ≠ descriptor.capacities.actionEvidence.toNat) .capacityMismatch
  Reader.envelope actionMagic
  let identity ← Reader.recoveryIdentity
  Reader.ofResult (validateRecoveryIdentity identity descriptor)
  let semanticActionIndex ← Reader.u32
  let boundaryTag ← Reader.u32
  let boundary ← ofOption .nonCanonical (ActionBoundary.ofTag boundaryTag)
  let ownerOrdinal ← Reader.u32
  stopIf (ownerOrdinal ≥ descriptor.capacities.resourceCount) .nonCanonical
  let payload ← Reader.u64
  let beforeTag ← Reader.u32
  let before ← ofOption .nonCanonical (parseCellState beforeTag)
  let afterTag ← Reader.u32
  let after ← ofOption .nonCanonical (parseCellState afterTag)
  let checkpoint ← readCheckpoint descriptor
  Reader.finish
  stopIf (¬boundary.Moves before after) .nonCanonical
  let value : ActionRecord :=
    { identity, semanticActionIndex, boundary, ownerOrdinal, payload, before, after, checkpoint }
  stopIf (value.encode ≠ some bytes) .nonCanonical
  pure value

def parse (descriptor : Descriptor) (bytes : Bytes) : Except WireError ActionRecord :=
  (read descriptor).run bytes

end ActionRecord

inductive CandidateOutcome
  | scalar
  | failure
  | owned (owner : UInt32)
  | abort
deriving DecidableEq

inductive Disposition
  | dead
  | published
deriving DecidableEq

structure DispositionCell where
  disposition : Disposition
  payload : UInt64
deriving DecidableEq

structure CandidateReceipt where
  identity : RecoveryIdentity
  requestDigest : Digest
  responseStorageDigest : Digest
  semanticTraceDigest : Digest
  frameDigest : Digest
  decisionDigest : Digest
  actionEvidenceDigest : Digest
  outcome : CandidateOutcome
  activeFinalizers : UInt32
  dispositions : List DispositionCell
deriving DecidableEq

/-- Tag and detail of an outcome. -/
def CandidateOutcome.fields : CandidateOutcome → UInt32 × UInt32
  | .scalar => (1, 0)
  | .failure => (2, 0)
  | .owned owner => (3, owner)
  | .abort => (4, 0)

def CandidateOutcome.ofFields (tag detail : UInt32) : Option CandidateOutcome :=
  if tag = 1 ∧ detail = 0 then some .scalar
  else if tag = 2 ∧ detail = 0 then some .failure
  else if tag = 3 then some (.owned detail)
  else if tag = 4 ∧ detail = 0 then some .abort
  else none

def Disposition.tag : Disposition → UInt32
  | .dead => 1
  | .published => 2

def Disposition.ofTag (tag : UInt32) : Option Disposition :=
  if tag = 1 then some .dead else if tag = 2 then some .published else none

def DispositionCell.write (writer : Writer) (cell : DispositionCell) : Writer :=
  (writer.u32 cell.disposition.tag).u64 cell.payload

def DispositionCell.read : Reader DispositionCell := do
  let tag ← Reader.u32
  let disposition ← ofOption .nonCanonical (Disposition.ofTag tag)
  let payload ← Reader.u64
  pure ⟨disposition, payload⟩

/-- How many cells are published, and the last of them. -/
def publishedCells (dispositions : List DispositionCell) : Nat × Option UInt32 :=
  dispositions.zipIdx.foldl (fun (count, owner) (cell, index) =>
    if cell.disposition = .published then (count + 1, some (UInt32.ofNat index))
    else (count, owner)) (0, none)

def CandidateOutcome.Publishes (outcome : CandidateOutcome) (result : ResultShape)
    (published : Nat × Option UInt32) : Prop :=
  match outcome with
  | .owned owner => result.IsOwned owner ∧ published.1 = 1 ∧ published.2 = some owner
  | .scalar => result = .scalarI64 ∧ published.1 = 0
  | .failure => published.1 = 0
  | .abort => published.1 = 0

instance (outcome : CandidateOutcome) (result : ResultShape) (published : Nat × Option UInt32) :
    Decidable (outcome.Publishes result published) := by
  cases outcome <;> unfold CandidateOutcome.Publishes <;> infer_instance

namespace CandidateReceipt

def encode (receipt : CandidateReceipt) : Option Bytes :=
  let writer := (Writer.new candidateMagic).recoveryIdentity receipt.identity
  let writer := ((writer.digest receipt.requestDigest).digest receipt.responseStorageDigest).digest
    receipt.semanticTraceDigest
  let writer := ((writer.digest receipt.frameDigest).digest receipt.decisionDigest).digest
    receipt.actionEvidenceDigest
  let writer := (writer.u32 receipt.outcome.fields.1).u32 receipt.outcome.fields.2
  let writer := writer.u32 receipt.activeFinalizers
  let writer := writer.u32 (UInt32.ofNat receipt.dispositions.length)
  (receipt.dispositions.foldl DispositionCell.write writer).finish

def read (descriptor : Descriptor) : Reader CandidateReceipt := do
  let bytes ← Prog.get
  stopIf (bytes.length ≠ descriptor.capacities.candidateReceipt.toNat) .capacityMismatch
  Reader.envelope candidateMagic
  let identity ← Reader.recoveryIdentity
  Reader.ofResult (validateRecoveryIdentity identity descriptor)
  let requestDigest ← Reader.nonzeroDigest
  let responseStorageDigest ← Reader.nonzeroDigest
  let semanticTraceDigest ← Reader.digest
  let frameDigest ← Reader.nonzeroDigest
  let decisionDigest ← Reader.nonzeroDigest
  let actionEvidenceDigest ← Reader.nonzeroDigest
  let tag ← Reader.u32
  let detail ← Reader.u32
  let outcome ← ofOption .nonCanonical (CandidateOutcome.ofFields tag detail)
  let activeFinalizers ← Reader.u32
  stopIf (activeFinalizers ≠ 0) .nonCanonical
  let count ← Reader.usize
  stopIf (count ≠ descriptor.capacities.resourceCount.toNat) .capacityMismatch
  let dispositions ← readMany DispositionCell.read count
  Reader.finish
  stopIf (¬outcome.Publishes descriptor.result (publishedCells dispositions)) .nonCanonical
  stopIf (¬(outcome = .abort ↔ semanticTraceDigest = zeroDigest)) .nonCanonical
  pure { identity, requestDigest, responseStorageDigest, semanticTraceDigest, frameDigest,
         decisionDigest, actionEvidenceDigest, outcome, activeFinalizers, dispositions }

def parse (descriptor : Descriptor) (bytes : Bytes) : Except WireError CandidateReceipt :=
  (read descriptor).run bytes

end CandidateReceipt

end Semaprax.CallableWire
