/-
**Carrier frames and bindings** (`public_generic_abi.rs`, `public_generic_abi/carrier/frame.rs`,
`public_generic_abi/carrier.rs`).

A frame lists the leaves of a value behind the facts that it is bound to, and ends with the digest of
all that. A binding names a descriptor, a target and a runtime.

* `frame`, `readFrame` — a field behind its length.
* `LogicalCarrierFrame.encode`, `parseBounded` — the bytes of a frame.
* `CarrierBindingV1.encode`, `decodeBinding`, `replayBinding` — the bytes of a binding.
* `CarrierFrameBinding.validateFrame` — a frame and the plan that it is checked against.
-/

import Semaprax.CarrierCall.Model
import Semaprax.Library.Fields

namespace Semaprax.CarrierFrames

open Library
open CarrierCall (Diagnostic Direction carrierSchema)

abbrev Bytes := List UInt8

def malformedCarrier : String := "SPX-PG801"
def carrierCapacity : String := "SPX-PG802"
def carrierReplayMismatch : String := "SPX-PG803"

def maxOwnedLeavesPerInstance : Nat := 256
def maxBytesPerLeaf : Nat := 64 * 1024
def maxTotalPayloadBytes : Nat := 16 * 1024 * 1024
def maxFrameFieldBytes : Nat := 64 * 1024
def maxFrameWireBytes : Nat := maxTotalPayloadBytes + 4 * 1024 * 1024
def maxBindingFieldBytes : Nat := 64 * 1024
def maxBindingWireBytes : Nat := 256 * 1024

def domain (text : String) : Bytes := encodeText text ++ [0]

def frameDomain : Bytes := domain "semaprax.public-generic-carrier.v1.frame"
def leafInventoryDomain : Bytes := domain "semaprax.public-generic-carrier.v1.leaf-inventory"

/-- The digest of some bytes in a domain, as a text that is not too long for a field. -/
structure Digest where
  text : Bytes → Bytes → String
  short : ∀ domain bytes, (encodeText (text domain bytes)).length ≤ maxFrameFieldBytes

/-- The greatest `usize`. -/
def maxUsize : Nat := 2 ^ 64 - 1

def checkedAdd (left right : Nat) : Option Nat :=
  if left + right ≤ maxUsize then some (left + right) else none

/-- The part of the bytes from `start` up to `stop`. -/
def part (bytes : Bytes) (start stop : Nat) : Option Bytes :=
  if start ≤ stop ∧ stop ≤ bytes.length then some ((bytes.take stop).drop start) else none

/-- The number that eight bytes write. -/
def fromLeBytes (bytes : Bytes) : Option Nat :=
  if bytes.length = 8 then some (leValue bytes) else none

/-- A field behind its length, at the end of what is written. -/
def frame (preimage bytes : Bytes) : Bytes := preimage ++ leBytes 8 bytes.length ++ bytes

def readFrame (input : Bytes) (offset maxLen : Nat) : Option (Bytes × Nat) := do
  let headerEnd ← checkedAdd offset 8
  let header ← part input offset headerEnd
  let len ← fromLeBytes header
  if maxLen < len then none
  else do
    let fieldEnd ← checkedAdd headerEnd len
    let field ← part input headerEnd fieldEnd
    some (field, fieldEnd)

def malformed (subject : String) : Diagnostic :=
  ⟨malformedCarrier, s!"not a canonical {carrierSchema} frame: {subject}"⟩

def capacity (subject : String) : Diagnostic :=
  ⟨carrierCapacity, s!"{carrierSchema} frame exceeded its {subject} bound"⟩

def replayMismatch (subject : String) : Diagnostic :=
  ⟨carrierReplayMismatch, s!"{carrierSchema} frame {subject}"⟩

def directionText : Direction → String
  | .input => "input"
  | .result => "result"

def directionFromText (text : String) : Option Direction :=
  if text = "input" then some .input
  else if text = "result" then some .result
  else none

inductive LeafKind
  | bytes
deriving DecidableEq, Repr

def LeafKind.tag : LeafKind → UInt8
  | .bytes => 0

def LeafKind.fromTag (tag : UInt8) : Option LeafKind := if tag = 0 then some .bytes else none

structure CarrierLeaf where
  path : String
  kind : LeafKind
  payload : Bytes
deriving DecidableEq, Repr

/-- The name of the schema. There is one version. -/
abbrev Schema := { text : String // text = carrierSchema }

structure LogicalCarrierFrame where
  schema : Schema
  direction : Direction
  descriptorDigest : String
  endpointIdentityDigest : String
  instanceIdentityDigest : String
  leafInventoryDigest : String
  leaves : List CarrierLeaf

namespace LogicalCarrierFrame

def totalPayloadLength (carrier : LogicalCarrierFrame) : Nat :=
  (carrier.leaves.map fun leaf => leaf.payload.length).sum

def pushLeaf (preimage : Bytes) (leaf : CarrierLeaf) : Bytes :=
  frame (frame preimage (encodeText leaf.path) ++ [leaf.kind.tag]) leaf.payload

def bodyPreimage (carrier : LogicalCarrierFrame) : Bytes :=
  let preimage := frame [] (encodeText carrier.schema.val)
  let preimage := frame preimage (encodeText (directionText carrier.direction))
  let preimage := frame preimage (encodeText carrier.descriptorDigest)
  let preimage := frame preimage (encodeText carrier.endpointIdentityDigest)
  let preimage := frame preimage (encodeText carrier.instanceIdentityDigest)
  let preimage := frame preimage (encodeText carrier.leafInventoryDigest)
  let preimage := preimage ++ leBytes 8 carrier.leaves.length
  let preimage := preimage ++ leBytes 8 carrier.totalPayloadLength
  carrier.leaves.foldl pushLeaf preimage

def carrierFactsDigest (digest : Digest) (carrier : LogicalCarrierFrame) : String :=
  digest.text frameDomain carrier.bodyPreimage

def encode (digest : Digest) (carrier : LogicalCarrierFrame) : Bytes :=
  frame carrier.bodyPreimage (encodeText (carrier.carrierFactsDigest digest))

end LogicalCarrierFrame

/-- A refusal, or a panic: of an overflow, or of bytes that are not there. -/
inductive Fault
  | refused (diagnostic : Diagnostic)
  | panicked

/-- A reader with its offset. -/
abbrev Reading (A : Type) := Prog Nat Fault A

def refused {A : Type} (diagnostic : Diagnostic) : Option A → Reading A :=
  ofOption (.refused diagnostic)

def refuseIf (condition : Prop) [Decidable condition] (diagnostic : Diagnostic) : Reading Unit :=
  stopIf condition (.refused diagnostic)

/-- A field that is a text, or why it is not one. -/
def readText (bytes : Bytes) (maxLen : Nat) (truncated broken : Diagnostic) : Reading String := do
  let offset ← Prog.get
  let found ← refused truncated (readFrame bytes offset maxLen)
  Prog.set found.2
  refused broken (decodeText found.1)

def readStringField (bytes : Bytes) (name : String) : Reading String :=
  readText bytes maxFrameFieldBytes (malformed s!"truncated or oversized {name} field")
    (malformed s!"{name} is not UTF-8")

/-- Nothing follows. -/
def requireEnd (bytes : Bytes) (trailing : Diagnostic) : Reading Unit := do
  let offset ← Prog.get
  refuseIf (offset ≠ bytes.length) trailing

def readU64Field (bytes : Bytes) (name : String) : Reading Nat := do
  let offset ← Prog.get
  let stop ← refused (malformed s!"truncated {name}") (checkedAdd offset 8)
  let field ← refused (malformed s!"truncated {name}") (part bytes offset stop)
  let value ← ofOption .panicked (fromLeBytes field)
  Prog.set stop
  pure value

/-- Go one byte on. -/
def advance : Reading Unit := do
  let offset ← Prog.get
  let next ← ofOption .panicked (checkedAdd offset 1)
  Prog.set next

/-- Go eight bytes back. -/
def rollBack : Reading Unit := do
  let offset ← Prog.get
  stopIf (offset < 8) .panicked
  Prog.set (offset - 8)

/-- What has been read of the leaves. -/
structure Gathered where
  leaves : List CarrierLeaf
  seenPaths : List String
  actualTotalPayload : Nat

def readKind (bytes : Bytes) : Reading LeafKind := do
  let offset ← Prog.get
  let tag ← refused (malformed "truncated leaf kind") bytes[offset]?
  advance
  refused (malformed "unknown leaf kind") (LeafKind.fromTag tag)

/-- The length is read before the field, which begins with it. -/
def readPayload (bytes : Bytes) : Reading Bytes := do
  let declaredLeafLen ← readU64Field bytes "leaf payload length"
  rollBack
  refuseIf (maxBytesPerLeaf < declaredLeafLen) (capacity "single-leaf-byte")
  let offset ← Prog.get
  let found ← refused (malformed "truncated leaf payload") (readFrame bytes offset maxBytesPerLeaf)
  Prog.set found.2
  pure found.1

def readLeaf (bytes : Bytes) (gathered : Gathered) : Reading Gathered := do
  let path ← readStringField bytes "leaf_path"
  refuseIf (path ∈ gathered.seenPaths) (malformed "duplicate leaf path")
  let kind ← readKind bytes
  let payload ← readPayload bytes
  let total ← refused (capacity "total-payload-byte")
    (checkedAdd gathered.actualTotalPayload payload.length)
  refuseIf (maxTotalPayloadBytes < total) (capacity "total-payload-byte")
  pure ⟨gathered.leaves ++ [⟨path, kind, payload⟩], path :: gathered.seenPaths, total⟩

def readLeaves (bytes : Bytes) : Nat → Gathered → Reading Gathered
  | 0, gathered => pure gathered
  | count + 1, gathered => do
      let gathered ← readLeaf bytes gathered
      readLeaves bytes count gathered

def knownSchema (text : String) : Option Schema :=
  if known : text = carrierSchema then some ⟨text, known⟩ else none

/-- All of a frame but its last field. -/
def readBody (bytes : Bytes) : Reading LogicalCarrierFrame := do
  let schemaText ← readStringField bytes "schema"
  let schema ← refused (malformed "unknown carrier schema") (knownSchema schemaText)
  let text ← readStringField bytes "direction"
  let direction ← refused (malformed "unknown direction") (directionFromText text)
  let descriptorDigest ← readStringField bytes "descriptor_digest"
  let endpointIdentityDigest ← readStringField bytes "endpoint_identity_digest"
  let instanceIdentityDigest ← readStringField bytes "instance_identity_digest"
  let leafInventoryDigest ← readStringField bytes "leaf_inventory_digest"
  let leafCount ← readU64Field bytes "leaf_count"
  refuseIf (maxOwnedLeavesPerInstance < leafCount) (capacity "leaf-count")
  let declared ← readU64Field bytes "total_payload_length"
  refuseIf (maxTotalPayloadBytes < declared) (capacity "total-payload-byte")
  let gathered ← readLeaves bytes leafCount ⟨[], [], 0⟩
  refuseIf (gathered.actualTotalPayload ≠ declared) (malformed
    "declared total payload length does not match the sum of leaf payload lengths")
  pure ⟨schema, direction, descriptorDigest, endpointIdentityDigest, instanceIdentityDigest,
    leafInventoryDigest, gathered.leaves⟩

def readFacts (digest : Digest) (bytes : Bytes) (candidate : LogicalCarrierFrame) :
    Reading LogicalCarrierFrame := do
  let carrierFactsDigest ← readStringField bytes "carrier_facts_digest"
  requireEnd bytes (malformed "trailing bytes after the carrier frame")
  refuseIf (candidate.carrierFactsDigest digest ≠ carrierFactsDigest) (replayMismatch
    "independent replay found the recomputed carrier-facts digest does not equal the submitted one")
  pure candidate

def parseBounded (digest : Digest) (bytes : Bytes) : Except Fault LogicalCarrierFrame :=
  if maxFrameWireBytes < bytes.length then .error (.refused (capacity "total wire-byte"))
  else ((readBody bytes >>= readFacts digest bytes) 0).1

/-- The preimage of the paths of the leaves. -/
def framedLeafPaths (paths : List String) : Bytes :=
  paths.foldl (fun preimage path => frame preimage (encodeText path)) (leBytes 8 paths.length)

structure CarrierFrameBinding where
  direction : Direction
  descriptorDigest : String
  endpointIdentityDigest : String
  instanceIdentityDigest : String
  leafInventoryDigest : String
  leafPaths : List String

def CarrierFrameBinding.new (digest : Digest) (direction : Direction)
    (descriptorDigest endpointIdentityDigest instanceIdentityDigest : String)
    (leafPaths : List String) : CarrierFrameBinding where
  direction := direction
  descriptorDigest := descriptorDigest
  endpointIdentityDigest := endpointIdentityDigest
  instanceIdentityDigest := instanceIdentityDigest
  leafInventoryDigest := digest.text leafInventoryDomain (framedLeafPaths leafPaths)
  leafPaths := leafPaths

def mismatchIf (condition : Prop) [Decidable condition] (subject : String) :
    Except Diagnostic Unit :=
  if condition then .error (replayMismatch subject) else .ok ()

def CarrierFrameBinding.validateFrame (plan : CarrierFrameBinding) (carrier : LogicalCarrierFrame) :
    Except Diagnostic Unit := do
  mismatchIf (carrier.direction ≠ plan.direction) "direction does not match the trusted plan"
  mismatchIf (carrier.descriptorDigest ≠ plan.descriptorDigest)
    "descriptor digest does not match the trusted plan"
  mismatchIf (carrier.endpointIdentityDigest ≠ plan.endpointIdentityDigest)
    "endpoint identity digest does not match the trusted plan"
  mismatchIf (carrier.instanceIdentityDigest ≠ plan.instanceIdentityDigest)
    "instance identity digest does not match the trusted plan"
  mismatchIf (carrier.leafInventoryDigest ≠ plan.leafInventoryDigest)
    "leaf inventory digest does not match the trusted plan"
  mismatchIf (carrier.leaves.map CarrierLeaf.path ≠ plan.leafPaths)
    ("leaf sequence does not match the trusted canonical inventory (missing, extra, or reordered " ++
      "leaf)")

inductive TargetProfile
  | interpreter
  | nativeC11
  | coreWasm
deriving DecidableEq, Repr

def TargetProfile.text : TargetProfile → String
  | .interpreter => "interpreter"
  | .nativeC11 => "native-c11"
  | .coreWasm => "core-wasm"

def TargetProfile.fromText (text : String) : Option TargetProfile :=
  if text = "interpreter" then some .interpreter
  else if text = "native-c11" then some .nativeC11
  else if text = "core-wasm" then some .coreWasm
  else none

structure CarrierBindingV1 where
  schema : Schema
  descriptorIdentityDigest : String
  targetProfile : TargetProfile
  runtimeIdentity : String
deriving DecidableEq

def CarrierBindingV1.preimage (binding : CarrierBindingV1) : Bytes :=
  let preimage := frame [] (encodeText binding.schema.val)
  let preimage := frame preimage (encodeText binding.descriptorIdentityDigest)
  let preimage := frame preimage (encodeText binding.targetProfile.text)
  frame preimage (encodeText binding.runtimeIdentity)

def CarrierBindingV1.encode (binding : CarrierBindingV1) : Bytes := binding.preimage

def malformedBinding (subject : String) : Diagnostic :=
  ⟨malformedCarrier, s!"not a canonical {carrierSchema} binding: {subject}"⟩

def readBindingField (bytes : Bytes) (name : String) : Reading String :=
  readText bytes maxBindingFieldBytes (malformedBinding s!"truncated or oversized {name} field")
    (malformedBinding s!"{name} is not UTF-8")

def readBinding (bytes : Bytes) : Reading CarrierBindingV1 := do
  let schemaText ← readBindingField bytes "schema"
  let schema ← refused (malformedBinding "unknown carrier schema") (knownSchema schemaText)
  let descriptorIdentityDigest ← readBindingField bytes "descriptor_identity_digest"
  let text ← readBindingField bytes "target_profile"
  let targetProfile ← refused (malformedBinding "unknown target profile")
    (TargetProfile.fromText text)
  let runtimeIdentity ← readBindingField bytes "runtime_identity"
  pure ⟨schema, descriptorIdentityDigest, targetProfile, runtimeIdentity⟩

def endBinding (bytes : Bytes) (binding : CarrierBindingV1) : Reading CarrierBindingV1 := do
  requireEnd bytes (malformedBinding "trailing bytes after the carrier binding")
  pure binding

def decodeBinding (bytes : Bytes) : Except Fault CarrierBindingV1 :=
  if maxBindingWireBytes < bytes.length then
    .error (.refused ⟨carrierCapacity, s!"{carrierSchema} exceeded its total wire-byte bound"⟩)
  else ((readBinding bytes >>= endBinding bytes) 0).1

def replayBinding (candidate : Bytes) (trusted : CarrierBindingV1) :
    Except Fault CarrierBindingV1 := do
  let decoded ← decodeBinding candidate
  if decoded.preimage ≠ trusted.preimage then
    .error (.refused ⟨carrierReplayMismatch,
      s!"{carrierSchema} independent replay does not match the trusted value"⟩)
  else .ok decoded

end Semaprax.CarrierFrames
