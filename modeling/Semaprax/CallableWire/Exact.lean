/-
**The wires are exact** (`callable_wire_v3.rs`).

* `….body_inj` — the fields of a format can be told from its body.
* `ExecuteResponse.sealed_of_encode` — an accepted storage starts with a whole response.
* `ExactWires` — all six formats, and the encoders of fixed size; `wires_exact`. A request writes a
  scalar argument without its kind, which `KindsAgree` asks for.
* `kinds_unwritten` — a request that is accepted as another one.
-/

import Semaprax.CallableWire.Canonical

namespace Semaprax.CallableWire

open Library

/-- Arguments that do not differ in their kinds. -/
def RequestArgument.SameKind (argument other : RequestArgument) : Prop :=
  ∀ kind kind', argument.scalarKind = some kind → other.scalarKind = some kind' → kind = kind'

theorem RequestArgument.bytes_inj {argument other : RequestArgument} {rest rest' : Bytes}
    (kinds : argument.SameKind other) (same : argument.bytes ++ rest = other.bytes ++ rest') :
    argument = other ∧ rest = rest' := by
  cases argument <;> cases other <;> simp only [bytes, List.append_assoc] at same
  case i64.i64 =>
    obtain ⟨_, same⟩ := readable_u32 same
    obtain ⟨indices, same⟩ := readable_u32 same
    obtain ⟨values, same⟩ := readable_i64 same
    exact ⟨by rw [indices, values], same⟩
  case bool.bool index value index' value' =>
    obtain ⟨_, same⟩ := readable_u32 same
    obtain ⟨indices, same⟩ := readable_u32 same
    obtain ⟨values, same⟩ := readable_u32 same
    have equal : value = value' := by
      cases value <;> cases value' <;> first | rfl | exact absurd values (by decide)
    exact ⟨by rw [indices, equal], same⟩
  case owned.owned =>
    obtain ⟨_, same⟩ := readable_u32 same
    obtain ⟨indices, same⟩ := readable_u32 same
    obtain ⟨owners, same⟩ := readable_u32 same
    obtain ⟨payloads, same⟩ := readable_u64 same
    exact ⟨by rw [indices, owners, payloads], same⟩
  case i64.bool => cases kinds .i64 .bool rfl rfl
  case bool.i64 => cases kinds .bool .i64 rfl rfl
  all_goals exact absurd (readable_u32 same).1 (by decide)

namespace ExecuteRequest

/-- The scalar arguments have the kinds of the scalar parameters in their places. -/
def KindsAgree (descriptor : Descriptor) (request : ExecuteRequest) : Prop :=
  ∀ (place : Nat) (argument : RequestArgument) (kind kind' : ScalarKind),
    request.arguments[place]? = some argument → argument.scalarKind = some kind →
    descriptor.parameters[place]? = some (.scalar kind') → kind = kind'

theorem body_inj {request other : ExecuteRequest} (small : 20 + request.body.length < 2 ^ 32)
    (small' : 20 + other.body.length < 2 ^ 32)
    (kinds : ∀ (place : Nat) (argument argument' : RequestArgument),
      request.arguments[place]? = some argument → other.arguments[place]? = some argument' →
      argument.SameKind argument')
    (same : request.body = other.body) : request = other := by
  have count {value : ExecuteRequest} (bounded : 20 + value.body.length < 2 ^ 32) :
      value.arguments.length < 2 ^ 32 := by
    have shorter := length_le_flatMap RequestArgument.bytes
      (fun argument => by cases argument <;> simp [RequestArgument.bytes]) value.arguments
    simp only [body, List.length_append] at bounded
    omega
  unfold body at same
  obtain ⟨identities, same⟩ := readable_callIdentity same
  obtain ⟨counts, same⟩ := readable_u32 same
  have lengths := count_inj (count small) (count small') counts
  have places : List.Forall₂ RequestArgument.SameKind request.arguments other.arguments := by
    refine List.forall₂_iff_get.mpr ⟨lengths, fun place inside inside' => ?_⟩
    exact kinds place _ _ (List.getElem?_eq_getElem inside) (List.getElem?_eq_getElem inside')
  have padded : request.arguments.flatMap RequestArgument.bytes ++ [] =
      other.arguments.flatMap RequestArgument.bytes ++ [] := by rw [same]
  have arguments := (flatMap_inj (fun _ _ _ _ => RequestArgument.bytes_inj) places padded).1
  cases request
  cases other
  simp only at identities arguments
  rw [identities, arguments]

end ExecuteRequest

namespace ExecuteResponse

variable {response : ExecuteResponse} {bytes : Bytes} {declared : Nat}

theorem body_inj {other : ExecuteResponse} (small : 20 + response.body.length < 2 ^ 32)
    (small' : 20 + other.body.length < 2 ^ 32)
    (capacities : response.storageCapacity = other.storageCapacity)
    (same : response.body = other.body) : response = other := by
  have count {value : ExecuteResponse} (bounded : 20 + value.body.length < 2 ^ 32) :
      value.eventOrdinals.length < 2 ^ 32 := by
    have shorter := length_le_flatMap u32Bytes
      (fun ordinal => by rw [length_u32Bytes]; decide) value.eventOrdinals
    simp only [body, List.length_append] at bounded
    omega
  unfold body at same
  obtain ⟨identities, same⟩ := readable_callIdentity same
  obtain ⟨digests, same⟩ := readable_digest same
  obtain ⟨checkpoints, same⟩ := readable_u32 same
  obtain ⟨tags, same⟩ := readable_u32 same
  obtain ⟨details, same⟩ := readable_u32 same
  obtain ⟨payloads, same⟩ := readable_u64 same
  obtain ⟨counts, same⟩ := readable_u32 same
  have outcomes := ExecuteOutcome.fields_injective (Prod.ext tags (Prod.ext details payloads))
  have lengths := count_inj (count small) (count small') counts
  have padded : response.eventOrdinals.flatMap u32Bytes ++ [] =
      other.eventOrdinals.flatMap u32Bytes ++ [] := by rw [same]
  have events := (readable_u32.many lengths padded).1
  cases response
  cases other
  simp only at capacities identities digests checkpoints outcomes events
  rw [capacities, identities, digests, checkpoints, outcomes, events]

theorem length_resize (bytes : Bytes) (length : Nat) : (resize bytes length).length = length := by
  rw [resize, List.length_append, List.length_take, List.length_replicate]
  omega

theorem declaredTotal_eq {magic : Bytes} (total : declaredTotal bytes magic = .ok declared) :
    declared = (UInt32.ofNat (leValue ((bytes.drop 16).take 4))).toNat := by
  unfold declaredTotal at total
  simp only at total
  split_ifs at total
  exact (Except.ok.inj total).symm

theorem sealed_of_encode (encoded : response.encode = some bytes)
    (total : declaredTotal bytes responseMagic = .ok declared) :
    response.storageCapacity = bytes.length ∧ response.sealed = some (bytes.take declared) := by
  obtain ⟨whole, sealing, rfl⟩ := Option.map_eq_some_iff.mp encoded
  have stored := length_resize whole response.storageCapacity
  have bounds := declaredTotal_le total
  rw [sealed_eq] at sealing
  obtain ⟨small, rfl⟩ := finish_some rfl sealing
  have head := length_header (rfl : responseMagic.length = 8) (20 + response.body.length)
  have size : (enveloped responseMagic response.body).length = 20 + response.body.length := by
    rw [enveloped, List.length_append, head]
  -- the length stands in the first 20 bytes, which the storage has kept
  have front : (resize (enveloped responseMagic response.body) response.storageCapacity).take 20 =
      header responseMagic (20 + response.body.length) := by
    rw [resize, List.take_append_of_le_length (by rw [List.length_take, size]; omega),
      List.take_take, min_eq_left (by omega), enveloped, List.take_left' head]
  have before : (responseMagic ++ u32Bytes version ++ u32Bytes headerSize).length = 16 := rfl
  have field : ((resize (enveloped responseMagic response.body)
      response.storageCapacity).drop 16).take (20 - 16) =
      leBytes 4 (20 + response.body.length) := by
    rw [← List.drop_take, front, header, ← List.append_assoc, ← List.append_assoc,
      List.drop_left' before]
  have length := declaredTotal_eq total
  have whole : (20 + response.body.length) % 256 ^ 4 = 20 + response.body.length :=
    Nat.mod_eq_of_lt small
  rw [field, leValue_leBytes, whole, UInt32.toNat_ofNat_of_lt' small] at length
  rw [stored] at bounds
  refine ⟨stored.symm, ?_⟩
  rw [sealed_eq, sealing, length, resize, List.take_append_of_le_length (by
    rw [List.length_take, size]; omega), List.take_take, min_eq_left (by omega),
    List.take_of_length_le (by rw [size])]

end ExecuteResponse

theorem readable_resourceCell : Readable ResourceCell.bytes := by
  rintro ⟨state, payload⟩ ⟨state', payload'⟩ rest rest' same
  simp only [ResourceCell.bytes, List.append_assoc] at same
  obtain ⟨states, same⟩ := readable_u32 same
  obtain ⟨payloads, same⟩ := readable_u64 same
  exact ⟨by rw [cellStateTag_injective states, payloads], same⟩

theorem readable_dispositionCell : Readable DispositionCell.bytes := by
  rintro ⟨disposition, payload⟩ ⟨disposition', payload'⟩ rest rest' same
  simp only [DispositionCell.bytes, List.append_assoc] at same
  obtain ⟨dispositions, same⟩ := readable_u32 same
  obtain ⟨payloads, same⟩ := readable_u64 same
  exact ⟨by rw [Disposition.tag_injective dispositions, payloads], same⟩

theorem RecoveryFrame.body_inj {frame other : RecoveryFrame}
    (small : 20 + frame.body.length < 2 ^ 32) (small' : 20 + other.body.length < 2 ^ 32)
    (same : frame.body = other.body) : frame = other := by
  have count {value : RecoveryFrame} (bounded : 20 + value.body.length < 2 ^ 32) :
      value.cells.length < 2 ^ 32 := by
    have shorter := length_le_flatMap ResourceCell.bytes
      (fun cell => by simp [ResourceCell.bytes]) value.cells
    simp only [body, List.length_append] at bounded
    omega
  unfold body at same
  obtain ⟨identities, same⟩ := readable_recoveryIdentity same
  obtain ⟨requests, same⟩ := readable_digest same
  obtain ⟨storages, same⟩ := readable_digest same
  obtain ⟨traces, same⟩ := readable_digest same
  obtain ⟨tags, same⟩ := readable_u32 same
  obtain ⟨codes, same⟩ := readable_u32 same
  obtain ⟨checkpoints, same⟩ := readable_u32 same
  obtain ⟨phases, same⟩ := readable_u32 same
  obtain ⟨decisions, same⟩ := readable_digest same
  obtain ⟨actions, same⟩ := readable_u32 same
  obtain ⟨records, same⟩ := readable_u32 same
  obtain ⟨finalizers, same⟩ := readable_u32 same
  obtain ⟨counts, same⟩ := readable_u32 same
  have lengths := count_inj (count small) (count small') counts
  obtain ⟨cells, same⟩ := readable_resourceCell.many lengths same
  obtain ⟨chains, same⟩ := readable_digest same
  have returns := ExecuteReturn.fields_injective (Prod.ext tags codes)
  have phases := FramePhase.tag_injective phases
  have digests := Subtype.ext same
  cases frame
  cases other
  simp only at *
  rw [identities, requests, storages, traces, returns, checkpoints, phases, decisions, actions,
    records, finalizers, cells, chains, digests]

theorem SettlementDecision.body_inj {value other : SettlementDecision}
    (same : value.body = other.body) : value = other := by
  unfold body at same
  obtain ⟨identities, same⟩ := readable_recoveryIdentity same
  obtain ⟨tags, same⟩ := readable_u32 same
  have decisions := Decision.fields_injective (Prod.ext tags (u32Bytes_injective same))
  cases value
  cases other
  simp only at *
  rw [identities, decisions]

theorem ActionRecord.body_inj {value other : ActionRecord} (same : value.body = other.body) :
    value = other := by
  unfold body at same
  obtain ⟨identities, same⟩ := readable_recoveryIdentity same
  obtain ⟨indices, same⟩ := readable_u32 same
  obtain ⟨boundaries, same⟩ := readable_u32 same
  obtain ⟨owners, same⟩ := readable_u32 same
  obtain ⟨payloads, same⟩ := readable_u64 same
  obtain ⟨befores, same⟩ := readable_u32 same
  obtain ⟨afters, same⟩ := readable_u32 same
  have boundaries := ActionBoundary.tag_injective boundaries
  have befores := cellStateTag_injective befores
  have afters := cellStateTag_injective afters
  have checkpoints := u32Bytes_injective same
  cases value
  cases other
  simp only at *
  rw [identities, indices, boundaries, owners, payloads, befores, afters, checkpoints]

theorem CandidateReceipt.body_inj {receipt other : CandidateReceipt}
    (small : 20 + receipt.body.length < 2 ^ 32) (small' : 20 + other.body.length < 2 ^ 32)
    (same : receipt.body = other.body) : receipt = other := by
  have count {value : CandidateReceipt} (bounded : 20 + value.body.length < 2 ^ 32) :
      value.dispositions.length < 2 ^ 32 := by
    have shorter := length_le_flatMap DispositionCell.bytes
      (fun cell => by simp [DispositionCell.bytes]) value.dispositions
    simp only [body, List.length_append] at bounded
    omega
  unfold body at same
  obtain ⟨identities, same⟩ := readable_recoveryIdentity same
  obtain ⟨requests, same⟩ := readable_digest same
  obtain ⟨storages, same⟩ := readable_digest same
  obtain ⟨traces, same⟩ := readable_digest same
  obtain ⟨frames, same⟩ := readable_digest same
  obtain ⟨decisions, same⟩ := readable_digest same
  obtain ⟨actions, same⟩ := readable_digest same
  obtain ⟨tags, same⟩ := readable_u32 same
  obtain ⟨details, same⟩ := readable_u32 same
  obtain ⟨finalizers, same⟩ := readable_u32 same
  obtain ⟨counts, same⟩ := readable_u32 same
  have lengths := count_inj (count small) (count small') counts
  have padded : receipt.dispositions.flatMap DispositionCell.bytes ++ [] =
      other.dispositions.flatMap DispositionCell.bytes ++ [] := by rw [same]
  have dispositions := (readable_dispositionCell.many lengths padded).1
  have outcomes := CandidateOutcome.fields_injective (Prod.ext tags details)
  cases receipt
  cases other
  simp only at *
  rw [identities, requests, storages, traces, frames, decisions, actions, outcomes, finalizers,
    dispositions]

/-- Every format is an exact codec, the requests for typed values, and the encoders of fixed size
write what the others do. -/
structure ExactWires (sha256 : Bytes → Digest) (descriptor : Descriptor)
    (typed : ExecuteRequest → Prop) : Prop where
  request : ExactCodec (ExecuteRequest.parse descriptor) ExecuteRequest.encode typed
  response : ExactCodec (ExecuteResponse.parse descriptor) ExecuteResponse.encode fun _ => True
  frame : ExactCodec (RecoveryFrame.parse sha256 descriptor) RecoveryFrame.encode fun _ => True
  decision :
    ExactCodec (SettlementDecision.parse descriptor) SettlementDecision.encode fun _ => True
  action : ExactCodec (ActionRecord.parse descriptor) ActionRecord.encode fun _ => True
  receipt : ExactCodec (CandidateReceipt.parse descriptor) CandidateReceipt.encode fun _ => True
  decisionFixed : ∀ value : SettlementDecision, ∃ bytes,
    value.encodeFixed = .ok bytes ∧ value.encode = some bytes
  actionFixed : ∀ value : ActionRecord, ∃ bytes,
    value.encodeFixed = .ok bytes ∧ value.encode = some bytes

theorem request_exact (descriptor : Descriptor) :
    ExactCodec (ExecuteRequest.parse descriptor) ExecuteRequest.encode
      (ExecuteRequest.KindsAgree descriptor) := by
  have parsed (bytes : Bytes) (value : ExecuteRequest)
      (accepted : ExecuteRequest.parse descriptor bytes = .ok value) :=
    (ended_of_wp (ExecuteRequest.read_canonical descriptor bytes) accepted).choose_spec
  refine .of_injective (fun bytes value accepted => (parsed bytes value accepted).1) ?_
  intro bytes value accepted kinds parses encoded encoded'
  rw [ExecuteRequest.encode_eq] at encoded encoded'
  obtain ⟨small, rfl⟩ := finish_some rfl encoded
  obtain ⟨small', same⟩ := finish_some rfl encoded'
  refine ExecuteRequest.body_inj small small' ?_ (enveloped_inj rfl same)
  intro place argument argument' here here' kind kind' found found'
  have fits := (parsed _ _ parses).2
  obtain ⟨inside', atPlace⟩ := List.getElem?_eq_some_iff.mp here'
  have inside : place < descriptor.parameters.length := by
    rw [fits.length_eq]
    exact inside'
  have fit := (List.forall₂_iff_get.mp fits).2 place inside inside'
  have parameter := fit kind' (by rw [List.get_eq_getElem, atPlace]; exact found')
  exact kinds place argument kind kind' here found
    ((List.getElem?_eq_getElem inside).trans (congrArg some parameter))

theorem response_exact (descriptor : Descriptor) :
    ExactCodec (ExecuteResponse.parse descriptor) ExecuteResponse.encode fun _ => True := by
  have parsed (bytes : Bytes) (value : ExecuteResponse)
      (accepted : ExecuteResponse.parse descriptor bytes = .ok value) :=
    (ended_of_wp (ExecuteResponse.read_canonical descriptor bytes) accepted).choose_spec
  refine .of_injective ?_ ?_
  · intro bytes value accepted
    obtain ⟨capacity, declared, total, zeros, sealing⟩ := parsed bytes value accepted
    rw [ExecuteResponse.encode, sealing, Option.map_some, capacity,
      resize_take (declaredTotal_le total).2 zeros]
  · intro bytes value accepted _ parses encoded _
    obtain ⟨capacity, declared, total, _, sealing⟩ := parsed bytes accepted parses
    obtain ⟨capacity', sealing'⟩ := ExecuteResponse.sealed_of_encode encoded total
    rw [ExecuteResponse.sealed_eq] at sealing sealing'
    obtain ⟨small, same⟩ := finish_some rfl sealing
    obtain ⟨small', same'⟩ := finish_some rfl sealing'
    have bodies := enveloped_inj rfl (same'.symm.trans same)
    exact ExecuteResponse.body_inj small' small (capacity'.trans capacity.symm) bodies

theorem exact_of_body_inj {A : Type} {read : Reader A} {encode : A → Option Bytes}
    {magic : Bytes} {body : A → Bytes}
    (canonical : ∀ bytes, read.wp (fun value _ => encode value = some bytes) (fun _ _ => True) bytes)
    (encode_eq : ∀ value, encode value = ((Writer.new magic).put (body value)).finish)
    (eight : magic.length = 8)
    (injective : ∀ value other, 20 + (body value).length < 2 ^ 32 →
      20 + (body other).length < 2 ^ 32 → body value = body other → value = other) :
    ExactCodec (Reader.run read) encode fun _ => True := by
  refine .of_injective ?_ ?_
  · intro bytes value accepted
    exact (ended_of_wp (canonical bytes) accepted).choose_spec
  · intro bytes value accepted _ _ encoded encoded'
    rw [encode_eq] at encoded encoded'
    obtain ⟨small, rfl⟩ := finish_some eight encoded
    obtain ⟨small', same⟩ := finish_some eight encoded'
    exact injective value accepted small small' (enveloped_inj eight same)

/-- All wires are exact, the requests in as far as their scalar arguments have the kinds of the
parameters. -/
theorem wires_exact (sha256 : Bytes → Digest) (descriptor : Descriptor) :
    ExactWires sha256 descriptor (ExecuteRequest.KindsAgree descriptor) where
  request := request_exact descriptor
  response := response_exact descriptor
  frame := exact_of_body_inj (RecoveryFrame.read_canonical sha256 descriptor)
    RecoveryFrame.encode_eq rfl fun _ _ => RecoveryFrame.body_inj
  decision := exact_of_body_inj (SettlementDecision.read_canonical descriptor)
    SettlementDecision.encode_eq rfl fun _ _ _ _ => SettlementDecision.body_inj
  action := exact_of_body_inj (ActionRecord.read_canonical descriptor)
    ActionRecord.encode_eq rfl fun _ _ _ _ => ActionRecord.body_inj
  receipt := exact_of_body_inj (CandidateReceipt.read_canonical descriptor)
    CandidateReceipt.encode_eq rfl fun _ _ => CandidateReceipt.body_inj
  decisionFixed := SettlementDecision.encodeFixed_eq
  actionFixed := ActionRecord.encodeFixed_eq

section Sample

def sampleDigest : Digest := ⟨List.replicate 32 1, List.length_replicate⟩

def sampleCapacities : Capacities where
  request := 152
  executeResponse := 0
  frame := 0
  decision := 0
  actionEvidence := 0
  candidateReceipt := 0
  eventCount := 0
  dictionaryEntries := 0
  resourceCount := 1
  checkpointCount := 1

/-- A truth, a number and an owned input, which is the result. -/
def sampleDescriptor : Descriptor where
  fingerprints := ⟨sampleDigest, sampleDigest, sampleDigest⟩
  capacities := sampleCapacities
  parameters := [.scalar .bool, .scalar .i64, .owned 0]
  result := .ownedInput 2 0

def sampleIdentity : CallIdentity :=
  ⟨sampleDigest, ⟨1, by decide⟩, ⟨1, by decide⟩, sampleDigest⟩

/-- A number and a truth in the places of a truth and a number. -/
def swappedRequest : ExecuteRequest :=
  ⟨sampleIdentity, [.i64 0 4294967297, .bool 1 true, .owned 2 0 7]⟩

def acceptedRequest : ExecuteRequest :=
  ⟨sampleIdentity, [.bool 0 true, .i64 1 4294967297, .owned 2 0 7]⟩

/-- The wire of a number and a truth is accepted as that of a truth and a number. -/
theorem kinds_unwritten : ¬∀ (sha256 : Bytes → Digest) (descriptor : Descriptor),
    ExactWires sha256 descriptor fun _ => True := by
  intro wires
  have codec := (wires (fun _ => sampleDigest) sampleDescriptor).request
  have encoded : swappedRequest.encode = some (swappedRequest.encode.getD []) := by decide +kernel
  have accepted : ExecuteRequest.parse sampleDescriptor (swappedRequest.encode.getD []) =
      .ok acceptedRequest := by decide +kernel
  have parsed := codec.roundTrip _ _ trivial encoded ⟨_, accepted⟩
  rw [accepted] at parsed
  exact absurd (Except.ok.inj parsed) (by decide)

end Sample

end Semaprax.CallableWire
