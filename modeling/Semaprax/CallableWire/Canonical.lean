/-
**What is accepted encodes as it was written** (`callable_wire_v3.rs`).

* `….body` — what a format writes behind the envelope, and `….encode_eq`.
* `….read_canonical` — from all its bytes a reader ends, if at all, with a value that encodes as them. A
  request, a decision and an action record are encoded again and compared; in a response, a frame and a
  receipt every field is written as it was read.
* `SettlementDecision.encodeFixed_eq`, `ActionRecord.encodeFixed_eq` — the encoders of fixed size.
-/

import Semaprax.CallableWire.Codecs

namespace Semaprax.CallableWire

open Library

def RequestArgument.bytes : RequestArgument → Bytes
  | .i64 index value => u32Bytes 1 ++ (u32Bytes index ++ i64Bytes value)
  | .bool index value => u32Bytes 1 ++ (u32Bytes index ++ u32Bytes value.toUInt32)
  | .owned index ownerOrdinal payload =>
    u32Bytes 2 ++ (u32Bytes index ++ (u32Bytes ownerOrdinal ++ u64Bytes payload))

theorem RequestArgument.write_eq (writer : Writer) (argument : RequestArgument) :
    write writer argument = writer.put argument.bytes := by
  cases argument <;>
    simp only [write, Writer.u32, Writer.u64, Writer.i64, Writer.put_put, bytes, List.append_assoc]

def RequestArgument.scalarKind : RequestArgument → Option ScalarKind
  | .i64 _ _ => some .i64
  | .bool _ _ => some .bool
  | .owned _ _ _ => none

def Parameter.Fits (parameter : Parameter) (argument : RequestArgument) : Prop :=
  ∀ kind, argument.scalarKind = some kind → parameter = .scalar kind

theorem RequestArgument.read_fits (expectedIndex : Nat) (parameter : Parameter) (bytes : Bytes) :
    (read expectedIndex parameter).wp (fun argument _ => parameter.Fits argument)
      (fun _ _ => True) bytes := by
  unfold read
  refine any_step fun tag _ => any_step fun index _ => any_step fun _ _ => ?_
  cases parameter with
  | scalar kind =>
    cases kind with
    | i64 =>
      refine any_step fun _ _ => any_step fun value _ => (wp_pure _).mpr ?_
      intro kind found
      cases found
      rfl
    | bool =>
      refine any_step fun _ _ => any_step fun value _ => any_step fun _ _ =>
        (wp_pure _).mpr ?_
      intro kind found
      cases found
      rfl
  | owned ownerOrdinal =>
    refine any_step fun _ _ => any_step fun owner _ => any_step fun _ _ =>
      any_step fun payload _ => (wp_pure _).mpr ?_
    intro kind found
    cases found

theorem readArguments_fit (expectedIndex : Nat) (parameters : List Parameter) (bytes : Bytes) :
    (readArguments expectedIndex parameters).wp
      (fun arguments _ => List.Forall₂ Parameter.Fits parameters arguments)
      (fun _ _ => True) bytes := by
  induction parameters generalizing expectedIndex bytes with
  | nil => exact (wp_pure _).mpr .nil
  | cons parameter parameters ih =>
    unfold readArguments
    rw [wp_bind]
    refine wp_mono (RequestArgument.read_fits expectedIndex parameter bytes)
      (fun argument rest fits => ?_) fun _ _ _ => trivial
    rw [wp_bind]
    refine wp_mono (ih (expectedIndex + 1) rest) (fun arguments _ others => ?_)
      fun _ _ _ => trivial
    exact (wp_pure _).mpr (.cons fits others)

namespace ExecuteRequest

def body (request : ExecuteRequest) : Bytes :=
  callIdentityBytes request.identity ++ (u32Bytes (UInt32.ofNat request.arguments.length) ++
    request.arguments.flatMap RequestArgument.bytes)

theorem encode_eq (request : ExecuteRequest) :
    request.encode = ((Writer.new requestMagic).put request.body).finish := by
  have write_eq : RequestArgument.write = fun writer argument => writer.put argument.bytes := by
    funext writer argument
    exact RequestArgument.write_eq writer argument
  unfold encode
  simp only [Writer.callIdentity_eq, Writer.u32, write_eq, Writer.foldl_put, Writer.put_put, body,
    List.append_assoc]

theorem read_canonical (descriptor : Descriptor) (bytes : Bytes) :
    (read descriptor).wp (fun request _ => request.encode = some bytes ∧
        List.Forall₂ Parameter.Fits descriptor.parameters request.arguments)
      (fun _ _ => True) bytes := by
  unfold read
  rw [wp_bind, wp_get]
  refine any_step fun _ _ => any_step fun _ _ => any_step fun identity _ => any_step fun _ _ =>
    any_step fun count _ => any_step fun _ rest => ?_
  rw [wp_bind]
  refine wp_mono (readArguments_fit 0 descriptor.parameters rest)
    (fun arguments _ fit => ?_) fun _ _ _ => trivial
  refine any_step fun _ _ => stopIf_step fun exactBytes => ?_
  exact (wp_pure _).mpr ⟨not_not.mp exactBytes, fit⟩

end ExecuteRequest

theorem reads_checkpoint (descriptor : Descriptor) :
    Reads (readCheckpoint descriptor) u32Bytes := by
  intro bytes
  unfold readCheckpoint
  refine reads_u32.step fun checkpoint rest split => ?_
  exact stopIf_step fun _ => (wp_pure _).mpr split

theorem reads_eventOrdinal (descriptor : Descriptor) :
    Reads (readEventOrdinal descriptor) u32Bytes := by
  intro bytes
  unfold readEventOrdinal
  refine reads_u32.step fun ordinal rest split => ?_
  exact stopIf_step fun _ => (wp_pure _).mpr split

theorem declaredTotal_le {bytes magic : Bytes} {declared : Nat}
    (total : declaredTotal bytes magic = .ok declared) :
    20 ≤ declared ∧ declared ≤ bytes.length := by
  unfold declaredTotal at total
  simp only at total
  split_ifs at total with schema bounds
  cases total
  push Not at bounds
  exact bounds

theorem resize_take {bytes : Bytes} {declared : Nat} (whole : declared ≤ bytes.length)
    (zeros : ∀ byte ∈ bytes.drop declared, byte = 0) :
    resize (bytes.take declared) bytes.length = bytes := by
  have back : bytes.drop declared = List.replicate (bytes.length - declared) 0 := by
    refine List.eq_replicate_iff.mpr ⟨List.length_drop, zeros⟩
  have front : (bytes.take declared).length = declared := List.length_take_of_le whole
  unfold resize
  rw [front, List.take_of_length_le (by omega), ← back, List.take_append_drop]

namespace ExecuteResponse

def body (response : ExecuteResponse) : Bytes :=
  callIdentityBytes response.identity ++ (response.requestDigest.val ++
    (u32Bytes response.checkpoint ++ (u32Bytes response.outcome.fields.1 ++
      (u32Bytes response.outcome.fields.2.1 ++ (u64Bytes response.outcome.fields.2.2 ++
        (u32Bytes (UInt32.ofNat response.eventOrdinals.length) ++
          response.eventOrdinals.flatMap u32Bytes))))))

theorem sealed_eq (response : ExecuteResponse) :
    response.sealed = ((Writer.new responseMagic).put response.body).finish := by
  have events (writer : Writer) : response.eventOrdinals.foldl Writer.u32 writer =
      writer.put (response.eventOrdinals.flatMap u32Bytes) :=
    Writer.foldl_put u32Bytes response.eventOrdinals writer
  unfold sealed
  simp only [events, Writer.callIdentity_eq, Writer.digest, Writer.u32, Writer.u64, Writer.put_put,
    body, List.append_assoc]

theorem read_canonical (descriptor : Descriptor) (bytes : Bytes) :
    (read descriptor).wp (fun response _ => response.storageCapacity = bytes.length ∧
        ∃ declared, declaredTotal bytes responseMagic = .ok declared ∧
          (∀ byte ∈ bytes.drop declared, byte = 0) ∧
          response.sealed = some (bytes.take declared))
      (fun _ _ => True) bytes := by
  unfold read
  rw [wp_bind, wp_get]
  refine stopIf_step fun _ => ofResult_step fun declared total => stopIf_step fun padding => ?_
  push Not at padding
  rw [wp_bind, wp_set]
  refine envelope_step rfl fun rest whole small => ?_
  refine reads_callIdentity.step fun identity rest₁ part => ofResult_step fun _ _ => ?_
  refine reads_nonzeroDigest.step fun requestDigest rest₂ part₁ => ?_
  refine (reads_checkpoint descriptor).step fun checkpoint rest₃ part₂ => ?_
  refine reads_u32.step fun tag rest₄ part₃ => reads_u32.step fun detail rest₅ part₄ => ?_
  refine reads_u64.step fun payload rest₆ part₅ => ofOption_step fun outcome parsed => ?_
  refine usize_step fun eventCount rest₇ part₆ counted => stopIf_step fun _ => ?_
  refine (reads_eventOrdinal descriptor).many_step fun eventOrdinals rest₈ part₇ count => ?_
  refine finish_step fun none => (wp_pure _).mpr ?_
  refine ⟨rfl, declared, total, padding.2, ?_⟩
  subst part part₁ part₂ part₃ part₄ part₅ part₆ part₇ none count
  have fields := ExecuteOutcome.fields_of parsed
  rw [sealed_eq, whole, Writer.finish_put rfl]
  simp only [body, fields, u32Bytes_ofNat counted]
  rw [List.append_nil] at small ⊢
  rw [if_pos small]

end ExecuteResponse

def ResourceCell.bytes (cell : ResourceCell) : Bytes :=
  u32Bytes (cellStateTag cell.state) ++ u64Bytes cell.payload

theorem reads_resourceCell : Reads ResourceCell.read ResourceCell.bytes := by
  intro bytes
  unfold ResourceCell.read
  refine reads_u32.step fun tag rest split => ofOption_step fun state parsed => ?_
  refine reads_u64.step fun payload rest' split' => (wp_pure _).mpr ?_
  rw [split, split', ResourceCell.bytes, cellStateTag_of_parse parsed, List.append_assoc]

namespace RecoveryFrame

def body (frame : RecoveryFrame) : Bytes :=
  recoveryIdentityBytes frame.identity ++ (frame.requestDigest.val ++
    (frame.responseStorageDigest.val ++ (frame.semanticTraceDigest.val ++
      (u32Bytes frame.executeReturn.fields.1 ++ (u32Bytes frame.executeReturn.fields.2 ++
        (u32Bytes frame.checkpoint ++ (u32Bytes frame.phase.tag ++ (frame.decisionDigest.val ++
          (u32Bytes frame.nextAction ++ (u32Bytes frame.recordCount ++
            (u32Bytes frame.activeFinalizers ++ (u32Bytes (UInt32.ofNat frame.cells.length) ++
              (frame.cells.flatMap ResourceCell.bytes ++ (frame.actionChainDigest.val ++
                frame.preCandidateDigest.val))))))))))))))

theorem encode_eq (frame : RecoveryFrame) :
    frame.encode = ((Writer.new frameMagic).put frame.body).finish := by
  have cells (writer : Writer) : frame.cells.foldl ResourceCell.write writer =
      writer.put (frame.cells.flatMap ResourceCell.bytes) := by
    rw [← Writer.foldl_put]
    congr 1
    funext writer cell
    simp only [ResourceCell.write, Writer.u32, Writer.u64, Writer.put_put, ResourceCell.bytes]
  unfold encode
  simp only [cells, Writer.recoveryIdentity_eq, Writer.digest, Writer.u32, Writer.put_put, body,
    List.append_assoc]

/-- What is accepted is written as it was. -/
theorem read_canonical (sha256 : Bytes → Digest) (descriptor : Descriptor) (bytes : Bytes) :
    (read sha256 descriptor).wp (fun frame _ => frame.encode = some bytes)
      (fun _ _ => True) bytes := by
  unfold read
  rw [wp_bind, wp_get]
  refine stopIf_step fun _ => envelope_step rfl fun rest whole small => ?_
  refine reads_recoveryIdentity.step fun identity rest₁ part => ofResult_step fun _ _ => ?_
  refine reads_digest.step fun requestDigest rest₂ part₁ => ?_
  refine reads_digest.step fun responseStorageDigest rest₃ part₂ => ?_
  refine reads_digest.step fun semanticTraceDigest rest₄ part₃ => ?_
  refine reads_u32.step fun returnTag rest₅ part₄ => ?_
  refine reads_u32.step fun executeCode rest₆ part₅ => ofOption_step fun executeReturn returns => ?_
  refine (reads_checkpoint descriptor).step fun checkpoint rest₇ part₆ => ?_
  refine reads_u32.step fun phaseTag rest₈ part₇ => ofOption_step fun phase phased => ?_
  refine reads_digest.step fun decisionDigest rest₉ part₈ => ?_
  refine reads_u32.step fun nextAction rest₁₀ part₉ => ?_
  refine reads_u32.step fun recordCount rest₁₁ part₁₀ => ?_
  refine reads_u32.step fun activeFinalizers rest₁₂ part₁₁ => ?_
  refine usize_step fun resourceCount rest₁₃ part₁₂ counted => stopIf_step fun _ => ?_
  refine reads_resourceCell.many_step fun cells rest₁₄ part₁₃ count => ?_
  refine reads_digest.step fun actionChainDigest rest₁₅ part₁₄ => ?_
  refine reads_digest.step fun preCandidateDigest rest₁₆ part₁₅ => ?_
  refine finish_step fun none => stopIf_step fun _ => stopIf_step fun _ => ?_
  refine ofResult_step fun _ _ => (wp_pure _).mpr ?_
  subst part part₁ part₂ part₃ part₄ part₅ part₆ part₇ part₈ part₉ part₁₀ part₁₁ part₁₂ part₁₃
  subst part₁₄ part₁₅ none count
  rw [encode_eq, whole, Writer.finish_put rfl]
  simp only [body, ExecuteReturn.fields_of returns, FramePhase.tag_of phased,
    u32Bytes_ofNat counted]
  rw [List.append_nil] at small ⊢
  rw [if_pos small]

end RecoveryFrame

namespace SettlementDecision

def body (value : SettlementDecision) : Bytes :=
  recoveryIdentityBytes value.identity ++
    (u32Bytes value.decision.fields.1 ++ u32Bytes value.decision.fields.2)

theorem encode_eq (value : SettlementDecision) :
    value.encode = ((Writer.new decisionMagic).put value.body).finish := by
  unfold encode
  simp only [Writer.recoveryIdentity_eq, Writer.u32, Writer.put_put, body, List.append_assoc]

/-- What is accepted is written as it was. -/
theorem read_canonical (descriptor : Descriptor) (bytes : Bytes) :
    (read descriptor).wp (fun value _ => value.encode = some bytes) (fun _ _ => True) bytes := by
  unfold read
  rw [wp_bind, wp_get]
  refine any_step fun _ _ => any_step fun _ _ => any_step fun identity _ => any_step fun _ _ =>
    any_step fun tag _ => any_step fun detail _ => any_step fun decision _ => any_step fun _ _ => ?_
  exact stopIf_step fun exactBytes => (wp_pure _).mpr (not_not.mp exactBytes)

theorem encodeFixed_eq (value : SettlementDecision) :
    ∃ bytes, value.encodeFixed = .ok bytes ∧ value.encode = some bytes := by
  have length : value.body.length = 152 := by
    simp only [body, List.length_append, length_recoveryIdentityBytes, length_u32Bytes]
  have puts : SliceWriter.Puts (do
      SliceWriter.recoveryIdentity value.identity
      SliceWriter.u32 value.decision.fields.1
      SliceWriter.u32 value.decision.fields.2) value.body :=
    (SliceWriter.Puts.recoveryIdentity _).bind <| (SliceWriter.Puts.u32 _).bind <|
      SliceWriter.Puts.u32 _
  refine ⟨enveloped decisionMagic value.body, ?_, ?_⟩
  · have eight : decisionMagic.length = 8 := rfl
    have filled : SliceWriter.fill decisionBytes _ = _ :=
      SliceWriter.fill_puts eight puts (by rw [length]; rfl) (by decide)
    simp only [Prog.bind_assoc] at filled
    exact filled
  · rw [encode_eq, Writer.finish_put rfl, length, if_pos (by decide)]

end SettlementDecision

namespace ActionRecord

def body (value : ActionRecord) : Bytes :=
  recoveryIdentityBytes value.identity ++ (u32Bytes value.semanticActionIndex ++
    (u32Bytes value.boundary.tag ++ (u32Bytes value.ownerOrdinal ++ (u64Bytes value.payload ++
      (u32Bytes (cellStateTag value.before) ++ (u32Bytes (cellStateTag value.after) ++
        u32Bytes value.checkpoint))))))

theorem encode_eq (value : ActionRecord) :
    value.encode = ((Writer.new actionMagic).put value.body).finish := by
  unfold encode
  simp only [Writer.recoveryIdentity_eq, Writer.u32, Writer.u64, Writer.put_put, body,
    List.append_assoc]

/-- What is accepted is written as it was. -/
theorem read_canonical (descriptor : Descriptor) (bytes : Bytes) :
    (read descriptor).wp (fun value _ => value.encode = some bytes) (fun _ _ => True) bytes := by
  unfold read
  rw [wp_bind, wp_get]
  refine any_step fun _ _ => any_step fun _ _ => any_step fun identity _ => any_step fun _ _ => ?_
  refine any_step fun index _ => any_step fun boundaryTag _ => any_step fun boundary _ => ?_
  refine any_step fun owner _ => any_step fun _ _ => any_step fun payload _ => ?_
  refine any_step fun beforeTag _ => any_step fun before _ => any_step fun afterTag _ => ?_
  refine any_step fun after _ => any_step fun checkpoint _ => any_step fun _ _ => ?_
  refine any_step fun _ _ => ?_
  rw [wp_bind, wp_stopIf]
  exact ⟨fun _ => trivial, fun exactBytes => (wp_pure _).mpr (not_not.mp exactBytes)⟩

theorem encodeFixed_eq (value : ActionRecord) :
    ∃ bytes, value.encodeFixed = .ok bytes ∧ value.encode = some bytes := by
  have length : value.body.length = 176 := by
    simp only [body, List.length_append, length_recoveryIdentityBytes, length_u32Bytes,
      length_u64Bytes]
  have puts : SliceWriter.Puts (do
      SliceWriter.recoveryIdentity value.identity
      SliceWriter.u32 value.semanticActionIndex
      SliceWriter.u32 value.boundary.tag
      SliceWriter.u32 value.ownerOrdinal
      SliceWriter.u64 value.payload
      SliceWriter.u32 (cellStateTag value.before)
      SliceWriter.u32 (cellStateTag value.after)
      SliceWriter.u32 value.checkpoint) value.body :=
    (SliceWriter.Puts.recoveryIdentity _).bind <| (SliceWriter.Puts.u32 _).bind <|
      (SliceWriter.Puts.u32 _).bind <| (SliceWriter.Puts.u32 _).bind <|
      (SliceWriter.Puts.u64 _).bind <| (SliceWriter.Puts.u32 _).bind <|
      (SliceWriter.Puts.u32 _).bind <| SliceWriter.Puts.u32 _
  refine ⟨enveloped actionMagic value.body, ?_, ?_⟩
  · have eight : actionMagic.length = 8 := rfl
    have filled : SliceWriter.fill actionRecordBytes _ = _ :=
      SliceWriter.fill_puts eight puts (by rw [length]; rfl) (by decide)
    simp only [Prog.bind_assoc] at filled
    exact filled
  · rw [encode_eq, Writer.finish_put rfl, length, if_pos (by decide)]

end ActionRecord

def DispositionCell.bytes (cell : DispositionCell) : Bytes :=
  u32Bytes cell.disposition.tag ++ u64Bytes cell.payload

theorem reads_dispositionCell : Reads DispositionCell.read DispositionCell.bytes := by
  intro bytes
  unfold DispositionCell.read
  refine reads_u32.step fun tag rest split => ofOption_step fun disposition parsed => ?_
  refine reads_u64.step fun payload rest' split' => (wp_pure _).mpr ?_
  rw [split, split', DispositionCell.bytes, Disposition.tag_of parsed, List.append_assoc]

namespace CandidateReceipt

def body (receipt : CandidateReceipt) : Bytes :=
  recoveryIdentityBytes receipt.identity ++ (receipt.requestDigest.val ++
    (receipt.responseStorageDigest.val ++ (receipt.semanticTraceDigest.val ++
      (receipt.frameDigest.val ++ (receipt.decisionDigest.val ++
        (receipt.actionEvidenceDigest.val ++ (u32Bytes receipt.outcome.fields.1 ++
          (u32Bytes receipt.outcome.fields.2 ++ (u32Bytes receipt.activeFinalizers ++
            (u32Bytes (UInt32.ofNat receipt.dispositions.length) ++
              receipt.dispositions.flatMap DispositionCell.bytes))))))))))

theorem encode_eq (receipt : CandidateReceipt) :
    receipt.encode = ((Writer.new candidateMagic).put receipt.body).finish := by
  have cells (writer : Writer) : receipt.dispositions.foldl DispositionCell.write writer =
      writer.put (receipt.dispositions.flatMap DispositionCell.bytes) := by
    rw [← Writer.foldl_put]
    congr 1
    funext writer cell
    simp only [DispositionCell.write, Writer.u32, Writer.u64, Writer.put_put, DispositionCell.bytes]
  unfold encode
  simp only [cells, Writer.recoveryIdentity_eq, Writer.digest, Writer.u32, Writer.put_put, body,
    List.append_assoc]

/-- What is accepted is written as it was. -/
theorem read_canonical (descriptor : Descriptor) (bytes : Bytes) :
    (read descriptor).wp (fun receipt _ => receipt.encode = some bytes) (fun _ _ => True) bytes := by
  unfold read
  rw [wp_bind, wp_get]
  refine stopIf_step fun _ => envelope_step rfl fun rest whole small => ?_
  refine reads_recoveryIdentity.step fun identity rest₁ part => ofResult_step fun _ _ => ?_
  refine reads_nonzeroDigest.step fun requestDigest rest₂ part₁ => ?_
  refine reads_nonzeroDigest.step fun responseStorageDigest rest₃ part₂ => ?_
  refine reads_digest.step fun semanticTraceDigest rest₄ part₃ => ?_
  refine reads_nonzeroDigest.step fun frameDigest rest₅ part₄ => ?_
  refine reads_nonzeroDigest.step fun decisionDigest rest₆ part₅ => ?_
  refine reads_nonzeroDigest.step fun actionEvidenceDigest rest₇ part₆ => ?_
  refine reads_u32.step fun tag rest₈ part₇ => reads_u32.step fun detail rest₉ part₈ => ?_
  refine ofOption_step fun outcome parsed => ?_
  refine reads_u32.step fun activeFinalizers rest₁₀ part₉ => stopIf_step fun _ => ?_
  refine usize_step fun count rest₁₁ part₁₀ counted => stopIf_step fun _ => ?_
  refine reads_dispositionCell.many_step fun dispositions rest₁₂ part₁₁ counts => ?_
  refine finish_step fun none => stopIf_step fun _ => stopIf_step fun _ => ?_
  refine (wp_pure _).mpr ?_
  subst part part₁ part₂ part₃ part₄ part₅ part₆ part₇ part₈ part₉ part₁₀ part₁₁ none counts
  rw [encode_eq, whole, Writer.finish_put rfl]
  simp only [body, CandidateOutcome.fields_of parsed, u32Bytes_ofNat counted]
  rw [List.append_nil] at small ⊢
  rw [if_pos small]

end CandidateReceipt

end Semaprax.CallableWire
