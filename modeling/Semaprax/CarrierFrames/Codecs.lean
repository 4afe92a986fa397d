/-
**Carrier frames and bindings are exact codecs.**

Whatever bytes are given, reading them does not panic. What is accepted encodes as it was written, and a
value whose sizes are within the bounds is accepted as it was.

* `bodyBytes`, `bindingBytes` — what is written, field by field.
* `takes_readBody`, `finds_readBody` — a frame without its digest; `encode_inj` — its bytes tell it.
* `BoundedCodec` — what an exact codec is; `carrier_codecs` — frames and bindings are.
-/

import Semaprax.CarrierFrames.Readers
import Semaprax.Library.Results

namespace Semaprax.CarrierFrames

open Library
open CarrierCall (Diagnostic Direction carrierSchema)

variable {text : String} {carrier : LogicalCarrierFrame}

theorem knownSchema_eq_some {schema : Schema} :
    knownSchema text = some schema ↔ schema.val = text := by
  unfold knownSchema
  split_ifs with known
  · constructor
    · intro same
      obtain rfl := Option.some.inj same
      rfl
    · intro same
      exact congrArg some (Subtype.ext same.symm)
  · constructor
    · intro same
      cases same
    · rintro rfl
      exact absurd schema.property known

theorem directionFromText_eq_some {direction : Direction} :
    directionFromText text = some direction ↔ directionText direction = text := by
  unfold directionFromText
  cases direction <;> unfold directionText <;> split_ifs with input result <;> simp_all [eq_comm]

theorem targetProfile_eq_some {target : TargetProfile} :
    TargetProfile.fromText text = some target ↔ target.text = text := by
  unfold TargetProfile.fromText
  cases target <;> unfold TargetProfile.text <;> split_ifs with first second third <;>
    simp_all [eq_comm]

theorem frame_eq (preimage bytes : Bytes) : frame preimage bytes = preimage ++ framed bytes := by
  rw [frame, framed, List.append_assoc]

theorem foldl_pushLeaf (preimage : Bytes) (leaves : List CarrierLeaf) :
    leaves.foldl LogicalCarrierFrame.pushLeaf preimage = preimage ++ leaves.flatMap leafBytes := by
  induction leaves generalizing preimage with
  | nil => rw [List.foldl_nil, List.flatMap_nil, List.append_nil]
  | cons leaf leaves ih =>
    rw [List.foldl_cons, ih, List.flatMap_cons, LogicalCarrierFrame.pushLeaf, frame_eq, frame_eq,
      leafBytes]
    simp only [List.append_assoc]

namespace LogicalCarrierFrame

/-- All of a frame but its last field. -/
def bodyBytes (carrier : LogicalCarrierFrame) : Bytes :=
  framed (encodeText carrier.schema.val) ++
    (framed (encodeText (directionText carrier.direction)) ++
      (framed (encodeText carrier.descriptorDigest) ++
        (framed (encodeText carrier.endpointIdentityDigest) ++
          (framed (encodeText carrier.instanceIdentityDigest) ++
            (framed (encodeText carrier.leafInventoryDigest) ++
              (leBytes 8 carrier.leaves.length ++ (leBytes 8 carrier.totalPayloadLength ++
                carrier.leaves.flatMap leafBytes)))))))

theorem bodyPreimage_eq (carrier : LogicalCarrierFrame) :
    carrier.bodyPreimage = carrier.bodyBytes := by
  unfold bodyPreimage bodyBytes
  simp only [frame_eq, foldl_pushLeaf, List.append_assoc, List.nil_append]

theorem encode_eq (digest : Digest) (carrier : LogicalCarrierFrame) : carrier.encode digest =
    carrier.bodyBytes ++ framed (encodeText (carrier.carrierFactsDigest digest)) := by
  rw [encode, frame_eq, bodyPreimage_eq]

/-- A frame whose paths are distinct and whose sizes are within the bounds of the parser. -/
structure Fits (digest : Digest) (carrier : LogicalCarrierFrame) : Prop where
  distinct : (carrier.leaves.map CarrierLeaf.path).Nodup
  count : carrier.leaves.length ≤ maxOwnedLeavesPerInstance
  descriptor : (encodeText carrier.descriptorDigest).length ≤ maxFrameFieldBytes
  endpoint : (encodeText carrier.endpointIdentityDigest).length ≤ maxFrameFieldBytes
  identity : (encodeText carrier.instanceIdentityDigest).length ≤ maxFrameFieldBytes
  inventory : (encodeText carrier.leafInventoryDigest).length ≤ maxFrameFieldBytes
  paths : ∀ leaf ∈ carrier.leaves, (encodeText leaf.path).length ≤ maxFrameFieldBytes
  payloads : ∀ leaf ∈ carrier.leaves, leaf.payload.length ≤ maxBytesPerLeaf
  total : carrier.totalPayloadLength ≤ maxTotalPayloadBytes
  wire : (carrier.encode digest).length ≤ maxFrameWireBytes

end LogicalCarrierFrame

/-- An outcome of reading bytes that is not a panic, and that encodes as the bytes if it is a value. -/
def Canonical {A : Type} (encode : A → Bytes) (bytes : Bytes) : Except Fault A → Prop
  | .ok value => encode value = bytes
  | .error fault => Calm fault

section Frames

variable {bytes : Bytes}

variable {digest : Digest} {carrier : LogicalCarrierFrame} {offset : Nat}

/-- **The body of a frame** is taken off as it is written. -/
theorem takes_readBody (small : bytes.length ≤ maxUsize) :
    Takes bytes (readBody bytes) LogicalCarrierFrame.bodyBytes Calm := by
  intro offset inside
  unfold readBody refuseIf refused
  refine (takes_readStringField _).step inside fun _ _ inside₁ split₁ => ?_
  refine ofOption_goes (fun _ => calm_refused) fun schema known => ?_
  obtain rfl := knownSchema_eq_some.mp known
  refine (takes_readStringField _).step inside₁ fun _ _ inside₂ split₂ => ?_
  refine ofOption_goes (fun _ => calm_refused) fun direction known => ?_
  obtain rfl := directionFromText_eq_some.mp known
  refine (takes_readStringField _).step inside₂ fun descriptorDigest _ inside₃ split₃ => ?_
  refine (takes_readStringField _).step inside₃ fun endpointIdentityDigest _ inside₄ split₄ => ?_
  refine (takes_readStringField _).step inside₄ fun instanceIdentityDigest _ inside₅ split₅ => ?_
  refine (takes_readStringField _).step inside₅ fun leafInventoryDigest _ inside₆ split₆ => ?_
  refine (takes_readU64Field _).step inside₆ fun leafCount _ inside₇ split₇ => ?_
  refine stopIf_goes (fun _ => calm_refused) fun _ => ?_
  refine (takes_readU64Field _).step inside₇ fun declared _ inside₈ split₈ => ?_
  refine stopIf_goes (fun _ => calm_refused) fun _ => ?_
  rw [wp_bind]
  refine wp_mono (readLeaves_spec small leafCount _ inside₈) ?_ fun _ _ => id
  rintro _ after ⟨leaves, rfl, rfl, inside₉, split₉⟩
  rw [foldl_push]
  refine stopIf_goes (fun _ => calm_refused) fun total => ?_
  refine ⟨inside₉, ?_⟩
  have total : declared = (leaves.map fun leaf => leaf.payload.length).sum := by
    simpa [eq_comm] using total
  subst total
  rw [split₁, split₂, split₃, split₄, split₅, split₆, split₇, split₈, split₉]
  simp only [LogicalCarrierFrame.bodyBytes, LogicalCarrierFrame.totalPayloadLength,
    List.append_assoc, List.nil_append]

theorem finds_readBody (small : bytes.length ≤ maxUsize) (fits : carrier.Fits digest) :
    Finds bytes (readBody bytes) carrier.bodyBytes carrier := by
  have schema : (encodeText carrier.schema.val).length ≤ maxFrameFieldBytes := by
    rw [carrier.schema.property]
    decide
  have direction : (encodeText (directionText carrier.direction)).length ≤ maxFrameFieldBytes := by
    cases carrier.direction <;> decide
  have leafCount : maxOwnedLeavesPerInstance < 256 ^ 8 := by decide
  have payloads : maxTotalPayloadBytes < 256 ^ 8 := by decide
  have all : Finds bytes (readLeaves bytes carrier.leaves.length ⟨[], [], 0⟩)
      (carrier.leaves.flatMap leafBytes) (carrier.leaves.foldl Gathered.push ⟨[], [], 0⟩) := by
    refine finds_readLeaves small fits.paths fits.payloads fits.distinct
      (fun _ _ => List.not_mem_nil) ?_
    rw [Nat.zero_add]
    exact fits.total
  rw [foldl_push] at all
  unfold readBody refuseIf refused
  refine (finds_readStringField small _ schema).bind ?_
  refine Finds.ofOption_bind (knownSchema_eq_some.mpr rfl) ?_
  refine (finds_readStringField small _ direction).bind ?_
  refine Finds.ofOption_bind (directionFromText_eq_some.mpr rfl) ?_
  refine (finds_readStringField small _ fits.descriptor).bind ?_
  refine (finds_readStringField small _ fits.endpoint).bind ?_
  refine (finds_readStringField small _ fits.identity).bind ?_
  refine (finds_readStringField small _ fits.inventory).bind ?_
  refine (finds_readU64Field small _ (fits.count.trans_lt leafCount)).bind ?_
  refine Finds.stopIf_bind (not_lt.mpr fits.count) ?_
  refine (finds_readU64Field small _ (fits.total.trans_lt payloads)).bind ?_
  refine Finds.stopIf_bind (not_lt.mpr fits.total) ?_
  refine all.map ?_
  refine Finds.stopIf_bind ?_ ?_
  · simp [LogicalCarrierFrame.totalPayloadLength]
  · exact finds_pure

theorem readFacts_spec (digest : Digest) (candidate : LogicalCarrierFrame)
    (inside : offset ≤ bytes.length) : (readFacts digest bytes candidate).wp
      (fun carrier _ => carrier = candidate ∧
        bytes.drop offset = framed (encodeText (candidate.carrierFactsDigest digest)))
      (fun fault _ => Calm fault) offset := by
  unfold readFacts refuseIf
  refine (takes_readStringField _).step inside fun text after _ split => ?_
  refine requireEnd_goes fun final => ?_
  refine stopIf_goes (fun _ => calm_refused) fun same => ?_
  subst final
  obtain rfl := not_not.mp same
  refine ⟨rfl, ?_⟩
  rw [split, List.drop_length, List.append_nil]

theorem readFacts_stands (small : bytes.length ≤ maxUsize) (digest : Digest)
    {candidate : LogicalCarrierFrame} (inside : offset ≤ bytes.length)
    (stands : bytes.drop offset = framed (encodeText (candidate.carrierFactsDigest digest))) :
    (readFacts digest bytes candidate offset).1 = .ok candidate := by
  have short : (encodeText (candidate.carrierFactsDigest digest)).length ≤ maxFrameFieldBytes :=
    digest.short _ _
  have found := finds_readStringField small "carrier_facts_digest" short offset []
    (stands.trans (List.append_nil _).symm)
  unfold readFacts refuseIf
  rw [run_bind found, run_bind (requireEnd_stands inside stands _)]
  exact congrArg Prod.fst (run_stopIf (not_ne_iff.mpr rfl))

theorem parseBounded_spec (digest : Digest) (bytes : Bytes) :
    Canonical (LogicalCarrierFrame.encode digest) bytes (parseBounded digest bytes) := by
  have limit : maxFrameWireBytes ≤ maxUsize := by decide
  unfold parseBounded
  split_ifs with large
  · exact calm_refused
  · have small : bytes.length ≤ maxUsize := (not_lt.mp large).trans limit
    have whole : (readBody bytes >>= readFacts digest bytes).wp
        (fun carrier _ => carrier.encode digest = bytes) (fun fault _ => Calm fault) 0 := by
      refine (takes_readBody small).step (Nat.zero_le _) fun candidate after inside split => ?_
      refine wp_mono (readFacts_spec digest candidate inside) ?_ fun _ _ => id
      rintro carrier _ ⟨rfl, split'⟩
      rw [LogicalCarrierFrame.encode_eq, ← split', ← split, List.drop_zero]
    rcases wp_run whole with ⟨carrier, after, ran, same⟩ | ⟨fault, after, ran, calm⟩
    · rw [ran]
      exact same
    · rw [ran]
      exact calm

theorem parseBounded_encode
    (fits : carrier.Fits digest) : parseBounded digest (carrier.encode digest) = .ok carrier := by
  have limit : maxFrameWireBytes ≤ maxUsize := by decide
  have small := fits.wire.trans limit
  have split := carrier.encode_eq digest
  have body := finds_readBody small fits 0 _ ((List.drop_zero (l := _)).trans split)
  have behind := drop_behind ((List.drop_zero (l := _)).trans split)
  have inside : 0 + carrier.bodyBytes.length ≤ (carrier.encode digest).length := by
    rw [split, List.length_append]
    omega
  unfold parseBounded
  rw [if_neg (not_lt.mpr fits.wire), run_bind body]
  exact readFacts_stands small digest inside behind

end Frames

theorem directionText_injective : Function.Injective directionText := by
  intro second first same
  exact Option.some.inj ((directionFromText_eq_some.mpr same).symm.trans
    (directionFromText_eq_some.mpr rfl))

theorem leaves_inj {leaves leaves' : List CarrierLeaf} {rest rest' : Bytes}
    (count : leaves.length = leaves'.length)
    (small : (leaves.flatMap leafBytes ++ rest).length < 256 ^ 8)
    (same : leaves.flatMap leafBytes ++ rest = leaves'.flatMap leafBytes ++ rest') :
    leaves = leaves' ∧ rest = rest' := by
  induction leaves generalizing leaves' with
  | nil =>
    obtain rfl := List.length_eq_zero_iff.mp count.symm
    exact ⟨rfl, same⟩
  | cons leaf leaves ih =>
    cases leaves' with
    | nil => cases count
    | cons leaf' leaves' =>
      rw [List.flatMap_cons, leafBytes] at small same
      rw [List.flatMap_cons, leafBytes] at same
      simp only [List.append_assoc] at small same
      obtain ⟨paths, same, small⟩ := framed_text_inj small same
      obtain ⟨_, same⟩ := List.cons_eq_cons.mp same
      rw [List.singleton_append, List.length_cons] at small
      obtain ⟨payloads, same, small⟩ := framed_inj (by omega) same
      obtain ⟨rfl, rests⟩ := ih (Nat.succ.inj count) small same
      refine ⟨?_, rests⟩
      congr 1
      cases leaf
      cases leaf'
      cases paths
      cases payloads
      congr

theorem length_le_flatMap_leafBytes (leaves : List CarrierLeaf) :
    leaves.length ≤ (leaves.flatMap leafBytes).length := by
  induction leaves with
  | nil => exact le_rfl
  | cons leaf leaves ih =>
    rw [List.flatMap_cons, List.length_cons, List.length_append, leafBytes, List.length_append,
      length_framed]
    omega

/-- **The bytes of a frame tell it.** -/
theorem LogicalCarrierFrame.encode_inj {digest : Digest} {carrier' : LogicalCarrierFrame}
    (small : (carrier.encode digest).length < 2 ^ 64)
    (same : carrier.encode digest = carrier'.encode digest) : carrier = carrier' := by
  rw [encode_eq, bodyBytes] at small same
  rw [encode_eq, bodyBytes] at same
  simp only [List.append_assoc] at small same
  obtain ⟨schemas, same, small⟩ := framed_text_inj small same
  obtain ⟨directions, same, small⟩ := framed_text_inj small same
  obtain ⟨descriptors, same, small⟩ := framed_text_inj small same
  obtain ⟨endpoints, same, small⟩ := framed_text_inj small same
  obtain ⟨identities, same, small⟩ := framed_text_inj small same
  obtain ⟨inventories, same, small⟩ := framed_text_inj small same
  have small' := small
  rw [same] at small'
  have fewer := length_le_flatMap_leafBytes carrier.leaves
  have fewer' := length_le_flatMap_leafBytes carrier'.leaves
  rw [List.length_append, List.length_append, List.length_append, length_leBytes, length_leBytes]
    at small small'
  obtain ⟨counts, same⟩ := leBytes_append_inj (by omega) (by omega) same
  have same := (List.append_inj same (by rw [length_leBytes, length_leBytes])).2
  obtain ⟨leaves, _⟩ := leaves_inj counts (by rw [List.length_append]; omega) same
  cases carrier
  cases carrier'
  congr
  · exact Subtype.ext schemas
  · exact directionText_injective directions

namespace CarrierBindingV1

def bindingBytes (binding : CarrierBindingV1) : Bytes :=
  framed (encodeText binding.schema.val) ++
    (framed (encodeText binding.descriptorIdentityDigest) ++
      (framed (encodeText binding.targetProfile.text) ++
        framed (encodeText binding.runtimeIdentity)))

variable {binding : CarrierBindingV1}

theorem encode_eq (binding : CarrierBindingV1) : binding.encode = binding.bindingBytes := by
  unfold encode preimage bindingBytes
  simp only [frame_eq, List.append_assoc, List.nil_append]

/-- A binding whose fields are within the bounds. -/
structure Fits (binding : CarrierBindingV1) : Prop where
  descriptor : (encodeText binding.descriptorIdentityDigest).length ≤ maxBindingFieldBytes
  runtime : (encodeText binding.runtimeIdentity).length ≤ maxBindingFieldBytes

theorem length_schema (schema : Schema) : (encodeText schema.val).length = 34 := by
  rw [schema.property]
  decide

theorem length_target (target : TargetProfile) : (encodeText target.text).length ≤ 11 := by
  cases target <;> decide

/-- Fields within the bounds make a binding within its bound. -/
theorem Fits.wire (fits : binding.Fits) : binding.encode.length ≤ maxBindingWireBytes := by
  have schema := length_schema binding.schema
  have target := length_target binding.targetProfile
  have descriptor := fits.descriptor
  have runtime := fits.runtime
  rw [encode_eq, bindingBytes]
  simp only [List.length_append, length_framed]
  unfold maxBindingFieldBytes at descriptor runtime
  unfold maxBindingWireBytes
  omega

/-- **The bytes of a binding tell it.** -/
theorem encode_inj {binding' : CarrierBindingV1} (small : binding.encode.length < 2 ^ 64)
    (same : binding.encode = binding'.encode) : binding = binding' := by
  rw [encode_eq, bindingBytes] at small same
  rw [encode_eq, bindingBytes] at same
  obtain ⟨schemas, same, small⟩ := framed_text_inj small same
  obtain ⟨descriptors, same, small⟩ := framed_text_inj small same
  obtain ⟨targets, same, small⟩ := framed_text_inj small same
  rw [← List.append_nil (framed _)] at small same
  rw [← List.append_nil (framed (encodeText binding'.runtimeIdentity))] at same
  obtain ⟨runtimes, _, _⟩ := framed_text_inj small same
  cases binding
  cases binding'
  congr
  · exact Subtype.ext schemas
  · exact Option.some.inj ((targetProfile_eq_some.mpr rfl).symm.trans
      (targetProfile_eq_some.mpr targets.symm))

end CarrierBindingV1

section Bindings

variable {bytes : Bytes}

variable {binding : CarrierBindingV1}

theorem takes_readBindingField (name : String) :
    Takes bytes (readBindingField bytes name) (fun text => framed (encodeText text)) Calm :=
  takes_readText _ _ _

theorem finds_readBindingField (small : bytes.length ≤ maxUsize) (name : String) {text : String}
    (short : (encodeText text).length ≤ maxBindingFieldBytes) :
    Finds bytes (readBindingField bytes name) (framed (encodeText text)) text :=
  finds_readText small short

/-- **The fields of a binding** are taken off as they are written. -/
theorem takes_readBinding : Takes bytes (readBinding bytes) CarrierBindingV1.bindingBytes Calm := by
  intro offset inside
  unfold readBinding refused
  refine (takes_readBindingField _).step inside fun _ _ inside₁ split₁ => ?_
  refine ofOption_goes (fun _ => calm_refused) fun schema known => ?_
  obtain rfl := knownSchema_eq_some.mp known
  refine (takes_readBindingField _).step inside₁ fun descriptor _ inside₂ split₂ => ?_
  refine (takes_readBindingField _).step inside₂ fun _ _ inside₃ split₃ => ?_
  refine ofOption_goes (fun _ => calm_refused) fun target known => ?_
  obtain rfl := targetProfile_eq_some.mp known
  refine (takes_readBindingField _).step inside₃ fun runtime _ inside₄ split₄ => ?_
  refine ⟨inside₄, ?_⟩
  rw [split₁, split₂, split₃, split₄]
  simp only [CarrierBindingV1.bindingBytes, List.append_assoc]

theorem finds_readBinding (small : bytes.length ≤ maxUsize)
    (fits : binding.Fits) : Finds bytes (readBinding bytes) binding.bindingBytes binding := by
  have schema : (encodeText binding.schema.val).length ≤ maxBindingFieldBytes := by
    rw [CarrierBindingV1.length_schema]
    decide
  have target : (encodeText binding.targetProfile.text).length ≤ maxBindingFieldBytes :=
    (CarrierBindingV1.length_target _).trans (by decide)
  unfold readBinding refused
  refine (finds_readBindingField small _ schema).bind ?_
  refine Finds.ofOption_bind (knownSchema_eq_some.mpr rfl) ?_
  refine (finds_readBindingField small _ fits.descriptor).bind ?_
  refine (finds_readBindingField small _ target).bind ?_
  refine Finds.ofOption_bind (targetProfile_eq_some.mpr rfl) ?_
  exact (finds_readBindingField small _ fits.runtime).map finds_pure

theorem decodeBinding_spec (bytes : Bytes) :
    Canonical CarrierBindingV1.encode bytes (decodeBinding bytes) := by
  unfold decodeBinding
  split_ifs with large
  · exact calm_refused
  · have whole : (readBinding bytes >>= endBinding bytes).wp
        (fun binding _ => binding.encode = bytes) (fun fault _ => Calm fault) 0 := by
      refine takes_readBinding.step (Nat.zero_le _) fun binding after _ split => ?_
      unfold endBinding
      refine requireEnd_goes fun final => ?_
      subst final
      rw [wp_pure, CarrierBindingV1.encode_eq, ← List.drop_zero (l := bytes), split,
        List.drop_length, List.append_nil]
    rcases wp_run whole with ⟨binding, after, ran, same⟩ | ⟨fault, after, ran, calm⟩
    · rw [ran]
      exact same
    · rw [ran]
      exact calm

theorem decodeBinding_encode (fits : binding.Fits) :
    decodeBinding binding.encode = .ok binding := by
  have limit : maxBindingWireBytes ≤ maxUsize := by decide
  have stands : binding.encode.drop 0 = binding.bindingBytes :=
    List.drop_zero.trans binding.encode_eq
  have found := finds_readBinding (fits.wire.trans limit) fits 0 []
    (stands.trans (List.append_nil _).symm)
  unfold decodeBinding
  rw [if_neg (not_lt.mpr fits.wire), run_bind found]
  unfold endBinding
  rw [run_bind (requireEnd_stands (Nat.zero_le _) stands _)]
  rfl

end Bindings

/-- A codec that does not panic, whose accepted bytes are those that are written, which accepts what is
within its bounds as it was, and by which two values of equal bytes are equal. -/
structure BoundedCodec {A : Type} (parse : Bytes → Except Fault A) (encode : A → Bytes)
    (fits : A → Prop) : Prop where
  calm : ∀ bytes, parse bytes ≠ .error .panicked
  canonical : ∀ bytes value, parse bytes = .ok value → encode value = bytes
  roundTrip : ∀ value, fits value → parse (encode value) = .ok value
  telling : ∀ value value', (encode value).length < 2 ^ 64 → encode value = encode value' →
    value = value'

theorem BoundedCodec.of_spec {A : Type} {parse : Bytes → Except Fault A} {encode : A → Bytes}
    {fits : A → Prop}
    (spec : ∀ bytes, Canonical encode bytes (parse bytes))
    (roundTrip : ∀ value, fits value → parse (encode value) = .ok value)
    (telling : ∀ value value', (encode value).length < 2 ^ 64 → encode value = encode value' →
      value = value') : BoundedCodec parse encode fits := by
  refine ⟨fun bytes panics => ?_, fun bytes value parsed => ?_, roundTrip, telling⟩
  · have calm := spec bytes
    rw [panics] at calm
    exact calm rfl
  · have same := spec bytes
    rw [parsed] at same
    exact same

theorem mismatchIf_eq_ok {condition : Prop} [Decidable condition] {subject : String} :
    mismatchIf condition subject = .ok () ↔ ¬condition := by
  unfold mismatchIf
  split_ifs with holds <;> simp [holds]

/-- **A validated frame lists the paths of the plan.** -/
theorem validateFrame_paths {plan : CarrierFrameBinding}
    (validated : plan.validateFrame carrier = .ok ()) :
    carrier.leaves.map CarrierLeaf.path = plan.leafPaths := by
  unfold CarrierFrameBinding.validateFrame at validated
  iterate 5 obtain ⟨_, _, validated⟩ := bind_eq_ok.mp validated
  exact not_ne_iff.mp (mismatchIf_eq_ok.mp validated)

/-- **Carrier frames and bindings are exact codecs**, for every digest, and a frame that is accepted and
validated lists exactly the paths of its plan in their order. -/
theorem carrier_codecs (digest : Digest) :
    BoundedCodec (parseBounded digest) (LogicalCarrierFrame.encode digest)
        (LogicalCarrierFrame.Fits digest) ∧
      BoundedCodec decodeBinding CarrierBindingV1.encode CarrierBindingV1.Fits ∧
      ∀ bytes carrier (plan : CarrierFrameBinding), parseBounded digest bytes = .ok carrier →
        plan.validateFrame carrier = .ok () →
          carrier.leaves.map CarrierLeaf.path = plan.leafPaths :=
  ⟨.of_spec (parseBounded_spec digest) (fun _ fits => parseBounded_encode fits)
      fun _ _ small same => LogicalCarrierFrame.encode_inj small same,
    .of_spec decodeBinding_spec (fun _ fits => decodeBinding_encode fits)
      fun _ _ small same => CarrierBindingV1.encode_inj small same,
    fun _ _ _ _ validated => validateFrame_paths validated⟩

end Semaprax.CarrierFrames
