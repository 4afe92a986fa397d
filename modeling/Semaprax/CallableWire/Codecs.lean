/-
**The wires are exact** (`callable_wire_v3.rs`).

* `ExactCodec` — what is parsed encodes as it was written, and what is encoded and accepted parses as
  it was.
* `readable_recoveryIdentity` and the like — fields can be told from what follows them.
* `cellStateTag_of_parse` and the like — a tag is read as what writes it.
-/

import Semaprax.CallableWire.Formats

namespace Semaprax.CallableWire

open Library

/-- What is accepted encodes as it was written and in no other way, and the encoding of a typed value
is accepted, if at all, as that value. -/
structure ExactCodec {A : Type} (parse : Bytes → Except WireError A) (encode : A → Option Bytes)
    (typed : A → Prop) : Prop where
  canonical : ∀ bytes value, parse bytes = .ok value → encode value = some bytes
  roundTrip : ∀ value bytes, typed value → encode value = some bytes →
    (∃ accepted, parse bytes = .ok accepted) → parse bytes = .ok value
  unique : ∀ bytes bytes' value, parse bytes = .ok value → parse bytes' = .ok value → bytes = bytes'

variable {A : Type} {magic body : Bytes} {count : Nat} {tag detail : UInt32}

theorem ExactCodec.of_injective {parse : Bytes → Except WireError A}
    {encode : A → Option Bytes} {typed : A → Prop}
    (canonical : ∀ bytes value, parse bytes = .ok value → encode value = some bytes)
    (injective : ∀ bytes value accepted, typed value → parse bytes = .ok accepted →
      encode value = some bytes → encode accepted = some bytes → value = accepted) :
    ExactCodec parse encode typed := by
  refine ⟨canonical, ?_, ?_⟩
  · rintro value bytes kinds encoded ⟨accepted, parsed⟩
    rw [injective bytes value accepted kinds parsed encoded (canonical bytes accepted parsed)]
    exact parsed
  · intro bytes bytes' value parsed parsed'
    have same := (canonical bytes value parsed).symm.trans (canonical bytes' value parsed')
    exact Option.some.inj same

theorem u32Bytes_injective : Function.Injective u32Bytes := by
  intro first second same
  have values : first.toNat % 2 ^ 32 = second.toNat % 2 ^ 32 := by
    have read := congrArg leValue same
    rwa [u32Bytes, u32Bytes, leValue_leBytes, leValue_leBytes] at read
  rw [Nat.mod_eq_of_lt first.toNat_lt, Nat.mod_eq_of_lt second.toNat_lt] at values
  exact UInt32.toNat_inj.mp values

theorem u64Bytes_injective : Function.Injective u64Bytes := by
  intro first second same
  have values : first.toNat % 2 ^ 64 = second.toNat % 2 ^ 64 := by
    have read := congrArg leValue same
    rwa [u64Bytes, u64Bytes, leValue_leBytes, leValue_leBytes] at read
  rw [Nat.mod_eq_of_lt first.toNat_lt, Nat.mod_eq_of_lt second.toNat_lt] at values
  exact UInt64.toNat_inj.mp values

theorem readable_u32 : Readable u32Bytes := .of_length length_u32Bytes u32Bytes_injective

theorem readable_u64 : Readable u64Bytes := .of_length length_u64Bytes u64Bytes_injective

theorem readable_i64 : Readable i64Bytes := by
  refine .of_length length_i64Bytes fun first second same => ?_
  have numbers := congrArg UInt64.toInt64 (u64Bytes_injective same)
  rwa [Int64.toInt64_toUInt64, Int64.toInt64_toUInt64] at numbers

theorem readable_digest : Readable (Subtype.val : Digest → Bytes) :=
  .of_length Subtype.property Subtype.val_injective

theorem readable_callIdentity : Readable callIdentityBytes := by
  rintro ⟨callContract, invocation, frameGeneration, providerChallenge⟩ ⟨_, _, _, _⟩ rest rest' same
  simp only [callIdentityBytes, List.append_assoc] at same
  obtain ⟨contracts, same⟩ := readable_digest same
  obtain ⟨invocations, same⟩ := readable_u64 same
  obtain ⟨generations, same⟩ := readable_u64 same
  obtain ⟨challenges, same⟩ := readable_digest same
  refine ⟨?_, same⟩
  rw [contracts, Subtype.ext invocations, Subtype.ext generations, challenges]

theorem readable_recoveryIdentity : Readable recoveryIdentityBytes := by
  rintro ⟨⟨callContract, invocation, frameGeneration, providerChallenge⟩, recoveryContract,
    settlementGraph⟩ ⟨⟨_, _, _, _⟩, _, _⟩ rest rest' same
  simp only [recoveryIdentityBytes, List.append_assoc] at same
  obtain ⟨contracts, same⟩ := readable_digest same
  obtain ⟨recoveries, same⟩ := readable_digest same
  obtain ⟨graphs, same⟩ := readable_digest same
  obtain ⟨invocations, same⟩ := readable_u64 same
  obtain ⟨generations, same⟩ := readable_u64 same
  obtain ⟨challenges, same⟩ := readable_digest same
  refine ⟨?_, same⟩
  rw [contracts, recoveries, graphs, Subtype.ext invocations, Subtype.ext generations, challenges]

theorem enveloped_inj {body' : Bytes} (eight : magic.length = 8)
    (same : enveloped magic body = enveloped magic body') : body = body' := by
  unfold enveloped at same
  exact (List.append_inj same (by rw [length_header eight, length_header eight])).2

theorem count_inj {count' : Nat} (small : count < 2 ^ 32) (small' : count' < 2 ^ 32)
    (same : UInt32.ofNat count = UInt32.ofNat count') : count = count' := by
  have values := congrArg UInt32.toNat same
  rwa [UInt32.toNat_ofNat_of_lt' small, UInt32.toNat_ofNat_of_lt' small'] at values

theorem u32Bytes_ofNat (small : count < 2 ^ 32) :
    u32Bytes (UInt32.ofNat count) = leBytes 4 count := by
  rw [u32Bytes, UInt32.toNat_ofNat_of_lt' small]

theorem length_le_flatMap (write : A → Bytes)
    (written : ∀ value, 0 < (write value).length) (values : List A) :
    values.length ≤ (values.flatMap write).length := by
  induction values with
  | nil => exact Nat.zero_le _
  | cons value values ih =>
    have one := written value
    rw [List.length_cons, List.flatMap_cons, List.length_append]
    omega

theorem finish_some {bytes : Bytes} (eight : magic.length = 8)
    (finished : ((Writer.new magic).put body).finish = some bytes) :
    20 + body.length < 2 ^ 32 ∧ bytes = enveloped magic body := by
  rw [Writer.finish_put eight] at finished
  split_ifs at finished with small
  exact ⟨small, (Option.some.inj finished).symm⟩

theorem cellStateTag_injective : Function.Injective cellStateTag := by
  intro first second same
  cases first <;> cases second <;> first | rfl | exact absurd same (by decide)

theorem FramePhase.tag_injective : Function.Injective FramePhase.tag := by
  intro first second same
  cases first <;> cases second <;> first | rfl | exact absurd same (by decide)

theorem ActionBoundary.tag_injective : Function.Injective ActionBoundary.tag := by
  intro first second same
  cases first <;> cases second <;> first | rfl | exact absurd same (by decide)

theorem Disposition.tag_injective : Function.Injective Disposition.tag := by
  intro first second same
  cases first <;> cases second <;> first | rfl | exact absurd same (by decide)

theorem ExecuteOutcome.fields_injective : Function.Injective ExecuteOutcome.fields := by
  intro first second same
  cases first <;> cases second <;> simp [fields, Prod.ext_iff] at same ⊢
  case scalar.scalar value value' =>
    have numbers := congrArg UInt64.toInt64 same
    rwa [Int64.toInt64_toUInt64, Int64.toInt64_toUInt64] at numbers
  all_goals assumption

theorem ExecuteReturn.fields_injective : Function.Injective ExecuteReturn.fields := by
  intro first second same
  cases first <;> cases second <;> simp [fields] at same ⊢
  assumption

theorem Decision.fields_injective : Function.Injective Decision.fields := by
  intro first second same
  cases first <;> cases second <;> simp [fields] at same ⊢ <;> assumption

theorem CandidateOutcome.fields_injective : Function.Injective CandidateOutcome.fields := by
  intro first second same
  cases first <;> cases second <;> simp [fields] at same ⊢
  assumption

theorem cellStateTag_of_parse {state : CellState}
    (parsed : parseCellState tag = some state) : cellStateTag state = tag := by
  unfold parseCellState at parsed
  split_ifs at parsed <;> cases parsed <;> subst tag <;> rfl

theorem FramePhase.tag_of {phase : FramePhase}
    (parsed : FramePhase.ofTag tag = some phase) : phase.tag = tag := by
  unfold FramePhase.ofTag at parsed
  split_ifs at parsed <;> cases parsed <;> subst tag <;> rfl

theorem Disposition.tag_of {disposition : Disposition}
    (parsed : Disposition.ofTag tag = some disposition) : disposition.tag = tag := by
  unfold Disposition.ofTag at parsed
  split_ifs at parsed <;> cases parsed <;> subst tag <;> rfl

theorem ExecuteOutcome.fields_of {descriptor : Descriptor} {payload : UInt64}
    {outcome : ExecuteOutcome}
    (parsed : ExecuteOutcome.ofFields descriptor tag detail payload = some outcome) :
    outcome.fields = (tag, detail, payload) := by
  unfold ExecuteOutcome.ofFields at parsed
  split_ifs at parsed with scalar failure owned
  · cases parsed
    rw [scalar.1, scalar.2.1, fields, UInt64.toUInt64_toInt64]
  · cases parsed
    rw [failure.1, failure.2.2.2, fields]
  · cases parsed
    rw [owned.1, fields]

theorem ExecuteReturn.fields_of {code : UInt32} {executeReturn : ExecuteReturn}
    (parsed : ExecuteReturn.ofFields tag code = some executeReturn) :
    executeReturn.fields = (tag, code) := by
  unfold ExecuteReturn.ofFields at parsed
  split_ifs at parsed with pending returned unwound
  · cases parsed
    rw [pending.1, pending.2, fields]
  · cases parsed
    rw [returned, fields]
  · cases parsed
    rw [unwound.1, unwound.2, fields]

theorem CandidateOutcome.fields_of {outcome : CandidateOutcome}
    (parsed : CandidateOutcome.ofFields tag detail = some outcome) :
    outcome.fields = (tag, detail) := by
  unfold CandidateOutcome.ofFields at parsed
  split_ifs at parsed with scalar failure owned abort
  · cases parsed
    rw [scalar.1, scalar.2, fields]
  · cases parsed
    rw [failure.1, failure.2, fields]
  · cases parsed
    rw [owned, fields]
  · cases parsed
    rw [abort.1, abort.2, fields]

end Semaprax.CallableWire
