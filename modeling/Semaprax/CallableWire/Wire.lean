/-
**Readers and writers of the callable wires** (`callable_wire_v3.rs`).

A wire is an envelope of 20 bytes (magic, version, header size, total length) and a body of numbers
and digests, least significant byte first.

* `Reader` — what reads from the rest of the bytes; `Reader.envelope`, `Reader.recoveryIdentity`.
* `Writer`, `SliceWriter` — a writer that grows its bytes, and one that fills a slice of fixed size.
* `Writer.finish_put`, `SliceWriter.fill_puts` — what the two have written.
* `reads_recoveryIdentity` and the like — readers take off what writers put in front.
* `envelope_step` — what an accepted envelope is made of.
-/

import Semaprax.Library.Bytes

namespace Semaprax.CallableWire

open Library

abbrev Bytes := List UInt8

/-- A hash of 32 bytes. -/
abbrev Digest := { bytes : Bytes // bytes.length = 32 }

def zeroDigest : Digest := ⟨List.replicate 32 0, List.length_replicate⟩

abbrev NonZeroU64 := { number : UInt64 // number ≠ 0 }

/-- The bytes of a text in the basic Latin alphabet. -/
def ascii (text : String) : Bytes := text.toList.map fun letter => UInt8.ofNat letter.toNat

def version : UInt32 := 3

def headerSize : UInt32 := 20

def requestMagic : Bytes := ascii "SPXNRQ03"

def responseMagic : Bytes := ascii "SPXNEX03"

def frameMagic : Bytes := ascii "SPXNFR03"

def decisionMagic : Bytes := ascii "SPXNDC03"

def actionMagic : Bytes := ascii "SPXNAC03"

def candidateMagic : Bytes := ascii "SPXNCR03"

def preExecuteHostUnwindCode : UInt32 := 0xFFFFFFFE

def decisionBytes : Nat := 172

def actionRecordBytes : Nat := 196

inductive WireError
  | malformed
  | unsupportedSchema
  | nonCanonical
  | capacityMismatch
  | crossBinding
  | digestMismatch
  | replayMismatch
deriving DecidableEq, Repr

inductive ScalarKind
  | i64
  | bool
deriving DecidableEq, Repr

inductive Parameter
  | scalar (kind : ScalarKind)
  | owned (ownerOrdinal : Nat)
deriving DecidableEq, Repr

inductive ResultShape
  | scalarI64
  | ownedInput (parameterIndex ownerOrdinal : Nat)
deriving DecidableEq, Repr

structure Capacities where
  request : UInt32
  executeResponse : UInt32
  frame : UInt32
  decision : UInt32
  actionEvidence : UInt32
  candidateReceipt : UInt32
  eventCount : UInt32
  dictionaryEntries : UInt32
  resourceCount : UInt32
  checkpointCount : UInt32

structure Fingerprints where
  callContract : Digest
  recoveryContract : Digest
  settlementGraph : Digest

/-- What the wires need of a descriptor. -/
structure Descriptor where
  fingerprints : Fingerprints
  capacities : Capacities
  parameters : List Parameter
  result : ResultShape

structure CallIdentity where
  callContract : Digest
  invocation : NonZeroU64
  frameGeneration : NonZeroU64
  providerChallenge : Digest
deriving DecidableEq

structure RecoveryIdentity where
  call : CallIdentity
  recoveryContract : Digest
  settlementGraph : Digest
deriving DecidableEq

def validateCallIdentity (identity : CallIdentity) (descriptor : Descriptor) :
    Except WireError Unit :=
  if identity.callContract ≠ descriptor.fingerprints.callContract ∨
      identity.providerChallenge = zeroDigest then .error .crossBinding
  else .ok ()

def validateRecoveryIdentity (identity : RecoveryIdentity) (descriptor : Descriptor) :
    Except WireError Unit := do
  validateCallIdentity identity.call descriptor
  if identity.recoveryContract ≠ descriptor.fingerprints.recoveryContract ∨
      identity.settlementGraph ≠ descriptor.fingerprints.settlementGraph then .error .crossBinding
  else .ok ()

/-- A reader of what is left of the bytes. -/
abbrev Reader (A : Type) := Prog Bytes WireError A

namespace Reader

def take (length : Nat) : Reader Bytes := do
  let bytes ← Prog.get
  stopIf (bytes.length < length) .malformed
  Prog.set (bytes.drop length)
  pure (bytes.take length)

def u32 : Reader UInt32 := do
  let bytes ← take 4
  pure (UInt32.ofNat (leValue bytes))

def u64 : Reader UInt64 := do
  let bytes ← take 8
  pure (UInt64.ofNat (leValue bytes))

def i64 : Reader Int64 := do
  let number ← u64
  pure number.toInt64

def usize : Reader Nat := do
  let number ← u32
  pure number.toNat

def digest : Reader Digest := do
  let bytes ← take 32
  if length : bytes.length = 32 then pure ⟨bytes, length⟩ else Prog.stop .malformed

def nonzeroDigest : Reader Digest := do
  let value ← digest
  stopIf (value = zeroDigest) .nonCanonical
  pure value

def nonZeroU64 : Reader NonZeroU64 := do
  let number ← u64
  if positive : number ≠ 0 then pure ⟨number, positive⟩ else Prog.stop .nonCanonical

def ofResult {A : Type} : Except WireError A → Reader A
  | .ok value => pure value
  | .error error => Prog.stop error

def callIdentity : Reader CallIdentity := do
  let callContract ← digest
  let invocation ← nonZeroU64
  let frameGeneration ← nonZeroU64
  let providerChallenge ← nonzeroDigest
  pure ⟨callContract, invocation, frameGeneration, providerChallenge⟩

def recoveryIdentity : Reader RecoveryIdentity := do
  let callContract ← digest
  let recoveryContract ← nonzeroDigest
  let settlementGraph ← nonzeroDigest
  let invocation ← nonZeroU64
  let frameGeneration ← nonZeroU64
  let providerChallenge ← nonzeroDigest
  pure ⟨⟨callContract, invocation, frameGeneration, providerChallenge⟩, recoveryContract,
    settlementGraph⟩

def envelope (magic : Bytes) : Reader Unit := do
  let bytes ← Prog.get
  stopIf (bytes.length < headerSize.toNat) .malformed
  -- the four fields are there, so that reading them cannot fail
  let found ← take 8
  let foundVersion ← u32
  let foundHeader ← u32
  let total ← usize
  stopIf (found ≠ magic ∨ foundVersion ≠ version ∨ foundHeader ≠ headerSize ∨
    total ≠ bytes.length) .unsupportedSchema

def finish : Reader Unit := do
  let bytes ← Prog.get
  stopIf (bytes ≠ []) .malformed

end Reader

/-- The length that the envelope of a prefix of the bytes states. -/
def declaredTotal (bytes magic : Bytes) : Except WireError Nat :=
  if bytes.length < headerSize.toNat ∨ bytes.take 8 ≠ magic ∨
      UInt32.ofNat (leValue ((bytes.drop 8).take 4)) ≠ version ∨
      UInt32.ofNat (leValue ((bytes.drop 12).take 4)) ≠ headerSize then .error .unsupportedSchema
  else
    let total := (UInt32.ofNat (leValue ((bytes.drop 16).take 4))).toNat
    if total < headerSize.toNat ∨ total > bytes.length then .error .malformed else .ok total

def u32Bytes (number : UInt32) : Bytes := leBytes 4 number.toNat

def u64Bytes (number : UInt64) : Bytes := leBytes 8 number.toNat

def i64Bytes (number : Int64) : Bytes := u64Bytes number.toUInt64

structure Writer where
  bytes : Bytes

namespace Writer

def new (magic : Bytes) : Writer where
  bytes := magic ++ u32Bytes version ++ u32Bytes headerSize ++ u32Bytes 0

def put (writer : Writer) (bytes : Bytes) : Writer where
  bytes := writer.bytes ++ bytes

def digest (writer : Writer) (value : Digest) : Writer := writer.put value.val

def u32 (writer : Writer) (value : UInt32) : Writer := writer.put (u32Bytes value)

def u64 (writer : Writer) (value : UInt64) : Writer := writer.put (u64Bytes value)

def i64 (writer : Writer) (value : Int64) : Writer := writer.put (i64Bytes value)

def callIdentity (writer : Writer) (identity : CallIdentity) : Writer :=
  (((writer.digest identity.callContract).u64 identity.invocation.val).u64
    identity.frameGeneration.val).digest identity.providerChallenge

def recoveryIdentity (writer : Writer) (identity : RecoveryIdentity) : Writer :=
  (((((writer.digest identity.call.callContract).digest identity.recoveryContract).digest
    identity.settlementGraph).u64 identity.call.invocation.val).u64
    identity.call.frameGeneration.val).digest identity.call.providerChallenge

/-- The bytes with their length in the envelope; a length past 32 bits panics. -/
def finish (writer : Writer) : Option Bytes :=
  if writer.bytes.length < 2 ^ 32 then
    some (writer.bytes.take 16 ++ leBytes 4 writer.bytes.length ++ writer.bytes.drop 20)
  else none

end Writer

/-- A writer into a slice of fixed size, with its cursor. -/
abbrev SliceWriter (A : Type) := Prog (Bytes × Nat) WireError A

namespace SliceWriter

def put (value : Bytes) : SliceWriter Unit := do
  let slice ← Prog.get
  stopIf (slice.2 + value.length > slice.1.length) .capacityMismatch
  Prog.set (slice.1.take slice.2 ++ value ++ slice.1.drop (slice.2 + value.length),
    slice.2 + value.length)

def new (magic : Bytes) : SliceWriter Unit := do
  let slice ← Prog.get
  stopIf (slice.1.length ≥ 2 ^ 32) .capacityMismatch
  put magic
  put (u32Bytes version)
  put (u32Bytes headerSize)
  put (leBytes 4 slice.1.length)

def digest (value : Digest) : SliceWriter Unit := put value.val

def u32 (value : UInt32) : SliceWriter Unit := put (u32Bytes value)

def u64 (value : UInt64) : SliceWriter Unit := put (u64Bytes value)

def recoveryIdentity (identity : RecoveryIdentity) : SliceWriter Unit := do
  digest identity.call.callContract
  digest identity.recoveryContract
  digest identity.settlementGraph
  u64 identity.call.invocation.val
  u64 identity.call.frameGeneration.val
  digest identity.call.providerChallenge

def finish : SliceWriter Unit := do
  let slice ← Prog.get
  stopIf (slice.2 ≠ slice.1.length) .capacityMismatch

def fill (size : Nat) (writer : SliceWriter Unit) : Except WireError Bytes :=
  match writer (List.replicate size 0, 0) with
  | (.ok (), slice) => .ok slice.1
  | (.error error, _) => .error error

end SliceWriter

/-- The envelope of a wire of so many bytes. -/
def header (magic : Bytes) (total : Nat) : Bytes :=
  magic ++ (u32Bytes version ++ (u32Bytes headerSize ++ leBytes 4 total))

def enveloped (magic body : Bytes) : Bytes := header magic (20 + body.length) ++ body

def callIdentityBytes (identity : CallIdentity) : Bytes :=
  identity.callContract.val ++ (u64Bytes identity.invocation.val ++
    (u64Bytes identity.frameGeneration.val ++ identity.providerChallenge.val))

def recoveryIdentityBytes (identity : RecoveryIdentity) : Bytes :=
  identity.call.callContract.val ++ (identity.recoveryContract.val ++
    (identity.settlementGraph.val ++ (u64Bytes identity.call.invocation.val ++
      (u64Bytes identity.call.frameGeneration.val ++ identity.call.providerChallenge.val))))

variable {magic bytes : Bytes} {A B : Type}

@[simp]
theorem length_u32Bytes (number : UInt32) : (u32Bytes number).length = 4 := length_leBytes _ _

@[simp]
theorem length_u64Bytes (number : UInt64) : (u64Bytes number).length = 8 := length_leBytes _ _

@[simp]
theorem length_i64Bytes (number : Int64) : (i64Bytes number).length = 8 := length_u64Bytes _

theorem length_header (eight : magic.length = 8) (total : Nat) :
    (header magic total).length = 20 := by
  simp only [header, List.length_append, length_u32Bytes, length_leBytes, eight]

@[simp]
theorem length_recoveryIdentityBytes (identity : RecoveryIdentity) :
    (recoveryIdentityBytes identity).length = 144 := by
  simp [recoveryIdentityBytes, identity.call.callContract.property,
    identity.recoveryContract.property, identity.settlementGraph.property,
    identity.call.providerChallenge.property]

namespace Writer

@[simp]
theorem put_put (writer : Writer) (first second : Bytes) :
    (writer.put first).put second = writer.put (first ++ second) := by
  unfold put
  rw [List.append_assoc]

theorem callIdentity_eq (writer : Writer) (identity : CallIdentity) :
    writer.callIdentity identity = writer.put (callIdentityBytes identity) := by
  simp only [callIdentity, digest, u64, put_put, callIdentityBytes, List.append_assoc]

theorem recoveryIdentity_eq (writer : Writer) (identity : RecoveryIdentity) :
    writer.recoveryIdentity identity = writer.put (recoveryIdentityBytes identity) := by
  simp only [recoveryIdentity, digest, u64, put_put, recoveryIdentityBytes, List.append_assoc]

theorem foldl_put {A : Type} (write : A → Bytes) (values : List A) (writer : Writer) :
    values.foldl (fun writer value => writer.put (write value)) writer =
      writer.put (values.flatMap write) := by
  induction values generalizing writer with
  | nil => exact congrArg Writer.mk (List.append_nil _).symm
  | cons value values ih => rw [List.foldl_cons, ih, put_put, List.flatMap_cons]

theorem finish_put {magic : Bytes} (eight : magic.length = 8) (body : Bytes) :
    ((new magic).put body).finish =
      if 20 + body.length < 2 ^ 32 then some (enveloped magic body) else none := by
  have length : ((new magic).put body).bytes.length = 20 + body.length := by
    simp only [new, put, List.length_append, length_u32Bytes, eight]
  have front : ((new magic).put body).bytes.take 16 =
      magic ++ (u32Bytes version ++ u32Bytes headerSize) := by
    have split : ((new magic).put body).bytes =
        (magic ++ (u32Bytes version ++ u32Bytes headerSize)) ++ (u32Bytes 0 ++ body) := by
      simp only [new, put, List.append_assoc]
    rw [split, List.take_left' (by simp [eight])]
  have back : ((new magic).put body).bytes.drop 20 = body := by
    have split : ((new magic).put body).bytes =
        (magic ++ (u32Bytes version ++ (u32Bytes headerSize ++ u32Bytes 0))) ++ body := by
      simp only [new, put, List.append_assoc]
    rw [split, List.drop_left' (by simp [eight])]
  unfold finish enveloped header
  rw [length, front, back]
  simp only [List.append_assoc]

end Writer

namespace SliceWriter

def Puts (writer : SliceWriter Unit) (written : Bytes) : Prop :=
  ∀ done blank : Bytes, written.length ≤ blank.length →
    writer (done ++ blank, done.length) =
      (.ok (), (done ++ written ++ blank.drop written.length, (done ++ written).length))

variable {magic : Bytes}

theorem puts_put (value : Bytes) : Puts (put value) value := by
  intro done blank room
  have fits : ¬done.length + value.length > (done ++ blank).length := by
    rw [List.length_append]
    omega
  unfold put
  simp only [Bind.bind, Prog.get, Prog.step, stopIf, if_neg fits, Prog.set]
  show ((Except.ok (), _) : Except WireError Unit × (Bytes × Nat)) = _
  rw [List.take_left' rfl, List.drop_append, List.length_append]
  simp

theorem Puts.bind {first second : SliceWriter Unit} {written written' : Bytes}
    (puts : Puts first written) (puts' : Puts second written') :
    Puts (first >>= fun _ => second) (written ++ written') := by
  intro done blank room
  rw [List.length_append] at room
  have rest := puts' (done ++ written) (blank.drop written.length) (by
    rw [List.length_drop]
    omega)
  simp only [Bind.bind]
  rw [puts done blank (by omega)]
  dsimp only
  rw [rest, List.drop_drop]
  simp only [List.append_assoc, List.length_append]

theorem Puts.digest (value : Digest) : Puts (SliceWriter.digest value) value.val :=
  puts_put value.val

theorem Puts.u32 (value : UInt32) : Puts (SliceWriter.u32 value) (u32Bytes value) :=
  puts_put (u32Bytes value)

theorem Puts.u64 (value : UInt64) : Puts (SliceWriter.u64 value) (u64Bytes value) :=
  puts_put (u64Bytes value)

theorem Puts.recoveryIdentity (identity : RecoveryIdentity) :
    Puts (SliceWriter.recoveryIdentity identity) (recoveryIdentityBytes identity) :=
  (Puts.digest _).bind <| (Puts.digest _).bind <| (Puts.digest _).bind <| (Puts.u64 _).bind <|
    (Puts.u64 _).bind <| Puts.digest _

theorem new_eq {blank : Bytes} (eight : magic.length = 8) (room : 20 ≤ blank.length)
    (small : blank.length < 2 ^ 32) :
    new magic (blank, 0) = (.ok (),
      (header magic blank.length ++ blank.drop 20, (header magic blank.length).length)) := by
  have heads : Puts (do
      put magic
      put (u32Bytes version)
      put (u32Bytes headerSize)
      put (leBytes 4 blank.length)) (header magic blank.length) :=
    (puts_put _).bind <| (puts_put _).bind <| (puts_put _).bind <| puts_put _
  have fits : ¬blank.length ≥ 2 ^ 32 := by omega
  have ran := heads [] blank (by rw [length_header eight]; exact room)
  rw [List.nil_append, List.nil_append] at ran
  rw [← length_header eight blank.length]
  refine Eq.trans ?_ ran
  unfold new
  simp only [Bind.bind, Prog.get, Prog.step, stopIf, if_neg fits]
  rfl

theorem finish_eq (bytes : Bytes) :
    finish (bytes, bytes.length) = (.ok (), (bytes, bytes.length)) := by
  unfold finish
  simp only [Bind.bind, Prog.get, Prog.step, stopIf, ne_eq, not_true_eq_false, if_false]
  rfl

theorem fill_puts {body : Bytes} {writer : SliceWriter Unit} {size : Nat}
    (eight : magic.length = 8) (puts : Puts writer body) (whole : size = 20 + body.length)
    (small : size < 2 ^ 32) :
    fill size (new magic >>= fun _ => writer >>= fun _ => finish) =
      .ok (enveloped magic body) := by
  have size_eq : (List.replicate size (0 : UInt8)).length = size := List.length_replicate
  have opened := new_eq eight (by omega) (size_eq.symm ▸ small)
  have filled := puts (header magic size) ((List.replicate size 0).drop 20) (by
    rw [List.length_drop, size_eq]
    omega)
  have none : ((List.replicate size (0 : UInt8)).drop 20).drop body.length = [] := by
    rw [List.drop_drop, List.drop_of_length_le (by rw [size_eq, whole])]
  rw [none, List.append_nil] at filled
  rw [size_eq] at opened
  unfold fill
  simp only [Bind.bind]
  rw [opened]
  dsimp only
  rw [filled]
  dsimp only
  rw [finish_eq, enveloped, whole]

end SliceWriter

theorem reads_u32 : Reads Reader.u32 u32Bytes := by
  intro bytes
  unfold Reader.u32
  refine take_step fun value rest split length => ?_
  have small := leValue_lt value
  rw [length] at small
  rw [wp_pure, u32Bytes, UInt32.toNat_ofNat_of_lt' small, ← length, leBytes_leValue]
  exact split

theorem reads_u64 : Reads Reader.u64 u64Bytes := by
  intro bytes
  unfold Reader.u64
  refine take_step fun value rest split length => ?_
  have small := leValue_lt value
  rw [length] at small
  rw [wp_pure, u64Bytes, UInt64.toNat_ofNat_of_lt' small, ← length, leBytes_leValue]
  exact split

theorem reads_digest : Reads Reader.digest Subtype.val := by
  intro bytes
  unfold Reader.digest
  refine take_step fun value rest split length => ?_
  rw [dif_pos length, wp_pure]
  exact split

theorem reads_nonzeroDigest : Reads Reader.nonzeroDigest Subtype.val := by
  intro bytes
  unfold Reader.nonzeroDigest
  refine reads_digest.step fun value rest split => ?_
  exact stopIf_step fun _ => split

theorem reads_nonZeroU64 : Reads Reader.nonZeroU64 fun number => u64Bytes number.val := by
  intro bytes
  unfold Reader.nonZeroU64
  refine reads_u64.step fun number rest split => ?_
  by_cases positive : number ≠ 0
  · rw [dif_pos positive, wp_pure]
    exact split
  · rw [dif_neg positive, wp_stop]
    trivial

theorem usize_step {next : Nat → Reader A} {ends : A → Bytes → Prop}
    (goes : ∀ number : Nat, ∀ rest, bytes = leBytes 4 number ++ rest → number < 2 ^ 32 →
      (next number).wp ends (fun _ _ => True) rest) :
    (Reader.usize >>= next).wp ends (fun _ _ => True) bytes := by
  rw [wp_bind]
  unfold Reader.usize
  refine reads_u32.step fun number rest split => ?_
  rw [wp_pure]
  exact goes _ _ split number.toNat_lt

theorem ofResult_step {result : Except WireError B} {next : B → Reader A} {ends : A → Bytes → Prop}
    (goes : ∀ value, result = .ok value → (next value).wp ends (fun _ _ => True) bytes) :
    (Reader.ofResult result >>= next).wp ends (fun _ _ => True) bytes := by
  rw [wp_bind]
  cases result with
  | ok value => exact (wp_pure _).mpr (goes value rfl)
  | error error => exact (wp_stop _).mpr trivial

theorem finish_step {next : Unit → Reader A} {ends : A → Bytes → Prop}
    (goes : bytes = [] → (next ()).wp ends (fun _ _ => True) bytes) :
    (Reader.finish >>= next).wp ends (fun _ _ => True) bytes := by
  rw [wp_bind]
  unfold Reader.finish
  rw [wp_bind, wp_get, wp_stopIf]
  exact ⟨fun _ => trivial, fun none => goes (not_not.mp none)⟩

theorem reads_callIdentity : Reads Reader.callIdentity callIdentityBytes := by
  intro bytes
  unfold Reader.callIdentity
  refine reads_digest.step fun callContract _ split => ?_
  subst split
  refine reads_nonZeroU64.step fun invocation _ split => ?_
  subst split
  refine reads_nonZeroU64.step fun frameGeneration _ split => ?_
  subst split
  refine reads_nonzeroDigest.step fun providerChallenge _ split => ?_
  subst split
  rw [wp_pure]
  simp only [callIdentityBytes, List.append_assoc]

theorem reads_recoveryIdentity : Reads Reader.recoveryIdentity recoveryIdentityBytes := by
  intro bytes
  unfold Reader.recoveryIdentity
  refine reads_digest.step fun callContract _ split => ?_
  subst split
  refine reads_nonzeroDigest.step fun recoveryContract _ split => ?_
  subst split
  refine reads_nonzeroDigest.step fun settlementGraph _ split => ?_
  subst split
  refine reads_nonZeroU64.step fun invocation _ split => ?_
  subst split
  refine reads_nonZeroU64.step fun frameGeneration _ split => ?_
  subst split
  refine reads_nonzeroDigest.step fun providerChallenge _ split => ?_
  subst split
  rw [wp_pure]
  simp only [recoveryIdentityBytes, List.append_assoc]

theorem envelope_step (eight : magic.length = 8) {next : Unit → Reader A} {ends : A → Bytes → Prop}
    (goes : ∀ rest, bytes = enveloped magic rest → 20 + rest.length < 2 ^ 32 →
      (next ()).wp ends (fun _ _ => True) rest) :
    (Reader.envelope magic >>= next).wp ends (fun _ _ => True) bytes := by
  rw [wp_bind]
  unfold Reader.envelope
  rw [wp_bind, wp_get]
  refine stopIf_step fun _ => ?_
  refine take_step fun found afterMagic split length => ?_
  refine reads_u32.step fun foundVersion afterVersion splitVersion => ?_
  refine reads_u32.step fun foundHeader afterHeader splitHeader => ?_
  refine usize_step fun total rest splitTotal small => ?_
  refine (wp_stopIf _ _).mpr ⟨fun _ => trivial, fun agrees => ?_⟩
  push Not at agrees
  obtain ⟨rfl, rfl, rfl, rfl⟩ := agrees
  have size : bytes.length = 20 + rest.length := by
    rw [split, splitVersion, splitHeader, splitTotal]
    simp only [List.length_append, length_u32Bytes, length_leBytes, length]
    omega
  refine goes rest ?_ (by omega)
  rw [size] at splitTotal
  rw [split, splitVersion, splitHeader, splitTotal]
  simp only [enveloped, header, List.append_assoc]

end Semaprax.CallableWire
