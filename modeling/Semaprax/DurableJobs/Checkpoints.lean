/-
**The checkpoint of a job** (`job_runtime.rs`: `RuntimeCheckpoint`).

A document that holds what was submitted, the evidence and, beside each entry, the ticks and the
worker that it needs to be replayed.

* `RuntimeCheckpoint.write`, `RuntimeCheckpoint.encode` — a checkpoint as bytes, within its bounds.
* `RuntimeCheckpoint.decode` — a checkpoint from all of the bytes.
* `decode_encode` — a checkpoint that is encoded is decoded as it was.
-/

import Semaprax.DurableJobs.Evidence

namespace Semaprax.DurableJobs

open Library

inductive JobRuntimeError
  | checkpoint
  | invalidSubmission
  | payloadRefused
  | evidence
  | store (error : JobFixtureError)
  | staleLease
  | poisoned
deriving DecidableEq, Repr

def maxPayloadBytes : Nat := 4096
def maxKeyBytes : Nat := 256
def maxDescriptorBytes : Nat := 256
def maxSchemaDigestBytes : Nat := 128
def maxEvidenceEntries : Nat := 64
def maxCheckpointBytes : Nat := 16 * 1024

/-- `SPXJOB01`. -/
def checkpointMagic : List UInt8 := [83, 80, 88, 74, 79, 66, 48, 49]

/-- What is to be run, and how often it is tried. -/
structure JobSubmission where
  idempotencyKey : List UInt8
  payloadDescriptor : List UInt8
  payload : List UInt8
  schedule : Option Schedule
  maxAttempts : UInt8
  isIdempotentHandler : Bool
  baseBackoffTicks : UInt64
  maxBackoffTicks : UInt64
deriving DecidableEq, Repr

/-- What an entry needs to be replayed. -/
structure ReplayFact where
  tick : UInt64
  workerId : UInt32
  leaseTicks : UInt64
deriving DecidableEq, Repr

/-- An entry without ticks or worker. -/
def ReplayFact.none : ReplayFact := ⟨0, 0, 0⟩

structure RuntimeCheckpoint where
  schemaDigest : String
  boundRevision : UInt8
  submission : JobSubmission
  entries : List JobEvidenceEntry
  replayFacts : List ReplayFact
  claimedFinalState : Nat
deriving DecidableEq, Repr

def textBytes (text : String) : List UInt8 := text.toUTF8.data.toList

/-- `String::from_utf8`. -/
def textOf (bytes : List UInt8) : Option String := String.fromUTF8? ⟨bytes.toArray⟩

theorem textOf_textBytes (text : String) : textOf (textBytes text) = some text := by
  unfold textOf textBytes String.fromUTF8?
  rw [Array.toArray_toList]
  exact dif_pos text.isValidUTF8

/-- A writer of bytes at the end of those that are written. -/
abbrev Writer : Type := Prog (List UInt8) JobRuntimeError Unit

namespace Writer

def push (more : List UInt8) : Writer := Prog.step fun bytes => ((), bytes ++ more)

def pushU16 (value : Nat) : Writer := do
  stopIf (¬value < 2 ^ 16) .invalidSubmission
  push (leBytes 2 value)

def pushU32 (value : Nat) : Writer := do
  stopIf (¬value < 2 ^ 32) .invalidSubmission
  push (leBytes 4 value)

def pushBytes (value : List UInt8) (maximum : Nat) : Writer := do
  stopIf (value = [] ∨ value.length > maximum) .invalidSubmission
  pushU16 value.length
  push value

end Writer

open Writer

def u64Bytes (word : UInt64) : List UInt8 := leBytes 8 word.toNat

def u32Bytes (word : UInt32) : List UInt8 := leBytes 4 word.toNat

def scheduleBytes : Option Schedule → List UInt8
  | none => [0]
  | some schedule =>
    1 :: (leBytes 8 schedule.nextRunTick ++ (leBytes 8 schedule.intervalTick ++
      (leBytes 8 schedule.maxOccurrences ++ leBytes 8 schedule.maxCatchUp)))

def factBytes (fact : ReplayFact) : List UInt8 :=
  u64Bytes fact.tick ++ (u32Bytes fact.workerId ++ u64Bytes fact.leaseTicks)

def writeEntries : List (JobEvidenceEntry × ReplayFact) → Writer
  | [] => pure ()
  | (entry, fact) :: others => do
      let encoded := entry.canonicalBytes
      stopIf (encoded.length > maxU8) .evidence
      push [UInt8.ofNat encoded.length]
      push encoded
      push (factBytes fact)
      writeEntries others

namespace RuntimeCheckpoint

def write (checkpoint : RuntimeCheckpoint) : Writer := do
  let digest := textBytes checkpoint.schemaDigest
  let submission := checkpoint.submission
  stopIf (digest.length > maxSchemaDigestBytes ∨ checkpoint.entries.length > maxEvidenceEntries ∨
      checkpoint.entries.length ≠ checkpoint.replayFacts.length) .invalidSubmission
  push checkpointMagic
  pushU16 digest.length
  push digest
  push [checkpoint.boundRevision]
  pushBytes submission.idempotencyKey maxKeyBytes
  pushBytes submission.payloadDescriptor maxDescriptorBytes
  pushU32 submission.payload.length
  push submission.payload
  push [submission.maxAttempts]
  push [JobEvidenceEntry.boolByte submission.isIdempotentHandler]
  push (scheduleBytes submission.schedule)
  push (u64Bytes submission.baseBackoffTicks)
  push (u64Bytes submission.maxBackoffTicks)
  pushU16 checkpoint.entries.length
  writeEntries (checkpoint.entries.zip checkpoint.replayFacts)
  stopIf (checkpoint.claimedFinalState > maxU8) .evidence
  push [UInt8.ofNat checkpoint.claimedFinalState]
  let bytes ← Prog.get
  stopIf (bytes.length > maxCheckpointBytes) .invalidSubmission

def encode (checkpoint : RuntimeCheckpoint) : Except JobRuntimeError (List UInt8) :=
  match checkpoint.write [] with
  | (.ok (), bytes) => .ok bytes
  | (.error error, _) => .error error

end RuntimeCheckpoint

/-- A reader of the bytes that remain. -/
abbrev Reader (A : Type) : Type := Prog (List UInt8) JobRuntimeError A

namespace Reader

def take (length : Nat) : Reader (List UInt8) := do
  let remaining ← Prog.get
  stopIf (remaining.length < length) .checkpoint
  Prog.set (remaining.drop length)
  pure (remaining.take length)

def u8 : Reader UInt8 := do
  let bytes ← take 1
  pure (bytes.getD 0 0)

def bool : Reader Bool := do
  let byte ← u8
  ofOption .checkpoint (JobEvidenceEntry.boolField [byte])

def u16 : Reader Nat := do
  let bytes ← take 2
  pure (leValue bytes)

def u32 : Reader UInt32 := do
  let bytes ← take 4
  pure (UInt32.ofNat (leValue bytes))

def u64 : Reader UInt64 := do
  let bytes ← take 8
  pure (UInt64.ofNat (leValue bytes))

/-- Bytes behind their length, which has two or four bytes. -/
def sizedBytes (width maximum : Nat) : Reader (List UInt8) := do
  let bytes ← take width
  let length := leValue bytes
  stopIf (length = 0 ∨ length > maximum) .checkpoint
  take length

def schedule : Reader (Option Schedule) := do
  let tag ← u8
  match tag.toNat with
  | 0 => pure none
  | 1 => do
      let nextRunTick ← u64
      let intervalTick ← u64
      let maxOccurrences ← u64
      let maxCatchUp ← u64
      pure (some ⟨nextRunTick.toNat, intervalTick.toNat, maxOccurrences.toNat, maxCatchUp.toNat⟩)
  | _ => Prog.stop .checkpoint

def entry : Reader (JobEvidenceEntry × ReplayFact) := do
  let length ← u8
  let encoded ← take length.toNat
  let entry ← ofOption .checkpoint (JobEvidenceEntry.fromCanonicalBytes encoded)
  let tick ← u64
  let workerId ← u32
  let leaseTicks ← u64
  pure (entry, ⟨tick, workerId, leaseTicks⟩)

end Reader

open Reader

namespace RuntimeCheckpoint

def read : Reader RuntimeCheckpoint := do
  let magic ← Reader.take 8
  stopIf (magic ≠ checkpointMagic) .checkpoint
  let digestLength ← u16
  let digestBytes ← Reader.take digestLength
  let schemaDigest ← ofOption .checkpoint (textOf digestBytes)
  stopIf (digestBytes = [] ∨ digestBytes.length > maxSchemaDigestBytes) .checkpoint
  let boundRevision ← u8
  stopIf (boundRevision = 0) .checkpoint
  let idempotencyKey ← sizedBytes 2 maxKeyBytes
  let payloadDescriptor ← sizedBytes 2 maxDescriptorBytes
  let payload ← sizedBytes 4 maxPayloadBytes
  let maxAttempts ← u8
  let isIdempotentHandler ← Reader.bool
  let schedule ← Reader.schedule
  let baseBackoffTicks ← u64
  let maxBackoffTicks ← u64
  let entryCount ← u16
  stopIf (entryCount = 0 ∨ entryCount > maxEvidenceEntries) .checkpoint
  let entries ← readMany Reader.entry entryCount
  let claimedFinalState ← u8
  let remaining ← Prog.get
  stopIf (remaining ≠ [] ∨ claimedFinalState.toNat > 9) .checkpoint
  pure
    { schemaDigest, boundRevision
      submission :=
        { idempotencyKey, payloadDescriptor, payload, schedule, maxAttempts, isIdempotentHandler
          baseBackoffTicks, maxBackoffTicks }
      entries := entries.map Prod.fst
      replayFacts := entries.map Prod.snd
      claimedFinalState := claimedFinalState.toNat }

def decode (bytes : List UInt8) : Except JobRuntimeError RuntimeCheckpoint :=
  if bytes.length > maxCheckpointBytes then .error .checkpoint else (read bytes).1

end RuntimeCheckpoint

section Fields

variable {value : Nat}

theorem parses_taken {bytes : List UInt8} {length : Nat} (same : bytes.length = length) :
    Parses (Reader.take length) bytes bytes := parses_takeBytes same

theorem parses_u8 (byte : UInt8) : Parses u8 [byte] byte := by
  have one : Parses (Reader.take 1) [byte] [byte] := parses_taken rfl
  exact one.map rfl

theorem parses_bool (flag : Bool) : Parses Reader.bool [JobEvidenceEntry.boolByte flag] flag := by
  have read : Parses (ofOption JobRuntimeError.checkpoint
      (JobEvidenceEntry.boolField [JobEvidenceEntry.boolByte flag]) : Reader Bool) [] flag := by
    rw [JobEvidenceEntry.boolField_boolByte]
    exact parses_pure
  have whole : Parses Reader.bool ([JobEvidenceEntry.boolByte flag] ++ []) flag :=
    (parses_u8 (JobEvidenceEntry.boolByte flag)).bind read
  rwa [List.append_nil] at whole

theorem parses_u16 (small : value < 2 ^ 16) : Parses u16 (leBytes 2 value) value := by
  refine (parses_taken (length_leBytes 2 value)).map ?_
  rw [leValue_leBytes]
  exact Nat.mod_eq_of_lt small

theorem parses_u32 (word : UInt32) : Parses Reader.u32 (u32Bytes word) word := by
  refine (parses_taken (length_leBytes 4 word.toNat)).map ?_
  have small : word.toNat < 256 ^ 4 := word.toNat_lt
  rw [leValue_leBytes, Nat.mod_eq_of_lt small, UInt32.ofNat_toNat]

theorem parses_u64 (word : UInt64) : Parses u64 (u64Bytes word) word := by
  refine (parses_taken (length_leBytes 8 word.toNat)).map ?_
  have small : word.toNat < 256 ^ 8 := word.toNat_lt
  rw [leValue_leBytes, Nat.mod_eq_of_lt small, UInt64.ofNat_toNat]

theorem parses_number (small : value ≤ maxU64) :
    Parses u64 (leBytes 8 value) (UInt64.ofNat value) := by
  have fits : value < 2 ^ 64 := by
    unfold maxU64 at small
    omega
  have parses := parses_u64 (UInt64.ofNat value)
  rwa [u64Bytes, UInt64.toNat_ofNat_of_lt' fits] at parses

theorem parses_sizedBytes {width maximum : Nat} {bytes : List UInt8} (some_byte : bytes ≠ [])
    (within : bytes.length ≤ maximum) (small : bytes.length < 256 ^ width) :
    Parses (sizedBytes width maximum) (leBytes width bytes.length ++ bytes) bytes := by
  refine (parses_taken (length_leBytes width bytes.length)).bind ?_
  rw [leValue_leBytes, Nat.mod_eq_of_lt small]
  refine Parses.stopIf_bind ?_ (parses_taken rfl)
  rintro (empty | long)
  · exact some_byte (List.length_eq_zero_iff.mp empty)
  · omega

/-- Schedules of 64-bit numbers. -/
structure Schedule.Typed (schedule : Schedule) : Prop where
  nextRunTick : schedule.nextRunTick ≤ maxU64
  intervalTick : schedule.intervalTick ≤ maxU64
  maxOccurrences : schedule.maxOccurrences ≤ maxU64
  maxCatchUp : schedule.maxCatchUp ≤ maxU64

theorem parses_schedule {schedule : Option Schedule}
    (typed : ∀ one, schedule = some one → one.Typed) :
    Parses Reader.schedule (scheduleBytes schedule) schedule := by
  cases schedule with
  | none =>
    have whole : Parses Reader.schedule ([0] ++ []) none := (parses_u8 0).bind parses_pure
    exact whole
  | some one =>
    obtain ⟨next, interval, occurrences, catchUp⟩ := typed one rfl
    have number {value : Nat} (small : value ≤ maxU64) : (UInt64.ofNat value).toNat = value := by
      refine UInt64.toNat_ofNat_of_lt' ?_
      show value < 2 ^ 64
      unfold maxU64 at small
      omega
    have tagged : Parses u8 [1] 1 := parses_u8 1
    refine tagged.bind ?_
    refine (parses_number next).bind ((parses_number interval).bind
      ((parses_number occurrences).bind ((parses_number catchUp).map ?_)))
    rw [number next, number interval, number occurrences, number catchUp]

def entryBytes (entry : JobEvidenceEntry × ReplayFact) : List UInt8 :=
  [UInt8.ofNat entry.1.canonicalBytes.length] ++ (entry.1.canonicalBytes ++ factBytes entry.2)

theorem parses_entry (entry : JobEvidenceEntry × ReplayFact) :
    Parses Reader.entry (entryBytes entry) entry := by
  obtain ⟨entry, tick, workerId, leaseTicks⟩ := entry
  have short := JobEvidenceEntry.length_canonicalBytes entry
  refine (parses_u8 _).bind ((parses_taken ?_).bind ?_)
  · have fits : entry.canonicalBytes.length < 2 ^ 8 := by omega
    rw [UInt8.toNat_ofNat_of_lt' fits]
  · rw [JobEvidenceEntry.fromCanonicalBytes_canonicalBytes]
    exact (parses_u64 tick).bind ((parses_u32 workerId).bind ((parses_u64 leaseTicks).map rfl))

end Fields

namespace RuntimeCheckpoint

/-- What every document that is decoded says. -/
structure WellFormed (checkpoint : RuntimeCheckpoint) : Prop where
  digest : checkpoint.schemaDigest ≠ ""
  revision : checkpoint.boundRevision ≠ 0
  payload : checkpoint.submission.payload ≠ []
  shortPayload : checkpoint.submission.payload.length ≤ maxPayloadBytes
  schedule : ∀ one, checkpoint.submission.schedule = some one → one.Typed
  entries : checkpoint.entries ≠ []
  state : checkpoint.claimedFinalState ≤ 9

def body (checkpoint : RuntimeCheckpoint) : List UInt8 :=
  let digest := textBytes checkpoint.schemaDigest
  let submission := checkpoint.submission
  checkpointMagic ++ (leBytes 2 digest.length ++ (digest ++ ([checkpoint.boundRevision] ++
    ((leBytes 2 submission.idempotencyKey.length ++ submission.idempotencyKey) ++
    ((leBytes 2 submission.payloadDescriptor.length ++ submission.payloadDescriptor) ++
    ((leBytes 4 submission.payload.length ++ submission.payload) ++ ([submission.maxAttempts] ++
    ([JobEvidenceEntry.boolByte submission.isIdempotentHandler] ++
    (scheduleBytes submission.schedule ++ (u64Bytes submission.baseBackoffTicks ++
    (u64Bytes submission.maxBackoffTicks ++ (leBytes 2 checkpoint.entries.length ++
    ((checkpoint.entries.zip checkpoint.replayFacts).flatMap entryBytes ++
    [UInt8.ofNat checkpoint.claimedFinalState])))))))))))))

structure Fits (checkpoint : RuntimeCheckpoint) : Prop where
  digest : (textBytes checkpoint.schemaDigest).length ≤ maxSchemaDigestBytes
  entries : checkpoint.entries.length ≤ maxEvidenceEntries
  facts : checkpoint.entries.length = checkpoint.replayFacts.length
  key : checkpoint.submission.idempotencyKey ≠ []
  shortKey : checkpoint.submission.idempotencyKey.length ≤ maxKeyBytes
  descriptor : checkpoint.submission.payloadDescriptor ≠ []
  shortDescriptor : checkpoint.submission.payloadDescriptor.length ≤ maxDescriptorBytes
  payload : checkpoint.submission.payload.length < 2 ^ 32
  state : checkpoint.claimedFinalState ≤ maxU8
  short : checkpoint.body.length ≤ maxCheckpointBytes

end RuntimeCheckpoint

section Written

variable {bytes : List UInt8} {ends : Unit → List UInt8 → Prop}
  {stops : JobRuntimeError → List UInt8 → Prop}

@[simp]
theorem wp_push (more : List UInt8) : (push more).wp ends stops bytes ↔ ends () (bytes ++ more) :=
  Iff.rfl

theorem wp_allowed (condition : Prop) [Decidable condition] (reason : JobRuntimeError) :
    (stopIf condition reason : Writer).wp ends (fun _ _ => False) bytes ↔
      ¬condition ∧ ends () bytes := by
  rw [wp_stopIf]
  exact ⟨fun ⟨fails, goes⟩ => ⟨fails, goes fails⟩, fun ⟨fails, goes⟩ => ⟨fails, fun _ => goes⟩⟩

theorem wp_pushU16 (value : Nat) : (pushU16 value).wp ends (fun _ _ => False) bytes ↔
    value < 2 ^ 16 ∧ ends () (bytes ++ leBytes 2 value) := by
  unfold pushU16
  rw [wp_bind, wp_allowed, not_not, wp_push]

theorem wp_pushU32 (value : Nat) : (pushU32 value).wp ends (fun _ _ => False) bytes ↔
    value < 2 ^ 32 ∧ ends () (bytes ++ leBytes 4 value) := by
  unfold pushU32
  rw [wp_bind, wp_allowed, not_not, wp_push]

theorem wp_pushBytes {value : List UInt8} {maximum : Nat} (small : maximum < 2 ^ 16) :
    (pushBytes value maximum).wp ends (fun _ _ => False) bytes ↔
      (value ≠ [] ∧ value.length ≤ maximum) ∧
        ends () (bytes ++ leBytes 2 value.length ++ value) := by
  unfold pushBytes
  rw [wp_bind, wp_allowed, wp_bind, wp_pushU16, wp_push, not_or, not_lt]
  exact ⟨fun ⟨fits, _, goes⟩ => ⟨fits, goes⟩, fun ⟨fits, goes⟩ => ⟨fits, by omega, goes⟩⟩

theorem wp_writeEntries (entries : List (JobEvidenceEntry × ReplayFact)) :
    (writeEntries entries).wp ends stops bytes ↔ ends () (bytes ++ entries.flatMap entryBytes) := by
  induction entries generalizing bytes with
  | nil => simp [writeEntries]
  | cons entry entries ih =>
    have short : ¬entry.1.canonicalBytes.length > maxU8 := by
      have bound := JobEvidenceEntry.length_canonicalBytes entry.1
      unfold maxU8
      omega
    simp only [writeEntries, wp_bind, wp_stopIf, wp_push, ih, short, IsEmpty.forall_iff,
      true_and, not_false_eq_true, forall_const, List.flatMap_cons, entryBytes,
      List.append_assoc]

end Written

namespace RuntimeCheckpoint

variable {checkpoint : RuntimeCheckpoint}

theorem encode_eq_ok {bytes : List UInt8} :
    checkpoint.encode = .ok bytes ↔ checkpoint.Fits ∧ bytes = checkpoint.body := by
  have ran : checkpoint.encode = .ok bytes ↔
      checkpoint.write.wp (fun _ after => after = bytes) (fun _ _ => False) [] := by
    unfold encode Prog.wp
    cases checkpoint.write [] with
    | mk outcome after => cases outcome <;> simp
  have keys : maxKeyBytes < 2 ^ 16 := by decide
  have descriptors : maxDescriptorBytes < 2 ^ 16 := by decide
  rw [ran]
  unfold write
  simp only [wp_bind, wp_allowed, wp_push, wp_pushU16, wp_pushU32, wp_pushBytes keys,
    wp_pushBytes descriptors, wp_writeEntries, wp_get, not_or, not_lt, not_not,
    List.nil_append, List.append_assoc]
  have whole := body.eq_1 checkpoint
  simp only [List.append_assoc] at whole
  rw [← whole]
  constructor
  · rintro ⟨⟨digest, entries, facts⟩, _, ⟨key, shortKey⟩, ⟨descriptor, shortDescriptor⟩, payload, _,
      state, short, same⟩
    exact ⟨⟨digest, entries, facts, key, shortKey, descriptor, shortDescriptor, payload, state,
      short⟩, same.symm⟩
  · rintro ⟨fits, same⟩
    have digest : (textBytes checkpoint.schemaDigest).length < 2 ^ 16 :=
      fits.digest.trans_lt (by decide)
    have entries : checkpoint.entries.length < 2 ^ 16 := fits.entries.trans_lt (by decide)
    exact ⟨⟨fits.digest, fits.entries, fits.facts⟩, digest, ⟨fits.key, fits.shortKey⟩,
      ⟨fits.descriptor, fits.shortDescriptor⟩, fits.payload, entries, fits.state, fits.short,
      same.symm⟩

theorem textBytes_ne_nil {text : String} (some_text : text ≠ "") : textBytes text ≠ [] := by
  intro empty
  have read := textOf_textBytes text
  rw [empty] at read
  have none_left : textOf [] = some "" := by decide
  exact some_text (Option.some.inj (read.symm.trans none_left))

theorem parses_body (fits : checkpoint.Fits) (wellFormed : checkpoint.WellFormed) :
    read checkpoint.body = (.ok checkpoint, []) := by
  have digest : (textBytes checkpoint.schemaDigest).length < 2 ^ 16 :=
    fits.digest.trans_lt (by decide)
  have count : (checkpoint.entries.zip checkpoint.replayFacts).length =
      checkpoint.entries.length := by
    rw [List.length_zip, ← fits.facts, min_self]
  have entries : checkpoint.entries.length < 2 ^ 16 := fits.entries.trans_lt (by decide)
  have state : checkpoint.claimedFinalState < 2 ^ 8 := wellFormed.state.trans_lt (by decide)
  have key : checkpoint.submission.idempotencyKey.length < 256 ^ 2 :=
    fits.shortKey.trans_lt (by decide)
  have descriptor : checkpoint.submission.payloadDescriptor.length < 256 ^ 2 :=
    fits.shortDescriptor.trans_lt (by decide)
  have text : Parses (ofOption JobRuntimeError.checkpoint
      (textOf (textBytes checkpoint.schemaDigest)) : Reader String) [] checkpoint.schemaDigest := by
    rw [textOf_textBytes]
    exact parses_pure
  unfold read body
  refine (parses_taken (by decide)).finish (finish_stopIf (fun wrong => wrong rfl) ?_)
  refine (parses_u16 digest).finish ((parses_taken rfl).finish ?_)
  refine text.finish (finish_stopIf ?_ ?_)
  · rintro (empty | long)
    · exact textBytes_ne_nil wellFormed.digest empty
    · exact absurd fits.digest (not_le.mpr long)
  refine (parses_u8 _).finish (finish_stopIf wellFormed.revision ?_)
  refine (parses_sizedBytes fits.key fits.shortKey key).finish ?_
  refine (parses_sizedBytes fits.descriptor fits.shortDescriptor descriptor).finish ?_
  refine (parses_sizedBytes wellFormed.payload wellFormed.shortPayload fits.payload).finish ?_
  refine (parses_u8 _).finish ((parses_bool _).finish ?_)
  refine (parses_schedule wellFormed.schedule).finish ?_
  refine (parses_u64 _).finish ((parses_u64 _).finish ?_)
  refine (parses_u16 entries).finish (finish_stopIf ?_ ?_)
  · rintro (empty | many)
    · exact wellFormed.entries (List.length_eq_zero_iff.mp empty)
    · exact absurd fits.entries (not_le.mpr many)
  rw [← count]
  refine (Parses.many fun entry _ => parses_entry entry).finish ?_
  have last : Parses u8 [UInt8.ofNat checkpoint.claimedFinalState]
      (UInt8.ofNat checkpoint.claimedFinalState) := parses_u8 _
  have number : (UInt8.ofNat checkpoint.claimedFinalState).toNat = checkpoint.claimedFinalState :=
    UInt8.toNat_ofNat_of_lt' state
  rw [← List.append_nil [UInt8.ofNat checkpoint.claimedFinalState]]
  refine last.finish ?_
  have ends : ¬(([] : List UInt8) ≠ [] ∨ (UInt8.ofNat checkpoint.claimedFinalState).toNat > 9) := by
    rw [number]
    rintro (wrong | large)
    · exact wrong rfl
    · exact absurd wellFormed.state (not_le.mpr large)
  refine (finish_stopIf ends rfl : _).trans ?_
  rw [List.map_fst_zip fits.facts.le, List.map_snd_zip fits.facts.ge, number]
  rfl

theorem length_entryBytes (entry : JobEvidenceEntry × ReplayFact) :
    (entryBytes entry).length ≤ 39 := by
  have short := JobEvidenceEntry.length_canonicalBytes entry.1
  simp only [entryBytes, factBytes, u64Bytes, u32Bytes, List.length_append, List.length_singleton,
    length_leBytes]
  omega

theorem length_scheduleBytes (schedule : Option Schedule) :
    (scheduleBytes schedule).length ≤ 33 := by
  cases schedule with
  | none => decide
  | some one =>
    simp only [scheduleBytes, List.length_cons, List.length_append, length_leBytes]
    omega

/-- A document of bounded fields and as many entries as are allowed is within its bounds. -/
theorem body_short (digest : (textBytes checkpoint.schemaDigest).length ≤ maxSchemaDigestBytes)
    (entries : checkpoint.entries.length ≤ maxEvidenceEntries)
    (key : checkpoint.submission.idempotencyKey.length ≤ maxKeyBytes)
    (descriptor : checkpoint.submission.payloadDescriptor.length ≤ maxDescriptorBytes)
    (payload : checkpoint.submission.payload.length ≤ maxPayloadBytes) :
    checkpoint.body.length ≤ maxCheckpointBytes := by
  have listed : ((checkpoint.entries.zip checkpoint.replayFacts).flatMap entryBytes).length ≤
      39 * 64 := by
    have each : ((checkpoint.entries.zip checkpoint.replayFacts).flatMap entryBytes).length ≤
        (checkpoint.entries.zip checkpoint.replayFacts).length * 39 := by
      rw [List.length_flatMap]
      refine (List.sum_le_card_nsmul _ 39 fun length member => ?_).trans (by simp)
      obtain ⟨entry, -, rfl⟩ := List.mem_map.mp member
      exact length_entryBytes entry
    have few : (checkpoint.entries.zip checkpoint.replayFacts).length ≤ 64 :=
      (List.length_zip.trans_le (min_le_left _ _)).trans entries
    omega
  have scheduled := length_scheduleBytes checkpoint.submission.schedule
  unfold maxSchemaDigestBytes at digest
  unfold maxKeyBytes at key
  unfold maxDescriptorBytes at descriptor
  unfold maxPayloadBytes at payload
  simp only [body, u64Bytes, List.length_append, length_leBytes, checkpointMagic, List.length_cons,
    List.length_nil]
  unfold maxCheckpointBytes
  omega

theorem length_body (fits : checkpoint.Fits)
    (payload : checkpoint.submission.payload.length ≤ maxPayloadBytes) (others : RuntimeCheckpoint)
    (digest : others.schemaDigest = checkpoint.schemaDigest)
    (submission : others.submission = checkpoint.submission)
    (entries : others.entries.length ≤ maxEvidenceEntries) :
    others.body.length ≤ maxCheckpointBytes := by
  refine body_short ?_ entries ?_ ?_ ?_
  · rw [digest]
    exact fits.digest
  · rw [submission]
    exact fits.shortKey
  · rw [submission]
    exact fits.shortDescriptor
  · rw [submission]
    exact payload

/-- The document of a checkpoint, measured only where its fields do not bound it. -/
def measured (checkpoint : RuntimeCheckpoint) : Except JobRuntimeError (List UInt8) :=
  if (textBytes checkpoint.schemaDigest).length ≤ maxSchemaDigestBytes ∧
      checkpoint.entries.length ≤ maxEvidenceEntries ∧
      checkpoint.entries.length = checkpoint.replayFacts.length ∧
      checkpoint.submission.idempotencyKey ≠ [] ∧
      checkpoint.submission.idempotencyKey.length ≤ maxKeyBytes ∧
      checkpoint.submission.payloadDescriptor ≠ [] ∧
      checkpoint.submission.payloadDescriptor.length ≤ maxDescriptorBytes ∧
      checkpoint.submission.payload.length ≤ maxPayloadBytes ∧
      checkpoint.claimedFinalState ≤ maxU8 then
    .ok checkpoint.body
  else checkpoint.encode

theorem encode_eq_measured : encode = measured := by
  funext checkpoint
  unfold measured
  split_ifs with bounded
  · obtain ⟨digest, entries, facts, key, shortKey, descriptor, shortDescriptor, payload, state⟩ :=
      bounded
    exact encode_eq_ok.mpr ⟨⟨digest, entries, facts, key, shortKey, descriptor, shortDescriptor,
      payload.trans_lt (by decide), state,
      body_short digest entries shortKey shortDescriptor payload⟩, rfl⟩
  · rfl

theorem decode_encode {bytes : List UInt8} (encoded : checkpoint.encode = .ok bytes)
    (wellFormed : checkpoint.WellFormed) : decode bytes = .ok checkpoint := by
  obtain ⟨fits, rfl⟩ := encode_eq_ok.mp encoded
  unfold decode
  rw [if_neg (not_lt.mpr fits.short), parses_body fits wellFormed]

end RuntimeCheckpoint

end Semaprax.DurableJobs
