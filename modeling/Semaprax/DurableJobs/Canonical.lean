/-
**Which bytes are canonical** (`job_evidence.rs`, `job_runtime.rs`: `RuntimeCheckpoint`).

What is read is written again as it was, except for one field: an entry of a schedule that is at its
end carries the eight bytes of a tick that is not there, and they are not looked at.

* `Plain` — the bytes of an entry have zeros where there is no tick.
* `canonicalBytes_iff` — the bytes of an entry are those that are written for it.
* `decode_split` — what a document that is decoded consists of.
* `encode_decoded_iff` — a document that is decoded is the one that is written for the checkpoint.
* `Arises` — the runtimes that there can be; `Arises.decoded`.
-/

import Semaprax.DurableJobs.Driving

namespace Semaprax.DurableJobs

open Library

/-- Where an entry of an advanced schedule has no next tick, the bytes of the tick are zeros. -/
def Plain (bytes : List UInt8) : Prop :=
  bytes.take 2 = [9, 0] → (bytes.drop 2).take 8 = List.replicate 8 0

instance (bytes : List UInt8) : Decidable (Plain bytes) := inferInstanceAs (Decidable (_ → _))

namespace JobEvidenceEntry

theorem wordBytes_wordField {fields : List UInt8} (eight : fields.length = 8) :
    wordBytes (wordField fields) = fields := by
  have small := leValue_lt fields
  rw [eight] at small
  rw [wordBytes, wordField, UInt64.toNat_ofNat_of_lt' small, ← eight, leBytes_leValue]

theorem boolField_eq_some {fields : List UInt8} {flag : Bool}
    (read : boolField fields = some flag) : fields = [boolByte flag] := by
  unfold boolField at read
  split at read
  · obtain rfl := Option.some.inj read
    rfl
  · obtain rfl := Option.some.inj read
    rfl
  · cases read

theorem split_word {fields : List UInt8} (more : Nat) (length : fields.length = 8 + more) :
    ∃ word rest, fields = wordBytes word ++ rest ∧ rest.length = more := by
  have eight : (fields.take 8).length = 8 := by
    rw [List.length_take]
    omega
  refine ⟨wordField (fields.take 8), fields.drop 8, ?_, ?_⟩
  · rw [wordBytes_wordField eight, List.take_append_drop]
  · rw [List.length_drop]
    omega

theorem plain_canonicalBytes (entry : JobEvidenceEntry) : Plain entry.canonicalBytes := by
  intro starts
  cases entry with
  | recurringAdvanced nextRunTick occurrencesRun =>
    cases nextRunTick with
    | none =>
      show ((wordBytes 0 ++ wordBytes occurrencesRun)).take 8 = _
      rw [take_word]
      rfl
    | some tick => exact absurd starts (by simp [canonicalBytes, fieldBytes, discriminant, boolByte])
  | _ => exact absurd starts (by simp [canonicalBytes, fieldBytes, discriminant])

section Bytes

variable {fields : List UInt8} {entry : JobEvidenceEntry}

theorem written_of_plain {tag : UInt8} (plain : Plain (tag :: fields))
    (read : fromCanonicalBytes (tag :: fields) = some entry) :
    ∃ written : JobEvidenceEntry, tag :: fields = written.canonicalBytes := by
  dsimp only [fromCanonicalBytes] at read
  have kind : ∀ number : UInt8, tag.toNat = number.toNat → tag = number :=
    fun _ same => UInt8.toNat_inj.mp same
  split at read
  case h_1 zero =>
    obtain rfl := kind 0 zero
    obtain ⟨flag, given, -⟩ := Option.map_eq_some_iff.mp read
    exact ⟨.enqueued flag, by rw [boolField_eq_some given]; rfl⟩
  case h_2 one =>
    obtain rfl := kind 1 one
    obtain ⟨flag, given, -⟩ := Option.map_eq_some_iff.mp read
    exact ⟨.claimed flag, by rw [boolField_eq_some given]; rfl⟩
  case h_3 two =>
    obtain rfl := kind 2 two
    split_ifs at read with empty
    exact ⟨.begunExecution, by rw [List.length_eq_zero_iff.mp empty]; rfl⟩
  case h_4 three =>
    obtain rfl := kind 3 three
    split_ifs at read with length
    obtain ⟨word, rest, rfl, count⟩ := split_word 2 length
    obtain ⟨attempt, most, rfl⟩ := List.length_eq_two.mp count
    exact ⟨.completed word attempt most, rfl⟩
  case h_5 four =>
    obtain rfl := kind 4 four
    split_ifs at read with empty
    exact ⟨.connectionUncertain, by rw [List.length_eq_zero_iff.mp empty]; rfl⟩
  case h_6 five =>
    obtain rfl := kind 5 five
    split_ifs at read with length
    obtain ⟨word, rest, rfl, count⟩ := split_word 3 length
    obtain ⟨handler, attempt, most, rfl⟩ := List.length_eq_three.mp count
    obtain ⟨flag, given, -⟩ := Option.map_eq_some_iff.mp read
    rw [drop_word] at given
    obtain rfl := (List.cons.inj (boolField_eq_some given)).1
    exact ⟨.reconciledUncertain word flag attempt most, rfl⟩
  case h_7 six =>
    obtain rfl := kind 6 six
    split_ifs at read with empty
    exact ⟨.cancelled, by rw [List.length_eq_zero_iff.mp empty]; rfl⟩
  case h_8 seven =>
    obtain rfl := kind 7 seven
    split_ifs at read with length
    obtain ⟨word, rest, rfl, count⟩ := split_word 3 length
    obtain ⟨attempt, most, confirmed, rfl⟩ := List.length_eq_three.mp count
    obtain ⟨flag, given, -⟩ := Option.map_eq_some_iff.mp read
    rw [show 10 = 8 + 2 from rfl, ← List.drop_drop, drop_word] at given
    obtain rfl := (List.cons.inj (boolField_eq_some given)).1
    exact ⟨.durableCompleted word attempt most flag, rfl⟩
  case h_9 eight =>
    obtain rfl := kind 8 eight
    split_ifs at read with empty
    exact ⟨.leaseExpired, by rw [List.length_eq_zero_iff.mp empty]; rfl⟩
  case h_10 nine =>
    obtain rfl := kind 9 nine
    split_ifs at read with length
    obtain ⟨more, rest, rfl⟩ := List.exists_cons_of_length_pos (by omega : 0 < fields.length)
    obtain ⟨tick, rest, rfl, count⟩ := split_word 8 (Nat.succ.inj length)
    obtain ⟨runs, rest, rfl, ends⟩ := split_word 0 count
    obtain rfl := List.length_eq_zero_iff.mp ends
    rw [List.append_nil] at plain read ⊢
    have flag : ∀ number : UInt8, more.toNat = number.toNat → more = number :=
      fun _ same => UInt8.toNat_inj.mp same
    split at read
    case h_1 zero =>
      obtain rfl := flag 0 zero
      have blank : wordBytes tick = wordBytes 0 := by
        have zeros := plain rfl
        rw [List.drop_succ_cons, List.drop_succ_cons, List.drop_zero, take_word] at zeros
        exact zeros
      exact ⟨.recurringAdvanced none runs, by rw [blank]; rfl⟩
    case h_2 one =>
      obtain rfl := flag 1 one
      exact ⟨.recurringAdvanced (some tick) runs, rfl⟩
    case h_3 => cases read
  case h_11 => cases read

theorem canonicalBytes_iff {bytes : List UInt8} (read : fromCanonicalBytes bytes = some entry) :
    entry.canonicalBytes = bytes ↔ Plain bytes := by
  constructor
  · rintro rfl
    exact plain_canonicalBytes entry
  · intro plain
    cases bytes with
    | nil => cases read
    | cons tag fields =>
      obtain ⟨written, same⟩ := written_of_plain plain read
      rw [same, fromCanonicalBytes_canonicalBytes] at read
      rw [same, Option.some.inj read]

end Bytes

end JobEvidenceEntry

section Reading

variable {A : Type} {bytes : List UInt8} {ends : A → List UInt8 → Prop}

theorem reads_u8 : Reads Reader.u8 fun byte => [byte] := by
  intro bytes
  unfold Reader.u8
  refine take_step fun value rest split length => ?_
  obtain ⟨byte, rfl⟩ := List.length_eq_one_iff.mp length
  exact split

theorem reads_bool : Reads Reader.bool fun flag => [JobEvidenceEntry.boolByte flag] := by
  intro bytes
  unfold Reader.bool
  refine reads_u8.step fun byte rest split => ?_
  rw [wp_ofOption]
  refine ⟨fun _ => trivial, fun flag read => ?_⟩
  rw [split, JobEvidenceEntry.boolField_eq_some read]

theorem u16_step {next : Nat → Reader A}
    (goes : ∀ value rest, bytes = leBytes 2 value ++ rest → value < 2 ^ 16 →
      (next value).wp ends (fun _ _ => True) rest) :
    (Reader.u16 >>= next).wp ends (fun _ _ => True) bytes := by
  unfold Reader.u16
  rw [wp_bind]
  refine take_step fun value rest split length => ?_
  have small := leValue_lt value
  have written := leBytes_leValue value
  rw [length] at small written
  rw [wp_pure]
  exact goes _ _ (by rw [written, split]) small

theorem reads_u32 : Reads Reader.u32 u32Bytes := by
  intro bytes
  unfold Reader.u32
  refine take_step fun value rest split length => ?_
  have small := leValue_lt value
  rw [length] at small
  rw [wp_pure, u32Bytes, UInt32.toNat_ofNat_of_lt' small, ← length, leBytes_leValue]
  exact split

theorem reads_u64 : Reads Reader.u64 u64Bytes := by
  intro bytes
  unfold Reader.u64
  refine take_step fun value rest split length => ?_
  have small := leValue_lt value
  rw [length] at small
  rw [wp_pure, u64Bytes, UInt64.toNat_ofNat_of_lt' small, ← length, leBytes_leValue]
  exact split

theorem sized_step {width maximum : Nat} {next : List UInt8 → Reader A}
    (goes : ∀ value rest, bytes = (leBytes width value.length ++ value) ++ rest → value ≠ [] →
      value.length ≤ maximum → (next value).wp ends (fun _ _ => True) rest) :
    (Reader.sizedBytes width maximum >>= next).wp ends (fun _ _ => True) bytes := by
  unfold Reader.sizedBytes
  rw [Prog.bind_assoc]
  refine take_step fun counted rest split length => ?_
  dsimp only
  rw [Prog.bind_assoc]
  refine stopIf_step fun bounded => take_step fun value rest' split' count => ?_
  obtain ⟨some_byte, short⟩ := not_or.mp bounded
  have written := leBytes_leValue counted
  rw [length, ← count] at written
  refine goes value rest' ?_ ?_ ?_
  · rw [written, split, split', List.append_assoc]
  · rintro rfl
    exact some_byte count.symm
  · rw [count]
    exact not_lt.mp short

theorem reads_schedule (bytes : List UInt8) : Reader.schedule.wp
    (fun schedule rest => bytes = scheduleBytes schedule ++ rest ∧
      ∀ one, schedule = some one → one.Typed) (fun _ _ => True) bytes := by
  have number : ∀ word : UInt64, word.toNat ≤ maxU64 := fun word => by
    have small := word.toNat_lt
    unfold maxU64
    omega
  unfold Reader.schedule
  refine reads_u8.step fun tag rest split => ?_
  split
  case h_1 zero =>
    obtain rfl : tag = 0 := UInt8.toNat_inj.mp zero
    exact ⟨split, fun _ none_there => by cases none_there⟩
  case h_2 one =>
    obtain rfl : tag = 1 := UInt8.toNat_inj.mp one
    refine reads_u64.step fun next rest₁ split₁ => reads_u64.step fun interval rest₂ split₂ => ?_
    refine reads_u64.step fun occurrences rest₃ split₃ => ?_
    refine reads_u64.step fun catchUp rest₄ split₄ => ?_
    refine ⟨?_, fun schedule same => ?_⟩
    · rw [split, split₁, split₂, split₃, split₄]
      simp [scheduleBytes, u64Bytes]
    · obtain rfl := Option.some.inj same
      exact ⟨number next, number interval, number occurrences, number catchUp⟩
  case h_3 => trivial

theorem textOf_eq_some {text : String} (read : textOf bytes = some text) :
    bytes = textBytes text := by
  unfold textOf String.fromUTF8? at read
  split_ifs at read with valid
  obtain rfl := Option.some.inj read
  rfl

end Reading

/-- An entry as it stands in a document: its bytes behind their length, and its fact. -/
def standing (entry : List UInt8 × ReplayFact) : List UInt8 :=
  [UInt8.ofNat entry.1.length] ++ (entry.1 ++ factBytes entry.2)

variable {schema : InteractionSchema} {currentRevision : UInt8} {runtime : JobRuntime}

theorem reads_entry (bytes : List UInt8) : Reader.entry.wp
    (fun value rest => ∃ raw, bytes = standing (raw, value.2) ++ rest ∧ raw.length < 256 ∧
      JobEvidenceEntry.fromCanonicalBytes raw = some value.1) (fun _ _ => True) bytes := by
  unfold Reader.entry
  refine reads_u8.step fun count rest₁ split₁ => take_step fun raw rest₂ split₂ length => ?_
  refine ofOption_step fun entry read => reads_u64.step fun tick rest₃ split₃ => ?_
  refine reads_u32.step fun workerId rest₄ split₄ => ?_
  refine reads_u64.step fun leaseTicks rest₅ split₅ => ?_
  have small : count.toNat < 256 := count.toNat_lt
  refine ⟨raw, ?_, by omega, read⟩
  rw [split₁, split₂, split₃, split₄, split₅, standing, length, UInt8.ofNat_toNat]
  simp [factBytes]

structure Stands (raws : List (List UInt8)) (entries : List JobEvidenceEntry) : Prop where
  read : raws.map JobEvidenceEntry.fromCanonicalBytes = entries.map some
  short : ∀ raw ∈ raws, raw.length < 256

theorem reads_entries (count : Nat) (bytes : List UInt8) : (readMany Reader.entry count).wp
    (fun values rest => ∃ raws, bytes = (raws.zip (values.map Prod.snd)).flatMap standing ++ rest ∧
      Stands raws (values.map Prod.fst) ∧ values.length = count) (fun _ _ => True) bytes := by
  induction count generalizing bytes with
  | zero => exact (wp_pure _).mpr ⟨[], rfl, ⟨rfl, fun _ member => by cases member⟩, rfl⟩
  | succ count ih =>
    unfold readMany
    rw [wp_bind]
    refine wp_mono (reads_entry bytes) (fun value rest one => ?_) fun _ _ _ => trivial
    obtain ⟨raw, split, short, read⟩ := one
    rw [wp_bind]
    refine wp_mono (ih rest) (fun values rest' more => ?_) fun _ _ _ => trivial
    obtain ⟨raws, splits, stands, length⟩ := more
    refine (wp_pure _).mpr ⟨raw :: raws, ?_, ⟨?_, ?_⟩, ?_⟩
    · rw [split, splits, List.map_cons, List.zip_cons_cons, List.flatMap_cons, List.append_assoc]
    · rw [List.map_cons, List.map_cons, List.map_cons, read, stands.read]
    · exact List.forall_mem_cons.mpr ⟨short, stands.short⟩
    · rw [List.length_cons, length]

section Standing

variable {raws : List (List UInt8)} {entries : List JobEvidenceEntry}

theorem Stands.length (stands : Stands raws entries) : raws.length = entries.length := by
  have same := congrArg List.length stands.read
  rwa [List.length_map, List.length_map] at same

theorem Stands.plain_iff (stands : Stands raws entries) :
    raws = entries.map JobEvidenceEntry.canonicalBytes ↔ ∀ raw ∈ raws, Plain raw := by
  obtain ⟨read, -⟩ := stands
  induction raws generalizing entries with
  | nil =>
    obtain rfl := List.map_eq_nil_iff.mp read.symm
    exact iff_of_true rfl (List.forall_mem_nil _)
  | cons raw raws ih =>
    obtain ⟨entry, others, rfl, here, later⟩ := List.map_eq_cons_iff.mp read.symm
    rw [List.map_cons, List.cons.injEq, List.forall_mem_cons, ih later.symm,
      ← JobEvidenceEntry.canonicalBytes_iff here.symm, eq_comm]

theorem standing_inj {first second : List UInt8 × ReplayFact} {rest rest' : List UInt8}
    (related : first.1.length < 256 ∧ second.1.length < 256 ∧ first.2 = second.2)
    (same : standing first ++ rest = standing second ++ rest') : first = second ∧ rest = rest' := by
  obtain ⟨raw, fact⟩ := first
  obtain ⟨raw', fact'⟩ := second
  obtain ⟨short, short', equal⟩ := related
  obtain rfl : fact = fact' := equal
  have split : UInt8.ofNat raw.length :: (raw ++ (factBytes fact ++ rest)) =
      UInt8.ofNat raw'.length :: (raw' ++ (factBytes fact ++ rest')) := by
    simpa only [standing, List.append_assoc, List.cons_append, List.nil_append] using same
  obtain ⟨counted, same⟩ := List.cons.inj split
  have length : raw.length = raw'.length := by
    have equal := congrArg UInt8.toNat counted
    rwa [UInt8.toNat_ofNat_of_lt' short, UInt8.toNat_ofNat_of_lt' short'] at equal
  obtain ⟨rfl, same⟩ := List.append_inj same length
  exact ⟨rfl, List.append_cancel_left (List.append_cancel_left same)⟩

theorem flatMap_standing_inj {first second : List (List UInt8)} {facts : List ReplayFact}
    (short : ∀ raw ∈ first, raw.length < 256) (short' : ∀ raw ∈ second, raw.length < 256)
    (length : first.length = facts.length) (length' : second.length = facts.length)
    {rest rest' : List UInt8}
    (same : (first.zip facts).flatMap standing ++ rest =
      (second.zip facts).flatMap standing ++ rest') : first = second ∧ rest = rest' := by
  have related : List.Forall₂ (fun one other : List UInt8 × ReplayFact =>
      one.1.length < 256 ∧ other.1.length < 256 ∧ one.2 = other.2)
      (first.zip facts) (second.zip facts) := by
    induction facts generalizing first second with
    | nil =>
      rw [List.zip_nil_right, List.zip_nil_right]
      exact .nil
    | cons fact facts ih =>
      obtain ⟨raw, first, rfl⟩ := List.exists_cons_of_length_eq_add_one length
      obtain ⟨raw', second, rfl⟩ := List.exists_cons_of_length_eq_add_one length'
      obtain ⟨here, short⟩ := List.forall_mem_cons.mp short
      obtain ⟨here', short'⟩ := List.forall_mem_cons.mp short'
      rw [List.zip_cons_cons, List.zip_cons_cons] at same ⊢
      rw [List.flatMap_cons, List.flatMap_cons, List.append_assoc, List.append_assoc] at same
      obtain ⟨-, same⟩ := @standing_inj (raw, fact) (raw', fact) _ _ ⟨here, here', rfl⟩ same
      exact .cons ⟨here, here', rfl⟩
        (ih short short' (Nat.succ.inj length) (Nat.succ.inj length') same)
  obtain ⟨zipped, rest⟩ := flatMap_inj (fun _ _ _ _ => standing_inj) related same
  refine ⟨?_, rest⟩
  have firsts := congrArg (List.map Prod.fst) zipped
  rwa [List.map_fst_zip length.le, List.map_fst_zip length'.le] at firsts

end Standing

namespace RuntimeCheckpoint

variable {checkpoint : RuntimeCheckpoint} {raws : List (List UInt8)} {bytes : List UInt8}

def around (checkpoint : RuntimeCheckpoint) (entries : List UInt8) : List UInt8 :=
  let digest := textBytes checkpoint.schemaDigest
  let submission := checkpoint.submission
  checkpointMagic ++ (leBytes 2 digest.length ++ (digest ++ ([checkpoint.boundRevision] ++
    ((leBytes 2 submission.idempotencyKey.length ++ submission.idempotencyKey) ++
    ((leBytes 2 submission.payloadDescriptor.length ++ submission.payloadDescriptor) ++
    ((leBytes 4 submission.payload.length ++ submission.payload) ++ ([submission.maxAttempts] ++
    ([JobEvidenceEntry.boolByte submission.isIdempotentHandler] ++
    (scheduleBytes submission.schedule ++ (u64Bytes submission.baseBackoffTicks ++
    (u64Bytes submission.maxBackoffTicks ++ (leBytes 2 checkpoint.entries.length ++
    (entries ++ [UInt8.ofNat checkpoint.claimedFinalState])))))))))))))

/-- What a document that is decoded consists of: the fields of the checkpoint and, at the place of its
entries, bytes that are read as them. -/
structure Consists (checkpoint : RuntimeCheckpoint) (raws : List (List UInt8))
    (bytes : List UInt8) : Prop where
  whole : bytes = checkpoint.around ((raws.zip checkpoint.replayFacts).flatMap standing)
  stands : Stands raws checkpoint.entries

/-- What is checked of a checkpoint when it is decoded. -/
structure Checked (checkpoint : RuntimeCheckpoint) : Prop extends checkpoint.WellFormed where
  digestLength : (textBytes checkpoint.schemaDigest).length ≤ maxSchemaDigestBytes
  few : checkpoint.entries.length ≤ maxEvidenceEntries
  facts : checkpoint.entries.length = checkpoint.replayFacts.length
  key : checkpoint.submission.idempotencyKey ≠ []
  shortKey : checkpoint.submission.idempotencyKey.length ≤ maxKeyBytes
  descriptor : checkpoint.submission.payloadDescriptor ≠ []
  shortDescriptor : checkpoint.submission.payloadDescriptor.length ≤ maxDescriptorBytes

theorem reads_checkpoint (bytes : List UInt8) : RuntimeCheckpoint.read.wp
    (fun checkpoint _ => checkpoint.Checked ∧ ∃ raws, checkpoint.Consists raws bytes)
    (fun _ _ => True) bytes := by
  unfold read
  refine take_step fun magic rest₁ split₁ _ => stopIf_step fun same => ?_
  obtain rfl := not_not.mp same
  refine u16_step fun digestLength rest₂ split₂ _ => ?_
  refine take_step fun digest rest₃ split₃ counted => ofOption_step fun schemaDigest text => ?_
  obtain rfl := textOf_eq_some text
  refine stopIf_step fun digestFits => reads_u8.step fun boundRevision rest₄ split₄ => ?_
  refine stopIf_step fun bound => sized_step fun key rest₅ split₅ someKey shortKey => ?_
  refine sized_step fun descriptor rest₆ split₆ someDescriptor shortDescriptor => ?_
  refine sized_step fun payload rest₇ split₇ somePayload shortPayload => ?_
  refine reads_u8.step fun maxAttempts rest₈ split₈ => ?_
  refine reads_bool.step fun isIdempotentHandler rest₉ split₉ => ?_
  rw [wp_bind]
  refine wp_mono (reads_schedule rest₉) (fun schedule rest₁₀ scheduled => ?_)
    fun _ _ _ => trivial
  obtain ⟨split₁₀, typed⟩ := scheduled
  refine reads_u64.step fun baseBackoffTicks rest₁₁ split₁₁ => ?_
  refine reads_u64.step fun maxBackoffTicks rest₁₂ split₁₂ => ?_
  refine u16_step fun entryCount rest₁₃ split₁₃ _ => stopIf_step fun counts => ?_
  rw [wp_bind]
  refine wp_mono (reads_entries entryCount rest₁₃) (fun values rest₁₄ many => ?_)
    fun _ _ _ => trivial
  obtain ⟨raws, split₁₄, stands, length⟩ := many
  refine reads_u8.step fun claimedFinalState rest₁₅ split₁₅ => ?_
  rw [wp_bind, wp_get]
  refine stopIf_step fun ended => (wp_pure _).mpr ?_
  obtain ⟨nothing, state⟩ := not_or.mp ended
  obtain rfl := not_not.mp nothing
  obtain ⟨someDigest, shortDigest⟩ := not_or.mp digestFits
  obtain ⟨someEntries, fewEntries⟩ := not_or.mp counts
  have pairs : (values.map Prod.fst).length = entryCount := (List.length_map _).trans length
  have closing : [claimedFinalState] = [UInt8.ofNat claimedFinalState.toNat] := by
    rw [UInt8.ofNat_toNat]
  refine ⟨{
    digest := fun empty => someDigest ((congrArg textBytes empty).trans rfl)
    revision := bound
    payload := somePayload
    shortPayload := shortPayload
    schedule := typed
    entries := fun empty => someEntries (by rw [← pairs]; exact congrArg List.length empty)
    state := not_lt.mp state
    digestLength := not_lt.mp shortDigest
    few := pairs.trans_le (not_lt.mp fewEntries)
    facts := by rw [List.length_map, List.length_map]
    key := someKey
    shortKey := shortKey
    descriptor := someDescriptor
    shortDescriptor := shortDescriptor }, raws, ?_, stands⟩
  rw [split₁, split₂, split₃, split₄, split₅, split₆, split₇, split₈, split₉, split₁₀, split₁₁,
    split₁₂, split₁₃, split₁₄, split₁₅, ← counted, List.append_nil, closing]
  simp only [around, pairs, List.append_assoc]

theorem decode_split (decoded : decode bytes = .ok checkpoint) :
    checkpoint.Checked ∧ bytes.length ≤ maxCheckpointBytes ∧
      ∃ raws, checkpoint.Consists raws bytes := by
  unfold decode at decoded
  split_ifs at decoded with long
  obtain ⟨_, checked, raws, consists⟩ := ended_of_wp (reads_checkpoint bytes) decoded
  exact ⟨checked, not_lt.mp long, raws, consists⟩

theorem body_eq_around : checkpoint.body = checkpoint.around
    ((checkpoint.entries.zip checkpoint.replayFacts).flatMap entryBytes) := rfl

theorem around_inj {entries others : List UInt8}
    (same : checkpoint.around entries = checkpoint.around others) : entries = others := by
  unfold around at same
  simp only [List.append_cancel_left_eq, List.append_cancel_right_eq] at same
  exact same

theorem flatMap_canonical (entries : List JobEvidenceEntry) (facts : List ReplayFact) :
    ((entries.map JobEvidenceEntry.canonicalBytes).zip facts).flatMap standing =
      (entries.zip facts).flatMap entryBytes := by
  rw [List.zip_map_left, List.flatMap_map]
  rfl

/-- A document that is decoded is the one that is written for the checkpoint, exactly when all of its
entries are plain. -/
theorem encode_decoded_iff (decoded : decode bytes = .ok checkpoint)
    (consists : checkpoint.Consists raws bytes) :
    checkpoint.encode = .ok bytes ↔ ∀ raw ∈ raws, Plain raw := by
  obtain ⟨checked, short, -⟩ := decode_split decoded
  obtain ⟨whole, stands⟩ := consists
  have length : raws.length = checkpoint.replayFacts.length := stands.length.trans checked.facts
  rw [encode_eq_ok, ← stands.plain_iff]
  constructor
  · rintro ⟨-, same⟩
    rw [whole, body_eq_around] at same
    have inside := around_inj same
    rw [← flatMap_canonical, ← List.append_nil (List.flatMap _ _),
      ← List.append_nil (List.flatMap standing (List.zip (List.map _ _) _))] at inside
    refine (flatMap_standing_inj stands.short (fun raw member => ?_) length ?_ inside).1
    · obtain ⟨entry, -, rfl⟩ := List.mem_map.mp member
      exact (JobEvidenceEntry.length_canonicalBytes entry).trans_lt (by decide)
    · rw [List.length_map, checked.facts]
  · intro canonical
    have same : bytes = checkpoint.body := by
      rw [whole, canonical, flatMap_canonical]
      rfl
    exact ⟨⟨checked.digestLength, checked.few, checked.facts, checked.key, checked.shortKey,
      checked.descriptor, checked.shortDescriptor, checked.shortPayload.trans_lt (by decide),
      checked.state.trans (by decide), same ▸ short⟩, same⟩

end RuntimeCheckpoint

/-- The runtimes that there can be, whatever becomes of their store, their ledger and their
generation: one is created or restored, and then it records entries. -/
inductive Arises : JobRuntime → Prop
  | created {schema : InteractionSchema} {currentRevision : UInt8} {submission : JobSubmission}
      {runtime : JobRuntime}
      (typed : ∀ schedule, submission.schedule = some schedule → schedule.Typed)
      (created : JobRuntime.create schema currentRevision submission = .ok runtime) :
      Arises runtime
  | restored {schema : InteractionSchema} {currentRevision : UInt8}
      {stored : StoredJobCheckpoint} {runtime : JobRuntime}
      (restored : JobRuntime.restore schema currentRevision stored = .ok runtime) : Arises runtime
  | changed {runtime after : JobRuntime} (arises : Arises runtime)
      (schema : after.schema = runtime.schema) (submission : after.submission = runtime.submission)
      (bound : after.boundRevision = runtime.boundRevision)
      (evidence : after.evidence = runtime.evidence)
      (facts : after.replayFacts = runtime.replayFacts) : Arises after
  | recorded {runtime : JobRuntime} (arises : Arises runtime) (entry : JobEvidenceEntry)
      (state : JobState) (fact : ReplayFact) :
      Arises
        { runtime with
          evidence := runtime.evidence.append entry state.code
          replayFacts := runtime.replayFacts ++ [fact] }

/-- What a checkpoint is built from. -/
structure JobRuntime.Built (runtime : JobRuntime) : Prop where
  admitted : validateSubmission runtime.schema runtime.submission = .ok ()
  typed : ∀ schedule, runtime.submission.schedule = some schedule → schedule.Typed
  bound : runtime.boundRevision ≠ 0
  entries : runtime.evidence.entries ≠ []
  claimed : runtime.evidence.claimedFinalState ≤ 9

theorem replayStore_fields {boundRevision : UInt8}
    {submission : JobSubmission} {evidence : JobEvidenceLog} {facts : List ReplayFact}
    {generation : Option Nat}
    (replayed : replayStore schema currentRevision submission evidence facts boundRevision
      generation = .ok runtime) :
    runtime.schema = schema ∧ runtime.submission = submission ∧ runtime.evidence = evidence ∧
      runtime.boundRevision = boundRevision := by
  unfold replayStore at replayed
  split at replayed
  · cases replayed
  · split_ifs at replayed
    dsimp only at replayed
    split at replayed
    · cases replayed
    · split_ifs at replayed
      obtain rfl := Except.ok.inj replayed
      exact ⟨rfl, rfl, rfl, rfl⟩
  · cases replayed

theorem fromEntries_eq {entries : List JobEvidenceEntry} {claimed : Nat} {log : JobEvidenceLog}
    (built : JobEvidenceLog.fromEntries entries claimed = .ok log) : log = ⟨entries, claimed⟩ := by
  unfold JobEvidenceLog.fromEntries at built
  dsimp only at built
  cases replayed : JobEvidenceLog.replay ⟨entries, claimed⟩ with
  | error error =>
    rw [replayed] at built
    cases built
  | ok state =>
    rw [replayed] at built
    exact (Except.ok.inj built).symm

theorem restore_built {stored : StoredJobCheckpoint}
    (restored : JobRuntime.restore schema currentRevision stored = .ok runtime) :
    runtime.Built := by
  unfold JobRuntime.restore at restored
  cases decoded : RuntimeCheckpoint.decode stored.bytes with
  | error error =>
    rw [decoded] at restored
    cases restored
  | ok checkpoint =>
    obtain ⟨checked, -⟩ := RuntimeCheckpoint.decode_split decoded
    rw [decoded] at restored
    dsimp only at restored
    split_ifs at restored
    cases admitted : validateSubmission schema checkpoint.submission with
    | error error =>
      rw [admitted] at restored
      cases restored
    | ok done =>
      rw [admitted] at restored
      dsimp only at restored
      cases rebuilt : JobEvidenceLog.fromEntries checkpoint.entries
          checkpoint.claimedFinalState with
      | error error =>
        rw [rebuilt] at restored
        cases restored
      | ok evidence =>
        rw [rebuilt] at restored
        dsimp only at restored
        obtain ⟨schema, submission, kept, bound⟩ := replayStore_fields restored
        obtain rfl := fromEntries_eq rebuilt
        refine ⟨?_, ?_, ?_, ?_, ?_⟩
        · rw [schema, submission, admitted]
        · rw [submission]
          exact checked.schedule
        · rw [bound]
          exact checked.revision
        · rw [kept]
          exact checked.entries
        · rw [kept]
          exact checked.state

theorem Arises.built (arises : Arises runtime) : runtime.Built := by
  induction arises with
  | created typed created =>
    obtain ⟨job, sound, -⟩ := create_sound 0 typed created
    exact ⟨sound.admitted, sound.typed, sound.bound, sound.entries_ne,
      sound.claimed.trans_le (code_le job.state)⟩
  | restored restored => exact restore_built restored
  | changed _ schema submission bound evidence _ built =>
    refine ⟨?_, ?_, ?_, ?_, ?_⟩
    · rw [schema, submission]
      exact built.admitted
    · rw [submission]
      exact built.typed
    · rw [bound]
      exact built.bound
    · rw [evidence]
      exact built.entries
    · rw [evidence]
      exact built.claimed
  | recorded _ entry state fact built =>
    exact ⟨built.admitted, built.typed, built.bound,
      List.append_ne_nil_of_right_ne_nil _ (List.cons_ne_nil entry []), code_le state⟩

theorem Arises.decoded (arises : Arises runtime) {document : List UInt8}
    (encoded : (RuntimeCheckpoint.fromRuntime runtime).encode = .ok document) :
    RuntimeCheckpoint.decode document = .ok (.fromRuntime runtime) := by
  obtain ⟨admitted, typed, bound, entries, claimed⟩ := arises.built
  obtain ⟨payload, short⟩ := admitted_payload admitted
  exact RuntimeCheckpoint.decode_encode encoded
    ⟨runtime.schema.digest_ne, bound, payload, short, typed, entries, claimed⟩

/-- **Which bytes are canonical.** What is written for an entry or for the checkpoint of a runtime is
read back, and what is read is written again as it was, exactly when each entry without a next tick
has zeros in the place of one. -/
theorem canonical_bytes (bytes : List UInt8) :
    (∀ entry, JobEvidenceEntry.fromCanonicalBytes bytes = some entry →
      (entry.canonicalBytes = bytes ↔ Plain bytes)) ∧
    (∀ entry : JobEvidenceEntry,
      JobEvidenceEntry.fromCanonicalBytes entry.canonicalBytes = some entry) ∧
    (∀ checkpoint, RuntimeCheckpoint.decode bytes = .ok checkpoint →
      ∃ raws, checkpoint.Consists raws bytes ∧
        (checkpoint.encode = .ok bytes ↔ ∀ raw ∈ raws, Plain raw)) ∧
    ∀ runtime, Arises runtime → (RuntimeCheckpoint.fromRuntime runtime).encode = .ok bytes →
      RuntimeCheckpoint.decode bytes = .ok (.fromRuntime runtime) := by
  refine ⟨fun _ => JobEvidenceEntry.canonicalBytes_iff,
    JobEvidenceEntry.fromCanonicalBytes_canonicalBytes, fun checkpoint decoded => ?_,
    fun _ arises encoded => arises.decoded encoded⟩
  obtain ⟨-, -, raws, consists⟩ := RuntimeCheckpoint.decode_split decoded
  exact ⟨raws, consists, RuntimeCheckpoint.encode_decoded_iff decoded consists⟩

/-- The end of a schedule, with something in the place of the next tick. -/
def spareTick : List UInt8 := [9, 0, 1, 0, 0, 0, 0, 0, 0, 0, 3, 0, 0, 0, 0, 0, 0, 0]

/-- Two byte strings carry the same entry. -/
theorem spareTick_accepted : ∃ entry, JobEvidenceEntry.fromCanonicalBytes spareTick = some entry ∧
      entry.canonicalBytes ≠ spareTick ∧
      JobEvidenceEntry.fromCanonicalBytes entry.canonicalBytes = some entry :=
  ⟨.recurringAdvanced none 3, by decide, by decide, by decide⟩

end Semaprax.DurableJobs
