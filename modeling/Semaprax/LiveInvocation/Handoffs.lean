/-
**Durable handoffs of migrations** (`live_invocation/migration.rs`, `live_invocation/migration/checkpoint.rs`).

The handoff of a migration, the migrated state and the journal of the destination are kept together in
one document. A document is recovered only when it is byte for byte what would be written for the
record that it holds.

* `LiveMigrationHandoff.canonical`, `LiveMigrationHandoff.decode` — the document of a handoff.
* `encode`, `recoverMigrationHandoff` — the writer and the reader of a record.
* `recover_encode_iff` — a record is recovered exactly when its journal is readable and not too long.
* `persistMigrationHandoff`, `MigrationCheckpointSink` — what publishes records.
* `Obtained` — the records that a caller can hold.
-/

import Semaprax.LiveInvocation.Migration
import Semaprax.LiveInvocation.Persistence

namespace Semaprax.LiveInvocation

open Library

def handoffSchema : String := "semaprax.live-invocation.migration-handoff.v1"

namespace LiveMigrationHandoff

variable (handoff : LiveMigrationHandoff)

/-- The canonical text of a handoff. -/
def canonical : String :=
  "\x7b\"schema\":" ++ quoteJson handoffSchema ++ ",\"previous_identity\":" ++
    quoteJson handoff.previousIdentity ++ ",\"previous_journal_chain\":" ++
    quoteJson handoff.previousJournalChain ++ ",\"previous_committed_budget\":" ++
    toString handoff.previousCommittedBudget.val ++ ",\"previous_turns\":" ++
    toString handoff.previousTurns ++ ",\"previous_model_calls\":" ++
    toString handoff.previousModelCalls ++ ",\"previous_model_failures\":" ++
    toString handoff.previousModelFailures ++ ",\"previous_effect_calls\":" ++
    toString handoff.previousEffectCalls ++ ",\"destination_identity\":" ++
    quoteJson handoff.destinationIdentity ++ ",\"migration_function\":" ++
    quoteJson handoff.migrationFunction ++ ",\"migrated_state_digest\":" ++
    quoteJson handoff.migratedStateDigest ++ ",\"previous_schema_digest\":" ++
    quoteJson handoff.previousSchemaDigest ++ ",\"destination_schema_digest\":" ++
    quoteJson handoff.destinationSchemaDigest ++ "\x7d"

def digest (sha256 : Bytes → Bytes) : String :=
  LiveInvocation.digest sha256 handoffDomain (asBytes handoff.canonical)

def keys : List String :=
  ["schema", "previous_identity", "previous_journal_chain", "previous_committed_budget",
    "previous_turns", "previous_model_calls", "previous_model_failures", "previous_effect_calls",
    "destination_identity", "migration_function", "migrated_state_digest",
    "previous_schema_digest", "destination_schema_digest"]

def fields : Object :=
  [("schema", .string handoffSchema), ("previous_identity", .string handoff.previousIdentity),
    ("previous_journal_chain", .string handoff.previousJournalChain),
    ("previous_committed_budget", .integer handoff.previousCommittedBudget.val),
    ("previous_turns", .integer handoff.previousTurns),
    ("previous_model_calls", .integer handoff.previousModelCalls),
    ("previous_model_failures", .integer handoff.previousModelFailures),
    ("previous_effect_calls", .integer handoff.previousEffectCalls),
    ("destination_identity", .string handoff.destinationIdentity),
    ("migration_function", .string handoff.migrationFunction),
    ("migrated_state_digest", .string handoff.migratedStateDigest),
    ("previous_schema_digest", .string handoff.previousSchemaDigest),
    ("destination_schema_digest", .string handoff.destinationSchemaDigest)]

def decode (value : Value) : Option LiveMigrationHandoff := do
  let object ← value.asObject
  closed object keys
  if text object "schema" = some handoffSchema then do
    let previousIdentity ← text object "previous_identity"
    let previousJournalChain ← text object "previous_journal_chain"
    let previousCommittedBudget ← (object.lookup "previous_committed_budget").bind Value.asI64
    let previousTurns ← (object.lookup "previous_turns").bind Value.asU64
    let previousModelCalls ← (object.lookup "previous_model_calls").bind Value.asU64
    let previousModelFailures ← (object.lookup "previous_model_failures").bind Value.asU64
    let previousEffectCalls ← (object.lookup "previous_effect_calls").bind Value.asU64
    let destinationIdentity ← text object "destination_identity"
    let migrationFunction ← text object "migration_function"
    let migratedStateDigest ← text object "migrated_state_digest"
    let previousSchemaDigest ← text object "previous_schema_digest"
    let destinationSchemaDigest ← text object "destination_schema_digest"
    pure ⟨previousIdentity, previousJournalChain, previousCommittedBudget, previousTurns,
      previousModelCalls, previousModelFailures, previousEffectCalls, destinationIdentity,
      migrationFunction, migratedStateDigest, previousSchemaDigest, destinationSchemaDigest⟩
  else none

theorem canonical_eq : handoff.canonical = (Value.object handoff.fields).render := by
  have opening : ∀ rest : String,
      "\x7b\"schema\":" ++ rest = "\x7b" ++ ("\"schema\":" ++ rest) :=
    fun rest => by simp [← String.append_assoc]
  have plain : ∀ key ∈ keys, quoteJson key = "\"" ++ key ++ "\"" := by
    simp [keys, quoteJson, quoteCharacter]
  simp only [keys, List.forall_mem_cons] at plain
  unfold canonical fields
  simp only [Value.render, Value.renderEntries, plain]
  simp [repr_natCast, String.append_assoc, opening]

/-- The counts of a handoff are `usize`. -/
structure Counted : Prop where
  turns : handoff.previousTurns < 2 ^ 64
  modelCalls : handoff.previousModelCalls < 2 ^ 64
  modelFailures : handoff.previousModelFailures < 2 ^ 64
  effectCalls : handoff.previousEffectCalls < 2 ^ 64

variable {handoff}

theorem some_bind {A B : Type} {found : Option A} {value : A} {rest : A → Option B}
    (here : found = some value) : (found >>= rest) = rest value := by
  rw [here]
  rfl

theorem decode_fields (counted : handoff.Counted) :
    decode (.object handoff.fields) = some handoff := by
  have shut : closed handoff.fields keys = some () := closed_keys rfl
  have told : ∀ key value, handoff.fields.lookup key = some (.string value) →
      text handoff.fields key = some value := fun key value here => by
    unfold text
    rw [here]
    rfl
  have counts : ∀ key (value : Nat), value < 2 ^ 64 →
      handoff.fields.lookup key = some (.integer value) →
        (handoff.fields.lookup key).bind Value.asU64 = some value := fun key value small here => by
    rw [here, Option.bind_some, asU64_natCast, if_pos small]
  have budget : (handoff.fields.lookup "previous_committed_budget").bind Value.asI64 =
      some handoff.previousCommittedBudget := asI64_val handoff.previousCommittedBudget
  unfold decode
  rw [some_bind (show (Value.object handoff.fields).asObject = some handoff.fields from rfl),
    some_bind shut, if_pos (told "schema" handoffSchema rfl),
    some_bind (told "previous_identity" _ rfl), some_bind (told "previous_journal_chain" _ rfl),
    some_bind budget, some_bind (counts "previous_turns" _ counted.turns rfl),
    some_bind (counts "previous_model_calls" _ counted.modelCalls rfl),
    some_bind (counts "previous_model_failures" _ counted.modelFailures rfl),
    some_bind (counts "previous_effect_calls" _ counted.effectCalls rfl),
    some_bind (told "destination_identity" _ rfl), some_bind (told "migration_function" _ rfl),
    some_bind (told "migrated_state_digest" _ rfl),
    some_bind (told "previous_schema_digest" _ rfl),
    some_bind (told "destination_schema_digest" _ rfl)]
  rfl

theorem counted_of_decode {value : Value} (decoded : decode value = some handoff) :
    handoff.Counted := by
  have counts : ∀ {found : Option Value} {count : Nat}, found.bind Value.asU64 = some count →
      count < 2 ^ 64 := by
    intro found count counted
    obtain ⟨field, -, read⟩ := Option.bind_eq_some_iff.mp counted
    exact asU64_bound read
  unfold decode at decoded
  obtain ⟨object, -, decoded⟩ := Option.bind_eq_some_iff.mp decoded
  obtain ⟨_, -, decoded⟩ := Option.bind_eq_some_iff.mp decoded
  split_ifs at decoded
  iterate 3 obtain ⟨_, -, decoded⟩ := Option.bind_eq_some_iff.mp decoded
  obtain ⟨_, turns, decoded⟩ := Option.bind_eq_some_iff.mp decoded
  obtain ⟨_, modelCalls, decoded⟩ := Option.bind_eq_some_iff.mp decoded
  obtain ⟨_, modelFailures, decoded⟩ := Option.bind_eq_some_iff.mp decoded
  obtain ⟨_, effectCalls, decoded⟩ := Option.bind_eq_some_iff.mp decoded
  iterate 5 obtain ⟨_, -, decoded⟩ := Option.bind_eq_some_iff.mp decoded
  obtain rfl := Option.some.inj decoded
  exact ⟨counts turns, counts modelCalls, counts modelFailures, counts effectCalls⟩

end LiveMigrationHandoff

/-- The schema tag of a record. -/
def persistedMigrationHandoffSchema : String :=
  "semaprax.live-invocation.persisted-migration-handoff.v1"

/-- The greatest document of a record, in bytes. -/
def maxMigrationCheckpointBytes : Nat := 2097152

/-- A handoff, the state that was migrated, and the journal of the destination. -/
structure RecoveredMigrationHandoff where
  handoff : LiveMigrationHandoff
  migratedState : Bytes
  destinationJournal : Journal
  generation : Nat

/-- A rejection of a document. -/
inductive MigrationCheckpointError
  | store
  | capacity
  | malformed
  | schemaMismatch
  | generation
  | nonCanonical
  | destinationMismatch
  | handoffMismatch
  | stateMismatch
  | journal
  | chainMismatch
deriving DecidableEq, Repr

def ValidGeneration (generation : Nat) : Prop := generation ≠ 0 ∧ generation ≠ maxGeneration

instance (generation : Nat) : Decidable (ValidGeneration generation) :=
  inferInstanceAs (Decidable (_ ∧ _))

section Records

variable (sha256 : Bytes → Bytes) (record : RecoveredMigrationHandoff)

namespace RecoveredMigrationHandoff

/-- Render a record. -/
def encode : String :=
  "\x7b\"schema\":" ++ quoteJson persistedMigrationHandoffSchema ++ ",\"destination\":" ++
    quoteJson record.handoff.destinationIdentity ++ ",\"generation\":" ++
    toString record.generation ++ ",\"handoff\":" ++ record.handoff.canonical ++
    ",\"handoff_digest\":" ++ quoteJson (record.handoff.digest sha256) ++
    ",\"migrated_state\":" ++ quoteJson (hex record.migratedState) ++
    ",\"migrated_state_digest\":" ++ quoteJson record.handoff.migratedStateDigest ++
    ",\"chain\":" ++ quoteJson (chain sha256 record.destinationJournal) ++ ",\"entries\":" ++
    trimEnd (render record.destinationJournal) ++ "\x7d\n"

def keys : List String :=
  ["schema", "destination", "generation", "handoff", "handoff_digest", "migrated_state",
    "migrated_state_digest", "chain", "entries"]

def fields : Object :=
  [("schema", .string persistedMigrationHandoffSchema),
    ("destination", .string record.handoff.destinationIdentity),
    ("generation", .integer record.generation), ("handoff", .object record.handoff.fields),
    ("handoff_digest", .string (record.handoff.digest sha256)),
    ("migrated_state", .string (hex record.migratedState)),
    ("migrated_state_digest", .string record.handoff.migratedStateDigest),
    ("chain", .string (chain sha256 record.destinationJournal)),
    ("entries", journalValue record.destinationJournal)]

/-- What is written is the text of a document, and a newline. -/
theorem encode_eq : record.encode sha256 = (Value.object (record.fields sha256)).render ++ "\n" := by
  have opening : ∀ rest : String,
      "\x7b\"schema\":" ++ rest = "\x7b" ++ ("\"schema\":" ++ rest) :=
    fun rest => by simp [← String.append_assoc]
  have closing : "\x7d\n" = "\x7d" ++ "\n" := by decide
  have plain : ∀ key ∈ keys, quoteJson key = "\"" ++ key ++ "\"" := by
    simp [keys, quoteJson, quoteCharacter]
  simp only [keys, List.forall_mem_cons] at plain
  unfold encode fields
  rw [trimEnd_render, closing, LiveMigrationHandoff.canonical_eq]
  generalize Value.object record.handoff.fields = handoff
  simp only [Value.render, Value.renderEntries, plain]
  simp [repr_natCast, String.append_assoc, opening]

/-- The state is the one that the handoff names. -/
def StateMatches : Prop :=
  record.migratedState.length ≤ maxMigratedStateBytes ∧
    record.handoff.migratedStateDigest = digest sha256 handoffDomain record.migratedState

instance : Decidable (record.StateMatches sha256) := inferInstanceAs (Decidable (_ ∧ _))

end RecoveredMigrationHandoff

variable (parse : String → Option Value)

/-- The journal of a record, which is empty before the first turn. -/
def decodeEntries (value : Value) : Except MigrationCheckpointError Journal :=
  match value.asArray with
  | some [] => .ok []
  | some _ => okOr .journal (decode value)
  | none => .error .journal

def recoverMigrationHandoff (document : String) (destination : LiveInvocationId) :
    Except MigrationCheckpointError RecoveredMigrationHandoff := do
  insist (document.utf8ByteSize ≤ maxMigrationCheckpointBytes) .capacity
  insist (document.toList.getLast? = some '\n') .nonCanonical
  let value ← okOr .malformed (parse document)
  let object ← okOr .malformed value.asObject
  okOr .malformed (closed object RecoveredMigrationHandoff.keys)
  insist (text object "schema" = some persistedMigrationHandoffSchema) .schemaMismatch
  insist (text object "destination" = some destination.digest) .destinationMismatch
  let handoff ← okOr .malformed ((object.lookup "handoff").bind LiveMigrationHandoff.decode)
  insist (handoff.destinationIdentity = destination.digest) .destinationMismatch
  insist (text object "handoff_digest" = some (handoff.digest sha256)) .handoffMismatch
  let generation ← okOr .malformed ((object.lookup "generation").bind Value.asU64)
  insist (ValidGeneration generation) .generation
  let migratedState ← okOr .malformed ((text object "migrated_state").bind unhex)
  insist (migratedState.length ≤ maxMigratedStateBytes ∧
    handoff.migratedStateDigest = digest sha256 handoffDomain migratedState ∧
      text object "migrated_state_digest" = some handoff.migratedStateDigest) .stateMismatch
  let items ← okOr .journal (object.lookup "entries")
  let entries ← decodeEntries items
  insist (text object "chain" = some (chain sha256 entries)) .chainMismatch
  let record : RecoveredMigrationHandoff := ⟨handoff, migratedState, entries, generation⟩
  insist (record.encode sha256 = document) .nonCanonical
  pure record

variable {sha256 record parse}

/-- What is known of a record that a caller holds. -/
structure RecoveredMigrationHandoff.Sound (sha256 : Bytes → Bytes)
    (record : RecoveredMigrationHandoff) : Prop where
  counted : record.handoff.Counted
  stateMatches : record.StateMatches sha256
  valid : ValidGeneration record.generation
  numbered : record.generation < 2 ^ 64

variable {destination : LiveInvocationId}

theorem decodeEntries_value_iff (entries : Journal) :
    decodeEntries (journalValue entries) = .ok entries ↔
      entries.length ≤ maxJournalEntries ∧ ∀ entry ∈ entries, entry.Readable := by
  cases entries with
  | nil => exact iff_of_true rfl ⟨Nat.zero_le _, List.forall_mem_nil _⟩
  | cons entry entries =>
    have read := decode_value_iff (entry :: entries)
    rw [and_iff_right (List.cons_ne_nil _ _)] at read
    rw [← read]
    exact @okOr_eq_ok _ _ MigrationCheckpointError.journal _ _

/-- **A record is recovered** from what is written for it exactly when its journal is not too long and
each of its entries is readable. -/
theorem recover_encode_iff (sound : record.Sound sha256)
    (bound : record.handoff.destinationIdentity = destination.digest)
    (small : (record.encode sha256).utf8ByteSize ≤ maxMigrationCheckpointBytes)
    (reads : parse (record.encode sha256) = some (.object (record.fields sha256))) :
    recoverMigrationHandoff sha256 parse (record.encode sha256) destination = .ok record ↔
      record.destinationJournal.length ≤ maxJournalEntries ∧
        ∀ entry ∈ record.destinationJournal, entry.Readable := by
  rw [← decodeEntries_value_iff]
  have closing : (record.encode sha256).toList.getLast? = some '\n' := by
    rw [record.encode_eq sha256, String.toList_append]
    simp
  have shut : closed (record.fields sha256) RecoveredMigrationHandoff.keys = some () :=
    closed_keys rfl
  have told : ∀ key value, (record.fields sha256).lookup key = some (.string value) →
      text (record.fields sha256) key = some value := fun key value here => by
    unfold text
    rw [here]
    rfl
  have schema := told "schema" persistedMigrationHandoffSchema (by
    simp [RecoveredMigrationHandoff.fields])
  have named := told "destination" destination.digest (by
    simp [RecoveredMigrationHandoff.fields, List.lookup_cons, bound])
  have digested := told "handoff_digest" (record.handoff.digest sha256) (by
    simp [RecoveredMigrationHandoff.fields, List.lookup_cons])
  have stated := told "migrated_state_digest" record.handoff.migratedStateDigest (by
    simp [RecoveredMigrationHandoff.fields, List.lookup_cons])
  have linked := told "chain" (chain sha256 record.destinationJournal) (by
    simp [RecoveredMigrationHandoff.fields, List.lookup_cons])
  have listed : (record.fields sha256).lookup "entries" =
      some (journalValue record.destinationJournal) := by
    simp [RecoveredMigrationHandoff.fields, List.lookup_cons]
  have handoff : ((record.fields sha256).lookup "handoff").bind LiveMigrationHandoff.decode =
      some record.handoff := by
    have here : (record.fields sha256).lookup "handoff" =
        some (.object record.handoff.fields) := by
      simp [RecoveredMigrationHandoff.fields, List.lookup_cons]
    rw [here, Option.bind_some, LiveMigrationHandoff.decode_fields sound.counted]
  have numbered : ((record.fields sha256).lookup "generation").bind Value.asU64 =
      some record.generation := by
    have here : (record.fields sha256).lookup "generation" =
        some (.integer record.generation) := by
      simp [RecoveredMigrationHandoff.fields, List.lookup_cons]
    rw [here, Option.bind_some, asU64_natCast, if_pos sound.numbered]
  have state : (text (record.fields sha256) "migrated_state").bind unhex =
      some record.migratedState := by
    have here := told "migrated_state" (hex record.migratedState) (by
      simp [RecoveredMigrationHandoff.fields, List.lookup_cons])
    rw [here, Option.bind_some, unhex_hex]
  have shape : recoverMigrationHandoff sha256 parse (record.encode sha256) destination = (do
      let entries ← decodeEntries (journalValue record.destinationJournal)
      insist (text (record.fields sha256) "chain" = some (chain sha256 entries)) .chainMismatch
      let read : RecoveredMigrationHandoff :=
        ⟨record.handoff, record.migratedState, entries, record.generation⟩
      insist (read.encode sha256 = record.encode sha256) .nonCanonical
      pure read) := by
    unfold recoverMigrationHandoff
    rw [insist_bind small, insist_bind closing, okOr_bind reads,
      okOr_bind (show (Value.object (record.fields sha256)).asObject = some _ from rfl),
      okOr_bind shut, insist_bind schema, insist_bind named, okOr_bind handoff, insist_bind bound,
      insist_bind digested, okOr_bind numbered, insist_bind sound.valid, okOr_bind state,
      insist_bind ⟨sound.stateMatches.1, sound.stateMatches.2, stated⟩, okOr_bind listed]
  rw [shape]
  constructor
  · intro recovered
    obtain ⟨entries, decoded, recovered⟩ := bind_eq_ok.mp recovered
    obtain ⟨_, -, recovered⟩ := bind_eq_ok.mp recovered
    obtain ⟨_, -, recovered⟩ := bind_eq_ok.mp recovered
    obtain rfl : entries = record.destinationJournal :=
      congrArg RecoveredMigrationHandoff.destinationJournal (Except.ok.inj recovered)
    exact decoded
  · intro decoded
    rw [decoded]
    refine bind_eq_ok.mpr ⟨_, rfl, ?_⟩
    have whole : (⟨record.handoff, record.migratedState, record.destinationJournal,
      record.generation⟩ : RecoveredMigrationHandoff) = record := rfl
    rw [insist_bind linked]
    dsimp only
    rw [whole, insist_bind rfl]
    rfl

/-- **A document is accepted** only if it is what would be written for the record. -/
theorem recover_canonical {document : String}
    (recovered : recoverMigrationHandoff sha256 parse document destination = .ok record) :
    record.encode sha256 = document ∧ record.Sound sha256 := by
  unfold recoverMigrationHandoff at recovered
  iterate 7 obtain ⟨_, -, recovered⟩ := bind_eq_ok.mp recovered
  obtain ⟨handoff, decoded, recovered⟩ := bind_eq_ok.mp recovered
  obtain ⟨_, -, recovered⟩ := bind_eq_ok.mp recovered
  obtain ⟨_, -, recovered⟩ := bind_eq_ok.mp recovered
  obtain ⟨generation, numbered, recovered⟩ := bind_eq_ok.mp recovered
  obtain ⟨_, valid, recovered⟩ := bind_eq_ok.mp recovered
  obtain ⟨state, -, recovered⟩ := bind_eq_ok.mp recovered
  obtain ⟨_, stateMatches, recovered⟩ := bind_eq_ok.mp recovered
  obtain ⟨_, -, recovered⟩ := bind_eq_ok.mp recovered
  obtain ⟨entries, -, recovered⟩ := bind_eq_ok.mp recovered
  obtain ⟨_, -, recovered⟩ := bind_eq_ok.mp recovered
  obtain ⟨_, same, recovered⟩ := bind_eq_ok.mp recovered
  obtain rfl := Except.ok.inj recovered
  obtain ⟨_, -, decoded⟩ := Option.bind_eq_some_iff.mp (okOr_eq_ok.mp decoded)
  obtain ⟨_, -, numbered⟩ := Option.bind_eq_some_iff.mp (okOr_eq_ok.mp numbered)
  obtain ⟨short, named, -⟩ := insist_eq_ok.mp stateMatches
  exact ⟨insist_eq_ok.mp same, LiveMigrationHandoff.counted_of_decode decoded, ⟨short, named⟩,
    insist_eq_ok.mp valid, asU64_bound numbered⟩

end Records

/-- A record that was handed to the store, with its document. -/
structure Publication where
  record : RecoveredMigrationHandoff
  document : String

/-- The sink: the record that the caller holds, and all that was handed to the store. -/
structure MigrationCheckpointSink where
  record : RecoveredMigrationHandoff
  published : List Publication

section Publishing

variable {E : Type} (sha256 : Bytes → Bytes) (store : CheckpointStore E)

/-- Make a handoff durable, at the first generation. -/
def persistMigrationHandoff (migration : MigratedLiveInvocation) (env : E) :
    Except MigrationCheckpointError RecoveredMigrationHandoff × E :=
  let record : RecoveredMigrationHandoff := ⟨migration.handoff, migration.migratedState, [], 1⟩
  if ¬ record.StateMatches sha256 then (.error .stateMismatch, env)
  else if (record.encode sha256).utf8ByteSize > maxMigrationCheckpointBytes then
    (.error .capacity, env)
  else
    let answer := store record.generation (record.encode sha256) env
    (if answer.1 = .durable then .ok record else .error .store, answer.2)

/-- Make a journal durable together with its handoff. What the store is not handed is not kept. -/
def MigrationCheckpointSink.persist (journal : Journal) (env : MigrationCheckpointSink × E) :
    Persisted × MigrationCheckpointSink × E :=
  let held := env.1.record
  if held.generation = maxGeneration then (.failed false, env)
  else
    let next := held.generation + 1
    if ¬ ValidGeneration next then (.failed false, env)
    else
      let candidate : RecoveredMigrationHandoff :=
        ⟨held.handoff, held.migratedState, journal, next⟩
      let document := candidate.encode sha256
      if document.utf8ByteSize > maxMigrationCheckpointBytes then (.failed false, env)
      else
        let answer := store next document env.2
        (answer.1, ⟨if answer.1 = .durable then candidate else held,
          env.1.published ++ [⟨candidate, document⟩]⟩, answer.2)

/-- What is known of the records of a run: they carry the handoff of the record that it started with,
their documents fit, and their journals are what a run offers. -/
structure MigrationCheckpointSink.Kept (start : RecoveredMigrationHandoff)
    (sink : MigrationCheckpointSink) : Prop where
  sound : sink.record.Sound sha256
  handoff : sink.record.handoff = start.handoff
  published : ∀ publication ∈ sink.published, publication.record.Sound sha256 ∧
    publication.record.handoff = start.handoff ∧
      Made start.destinationJournal publication.record.destinationJournal ∧
        publication.document = publication.record.encode sha256 ∧
          publication.document.utf8ByteSize ≤ maxMigrationCheckpointBytes

theorem migrationPersist_kept {start : RecoveredMigrationHandoff} {journal : Journal}
    (made : Made start.destinationJournal journal) :
    Leaves (fun env => MigrationCheckpointSink.Kept sha256 start env.1)
      (MigrationCheckpointSink.persist sha256 store journal) := by
  rintro ⟨⟨held, published⟩, env⟩ kept
  unfold MigrationCheckpointSink.persist
  dsimp only
  by_cases last : held.generation = maxGeneration
  · rw [if_pos last]
    exact kept
  by_cases valid : ValidGeneration (held.generation + 1)
  · by_cases large : ((⟨held.handoff, held.migratedState, journal, held.generation + 1⟩ :
        RecoveredMigrationHandoff).encode sha256).utf8ByteSize > maxMigrationCheckpointBytes
    · rw [if_neg last, if_neg (not_not.mpr valid), if_pos large]
      exact kept
    · rw [if_neg last, if_neg (not_not.mpr valid), if_neg large]
      have room := kept.sound.numbered
      have next : held.generation + 1 < 2 ^ 64 := by
        have most : maxGeneration + 1 = 2 ^ 64 := by norm_num [maxGeneration]
        have here : held.generation < 2 ^ 64 := room
        omega
      have sound : (⟨held.handoff, held.migratedState, journal, held.generation + 1⟩ :
          RecoveredMigrationHandoff).Sound sha256 :=
        ⟨kept.sound.counted, kept.sound.stateMatches, valid, next⟩
      generalize store _ _ env = answer
      refine ⟨?_, ?_, fun publication member => ?_⟩
      · show RecoveredMigrationHandoff.Sound sha256 (if answer.1 = .durable then _ else held)
        split_ifs with taken
        · exact sound
        · exact kept.sound
      · show RecoveredMigrationHandoff.handoff (if answer.1 = .durable then _ else held) = _
        split_ifs with taken
        · exact kept.handoff
        · exact kept.handoff
      · rcases List.mem_append.mp member with old | new
        · exact kept.published publication old
        · obtain rfl := List.mem_singleton.mp new
          exact ⟨sound, kept.handoff, made, rfl, not_lt.mp large⟩
  · rw [if_neg last, if_pos valid]
    exact kept

theorem persistMigrationHandoff_eq {migration : MigratedLiveInvocation} {env : E}
    {record : RecoveredMigrationHandoff}
    (persisted : (persistMigrationHandoff sha256 store migration env).1 = .ok record) :
    record = ⟨migration.handoff, migration.migratedState, [], 1⟩ ∧ record.StateMatches sha256 ∧
      (record.encode sha256).utf8ByteSize ≤ maxMigrationCheckpointBytes := by
  unfold persistMigrationHandoff at persisted
  dsimp only at persisted
  split_ifs at persisted with matched large
  obtain rfl := Except.ok.inj persisted
  exact ⟨rfl, matched, not_lt.mp large⟩

end Publishing

/-- A refusal of a migrated destination. -/
inductive MigrationDestinationError
  | destination (error : LiveMigrationError)
  | schemaMismatch
  | existingSink
  | kernel (stop : Stop)

/-- A run of a migrated destination: its configuration, its handlers, the store, the record that it
goes on from, and where it starts. -/
structure MigratedRun (E : Type) where
  config : LiveInvocationConfig
  handlers : LiveInvocationHandlers E
  store : CheckpointStore E
  record : RecoveredMigrationHandoff
  env : E

section Destinations

variable {E : Type} (sha256 : Bytes → Bytes)

def MigratedRun.call (run : MigratedRun E) : KernelCall (MigrationCheckpointSink × E) where
  sha256 := sha256
  config := run.config
  handlers := sinkHandlers run.handlers (MigrationCheckpointSink.persist sha256 run.store)

def verifyDestinationBinding (handoff : LiveMigrationHandoff) (destination : LiveInvocationId) :
    Except LiveMigrationError Unit :=
  insist (handoff.destinationIdentity = destination.digest) .staleDestination

def MigratedRun.runMigratedDestination (run : MigratedRun E) :
    Except MigrationDestinationError (LiveKernelRun × Nat) × MigrationCheckpointSink × E :=
  let untouched : MigrationCheckpointSink × E := (⟨run.record, []⟩, run.env)
  match verifyDestinationBinding run.record.handoff run.config.identity with
  | .error error => (.error (.destination error), untouched)
  | .ok () =>
    if run.config.interactionSchemaDigest ≠ run.record.handoff.destinationSchemaDigest then
      (.error .schemaMismatch, untouched)
    else if run.handlers.sink.isSome then (.error .existingSink, untouched)
    else
      let ended := (run.call sha256).runLiveInvocation run.record.destinationJournal
        ⟨untouched, []⟩
      match ended.1 with
      | .ok result => (.ok (result, ended.2.env.1.record.generation), ended.2.env)
      | .error stop => (.error (.kernel stop), ended.2.env)

def MigratedRun.sink (run : MigratedRun E) : MigrationCheckpointSink :=
  (run.runMigratedDestination sha256).2.1

variable {sha256}

theorem MigratedRun.kept (run : MigratedRun E) (hashes : ∀ bytes, (sha256 bytes).length = 32)
    (named : looksLikeDigest run.config.identity.digest = true)
    (sound : run.record.Sound sha256) :
    (run.sink sha256).Kept sha256 run.record ∧ ((run.sink sha256).published ≠ [] →
      run.record.handoff.destinationIdentity = run.config.identity.digest) := by
  have untouched : MigrationCheckpointSink.Kept sha256 run.record ⟨run.record, []⟩ :=
    ⟨sound, rfl, List.forall_mem_nil _⟩
  have upholds : Upholds run.record.destinationJournal
      (fun env => MigrationCheckpointSink.Kept sha256 run.record env.1)
      (run.call sha256).handlers :=
    sinkHandlers_upholds run.handlers fun journal _ made =>
      migrationPersist_kept sha256 run.store made
  have ended : MigrationCheckpointSink.Kept sha256 run.record
      ((run.call sha256).runLiveInvocation run.record.destinationJournal
        ⟨(⟨run.record, []⟩, run.env), []⟩).2.env.1 :=
    (runLiveInvocation_upholds upholds hashes named).after untouched
  unfold MigratedRun.sink MigratedRun.runMigratedDestination verifyDestinationBinding
  by_cases bound : run.record.handoff.destinationIdentity = run.config.identity.digest
  · refine ⟨?_, fun _ => bound⟩
    rw [insist, if_pos bound]
    dsimp only
    split_ifs
    · exact untouched
    · exact untouched
    · generalize (run.call sha256).runLiveInvocation run.record.destinationJournal
        ⟨(⟨run.record, []⟩, run.env), []⟩ = outcome at ended
      obtain ⟨result, world⟩ := outcome
      cases result with
      | ok result | error stop => exact ended
  · rw [insist, if_neg bound]
    exact ⟨untouched, fun published => absurd rfl published⟩

end Destinations

/-- The records that a caller can hold: what was made durable, what was recovered, and what a run has
left. -/
inductive Obtained (sha256 : Bytes → Bytes) (parse : String → Option Value) :
    RecoveredMigrationHandoff → Prop
  | persisted {E : Type} (store : CheckpointStore E) (migration : MigratedLiveInvocation) (env : E)
      {record : RecoveredMigrationHandoff} (counted : migration.handoff.Counted)
      (durable : (persistMigrationHandoff sha256 store migration env).1 = .ok record) :
      Obtained sha256 parse record
  | recovered (document : String) (destination : LiveInvocationId)
      {record : RecoveredMigrationHandoff}
      (accepted : recoverMigrationHandoff sha256 parse document destination = .ok record) :
      Obtained sha256 parse record
  | ran {E : Type} (run : MigratedRun E)
      (named : looksLikeDigest run.config.identity.digest = true)
      (obtained : Obtained sha256 parse run.record) :
      Obtained sha256 parse (run.sink sha256).record

section Outcomes

variable {E : Type} {sha256 : Bytes → Bytes} {parse : String → Option Value}
  {record : RecoveredMigrationHandoff}

variable {migration : MigratedLiveInvocation}

theorem persistMigrationHandoff_sound {store : CheckpointStore E}
    {env : E} (counted : migration.handoff.Counted)
    (durable : (persistMigrationHandoff sha256 store migration env).1 = .ok record) :
    record.Sound sha256 := by
  obtain ⟨rfl, matched, -⟩ := persistMigrationHandoff_eq sha256 store durable
  exact ⟨counted, matched, ⟨one_ne_zero, by norm_num [maxGeneration]⟩, by norm_num⟩

theorem Obtained.sound (hashes : ∀ bytes, (sha256 bytes).length = 32)
    (obtained : Obtained sha256 parse record) : record.Sound sha256 := by
  induction obtained with
  | persisted store migration env counted durable =>
    exact persistMigrationHandoff_sound counted durable
  | recovered document destination accepted => exact (recover_canonical accepted).2
  | ran run named _ sound => exact (run.kept hashes named sound).1.sound

/-- **A handoff that was made durable is recovered** as it was. -/
theorem persistMigrationHandoff_recovered {store : CheckpointStore E}
    {env : E} (counted : migration.handoff.Counted)
    (durable : (persistMigrationHandoff sha256 store migration env).1 = .ok record)
    {destination : LiveInvocationId}
    (bound : record.handoff.destinationIdentity = destination.digest)
    (reads : parse (record.encode sha256) = some (.object (record.fields sha256))) :
    recoverMigrationHandoff sha256 parse (record.encode sha256) destination = .ok record := by
  have sound := persistMigrationHandoff_sound counted durable
  obtain ⟨rfl, -, small⟩ := persistMigrationHandoff_eq sha256 store durable
  exact (recover_encode_iff sound bound small reads).mpr
    ⟨Nat.zero_le _, List.forall_mem_nil _⟩

/-- **What a migrated destination publishes is recovered** as it was, exactly when its journal can
be. -/
theorem MigratedRun.recovered_iff (hashes : ∀ bytes, (sha256 bytes).length = 32)
    (run : MigratedRun E) (named : looksLikeDigest run.config.identity.digest = true)
    (obtained : Obtained sha256 parse run.record) {publication : Publication}
    (member : publication ∈ (run.sink sha256).published)
    (reads : parse publication.document = some (.object (publication.record.fields sha256))) :
    recoverMigrationHandoff sha256 parse publication.document run.config.identity =
        .ok publication.record ↔
      Recoverable run.record.destinationJournal publication.record.destinationJournal := by
  obtain ⟨kept, bound⟩ := run.kept hashes named (obtained.sound hashes)
  obtain ⟨sound, same, made, written, small⟩ := kept.published publication member
  have here : publication.record.handoff.destinationIdentity = run.config.identity.digest :=
    same ▸ bound (List.ne_nil_of_mem member)
  rw [written] at reads small ⊢
  rw [recover_encode_iff sound here small reads, made.recoverable_iff]

/-- **What is persisted is recovered** exactly when its journal can be: the commits of every run, and
what every migrated destination publishes. A migration that was made durable is always recovered, and
a document is accepted only if it is, byte for byte, what is written for the record that it gives. -/
theorem persisted_recovered_iff (hashes : ∀ bytes, (sha256 bytes).length = 32) :
    (∀ {E : Type} (run : CheckpointedRun E), looksLikeDigest run.config.identity.digest = true →
      ∀ commit ∈ run.commits sha256,
        parse commit.document = some (envelopeValue sha256 run.config.identity.digest
          commit.generation commit.journal) →
        (recoverJournal sha256 parse commit.document run.config.identity =
            .ok ⟨commit.journal, commit.generation⟩ ↔ Recoverable run.start commit.journal)) ∧
    (∀ {E : Type} (run : MigratedRun E), looksLikeDigest run.config.identity.digest = true →
      Obtained sha256 parse run.record → ∀ publication ∈ (run.sink sha256).published,
        parse publication.document = some (.object (publication.record.fields sha256)) →
        (recoverMigrationHandoff sha256 parse publication.document run.config.identity =
            .ok publication.record ↔
          Recoverable run.record.destinationJournal publication.record.destinationJournal)) ∧
    (∀ {E : Type} (store : CheckpointStore E) (migration : MigratedLiveInvocation) (env : E)
      (record : RecoveredMigrationHandoff) (destination : LiveInvocationId),
        migration.handoff.Counted →
        (persistMigrationHandoff sha256 store migration env).1 = .ok record →
        record.handoff.destinationIdentity = destination.digest →
        parse (record.encode sha256) = some (.object (record.fields sha256)) →
        recoverMigrationHandoff sha256 parse (record.encode sha256) destination = .ok record) ∧
    ∀ (document : String) (destination : LiveInvocationId) (record : RecoveredMigrationHandoff),
      recoverMigrationHandoff sha256 parse document destination = .ok record →
        record.encode sha256 = document :=
  ⟨fun run named _ member reads => run.recovered_iff hashes named member reads,
    fun run named obtained _ member reads => run.recovered_iff hashes named obtained member reads,
    fun _ _ _ _ _ counted durable bound reads =>
      persistMigrationHandoff_recovered counted durable bound reads,
    fun _ _ _ accepted => (recover_canonical accepted).1⟩

end Outcomes

/-- A hash of the right length. -/
def zeroHash (_ : Bytes) : Bytes := List.replicate 32 0

/-- A run of one turn whose gate grants `grant`, under a store that takes everything. -/
def grantingRun (grant : String) : CheckpointedRun Unit where
  config :=
    { oneTurn with
      identity := ⟨digest zeroHash "invocation" []⟩ }
  handlers :=
    { promptHandlers false with
      authorize := fun _ env => (some (.ok grant), env) }
  store := fun _ _ env => (.durable, env)
  start := []
  generation := 0
  env := ()

/-- A grant is written as it was given, and a document with a grant that is no digest is refused. -/
theorem grantingRun_lost : ∃ commit ∈ (grantingRun "grant").commits zeroHash,
    ∀ parse : String → Option Value,
      parse commit.document = some (envelopeValue zeroHash
        (grantingRun "grant").config.identity.digest commit.generation commit.journal) →
      recoverJournal zeroHash parse commit.document (grantingRun "grant").config.identity ≠
        .ok ⟨commit.journal, commit.generation⟩ := by
  obtain ⟨commit, member, fits, granted⟩ : ∃ commit ∈ (grantingRun "grant").commits zeroHash,
      commit.generation ≤ 9 ∧
        JournalEntry.authorizationConsumed 0 "grant" ∈ commit.journal := by
    decide +kernel
  refine ⟨commit, member, fun parse reads recovered => ?_⟩
  have small : commit.generation < 2 ^ 64 := fits.trans_lt (by norm_num)
  obtain ⟨-, -, readable⟩ := (recover_envelope_iff small reads).mp recovered
  have shaped : looksLikeDigest "grant" = true :=
    (readable _ granted).digests "grant" (List.mem_singleton_self _)
  exact absurd shaped (by decide)

def digestGrant : String := digest zeroHash "grant" []

/-- With a grant that is a digest, what the same run commits is recovered. -/
theorem persisted_recovered_iff_granting : ∃ commit ∈ (grantingRun digestGrant).commits zeroHash,
    JournalEntry.authorizationConsumed 0 digestGrant ∈ commit.journal ∧
      recoverJournal zeroHash (fun _ => some (envelopeValue zeroHash
          (grantingRun digestGrant).config.identity.digest commit.generation commit.journal))
          commit.document (grantingRun digestGrant).config.identity =
        .ok ⟨commit.journal, commit.generation⟩ := by
  have hashes : ∀ bytes, (zeroHash bytes).length = 32 := fun _ => rfl
  have named : looksLikeDigest (grantingRun digestGrant).config.identity.digest = true :=
    looksLikeDigest_digest hashes _ _
  obtain ⟨commit, member, granted, short, shaped⟩ : ∃ commit ∈
      (grantingRun digestGrant).commits zeroHash,
      JournalEntry.authorizationConsumed 0 digestGrant ∈ commit.journal ∧
        commit.journal.length ≤ 16 ∧ ∀ entry ∈ commit.journal, ∀ text ∈ entry.digests,
          looksLikeDigest text = true := by
    decide +kernel
  refine ⟨commit, member, granted, ?_⟩
  refine ((persisted_recovered_iff hashes).1 (grantingRun digestGrant) named commit member rfl).mpr
    ⟨short.trans (by norm_num [maxJournalEntries]), fun _ _ old => absurd old List.not_mem_nil,
      fun turn grant member => shaped _ member grant (List.mem_singleton_self grant)⟩

end Semaprax.LiveInvocation
