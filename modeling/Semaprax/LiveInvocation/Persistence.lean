/-
**Persisting and recovering a journal** (`live_invocation/persistence.rs`).

A sink writes the whole journal into an envelope and commits it to the store of the caller; a later
process parses what is stored and takes the journal out again. The parser of JSON is a parameter of
the model: what is assumed of it is that it reads the text of a document as that document.

* `encodeEnvelope`, `recoverJournal` — the writer and the reader.
* `recover_envelope_iff` — an envelope is recovered exactly when its journal is not too long and its
  entries are readable.
* `CheckpointJournalSink` — the sink, with all that it has handed to the store.
* `CheckpointedRun.recovered_iff` — which commits of a run are recovered.
-/

import Semaprax.LiveInvocation.Offering

namespace Semaprax.LiveInvocation

open Library

/-- The schema tag of the envelope. -/
def persistedJournalSchema : String := "semaprax.live-invocation.persisted-journal.v1"

def envelopeKeys : List String := ["schema", "invocation", "generation", "chain", "entries"]

section Envelopes

variable (sha256 : Bytes → Bytes)

def encodeEnvelope (invocation : String) (generation : Nat) (journal : Journal) : String :=
  "\x7b\"schema\":" ++ quoteJson persistedJournalSchema ++ ",\"invocation\":" ++
    quoteJson invocation ++ ",\"generation\":" ++ toString generation ++ ",\"chain\":" ++
    quoteJson (chain sha256 journal) ++ ",\"entries\":" ++ trimEnd (render journal) ++ "\x7d\n"

def envelopeValue (invocation : String) (generation : Nat) (journal : Journal) : Value :=
  .object [("schema", .string persistedJournalSchema), ("invocation", .string invocation),
    ("generation", .integer generation), ("chain", .string (chain sha256 journal)),
    ("entries", journalValue journal)]

end Envelopes

/-- A rejection of an envelope. -/
inductive RecoveryError
  | malformed
  | schemaMismatch
  | invocationMismatch
  | journal
  | chainMismatch
deriving DecidableEq, Repr

/-- A recovered document. -/
structure RecoveredJournal where
  entries : Journal
  generation : Nat
deriving DecidableEq, Repr

/-- What is there, or a rejection. -/
def okOr {X A : Type} (error : X) : Option A → Except X A
  | some value => .ok value
  | none => .error error

/-- Go on under a condition, or reject. -/
def insist {X : Type} (condition : Prop) [Decidable condition] (error : X) : Except X Unit :=
  if condition then .ok () else .error error

variable {X B : Type} {condition : Prop}

theorem okOr_eq_ok {X A : Type} {error : X} {found : Option A} {value : A} :
    okOr error found = .ok value ↔ found = some value := by
  cases found with
  | none => exact ⟨fun same => (by cases same), fun same => (by cases same)⟩
  | some other =>
    exact ⟨fun same => congrArg some (Except.ok.inj same),
      fun same => congrArg Except.ok (Option.some.inj same)⟩

theorem okOr_bind {A : Type} {error : X} {found : Option A} {value : A}
    {rest : A → Except X B} (here : found = some value) :
    (okOr error found >>= rest) = rest value := by
  rw [here]
  rfl

theorem insist_eq_ok [Decidable condition] {error : X} {done : Unit} :
    insist condition error = .ok done ↔ condition := by
  unfold insist
  by_cases holds : condition
  · rw [if_pos holds]
    exact iff_of_true rfl holds
  · rw [if_neg holds]
    exact iff_of_false (fun same => by cases same) holds

theorem insist_bind [Decidable condition] {error : X}
    {rest : Unit → Except X B} (holds : condition) :
    (insist condition error >>= rest) = rest () := by
  unfold insist
  rw [if_pos holds]
  rfl

def recoverJournal (sha256 : Bytes → Bytes) (parse : String → Option Value) (document : String)
    (identity : LiveInvocationId) : Except RecoveryError RecoveredJournal := do
  let value ← okOr .malformed (parse document)
  let object ← okOr .malformed value.asObject
  okOr .malformed (closed object envelopeKeys)
  insist (text object "schema" = some persistedJournalSchema) .schemaMismatch
  insist (text object "invocation" = some identity.digest) .invocationMismatch
  let generation ← okOr .malformed ((object.lookup "generation").bind Value.asU64)
  let claimedChain ← okOr .malformed (text object "chain")
  let entries ← okOr .journal ((object.lookup "entries").bind decode)
  insist (claimedChain = chain sha256 entries) .chainMismatch
  pure ⟨entries, generation⟩

section Recovery

variable {sha256 : Bytes → Bytes} {parse : String → Option Value} {identity : LiveInvocationId}
  {generation : Nat} {journal : Journal}

/-- **An envelope is recovered** exactly when its journal is not empty, not too long, and each of its
entries is readable. -/
theorem recover_envelope_iff {document : String} (fits : generation < 2 ^ 64)
    (reads : parse document = some (envelopeValue sha256 identity.digest generation journal)) :
    recoverJournal sha256 parse document identity = .ok ⟨journal, generation⟩ ↔ journal ≠ [] ∧
      journal.length ≤ maxJournalEntries ∧ ∀ entry ∈ journal, entry.Readable := by
  rw [← decode_value_iff]
  have numbered : (Value.integer generation).asU64 = some generation := by
    rw [asU64_natCast, if_pos fits]
  obtain ⟨object, same, shut, schema, named, generated, linked, listed⟩ :
      ∃ object, envelopeValue sha256 identity.digest generation journal = .object object ∧
        closed object envelopeKeys = some () ∧
        text object "schema" = some persistedJournalSchema ∧
        text object "invocation" = some identity.digest ∧
        object.lookup "generation" = some (.integer generation) ∧
        text object "chain" = some (chain sha256 journal) ∧
        object.lookup "entries" = some (journalValue journal) :=
    ⟨_, rfl, closed_keys rfl, by simp [text, Value.asStr],
      by simp [text, List.lookup_cons, Value.asStr], by simp [List.lookup_cons],
      by simp [text, List.lookup_cons, Value.asStr], by simp [List.lookup_cons]⟩
  have shape : recoverJournal sha256 parse document identity = (do
      let entries ← okOr .journal (decode (journalValue journal))
      insist (chain sha256 journal = chain sha256 entries) .chainMismatch
      pure ⟨entries, generation⟩) := by
    unfold recoverJournal
    rw [okOr_bind (reads.trans (congrArg some same)),
      okOr_bind (show (Value.object object).asObject = some object from rfl), okOr_bind shut,
      insist_bind schema, insist_bind named, generated, Option.bind_some, okOr_bind numbered,
      okOr_bind linked, listed, Option.bind_some]
  rw [shape]
  constructor
  · intro recovered
    obtain ⟨entries, decoded, recovered⟩ := bind_eq_ok.mp recovered
    obtain ⟨-, -, recovered⟩ := bind_eq_ok.mp recovered
    obtain rfl : entries = journal := congrArg RecoveredJournal.entries (Except.ok.inj recovered)
    exact okOr_eq_ok.mp decoded
  · intro decoded
    rw [okOr_bind decoded, insist_bind rfl]
    rfl

end Recovery

/-- The greatest `u64`. -/
def maxGeneration : Nat := 2 ^ 64 - 1

/-- What is handed to the store: the generation, the journal and its document. -/
structure Commit where
  generation : Nat
  journal : Journal
  document : String

/-- A store of the caller (`CheckpointStore::commit`), over an environment. -/
abbrev CheckpointStore (E : Type) := Nat → String → E → Persisted × E

/-- The sink: its generation, and all that it has handed to the store. -/
structure CheckpointJournalSink where
  generation : Nat
  commits : List Commit

section Sink

variable {E : Type} (sha256 : Bytes → Bytes) (invocation : String) (store : CheckpointStore E)

/-- Make a journal durable. The generation moves only if the store has taken the document. -/
def CheckpointJournalSink.persist (journal : Journal) (env : CheckpointJournalSink × E) :
    Persisted × CheckpointJournalSink × E :=
  let next := saturatingNext maxGeneration env.1.generation
  let document := encodeEnvelope sha256 invocation next journal
  let answer := store next document env.2
  let generation := if answer.1 = .durable then next else env.1.generation
  (answer.1, ⟨generation, env.1.commits ++ [⟨next, journal, document⟩]⟩, answer.2)

/-- What is known of the commits of a run: the journals are what it offers, in envelopes. -/
def CheckpointJournalSink.Kept (start : Journal) (sink : CheckpointJournalSink) : Prop :=
  ∀ commit ∈ sink.commits, commit.generation < 2 ^ 64 ∧ commit.journal ≠ [] ∧
    Made start commit.journal ∧
      commit.document = encodeEnvelope sha256 invocation commit.generation commit.journal

theorem persist_kept {start journal : Journal} (nonempty : journal ≠ [])
    (made : Made start journal) :
    Leaves (fun env => CheckpointJournalSink.Kept sha256 invocation start env.1)
      (CheckpointJournalSink.persist sha256 invocation store journal) := by
  intro env kept commit member
  rcases List.mem_append.mp member with old | new
  · exact kept commit old
  · obtain rfl := List.mem_singleton.mp new
    refine ⟨?_, nonempty, made, rfl⟩
    have bound : saturatingNext maxGeneration env.1.generation ≤ maxGeneration := min_le_right _ _
    have most : maxGeneration < 2 ^ 64 := by norm_num [maxGeneration]
    exact bound.trans_lt most

end Sink

/-- A run whose sink commits to a store: its configuration, its handlers, the store, the journal that
it goes on from with its generation, and where it starts. -/
structure CheckpointedRun (E : Type) where
  config : LiveInvocationConfig
  handlers : LiveInvocationHandlers E
  store : CheckpointStore E
  start : Journal
  generation : Nat
  env : E

section Runs

variable {E : Type} (sha256 : Bytes → Bytes)

def CheckpointedRun.call (run : CheckpointedRun E) : KernelCall (CheckpointJournalSink × E) where
  sha256 := sha256
  config := run.config
  handlers := sinkHandlers run.handlers
    (CheckpointJournalSink.persist sha256 run.config.identity.digest run.store)

/-- What a run has committed, wherever it ends. -/
def CheckpointedRun.commits (run : CheckpointedRun E) : List Commit :=
  ((run.call sha256).runLiveInvocation run.start
    ⟨(⟨run.generation, []⟩, run.env), []⟩).2.env.1.commits

/-- A journal can be recovered if it is not too long, if what the run went on from is readable, and if
the digests of its grants are such. -/
def Recoverable (start journal : Journal) : Prop :=
  journal.length ≤ maxJournalEntries ∧ (∀ entry ∈ journal, entry ∈ start → entry.Readable) ∧
    ∀ turn grant, JournalEntry.authorizationConsumed turn grant ∈ journal →
      looksLikeDigest grant = true

variable {sha256}

/-- Of a journal that a run offers, the entries are readable if the rest of `Recoverable` holds. -/
theorem Made.recoverable_iff {start journal : Journal} (made : Made start journal) :
    Recoverable start journal ↔ journal.length ≤ maxJournalEntries ∧
      ∀ entry ∈ journal, entry.Readable := by
  refine and_congr_right fun _ => ⟨fun ⟨old, granted⟩ entry member => ?_, fun readable =>
    ⟨fun entry member _ => readable entry member, fun turn grant member => ?_⟩⟩
  · rcases made entry member with here | written
    · exact old entry member here
    · refine written.readable_iff.mpr ?_
      rintro turn grant rfl
      exact granted turn grant member
  · exact (readable _ member).digests grant (List.mem_singleton_self grant)

theorem CheckpointedRun.kept (run : CheckpointedRun E)
    (hashes : ∀ bytes, (sha256 bytes).length = 32)
    (named : looksLikeDigest run.config.identity.digest = true) :
    CheckpointJournalSink.Kept sha256 run.config.identity.digest run.start
      ⟨run.generation, run.commits sha256⟩ := by
  have upholds : Upholds run.start
      (fun env => CheckpointJournalSink.Kept sha256 run.config.identity.digest run.start env.1)
      (run.call sha256).handlers :=
    sinkHandlers_upholds run.handlers fun journal nonempty made =>
      persist_kept sha256 run.config.identity.digest run.store nonempty made
  exact (runLiveInvocation_upholds upholds hashes named).after
    (List.forall_mem_nil _)

/-- **What a run commits is recovered** exactly as it was committed, if and only if its journal is not
too long, what the run went on from is readable, and the digests of its grants are such. -/
theorem CheckpointedRun.recovered_iff (run : CheckpointedRun E)
    (hashes : ∀ bytes, (sha256 bytes).length = 32)
    (named : looksLikeDigest run.config.identity.digest = true) {commit : Commit}
    (member : commit ∈ run.commits sha256) {parse : String → Option Value}
    (reads : parse commit.document = some (envelopeValue sha256 run.config.identity.digest
      commit.generation commit.journal)) :
    recoverJournal sha256 parse commit.document run.config.identity =
        .ok ⟨commit.journal, commit.generation⟩ ↔ Recoverable run.start commit.journal := by
  obtain ⟨fits, nonempty, made, -⟩ := run.kept hashes named commit member
  rw [recover_envelope_iff fits reads, made.recoverable_iff, and_iff_right nonempty]

end Runs

end Semaprax.LiveInvocation
