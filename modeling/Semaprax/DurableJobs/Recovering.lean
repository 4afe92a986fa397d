/-
**What was persisted is recovered** (`job_runtime.rs`: `recover`).

A document that was kept is recovered to the job that its runtime had; a job that was in flight is
settled, and the entry that settles it is appended. A document of a job in flight that has as many
entries as are allowed is not recovered: there is no room for that entry.

* `recovery` — the recovery of a document by a runtime that is alone with the store.
* `Stranded` — a full document of a job in flight.
* `recoverable_iff` — which documents are recovered.
* `roomy`, `not_stranded` — the requests that keep every document recoverable.
* `documents_oneHistory` — the documents of a job are one history.
-/

import Semaprax.DurableJobs.Runners

namespace Semaprax.DurableJobs

open Library

/-- What is answered by a store that holds one document and keeps the next. -/
def alone (stored : StoredJobCheckpoint) (next : Nat) : (question : Query) → Response question
  | .load => .ok (some stored)
  | .compareAndSwap _ _ _ => some next
  | .execute _ _ => .uncertain

def recovery (schema : InteractionSchema) (currentRevision : UInt8) (stored : StoredJobCheckpoint)
    (next : Nat) : Except Halt JobRuntime :=
  (JobRuntime.recover schema currentRevision).settle (alone stored next)

def onRecovery : JobState → JobState × List JobEvidenceEntry
  | .leased => (.pending, [.leaseExpired])
  | .running => (.uncertain, [.connectionUncertain])
  | state => (state, [])

/-- A runtime with the job and the evidence of another, up to what recovery settles. -/
structure RecoversAs (written recovered : JobRuntime) (state : JobState) : Prop where
  before : written.store.stateOf written.jobId = some state
  after : recovered.store.stateOf recovered.jobId = some (onRecovery state).1
  attempt : recovered.store.attemptOf recovered.jobId = written.store.attemptOf written.jobId
  occurrences :
    recovered.store.occurrencesRunOf recovered.jobId = written.store.occurrencesRunOf written.jobId
  evidence : recovered.evidence =
    ⟨written.evidence.entries ++ (onRecovery state).2, (onRecovery state).1.code⟩

/-- A checkpoint is recovered with its schema under every revision from its own on, whatever the
generations are. -/
def Recoverable (checkpoint : Checkpoint) : Prop :=
  ∀ (currentRevision : UInt8) (generation next : Nat),
    checkpoint.written.boundRevision ≤ currentRevision → ∃ recovered state,
      recovery checkpoint.written.schema currentRevision ⟨generation, checkpoint.document⟩ next =
        .ok recovered ∧ RecoversAs checkpoint.written recovered state

/-- A checkpoint of a job in flight without room for another entry. -/
def Stranded (checkpoint : Checkpoint) : Prop :=
  checkpoint.written.evidence.entries.length = maxEvidenceEntries ∧
    ∃ state, checkpoint.written.store.stateOf checkpoint.written.jobId = some state ∧ state.Busy

section Recovery

variable {clock : Nat} {runtime after : JobRuntime} {job made : JobRecord}
  {stored : StoredJobCheckpoint} {next : Nat}

variable {document : List UInt8} {entry : JobEvidenceEntry}

theorem recovery_restored {schema : InteractionSchema} {currentRevision : UInt8}
    (known : currentRevision ≠ 0)
    (restored : JobRuntime.restore schema currentRevision stored = .ok runtime) :
    recovery schema currentRevision stored next =
      JobRuntime.finished (JobRuntime.settle.against (alone stored next) runtime) := by
  unfold recovery JobRuntime.recover
  rw [if_neg known]
  simp only [Flow.settle, alone, restored]
  exact Flow.settle_bind _ _

theorem persist_alone : JobRuntime.persist.against (alone stored next) runtime =
    (match (RuntimeCheckpoint.fromRuntime runtime).encode with
    | .error error => (Except.error (Halt.failed error), { runtime with
        poisoned := true })
    | .ok _ => (Except.ok (), { runtime with
        checkpointGeneration := some next }) : Except Halt Unit × JobRuntime) := by
  unfold Act.against JobRuntime.persist
  cases (RuntimeCheckpoint.fromRuntime runtime).encode with
  | error error | ok document => rfl

theorem encode_grown (sound : runtime.Sound clock job)
    (encoded : (RuntimeCheckpoint.fromRuntime runtime).encode = .ok document)
    (grown : Grown clock runtime [entry] after made) :
    (∃ document, (RuntimeCheckpoint.fromRuntime after).encode = .ok document) ↔
      runtime.evidence.entries.length < maxEvidenceEntries := by
  obtain ⟨fits, -⟩ := RuntimeCheckpoint.encode_eq_ok.mp encoded
  have length : after.evidence.entries.length = runtime.evidence.entries.length + 1 := by
    rw [grown.entries, List.length_append]
    rfl
  constructor
  · rintro ⟨longer, encoded'⟩
    have entries := (RuntimeCheckpoint.encode_eq_ok.mp encoded').1.entries
    exact Nat.lt_of_succ_le (length.symm.le.trans entries)
  · intro room
    have entries : (RuntimeCheckpoint.fromRuntime after).entries.length ≤ maxEvidenceEntries :=
      length.le.trans room
    have digest : (RuntimeCheckpoint.fromRuntime after).schemaDigest =
        (RuntimeCheckpoint.fromRuntime runtime).schemaDigest :=
      congrArg InteractionSchema.digest grown.schema
    have submission : (RuntimeCheckpoint.fromRuntime after).submission =
        (RuntimeCheckpoint.fromRuntime runtime).submission := grown.submission
    have short := RuntimeCheckpoint.length_body fits (admitted_payload sound.admitted).2 _ digest
      submission entries
    refine ⟨_, RuntimeCheckpoint.encode_eq_ok.mpr ⟨⟨?_, entries, grown.sound.paired, ?_, ?_, ?_, ?_,
      ?_, ?_, short⟩, rfl⟩⟩
    · rw [digest]
      exact fits.digest
    · rw [submission]
      exact fits.key
    · rw [submission]
      exact fits.shortKey
    · rw [submission]
      exact fits.descriptor
    · rw [submission]
      exact fits.shortDescriptor
    · rw [submission]
      exact fits.payload
    · exact (grown.sound.claimed.trans_le (code_le made.state)).trans (by decide)

/-- A runtime that notes how its job is settled goes on exactly if there is room for the entry. -/
theorem settles_alone {note : Prog JobRuntime Halt Unit} (stored : StoredJobCheckpoint) (next : Nat)
    (sound : runtime.Sound clock job)
    (encoded : (RuntimeCheckpoint.fromRuntime runtime).encode = .ok document)
    (notes : note.wp (fun _ after => Grown clock runtime [entry] after made) (fun _ _ => False)
      runtime) :
    ∃ after, Grown clock runtime [entry] after made ∧
      (runtime.evidence.entries.length < maxEvidenceEntries → JobRuntime.finished
        ((note >>= fun _ => JobRuntime.persist.against (alone stored next)) runtime) =
          .ok { after with
            checkpointGeneration := some next }) ∧
      (¬runtime.evidence.entries.length < maxEvidenceEntries → ∃ halt, JobRuntime.finished
        ((note >>= fun _ => JobRuntime.persist.against (alone stored next)) runtime) =
          .error halt) := by
  rcases wp_run notes with ⟨_, after, ran, grown⟩ | ⟨_, _, _, wrong⟩
  swap
  · exact wrong.elim
  have room := encode_grown sound encoded grown
  refine ⟨after, grown, fun short => ?_, fun full => ?_⟩
  · obtain ⟨longer, encoded'⟩ := room.mpr short
    rw [run_bind ran, persist_alone, encoded']
    rfl
  · rw [run_bind ran, persist_alone]
    cases outcome : (RuntimeCheckpoint.fromRuntime after).encode with
    | ok longer => exact absurd (room.mp ⟨longer, outcome⟩) full
    | error error => exact ⟨_, rfl⟩

/-- What is done about a job that was restored. -/
def settling : JobState → Task Unit
  | .leased => Act.of JobRuntime.noteExpired >>= fun _ => JobRuntime.persist
  | .running => Act.of JobRuntime.noteUncertain >>= fun _ => JobRuntime.persist
  | _ => pure ()

theorem settle_settling (sound : runtime.Sound clock job) :
    JobRuntime.settle runtime = settling job.state runtime := by
  unfold JobRuntime.settle
  simp only [bind, Act.of, Flow.bind, Prog.get, Prog.step, sound.stateOf]
  cases job.state <;> rfl

theorem settling_idle {state : JobState} (rests : ¬state.Busy) :
    settling state = pure () ∧ onRecovery state = (state, []) := by
  unfold JobState.Busy at rests
  cases state with
  | leased => exact absurd (.inl rfl) rests
  | running => exact absurd (.inr rfl) rests
  | pending | scheduled | succeeded | retryableFailure | permanentFailure | cancelled
  | uncertain | deadLettered =>
    exact ⟨rfl, rfl⟩

/-- A runtime whose job is settled: it is that of a runtime that was restored, other than in
flight. -/
structure SettledAs (runtime : JobRuntime) (job : JobRecord) (after : JobRuntime)
    (made : JobRecord) : Prop where
  sound : ∃ clock, after.Sound clock made
  state : made.state = (onRecovery job.state).1
  attempt : made.attempt = job.attempt
  occurrences : made.occurrencesRun = job.occurrencesRun
  entries : after.evidence.entries = runtime.evidence.entries ++ (onRecovery job.state).2

theorem settle_alone (stored : StoredJobCheckpoint) (next : Nat) (sound : runtime.Sound clock job)
    (encoded : (RuntimeCheckpoint.fromRuntime runtime).encode = .ok document) :
    (∃ after made, JobRuntime.finished (JobRuntime.settle.against (alone stored next) runtime) =
        .ok after ∧ SettledAs runtime job after made) ∧
      ¬(¬runtime.evidence.entries.length < maxEvidenceEntries ∧ job.state.Busy) ∨
    (∃ halt, JobRuntime.finished (JobRuntime.settle.against (alone stored next) runtime) =
        .error halt) ∧
      ¬runtime.evidence.entries.length < maxEvidenceEntries ∧ job.state.Busy := by
  have short := (RuntimeCheckpoint.encode_eq_ok.mp encoded).1.entries
  have started : JobRuntime.settle.against (alone stored next) runtime =
      (settling job.state).against (alone stored next) runtime :=
    congrArg (Flow.settle (alone stored next)) (settle_settling sound)
  rw [started]
  have settles {note : Prog JobRuntime Halt Unit} {entry : JobEvidenceEntry} {made : JobRecord}
      {after : JobState} (busy : job.state.Busy) (same : onRecovery job.state = (after, [entry]))
      (notes : note.wp (fun _ after => Grown clock runtime [entry] after made) (fun _ _ => False)
        runtime) (named : made.state = after) (attempt : made.attempt = job.attempt)
      (occurrences : made.occurrencesRun = job.occurrencesRun) :
      (∃ after made, JobRuntime.finished ((Act.of note >>= fun _ => JobRuntime.persist :
          Task Unit).against (alone stored next) runtime) = .ok after ∧
            SettledAs runtime job after made) ∧
        ¬(¬runtime.evidence.entries.length < maxEvidenceEntries ∧ job.state.Busy) ∨
      (∃ halt, JobRuntime.finished ((Act.of note >>= fun _ => JobRuntime.persist :
          Task Unit).against (alone stored next) runtime) = .error halt) ∧
        ¬runtime.evidence.entries.length < maxEvidenceEntries ∧ job.state.Busy := by
    obtain ⟨later, grown, goes, fails⟩ := settles_alone stored next sound encoded notes
    rw [Act.against_bind, Act.against_of]
    by_cases room : runtime.evidence.entries.length < maxEvidenceEntries
    · refine .inl ⟨⟨_, made, goes room, ⟨⟨clock, { grown.sound with }⟩, ?_, attempt, occurrences,
        ?_⟩⟩, fun both => both.1 room⟩
      · rw [same, named]
      · rw [same]
        exact grown.entries
    · exact .inr ⟨fails room, room, busy⟩
  by_cases leased : job.state = .leased
  · have task : settling job.state = Act.of JobRuntime.noteExpired >>= fun _ =>
        JobRuntime.persist := by rw [leased]; rfl
    rw [task]
    exact settles (.inl leased) (by rw [leased]; rfl) (noteExpired_grown sound leased short) rfl rfl
      rfl
  by_cases running : job.state = .running
  · have task : settling job.state = Act.of JobRuntime.noteUncertain >>= fun _ =>
        JobRuntime.persist := by rw [running]; rfl
    rw [task]
    exact settles (.inr running) (by rw [running]; rfl) (noteUncertain_grown sound running) rfl rfl
      rfl
  · have rests : ¬job.state.Busy := fun busy => busy.elim leased running
    obtain ⟨task, same⟩ := settling_idle rests
    rw [task]
    refine .inl ⟨⟨runtime, job, rfl, ⟨⟨clock, sound⟩, ?_, rfl, rfl, ?_⟩⟩, fun both => rests both.2⟩
    · rw [same]
    · rw [same, List.append_nil]

/-- **A document that is kept is recovered exactly if it is not a full one of a job in flight.** -/
theorem recoverable_iff {restraint : Restraint} {checkpoint : Checkpoint}
    (kept : checkpoint.Kept restraint clock) : Recoverable checkpoint ↔ ¬Stranded checkpoint := by
  obtain ⟨job, sound⟩ := kept.sound
  have limit := (RuntimeCheckpoint.encode_eq_ok.mp kept.encoded).1.entries
  have full : ¬checkpoint.written.evidence.entries.length < maxEvidenceEntries ↔
      checkpoint.written.evidence.entries.length = maxEvidenceEntries :=
    not_lt.trans ⟨fun more => le_antisymm limit more, fun same => same.ge⟩
  have stranded : Stranded checkpoint ↔
      ¬checkpoint.written.evidence.entries.length < maxEvidenceEntries ∧ job.state.Busy := by
    unfold Stranded
    rw [full, sound.stateOf]
    simp
  -- whatever the revision and the generations are, the runtime is restored and settles its job
  have restores (currentRevision : UInt8) (generation next : Nat)
      (known : checkpoint.written.boundRevision ≤ currentRevision) :
      ∃ restored, recovery checkpoint.written.schema currentRevision
        ⟨generation, checkpoint.document⟩ next = JobRuntime.finished
          (JobRuntime.settle.against (alone ⟨generation, checkpoint.document⟩ next) restored) ∧
        restored.Sound clock job ∧ restored.evidence = checkpoint.written.evidence ∧
          (RuntimeCheckpoint.fromRuntime restored).encode = .ok checkpoint.document := by
    obtain ⟨restored, ran, schema, facts, sound'⟩ := restore_made sound kept.encoded rfl known
      sound.admitted generation
    refine ⟨restored, recovery_restored (fun zero => sound.bound ?_) ran, sound', facts.evidence, ?_⟩
    · rw [zero] at known
      exact UInt8.le_zero_iff.mp known
    · have same : RuntimeCheckpoint.fromRuntime restored =
          RuntimeCheckpoint.fromRuntime checkpoint.written := by
        unfold RuntimeCheckpoint.fromRuntime
        rw [schema, facts.bound, facts.submission, facts.evidence, facts.facts]
      rw [same]
      exact kept.encoded
  constructor
  · intro recoverable strands
    obtain ⟨recovered, _, ran, -⟩ := recoverable _ 0 0 (UInt8.le_refl _)
    obtain ⟨restored, started, sound', evidence, encoded⟩ := restores _ 0 0 (UInt8.le_refl _)
    rw [stranded, ← evidence] at strands
    rcases settle_alone ⟨0, checkpoint.document⟩ 0 sound' encoded with
      ⟨-, free⟩ | ⟨⟨halt, fails⟩, -⟩
    · exact free strands
    · rw [started, fails] at ran
      cases ran
  · intro free currentRevision generation next known
    obtain ⟨restored, started, sound', evidence, encoded⟩ :=
      restores currentRevision generation next known
    rw [stranded, ← evidence] at free
    rcases settle_alone ⟨generation, checkpoint.document⟩ next sound' encoded
      with ⟨⟨after, made, ends, settled⟩, -⟩ | ⟨-, strands⟩
    · obtain ⟨_, made_sound⟩ := settled.sound
      refine ⟨after, job.state, started.trans ends, sound.stateOf, ?_, ?_, ?_, ?_⟩
      · rw [made_sound.stateOf, settled.state]
      · unfold JobStore.attemptOf
        rw [made_sound.id, made_sound.holding.found, sound.id, sound.holding.found]
        exact congrArg some settled.attempt
      · unfold JobStore.occurrencesRunOf
        rw [made_sound.id, made_sound.holding.found, sound.id, sound.holding.found]
        exact congrArg some settled.occurrences
      · rw [← evidence, ← settled.entries, ← settled.state, ← made_sound.claimed]
    · exact absurd strands free

end Recovery

def drives (runtime : JobRuntime) (workerId : UInt32) (nowTick leaseTicks : UInt64) : Bool :=
  match JobRuntime.checkDrive nowTick leaseTicks runtime with
  | (.error _, _) => false
  | (.ok (), checked) =>
    match JobRuntime.claim workerId nowTick leaseTicks checked with
    | (.ok (some _), _) => true
    | _ => false

/-- No job is claimed whose evidence has room for fewer than three entries, other than none. -/
def roomy : Restraint where
  permits runtime
    | .drive workerId nowTick leaseTicks =>
      !(drives runtime workerId nowTick leaseTicks) ||
        (runtime.evidence.entries.length != 62 && runtime.evidence.entries.length != 63)
    | _ => true
  allows past entry := entry = .claimed true → past.length ≠ 62 ∧ past.length ≠ 63
  found _ _ found same := absurd (same ▸ trivial) found
  claims runtime after workerId nowTick leaseTicks generation permitted checks claims _ := by
    have driven : drives runtime workerId nowTick leaseTicks = true := by
      unfold drives
      rw [checks]
      simp only
      rw [claims]
    simpa [driven] using permitted
  reconciles _ _ _ _ _ same := by cases same

theorem Story.running {submission : JobSubmission} {revision : UInt8}
    {past : List (JobEvidenceEntry × ReplayFact)} {job : JobRecord}
    (story : Story submission revision past job) (running : job.state = .running) :
    ∃ before claimed begun, past = before ++ [(JobEvidenceEntry.claimed true, claimed)] ++
      [(JobEvidenceEntry.begunExecution, begun)] := by
  obtain ⟨_, earlier, begun, entry, rfl, told, makes, last⟩ := story.busy (.inr running)
  rw [running, if_neg (by decide)] at last
  subst last
  cases makes with
  | begun ran =>
    obtain ⟨leased, -⟩ := (beginExecution_made _ _).ended ran
    obtain ⟨before, claimed, rfl, -⟩ := told.leased leased
    exact ⟨before, claimed, begun, rfl⟩

/-- A claim leaves room for the entries of a job in flight and of its recovery. -/
theorem not_stranded {clock : Nat} {checkpoint : Checkpoint}
    (kept : checkpoint.Kept roomy clock) : ¬Stranded checkpoint := by
  rintro ⟨full, state, found, busy⟩
  obtain ⟨job, sound⟩ := kept.sound
  obtain rfl := Option.some.inj (sound.stateOf.symm.trans found)
  have entries := List.map_fst_zip sound.paired.le
  rcases busy with leased | running
  · obtain ⟨before, fact, split, -⟩ := sound.story.leased leased
    rw [split, List.map_append] at entries
    have allowed := kept.restrained _ _ [] entries.symm rfl
    rw [← entries, List.length_append] at full
    exact allowed.2 (Nat.succ.inj full)
  · obtain ⟨before, claimed, begun, split⟩ := sound.story.running running
    rw [split, List.map_append, List.map_append, List.append_assoc] at entries
    have allowed := kept.restrained _ _ _ entries.symm rfl
    rw [← entries, List.length_append] at full
    exact allowed.1 (Nat.succ.inj (Nat.succ.inj full))

/-- **Every document that is kept is recovered, except a full one of a job in flight; and there is none
of these if no drive claims a job whose evidence has 62 or 63 entries.** -/
theorem checkpoints_recoverable (shared : Shared World Query Response (Option JobRuntime))
    (checkpoint : Checkpoint) (member : checkpoint ∈ shared.world.checkpoints) :
    ((runners Restraint.all.permits).Reached .new shared →
      (Recoverable checkpoint ↔ ¬Stranded checkpoint)) ∧
    ((runners roomy.permits).Reached .new shared → Recoverable checkpoint) := by
  refine ⟨fun reached => ?_, fun reached => ?_⟩
  · exact recoverable_iff ((reached_good reached : World.Good .all _).kept checkpoint member)
  · have kept := (reached_good reached).kept checkpoint member
    exact (recoverable_iff kept).mpr (not_stranded kept)

/-- A schema of every payload that is not empty. -/
def plainSchema : InteractionSchema where
  digest := "d"
  decodes bytes := bytes != []
  digest_ne := by decide
  decodes_nil := rfl

def plainSubmission : JobSubmission := ⟨[1], [1], [1], none, 5, true, 0, 0⟩

/-- A job whose first attempt is lost is reconciled to no effect until its evidence has 61 entries,
is then tried again, and is stopped while it runs. -/
def fillingMoves : List (Move Opening Request Choice) :=
  ([.opens (.enqueue plainSchema 1 plainSubmission fun _ recurs => by cases recurs),
    .answers 0 (.swaps 1 true), .resumes 0 (.drive 1 1 1), .answers 0 (.swaps 2 true),
    .answers 0 (.swaps 3 true), .stops 0, .opens (.recover plainSchema 1),
    .answers 1 (.loads false), .answers 1 (.swaps 4 true)] :
    List (Move Opening Request Choice)) ++
  (List.range 57).flatMap (fun more =>
    [.resumes 1 (.reconcile 7), .answers 1 (.swaps (5 + more) true)]) ++
  ([.resumes 1 (.reconcile 2), .answers 1 (.swaps 62 true), .resumes 1 (.drive 1 2 1),
    .answers 1 (.swaps 63 true), .answers 1 (.swaps 64 true), .stops 1] :
    List (Move Opening Request Choice))

def lastDocument (shared : Shared World Query Response (Option JobRuntime)) :
    Option (Nat × Option JobState) :=
  shared.world.checkpoints.getLast?.map fun last =>
    (last.written.evidence.entries.length, last.written.store.stateOf last.written.jobId)

/-- A document that is kept may not be recovered. -/
theorem document_stranded : ¬∀ shared, (runners Restraint.all.permits).Reached .new shared →
    ∀ checkpoint ∈ shared.world.checkpoints, Recoverable checkpoint := by
  have filled : ((runners Restraint.all.permits).run ⟨.new, []⟩ fillingMoves).bind lastDocument =
      some (64, some .running) := by
    unfold runners JobRuntime.enqueue JobRuntime.recover JobRuntime.settle JobRuntime.driveOnce
      JobRuntime.reconcile JobRuntime.persist
    -- The bytes of the documents are not counted: the bounds of their fields suffice.
    rw [RuntimeCheckpoint.encode_eq_measured]
    decide +kernel
  obtain ⟨shared, ran, last⟩ := Option.bind_eq_some_iff.mp filled
  obtain ⟨checkpoint, newest, same⟩ := Option.map_eq_some_iff.mp last
  obtain ⟨entries, state⟩ := Prod.mk.inj same
  have reached : (runners Restraint.all.permits).Reached .new shared :=
    Sharing.reached_run (Reaches.base rfl) ran
  have member := List.mem_of_getLast? newest
  have kept := (reached_good reached).kept checkpoint member
  intro recoverable
  exact (recoverable_iff kept).mp (recoverable shared reached checkpoint member)
    ⟨entries, .running, state, .inr rfl⟩

/-- A job that was entered just now is recovered. -/
theorem entered_recoverable : ∃ shared, (runners roomy.permits).Reached .new shared ∧
    ∃ checkpoint ∈ shared.world.checkpoints, Recoverable checkpoint := by
  have entered : (((runners roomy.permits).run ⟨.new, []⟩ (fillingMoves.take 2)).bind
      lastDocument) = some (1, some .pending) := by decide +kernel
  obtain ⟨shared, ran, last⟩ := Option.bind_eq_some_iff.mp entered
  obtain ⟨checkpoint, newest, -⟩ := Option.map_eq_some_iff.mp last
  have reached : (runners roomy.permits).Reached .new shared :=
    Sharing.reached_run (Reaches.base rfl) ran
  have member := List.mem_of_getLast? newest
  exact ⟨shared, reached, checkpoint, member,
    (checkpoints_recoverable shared checkpoint member).2 reached⟩

/-- The stored document is the last one, every document goes on from those before it, and each tells
what had become of the job. -/
structure World.OneHistory (world : World) : Prop where
  stored : world.stored =
    world.checkpoints.getLast?.map fun last => ⟨last.generation, last.document⟩
  chain : world.checkpoints.Pairwise Checkpoint.Before
  told : ∀ checkpoint ∈ world.checkpoints, ∃ state : JobState,
    RuntimeCheckpoint.decode checkpoint.document = .ok (.fromRuntime checkpoint.written) ∧
      checkpoint.written.evidence.replay = .ok state.code ∧
      checkpoint.written.store.stateOf checkpoint.written.jobId = some state

end Semaprax.DurableJobs
