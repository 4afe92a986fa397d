/-
**Evidence is replayed as it was made** (`job_runtime.rs`: `replay_store`).

A store with one job, and a ledger with its row, do what is asked of them as the record of the job
says; so the calls of a story can be made again.

* `Holding` — a store that holds one job; `onJob_holding`, `completeDurable_holding`, ….
* `replayEntry_makes`, `replayEntries_story` — the replay of a story leads to a store that holds the
  record it ends in.
* `Sound` — a runtime whose evidence is a story; `replayStore_sound`.
-/

import Semaprax.DurableJobs.Runtime
import Semaprax.DurableJobs.Transitions

namespace Semaprax.DurableJobs

open Library

/-- The store holds one job, which has one row in the ledger. -/
structure Holding (store : JobStore) (ledger : DatabaseFixture) (id : Nat) (job : JobRecord) :
    Prop where
  found : store.jobs[id]? = some job
  only : ∀ other, other ∈ store.jobs → other = id
  booked : ∃ rows, Posted store ledger rows ∧ rows.countP (fun row => row.id = id) = 1

section Holding

variable {store : JobStore} {ledger : DatabaseFixture} {id : Nat} {job after : JobRecord} {A : Type}

section Held

variable (holding : Holding store ledger id job)

include holding

theorem Holding.keys : store.jobs.keys = [id] := by
  have member : id ∈ store.jobs := Std.TreeMap.mem_iff_isSome_getElem?.mpr (by
    rw [holding.found]
    rfl)
  refine List.perm_singleton.mp ((List.perm_ext_iff_of_nodup (BTreeMap.nodup_keys _)
    (List.nodup_singleton id)).mpr fun other => ?_)
  rw [BTreeMap.mem_keys_iff, List.mem_singleton]
  exact ⟨holding.only other, fun same => same ▸ member⟩

theorem Holding.put (after : JobRecord) : Holding (store.put id after) ledger id after := by
  obtain ⟨rows, posted, once⟩ := holding.booked
  refine ⟨?_, fun other member => ?_, rows, ?_, once⟩
  · rw [put_jobs, if_pos rfl]
  · rcases (BTreeMap.mem_insert_iff store.jobs id other after).mp member with rfl | member
    · rfl
    · exact holding.only other member
  · exact ⟨posted.closed, posted.table, posted.distinct, posted.known⟩

theorem onJob_holding (call : Prog JobRecord Fault A) :
    JobStore.onJob id call store = ((call job).1, store.put id (call job).2) := by
  unfold JobStore.onJob
  rw [holding.found]

theorem expireStaleLeases_holding {nowTick : Nat}
    (ran : JobRecord.expire nowTick job = (.ok true, after)) :
    JobStore.expireStaleLeases nowTick store = (.ok [id], store.put id after) := by
  have one : JobStore.onJob id (JobRecord.expire nowTick) store = (.ok true, store.put id after) := by
    rw [onJob_holding holding, ran]
  show JobStore.expireListed nowTick store.jobs.keys store = _
  rw [holding.keys]
  show (JobStore.onJob id (JobRecord.expire nowTick) >>= _) store = _
  rw [run_bind one]
  rfl

theorem completeDurable_running {report : CompletionAttempt}
    (running : JobRecord.running report.leaseGeneration report.nowTick job = (.ok job, job)) :
    ∃ store' ledger', JobStore.completeDurable id report (store, ledger) =
      ((JobRecord.complete report job).1, store', ledger') ∧
        Holding store' ledger' id (JobRecord.complete report job).2 := by
  obtain ⟨rows, posted, once⟩ := holding.booked
  obtain ⟨ledger', recorded, posts⟩ : ∃ ledger',
      JobStore.recordInLedger id (job.settled report.outcome) ledger = (.ok (), ledger') ∧
        Posted store ledger' (rows.map (JobRow.update id (job.settled report.outcome).code)) := by
    rcases wp_run (recordInLedger_rows posted id (job.settled report.outcome)) with
      ⟨_, ledger', ran, -, posts⟩ | ⟨_, _, _, refused, -⟩
    · exact ⟨ledger', ran, posts⟩
    · exact absurd once refused
  have again : Holding (store.put id job) ledger' id job := by
    refine ⟨(holding.put job).found, (holding.put job).only, _, ⟨posts.closed, posts.table,
      posts.distinct, posts.known⟩, ?_⟩
    have counted (list : List JobRow) : list.countP (fun row => row.id = id) =
        (list.map JobRow.id).countP (· = id) := by
      rw [List.countP_map]
      rfl
    rw [counted, map_update_ids, ← counted]
    exact once
  refine ⟨(store.put id job).put id (JobRecord.complete report job).2, ledger', ?_, again.put _⟩
  unfold JobStore.completeDurable
  have first : Prog.onFirst (JobStore.onJob id
      (JobRecord.running report.leaseGeneration report.nowTick)) (store, ledger) =
        (.ok job, store.put id job, ledger) := by
    unfold Prog.onFirst
    rw [onJob_holding holding, running]
  rw [run_bind first]
  have second : (Prog.attempt (Prog.onSecond (JobStore.recordInLedger id
      (job.settled report.outcome))) : Prog _ Fault _) (store.put id job, ledger) =
        (.ok (some ()), store.put id job, ledger') := by
    unfold Prog.attempt Prog.onSecond
    rw [recorded]
    rfl
  refine (run_bind second).trans ?_
  show Prog.onFirst (JobStore.onJob id (JobRecord.complete report)) (store.put id job, ledger') = _
  unfold Prog.onFirst
  rw [onJob_holding again]

theorem completeDurable_holding (report : CompletionAttempt) {state : JobState}
    (ran : JobRecord.complete report job = (.ok state, after)) :
    ∃ store' ledger', JobStore.completeDurable id report (store, ledger) =
      (.ok state, store', ledger') ∧ Holding store' ledger' id after := by
  have running : JobRecord.running report.leaseGeneration report.nowTick job = (.ok job, job) := by
    obtain ⟨middle, between, first, -⟩ := run_bind_ok ran
    obtain ⟨rfl, rfl, -⟩ := (running_same _ _).ended first
    exact first
  have completed := completeDurable_running holding running
  rwa [ran] at completed

theorem completeDurable_made (report : CompletionAttempt) : (JobStore.completeDurable id report).wp
      (fun state books => ∃ after, JobRecord.complete report job = (.ok state, after) ∧
        Holding books.1 books.2 id after)
      (fun fault books => fault = .panicked ∨ Holding books.1 books.2 id job) (store, ledger) := by
  rcases wp_run (running_same report.leaseGeneration report.nowTick) with
    ⟨_, _, ran, rfl, rfl, -⟩ | ⟨fault, _, ran, rfl⟩
  · obtain ⟨store', ledger', completed, holds⟩ := completeDurable_running holding ran
    have panics : (JobRecord.complete report).wp (fun _ _ => True) (fun fault _ => fault = .panicked)
        job := by
      have goes := wp_self (JobRecord.running report.leaseGeneration report.nowTick) job
      unfold JobRecord.complete
      rw [wp_bind]
      refine wp_mono goes (fun found now same => ?_) fun fault now same => ?_
      · rw [wp_bind, wp_set]
        split_ifs
        · simp only [wp_bind, wp_set, wp_pure, wp_addU64]
          exact ⟨fun _ => trivial, fun _ => trivial⟩
        · trivial
      · rw [ran] at same
        cases same
    unfold Prog.wp
    rw [completed]
    rcases wp_run panics with ⟨state, later, ended, -⟩ | ⟨fault, later, ended, rfl⟩
    · rw [ended] at holds ⊢
      exact ⟨later, rfl, holds⟩
    · rw [ended] at holds ⊢
      exact .inl rfl
  · have first : Prog.onFirst (JobStore.onJob id
        (JobRecord.running report.leaseGeneration report.nowTick)) (store, ledger) =
          (.error fault, store.put id job, ledger) := by
      unfold Prog.onFirst
      rw [onJob_holding holding, ran]
    unfold Prog.wp JobStore.completeDurable
    rw [run_bind_stop first]
    exact .inr (holding.put job)

end Held

theorem enqueued_made (revision : UInt8) (submission : JobSubmission) :
    ∃ store ledger, enqueued revision submission = (.ok (.created 1), store, ledger) ∧
      Holding store ledger 1 (submission.fresh revision) := by
  have empty (id : Nat) : (JobStore.new revision.toNat).jobs[id]? = none := rfl
  rcases wp_run (enqueue_rows (installed_posted revision.toNat) (by decide : (1 : Nat) < maxU64)
    submission.idempotencyKey submission.payloadDescriptor submission.schedule
    submission.maxAttempts.toNat submission.isIdempotentHandler) with
    ⟨outcome, ⟨store, ledger⟩, ran, entered⟩ | ⟨_, _, _, wrong⟩
  · rcases entered with ⟨⟨id, job, found, -⟩, -⟩ | ⟨-, created, stored, posts⟩
    · rw [empty id] at found
      cases found
    · obtain rfl : store = _ := stored
      refine ⟨_, ledger, created ▸ ran, ?_, fun other member => ?_, _, posts,
        List.countP_singleton.trans rfl⟩
      · rw [put_jobs]
        exact if_pos rfl
      · rcases (BTreeMap.mem_insert_iff _ _ other _).mp member with same | member
        · exact same.symm
        · rw [Std.TreeMap.mem_iff_isSome_getElem?, empty other] at member
          cases member
  · exact wrong.elim

end Holding

theorem currentLease_presents {job : JobRecord} (generation nowTick : Nat) :
    (JobRecord.currentLease generation nowTick).wp
      (fun lease after => after = job ∧ job.lease = some lease ∧ lease.leaseGeneration = generation)
      (fun _ after => after = job) job := by
  unfold JobRecord.currentLease
  simp only [wp_bind, wp_get, wp_stopIf, wp_ofOption, wp_pure]
  refine ⟨fun _ => trivial, fun lease leased => ⟨fun _ => trivial, fun current => ?_⟩⟩
  have presented : leaseIsCurrent generation lease.leaseGeneration nowTick lease.deadlineTick =
      true := by simpa using current
  unfold leaseIsCurrent at presented
  exact ⟨trivial, leased, (of_decide_eq_true presented).1.symm⟩

theorem beginExecution_presents {job : JobRecord} (generation nowTick : Nat) :
    (JobRecord.beginExecution generation nowTick).wp
      (fun _ _ => ∃ lease, job.lease = some lease ∧ lease.leaseGeneration = generation)
      (fun _ _ => True) job := by
  unfold JobRecord.beginExecution
  simp only [wp_bind, wp_get, wp_stopIf]
  refine ⟨fun _ => trivial, fun _ => ?_⟩
  exact wp_mono (currentLease_presents generation nowTick)
    (fun lease after current => ⟨lease, current.2⟩) fun _ _ _ => trivial

theorem complete_presents {job : JobRecord} (report : CompletionAttempt) :
    (JobRecord.complete report).wp
      (fun _ _ => ∃ lease, job.lease = some lease ∧ lease.leaseGeneration = report.leaseGeneration)
      (fun _ _ => True) job := by
  have found : (JobRecord.running report.leaseGeneration report.nowTick).wp
      (fun _ _ => ∃ lease, job.lease = some lease ∧ lease.leaseGeneration = report.leaseGeneration)
      (fun _ _ => True) job := by
    unfold JobRecord.running
    simp only [wp_bind, wp_get, wp_stopIf]
    refine ⟨fun _ => trivial, fun _ => ?_⟩
    exact wp_mono (currentLease_presents _ _)
      (fun lease after current => ⟨lease, current.2⟩) fun _ _ _ => trivial
  unfold JobRecord.complete
  rw [wp_bind]
  exact wp_mono found (fun _ _ presented => wp_of_forall _ (fun _ _ => presented)
    fun _ _ => trivial) fun _ _ _ => trivial

/-- What was rebuilt of a job: its record, and the generation of its lease. -/
structure Rebuilt (replaying : Replaying) (job : JobRecord) : Prop where
  holding : Holding replaying.store replaying.ledger 1 job
  linked : ∀ lease, job.lease = some lease →
    replaying.leaseGeneration = some lease.leaseGeneration

section Replay

variable {replaying : Replaying} {job after : JobRecord} {submission : JobSubmission}
  {fact : ReplayFact} {entry : JobEvidenceEntry} {entries : Nat} {A : Type}

variable {past : List (JobEvidenceEntry × ReplayFact)}

theorem Rebuilt.onJob (rebuilt : Rebuilt replaying job) {call : Prog JobRecord Fault A} {value : A}
    (ran : call job = (.ok value, after)) : Replaying.onStore (JobStore.onJob 1 call) replaying =
      (.ok value, { replaying with
        store := replaying.store.put 1 after }) := by
  unfold Replaying.onStore
  rw [onJob_holding rebuilt.holding, ran]
  rfl

theorem Rebuilt.put (rebuilt : Rebuilt replaying job)
    (lease : after.lease = job.lease ∨ after.lease = none) :
    Rebuilt { replaying with
      store := replaying.store.put 1 after } after := by
  refine ⟨rebuilt.holding.put after, fun held leased => ?_⟩
  rcases lease with same | free
  · exact rebuilt.linked held (same ▸ leased)
  · rw [free] at leased
    cases leased

theorem expect_run {holds : JobStore → Bool} (true_here : holds replaying.store = true) :
    Replaying.expect holds replaying = (.ok (), replaying) := by
  unfold Replaying.expect
  show stopIf _ _ replaying = _
  rw [true_here]
  rfl

theorem Rebuilt.generation (rebuilt : Rebuilt replaying job) {generation : Nat}
    (presented : ∃ lease, job.lease = some lease ∧ lease.leaseGeneration = generation) :
    Replaying.heldGeneration replaying = (.ok generation, replaying) := by
  obtain ⟨lease, leased, rfl⟩ := presented
  unfold Replaying.heldGeneration
  show ofOption _ replaying.leaseGeneration replaying = _
  rw [rebuilt.linked lease leased]
  rfl

theorem Rebuilt.attempt (rebuilt : Rebuilt replaying job) :
    attemptOf replaying.store 1 = some (UInt8.ofNat job.attempt) := by
  unfold attemptOf JobStore.attemptOf
  rw [rebuilt.holding.found]
  rfl

theorem reconciled_lease (job : JobRecord) (decision : Nat) :
    (job.reconciled decision).lease = job.lease := by
  unfold JobRecord.reconciled
  split
  · rfl
  · rfl
  · split_ifs <;> rfl
  · rfl

/-- **The transition of an entry is made again.** -/
theorem replayEntry_makes (rebuilt : Rebuilt replaying job)
    (makes : Makes submission fact job entry after) (index : Nat) :
    ∃ replaying', replayEntry submission 1 index entry fact replaying = (.ok (), replaying') ∧
      Rebuilt replaying' after := by
  cases makes with
  | @claimed _ grant lease due ran =>
    obtain ⟨-, fits, same⟩ := (claim_made _ _ _).ended ran
    have isDue : (true = submission.schedule.all fun schedule =>
        decide (fact.tick.toNat ≥ schedule.nextRunTick)) := by
      cases recurs : submission.schedule with
      | none => rfl
      | some schedule => simp [due schedule recurs]
    refine ⟨{ replaying with
      store := replaying.store.put 1 after
      leaseGeneration := some grant.2.1 }, ?_, rebuilt.holding.put after, fun held leased => ?_⟩
    · refine (run_bind (expect_run (decide_eq_true ⟨lease, fits, isDue⟩))).trans ?_
      exact (run_bind (rebuilt.onJob ran)).trans rfl
    · rw [same] at leased
      rw [← Option.some.inj leased]
  | begun ran =>
    refine ⟨_, (run_bind (rebuilt.generation
      ((beginExecution_presents _ _).ended ran))).trans (rebuilt.onJob ran), rebuilt.put ?_⟩
    obtain ⟨-, same⟩ := (beginExecution_made _ _).ended ran
    exact .inl (by rw [same])
  | @completed _ generation outcome state backoffs ran =>
    obtain ⟨made, -⟩ := (complete_made _).ended ran
    have kind : OutcomeKind.fromCode (UInt64.ofNat outcome.code).toNat = some outcome := by
      cases outcome <;> rfl
    obtain ⟨store', ledger', completed, holds⟩ := completeDurable_holding rebuilt.holding _ ran
    refine ⟨{ replaying with
      store := store'
      ledger := ledger' }, ?_, holds, fun held leased => ?_⟩
    · refine (run_bind (expect_run (decide_eq_true ⟨backoffs, rfl, rebuilt.attempt⟩))).trans ?_
      refine (run_bind (rebuilt.generation ((complete_presents _).ended ran))).trans ?_
      rw [kind]
      have books : Replaying.onBooks (JobStore.completeDurable 1
          (submission.report generation fact.tick outcome)) replaying =
          (.ok state, { replaying with
            store := store'
            ledger := ledger' }) := by
        unfold Replaying.onBooks
        rw [completed]
        rfl
      exact (run_bind rfl).trans ((run_bind books).trans rfl)
    · rw [made.lease] at leased
      cases leased
  | lost running ran =>
    refine ⟨_, rebuilt.onJob ran, rebuilt.put ?_⟩
    obtain ⟨-, same⟩ := recordConnectionUncertain_made.ended ran
    exact .inr (by rw [same])
  | reconciled ran =>
    obtain ⟨-, same, -⟩ := (reconcileUncertain_made _).ended ran
    refine ⟨_, (run_bind (expect_run (decide_eq_true ⟨rfl, rfl, rebuilt.attempt⟩))).trans
      ((run_bind (rebuilt.onJob ran)).trans rfl), rebuilt.put ?_⟩
    exact .inl (by rw [same, reconciled_lease])
  | cancelled ran =>
    obtain ⟨-, -, same⟩ := cancel_made.ended ran
    refine ⟨_, (run_bind (rebuilt.onJob ran)).trans rfl, rebuilt.put ?_⟩
    exact .inr (by rw [same])
  | @advanced _ schedule next recurs ran =>
    have made := (advanceRecurringSchedule_made _ _).ended ran
    have kept : Rebuilt _ after := rebuilt.put (.inl made.lease)
    have runs : occurrencesRunOf (replaying.store.put 1 after) 1 =
        some (UInt64.ofNat after.occurrencesRun) := by
      unfold occurrencesRunOf JobStore.occurrencesRunOf
      rw [kept.holding.found]
      rfl
    refine ⟨_, ?_, kept⟩
    unfold replayEntry
    rw [recurs]
    refine (run_bind rfl).trans ((run_bind (rebuilt.onJob ran)).trans ?_)
    exact expect_run (decide_eq_true ⟨rfl, runs⟩)
  | expired leased ran =>
    obtain ⟨held, -, -, same⟩ := ((expire_made _).ended ran).1 rfl
    refine ⟨_, (run_bind ?_).trans (expect_run (decide_eq_true rfl)), rebuilt.put ?_⟩
    · unfold Replaying.onStore
      rw [expireStaleLeases_holding rebuilt.holding ran]
      rfl
    · exact .inr (by rw [same])

theorem replayEntries_append {index : Nat}
    {between : Replaying} {outcome : Except Halt Unit × Replaying}
    (before : replayEntries submission 1 index past replaying = (.ok (), between))
    (last : replayEntry submission 1 (index + past.length) entry fact between = outcome) :
    replayEntries submission 1 index (past ++ [(entry, fact)]) replaying = outcome := by
  induction past generalizing index replaying with
  | nil =>
    obtain rfl : replaying = between := congrArg Prod.snd before
    have alone : (replayEntry submission 1 index entry fact >>= fun _ => pure ()) replaying =
        replayEntry submission 1 index entry fact replaying := by
      simp only [Bind.bind, Pure.pure]
      cases replayEntry submission 1 index entry fact replaying with
      | mk ended after => cases ended <;> rfl
    exact alone.trans last
  | cons first past ih =>
    obtain ⟨_, middle, ran, others⟩ := run_bind_ok before
    refine (run_bind ran).trans (ih others ?_)
    rw [← last, List.length_cons]
    congr 1
    omega

theorem replayEntries_story {revision : UInt8}
    (rebuilt : Rebuilt replaying (submission.fresh revision))
    (story : Story submission revision past job) :
    ∃ replaying', replayEntries submission 1 0 past replaying = (.ok (), replaying') ∧
      Rebuilt replaying' job := by
  induction story with
  | entered =>
    have first : replayEntry submission 1 0 (.enqueued submission.schedule.isSome) .none
        replaying = (.ok (), replaying) := by
      unfold replayEntry
      exact expect_run (decide_eq_true ⟨rfl, rfl⟩)
    exact ⟨replaying, (run_bind first).trans rfl, rebuilt⟩
  | goesOn before makes ih =>
    obtain ⟨between, ran, holds⟩ := ih
    obtain ⟨replaying', made, holds'⟩ := replayEntry_makes holds makes _
    exact ⟨replaying', replayEntries_append ran made, holds'⟩

end Replay

/-- The first run of a job has been due, unless the job waits for it or was cancelled. -/
def Due (clock : Nat) (submission : JobSubmission) (job : JobRecord) : Prop :=
  ∀ schedule, submission.schedule = some schedule → schedule.nextRunTick ≤ clock ∨
    job.state = .scheduled ∧ job.nextRunTick = some schedule.nextRunTick ∨ job.state = .cancelled

/-- A runtime whose evidence is the story of the job that it holds. -/
structure JobRuntime.Sound (clock : Nat) (runtime : JobRuntime) (job : JobRecord) : Prop where
  admitted : validateSubmission runtime.schema runtime.submission = .ok ()
  typed : ∀ schedule, runtime.submission.schedule = some schedule → schedule.Typed
  bound : runtime.boundRevision ≠ 0
  id : runtime.jobId = 1
  holding : Holding runtime.store runtime.ledger 1 job
  paired : runtime.evidence.entries.length = runtime.replayFacts.length
  story : Story runtime.submission runtime.boundRevision
    (runtime.evidence.entries.zip runtime.replayFacts) job
  claimed : runtime.evidence.claimedFinalState = job.state.code
  due : Due clock runtime.submission job

/-- What a runtime is restored to from its checkpoint. -/
structure Restored (runtime : JobRuntime) (generation : Nat) (restored : JobRuntime) : Prop where
  submission : restored.submission = runtime.submission
  evidence : restored.evidence = runtime.evidence
  facts : restored.replayFacts = runtime.replayFacts
  bound : restored.boundRevision = runtime.boundRevision
  generation : restored.checkpointGeneration = some generation
  sane : restored.poisoned = false

section Runtimes

variable {clock : Nat} {runtime : JobRuntime} {job : JobRecord}

variable {schema : InteractionSchema} {document : List UInt8} {currentRevision : UInt8}

theorem admitted_payload {submission : JobSubmission}
    (admitted : validateSubmission schema submission = .ok ()) :
    submission.payload ≠ [] ∧ submission.payload.length ≤ maxPayloadBytes := by
  unfold validateSubmission at admitted
  split_ifs at admitted with wrong refused
  simp only [not_or, not_lt] at wrong
  refine ⟨fun empty => refused ?_, wrong.2.2.2.2.1⟩
  rw [empty, schema.decodes_nil]
  rfl

theorem code_le (state : JobState) : state.code ≤ 9 := by
  cases state <;> decide

section Sound

variable (sound : runtime.Sound clock job)

include sound

theorem JobRuntime.Sound.replay : runtime.evidence.replay = .ok job.state.code := by
  have applied := sound.story.applied
  rw [List.map_fst_zip sound.paired.le] at applied
  unfold JobEvidenceLog.replay
  rw [applied]
  exact if_pos sound.claimed.symm

theorem JobRuntime.Sound.entries_ne : runtime.evidence.entries ≠ [] := by
  intro empty
  refine sound.story.ne_nil ?_
  rw [empty, List.zip_nil_left]

theorem JobRuntime.Sound.wellFormed : (RuntimeCheckpoint.fromRuntime runtime).WellFormed := by
  obtain ⟨payload, short⟩ := admitted_payload sound.admitted
  refine ⟨runtime.schema.digest_ne, sound.bound, payload, short, sound.typed, sound.entries_ne, ?_⟩
  exact sound.claimed.trans_le (code_le job.state)

theorem replayStore_sound
    (admitted : validateSubmission schema runtime.submission = .ok ()) (currentRevision : UInt8)
    (generation : Nat) :
    ∃ restored, replayStore schema currentRevision runtime.submission runtime.evidence
      runtime.replayFacts runtime.boundRevision (some generation) = .ok restored ∧
        restored.schema = schema ∧ Restored runtime generation restored ∧
        restored.Sound clock job := by
  obtain ⟨store, ledger, entered, holding⟩ := enqueued_made runtime.boundRevision runtime.submission
  have start : Rebuilt ⟨{ store with
      currentRevision := currentRevision.toNat }, ledger, none⟩
      (runtime.submission.fresh runtime.boundRevision) := by
    obtain ⟨rows, posted, once⟩ := holding.booked
    refine ⟨⟨holding.found, holding.only, rows, ⟨posted.closed, posted.table, posted.distinct,
      posted.known⟩, once⟩, fun lease leased => ?_⟩
    cases leased
  obtain ⟨replaying, ran, rebuilt⟩ := replayEntries_story start sound.story
  have state : (replaying.store.stateOf 1).map JobState.code =
      runtime.evidence.replay.toOption := by
    rw [sound.replay]
    unfold JobStore.stateOf
    rw [rebuilt.holding.found]
    rfl
  refine ⟨{ schema, submission := runtime.submission, store := replaying.store
            ledger := replaying.ledger
            jobId := 1
            evidence := runtime.evidence
            replayFacts := runtime.replayFacts
            boundRevision := runtime.boundRevision
            checkpointGeneration := some generation
            poisoned := false }, ?_, rfl, ⟨rfl, rfl, rfl, rfl, rfl, rfl⟩,
    ⟨admitted, sound.typed, sound.bound, rfl, rebuilt.holding, sound.paired, sound.story,
      sound.claimed, sound.due⟩⟩
  unfold replayStore
  rw [entered]
  simp only
  rw [if_neg (not_not.mpr sound.paired), ran]
  simp only
  rw [if_neg (not_not.mpr state)]

theorem restore_made (encoded : (RuntimeCheckpoint.fromRuntime runtime).encode = .ok document)
    (digest : runtime.schema.digest = schema.digest)
    (known : runtime.boundRevision ≤ currentRevision)
    (admitted : validateSubmission schema runtime.submission = .ok ()) (generation : Nat) :
    ∃ restored, JobRuntime.restore schema currentRevision ⟨generation, document⟩ = .ok restored ∧
      restored.schema = schema ∧ Restored runtime generation restored ∧
      restored.Sound clock job := by
  have evidence : JobEvidenceLog.fromEntries runtime.evidence.entries
      runtime.evidence.claimedFinalState = .ok runtime.evidence := by
    show runtime.evidence.replay.map _ = _
    rw [sound.replay]
    rfl
  obtain ⟨restored, replayed, facts⟩ := replayStore_sound sound admitted currentRevision generation
  refine ⟨restored, ?_, facts⟩
  unfold JobRuntime.restore
  rw [RuntimeCheckpoint.decode_encode encoded sound.wellFormed]
  unfold RuntimeCheckpoint.fromRuntime
  simp only
  rw [if_neg (not_not.mpr digest), if_neg (UInt8.not_lt.mpr known), admitted]
  simp only
  rw [evidence]
  exact replayed

theorem restore_admitted (encoded : (RuntimeCheckpoint.fromRuntime runtime).encode = .ok document)
    {generation : Nat}
    {restored : JobRuntime}
    (ran : JobRuntime.restore schema currentRevision ⟨generation, document⟩ = .ok restored) :
    runtime.schema.digest = schema.digest ∧ runtime.boundRevision ≤ currentRevision ∧
      validateSubmission schema runtime.submission = .ok () := by
  unfold JobRuntime.restore at ran
  rw [RuntimeCheckpoint.decode_encode encoded sound.wellFormed] at ran
  unfold RuntimeCheckpoint.fromRuntime at ran
  simp only at ran
  split_ifs at ran with digest known
  refine ⟨not_not.mp digest, UInt8.not_lt.mp known, ?_⟩
  cases admitted : validateSubmission schema runtime.submission with
  | ok value => rfl
  | error error =>
    rw [admitted] at ran
    cases ran

end Sound

end Runtimes

end Semaprax.DurableJobs
