/-
**What a runtime records is the story of its job** (`job_runtime.rs`).

Every operation on a runtime whose evidence is the story of its job leads to another one: what it
records is what it did.

* `Grown` — a runtime after another, with more entries.
* `noteClaim_grown`, `complete_grown`, `noteReconciled_grown`, … — what the parts of an operation
  record, and that they record nothing when they are refused.
-/

import Semaprax.DurableJobs.Restoring

namespace Semaprax.DurableJobs

open Library

variable {submission : JobSubmission}

theorem Makes.due {fact : ReplayFact} {job after : JobRecord}
    {entry : JobEvidenceEntry} {clock : Nat} (makes : Makes submission fact job entry after)
    (due : Due clock submission job) (clocked : fact.tick.toNat ≤ clock ∨ fact.leaseTicks = 0) :
    Due clock submission after := by
  intro schedule recurs
  -- a job in any other state is past its first run
  have past (waits : job.state ≠ .scheduled) (goes : job.state ≠ .cancelled) :
      schedule.nextRunTick ≤ clock :=
    (due schedule recurs).resolve_right fun other => other.elim (fun first => waits first.1) goes
  cases makes with
  | claimed lease first ran =>
    exact .inl ((first schedule recurs).trans (clocked.resolve_right lease))
  | begun ran =>
    obtain ⟨state, -⟩ := (beginExecution_made _ _).ended ran
    exact .inl (past (by simp [state]) (by simp [state]))
  | completed _ ran =>
    obtain ⟨made, -⟩ := (complete_made _).ended ran
    exact .inl (past (by simp [made.running]) (by simp [made.running]))
  | lost running ran => exact .inl (past (by simp [running]) (by simp [running]))
  | reconciled ran =>
    obtain ⟨state, -⟩ := (reconcileUncertain_made _).ended ran
    exact .inl (past (by simp [state]) (by simp [state]))
  | cancelled ran =>
    obtain ⟨-, -, same⟩ := cancel_made.ended ran
    exact .inr (.inr (by rw [same]))
  | advanced _ ran =>
    have made := (advanceRecurringSchedule_made _ _).ended ran
    exact .inl (past (by simp [made.succeeded]) (by simp [made.succeeded]))
  | expired leased ran => exact .inl (past (by simp [leased]) (by simp [leased]))

/-- A runtime after another, whose evidence is the story of its job and has more entries. -/
structure Grown (clock : Nat) (runtime : JobRuntime) (added : List JobEvidenceEntry)
    (after : JobRuntime) (job : JobRecord) : Prop where
  sound : after.Sound clock job
  schema : after.schema = runtime.schema
  submission : after.submission = runtime.submission
  bound : after.boundRevision = runtime.boundRevision
  generation : after.checkpointGeneration = runtime.checkpointGeneration
  poisoned : after.poisoned = runtime.poisoned
  entries : after.evidence.entries = runtime.evidence.entries ++ added

section Grown

variable {clock : Nat} {runtime after : JobRuntime} {job : JobRecord} {entry : JobEvidenceEntry}

theorem Grown.refl (sound : runtime.Sound clock job) : Grown clock runtime [] runtime job :=
  ⟨sound, rfl, rfl, rfl, rfl, rfl, (List.append_nil _).symm⟩

theorem Grown.trans {between : JobRuntime} {middle : JobRecord}
    {first second : List JobEvidenceEntry} (grown : Grown clock runtime first between middle)
    (more : Grown clock between second after job) :
    Grown clock runtime (first ++ second) after job :=
  ⟨more.sound, more.schema.trans grown.schema, more.submission.trans grown.submission,
    more.bound.trans grown.bound, more.generation.trans grown.generation,
    more.poisoned.trans grown.poisoned, by
      rw [more.entries, grown.entries, List.append_assoc]⟩

theorem JobRuntime.Sound.note (sound : runtime.Sound clock job) {made : JobRecord}
    {fact : ReplayFact} (makes : Makes runtime.submission fact job entry made)
    (clocked : fact.tick.toNat ≤ clock ∨ fact.leaseTicks = 0) {store : JobStore}
    {ledger : DatabaseFixture} (holding : Holding store ledger 1 made) :
    Grown clock runtime [entry]
      { runtime with
        store
        ledger
        evidence := runtime.evidence.append entry made.state.code
        replayFacts := runtime.replayFacts ++ [fact] } made := by
  refine ⟨⟨sound.admitted, sound.typed, sound.bound, sound.id, holding, ?_, ?_, rfl,
    makes.due sound.due clocked⟩, rfl, rfl, rfl, rfl, rfl, rfl⟩
  · show (runtime.evidence.entries ++ [entry]).length = (runtime.replayFacts ++ [fact]).length
    rw [List.length_append, List.length_append, sound.paired]
    rfl
  · show Story _ _ ((runtime.evidence.entries ++ [entry]).zip (runtime.replayFacts ++ [fact])) made
    rw [List.zip_append sound.paired]
    exact sound.story.goesOn makes

theorem JobRuntime.Sound.again (sound : runtime.Sound clock job) : Grown clock runtime []
      { runtime with
        store := runtime.store.put runtime.jobId job } job := by
  refine ⟨⟨sound.admitted, sound.typed, sound.bound, sound.id, ?_, sound.paired, sound.story,
    sound.claimed, sound.due⟩, rfl, rfl, rfl, rfl, rfl, (List.append_nil _).symm⟩
  rw [sound.id]
  exact sound.holding.put job

end Grown

/-- A request decides that an entry is recorded; the other entries follow from what is found. -/
def JobEvidenceEntry.Requested : JobEvidenceEntry → Prop
  | .claimed _ => True
  | .reconciledUncertain _ _ _ _ => True
  | _ => False

/-- A part that stops leaves a runtime that nothing was recorded in, or panics. -/
def Stops (clock : Nat) (runtime : JobRuntime) (job : JobRecord) (halt : Halt)
    (after : JobRuntime) : Prop := halt = .panicked ∨ Grown clock runtime [] after job

section Parts

variable {clock : Nat} {runtime : JobRuntime} {job : JobRecord} {A : Type}

variable {stops : Halt → JobRuntime → Prop} {workerId : UInt32} {nowTick leaseTicks : UInt64}
variable {leaseGeneration : Nat}
variable (sound : runtime.Sound clock job)

include sound

theorem JobRuntime.Sound.stateOf : runtime.store.stateOf runtime.jobId = some job.state := by
  unfold JobStore.stateOf
  rw [sound.id, sound.holding.found]
  rfl

theorem JobRuntime.Sound.attemptOf :
    attemptOf runtime.store runtime.jobId = some (UInt8.ofNat job.attempt) := by
  unfold Semaprax.DurableJobs.attemptOf JobStore.attemptOf
  rw [sound.id, sound.holding.found]
  rfl

theorem wp_onStore (call : Prog JobRecord Fault A) {ends : A → JobRuntime → Prop} :
    (JobRuntime.onStore (JobStore.onJob runtime.jobId call)).wp ends stops runtime ↔
      call.wp (fun value after => ends value
          { runtime with
            store := runtime.store.put runtime.jobId after })
        (fun fault after => stops (Halt.store fault)
          { runtime with
            store := runtime.store.put runtime.jobId after }) job := by
  have found : Holding runtime.store runtime.ledger runtime.jobId job := sound.id ▸ sound.holding
  have ran : JobRuntime.onStore (JobStore.onJob runtime.jobId call) runtime =
      ((call job).1.mapError Halt.store, { runtime with
          store := runtime.store.put runtime.jobId (call job).2 }) := by
    show ((JobStore.onJob runtime.jobId call runtime.store).1.mapError Halt.store, { runtime with
        store := (JobStore.onJob runtime.jobId call runtime.store).2 }) = _
    rw [onJob_holding found]
  unfold Prog.wp
  rw [ran]
  cases call job with
  | mk outcome after => cases outcome <;> exact Iff.rfl

/-- A call that changes nothing when it is refused. -/
theorem Stops.again {halt : Halt} {after : JobRecord}
    (same : after = job) : Stops clock runtime job halt
      { runtime with
        store := runtime.store.put runtime.jobId after } := by
  rw [same]
  exact .inr sound.again

omit sound in
theorem wp_record (entry : JobEvidenceEntry) (state : JobState) (fact : ReplayFact)
    {ends : Unit → JobRuntime → Prop} :
    (JobRuntime.record entry state fact).wp ends stops runtime ↔ ends ()
      { runtime with
        evidence := runtime.evidence.append entry state.code
        replayFacts := runtime.replayFacts ++ [fact] } := Iff.rfl

theorem JobRuntime.Sound.put (made : JobRecord) :
    Holding (runtime.store.put runtime.jobId made) runtime.ledger 1 made := by
  rw [sound.id]
  exact sound.holding.put made

theorem noteCancelled_grown : JobRuntime.noteCancelled.wp
      (fun _ after => ∃ made, Grown clock runtime [.cancelled] after made)
      (fun halt after => Stops clock runtime job halt after) runtime := by
  unfold JobRuntime.noteCancelled
  simp only [wp_bind, wp_get, wp_stopIf, wp_onStore sound, wp_record, wp_pure]
  refine ⟨fun _ => .inr (.refl sound), fun _ => ?_⟩
  refine wp_mono ((wp_self _ _).both cancel_made) (fun state made both => ?_)
    fun _ _ both => .again sound both.2
  obtain ⟨ran, -, cancelled, same⟩ := both
  have makes : Makes runtime.submission .none job .cancelled made := .cancelled ran
  have noted := sound.note makes (.inr rfl) (sound.put made)
  have named : made.state = state := by rw [same, cancelled]
  rw [named] at noted
  exact ⟨made, noted⟩

theorem noteReconciled_grown (decision : UInt64) : (JobRuntime.noteReconciled decision).wp
      (fun _ after => ∃ made, Grown clock runtime [.reconciledUncertain decision
        runtime.submission.isIdempotentHandler (UInt8.ofNat job.attempt)
          runtime.submission.maxAttempts] after made)
      (fun halt after => Stops clock runtime job halt after) runtime := by
  unfold JobRuntime.noteReconciled
  simp only [wp_bind, wp_get, wp_stopIf, wp_ofOption, wp_onStore sound,
    wp_record, wp_pure, sound.attemptOf]
  refine ⟨fun _ => .inr (.refl sound), fun _ => ⟨fun none_found => ?_, fun attempt found => ?_⟩⟩
  · cases none_found
  obtain rfl := Option.some.inj found
  refine wp_mono ((wp_self _ _).both (reconcileUncertain_made decision.toNat))
    (fun state made both => ?_) fun _ _ both => .again sound both.2
  obtain ⟨ran, -, -, named⟩ := both
  have makes : Makes runtime.submission .none job _ made := .reconciled ran
  have noted := sound.note makes (.inr rfl) (sound.put made)
  rw [← named] at noted
  exact ⟨made, noted⟩

theorem beginExecution_grown (leaseGeneration : Nat) (workerId : UInt32) (nowTick : UInt64) :
    (JobRuntime.beginExecution leaseGeneration workerId nowTick).wp
      (fun _ after => ∃ made, Grown clock runtime [.begunExecution] after made)
      (fun halt after => Stops clock runtime job halt after) runtime := by
  unfold JobRuntime.beginExecution
  simp only [wp_bind, wp_get, wp_onStore sound, wp_record]
  refine wp_mono ((wp_self _ _).both (beginExecution_made leaseGeneration nowTick.toNat))
    (fun _ made both => ?_) fun _ _ both => .again sound both.2
  obtain ⟨ran, -, same⟩ := both
  have makes : Makes runtime.submission ⟨nowTick, workerId, 0⟩ job .begunExecution made :=
    .begun ran
  have noted := sound.note makes (.inr rfl) (sound.put made)
  have named : made.state = .running := by rw [same]
  rw [named] at noted
  exact ⟨made, noted⟩

def Claimed (runtime : JobRuntime) (job : JobRecord) (workerId : UInt32)
    (nowTick leaseTicks : UInt64) (leaseGeneration : Nat) (after : JobRuntime) : Prop :=
  ∃ grant made, JobRecord.claim workerId.toNat nowTick.toNat leaseTicks.toNat job =
    (.ok grant, made) ∧ grant.2.1 = leaseGeneration ∧ after =
      { runtime with
        store := runtime.store.put runtime.jobId made }

theorem claim_claimed (workerId : UInt32) (nowTick leaseTicks : UInt64) :
    (JobRuntime.claim workerId nowTick leaseTicks).wp
      (fun claimed after => (claimed = none → Grown clock runtime [] after job) ∧
        ∀ leaseGeneration, claimed = some leaseGeneration →
          Claimed runtime job workerId nowTick leaseTicks leaseGeneration after)
      (fun halt after => Stops clock runtime job halt after) runtime := by
  have found : Holding runtime.store runtime.ledger runtime.jobId job := sound.id ▸ sound.holding
  unfold Prog.wp JobRuntime.claim
  simp only [onJob_holding found]
  rcases wp_run (claim_made workerId.toNat nowTick.toNat leaseTicks.toNat) with
    ⟨grant, made, ran, -⟩ | ⟨fault, _, ran, rfl⟩
  · rw [ran]
    refine ⟨fun none_given => (by cases none_given), fun leaseGeneration given => ?_⟩
    exact ⟨grant, made, ran, Option.some.inj given, rfl⟩
  · rw [ran]
    have again : Grown clock runtime []
        { runtime with
          store := runtime.store.put runtime.jobId job } job := sound.again
    cases fault with
    | panicked => exact .inl rfl
    | refused error =>
      cases error with
      | claimNotLegal => exact ⟨fun _ => again, fun _ given => by cases given⟩
      | unknownJob | leaseNotCurrent | cancelNotLegal | notUncertain | scheduleOverflow
      | scheduleNotAdvanceable | revisionRefused =>
        exact .inr again

theorem Claimed.makes {after : JobRuntime}
    (claimed : Claimed runtime job workerId nowTick leaseTicks leaseGeneration after)
    (lease : leaseTicks ≠ 0) (later : clock ≤ nowTick.toNat) :
    ∃ made, Makes runtime.submission ⟨nowTick, workerId, leaseTicks⟩ job (.claimed true) made ∧
      made.state = .leased ∧ made.lease.map Lease.workerId = some workerId.toNat ∧ after =
        { runtime with
          store := runtime.store.put runtime.jobId made } := by
  obtain ⟨grant, made, ran, -, same⟩ := claimed
  obtain ⟨legal, -, leased⟩ := (claim_made _ _ _).ended ran
  refine ⟨made, .claimed lease (fun schedule recurs => ?_) ran, by rw [leased], by rw [leased]; rfl,
    same⟩
  rcases sound.due schedule recurs with past | ⟨waits, next⟩ | cancelled
  · exact past.trans later
  · rcases (claimIsLegal_iff _ _).mp legal with pending | ⟨-, due⟩
    · rw [waits] at pending
      cases pending
    · unfold JobRecord.isDue at due
      rw [next] at due
      exact of_decide_eq_true due
  · rw [cancelled] at legal
    cases legal

theorem noteClaim_grown {between : JobRuntime}
    (claimed : Claimed runtime job workerId nowTick leaseTicks leaseGeneration between)
    (lease : leaseTicks ≠ 0) (later : clock ≤ nowTick.toNat) :
    (JobRuntime.noteClaim workerId nowTick leaseTicks).wp
      (fun _ after => ∃ made, Grown nowTick.toNat runtime [.claimed true] after made)
      (fun _ _ => False) between := by
  obtain ⟨made, makes, state, worker, rfl⟩ := claimed.makes sound lease later
  unfold JobRuntime.noteClaim JobRuntime.expectLease
  simp only [wp_bind, wp_get, wp_stopIf, wp_record]
  have held : JobStore.leasedWorkerId (runtime.store.put runtime.jobId made) runtime.jobId =
      some workerId.toNat := by
    unfold JobStore.leasedWorkerId
    rw [put_jobs, if_pos rfl]
    exact worker
  refine ⟨fun other => other held, fun _ => ?_⟩
  have due : Due nowTick.toNat runtime.submission job := fun schedule recurs =>
    (sound.due schedule recurs).imp_left fun past => past.trans later
  have noted := JobRuntime.Sound.note { sound with due } makes (.inl le_rfl) (sound.put made)
  rw [state] at noted
  exact ⟨made, noted⟩

omit sound in
theorem wp_onBooks (call : Prog (JobStore × DatabaseFixture) Fault A)
    {ends : A → JobRuntime → Prop} :
    (JobRuntime.onBooks call).wp ends stops runtime ↔
      call.wp (fun value books => ends value
          { runtime with
            store := books.1
            ledger := books.2 })
        (fun fault books => stops (Halt.store fault)
          { runtime with
            store := books.1
            ledger := books.2 }) (runtime.store, runtime.ledger) := by
  unfold JobRuntime.onBooks Prog.wp
  beta_reduce
  cases call (runtime.store, runtime.ledger) with
  | mk outcome books => cases outcome <;> exact Iff.rfl

omit sound in
theorem wp_state {state : JobState} (found : runtime.store.stateOf runtime.jobId = some state)
    {ends : JobState → JobRuntime → Prop}
    (goes : ends state runtime) : JobRuntime.state.wp ends stops runtime := by
  unfold JobRuntime.state
  rw [wp_bind, wp_get, found]
  exact goes

theorem advance_grown {schedule : Schedule}
    (recurs : runtime.submission.schedule = some schedule) (workerId : UInt32) (nowTick : UInt64) :
    (JobRuntime.advance schedule workerId nowTick).wp
      (fun _ after => ∃ made next runs,
        Grown clock runtime [.recurringAdvanced next runs] after made)
      (fun halt after => Stops clock runtime job halt after) runtime := by
  unfold JobRuntime.advance
  simp only [wp_bind, wp_get, wp_onStore sound]
  refine wp_mono ((wp_self _ _).both (advanceRecurringSchedule_made nowTick.toNat
    schedule.maxCatchUp)) (fun next made both => ?_) fun _ _ both => .again sound both.2
  have holding := sound.put made
  have runs : occurrencesRunOf (runtime.store.put runtime.jobId made) runtime.jobId =
      some (UInt64.ofNat made.occurrencesRun) := by
    unfold occurrencesRunOf JobStore.occurrencesRunOf
    rw [put_jobs, if_pos rfl]
    rfl
  have state : ({ runtime with
      store := runtime.store.put runtime.jobId made } : JobRuntime).store.stateOf runtime.jobId =
        some made.state := by
    unfold JobStore.stateOf
    rw [put_jobs, if_pos rfl]
    rfl
  rw [runs]
  refine (wp_ofOption _ _).mpr ⟨fun none_found => (by cases none_found), fun _ found => ?_⟩
  obtain rfl := Option.some.inj found
  rw [wp_bind]
  refine wp_state state ?_
  have makes : Makes runtime.submission ⟨nowTick, workerId, 0⟩ job _ made :=
    .advanced recurs both.1
  exact ⟨made, _, _, sound.note makes (.inr rfl) holding⟩

omit sound in
theorem completionState_eq {submission : JobSubmission} {entries : Nat}
    (submitted : job.Submitted submission entries) (outcome : OutcomeKind) :
    completionState outcome (UInt8.ofNat job.attempt) submission.maxAttempts =
      job.settled outcome := by
  unfold completionState JobRecord.settled JobRecord.projected JobRecord.attemptsAfter
  rw [toNat_attempt submitted.sound, submitted.maxAttempts]
  generalize (if outcome = .success then job.attempt else nextAttempt job.attempt) = attempts
  simp only
  unfold retryNextStateAfterOutcome
  split_ifs <;> simp_all [JobState.fromCode]

/-- A completion is recorded, and the next occurrence where one is scheduled. -/
theorem complete_grown (leaseGeneration : Nat)
    (workerId : UInt32) (nowTick : UInt64) (outcome : OutcomeKind)
    (backoffs : nowTick.toNat + runtime.submission.maxBackoffTicks.toNat ≤ maxU64) :
    (JobRuntime.complete leaseGeneration workerId nowTick outcome).wp
      (fun _ after => ∃ made added, Grown clock runtime added after made ∧ added ≠ [] ∧
        ∀ entry ∈ added, ¬entry.Requested)
      (fun halt after => halt = .panicked ∨ ∃ made added, Grown clock runtime added after made ∧
        ∀ entry ∈ added, ¬entry.Requested) runtime := by
  have same : Grown clock runtime [] runtime job := .refl sound
  have found : Holding runtime.store runtime.ledger runtime.jobId job := sound.id ▸ sound.holding
  unfold JobRuntime.complete JobRuntime.expectLease
  simp only [wp_bind, wp_get, wp_stopIf, wp_ofOption, wp_onBooks, sound.attemptOf, wp_record]
  refine ⟨fun _ => .inr ⟨job, [], same, by simp⟩, fun _ => ⟨fun none_found => ?_,
    fun attempt attempted => ?_⟩⟩
  · cases none_found
  obtain rfl := Option.some.inj attempted
  refine wp_mono (completeDurable_made found _) (fun state books completed => ?_)
    fun fault books refused => ?_
  · obtain ⟨made, ran, holds⟩ := completed
    obtain ⟨settled, named⟩ := (complete_made _).ended ran
    have natural : completionState outcome (UInt8.ofNat job.attempt)
        runtime.submission.maxAttempts = state :=
      (completionState_eq sound.story.submitted outcome).trans named.symm
    have makes : Makes runtime.submission ⟨nowTick, workerId, 0⟩ job _ made :=
      .completed backoffs ran
    have noted := sound.note makes (.inr rfl) (sound.id ▸ holds)
    rw [show made.state = state from settled.state.trans named.symm] at noted
    rw [natural, decide_eq_true (rfl : state = state)]
    cases recurs : runtime.submission.schedule with
    | none => exact ⟨made, _, noted, by simp, by simp [JobEvidenceEntry.Requested]⟩
    | some schedule =>
      dsimp only
      split_ifs with again
      · refine wp_mono (advance_grown noted.sound recurs workerId nowTick)
          (fun _ after grown => ?_) fun halt after stopped => ?_
        · obtain ⟨later, next, runs, grown⟩ := grown
          refine ⟨later, _, noted.trans grown, by simp, ?_⟩
          simp [JobEvidenceEntry.Requested]
        · rcases stopped with panicked | grown
          · exact .inl panicked
          · exact .inr ⟨made, _, noted.trans grown, by simp [JobEvidenceEntry.Requested]⟩
      · exact ⟨made, _, noted, by simp, by simp [JobEvidenceEntry.Requested]⟩
  · rcases refused with rfl | holds
    · exact .inl rfl
    · refine .inr ⟨job, [], ⟨{ sound with holding := sound.id ▸ holds }, rfl, rfl, rfl, rfl, rfl,
        (List.append_nil _).symm⟩, by simp⟩

omit sound in
theorem lastClaim_append (facts : List ReplayFact) {fact : ReplayFact} (lease : fact.leaseTicks ≠ 0) :
    JobRuntime.lastClaim (facts ++ [fact]) = some fact := by
  unfold JobRuntime.lastClaim
  rw [List.reverse_append]
  exact List.find?_cons_of_pos (by simpa using lease)

theorem JobRuntime.Sound.lastClaim (leased : job.state = .leased) :
    ∃ fact held, JobRuntime.lastClaim runtime.replayFacts = some fact ∧ fact.leaseTicks ≠ 0 ∧
      fact.tick.toNat + fact.leaseTicks.toNat ≤ maxU64 ∧ job.lease = some held ∧
        held.deadlineTick = fact.tick.toNat + fact.leaseTicks.toNat := by
  obtain ⟨before, fact, last, lease, fits, held, holds, deadline⟩ := sound.story.leased leased
  refine ⟨fact, held, ?_, lease, fits, holds, deadline⟩
  have facts := congrArg (List.map Prod.snd) last
  rw [List.map_snd_zip sound.paired.ge, List.map_append] at facts
  rw [facts]
  exact lastClaim_append _ lease

def JobRecord.expired (job : JobRecord) : JobRecord :=
  { job with
    jobGeneration := job.jobGeneration + 1
    lease := none
    state := .pending }

theorem noteExpired_grown (leased : job.state = .leased)
    (short : runtime.evidence.entries.length ≤ maxEvidenceEntries) :
    JobRuntime.noteExpired.wp
      (fun _ after => Grown clock runtime [.leaseExpired] after job.expired)
      (fun _ _ => False) runtime := by
  obtain ⟨fact, held, found, lease, fits, holds, deadline⟩ := sound.lastClaim leased
  have expiry : (fact.tick + fact.leaseTicks).toNat = held.deadlineTick := by
    rw [deadline, UInt64.toNat_add]
    exact Nat.mod_eq_of_lt (Nat.lt_succ_of_le fits)
  have few : job.jobGeneration + 1 ≤ maxU64 := by
    have expiries := sound.story.submitted.expiries
    rw [List.length_zip, ← sound.paired, min_self] at expiries
    unfold maxEvidenceEntries at short
    unfold maxU64
    omega
  have ran : JobRecord.expire (fact.tick + fact.leaseTicks).toNat job = (.ok true, job.expired) := by
    unfold JobRecord.expire
    refine (run_bind rfl).trans ?_
    rw [holds]
    dsimp only
    rw [if_pos expiry.ge]
    have added : (addU64 job.jobGeneration 1 : Prog JobRecord Fault Nat) job =
        (.ok (job.jobGeneration + 1), job) := by
      unfold addU64 stopIf
      rw [if_neg (not_lt.mpr few)]
      rfl
    exact (run_bind added).trans rfl
  have reclaimed : JobStore.expireStaleLeases (fact.tick + fact.leaseTicks).toNat runtime.store =
      (.ok [1], runtime.store.put 1 job.expired) := expireStaleLeases_holding sound.holding ran
  have called : JobRuntime.onStore (JobStore.expireStaleLeases (fact.tick + fact.leaseTicks).toNat)
      runtime = (.ok [1], { runtime with
        store := runtime.store.put 1 job.expired }) := by
    unfold JobRuntime.onStore
    rw [reclaimed]
    rfl
  unfold JobRuntime.noteExpired
  simp only [wp_bind, wp_get, wp_ofOption, wp_stopIf, found]
  refine ⟨fun none_found => (by cases none_found), fun _ same => ?_⟩
  obtain rfl := Option.some.inj same
  refine ⟨fun overflow => absurd fits (not_le.mpr overflow), fun _ => ?_⟩
  have makes : Makes runtime.submission ⟨fact.tick + fact.leaseTicks, 0, 0⟩ job .leaseExpired
      job.expired := .expired leased ran
  refine wp_mono (wp_self _ _) (fun ids after ended => ?_) fun _ _ ended => ?_
  · obtain ⟨listed, same⟩ := Prod.mk.inj (called.symm.trans ended)
    rw [← Except.ok.inj listed, ← same, wp_bind]
    refine (wp_stopIf _ _).mpr ⟨fun other => other ?_, fun _ => ?_⟩
    · rw [sound.id]
    · exact sound.note makes (.inr rfl) (sound.holding.put job.expired)
  · cases called.symm.trans ended

/-- The record of a job whose connection was lost while it was running. -/
def JobRecord.uncertain (job : JobRecord) : JobRecord :=
  { job with
    everRan := true
    state := .uncertain
    lease := none }

theorem noteUncertain_grown (running : job.state = .running) : JobRuntime.noteUncertain.wp
      (fun _ after => Grown clock runtime [.connectionUncertain] after job.uncertain)
      (fun _ _ => False) runtime := by
  have ran : JobRecord.recordConnectionUncertain job = (.ok (), job.uncertain) := by
    unfold JobRecord.recordConnectionUncertain
    refine (run_bind rfl).trans ?_
    unfold stopIf
    rw [if_neg (by simp [running]), running]
    refine (run_bind rfl).trans ?_
    rw [beq_self_eq_true, Bool.or_true]
    rfl
  have makes : Makes runtime.submission .none job .connectionUncertain job.uncertain :=
    .lost running ran
  unfold JobRuntime.noteUncertain
  simp only [wp_bind, wp_get, wp_onStore sound, wp_record]
  unfold Prog.wp
  rw [ran]
  exact sound.note makes (.inr rfl) (sound.put job.uncertain)

end Parts

theorem create_sound {schema : InteractionSchema} {currentRevision : UInt8}
    {runtime : JobRuntime} (clock : Nat)
    (typed : ∀ schedule, submission.schedule = some schedule → schedule.Typed)
    (created : JobRuntime.create schema currentRevision submission = .ok runtime) :
    ∃ job, runtime.Sound clock job ∧
      runtime.evidence.entries = [.enqueued submission.schedule.isSome] ∧
      runtime.checkpointGeneration = none := by
  obtain ⟨store, ledger, entered, holding⟩ := enqueued_made currentRevision submission
  have state : store.stateOf 1 = some (submission.fresh currentRevision).state := by
    unfold JobStore.stateOf
    rw [holding.found]
    rfl
  unfold JobRuntime.create at created
  split_ifs at created with revision
  cases admitted : validateSubmission schema submission with
  | error error =>
    rw [admitted] at created
    cases created
  | ok value =>
    rw [admitted, entered] at created
    simp only [state] at created
    obtain rfl := Except.ok.inj created
    refine ⟨_, ⟨admitted, typed, revision, rfl, holding, rfl, .entered, rfl,
      fun schedule recurs => ?_⟩, rfl, rfl⟩
    refine .inr (.inl ⟨?_, ?_⟩)
    · show (if submission.schedule.isSome then JobState.scheduled else .pending) = _
      rw [show submission.schedule = some schedule from recurs]
      rfl
    · show submission.schedule.map Schedule.nextRunTick = _
      rw [show submission.schedule = some schedule from recurs]
      rfl

end Semaprax.DurableJobs
