/-
**Transitions of a recorded job** (`job_fixture.rs`, `job_evidence.rs`).

What the calls that a runtime records make of the record of its job.

* `claim_made`, `complete_made`, … — the record after each call; a call that is refused changes
  nothing.
* `Makes` — the call that an entry of the evidence records leads from one record to another.
* `Story` — a record that a list of entries leads to, from a job that was entered.
* `apply_makes` — the evidence computes the states that the calls lead to.
-/

import Semaprax.DurableJobs.Rows
import Semaprax.DurableJobs.Checkpoints

namespace Semaprax.DurableJobs

open Library

section Record

variable {job after : JobRecord}

theorem claim_made (workerId nowTick leaseTicks : Nat) :
    (JobRecord.claim workerId nowTick leaseTicks).wp
      (fun grant after => claimIsLegal job.state.code (job.isDue nowTick) = true ∧
        nowTick + leaseTicks ≤ maxU64 ∧ after =
          { job with
            state := .leased
            lease := some ⟨workerId, grant.2.1, nowTick + leaseTicks⟩ })
      (fun _ after => after = job) job := by
  unfold JobRecord.claim
  simp only [wp_bind, wp_get, wp_stopIf, wp_set, wp_pure, wp_addU64]
  refine ⟨fun _ => trivial, fun legal => ⟨fun _ => trivial, fun _ => ⟨fun _ => trivial, ?_⟩⟩⟩
  exact fun fits => ⟨by simpa using legal, fits, trivial⟩

theorem beginExecution_made (leaseGeneration nowTick : Nat) :
    (JobRecord.beginExecution leaseGeneration nowTick).wp
      (fun _ after => job.state = .leased ∧ after =
        { job with
          state := .running
          everRan := true })
      (fun _ after => after = job) job := by
  unfold JobRecord.beginExecution
  simp only [wp_bind, wp_get, wp_stopIf]
  refine ⟨fun _ => trivial, fun state => ?_⟩
  refine wp_mono (currentLease_same leaseGeneration nowTick) (fun lease after current => ?_)
    fun _ _ same => same
  obtain ⟨rfl, -⟩ := current
  exact (wp_set _).mpr ⟨not_not.mp state, rfl⟩

/-- The record after a completion, other than its next run. -/
structure JobRecord.Completed (job : JobRecord) (outcome : OutcomeKind) (after : JobRecord) :
    Prop where
  running : job.state = .running
  state : after.state = job.settled outcome
  attempt : after.attempt = job.attemptsAfter outcome
  lease : after.lease = none
  maxAttempts : after.maxAttempts = job.maxAttempts
  handler : after.isIdempotentHandler = job.isIdempotentHandler
  jobGeneration : after.jobGeneration = job.jobGeneration

theorem complete_made (report : CompletionAttempt) : (JobRecord.complete report).wp
      (fun state after => job.Completed report.outcome after ∧ state = job.settled report.outcome)
      (fun fault after => Unchanged job fault after) job := by
  unfold JobRecord.complete
  rw [wp_bind]
  refine wp_mono (running_same report.leaseGeneration report.nowTick)
    (fun found after running => ?_) fun _ _ same _ _ => same
  obtain ⟨rfl, rfl, state⟩ := running
  rw [wp_bind, wp_set]
  unfold JobRecord.settled
  split_ifs with retried
  · simp only [wp_bind, wp_set, wp_pure, wp_addU64]
    refine ⟨fun _ => unchanged_panicked _ _,
      fun _ => ⟨⟨state, ?_, rfl, rfl, rfl, rfl, rfl⟩, trivial⟩⟩
    unfold JobRecord.settled
    rw [if_pos retried]
  · refine (wp_pure _).mpr ⟨⟨state, ?_, rfl, rfl, rfl, rfl, rfl⟩, rfl⟩
    unfold JobRecord.settled
    rw [if_neg retried]

theorem recordConnectionUncertain_made : JobRecord.recordConnectionUncertain.wp
      (fun _ after => job.state.Busy ∧ after =
        { job with
          everRan := job.everRan || job.state == .running
          state := .uncertain
          lease := none })
      (fun _ after => after = job) job := by
  unfold JobRecord.recordConnectionUncertain
  simp only [wp_bind, wp_get, wp_stopIf, wp_set]
  exact ⟨fun _ => trivial, fun busy => ⟨not_not.mp busy, trivial⟩⟩

def JobRecord.reconciled (job : JobRecord) (decision : Nat) : JobRecord :=
  match decision with
  | 0 => { job with state := .succeeded }
  | 1 => { job with state := .permanentFailure }
  | 2 =>
    if uncertainRetryIsPermitted job.isIdempotentHandler job.attempt job.maxAttempts then
      { job with
        attempt := nextAttempt job.attempt
        state := .pending }
    else { job with state := .uncertain }
  | _ => { job with state := .uncertain }

theorem reconcileUncertain_made (decision : Nat) : (JobRecord.reconcileUncertain decision).wp
      (fun state after => job.state = .uncertain ∧ after = job.reconciled decision ∧
        state = after.state)
      (fun _ after => after = job) job := by
  unfold JobRecord.reconcileUncertain
  simp only [wp_bind, wp_get, wp_stopIf, wp_set, wp_pure]
  refine ⟨fun _ => trivial, fun state => ⟨not_not.mp state, ?_, trivial⟩⟩
  rfl

theorem cancel_made : JobRecord.cancel.wp
      (fun state after => cancelIsLegal job.state.code = true ∧ state = .cancelled ∧ after =
        { job with
          state := .cancelled
          lease := none })
      (fun _ after => after = job) job := by
  unfold JobRecord.cancel
  simp only [wp_bind, wp_get, wp_stopIf, wp_set, wp_pure]
  exact ⟨fun _ => trivial, fun legal => ⟨by simpa using legal, trivial, trivial⟩⟩

theorem expire_made (nowTick : Nat) : (JobRecord.expire nowTick).wp
      (fun reclaimed after => (reclaimed = true → ∃ held, job.lease = some held ∧
          held.deadlineTick ≤ nowTick ∧ after =
            { job with
              jobGeneration := job.jobGeneration + 1
              lease := none
              state := .pending }) ∧
        (reclaimed = false → after = job))
      (fun _ after => after = job) job := by
  unfold JobRecord.expire
  rw [wp_bind, wp_get]
  cases leased : job.lease with
  | none => exact ⟨fun reclaimed => Bool.noConfusion reclaimed, fun _ => rfl⟩
  | some held =>
    dsimp only
    split_ifs with late
    · simp only [wp_bind, wp_set, wp_pure, wp_addU64]
      refine ⟨fun _ => trivial, fun _ => ⟨fun _ => ⟨held, rfl, late, trivial⟩, fun kept => ?_⟩⟩
      exact Bool.noConfusion kept
    · exact ⟨fun reclaimed => Bool.noConfusion reclaimed, fun _ => rfl⟩

/-- The record after an advance, other than its next run. -/
structure JobRecord.Advanced (job : JobRecord) (next : Option Nat) (after : JobRecord) : Prop where
  succeeded : job.state = .succeeded
  state : after.state = if next.isSome then .scheduled else .succeeded
  attempt : after.attempt = if next.isSome then 0 else job.attempt
  lease : after.lease = job.lease
  maxAttempts : after.maxAttempts = job.maxAttempts
  handler : after.isIdempotentHandler = job.isIdempotentHandler
  jobGeneration : after.jobGeneration = job.jobGeneration

theorem advanceRecurringSchedule_made (nowTick maxCatchUp : Nat) :
    (JobRecord.advanceRecurringSchedule nowTick maxCatchUp).wp
      (fun next after => job.Advanced next after) (fun _ after => after = job) job := by
  unfold JobRecord.advanceRecurringSchedule
  simp only [wp_bind, wp_get, wp_stopIf]
  refine ⟨fun _ => trivial, fun state => ?_⟩
  have succeeded : job.state = .succeeded := not_not.mp state
  split
  · simp only [wp_bind, wp_ofOption]
    refine ⟨fun _ => trivial, fun occurrencesRun _ => ?_⟩
    split_ifs
    · simp only [wp_bind, wp_set, wp_pure]
      exact ⟨succeeded, succeeded, rfl, rfl, rfl, rfl, rfl⟩
    · simp only [wp_bind, wp_set, wp_pure, wp_ofOption]
      exact ⟨fun _ => trivial, fun next _ => ⟨succeeded, rfl, rfl, rfl, rfl, rfl, rfl⟩⟩
  · exact ⟨succeeded, succeeded, rfl, rfl, rfl, rfl, rfl⟩

end Record

def JobSubmission.report (submission : JobSubmission) (leaseGeneration : Nat) (tick : UInt64)
    (outcome : OutcomeKind) : CompletionAttempt :=
  ⟨leaseGeneration, tick.toNat, outcome, submission.baseBackoffTicks.toNat,
    submission.maxBackoffTicks.toNat⟩

/-- The call that an entry records leads from one record to another. -/
inductive Makes (submission : JobSubmission) (fact : ReplayFact) :
    JobRecord → JobEvidenceEntry → JobRecord → Prop
  | claimed {job after : JobRecord} {grant : Nat × Nat × Nat} (lease : fact.leaseTicks ≠ 0)
      (due : ∀ schedule, submission.schedule = some schedule →
        schedule.nextRunTick ≤ fact.tick.toNat)
      (ran : JobRecord.claim fact.workerId.toNat fact.tick.toNat fact.leaseTicks.toNat job =
        (.ok grant, after)) : Makes submission fact job (.claimed true) after
  | begun {job after : JobRecord} {leaseGeneration : Nat}
      (ran : JobRecord.beginExecution leaseGeneration fact.tick.toNat job = (.ok (), after)) :
      Makes submission fact job .begunExecution after
  | completed {job after : JobRecord} {leaseGeneration : Nat} {outcome : OutcomeKind}
      {state : JobState} (backoffs : fact.tick.toNat + submission.maxBackoffTicks.toNat ≤ maxU64)
      (ran : JobRecord.complete (submission.report leaseGeneration fact.tick outcome) job =
        (.ok state, after)) :
      Makes submission fact job (.durableCompleted (UInt64.ofNat outcome.code)
        (UInt8.ofNat job.attempt) submission.maxAttempts true) after
  | lost {job after : JobRecord} (running : job.state = .running)
      (ran : JobRecord.recordConnectionUncertain job = (.ok (), after)) :
      Makes submission fact job .connectionUncertain after
  | reconciled {job after : JobRecord} {decision : UInt64} {state : JobState}
      (ran : JobRecord.reconcileUncertain decision.toNat job = (.ok state, after)) :
      Makes submission fact job (.reconciledUncertain decision submission.isIdempotentHandler
        (UInt8.ofNat job.attempt) submission.maxAttempts) after
  | cancelled {job after : JobRecord} {state : JobState}
      (ran : JobRecord.cancel job = (.ok state, after)) :
      Makes submission fact job .cancelled after
  | advanced {job after : JobRecord} {schedule : Schedule} {next : Option Nat}
      (recurs : submission.schedule = some schedule)
      (ran : JobRecord.advanceRecurringSchedule fact.tick.toNat schedule.maxCatchUp job =
        (.ok next, after)) :
      Makes submission fact job (.recurringAdvanced (next.map UInt64.ofNat)
        (UInt64.ofNat after.occurrencesRun)) after
  | expired {job after : JobRecord} (leased : job.state = .leased)
      (ran : JobRecord.expire fact.tick.toNat job = (.ok true, after)) :
      Makes submission fact job .leaseExpired after

def JobSubmission.fresh (submission : JobSubmission) (revision : UInt8) : JobRecord :=
  JobStore.freshJob submission.idempotencyKey submission.payloadDescriptor submission.schedule
    submission.maxAttempts.toNat submission.isIdempotentHandler revision.toNat

inductive Story (submission : JobSubmission) (revision : UInt8) :
    List (JobEvidenceEntry × ReplayFact) → JobRecord → Prop
  | entered : Story submission revision
      [(JobEvidenceEntry.enqueued submission.schedule.isSome, .none)]
      (submission.fresh revision)
  | goesOn {past : List (JobEvidenceEntry × ReplayFact)} {job after : JobRecord}
      {entry : JobEvidenceEntry} {fact : ReplayFact} (before : Story submission revision past job)
      (makes : Makes submission fact job entry after) :
      Story submission revision (past ++ [(entry, fact)]) after

/-- What a record has in common with the submission that it was made from. -/
structure JobRecord.Submitted (job : JobRecord) (submission : JobSubmission) (entries : Nat) :
    Prop where
  sound : job.Sound
  maxAttempts : job.maxAttempts = submission.maxAttempts.toNat
  handler : job.isIdempotentHandler = submission.isIdempotentHandler
  expiries : job.jobGeneration < entries

section Entries

variable {submission : JobSubmission} {revision : UInt8} {fact : ReplayFact}
  {job after : JobRecord} {entry : JobEvidenceEntry} {entries : Nat}

theorem fresh_submitted (submission : JobSubmission) (revision : UInt8) :
    (submission.fresh revision).Submitted submission 1 :=
  ⟨freshJob_sound .., rfl, rfl, Nat.one_pos⟩

theorem Makes.submitted (makes : Makes submission fact job entry after)
    (before : job.Submitted submission entries) : after.Submitted submission (entries + 1) := by
  have submitted (sound : after.Sound) (most : after.maxAttempts = job.maxAttempts)
      (handler : after.isIdempotentHandler = job.isIdempotentHandler)
      (expiries : after.jobGeneration ≤ job.jobGeneration + 1) :
      after.Submitted submission (entries + 1) :=
    ⟨sound, most.trans before.maxAttempts, handler.trans before.handler,
      expiries.trans_lt (Nat.succ_lt_succ before.expiries)⟩
  cases makes with
  | claimed _ _ ran =>
    obtain ⟨-, -, rfl⟩ := (claim_made _ _ _).ended ran
    exact submitted ((claim_follows _ _ _ job before.sound).ended ran).1 rfl rfl (Nat.le_succ _)
  | begun ran =>
    obtain ⟨-, rfl⟩ := (beginExecution_made _ _).ended ran
    exact submitted ((beginExecution_follows _ _ job before.sound).ended ran).1 rfl rfl
      (Nat.le_succ _)
  | completed _ ran =>
    obtain ⟨made, -⟩ := (complete_made _).ended ran
    exact submitted ((complete_follows _ job before.sound).ended ran).1 made.maxAttempts
      made.handler (made.jobGeneration.le.trans (Nat.le_succ _))
  | lost _ ran =>
    obtain ⟨-, rfl⟩ := recordConnectionUncertain_made.ended ran
    exact submitted ((recordConnectionUncertain_follows job before.sound).ended ran).1 rfl rfl
      (Nat.le_succ _)
  | reconciled ran =>
    obtain ⟨-, same, -⟩ := (reconcileUncertain_made _).ended ran
    have kept : after.maxAttempts = job.maxAttempts ∧
        after.isIdempotentHandler = job.isIdempotentHandler ∧
        after.jobGeneration = job.jobGeneration := by
      rw [same]
      unfold JobRecord.reconciled
      split <;> (try split_ifs) <;> exact ⟨rfl, rfl, rfl⟩
    exact submitted ((reconcileUncertain_follows _ job before.sound).ended ran).1 kept.1 kept.2.1
      (kept.2.2.le.trans (Nat.le_succ _))
  | cancelled ran =>
    obtain ⟨-, -, rfl⟩ := cancel_made.ended ran
    exact submitted ((cancel_follows job before.sound).ended ran).1 rfl rfl (Nat.le_succ _)
  | advanced _ ran =>
    have made := (advanceRecurringSchedule_made _ _).ended ran
    exact submitted ((advanceRecurringSchedule_follows _ _ job before.sound).ended ran).1
      made.maxAttempts made.handler (made.jobGeneration.le.trans (Nat.le_succ _))
  | expired _ ran =>
    obtain ⟨held, -, -, rfl⟩ := ((expire_made _).ended ran).1 rfl
    exact submitted ((expire_follows _ job before.sound).ended ran).1 rfl rfl le_rfl

theorem toNat_attempt (sound : job.Sound) : (UInt8.ofNat job.attempt).toNat = job.attempt := by
  refine UInt8.toNat_ofNat_of_lt' ?_
  exact Nat.lt_succ_of_le sound.bounded

theorem stateAfter_settled (before : job.Submitted submission entries) (outcome : OutcomeKind) :
    JobEvidenceLog.stateAfter (UInt64.ofNat outcome.code) (UInt8.ofNat job.attempt)
      submission.maxAttempts = (job.settled outcome).code := by
  have attempts : (if UInt64.ofNat outcome.code = 0 then (UInt8.ofNat job.attempt).toNat
      else nextAttempt (UInt8.ofNat job.attempt).toNat) = job.attemptsAfter outcome := by
    rw [toNat_attempt before.sound]
    unfold JobRecord.attemptsAfter
    cases outcome <;> rfl
  have kind : (UInt64.ofNat outcome.code).toNat = outcome.code := by
    cases outcome <;> rfl
  unfold JobEvidenceLog.stateAfter JobRecord.settled JobRecord.projected
  simp only [attempts, kind, ← before.maxAttempts]
  unfold retryNextStateAfterOutcome
  split_ifs <;> simp_all [JobState.fromCode, JobState.code]

theorem Makes.apply (makes : Makes submission fact job entry after)
    (before : job.Submitted submission entries) :
    JobEvidenceLog.apply (some job.state.code) entry = some after.state.code := by
  cases makes with
  | claimed _ _ ran =>
    obtain ⟨legal, -, same⟩ := (claim_made _ _ _).ended ran
    have allowed : claimIsLegal job.state.code true = true := by
      rw [claimIsLegal_iff] at legal ⊢
      exact legal.imp_right fun scheduled => ⟨scheduled.1, rfl⟩
    rw [same]
    rw [JobEvidenceLog.apply_claimed, if_pos allowed]
    rfl
  | begun ran =>
    obtain ⟨state, same⟩ := (beginExecution_made _ _).ended ran
    rw [same, state]
    rfl
  | completed _ ran =>
    obtain ⟨made, -⟩ := (complete_made _).ended ran
    rw [made.running, made.state]
    exact congrArg some (stateAfter_settled before _)
  | lost running ran =>
    obtain ⟨-, same⟩ := recordConnectionUncertain_made.ended ran
    rw [same, running]
    rfl
  | @reconciled _ decision _ ran =>
    obtain ⟨state, same, -⟩ := (reconcileUncertain_made _).ended ran
    rw [same, state]
    unfold JobRecord.reconciled
    rw [JobEvidenceLog.apply_reconciled, toNat_attempt before.sound, ← before.handler,
      ← before.maxAttempts]
    generalize decision.toNat = number
    match number with
    | 0 => rfl
    | 1 => rfl
    | 2 => split_ifs <;> rfl
    | _ + 3 => rfl
  | cancelled ran =>
    obtain ⟨legal, -, same⟩ := cancel_made.ended ran
    rw [same]
    rw [JobEvidenceLog.apply_cancelled, if_pos legal]
    rfl
  | advanced _ ran =>
    have made := (advanceRecurringSchedule_made _ _).ended ran
    rw [made.succeeded, made.state]
    rw [JobEvidenceLog.apply_advanced, Option.isSome_map]
    split_ifs <;> rfl
  | expired leased ran =>
    obtain ⟨held, -, -, same⟩ := ((expire_made _).ended ran).1 rfl
    rw [same, leased]
    rfl

theorem settled_idle (job : JobRecord) (outcome : OutcomeKind) : ¬(job.settled outcome).Busy := by
  unfold JobRecord.settled
  split_ifs
  · simp [JobState.Busy]
  · exact projected_idle job outcome

theorem reconciled_idle (job : JobRecord) (decision : Nat) :
    ¬(job.reconciled decision).state.Busy := by
  unfold JobRecord.reconciled
  split
  · simp [JobState.Busy]
  · simp [JobState.Busy]
  · split_ifs <;> simp [JobState.Busy]
  · simp [JobState.Busy]

variable {past : List (JobEvidenceEntry × ReplayFact)}

section Stories

variable (story : Story submission revision past job)

include story

theorem Story.submitted : job.Submitted submission past.length := by
  induction story with
  | entered => exact fresh_submitted submission revision
  | goesOn before makes ih =>
    rw [List.length_append, List.length_singleton]
    exact makes.submitted ih

theorem Story.ne_nil : past ≠ [] := by
  cases story with
  | entered => exact List.cons_ne_nil _ _
  | goesOn before makes => exact List.concat_ne_nil _ _

theorem Story.applied :
    JobEvidenceLog.applyFrom 0 none (past.map Prod.fst) = .ok (some job.state.code) := by
  induction story with
  | entered =>
    show _ = Except.ok (some (JobState.code (if submission.schedule.isSome then _ else _)))
    cases submission.schedule <;> rfl
  | goesOn before makes ih =>
    rw [List.map_append]
    exact JobEvidenceLog.applyFrom_append 0 none _ _ ih (makes.apply before.submitted) rfl

theorem Story.busy (busy : job.state.Busy) :
    ∃ before earlier fact entry, past = before ++ [(entry, fact)] ∧
      Story submission revision before earlier ∧ Makes submission fact earlier entry job ∧
      entry = if job.state = .leased then .claimed true else .begunExecution := by
  cases story with
  | entered =>
    have state : (if submission.schedule.isSome then JobState.scheduled else .pending).Busy := busy
    split_ifs at state <;> simp [JobState.Busy] at state
  | @goesOn before earlier _ entry fact story makes =>
    refine ⟨before, earlier, fact, entry, rfl, story, makes, ?_⟩
    cases makes with
    | claimed _ _ ran =>
      obtain ⟨-, -, rfl⟩ := (claim_made _ _ _).ended ran
      rfl
    | begun ran =>
      obtain ⟨-, rfl⟩ := (beginExecution_made _ _).ended ran
      rfl
    | completed _ ran =>
      obtain ⟨made, -⟩ := (complete_made _).ended ran
      exact absurd (made.state ▸ busy) (settled_idle earlier _)
    | lost _ ran =>
      obtain ⟨-, rfl⟩ := recordConnectionUncertain_made.ended ran
      simp [JobState.Busy] at busy
    | reconciled ran =>
      obtain ⟨-, same, -⟩ := (reconcileUncertain_made _).ended ran
      exact absurd (same ▸ busy) (reconciled_idle earlier _)
    | cancelled ran =>
      obtain ⟨-, -, rfl⟩ := cancel_made.ended ran
      simp [JobState.Busy] at busy
    | advanced _ ran =>
      have made := (advanceRecurringSchedule_made _ _).ended ran
      rw [made.state] at busy
      split_ifs at busy <;> simp [JobState.Busy] at busy
    | expired _ ran =>
      obtain ⟨held, -, -, rfl⟩ := ((expire_made _).ended ran).1 rfl
      simp [JobState.Busy] at busy

theorem Story.leased (leased : job.state = .leased) : ∃ before, ∃ fact : ReplayFact,
      past = before ++ [(JobEvidenceEntry.claimed true, fact)] ∧ fact.leaseTicks ≠ 0 ∧
      fact.tick.toNat + fact.leaseTicks.toNat ≤ maxU64 ∧ ∃ held, job.lease = some held ∧
        held.deadlineTick = fact.tick.toNat + fact.leaseTicks.toNat := by
  obtain ⟨before, earlier, fact, entry, rfl, -, makes, last⟩ := story.busy (.inl leased)
  rw [if_pos leased] at last
  subst last
  cases makes with
  | @claimed _ grant lease due ran =>
    obtain ⟨-, fits, same⟩ := (claim_made _ _ _).ended ran
    exact ⟨before, fact, rfl, lease, fits, ⟨fact.workerId.toNat, grant.2.1,
      fact.tick.toNat + fact.leaseTicks.toNat⟩, by rw [same], rfl⟩

end Stories

end Entries

end Semaprax.DurableJobs
