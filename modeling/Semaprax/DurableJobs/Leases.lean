/-
**Stale leases** (`job_fixture.rs`).

What a lease generation proves. Every claim of a job finds it without a lease, so every claim grants
the generation `1`: a generation that is accepted is that of the current lease, but it does not tell
the worker that holds the lease from one that held an earlier one.

* `Tenure` — what the history of a session says of the leases of one job.
* `LeaseSafe` — accepted generations are those of the current lease, and no two claims of a job
  grant the same one.
* `Kept` — what the record of a job has to do with its tenure, and that every call keeps it.
-/

import Semaprax.Library.Histories
import Semaprax.DurableJobs.Store

namespace Semaprax.DurableJobs

open Library

/-- The generations granted for a job, latest first, and the one whose lease has not been ended. -/
structure Tenure where
  granted : List Nat
  held : Option Nat
deriving DecidableEq, Repr

/-- A job that was never claimed. -/
def Tenure.none : Tenure := ⟨[], Option.none⟩

def Tenure.ended (tenure : Tenure) : Tenure := ⟨tenure.granted, Option.none⟩

/-- What an event says of the leases of a job. -/
def Tenure.observe (id : Nat) (tenure : Tenure) (event : Event) : Tenure :=
  match event.answer with
  | .error _ => tenure
  | .ok answer =>
    match event.call, answer with
    | .claim job .., .granted _ generation _ =>
      if job = id then ⟨generation :: tenure.granted, some generation⟩ else tenure
    | .complete job _, _ => if job = id then tenure.ended else tenure
    | .completeDurable _ job _, _ => if job = id then tenure.ended else tenure
    | .recordConnectionUncertain job, _ => if job = id then tenure.ended else tenure
    | .cancel job, _ => if job = id then tenure.ended else tenure
    | .expireStaleLeases _, .reclaimed ids => if id ∈ ids then tenure.ended else tenure
    | _, _ => tenure

/-- The leases of a job in a history. -/
def tenure (id : Nat) (events : List Event) : Tenure :=
  events.foldl (Tenure.observe id) Tenure.none

def Event.accepted (event : Event) : Option (Nat × Nat) :=
  match event.answer with
  | .error _ => none
  | .ok _ =>
    match event.call with
    | .heartbeat id generation .. => some (id, generation)
    | .beginExecution id generation _ => some (id, generation)
    | .complete id report => some (id, report.leaseGeneration)
    | .completeDurable _ id report => some (id, report.leaseGeneration)
    | _ => none

/-- Whatever is accepted is accepted under the generation of the latest claim, whose lease has not
been ended, and no two claims of a job grant the same generation. -/
structure LeaseSafe (events : List Event) : Prop where
  current : Throughout (fun earlier event => ∀ id generation,
    event.accepted = some (id, generation) → (tenure id earlier).held = some generation) events
  distinct : ∀ id, (tenure id events).granted.Nodup

theorem tenure_append (id : Nat) (events : List Event) (event : Event) :
    tenure id (events ++ [event]) = (tenure id events).observe id event := by
  unfold tenure
  rw [List.foldl_append]
  rfl

def JobState.Claimable (state : JobState) : Prop := state = .pending ∨ state = .scheduled

/-- The job has not run: its lease never expired, no attempt failed and no occurrence is over. -/
def JobRecord.Fresh (job : JobRecord) : Prop :=
  job.jobGeneration = 0 ∧ job.attempt = 0 ∧ job.occurrencesRun = 0

structure Kept (job : JobRecord) (tenure : Tenure) : Prop where
  ones : ∀ generation ∈ tenure.granted, generation = 1
  current : ∀ lease, job.lease = some lease →
    lease.leaseGeneration = 1 ∧ tenure.held = some 1 ∧ (job.state = .leased ∨ job.state = .running)
  unclaimed : tenure.granted = [] →
    tenure.held = none ∧ job.Fresh ∧ (job.state.Claimable ∨ job.state = .cancelled)
  tried : tenure.granted ≠ [] → job.state.Claimable → ¬job.Fresh

section Record

variable {job after : JobRecord} {tenure other : Tenure}

theorem Kept.claimed (kept : Kept job tenure) (busy : ¬job.state.Claimable)
    (going : job.state ≠ .cancelled) : tenure.granted ≠ [] := fun empty =>
  (kept.unclaimed empty).2.2.elim busy going

theorem Kept.claimed_of_lease (kept : Kept job tenure) {lease : Lease}
    (leased : job.lease = some lease) : tenure.granted ≠ [] := by
  obtain ⟨-, -, state⟩ := kept.current lease leased
  refine kept.claimed ?_ ?_ <;> rcases state with state | state <;> simp [state, JobState.Claimable]

theorem Kept.released (kept : Kept job tenure) (claimed : tenure.granted ≠ [])
    (granted : other.granted = tenure.granted) (lease : after.lease = none)
    (tried : after.state.Claimable → ¬after.Fresh) : Kept after other where
  ones := granted ▸ kept.ones
  current := fun held leased => by
    rw [lease] at leased
    exact nomatch leased
  unclaimed := fun empty => absurd (granted ▸ empty) claimed
  tried := fun _ => tried

theorem Kept.holding (kept : Kept job tenure) (claimed : tenure.granted ≠ [])
    (held : tenure.held = some 1)
    (current : ∀ lease, after.lease = some lease → lease.leaseGeneration = 1)
    (state : after.state = .leased ∨ after.state = .running) : Kept after tenure where
  ones := kept.ones
  current := fun lease leased => ⟨current lease leased, held, state⟩
  unclaimed := fun empty => absurd empty claimed
  tried := fun _ claimable => by
    rcases state with state | state <;> simp [state, JobState.Claimable] at claimable

theorem nextAttempt_pos (attempt : Nat) : nextAttempt attempt ≠ 0 := by
  unfold nextAttempt maxU8
  omega

@[simp]
theorem wp_addU64 {S : Type} {state : S} (first second : Nat) {ends : Nat → S → Prop}
    {stops : Fault → S → Prop} : (addU64 first second : Prog S Fault Nat).wp ends stops state ↔
      (first + second > maxU64 → stops .panicked state) ∧
        (first + second ≤ maxU64 → ends (first + second) state) := by
  unfold addU64
  simp only [wp_bind, wp_stopIf, wp_pure, not_lt, gt_iff_lt]

theorem claimIsLegal_iff (state : JobState) (isDue : Bool) : claimIsLegal state.code isDue = true ↔
      state = .pending ∨ state = .scheduled ∧ isDue = true := by
  cases state <;> simp [claimIsLegal, JobState.code]

theorem Kept.idle (kept : Kept job tenure) (busy : job.state ≠ .leased ∧ job.state ≠ .running) :
    job.lease = none := by
  cases leased : job.lease with
  | none => rfl
  | some lease =>
    obtain ⟨-, -, state⟩ := kept.current lease leased
    exact absurd state (not_or.mpr busy)

theorem Kept.idle_of_legal (kept : Kept job tenure) {isDue : Bool}
    (legal : claimIsLegal job.state.code isDue = true) : job.lease = none := by
  refine kept.idle ?_
  rcases (claimIsLegal_iff _ _).mp legal with state | ⟨state, -⟩ <;> simp [state]

theorem claim_kept (kept : Kept job tenure) (workerId nowTick leaseTicks : Nat) :
    (JobRecord.claim workerId nowTick leaseTicks).wp
      (fun grant after => Kept after ⟨grant.2.1 :: tenure.granted, some grant.2.1⟩)
      (fun _ after => after = job) job := by
  unfold JobRecord.claim
  simp only [wp_bind, wp_get, wp_stopIf, wp_set, wp_pure, wp_addU64]
  refine ⟨fun _ => trivial, fun legal => ⟨fun _ => trivial, fun _ => ⟨fun _ => trivial, fun _ => ?_⟩⟩⟩
  have idle := kept.idle_of_legal (by simpa using legal)
  have first : (job.lease.map Lease.leaseGeneration).getD 0 + 1 = 1 := by rw [idle]; rfl
  rw [first]
  exact {
    ones := fun generation member => (List.mem_cons.mp member).elim id (kept.ones generation)
    current := fun lease leased => by
      obtain rfl := Option.some.inj leased
      exact ⟨rfl, rfl, .inl rfl⟩
    unclaimed := fun empty => absurd empty (List.cons_ne_nil _ _)
    tried := fun _ claimable => by simp [JobState.Claimable] at claimable }

def JobRecord.MayClaim (job : JobRecord) (nowTick leaseTicks : Nat) : Prop :=
  claimIsLegal job.state.code (job.isDue nowTick) = true ∧ nowTick + leaseTicks ≤ maxU64

theorem projected_retryable {outcome : OutcomeKind}
    (retried : job.projected outcome = .retryableFailure) : job.attemptsAfter outcome ≠ 0 := by
  have failed : outcome ≠ .success := by
    rintro rfl
    simp [JobRecord.projected, OutcomeKind.code, retryNextStateAfterOutcome,
      JobState.fromCode] at retried
  unfold JobRecord.attemptsAfter
  rw [if_neg failed]
  exact nextAttempt_pos job.attempt

theorem projected_not_claimable (outcome : OutcomeKind) : ¬(job.projected outcome).Claimable := by
  unfold JobRecord.projected retryNextStateAfterOutcome
  split_ifs <;> simp [JobState.fromCode, JobState.Claimable]

section Calls

variable (kept : Kept job tenure)

include kept

theorem claim_decided (workerId nowTick leaseTicks : Nat) :
    (JobRecord.claim workerId nowTick leaseTicks).wp
      (fun _ _ => job.MayClaim nowTick leaseTicks)
      (fun _ _ => ¬job.MayClaim nowTick leaseTicks) job := by
  unfold JobRecord.claim
  simp only [wp_bind, wp_get, wp_stopIf, wp_set, wp_pure, wp_addU64]
  refine ⟨fun refused may => ?_, fun legal => ?_⟩
  · simp [may.1] at refused
  · have granted : claimIsLegal job.state.code (job.isDue nowTick) = true := by simpa using legal
    have first : (job.lease.map Lease.leaseGeneration).getD 0 + 1 = 1 := by
      rw [kept.idle_of_legal granted]
      rfl
    rw [first]
    exact ⟨fun overflow => absurd overflow (by decide), fun _ =>
      ⟨fun overflow may => absurd may.2 (not_le.mpr overflow), fun room => ⟨granted, room⟩⟩⟩

theorem currentLease_held (generation nowTick : Nat) :
    (JobRecord.currentLease generation nowTick).wp
      (fun lease after => after = job ∧ job.lease = some lease ∧ lease.leaseGeneration = 1 ∧
        tenure.held = some generation ∧ tenure.held = some 1)
      (fun _ after => after = job) job := by
  unfold JobRecord.currentLease
  simp only [wp_bind, wp_get, wp_stopIf, wp_ofOption, wp_pure]
  refine ⟨fun _ => trivial, fun lease leased => ⟨fun _ => trivial, fun matching => ?_⟩⟩
  obtain ⟨first, held, -⟩ := kept.current lease leased
  have same : generation = lease.leaseGeneration := by
    simp only [leaseIsCurrent, Bool.decide_and, Bool.not_eq_true, Bool.not_eq_false',
      Bool.and_eq_true, decide_eq_true_eq] at matching
    exact matching.1
  exact ⟨trivial, leased, first, same.trans first ▸ held, held⟩

theorem heartbeat_kept (generation nowTick extendTicks : Nat) :
    (JobRecord.heartbeat generation nowTick extendTicks).wp
      (fun _ after => Kept after tenure ∧ tenure.held = some generation)
      (fun _ after => after = job) job := by
  unfold JobRecord.heartbeat
  simp only [wp_bind, wp_get, wp_stopIf]
  refine ⟨fun _ => trivial, fun state => ?_⟩
  refine wp_mono (currentLease_held kept generation nowTick) (fun lease after current => ?_)
    (fun _ _ same => same)
  obtain ⟨rfl, leased, first, accepted, held⟩ := current
  simp only [wp_bind, wp_set, wp_pure, wp_addU64]
  refine ⟨fun _ => trivial, fun _ => ⟨kept.holding (kept.claimed_of_lease leased) held ?_ ?_, accepted⟩⟩
  · intro other same
    obtain rfl := Option.some.inj same
    exact first
  · exact not_not.mp state

theorem beginExecution_kept (generation nowTick : Nat) :
    (JobRecord.beginExecution generation nowTick).wp
      (fun _ after => Kept after tenure ∧ tenure.held = some generation)
      (fun _ after => after = job) job := by
  unfold JobRecord.beginExecution
  simp only [wp_bind, wp_get, wp_stopIf]
  refine ⟨fun _ => trivial, fun _ => ?_⟩
  refine wp_mono (currentLease_held kept generation nowTick) (fun lease after current => ?_)
    (fun _ _ same => same)
  obtain ⟨rfl, leased, first, accepted, held⟩ := current
  refine ⟨kept.holding (kept.claimed_of_lease leased) held ?_ (.inr rfl), accepted⟩
  intro other same
  rw [leased] at same
  obtain rfl := Option.some.inj same
  exact first

theorem running_held (generation nowTick : Nat) : (JobRecord.running generation nowTick).wp
      (fun found after => found = job ∧ after = job ∧ job.state = .running ∧
        tenure.held = some generation)
      (fun _ after => after = job) job := by
  unfold JobRecord.running
  simp only [wp_bind, wp_get, wp_stopIf]
  refine ⟨fun _ => trivial, fun state => ?_⟩
  refine wp_mono (currentLease_held kept generation nowTick) (fun lease after current => ?_)
    (fun _ _ same => same)
  exact ⟨rfl, current.1, not_not.mp state, current.2.2.2.1⟩

theorem Kept.claimed_of_running (running : job.state = .running) : tenure.granted ≠ [] :=
  kept.claimed (by simp [running, JobState.Claimable]) (by simp [running])

theorem complete_kept (report : CompletionAttempt) : (JobRecord.complete report).wp
      (fun _ after => Kept after tenure.ended ∧ tenure.held = some report.leaseGeneration)
      (fun _ after => Kept after tenure) job := by
  unfold JobRecord.complete
  rw [wp_bind]
  refine wp_mono (running_held kept report.leaseGeneration report.nowTick)
    (fun found after running => ?_) (fun _ after same => same ▸ kept)
  obtain ⟨rfl, rfl, state, held⟩ := running
  have claimed := kept.claimed_of_running state
  rw [wp_bind, wp_set]
  split_ifs with retried
  · simp only [wp_bind, wp_set, wp_pure, wp_addU64]
    have attempted := projected_retryable retried
    exact ⟨fun _ => kept.released claimed rfl rfl fun claimable =>
        absurd claimable (projected_not_claimable _),
      fun _ => ⟨kept.released claimed rfl rfl fun _ fresh => attempted fresh.2.1, held⟩⟩
  · rw [wp_pure]
    exact ⟨kept.released claimed rfl rfl fun claimable =>
      absurd claimable (projected_not_claimable _), held⟩

theorem recordConnectionUncertain_kept :
    JobRecord.recordConnectionUncertain.wp (fun _ after => Kept after tenure.ended)
      (fun _ after => after = job) job := by
  unfold JobRecord.recordConnectionUncertain
  simp only [wp_bind, wp_get, wp_stopIf, wp_set]
  refine ⟨fun _ => trivial, fun state => kept.released (kept.claimed ?_ ?_) rfl rfl ?_⟩
  · rcases not_not.mp state with state | state <;> simp [state, JobState.Claimable]
  · rcases not_not.mp state with state | state <;> simp [state]
  · simp [JobState.Claimable]

/-- A job that is tried again after a report has an attempt counted. -/
theorem reconcileUncertain_kept (decision : Nat) :
    (JobRecord.reconcileUncertain decision).wp (fun _ after => Kept after tenure)
      (fun _ after => after = job) job := by
  unfold JobRecord.reconcileUncertain
  simp only [wp_bind, wp_get, wp_stopIf, wp_set, wp_pure]
  refine ⟨fun _ => trivial, fun state => ?_⟩
  have uncertain := not_not.mp state
  have claimed : tenure.granted ≠ [] :=
    kept.claimed (by simp [uncertain, JobState.Claimable]) (by simp [uncertain])
  have idle := kept.idle (by simp [uncertain])
  split
  · exact kept.released claimed rfl idle (by simp [JobState.Claimable])
  · exact kept.released claimed rfl idle (by simp [JobState.Claimable])
  · split_ifs
    · exact kept.released claimed rfl idle fun _ fresh => nextAttempt_pos job.attempt fresh.2.1
    · exact kept.released claimed rfl idle (by simp [JobState.Claimable])
  · exact kept.released claimed rfl idle (by simp [JobState.Claimable])

theorem expire_kept (nowTick : Nat) : (JobRecord.expire nowTick).wp
      (fun ended after => Kept after (if ended then tenure.ended else tenure))
      (fun _ after => after = job) job := by
  unfold JobRecord.expire
  rw [wp_bind, wp_get]
  cases leased : job.lease with
  | none => exact kept
  | some lease =>
    dsimp only
    split_ifs with expired
    · simp only [wp_bind, wp_set, wp_pure, wp_addU64]
      refine ⟨fun _ => trivial, fun _ => ?_⟩
      exact kept.released (kept.claimed_of_lease leased) rfl rfl fun _ fresh =>
        Nat.succ_ne_zero _ fresh.1
    · exact kept

theorem cancel_kept :
    JobRecord.cancel.wp (fun _ after => Kept after tenure.ended) (fun _ after => after = job)
      job := by
  unfold JobRecord.cancel
  simp only [wp_bind, wp_get, wp_stopIf, wp_set, wp_pure]
  refine ⟨fun _ => trivial, fun _ => ?_⟩
  exact {
    ones := kept.ones
    current := fun _ leased => by cases leased
    unclaimed := fun empty => ⟨rfl, (kept.unclaimed empty).2.1, .inr rfl⟩
    tried := fun _ claimable => by simp [JobState.Claimable] at claimable }

theorem advanceRecurringSchedule_kept (nowTick maxCatchUp : Nat) :
    (JobRecord.advanceRecurringSchedule nowTick maxCatchUp).wp (fun _ after => Kept after tenure)
      (fun _ after => after = job) job := by
  unfold JobRecord.advanceRecurringSchedule
  simp only [wp_bind, wp_get, wp_stopIf]
  refine ⟨fun _ => trivial, fun state => ?_⟩
  have succeeded := not_not.mp state
  have claimed : tenure.granted ≠ [] :=
    kept.claimed (by simp [succeeded, JobState.Claimable]) (by simp [succeeded])
  have idle := kept.idle (by simp [succeeded])
  split
  · simp only [wp_bind, wp_ofOption]
    refine ⟨fun _ => trivial, fun occurrencesRun counted => ?_⟩
    have positive : occurrencesRun ≠ 0 := by
      unfold checkedU64 at counted
      split_ifs at counted
      obtain rfl := Option.some.inj counted
      exact Nat.succ_ne_zero _
    split_ifs
    · simp only [wp_bind, wp_set, wp_pure]
      exact kept.released claimed rfl idle fun claimable => by
        simp [succeeded, JobState.Claimable] at claimable
    · simp only [wp_bind, wp_set, wp_pure, wp_ofOption]
      exact ⟨fun _ => trivial, fun _ _ => kept.released claimed rfl idle fun _ fresh =>
        positive fresh.2.2⟩
  · exact kept

end Calls

end Record

end Semaprax.DurableJobs
