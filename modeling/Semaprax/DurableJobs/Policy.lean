/-
**The policy of the job store** (`std/jobs`).

The library that programs import decides what becomes of a job: whether a call is legal, the state
it leads to, the delay of a retry and the next run of a recurring job. The store states the same
decisions again.

* `Policy` — the functions of the library that the store does not have in the same words. A call
  that traps or breaks a contract has no result.
* `backoff_agrees`, `catchUp_agrees` — both compute the same delay and the same next run.
* `JobRecord.obeysPolicy` — the store refuses what the policy refuses, and decides as it does
  otherwise.
-/

import Semaprax.DurableJobs.Transitions

namespace Semaprax.DurableJobs

open Library

namespace Policy

/-- A decision on a state and a lease. -/
abbrev LeaseCheck : Type :=
  (state leaseGeneration jobGeneration nowTick deadlineTick : Nat) → Bool

def difference (first second : Nat) : Option Nat :=
  if second ≤ first then some (first - second) else none

/-- A result that meets its contract. -/
def ensuring (contract : Nat → Bool) (result : Nat) : Option Nat :=
  if contract result then some result else none

def stateIsValid (state : Nat) : Bool := state ≤ 9

def stateHoldsLease (state : Nat) : Bool := state = 2 ∨ state = 3

def beginExecutionIsLegal : LeaseCheck := fun state leaseGeneration jobGeneration now deadline =>
  state = 2 && leaseIsCurrent leaseGeneration jobGeneration now deadline

def heartbeatIsLegal : LeaseCheck := fun state leaseGeneration jobGeneration now deadline =>
  stateHoldsLease state && leaseIsCurrent leaseGeneration jobGeneration now deadline

def completionIsLegal : LeaseCheck := fun state leaseGeneration jobGeneration now deadline =>
  state = 3 && leaseIsCurrent leaseGeneration jobGeneration now deadline

def outcomeKindIsValid (kind : Nat) : Bool := kind ≤ 3

def nextStateAfterOutcome (kind attempt maxAttempts : Nat) : Option Nat :=
  ensuring stateIsValid <|
    if !outcomeKindIsValid kind then 6
    else if kind = 0 then 4
    else if kind = 2 then 6
    else if kind = 3 then 8
    else if retryShouldDeadLetter attempt maxAttempts then 9
    else 5

/-- The loop of `retry_backoff_ticks`. -/
def backoffLoop (maxTicks : Nat) : Nat → Nat → Option Nat
  | 0, ticks => some ticks
  | remaining + 1, ticks =>
    if ticks < maxTicks then do
      let room ← difference maxTicks ticks
      let ticks ← if ticks > room then pure maxTicks else checkedU64 (ticks + ticks)
      backoffLoop maxTicks remaining ticks
    else some ticks

def retryBackoffTicks (attempt baseTicks maxTicks : Nat) : Option Nat := do
  let ticks ← backoffLoop maxTicks attempt (if baseTicks > maxTicks then maxTicks else baseTicks)
  ensuring (· ≤ maxTicks) ticks

def scheduleMissedWindows (nowTick nextRunTick intervalTick : Nat) : Option Nat :=
  if intervalTick > 0 then
    if nowTick ≤ nextRunTick then some 0
    else do pure ((← difference nowTick nextRunTick) / intervalTick)
  else none

def scheduleCatchUpNextRun (nowTick nextRunTick intervalTick maxCatchUp : Nat) : Option Nat :=
  if intervalTick > 0 then do
    let missed ← scheduleMissedWindows nowTick nextRunTick intervalTick
    let boundedMissed := if missed > maxCatchUp then maxCatchUp else missed
    let delay ← checkedU64 (intervalTick * (← checkedU64 (boundedMissed + 1)))
    checkedU64 (nextRunTick + delay)
  else none

def recurrenceIsExhausted (occurrencesRun maxOccurrences : Nat) : Bool :=
  occurrencesRun ≥ maxOccurrences

def cancelNextState (state : Nat) : Option Nat :=
  ensuring stateIsValid <|
    if cancelIsLegal state then 7 else if stateIsValid state then state else 6

def uncertainReconcile (decision : Nat) (isIdempotentHandler : Bool) (attempt maxAttempts : Nat) :
    Option Nat :=
  ensuring stateIsValid <|
    if decision = 0 then 4
    else if decision = 1 then 6
    else if decision = 2 && uncertainRetryIsPermitted isIdempotentHandler attempt maxAttempts then 5
    else 8

end Policy

variable {job : JobRecord} {maxTicks : Nat}

theorem backoffLoop_agrees (word : maxTicks ≤ maxU64) (attempt : Nat) : ∀ ticks ≤ maxTicks,
    Policy.backoffLoop maxTicks attempt ticks = some (doubled maxTicks attempt ticks) ∧
      doubled maxTicks attempt ticks ≤ maxTicks := by
  induction attempt with
  | zero => exact fun ticks bound => ⟨rfl, bound⟩
  | succ attempt later =>
    intro ticks bound
    unfold Policy.backoffLoop doubled
    by_cases small : ticks < maxTicks
    · have room : Policy.difference maxTicks ticks = some (maxTicks - ticks) := if_pos bound
      rw [if_pos small, if_neg (by omega), room]
      simp only [Option.bind_eq_bind, Option.bind_some]
      by_cases capped : ticks > maxTicks - ticks
      · have next : min (min (ticks * 2) maxU64) maxTicks = maxTicks := by omega
        rw [if_pos capped, next]
        exact later maxTicks le_rfl
      · have next : min (min (ticks * 2) maxU64) maxTicks = ticks + ticks := by omega
        have fits : checkedU64 (ticks + ticks) = some (ticks + ticks) := if_pos (by omega)
        rw [if_neg capped, next, fits]
        exact later (ticks + ticks) (by omega)
    · rw [if_neg small, if_pos (by omega)]
      exact ⟨rfl, bound⟩

theorem backoff_agrees (word : maxTicks ≤ maxU64) (attempt baseTicks : Nat) :
    Policy.retryBackoffTicks attempt baseTicks maxTicks =
      some (retryBackoffTicks attempt baseTicks maxTicks) := by
  have start : (if baseTicks > maxTicks then maxTicks else baseTicks) = min baseTicks maxTicks := by
    split_ifs <;> omega
  obtain ⟨policy, bound⟩ := backoffLoop_agrees word attempt _ (min_le_right baseTicks maxTicks)
  unfold Policy.retryBackoffTicks retryBackoffTicks Policy.ensuring
  simp only [start, policy, Option.bind_eq_bind, Option.bind_some]
  exact if_pos (decide_eq_true bound)

theorem catchUp_agrees (nowTick nextRunTick intervalTick maxCatchUp : Nat) :
    Policy.scheduleCatchUpNextRun nowTick nextRunTick intervalTick maxCatchUp =
      recurringNextRun nextRunTick intervalTick nowTick maxCatchUp := by
  unfold Policy.scheduleCatchUpNextRun recurringNextRun
  by_cases still : intervalTick = 0
  · rw [if_pos still, if_neg (by omega)]
  · have missed : Policy.scheduleMissedWindows nowTick nextRunTick intervalTick =
        some ((nowTick - nextRunTick) / intervalTick) := by
      unfold Policy.scheduleMissedWindows Policy.difference
      rw [if_pos (by omega)]
      split_ifs with early late
      · rw [Nat.sub_eq_zero_of_le early, Nat.zero_div]
      · rfl
      · omega
    have bounded : ∀ windows : Nat, (if windows > maxCatchUp then maxCatchUp else windows) =
        min windows maxCatchUp := by
      intro windows
      split_ifs <;> omega
    rw [if_neg still, if_pos (by omega), missed]
    simp only [Option.bind_eq_bind, Option.bind_some, bounded]

namespace JobRecord

/-- A call is refused, and the job kept, if the policy does not allow it; otherwise it panics or
makes what the policy decides. -/
def Obeys {A : Type} (job : JobRecord) (legal : Bool) (call : Prog JobRecord Fault A)
    (made : A → JobRecord → Prop) : Prop :=
  call.wp (fun value after => legal = true ∧ made value after)
    (fun fault after =>
      if fault = .panicked then legal = true else legal = false ∧ after = job) job

/-- A decision on the lease that a call presents. -/
def presents (job : JobRecord) (check : Policy.LeaseCheck) (leaseGeneration nowTick : Nat) : Bool :=
  match job.lease with
  | none => false
  | some lease =>
    check job.state.code leaseGeneration lease.leaseGeneration nowTick lease.deadlineTick

theorem code_eq_code {state other : JobState} : state.code = other.code ↔ state = other := by
  cases state <;> cases other <;> simp [JobState.code]

theorem outcome_agrees (kind attempt maxAttempts : Nat) :
    Policy.nextStateAfterOutcome kind attempt maxAttempts =
        some (retryNextStateAfterOutcome kind attempt maxAttempts) ∧
      retryNextStateAfterOutcome kind attempt maxAttempts ≤ 9 := by
  have known : ((!Policy.outcomeKindIsValid kind) = true) = (kind > 3) := by
    simp [Policy.outcomeKindIsValid]
  have valid : retryNextStateAfterOutcome kind attempt maxAttempts ≤ 9 := by
    unfold retryNextStateAfterOutcome
    split_ifs <;> omega
  refine ⟨?_, valid⟩
  unfold Policy.nextStateAfterOutcome Policy.ensuring Policy.stateIsValid
  simp only [known]
  exact if_pos (decide_eq_true valid)

theorem code_fromCode {code : Nat} (valid : code ≤ 9) : (JobState.fromCode code).code = code := by
  interval_cases code <;> rfl

/-- The gate of a call that presents a lease. -/
theorem presents_wp {A : Type} {check : Policy.LeaseCheck} {refused : Prop} [Decidable refused]
    {leaseGeneration nowTick : Nat} {rest : Lease → Prog JobRecord Fault A}
    {ends : A → JobRecord → Prop} {stops : Fault → JobRecord → Prop}
    (gate : ∀ generation deadlineTick,
      check job.state.code leaseGeneration generation nowTick deadlineTick =
        (!decide refused && leaseIsCurrent leaseGeneration generation nowTick deadlineTick))
    (passed : ∀ lease, job.presents check leaseGeneration nowTick = true →
      (rest lease).wp ends stops job)
    (stopped : job.presents check leaseGeneration nowTick = false →
      stops (.refused .leaseNotCurrent) job) :
    (stopIf refused (.refused .leaseNotCurrent)).wp
      (fun _ => (currentLease leaseGeneration nowTick >>= rest).wp ends stops) stops job := by
  unfold currentLease
  unfold presents at passed stopped
  simp only [wp_bind, wp_get, wp_ofOption, wp_stopIf, wp_pure]
  cases leased : job.lease with
  | none =>
    rw [leased] at stopped
    exact ⟨fun _ => stopped rfl, fun _ => ⟨fun _ => stopped rfl, fun _ found => by cases found⟩⟩
  | some lease =>
    simp only [leased, gate] at passed stopped
    refine ⟨fun closed => stopped (by simp [closed]), fun opened => ⟨(fun none => by cases none), ?_⟩⟩
    rintro _ ⟨⟩
    refine ⟨fun stale => stopped ?_, fun current => passed lease ?_⟩
    · simpa using fun _ => stale
    · simpa [opened] using current

/-- What the policy says of each call on a job. A retry waits for the delay of the policy, and a job
that is tried again after an uncertain attempt waits in the queue. -/
structure ObeysPolicy (job : JobRecord) : Prop where
  claim (workerId nowTick leaseTicks : Nat) :
    job.Obeys (claimIsLegal job.state.code (job.isDue nowTick)) (claim workerId nowTick leaseTicks)
      fun _ after => after.state = .leased
  beginExecution (leaseGeneration nowTick : Nat) :
    job.Obeys (job.presents Policy.beginExecutionIsLegal leaseGeneration nowTick)
      (beginExecution leaseGeneration nowTick) fun _ after => after.state = .running
  heartbeat (leaseGeneration nowTick extendTicks : Nat) :
    job.Obeys (job.presents Policy.heartbeatIsLegal leaseGeneration nowTick)
      (heartbeat leaseGeneration nowTick extendTicks)
      fun deadlineTick after => after.state = job.state ∧ deadlineTick = nowTick + extendTicks
  complete (report : CompletionAttempt) (word : report.maxBackoffTicks ≤ maxU64) :
    job.Obeys (job.presents Policy.completionIsLegal report.leaseGeneration report.nowTick)
      (complete report) fun state after => after.state = state ∧
        ∃ decided, Policy.nextStateAfterOutcome report.outcome.code
            (job.attemptsAfter report.outcome) job.maxAttempts = some decided ∧
          if decided = 5 then state = .scheduled ∧ ∃ delay, Policy.retryBackoffTicks
              (job.attemptsAfter report.outcome) report.baseBackoffTicks report.maxBackoffTicks =
                some delay ∧ after.nextRunTick = some (report.nowTick + delay)
          else state.code = decided ∧ after.nextRunTick = job.nextRunTick
  cancel : job.Obeys (cancelIsLegal job.state.code) cancel fun state after =>
    after.state = state ∧ Policy.cancelNextState job.state.code = some state.code
  reconcileUncertain (decision : Nat) :
    job.Obeys (job.state = .uncertain) (reconcileUncertain decision) fun state after =>
      after.state = state ∧ ∃ decided, Policy.uncertainReconcile decision
          job.isIdempotentHandler job.attempt job.maxAttempts = some decided ∧
        if decided = 5 then state = .pending ∧ after.attempt = nextAttempt job.attempt
        else state.code = decided ∧ after.attempt = job.attempt
  advanceRecurringSchedule (nowTick maxCatchUp : Nat) :
    (advanceRecurringSchedule nowTick maxCatchUp).wp
      (fun next after => ∀ nextRunTick intervalTick maxOccurrences,
        job.nextRunTick = some nextRunTick → job.intervalTick = some intervalTick →
        job.maxOccurrences = some maxOccurrences → after.nextRunTick = next ∧
          next = if Policy.recurrenceIsExhausted (job.occurrencesRun + 1) maxOccurrences then none
            else Policy.scheduleCatchUpNextRun nowTick nextRunTick intervalTick maxCatchUp)
      (fun _ after => after = job) job

/-- The store takes the decisions of the policy. -/
theorem obeysPolicy (job : JobRecord) : job.ObeysPolicy where
  claim workerId nowTick leaseTicks := by
    unfold Obeys claim
    simp only [wp_bind, wp_get, wp_stopIf, wp_set, wp_pure, wp_addU64]
    refine ⟨fun illegal => ⟨by simpa using illegal, trivial⟩, fun legal => ?_⟩
    have legal : claimIsLegal job.state.code (job.isDue nowTick) = true := by simpa using legal
    exact ⟨fun _ => legal, fun _ => ⟨fun _ => legal, fun _ => ⟨legal, trivial⟩⟩⟩
  beginExecution leaseGeneration nowTick := by
    unfold Obeys beginExecution
    rw [wp_bind, wp_get, wp_bind]
    refine presents_wp (fun generation deadlineTick => ?_) (fun lease legal => ⟨legal, rfl⟩)
      fun illegal => ⟨illegal, rfl⟩
    cases state : job.state <;> simp [Policy.beginExecutionIsLegal, JobState.code]
  heartbeat leaseGeneration nowTick extendTicks := by
    unfold Obeys heartbeat
    rw [wp_bind, wp_get, wp_bind]
    refine presents_wp (fun generation deadlineTick => ?_) (fun lease legal => ?_)
      fun illegal => ⟨illegal, rfl⟩
    · cases state : job.state <;>
        simp [Policy.heartbeatIsLegal, Policy.stateHoldsLease, JobState.code]
    · simp only [wp_bind, wp_addU64, wp_set, wp_pure]
      exact ⟨fun _ => legal, fun _ => ⟨legal, trivial, trivial⟩⟩
  complete report word := by
    unfold Obeys complete running
    rw [wp_bind, wp_bind, wp_get, wp_bind]
    refine presents_wp (fun generation deadlineTick => ?_) (fun lease legal => ?_)
      fun illegal => ⟨illegal, rfl⟩
    · cases state : job.state <;> simp [Policy.completionIsLegal, JobState.code]
    · obtain ⟨decided, valid⟩ := outcome_agrees report.outcome.code
        (job.attemptsAfter report.outcome) job.maxAttempts
      have named : (job.projected report.outcome).code =
          retryNextStateAfterOutcome report.outcome.code (job.attemptsAfter report.outcome)
            job.maxAttempts := code_fromCode valid
      rw [← named] at decided
      simp only [wp_pure, wp_bind, wp_set]
      split_ifs with retried
      · simp only [wp_bind, wp_addU64, wp_set, wp_pure]
        refine ⟨fun _ => legal, fun _ => ⟨legal, trivial, 5, ?_, ?_⟩⟩
        · rw [decided, retried]
          rfl
        · rw [if_pos rfl]
          exact ⟨trivial, _, backoff_agrees word _ _, rfl⟩
      · have other : (job.projected report.outcome).code ≠ 5 := fun retry =>
          retried (code_eq_code.mp (retry.trans rfl))
        refine (wp_pure _).mpr ⟨legal, rfl, _, decided, ?_⟩
        rw [if_neg other]
        exact ⟨rfl, rfl⟩
  cancel := by
    unfold Obeys cancel
    simp only [wp_bind, wp_get, wp_stopIf, wp_set, wp_pure]
    refine ⟨fun illegal => ⟨by simpa using illegal, trivial⟩, fun legal => ?_⟩
    have legal : cancelIsLegal job.state.code = true := by simpa using legal
    refine ⟨legal, trivial, ?_⟩
    unfold Policy.cancelNextState
    rw [if_pos legal]
    rfl
  reconcileUncertain decision := by
    unfold Obeys reconcileUncertain
    simp only [wp_bind, wp_get, wp_stopIf, wp_set, wp_pure]
    refine ⟨fun settled => ⟨decide_eq_false settled, trivial⟩, fun uncertain => ?_⟩
    refine ⟨decide_eq_true (not_not.mp uncertain), trivial, ?_⟩
    rcases decision with _ | _ | _ | more
    · exact ⟨4, rfl, rfl, rfl⟩
    · exact ⟨6, rfl, rfl, rfl⟩
    · unfold Policy.uncertainReconcile
      by_cases permitted : uncertainRetryIsPermitted job.isIdempotentHandler job.attempt
          job.maxAttempts = true
      · simp [permitted, Policy.ensuring, Policy.stateIsValid]
      · simp [permitted, Policy.ensuring, Policy.stateIsValid, JobState.code]
    · exact ⟨8, rfl, rfl, rfl⟩
  advanceRecurringSchedule nowTick maxCatchUp := by
    unfold advanceRecurringSchedule
    simp only [wp_bind, wp_get, wp_stopIf]
    refine ⟨fun _ => trivial, fun _ => ?_⟩
    split
    · rename_i nextRunTick intervalTick maxOccurrences scheduled every upTo
      simp only [wp_bind, wp_ofOption]
      refine ⟨fun _ => trivial, fun occurrencesRun counted => ?_⟩
      obtain rfl : job.occurrencesRun + 1 = occurrencesRun := by
        unfold checkedU64 at counted
        split_ifs at counted
        exact Option.some.inj counted
      split_ifs with exhausted
      · simp only [wp_bind, wp_set, wp_pure]
        rw [scheduled, every, upTo]
        rintro _ _ _ ⟨⟩ ⟨⟩ ⟨⟩
        exact ⟨trivial, (if_pos (decide_eq_true exhausted)).symm⟩
      · simp only [wp_bind, wp_set, wp_pure, wp_ofOption]
        refine ⟨fun _ => trivial, fun next found => ?_⟩
        rw [scheduled, every, upTo]
        rintro _ _ _ ⟨⟩ ⟨⟩ ⟨⟩
        have goesOn : ¬Policy.recurrenceIsExhausted _ _ = true := fun spent =>
          exhausted (of_decide_eq_true spent)
        rw [if_neg goesOn, catchUp_agrees, found]
        exact ⟨trivial, rfl⟩
    · rename_i other
      exact fun nextRunTick intervalTick maxOccurrences scheduled every upTo =>
        absurd upTo (other _ _ _ scheduled every)

end JobRecord

end Semaprax.DurableJobs
