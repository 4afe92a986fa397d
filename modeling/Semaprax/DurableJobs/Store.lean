/-
**The job store** (`job_fixture.rs`).

Jobs with their lifecycle states and leases. A worker that claims a job is granted a generation,
which it presents to every later call; a lease ends by an expiry, a completion, a cancellation or a
report that its connection was lost.

* The decision procedures of `decisions`.
* `JobRecord.claim`, … — what each call does to the record of its job.
* `JobStore.perform` — one call on the store.

A machine-word addition that overflows panics, and the store is left as it was at that point.
-/

import Semaprax.DurableJobs.Ledger

namespace Semaprax.DurableJobs

open Library

def leaseIsCurrent (leaseGeneration jobGeneration nowTick deadlineTick : Nat) : Bool :=
  leaseGeneration = jobGeneration ∧ nowTick < deadlineTick

def claimIsLegal (state : Nat) (isDue : Bool) : Bool := state = 0 ∨ state = 1 ∧ isDue

def retryShouldDeadLetter (attempt maxAttempts : Nat) : Bool := attempt ≥ maxAttempts

/-- The state after an attempt; the kinds are success, retryable, permanent and uncertain. -/
def retryNextStateAfterOutcome (kind attempt maxAttempts : Nat) : Nat :=
  if kind > 3 then 6
  else if kind = 0 then 4
  else if kind = 2 then 6
  else if kind = 3 then 8
  else if retryShouldDeadLetter attempt maxAttempts then 9
  else 5

/-- The greatest unsigned 64-bit and 8-bit numbers. -/
def maxU64 : Nat := 2 ^ 64 - 1
def maxU8 : Nat := 2 ^ 8 - 1

/-- Twice the delay for each attempt, up to the greatest delay. -/
def doubled (maxTicks : Nat) : Nat → Nat → Nat
  | 0, ticks => ticks
  | attempt + 1, ticks =>
    if ticks ≥ maxTicks then ticks
    else doubled maxTicks attempt (min (min (ticks * 2) maxU64) maxTicks)

def retryBackoffTicks (attempt baseTicks maxTicks : Nat) : Nat :=
  doubled maxTicks attempt (min baseTicks maxTicks)

def cancelIsLegal (state : Nat) : Bool := state = 0 ∨ state = 1 ∨ state = 2 ∨ state = 5

def uncertainRetryIsPermitted (isIdempotentHandler : Bool) (attempt maxAttempts : Nat) : Bool :=
  isIdempotentHandler && !retryShouldDeadLetter attempt maxAttempts

def scheduleIsDue (nowTick nextRunTick : Nat) : Bool := nowTick ≥ nextRunTick

inductive JobState
  | pending
  | scheduled
  | leased
  | running
  | succeeded
  | retryableFailure
  | permanentFailure
  | cancelled
  | uncertain
  | deadLettered
deriving DecidableEq, Repr

def JobState.code : JobState → Nat
  | .pending => 0
  | .scheduled => 1
  | .leased => 2
  | .running => 3
  | .succeeded => 4
  | .retryableFailure => 5
  | .permanentFailure => 6
  | .cancelled => 7
  | .uncertain => 8
  | .deadLettered => 9

def JobState.fromCode : Nat → JobState
  | 0 => .pending
  | 1 => .scheduled
  | 2 => .leased
  | 3 => .running
  | 4 => .succeeded
  | 5 => .retryableFailure
  | 6 => .permanentFailure
  | 7 => .cancelled
  | 8 => .uncertain
  | _ => .deadLettered

/-- The outcome of an attempt. -/
inductive OutcomeKind
  | success
  | retryable
  | permanent
  | uncertain
deriving DecidableEq, Repr

def OutcomeKind.code : OutcomeKind → Nat
  | .success => 0
  | .retryable => 1
  | .permanent => 2
  | .uncertain => 3

inductive JobFixtureError
  | unknownJob
  | claimNotLegal
  | leaseNotCurrent
  | cancelNotLegal
  | notUncertain
  | scheduleOverflow
  | scheduleNotAdvanceable
  | revisionRefused
deriving DecidableEq, Repr

/-- How a call may fail: with an error, or with a panic. -/
inductive Fault
  | refused (error : JobFixtureError)
  | panicked
deriving DecidableEq, Repr

structure Lease where
  workerId : Nat
  leaseGeneration : Nat
  deadlineTick : Nat
deriving DecidableEq, Repr

structure JobRecord where
  idempotencyKey : List UInt8
  payloadDescriptor : List UInt8
  boundRevision : Nat
  state : JobState
  jobGeneration : Nat
  lease : Option Lease
  attempt : Nat
  maxAttempts : Nat
  isIdempotentHandler : Bool
  everRan : Bool
  nextRunTick : Option Nat
  intervalTick : Option Nat
  maxOccurrences : Option Nat
  occurrencesRun : Nat
deriving DecidableEq, Repr

inductive EnqueueOutcome
  | created (id : Nat)
  | duplicate (id : Nat)
  | conflict
deriving DecidableEq, Repr

structure Schedule where
  nextRunTick : Nat
  intervalTick : Nat
  maxOccurrences : Nat
  maxCatchUp : Nat
deriving DecidableEq, Repr

/-- What a worker reports of an attempt. -/
structure CompletionAttempt where
  leaseGeneration : Nat
  nowTick : Nat
  outcome : OutcomeKind
  baseBackoffTicks : Nat
  maxBackoffTicks : Nat

structure JobStore where
  jobs : BTreeMap Nat JobRecord
  nextId : Nat
  currentRevision : Nat

/-- The sum of two 64-bit numbers; an overflow panics. -/
def addU64 {S : Type} (first second : Nat) : Prog S Fault Nat := do
  stopIf (first + second > maxU64) .panicked
  pure (first + second)

/-- `saturating_add(1)` on eight bits. -/
def nextAttempt (attempt : Nat) : Nat := min (attempt + 1) maxU8

namespace JobRecord

/-- Whether the next run is due, if one is scheduled. -/
def isDue (job : JobRecord) (nowTick : Nat) : Bool :=
  match job.nextRunTick with
  | none => true
  | some nextRun => scheduleIsDue nowTick nextRun

def claim (workerId nowTick leaseTicks : Nat) : Prog JobRecord Fault (Nat × Nat × Nat) := do
  let job ← Prog.get
  stopIf (!claimIsLegal job.state.code (job.isDue nowTick)) (.refused .claimNotLegal)
  let leaseGeneration ← addU64 ((job.lease.map Lease.leaseGeneration).getD 0) 1
  let deadlineTick ← addU64 nowTick leaseTicks
  Prog.set
    { job with
      state := .leased
      lease := some ⟨workerId, leaseGeneration, deadlineTick⟩ }
  pure (job.jobGeneration, leaseGeneration, deadlineTick)

/-- The lease, if the generation that is presented is its own and its deadline has not passed. -/
def currentLease (leaseGeneration nowTick : Nat) : Prog JobRecord Fault Lease := do
  let job ← Prog.get
  let lease ← ofOption (.refused .leaseNotCurrent) job.lease
  stopIf (!leaseIsCurrent leaseGeneration lease.leaseGeneration nowTick lease.deadlineTick)
    (.refused .leaseNotCurrent)
  pure lease

/-- Move the deadline of the current lease. -/
def heartbeat (leaseGeneration nowTick extendTicks : Nat) : Prog JobRecord Fault Nat := do
  let job ← Prog.get
  stopIf (¬(job.state = .leased ∨ job.state = .running)) (.refused .leaseNotCurrent)
  let lease ← currentLease leaseGeneration nowTick
  let deadlineTick ← addU64 nowTick extendTicks
  let lease := { lease with
    deadlineTick := deadlineTick }
  Prog.set
    { job with
      lease := some lease }
  pure deadlineTick

def beginExecution (leaseGeneration nowTick : Nat) : Prog JobRecord Fault Unit := do
  let job ← Prog.get
  stopIf (job.state ≠ .leased) (.refused .leaseNotCurrent)
  let _ ← currentLease leaseGeneration nowTick
  Prog.set
    { job with
      state := .running
      everRan := true }

def attemptsAfter (job : JobRecord) (outcome : OutcomeKind) : Nat :=
  if outcome = .success then job.attempt else nextAttempt job.attempt

def projected (job : JobRecord) (outcome : OutcomeKind) : JobState :=
  .fromCode (retryNextStateAfterOutcome outcome.code (job.attemptsAfter outcome) job.maxAttempts)

def running (leaseGeneration nowTick : Nat) : Prog JobRecord Fault JobRecord := do
  let job ← Prog.get
  stopIf (job.state ≠ .running) (.refused .leaseNotCurrent)
  let _ ← currentLease leaseGeneration nowTick
  pure job

/-- Record the outcome of an attempt and end the lease. -/
def complete (report : CompletionAttempt) : Prog JobRecord Fault JobState := do
  let job ← running report.leaseGeneration report.nowTick
  let job := { job with
    attempt := job.attemptsAfter report.outcome
    state := job.projected report.outcome
    lease := none }
  Prog.set job
  if job.state = .retryableFailure then
    let backoff := retryBackoffTicks job.attempt report.baseBackoffTicks report.maxBackoffTicks
    let nextRun ← addU64 report.nowTick backoff
    Prog.set
      { job with
        nextRunTick := some nextRun
        state := .scheduled }
    pure .scheduled
  else pure job.state

/-- The outcome of an attempt cannot be determined. -/
def recordConnectionUncertain : Prog JobRecord Fault Unit := do
  let job ← Prog.get
  stopIf (¬(job.state = .leased ∨ job.state = .running)) (.refused .leaseNotCurrent)
  Prog.set
    { job with
      everRan := job.everRan || job.state == .running
      state := .uncertain
      lease := none }

/-- Settle an uncertain job: it succeeded, it failed, or it is tried again where that is permitted. -/
def reconcileUncertain (decision : Nat) : Prog JobRecord Fault JobState := do
  let job ← Prog.get
  stopIf (job.state ≠ .uncertain) (.refused .notUncertain)
  let job :=
    match decision with
    | 0 => { job with state := JobState.succeeded }
    | 1 => { job with state := JobState.permanentFailure }
    | 2 =>
      if uncertainRetryIsPermitted job.isIdempotentHandler job.attempt job.maxAttempts then
        { job with
          attempt := nextAttempt job.attempt
          state := JobState.pending }
      else { job with state := JobState.uncertain }
    | _ => { job with state := JobState.uncertain }
  Prog.set job
  pure job.state

/-- Return the job to the queue if its lease has expired; whether it has. -/
def expire (nowTick : Nat) : Prog JobRecord Fault Bool := do
  let job ← Prog.get
  match job.lease with
  | none => pure false
  | some lease =>
    if nowTick ≥ lease.deadlineTick then
      let jobGeneration ← addU64 job.jobGeneration 1
      Prog.set
        { job with
          jobGeneration := jobGeneration
          lease := none
          state := .pending }
      pure true
    else pure false

def cancel : Prog JobRecord Fault JobState := do
  let job ← Prog.get
  stopIf (!cancelIsLegal job.state.code) (.refused .cancelNotLegal)
  Prog.set
    { job with
      state := .cancelled
      lease := none }
  pure .cancelled

end JobRecord

/-- A product or sum of 64-bit numbers, or nothing if it overflows. -/
def checkedU64 (value : Nat) : Option Nat := if value ≤ maxU64 then some value else none

def recurringNextRun (nextRunTick intervalTick nowTick maxCatchUp : Nat) : Option Nat :=
  if intervalTick = 0 then none
  else do
    let missed := (nowTick - nextRunTick) / intervalTick
    let steps ← checkedU64 (min missed maxCatchUp + 1)
    let delay ← checkedU64 (intervalTick * steps)
    checkedU64 (nextRunTick + delay)

def JobRecord.advanceRecurringSchedule (nowTick maxCatchUp : Nat) :
    Prog JobRecord Fault (Option Nat) := do
  let job ← Prog.get
  stopIf (job.state ≠ .succeeded) (.refused .scheduleNotAdvanceable)
  match job.nextRunTick, job.intervalTick, job.maxOccurrences with
  | some nextRunTick, some intervalTick, some maxOccurrences =>
    let occurrencesRun ← ofOption (.refused .scheduleOverflow)
      (checkedU64 (job.occurrencesRun + 1))
    if occurrencesRun ≥ maxOccurrences then
      Prog.set
        { job with
          occurrencesRun := occurrencesRun
          nextRunTick := none }
      pure none
    else
      let next ← ofOption (.refused .scheduleOverflow)
        (recurringNextRun nextRunTick intervalTick nowTick maxCatchUp)
      Prog.set
        { job with
          occurrencesRun := occurrencesRun
          attempt := 0
          nextRunTick := some next
          state := .scheduled }
      pure (some next)
  | _, _, _ => pure none

/-- The check that a recurring job can be scheduled again, before it is run. -/
def JobRecord.recurringAdvanceIsSafe (job : JobRecord) (nowTick maxCatchUp : Nat) :
    Except JobFixtureError Unit :=
  match job.nextRunTick, job.intervalTick, job.maxOccurrences with
  | some nextRunTick, some intervalTick, some maxOccurrences =>
    match checkedU64 (job.occurrencesRun + 1) with
    | none => .error .scheduleOverflow
    | some occurrencesRun =>
      if occurrencesRun < maxOccurrences then
        match recurringNextRun nextRunTick intervalTick nowTick maxCatchUp with
        | none => .error .scheduleOverflow
        | some _ => .ok ()
      else .ok ()
  | _, _, _ => .ok ()

namespace JobStore

/-- Create the table of the jobs. -/
def installLedgerSchema : Prog DatabaseFixture FixtureError Unit :=
  DatabaseFixture.createTable "jobs" [⟨"id", 3⟩, ⟨"idempotency_key", 4⟩, ⟨"state", 3⟩]

def new (currentRevision : Nat) : JobStore := ⟨∅, 1, currentRevision⟩

def put (store : JobStore) (id : Nat) (job : JobRecord) : JobStore :=
  { store with
    jobs := store.jobs.insert id job }

def onJob {A : Type} (id : Nat) (call : Prog JobRecord Fault A) : Prog JobStore Fault A :=
  fun store =>
    match store.jobs[id]? with
    | none => (.error (.refused .unknownJob), store)
    | some job => ((call job).1, store.put id (call job).2)

def expectLedger {A : Type} (call : Prog DatabaseFixture FixtureError A) :
    Prog (JobStore × DatabaseFixture) Fault A :=
  Prog.mapStop (fun _ => .panicked) call.onSecond

def freshJob (idempotencyKey payloadDescriptor : List UInt8) (schedule : Option Schedule)
    (maxAttempts : Nat) (isIdempotentHandler : Bool) (boundRevision : Nat) : JobRecord where
  idempotencyKey := idempotencyKey
  payloadDescriptor := payloadDescriptor
  boundRevision := boundRevision
  state := if schedule.isSome then .scheduled else .pending
  jobGeneration := 0
  lease := none
  attempt := 0
  maxAttempts := maxAttempts
  isIdempotentHandler := isIdempotentHandler
  everRan := false
  nextRunTick := schedule.map Schedule.nextRunTick
  intervalTick := schedule.map Schedule.intervalTick
  maxOccurrences := schedule.map Schedule.maxOccurrences
  occurrencesRun := 0

/-- Enter a job, unless its key is in use, and record it in the database in one transaction. -/
def enqueue (idempotencyKey payloadDescriptor : List UInt8) (schedule : Option Schedule)
    (maxAttempts : Nat) (isIdempotentHandler : Bool) :
    Prog (JobStore × DatabaseFixture) Fault EnqueueOutcome := do
  let store ← Prog.onFirst Prog.get
  match store.jobs.toList.find? fun entry => entry.2.idempotencyKey = idempotencyKey with
  | some (id, job) =>
    if job.payloadDescriptor = payloadDescriptor then pure (.duplicate id) else pure .conflict
  | none =>
    expectLedger DatabaseFixture.begin
    let id := store.nextId
    expectLedger (DatabaseFixture.insert "jobs" [.usize id, .bytes idempotencyKey, .usize 0])
    expectLedger DatabaseFixture.commit
    let nextId ← addU64 store.nextId 1
    let job := freshJob idempotencyKey payloadDescriptor schedule maxAttempts isIdempotentHandler
      store.currentRevision
    Prog.onFirst (Prog.set ({ store with nextId := nextId }.put id job))
    pure (.created id)

def recordInLedger (id : Nat) (state : JobState) : Prog DatabaseFixture Unit Unit := do
  Prog.mapStop (fun _ => ()) DatabaseFixture.begin
  let rowsUpdated ← Prog.mapStop (fun _ => ())
    (DatabaseFixture.updateColumn "jobs" 0 (.usize id) 2 (.usize state.code))
  if rowsUpdated ≠ 1 then
    let _ ← Prog.attempt DatabaseFixture.rollback
    Prog.stop ()
  else Prog.mapStop (fun _ => ()) DatabaseFixture.commit

/-- Complete a job once the database has confirmed it; otherwise its outcome is uncertain. -/
def completeDurable (id : Nat) (report : CompletionAttempt) :
    Prog (JobStore × DatabaseFixture) Fault JobState := do
  let job ← Prog.onFirst (onJob id (JobRecord.running report.leaseGeneration report.nowTick))
  let projected := job.projected report.outcome
  let ledgerState := if projected = .retryableFailure then .scheduled else projected
  let confirmed ← Prog.attempt (Prog.onSecond (recordInLedger id ledgerState))
  match confirmed with
  | some () => Prog.onFirst (onJob id (JobRecord.complete report))
  | none =>
    Prog.onFirst (onJob id JobRecord.recordConnectionUncertain)
    pure .uncertain

def stateOf (store : JobStore) (id : Nat) : Option JobState := store.jobs[id]?.map JobRecord.state

def attemptOf (store : JobStore) (id : Nat) : Option Nat := store.jobs[id]?.map JobRecord.attempt

def leasedWorkerId (store : JobStore) (id : Nat) : Option Nat :=
  (store.jobs[id]?.bind JobRecord.lease).map Lease.workerId

def occurrencesRunOf (store : JobStore) (id : Nat) : Option Nat :=
  store.jobs[id]?.map JobRecord.occurrencesRun

/-- Refuse a job that is bound to a revision that is not known. -/
def revisionCheck (store : JobStore) (id : Nat) : Except JobFixtureError Unit :=
  match store.jobs[id]? with
  | none => .error .unknownJob
  | some job =>
    if 1 ≤ job.boundRevision ∧ job.boundRevision ≤ store.currentRevision then .ok ()
    else .error .revisionRefused

def recurringAdvanceIsSafe (store : JobStore) (id nowTick maxCatchUp : Nat) :
    Except JobFixtureError Unit :=
  match store.jobs[id]? with
  | none => .error .unknownJob
  | some job => job.recurringAdvanceIsSafe nowTick maxCatchUp

def expireListed (nowTick : Nat) : List Nat → Prog JobStore Fault (List Nat)
  | [] => pure []
  | id :: ids => do
      let reclaimed ← onJob id (JobRecord.expire nowTick)
      let others ← expireListed nowTick ids
      pure (if reclaimed then id :: others else others)

def expireStaleLeases (nowTick : Nat) : Prog JobStore Fault (List Nat) := do
  let store ← Prog.get
  expireListed nowTick store.jobs.keys

end JobStore

/-- The calls on a store. The database that a call is given is whatever its other users left. -/
inductive Call
  | enqueue (ledger : DatabaseFixture) (idempotencyKey payloadDescriptor : List UInt8)
      (schedule : Option Schedule) (maxAttempts : Nat) (isIdempotentHandler : Bool)
  | claim (id workerId nowTick leaseTicks : Nat)
  | heartbeat (id leaseGeneration nowTick extendTicks : Nat)
  | beginExecution (id leaseGeneration nowTick : Nat)
  | complete (id : Nat) (report : CompletionAttempt)
  | completeDurable (ledger : DatabaseFixture) (id : Nat) (report : CompletionAttempt)
  | recordConnectionUncertain (id : Nat)
  | reconcileUncertain (id decision : Nat)
  | expireStaleLeases (nowTick : Nat)
  | cancel (id : Nat)
  | advanceRecurringSchedule (id nowTick maxCatchUp : Nat)
  | setCurrentRevision (currentRevision : Nat)

/-- What a call that succeeds returns. -/
inductive Answer
  | enqueued (outcome : EnqueueOutcome)
  | granted (jobGeneration leaseGeneration deadlineTick : Nat)
  | extended (deadlineTick : Nat)
  | state (state : JobState)
  | reclaimed (ids : List Nat)
  | advanced (next : Option Nat)
  | done
deriving DecidableEq, Repr

def JobStore.perform : Call → Prog JobStore Fault Answer
  | .enqueue ledger key payload schedule maxAttempts isIdempotentHandler => do
      let outcome ← Prog.withSecond ledger
        (enqueue key payload schedule maxAttempts isIdempotentHandler)
      pure (.enqueued outcome)
  | .claim id workerId nowTick leaseTicks => do
      let grant ← onJob id (JobRecord.claim workerId nowTick leaseTicks)
      pure (.granted grant.1 grant.2.1 grant.2.2)
  | .heartbeat id leaseGeneration nowTick extendTicks => do
      let deadlineTick ← onJob id (JobRecord.heartbeat leaseGeneration nowTick extendTicks)
      pure (.extended deadlineTick)
  | .beginExecution id leaseGeneration nowTick => do
      onJob id (JobRecord.beginExecution leaseGeneration nowTick)
      pure .done
  | .complete id report => do
      let state ← onJob id (JobRecord.complete report)
      pure (.state state)
  | .completeDurable ledger id report => do
      let state ← Prog.withSecond ledger (completeDurable id report)
      pure (.state state)
  | .recordConnectionUncertain id => do
      onJob id JobRecord.recordConnectionUncertain
      pure .done
  | .reconcileUncertain id decision => do
      let state ← onJob id (JobRecord.reconcileUncertain decision)
      pure (.state state)
  | .expireStaleLeases nowTick => do
      let ids ← expireStaleLeases nowTick
      pure (.reclaimed ids)
  | .cancel id => do
      let state ← onJob id JobRecord.cancel
      pure (.state state)
  | .advanceRecurringSchedule id nowTick maxCatchUp => do
      let next ← onJob id (JobRecord.advanceRecurringSchedule nowTick maxCatchUp)
      pure (.advanced next)
  | .setCurrentRevision currentRevision => do
      let store ← Prog.get
      Prog.set
        { store with
          currentRevision := currentRevision }
      pure .done

/-- What was called, and what came of it. -/
structure Event where
  call : Call
  answer : Except Fault Answer

/-- A store with the history of the calls on it. -/
structure Session where
  store : JobStore
  events : List Event

def Session.step (session : Session) (call : Call) : Session :=
  let (answer, store) := JobStore.perform call session.store
  ⟨store, session.events ++ [⟨call, answer⟩]⟩

/-- The calls on a new store, in order. -/
def Session.run (currentRevision : Nat) (calls : List Call) : Session :=
  calls.foldl Session.step ⟨JobStore.new currentRevision, []⟩

end Semaprax.DurableJobs
