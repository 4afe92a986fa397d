/-
**Driving a job** (`job_runtime.rs`).

A runtime holds one job, in a store of its own, and publishes a checkpoint after every transition
that it makes, before it goes on. Whoever recovers the checkpoint replays its evidence.

* `JobRuntime.enqueue`, `driveOnce`, `reconcile`, `cancel`, `recover` — the operations, as programs
  that ask the checkpoint store and the handler.
* `replayStore` — the store that the evidence of a checkpoint leads to.

A panic ends the program and the runtime is gone.
-/

import Semaprax.DurableJobs.Rows
import Semaprax.DurableJobs.Checkpoints
import Semaprax.Library.Sharing

namespace Semaprax.DurableJobs

open Library

/-- A compiled schema, as far as the runtime uses it. Its digest is the text of a hash, and a document
that it decodes is not empty. -/
structure InteractionSchema where
  digest : String
  decodes : List UInt8 → Bool
  digest_ne : digest ≠ ""
  decodes_nil : decodes [] = false

structure StoredJobCheckpoint where
  generation : Nat
  bytes : List UInt8
deriving DecidableEq, Repr

/-- What a handler reports. -/
inductive HostJobOutcome
  | succeeded
  | retryableFailure
  | permanentFailure
  | uncertain
deriving DecidableEq, Repr

def HostJobOutcome.jobOutcome : HostJobOutcome → OutcomeKind
  | succeeded => .success
  | retryableFailure => .retryable
  | permanentFailure => .permanent
  | uncertain => .uncertain

inductive DriveOutcome
  | completed (state : JobState)
  | noWork
deriving DecidableEq, Repr

/-- How an operation may end early. -/
inductive Halt
  | failed (error : JobRuntimeError)
  | panicked
deriving DecidableEq, Repr

/-- `map_err(JobRuntimeError::Store)`. -/
def Halt.store : Fault → Halt
  | .refused error => .failed (.store error)
  | .panicked => .panicked

/-- `map_err(|_| JobRuntimeError::Evidence)`. -/
def Halt.evidence : Fault → Halt
  | .refused _ => .failed .evidence
  | .panicked => .panicked

structure JobRuntime where
  schema : InteractionSchema
  submission : JobSubmission
  store : JobStore
  ledger : DatabaseFixture
  jobId : Nat
  evidence : JobEvidenceLog
  replayFacts : List ReplayFact
  boundRevision : UInt8
  checkpointGeneration : Option Nat
  poisoned : Bool

/-- What a runtime asks: of the checkpoint store a document or to replace one, and of the handler to
run a payload. The runtime that asks is noted, and no answer depends on it. -/
inductive Query
  | load
  | compareAndSwap (expectedGeneration : Option Nat) (document : List UInt8) (written : JobRuntime)
  | execute (admittedPayload : List UInt8) (running : JobRuntime)

/-- The answers: an error, or what is stored; the new generation, or nothing; an outcome. -/
abbrev Response : Query → Type
  | .load => Except Unit (Option StoredJobCheckpoint)
  | .compareAndSwap _ _ _ => Option Nat
  | .execute _ _ => HostJobOutcome

/-- An operation on a runtime. -/
abbrev Task (A : Type) : Type := Act Query Response JobRuntime Halt A

def validateSubmission (schema : InteractionSchema) (submission : JobSubmission) :
    Except JobRuntimeError Unit :=
  if submission.idempotencyKey = [] ∨ submission.idempotencyKey.length > maxKeyBytes ∨
      submission.payloadDescriptor = [] ∨ submission.payloadDescriptor.length > maxDescriptorBytes ∨
      submission.payload.length > maxPayloadBytes ∨ submission.maxAttempts = 0 ∨
      submission.baseBackoffTicks > submission.maxBackoffTicks ∨
      submission.schedule.any fun schedule =>
        schedule.intervalTick == 0 || schedule.maxOccurrences == 0 then
    .error .invalidSubmission
  else if !schema.decodes submission.payload then .error .payloadRefused
  else .ok ()

def OutcomeKind.fromCode : Nat → Option OutcomeKind
  | 0 => some .success
  | 1 => some .retryable
  | 2 => some .permanent
  | 3 => some .uncertain
  | _ => none

def completionState (outcome : OutcomeKind) (attemptBefore maxAttempts : UInt8) : JobState :=
  let attemptAfter :=
    if outcome = .success then attemptBefore.toNat else nextAttempt attemptBefore.toNat
  match retryNextStateAfterOutcome outcome.code attemptAfter maxAttempts.toNat with
  | 5 => .scheduled
  | code => .fromCode code

/-- `store.attempt_of`, on eight bits. -/
def attemptOf (store : JobStore) (jobId : Nat) : Option UInt8 :=
  (store.attemptOf jobId).map UInt8.ofNat

/-- `store.occurrences_run_of`, on 64 bits. -/
def occurrencesRunOf (store : JobStore) (jobId : Nat) : Option UInt64 :=
  (store.occurrencesRunOf jobId).map UInt64.ofNat

def RuntimeCheckpoint.fromRuntime (runtime : JobRuntime) : RuntimeCheckpoint where
  schemaDigest := runtime.schema.digest
  boundRevision := runtime.boundRevision
  submission := runtime.submission
  entries := runtime.evidence.entries
  replayFacts := runtime.replayFacts
  claimedFinalState := runtime.evidence.claimedFinalState

namespace JobRuntime

def orFail {S A X : Type} (translate : X → Halt) : Except X A → Prog S Halt A
  | .ok value => pure value
  | .error error => Prog.stop (translate error)

def onStore {A : Type} (call : Prog JobStore Fault A) : Prog JobRuntime Halt A := fun runtime =>
  ((call runtime.store).1.mapError Halt.store, { runtime with
      store := (call runtime.store).2 })

def onBooks {A : Type} (call : Prog (JobStore × DatabaseFixture) Fault A) :
    Prog JobRuntime Halt A := fun runtime =>
  ((call (runtime.store, runtime.ledger)).1.mapError Halt.store, { runtime with
      store := (call (runtime.store, runtime.ledger)).2.1
      ledger := (call (runtime.store, runtime.ledger)).2.2 })

/-- Note a transition, the state it led to and what its replay needs. -/
def record (entry : JobEvidenceEntry) (state : JobState) (fact : ReplayFact) :
    Prog JobRuntime Halt Unit := do
  let runtime ← Prog.get
  Prog.set
    { runtime with
      evidence := runtime.evidence.append entry state.code
      replayFacts := runtime.replayFacts ++ [fact] }

/-- Publish a checkpoint. A runtime that could not is not used any more. -/
def persist : Task Unit := fun runtime =>
  match (RuntimeCheckpoint.fromRuntime runtime).encode with
  | .error error =>
    .done (.error (.failed error), { runtime with
      poisoned := true })
  | .ok document =>
    .ask (.compareAndSwap runtime.checkpointGeneration document runtime) fun answer =>
      match answer with
      | none =>
        .done (.error (.failed .checkpoint), { runtime with
          poisoned := true })
      | some generation =>
        .done (.ok (), { runtime with
          checkpointGeneration := some generation })

def state : Prog JobRuntime Halt JobState := do
  let runtime ← Prog.get
  ofOption .panicked (runtime.store.stateOf runtime.jobId)

def checkDrive (nowTick leaseTicks : UInt64) : Prog JobRuntime Halt Unit := do
  let runtime ← Prog.get
  stopIf runtime.poisoned (.failed .poisoned)
  stopIf (leaseTicks = 0 ∨ nowTick.toNat + leaseTicks.toNat > maxU64 ∨
    nowTick.toNat + runtime.submission.maxBackoffTicks.toNat > maxU64) (.failed .invalidSubmission)
  orFail (fun error => .failed (.store error)) (runtime.store.revisionCheck runtime.jobId)
  match runtime.submission.schedule with
  | none => pure ()
  | some schedule =>
    orFail (fun error => .failed (.store error))
      (runtime.store.recurringAdvanceIsSafe runtime.jobId nowTick.toNat schedule.maxCatchUp)

def claim (workerId : UInt32) (nowTick leaseTicks : UInt64) :
    Prog JobRuntime Halt (Option Nat) := fun runtime =>
  let claimed := JobStore.onJob runtime.jobId
    (JobRecord.claim workerId.toNat nowTick.toNat leaseTicks.toNat) runtime.store
  match claimed.1 with
  | .ok grant =>
    (.ok (some grant.2.1), { runtime with
      store := claimed.2 })
  | .error (.refused .claimNotLegal) =>
    (.ok none, { runtime with
      store := claimed.2 })
  | .error fault =>
    (.error (.store fault), { runtime with
      store := claimed.2 })

def expectLease (workerId : UInt32) : Prog JobRuntime Halt Unit := do
  let runtime ← Prog.get
  stopIf (runtime.store.leasedWorkerId runtime.jobId ≠ some workerId.toNat)
    (.failed .staleLease)

def noteClaim (workerId : UInt32) (nowTick leaseTicks : UInt64) : Prog JobRuntime Halt Unit := do
  expectLease workerId
  record (.claimed true) .leased ⟨nowTick, workerId, leaseTicks⟩

def beginExecution (leaseGeneration : Nat) (workerId : UInt32) (nowTick : UInt64) :
    Prog JobRuntime Halt Unit := do
  let runtime ← Prog.get
  onStore (JobStore.onJob runtime.jobId (JobRecord.beginExecution leaseGeneration nowTick.toNat))
  record .begunExecution .running ⟨nowTick, workerId, 0⟩

/-- Hand the payload to the handler, if it is still admitted. -/
def execute : Task OutcomeKind := do
  let runtime ← Act.of Prog.get
  Act.of (orFail .failed (validateSubmission runtime.schema runtime.submission))
  Act.ask (fun runtime => .execute runtime.submission.payload runtime)
    fun runtime answer => (.ok answer.jobOutcome, runtime)

/-- Schedule the next occurrence. -/
def advance (schedule : Schedule) (workerId : UInt32) (nowTick : UInt64) :
    Prog JobRuntime Halt JobState := do
  let runtime ← Prog.get
  let nextRunTick ← onStore (JobStore.onJob runtime.jobId
    (JobRecord.advanceRecurringSchedule nowTick.toNat schedule.maxCatchUp))
  let runtime ← Prog.get
  let occurrencesRun ← ofOption (.failed (.store .unknownJob))
    (occurrencesRunOf runtime.store runtime.jobId)
  let state ← state
  record (.recurringAdvanced (nextRunTick.map UInt64.ofNat) occurrencesRun) state
    ⟨nowTick, workerId, 0⟩
  pure state

/-- Record what the handler reported. -/
def complete (leaseGeneration : Nat) (workerId : UInt32) (nowTick : UInt64)
    (outcome : OutcomeKind) : Prog JobRuntime Halt JobState := do
  expectLease workerId
  let runtime ← Prog.get
  let submission := runtime.submission
  let attemptBefore ← ofOption (.failed (.store .unknownJob))
    (attemptOf runtime.store runtime.jobId)
  let state ← onBooks (JobStore.completeDurable runtime.jobId
    ⟨leaseGeneration, nowTick.toNat, outcome, submission.baseBackoffTicks.toNat,
      submission.maxBackoffTicks.toNat⟩)
  let natural := completionState outcome attemptBefore submission.maxAttempts
  record (.durableCompleted (UInt64.ofNat outcome.code) attemptBefore submission.maxAttempts
    (state = natural)) state ⟨nowTick, workerId, 0⟩
  match submission.schedule with
  | none => pure state
  | some schedule =>
    if outcome = .success ∧ state = .succeeded then advance schedule workerId nowTick
    else pure state

/-- One attempt, with a checkpoint after the claim and another before the handler runs. -/
def driveOnce (workerId : UInt32) (nowTick leaseTicks : UInt64) : Task DriveOutcome := do
  Act.of (checkDrive nowTick leaseTicks)
  let claimed ← Act.of (claim workerId nowTick leaseTicks)
  match claimed with
  | none => pure .noWork
  | some leaseGeneration => do
      Act.of (noteClaim workerId nowTick leaseTicks)
      persist
      Act.of (beginExecution leaseGeneration workerId nowTick)
      persist
      let outcome ← execute
      let state ← Act.of (complete leaseGeneration workerId nowTick outcome)
      persist
      pure (.completed state)

def noteReconciled (decision : UInt64) : Prog JobRuntime Halt JobState := do
  let runtime ← Prog.get
  stopIf runtime.poisoned (.failed .poisoned)
  let attempt ← ofOption (.failed (.store .unknownJob))
    (attemptOf runtime.store runtime.jobId)
  let state ← onStore (JobStore.onJob runtime.jobId (JobRecord.reconcileUncertain decision.toNat))
  record (.reconciledUncertain decision runtime.submission.isIdempotentHandler attempt
    runtime.submission.maxAttempts) state .none
  pure state

/-- Apply what was found out about an uncertain job. -/
def reconcile (decision : UInt64) : Task JobState := do
  let state ← Act.of (noteReconciled decision)
  persist
  pure state

def noteCancelled : Prog JobRuntime Halt JobState := do
  let runtime ← Prog.get
  stopIf runtime.poisoned (.failed .poisoned)
  let state ← onStore (JobStore.onJob runtime.jobId JobRecord.cancel)
  record .cancelled state .none
  pure state

def cancel : Task JobState := do
  let state ← Act.of noteCancelled
  persist
  pure state

end JobRuntime

/-- A store and a ledger that are rebuilt, with the generation of the last lease. -/
structure Replaying where
  store : JobStore
  ledger : DatabaseFixture
  leaseGeneration : Option Nat

namespace Replaying

def onStore {A : Type} (call : Prog JobStore Fault A) : Prog Replaying Halt A := fun replaying =>
  ((call replaying.store).1.mapError Halt.evidence, { replaying with
      store := (call replaying.store).2 })

def onBooks {A : Type} (call : Prog (JobStore × DatabaseFixture) Fault A) :
    Prog Replaying Halt A := fun replaying =>
  ((call (replaying.store, replaying.ledger)).1.mapError Halt.evidence, { replaying with
      store := (call (replaying.store, replaying.ledger)).2.1
      ledger := (call (replaying.store, replaying.ledger)).2.2 })

def expect (holds : JobStore → Bool) : Prog Replaying Halt Unit := do
  let replaying ← Prog.get
  stopIf (!holds replaying.store) (.failed .evidence)

/-- The generation of the last lease. -/
def heldGeneration : Prog Replaying Halt Nat := do
  let replaying ← Prog.get
  ofOption (.failed .evidence) replaying.leaseGeneration

end Replaying

open Replaying in
/-- Make the transition of an entry again. -/
def replayEntry (submission : JobSubmission) (jobId index : Nat) (entry : JobEvidenceEntry)
    (fact : ReplayFact) : Prog Replaying Halt Unit :=
  let tick := fact.tick.toNat
  let backoffs := tick + submission.maxBackoffTicks.toNat ≤ maxU64
  match entry with
  | .enqueued scheduled =>
    expect fun _ => index = 0 ∧ scheduled = submission.schedule.isSome
  | .claimed isDue => do
      let due := submission.schedule.all fun schedule => tick ≥ schedule.nextRunTick
      expect fun _ => fact.leaseTicks ≠ 0 ∧ tick + fact.leaseTicks.toNat ≤ maxU64 ∧ isDue = due
      let grant ← onStore (JobStore.onJob jobId
        (JobRecord.claim fact.workerId.toNat tick fact.leaseTicks.toNat))
      let replaying ← Prog.get
      Prog.set
        { replaying with
          leaseGeneration := some grant.2.1 }
  | .begunExecution => do
      let leaseGeneration ← heldGeneration
      onStore (JobStore.onJob jobId (JobRecord.beginExecution leaseGeneration tick))
  | .completed outcomeKind attemptBefore maxAttempts => do
      expect fun store => backoffs ∧ maxAttempts = submission.maxAttempts ∧
        attemptOf store jobId = some attemptBefore
      let leaseGeneration ← heldGeneration
      let outcome ← ofOption (.failed .evidence) (OutcomeKind.fromCode outcomeKind.toNat)
      let _ ← onStore (JobStore.onJob jobId (JobRecord.complete
        ⟨leaseGeneration, tick, outcome, submission.baseBackoffTicks.toNat,
          submission.maxBackoffTicks.toNat⟩))
  | .durableCompleted outcomeKind attemptBefore maxAttempts true => do
      expect fun store => backoffs ∧ maxAttempts = submission.maxAttempts ∧
        attemptOf store jobId = some attemptBefore
      let leaseGeneration ← heldGeneration
      let outcome ← ofOption (.failed .evidence) (OutcomeKind.fromCode outcomeKind.toNat)
      let _ ← onBooks (JobStore.completeDurable jobId
        ⟨leaseGeneration, tick, outcome, submission.baseBackoffTicks.toNat,
          submission.maxBackoffTicks.toNat⟩)
  | .durableCompleted outcomeKind attemptBefore maxAttempts false => do
      expect fun store => backoffs ∧ maxAttempts = submission.maxAttempts ∧
        attemptOf store jobId = some attemptBefore ∧
        (OutcomeKind.fromCode outcomeKind.toNat).isSome
      onStore (JobStore.onJob jobId JobRecord.recordConnectionUncertain)
  | .connectionUncertain => onStore (JobStore.onJob jobId JobRecord.recordConnectionUncertain)
  | .reconciledUncertain decision isIdempotentHandler attempt maxAttempts => do
      expect fun store => isIdempotentHandler = submission.isIdempotentHandler ∧
        maxAttempts = submission.maxAttempts ∧ attemptOf store jobId = some attempt
      let _ ← onStore (JobStore.onJob jobId (JobRecord.reconcileUncertain decision.toNat))
  | .cancelled => do
      let _ ← onStore (JobStore.onJob jobId JobRecord.cancel)
  | .recurringAdvanced nextRunTick occurrencesRun => do
      let schedule ← ofOption (.failed .evidence) submission.schedule
      let advanced ← onStore (JobStore.onJob jobId
        (JobRecord.advanceRecurringSchedule tick schedule.maxCatchUp))
      expect fun store => advanced.map UInt64.ofNat = nextRunTick ∧
        occurrencesRunOf store jobId = some occurrencesRun
  | .leaseExpired => do
      let reclaimed ← onStore (JobStore.expireStaleLeases tick)
      expect fun _ => reclaimed = [jobId]

/-- Make the transitions of entries again, in order. -/
def replayEntries (submission : JobSubmission) (jobId : Nat) :
    Nat → List (JobEvidenceEntry × ReplayFact) → Prog Replaying Halt Unit
  | _, [] => pure ()
  | index, (entry, fact) :: others => do
      replayEntry submission jobId index entry fact
      replayEntries submission jobId (index + 1) others

def enqueued (revision : UInt8) (submission : JobSubmission) :
    Except Fault EnqueueOutcome × JobStore × DatabaseFixture :=
  JobStore.enqueue submission.idempotencyKey submission.payloadDescriptor submission.schedule
    submission.maxAttempts.toNat submission.isIdempotentHandler
    (JobStore.new revision.toNat, installedLedger)

def replayStore (schema : InteractionSchema) (currentRevision : UInt8)
    (submission : JobSubmission) (evidence : JobEvidenceLog) (replayFacts : List ReplayFact)
    (boundRevision : UInt8) (checkpointGeneration : Option Nat) : Except Halt JobRuntime :=
  match enqueued boundRevision submission with
  | (.error fault, _) => .error (.store fault)
  | (.ok (.created jobId), store, ledger) =>
    if evidence.entries.length ≠ replayFacts.length then .error (.failed .evidence)
    else
      let start : Replaying :=
        { store := { store with currentRevision := currentRevision.toNat }
          ledger
          leaseGeneration := none }
      match replayEntries submission jobId 0 (evidence.entries.zip replayFacts) start with
      | (.error halt, _) => .error halt
      | (.ok (), replaying) =>
        if (replaying.store.stateOf jobId).map JobState.code ≠ evidence.replay.toOption then
          .error (.failed .evidence)
        else .ok
          { schema, submission, store := replaying.store
            ledger := replaying.ledger
            jobId
            evidence
            replayFacts
            boundRevision
            checkpointGeneration
            poisoned := false }
  | (.ok _, _) => .error (.failed .evidence)

namespace JobRuntime

/-- A runtime with a job that was entered just now. -/
def create (schema : InteractionSchema) (currentRevision : UInt8) (submission : JobSubmission) :
    Except Halt JobRuntime :=
  if currentRevision = 0 then .error (.failed .invalidSubmission)
  else
    match validateSubmission schema submission with
    | .error error => .error (.failed error)
    | .ok () =>
      match enqueued currentRevision submission with
      | (.error fault, _) => .error (.store fault)
      | (.ok (.created jobId), store, ledger) =>
        match store.stateOf jobId with
        | none => .error .panicked
        | some state => .ok
            { schema, submission, store, ledger, jobId
              evidence := JobEvidenceLog.new.append
                (.enqueued submission.schedule.isSome) state.code
              replayFacts := [.none]
              boundRevision := currentRevision
              checkpointGeneration := none
              poisoned := false }
      | (.ok _, _) => .error (.failed .invalidSubmission)

/-- What a program on a runtime ends with. -/
def finished {A : Type} : Except Halt A × JobRuntime → Except Halt JobRuntime
  | (.ok _, runtime) => .ok runtime
  | (.error halt, _) => .error halt

def enqueue (schema : InteractionSchema) (currentRevision : UInt8) (submission : JobSubmission) :
    Flow Query Response (Except Halt JobRuntime) :=
  match create schema currentRevision submission with
  | .error halt => .done (.error halt)
  | .ok runtime => (persist runtime).bind fun outcome => .done (finished outcome)

def restore (schema : InteractionSchema) (currentRevision : UInt8) (stored : StoredJobCheckpoint) :
    Except Halt JobRuntime :=
  match RuntimeCheckpoint.decode stored.bytes with
  | .error error => .error (.failed error)
  | .ok checkpoint =>
    if checkpoint.schemaDigest ≠ schema.digest then .error (.failed .payloadRefused)
    else if checkpoint.boundRevision > currentRevision then
      .error (.failed (.store .revisionRefused))
    else
      match validateSubmission schema checkpoint.submission with
      | .error error => .error (.failed error)
      | .ok () =>
        match JobEvidenceLog.fromEntries checkpoint.entries checkpoint.claimedFinalState with
        | .error _ => .error (.failed .evidence)
        | .ok evidence =>
          replayStore schema currentRevision checkpoint.submission evidence
            checkpoint.replayFacts checkpoint.boundRevision (some stored.generation)

/-- The claim that leased the job. -/
def lastClaim (replayFacts : List ReplayFact) : Option ReplayFact :=
  replayFacts.reverse.find? fun fact => fact.leaseTicks ≠ 0

/-- A job that was leased is free again. -/
def noteExpired : Prog JobRuntime Halt Unit := do
  let runtime ← Prog.get
  let claim ← ofOption (.failed .evidence) (lastClaim runtime.replayFacts)
  stopIf (claim.tick.toNat + claim.leaseTicks.toNat > maxU64) (.failed .evidence)
  let expiry := claim.tick + claim.leaseTicks
  let reclaimed ← onStore (JobStore.expireStaleLeases expiry.toNat)
  stopIf (reclaimed ≠ [runtime.jobId]) (.failed .evidence)
  record .leaseExpired .pending ⟨expiry, 0, 0⟩

def noteUncertain : Prog JobRuntime Halt Unit := do
  let runtime ← Prog.get
  onStore (JobStore.onJob runtime.jobId JobRecord.recordConnectionUncertain)
  record .connectionUncertain .uncertain .none

/-- Settle a job that was leased or running when its checkpoint was published. -/
def settle : Task Unit := do
  let runtime ← Act.of Prog.get
  match runtime.store.stateOf runtime.jobId with
  | some .leased => do
      Act.of noteExpired
      persist
  | some .running => do
      Act.of noteUncertain
      persist
  | some _ => pure ()
  | none => Act.of (Prog.stop (.failed .evidence))

def recover (schema : InteractionSchema) (currentRevision : UInt8) :
    Flow Query Response (Except Halt JobRuntime) :=
  if currentRevision = 0 then .done (.error (.failed .invalidSubmission))
  else
    .ask .load fun answer =>
      match answer with
      | .ok (some stored) =>
        match restore schema currentRevision stored with
        | .error halt => .done (.error halt)
        | .ok runtime => (settle runtime).bind fun outcome => .done (finished outcome)
      | _ => .done (.error (.failed .checkpoint))

end JobRuntime

end Semaprax.DurableJobs
