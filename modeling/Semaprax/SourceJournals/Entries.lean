/-
**The entries of a source journal with a model policy** (`live_invocation/source_journal.rs`,
`source_journal/policy_v6.rs`).

* `SourceJournalEntry` — what a run records, one kind for each of its events.
* `SourcePolicyBindingV6`, `PolicyAttemptIntentV6`, `PolicyAttemptUsageV6` — the policy of an
  invocation, the reservation of an attempt, and what is told of its use.
* `SourceMigrationCarry`, `PolicyMigrationCarryV6` — what an invocation takes over from another one.
* `SourceInvocationBinding` — all that an invocation is bound to.
-/

import Semaprax.LiveInvocation.Persistence
import Semaprax.ModelPolicy.Ledger

namespace Semaprax.SourceJournals

open Library LiveInvocation ModelPolicy

inductive SourceJournalError
  | binding
  | malformed
  | capacity
  | time
  | order
  | chain
  | generation
  | poisoned
  | uncertain

def sourcePolicyJournalSchema : String := "semaprax.live-invocation.source-persisted-journal.v6"

/-- The policy of an invocation. -/
structure SourcePolicyBindingV6 where
  modelBindingDigest : String
  policyBindingDigest : String
  providerId : String
  limits : ModelBudgetLimits

/-- The quote of a host for one request. -/
structure SourcePolicyQuoteV6 where
  policyBindingDigest : String
  requestDigest : String
  providerId : String
  contextTokens : U64
  outputTokens : U64
  estimatedCostMicros : I64

structure PolicyAttemptReservationV6 where
  ordinal : U64
  kind : AttemptKind
  providerId : String
  reservedContextTokens : U64
  reservedOutputTokens : U64
  reservedCostMicros : I64

structure PolicyAttemptIntentV6 where
  turn : U32
  attempt : U32
  attemptDigest : String
  requestDigest : String
  promptDigest : String
  requestBytes : Nat
  reservedUnits : I64
  responseLimit : Nat
  reservation : PolicyAttemptReservationV6

inductive PolicyAttemptUsageV6
  | unknown
  | observed (contextTokens outputTokens : U64) (costMicros : I64)

structure SourcePolicyTotalsV6 where
  calls : U32
  reservedContextTokens : U64
  reservedOutputTokens : U64
  reservedCostMicros : I64
  observedContextTokens : U64
  observedOutputTokens : U64
  observedCostMicros : I64
  exposureContextTokens : U64
  exposureOutputTokens : U64
  exposureCostMicros : I64
  nextOrdinal : U64

/-- Nothing is reserved yet. -/
def SourcePolicyTotalsV6.default : SourcePolicyTotalsV6 := ⟨0, 0, 0, 0, 0, 0, 0, 0, 0, 0, 0⟩

inductive SourceAttemptFailure
  | timeout | cancelled | capacityExceeded | providerError | malformedResponse | refused
  | deadlineExceeded

inductive SourceProposalRefusal
  | malformedDecode | invalidUtf8 | deadlineExceeded | projectionFailed

inductive SourceAuthorizationRefusal
  | gateDenied | undecided | cancelled | deadlineExceeded

inductive SourceEffectFailure
  | handlerFailed | resultLimit | cancelled | deadlineExceeded

inductive SourceMigrationFailure
  | checkedCall | cancelled | deadlineExceeded | fuelExhausted

inductive SourceTransitionCase
  | continue | complete | suspend | fail

inductive SourceStopStatus
  | rejected | modelFailed | effectFailed | cancelled | budgetExhausted | deadlineExceeded

inductive SourceStopReason
  | stageRefused | modelFailed | effectFailed | cancelled | budgetExhausted | deadlineExceeded

inductive SourceTerminalStatus
  | complete | suspend | fail | rejected | modelFailed | effectFailed | cancelled
  | budgetExhausted | deadlineExceeded

inductive SourceStageRole
  | initialize_ | observe | authorize | reduce

structure SourceReportedUsage where
  total : Option U64
  input : Option U64
  output : Option U64
  reasoning : Option U64
  cacheRead : Option U64
  cacheWrite : Option U64

/-- What a run records. The entries of the priced profile are told apart only by their kind: a
journal with a model policy has none of them. -/
inductive SourceJournalEntry
  | migrationOpened (handoffDigest : String)
  | migrationEvaluationIntent (attempt : U32) (fuel : Nat)
  | migrationEvaluationSettled (attempt : U32) (state : Bytes) (stateDigest : String)
  | migrationEvaluationFailed (attempt : U32) (reason : SourceMigrationFailure)
  | runOpened
  | stageReservation (turn : U32) (attempt : Option U32) (role : SourceStageRole) (fuel : Nat)
  | replayStageReservation (replay causalSeq : U32) (role : SourceStageRole) (fuel : Nat)
  | turnObserved (turn : U32) (state observation feedback : String)
  | attemptIntent (turn attempt : U32) (attemptDigest requestDigest promptDigest : String)
      (requestBytes : Nat) (reservedUnits : I64) (responseLimit : Nat)
  | attemptSettled (turn attempt : U32) (response : Bytes) (responseDigest : String)
  | attemptFailed (turn attempt : U32) (reason : SourceAttemptFailure) (attemptedBytes : Nat)
  | attemptUsage (turn attempt : U32) (reported : Option SourceReportedUsage)
  | pricedAttemptIntent
  | pricedAttemptUsage
  | policyAttemptIntent (intent : PolicyAttemptIntentV6)
  | policyAttemptUsage (turn attempt : U32) (ordinal : U64) (usage : PolicyAttemptUsageV6)
  | proposalRefused (turn attempt : U32) (reason : SourceProposalRefusal)
  | proposalAdmitted (turn attempt : U32) (proposalDigest : String)
  | authorizationConsumed (turn attempt : U32) (grantDigest : String)
  | authorizationRefused (turn attempt : U32) (reason : SourceAuthorizationRefusal)
  | effectIntent (turn attempt : U32) (operation requestDigest : String)
  | effectObserved (turn attempt : U32) (operation : String) (observation : Bytes)
      (observationDigest : String)
  | effectFailed (turn attempt : U32) (operation : String) (reason : SourceEffectFailure)
  | transition (turn attempt : U32) (case : SourceTransitionCase) (carrierDigest : String)
  | stop (turn attempt : Option U32) (status : SourceStopStatus) (reason : SourceStopReason)
  | terminalOutcome (turn : Option U32) (status : SourceTerminalStatus)
      (carrierDigest : Option String)
  | terminalSnapshot (turn : Option U32) (status : SourceTerminalStatus)
      (carrierDigest : Option String) (carrier : Option Bytes) (evidence : Bytes)
      (evidenceDigest : String) (committedModelUnits : I64) (committedStageFuel : U64)
      (stages effects attempts : U32)

/-- What every profile takes over from the invocation before it. -/
structure SourceMigrationCarry where
  handoffDigest : String
  previousSchema : String
  previousInvocation : String
  previousGeneration : U64
  previousChain : String
  previousProgramRoot : String
  destinationProgramRoot : String
  oldStateId : String
  newStateId : String
  migrationFunction : String
  migrationClosure : String
  taskDigest : String
  carriedModelUnits : I64
  carriedStageFuel : U64
  carriedTurns : U32
  carriedStages : U32
  carriedEffects : U32
  carriedAttempts : U32
  previousCeiling : I64
  previousMaxIterations : U32
  previousMaxStages : U32
  previousMaxStepsPerStage : Nat
  previousMaxTotalSteps : Nat
  previousReservationUnits : I64
  previousUnit : String
  previousClockDomain : String
  previousLastCheckedMillis : I64
  previousDeadlineMillis : I64
  evaluationSteps : Nat

/-- What an invocation with a model policy takes over beyond that. -/
structure PolicyMigrationCarryV6 where
  base : SourceMigrationCarry
  handoffDigest : String
  previousProviderId : String
  previousLimits : ModelBudgetLimits
  totals : SourcePolicyTotalsV6
  reservations : List PolicyAttemptReservationV6
  reservationsDigest : String

structure SourceIoLimits where
  maxRequestBytes : Nat
  maxTotalRequestBytes : U64
  maxTotalResponseBytes : U64

structure SourceIoTotals where
  reservedRequestBytes : U64
  reservedResponseBytes : U64
  observedResponseBytes : U64
  unknownResponseReservationBytes : U64

structure IoBindingV5 where
  limits : SourceIoLimits
  carried : SourceIoTotals
  handoff : Option String

/-- All that an invocation with a model policy is bound to. No other binding passes `bind`, which
refuses a reservation that is not positive and a response limit of zero. -/
structure SourceInvocationBinding where
  invocation : String
  proposalSource : String
  responseLimit : Nat
  maxIterations : U32
  maxStages : U32
  maxAttempts : U32
  ceiling : I64
  reservationUnits : I64
  unit : String
  clockDomain : String
  initialMillis : I64
  deadlineMillis : I64
  evaluator : String
  maxStepsPerStage : Nat
  maxTotalSteps : Nat
  policy : SourcePolicyBindingV6
  carry : Option PolicyMigrationCarryV6
  io : Option IoBindingV5
  programRoot : Option String
  reserving : 0 < reservationUnits.val
  responding : responseLimit ≠ 0

section Digests

variable (sha256 : Bytes → Bytes)

def SourceInvocationBinding.attemptDigest (binding : SourceInvocationBinding) (turn attempt : U32)
    (requestDigest promptDigest : String) (requestBytes : Nat) : String :=
  digest sha256 "semaprax.live-invocation.source-attempt.v1\x00" (asBytes
    ("\x7b\"invocation\":" ++ quoteJson binding.invocation ++ ",\"turn\":" ++ toString turn.val ++
      ",\"attempt\":" ++ toString attempt.val ++ ",\"request\":" ++ quoteJson requestDigest ++
      ",\"prompt\":" ++ quoteJson promptDigest ++ ",\"request_bytes\":" ++ toString requestBytes ++
      ",\"reserved_units\":" ++ toString binding.reservationUnits.val ++ ",\"response_limit\":" ++
      toString binding.responseLimit ++ ",\"deadline_millis\":" ++
      toString binding.deadlineMillis.val ++ "\x7d"))

end Digests

end Semaprax.SourceJournals
