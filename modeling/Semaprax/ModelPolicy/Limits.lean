/-
**Limits and providers of a model policy** (`model_budget_policy/limits.rs`, `provider_policy.rs`,
`classification.rs`).

* `intersect` — the effective limits of three sources, the only way to an `EffectiveModelBudget`.
* `ProviderPolicy.admitFailover` — the provider that a failover may switch to.
* `retryIsPermitted` — the outcomes after which an attempt may be repeated.
-/

import Semaprax.Library.Results
import Semaprax.Library.Saturating
import Semaprax.Library.Words

namespace Semaprax.ModelPolicy

open Library

/-- The ceilings that one source declares. -/
structure ModelBudgetLimits where
  maxCalls : U32
  maxRetries : U32
  maxProviders : U32
  maxContextTokens : U64
  maxOutputTokens : U64
  maxAggregateTokens : U64
  maxCostMicros : I64
  maxLatencyMillis : I64
deriving DecidableEq, Repr

/-- Why limits are refused. -/
inductive PolicyRejection
  | negativeLimit (dimension : String)
  | zeroImpossible (dimension : String)
deriving DecidableEq, Repr

/-- The lesser of two numbers. -/
def lesser {A : Type} [LE A] [DecidableLE A] (first second : A) : A :=
  if first ≤ second then first else second

namespace ModelBudgetLimits

instance (priority := low) {top : Nat} : DecidableLE (Word top) := fun first second =>
  inferInstanceAs (Decidable (first.val ≤ second.val))

instance (priority := low) : DecidableLE I64 := fun first second =>
  inferInstanceAs (Decidable (first.val ≤ second.val))

/-- The lesser ceiling in every dimension. -/
def elementwiseMin (limits other : ModelBudgetLimits) : ModelBudgetLimits where
  maxCalls := lesser limits.maxCalls other.maxCalls
  maxRetries := lesser limits.maxRetries other.maxRetries
  maxProviders := lesser limits.maxProviders other.maxProviders
  maxContextTokens := lesser limits.maxContextTokens other.maxContextTokens
  maxOutputTokens := lesser limits.maxOutputTokens other.maxOutputTokens
  maxAggregateTokens := lesser limits.maxAggregateTokens other.maxAggregateTokens
  maxCostMicros := lesser limits.maxCostMicros other.maxCostMicros
  maxLatencyMillis := lesser limits.maxLatencyMillis other.maxLatencyMillis

/-- The limits are neither negative nor impossible. -/
structure Valid (limits : ModelBudgetLimits) : Prop where
  cost : 0 ≤ limits.maxCostMicros.val
  latency : 0 ≤ limits.maxLatencyMillis.val
  calls : limits.maxCalls.val ≠ 0

end ModelBudgetLimits

/-- Limits that were accepted. -/
structure EffectiveModelBudget where
  limits : ModelBudgetLimits
  valid : limits.Valid

/-- Refuse limits that are negative or impossible (`validate`). -/
def ModelBudgetLimits.validate (limits : ModelBudgetLimits) :
    Except PolicyRejection EffectiveModelBudget :=
  if cost : limits.maxCostMicros.val < 0 then .error (.negativeLimit "max_cost_micros")
  else if latency : limits.maxLatencyMillis.val < 0 then
    .error (.negativeLimit "max_latency_millis")
  else if calls : limits.maxCalls.val = 0 then .error (.zeroImpossible "max_calls")
  else .ok ⟨limits, not_lt.mp cost, not_lt.mp latency, calls⟩

def intersect (sourceAgent deploymentPolicy invocationBudget : ModelBudgetLimits) :
    Except PolicyRejection EffectiveModelBudget :=
  ((sourceAgent.elementwiseMin deploymentPolicy).elementwiseMin invocationBudget).validate

/-- One provider of the deployment's order. -/
structure ProviderSlot where
  id : String
  authorized : Bool
deriving DecidableEq, Repr

/-- The providers in the order of the deployment, the primary one first. -/
structure ProviderPolicy where
  ordered : List ProviderSlot
deriving DecidableEq, Repr

inductive ProviderRefusal
  | alternativesExhausted (nextIndex : U64)
  | outOfOrder (nextIndex : U64) (expected requested : String)
  | notAuthorized (provider : String)
deriving DecidableEq, Repr

namespace ProviderPolicy

def primary (policy : ProviderPolicy) : Option ProviderSlot := policy.ordered.head?

def admitFailover (policy : ProviderPolicy) (nextIndex : U64) (requestedId : String) :
    Except ProviderRefusal Unit :=
  match policy.ordered[nextIndex.val]? with
  | none => .error (.alternativesExhausted nextIndex)
  | some slot =>
    if slot.id ≠ requestedId then .error (.outOfOrder nextIndex slot.id requestedId)
    else if !slot.authorized then .error (.notAuthorized slot.id)
    else .ok ()

end ProviderPolicy

/-- How an attempt ended. -/
inductive AttemptOutcomeClass
  | notDispatched
  | rejectedBeforeProcessing
  | completedWithResponse
  | uncertain
  | providerReportedRetryable
deriving DecidableEq, Repr

def retryIsPermitted : AttemptOutcomeClass → Bool
  | .notDispatched => true
  | .rejectedBeforeProcessing => true
  | .providerReportedRetryable => true
  | _ => false

end Semaprax.ModelPolicy
