/-
**Provider adapters** (`provider_adapter_sdk/capability.rs`, `provider_adapter_sdk/adapter.rs`).

What an adapter declares, what is required of it, and what it may answer to a poll. An adapter, the
factory that makes it, the clock, the cancellation and the other callbacks are the host's: they may
answer anything, and differently each time.

* `negotiate` — whether an adapter may be dispatched against a requirement.
* `AdapterPoll` — what an adapter answers.
* `Host` — the callbacks, over a world that they read and change.
-/

import Semaprax.ModelPolicy.Ledger

namespace Semaprax.ModelPolicy

open Library

inductive StructuredOutputMode
  | rawText
  | jsonMode
  | toolCallShaped
deriving DecidableEq, Repr

inductive EndpointPolicy
  | hostInjected
  | adapterDeclaredAmbient (declared : String)
deriving DecidableEq, Repr

/-- What an adapter declares. -/
structure AdapterCapabilities where
  providerProfile : String
  structuredOutputModes : List StructuredOutputMode
  supportsStreaming : Bool
  retryableFailureClasses : List AttemptOutcomeClass
  endpointPolicy : EndpointPolicy
  maxRequestBytes : Nat
  maxResponseBytes : Nat
deriving DecidableEq, Repr

structure RequiredCapabilities where
  requireStreaming : Bool
  requireStructuredOutputMode : Option StructuredOutputMode
  maxRequestBytes : Nat
  maxResponseBytes : Nat
deriving DecidableEq, Repr

inductive NegotiationRefusal
  | ambientEndpointDeclared (declared : String)
  | unsafeRetryableClassDeclared (outcome : AttemptOutcomeClass)
  | streamingNotSupported
  | structuredOutputModeNotSupported (mode : StructuredOutputMode)
  | requestBudgetExceedsAdapterMax (requested adapterMax : Nat)
  | responseBudgetExceedsAdapterMax (requested adapterMax : Nat)
deriving DecidableEq, Repr

/-- Refuse an endpoint that the adapter found by itself. -/
def EndpointPolicy.require : EndpointPolicy → Except NegotiationRefusal Unit
  | .hostInjected => .ok ()
  | .adapterDeclaredAmbient declared => .error (.ambientEndpointDeclared declared)

/-- Refuse the first declared class that is not permitted. -/
def requireSafeClasses (declared : List AttemptOutcomeClass) : Except NegotiationRefusal Unit :=
  match declared.find? fun outcome => !retryIsPermitted outcome with
  | none => .ok ()
  | some outcome => .error (.unsafeRetryableClassDeclared outcome)

def requireMode (modes : List StructuredOutputMode) :
    Option StructuredOutputMode → Except NegotiationRefusal Unit
  | none => .ok ()
  | some mode =>
    if mode ∈ modes then .ok () else .error (.structuredOutputModeNotSupported mode)

def negotiate (caps : AdapterCapabilities) (required : RequiredCapabilities) :
    Except NegotiationRefusal Unit := do
  caps.endpointPolicy.require
  requireSafeClasses caps.retryableFailureClasses
  if required.requireStreaming ∧ !caps.supportsStreaming then throw .streamingNotSupported
  requireMode caps.structuredOutputModes required.requireStructuredOutputMode
  if caps.maxRequestBytes < required.maxRequestBytes then
    throw (.requestBudgetExceedsAdapterMax required.maxRequestBytes caps.maxRequestBytes)
  if caps.maxResponseBytes < required.maxResponseBytes then
    throw (.responseBudgetExceedsAdapterMax required.maxResponseBytes caps.maxResponseBytes)

/-- The provider and the model of an adapter, or of a slot of the deployment. -/
structure ModelSelection where
  providerId : String
  modelId : String
  capabilities : List String
deriving DecidableEq, Repr

structure AdapterRequest where
  requestBytes : List UInt8
  maxResponseBytes : Nat
deriving DecidableEq, Repr

inductive ModelFailure
  | timeout
  | cancelled
  | capacityExceeded
  | providerError
  | malformedResponse
  | refused
deriving DecidableEq, Repr

structure AdapterUsage where
  tokensIn : Option U64
  tokensOut : Option U64
  costMicros : Option I64
deriving DecidableEq, Repr

inductive AdapterEvent
  | delta (chunk : List UInt8)
  | usage (tokensIn tokensOut : U64) (costMicros : I64)
  | completed
deriving DecidableEq, Repr

structure AdapterSettlement where
  responseBytes : List UInt8
  usage : AdapterUsage
deriving DecidableEq, Repr

inductive AdapterPoll
  | event (event : AdapterEvent)
  | pending
  | settled (settlement : AdapterSettlement)
  | failed (failure : ModelFailure) (attemptedBytes : Nat)
deriving DecidableEq, Repr

/-- The callbacks of the host. Each reads and changes a world, in which the adapters are too. -/
structure Host (World Adapter : Type) where
  isCancelled : World → Bool × World
  nowMillis : World → I64 × World
  create : String → World → Except String Adapter × World
  capabilities : Adapter → World → AdapterCapabilities
  modelIdentity : Adapter → World → Option ModelSelection
  start : Adapter → AdapterRequest → World → Except String Unit × World
  poll : Adapter → World → AdapterPoll × World
  cancel : Adapter → String → World → World
  classify : String → ModelFailure → World → AttemptOutcomeClass × World
  wait : U32 → String → World → Except String Unit × World

end Semaprax.ModelPolicy
