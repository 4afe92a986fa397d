/-
**The runtime kernel of live invocations** (`live_invocation/kernel.rs`, `model_invoke.rs`).

`runLiveInvocation` drives one invocation from a journal: it opens a turn, reserves, dispatches the
model call, decodes, authorizes, calls the effect and reduces, and persists the journal at every
step. It is written here as a chain of stages, each of which ends the turn or hands over to the next.

* Every handler is a function of an environment that it may change, and a call of it may be the point
  at which the process ends (`none`).
* `World` is what outlives the call: the environment, and the log of what the call did to the outside,
  newest first. `stored` is the journal last persisted.
* A stage is named after what it does last. `turnFrom` is one pass of the loop and `turnsFrom` the
  loop, which has fuel for every turn of the configuration; running out is the stop `stalled`.
-/

import Semaprax.Library.Programs
import Semaprax.LiveInvocation.Journal

namespace Semaprax.LiveInvocation

open Library

/-- The typed `model.invoke` request of one turn. -/
structure ModelInvocationRequest where
  turn : Nat
  task : Bytes
  observation : Bytes
  proposalGrammarDigest : String
  deploymentBinding : String
  maxResponseBytes : Nat
  effectiveBudget : I64
deriving DecidableEq

def ModelInvocationRequest.canonicalJson (request : ModelInvocationRequest) : String :=
  "\x7b\"schema\":\"semaprax.live-invocation.model-request.v1\",\"turn\":" ++
    toString request.turn ++ ",\"task\":" ++ quoteJson (hex request.task) ++ ",\"observation\":" ++
    quoteJson (hex request.observation) ++ ",\"proposal_grammar_digest\":" ++
    quoteJson request.proposalGrammarDigest ++ ",\"deployment_binding\":" ++
    quoteJson request.deploymentBinding ++ ",\"max_response_bytes\":" ++
    toString request.maxResponseBytes ++ ",\"effective_budget\":" ++
    toString request.effectiveBudget.val ++ "\x7d"

def ModelInvocationRequest.digest (sha256 : Bytes → Bytes) (request : ModelInvocationRequest) :
    String :=
  LiveInvocation.digest sha256 "semaprax.live-invocation.model-request.v1\x00"
    (asBytes request.canonicalJson)

/-- The closed `model.invoke` failure domain. -/
inductive ModelFailure
  | timeout
  | cancelled
  | capacityExceeded
  | providerError
  | malformedResponse
  | refused
deriving DecidableEq, Repr

def ModelFailure.asStr : ModelFailure → String
  | .timeout => "timeout"
  | .cancelled => "cancelled"
  | .capacityExceeded => "capacity_exceeded"
  | .providerError => "provider_error"
  | .malformedResponse => "malformed_response"
  | .refused => "refused"

/-- The outcome of a dispatched model call. -/
inductive ModelInvocationOutcome
  | settled (response : Bytes)
  | failed (failure : ModelFailure) (attemptedBytes : Nat)
deriving DecidableEq, Repr

/-- The outcome of decoding a response. -/
inductive ProposalOutcome
  | admitted (proposal : Bytes)
  | refused (reason : String)
deriving DecidableEq, Repr

/-- What an authorization decision is made against. -/
structure AuthorizationContext where
  turn : Nat
  observationDigest : String
  proposalDigest : String
deriving DecidableEq

/-- Usage reported to the budget hook. -/
structure InvocationUsage where
  turn : Nat
  requestBytes : Nat
  responseBytes : Nat
  failed : Bool
deriving DecidableEq, Repr

/-- The transition that the policy selects. -/
inductive TurnTransition
  | «continue»
  | complete (carrier : Bytes)
  | suspend (carrier : Bytes)
  | fail (carrier : Bytes)
deriving DecidableEq, Repr

/-- The result of the invocation. -/
inductive LiveInvocationOutcome
  | complete (carrier : Bytes)
  | suspend (carrier : Bytes)
  | fail (carrier : Bytes)
  | cancelled
deriving DecidableEq, Repr

/-- A refusal of the kernel. -/
inductive LiveKernelError
  | invalidJournal (error : JournalError)
  | uncertainIntent
  | unresolvedPrefix
  | schemaDrift
  | persistenceFailed (dispatched : Nat)
deriving DecidableEq, Repr

structure LiveKernelRun where
  journal : Journal
  outcome : LiveInvocationOutcome
  dispatched : Nat
deriving DecidableEq, Repr

/-- Why a run returns nothing: the kernel refused, the process ended, an assertion of the source
failed, or the fuel ran out. -/
inductive Stop
  | refused (error : LiveKernelError)
  | crashed
  | panicked
  | stalled
deriving DecidableEq, Repr

/-- What becomes of offering a journal to the sink. A sink that fails, and a process that ends in the
middle, may have stored the journal or not. -/
inductive Persisted
  | durable
  | failed (kept : Bool)
  | crashed (kept : Bool)
deriving DecidableEq, Repr

/-- The configuration of an invocation. -/
structure LiveInvocationConfig where
  identity : LiveInvocationId
  task : Bytes
  deploymentBinding : String
  interactionSchemaDigest : String
  maxTurns : Nat
  /-- A `u32`. -/
  maxTurns_bound : maxTurns ≤ lastTurn
  maxResponseBytes : Nat
  requestedBudgetPerTurn : I64

/-- A call of a handler: its answer, unless the process ends in it. -/
abbrev Call (E A : Type) := E → Option A × E

/-- The injected seams, over an environment that each may read and change. -/
structure LiveInvocationHandlers (E : Type) where
  schemaDigest : String
  invoke : ModelInvocationRequest → Call E ModelInvocationOutcome
  decode : Nat → Bytes → Call E ProposalOutcome
  authorize : AuthorizationContext → Call E (Except String String)
  checkDeadline : Call E (Except String Unit)
  checkPreDispatch : Call E (Except String Unit)
  reserve : ModelInvocationRequest → Call E (Except String I64)
  record : InvocationUsage → Call E Unit
  observe : Nat → Call E Bytes
  reduce : Nat → Bytes → Call E TurnTransition
  effect : Option (Nat → String → Call E (Except String Bytes))
  sink : Option (Journal → E → Persisted × E)
  isCancelled : Call E Bool

/-- What a run does to the outside. -/
inductive Event
  | persisted (journal : Journal)
  | invoked (request : ModelInvocationRequest)
  | called (turn : Nat) (grant : String)
deriving DecidableEq

/-- The environment of the handlers, and the log of what was done so far, newest first. -/
structure World (E : Type) where
  env : E
  log : List Event

def stored : List Event → Journal
  | [] => []
  | .persisted journal :: _ => journal
  | _ :: log => stored log

/-- A part of a run. -/
abbrev Kernel (E A : Type) := Prog (World E) Stop A

def ask {E A : Type} (call : Call E A) : Kernel E A := fun world =>
  match call world.env with
  | (some answer, env) => (.ok answer, ⟨env, world.log⟩)
  | (none, env) => (.error .crashed, ⟨env, world.log⟩)

/-- Log what is about to be done to the outside. -/
def note {E : Type} (event : Event) : Kernel E Unit :=
  Prog.step fun world => ((), ⟨world.env, event :: world.log⟩)

/-- Offer a journal to the sink, if there is one. -/
def persist {E : Type} (handlers : LiveInvocationHandlers E) (journal : Journal)
    (dispatched : Nat) : Kernel E Unit :=
  match handlers.sink with
  | none => pure ()
  | some sink => fun world =>
    let keep (kept : Bool) : List Event :=
      if kept then .persisted journal :: world.log else world.log
    match sink journal world.env with
    | (.durable, env) => (.ok (), ⟨env, keep true⟩)
    | (.failed kept, env) =>
      (.error (.refused (.persistenceFailed dispatched)), ⟨env, keep kept⟩)
    | (.crashed kept, env) => (.error .crashed, ⟨env, keep kept⟩)

/-- The greatest `usize`. -/
def maxUsize : Nat := 2 ^ 64 - 1

/-- `saturating_add` of `usize` and of the turn. -/
def saturatingNext (bound value : Nat) : Nat := min (value + 1) bound

/-- The length of a carrier, up to one more than the cap. -/
def measure (bytes : Bytes) (cap : Nat) : Nat := min bytes.length (saturatingNext maxUsize cap)

/-- What one call of the kernel is given besides the journal. -/
structure KernelCall (E : Type) where
  sha256 : Bytes → Bytes
  config : LiveInvocationConfig
  handlers : LiveInvocationHandlers E

/-- How one pass of the loop ends. -/
inductive TurnEnd
  | returned (run : LiveKernelRun)
  | continued (journal : Journal) (dispatched : Nat)

def turnEffectOperation : String := "live-invocation.turn-effect"

/-- A `continue` at the last turn of the configuration is a failure. -/
def limitTurns (maxTurns turn : Nat) : TurnTransition → TurnTransition
  | .continue =>
    if saturatingNext lastTurn turn ≥ maxTurns then .fail (asBytes "turn_budget_exhausted")
    else .continue
  | other => other

def limitResponse (cap : Nat) : ModelInvocationOutcome → ModelInvocationOutcome
  | .settled response =>
    if response.length > cap then .failed .malformedResponse (measure response cap)
    else .settled response
  | other => other

namespace KernelCall

variable {E : Type} (call : KernelCall E)

def carrierDigest (bytes : Bytes) : String :=
  digest call.sha256 "semaprax.live-invocation.transition-carrier.v1\x00" bytes

/-- Close a journal with a transition and its terminal outcome. A `continue` is the caller's to
handle. -/
def finish (journal : Journal) (turn : Nat) (transition : TurnTransition) : Option LiveKernelRun :=
  let close (case : String) (bytes : Bytes) (outcome : LiveInvocationOutcome) : LiveKernelRun :=
    { journal := journal ++ [JournalEntry.transition turn case (call.carrierDigest bytes),
        .terminalOutcome turn case (call.carrierDigest bytes)]
      outcome
      dispatched := 0 }
  match transition with
  | .continue => none
  | .complete bytes => some (close "complete" bytes (.complete bytes))
  | .suspend bytes => some (close "suspend" bytes (.suspend bytes))
  | .fail bytes => some (close "fail" bytes (.fail bytes))

/-- `finish`, persist and return. -/
def conclude (journal : Journal) (turn : Nat) (transition : TurnTransition) (dispatched : Nat) :
    Kernel E TurnEnd :=
  match call.finish journal turn transition with
  | none => Prog.stop .panicked
  | some run => do
      persist call.handlers run.journal dispatched
      pure (.returned { run with dispatched })

def closeTurn (journal : Journal) (entry : JournalEntry) (turn : Nat) (reason : String)
    (dispatched : Nat) : Kernel E TurnEnd := do
  let journal := journal ++ [entry]
  persist call.handlers journal dispatched
  call.conclude journal turn (.fail (asBytes reason)) dispatched

/-- Select the next transition, unless the deadline has passed by then. -/
def selectTransition (turn : Nat) (proposal : Bytes) : Kernel E TurnTransition := do
  let transition ← ask (call.handlers.reduce turn proposal)
  match limitTurns call.config.maxTurns turn transition with
  | .fail bytes => pure (.fail bytes)
  | other => do
      match ← ask call.handlers.checkDeadline with
      | .error _ => pure (.fail (asBytes "deadline_exceeded"))
      | .ok () => pure other

/-- Reduce the turn: continue with the next one, or finish. -/
def reduceTurn (turn : Nat) (proposal : Bytes) (journal : Journal) (dispatched : Nat) :
    Kernel E TurnEnd := do
  match ← ask call.handlers.checkDeadline with
  | .error _ => call.conclude journal turn (.fail (asBytes "deadline_exceeded")) dispatched
  | .ok () => do
      match ← call.selectTransition turn proposal with
      | .continue => do
          let journal := journal ++ [JournalEntry.transition turn "continue" (call.carrierDigest [])]
          persist call.handlers journal dispatched
          pure (.continued journal dispatched)
      | terminal => call.conclude journal turn terminal dispatched

def callEffect (effect : Nat → String → Call E (Except String Bytes)) (turn : Nat)
    (grant : String) (proposal : Bytes) (journal : Journal) (dispatched : Nat) :
    Kernel E TurnEnd := do
  let failed (reason : String) : JournalEntry := .effectFailed turn turnEffectOperation reason
  if ← ask call.handlers.isCancelled then
    call.closeTurn journal (failed "cancelled") turn "effect_failed" dispatched
  else
    match ← ask call.handlers.checkDeadline with
    | .error refusal =>
      call.closeTurn journal (failed refusal) turn "deadline_exceeded" dispatched
    | .ok () => do
        note (.called turn grant)
        match ← ask (effect turn grant) with
        | .ok observed => do
            let journal := journal ++ [JournalEntry.effectObserved turn turnEffectOperation
              (digest call.sha256 "semaprax.live-invocation.effect-observation.v1\x00" observed)]
            persist call.handlers journal dispatched
            call.reduceTurn turn proposal journal dispatched
        | .error reason =>
          call.closeTurn journal (failed reason) turn "effect_failed" dispatched

/-- Record the intent of the effect, if there is one, before it is called. -/
def intendEffect (turn : Nat) (grant : String) (proposal : Bytes) (journal : Journal)
    (dispatched : Nat) : Kernel E TurnEnd :=
  match call.handlers.effect with
  | none => call.reduceTurn turn proposal journal dispatched
  | some effect => do
      let journal := journal ++ [JournalEntry.effectIntent turn turnEffectOperation
        (digest call.sha256 "semaprax.live-invocation.effect-request.v1\x00" (asBytes grant))]
      persist call.handlers journal dispatched
      call.callEffect effect turn grant proposal journal dispatched

def authorizeTurn (turn : Nat) (observationDigest : String) (proposal : Bytes)
    (journal : Journal) (dispatched : Nat) : Kernel E TurnEnd := do
  let proposalDigest := digest call.sha256 "semaprax.live-invocation.proposal.v1\x00" proposal
  let refused (reason : String) : JournalEntry := .authorizationRefused turn reason
  if ← ask call.handlers.isCancelled then
    call.closeTurn journal (refused "cancelled") turn "authorization_refused" dispatched
  else
    match ← ask call.handlers.checkDeadline with
    | .error refusal =>
      call.closeTurn journal (refused refusal) turn "deadline_exceeded" dispatched
    | .ok () => do
        match ← ask (call.handlers.authorize ⟨turn, observationDigest, proposalDigest⟩) with
        | .ok grant => do
            let journal := journal ++ [JournalEntry.authorizationConsumed turn grant]
            persist call.handlers journal dispatched
            call.intendEffect turn grant proposal journal dispatched
        | .error refusal =>
          call.closeTurn journal (refused refusal) turn "authorization_refused" dispatched

def decodeResponse (turn : Nat) (observationDigest : String) (response : Bytes)
    (journal : Journal) (dispatched : Nat) : Kernel E TurnEnd := do
  match ← ask call.handlers.checkDeadline with
  | .error refusal =>
    call.conclude (journal ++ [JournalEntry.proposalRefused turn refusal]) turn
      (.fail (asBytes "deadline_exceeded")) dispatched
  | .ok () => do
      match ← ask (call.handlers.decode turn response) with
      | .admitted proposal => do
          let journal := journal ++ [JournalEntry.proposalAdmitted turn
            (digest call.sha256 "semaprax.live-invocation.proposal.v1\x00" proposal)]
          persist call.handlers journal dispatched
          call.authorizeTurn turn observationDigest proposal journal dispatched
      | .refused reason =>
        call.conclude (journal ++ [JournalEntry.proposalRefused turn reason]) turn
          (.fail (asBytes "proposal_refused")) dispatched

def failResponse (request : ModelInvocationRequest) (failure : String) (attemptedBytes : Nat)
    (reason : String) (journal : Journal) (dispatched : Nat) : Kernel E TurnEnd := do
  let journal := journal ++ [JournalEntry.responseFailed request.turn failure attemptedBytes]
  persist call.handlers journal dispatched
  ask (call.handlers.record ⟨request.turn, request.observation.length, attemptedBytes, true⟩)
  call.conclude journal request.turn (.fail (asBytes reason)) dispatched

def recordResponse (request : ModelInvocationRequest) (observationDigest : String)
    (outcome : ModelInvocationOutcome) (journal : Journal) (dispatched : Nat) :
    Kernel E TurnEnd :=
  let cap := call.config.maxResponseBytes
  match limitResponse cap outcome with
  | .settled response => do
      match ← ask call.handlers.checkDeadline with
      | .error refusal =>
        call.failResponse request refusal (measure response cap) "deadline_exceeded" journal
          dispatched
      | .ok () => do
          let journal := journal ++ [JournalEntry.responseRecorded request.turn
            (digest call.sha256 "semaprax.live-invocation.response.v1\x00" response) response]
          persist call.handlers journal dispatched
          ask (call.handlers.record
            ⟨request.turn, request.observation.length, response.length, false⟩)
          call.decodeResponse request.turn observationDigest response journal dispatched
  | .failed failure attemptedBytes =>
    call.failResponse request failure.asStr (min attemptedBytes (saturatingNext maxUsize cap))
      "model_call_failed" journal dispatched

def dispatchRequest (request : ModelInvocationRequest) (observationDigest : String)
    (journal : Journal) (dispatched : Nat) : Kernel E TurnEnd := do
  match ← ask call.handlers.checkPreDispatch with
  | .error refusal =>
    call.closeTurn journal (.responseFailed request.turn refusal 0) request.turn
      "budget_refused" dispatched
  | .ok () => do
      if ← ask call.handlers.isCancelled then
        call.recordResponse request observationDigest (.failed .cancelled 0) journal dispatched
      else do
        note (.invoked request)
        let outcome ← ask (call.handlers.invoke request)
        call.recordResponse request observationDigest outcome journal (dispatched + 1)

/-- Reserve for a request and record its intent. A refused reservation is recorded as an intent of
nothing that failed. -/
def reserveRequest (request : ModelInvocationRequest) (observationDigest : String)
    (journal : Journal) (dispatched : Nat) : Kernel E TurnEnd := do
  let intent (request : ModelInvocationRequest) (reserved : I64) : JournalEntry :=
    .requestIntent request.turn (request.digest call.sha256) reserved
  match ← ask (call.handlers.reserve request) with
  | .error refusal => do
      let journal := journal ++ [intent request 0]
      persist call.handlers journal dispatched
      call.closeTurn journal (.responseFailed request.turn refusal 0) request.turn
        "budget_refused" dispatched
  | .ok reserved => do
      let request := { request with effectiveBudget := reserved }
      let journal := journal ++ [intent request reserved]
      persist call.handlers journal dispatched
      call.dispatchRequest request observationDigest journal dispatched

def requestOf (turn : Nat) (observation : Bytes) : ModelInvocationRequest where
  turn := turn
  task := call.config.task
  observation := observation
  proposalGrammarDigest := call.config.interactionSchemaDigest
  deploymentBinding := call.config.deploymentBinding
  maxResponseBytes := call.config.maxResponseBytes
  effectiveBudget := call.config.requestedBudgetPerTurn

/-- One pass of the loop over the turns. -/
def turnFrom (turn : Nat) (journal : Journal) (dispatched : Nat) : Kernel E TurnEnd := do
  if ← ask call.handlers.isCancelled then
    pure (.returned ⟨journal, .cancelled, dispatched⟩)
  else do
    let observation ← ask (call.handlers.observe turn)
    let observationDigest :=
      digest call.sha256 "semaprax.live-invocation.observation.v1\x00" observation
    let journal := journal ++
      [JournalEntry.turnOpened turn call.config.identity.digest observationDigest]
    persist call.handlers journal dispatched
    if ← ask call.handlers.isCancelled then
      pure (.returned ⟨journal, .cancelled, dispatched⟩)
    else
      call.reserveRequest (call.requestOf turn observation) observationDigest journal dispatched

def turnsFrom : Nat → Nat → Journal → Nat → Kernel E LiveKernelRun
  | 0, _, _, _ => Prog.stop .stalled
  | fuel + 1, turn, journal, dispatched => do
      match ← call.turnFrom turn journal dispatched with
      | .returned run => pure run
      | .continued journal dispatched =>
        turnsFrom fuel (saturatingNext lastTurn turn) journal dispatched

def terminalOutcomeOf (journal : Journal) : LiveInvocationOutcome :=
  match journal.getLast? with
  | some (.terminalOutcome _ case _) =>
    if case = "complete" then .complete []
    else if case = "suspend" then .suspend []
    else .fail []
  | _ => .fail []

def runLiveInvocation (journal : Journal) : Kernel E LiveKernelRun :=
  let fuel := call.config.maxTurns + 1
  if call.handlers.schemaDigest ≠ call.config.interactionSchemaDigest then
    Prog.stop (.refused .schemaDrift)
  else if journal.isEmpty then call.turnsFrom fuel 0 journal 0
  else
    match validate journal call.config.identity.digest with
    | .error (.rejected error) => Prog.stop (.refused (.invalidJournal error))
    | .error .overflow => Prog.stop .panicked
    | .ok validated =>
      if validated.terminal then pure ⟨journal, terminalOutcomeOf journal, 0⟩
      else if validated.uncertainIntent then Prog.stop (.refused .uncertainIntent)
      else
        match validated.resumableTurn with
        | none => Prog.stop (.refused .unresolvedPrefix)
        | some turn => call.turnsFrom fuel turn journal 0

end KernelCall

end Semaprax.LiveInvocation
