/-
**Retry and failover** (`model_budget_policy/retry.rs`).

The scheduler admits one attempt after the other, makes an adapter for it, starts it and polls it.
After a failure that is safe to repeat it tries the same provider again, and after the retries the next
one.

* `observe`, `pollLoop`, `drive` — one attempt. A result that is returned early stops the program.
* `iterate`, `runLoop`, `runProjected` — the attempts of a run.
* `Attempt` — what is observed of an attempt beside its result.
-/

import Semaprax.ModelPolicy.Adapters

namespace Semaprax.ModelPolicy

open Library

def maxAttemptPolls : Nat := 10000
def maxRetainedAttempts : Nat := 1024
def maxAdapterRequestBytes : Nat := 65536

structure AdapterAttemptPlan where
  required : RequiredCapabilities
  contextTokens : U64
  requestedOutputTokens : U64
  estimatedCostMicros : I64
  maxPolls : Nat
deriving DecidableEq, Repr

inductive SchedulerRefusal
  | pollLimitOutOfRange (requested max : Nat)
  | requestBoundMismatch
  | retainedAttemptLimit (max : Nat)
  | requestBytesExceeded (requested max : Nat)
  | policy (refusal : AttemptRefusal)
  | backoff (refusal : String)
  | factory (refusal : String)
  | negotiation (refusal : NegotiationRefusal)
  | providerProfileMismatch (selected declared : String)
  | modelIdentityUnavailable (provider : String)
  | modelIdentityMismatch (provider model : String)
  | adapterStart (refusal : String)
  | pollBudgetExceeded (maxPolls : Nat)
  | adapterProtocol (code : String)
  | journal (detail : String)
  | cancelledAfterDispatch
  | deadlineExceededAfterDispatch
deriving DecidableEq, Repr

inductive AdapterAttemptResult
  | settled (responseBytes : List UInt8) (usage : AdapterUsage)
  | failed (classification : AttemptOutcomeClass) (failure : Option ModelFailure)
      (attemptedBytes : Nat) (refusal : Option SchedulerRefusal)
deriving DecidableEq, Repr

def protocolFailure (attemptedBytes : Nat) (code : String) : AdapterAttemptResult :=
  .failed .uncertain (some .malformedResponse) attemptedBytes (some (.adapterProtocol code))

/-- What is observed of an attempt: whether its adapter was asked for, whether `start` was called and
did not refuse, what the polls answered, and what a failure was taken for, with the classes that the
adapter declared. -/
structure Attempt where
  created : Bool
  started : Option Bool
  polls : List AdapterPoll
  judged : Option (AttemptOutcomeClass × List AttemptOutcomeClass)
deriving DecidableEq, Repr

/-- Nothing has been observed. -/
def Attempt.none : Attempt := ⟨false, Option.none, [], Option.none⟩

/-- What has been seen of the response. -/
structure Seen where
  bytes : List UInt8
  completed : Bool
  lastUsage : Option (U64 × U64 × I64)
deriving DecidableEq, Repr

/-- A usage with a negative cost, or less than what was reported before. -/
def Seen.contradicts (seen : Seen) (tokensIn tokensOut : U64) (costMicros : I64) : Bool :=
  decide (costMicros.val < 0) || seen.lastUsage.any fun (previousIn, previousOut, previousCost) =>
    decide (tokensIn < previousIn ∨ tokensOut < previousOut ∨ costMicros < previousCost)

/-- A program of one attempt, over the world and what is observed. It stops with a result. -/
abbrev Driving (World A : Type) : Type := Prog (World × Attempt) AdapterAttemptResult A

section Drive

variable {World Adapter : Type} (host : Host World Adapter)

/-- Ask the host. -/
def inquire {A : Type} (question : World → A × World) : Driving World A :=
  (Prog.step question).onFirst

/-- Keep what is observed. -/
def note (change : Attempt → Attempt) : Driving World Unit :=
  (Prog.step fun attempt => ((), change attempt)).onSecond

/-- The clock is only read when there is a deadline. -/
def Host.pastDeadline (deadlineMillis : Option I64) (world : World) : Bool × World :=
  match deadlineMillis with
  | none => (false, world)
  | some deadline => (decide (deadline.val ≤ (host.nowMillis world).1.val), (host.nowMillis world).2)

/-- Cancel the adapter and return. -/
def abort {A : Type} (adapter : Adapter) (reason : String) (result : AdapterAttemptResult) :
    Driving World A := do
  inquire fun world => ((), host.cancel adapter reason world)
  Prog.stop result

/-- A failure before anything was dispatched. -/
def notDispatched (refusal : SchedulerRefusal) : AdapterAttemptResult :=
  .failed .notDispatched none 0 (some refusal)

/-- The checks of cancellation and deadline before the adapter is made, and before it is started. -/
def admissible (deadlineMillis : Option I64) : Driving World Unit := do
  let cancelled ← inquire host.isCancelled
  stopIf (cancelled = true) (notDispatched (.policy .cancelled))
  let late ← inquire (host.pastDeadline deadlineMillis)
  stopIf (late = true) (notDispatched (.policy .deadlineExceeded))

/-- The checks of cancellation and deadline before and after each poll. -/
def checkpoint (adapter : Adapter) (deadlineMillis : Option I64) (cancelReason deadlineReason : String)
    (observed : Nat) : Driving World Unit := do
  let cancelled ← inquire host.isCancelled
  if cancelled = true then
    abort host adapter cancelReason
      (.failed .uncertain (some .cancelled) observed (some .cancelledAfterDispatch))
  else do
    let late ← inquire (host.pastDeadline deadlineMillis)
    if late = true then
      abort host adapter deadlineReason
        (.failed .uncertain (some .timeout) observed (some .deadlineExceededAfterDispatch))
    else pure ()

/-- What a failure is taken for. The classifier is only asked where the failure itself says that no
bytes were attempted. -/
def classified (providerId : String) (seen : Seen) (failure : ModelFailure) (attemptedBytes : Nat) :
    Driving World AttemptOutcomeClass :=
  if seen.completed = false ∧ attemptedBytes = 0 ∧
      (failure = .capacityExceeded ∨ failure = .providerError) then
    inquire (host.classify providerId failure)
  else pure .uncertain

def declaredOrUncertain (outcome : AttemptOutcomeClass) (declared : List AttemptOutcomeClass) :
    AttemptOutcomeClass :=
  if retryIsPermitted outcome = true ∧ outcome ∉ declared then .uncertain else outcome

def settle (adapter : Adapter) (maxResponseBytes : Nat) (seen : Seen)
    (settlement : AdapterSettlement) : Driving World Seen :=
  let usage := settlement.usage
  let contradictory := match usage.tokensIn, usage.tokensOut, usage.costMicros with
    | some tokensIn, some tokensOut, some costMicros =>
      seen.contradicts tokensIn tokensOut costMicros
    | _, _, _ => false
  if seen.completed = false ∨ seen.bytes ≠ settlement.responseBytes then
    abort host adapter "incomplete or contradictory settlement"
      (protocolFailure seen.bytes.length "ADAPTER-SETTLEMENT-MISMATCH")
  else if contradictory = true then
    abort host adapter "contradictory settlement usage"
      (protocolFailure seen.bytes.length "ADAPTER-CONTRADICTORY-USAGE")
  else if maxResponseBytes < seen.bytes.length then
    abort host adapter "settled response byte bound"
      (protocolFailure seen.bytes.length "ADAPTER-OVERSIZED-RESPONSE")
  else Prog.stop (.settled seen.bytes usage)

/-- What follows from one poll: the attempt goes on, or there is a result. -/
def observe (adapter : Adapter) (providerId : String) (maxResponseBytes : Nat) (seen : Seen) :
    AdapterPoll → Driving World Seen
  | .pending => pure seen
  | .event (.delta chunk) =>
    if seen.completed = true then
      abort host adapter "delta after completed"
        (protocolFailure seen.bytes.length "ADAPTER-EVENT-AFTER-COMPLETION")
    else if maxResponseBytes < seen.bytes.length + chunk.length then
      abort host adapter "response byte bound"
        (protocolFailure seen.bytes.length "ADAPTER-OVERSIZED-RESPONSE")
    else pure
      { seen with
        bytes := seen.bytes ++ chunk }
  | .event .completed =>
    if seen.completed = true then
      abort host adapter "duplicate completion"
        (protocolFailure seen.bytes.length "ADAPTER-DUPLICATE-COMPLETION")
    else pure
      { seen with
        completed := true }
  | .event (.usage tokensIn tokensOut costMicros) =>
    if seen.completed = true then
      abort host adapter "usage after completed"
        (protocolFailure seen.bytes.length "ADAPTER-EVENT-AFTER-COMPLETION")
    else if seen.contradicts tokensIn tokensOut costMicros = true then
      abort host adapter "contradictory usage"
        (protocolFailure seen.bytes.length "ADAPTER-CONTRADICTORY-USAGE")
    else pure
      { seen with
        lastUsage := some (tokensIn, tokensOut, costMicros) }
  | .settled settlement => settle host adapter maxResponseBytes seen settlement
  | .failed failure attemptedBytes => do
      let outcome ← classified host providerId seen failure attemptedBytes
      let declared ← inquire fun world =>
        ((host.capabilities adapter world).retryableFailureClasses, world)
      note fun attempt =>
        { attempt with
          judged := some (outcome, declared) }
      Prog.stop (.failed (declaredOrUncertain outcome declared) (some failure) attemptedBytes none)

def observedAfter (seen : Seen) : AdapterPoll → Nat
  | .failed _ attemptedBytes => attemptedBytes
  | .event (.delta chunk) => seen.bytes.length + chunk.length
  | .settled settlement => settlement.responseBytes.length
  | _ => seen.bytes.length

def pollLoop (adapter : Adapter) (providerId : String) (deadlineMillis : Option I64)
    (maxResponseBytes maxPolls : Nat) : Nat → Seen → Driving World AdapterAttemptResult
  | 0, seen =>
    abort host adapter "adapter poll budget exhausted"
      (.failed .uncertain (some .timeout) seen.bytes.length (some (.pollBudgetExceeded maxPolls)))
  | polls + 1, seen => do
      checkpoint host adapter deadlineMillis "model policy cancellation" "model policy deadline"
        seen.bytes.length
      let poll ← inquire (host.poll adapter)
      note fun attempt =>
        { attempt with
          polls := attempt.polls ++ [poll] }
      checkpoint host adapter deadlineMillis "model policy cancellation after poll"
        "model policy deadline after poll" (observedAfter seen poll)
      let seen ← observe host adapter providerId maxResponseBytes seen poll
      pollLoop adapter providerId deadlineMillis maxResponseBytes maxPolls polls seen

def requireModelIdentity (providerId : String) (declared : Option ModelSelection) :
    Option ModelSelection → Except SchedulerRefusal Unit
  | none => .ok ()
  | some expected =>
    match declared with
    | none => .error (.modelIdentityUnavailable providerId)
    | some declared =>
      if declared ≠ expected then
        .error (.modelIdentityMismatch providerId expected.modelId)
      else .ok ()

/-- Go on with what a check gives, or return what it refuses. -/
def orReturn {E A : Type} (translate : E → AdapterAttemptResult) : Except E A → Driving World A
  | .ok value => pure value
  | .error refusal => Prog.stop (translate refusal)

def prepare (deadlineMillis : Option I64) (providerId : String)
    (expectedModel : Option ModelSelection) (plan : AdapterAttemptPlan) :
    Driving World Adapter := do
  admissible host deadlineMillis
  note fun attempt =>
    { attempt with
      created := true }
  let made ← inquire (host.create providerId)
  let adapter ← orReturn (fun refusal => notDispatched (.factory refusal)) made
  let caps ← inquire fun world => (host.capabilities adapter world, world)
  stopIf (caps.providerProfile ≠ providerId)
    (notDispatched (.providerProfileMismatch providerId caps.providerProfile))
  let identity ← inquire fun world => (host.modelIdentity adapter world, world)
  orReturn notDispatched (requireModelIdentity providerId identity expectedModel)
  let caps ← inquire fun world => (host.capabilities adapter world, world)
  orReturn (fun refusal => notDispatched (.negotiation refusal)) (negotiate caps plan.required)
  admissible host deadlineMillis
  pure adapter

def drive (deadlineMillis : Option I64) (providerId : String) (expectedModel : Option ModelSelection)
    (request : AdapterRequest) (plan : AdapterAttemptPlan) :
    Driving World AdapterAttemptResult := do
  let adapter ← prepare host deadlineMillis providerId expectedModel plan
  let started ← inquire (host.start adapter request)
  note fun attempt =>
    { attempt with
      started := some started.toBool }
  orReturn (fun refusal =>
    .failed .rejectedBeforeProcessing (some .refused) 0 (some (.adapterStart refusal))) started
  pollLoop host adapter providerId deadlineMillis request.maxResponseBytes plan.maxPolls plan.maxPolls
    ⟨[], false, none⟩

def driven (deadlineMillis : Option I64) (providerId : String)
    (expectedModel : Option ModelSelection) (request : AdapterRequest) (plan : AdapterAttemptPlan)
    (world : World) : AdapterAttemptResult × World × Attempt :=
  match drive host deadlineMillis providerId expectedModel request plan (world, .none) with
  | (.ok result, after) => (result, after)
  | (.error result, after) => (result, after)

end Drive

inductive RetryFailoverOutcome
  | settled (reservation : AttemptReservation) (responseBytes : List UInt8) (usage : AdapterUsage)
  | failed (reservation : AttemptReservation) (result : AdapterAttemptResult)
  | refused (reservation : Option AttemptReservation) (refusal : SchedulerRefusal)
deriving DecidableEq, Repr

/-- How a run ends: it returns, or the ledger panics. -/
inductive Ending
  | returned (outcome : RetryFailoverOutcome)
  | panicked
deriving DecidableEq, Repr

/-- The next step of a run. -/
structure RetryCursor where
  providerIndex : U64
  kind : AttemptKind
  prior : Option AttemptOutcomeClass
  retryOrdinal : U32
deriving DecidableEq, Repr

def RetryCursor.fresh : RetryCursor := ⟨0, .fresh, none, 0⟩

/-- The journal of a durable run. -/
structure RetryAttemptJournal (World : Type) where
  intent : AttemptReservation → World → Except String Unit × World
  settled : AttemptReservation → AdapterAttemptResult → World → Except String Unit × World

/-- A run in progress. `observed` has one entry for each attempt, in their order. -/
structure Scheduling (World : Type) where
  ledger : ModelPolicyLedger
  world : World
  attempts : List AttemptReservation
  evidence : List (AttemptReservation × AdapterAttemptResult)
  observed : List Attempt

/-- What does not change in a run: the request and the plan, the schema by which a response is decoded,
the models that are expected, and the journal. -/
structure RunSettings (World : Type) where
  providers : ProviderPolicy
  request : AdapterRequest
  plan : AdapterAttemptPlan
  schema : Option (List UInt8 → Bool)
  models : Option (List ModelSelection)
  journal : Option (RetryAttemptJournal World)

abbrev Running (World A : Type) : Type := Prog (Scheduling World) Ending A

section Run

variable {World Adapter : Type} (host : Host World Adapter) (settings : RunSettings World)

def askHost {A : Type} (question : World → A × World) : Running World A :=
  Prog.step fun run => ((question run.world).1, { run with
      world := (question run.world).2 })

def refuse {A : Type} (reservation : Option AttemptReservation) (refusal : SchedulerRefusal) :
    Running World A :=
  Prog.stop (.returned (.refused reservation refusal))

/-- What the clock reads where the ledger looks at it: after the cancellation, if there is a deadline. -/
def Host.readClock (deadlineMillis : Option I64) (cancelled : Bool) (world : World) : I64 × World :=
  if cancelled = true ∨ deadlineMillis.isNone = true then (0, world) else host.nowMillis world

/-- Ask the ledger for a reservation. -/
def reserve (request : AttemptRequest) :
    Running World (Except AttemptRefusal AttemptReservation) := fun run =>
  let cancelled := host.isCancelled run.world
  let now := host.readClock run.ledger.deadlineMillis cancelled.1 cancelled.2
  let reserved := ModelPolicyLedger.reserveAttempt cancelled.1 now.1 request run.ledger
  let after := { run with
    ledger := reserved.2
    world := now.2 }
  match reserved.1 with
  | .ok reservation => (.ok (.ok reservation), after)
  | .error (.refused refusal) => (.ok (.error refusal), after)
  | .error .panicked => (.error .panicked, after)

def keepAttempt (reservation : AttemptReservation) (attempt : Attempt) : Running World Unit :=
  Prog.step fun run => ((), { run with
      attempts := run.attempts ++ [reservation]
      observed := run.observed ++ [attempt] })

/-- A callback that may refuse before the adapter is made. The attempt is kept all the same. -/
def orRefuse (reservation : AttemptReservation) (translate : String → SchedulerRefusal) :
    Except String Unit → Running World Unit
  | .ok () => pure ()
  | .error detail => do
      keepAttempt reservation .none
      refuse (some reservation) (translate detail)

/-- Wait before an automatic attempt. -/
def backOff (cursor : RetryCursor) (reservation : AttemptReservation) (providerId : String) :
    Running World RetryCursor :=
  if cursor.kind = .fresh then pure cursor
  else do
    let ordinal := cursor.retryOrdinal.saturatingAdd 1
    let waited ← askHost (host.wait ordinal providerId)
    orRefuse reservation .backoff waited
    pure
      { cursor with
        retryOrdinal := ordinal }

def journalIntent (reservation : AttemptReservation) : Running World Unit :=
  match settings.journal with
  | none => pure ()
  | some journal => do
      let written ← askHost (journal.intent reservation)
      orRefuse reservation .journal written

def journalSettled (reservation : AttemptReservation) (result : AdapterAttemptResult) :
    Running World Unit :=
  match settings.journal with
  | none => pure ()
  | some journal => do
      let written ← askHost (journal.settled reservation result)
      match written with
      | .ok () => pure ()
      | .error detail => refuse (some reservation) (.journal detail)

def checkSchema : AdapterAttemptResult → AdapterAttemptResult
  | .settled responseBytes usage =>
    match settings.schema with
    | none => .settled responseBytes usage
    | some decodes =>
      if decodes responseBytes = true then .settled responseBytes usage
      else .failed .completedWithResponse (some .malformedResponse) responseBytes.length
        (some (.adapterProtocol "ADAPTER-SCHEMA-DECODE"))
  | .failed classification failure attemptedBytes refusal =>
    .failed classification failure attemptedBytes refusal

def driveAttempt (cursor : RetryCursor) (reservation : AttemptReservation) (providerId : String) :
    Running World AdapterAttemptResult :=
  Prog.step fun run =>
    let expected := settings.models.bind fun models => models[cursor.providerIndex.val]?
    let ran := driven host run.ledger.deadlineMillis providerId expected settings.request
      settings.plan run.world
    (ran.1, { run with
        world := ran.2.1
        attempts := run.attempts ++ [reservation]
        observed := run.observed ++ [ran.2.2] })

/-- Report the usage of a settled attempt, if it is whole. -/
def recordUsage (reservation : AttemptReservation) (usage : AdapterUsage) : Running World Unit :=
  match usage.tokensIn, usage.tokensOut, usage.costMicros with
  | some tokensIn, some tokensOut, some costMicros =>
    if costMicros.val < 0 then pure ()
    else Prog.step fun run => ((), { run with
        ledger := (ModelPolicyLedger.recordOutcome ⟨reservation.ordinal, .completedWithResponse,
          tokensIn, tokensOut, costMicros⟩ run.ledger).2 })
  | _, _, _ => pure ()

/-- What follows from the result of an attempt: the run returns, or it is tried again. -/
def conclude (cursor : RetryCursor) (reservation : AttemptReservation) :
    AdapterAttemptResult → Running World RetryCursor
  | .settled responseBytes usage => do
      recordUsage reservation usage
      Prog.stop (.returned (.settled reservation responseBytes usage))
  | .failed classification failure attemptedBytes refusal =>
    if retryIsPermitted classification = false then
      Prog.stop (.returned (.failed reservation
        (.failed classification failure attemptedBytes refusal)))
    else pure
      { cursor with
        prior := some classification
        kind := .retry }

def attemptOnce (cursor : RetryCursor) (providerId : String) (reservation : AttemptReservation) :
    Running World RetryCursor := do
  let cursor ← backOff host cursor reservation providerId
  journalIntent settings reservation
  let result ← driveAttempt host settings cursor reservation providerId
  let result := checkSchema settings result
  journalSettled settings reservation result
  Prog.step fun run => ((), { run with
      evidence := run.evidence ++ [(reservation, result)] })
  conclude cursor reservation result

/-- One turn of the loop. When the retries are used up it goes on to the next provider. -/
def iterate (cursor : RetryCursor) : Running World RetryCursor := do
  let run ← Prog.get
  stopIf (maxRetainedAttempts ≤ run.attempts.length)
    (.returned (.refused none (.retainedAttemptLimit maxRetainedAttempts)))
  let slot ← ofOption (.returned (.refused none (.policy (.providerRefused
    (.alternativesExhausted cursor.providerIndex)))))
    settings.providers.ordered[cursor.providerIndex.val]?
  let reserved ← reserve host
    { kind := cursor.kind
      providerId := slot.id
      contextTokens := settings.plan.contextTokens
      requestedOutputTokens := settings.plan.requestedOutputTokens
      estimatedCostMicros := settings.plan.estimatedCostMicros
      priorClassification := cursor.prior }
  match reserved with
  | .ok reservation => attemptOnce host settings cursor slot.id reservation
  | .error refusal => refuseOrNext cursor refusal
where
  refuseOrNext (cursor : RetryCursor) : AttemptRefusal → Running World RetryCursor
    | .retriesExhausted maxRetries =>
      if cursor.kind = .retry then pure
        { cursor with
          providerIndex := cursor.providerIndex.saturatingAdd 1
          kind := .failover }
      else refuse none (.policy (.retriesExhausted maxRetries))
    | refusal => refuse none (.policy refusal)

def runLoop : Nat → RetryCursor → Scheduling World → Option Ending × Scheduling World
  | 0, _, run => (none, run)
  | fuel + 1, cursor, run =>
    match iterate host settings cursor run with
    | (.ok next, after) => runLoop fuel next after
    | (.error ending, after) => (some ending, after)

def validatePlan : Except SchedulerRefusal Unit :=
  let plan := settings.plan
  let requestBytes := settings.request.requestBytes.length
  if plan.maxPolls = 0 ∨ maxAttemptPolls < plan.maxPolls then
    .error (.pollLimitOutOfRange plan.maxPolls maxAttemptPolls)
  else if maxAdapterRequestBytes < requestBytes then
    .error (.requestBytesExceeded requestBytes maxAdapterRequestBytes)
  else if plan.required.maxRequestBytes ≠ requestBytes ∨
      plan.required.maxResponseBytes ≠ settings.request.maxResponseBytes then
    .error .requestBoundMismatch
  else .ok ()

/-- A run from a ledger and a cursor. At most two turns of the loop are needed for each attempt. -/
def runProjected (cursor : RetryCursor) (ledger : ModelPolicyLedger) (world : World) :
    Option Ending × Scheduling World :=
  match validatePlan settings with
  | .error refusal => (some (.returned (.refused none refusal)), ⟨ledger, world, [], [], []⟩)
  | .ok () =>
    runLoop host settings (2 * maxRetainedAttempts + 2) cursor ⟨ledger, world, [], [], []⟩

end Run

end Semaprax.ModelPolicy
