/-
**The policy fold and the carry of a source journal** (`source_journal/policy_v6.rs`,
`source_journal/migration.rs`, `source_journal/execution.rs`).

* `PolicyFoldV6.step`, `fold` — the totals of a journal, entry by entry.
* `SourceJournal.policyAttemptIntent` — the builder of an intent.
* `validate` — the checks of a whole journal. Those that say nothing of the policy are a parameter.
* `PolicyMigrationCarryV6.fromPredecessor` — what a destination takes over from a closed invocation.
-/

import Semaprax.SourceJournals.Entries

namespace Semaprax.SourceJournals

open Library LiveInvocation ModelPolicy

def addU64 (left right : U64) : Except SourceJournalError U64 :=
  okOr .capacity (left.checkedAdd right)

def addI64 (left right : I64) : Except SourceJournalError I64 :=
  okOr .capacity (left.checkedAdd right)

/-- The sum of four numbers of tokens, if it fits (`checked_add`, `and_then`). -/
def addTokens (first second third fourth : U64) : Option U64 := do
  let sum ← first.checkedAdd second
  let sum ← sum.checkedAdd third
  sum.checkedAdd fourth

def within {A : Type} [LE A] [DecidableLE A] (sum : Option A) (limit : A) : Bool :=
  sum.any fun value => decide (value ≤ limit)

structure PolicyFoldV6 where
  totals : SourcePolicyTotalsV6
  reservations : List PolicyAttemptReservationV6
  intents : List PolicyAttemptIntentV6
  usedOrdinals : List U64

namespace PolicyFoldV6

/-- The fold before the first entry. -/
def start (carry : Option PolicyMigrationCarryV6) : PolicyFoldV6 where
  totals := carry.elim .default (·.totals)
  reservations := carry.elim [] (·.reservations)
  intents := []
  usedOrdinals := []

/-- An intent reserves, if all that is reserved or was observed stays within the limits. -/
def reserve (result : PolicyFoldV6) (binding : SourcePolicyBindingV6)
    (intent : PolicyAttemptIntentV6) : Except SourceJournalError PolicyFoldV6 := do
  let reservation := intent.reservation
  let totals := result.totals
  insist (reservation.ordinal = totals.nextOrdinal ∧ reservation.kind = .fresh ∧
    reservation.providerId = binding.providerId ∧ 0 ≤ reservation.reservedCostMicros.val ∧
    reservation.reservedContextTokens ≤ binding.limits.maxContextTokens ∧
    reservation.reservedOutputTokens ≤ binding.limits.maxOutputTokens ∧
    0 < intent.reservedUnits.val ∧ intent.responseLimit ≠ 0) .binding
  let aggregateExposure ← okOr .capacity (addTokens totals.exposureContextTokens
    totals.exposureOutputTokens reservation.reservedContextTokens reservation.reservedOutputTokens)
  let nextCost ← addI64 totals.exposureCostMicros reservation.reservedCostMicros
  insist (totals.calls < binding.limits.maxCalls ∧
    aggregateExposure ≤ binding.limits.maxAggregateTokens ∧
    nextCost ≤ binding.limits.maxCostMicros) .binding
  let calls ← okOr .capacity (totals.calls.checkedAdd 1)
  let reservedContext ← addU64 totals.reservedContextTokens reservation.reservedContextTokens
  let reservedOutput ← addU64 totals.reservedOutputTokens reservation.reservedOutputTokens
  let reservedCost ← addI64 totals.reservedCostMicros reservation.reservedCostMicros
  let exposureContext ← addU64 totals.exposureContextTokens reservation.reservedContextTokens
  let exposureOutput ← addU64 totals.exposureOutputTokens reservation.reservedOutputTokens
  let nextOrdinal ← okOr .capacity (totals.nextOrdinal.checkedAdd 1)
  pure { result with
    totals := { totals with
      calls := calls
      reservedContextTokens := reservedContext
      reservedOutputTokens := reservedOutput
      reservedCostMicros := reservedCost
      exposureContextTokens := exposureContext
      exposureOutputTokens := exposureOutput
      exposureCostMicros := nextCost
      nextOrdinal := nextOrdinal }
    reservations := result.reservations ++ [reservation]
    intents := result.intents ++ [intent] }

def raiseU64 (exposure used reserved : U64) : Except SourceJournalError U64 :=
  if reserved < used then addU64 exposure (used.saturatingSub reserved) else .ok exposure

/-- The exposure to costs of which more arose than were reserved. -/
def raiseI64 (exposure used reserved : I64) : Except SourceJournalError I64 :=
  if reserved < used then addI64 exposure (used.saturatingSub reserved) else .ok exposure

/-- What was observed counts, and raises the exposure where it passes the reservation. -/
def observe (totals : SourcePolicyTotalsV6) (reservation : PolicyAttemptReservationV6) :
    PolicyAttemptUsageV6 → Except SourceJournalError SourcePolicyTotalsV6
  | .unknown => .ok totals
  | .observed contextTokens outputTokens costMicros => do
      let observedContext ← addU64 totals.observedContextTokens contextTokens
      let observedOutput ← addU64 totals.observedOutputTokens outputTokens
      let observedCost ← addI64 totals.observedCostMicros costMicros
      let exposureContext ←
        raiseU64 totals.exposureContextTokens contextTokens reservation.reservedContextTokens
      let exposureOutput ←
        raiseU64 totals.exposureOutputTokens outputTokens reservation.reservedOutputTokens
      let exposureCost ←
        raiseI64 totals.exposureCostMicros costMicros reservation.reservedCostMicros
      pure { totals with
        observedContextTokens := observedContext
        observedOutputTokens := observedOutput
        observedCostMicros := observedCost
        exposureContextTokens := exposureContext
        exposureOutputTokens := exposureOutput
        exposureCostMicros := exposureCost }

def closes (turn attempt : U32) : Option SourceJournalEntry → Bool
  | some (.attemptSettled closedTurn closedAttempt _ _) =>
    decide (closedTurn = turn ∧ closedAttempt = attempt)
  | some (.attemptFailed closedTurn closedAttempt _ _) =>
    decide (closedTurn = turn ∧ closedAttempt = attempt)
  | _ => false

def negative : PolicyAttemptUsageV6 → Bool
  | .observed _ _ costMicros => decide (costMicros.val < 0)
  | .unknown => false

/-- Usage is told once, directly after its attempt of this journal was closed. -/
def use (result : PolicyFoldV6) (previous : Option SourceJournalEntry) (turn attempt : U32)
    (ordinal : U64) (usage : PolicyAttemptUsageV6) : Except SourceJournalError PolicyFoldV6 := do
  let intent ← okOr .order (result.intents.find? fun intent =>
    decide (intent.turn = turn ∧ intent.attempt = attempt ∧ intent.reservation.ordinal = ordinal))
  insist (closes turn attempt previous = true ∧ ordinal ∉ result.usedOrdinals ∧
    negative usage = false) .order
  let totals ← observe result.totals intent.reservation usage
  pure { result with totals := totals, usedOrdinals := result.usedOrdinals ++ [ordinal] }

def step (result : PolicyFoldV6) (binding : SourcePolicyBindingV6)
    (previous : Option SourceJournalEntry) :
    SourceJournalEntry → Except SourceJournalError PolicyFoldV6
  | .policyAttemptIntent intent => result.reserve binding intent
  | .policyAttemptUsage turn attempt ordinal usage =>
    result.use previous turn attempt ordinal usage
  | _ => .ok result

def steps (binding : SourcePolicyBindingV6) :
    Option SourceJournalEntry → PolicyFoldV6 → List SourceJournalEntry →
      Except SourceJournalError PolicyFoldV6
  | _, result, [] => .ok result
  | previous, result, entry :: rest => do
      let result ← result.step binding previous entry
      steps binding (some entry) result rest

end PolicyFoldV6

def fold (source : SourceInvocationBinding) (entries : List SourceJournalEntry) :
    Except SourceJournalError PolicyFoldV6 :=
  PolicyFoldV6.steps source.policy none (.start source.carry) entries

structure SourceJournal where
  binding : SourceInvocationBinding
  entries : List SourceJournalEntry
  lastCheckedMillis : I64

section Checked

variable (sha256 : Bytes → Bytes)

def SourceJournal.policyAttemptIntent (journal : SourceJournal) (turn attempt : U32)
    (requestDigest promptDigest : String) (requestBytes : Nat) (quote : SourcePolicyQuoteV6) :
    Except SourceJournalError PolicyAttemptIntentV6 := do
  let source := journal.binding
  let binding := source.policy
  insist (quote.policyBindingDigest = binding.policyBindingDigest ∧
    quote.requestDigest = requestDigest ∧ quote.providerId = binding.providerId ∧
    0 ≤ quote.estimatedCostMicros.val ∧
    (quote.contextTokens.checkedAdd quote.outputTokens).isSome) .binding
  let folded ← fold source journal.entries
  let totals := folded.totals
  let limits := binding.limits
  insist (totals.calls < limits.maxCalls ∧ quote.contextTokens ≤ limits.maxContextTokens ∧
    quote.outputTokens ≤ limits.maxOutputTokens ∧
    within (addTokens totals.exposureContextTokens totals.exposureOutputTokens quote.contextTokens
      quote.outputTokens) limits.maxAggregateTokens = true ∧
    within (totals.exposureCostMicros.checkedAdd quote.estimatedCostMicros)
      limits.maxCostMicros = true) .binding
  pure {
    turn := turn
    attempt := attempt
    attemptDigest :=
      source.attemptDigest sha256 turn attempt requestDigest promptDigest requestBytes
    requestDigest := requestDigest
    promptDigest := promptDigest
    requestBytes := requestBytes
    reservedUnits := source.reservationUnits
    responseLimit := source.responseLimit
    reservation := {
      ordinal := totals.nextOrdinal
      kind := .fresh
      providerId := binding.providerId
      reservedContextTokens := quote.contextTokens
      reservedOutputTokens := quote.outputTokens
      reservedCostMicros := quote.estimatedCostMicros } }

/-- The fold of an execution. -/
structure ExecutionFold where
  modelUnits : I64
  stageFuel : U64
  stages : U32
  effects : U32
  attempts : U32
  policy : Option PolicyFoldV6
  io : Option SourceIoTotals

/-- The checks that do not read the policy: the causal phases, the fuel and the replays of the
projected entries (`validate_inner`), and the limits of input and output (`io_v5::fold`). -/
structure CausalChecks where
  validateInner :
    SourceInvocationBinding → List SourceJournalEntry → Except SourceJournalError ExecutionFold
  ioFold :
    SourceInvocationBinding → List SourceJournalEntry →
      Except SourceJournalError (Option SourceIoTotals)

/-- The entry that the causal phases see. The kinds of the other profiles are refused. -/
def project (binding : SourceInvocationBinding) :
    SourceJournalEntry → Except SourceJournalError SourceJournalEntry
  | .policyAttemptIntent intent => do
      insist (intent.attemptDigest = binding.attemptDigest sha256 intent.turn intent.attempt
        intent.requestDigest intent.promptDigest intent.requestBytes) .binding
      pure (.attemptIntent intent.turn intent.attempt intent.attemptDigest intent.requestDigest
        intent.promptDigest intent.requestBytes intent.reservedUnits intent.responseLimit)
  | .policyAttemptUsage turn attempt _ _ => .ok (.attemptUsage turn attempt none)
  | .pricedAttemptIntent => .error .order
  | .pricedAttemptUsage => .error .order
  | .attemptIntent .. => .error .order
  | .attemptUsage .. => .error .order
  | entry => .ok entry

/-- The checks of a whole journal (`execution::validate`). -/
def validate (checks : CausalChecks) (binding : SourceInvocationBinding)
    (entries : List SourceJournalEntry) : Except SourceJournalError ExecutionFold := do
  let projected ← entries.mapM (project sha256 binding)
  let inner ← checks.validateInner binding projected
  let policy ← fold binding entries
  let io ← checks.ioFold binding entries
  pure { inner with policy := some policy, io := io }

structure RecoveredSourceCheckpoint where
  journal : SourceJournal
  generation : U64
  chain : String
  committedReservedUnits : I64
  committedStageFuel : U64
  policyTotals : Option SourcePolicyTotalsV6
  policyReservations : List PolicyAttemptReservationV6
  ioTotals : Option SourceIoTotals

def recoverSourceCheckpoint (checks : CausalChecks) (journal : SourceJournal) (generation : U64)
    (chain : String) : Except SourceJournalError RecoveredSourceCheckpoint := do
  let folded ← validate sha256 checks journal.binding journal.entries
  pure {
    journal := journal
    generation := generation
    chain := chain
    committedReservedUnits := folded.modelUnits
    committedStageFuel := folded.stageFuel
    policyTotals := folded.policy.map (·.totals)
    policyReservations := folded.policy.elim [] (·.reservations)
    ioTotals := folded.io }

namespace SourceMigrationCarry

def digest (carry : SourceMigrationCarry) : String :=
  let text (name value : String) := ",\"" ++ name ++ "\":" ++ quoteJson value
  let number (name : String) (value : Int) := ",\"" ++ name ++ "\":" ++ toString value
  LiveInvocation.digest sha256 "semaprax.live-invocation.source-migration-handoff.v3\x00" (asBytes
    ("\x7b\"schema\":\"semaprax.source-migration-handoff.v3\"" ++
      text "previous_schema" carry.previousSchema ++
      text "previous_invocation" carry.previousInvocation ++
      number "previous_generation" carry.previousGeneration.val ++
      text "previous_chain" carry.previousChain ++
      text "previous_program_root" carry.previousProgramRoot ++
      text "destination_program_root" carry.destinationProgramRoot ++
      text "old_state_id" carry.oldStateId ++ text "new_state_id" carry.newStateId ++
      text "migration_function" carry.migrationFunction ++
      text "migration_closure" carry.migrationClosure ++ text "task_digest" carry.taskDigest ++
      number "carried_model_units" carry.carriedModelUnits.val ++
      number "carried_stage_fuel" carry.carriedStageFuel.val ++
      number "carried_turns" carry.carriedTurns.val ++
      number "carried_stages" carry.carriedStages.val ++
      number "carried_effects" carry.carriedEffects.val ++
      number "carried_attempts" carry.carriedAttempts.val ++
      number "previous_ceiling" carry.previousCeiling.val ++
      number "previous_max_iterations" carry.previousMaxIterations.val ++
      number "previous_max_stages" carry.previousMaxStages.val ++
      number "previous_max_steps_per_stage" carry.previousMaxStepsPerStage ++
      number "previous_max_total_steps" carry.previousMaxTotalSteps ++
      number "previous_reservation_units" carry.previousReservationUnits.val ++
      text "previous_unit" carry.previousUnit ++
      text "previous_clock_domain" carry.previousClockDomain ++
      number "previous_last_checked_millis" carry.previousLastCheckedMillis.val ++
      number "previous_deadline_millis" carry.previousDeadlineMillis.val ++
      number "evaluation_steps" carry.evaluationSteps ++ "\x7d"))

end SourceMigrationCarry

def policyReservationsDigest (reservations : List PolicyAttemptReservationV6) : String :=
  LiveInvocation.digest sha256 "semaprax.live-invocation.source-policy-reservations.v6\x00" (asBytes
    ("[" ++ ",".intercalate (reservations.map fun value =>
      "[" ++ toString value.ordinal.val ++ ",\"fresh\"," ++ quoteJson value.providerId ++ ", " ++
        toString value.reservedContextTokens.val ++ ", " ++
        toString value.reservedOutputTokens.val ++ ", " ++
        toString value.reservedCostMicros.val ++ "]") ++ "]"))

def policyLimitsNarrow (destination previous : ModelBudgetLimits) : Bool :=
  decide (destination.maxCalls ≤ previous.maxCalls ∧ destination.maxRetries ≤ previous.maxRetries ∧
    destination.maxProviders ≤ previous.maxProviders ∧
    destination.maxContextTokens ≤ previous.maxContextTokens ∧
    destination.maxOutputTokens ≤ previous.maxOutputTokens ∧
    destination.maxAggregateTokens ≤ previous.maxAggregateTokens ∧
    destination.maxCostMicros ≤ previous.maxCostMicros ∧
    destination.maxLatencyMillis ≤ previous.maxLatencyMillis)

def SourcePolicyTotalsV6.admitted (totals : SourcePolicyTotalsV6) (limits : ModelBudgetLimits) :
    Bool :=
  decide (totals.calls ≤ limits.maxCalls) &&
    within (totals.exposureContextTokens.checkedAdd totals.exposureOutputTokens)
      limits.maxAggregateTokens &&
    decide (totals.exposureCostMicros ≤ limits.maxCostMicros)

namespace PolicyMigrationCarryV6

def digest (carry : PolicyMigrationCarryV6) : String :=
  let number (name : String) (value : Int) := ",\"" ++ name ++ "\":" ++ toString value
  LiveInvocation.digest sha256 "semaprax.live-invocation.source-policy-handoff.v6\x00" (asBytes
    ("\x7b\"schema\":\"semaprax.source-policy-migration-handoff.v6\",\"base_handoff\":" ++
      quoteJson carry.base.handoffDigest ++ ",\"provider\":" ++
      quoteJson carry.previousProviderId ++
      number "max_calls" carry.previousLimits.maxCalls.val ++
      number "max_context_tokens" carry.previousLimits.maxContextTokens.val ++
      number "max_output_tokens" carry.previousLimits.maxOutputTokens.val ++
      number "max_aggregate_tokens" carry.previousLimits.maxAggregateTokens.val ++
      number "max_cost_micros" carry.previousLimits.maxCostMicros.val ++
      number "calls" carry.totals.calls.val ++
      number "reserved_context_tokens" carry.totals.reservedContextTokens.val ++
      number "reserved_output_tokens" carry.totals.reservedOutputTokens.val ++
      number "reserved_cost_micros" carry.totals.reservedCostMicros.val ++
      number "observed_context_tokens" carry.totals.observedContextTokens.val ++
      number "observed_output_tokens" carry.totals.observedOutputTokens.val ++
      number "observed_cost_micros" carry.totals.observedCostMicros.val ++
      number "exposure_context_tokens" carry.totals.exposureContextTokens.val ++
      number "exposure_output_tokens" carry.totals.exposureOutputTokens.val ++
      number "exposure_cost_micros" carry.totals.exposureCostMicros.val ++
      number "next_ordinal" carry.totals.nextOrdinal.val ++
      ",\"reservations_digest\":" ++ quoteJson carry.reservationsDigest ++ "\x7d"))

def continues (base : SourceMigrationCarry) (predecessorBinding : SourceInvocationBinding)
    (predecessor : RecoveredSourceCheckpoint) : Bool :=
  let bound := predecessor.journal.binding
  decide (base.handoffDigest = base.digest sha256 ∧
    base.previousSchema = sourcePolicyJournalSchema ∧
    base.previousInvocation = predecessorBinding.invocation ∧
    bound.invocation = predecessorBinding.invocation ∧
    base.previousGeneration = predecessor.generation ∧ base.previousChain = predecessor.chain ∧
    base.carriedModelUnits = predecessor.committedReservedUnits ∧
    base.carriedStageFuel = predecessor.committedStageFuel ∧
    base.previousMaxIterations = bound.maxIterations ∧ base.previousMaxStages = bound.maxStages ∧
    base.previousMaxStepsPerStage = bound.maxStepsPerStage ∧
    base.previousMaxTotalSteps = bound.maxTotalSteps ∧ base.previousCeiling = bound.ceiling ∧
    base.previousReservationUnits = bound.reservationUnits ∧ base.previousUnit = bound.unit ∧
    base.previousClockDomain = bound.clockDomain ∧
    base.previousLastCheckedMillis = predecessor.journal.lastCheckedMillis ∧
    base.previousDeadlineMillis = bound.deadlineMillis)

def fromPredecessor (base : SourceMigrationCarry) (predecessorBinding : SourceInvocationBinding)
    (predecessor : RecoveredSourceCheckpoint) (destination : SourcePolicyBindingV6) :
    Except SourceJournalError PolicyMigrationCarryV6 := do
  let previous := predecessorBinding.policy
  let totals ← okOr .binding predecessor.policyTotals
  let reservations := predecessor.policyReservations
  insist (continues sha256 base predecessorBinding predecessor = true ∧
    destination.providerId = previous.providerId ∧
    policyLimitsNarrow destination.limits previous.limits = true ∧
    totals.admitted previous.limits = true) .binding
  match predecessor.journal.entries.getLast? with
  | some (.terminalSnapshot (some turn) _ _ _ _ _ _ _ stages effects attempts) => do
      let turns ← okOr .capacity (turn.checkedAdd 1)
      insist (base.carriedTurns = turns ∧ base.carriedStages = stages ∧
        base.carriedEffects = effects ∧ base.carriedAttempts = attempts) .binding
      insist (totals.admitted destination.limits = true) .capacity
      let result : PolicyMigrationCarryV6 := {
        base := base
        handoffDigest := ""
        previousProviderId := previous.providerId
        previousLimits := previous.limits
        totals := totals
        reservations := reservations
        reservationsDigest := policyReservationsDigest sha256 reservations }
      pure { result with handoffDigest := result.digest sha256 }
  | _ => .error .binding

end PolicyMigrationCarryV6

end Checked

end Semaprax.SourceJournals
