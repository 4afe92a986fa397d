/-
**The account of a model policy ledger** (`model_budget_policy/ledger.rs`).

What one admission commits, and what a ledger has committed once it has admitted some reservations.

* `reserveAttempt_spec` — an admission fits into every limit and commits what a resumed ledger would
  count; anything else leaves the ledger alone, and nothing panics.
* `Accounted` — the counters are the counts and the sums of the reservations, within their limits.
* `Accounted.reserved` — a reservation that fits is accounted for.
-/

import Semaprax.ModelPolicy.Ledger

namespace Semaprax.ModelPolicy

open Library

/-- What was committed so far is within the limits of tokens and of cost. -/
structure ModelPolicyLedger.Within (ledger : ModelPolicyLedger) : Prop where
  tokens : ledger.aggregateTokensCommitted.val ≤ ledger.limits.limits.maxAggregateTokens.val
  costNonneg : 0 ≤ ledger.costCommittedMicros.val
  cost : ledger.costCommittedMicros.val ≤ ledger.limits.limits.maxCostMicros.val

def AttemptReservation.tokens (reservation : AttemptReservation) : Nat :=
  reservation.reservedContextTokens.val + reservation.reservedOutputTokens.val

/-- A reservation that fits into what is left of every limit. -/
structure Fits (ledger : ModelPolicyLedger) (reservation : AttemptReservation) : Prop where
  ordinal : reservation.ordinal = ledger.nextOrdinal
  calls : ledger.callsCommitted.val < ledger.limits.limits.maxCalls.val
  retries : reservation.kind = .retry →
    ledger.retriesCommitted.val < ledger.limits.limits.maxRetries.val
  failovers : reservation.kind = .failover →
    ledger.providersCommitted.val < ledger.limits.limits.maxProviders.val
  tokens : ledger.aggregateTokensCommitted.val + reservation.tokens ≤
    ledger.limits.limits.maxAggregateTokens.val
  costNonneg : 0 ≤ reservation.reservedCostMicros.val
  cost : ledger.costCommittedMicros.val + reservation.reservedCostMicros.val ≤
    ledger.limits.limits.maxCostMicros.val

section Admission

variable {ledger : ModelPolicyLedger}

variable {request : AttemptRequest}

@[simp]
theorem wp_check (result : Except AttemptRefusal Unit) {ends : Unit → ModelPolicyLedger → Prop}
    {stops : Fault → ModelPolicyLedger → Prop} : (check result).wp ends stops ledger ↔
      (∀ refusal, result = .error refusal → stops (.refused refusal) ledger) ∧
        (result = .ok () → ends () ledger) := by
  cases result <;> simp [check]

theorem refuseIf_eq_ok {condition : Prop} [Decidable condition] {refusal : AttemptRefusal} :
    ModelPolicyLedger.refuseIf condition refusal = .ok () ↔ ¬condition := by
  unfold ModelPolicyLedger.refuseIf
  split_ifs with holds <;> simp [holds]

theorem requireKind_ok (admitted : ledger.requireKind request = .ok ()) : (request.kind = .retry →
      ledger.retriesCommitted.val < ledger.limits.limits.maxRetries.val) ∧
    (request.kind = .failover →
      ledger.providersCommitted.val < ledger.limits.limits.maxProviders.val) := by
  unfold ModelPolicyLedger.requireKind at admitted
  refine ⟨fun kind => ?_, fun kind => ?_⟩
  · rw [kind] at admitted
    obtain ⟨_, -, admitted⟩ := bind_eq_ok.mp admitted
    obtain ⟨_, -, admitted⟩ := bind_eq_ok.mp admitted
    exact not_le.mp (refuseIf_eq_ok.mp admitted)
  · rw [kind] at admitted
    obtain ⟨_, -, admitted⟩ := bind_eq_ok.mp admitted
    obtain ⟨_, below, -⟩ := bind_eq_ok.mp admitted
    exact not_le.mp (refuseIf_eq_ok.mp below)

@[simp]
theorem countKind_tokens (kind : AttemptKind) (providerId : String) :
    (ledger.countKind kind providerId).aggregateTokensCommitted =
      ledger.aggregateTokensCommitted := by
  cases kind <;> rfl

@[simp]
theorem countKind_cost (kind : AttemptKind) (providerId : String) :
    (ledger.countKind kind providerId).costCommittedMicros = ledger.costCommittedMicros := by
  cases kind <;> rfl

@[simp]
theorem countKind_nextOrdinal (kind : AttemptKind) (providerId : String) :
    (ledger.countKind kind providerId).nextOrdinal = ledger.nextOrdinal := by
  cases kind <;> rfl

def granted (ledger : ModelPolicyLedger) (request : AttemptRequest) : AttemptReservation where
  ordinal := ledger.nextOrdinal
  kind := request.kind
  providerId := request.providerId
  reservedContextTokens := request.contextTokens
  reservedOutputTokens := request.requestedOutputTokens
  reservedCostMicros := request.estimatedCostMicros

theorem commit_spec {requestedTokens : U64}
    (fits : Fits ledger (granted ledger request)) (nonneg : 0 ≤ ledger.costCommittedMicros.val)
    (sum : request.contextTokens.val + request.requestedOutputTokens.val = requestedTokens.val) :
    (ModelPolicyLedger.commit request requestedTokens).wp
      (fun reservation after => reservation = granted ledger request ∧
        after = ledger.restore reservation)
      (fun _ _ => False) ledger := by
  unfold ModelPolicyLedger.commit
  simp only [wp_bind, wp_get, wp_set, wp_ofOption, wp_pure, countKind_tokens, countKind_cost]
  have tokensFit := fits.tokens
  have costFits := fits.cost
  have costNonneg := fits.costNonneg
  have tokensUpper := ledger.limits.limits.maxAggregateTokens.upper
  have costUpper := ledger.limits.limits.maxCostMicros.upper
  simp only [AttemptReservation.tokens, granted] at tokensFit costFits costNonneg
  refine ⟨fun none => ?_, fun tokens added => ⟨fun none => ?_, fun cost charged => ?_⟩⟩
  · have past := Word.checkedAdd_eq_none.mp none
    omega
  · have outside := I64.checked_eq_none.mp none
    have lower : minI64 ≤ 0 := by decide
    omega
  · refine ⟨rfl, ?_⟩
    have tokensSame : tokens = (ledger.aggregateTokensCommitted.saturatingAdd
        request.contextTokens).saturatingAdd request.requestedOutputTokens := by
      refine Word.ext_val ?_
      rw [← Word.checkedAdd_eq_some.mp added, Word.saturatingAdd_val, Word.saturatingAdd_val]
      omega
    have costSame : cost = ledger.costCommittedMicros.saturatingAdd request.estimatedCostMicros := by
      refine I64.ext_val ?_
      have lower : minI64 ≤ 0 := by decide
      rw [← I64.checked_eq_some.mp charged, I64.saturatingAdd_val]
      omega
    have later := ledger.nextOrdinal.le_saturatingAdd 1
    unfold ModelPolicyLedger.restore
    rw [tokensSame, costSame]
    cases request.kind <;> simp [ModelPolicyLedger.countKind, later]

theorem remainingCost_eq (within : ledger.Within) :
    ∃ remaining, ledger.remainingCostMicros = some remaining ∧
      remaining.val = ledger.limits.limits.maxCostMicros.val - ledger.costCommittedMicros.val := by
  have upper := ledger.limits.limits.maxCostMicros.upper
  have nonneg := within.costNonneg
  have cost := within.cost
  cases left : ledger.limits.limits.maxCostMicros.checkedSub ledger.costCommittedMicros with
  | none =>
    have outside := I64.checked_eq_none.mp left
    have lower : minI64 ≤ 0 := by decide
    omega
  | some difference =>
    refine ⟨difference.atLeastZero, by unfold ModelPolicyLedger.remainingCostMicros; rw [left]; rfl,
      ?_⟩
    rw [I64.atLeastZero_val, ← I64.checked_eq_some.mp left]
    exact max_eq_right (sub_nonneg.mpr cost)

/-- An admission fits into every limit and commits what a resumed ledger counts; a refusal changes
nothing, and nothing panics. -/
theorem reserveAttempt_spec (within : ledger.Within) (cancelled : Bool) (nowMillis : I64)
    (request : AttemptRequest) :
    (ModelPolicyLedger.reserveAttempt cancelled nowMillis request).wp
      (fun reservation after => Fits ledger reservation ∧ after = ledger.restore reservation)
      (fun fault after => after = ledger ∧ fault ≠ .panicked) ledger := by
  obtain ⟨remaining, left, remains⟩ := remainingCost_eq within
  unfold ModelPolicyLedger.reserveAttempt
  simp only [wp_bind, wp_stopIf, wp_get, wp_ofOption, wp_check, left,
    true_and, reduceCtorEq, ne_eq, not_false_eq_true, implies_true, false_implies,
    Option.some.injEq, forall_eq']
  intro _ _ calls kind _ _ requestedTokens sum tokens nonneg cost
  obtain ⟨retries, failovers⟩ := requireKind_ok kind
  have added := Word.checkedAdd_eq_some.mp sum
  have room : requestedTokens.val ≤ ledger.limits.limits.maxAggregateTokens.val -
      ledger.aggregateTokensCommitted.val := not_lt.mp tokens
  have below := within.tokens
  have affordable : request.estimatedCostMicros.val ≤ remaining.val := not_lt.mp cost
  have fits : Fits ledger (granted ledger request) := {
    ordinal := rfl
    calls := not_le.mp calls
    retries := retries
    failovers := failovers
    tokens := by
      show _ + (request.contextTokens.val + request.requestedOutputTokens.val) ≤ _
      omega
    costNonneg := not_lt.mp nonneg
    cost := by
      show _ + request.estimatedCostMicros.val ≤ _
      omega }
  refine wp_mono (commit_spec fits within.costNonneg added) (fun reservation after same => ?_)
    fun _ _ impossible => impossible.elim
  obtain ⟨rfl, rfl⟩ := same
  exact ⟨fits, rfl⟩

theorem commit_named (request : AttemptRequest) (requestedTokens : U64) :
    (ModelPolicyLedger.commit request requestedTokens).wp
      (fun reservation _ => reservation.kind = request.kind ∧
        reservation.providerId = request.providerId) (fun _ _ => True) ledger := by
  unfold ModelPolicyLedger.commit
  simp only [wp_bind, wp_get, wp_set, wp_ofOption, wp_pure, implies_true, and_self]

/-- What is admitted has passed the checks of its kind. -/
theorem reserveAttempt_named (cancelled : Bool) (nowMillis : I64) (request : AttemptRequest) :
    (ModelPolicyLedger.reserveAttempt cancelled nowMillis request).wp
      (fun reservation _ => ledger.requireKind request = .ok () ∧
        reservation.kind = request.kind ∧ reservation.providerId = request.providerId)
      (fun _ _ => True) ledger := by
  unfold ModelPolicyLedger.reserveAttempt
  simp only [wp_bind, wp_stopIf, wp_get, wp_ofOption, wp_check, implies_true, true_and]
  intro _ _ _ passed _ _ requestedTokens _ _ _ _ _ _
  refine wp_mono (commit_named request requestedTokens) (fun reservation _ named => ?_)
    fun _ _ => id
  exact ⟨passed, named⟩

end Admission

/-- The counters are the counts and the sums of what was admitted, within the limits. -/
structure Accounted (ledger : ModelPolicyLedger) (admitted : List AttemptReservation) : Prop where
  calls : ledger.callsCommitted.val = admitted.length
  callsWithin : admitted.length ≤ ledger.limits.limits.maxCalls.val
  retries : ledger.retriesCommitted.val = admitted.countP (·.kind = .retry)
  retriesWithin : admitted.countP (·.kind = .retry) ≤ ledger.limits.limits.maxRetries.val
  failovers : ledger.providersCommitted.val = admitted.countP (·.kind = .failover)
  failoversWithin : admitted.countP (·.kind = .failover) ≤ ledger.limits.limits.maxProviders.val
  tokens : ledger.aggregateTokensCommitted.val = (admitted.map AttemptReservation.tokens).sum
  tokensWithin : (admitted.map AttemptReservation.tokens).sum ≤
    ledger.limits.limits.maxAggregateTokens.val
  costs : ∀ reservation ∈ admitted, 0 ≤ reservation.reservedCostMicros.val
  cost : ledger.costCommittedMicros.val = (admitted.map (·.reservedCostMicros.val)).sum
  costWithin : (admitted.map (·.reservedCostMicros.val)).sum ≤
    ledger.limits.limits.maxCostMicros.val
  nextOrdinal : ledger.nextOrdinal.val = admitted.length
  ordinals : admitted.map (·.ordinal.val) = List.range admitted.length

section Account

variable {ledger : ModelPolicyLedger} {admitted : List AttemptReservation}
  {reservation : AttemptReservation}

theorem Accounted.within (accounted : Accounted ledger admitted) : ledger.Within where
  tokens := accounted.tokens ▸ accounted.tokensWithin
  cost := accounted.cost ▸ accounted.costWithin
  costNonneg := by
    rw [accounted.cost]
    refine List.sum_nonneg fun value member => ?_
    obtain ⟨reservation, listed, rfl⟩ := List.mem_map.mp member
    exact accounted.costs reservation listed

@[simp]
theorem restore_limits : (ledger.restore reservation).limits = ledger.limits := by
  unfold ModelPolicyLedger.restore
  cases reservation.kind <;> rfl

theorem restore_calls :
    (ledger.restore reservation).callsCommitted = ledger.callsCommitted.saturatingAdd 1 := by
  unfold ModelPolicyLedger.restore
  cases reservation.kind <;> rfl

theorem restore_retries : (ledger.restore reservation).retriesCommitted =
    if reservation.kind = .retry then ledger.retriesCommitted.saturatingAdd 1
    else ledger.retriesCommitted := by
  unfold ModelPolicyLedger.restore
  cases reservation.kind <;> rfl

theorem restore_failovers : (ledger.restore reservation).providersCommitted =
    if reservation.kind = .failover then ledger.providersCommitted.saturatingAdd 1
    else ledger.providersCommitted := by
  unfold ModelPolicyLedger.restore
  cases reservation.kind <;> rfl

theorem restore_tokens (fits : ledger.aggregateTokensCommitted.val + reservation.tokens ≤
    ledger.limits.limits.maxAggregateTokens.val) :
    (ledger.restore reservation).aggregateTokensCommitted.val =
      ledger.aggregateTokensCommitted.val + reservation.tokens := by
  have upper := ledger.limits.limits.maxAggregateTokens.upper
  unfold AttemptReservation.tokens at fits ⊢
  unfold ModelPolicyLedger.restore
  simp only [countKind_tokens, Word.saturatingAdd_val]
  omega

theorem restore_cost (lower : 0 ≤ ledger.costCommittedMicros.val)
    (nonneg : 0 ≤ reservation.reservedCostMicros.val)
    (fits : ledger.costCommittedMicros.val + reservation.reservedCostMicros.val ≤
      ledger.limits.limits.maxCostMicros.val) :
    (ledger.restore reservation).costCommittedMicros.val =
      ledger.costCommittedMicros.val + reservation.reservedCostMicros.val := by
  have upper := ledger.limits.limits.maxCostMicros.upper
  have least : minI64 ≤ 0 := by decide
  unfold ModelPolicyLedger.restore
  simp only [countKind_cost, I64.saturatingAdd_val]
  omega

theorem restore_nextOrdinal (same : reservation.ordinal = ledger.nextOrdinal) :
    (ledger.restore reservation).nextOrdinal = ledger.nextOrdinal.saturatingAdd 1 := by
  unfold ModelPolicyLedger.restore
  simp only [countKind_nextOrdinal, same]
  exact if_pos (ledger.nextOrdinal.le_saturatingAdd 1)

theorem count_kind {count limit : U32} {kind : AttemptKind}
    (counted : count.val = admitted.countP (·.kind = kind))
    (within : admitted.countP (·.kind = kind) ≤ limit.val)
    (room : reservation.kind = kind → count.val < limit.val) :
    (if reservation.kind = kind then count.saturatingAdd 1 else count).val =
        (admitted ++ [reservation]).countP (·.kind = kind) ∧
      (admitted ++ [reservation]).countP (·.kind = kind) ≤ limit.val := by
  rw [List.countP_append, List.countP_singleton]
  by_cases same : reservation.kind = kind
  · have below := room same
    simp only [same, if_true, decide_true]
    rw [Word.saturatingAdd_one below]
    omega
  · simp only [same, if_false, decide_false, Bool.false_eq_true, add_zero]
    exact ⟨counted, within⟩

theorem Accounted.reserved (accounted : Accounted ledger admitted) (fits : Fits ledger reservation) :
    Accounted (ledger.restore reservation) (admitted ++ [reservation]) := by
  have upper := ledger.limits.limits.maxCalls.upper
  have calls := fits.calls
  have counted := accounted.calls
  have tokens := accounted.tokens
  have tokensFit := fits.tokens
  have cost := accounted.cost
  have costFits := fits.cost
  have next := accounted.nextOrdinal
  have retries := count_kind accounted.retries accounted.retriesWithin fits.retries
  have failovers := count_kind accounted.failovers accounted.failoversWithin fits.failovers
  have numbered : (ledger.restore reservation).nextOrdinal.val = admitted.length + 1 := by
    have below : ledger.nextOrdinal.val < (Word.greatest : U64).val := by
      show _ < 2 ^ 64 - 1
      omega
    rw [restore_nextOrdinal fits.ordinal, Word.saturatingAdd_one below, next]
  constructor
  case calls =>
    rw [restore_calls, Word.saturatingAdd_one calls, counted, List.length_append]
    rfl
  case callsWithin =>
    rw [restore_limits, List.length_append, List.length_singleton]
    omega
  case retries => rw [restore_retries]; exact retries.1
  case retriesWithin => rw [restore_limits]; exact retries.2
  case failovers => rw [restore_failovers]; exact failovers.1
  case failoversWithin => rw [restore_limits]; exact failovers.2
  case tokens =>
    rw [restore_tokens tokensFit, List.map_append, List.sum_append, List.map_singleton,
      List.sum_singleton, tokens]
  case tokensWithin =>
    rw [restore_limits, List.map_append, List.sum_append, List.map_singleton, List.sum_singleton]
    omega
  case costs =>
    intro other member
    rcases List.mem_append.mp member with old | new
    · exact accounted.costs other old
    · rw [List.mem_singleton.mp new]
      exact fits.costNonneg
  case cost =>
    rw [restore_cost accounted.within.costNonneg fits.costNonneg costFits, List.map_append,
      List.sum_append, List.map_singleton, List.sum_singleton, cost]
  case costWithin =>
    rw [restore_limits, List.map_append, List.sum_append, List.map_singleton, List.sum_singleton]
    omega
  case nextOrdinal =>
    rw [numbered, List.length_append, List.length_singleton]
  case ordinals =>
    rw [List.map_append, List.map_singleton, accounted.ordinals, List.length_append,
      List.length_singleton, List.range_succ, fits.ordinal, next]

theorem new_accounted (limits : EffectiveModelBudget) (providers : ProviderPolicy)
    (deadlineMillis : Option I64) :
    Accounted (ModelPolicyLedger.new limits providers deadlineMillis) [] where
  calls := rfl
  callsWithin := Nat.zero_le _
  retries := rfl
  retriesWithin := Nat.zero_le _
  failovers := rfl
  failoversWithin := Nat.zero_le _
  tokens := rfl
  tokensWithin := Nat.zero_le _
  costs := fun _ member => nomatch member
  cost := rfl
  costWithin := limits.valid.cost
  nextOrdinal := rfl
  ordinals := rfl

end Account

end Semaprax.ModelPolicy
