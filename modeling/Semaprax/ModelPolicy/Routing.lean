/-
**The providers of the attempts** (`model_budget_policy/ledger.rs`).

A fresh attempt goes to the primary provider, a failover to the next one of the order, and a retry to
the provider that is in use. The provider in use is written by a failover only.

* `Placed` — where every admitted attempt goes.
* `run_placed` — at every point of every run.
* `Routed` — what a caller may expect: a retry goes to the provider of the attempt before it.
* `run_routed_iff` — a run is routed exactly when no retry comes right after a fresh attempt that was
  admitted after a failover.
-/

import Semaprax.Library.Histories
import Semaprax.ModelPolicy.Runs

namespace Semaprax.ModelPolicy

open Library

def failovers (attempts : List AttemptReservation) : Nat := attempts.countP (·.kind = .failover)

def GoesTo (providers : ProviderPolicy) (index : Nat) (attempt : AttemptReservation) : Prop :=
  ∃ slot, providers.ordered[index]? = some slot ∧ slot.id = attempt.providerId

def GoesToAuthorized (providers : ProviderPolicy) (index : Nat) (attempt : AttemptReservation) :
    Prop :=
  ∃ slot, providers.ordered[index]? = some slot ∧ slot.id = attempt.providerId ∧
    slot.authorized = true

/-- Where an attempt goes, given those before it: a retry to the provider of the last failover. -/
structure Placed (providers : ProviderPolicy) (before : List AttemptReservation)
    (attempt : AttemptReservation) : Prop where
  fresh : attempt.kind = .fresh → GoesToAuthorized providers 0 attempt
  retry : attempt.kind = .retry → GoesTo providers (failovers before) attempt
  failover : attempt.kind = .failover →
    GoesToAuthorized providers (failovers before + 1) attempt

/-- The provider in use is the one of the last failover, and the next one follows it. -/
structure Placing (providers : ProviderPolicy) (ledger : ModelPolicyLedger)
    (admitted : List AttemptReservation) : Prop where
  policy : ledger.providers = providers
  next : ledger.nextProviderIndex.val = failovers admitted + 1
  current : ∃ slot, providers.ordered[failovers admitted]? = some slot ∧
    ledger.currentProviderId = some slot.id

section Placement

variable {providers : ProviderPolicy} {ledger : ModelPolicyLedger}
  {admitted : List AttemptReservation}

variable {request : AttemptRequest} {attempt reservation : AttemptReservation}

theorem requirePrimary_ok {slot : ProviderSlot} (first : ledger.providers.ordered[0]? = some slot)
    (passed : ledger.requirePrimaryProvider request = .ok ()) :
    slot.id = request.providerId ∧ slot.authorized = true := by
  have primary : ledger.providers.primary = some slot := by
    unfold ProviderPolicy.primary
    rw [List.head?_eq_getElem?, first]
  unfold ModelPolicyLedger.requirePrimaryProvider at passed
  rw [primary] at passed
  dsimp only at passed
  split_ifs at passed with other denied
  exact ⟨not_not.mp other, by simpa using denied⟩

theorem requireCurrent_ok {current : String} (used : ledger.currentProviderId = some current)
    (passed : ledger.requireCurrentProvider request = .ok ()) : current = request.providerId := by
  unfold ModelPolicyLedger.requireCurrentProvider at passed
  rw [used] at passed
  dsimp only at passed
  split_ifs at passed with other
  exact not_not.mp other

theorem admitFailover_ok {next : U64} {requested : String}
    (passed : providers.admitFailover next requested = .ok ()) :
    ∃ slot, providers.ordered[next.val]? = some slot ∧ slot.id = requested ∧
      slot.authorized = true := by
  unfold ProviderPolicy.admitFailover at passed
  cases found : providers.ordered[next.val]? with
  | none =>
    rw [found] at passed
    cases passed
  | some slot =>
    rw [found] at passed
    dsimp only at passed
    split_ifs at passed with other denied
    exact ⟨slot, rfl, not_not.mp other, by simpa using denied⟩

theorem Placing.placed (placing : Placing providers ledger admitted)
    (kind : attempt.kind = request.kind)
    (named : attempt.providerId = request.providerId)
    (passed : ledger.requireKind request = .ok ()) : Placed providers admitted attempt := by
  obtain ⟨used, here, current⟩ := placing.current
  unfold ModelPolicyLedger.requireKind at passed
  constructor
  case fresh =>
    intro same
    rw [kind.symm.trans same] at passed
    obtain ⟨_, -, passed⟩ := bind_eq_ok.mp passed
    obtain ⟨primary, first⟩ : ∃ primary, providers.ordered[0]? = some primary :=
      ⟨_, List.getElem?_eq_getElem ((Nat.zero_le _).trans_lt (List.getElem?_eq_some_iff.mp here).1)⟩
    obtain ⟨equal, authorized⟩ := requirePrimary_ok (placing.policy ▸ first) passed
    exact ⟨primary, first, equal.trans named.symm, authorized⟩
  case retry =>
    intro same
    rw [kind.symm.trans same] at passed
    obtain ⟨_, -, passed⟩ := bind_eq_ok.mp passed
    obtain ⟨_, reused, -⟩ := bind_eq_ok.mp passed
    exact ⟨used, here, (requireCurrent_ok current reused).trans named.symm⟩
  case failover =>
    intro same
    rw [kind.symm.trans same] at passed
    obtain ⟨_, -, passed⟩ := bind_eq_ok.mp passed
    obtain ⟨_, -, passed⟩ := bind_eq_ok.mp passed
    rw [placing.policy] at passed
    cases switched : providers.admitFailover ledger.nextProviderIndex request.providerId with
    | error refusal =>
      rw [switched] at passed
      cases passed
    | ok done =>
      obtain ⟨slot, next, equal, authorized⟩ := admitFailover_ok switched
      rw [placing.next] at next
      exact ⟨slot, next, equal.trans named.symm, authorized⟩

theorem restore_next : (ledger.restore reservation).nextProviderIndex =
      if reservation.kind = .failover then ledger.nextProviderIndex.saturatingAdd 1
      else ledger.nextProviderIndex := by
  unfold ModelPolicyLedger.restore
  cases reservation.kind <;> rfl

theorem restore_current : (ledger.restore reservation).currentProviderId =
      if reservation.kind = .failover then some reservation.providerId
      else ledger.currentProviderId := by
  unfold ModelPolicyLedger.restore
  cases reservation.kind <;> rfl

theorem restore_providers : (ledger.restore reservation).providers = ledger.providers := by
  unfold ModelPolicyLedger.restore
  cases reservation.kind <;> rfl

theorem failovers_append (attempt : AttemptReservation) : failovers (admitted ++ [attempt]) =
      failovers admitted + if attempt.kind = .failover then 1 else 0 := by
  unfold failovers
  rw [List.countP_append, List.countP_singleton]
  simp only [decide_eq_true_eq]

/-- The provider in use stays the one of the last failover. -/
theorem Placing.restore (placing : Placing providers ledger admitted)
    (placed : Placed providers admitted attempt)
    (fits : attempt.kind = .failover →
      ledger.providersCommitted.val < ledger.limits.limits.maxProviders.val)
    (counted : ledger.providersCommitted.val = failovers admitted) :
    Placing providers (ledger.restore attempt) (admitted ++ [attempt]) := by
  refine ⟨restore_providers.trans placing.policy, ?_, ?_⟩
  · rw [restore_next, failovers_append]
    by_cases switched : attempt.kind = .failover
    · have below := fits switched
      have upper := ledger.limits.limits.maxProviders.upper
      have room : ledger.nextProviderIndex.val < (Word.greatest : U64).val := by
        rw [placing.next]
        show _ < 2 ^ 64 - 1
        omega
      rw [if_pos switched, if_pos switched, Word.saturatingAdd_one room, placing.next]
    · rw [if_neg switched, if_neg switched, placing.next, Nat.add_zero]
  · rw [restore_current, failovers_append]
    by_cases switched : attempt.kind = .failover
    · obtain ⟨slot, here, equal, -⟩ := placed.failover switched
      rw [if_pos switched, if_pos switched]
      exact ⟨slot, here, congrArg some equal.symm⟩
    · rw [if_neg switched, if_neg switched]
      exact placing.current

theorem new_placing (limits : EffectiveModelBudget) (deadlineMillis : Option I64)
    (nonempty : providers.ordered ≠ []) :
    Placing providers (ModelPolicyLedger.new limits providers deadlineMillis) [] := by
  obtain ⟨primary, first⟩ : ∃ primary, providers.ordered.head? = some primary :=
    ⟨_, List.head?_eq_some_head nonempty⟩
  refine ⟨rfl, rfl, primary, ?_, ?_⟩
  · show providers.ordered[0]? = some primary
    rw [← List.head?_eq_getElem?, first]
  · show providers.ordered.head?.map ProviderSlot.id = some primary.id
    rw [first]
    rfl

/-- **Where every admitted attempt goes**, at every point of every run. -/
theorem run_placed (limits : EffectiveModelBudget) (deadlineMillis : Option I64)
    (nonempty : providers.ordered ≠ []) (calls : List Call) :
    Throughout (Placed providers)
      (Session.run (.new limits providers deadlineMillis) calls).admitted := by
  suffices kept : ∀ session,
      session = Session.run (.new limits providers deadlineMillis) calls →
        Accounted session.ledger session.admitted ∧
          Placing providers session.ledger session.admitted ∧
            Throughout (Placed providers) session.admitted from (kept _ rfl).2.2
  rintro _ rfl
  induction calls using List.reverseRecOn with
  | nil =>
    exact ⟨new_accounted limits providers deadlineMillis,
      new_placing limits deadlineMillis nonempty, throughout_nil⟩
  | append_singleton calls call ih =>
    rw [Session.run_append]
    obtain ⟨accounted, placing, all⟩ := ih
    generalize Session.run (.new limits providers deadlineMillis) calls = session
      at accounted placing all ⊢
    rcases Session.step_cases accounted call with ⟨admitted, usage, moved⟩ |
      ⟨request, attempt, passed, kind, named, fits, moved, admitted⟩
    · rw [admitted, moved]
      exact ⟨accounted.withUsage usage, ⟨placing.policy, placing.next, placing.current⟩, all⟩
    · rw [admitted, moved]
      have placed := placing.placed kind named passed
      exact ⟨accounted.reserved fits, placing.restore placed fits.failovers accounted.failovers,
        throughout_append.mpr ⟨all, placed⟩⟩

end Placement

/-- A fresh attempt goes to the authorized primary provider, a failover to the next one, and a retry
to the provider of the attempt right before it. -/
structure Routed (providers : ProviderPolicy) (before : List AttemptReservation)
    (attempt : AttemptReservation) : Prop where
  fresh : attempt.kind = .fresh → GoesToAuthorized providers 0 attempt
  retry : attempt.kind = .retry →
    ∀ last, before.getLast? = some last → attempt.providerId = last.providerId
  failover : attempt.kind = .failover →
    GoesToAuthorized providers (failovers before + 1) attempt

/-- No retry comes right after a fresh attempt that came after a failover. -/
def Steady (kinds : List AttemptKind) : Prop :=
  ∀ before after : List AttemptKind, kinds = before ++ .fresh :: .retry :: after →
    .failover ∉ before

section Routing

variable {providers : ProviderPolicy} {admitted : List AttemptReservation}

variable {attempt last : AttemptReservation}

theorem GoesTo.same {index other : Nat} (distinct : (providers.ordered.map ProviderSlot.id).Nodup)
    (here : GoesTo providers index attempt) (there : GoesTo providers other last) :
    attempt.providerId = last.providerId ↔ index = other := by
  obtain ⟨slot, at_, named⟩ := here
  obtain ⟨slot', at', named'⟩ := there
  have first : (providers.ordered.map ProviderSlot.id)[index]? = some attempt.providerId := by
    rw [List.getElem?_map, at_, Option.map_some, named]
  have second : (providers.ordered.map ProviderSlot.id)[other]? = some last.providerId := by
    rw [List.getElem?_map, at', Option.map_some, named']
  constructor
  · intro same
    rw [← same, ← first] at second
    exact (List.getElem?_inj (List.getElem?_eq_some_iff.mp first).1 distinct).mp second.symm
  · rintro rfl
    exact Option.some.inj (first.symm.trans second)

/-- A retry goes to the provider of the attempt right before it, unless that is a fresh one after a
failover. -/
theorem Placed.retry_iff {earlier : List AttemptReservation}
    (distinct : (providers.ordered.map ProviderSlot.id).Nodup)
    (before : Placed providers earlier last)
    (placed : Placed providers (earlier ++ [last]) attempt) (retried : attempt.kind = .retry) :
    attempt.providerId = last.providerId ↔ (last.kind = .fresh → failovers earlier = 0) := by
  have here := placed.retry retried
  rw [failovers_append] at here
  cases kind : last.kind with
  | fresh =>
    obtain ⟨primary, first, named, -⟩ := before.fresh kind
    rw [if_neg (by rw [kind]; decide), Nat.add_zero] at here
    rw [here.same distinct ⟨primary, first, named⟩]
    exact ⟨fun none _ => none, fun none => none rfl⟩
  | retry =>
    rw [if_neg (by rw [kind]; decide), Nat.add_zero] at here
    rw [here.same distinct (before.retry kind)]
    exact iff_of_true rfl fun fresh => by cases fresh
  | failover =>
    obtain ⟨slot, next, named, -⟩ := before.failover kind
    rw [if_pos kind] at here
    rw [here.same distinct ⟨slot, next, named⟩]
    exact iff_of_true rfl fun fresh => by cases fresh

theorem failovers_eq_zero {attempts : List AttemptReservation} :
    failovers attempts = 0 ↔ AttemptKind.failover ∉ attempts.map (·.kind) := by
  unfold failovers
  rw [List.countP_eq_zero]
  simp only [decide_eq_true_eq, List.mem_map, not_exists, not_and]

theorem routed_iff (distinct : (providers.ordered.map ProviderSlot.id).Nodup)
    (all : Throughout (Placed providers) admitted) :
    Throughout (Routed providers) admitted ↔ Steady (admitted.map (·.kind)) := by
  constructor
  · intro routed before after split
    obtain ⟨earlier, rest, rfl, rfl, mapped⟩ := List.map_eq_append_iff.mp split
    obtain ⟨last, rest, rfl, fresh, mapped⟩ := List.map_eq_cons_iff.mp mapped
    obtain ⟨attempt, later, rfl, retried, rfl⟩ := List.map_eq_cons_iff.mp mapped
    have moved : earlier ++ last :: attempt :: later = (earlier ++ [last]) ++ attempt :: later := by
      rw [List.append_assoc]
      rfl
    have same := (routed _ attempt later moved).retry retried last List.getLast?_concat
    have placed := all _ attempt later moved
    rw [← failovers_eq_zero]
    exact ((all earlier last (attempt :: later) rfl).retry_iff distinct placed retried).mp same fresh
  · intro steady before attempt after split
    have placed := all before attempt after split
    refine ⟨placed.fresh, fun retried last ends => ?_, placed.failover⟩
    obtain ⟨earlier, rfl⟩ := List.getLast?_eq_some_iff.mp ends
    have moved : admitted = earlier ++ last :: attempt :: after := by
      rw [split, List.append_assoc]
      rfl
    refine ((all earlier last _ moved).retry_iff distinct placed retried).mpr fun fresh => ?_
    rw [failovers_eq_zero]
    refine steady _ (after.map (·.kind)) ?_
    rw [moved, List.map_append, List.map_cons, List.map_cons, fresh, retried]

/-- **A run is routed** exactly when no retry comes right after a fresh attempt that was admitted after
a failover: such a retry goes to the provider of the failover. -/
theorem run_routed_iff (limits : EffectiveModelBudget) (deadlineMillis : Option I64)
    (nonempty : providers.ordered ≠ [])
    (distinct : (providers.ordered.map ProviderSlot.id).Nodup) (calls : List Call) :
    Throughout (Routed providers)
        (Session.run (.new limits providers deadlineMillis) calls).admitted ↔
      Steady ((Session.run (.new limits providers deadlineMillis) calls).admitted.map (·.kind)) :=
  routed_iff distinct (run_placed limits deadlineMillis nonempty calls)

end Routing

def twoProviders : ProviderPolicy := ⟨[⟨"primary", true⟩, ⟨"fallback", true⟩]⟩

/-- Limits that nothing reaches here. -/
def amplePolicy : EffectiveModelBudget where
  limits :=
    { maxCalls := Word.greatest
      maxRetries := Word.greatest
      maxProviders := Word.greatest
      maxContextTokens := Word.greatest
      maxOutputTokens := Word.greatest
      maxAggregateTokens := Word.greatest
      maxCostMicros := 0
      maxLatencyMillis := 0 }
  valid := ⟨le_refl 0, le_refl 0, by decide⟩

/-- Ask for an attempt, after an outcome that permits to repeat it. -/
def ask (kind : AttemptKind) (providerId : String) : Call :=
  .reserve false 0
    { kind := kind
      providerId := providerId
      contextTokens := 0
      requestedOutputTokens := 0
      estimatedCostMicros := 0
      priorClassification := if kind = .fresh then none else some .notDispatched }

/-- A fresh attempt and a failover, then a fresh attempt, and a retry of that. -/
def staleRetry : List Call :=
  [ask .fresh "primary", ask .failover "fallback", ask .fresh "primary", ask .retry "primary",
    ask .retry "fallback"]

/-- A retry after a fresh attempt is refused at the provider that was just tried, and admitted at the
provider of an earlier failover. -/
theorem staleRetry_misplaced : ¬Throughout (Routed twoProviders)
    (Session.run (.new amplePolicy twoProviders none) staleRetry).admitted := by
  have admitted : (Session.run (.new amplePolicy twoProviders none) staleRetry).admitted =
      [⟨0, .fresh, "primary", 0, 0, 0⟩, ⟨1, .failover, "fallback", 0, 0, 0⟩,
        ⟨2, .fresh, "primary", 0, 0, 0⟩] ++ [⟨3, .retry, "fallback", 0, 0, 0⟩] := by
    decide +kernel
  intro routed
  have same := (routed _ _ [] admitted).retry rfl _ rfl
  exact absurd same (by decide)

/-- With one fresh attempt, retries and failovers are routed. -/
theorem run_routed_iff_once : Throughout (Routed twoProviders)
    (Session.run (.new amplePolicy twoProviders none)
      [ask .fresh "primary", ask .retry "primary", ask .failover "fallback",
        ask .retry "fallback"]).admitted := by
  refine (run_routed_iff amplePolicy none (by decide) (by decide) _).mpr ?_
  have kinds : ((Session.run (.new amplePolicy twoProviders none)
      [ask .fresh "primary", ask .retry "primary", ask .failover "fallback",
        ask .retry "fallback"]).admitted.map (·.kind)) =
      [.fresh, .retry, .failover, .retry] := by
    decide +kernel
  rw [kinds]
  intro before after split
  cases before with
  | nil => exact List.not_mem_nil
  | cons first before =>
    have once : AttemptKind.fresh ∈ [AttemptKind.retry, .failover, .retry] := by
      rw [(List.cons.inj split).2]
      exact List.mem_append_right _ List.mem_cons_self
    exact absurd once (by decide)

end Semaprax.ModelPolicy
