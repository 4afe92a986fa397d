/-
**The cumulative budget ledger** (`live_invocation/budget.rs`).

One ceiling and an absolute deadline. `reserve` commits what it grants at once and nothing is ever
given back; after a crash the ledger is built again from the request intents of the journal.

* `CumulativeBudgetLedger` with its constructors, `remaining`, `checkDeadline` and `reserve`.
* `Charged` — the ledger has committed what was carried into it and the reservations of the journal
  in hand, and what it granted is within its ceiling.
* `ledgerHandlers_keep` — handlers whose budget hook is the ledger keep `Charged`.
* `resumeMigrated_charged` — the ledger of a restart is charged with the journal it restarts from.
-/

import Semaprax.LiveInvocation.Recovery

namespace Semaprax.LiveInvocation

open Library

/-- The cumulative ledger: a ceiling and, optionally, a deadline. The last two fields belong to source
accounting. -/
structure CumulativeBudgetLedger where
  ceiling : I64
  committed : I64
  deadlineMillis : Option I64
  usage : List InvocationUsage
  sourceClockFloor : Option I64
  sourceReservationUnits : Option I64

namespace CumulativeBudgetLedger

/-- A fresh ledger without a deadline. -/
def new (ceiling : I64) : CumulativeBudgetLedger := ⟨ceiling, 0, none, [], none, none⟩

def withDeadline (ceiling deadlineMillis : I64) : CumulativeBudgetLedger :=
  ⟨ceiling, 0, some deadlineMillis, [], none, none⟩

def resume (ceiling : I64) (deadlineMillis : Option I64) (journal : Journal) :
    CumulativeBudgetLedger :=
  ⟨ceiling, committedFromJournal journal, deadlineMillis, [], none, none⟩

def migrated (ceiling : I64) (deadlineMillis : Option I64) (carriedCommitted : I64) :
    CumulativeBudgetLedger :=
  ⟨ceiling, carriedCommitted.atLeastZero, deadlineMillis, [], none, none⟩

def resumeMigrated (ceiling : I64) (deadlineMillis : Option I64) (carriedCommitted : I64)
    (journal : Journal) : CumulativeBudgetLedger :=
  ⟨ceiling, carriedCommitted.atLeastZero.saturatingAdd (committedFromJournal journal),
    deadlineMillis, [], none, none⟩

/-- What is left under the ceiling. -/
def remaining (ledger : CumulativeBudgetLedger) : I64 :=
  (ledger.ceiling.saturatingSub ledger.committed).atLeastZero

variable {E : Type}

def checkDeadline (clock : Call E I64) :
    Call (CumulativeBudgetLedger × E) (Except String Unit) := fun env =>
  match env.1.deadlineMillis with
  | none => (some (.ok ()), env)
  | some deadline =>
    match clock env.2 with
    | (none, after) => (none, (env.1, after))
    | (some now, after) =>
      match env.1.sourceClockFloor with
      | none =>
        if now ≥ deadline then (some (.error "deadline_exceeded"), (env.1, after))
        else (some (.ok ()), (env.1, after))
      | some floor =>
        if now < floor then (some (.error "clock_regressed"), (env.1, after))
        else
          let ledger := { env.1 with sourceClockFloor := some now }
          if now ≥ deadline then (some (.error "deadline_exceeded"), (ledger, after))
          else (some (.ok ()), (ledger, after))

/-- What a request is granted, after the deadline has been checked. -/
def quote (ledger : CumulativeBudgetLedger) (request : ModelInvocationRequest) :
    Except String I64 :=
  let requested := request.effectiveBudget
  if requested < 0 then .error "negative_request"
  else if ledger.sourceReservationUnits.any (· ≠ requested) then .error "reservation_mismatch"
  else if ledger.remaining < requested then .error "budget_exhausted"
  else .ok requested

/-- Check the deadline and quote a request (`quoted_reservation`). -/
def quotedReservation (clock : Call E I64) (request : ModelInvocationRequest) :
    Call (CumulativeBudgetLedger × E) (Except String I64) := fun env =>
  match checkDeadline clock env with
  | (none, after) => (none, after)
  | (some (.error refusal), after) => (some (.error refusal), after)
  | (some (.ok ()), after) => (some (after.1.quote request), after)

/-- Reserve for a request: what is granted is committed at once. -/
def reserve (clock : Call E I64) (request : ModelInvocationRequest) :
    Call (CumulativeBudgetLedger × E) (Except String I64) := fun env =>
  match quotedReservation clock request env with
  | (some (.ok amount), after) =>
    let ledger := { after.1 with
      committed := after.1.committed.saturatingAdd amount }
    (some (.ok amount), (ledger, after.2))
  | refused => refused

/-- Retain a usage record. It changes nothing that is committed. -/
def record (usage : InvocationUsage) : Call (CumulativeBudgetLedger × E) Unit := fun env =>
  let ledger := { env.1 with
    usage := env.1.usage ++ [usage] }
  (some (), (ledger, env.2))

end CumulativeBudgetLedger

section Handlers

variable {E A : Type}

def beside (call : E → A × E) : CumulativeBudgetLedger × E → A × CumulativeBudgetLedger × E :=
  fun env => ((call env.2).1, env.1, (call env.2).2)

def ledgerHandlers (handlers : LiveInvocationHandlers E) (clock : Call E I64) :
    LiveInvocationHandlers (CumulativeBudgetLedger × E) where
  schemaDigest := handlers.schemaDigest
  invoke := fun request => beside (handlers.invoke request)
  decode := fun turn response => beside (handlers.decode turn response)
  authorize := fun context => beside (handlers.authorize context)
  checkDeadline := CumulativeBudgetLedger.checkDeadline clock
  checkPreDispatch := CumulativeBudgetLedger.checkDeadline clock
  reserve := CumulativeBudgetLedger.reserve clock
  record := CumulativeBudgetLedger.record
  observe := fun turn => beside (handlers.observe turn)
  reduce := fun turn proposal => beside (handlers.reduce turn proposal)
  effect := handlers.effect.map fun effect turn grant => beside (effect turn grant)
  sink := handlers.sink.map fun sink journal => beside (sink journal)
  isCancelled := beside handlers.isCancelled

end Handlers

/-- The reservations are of nonnegative amounts, and together with what was carried they are within
the limit, unless they add nothing. -/
structure Within (carried : I64) (limit : Int) (amounts : List I64) : Prop where
  nonneg : ∀ amount ∈ amounts, 0 ≤ amount.val
  limited : carried.atLeastZero.val + I64.total amounts ≤ max carried.atLeastZero.val limit

/-- The ledger has committed what was carried and what was reserved. -/
structure Charged (carried : I64) (limit : Int) (ledger : CumulativeBudgetLedger)
    (amounts : List I64) : Prop extends Within carried limit amounts where
  ceiling : ledger.ceiling.val ≤ limit
  committed : ledger.committed.val = carried.atLeastZero.val + I64.total amounts

section Ledger

variable {E : Type} {carried : I64} {limit : Int} {amounts : List I64}
  {ledger other : CumulativeBudgetLedger}

variable {amount : I64}

theorem Charged.same (charged : Charged carried limit ledger amounts)
    (ceiling : other.ceiling = ledger.ceiling) (committed : other.committed = ledger.committed) :
    Charged carried limit other amounts where
  nonneg := charged.nonneg
  limited := charged.limited
  ceiling := ceiling ▸ charged.ceiling
  committed := committed ▸ charged.committed

theorem Charged.refused (charged : Charged carried limit ledger amounts) :
    Charged carried limit ledger (amounts ++ [0]) where
  nonneg := fun amount member => by
    rcases List.mem_append.mp member with old | new
    · exact charged.nonneg amount old
    · rw [List.mem_singleton.mp new]
      exact le_refl 0
  limited := by
    rw [I64.total_append, I64.total_singleton, I64.zero_val, add_zero]
    exact charged.limited
  ceiling := charged.ceiling
  committed := by
    rw [I64.total_append, I64.total_singleton, I64.zero_val, add_zero]
    exact charged.committed

theorem Charged.reserved (charged : Charged carried limit ledger amounts)
    (nonneg : 0 ≤ amount.val) (fits : amount.val ≤ ledger.remaining.val)
    (ceiling : other.ceiling = ledger.ceiling)
    (committed : other.committed = ledger.committed.saturatingAdd amount) :
    Charged carried limit other (amounts ++ [amount]) := by
  have before := I64.total_nonneg charged.nonneg
  have carriedNonneg := carried.atLeastZero_nonneg
  have room : ledger.committed.val + amount.val ≤ max ledger.committed.val ledger.ceiling.val := by
    unfold CumulativeBudgetLedger.remaining at fits
    rw [I64.atLeastZero_val, I64.saturatingSub_val] at fits
    have bounds : minI64 ≤ 0 := by decide
    omega
  have known := charged.committed
  have below := charged.ceiling
  have limited := charged.limited
  refine ⟨⟨fun other member => ?_, ?_⟩, ceiling ▸ below, ?_⟩
  · rcases List.mem_append.mp member with old | new
    · exact charged.nonneg other old
    · rwa [List.mem_singleton.mp new]
  · rw [I64.total_append, I64.total_singleton]
    omega
  · rw [committed, I64.saturatingAdd_val, I64.total_append, I64.total_singleton]
    have upper := ledger.committed.upper
    have ceilingUpper := ledger.ceiling.upper
    have bounds : minI64 ≤ 0 := by decide
    omega

theorem checkDeadline_same (clock : Call E I64) (env : CumulativeBudgetLedger × E) :
    (CumulativeBudgetLedger.checkDeadline clock env).2.1.ceiling = env.1.ceiling ∧
      (CumulativeBudgetLedger.checkDeadline clock env).2.1.committed = env.1.committed ∧
      (CumulativeBudgetLedger.checkDeadline clock env).2.1.sourceReservationUnits =
        env.1.sourceReservationUnits := by
  unfold CumulativeBudgetLedger.checkDeadline
  cases env.1.deadlineMillis with
  | none => exact ⟨rfl, rfl, rfl⟩
  | some deadline =>
    dsimp only
    cases clock env.2 with
    | mk now after =>
      cases now with
      | none => exact ⟨rfl, rfl, rfl⟩
      | some now =>
        cases env.1.sourceClockFloor <;> dsimp only <;> split_ifs <;> exact ⟨rfl, rfl, rfl⟩

theorem quote_ok {request : ModelInvocationRequest} (granted : ledger.quote request = .ok amount) :
    0 ≤ amount.val ∧ amount.val ≤ ledger.remaining.val := by
  unfold CumulativeBudgetLedger.quote at granted
  dsimp only at granted
  split_ifs at granted with negative mismatch exhausted
  cases granted
  exact ⟨not_lt.mp negative, not_lt.mp exhausted⟩

/-- What the intent of a request records as reserved: what was granted, or nothing. -/
def recorded : Except String I64 → I64
  | .ok amount => amount
  | .error _ => 0

theorem reserve_charged (clock : Call E I64) (request : ModelInvocationRequest)
    {env after : CumulativeBudgetLedger × E} {answer : Except String I64}
    (charged : Charged carried limit env.1 amounts)
    (ran : CumulativeBudgetLedger.reserve clock request env = (some answer, after)) :
    Charged carried limit after.1 (amounts ++ [recorded answer]) := by
  have same := checkDeadline_same clock env
  unfold CumulativeBudgetLedger.reserve CumulativeBudgetLedger.quotedReservation at ran
  cases checked : CumulativeBudgetLedger.checkDeadline clock env with
  | mk result between =>
    rw [checked] at ran same
    have kept := charged.same same.1 same.2.1
    cases result with
    | none => cases ran
    | some result =>
      cases result with
      | error refusal => cases ran; exact kept.refused
      | ok done =>
        dsimp only at ran
        cases quoted : between.1.quote request with
        | error refusal => rw [quoted] at ran; cases ran; exact kept.refused
        | ok amount =>
          rw [quoted] at ran
          cases ran
          exact kept.reserved (quote_ok quoted).1 (quote_ok quoted).2 rfl rfl

theorem ledgerHandlers_keep {handlers : LiveInvocationHandlers E} (clock : Call E I64)
    (bound : handlers.sink.isSome) :
    Keeps (Within carried limit) (fun env amounts => Charged carried limit env.1 amounts)
      (ledgerHandlers handlers clock) where
  within := fun _ _ charged => charged.toWithin
  invoke := fun _ _ _ charged => charged
  decode := fun _ _ _ _ charged => charged
  authorize := fun _ _ _ charged => charged
  checkDeadline := fun env _ charged =>
    charged.same (checkDeadline_same clock env).1 (checkDeadline_same clock env).2.1
  checkPreDispatch := fun env _ charged =>
    charged.same (checkDeadline_same clock env).1 (checkDeadline_same clock env).2.1
  record := fun _ _ _ charged => charged.same rfl rfl
  observe := fun _ _ _ charged => charged
  reduce := fun _ _ _ _ charged => charged
  effect := fun effect found turn grant env amounts charged => by
    obtain ⟨inner, -, rfl⟩ := Option.map_eq_some_iff.mp found
    exact charged
  sink := by
    obtain ⟨sink, found⟩ := Option.isSome_iff_exists.mp bound
    refine ⟨fun journal => beside (sink journal), ?_, fun _ _ _ charged => charged⟩
    show handlers.sink.map _ = _
    rw [found]
    rfl
  isCancelled := fun _ _ charged => charged
  reserved := fun request _ _ _ _ charged ran => reserve_charged clock request charged ran
  refused := fun request _ _ _ _ charged ran => reserve_charged clock request charged ran

theorem Within.sum (within : Within carried limit amounts) (bound : limit ≤ maxI64) :
    (I64.sumSaturating amounts).val = I64.total amounts ∧
      carried.atLeastZero.val + I64.total amounts ≤ maxI64 := by
  have before := I64.total_nonneg within.nonneg
  have limited := within.limited
  have upper := carried.atLeastZero.upper
  have carriedNonneg := carried.atLeastZero_nonneg
  rw [I64.sumSaturating_val within.nonneg]
  omega

theorem resumeMigrated_charged {ceiling : I64} {deadline : Option I64} {journal : Journal}
    (within : Within carried limit (reservations journal)) (bound : limit ≤ maxI64)
    (below : ceiling.val ≤ limit) :
    Charged carried limit
      (CumulativeBudgetLedger.resumeMigrated ceiling deadline carried journal)
      (reservations journal) where
  toWithin := within
  ceiling := below
  committed := by
    have sum := within.sum bound
    show (carried.atLeastZero.saturatingAdd (I64.sumSaturating (reservations journal))).val = _
    have before := I64.total_nonneg within.nonneg
    have carriedNonneg := carried.atLeastZero_nonneg
    have low : minI64 ≤ 0 := by decide
    rw [I64.saturatingAdd_val, sum.1]
    omega

theorem within_nil : Within carried limit [] where
  nonneg := List.forall_mem_nil _
  limited := by
    rw [I64.total_nil, add_zero]
    exact le_max_left _ _

theorem migrated_eq (ceiling : I64) (deadline : Option I64) (carried : I64) :
    CumulativeBudgetLedger.migrated ceiling deadline carried =
      CumulativeBudgetLedger.resumeMigrated ceiling deadline carried [] := by
  have same : carried.atLeastZero.saturatingAdd 0 = carried.atLeastZero := by
    apply I64.ext_val
    have lower := carried.atLeastZero.lower
    have upper := carried.atLeastZero.upper
    rw [I64.saturatingAdd_val, I64.zero_val]
    omega
  unfold CumulativeBudgetLedger.migrated CumulativeBudgetLedger.resumeMigrated
  rw [show committedFromJournal [] = 0 from rfl, same]

theorem resume_eq (ceiling : I64) (deadline : Option I64) (journal : Journal) :
    CumulativeBudgetLedger.resume ceiling deadline journal =
      CumulativeBudgetLedger.resumeMigrated ceiling deadline 0 journal := by
  have same : (0 : I64).atLeastZero.saturatingAdd (committedFromJournal journal) =
      committedFromJournal journal := by
    apply I64.ext_val
    have lower := (committedFromJournal journal).lower
    have upper := (committedFromJournal journal).upper
    rw [I64.saturatingAdd_val, I64.atLeastZero_val, I64.zero_val]
    omega
  unfold CumulativeBudgetLedger.resume CumulativeBudgetLedger.resumeMigrated
  rw [same]

end Ledger

end Semaprax.LiveInvocation
