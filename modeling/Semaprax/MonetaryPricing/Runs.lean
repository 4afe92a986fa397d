/-
**Runs of priced attempts.**

From any start a run goes on with reservations and charges. At every moment the attempts that were
persisted can be replayed, and the replay comes to the totals of the run.

* `run`, `run_accounted` — the account after some calls; `observedOrdinals_fresh` — an attempt is
  observed once.
* `persistedCarry_eq` — what a run was opened with is found again.
* `accounting_conserves_and_replays` — the totals, the refusals and the replay of every run.
-/

import Semaprax.MonetaryPricing.Replay

namespace Semaprax.MonetaryPricing

open Library MonetaryAccounting

/-- A call of a live invocation. -/
inductive Call
  | reserve (workUnit : String) (workUnits : I64)
  | recordCharge (reservation : MonetaryReservation) (charge : ProviderChargeObservation)

namespace Call

def perform : Call → Prog MonetaryAccounting BudgetRefusal (Option MonetaryReservation)
  | .reserve workUnit workUnits => do
      let reservation ← MonetaryAccounting.reserve workUnit workUnits
      pure (some reservation)
  | .recordCharge reservation charge => do
      MonetaryAccounting.recordCharge reservation charge
      pure none

def InOrder (accounting : MonetaryAccounting) : Call → Prop
  | .reserve _ _ => True
  | .recordCharge reservation charge => Orderly accounting reservation charge

/-- The ordinal of the attempt whose charge the call makes known. -/
def observes (accounting : MonetaryAccounting) (call : Call) : Option U32 :=
  match call, (call.perform accounting).1 with
  | .recordCharge reservation (.observed _ _ _), .ok _ => some reservation.ordinal
  | _, _ => none

end Call

def afterCall (accounting : MonetaryAccounting) (call : Call) : MonetaryAccounting :=
  (call.perform accounting).2

def run (accounting : MonetaryAccounting) (calls : List Call) : MonetaryAccounting :=
  calls.foldl afterCall accounting

/-- Every charge of the calls is recorded before the next reservation, if at all. -/
def OrderlyRun (accounting : MonetaryAccounting) : List Call → Prop
  | [] => True
  | call :: calls => call.InOrder accounting ∧ OrderlyRun (afterCall accounting call) calls

/-- The ordinals of the attempts whose charges the calls make known. -/
def observedOrdinals (accounting : MonetaryAccounting) : List Call → List U32
  | [] => []
  | call :: calls =>
    (call.observes accounting).toList ++ observedOrdinals (afterCall accounting call) calls

/-- What a call does to the attempts: nothing, one more, or the charge of the last one. -/
inductive Progress (accounting after : MonetaryAccounting) (call : Call) : Prop
  | unchanged (same : after.attempts = accounting.attempts) (nothing : call.observes accounting = none)
  | reserved (reservation : MonetaryReservation) (nothing : call.observes accounting = none)
      (grown : after.attempts = accounting.attempts ++ [⟨reservation, .unknown⟩])
  | charged (earlier : List MonetaryAttempt) (reservation : MonetaryReservation)
      (charge : ProviderChargeObservation) (known : charge ≠ .unknown)
      (last : accounting.attempts = earlier ++ [⟨reservation, .unknown⟩])
      (turned : after.attempts = earlier ++ [⟨reservation, charge⟩])
      (observed : call.observes accounting = some reservation.ordinal)

section Runs

variable {opening : PricedMonetaryCarry} {accounting : MonetaryAccounting}

variable {calls : List Call}

section Accounted

variable (accounted : Accounted opening accounting)

include accounted

/-- Only the reason of a failure differs, so the account still holds. -/
theorem Accounted.of_same {after : MonetaryAccounting}
    (same : SameTotals accounting after) : Accounted opening after := by
  obtain ⟨failure, rfl⟩ := same
  exact ⟨accounted.reserved, accounted.observed, accounted.unknown, accounted.overage,
    accounted.ordinal, accounted.opened, accounted.admitted⟩

theorem Accounted.afterCall {call : Call}
    (orderly : call.InOrder accounting) : Accounted opening (afterCall accounting call) ∧
      (MonetaryPricing.afterCall accounting call).pricing = accounting.pricing ∧
      Progress accounting (MonetaryPricing.afterCall accounting call) call := by
  cases call with
  | reserve workUnit workUnits =>
    have nothing : (Call.reserve workUnit workUnits).observes accounting = none := by
      simp [Call.observes]
    have spec := accounted.reserve_spec workUnit workUnits
    unfold MonetaryPricing.afterCall
    rcases wp_run spec with ⟨reservation, after, ran, -, -, -, kept, grown⟩ |
      ⟨_, after, ran, same⟩
    · have ended : (Call.reserve workUnit workUnits).perform accounting =
          (.ok (some reservation), after) := run_bind ran
      rw [ended]
      exact ⟨kept, grown.pricing, .reserved reservation nothing grown.attempts⟩
    · have stopped : (Call.reserve workUnit workUnits).perform accounting = (.error _, after) :=
        run_bind_stop ran
      rw [stopped]
      exact ⟨accounted.of_same same, same.pricing, .unchanged same.attempts nothing⟩
  | recordCharge reservation charge =>
    have spec := accounted.recordCharge_spec reservation charge orderly
    unfold MonetaryPricing.afterCall
    rcases wp_run spec with ⟨_, after, ran, kept, moved⟩ | ⟨_, after, ran, same, -⟩
    · have ended : (Call.recordCharge reservation charge).perform accounting = (.ok none, after) :=
        run_bind ran
      rw [ended]
      rcases moved with ⟨rfl, rfl⟩ | ⟨known, earlier, last, turned⟩
      · refine ⟨kept, rfl, .unchanged rfl ?_⟩
        simp [Call.observes]
      · refine ⟨kept, turned.pricing, .charged earlier reservation charge known last
          turned.attempts ?_⟩
        cases charge with
        | unknown => exact absurd rfl known
        | observed currency minorUnitExponent amountMinor => simp [Call.observes, ended]
    · have stopped : (Call.recordCharge reservation charge).perform accounting =
          (.error _, after) := run_bind_stop ran
      rw [stopped]
      refine ⟨accounted.of_same same, same.pricing, .unchanged same.attempts ?_⟩
      simp [Call.observes, stopped]

theorem run_accounted
    (orderly : OrderlyRun accounting calls) : Accounted opening (run accounting calls) ∧
      (run accounting calls).pricing = accounting.pricing := by
  induction calls generalizing accounting with
  | nil => exact ⟨accounted, rfl⟩
  | cons call calls ih =>
    obtain ⟨first, rest⟩ := orderly
    obtain ⟨kept, pricing, -⟩ := accounted.afterCall first
    exact ⟨(ih kept rest).1, (ih kept rest).2.trans pricing⟩

theorem Accounted.same_attempt {earlier : List MonetaryAttempt} {last attempt : MonetaryAttempt}
    (split : accounting.attempts = earlier ++ [last]) (member : attempt ∈ accounting.attempts)
    (same : attempt.reservation.ordinal = last.reservation.ordinal) : attempt = last := by
  obtain ⟨index, here⟩ := List.mem_iff_getElem?.mp member
  have place : accounting.attempts[earlier.length]? = some last := by
    rw [split, List.getElem?_concat_length]
  have first := accounted.numbered here
  have second := accounted.numbered place
  rw [same, second] at first
  obtain rfl : index = earlier.length := by omega
  exact Option.some.inj (here.symm.trans place)

theorem observedOrdinals_fresh
    (orderly : OrderlyRun accounting calls) : (observedOrdinals accounting calls).Nodup ∧
      ∀ attempt ∈ accounting.attempts,
        attempt.reservation.ordinal ∈ observedOrdinals accounting calls →
          attempt.charge = .unknown := by
  induction calls generalizing accounting with
  | nil => exact ⟨List.nodup_nil, fun _ _ member => absurd member List.not_mem_nil⟩
  | cons call calls ih =>
    obtain ⟨first, rest⟩ := orderly
    obtain ⟨kept, -, progress⟩ := accounted.afterCall first
    obtain ⟨distinct, fresh⟩ := ih kept rest
    unfold observedOrdinals
    cases progress with
    | unchanged same nothing =>
      rw [same] at fresh
      rw [nothing]
      exact ⟨distinct, fresh⟩
    | reserved reservation nothing grown =>
      rw [grown] at fresh
      rw [nothing]
      exact ⟨distinct, fun attempt member => fresh attempt (List.mem_append_left _ member)⟩
    | charged earlier reservation charge known last turned observed =>
      rw [turned] at fresh
      rw [observed]
      refine ⟨List.nodup_cons.mpr ⟨fun again => known ?_, distinct⟩, ?_⟩
      · exact fresh ⟨reservation, charge⟩ (List.mem_append_right _ (List.mem_singleton.mpr rfl))
          again
      · intro attempt member again
        by_cases same : attempt.reservation.ordinal = reservation.ordinal
        · rw [accounted.same_attempt last member same]
        · rcases List.mem_cons.mp again with equal | later
          · exact absurd equal same
          · rw [last] at member
            rcases List.mem_append.mp member with before | final
            · exact fresh attempt (List.mem_append_left _ before) later
            · rw [List.mem_singleton.mp final]

end Accounted

end Runs

section Persistence

variable {opening : PricedMonetaryCarry} {accounting : MonetaryAccounting}

/-- The opening, under the pricing of the account. -/
def PricedMonetaryCarry.under (carry : PricedMonetaryCarry) (pricing : ValidatedPricing) :
    PricedMonetaryCarry :=
  { carry with
    pricing := pricing }

variable {pricing : ValidatedPricing} {attempts : List MonetaryAttempt}

theorem fromValidated_eq {reserved observed unknown overage : I64}
    {nextOrdinal : U32} (carriable : Carriable reserved observed unknown overage) :
    PricedMonetaryCarry.fromValidated pricing reserved observed unknown overage nextOrdinal =
      .ok ⟨pricing, reserved, observed, unknown, overage, nextOrdinal, carriable⟩ :=
  dif_neg (carriable_iff.mpr carriable)

theorem validateDestination_under (carry : PricedMonetaryCarry)
    (within : carry.reservedMinor.val ≤ pricing.ceilingMinor.val) :
    (carry.under pricing).validateDestination pricing = .ok () := by
  unfold PricedMonetaryCarry.validateDestination
  simp only [bind_eq_ok, refuseIf_eq_ok]
  exact ⟨(), not_not.mpr rfl, (), not_not.mpr rfl, (), not_not.mpr rfl, (), not_not.mpr rfl, (),
    lt_irrefl pricing.ceilingMinor.val, not_lt.mpr within⟩

theorem resume_of_admitted (within : opening.reservedMinor.val ≤ pricing.ceilingMinor.val)
    (admitted : Throughout (Admitted pricing opening) attempts) :
    ∃ resumed, resumeWithPricedCarry pricing (opening.under pricing) attempts = .ok resumed ∧
      Accounted (opening.under pricing) resumed ∧ resumed.attempts = attempts ∧
        resumed.pricing = pricing := by
  have accounted : Accounted (opening.under pricing) (.carried pricing (opening.under pricing)) :=
    opened_accounted within
  obtain ⟨ends, succeeds⟩ := replayFrom_eq_ok accounted rfl (fun _ _ => rfl) rfl
  obtain ⟨resumed, replayed⟩ := succeeds (admitted.mono fun earlier attempt holds =>
    ⟨holds.ordinal, holds.next, holds.capacity, holds.quoted, holds.exposure, holds.charge,
      holds.observed⟩)
  obtain ⟨kept, turned⟩ := ends resumed replayed
  exact ⟨resumed, bind_eq_ok.mpr ⟨(), validateDestination_under opening within, replayed⟩, kept,
    turned.attempts, turned.pricing⟩

theorem fresh_opening (admitted : Throughout (Admitted pricing opening) attempts) :
    Throughout (Admitted pricing (pricing.opening opening.nextOrdinal)) attempts := by
  refine admitted.mono fun earlier attempt holds => ?_
  have carriable := opening.carriable
  refine ⟨holds.ordinal, holds.next, holds.capacity, holds.quoted, ?_, holds.charge, ?_⟩
  · have exposure := holds.exposure
    have reserved := carriable.reservedNonneg
    have overage := carriable.overageNonneg
    show 0 + _ + (0 + _) + _ ≤ _
    omega
  · have fits := holds.observed
    have observed := carriable.observedNonneg
    show 0 + _ + _ ≤ _
    omega

/-- **What an account was opened with is found again** from its totals. -/
theorem persistedCarry_eq (accounted : Accounted opening accounting) :
    accounting.persistedCarry = .ok (opening.under accounting.pricing) := by
  have ordinal := accounted.ordinal
  have upper := accounting.nextOrdinal.upper
  obtain ⟨replayed, resumed, kept, same, -⟩ := resume_of_admitted accounting.pricing.ceilingNonneg
    (fresh_opening accounted.admitted)
  have counted : accounting.attemptCount = some ⟨accounting.attempts.length, by omega⟩ :=
    Word.tryFrom_eq_some.mpr rfl
  have base : accounting.nextOrdinal.checkedSub ⟨accounting.attempts.length, by omega⟩ =
      some opening.nextOrdinal :=
    Word.checkedSub_eq_some.mpr (by rw [ordinal, add_comm])
  have less : ∀ {whole part rest : I64}, whole.val = rest.val + part.val →
      orRefuse "pricing_total_overflow" (whole.checkedSub part) = .ok rest := fun sum =>
    orRefuse_eq_ok.mpr (I64.checked_eq_some.mpr (by omega))
  refine bind_eq_ok.mpr ⟨_, orRefuse_eq_ok.mpr counted, ?_⟩
  refine bind_eq_ok.mpr ⟨_, orRefuse_eq_ok.mpr base, ?_⟩
  refine bind_eq_ok.mpr ⟨_, fromValidated_eq (accounting.pricing.opening 0).carriable, ?_⟩
  refine bind_eq_ok.mpr ⟨replayed, resumed, ?_⟩
  refine bind_eq_ok.mpr ⟨opening.reservedMinor, less ?_, ?_⟩
  · rw [accounted.reserved, kept.reserved, same]
    exact congrArg _ (zero_add _).symm
  refine bind_eq_ok.mpr ⟨opening.observedMinor, less ?_, ?_⟩
  · rw [accounted.observed, kept.observed, same]
    exact congrArg _ (zero_add _).symm
  refine bind_eq_ok.mpr ⟨opening.unknownReservationMinor, less ?_, ?_⟩
  · rw [accounted.unknown, kept.unknown, same]
    exact congrArg _ (zero_add _).symm
  refine bind_eq_ok.mpr ⟨opening.observedOverReservationMinor, less ?_, ?_⟩
  · rw [accounted.overage, kept.overage, same]
    exact congrArg _ (zero_add _).symm
  exact fromValidated_eq opening.carriable

theorem recordCharge_refused (accounting : MonetaryAccounting) (reservation : MonetaryReservation)
    (charge : ProviderChargeObservation) : (recordCharge reservation charge).wp (fun _ _ => True)
      (fun _ after => SameTotals accounting after) accounting := by
  have same : SameTotals accounting accounting := ⟨accounting.failure, rfl⟩
  unfold recordCharge
  rw [wp_bind, wp_get]
  refine need_step (fun _ _ => same) fun _ _ => need_step (fun _ _ => same) fun found _ => ?_
  refine refuseIf_step (fun _ => same) fun _ => refuseIf_step (fun _ => same) fun _ => ?_
  cases charge with
  | unknown => trivial
  | observed currency minorUnitExponent amountMinor =>
    refine refuseIf_step (fun _ => same) fun _ => refuseIf_step (fun _ => same) fun _ => ?_
    refine refuseIf_step (fun _ => same) fun _ => ?_
    refine orFailStop_step (fun _ _ failed => failed) fun overage _ => ?_
    refine orFailStop_step (fun _ _ failed => failed) fun observedTotal _ => ?_
    refine orFailStop_step (fun _ _ failed => failed) fun unknownTotal _ => ?_
    exact orFailStop_step (fun _ _ failed => failed) fun overageTotal _ => trivial

end Persistence

/-- The totals are those carried into an account and the sums over its attempts. -/
structure Conserved (opening : PricedMonetaryCarry) (accounting : MonetaryAccounting) : Prop where
  quoted : ∀ attempt ∈ accounting.attempts, accounting.pricing.quote accounting.pricing.workUnit
    attempt.reservation.workUnits = .ok attempt.reservation.reservedMinor
  reserved : accounting.reservedMinor.val =
    opening.reservedMinor.val + total MonetaryAttempt.reserved accounting.attempts
  within : accounting.reservedMinor.val ≤ accounting.pricing.ceilingMinor.val
  unknown : accounting.unknownReservationMinor.val =
    opening.unknownReservationMinor.val + total MonetaryAttempt.unknown accounting.attempts
  observed : accounting.observedMinor.val =
    opening.observedMinor.val + total MonetaryAttempt.observed accounting.attempts
  overage : accounting.observedOverReservationMinor.val =
    opening.observedOverReservationMinor.val + total MonetaryAttempt.overage accounting.attempts

/-- The accounts have the same attempts, totals and next ordinal. -/
structure SameAccount (accounting other : MonetaryAccounting) : Prop where
  attempts : other.attempts = accounting.attempts
  reserved : other.reservedMinor = accounting.reservedMinor
  observed : other.observedMinor = accounting.observedMinor
  unknown : other.unknownReservationMinor = accounting.unknownReservationMinor
  overage : other.observedOverReservationMinor = accounting.observedOverReservationMinor
  nextOrdinal : other.nextOrdinal = accounting.nextOrdinal

theorem Accounted.conserved {opening : PricedMonetaryCarry} {accounting : MonetaryAccounting}
    (accounted : Accounted opening accounting) : Conserved opening accounting where
  quoted attempt member := by
    obtain ⟨earlier, later, split⟩ := List.append_of_mem member
    exact (accounted.admitted earlier attempt later split).quoted
  reserved := accounted.reserved
  within := accounted.within
  unknown := accounted.unknown
  observed := accounted.observed
  overage := accounted.overage

/-- **Monetary accounting conserves and replays.** After any run, from any start, the totals are what
was carried in and the sums over the attempts; a reservation is admitted only under the ceiling; a
refusal changes no total; no attempt is observed twice; and what is persisted is replayed to the same
account. -/
theorem accounting_conserves_and_replays {opening : PricedMonetaryCarry}
    {start : MonetaryAccounting} (opens : Opens opening start) (calls : List Call)
    (orderly : OrderlyRun start calls) :
    Conserved opening (run start calls) ∧
    (∀ workUnit workUnits, (reserve workUnit workUnits).wp (fun reservation _ =>
        (run start calls).pricing.quote workUnit workUnits = .ok reservation.reservedMinor ∧
        (run start calls).reservedMinor.val +
          (run start calls).observedOverReservationMinor.val + reservation.reservedMinor.val ≤
            (run start calls).pricing.ceilingMinor.val)
      (fun _ after => SameTotals (run start calls) after) (run start calls)) ∧
    (∀ reservation charge, (recordCharge reservation charge).wp (fun _ _ => True)
      (fun _ after => SameTotals (run start calls) after) (run start calls)) ∧
    (observedOrdinals start calls).Nodup ∧
    ∃ carry resumed, (run start calls).persistedCarry = .ok carry ∧
      resumeWithPricedCarry (run start calls).pricing carry (run start calls).attempts =
        .ok resumed ∧ SameAccount (run start calls) resumed := by
  obtain ⟨accounted, -⟩ := run_accounted opens.accounted orderly
  refine ⟨accounted.conserved, fun workUnit workUnits => ?_, fun reservation charge =>
    recordCharge_refused _ reservation charge, (observedOrdinals_fresh opens.accounted orderly).1, ?_⟩
  · refine wp_mono (accounted.reserve_spec workUnit workUnits) ?_ fun _ _ same => same
    exact fun reservation after ⟨_, quoted, exposure, _⟩ => ⟨quoted, exposure⟩
  · obtain ⟨resumed, replayed, kept, attempts, -⟩ :=
      resume_of_admitted accounted.opened accounted.admitted
    have again : Accounted opening resumed :=
      ⟨kept.reserved, kept.observed, kept.unknown, kept.overage, kept.ordinal, kept.opened,
        kept.admitted.mono fun earlier attempt holds => ⟨holds.ordinal, holds.next, holds.capacity,
          holds.quoted, holds.exposure, holds.charge, holds.observed⟩⟩
    obtain ⟨reserved, observed, unknown, overage, next⟩ := accounted.same_totals again attempts
    exact ⟨_, resumed, persistedCarry_eq accounted, replayed, attempts, reserved, observed, unknown,
      overage, next⟩

/-- A price of three for each unit, up to one hundred. -/
def somePricing : ValidatedPricing :=
  ⟨"work", "EUR", 2, 3, 100, by decide, by decide, by decide, by decide, by decide⟩

/-- An attempt is charged over its reservation, and another one follows. -/
def someCalls : List Call :=
  [.reserve "work" 5, .recordCharge ⟨0, 5, 15⟩ (.observed "EUR" 2 20), .reserve "work" 1]

theorem accounting_conserves_and_replays_charged :
    Conserved (somePricing.opening 0) (run (.new somePricing) someCalls) ∧
      (run (.new somePricing) someCalls).observedOverReservationMinor = 5 := by
  have single : (afterCall (.new somePricing) (.reserve "work" 5)).attempts.dropLast = [] := rfl
  refine ⟨(accounting_conserves_and_replays (.new somePricing) someCalls
    ⟨trivial, fun attempt member => ?_, trivial, trivial⟩).1, rfl⟩
  rw [single] at member
  cases member

end Semaprax.MonetaryPricing
