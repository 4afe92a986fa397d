/-
**What an account of priced attempts says.**

The totals of an account are those it was opened with and the sums over its attempts. Every attempt
was admitted under the ceiling, given the attempts before it.

* `Admitted` — what holds of an attempt, given the earlier ones; `Accounted` — of a whole account.
* `reserve_spec`, `reserveReplayed_spec` — an admission, live and in a replay.
* `recordCharge_spec` — a charge, recorded for the last attempt.
-/

import Semaprax.Library.Histories
import Semaprax.Library.Results
import Semaprax.MonetaryPricing.Model

namespace Semaprax.MonetaryPricing

open Library

namespace MonetaryAttempt

variable (attempt : MonetaryAttempt)

def reserved : Int := attempt.reservation.reservedMinor.val

/-- What was charged, or nothing while the charge is unknown. -/
def observed : Int :=
  match attempt.charge with
  | .unknown => 0
  | .observed _ _ amountMinor => amountMinor.val

/-- What is reserved and of which nothing is known. -/
def unknown : Int := if attempt.charge = .unknown then attempt.reserved else 0

/-- What was charged over the reservation. -/
def overage : Int :=
  if attempt.charge = .unknown then 0 else max 0 (attempt.observed - attempt.reserved)

end MonetaryAttempt

def total (amount : MonetaryAttempt → Int) (attempts : List MonetaryAttempt) : Int :=
  (attempts.map amount).sum

variable {before after : MonetaryAccounting}

@[simp]
theorem total_nil (amount : MonetaryAttempt → Int) : total amount [] = 0 := rfl

@[simp]
theorem total_append (amount : MonetaryAttempt → Int) (attempts : List MonetaryAttempt)
    (attempt : MonetaryAttempt) :
    total amount (attempts ++ [attempt]) = total amount attempts + amount attempt := by
  unfold total
  rw [List.map_append, List.sum_append, List.map_singleton, List.sum_singleton]

theorem total_mono {first second : MonetaryAttempt → Int} {attempts : List MonetaryAttempt}
    (below : ∀ attempt ∈ attempts, first attempt ≤ second attempt) :
    total first attempts ≤ total second attempts := List.sum_le_sum below

theorem total_nonneg {amount : MonetaryAttempt → Int} {attempts : List MonetaryAttempt}
    (nonneg : ∀ attempt ∈ attempts, 0 ≤ amount attempt) : 0 ≤ total amount attempts := by
  refine List.sum_nonneg fun value member => ?_
  obtain ⟨attempt, among, rfl⟩ := List.mem_map.mp member
  exact nonneg attempt among

def Accepted (pricing : ValidatedPricing) : ProviderChargeObservation → Prop
  | .unknown => True
  | .observed currency minorUnitExponent amountMinor => currency = pricing.currency ∧
      minorUnitExponent = pricing.minorUnitExponent ∧ 0 ≤ amountMinor.val

/-- An attempt that was admitted after the earlier ones. -/
structure Admitted (pricing : ValidatedPricing) (opening : PricedMonetaryCarry)
    (earlier : List MonetaryAttempt) (attempt : MonetaryAttempt) : Prop where
  ordinal : attempt.reservation.ordinal.val = opening.nextOrdinal.val + earlier.length
  next : opening.nextOrdinal.val + earlier.length + 1 ≤ 2 ^ 32 - 1
  capacity : earlier.length < maxSourceEntries
  quoted : pricing.quote pricing.workUnit attempt.reservation.workUnits =
    .ok attempt.reservation.reservedMinor
  exposure : opening.reservedMinor.val + total MonetaryAttempt.reserved earlier +
    (opening.observedOverReservationMinor.val + total MonetaryAttempt.overage earlier) +
      attempt.reserved ≤ pricing.ceilingMinor.val
  charge : Accepted pricing attempt.charge
  observed : opening.observedMinor.val + total MonetaryAttempt.observed earlier +
    attempt.observed ≤ maxI64

/-- The amounts of an attempt, as they compare. -/
structure Sound (attempt : MonetaryAttempt) : Prop where
  reserved : 0 ≤ attempt.reserved
  observed : 0 ≤ attempt.observed
  unknown : 0 ≤ attempt.unknown
  unknownWithin : attempt.unknown ≤ attempt.reserved
  overage : 0 ≤ attempt.overage
  overageWithin : attempt.overage ≤ attempt.observed

theorem sound_of {attempt : MonetaryAttempt} (reserved : 0 ≤ attempt.reserved)
    (observed : 0 ≤ attempt.observed) : Sound attempt := by
  refine ⟨reserved, observed, ?_, ?_, ?_, ?_⟩
  all_goals
    simp only [MonetaryAttempt.unknown, MonetaryAttempt.overage]
    split_ifs <;> omega

section Amounts

variable {pricing : ValidatedPricing} {opening : PricedMonetaryCarry}
  {attempts earlier : List MonetaryAttempt} {attempt : MonetaryAttempt}

theorem Accepted.observed_nonneg (accepted : Accepted pricing attempt.charge) :
    0 ≤ attempt.observed := by
  unfold MonetaryAttempt.observed
  cases same : attempt.charge with
  | unknown => exact le_rfl
  | observed currency minorUnitExponent amountMinor =>
    rw [same] at accepted
    exact accepted.2.2

theorem Admitted.sound (admitted : Admitted pricing opening earlier attempt) : Sound attempt :=
  sound_of (pricing.quote_nonneg admitted.quoted) admitted.charge.observed_nonneg

theorem sound_of_mem (admitted : Throughout (Admitted pricing opening) attempts)
    (member : attempt ∈ attempts) : Sound attempt := by
  obtain ⟨earlier, later, split⟩ := List.append_of_mem member
  exact (admitted earlier attempt later split).sound

end Amounts

structure Accounted (opening : PricedMonetaryCarry) (accounting : MonetaryAccounting) : Prop where
  reserved : accounting.reservedMinor.val =
    opening.reservedMinor.val + total MonetaryAttempt.reserved accounting.attempts
  observed : accounting.observedMinor.val =
    opening.observedMinor.val + total MonetaryAttempt.observed accounting.attempts
  unknown : accounting.unknownReservationMinor.val =
    opening.unknownReservationMinor.val + total MonetaryAttempt.unknown accounting.attempts
  overage : accounting.observedOverReservationMinor.val =
    opening.observedOverReservationMinor.val + total MonetaryAttempt.overage accounting.attempts
  ordinal : accounting.nextOrdinal.val = opening.nextOrdinal.val + accounting.attempts.length
  opened : opening.reservedMinor.val ≤ accounting.pricing.ceilingMinor.val
  admitted : Throughout (Admitted accounting.pricing opening) accounting.attempts

/-- Only the reason of a failure differs. -/
def SameTotals (before after : MonetaryAccounting) : Prop :=
  ∃ failure, after = { before with
    failure := failure }

theorem SameTotals.pricing (same : SameTotals before after) : after.pricing = before.pricing := by
  obtain ⟨failure, rfl⟩ := same
  rfl

theorem SameTotals.attempts (same : SameTotals before after) :
    after.attempts = before.attempts := by
  obtain ⟨failure, rfl⟩ := same
  rfl

/-- The attempts are others; the policy is the same and nothing failed. -/
structure Turned (before after : MonetaryAccounting) (attempts : List MonetaryAttempt) : Prop where
  pricing : after.pricing = before.pricing
  attempts : after.attempts = attempts
  failure : after.failure = before.failure

namespace Accounted

variable {opening : PricedMonetaryCarry} {accounting other : MonetaryAccounting}
  (accounted : Accounted opening accounting)

include accounted

/-- The totals compare as those of a carry do. -/
theorem bounds : 0 ≤ accounting.reservedMinor.val ∧ 0 ≤ accounting.unknownReservationMinor.val ∧
    accounting.unknownReservationMinor.val ≤ accounting.reservedMinor.val ∧
    0 ≤ accounting.observedOverReservationMinor.val ∧
    accounting.observedOverReservationMinor.val ≤ accounting.observedMinor.val := by
  have sound : ∀ attempt ∈ accounting.attempts, Sound attempt := fun attempt member =>
    sound_of_mem accounted.admitted member
  have unknown := total_nonneg fun attempt member => (sound attempt member).unknown
  have unknownWithin := total_mono fun attempt member => (sound attempt member).unknownWithin
  have overage := total_nonneg fun attempt member => (sound attempt member).overage
  have overageWithin := total_mono fun attempt member => (sound attempt member).overageWithin
  obtain ⟨carried, -, carriedUnknown, carriedOverage, unknownBelow, overageBelow, -⟩ :=
    opening.carriable
  rw [accounted.reserved, accounted.unknown, accounted.overage, accounted.observed]
  exact ⟨by omega, by omega, by omega, by omega, by omega⟩

theorem within : accounting.reservedMinor.val ≤ accounting.pricing.ceilingMinor.val := by
  rw [accounted.reserved]
  rcases List.eq_nil_or_concat' accounting.attempts with none' | ⟨earlier, last, split⟩
  · rw [none', total_nil, add_zero]
    exact accounted.opened
  · have admitted := accounted.admitted earlier last [] split
    have before : ∀ attempt ∈ earlier, Sound attempt := fun attempt member =>
      sound_of_mem accounted.admitted (split ▸ List.mem_append_left _ member)
    have overage : 0 ≤ total MonetaryAttempt.overage earlier :=
      total_nonneg fun attempt member => (before attempt member).overage
    have carried := opening.carriable.overageNonneg
    have exposure := admitted.exposure
    rw [split, total_append]
    omega

theorem same_totals (also : Accounted opening other) (same : other.attempts = accounting.attempts) :
    other.reservedMinor = accounting.reservedMinor ∧
    other.observedMinor = accounting.observedMinor ∧
    other.unknownReservationMinor = accounting.unknownReservationMinor ∧
    other.observedOverReservationMinor = accounting.observedOverReservationMinor ∧
    other.nextOrdinal = accounting.nextOrdinal := by
  refine ⟨I64.ext_val ?_, I64.ext_val ?_, I64.ext_val ?_, I64.ext_val ?_, Word.ext_val ?_⟩
  · rw [also.reserved, accounted.reserved, same]
  · rw [also.observed, accounted.observed, same]
  · rw [also.unknown, accounted.unknown, same]
  · rw [also.overage, accounted.overage, same]
  · rw [also.ordinal, accounted.ordinal, same]

end Accounted

section Checks

variable {E A : Type} {accounting : MonetaryAccounting}

variable {reason : String}

theorem refuseIf_eq_ok {condition : Prop} [Decidable condition] {value : Unit} :
    refuseIf condition reason = .ok value ↔ ¬condition := by
  unfold refuseIf
  split_ifs with holds <;> simp [holds]

theorem orRefuse_eq_ok {value : Option A} {result : A} :
    orRefuse reason value = .ok result ↔ value = some result := by
  cases value <;> simp [orRefuse]

section Needs

variable {ends : A → MonetaryAccounting → Prop} {stops : BudgetRefusal → MonetaryAccounting → Prop}

theorem wp_need (result : Except BudgetRefusal A) : (need result).wp ends stops accounting ↔
    (∀ refusal, result = .error refusal → stops refusal accounting) ∧
      (∀ value, result = .ok value → ends value accounting) := by
  cases result <;> simp [need]

theorem wp_orRefuse (reason : String) (value : Option A) :
    (need (orRefuse reason value)).wp ends stops accounting ↔
      (value = none → stops ⟨reason⟩ accounting) ∧
        (∀ result, value = some result → ends result accounting) := by
  cases value <;> simp [need, orRefuse]

end Needs

theorem wp_refuseIf (condition : Prop) [Decidable condition] (reason : String)
    {ends : Unit → MonetaryAccounting → Prop} {stops : BudgetRefusal → MonetaryAccounting → Prop} :
    (need (refuseIf condition reason)).wp ends stops accounting ↔
      (condition → stops ⟨reason⟩ accounting) ∧ (¬condition → ends () accounting) := by
  unfold refuseIf
  split_ifs with holds <;> simp [need, holds]

theorem wp_orFailStop {value : Option A}
    {ends : A → MonetaryAccounting → Prop} {stops : BudgetRefusal → MonetaryAccounting → Prop}
    (fails : value = none → ∀ after, SameTotals accounting after → stops ⟨reason⟩ after)
    (goes : ∀ found, value = some found → ends found accounting) :
    (MonetaryAccounting.orFailStop reason value).wp ends stops accounting := by
  cases value with
  | some found => exact goes found rfl
  | none => exact fails rfl _ ⟨_, rfl⟩

section Steps

variable {ends : A → MonetaryAccounting → Prop} {stops : BudgetRefusal → MonetaryAccounting → Prop}

variable {reason : String}

theorem need_step {result : Except BudgetRefusal E} {rest : E → Prog MonetaryAccounting _ A}
    (refuses : ∀ refusal, result = .error refusal → stops refusal accounting)
    (goes : ∀ value, result = .ok value → (rest value).wp ends stops accounting) :
    (need result >>= rest).wp ends stops accounting :=
  (wp_bind _ _).mpr ((wp_need _).mpr ⟨refuses, goes⟩)

theorem refuseIf_step {condition : Prop} [Decidable condition]
    {rest : Unit → Prog MonetaryAccounting _ A} (refuses : condition → stops ⟨reason⟩ accounting)
    (goes : ¬condition → (rest ()).wp ends stops accounting) :
    (need (refuseIf condition reason) >>= rest).wp ends stops accounting :=
  (wp_bind _ _).mpr ((wp_refuseIf _ _).mpr ⟨refuses, goes⟩)

theorem orFailStop_step {value : Option E} {rest : E → Prog MonetaryAccounting _ A}
    (fails : value = none → ∀ after, SameTotals accounting after → stops ⟨reason⟩ after)
    (goes : ∀ found, value = some found → (rest found).wp ends stops accounting) :
    (MonetaryAccounting.orFailStop reason value >>= rest).wp ends stops accounting :=
  (wp_bind _ _).mpr (wp_orFailStop fails goes)

end Steps

end Checks

/-- A charge is recorded before the next attempt is reserved: an attempt before the last one, of
which nothing is known, stays so. -/
def Orderly (accounting : MonetaryAccounting) (reservation : MonetaryReservation)
    (charge : ProviderChargeObservation) : Prop :=
  ∀ attempt ∈ accounting.attempts.dropLast, attempt.reservation = reservation →
    attempt.charge = .unknown → charge = .unknown

theorem Orderly.last {accounting : MonetaryAccounting} {reservation : MonetaryReservation} {charge : ProviderChargeObservation}
    (orderly : Orderly accounting reservation charge) (known : charge ≠ .unknown) {index : Nat}
    (here : accounting.attempts[index]? = some ⟨reservation, .unknown⟩) :
    ∃ earlier, accounting.attempts = earlier ++ [⟨reservation, .unknown⟩] ∧
      index = earlier.length := by
  rcases List.eq_nil_or_concat' accounting.attempts with none' | ⟨earlier, last, split⟩
  · rw [none'] at here
    exact nomatch here
  rw [split] at here
  rcases Nat.lt_or_ge index earlier.length with before | past
  · rw [List.getElem?_append_left before] at here
    have member : ⟨reservation, .unknown⟩ ∈ accounting.attempts.dropLast := by
      rw [split, List.dropLast_concat]
      exact List.mem_of_getElem? here
    exact absurd (orderly _ member rfl rfl) known
  · rw [List.getElem?_append_right past, List.getElem?_singleton] at here
    split_ifs at here with zero
    obtain rfl := Option.some.inj here
    exact ⟨earlier, split, by omega⟩

namespace Accounted

open MonetaryAccounting

variable {opening : PricedMonetaryCarry} {accounting : MonetaryAccounting}
  (accounted : Accounted opening accounting)

include accounted

variable {reservation : MonetaryReservation} {after : MonetaryAccounting} {index : Nat}
variable {charge : ProviderChargeObservation}

theorem grown
    (admitted : Admitted accounting.pricing opening accounting.attempts ⟨reservation, .unknown⟩)
    (turned : Turned accounting after (accounting.attempts ++ [⟨reservation, .unknown⟩]))
    (reserved : after.reservedMinor.val =
      accounting.reservedMinor.val + reservation.reservedMinor.val)
    (observed : after.observedMinor = accounting.observedMinor)
    (unknown : after.unknownReservationMinor.val =
      accounting.unknownReservationMinor.val + reservation.reservedMinor.val)
    (overage : after.observedOverReservationMinor = accounting.observedOverReservationMinor)
    (ordinal : after.nextOrdinal.val = accounting.nextOrdinal.val + 1) :
    Accounted opening after := by
  refine ⟨?_, ?_, ?_, ?_, ?_, turned.pricing ▸ accounted.opened, ?_⟩
  · rw [reserved, accounted.reserved, turned.attempts, total_append]
    exact add_assoc _ _ _
  · rw [observed, accounted.observed, turned.attempts, total_append]
    exact (congrArg _ (add_zero _)).symm
  · rw [unknown, accounted.unknown, turned.attempts, total_append]
    exact add_assoc _ _ _
  · rw [overage, accounted.overage, turned.attempts, total_append]
    exact (congrArg _ (add_zero _)).symm
  · rw [ordinal, accounted.ordinal, turned.attempts, List.length_append]
    rfl
  · rw [turned.attempts, turned.pricing]
    exact throughout_append.mpr ⟨accounted.admitted, admitted⟩

theorem admits (ordinal : reservation.ordinal = accounting.nextOrdinal)
    (quoted : accounting.pricing.quote accounting.pricing.workUnit reservation.workUnits =
      .ok reservation.reservedMinor)
    (exposure : accounting.reservedMinor.val + accounting.observedOverReservationMinor.val +
      reservation.reservedMinor.val ≤ accounting.pricing.ceilingMinor.val)
    (room : accounting.attempts.length < maxSourceEntries)
    (next : accounting.nextOrdinal.val + 1 ≤ 2 ^ 32 - 1) :
    Admitted accounting.pricing opening accounting.attempts ⟨reservation, .unknown⟩ where
  ordinal := ordinal ▸ accounted.ordinal
  next := accounted.ordinal ▸ next
  capacity := room
  quoted := quoted
  exposure := by
    rw [← accounted.reserved, ← accounted.overage]
    exact exposure
  charge := trivial
  observed := by
    rw [← accounted.observed]
    exact (add_zero accounting.observedMinor.val).le.trans accounting.observedMinor.upper

/-- An attempt under the ceiling is appended, if there is room for it. -/
theorem reserveRecovered_spec {reservation : MonetaryReservation}
    (ordinal : reservation.ordinal = accounting.nextOrdinal)
    (quoted : accounting.pricing.quote accounting.pricing.workUnit reservation.workUnits =
      .ok reservation.reservedMinor)
    (exposure : accounting.reservedMinor.val + accounting.observedOverReservationMinor.val +
      reservation.reservedMinor.val ≤ accounting.pricing.ceilingMinor.val) :
    (reserveRecovered reservation).wp
      (fun _ after => Accounted opening after ∧
        Turned accounting after (accounting.attempts ++ [⟨reservation, .unknown⟩]))
      (fun _ after => after = accounting ∧
        ¬Admitted accounting.pricing opening accounting.attempts ⟨reservation, .unknown⟩)
      accounting := by
  obtain ⟨reserved, unknown, unknownWithin, overage, -⟩ := accounted.bounds
  have nonneg := accounting.pricing.quote_nonneg quoted
  have ceiling := accounting.pricing.ceilingMinor.upper
  have least : minI64 ≤ 0 := by decide
  unfold reserveRecovered ensureCapacity
  simp only [wp_bind, wp_get, wp_refuseIf, wp_orRefuse, wp_set]
  refine ⟨fun full => ⟨trivial, fun admitted => full admitted.capacity⟩, fun room => ⟨?_, ?_⟩⟩
  · intro past
    exact absurd ⟨by omega, by omega⟩ (I64.checked_eq_none.mp past)
  intro reservedTotal sum
  replace sum := I64.checked_eq_some.mp sum
  refine ⟨fun past => ?_, fun _ => ⟨?_, ?_⟩⟩
  · have fits : reservedTotal.val ≤ accounting.pricing.ceilingMinor.val := by omega
    exact absurd past (not_lt.mpr fits)
  · intro past
    exact absurd ⟨by omega, by omega⟩ (I64.checked_eq_none.mp past)
  intro unknownTotal sum'
  replace sum' := I64.checked_eq_some.mp sum'
  refine ⟨fun past => ⟨trivial, fun admitted => ?_⟩, fun nextOrdinal next => ?_⟩
  · have last := Word.checkedAdd_eq_none.mp past
    exact absurd (accounted.ordinal ▸ admitted.next) (not_le.mpr last)
  · have next := Word.checkedAdd_eq_some.mp next
    have turned : Turned accounting
        { accounting with
          reservedMinor := reservedTotal
          unknownReservationMinor := unknownTotal
          attempts := accounting.attempts ++ [⟨reservation, .unknown⟩]
          nextOrdinal := nextOrdinal }
        (accounting.attempts ++ [⟨reservation, .unknown⟩]) := ⟨rfl, rfl, rfl⟩
    exact ⟨accounted.grown (accounted.admits ordinal quoted exposure (not_not.mp room) (by
      rw [show accounting.nextOrdinal.val + 1 = nextOrdinal.val from next]
      exact nextOrdinal.upper)) turned sum.symm rfl sum'.symm rfl next.symm, turned⟩

theorem reserveReplayed_spec (ordinal : reservation.ordinal = accounting.nextOrdinal)
    (quoted : accounting.pricing.quote accounting.pricing.workUnit reservation.workUnits =
      .ok reservation.reservedMinor) :
    (reserveReplayed reservation).wp
      (fun _ after => Accounted opening after ∧
        Turned accounting after (accounting.attempts ++ [⟨reservation, .unknown⟩]))
      (fun _ after => after = accounting ∧
        ¬Admitted accounting.pricing opening accounting.attempts ⟨reservation, .unknown⟩)
      accounting := by
  have below : Admitted accounting.pricing opening accounting.attempts ⟨reservation, .unknown⟩ →
      accounting.reservedMinor.val + accounting.observedOverReservationMinor.val +
        reservation.reservedMinor.val ≤ accounting.pricing.ceilingMinor.val := by
    intro admitted
    rw [accounted.reserved, accounted.overage]
    exact admitted.exposure
  obtain ⟨reserved, -, -, overage, -⟩ := accounted.bounds
  have nonneg := accounting.pricing.quote_nonneg quoted
  have ceiling := accounting.pricing.ceilingMinor.upper
  have least : minI64 ≤ 0 := by decide
  unfold reserveReplayed
  simp only [wp_bind, wp_get, wp_refuseIf, wp_orRefuse]
  refine ⟨fun past => ⟨trivial, fun admitted => ?_⟩, fun priorExposure prior => ⟨?_, ?_⟩⟩
  · have fits := below admitted
    exact absurd ⟨by omega, by omega⟩ (I64.checked_eq_none.mp past)
  · refine fun past => ⟨trivial, fun admitted => ?_⟩
    have prior := I64.checked_eq_some.mp prior
    have fits := below admitted
    exact absurd ⟨by omega, by omega⟩ (I64.checked_eq_none.mp past)
  intro admissionExposure sum
  have prior := I64.checked_eq_some.mp prior
  have sum := I64.checked_eq_some.mp sum
  refine ⟨fun past => ⟨trivial, fun admitted => ?_⟩, fun fits => ?_⟩
  · have fits := below admitted
    have past : accounting.pricing.ceilingMinor.val < admissionExposure.val := past
    omega
  · have fits : admissionExposure.val ≤ accounting.pricing.ceilingMinor.val := not_lt.mp fits
    exact accounted.reserveRecovered_spec ordinal quoted (by omega)

theorem reserve_spec (workUnit : String) (workUnits : I64) : (reserve workUnit workUnits).wp
      (fun reservation after => reservation.ordinal = accounting.nextOrdinal ∧
        accounting.pricing.quote workUnit workUnits = .ok reservation.reservedMinor ∧
        accounting.reservedMinor.val + accounting.observedOverReservationMinor.val +
          reservation.reservedMinor.val ≤ accounting.pricing.ceilingMinor.val ∧
        Accounted opening after ∧
        Turned accounting after (accounting.attempts ++ [⟨reservation, .unknown⟩]))
      (fun _ after => SameTotals accounting after) accounting := by
  have same : SameTotals accounting accounting := ⟨accounting.failure, rfl⟩
  unfold reserve ensureCapacity
  simp only [wp_bind, wp_get, wp_need]
  refine ⟨fun _ _ => same, fun _ _ => ⟨fun _ _ => same, fun reservedMinor quoted => ?_⟩⟩
  refine ⟨fun _ _ => same, fun _ _ => wp_orFailStop (fun _ _ same => same) ?_⟩
  intro priorExposure prior
  refine wp_bind _ _ |>.mpr (wp_orFailStop (fun _ _ same => same) ?_)
  intro admissionExposure sum
  have prior := I64.checked_eq_some.mp prior
  have sum := I64.checked_eq_some.mp sum
  simp only [wp_bind, wp_refuseIf]
  refine ⟨fun _ => same, fun fits => ?_⟩
  have exposure : accounting.reservedMinor.val + accounting.observedOverReservationMinor.val +
      reservedMinor.val ≤ accounting.pricing.ceilingMinor.val := by
    have fits : admissionExposure.val ≤ accounting.pricing.ceilingMinor.val := not_lt.mp fits
    omega
  have unit := accounting.pricing.quote_unit quoted
  refine wp_mono (@reserveRecovered_spec _ _ accounted
    ⟨accounting.nextOrdinal, workUnits, reservedMinor⟩ rfl (unit ▸ quoted) exposure) ?_ ?_
  · exact fun _ after grown => ⟨rfl, quoted, exposure, grown⟩
  · exact fun _ after refused => refused.1 ▸ same

theorem findAttempt_eq_ok
    {attempt : MonetaryAttempt} : accounting.findAttempt reservation = .ok (index, attempt) ↔
      reservation.ordinal.val = opening.nextOrdinal.val + index ∧
        accounting.attempts[index]? = some attempt := by
  have ordinal := accounted.ordinal
  have upper := accounting.nextOrdinal.upper
  unfold findAttempt attemptCount
  simp only [bind_eq_ok, orRefuse_eq_ok, Word.tryFrom_eq_some, Word.checkedSub_eq_some]
  constructor
  · rintro ⟨count, length, base, above, place, difference, found, here, same⟩
    obtain ⟨rfl, rfl⟩ := Prod.mk.inj (Except.ok.inj same)
    exact ⟨by omega, here⟩
  · rintro ⟨numbered, here⟩
    have top := reservation.ordinal.upper
    exact ⟨⟨accounting.attempts.length, by omega⟩, rfl, opening.nextOrdinal, by
      rw [ordinal, add_comm], ⟨index, by omega⟩, numbered, attempt, here, rfl⟩

theorem numbered {attempt : MonetaryAttempt} (here : accounting.attempts[index]? = some attempt) :
    attempt.reservation.ordinal.val = opening.nextOrdinal.val + index := by
  obtain ⟨below, -⟩ := List.getElem?_eq_some_iff.mp here
  rw [(accounted.admitted.at_place here).ordinal, List.length_take_of_le below.le]

theorem charged {earlier : List MonetaryAttempt}
    (last : accounting.attempts = earlier ++ [⟨reservation, .unknown⟩])
    (admitted : Admitted accounting.pricing opening earlier ⟨reservation, charge⟩)
    (turned : Turned accounting after (earlier ++ [⟨reservation, charge⟩]))
    (known : charge ≠ .unknown)
    (reserved : after.reservedMinor = accounting.reservedMinor)
    (observed : after.observedMinor.val =
      accounting.observedMinor.val + MonetaryAttempt.observed ⟨reservation, charge⟩)
    (unknown : after.unknownReservationMinor.val =
      accounting.unknownReservationMinor.val - reservation.reservedMinor.val)
    (overage : after.observedOverReservationMinor.val =
      accounting.observedOverReservationMinor.val + MonetaryAttempt.overage ⟨reservation, charge⟩)
    (ordinal : after.nextOrdinal = accounting.nextOrdinal) : Accounted opening after := by
  have before := accounted.admitted
  rw [last] at before
  refine ⟨?_, ?_, ?_, ?_, ?_, turned.pricing ▸ accounted.opened, ?_⟩
  · rw [reserved, accounted.reserved, turned.attempts, last, total_append, total_append]
    rfl
  · rw [observed, accounted.observed, turned.attempts, last, total_append, total_append]
    simp only [MonetaryAttempt.observed]
    omega
  · rw [unknown, accounted.unknown, turned.attempts, last, total_append, total_append]
    simp only [MonetaryAttempt.unknown, MonetaryAttempt.reserved, if_neg known, if_true]
    omega
  · rw [overage, accounted.overage, turned.attempts, last, total_append, total_append]
    simp only [MonetaryAttempt.overage, if_neg known, if_true]
    omega
  · rw [ordinal, accounted.ordinal, turned.attempts, last, List.length_append, List.length_append]
    rfl
  · rw [turned.attempts, turned.pricing]
    exact throughout_append.mpr ⟨(throughout_append.mp before).1, admitted⟩

theorem charge_fits {earlier : List MonetaryAttempt}
    (last : accounting.attempts = earlier ++ [⟨reservation, .unknown⟩])
    (admitted : Admitted accounting.pricing opening earlier ⟨reservation, charge⟩) :
    accounting.observedMinor.val + MonetaryAttempt.observed ⟨reservation, charge⟩ ≤ maxI64 := by
  rw [accounted.observed, last, total_append]
  simpa [MonetaryAttempt.observed] using admitted.observed

omit accounted in
theorem overageOf_eq_some (amountMinor : I64) (reserved : 0 ≤ reservation.reservedMinor.val) :
    ∃ overage, overageOf reservation amountMinor = some overage ∧
      overage.val = max 0 (amountMinor.val - reservation.reservedMinor.val) := by
  have upper := amountMinor.upper
  have least : minI64 ≤ 0 := by decide
  unfold overageOf
  split_ifs with above
  · have above : reservation.reservedMinor.val < amountMinor.val := above
    refine ⟨⟨_, by omega, by omega⟩, I64.checked_eq_some.mpr rfl, ?_⟩
    exact (max_eq_right (sub_nonneg.mpr above.le)).symm
  · have below : amountMinor.val ≤ reservation.reservedMinor.val := not_lt.mp above
    exact ⟨0, rfl, (max_eq_left (sub_nonpos.mpr below)).symm⟩

/-- **A charge that is recorded.** It is that of the last attempt, it is in the terms of the pricing,
and the totals follow it. A refusal changes no total. -/
theorem recordCharge_spec (reservation : MonetaryReservation) (charge : ProviderChargeObservation)
    (orderly : Orderly accounting reservation charge) :
    (recordCharge reservation charge).wp
      (fun _ after => Accounted opening after ∧ (charge = .unknown ∧ after = accounting ∨
        charge ≠ .unknown ∧ ∃ earlier, accounting.attempts = earlier ++ [⟨reservation, .unknown⟩] ∧
          Turned accounting after (earlier ++ [⟨reservation, charge⟩])))
      (fun _ after => SameTotals accounting after ∧ ∀ earlier, accounting.failure = none →
        accounting.attempts = earlier ++ [⟨reservation, .unknown⟩] →
          ¬Admitted accounting.pricing opening earlier ⟨reservation, charge⟩) accounting := by
  have same : SameTotals accounting accounting := ⟨accounting.failure, rfl⟩
  have located : ∀ earlier, accounting.attempts = earlier ++ [⟨reservation, .unknown⟩] →
      accounting.findAttempt reservation = .ok (earlier.length, ⟨reservation, .unknown⟩) := by
    intro earlier split
    have here : accounting.attempts[earlier.length]? = some ⟨reservation, .unknown⟩ := by
      rw [split, List.getElem?_concat_length]
    exact accounted.findAttempt_eq_ok.mpr ⟨accounted.numbered here, here⟩
  unfold recordCharge
  rw [wp_bind, wp_get]
  refine need_step (fun _ dead => ⟨same, fun earlier live => ?_⟩) fun _ _ => ?_
  · rw [ensureLive, live] at dead
    exact nomatch dead
  refine need_step (fun _ missing => ⟨same, fun earlier _ split => ?_⟩) ?_
  · rw [located earlier split] at missing
    exact nomatch missing
  rintro ⟨index, attempt⟩ found
  have place : ∀ earlier, accounting.attempts = earlier ++ [⟨reservation, .unknown⟩] →
      attempt = ⟨reservation, .unknown⟩ := fun earlier split =>
    (Prod.mk.inj (Except.ok.inj (found.symm.trans (located earlier split)))).2
  refine refuseIf_step (fun other => ⟨same, fun earlier _ split => ?_⟩) fun matching => ?_
  · exact absurd (congrArg MonetaryAttempt.reservation (place earlier split)) other
  refine refuseIf_step (fun known => ⟨same, fun earlier _ split => ?_⟩) fun unknown => ?_
  · exact absurd (congrArg MonetaryAttempt.charge (place earlier split)) known
  have here := (accounted.findAttempt_eq_ok.mp found).2
  obtain ⟨reservation', charge'⟩ := attempt
  obtain rfl : reservation' = reservation := not_not.mp matching
  obtain rfl : charge' = .unknown := not_not.mp unknown
  cases charge with
  | unknown => exact ⟨accounted, Or.inl ⟨rfl, rfl⟩⟩
  | observed currency minorUnitExponent amountMinor =>
    obtain ⟨earlier, split, rfl⟩ := orderly.last (by simp) here
    have fits : ∀ other, accounting.attempts = other ++ [⟨reservation', .unknown⟩] →
        Admitted accounting.pricing opening other
          ⟨reservation', .observed currency minorUnitExponent amountMinor⟩ →
        accounting.observedMinor.val + amountMinor.val ≤ maxI64 := fun other last admitted =>
      accounted.charge_fits last admitted
    have before := accounted.admitted earlier _ [] split
    have reservedNonneg : 0 ≤ reservation'.reservedMinor.val := before.sound.reserved
    obtain ⟨reserved, unknown, unknownWithin, overage, overageWithin⟩ := accounted.bounds
    have least : minI64 ≤ -maxI64 := by decide
    have upper := accounting.reservedMinor.upper
    have upper' := reservation'.reservedMinor.upper
    refine refuseIf_step (fun other => ⟨same, fun _ _ _ admitted => ?_⟩) fun sameCurrency => ?_
    · exact other admitted.charge.1
    refine refuseIf_step (fun other => ⟨same, fun _ _ _ admitted => ?_⟩) fun sameScale => ?_
    · exact other admitted.charge.2.1
    refine refuseIf_step (fun low => ⟨same, fun _ _ _ admitted => ?_⟩) fun nonneg => ?_
    · exact absurd admitted.charge.2.2 (not_le.mpr low)
    obtain ⟨over', overageIs, overageVal⟩ := overageOf_eq_some amountMinor reservedNonneg
    rw [overageIs]
    refine orFailStop_step (nomatch ·) fun _ found => ?_
    obtain rfl := Option.some.inj found
    refine orFailStop_step (fun past _ same => ⟨same, fun other _ last admitted => ?_⟩) ?_
    · exact absurd ⟨by omega, fits other last admitted⟩ (I64.checked_eq_none.mp past)
    intro observedTotal sum
    have sum := I64.checked_eq_some.mp sum
    have observedUpper := observedTotal.upper
    refine orFailStop_step (fun past => ?_) fun unknownTotal difference => ?_
    · exact absurd ⟨by omega, by omega⟩ (I64.checked_eq_none.mp past)
    have difference := I64.checked_eq_some.mp difference
    refine orFailStop_step (fun past => ?_) fun overageTotal sum' => ?_
    · exact absurd ⟨by omega, by omega⟩ (I64.checked_eq_none.mp past)
    have sum' := I64.checked_eq_some.mp sum'
    have admitted : Admitted accounting.pricing opening earlier
        ⟨reservation', .observed currency minorUnitExponent amountMinor⟩ :=
      { before with
        charge := ⟨not_not.mp sameCurrency, not_not.mp sameScale, not_lt.mp nonneg⟩
        observed := by
          have known := accounted.observed
          rw [split, total_append] at known
          have nothing : MonetaryAttempt.observed ⟨reservation', .unknown⟩ = 0 := rfl
          show _ + _ + amountMinor.val ≤ maxI64
          omega }
    have turned : (accounting.attempts.set earlier.length ⟨reservation', .observed currency
        minorUnitExponent amountMinor⟩) = earlier ++ [⟨reservation', .observed currency
        minorUnitExponent amountMinor⟩] := by
      rw [split, List.set_append_right _ _ le_rfl, Nat.sub_self, List.set_cons_zero]
    refine ⟨accounted.charged split admitted ⟨rfl, turned, rfl⟩ (by simp) rfl sum.symm
      difference.symm ?_ rfl, Or.inr ⟨by simp, earlier, split, rfl, turned, rfl⟩⟩
    rw [← sum', overageVal]
    rfl

end Accounted

end Semaprax.MonetaryPricing
