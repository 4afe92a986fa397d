/-
**Operator pricing** (`live_invocation/pricing.rs`).

A price for each unit of work and a ceiling. An attempt is reserved at its quote before it is
dispatched, and what a provider charges for it is recorded afterwards; a restart rebuilds the account
from the attempts that were persisted.

* `ValidatedPricing`, `MonetaryCarry`, `PricedMonetaryCarry` — what may be started from.
* `MonetaryAccounting.reserve`, `MonetaryAccounting.recordCharge` — the calls of a live invocation.
* `MonetaryAccounting.resumeWithPricedCarry`, `MonetaryAccounting.persistedCarry` — the replay.
-/

import Semaprax.Library.Programs
import Semaprax.Library.Saturating
import Semaprax.Library.Words

namespace Semaprax.MonetaryPricing

open Library

/-- Why a call is refused. -/
structure BudgetRefusal where
  reason : String
deriving DecidableEq, Repr

def maxSourceEntries : Nat := 65536

inductive PricingConfigError
  | invalidWorkUnit
  | invalidCurrency
  | invalidMinorUnitExponent
  | nonPositiveQuote
  | negativeCeiling
deriving DecidableEq, Repr

def validWorkUnit (value : String) : Bool :=
  value ≠ "" && value.utf8ByteSize ≤ 64 && value.toList.all fun letter =>
    letter.isAlphanum || letter = '_' || letter = '-' || letter = '.' || letter = ':' || letter = '/'

def validCurrency (value : String) : Bool :=
  value.utf8ByteSize = 3 && value.toList.all Char.isUpper

/-- The policy of an operator for one unit of work. -/
structure ValidatedPricing where
  workUnit : String
  currency : String
  minorUnitExponent : UInt8
  pricePerWorkUnitMinor : I64
  ceilingMinor : I64
  workUnitValid : validWorkUnit workUnit = true
  currencyValid : validCurrency currency = true
  exponentSmall : minorUnitExponent ≤ 9
  pricePositive : 0 < pricePerWorkUnitMinor.val
  ceilingNonneg : 0 ≤ ceilingMinor.val
deriving DecidableEq

namespace ValidatedPricing

def new (workUnit currency : String) (minorUnitExponent : UInt8)
    (pricePerWorkUnitMinor ceilingMinor : I64) : Except PricingConfigError ValidatedPricing :=
  if unit : validWorkUnit workUnit = true then
    if name : validCurrency currency = true then
      if exponent : minorUnitExponent > 9 then .error .invalidMinorUnitExponent
      else if price : pricePerWorkUnitMinor.val ≤ 0 then .error .nonPositiveQuote
      else if ceiling : ceilingMinor.val < 0 then .error .negativeCeiling
      else .ok ⟨workUnit, currency, minorUnitExponent, pricePerWorkUnitMinor, ceilingMinor, unit,
        name, UInt8.not_lt.mp exponent, not_le.mp price, not_lt.mp ceiling⟩
    else .error .invalidCurrency
  else .error .invalidWorkUnit

def quote (pricing : ValidatedPricing) (workUnit : String) (workUnits : I64) :
    Except BudgetRefusal I64 :=
  if workUnit ≠ pricing.workUnit then .error ⟨"pricing_unit_mismatch"⟩
  else if workUnits.val < 0 then .error ⟨"pricing_negative_work"⟩
  else if workUnits = 0 then .error ⟨"pricing_zero_work"⟩
  else
    match workUnits.checkedMul pricing.pricePerWorkUnitMinor with
    | some product => .ok product
    | none => .error ⟨"pricing_product_overflow"⟩

end ValidatedPricing

def refuseIf (condition : Prop) [Decidable condition] (reason : String) :
    Except BudgetRefusal Unit :=
  if condition then .error ⟨reason⟩ else .ok ()

def orRefuse (reason : String) : Option A → Except BudgetRefusal A
  | some value => .ok value
  | none => .error ⟨reason⟩

/-- What a predecessor without monetary evidence has reserved. -/
structure MonetaryCarry where
  workUnits : I64
  workUnit : String
  currency : String
  minorUnitExponent : UInt8
  pricePerWorkUnitMinor : I64
  reservedMinor : I64
  reservedNonneg : 0 ≤ reservedMinor.val

/-- The amounts that a carry may have. -/
structure Carriable (reserved observed unknown overage : I64) : Prop where
  reservedNonneg : 0 ≤ reserved.val
  observedNonneg : 0 ≤ observed.val
  unknownNonneg : 0 ≤ unknown.val
  overageNonneg : 0 ≤ overage.val
  unknownWithin : unknown.val ≤ reserved.val
  overageWithin : overage.val ≤ observed.val
  exposure : reserved.val + overage.val ≤ maxI64

/-- The totals of a priced predecessor. -/
structure PricedMonetaryCarry where
  pricing : ValidatedPricing
  reservedMinor : I64
  observedMinor : I64
  unknownReservationMinor : I64
  observedOverReservationMinor : I64
  nextOrdinal : U32
  carriable : Carriable reservedMinor observedMinor unknownReservationMinor
    observedOverReservationMinor

variable {workUnit : String} {workUnits amount : I64}

theorem checkedMul_nonneg {units price product : I64} (unitsNonneg : 0 ≤ units.val)
    (priceNonneg : 0 ≤ price.val) (same : units.checkedMul price = some product) :
    0 ≤ product.val := by
  rw [← I64.checked_eq_some.mp same]
  exact mul_nonneg unitsNonneg priceNonneg

theorem ValidatedPricing.quote_nonneg (pricing : ValidatedPricing)
    (quoted : pricing.quote workUnit workUnits = .ok amount) :
    0 ≤ amount.val := by
  unfold ValidatedPricing.quote at quoted
  split_ifs at quoted with unit negative none'
  cases product : workUnits.checkedMul pricing.pricePerWorkUnitMinor with
  | none => simp [product] at quoted
  | some amount' =>
    rw [product] at quoted
    obtain rfl := Except.ok.inj quoted
    exact checkedMul_nonneg (not_lt.mp negative) pricing.pricePositive.le product

theorem ValidatedPricing.quote_unit (pricing : ValidatedPricing)
    (quoted : pricing.quote workUnit workUnits = .ok amount) :
    workUnit = pricing.workUnit := by
  by_contra other
  rw [ValidatedPricing.quote, if_pos other] at quoted
  exact nomatch quoted

namespace MonetaryCarry

/-- The reservations of a predecessor, at the price of today. -/
def fromLegacyWork (pricing : ValidatedPricing) (workUnits : I64) :
    Except BudgetRefusal MonetaryCarry :=
  if workUnits.val < 0 then .error ⟨"pricing_negative_work"⟩
  else if workUnits = 0 then
    .ok ⟨workUnits, pricing.workUnit, pricing.currency, pricing.minorUnitExponent,
      pricing.pricePerWorkUnitMinor, 0, le_rfl⟩
  else
    match quoted : pricing.quote pricing.workUnit workUnits with
    | .ok reservedMinor =>
      .ok ⟨workUnits, pricing.workUnit, pricing.currency, pricing.minorUnitExponent,
        pricing.pricePerWorkUnitMinor, reservedMinor, pricing.quote_nonneg quoted⟩
    | .error refusal => .error refusal

def validateDestination (carry : MonetaryCarry) (pricing : ValidatedPricing) :
    Except BudgetRefusal Unit := do
  refuseIf (carry.workUnit ≠ pricing.workUnit) "pricing_unit_mismatch"
  refuseIf (carry.currency ≠ pricing.currency) "pricing_currency_mismatch"
  refuseIf (carry.minorUnitExponent ≠ pricing.minorUnitExponent) "pricing_scale_mismatch"
  refuseIf (carry.pricePerWorkUnitMinor ≠ pricing.pricePerWorkUnitMinor) "pricing_rate_mismatch"
  let expected ← orRefuse "pricing_product_overflow"
    (carry.workUnits.checkedMul pricing.pricePerWorkUnitMinor)
  refuseIf (carry.reservedMinor ≠ expected) "pricing_unit_mismatch"

end MonetaryCarry

/-- The condition of `fromValidated`, put together. -/
theorem carriable_iff {reserved observed unknown overage : I64} :
    ¬(reserved.val < 0 ∨ observed.val < 0 ∨ unknown.val < 0 ∨ overage.val < 0 ∨
      unknown > reserved ∨ overage > observed ∨ reserved.checkedAdd overage = none) ↔
      Carriable reserved observed unknown overage := by
  rw [I64.checkedAdd, I64.checked_eq_none]
  constructor
  · intro fits
    simp only [not_or, not_lt, not_not] at fits
    obtain ⟨first, second, third, fourth, within, above, -, sum⟩ := fits
    exact ⟨first, second, third, fourth, not_lt.mp within, not_lt.mp above, sum⟩
  · rintro ⟨first, second, third, fourth, within, above, sum⟩ fails
    have least : minI64 ≤ 0 := by decide
    rcases fails with low | low | low | low | past | past | past
    · exact absurd low (not_lt.mpr first)
    · exact absurd low (not_lt.mpr second)
    · exact absurd low (not_lt.mpr third)
    · exact absurd low (not_lt.mpr fourth)
    · exact absurd past (not_lt.mpr within)
    · exact absurd past (not_lt.mpr above)
    · exact past ⟨by omega, sum⟩

namespace PricedMonetaryCarry

def fromValidated (pricing : ValidatedPricing)
    (reservedMinor observedMinor unknownReservationMinor observedOverReservationMinor : I64)
    (nextOrdinal : U32) : Except BudgetRefusal PricedMonetaryCarry :=
  if refused : reservedMinor.val < 0 ∨ observedMinor.val < 0 ∨ unknownReservationMinor.val < 0 ∨
      observedOverReservationMinor.val < 0 ∨ unknownReservationMinor > reservedMinor ∨
      observedOverReservationMinor > observedMinor ∨
      reservedMinor.checkedAdd observedOverReservationMinor = none then
    .error ⟨"pricing_total_overflow"⟩
  else
    .ok ⟨pricing, reservedMinor, observedMinor, unknownReservationMinor,
      observedOverReservationMinor, nextOrdinal, carriable_iff.mp refused⟩

/-- The destination prices as the predecessor did, and its ceiling is not higher. -/
def validateDestination (carry : PricedMonetaryCarry) (destination : ValidatedPricing) :
    Except BudgetRefusal Unit := do
  refuseIf (carry.pricing.workUnit ≠ destination.workUnit) "pricing_unit_mismatch"
  refuseIf (carry.pricing.currency ≠ destination.currency) "pricing_currency_mismatch"
  refuseIf (carry.pricing.minorUnitExponent ≠ destination.minorUnitExponent)
    "pricing_scale_mismatch"
  refuseIf (carry.pricing.pricePerWorkUnitMinor ≠ destination.pricePerWorkUnitMinor)
    "pricing_rate_mismatch"
  refuseIf (destination.ceilingMinor > carry.pricing.ceilingMinor) "pricing_budget_exhausted"
  refuseIf (carry.reservedMinor > destination.ceilingMinor) "pricing_budget_exhausted"

end PricedMonetaryCarry

/-- An attempt at its quote. -/
structure MonetaryReservation where
  ordinal : U32
  workUnits : I64
  reservedMinor : I64
deriving DecidableEq

/-- A reservation that was persisted, if the quote is still the same. -/
def MonetaryReservation.recover (pricing : ValidatedPricing) (ordinal : U32)
    (workUnits reservedMinor : I64) : Except BudgetRefusal MonetaryReservation := do
  let quoted ← pricing.quote pricing.workUnit workUnits
  refuseIf (reservedMinor ≠ quoted) "pricing_unit_mismatch"
  pure ⟨ordinal, workUnits, reservedMinor⟩

/-- What a provider reports of the price of an attempt. -/
inductive ProviderChargeObservation
  | unknown
  | observed (currency : String) (minorUnitExponent : UInt8) (amountMinor : I64)
deriving DecidableEq

structure MonetaryAttempt where
  reservation : MonetaryReservation
  charge : ProviderChargeObservation
deriving DecidableEq

structure MonetaryAccounting where
  pricing : ValidatedPricing
  attempts : List MonetaryAttempt
  reservedMinor : I64
  observedMinor : I64
  unknownReservationMinor : I64
  observedOverReservationMinor : I64
  nextOrdinal : U32
  failure : Option String

/-- A check that refuses. -/
def need (result : Except BudgetRefusal A) : Prog MonetaryAccounting BudgetRefusal A :=
  match result with
  | .ok value => pure value
  | .error refusal => Prog.stop refusal

namespace MonetaryAccounting

def new (pricing : ValidatedPricing) : MonetaryAccounting where
  pricing := pricing
  attempts := []
  reservedMinor := 0
  observedMinor := 0
  unknownReservationMinor := 0
  observedOverReservationMinor := 0
  nextOrdinal := 0
  failure := none

def ensureCapacity (accounting : MonetaryAccounting) : Except BudgetRefusal Unit :=
  refuseIf (¬accounting.attempts.length < maxSourceEntries) "pricing_attempt_capacity"

def ensureLive (accounting : MonetaryAccounting) : Except BudgetRefusal Unit :=
  match accounting.failure with
  | none => .ok ()
  | some reason => .error ⟨reason⟩

/-- Refuse, and every later call as well. -/
def failStop (reason : String) : Prog MonetaryAccounting BudgetRefusal A := do
  let accounting ← Prog.get
  Prog.set
    { accounting with
      failure := some (accounting.failure.getD reason) }
  Prog.stop ⟨reason⟩

/-- The value, or a refusal of this call and all later ones. -/
def orFailStop (reason : String) : Option A → Prog MonetaryAccounting BudgetRefusal A
  | some value => pure value
  | none => failStop reason

/-- Append an attempt that nothing is known of yet. -/
def reserveRecovered (reservation : MonetaryReservation) :
    Prog MonetaryAccounting BudgetRefusal Unit := do
  let accounting ← Prog.get
  need accounting.ensureCapacity
  let reservedTotal ← need (orRefuse "pricing_total_overflow"
    (accounting.reservedMinor.checkedAdd reservation.reservedMinor))
  need (refuseIf (reservedTotal > accounting.pricing.ceilingMinor) "pricing_budget_exhausted")
  let unknownTotal ← need (orRefuse "pricing_total_overflow"
    (accounting.unknownReservationMinor.checkedAdd reservation.reservedMinor))
  let nextOrdinal ← need (orRefuse "pricing_total_overflow" (accounting.nextOrdinal.checkedAdd 1))
  Prog.set
    { accounting with
      reservedMinor := reservedTotal
      unknownReservationMinor := unknownTotal
      attempts := accounting.attempts ++ [⟨reservation, .unknown⟩]
      nextOrdinal := nextOrdinal }

/-- Admit an attempt that was persisted. -/
def reserveReplayed (reservation : MonetaryReservation) :
    Prog MonetaryAccounting BudgetRefusal Unit := do
  let accounting ← Prog.get
  let priorExposure ← need (orRefuse "pricing_total_overflow"
    (accounting.reservedMinor.checkedAdd accounting.observedOverReservationMinor))
  let admissionExposure ← need (orRefuse "pricing_total_overflow"
    (priorExposure.checkedAdd reservation.reservedMinor))
  need (refuseIf (admissionExposure > accounting.pricing.ceilingMinor) "pricing_budget_exhausted")
  reserveRecovered reservation

/-- Reserve an attempt before it is dispatched. -/
def reserve (workUnit : String) (workUnits : I64) :
    Prog MonetaryAccounting BudgetRefusal MonetaryReservation := do
  let accounting ← Prog.get
  need accounting.ensureLive
  let reservedMinor ← need (accounting.pricing.quote workUnit workUnits)
  need accounting.ensureCapacity
  let priorExposure ← orFailStop "pricing_total_overflow"
    (accounting.reservedMinor.checkedAdd accounting.observedOverReservationMinor)
  let admissionExposure ← orFailStop "pricing_total_overflow"
    (priorExposure.checkedAdd reservedMinor)
  need (refuseIf (admissionExposure > accounting.pricing.ceilingMinor) "pricing_budget_exhausted")
  let reservation := ⟨accounting.nextOrdinal, workUnits, reservedMinor⟩
  reserveRecovered reservation
  pure reservation

/-- The number of attempts, if it is a `u32`. -/
def attemptCount (accounting : MonetaryAccounting) : Option U32 :=
  Word.tryFrom accounting.attempts.length

def findAttempt (accounting : MonetaryAccounting) (reservation : MonetaryReservation) :
    Except BudgetRefusal (Nat × MonetaryAttempt) := do
  let count ← orRefuse "pricing_unknown_reservation" accounting.attemptCount
  let ordinalBase ← orRefuse "pricing_unknown_reservation"
    (accounting.nextOrdinal.checkedSub count)
  let index ← orRefuse "pricing_unknown_reservation"
    (reservation.ordinal.checkedSub ordinalBase)
  let attempt ← orRefuse "pricing_unknown_reservation" accounting.attempts[index.val]?
  pure (index.val, attempt)

def overageOf (reservation : MonetaryReservation) (amountMinor : I64) : Option I64 :=
  if amountMinor > reservation.reservedMinor then amountMinor.checkedSub reservation.reservedMinor
  else some 0

def recordCharge (reservation : MonetaryReservation) (charge : ProviderChargeObservation) :
    Prog MonetaryAccounting BudgetRefusal Unit := do
  let accounting ← Prog.get
  need accounting.ensureLive
  let (index, attempt) ← need (accounting.findAttempt reservation)
  need (refuseIf (attempt.reservation ≠ reservation) "pricing_unknown_reservation")
  need (refuseIf (attempt.charge ≠ .unknown) "pricing_already_observed")
  match charge with
  | .unknown => pure ()
  | .observed currency minorUnitExponent amountMinor => do
      need (refuseIf (currency ≠ accounting.pricing.currency) "pricing_currency_mismatch")
      need (refuseIf (minorUnitExponent ≠ accounting.pricing.minorUnitExponent)
        "pricing_scale_mismatch")
      need (refuseIf (amountMinor.val < 0) "pricing_negative_observation")
      let overage ← orFailStop "pricing_total_overflow" (overageOf reservation amountMinor)
      let observedTotal ← orFailStop "pricing_total_overflow"
        (accounting.observedMinor.checkedAdd amountMinor)
      let unknownTotal ← orFailStop "pricing_total_overflow"
        (accounting.unknownReservationMinor.checkedSub reservation.reservedMinor)
      let overageTotal ← orFailStop "pricing_total_overflow"
        (accounting.observedOverReservationMinor.checkedAdd overage)
      Prog.set
        { accounting with
          observedMinor := observedTotal
          unknownReservationMinor := unknownTotal
          observedOverReservationMinor := overageTotal
          attempts := accounting.attempts.set index ⟨attempt.reservation, charge⟩ }

/-- Start after a predecessor without monetary evidence: what it reserved is unknown. -/
def withLegacyCarry (pricing : ValidatedPricing) (carry : MonetaryCarry) :
    Except BudgetRefusal MonetaryAccounting := do
  carry.validateDestination pricing
  refuseIf (carry.reservedMinor > pricing.ceilingMinor) "pricing_budget_exhausted"
  pure
    { new pricing with
      reservedMinor := carry.reservedMinor
      unknownReservationMinor := carry.reservedMinor }

def replayAttempt (expected : MonetaryAccounting → Except BudgetRefusal U32)
    (persisted : MonetaryAttempt) : Prog MonetaryAccounting BudgetRefusal Unit := do
  let accounting ← Prog.get
  let ordinal ← need (expected accounting)
  need (refuseIf (persisted.reservation.ordinal ≠ ordinal) "pricing_unknown_reservation")
  let reservation ← need (MonetaryReservation.recover accounting.pricing ordinal
    persisted.reservation.workUnits persisted.reservation.reservedMinor)
  reserveReplayed reservation
  recordCharge reservation persisted.charge

def replayAttempts (expected : MonetaryAccounting → Except BudgetRefusal U32) :
    List MonetaryAttempt → Prog MonetaryAccounting BudgetRefusal Unit
  | [] => pure ()
  | persisted :: attempts => do
      replayAttempt expected persisted
      replayAttempts expected attempts

/-- The state in which a replay ends. -/
def replayFrom (start : MonetaryAccounting) (replay : Prog MonetaryAccounting BudgetRefusal Unit) :
    Except BudgetRefusal MonetaryAccounting :=
  match replay start with
  | (.ok (), accounting) => .ok accounting
  | (.error refusal, _) => .error refusal

/-- Start fresh, or after a predecessor without monetary evidence. -/
def startLegacy (pricing : ValidatedPricing) :
    Option MonetaryCarry → Except BudgetRefusal MonetaryAccounting
  | some carry => withLegacyCarry pricing carry
  | none => .ok (new pricing)

/-- Rebuild the account of attempts whose ordinals begin at zero. -/
def resumeWithLegacyCarry (pricing : ValidatedPricing) (carry : Option MonetaryCarry)
    (attempts : List MonetaryAttempt) : Except BudgetRefusal MonetaryAccounting := do
  let start ← startLegacy pricing carry
  replayFrom start (replayAttempts
    (fun accounting => orRefuse "pricing_total_overflow" accounting.attemptCount) attempts)

def carried (pricing : ValidatedPricing) (carry : PricedMonetaryCarry) : MonetaryAccounting where
  pricing := pricing
  attempts := []
  reservedMinor := carry.reservedMinor
  observedMinor := carry.observedMinor
  unknownReservationMinor := carry.unknownReservationMinor
  observedOverReservationMinor := carry.observedOverReservationMinor
  nextOrdinal := carry.nextOrdinal
  failure := none

def resumeWithPricedCarry (pricing : ValidatedPricing) (carry : PricedMonetaryCarry)
    (attempts : List MonetaryAttempt) : Except BudgetRefusal MonetaryAccounting := do
  carry.validateDestination pricing
  replayFrom (carried pricing carry)
    (replayAttempts (fun accounting => .ok accounting.nextOrdinal) attempts)

/-- What the account had before its own attempts: the totals less those of a second replay. -/
def persistedCarry (accounting : MonetaryAccounting) :
    Except BudgetRefusal PricedMonetaryCarry := do
  let count ← orRefuse "pricing_total_overflow" accounting.attemptCount
  let baseNext ← orRefuse "pricing_total_overflow" (accounting.nextOrdinal.checkedSub count)
  let empty ← PricedMonetaryCarry.fromValidated accounting.pricing 0 0 0 0 baseNext
  let replayed ← resumeWithPricedCarry accounting.pricing empty accounting.attempts
  let reserved ← orRefuse "pricing_total_overflow"
    (accounting.reservedMinor.checkedSub replayed.reservedMinor)
  let observed ← orRefuse "pricing_total_overflow"
    (accounting.observedMinor.checkedSub replayed.observedMinor)
  let unknown ← orRefuse "pricing_total_overflow"
    (accounting.unknownReservationMinor.checkedSub replayed.unknownReservationMinor)
  let overage ← orRefuse "pricing_total_overflow"
    (accounting.observedOverReservationMinor.checkedSub replayed.observedOverReservationMinor)
  PricedMonetaryCarry.fromValidated accounting.pricing reserved observed unknown overage baseNext

end MonetaryAccounting

end Semaprax.MonetaryPricing
