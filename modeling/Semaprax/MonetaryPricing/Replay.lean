/-
**The replay of priced attempts.**

An account starts fresh, from a predecessor that was carried over, or from attempts that were
persisted. Attempts are replayed exactly if each was admitted, given the earlier ones.

* `replayAttempts_spec` — a replay succeeds exactly on attempts that were admitted.
* `Opens`, `Opens.accounted` — the starts, each with what is carried into the account.
-/

import Semaprax.MonetaryPricing.Accounting

namespace Semaprax.MonetaryPricing

open Library MonetaryAccounting

section Replay

variable {opening : PricedMonetaryCarry} {accounting : MonetaryAccounting}
  {expected : MonetaryAccounting → Except BudgetRefusal U32}

variable {pricing : ValidatedPricing} {attempt : MonetaryAttempt}

theorem Admitted.unknown {earlier : List MonetaryAttempt}
    (admitted : Admitted pricing opening earlier attempt) :
    Admitted pricing opening earlier ⟨attempt.reservation, .unknown⟩ :=
  { admitted with
    charge := trivial
    observed := by
      have nonneg := admitted.sound.observed
      have fits := admitted.observed
      have nothing : MonetaryAttempt.observed ⟨attempt.reservation, .unknown⟩ = 0 := rfl
      omega }

theorem Accounted.fresh (accounted : Accounted opening accounting)
    (member : attempt ∈ accounting.attempts) :
    attempt.reservation.ordinal ≠ accounting.nextOrdinal := by
  intro same
  obtain ⟨index, here⟩ := List.mem_iff_getElem?.mp member
  have numbered := accounted.numbered here
  obtain ⟨below, -⟩ := List.getElem?_eq_some_iff.mp here
  rw [same, accounted.ordinal] at numbered
  omega

theorem recover_eq_ok {ordinal : U32} {workUnits reservedMinor : I64}
    {reservation : MonetaryReservation} :
    MonetaryReservation.recover pricing ordinal workUnits reservedMinor = .ok reservation ↔
      pricing.quote pricing.workUnit workUnits = .ok reservedMinor ∧
        ⟨ordinal, workUnits, reservedMinor⟩ = reservation := by
  unfold MonetaryReservation.recover
  simp only [bind_eq_ok, refuseIf_eq_ok, not_not]
  constructor
  · rintro ⟨quoted, priced, -, rfl, same⟩
    exact ⟨priced, Except.ok.inj same⟩
  · rintro ⟨priced, rfl⟩
    exact ⟨reservedMinor, priced, (), rfl, rfl⟩

theorem replayAttempt_spec (accounted : Accounted opening accounting)
    (live : accounting.failure = none) (expects : expected accounting = .ok accounting.nextOrdinal)
    (persisted : MonetaryAttempt) : (replayAttempt expected persisted).wp
      (fun _ after => Accounted opening after ∧
        Turned accounting after (accounting.attempts ++ [persisted]))
      (fun _ _ => ¬Admitted accounting.pricing opening accounting.attempts persisted)
      accounting := by
  obtain ⟨reservation, charge⟩ := persisted
  unfold replayAttempt
  rw [wp_bind, wp_get]
  refine need_step (fun _ refused => ?_) fun ordinal same => ?_
  · rw [expects] at refused
    exact nomatch refused
  obtain rfl := Except.ok.inj (expects.symm.trans same)
  refine refuseIf_step (fun other admitted => ?_) fun same => ?_
  · exact other (Word.ext_val (admitted.ordinal.trans accounted.ordinal.symm))
  have same : reservation.ordinal = accounting.nextOrdinal := not_not.mp same
  refine need_step (fun refusal failed admitted => ?_) fun recovered recovery => ?_
  · rw [recover_eq_ok.mpr ⟨admitted.quoted, rfl⟩] at failed
    exact nomatch failed
  obtain ⟨quoted, rfl⟩ := recover_eq_ok.mp recovery
  rw [← same]
  rw [wp_bind]
  refine wp_mono (accounted.reserveReplayed_spec same quoted) ?_ fun _ _ refused admitted =>
    refused.2 admitted.unknown
  rintro - between ⟨reserved, grown⟩
  have orderly : Orderly between reservation charge := by
    intro attempt member equal
    rw [grown.attempts, List.dropLast_concat] at member
    exact absurd (equal ▸ same) (accounted.fresh member)
  refine wp_mono (reserved.recordCharge_spec reservation charge orderly) ?_ ?_
  · rintro - after ⟨charged, ⟨rfl, rfl⟩ | ⟨-, earlier, split, turned⟩⟩
    · exact ⟨charged, grown⟩
    · rw [grown.attempts] at split
      obtain ⟨rfl, -⟩ := List.append_inj' split rfl
      exact ⟨charged, turned.pricing.trans grown.pricing, turned.attempts,
        turned.failure.trans grown.failure⟩
  · rintro - after ⟨-, refused⟩
    rw [← grown.pricing]
    exact refused accounting.attempts (grown.failure.trans live) grown.attempts

/-- **Attempts that were persisted are replayed exactly if they were admitted.** -/
theorem replayAttempts_spec (accounted : Accounted opening accounting)
    (live : accounting.failure = none)
    (expects : ∀ accounting, Accounted opening accounting →
      expected accounting = .ok accounting.nextOrdinal) (attempts : List MonetaryAttempt) :
    (replayAttempts expected attempts).wp
      (fun _ after => Accounted opening after ∧
        Turned accounting after (accounting.attempts ++ attempts))
      (fun _ _ => ¬Throughout (Admitted accounting.pricing opening)
        (accounting.attempts ++ attempts)) accounting := by
  induction attempts generalizing accounting with
  | nil =>
    rw [List.append_nil]
    exact ⟨accounted, rfl, rfl, rfl⟩
  | cons persisted attempts ih =>
    unfold replayAttempts
    rw [wp_bind]
    refine wp_mono (replayAttempt_spec accounted live (expects _ accounted) persisted) ?_ ?_
    · rintro - between ⟨reserved, grown⟩
      have rest := ih reserved (grown.failure.trans live)
      rw [grown.attempts, grown.pricing, List.append_assoc] at rest
      refine wp_mono rest ?_ fun _ _ refused => refused
      rintro - after ⟨charged, turned⟩
      exact ⟨charged, turned.pricing.trans grown.pricing, turned.attempts,
        turned.failure.trans grown.failure⟩
    · exact fun _ _ refused all => refused (all accounting.attempts persisted attempts rfl)

theorem replayFrom_eq_ok (accounted : Accounted opening accounting)
    (live : accounting.failure = none)
    (expects : ∀ accounting, Accounted opening accounting →
      expected accounting = .ok accounting.nextOrdinal) {attempts : List MonetaryAttempt}
    (none' : accounting.attempts = []) :
    (∀ after, replayFrom accounting (replayAttempts expected attempts) = .ok after →
      Accounted opening after ∧ Turned accounting after attempts) ∧
    (Throughout (Admitted accounting.pricing opening) attempts →
      ∃ after, replayFrom accounting (replayAttempts expected attempts) = .ok after) := by
  have spec := replayAttempts_spec accounted live expects attempts
  rw [none', List.nil_append] at spec
  unfold replayFrom
  rcases wp_run spec with ⟨_, after, ran, ends⟩ | ⟨_, after, ran, refused⟩
  · rw [ran]
    exact ⟨fun _ same => Except.ok.inj same ▸ ends, fun _ => ⟨after, rfl⟩⟩
  · rw [ran]
    exact ⟨fun _ same => (nomatch same), fun all => absurd all refused⟩

end Replay

/-- The opening of a fresh account. -/
def ValidatedPricing.opening (pricing : ValidatedPricing) (nextOrdinal : U32) :
    PricedMonetaryCarry where
  pricing := pricing
  reservedMinor := 0
  observedMinor := 0
  unknownReservationMinor := 0
  observedOverReservationMinor := 0
  nextOrdinal := nextOrdinal
  carriable := ⟨le_rfl, le_rfl, le_rfl, le_rfl, le_rfl, le_rfl, by decide⟩

/-- The opening after a predecessor without monetary evidence. -/
def MonetaryCarry.opening (carry : MonetaryCarry) (pricing : ValidatedPricing) :
    PricedMonetaryCarry where
  pricing := pricing
  reservedMinor := carry.reservedMinor
  observedMinor := 0
  unknownReservationMinor := carry.reservedMinor
  observedOverReservationMinor := 0
  nextOrdinal := 0
  carriable := ⟨carry.reservedNonneg, le_rfl, carry.reservedNonneg, le_rfl, le_rfl, le_rfl,
    (add_zero carry.reservedMinor.val).le.trans carry.reservedMinor.upper⟩

/-- The ways to start an account, each with what is carried into it. -/
inductive Opens : PricedMonetaryCarry → MonetaryAccounting → Prop
  | new (pricing : ValidatedPricing) : Opens (pricing.opening 0) (.new pricing)
  | withLegacyCarry {pricing : ValidatedPricing} {carry : MonetaryCarry}
      {accounting : MonetaryAccounting} (started : withLegacyCarry pricing carry = .ok accounting) :
      Opens (carry.opening pricing) accounting
  | resumeWithLegacyCarry {pricing : ValidatedPricing} {carry : Option MonetaryCarry}
      {attempts : List MonetaryAttempt} {accounting : MonetaryAccounting}
      (started : resumeWithLegacyCarry pricing carry attempts = .ok accounting) :
      Opens (carry.elim (pricing.opening 0) fun carry => carry.opening pricing) accounting
  | resumeWithPricedCarry {pricing : ValidatedPricing} {carry : PricedMonetaryCarry}
      {attempts : List MonetaryAttempt} {accounting : MonetaryAccounting}
      (started : resumeWithPricedCarry pricing carry attempts = .ok accounting) :
      Opens carry accounting

variable {pricing : ValidatedPricing} {carry : PricedMonetaryCarry}

theorem new_accounted (pricing : ValidatedPricing) :
    Accounted (pricing.opening 0) (.new pricing) where
  reserved := rfl
  observed := rfl
  unknown := rfl
  overage := rfl
  ordinal := rfl
  opened := pricing.ceilingNonneg
  admitted := throughout_nil

theorem withLegacyCarry_accounted {carry : MonetaryCarry}
    {accounting : MonetaryAccounting} (started : withLegacyCarry pricing carry = .ok accounting) :
    Accounted (carry.opening pricing) accounting ∧ accounting.failure = none ∧
      accounting.attempts = [] := by
  unfold withLegacyCarry at started
  simp only [bind_eq_ok, refuseIf_eq_ok] at started
  obtain ⟨-, -, -, within, same⟩ := started
  obtain rfl := Except.ok.inj same
  exact ⟨⟨(add_zero _).symm, rfl, (add_zero _).symm, rfl, rfl, not_lt.mp within, throughout_nil⟩,
    rfl, rfl⟩

theorem validateDestination_within {destination : ValidatedPricing}
    (accepted : carry.validateDestination destination = .ok ()) :
    carry.reservedMinor.val ≤ destination.ceilingMinor.val := by
  unfold PricedMonetaryCarry.validateDestination at accepted
  simp only [bind_eq_ok, refuseIf_eq_ok] at accepted
  obtain ⟨-, -, -, -, -, -, -, -, -, -, within⟩ := accepted
  exact not_lt.mp within

theorem opened_accounted (within : carry.reservedMinor.val ≤ pricing.ceilingMinor.val) :
    Accounted carry (.carried pricing carry) where
  reserved := (add_zero _).symm
  observed := (add_zero _).symm
  unknown := (add_zero _).symm
  overage := (add_zero _).symm
  ordinal := rfl
  opened := within
  admitted := throughout_nil

theorem attemptCount_eq {opening : PricedMonetaryCarry} {accounting : MonetaryAccounting}
    (zero : opening.nextOrdinal.val = 0) (accounted : Accounted opening accounting) :
    orRefuse "pricing_total_overflow" accounting.attemptCount = .ok accounting.nextOrdinal := by
  have ordinal := accounted.ordinal
  rw [zero, zero_add] at ordinal
  exact orRefuse_eq_ok.mpr (Word.tryFrom_eq_some.mpr ordinal.symm)

theorem Opens.accounted {opening : PricedMonetaryCarry} {accounting : MonetaryAccounting}
    (opens : Opens opening accounting) : Accounted opening accounting := by
  cases opens with
  | new pricing => exact new_accounted pricing
  | withLegacyCarry started => exact (withLegacyCarry_accounted started).1
  | @resumeWithLegacyCarry pricing carry attempts _ started =>
    unfold MonetaryAccounting.resumeWithLegacyCarry at started
    obtain ⟨start, begun, replayed⟩ := bind_eq_ok.mp started
    cases carry with
    | none =>
      obtain rfl := Except.ok.inj begun
      exact ((replayFrom_eq_ok (new_accounted pricing) rfl (fun _ => attemptCount_eq rfl)
        rfl).1 _ replayed).1
    | some carry =>
      obtain ⟨accounted, live, empty⟩ := withLegacyCarry_accounted begun
      exact ((replayFrom_eq_ok accounted live (fun _ => attemptCount_eq rfl) empty).1 _
        replayed).1
  | resumeWithPricedCarry started =>
    obtain ⟨_, accepted, replayed⟩ := bind_eq_ok.mp started
    exact ((replayFrom_eq_ok (opened_accounted (validateDestination_within accepted)) rfl
      (fun _ _ => rfl) rfl).1 _ replayed).1

end Semaprax.MonetaryPricing
