/-
**Token verification** (`std/auth`).

* `ctBytesEqual` — the comparison whose number of steps does not depend on the bytes.
* `tokenVerificationAdmits` — the policy check of a token; a tick that overflows is a trap.
* `admits_iff` — the check gives the verdict exactly if no tick it adds up overflows.
* `greatest_expiry_traps` — a token that is valid forever is a trap.
-/

import Semaprax.Library.Words
import Semaprax.Standard.Overflow

namespace Semaprax.Standard

open Library

/-- The loop of `ct_bytes_equal` over the indices that are left. -/
def countMismatches (left right : List UInt8) (index mismatches : Nat) : Nat → Nat
  | 0 => mismatches
  | rest + 1 =>
    countMismatches left right (index + 1)
      (mismatches + if left[index]?.getD 0 = right[index]?.getD 0 then 0 else 1) rest

def ctBytesEqual (left right : List UInt8) : Bool :=
  countMismatches left right 0 0 (max left.length right.length) = 0 ∧ left.length = right.length

/-- The arguments of `token_verification_admits`. -/
structure TokenClaims where
  hasValidSignature : Bool
  issuer : List UInt8
  expectedIssuer : List UInt8
  audience : List UInt8
  expectedAudience : List UInt8
  algId : UInt8
  keyId : UInt8
  activeKeyId : UInt8
  previousKeyId : UInt8
  nowTick : U64
  notBeforeTick : U64
  expiresAtTick : U64
  leewayTicks : U64
  previousKeyGraceUntilTick : U64
  seenBefore : Bool

def tokenAlgorithmIsAllowed (algId : UInt8) : Bool := algId = 1 ∨ algId = 2

def tokenLeewayIsBounded (leewayTicks : U64) : Bool := leewayTicks.val ≤ 300

namespace TokenClaims

variable (token : TokenClaims)

def keyIsCurrentOrInGrace : Bool :=
  token.keyId = token.activeKeyId ∨
    token.keyId = token.previousKeyId ∧ token.nowTick < token.previousKeyGraceUntilTick

/-- The sums are checked, and the second one is only computed after the first comparison. -/
def timeIsValid : Option Bool := do
  let latest ← token.nowTick.checkedAdd token.leewayTicks
  andAlso (token.notBeforeTick ≤ latest) do
    pure (token.nowTick ≤ (← token.expiresAtTick.checkedAdd token.leewayTicks))

/-- The checks before that of the time. -/
def reachesTime : Bool :=
  token.hasValidSignature && ctBytesEqual token.issuer token.expectedIssuer &&
    ctBytesEqual token.audience token.expectedAudience && tokenAlgorithmIsAllowed token.algId &&
    token.keyIsCurrentOrInGrace

def tokenVerificationAdmits : Option Bool :=
  if tokenLeewayIsBounded token.leewayTicks then
    andAlso token.reachesTime do andAlso (← token.timeIsValid) (some !token.seenBefore)
  else none

/-- A token that is to be admitted, by its exact ticks. -/
structure Admitted : Prop where
  signature : token.hasValidSignature = true
  issuer : token.issuer = token.expectedIssuer
  audience : token.audience = token.expectedAudience
  algorithm : token.algId = 1 ∨ token.algId = 2
  key : token.keyId = token.activeKeyId ∨ token.keyId = token.previousKeyId ∧
    token.nowTick.val < token.previousKeyGraceUntilTick.val
  begun : token.notBeforeTick.val ≤ token.nowTick.val + token.leewayTicks.val
  lasting : token.nowTick.val ≤ token.expiresAtTick.val + token.leewayTicks.val
  fresh : token.seenBefore = false

/-- No sum that the check computes overflows. -/
def Fits : Prop :=
  token.reachesTime = true → token.nowTick.val + token.leewayTicks.val ≤ 2 ^ 64 - 1 ∧
    (token.notBeforeTick.val ≤ token.nowTick.val + token.leewayTicks.val →
      token.expiresAtTick.val + token.leewayTicks.val ≤ 2 ^ 64 - 1)

end TokenClaims

theorem countMismatches_eq_zero (left right : List UInt8) (index mismatches rest : Nat) :
    countMismatches left right index mismatches rest = 0 ↔ mismatches = 0 ∧
      ∀ other, index ≤ other → other < index + rest → left[other]?.getD 0 = right[other]?.getD 0 := by
  induction rest generalizing index mismatches with
  | zero => exact ⟨fun none => ⟨none, fun _ from_ below => by omega⟩, And.left⟩
  | succ rest ih =>
    rw [countMismatches, ih]
    constructor
    · rintro ⟨none, others⟩
      refine ⟨by omega, fun other after before => ?_⟩
      rcases after.eq_or_lt with rfl | later
      · by_contra differ
        rw [if_neg differ] at none
        cases none
      · exact others other later (by omega)
    · rintro ⟨rfl, same⟩
      refine ⟨by rw [if_pos (same index le_rfl (by omega))], fun other after before => ?_⟩
      exact same other (by omega) (by omega)

/-- The comparison is that of the bytes. -/
theorem ctBytesEqual_iff (left right : List UInt8) :
    ctBytesEqual left right = true ↔ left = right := by
  unfold ctBytesEqual
  rw [decide_eq_true_iff, countMismatches_eq_zero]
  constructor
  · rintro ⟨⟨-, same⟩, lengths⟩
    refine List.ext_getElem lengths fun index first second => ?_
    simpa [first, second] using same index (Nat.zero_le _) (by omega)
  · rintro rfl
    exact ⟨⟨rfl, fun _ _ _ => rfl⟩, rfl⟩

namespace TokenClaims

variable {token : TokenClaims}

theorem admitted_iff : token.Admitted ↔ token.reachesTime = true ∧
    token.notBeforeTick.val ≤ token.nowTick.val + token.leewayTicks.val ∧
    token.nowTick.val ≤ token.expiresAtTick.val + token.leewayTicks.val ∧
    token.seenBefore = false := by
  unfold reachesTime tokenAlgorithmIsAllowed keyIsCurrentOrInGrace
  simp only [Bool.and_eq_true, ctBytesEqual_iff, decide_eq_true_eq]
  constructor
  · rintro ⟨signature, issuer, audience, algorithm, key, begun, lasting, fresh⟩
    exact ⟨⟨⟨⟨⟨signature, issuer⟩, audience⟩, algorithm⟩, key⟩, begun, lasting, fresh⟩
  · rintro ⟨⟨⟨⟨⟨signature, issuer⟩, audience⟩, algorithm⟩, key⟩, begun, lasting, fresh⟩
    exact ⟨signature, issuer, audience, algorithm, key, begun, lasting, fresh⟩

/-- The check of the time, by its exact sums. -/
theorem timeIsValid_eq (token : TokenClaims) : token.timeIsValid =
    if token.nowTick.val + token.leewayTicks.val ≤ 2 ^ 64 - 1 then
      if token.notBeforeTick.val ≤ token.nowTick.val + token.leewayTicks.val then
        if token.expiresAtTick.val + token.leewayTicks.val ≤ 2 ^ 64 - 1 then
          some (decide (token.nowTick.val ≤ token.expiresAtTick.val + token.leewayTicks.val))
        else none
      else some false
    else none := by
  have added (first second : U64) : first.checkedAdd second =
      if fits : first.val + second.val ≤ 2 ^ 64 - 1 then some ⟨_, fits⟩ else none := rfl
  have ordered (first second : U64) : first ≤ second ↔ first.val ≤ second.val := Iff.rfl
  unfold timeIsValid andAlso
  rw [added, added]
  split_ifs with late begun fits <;> simp_all

/-- **The check gives the verdict exactly if no tick that it adds up overflows.** -/
theorem admits_iff (token : TokenClaims) (bounded : token.leewayTicks.val ≤ 300) :
    (∃ verdict, token.tokenVerificationAdmits = some verdict ∧
      (verdict = true ↔ token.Admitted)) ↔ token.Fits := by
  have leeway : tokenLeewayIsBounded token.leewayTicks = true := decide_eq_true bounded
  unfold tokenVerificationAdmits Fits andAlso
  rw [if_pos leeway, admitted_iff, timeIsValid_eq]
  cases token.reachesTime with
  | false => simp
  | true =>
    rw [if_pos rfl]
    split_ifs with late begun fits
    · cases token.seenBefore <;> simp_all [lt_or_ge]
    · simp_all
    · simp_all
    · simp_all

/-- A token that a key in use has signed, with the ticks of an attacker. -/
def foreverToken : TokenClaims where
  hasValidSignature := true
  issuer := [1]
  expectedIssuer := [1]
  audience := [2]
  expectedAudience := [2]
  algId := 1
  keyId := 7
  activeKeyId := 7
  previousKeyId := 6
  nowTick := 1000
  notBeforeTick := 0
  expiresAtTick := .greatest
  leewayTicks := 30
  previousKeyGraceUntilTick := 0
  seenBefore := false

/-- **A token that is valid forever is a trap.** -/
theorem greatest_expiry_traps : foreverToken.leewayTicks.val ≤ 300 ∧
    foreverToken.Admitted ∧ foreverToken.tokenVerificationAdmits = none := by
  refine ⟨by decide, admitted_iff.mpr ⟨by decide +kernel, ?_⟩, by decide +kernel⟩
  decide +kernel

/-- A token that expires. -/
theorem admits_iff_expiring : ∃ verdict,
    { foreverToken with expiresAtTick := 1010 }.tokenVerificationAdmits = some verdict ∧
      (verdict = true ↔ { foreverToken with expiresAtTick := 1010 : TokenClaims }.Admitted) :=
  (admits_iff { foreverToken with expiresAtTick := 1010 } (by decide)).mpr
    fun _ => ⟨by decide +kernel, fun _ => by decide +kernel⟩

end TokenClaims

end Semaprax.Standard
