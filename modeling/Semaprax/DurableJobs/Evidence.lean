/-
**The evidence of a job** (`job_evidence.rs`).

The entries that a runner records of the transitions of one job, each with what is needed to compute
the next state again.

* `JobEvidenceEntry` — one transition; `canonicalBytes` and `fromCanonicalBytes` write and read it.
* `fromCanonicalBytes_canonicalBytes` — what is written is read back.
* `JobEvidenceLog.apply`, `JobEvidenceLog.replay` — the state that the entries lead to.
-/

import Semaprax.DurableJobs.Store
import Semaprax.Library.Bytes

namespace Semaprax.DurableJobs

open Library

/-- One transition that was recorded. -/
inductive JobEvidenceEntry
  | enqueued (scheduled : Bool)
  | claimed (isDue : Bool)
  | begunExecution
  | completed (outcomeKind : UInt64) (attemptBefore maxAttempts : UInt8)
  | durableCompleted (outcomeKind : UInt64) (attemptBefore maxAttempts : UInt8)
      (commitConfirmed : Bool)
  | connectionUncertain
  | reconciledUncertain (decision : UInt64) (isIdempotentHandler : Bool)
      (attempt maxAttempts : UInt8)
  | cancelled
  | leaseExpired
  | recurringAdvanced (nextRunTick : Option UInt64) (occurrencesRun : UInt64)
deriving DecidableEq, Repr

namespace JobEvidenceEntry

def discriminant : JobEvidenceEntry → UInt8
  | enqueued _ => 0
  | claimed _ => 1
  | begunExecution => 2
  | completed _ _ _ => 3
  | connectionUncertain => 4
  | reconciledUncertain _ _ _ _ => 5
  | cancelled => 6
  | durableCompleted _ _ _ _ => 7
  | leaseExpired => 8
  | recurringAdvanced _ _ => 9

/-- A word of 64 bits, least significant byte first. -/
def wordBytes (word : UInt64) : List UInt8 := leBytes 8 word.toNat

def boolByte (flag : Bool) : UInt8 := if flag then 1 else 0

def fieldBytes : JobEvidenceEntry → List UInt8
  | enqueued scheduled => [boolByte scheduled]
  | claimed isDue => [boolByte isDue]
  | begunExecution => []
  | completed outcomeKind attemptBefore maxAttempts =>
    wordBytes outcomeKind ++ [attemptBefore, maxAttempts]
  | durableCompleted outcomeKind attemptBefore maxAttempts commitConfirmed =>
    wordBytes outcomeKind ++ [attemptBefore, maxAttempts, boolByte commitConfirmed]
  | connectionUncertain => []
  | reconciledUncertain decision isIdempotentHandler attempt maxAttempts =>
    wordBytes decision ++ [boolByte isIdempotentHandler, attempt, maxAttempts]
  | cancelled => []
  | leaseExpired => []
  | recurringAdvanced nextRunTick occurrencesRun =>
    boolByte nextRunTick.isSome :: (wordBytes (nextRunTick.getD 0) ++ wordBytes occurrencesRun)

def canonicalBytes (entry : JobEvidenceEntry) : List UInt8 := entry.discriminant :: entry.fieldBytes

def boolField : List UInt8 → Option Bool
  | [0] => some false
  | [1] => some true
  | _ => none

/-- The word that eight bytes write. -/
def wordField (fields : List UInt8) : UInt64 := UInt64.ofNat (leValue fields)

def fromCanonicalBytes : List UInt8 → Option JobEvidenceEntry
  | [] => none
  | tag :: fields =>
    match tag.toNat with
    | 0 => (boolField fields).map enqueued
    | 1 => (boolField fields).map claimed
    | 2 => if fields.length = 0 then some begunExecution else none
    | 3 =>
      if fields.length = 10 then
        some (completed (wordField (fields.take 8)) (fields.getD 8 0) (fields.getD 9 0))
      else none
    | 4 => if fields.length = 0 then some connectionUncertain else none
    | 5 =>
      if fields.length = 11 then
        (boolField ((fields.drop 8).take 1)).map fun isIdempotentHandler =>
          reconciledUncertain (wordField (fields.take 8)) isIdempotentHandler
            (fields.getD 9 0) (fields.getD 10 0)
      else none
    | 6 => if fields.length = 0 then some cancelled else none
    | 7 =>
      if fields.length = 11 then
        (boolField (fields.drop 10)).map fun commitConfirmed =>
          durableCompleted (wordField (fields.take 8)) (fields.getD 8 0) (fields.getD 9 0)
            commitConfirmed
      else none
    | 8 => if fields.length = 0 then some leaseExpired else none
    | 9 =>
      if fields.length = 17 then
        match (fields.getD 0 0).toNat with
        | 0 => some (recurringAdvanced none (wordField ((fields.drop 9).take 8)))
        | 1 =>
          some (recurringAdvanced (some (wordField ((fields.drop 1).take 8)))
            (wordField ((fields.drop 9).take 8)))
        | _ => none
      else none
    | _ => none

theorem wordField_wordBytes (word : UInt64) : wordField (wordBytes word) = word := by
  unfold wordField wordBytes
  have small : word.toNat < 256 ^ 8 := word.toNat_lt
  rw [leValue_leBytes, Nat.mod_eq_of_lt small, UInt64.ofNat_toNat]

theorem length_wordBytes (word : UInt64) : (wordBytes word).length = 8 := length_leBytes _ _

theorem boolField_boolByte (flag : Bool) : boolField [boolByte flag] = some flag := by
  cases flag <;> rfl

theorem length_canonicalBytes (entry : JobEvidenceEntry) : entry.canonicalBytes.length ≤ 18 := by
  cases entry <;>
    simp only [canonicalBytes, fieldBytes, List.length_cons, List.length_append, List.length_nil,
      length_wordBytes] <;> omega

section Fields

variable {fields : List UInt8}

theorem from_completed (length : fields.length = 10) : fromCanonicalBytes (3 :: fields) =
    some (completed (wordField (fields.take 8)) (fields.getD 8 0) (fields.getD 9 0)) :=
  if_pos length

theorem from_reconciled (length : fields.length = 11) : fromCanonicalBytes (5 :: fields) =
    (boolField ((fields.drop 8).take 1)).map fun isIdempotentHandler =>
      reconciledUncertain (wordField (fields.take 8)) isIdempotentHandler (fields.getD 9 0)
        (fields.getD 10 0) := if_pos length

theorem from_durableCompleted (length : fields.length = 11) : fromCanonicalBytes (7 :: fields) =
    (boolField (fields.drop 10)).map fun commitConfirmed =>
      durableCompleted (wordField (fields.take 8)) (fields.getD 8 0) (fields.getD 9 0)
        commitConfirmed := if_pos length

theorem from_advanced_none (length : fields.length = 16) : fromCanonicalBytes (9 :: 0 :: fields) =
      some (recurringAdvanced none (wordField ((fields.drop 8).take 8))) :=
  if_pos (by rw [List.length_cons, length])

theorem from_advanced_some (length : fields.length = 16) : fromCanonicalBytes (9 :: 1 :: fields) =
      some (recurringAdvanced (some (wordField (fields.take 8)))
        (wordField ((fields.drop 8).take 8))) :=
  if_pos (by rw [List.length_cons, length])

end Fields

section Words

variable (word : UInt64) (rest : List UInt8)

theorem take_word : (wordBytes word ++ rest).take 8 = wordBytes word :=
  List.take_left' (length_wordBytes word)

theorem drop_word : (wordBytes word ++ rest).drop 8 = rest :=
  List.drop_left' (length_wordBytes word)

theorem getD_word (place : Nat) :
    (wordBytes word ++ rest).getD (8 + place) 0 = rest.getD place 0 := by
  rw [← length_wordBytes word, List.getD_append_right _ _ _ _ (Nat.le_add_right _ _),
    Nat.add_sub_cancel_left]

end Words

/-- What is written is read back. -/
theorem fromCanonicalBytes_canonicalBytes (entry : JobEvidenceEntry) :
    fromCanonicalBytes entry.canonicalBytes = some entry := by
  cases entry with
  | enqueued scheduled => exact congrArg (Option.map enqueued) (boolField_boolByte scheduled)
  | claimed isDue => exact congrArg (Option.map claimed) (boolField_boolByte isDue)
  | begunExecution => rfl
  | completed outcomeKind attemptBefore maxAttempts =>
    show fromCanonicalBytes (3 :: (wordBytes outcomeKind ++ [attemptBefore, maxAttempts])) = _
    rw [from_completed (by simp [length_wordBytes]), take_word, wordField_wordBytes,
      getD_word _ _ 0, getD_word _ _ 1]
    rfl
  | durableCompleted outcomeKind attemptBefore maxAttempts commitConfirmed =>
    show fromCanonicalBytes (7 ::
      (wordBytes outcomeKind ++ [attemptBefore, maxAttempts, boolByte commitConfirmed])) = _
    have last : (wordBytes outcomeKind ++
        [attemptBefore, maxAttempts, boolByte commitConfirmed]).drop 10 =
          [boolByte commitConfirmed] := by
      rw [show 10 = 8 + 2 from rfl, ← List.drop_drop, drop_word]
      rfl
    rw [from_durableCompleted (by simp [length_wordBytes]), take_word, wordField_wordBytes,
      getD_word _ _ 0, getD_word _ _ 1, last, boolField_boolByte]
    rfl
  | connectionUncertain => rfl
  | reconciledUncertain decision isIdempotentHandler attempt maxAttempts =>
    show fromCanonicalBytes (5 ::
      (wordBytes decision ++ [boolByte isIdempotentHandler, attempt, maxAttempts])) = _
    rw [from_reconciled (by simp [length_wordBytes]), take_word, wordField_wordBytes,
      getD_word _ _ 1, getD_word _ _ 2, drop_word]
    show (boolField [boolByte isIdempotentHandler]).map _ = _
    rw [boolField_boolByte]
    rfl
  | cancelled | leaseExpired => rfl
  | recurringAdvanced nextRunTick occurrencesRun =>
    have runs : (wordBytes occurrencesRun).take 8 = wordBytes occurrencesRun := by
      rw [← length_wordBytes occurrencesRun, List.take_length]
    cases nextRunTick with
    | none =>
      show fromCanonicalBytes (9 :: 0 :: (wordBytes 0 ++ wordBytes occurrencesRun)) = _
      rw [from_advanced_none (by simp [length_wordBytes]), drop_word, runs,
        wordField_wordBytes]
    | some tick =>
      show fromCanonicalBytes (9 :: 1 :: (wordBytes tick ++ wordBytes occurrencesRun)) = _
      rw [from_advanced_some (by simp [length_wordBytes]), take_word, drop_word, runs,
        wordField_wordBytes, wordField_wordBytes]

end JobEvidenceEntry

inductive JobEvidenceError
  | emptyLog
  | illegalTransition (entryIndex : Nat)
  | finalStateMismatch (recomputed claimed : Nat)
deriving DecidableEq, Repr

/-- The entries, and the state that they are claimed to lead to. -/
structure JobEvidenceLog where
  entries : List JobEvidenceEntry
  claimedFinalState : Nat
deriving DecidableEq, Repr

namespace JobEvidenceLog

def new : JobEvidenceLog := ⟨[], 0⟩

/-- Record a transition and the state it led to. -/
def append (log : JobEvidenceLog) (entry : JobEvidenceEntry) (resultingState : Nat) :
    JobEvidenceLog := ⟨log.entries ++ [entry], resultingState⟩

def stateAfter (outcomeKind : UInt64) (attemptBefore maxAttempts : UInt8) : Nat :=
  let attemptAfter :=
    if outcomeKind = 0 then attemptBefore.toNat else nextAttempt attemptBefore.toNat
  let next := retryNextStateAfterOutcome outcomeKind.toNat attemptAfter maxAttempts.toNat
  if next = 5 then 1 else next

def apply : Option Nat → JobEvidenceEntry → Option Nat
  | none, .enqueued scheduled => some (if scheduled then 1 else 0)
  | some current, .claimed isDue => if claimIsLegal current isDue then some 2 else none
  | some 2, .begunExecution => some 3
  | some 3, .completed outcomeKind attemptBefore maxAttempts =>
    some (stateAfter outcomeKind attemptBefore maxAttempts)
  | some 3, .durableCompleted outcomeKind attemptBefore maxAttempts commitConfirmed =>
    if !commitConfirmed then some 8 else some (stateAfter outcomeKind attemptBefore maxAttempts)
  | some 2, .connectionUncertain => some 8
  | some 3, .connectionUncertain => some 8
  | some 8, .reconciledUncertain decision isIdempotentHandler attempt maxAttempts =>
    match decision.toNat with
    | 0 => some 4
    | 1 => some 6
    | 2 =>
      if uncertainRetryIsPermitted isIdempotentHandler attempt.toNat maxAttempts.toNat then
        some 0
      else some 8
    | _ => some 8
  | some current, .cancelled => if cancelIsLegal current then some 7 else none
  | some 2, .leaseExpired => some 0
  | some 4, .recurringAdvanced nextRunTick _ => some (if nextRunTick.isSome then 1 else 4)
  | _, _ => none

def applyFrom : Nat → Option Nat → List JobEvidenceEntry → Except JobEvidenceError (Option Nat)
  | _, state, [] => .ok state
  | entryIndex, state, entry :: entries =>
    match apply state entry with
    | none => .error (.illegalTransition entryIndex)
    | some next => applyFrom (entryIndex + 1) (some next) entries

/-- The state that the entries lead to, if it is the one that is claimed. -/
def replay (log : JobEvidenceLog) : Except JobEvidenceError Nat :=
  match applyFrom 0 none log.entries with
  | .error error => .error error
  | .ok none => .error .emptyLog
  | .ok (some recomputed) =>
    if recomputed = log.claimedFinalState then .ok recomputed
    else .error (.finalStateMismatch recomputed log.claimedFinalState)

/-- A log from entries that were stored, if it replays. -/
def fromEntries (entries : List JobEvidenceEntry) (claimedFinalState : Nat) :
    Except JobEvidenceError JobEvidenceLog :=
  let log : JobEvidenceLog := ⟨entries, claimedFinalState⟩
  log.replay.map fun _ => log

@[simp]
theorem apply_claimed (state : JobState) (isDue : Bool) : apply (some state.code) (.claimed isDue) =
    if claimIsLegal state.code isDue then some 2 else none := by
  cases state <;> rfl

@[simp]
theorem apply_cancelled (state : JobState) : apply (some state.code) .cancelled =
    if cancelIsLegal state.code then some 7 else none := by
  cases state <;> rfl

theorem apply_reconciled (decision : UInt64) (isIdempotentHandler : Bool)
    (attempt maxAttempts : UInt8) : apply (some JobState.uncertain.code)
      (.reconciledUncertain decision isIdempotentHandler attempt maxAttempts) =
        match decision.toNat with
        | 0 => some 4
        | 1 => some 6
        | 2 =>
          if uncertainRetryIsPermitted isIdempotentHandler attempt.toNat maxAttempts.toNat then
            some 0
          else some 8
        | _ => some 8 := rfl

theorem apply_advanced (nextRunTick : Option UInt64) (occurrencesRun : UInt64) :
    apply (some JobState.succeeded.code) (.recurringAdvanced nextRunTick occurrencesRun) =
      some (if nextRunTick.isSome then 1 else 4) := rfl

theorem applyFrom_append (entryIndex : Nat) (state : Option Nat)
    (entries : List JobEvidenceEntry) (entry : JobEvidenceEntry) {reached next : Option Nat}
    (before : applyFrom entryIndex state entries = .ok reached)
    (applied : apply reached entry = next) (legal : next.isSome) :
    applyFrom entryIndex state (entries ++ [entry]) = .ok next := by
  induction entries generalizing entryIndex state with
  | nil =>
    obtain rfl := Except.ok.inj before
    obtain ⟨after, rfl⟩ := Option.isSome_iff_exists.mp legal
    rw [List.nil_append, applyFrom, applied]
    rfl
  | cons first entries ih =>
    rw [applyFrom] at before
    rw [List.cons_append, applyFrom]
    cases found : apply state first with
    | none =>
      rw [found] at before
      cases before
    | some after =>
      rw [found] at before
      exact ih (entryIndex + 1) (some after) before

end JobEvidenceLog

end Semaprax.DurableJobs
