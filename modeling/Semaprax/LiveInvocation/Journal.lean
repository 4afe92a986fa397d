/-
**The causal journal** (`live_invocation/journal.rs`).

One ordered record of what a live invocation committed before it crossed an external boundary, and
the phase machine that `validate` runs over it.

* `scanEntry` — one entry against the phase the journal is in.
* `validate` — the whole journal; `Scan` is what is known of one that is accepted so far.
* `scans_append` — appending an entry runs the machine once more.
* `scans_turns` — in an accepted journal no entry names a later turn, and between turns none names
  the turn to come.

The expected turn is a `u32` under overflow checks: past the last turn `validate` panics, which is
the fault `overflow`.
-/

import Semaprax.Library.Results
import Semaprax.LiveInvocation.Identity

namespace Semaprax.LiveInvocation

open Library

inductive JournalEntry
  | turnOpened (turn : Nat) (invocation observationDigest : String)
  | requestIntent (turn : Nat) (requestDigest : String) (reservedBudget : I64)
  | responseRecorded (turn : Nat) (responseDigest : String) (response : Bytes)
  | responseFailed (turn : Nat) (failure : String) (attemptedBytes : Nat)
  | proposalAdmitted (turn : Nat) (proposalDigest : String)
  | proposalRefused (turn : Nat) (reason : String)
  | authorizationConsumed (turn : Nat) (grantDigest : String)
  | authorizationRefused (turn : Nat) (reason : String)
  | effectIntent (turn : Nat) (operation requestDigest : String)
  | effectObserved (turn : Nat) (operation observationDigest : String)
  | effectFailed (turn : Nat) (operation reason : String)
  | transition (turn : Nat) (case carrierDigest : String)
  | terminalOutcome (turn : Nat) (case carrierDigest : String)
deriving DecidableEq, Repr

/-- A journal, in the order of its entries. -/
abbrev Journal := List JournalEntry

def JournalEntry.kind : JournalEntry → String
  | .turnOpened .. => "turn_opened"
  | .requestIntent .. => "request_intent"
  | .responseRecorded .. => "response_recorded"
  | .responseFailed .. => "response_failed"
  | .proposalAdmitted .. => "proposal_admitted"
  | .proposalRefused .. => "proposal_refused"
  | .authorizationConsumed .. => "authorization_consumed"
  | .authorizationRefused .. => "authorization_refused"
  | .effectIntent .. => "effect_intent"
  | .effectObserved .. => "effect_observed"
  | .effectFailed .. => "effect_failed"
  | .transition .. => "transition"
  | .terminalOutcome .. => "terminal_outcome"

def JournalEntry.turn : JournalEntry → Nat
  | .turnOpened turn _ _ | .requestIntent turn _ _ | .responseRecorded turn _ _
  | .responseFailed turn _ _ | .proposalAdmitted turn _ | .proposalRefused turn _
  | .authorizationConsumed turn _ | .authorizationRefused turn _ | .effectIntent turn _ _
  | .effectObserved turn _ _ | .effectFailed turn _ _ | .transition turn _ _
  | .terminalOutcome turn _ _ => turn

/-- The last turn that a `u32` holds. -/
def lastTurn : Nat := 2 ^ 32 - 1

/-- A causal-ordering rejection. -/
inductive JournalError
  | empty
  | unexpectedEntry (seq : Nat) (kind : String)
  | crossInvocation (seq : Nat)
  | nonSequentialTurn (seq : Nat)
  | effectOperationMismatch (seq : Nat)
  | postTerminal (seq : Nat)
deriving DecidableEq, Repr

/-- Why `validate` does not return a validated journal: a rejection, or a panic. -/
inductive JournalFault
  | rejected (error : JournalError)
  | overflow
deriving DecidableEq, Repr

/-- What the state machine is waiting for next. -/
inductive Phase
  | needTurnOpened
  | needRequestIntent
  | needResponse
  | needDecode
  | needAuthorizationConsumed
  | needEffectOrTransition
  | needEffectObserved
  | needTerminalOutcome
deriving DecidableEq, Repr

/-- The variables of the loop of `validate`. -/
structure Scan where
  phase : Phase
  expectedTurn : Nat
  ended : Bool
  pendingEffectOperation : Option String
deriving DecidableEq, Repr

/-- The variables before the first entry. -/
def Scan.start : Scan := ⟨.needTurnOpened, 0, false, none⟩

/-- The entries that the machine takes in one phase, of the expected turn, and the phase they lead
to: the arms of `validate` that differ in nothing else. -/
def Phase.step : Phase → JournalEntry → Option Phase
  | .needRequestIntent, .requestIntent .. => some .needResponse
  | .needResponse, .responseRecorded .. => some .needDecode
  | .needResponse, .responseFailed .. => some .needEffectOrTransition
  | .needDecode, .proposalAdmitted .. => some .needAuthorizationConsumed
  | .needDecode, .proposalRefused .. => some .needEffectOrTransition
  | .needAuthorizationConsumed, .authorizationConsumed .. => some .needEffectOrTransition
  | .needAuthorizationConsumed, .authorizationRefused .. => some .needEffectOrTransition
  | _, _ => none

/-- One entry of the loop of `validate`. -/
def scanEntry (invocation : String) (seq : Nat) (scan : Scan) (entry : JournalEntry) :
    Except JournalFault Scan :=
  let unexpected : Except JournalFault Scan :=
    .error (.rejected (.unexpectedEntry seq entry.kind))
  if scan.ended then .error (.rejected (.postTerminal seq))
  else
    match entry with
    | .turnOpened turn named _ =>
      if scan.phase ≠ .needTurnOpened then unexpected
      else if named ≠ invocation then .error (.rejected (.crossInvocation seq))
      else if turn ≠ scan.expectedTurn then .error (.rejected (.nonSequentialTurn seq))
      else .ok { scan with phase := .needRequestIntent }
    | .effectIntent turn operation _ =>
      if scan.phase ≠ .needEffectOrTransition ∨ turn ≠ scan.expectedTurn then unexpected
      else .ok { scan with
        phase := .needEffectObserved, pendingEffectOperation := some operation }
    | .effectObserved turn operation _ | .effectFailed turn operation _ =>
      if scan.phase ≠ .needEffectObserved ∨ turn ≠ scan.expectedTurn then unexpected
      else if scan.pendingEffectOperation ≠ some operation then
        .error (.rejected (.effectOperationMismatch seq))
      else .ok { scan with phase := .needEffectOrTransition, pendingEffectOperation := none }
    | .transition turn case _ =>
      if scan.phase ≠ .needEffectOrTransition ∨ turn ≠ scan.expectedTurn then unexpected
      else if case = "continue" then
        if scan.expectedTurn ≥ lastTurn then .error .overflow
        else .ok { scan with phase := .needTurnOpened, expectedTurn := scan.expectedTurn + 1 }
      else .ok { scan with phase := .needTerminalOutcome }
    | .terminalOutcome turn _ _ =>
      if scan.phase ≠ .needTerminalOutcome ∨ turn ≠ scan.expectedTurn then unexpected
      else .ok { scan with ended := true }
    | entry =>
      match scan.phase.step entry with
      | some phase =>
        if entry.turn ≠ scan.expectedTurn then unexpected else .ok { scan with phase }
      | none => unexpected

/-- The loop of `validate` over the entries from position `seq` on. -/
def scanFrom (invocation : String) : Nat → Scan → Journal → Except JournalFault Scan
  | _, scan, [] => .ok scan
  | seq, scan, entry :: entries => do
      let scan ← scanEntry invocation seq scan entry
      scanFrom invocation (seq + 1) scan entries

structure ValidatedJournal where
  entries : Journal
  terminal : Bool
  resumableTurn : Option Nat
  uncertainIntent : Bool
deriving DecidableEq, Repr

/-- Validate the causal order of a journal of `invocation`. -/
def validate (entries : Journal) (invocation : String) : Except JournalFault ValidatedJournal :=
  if entries.isEmpty then .error (.rejected .empty)
  else
    match scanFrom invocation 0 .start entries with
    | .error fault => .error fault
    | .ok scan => .ok
        { entries, terminal := scan.ended
          resumableTurn :=
            if ¬ scan.ended ∧ scan.phase = .needTurnOpened then some scan.expectedTurn else none
          uncertainIntent := !scan.ended && scan.phase = .needResponse }

/-- The read-only projection of a validated journal. -/
structure ReceiptProjection where
  invocation : String
  turns : Nat
  modelCalls : Nat
  modelFailures : Nat
  effectCalls : Nat
  terminalCase : Option String
deriving DecidableEq, Repr

/-- One entry of the fold of `receipt_projection`. -/
def ReceiptProjection.count (receipt : ReceiptProjection) : JournalEntry → ReceiptProjection
  | .turnOpened _ invocation _ => { receipt with turns := receipt.turns + 1, invocation }
  | .responseRecorded .. => { receipt with modelCalls := receipt.modelCalls + 1 }
  | .responseFailed .. => { receipt with modelFailures := receipt.modelFailures + 1 }
  | .effectIntent .. => { receipt with effectCalls := receipt.effectCalls + 1 }
  | .terminalOutcome _ case _ => { receipt with terminalCase := some case }
  | _ => receipt

def receiptProjection (validated : ValidatedJournal) : ReceiptProjection :=
  validated.entries.foldl ReceiptProjection.count ⟨"", 0, 0, 0, 0, none⟩

def JournalEntry.reserved : JournalEntry → Option I64
  | .requestIntent _ _ reservedBudget => some reservedBudget
  | _ => none

def reservations (journal : Journal) : List I64 := journal.filterMap JournalEntry.reserved

/-- The saturating sum of the reserved amounts of a journal (`budget.rs`). -/
def committedFromJournal (journal : Journal) : I64 := I64.sumSaturating (reservations journal)

section Scan

variable {invocation : String} {entry : JournalEntry} {scan after : Scan} {seq : Nat}

theorem scanFrom_append (first second : Journal) :
    scanFrom invocation seq scan (first ++ second) = (do
      let scan ← scanFrom invocation seq scan first
      scanFrom invocation (seq + first.length) scan second) := by
  induction first generalizing seq scan with
  | nil => rfl
  | cons entry first ih =>
    rw [List.cons_append, List.length_cons, ← Nat.add_assoc, Nat.add_right_comm]
    simp only [scanFrom]
    cases scanEntry invocation seq scan entry with
    | error fault => rfl
    | ok scan => exact ih

/-- The whole journal is in order so far, and the machine is at `scan`. -/
def Scans (invocation : String) (journal : Journal) (scan : Scan) : Prop :=
  scanFrom invocation 0 .start journal = .ok scan

theorem scans_nil : Scans invocation [] .start := rfl

theorem scans_append {journal : Journal} : Scans invocation (journal ++ [entry]) after ↔
      ∃ scan, Scans invocation journal scan ∧
        scanEntry invocation journal.length scan entry = .ok after := by
  unfold Scans
  rw [scanFrom_append, bind_eq_ok]
  refine exists_congr fun scan => and_congr_right fun _ => ?_
  rw [Nat.zero_add]
  show (do let scan ← scanEntry invocation journal.length scan entry; .ok scan) = _ ↔ _
  cases scanEntry invocation journal.length scan entry <;> rfl

/-- What an accepted entry does to the expected turn: it belongs to it, and only a `continue`
transition moves on, to the next turn and between turns. -/
theorem scanEntry_turn (accepted : scanEntry invocation seq scan entry = .ok after) :
    entry.turn = scan.expectedTurn ∧
      ((after.expectedTurn = scan.expectedTurn ∧ after.phase ≠ .needTurnOpened) ∨
        after.expectedTurn = scan.expectedTurn + 1) := by
  unfold scanEntry at accepted
  by_cases ended : scan.ended
  · rw [if_pos ended] at accepted
    exact nomatch accepted
  · rw [if_neg ended] at accepted
    cases entry
    case turnOpened | effectIntent | effectObserved | effectFailed | transition | terminalOutcome =>
      simp only at accepted
      split_ifs at accepted <;> cases accepted <;> simp_all [JournalEntry.turn]
    all_goals
      cases phase : scan.phase <;> simp only [phase, Phase.step] at accepted <;>
        first
          | cases accepted
          | (split_ifs at accepted; cases accepted; simp_all [JournalEntry.turn])

/-- In an accepted journal no entry names a later turn than the expected one, and between turns none
names the turn to come. -/
theorem scans_turns {journal : Journal} (scans : Scans invocation journal scan) :
    ∀ entry ∈ journal, entry.turn ≤ scan.expectedTurn ∧
      (scan.phase = .needTurnOpened → entry.turn < scan.expectedTurn) := by
  induction journal using List.reverseRecOn generalizing scan with
  | nil => exact List.forall_mem_nil _
  | append_singleton journal last ih =>
    obtain ⟨before, scansBefore, taken⟩ := scans_append.mp scans
    have named := scanEntry_turn taken
    intro entry member
    have earlier : entry.turn ≤ before.expectedTurn := by
      rcases List.mem_append.mp member with old | new
      · exact (ih scansBefore entry old).1
      · rw [List.mem_singleton.mp new]
        exact named.1.le
    rcases named.2 with stays | moves
    · exact ⟨stays.1 ▸ earlier, fun between => absurd between stays.2⟩
    · exact ⟨by omega, fun _ => by omega⟩

theorem scanEntry_step {phase next : Phase} {turn : Nat} {pending : Option String}
    (taken : phase.step entry = some next) (named : entry.turn = turn) :
    scanEntry invocation seq ⟨phase, turn, false, pending⟩ entry =
      .ok ⟨next, turn, false, pending⟩ := by
  cases phase <;> cases entry <;> cases taken <;> cases named <;>
    simp only [scanEntry, Phase.step, Bool.false_eq_true, ne_eq, not_true_eq_false, if_false]

theorem Scans.push {journal : Journal} (scans : Scans invocation journal scan)
    (taken : scanEntry invocation journal.length scan entry = .ok after) :
    Scans invocation (journal ++ [entry]) after :=
  scans_append.mpr ⟨scan, scans, taken⟩

end Scan

/-- `validate` accepts the journal for the invocation. -/
def Accepted (invocation : String) (journal : Journal) : Prop :=
  ∃ validated, validate journal invocation = .ok validated

variable {invocation : String} {journal : Journal}

/-- What `validate` says of a journal that is in order. -/
theorem validate_of_scans {scan : Scan} (scans : Scans invocation journal scan)
    (nonempty : journal ≠ []) :
    validate journal invocation = .ok
      { entries := journal
        terminal := scan.ended
        resumableTurn :=
          if ¬ scan.ended ∧ scan.phase = .needTurnOpened then some scan.expectedTurn else none
        uncertainIntent := !scan.ended && scan.phase = .needResponse } := by
  unfold validate
  rw [if_neg (by rwa [List.isEmpty_iff]), show scanFrom invocation 0 .start journal = _ from scans]

theorem accepted_iff :
    Accepted invocation journal ↔ journal ≠ [] ∧ ∃ scan, Scans invocation journal scan := by
  refine ⟨fun accepted => ?_, fun found => ?_⟩
  · obtain ⟨validated, ran⟩ := accepted
    unfold validate at ran
    split_ifs at ran with empty
    refine ⟨fun isEmpty => empty (List.isEmpty_iff.mpr isEmpty), ?_⟩
    unfold Scans
    cases scanned : scanFrom invocation 0 .start journal with
    | error fault => rw [scanned] at ran; exact nomatch ran
    | ok scan => exact ⟨scan, rfl⟩
  · obtain ⟨nonempty, scan, scans⟩ := found
    exact ⟨_, validate_of_scans scans nonempty⟩

end Semaprax.LiveInvocation
