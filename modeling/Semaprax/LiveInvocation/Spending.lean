/-
**Spend across crashes** (`live_invocation/budget.rs`, `live_invocation/journal.rs`).

Histories whose budget hook is the cumulative ledger: a fresh one for the first run, and one built
from the journal last persisted for every later run, under one ceiling.

* `ledgerHistory_safe` — whatever is stored is within the ceiling, and every model call is charged to it.
* `committed_mono_iff` — the committed total grows along a journal exactly when no amount is negative.
* `spend_kept_iff` — the ledger of the next run has committed what was dispatched so far, which is
  within the ceiling exactly when that is not negative.
* `committed_decreases` — `decode` and `validate` take a journal whose total goes down.
-/

import Semaprax.LiveInvocation.Budget
import Semaprax.LiveInvocation.Wire

namespace Semaprax.LiveInvocation

open Library

/-- One run of a history with a ledger: the other handlers, the clock and the deadline. -/
structure LedgerRun (E : Type) where
  handlers : LiveInvocationHandlers E
  clock : Call E I64
  deadline : Option I64
  sink : Journal → E → Persisted × E
  env : E

section Histories

variable {E : Type}

def LedgerRun.under (run : LedgerRun E) (ledger : Journal → CumulativeBudgetLedger) :
    LiveRun (CumulativeBudgetLedger × E) where
  handlers := ledgerHandlers run.handlers run.clock
  sink := fun journal => beside (run.sink journal)
  start := fun journal => (ledger journal, run.env)

def startLedger (ceiling : I64) : Option I64 → CumulativeBudgetLedger
  | none => .new ceiling
  | some deadline => .withDeadline ceiling deadline

def ledgerRuns (ceiling : I64) : List (LedgerRun E) → List (LiveRun (CumulativeBudgetLedger × E))
  | [] => []
  | first :: rest => first.under (fun _ => startLedger ceiling first.deadline) ::
      rest.map fun run => run.under (.resume ceiling run.deadline)

/-- The sum of what was reserved for the model calls dispatched so far. -/
def dispatchedTotal (log : List Event) : Int :=
  I64.total ((dispatchedRequests log).map (·.effectiveBudget))

variable (sha256 : Bytes → Bytes) (config : LiveInvocationConfig) {carried : I64} {limit : Int}

theorem LedgerRun.keeps (run : LedgerRun E) (ledger : Journal → CumulativeBudgetLedger) :
    Keeps (Within carried limit) (fun env amounts => Charged carried limit env.1 amounts)
      ((run.under ledger).call sha256 config).handlers := by
  let handlers : LiveInvocationHandlers E := { run.handlers with
    sink := some run.sink }
  show Keeps _ _ (ledgerHandlers handlers run.clock)
  exact ledgerHandlers_keep run.clock rfl

theorem startLedger_eq (ceiling : I64) (deadline : Option I64) :
    startLedger ceiling deadline = .resume ceiling deadline [] := by
  cases deadline <;> rfl

theorem resume_charged {ceiling : I64} {deadline : Option I64} {journal : Journal}
    (within : Within 0 ceiling.val (reservations journal)) :
    Charged 0 ceiling.val (.resume ceiling deadline journal) (reservations journal) := by
  rw [resume_eq]
  exact resumeMigrated_charged within ceiling.upper le_rfl

/-- A first run with a charged ledger, and later ones whose ledgers are charged with the journal they
resume, keep what is stored within the limit. -/
theorem underLedgers_safe {R : Type} {first : LedgerRun E} {start : CumulativeBudgetLedger}
    {runOf : R → LedgerRun E} {resumed : R → Journal → CumulativeBudgetLedger} (rest : List R)
    (started : Charged carried limit start [])
    (resumes : ∀ run journal, Within carried limit (reservations journal) →
      Charged carried limit (resumed run journal) (reservations journal)) :
    Safe config.identity.digest (Within carried limit)
      (history sha256 config (first.under (fun _ => start) ::
        rest.map fun run => (runOf run).under (resumed run)) []).2 := by
  have safe := LiveRun.result_safe sha256 config (first.keeps sha256 config fun _ => start) started
    (safe_nil within_nil)
  have keeps : ∀ run ∈ rest.map fun run => (runOf run).under (resumed run),
      Keeps (Within carried limit) (fun env amounts => Charged carried limit env.1 amounts)
        (run.call sha256 config).handlers := fun run member => by
    obtain ⟨later, -, rfl⟩ := List.mem_map.mp member
    exact (runOf later).keeps sha256 config _
  refine (history_safe sha256 config keeps (fun run member journal within => ?_) safe.2).2
  obtain ⟨later, -, rfl⟩ := List.mem_map.mp member
  exact resumes later journal within

theorem ledgerHistory_safe (ceiling : I64) (runs : List (LedgerRun E)) :
    Safe config.identity.digest (Within 0 ceiling.val)
      (history sha256 config (ledgerRuns ceiling runs) []).2 := by
  cases runs with
  | nil => exact safe_nil within_nil
  | cons first rest =>
    have started : Charged 0 ceiling.val (startLedger ceiling first.deadline) [] := by
      rw [startLedger_eq]
      exact resume_charged within_nil
    exact underLedgers_safe sha256 config rest started fun run journal within =>
      resume_charged within

theorem Safe.dispatched_le {invocation : String} {log : List Event}
    (safe : Safe invocation (Within carried limit) log) :
    0 ≤ dispatchedTotal log ∧ dispatchedTotal log ≤ I64.total (reservations (stored log)) := by
  have nonneg := safe.budget.nonneg
  refine ⟨I64.total_nonneg fun amount member => nonneg amount (safe.charged.subset member), ?_⟩
  refine (safe.charged.map (·.val)).sum_le_sum fun value member => ?_
  obtain ⟨amount, listed, rfl⟩ := List.mem_map.mp member
  exact nonneg amount listed

end Histories

/-- The committed total never decreases from a prefix to a longer prefix. -/
def CommittedGrows (journal : Journal) : Prop :=
  ∀ front longer : Journal, front <+: longer → longer <+: journal →
    (committedFromJournal front).val ≤ (committedFromJournal longer).val

theorem committed_mono_iff (journal : Journal) :
    CommittedGrows journal ↔ ∀ amount ∈ reservations journal, 0 ≤ amount.val := by
  refine ⟨fun grows => ?_, fun nonneg front longer before within => ?_⟩
  · induction journal using List.reverseRecOn with
    | nil => exact List.forall_mem_nil _
    | append_singleton journal entry ih =>
      have earlier := ih fun front longer before within =>
        grows front longer before (within.trans (List.prefix_append _ _))
      cases reserved : entry.reserved with
      | none => rwa [reservations_push reserved]
      | some amount =>
        have pushed : reservations (journal ++ [entry]) = reservations journal ++ [amount] := by
          unfold reservations
          rw [List.filterMap_append, List.filterMap_cons_some reserved, List.filterMap_nil]
        have step := grows journal _ (List.prefix_append _ _) (List.prefix_refl _)
        have sum := I64.sumSaturating_val earlier
        have total := I64.total_nonneg earlier
        unfold committedFromJournal at step
        rw [pushed, I64.sumSaturating_append, I64.saturatingAdd_val, sum] at step
        rw [pushed]
        intro other member
        rcases List.mem_append.mp member with old | new
        · exact earlier other old
        · rw [List.mem_singleton.mp new]
          have low : minI64 < 0 := by decide
          have lower := amount.lower
          have high : 0 < maxI64 := by decide
          omega
  · obtain ⟨rest, split⟩ := before.filterMap JournalEntry.reserved
    have later : ∀ amount ∈ reservations longer, 0 ≤ amount.val :=
      fun amount member => nonneg amount ((reservations_sublist within).subset member)
    have joined : reservations longer = reservations front ++ rest := split.symm
    rw [joined] at later
    unfold committedFromJournal
    rw [joined, I64.sumSaturating_val later, I64.sumSaturating_val fun amount member =>
      later amount (List.mem_append_left _ member), I64.total_append]
    have added := I64.total_nonneg fun amount member =>
      later amount (List.mem_append_right _ member)
    omega

/-- **Spend is kept across crashes.** After any history of runs with the ledger, the ledger of the
next run has committed at least what was reserved for the calls dispatched so far, and that is within
the ceiling exactly when the ceiling is not negative. Along a journal that `decode` and `validate`
accept, the committed total grows exactly when no intent reserves a negative amount. -/
theorem spend_kept_iff (sha256 : Bytes → Bytes) (config : LiveInvocationConfig) :
    (∀ (E : Type) (ceiling : I64) (runs : List (LedgerRun E)) (deadline : Option I64),
      let log := (history sha256 config (ledgerRuns ceiling runs) []).2
      dispatchedTotal log ≤
          (CumulativeBudgetLedger.resume ceiling deadline (stored log)).committed.val ∧
        (dispatchedTotal log ≤ ceiling.val ↔ 0 ≤ ceiling.val)) ∧
      ∀ (value : Value) (invocation : String) (journal : Journal),
        decode value = some journal → Accepted invocation journal →
        (CommittedGrows journal ↔ ∀ amount ∈ reservations journal, 0 ≤ amount.val) := by
  refine ⟨fun E ceiling runs deadline => ?_, fun _ _ journal _ _ => committed_mono_iff journal⟩
  have safe := ledgerHistory_safe sha256 config ceiling runs
  have spent := safe.dispatched_le
  have limited := safe.budget.limited
  have charged := (resume_charged safe.budget : Charged 0 ceiling.val
    (.resume ceiling deadline _) _)
  have committed := charged.committed
  rw [I64.atLeastZero_val, I64.zero_val, max_self] at committed limited
  dsimp only
  omega

/-- A digest of nothing in particular. -/
def someDigest : String :=
  "sha256:0000000000000000000000000000000000000000000000000000000000000000"

/-- A journal that reserves five units less than nothing. -/
def refundingDocument : Value :=
  .array [
    .object [("seq", .integer 0), ("kind", .string "turn_opened"), ("turn", .integer 0),
      ("invocation", .string someDigest), ("observation_digest", .string someDigest)],
    .object [("seq", .integer 1), ("kind", .string "request_intent"), ("turn", .integer 0),
      ("request_digest", .string someDigest), ("reserved_budget", .integer (-5))]]

def refundingJournal : Journal :=
  [JournalEntry.turnOpened 0 someDigest someDigest, .requestIntent 0 someDigest (I64.saturate (-5))]

/-- The document decodes and its journal validates, and the committed total goes down along it. -/
theorem committed_decreases : decode refundingDocument = some refundingJournal ∧
      Accepted someDigest refundingJournal ∧
      (committedFromJournal (refundingJournal.take 1)).val = 0 ∧
      (committedFromJournal refundingJournal).val = -5 := by
  refine ⟨by decide +kernel, ⟨_, rfl⟩, by decide +kernel, by decide +kernel⟩

theorem spend_kept_refunding : CommittedGrows refundingJournal ↔
      ∀ amount ∈ reservations refundingJournal, 0 ≤ amount.val :=
  (spend_kept_iff id oneTurn).2 refundingDocument someDigest refundingJournal
    (by decide +kernel) ⟨_, rfl⟩

end Semaprax.LiveInvocation
