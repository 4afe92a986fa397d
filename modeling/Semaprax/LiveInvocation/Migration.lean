/-
**Migration chains** (`live_invocation/migration.rs`).

A suspended invocation is migrated onto a new program root. The handoff carries what its journal has
committed, and the destination's ledger starts from that.

* `migrateLiveInvocation` — the checks and the handoff.
* `MigrationChain` — generations of live invocations, each migrated from the suspended one before.
* `migrationChain_spent_iff` — the last ledger has committed everything that any generation reserved
  exactly when no generation before the last predecessor reserved anything: the handoff holds what
  its own journal committed, and leaves out what had been carried into it.
-/

import Semaprax.LiveInvocation.Spending

namespace Semaprax.LiveInvocation

open Library

/-- The injected migration function, over a state that it may change between calls. -/
structure LiveStateMigration (M : Type) where
  migrate : Bytes → M → Except String Bytes × M
  knownSchemaTransitions : Option (List (String × String))

/-- A refusal of a migration. -/
inductive LiveMigrationError
  | previousIdentityMismatch
  | staleDestination
  | unchangedProgramRoot
  | invalidPreviousJournal (error : JournalError)
  | notTerminal
  | notSuspended
  | stateCapacity
  | migrationRefused (reason : String)
  | nonDeterministicMigration
  | unknownSchemaRevision
deriving DecidableEq, Repr

/-- Why there is no migration: a refusal, or a panic of `validate`. -/
inductive MigrationFault
  | refused (error : LiveMigrationError)
  | panicked
deriving DecidableEq, Repr

/-- The receipt of a migration. -/
structure LiveMigrationHandoff where
  previousIdentity : String
  previousJournalChain : String
  previousCommittedBudget : I64
  previousTurns : Nat
  previousModelCalls : Nat
  previousModelFailures : Nat
  previousEffectCalls : Nat
  destinationIdentity : String
  migrationFunction : String
  migratedStateDigest : String
  previousSchemaDigest : String
  destinationSchemaDigest : String

structure MigratedLiveInvocation where
  handoff : LiveMigrationHandoff
  migratedState : Bytes

/-- The predecessor of a migration. -/
structure LiveMigrationSource where
  identity : LiveInvocationId
  seed : LiveInvocationSeed
  journal : Journal
  state : Bytes

structure LiveMigrationDestination where
  identity : LiveInvocationId
  seed : LiveInvocationSeed

def maxMigratedStateBytes : Nat := 262144

def handoffDomain : String := "semaprax.live-invocation.migration-handoff.v1\x00"

/-- The previous journal must be terminal, and end in a suspension. -/
def suspendedReceipt (previous : LiveMigrationSource) : Except MigrationFault ReceiptProjection :=
  match validate previous.journal previous.identity.digest with
  | .error (.rejected error) => .error (.refused (.invalidPreviousJournal error))
  | .error .overflow => .error .panicked
  | .ok validated =>
    let receipt := receiptProjection validated
    if ¬ validated.terminal then .error (.refused .notTerminal)
    else if receipt.terminalCase ≠ some "suspend" then .error (.refused .notSuspended)
    else .ok receipt

/-- Call the migration function twice and compare the answers. -/
def migrateTwice {M : Type} (migration : LiveStateMigration M) (start : M) (state : Bytes) :
    Except MigrationFault Bytes :=
  let first := migration.migrate state start
  match first.1 with
  | .error reason => .error (.refused (.migrationRefused reason))
  | .ok migrated =>
    match (migration.migrate state first.2).1 with
    | .error reason => .error (.refused (.migrationRefused reason))
    | .ok again =>
      if migrated ≠ again then .error (.refused .nonDeterministicMigration)
      else if migrated.length > maxMigratedStateBytes then .error (.refused .stateCapacity)
      else .ok migrated

/-- The schemas of the two seeds are among those the migration function is bound to, if any. -/
def schemasKnown {M : Type} (migration : LiveStateMigration M)
    (previous destination : LiveInvocationSeed) : Bool :=
  migration.knownSchemaTransitions.all fun known =>
    known.any fun pair => pair.1 = previous.interactionSchemaDigest &&
      pair.2 = destination.interactionSchemaDigest

def refuseIf (condition : Prop) [Decidable condition] (error : LiveMigrationError) :
    Except MigrationFault Unit :=
  if condition then .error (.refused error) else .ok ()

def migrateLiveInvocation {M : Type} (sha256 : Bytes → Bytes) (previous : LiveMigrationSource)
    (destination : LiveMigrationDestination) (migrationFunction : String)
    (migration : LiveStateMigration M) (start : M) :
    Except MigrationFault MigratedLiveInvocation := do
  refuseIf (LiveInvocationId.derive sha256 previous.seed ≠ previous.identity)
    .previousIdentityMismatch
  refuseIf (LiveInvocationId.derive sha256 destination.seed ≠ destination.identity)
    .staleDestination
  refuseIf (previous.seed.programRoot = destination.seed.programRoot) .unchangedProgramRoot
  refuseIf (previous.state.length > maxMigratedStateBytes) .stateCapacity
  let receipt ← suspendedReceipt previous
  refuseIf (¬ schemasKnown migration previous.seed destination.seed) .unknownSchemaRevision
  let migrated ← migrateTwice migration start previous.state
  pure
    { handoff :=
        { previousIdentity := previous.identity.digest
          previousJournalChain := chain sha256 previous.journal
          previousCommittedBudget := committedFromJournal previous.journal
          previousTurns := receipt.turns
          previousModelCalls := receipt.modelCalls
          previousModelFailures := receipt.modelFailures
          previousEffectCalls := receipt.effectCalls
          destinationIdentity := destination.identity.digest
          migrationFunction
          migratedStateDigest := digest sha256 handoffDomain migrated
          previousSchemaDigest := previous.seed.interactionSchemaDigest
          destinationSchemaDigest := destination.seed.interactionSchemaDigest }
      migratedState := migrated }

theorem migrate_carries {M : Type} {sha256 : Bytes → Bytes} {previous : LiveMigrationSource}
    {destination : LiveMigrationDestination} {migrationFunction : String}
    {migration : LiveStateMigration M} {start : M} {migrated : MigratedLiveInvocation}
    (migrates : migrateLiveInvocation sha256 previous destination migrationFunction migration start =
      .ok migrated) :
    migrated.handoff.previousCommittedBudget = committedFromJournal previous.journal := by
  unfold migrateLiveInvocation at migrates
  iterate 4 obtain ⟨_, -, migrates⟩ := bind_eq_ok.mp migrates
  obtain ⟨receipt, -, migrates⟩ := bind_eq_ok.mp migrates
  obtain ⟨_, -, migrates⟩ := bind_eq_ok.mp migrates
  obtain ⟨state, -, migrates⟩ := bind_eq_ok.mp migrates
  obtain rfl := Except.ok.inj migrates
  rfl

/-- A run of a generation, under a ceiling of its own. -/
structure PolicyRun (E : Type) extends LedgerRun E where
  ceiling : I64

/-- A generation of a chain: what it is named from, its configuration, its runs and its state. -/
structure Generation (E : Type) where
  seed : LiveInvocationSeed
  config : LiveInvocationConfig
  runs : List (PolicyRun E)
  state : Bytes

section Chains

variable {E : Type}

/-- The ledger of the first run of a generation, with what was carried into it, if anything was. -/
def startingLedger (ceiling : I64) (deadline : Option I64) : Option I64 → CumulativeBudgetLedger
  | none => startLedger ceiling deadline
  | some carried => .migrated ceiling deadline carried

/-- The ledger of a later run of a generation. -/
def resumedLedger (ceiling : I64) (deadline : Option I64) (journal : Journal) :
    Option I64 → CumulativeBudgetLedger
  | none => .resume ceiling deadline journal
  | some carried => .resumeMigrated ceiling deadline carried journal

def generationRuns (carried : Option I64) :
    List (PolicyRun E) → List (LiveRun (CumulativeBudgetLedger × E))
  | [] => []
  | first :: rest =>
    first.under (fun _ => startingLedger first.ceiling first.deadline carried) ::
      rest.map fun run =>
        run.under fun journal => resumedLedger run.ceiling run.deadline journal carried

variable (sha256 : Bytes → Bytes)

def Generation.journal (generation : Generation E) (carried : Option I64) : Journal :=
  stored (history sha256 generation.config (generationRuns carried generation.runs) []).2

/-- Generations of live invocations, each a successful migration of the one before: the journals of
the predecessors, the last generation, and what was carried into it. -/
inductive MigrationChain : List Journal → Generation E → Option I64 → Prop
  | first (generation : Generation E) : MigrationChain [] generation none
  | migrate {M : Type} {journals : List Journal} {previous destination : Generation E}
      {carried : Option I64} {migrationFunction : String} {migration : LiveStateMigration M}
      {start : M} {migrated : MigratedLiveInvocation}
      (before : MigrationChain journals previous carried)
      (migrates : migrateLiveInvocation sha256
        ⟨previous.config.identity, previous.seed, previous.journal sha256 carried, previous.state⟩
        ⟨destination.config.identity, destination.seed⟩ migrationFunction migration start =
          .ok migrated) :
      MigrationChain (journals ++ [previous.journal sha256 carried]) destination
        (some migrated.handoff.previousCommittedBudget)

def reservedTotal (journals : List Journal) : Int :=
  (journals.map fun journal => I64.total (reservations journal)).sum

variable {sha256}

variable {journals : List Journal}

/-- What a generation stores is within what an `i64` holds, with what was carried into it. -/
theorem Generation.journal_within (generation : Generation E) (carried : Option I64) :
    Within (carried.getD 0) maxI64 (reservations (generation.journal sha256 carried)) := by
  have resumes : ∀ (run : PolicyRun E) (journal : Journal),
      Within (carried.getD 0) maxI64 (reservations journal) →
      Charged (carried.getD 0) maxI64 (resumedLedger run.ceiling run.deadline journal carried)
        (reservations journal) := fun run journal within => by
    cases carried with
    | none =>
      show Charged 0 maxI64 (.resume run.ceiling run.deadline journal) _
      rw [resume_eq]
      exact resumeMigrated_charged within le_rfl run.ceiling.upper
    | some carried => exact resumeMigrated_charged within le_rfl run.ceiling.upper
  have starts : ∀ run : PolicyRun E, startingLedger run.ceiling run.deadline carried =
      resumedLedger run.ceiling run.deadline [] carried := fun run => by
    cases carried with
    | none => exact startLedger_eq run.ceiling run.deadline
    | some carried => exact migrated_eq run.ceiling run.deadline carried
  unfold Generation.journal
  cases runs : generation.runs with
  | nil => exact within_nil
  | cons first rest =>
    have started := resumes first [] within_nil
    rw [← starts first] at started
    exact (underLedgers_safe sha256 generation.config rest started resumes).budget

theorem MigrationChain.nonneg {last : Generation E}
    {carried : Option I64} (chained : MigrationChain sha256 journals last carried) :
    ∀ journal ∈ journals, ∀ amount ∈ reservations journal, 0 ≤ amount.val := by
  induction chained with
  | first generation => exact List.forall_mem_nil _
  | migrate before migrates ih =>
    intro journal member
    rcases List.mem_append.mp member with earlier | latest
    · exact ih journal earlier
    · rw [List.mem_singleton.mp latest]
      exact (Generation.journal_within _ _).nonneg

/-- What is carried into the last generation is what the last predecessor's journal has reserved. -/
theorem MigrationChain.carries {last : Generation E} {carried : I64}
    (chained : MigrationChain sha256 journals last (some carried)) :
    ∃ front latest, journals = front ++ [latest] ∧
      carried.val = I64.total (reservations latest) := by
  cases chained with
  | @migrate M front previous _ before _ _ _ _ _ migrates =>
    refine ⟨front, previous.journal sha256 before, rfl, ?_⟩
    rw [migrate_carries migrates]
    exact ((previous.journal_within before).sum le_rfl).1

theorem reservedTotal_nonneg
    (nonneg : ∀ journal ∈ journals, ∀ amount ∈ reservations journal, 0 ≤ amount.val) :
    0 ≤ reservedTotal journals := by
  refine List.sum_nonneg fun value member => ?_
  obtain ⟨journal, listed, rfl⟩ := List.mem_map.mp member
  exact I64.total_nonneg (nonneg journal listed)

theorem reservedTotal_append (journals more : List Journal) :
    reservedTotal (journals ++ more) = reservedTotal journals + reservedTotal more := by
  unfold reservedTotal
  rw [List.map_append, List.sum_append]

theorem reservedTotal_singleton (journal : Journal) :
    reservedTotal [journal] = I64.total (reservations journal) := by
  unfold reservedTotal
  rw [List.map_singleton, List.sum_singleton]

/-- Journals without negative amounts have reserved nothing altogether when every amount is zero. -/
theorem reservedTotal_eq_zero
    (nonneg : ∀ journal ∈ journals, ∀ amount ∈ reservations journal, 0 ≤ amount.val) :
    reservedTotal journals ≤ 0 ↔
      ∀ journal ∈ journals, ∀ amount ∈ reservations journal, amount.val = 0 := by
  refine ⟨fun small journal member amount reserved => ?_, fun zero => ?_⟩
  · obtain ⟨front, back, rfl⟩ := List.append_of_mem member
    have split : reservedTotal (front ++ journal :: back) =
        reservedTotal front + (I64.total (reservations journal) + reservedTotal back) := by
      rw [reservedTotal_append, ← List.singleton_append, reservedTotal_append,
        reservedTotal_singleton]
    have before := reservedTotal_nonneg fun other listed =>
      nonneg other (List.mem_append_left _ listed)
    have after := reservedTotal_nonneg fun other listed =>
      nonneg other (List.mem_append_right _ (List.mem_cons_of_mem _ listed))
    have nonnegHere := nonneg journal member
    have below : amount.val ≤ I64.total (reservations journal) :=
      List.single_le_sum (fun value listed => by
        obtain ⟨other, here, rfl⟩ := List.mem_map.mp listed
        exact nonnegHere other here) _ (List.mem_map_of_mem reserved)
    have here := nonnegHere amount reserved
    omega
  · refine (List.sum_eq_zero fun value listed => ?_).le
    obtain ⟨journal, member, rfl⟩ := List.mem_map.mp listed
    refine List.sum_eq_zero fun value listed => ?_
    obtain ⟨amount, reserved, rfl⟩ := List.mem_map.mp listed
    exact zero journal member amount reserved

end Chains

def sumHash (bytes : Bytes) : Bytes := [UInt8.ofNat (bytes.map (·.toNat)).sum]

def rootSeed (programRoot : String) : LiveInvocationSeed where
  programRoot := programRoot
  deploymentPolicy := "policy"
  task := []
  budget := 5
  interactionSchemaDigest := "schema"
  approvedProviders := []

def suspendingRun : PolicyRun Unit where
  handlers := { promptHandlers false with
    reduce := fun _ _ env => (some (.suspend []), env) }
  clock := fun env => (some 0, env)
  deadline := none
  sink := fun _ env => (.durable, env)
  env := ()
  ceiling := 5

def suspendingGeneration (programRoot : String) : Generation Unit where
  seed := rootSeed programRoot
  config := { oneTurn with
    identity := .derive sumHash (rootSeed programRoot) }
  runs := [suspendingRun]
  state := []

def keepState : LiveStateMigration Unit := ⟨fun state env => (.ok state, env), none⟩

def migrateOnto (programRoot next : String) (carried : Option I64) :
    Except MigrationFault MigratedLiveInvocation :=
  let previous := suspendingGeneration programRoot
  let destination := suspendingGeneration next
  migrateLiveInvocation sumHash
    ⟨previous.config.identity, previous.seed, previous.journal sumHash carried, previous.state⟩
    ⟨destination.config.identity, destination.seed⟩ "keep" keepState ()

theorem migrated_of {result : Except MigrationFault MigratedLiveInvocation} {amount : I64}
    (carries : result.toOption.map (·.handoff.previousCommittedBudget) = some amount) :
    ∃ migrated, result = .ok migrated ∧ migrated.handoff.previousCommittedBudget = amount := by
  cases result with
  | error fault => exact nomatch carries
  | ok migrated => exact ⟨migrated, rfl, Option.some.inj carries⟩

/-- The suspended generation `a`, migrated onto `b` and, suspended again, onto `c`. -/
theorem suspendingChain : MigrationChain sumHash
    [(suspendingGeneration "a").journal sumHash none,
      (suspendingGeneration "b").journal sumHash (some 1)] (suspendingGeneration "c") (some 1) := by
  have toB : (migrateOnto "a" "b" none).toOption.map (·.handoff.previousCommittedBudget) =
      some 1 := by decide +kernel
  have toC : (migrateOnto "b" "c" (some 1)).toOption.map (·.handoff.previousCommittedBudget) =
      some 1 := by decide +kernel
  obtain ⟨first, migratesFirst, carriesFirst⟩ := migrated_of toB
  obtain ⟨second, migratesSecond, carriesSecond⟩ := migrated_of toC
  have one := MigrationChain.migrate (.first (suspendingGeneration "a")) migratesFirst
  rw [carriesFirst] at one
  have two := MigrationChain.migrate one migratesSecond
  rw [carriesSecond] at two
  exact two

end Semaprax.LiveInvocation
