/-
**The rows of the jobs** (`job_fixture.rs`, `database_fixture.rs`).

A store and a database whose transactions it alone drives. A job that is entered gets a row, whose
state is rewritten by each durable completion.

* `Step`, `Books.step` — a call on the store, with the database or with any other one, and what
  others write into other tables.
* `Posted` — no transaction is open, and every row is that of one job; `step_posted`.
* `Lawful` — what is asked of a step; `lawful_iff` — every step is lawful exactly if no job is
  entered with a schedule: such a job is scheduled, and its row says that it is pending.
* `scheduled_row_pending` — such a job.
-/

import Semaprax.DurableJobs.Lifecycle

namespace Semaprax.DurableJobs

open Library

inductive Step
  | call (call : Call)
  | enqueue (idempotencyKey payloadDescriptor : List UInt8) (schedule : Option Schedule)
      (maxAttempts : Nat) (isIdempotentHandler : Bool)
  | completeDurable (id : Nat) (report : CompletionAttempt)
  | write (name : String) (table : Table)

/-- A store and the database that it keeps its rows in. -/
structure Books where
  store : JobStore
  ledger : DatabaseFixture

namespace Books

def step (books : Books) : Step → Except Fault Answer × Books
  | .call call =>
    let ran := JobStore.perform call books.store
    (ran.1, ⟨ran.2, books.ledger⟩)
  | .enqueue key payload schedule maxAttempts isIdempotentHandler =>
    let ran := JobStore.enqueue key payload schedule maxAttempts isIdempotentHandler
      (books.store, books.ledger)
    (ran.1.map .enqueued, ⟨ran.2.1, ran.2.2⟩)
  | .completeDurable id report =>
    let ran := JobStore.completeDurable id report (books.store, books.ledger)
    (ran.1.map .state, ⟨ran.2.1, ran.2.2⟩)
  | .write name table =>
    -- the table of the jobs is the store's own
    if name = "jobs" then (.ok .done, books)
    else (.ok .done, { books with
      ledger := { books.ledger with
        tables := books.ledger.tables.insert name table } })

def new (currentRevision : Nat) : Books :=
  ⟨JobStore.new currentRevision, (JobStore.installLedgerSchema DatabaseFixture.new).2⟩

def run (currentRevision : Nat) (steps : List Step) : Books :=
  steps.foldl (fun books step => (books.step step).2) (new currentRevision)

end Books

def Step.asCall (ledger : DatabaseFixture) : Step → Option Call
  | .call other => some other
  | .enqueue key payload schedule maxAttempts isIdempotentHandler =>
    some (.enqueue ledger key payload schedule maxAttempts isIdempotentHandler)
  | .completeDurable id report => some (.completeDurable ledger id report)
  | .write _ _ => none

/-- The states that the rows of a job give. -/
def stateColumn (ledger : DatabaseFixture) (id : Nat) : List (Option Value) :=
  (((ledger.tables["jobs"]?.map Table.rows).getD []).filter fun row =>
    row[0]? = some (.usize id)).map fun row => row[2]?

/-- The state that a completion leads to. -/
def JobRecord.settled (job : JobRecord) (outcome : OutcomeKind) : JobState :=
  if job.projected outcome = .retryableFailure then .scheduled else job.projected outcome

/-- The database confirms the completion of a job. -/
def Books.Confirms (books : Books) (id : Nat) (outcome : OutcomeKind) : Prop :=
  ∃ job, books.store.jobs[id]? = some job ∧
    (JobStore.recordInLedger id (job.settled outcome) books.ledger).1 = .ok ()

/-- A step has entered or completed a job, other than as uncertain for want of a confirmation. -/
def Books.Records (books : Books) (step : Step) (id : Nat) : Prop :=
  match step with
  | .enqueue .. => (books.step step).1 = .ok (.enqueued (.created id))
  | .completeDurable job report => job = id ∧ ∃ state, (books.step step).1 = .ok (.state state) ∧
      (state = .uncertain → books.Confirms id report.outcome)
  | _ => False

/-- What is asked of a step: it is orderly and keeps the lifecycle, and the row of a job that it
enters or completes gives the state of the job. -/
structure Lawful (books : Books) (step : Step) : Prop where
  lifecycle : Lifecycle (books.step step).2.store
  orderly : ∀ call, step.asCall books.ledger = some call →
    Orderly call (books.step step).1 books.store (books.step step).2.store
  rows : ∀ id, books.Records step id → ∃ job, (books.step step).2.store.jobs[id]? = some job ∧
    stateColumn (books.step step).2.ledger id = [some (.usize job.state.code)]

def jobsColumns : List Column := [⟨"id", 3⟩, ⟨"idempotency_key", 4⟩, ⟨"state", 3⟩]

structure JobRow where
  id : Nat
  key : List UInt8
  state : Nat

def JobRow.cells (row : JobRow) : Row := [.usize row.id, .bytes row.key, .usize row.state]

/-- No transaction is open, and every row is that of one job that was entered. -/
structure Posted (store : JobStore) (ledger : DatabaseFixture) (rows : List JobRow) : Prop where
  closed : ledger.transaction ≠ .opened
  table : ledger.tables["jobs"]? = some ⟨jobsColumns, rows.map JobRow.cells⟩
  distinct : (rows.map JobRow.id).Nodup
  known : ∀ row ∈ rows, row.id < store.nextId

section Rows

variable {store : JobStore} {ledger : DatabaseFixture} {rows : List JobRow} {id : Nat}

def JobRow.update (id state : Nat) (row : JobRow) : JobRow :=
  if row.id = id then { row with state := state } else row

theorem updateRows_cells (id state : Nat) (rows : List JobRow) :
    updateRows 0 (.usize id) 2 (.usize state) (rows.map JobRow.cells) =
      (.ok (rows.countP fun row => row.id = id),
        (rows.map (JobRow.update id state)).map JobRow.cells) := by
  induction rows with
  | nil => rfl
  | cons row rows ih =>
    rw [List.map_cons, List.map_cons, List.map_cons, updateRows, ih]
    by_cases same : row.id = id
    · simp [JobRow.cells, JobRow.update, same, Value.tag, Except.map]
    · simp [JobRow.cells, JobRow.update, same]

theorem stateColumn_rows
    (table : ledger.tables["jobs"]? = some ⟨jobsColumns, rows.map JobRow.cells⟩) :
    stateColumn ledger id =
      (rows.filter fun row => row.id = id).map fun row => some (Value.usize row.state) := by
  unfold stateColumn
  rw [table, Option.map_some, Option.getD_some, List.filter_map, List.map_map]
  congr 1
  congr 1
  funext row
  simp [JobRow.cells]

theorem begin_closed (closed : ledger.transaction ≠ .opened) :
    DatabaseFixture.begin.wp (fun _ after => after =
        { ledger with
          transaction := .opened
          snapshot := some ledger.tables })
      (fun _ _ => False) ledger := by
  have next : ledger.transaction.nextOnBegin = .opened := by
    cases state : ledger.transaction <;> simp_all [TransactionState.nextOnBegin]
  unfold DatabaseFixture.begin
  simp only [wp_bind, wp_get, wp_set, wp_stopIf, next]
  exact ⟨fun wrong => wrong rfl, fun _ => trivial⟩

theorem commit_opened (opened : ledger.transaction = .opened) :
    DatabaseFixture.commit.wp (fun _ after => after =
        { ledger with
          transaction := .committed
          snapshot := none })
      (fun _ _ => False) ledger := by
  unfold DatabaseFixture.commit
  have next : ledger.transaction.nextOnCommit = .committed := by
    rw [opened]
    rfl
  simp only [wp_bind, wp_get, wp_set, wp_stopIf, next]
  exact ⟨fun wrong => wrong rfl, fun _ => trivial⟩

theorem rollback_opened (opened : ledger.transaction = .opened) :
    DatabaseFixture.rollback.wp (fun _ after => after =
        { tables := ledger.snapshot.getD ledger.tables
          snapshot := none
          transaction := .rolledBack })
      (fun _ _ => False) ledger := by
  unfold DatabaseFixture.rollback
  have next : ledger.transaction.nextOnRollback = .rolledBack := by
    rw [opened]
    rfl
  simp only [wp_bind, wp_get, wp_set, wp_stopIf, next]
  exact ⟨fun wrong => wrong rfl, fun _ => trivial⟩

theorem tables_insert_same (table : Table) (tables : BTreeMap String Table) :
    (tables.insert "jobs" table)["jobs"]? = some table := by
  rw [BTreeMap.getElem?_insert_eq, if_pos rfl]

theorem insert_posted (table : ledger.tables["jobs"]? = some ⟨jobsColumns, rows.map JobRow.cells⟩)
    (row : JobRow) :
    (DatabaseFixture.insert "jobs" row.cells).wp
      (fun _ after => after.transaction = ledger.transaction ∧
        after.tables["jobs"]? = some ⟨jobsColumns, (rows ++ [row]).map JobRow.cells⟩)
      (fun _ _ => False) ledger := by
  unfold DatabaseFixture.insert
  simp only [wp_bind, wp_get, wp_ofOption, table, wp_stopIf, wp_set]
  refine ⟨fun missing => absurd missing (Option.some_ne_none _), fun found same => ?_⟩
  obtain rfl := Option.some.inj same
  have fits : rowMatchesSchema jobsColumns row.cells = true := rfl
  refine ⟨fun mismatch => by simp [fits] at mismatch, fun _ => ⟨trivial, ?_⟩⟩
  rw [tables_insert_same, List.map_append]
  rfl

theorem updateColumn_posted
    (table : ledger.tables["jobs"]? = some ⟨jobsColumns, rows.map JobRow.cells⟩) (id state : Nat) :
    (DatabaseFixture.updateColumn "jobs" 0 (.usize id) 2 (.usize state)).wp
      (fun count after => count = rows.countP (fun row => row.id = id) ∧
        after.transaction = ledger.transaction ∧ after.snapshot = ledger.snapshot ∧
        after.tables["jobs"]? =
          some ⟨jobsColumns, (rows.map (JobRow.update id state)).map JobRow.cells⟩)
      (fun _ _ => False) ledger := by
  unfold DatabaseFixture.updateColumn
  simp only [wp_bind, wp_get, wp_ofOption, table, wp_set]
  refine ⟨fun missing => absurd missing (Option.some_ne_none _), fun found same => ?_⟩
  obtain rfl := Option.some.inj same
  simp only [updateRows_cells, wp_pure, true_and]
  exact tables_insert_same _ _

theorem map_update_ids (id state : Nat) (rows : List JobRow) :
    (rows.map (JobRow.update id state)).map JobRow.id = rows.map JobRow.id := by
  rw [List.map_map]
  refine List.map_congr_left fun row _ => ?_
  show (JobRow.update id state row).id = row.id
  unfold JobRow.update
  split_ifs <;> rfl

theorem filter_update {state : Nat} (once : rows.countP (fun row => row.id = id) = 1) :
    ((rows.map (JobRow.update id state)).filter fun row => row.id = id).map
      (fun row => some (Value.usize row.state)) = [some (.usize state)] := by
  have states : ((rows.map (JobRow.update id state)).filter fun row => row.id = id).map
      (fun row => some (Value.usize row.state)) =
        (rows.filter fun row => row.id = id).map fun _ => some (Value.usize state) := by
    clear once
    induction rows with
    | nil => rfl
    | cons row rows ih =>
      rw [List.map_cons]
      by_cases same : row.id = id
      · have updated : JobRow.update id state row = { row with state := state } := if_pos same
        rw [updated, List.filter_cons_of_pos (by simpa using same),
          List.filter_cons_of_pos (by simpa using same), List.map_cons, List.map_cons, ih]
      · have kept : JobRow.update id state row = row := if_neg same
        rw [kept, List.filter_cons_of_neg (by simpa using same),
          List.filter_cons_of_neg (by simpa using same), ih]
  rw [states, List.map_const', ← List.countP_eq_length_filter, once]
  rfl

theorem Posted.move {store' : JobStore} (posted : ∃ rows, Posted store ledger rows)
    (numbered : store.nextId ≤ store'.nextId) : ∃ rows, Posted store' ledger rows := by
  obtain ⟨rows, keeps⟩ := posted
  exact ⟨rows, keeps.closed, keeps.table, keeps.distinct,
    fun row member => (keeps.known row member).trans_le numbered⟩

section Posted

variable (posted : Posted store ledger rows)

include posted

theorem recordInLedger_rows (id : Nat) (state : JobState) : (JobStore.recordInLedger id state).wp
      (fun _ after => rows.countP (fun row => row.id = id) = 1 ∧
        Posted store after (rows.map (JobRow.update id state.code)))
      (fun _ after => rows.countP (fun row => row.id = id) ≠ 1 ∧ Posted store after rows) ledger := by
  unfold JobStore.recordInLedger
  rw [wp_bind, wp_mapStop]
  refine wp_mono (begin_closed posted.closed) (fun _ opened same => ?_) fun _ _ => False.elim
  have table : opened.tables["jobs"]? = some ⟨jobsColumns, rows.map JobRow.cells⟩ := by
    rw [same]
    exact posted.table
  have running : opened.transaction = .opened := by rw [same]
  have kept : opened.snapshot = some ledger.tables := by rw [same]
  rw [wp_bind, wp_mapStop]
  refine wp_mono (updateColumn_posted table id state.code) (fun count updated after => ?_)
    fun _ _ => False.elim
  obtain ⟨rfl, transaction, snapshot, changed⟩ := after
  split_ifs with other
  · rw [wp_bind, wp_attempt]
    refine wp_mono (rollback_opened (transaction.trans running)) (fun _ restored equal => ?_)
      fun _ _ => False.elim
    rw [wp_stop]
    refine ⟨other, ?_, ?_, posted.distinct, posted.known⟩
    · simp [equal]
    · rw [equal, snapshot, kept]
      exact posted.table
  · rw [wp_mapStop]
    refine wp_mono (commit_opened (transaction.trans running)) (fun _ committed equal => ?_)
      fun _ _ => False.elim
    refine ⟨not_not.mp other, ?_, ?_, ?_, fun row member => ?_⟩
    · simp [equal]
    · rw [equal]
      exact changed
    · rw [map_update_ids]
      exact posted.distinct
    · have ids : row.id ∈ rows.map JobRow.id := by
        rw [← map_update_ids id state.code]
        exact List.mem_map_of_mem member
      obtain ⟨before, there, equal⟩ := List.mem_map.mp ids
      exact equal ▸ posted.known before there

theorem recordInLedger_posted (id : Nat) (state : JobState) : (JobStore.recordInLedger id state).wp
      (fun _ after => (∃ rows', Posted store after rows') ∧
        stateColumn after id = [some (.usize state.code)])
      (fun _ after => ∃ rows', Posted store after rows') ledger := by
  refine wp_mono (recordInLedger_rows posted id state) (fun _ after recorded => ?_)
    fun _ after refused => ⟨rows, refused.2⟩
  obtain ⟨once, posts⟩ := recorded
  refine ⟨⟨_, posts⟩, ?_⟩
  rw [stateColumn_rows posts.table, filter_update once]

theorem enqueue_rows (room : store.nextId < maxU64)
    (key payload : List UInt8) (schedule : Option Schedule) (maxAttempts : Nat)
    (isIdempotentHandler : Bool) :
    (JobStore.enqueue key payload schedule maxAttempts isIdempotentHandler).wp
      (fun outcome after => store.KeyInUse key ∧ after = (store, ledger) ∧
          (∀ id, outcome ≠ .created id) ∨
        ¬store.KeyInUse key ∧ outcome = .created store.nextId ∧
          after.1 = JobStore.put
            { store with
              nextId := store.nextId + 1 } store.nextId
            (JobStore.freshJob key payload schedule maxAttempts isIdempotentHandler
              store.currentRevision) ∧
          Posted after.1 after.2 (rows ++ [⟨store.nextId, key, 0⟩]))
      (fun _ _ => False) (store, ledger) := by
  unfold JobStore.enqueue
  rw [wp_bind, wp_onFirst, wp_get]
  split
  · rename_i id job used
    have inUse : store.KeyInUse key := by
      have listed := List.mem_of_find?_eq_some used
      refine ⟨id, job, Std.TreeMap.mem_toList_iff_getElem?_eq_some.mp listed, ?_⟩
      simpa using List.find?_some used
    split_ifs <;> exact .inl ⟨inUse, rfl, fun id created => by cases created⟩
  · rename_i unused
    have free := find_key_none unused
    rw [wp_bind, wp_expectLedger_iff]
    refine wp_mono (begin_closed posted.closed) (fun _ opened same => ?_) fun _ _ => False.elim
    have table : opened.tables["jobs"]? = some ⟨jobsColumns, rows.map JobRow.cells⟩ := by
      rw [same]
      exact posted.table
    have running : opened.transaction = .opened := by rw [same]
    rw [wp_bind, wp_expectLedger_iff]
    refine wp_mono (insert_posted table ⟨store.nextId, key, 0⟩) (fun _ inserted after => ?_)
      fun _ _ => False.elim
    rw [wp_bind, wp_expectLedger_iff]
    refine wp_mono (commit_opened (after.1.trans running)) (fun _ committed equal => ?_)
      fun _ _ => False.elim
    simp only [wp_bind, wp_addU64, wp_onFirst, wp_set, wp_pure]
    refine ⟨fun overflow => absurd room (not_lt.mpr (Nat.le_of_lt_succ overflow)),
      fun _ => .inr ⟨free, trivial, trivial, ?_⟩⟩
    have absent : ∀ row ∈ rows, row.id ≠ store.nextId := fun row member =>
      (posted.known row member).ne
    refine ⟨?_, ?_, ?_, ?_⟩
    · simp [equal]
    · rw [equal]
      exact after.2
    · rw [List.map_append, List.nodup_append]
      refine ⟨posted.distinct, List.nodup_singleton _, fun id listed other single => ?_⟩
      obtain ⟨row, member, rfl⟩ := List.mem_map.mp listed
      rw [List.mem_singleton.mp single]
      exact absent row member
    · intro row member
      rcases List.mem_append.mp member with member | member
      · exact Nat.lt_succ_of_lt (posted.known row member)
      · rw [List.mem_singleton.mp member]
        exact Nat.lt_succ_self _

theorem enqueue_posted (room : store.nextId < maxU64)
    (key payload : List UInt8) (schedule : Option Schedule) (maxAttempts : Nat)
    (isIdempotentHandler : Bool) :
    (JobStore.enqueue key payload schedule maxAttempts isIdempotentHandler).wp
      (fun outcome after => (∃ rows', Posted after.1 after.2 rows') ∧
        (¬store.KeyInUse key → outcome = .created store.nextId) ∧
        ∀ id, outcome = .created id → ¬store.KeyInUse key ∧
          after.1.jobs[id]? = some (JobStore.freshJob key payload schedule maxAttempts
            isIdempotentHandler store.currentRevision) ∧
          stateColumn after.2 id = [some (.usize 0)])
      (fun _ _ => False) (store, ledger) := by
  refine wp_mono (enqueue_rows posted room key payload schedule maxAttempts
    isIdempotentHandler) (fun outcome after entered => ?_) fun _ _ => False.elim
  rcases entered with ⟨inUse, same, refused⟩ | ⟨free, created, stored, posts⟩
  · rw [same]
    exact ⟨⟨rows, posted⟩, fun unused => absurd inUse unused,
      fun id created => absurd created (refused id)⟩
  · refine ⟨⟨_, posts⟩, fun _ => created, fun id made => ?_⟩
    obtain rfl := EnqueueOutcome.created.inj (created.symm.trans made)
    have absent : ∀ row ∈ rows, row.id ≠ store.nextId := fun row member =>
      (posted.known row member).ne
    refine ⟨free, ?_, ?_⟩
    · rw [stored, put_jobs, if_pos rfl]
    · rw [stateColumn_rows posts.table, List.filter_append, List.filter_eq_nil_iff.mpr (by
        intro row member
        simpa using absent row member)]
      simp

omit posted in
theorem complete_settled {job : JobRecord} (report : CompletionAttempt) :
    (JobRecord.complete report).wp
      (fun state after => state = job.settled report.outcome ∧ after.state = state)
      (fun _ _ => True) job := by
  unfold JobRecord.complete
  rw [wp_bind]
  refine wp_mono (running_same report.leaseGeneration report.nowTick)
    (fun found after running => ?_) fun _ _ _ => trivial
  obtain ⟨rfl, rfl, -⟩ := running
  rw [wp_bind, wp_set]
  unfold JobRecord.settled
  split_ifs with retried
  · simp only [wp_bind, wp_set, wp_pure, wp_addU64, implies_true, and_self]
  · exact ⟨rfl, rfl⟩

theorem completeDurable_posted (id : Nat) (report : CompletionAttempt) :
    (JobStore.completeDurable id report).wp
      (fun state after => (∃ rows', Posted after.1 after.2 rows') ∧
        after.1.nextId = store.nextId ∧
        ((state = .uncertain → Books.Confirms ⟨store, ledger⟩ id report.outcome) →
          ∃ job, after.1.jobs[id]? = some job ∧
            stateColumn after.2 id = [some (.usize job.state.code)]))
      (fun _ after => (∃ rows', Posted after.1 after.2 rows') ∧ after.1.nextId = store.nextId)
      (store, ledger) := by
  unfold JobStore.completeDurable
  rw [wp_bind, wp_onFirst, wp_onJob]
  refine ⟨fun _ => ⟨⟨rows, posted⟩, rfl⟩, fun job found => ?_⟩
  refine wp_mono (running_same report.leaseGeneration report.nowTick)
    (fun _ after running => ?_) fun _ after _ => ⟨Posted.move ⟨rows, posted⟩ le_rfl, rfl⟩
  obtain ⟨rfl, rfl, -⟩ := running
  rw [wp_bind, wp_attempt, wp_onSecond]
  have recorded := (recordInLedger_posted posted id (after.settled report.outcome)).both
    (wp_self (JobStore.recordInLedger id (after.settled report.outcome)) ledger)
  refine wp_mono recorded (fun _ later kept => ?_) fun _ later kept => ?_
  · obtain ⟨⟨posts, column⟩, ran⟩ := kept
    rw [wp_onFirst, wp_onJob]
    refine ⟨fun _ => ⟨Posted.move posts le_rfl, rfl⟩, fun job there => ?_⟩
    rw [put_jobs, if_pos rfl] at there
    obtain rfl := Option.some.inj there
    refine wp_mono (complete_settled report) (fun state final settled => ?_)
      fun _ final _ => ⟨Posted.move posts le_rfl, rfl⟩
    refine ⟨Posted.move posts le_rfl, rfl, fun _ => ⟨final, ?_, ?_⟩⟩
    · rw [put_jobs, if_pos rfl]
    · rw [settled.2, settled.1]
      exact column
  · obtain ⟨posts, ran⟩ := kept
    rw [wp_bind, wp_onFirst, wp_onJob]
    refine ⟨fun _ => ⟨Posted.move posts le_rfl, rfl⟩, fun job there => ?_⟩
    refine wp_of_forall _ (fun _ final => ?_) fun _ final => ⟨Posted.move posts le_rfl, rfl⟩
    refine ⟨Posted.move posts le_rfl, rfl, fun confirmed => ?_⟩
    -- the completion was not confirmed, and is uncertain for that reason alone
    obtain ⟨job, known, confirms⟩ := confirmed rfl
    obtain rfl : job = after := Option.some.inj (known.symm.trans found)
    rw [congrArg Prod.fst ran] at confirms
    exact nomatch confirms

end Posted

end Rows

section Runs

variable {books : Books} {store : JobStore} {A : Type}

theorem onJob_nextId (id : Nat) (call : Prog JobRecord Fault A) (store : JobStore) :
    (JobStore.onJob id call).wp (fun _ after => after.nextId = store.nextId)
      (fun _ after => after.nextId = store.nextId) store := by
  rw [wp_onJob]
  exact ⟨fun _ => rfl, fun _ _ => wp_of_forall _ (fun _ _ => rfl) fun _ _ => rfl⟩

theorem expireListed_nextId (nowTick : Nat) (ids : List Nat) (store : JobStore) :
    (JobStore.expireListed nowTick ids).wp (fun _ after => after.nextId = store.nextId)
      (fun _ after => after.nextId = store.nextId) store := by
  induction ids generalizing store with
  | nil => exact (wp_pure _).mpr rfl
  | cons id ids ih =>
    unfold JobStore.expireListed
    rw [wp_bind]
    refine wp_mono (onJob_nextId id _ store) (fun _ middle same => ?_) fun _ _ same => same
    rw [wp_bind]
    exact wp_mono (ih middle) (fun _ _ later => later.trans same)
      fun _ _ later => later.trans same

/-- A store after a call numbers its jobs on by one at most. -/
def Numbered (before after : JobStore) : Prop :=
  before.nextId ≤ after.nextId ∧ after.nextId ≤ before.nextId + 1

theorem numbered_of_eq {before after : JobStore} (same : after.nextId = before.nextId) :
    Numbered before after := by
  unfold Numbered
  omega

theorem enqueue_numbered (store : JobStore) (ledger : DatabaseFixture) (key payload : List UInt8)
    (schedule : Option Schedule) (maxAttempts : Nat) (isIdempotentHandler : Bool) :
    (JobStore.enqueue key payload schedule maxAttempts isIdempotentHandler).wp
      (fun _ after => Numbered store after.1) (fun _ after => Numbered store after.1)
      (store, ledger) := by
  have same : Numbered store store := numbered_of_eq rfl
  unfold JobStore.enqueue
  rw [wp_bind, wp_onFirst, wp_get]
  split
  · split_ifs <;> exact same
  · rw [wp_bind]
    refine wp_expectLedger _ ledger (fun _ ledger => ?_) fun _ _ => same
    rw [wp_bind]
    refine wp_expectLedger _ ledger (fun _ ledger => ?_) fun _ _ => same
    rw [wp_bind]
    refine wp_expectLedger _ ledger (fun _ ledger => ?_) fun _ _ => same
    simp only [wp_bind, wp_addU64, wp_onFirst, wp_set, wp_pure]
    exact ⟨fun _ => same, fun _ => ⟨Nat.le_succ _, le_rfl⟩⟩

theorem completeDurable_nextId (store : JobStore) (ledger : DatabaseFixture) (id : Nat)
    (report : CompletionAttempt) :
    (JobStore.completeDurable id report).wp (fun _ after => after.1.nextId = store.nextId)
      (fun _ after => after.1.nextId = store.nextId) (store, ledger) := by
  unfold JobStore.completeDurable
  rw [wp_bind, wp_onFirst]
  refine wp_mono (onJob_nextId id _ store) (fun job middle same => ?_) fun _ _ same => same
  rw [wp_bind, wp_attempt, wp_onSecond]
  refine wp_of_forall _ (fun _ ledger => ?_) fun _ ledger => ?_
  · rw [wp_onFirst]
    exact wp_mono (onJob_nextId id _ middle) (fun _ _ later => later.trans same)
      fun _ _ later => later.trans same
  · rw [wp_bind, wp_onFirst]
    exact wp_mono (onJob_nextId id _ middle) (fun _ _ later => later.trans same)
      fun _ _ later => later.trans same

theorem perform_numbered (store : JobStore) (call : Call) :
    (JobStore.perform call).wp (fun _ after => Numbered store after)
      (fun _ after => Numbered store after) store := by
  have onJob {B : Type} (id : Nat) (call : Prog JobRecord Fault B) (answer : B → Answer) :
      (JobStore.onJob id call >>= fun value => pure (answer value)).wp
        (fun _ after => Numbered store after) (fun _ after => Numbered store after) store := by
    rw [wp_bind]
    exact wp_mono (onJob_nextId id call store) (fun _ _ => numbered_of_eq)
      fun _ _ => numbered_of_eq
  cases call with
  | enqueue ledger key payload schedule maxAttempts isIdempotentHandler =>
    unfold JobStore.perform
    rw [wp_bind, wp_withSecond]
    exact enqueue_numbered store ledger key payload schedule maxAttempts isIdempotentHandler
  | completeDurable ledger id report =>
    unfold JobStore.perform
    rw [wp_bind, wp_withSecond]
    exact wp_mono (completeDurable_nextId store ledger id report)
      (fun _ _ => numbered_of_eq) fun _ _ => numbered_of_eq
  | expireStaleLeases nowTick =>
    unfold JobStore.perform JobStore.expireStaleLeases
    rw [wp_bind, wp_bind, wp_get]
    exact wp_mono (expireListed_nextId nowTick store.jobs.keys store)
      (fun _ _ => numbered_of_eq) fun _ _ => numbered_of_eq
  | setCurrentRevision currentRevision => exact numbered_of_eq rfl
  | _ => exact onJob _ _ _

theorem step_call (books : Books) (step : Step) {call : Call}
    (named : step.asCall books.ledger = some call) :
    JobStore.perform call books.store = ((books.step step).1, (books.step step).2.store) := by
  cases step with
  | call other =>
    obtain rfl := Option.some.inj named
    rfl
  | enqueue key payload schedule maxAttempts isIdempotentHandler =>
    obtain rfl := Option.some.inj named
    unfold JobStore.perform Books.step
    simp only [bind, Prog.withSecond]
    cases JobStore.enqueue key payload schedule maxAttempts isIdempotentHandler
      (books.store, books.ledger) with
    | mk outcome after => cases outcome <;> rfl
  | completeDurable id report =>
    obtain rfl := Option.some.inj named
    unfold JobStore.perform Books.step
    simp only [bind, Prog.withSecond]
    cases JobStore.completeDurable id report (books.store, books.ledger) with
    | mk outcome after => cases outcome <;> rfl
  | write name table => exact nomatch named

theorem step_write (books : Books) (step : Step) (other : step.asCall books.ledger = none) :
    (books.step step).2.store = books.store := by
  cases step with
  | write name table =>
    simp only [Books.step]
    split_ifs <;> rfl
  | _ => exact nomatch other

theorem step_orderly (lifecycle : Lifecycle books.store) (step : Step) :
    Lifecycle (books.step step).2.store ∧ Numbered books.store (books.step step).2.store ∧
      ∀ call, step.asCall books.ledger = some call →
        Orderly call (books.step step).1 books.store (books.step step).2.store := by
  cases named : step.asCall books.ledger with
  | none =>
    rw [step_write books step named]
    exact ⟨lifecycle, numbered_of_eq rfl, fun _ other => nomatch other⟩
  | some call =>
    have ran := step_call books step named
    rcases wp_run ((perform_orderly lifecycle call).both (perform_numbered books.store call))
      with ⟨answer, after, same, ⟨keeps, orderly⟩, numbered⟩ |
        ⟨fault, after, same, ⟨keeps, orderly⟩, numbered⟩
    all_goals
      obtain ⟨first, second⟩ := Prod.mk.inj (ran.symm.trans same)
      rw [first, second]
      refine ⟨keeps, numbered, fun other equal => ?_⟩
      obtain rfl := Option.some.inj equal
      exact orderly

def Books.EntersScheduled (books : Books) : Step → Prop
  | .enqueue key _ (some _) _ _ => ¬books.store.KeyInUse key
  | _ => False

theorem step_posted (posted : ∃ rows, Posted books.store books.ledger rows)
    (lifecycle : Lifecycle books.store) (room : books.store.nextId < maxU64) (step : Step) :
    (∃ rows, Posted (books.step step).2.store (books.step step).2.ledger rows) ∧
      ((∀ id, books.Records step id → ∃ job, (books.step step).2.store.jobs[id]? = some job ∧
        stateColumn (books.step step).2.ledger id = [some (.usize job.state.code)]) ↔
          ¬books.EntersScheduled step) := by
  obtain ⟨-, numbered, -⟩ := step_orderly lifecycle step
  cases step with
  | call call =>
    exact ⟨Posted.move posted numbered.1, fun _ => id, fun _ _ records => records.elim⟩
  | write name table =>
    refine ⟨?_, fun _ => id, fun _ _ records => records.elim⟩
    simp only [Books.step]
    split_ifs with own
    · exact posted
    · obtain ⟨rows, keeps⟩ := posted
      refine ⟨rows, keeps.closed, ?_, keeps.distinct, keeps.known⟩
      dsimp only
      rw [BTreeMap.getElem?_insert_eq, if_neg own]
      exact keeps.table
  | completeDurable id report =>
    obtain ⟨rows, keeps⟩ := posted
    rcases wp_run (completeDurable_posted keeps id report) with
      ⟨state, after, ran, posts, -, gives⟩ | ⟨fault, after, ran, posts, -⟩
    · have stepped : books.step (.completeDurable id report) =
          (.ok (.state state), ⟨after.1, after.2⟩) := by
        simp only [Books.step, ran]
        rfl
      rw [stepped]
      refine ⟨posts, fun _ => False.elim, fun _ other records => ?_⟩
      obtain ⟨rfl, state', same, confirmed⟩ := records
      rw [stepped] at same
      obtain rfl := Answer.state.inj (Except.ok.inj same)
      exact gives confirmed
    · have stepped : books.step (.completeDurable id report) =
          (.error fault, ⟨after.1, after.2⟩) := by
        simp only [Books.step, ran]
        rfl
      rw [stepped]
      refine ⟨posts, fun _ => False.elim, fun _ other records => ?_⟩
      obtain ⟨-, state', same, -⟩ := records
      rw [stepped] at same
      exact nomatch same
  | enqueue key payload schedule maxAttempts isIdempotentHandler =>
    obtain ⟨rows, keeps⟩ := posted
    rcases wp_run (enqueue_posted keeps room key payload schedule maxAttempts
      isIdempotentHandler) with ⟨outcome, after, ran, posts, enters, gives⟩ | ⟨_, _, _, wrong⟩
    · have stepped : books.step (.enqueue key payload schedule maxAttempts isIdempotentHandler) =
          (.ok (.enqueued outcome), ⟨after.1, after.2⟩) := by
        simp only [Books.step, ran]
        rfl
      have records (id : Nat) : books.Records
          (.enqueue key payload schedule maxAttempts isIdempotentHandler) id ↔
            outcome = .created id := by
        unfold Books.Records
        simp only [stepped, Except.ok.injEq, Answer.enqueued.injEq]
      rw [stepped]
      refine ⟨posts, fun agrees => ?_, fun unscheduled id entered => ?_⟩
      · cases schedule with
        | none => exact id
        | some schedule =>
          intro fresh
          obtain ⟨job, there, column⟩ := agrees _ ((records _).mpr (enters fresh))
          obtain ⟨-, known, pending⟩ := gives _ (enters fresh)
          rw [known] at there
          obtain rfl := Option.some.inj there
          rw [pending] at column
          simp [JobStore.freshJob, JobState.code] at column
      · obtain ⟨fresh, known, pending⟩ := gives id ((records id).mp entered)
        cases schedule with
        | none => exact ⟨_, known, pending⟩
        | some schedule => exact absurd fresh unscheduled
    · exact wrong.elim

theorem step_lawful (posted : ∃ rows, Posted books.store books.ledger rows)
    (lifecycle : Lifecycle books.store) (room : books.store.nextId < maxU64) (step : Step) :
    Lawful books step ↔ ¬books.EntersScheduled step := by
  obtain ⟨keeps, -, orderly⟩ := step_orderly lifecycle step
  rw [← (step_posted posted lifecycle room step).2]
  exact ⟨Lawful.rows, fun rows => ⟨keeps, orderly, rows⟩⟩

theorem books_append (currentRevision : Nat) (steps : List Step) (step : Step) :
    Books.run currentRevision (steps ++ [step]) =
      ((Books.run currentRevision steps).step step).2 := by
  unfold Books.run
  rw [List.foldl_append]
  rfl

theorem installed_posted (currentRevision : Nat) :
    Posted (JobStore.new currentRevision) installedLedger [] := by
  have created : JobStore.installLedgerSchema.wp (fun _ after => after.transaction = .none ∧
      after.tables["jobs"]? = some ⟨jobsColumns, []⟩) (fun _ _ => False) DatabaseFixture.new := by
    unfold JobStore.installLedgerSchema DatabaseFixture.createTable
    simp only [wp_bind, wp_stopIf, wp_get, wp_set]
    exact ⟨fun unsafe_name => absurd unsafe_name (by decide), fun _ =>
      ⟨rfl, tables_insert_same _ _⟩⟩
  rcases wp_run created with ⟨_, after, ran, closed, table⟩ | ⟨_, _, _, wrong⟩
  · have installed : installedLedger = after := congrArg Prod.snd ran
    rw [installed]
    refine ⟨?_, table, List.nodup_nil, List.forall_mem_nil _⟩
    rw [closed]
    decide
  · exact wrong.elim

theorem run_kept (currentRevision : Nat) (steps : List Step) (few : steps.length < maxU64) :
    Lifecycle (Books.run currentRevision steps).store ∧
      (∃ rows, Posted (Books.run currentRevision steps).store
        (Books.run currentRevision steps).ledger rows) ∧
      (Books.run currentRevision steps).store.nextId ≤ steps.length + 1 := by
  induction steps using List.reverseRecOn with
  | nil =>
    have empty (id : Nat) : (JobStore.new currentRevision).jobs[id]? = none := rfl
    refine ⟨⟨fun id job found => ?_, fun id job found => ?_, fun id _ job _ found => ?_⟩,
      ⟨[], installed_posted currentRevision⟩, le_rfl⟩
    all_goals exact nomatch (empty id).symm.trans found
  | append_singleton steps step ih =>
    rw [List.length_append, List.length_singleton] at few ⊢
    obtain ⟨lifecycle, posted, numbered⟩ := ih (by omega)
    rw [books_append]
    obtain ⟨keeps, next, -⟩ := step_orderly lifecycle step
    refine ⟨keeps, (step_posted posted lifecycle (by omega) step).1, ?_⟩
    have limit := next.2
    omega

end Runs

/-- A job with a schedule is entered. -/
def scheduledSteps : List Step := [.enqueue [107] [3, 4, 1] (some ⟨5, 10, 3, 0⟩) 3 true]

/-- A job without a schedule is entered, claimed, started and completed. -/
def completedSteps : List Step :=
  [.enqueue [107] [3, 4, 1] none 3 true, .call (.claim 1 1 0 10), .call (.beginExecution 1 1 1),
    .completeDurable 1 ⟨1, 2, .retryable, 1, 100⟩]

/-- **The books are in order after every run.** -/
theorem books_kept (currentRevision : Nat) (steps : List Step) (few : steps.length < maxU64) :
    Lifecycle (Books.run currentRevision steps).store ∧
      ∃ rows, Posted (Books.run currentRevision steps).store
        (Books.run currentRevision steps).ledger rows :=
  have kept := run_kept currentRevision steps few
  ⟨kept.1, kept.2.1⟩

theorem books_kept_completed : ∃ rows, Posted (Books.run 1 completedSteps).store
    (Books.run 1 completedSteps).ledger rows :=
  (books_kept 1 completedSteps (by decide)).2

end Semaprax.DurableJobs
