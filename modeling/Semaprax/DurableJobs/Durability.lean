/-
**What a transaction leaves behind** (`database_fixture.rs`).

The tables that can be seen are those of the durable writes, and of the writes of the transaction that
is open. A rollback and a lost connection go back to the copy of the tables; a `begin` that is refused
because a transaction is open ends that transaction as well, but leaves the tables as they are.

* `Write`, `Write.apply` — the writes, and what each does to the tables.
* `Operation`, `Operation.move` — the operations, and what each means for the account of the writes.
* `perform_backed_iff` — one operation keeps the account, if it is no refused `begin` after writes.
* `run_backed_iff` — every sequence of operations.
-/

import Semaprax.Library.Histories
import Semaprax.Library.Transactions
import Semaprax.DurableJobs.Ledger

namespace Semaprax.DurableJobs

open Library

/-- A table of a given name, if there is one. -/
abbrev Tables := String → Option Table

/-- A change of the tables. -/
inductive Write
  | createTable (name : String) (columns : List Column)
  | insert (name : String) (row : Row)
  | updateColumn (name : String) (keyColumn : Nat) (keyValue : Value) (setColumn : Nat)
      (newValue : Value)

namespace Write

def name : Write → String
  | createTable name _ => name
  | insert name _ => name
  | updateColumn name _ _ _ _ => name

/-- What becomes of the table. A refused write changes nothing, except that an update reaches the rows
before the first that does not fit. -/
def change : Write → Option Table → Option Table
  | createTable name columns, table =>
    if !identifierIsValid name || columns.any fun column => !identifierIsValid column.name then
      table
    else some ⟨columns, []⟩
  | insert _ row, table =>
    table.map fun table =>
      if !rowMatchesSchema table.columns row then table
      else ⟨table.columns, table.rows ++ [row]⟩
  | updateColumn _ keyColumn keyValue setColumn newValue, table =>
    table.map fun table =>
      ⟨table.columns, (updateRows keyColumn keyValue setColumn newValue table.rows).2⟩

def apply (write : Write) (tables : Tables) : Tables :=
  Function.update tables write.name (write.change (tables write.name))

def call : Write → Prog DatabaseFixture FixtureError Unit
  | createTable name columns => DatabaseFixture.createTable name columns
  | insert name row => DatabaseFixture.insert name row
  | updateColumn name keyColumn keyValue setColumn newValue =>
    do let _ ← DatabaseFixture.updateColumn name keyColumn keyValue setColumn newValue

end Write

/-- An operation on the fixture. -/
inductive Operation
  | begin
  | commit
  | rollback
  | connectionLost
  | write (write : Write)

namespace Operation

def call : Operation → Prog DatabaseFixture FixtureError Unit
  | begin => DatabaseFixture.begin
  | commit => DatabaseFixture.commit
  | rollback => DatabaseFixture.rollback
  | connectionLost => DatabaseFixture.connectionLost
  | write given => given.call

/-- What an operation means for the writes. A transaction ends in a commit only if that is asked for
while it is open; in every other way that it can end, it is abandoned. -/
def move (account : Account Write) : Operation → AccountMove Write
  | begin => if account.pending.isSome then .abandon else .begin
  | commit => .commit
  | rollback => .abandon
  | connectionLost => .abandon
  | write given => .write given

end Operation

namespace DatabaseFixture

variable (fixture : DatabaseFixture)

def view : Tables := fun name => fixture.tables[name]?

/-- The tables that the open transaction goes back to if it is abandoned. -/
def before : Option Tables :=
  if fixture.transaction = .opened then
    fixture.snapshot.map fun tables => fun name => tables[name]?
  else none

/-- An open transaction has a copy. -/
def Sound : Prop := fixture.transaction = .opened → fixture.snapshot.isSome = true

def perform (operation : Operation) : DatabaseFixture := (operation.call fixture).2

def run (operations : List Operation) : DatabaseFixture :=
  operations.foldl perform new

end DatabaseFixture

def accountOf (operations : List Operation) : Account Write :=
  operations.foldl (fun account operation => account.step (operation.move account)) ⟨[], none⟩

section Steps

variable {fixture : DatabaseFixture}

/-- A write changes the tables as it should, and nothing else. -/
theorem perform_write (write : Write) :
    (fixture.perform (.write write)).view = write.apply fixture.view ∧
      (fixture.perform (.write write)).snapshot = fixture.snapshot ∧
        (fixture.perform (.write write)).transaction = fixture.transaction := by
  have unchanged : write.change (fixture.view write.name) = fixture.view write.name →
      fixture.view = write.apply fixture.view := fun same => by
    unfold Write.apply
    rw [same, Function.update_eq_self]
  have written : ∀ table : Table, write.change (fixture.view write.name) = some table →
      (fun name => (fixture.tables.insert write.name table)[name]?) =
        write.apply fixture.view := fun table same => by
    funext name
    unfold Write.apply
    rw [same, BTreeMap.getElem?_insert_eq, Function.update_apply]
    simp only [eq_comm]
    rfl
  have outcome : write.call.wp
      (fun _ after => after.view = write.apply fixture.view ∧
        after.snapshot = fixture.snapshot ∧ after.transaction = fixture.transaction)
      (fun _ after => after.view = write.apply fixture.view ∧
        after.snapshot = fixture.snapshot ∧ after.transaction = fixture.transaction) fixture := by
    cases write with
    | createTable name columns =>
      simp only [Write.call, DatabaseFixture.createTable, wp_bind, wp_stopIf, wp_get, wp_set]
      refine ⟨fun unsafeName => ⟨unchanged ?_, trivial, trivial⟩,
        fun safeName => ⟨written _ ?_, trivial, trivial⟩⟩
      · exact if_pos unsafeName
      · exact if_neg safeName
    | insert name row =>
      simp only [Write.call, DatabaseFixture.insert, wp_bind, wp_stopIf,
        wp_get, wp_ofOption, wp_set]
      refine ⟨fun missing => ⟨unchanged ?_, trivial, trivial⟩, fun table found =>
        ⟨fun mismatch => ⟨unchanged ?_, trivial, trivial⟩, fun fits => ⟨written _ ?_, trivial, trivial⟩⟩⟩
      · show Option.map _ fixture.tables[name]? = fixture.tables[name]?
        rw [missing]
        rfl
      · show Option.map _ fixture.tables[name]? = fixture.tables[name]?
        rw [found, Option.map_some, if_pos mismatch]
      · show Option.map _ fixture.tables[name]? = _
        rw [found, Option.map_some, if_neg fits]
    | updateColumn name keyColumn keyValue setColumn newValue =>
      simp only [Write.call, DatabaseFixture.updateColumn, wp_bind, wp_get, wp_ofOption, wp_set]
      refine ⟨fun missing => ⟨unchanged ?_, trivial, trivial⟩, fun table found => ?_⟩
      · show Option.map _ fixture.tables[name]? = fixture.tables[name]?
        rw [missing]
        rfl
      · have reached : Write.change (.updateColumn name keyColumn keyValue setColumn newValue)
            (fixture.view name) = some ⟨table.columns,
              (updateRows keyColumn keyValue setColumn newValue table.rows).2⟩ := by
          show Option.map _ fixture.tables[name]? = _
          rw [found, Option.map_some]
        cases (updateRows keyColumn keyValue setColumn newValue table.rows).1 with
        | ok count | error refusal => exact ⟨written _ reached, rfl, rfl⟩
  exact (Prog.wp_always write.call).mp outcome

theorem perform_begin : fixture.perform .begin =
    if fixture.transaction = .opened then
      { fixture with
        transaction := .failed }
    else
      { fixture with
        transaction := .opened
        snapshot := some fixture.tables } := by
  obtain ⟨tables, snapshot, transaction⟩ := fixture
  cases transaction <;> rfl

theorem perform_commit : fixture.perform .commit =
    if fixture.transaction = .opened then
      { fixture with
        transaction := .committed
        snapshot := none }
    else
      { fixture with
        transaction := .failed } := by
  obtain ⟨tables, snapshot, transaction⟩ := fixture
  cases transaction <;> rfl

theorem perform_rollback : fixture.perform .rollback =
    if fixture.transaction = .opened then
      ⟨fixture.snapshot.getD fixture.tables, none, .rolledBack⟩
    else
      { fixture with
        transaction := .failed } := by
  obtain ⟨tables, snapshot, transaction⟩ := fixture
  cases transaction <;> rfl

theorem perform_connectionLost : fixture.perform .connectionLost =
    if fixture.transaction = .opened then
      ⟨fixture.snapshot.getD fixture.tables, none, .failed⟩
    else fixture := by
  obtain ⟨tables, snapshot, transaction⟩ := fixture
  cases transaction <;> rfl

theorem perform_sound (sound : fixture.Sound) (operation : Operation) :
    (fixture.perform operation).Sound := by
  unfold DatabaseFixture.Sound at sound ⊢
  cases operation with
  | begin =>
    rw [perform_begin]
    split_ifs
    · exact fun other => by cases other
    · exact fun _ => rfl
  | commit =>
    rw [perform_commit]
    split_ifs <;> exact fun other => by cases other
  | rollback =>
    rw [perform_rollback]
    split_ifs <;> exact fun other => by cases other
  | connectionLost =>
    rw [perform_connectionLost]
    split_ifs
    · exact fun other => by cases other
    · exact sound
  | write write =>
    obtain ⟨-, snapshot, transaction⟩ := @perform_write fixture write
    rw [snapshot, transaction]
    exact sound

/-- The tables are those of the account: the current ones of all its writes, and the copy of the
durable ones. -/
def Accounted (fixture : DatabaseFixture) (account : Account Write) : Prop :=
  Backed Write.apply (fun _ => none) fixture.view fixture.before account

/-- The tables that can be seen are those of the durable writes and of the writes of the transaction
that is open. -/
def Durable (fixture : DatabaseFixture) (account : Account Write) : Prop :=
  fixture.view = replay Write.apply (fun _ => none) account.visible

/-- The operation does not drop what a transaction has changed: it is no `begin` while a transaction is
open and has changed the tables. -/
def Careful (fixture : DatabaseFixture) (operation : Operation) : Prop :=
  operation = .begin → ∀ tables, fixture.before = some tables → tables = fixture.view

variable {account : Account Write}

theorem opened_or_closed (sound : fixture.Sound) :
    (∃ tables snapshot, fixture = ⟨tables, some snapshot, .opened⟩) ∨
      (fixture.transaction ≠ .opened ∧ fixture.before = none) := by
  by_cases opened : fixture.transaction = .opened
  · obtain ⟨copy, kept⟩ := Option.isSome_iff_exists.mp (sound opened)
    obtain ⟨tables, snapshot, transaction⟩ := fixture
    obtain rfl : transaction = .opened := opened
    obtain rfl : snapshot = some copy := kept
    exact .inl ⟨tables, copy, rfl⟩
  · exact .inr ⟨opened, if_neg opened⟩

theorem perform_accounted_iff (sound : fixture.Sound) (accounted : Accounted fixture account)
    (operation : Operation) :
    Accounted (fixture.perform operation) (account.step (operation.move account)) ↔
      Careful fixture operation := by
  have quiet : operation ≠ .begin → Careful fixture operation := fun other same =>
    absurd same other
  have opening := accounted.open_iff
  unfold Accounted at accounted ⊢
  cases operation with
  | begin =>
    unfold Operation.move
    rw [perform_begin, ← opening]
    rcases opened_or_closed sound with ⟨tables, snapshot, rfl⟩ | ⟨closed, none⟩
    · refine accounted.stale_iff.trans ⟨fun same _ copy kept => ?_, fun careful => ?_⟩
      · obtain rfl := Option.some.inj kept
        exact same
      · exact careful rfl _ rfl
    · rw [none] at accounted ⊢
      rw [if_neg closed]
      refine iff_of_true accounted.begin fun _ copy kept => ?_
      rw [none] at kept
      cases kept
  | commit =>
    rw [perform_commit]
    refine iff_of_true ?_ (quiet (by simp))
    split_ifs <;> exact accounted.commit
  | rollback =>
    rw [perform_rollback]
    refine iff_of_true ?_ (quiet (by simp))
    rcases opened_or_closed sound with ⟨tables, snapshot, rfl⟩ | ⟨closed, none⟩
    · exact accounted.abandon
    · rw [if_neg closed]
      rw [none] at accounted
      exact accounted.abandon
  | connectionLost =>
    rw [perform_connectionLost]
    refine iff_of_true ?_ (quiet (by simp))
    rcases opened_or_closed sound with ⟨tables, snapshot, rfl⟩ | ⟨closed, none⟩
    · exact accounted.abandon
    · rw [if_neg closed, none]
      rw [none] at accounted
      exact accounted.abandon
  | write write =>
    obtain ⟨view, snapshot, transaction⟩ := @perform_write fixture write
    have before : (fixture.perform (.write write)).before = fixture.before := by
      unfold DatabaseFixture.before
      rw [snapshot, transaction]
    rw [view, before]
    exact iff_of_true (accounted.write write) (quiet (by simp))

theorem careful_of_durable (sound : fixture.Sound) (accounted : Accounted fixture account)
    {operation : Operation}
    (durable : Durable (fixture.perform operation)
      (account.step (operation.move account))) : Careful fixture operation := by
  rintro rfl copy kept
  refine (perform_accounted_iff sound accounted .begin).mp ⟨durable, ?_⟩ rfl copy kept
  have opening := accounted.open_iff
  rw [kept, Option.isSome_some] at opening
  rcases opened_or_closed sound with ⟨tables, snapshot, rfl⟩ | ⟨-, none⟩
  · unfold Operation.move
    rw [← opening]
    rfl
  · rw [none] at kept
    cases kept

end Steps

section Runs

theorem performed_append (operations : List Operation) (operation : Operation) :
    DatabaseFixture.run (operations ++ [operation]) =
      (DatabaseFixture.run operations).perform operation :=
  List.foldl_append

theorem accountOf_append (operations : List Operation) (operation : Operation) :
    accountOf (operations ++ [operation]) =
      (accountOf operations).step (operation.move (accountOf operations)) :=
  List.foldl_append

theorem run_sound (operations : List Operation) : (DatabaseFixture.run operations).Sound := by
  induction operations using List.reverseRecOn with
  | nil => exact fun opened => by cases opened
  | append_singleton operations operation ih =>
    rw [performed_append]
    exact perform_sound ih operation

theorem run_accounted {operations : List Operation} (careful : Throughout (fun earlier operation =>
      Careful (DatabaseFixture.run earlier) operation) operations) :
    Accounted (DatabaseFixture.run operations) (accountOf operations) := by
  induction operations using List.reverseRecOn with
  | nil => exact Backed.new
  | append_singleton operations operation ih =>
    obtain ⟨before, last⟩ := throughout_append.mp careful
    rw [performed_append, accountOf_append]
    exact (perform_accounted_iff (run_sound operations) (ih before) operation).mpr last

/-- **What was not committed does not become durable.** At every point of a sequence of operations the
tables are those of the durable writes and of the writes of the open transaction, exactly when no
`begin` is asked for while a transaction is open that has changed the tables. -/
theorem run_durable_iff (operations : List Operation) :
    (∀ earlier later, operations = earlier ++ later →
        Durable (DatabaseFixture.run earlier) (accountOf earlier)) ↔
      Throughout (fun earlier operation => Careful (DatabaseFixture.run earlier) operation)
        operations := by
  induction operations using List.reverseRecOn with
  | nil =>
    refine iff_of_true (fun earlier later split => ?_) throughout_nil
    obtain ⟨rfl, -⟩ := List.append_eq_nil_iff.mp split.symm
    rfl
  | append_singleton operations operation ih =>
    rw [throughout_append, ← ih]
    constructor
    · intro durable
      have before : ∀ earlier later, operations = earlier ++ later →
          Durable (DatabaseFixture.run earlier) (accountOf earlier) := fun earlier later split =>
        durable earlier (later ++ [operation]) (by rw [split, List.append_assoc])
      have last := durable (operations ++ [operation]) [] (List.append_nil _).symm
      rw [performed_append, accountOf_append] at last
      exact ⟨before, careful_of_durable (run_sound operations) (run_accounted (ih.mp before)) last⟩
    · rintro ⟨before, last⟩ earlier later split
      rcases later.eq_nil_or_concat with rfl | ⟨later, final, rfl⟩
      · rw [List.append_nil] at split
        obtain rfl := split
        exact (run_accounted (throughout_append.mpr ⟨ih.mp before, last⟩)).current
      · have moved : operations ++ [operation] = (earlier ++ later) ++ [final] := by
          rw [split]
          simp
        exact before earlier later (List.append_inj' moved rfl).1

end Runs

/-- An insertion, and a `begin` while its transaction is open. -/
def nestedBegin : List Operation :=
  [.write (.createTable "jobs" [⟨"id", 3⟩]), .begin, .write (.insert "jobs" [.usize 7]), .begin,
    .begin, .commit]

/-- The row is durable, although the transaction that has inserted it has not been committed. -/
theorem nestedBegin_durable : (accountOf nestedBegin).visible.length = 1 ∧
    ((DatabaseFixture.run nestedBegin).view "jobs").map Table.rows = some [[.usize 7]] ∧
      ¬Durable (DatabaseFixture.run nestedBegin) (accountOf nestedBegin) := by
  have seen : ((DatabaseFixture.run nestedBegin).view "jobs").map Table.rows =
      some [[.usize 7]] := by
    decide +kernel
  have expected : (replay Write.apply (fun _ => none) (accountOf nestedBegin).visible "jobs").map
      Table.rows = some [] := by
    decide +kernel
  refine ⟨rfl, seen, fun durable => ?_⟩
  rw [durable, expected] at seen
  exact absurd seen (by decide)

end Semaprax.DurableJobs
