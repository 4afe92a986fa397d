/-
**The relational fixture** (`database_fixture.rs`).

An in-memory table store with one transaction at a time: beginning one keeps a copy of the tables,
which a rollback restores.

* `DatabaseFixture` with `createTable`, `begin`, `commit`, `rollback`, `connectionLost`, `insert` and
  `updateColumn`.
* `updateRows` — the rows that an update reaches, up to the first that does not fit.
-/

import Semaprax.Library.Collections
import Semaprax.Library.Programs

namespace Semaprax.DurableJobs

open Library

/-- One typed cell. -/
inductive Value
  | i64 (value : Int)
  | u8 (value : Nat)
  | bool (value : Bool)
  | usize (value : Nat)
  | bytes (value : List UInt8)
deriving DecidableEq, Repr

/-- The number of a cell's type. -/
def Value.tag : Value → Nat
  | .i64 _ => 0
  | .u8 _ => 1
  | .bool _ => 2
  | .usize _ => 3
  | .bytes _ => 4

structure Column where
  name : String
  tag : Nat
deriving DecidableEq, Repr

/-- A letter, a digit or an underscore. -/
def safeByte (character : Char) : Bool := character.isAlphanum || character == '_'

/-- Names that may be used for tables and columns. -/
def identifierIsValid (name : String) : Bool :=
  match name.toList with
  | [] => false
  | first :: rest =>
    name.utf8ByteSize ≤ 63 && safeByte first && !first.isDigit && rest.all safeByte

inductive TransactionState
  | none
  | opened
  | committed
  | rolledBack
  | failed
deriving DecidableEq, Repr

namespace TransactionState

def nextOnBegin : TransactionState → TransactionState
  | .opened => .failed
  | _ => .opened

def nextOnCommit : TransactionState → TransactionState
  | .opened => .committed
  | _ => .failed

def nextOnRollback : TransactionState → TransactionState
  | .opened => .rolledBack
  | _ => .failed

def nextOnConnectionLost : TransactionState → TransactionState
  | .opened => .failed
  | other => other

end TransactionState

inductive FixtureError
  | unknownTable
  | unsafeIdentifier
  | rowShapeMismatch
  | noOpenTransaction
  | transactionAlreadyOpen
deriving DecidableEq, Repr

abbrev Row := List Value

structure Table where
  columns : List Column
  rows : List Row

/-- The row has one cell of the right type for each column. -/
def rowMatchesSchema (columns : List Column) (row : Row) : Bool :=
  columns.length == row.length &&
    (columns.zip row).all fun (column, value) => column.tag == value.tag

structure DatabaseFixture where
  tables : BTreeMap String Table
  snapshot : Option (BTreeMap String Table)
  transaction : TransactionState

/-- Set a cell on every row with a given key, from the front, up to the first row where the cell does
not have the type of the new value. -/
def updateRows (keyColumn : Nat) (keyValue : Value) (setColumn : Nat) (newValue : Value) :
    List Row → Except FixtureError Nat × List Row
  | [] => (.ok 0, [])
  | row :: rows =>
    if row[keyColumn]? ≠ some keyValue then
      let rest := updateRows keyColumn keyValue setColumn newValue rows
      (rest.1, row :: rest.2)
    else
      match row[setColumn]? with
      | some existing =>
        if existing.tag = newValue.tag then
          let rest := updateRows keyColumn keyValue setColumn newValue rows
          (rest.1.map (· + 1), row.set setColumn newValue :: rest.2)
        else (.error .rowShapeMismatch, row :: rows)
      | none => (.error .rowShapeMismatch, row :: rows)

namespace DatabaseFixture

/-- A store without tables. -/
def new : DatabaseFixture := ⟨∅, none, .none⟩

def createTable (name : String) (columns : List Column) :
    Prog DatabaseFixture FixtureError Unit := do
  stopIf (!identifierIsValid name || columns.any fun column => !identifierIsValid column.name)
    .unsafeIdentifier
  let fixture ← Prog.get
  Prog.set
    { fixture with
      tables := fixture.tables.insert name ⟨columns, []⟩ }

/-- Begin a transaction: keep a copy of the tables. -/
def begin : Prog DatabaseFixture FixtureError Unit := do
  let fixture ← Prog.get
  let next := fixture.transaction.nextOnBegin
  Prog.set
    { fixture with
      transaction := next }
  stopIf (next ≠ .opened) .transactionAlreadyOpen
  Prog.set
    { fixture with
      transaction := next
      snapshot := some fixture.tables }

def commit : Prog DatabaseFixture FixtureError Unit := do
  let fixture ← Prog.get
  let next := fixture.transaction.nextOnCommit
  Prog.set
    { fixture with
      transaction := next }
  stopIf (next ≠ .committed) .noOpenTransaction
  Prog.set
    { fixture with
      transaction := next
      snapshot := none }

/-- Roll the transaction back to the copy that was kept. -/
def rollback : Prog DatabaseFixture FixtureError Unit := do
  let fixture ← Prog.get
  let next := fixture.transaction.nextOnRollback
  Prog.set
    { fixture with
      transaction := next }
  stopIf (next ≠ .rolledBack) .noOpenTransaction
  Prog.set
    { tables := fixture.snapshot.getD fixture.tables
      snapshot := none
      transaction := next }

/-- A lost connection. What an open transaction has written is discarded. -/
def connectionLost : Prog DatabaseFixture FixtureError Unit := do
  let fixture ← Prog.get
  let next := fixture.transaction.nextOnConnectionLost
  if fixture.transaction = .opened then
    Prog.set
      { tables := fixture.snapshot.getD fixture.tables
        snapshot := none
        transaction := next }
  else
    Prog.set
      { fixture with
        transaction := next }

def insert (name : String) (row : Row) : Prog DatabaseFixture FixtureError Unit := do
  let fixture ← Prog.get
  let table ← ofOption .unknownTable fixture.tables[name]?
  stopIf (!rowMatchesSchema table.columns row) .rowShapeMismatch
  let table := { table with
    rows := table.rows ++ [row] }
  Prog.set
    { fixture with
      tables := fixture.tables.insert name table }

/-- Set a cell on every row with a given key; the number of rows that were set. -/
def updateColumn (name : String) (keyColumn : Nat) (keyValue : Value) (setColumn : Nat)
    (newValue : Value) : Prog DatabaseFixture FixtureError Nat := do
  let fixture ← Prog.get
  let table ← ofOption .unknownTable fixture.tables[name]?
  let updated := updateRows keyColumn keyValue setColumn newValue table.rows
  let table := { table with
    rows := updated.2 }
  Prog.set
    { fixture with
      tables := fixture.tables.insert name table }
  match updated.1 with
  | .ok count => pure count
  | .error refusal => Prog.stop refusal

end DatabaseFixture

end Semaprax.DurableJobs
