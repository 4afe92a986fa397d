/-
**The grammar of a streamed document** (`streaming_proposal_decode/grammar.rs`, `stream_grammar.rs`).

A stack of operations says what the document has to be from here on. A byte first expands the top of
the stack into what it stands for, and is then taken by the operation that comes out. Every turn of
that loop is charged, up to a bound of work for the whole document.

* `lower` — the grammar of a type graph.
* `GrammarState.stepOp` — one operation; `GrammarState.step` — one byte.
* `validateScalar` — a quoted scalar that is complete.
-/

import Semaprax.Library.Collections
import Semaprax.InteractionSchema.Decode
import Semaprax.StreamingProposal.Scanner

namespace Semaprax.StreamingProposal

open Library
open LiveInvocation (quoteJson)
open InteractionSchema (TypeGraph TypeShape FieldRow FieldType Representation utf8)

inductive Scalar
  | bool
  | i32
  | i64
  | u8
  | u64
  | text (limit : Nat)
  | bytes (limit : Nat)

inductive GrammarValue
  | scalar (scalar : Scalar)
  | type (id : String)

structure Field where
  id : String
  value : GrammarValue

structure Case where
  id : String
  fields : List Field

inductive GrammarType
  | record (fields : List Field)
  | variant (cases : List Case)

structure Grammar where
  envelope : String
  root : String
  types : BTreeMap String GrammarType

def field (row : FieldRow) : Field where
  id := row.stableId
  value :=
    match row.ty with
    | .nested id => .type id
    | .scalar .bool => .scalar .bool
    | .scalar .i32 => .scalar .i32
    | .scalar .i64 => .scalar .i64
    | .scalar .u8 => .scalar .u8
    | .scalar .u64 => .scalar .u64
    | .scalar .text => .scalar (.text InteractionSchema.maxStringFieldBytes)
    | .scalar .bytes => .scalar (.bytes InteractionSchema.maxBytesFieldBytes)

def grammarType : TypeShape → GrammarType
  | .record fields => .record (fields.map field)
  | .variant cases => .variant (cases.map fun case => ⟨case.stableId, case.fields.map field⟩)

def lower (graph : TypeGraph) (envelope : String) : Grammar where
  envelope := envelope
  root := graph.rootTypeId
  types := graph.types.foldl (fun types decl => types.insert decl.stableId (grammarType decl.shape)) ∅

/-- What the grammar expects. -/
inductive ExpectedNext
  | envelope
  | objectKey
  | caseIdentity
  | fieldIdentity
  | scalar
  deriving DecidableEq

inductive Escape
  | none
  | slash
  | unicode (digits value : Nat)

inductive Op
  | literal (bytes : List UInt8) (kind : ExpectedNext) (location : String)
  | value (value : GrammarValue) (location : String)
  | fields (id : String) (case : Option Nat) (next : Nat)
  | case (id : String) (low high next : Nat)
  | string (scalar : Scalar) (token : List UInt8) (escape : Escape) (decodedBytes : Nat)
      (location : String)
  | bytes (limit count : Nat) (token : List UInt8) (allowEnd : Bool) (location : String)

/-- The most work of a document. -/
def maxGrammarWork : Nat := maxStreamBytes * 64

/-- The grammar, the sorted names of the cases of its variants, and the operations to come; the next
one is the first of the stack. -/
structure GrammarState where
  grammar : Grammar
  cases : BTreeMap String (List (List UInt8 × Nat))
  stack : List Op
  work : Nat

/-- The state with other operations to come. -/
def GrammarState.withStack (state : GrammarState) (stack : List Op) : GrammarState :=
  { state with stack }

/-- A literal is nothing where it has no bytes. What is left of one is kept, not what is taken. -/
def literal (text : List UInt8) (kind : ExpectedNext) (location : String) (stack : List Op) : List Op :=
  if text.isEmpty then stack else .literal text kind location :: stack

/-- The names of the cases of a variant as they are written, in order, with their places. -/
def caseTable (cases : List Case) : List (List UInt8 × Nat) :=
  ((cases.map fun case => utf8 (quoteJson case.id)).zipIdx).mergeSort fun first second =>
    first.1 ≤ second.1

def GrammarState.new (grammar : Grammar) : GrammarState where
  grammar := grammar
  cases := grammar.types.toList.foldl (fun cases entry =>
    match entry.2 with
    | .record _ => cases
    | .variant alternatives => cases.insert entry.1 (caseTable alternatives)) ∅
  stack :=
    literal (utf8 grammar.envelope) .envelope "envelope"
      (.value (.type grammar.root) grammar.root ::
        literal (utf8 "\x7d\n") .objectKey "document" [])
  work := 0

/-- A rule of the grammar is broken. -/
def fail (location : String) (atByte : Nat) (reason : String) : StreamRefusal :=
  ⟨.grammar, location ++ ": " ++ reason, atByte⟩

/-- An integer of a range, with an optional sign (`parse`); an unsigned one has no minus. -/
def parseInteger (low high : Int) (text : List Char) : Option Int :=
  let (negative, digits) :=
    match text with
    | '+' :: digits => (false, digits)
    | '-' :: digits => if low < 0 then (true, digits) else (false, text)
    | digits => (false, digits)
  if digits.isEmpty ∨ ¬ digits.all Char.isDigit then none
  else
    let magnitude : Int := Nat.ofDigitChars 10 digits 0
    let number := if negative then -magnitude else magnitude
    if low ≤ number ∧ number ≤ high then some number else none

/-- The text is the one form of a number of the range. -/
def isCanonical (low high : Int) (text : String) : Bool :=
  (parseInteger low high text.toList).any fun number => toString number = text

section Steps

variable (parse : String → Option LiveInvocation.Value)

/-- A quoted scalar is the canonical form of a string, and within its bounds. -/
def validateScalar (scalar : Scalar) (token : List UInt8) (location : String) (atByte : Nat) :
    Except StreamRefusal Unit :=
  match ((String.fromUTF8? ⟨token.toArray⟩).bind parse).bind LiveInvocation.Value.asStr with
  | none => .error (fail location atByte "invalid scalar JSON string")
  | some text =>
    if utf8 (quoteJson text) ≠ token then
      .error (fail location atByte "noncanonical scalar string")
    else
      let valid := match scalar with
        | .text limit => decide (text.utf8ByteSize ≤ limit)
        | .i32 => isCanonical (-2147483648) 2147483647 text
        | .i64 => isCanonical (-9223372036854775808) 9223372036854775807 text
        | .u8 => isCanonical 0 255 text
        | .u64 => isCanonical 0 18446744073709551615 text
        | .bool | .bytes _ => false
      if valid then .ok ()
      else .error (fail location atByte "scalar range or canonical decimal mismatch")

/-- Charge work, up to the bound. -/
def GrammarState.charge (state : GrammarState) (amount atByte : Nat) :
    Except StreamRefusal GrammarState :=
  if state.work + amount > maxGrammarWork then
    .error (fail "grammar" atByte "incremental work limit exceeded")
  else if state.stack.length > maxStreamDepth * 4 then
    .error (fail "grammar" atByte "parser stack limit exceeded")
  else .ok
    { state with work := state.work + amount }

/-- The binary search of `partition_point`: where the elements that pass end, and how many were
looked at. -/
def partitionFrom {A : Type} (pass : A → Bool) (table : List A) : Nat → Nat → Nat → Nat × Nat
  | 0, base, _ => (base, 0)
  | fuel + 1, base, size =>
    if size ≤ 1 then
      match table[base]? with
      | none => (base, 0)
      | some last => (if pass last then base + 1 else base, 1)
    else
      let half := size / 2
      let base := if (table[base + half]?).any pass then base + half else base
      let (found, comparisons) := partitionFrom pass table fuel base (size - half)
      (found, comparisons + 1)

def partitionPoint {A : Type} (pass : A → Bool) (table : List A) : Nat × Nat :=
  partitionFrom pass table table.length 0 table.length

/-- Whether a byte of a name, or its end, comes before a byte. -/
def before (next : Option UInt8) (byte : UInt8) : Bool := next.all (· < byte)

/-- Whether a byte of a name, or its end, does not come after a byte. -/
def upTo (next : Option UInt8) (byte : UInt8) : Bool := next.all (· ≤ byte)

def expandType (state : GrammarState) (id : String) (atByte : Nat) :
    Except StreamRefusal GrammarState :=
  match state.grammar.types[id]? with
  | none => .error (fail id atByte "missing compiled type")
  | some (.record _) =>
    .ok (state.withStack (literal (utf8 "\x7b\"fields\":\x7b") .objectKey id
      (.fields id none 0 :: literal (utf8 "\x7d") .objectKey id state.stack)))
  | some (.variant cases) =>
    .ok (state.withStack (literal (utf8 "\x7b\"case\":") .caseIdentity id
      (.case id 0 cases.length 0 :: state.stack)))

def expandFields (state : GrammarState) (id : String) (case : Option Nat) (next atByte : Nat) :
    Except StreamRefusal GrammarState :=
  let fields := match state.grammar.types[id]?, case with
    | some (.record fields), none => some fields
    | some (.variant cases), some case => (cases[case]?).map Case.fields
    | _, _ => none
  match fields with
  | none => .error (fail id atByte "invalid compiled field table")
  | some fields =>
    match fields[next]? with
    | some field =>
      let name := (if next = 0 then "" else ",") ++ quoteJson field.id ++ ":"
      .ok (state.withStack (literal (utf8 name) .fieldIdentity field.id
        (.value field.value field.id :: .fields id case (next + 1) :: state.stack)))
    | none => .ok (state.withStack (literal (utf8 "\x7d") .objectKey id state.stack))

def stepCase (state : GrammarState) (id : String) (low high next : Nat) (byte : UInt8)
    (atByte : Nat) : Except StreamRefusal GrammarState :=
  let table := state.cases.getD id []
  let range := (table.take high).drop low
  let (lower, comparisons) := partitionPoint (fun entry => before entry.1[next]? byte) range
  let (upper, comparisons') := partitionPoint (fun entry => upTo entry.1[next]? byte) range
  let first := low + lower
  let last := low + upper
  if first = last then .error (fail id atByte "unknown or noncanonical variant case")
  else do
    let selected := (table[first]?).bind fun entry =>
      if entry.1.length = next + 1 then some entry.2 else none
    let state ← state.charge (comparisons + comparisons') atByte
    match selected with
    | some case =>
      pure (state.withStack (literal (utf8 ",\"fields\":\x7b") .objectKey id
        (.fields id (some case) 0 :: literal (utf8 "\x7d") .objectKey id state.stack)))
    | none => pure (state.withStack (.case id first last (next + 1) :: state.stack))

def hexDigitValue (byte : UInt8) : Option Nat :=
  if 0x30 ≤ byte ∧ byte ≤ 0x39 then some (byte.toNat - 0x30)
  else if 0x41 ≤ byte ∧ byte ≤ 0x46 then some (byte.toNat - 0x41 + 10)
  else if 0x61 ≤ byte ∧ byte ≤ 0x66 then some (byte.toNat - 0x61 + 10)
  else none

/-- A byte of a quoted scalar moves its escape, and the count of the bytes that it stands for. -/
def stepEscape (escape : Escape) (decodedBytes : Nat) (byte : UInt8) (location : String)
    (atByte : Nat) : Except StreamRefusal (Escape × Nat) :=
  match escape with
  | .none =>
    if byte = Scanner.backslash then .ok (.slash, decodedBytes)
    else .ok (.none, decodedBytes + 1)
  | .slash =>
    if byte = 0x75 then .ok (.unicode 0 0, decodedBytes) else .ok (.none, decodedBytes + 1)
  | .unicode digits value =>
    match hexDigitValue byte with
    | none => .error (fail location atByte "invalid Unicode escape")
    | some digit =>
      if digits = 3 then
        if value * 16 + digit > 31 then
          .error (fail location atByte "noncanonical Unicode escape")
        else .ok (.none, decodedBytes + 1)
      else .ok (.unicode (digits + 1) (value * 16 + digit), decodedBytes)

def stepString (state : GrammarState) (scalar : Scalar) (token : List UInt8) (escape : Escape)
    (decodedBytes : Nat) (location : String) (byte : UInt8) (atByte : Nat) :
    Except StreamRefusal GrammarState :=
  let limit := match scalar with
    | .text limit => limit * 6 + 2
    | _ => 22
  if token.length ≥ limit then .error (fail location atByte "scalar token limit exceeded")
  else
    match escape, decide (byte = Scanner.quote) with
    | .none, true => do
        validateScalar parse scalar (token ++ [byte]) location atByte
        pure state
    | _, _ => do
        let (escape, decodedBytes) ← stepEscape escape decodedBytes byte location atByte
        let long := match scalar with
          | .text limit => decide (decodedBytes > limit)
          | _ => false
        if long then .error (fail location atByte "string byte limit exceeded")
        else
          pure (state.withStack
            (.string scalar (token ++ [byte]) escape decodedBytes location :: state.stack))

def stepBytes (state : GrammarState) (limit count : Nat) (token : List UInt8) (allowEnd : Bool)
    (location : String) (byte : UInt8) (atByte : Nat) : Except StreamRefusal GrammarState :=
  if 0x30 ≤ byte ∧ byte ≤ 0x39 then
    if token.isEmpty ∧ count ≥ limit then
      .error (fail location atByte "byte array element limit exceeded")
    else if token.length ≥ 3 ∨ token.head? = some 0x30 then
      .error (fail location atByte "noncanonical byte element")
    else if (token ++ [byte]).foldl (fun value digit => value * 10 + (digit.toNat - 0x30)) 0 > 255 then
      .error (fail location atByte "byte element exceeds u8")
    else .ok (state.withStack (.bytes limit count (token ++ [byte]) true location :: state.stack))
  else if byte = Scanner.closeBracket ∧ allowEnd then .ok state
  else if byte = 0x2c ∧ ¬ token.isEmpty then
    .ok (state.withStack (.bytes limit (count + 1) [] false location :: state.stack))
  else .error (fail location atByte "expected canonical byte element or delimiter")

/-- An operation that is taken from the stack, and whether the byte is still to be taken after it. -/
def stepOp (state : GrammarState) (op : Op) (byte : UInt8) (atByte : Nat) :
    Except StreamRefusal (GrammarState × Bool) :=
  match op with
  | .literal text kind location =>
    if text.head? = some byte then
      .ok (state.withStack (literal text.tail kind location state.stack), false)
    else
      .error ⟨if kind = .envelope then .schemaPrefix else .grammar,
        location ++ ": expected canonical identity, order or punctuation", atByte⟩
  | .value (.type id) _ => do
      let state ← expandType state id atByte
      pure (state, true)
  | .fields id case next => do
      let state ← expandFields state id case next atByte
      pure (state, true)
  | .case id low high next => do
      let state ← stepCase state id low high next byte atByte
      pure (state, false)
  | .value (.scalar .bool) location =>
    if byte = 0x74 then
      .ok (state.withStack (literal (utf8 "rue") .scalar location state.stack), false)
    else if byte = 0x66 then
      .ok (state.withStack (literal (utf8 "alse") .scalar location state.stack), false)
    else .error (fail location atByte "expected boolean")
  | .value (.scalar (.bytes limit)) location =>
    if byte = Scanner.openBracket then
      .ok (state.withStack (.bytes limit 0 [] true location :: state.stack), false)
    else .error (fail location atByte "expected byte array")
  | .value (.scalar scalar) location =>
    if byte = Scanner.quote then
      .ok (state.withStack (.string scalar [byte] .none 0 location :: state.stack), false)
    else .error (fail location atByte "expected quoted scalar")
  | .string scalar token escape decodedBytes location => do
      let state ← stepString parse state scalar token escape decodedBytes location byte atByte
      pure (state, false)
  | .bytes limit count token allowEnd location => do
      let state ← stepBytes state limit count token allowEnd location byte atByte
      pure (state, false)

/-- The loop of a byte, which is charged for every turn; `left` turns are left of the bound. -/
def loop : Nat → GrammarState → UInt8 → Nat → Except StreamRefusal GrammarState
  | 0, _, _, atByte => .error (fail "grammar" atByte "incremental work limit exceeded")
  | left + 1, state, byte, atByte => do
      let state ← state.charge 1 atByte
      match state.stack with
      | [] => .error (fail "document" atByte "trailing byte")
      | op :: stack => do
          let (state, again) ← stepOp parse (state.withStack stack) op byte atByte
          if again then loop left state byte atByte else pure state

def GrammarState.step (state : GrammarState) (byte : UInt8) (atByte : Nat) :
    Except StreamRefusal GrammarState :=
  loop parse (maxGrammarWork + 1 - state.work) state byte atByte

end Steps

end Semaprax.StreamingProposal
