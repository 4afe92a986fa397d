/-
**The parser of expressions** (`parser.rs`, `parser/closures.rs`, `parser/for_loop.rs`,
`parser/signed_minimum.rs`).

The parser goes down through the forms of an expression and comes back to two of its functions:
expressions and blocks. These two are given to the others one level below, and a run has so many
levels, and so many turns for a loop, as its fuel.

* `prefixAtom`, `unaryChain`, `signedMinimumLiteral` — operands, and the operators before them.
* `postfixExpression`, `dotSuffix` — what may follow an operand.
* `blockAfterOpen`, `letStatement`, … — blocks and statements.
* `expressionWithRecordLiterals` — operators between operands, by their precedence.
* `parsers` — the levels.
-/

import Semaprax.ExpressionParser.Patterns

namespace Semaprax.ExpressionParser

open Library

/-- The functions that the others come back to. -/
structure Parsers where
  expressionWithRecordLiterals : Nat → Bool → Parse Expr
  blockAfterOpen : Parse Expr

def Parsers.expression (below : Parsers) (minimumPrecedence : Nat) : Parse Expr :=
  below.expressionWithRecordLiterals minimumPrecedence true

section Levels

variable (below : Parsers) (fuel : Nat)

/-- The expressions up to a closing parenthesis. -/
def callArguments : Parse (List Expr) := do
  if (← Prog.get).current = .rParen then pure []
  else
    Prog.loop .exhausted (fun args => do
      let args := args ++ [← below.expression 0]
      if ← take .comma then pure (.again args) else pure (.done args)) fuel []

def fieldInitializers (description : String) : Parse (List FieldInitializer) :=
  Prog.loop .exhausted (fun fields => do
    if (← Prog.get).current = .rBrace then pure (.done fields)
    else
      let name ← ident description
      expect .colon "`:` after variant payload field"
      let fields := fields ++ [.mk name (← below.expression 0)]
      if ← take .comma then pure (.again fields) else pure (.done fields)) fuel []

/-- The fields after `with`. -/
def recordReplacements : Parse (List FieldInitializer) :=
  Prog.loop .exhausted (fun fields => do
    if (← Prog.get).current = .rBrace then pure (.done fields)
    else
      let name ← ident "record replacement field name"
      expect .colon "`:` after record replacement field"
      let fields := fields ++ [.mk name (← below.expression 0)]
      if ← take .comma then pure (.again fields) else pure (.done fields)) fuel []

/-- The fields of a record. A name alone stands for the variable. -/
def recordInitializers : Parse (List FieldInitializer) :=
  Prog.loop .exhausted (fun fields => do
    if (← Prog.get).current = .rBrace then pure (.done fields)
    else
      let name ← ident "record initializer field name"
      let value ← (do
        if ← take .colon then below.expression 0 else pure (.var name) : Parse Expr)
      let fields := fields ++ [.mk name value]
      if ← take .comma then pure (.again fields) else pure (.done fields)) fuel []

/-- A method call or a projection. -/
def dotSuffix (expression : Expr) : Parse Expr := do
  let field ← ident "field name after `.`"
  let parser ← Prog.get
  let methodTypeArguments ← (do
    if parser.current = .lt ∧ parser.looksLikeGenericQualifier .lParen then typeArguments fuel
    else pure [] : Parse (List Ty))
  if ← take .lParen then
    let args ← callArguments below fuel
    expect .rParen "`)` after method arguments"
    match expression with
    | .var "super" => pure (.superMethod field args)
    | _ => pure (.methodCall expression field methodTypeArguments args)
  else if ¬ methodTypeArguments.isEmpty then
    error "SPX-P202" "generic arguments require a call; use `.method::<T>(...)`"
  else pure (.project expression field)

def expressionPath : Expr → Option String
  | .var name => some name
  | .project base field => (expressionPath base).map fun path => path ++ "." ++ field
  | _ => none

def Expr.isVar : Expr → Bool
  | .var _ => true
  | _ => false

/-- The types in brackets after a name, if they are not comparisons. -/
def genericArguments (allowRecordLiterals : Bool) (expression : Expr) : Parse (List Ty) := do
  let parser ← Prog.get
  if parser.current = .lt ∧ expression.isVar ∧
      (parser.looksLikeGenericQualifier .colonColon ∨ parser.looksLikeGenericQualifier .lParen ∨
        allowRecordLiterals ∧ parser.looksLikeGenericQualifier .lBrace) then typeArguments fuel
  else pure []

def variantConstruction (typeArguments : List Ty) : Expr → Parse Expr
  | .var typeName => do
      let caseName ← ident "variant case name after `::`"
      expect .lBrace "`\x7b` after variant case name"
      let fields ← fieldInitializers below fuel "variant payload field"
      expect .rBrace "`\x7d` after variant payload"
      pure (.constructVariant typeName typeArguments caseName fields)
  | _ => error "SPX-P204" "variant construction requires a named variant qualifier"

def functionCall (typeArguments : List Ty) : Expr → Parse Expr
  | .var name => do
      let args ← callArguments below fuel
      expect .rParen "`)` after call arguments"
      pure (.call name typeArguments args)
  | _ => error "SPX-P202" "only named functions can be called"

/-- One form after an operand, if there is one. -/
def postfixTurn (allowRecordLiterals : Bool) (expression : Expr) : Parse (Turn Expr Expr) := do
  let typeArguments ← genericArguments fuel allowRecordLiterals expression
  if ← take .colonColon then
    pure (.again (← variantConstruction below fuel typeArguments expression))
  else
    let parser ← Prog.get
    if parser.atKeyword "with" then
      let _ ← bump
      expect .lBrace "`\x7b` after `with`"
      let fields ← recordReplacements below fuel
      expect .rBrace "`\x7d` after record replacements"
      pure (.again (.updateRecord expression fields))
    else if allowRecordLiterals ∧ parser.current = .lBrace then
      match expressionPath expression with
      | none => pure (.done expression)
      | some typeName => do
          let _ ← bump
          let fields ← recordInitializers below fuel
          expect .rBrace "`\x7d` after record initializer"
          pure (.again (.constructRecord typeName typeArguments fields))
    else if ← take .lParen then
      pure (.again (← functionCall below fuel typeArguments expression))
    else if ← take .dot then pure (.again (← dotSuffix below fuel expression))
    else if ← take .question then pure (.again (.tryExpression expression))
    else pure (.done expression)

def postfixExpression (allowRecordLiterals : Bool) (expression : Expr) : Parse Expr :=
  Prog.loop .exhausted (postfixTurn below fuel allowRecordLiterals) fuel expression

def block (description : String) : Parse Expr := do
  let parser ← Prog.get
  if description = "`else`" ∧ parser.atKeyword "if" then
    error "SPX-P106" "`else if` is not admitted"
  else
    expect .lBrace ("`\x7b` before " ++ description)
    below.blockAfterOpen

def letStatement : Parse Statement := do
  let _ ← bump
  let mutable ← (do
    if (← Prog.get).atKeyword "mut" then
      let _ ← bump
      if (← Prog.get).atKeyword "mut" then
        error "SPX-U104" "duplicate `mut` modifier; write `let mut` exactly once"
      else pure true
    else pure false : Parse Bool)
  let name ← ident "local binding name"
  let declared ← (do
    if ← take .colon then pure (some (← ty fuel)) else pure none : Parse (Option Ty))
  expect .eq "`=` in local binding"
  let value ← below.expression 0
  expect .semicolon "`;` after local binding"
  pure (.letStatement name mutable declared value)

/-- Fields follow, and an equality sign. -/
def fieldsThenEq : List TokenKind → Bool
  | .dot :: .ident _ :: .eq :: _ => true
  | .dot :: .ident _ :: .dot :: tokens => fieldsThenEq (.dot :: tokens)
  | _ => false

def Parser.atAssignStatement (parser : Parser) : Bool :=
  match parser.rest with
  | .ident _ :: .eq :: _ => true
  | .ident _ :: tokens => fieldsThenEq tokens
  | _ => false

def assignStatement : Parse Statement := do
  let name ← ident "assignable binding name"
  let field ← (do
    if ← take .dot then
      let fieldName ← ident "assignment field name"
      if (← Prog.get).current = .dot then
        error "SPX-U111" "nested place chains like `a.b.c = ...` are outside field mutation v1"
      else pure (some fieldName)
    else pure none : Parse (Option String))
  expect .eq "`=` in assignment"
  let value ← below.expression 0
  expect .semicolon "`;` after assignment"
  pure (.assign name field value)

def whileStatement : Parse Statement := do
  keyword "while"
  let condition ← below.expressionWithRecordLiterals 0 false
  let body ← block below "`while` body"
  pure (.whileStatement condition body)

def Parser.atUnsafeStatement (parser : Parser) : Bool :=
  (parser.atKeyword "unsafe" && parser.ahead 1 = some .lBrace) ||
    (parser.current = .atSign &&
      match parser.ahead 1 with
      | some (.ident _) => true
      | _ => false)

def auditSummary : Parse String := do
  let token ← bump
  match token with
  | .string value => pure value
  | _ => error "SPX-N103" "@audit expects a string literal summary"

def unsafeStatement : Parse Statement := do
  if ← take .atSign then
    let attributeName ← ident "attribute name"
    if attributeName ≠ "audit" then
      error "SPX-P102" ("unknown attribute `@" ++ attributeName ++
        "`; only `@id` and `@audit` are supported")
    else
      expect .lParen "`(` after @audit"
      let audit ← auditSummary
      expect .rParen "`)` after @audit summary"
      if audit.isEmpty then error "SPX-N103" "@audit summary must be a non-empty string"
      else
        keyword "unsafe"
        let body ← block below "unsafe block body"
        pure (.unsafeStatement audit body)
  else
    error "SPX-N102" "unsafe blocks require an audit summary annotation: `@audit(\"...\")`"

/-- After two dots, a missing field name is explained by the range. -/
def rangeForHint (after : Parser) : Failure → Failure
  | .diagnostic diagnostic =>
    if diagnostic.code = "SPX-P105" ∧ (after.passed.take 2).map Passed.kind = [.dot, .dot] then
      .diagnostic ⟨diagnostic.code, "range `for` loops are not admitted; use `while`"⟩
    else .diagnostic diagnostic
  | .exhausted => .exhausted

def forStatement : Parse Statement := do
  keyword "for"
  let consuming ← (do
    if (← Prog.get).atKeyword "own" then
      let _ ← bump
      pure true
    else pure false : Parse Bool)
  let item ← ident "loop item binding"
  keyword "in"
  let values ← (below.expressionWithRecordLiterals 0 false).mapStopIn rangeForHint
  let body ← block below "`for` body"
  if consuming then pure (.forOwn item values body) else pure (.forStatement item values body)

/-- A word of another language, where a statement or the last expression is expected. -/
def Parser.foreignStatement (parser : Parser) : Option String :=
  match parser.rest with
  | .ident _ :: .semicolon :: _ => some "expected `\x7d` after block"
  | .ident word :: following :: _ =>
    let message : Option String :=
      if word = "return" then
        some "`return` is not admitted; a block's value is its final expression"
      else if word = "for" ∨ word = "loop" then some "only `while` loops are admitted"
      else none
    match following with
    | .ident _ | .int _ | .intMinMagnitude | .int32 _ | .int32MinMagnitude | .float _ | .char _
    | .uint8 _ | .usize _ | .string _ | .lBracket | .lBrace | .bang => message
    | _ => none
  | _ => none

def Parser.compoundAssignment (parser : Parser) : Bool :=
  match parser.rest with
  | .ident _ :: operator :: .eq :: _ =>
    operator = .plus ∨ operator = .minus ∨ operator = .star ∨ operator = .slash ∨
      operator = .percent
  | _ => false

def statementTurn (statements : List Statement) : Parse (Turn (List Statement) (List Statement)) := do
  let parser ← Prog.get
  if parser.atKeyword "let" then pure (.again (statements ++ [← letStatement below fuel]))
  else if parser.atAssignStatement then pure (.again (statements ++ [← assignStatement below]))
  else if parser.atUnsafeStatement then pure (.again (statements ++ [← unsafeStatement below]))
  else if parser.atKeyword "while" then pure (.again (statements ++ [← whileStatement below]))
  else if parser.atKeyword "for" then pure (.again (statements ++ [← forStatement below]))
  else pure (.done statements)

def blockAfterOpen : Parse Expr := do
  let statements ← Prog.loop .exhausted (statementTurn below fuel) fuel []
  let parser ← Prog.get
  if parser.current = .rBrace then
    error "SPX-P203" "block requires a final value expression"
  else
    match parser.foreignStatement with
    | some message => error "SPX-P106" message
    | none =>
      if parser.compoundAssignment then error "SPX-P201" "compound assignment is not admitted"
      else
        let tail ← below.expression 0
        if ← take .semicolon then error "SPX-P106" "expected `\x7d` after block"
        else
          expect .rBrace "`\x7d` after block"
          pure (.block statements tail)

def ifExpression : Parse Expr := do
  let condition ← below.expressionWithRecordLiterals 0 false
  let thenBranch ← block below "`if` condition"
  keyword "else"
  let elseBranch ← block below "`else`"
  pure (.ifExpression condition thenBranch elseBranch)

def MatchPattern.isBinding : MatchPattern → Bool
  | .binding _ => true
  | _ => false

def matchGuard : Parse (Option Expr) := do
  if (← Prog.get).atKeyword "if" then
    let _ ← bump
    pure (some (← below.expression 0))
  else pure none

def matchArmTurn (arms : List MatchArm) : Parse (Turn (List MatchArm) (List MatchArm)) := do
  let parser ← Prog.get
  if parser.current = .rBrace then pure (.done arms)
  else if parser.current = .eof then error "SPX-P205" "expected `\x7d` after match arms"
  else
    let pattern ← matchPattern fuel
    let guard ← matchGuard below
    if pattern.isBinding ∧ (← Prog.get).current = .lParen then
      error "SPX-P106" "expected `=>` after match pattern"
    else
      expect .fatArrow "`=>` after match pattern"
      let value ← below.expression 0
      expect .comma "`,` after match arm"
      pure (.again (arms ++ [.mk pattern guard value]))

def matchExpression : Parse Expr := do
  let mode ← contextualMatchMode
  let scrutinee ← below.expressionWithRecordLiterals 0 false
  expect .lBrace "`\x7b` before match arms"
  let arms ← Prog.loop .exhausted (matchArmTurn below fuel) fuel []
  expect .rBrace "`\x7d` after match arms"
  pure (.matchExpression mode scrutinee arms)

def closureParams : Parse (List ClosureParam) := do
  if (← Prog.get).current = .rParen then pure []
  else
    Prog.loop .exhausted (fun params => do
      let name ← ident "closure parameter name"
      expect .colon "`:` after closure parameter name"
      let params := params ++ [⟨name, ← ty fuel⟩]
      if (← Prog.get).current = .rParen then pure (.done params)
      else
        expect .comma "`,` between closure parameters"
        if (← Prog.get).current = .rParen then
          error "SPX-P106" "closure parameters do not accept a trailing comma"
        else pure (.again params)) fuel []

def closureExpression : Parse Expr := do
  expect .lParen "`(` after anonymous `fn`"
  let params ← closureParams fuel
  expect .rParen "`)` after closure parameters"
  expect .arrow "`->` after closure parameters"
  let returnType ← ty fuel
  let body ← block below "closure body"
  pure (.closure params returnType body false)

def ownClosure : Parse Expr := do
  keyword "fn"
  expect .lParen "`(` after `own fn`"
  if (← Prog.get).current ≠ .rParen then
    error "SPX-P130" ("owning-capture closures admit no explicit parameters in this bounded " ++
      "profile")
  else
    expect .rParen "`)` after `own fn(`"
    expect .arrow "`->` after `own fn()`"
    let returnType ← ty fuel
    let body ← block below "owning closure body"
    pure (.closure [] returnType body true)

def identOrOwnClosure (value : String) : Parse Expr := do
  if value = "own" ∧ (← Prog.get).atKeyword "fn" then ownClosure below fuel
  else pure (.var value)

def byteElement : Parse UInt8 := do
  let token ← bump
  match token with
  | .uint8 value => pure value
  | _ => error "SPX-T262" "fixed byte-array literal elements must be exact `u8` literals"

def byteArrayLiteral : Parse Expr := do
  if ← take .rBracket then pure (.arrayU8 [])
  else
    let firstValue ← byteElement
    if ← take .semicolon then
      let count ← fixedArrayCount
      expect .rBracket "`]` after repeated byte-array literal"
      pure (.repeatArrayU8 firstValue count)
    else
      let values ← Prog.loop .exhausted (fun values => do
        if ← take .comma then
          if (← Prog.get).current = .rBracket then pure (.done values)
          else
            let values := values ++ [← byteElement]
            if values.length > 65536 then
              error "SPX-T261" "fixed byte-array literal length exceeds 65536 bytes"
            else pure (.again values)
        else pure (.done values)) fuel [firstValue]
      expect .rBracket "`]` after byte-array literal"
      pure (.arrayU8 values)

def TokenKind.isSignedMinimum (token : TokenKind) : Bool :=
  token = .intMinMagnitude ∨ token = .int32MinMagnitude

/-- A minus directly before a magnitude is its sign; any other is an operator. -/
def Parser.prefixReading (parser : Parser) : Reading :=
  match parser.rest with
  | .minus :: token :: _ => if token.isSignedMinimum then .sign else .prefixOperator
  | .minus :: _ | .bang :: _ => .prefixOperator
  | _ => .plain

def Parser.atSignedMinimum (parser : Parser) : Bool := parser.current.isSignedMinimum

def signedMinimumLiteral : Parse Expr := do
  let parser ← Prog.get
  let _ ← bump
  pure (if parser.current = .intMinMagnitude then .int Int64.minValue else .int32 Int32.minValue)

/-- One operator of a chain. A chain ends before an operand, or with a literal. -/
def unaryTurn (state : TokenKind × List UnaryOp) :
    Parse (Turn (TokenKind × List UnaryOp) (Expr ⊕ List UnaryOp)) := do
  let op : UnaryOp := if state.1 = .minus then .neg else .not
  let parser ← Prog.get
  if op = .neg ∧ parser.atSignedMinimum then pure (.done (.inl (← signedMinimumLiteral)))
  else
    let ops := state.2 ++ [op]
    if parser.current = .minus ∨ parser.current = .bang then
      let currentToken ← bumpAs Parser.prefixReading
      pure (.again (currentToken, ops))
    else pure (.done (.inr ops))

def Expr.isUsize : Expr → Bool
  | .usize _ => true
  | _ => false

/-- The operators around a value, the innermost first. -/
def applyOperators : List UnaryOp → Expr → Parse Expr
  | [], value => pure value
  | op :: ops, value =>
    if op = .neg ∧ value.isUsize then error "SPX-T260" "usize literals cannot be negative"
    else applyOperators ops (.unary op value)

/-- The operators that begin with a token, and their operand. -/
def unaryExpression (allowRecordLiterals : Bool) (token : TokenKind) : Parse Expr := do
  let chain ← Prog.loop .exhausted unaryTurn fuel (token, [])
  match chain with
  | .inl literal => pure literal
  | .inr ops => do
      let value ← below.expressionWithRecordLiterals 7 allowRecordLiterals
      applyOperators ops.reverse value

/-- An expression in parentheses, after the first. -/
def parenthesized : Parse Expr := do
  let inner ← below.expression 0
  if (← Prog.get).current = .comma then error "SPX-P106" "expected `)` after expression"
  else
    expect .rParen "`)` after expression"
    pure inner

def prefixAtom (allowRecordLiterals : Bool) : Parse Expr := do
  let token ← bumpAs Parser.prefixReading
  match token with
  | .int value => pure (.int value)
  | .int32 value => pure (.int32 value)
  | .char value => pure (.char value)
  | .uint8 value => pure (.uint8 value)
  | .usize value => pure (.usize value)
  | .lBracket => byteArrayLiteral fuel
  | .string value => pure (.string value)
  | .float literal =>
    if literal.wide then pure (.float64 literal.value)
    else pure (.float32 (Float.ofBits literal.value).toFloat32.toBits)
  | .ident value =>
    if value = "true" ∨ value = "false" then pure (.bool (value = "true"))
    else if value = "fn" then closureExpression below fuel
    else if value = "if" then ifExpression below
    else if value = "match" then matchExpression below fuel
    else identOrOwnClosure below fuel value
  | .minus => unaryExpression below fuel allowRecordLiterals .minus
  | .bang => unaryExpression below fuel allowRecordLiterals .bang
  | .lParen => parenthesized below
  | .lBrace => below.blockAfterOpen
  | .intMinMagnitude => outOfRange .intMinMagnitude
  | .int32MinMagnitude => outOfRange .int32MinMagnitude
  | _ => error "SPX-P201" "expected an expression"

def prefixExpression (allowRecordLiterals : Bool) : Parse Expr := do
  let expression ← prefixAtom below fuel allowRecordLiterals
  postfixExpression below fuel allowRecordLiterals expression

def TokenKind.binaryOp : TokenKind → Option BinaryOp
  | .plus => some .add
  | .minus => some .sub
  | .star => some .mul
  | .slash => some .div
  | .percent => some .rem
  | .eqEq => some .eq
  | .bangEq => some .ne
  | .lt => some .lt
  | .le => some .le
  | .gt => some .gt
  | .ge => some .ge
  | .andAnd => some .and
  | .orOr => some .or
  | _ => none

/-- One operator and its right operand, or none. -/
def binaryTurn (minimumPrecedence : Nat) (allowRecordLiterals : Bool) (left : Expr) :
    Parse (Turn Expr Expr) := do
  match (← Prog.get).current.binaryOp with
  | none => pure (.done left)
  | some op =>
    if op.precedence < minimumPrecedence then pure (.done left)
    else
      let _ ← bumpAs fun _ => .infixOperator
      let right ← below.expressionWithRecordLiterals (op.precedence + 1) allowRecordLiterals
      pure (.again (.binary op left right))

def expressionWithRecordLiterals (minimumPrecedence : Nat) (allowRecordLiterals : Bool) :
    Parse Expr := do
  let left ← prefixExpression below fuel allowRecordLiterals
  Prog.loop .exhausted (binaryTurn below minimumPrecedence allowRecordLiterals) fuel left

end Levels

/-- The parsers with so many levels, and turns, left. -/
def parsers : Nat → Parsers
  | 0 => ⟨fun _ _ => Prog.stop .exhausted, Prog.stop .exhausted⟩
  | fuel + 1 => ⟨expressionWithRecordLiterals (parsers fuel) fuel, blockAfterOpen (parsers fuel) fuel⟩

end Semaprax.ExpressionParser
