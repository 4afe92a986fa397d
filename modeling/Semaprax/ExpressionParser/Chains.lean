/-
**Chains of operators** (`parser.rs`, `parser/signed_minimum.rs`).

Operators before an operand, with parentheses between them or without, are read as their nesting
around the operand. A chain that ends in the literal of a signed minimum loses the operators that
stand directly before its sign.

* `written`, `nest` — a chain as tokens, and as an expression.
* `ReadsAs` — tokens that are read as one operand, wherever it ends.
* `ReadsAs.parenthesized`, `ReadsAs.operators`, `readsAs_literal` — the forms of a chain.
* `operators_kept_iff` — **when the operators of an expression are kept**.
-/

import Semaprax.ExpressionParser.Operators

namespace Semaprax.ExpressionParser

open Library

def UnaryOp.token : UnaryOp → TokenKind
  | .neg => .minus
  | .not => .bang

/-- Operators around a value, in the order in which they are written. -/
def nest (ops : List UnaryOp) (value : Expr) : Expr := ops.foldr .unary value

/-- Runs of operators, a parenthesis after each but the inner one, before an operand. -/
def written (outer : List (List UnaryOp)) (inner : List UnaryOp) (operand : List TokenKind) :
    List TokenKind :=
  match outer with
  | [] => inner.map UnaryOp.token ++ operand
  | run :: outer =>
    run.map UnaryOp.token ++ .lParen :: (written outer inner operand ++ [.rParen])

/-- The token neither goes on with an operand nor joins it to another. -/
def TokenKind.ends (token : TokenKind) : Bool :=
  token.binaryOp.isNone ∧ token ≠ .colonColon ∧ token ≠ .lBrace ∧ token ≠ .lParen ∧ token ≠ .dot ∧
    token ≠ .question ∧ token ≠ .ident "with"

/-- Tokens that are read as one operand, wherever an operand is expected and ends. -/
def ReadsAs (tokens : List TokenKind) (value : Expr) : Prop :=
  ∀ fuel minimumPrecedence allowRecordLiterals before rest result after,
    (rest.headD .eof).ends = true → before.rest = tokens ++ rest →
    (parsers fuel).expressionWithRecordLiterals minimumPrecedence allowRecordLiterals before =
      (.ok result, after) → result = value ∧ after.rest = rest

def Begins (tokens : List TokenKind) : Prop :=
  ∃ token more, tokens = token :: more ∧ token ≠ .minus ∧ token ≠ .bang ∧
    token.isSignedMinimum = false

section Ends

variable {parser after : Parser} {below : Parsers} {fuel : Nat}

variable {expected : TokenKind} {allowRecordLiterals : Bool} {expression result : Expr}

theorem take_eq_ok {taken : Bool} (other : parser.current ≠ expected)
    (ran : take expected parser = (.ok taken, after)) : taken = false ∧ after = parser := by
  change (if parser.current = expected then _ else _ : Parse Bool) parser = _ at ran
  rw [if_neg other] at ran
  cases ran
  exact ⟨rfl, rfl⟩

theorem genericArguments_eq_ok {typeArguments : List Ty} (other : parser.current ≠ .lt)
    (ran : genericArguments fuel allowRecordLiterals expression parser =
      (.ok typeArguments, after)) : after = parser := by
  change (if parser.current = .lt ∧ _ then _ else _ : Parse (List Ty)) parser = _ at ran
  rw [if_neg fun both => other both.1] at ran
  cases ran
  rfl

theorem postfixTurn_of_ends {turn : Turn Expr Expr} (ends : parser.current.ends = true)
    (ran : postfixTurn below fuel allowRecordLiterals expression parser = (.ok turn, after)) :
    turn = .done expression ∧ after = parser := by
  obtain ⟨single, noColons, noBrace, noParen, noDot, noQuestion, noWith⟩ := of_decide_eq_true ends
  obtain ⟨typeArguments, _, listed, atColons⟩ := run_bind_ok ran
  obtain rfl := genericArguments_eq_ok (fun lt => by rw [lt] at single; cases single) listed
  obtain ⟨colons, _, taken, atWith⟩ := run_bind_ok atColons
  obtain ⟨rfl, rfl⟩ := take_eq_ok noColons taken
  rw [if_neg Bool.false_ne_true] at atWith
  obtain ⟨_, _, looked, atBrace⟩ := run_bind_ok atWith
  cases looked
  have noWord : ¬(Parser.atKeyword _ "with" = true) := fun word => noWith (of_decide_eq_true word)
  rw [if_neg noWord, if_neg fun both => noBrace both.2] at atBrace
  obtain ⟨paren, _, noCall, atDot⟩ := run_bind_ok atBrace
  obtain ⟨rfl, rfl⟩ := take_eq_ok noParen noCall
  rw [if_neg Bool.false_ne_true] at atDot
  obtain ⟨dot, _, noField, atQuestion⟩ := run_bind_ok atDot
  obtain ⟨rfl, rfl⟩ := take_eq_ok noDot noField
  rw [if_neg Bool.false_ne_true] at atQuestion
  obtain ⟨question, _, noTry, atEnd⟩ := run_bind_ok atQuestion
  obtain ⟨rfl, rfl⟩ := take_eq_ok noQuestion noTry
  rw [if_neg Bool.false_ne_true] at atEnd
  cases atEnd
  exact ⟨rfl, rfl⟩

theorem postfixExpression_of_ends (ends : parser.current.ends = true)
    (ran : postfixExpression below fuel allowRecordLiterals expression parser =
      (.ok result, after)) : result = expression ∧ after = parser := by
  cases fuel with
  | zero => cases ran
  | succ fuel =>
    obtain ⟨turn, middle, turned, ended⟩ := run_bind_ok ran
    obtain ⟨rfl, rfl⟩ := postfixTurn_of_ends ends turned
    cases ended
    exact ⟨rfl, rfl⟩

theorem binary_of_ends {minimumPrecedence : Nat} {left : Expr} (ends : parser.current.ends = true)
    (ran : Prog.loop .exhausted (binaryTurn below minimumPrecedence allowRecordLiterals) fuel left
      parser = (.ok result, after)) : result = left ∧ after = parser := by
  have single : parser.current.binaryOp = none :=
    Option.isNone_iff_eq_none.mp (of_decide_eq_true ends).1
  cases fuel with
  | zero => cases ran
  | succ fuel =>
    obtain ⟨turn, middle, turned, ran⟩ := run_bind_ok ran
    unfold binaryTurn at turned
    obtain ⟨_, _, looked, turned⟩ := run_bind_ok turned
    cases looked
    rw [single] at turned
    cases turned
    cases ran
    exact ⟨rfl, rfl⟩

theorem expect_eq_ok {description : String} {result : Unit}
    (token : expected ≠ .eof) (ran : expect expected description parser = (.ok result, after)) :
    parser.rest = expected :: after.rest := by
  change (if parser.current = expected then _ else _ : Parse Unit) parser = _ at ran
  by_cases current : parser.current = expected
  · rw [if_pos current] at ran
    obtain ⟨kind, _, bumped, ended⟩ := run_bind_ok ran
    cases ended
    obtain ⟨rfl, ⟨eof, -⟩ | ⟨rest, -⟩⟩ := bumpAs_cases bumped
    · exact absurd (current.symm.trans eof) token
    · rw [rest, current]
  · rw [if_neg current] at ran
    cases ran

end Ends

variable {allowRecordLiterals : Bool} {before : Parser} {value result : Expr}
variable {token magnitude : TokenKind} {tokens : List TokenKind} {op : UnaryOp}
variable {ops held : List UnaryOp} {chain : Expr ⊕ List UnaryOp}

/-- What is read before a token that ends an operand is read at once. -/
theorem prefixAtom_of_ends {fuel minimumPrecedence : Nat} {middle after : Parser}
    (atom : prefixAtom (parsers fuel) fuel allowRecordLiterals before = (.ok value, middle))
    (ends : middle.current.ends = true)
    (ran : (parsers (fuel + 1)).expressionWithRecordLiterals minimumPrecedence allowRecordLiterals
      before = (.ok result, after)) : result = value ∧ after = middle := by
  obtain ⟨left, between, leftRan, ran⟩ := run_bind_ok ran
  obtain ⟨value', middle', atom', forms⟩ := run_bind_ok leftRan
  rw [atom] at atom'
  cases atom'
  obtain ⟨rfl, rfl⟩ := postfixExpression_of_ends ends forms
  exact binary_of_ends ends ran

theorem bumpAs_of_rest {readingOf : Parser → Reading} {after : Parser} {kind : TokenKind}
    (first : kind ≠ .eof) (ahead : before.rest = kind :: tokens)
    (ran : bumpAs readingOf before = (.ok token, after)) : token = kind ∧ after.rest = tokens := by
  obtain ⟨rfl, ⟨eof, -⟩ | ⟨rest, -⟩⟩ := bumpAs_cases ran
  · unfold Parser.current at eof
    rw [ahead] at eof
    exact absurd eof first
  · rw [ahead] at rest
    obtain ⟨same, rest⟩ := List.cons.inj rest
    exact ⟨same.symm, rest.symm⟩

/-- **An operand in parentheses** is read as the operand. -/
theorem ReadsAs.parenthesized
    (reads : ReadsAs tokens value) : ReadsAs (.lParen :: (tokens ++ [.rParen])) value := by
  intro fuel minimumPrecedence allowRecordLiterals before rest result after ends ahead ran
  rw [List.cons_append, List.append_assoc] at ahead
  cases fuel with
  | zero => cases ran
  | succ fuel =>
    obtain ⟨left, between, leftRan, -⟩ := run_bind_ok ran
    obtain ⟨atom, middle, atomRan, -⟩ := run_bind_ok leftRan
    obtain ⟨token, opened, bumped, dispatched⟩ := run_bind_ok atomRan
    obtain ⟨rfl, inside⟩ := bumpAs_of_rest (by simp) ahead bumped
    obtain ⟨inner, closed, innerRan, more⟩ := run_bind_ok dispatched
    obtain ⟨rfl, closing⟩ := reads fuel 0 true opened _ inner closed rfl inside innerRan
    obtain ⟨_, _, looked, closes⟩ := run_bind_ok more
    cases looked
    have paren : closed.current = .rParen := by
      unfold Parser.current
      rw [closing]
      rfl
    rw [if_neg (by rw [paren]; simp)] at closes
    obtain ⟨_, _, expected, returned⟩ := run_bind_ok closes
    cases returned
    have rests := expect_eq_ok (by simp) expected
    rw [closing] at rests
    obtain ⟨-, rests⟩ := List.cons.inj rests
    change rest = middle.rest at rests
    refine (prefixAtom_of_ends atomRan ?_ ran).imp id fun same => by rw [same, ← rests]
    unfold Parser.current
    rwa [← rests]

theorem UnaryOp.token_unaryOp (op : UnaryOp) : op.token.unaryOp = op := by
  cases op with
  | neg | not => rfl

theorem UnaryOp.token_isOperator (op : UnaryOp) : op.token = .minus ∨ op.token = .bang := by
  cases op with
  | neg => exact .inl rfl
  | not => exact .inr rfl

theorem UnaryOp.token_isSignedMinimum (op : UnaryOp) : op.token.isSignedMinimum = false := by
  cases op with
  | neg | not => rfl

theorem UnaryOp.token_ne_eof (op : UnaryOp) : op.token ≠ .eof := by
  cases op with
  | neg | not => simp [UnaryOp.token]

theorem current_of_rest {parser : Parser}
    (ahead : parser.rest = token :: tokens) : parser.current = token := by
  unfold Parser.current
  rw [ahead]
  rfl

theorem chain_operators {fuel : Nat} {parser after : Parser}
    (begins : Begins tokens) (ahead : parser.rest = ops.map UnaryOp.token ++ tokens)
    (ran : Prog.loop .exhausted unaryTurn fuel (op.token, held) parser = (.ok chain, after)) :
    chain = .inr (held ++ op :: ops) ∧ after.rest = tokens := by
  obtain ⟨first, more, rfl, noMinus, noBang, noMagnitude⟩ := begins
  induction fuel generalizing op ops held parser with
  | zero => cases ran
  | succ fuel ih =>
    obtain ⟨turn, between, turned, goesOn⟩ := run_bind_ok ran
    rcases unaryTurn_cases turned with
      ⟨-, magnitude, folds, rest, -, -⟩ | ⟨-, ended | ⟨next, operator, bumped, rfl⟩⟩
    · -- the token behind the chain is no magnitude
      rw [ahead] at rest
      cases ops with
      | nil =>
        rw [(List.cons.inj rest).1, folds] at noMagnitude
        cases noMagnitude
      | cons next ops =>
        rw [← (List.cons.inj rest).1, next.token_isSignedMinimum] at folds
        cases folds
    · obtain ⟨stopsMinus, stopsBang, same, rfl⟩ := ended
      cases ops with
      | nil =>
        cases goesOn
        rw [op.token_unaryOp, same]
        exact ⟨rfl, ahead⟩
      | cons next ops =>
        rw [current_of_rest ahead] at stopsMinus stopsBang
        rcases next.token_isOperator with minus | bang
        · exact absurd minus stopsMinus
        · exact absurd bang stopsBang
    · cases ops with
      | nil =>
        have current := (bumpAs_cases bumped).1
        rw [current_of_rest ahead] at current
        rw [current] at operator
        exact absurd operator (not_or.mpr ⟨noMinus, noBang⟩)
      | cons following ops =>
        obtain ⟨rfl, rest⟩ := bumpAs_of_rest following.token_ne_eof ahead bumped
        obtain ⟨same, left⟩ := ih goesOn rest
        refine ⟨same.trans ?_, left⟩
        rw [op.token_unaryOp, List.append_assoc, List.singleton_append]

/-- **The chain before a magnitude**, if its last operator is a minus, is the literal alone. -/
theorem chain_literal {fuel : Nat} {parser after : Parser}
    (folds : magnitude.isSignedMinimum = true)
    (last : (op :: ops).getLast? = some .neg)
    (ahead : parser.rest = ops.map UnaryOp.token ++ magnitude :: tokens)
    (ran : Prog.loop .exhausted unaryTurn fuel (op.token, held) parser = (.ok chain, after)) :
    chain = .inl magnitude.minimum ∧ after.rest = tokens := by
  induction fuel generalizing op ops held parser with
  | zero => cases ran
  | succ fuel ih =>
    obtain ⟨turn, between, turned, goesOn⟩ := run_bind_ok ran
    cases ops with
    | nil =>
      cases last
      have minimum : parser.atSignedMinimum = true := by
        unfold Parser.atSignedMinimum
        rw [current_of_rest ahead]
        exact folds
      rcases unaryTurn_cases turned with ⟨-, other, -, rest, -, rfl⟩ | ⟨stays, -⟩
      · cases goesOn
        obtain ⟨rfl, behind⟩ := List.cons.inj (ahead.symm.trans rest)
        exact ⟨rfl, behind.symm⟩
      · exact absurd ⟨rfl, minimum⟩ stays
    | cons next ops =>
      have current := current_of_rest ahead
      rcases unaryTurn_cases turned with
        ⟨-, other, folds', rest, -, -⟩ |
          ⟨-, ⟨stopsMinus, stopsBang, -, -⟩ | ⟨following, -, bumped, rfl⟩⟩
      · rw [current_of_rest rest] at current
        rw [current, next.token_isSignedMinimum] at folds'
        cases folds'
      · rw [current] at stopsMinus stopsBang
        rcases next.token_isOperator with minus | bang
        · exact absurd minus stopsMinus
        · exact absurd bang stopsBang
      · obtain ⟨rfl, rest⟩ := bumpAs_of_rest next.token_ne_eof ahead bumped
        rw [List.getLast?_cons_cons] at last
        exact ih last rest goesOn

theorem prefixAtom_of_operator {fuel : Nat} {after : Parser}
    (ahead : before.rest = op.token :: tokens)
    (ran : prefixAtom (parsers fuel) fuel allowRecordLiterals before = (.ok result, after)) :
    ∃ parser, parser.rest = tokens ∧
      unaryExpression (parsers fuel) fuel allowRecordLiterals op.token parser =
        (.ok result, after) := by
  obtain ⟨token, parser, bumped, dispatched⟩ := run_bind_ok ran
  obtain ⟨rfl, rest⟩ := bumpAs_of_rest op.token_ne_eof ahead bumped
  refine ⟨parser, rest, ?_⟩
  cases op with
  | neg | not => exact dispatched

/-- **Operators before an operand** are read as their nesting. -/
theorem ReadsAs.operators (reads : ReadsAs tokens value)
    (begins : Begins tokens) (ops : List UnaryOp) :
    ReadsAs (ops.map UnaryOp.token ++ tokens) (nest ops value) := by
  cases ops with
  | nil => exact reads
  | cons op ops =>
    intro fuel minimumPrecedence allowRecordLiterals before rest result after ends ahead ran
    rw [List.map_cons, List.cons_append, List.cons_append, List.append_assoc] at ahead
    cases fuel with
    | zero => cases ran
    | succ fuel =>
      obtain ⟨left, between, leftRan, -⟩ := run_bind_ok ran
      obtain ⟨atom, middle, atomRan, -⟩ := run_bind_ok leftRan
      obtain ⟨parser, inside, chained⟩ := prefixAtom_of_operator ahead atomRan
      obtain ⟨chain, open', looped, operand⟩ := run_bind_ok chained
      have begins' : Begins (tokens ++ rest) := by
        obtain ⟨first, more, rfl, kinds⟩ := begins
        exact ⟨first, more ++ rest, rfl, kinds⟩
      obtain ⟨rfl, opened⟩ := chain_operators begins' inside looped
      obtain ⟨read, closed, readRan, applied⟩ := run_bind_ok operand
      obtain ⟨rfl, behind⟩ := reads _ _ _ _ rest _ _ ends opened readRan
      obtain ⟨rfl, rfl⟩ := applyOperators_eq_ok applied
      have ended : middle.current.ends = true := by
        unfold Parser.current
        rwa [behind]
      obtain ⟨rfl, rfl⟩ := prefixAtom_of_ends atomRan ended ran
      refine ⟨?_, behind⟩
      rw [List.nil_append, List.foldl_reverse]
      rfl

/-- **Operators before the sign of a literal** are dropped with it. -/
theorem readsAs_literal (folds : magnitude.isSignedMinimum = true) (ops : List UnaryOp) :
    ReadsAs ((ops ++ [UnaryOp.neg]).map UnaryOp.token ++ [magnitude]) magnitude.minimum := by
  intro fuel minimumPrecedence allowRecordLiterals before rest result after ends ahead ran
  obtain ⟨first, more, whole⟩ := List.exists_cons_of_ne_nil
    (List.append_ne_nil_of_right_ne_nil ops (List.cons_ne_nil UnaryOp.neg []))
  have last : (first :: more).getLast? = some .neg := by
    rw [← whole, List.getLast?_concat]
  rw [whole, List.map_cons, List.cons_append, List.cons_append, List.append_assoc] at ahead
  cases fuel with
  | zero => cases ran
  | succ fuel =>
    obtain ⟨left, between, leftRan, -⟩ := run_bind_ok ran
    obtain ⟨atom, middle, atomRan, -⟩ := run_bind_ok leftRan
    obtain ⟨parser, inside, chained⟩ := prefixAtom_of_operator ahead atomRan
    obtain ⟨chain, open', looped, operand⟩ := run_bind_ok chained
    obtain ⟨rfl, opened⟩ := chain_literal folds last inside looped
    cases operand
    have ended : middle.current.ends = true := by
      unfold Parser.current
      rwa [opened]
    obtain ⟨rfl, rfl⟩ := prefixAtom_of_ends atomRan ended ran
    exact ⟨rfl, opened⟩

theorem ReadsAs.written {inner : List UnaryOp}
    {operand : List TokenKind} (reads : ReadsAs (inner.map UnaryOp.token ++ operand) value)
    (outer : List (List UnaryOp)) :
    ReadsAs (written outer inner operand) (nest outer.flatten value) := by
  induction outer with
  | nil => exact reads
  | cons run outer ih =>
    have wrapped := ih.parenthesized.operators ⟨.lParen, _, rfl, by simp, by simp, rfl⟩ run
    unfold nest at wrapped ⊢
    rw [List.flatten_cons, List.foldr_append]
    exact wrapped

theorem nest_append (ops more : List UnaryOp) (value : Expr) :
    nest (ops ++ more) value = nest ops (nest more value) := List.foldr_append

theorem operatorNodes_nest (ops : List UnaryOp) (value : Expr) :
    (nest ops value).operatorNodes = ops.length + value.operatorNodes := by
  induction ops with
  | nil => exact (Nat.zero_add _).symm
  | cons op ops ih =>
    unfold nest at ih ⊢
    rw [List.foldr_cons, Expr.operatorNodes, ih, List.length_cons]
    omega

/-- **The operators of an expression are kept** exactly when no prefix operator stands directly before
the sign of a literal.

Of an expression that is read, the tokens that were passed are the operators of its nodes, one each,
exactly when none of them was passed directly before a sign. A chain before an operand is its nesting.
A chain before a magnitude is its nesting around the literal exactly when its inner run is the sign
alone. -/
theorem operators_kept_iff (fuel : Nat) :
    (∀ minimumPrecedence allowRecordLiterals before result after, before.Ready →
      (parsers fuel).expressionWithRecordLiterals minimumPrecedence allowRecordLiterals before =
        (.ok result, after) →
      ∃ passed, Passes passed before after ∧
        (result.operatorNodes = operators passed ↔ Keeps passed)) ∧
    (∀ outer inner operand value, Begins operand → ReadsAs operand value →
      ReadsAs (written outer inner operand) (nest (outer.flatten ++ inner) value)) ∧
    (∀ outer inner magnitude, TokenKind.isSignedMinimum magnitude = true →
      ∀ minimumPrecedence allowRecordLiterals before rest result after,
        (rest.headD .eof).ends = true →
        before.rest = written outer (inner ++ [.neg]) [magnitude] ++ rest →
        (parsers fuel).expressionWithRecordLiterals minimumPrecedence allowRecordLiterals before =
          (.ok result, after) →
        (result = nest (outer.flatten ++ inner) magnitude.minimum ↔ inner = [])) := by
  refine ⟨?_, ?_, ?_⟩
  · intro minimumPrecedence allowRecordLiterals before result after ready ran
    obtain ⟨added, counted, moved⟩ := (sound_parsers fuel).expression 0 _ _ _ _ _ ran
    obtain ⟨passed, reads⟩ := moved ready
    have counted : result.operatorNodes = added := by simpa using counted
    exact ⟨passed, reads.passes, counted ▸ reads.exactly⟩
  · intro outer inner operand value begins reads
    rw [nest_append]
    exact (reads.operators begins inner).written outer
  · intro outer inner magnitude folds minimumPrecedence allowRecordLiterals before rest result after
      ends ahead ran
    obtain ⟨rfl, -⟩ := (readsAs_literal folds inner).written outer _ _ _ _ _ _ _ ends ahead ran
    constructor
    · intro same
      have nodes := congrArg Expr.operatorNodes same
      rw [operatorNodes_nest, operatorNodes_nest, List.length_append] at nodes
      exact List.length_eq_zero_iff.mp (by omega)
    · rintro rfl
      rw [List.append_nil]

/-- **An operator is dropped.** Two minuses before a magnitude are read as the literal: the first of
them, which negates the least number, is lost. -/
theorem operators_dropped : ∃ after, (parsers 4).expressionWithRecordLiterals 0 true
        (.new [.minus, .minus, .intMinMagnitude, .eof]) = (.ok (.int Int64.minValue), after) ∧
      operators after.passed = 1 ∧ (Expr.int Int64.minValue).operatorNodes = 0 ∧
      Expr.int Int64.minValue ≠ nest [.neg] (.int Int64.minValue) :=
  ⟨_, rfl, rfl, rfl, by simp [nest]⟩

/-- A chain before a name, read with its operators. -/
theorem operators_kept_name : ∃ passed after, (parsers 4).expressionWithRecordLiterals 0 true
        (.new [.minus, .bang, .ident "x", .eof]) =
          (.ok (.unary .neg (.unary .not (.var "x"))), after) ∧
      Passes passed (.new [.minus, .bang, .ident "x", .eof]) after ∧
      (2 = operators passed ↔ Keeps passed) := by
  have ran : (parsers 4).expressionWithRecordLiterals 0 true
      (.new [.minus, .bang, .ident "x", .eof]) = (.ok (.unary .neg (.unary .not (.var "x"))), _) := rfl
  obtain ⟨passed, passes, counted⟩ := (operators_kept_iff 4).1 _ _ _ _ _
    (fun _ none' => by cases none') ran
  exact ⟨passed, _, ran, passes, counted⟩

end Semaprax.ExpressionParser
