/-
**What the parser builds from operators** (`parser.rs`).

Every function of the parser builds at most one operator node for each operator that it passes. It
builds exactly one, unless it drops the operators before the sign of a literal.

* `Parsers.Sound` — what the functions one level below build.
* `reads_blockAfterOpen`, `reads_unary`, `reads_expression`, … — what each function builds.
* `sound_parsers` — **every level of the parser**.
-/

import Semaprax.ExpressionParser.Readings

namespace Semaprax.ExpressionParser

open Library

/-- The functions one level below build what they pass. -/
structure Parsers.Sound (below : Parsers) : Prop where
  expression : ∀ carried minimumPrecedence allowRecordLiterals,
    Adds reading carried (below.expressionWithRecordLiterals minimumPrecedence allowRecordLiterals)
      fun expression => carried + expression.operatorNodes
  block : ∀ carried,
    Adds reading carried below.blockAfterOpen fun expression => carried + expression.operatorNodes

variable {count : Nat} {before after parser : Parser} {passed : List Passed} {token : TokenKind}
variable {ops : List UnaryOp} {result : Expr}

theorem fieldsNodes_concat (carried : Nat) (fields : List FieldInitializer) (name : String) (value : Expr) :
    carried + fieldsNodes (fields ++ [.mk name value]) =
      carried + fieldsNodes fields + value.operatorNodes := by
  rw [fieldsNodes_append, fieldsNodes, fieldsNodes, FieldInitializer.operatorNodes, Nat.add_zero,
    Nat.add_assoc]

theorem reads_genericArguments (fuel carried : Nat) (allowRecordLiterals : Bool) (expression : Expr) :
    Adds reading carried (genericArguments fuel allowRecordLiterals expression)
      fun _ => carried :=
  .look_bind fun _ => .ite (fun _ => reads_typeArguments fuel) fun _ => .pure rfl

theorem reads_auditSummary {carried : Nat} :
    Adds reading carried auditSummary fun _ => carried := by
  refine reads_bump_bind (fun token => ?_) fun token operator => ?_
  · cases token with
    | string value => exact .pure rfl
    | _ => exact reads_error _ _
  · cases token <;> first | exact ⟨_, rfl⟩ | cases operator

theorem reads_closureParams (fuel carried : Nat) :
    Adds reading carried (closureParams fuel) fun _ => carried := by
  refine .look_bind fun _ => .ite (fun _ => .pure rfl) fun _ => ?_
  refine .loop (fun _ => carried) (fun params => ?_) fuel []
  refine (reads_ident _).bind fun name => (reads_expect rfl _).bind fun _ => ?_
  refine (reads_ty fuel).bind fun _ => .look_bind fun _ => .ite (fun _ => .pure rfl) fun _ => ?_
  refine (reads_expect rfl _).bind fun _ => .look_bind fun _ => ?_
  exact .ite (fun _ => reads_error _ _) fun _ => .pure rfl

theorem reads_byteElement {carried : Nat} : Adds reading carried byteElement fun _ => carried := by
  refine reads_bump_bind (fun token => ?_) fun token operator => ?_
  · cases token with
    | uint8 value => exact .pure rfl
    | _ => exact reads_error _ _
  · cases token <;> first | exact ⟨_, rfl⟩ | cases operator

theorem reads_byteArrayLiteral (fuel carried : Nat) : Adds reading carried (byteArrayLiteral fuel)
      fun expression => carried + expression.operatorNodes := by
  refine (reads_take rfl).bind fun _ => .ite (fun _ => .pure rfl) fun _ => ?_
  refine reads_byteElement.bind fun first => (reads_take rfl).bind fun _ => .ite (fun _ => ?_)
    fun _ => ?_
  · exact reads_fixedArrayCount.bind fun _ => (reads_expect rfl _).bind fun _ => .pure rfl
  · refine .bind (.loop (fun _ => carried) (fun values => ?_) fuel [first]) fun values =>
      (reads_expect rfl _).bind fun _ => .pure rfl
    refine (reads_take rfl).bind fun _ => .ite (fun _ => ?_) fun _ => .pure rfl
    refine .look_bind fun _ => .ite (fun _ => .pure rfl) fun _ => reads_byteElement.bind fun _ => ?_
    exact .ite (fun _ => reads_error _ _) fun _ => .pure rfl

theorem operatorNodes_of_expressionPath {expression : Expr} {path : String}
    (named : expressionPath expression = some path) : expression.operatorNodes = 0 := by
  induction expression using expressionPath.induct generalizing path with
  | case1 name => rfl
  | case2 base field ih =>
    unfold expressionPath at named
    obtain ⟨front, named, -⟩ := Option.map_eq_some_iff.mp named
    exact ih named
  | case3 expression noName noField =>
    cases expression with
    | var name => exact absurd rfl (noName name)
    | project base field => exact absurd rfl (noField base field)
    | _ => cases named

/-- Operators before an operand have been passed, and nothing else. -/
structure Chained (count : Nat) (before after : Parser) (passed : List Passed) : Prop where
  passes : Passes passed before after
  operator : ∀ token ∈ passed, token.reading = .prefixOperator
  length : passed.length = count

theorem Chained.operators_eq
    (chained : Chained count before after passed) : operators passed = count := by
  rw [← chained.length]
  refine List.countP_eq_length.mpr fun token member => ?_
  rw [chained.operator token member]
  rfl

theorem Chained.keeps (chained : Chained count before after passed) : Keeps passed := by
  refine List.isChain_iff_getElem.mpr fun index inside => ?_
  rintro ⟨sign, -⟩
  rw [chained.operator _ (List.getElem_mem _)] at sign
  cases sign

theorem Chained.reads
    (chained : Chained count before after passed) (ended : after.current ≠ .minus) :
    Reads count before after passed where
  ready := fun _ _ _ => ended
  passes := chained.passes
  atMost := chained.operators_eq.ge
  exactly := ⟨fun _ => chained.keeps, fun _ => chained.operators_eq.symm⟩

/-- **A chain that ends in a literal** builds nothing: its operators are dropped. -/
theorem Chained.reads_literal {middle : Parser}
    {magnitude : TokenKind} (chained : Chained count before middle passed)
    (plain : magnitude.isPlain = true)
    (rest : middle.rest = .minus :: magnitude :: after.rest)
    (behind : after.passed = ⟨magnitude, .plain⟩ :: ⟨.minus, .sign⟩ :: middle.passed) :
    Reads 0 before after (⟨magnitude, .plain⟩ :: ⟨.minus, .sign⟩ :: passed) := by
  have literal : Passes [⟨magnitude, .plain⟩, ⟨.minus, .sign⟩] middle after := by
    refine ⟨behind, rest, fun token member => ?_⟩
    rcases List.mem_pair.mp member with rfl | rfl
    · exact plain
    · exact rfl
  have counted : operators (⟨magnitude, .plain⟩ :: ⟨.minus, .sign⟩ :: passed) = count :=
    chained.operators_eq
  refine ⟨fun last isLast operator => ?_, chained.passes.trans literal, Nat.zero_le _, ?_⟩
  · rw [behind] at isLast
    cases isLast
    cases operator
  · rw [counted, ← chained.length]
    unfold Keeps
    rw [List.isChain_cons_cons]
    constructor
    · intro empty
      rw [List.length_eq_zero_iff.mp empty.symm]
      exact ⟨by simp, List.isChain_singleton _⟩
    · rintro ⟨-, apart⟩
      cases passed with
      | nil => rfl
      | cons latest earlier =>
        have operator := chained.operator latest List.mem_cons_self
        exact absurd ⟨rfl, operator⟩ (List.isChain_cons_cons.mp apart).1

def TokenKind.unaryOp (token : TokenKind) : UnaryOp := if token = .minus then .neg else .not

/-- The literal of a magnitude and its sign. -/
def TokenKind.minimum (magnitude : TokenKind) : Expr :=
  if magnitude = .intMinMagnitude then .int Int64.minValue else .int32 Int32.minValue

theorem TokenKind.isPlain_of_isSignedMinimum
    (magnitude : token.isSignedMinimum = true) : token.isPlain = true := by
  rcases of_decide_eq_true magnitude with rfl | rfl
  · rfl
  · rfl

/-- **One turn of a chain**: its literal, its end before an operand, or one more operator. -/
theorem unaryTurn_cases {turn : Turn (TokenKind × List UnaryOp) (Expr ⊕ List UnaryOp)}
    (ran : unaryTurn (token, ops) before = (.ok turn, after)) :
    (token = .minus ∧ ∃ magnitude : TokenKind, magnitude.isSignedMinimum = true ∧
        before.rest = magnitude :: after.rest ∧
        after.passed = ⟨magnitude, .plain⟩ :: before.passed ∧ turn = .done (.inl magnitude.minimum)) ∨
      ¬(token = .minus ∧ before.atSignedMinimum = true) ∧
        (before.current ≠ .minus ∧ before.current ≠ .bang ∧ after = before ∧
            turn = .done (.inr (ops ++ [token.unaryOp])) ∨
          ∃ next, (next = .minus ∨ next = .bang) ∧
            bumpAs Parser.prefixReading before = (.ok next, after) ∧
            turn = .again (next, ops ++ [token.unaryOp])) := by
  have negates : token.unaryOp = .neg ↔ token = .minus := by
    unfold TokenKind.unaryOp
    split_ifs with minus <;> simp [minus]
  change (if token.unaryOp = .neg ∧ before.atSignedMinimum = true then _ else _ : Parse _) before = _
    at ran
  by_cases folds : token.unaryOp = .neg ∧ before.atSignedMinimum = true
  · left
    rw [if_pos folds] at ran
    refine ⟨negates.mp folds.1, before.current, folds.2, ?_⟩
    obtain ⟨literal, middle, read, ended⟩ := run_bind_ok ran
    cases ended
    change (bump >>= fun _ => pure before.current.minimum : Parse Expr) before = _ at read
    obtain ⟨kind, passed, bumped, made⟩ := run_bind_ok read
    cases made
    obtain ⟨rfl, ⟨eof, -⟩ | ⟨rest, behind⟩⟩ := bumpAs_cases bumped
    · have magnitude := folds.2
      unfold Parser.atSignedMinimum at magnitude
      rw [eof] at magnitude
      cases magnitude
    · exact ⟨rest, behind, rfl⟩
  · right
    rw [if_neg folds] at ran
    refine ⟨fun both => folds ⟨negates.mpr both.1, both.2⟩, ?_⟩
    change (if before.current = .minus ∨ before.current = .bang then _ else _ : Parse _) before = _
      at ran
    by_cases more : before.current = .minus ∨ before.current = .bang
    · right
      rw [if_pos more] at ran
      obtain ⟨next, middle, bumped, again⟩ := run_bind_ok ran
      cases again
      obtain ⟨rfl, -⟩ := bumpAs_cases bumped
      exact ⟨_, more, bumped, rfl⟩
    · left
      rw [if_neg more] at ran
      cases ran
      exact ⟨fun minus => more (.inl minus), fun bang => more (.inr bang), rfl, rfl⟩

theorem prefixReading_of_rest
    (rest : before.rest = token :: after.rest) (operator : token = .minus ∨ token = .bang) :
    before.prefixReading =
      if token = .minus ∧ after.atSignedMinimum = true then .sign else .prefixOperator := by
  unfold Parser.prefixReading Parser.atSignedMinimum Parser.current
  rw [rest]
  rcases operator with rfl | rfl
  · cases after.rest with
    | nil => rfl
    | cons next tokens =>
      by_cases sign : next.isSignedMinimum = true
      · simp [sign]
      · simp [sign]
  · rw [if_neg (by simp)]

/-- The operators that are left to build at the end of a chain. -/
def chainNodes : Expr ⊕ List UnaryOp → Nat
  | .inl literal => literal.operatorNodes
  | .inr ops => ops.length

theorem TokenKind.minimum_operatorNodes (magnitude : TokenKind) :
    magnitude.minimum.operatorNodes = 0 := by
  unfold TokenKind.minimum
  split_ifs
  · rfl
  · rfl

/-- **A chain of operators**, of which some have been passed and one more is looked at. -/
theorem reads_chain {fuel : Nat} {token : TokenKind} {ops : List UnaryOp}
    {start before parser after : Parser} {passed : List Passed} {chain : Expr ⊕ List UnaryOp}
    (chained : Chained ops.length start before passed) (operator : token = .minus ∨ token = .bang)
    (bumped : bumpAs Parser.prefixReading before = (.ok token, parser))
    (ran : Prog.loop .exhausted unaryTurn fuel (token, ops) parser = (.ok chain, after)) :
    ∃ passed, Reads (chainNodes chain) start after passed := by
  induction fuel generalizing token ops before parser passed with
  | zero => cases ran
  | succ fuel ih =>
    obtain ⟨turn, between, turned, ran⟩ := run_bind_ok ran
    obtain ⟨-, ⟨rfl, -⟩ | ⟨rest, behind⟩⟩ := bumpAs_cases bumped
    · rcases operator with eof | eof
      · cases eof
      · cases eof
    rw [prefixReading_of_rest rest operator] at behind
    rcases unaryTurn_cases turned with
      ⟨rfl, magnitude, folds, ahead, literal, rfl⟩ | ⟨stays, more⟩
    · cases ran
      have sign : parser.atSignedMinimum = true := by
        unfold Parser.atSignedMinimum Parser.current
        rw [ahead]
        exact folds
      rw [if_pos ⟨rfl, sign⟩] at behind
      rw [behind] at literal
      rw [ahead] at rest
      refine ⟨⟨magnitude, .plain⟩ :: ⟨.minus, .sign⟩ :: passed, ?_⟩
      rw [chainNodes, magnitude.minimum_operatorNodes]
      exact chained.reads_literal (magnitude.isPlain_of_isSignedMinimum folds) rest literal
    · rw [if_neg stays] at behind
      have further : Chained (ops ++ [token.unaryOp]).length start parser
          (⟨token, .prefixOperator⟩ :: passed) := by
        have one : Passes [⟨token, .prefixOperator⟩] before parser :=
          ⟨behind, rest, fun other member => by rw [List.mem_singleton.mp member]; exact operator⟩
        refine ⟨chained.passes.trans one, fun other member => ?_, ?_⟩
        · rcases List.mem_cons.mp member with rfl | member
          · rfl
          · exact chained.operator other member
        · rw [List.length_cons, List.length_append, chained.length]
          rfl
      rcases more with ⟨ended, -, rfl, rfl⟩ | ⟨next, operator, bumped, rfl⟩
      · cases ran
        exact ⟨_, further.reads ended⟩
      · exact ih further operator bumped ran

theorem applyOperators_eq_ok {value : Expr}
    (ran : applyOperators ops value before = (.ok result, after)) :
    after = before ∧ result = ops.foldl (fun value op => .unary op value) value := by
  induction ops generalizing value with
  | nil =>
    cases ran
    exact ⟨rfl, rfl⟩
  | cons op ops ih =>
    unfold applyOperators at ran
    split_ifs at ran
    · cases ran
    · exact ih ran

theorem operatorNodes_foldl (ops : List UnaryOp) (value : Expr) :
    (ops.foldl (fun value op => .unary op value) value : Expr).operatorNodes =
      value.operatorNodes + ops.length := by
  induction ops generalizing value with
  | nil => rfl
  | cons op ops ih =>
    rw [List.foldl_cons, ih, Expr.operatorNodes, List.length_cons]
    omega

theorem prefixReading_of_operand (plain : parser.current.isPlain = true)
    (operand : parser.current ≠ .minus) : parser.prefixReading = .plain := by
  unfold Parser.current at plain operand
  unfold Parser.prefixReading
  split
  · rename_i rest
    rw [rest] at operand
    exact absurd rfl operand
  · rename_i rest
    rw [rest] at operand
    exact absurd rfl operand
  · rename_i rest
    rw [rest] at plain
    cases plain
  · rfl

theorem reads_operand {carried : Nat} {rest : Parse Expr}
    (follows : Adds reading carried rest fun expression => carried + expression.operatorNodes)
    (bumped : bumpAs Parser.prefixReading before = (.ok token, parser))
    (plain : token.isPlain = true) (operand : token ≠ .minus)
    (ran : rest parser = (.ok result, after)) :
    ∃ added, carried + result.operatorNodes = carried + added ∧
      reading.moves added before after := by
  have current := (bumpAs_cases bumped).1
  rw [current] at plain operand
  have bumped : bump before = (.ok token, parser) := by
    rw [← bumped]
    unfold bump bumpAs
    rw [prefixReading_of_operand plain operand]
  exact ((bump_from plain).bind fun _ => follows) result after ((run_bind bumped).trans ran)

section Levels

variable {below : Parsers} (sound : below.Sound) (fuel carried : Nat)

include sound

variable {parser : Parser}

theorem reads_callArguments :
    Adds reading carried (callArguments below fuel) fun args => carried + exprsNodes args := by
  refine .look_bind fun _ => .ite (fun _ => .pure rfl) fun _ => ?_
  refine .loop (fun args => carried + exprsNodes args) (fun args => ?_) fuel []
  have counted (value : Expr) : carried + exprsNodes (args ++ [value]) =
      carried + exprsNodes args + value.operatorNodes := by
    rw [exprsNodes_append, exprsNodes, exprsNodes, Nat.add_zero, Nat.add_assoc]
  exact (sound.expression _ 0 true).bind fun value => (reads_take rfl).bind fun _ =>
    .ite (fun _ => .pure (counted value)) fun _ => .pure (counted value)

theorem reads_fieldInitializers (description : String) :
    Adds reading carried (fieldInitializers below fuel description)
      fun fields => carried + fieldsNodes fields := by
  refine .loop (fun fields => carried + fieldsNodes fields) (fun fields => ?_) fuel []
  refine .look_bind fun _ => .ite (fun _ => .pure rfl) fun _ => (reads_ident _).bind fun name => ?_
  refine (reads_expect rfl _).bind fun _ => (sound.expression _ 0 true).bind fun value => ?_
  exact (reads_take rfl).bind fun _ => .ite (fun _ => .pure (fieldsNodes_concat carried _ _ _))
    fun _ => .pure (fieldsNodes_concat carried _ _ _)

theorem reads_recordReplacements : Adds reading carried (recordReplacements below fuel)
      fun fields => carried + fieldsNodes fields := by
  refine .loop (fun fields => carried + fieldsNodes fields) (fun fields => ?_) fuel []
  refine .look_bind fun _ => .ite (fun _ => .pure rfl) fun _ => (reads_ident _).bind fun name => ?_
  refine (reads_expect rfl _).bind fun _ => (sound.expression _ 0 true).bind fun value => ?_
  exact (reads_take rfl).bind fun _ => .ite (fun _ => .pure (fieldsNodes_concat carried _ _ _))
    fun _ => .pure (fieldsNodes_concat carried _ _ _)

theorem reads_recordInitializers : Adds reading carried (recordInitializers below fuel)
      fun fields => carried + fieldsNodes fields := by
  refine .loop (fun fields => carried + fieldsNodes fields) (fun fields => ?_) fuel []
  refine .look_bind fun _ => .ite (fun _ => .pure rfl) fun _ => (reads_ident _).bind fun name => ?_
  refine @Adds.bind _ _ _ _ _ _ _
    (fun value => carried + fieldsNodes fields + value.operatorNodes) _ _ ?_ fun value => ?_
  · exact (reads_take rfl).bind fun _ =>
      .ite (fun _ => sound.expression _ 0 true) fun _ => .pure rfl
  · exact (reads_take rfl).bind fun _ => .ite (fun _ => .pure (fieldsNodes_concat carried _ _ _))
      fun _ => .pure (fieldsNodes_concat carried _ _ _)

theorem reads_dotSuffix (expression : Expr) :
    Adds reading (carried + expression.operatorNodes) (dotSuffix below fuel expression)
      fun result => carried + result.operatorNodes := by
  refine (reads_ident _).bind fun field => .look_bind fun parser => ?_
  refine @Adds.bind _ _ _ _ _ _ _ (fun _ => carried + expression.operatorNodes) _ _ ?_
    fun arguments => (reads_take rfl).bind fun _ => .ite (fun _ => ?_) fun _ => ?_
  · exact .ite (fun _ => reads_typeArguments fuel) fun _ => .pure rfl
  · refine (reads_callArguments sound fuel _).bind fun args => (reads_expect rfl _).bind fun _ => ?_
    split
    · exact .pure rfl
    · exact .pure (Nat.add_assoc _ _ _).symm
  · exact .ite (fun _ => reads_error _ _) fun _ => .pure rfl

theorem reads_variantConstruction (typeArguments : List Ty) (expression : Expr) :
    Adds reading (carried + expression.operatorNodes)
      (variantConstruction below fuel typeArguments expression)
      fun result => carried + result.operatorNodes := by
  unfold variantConstruction
  split
  · refine (reads_ident _).bind fun caseName => (reads_expect rfl _).bind fun _ => ?_
    refine (reads_fieldInitializers sound fuel _ _).bind fun fields => ?_
    exact (reads_expect rfl _).bind fun _ => .pure rfl
  · exact reads_error _ _

theorem reads_functionCall (typeArguments : List Ty) (expression : Expr) :
    Adds reading (carried + expression.operatorNodes)
      (functionCall below fuel typeArguments expression)
      fun result => carried + result.operatorNodes := by
  unfold functionCall
  split
  · refine (reads_callArguments sound fuel _).bind fun args => ?_
    exact (reads_expect rfl _).bind fun _ => .pure rfl
  · exact reads_error _ _

theorem reads_postfixTurn (allowRecordLiterals : Bool) (expression : Expr) :
    Adds reading (carried + expression.operatorNodes)
      (postfixTurn below fuel allowRecordLiterals expression)
      (Turn.count (fun result => carried + result.operatorNodes)
        fun result => carried + result.operatorNodes) := by
  refine (reads_genericArguments fuel _ _ _).bind fun typeArguments => ?_
  refine (reads_take rfl).bind fun _ => .ite (fun _ => ?_) fun _ => ?_
  · exact (reads_variantConstruction sound fuel _ _ _).bind fun _ => .pure rfl
  refine .get_bind fun parser => .ite (fun word => ?_) fun _ => .ite (fun brace => ?_) fun _ => ?_
  · refine (bump_from (parser.isPlain_of_atKeyword word)).bind fun _ => ?_
    refine (reads_expect rfl _).bind fun _ => ?_
    refine (reads_recordReplacements sound fuel _).bind fun fields => ?_
    exact (reads_expect rfl _).bind fun _ => .pure (Nat.add_assoc _ _ _).symm
  · split
    · exact Adds.pure rfl parser
    · rename_i typeName named
      rw [operatorNodes_of_expressionPath named]
      refine (bump_from (by rw [brace.2]; rfl)).bind fun _ => ?_
      refine (reads_recordInitializers sound fuel _).bind fun fields => ?_
      exact (reads_expect rfl _).bind fun _ => .pure rfl
  · refine Adds.bind (reads_take rfl) (fun _ => .ite (fun _ => ?_) fun _ => ?_) parser
    · exact (reads_functionCall sound fuel _ _ _).bind fun _ => .pure rfl
    · refine (reads_take rfl).bind fun _ => .ite (fun _ => ?_) fun _ => ?_
      · exact (reads_dotSuffix sound fuel _ _).bind fun _ => .pure rfl
      · exact (reads_take rfl).bind fun _ => .ite (fun _ => .pure rfl) fun _ => .pure rfl

theorem reads_postfixExpression (allowRecordLiterals : Bool) (expression : Expr) :
    Adds reading (carried + expression.operatorNodes)
      (postfixExpression below fuel allowRecordLiterals expression)
      fun result => carried + result.operatorNodes :=
  .loop (fun result => carried + result.operatorNodes)
    (fun _ => reads_postfixTurn sound fuel carried _ _) fuel expression

theorem reads_block (description : String) : Adds reading carried (block below description)
      fun expression => carried + expression.operatorNodes :=
  .look_bind fun _ => .ite (fun _ => reads_error _ _) fun _ =>
    (reads_expect rfl _).bind fun _ => sound.block _

theorem reads_letStatement (plain : parser.current.isPlain = true) :
    AddsFrom reading parser carried (letStatement below fuel)
      fun statement => carried + statement.operatorNodes := by
  refine (bump_from plain).bind fun _ => ?_
  refine @Adds.bind _ _ _ _ _ _ _ (fun _ => carried) _ _ ?_ fun mutable => ?_
  · refine .get_bind fun parser => .ite (fun word => ?_) fun _ => Adds.pure rfl parser
    refine (bump_from (parser.isPlain_of_atKeyword word)).bind fun _ => ?_
    exact .look_bind fun _ => .ite (fun _ => reads_error _ _) fun _ => .pure rfl
  refine (reads_ident _).bind fun name => ?_
  refine @Adds.bind _ _ _ _ _ _ _ (fun _ => carried) _ _ ?_ fun declared => ?_
  · exact (reads_take rfl).bind fun _ =>
      .ite (fun _ => (reads_ty fuel).bind fun _ => .pure rfl) fun _ => .pure rfl
  refine (reads_expect rfl _).bind fun _ => (sound.expression _ 0 true).bind fun value => ?_
  exact (reads_expect rfl _).bind fun _ => .pure rfl

theorem reads_assignStatement : Adds reading carried (assignStatement below)
      fun statement => carried + statement.operatorNodes := by
  refine (reads_ident _).bind fun name => ?_
  refine @Adds.bind _ _ _ _ _ _ _ (fun _ => carried) _ _ ?_ fun field => ?_
  · refine (reads_take rfl).bind fun _ => .ite (fun _ => ?_) fun _ => .pure rfl
    exact (reads_ident _).bind fun _ =>
      .look_bind fun _ => .ite (fun _ => reads_error _ _) fun _ => .pure rfl
  refine (reads_expect rfl _).bind fun _ => (sound.expression _ 0 true).bind fun value => ?_
  exact (reads_expect rfl _).bind fun _ => .pure rfl

theorem reads_whileStatement : Adds reading carried (whileStatement below)
      fun statement => carried + statement.operatorNodes := by
  refine (reads_keyword _).bind fun _ => (sound.expression _ 0 false).bind fun condition => ?_
  exact (reads_block sound _ _).bind fun _ => .pure (Nat.add_assoc _ _ _).symm

theorem reads_unsafeStatement : Adds reading carried (unsafeStatement below)
      fun statement => carried + statement.operatorNodes := by
  refine (reads_take rfl).bind fun _ => .ite (fun _ => ?_) fun _ => reads_error _ _
  refine (reads_ident _).bind fun _ => .ite (fun _ => reads_error _ _) fun _ => ?_
  refine (reads_expect rfl _).bind fun _ => reads_auditSummary.bind fun audit => ?_
  refine (reads_expect rfl _).bind fun _ => .ite (fun _ => reads_error _ _) fun _ => ?_
  exact (reads_keyword _).bind fun _ => (reads_block sound _ _).bind fun _ => .pure rfl

theorem reads_forStatement : Adds reading carried (forStatement below)
      fun statement => carried + statement.operatorNodes := by
  refine (reads_keyword _).bind fun _ => ?_
  refine @Adds.bind _ _ _ _ _ _ _ (fun _ => carried) _ _ ?_ fun consuming => ?_
  · refine .get_bind fun parser => .ite (fun word => ?_) fun _ => Adds.pure rfl parser
    exact (bump_from (parser.isPlain_of_atKeyword word)).bind fun _ => .pure rfl
  refine (reads_ident _).bind fun item => (reads_keyword _).bind fun _ => ?_
  refine (sound.expression _ 0 false).mapStopIn.bind fun values => ?_
  exact (reads_block sound _ _).bind fun _ => .ite
    (fun _ => .pure (Nat.add_assoc _ _ _).symm) fun _ => .pure (Nat.add_assoc _ _ _).symm

theorem reads_statementTurn (statements : List Statement) :
    Adds reading (carried + statementsNodes statements) (statementTurn below fuel statements)
      (Turn.count (fun statements => carried + statementsNodes statements)
        fun statements => carried + statementsNodes statements) := by
  have counted (statement : Statement) : carried + statementsNodes (statements ++ [statement]) =
      carried + statementsNodes statements + statement.operatorNodes := by
    rw [statementsNodes_append, statementsNodes, statementsNodes, Nat.add_zero, Nat.add_assoc]
  refine .get_bind fun parser => .ite (fun word => ?_) fun _ => .ite (fun _ => ?_) fun _ =>
    .ite (fun _ => ?_) fun _ => .ite (fun _ => ?_) fun _ => .ite (fun _ => ?_) fun _ => ?_
  · refine (reads_letStatement sound fuel _ (parser.isPlain_of_atKeyword word)).bind fun _ => ?_
    exact .pure (counted _)
  · exact (reads_assignStatement sound _ parser).bind fun _ => .pure (counted _)
  · exact (reads_unsafeStatement sound _ parser).bind fun _ => .pure (counted _)
  · exact (reads_whileStatement sound _ parser).bind fun _ => .pure (counted _)
  · exact (reads_forStatement sound _ parser).bind fun _ => .pure (counted _)
  · exact Adds.pure rfl parser

theorem reads_blockAfterOpen : Adds reading carried (blockAfterOpen below fuel)
      fun expression => carried + expression.operatorNodes := by
  refine .bind (.loop (fun statements => carried + statementsNodes statements)
    (fun _ => reads_statementTurn sound fuel carried _) fuel []) fun statements => ?_
  refine .look_bind fun parser => .ite (fun _ => reads_error _ _) fun _ => ?_
  split
  · exact reads_error _ _
  · refine .ite (fun _ => reads_error _ _) fun _ => (sound.expression _ 0 true).bind fun tail => ?_
    refine (reads_take rfl).bind fun _ => .ite (fun _ => reads_error _ _) fun _ => ?_
    exact (reads_expect rfl _).bind fun _ => .pure (Nat.add_assoc _ _ _).symm

theorem reads_ifExpression : Adds reading carried (ifExpression below)
      fun expression => carried + expression.operatorNodes := by
  refine (sound.expression _ 0 false).bind fun condition => (reads_block sound _ _).bind fun _ => ?_
  refine (reads_keyword _).bind fun _ => (reads_block sound _ _).bind fun _ => .pure ?_
  rw [Expr.operatorNodes, Nat.add_assoc, Nat.add_assoc, Nat.add_assoc]

theorem reads_matchArmTurn (arms : List MatchArm) :
    Adds reading (carried + armsNodes arms) (matchArmTurn below fuel arms)
      (Turn.count (fun arms => carried + armsNodes arms) fun arms => carried + armsNodes arms) := by
  refine .look_bind fun _ => .ite (fun _ => .pure rfl) fun _ => .ite (fun _ => reads_error _ _)
    fun _ => (reads_matchPattern fuel).bind fun pattern => ?_
  have guarded : Adds reading (carried + armsNodes arms) (matchGuard below) fun guard =>
      carried + armsNodes arms + (guard.map Expr.operatorNodes).getD 0 := by
    refine .get_bind fun parser => .ite (fun word => ?_) fun _ => Adds.pure rfl parser
    refine (bump_from (parser.isPlain_of_atKeyword word)).bind fun _ => ?_
    exact (sound.expression _ 0 true).bind fun _ => .pure rfl
  refine guarded.bind fun guard => .look_bind fun _ => .ite (fun _ => reads_error _ _) fun _ => ?_
  refine (reads_expect rfl _).bind fun _ => (sound.expression _ 0 true).bind fun value => ?_
  refine (reads_expect rfl _).bind fun _ => .pure ?_
  show carried + armsNodes (arms ++ [_]) = _
  rw [armsNodes_append, armsNodes, armsNodes, Nat.add_zero]
  cases guard with
  | none => exact (Nat.add_assoc _ _ _).symm
  | some guard =>
    show carried + (armsNodes arms + (guard.operatorNodes + value.operatorNodes)) =
      carried + armsNodes arms + guard.operatorNodes + value.operatorNodes
    omega

theorem reads_matchExpression : Adds reading carried (matchExpression below fuel)
      fun expression => carried + expression.operatorNodes := by
  refine reads_contextualMatchMode.bind fun mode => ?_
  refine (sound.expression _ 0 false).bind fun scrutinee => (reads_expect rfl _).bind fun _ => ?_
  refine .bind (.loop (fun arms => carried + scrutinee.operatorNodes + armsNodes arms)
    (fun _ => reads_matchArmTurn sound fuel _ _) fuel []) fun arms => ?_
  exact (reads_expect rfl _).bind fun _ => .pure (Nat.add_assoc _ _ _).symm

theorem reads_closureExpression : Adds reading carried (closureExpression below fuel)
      fun expression => carried + expression.operatorNodes := by
  refine (reads_expect rfl _).bind fun _ => (reads_closureParams fuel _).bind fun params => ?_
  refine (reads_expect rfl _).bind fun _ => (reads_expect rfl _).bind fun _ => ?_
  exact (reads_ty fuel).bind fun _ => (reads_block sound _ _).bind fun _ => .pure rfl

theorem reads_identOrOwnClosure (value : String) :
    Adds reading carried (identOrOwnClosure below fuel value)
      fun expression => carried + expression.operatorNodes := by
  refine .look_bind fun _ => .ite (fun _ => ?_) fun _ => .pure rfl
  refine (reads_keyword _).bind fun _ => (reads_expect rfl _).bind fun _ => ?_
  refine .look_bind fun _ => .ite (fun _ => reads_error _ _) fun _ => ?_
  refine (reads_expect rfl _).bind fun _ => (reads_expect rfl _).bind fun _ => ?_
  exact (reads_ty fuel).bind fun _ => (reads_block sound _ _).bind fun _ => .pure rfl

theorem reads_parenthesized : Adds reading carried (parenthesized below)
      fun expression => carried + expression.operatorNodes :=
  (sound.expression _ 0 true).bind fun _ => .look_bind fun _ => .ite (fun _ => reads_error _ _)
    fun _ => (reads_expect rfl _).bind fun _ => .pure rfl

theorem reads_unaryExpression {allowRecordLiterals : Bool} {token : TokenKind}
    {before after : Parser} {result : Expr} (operator : token = .minus ∨ token = .bang)
    (bumped : bumpAs Parser.prefixReading before = (.ok token, parser))
    (ran : unaryExpression below fuel allowRecordLiterals token parser = (.ok result, after)) :
    reading.moves result.operatorNodes before after := by
  intro ready
  obtain ⟨chain, between, chained, ran⟩ := run_bind_ok ran
  obtain ⟨passed, reads⟩ := @reads_chain _ _ [] before _ _ _ [] _
    ⟨.refl before, List.forall_mem_nil _, rfl⟩ operator bumped chained
  cases chain with
  | inl literal =>
    cases ran
    exact ⟨passed, reads⟩
  | inr ops =>
    obtain ⟨value, middle, read, ran⟩ := run_bind_ok ran
    obtain ⟨rfl, rfl⟩ := applyOperators_eq_ok ran
    obtain ⟨added, counted, moved⟩ := sound.expression 0 7 allowRecordLiterals _ _ _ read
    obtain ⟨more, follows⟩ := moved reads.ready
    refine ⟨more ++ passed, ?_⟩
    have counted : value.operatorNodes = added := counted.trans (Nat.zero_add added) ▸
      (Nat.zero_add _).symm
    rw [operatorNodes_foldl, List.length_reverse, Nat.add_comm, counted]
    exact reads.trans follows

theorem reads_prefixAtom (allowRecordLiterals : Bool) :
    Adds reading carried (prefixAtom below fuel allowRecordLiterals)
      fun expression => carried + expression.operatorNodes := by
  intro before result after ran
  obtain ⟨token, parser, bumped, ran⟩ := run_bind_ok ran
  cases token with
  | minus => exact ⟨_, rfl, reads_unaryExpression sound fuel (.inl rfl) bumped ran⟩
  | bang => exact ⟨_, rfl, reads_unaryExpression sound fuel (.inr rfl) bumped ran⟩
  | int | int32 | char | uint8 | usize | string =>
    exact reads_operand (.pure rfl) bumped rfl (by simp) ran
  | float =>
    exact reads_operand (.ite (fun _ => .pure rfl) fun _ => .pure rfl) bumped rfl (by simp) ran
  | lBracket => exact reads_operand (reads_byteArrayLiteral fuel _) bumped rfl (by simp) ran
  | lParen => exact reads_operand (reads_parenthesized sound _) bumped rfl (by simp) ran
  | lBrace => exact reads_operand (sound.block _) bumped rfl (by simp) ran
  | ident value =>
    refine reads_operand (.ite (fun _ => .pure rfl) fun _ => .ite (fun _ => ?_) fun _ =>
      .ite (fun _ => ?_) fun _ => .ite (fun _ => ?_) fun _ => ?_) bumped rfl (by simp) ran
    · exact reads_closureExpression sound fuel _
    · exact reads_ifExpression sound _
    · exact reads_matchExpression sound fuel _
    · exact reads_identOrOwnClosure sound fuel _ _
  | _ => cases ran

theorem reads_prefixExpression (allowRecordLiterals : Bool) :
    Adds reading carried (prefixExpression below fuel allowRecordLiterals)
      fun expression => carried + expression.operatorNodes :=
  (reads_prefixAtom sound fuel carried _).bind fun _ =>
    reads_postfixExpression sound fuel carried _ _

theorem reads_binaryTurn (minimumPrecedence : Nat) (allowRecordLiterals : Bool) (left : Expr) :
    Adds reading (carried + left.operatorNodes)
      (binaryTurn below minimumPrecedence allowRecordLiterals left)
      (Turn.count (fun result => carried + result.operatorNodes)
        fun result => carried + result.operatorNodes) := by
  refine .get_bind fun parser => ?_
  cases operator : parser.current.binaryOp with
  | none => exact Adds.pure rfl parser
  | some op =>
    refine .ite (fun _ => Adds.pure rfl parser) fun _ => ?_
    refine @AddsFrom.bind _ _ _ _ _ _ _ _ (fun _ => carried + left.operatorNodes + 1) _ _ ?_
      fun _ => ?_
    · intro kind after bumped
      refine ⟨1, rfl, fun ready => ?_⟩
      obtain ⟨rfl, ⟨eof, -⟩ | ⟨rest, behind⟩⟩ := bumpAs_cases bumped
      · rw [eof] at operator
        cases operator
      · have fits : Passed.Fits ⟨parser.current, .infixOperator⟩ := by
          show parser.current.binaryOp.isSome = true
          rw [operator]
          rfl
        exact ⟨_, reads_one rest behind fits (by simp)⟩
    · refine (sound.expression _ _ _).bind fun right => .pure ?_
      show carried + (left.operatorNodes + right.operatorNodes + 1) = _
      omega

/-- **An expression**: what it builds, one level above. -/
theorem reads_expressionWithRecordLiterals (minimumPrecedence : Nat) (allowRecordLiterals : Bool) :
    Adds reading carried
      (expressionWithRecordLiterals below fuel minimumPrecedence allowRecordLiterals)
      fun expression => carried + expression.operatorNodes :=
  (reads_prefixExpression sound fuel carried _).bind fun left =>
    .loop (fun result => carried + result.operatorNodes)
      (fun _ => reads_binaryTurn sound carried _ _ _) fuel left

end Levels

/-- **Every level of the parser.** -/
theorem sound_parsers (fuel : Nat) : (parsers fuel).Sound := by
  induction fuel with
  | zero => exact ⟨fun _ _ _ => .stop _, fun _ => .stop _⟩
  | succ fuel ih =>
    exact ⟨fun carried _ _ => reads_expressionWithRecordLiterals ih fuel carried _ _,
      fun carried => reads_blockAfterOpen ih fuel carried⟩

end Semaprax.ExpressionParser
