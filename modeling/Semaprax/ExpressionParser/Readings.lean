/-
**How tokens are read.**

A step of the parser passes tokens. Those that are read as operators are counted, and no token that
could only be an operator is read as anything else. What is built has as many operator nodes as
operators were passed, exactly when no sign of a literal stands directly behind another operator.

* `operators`, `Keeps` — the count of what was passed, and that no sign is behind an operator.
* `reading` — the moves of the parser, graded by what is built.
* `reads_ident`, `reads_ty`, `reads_matchPattern`, … — names, types and patterns build no operator.
-/

import Semaprax.ExpressionParser.Expressions

namespace Semaprax.ExpressionParser

open Library

def Reading.isOperator : Reading → Bool
  | .prefixOperator | .infixOperator => true
  | .sign | .plain => false

/-- The token may be something else than an operator. -/
def TokenKind.isPlain : TokenKind → Bool
  | .plus | .star | .slash | .percent | .bang | .eqEq | .bangEq | .le | .ge | .andAnd | .orOr => false
  | _ => true

def Passed.Fits (token : Passed) : Prop :=
  match token.reading with
  | .prefixOperator => token.kind = .minus ∨ token.kind = .bang
  | .infixOperator => token.kind.binaryOp.isSome
  | .sign => token.kind = .minus
  | .plain => token.kind.isPlain

/-- The tokens that were read as operators. -/
def operators (passed : List Passed) : Nat := passed.countP fun token => token.reading.isOperator

/-- No sign of a literal was passed directly after an operator that stands before its operand. -/
def Keeps (passed : List Passed) : Prop :=
  passed.IsChain fun later earlier => ¬(later.reading = .sign ∧ earlier.reading = .prefixOperator)

/-- The tokens between two states. -/
structure Passes (passed : List Passed) (before after : Parser) : Prop where
  behind : after.passed = passed ++ before.passed
  ahead : before.rest = passed.reverse.map Passed.kind ++ after.rest
  fits : ∀ token ∈ passed, token.Fits

variable {first second : List Passed} {before middle after parser : Parser}

theorem Passes.refl (parser : Parser) : Passes [] parser parser :=
  ⟨rfl, rfl, List.forall_mem_nil _⟩

theorem Passes.trans (begins : Passes first before middle) (follows : Passes second middle after) :
    Passes (second ++ first) before after where
  behind := by rw [follows.behind, begins.behind, List.append_assoc]
  ahead := by
    rw [begins.ahead, follows.ahead, List.reverse_append, List.map_append, List.append_assoc]
  fits := fun token member => by
    rcases List.mem_append.mp member with member | member
    · exact follows.fits token member
    · exact begins.fits token member

/-- An operand may begin: no chain of operators is open before a minus. -/
def Parser.Ready (parser : Parser) : Prop :=
  ∀ last ∈ parser.passed.head?, last.reading = .prefixOperator → parser.current ≠ .minus

theorem keeps_append (begins : Passes first before middle) (follows : Passes second middle after)
    (ready : middle.Ready) : Keeps (second ++ first) ↔ Keeps second ∧ Keeps first := by
  unfold Keeps
  rw [List.isChain_append]
  refine ⟨fun both => ⟨both.1, both.2.1⟩, fun both => ⟨both.1, both.2, ?_⟩⟩
  rintro earliest isEarliest latest isLatest ⟨sign, operator⟩
  -- a sign is a minus, and the parser stood before it
  obtain ⟨front, rfl⟩ := List.getLast?_eq_some_iff.mp isEarliest
  have minus : earliest.kind = .minus := by
    have fits := follows.fits earliest (List.mem_append_right _ List.mem_cons_self)
    unfold Passed.Fits at fits
    rwa [sign] at fits
  have current : middle.current = .minus := by
    unfold Parser.current
    rw [follows.ahead, List.reverse_append]
    exact minus
  refine ready latest ?_ operator current
  rw [begins.behind]
  cases first with
  | nil => cases isLatest
  | cons token tokens => exact isLatest

/-- From a state where an operand may begin, the parser has come to another, and it has built so many
operator nodes. -/
structure Reads (built : Nat) (before after : Parser) (passed : List Passed) : Prop where
  ready : after.Ready
  passes : Passes passed before after
  atMost : built ≤ operators passed
  exactly : built = operators passed ↔ Keeps passed

theorem Reads.refl (ready : parser.Ready) : Reads 0 parser parser [] where
  ready := ready
  passes := .refl parser
  atMost := Nat.zero_le _
  exactly := ⟨fun _ => List.IsChain.nil, fun _ => rfl⟩

theorem operators_append (first second : List Passed) :
    operators (first ++ second) = operators first + operators second := List.countP_append

theorem Reads.trans {m n : Nat}
    (begins : Reads m before middle first) (follows : Reads n middle after second) :
    Reads (m + n) before after (second ++ first) where
  ready := follows.ready
  passes := begins.passes.trans follows.passes
  atMost := by
    have := begins.atMost
    have := follows.atMost
    rw [operators_append]
    omega
  exactly := by
    have := begins.atMost
    have := follows.atMost
    rw [keeps_append begins.passes follows.passes begins.ready, ← begins.exactly, ← follows.exactly,
      operators_append]
    omega

/-- **The moves of the parser**, from where an operand may begin. -/
def reading : Grading Parser where
  moves := fun built before after => before.Ready → ∃ passed, Reads built before after passed
  refl := fun _ ready => ⟨[], .refl ready⟩
  trans := fun begins follows ready => by
    obtain ⟨first, begins⟩ := begins ready
    obtain ⟨second, follows⟩ := follows begins.ready
    exact ⟨second ++ first, begins.trans follows⟩

theorem bumpAs_cases {readingOf : Parser → Reading} {kind : TokenKind}
    (ran : bumpAs readingOf before = (.ok kind, after)) :
    kind = before.current ∧
      (kind = .eof ∧ after = before ∨ before.rest = kind :: after.rest ∧
          after.passed = ⟨kind, readingOf before⟩ :: before.passed) := by
  unfold bumpAs at ran
  unfold Parser.current
  split at ran
  · rename_i ended
    cases ran
    rw [ended]
    exact ⟨rfl, .inl ⟨rfl, rfl⟩⟩
  · rename_i tokens ended
    cases ran
    rw [ended]
    exact ⟨rfl, .inl ⟨rfl, rfl⟩⟩
  · rename_i token tokens _ first
    cases ran
    rw [first]
    exact ⟨rfl, .inr ⟨rfl, rfl⟩⟩

theorem reads_one {before after : Parser} {token : Passed}
    (rest : before.rest = token.kind :: after.rest) (passed : after.passed = token :: before.passed)
    (fits : token.Fits) (closed : token.reading ≠ .prefixOperator) :
    Reads (operators [token]) before after [token] where
  ready := by
    intro last isLast operator
    rw [passed] at isLast
    cases isLast
    exact absurd operator closed
  passes := ⟨passed, rest, fun other member => by rwa [List.mem_singleton.mp member]⟩
  atMost := le_rfl
  exactly := ⟨fun _ => List.isChain_singleton _, fun _ => rfl⟩

theorem bump_from {carried : Nat} (plain : parser.current.isPlain) :
    AddsFrom reading parser carried bump fun _ => carried := by
  intro kind after ran
  refine ⟨0, rfl, fun ready => ?_⟩
  obtain ⟨rfl, ⟨-, rfl⟩ | ⟨rest, passed⟩⟩ := bumpAs_cases ran
  · exact ⟨[], .refl ready⟩
  · exact ⟨_, @reads_one _ _ ⟨parser.current, .plain⟩ rest passed plain (by simp)⟩

theorem reads_bump_bind {A : Type} {carried : Nat} {total : A → Nat} {rest : TokenKind → Parse A}
    (follows : ∀ token, Adds reading carried (rest token) total)
    (refuses : ∀ token, token.isPlain = false → ∃ failure, rest token = Prog.stop failure) :
    Adds reading carried (bump >>= rest) total := by
  intro parser
  cases plain : parser.current.isPlain with
  | true => exact (bump_from plain).bind follows
  | false =>
    intro value after ran
    obtain ⟨token, between, bumped, ran⟩ := run_bind_ok ran
    obtain ⟨rfl, -⟩ := bumpAs_cases bumped
    obtain ⟨failure, stops⟩ := refuses _ plain
    rw [stops] at ran
    cases ran

section Tokens

variable {carried : Nat}

variable {expected : TokenKind}

theorem reads_error {A : Type} {total : A → Nat} (code message : String) :
    Adds reading carried (error code message : Parse A) total := .stop _

theorem reads_expect (plain : expected.isPlain = true)
    (description : String) : Adds reading carried (expect expected description) fun _ => carried :=
  .get_bind fun parser => .ite
    (fun current => (bump_from (by rwa [current])).bind fun _ => .pure rfl)
    fun _ => reads_error _ _ parser

theorem reads_take (plain : expected.isPlain = true) :
    Adds reading carried (take expected) fun _ => carried :=
  .get_bind fun parser => .ite
    (fun current => (bump_from (by rwa [current])).bind fun _ => .pure rfl)
    fun _ => Adds.pure rfl parser

theorem Parser.isPlain_of_atKeyword {parser : Parser} {expected : String}
    (word : parser.atKeyword expected = true) : parser.current.isPlain = true := by
  unfold Parser.atKeyword at word
  rw [of_decide_eq_true word]
  rfl

theorem reads_keyword (expected : String) :
    Adds reading carried (keyword expected) fun _ => carried :=
  .get_bind fun parser => .ite
    (fun word => (bump_from (parser.isPlain_of_atKeyword word)).bind fun _ => .pure rfl)
    fun _ => reads_error _ _ parser

theorem reads_ident (description : String) :
    Adds reading carried (ident description) fun _ => carried := by
  refine reads_bump_bind (fun token => ?_) fun token operator => ?_
  · cases token with
    | ident value => exact .pure rfl
    | _ => exact reads_error _ _
  · cases token with
    | ident value => cases operator
    | _ => exact ⟨_, rfl⟩

theorem reads_qualifiedIdent (fuel : Nat) (description : String) :
    Adds reading carried (qualifiedIdent fuel description) fun _ => carried := by
  refine (reads_ident _).bind fun value => .loop (fun _ => carried) (fun value => ?_) fuel value
  exact (reads_take rfl).bind fun more => .ite
    (fun _ => (reads_ident _).bind fun part => .pure rfl) fun _ => .pure rfl

theorem reads_fixedArrayCount : Adds reading carried fixedArrayCount fun _ => carried := by
  refine reads_bump_bind (fun token => ?_) fun token operator => ?_
  · cases token with
    | int value => exact .ite (fun _ => .pure rfl) fun _ => reads_error _ _
    | _ => exact reads_error _ _
  · cases token with
    | int value => cases operator
    | _ => exact ⟨_, rfl⟩

variable {element : Parse Ty}

theorem reads_typeArgumentsWith (reads : Adds reading carried element fun _ => carried)
    (fuel : Nat) : Adds reading carried (typeArgumentsWith element fuel) fun _ => carried := by
  refine (reads_take rfl).bind fun opened => .ite (fun _ => ?_) fun _ => .pure rfl
  refine .look_bind fun _ => .ite (fun _ => reads_error _ _) fun _ => ?_
  refine .bind (.loop (fun _ => carried) (fun types => ?_) fuel []) fun types =>
    (reads_expect rfl _).bind fun _ => .pure rfl
  refine .look_bind fun _ => .ite (fun _ => reads_error _ _) fun _ => reads.bind fun _ => ?_
  refine .look_bind fun _ => .ite (fun _ => .pure rfl) fun _ => (reads_take rfl).bind fun _ => ?_
  exact .look_bind fun _ => .ite (fun _ => reads_error _ _) fun _ => .pure rfl

theorem reads_functionParameters (reads : Adds reading carried element fun _ => carried)
    (fuel : Nat) : Adds reading carried (functionParameters element fuel) fun _ => carried := by
  refine .look_bind fun _ => .ite (fun _ => .pure rfl) fun _ => ?_
  refine .loop (fun _ => carried) (fun types => reads.bind fun _ => ?_) fuel []
  refine .look_bind fun _ => .ite (fun _ => .pure rfl) fun _ => (reads_take rfl).bind fun _ => ?_
  exact .look_bind fun _ => .ite (fun _ => reads_error _ _) fun _ => .pure rfl

theorem reads_namedType {arguments : Parse (List Ty)}
    (reads : Adds reading carried arguments fun _ => carried) (fuel : Nat) :
    Adds reading carried (namedType arguments fuel) fun _ => carried := by
  refine (reads_qualifiedIdent fuel _).bind fun name => .ite (fun _ => ?_) fun _ => ?_
  · refine (reads_expect rfl _).bind fun _ => (reads_qualifiedIdent fuel _).bind fun element => ?_
    exact .ite (fun _ => (reads_expect rfl _).bind fun _ => .pure rfl) fun _ => reads_error _ _
  · dsimp only
    split
    · exact .look_bind fun _ => .ite (fun _ => reads_error _ _) fun _ => .pure rfl
    · exact reads.bind fun _ => .pure rfl

theorem reads_ty (fuel : Nat) : Adds reading carried (ty fuel) fun _ => carried := by
  induction fuel with
  | zero => exact .stop _
  | succ fuel ih =>
    unfold ty
    refine .get_bind fun parser => .ite (fun _ => reads_error _ _ parser) fun _ => ?_
    refine .ite (fun word => ?_) fun _ => ?_
    · refine (bump_from (parser.isPlain_of_atKeyword word)).bind fun _ => ?_
      refine (reads_expect rfl _).bind fun _ => (reads_functionParameters ih fuel).bind fun _ => ?_
      refine (reads_expect rfl _).bind fun _ => (reads_expect rfl _).bind fun _ => ?_
      exact ih.bind fun _ => .pure rfl
    · refine (reads_take rfl parser).bind fun opened => .ite (fun _ => ?_) fun _ => ?_
      · refine (reads_qualifiedIdent fuel _).bind fun element => .ite (fun _ => ?_) fun _ =>
          reads_error _ _
        refine (reads_expect rfl _).bind fun _ => reads_fixedArrayCount.bind fun _ => ?_
        exact (reads_expect rfl _).bind fun _ => .pure rfl
      · exact reads_namedType (reads_typeArgumentsWith ih fuel) fuel

theorem reads_typeArguments (fuel : Nat) :
    Adds reading carried (typeArguments fuel) fun _ => carried :=
  reads_typeArgumentsWith (reads_ty fuel) fuel

theorem reads_negated (value minimum : Int) :
    Adds reading carried (negated value minimum) fun _ => carried :=
  .ite (fun _ => reads_error _ _) fun _ => .pure rfl

theorem reads_negativeLiteral : Adds reading carried negativeLiteral fun _ => carried := by
  refine reads_bump_bind (fun token => ?_) fun token operator => ?_
  · cases token with
    | int value | int32 value => exact (reads_negated _ _).bind fun _ => .pure rfl
    | intMinMagnitude | int32MinMagnitude => exact .pure rfl
    | _ => exact reads_error _ _
  · cases token <;> first | exact ⟨_, rfl⟩ | cases operator

theorem reads_recordMatchPatternFields (fuel : Nat) :
    Adds reading carried (recordMatchPatternFields fuel) fun _ => carried := by
  induction fuel with
  | zero => exact .stop _
  | succ fuel ih =>
    unfold recordMatchPatternFields
    refine .loop (fun _ => carried) (fun fields => ?_) fuel []
    refine .look_bind fun _ => .ite (fun _ => .pure rfl) fun _ => (reads_ident _).bind fun name => ?_
    refine @Adds.bind _ _ _ _ _ _ _ (fun _ => carried) _ _ ?_ fun pattern =>
      (reads_take rfl).bind fun more => .ite (fun _ => .pure rfl) fun _ => .pure rfl
    refine (reads_take rfl).bind fun _ => .ite (fun _ => ?_) fun _ => .pure rfl
    refine (reads_ident _).bind fun patternName => .ite (fun _ => .pure rfl) fun _ => ?_
    refine (reads_take rfl).bind fun _ => .ite (fun _ => ?_) fun _ => .pure rfl
    exact ih.bind fun _ => (reads_expect rfl _).bind fun _ => .pure rfl

theorem reads_variantPatternFields (fuel : Nat) :
    Adds reading carried (variantPatternFields fuel) fun _ => carried := by
  refine .loop (fun _ => carried) (fun fields => ?_) fuel []
  refine .look_bind fun _ => .ite (fun _ => .pure rfl) fun _ => (reads_ident _).bind fun name => ?_
  have reads : Adds reading carried (do
      if ← take .colon then ident "variant pattern binding name" else pure name : Parse String)
      fun _ => carried :=
    (reads_take rfl).bind fun _ => .ite (fun _ => reads_ident _) fun _ => .pure rfl
  exact reads.bind fun _ => (reads_take rfl).bind fun more =>
    .ite (fun _ => .pure rfl) fun _ => .pure rfl

theorem reads_namedPattern (fuel : Nat) (name : String) :
    Adds reading carried (namedPattern fuel name) fun _ => carried := by
  refine (reads_take rfl).bind fun _ => .ite (fun _ => ?_) fun _ => ?_
  · refine (reads_recordMatchPatternFields fuel).bind fun _ => ?_
    exact (reads_expect rfl _).bind fun _ => .pure rfl
  · refine (reads_take rfl).bind fun _ => .ite (fun _ => ?_) fun _ => .pure rfl
    refine (reads_ident _).bind fun _ => (reads_expect rfl _).bind fun _ => ?_
    refine (reads_variantPatternFields fuel).bind fun _ => ?_
    exact (reads_expect rfl _).bind fun _ => .pure rfl

theorem reads_matchPatternAtom (fuel : Nat) :
    Adds reading carried (matchPatternAtom fuel) fun _ => carried := by
  refine (reads_take rfl).bind fun _ => .ite (fun _ => ?_) fun _ => ?_
  · exact reads_negativeLiteral.bind fun _ => .pure rfl
  · refine reads_bump_bind (fun token => ?_) fun token operator => ?_
    · cases token with
      | ident name =>
        refine .ite (fun _ => .pure rfl) fun _ => .ite (fun _ => .pure rfl) fun _ => ?_
        exact reads_namedPattern fuel name
      | int | int32 | uint8 | usize | char => exact .pure rfl
      | _ => exact .stop _
    · cases token <;> first | exact ⟨_, rfl⟩ | cases operator

theorem reads_matchPattern (fuel : Nat) :
    Adds reading carried (matchPattern fuel) fun _ => carried := by
  refine (reads_matchPatternAtom fuel).bind fun first => (reads_take rfl).bind fun _ =>
    .ite (fun _ => ?_) fun _ => .pure rfl
  refine .loop (fun _ => carried) (fun alternatives => ?_) fuel [first]
  exact (reads_matchPatternAtom fuel).bind fun _ => (reads_take rfl).bind fun _ =>
    .ite (fun _ => .pure rfl) fun _ => .pure rfl

theorem reads_contextualMatchMode : Adds reading carried contextualMatchMode fun _ => carried := by
  refine .get_bind fun parser => ?_
  dsimp only
  split
  · exact Adds.pure rfl parser
  · rename_i mode candidate
    refine .ite (fun _ => Adds.pure rfl parser) fun _ => ?_
    have plain : parser.current.isPlain = true := by
      split_ifs at candidate with own borrow
      · exact parser.isPlain_of_atKeyword own
      · exact parser.isPlain_of_atKeyword borrow
    refine (bump_from plain).bind fun _ => .look_bind fun _ => ?_
    exact .ite (fun _ => reads_error _ _) fun _ => .pure rfl

end Tokens

end Semaprax.ExpressionParser
