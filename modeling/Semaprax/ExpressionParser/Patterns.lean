/-
**Patterns of a match** (`parser/patterns.rs`).

* `matchPattern`, `matchPatternAtom` — a pattern. The minus of a number is not an operator.
* `contextualMatchMode` — the ownership mode of a match.
-/

import Semaprax.ExpressionParser.Cursor

namespace Semaprax.ExpressionParser

open Library

/-- A number that a minus stands before (`negated`). -/
def negated (value minimum : Int) : Parse Int :=
  if -value < minimum then
    error "SPX-P206" "negative literal pattern is outside its integer range"
  else pure (-value)

def negativeLiteral : Parse PatternLiteral := do
  let token ← bump
  match token with
  | .int value => do pure (.int (Int64.ofInt (← negated value.toInt Int64.minValue.toInt)))
  | .int32 value => do pure (.int32 (Int32.ofInt (← negated value.toInt Int32.minValue.toInt)))
  | .intMinMagnitude => pure (.int Int64.minValue)
  | .int32MinMagnitude => pure (.int32 Int32.minValue)
  | .usize _ => error "SPX-T260" "usize literals cannot be negative"
  | _ => error "SPX-P206" ("`-` must precede an integer literal in a match pattern")

def recordMatchPatternFields : Nat → Parse (List RecordMatchPatternField)
  | 0 => Prog.stop .exhausted
  | fuel + 1 =>
    Prog.loop .exhausted (fun fields => do
      if (← Prog.get).current = .rBrace then pure (.done fields)
      else
        let name ← ident "record pattern field name"
        let pattern ← (do
          if ← take .colon then
            let patternName ← ident "record field pattern"
            if patternName = "_" then pure .wildcard
            else if ← take .lBrace then
              let nestedFields ← recordMatchPatternFields fuel
              expect .rBrace "`\x7d` after nested record pattern"
              pure (.record patternName nestedFields)
            else pure (.binding patternName)
          else pure (.binding name) : Parse RecordMatchFieldPattern)
        let fields := fields ++ [(name, pattern)]
        if ← take .comma then pure (.again fields) else pure (.done fields)) fuel []

def variantPatternFields (fuel : Nat) : Parse (List MatchPatternField) :=
  Prog.loop .exhausted (fun fields => do
    if (← Prog.get).current = .rBrace then pure (.done fields)
    else
      let name ← ident "variant pattern field name"
      let binding ← (do
        if ← take .colon then ident "variant pattern binding name" else pure name : Parse String)
      let fields := fields ++ [⟨name, binding⟩]
      if ← take .comma then pure (.again fields) else pure (.done fields)) fuel []

def namedPattern (fuel : Nat) (name : String) : Parse MatchPattern := do
  if ← take .lBrace then
    let fields ← recordMatchPatternFields fuel
    expect .rBrace "`\x7d` after record pattern"
    pure (.record name fields)
  else if ← take .colonColon then
    let caseName ← ident "variant case name in match pattern"
    expect .lBrace "`\x7b` after variant case pattern"
    let fields ← variantPatternFields fuel
    expect .rBrace "`\x7d` after variant pattern"
    pure (.variant name caseName fields)
  else pure (.binding name)

/-- The refusal of a magnitude that no minus claims (`out_of_range`). -/
def outOfRange {A : Type} (token : TokenKind) : Parse A :=
  error "SPX-P003" (if token = .int32MinMagnitude then "integer literal is outside the i32 range"
    else "integer literal is outside the i64 range")

def matchPatternAtom (fuel : Nat) : Parse MatchPattern := do
  if ← take .minus then pure (.literal (← negativeLiteral))
  else
    let token ← bump
    match token with
    | .ident name =>
      if name = "_" then pure .wildcard
      else if name = "true" ∨ name = "false" then pure (.literal (.bool (name = "true")))
      else namedPattern fuel name
    | .int value => pure (.literal (.int value))
    | .int32 value => pure (.literal (.int32 value))
    | .uint8 value => pure (.literal (.uint8 value))
    | .usize value => pure (.literal (.usize value))
    | .char value => pure (.literal (.char value))
    | .intMinMagnitude => outOfRange .intMinMagnitude
    | .int32MinMagnitude => outOfRange .int32MinMagnitude
    | _ => error "SPX-P206" ("match patterns admit `_`, bindings, aggregate patterns, and " ++
        "integer/char/bool literals")

def matchPattern (fuel : Nat) : Parse MatchPattern := do
  let first ← matchPatternAtom fuel
  if ← take .pipe then
    Prog.loop .exhausted (fun alternatives => do
      let alternatives := alternatives ++ [← matchPatternAtom fuel]
      if ← take .pipe then pure (.again alternatives)
      else pure (.done (.or alternatives))) fuel [first]
  else pure first

def Parser.nextTokenStartsUnambiguousMatchScrutinee (parser : Parser) : Bool :=
  match parser.ahead 1 with
  | some (.ident value) => value ≠ "with"
  | some (.int _) | some .intMinMagnitude | some (.int32 _) | some .int32MinMagnitude
  | some (.float _) | some (.char _) | some (.uint8 _) | some (.usize _) | some (.string _)
  | some .lBracket | some .minus | some .bang => true
  | _ => false

def contextualMatchMode : Parse MatchMode := do
  let parser ← Prog.get
  let candidate : Option MatchMode :=
    if parser.atKeyword "own" then some .own
    else if parser.atKeyword "borrow" then some .borrow
    else none
  match candidate with
  | none => pure .value
  | some mode =>
    if ¬ parser.nextTokenStartsUnambiguousMatchScrutinee then pure .value
    else
      let _ ← bump
      let parser ← Prog.get
      if parser.atKeyword "own" ∨ parser.atKeyword "borrow" then
        error "SPX-P207" ("a match expression accepts exactly one ownership mode: " ++
          "`own` or `borrow`")
      else pure mode

end Semaprax.ExpressionParser
