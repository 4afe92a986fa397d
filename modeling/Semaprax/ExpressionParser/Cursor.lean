/-
**The cursor of the parser** (`parser.rs`, `parser/types.rs`, `parser/lookahead.rs`).

The parser stands before a token: the tokens before it have been passed, the others are the rest. A
token is passed with the reading that the grammar gives it. The readings are a record of the run:
nothing looks at them.

* `Parser`, `bumpAs`, `expect`, `ident`, … — the cursor and its steps.
* `ty`, `typeArguments` — types.
* `looksLikeGenericQualifier` — the look ahead at a list of types.

The end of the tokens stands for the token `eof`. A diagnostic is its code and its message, and a
recursion that is too deep for its fuel is `exhausted`.
-/

import Semaprax.Library.Gradings
import Semaprax.ExpressionParser.Syntax

namespace Semaprax.ExpressionParser

open Library

/-- How the grammar reads a token. -/
inductive Reading
  | prefixOperator
  | infixOperator
  /-- The minus of a literal. -/
  | sign
  | plain
deriving DecidableEq

structure Passed where
  kind : TokenKind
  reading : Reading
deriving DecidableEq

structure Parser where
  /-- The last token comes first. -/
  passed : List Passed
  rest : List TokenKind
deriving DecidableEq

def Parser.new (tokens : List TokenKind) : Parser := ⟨[], tokens⟩

structure Diagnostic where
  code : String
  message : String
deriving DecidableEq

inductive Failure
  | diagnostic (diagnostic : Diagnostic)
  | exhausted
deriving DecidableEq

abbrev Parse (A : Type) : Type := Prog Parser Failure A

/-- A refusal (`error_here`, `error_previous`). -/
def error {A : Type} (code message : String) : Parse A := Prog.stop (.diagnostic ⟨code, message⟩)

def Parser.current (parser : Parser) : TokenKind := parser.rest.headD .eof

/-- The token so far after the cursor (`tokens.get`). -/
def Parser.ahead (parser : Parser) (offset : Nat) : Option TokenKind := parser.rest[offset]?

def Parser.atKeyword (parser : Parser) (expected : String) : Bool :=
  parser.current = .ident expected

/-- The cursor passes a token, but not the last one. -/
def bumpAs (reading : Parser → Reading) : Parse TokenKind := fun parser =>
  match parser.rest with
  | [] | .eof :: _ => (.ok .eof, parser)
  | kind :: rest => (.ok kind, ⟨⟨kind, reading parser⟩ :: parser.passed, rest⟩)

def bump : Parse TokenKind := bumpAs fun _ => .plain

def expect (expected : TokenKind) (description : String) : Parse Unit := do
  let parser ← Prog.get
  if parser.current = expected then
    let _ ← bump
    pure ()
  else error "SPX-P106" ("expected " ++ description)

def take (expected : TokenKind) : Parse Bool := do
  let parser ← Prog.get
  if parser.current = expected then
    let _ ← bump
    pure true
  else pure false

def keyword (expected : String) : Parse Unit := do
  let parser ← Prog.get
  if parser.atKeyword expected then
    let _ ← bump
    pure ()
  else error "SPX-P104" ("expected " ++ "`" ++ expected ++ "`")

def ident (description : String) : Parse String := do
  let token ← bump
  match token with
  | .ident value => pure value
  | _ => error "SPX-P105" ("expected " ++ description)

def qualifiedIdent (fuel : Nat) (description : String) : Parse String := do
  let value ← ident description
  Prog.loop .exhausted (fun value => do
    if ← take .dot then
      let part ← ident description
      pure (.again (value ++ "." ++ part))
    else pure (.done value)) fuel value

def fixedArrayCount : Parse UInt32 := do
  let token ← bump
  match token with
  | .int value =>
    if 0 ≤ value.toInt ∧ value.toInt ≤ 65536 then pure (UInt32.ofNat value.toInt.toNat)
    else error "SPX-T261" "fixed byte-array length must be a decimal constant in 0..=65536"
  | _ => error "SPX-T261" "fixed byte-array length must be a decimal constant in 0..=65536"

/-- A list of types in brackets, each read by `ty`. -/
def typeArgumentsWith (ty : Parse Ty) (fuel : Nat) : Parse (List Ty) := do
  if ← take .lt then
    if (← Prog.get).current = .gt then error "SPX-P106" "generic argument list cannot be empty"
    else
      let arguments ← Prog.loop .exhausted (fun arguments => do
        if (← Prog.get).current = .comma then error "SPX-P106" "expected generic type argument"
        else
          let arguments := arguments ++ [← ty]
          if (← Prog.get).current = .gt then pure (.done arguments)
          else if ¬ (← take .comma) ∨ (← Prog.get).current = .gt then
            error "SPX-P106"
              "generic type arguments require comma-separated types without a trailing comma"
          else pure (.again arguments)) fuel []
      expect .gt "`>` after generic type arguments"
      pure arguments
  else pure []

/-- The types in the brackets of a function type. -/
def functionParameters (ty : Parse Ty) (fuel : Nat) : Parse (List Ty) := do
  if (← Prog.get).current = .rParen then pure []
  else
    Prog.loop .exhausted (fun parameters => do
      let parameters := parameters ++ [← ty]
      if (← Prog.get).current = .rParen then pure (.done parameters)
      else if ¬ (← take .comma) ∨ (← Prog.get).current = .rParen then
        error "SPX-P106"
          "function parameters require comma-separated types without a trailing comma"
      else pure (.again parameters)) fuel []

def namedType (typeArguments : Parse (List Ty)) (fuel : Nat) : Parse Ty := do
  let name ← qualifiedIdent fuel "type"
  if name = "Slice" then
    expect .lt "`<` after `Slice`"
    let element ← qualifiedIdent fuel "slice element type"
    if element = "u8" then
      expect .gt "`>` after `Slice<u8`"
      pure .sliceU8
    else error "SPX-T268" "Portable Indexed Byte Data v1 admits only `Slice<u8>`"
  else
    let primitive : Option Ty := match name with
      | "i64" => some .i64
      | "i32" => some .i32
      | "u8" => some .u8
      | "usize" => some .usize
      | "char" => some .char
      | "f32" => some .f32
      | "f64" => some .f64
      | "bool" => some .bool
      | "string" => some .string
      | "Bytes" => some .bytes
      | "str" => some .str
      | _ => none
    match primitive with
    | some primitive =>
      if (← Prog.get).current = .lt then
        error "SPX-P106" ("primitive type " ++ "`" ++ name ++ "` does not accept generic arguments")
      else pure primitive
    | none => pure (.named name (← typeArguments))

def ty : Nat → Parse Ty
  | 0 => Prog.stop .exhausted
  | fuel + 1 => do
      let parser ← Prog.get
      if parser.current = .lParen ∧ parser.ahead 1 = some .rParen then
        error "SPX-P105" "expected type"
      else if parser.atKeyword "fn" then
        let _ ← bump
        expect .lParen "`(` after `fn` in function type"
        let parameters ← functionParameters (ty fuel) fuel
        expect .rParen "`)` after function type parameters"
        expect .arrow "`->` after function type parameters"
        pure (.function parameters (← ty fuel))
      else if ← take .lBracket then
        let element ← qualifiedIdent fuel "fixed-array element type"
        if element = "u8" then
          expect .semicolon "`;` after fixed-array element type"
          let length ← fixedArrayCount
          expect .rBracket "`]` after fixed-array length"
          pure (.arrayU8 length)
        else
          error "SPX-T268" "Portable Indexed Byte Data v1 admits only fixed `[u8; N]` arrays"
      else namedType (typeArgumentsWith (ty fuel) fuel) fuel

def typeArguments (fuel : Nat) : Parse (List Ty) := typeArgumentsWith (ty fuel) fuel

/-- The tokens after the names that follow dots (`generic_type_end`, its first loop). -/
def afterDots : List TokenKind → Option (List TokenKind)
  | .dot :: .ident _ :: tokens => afterDots tokens
  | .dot :: _ => none
  | tokens => some tokens

mutual

def genericTypeEnd : Nat → List TokenKind → Option (List TokenKind)
  | fuel + 1, .ident _ :: tokens =>
    match afterDots tokens with
    | some (.lt :: .gt :: _) => none
    | some (.lt :: tokens) => genericTypesEnd fuel tokens
    | ended => ended
  | _, _ => none

def genericTypesEnd : Nat → List TokenKind → Option (List TokenKind)
  | 0, _ => none
  | fuel + 1, tokens =>
    match genericTypeEnd fuel tokens with
    | some (.comma :: tokens) => genericTypesEnd fuel tokens
    | some (.gt :: tokens) => some tokens
    | _ => none

end

/-- Brackets with names, dots and commas between them, and the terminator behind. -/
def looksLikeMalformedGenericQualifier (terminator : TokenKind) (depth : Nat) :
    List TokenKind → Bool
  | .lt :: tokens => looksLikeMalformedGenericQualifier terminator (depth + 1) tokens
  | .gt :: tokens =>
    match depth with
    | 0 => false
    | 1 => tokens.head? = some terminator
    | depth + 2 => looksLikeMalformedGenericQualifier terminator (depth + 1) tokens
  | .ident _ :: tokens => looksLikeMalformedGenericQualifier terminator depth tokens
  | .dot :: tokens => looksLikeMalformedGenericQualifier terminator depth tokens
  | .comma :: tokens => looksLikeMalformedGenericQualifier terminator depth tokens
  | _ => false

def Parser.looksLikeGenericQualifier (parser : Parser) (terminator : TokenKind) : Bool :=
  match parser.rest with
  | .lt :: .gt :: _ => looksLikeMalformedGenericQualifier terminator 0 parser.rest
  | .lt :: tokens =>
    match genericTypesEnd (2 * tokens.length + 1) tokens with
    | some tokens => tokens.head? = some terminator
    | none => looksLikeMalformedGenericQualifier terminator 0 parser.rest
  | _ => false

end Semaprax.ExpressionParser
