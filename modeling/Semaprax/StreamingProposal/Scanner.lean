/-
**The structural scanner of a streamed document** (`streaming_proposal_decode.rs`).

The scanner takes one byte after the other. It knows strings, brackets and the one newline at the end,
and refuses the first byte that breaks a rule, with the place where it stands.

* `StreamRefusal` — a stable reason, a text and a place.
* `Scanner.step` — one byte.
-/

import Mathlib

namespace Semaprax.StreamingProposal

/-- The most bytes that are buffered. -/
def maxStreamBytes : Nat := 65536

/-- The deepest nesting of brackets. -/
def maxStreamDepth : Nat := 64

/-- The most strings of a document. -/
def maxStreamStringTokens : Nat := 8192

/-- The stable reasons of a refusal. -/
inductive StreamCode
  | start
  | whitespace
  | string
  | bracket
  | utf8
  | depth
  | tokens
  | bytes
  | trailing
  | truncated
  | cancelled
  | semantic
  | schemaPrefix
  | grammar
  deriving DecidableEq

def StreamCode.text : StreamCode → String
  | .start => "STREAM-START"
  | .whitespace => "STREAM-WHITESPACE"
  | .string => "STREAM-STRING"
  | .bracket => "STREAM-BRACKET"
  | .utf8 => "STREAM-UTF8"
  | .depth => "STREAM-DEPTH"
  | .tokens => "STREAM-TOKENS"
  | .bytes => "STREAM-BYTES"
  | .trailing => "STREAM-TRAILING"
  | .truncated => "STREAM-TRUNCATED"
  | .cancelled => "STREAM-CANCELLED"
  | .semantic => "STREAM-SEMANTIC"
  | .schemaPrefix => "STREAM-SCHEMA-PREFIX"
  | .grammar => "STREAM-GRAMMAR"

structure StreamRefusal where
  code : StreamCode
  message : String
  atByte : Nat
  deriving DecidableEq

/-- Where the scanner stands. The innermost bracket is the last of the stack. -/
structure Scanner where
  stack : List UInt8
  inString : Bool
  escaping : Bool
  unicodeRemaining : Nat
  started : Bool
  awaitingTerminalLf : Bool
  terminated : Bool
  stringTokens : Nat

namespace Scanner

def new : Scanner := ⟨[], false, false, 0, false, false, false, 0⟩

/-- The bytes of the marks. -/
def quote : UInt8 := 0x22
def backslash : UInt8 := 0x5c
def openBrace : UInt8 := 0x7b
def closeBrace : UInt8 := 0x7d
def openBracket : UInt8 := 0x5b
def closeBracket : UInt8 := 0x5d
def newline : UInt8 := 0x0a

/-- `is_ascii_hexdigit`. -/
def isHexDigit (byte : UInt8) : Bool :=
  (0x30 ≤ byte && byte ≤ 0x39) || (0x41 ≤ byte && byte ≤ 0x46) || (0x61 ≤ byte && byte ≤ 0x66)

/-- The bytes that may follow a backslash, but for `u`. -/
def escapes : List UInt8 := [quote, backslash, 0x2f, 0x62, 0x66, 0x6e, 0x72, 0x74]

def stepInString (scan : Scanner) (byte : UInt8) (atByte : Nat) : Except StreamRefusal Scanner :=
  if scan.unicodeRemaining > 0 then
    if isHexDigit byte then .ok
      { scan with unicodeRemaining := scan.unicodeRemaining - 1 }
    else .error ⟨.string, "invalid hex digit in a \\u escape", atByte⟩
  else if scan.escaping then
    if byte ∈ escapes then .ok
      { scan with escaping := false }
    else if byte = 0x75 then .ok
      { scan with escaping := false, unicodeRemaining := 4 }
    else .error ⟨.string, "unknown escape character", atByte⟩
  else if byte = quote then .ok
    { scan with inString := false }
  else if byte = backslash then .ok
    { scan with escaping := true }
  else if byte ≤ 0x1f then .error ⟨.string, "raw control byte inside a string literal", atByte⟩
  else .ok scan

def stepOutside (scan : Scanner) (byte : UInt8) (atByte : Nat) : Except StreamRefusal Scanner :=
  if byte = quote then
    if scan.stringTokens + 1 > maxStreamStringTokens then
      .error ⟨.tokens, "streamed document exceeded 8192 string-literal tokens", atByte⟩
    else .ok
      { scan with inString := true, stringTokens := scan.stringTokens + 1 }
  else if byte = openBrace ∨ byte = openBracket then
    let stack := scan.stack ++ [if byte = openBrace then closeBrace else closeBracket]
    if stack.length > maxStreamDepth then
      .error ⟨.depth, "streamed document exceeded 64 levels of nesting", atByte⟩
    else .ok
      { scan with stack }
  else if byte = closeBrace ∨ byte = closeBracket then
    if scan.stack.getLast? = some byte then .ok
      { scan with
        stack := scan.stack.dropLast
        awaitingTerminalLf := scan.stack.dropLast.isEmpty }
    else .error ⟨.bracket, "unexpected or mismatched closing bracket", atByte⟩
  else if byte ≤ 0x20 then
    .error ⟨.whitespace, "a canonical document carries no raw whitespace or control byte " ++
      "outside a string, other than its single terminal newline", atByte⟩
  else .ok scan

def step (scan : Scanner) (byte : UInt8) (atByte : Nat) : Except StreamRefusal Scanner :=
  if scan.terminated then
    .error ⟨.trailing, "data followed the document's terminal newline", atByte⟩
  else if scan.awaitingTerminalLf then
    if byte = newline then .ok
      { scan with terminated := true }
    else
      .error ⟨.trailing, "the top-level value closed without being followed by a " ++
        "terminating newline", atByte⟩
  else if !scan.started then
    if byte = openBrace then .ok
      { scan with started := true, stack := scan.stack ++ [closeBrace] }
    else .error ⟨.start, "a streamed Proposal document must open with '\x7b'", atByte⟩
  else if scan.inString then scan.stepInString byte atByte
  else scan.stepOutside byte atByte

end Scanner

end Semaprax.StreamingProposal
