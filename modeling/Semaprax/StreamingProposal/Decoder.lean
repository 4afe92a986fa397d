/-
**The streaming decoder of proposals** (`streaming_proposal_decode.rs`).

The bytes come in chunks. What is confirmed of them as UTF-8 goes through the scanner and the grammar,
byte by byte; what is cut off waits for the next chunk. Only `finish` decodes the whole document.

* `readFrom` — what is confirmed of a tail, read from a place on.
* `push`, `cancel`, `finish` — the calls; a terminal result is kept.
* `finalOutcome` — a fresh decoder that is given chunks and then finished.
-/

import Semaprax.Library.Utf8
import Semaprax.StreamingProposal.Grammar

namespace Semaprax.StreamingProposal

open Library
open LiveInvocation (Value quoteJson)
open InteractionSchema (TypeGraph DecodedInteractionValue Diagnostic utf8)

/-- A compiled schema, as far as decoding needs it. -/
structure CompiledInteractionSchema where
  graph : TypeGraph
  digest : String

namespace CompiledInteractionSchema

variable (schema : CompiledInteractionSchema)

/-- The envelope of a document, up to its value. -/
def streamEnvelopePrefix : String :=
  "\x7b\"schema\":" ++ quoteJson InteractionSchema.documentSchema ++ ",\"root_type_id\":" ++
    quoteJson schema.graph.rootTypeId ++ ",\"schema_digest\":" ++ quoteJson schema.digest ++
    ",\"value\":"

def streamGrammar : Grammar := lower schema.graph schema.streamEnvelopePrefix

def decode (parse : String → Option Value) (source : List UInt8) :
    Except Diagnostic DecodedInteractionValue :=
  InteractionSchema.decode schema.graph parse schema.digest source

end CompiledInteractionSchema

/-- The result of a call. -/
inductive PushOutcome
  | incomplete
  | accepted (value : DecodedInteractionValue)
  | refused (refusal : StreamRefusal)

/-- A result that is kept. -/
inductive TerminalResult
  | accepted (value : DecodedInteractionValue)
  | refused (refusal : StreamRefusal)

def TerminalResult.outcome : TerminalResult → PushOutcome
  | .accepted value => .accepted value
  | .refused refusal => .refused refusal

/-- Where the scanner and the grammar stand. -/
structure Reading where
  scan : Scanner
  grammar : GrammarState

structure ProposalStreamDecoder where
  schema : CompiledInteractionSchema
  buffer : List UInt8
  confirmedLen : Nat
  reading : Reading
  terminal : Option TerminalResult

def Reading.new (schema : CompiledInteractionSchema) : Reading :=
  ⟨Scanner.new, GrammarState.new schema.streamGrammar⟩

section Reading

variable (parse : String → Option Value)

/-- One byte, through the scanner and the grammar. -/
def Reading.step (reading : Reading) (byte : UInt8) (atByte : Nat) :
    Except StreamRefusal Reading := do
  let scan ← reading.scan.step byte atByte
  let grammar ← reading.grammar.step parse byte atByte
  pure ⟨scan, grammar⟩

def Reading.feed : Reading → Nat → List UInt8 → Except StreamRefusal Reading
  | reading, _, [] => .ok reading
  | reading, base, byte :: bytes => do
      let reading ← reading.step parse byte base
      reading.feed (base + 1) bytes

/-- The whole characters of a tail, from a place on; then the place where they end. -/
def readFrom (reading : Reading) (base : Nat) (tail : List UInt8) :
    Except StreamRefusal (Reading × Nat) := do
  let reading ← reading.feed parse base (confirm tail).1
  let confirmedLen := base + (confirm tail).1.length
  if (confirm tail).2 then .error ⟨.utf8, "invalid UTF-8 byte sequence", confirmedLen⟩
  else pure (reading, confirmedLen)

end Reading

namespace ProposalStreamDecoder

def new (schema : CompiledInteractionSchema) : ProposalStreamDecoder where
  schema := schema
  buffer := []
  confirmedLen := 0
  reading := .new schema
  terminal := none

def finalize (decoder : ProposalStreamDecoder) (terminal : TerminalResult) :
    PushOutcome × ProposalStreamDecoder :=
  (terminal.outcome, { decoder with terminal := some terminal })

def bytesRefusal (atByte : Nat) : StreamRefusal :=
  ⟨.bytes, "streamed document exceeded the 65536-byte bound", atByte⟩

section Calls

variable (parse : String → Option Value) (decoder : ProposalStreamDecoder)

/-- The next chunk. After a refusal the scanner and the grammar are not looked at again, and where
they were stopped is left out. -/
def push (chunk : List UInt8) : PushOutcome × ProposalStreamDecoder :=
  match decoder.terminal with
  | some terminal => (terminal.outcome, decoder)
  | none =>
    if chunk.isEmpty then (.incomplete, decoder)
    else if decoder.buffer.length + chunk.length > maxStreamBytes then
      decoder.finalize (.refused (bytesRefusal decoder.buffer.length))
    else
      let buffer := decoder.buffer ++ chunk
      let extended := { decoder with buffer }
      match readFrom parse decoder.reading decoder.confirmedLen
          (buffer.drop decoder.confirmedLen) with
      | .error refusal => extended.finalize (.refused refusal)
      | .ok (reading, confirmedLen) => (.incomplete, { extended with reading, confirmedLen })

/-- The caller gives up. -/
def cancel (reason : String) : PushOutcome × ProposalStreamDecoder :=
  match decoder.terminal with
  | some terminal => (terminal.outcome, decoder)
  | none => decoder.finalize (.refused ⟨.cancelled, reason, decoder.buffer.length⟩)

/-- No more bytes are coming. -/
def finish : PushOutcome × ProposalStreamDecoder :=
  match decoder.terminal with
  | some terminal => (terminal.outcome, decoder)
  | none =>
    if decoder.reading.scan.terminated then
      match decoder.schema.decode parse decoder.buffer with
      | .ok value => decoder.finalize (.accepted value)
      | .error diagnostic => decoder.finalize (.refused
          ⟨.semantic, diagnostic.code ++ ": " ++ diagnostic.message, decoder.buffer.length⟩)
    else
      decoder.finalize (.refused ⟨.truncated,
        "the stream ended before the document reached its terminating newline",
        decoder.buffer.length⟩)

def pushAll (chunks : List (List UInt8)) : ProposalStreamDecoder :=
  chunks.foldl (fun decoder chunk => (decoder.push parse chunk).2) decoder

end Calls

/-- A call of a decoder. -/
inductive Call
  | push (chunk : List UInt8)
  | cancel (reason : String)
  | finish

def call (parse : String → Option Value) (decoder : ProposalStreamDecoder) :
    Call → PushOutcome × ProposalStreamDecoder
  | .push chunk => decoder.push parse chunk
  | .cancel reason => decoder.cancel reason
  | .finish => decoder.finish parse

def outcomes (parse : String → Option Value) : ProposalStreamDecoder → List Call → List PushOutcome
  | _, [] => []
  | decoder, next :: calls =>
    (decoder.call parse next).1 :: outcomes parse (decoder.call parse next).2 calls

/-- What comes of chunks that are pushed to a fresh decoder, which is finished then. -/
def finalOutcome (parse : String → Option Value) (schema : CompiledInteractionSchema)
    (chunks : List (List UInt8)) : PushOutcome :=
  (((new schema).pushAll parse chunks).finish parse).1

end ProposalStreamDecoder

end Semaprax.StreamingProposal
