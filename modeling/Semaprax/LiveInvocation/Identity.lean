/-
**Identities and digests of live invocations** (`live_invocation/identity.rs`).

Every digest is SHA-256 of a domain tag and the bytes, written in lowercase hexadecimal. The hash
itself is a parameter of the model.

* `digest` — the domain-separated digest.
* `LiveInvocationId.derive` — the identity that a seed names.
-/

import Semaprax.Library.Saturating

namespace Semaprax.LiveInvocation

open Library

/-- Raw bytes (`Vec<u8>`). -/
abbrev Bytes := List UInt8

/-- The bytes of a text (`as_bytes`). -/
def asBytes (text : String) : Bytes := text.toUTF8.toList

/-- A digit of a lowercase hexadecimal number. -/
def hexDigit (value : Nat) : Char := Nat.digitChar value

/-- Lowercase hexadecimal. -/
def hex (bytes : Bytes) : String :=
  String.ofList (bytes.flatMap fun byte => [hexDigit (byte.toNat / 16), hexDigit (byte.toNat % 16)])

/-- One character of a quoted text (`quote_json`). -/
def quoteCharacter (character : Char) : List Char :=
  if character = '"' then ['\\', '"']
  else if character = '\\' then ['\\', '\\']
  else if character = '\n' then ['\\', 'n']
  else if character = '\r' then ['\\', 'r']
  else if character = '\t' then ['\\', 't']
  else if character.toNat < 0x20 ∨ (0x7f ≤ character.toNat ∧ character.toNat ≤ 0x9f) then
    ['\\', 'u', '0', '0', hexDigit (character.toNat / 16), hexDigit (character.toNat % 16)]
  else [character]

/-- A text as a JSON string (`quote_json`). -/
def quoteJson (value : String) : String :=
  String.ofList ('"' :: value.toList.flatMap quoteCharacter ++ ['"'])

def digest (sha256 : Bytes → Bytes) (domain : String) (bytes : Bytes) : String :=
  "sha256:" ++ hex (sha256 (asBytes domain ++ bytes))

def looksLikeDigest (text : String) : Bool :=
  text.utf8ByteSize = "sha256:".utf8ByteSize + 64 && "sha256:".toList.isPrefixOf text.toList &&
    (text.toList.drop 7).all fun character =>
      ('0' ≤ character && character ≤ '9') || ('a' ≤ character && character ≤ 'f')

/-- The bytes an invocation is named from. -/
structure LiveInvocationSeed where
  programRoot : String
  deploymentPolicy : String
  task : Bytes
  budget : I64
  interactionSchemaDigest : String
  approvedProviders : List String
deriving DecidableEq

def LiveInvocationSeed.canonical (seed : LiveInvocationSeed) : String :=
  "\x7b\"schema\":\"semaprax.live-invocation.seed.v1\",\"program_root\":" ++
    quoteJson seed.programRoot ++ ",\"deployment_policy\":" ++ quoteJson seed.deploymentPolicy ++
    ",\"task\":" ++ quoteJson (hex seed.task) ++ ",\"budget\":" ++ toString seed.budget.val ++
    ",\"interaction_schema_digest\":" ++ quoteJson seed.interactionSchemaDigest ++
    ",\"approved_providers\":[" ++ ",".intercalate (seed.approvedProviders.map quoteJson) ++ "]\x7d"

structure LiveInvocationId where
  digest : String
deriving DecidableEq

/-- The identity that a seed names. -/
def LiveInvocationId.derive (sha256 : Bytes → Bytes) (seed : LiveInvocationSeed) :
    LiveInvocationId :=
  ⟨LiveInvocation.digest sha256 "semaprax.live-invocation.identity.v1\x00"
    (asBytes seed.canonical)⟩

end Semaprax.LiveInvocation
