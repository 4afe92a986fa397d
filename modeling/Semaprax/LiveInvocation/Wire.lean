/-
**The wire form of the journal** (`live_invocation/journal.rs`).

`decode` takes a parsed JSON document and checks the shape of every entry: its closed keys, the format
of its digests and its place in the sequence. The order of the entries is left to `validate`.

* `decodeEntry` — one entry; `decode` — the whole array.
* `JournalEntry.encode` — the canonical text of an entry; `chain` — the digest that links them all.
-/

import Semaprax.LiveInvocation.Journal

namespace Semaprax.LiveInvocation

open Library

/-- A parsed JSON document. An integer is what its digits denote; a number with a fraction or an
exponent is kept apart, since it is read as no integer. -/
inductive Value
  | null
  | bool (value : Bool)
  | integer (value : Int)
  | float (digits : String)
  | string (value : String)
  | array (items : List Value)
  | object (entries : List (String × Value))

/-- The entries of an object. -/
abbrev Object := List (String × Value)

namespace Value

/-- `as_u64`. -/
def asU64 : Value → Option Nat
  | .integer value => if 0 ≤ value ∧ value < 2 ^ 64 then some value.toNat else none
  | _ => none

/-- `as_i64`. -/
def asI64 : Value → Option I64
  | .integer value =>
    if bounds : minI64 ≤ value ∧ value ≤ maxI64 then some ⟨value, bounds.1, bounds.2⟩ else none
  | _ => none

/-- `as_str`. -/
def asStr : Value → Option String
  | .string value => some value
  | _ => none

/-- `as_array`. -/
def asArray : Value → Option (List Value)
  | .array items => some items
  | _ => none

/-- `as_object`. -/
def asObject : Value → Option Object
  | .object entries => some entries
  | _ => none

end Value

def hexValue (digit : Char) : Option Nat :=
  if '0' ≤ digit ∧ digit ≤ '9' then some (digit.toNat - '0'.toNat)
  else if 'a' ≤ digit ∧ digit ≤ 'f' then some (digit.toNat - 'a'.toNat + 10)
  else none

/-- Decode pairs of lowercase hexadecimal digits. -/
def unhexDigits : List Char → Option Bytes
  | [] => some []
  | [_] => none
  | high :: low :: digits => do
      let high ← hexValue high
      let low ← hexValue low
      let bytes ← unhexDigits digits
      pure (UInt8.ofNat (high * 16 + low) :: bytes)

/-- Decode a lowercase hexadecimal text. -/
def unhex (text : String) : Option Bytes := unhexDigits text.toList

section Fields

variable (entry : Object)

def text (key : String) : Option String := (entry.lookup key).bind Value.asStr

def digestField (key : String) : Option String := do
  let value ← text entry key
  if looksLikeDigest value then some value else none

def closed (keys : List String) : Option Unit :=
  if entry.length = keys.length ∧ ∀ key ∈ keys, (entry.lookup key).isSome then some () else none

def turnField : Option Nat := do
  let turn ← (entry.lookup "turn").bind Value.asU64
  if turn ≤ lastTurn then some turn else none

end Fields

def terminalCases : List String := ["complete", "suspend", "fail"]

def decodeKind (entry : Object) (turn : Nat) : String → Option JournalEntry
  | "turn_opened" => do
      closed entry ["seq", "kind", "turn", "invocation", "observation_digest"]
      pure (.turnOpened turn (← digestField entry "invocation")
        (← digestField entry "observation_digest"))
  | "request_intent" => do
      closed entry ["seq", "kind", "turn", "request_digest", "reserved_budget"]
      pure (.requestIntent turn (← digestField entry "request_digest")
        (← (entry.lookup "reserved_budget").bind Value.asI64))
  | "response_recorded" => do
      closed entry ["seq", "kind", "turn", "response_digest", "response"]
      let response ← (text entry "response").bind unhex
      pure (.responseRecorded turn (← digestField entry "response_digest") response)
  | "response_failed" => do
      closed entry ["seq", "kind", "turn", "failure", "attempted_bytes"]
      pure (.responseFailed turn (← text entry "failure")
        (← (entry.lookup "attempted_bytes").bind Value.asU64))
  | "proposal_admitted" => do
      closed entry ["seq", "kind", "turn", "proposal_digest"]
      pure (.proposalAdmitted turn (← digestField entry "proposal_digest"))
  | "proposal_refused" => do
      closed entry ["seq", "kind", "turn", "reason"]
      pure (.proposalRefused turn (← text entry "reason"))
  | "authorization_consumed" => do
      closed entry ["seq", "kind", "turn", "grant_digest"]
      pure (.authorizationConsumed turn (← digestField entry "grant_digest"))
  | "authorization_refused" => do
      closed entry ["seq", "kind", "turn", "reason"]
      pure (.authorizationRefused turn (← text entry "reason"))
  | "effect_intent" => do
      closed entry ["seq", "kind", "turn", "operation", "request_digest"]
      pure (.effectIntent turn (← text entry "operation") (← digestField entry "request_digest"))
  | "effect_observed" => do
      closed entry ["seq", "kind", "turn", "operation", "observation_digest"]
      pure (.effectObserved turn (← text entry "operation")
        (← digestField entry "observation_digest"))
  | "effect_failed" => do
      closed entry ["seq", "kind", "turn", "operation", "reason"]
      pure (.effectFailed turn (← text entry "operation") (← text entry "reason"))
  | "transition" => do
      closed entry ["seq", "kind", "turn", "case", "carrier_digest"]
      let case ← text entry "case"
      let carrierDigest ← digestField entry "carrier_digest"
      if case ∈ "continue" :: terminalCases then some (.transition turn case carrierDigest)
      else none
  | "terminal_outcome" => do
      closed entry ["seq", "kind", "turn", "case", "carrier_digest"]
      let case ← text entry "case"
      let carrierDigest ← digestField entry "carrier_digest"
      if case ∈ terminalCases then some (.terminalOutcome turn case carrierDigest) else none
  | _ => none

/-- One entry, in its place of the sequence. -/
def decodeEntry (seq : Nat) (item : Value) : Option JournalEntry := do
  let entry ← item.asObject
  if (entry.lookup "seq").bind Value.asU64 = some seq then do
    let turn ← turnField entry
    let kind ← text entry "kind"
    decodeKind entry turn kind
  else none

/-- The entries from a place of the sequence on. -/
def decodeFrom : Nat → List Value → Option Journal
  | _, [] => some []
  | seq, item :: items => do
      let entry ← decodeEntry seq item
      let entries ← decodeFrom (seq + 1) items
      pure (entry :: entries)

def maxJournalEntries : Nat := 16384

def decode (value : Value) : Option Journal := do
  let items ← value.asArray
  if items.isEmpty ∨ items.length > maxJournalEntries then none else decodeFrom 0 items

/-- One more field of an entry's text. -/
def encodeField (key value : String) : String := ",\"" ++ key ++ "\":" ++ value

def JournalEntry.body : JournalEntry → String
  | .turnOpened _ invocation observationDigest =>
    encodeField "invocation" (quoteJson invocation) ++
      encodeField "observation_digest" (quoteJson observationDigest)
  | .requestIntent _ requestDigest reservedBudget =>
    encodeField "request_digest" (quoteJson requestDigest) ++
      encodeField "reserved_budget" (toString reservedBudget.val)
  | .responseRecorded _ responseDigest response =>
    encodeField "response_digest" (quoteJson responseDigest) ++
      encodeField "response" (quoteJson (hex response))
  | .responseFailed _ failure attemptedBytes =>
    encodeField "failure" (quoteJson failure) ++
      encodeField "attempted_bytes" (toString attemptedBytes)
  | .proposalAdmitted _ proposalDigest =>
    encodeField "proposal_digest" (quoteJson proposalDigest)
  | .proposalRefused _ reason | .authorizationRefused _ reason =>
    encodeField "reason" (quoteJson reason)
  | .authorizationConsumed _ grantDigest => encodeField "grant_digest" (quoteJson grantDigest)
  | .effectIntent _ operation requestDigest =>
    encodeField "operation" (quoteJson operation) ++
      encodeField "request_digest" (quoteJson requestDigest)
  | .effectObserved _ operation observationDigest =>
    encodeField "operation" (quoteJson operation) ++
      encodeField "observation_digest" (quoteJson observationDigest)
  | .effectFailed _ operation reason =>
    encodeField "operation" (quoteJson operation) ++ encodeField "reason" (quoteJson reason)
  | .transition _ case carrierDigest | .terminalOutcome _ case carrierDigest =>
    encodeField "case" (quoteJson case) ++
      encodeField "carrier_digest" (quoteJson carrierDigest)

/-- The canonical text of an entry in its place of the sequence. -/
def JournalEntry.encode (seq : Nat) (entry : JournalEntry) : String :=
  "\x7b\"seq\":" ++ toString seq ++ encodeField "kind" (quoteJson entry.kind) ++
    encodeField "turn" (toString entry.turn) ++ entry.body ++ "\x7d"

def chainFrom (sha256 : Bytes → Bytes) (link : String) : Nat → Journal → String
  | _, [] => link
  | seq, entry :: entries =>
    chainFrom sha256 (digest sha256 "semaprax.live-invocation.journal.v1\x00"
      (asBytes link ++ [0] ++ asBytes (entry.encode seq))) (seq + 1) entries

def chain (sha256 : Bytes → Bytes) (entries : Journal) : String := chainFrom sha256 "" 0 entries

end Semaprax.LiveInvocation
