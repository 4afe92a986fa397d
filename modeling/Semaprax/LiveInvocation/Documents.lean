/-
**Documents of journals** (`live_invocation/journal.rs`).

What `render` writes is the text of a JSON document, and `decode` takes that document apart again. The
writer and the reader are separate code: the writer writes every journal, while the reader checks the
format of the digests, the ranges of the integers and the number of the entries.

* `Value.render` — the text of a document.
* `JournalEntry.value`, `journalValue` — the documents whose texts the writer writes.
* `JournalEntry.Readable` — what the reader asks of the fields of an entry.
* `decode_value_iff` — a journal is read back exactly when it is readable and not too long.
-/

import Semaprax.LiveInvocation.Wire

namespace Semaprax.LiveInvocation

open Library

mutual

/-- The text of a document, with no blanks. -/
def Value.render : Value → String
  | .null => "null"
  | .bool value => if value then "true" else "false"
  | .integer value => toString value
  | .float digits => digits
  | .string value => quoteJson value
  | .array items => "[" ++ Value.renderItems true items ++ "]"
  | .object entries => "\x7b" ++ Value.renderEntries true entries ++ "\x7d"

/-- The items of an array, with commas between them. -/
def Value.renderItems (first : Bool) : List Value → String
  | [] => ""
  | item :: items => (if first then "" else ",") ++ item.render ++ Value.renderItems false items

/-- The entries of an object, with commas between them. -/
def Value.renderEntries (first : Bool) : List (String × Value) → String
  | [] => ""
  | (key, value) :: entries =>
    (if first then "" else ",") ++ quoteJson key ++ ":" ++ value.render ++
      Value.renderEntries false entries

end

def JournalEntry.fields : JournalEntry → Object
  | .turnOpened _ invocation observationDigest =>
    [("invocation", .string invocation), ("observation_digest", .string observationDigest)]
  | .requestIntent _ requestDigest reservedBudget =>
    [("request_digest", .string requestDigest), ("reserved_budget", .integer reservedBudget.val)]
  | .responseRecorded _ responseDigest response =>
    [("response_digest", .string responseDigest), ("response", .string (hex response))]
  | .responseFailed _ failure attemptedBytes =>
    [("failure", .string failure), ("attempted_bytes", .integer attemptedBytes)]
  | .proposalAdmitted _ proposalDigest => [("proposal_digest", .string proposalDigest)]
  | .proposalRefused _ reason | .authorizationRefused _ reason => [("reason", .string reason)]
  | .authorizationConsumed _ grantDigest => [("grant_digest", .string grantDigest)]
  | .effectIntent _ operation requestDigest =>
    [("operation", .string operation), ("request_digest", .string requestDigest)]
  | .effectObserved _ operation observationDigest =>
    [("operation", .string operation), ("observation_digest", .string observationDigest)]
  | .effectFailed _ operation reason =>
    [("operation", .string operation), ("reason", .string reason)]
  | .transition _ case carrierDigest | .terminalOutcome _ case carrierDigest =>
    [("case", .string case), ("carrier_digest", .string carrierDigest)]

/-- The document of an entry in its place of the sequence. -/
def JournalEntry.value (seq : Nat) (entry : JournalEntry) : Value :=
  .object (("seq", .integer seq) :: ("kind", .string entry.kind) ::
    ("turn", .integer entry.turn) :: entry.fields)

/-- The documents of the entries from a place of the sequence on. -/
def valuesFrom : Nat → Journal → List Value
  | _, [] => []
  | seq, entry :: entries => entry.value seq :: valuesFrom (seq + 1) entries

def journalValue (entries : Journal) : Value := .array (valuesFrom 0 entries)

theorem repr_natCast (value : Nat) : (value : Int).repr = value.repr := rfl

theorem JournalEntry.renderEntries_fields (entry : JournalEntry) :
    Value.renderEntries false entry.fields = entry.body := by
  cases entry <;>
    simp [JournalEntry.fields, JournalEntry.body, Value.renderEntries, Value.render, quoteJson,
      quoteCharacter, encodeField, repr_natCast]

theorem JournalEntry.encode_eq (seq : Nat) (entry : JournalEntry) :
    entry.encode seq = (entry.value seq).render := by
  unfold JournalEntry.encode JournalEntry.value
  rw [Value.render, Value.renderEntries, Value.renderEntries, Value.renderEntries,
    entry.renderEntries_fields]
  have opening : ∀ rest : String, "\x7b\"seq\":" ++ rest = "\x7b" ++ ("\"seq\":" ++ rest) :=
    fun rest => by simp [← String.append_assoc]
  simp [Value.render, quoteJson, quoteCharacter, encodeField, repr_natCast, String.append_assoc,
    opening]

/-- What is left of a text when the white space at its end is dropped. -/
def trimEnd (text : String) : String :=
  String.ofList (text.toList.reverse.dropWhile Char.isWhitespace).reverse

/-- The texts of the entries from a place of the sequence on. -/
def renderFrom : Nat → Journal → String
  | _, [] => ""
  | seq, entry :: entries =>
    (if seq > 0 then "," else "") ++ entry.encode seq ++ renderFrom (seq + 1) entries

/-- The text of a whole journal, with a newline after it. -/
def render (entries : Journal) : String := "[" ++ renderFrom 0 entries ++ "]\n"

theorem renderFrom_eq (entries : Journal) : ∀ seq : Nat,
    renderFrom seq entries = Value.renderItems (decide (seq = 0)) (valuesFrom seq entries) := by
  induction entries with
  | nil => exact fun seq => rfl
  | cons entry entries ih =>
    intro seq
    rw [renderFrom, valuesFrom, Value.renderItems, ih, entry.encode_eq]
    by_cases first : seq = 0
    · subst first
      rfl
    · simp [first, Nat.pos_of_ne_zero first]

theorem trimEnd_render (entries : Journal) :
    trimEnd (render entries) = (journalValue entries).render := by
  have text : (render entries).toList =
      ("[" ++ renderFrom 0 entries).toList ++ [']', '\n'] := by simp [render]
  unfold trimEnd
  rw [text, List.reverse_append]
  have drops : ([']', '\n'].reverse ++ ("[" ++ renderFrom 0 entries).toList.reverse).dropWhile
      Char.isWhitespace = ']' :: ("[" ++ renderFrom 0 entries).toList.reverse := by
    simp [Char.isWhitespace]
  have items : Value.renderItems true (valuesFrom 0 entries) = renderFrom 0 entries :=
    (renderFrom_eq entries 0).symm
  rw [drops, journalValue, Value.render, items]
  apply String.toList_inj.mp
  simp

theorem hexValue_hexDigit {value : Nat} (small : value < 16) :
    hexValue (hexDigit value) = some value := by
  interval_cases value <;> decide

/-- Lowercase hexadecimal is read back. -/
theorem unhex_hex (bytes : Bytes) : unhex (hex bytes) = some bytes := by
  unfold unhex hex
  rw [String.toList_ofList]
  induction bytes with
  | nil => rfl
  | cons byte bytes ih =>
    have small : byte.toNat < 256 := byte.toNat_lt
    have whole : byte.toNat / 16 * 16 + byte.toNat % 16 = byte.toNat := Nat.div_add_mod' _ _
    rw [List.flatMap_cons]
    show unhexDigits (hexDigit (byte.toNat / 16) :: hexDigit (byte.toNat % 16) ::
      bytes.flatMap _) = _
    rw [unhexDigits, hexValue_hexDigit (by omega), hexValue_hexDigit (by omega), ih]
    show some (UInt8.ofNat (byte.toNat / 16 * 16 + byte.toNat % 16) :: bytes) = _
    rw [whole, UInt8.ofNat_toNat]

/-- Whether a character is a digit of a lowercase hexadecimal number. -/
def isHexDigit (character : Char) : Bool :=
  ('0' ≤ character && character ≤ '9') || ('a' ≤ character && character ≤ 'f')

theorem isHexDigit_hexDigit {value : Nat} (small : value < 16) :
    isHexDigit (hexDigit value) = true ∧ (hexDigit value).utf8Size = 1 := by
  interval_cases value <;> decide

theorem hex_digits (bytes : Bytes) : ∀ character ∈ (hex bytes).toList,
    isHexDigit character = true ∧ character.utf8Size = 1 := by
  intro character member
  unfold hex at member
  rw [String.toList_ofList] at member
  obtain ⟨byte, -, digit⟩ := List.mem_flatMap.mp member
  have small : byte.toNat < 256 := byte.toNat_lt
  rcases List.mem_pair.mp digit with rfl | rfl
  · exact isHexDigit_hexDigit (by omega)
  · exact isHexDigit_hexDigit (by omega)

theorem utf8ByteSize_ofList {characters : List Char}
    (single : ∀ character ∈ characters, character.utf8Size = 1) :
    (String.ofList characters).utf8ByteSize = characters.length := by
  induction characters with
  | nil => rfl
  | cons character characters ih =>
    rw [String.ofList_cons, String.utf8ByteSize_append, String.utf8ByteSize_singleton,
      single character List.mem_cons_self, ih fun other member =>
        single other (List.mem_cons_of_mem _ member), List.length_cons, Nat.add_comm]

theorem looksLikeDigest_digest {sha256 : Bytes → Bytes} (hashes : ∀ bytes, (sha256 bytes).length = 32)
    (domain : String) (bytes : Bytes) : looksLikeDigest (digest sha256 domain bytes) = true := by
  have size : (hex (sha256 (asBytes domain ++ bytes))).utf8ByteSize = 64 := by
    have digits := hex_digits (sha256 (asBytes domain ++ bytes))
    unfold hex at digits ⊢
    rw [String.toList_ofList] at digits
    rw [utf8ByteSize_ofList fun character member => (digits character member).2,
      List.length_flatMap]
    simp [hashes]
  have digits := hex_digits (sha256 (asBytes domain ++ bytes))
  unfold looksLikeDigest digest
  rw [String.utf8ByteSize_append, size, String.toList_append]
  have front : "sha256:".toList = ['s', 'h', 'a', '2', '5', '6', ':'] := by simp
  rw [front]
  have all : (hex (sha256 (asBytes domain ++ bytes))).toList.all isHexDigit = true :=
    List.all_eq_true.mpr fun character member => (digits character member).1
  simpa [isHexDigit] using all

def JournalEntry.digests : JournalEntry → List String
  | .turnOpened _ invocation observationDigest => [invocation, observationDigest]
  | .requestIntent _ digest _ | .responseRecorded _ digest _ | .proposalAdmitted _ digest
  | .authorizationConsumed _ digest | .effectIntent _ _ digest | .effectObserved _ _ digest
  | .transition _ _ digest | .terminalOutcome _ _ digest => [digest]
  | .responseFailed .. | .proposalRefused .. | .authorizationRefused .. | .effectFailed .. => []

def JournalEntry.InRange : JournalEntry → Prop
  | .responseFailed _ _ attemptedBytes => attemptedBytes < 2 ^ 64
  | .transition _ case _ => case ∈ "continue" :: terminalCases
  | .terminalOutcome _ case _ => case ∈ terminalCases
  | _ => True

/-- What `decode` asks of the fields of an entry. -/
structure JournalEntry.Readable (entry : JournalEntry) : Prop where
  turn : entry.turn ≤ lastTurn
  digests : ∀ digest ∈ entry.digests, looksLikeDigest digest = true
  inRange : entry.InRange

theorem asU64_natCast (value : Nat) :
    (Value.integer value).asU64 = if value < 2 ^ 64 then some value else none := by
  have nonneg : (0 : Int) ≤ value := Int.natCast_nonneg value
  rw [Value.asU64]
  by_cases small : value < 2 ^ 64
  · rw [if_pos small, if_pos ⟨nonneg, by exact_mod_cast small⟩, Int.toNat_natCast]
  · rw [if_neg small, if_neg fun both => small (by exact_mod_cast both.2)]

theorem asU64_bound {value : Value} {number : Nat} (read : value.asU64 = some number) :
    number < 2 ^ 64 := by
  cases value with
  | integer held =>
    rw [Value.asU64] at read
    by_cases bounds : 0 ≤ held ∧ held < 2 ^ 64
    · rw [if_pos bounds] at read
      obtain rfl := Option.some.inj read
      exact (Int.toNat_lt bounds.1).mpr (by exact_mod_cast bounds.2)
    · rw [if_neg bounds] at read
      cases read
  | _ => cases read

theorem asI64_val (value : I64) : (Value.integer value.val).asI64 = some value := by
  rw [Value.asI64, dif_pos ⟨value.lower, value.upper⟩]

section Heads

variable (seq turn : Nat) (kind : String) (fields : Object)

/-- The first fields of every entry: its place, its kind and its turn. -/
def headed : Object :=
  ("seq", .integer seq) :: ("kind", .string kind) :: ("turn", .integer turn) :: fields

theorem lookup_seq : (headed seq turn kind fields).lookup "seq" = some (.integer seq) := by
  simp [headed]

theorem lookup_kind : (headed seq turn kind fields).lookup "kind" = some (.string kind) := by
  simp [headed, List.lookup_cons]

theorem lookup_turn : (headed seq turn kind fields).lookup "turn" = some (.integer turn) := by
  simp [headed, List.lookup_cons]

/-- The turn is read back if it is a `u32`. -/
theorem turnField_headed :
    turnField (headed seq turn kind fields) = if turn ≤ lastTurn then some turn else none := by
  have bound : lastTurn < 2 ^ 64 := by norm_num [lastTurn]
  unfold turnField
  rw [lookup_turn, Option.bind_some, asU64_natCast]
  by_cases small : turn < 2 ^ 64
  · rw [if_pos small, Option.bind_eq_bind, Option.bind_some]
  · rw [if_neg small, if_neg fun room => small (room.trans_lt bound), Option.bind_eq_bind,
      Option.bind_none]

theorem decodeEntry_headed (placed : seq < 2 ^ 64) :
    decodeEntry seq (.object (headed seq turn kind fields)) =
      if turn ≤ lastTurn then decodeKind (headed seq turn kind fields) turn kind else none := by
  have place : ((headed seq turn kind fields).lookup "seq").bind Value.asU64 = some seq := by
    rw [lookup_seq, Option.bind_some, asU64_natCast, if_pos placed]
  have named : text (headed seq turn kind fields) "kind" = some kind := by
    unfold text
    rw [lookup_kind, Option.bind_some, Value.asStr]
  unfold decodeEntry
  rw [Value.asObject, Option.bind_eq_bind, Option.bind_some, if_pos place, turnField_headed]
  by_cases room : turn ≤ lastTurn
  · rw [if_pos room, if_pos room, Option.bind_eq_bind, Option.bind_some, named,
      Option.bind_eq_bind, Option.bind_some]
  · rw [if_neg room, if_neg room, Option.bind_eq_bind, Option.bind_none]

end Heads

section Fields

variable {seq turn : Nat} {kind key other : String} {value held : Value} {fields : Object}

variable {keys : List String}

theorem closed_keys {entry : Object} (all : keys = entry.map Prod.fst) :
    closed entry keys = some () := by
  have found : ∀ entry : Object, ∀ key ∈ entry.map Prod.fst, (entry.lookup key).isSome := by
    intro entry key member
    induction entry with
    | nil => cases member
    | cons head entry ih =>
      rw [List.lookup_cons]
      by_cases same : key = head.1
      · simp [same]
      · have rest := (List.mem_cons.mp member).resolve_left same
        simpa [beq_false_of_ne same] using ih rest
  unfold closed
  rw [if_pos ⟨by rw [all, List.length_map], fun key member => found _ key (all ▸ member)⟩]

theorem closed_headed (all : keys = "seq" :: "kind" :: "turn" :: fields.map Prod.fst) :
    closed (headed seq turn kind fields) keys = some () := closed_keys all

theorem lookup_headed (fresh : key ∉ ["seq", "kind", "turn"]) :
    (headed seq turn kind fields).lookup key = fields.lookup key := by
  simp only [List.mem_cons, List.not_mem_nil, or_false, not_or] at fresh
  simp [headed, List.lookup_cons, beq_false_of_ne fresh.1, beq_false_of_ne fresh.2.1,
    beq_false_of_ne fresh.2.2]

theorem lookup_second (differs : key ≠ other) :
    List.lookup key ((other, held) :: (key, value) :: fields) = some value := by
  simp [List.lookup_cons, beq_false_of_ne differs]

end Fields

theorem guarded_bind {A B : Type} {condition : Prop} [Decidable condition] {value : A}
    {rest : A → Option B} {result : B} :
    ((if condition then some value else none).bind rest = some result) ↔
      condition ∧ rest value = some result := by
  by_cases holds : condition <;> simp [holds]

theorem decodeKind_fields (seq : Nat) (entry : JournalEntry) :
    decodeKind (headed seq entry.turn entry.kind entry.fields) entry.turn entry.kind =
      some entry ↔ (∀ digest ∈ entry.digests, looksLikeDigest digest = true) ∧ entry.InRange := by
  cases entry with
  | responseFailed turn failure attemptedBytes =>
    have shut : closed (headed seq turn "response_failed" [("failure", .string failure),
        ("attempted_bytes", .integer attemptedBytes)])
        ["seq", "kind", "turn", "failure", "attempted_bytes"] = some () := closed_headed rfl
    have told : text (headed seq turn "response_failed" [("failure", .string failure),
        ("attempted_bytes", .integer attemptedBytes)]) "failure" = some failure := by
      unfold text
      rw [lookup_headed (by decide)]
      rfl
    have counted : (headed seq turn "response_failed" [("failure", .string failure),
        ("attempted_bytes", .integer attemptedBytes)]).lookup "attempted_bytes" =
          some (.integer attemptedBytes) := by
      rw [lookup_headed (by decide), lookup_second (by decide)]
    rw [JournalEntry.kind, JournalEntry.fields, JournalEntry.turn, decodeKind, shut, told, counted,
      Option.bind_some, asU64_natCast]
    have guarded := @guarded_bind _ _ (attemptedBytes < 2 ^ 64) _ attemptedBytes
      (fun counted => some (JournalEntry.responseFailed turn failure counted))
      (.responseFailed turn failure attemptedBytes)
    refine Iff.trans guarded ?_
    simp only [JournalEntry.digests, JournalEntry.InRange, List.not_mem_nil, false_imp_iff,
      implies_true, true_and, and_true]
  | transition turn case carrierDigest =>
    simp (disch := first | decide | simp) [JournalEntry.kind, JournalEntry.fields,
      JournalEntry.turn, decodeKind, closed_headed, digestField, text, lookup_headed,
      lookup_second, Value.asStr, guarded_bind, JournalEntry.digests, JournalEntry.InRange,
      or_iff_not_imp_left]
  | _ =>
    simp (disch := first | decide | simp) [JournalEntry.kind, JournalEntry.fields,
      JournalEntry.turn, decodeKind, closed_headed, digestField, text, lookup_headed,
      lookup_second, Value.asStr, guarded_bind, unhex_hex, asI64_val, JournalEntry.digests,
      JournalEntry.InRange]

theorem decodeEntry_value_iff {seq : Nat} (placed : seq < 2 ^ 64) (entry : JournalEntry) :
    decodeEntry seq (entry.value seq) = some entry ↔ entry.Readable := by
  have read : decodeEntry seq (entry.value seq) = _ :=
    decodeEntry_headed seq entry.turn entry.kind entry.fields placed
  rw [read]
  by_cases room : entry.turn ≤ lastTurn
  · rw [if_pos room, decodeKind_fields]
    constructor
    · exact fun fits => ⟨room, fits.1, fits.2⟩
    · exact fun readable => ⟨readable.digests, readable.inRange⟩
  · rw [if_neg room]
    constructor
    · intro same
      cases same
    · exact fun readable => absurd readable.turn room

theorem decodeFrom_valuesFrom_iff (entries : Journal) : ∀ seq : Nat, seq + entries.length ≤ 2 ^ 64 →
      (decodeFrom seq (valuesFrom seq entries) = some entries ↔
        ∀ entry ∈ entries, entry.Readable) := by
  induction entries with
  | nil => exact fun seq _ => ⟨fun _ entry member => absurd member List.not_mem_nil, fun _ => rfl⟩
  | cons entry entries ih =>
    intro seq placed
    rw [List.length_cons] at placed
    rw [List.forall_mem_cons, ← decodeEntry_value_iff (show seq < 2 ^ 64 by omega) entry,
      ← ih (seq + 1) (by omega), valuesFrom, decodeFrom]
    simp only [Option.bind_eq_bind, Option.bind_eq_some_iff, Option.pure_def,
      Option.some.injEq, List.cons.injEq]
    exact ⟨fun ⟨_, first, _, rest, same, same'⟩ => by subst same; subst same'; exact ⟨first, rest⟩,
      fun ⟨first, rest⟩ => ⟨entry, first, entries, rest, rfl, rfl⟩⟩

theorem length_valuesFrom (entries : Journal) : ∀ seq, (valuesFrom seq entries).length =
    entries.length := by
  induction entries with
  | nil => exact fun _ => rfl
  | cons entry entries ih =>
    intro seq
    rw [valuesFrom, List.length_cons, List.length_cons, ih]

/-- **A journal is read back** from its document exactly when it is not empty, not too long, and each
of its entries is readable. -/
theorem decode_value_iff (entries : Journal) :
    decode (journalValue entries) = some entries ↔ entries ≠ [] ∧
      entries.length ≤ maxJournalEntries ∧ ∀ entry ∈ entries, entry.Readable := by
  have none : (valuesFrom 0 entries).isEmpty = true ↔ entries = [] := by
    rw [List.isEmpty_iff, ← List.length_eq_zero_iff, length_valuesFrom, List.length_eq_zero_iff]
  unfold decode journalValue
  rw [Value.asArray, Option.bind_eq_bind, Option.bind_some, length_valuesFrom]
  by_cases refused : (valuesFrom 0 entries).isEmpty = true ∨ entries.length > maxJournalEntries
  · rw [if_pos refused]
    constructor
    · intro same
      cases same
    · rintro ⟨some, short, -⟩
      rcases refused with empty | long
      · exact absurd (none.mp empty) some
      · exact absurd short (not_le.mpr long)
  · obtain ⟨some, long⟩ := not_or.mp refused
    have short := not_lt.mp long
    have placed : 0 + entries.length ≤ 2 ^ 64 := by
      unfold maxJournalEntries at short
      omega
    rw [if_neg refused, decodeFrom_valuesFrom_iff entries 0 placed]
    exact ⟨fun readable => ⟨mt none.mpr some, short, readable⟩, fun fits => fits.2.2⟩

end Semaprax.LiveInvocation
