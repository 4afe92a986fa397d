/-
**The decoder accepts canonical documents only, and all of them** (`agent_interaction_schema/decode.rs`).

The parser forgets how a document was written, so the decoder renders what it has decoded and compares.
A value that is well typed for the graph is read back from its JSON tree, and every value that is
decoded is well typed.

* `WellTyped` — what it is for a value to have a type of the graph.
* `documentValue` — the JSON tree of a document; `canonicalBody_eq` — its text is the canonical one.
* `decodeType_typed` — what is decoded is well typed; `decodeType_json` — and is read back.
* `decode_canonical` — **the decoder accepts exactly the canonical documents**.
* `derived_round_trip` — what is so of a schema that was derived.
-/

import Semaprax.Library.Decimals
import Semaprax.LiveInvocation.Documents
import Semaprax.InteractionSchema.Decode
import Semaprax.InteractionSchema.Derivation

namespace Semaprax.InteractionSchema

open Library
open LiveInvocation (Value Object quoteJson quoteCharacter)

def ScalarTyped (representation : Representation) : ScalarValue → Prop
  | .bool _ => representation = .bool
  | .text value => representation = .text ∧ value.utf8ByteSize ≤ maxStringFieldBytes
  | .bytes elements => representation = .bytes ∧ elements.length ≤ maxBytesFieldBytes
  | .signed value => representation = .i64 ∨
      representation = .i32 ∧ -2147483648 ≤ value.val ∧ value.val ≤ 2147483647
  | .unsigned value => representation = .u64 ∨ representation = .u8 ∧ value.toNat ≤ 255

section WellTyped

variable (typed : String → TypedValue → Prop)

def FieldTyped : FieldType → FieldValue → Prop
  | .scalar representation, .scalar value => ScalarTyped representation value
  | .nested typeId, .nested value => typed typeId value
  | _, _ => False

/-- The fields are those that are declared, once and in their order. -/
def RowTyped (row : FieldRow) : DecodedField → Prop
  | .mk stableId value => stableId = row.stableId ∧ FieldTyped typed row.ty value

def FieldsTyped (rows : List FieldRow) (fields : List DecodedField) : Prop :=
  List.Forall₂ (RowTyped typed) rows fields

def ShapeTyped : TypeShape → TypedValue → Prop
  | .record rows, .record fields => FieldsTyped typed rows fields
  | .variant cases, .variant case fields =>
    ∃ row ∈ cases, row.stableId = case ∧ FieldsTyped typed row.fields fields
  | _, _ => False

end WellTyped

/-- A value has a type of the graph, with fewer than so many levels of nesting. -/
def TypedWithin (graph : TypeGraph) : Nat → String → TypedValue → Prop
  | 0, _, _ => False
  | left + 1, typeId, value =>
    ∃ decl, graph.get typeId = some decl ∧ ShapeTyped (TypedWithin graph left) decl.shape value

/-- A value of the root type, nested no deeper than is allowed. -/
def WellTyped (graph : TypeGraph) (value : TypedValue) : Prop :=
  TypedWithin graph (maxDepth + 1) graph.rootTypeId value

/-- The identities of the fields of a declaration, and of its cases, are different. -/
def TypeShape.Formed : TypeShape → Prop
  | .record rows => (rows.map FieldRow.stableId).Nodup
  | .variant cases => (cases.map CaseRow.stableId).Nodup ∧
      ∀ case ∈ cases, (case.fields.map FieldRow.stableId).Nodup

def TypeGraph.Formed (graph : TypeGraph) : Prop := ∀ decl ∈ graph.types, decl.shape.Formed

/-- The identities of the fields, and of the cases, of a declaration are different; validation of the
program refuses it otherwise. -/
def ResolvedTypeDeclarationKind.Distinct : ResolvedTypeDeclarationKind → Prop
  | .record fields => (fields.map ResolvedFieldDeclaration.id).Nodup
  | .variant cases => (cases.map ResolvedVariantCaseDeclaration.id).Nodup ∧
      ∀ case ∈ cases, (case.fields.map ResolvedFieldDeclaration.id).Nodup
  | .resource | .class_ => True

variable {resolved : ResolvedProgram}

theorem mapM_named {A B : Type} {f : A → Option B} {named : A → String} {called : B → String}
    (keeps : ∀ a b, f a = some b → called b = named a) {l : List A} {rows : List B}
    (read : l.mapM f = some rows) :
    rows.map called = l.map named ∧ ∀ b ∈ rows, ∃ a ∈ l, f a = some b := by
  induction l generalizing rows with
  | nil =>
    cases read
    exact ⟨rfl, List.forall_mem_nil _⟩
  | cons a l ih =>
    simp only [List.mapM_cons, Option.bind_eq_bind, Option.bind_eq_some_iff, Option.pure_def,
      Option.some.injEq] at read
    obtain ⟨row, first, rest, more, rfl⟩ := read
    obtain ⟨same, origins⟩ := ih more
    refine ⟨by rw [List.map_cons, List.map_cons, keeps a row first, same], fun b member => ?_⟩
    rcases List.mem_cons.mp member with rfl | member
    · exact ⟨a, List.mem_cons_self, first⟩
    · obtain ⟨origin, inside, made⟩ := origins b member
      exact ⟨origin, List.mem_cons_of_mem _ inside, made⟩

theorem rowOf_named (field : ResolvedFieldDeclaration) (row : FieldRow)
    (read : rowOf resolved field = some row) : row.stableId = field.id := by
  unfold rowOf at read
  split_ifs at read
  obtain ⟨ty, -, rfl⟩ := Option.map_eq_some_iff.mp read
  rfl

theorem kindShape_formed {kind : ResolvedTypeDeclarationKind}
    (distinct : kind.Distinct) {shape : TypeShape} (read : kindShape resolved kind = some shape) :
    shape.Formed := by
  cases kind with
  | record fields =>
    obtain ⟨rows, all, rfl⟩ := Option.map_eq_some_iff.mp read
    show (rows.map FieldRow.stableId).Nodup
    rw [(mapM_named rowOf_named all).1]
    exact distinct
  | variant cases =>
    rw [kindShape] at read
    split_ifs at read
    obtain ⟨rows, all, rfl⟩ := Option.map_eq_some_iff.mp read
    have named : ∀ case row, caseOf resolved case = some row → row.stableId = case.id ∧
        row.fields.map FieldRow.stableId = case.fields.map ResolvedFieldDeclaration.id := by
      intro case row made
      unfold caseOf at made
      split_ifs at made
      obtain ⟨fields, listed, rfl⟩ := Option.map_eq_some_iff.mp made
      exact ⟨rfl, (mapM_named rowOf_named listed).1⟩
    obtain ⟨same, origins⟩ := mapM_named (fun case row made => (named case row made).1) all
    refine ⟨by rw [same]; exact distinct.1, fun row member => ?_⟩
    obtain ⟨case, inside, made⟩ := origins row member
    rw [(named case row made).2]
    exact distinct.2 case inside
  | resource | class_ => cases read

/-- **A derived graph is formed.** -/
theorem derive_formed {rootTypeId : String} {graph : TypeGraph}
    (distinct : ∀ declaration ∈ resolved.types, declaration.kind.Distinct)
    (derived : derive resolved rootTypeId = .ok graph) : graph.Formed := by
  obtain ⟨-, faithful, -⟩ := derive_eq_ok_iff.mp derived
  intro decl member
  have admitted := faithful decl member
  unfold admittedShape at admitted
  obtain ⟨declaration, found, admitted⟩ := Option.bind_eq_some_iff.mp admitted
  split_ifs at admitted
  exact kindShape_formed (distinct declaration (List.mem_of_find?_eq_some found)) admitted

def ScalarValue.json : ScalarValue → Value
  | .bool value => .bool value
  | .signed value => .string (toString value.val)
  | .unsigned value => .string (toString value.toNat)
  | .text value => .string value
  | .bytes elements => .array (elements.map fun byte => .integer byte.toNat)

mutual

def TypedValue.json : TypedValue → Value
  | .record fields => .object [("fields", .object (fieldsJson fields))]
  | .variant case fields =>
    .object [("case", .string case), ("fields", .object (fieldsJson fields))]

def fieldsJson : List DecodedField → Object
  | [] => []
  | field :: fields => field.entry :: fieldsJson fields

def DecodedField.entry : DecodedField → String × Value
  | .mk stableId value => (stableId, value.json)

def FieldValue.json : FieldValue → Value
  | .scalar value => value.json
  | .nested value => value.json

end

def documentEntries (graph : TypeGraph) (schemaDigest : String) (value : TypedValue) : Object :=
  [("schema", .string documentSchema), ("root_type_id", .string graph.rootTypeId),
    ("schema_digest", .string schemaDigest), ("value", value.json)]

def documentValue (graph : TypeGraph) (schemaDigest : String) (value : TypedValue) : Value :=
  .object (documentEntries graph schemaDigest value)

def canonicalDocument (graph : TypeGraph) (schemaDigest : String) (value : TypedValue) :
    List UInt8 :=
  utf8 (canonicalBody graph schemaDigest value ++ "\n")

variable {text : String} {representation : Representation}

theorem renderBytes_eq (first : Bool) (elements : List UInt8) : renderBytes first elements =
    Value.renderItems first (elements.map fun byte => .integer byte.toNat) := by
  induction elements generalizing first with
  | nil => rfl
  | cons byte elements ih =>
    rw [renderBytes, List.map_cons, Value.renderItems, ih]
    rfl

theorem ScalarValue.render_eq (value : ScalarValue) : value.render = value.json.render := by
  cases value with
  | bool value => cases value <;> simp [ScalarValue.render, ScalarValue.json, Value.render]
  | bytes elements =>
    rw [ScalarValue.render, ScalarValue.json, Value.render, renderBytes_eq]
  | _ => simp [ScalarValue.render, ScalarValue.json, Value.render]

mutual

theorem TypedValue.render_eq (value : TypedValue) : value.render = value.json.render := by
  cases value with
  | record fields | variant case fields =>
    rw [TypedValue.render, TypedValue.json, renderFields_eq fields]
    apply String.toList_inj.mp
    simp [Value.render, Value.renderEntries, quoteJson, quoteCharacter]

theorem renderFields_eq (fields : List DecodedField) (first : Bool) :
    renderFields first fields = Value.renderEntries first (fieldsJson fields) := by
  cases fields with
  | nil => rfl
  | cons field fields =>
    rw [renderFields, fieldsJson, renderFields_eq fields false]
    cases field with
    | mk stableId value =>
      rw [DecodedField.render, DecodedField.entry, Value.renderEntries, FieldValue.render_eq value]
      simp [String.append_assoc]

theorem FieldValue.render_eq (value : FieldValue) : value.render = value.json.render := by
  cases value with
  | scalar value => exact value.render_eq
  | nested value => exact value.render_eq

end

/-- **The canonical document is the text of the tree.** -/
theorem canonicalBody_eq (graph : TypeGraph) (schemaDigest : String) (value : TypedValue) :
    canonicalBody graph schemaDigest value = (documentValue graph schemaDigest value).render := by
  unfold canonicalBody documentValue documentEntries
  rw [value.render_eq]
  apply String.toList_inj.mp
  simp [Value.render, Value.renderEntries, quoteJson, quoteCharacter]

def OneLine (text : String) : Prop := ∀ character ∈ text.toList, character ≠ '\n' ∧ character ≠ '\r'

theorem OneLine.append {first second : String} (line : OneLine first) (line' : OneLine second) :
    OneLine (first ++ second) := by
  intro character member
  rw [String.toList_append] at member
  exact (List.mem_append.mp member).elim (line character) (line' character)

theorem oneLine_of_all
    (all : text.toList.all fun character => character ≠ '\n' ∧ character ≠ '\r') : OneLine text :=
  fun character member => by simpa using List.all_eq_true.mp all character member

theorem hexDigit_oneLine {value : Nat} (small : value < 16) :
    LiveInvocation.hexDigit value ≠ '\n' ∧ LiveInvocation.hexDigit value ≠ '\r' := by
  have isDigit := (LiveInvocation.isHexDigit_hexDigit small).1
  exact ⟨fun same => by simp [same, LiveInvocation.isHexDigit] at isDigit,
    fun same => by simp [same, LiveInvocation.isHexDigit] at isDigit⟩

theorem quoteJson_oneLine (text : String) : OneLine (quoteJson text) := by
  intro character member
  unfold quoteJson at member
  rw [String.toList_ofList] at member
  simp only [List.cons_append, List.mem_cons, List.mem_append, List.mem_flatMap,
    List.not_mem_nil, or_false] at member
  rcases member with rfl | ⟨quoted, -, inside⟩ | rfl
  · decide
  · unfold quoteCharacter at inside
    split_ifs at inside with _ _ feed return' _ control
    iterate 5
      · simp only [List.mem_cons, List.not_mem_nil, or_false] at inside
        rcases inside with rfl | rfl <;> decide
    · simp only [List.mem_cons, List.not_mem_nil, or_false] at inside
      rcases inside with rfl | rfl | rfl | rfl | rfl | rfl
      · decide
      · decide
      · decide
      · decide
      · exact hexDigit_oneLine (by omega)
      · exact hexDigit_oneLine (by omega)
    · rw [List.mem_singleton.mp inside]
      exact ⟨feed, return'⟩
  · decide

theorem toList_toString (number : Int) : (toString number).toList =
    (if number < 0 then ['-'] else []) ++ Nat.toDigits 10 number.natAbs := by
  rw [Int.toString_eq_repr, Int.repr_eq_if]
  by_cases negative : number < 0
  · have magnitude : (-number).toNat = number.natAbs := by omega
    rw [if_neg (not_le.mpr negative), if_pos negative, magnitude, String.toList_append,
      Nat.toList_repr]
    rfl
  · have magnitude : number.toNat = number.natAbs := by omega
    rw [if_pos (not_lt.mp negative), if_neg negative, magnitude, Nat.toList_repr]
    rfl

theorem digits_oneLine {digits : List Char} (isDigit : ∀ digit ∈ digits, digit.isDigit) :
    OneLine (String.ofList digits) := by
  intro character member
  rw [String.toList_ofList] at member
  have digit := isDigit character member
  exact ⟨fun same => by simp [same, Char.isDigit] at digit,
    fun same => by simp [same, Char.isDigit] at digit⟩

theorem canonicalDecimal_iff {text : List Char} : canonicalDecimal text = true ↔
    Canonical (unsignedDigits text) ∧ ¬ (text.head? = some '-' ∧ unsignedDigits text = ['0']) := by
  unfold canonicalDecimal
  simp only [Bool.not_eq_true', Bool.or_eq_false_iff, Bool.and_eq_false_iff, Bool.not_eq_false',
    decide_eq_false_iff_not, List.isEmpty_eq_false_iff]
  constructor
  · rintro ⟨⟨⟨nonempty, isDigit⟩, unpadded⟩, signed⟩
    refine ⟨⟨nonempty, List.all_eq_true.mp isDigit, fun long padded => ?_⟩, fun both => ?_⟩
    · exact unpadded.elim (absurd long) (absurd padded)
    · exact signed.elim (absurd both.1) (absurd both.2)
  · rintro ⟨canonical, signed⟩
    refine ⟨⟨⟨canonical.nonempty, List.all_eq_true.mpr canonical.isDigit⟩, ?_⟩, ?_⟩
    · exact not_and_or.mp fun both => canonical.unpadded both.1 both.2
    · exact not_and_or.mp signed

theorem integer_parts (number : Int) : ((toString number).toList.head? = some '-' ↔ number < 0) ∧
      unsignedDigits (toString number).toList = Nat.toDigits 10 number.natAbs := by
  have canonical := canonical_toDigits number.natAbs
  have plain : (Nat.toDigits 10 number.natAbs).head? ≠ some '-' := by
    intro same
    have digit := canonical.isDigit '-' (List.mem_of_head? same)
    exact absurd digit (by decide)
  rw [toList_toString]
  by_cases negative : number < 0
  · rw [if_pos negative]
    exact ⟨⟨fun _ => negative, fun _ => rfl⟩, rfl⟩
  · rw [if_neg negative, List.nil_append]
    refine ⟨⟨fun same => absurd same plain, fun below => absurd below negative⟩, ?_⟩
    unfold unsignedDigits
    rw [if_neg plain]

/-- The text of an integer is the one form that is accepted. -/
theorem canonicalDecimal_toString (number : Int) :
    canonicalDecimal (toString number).toList = true := by
  obtain ⟨sign, digits⟩ := integer_parts number
  rw [canonicalDecimal_iff, digits]
  refine ⟨canonical_toDigits _, fun both => ?_⟩
  have negative := sign.mp both.1
  have zero : Nat.ofDigitChars 10 (Nat.toDigits 10 number.natAbs) 0 = 0 := by
    rw [both.2]
    rfl
  rw [Nat.ofDigitChars_ten_toDigits] at zero
  omega

theorem decodeInteger_signed {value : I64} (typed : ScalarTyped representation (.signed value)) :
    decodeInteger representation (toString value.val) = .ok (.signed value) := by
  obtain ⟨sign, digits⟩ := integer_parts value.val
  have held : I64.checked value.val = some value := by
    unfold I64.checked
    rw [dif_pos value.lower, dif_pos value.upper]
  have number : (if (toString value.val).toList.head? = some '-' then -(value.val.natAbs : Int)
      else value.val.natAbs) = value.val := by
    rw [if_congr sign rfl rfl]
    split_ifs <;> omega
  have lower := value.lower
  have upper := value.upper
  unfold minI64 at lower
  unfold maxI64 at upper
  unfold decodeInteger
  rw [if_pos (canonicalDecimal_toString _), digits, Nat.ofDigitChars_ten_toDigits]
  rcases typed with rfl | ⟨rfl, low, high⟩
  all_goals
    show decodeSigned _ _ = _
    rw [number]
    unfold decodeSigned
    rw [held]
    show (if _ then _ else _) = _
    rw [if_neg (by dsimp only; omega)]

theorem decodeInteger_unsigned {value : UInt64}
    (typed : ScalarTyped representation (.unsigned value)) :
    decodeInteger representation (toString value.toNat) = .ok (.unsigned value) := by
  have same : toString value.toNat = toString (value.toNat : Int) := rfl
  obtain ⟨sign, digits⟩ := integer_parts value.toNat
  have room : value.toNat < 2 ^ 64 := value.toNat_lt
  have positive : ¬ (toString (value.toNat : Int)).toList.head? = some '-' := by
    rw [sign]
    omega
  unfold decodeInteger
  rw [same, if_pos (canonicalDecimal_toString _), digits, Int.natAbs_natCast,
    Nat.ofDigitChars_ten_toDigits]
  have read : ∀ high : Int, (value.toNat : Int) ≤ high →
      decodeUnsigned (0, high) (decide ((toString (value.toNat : Int)).toList.head? = some '-'))
        value.toNat = .ok (.unsigned value) := by
    intro high within
    unfold decodeUnsigned
    rw [if_neg, UInt64.ofNat_toNat]
    rintro (negative | large | above)
    · exact positive (of_decide_eq_true negative)
    · exact large room
    · exact absurd within (not_le.mpr above)
  rcases typed with rfl | ⟨rfl, small⟩
  · exact read 18446744073709551615 (by omega)
  · exact read 255 (by omega)

theorem decodeInteger_typed {value : ScalarValue}
    (read : decodeInteger representation text = .ok value) : ScalarTyped representation value := by
  have signed : ∀ {bounds : Int × Int} {number : Int}, decodeSigned bounds number = .ok value →
      ∃ parsed : I64, value = .signed parsed ∧ bounds.1 ≤ parsed.val ∧ parsed.val ≤ bounds.2 := by
    intro bounds number read
    obtain ⟨parsed, -, read⟩ := bind_eq_ok.mp read
    split_ifs at read with outside
    cases read
    obtain ⟨low, high⟩ := not_or.mp outside
    exact ⟨parsed, rfl, not_lt.mp low, not_lt.mp high⟩
  have unsigned : ∀ {bounds : Int × Int} {negative : Bool} {magnitude : Nat},
      decodeUnsigned bounds negative magnitude = .ok value →
      ∃ parsed : UInt64, value = .unsigned parsed ∧ (parsed.toNat : Int) ≤ bounds.2 := by
    intro bounds negative magnitude read
    unfold decodeUnsigned at read
    split_ifs at read with outside
    cases read
    obtain ⟨-, outside⟩ := not_or.mp outside
    obtain ⟨small, high⟩ := not_or.mp outside
    refine ⟨_, rfl, ?_⟩
    rw [UInt64.toNat_ofNat_of_lt' (not_not.mp small)]
    exact not_lt.mp high
  unfold decodeInteger at read
  split_ifs at read
  cases representation
  case i32 =>
    obtain ⟨parsed, rfl, low, high⟩ := signed read
    exact .inr ⟨rfl, low, high⟩
  case i64 =>
    obtain ⟨parsed, rfl, -, -⟩ := signed read
    exact .inl rfl
  case u8 =>
    obtain ⟨parsed, rfl, high⟩ := unsigned read
    have small : (parsed.toNat : Int) ≤ 255 := high
    exact .inr ⟨rfl, by exact_mod_cast small⟩
  case u64 =>
    obtain ⟨parsed, rfl, -⟩ := unsigned read
    exact .inl rfl
  all_goals cases read

theorem decodeBytes_json (elements : List UInt8) :
    decodeBytes (elements.map fun byte => .integer byte.toNat) = .ok elements := by
  induction elements with
  | nil => rfl
  | cons byte elements ih =>
    have small : byte.toNat ≤ 255 := Nat.le_of_lt_succ byte.toNat_lt
    have read : (Value.integer byte.toNat).asU64.filter (fun value => value ≤ 255) =
        some byte.toNat := by
      rw [LiveInvocation.asU64_natCast, if_pos (by omega)]
      simp [small]
    rw [List.map_cons, decodeBytes, read, ih]
    show Except.ok (UInt8.ofNat byte.toNat :: elements) = _
    rw [UInt8.ofNat_toNat]

theorem length_decodeBytes {values : List Value} {elements : List UInt8}
    (read : decodeBytes values = .ok elements) : elements.length = values.length := by
  induction values generalizing elements with
  | nil =>
    cases read
    rfl
  | cons value values ih =>
    obtain ⟨byte, -, after⟩ := bind_eq_ok.mp read
    obtain ⟨rest, more, same⟩ := bind_eq_ok.mp after
    cases same
    rw [List.length_cons, List.length_cons, ih more]

theorem decodeScalar_json {value : ScalarValue}
    (typed : ScalarTyped representation value) : decodeScalar representation value.json = .ok value := by
  cases value with
  | bool value =>
    obtain rfl : representation = .bool := typed
    rfl
  | text value =>
    obtain ⟨rfl, short⟩ := typed
    show (if _ then _ else _) = _
    rw [if_neg (Nat.not_lt.mpr short)]
  | bytes elements =>
    obtain ⟨rfl, short⟩ := typed
    show (if _ then _ else _) = _
    rw [if_neg (by rw [List.length_map]; exact Nat.not_lt.mpr short), decodeBytes_json]
    rfl
  | signed value =>
    have read := decodeInteger_signed typed
    rcases typed with rfl | ⟨rfl, -⟩ <;> exact read
  | unsigned value =>
    have read := decodeInteger_unsigned typed
    rcases typed with rfl | ⟨rfl, -⟩ <;> exact read

theorem decodeScalar_typed {json : Value} {value : ScalarValue}
    (read : decodeScalar representation json = .ok value) : ScalarTyped representation value := by
  cases representation
  case bool =>
    obtain ⟨flag, -, rfl⟩ := Option.map_eq_some_iff.mp (okOr_eq_ok.mp read)
    rfl
  case text =>
    obtain ⟨text, -, read⟩ := bind_eq_ok.mp read
    split_ifs at read with long
    cases read
    exact ⟨rfl, Nat.not_lt.mp long⟩
  case bytes =>
    obtain ⟨array, -, read⟩ := bind_eq_ok.mp read
    split_ifs at read with long
    obtain ⟨elements, listed, same⟩ := bind_eq_ok.mp read
    cases same
    refine ⟨rfl, ?_⟩
    rw [length_decodeBytes listed]
    exact Nat.not_lt.mp long
  all_goals
    obtain ⟨text, -, read⟩ := bind_eq_ok.mp read
    exact decodeInteger_typed read

section Fields

variable {typed : String → TypedValue → Prop} {descend : String → Value → Except Diagnostic TypedValue}
  {rows : List FieldRow} {fields : List DecodedField} {object : Object}

theorem lookup_of_mem {entries : Object} (once : (entries.map Prod.fst).Nodup) {key : String}
    {value : Value} (member : (key, value) ∈ entries) : entries.lookup key = some value := by
  induction entries with
  | nil => cases member
  | cons entry entries ih =>
    obtain ⟨fresh, once⟩ := List.nodup_cons.mp once
    rcases List.mem_cons.mp member with rfl | member
    · exact List.lookup_cons_self
    · have other : key ≠ entry.1 := fun same => fresh (same ▸ List.mem_map_of_mem member)
      rw [List.lookup_cons, beq_false_of_ne other]
      exact ih once member

theorem keys_fieldsJson (alike : FieldsTyped typed rows fields) :
    (fieldsJson fields).map Prod.fst = rows.map FieldRow.stableId := by
  induction alike with
  | nil => rfl
  | @cons row field rows fields same _ ih =>
    obtain ⟨stableId, value⟩ := field
    rw [fieldsJson, List.map_cons, List.map_cons, ih]
    exact congrArg (· :: _) same.1

theorem decodeFields_json (once : (rows.map FieldRow.stableId).Nodup)
    (reads : ∀ id value, typed id value → descend id value.json = .ok value)
    (alike : FieldsTyped typed rows fields) :
    decodeFields descend rows (fieldsJson fields) = .ok fields := by
  have keys := keys_fieldsJson alike
  have known : (fieldsJson fields).all (fun entry =>
      rows.any fun row => row.stableId = entry.1) = true := by
    refine List.all_eq_true.mpr fun entry member => List.any_eq_true.mpr ?_
    have listed : entry.1 ∈ rows.map FieldRow.stableId := keys ▸ List.mem_map_of_mem member
    obtain ⟨row, inside, same⟩ := List.mem_map.mp listed
    exact ⟨row, inside, decide_eq_true same⟩
  have look : ∀ entry ∈ fieldsJson fields, (fieldsJson fields).lookup entry.1 = some entry.2 :=
    fun entry member => lookup_of_mem (keys ▸ once) member
  have all : ∀ {object rows fields}, FieldsTyped typed rows fields →
      (∀ entry ∈ fieldsJson fields, object.lookup entry.1 = some entry.2) →
      decodeRows descend object rows = .ok fields := by
    intro object rows fields alike look
    induction alike with
    | nil => rfl
    | @cons row field rows fields same _ ih =>
      obtain ⟨stableId, value⟩ := field
      obtain ⟨rfl, held⟩ := same
      have here : object.lookup row.stableId = some value.json :=
        look (row.stableId, value.json) List.mem_cons_self
      have rest := ih fun entry member => look entry (List.mem_cons_of_mem _ member)
      obtain ⟨stableId, ty⟩ := row
      rw [decodeRows, here, rest]
      cases ty with
      | scalar representation =>
        cases value with
        | scalar value =>
          have read := decodeScalar_json (held : ScalarTyped representation value)
          show ((FieldValue.scalar <$> decodeScalar representation value.json) >>= _) = _
          rw [read]
          rfl
        | nested value => exact absurd held id
      | nested typeId =>
        cases value with
        | scalar value => exact absurd held id
        | nested value =>
          have read := reads typeId value held
          show ((FieldValue.nested <$> descend typeId value.json) >>= _) = _
          rw [read]
          rfl
  unfold decodeFields
  rw [if_pos known]
  exact all alike look

theorem decodeFields_typed (reads : ∀ id json value, descend id json = .ok value → typed id value)
    (read : decodeFields descend rows object = .ok fields) : FieldsTyped typed rows fields := by
  unfold decodeFields at read
  split_ifs at read with known
  clear known
  induction rows generalizing fields with
  | nil =>
    cases read
    exact .nil
  | cons row rows ih =>
    obtain ⟨stableId, ty⟩ := row
    obtain ⟨json, -, after⟩ := bind_eq_ok.mp read
    obtain ⟨value, first, after⟩ := bind_eq_ok.mp after
    obtain ⟨rest, more, same⟩ := bind_eq_ok.mp after
    cases same
    refine .cons ⟨rfl, ?_⟩ (ih more)
    cases ty with
    | scalar representation =>
      obtain ⟨scalar, one, rfl⟩ := map_eq_ok.mp first
      exact decodeScalar_typed one
    | nested typeId =>
      obtain ⟨nested, one, rfl⟩ := map_eq_ok.mp first
      exact reads typeId json nested one

end Fields

section Types

variable {graph : TypeGraph} {left : Nat} {typeId : String} {json : Value} {value : TypedValue}

/-- **What is decoded is well typed.** -/
theorem decodeType_typed (read : decodeType graph left typeId json = .ok value) :
    TypedWithin graph left typeId value := by
  induction left generalizing typeId json value with
  | zero => cases read
  | succ left ih =>
    rw [decodeType] at read
    obtain ⟨decl, found, read⟩ := bind_eq_ok.mp read
    obtain ⟨object, -, read⟩ := bind_eq_ok.mp read
    refine ⟨decl, okOr_eq_ok.mp found, ?_⟩
    obtain ⟨stableId, shape⟩ := decl
    cases shape with
    | record rows =>
      dsimp only at read
      split_ifs at read
      obtain ⟨entries, -, after⟩ := bind_eq_ok.mp read
      obtain ⟨fields, listed, same⟩ := bind_eq_ok.mp after
      cases same
      exact decodeFields_typed (fun _ _ _ => ih) listed
    | variant cases =>
      dsimp only at read
      split_ifs at read
      obtain ⟨selected, -, read⟩ := bind_eq_ok.mp read
      obtain ⟨case, chosen, read⟩ := bind_eq_ok.mp read
      obtain ⟨entries, -, after⟩ := bind_eq_ok.mp read
      obtain ⟨fields, listed, same⟩ := bind_eq_ok.mp after
      cases same
      exact ⟨case, List.mem_of_find?_eq_some (okOr_eq_ok.mp chosen), rfl,
        decodeFields_typed (fun _ _ _ => ih) listed⟩

theorem find?_case {cases : List CaseRow} (once : (cases.map CaseRow.stableId).Nodup)
    {case : CaseRow} (member : case ∈ cases) :
    cases.find? (fun other => other.stableId = case.stableId) = some case := by
  induction cases with
  | nil => cases member
  | cons head cases ih =>
    obtain ⟨fresh, once⟩ := List.nodup_cons.mp once
    rcases List.mem_cons.mp member with rfl | member
    · rw [List.find?_cons_of_pos (by simp)]
    · rw [List.find?_cons_of_neg, ih once member]
      intro same
      have named : head.stableId = case.stableId := by simpa using same
      exact fresh (named ▸ List.mem_map_of_mem member)

/-- **A well-typed value is read from its tree.** -/
theorem decodeType_json (formed : graph.Formed) (typed : TypedWithin graph left typeId value) :
    decodeType graph left typeId value.json = .ok value := by
  induction left generalizing typeId value with
  | zero => exact absurd typed id
  | succ left ih =>
    have reads : ∀ id value, TypedWithin graph left id value →
        decodeType graph left id value.json = .ok value := fun _ _ => ih
    obtain ⟨decl, found, typed⟩ := typed
    have shaped := formed decl (List.mem_of_find?_eq_some found)
    obtain ⟨stableId, shape⟩ := decl
    rw [decodeType, found]
    cases shape with
    | record rows =>
      cases value with
      | record fields =>
        have read := decodeFields_json shaped reads typed
        show ((decodeFields (decodeType graph left) rows (fieldsJson fields)) >>= _) = _
        rw [read]
        rfl
      | variant case fields => exact absurd typed id
    | variant cases =>
      cases value with
      | record fields => exact absurd typed id
      | variant case fields =>
        obtain ⟨row, member, rfl, typed⟩ := typed
        have chosen := find?_case shaped.1 member
        have read := decodeFields_json (shaped.2 row member) reads typed
        show ((okOr (decodeInvariant "value.case")
          (cases.find? fun case => case.stableId = row.stableId)) >>= _) = _
        rw [chosen]
        show ((decodeFields (decodeType graph left) row.fields (fieldsJson fields)) >>= _) = _
        rw [read]
        rfl

end Types

theorem renderBytes_oneLine (first : Bool) (elements : List UInt8) :
    OneLine (renderBytes first elements) := by
  induction elements generalizing first with
  | nil => exact fun _ member => absurd member (by simp [renderBytes])
  | cons byte elements ih =>
    have digits : OneLine (toString byte.toNat) := by
      have line := digits_oneLine (canonical_toDigits byte.toNat).isDigit
      rwa [← Nat.repr_eq_ofList_toDigits] at line
    refine (OneLine.append ?_ digits).append (ih false)
    cases first <;> exact oneLine_of_all (by decide)

theorem ScalarValue.render_oneLine (value : ScalarValue) : OneLine value.render := by
  cases value with
  | bool value => cases value <;> exact oneLine_of_all (by decide)
  | bytes elements =>
    exact ((oneLine_of_all (by decide)).append (renderBytes_oneLine true elements)).append
      (oneLine_of_all (by decide))
  | _ => exact quoteJson_oneLine _

mutual

theorem TypedValue.render_oneLine (value : TypedValue) : OneLine value.render := by
  cases value with
  | record fields =>
    have line := renderFields_oneLine fields true
    exact ((oneLine_of_all (by decide)).append (((oneLine_of_all (by decide)).append line).append
      (oneLine_of_all (by decide)))).append (oneLine_of_all (by decide))
  | variant case fields =>
    have line := renderFields_oneLine fields true
    exact ((((oneLine_of_all (by decide)).append (quoteJson_oneLine case)).append
      (oneLine_of_all (by decide))).append (((oneLine_of_all (by decide)).append line).append
      (oneLine_of_all (by decide)))).append (oneLine_of_all (by decide))

theorem renderFields_oneLine (fields : List DecodedField) (first : Bool) :
    OneLine (renderFields first fields) := by
  cases fields with
  | nil => exact fun _ member => absurd member (by simp [renderFields])
  | cons field fields =>
    have rest := renderFields_oneLine fields false
    cases field with
    | mk stableId value =>
      refine (OneLine.append ?_ (((quoteJson_oneLine stableId).append
        (oneLine_of_all (by decide))).append (FieldValue.render_oneLine value))).append rest
      cases first <;> exact oneLine_of_all (by decide)

theorem FieldValue.render_oneLine (value : FieldValue) : OneLine value.render := by
  cases value with
  | scalar value => exact value.render_oneLine
  | nested value => exact value.render_oneLine

end

section Documents

variable {graph : TypeGraph} {schemaDigest : String} {value : TypedValue}

variable {parse : String → Option Value}

theorem canonicalBody_oneLine : OneLine (canonicalBody graph schemaDigest value) := by
  unfold canonicalBody
  have quoted := quoteJson_oneLine
  have line := value.render_oneLine
  exact ((((((((oneLine_of_all (by decide)).append (quoted _)).append
    (oneLine_of_all (by decide))).append (quoted _)).append (oneLine_of_all (by decide))).append
    (quoted _)).append (oneLine_of_all (by decide))).append line).append
    (oneLine_of_all (by decide))

theorem bodyAdmitted_canonical : bodyAdmitted (canonicalBody graph schemaDigest value) = true := by
  have line := @canonicalBody_oneLine graph schemaDigest value
  have feed : '\n' ∉ (canonicalBody graph schemaDigest value).toList :=
    fun member => (line _ member).1 rfl
  have return' : '\r' ∉ (canonicalBody graph schemaDigest value).toList :=
    fun member => (line _ member).2 rfl
  have head : (canonicalBody graph schemaDigest value).toList.head? = some '\x7b' := by
    unfold canonicalBody
    simp
  unfold bodyAdmitted
  rw [head]
  have nonempty : (canonicalBody graph schemaDigest value).toList.isEmpty = false := by
    cases text : (canonicalBody graph schemaDigest value).toList with
    | nil =>
      rw [text] at head
      cases head
    | cons _ _ => rfl
  simp [nonempty, feed, return']

theorem stripNewline_append (text : String) : stripNewline (text ++ "\n") = some text := by
  unfold stripNewline
  have chars : (text ++ "\n").toList = text.toList ++ ['\n'] := by simp
  rw [chars, if_pos (by simp), List.dropLast_concat, String.ofList_toList]

theorem fromUTF8?_utf8 (text : String) : String.fromUTF8? ⟨(utf8 text).toArray⟩ = some text := by
  have bytes : (⟨(utf8 text).toArray⟩ : ByteArray) = text.toByteArray := by
    unfold utf8
    rw [Array.toArray_toList]
  unfold String.fromUTF8?
  rw [bytes, dif_pos text.isValidUTF8]
  rfl

/-- Two texts of the same bytes are one text. -/
theorem utf8_injective {first second : String} (same : utf8 first = utf8 second) : first = second := by
  have read := fromUTF8?_utf8 first
  rw [same, fromUTF8?_utf8] at read
  exact (Option.some.inj read).symm

theorem decodeEnvelope_typed {top : Object}
    (read : decodeEnvelope graph schemaDigest top = .ok value) : WellTyped graph value := by
  unfold decodeEnvelope at read
  split_ifs at read
  obtain ⟨schema, -, read⟩ := bind_eq_ok.mp read
  split_ifs at read
  obtain ⟨rootTypeId, -, read⟩ := bind_eq_ok.mp read
  split_ifs at read
  obtain ⟨digest, -, read⟩ := bind_eq_ok.mp read
  split_ifs at read
  obtain ⟨rootValue, -, read⟩ := bind_eq_ok.mp read
  exact decodeType_typed read

theorem decodeEnvelope_entries (formed : graph.Formed) (typed : WellTyped graph value) :
    decodeEnvelope graph schemaDigest (documentEntries graph schemaDigest value) = .ok value := by
  have keys : exactKeys (documentEntries graph schemaDigest value)
      ["schema", "root_type_id", "schema_digest", "value"] = true := by
    simp [exactKeys, documentEntries, List.lookup_cons]
  have schema : string (documentEntries graph schemaDigest value) "schema" = .ok documentSchema := by
    simp [string, documentEntries, Value.asStr, okOr]
  have root : string (documentEntries graph schemaDigest value) "root_type_id" =
      .ok graph.rootTypeId := by
    simp [string, documentEntries, List.lookup_cons, Value.asStr, okOr]
  have digest : string (documentEntries graph schemaDigest value) "schema_digest" =
      .ok schemaDigest := by
    simp [string, documentEntries, List.lookup_cons, Value.asStr, okOr]
  have held : (documentEntries graph schemaDigest value).lookup "value" = some value.json := by
    simp [documentEntries, List.lookup_cons]
  unfold decodeEnvelope
  rw [if_pos keys]
  refine bind_eq_ok.mpr ⟨documentSchema, schema, ?_⟩
  rw [if_neg (not_not.mpr rfl)]
  refine bind_eq_ok.mpr ⟨graph.rootTypeId, root, ?_⟩
  rw [if_neg (not_not.mpr rfl)]
  refine bind_eq_ok.mpr ⟨schemaDigest, digest, ?_⟩
  rw [if_neg (not_not.mpr rfl)]
  exact bind_eq_ok.mpr ⟨value.json, okOr_eq_ok.mpr held, decodeType_json formed typed⟩

/-- **What is accepted is canonical.** -/
theorem decode_sound {source : List UInt8}
    {decoded : DecodedInteractionValue} (accepted : decode graph parse schemaDigest source = .ok decoded) :
    WellTyped graph decoded.value ∧
      source = canonicalDocument graph schemaDigest decoded.value ∧
      source.length ≤ maxDocumentBytes := by
  unfold decode at accepted
  split_ifs at accepted with long
  obtain ⟨text, -, accepted⟩ := bind_eq_ok.mp accepted
  obtain ⟨body, -, accepted⟩ := bind_eq_ok.mp accepted
  split_ifs at accepted with admitted
  obtain ⟨json, -, accepted⟩ := bind_eq_ok.mp accepted
  obtain ⟨top, -, accepted⟩ := bind_eq_ok.mp accepted
  obtain ⟨value, read, accepted⟩ := bind_eq_ok.mp accepted
  dsimp only at accepted
  split_ifs at accepted with same
  cases accepted
  exact ⟨decodeEnvelope_typed read, (not_not.mp same).symm, Nat.not_lt.mp long⟩

/-- **A canonical document is accepted,** if the parser reads its text as the tree that it is the text
of. -/
theorem decode_complete (formed : graph.Formed) (typed : WellTyped graph value)
    (reads : parse (documentValue graph schemaDigest value).render =
      some (documentValue graph schemaDigest value))
    (short : (canonicalDocument graph schemaDigest value).length ≤ maxDocumentBytes) :
    decode graph parse schemaDigest (canonicalDocument graph schemaDigest value) =
      .ok ⟨graph.rootTypeId, schemaDigest, value, canonicalBody graph schemaDigest value ++ "\n"⟩ := by
  rw [← canonicalBody_eq] at reads
  unfold decode
  rw [if_neg (Nat.not_lt.mpr short)]
  refine bind_eq_ok.mpr ⟨canonicalBody graph schemaDigest value ++ "\n",
    okOr_eq_ok.mpr (fromUTF8?_utf8 _), ?_⟩
  refine bind_eq_ok.mpr ⟨_, okOr_eq_ok.mpr (stripNewline_append _), ?_⟩
  rw [if_pos bodyAdmitted_canonical]
  refine bind_eq_ok.mpr ⟨_, okOr_eq_ok.mpr reads, ?_⟩
  refine bind_eq_ok.mpr ⟨documentEntries graph schemaDigest value, okOr_eq_ok.mpr rfl, ?_⟩
  refine bind_eq_ok.mpr ⟨value, decodeEnvelope_entries formed typed, ?_⟩
  exact if_neg fun differs => differs rfl

end Documents

/-- A record with one field, which is a `bool`. -/
def flagGraph : TypeGraph := ⟨"flag", [⟨"flag", .record [⟨"flag.on", .scalar .bool⟩]⟩]⟩

def flagValue (on : Bool) : TypedValue := .record [.mk "flag.on" (.scalar (.bool on))]

/-- A parser of the two documents. -/
def flagParse (text : String) : Option Value :=
  if text = (documentValue flagGraph "digest" (flagValue true)).render then
    some (documentValue flagGraph "digest" (flagValue true))
  else if text = (documentValue flagGraph "digest" (flagValue false)).render then
    some (documentValue flagGraph "digest" (flagValue false))
  else none

/-- **What is written under a schema that was derived is read back**, and nothing else is read. -/
theorem derived_round_trip {rootTypeId schemaDigest : String} {graph : TypeGraph}
    {parse : String → Option Value} {value : TypedValue}
    (distinct : ∀ declaration ∈ resolved.types, declaration.kind.Distinct)
    (derived : derive resolved rootTypeId = .ok graph) (typed : WellTyped graph value)
    (reads : parse (documentValue graph schemaDigest value).render =
      some (documentValue graph schemaDigest value))
    (short : (canonicalDocument graph schemaDigest value).length ≤ maxDocumentBytes) :
    (decode graph parse schemaDigest (canonicalDocument graph schemaDigest value)).map
        (·.value) = .ok value ∧
      ∀ source decoded, decode graph parse schemaDigest source = .ok decoded →
        decoded.value = value → source = canonicalDocument graph schemaDigest value := by
  refine ⟨?_, fun source decoded accepted same => ?_⟩
  · rw [decode_complete (derive_formed distinct derived) typed reads short]
    rfl
  · rw [← same]
    exact (decode_sound accepted).2.1

def flagProgram : ResolvedProgram :=
  ⟨[⟨"flag", [], .record [⟨"flag.on", .bool⟩]⟩], [("flag", .explicit), ("flag.on", .explicit)]⟩

theorem derived_round_trip_flag : (decode flagGraph flagParse "digest"
    (canonicalDocument flagGraph "digest" (flagValue true))).map (·.value) = .ok (flagValue true) :=
  (@derived_round_trip flagProgram "flag" "digest" flagGraph flagParse (flagValue true)
    (by simp [flagProgram, ResolvedTypeDeclarationKind.Distinct]) (by decide +kernel)
    ⟨_, rfl, .cons ⟨rfl, rfl⟩ .nil⟩ (if_pos rfl) (by decide +kernel)).1

end Semaprax.InteractionSchema
