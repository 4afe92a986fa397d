/-
**The decoder of interaction values** (`agent_interaction_schema/decode.rs`).

A document is parsed as JSON and checked against the type graph field by field; then the decoded value
is rendered, and the rendering has to be the document. The parser of JSON is a parameter of the model.

* `TypedValue` — decoded values; `TypedValue.render` — their canonical text.
* `decodeType`, `decodeFields`, `decodeScalar`, `decodeInteger` — the checks.
* `decode` — the whole decoder, with the texts of its errors.
-/

import Semaprax.LiveInvocation.Wire
import Semaprax.InteractionSchema.Shape

namespace Semaprax.InteractionSchema

open Library
open LiveInvocation (Value Object quoteJson)

/-- A decoded scalar. -/
inductive ScalarValue
  | bool (value : Bool)
  | signed (value : I64)
  | unsigned (value : UInt64)
  | text (value : String)
  | bytes (value : List UInt8)

mutual

inductive TypedValue
  | record (fields : List DecodedField)
  | variant (case : String) (fields : List DecodedField)

inductive DecodedField
  | mk (stableId : String) (value : FieldValue)

inductive FieldValue
  | scalar (value : ScalarValue)
  | nested (value : TypedValue)

end

/-- The texts of the bytes of a list, with commas between them. -/
def renderBytes (first : Bool) : List UInt8 → String
  | [] => ""
  | byte :: bytes =>
    (if first then "" else ",") ++ toString byte.toNat ++ renderBytes false bytes

def ScalarValue.render : ScalarValue → String
  | .bool true => "true"
  | .bool false => "false"
  | .signed value => quoteJson (toString value.val)
  | .unsigned value => quoteJson (toString value.toNat)
  | .text value => quoteJson value
  | .bytes elements => "[" ++ renderBytes true elements ++ "]"

mutual

def TypedValue.render : TypedValue → String
  | .record fields => "\x7b\"fields\":" ++ ("\x7b" ++ renderFields true fields ++ "\x7d") ++ "\x7d"
  | .variant case fields =>
    "\x7b\"case\":" ++ quoteJson case ++ ",\"fields\":" ++
      ("\x7b" ++ renderFields true fields ++ "\x7d") ++ "\x7d"

/-- The texts of the fields, with commas between them. -/
def renderFields (first : Bool) : List DecodedField → String
  | [] => ""
  | field :: fields => (if first then "" else ",") ++ field.render ++ renderFields false fields

def DecodedField.render : DecodedField → String
  | .mk stableId value => quoteJson stableId ++ ":" ++ value.render

def FieldValue.render : FieldValue → String
  | .scalar value => value.render
  | .nested value => value.render

end

def maxDocumentBytes : Nat := 65536

def documentSchema : String := "semaprax.agent-interaction-value.v1"

/-- The document is not canonical. -/
def malformed : Diagnostic :=
  ⟨"SPX-Z205", "AgentInteractionValue is not canonical " ++ documentSchema ++ " JSON"⟩

/-- A rule of decoding is broken. -/
def decodeInvariant (field : String) : Diagnostic :=
  ⟨"SPX-Z206", "AgentInteractionValue invariant failed: " ++ field⟩

def okOr {A : Type} (diagnostic : Diagnostic) : Option A → Except Diagnostic A
  | some value => .ok value
  | none => .error diagnostic

theorem okOr_eq_ok {A : Type} {diagnostic : Diagnostic} {value : Option A} {result : A} :
    okOr diagnostic value = .ok result ↔ value = some result := by
  cases value with
  | none => simp [okOr]
  | some value => exact ⟨fun same => congrArg some (Except.ok.inj same), fun same =>
    congrArg Except.ok (Option.some.inj same)⟩

theorem okOr_eq_error {A : Type} {diagnostic failure : Diagnostic} {value : Option A} :
    okOr diagnostic value = .error failure ↔ value = none ∧ diagnostic = failure := by
  cases value with
  | none => exact ⟨fun same => ⟨rfl, Except.error.inj same⟩, fun both => congrArg _ both.2⟩
  | some value => simp [okOr]

theorem map_eq_ok {A B : Type} {f : A → B} {first : Except Diagnostic A} {result : B} :
    (f <$> first) = .ok result ↔ ∃ value, first = .ok value ∧ f value = result := by
  cases first with
  | error failure | ok value => simp

def exactKeys (object : Object) (keys : List String) : Bool :=
  object.length = keys.length && keys.all fun key => (object.lookup key).isSome

/-- A text field of an object. -/
def string (object : Object) (key : String) : Except Diagnostic String :=
  okOr malformed ((object.lookup key).bind Value.asStr)

/-- `as_bool`. -/
def asBool : Value → Option Bool
  | .bool value => some value
  | _ => none

/-- The least and the greatest number of an integer representation. -/
def Representation.bounds : Representation → Option (Int × Int)
  | .bool | .text | .bytes => none
  | .i32 => some (-2147483648, 2147483647)
  | .i64 => some (-9223372036854775808, 9223372036854775807)
  | .u8 => some (0, 255)
  | .u64 => some (0, 18446744073709551615)

def unsignedDigits (text : List Char) : List Char :=
  if text.head? = some '-' then text.tail else text

/-- The one form of a decimal that is accepted: no sign but a minus before a number that is not zero,
and no zero before other digits. -/
def canonicalDecimal (text : List Char) : Bool :=
  let digits := unsignedDigits text
  !(digits.isEmpty || !digits.all Char.isDigit || (digits.length > 1 && digits.head? = some '0') ||
    (text.head? = some '-' && digits = ['0']))

def decodeSigned (bounds : Int × Int) (number : Int) : Except Diagnostic ScalarValue := do
  let parsed ← okOr (decodeInvariant "value.integer_range") (I64.checked number)
  if parsed.val < bounds.1 ∨ parsed.val > bounds.2 then
    .error (decodeInvariant "value.integer_range")
  else .ok (.signed parsed)

def decodeUnsigned (bounds : Int × Int) (negative : Bool) (magnitude : Nat) :
    Except Diagnostic ScalarValue :=
  if negative ∨ ¬ magnitude < 2 ^ 64 ∨ (magnitude : Int) > bounds.2 then
    .error (decodeInvariant "value.integer_range")
  else .ok (.unsigned (UInt64.ofNat magnitude))

/-- An integer, from its canonical decimal text. Only the integer representations have bounds, and
only they come here. -/
def decodeInteger (representation : Representation) (text : String) :
    Except Diagnostic ScalarValue :=
  if canonicalDecimal text.toList then
    let negative := text.toList.head? = some '-'
    let magnitude := Nat.ofDigitChars 10 (unsignedDigits text.toList) 0
    match representation, representation.bounds with
    | .i32, some bounds | .i64, some bounds =>
      decodeSigned bounds (if negative then -magnitude else magnitude)
    | .u8, some bounds | .u64, some bounds => decodeUnsigned bounds negative magnitude
    | _, _ => .error (decodeInvariant "value.integer")
  else .error (decodeInvariant "value.integer")

def decodeBytes : List Value → Except Diagnostic (List UInt8)
  | [] => .ok []
  | element :: elements => do
      let byte ← okOr (decodeInvariant "value.bytes_element")
        (element.asU64.filter fun value => value ≤ 255)
      let bytes ← decodeBytes elements
      pure (UInt8.ofNat byte :: bytes)

def decodeScalar (representation : Representation) (value : Value) :
    Except Diagnostic ScalarValue :=
  match representation with
  | .bool => okOr (decodeInvariant "value.representation") ((asBool value).map .bool)
  | .text => do
      let text ← okOr (decodeInvariant "value.representation") value.asStr
      if text.utf8ByteSize > maxStringFieldBytes then .error (decodeInvariant "value.string_bytes")
      else .ok (.text text)
  | .bytes => do
      let array ← okOr (decodeInvariant "value.representation") value.asArray
      if array.length > maxBytesFieldBytes then .error (decodeInvariant "value.bytes_length")
      else do
        let bytes ← decodeBytes array
        pure (.bytes bytes)
  | .i32 | .i64 | .u8 | .u64 => do
      let text ← okOr (decodeInvariant "value.representation") value.asStr
      decodeInteger representation text

/-- A decoded document, bound to its schema. -/
structure DecodedInteractionValue where
  rootTypeId : String
  schemaDigest : String
  value : TypedValue
  canonicalSource : String

section Decode

section Fields

-- `decode_type` one step deeper
variable (descend : String → Value → Except Diagnostic TypedValue)

def decodeField (value : Value) : FieldType → Except Diagnostic FieldValue
  | .scalar representation => FieldValue.scalar <$> decodeScalar representation value
  | .nested nestedTypeId => FieldValue.nested <$> descend nestedTypeId value

def decodeRows (object : Object) : List FieldRow → Except Diagnostic (List DecodedField)
  | [] => .ok []
  | row :: rows => do
      let value ← okOr (decodeInvariant "value.fields.missing") (object.lookup row.stableId)
      let fieldValue ← decodeField descend value row.ty
      let decoded ← decodeRows object rows
      pure (.mk row.stableId fieldValue :: decoded)

/-- The fields of an object: no unknown ones, and all that are declared. -/
def decodeFields (rows : List FieldRow) (object : Object) : Except Diagnostic (List DecodedField) :=
  if object.all fun entry => rows.any fun row => row.stableId = entry.1 then
    decodeRows descend object rows
  else .error (decodeInvariant "value.fields.unknown")

end Fields

variable (graph : TypeGraph)

/-- A value of a type at depth `maxDepth + 1 - left`. A graph resolves the types that it refers to;
where it does not, the code panics, and there is no value here either. -/
def decodeType : Nat → String → Value → Except Diagnostic TypedValue
  | 0, _, _ => .error (decodeInvariant "value.max_depth")
  | left + 1, typeId, value => do
      let decl ← okOr (decodeInvariant "type.unresolved") (graph.get typeId)
      let object ← okOr malformed value.asObject
      match decl.shape with
      | .record fields =>
        if exactKeys object ["fields"] then do
          let fieldsObject ← okOr malformed ((object.lookup "fields").bind Value.asObject)
          let decoded ← decodeFields (decodeType left) fields fieldsObject
          pure (.record decoded)
        else .error malformed
      | .variant cases =>
        if exactKeys object ["case", "fields"] then do
          let selected ← string object "case"
          let case ← okOr (decodeInvariant "value.case")
            (cases.find? fun case => case.stableId = selected)
          let fieldsObject ← okOr malformed ((object.lookup "fields").bind Value.asObject)
          let decoded ← decodeFields (decodeType left) case.fields fieldsObject
          pure (.variant case.stableId decoded)
        else .error malformed

/-- The canonical document of a value, without the newline at its end. -/
def canonicalBody (schemaDigest : String) (value : TypedValue) : String :=
  "\x7b\"schema\":" ++ quoteJson documentSchema ++ ",\"root_type_id\":" ++
    quoteJson graph.rootTypeId ++ ",\"schema_digest\":" ++ quoteJson schemaDigest ++
    ",\"value\":" ++ value.render ++ "\x7d"

def utf8 (text : String) : List UInt8 := text.toByteArray.data.toList

def stripNewline (text : String) : Option String :=
  if text.toList.getLast? = some '\n' then some (String.ofList text.toList.dropLast) else none

/-- Whether a text can be the body of a document. -/
def bodyAdmitted (body : String) : Bool :=
  !(body.toList.isEmpty || body.toList.contains '\n' || body.toList.contains '\r' ||
    body.toList.head? = some '\ufeff')

def decodeEnvelope (schemaDigest : String) (top : Object) : Except Diagnostic TypedValue :=
  if exactKeys top ["schema", "root_type_id", "schema_digest", "value"] then do
    let schema ← string top "schema"
    if schema ≠ documentSchema then .error malformed
    else do
      let rootTypeId ← string top "root_type_id"
      if rootTypeId ≠ graph.rootTypeId then .error (decodeInvariant "root_type_id")
      else do
        let digest ← string top "schema_digest"
        if digest ≠ schemaDigest then .error (decodeInvariant "schema_digest")
        else do
          let rootValue ← okOr malformed (top.lookup "value")
          decodeType graph (maxDepth + 1) graph.rootTypeId rootValue
  else .error malformed

def decode (parse : String → Option Value) (schemaDigest : String) (source : List UInt8) :
    Except Diagnostic DecodedInteractionValue :=
  if source.length > maxDocumentBytes then .error (decodeInvariant "document_bytes")
  else do
    let text ← okOr (decodeInvariant "utf8") (String.fromUTF8? ⟨source.toArray⟩)
    let body ← okOr malformed (stripNewline text)
    if bodyAdmitted body then do
      let value ← okOr malformed (parse body)
      let top ← okOr malformed value.asObject
      let decoded ← decodeEnvelope graph schemaDigest top
      let canonicalSource := canonicalBody graph schemaDigest decoded ++ "\n"
      if utf8 canonicalSource ≠ source then .error malformed
      else .ok ⟨graph.rootTypeId, schemaDigest, decoded, canonicalSource⟩
    else .error malformed

end Decode

end Semaprax.InteractionSchema
