/-
**The type graph of an interaction** (`agent_interaction_schema/shape.rs`).

`derive` walks the declarations of a resolved program depth first from a root type. A type that has
been derived is passed over, and the budgets of depth and of types are checked where a type is entered.

* `ResolvedProgram` — the declarations as far as `derive` reads them.
* `TypeGraph` — the shapes of the types, in the order in which they are finished.
* `deriveOne`, `derive` — the walk, with the texts of its errors.
-/

import Mathlib

namespace Semaprax.InteractionSchema

inductive ResolvedType
  | function (parameters : List ResolvedType) (result : ResolvedType)
  | unit
  | i64
  | i32
  | char
  | u8
  | usize
  | arrayU8 (length : UInt32)
  | f32
  | f64
  | bool
  | string
  | bytes
  | str
  | sliceU8
  | typeParameter (owner : String) (index : UInt32)
  | nominal (declaration : String) (arguments : List ResolvedType)

structure ResolvedFieldDeclaration where
  id : String
  ty : ResolvedType

structure ResolvedVariantCaseDeclaration where
  id : String
  fields : List ResolvedFieldDeclaration

inductive ResolvedTypeDeclarationKind
  | resource
  | record (fields : List ResolvedFieldDeclaration)
  | class_
  | variant (cases : List ResolvedVariantCaseDeclaration)

structure ResolvedTypeDeclaration where
  id : String
  typeParameters : List String
  kind : ResolvedTypeDeclarationKind

/-- Where the identity of a declaration comes from. -/
inductive IdentityOrigin
  | explicit
  | automatic
  | compilerOwned

def IdentityOrigin.isPersistent : IdentityOrigin → Bool
  | .explicit | .compilerOwned => true
  | .automatic => false

/-- The types of a program, and the origins of the identities of its declarations. -/
structure ResolvedProgram where
  types : List ResolvedTypeDeclaration
  declarations : List (String × IdentityOrigin)

/-- The most types that a graph holds, with the root. -/
def maxTypes : Nat := 64

/-- The deepest nesting below the root. -/
def maxDepth : Nat := 16

/-- The longest text, in bytes. -/
def maxStringFieldBytes : Nat := 4096

/-- The longest list of bytes. -/
def maxBytesFieldBytes : Nat := 4096

/-- A scalar on the wire. -/
inductive Representation
  | bool
  | i32
  | i64
  | u8
  | u64
  | text
  | bytes
  deriving DecidableEq

def Representation.ofScalar : ResolvedType → Option Representation
  | .bool => some .bool
  | .i32 => some .i32
  | .i64 => some .i64
  | .u8 => some .u8
  | .usize => some .u64
  | .string => some .text
  | .bytes => some .bytes
  | .function .. | .unit | .char | .arrayU8 _ | .f32 | .f64 | .str | .sliceU8 | .typeParameter ..
  | .nominal .. => none

inductive FieldType
  | scalar (representation : Representation)
  | nested (stableId : String)
  deriving DecidableEq

structure FieldRow where
  stableId : String
  ty : FieldType
  deriving DecidableEq

structure CaseRow where
  stableId : String
  fields : List FieldRow
  deriving DecidableEq

inductive TypeShape
  | record (fields : List FieldRow)
  | variant (cases : List CaseRow)
  deriving DecidableEq

structure TypeDecl where
  stableId : String
  shape : TypeShape
  deriving DecidableEq

/-- A root type, and the types that it refers to. -/
structure TypeGraph where
  rootTypeId : String
  types : List TypeDecl
  deriving DecidableEq

def TypeGraph.get (graph : TypeGraph) (stableId : String) : Option TypeDecl :=
  graph.types.find? fun decl => decl.stableId = stableId

structure Diagnostic where
  code : String
  message : String
  deriving DecidableEq

/-- A rule of admission is broken. -/
def invariant (field : String) : Diagnostic :=
  ⟨"SPX-Z202", "AgentInteractionSchema invariant failed: " ++ field⟩

section Derive

variable (resolved : ResolvedProgram)

/-- The identity of a declaration is persistent. -/
def persistent (id field : String) : Except Diagnostic Unit :=
  match resolved.declarations.lookup id with
  | none => .error (invariant "type.unresolved")
  | some origin => if origin.isPersistent then .ok () else .error (invariant field)

def ResolvedProgram.declaration (id : String) : Option ResolvedTypeDeclaration :=
  resolved.types.find? fun declaration => declaration.id = id

section Fields

-- `derive_one` one step deeper, from the types that are derived to those that are then
variable (descend : String → List TypeDecl → Except Diagnostic (List TypeDecl))

def classify (ty : ResolvedType) (types : List TypeDecl) :
    Except Diagnostic (FieldType × List TypeDecl) :=
  match Representation.ofScalar ty with
  | some representation => .ok (.scalar representation, types)
  | none =>
    match ty with
    | .nominal declaration arguments =>
      if arguments.isEmpty then do
        let types ← descend declaration types
        pure (.nested declaration, types)
      else .error (invariant "type.field.generic_argument")
    | _ => .error (invariant "type.field.unsupported")

def fieldRows : List ResolvedFieldDeclaration → List TypeDecl →
    Except Diagnostic (List FieldRow × List TypeDecl)
  | [], types => .ok ([], types)
  | field :: fields, types => do
      persistent resolved field.id "type.field.identity_origin"
      let (ty, types) ← classify descend field.ty types
      let (rows, types) ← fieldRows fields types
      pure (⟨field.id, ty⟩ :: rows, types)

def caseRows : List ResolvedVariantCaseDeclaration → List TypeDecl →
    Except Diagnostic (List CaseRow × List TypeDecl)
  | [], types => .ok ([], types)
  | case :: cases, types => do
      persistent resolved case.id "type.case.identity_origin"
      let (fields, types) ← fieldRows resolved descend case.fields types
      let (rows, types) ← caseRows cases types
      pure (⟨case.id, fields⟩ :: rows, types)

def shapeOf (kind : ResolvedTypeDeclarationKind) (types : List TypeDecl) :
    Except Diagnostic (TypeShape × List TypeDecl) :=
  match kind with
  | .record fields => do
      let (rows, types) ← fieldRows resolved descend fields types
      pure (.record rows, types)
  | .variant cases =>
    if cases.isEmpty then .error (invariant "type.cases")
    else do
      let (rows, types) ← caseRows resolved descend cases types
      pure (.variant rows, types)
  | .resource | .class_ => .error (invariant "type.kind")

end Fields

/-- Derive a type at depth `maxDepth + 1 - left`. The types that are open are `visiting`; they are
the same after the call as before it. -/
def deriveOne : Nat → List String → String → List TypeDecl → Except Diagnostic (List TypeDecl)
  | left, visiting, typeId, types =>
    if types.any fun decl => decl.stableId = typeId then .ok types
    else if typeId ∈ visiting then .error (invariant "type.recursive")
    else
      match left with
      | 0 => .error (invariant "type.max_depth")
      | left + 1 =>
        if types.length ≥ maxTypes then .error (invariant "type.max_types")
        else
          match resolved.declaration typeId with
          | none => .error (invariant "type.unresolved")
          | some declaration =>
            if declaration.typeParameters.isEmpty then do
              persistent resolved typeId "type.identity_origin"
              let (shape, types) ← shapeOf resolved (deriveOne left (visiting ++ [typeId]))
                declaration.kind types
              pure (types ++ [⟨typeId, shape⟩])
            else .error (invariant "type.generic")

def derive (rootTypeId : String) : Except Diagnostic TypeGraph := do
  let types ← deriveOne resolved (maxDepth + 1) [] rootTypeId []
  pure ⟨rootTypeId, types⟩

end Derive

end Semaprax.InteractionSchema
