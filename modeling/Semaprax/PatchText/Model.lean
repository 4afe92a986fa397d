/-
**The text of a semantic patch** (`patch.rs`).

A patch is read from the lines of a text. In the first two schemas a line is an instruction of words
with any whitespace between them, and empty lines and comments are left out; the third schema is three
lines that are exact to the letter. One printer writes all of them.

* `SemanticPatch`, `PreflightOperation` — what a text is read into.
* `canonicalPatch` — the text that is written.
* `parsePatch`, `parsePatchV3` — the texts that are read.

Texts are cut as lists of characters. A diagnostic is its code and its message.
-/

import Semaprax.Library.Lines

namespace Semaprax.PatchText

open Library

structure Diagnostic where
  code : String
  message : String
deriving DecidableEq

inductive PatchSchema
  | v1
  | v2
  | v3
deriving DecidableEq

inductive ScalarType
  | i64
  | bool
deriving DecidableEq

def ScalarType.parse (value : String) : Option ScalarType :=
  if value = "i64" then some .i64 else if value = "bool" then some .bool else none

def ScalarType.text : ScalarType → String
  | .i64 => "i64"
  | .bool => "bool"

structure Rename where
  stableId : String
  newName : String
  operationIndex : Nat
deriving DecidableEq

structure RenameMember where
  owner : String
  member : String
  newName : String
  operationIndex : Nat
deriving DecidableEq

structure RenameCase where
  owner : String
  case : String
  newName : String
  operationIndex : Nat
deriving DecidableEq

structure ReplaceCallTypeArgument where
  expression : String
  template : String
  oldInstance : String
  index : UInt32
  source : ScalarType
  target : ScalarType
  operationIndex : Nat
deriving DecidableEq

structure AssignFunctionId where
  repairId : String
  target : String
  name : String
  newId : String
deriving DecidableEq

inductive PreflightOperation
  | assignFunctionId (index : Nat) (repairId target name newId : String)
  | rename (index : Nat) (target newName : String)
  | renameMember (index : Nat) (owner member newName : String)
  | renameCase (index : Nat) (owner case newName : String)
  | replaceCallTypeArgument (index : Nat) (expression template oldInstance : String)
      (argumentIndex : UInt32) (source target : ScalarType)
  | requireNoNewEffects (index : Nat)
deriving DecidableEq

structure SemanticPatch where
  schema : PatchSchema
  base : String
  renames : List Rename
  memberRenames : List RenameMember
  caseRenames : List RenameCase
  callTypeArgumentReplacements : List ReplaceCallTypeArgument
  noNewEffects : Bool
  assignFunctionId : Option AssignFunctionId
  operations : List PreflightOperation
deriving DecidableEq

def PreflightOperation.line : PreflightOperation → String
  | .assignFunctionId _ repairId target name newId =>
    "assign-function-id repair " ++ repairId ++ " diagnostic SPX-S103" ++ " target " ++ target ++
      " name " ++ name ++ " to " ++ newId ++ "\n"
  | .rename _ target newName => "rename " ++ target ++ " to " ++ newName ++ "\n"
  | .renameMember _ owner member newName =>
    "rename-member owner " ++ owner ++ " member " ++ member ++ " to " ++ newName ++ "\n"
  | .renameCase _ owner case newName =>
    "rename-case owner " ++ owner ++ " case " ++ case ++ " to " ++ newName ++ "\n"
  | .replaceCallTypeArgument _ expression template oldInstance argumentIndex source target =>
    "replace-call-type-argument expression " ++ expression ++ " template " ++ template ++
      " old-instance " ++ oldInstance ++ " index " ++ toString argumentIndex ++ " from " ++
      source.text ++ " to " ++ target.text ++ "\n"
  | .requireNoNewEffects _ => "require no-new-effects\n"

def PatchSchema.line : PatchSchema → String
  | .v1 => ""
  | .v2 => "schema semaprax.semantic-patch.v2\n"
  | .v3 => "schema semaprax.semantic-patch.v3\n"

def canonicalPatch (patch : SemanticPatch) : String :=
  patch.operations.foldl (fun output operation => output ++ operation.line)
    (patch.schema.line ++ "base " ++ patch.base ++ "\n")

inductive PatchSelector
  | assignFunctionId (target : String)
  | rename (target : String)
  | renameMember (owner member : String)
  | renameCase (owner case : String)
  | replaceCallTypeArgument (expression : String) (index : UInt32)
  | requireNoNewEffects
deriving DecidableEq

def PatchSelector.label : PatchSelector → String
  | .assignFunctionId target => "assign:" ++ target
  | .rename target => "rename:" ++ target
  | .renameMember owner member => "member:" ++ owner ++ ":" ++ member
  | .renameCase owner case => "case:" ++ owner ++ ":" ++ case
  | .replaceCallTypeArgument expression index => "call:" ++ expression ++ ":" ++ toString index
  | .requireNoNewEffects => "require:no-new-effects"

/-- An instruction of the first two schemas. -/
inductive Instruction
  | base (revision : String)
  | rename (stableId newName : String)
  | renameMember (owner member newName : String)
  | renameCase (owner case newName : String)
  | replaceCallTypeArgument (expression template oldInstance : String) (index : UInt32)
      (source target : ScalarType)
  | requireNoNewEffects

/-- An unsigned number of 32 bits, with an optional plus (`parse`). -/
def parseU32 (text : List Char) : Option UInt32 :=
  let digits := match text with
    | '+' :: digits => digits
    | _ => text
  if digits.isEmpty ∨ ¬ digits.all Char.isDigit ∨ Nat.ofDigitChars 10 digits 0 ≥ 2 ^ 32 then none
  else some (UInt32.ofNat (Nat.ofDigitChars 10 digits 0))

/-- The instruction that the words of a line are. -/
def readInstruction (schema : PatchSchema) : List String → Option Instruction
  | ["base", revision] => some (.base revision)
  | ["rename", stableId, "to", newName] => some (.rename stableId newName)
  | ["rename-member", "owner", owner, "member", member, "to", newName] =>
    if schema = .v2 then some (.renameMember owner member newName) else none
  | ["rename-case", "owner", owner, "case", case, "to", newName] =>
    if schema = .v2 then some (.renameCase owner case newName) else none
  | ["replace-call-type-argument", "expression", expression, "template", template,
      "old-instance", oldInstance, "index", index, "from", source, "to", target] =>
    if schema = .v2 then do
      let number ← (parseU32 index.toList).filter fun value => toString value = index
      let source ← ScalarType.parse source
      let target ← ScalarType.parse target
      some (.replaceCallTypeArgument expression template oldInstance number source target)
    else none
  | ["require", "no-new-effects"] => some .requireNoNewEffects
  | _ => none

/-- What has been read so far. -/
structure Parsing where
  base : Option String
  renames : List Rename
  memberRenames : List RenameMember
  caseRenames : List RenameCase
  callTypeArgumentReplacements : List ReplaceCallTypeArgument
  noNewEffects : Bool
  selectors : List PatchSelector
  operations : List PreflightOperation

def Parsing.new : Parsing := ⟨none, [], [], [], [], false, [], []⟩

def patchConflict (message : String) : Diagnostic := ⟨"SPX-G106", message⟩

/-- In the second schema nothing is selected twice. -/
def rejectDuplicateSelector (schema : PatchSchema) (state : Parsing) (selector : PatchSelector) :
    Except Diagnostic Parsing :=
  if schema = .v2 then
    if selector ∈ state.selectors then
      .error (patchConflict ("duplicate semantic patch selector " ++ "`" ++ selector.label ++ "`"))
    else .ok
      { state with selectors := selector :: state.selectors }
  else .ok state

def applyInstruction (schema : PatchSchema) (state : Parsing) :
    Instruction → Except Diagnostic Parsing
  | .base revision =>
    if schema = .v2 ∧ state.base.isSome then
      .error (patchConflict "duplicate `base` instruction")
    else .ok
      { state with base := some revision }
  | .rename stableId newName => do
      let state ← rejectDuplicateSelector schema state (.rename stableId)
      let operationIndex := state.operations.length
      pure
        { state with
          operations := state.operations ++ [.rename operationIndex stableId newName]
          renames := state.renames ++ [⟨stableId, newName, operationIndex⟩] }
  | .renameMember owner member newName => do
      let state ← rejectDuplicateSelector schema state (.renameMember owner member)
      let operationIndex := state.operations.length
      pure
        { state with
          operations := state.operations ++ [.renameMember operationIndex owner member newName]
          memberRenames := state.memberRenames ++ [⟨owner, member, newName, operationIndex⟩] }
  | .renameCase owner case newName => do
      let state ← rejectDuplicateSelector schema state (.renameCase owner case)
      let operationIndex := state.operations.length
      pure
        { state with
          operations := state.operations ++ [.renameCase operationIndex owner case newName]
          caseRenames := state.caseRenames ++ [⟨owner, case, newName, operationIndex⟩] }
  | .replaceCallTypeArgument expression template oldInstance index source target => do
      let state ← rejectDuplicateSelector schema state (.replaceCallTypeArgument expression index)
      let operationIndex := state.operations.length
      pure
        { state with
          operations := state.operations ++ [.replaceCallTypeArgument operationIndex expression
            template oldInstance index source target]
          callTypeArgumentReplacements := state.callTypeArgumentReplacements ++
            [⟨expression, template, oldInstance, index, source, target, operationIndex⟩] }
  | .requireNoNewEffects => do
      let state ← rejectDuplicateSelector schema state .requireNoNewEffects
      pure
        { state with
          operations := state.operations ++ [.requireNoNewEffects state.operations.length]
          noNewEffects := true }

def lineWords (line : List Char) : List String := (words line).map String.ofList

def invalidInstruction (lineIndex : Nat) (line : List Char) : Diagnostic :=
  ⟨"SPX-G101", "invalid semantic patch instruction on line " ++ toString (lineIndex + 1) ++ ": " ++
    String.ofList line⟩

def parseLine (schema : PatchSchema) (state : Parsing) (entry : Nat × List Char) :
    Except Diagnostic Parsing :=
  match readInstruction schema (lineWords entry.2) with
  | none => .error (invalidInstruction entry.1 entry.2)
  | some instruction => applyInstruction schema state instruction

/-- The lines that are neither empty nor a comment, with their places. -/
def meaningful (source : String) : List (Nat × List Char) :=
  (lines source.toList).zipIdx.filterMap fun (line, index) =>
    if (trim line).isEmpty ∨ (trim line).head? = some '#' then none else some (index, trim line)

def schemaV2 : List Char := "schema semaprax.semantic-patch.v2".toList

def schemaV3 : List Char := "schema semaprax.semantic-patch.v3".toList

/-- The schema that the first meaningful line names. -/
def schemaOf (first : Option (List Char)) : Except Diagnostic PatchSchema :=
  match first with
  | none => .ok .v1
  | some line =>
    if line = schemaV2 then .ok .v2
    else if "schema ".toList <+: line then
      .error ⟨"SPX-G101", "unknown semantic patch schema: " ++ String.ofList line⟩
    else .ok .v1

/-- A text of three exact lines. -/
def parsePatchV3 (source : String) : Except Diagnostic SemanticPatch :=
  if source.toList.getLast? ≠ some '\n' then
    .error ⟨"SPX-G101", "semantic patch v3 must be exactly three LF-terminated lines"⟩
  else if '\r' ∈ source.toList.dropLast then
    .error ⟨"SPX-G101", "semantic patch v3 must use LF line endings"⟩
  else
    match source.toList.dropLast.splitOn '\n' with
    | [schema, baseLine, assignment] =>
      if schema ≠ schemaV3 then
        .error ⟨"SPX-G101", "semantic patch v3 must contain exactly schema, base, and " ++
          "assign-function-id lines"⟩
      else
        match lineWords baseLine with
        | ["base", baseRevision] =>
          if baseLine ≠ ("base " ++ baseRevision).toList then
            .error ⟨"SPX-G101", "semantic patch v3 base must use one canonical separator"⟩
          else
            match lineWords assignment with
            | ["assign-function-id", "repair", repairId, "diagnostic", "SPX-S103", "target",
                target, "name", name, "to", newId] =>
              if assignment ≠ ("assign-function-id repair " ++ repairId ++
                  " diagnostic SPX-S103 target " ++ target ++ " name " ++ name ++ " to " ++
                  newId).toList then
                .error ⟨"SPX-G101", "semantic patch v3 assignment must use canonical " ++
                  "single-space separators"⟩
              else .ok
                { schema := .v3
                  base := baseRevision
                  renames := []
                  memberRenames := []
                  caseRenames := []
                  callTypeArgumentReplacements := []
                  noNewEffects := false
                  assignFunctionId := some ⟨repairId, target, name, newId⟩
                  operations := [.assignFunctionId 0 repairId target name newId] }
            | _ => .error
                ⟨"SPX-G101", "semantic patch v3 has an invalid assign-function-id line"⟩
        | _ => .error ⟨"SPX-G101", "semantic patch v3 has an invalid base line"⟩
    | _ =>
      .error ⟨"SPX-G101", "semantic patch v3 must contain exactly schema, base, and " ++
        "assign-function-id lines"⟩

/-- What has been read is a patch, if it has a base. -/
def Parsing.finish (schema : PatchSchema) (state : Parsing) : Except Diagnostic SemanticPatch :=
  match state.base with
  | none => .error ⟨"SPX-G102", "semantic patch is missing a `base <revision>` instruction"⟩
  | some base => .ok
      { schema := schema
        base := base
        renames := state.renames
        memberRenames := state.memberRenames
        caseRenames := state.caseRenames
        callTypeArgumentReplacements := state.callTypeArgumentReplacements
        noNewEffects := state.noNewEffects
        assignFunctionId := none
        operations := state.operations }

def parsePatch (source : String) : Except Diagnostic SemanticPatch :=
  if (lines source.toList).head? = some schemaV3 then parsePatchV3 source
  else do
    let entries := meaningful source
    let schema ← schemaOf (entries.head?.map Prod.snd)
    -- the line of the schema is passed over
    let instructions := if schema = .v2 then entries.tail else entries
    let state ← instructions.foldlM (parseLine schema) Parsing.new
    state.finish schema

end Semaprax.PatchText
