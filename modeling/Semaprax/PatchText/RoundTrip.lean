/-
**The round trip of patch texts** (`patch.rs`).

A patch that is read is written as a text that is read as the same patch: the words of an operation
are those of the line that it was read from, and nothing else of the line matters.

* `readInstruction_words`, `applyInstruction_cases` — what a line adds to a patch.
* `Replays`, `replays_foldlM` — the operations so far are read again, with any base.
* `canonicalPatch_lines` — a patch as lines of words.
* `parsePatch_canonical` — **what is written is read back**.
-/

import Semaprax.Library.Results
import Semaprax.PatchText.Model

namespace Semaprax.PatchText

open Library

def Instruction.words : Instruction → List String
  | .base revision => ["base", revision]
  | .rename stableId newName => ["rename", stableId, "to", newName]
  | .renameMember owner member newName =>
    ["rename-member", "owner", owner, "member", member, "to", newName]
  | .renameCase owner case newName => ["rename-case", "owner", owner, "case", case, "to", newName]
  | .replaceCallTypeArgument expression template oldInstance index source target =>
    ["replace-call-type-argument", "expression", expression, "template", template, "old-instance",
      oldInstance, "index", toString index, "from", source.text, "to", target.text]
  | .requireNoNewEffects => ["require", "no-new-effects"]

def PreflightOperation.words : PreflightOperation → List String
  | .assignFunctionId _ repairId target name newId =>
    ["assign-function-id", "repair", repairId, "diagnostic", "SPX-S103", "target", target, "name",
      name, "to", newId]
  | .rename _ target newName => ["rename", target, "to", newName]
  | .renameMember _ owner member newName =>
    ["rename-member", "owner", owner, "member", member, "to", newName]
  | .renameCase _ owner case newName =>
    ["rename-case", "owner", owner, "case", case, "to", newName]
  | .replaceCallTypeArgument _ expression template oldInstance index source target =>
    ["replace-call-type-argument", "expression", expression, "template", template, "old-instance",
      oldInstance, "index", toString index, "from", source.text, "to", target.text]
  | .requireNoNewEffects _ => ["require", "no-new-effects"]

variable {schema : PatchSchema} {parts : List String} {instruction : Instruction}
variable {state after : Parsing} {word source base : String} {entries : List (Nat × List Char)}
variable {patch : SemanticPatch}

theorem ScalarType.text_of_parse {value : String} {scalar : ScalarType}
    (parsed : ScalarType.parse value = some scalar) : scalar.text = value := by
  unfold ScalarType.parse at parsed
  split_ifs at parsed with first second
  · cases parsed
    exact first.symm
  · cases parsed
    exact second.symm

theorem readInstruction_words
    (read : readInstruction schema parts = some instruction) : instruction.words = parts := by
  unfold readInstruction at read
  split at read
  · cases read
    rfl
  · cases read
    rfl
  · split_ifs at read
    cases read
    rfl
  · split_ifs at read
    cases read
    rfl
  · split_ifs at read
    obtain ⟨number, counted, read⟩ := Option.bind_eq_some_iff.mp read
    obtain ⟨source, first, read⟩ := Option.bind_eq_some_iff.mp read
    obtain ⟨target, second, read⟩ := Option.bind_eq_some_iff.mp read
    cases read
    have digits := of_decide_eq_true (Option.filter_eq_some_iff.mp counted).2
    show [_, _, _, _, _, _, _, _, toString number, _, source.text, _, target.text] = _
    rw [digits, ScalarType.text_of_parse first, ScalarType.text_of_parse second]
  · cases read
    rfl
  · cases read

theorem rejectDuplicateSelector_eq_ok {middle : Parsing}
    {selector : PatchSelector} (fresh : rejectDuplicateSelector schema state selector = .ok middle) :
    middle.base = state.base ∧ middle.operations = state.operations ∧
      ∀ base, rejectDuplicateSelector schema { state with base } selector =
        .ok { middle with base } := by
  unfold rejectDuplicateSelector at fresh ⊢
  split_ifs at fresh with second known
  · cases fresh
    refine ⟨rfl, rfl, fun base => ?_⟩
    rw [if_pos second, if_neg known]
  · cases fresh
    refine ⟨rfl, rfl, fun base => ?_⟩
    rw [if_neg second]

theorem applyInstruction_cases (applied : applyInstruction schema state instruction = .ok after) :
    (∃ revision, instruction = .base revision ∧ after = { state with base := some revision }) ∨
      ∃ operation : PreflightOperation, operation.words = instruction.words ∧
        after.operations = state.operations ++ [operation] ∧ after.base = state.base ∧
        ∀ base, applyInstruction schema { state with base } instruction = .ok { after with base } := by
  cases instruction with
  | base revision =>
    unfold applyInstruction at applied
    split_ifs at applied
    cases applied
    exact .inl ⟨revision, rfl, rfl⟩
  | _ =>
    right
    unfold applyInstruction at applied
    obtain ⟨middle, fresh, applied⟩ := bind_eq_ok.mp applied
    obtain ⟨base, operations, again⟩ := rejectDuplicateSelector_eq_ok fresh
    cases applied
    refine ⟨_, ?_, congrArg (· ++ _) operations, base, fun base => ?_⟩
    · rfl
    · exact bind_eq_ok.mpr ⟨_, again base, rfl⟩

/-- What has been read is read again from lines with the words of the operations, with any base; and
what it names are words. -/
structure Replays (schema : PatchSchema) (state : Parsing) : Prop where
  base : ∀ base, state.base = some base → IsWord base.toList
  words : ∀ operation ∈ state.operations, ∀ word ∈ operation.words, IsWord word.toList
  again : ∀ (base : Option String) (entries : List (Nat × List Char)),
    entries.map (fun entry => lineWords entry.2) = state.operations.map PreflightOperation.words →
      entries.foldlM (parseLine schema) { Parsing.new with base } = .ok { state with base }

theorem isWord_of_mem_lineWords {line : List Char} (member : word ∈ lineWords line) :
    IsWord word.toList := by
  obtain ⟨letters, among, rfl⟩ := List.mem_map.mp member
  rw [String.toList_ofList]
  exact isWord_of_mem_words among

theorem Replays.new (schema : PatchSchema) : Replays schema Parsing.new where
  base := fun _ same => by cases same
  words := List.forall_mem_nil _
  again := fun base entries same => by
    rw [List.map_eq_nil_iff.mp same]
    rfl

/-- **One more line.** -/
theorem Replays.line (replays : Replays schema state)
    {entry : Nat × List Char} (read : parseLine schema state entry = .ok after) :
    Replays schema after := by
  unfold parseLine at read
  cases named : readInstruction schema (lineWords entry.2) with
  | none =>
    rw [named] at read
    cases read
  | some instruction =>
    rw [named] at read
    have same := readInstruction_words named
    have solid : ∀ word ∈ instruction.words, IsWord word.toList := fun word member =>
      isWord_of_mem_lineWords (same ▸ member)
    rcases applyInstruction_cases read with
      ⟨revision, rfl, rfl⟩ | ⟨operation, parts, operations, base, applies⟩
    · refine ⟨fun base chosen => ?_, replays.words, replays.again⟩
      cases chosen
      exact solid _ (List.mem_cons_of_mem _ List.mem_cons_self)
    · refine ⟨fun other chosen => replays.base other (base ▸ chosen), fun other member => ?_,
        fun base entries fits => ?_⟩
      · rw [operations] at member
        rcases List.mem_append.mp member with member | member
        · exact replays.words other member
        · rw [List.mem_singleton.mp member, parts]
          exact solid
      · rw [operations, List.map_append] at fits
        obtain ⟨front, last, rfl, front', last'⟩ := List.map_eq_append_iff.mp fits
        obtain ⟨final, rfl, final'⟩ := List.map_eq_singleton_iff.mp last'
        rw [List.foldlM_append]
        refine bind_eq_ok.mpr ⟨_, replays.again base front front', ?_⟩
        have again : parseLine schema { state with base } final = .ok { after with base } := by
          unfold parseLine
          rw [final', parts, same, named]
          exact applies base
        rw [List.foldlM_cons, again]
        rfl

theorem replays_foldlM (replays : Replays schema state)
    (read : entries.foldlM (parseLine schema) state = .ok after) : Replays schema after := by
  induction entries generalizing state with
  | nil =>
    cases read
    exact replays
  | cons entry entries ih =>
    rw [List.foldlM_cons] at read
    obtain ⟨middle, first, rest⟩ := bind_eq_ok.mp read
    exact ih (replays.line first) rest

def textLine (parts : List String) : List Char := unwords (parts.map String.toList)

theorem textLine_cons (word next : String) (parts : List String) :
    textLine (word :: next :: parts) = word.toList ++ ' ' :: textLine (next :: parts) := by
  unfold textLine
  rw [List.map_cons, List.map_cons, unwords_cons _ (List.cons_ne_nil _ _)]

theorem textLine_singleton (word : String) : textLine [word] = word.toList := by
  unfold textLine
  rw [List.map_singleton, unwords_singleton]

theorem PreflightOperation.line_eq (operation : PreflightOperation) :
    operation.line.toList = textLine operation.words ++ ['\n'] := by
  cases operation with
  | _ =>
    dsimp only [PreflightOperation.line, PreflightOperation.words]
    simp only [String.toList_append, textLine_cons, textLine_singleton, List.append_assoc,
      List.cons_append]
    rfl

def PatchSchema.words : PatchSchema → List (List String)
  | .v1 => []
  | .v2 => [["schema", "semaprax.semantic-patch.v2"]]
  | .v3 => [["schema", "semaprax.semantic-patch.v3"]]

def SemanticPatch.words (patch : SemanticPatch) : List (List String) :=
  patch.schema.words ++ ["base", patch.base] :: patch.operations.map PreflightOperation.words

theorem foldl_lines (operations : List PreflightOperation) (output : String) :
    (operations.foldl (fun output operation => output ++ operation.line) output).toList =
      output.toList ++ unlines ((operations.map PreflightOperation.words).map textLine) := by
  induction operations generalizing output with
  | nil => exact (List.append_nil _).symm
  | cons operation operations ih =>
    rw [List.foldl_cons, ih, String.toList_append, operation.line_eq, List.map_cons, List.map_cons,
      unlines_cons, List.append_assoc, List.append_assoc, List.singleton_append]

/-- **A patch is written as the lines of its words.** -/
theorem canonicalPatch_lines (patch : SemanticPatch) :
    (canonicalPatch patch).toList = unlines (patch.words.map textLine) := by
  unfold canonicalPatch SemanticPatch.words
  rw [foldl_lines, List.map_append, unlines_append, List.map_cons, unlines_cons]
  have schema : patch.schema.line.toList = unlines (patch.schema.words.map textLine) := by
    cases patch.schema with
    | v1 => rfl
    | v2 | v3 => decide +kernel
  simp only [String.toList_append, schema, textLine_cons, textLine_singleton, List.append_assoc,
    List.cons_append]
  rfl

theorem lineWords_textLine (solid : ∀ word ∈ parts, IsWord word.toList) :
    lineWords (textLine parts) = parts := by
  have isWord : ∀ letters ∈ parts.map String.toList, IsWord letters := by
    intro letters member
    obtain ⟨word, among, rfl⟩ := List.mem_map.mp member
    exact solid word among
  unfold lineWords textLine
  rw [words_unwords isWord, List.map_map]
  exact (List.map_congr_left fun word _ => String.ofList_toList).trans (List.map_id _)

theorem isWord_of_all (nonempty : word ≠ "")
    (solid : (word.toList.all fun letter => !isWhitespace letter) = true) : IsWord word.toList where
  nonempty := by simpa using nonempty
  solid := fun letter member => by simpa using List.all_eq_true.mp solid letter member

/-- The line begins with a word that is no comment. -/
structure Opens (parts : List String) : Prop where
  solid : ∀ word ∈ parts, IsWord word.toList
  opens : ∃ letter, (textLine parts).head? = some letter ∧ letter ≠ '#'

theorem Opens.of_head {first : String} {rest : List String} {letter : Char}
    (solid : ∀ word ∈ first :: rest, IsWord word.toList) (starts : first.toList.head? = some letter)
    (plain : letter ≠ '#') : Opens (first :: rest) where
  solid := solid
  opens := by
    refine ⟨letter, ?_, plain⟩
    cases rest with
    | nil => rwa [textLine_singleton]
    | cons next rest =>
      have some' := (solid first List.mem_cons_self).nonempty
      rwa [textLine_cons, List.head?_append_of_ne_nil _ some']

theorem Opens.of_operation {operation : PreflightOperation}
    (solid : ∀ word ∈ operation.words, IsWord word.toList) : Opens operation.words := by
  cases operation with
  | assignFunctionId => exact .of_head solid (rfl : _ = some 'a') (by decide)
  | requireNoNewEffects => exact .of_head solid (rfl : _ = some 'r') (by decide)
  | _ => exact .of_head solid (rfl : _ = some 'r') (by decide)

theorem meaningful_zipIdx {texts : List (List Char)} (first : Nat)
    (kept : ∀ line ∈ texts, trim line = line ∧ ¬(line.isEmpty = true ∨ line.head? = some '#')) :
    ((texts.zipIdx first).filterMap fun (line, index) =>
      if (trim line).isEmpty ∨ (trim line).head? = some '#' then none
      else some (index, trim line)).map Prod.snd = texts := by
  induction texts generalizing first with
  | nil => rfl
  | cons line texts ih =>
    obtain ⟨same, plain⟩ := kept line List.mem_cons_self
    rw [List.zipIdx_cons, List.filterMap_cons_some (b := (first, line)), List.map_cons,
      ih (first + 1) fun other member => kept other (List.mem_cons_of_mem _ member)]
    dsimp only
    rw [same, if_neg plain]

/-- **The lines that are written** are the meaningful ones. -/
theorem meaningful_unlines {parts : List (List String)}
    (written : source.toList = unlines (parts.map textLine)) (opens : ∀ line ∈ parts, Opens line) :
    lines source.toList = parts.map textLine ∧
      (meaningful source).map Prod.snd = parts.map textLine := by
  have isWord : ∀ line ∈ parts, ∀ letters ∈ line.map String.toList, IsWord letters := by
    intro line member letters among
    obtain ⟨word, known, rfl⟩ := List.mem_map.mp among
    exact (opens line member).solid word known
  have cut : lines source.toList = parts.map textLine := by
    rw [written]
    refine lines_unlines fun text member => ?_
    obtain ⟨line, among, rfl⟩ := List.mem_map.mp member
    exact unwords_single (isWord line among)
  refine ⟨cut, ?_⟩
  unfold meaningful
  rw [cut]
  refine meaningful_zipIdx 0 fun text member => ?_
  obtain ⟨line, among, rfl⟩ := List.mem_map.mp member
  refine ⟨trim_unwords (isWord line among), ?_⟩
  obtain ⟨letter, starts, plain⟩ := (opens line among).opens
  rintro (empty | comment)
  · rw [List.isEmpty_iff.mp empty] at starts
    cases starts
  · rw [starts] at comment
    exact plain (Option.some.inj comment)

theorem Parsing.finish_eq_ok (finished : state.finish schema = .ok patch) :
    state.base = some patch.base ∧ patch.schema = schema ∧ patch.operations = state.operations := by
  unfold Parsing.finish at finished
  cases chosen : state.base with
  | none =>
    rw [chosen] at finished
    cases finished
  | some base =>
    rw [chosen] at finished
    cases finished
    exact ⟨rfl, rfl, rfl⟩

theorem schemaOf_eq_ok {first : Option (List Char)}
    (named : schemaOf first = .ok schema) : schema = .v1 ∨ schema = .v2 := by
  unfold schemaOf at named
  cases first with
  | none =>
    cases named
    exact .inl rfl
  | some line =>
    dsimp only at named
    split_ifs at named
    · cases named
      exact .inr rfl
    · cases named
      exact .inl rfl

theorem Replays.foldlM (replays : Replays schema state) (chosen : state.base = some base)
    (fits : entries.map (fun entry => lineWords entry.2) =
      ["base", base] :: state.operations.map PreflightOperation.words) :
    entries.foldlM (parseLine schema) Parsing.new = .ok state := by
  obtain ⟨entry, entries, rfl, first, rest⟩ := List.map_eq_cons_iff.mp fits
  have based : parseLine schema Parsing.new entry = .ok
      { Parsing.new with base := some base } := by
    unfold parseLine
    rw [first]
    show applyInstruction schema Parsing.new (.base base) = _
    exact if_neg fun both => absurd both.2 Bool.false_ne_true
  rw [List.foldlM_cons, based]
  show entries.foldlM (parseLine schema) _ = _
  rw [replays.again (some base) entries rest, ← chosen]

theorem parsePatch_of_lines (replays : Replays schema state)
    (finished : state.finish schema = .ok patch) {parts : List (List String)}
    (written : source.toList = unlines (parts.map textLine)) (opens : ∀ line ∈ parts, Opens line)
    (other : (parts.map textLine).head? ≠ some schemaV3)
    (named : schemaOf (parts.map textLine).head? = .ok schema)
    (rest : (if schema = .v2 then parts.tail else parts) =
      ["base", patch.base] :: patch.operations.map PreflightOperation.words) :
    parsePatch source = .ok patch := by
  obtain ⟨cut, entries⟩ := meaningful_unlines written opens
  obtain ⟨chosen, -, operations⟩ := Parsing.finish_eq_ok finished
  have back : (meaningful source).map (fun entry => lineWords entry.2) = parts := by
    have words := congrArg (List.map lineWords) entries
    rw [List.map_map, List.map_map] at words
    refine words.trans ((List.map_congr_left fun line member => ?_).trans (List.map_id parts))
    exact lineWords_textLine (opens line member).solid
  unfold parsePatch
  rw [cut, if_neg other]
  refine bind_eq_ok.mpr ⟨schema, ?_, bind_eq_ok.mpr ⟨state, ?_, finished⟩⟩
  · rw [← List.head?_map, entries]
    exact named
  · refine replays.foldlM chosen ?_
    rw [← operations, ← rest]
    split_ifs
    · rw [List.map_tail, back]
    · exact back

theorem schemaV2_head : schemaV2.head? = some 's' := rfl

theorem schemaV3_head : schemaV3.head? = some 's' := rfl

theorem schemaV2_ne : schemaV2 ≠ schemaV3 := by decide +kernel

theorem textLine_schema : textLine ["schema", "semaprax.semantic-patch.v2"] = schemaV2 := rfl

theorem opens_schema : Opens ["schema", "semaprax.semantic-patch.v2"] := by
  refine .of_head (fun word member => ?_) (rfl : _ = some 's') (by decide)
  rcases List.mem_cons.mp member with rfl | member
  · exact isWord_of_all (by decide) rfl
  · rw [List.mem_singleton.mp member]
    exact isWord_of_all (by decide) rfl

theorem isWord_base : IsWord "base".toList := isWord_of_all (by decide) rfl

theorem textLine_base_ne {text : List Char} (starts : text.head? = some 's') :
    textLine ["base", base] ≠ text := by
  intro equal
  have first : (textLine ["base", base]).head? = some 'b' := by
    rw [textLine_cons]
    rfl
  rw [equal, starts] at first
  exact absurd first (by decide)

theorem parsePatch_written (early : schema = .v1 ∨ schema = .v2) (replays : Replays schema state)
    (finished : state.finish schema = .ok patch) : parsePatch (canonicalPatch patch) = .ok patch := by
  obtain ⟨chosen, same, operations⟩ := Parsing.finish_eq_ok finished
  have based : Opens ["base", patch.base] := by
    refine .of_head (fun word member => ?_) (rfl : _ = some 'b') (by decide)
    rcases List.mem_cons.mp member with rfl | member
    · exact isWord_base
    · rw [List.mem_singleton.mp member]
      exact replays.base _ chosen
  have opens : ∀ line ∈ ["base", patch.base] :: patch.operations.map PreflightOperation.words,
      Opens line := by
    intro line member
    rcases List.mem_cons.mp member with rfl | member
    · exact based
    · obtain ⟨operation, among, rfl⟩ := List.mem_map.mp member
      exact .of_operation (replays.words operation (operations ▸ among))
  have written := canonicalPatch_lines patch
  unfold SemanticPatch.words at written
  rw [same] at written
  rcases early with rfl | rfl
  · refine parsePatch_of_lines replays finished written opens ?_ ?_ rfl
    · exact fun equal => textLine_base_ne schemaV3_head (Option.some.inj equal)
    · show schemaOf (some (textLine ["base", patch.base])) = _
      unfold schemaOf
      dsimp only
      rw [if_neg (textLine_base_ne schemaV2_head), if_neg]
      rintro ⟨more, equal⟩
      exact textLine_base_ne rfl equal.symm
  · refine parsePatch_of_lines replays finished written ?_ ?_ ?_ rfl
    · intro line member
      rcases List.mem_cons.mp member with rfl | member
      · exact opens_schema
      · exact opens line member
    · intro equal
      exact schemaV2_ne (textLine_schema.symm.trans (Option.some.inj equal))
    · show schemaOf (some (textLine ["schema", "semaprax.semantic-patch.v2"])) = _
      unfold schemaOf
      rw [textLine_schema]
      exact if_pos rfl

theorem baseLine_eq (revision : String) :
    ("base " ++ revision).toList = textLine ["base", revision] := by
  rw [textLine_cons, textLine_singleton, String.toList_append]
  rfl

theorem assignment_eq (repairId target name newId : String) :
    ("assign-function-id repair " ++ repairId ++ " diagnostic SPX-S103 target " ++ target ++
      " name " ++ name ++ " to " ++ newId).toList =
      textLine ["assign-function-id", "repair", repairId, "diagnostic", "SPX-S103", "target",
        target, "name", name, "to", newId] := by
  simp only [String.toList_append, textLine_cons, textLine_singleton, List.append_assoc]
  rfl

/-- **A text of the third schema is the text of the patch**, to the letter. -/
theorem canonicalPatch_of_parsePatchV3
    (parsed : parsePatchV3 source = .ok patch) : canonicalPatch patch = source := by
  unfold parsePatchV3 at parsed
  split_ifs at parsed with ended returns
  split at parsed
  · rename_i schema baseLine assignment cut
    split_ifs at parsed with named
    split at parsed
    · rename_i revision first
      split_ifs at parsed with based
      split at parsed
      · rename_i repairId target name newId second
        split_ifs at parsed with assigned
        cases parsed
        have joined : ['\n'].intercalate (source.toList.dropLast.splitOn '\n') =
            source.toList.dropLast := List.intercalate_splitOn '\n'
        rw [cut, not_not.mp named, not_not.mp based, not_not.mp assigned, baseLine_eq,
          assignment_eq] at joined
        refine String.toList_inj.mp ?_
        obtain ⟨letters, whole⟩ := List.getLast?_eq_some_iff.mp (not_not.mp ended)
        rw [whole, List.dropLast_concat] at joined
        rw [whole, ← joined, canonicalPatch_lines]
        show unlines [schemaV3, _, _] = _
        simp only [unlines_cons, List.intercalate, List.intersperse, List.flatten_cons,
          List.append_assoc]
        rfl
      · cases parsed
    · cases parsed
  · cases parsed

/-- **What is written is read back.** -/
theorem parsePatch_read
    (parsed : parsePatch source = .ok patch) : parsePatch (canonicalPatch patch) = .ok patch := by
  have read := parsed
  unfold parsePatch at read
  split_ifs at read with exact'
  · rw [canonicalPatch_of_parsePatchV3 read]
    exact parsed
  · obtain ⟨schema, named, read⟩ := bind_eq_ok.mp read
    obtain ⟨state, folded, finished⟩ := bind_eq_ok.mp read
    exact parsePatch_written (schemaOf_eq_ok named) (replays_foldlM (.new schema) folded) finished

/-- **The text of a patch is canonical.** What is read is written and read back, and two accepted
texts have one canonical text exactly when they are read as one patch. -/
theorem parsePatch_canonical : (∀ source patch, parsePatch source = .ok patch →
      parsePatch (canonicalPatch patch) = .ok patch ∧
        ∀ again, parsePatch (canonicalPatch patch) = .ok again →
          canonicalPatch again = canonicalPatch patch) ∧
      ∀ source source' patch patch', parsePatch source = .ok patch →
        parsePatch source' = .ok patch' →
        (canonicalPatch patch = canonicalPatch patch' ↔ patch = patch') := by
  refine ⟨fun source patch parsed => ⟨parsePatch_read parsed, fun again read => ?_⟩,
    fun source source' patch patch' first second => ⟨fun same => ?_, congrArg _⟩⟩
  · rw [parsePatch_read parsed] at read
    rw [Except.ok.inj read]
  · have read := parsePatch_read second
    rw [← same, parsePatch_read first] at read
    exact Except.ok.inj read

def renamePatch : SemanticPatch :=
  ⟨.v1, "r0", [⟨"f", "g", 0⟩], [], [], [], false, none, [.rename 0 "f" "g"]⟩

theorem parsePatch_renamePatch :
    parsePatch "# a comment\n  base   r0\n\nrename f\tto g" = .ok renamePatch := by
  decide +kernel

/-- The round trip of a text with a comment and other whitespace. -/
theorem parsePatch_canonical_rename :
    parsePatch "# a comment\n  base   r0\n\nrename f\tto g" = .ok renamePatch ∧
      parsePatch (canonicalPatch renamePatch) = .ok renamePatch :=
  ⟨parsePatch_renamePatch, (parsePatch_canonical.1 _ _ parsePatch_renamePatch).1⟩

end Semaprax.PatchText
