/-
**String literals of an emitted module** (`wasm.rs`).

* `readSigned` — how the format reads a signed number.
* `StringData`, `collectStringData` — the table of the literals of a program.
* `emitString` — the instructions at a literal: the offset is written as an unsigned number.
* `literals_denote_iff` — when every literal denotes its own bytes within the memory.
-/

import Mathlib

namespace Semaprax.WasmStrings

def readSigned (bits : Nat) : List UInt8 → Option (Int × List UInt8)
  | [] => none
  | byte :: rest =>
    let low := byte.toNat
    if low < 64 ∧ low < 2 ^ (bits - 1) then some (low, rest)
    else if 64 ≤ low ∧ low < 128 ∧ 128 ≤ low + 2 ^ (bits - 1) then some (low - 128, rest)
    else if 128 ≤ low ∧ 7 < bits then
      (readSigned (bits - 7) rest).map fun read => (128 * read.1 + (low - 128), read.2)
    else none

def writeU32 (value : Nat) : List UInt8 :=
  if value / 128 = 0 then [UInt8.ofNat (value % 128)]
  else UInt8.ofNat (value % 128 + 128) :: writeU32 (value / 128)
termination_by value

def writeI64 (value : Int) : List UInt8 :=
  let byte := (value % 128).toNat
  if value / 128 = 0 ∧ byte < 64 ∨ value / 128 = -1 ∧ 64 ≤ byte then [UInt8.ofNat byte]
  else UInt8.ofNat (byte + 128) :: writeI64 (value / 128)
termination_by value.natAbs
decreasing_by omega

/-- An expression is a literal, or it has subexpressions, in the order in which they are visited. -/
inductive ResolvedExpr
  | string (value : List UInt8)
  | node (children : List ResolvedExpr)

structure ResolvedFunction where
  body : ResolvedExpr
  requires : List ResolvedExpr
  ensures : List ResolvedExpr

def ResolvedFunction.roots (function : ResolvedFunction) : List ResolvedExpr :=
  function.body :: (function.requires ++ function.ensures)

/-- A program with its functions, those of them and of their instances that are emitted, and whether
it exports texts. -/
structure ResolvedProgram where
  functions : List ResolvedFunction
  executableFunctions : List ResolvedFunction
  textExports : Bool

def stringDataBase : Nat := 1024

structure StringData where
  offsets : List (List UInt8 × Nat)
  bytes : List UInt8

def StringData.intern (data : StringData) (value : List UInt8) : StringData :=
  (data.offsets.lookup value).elim
    { offsets := (value, (stringDataBase + data.bytes.length) % 2 ^ 32) :: data.offsets
      bytes := data.bytes ++ value }
    fun _ => data

theorem sizeOf_append (first second : List ResolvedExpr) :
    sizeOf (first ++ second) + 1 = sizeOf first + sizeOf second := by
  induction first with
  | nil => exact Nat.add_comm _ _
  | cons expr first ih =>
    simp only [List.cons_append, List.cons.sizeOf_spec]
    omega

/-- The loop over the pending expressions, the next one first. -/
def collectPending (data : StringData) : List ResolvedExpr → StringData
  | [] => data
  | .string value :: pending => collectPending (data.intern value) pending
  | .node children :: pending => collectPending data (children ++ pending)
termination_by pending => sizeOf pending
decreasing_by
  · simp only [List.cons.sizeOf_spec]
    omega
  · have joined := sizeOf_append children pending
    simp only [List.cons.sizeOf_spec, ResolvedExpr.node.sizeOf_spec]
    omega

def collectStringData (program : ResolvedProgram) : StringData :=
  collectPending ⟨[], []⟩ (program.functions.flatMap ResolvedFunction.roots).reverse

/-- A literal that is not in the table is refused. -/
def emitString (table : StringData) (value : List UInt8) : Except String (List UInt8) :=
  (table.offsets.lookup value).elim (.error "SPX-W116") fun offset =>
    .ok (65 :: (writeU32 offset ++ 65 :: (writeI64 value.length ++ 16 :: writeU32 7)))

def memoryPages (program : ResolvedProgram) : Nat := if program.textExports then 3 else 1

/-- A literal stands in an expression. -/
inductive Occurs (value : List UInt8) : ResolvedExpr → Prop
  | here : Occurs value (.string value)
  | within {child : ResolvedExpr} {children : List ResolvedExpr} :
      child ∈ children → Occurs value child → Occurs value (.node children)

def Emitted (program : ResolvedProgram) (value : List UInt8) : Prop :=
  ∃ function ∈ program.executableFunctions, ∃ root ∈ function.roots, Occurs value root

/-- The two immediates of the instructions are the offset and the length of the literal's bytes in the
data segment, which is placed at `stringDataBase`. -/
def Denotes (segment : List UInt8) (value code : List UInt8) : Prop :=
  ∃ first second call, ∃ offset : Nat, code = 65 :: first ∧
    readSigned 32 first = some (((stringDataBase + offset : Nat) : Int), 65 :: second) ∧
    readSigned 32 second = some ((value.length : Int), call) ∧ value <+: segment.drop offset

/-- The data segment lies inside the declared memory. -/
def Fits (program : ResolvedProgram) : Prop :=
  stringDataBase + (collectStringData program).bytes.length ≤ memoryPages program * 65536

variable {value bytes rest : List UInt8} {table : StringData} {program : ResolvedProgram}
variable {offset length : Nat}

theorem readSigned_more {bits low : Nat} (wide : 7 < bits) (marked : 128 ≤ low) (small : low < 256)
    (rest : List UInt8) :
    readSigned bits (UInt8.ofNat low :: rest) =
      (readSigned (bits - 7) rest).map fun read =>
        (128 * read.1 + ((low : Int) - 128), read.2) := by
  rw [readSigned, UInt8.toNat_ofNat_of_lt' small, if_neg (by omega), if_neg (by omega),
    if_pos ⟨marked, wide⟩]

theorem readSigned_last {bits group : Nat} (wide : 8 ≤ bits) (small : group < 128)
    (rest : List UInt8) :
    readSigned bits (UInt8.ofNat group :: rest) =
      some (if group < 64 then (group : Int) else group - 128, rest) := by
  have byte : (UInt8.ofNat group).toNat = group :=
    UInt8.toNat_ofNat_of_lt' (by show _ < 256; omega)
  have bound : 2 ^ 7 ≤ 2 ^ (bits - 1) := Nat.pow_le_pow_right (by omega) (by omega)
  rw [readSigned, byte]
  by_cases positive : group < 64
  · rw [if_pos (by omega), if_pos positive]
  · rw [if_neg (by omega), if_pos (by omega), if_neg positive]

theorem readSigned_writeI64 (bits length : Nat) (rest : List UInt8) (fits : length < 2 ^ (bits - 1)) :
    readSigned bits (writeI64 length ++ rest) = some ((length : Int), rest) := by
  induction length using Nat.strong_induction_on generalizing bits with
  | _ length ih =>
    rw [writeI64]
    by_cases last : length < 64
    · have byte : (UInt8.ofNat ((length : Int) % 128).toNat).toNat = length := by
        rw [UInt8.toNat_ofNat_of_lt' (by show _ < 256; omega)]
        omega
      rw [if_pos (by omega), List.singleton_append, readSigned, byte]
      exact if_pos ⟨last, fits⟩
    · have wide : 7 < bits := by
        by_contra narrow
        have bound : 2 ^ (bits - 1) ≤ 2 ^ 6 := Nat.pow_le_pow_right (by omega) (by omega)
        omega
      have group : ((length : Int) % 128).toNat = length % 128 := by omega
      have next : (length : Int) / 128 = (length / 128 : Nat) := by omega
      have split : 2 ^ (bits - 1) = 128 * 2 ^ (bits - 7 - 1) := by
        rw [show bits - 1 = 7 + (bits - 7 - 1) by omega, pow_add]
        rfl
      rw [if_neg (by omega), group, next, List.cons_append, readSigned_more wide (by omega) (by omega),
        ih _ (by omega) _ (by omega), Option.map_some]
      refine congrArg some (Prod.ext ?_ rfl)
      show 128 * ((length / 128 : Nat) : Int) + (((length % 128 + 128 : Nat) : Int) - 128) = length
      omega

/-- **An offset is misread** if the last group of its unsigned form has its sixth bit set. -/
theorem readSigned_writeU32 (rest : List UInt8) (low : 1024 ≤ offset) (high : offset ≤ 3 * 65536) :
    readSigned 32 (writeU32 offset ++ rest) =
      some (if 8192 ≤ offset ∧ offset < 16384 then (offset : Int) - 16384 else offset, rest) := by
  have group : offset / 128 % 128 < 128 := Nat.mod_lt _ (by omega)
  rw [writeU32, if_neg (by omega), List.cons_append, readSigned_more (by omega) (by omega) (by omega),
    writeU32]
  by_cases short : offset < 16384
  · rw [if_pos (by omega), List.singleton_append, readSigned_last (by omega) group, Option.map_some]
    refine congrArg some (Prod.ext ?_ rfl)
    dsimp only
    split_ifs <;> omega
  · have last : offset / 128 / 128 % 128 < 128 := Nat.mod_lt _ (by omega)
    rw [if_neg (by omega), List.cons_append, readSigned_more (by omega) (by omega) (by omega),
      writeU32, if_pos (by omega), List.singleton_append, readSigned_last (by omega) last,
      Option.map_some, Option.map_some, if_pos (by omega), if_neg (by omega)]
    refine congrArg some (Prod.ext ?_ rfl)
    dsimp only
    omega

/-- The literals in the order in which they are visited. -/
def visited : List ResolvedExpr → List (List UInt8)
  | [] => []
  | .string value :: pending => value :: visited pending
  | .node children :: pending => visited (children ++ pending)
termination_by pending => sizeOf pending
decreasing_by
  · simp only [List.cons.sizeOf_spec]
    omega
  · have joined := sizeOf_append children pending
    simp only [List.cons.sizeOf_spec, ResolvedExpr.node.sizeOf_spec]
    omega

/-- The literals of a program, and how many bytes the distinct ones of some texts have. -/
def ResolvedProgram.literals (program : ResolvedProgram) : List (List UInt8) :=
  visited (program.functions.flatMap ResolvedFunction.roots).reverse

def distinctBytes (texts : List (List UInt8)) : Nat := ∑ text ∈ texts.toFinset, text.length

theorem distinctBytes_concat (texts : List (List UInt8)) (value : List UInt8) :
    distinctBytes (texts ++ [value]) =
      distinctBytes texts + if value ∈ texts then 0 else value.length := by
  have inserted : (texts ++ [value]).toFinset = insert value texts.toFinset := by
    ext text
    simp
  unfold distinctBytes
  rw [inserted]
  by_cases known : value ∈ texts
  · rw [if_pos known, Finset.insert_eq_self.mpr (List.mem_toFinset.mpr known), add_zero]
  · rw [if_neg known, Finset.sum_insert (mt List.mem_toFinset.mp known), add_comm]

theorem split_concat {seen front back : List (List UInt8)} {other : List UInt8}
    (same : seen ++ [value] = front ++ other :: back) :
    seen = front ∧ value = other ∨ ∃ rest, seen = front ++ other :: rest := by
  rcases List.eq_nil_or_concat' back with rfl | ⟨rest, last, rfl⟩
  · obtain ⟨rfl, single⟩ := List.append_inj' same rfl
    exact .inl ⟨rfl, (List.cons.inj single).1⟩
  · rw [← List.cons_append, ← List.append_assoc] at same
    exact .inr ⟨rest, (List.append_inj' same rfl).1⟩

/-- The table of the texts seen so far: a text is at the bytes of the distinct ones before it. -/
structure Tables (seen : List (List UInt8)) (table : StringData) : Prop where
  length : table.bytes.length = distinctBytes seen
  unseen : ∀ value, value ∉ seen → table.offsets.lookup value = none
  placed : ∀ front value back, seen = front ++ value :: back → value ∉ front →
    table.offsets.lookup value = some ((stringDataBase + distinctBytes front) % 2 ^ 32) ∧
      value <+: table.bytes.drop (distinctBytes front)

theorem Tables.intern {seen : List (List UInt8)} (tables : Tables seen table)
    (value : List UInt8) : Tables (seen ++ [value]) (table.intern value) := by
  unfold StringData.intern
  by_cases known : value ∈ seen
  · obtain ⟨front, back, split, first⟩ := List.eq_append_cons_of_mem known
    rw [(tables.placed front value back split first).1]
    refine ⟨?_, fun other unseen => ?_, fun front other back same first => ?_⟩
    · rw [distinctBytes_concat, if_pos known]
      exact tables.length
    · exact tables.unseen other fun among => unseen (List.mem_append_left _ among)
    · rcases split_concat same with ⟨rfl, rfl⟩ | ⟨rest, same⟩
      · exact absurd known first
      · exact tables.placed front other rest same first
  · rw [tables.unseen value known, Option.elim_none]
    refine ⟨?_, fun other unseen => ?_, fun front other back same first => ?_⟩
    · rw [distinctBytes_concat, if_neg known, List.length_append, tables.length]
    · have different : other ≠ value := fun same =>
        unseen (same ▸ List.mem_append_right _ List.mem_cons_self)
      rw [List.lookup_cons, beq_eq_false_iff_ne.mpr different]
      exact tables.unseen other fun among => unseen (List.mem_append_left _ among)
    · rcases split_concat same with ⟨rfl, rfl⟩ | ⟨rest, same⟩
      · rw [List.lookup_cons, beq_self_eq_true, ← tables.length, List.drop_left]
        exact ⟨rfl, List.prefix_rfl⟩
      · obtain ⟨found, stands⟩ := tables.placed front other rest same first
        have different : other ≠ value := by
          intro equal
          rw [← equal, same] at known
          exact known (List.mem_append_right _ List.mem_cons_self)
        rw [List.lookup_cons, beq_eq_false_iff_ne.mpr different]
        exact ⟨found, stands.trans (List.IsPrefix.drop (List.prefix_append _ _) _)⟩

theorem tables_collectPending {seen : List (List UInt8)} (tables : Tables seen table)
    (pending : List ResolvedExpr) :
    Tables (seen ++ visited pending) (collectPending table pending) := by
  induction table, pending using collectPending.induct generalizing seen with
  | case1 table =>
    rw [collectPending, visited, List.append_nil]
    exact tables
  | case2 table value pending ih =>
    rw [collectPending, visited, List.append_cons]
    exact ih (tables.intern value)
  | case3 table children pending ih =>
    rw [collectPending, visited]
    exact ih tables

theorem tables_collectStringData (program : ResolvedProgram) :
    Tables program.literals (collectStringData program) :=
  @tables_collectPending ⟨[], []⟩ []
    ⟨rfl, fun _ _ => rfl, fun front _ _ same => by cases front <;> cases same⟩ _

/-- **When literals denote their own bytes.** The data segment lies in the memory and every literal
that is emitted denotes its bytes there, exactly if the distinct literals fit into it and no literal
that is emitted is first met with from 7168 up to 15359 bytes of distinct ones before it. -/
theorem literals_denote_iff (program : ResolvedProgram) :
    (Fits program ∧ ∀ value code, Emitted program value →
      emitString (collectStringData program) value = .ok code →
      Denotes (collectStringData program).bytes value code) ↔
    1024 + distinctBytes program.literals ≤ memoryPages program * 65536 ∧
      ∀ front value back, program.literals = front ++ value :: back → value ∉ front →
        Emitted program value → ¬ (7168 ≤ distinctBytes front ∧ distinctBytes front < 15360) := by
  have tables := tables_collectStringData program
  unfold Fits
  rw [tables.length]
  refine and_congr_right fun fits => ?_
  have base : stringDataBase = 1024 := rfl
  have pages : memoryPages program ≤ 3 := by
    unfold memoryPages
    split_ifs <;> omega
  have placed {front back : List (List UInt8)} {value : List UInt8}
      (split : program.literals = front ++ value :: back) (first : value ∉ front) :
      (collectStringData program).offsets.lookup value = some (1024 + distinctBytes front) ∧
        distinctBytes front + value.length ≤ distinctBytes program.literals ∧
        value <+: (collectStringData program).bytes.drop (distinctBytes front) := by
    obtain ⟨found, stands⟩ := tables.placed front value back split first
    have long := stands.length_le
    rw [List.length_drop, tables.length] at long
    have before : distinctBytes front ≤ distinctBytes program.literals := by
      refine Finset.sum_le_sum_of_subset fun text among => ?_
      rw [split]
      exact List.mem_toFinset.mpr (List.mem_append_left _ (List.mem_toFinset.mp among))
    rw [Nat.mod_eq_of_lt (by omega)] at found
    exact ⟨found, by omega, stands⟩
  constructor
  · intro denotes front value back split first emitted misread
    obtain ⟨found, inside, -⟩ := placed split first
    obtain ⟨start, second, call, place, same, read, -, -⟩ :=
      denotes value _ emitted (by rw [emitString, found]; rfl)
    obtain ⟨-, rfl⟩ := List.cons.inj same
    rw [readSigned_writeU32 _ (by omega) (by omega), if_pos (by omega)] at read
    obtain ⟨negative, -⟩ := Prod.mk.inj (Option.some.inj read)
    omega
  · intro clear value code emitted made
    by_cases known : value ∈ program.literals
    · obtain ⟨front, back, split, first⟩ := List.eq_append_cons_of_mem known
      obtain ⟨found, inside, stands⟩ := placed split first
      have apart := clear front value back split first emitted
      rw [emitString, found] at made
      cases made
      refine ⟨_, writeI64 value.length ++ 16 :: writeU32 7, 16 :: writeU32 7, distinctBytes front,
        rfl, ?_, ?_, stands⟩
      · rw [readSigned_writeU32 _ (by omega) (by omega), if_neg (by omega), base]
      · exact readSigned_writeI64 32 _ _ (by omega)
    · rw [emitString, tables.unseen value known] at made
      cases made

/-- A program that evaluates one text and then the text `b`. -/
def twoTexts (first : List UInt8) : ResolvedProgram :=
  ⟨[⟨.node [.string first, .string [98]], [], []⟩], [⟨.node [.string first, .string [98]], [], []⟩],
    false⟩

theorem collect_twoTexts {first : List UInt8} (length : first.length = 7168) :
    collectStringData (twoTexts first) = ⟨[([98], 8192), (first, 1024)], first ++ [98]⟩ := by
  have other : ([98] == first) = false := by
    refine beq_eq_false_iff_ne.mpr fun same => ?_
    rw [← same] at length
    cases length
  show collectPending ⟨[], []⟩ [.node [.string first, .string [98]]] = _
  rw [collectPending, List.cons_append, collectPending, List.cons_append, collectPending,
    List.nil_append, collectPending]
  simp [StringData.intern, List.lookup_cons, other, length, stringDataBase]

/-- **A literal at 8192 is misread.** Behind 7168 bytes, the offset of `b` is read as a negative
number. -/
theorem literal_misread : ∃ code, Fits (twoTexts (List.replicate 7168 97)) ∧
    Emitted (twoTexts (List.replicate 7168 97)) [98] ∧
    emitString (collectStringData (twoTexts (List.replicate 7168 97))) [98] = .ok code ∧
    ¬ Denotes (collectStringData (twoTexts (List.replicate 7168 97))).bytes [98] code := by
  generalize same : List.replicate 7168 (97 : UInt8) = first
  have length : first.length = 7168 := same ▸ List.length_replicate
  have root : Occurs [98] (.node [.string first, .string [98]]) :=
    .within (List.mem_cons_of_mem _ List.mem_cons_self) .here
  refine ⟨65 :: (writeU32 8192 ++ 65 :: (writeI64 1 ++ 16 :: writeU32 7)), ?_, ?_, ?_, ?_⟩
  · unfold Fits
    rw [collect_twoTexts length, List.length_append, length]
    show 1024 + (7168 + 1) ≤ 1 * 65536
    omega
  · exact ⟨_, List.mem_cons_self, _, List.mem_cons_self, root⟩
  · rw [collect_twoTexts length]
    rfl
  · rintro ⟨start, second, call, offset, code, read, -, -⟩
    obtain ⟨-, rfl⟩ := List.cons.inj code
    rw [readSigned_writeU32 _ (by omega) (by omega)] at read
    obtain ⟨negative, -⟩ := Prod.mk.inj (Option.some.inj read)
    simp at negative
    omega

end Semaprax.WasmStrings
