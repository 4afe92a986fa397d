/-
**Version ranges** (`package_range.rs`).

* `component`, `parseVersion`, `parseRange` — the parsers of versions and ranges.
* `Operator.Means` — what an operator says of a version; `Operator.Fits` — its upper bound is there.
* `parseVersion_eq_ok` — a version is read from its text and from no other.
* `ranges_mean` — a range contains the versions that its operator means, and a range that can be read
  is refused only for want of an upper bound.
-/

import Semaprax.Library.Decimals
import Semaprax.Library.Results
import Semaprax.PackageResolver.Catalog

namespace Semaprax.PackageResolver

open Library

section Parsers

variable (error : String → Diagnostic)

def component (value : Option (List Char)) (label : String) : Except Diagnostic UInt32 :=
  match value with
  | none => .error (error ("missing " ++ label ++ " component"))
  | some digits =>
    if digits.isEmpty ∨ utf8Length digits > 10 ∨
        (utf8Length digits > 1 ∧ digits.head? = some '0') ∨ ¬ digits.all Char.isDigit then
      .error (error (label ++ " component is not canonical unsigned decimal"))
    else if Nat.ofDigitChars 10 digits 0 < 2 ^ 32 then
      .ok (UInt32.ofNat (Nat.ofDigitChars 10 digits 0))
    else .error (error (label ++ " component overflows u32"))

def parseVersion (value : String) : Except Diagnostic Version :=
  if utf8Length value.toList > 32 then
    .error (error "version exceeds the frozen three-u32 byte width")
  else do
    let parts := value.toList.splitOn '.'
    let major ← component error parts[0]? "major"
    let minor ← component error parts[1]? "minor"
    let patch ← component error parts[2]? "patch"
    if parts[3]?.isSome then .error (error "version must contain exactly three components")
    else .ok ⟨major, minor, patch⟩

/-- `checked_add(1)`. -/
def checkedNext (value : UInt32) : Option UInt32 :=
  if value.toNat + 1 < 2 ^ 32 then some (value + 1) else none

def okOr {A : Type} (value : Option A) (diagnostic : Diagnostic) : Except Diagnostic A :=
  match value with
  | some value => .ok value
  | none => .error diagnostic

/-- A range is one operator, of one byte, and a version. -/
def parseRange (value : String) : Except Diagnostic Range :=
  match value.toList with
  | [] => .error (error "range must begin with one frozen operator")
  | operator :: version =>
    if operator.utf8Size ≠ 1 then .error (error "range must begin with one frozen operator")
    else do
      let lower ← parseVersion error (String.ofList version)
      if operator = '=' then .ok (.exact lower)
      else if operator = '~' then do
        let minor ← okOr (checkedNext lower.minor) (error "tilde upper bound overflows")
        .ok (.bounded lower ⟨lower.major, minor, 0⟩)
      else if operator = '^' then
        if lower.major > 0 then do
          let major ← okOr (checkedNext lower.major) (error "caret upper bound overflows")
          .ok (.bounded lower ⟨major, 0, 0⟩)
        else if lower.minor > 0 then do
          let minor ← okOr (checkedNext lower.minor) (error "caret upper bound overflows")
          .ok (.bounded lower ⟨0, minor, 0⟩)
        else do
          let patch ← okOr (checkedNext lower.patch) (error "caret upper bound overflows")
          .ok (.bounded lower ⟨0, 0, patch⟩)
      else .error (error "unsupported version-range operator")

end Parsers

/-- The canonical text of a version. -/
def Version.render (version : Version) : String :=
  toString version.major.toNat ++ "." ++ toString version.minor.toNat ++ "." ++
    toString version.patch.toNat

/-- The operators of ranges. -/
inductive Operator
  | exact
  | tilde
  | caret
deriving DecidableEq, Repr

def Operator.symbol : Operator → String
  | .exact => "="
  | .tilde => "~"
  | .caret => "^"

/-- Two versions agree up to and including the leftmost component of the first that is not zero, or on
all components. -/
def Version.Compatible (base version : Version) : Prop :=
  version.major = base.major ∧ (base.major = 0 → version.minor = base.minor ∧
    (base.minor = 0 → version.patch = base.patch))

def Operator.Means (base version : Version) : Operator → Prop
  | .exact => version = base
  | .tilde => base ≤ version ∧ version.major = base.major ∧ version.minor = base.minor
  | .caret => base ≤ version ∧ base.Compatible version

/-- The component that the upper bound of an operator advances: the minor one for a tilde, the leftmost
one that is not zero or else the last one for a caret. -/
def Operator.advanced (base : Version) : Operator → Option UInt32
  | .exact => none
  | .tilde => some base.minor
  | .caret => some (if base.major ≠ 0 then base.major else if base.minor ≠ 0 then base.minor
      else base.patch)

/-- The upper bound of an operator can be represented. -/
def Operator.Fits (base : Version) (operator : Operator) : Prop :=
  ∀ value, operator.advanced base = some value → value.toNat + 1 < 2 ^ 32

section Versions

variable {error : String → Diagnostic} {label : String} {digits : List Char} {value : UInt32}
  {version base : Version} {text : String}

variable {next : UInt32}

theorem canonical_iff : Canonical digits ↔ ¬ (digits.isEmpty ∨
    (utf8Length digits > 1 ∧ digits.head? = some '0') ∨ ¬ digits.all Char.isDigit) := by
  constructor
  · intro canonical
    have bytes := utf8Length_digits canonical.isDigit
    rintro (empty | ⟨long, padded⟩ | other)
    · exact canonical.nonempty (List.isEmpty_iff.mp empty)
    · exact canonical.unpadded (by omega) padded
    · exact other (List.all_eq_true.mpr canonical.isDigit)
  · intro passes
    simp only [not_or, not_not, not_and] at passes
    obtain ⟨nonempty, unpadded, isDigit⟩ := passes
    have isDigit := List.all_eq_true.mp isDigit
    have bytes := utf8Length_digits isDigit
    exact ⟨fun empty => nonempty (List.isEmpty_iff.mpr empty), isDigit,
      fun long => unpadded (by omega)⟩

theorem component_eq_ok : component error (some digits) label = .ok value ↔
    digits = Nat.toDigits 10 value.toNat := by
  have room : value.toNat < 2 ^ 32 := value.toNat_lt
  unfold component
  dsimp only
  constructor
  · intro read
    split_ifs at read with refused small
    cases read
    have canonical : Canonical digits := canonical_iff.mpr fun fails =>
      refused (fails.imp id .inr)
    rw [UInt32.toNat_ofNat_of_lt' small, toDigits_ofDigitChars canonical]
  · rintro rfl
    have canonical := canonical_toDigits value.toNat
    have few : (Nat.toDigits 10 value.toNat).length ≤ 10 :=
      (Nat.length_toDigits_le_iff (by decide) (by decide)).mpr (by omega)
    rw [if_neg, Nat.ofDigitChars_ten_toDigits, if_pos room, UInt32.ofNat_toNat]
    rintro (empty | long | other)
    · exact canonical_iff.mp canonical (.inl empty)
    · rw [utf8Length_digits canonical.isDigit] at long
      omega
    · exact canonical_iff.mp canonical (.inr other)

theorem component_none : component error none label ≠ .ok value := by
  intro read
  exact nomatch read

theorem Version.toList_render (version : Version) : version.render.toList =
    ['.'].intercalate [Nat.toDigits 10 version.major.toNat, Nat.toDigits 10 version.minor.toNat,
      Nat.toDigits 10 version.patch.toNat] := by
  unfold Version.render
  simp [List.intercalate]

/-- **A version is read from its text, and from no other.** -/
theorem parseVersion_eq_ok : parseVersion error text = .ok version ↔ text = version.render := by
  constructor
  · intro read
    unfold parseVersion at read
    split_ifs at read with long
    obtain ⟨major, readMajor, read⟩ := bind_eq_ok.mp read
    obtain ⟨minor, readMinor, read⟩ := bind_eq_ok.mp read
    obtain ⟨patch, readPatch, read⟩ := bind_eq_ok.mp read
    split_ifs at read with more
    cases read
    have whole : ['.'].intercalate (text.toList.splitOn '.') = text.toList :=
      List.intercalate_splitOn '.'
    generalize text.toList.splitOn '.' = parts at readMajor readMinor readPatch more whole
    cases parts with
    | nil => exact absurd readMajor component_none
    | cons first parts =>
      cases parts with
      | nil => exact absurd readMinor component_none
      | cons second parts =>
        cases parts with
        | nil => exact absurd readPatch component_none
        | cons third parts =>
          cases parts with
          | cons fourth parts => exact absurd rfl more
          | nil =>
            obtain rfl := component_eq_ok.mp readMajor
            obtain rfl := component_eq_ok.mp readMinor
            obtain rfl := component_eq_ok.mp readPatch
            refine String.toList_injective ?_
            rw [Version.toList_render]
            exact whole.symm
  · rintro rfl
    have dotless : ∀ digits ∈ [Nat.toDigits 10 version.major.toNat,
        Nat.toDigits 10 version.minor.toNat, Nat.toDigits 10 version.patch.toNat],
        '.' ∉ digits := by
      intro digits member dot
      have isDigit : '.'.isDigit := by
        simp only [List.mem_cons, List.not_mem_nil, or_false] at member
        rcases member with rfl | rfl | rfl <;>
          exact Nat.isDigit_of_mem_toDigits (by decide) (by decide) dot
      exact absurd isDigit (by decide)
    have parts : version.render.toList.splitOn '.' = [Nat.toDigits 10 version.major.toNat,
        Nat.toDigits 10 version.minor.toNat, Nat.toDigits 10 version.patch.toNat] := by
      rw [Version.toList_render]
      exact List.splitOn_intercalate '.' dotless (List.cons_ne_nil _ _)
    have short : ¬ utf8Length version.render.toList > 32 := by
      have few : ∀ value : UInt32, utf8Length (Nat.toDigits 10 value.toNat) ≤ 10 := by
        intro value
        have room : value.toNat < 2 ^ 32 := value.toNat_lt
        rw [utf8Length_digits (canonical_toDigits _).isDigit]
        exact (Nat.length_toDigits_le_iff (by decide) (by decide)).mpr (by omega)
      have major := few version.major
      have minor := few version.minor
      have patch := few version.patch
      have dot : '.'.utf8Size = 1 := rfl
      rw [Version.toList_render]
      simp only [List.intercalate, List.intersperse_cons_cons, List.intersperse_singleton,
        List.flatten_cons, List.flatten_nil, List.append_nil, utf8Length_append,
        utf8Length_cons, dot]
      show ¬ _ + (1 + 0 + (_ + (1 + 0 + _))) > 32
      omega
    unfold parseVersion
    rw [if_neg short, parts]
    refine bind_eq_ok.mpr ⟨version.major, component_eq_ok.mpr rfl, ?_⟩
    refine bind_eq_ok.mpr ⟨version.minor, component_eq_ok.mpr rfl, ?_⟩
    exact bind_eq_ok.mpr ⟨version.patch, component_eq_ok.mpr rfl, rfl⟩

theorem Version.lt_iff {first second : Version} : first < second ↔
    first.major.toNat < second.major.toNat ∨ (first.major.toNat = second.major.toNat ∧
      (first.minor.toNat < second.minor.toNat ∨ (first.minor.toNat = second.minor.toNat ∧
        first.patch.toNat < second.patch.toNat))) := by
  show first.key < second.key ↔ _
  unfold Version.key
  rw [Prod.Lex.toLex_lt_toLex, Prod.Lex.toLex_lt_toLex]

theorem checkedNext_eq_some {value : UInt32} : checkedNext value = some next ↔
    value.toNat + 1 < 2 ^ 32 ∧ next.toNat = value.toNat + 1 := by
  unfold checkedNext
  split_ifs with room
  · have sum : (value + 1).toNat = value.toNat + 1 := by
      rw [UInt32.toNat_add]
      exact Nat.mod_eq_of_lt room
    rw [Option.some.injEq, and_iff_right room, ← UInt32.toNat_inj, sum, eq_comm]
  · exact iff_of_false (fun same => nomatch same) fun both => room both.1

theorem okOr_eq_ok {A : Type} {found : Option A} {diagnostic : Diagnostic} {value : A} :
    okOr found diagnostic = .ok value ↔ found = some value := by
  unfold okOr
  cases found with
  | none => exact iff_of_false (fun same => nomatch same) fun same => nomatch same
  | some other => simp

theorem tilde_bound (advances : next.toNat = base.minor.toNat + 1) :
    (base ≤ version ∧ version < ⟨base.major, next, 0⟩) ↔
      Operator.tilde.Means base version := by
  unfold Operator.Means
  rw [← not_lt, Version.lt_iff, Version.lt_iff, ← UInt32.toNat_inj, ← UInt32.toNat_inj]
  dsimp only
  have zero : (0 : UInt32).toNat = 0 := rfl
  omega

theorem caret_bound_major (advances : next.toNat = base.major.toNat + 1)
    (leading : base.major ≠ 0) :
    (base ≤ version ∧ version < ⟨next, 0, 0⟩) ↔ Operator.caret.Means base version := by
  unfold Operator.Means Version.Compatible
  rw [← not_lt, Version.lt_iff, Version.lt_iff, ← UInt32.toNat_inj, and_iff_left (absurd · leading)]
  dsimp only
  have zero : (0 : UInt32).toNat = 0 := rfl
  omega

theorem caret_bound_minor (advances : next.toNat = base.minor.toNat + 1)
    (first : base.major = 0) (leading : base.minor ≠ 0) :
    (base ≤ version ∧ version < ⟨0, next, 0⟩) ↔ Operator.caret.Means base version := by
  unfold Operator.Means Version.Compatible
  rw [forall_prop_of_true first, and_iff_left (absurd · leading), ← not_lt, Version.lt_iff,
    Version.lt_iff, ← UInt32.toNat_inj, ← UInt32.toNat_inj, first]
  dsimp only
  have zero : (0 : UInt32).toNat = 0 := rfl
  omega

theorem caret_bound_patch (advances : next.toNat = base.patch.toNat + 1)
    (first : base.major = 0) (second : base.minor = 0) :
    (base ≤ version ∧ version < ⟨0, 0, next⟩) ↔ Operator.caret.Means base version := by
  unfold Operator.Means Version.Compatible
  rw [forall_prop_of_true first, forall_prop_of_true second, ← not_lt, Version.lt_iff,
    Version.lt_iff, ← UInt32.toNat_inj, ← UInt32.toNat_inj, ← UInt32.toNat_inj, first, second]
  dsimp only
  have zero : (0 : UInt32).toNat = 0 := rfl
  omega

end Versions

def Operator.range (base : Version) : Operator → Option Range
  | .exact => some (.exact base)
  | .tilde => (checkedNext base.minor).map fun minor => .bounded base ⟨base.major, minor, 0⟩
  | .caret =>
    if base.major > 0 then
      (checkedNext base.major).map fun major => .bounded base ⟨major, 0, 0⟩
    else if base.minor > 0 then
      (checkedNext base.minor).map fun minor => .bounded base ⟨0, minor, 0⟩
    else (checkedNext base.patch).map fun patch => .bounded base ⟨0, 0, patch⟩

section Ranges

variable {error : String → Diagnostic} {text : String} {base version : Version} {range : Range}
  {operator : Operator}

theorem positive_iff {value : UInt32} : value > 0 ↔ value ≠ 0 := by
  rw [gt_iff_lt, UInt32.lt_iff_toNat_lt, ne_eq, ← UInt32.toNat_inj]
  exact Nat.pos_iff_ne_zero

theorem Operator.range_contains (found : operator.range base = some range) :
    range.contains version = true ↔ operator.Means base version := by
  cases operator with
  | exact =>
    cases found
    exact decide_eq_true_iff
  | tilde =>
    obtain ⟨next, advances, rfl⟩ := Option.map_eq_some_iff.mp found
    exact decide_eq_true_iff.trans (tilde_bound (checkedNext_eq_some.mp advances).2)
  | caret =>
    unfold Operator.range at found
    dsimp only at found
    split_ifs at found with first second <;>
      obtain ⟨next, advances, rfl⟩ := Option.map_eq_some_iff.mp found <;>
      have advances := (checkedNext_eq_some.mp advances).2 <;>
      rw [positive_iff] at first
    · exact decide_eq_true_iff.trans (caret_bound_major advances first)
    · rw [positive_iff] at second
      exact decide_eq_true_iff.trans (caret_bound_minor advances (not_not.mp first) second)
    · rw [positive_iff] at second
      exact decide_eq_true_iff.trans
        (caret_bound_patch advances (not_not.mp first) (not_not.mp second))

theorem checkedNext_isSome {value : UInt32} : (checkedNext value).isSome ↔
    value.toNat + 1 < 2 ^ 32 := by
  unfold checkedNext
  split_ifs with room
  · exact iff_of_true rfl room
  · exact iff_of_false Bool.false_ne_true room

theorem Operator.range_isSome : (operator.range base).isSome ↔ operator.Fits base := by
  unfold Operator.Fits
  cases operator with
  | exact => simp [Operator.range, Operator.advanced]
  | tilde => simp [Operator.range, Operator.advanced, checkedNext_isSome]
  | caret =>
    simp only [Operator.range, Operator.advanced, positive_iff, Option.some.injEq, forall_eq']
    split_ifs <;> simp [checkedNext_isSome]

theorem okOr_map_bind {A B : Type} {found : Option A} {diagnostic : Diagnostic} {rest : A → B}
    {value : B} : (do
      let inner ← okOr found diagnostic
      Except.ok (rest inner)) = Except.ok value ↔ found.map rest = some value := by
  rw [bind_eq_ok]
  simp only [okOr_eq_ok, Option.map_eq_some_iff, Except.ok.injEq]

theorem parseRange_eq_ok : parseRange error text = .ok range ↔
    ∃ (operator : Operator) (base : Version),
      text = operator.symbol ++ base.render ∧ operator.range base = some range := by
  constructor
  · intro read
    unfold parseRange at read
    split at read
    · exact nomatch read
    · rename_i symbol version split
      by_cases wide : symbol.utf8Size ≠ 1
      · rw [if_pos wide] at read
        exact nomatch read
      rw [if_neg wide] at read
      obtain ⟨base, readBase, read⟩ := bind_eq_ok.mp read
      have spelled : ∀ operator : Operator, operator.symbol.toList = [symbol] →
          text = operator.symbol ++ base.render := by
        intro operator same
        refine String.toList_injective ?_
        rw [split, String.toList_append, same, ← parseVersion_eq_ok.mp readBase,
          String.toList_ofList]
        rfl
      split_ifs at read with exact tilde caret major minor
      · cases read
        exact ⟨.exact, base, spelled .exact (by rw [exact]; rfl), rfl⟩
      · exact ⟨.tilde, base, spelled .tilde (by rw [tilde]; rfl), okOr_map_bind.mp read⟩
      all_goals
        refine ⟨.caret, base, spelled .caret (by rw [caret]; rfl), ?_⟩
        unfold Operator.range
        dsimp only
      · rw [if_pos major]
        exact okOr_map_bind.mp read
      · rw [if_neg major, if_pos minor]
        exact okOr_map_bind.mp read
      · rw [if_neg major, if_neg minor]
        exact okOr_map_bind.mp read
  · rintro ⟨operator, base, rfl, found⟩
    have lower : parseVersion error (String.ofList base.render.toList) = .ok base := by
      rw [String.ofList_toList]
      exact parseVersion_eq_ok.mpr rfl
    unfold parseRange
    rw [String.toList_append]
    cases operator with
    | exact =>
      show (do let lower ← parseVersion error (String.ofList base.render.toList); _) = _
      rw [lower]
      cases found
      rfl
    | tilde =>
      show (do let lower ← parseVersion error (String.ofList base.render.toList); _) = _
      rw [lower]
      exact okOr_map_bind.mpr found
    | caret =>
      show (do let lower ← parseVersion error (String.ofList base.render.toList); _) = _
      rw [lower]
      unfold Operator.range at found
      show (if base.major > 0 then _ else _) = _
      dsimp only at found
      split_ifs at found ⊢ with first second <;> exact okOr_map_bind.mpr found

/-- **Ranges mean what their operators say.** Whatever the diagnostics: a version is read from its
canonical text and from no other; a range is only read from an operator and the text of a version,
and contains exactly the versions that the operator means; and such a text is refused only if the
upper bound cannot be represented. -/
theorem ranges_mean (error : String → Diagnostic) :
    (∀ text version, parseVersion error text = .ok version ↔ text = version.render) ∧
      (∀ text range, parseRange error text = .ok range → ∃ (operator : Operator) (base : Version),
        text = operator.symbol ++ base.render ∧
          ∀ version, range.contains version = true ↔ operator.Means base version) ∧
      ∀ (operator : Operator) (base : Version),
        (∃ range, parseRange error (operator.symbol ++ base.render) = .ok range) ↔
          operator.Fits base := by
  refine ⟨fun text version => parseVersion_eq_ok, fun text range read => ?_,
    fun operator base => ?_⟩
  · obtain ⟨operator, base, spelled, found⟩ := parseRange_eq_ok.mp read
    exact ⟨operator, base, spelled, fun version => Operator.range_contains found⟩
  · rw [← Operator.range_isSome, Option.isSome_iff_exists]
    constructor
    · rintro ⟨range, read⟩
      obtain ⟨operator', base', spelled, found⟩ := parseRange_eq_ok.mp read
      have same := congrArg String.toList spelled
      rw [String.toList_append, String.toList_append] at same
      obtain rfl : operator = operator' := by
        cases operator <;> cases operator' <;> first | rfl | exact absurd same (by simp [Operator.symbol])
      have same := String.toList_injective (List.append_cancel_left same)
      have here : parseVersion error base.render = .ok base := parseVersion_eq_ok.mpr rfl
      rw [same, parseVersion_eq_ok.mpr rfl] at here
      cases here
      exact ⟨range, found⟩
    · rintro ⟨range, found⟩
      exact ⟨range, parseRange_eq_ok.mpr ⟨operator, base, rfl, found⟩⟩

/-- A caret advances the leftmost component that is not zero. -/
example : parseRange (Diagnostic.mk "SPX-PR601") "^0.2.3" =
    .ok (.bounded ⟨0, 2, 3⟩ ⟨0, 3, 0⟩) := by
  decide +kernel

end Ranges

end Semaprax.PackageResolver
