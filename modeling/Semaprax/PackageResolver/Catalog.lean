/-
**The resolver's catalog** (`package_resolver{,_v2}/catalog.rs`, `semver.rs`, `wire::charge`).

The two resolvers read their subjects alike. They differ in what a dependency row is: a coordinate
with an exact version in the first, a package with a range in the second. Here `δ` is the row as it
stands in the subject and `ν` its parsed version or range. Parsing one subject is the parameter
`parse`, which also returns the work it has charged; digests and rendering are left out. An index
into `entries` is the entry it stands for.

* `authenticate` — read, sort and index the subjects, with every bound and refusal.
* `Catalog.Indexed` — what the solver relies on: the versions of a package are all of its entries,
  in strictly descending order.
* `authenticate_indexed` — every catalog that `authenticate` returns is indexed so.
-/

import Semaprax.Library.Collections

namespace Semaprax.PackageResolver

open Library

/-- `Version(u32, u32, u32)`. -/
structure Version where
  major : UInt32
  minor : UInt32
  patch : UInt32
deriving DecidableEq, Repr

/-- The components, in the order in which the derived comparison reads them. -/
def Version.key (version : Version) : Nat ×ₗ Nat ×ₗ Nat :=
  toLex (version.major.toNat, toLex (version.minor.toNat, version.patch.toNat))

theorem Version.key_injective : Function.Injective Version.key := by
  intro first second equal
  obtain ⟨major, minor, patch⟩ := first
  obtain ⟨major', minor', patch'⟩ := second
  simp only [Version.key, EmbeddingLike.apply_eq_iff_eq, Prod.mk.injEq, UInt32.toNat_inj] at equal
  obtain ⟨rfl, rfl, rfl⟩ := equal
  rfl

instance : LinearOrder Version := LinearOrder.lift' Version.key Version.key_injective

/-- A set of versions. -/
inductive Range
  | exact (version : Version)
  | bounded (lower upper : Version)
deriving DecidableEq, Repr

def Range.contains : Range → Version → Bool
  | .exact expected, version => decide (version = expected)
  | .bounded lower upper, version => decide (lower ≤ version ∧ version < upper)

/-- A diagnostic, as far as the resolver fills it in. -/
structure Diagnostic where
  code : String
  message : String
deriving DecidableEq, Repr

/-- The diagnostic codes of one resolver. -/
structure Codes where
  resolution : String
  policy : String
  limit : String

def Codes.resolutionError (codes : Codes) (message : String) : Diagnostic :=
  ⟨codes.resolution, message⟩

def Codes.policyError (codes : Codes) (message : String) : Diagnostic := ⟨codes.policy, message⟩

def Codes.limitError (codes : Codes) (message : String) : Diagnostic := ⟨codes.limit, message⟩

def maxSubjects : Nat := 64
def maxVersionsPerPackage : Nat := 32
def maxSelectedPackages : Nat := 4
def maxSubjectBytes : Nat := 17 * 1024 * 1024
def maxTotalSubjectBytes : Nat := 128 * 1024 * 1024
def maxEdges : Nat := 256
def maxDepth : Nat := 32
def maxDecisions : Nat := 4096
def maxWorkUnits : Nat := 8 * 1024 * 1024

/-- The largest `usize`. -/
def usizeMax : Nat := 18446744073709551615

/-- Spend work units (`wire::charge`). -/
def charge (codes : Codes) (work units : Nat) : Except Diagnostic Nat :=
  if usizeMax < work + units then .error (codes.limitError "resolver work accounting overflow")
  else if maxWorkUnits < work + units then .error (codes.limitError "resolver work bound exceeded")
  else .ok (work + units)

/-- What is asked of a resolver. The requirements are handed over parsed, in `ParsedRequirement`. -/
structure ResolutionInput where
  subjects : List String
  target : String
  allowedCapabilities : List String

/-- One requirement; its row is its place in the input. -/
structure ParsedRequirement where
  package : String
  range : Range
  row : Nat
deriving DecidableEq, Repr

/-- A package at a version, both as text. -/
structure Coordinate where
  package : String
  version : String
deriving DecidableEq, Repr

/-- The texts, in the order in which the derived comparison reads them. -/
def Coordinate.key (coordinate : Coordinate) : String ×ₗ String :=
  toLex (coordinate.package, coordinate.version)

theorem Coordinate.key_injective : Function.Injective Coordinate.key := by
  intro first second equal
  obtain ⟨package, version⟩ := first
  obtain ⟨package', version'⟩ := second
  simp only [Coordinate.key, EmbeddingLike.apply_eq_iff_eq, Prod.mk.injEq] at equal
  obtain ⟨rfl, rfl⟩ := equal
  rfl

instance : LinearOrder Coordinate := LinearOrder.lift' Coordinate.key Coordinate.key_injective

/-- The authenticated text of one subject. -/
structure ResolutionSubject (δ : Type) where
  coordinate : Coordinate
  dependencies : List δ
  capabilities : List String
  targets : BTreeMap String String

/-- One package version of the catalog. -/
structure Entry (δ ν : Type) where
  subject : ResolutionSubject δ
  version : Version
  dependencyValues : List ν

variable {δ ν : Type}

def Entry.package (entry : Entry δ ν) : String := entry.subject.coordinate.package

/-- The dependency rows, each with its parsed value. -/
def Entry.rows (entry : Entry δ ν) : List (δ × ν) :=
  entry.subject.dependencies.zip entry.dependencyValues

/-- The key of `by_coordinate`. -/
def Entry.key (entry : Entry δ ν) : String ×ₗ Version := toLex (entry.package, entry.version)

structure Catalog (δ ν : Type) where
  entries : List (Entry δ ν)
  byPackage : BTreeMap String (List (Entry δ ν))
  byCoordinate : BTreeMap (String ×ₗ Version) (Entry δ ν)
  targetInventory : BTreeSet String
  totalBytes : Nat

/-- Read the subjects one by one, within the byte bounds. The byte count stays far below the
largest `usize`, so its overflow check is left out. -/
def readSubjects (codes : Codes) (parse : String → Nat → Except Diagnostic (Entry δ ν × Nat)) :
    List String → Nat → Nat → Except Diagnostic (List (Entry δ ν) × Nat × Nat)
  | [], totalBytes, work => .ok ([], totalBytes, work)
  | bytes :: rest, totalBytes, work =>
    if maxSubjectBytes < bytes.utf8ByteSize ∨
        maxTotalSubjectBytes < totalBytes + bytes.utf8ByteSize then
      .error (codes.limitError "catalog subject byte bound exceeded")
    else do
      let work ← charge codes work 1
      let (entry, work) ← parse bytes work
      let (entries, totalBytes, work) ←
        readSubjects codes parse rest (totalBytes + bytes.utf8ByteSize) work
      return (entry :: entries, totalBytes, work)

/-- The two indexes while they are built. -/
structure Index (δ ν : Type) where
  byPackage : BTreeMap String (List (Entry δ ν))
  byCoordinate : BTreeMap (String ×ₗ Version) (Entry δ ν)

def indexEntry (codes : Codes) (index : Index δ ν) (entry : Entry δ ν) :
    Except Diagnostic (Index δ ν) :=
  if index.byCoordinate.contains entry.key then
    .error (codes.resolutionError "duplicate catalog coordinate")
  else
    let versions := index.byPackage.getD entry.package [] ++ [entry]
    if maxVersionsPerPackage < versions.length then
      .error (codes.limitError "catalog versions per package exceed limit")
    else
      .ok ⟨index.byPackage.insert entry.package versions, index.byCoordinate.insert entry.key entry⟩

def indexEntries (codes : Codes) : List (Entry δ ν) → Index δ ν → Except Diagnostic (Index δ ν)
  | [], index => .ok index
  | entry :: rest, index => do
      let index ← indexEntry codes index entry
      indexEntries codes rest index

def checkTargets (codes : Codes) (inventory : BTreeSet String) :
    List String → Nat → Except Diagnostic Nat
  | [], work => .ok work
  | key :: rest, work => do
      let work ← charge codes work 1
      if inventory.contains key then checkTargets codes inventory rest work
      else .error (codes.policyError "catalog target inventory disagrees")

def checkInventory (codes : Codes) (inventory : BTreeSet String) :
    List (Entry δ ν) → Nat → Except Diagnostic Nat
  | [], work => .ok work
  | entry :: rest, work => do
      let work ← checkTargets codes inventory entry.subject.targets.keys work
      if entry.subject.targets.size = inventory.size then checkInventory codes inventory rest work
      else .error (codes.policyError "catalog target inventory disagrees")

/-- The order of `compare_coordinates`. -/
def Entry.before (left right : Entry δ ν) : Prop := left.key ≤ right.key
deriving Decidable

/-- Higher versions first (`Reverse`). -/
def Entry.newer (left right : Entry δ ν) : Prop := right.version ≤ left.version
deriving Decidable

/-- The versions of every package, higher ones first. -/
def Index.newestFirst (index : Index δ ν) : BTreeMap String (List (Entry δ ν)) :=
  index.byPackage.map fun _ versions => versions.insertionSort Entry.newer

/-- Build the catalog (`catalog::authenticate`). -/
def authenticate (codes : Codes) (parse : String → Nat → Except Diagnostic (Entry δ ν × Nat))
    (input : ResolutionInput) (work : Nat) : Except Diagnostic (Catalog δ ν × Nat) :=
  if input.subjects = [] ∨ maxSubjects < input.subjects.length then
    .error (codes.limitError "catalog subject count is outside bounds")
  else do
    let (entries, totalBytes, work) ← readSubjects codes parse input.subjects 0 work
    let entries := entries.insertionSort Entry.before
    let index ← indexEntries codes entries ⟨∅, ∅⟩
    match entries with
    | [] => .error (codes.limitError "empty catalog")
    | first :: _ =>
      let targetInventory := Std.TreeSet.ofList first.subject.targets.keys compare
      let work ← checkInventory codes targetInventory entries work
      return (⟨entries, index.newestFirst, index.byCoordinate, targetInventory, totalBytes⟩, work)

/-- The indexes of a catalog describe its entries. -/
structure Catalog.Indexed (catalog : Catalog δ ν) : Prop where
  listed : ∀ (package : String) (versions : List (Entry δ ν)),
    catalog.byPackage[package]? = some versions →
      ∀ entry ∈ versions, entry ∈ catalog.entries ∧ entry.package = package
  complete : ∀ entry ∈ catalog.entries,
    ∃ versions, catalog.byPackage[entry.package]? = some versions ∧ entry ∈ versions
  descending : ∀ (package : String) (versions : List (Entry δ ν)),
    catalog.byPackage[package]? = some versions →
      versions.Pairwise fun left right => right.version < left.version
  coordinates : ∀ key, key ∈ catalog.byCoordinate ↔ ∃ entry ∈ catalog.entries, entry.key = key

/-- The same of the entries indexed so far, whose versions are not yet sorted. -/
structure Index.Covers (index : Index δ ν) (seen : List (Entry δ ν)) : Prop where
  listed : ∀ (package : String) (versions : List (Entry δ ν)),
    index.byPackage[package]? = some versions →
      ∀ entry ∈ versions, entry ∈ seen ∧ entry.package = package
  complete : ∀ entry ∈ seen,
    ∃ versions, index.byPackage[entry.package]? = some versions ∧ entry ∈ versions
  distinct : ∀ (package : String) (versions : List (Entry δ ν)),
    index.byPackage[package]? = some versions →
      versions.Pairwise fun left right => left.version ≠ right.version
  coordinates : ∀ key, key ∈ index.byCoordinate ↔ ∃ entry ∈ seen, entry.key = key

theorem Index.covers_empty : (⟨∅, ∅⟩ : Index δ ν).Covers [] where
  listed package versions found := by simp at found
  complete entry member := absurd member List.not_mem_nil
  distinct package versions found := by simp at found
  coordinates key := by simp

variable {codes : Codes}

theorem Index.Covers.indexEntry {index next : Index δ ν} {entry : Entry δ ν}
    {seen : List (Entry δ ν)} (covers : index.Covers seen)
    (indexed : indexEntry codes index entry = .ok next) : next.Covers (seen ++ [entry]) := by
  unfold PackageResolver.indexEntry at indexed
  split at indexed
  · cases indexed
  rename_i fresh
  dsimp only at indexed
  split at indexed
  · cases indexed
  obtain rfl := Except.ok.inj indexed
  have unseen : ∀ earlier ∈ seen, earlier.key ≠ entry.key := fun earlier member equal =>
    fresh (Std.TreeMap.contains_iff_mem.mpr ((covers.coordinates _).mpr ⟨earlier, member, equal⟩))
  -- the entries of the package that the map held before
  have before : ∀ earlier ∈ index.byPackage.getD entry.package [],
      earlier ∈ seen ∧ earlier.package = entry.package := by
    intro earlier member
    rw [Std.TreeMap.getD_eq_getD_getElem?] at member
    cases found : index.byPackage[entry.package]? with
    | none => simp [found] at member
    | some versions => exact covers.listed _ _ found _ (by simpa [found] using member)
  refine ⟨fun package versions found => ?_, fun other member => ?_,
    fun package versions found => ?_, fun key => ?_⟩
  · rw [BTreeMap.getElem?_insert_eq] at found
    split at found
    · rename_i same
      obtain rfl := Option.some.inj found
      intro other member
      rcases List.mem_append.mp member with old | new
      · exact ⟨List.mem_append_left _ (before other old).1, (before other old).2.trans same⟩
      · obtain rfl := List.mem_singleton.mp new
        exact ⟨List.mem_append_right _ new, same⟩
    · intro other member
      obtain ⟨old, ofPackage⟩ := covers.listed _ _ found _ member
      exact ⟨List.mem_append_left _ old, ofPackage⟩
  · by_cases same : entry.package = other.package
    · refine ⟨_, by rw [BTreeMap.getElem?_insert_eq, if_pos same], ?_⟩
      rcases List.mem_append.mp member with old | new
      · obtain ⟨versions, found, inside⟩ := covers.complete other old
        refine List.mem_append_left _ ?_
        rw [Std.TreeMap.getD_eq_getD_getElem?, same, found]
        exact inside
      · exact List.mem_append_right _ new
    · rcases List.mem_append.mp member with old | new
      · obtain ⟨versions, found, inside⟩ := covers.complete other old
        exact ⟨versions, by rw [BTreeMap.getElem?_insert_eq, if_neg same, found], inside⟩
      · exact absurd (congrArg Entry.package (List.mem_singleton.mp new).symm) same
  · rw [BTreeMap.getElem?_insert_eq] at found
    split at found
    · obtain rfl := Option.some.inj found
      refine List.pairwise_append.mpr ⟨?_, List.pairwise_singleton _ _, ?_⟩
      · rw [Std.TreeMap.getD_eq_getD_getElem?]
        cases held : index.byPackage[entry.package]? with
        | none => exact List.Pairwise.nil
        | some versions => exact covers.distinct _ _ held
      · intro earlier member other new sameVersion
        obtain rfl := List.mem_singleton.mp new
        obtain ⟨old, ofPackage⟩ := before earlier member
        exact unseen earlier old (by rw [Entry.key, Entry.key, ofPackage, sameVersion])
    · exact covers.distinct _ _ found
  · rw [BTreeMap.mem_insert_iff, covers.coordinates]
    constructor
    · rintro (rfl | ⟨earlier, member, rfl⟩)
      · exact ⟨entry, List.mem_append_right _ (List.mem_singleton_self entry), rfl⟩
      · exact ⟨earlier, List.mem_append_left _ member, rfl⟩
    · rintro ⟨other, member, rfl⟩
      rcases List.mem_append.mp member with old | new
      · exact Or.inr ⟨other, old, rfl⟩
      · exact Or.inl (congrArg Entry.key (List.mem_singleton.mp new).symm)

theorem Index.Covers.indexEntries {entries : List (Entry δ ν)}
    {index final : Index δ ν} {seen : List (Entry δ ν)} (covers : index.Covers seen)
    (indexed : indexEntries codes entries index = .ok final) : final.Covers (seen ++ entries) := by
  induction entries generalizing index seen with
  | nil =>
    obtain rfl := Except.ok.inj indexed
    rwa [List.append_nil]
  | cons entry rest ih =>
    unfold PackageResolver.indexEntries at indexed
    cases step : PackageResolver.indexEntry codes index entry with
    | error diagnostic => simp [step, bind, Except.bind] at indexed
    | ok next =>
      simp only [step, bind, Except.bind] at indexed
      have covered := ih (covers.indexEntry step) indexed
      rwa [List.append_assoc] at covered

instance : Std.Total (Entry.newer (δ := δ) (ν := ν)) :=
  ⟨fun left right => le_total right.version left.version⟩

instance : IsTrans (Entry δ ν) Entry.newer :=
  ⟨fun _ _ _ first second => le_trans second first⟩

theorem pairwise_newer {versions : List (Entry δ ν)}
    (distinct : versions.Pairwise fun left right => left.version ≠ right.version) :
    (versions.insertionSort Entry.newer).Pairwise
      fun left right => right.version < left.version := by
  have sorted := List.pairwise_insertionSort Entry.newer versions
  have distinct' : (versions.insertionSort Entry.newer).Pairwise
      fun left right => left.version ≠ right.version :=
    (List.perm_insertionSort Entry.newer versions).symm.pairwise distinct Ne.symm
  exact (sorted.and distinct').imp fun ⟨newer, differ⟩ => lt_of_le_of_ne newer differ.symm

theorem Index.newestFirst_eq_some {index : Index δ ν} {package : String}
    {versions : List (Entry δ ν)} (found : index.newestFirst[package]? = some versions) :
    ∃ held, index.byPackage[package]? = some held ∧
      List.insertionSort Entry.newer held = versions := by
  rw [Index.newestFirst, Std.TreeMap.getElem?_map] at found
  exact Option.map_eq_some_iff.mp found

theorem Index.Covers.indexed {index : Index δ ν} {entries : List (Entry δ ν)}
    (covers : index.Covers entries) (inventory : BTreeSet String) (totalBytes : Nat) :
    (⟨entries, index.newestFirst, index.byCoordinate, inventory, totalBytes⟩ :
      Catalog δ ν).Indexed where
  listed package versions found entry member := by
    obtain ⟨held, there, rfl⟩ := Index.newestFirst_eq_some found
    exact covers.listed _ _ there _ ((List.mem_insertionSort _).mp member)
  complete entry member := by
    obtain ⟨held, there, inside⟩ := covers.complete entry member
    refine ⟨_, ?_, (List.mem_insertionSort Entry.newer).mpr inside⟩
    show index.newestFirst[entry.package]? = _
    rw [Index.newestFirst, Std.TreeMap.getElem?_map, there]
    rfl
  descending package versions found := by
    obtain ⟨held, there, rfl⟩ := Index.newestFirst_eq_some found
    exact pairwise_newer (covers.distinct _ _ there)
  coordinates := covers.coordinates

theorem authenticate_made {parse : String → Nat → Except Diagnostic (Entry δ ν × Nat)}
    {input : ResolutionInput} {work spent : Nat} {catalog : Catalog δ ν}
    (authentic : authenticate codes parse input work = .ok (catalog, spent)) :
    ∃ unsorted totalBytes read index first rest,
      readSubjects codes parse input.subjects 0 work = .ok (unsorted, totalBytes, read) ∧
      unsorted.insertionSort Entry.before = first :: rest ∧
      indexEntries codes (first :: rest) ⟨∅, ∅⟩ = .ok index ∧
      catalog = ⟨first :: rest, index.newestFirst, index.byCoordinate,
        Std.TreeSet.ofList first.subject.targets.keys compare, totalBytes⟩ := by
  unfold authenticate at authentic
  split at authentic
  · cases authentic
  cases read : readSubjects codes parse input.subjects 0 work with
  | error diagnostic => simp [read, bind, Except.bind] at authentic
  | ok result =>
    obtain ⟨unsorted, totalBytes, work'⟩ := result
    simp only [read, bind, Except.bind] at authentic
    cases sorted : unsorted.insertionSort Entry.before with
    | nil =>
      rw [sorted] at authentic
      cases authentic
    | cons first rest =>
      rw [sorted] at authentic
      cases built : indexEntries codes (first :: rest) ⟨∅, ∅⟩ with
      | error diagnostic => simp [built] at authentic
      | ok index =>
        simp only [built] at authentic
        split at authentic
        · cases authentic
        obtain ⟨rfl, -⟩ := Prod.mk.inj (Except.ok.inj authentic)
        exact ⟨unsorted, totalBytes, work', index, first, rest, rfl, sorted, built, rfl⟩

/-- **Every catalog that `authenticate` returns is indexed.** -/
theorem authenticate_indexed
    {parse : String → Nat → Except Diagnostic (Entry δ ν × Nat)} {input : ResolutionInput}
    {work spent : Nat} {catalog : Catalog δ ν}
    (authentic : authenticate codes parse input work = .ok (catalog, spent)) :
    catalog.Indexed := by
  obtain ⟨_, _, _, index, first, rest, -, -, built, rfl⟩ := authenticate_made authentic
  exact (Index.covers_empty.indexEntries built).indexed _ _

end Semaprax.PackageResolver
