/-
**The search** (`package_resolver{,_v2}/solver.rs`).

Both resolvers run the same search: take the least package that a constraint names and nothing is
selected for, try its versions from the highest down, and go back when a version does not fit. An
`Edition` holds what they do differently: how a dependency row is read, which key tags its
constraint, what an edge joins, and when a row is known to the catalog.

* `Edition` — the differences, with the two resolvers as `packageResolver` and `packageResolverV2`.
* `visit` — the search with its accounting. Every level selects one package and no graph with more
  than `maxSelectedPackages` packages is accepted, so that many levels and one more are enough;
  `outOfFuel` stands for a deeper search and is never reached (`Soundness`).
* `solve` — the search from the requirements.
-/

import Semaprax.PackageResolver.Graph

namespace Semaprax.PackageResolver

open Library

/-- Where a constraint comes from; `κ` names the dependent. -/
inductive ConstraintTag (κ : Type)
  | root (row : Nat)
  | dependency (dependent : κ) (row : Nat)

/-- The fields, in the order in which the derived comparison reads them. -/
def ConstraintTag.key {κ : Type} : ConstraintTag κ → Lex (Nat ⊕ (κ ×ₗ Nat))
  | .root row => Sum.inlₗ row
  | .dependency dependent row => Sum.inrₗ (toLex (dependent, row))

structure Constraint (κ ω : Type) where
  tag : ConstraintTag κ
  value : ω

/-- What the two resolvers do differently. -/
structure Edition (δ ν ω κ ε : Type) where
  codes : Codes
  /-- The package that a dependency names. -/
  package : δ → String
  /-- The constraint of a requirement. -/
  required : Range → ω
  /-- The constraint of a dependency row. -/
  demanded : ν → ω
  admits : ω → Version → Bool
  /-- The check of a row against a version that is already selected. -/
  agrees : ν → Version → Bool
  dependent : Entry δ ν → κ
  edge : δ → Coordinate → ε
  /-- The packages that an edge joins: dependency and dependent. -/
  ends : ε → String × String
  /-- The catalog has a coordinate for the row. -/
  known : Catalog δ ν → δ → ν → Bool

variable {δ ν ω κ ε : Type} [LinearOrder κ] [LinearOrder ε]

/-- The order of `sort_by` on constraints. -/
def Constraint.before (left right : Constraint κ ω) : Prop := left.tag.key ≤ right.tag.key
deriving Decidable

structure State (δ ν ω κ ε : Type) [LinearOrder ε] where
  selected : BTreeMap String (Entry δ ν)
  constraints : BTreeMap String (List (Constraint κ ω))
  edges : BTreeSet ε
  depth : Nat

structure Search where
  work : Nat
  decisions : Nat
  sawPolicyRejection : Bool
  sawStructuralRejection : Bool

/-- Why a search stops without a result. -/
inductive Halt
  | refused (diagnostic : Diagnostic)
  | outOfFuel

structure Solved (δ ν : Type) where
  selected : BTreeMap String (Entry δ ν)
  edges : Nat
  depth : Nat
  decisions : Nat

def Search.charge (codes : Codes) (search : Search) : Except Halt Search :=
  match PackageResolver.charge codes search.work 1 with
  | .ok work => .ok { search with work := work }
  | .error diagnostic => .error (.refused diagnostic)

section Candidate

variable (edition : Edition δ ν ω κ ε) (input : ResolutionInput) (catalog : Catalog δ ν)

def admitConstraints (version : Version) :
    List (Constraint κ ω) → Search → Except Halt (Bool × Search)
  | [], search => .ok (true, search)
  | constraint :: rest, search => do
      let search ← search.charge edition.codes
      if edition.admits constraint.value version then admitConstraints version rest search
      else return (false, { search with sawStructuralRejection := true })

def admitTarget (candidate : Entry δ ν) (search : Search) : Except Halt (Bool × Search) := do
  let search ← search.charge edition.codes
  if candidate.subject.targets[input.target]? = some "available" then return (true, search)
  else return (false, { search with sawPolicyRejection := true })

def ResolutionInput.allowed : BTreeSet String := Std.TreeSet.ofList input.allowedCapabilities compare

def admitCapabilities : List String → Search → Except Halt (Bool × Search)
  | [], search => .ok (true, search)
  | capability :: rest, search => do
      let search ← search.charge edition.codes
      if input.allowed.contains capability then admitCapabilities rest search
      else return (false, { search with sawPolicyRejection := true })

/-- Record the constraint and the edge of one row. -/
def State.demand (state : State δ ν ω κ ε) (candidate : Entry δ ν) (row : (δ × ν) × Nat) :
    State δ ν ω κ ε :=
  let package := edition.package row.1.1
  let constraint : Constraint κ ω :=
    ⟨.dependency (edition.dependent candidate) row.2, edition.demanded row.1.2⟩
  { state with
    constraints := state.constraints.insert package
      ((state.constraints.getD package [] ++ [constraint]).insertionSort Constraint.before)
    edges := state.edges.insert (edition.edge row.1.1 candidate.subject.coordinate) }

/-- The two checks of a recorded row. -/
def consistent (state : State δ ν ω κ ε) (row : δ × ν) : Bool :=
  edition.known catalog row.1 row.2 &&
    (state.selected[edition.package row.1]?).all fun selected =>
      edition.agrees row.2 selected.version

/-- The rows in order, up to the first that cannot hold. -/
def insertRows (candidate : Entry δ ν) : List ((δ × ν) × Nat) → State δ ν ω κ ε → Search →
      Except Halt (Bool × State δ ν ω κ ε × Search)
  | [], state, search => .ok (true, state, search)
  | row :: rest, state, search => do
      let search ← search.charge edition.codes
      let state := state.demand edition candidate row
      let search ← search.charge edition.codes
      if consistent edition catalog state row.1 then insertRows candidate rest state search
      else return (false, state, { search with sawStructuralRejection := true })

/-- `Search::insert_dependencies`. -/
def insertDependencies (candidate : Entry δ ν) (branch : State δ ν ω κ ε) (search : Search) :
    Except Halt (Bool × State δ ν ω κ ε × Search) :=
  insertRows edition catalog candidate candidate.rows.zipIdx branch search

def State.packages (state : State δ ν ω κ ε) : List String := state.constraints.keys

/-- The edges of the graph, as pairs of packages. -/
def State.joins (state : State δ ν ω κ ε) : List (String × String) :=
  state.edges.toList.map edition.ends

/-- The graph check, which also sets the depth. -/
def State.validated (state : State δ ν ω κ ε) : Option (State δ ν ω κ ε) :=
  (validateGraph state.packages (state.joins edition)).map fun depth =>
    { state with depth := depth }

/-- The first package that a constraint names and nothing is selected for. -/
def State.unresolved (state : State δ ν ω κ ε) : Option String :=
  state.packages.find? fun package => !state.selected.contains package

/-- One turn of the loop over the candidates, up to the recursive call: the branch in which the
candidate is selected, if it fits. -/
def admitCandidate (package : String) (state : State δ ν ω κ ε) (candidate : Entry δ ν)
    (search : Search) : Except Halt (Option (State δ ν ω κ ε) × Search) := do
  let search ← search.charge edition.codes
  match state.constraints[package]? with
  | none =>
    .error (.refused
      (edition.codes.resolutionError "resolver state lost an unresolved constraint"))
  | some constraints => do
      let (admitted, search) ← admitConstraints edition candidate.version constraints search
      if !admitted then return (none, search)
      let (admitted, search) ← admitTarget edition input candidate search
      if !admitted then return (none, search)
      let (admitted, search) ←
        admitCapabilities edition input candidate.subject.capabilities search
      if !admitted then return (none, search)
      let (admitted, branch, search) ← insertDependencies edition catalog candidate
        { state with selected := state.selected.insert package candidate } search
      if !admitted then return (none, search)
      match branch.validated edition with
      | some branch => return (some branch, search)
      | none => return (none, { search with sawStructuralRejection := true })

def enter (below : State δ ν ω κ ε → Search → Except Halt (Option (State δ ν ω κ ε) × Search)) :
    Option (State δ ν ω κ ε) → Search → Except Halt (Option (State δ ν ω κ ε) × Search)
  | some branch, search => below branch search
  | none, search => .ok (none, search)

def tryCandidates
    (below : State δ ν ω κ ε → Search → Except Halt (Option (State δ ν ω κ ε) × Search))
    (package : String) (state : State δ ν ω κ ε) :
    List (Entry δ ν) → Search → Except Halt (Option (State δ ν ω κ ε) × Search)
  | [], search => .ok (none, search)
  | candidate :: rest, search =>
    if maxDecisions ≤ search.decisions then
      .error (.refused (edition.codes.limitError "resolver decision bound exceeded"))
    else do
      let (branch, search) ← admitCandidate edition input catalog package state candidate
        { search with decisions := search.decisions + 1 }
      let (result, search) ← enter below branch search
      match result with
      | some final => return (some final, search)
      | none => do
          let search ← search.charge edition.codes
          tryCandidates below package state rest search

/-- `Search::visit`, within so many levels. -/
def visit : Nat → State δ ν ω κ ε → Search → Except Halt (Option (State δ ν ω κ ε) × Search)
  | 0, _, _ => .error .outOfFuel
  | levels + 1, state, search =>
    match state.unresolved with
    | none => .ok (some state, search)
    | some package =>
      match catalog.byPackage[package]? with
      | none => .ok (none, { search with sawStructuralRejection := true })
      | some candidates =>
        tryCandidates edition input catalog (visit levels) package state candidates search

/-- Record the constraint of one requirement. -/
def State.require (state : State δ ν ω κ ε) (requirement : ParsedRequirement) : State δ ν ω κ ε :=
  { state with
    constraints := state.constraints.insert requirement.package
      (state.constraints.getD requirement.package [] ++
        [⟨.root requirement.row, edition.required requirement.range⟩]) }

def initial (requirements : List ParsedRequirement) : State δ ν ω κ ε :=
  requirements.foldl (fun state requirement => state.require edition requirement) ⟨∅, ∅, ∅, 0⟩

def levels : Nat := maxSelectedPackages + 1

/-- `solver::solve`. -/
def solve (requirements : List ParsedRequirement) (work : Nat) :
    Except Halt (Solved δ ν × Nat) := do
  let (result, search) ← visit edition input catalog levels (initial edition requirements)
    ⟨work, 0, false, false⟩
  match result with
  | some state =>
    return (⟨state.selected, state.edges.size, state.depth, search.decisions⟩, search.work)
  | none =>
    if search.sawStructuralRejection then
      .error (.refused (edition.codes.resolutionError
        "no complete package graph satisfies all constraints"))
    else if search.sawPolicyRejection then
      .error (.refused (edition.codes.policyError
        "no complete package graph satisfies target/capability policy"))
    else
      .error (.refused (edition.codes.resolutionError
        "no package candidate satisfies the root requirements"))

end Candidate

/-- The value of a constraint of the first resolver. -/
inductive ConstraintValue
  | range (bound : Range)
  | exact (version : Version)
deriving DecidableEq, Repr

def ConstraintValue.admits : ConstraintValue → Version → Bool
  | .range bound, version => bound.contains version
  | .exact expected, version => decide (expected = version)

/-- **The first resolver**: a dependency is a coordinate with an exact version, and edges join
coordinates. -/
def packageResolver :
    Edition Coordinate Version ConstraintValue Coordinate (Coordinate ×ₗ Coordinate) where
  codes := ⟨"SPX-PR503", "SPX-PR504", "SPX-PR505"⟩
  package dependency := dependency.package
  required := .range
  demanded := .exact
  admits := ConstraintValue.admits
  agrees expected version := decide (version = expected)
  dependent entry := entry.subject.coordinate
  edge dependency dependent := toLex (dependency, dependent)
  ends edge := ((ofLex edge).1.package, (ofLex edge).2.package)
  known catalog dependency version :=
    catalog.byCoordinate.contains (toLex (dependency.package, version))

/-- A dependency of the second resolver, as the subject writes it. -/
structure DependencyRequirement where
  package : String
  range : String
deriving DecidableEq, Repr

/-- **The second resolver**: a dependency is a package with a range, and edges join packages. -/
def packageResolverV2 :
    Edition DependencyRequirement Range Range (String ×ₗ Version) (String ×ₗ String) where
  codes := ⟨"SPX-PR603", "SPX-PR604", "SPX-PR605"⟩
  package dependency := dependency.package
  required := id
  demanded := id
  admits := Range.contains
  agrees := Range.contains
  dependent := Entry.key
  edge dependency dependent := toLex (dependency.package, dependent.package)
  ends := ofLex
  known catalog dependency _ :=
    catalog.byCoordinate.keys.any fun key => (ofLex key).1 = dependency.package

end Semaprax.PackageResolver
