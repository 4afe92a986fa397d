/-
**Places and their availability** (`source_verify/place.rs`, `source_verify/binding.rs`).

A binding is available, moved, or may have been moved; the same is kept for projection paths into it,
and some paths are known to be partly moved. After a branch the states of its arms are joined.

* `overlappingPlaceState` — what a binding reports of a path.
* `joinMovedPlaces`, `joinDefinitelyPartial` — the joins of the two collections.
* `Binding.joinBranches`, `Binding.joinArm`, `Binding.joinConditional` — the joins after an `if`, after
  an arm of a match, and after an operand that may be skipped.
* `frameResumeIfElse`, `joinArms` — the joins of whole scopes.
-/

import Semaprax.Library.Collections

namespace Semaprax.SourceOwnership

open Library

inductive Availability
  | available
  | moved
  | maybeMoved
deriving DecidableEq, Repr

def Availability.join (availability other : Availability) : Availability :=
  if availability = other then availability else .maybeMoved

/-- A path of fields into a binding. -/
abbrev Path := List String

/-- The ownership state of a variable. -/
structure Binding where
  availability : Availability
  movedPlaces : BTreeMap Path Availability
  definitelyPartial : BTreeSet Path

/-- The variables in scope. -/
abbrev Scope := BTreeMap String Binding

/-- The first path leads to a place that contains that of the second. -/
def pathIsPrefix {T : Type} [BEq T] (front path : List T) : Bool :=
  front.length ≤ path.length && (front.zip path).all fun (left, right) => left == right

/-- What a binding reports of a path: moved if it overlaps a moved place or contains one that is partly
moved, and perhaps moved if it overlaps any other. -/
def overlappingPlaceState (binding : Binding) (requested : Path) : Availability :=
  let overlapping := binding.movedPlaces.toList.filter fun (moved, _) =>
    pathIsPrefix moved requested || pathIsPrefix requested moved
  if binding.availability ≠ .available then binding.availability
  else if overlapping.any fun (_, state) => state = .moved then .moved
  else if binding.definitelyPartial.toList.any fun place => pathIsPrefix requested place then .moved
  else if overlapping ≠ [] then .maybeMoved
  else .available

def Binding.placeState (binding : Binding) (path : Path) : Availability :=
  binding.movedPlaces[path]?.getD .available

def joinMovedPlaces (left right : Binding) : BTreeMap Path Availability :=
  BTreeMap.collect (fun path =>
    let state := (left.placeState path).join (right.placeState path)
    if state ≠ .available then some state else none)
    (left.movedPlaces.keys ++ right.movedPlaces.keys)

/-- The paths that contain a place which either side has recorded. -/
def partialCandidates (left right : Binding) : List Path :=
  (left.movedPlaces.keys ++ right.movedPlaces.keys ++ left.definitelyPartial.toList ++
    right.definitelyPartial.toList).flatMap List.inits

def joinDefinitelyPartial (left right : Binding) : BTreeSet Path :=
  BTreeSet.collect ((partialCandidates left right).filter fun path =>
    overlappingPlaceState left path = .moved && overlappingPlaceState right path = .moved)

namespace Binding

/-- A binding of which nothing was moved. -/
def fresh : Binding := ⟨.available, ∅, ∅⟩

/-- Move the whole variable. -/
def move (binding : Binding) : Binding :=
  { binding with
    availability := .moved }

def movePlace (binding : Binding) (projections : Path) : Binding :=
  { binding with
    movedPlaces := binding.movedPlaces.insert projections .moved }

/-- The join after an `if`. -/
def joinBranches (binding thenBinding elseBinding : Binding) : Binding :=
  { binding with
    availability := thenBinding.availability.join elseBinding.availability
    movedPlaces := joinMovedPlaces thenBinding elseBinding
    definitelyPartial := joinDefinitelyPartial thenBinding elseBinding }

/-- The join with a further arm of a match. The fields are updated one after the other, and the last
update reads the first two. -/
def joinArm (joined branch : Binding) : Binding :=
  let joined := { joined with
    availability := joined.availability.join branch.availability }
  let joined := { joined with
    movedPlaces := joinMovedPlaces joined branch }
  { joined with
    definitelyPartial := joinDefinitelyPartial joined branch }

/-- The join with an operand that may have been skipped. -/
def joinConditional (baseline conditional : Binding) : Binding :=
  let movedPlaces := joinMovedPlaces baseline conditional
  let definitelyPartial := joinDefinitelyPartial baseline conditional
  { availability := baseline.availability.join conditional.availability
    movedPlaces := movedPlaces
    definitelyPartial := definitelyPartial }

end Binding

/-- The scope after an `if`, from the scopes after its branches. -/
def frameResumeIfElse (parent thenBindings elseBindings : Scope) (baselineNames : List String) :
    Scope :=
  parent.updateAll (fun name binding =>
    match thenBindings[name]?, elseBindings[name]? with
    | some thenBinding, some elseBinding => binding.joinBranches thenBinding elseBinding
    | thenBinding, elseBinding =>
      { binding with
        availability := ((thenBinding.map Binding.availability).getD .available).join
          ((elseBinding.map Binding.availability).getD .available) }) baselineNames

/-- The scope after the arms of a variant or scalar match, if there are any. -/
def joinArms (armStates : List Scope) (outerNames : List String) : Option Scope :=
  match armStates with
  | [] => none
  | first :: rest =>
    some (rest.foldl (fun joined branch =>
      joined.updateAll (fun name binding =>
        branch[name]?.elim binding fun other => binding.joinArm other) outerNames) first)

/-- Take over the ownership states of a scope. -/
def mergeMoved (target source : Scope) (names : List String) : Scope :=
  target.updateAll (fun name binding => source[name]?.getD binding) names

/-- The scope after a match (`frame_prepare_variant_match_arm`, `frame_prepare_scalar_match_arm`). -/
def framePrepareMatchArm (parent : Scope) (armStates : List Scope) (outerNames : List String) :
    Scope :=
  (joinArms armStates outerNames).elim parent fun joined => mergeMoved parent joined outerNames

end Semaprax.SourceOwnership
