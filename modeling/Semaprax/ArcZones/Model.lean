/-
**Managed zones and their objects** (`arc_zones.rs`).

The certified structure that a run is bound to: a tree of zones, each with its thread, and an
inventory of objects, each with its home zone.

* `ArcZonesModel.tryNew` — the checks of the structure.
* `tryNew_homes` — in a model that is accepted, every object's home is a zone of the model.
-/

import Semaprax.Library.Collections
import Semaprax.Library.Results

namespace Semaprax.ArcZones

open Library

/-- The identity of a zone, a thread or an object. -/
abbrev DeclarationId := String

/-- Whether an object may be shared between zones of different threads. -/
inductive ShareableMark
  | shareable
  | notShareable
deriving DecidableEq, Repr

/-- One managed zone. -/
structure ZoneSpec where
  id : DeclarationId
  parent : Option DeclarationId
  thread : DeclarationId

/-- One modeled object. -/
structure ObjectSpec where
  id : DeclarationId
  zone : DeclarationId
  shareable : ShareableMark

/-- The refusals of the model and of its runs. -/
inductive ArcZonesError
  | missingRoot
  | multipleRoots
  | invalidIdentity
  | duplicateZone
  | duplicateObject
  | unknownZone
  | unknownObject
  | zoneCycle
  | zoneBoundExceeded
  | objectBoundExceeded
  | scriptBoundExceeded
  | workBudgetExceeded
  | noOpenZone
  | zoneAlreadyOpen
  | parentNotOpen
  | zoneNotOpen
  | unbalancedZoneExit
  | alreadyConstructed
  | deadOrUnconstructedObject
  | foreignZoneObject
  | doubleRelease
  | sharingWithoutShareable
  | sharedUseOfUnique
  | unknownLiveLink
  | duplicateLiveLink
  | demotionNotApplicable
deriving DecidableEq, Repr

/-- A zone of the model. -/
structure ZoneEntry where
  parent : Option DeclarationId
  depth : Nat
  thread : DeclarationId

/-- An object of the model. -/
structure ObjectEntry where
  zone : DeclarationId
  shareable : ShareableMark

/-- The zone tree and the inventory of objects. -/
structure ArcZonesModel where
  root : DeclarationId
  zones : BTreeMap DeclarationId ZoneEntry
  objects : BTreeMap DeclarationId ObjectEntry

/-- The bounds of a model and of a script. -/
def maxZones : Nat := 4096
def maxObjects : Nat := 4096
def maxScriptOps : Nat := 65536
def maxWork : Nat := 1000000

/-- An identity is not empty and contains no NUL. -/
def validateIdentity (name : DeclarationId) : Except ArcZonesError Unit :=
  if name.isEmpty ∨ name.toList.contains '\x00' then .error .invalidIdentity else .ok ()

def refuseIf (condition : Prop) [Decidable condition] (error : ArcZonesError) :
    Except ArcZonesError Unit :=
  if condition then .error error else .ok ()

def zoneMaps : List ZoneSpec → BTreeMap DeclarationId (Option DeclarationId) →
    BTreeMap DeclarationId DeclarationId → Except ArcZonesError
      (BTreeMap DeclarationId (Option DeclarationId) × BTreeMap DeclarationId DeclarationId)
  | [], parents, threads => .ok (parents, threads)
  | zone :: zones, parents, threads => do
      validateIdentity zone.id
      validateIdentity zone.thread
      refuseIf (zone.id ∈ parents) .duplicateZone
      zoneMaps zones (parents.insert zone.id zone.parent) (threads.insert zone.id zone.thread)

/-- Exactly one zone has no parent. -/
def checkRoots (zones : List ZoneSpec) : Except ArcZonesError Unit :=
  match (zones.filter fun zone => zone.parent.isNone).length with
  | 0 => .error .missingRoot
  | 1 => .ok ()
  | _ => .error .multipleRoots

def checkParents (parents : BTreeMap DeclarationId (Option DeclarationId)) :
    List ZoneSpec → Except ArcZonesError Unit
  | [] => .ok ()
  | zone :: zones =>
    match zone.parent with
    | none => checkParents parents zones
    | some parent => do
        refuseIf (zone.id = parent) .zoneCycle
        refuseIf (parent ∉ parents) .unknownZone
        checkParents parents zones

/-- Climb from a zone to one whose depth is known, or to the root: the zones passed, nearest last
visited first, the zone the climb ends at, and its depth. `room` is how many more may be passed. -/
def climb (parents : BTreeMap DeclarationId (Option DeclarationId))
    (depths : BTreeMap DeclarationId Nat) : Nat → DeclarationId → List DeclarationId →
    Except ArcZonesError (List DeclarationId × DeclarationId × Nat)
  | room, cursor, stack =>
    match depths[cursor]? with
    | some known => .ok (stack, cursor, known)
    | none =>
      match (parents[cursor]?).join with
      | none => .ok (stack, cursor, 0)
      | some parent =>
        match room with
        | 0 => .error .zoneCycle
        | room + 1 => climb parents depths room parent (cursor :: stack)

/-- The depths of the zones that were passed, below that of the zone the climb ended at. -/
def descend : List DeclarationId → Nat → BTreeMap DeclarationId Nat → BTreeMap DeclarationId Nat
  | [], _, depths => depths
  | name :: stack, running, depths => descend stack (running + 1) (depths.insert name (running + 1))

def canonicalDepths (parents : BTreeMap DeclarationId (Option DeclarationId)) :
    List DeclarationId → BTreeMap DeclarationId Nat →
    Except ArcZonesError (BTreeMap DeclarationId Nat)
  | [], depths => .ok depths
  | id :: ids, depths => do
      let climbed ← climb parents depths parents.size id []
      let depths := descend climbed.1 climbed.2.2 depths
      canonicalDepths parents ids (depths.insertIfNew climbed.2.1 climbed.2.2)

def objectEntries (zones : BTreeMap DeclarationId ZoneEntry) : List ObjectSpec →
    BTreeMap DeclarationId ObjectEntry →
    Except ArcZonesError (BTreeMap DeclarationId ObjectEntry)
  | [], entries => .ok entries
  | object :: objects, entries => do
      validateIdentity object.id
      refuseIf (object.zone ∉ zones) .unknownZone
      refuseIf (object.id ∈ entries) .duplicateObject
      objectEntries zones objects (entries.insert object.id ⟨object.zone, object.shareable⟩)

/-- Build and validate a model. -/
def ArcZonesModel.tryNew (zones : List ZoneSpec) (objects : List ObjectSpec) :
    Except ArcZonesError ArcZonesModel := do
  refuseIf (zones = []) .missingRoot
  refuseIf (zones.length > maxZones) .zoneBoundExceeded
  refuseIf (objects.length > maxObjects) .objectBoundExceeded
  refuseIf (zones.length * (objects.length + 1) + objects.length > maxWork) .workBudgetExceeded
  let maps ← zoneMaps zones ∅ ∅
  checkRoots zones
  checkParents maps.1 zones
  let depths ← canonicalDepths maps.1 maps.1.keys ∅
  let entries : BTreeMap DeclarationId ZoneEntry := maps.1.keys.foldl (fun entries id =>
    entries.insert id
      { parent := (maps.1[id]?).join
        depth := depths.getD id 0
        thread := maps.2.getD id "" }) ∅
  let root := ((zones.find? fun zone => zone.parent.isNone).map ZoneSpec.id).getD ""
  let objects ← objectEntries entries objects ∅
  pure ⟨root, entries, objects⟩

variable {objects : List ObjectSpec}

theorem objectEntries_homes {zones : BTreeMap DeclarationId ZoneEntry}
    {entries after : BTreeMap DeclarationId ObjectEntry}
    (built : objectEntries zones objects entries = .ok after)
    (homes : ∀ (id : DeclarationId) (entry : ObjectEntry),
      entries[id]? = some entry → entry.zone ∈ zones) :
    ∀ (id : DeclarationId) (entry : ObjectEntry),
      after[id]? = some entry → entry.zone ∈ zones := by
  induction objects generalizing entries with
  | nil =>
    obtain rfl := Except.ok.inj built
    exact homes
  | cons object objects ih =>
    unfold objectEntries at built
    obtain ⟨_, -, built⟩ := bind_eq_ok.mp built
    obtain ⟨_, known, built⟩ := bind_eq_ok.mp built
    obtain ⟨_, -, built⟩ := bind_eq_ok.mp built
    have home : object.zone ∈ zones := by
      unfold refuseIf at known
      split_ifs at known with unknown
      exact unknown
    refine ih built fun id entry found => ?_
    rw [BTreeMap.getElem?_insert_eq] at found
    split_ifs at found with same
    · obtain rfl := Option.some.inj found
      exact home
    · exact homes id entry found

theorem tryNew_homes {zones : List ZoneSpec} {model : ArcZonesModel}
    (accepted : ArcZonesModel.tryNew zones objects = .ok model) :
    ∀ (id : DeclarationId) (entry : ObjectEntry),
      model.objects[id]? = some entry → entry.zone ∈ model.zones := by
  unfold ArcZonesModel.tryNew at accepted
  iterate 4 obtain ⟨_, -, accepted⟩ := bind_eq_ok.mp accepted
  obtain ⟨maps, -, accepted⟩ := bind_eq_ok.mp accepted
  obtain ⟨_, -, accepted⟩ := bind_eq_ok.mp accepted
  obtain ⟨_, -, accepted⟩ := bind_eq_ok.mp accepted
  obtain ⟨depths, -, accepted⟩ := bind_eq_ok.mp accepted
  obtain ⟨entries, built, accepted⟩ := bind_eq_ok.mp accepted
  obtain rfl := Except.ok.inj accepted
  exact objectEntries_homes built fun id entry found => by simp at found

end Semaprax.ArcZones
