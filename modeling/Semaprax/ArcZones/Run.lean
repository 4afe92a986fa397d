/-
**Runs of a script over managed zones** (`arc_zones.rs`).

The linear execution of one script: eight operations over the handles, the base references, the links
and the open zones, and the finalization that cascades through the links.

* `finalize` — finalize an object and, in turn, every target that is left without a reference. It
  returns the calls it made, with the run that each of them found; the events are read off them.
* `exitZone` — reject a zone with a reference cycle, or finalize what still lives in it, latest
  construction first.
* `ArcZonesRun.step` — one operation of the script. An operation that is refused changes nothing but
  the cursor.

A failed `expect`, an index without an entry and a counter below zero are the fault `panicked`;
running out of fuel is the fault `stalled`.
-/

import Semaprax.ArcZones.Cycles

namespace Semaprax.ArcZones

open Library

/-- An operation of a script. -/
inductive Op
  | construct (object : DeclarationId)
  | retain (object : DeclarationId)
  | release (object : DeclarationId)
  | link (source target : DeclarationId)
  | unlink (source target : DeclarationId)
  | demote (object : DeclarationId)
  | enterZone (zone : DeclarationId)
  | exitZone (zone : DeclarationId)
deriving DecidableEq, Repr

/-- Why an object was finalized. -/
inductive FinalizeCause
  | release
  | cascade
  | zoneExit
deriving DecidableEq, Repr

/-- The events of a run. -/
inductive ArcZoneEvent
  | constructed (object : DeclarationId)
  | retained (object : DeclarationId)
  | released (object : DeclarationId)
  | linked (source target : DeclarationId)
  | unlinked (source target : DeclarationId)
  | escapedToUnique (object : DeclarationId)
  | finalized (object : DeclarationId) (cause : FinalizeCause)
  | zoneEntered (zone : DeclarationId)
  | zoneExited (zone : DeclarationId)
  | zoneRejectedCycle (zone witness : DeclarationId)
deriving DecidableEq, Repr

/-- The phase of an object that was constructed (`NotConstructed` is the absence of a phase). -/
inductive Phase
  | live
  | finalized
deriving DecidableEq, Repr

inductive RunStatus
  | running
  | complete
  | rejected
deriving DecidableEq, Repr

/-- The totals of a run. -/
structure ArcZoneTotals where
  constructed : Nat := 0
  retained : Nat := 0
  released : Nat := 0
  finalized : Nat := 0
  zonesEntered : Nat := 0
  zonesExited : Nat := 0
  zonesRejected : Nat := 0
deriving DecidableEq, Repr

/-- A run of a script. The open zones have the innermost in front. -/
structure ArcZonesRun where
  script : List Op
  cursor : Nat
  phases : BTreeMap DeclarationId Phase
  constructionSeq : BTreeMap DeclarationId Nat
  heldHandles : BTreeMap DeclarationId Nat
  baseReleased : BTreeSet DeclarationId
  unique : BTreeSet DeclarationId
  liveLinks : Links DeclarationId
  inDegree : BTreeMap DeclarationId Nat
  nextSeq : Nat
  openZones : List DeclarationId
  events : List ArcZoneEvent
  status : RunStatus
  rejectedWitness : Option DeclarationId
  totals : ArcZoneTotals

def prepareRun (script : List Op) : ArcZonesRun where
  script := script
  cursor := 0
  phases := ∅
  constructionSeq := ∅
  heldHandles := ∅
  baseReleased := ∅
  unique := ∅
  liveLinks := ∅
  inDegree := ∅
  nextSeq := 0
  openZones := []
  events := []
  status := .running
  rejectedWitness := none
  totals := {}

/-- Why an operation has no result. -/
inductive Fault
  | refused (error : ArcZonesError)
  | panicked
  | stalled
deriving DecidableEq, Repr

/-- A call of `finalize`: the object, the cause, and the run that the call found. -/
structure Finalization where
  object : DeclarationId
  cause : FinalizeCause
  found : ArcZonesRun

def Finalization.event (call : Finalization) : ArcZoneEvent := .finalized call.object call.cause

/-- What an operation that is not refused does: the run after it, its batch of events, and the calls
of `finalize` among them. -/
structure Applied where
  run : ArcZonesRun
  batch : List ArcZoneEvent
  calls : List Finalization

namespace ArcZonesRun

variable (run : ArcZonesRun)

/-- The strong references of an object: its base, its incoming links and its handles. -/
def liveTotal (object : DeclarationId) : Nat :=
  (if object ∈ run.baseReleased then 0 else 1) + countOf run.inDegree object +
    run.heldHandles.getD object 0

def isLive (object : DeclarationId) : Bool := run.phases[object]? = some .live

/-- Append a batch to the events (`record`). -/
def record (batch : List ArcZoneEvent) (calls : List Finalization) : Applied :=
  ⟨{ run with
    events := run.events ++ batch }, batch, calls⟩

/-- The innermost open zone. -/
def currentZone : Except Fault DeclarationId :=
  match run.openZones with
  | [] => .error (.refused .noOpenZone)
  | zone :: _ => .ok zone

end ArcZonesRun

/-- What a lookup takes for granted. -/
def expect {A : Type} : Option A → Except Fault A
  | some value => .ok value
  | none => .error .panicked

def refuseOpIf (condition : Prop) [Decidable condition] (error : ArcZonesError) :
    Except Fault Unit :=
  if condition then .error (.refused error) else .ok ()

/-- Go through a list of objects and finalize, one after the other, those that are due by then. -/
def sweep (due : ArcZonesRun → DeclarationId → Bool)
    (finalizeOne : ArcZonesRun → DeclarationId → Except Fault (ArcZonesRun × List Finalization)) :
    List DeclarationId → ArcZonesRun → Except Fault (ArcZonesRun × List Finalization)
  | [], run => .ok (run, [])
  | object :: objects, run =>
    if due run object then do
      let first ← finalizeOne run object
      let rest ← sweep due finalizeOne objects first.1
      pure (rest.1, first.2 ++ rest.2)
    else sweep due finalizeOne objects run

/-- A target that the cascade reaches: live, and without a reference. -/
def unreferenced (run : ArcZonesRun) (object : DeclarationId) : Bool :=
  run.isLive object && run.liveTotal object = 0

/-- Mark an object finalized and drop its links, with the in-degrees that are left. -/
def ArcZonesRun.mark (run : ArcZonesRun) (object : DeclarationId)
    (inDegree : BTreeMap DeclarationId Nat) : ArcZonesRun :=
  { run with
    phases := run.phases.insert object .finalized
    inDegree
    liveLinks := run.liveLinks.erase object
    totals := { run.totals with
      finalized := run.totals.finalized + 1 } }

/-- Finalize a live object and cascade through its links, in order, depth first. -/
def finalize : Nat → FinalizeCause → ArcZonesRun → DeclarationId →
    Except Fault (ArcZonesRun × List Finalization)
  | 0, _, _, _ => .error .stalled
  | fuel + 1, cause, run, object =>
    if ¬ run.isLive object then .error .panicked
    else do
      let targets := targetsOf run.liveLinks object
      let inDegree ← expect (decrementAll run.inDegree targets)
      let rest ← sweep unreferenced (finalize fuel .cascade) targets (run.mark object inDegree)
      pure (rest.1, ⟨object, cause, run⟩ :: rest.2)

/-- Fuel for one call of `finalize` for every object that was constructed. -/
def ArcZonesRun.room (run : ArcZonesRun) : Nat := run.phases.size

/-- Finalize an object that has lost its last reference. -/
def finalizeIfUnreferenced (run : ArcZonesRun) (object : DeclarationId) :
    Except Fault (ArcZonesRun × List Finalization) :=
  if run.liveTotal object = 0 then finalize run.room .release run object else .ok (run, [])

section Operations

variable (model : ArcZonesModel) (run : ArcZonesRun)

def liveObjectInCurrentZone (object : DeclarationId) : Except Fault Unit := do
  match model.objects[object]? with
  | none => .error (.refused .unknownObject)
  | some entry => do
      refuseOpIf (¬ run.isLive object) .deadOrUnconstructedObject
      let current ← run.currentZone
      refuseOpIf (entry.zone ≠ current) .foreignZoneObject

def construct (object : DeclarationId) : Except Fault Applied := do
  match model.objects[object]? with
  | none => .error (.refused .unknownObject)
  | some entry => do
      refuseOpIf (object ∈ run.phases) .alreadyConstructed
      let current ← run.currentZone
      refuseOpIf (entry.zone ≠ current) .foreignZoneObject
      let after := { run with
        phases := run.phases.insert object .live
        constructionSeq := run.constructionSeq.insert object run.nextSeq
        nextSeq := run.nextSeq + 1
        heldHandles := run.heldHandles.insert object 0
        totals := { run.totals with
          constructed := run.totals.constructed + 1 } }
      pure (after.record [.constructed object] [])

def retain (object : DeclarationId) : Except Fault Applied := do
  liveObjectInCurrentZone model run object
  refuseOpIf (object ∈ run.unique) .sharedUseOfUnique
  let held ← expect run.heldHandles[object]?
  let after := { run with
    heldHandles := run.heldHandles.insert object (held + 1)
    totals := { run.totals with
      retained := run.totals.retained + 1 } }
  pure (after.record [.retained object] [])

def release (object : DeclarationId) : Except Fault Applied := do
  liveObjectInCurrentZone model run object
  let held ← expect run.heldHandles[object]?
  refuseOpIf (held = 0 ∧ object ∈ run.baseReleased) .doubleRelease
  let after := { run with
    heldHandles :=
      if held > 0 then run.heldHandles.insert object (held - 1) else run.heldHandles
    baseReleased := if held > 0 then run.baseReleased else run.baseReleased.insert object
    totals := { run.totals with
      released := run.totals.released + 1 } }
  let finalized ← finalizeIfUnreferenced after object
  pure (finalized.1.record (.released object :: finalized.2.map Finalization.event) finalized.2)

def link (source target : DeclarationId) : Except Fault Applied := do
  liveObjectInCurrentZone model run source
  match model.objects[target]? with
  | none => .error (.refused .unknownObject)
  | some entry => do
      refuseOpIf (¬ run.isLive target) .deadOrUnconstructedObject
      let current ← run.currentZone
      refuseOpIf (source ∈ run.unique ∨ target ∈ run.unique) .sharedUseOfUnique
      let sourceZone ← expect model.zones[current]?
      let targetZone ← expect model.zones[entry.zone]?
      refuseOpIf ((entry.zone ≠ current ∨ sourceZone.thread ≠ targetZone.thread) ∧
        entry.shareable ≠ .shareable) .sharingWithoutShareable
      refuseOpIf (target ∈ targetsOf run.liveLinks source) .duplicateLiveLink
      let after := { run with
        liveLinks := run.liveLinks.insert source
          ((run.liveLinks.getD source ∅).insert target)
        inDegree := increment run.inDegree target }
      pure (after.record [.linked source target] [])

def unlink (source target : DeclarationId) : Except Fault Applied := do
  liveObjectInCurrentZone model run source
  refuseOpIf (¬ run.isLive target) .deadOrUnconstructedObject
  refuseOpIf (target ∉ targetsOf run.liveLinks source) .unknownLiveLink
  let targets := (run.liveLinks.getD source ∅).erase target
  let inDegree ← expect (decrement run.inDegree target)
  let after := { run with
    liveLinks :=
      if targets.isEmpty then run.liveLinks.erase source else run.liveLinks.insert source targets
    inDegree }
  let finalized ← finalizeIfUnreferenced after target
  pure (finalized.1.record (.unlinked source target :: finalized.2.map Finalization.event)
    finalized.2)

def demote (object : DeclarationId) : Except Fault Applied := do
  liveObjectInCurrentZone model run object
  refuseOpIf (object ∈ run.unique ∨ run.liveTotal object ≠ 1) .demotionNotApplicable
  let after := { run with
    unique := run.unique.insert object }
  pure (after.record [.escapedToUnique object] [])

def enterZone (zone : DeclarationId) : Except Fault Applied := do
  match model.zones[zone]? with
  | none => .error (.refused .unknownZone)
  | some entry => do
      refuseOpIf (zone ∈ run.openZones) .zoneAlreadyOpen
      refuseOpIf (run.openZones.head? ≠ entry.parent) .parentNotOpen
      let after := { run with
        openZones := zone :: run.openZones
        totals := { run.totals with
          zonesEntered := run.totals.zonesEntered + 1 } }
      pure (after.record [.zoneEntered zone] [])

def liveHere (zone : DeclarationId) : List DeclarationId :=
  run.phases.keys.filter fun id =>
    run.isLive id && decide ((model.objects[id]?).map ObjectEntry.zone = some zone)

/-- The objects of a zone in the order in which they are drained: latest construction first. -/
def drainOrder (objects : List DeclarationId) : Except Fault (List DeclarationId) := do
  let numbered ← objects.mapM fun id => do
    let seq ← expect run.constructionSeq[id]?
    pure (seq, id)
  let sorted := numbered.mergeSort fun first second =>
    first.1 < second.1 || (first.1 = second.1 && first.2 ≤ second.2)
  pure (sorted.reverse.map Prod.snd)

def exitZone (zone : DeclarationId) : Except Fault Applied := do
  refuseOpIf (zone ∉ model.zones) .unknownZone
  refuseOpIf (run.openZones.head? ≠ some zone ∧ zone ∈ run.openZones) .unbalancedZoneExit
  refuseOpIf (run.openZones.head? ≠ some zone) .zoneNotOpen
  let objects := liveHere model run zone
  let participants ← expect (cycleParticipants objects run.liveLinks run.isLive)
  match (objects.filter fun id => id ∈ participants).min? with
  | some witness =>
    let after := { run with
      status := .rejected
      rejectedWitness := some witness
      totals := { run.totals with
        zonesRejected := run.totals.zonesRejected + 1 } }
    pure (after.record [.zoneRejectedCycle zone witness] [])
  | none => do
      let draining ← drainOrder run objects
      let drained ← sweep (fun run object => run.isLive object)
        (finalize run.room .zoneExit) draining run
      let after := { drained.1 with
        openZones := drained.1.openZones.tail
        totals := { drained.1.totals with
          zonesExited := drained.1.totals.zonesExited + 1 }
        status := if drained.1.openZones.tail.isEmpty then .complete else drained.1.status }
      pure (after.record (drained.2.map Finalization.event ++ [.zoneExited zone]) drained.2)

/-- One operation. -/
def applyOp : Op → Except Fault Applied
  | .construct object => construct model run object
  | .retain object => retain model run object
  | .release object => release model run object
  | .link source target => link model run source target
  | .unlink source target => unlink model run source target
  | .demote object => demote model run object
  | .enterZone zone => enterZone model run zone
  | .exitZone zone => exitZone model run zone

/-- Apply the next operation of the script. A run that has ended, or whose script has, stays as it
is; so does one whose script is too long. -/
def ArcZonesRun.step : Except Fault Applied :=
  if run.script.length > maxScriptOps then .error (.refused .scriptBoundExceeded)
  else if run.status ≠ .running then .ok ⟨run, [], []⟩
  else
    match run.script[run.cursor]? with
    | none => .ok ⟨run, [], []⟩
    | some op =>
      applyOp model { run with
        cursor := run.cursor + 1 } op

/-- The run after a step that was refused: only an operation that was tried has moved the cursor. -/
def ArcZonesRun.refused : ArcZonesRun :=
  if run.script.length > maxScriptOps then run
  else { run with
    cursor := run.cursor + 1 }

end Operations

end Semaprax.ArcZones
