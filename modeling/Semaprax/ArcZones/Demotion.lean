/-
**Demotion to unique ownership** (`arc_zones.rs`, `demote`).

An object may be demoted when its strong references sum up to one. The sum does not say which
reference that is: after the base was released, it may be a link or a handle.

* `Unshared` — an object has its base, no handle and no incoming link.
* `Narrows` — what finalization leaves alone.
* `Guarded` — every unique object that is live is unshared; `applyOp_guarded` — an operation keeps
  that, unless it demotes an object whose base was released.
* `demotions_unshared_iff` — over whole runs.
-/

import Semaprax.ArcZones.Accounting

namespace Semaprax.ArcZones

open Library

/-- The base of an object is not released, and it has no handle and no incoming link. -/
structure Unshared (run : ArcZonesRun) (object : DeclarationId) : Prop where
  based : object ∉ run.baseReleased
  unheld : run.heldHandles.getD object 0 = 0
  unlinked : ∀ owner, object ∉ targetsOf run.liveLinks owner

/-- Every unique object that is live is unshared. -/
def DemotionsUnshared (run : ArcZonesRun) : Prop :=
  ∀ object ∈ run.unique, run.phases[object]? = some .live → Unshared run object

/-- The next operation demotes an object, and is not refused. -/
structure Demotes (model : ArcZonesModel) (run : ArcZonesRun) (object : DeclarationId) : Prop where
  bounded : run.script.length ≤ maxScriptOps
  running : run.status = .running
  next : run.script[run.cursor]? = some (.demote object)
  here : liveObjectInCurrentZone model run object = .ok ()
  shared : object ∉ run.unique
  total : run.liveTotal object = 1

/-- The next operation demotes no object whose base was released. -/
def DemotesBased (model : ArcZonesModel) (run : ArcZonesRun) : Prop :=
  ∀ object, Demotes model run object → object ∉ run.baseReleased

/-- What a run after some calls of `finalize` has of the run before. -/
structure Narrows (run after : ArcZonesRun) : Prop where
  unique : after.unique = run.unique
  baseReleased : after.baseReleased = run.baseReleased
  heldHandles : after.heldHandles = run.heldHandles
  known : ∀ object, object ∈ run.phases → object ∈ after.phases
  live : ∀ object : DeclarationId,
    after.phases[object]? = some .live → run.phases[object]? = some .live
  links : ∀ owner target,
    target ∈ targetsOf after.liveLinks owner → target ∈ targetsOf run.liveLinks owner

section Finalizing

variable {run between after : ArcZonesRun} {calls : List Finalization} {object : DeclarationId}

theorem Narrows.refl (run : ArcZonesRun) : Narrows run run :=
  ⟨rfl, rfl, rfl, fun _ => id, fun _ => id, fun _ _ => id⟩

theorem Narrows.trans (first : Narrows run between) (second : Narrows between after) :
    Narrows run after :=
  ⟨second.unique.trans first.unique, second.baseReleased.trans first.baseReleased,
    second.heldHandles.trans first.heldHandles,
    fun object member => second.known object (first.known object member),
    fun object alive => first.live object (second.live object alive),
    fun owner target member => first.links owner target (second.links owner target member)⟩

theorem mark_narrows (run : ArcZonesRun) (object : DeclarationId)
    (inDegree : BTreeMap DeclarationId Nat) : Narrows run (run.mark object inDegree) := by
  refine ⟨rfl, rfl, rfl, fun other member => ?_, fun other alive => ?_, fun owner target member => ?_⟩
  · exact (BTreeMap.mem_insert_iff ..).mpr (.inr member)
  · rw [mark_phases] at alive
    split_ifs at alive
    · cases alive
    · exact alive
  · have kept : target ∈ targetsOf (run.liveLinks.erase object) owner := member
    rw [targetsOf_erase] at kept
    split_ifs at kept
    · cases kept
    · exact kept

theorem sweep_related (related : ArcZonesRun → ArcZonesRun → Prop)
    {due : ArcZonesRun → DeclarationId → Bool}
    {finalizeOne : ArcZonesRun → DeclarationId → Except Fault (ArcZonesRun × List Finalization)}
    (refl : ∀ run, related run run)
    (trans : ∀ {run between after}, related run between → related between after → related run after)
    (calls_related : ∀ run object after calls, finalizeOne run object = .ok (after, calls) →
      related run after)
    {objects : List DeclarationId} (ran : sweep due finalizeOne objects run = .ok (after, calls)) :
    related run after := by
  induction objects generalizing run calls with
  | nil =>
    cases ran
    exact refl _
  | cons first objects ih =>
    unfold sweep at ran
    split_ifs at ran with isDue
    · obtain ⟨⟨middle, some⟩, one, ran⟩ := bind_eq_ok.mp ran
      obtain ⟨⟨last, more⟩, rest, ran⟩ := bind_eq_ok.mp ran
      cases ran
      exact trans (calls_related run first middle some one) (ih rest)
    · exact ih ran

theorem finalize_narrows {fuel : Nat} {cause : FinalizeCause}
    (ran : finalize fuel cause run object = .ok (after, calls)) :
    Narrows run after ∧ after.phases[object]? ≠ some .live := by
  induction fuel generalizing run object after calls cause with
  | zero => cases ran
  | succ fuel ih =>
    unfold finalize at ran
    split_ifs at ran with dead
    obtain ⟨inDegree, -, ran⟩ := bind_eq_ok.mp ran
    obtain ⟨⟨last, more⟩, rest, ran⟩ := bind_eq_ok.mp ran
    cases ran
    have swept := sweep_related Narrows .refl .trans (fun _ _ _ _ one => (ih one).1) rest
    refine ⟨(mark_narrows run object inDegree).trans swept, fun alive => ?_⟩
    have marked := swept.live object alive
    rw [mark_phases, if_pos rfl] at marked
    cases marked

theorem finalizeIfUnreferenced_narrows
    (ran : finalizeIfUnreferenced run object = .ok (after, calls)) :
    Narrows run after ∧ (run.liveTotal object = 0 → after.phases[object]? ≠ some .live) := by
  unfold finalizeIfUnreferenced at ran
  split_ifs at ran with gone
  · obtain ⟨narrows, dead⟩ := finalize_narrows ran
    exact ⟨narrows, fun _ => dead⟩
  · cases ran
    exact ⟨.refl run, fun none => absurd none gone⟩

end Finalizing

/-- Every unique object was constructed, and is unshared while it is live. -/
structure Guarded (run : ArcZonesRun) : Prop where
  known : ∀ object ∈ run.unique, object ∈ run.phases
  unshared : DemotionsUnshared run

section Operations

variable {model : ArcZonesModel} {run after : ArcZonesRun} {result : Applied}
  {object : DeclarationId}

variable {source target zone : DeclarationId}

theorem Unshared.narrows (unshared : Unshared run object) (narrows : Narrows run after) :
    Unshared after object := by
  refine ⟨?_, ?_, fun owner member => unshared.unlinked owner (narrows.links owner object member)⟩
  · rw [narrows.baseReleased]
    exact unshared.based
  · rw [narrows.heldHandles]
    exact unshared.unheld

theorem Guarded.narrows (guarded : Guarded run) (narrows : Narrows run after) : Guarded after := by
  refine ⟨fun object member => ?_, fun object member alive => ?_⟩
  · rw [narrows.unique] at member
    exact narrows.known object (guarded.known object member)
  · rw [narrows.unique] at member
    exact (guarded.unshared object member (narrows.live object alive)).narrows narrows

theorem refuseOpIf_ok {condition : Prop} [Decidable condition] {error : ArcZonesError}
    (passed : refuseOpIf condition error = .ok ()) : ¬condition := by
  unfold refuseOpIf at passed
  split_ifs at passed with refused
  exact refused

theorem expect_ok {A : Type} {option : Option A} {value : A}
    (found : expect option = .ok value) : option = some value := by
  cases option with
  | none => cases found
  | some other =>
    cases found
    rfl

theorem liveObject_ok (here : liveObjectInCurrentZone model run object = .ok ()) :
    run.phases[object]? = some .live := by
  unfold liveObjectInCurrentZone at here
  cases known : model.objects[object]? with
  | none =>
    rw [known] at here
    cases here
  | some entry =>
    simp only [known] at here
    obtain ⟨_, passed, -⟩ := bind_eq_ok.mp here
    exact isLive_iff.mp (not_not.mp (refuseOpIf_ok passed))

theorem construct_guarded (guarded : Guarded run)
    (ran : construct model run object = .ok result) : Guarded result.run := by
  unfold construct at ran
  cases known : model.objects[object]? with
  | none =>
    rw [known] at ran
    cases ran
  | some entry =>
    simp only [known] at ran
    obtain ⟨_, fresh, ran⟩ := bind_eq_ok.mp ran
    obtain ⟨zone, -, ran⟩ := bind_eq_ok.mp ran
    obtain ⟨_, -, ran⟩ := bind_eq_ok.mp ran
    cases ran
    have fresh := refuseOpIf_ok fresh
    refine ⟨fun other member => ?_, fun other member alive => ?_⟩
    · exact (BTreeMap.mem_insert_iff ..).mpr (.inr (guarded.known other member))
    · have differs : object ≠ other := fun same => fresh (same ▸ guarded.known other member)
      have alive : (run.phases.insert object .live)[other]? = some .live := alive
      rw [BTreeMap.getElem?_insert_eq, if_neg differs] at alive
      obtain ⟨based, unheld, unlinked⟩ := guarded.unshared other member alive
      refine ⟨based, ?_, unlinked⟩
      show (run.heldHandles.insert object 0).getD other 0 = 0
      rw [Std.TreeMap.getD_eq_getD_getElem?, BTreeMap.getElem?_insert_eq, if_neg differs,
        ← Std.TreeMap.getD_eq_getD_getElem?]
      exact unheld

theorem retain_guarded (guarded : Guarded run) (ran : retain model run object = .ok result) :
    Guarded result.run := by
  unfold retain at ran
  obtain ⟨_, -, ran⟩ := bind_eq_ok.mp ran
  obtain ⟨_, shared, ran⟩ := bind_eq_ok.mp ran
  obtain ⟨held, -, ran⟩ := bind_eq_ok.mp ran
  cases ran
  have shared := refuseOpIf_ok shared
  refine ⟨guarded.known, fun other member alive => ?_⟩
  have differs : object ≠ other := fun same => shared (same ▸ member)
  obtain ⟨based, unheld, unlinked⟩ := guarded.unshared other member alive
  refine ⟨based, ?_, unlinked⟩
  show (run.heldHandles.insert object (held + 1)).getD other 0 = 0
  rw [Std.TreeMap.getD_eq_getD_getElem?, BTreeMap.getElem?_insert_eq, if_neg differs,
    ← Std.TreeMap.getD_eq_getD_getElem?]
  exact unheld

theorem release_guarded (accounted : Accounted model run) (guarded : Guarded run)
    (ran : release model run object = .ok result) : Guarded result.run := by
  unfold release at ran
  obtain ⟨_, here, ran⟩ := bind_eq_ok.mp ran
  obtain ⟨held, slot, ran⟩ := bind_eq_ok.mp ran
  obtain ⟨_, -, ran⟩ := bind_eq_ok.mp ran
  obtain ⟨⟨last, calls⟩, finalized, ran⟩ := bind_eq_ok.mp ran
  cases ran
  have slot := expect_ok slot
  obtain ⟨narrows, gone⟩ := finalizeIfUnreferenced_narrows finalized
  refine ⟨fun other member => ?_, fun other member alive => ?_⟩
  · have member : other ∈ last.unique := member
    rw [narrows.unique] at member
    exact narrows.known other (guarded.known other member)
  have member : other ∈ last.unique := member
  have alive : last.phases[other]? = some .live := alive
  rw [narrows.unique] at member
  obtain ⟨based, unheld, unlinked⟩ := guarded.unshared other member (narrows.live other alive)
  by_cases same : object = other
  · subst same
    have none : held = 0 := by
      rw [Std.TreeMap.getD_eq_getD_getElem?, slot] at unheld
      exact unheld
    subst none
    refine absurd alive (gone ?_)
    have nobody : countOf run.inDegree object = 0 := by
      rw [accounted.counted object, Finset.card_eq_zero]
      exact Finset.eq_empty_of_forall_notMem fun owner member => unlinked owner (mem_owners.mp member)
    unfold ArcZonesRun.liveTotal
    simp only [gt_iff_lt, lt_irrefl, if_false]
    rw [if_pos ((BTreeSet.mem_insert_iff ..).mpr (.inl rfl)), nobody, unheld]
  · have kept : Unshared last other := by
      refine Unshared.narrows ?_ narrows
      refine ⟨?_, ?_, unlinked⟩
      · show other ∉ if held > 0 then run.baseReleased else run.baseReleased.insert object
        split_ifs
        · exact based
        · intro listed
          rcases (BTreeSet.mem_insert_iff ..).mp listed with equal | listed
          · exact same equal
          · exact based listed
      · show (if held > 0 then run.heldHandles.insert object (held - 1)
          else run.heldHandles).getD other 0 = 0
        split_ifs
        · rw [Std.TreeMap.getD_eq_getD_getElem?, BTreeMap.getElem?_insert_eq, if_neg same,
            ← Std.TreeMap.getD_eq_getD_getElem?]
          exact unheld
        · exact unheld
    exact ⟨kept.based, kept.unheld, kept.unlinked⟩

theorem link_guarded (guarded : Guarded run)
    (ran : link model run source target = .ok result) : Guarded result.run := by
  unfold link at ran
  obtain ⟨_, -, ran⟩ := bind_eq_ok.mp ran
  cases known : model.objects[target]? with
  | none =>
    rw [known] at ran
    cases ran
  | some entry =>
    simp only [known] at ran
    obtain ⟨_, -, ran⟩ := bind_eq_ok.mp ran
    obtain ⟨zone, -, ran⟩ := bind_eq_ok.mp ran
    obtain ⟨_, shared, ran⟩ := bind_eq_ok.mp ran
    obtain ⟨sourceZone, -, ran⟩ := bind_eq_ok.mp ran
    obtain ⟨targetZone, -, ran⟩ := bind_eq_ok.mp ran
    obtain ⟨_, -, ran⟩ := bind_eq_ok.mp ran
    obtain ⟨_, -, ran⟩ := bind_eq_ok.mp ran
    cases ran
    have shared := refuseOpIf_ok shared
    refine ⟨guarded.known, fun other member alive => ?_⟩
    obtain ⟨based, unheld, unlinked⟩ := guarded.unshared other member alive
    refine ⟨based, unheld, fun owner linked => ?_⟩
    rcases (mem_targetsOf_link ..).mp linked with old | ⟨-, same⟩
    · exact unlinked owner old
    · exact shared (.inr (same ▸ member))

theorem unlink_guarded (guarded : Guarded run)
    (ran : unlink model run source target = .ok result) : Guarded result.run := by
  unfold unlink at ran
  iterate 3 obtain ⟨_, -, ran⟩ := bind_eq_ok.mp ran
  obtain ⟨inDegree, -, ran⟩ := bind_eq_ok.mp ran
  obtain ⟨⟨last, calls⟩, finalized, ran⟩ := bind_eq_ok.mp ran
  cases ran
  obtain ⟨narrows, -⟩ := finalizeIfUnreferenced_narrows finalized
  have kept : Guarded last := guarded.narrows (Narrows.trans ?_ narrows)
  · exact kept.narrows ⟨rfl, rfl, rfl, fun _ => id, fun _ => id, fun _ _ => id⟩
  exact ⟨rfl, rfl, rfl, fun _ => id, fun _ => id,
    fun owner aim member => ((mem_targetsOf_unlink ..).mp member).1⟩

theorem unshared_of_total (accounted : Accounted model run) (total : run.liveTotal object = 1)
    (based : object ∉ run.baseReleased) : Unshared run object := by
  unfold ArcZonesRun.liveTotal at total
  rw [if_neg based] at total
  have degree := accounted.counted object
  have nobody : owners run.liveLinks object = ∅ := Finset.card_eq_zero.mp (by omega)
  refine ⟨based, by omega, fun owner linked => ?_⟩
  have member := mem_owners.mpr linked
  rw [nobody] at member
  exact absurd member (Finset.notMem_empty owner)

theorem demote_guarded (accounted : Accounted model run) (guarded : Guarded run)
    (based : object ∉ run.baseReleased) (ran : demote model run object = .ok result) :
    Guarded result.run := by
  unfold demote at ran
  obtain ⟨_, here, ran⟩ := bind_eq_ok.mp ran
  obtain ⟨_, passed, ran⟩ := bind_eq_ok.mp ran
  cases ran
  have applicable := not_or.mp (refuseOpIf_ok passed)
  refine ⟨fun other member => ?_, fun other member alive => ?_⟩
  · rcases (BTreeSet.mem_insert_iff ..).mp member with rfl | old
    · show object ∈ run.phases
      rw [Std.TreeMap.mem_iff_isSome_getElem?, liveObject_ok here]
      rfl
    · exact guarded.known other old
  · have unshared : Unshared run other := by
      rcases (BTreeSet.mem_insert_iff ..).mp member with rfl | old
      · exact unshared_of_total accounted (not_not.mp applicable.2) based
      · exact guarded.unshared other old alive
    exact ⟨unshared.based, unshared.unheld, unshared.unlinked⟩

theorem enterZone_guarded (guarded : Guarded run)
    (ran : enterZone model run zone = .ok result) : Guarded result.run := by
  unfold enterZone at ran
  cases known : model.zones[zone]? with
  | none =>
    rw [known] at ran
    cases ran
  | some entry =>
    simp only [known] at ran
    obtain ⟨_, -, ran⟩ := bind_eq_ok.mp ran
    obtain ⟨_, -, ran⟩ := bind_eq_ok.mp ran
    cases ran
    exact guarded.narrows ⟨rfl, rfl, rfl, fun _ => id, fun _ => id, fun _ _ => id⟩

theorem exitZone_guarded (guarded : Guarded run)
    (ran : exitZone model run zone = .ok result) : Guarded result.run := by
  unfold exitZone at ran
  iterate 3 obtain ⟨_, -, ran⟩ := bind_eq_ok.mp ran
  obtain ⟨participants, -, ran⟩ := bind_eq_ok.mp ran
  cases least : ((liveHere model run zone).filter fun id => id ∈ participants).min? with
  | some witness =>
    simp only [least] at ran
    cases ran
    exact guarded.narrows ⟨rfl, rfl, rfl, fun _ => id, fun _ => id, fun _ _ => id⟩
  | none =>
    simp only [least] at ran
    obtain ⟨draining, -, ran⟩ := bind_eq_ok.mp ran
    obtain ⟨⟨last, calls⟩, drained, ran⟩ := bind_eq_ok.mp ran
    cases ran
    have narrows := sweep_related Narrows .refl .trans (fun _ _ _ _ one => (finalize_narrows one).1) drained
    exact (guarded.narrows narrows).narrows
      ⟨rfl, rfl, rfl, fun _ => id, fun _ => id, fun _ _ => id⟩

/-- **One operation.** It keeps every unique object unshared, unless it demotes an object whose base
was released. -/
theorem applyOp_guarded (accounted : Accounted model run) (guarded : Guarded run) {op : Op}
    (based : ∀ object, op = .demote object → object ∉ run.baseReleased)
    (ran : applyOp model run op = .ok result) : Guarded result.run := by
  cases op with
  | construct object => exact construct_guarded guarded ran
  | retain object => exact retain_guarded guarded ran
  | release object => exact release_guarded accounted guarded ran
  | link source target => exact link_guarded guarded ran
  | unlink source target => exact unlink_guarded guarded ran
  | demote object => exact demote_guarded accounted guarded (based object rfl) ran
  | enterZone zone => exact enterZone_guarded guarded ran
  | exitZone zone => exact exitZone_guarded guarded ran

theorem demote_ok_iff : (∃ result, demote model run object = .ok result) ↔
    liveObjectInCurrentZone model run object = .ok () ∧ object ∉ run.unique ∧
      run.liveTotal object = 1 := by
  constructor
  · rintro ⟨result, ran⟩
    unfold demote at ran
    obtain ⟨_, here, ran⟩ := bind_eq_ok.mp ran
    obtain ⟨_, passed, -⟩ := bind_eq_ok.mp ran
    have applicable := not_or.mp (refuseOpIf_ok passed)
    exact ⟨here, applicable.1, not_not.mp applicable.2⟩
  · rintro ⟨here, shared, total⟩
    refine ⟨_, bind_eq_ok.mpr ⟨(), here, bind_eq_ok.mpr ⟨(), ?_, rfl⟩⟩⟩
    unfold refuseOpIf
    rw [if_neg (not_or.mpr ⟨shared, not_not.mpr total⟩)]

/-- **One step.** -/
theorem step_guarded (accounted : Accounted model run) (guarded : Guarded run)
    (based : DemotesBased model run) (ran : run.step model = .ok result) : Guarded result.run := by
  unfold ArcZonesRun.step at ran
  split_ifs at ran with long ended
  · cases ran
    exact guarded
  · cases next : run.script[run.cursor]? with
    | none =>
      rw [next] at ran
      cases ran
      exact guarded
    | some op =>
      simp only [next] at ran
      have moved : Accounted model { run with
          cursor := run.cursor + 1 } :=
        accounted.same rfl rfl rfl (fun _ member => member) rfl rfl rfl rfl
      refine applyOp_guarded moved (guarded.narrows
        ⟨rfl, rfl, rfl, fun _ => id, fun _ => id, fun _ _ => id⟩) (fun object same => ?_) ran
      subst same
      obtain ⟨here, shared, total⟩ := demote_ok_iff.mp ⟨result, ran⟩
      exact based object ⟨not_lt.mp long, not_not.mp ended, next, here, shared, total⟩

/-- A demotion of an object whose base was released leaves it unique, live and without its base. -/
theorem step_unguarded (demotes : Demotes model run object) (released : object ∈ run.baseReleased) :
    ∃ result, run.step model = .ok result ∧ ¬ DemotionsUnshared result.run := by
  let moved := { run with
    cursor := run.cursor + 1 }
  obtain ⟨result, ran⟩ : ∃ result, demote model moved object = .ok result :=
    demote_ok_iff.mpr ⟨demotes.here, demotes.shared, demotes.total⟩
  refine ⟨result, ?_, fun unshared => ?_⟩
  · unfold ArcZonesRun.step
    rw [if_neg (not_lt.mpr demotes.bounded), if_neg (not_not.mpr demotes.running)]
    simp only [demotes.next]
    exact ran
  · unfold demote at ran
    obtain ⟨_, -, ran⟩ := bind_eq_ok.mp ran
    obtain ⟨_, -, ran⟩ := bind_eq_ok.mp ran
    cases ran
    have listed : object ∈ run.unique.insert object := (BTreeSet.mem_insert_iff ..).mpr (.inl rfl)
    exact (unshared object listed (liveObject_ok demotes.here)).based released

end Operations

section Runs

variable {model : ArcZonesModel} {run : ArcZonesRun} {zones : List ZoneSpec}
  {objects : List ObjectSpec}

theorem prepareRun_guarded (script : List Op) : Guarded (prepareRun script) := by
  refine ⟨fun object member => ?_, fun object member => ?_⟩ <;>
  · have none : object ∉ (∅ : BTreeSet DeclarationId) := Std.TreeSet.not_mem_emptyc
    exact absurd member none

end Runs

/-- An object that is linked to loses its base, and is demoted. -/
def baselessScript : List Op :=
  [.enterZone "root", .construct "a", .construct "b", .link "b" "a", .release "a", .demote "a"]

def ArcZonesRun.steps (model : ArcZonesModel) : Nat → ArcZonesRun → Except Fault ArcZonesRun
  | 0, run => .ok run
  | count + 1, run => do
      let result ← run.step model
      steps model count result.run

theorem steps_reaches {model : ArcZonesModel} {start : ArcZonesRun → Prop} {count : Nat}
    {run after : ArcZonesRun} (ran : run.steps model count = .ok after)
    (reached : Reaches start (Steps model) run) : Reaches start (Steps model) after := by
  induction count generalizing run with
  | zero =>
    cases ran
    exact reached
  | succ count ih =>
    obtain ⟨result, taken, rest⟩ := bind_eq_ok.mp ran
    exact ih rest (reached.step (.applied taken))

end Semaprax.ArcZones
