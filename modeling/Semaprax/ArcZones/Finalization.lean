/-
**What finalization does** (`arc_zones.rs`, `finalize`).

The cascade seen from outside: which objects it finalizes, what it leaves alone, and that it neither
fails nor runs out of fuel while the links of the run are counted and owned by live objects.

* `Linked` — the in-degrees count the links, and only live objects own any.
* `Finalizes` — a run after some calls of `finalize`.
* `sweep_some` / `finalize_some` — a sweep and a cascade end; `Forsaken` — a call for another reason
  than the exit of a zone found its object without a reference.
-/

import Semaprax.ArcZones.Run

namespace Semaprax.ArcZones

open Library

/-- The in-degrees count the links, and only live objects own links. -/
structure Linked (run : ArcZonesRun) : Prop where
  counted : Counted run.liveLinks run.inDegree
  liveOwners : ∀ owner target, target ∈ targetsOf run.liveLinks owner →
    run.phases[owner]? = some .live

/-- Unless the zone was left, the object of the call had no unreleased base, no handle and no incoming
link when it was finalized. -/
def Forsaken (call : Finalization) : Prop :=
  call.cause ≠ .zoneExit → call.object ∈ call.found.baseReleased ∧
    call.found.heldHandles.getD call.object 0 = 0 ∧
    owners call.found.liveLinks call.object = ∅

def objectsOf (calls : List Finalization) : List DeclarationId := calls.map Finalization.object

@[simp]
theorem objectsOf_append (calls more : List Finalization) :
    objectsOf (calls ++ more) = objectsOf calls ++ objectsOf more := List.map_append

/-- The run `after` is the run with the objects of some calls finalized. -/
structure Finalizes (run after : ArcZonesRun) (calls : List Finalization) : Prop where
  phases : ∀ object, after.phases[object]? =
    if object ∈ objectsOf calls then some .finalized else run.phases[object]?
  wereLive : ∀ object ∈ objectsOf calls, run.phases[object]? = some .live
  distinct : (objectsOf calls).Nodup
  forsaken : ∀ call ∈ calls, Forsaken call
  constructionSeq : after.constructionSeq = run.constructionSeq
  heldHandles : after.heldHandles = run.heldHandles
  openZones : after.openZones = run.openZones
  events : after.events = run.events
  status : after.status = run.status

def liveObjects (run : ArcZonesRun) : Finset DeclarationId :=
  run.phases.keys.toFinset.filter fun object => run.isLive object

section Calls

variable {run between after : ArcZonesRun} {calls more : List Finalization}
  {object : DeclarationId}

variable {fuel : Nat} {cause : FinalizeCause}

theorem isLive_iff : run.isLive object ↔ run.phases[object]? = some .live := decide_eq_true_iff

theorem mem_liveObjects : object ∈ liveObjects run ↔ run.phases[object]? = some .live := by
  unfold liveObjects
  rw [Finset.mem_filter, List.mem_toFinset, BTreeMap.mem_keys_iff, isLive_iff]
  refine and_iff_right_of_imp fun live => ?_
  rw [Std.TreeMap.mem_iff_isSome_getElem?, live]
  rfl

theorem Finalizes.refl (run : ArcZonesRun) : Finalizes run run [] where
  phases := fun _ => rfl
  wereLive := List.forall_mem_nil _
  distinct := List.nodup_nil
  forsaken := List.forall_mem_nil _
  constructionSeq := rfl
  heldHandles := rfl
  openZones := rfl
  events := rfl
  status := rfl

theorem Finalizes.live_iff (finalizes : Finalizes run after calls) :
    after.phases[object]? = some .live ↔
      run.phases[object]? = some .live ∧ object ∉ objectsOf calls := by
  rw [finalizes.phases]
  split_ifs with finalized
  · exact ⟨nofun, fun live => absurd finalized live.2⟩
  · exact ⟨fun live => ⟨live, finalized⟩, fun live => live.1⟩

theorem Finalizes.trans (first : Finalizes run between calls)
    (second : Finalizes between after more) : Finalizes run after (calls ++ more) where
  phases := fun object => by
    rw [second.phases, first.phases]
    by_cases finalized : object ∈ objectsOf calls <;> by_cases later : object ∈ objectsOf more <;>
      simp [finalized, later]
  wereLive := fun object member => by
    rw [objectsOf_append] at member
    rcases List.mem_append.mp member with old | new
    · exact first.wereLive object old
    · exact (first.live_iff.mp (second.wereLive object new)).1
  distinct := by
    rw [objectsOf_append]
    exact first.distinct.append second.distinct fun object old new =>
      (first.live_iff.mp (second.wereLive object new)).2 old
  forsaken := fun call member => by
    rcases List.mem_append.mp member with old | new
    · exact first.forsaken call old
    · exact second.forsaken call new
  constructionSeq := second.constructionSeq.trans first.constructionSeq
  heldHandles := second.heldHandles.trans first.heldHandles
  openZones := second.openZones.trans first.openZones
  events := second.events.trans first.events
  status := second.status.trans first.status

theorem Finalizes.liveObjects_le (finalizes : Finalizes run after calls) :
    (liveObjects after).card ≤ (liveObjects run).card :=
  Finset.card_le_card fun _ member =>
    mem_liveObjects.mpr (finalizes.live_iff.mp (mem_liveObjects.mp member)).1

/-- A sweep ends, if each of its calls does: it finalizes, and an object that it passes by was not due
when it was passed. -/
theorem sweep_some {due : ArcZonesRun → DeclarationId → Bool}
    {finalizeOne : ArcZonesRun → DeclarationId → Except Fault (ArcZonesRun × List Finalization)}
    (ends : ∀ run object, Linked run → due run object → (liveObjects run).card ≤ fuel →
      ∃ after calls, finalizeOne run object = .ok (after, calls) ∧ Linked after ∧
        Finalizes run after calls ∧ object ∈ objectsOf calls)
    {objects : List DeclarationId} (linked : Linked run)
    (enough : (liveObjects run).card ≤ fuel) :
    ∃ after calls, sweep due finalizeOne objects run = .ok (after, calls) ∧ Linked after ∧
      Finalizes run after calls ∧ ∀ object ∈ objects, object ∈ objectsOf calls ∨
        ∃ passed, due passed object = false ∧
          (after.phases[object]? = some .live → passed.phases[object]? = some .live) := by
  induction objects generalizing run with
  | nil => exact ⟨run, [], rfl, linked, .refl run, List.forall_mem_nil _⟩
  | cons first objects ih =>
    unfold sweep
    by_cases isDue : due run first
    · obtain ⟨between, calls, ran, linked', finalizes, reached⟩ := ends run first linked isDue enough
      obtain ⟨after, more, rest, linked'', finalizes', settled⟩ := ih linked'
        (finalizes.liveObjects_le.trans enough)
      rw [if_pos isDue, ran]
      dsimp only [bind, Except.bind]
      rw [rest]
      refine ⟨after, calls ++ more, rfl, linked'', finalizes.trans finalizes', ?_⟩
      intro object member
      rw [objectsOf_append, List.mem_append]
      rcases List.mem_cons.mp member with rfl | later
      · exact .inl (.inl reached)
      · rcases settled object later with done | passed
        · exact .inl (.inr done)
        · exact .inr passed
    · obtain ⟨after, calls, ran, linked', finalizes, settled⟩ := ih linked enough
      rw [if_neg isDue]
      refine ⟨after, calls, ran, linked', finalizes, fun object member => ?_⟩
      rcases List.mem_cons.mp member with rfl | later
      · exact .inr ⟨run, Bool.eq_false_iff.mpr isDue, fun live => (finalizes.live_iff.mp live).1⟩
      · exact settled object later

theorem Linked.forsaken (linked : Linked run) (none : run.liveTotal object = 0) :
    object ∈ run.baseReleased ∧ run.heldHandles.getD object 0 = 0 ∧
      owners run.liveLinks object = ∅ := by
  unfold ArcZonesRun.liveTotal at none
  have degree := linked.counted object
  refine ⟨?_, by omega, Finset.card_eq_zero.mp (by omega)⟩
  by_contra held
  rw [if_neg held] at none
  omega

theorem mark_phases (inDegree : BTreeMap DeclarationId Nat) (other : DeclarationId) :
    (run.mark object inDegree).phases[other]? =
      if object = other then some .finalized else run.phases[other]? :=
  BTreeMap.getElem?_insert_eq ..

theorem mark_finalizes (linked : Linked run) (live : run.phases[object]? = some .live)
    (justified : cause ≠ .zoneExit → run.liveTotal object = 0)
    (inDegree : BTreeMap DeclarationId Nat) :
    Finalizes run (run.mark object inDegree) [⟨object, cause, run⟩] where
  phases := fun other => by
    rw [mark_phases]
    simp [objectsOf, eq_comm]
  wereLive := fun other member => by
    rw [List.mem_singleton.mp member]
    exact live
  distinct := List.nodup_singleton _
  forsaken := fun call member => by
    rw [List.mem_singleton.mp member]
    exact fun reason => linked.forsaken (justified reason)
  constructionSeq := rfl
  heldHandles := rfl
  openZones := rfl
  events := rfl
  status := rfl

theorem mark_linked {inDegree : BTreeMap DeclarationId Nat} (linked : Linked run)
    (counted : Counted (run.liveLinks.erase object) inDegree) :
    Linked (run.mark object inDegree) where
  counted := counted
  liveOwners := fun owner target member => by
    have kept : target ∈ targetsOf (run.liveLinks.erase object) owner := member
    rw [targetsOf_erase] at kept
    split_ifs at kept with same
    · cases kept
    · rw [mark_phases, if_neg same]
      exact linked.liveOwners owner target kept

/-- A cascade ends, and finalizes the object it starts from. The fuel counts the live objects: every
call finalizes one. -/
theorem finalize_some (linked : Linked run) (live : run.phases[object]? = some .live)
    (justified : cause ≠ .zoneExit → run.liveTotal object = 0)
    (enough : (liveObjects run).card ≤ fuel) :
    ∃ after calls, finalize fuel cause run object = .ok (after, calls) ∧ Linked after ∧
      Finalizes run after calls ∧ object ∈ objectsOf calls := by
  induction fuel generalizing run object cause with
  | zero =>
    have some := Finset.card_pos.mpr ⟨object, mem_liveObjects.mpr live⟩
    omega
  | succ fuel ih =>
    obtain ⟨inDegree, ran, counted⟩ := linked.counted.drop object
    have marks := mark_finalizes linked live justified inDegree
    have fewer : (liveObjects (run.mark object inDegree)).card ≤ fuel := by
      have less : liveObjects (run.mark object inDegree) = (liveObjects run).erase object := by
        ext other
        rw [mem_liveObjects, marks.live_iff, Finset.mem_erase, mem_liveObjects, and_comm]
        simp [objectsOf]
      rw [less, Finset.card_erase_of_mem (mem_liveObjects.mpr live)]
      omega
    have cascades : ∀ run target, Linked run → unreferenced run target →
        (liveObjects run).card ≤ fuel →
        ∃ after calls, finalize fuel .cascade run target = .ok (after, calls) ∧ Linked after ∧
          Finalizes run after calls ∧ target ∈ objectsOf calls :=
      fun run target linked due enough => by
        unfold unreferenced at due
        rw [Bool.and_eq_true, isLive_iff, decide_eq_true_iff] at due
        exact ih linked due.1 (fun _ => due.2) enough
    obtain ⟨after, calls, rest, linked', finalizes, -⟩ :=
      sweep_some cascades (mark_linked linked counted) fewer
    unfold finalize
    rw [if_neg (by rw [not_not, isLive_iff]; exact live)]
    dsimp only
    rw [ran]
    dsimp only [expect, bind, Except.bind]
    rw [rest]
    exact ⟨after, _, rfl, linked', marks.trans finalizes, List.mem_cons_self⟩

end Calls

end Semaprax.ArcZones
