/-
**Reference accounting over whole runs** (`arc_zones.rs`).

What every operation keeps, and with it every state that a script reaches, whether its operations are
taken or refused.

* `Accounted` — the links are counted, live objects have their slots and live in open zones, and the
  finalized events are those of the objects that are finalized, once each.
* `applyOp_fine` — an operation keeps the run accounted and its calls of `finalize` are justified, or
  it is refused; it neither fails nor runs out of fuel.
* `reached_accounted` — so does every run that a script of an accepted model reaches.
-/

import Semaprax.Library.Reachability
import Semaprax.ArcZones.Finalization

namespace Semaprax.ArcZones

open Library

def ArcZoneEvent.finalizedObject : ArcZoneEvent → Option DeclarationId
  | .finalized object _ => some object
  | _ => none

def finalizedObjects (events : List ArcZoneEvent) : List DeclarationId :=
  events.filterMap ArcZoneEvent.finalizedObject

/-- The events of a run tell which objects were constructed and finalized, each once. -/
structure Evidenced (events : List ArcZoneEvent) (phases : BTreeMap DeclarationId Phase) :
    Prop where
  once : (finalizedObjects events).Nodup
  finalized : ∀ object, object ∈ finalizedObjects events ↔ phases[object]? = some .finalized
  constructed : ∀ object, .constructed object ∈ events → object ∈ phases

structure Accounted (model : ArcZonesModel) (run : ArcZonesRun) : Prop extends Linked run where
  slots : ∀ object : DeclarationId, run.phases[object]? = some .live →
    object ∈ run.heldHandles ∧ object ∈ run.constructionSeq
  homes : ∀ object : DeclarationId, run.phases[object]? = some .live →
    ∃ entry : ObjectEntry, model.objects[object]? = some entry ∧ entry.zone ∈ run.openZones
  zones : ∀ zone ∈ run.openZones, zone ∈ model.zones
  distinct : run.openZones.Nodup
  ended : run.status = .complete → run.openZones = []
  evidenced : Evidenced run.events run.phases

/-- What an operation yields: a run that is accounted and calls that are justified. -/
structure Sound (model : ArcZonesModel) (result : Applied) : Prop where
  accounted : Accounted model result.run
  forsaken : ∀ call ∈ result.calls, Forsaken call

def Fine {A : Type} (yields : A → Prop) : Except Fault A → Prop
  | .ok value => yields value
  | .error fault => ∃ error, fault = .refused error

section Rules

variable {A B : Type} {yields : A → Prop} {model : ArcZonesModel} {run : ArcZonesRun}

theorem fine_bind {wanted : B → Prop} {first : Except Fault B} {rest : B → Except Fault A}
    (fine : Fine wanted first) (next : ∀ value, wanted value → Fine yields (rest value)) :
    Fine yields (first >>= rest) := by
  cases first with
  | ok value => exact next value fine
  | error fault => exact fine

theorem fine_refuseOpIf (condition : Prop) [Decidable condition] (error : ArcZonesError) :
    Fine (fun _ => ¬ condition) (refuseOpIf condition error) := by
  unfold refuseOpIf
  split_ifs with refused
  · exact ⟨error, rfl⟩
  · exact refused

theorem fine_expect {option : Option A} {value : A} (found : option = some value) :
    Fine (· = value) (expect option) := by
  rw [found]
  rfl

theorem fine_currentZone : Fine (fun zone => run.openZones.head? = some zone) run.currentZone := by
  unfold ArcZonesRun.currentZone
  cases run.openZones with
  | nil => exact ⟨_, rfl⟩
  | cons zone zones => rfl

theorem fine_liveObject (object : DeclarationId) :
    Fine (fun _ => run.phases[object]? = some .live ∧ ∃ zone, run.openZones.head? = some zone)
      (liveObjectInCurrentZone model run object) := by
  unfold liveObjectInCurrentZone
  cases model.objects[object]? with
  | none => exact ⟨_, rfl⟩
  | some entry =>
    refine fine_bind (fine_refuseOpIf _ _) fun _ live => ?_
    refine fine_bind fine_currentZone fun zone current => ?_
    unfold refuseOpIf
    split_ifs
    · exact ⟨_, rfl⟩
    · exact ⟨isLive_iff.mp (not_not.mp live), zone, current⟩

end Rules

section Operations

variable {model : ArcZonesModel} {run after : ArcZonesRun} {calls : List Finalization}

variable {events : List ArcZoneEvent} {object : DeclarationId}

theorem finalizedObjects_append (events more : List ArcZoneEvent) :
    finalizedObjects (events ++ more) = finalizedObjects events ++ finalizedObjects more :=
  List.filterMap_append

theorem finalizedObjects_calls (calls : List Finalization) :
    finalizedObjects (calls.map Finalization.event) = objectsOf calls := by
  induction calls with
  | nil => rfl
  | cons call calls ih =>
    show _ :: finalizedObjects (calls.map Finalization.event) = _ :: objectsOf calls
    rw [ih]

theorem Evidenced.quiet {more : List ArcZoneEvent} {phases : BTreeMap DeclarationId Phase}
    (evidenced : Evidenced events phases) (quiet : finalizedObjects more = [])
    (builds : ∀ object, .constructed object ∉ more) : Evidenced (events ++ more) phases where
  once := by
    rw [finalizedObjects_append, quiet, List.append_nil]
    exact evidenced.once
  finalized := fun object => by
    rw [finalizedObjects_append, quiet, List.append_nil]
    exact evidenced.finalized object
  constructed := fun object member => by
    rcases List.mem_append.mp member with old | new
    · exact evidenced.constructed object old
    · exact absurd new (builds object)

/-- The events of some calls of `finalize`. -/
theorem Evidenced.finalizes
    (evidenced : Evidenced events run.phases) (finalizes : Finalizes run after calls) :
    Evidenced (events ++ calls.map Finalization.event) after.phases where
  once := by
    rw [finalizedObjects_append, finalizedObjects_calls]
    refine evidenced.once.append finalizes.distinct fun object old new => ?_
    have dead := (evidenced.finalized object).mp old
    rw [finalizes.wereLive object new] at dead
    exact nomatch dead
  finalized := fun object => by
    rw [finalizedObjects_append, finalizedObjects_calls, List.mem_append, evidenced.finalized,
      finalizes.phases]
    by_cases called : object ∈ objectsOf calls <;> simp [called]
  constructed := fun object member => by
    rcases List.mem_append.mp member with old | new
    · have known := evidenced.constructed object old
      rw [Std.TreeMap.mem_iff_isSome_getElem?] at known ⊢
      rw [finalizes.phases]
      split_ifs
      · rfl
      · exact known
    · obtain ⟨call, -, event⟩ := List.mem_map.mp new
      exact nomatch event

theorem sound_record {batch : List ArcZoneEvent} (accounted : Accounted model run)
    (quiet : finalizedObjects batch = []) (builds : ∀ object, .constructed object ∉ batch) :
    Sound model (run.record batch []) where
  accounted := { accounted with
    evidenced := accounted.evidenced.quiet quiet builds }
  forsaken := List.forall_mem_nil _

theorem Accounted.finalizes (accounted : Accounted model run) (linked : Linked after)
    (finalizes : Finalizes run after calls) {first : List ArcZoneEvent}
    (quiet : finalizedObjects first = []) (builds : ∀ object, .constructed object ∉ first) :
    Accounted model { after with
      events := after.events ++ (first ++ calls.map Finalization.event) } where
  toLinked := ⟨linked.counted, linked.liveOwners⟩
  slots := fun object live => by
    show object ∈ after.heldHandles ∧ object ∈ after.constructionSeq
    rw [finalizes.heldHandles, finalizes.constructionSeq]
    exact accounted.slots object (finalizes.live_iff.mp live).1
  homes := fun object live => by
    show ∃ entry : ObjectEntry, _ ∧ entry.zone ∈ after.openZones
    rw [finalizes.openZones]
    exact accounted.homes object (finalizes.live_iff.mp live).1
  zones := by
    show ∀ zone ∈ after.openZones, _
    rw [finalizes.openZones]
    exact accounted.zones
  distinct := by
    show after.openZones.Nodup
    rw [finalizes.openZones]
    exact accounted.distinct
  ended := by
    show after.status = _ → after.openZones = _
    rw [finalizes.openZones, finalizes.status]
    exact accounted.ended
  evidenced := by
    show Evidenced (after.events ++ _) after.phases
    rw [finalizes.events, ← List.append_assoc]
    exact (accounted.evidenced.quiet quiet builds).finalizes finalizes

theorem liveObjects_le_room (run : ArcZonesRun) : (liveObjects run).card ≤ run.room := by
  unfold ArcZonesRun.room
  rw [← Std.TreeMap.length_keys]
  exact (Finset.card_filter_le _ _).trans (List.toFinset_card_le _)

section Accounted

variable {first : ArcZoneEvent} (accounted : Accounted model run)

include accounted

theorem finalizeIfUnreferenced_fine (live : run.phases[object]? = some .live)
    (quiet : finalizedObjects [first] = []) (builds : ∀ object, .constructed object ∉ [first]) :
    Fine (Sound model) (do
      let finalized ← finalizeIfUnreferenced run object
      pure (finalized.1.record (first :: finalized.2.map Finalization.event) finalized.2)) := by
  obtain ⟨after, calls, ran, linked, finalizes⟩ : ∃ after calls,
      finalizeIfUnreferenced run object = .ok (after, calls) ∧ Linked after ∧
        Finalizes run after calls := by
    unfold finalizeIfUnreferenced
    split_ifs with none
    · obtain ⟨after, calls, ran, linked, finalizes, -⟩ :=
        finalize_some accounted.toLinked live (fun _ => none) (liveObjects_le_room run)
      exact ⟨after, calls, ran, linked, finalizes⟩
    · exact ⟨run, [], rfl, accounted.toLinked, .refl run⟩
  rw [ran]
  exact ⟨accounted.finalizes linked finalizes quiet builds, finalizes.forsaken⟩

theorem Accounted.same
    (phases : after.phases = run.phases) (liveLinks : after.liveLinks = run.liveLinks)
    (inDegree : after.inDegree = run.inDegree)
    (held : ∀ object, object ∈ run.heldHandles → object ∈ after.heldHandles)
    (constructionSeq : after.constructionSeq = run.constructionSeq)
    (openZones : after.openZones = run.openZones) (status : after.status = run.status)
    (events : after.events = run.events) : Accounted model after where
  counted := by
    rw [liveLinks, inDegree]
    exact accounted.counted
  liveOwners := by
    rw [liveLinks, phases]
    exact accounted.liveOwners
  slots := by
    rw [phases, constructionSeq]
    exact fun object live => ⟨held object (accounted.slots object live).1,
      (accounted.slots object live).2⟩
  homes := by
    rw [phases, openZones]
    exact accounted.homes
  zones := by
    rw [openZones]
    exact accounted.zones
  distinct := by
    rw [openZones]
    exact accounted.distinct
  ended := by
    rw [openZones, status]
    exact accounted.ended
  evidenced := by
    rw [events, phases]
    exact accounted.evidenced

theorem construct_fine (object : DeclarationId)
    (running : run.status = .running) : Fine (Sound model) (construct model run object) := by
  unfold construct
  cases known : model.objects[object]? with
  | none => exact ⟨_, rfl⟩
  | some entry =>
    refine fine_bind (fine_refuseOpIf _ _) fun _ fresh => ?_
    refine fine_bind fine_currentZone fun zone current => ?_
    refine fine_bind (fine_refuseOpIf _ _) fun _ home => ?_
    rw [not_not] at home
    have absent : run.phases[object]? = none := by
      rw [Std.TreeMap.mem_iff_isSome_getElem?, Bool.not_eq_true, Option.isSome_eq_false_iff,
        Option.isNone_iff_eq_none] at fresh
      exact fresh
    have phases : ∀ other : DeclarationId,
        (run.phases.insert object .live)[other]? =
          if object = other then some .live else run.phases[other]? := fun other =>
      BTreeMap.getElem?_insert_eq ..
    have unowned : ∀ target, target ∉ targetsOf run.liveLinks object := fun target member => by
      have live := accounted.liveOwners object target member
      rw [absent] at live
      exact nomatch live
    refine ⟨⟨⟨accounted.counted, fun owner target member => ?_⟩, fun other live => ?_,
      fun other live => ?_, accounted.zones, accounted.distinct, fun complete => ?_,
      ⟨?_, fun other => ?_, fun other member => ?_⟩⟩,
      List.forall_mem_nil _⟩
    · show (run.phases.insert object .live)[owner]? = _
      have other : object ≠ owner := fun same => unowned target (same.symm ▸ member)
      rw [phases, if_neg other]
      exact accounted.liveOwners owner target member
    · have before : (run.phases.insert object .live)[other]? = some .live := live
      rw [phases] at before
      refine ⟨(BTreeMap.mem_insert_iff ..).mpr ?_, (BTreeMap.mem_insert_iff ..).mpr ?_⟩
      · split_ifs at before with same
        · exact .inl same
        · exact .inr (accounted.slots other before).1
      · split_ifs at before with same
        · exact .inl same
        · exact .inr (accounted.slots other before).2
    · have before : (run.phases.insert object .live)[other]? = some .live := live
      rw [phases] at before
      split_ifs at before with same
      · refine ⟨entry, same ▸ known, ?_⟩
        rw [home]
        exact List.mem_of_mem_head? (Option.mem_def.mpr current)
      · exact accounted.homes other before
    · rw [show run.status = .complete from complete] at running
      exact nomatch running
    · show (finalizedObjects (run.events ++ [_])).Nodup
      rw [finalizedObjects_append, show finalizedObjects [ArcZoneEvent.constructed object] = []
        from rfl, List.append_nil]
      exact accounted.evidenced.once
    · show other ∈ finalizedObjects (run.events ++ [_]) ↔
        (run.phases.insert object .live)[other]? = _
      rw [finalizedObjects_append, show finalizedObjects [ArcZoneEvent.constructed object] = []
        from rfl, List.append_nil, accounted.evidenced.finalized, phases]
      split_ifs with same
      · rw [← same, absent]
        exact ⟨nofun, nofun⟩
      · rfl
    · show other ∈ run.phases.insert object .live
      refine (BTreeMap.mem_insert_iff ..).mpr ?_
      rcases List.mem_append.mp member with old | new
      · exact .inr (accounted.evidenced.constructed other old)
      · cases List.mem_singleton.mp new
        exact .inl rfl

theorem slot_of_live
    (live : run.phases[object]? = some .live) : ∃ held, run.heldHandles[object]? = some held :=
  getElem?_of_mem (accounted.slots object live).1

theorem retain_fine (object : DeclarationId) : Fine (Sound model) (retain model run object) := by
  unfold retain
  refine fine_bind (fine_liveObject object) fun _ live => ?_
  refine fine_bind (fine_refuseOpIf _ _) fun _ _ => ?_
  obtain ⟨held, found⟩ := slot_of_live accounted live.1
  refine fine_bind (fine_expect found) fun _ _ => ?_
  refine sound_record (accounted.same rfl rfl rfl (fun other member => ?_) rfl rfl rfl rfl) rfl ?_
  · exact (BTreeMap.mem_insert_iff ..).mpr (.inr member)
  · simp

theorem release_fine (object : DeclarationId) : Fine (Sound model) (release model run object) := by
  unfold release
  refine fine_bind (fine_liveObject object) fun _ live => ?_
  obtain ⟨held, found⟩ := slot_of_live accounted live.1
  refine fine_bind (fine_expect found) fun _ _ => ?_
  refine fine_bind (fine_refuseOpIf _ _) fun _ _ => ?_
  refine finalizeIfUnreferenced_fine
    (accounted.same rfl rfl rfl (fun other member => ?_) rfl rfl rfl rfl) live.1 rfl (by simp)
  show other ∈ if _ then _ else _
  split_ifs
  · exact (BTreeMap.mem_insert_iff ..).mpr (.inr member)
  · exact member

theorem demote_fine (object : DeclarationId) : Fine (Sound model) (demote model run object) := by
  unfold demote
  refine fine_bind (fine_liveObject object) fun _ _ => ?_
  refine fine_bind (fine_refuseOpIf _ _) fun _ _ => ?_
  exact sound_record (accounted.same rfl rfl rfl (fun _ member => member) rfl rfl rfl rfl) rfl
    (by simp)

theorem Accounted.relink {liveLinks : Links DeclarationId}
    {inDegree : BTreeMap DeclarationId Nat} (counted : Counted liveLinks inDegree)
    (liveOwners : ∀ owner target, target ∈ targetsOf liveLinks owner →
      run.phases[owner]? = some .live) :
    Accounted model { run with
      liveLinks
      inDegree } :=
  { accounted with
    counted
    liveOwners }

end Accounted

theorem targetsOf_insert (links : Links DeclarationId) (source owner : DeclarationId)
    (targets : BTreeSet DeclarationId) :
    targetsOf (links.insert source targets) owner =
      if source = owner then targets.toList else targetsOf links owner := by
  unfold targetsOf
  rw [BTreeMap.getElem?_insert_eq]
  split_ifs <;> rfl

theorem targetsOf_eq (links : Links DeclarationId) (source : DeclarationId) :
    targetsOf links source = (links.getD source ∅).toList := by
  unfold targetsOf
  rw [Std.TreeMap.getD_eq_getD_getElem?]
  cases links[source]? with
  | some targets | none => rfl

theorem mem_targetsOf_link (links : Links DeclarationId) (source target owner aim : DeclarationId) :
    aim ∈ targetsOf (links.insert source ((links.getD source ∅).insert target)) owner ↔
      aim ∈ targetsOf links owner ∨ (owner = source ∧ aim = target) := by
  rw [targetsOf_insert]
  split_ifs with same
  · rw [← same, targetsOf_eq, Std.TreeSet.mem_toList, Std.TreeSet.mem_toList,
      BTreeSet.mem_insert_iff]
    simp [or_comm, eq_comm]
  · exact (or_iff_left fun here => same here.1.symm).symm

theorem mem_targetsOf_unlink (links : Links DeclarationId)
    (source target owner aim : DeclarationId) :
    aim ∈ targetsOf (if ((links.getD source ∅).erase target).isEmpty then links.erase source
        else links.insert source ((links.getD source ∅).erase target)) owner ↔
      aim ∈ targetsOf links owner ∧ ¬ (owner = source ∧ aim = target) := by
  have left : aim ∈ (links.getD source ∅).erase target ↔
      aim ∈ targetsOf links source ∧ aim ≠ target := by
    rw [targetsOf_eq, Std.TreeSet.mem_toList, Std.TreeSet.mem_erase,
      Std.LawfulEqCmp.compare_eq_iff_eq.ne, and_comm, ne_comm]
  by_cases same : source = owner
  · subst same
    have kept : aim ∈ targetsOf (if ((links.getD source ∅).erase target).isEmpty
        then links.erase source else links.insert source ((links.getD source ∅).erase target))
          source ↔ aim ∈ (links.getD source ∅).erase target := by
      split_ifs with empty
      · rw [targetsOf_erase, if_pos rfl]
        refine iff_of_false List.not_mem_nil fun member => ?_
        rw [Std.TreeSet.isEmpty_iff_forall_not_mem] at empty
        exact empty aim member
      · rw [targetsOf_insert, if_pos rfl, Std.TreeSet.mem_toList]
    rw [kept, left]
    simp
  · have kept : targetsOf (if ((links.getD source ∅).erase target).isEmpty
        then links.erase source else links.insert source ((links.getD source ∅).erase target))
          owner = targetsOf links owner := by
      split_ifs
      · rw [targetsOf_erase, if_neg same]
      · rw [targetsOf_insert, if_neg same]
    rw [kept]
    exact (and_iff_left fun gone => same gone.1.symm).symm

theorem link_fine (accounted : Accounted model run) (source target : DeclarationId)
    (zonesKnown : ∀ (id : DeclarationId) (entry : ObjectEntry),
      model.objects[id]? = some entry → entry.zone ∈ model.zones) :
    Fine (Sound model) (link model run source target) := by
  unfold link
  refine fine_bind (fine_liveObject source) fun _ live => ?_
  cases known : model.objects[target]? with
  | none => exact ⟨_, rfl⟩
  | some entry =>
    refine fine_bind (fine_refuseOpIf _ _) fun _ _ => ?_
    refine fine_bind fine_currentZone fun zone current => ?_
    refine fine_bind (fine_refuseOpIf _ _) fun _ _ => ?_
    obtain ⟨sourceZone, foundSource⟩ := getElem?_of_mem
      (accounted.zones zone (List.mem_of_mem_head? (Option.mem_def.mpr current)))
    obtain ⟨targetZone, foundTarget⟩ := getElem?_of_mem (zonesKnown target entry known)
    refine fine_bind (fine_expect foundSource) fun _ _ => ?_
    refine fine_bind (fine_expect foundTarget) fun _ _ => ?_
    refine fine_bind (fine_refuseOpIf _ _) fun _ _ => ?_
    refine fine_bind (fine_refuseOpIf _ _) fun _ fresh => ?_
    have adds := mem_targetsOf_link run.liveLinks source target
    refine sound_record (accounted.relink (accounted.counted.link fresh adds)
      fun owner aim member => ?_) rfl (by simp)
    rcases (adds owner aim).mp member with old | new
    · exact accounted.liveOwners owner aim old
    · rw [new.1]
      exact live.1

theorem unlink_fine (accounted : Accounted model run) (source target : DeclarationId) :
    Fine (Sound model) (unlink model run source target) := by
  unfold unlink
  refine fine_bind (fine_liveObject source) fun _ live => ?_
  refine fine_bind (fine_refuseOpIf _ _) fun _ targetLive => ?_
  refine fine_bind (fine_refuseOpIf _ _) fun _ linked => ?_
  rw [not_not] at targetLive linked
  have removes := mem_targetsOf_unlink run.liveLinks source target
  obtain ⟨inDegree, ran, counted⟩ := accounted.counted.unlink linked removes
  refine fine_bind (fine_expect ran) fun _ same => ?_
  rw [same]
  have relinked := accounted.relink counted fun owner aim member =>
    accounted.liveOwners owner aim ((removes owner aim).mp member).1
  exact finalizeIfUnreferenced_fine relinked (isLive_iff.mp targetLive) rfl (by simp)

theorem enterZone_fine (accounted : Accounted model run) (zone : DeclarationId)
    (running : run.status = .running) : Fine (Sound model) (enterZone model run zone) := by
  unfold enterZone
  cases known : model.zones[zone]? with
  | none => exact ⟨_, rfl⟩
  | some entry =>
    refine fine_bind (fine_refuseOpIf _ _) fun _ fresh => ?_
    refine fine_bind (fine_refuseOpIf _ _) fun _ _ => ?_
    have entered : Accounted model { run with
        openZones := zone :: run.openZones
        totals := { run.totals with
          zonesEntered := run.totals.zonesEntered + 1 } } :=
      { accounted with
        counted := accounted.counted
        liveOwners := accounted.liveOwners
        homes := fun object live => by
          obtain ⟨home, found, isOpen⟩ := accounted.homes object live
          exact ⟨home, found, List.mem_cons_of_mem _ isOpen⟩
        zones := fun other member => by
          rcases List.mem_cons.mp member with rfl | old
          · rw [Std.TreeMap.mem_iff_isSome_getElem?, known]
            rfl
          · exact accounted.zones other old
        distinct := List.nodup_cons.mpr ⟨fresh, accounted.distinct⟩
        ended := fun complete => by
          rw [show run.status = .complete from complete] at running
          exact nomatch running }
    exact sound_record entered rfl (by simp)

theorem drainOrder_some {objects : List DeclarationId}
    (built : ∀ object ∈ objects, object ∈ run.constructionSeq) :
    ∃ draining, drainOrder run objects = .ok draining ∧
      ∀ object, object ∈ draining ↔ object ∈ objects := by
  have numbers : ∃ numbered, (objects.mapM fun id => do
      let seq ← expect run.constructionSeq[id]?
      pure (seq, id) : Except Fault (List (Nat × DeclarationId))) = .ok numbered ∧
        numbered.map Prod.snd = objects := by
    induction objects with
    | nil => exact ⟨[], rfl, rfl⟩
    | cons object objects ih =>
      obtain ⟨seq, found⟩ := getElem?_of_mem (built object List.mem_cons_self)
      obtain ⟨numbered, ran, same⟩ :=
        ih fun other member => built other (List.mem_cons_of_mem _ member)
      refine ⟨(seq, object) :: numbered, ?_, ?_⟩
      · rw [List.mapM_cons, found, ran]
        rfl
      · rw [List.map_cons, same]
  obtain ⟨numbered, ran, same⟩ := numbers
  refine ⟨_, by unfold drainOrder; rw [ran]; rfl, fun object => ?_⟩
  rw [List.mem_map, ← same, List.mem_map]
  simp only [List.mem_reverse, List.mem_mergeSort]

theorem mem_liveHere {zone : DeclarationId} :
    object ∈ liveHere model run zone ↔ run.phases[object]? = some .live ∧
      (model.objects[object]?).map ObjectEntry.zone = some zone := by
  unfold liveHere
  rw [List.mem_filter, Bool.and_eq_true, isLive_iff, decide_eq_true_iff, BTreeMap.mem_keys_iff]
  refine and_iff_right_of_imp fun here => ?_
  rw [Std.TreeMap.mem_iff_isSome_getElem?, here.1]
  rfl

/-- Leaving a zone finalizes whatever lives in it, so that what is still live is at home in a zone that
stays open. -/
theorem exitZone_fine (accounted : Accounted model run) (zone : DeclarationId)
    (running : run.status = .running) : Fine (Sound model) (exitZone model run zone) := by
  unfold exitZone
  refine fine_bind (fine_refuseOpIf _ _) fun _ _ => ?_
  refine fine_bind (fine_refuseOpIf _ _) fun _ _ => ?_
  refine fine_bind (fine_refuseOpIf _ _) fun _ innermost => ?_
  rw [not_not] at innermost
  obtain ⟨participants, searched⟩ :=
    cycleParticipants_some (liveHere model run zone) run.liveLinks run.isLive
  refine fine_bind (fine_expect searched) fun _ same => ?_
  rw [same]
  cases ((liveHere model run zone).filter fun id => id ∈ participants).min? with
  | some witness =>
    have rejected : Accounted model { run with
        status := .rejected
        rejectedWitness := some witness
        totals := { run.totals with
          zonesRejected := run.totals.zonesRejected + 1 } } :=
      { accounted with
        counted := accounted.counted
        liveOwners := accounted.liveOwners
        ended := fun complete => nomatch complete }
    exact sound_record rejected rfl (by simp)
  | none =>
    obtain ⟨draining, ordered, members⟩ := drainOrder_some
      fun object member => (accounted.slots object (mem_liveHere.mp member).1).2
    have drains : ∀ (found : ArcZonesRun) (object : DeclarationId), Linked found →
        found.isLive object → (liveObjects found).card ≤ run.room → ∃ after calls,
          finalize run.room .zoneExit found object = .ok (after, calls) ∧ Linked after ∧
            Finalizes found after calls ∧ object ∈ objectsOf calls :=
      fun found object linked live enough =>
        finalize_some linked (isLive_iff.mp live) (fun other => absurd rfl other) enough
    obtain ⟨after, calls, ran, linked, finalizes, settled⟩ :=
      sweep_some drains accounted.toLinked (liveObjects_le_room run)
    have gone : ∀ object : DeclarationId, after.phases[object]? = some .live →
        (model.objects[object]?).map ObjectEntry.zone ≠ some zone := fun object live home => by
      have before := finalizes.live_iff.mp live
      rcases settled object ((members object).mpr (mem_liveHere.mpr ⟨before.1, home⟩)) with
        finalized | ⟨passed, dead, later⟩
      · exact before.2 finalized
      · rw [← Bool.not_eq_true, isLive_iff] at dead
        exact dead (later live)
    obtain ⟨rest, opened⟩ : ∃ rest, run.openZones = zone :: rest := by
      cases zones : run.openZones with
      | nil => rw [zones] at innermost; exact nomatch innermost
      | cons first rest =>
        rw [zones] at innermost
        exact ⟨rest, by rw [Option.some.inj innermost]⟩
    have openAfter : after.openZones = zone :: rest := finalizes.openZones.trans opened
    have quiet : ∀ object, ArcZoneEvent.constructed object ∉ ([] : List ArcZoneEvent) :=
      fun object => List.not_mem_nil
    have drained := accounted.finalizes linked finalizes rfl quiet
    rw [ordered]
    dsimp only [bind, Except.bind]
    rw [ran]
    refine ⟨⟨⟨linked.counted, linked.liveOwners⟩, drained.slots, fun object live => ?_,
      fun other member => ?_, ?_, fun complete => ?_, ?_⟩, finalizes.forsaken⟩
    · obtain ⟨entry, found, isOpen⟩ := drained.homes object live
      refine ⟨entry, found, ?_⟩
      have inside : entry.zone ∈ zone :: rest := openAfter ▸ isOpen
      show entry.zone ∈ after.openZones.tail
      rw [openAfter]
      rcases List.mem_cons.mp inside with left | stays
      · exact absurd (by rw [found, ← left]; rfl) (gone object live)
      · exact stays
    · exact drained.zones other (List.mem_of_mem_tail member)
    · exact drained.distinct.tail
    · have empty : (if after.openZones.tail.isEmpty then RunStatus.complete
          else after.status) = .complete := complete
      split_ifs at empty with none
      · exact List.isEmpty_iff.mp none
      · rw [finalizes.status, running] at empty
        exact nomatch empty
    · show Evidenced (after.events ++ (calls.map Finalization.event ++ [.zoneExited zone]))
        after.phases
      rw [← List.append_assoc]
      exact drained.evidenced.quiet rfl (by simp)

theorem applyOp_fine (accounted : Accounted model run) (op : Op) (running : run.status = .running)
    (zonesKnown : ∀ (id : DeclarationId) (entry : ObjectEntry),
      model.objects[id]? = some entry → entry.zone ∈ model.zones) :
    Fine (Sound model) (applyOp model run op) := by
  cases op with
  | construct object => exact construct_fine accounted object running
  | retain object => exact retain_fine accounted object
  | release object => exact release_fine accounted object
  | link source target => exact link_fine accounted source target zonesKnown
  | unlink source target => exact unlink_fine accounted source target
  | demote object => exact demote_fine accounted object
  | enterZone zone => exact enterZone_fine accounted zone running
  | exitZone zone => exact exitZone_fine accounted zone running

theorem step_fine (accounted : Accounted model run)
    (zonesKnown : ∀ (id : DeclarationId) (entry : ObjectEntry),
      model.objects[id]? = some entry → entry.zone ∈ model.zones) :
    Fine (Sound model) (run.step model) := by
  have quiet : Sound model ⟨run, [], []⟩ :=
    ⟨accounted, List.forall_mem_nil _⟩
  unfold ArcZonesRun.step
  split_ifs with long ended
  · exact ⟨_, rfl⟩
  · exact quiet
  · cases run.script[run.cursor]? with
    | none => exact quiet
    | some op =>
      have moved : Accounted model { run with
          cursor := run.cursor + 1 } :=
        accounted.same rfl rfl rfl (fun _ member => member) rfl rfl rfl rfl
      exact applyOp_fine moved op (not_not.mp ended) zonesKnown

end Operations

/-- A step of a run: an operation that is taken, or one that is refused. -/
inductive Steps (model : ArcZonesModel) : ArcZonesRun → ArcZonesRun → Prop
  | applied {run : ArcZonesRun} {result : Applied} (ran : run.step model = .ok result) :
      Steps model run result.run
  | refused {run : ArcZonesRun} {error : ArcZonesError}
      (ran : run.step model = .error (.refused error)) : Steps model run run.refused

section Runs

variable {model : ArcZonesModel} {run : ArcZonesRun} {zones : List ZoneSpec}
  {objects : List ObjectSpec}

theorem prepareRun_accounted (script : List Op) : Accounted model (prepareRun script) where
  counted := fun target => by
    show countOf ∅ target = (owners ∅ target).card
    have nobody : owners (∅ : Links DeclarationId) target = ∅ :=
      Finset.eq_empty_of_forall_notMem fun owner member => by
        rw [mem_owners] at member
        simp [targetsOf] at member
    rw [countOf_eq, nobody]
    simp
  liveOwners := fun owner target member => by simp [prepareRun, targetsOf] at member
  slots := fun object live => by simp [prepareRun] at live
  homes := fun object live => by simp [prepareRun] at live
  zones := List.forall_mem_nil _
  distinct := List.nodup_nil
  ended := fun _ => rfl
  evidenced :=
    { once := List.nodup_nil
      finalized := fun object => by simp [prepareRun, finalizedObjects]
      constructed := fun object member => absurd member List.not_mem_nil }

theorem reached_accounted (accepted : ArcZonesModel.tryNew zones objects = .ok model)
    {script : List Op} (reached : Reaches (· = prepareRun script) (Steps model) run) :
    Accounted model run := by
  refine reached.invariant (fun start same => ?_) fun before after accounted step => ?_
  · rw [same]
    exact prepareRun_accounted script
  · have fine := step_fine accounted (tryNew_homes accepted)
    cases step with
    | applied ran =>
      rw [ran] at fine
      exact fine.accounted
    | refused ran =>
      unfold ArcZonesRun.refused
      split_ifs
      · exact accounted
      · exact accounted.same rfl rfl rfl (fun _ member => member) rfl rfl rfl rfl

structure ReferencesAccounted (model : ArcZonesModel) (run : ArcZonesRun) : Prop where
  /-- An in-degree is the number of objects whose links contain the target. -/
  inDegree : ∀ target, countOf run.inDegree target = (owners run.liveLinks target).card
  /-- Only live objects own links. -/
  liveOwners : ∀ owner target, target ∈ targetsOf run.liveLinks owner →
    run.phases[owner]? = some .live
  /-- No decrement and no lookup of the next operation fails, and the operation ends. -/
  unfailing : run.step model ≠ .error .panicked ∧ run.step model ≠ .error .stalled
  /-- Whatever the next operation finalizes, for another reason than a zone's exit, has no reference
  left at that moment. -/
  forsaken : ∀ result, run.step model = .ok result → ∀ call ∈ result.calls, Forsaken call
  /-- No object is finalized twice. -/
  once : (finalizedObjects run.events).Nodup
  /-- A complete run has finalized every object that it constructed, once. -/
  complete : run.status = .complete → ∀ object, .constructed object ∈ run.events →
    (finalizedObjects run.events).count object = 1

end Runs

/-- A root zone with two objects. -/
def smallZones : List ZoneSpec := [⟨"root", none, "main"⟩]

def smallObjects : List ObjectSpec :=
  [⟨"a", "root", .notShareable⟩, ⟨"b", "root", .notShareable⟩]

end Semaprax.ArcZones
