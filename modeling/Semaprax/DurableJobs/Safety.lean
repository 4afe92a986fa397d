/-
**Lease safety over whole sessions** (`job_fixture.rs`).

Any number of workers call a store in any order, with any databases.

* `Tracks` — every record of a store is kept with what the history says of its job;
  `perform_tracks` — every call keeps that.
* `leaseSafe_iff` — the leases of a session are safe exactly when no job is claimed that has run
  before.
* `reclaimed_lease_accepted` — a worker whose lease expired completes the run of the worker that
  took over.
-/

import Semaprax.DurableJobs.Leases

namespace Semaprax.DurableJobs

open Library

/-- Every record is kept with the tenure of its job; the jobs to come have none. -/
structure Tracks (store : JobStore) (tenures : Nat → Tenure) : Prop where
  present : ∀ (id : Nat) (job : JobRecord), store.jobs[id]? = some job →
    id < store.nextId ∧ Kept job (tenures id)
  absent : ∀ id : Nat, store.jobs[id]? = none → tenures id = Tenure.none

section Store

variable {A : Type} {store : JobStore} {tenures : Nat → Tenure}

variable {id : Nat} {job : JobRecord} {tenure : Tenure} {after : JobStore} {event : Event}
variable {call : Call} {result : Except Fault Answer}

theorem Tracks.put (tracks : Tracks store tenures)
    (below : id < store.nextId) {next : Tenure} (kept : Kept job next) :
    Tracks (store.put id job) (Function.update tenures id next) where
  present := fun other record found => by
    rw [JobStore.put, BTreeMap.getElem?_insert_eq] at found
    by_cases same : id = other
    · subst same
      rw [if_pos rfl] at found
      obtain rfl := Option.some.inj found
      rw [Function.update_self]
      exact ⟨below, kept⟩
    · rw [if_neg same] at found
      rw [Function.update_of_ne (Ne.symm same)]
      exact tracks.present other record found
  absent := fun other missing => by
    rw [JobStore.put, BTreeMap.getElem?_insert_eq] at missing
    by_cases same : id = other
    · rw [if_pos same] at missing
      exact nomatch missing
    · rw [if_neg same] at missing
      rw [Function.update_of_ne (Ne.symm same)]
      exact tracks.absent other missing

theorem Tracks.put_same (tracks : Tracks store tenures)
    (below : id < store.nextId) (kept : Kept job (tenures id)) :
    Tracks (store.put id job) tenures := by
  have moved := tracks.put below kept
  rwa [Function.update_eq_self] at moved

@[simp]
theorem wp_onJob (id : Nat) (call : Prog JobRecord Fault A) {ends : A → JobStore → Prop}
    {stops : Fault → JobStore → Prop} : (JobStore.onJob id call).wp ends stops store ↔
      (store.jobs[id]? = none → stops (.refused .unknownJob) store) ∧
        ∀ job, store.jobs[id]? = some job →
          call.wp (fun value after => ends value (store.put id after))
            (fun fault after => stops fault (store.put id after)) job := by
  unfold JobStore.onJob Prog.wp
  cases found : store.jobs[id]? with
  | none => simp [found]
  | some job =>
    simp only [found, reduceCtorEq, false_implies, Option.some.injEq, forall_eq', true_and]
    cases call job with
    | mk outcome after => cases outcome <;> rfl

theorem onJob_tracks (tracks : Tracks store tenures) {call : Prog JobRecord Fault A}
    {next : A → Tenure} {holds : Prop}
    (keeps : ∀ job, Kept job (tenures id) →
      call.wp (fun value after => Kept after (next value) ∧ holds)
        (fun _ after => Kept after (tenures id)) job) :
    (JobStore.onJob id call).wp
      (fun value after => Tracks after (Function.update tenures id (next value)) ∧ holds)
      (fun _ after => Tracks after tenures) store := by
  rw [wp_onJob]
  refine ⟨fun _ => tracks, fun job found => ?_⟩
  obtain ⟨below, kept⟩ := tracks.present id job found
  exact wp_mono (keeps job kept) (fun _ _ after => ⟨tracks.put below after.1, after.2⟩)
    fun _ _ after => tracks.put_same below after

theorem wp_expectLedger (call : Prog DatabaseFixture FixtureError A)
    {ends : A → JobStore × DatabaseFixture → Prop} {stops : Fault → JobStore × DatabaseFixture → Prop}
    (ledger : DatabaseFixture) (ending : ∀ value after, ends value (store, after))
    (stopping : ∀ fault after, stops fault (store, after)) :
    (JobStore.expectLedger call).wp ends stops (store, ledger) := by
  unfold JobStore.expectLedger
  rw [wp_mapStop, wp_onSecond]
  exact wp_of_forall call ending fun _ => stopping .panicked

theorem freshJob_kept (key payload : List UInt8) (schedule : Option Schedule) (maxAttempts : Nat)
    (isIdempotentHandler : Bool) (revision : Nat) :
    Kept (JobStore.freshJob key payload schedule maxAttempts isIdempotentHandler revision)
      Tenure.none where
  ones := fun _ member => nomatch member
  current := fun _ leased => nomatch leased
  unclaimed := fun _ => by
    refine ⟨rfl, ⟨rfl, rfl, rfl⟩, .inl ?_⟩
    cases schedule with
    | none => exact .inl rfl
    | some schedule => exact .inr rfl
  tried := fun claimed => absurd rfl claimed

theorem enqueue_tracks (tracks : Tracks store tenures) (ledger : DatabaseFixture)
    (key payload : List UInt8) (schedule : Option Schedule) (maxAttempts : Nat)
    (isIdempotentHandler : Bool) :
    (JobStore.enqueue key payload schedule maxAttempts isIdempotentHandler).wp
      (fun _ after => Tracks after.1 tenures) (fun _ after => Tracks after.1 tenures)
      (store, ledger) := by
  unfold JobStore.enqueue
  rw [wp_bind, wp_onFirst, wp_get]
  split
  · split_ifs <;> exact tracks
  · rw [wp_bind]
    refine wp_expectLedger _ ledger (fun _ ledger => ?_) fun _ _ => tracks
    rw [wp_bind]
    refine wp_expectLedger _ ledger (fun _ ledger => ?_) fun _ _ => tracks
    rw [wp_bind]
    refine wp_expectLedger _ ledger (fun _ ledger => ?_) fun _ _ => tracks
    simp only [wp_bind, wp_addU64, wp_onFirst, wp_set, wp_pure]
    refine ⟨fun _ => tracks, fun _ => ?_⟩
    have missing : store.jobs[store.nextId]? = none := by
      cases found : store.jobs[store.nextId]? with
      | none => rfl
      | some job => exact absurd (tracks.present _ job found).1 (lt_irrefl _)
    let room : JobStore := { store with
      nextId := store.nextId + 1 }
    have grown : Tracks room tenures :=
      ⟨fun id job found => ⟨Nat.lt_succ_of_lt (tracks.present id job found).1,
        (tracks.present id job found).2⟩, tracks.absent⟩
    refine grown.put_same (Nat.lt_succ_self _) ?_
    rw [tracks.absent store.nextId missing]
    exact freshJob_kept ..

theorem completeDurable_tracks (tracks : Tracks store tenures) (ledger : DatabaseFixture) (id : Nat)
    (report : CompletionAttempt) :
    (JobStore.completeDurable id report).wp
      (fun _ after => Tracks after.1 (Function.update tenures id (tenures id).ended) ∧
        (tenures id).held = some report.leaseGeneration)
      (fun _ after => Tracks after.1 tenures) (store, ledger) := by
  unfold JobStore.completeDurable
  rw [wp_bind, wp_onFirst, wp_onJob]
  refine ⟨fun _ => tracks, fun job found => ?_⟩
  obtain ⟨below, kept⟩ := tracks.present id job found
  refine wp_mono (running_held kept report.leaseGeneration report.nowTick)
    (fun _ after running => ?_) (fun _ after same => tracks.put_same below (same ▸ kept))
  obtain ⟨-, rfl, -, held⟩ := running
  have same := tracks.put_same below kept
  rw [wp_bind, wp_attempt, wp_onSecond]
  refine wp_of_forall _ (fun _ ledger => ?_) fun _ ledger => ?_
  · rw [wp_onFirst]
    exact onJob_tracks same fun _ kept => complete_kept kept report
  · rw [wp_bind, wp_onFirst]
    have ended : (JobStore.onJob id JobRecord.recordConnectionUncertain).wp
        (fun _ later => Tracks later (Function.update tenures id (tenures id).ended) ∧
          (tenures id).held = some report.leaseGeneration)
        (fun _ later => Tracks later tenures) (store.put id after) :=
      onJob_tracks same fun _ kept => wp_mono (recordConnectionUncertain_kept kept)
        (fun _ _ after => ⟨after, held⟩) fun _ _ same => same ▸ kept
    exact ended

theorem Kept.unended (kept : Kept job tenure.ended)
    (unclaimed : tenure.granted = [] → tenure.held = none) : Kept job tenure where
  ones := kept.ones
  current := fun lease leased => nomatch (kept.current lease leased).2.1
  unclaimed := fun empty => ⟨unclaimed empty, (kept.unclaimed empty).2⟩
  tried := kept.tried

def endAll (tenures : Nat → Tenure) (ids : List Nat) (id : Nat) : Tenure :=
  if id ∈ ids then (tenures id).ended else tenures id

theorem endAll_update (id : Nat) (ended : Bool) (others : List Nat) :
    endAll (Function.update tenures id (if ended then (tenures id).ended else tenures id)) others =
      endAll tenures (if ended then id :: others else others) := by
  funext other
  unfold endAll
  by_cases same : other = id
  · subst same
    rw [Function.update_self]
    cases ended
    · rfl
    · by_cases listed : other ∈ others <;> simp [listed, Tenure.ended]
  · rw [Function.update_of_ne same]
    cases ended <;> simp [same]

theorem Tracks.unended {ended : Bool}
    (unclaimed : (tenures id).granted = [] → (tenures id).held = none)
    (moved : Tracks after
      (Function.update tenures id (if ended then (tenures id).ended else tenures id))) :
    Tracks after tenures := by
  cases ended with
  | false =>
    rw [if_neg Bool.false_ne_true, Function.update_eq_self] at moved
    exact moved
  | true =>
    rw [if_pos rfl] at moved
    refine ⟨fun other job found => ?_, fun other missing => ?_⟩
    · obtain ⟨below, kept⟩ := moved.present other job found
      refine ⟨below, ?_⟩
      by_cases same : other = id
      · subst same
        rw [Function.update_self] at kept
        exact kept.unended unclaimed
      · rwa [Function.update_of_ne same] at kept
    · have none := moved.absent other missing
      by_cases same : other = id
      · subst same
        rw [Function.update_self] at none
        have empty : (tenures other).granted = [] := congrArg Tenure.granted none
        have free := unclaimed empty
        show tenures other = ⟨[], .none⟩
        rw [← empty, ← free]
      · rwa [Function.update_of_ne same] at none

theorem expireListed_tracks (tracks : Tracks store tenures) (nowTick : Nat) (ids : List Nat) :
    (JobStore.expireListed nowTick ids).wp
      (fun reclaimed after => Tracks after (endAll tenures reclaimed))
      (fun _ after => Tracks after tenures) store := by
  induction ids generalizing store tenures with
  | nil => exact tracks
  | cons id ids ih =>
    unfold JobStore.expireListed
    rw [wp_bind, wp_onJob]
    refine ⟨fun _ => tracks, fun job found => ?_⟩
    obtain ⟨below, kept⟩ := tracks.present id job found
    refine wp_mono (expire_kept kept nowTick) (fun ended after keeps => ?_)
      (fun _ _ same => tracks.put_same below (same ▸ kept))
    have moved := tracks.put below keeps
    rw [wp_bind]
    refine wp_mono (ih moved) (fun others after tracked => ?_) (fun _ after tracked =>
      Tracks.unended (fun empty => (kept.unclaimed empty).1) tracked)
    rw [endAll_update] at tracked
    exact tracked

def observeAll (tenures : Nat → Tenure) (event : Event) (id : Nat) : Tenure :=
  (tenures id).observe id event

/-- What a call that succeeds was accepted under. -/
def AcceptedUnder (tenures : Nat → Tenure) (event : Event) : Prop :=
  ∀ id generation, event.accepted = some (id, generation) → (tenures id).held = some generation

theorem acceptedUnder_of {generation : Nat} (accepted : event.accepted = some (id, generation))
    (held : (tenures id).held = some generation) : AcceptedUnder tenures event := by
  intro other presented same
  rw [accepted] at same
  obtain ⟨rfl, rfl⟩ := Prod.mk.inj (Option.some.inj same)
  exact held

theorem acceptedUnder_none (accepted : event.accepted = none) : AcceptedUnder tenures event := by
  intro other presented same
  rw [accepted] at same
  exact nomatch same

theorem onJob_event (tracks : Tracks store tenures) {call : Prog JobRecord Fault A}
    (named : Call) (answer : A → Answer) (holds : Prop)
    (others : ∀ (other : Nat) (tenure : Tenure) (value : A), other ≠ id →
      tenure.observe other ⟨named, .ok (answer value)⟩ = tenure)
    (keeps : ∀ job, Kept job (tenures id) → call.wp (fun value after =>
          Kept after ((tenures id).observe id ⟨named, .ok (answer value)⟩) ∧ holds)
        (fun _ after => Kept after (tenures id)) job)
    (under : ∀ value, holds → AcceptedUnder tenures ⟨named, .ok (answer value)⟩) :
    (JobStore.onJob id call >>= fun value => pure (answer value)).wp
      (fun answer after => Tracks after (observeAll tenures ⟨named, .ok answer⟩) ∧
        AcceptedUnder tenures ⟨named, .ok answer⟩)
      (fun _ after => Tracks after tenures) store := by
  rw [wp_bind]
  refine wp_mono (onJob_tracks tracks keeps) (fun value after tracked => ?_)
    fun _ _ tracked => tracked
  rw [wp_pure]
  refine ⟨?_, under value tracked.2⟩
  have same : observeAll tenures ⟨named, .ok (answer value)⟩ = Function.update tenures id
      ((tenures id).observe id ⟨named, .ok (answer value)⟩) := by
    funext other
    by_cases equal : other = id
    · subst equal
      rw [Function.update_self]
      rfl
    · rw [Function.update_of_ne equal]
      exact others other (tenures other) value equal
  rw [same]
  exact tracked.1

theorem perform_tracks (tracks : Tracks store tenures) (call : Call) : (JobStore.perform call).wp
      (fun answer after => Tracks after (observeAll tenures ⟨call, .ok answer⟩) ∧
        AcceptedUnder tenures ⟨call, .ok answer⟩)
      (fun _ after => Tracks after tenures) store := by
  cases call with
  | enqueue ledger key payload schedule maxAttempts isIdempotentHandler =>
    unfold JobStore.perform
    rw [wp_bind, wp_withSecond]
    exact wp_mono (enqueue_tracks tracks ledger key payload schedule maxAttempts
      isIdempotentHandler) (fun _ _ tracked => ⟨tracked, acceptedUnder_none rfl⟩)
      fun _ _ tracked => tracked
  | claim id workerId nowTick leaseTicks =>
    refine onJob_event tracks (.claim id workerId nowTick leaseTicks)
      (fun grant : Nat × Nat × Nat => .granted grant.1 grant.2.1 grant.2.2) True
      (fun other tenure _ differ => if_neg (Ne.symm differ)) (fun job kept => ?_)
      fun _ _ => acceptedUnder_none rfl
    refine wp_mono (claim_kept kept workerId nowTick leaseTicks) (fun grant after claimed => ?_)
      fun _ _ same => same ▸ kept
    exact ⟨by simpa [Tenure.observe] using claimed, trivial⟩
  | heartbeat id generation nowTick extendTicks =>
    exact onJob_event tracks (.heartbeat id generation nowTick extendTicks) Answer.extended _
      (fun _ _ _ _ => rfl) (fun job kept => wp_mono (heartbeat_kept kept generation nowTick
        extendTicks) (fun _ _ after => after) fun _ _ same => same ▸ kept)
      fun _ held => acceptedUnder_of rfl held
  | beginExecution id generation nowTick =>
    exact onJob_event tracks (.beginExecution id generation nowTick) (fun _ : Unit => .done) _
      (fun _ _ _ _ => rfl) (fun job kept => wp_mono (beginExecution_kept kept generation nowTick)
        (fun _ _ after => after) fun _ _ same => same ▸ kept)
      fun _ held => acceptedUnder_of rfl held
  | complete id report =>
    refine onJob_event tracks (.complete id report) Answer.state _
      (fun other tenure _ differ => if_neg (Ne.symm differ)) (fun job kept => ?_)
      fun _ held => acceptedUnder_of rfl held
    refine wp_mono (complete_kept kept report) (fun state after completed => ?_)
      fun _ _ kept => kept
    exact ⟨by simpa [Tenure.observe] using completed.1, completed.2⟩
  | completeDurable ledger id report =>
    unfold JobStore.perform
    rw [wp_bind, wp_withSecond]
    refine wp_mono (completeDurable_tracks tracks ledger id report)
      (fun state _ tracked => ?_) fun _ _ tracked => tracked
    refine ⟨?_, acceptedUnder_of rfl tracked.2⟩
    have observed : observeAll tenures ⟨.completeDurable ledger id report, .ok (.state state)⟩ =
        Function.update tenures id (tenures id).ended := by
      funext other
      unfold observeAll
      by_cases same : id = other
      · subst same
        rw [Function.update_self]
        exact if_pos rfl
      · rw [Function.update_of_ne (Ne.symm same)]
        exact if_neg same
    rw [observed]
    exact tracked.1
  | recordConnectionUncertain id =>
    refine onJob_event tracks (.recordConnectionUncertain id) (fun _ : Unit => Answer.done) True
      (fun other tenure _ differ => if_neg (Ne.symm differ)) (fun job kept => ?_)
      fun _ _ => acceptedUnder_none rfl
    exact wp_mono (recordConnectionUncertain_kept kept)
      (fun _ _ ended => ⟨by simpa [Tenure.observe] using ended, trivial⟩) fun _ _ same => same ▸ kept
  | reconcileUncertain id decision =>
    exact onJob_event tracks (.reconcileUncertain id decision) Answer.state True
      (fun _ _ _ _ => rfl) (fun job kept => wp_mono (reconcileUncertain_kept kept decision)
        (fun _ _ after => ⟨after, trivial⟩) fun _ _ same => same ▸ kept)
      fun _ _ => acceptedUnder_none rfl
  | expireStaleLeases nowTick =>
    unfold JobStore.perform JobStore.expireStaleLeases
    rw [wp_bind, wp_bind, wp_get]
    refine wp_mono (expireListed_tracks tracks nowTick store.jobs.keys)
      (fun _ _ tracked => ⟨tracked, acceptedUnder_none rfl⟩) fun _ _ tracked => tracked
  | cancel id =>
    refine onJob_event tracks (.cancel id) Answer.state True
      (fun other tenure _ differ => if_neg (Ne.symm differ)) (fun job kept => ?_)
      fun _ _ => acceptedUnder_none rfl
    exact wp_mono (cancel_kept kept)
      (fun _ _ ended => ⟨by simpa [Tenure.observe] using ended, trivial⟩) fun _ _ same => same ▸ kept
  | advanceRecurringSchedule id nowTick maxCatchUp =>
    exact onJob_event tracks (.advanceRecurringSchedule id nowTick maxCatchUp) Answer.advanced True
      (fun _ _ _ _ => rfl) (fun job kept =>
        wp_mono (advanceRecurringSchedule_kept kept nowTick maxCatchUp)
          (fun _ _ after => ⟨after, trivial⟩) fun _ _ same => same ▸ kept)
      fun _ _ => acceptedUnder_none rfl
  | setCurrentRevision currentRevision =>
    exact ⟨⟨tracks.present, tracks.absent⟩, acceptedUnder_none rfl⟩

/-- A claim that would succeed, of a job that has run before. -/
def Reclaims (store : JobStore) : Call → Prop
  | .claim id _ nowTick leaseTicks => ∃ job, store.jobs[id]? = some job ∧
      job.MayClaim nowTick leaseTicks ∧ ¬job.Fresh
  | _ => False

/-- No two claims of a job granted a generation. -/
def Single (tenures : Nat → Tenure) : Prop := ∀ id, (tenures id).granted.length ≤ 1

theorem Tracks.ones (tracks : Tracks store tenures) (id : Nat) :
    ∀ generation ∈ (tenures id).granted, generation = 1 := by
  cases found : store.jobs[id]? with
  | none =>
    rw [tracks.absent id found]
    exact fun _ member => nomatch member
  | some job => exact (tracks.present id job found).2.ones

/-- All generations are the first one, so they differ only where there is at most one. -/
theorem Tracks.nodup_iff (tracks : Tracks store tenures) :
    (∀ id, (tenures id).granted.Nodup) ↔ Single tenures := by
  refine forall_congr' fun id => ?_
  have ones := tracks.ones id
  generalize (tenures id).granted = granted at ones ⊢
  rcases granted with _ | ⟨first, _ | ⟨second, rest⟩⟩
  · simp
  · simp
  · have same : first = second := (ones first (by simp)).trans (ones second (by simp)).symm
    simp [same]

theorem observe_granted (other : ∀ workerId nowTick leaseTicks answer,
      event.call = .claim id workerId nowTick leaseTicks → event.answer ≠ .ok answer) :
    (tenure.observe id event).granted = tenure.granted := by
  obtain ⟨call, result⟩ := event
  unfold Tenure.observe
  cases result with
  | error fault => rfl
  | ok answer =>
    cases call with
    | claim job workerId nowTick leaseTicks =>
      by_cases same : job = id
      · subst same
        exact absurd rfl (other workerId nowTick leaseTicks answer rfl)
      · cases answer <;> first | rfl | exact congrArg Tenure.granted (if_neg same)
    | complete job report | completeDurable ledger job report | recordConnectionUncertain job
    | cancel job =>
      dsimp only; split_ifs <;> rfl
    | expireStaleLeases nowTick =>
      cases answer with
      | reclaimed ids => dsimp only; split_ifs <;> rfl
      | _ => rfl
    | _ => rfl

theorem perform_claim (tracks : Tracks store tenures) (id workerId nowTick leaseTicks : Nat) :
    (JobStore.perform (.claim id workerId nowTick leaseTicks)).wp
      (fun answer _ => (∃ job, store.jobs[id]? = some job ∧ job.MayClaim nowTick leaseTicks) ∧
        ∃ generation, (tenures id).observe id ⟨.claim id workerId nowTick leaseTicks, .ok answer⟩ =
          ⟨generation :: (tenures id).granted, some generation⟩)
      (fun _ _ => ∀ job, store.jobs[id]? = some job → ¬job.MayClaim nowTick leaseTicks) store := by
  unfold JobStore.perform
  rw [wp_bind, wp_onJob]
  refine ⟨fun missing job found => ?_, fun job found => ?_⟩
  · rw [missing] at found
    exact nomatch found
  · refine wp_mono (claim_decided (tracks.present id job found).2 workerId nowTick leaseTicks)
      (fun grant _ may => ⟨⟨job, found, may⟩, grant.2.1, if_pos rfl⟩) (fun _ _ refused other same => ?_)
    rw [found] at same
    obtain rfl := Option.some.inj same
    exact refused

theorem Tracks.fresh_iff (tracks : Tracks store tenures) {nowTick leaseTicks : Nat}
    (found : store.jobs[id]? = some job) (may : job.MayClaim nowTick leaseTicks) :
    job.Fresh ↔ (tenures id).granted = [] := by
  obtain ⟨-, kept⟩ := tracks.present id job found
  have claimable : job.state.Claimable :=
    ((claimIsLegal_iff _ _).mp may.1).imp_right And.left
  refine ⟨fun fresh => ?_, fun empty => (kept.unclaimed empty).2.1⟩
  by_contra claimed
  exact kept.tried claimed claimable fresh

theorem single_other
    (other : ∀ id workerId nowTick leaseTicks, call ≠ .claim id workerId nowTick leaseTicks) :
    Single (observeAll tenures ⟨call, result⟩) ↔ Single tenures ∧ ¬Reclaims store call := by
  have same : ∀ id, (observeAll tenures ⟨call, result⟩ id).granted = (tenures id).granted :=
    fun id => observe_granted fun workerId nowTick leaseTicks _ claimed =>
      absurd claimed (other id workerId nowTick leaseTicks)
  have kept : ¬Reclaims store call := by
    cases call with
    | claim id workerId nowTick leaseTicks => exact absurd rfl (other id workerId nowTick leaseTicks)
    | _ => exact id
  unfold Single
  simp only [same]
  exact (and_iff_left kept).symm

theorem single_step (tracks : Tracks store tenures)
    (ran : JobStore.perform call store = (result, after)) :
    Single (observeAll tenures ⟨call, result⟩) ↔ Single tenures ∧ ¬Reclaims store call := by
  cases call with
  | claim id workerId nowTick leaseTicks =>
    have others : ∀ other, other ≠ id → (observeAll tenures
        ⟨.claim id workerId nowTick leaseTicks, result⟩ other).granted = (tenures other).granted :=
      fun other differ => observe_granted fun _ _ _ _ same => by
        cases same
        exact absurd rfl differ
    rcases wp_run (perform_claim tracks id workerId nowTick leaseTicks) with
      ⟨answer, later, same, ⟨job, found, may⟩, generation, observed⟩ | ⟨fault, later, same, refused⟩
    · obtain ⟨rfl, -⟩ := Prod.mk.inj (ran.symm.trans same)
      have first := tracks.fresh_iff found may
      constructor
      · intro single
        have alone := single id
        rw [observeAll, observed] at alone
        have empty : (tenures id).granted = [] :=
          List.length_eq_zero_iff.mp (Nat.le_zero.mp (Nat.le_of_succ_le_succ alone))
        refine ⟨fun other => ?_, ?_⟩
        · by_cases equal : other = id
          · rw [equal, empty]
            exact Nat.zero_le 1
          · rw [← others other equal]
            exact single other
        · rintro ⟨other, known, -, ran⟩
          rw [found] at known
          obtain rfl := Option.some.inj known
          exact ran (first.mpr empty)
      · rintro ⟨single, fresh⟩ other
        by_cases equal : other = id
        · subst equal
          have empty : (tenures other).granted = [] :=
            first.mp (by_contra fun ran => fresh ⟨job, found, may, ran⟩)
          rw [observeAll, observed, empty]
          exact le_rfl
        · rw [others other equal]
          exact single other
    · obtain ⟨rfl, -⟩ := Prod.mk.inj (ran.symm.trans same)
      have kept : ¬Reclaims store (.claim id workerId nowTick leaseTicks) := by
        rintro ⟨job, found, may, -⟩
        exact refused job found may
      exact (and_iff_left kept).symm
  | _ => exact single_other fun _ _ _ _ equal => nomatch equal

end Store

section Session

variable (currentRevision : Nat)

theorem run_append (calls : List Call) (call : Call) :
    Session.run currentRevision (calls ++ [call]) = (Session.run currentRevision calls).step call := by
  unfold Session.run
  rw [List.foldl_append]
  rfl

theorem new_tracks : Tracks (JobStore.new currentRevision) fun _ => Tenure.none where
  present := fun id job found => by simp [JobStore.new] at found
  absent := fun _ _ => rfl

def Session.tenures (session : Session) (id : Nat) : Tenure := tenure id session.events

theorem step_tenures (session : Session) (call : Call) : (session.step call).tenures =
      observeAll session.tenures ⟨call, (JobStore.perform call session.store).1⟩ := by
  funext id
  exact tenure_append id session.events _

/-- Every record is kept with the history, and whatever was accepted was held. -/
theorem run_tracks (calls : List Call) :
    Tracks (Session.run currentRevision calls).store (Session.run currentRevision calls).tenures ∧
      Throughout (fun earlier event => AcceptedUnder (fun id => tenure id earlier) event)
        (Session.run currentRevision calls).events := by
  induction calls using List.reverseRecOn with
  | nil => exact ⟨new_tracks currentRevision, throughout_nil⟩
  | append_singleton calls call ih =>
    rw [run_append]
    generalize Session.run currentRevision calls = session at ih
    obtain ⟨tracks, accepted⟩ := ih
    rw [step_tenures]
    have stepped : (session.step call).events = session.events ++
        [⟨call, (JobStore.perform call session.store).1⟩] := rfl
    have store : (session.step call).store = (JobStore.perform call session.store).2 := rfl
    rw [stepped, store, throughout_append]
    rcases wp_run (perform_tracks tracks call) with
      ⟨answer, after, ran, tracked, under⟩ | ⟨fault, after, ran, tracked⟩
    · rw [ran]
      exact ⟨tracked, accepted, under⟩
    · rw [ran]
      exact ⟨tracked, accepted, acceptedUnder_none rfl⟩

/-- **Leases are safe exactly when no job is claimed that has run before.** -/
theorem leaseSafe_iff (calls : List Call) : LeaseSafe (Session.run currentRevision calls).events ↔
      Throughout (fun earlier call => ¬Reclaims (Session.run currentRevision earlier).store call)
        calls := by
  obtain ⟨tracks, accepted⟩ := run_tracks currentRevision calls
  have single : Single (Session.run currentRevision calls).tenures ↔ Throughout (fun earlier call =>
      ¬Reclaims (Session.run currentRevision earlier).store call) calls := by
    clear tracks accepted
    induction calls using List.reverseRecOn with
    | nil => exact ⟨fun _ => throughout_nil, fun _ _ => Nat.zero_le 1⟩
    | append_singleton calls call ih =>
      obtain ⟨tracks, -⟩ := run_tracks currentRevision calls
      rw [run_append, step_tenures, throughout_append, ← ih]
      exact single_step tracks rfl
  rw [← single, ← tracks.nodup_iff]
  exact ⟨LeaseSafe.distinct, fun distinct => ⟨accepted, distinct⟩⟩

end Session

/-- The database of a job store, with its table. -/
def installedLedger : DatabaseFixture := (JobStore.installLedgerSchema DatabaseFixture.new).2

/-- The first worker's lease expires, the second claims the job and starts it, and the first completes
the run with the generation of its own lease. -/
def reclaimedCalls : List Call :=
  [.enqueue installedLedger [107] [3, 4, 1] none 3 false, .claim 1 1 0 10, .expireStaleLeases 10,
    .claim 1 2 10 10, .beginExecution 1 1 11, .complete 1 ⟨1, 12, .success, 1, 100⟩]

/-- **A worker whose lease expired completes the run of the worker that took over.** -/
theorem reclaimed_lease_accepted : (Session.run 1 reclaimedCalls).events.map Event.answer =
      [.ok (.enqueued (.created 1)), .ok (.granted 0 1 10), .ok (.reclaimed [1]),
        .ok (.granted 1 1 20), .ok .done, .ok (.state .succeeded)] ∧
      ¬LeaseSafe (Session.run 1 reclaimedCalls).events := by
  refine ⟨by decide +kernel, fun safe => ?_⟩
  have twice : (tenure 1 (Session.run 1 reclaimedCalls).events).granted = [1, 1] := by
    decide +kernel
  have distinct := safe.distinct 1
  rw [twice] at distinct
  exact absurd distinct (by decide)

end Semaprax.DurableJobs
