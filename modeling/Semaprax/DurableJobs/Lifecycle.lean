/-
**The lifecycle of a job** (`job_fixture.rs`).

* `Sound` — a job has a lease exactly while it is leased or running.
* `Follows` — what a call may make of a record: it reopens no closed state, leaves a success only
  for the next occurrence, and an uncertainty of a handler that is not idempotent only as decided.
* `….follows` — every call on a record; a call that is refused changes nothing.
* `Lifecycle`, `Orderly` — the same of a store; `perform_orderly`.
-/

import Semaprax.DurableJobs.Safety

namespace Semaprax.DurableJobs

open Library

/-- A job that a worker holds. -/
def JobState.Busy (state : JobState) : Prop := state = .leased ∨ state = .running

/-- A state that is never left. -/
def JobState.Closed (state : JobState) : Prop :=
  state = .permanentFailure ∨ state = .cancelled ∨ state = .deadLettered

/-- A job has a lease exactly while it is held. -/
structure JobRecord.Sound (job : JobRecord) : Prop where
  leased : job.lease.isSome ↔ job.state.Busy
  bounded : job.attempt ≤ maxU8

/-- What becomes of a record, whose occurrence has ended or not. -/
structure JobRecord.Follows (ended : Prop) (job later : JobRecord) : Prop where
  key : later.idempotencyKey = job.idempotencyKey
  handler : later.isIdempotentHandler = job.isIdempotentHandler
  succeeded : job.state = .succeeded → later.state = .succeeded ∨ ended
  closed : job.state.Closed → later.state = job.state
  uncertain : job.state = .uncertain → job.isIdempotentHandler = false →
    later.state = .uncertain ∨ later.state = .succeeded ∨ later.state = .permanentFailure
  attempts : job.attempt ≤ later.attempt ∨ ended

section Record

variable {job later after : JobRecord} {ended : Prop}

variable {S : Type}

theorem JobRecord.Follows.refl : job.Follows ended job where
  key := rfl
  handler := rfl
  succeeded := .inl
  closed := fun _ => rfl
  uncertain := fun state _ => .inl state
  attempts := .inl le_rfl

theorem JobRecord.Follows.mono {ended' : Prop} (follows : job.Follows ended later)
    (weaker : ended → ended') : job.Follows ended' later where
  key := follows.key
  handler := follows.handler
  succeeded := fun state => (follows.succeeded state).imp_right weaker
  closed := follows.closed
  uncertain := follows.uncertain
  attempts := follows.attempts.imp_right weaker

/-- Nothing is asked of what becomes of a job that is queued or held. -/
theorem JobRecord.Follows.active (key : later.idempotencyKey = job.idempotencyKey)
    (handler : later.isIdempotentHandler = job.isIdempotentHandler)
    (attempts : job.attempt ≤ later.attempt) (active : job.state.Claimable ∨ job.state.Busy) :
    job.Follows ended later where
  key := key
  handler := handler
  succeeded := fun state => by simp [state, JobState.Claimable, JobState.Busy] at active
  closed := fun state => by
    rcases state with state | state | state <;>
      simp [state, JobState.Claimable, JobState.Busy] at active
  uncertain := fun state => by simp [state, JobState.Claimable, JobState.Busy] at active
  attempts := .inl attempts

/-- What a call that is refused leaves. -/
def Unchanged {S : Type} (before : S) (fault : Fault) (after : S) : Prop :=
  ∀ error, fault = .refused error → after = before

theorem unchanged_refl (before : S) (fault : Fault) : Unchanged before fault before :=
  fun _ _ => rfl

theorem unchanged_panicked (before after : S) : Unchanged before .panicked after :=
  fun _ refused => nomatch refused

def Guarantees {A : Type} (ended : A → Prop) (call : Prog JobRecord Fault A) : Prop :=
  ∀ job : JobRecord, job.Sound →
    call.wp (fun value later => later.Sound ∧ job.Follows (ended value) later)
      (fun fault later => later.Sound ∧ job.Follows False later ∧ Unchanged job fault later) job

theorem refused_same (sound : job.Sound) (fault : Fault) :
    job.Sound ∧ job.Follows False job ∧ Unchanged job fault job :=
  ⟨sound, .refl, unchanged_refl job fault⟩

theorem JobRecord.Sound.idle (sound : job.Sound) (idle : ¬job.state.Busy) : job.lease = none := by
  rw [← sound.leased] at idle
  exact Option.not_isSome_iff_eq_none.mp idle

theorem le_nextAttempt (bounded : job.attempt ≤ maxU8) :
    job.attempt ≤ nextAttempt job.attempt ∧ nextAttempt job.attempt ≤ maxU8 := by
  unfold nextAttempt
  omega

theorem claim_follows (workerId nowTick leaseTicks : Nat) :
    Guarantees (fun _ => False) (JobRecord.claim workerId nowTick leaseTicks) := by
  intro job sound
  unfold JobRecord.claim
  simp only [wp_bind, wp_get, wp_stopIf, wp_set, wp_pure, wp_addU64]
  refine ⟨fun _ => refused_same sound _, fun legal => ?_⟩
  refine ⟨fun _ => refused_same sound _, fun _ => ⟨fun _ => refused_same sound _, fun _ => ?_⟩⟩
  have granted : claimIsLegal job.state.code (job.isDue nowTick) = true := by simpa using legal
  have claimable : job.state.Claimable := ((claimIsLegal_iff _ _).mp granted).imp_right And.left
  exact ⟨⟨by simp [JobState.Busy], sound.bounded⟩, .active rfl rfl le_rfl (.inl claimable)⟩

theorem currentLease_same (generation nowTick : Nat) :
    (JobRecord.currentLease generation nowTick).wp
      (fun lease after => after = job ∧ job.lease = some lease)
      (fun _ after => after = job) job := by
  unfold JobRecord.currentLease
  simp only [wp_bind, wp_get, wp_stopIf, wp_ofOption, wp_pure]
  exact ⟨fun _ => trivial, fun lease leased => ⟨fun _ => trivial, fun _ => ⟨trivial, leased⟩⟩⟩

theorem heartbeat_follows (generation nowTick extendTicks : Nat) :
    Guarantees (fun _ => False) (JobRecord.heartbeat generation nowTick extendTicks) := by
  intro job sound
  unfold JobRecord.heartbeat
  simp only [wp_bind, wp_get, wp_stopIf]
  refine ⟨fun _ => refused_same sound _, fun busy => ?_⟩
  refine wp_mono (currentLease_same generation nowTick) (fun lease after current => ?_)
    fun fault after same => same ▸ refused_same sound fault
  obtain ⟨rfl, leased⟩ := current
  simp only [wp_bind, wp_set, wp_pure, wp_addU64]
  refine ⟨fun _ => refused_same sound _, fun _ => ?_⟩
  have held : after.state.Busy := not_not.mp busy
  exact ⟨⟨⟨fun _ => held, fun _ => rfl⟩, sound.bounded⟩, .active rfl rfl le_rfl (.inr held)⟩

theorem beginExecution_follows (generation nowTick : Nat) :
    Guarantees (fun _ => False) (JobRecord.beginExecution generation nowTick) := by
  intro job sound
  unfold JobRecord.beginExecution
  simp only [wp_bind, wp_get, wp_stopIf]
  refine ⟨fun _ => refused_same sound _, fun state => ?_⟩
  refine wp_mono (currentLease_same generation nowTick) (fun lease after current => ?_)
    fun fault after same => same ▸ refused_same sound fault
  obtain ⟨rfl, leased⟩ := current
  rw [wp_set]
  have held : after.state.Busy := .inl (not_not.mp state)
  refine ⟨⟨⟨fun _ => .inr rfl, fun _ => ?_⟩, sound.bounded⟩, .active rfl rfl le_rfl (.inr held)⟩
  exact leased ▸ rfl

theorem running_same (generation nowTick : Nat) : (JobRecord.running generation nowTick).wp
      (fun found after => found = job ∧ after = job ∧ job.state = .running)
      (fun _ after => after = job) job := by
  unfold JobRecord.running
  simp only [wp_bind, wp_get, wp_stopIf]
  refine ⟨fun _ => trivial, fun state => ?_⟩
  refine wp_mono (currentLease_same generation nowTick) (fun lease after current => ?_)
    (fun _ _ same => same)
  exact ⟨rfl, current.1, not_not.mp state⟩

theorem attemptsAfter_le (bounded : job.attempt ≤ maxU8) (outcome : OutcomeKind) :
    job.attempt ≤ job.attemptsAfter outcome ∧ job.attemptsAfter outcome ≤ maxU8 := by
  unfold JobRecord.attemptsAfter
  split_ifs
  · exact ⟨le_rfl, bounded⟩
  · exact le_nextAttempt bounded

theorem projected_idle (job : JobRecord) (outcome : OutcomeKind) :
    ¬(job.projected outcome).Busy := by
  unfold JobRecord.projected retryNextStateAfterOutcome
  split_ifs <;> simp [JobState.fromCode, JobState.Busy]

theorem complete_follows (report : CompletionAttempt) :
    Guarantees (fun _ => False) (JobRecord.complete report) := by
  intro job sound
  unfold JobRecord.complete
  rw [wp_bind]
  refine wp_mono (running_same report.leaseGeneration report.nowTick)
    (fun found after running => ?_) fun fault after same => same ▸ refused_same sound fault
  obtain ⟨rfl, rfl, state⟩ := running
  have held : after.state.Busy := .inr state
  have counted := attemptsAfter_le sound.bounded report.outcome
  have free : (none : Option Lease).isSome ↔ (after.projected report.outcome).Busy :=
    iff_of_false Bool.false_ne_true (projected_idle _ _)
  rw [wp_bind, wp_set]
  split_ifs with retried
  · simp only [wp_bind, wp_set, wp_pure, wp_addU64]
    refine ⟨fun _ => ⟨⟨free, counted.2⟩, .active rfl rfl counted.1 (.inr held),
      unchanged_panicked _ _⟩, fun _ => ⟨⟨by simp [JobState.Busy], counted.2⟩, ?_⟩⟩
    exact .active rfl rfl counted.1 (.inr held)
  · rw [wp_pure]
    exact ⟨⟨free, counted.2⟩, .active rfl rfl counted.1 (.inr held)⟩

theorem recordConnectionUncertain_follows :
    Guarantees (fun _ => False) JobRecord.recordConnectionUncertain := by
  intro job sound
  unfold JobRecord.recordConnectionUncertain
  simp only [wp_bind, wp_get, wp_stopIf, wp_set]
  refine ⟨fun _ => refused_same sound _, fun busy => ?_⟩
  exact ⟨⟨by simp [JobState.Busy], sound.bounded⟩, .active rfl rfl le_rfl (.inr (not_not.mp busy))⟩

theorem reconcileUncertain_follows (decision : Nat) :
    Guarantees (fun _ => False) (JobRecord.reconcileUncertain decision) := by
  intro job sound
  unfold JobRecord.reconcileUncertain
  simp only [wp_bind, wp_get, wp_stopIf]
  refine ⟨fun _ => refused_same sound _, fun state => ?_⟩
  have uncertain : job.state = .uncertain := not_not.mp state
  have free : job.lease = none := sound.idle (by simp [uncertain, JobState.Busy])
  have counted := le_nextAttempt sound.bounded
  have idle : ∀ state : JobState, ¬state.Busy → (job.lease.isSome ↔ state.Busy) :=
    fun state busy => iff_of_false (by simp [free]) busy
  -- whatever is decided, the job stays without a lease
  have decided {later : JobRecord} (key : later.idempotencyKey = job.idempotencyKey)
      (handler : later.isIdempotentHandler = job.isIdempotentHandler)
      (state : job.isIdempotentHandler = false →
        later.state = .uncertain ∨ later.state = .succeeded ∨ later.state = .permanentFailure)
      (attempts : job.attempt ≤ later.attempt) : job.Follows False later := by
    refine ⟨key, handler, fun same => ?_, fun closed => ?_, fun _ => state, .inl attempts⟩
    · simp [uncertain] at same
    · simp [uncertain, JobState.Closed] at closed
  split
  · exact ⟨⟨idle _ (by simp [JobState.Busy]), sound.bounded⟩,
      decided rfl rfl (fun _ => .inr (.inl rfl)) le_rfl⟩
  · exact ⟨⟨idle _ (by simp [JobState.Busy]), sound.bounded⟩,
      decided rfl rfl (fun _ => .inr (.inr rfl)) le_rfl⟩
  · split_ifs with permitted
    · refine ⟨⟨idle _ (by simp [JobState.Busy]), counted.2⟩,
        decided rfl rfl (fun handler => ?_) counted.1⟩
      simp [uncertainRetryIsPermitted, handler] at permitted
    · exact ⟨⟨idle _ (by simp [JobState.Busy]), sound.bounded⟩,
        decided rfl rfl (fun _ => .inl rfl) le_rfl⟩
  · exact ⟨⟨idle _ (by simp [JobState.Busy]), sound.bounded⟩,
      decided rfl rfl (fun _ => .inl rfl) le_rfl⟩

theorem expire_follows (nowTick : Nat) :
    Guarantees (fun _ => False) (JobRecord.expire nowTick) := by
  intro job sound
  unfold JobRecord.expire
  rw [wp_bind, wp_get]
  cases leased : job.lease with
  | none => exact ⟨sound, .refl⟩
  | some lease =>
    have held : job.state.Busy := sound.leased.mp (leased ▸ rfl)
    dsimp only
    split_ifs
    · simp only [wp_bind, wp_set, wp_pure, wp_addU64]
      refine ⟨fun _ => refused_same sound _, fun _ => ?_⟩
      exact ⟨⟨by simp [JobState.Busy], sound.bounded⟩, .active rfl rfl le_rfl (.inr held)⟩
    · exact ⟨sound, .refl⟩

theorem cancelIsLegal_iff (state : JobState) : cancelIsLegal state.code = true ↔
    state.Claimable ∨ state = .leased ∨ state = .retryableFailure := by
  cases state <;> simp [cancelIsLegal, JobState.code, JobState.Claimable]

theorem cancel_follows : Guarantees (fun _ => False) JobRecord.cancel := by
  intro job sound
  unfold JobRecord.cancel
  simp only [wp_bind, wp_get, wp_stopIf, wp_set, wp_pure]
  refine ⟨fun _ => refused_same sound _, fun legal => ?_⟩
  have going := (cancelIsLegal_iff job.state).mp (by simpa using legal)
  refine ⟨⟨by simp [JobState.Busy], sound.bounded⟩, rfl, rfl, ?_, ?_, ?_, .inl le_rfl⟩
  · intro state
    simp [state, JobState.Claimable] at going
  · rintro (state | state | state) <;> simp [state, JobState.Claimable] at going
  · intro state
    simp [state, JobState.Claimable] at going

theorem advanceRecurringSchedule_follows (nowTick maxCatchUp : Nat) :
    Guarantees (fun next => next.isSome)
      (JobRecord.advanceRecurringSchedule nowTick maxCatchUp) := by
  intro job sound
  unfold JobRecord.advanceRecurringSchedule
  simp only [wp_bind, wp_get, wp_stopIf]
  refine ⟨fun _ => refused_same sound _, fun state => ?_⟩
  have succeeded : job.state = .succeeded := not_not.mp state
  have free : job.lease = none := sound.idle (by simp [succeeded, JobState.Busy])
  split
  · simp only [wp_bind, wp_ofOption]
    refine ⟨fun _ => refused_same sound _, fun occurrencesRun _ => ?_⟩
    split_ifs
    · simp only [wp_bind, wp_set, wp_pure]
      exact ⟨⟨sound.leased, sound.bounded⟩, ⟨rfl, rfl, .inl, fun _ => rfl,
        fun state _ => .inl state, .inl le_rfl⟩⟩
    · simp only [wp_bind, wp_set, wp_pure, wp_ofOption]
      refine ⟨fun _ => refused_same sound _, fun next _ => ?_⟩
      refine ⟨⟨by simp [free, JobState.Busy], Nat.zero_le _⟩, ⟨rfl, rfl, fun _ => .inr rfl, ?_, ?_,
        .inr rfl⟩⟩
      · intro closed
        simp [succeeded, JobState.Closed] at closed
      · intro uncertain
        simp [succeeded] at uncertain
  · exact ⟨sound, .refl⟩

/-- One call after another, neither of which ends an occurrence. -/
theorem JobRecord.Follows.trans (first : job.Follows False later)
    (second : later.Follows False after) : job.Follows False after where
  key := second.key.trans first.key
  handler := second.handler.trans first.handler
  succeeded := fun state => (first.succeeded state).elim second.succeeded False.elim
  closed := fun closed => by
    have same := first.closed closed
    rw [second.closed (same ▸ closed), same]
  uncertain := fun state handler => by
    rcases first.uncertain state handler with later | later | later
    · exact second.uncertain later (first.handler.trans handler)
    · exact .inr (.inl ((second.succeeded later).elim id False.elim))
    · exact .inr (.inr ((second.closed (.inl later)).trans later))
  attempts := .inl ((first.attempts.elim id False.elim).trans (second.attempts.elim id False.elim))

end Record

/-- Leases are with the jobs that are held, and no two jobs have one key. -/
structure Lifecycle (store : JobStore) : Prop where
  sound : ∀ (id : Nat) (job : JobRecord), store.jobs[id]? = some job → job.Sound
  ids : ∀ (id : Nat) (job : JobRecord), store.jobs[id]? = some job → id < store.nextId
  keys : ∀ (id id' : Nat) (job job' : JobRecord), store.jobs[id]? = some job →
    store.jobs[id']? = some job' → job.idempotencyKey = job'.idempotencyKey → id = id'

/-- Every job is still there, and what became of it follows. -/
def Grows (ended : Nat → Prop) (before after : JobStore) : Prop :=
  ∀ (id : Nat) (job : JobRecord), before.jobs[id]? = some job →
    ∃ later, after.jobs[id]? = some later ∧ job.Follows (ended id) later

def SameJobs (before after : JobStore) : Prop :=
  ∀ id : Nat, after.jobs[id]? = before.jobs[id]?

section Store

variable {A : Type} {store after : JobStore} {id : Nat} {job : JobRecord}

theorem Grows.refl {ended : Nat → Prop} : Grows ended store store :=
  fun _ job found => ⟨job, found, .refl⟩

theorem Grows.mono {ended ended' : Nat → Prop} (grows : Grows ended store after)
    (weaker : ∀ id, ended id → ended' id) : Grows ended' store after := by
  intro id job found
  obtain ⟨later, there, follows⟩ := grows id job found
  exact ⟨later, there, follows.mono (weaker id)⟩

theorem Grows.trans {later : JobStore} (first : Grows (fun _ => False) store after)
    (second : Grows (fun _ => False) after later) : Grows (fun _ => False) store later := by
  intro id job found
  obtain ⟨middle, there, follows⟩ := first id job found
  obtain ⟨final, last, follows'⟩ := second id middle there
  exact ⟨final, last, follows.trans follows'⟩

theorem put_jobs (store : JobStore) (id other : Nat) (job : JobRecord) :
    (store.put id job).jobs[other]? = if id = other then some job else store.jobs[other]? := by
  rw [JobStore.put, BTreeMap.getElem?_insert_eq]

theorem put_same (found : store.jobs[id]? = some job) : SameJobs store (store.put id job) := by
  intro other
  rw [put_jobs]
  split_ifs with same
  · rw [← same, found]
  · rfl

theorem Lifecycle.put {later : JobRecord} {ended : Prop} (lifecycle : Lifecycle store)
    (found : store.jobs[id]? = some job) (sound : later.Sound) (follows : job.Follows ended later) :
    Lifecycle (store.put id later) ∧ Grows (fun other => other = id ∧ ended) store
      (store.put id later) := by
  -- the keys of the new store are those of the old one
  have old : ∀ (other : Nat) (record : JobRecord), (store.put id later).jobs[other]? = some record →
      ∃ before : JobRecord, store.jobs[other]? = some before ∧
        before.idempotencyKey = record.idempotencyKey := by
    intro other record there
    rw [put_jobs] at there
    split_ifs at there with same
    · obtain rfl := Option.some.inj there
      exact ⟨job, same ▸ found, follows.key.symm⟩
    · exact ⟨record, there, rfl⟩
  refine ⟨⟨fun other record there => ?_, fun other record there => ?_, ?_⟩, ?_⟩
  · rw [put_jobs] at there
    split_ifs at there
    · obtain rfl := Option.some.inj there
      exact sound
    · exact lifecycle.sound other record there
  · obtain ⟨before, there, -⟩ := old other record there
    exact lifecycle.ids other before there
  · intro first second record record' there there' keys
    obtain ⟨before, there, key⟩ := old first record there
    obtain ⟨before', there', key'⟩ := old second record' there'
    exact lifecycle.keys first second before before' there there' (by rw [key, key', keys])
  · intro other record there
    by_cases same : id = other
    · subst same
      rw [found] at there
      obtain rfl := Option.some.inj there
      refine ⟨later, by rw [put_jobs, if_pos rfl], ?_⟩
      exact follows.mono fun done => ⟨rfl, done⟩
    · exact ⟨record, by rw [put_jobs, if_neg same]; exact there, .refl⟩

theorem onJob_orderly {ended : A → Prop} {call : Prog JobRecord Fault A}
    (lifecycle : Lifecycle store) (guarantees : Guarantees ended call) (id : Nat) :
    (JobStore.onJob id call).wp
      (fun value after => Lifecycle after ∧
        Grows (fun other => other = id ∧ ended value) store after)
      (fun fault after => Lifecycle after ∧ Grows (fun _ => False) store after ∧
        ∀ error, fault = .refused error → SameJobs store after) store := by
  rw [wp_onJob]
  refine ⟨fun _ => ⟨lifecycle, .refl, fun _ _ _ => rfl⟩, fun job found => ?_⟩
  refine wp_mono (guarantees job (lifecycle.sound id job found))
    (fun value later kept => lifecycle.put found kept.1 kept.2) fun fault later kept => ?_
  obtain ⟨sound, follows, unchanged⟩ := kept
  obtain ⟨keeps, grows⟩ := lifecycle.put found sound follows
  refine ⟨keeps, ?_, fun error refused => unchanged error refused ▸ put_same found⟩
  simpa only [and_false] using grows

theorem Lifecycle.first {A : Type} {program : Prog JobStore Fault A} {middle : JobStore}
    (grows : Grows (fun _ => False) store middle)
    (runs : program.wp (fun _ after => Lifecycle after ∧ Grows (fun _ => False) middle after)
      (fun fault after => Lifecycle after ∧ Grows (fun _ => False) middle after ∧ fault = .panicked)
      middle) :
    program.wp (fun _ after => Lifecycle after ∧ Grows (fun _ => False) store after)
      (fun fault after => Lifecycle after ∧ Grows (fun _ => False) store after ∧ fault = .panicked)
      middle :=
  wp_mono runs (fun _ _ after => ⟨after.1, grows.trans after.2⟩)
    fun _ _ after => ⟨after.1, grows.trans after.2.1, after.2.2⟩

theorem expire_panics (nowTick : Nat) :
    (JobRecord.expire nowTick).wp (fun _ _ => True) (fun fault _ => fault = .panicked) job := by
  unfold JobRecord.expire
  rw [wp_bind, wp_get]
  cases job.lease with
  | none => trivial
  | some lease =>
    dsimp only
    split_ifs
    · simp only [wp_bind, wp_set, wp_pure, wp_addU64, implies_true, and_self]
    · trivial

theorem expireListed_orderly (lifecycle : Lifecycle store) (nowTick : Nat) (ids : List Nat)
    (present : ∀ id ∈ ids, ∃ job, store.jobs[id]? = some job) :
    (JobStore.expireListed nowTick ids).wp
      (fun _ after => Lifecycle after ∧ Grows (fun _ => False) store after)
      (fun fault after => Lifecycle after ∧ Grows (fun _ => False) store after ∧ fault = .panicked)
      store := by
  induction ids generalizing store with
  | nil => exact ⟨lifecycle, .refl⟩
  | cons id ids ih =>
    unfold JobStore.expireListed
    rw [wp_bind, wp_onJob]
    obtain ⟨job, found⟩ := present id List.mem_cons_self
    refine ⟨fun missing => by simp [found] at missing, fun job' found' => ?_⟩
    obtain rfl : job' = job := Option.some.inj (found'.symm.trans found)
    have sound := lifecycle.sound id job' found
    refine wp_mono ((expire_follows nowTick job' sound).both (expire_panics nowTick))
      (fun ended later kept => ?_) fun fault later kept => ?_
    · obtain ⟨keeps, grows⟩ := lifecycle.put found kept.1.1 kept.1.2
      simp only [and_false] at grows
      rw [wp_bind]
      refine Lifecycle.first grows (ih keeps fun other member => ?_)
      obtain ⟨before, there⟩ := present other (List.mem_cons_of_mem _ member)
      obtain ⟨after, there, -⟩ := grows other before there
      exact ⟨after, there⟩
    · obtain ⟨keeps, grows⟩ := lifecycle.put found kept.1.1 kept.1.2.1
      simp only [and_false] at grows
      exact ⟨keeps, grows, kept.2⟩

theorem Lifecycle.create (lifecycle : Lifecycle store) {later : JobRecord} (sound : later.Sound)
    (fresh : ∀ (id : Nat) (job : JobRecord), store.jobs[id]? = some job →
      job.idempotencyKey ≠ later.idempotencyKey) :
    store.jobs[store.nextId]? = none ∧
      Lifecycle ({ store with nextId := store.nextId + 1 }.put store.nextId later) ∧
      Grows (fun _ => False) store
        ({ store with nextId := store.nextId + 1 }.put store.nextId later) := by
  have missing : store.jobs[store.nextId]? = none := by
    cases found : store.jobs[store.nextId]? with
    | none => rfl
    | some job => exact absurd (lifecycle.ids _ job found) (lt_irrefl _)
  let room : JobStore := { store with
    nextId := store.nextId + 1 }
  have there : ∀ (other : Nat) (record : JobRecord),
      (room.put store.nextId later).jobs[other]? = some record →
      (other = store.nextId ∧ record = later) ∨ store.jobs[other]? = some record := by
    intro other record found
    rw [put_jobs] at found
    split_ifs at found with same
    · exact .inl ⟨same.symm, (Option.some.inj found).symm⟩
    · exact .inr found
  refine ⟨missing, ⟨fun other record found => ?_, fun other record found => ?_, ?_⟩, ?_⟩
  · rcases there other record found with ⟨-, rfl⟩ | old
    · exact sound
    · exact lifecycle.sound other record old
  · rcases there other record found with ⟨rfl, -⟩ | old
    · exact Nat.lt_succ_self _
    · exact Nat.lt_succ_of_lt (lifecycle.ids other record old)
  · intro first second record record' found found' keys
    rcases there first record found with ⟨rfl, rfl⟩ | old <;>
      rcases there second record' found' with ⟨rfl, rfl⟩ | old'
    · rfl
    · exact absurd keys.symm (fresh second record' old')
    · exact absurd keys (fresh first record old)
    · exact lifecycle.keys first second record record' old old' keys
  · intro other record found
    have different : store.nextId ≠ other := by
      rintro rfl
      rw [missing] at found
      exact nomatch found
    exact ⟨record, by rw [put_jobs, if_neg different]; exact found, .refl⟩

theorem freshJob_sound (key payload : List UInt8) (schedule : Option Schedule) (maxAttempts : Nat)
    (isIdempotentHandler : Bool) (revision : Nat) :
    (JobStore.freshJob key payload schedule maxAttempts isIdempotentHandler revision).Sound where
  leased := by cases schedule <;> simp [JobStore.freshJob, JobState.Busy]
  bounded := Nat.zero_le _

def JobStore.KeyInUse (store : JobStore) (key : List UInt8) : Prop :=
  ∃ (id : Nat) (job : JobRecord), store.jobs[id]? = some job ∧ job.idempotencyKey = key

theorem find_key_none {key : List UInt8}
    (none : (store.jobs.toList.find? fun entry => entry.2.idempotencyKey = key) = none) :
    ¬store.KeyInUse key := by
  rintro ⟨id, job, found, same⟩
  have listed : (id, job) ∈ store.jobs.toList :=
    Std.TreeMap.mem_toList_iff_getElem?_eq_some.mpr found
  have different := List.find?_eq_none.mp none (id, job) listed
  simp [same] at different

theorem wp_expectLedger_iff (call : Prog DatabaseFixture FixtureError A)
    {ends : A → JobStore × DatabaseFixture → Prop}
    {stops : Fault → JobStore × DatabaseFixture → Prop} (ledger : DatabaseFixture) :
    (JobStore.expectLedger call).wp ends stops (store, ledger) ↔
      call.wp (fun value after => ends value (store, after))
        (fun _ after => stops .panicked (store, after)) ledger := by
  unfold JobStore.expectLedger
  rw [wp_mapStop, wp_onSecond]

theorem enqueue_orderly (lifecycle : Lifecycle store) (ledger : DatabaseFixture)
    (key payload : List UInt8) (schedule : Option Schedule) (maxAttempts : Nat)
    (isIdempotentHandler : Bool) :
    (JobStore.enqueue key payload schedule maxAttempts isIdempotentHandler).wp
      (fun outcome after => Lifecycle after.1 ∧ Grows (fun _ => False) store after.1 ∧
        ∀ id, outcome = .created id → store.jobs[id]? = none)
      (fun fault after => after.1 = store ∧ fault = .panicked) (store, ledger) := by
  unfold JobStore.enqueue
  rw [wp_bind, wp_onFirst, wp_get]
  split
  · split_ifs
    · exact ⟨lifecycle, .refl, fun _ created => nomatch created⟩
    · exact ⟨lifecycle, .refl, fun _ created => nomatch created⟩
  · rename_i unused
    rw [wp_bind, wp_expectLedger_iff]
    refine wp_of_forall _ (fun _ ledger => ?_) fun _ _ => ⟨rfl, rfl⟩
    rw [wp_bind, wp_expectLedger_iff]
    refine wp_of_forall _ (fun _ ledger => ?_) fun _ _ => ⟨rfl, rfl⟩
    rw [wp_bind, wp_expectLedger_iff]
    refine wp_of_forall _ (fun _ ledger => ?_) fun _ _ => ⟨rfl, rfl⟩
    simp only [wp_bind, wp_addU64, wp_onFirst, wp_set, wp_pure]
    refine ⟨fun _ => ⟨trivial, trivial⟩, fun _ => ?_⟩
    obtain ⟨missing, keeps, grows⟩ := lifecycle.create
      (freshJob_sound key payload schedule maxAttempts isIdempotentHandler store.currentRevision)
      fun id job found same => find_key_none unused ⟨id, job, found, same⟩
    refine ⟨keeps, grows, fun id created => ?_⟩
    cases created
    exact missing

theorem completeDurable_orderly (lifecycle : Lifecycle store) (ledger : DatabaseFixture) (id : Nat)
    (report : CompletionAttempt) :
    (JobStore.completeDurable id report).wp
      (fun _ after => Lifecycle after.1 ∧ Grows (fun _ => False) store after.1)
      (fun fault after => Lifecycle after.1 ∧ Grows (fun _ => False) store after.1 ∧
        ∀ error, fault = .refused error → SameJobs store after.1) (store, ledger) := by
  unfold JobStore.completeDurable
  rw [wp_bind, wp_onFirst, wp_onJob]
  refine ⟨fun _ => ⟨lifecycle, .refl, fun _ _ _ => rfl⟩, fun job found => ?_⟩
  have sound := lifecycle.sound id job found
  obtain ⟨keeps, grows⟩ := lifecycle.put found sound (.refl : job.Follows False job)
  simp only [and_false] at grows
  have same := put_same found
  refine wp_mono (running_same report.leaseGeneration report.nowTick)
    (fun _ after running => ?_) fun _ after equal => ?_
  · obtain ⟨-, rfl, -⟩ := running
    have later {B : Type} {call : Prog JobRecord Fault B}
        (guarantees : Guarantees (fun _ => False) call) :
        (JobStore.onJob id call).wp
          (fun _ later => Lifecycle later ∧ Grows (fun _ => False) store later)
          (fun fault later => Lifecycle later ∧ Grows (fun _ => False) store later ∧
            ∀ error, fault = .refused error → SameJobs store later) (store.put id after) := by
      refine wp_mono (onJob_orderly keeps guarantees id) (fun _ later kept => ?_)
        fun _ later kept => ?_
      · have grown : Grows (fun _ => False) (store.put id after) later := by
          simpa only [and_false] using kept.2
        exact ⟨kept.1, grows.trans grown⟩
      · exact ⟨kept.1, grows.trans kept.2.1, fun error refused other =>
          (kept.2.2 error refused other).trans (same other)⟩
    rw [wp_bind, wp_attempt, wp_onSecond]
    refine wp_of_forall _ (fun _ ledger => ?_) fun _ ledger => ?_
    · rw [wp_onFirst]
      exact later (complete_follows report)
    · rw [wp_bind, wp_onFirst]
      exact later recordConnectionUncertain_follows
  · subst equal
    exact ⟨keeps, grows, fun _ _ => same⟩

/-- The occurrence of a job that a call has ended. -/
def Advances (call : Call) (answer : Except Fault Answer) (id : Nat) : Prop :=
  ∃ nowTick maxCatchUp next, call = .advanceRecurringSchedule id nowTick maxCatchUp ∧
    answer = .ok (.advanced (some next))

/-- What a call may do to the jobs: it follows from each of them, changes nothing if it is refused,
and numbers a new job anew. -/
structure Orderly (call : Call) (answer : Except Fault Answer) (before after : JobStore) :
    Prop where
  follows : Grows (Advances call answer) before after
  refused : ∀ error, answer = .error (.refused error) → SameJobs before after
  created : ∀ id, answer = .ok (.enqueued (.created id)) → before.jobs[id]? = none

theorem onJob_perform {ended : A → Prop} {call : Prog JobRecord Fault A}
    (lifecycle : Lifecycle store) (guarantees : Guarantees ended call) (named : Call)
    (answer : A → Answer) (id : Nat)
    (unnumbered : ∀ value other, answer value ≠ .enqueued (.created other))
    (advances : ∀ value, ended value → Advances named (.ok (answer value)) id) :
    (JobStore.onJob id call >>= fun value => pure (answer value)).wp
      (fun answer after => Lifecycle after ∧ Orderly named (.ok answer) store after)
      (fun fault after => Lifecycle after ∧ Orderly named (.error fault) store after) store := by
  rw [wp_bind]
  refine wp_mono (onJob_orderly lifecycle guarantees id) (fun value after kept => ?_)
    fun fault after kept => ?_
  · rw [wp_pure]
    refine ⟨kept.1, fun other job found => ?_, (fun _ refused => nomatch refused),
      fun other made => ?_⟩
    · obtain ⟨later, there, follows⟩ := kept.2 other job found
      refine ⟨later, there, follows.mono ?_⟩
      rintro ⟨rfl, done⟩
      exact advances value done
    · exact absurd (Except.ok.inj made) (unnumbered value other)
  · refine ⟨kept.1, fun other job found => ?_, fun error refused => ?_,
      (fun _ made => nomatch made)⟩
    · obtain ⟨later, there, follows⟩ := kept.2.1 other job found
      exact ⟨later, there, follows.mono False.elim⟩
    · exact kept.2.2 error (Except.error.inj refused)

/-- **Every call is orderly and keeps the lifecycle.** -/
theorem perform_orderly (lifecycle : Lifecycle store) (call : Call) : (JobStore.perform call).wp
      (fun answer after => Lifecycle after ∧ Orderly call (.ok answer) store after)
      (fun fault after => Lifecycle after ∧ Orderly call (.error fault) store after) store := by
  have never {named : Call} {answer : Except Fault Answer} {id : Nat} :
      False → Advances named answer id := False.elim
  cases call with
  | enqueue ledger key payload schedule maxAttempts isIdempotentHandler =>
    unfold JobStore.perform
    rw [wp_bind, wp_withSecond]
    refine wp_mono (enqueue_orderly lifecycle ledger key payload schedule maxAttempts
      isIdempotentHandler) (fun outcome after kept => ?_) fun fault after kept => ?_
    · obtain ⟨keeps, grows, fresh⟩ := kept
      refine ⟨keeps, grows.mono fun _ => never, (fun _ refused => nomatch refused),
        fun id made => ?_⟩
      exact fresh id (Answer.enqueued.inj (Except.ok.inj made))
    · obtain ⟨same, rfl⟩ := kept
      rw [same]
      exact ⟨lifecycle, .refl, fun _ _ _ => rfl, (fun _ made => nomatch made)⟩
  | claim id workerId nowTick leaseTicks =>
    exact onJob_perform lifecycle (claim_follows workerId nowTick leaseTicks) _ _ id
      (fun _ _ same => nomatch same) fun _ => never
  | heartbeat id generation nowTick extendTicks =>
    exact onJob_perform lifecycle (heartbeat_follows generation nowTick extendTicks) _ _ id
      (fun _ _ same => nomatch same) fun _ => never
  | beginExecution id generation nowTick =>
    exact onJob_perform lifecycle (beginExecution_follows generation nowTick) _
      (fun _ => .done) id (fun _ _ same => nomatch same) fun _ => never
  | complete id report =>
    exact onJob_perform lifecycle (complete_follows report) _ _ id (fun _ _ same => nomatch same)
      fun _ => never
  | completeDurable ledger id report =>
    unfold JobStore.perform
    rw [wp_bind, wp_withSecond]
    refine wp_mono (completeDurable_orderly lifecycle ledger id report)
      (fun state after kept => ?_) fun fault after kept => ?_
    · exact ⟨kept.1, kept.2.mono fun _ => never, (fun _ refused => nomatch refused),
        (fun _ made => nomatch made)⟩
    · exact ⟨kept.1, kept.2.1.mono fun _ => never,
        fun error refused => kept.2.2 error (Except.error.inj refused),
        (fun _ made => nomatch made)⟩
  | recordConnectionUncertain id =>
    exact onJob_perform lifecycle recordConnectionUncertain_follows _ (fun _ => .done) id
      (fun _ _ same => nomatch same) fun _ => never
  | reconcileUncertain id decision =>
    exact onJob_perform lifecycle (reconcileUncertain_follows decision) _ _ id
      (fun _ _ same => nomatch same) fun _ => never
  | expireStaleLeases nowTick =>
    unfold JobStore.perform JobStore.expireStaleLeases
    rw [wp_bind, wp_bind, wp_get]
    refine wp_mono (expireListed_orderly lifecycle nowTick store.jobs.keys
      fun id listed => ?_) (fun ids after kept => ?_) fun fault after kept => ?_
    · exact Option.isSome_iff_exists.mp
        (Std.TreeMap.mem_iff_isSome_getElem?.mp ((BTreeMap.mem_keys_iff _ _).mp listed))
    · exact ⟨kept.1, kept.2.mono fun _ => never, (fun _ refused => nomatch refused),
        (fun _ made => nomatch made)⟩
    · obtain ⟨keeps, grows, rfl⟩ := kept
      exact ⟨keeps, grows.mono fun _ => never,
        (fun _ refused => nomatch Except.error.inj refused), (fun _ made => nomatch made)⟩
  | cancel id =>
    exact onJob_perform lifecycle cancel_follows _ _ id (fun _ _ same => nomatch same)
      fun _ => never
  | advanceRecurringSchedule id nowTick maxCatchUp =>
    refine onJob_perform lifecycle (advanceRecurringSchedule_follows nowTick maxCatchUp) _ _ id
      (fun _ _ same => nomatch same) fun next advanced => ?_
    obtain ⟨tick, rfl⟩ := Option.isSome_iff_exists.mp advanced
    exact ⟨nowTick, maxCatchUp, tick, rfl, rfl⟩
  | setCurrentRevision currentRevision =>
    exact ⟨⟨lifecycle.sound, lifecycle.ids, lifecycle.keys⟩, .refl,
      (fun _ refused => nomatch refused), (fun _ made => nomatch made)⟩

end Store

end Semaprax.DurableJobs
