/-
**Runtimes over one checkpoint store** (`job_runtime.rs`).

Any number of runtimes is begun or recovered over one store, whose generations grow and which is
replaced only by the runtime that holds the last one. A runtime may be stopped between any two of its
questions, and a document that a store keeps need not be reported as kept.

* `World` — what is stored, and the documents and the executions that there have been.
* `runners` — the moves of the runtimes, with a condition on the requests that are made of them.
* `World.Good` — documents of runtimes that each go on from the one before, and executions that each
  have a document of their own.
* `reached_good` — the world is good in every state that is reached.
-/

import Semaprax.DurableJobs.Driving

namespace Semaprax.DurableJobs

open Library

/-- A document that was kept, and the runtime that it is of. -/
structure Checkpoint where
  generation : Nat
  document : List UInt8
  written : JobRuntime

inductive Happening
  | persisted (checkpoint : Checkpoint)
  | executed (running : JobRuntime)

def Happening.checkpoint : Happening → Option Checkpoint
  | persisted checkpoint => some checkpoint
  | executed _ => none

def Happening.execution : Happening → Option JobRuntime
  | persisted _ => none
  | executed running => some running

/-- What the checkpoint store holds, what happened so far, and the last tick that a job was driven
at. -/
structure World where
  stored : Option StoredJobCheckpoint
  happenings : List Happening
  clock : Nat

namespace World

def new : World := ⟨none, [], 0⟩

def checkpoints (world : World) : List Checkpoint := world.happenings.filterMap Happening.checkpoint

def executions (world : World) : List JobRuntime := world.happenings.filterMap Happening.execution

/-- The world after a document is kept. -/
def keep (world : World) (checkpoint : Checkpoint) : World :=
  { world with
    stored := some ⟨checkpoint.generation, checkpoint.document⟩
    happenings := world.happenings ++ [.persisted checkpoint] }

def execute (world : World) (running : JobRuntime) : World :=
  { world with
    happenings := world.happenings ++ [.executed running] }

def tickTo (world : World) (tick : Nat) : World :=
  { world with
    clock := tick }

end World

/-- How a question is answered: the store fails to load or does not, it replaces the document and
reports that or fails to, it refuses, and the handler reports an outcome. -/
inductive Choice
  | loads (fails : Bool)
  | swaps (generation : Nat) (reported : Bool)
  | refuses
  | reports (outcome : HostJobOutcome)

def World.answers (world : World) : (question : Query) → Choice → Option (World × Response question)
  | .load, .loads fails => some (world, if fails then .error () else .ok world.stored)
  | .compareAndSwap expectedGeneration document written, .swaps generation reported =>
    if world.stored.map StoredJobCheckpoint.generation = expectedGeneration ∧
        world.stored.all fun last => last.generation < generation then
      some (world.keep ⟨generation, document, written⟩, if reported then some generation else none)
    else none
  | .compareAndSwap _ _ _, .refuses => some (world, none)
  | .execute _ running, .reports outcome => some (world.execute running, outcome)
  | _, _ => none

/-- A runtime is begun, with numbers of 64 bits, or recovered. -/
inductive Opening
  | enqueue (schema : InteractionSchema) (currentRevision : UInt8) (submission : JobSubmission)
      (typed : ∀ schedule, submission.schedule = some schedule → schedule.Typed)
  | recover (schema : InteractionSchema) (currentRevision : UInt8)

/-- What is asked of a runtime. -/
inductive Request
  | drive (workerId : UInt32) (nowTick leaseTicks : UInt64)
  | reconcile (decision : UInt64)
  | cancel

def remains {A : Type} : Except Halt A × JobRuntime → Option JobRuntime
  | (.error .panicked, _) => none
  | (_, runtime) => some runtime

def operate {A : Type} (task : Task A) (runtime : JobRuntime) :
    Flow Query Response (Option JobRuntime) :=
  (task runtime).bind fun outcome => .done (remains outcome)

def begins (flow : Flow Query Response (Except Halt JobRuntime)) :
    Flow Query Response (Option JobRuntime) := flow.bind fun outcome => .done outcome.toOption

/-- The runtimes, of which only what is permitted is requested. Ticks do not decrease. -/
def runners (permits : JobRuntime → Request → Bool) :
    Sharing World Query Response (Option JobRuntime) Opening Request Choice where
  opens world
    | .enqueue schema currentRevision submission _ =>
      some (world, begins (JobRuntime.enqueue schema currentRevision submission))
    | .recover schema currentRevision =>
      some (world, begins (JobRuntime.recover schema currentRevision))
  resumes world value request :=
    match value with
    | none => none
    | some runtime =>
      if permits runtime request then
        match request with
        | .drive workerId nowTick leaseTicks =>
          if world.clock ≤ nowTick.toNat then
            some (world.tickTo nowTick.toNat,
              operate (JobRuntime.driveOnce workerId nowTick leaseTicks) runtime)
          else none
        | .reconcile decision => some (world, operate (JobRuntime.reconcile decision) runtime)
        | .cancel => some (world, operate JobRuntime.cancel runtime)
      else none
  answers := World.answers

/-- A condition on the requests, and what it says of the entries that they record. -/
structure Restraint where
  permits : JobRuntime → Request → Bool
  allows : List JobEvidenceEntry → JobEvidenceEntry → Prop
  found : ∀ past entry, ¬entry.Requested → allows past entry
  claims : ∀ runtime after workerId nowTick leaseTicks generation,
    permits runtime (.drive workerId nowTick leaseTicks) = true →
      JobRuntime.checkDrive nowTick leaseTicks runtime = (.ok (), runtime) →
        JobRuntime.claim workerId nowTick leaseTicks runtime = (.ok (some generation), after) →
          allows runtime.evidence.entries (.claimed true)
  reconciles : ∀ runtime decision attempt, permits runtime (.reconcile decision) = true →
    attemptOf runtime.store runtime.jobId = some attempt →
      allows runtime.evidence.entries (.reconciledUncertain decision
        runtime.submission.isIdempotentHandler attempt runtime.submission.maxAttempts)

/-- Nothing is asked of the requests. -/
def Restraint.all : Restraint where
  permits _ _ := true
  allows _ _ := True
  found _ _ _ := trivial
  claims _ _ _ _ _ _ _ _ _ := trivial
  reconciles _ _ _ _ _ := trivial

structure Checkpoint.Before (earlier later : Checkpoint) : Prop where
  generation : earlier.generation < later.generation
  submission : earlier.written.submission = later.written.submission
  entries : earlier.written.evidence.entries <+: later.written.evidence.entries
  grown : earlier.written.evidence.entries.length < later.written.evidence.entries.length

/-- A checkpoint that keeps what its runtime recorded. -/
structure Checkpoint.Kept (restraint : Restraint) (clock : Nat) (checkpoint : Checkpoint) : Prop where
  sound : ∃ job, checkpoint.written.Sound clock job
  encoded : (RuntimeCheckpoint.fromRuntime checkpoint.written).encode = .ok checkpoint.document
  restrained : Throughout restraint.allows checkpoint.written.evidence.entries

/-- A runtime that executes a job whose beginning it has recorded in a checkpoint. -/
structure Executes (checkpoint : Checkpoint) (running : JobRuntime) : Prop where
  generation : running.checkpointGeneration = some checkpoint.generation
  submission : running.submission = checkpoint.written.submission
  entries : running.evidence.entries = checkpoint.written.evidence.entries
  begun : running.evidence.entries.getLast? = some .begunExecution

structure World.Good (restraint : Restraint) (world : World) : Prop where
  stored : world.stored =
    world.checkpoints.getLast?.map fun last => ⟨last.generation, last.document⟩
  chain : world.checkpoints.Pairwise Checkpoint.Before
  kept : ∀ checkpoint ∈ world.checkpoints, checkpoint.Kept restraint world.clock
  executed : Throughout (fun earlier happening => ∀ running, happening = .executed running →
    ∃ checkpoint, .persisted checkpoint ∈ earlier ∧ Executes checkpoint running) world.happenings
  once : (world.executions.map JobRuntime.checkpointGeneration).Nodup

/-- The clock goes on and what happened stays. -/
def World.Later (world found : World) : Prop :=
  world.clock ≤ found.clock ∧ world.happenings <+: found.happenings

/-- The generations: they are issued with a checkpoint and spent by an execution. -/
def jobTerms (restraint : Restraint) : Terms World Query Response Choice Nat where
  answers := World.answers
  Good := World.Good restraint
  Later := World.Later
  Issued world generation := ∃ checkpoint ∈ world.checkpoints, checkpoint.generation = generation
  Spent world generation :=
    ∃ running ∈ world.executions, running.checkpointGeneration = some generation
  later_refl _ := ⟨le_rfl, List.prefix_refl _⟩
  later_trans first second := ⟨first.1.trans second.1, first.2.trans second.2⟩
  issued_later later issued := by
    obtain ⟨checkpoint, member, same⟩ := issued
    exact ⟨checkpoint, (later.2.filterMap _).subset member, same⟩

section Worlds

variable {restraint : Restraint} {world found : World}

variable {checkpoint : Checkpoint} {running : JobRuntime}

theorem JobRuntime.Sound.later {clock later : Nat} {runtime : JobRuntime} {job : JobRecord}
    (sound : runtime.Sound clock job) (goes : clock ≤ later) : runtime.Sound later job :=
  { sound with
    due := fun schedule recurs => (sound.due schedule recurs).imp_left fun past => past.trans goes }

theorem World.new_good : World.new.Good restraint := by
  refine ⟨rfl, List.Pairwise.nil, fun _ member => ?_, throughout_nil, List.nodup_nil⟩
  cases member

theorem World.Good.tick (good : world.Good restraint) {tick : Nat} (later : world.clock ≤ tick) :
    (world.tickTo tick).Good restraint :=
  ⟨good.stored, good.chain, fun checkpoint member =>
    { good.kept checkpoint member with
      sound := (good.kept checkpoint member).sound.imp fun _ sound => sound.later later },
    good.executed, good.once⟩

@[simp]
theorem World.checkpoints_keep (checkpoint : Checkpoint) :
    (world.keep checkpoint).checkpoints = world.checkpoints ++ [checkpoint] :=
  List.filterMap_append

@[simp]
theorem World.executions_keep (checkpoint : Checkpoint) :
    (world.keep checkpoint).executions = world.executions :=
  List.filterMap_append.trans (List.append_nil _)

@[simp]
theorem World.checkpoints_execute (running : JobRuntime) :
    (world.execute running).checkpoints = world.checkpoints :=
  List.filterMap_append.trans (List.append_nil _)

@[simp]
theorem World.executions_execute (running : JobRuntime) :
    (world.execute running).executions = world.executions ++ [running] :=
  List.filterMap_append

theorem World.Later.checkpoints (later : World.Later world found) :
    world.checkpoints ⊆ found.checkpoints := (later.2.filterMap _).subset

theorem Checkpoint.Before.trans {first second third : Checkpoint} (before : first.Before second)
    (after : second.Before third) : first.Before third :=
  ⟨before.generation.trans after.generation, before.submission.trans after.submission,
    before.entries.trans after.entries, before.grown.trans after.grown⟩

theorem World.Good.newest (good : world.Good restraint) {last : StoredJobCheckpoint}
    (stored : world.stored = some last) :
    ∃ before newest, world.checkpoints = before ++ [newest] ∧
      last = ⟨newest.generation, newest.document⟩ ∧
      ∀ earlier ∈ before, Checkpoint.Before earlier newest := by
  rw [good.stored] at stored
  obtain ⟨newest, found, same⟩ := Option.map_eq_some_iff.mp stored
  obtain ⟨before, all⟩ := List.getLast?_eq_some_iff.mp found
  refine ⟨before, newest, all, same.symm, fun earlier member => ?_⟩
  have chain := good.chain
  rw [all] at chain
  exact (List.pairwise_append.mp chain).2.2 earlier member newest (List.mem_singleton_self _)

theorem World.Good.fresh (good : world.Good restraint) {generation : Nat}
    (grows : world.stored.all (fun last => last.generation < generation) = true)
    (member : checkpoint ∈ world.checkpoints) :
    checkpoint.generation < generation := by
  cases stored : world.stored with
  | none =>
    rw [good.stored] at stored
    rw [List.getLast?_eq_none_iff.mp (Option.map_eq_none_iff.mp stored)] at member
    cases member
  | some last =>
    obtain ⟨before, newest, all, rfl, order⟩ := good.newest stored
    rw [stored] at grows
    have newer : newest.generation < generation := of_decide_eq_true grows
    rw [all] at member
    rcases List.mem_append.mp member with earlier | same
    · exact (order checkpoint earlier).generation.trans newer
    · rw [List.mem_singleton.mp same]
      exact newer

theorem World.Good.issued (good : world.Good restraint) (member : running ∈ world.executions) :
    ∃ checkpoint ∈ world.checkpoints, Executes checkpoint running := by
  obtain ⟨happening, listed, same⟩ := List.mem_filterMap.mp member
  cases happening with
  | persisted _ => cases same
  | executed other =>
    obtain rfl := Option.some.inj same
    obtain ⟨earlier, later, split⟩ := List.append_of_mem listed
    obtain ⟨checkpoint, before, executes⟩ := good.executed _ _ _ split other rfl
    refine ⟨checkpoint, List.mem_filterMap.mpr ⟨.persisted checkpoint, ?_, rfl⟩, executes⟩
    rw [split]
    exact List.mem_append_left _ before

def Anchored (world : World) (runtime : JobRuntime) (added : List JobEvidenceEntry) : Prop :=
  ∃ checkpoint ∈ world.checkpoints,
    runtime.checkpointGeneration = some checkpoint.generation ∧
      checkpoint.written.submission = runtime.submission ∧
        runtime.evidence.entries = checkpoint.written.evidence.entries ++ added

theorem Anchored.later {runtime : JobRuntime} {added : List JobEvidenceEntry}
    (anchored : Anchored world runtime added) (later : World.Later world found) :
    Anchored found runtime added := by
  obtain ⟨checkpoint, member, facts⟩ := anchored
  exact ⟨checkpoint, later.checkpoints member, facts⟩

theorem World.Good.keep (good : world.Good restraint)
    (grows : world.stored.all (fun last => last.generation < checkpoint.generation) = true)
    (kept : checkpoint.Kept restraint world.clock)
    (current : world.stored.map StoredJobCheckpoint.generation =
      checkpoint.written.checkpointGeneration)
    (ahead : checkpoint.written.checkpointGeneration = none ∨
      ∃ added, added ≠ [] ∧ Anchored world checkpoint.written added) :
    (world.keep checkpoint).Good restraint := by
  refine ⟨?_, ?_, fun other member => ?_, throughout_append.mpr ⟨good.executed,
    fun running other => by cases other⟩, ?_⟩
  · rw [World.checkpoints_keep, List.getLast?_concat]
    rfl
  · rw [World.checkpoints_keep]
    refine List.pairwise_append.mpr ⟨good.chain, List.pairwise_singleton _ _,
      fun earlier member last same => ?_⟩
    obtain rfl := List.mem_singleton.mp same
    -- the runtime goes on from the checkpoint that is stored, and so from every other
    cases stored : world.stored with
    | none =>
      rw [good.stored] at stored
      rw [List.getLast?_eq_none_iff.mp (Option.map_eq_none_iff.mp stored)] at member
      cases member
    | some found =>
      obtain ⟨before, newest, all, rfl, order⟩ := good.newest stored
      rw [stored] at current
      obtain ⟨added, some_added, anchor, kept', generation, submission, entries⟩ :=
        ahead.resolve_left fun missing => by
          rw [missing] at current
          cases current
      have same : anchor.generation = newest.generation :=
        Option.some.inj (generation.symm.trans current.symm)
      obtain rfl : anchor = newest := by
        rw [all] at kept'
        rcases List.mem_append.mp kept' with earlier | last
        · exact absurd same (order anchor earlier).generation.ne
        · exact List.mem_singleton.mp last
      have next : anchor.Before last := by
        refine ⟨?_, submission, ⟨added, entries.symm⟩, ?_⟩
        · rw [stored] at grows
          exact of_decide_eq_true grows
        · rw [entries, List.length_append]
          exact Nat.lt_add_of_pos_right (List.length_pos_iff.mpr some_added)
      rw [all] at member
      rcases List.mem_append.mp member with earlier' | same
      · exact (order earlier earlier').trans next
      · rw [List.mem_singleton.mp same]
        exact next
  · rw [World.checkpoints_keep] at member
    rcases List.mem_append.mp member with before | last
    · exact good.kept other before
    · rw [List.mem_singleton.mp last]
      exact kept
  · rw [World.executions_keep]
    exact good.once

theorem World.mem_checkpoints :
    checkpoint ∈ world.checkpoints ↔ .persisted checkpoint ∈ world.happenings := by
  refine List.mem_filterMap.trans ⟨?_, fun member => ⟨_, member, rfl⟩⟩
  rintro ⟨happening, member, same⟩
  cases happening with
  | persisted other =>
    obtain rfl := Option.some.inj same
    exact member
  | executed running => cases same

theorem World.Good.execute (good : world.Good restraint) (member : checkpoint ∈ world.checkpoints)
    (executes : Executes checkpoint running)
    (unspent : ¬(jobTerms restraint).Spent world checkpoint.generation) :
    (world.execute running).Good restraint := by
  refine ⟨?_, ?_, fun other kept => ?_, throughout_append.mpr ⟨good.executed,
    fun other same => ?_⟩, ?_⟩
  · rw [World.checkpoints_execute]
    exact good.stored
  · rw [World.checkpoints_execute]
    exact good.chain
  · rw [World.checkpoints_execute] at kept
    exact good.kept other kept
  · obtain rfl := Happening.executed.inj same
    exact ⟨checkpoint, World.mem_checkpoints.mp member, executes⟩
  · rw [World.executions_execute, List.map_append]
    refine List.nodup_append.mpr ⟨good.once, List.nodup_singleton _, fun first spent last same => ?_⟩
    rintro rfl
    obtain ⟨other, executed, generation⟩ := List.mem_map.mp spent
    rw [List.mem_singleton.mp same, executes.generation] at generation
    exact unspent ⟨other, executed, generation⟩

theorem World.later_keep (checkpoint : Checkpoint) : World.Later world (world.keep checkpoint) :=
  ⟨le_rfl, List.prefix_append _ _⟩

theorem World.later_execute (running : JobRuntime) : World.Later world (world.execute running) :=
  ⟨le_rfl, List.prefix_append _ _⟩

end Worlds

/-- A runtime between two operations. -/
def Resting (restraint : Restraint) (world : World) (runtime : JobRuntime) : Prop :=
  ∃ job added, runtime.Sound world.clock job ∧
    Throughout restraint.allows runtime.evidence.entries ∧ Anchored world runtime added

/-- What operations end in. -/
def Rests (restraint : Restraint) (value : Option JobRuntime) (_ : Option Nat) (world : World) :
    Prop := ∀ runtime, value = some runtime → Resting restraint world runtime

section Operations

variable {restraint : Restraint} {world : World} {runtime : JobRuntime} {job : JobRecord}
  {held : Option Nat} {added : List JobEvidenceEntry}

/-- A runtime that has published its checkpoint, under a generation that is its own. -/
structure Published (restraint : Restraint) (world : World) (runtime : JobRuntime)
    (checkpoint : Checkpoint) : Prop where
  kept : checkpoint ∈ world.checkpoints
  generation : runtime.checkpointGeneration = some checkpoint.generation
  submission : runtime.submission = checkpoint.written.submission
  evidence : runtime.evidence = checkpoint.written.evidence
  unspent : ¬(jobTerms restraint).Spent world checkpoint.generation

variable {checkpoint : Checkpoint} {after : JobRuntime} {more : List JobEvidenceEntry} {A : Type}
variable {nowTick : UInt64}

theorem persist_keeps (sound : runtime.Sound world.clock job)
    (restrained : Throughout restraint.allows runtime.evidence.entries)
    (ahead : runtime.checkpointGeneration = none ∨
      ∃ added, added ≠ [] ∧ Anchored world runtime added) :
    JobRuntime.persist.Keeps (jobTerms restraint)
      (fun _ after held later => World.Later world later ∧ after.Sound later.clock job ∧
        ∃ checkpoint, Published restraint later after checkpoint ∧
          checkpoint.written = runtime ∧ held = some checkpoint.generation)
      (fun _ after _ later => World.Later world later ∧ after.Sound later.clock job ∧
        after.evidence = runtime.evidence ∧ after.submission = runtime.submission ∧
          after.checkpointGeneration = runtime.checkpointGeneration) runtime held world := by
  unfold Act.Keeps JobRuntime.persist
  cases encoded : (RuntimeCheckpoint.fromRuntime runtime).encode with
  | error error => exact ⟨(jobTerms restraint).later_refl world, { sound with }, rfl, rfl, rfl⟩
  | ok document =>
    intro found leaves good choice after answer answered
    have later : World.Later world found := leaves.1
    have refused : (jobTerms restraint).Takes held found found none :=
      ⟨good, (jobTerms restraint).later_refl found, fun _ => .inl, fun _ none_held => by
        cases none_held⟩
    cases choice with
    | loads fails | reports outcome => cases answered
    | refuses =>
      obtain ⟨rfl, rfl⟩ := Prod.mk.inj (Option.some.inj answered)
      exact ⟨none, refused, later, { sound.later later.1 with }, rfl, rfl, rfl⟩
    | swaps generation reported =>
      have swapped : (if found.stored.map StoredJobCheckpoint.generation =
          runtime.checkpointGeneration ∧
            found.stored.all (fun last => last.generation < generation) = true then
          some (found.keep ⟨generation, document, runtime⟩,
            if reported then some generation else none)
        else none) = some (after, answer) := answered
      by_cases current : found.stored.map StoredJobCheckpoint.generation =
          runtime.checkpointGeneration ∧
            found.stored.all (fun last => last.generation < generation) = true
      swap
      · rw [if_neg current] at swapped
        cases swapped
      rw [if_pos current] at swapped
      obtain ⟨rfl, rfl⟩ := Prod.mk.inj (Option.some.inj swapped)
      have new : ¬(jobTerms restraint).Issued found generation := by
        rintro ⟨checkpoint, member, same⟩
        exact (good.fresh current.2 member).ne same
      have unspent : ¬(jobTerms restraint).Spent found generation := by
        rintro ⟨running, executed, same⟩
        obtain ⟨checkpoint, member, executes⟩ := good.issued executed
        exact new ⟨checkpoint, member, Option.some.inj (executes.generation.symm.trans same)⟩
      have kept : (found.keep ⟨generation, document, runtime⟩).Good restraint :=
        good.keep current.2 ⟨⟨job, sound.later later.1⟩, encoded, restrained⟩ current.1
          (ahead.imp_right fun ⟨added, some_added, anchored⟩ =>
            ⟨added, some_added, anchored.later later⟩)
      have goes : World.Later world (found.keep ⟨generation, document, runtime⟩) :=
        (jobTerms restraint).later_trans later (World.later_keep _)
      have spends (token : Nat) : (jobTerms restraint).Spent
          (found.keep ⟨generation, document, runtime⟩) token →
            (jobTerms restraint).Spent found token := by
        rintro ⟨running, executed, same⟩
        rw [World.executions_keep] at executed
        exact ⟨running, executed, same⟩
      have member : ⟨generation, document, runtime⟩ ∈
          (found.keep ⟨generation, document, runtime⟩).checkpoints := by
        rw [World.checkpoints_keep]
        exact List.mem_concat_self
      cases reported with
      | false =>
        refine ⟨none, ⟨kept, World.later_keep _, fun token spent => .inl (spends token spent),
          fun _ none_held => by cases none_held⟩, goes, ?_⟩
        exact ⟨{ sound.later goes.1 with }, rfl, rfl, rfl⟩
      | true =>
        refine ⟨some generation, ⟨kept, World.later_keep _,
          fun token spent => .inl (spends token spent), fun token same => .inr ?_⟩, goes, ?_⟩
        · obtain rfl := Option.some.inj same
          exact ⟨new, _, member, rfl⟩
        · exact ⟨{ sound.later goes.1 with }, ⟨generation, document, runtime⟩, ⟨member, rfl,
            rfl, rfl, fun spent => unspent (spends _ spent)⟩, rfl, rfl⟩

theorem execute_keeps (sound : runtime.Sound world.clock job)
    (published : Published restraint world runtime checkpoint)
    (begun : runtime.evidence.entries.getLast? = some .begunExecution) :
    JobRuntime.execute.Keeps (jobTerms restraint)
      (fun _ after _ later => World.Later world later ∧ after = runtime) (fun _ _ _ _ => False)
      runtime (some checkpoint.generation) world := by
  unfold JobRuntime.execute
  simp only [Act.keeps_bind, Act.keeps_of, wp_get]
  rw [sound.admitted]
  intro found leaves good choice after answer answered
  have later : World.Later world found := leaves.1
  cases choice with
  | loads fails | swaps generation reported | refuses => cases answered
  | reports outcome =>
    obtain ⟨rfl, rfl⟩ := Prod.mk.inj (Option.some.inj answered)
    have executes : Executes checkpoint runtime :=
      ⟨published.generation, published.submission, by rw [published.evidence], begun⟩
    have unspent : ¬(jobTerms restraint).Spent found checkpoint.generation :=
      fun spent => published.unspent (leaves.2 _ rfl spent)
    have executed := good.execute (later.checkpoints published.kept) executes unspent
    refine ⟨none, ⟨executed, World.later_execute _, fun token spent => ?_, fun _ none_held => by
      cases none_held⟩, (jobTerms restraint).later_trans later (World.later_execute _), rfl⟩
    obtain ⟨running, member, same⟩ := spent
    rw [World.executions_execute] at member
    rcases List.mem_append.mp member with before | last
    · exact .inl ⟨running, before, same⟩
    · rw [List.mem_singleton.mp last, published.generation] at same
      exact .inr same

theorem throughout_found {past : List JobEvidenceEntry}
    (all : Throughout restraint.allows past) (more : ∀ entry ∈ added, ¬entry.Requested) :
    Throughout restraint.allows (past ++ added) := by
  induction added using List.reverseRecOn with
  | nil =>
    rw [List.append_nil]
    exact all
  | append_singleton before entry ih =>
    rw [← List.append_assoc]
    refine throughout_append.mpr ⟨ih fun other member => more other (by simp [member]), ?_⟩
    exact restraint.found _ _ (more entry (by simp))

theorem Anchored.grown {clock : Nat}
    (anchored : Anchored world runtime added) (grown : Grown clock runtime more after job) :
    Anchored world after (added ++ more) := by
  obtain ⟨checkpoint, member, generation, submission, entries⟩ := anchored
  refine ⟨checkpoint, member, grown.generation.trans generation,
    submission.trans grown.submission.symm, ?_⟩
  rw [grown.entries, entries, List.append_assoc]

theorem Resting.grown {made : JobRecord}
    (anchored : Anchored world runtime added) (grown : Grown world.clock runtime more after made)
    (restrained : Throughout restraint.allows (runtime.evidence.entries ++ more)) :
    Resting restraint world after :=
  ⟨made, added ++ more, grown.sound, by rwa [grown.entries], anchored.grown grown⟩

theorem Published.resting (published : Published restraint world after checkpoint)
    (sound : after.Sound world.clock job)
    (restrained : Throughout restraint.allows checkpoint.written.evidence.entries) :
    Resting restraint world after := by
  refine ⟨job, [], sound, by rwa [published.evidence], checkpoint, published.kept,
    published.generation, published.submission.symm, ?_⟩
  rw [published.evidence, List.append_nil]

theorem persist_rests (sound : runtime.Sound world.clock job)
    (restrained : Throughout restraint.allows runtime.evidence.entries)
    (some_added : added ≠ []) (anchored : Anchored world runtime added) :
    JobRuntime.persist.Keeps (jobTerms restraint)
      (fun _ after held later => World.Later world later ∧ after.Sound later.clock job ∧
        ∃ checkpoint, Published restraint later after checkpoint ∧
          checkpoint.written = runtime ∧ held = some checkpoint.generation)
      (fun halt after _ later => halt = .panicked ∨ Resting restraint later after)
      runtime held world := by
  refine (persist_keeps sound restrained (.inr ⟨added, some_added, anchored⟩)).mono
    (fun _ _ _ _ => id) fun halt after _ later stopped => .inr ?_
  obtain ⟨goes, sound', evidence, submission, generation⟩ := stopped
  obtain ⟨checkpoint, member, given, same, entries⟩ := anchored.later goes
  exact ⟨job, added, sound', by rwa [evidence], checkpoint, member, generation.trans given,
    same.trans submission.symm, by rwa [evidence]⟩

theorem operate_keeps {task : Task A} (keeps : task.Keeps (jobTerms restraint)
    (fun _ after _ later => Resting restraint later after)
    (fun halt after _ later => halt = .panicked ∨ Resting restraint later after)
    runtime held world) :
    (operate task runtime).Keeps (jobTerms restraint) (Rests restraint) held world := by
  refine Flow.keeps_bind.mpr (Flow.Keeps.mono keeps fun outcome held later kept => ?_)
  obtain ⟨outcome, after⟩ := outcome
  intro found same
  cases outcome with
  | ok value =>
    obtain rfl := Option.some.inj same
    exact kept
  | error halt =>
    cases halt with
    | panicked => cases same
    | failed error =>
      obtain rfl := Option.some.inj same
      exact kept.resolve_left fun panicked => by cases panicked

/-- What is recorded in one step and published. -/
theorem note_keeps {note : Prog JobRuntime Halt JobState} {entry : JobEvidenceEntry}
    (restrained : Throughout restraint.allows runtime.evidence.entries)
    (anchored : Anchored world runtime added)
    (notes : note.wp (fun _ after => ∃ made, Grown world.clock runtime [entry] after made)
      (fun halt after => Stops world.clock runtime job halt after) runtime)
    (allowed : restraint.allows runtime.evidence.entries entry) :
    Act.Keeps (jobTerms restraint) (do
        let state ← Act.of note
        JobRuntime.persist
        pure state)
      (fun _ after _ later => Resting restraint later after)
      (fun halt after _ later => halt = .panicked ∨ Resting restraint later after)
      runtime held world := by
  simp only [Act.keeps_bind, Act.keeps_of]
  have more : Throughout restraint.allows (runtime.evidence.entries ++ [entry]) :=
    throughout_append.mpr ⟨restrained, allowed⟩
  refine wp_mono notes (fun state after grown => ?_) fun halt after stopped =>
    stopped.imp_right fun grown => ?_
  · obtain ⟨made, grown⟩ := grown
    rw [← grown.entries] at more
    refine (persist_rests grown.sound more (by simp) (anchored.grown grown)).mono
      (fun _ later _ now kept => ?_) fun _ _ _ _ => id
    obtain ⟨goes, sound', checkpoint, published, written, -⟩ := kept
    exact published.resting sound' (written ▸ more)
  · exact Resting.grown anchored grown (by rwa [List.append_nil])

theorem reconcile_keeps (resting : Resting restraint world runtime) {decision : UInt64}
    (permitted : restraint.permits runtime (.reconcile decision) = true) :
    (operate (JobRuntime.reconcile decision) runtime).Keeps (jobTerms restraint) (Rests restraint)
      held world := by
  obtain ⟨job, added, sound, restrained, anchored⟩ := resting
  exact operate_keeps (note_keeps restrained anchored (noteReconciled_grown sound decision)
    (restraint.reconciles runtime decision _ permitted sound.attemptOf))

theorem cancel_keeps (resting : Resting restraint world runtime) :
    (operate JobRuntime.cancel runtime).Keeps (jobTerms restraint) (Rests restraint) held world := by
  obtain ⟨job, added, sound, restrained, anchored⟩ := resting
  exact operate_keeps (note_keeps restrained anchored (noteCancelled_grown sound)
    (restraint.found _ _ id))

theorem checkDrive_same (nowTick leaseTicks : UInt64) :
    (JobRuntime.checkDrive nowTick leaseTicks).wp
      (fun _ after => after = runtime ∧ leaseTicks ≠ 0 ∧
        nowTick.toNat + runtime.submission.maxBackoffTicks.toNat ≤ maxU64)
      (fun _ after => after = runtime) runtime := by
  have orFail {X : Type} (translate : X → Halt) (outcome : Except X Unit) (holds : Prop)
      (given : holds) : (JobRuntime.orFail translate outcome).wp (fun _ after => after = runtime ∧ holds)
        (fun _ after => after = runtime) runtime := by
    cases outcome with
    | ok value => exact ⟨rfl, given⟩
    | error reason => exact rfl
  unfold JobRuntime.checkDrive
  simp only [wp_bind, wp_get, wp_stopIf]
  refine ⟨fun _ => trivial, fun _ => ⟨fun _ => trivial, fun checks => ?_⟩⟩
  simp only [not_or, not_lt] at checks
  refine wp_mono (orFail _ _ True trivial) (fun _ after same => ?_) fun _ _ same => same
  rw [same.1]
  split
  · exact ⟨rfl, checks.1, checks.2.2⟩
  · exact orFail _ _ _ ⟨checks.1, checks.2.2⟩

/-- What the handler reported is recorded and published. -/
theorem completes_keeps (sound : runtime.Sound world.clock job)
    (restrained : Throughout restraint.allows runtime.evidence.entries)
    (anchored : Anchored world runtime added) (leaseGeneration : Nat) (workerId : UInt32)
    (outcome : OutcomeKind)
    (backoffs : nowTick.toNat + runtime.submission.maxBackoffTicks.toNat ≤ maxU64) :
    Act.Keeps (jobTerms restraint) (do
        let state ← Act.of (JobRuntime.complete leaseGeneration workerId nowTick outcome)
        JobRuntime.persist
        pure (DriveOutcome.completed state))
      (fun _ after _ later => Resting restraint later after)
      (fun halt after _ later => halt = .panicked ∨ Resting restraint later after)
      runtime held world := by
  simp only [Act.keeps_bind, Act.keeps_of]
  refine wp_mono (complete_grown sound leaseGeneration workerId nowTick outcome backoffs)
    (fun state after completed => ?_) fun halt after stopped => stopped.imp_right fun completed => ?_
  · obtain ⟨made, more, grown, some_more, found⟩ := completed
    have all := throughout_found restrained found
    rw [← grown.entries] at all
    refine (persist_rests grown.sound all (List.append_ne_nil_of_right_ne_nil _ some_more)
      (anchored.grown grown)).mono (fun _ after _ later kept => ?_) fun _ _ _ _ => id
    obtain ⟨-, sound', checkpoint, published, written, -⟩ := kept
    exact published.resting sound' (written ▸ all)
  · obtain ⟨made, more, grown, found⟩ := completed
    exact .grown anchored grown (throughout_found restrained found)

/-- The beginning of an attempt is recorded and published, and the job is executed. -/
theorem begins_keeps (sound : runtime.Sound world.clock job)
    (restrained : Throughout restraint.allows runtime.evidence.entries)
    (anchored : Anchored world runtime added) (leaseGeneration : Nat) (workerId : UInt32)
    (backoffs : nowTick.toNat + runtime.submission.maxBackoffTicks.toNat ≤ maxU64) :
    Act.Keeps (jobTerms restraint) (do
        Act.of (JobRuntime.beginExecution leaseGeneration workerId nowTick)
        JobRuntime.persist
        let outcome ← JobRuntime.execute
        let state ← Act.of (JobRuntime.complete leaseGeneration workerId nowTick outcome)
        JobRuntime.persist
        pure (DriveOutcome.completed state))
      (fun _ after _ later => Resting restraint later after)
      (fun halt after _ later => halt = .panicked ∨ Resting restraint later after)
      runtime held world := by
  rw [Act.keeps_bind, Act.keeps_of]
  refine wp_mono (beginExecution_grown sound leaseGeneration workerId nowTick)
    (fun _ begun grown => ?_) fun halt after stopped => stopped.imp_right fun grown =>
      .grown anchored grown (by rwa [List.append_nil])
  obtain ⟨made, grown⟩ := grown
  have all : Throughout restraint.allows
      (runtime.evidence.entries ++ [JobEvidenceEntry.begunExecution]) :=
    throughout_found restrained (by simp [JobEvidenceEntry.Requested])
  rw [← grown.entries] at all
  rw [Act.keeps_bind]
  refine (persist_rests grown.sound all (by simp) (anchored.grown grown)).mono
    (fun _ running held later kept => ?_) fun _ _ _ _ => id
  obtain ⟨-, sound', checkpoint, published, written, rfl⟩ := kept
  have last : running.evidence.entries.getLast? = some .begunExecution := by
    rw [published.evidence, written, grown.entries, List.getLast?_concat]
  rw [Act.keeps_bind]
  refine (execute_keeps sound' published last).mono (fun outcome after _ now kept => ?_)
    fun _ _ _ _ => False.elim
  obtain ⟨goes, rfl⟩ := kept
  have same : Anchored now after [] := by
    refine Anchored.later ⟨checkpoint, published.kept, published.generation,
      published.submission.symm, ?_⟩ goes
    rw [published.evidence, List.append_nil]
  refine completes_keeps (sound'.later goes.1) ?_ same leaseGeneration workerId outcome ?_
  · rw [published.evidence, written]
    exact all
  · rw [published.submission, written, grown.submission]
    exact backoffs

theorem driveOnce_keeps (resting : Resting restraint world runtime) {workerId : UInt32}
    {leaseTicks : UInt64} (later : world.clock ≤ nowTick.toNat)
    (permitted : restraint.permits runtime (.drive workerId nowTick leaseTicks) = true) :
    (operate (JobRuntime.driveOnce workerId nowTick leaseTicks) runtime).Keeps (jobTerms restraint)
      (Rests restraint) held (world.tickTo nowTick.toNat) := by
  obtain ⟨job, added, before, restrained, anchored⟩ := resting
  have sound : runtime.Sound nowTick.toNat job := before.later later
  have here : Anchored (world.tickTo nowTick.toNat) runtime added := anchored
  have rests {after : JobRuntime} (grown : Grown nowTick.toNat runtime [] after job) :
      Resting restraint (world.tickTo nowTick.toNat) after :=
    .grown here grown (by rwa [List.append_nil])
  refine operate_keeps ?_
  unfold JobRuntime.driveOnce
  simp only [Act.keeps_bind, Act.keeps_of]
  refine wp_mono ((wp_self _ _).both (checkDrive_same nowTick leaseTicks))
    (fun _ after checked => ?_) fun halt after stopped => ?_
  swap
  · rw [stopped.2]
    exact .inr (rests (.refl sound))
  obtain ⟨checks, rfl, lease, backoffs⟩ := checked
  refine wp_mono ((wp_self _ _).both (claim_claimed sound workerId nowTick leaseTicks))
    (fun claimed claiming both => ?_) fun halt stopped both => both.2.imp_right rests
  obtain ⟨claims, idle, leased⟩ := both
  cases claimed with
  | none => exact rests (idle rfl)
  | some generation =>
    have allowed := restraint.claims _ _ _ _ _ _ permitted checks claims
    simp only [Act.keeps_bind, Act.keeps_of]
    refine wp_mono (noteClaim_grown sound (leased generation rfl) lease le_rfl)
      (fun _ noted grown => ?_) fun _ _ => False.elim
    obtain ⟨made, grown⟩ := grown
    have all : Throughout restraint.allows
        (after.evidence.entries ++ [JobEvidenceEntry.claimed true]) :=
      throughout_append.mpr ⟨restrained, allowed⟩
    rw [← grown.entries] at all
    refine (persist_rests grown.sound all (by simp) (here.grown grown)).mono
      (fun _ published _ now kept => ?_) fun _ _ _ _ => id
    obtain ⟨goes, sound', checkpoint, facts, written, -⟩ := kept
    have same : Anchored now published [] := by
      refine ⟨checkpoint, facts.kept, facts.generation, facts.submission.symm, ?_⟩
      rw [facts.evidence, List.append_nil]
    refine begins_keeps sound' ?_ same generation workerId ?_
    · rw [facts.evidence, written]
      exact all
    · rw [facts.submission, written, grown.submission]
      exact backoffs

theorem settle_keeps (sound : runtime.Sound world.clock job)
    (restrained : Throughout restraint.allows runtime.evidence.entries)
    (anchored : Anchored world runtime added)
    (short : runtime.evidence.entries.length ≤ maxEvidenceEntries) :
    JobRuntime.settle.Keeps (jobTerms restraint) (fun _ after _ later => Resting restraint later after)
      (fun halt after _ later => halt = .panicked ∨ Resting restraint later after)
      runtime held world := by
  have publishes {note : Prog JobRuntime Halt Unit} {entry : JobEvidenceEntry} {made : JobRecord}
      (notes : note.wp (fun _ after => Grown world.clock runtime [entry] after made)
        (fun _ _ => False) runtime) (found : ¬entry.Requested) :
      Act.Keeps (jobTerms restraint) (do
          Act.of note
          JobRuntime.persist) (fun _ after _ later => Resting restraint later after)
        (fun halt after _ later => halt = .panicked ∨ Resting restraint later after)
        runtime held world := by
    rw [Act.keeps_bind, Act.keeps_of]
    refine wp_mono notes (fun _ after grown => ?_) fun _ _ => False.elim
    have all : Throughout restraint.allows (runtime.evidence.entries ++ [entry]) :=
      throughout_append.mpr ⟨restrained, restraint.found _ _ found⟩
    rw [← grown.entries] at all
    refine (persist_rests grown.sound all (by simp) (anchored.grown grown)).mono
      (fun _ later _ now kept => ?_) fun _ _ _ _ => id
    obtain ⟨-, sound', checkpoint, published, written, -⟩ := kept
    exact published.resting sound' (written ▸ all)
  unfold JobRuntime.settle
  rw [Act.keeps_bind, Act.keeps_of, wp_get, sound.stateOf]
  have rests : Resting restraint world runtime := ⟨job, added, sound, restrained, anchored⟩
  cases state : job.state with
  | leased => exact publishes (noteExpired_grown sound state short) id
  | running => exact publishes (noteUncertain_grown sound state) id
  | pending | scheduled | succeeded | retryableFailure | permanentFailure | cancelled
  | uncertain | deadLettered =>
    exact rests

theorem finished_keeps {act : Task A} (keeps : act.Keeps (jobTerms restraint)
    (fun _ after _ later => Resting restraint later after) (fun _ _ _ _ => True)
    runtime held world) :
    (begins ((act runtime).bind fun outcome => .done (JobRuntime.finished outcome))).Keeps
      (jobTerms restraint) (Rests restraint) held world := by
  refine Flow.keeps_bind.mpr (Flow.keeps_bind.mpr (Flow.Keeps.mono keeps
    fun outcome held later kept => ?_))
  obtain ⟨outcome, after⟩ := outcome
  intro found same
  cases outcome with
  | ok value =>
    obtain rfl := Option.some.inj same
    exact kept
  | error halt => cases same

theorem enqueue_keeps {schema : InteractionSchema} {currentRevision : UInt8}
    {submission : JobSubmission}
    (typed : ∀ schedule, submission.schedule = some schedule → schedule.Typed) :
    (begins (JobRuntime.enqueue schema currentRevision submission)).Keeps (jobTerms restraint)
      (Rests restraint) held world := by
  unfold JobRuntime.enqueue
  cases created : JobRuntime.create schema currentRevision submission with
  | error halt =>
    intro runtime same
    cases same
  | ok runtime =>
    obtain ⟨job, sound, entries, none_kept⟩ := create_sound world.clock typed created
    have all : Throughout restraint.allows runtime.evidence.entries := by
      rw [entries]
      exact throughout_found throughout_nil (by simp [JobEvidenceEntry.Requested])
    refine finished_keeps ((persist_keeps sound all (.inl none_kept)).mono
      (fun _ after _ later kept => ?_) fun _ _ _ _ _ => trivial)
    obtain ⟨-, sound', checkpoint, published, written, -⟩ := kept
    exact published.resting sound' (written ▸ all)

theorem recover_keeps (schema : InteractionSchema) (currentRevision : UInt8) :
    (begins (JobRuntime.recover schema currentRevision)).Keeps (jobTerms restraint)
      (Rests restraint) held world := by
  have fails {halt : Halt} {held : Option Nat} {world : World} :
      (begins (.done (.error halt))).Keeps (jobTerms restraint) (Rests restraint) held world := by
    intro runtime same
    cases same
  unfold JobRuntime.recover
  split_ifs
  · exact fails
  intro found leaves good choice after answer answered
  have takes : (jobTerms restraint).Takes held found found none :=
    ⟨good, (jobTerms restraint).later_refl found, fun _ => .inl, fun _ none_held => by
      cases none_held⟩
  cases choice with
  | swaps generation reported | refuses | reports outcome => cases answered
  | loads failing =>
    obtain ⟨rfl, rfl⟩ := Prod.mk.inj (Option.some.inj answered)
    refine ⟨none, takes, ?_⟩
    cases failing with
    | true => exact fails
    | false =>
      cases stored : found.stored with
      | none => exact fails
      | some last =>
        simp only [Bool.false_eq_true, if_false]
        cases restored : JobRuntime.restore schema currentRevision last with
        | error halt => exact fails
        | ok runtime =>
          obtain ⟨before, newest, all, rfl, -⟩ := good.newest stored
          have member : newest ∈ found.checkpoints := by
            rw [all]
            exact List.mem_concat_self
          have kept := good.kept newest member
          obtain ⟨job, sound⟩ := kept.sound
          obtain ⟨digest, known, admitted⟩ := restore_admitted sound kept.encoded restored
          obtain ⟨again, ran, -, facts, sound'⟩ := restore_made sound kept.encoded digest
            known admitted newest.generation
          obtain rfl := Except.ok.inj (ran.symm.trans restored)
          have fits := (RuntimeCheckpoint.encode_eq_ok.mp kept.encoded).1
          have anchored : Anchored found again [] := by
            refine ⟨newest, member, facts.generation, facts.submission.symm, ?_⟩
            rw [facts.evidence, List.append_nil]
          refine finished_keeps ((settle_keeps sound' ?_ anchored ?_).mono
            (fun _ _ _ _ => id) fun _ _ _ _ _ => trivial)
          · rw [facts.evidence]
            exact kept.restrained
          · rw [facts.evidence]
            exact fits.entries

end Operations

section Runs

variable {restraint : Restraint}

theorem Rests.later {value : Option JobRuntime} {held : Option Nat} {world found : World}
    (rests : Rests restraint value held world) (later : World.Later world found) :
    Rests restraint value held found := by
  intro runtime same
  obtain ⟨job, added, sound, restrained, anchored⟩ := rests runtime same
  exact ⟨job, added, sound.later later.1, restrained, anchored.later later⟩

/-- **The world is good in every state that runtimes reach of which only what is permitted is
requested.** -/
theorem reached_good {shared : Shared World Query Response (Option JobRuntime)}
    (reached : (runners restraint.permits).Reached .new shared) : shared.world.Good restraint := by
  have takes {world : World} (good : world.Good restraint) {tick : Nat}
      (later : world.clock ≤ tick) :
      (jobTerms restraint).Takes none world (world.tickTo tick) none :=
    ⟨good.tick later, ⟨later, List.prefix_refl _⟩, fun _ => .inl, fun _ none_held => by
      cases none_held⟩
  have lasts (value : Option JobRuntime) (held : Option Nat) (world found : World)
      (rests : Rests restraint value held world) (later : (jobTerms restraint).Later world found)
      (_ : (jobTerms restraint).Good found) : Rests restraint value held found := rests.later later
  have opening (world : World) (opening : Opening) (after : World)
      (flow : Flow Query Response (Option JobRuntime)) (good : world.Good restraint)
      (opened : (runners restraint.permits).opens world opening = some (after, flow)) :
      (jobTerms restraint).Takes none world after none ∧
        flow.Keeps (jobTerms restraint) (Rests restraint) none after := by
    cases opening with
    | enqueue schema currentRevision submission typed =>
      obtain ⟨rfl, rfl⟩ := Prod.mk.inj (Option.some.inj opened)
      exact ⟨takes good le_rfl, enqueue_keeps typed⟩
    | recover schema currentRevision =>
      obtain ⟨rfl, rfl⟩ := Prod.mk.inj (Option.some.inj opened)
      exact ⟨takes good le_rfl, recover_keeps schema currentRevision⟩
  have resuming (world : World) (value : Option JobRuntime) (held : Option Nat) (request : Request)
      (after : World) (flow : Flow Query Response (Option JobRuntime)) (good : world.Good restraint)
      (rests : Rests restraint value held world)
      (resumed : (runners restraint.permits).resumes world value request = some (after, flow)) :
      (jobTerms restraint).Takes none world after none ∧
        flow.Keeps (jobTerms restraint) (Rests restraint) none after := by
    cases value with
    | none => cases resumed
    | some runtime =>
      have resting := rests runtime rfl
      have permitted : restraint.permits runtime request = true := by
        by_contra refused
        simp [runners, refused] at resumed
      cases request with
      | drive workerId nowTick leaseTicks =>
        simp only [runners, permitted, if_true] at resumed
        split_ifs at resumed with ahead
        obtain ⟨rfl, rfl⟩ := Prod.mk.inj (Option.some.inj resumed)
        exact ⟨takes good ahead, driveOnce_keeps resting ahead permitted⟩
      | reconcile decision =>
        simp only [runners, permitted, if_true] at resumed
        obtain ⟨rfl, rfl⟩ := Prod.mk.inj (Option.some.inj resumed)
        exact ⟨takes good le_rfl, reconcile_keeps resting permitted⟩
      | cancel =>
        simp only [runners, permitted, if_true] at resumed
        obtain ⟨rfl, rfl⟩ := Prod.mk.inj (Option.some.inj resumed)
        exact ⟨takes good le_rfl, cancel_keeps resting⟩
  obtain ⟨tokens, holds⟩ := Sharing.reached_keeps (jobTerms restraint) rfl World.new_good lasts
    opening resuming reached
  exact holds.good

end Runs

end Semaprax.DurableJobs
