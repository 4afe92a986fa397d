/-
**Handlers are not run twice blindly** (`job_runtime.rs`, `job_fixture.rs`).

Every execution has a document of its own that says that it has begun. Between the beginnings of two
executions the first was found to have failed, or to be over, or was given up by a decision. An
occurrence is executed no more often than is allowed, unless a retry is decided on when the lost
attempt was the last.

* `Separated` — what happens between the beginnings of two attempts; `Story.separated`.
* `attemptsBegun` — the attempts of the present occurrence; `Story.counted` bounds them.
* `NotBlind`, `runs_notBlind` — what holds of the executions in every state that is reached.
-/

import Semaprax.DurableJobs.Recovering

namespace Semaprax.DurableJobs

open Library

/-- The outcome of an attempt is not known. -/
def JobEvidenceEntry.Uncertainty : JobEvidenceEntry → Prop
  | .connectionUncertain => True
  | .durableCompleted outcomeKind _ _ _ => outcomeKind = 3
  | _ => False

/-- An attempt was retried after a failure, or its occurrence was over, or its outcome was not known
and a decision retried it for an idempotent handler. -/
def Separated (between : List JobEvidenceEntry) : Prop :=
  (∃ attempt maxAttempts confirmed, .durableCompleted 1 attempt maxAttempts confirmed ∈ between) ∨
    (∃ next runs, .recurringAdvanced next runs ∈ between) ∨
      ∃ first uncertainty middle attempt maxAttempts last, between = first ++ uncertainty :: middle ++
        .reconciledUncertain 2 true attempt maxAttempts :: last ∧ uncertainty.Uncertainty

theorem Separated.append {between : List JobEvidenceEntry} (separated : Separated between)
    (more : List JobEvidenceEntry) : Separated (between ++ more) := by
  rcases separated with ⟨attempt, maxAttempts, confirmed, member⟩ | ⟨next, runs, member⟩ |
    ⟨first, uncertainty, middle, attempt, maxAttempts, last, rfl, uncertain⟩
  · exact .inl ⟨attempt, maxAttempts, confirmed, List.mem_append_left _ member⟩
  · exact .inr (.inl ⟨next, runs, List.mem_append_left _ member⟩)
  · refine .inr (.inr ⟨first, uncertainty, middle, attempt, maxAttempts, last ++ more, ?_, uncertain⟩)
    simp

section Stories

variable {submission : JobSubmission} {revision : UInt8}
  {past : List (JobEvidenceEntry × ReplayFact)} {job : JobRecord}

/-- A job that has begun an attempt is not begun again before the attempt is over. -/
def Pausing (job : JobRecord) (since : List JobEvidenceEntry) : Prop :=
  ¬job.state.Claimable ∧ job.state ≠ .leased ∧
    (job.state = .uncertain → ∃ entry ∈ since, entry.Uncertainty)

variable {outcome : OutcomeKind} {decision : Nat}

theorem settled_pausing {attempt maxAttempts : UInt8} {confirmed : Bool}
    (since : List JobEvidenceEntry) {after : JobRecord} (state : after.state = job.settled outcome) :
    Separated (since ++ [JobEvidenceEntry.durableCompleted (UInt64.ofNat outcome.code) attempt
      maxAttempts confirmed]) ∨ Pausing after (since ++ [JobEvidenceEntry.durableCompleted
        (UInt64.ofNat outcome.code) attempt maxAttempts confirmed]) := by
  unfold JobRecord.settled JobRecord.projected at state
  cases outcome with
  | retryable => exact .inl (.inl ⟨attempt, maxAttempts, confirmed, by simp [OutcomeKind.code]⟩)
  | success =>
    refine .inr ?_
    have named : after.state = .succeeded := state
    simp [Pausing, named, JobState.Claimable]
  | permanent =>
    refine .inr ?_
    have named : after.state = .permanentFailure := state
    simp [Pausing, named, JobState.Claimable]
  | uncertain =>
    refine .inr ?_
    have named : after.state = .uncertain := state
    refine ⟨by simp [named, JobState.Claimable], by simp [named], fun _ => ?_⟩
    exact ⟨_, List.mem_concat_self, rfl⟩

theorem reconciled_waits {job : JobRecord} (other : ¬(decision = 2 ∧
    uncertainRetryIsPermitted job.isIdempotentHandler job.attempt job.maxAttempts = true)) :
    ¬(job.reconciled decision).state.Claimable := by
  unfold JobRecord.reconciled
  split
  · simp [JobState.Claimable]
  · simp [JobState.Claimable]
  · rw [if_neg fun permitted => other ⟨rfl, permitted⟩]
    simp [JobState.Claimable]
  · simp [JobState.Claimable]

theorem Story.separated (story : Story submission revision past job) :
    ∀ earlier since, past.map Prod.fst = earlier ++ .begunExecution :: since →
      Separated since ∨ Pausing job since := by
  induction story with
  | entered =>
    intro earlier since split
    have lengths := congrArg List.length split
    simp only [List.map_cons, List.map_nil, List.length_append, List.length_cons,
      List.length_nil] at lengths
    obtain rfl : earlier = [] := List.length_eq_zero_iff.mp (by omega)
    cases (List.cons.inj split).1
  | @goesOn before job after entry fact story makes ih =>
    intro earlier since split
    rw [List.map_append] at split
    rcases List.eq_nil_or_concat since with rfl | ⟨since, last, rfl⟩
    · obtain ⟨-, same⟩ := List.append_inj' split rfl
      obtain rfl : entry = .begunExecution := (List.cons.inj same).1
      cases makes with
      | begun ran =>
        obtain ⟨-, same⟩ := (beginExecution_made _ _).ended ran
        refine .inr ?_
        rw [same]
        simp [Pausing, JobState.Claimable]
    · rw [List.concat_eq_append] at split ⊢
      have moved : before.map Prod.fst ++ [entry] = (earlier ++ .begunExecution :: since) ++
          [last] := by
        rw [List.append_assoc, List.cons_append]
        exact split
      obtain ⟨whole, same⟩ := List.append_inj' moved rfl
      obtain rfl : entry = last := (List.cons.inj same).1
      rcases ih earlier since whole with separated | ⟨waits, free, uncertain⟩
      · exact .inl (separated.append _)
      cases makes with
      | claimed _ _ ran =>
        obtain ⟨legal, -⟩ := (claim_made _ _ _).ended ran
        exact absurd (((claimIsLegal_iff _ _).mp legal).imp_right And.left) waits
      | begun ran => exact absurd ((beginExecution_made _ _).ended ran).1 free
      | completed _ ran => exact settled_pausing since ((complete_made _).ended ran).1.state
      | lost running ran =>
        obtain ⟨-, same⟩ := recordConnectionUncertain_made.ended ran
        refine .inr ?_
        rw [same]
        refine ⟨by simp [JobState.Claimable], by simp, fun _ => ?_⟩
        exact ⟨_, List.mem_concat_self, trivial⟩
      | @reconciled _ decision _ ran =>
        obtain ⟨state, same, -⟩ := (reconcileUncertain_made _).ended ran
        obtain ⟨uncertainty, member, unknown⟩ := uncertain state
        have submitted := story.submitted
        by_cases retried : decision.toNat = 2 ∧ uncertainRetryIsPermitted
            job.isIdempotentHandler job.attempt job.maxAttempts = true
        · -- a decision retries the attempt, and only for an idempotent handler
          obtain ⟨named, permitted⟩ := retried
          obtain rfl : decision = 2 := UInt64.toNat_inj.mp named
          have handler : submission.isIdempotentHandler = true := by
            rw [← submitted.handler]
            exact (Bool.and_eq_true_iff.mp permitted).1
          obtain ⟨first, middle, rfl⟩ := List.append_of_mem member
          refine .inl (.inr (.inr ⟨first, uncertainty, middle, UInt8.ofNat job.attempt,
            submission.maxAttempts, [], ?_, unknown⟩))
          rw [handler, List.append_assoc, List.cons_append]
        · refine .inr ⟨?_, fun leased => ?_, fun _ => ?_⟩
          · rw [same]
            exact reconciled_waits retried
          · exact reconciled_idle job decision.toNat (.inl (same ▸ leased))
          · exact ⟨uncertainty, List.mem_append_left _ member, unknown⟩
      | cancelled ran =>
        obtain ⟨-, -, same⟩ := cancel_made.ended ran
        refine .inr ?_
        rw [same]
        simp [Pausing, JobState.Claimable]
      | advanced _ ran =>
        exact .inl (.inr (.inl ⟨_, _, List.mem_concat_self⟩))
      | expired leased _ => exact absurd leased free

/-- The attempts that were begun since the last occurrence was over. -/
def attemptsBegun (entries : List JobEvidenceEntry) : Nat :=
  entries.foldl (fun attempts entry =>
    match entry with
    | .begunExecution => attempts + 1
    | .recurringAdvanced _ _ => 0
    | _ => attempts) 0

theorem attemptsBegun_append (entries : List JobEvidenceEntry) (entry : JobEvidenceEntry) :
    attemptsBegun (entries ++ [entry]) =
      match entry with
      | .begunExecution => attemptsBegun entries + 1
      | .recurringAdvanced _ _ => 0
      | _ => attemptsBegun entries := by
  unfold attemptsBegun
  rw [List.foldl_append]
  rfl

/-- A retry is decided on only while fewer attempts have been begun than are allowed. -/
def unexhausted : Restraint where
  permits runtime
    | .reconcile decision =>
      decision.toNat != 2 ||
        attemptsBegun runtime.evidence.entries < runtime.submission.maxAttempts.toNat ||
        !(attemptOf runtime.store runtime.jobId).any fun attempt =>
          uncertainRetryIsPermitted runtime.submission.isIdempotentHandler attempt.toNat
            runtime.submission.maxAttempts.toNat
    | _ => true
  allows past entry := ∀ decision handler attempt maxAttempts,
    entry = .reconciledUncertain decision handler attempt maxAttempts → decision.toNat = 2 →
      uncertainRetryIsPermitted handler attempt.toNat maxAttempts.toNat = true →
        attemptsBegun past < maxAttempts.toNat
  found _ _ found _ _ _ _ same := absurd (same ▸ trivial) found
  claims _ _ _ _ _ _ _ _ _ _ _ _ _ same := by cases same
  reconciles runtime decision attempt permitted attempted _ _ _ _ same retried retry := by
    cases same
    rw [attempted] at permitted
    simpa [retried, retry] using permitted

/-- The attempts that were begun against those that are counted and allowed. -/
def Counted (job : JobRecord) (begun : Nat) : Prop :=
  begun ≤ job.maxAttempts ∧
    (job.state.Claimable ∨ job.state = .leased → begun ≤ job.attempt ∧ begun < job.maxAttempts) ∧
      (job.state = .running ∨ job.state = .uncertain → begun ≤ job.attempt + 1)

theorem reconciled_maxAttempts (job : JobRecord) (decision : Nat) :
    (job.reconciled decision).maxAttempts = job.maxAttempts := by
  unfold JobRecord.reconciled
  split
  · rfl
  · rfl
  · split_ifs <;> rfl
  · rfl

theorem reconciled_attempt (other : ¬(decision = 2 ∧
    uncertainRetryIsPermitted job.isIdempotentHandler job.attempt job.maxAttempts = true)) :
    (job.reconciled decision).attempt = job.attempt := by
  unfold JobRecord.reconciled
  split
  · rfl
  · rfl
  · rw [if_neg fun permitted => other ⟨rfl, permitted⟩]
  · rfl

theorem settled_claimable
    (claimable : (job.settled outcome).Claimable ∨ job.settled outcome = .leased) :
    job.attemptsAfter outcome < job.maxAttempts ∧ job.attemptsAfter outcome =
      nextAttempt job.attempt := by
  have busy := settled_idle job outcome
  have free := claimable.resolve_right fun leased => busy (.inl leased)
  unfold JobRecord.settled at free
  split_ifs at free with retried
  · have left : ¬retryShouldDeadLetter (job.attemptsAfter outcome) job.maxAttempts = true := by
      intro spent
      unfold JobRecord.projected retryNextStateAfterOutcome at retried
      rw [if_pos spent] at retried
      split_ifs at retried <;> simp [JobState.fromCode] at retried
    have failed : outcome ≠ .success := by
      rintro rfl
      simp [JobRecord.projected, OutcomeKind.code, retryNextStateAfterOutcome,
        JobState.fromCode] at retried
    refine ⟨?_, if_neg failed⟩
    simpa [retryShouldDeadLetter] using left
  · exact absurd free (projected_not_claimable outcome)

theorem settled_uncertain
    (uncertain : job.settled outcome = .running ∨ job.settled outcome = .uncertain) :
    job.attemptsAfter outcome = nextAttempt job.attempt := by
  have unknown := uncertain.resolve_left fun running => settled_idle job outcome (.inr running)
  refine if_neg ?_
  rintro rfl
  simp [JobRecord.settled, JobRecord.projected, OutcomeKind.code, retryNextStateAfterOutcome,
    JobState.fromCode] at unknown

theorem Story.counted (story : Story submission revision past job)
    (room : 0 < submission.maxAttempts.toNat)
    (restrained : Throughout unexhausted.allows (past.map Prod.fst)) :
    Counted job (attemptsBegun (past.map Prod.fst)) := by
  induction story with
  | entered =>
    exact ⟨Nat.zero_le _, fun _ => ⟨Nat.zero_le _, room⟩, fun _ => Nat.zero_le _⟩
  | @goesOn before job after entry fact story makes ih =>
    rw [List.map_append] at restrained ⊢
    obtain ⟨earlier, last⟩ := throughout_append.mp restrained
    obtain ⟨most, waiting, going⟩ := ih earlier
    have submitted := story.submitted
    cases makes with
    | claimed _ _ ran =>
      obtain ⟨legal, -, same⟩ := (claim_made _ _ _).ended ran
      have claimable := ((claimIsLegal_iff _ _).mp legal).imp_right And.left
      show Counted after (attemptsBegun (before.map Prod.fst ++ [JobEvidenceEntry.claimed true]))
      rw [attemptsBegun_append, same]
      refine ⟨most, fun _ => waiting (.inl claimable), fun other => ?_⟩
      rcases other with other | other <;> cases other
    | begun ran =>
      obtain ⟨leased, same⟩ := (beginExecution_made _ _).ended ran
      obtain ⟨counted, room⟩ := waiting (.inr leased)
      show Counted after (attemptsBegun (before.map Prod.fst ++ [JobEvidenceEntry.begunExecution]))
      rw [attemptsBegun_append, same]
      refine ⟨room, fun other => ?_, fun _ => Nat.succ_le_succ counted⟩
      rcases other with (other | other) | other <;> cases other
    | @completed _ _ outcome _ _ ran =>
      obtain ⟨made, -⟩ := (complete_made _).ended ran
      have counted := going (.inl made.running)
      have byte : job.maxAttempts ≤ maxU8 := by
        rw [submitted.maxAttempts]
        exact Nat.le_of_lt_succ (UInt8.toNat_lt _)
      have next : attemptsBegun (before.map Prod.fst) ≤ nextAttempt job.attempt :=
        le_min counted (most.trans byte)
      show Counted after (attemptsBegun (before.map Prod.fst ++
        [JobEvidenceEntry.durableCompleted _ _ _ _]))
      rw [attemptsBegun_append]
      unfold Counted
      rw [made.state, made.attempt, made.maxAttempts]
      refine ⟨most, fun free => ?_, fun other => ?_⟩
      · obtain ⟨room, same⟩ := settled_claimable free
        rw [same] at room ⊢
        exact ⟨next, next.trans_lt room⟩
      · rw [settled_uncertain other]
        exact next.trans (Nat.le_succ _)
    | lost running ran =>
      obtain ⟨-, same⟩ := recordConnectionUncertain_made.ended ran
      show Counted after (attemptsBegun (before.map Prod.fst ++
        [JobEvidenceEntry.connectionUncertain]))
      rw [attemptsBegun_append, same]
      refine ⟨most, fun other => ?_, fun _ => going (.inl running)⟩
      rcases other with (other | other) | other <;> cases other
    | @reconciled _ decision _ ran =>
      obtain ⟨state, same, -⟩ := (reconcileUncertain_made _).ended ran
      have counted := going (.inr state)
      show Counted after (attemptsBegun (before.map Prod.fst ++
        [JobEvidenceEntry.reconciledUncertain _ _ _ _]))
      rw [attemptsBegun_append]
      unfold Counted
      rw [same, reconciled_maxAttempts]
      by_cases retried : decision.toNat = 2 ∧ uncertainRetryIsPermitted
          job.isIdempotentHandler job.attempt job.maxAttempts = true
      · obtain ⟨named, permitted⟩ := retried
        have left : attemptsBegun (before.map Prod.fst) < submission.maxAttempts.toNat := by
          refine last _ _ _ _ rfl named ?_
          rw [toNat_attempt submitted.sound, ← submitted.handler, ← submitted.maxAttempts]
          exact permitted
        have byte : job.maxAttempts ≤ maxU8 := by
          rw [submitted.maxAttempts]
          exact Nat.le_of_lt_succ (UInt8.toNat_lt _)
        rw [← submitted.maxAttempts] at left
        have next : (job.reconciled decision.toNat).attempt = nextAttempt job.attempt := by
          rw [named]
          show (if uncertainRetryIsPermitted job.isIdempotentHandler job.attempt
            job.maxAttempts then _ else _ : JobRecord).attempt = _
          rw [if_pos permitted]
        rw [next]
        have counts : attemptsBegun (before.map Prod.fst) ≤ nextAttempt job.attempt :=
          le_min counted (most.trans byte)
        exact ⟨most, fun _ => ⟨counts, left⟩, fun _ => counts.trans (Nat.le_succ _)⟩
      · rw [reconciled_attempt retried]
        refine ⟨most, fun free => ?_, fun _ => counted⟩
        exact (free.resolve_left (reconciled_waits retried) |> fun leased =>
          reconciled_idle job decision.toNat (.inl leased)).elim
    | cancelled ran =>
      obtain ⟨-, -, same⟩ := cancel_made.ended ran
      show Counted after (attemptsBegun (before.map Prod.fst ++ [JobEvidenceEntry.cancelled]))
      rw [attemptsBegun_append, same]
      refine ⟨most, fun other => ?_, fun other => ?_⟩
      · rcases other with (other | other) | other <;> cases other
      · rcases other with other | other <;> cases other
    | @advanced _ _ next _ ran =>
      have made := (advanceRecurringSchedule_made _ _).ended ran
      show Counted after (attemptsBegun (before.map Prod.fst ++
        [JobEvidenceEntry.recurringAdvanced _ _]))
      rw [attemptsBegun_append]
      unfold Counted
      rw [made.maxAttempts, submitted.maxAttempts]
      exact ⟨Nat.zero_le _, fun _ => ⟨Nat.zero_le _, room⟩, fun _ => Nat.zero_le _⟩
    | expired leased ran =>
      obtain ⟨held, -, -, same⟩ := ((expire_made _).ended ran).1 rfl
      show Counted after (attemptsBegun (before.map Prod.fst ++ [JobEvidenceEntry.leaseExpired]))
      rw [attemptsBegun_append, same]
      refine ⟨most, fun _ => waiting (.inr leased), fun other => ?_⟩
      rcases other with other | other <;> cases other

end Stories

def occurrenceOf (entries : List JobEvidenceEntry) : Nat :=
  entries.countP fun
    | .recurringAdvanced _ _ => true
    | _ => false

theorem occurrenceOf_append (entries more : List JobEvidenceEntry) :
    occurrenceOf (entries ++ more) = occurrenceOf entries + occurrenceOf more :=
  List.countP_append

theorem attemptsBegun_grows (entries more : List JobEvidenceEntry) (same : occurrenceOf more = 0) :
    attemptsBegun entries ≤ attemptsBegun (entries ++ more) := by
  induction more using List.reverseRecOn with
  | nil => rw [List.append_nil]
  | append_singleton more entry ih =>
    rw [occurrenceOf_append] at same
    refine (ih (Nat.eq_zero_of_add_eq_zero_right same)).trans ?_
    have kept := Nat.eq_zero_of_add_eq_zero_left same
    rw [← List.append_assoc, attemptsBegun_append]
    split
    · exact Nat.le_succ _
    · simp [occurrenceOf] at kept
    · exact le_rfl

/-- Every execution has a document of its own, which was kept before it and says that it has begun,
and something separates it from the executions before it. -/
structure World.Announced (world : World) : Prop where
  announced : Throughout (fun earlier happening => ∀ running, happening = .executed running →
    ∃ checkpoint, .persisted checkpoint ∈ earlier ∧ Executes checkpoint running) world.happenings
  own : (world.executions.map fun running => running.evidence.entries.length).Nodup
  recorded : ∀ running ∈ world.executions, ∀ last, world.checkpoints.getLast? = some last →
    running.evidence.entries <+: last.written.evidence.entries
  separated : ∀ running ∈ world.executions, ∀ later ∈ world.executions,
    running.evidence.entries.length < later.evidence.entries.length → ∃ between,
      later.evidence.entries =
        running.evidence.entries ++ between ++ [JobEvidenceEntry.begunExecution] ∧
        Separated between

/-- No occurrence is executed more often than is allowed. -/
structure World.NotBlind (world : World) : Prop extends world.Announced where
  bounded : ∀ running ∈ world.executions,
    (world.executions.filter fun other => occurrenceOf other.evidence.entries =
      occurrenceOf running.evidence.entries).length ≤ running.submission.maxAttempts.toNat

section Worlds

variable {restraint : Restraint} {world : World} {running later : JobRuntime}
  {checkpoint other : Checkpoint}

section Good

variable (good : world.Good restraint)

include good

theorem World.Good.compared (member : checkpoint ∈ world.checkpoints)
    (listed : other ∈ world.checkpoints) :
    checkpoint = other ∨ checkpoint.Before other ∨ other.Before checkpoint := by
  by_cases same : checkpoint = other
  · exact .inl same
  have : Std.Symm fun first second : Checkpoint => first.Before second ∨ second.Before first :=
    ⟨fun _ _ => Or.symm⟩
  have compared : world.checkpoints.Pairwise fun first second =>
      first.Before second ∨ second.Before first := good.chain.imp .inl
  exact .inr (compared.forall member listed same)

theorem World.Good.own :
    (world.executions.map fun running => running.evidence.entries.length).Nodup := by
  refine (List.nodup_map_iff_inj_on (List.Nodup.of_map _ good.once)).mpr ?_
  intro running member later listed same
  obtain ⟨checkpoint, kept, executes⟩ := good.issued member
  obtain ⟨other, keeps, again⟩ := good.issued listed
  rw [executes.entries, again.entries] at same
  refine List.inj_on_of_nodup_map good.once member listed ?_
  rw [executes.generation, again.generation]
  rcases good.compared kept keeps with rfl | before | after
  · rfl
  · exact absurd same before.grown.ne
  · exact absurd same.symm after.grown.ne

theorem World.Good.same_submission
    (member : running ∈ world.executions) (listed : later ∈ world.executions) :
    running.submission = later.submission := by
  obtain ⟨checkpoint, kept, executes⟩ := good.issued member
  obtain ⟨other, keeps, again⟩ := good.issued listed
  rw [executes.submission, again.submission]
  rcases good.compared kept keeps with rfl | before | after
  · rfl
  · exact before.submission
  · exact after.submission.symm

theorem World.Good.follows (member : running ∈ world.executions) (listed : later ∈ world.executions)
    (longer : running.evidence.entries.length < later.evidence.entries.length) :
    running.evidence.entries <+: later.evidence.entries := by
  obtain ⟨checkpoint, kept, executes⟩ := good.issued member
  obtain ⟨other, keeps, again⟩ := good.issued listed
  rw [executes.entries, again.entries] at longer ⊢
  rcases good.compared kept keeps with rfl | before | after
  · exact absurd longer (lt_irrefl _)
  · exact before.entries
  · exact absurd longer after.grown.asymm

omit good in
theorem admitted_attempts {schema : InteractionSchema} {submission : JobSubmission}
    (admitted : validateSubmission schema submission = .ok ()) : 0 < submission.maxAttempts.toNat := by
  unfold validateSubmission at admitted
  split_ifs at admitted with wrong refused
  simp only [not_or] at wrong
  exact Nat.pos_of_ne_zero fun zero => wrong.2.2.2.2.2.1 (UInt8.toNat_inj.mp zero)

theorem World.Good.beginning (member : running ∈ world.executions) :
    ∃ before job revision, Story running.submission revision before job ∧ job.state = .leased ∧
      running.evidence.entries = before.map Prod.fst ++ [JobEvidenceEntry.begunExecution] ∧
        Throughout restraint.allows (before.map Prod.fst) ∧
          0 < running.submission.maxAttempts.toNat := by
  obtain ⟨checkpoint, kept, executes⟩ := good.issued member
  obtain ⟨⟨job, sound⟩, -, restrained⟩ := good.kept checkpoint kept
  have room := admitted_attempts sound.admitted
  have story := sound.story
  have entries := List.map_fst_zip sound.paired.le
  have begun := executes.begun
  rw [← executes.submission] at story room
  rw [executes.entries, ← entries] at begun ⊢
  rw [← entries] at restrained
  generalize checkpoint.written.evidence.entries.zip checkpoint.written.replayFacts = past at *
  cases story with
  | entered => cases begun
  | @goesOn before job _ entry fact story makes =>
    rw [List.map_append] at begun restrained ⊢
    obtain rfl : entry = .begunExecution := Option.some.inj ((List.getLast?_concat).symm.trans begun)
    cases makes with
    | begun ran =>
      exact ⟨before, job, _, story, ((beginExecution_made _ _).ended ran).1, rfl,
        (throughout_append.mp restrained).1, room⟩

theorem World.Good.apart (member : running ∈ world.executions) (listed : later ∈ world.executions)
    (longer : running.evidence.entries.length < later.evidence.entries.length) :
    ∃ between, later.evidence.entries =
      running.evidence.entries ++ between ++ [JobEvidenceEntry.begunExecution] ∧
      Separated between := by
  obtain ⟨more, grown⟩ := good.follows member listed longer
  obtain ⟨before, _, _, -, -, begun, -⟩ := good.beginning member
  obtain ⟨past, job, revision, story, leased, again, -⟩ := good.beginning listed
  rcases List.eq_nil_or_concat more with rfl | ⟨between, last, rfl⟩
  · rw [← grown, List.append_nil] at longer
    exact absurd longer (lt_irrefl _)
  rw [List.concat_eq_append, ← List.append_assoc] at grown
  rw [again] at grown ⊢
  obtain ⟨whole, -⟩ := List.append_inj' grown rfl
  refine ⟨between, by rw [whole], ?_⟩
  rw [begun, List.append_assoc] at whole
  rcases story.separated _ between whole.symm with separated | pausing
  · exact separated
  · exact absurd leased pausing.2.1

theorem World.Good.announces : world.Announced := by
  refine ⟨good.executed, good.own, fun running member last newest => ?_,
    fun running member later listed => good.apart member listed⟩
  obtain ⟨checkpoint, kept, executes⟩ := good.issued member
  obtain ⟨earlier, all⟩ := List.getLast?_eq_some_iff.mp newest
  have chain := good.chain
  rw [all] at chain kept
  rw [executes.entries]
  rcases List.mem_append.mp kept with before | same
  · exact ((List.pairwise_append.mp chain).2.2 checkpoint before last
      (List.mem_singleton_self _)).entries
  · rw [List.mem_singleton.mp same]

theorem World.Good.numbered (member : running ∈ world.executions)
    (listed : later ∈ world.executions)
    (occurrence : occurrenceOf running.evidence.entries = occurrenceOf later.evidence.entries)
    (longer : running.evidence.entries.length < later.evidence.entries.length) :
    attemptsBegun running.evidence.entries < attemptsBegun later.evidence.entries := by
  obtain ⟨between, grown, -⟩ := good.apart member listed longer
  rw [grown, attemptsBegun_append]
  refine Nat.lt_succ_of_le (attemptsBegun_grows _ _ ?_)
  rw [grown, List.append_assoc, occurrenceOf_append, occurrenceOf_append] at occurrence
  omega

end Good

theorem World.Good.bounded (good : world.Good unexhausted) (member : running ∈ world.executions) :
    (world.executions.filter fun other => occurrenceOf other.evidence.entries =
      occurrenceOf running.evidence.entries).length ≤ running.submission.maxAttempts.toNat := by
  have numbers : ((world.executions.filter fun other => occurrenceOf other.evidence.entries =
      occurrenceOf running.evidence.entries).map fun other =>
        attemptsBegun other.evidence.entries).Nodup := by
    refine (List.nodup_map_iff_inj_on ((List.Nodup.of_map _ good.once).filter _)).mpr ?_
    intro first kept second keeps same
    obtain ⟨one, here⟩ := List.mem_filter.mp kept
    obtain ⟨two, there⟩ := List.mem_filter.mp keeps
    have occurrence := (of_decide_eq_true here).trans (of_decide_eq_true there).symm
    rcases lt_trichotomy first.evidence.entries.length second.evidence.entries.length with
      before | alike | after
    · exact absurd same (good.numbered one two occurrence before).ne
    · exact List.inj_on_of_nodup_map good.own one two alike
    · exact absurd same (good.numbered two one occurrence.symm after).ne'
  have within : ((world.executions.filter fun other => occurrenceOf other.evidence.entries =
      occurrenceOf running.evidence.entries).map fun other =>
        attemptsBegun other.evidence.entries) ⊆
          List.range' 1 running.submission.maxAttempts.toNat := by
    intro attempts listed
    obtain ⟨other, kept, rfl⟩ := List.mem_map.mp listed
    have here := (List.mem_filter.mp kept).1
    obtain ⟨before, job, revision, story, leased, begun, restrained, room⟩ := good.beginning here
    obtain ⟨-, waiting, -⟩ := story.counted room restrained
    have left := (waiting (.inr leased)).2
    rw [story.submitted.maxAttempts, good.same_submission here member] at left
    have counted : attemptsBegun other.evidence.entries =
        attemptsBegun (before.map Prod.fst) + 1 := by
      rw [begun, attemptsBegun_append]
    rw [counted, List.mem_range'_1]
    exact ⟨Nat.succ_pos _, by omega⟩
  have length := (numbers.subperm within).length_le
  rwa [List.length_map, List.length_range'] at length

end Worlds

def loneSubmission : JobSubmission := ⟨[1], [1], [1], none, 1, true, 0, 0⟩

/-- The only attempt that is allowed is lost, and a decision retries it. -/
def retryingMoves : List (Move Opening Request Choice) :=
  [.opens (.enqueue plainSchema 1 loneSubmission fun _ recurs => by cases recurs),
    .answers 0 (.swaps 1 true), .resumes 0 (.drive 1 1 1), .answers 0 (.swaps 2 true),
    .answers 0 (.swaps 3 true), .answers 0 (.reports .uncertain), .stops 0,
    .opens (.recover plainSchema 1), .answers 1 (.loads false), .answers 1 (.swaps 4 true),
    .resumes 1 (.reconcile 2), .answers 1 (.swaps 5 true), .resumes 1 (.drive 1 2 1),
    .answers 1 (.swaps 6 true), .answers 1 (.swaps 7 true), .answers 1 (.reports .uncertain)]

/-- The occurrence of each execution, and how many attempts it is allowed. -/
def numbersOf (shared : Shared World Query Response (Option JobRuntime)) : List (Nat × Nat) :=
  shared.world.executions.map fun running =>
    (occurrenceOf running.evidence.entries, running.submission.maxAttempts.toNat)

end Semaprax.DurableJobs
