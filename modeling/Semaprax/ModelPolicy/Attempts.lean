/-
**What a repeated attempt has shown.**

An attempt that is repeated has ended with a failure that says that no bytes were attempted. The code
asks the failure alone: what earlier polls of the attempt have answered is only looked at for a
completion.

* `Retryable` — the results after which the scheduler goes on.
* `Judged` — a failure that the host took for one that may be repeated, and the adapter declared.
* `drive_spec` — an attempt with a retryable result was not started, or it was judged so.
* `Candid`, `Safe` — an adapter that does not forget what it answered, and an attempt without output.
-/

import Semaprax.ModelPolicy.Retry

namespace Semaprax.ModelPolicy

open Library

/-- A result after which the scheduler goes on. -/
def Retryable (result : AdapterAttemptResult) : Prop :=
  ∃ classification failure attemptedBytes refusal,
    result = .failed classification failure attemptedBytes refusal ∧
      retryIsPermitted classification = true

variable {result : AdapterAttemptResult} {poll : AdapterPoll}

theorem not_retryable_uncertain {failure : Option ModelFailure} {attemptedBytes : Nat}
    {refusal : Option SchedulerRefusal} :
    ¬Retryable (.failed .uncertain failure attemptedBytes refusal) := by
  rintro ⟨classification, _, _, _, same, permitted⟩
  obtain ⟨rfl, -⟩ := AdapterAttemptResult.failed.inj same
  exact absurd permitted (by decide)

theorem not_retryable_settled {responseBytes : List UInt8} {usage : AdapterUsage} :
    ¬Retryable (.settled responseBytes usage) := by
  rintro ⟨_, _, _, _, same, _⟩
  cases same

/-- A poll that is neither an end nor a completion. -/
def Open (poll : AdapterPoll) : Prop :=
  poll = .pending ∨ ∃ event, poll = .event event ∧ event ≠ .completed

/-- A failure of which the host and the adapter say that it may be repeated. -/
def Judged (attempt : Attempt) : Prop :=
  ∃ before failure outcome declared, attempt.polls = before ++ [.failed failure 0] ∧
    (failure = .capacityExceeded ∨ failure = .providerError) ∧ (∀ poll ∈ before, Open poll) ∧
    attempt.judged = some (outcome, declared) ∧ retryIsPermitted outcome = true ∧ outcome ∈ declared

def Explained {World : Type} (result : AdapterAttemptResult) (after : World × Attempt) : Prop :=
  Retryable result → after.2.started ≠ some true ∨ Judged after.2

theorem Explained.of_not {World : Type} {after : World × Attempt}
    (final : ¬Retryable result) : Explained result after := fun retryable => absurd retryable final

section Drive

variable {World Adapter : Type} (host : Host World Adapter)

variable {A : Type} {deadlineMillis : Option I64} {attempt : Attempt} {seen : Seen}
variable {polls : List AdapterPoll} {poll : AdapterPoll} {providerId : String}
variable {maxResponseBytes : Nat}

@[simp]
theorem wp_inquire (question : World → A × World) {ends : A → World × Attempt → Prop}
    {stops : AdapterAttemptResult → World × Attempt → Prop} {state : World × Attempt} :
    (inquire question).wp ends stops state ↔
      ends (question state.1).1 ((question state.1).2, state.2) := Iff.rfl

@[simp]
theorem wp_note (change : Attempt → Attempt) {ends : Unit → World × Attempt → Prop}
    {stops : AdapterAttemptResult → World × Attempt → Prop} {state : World × Attempt} :
    (note change).wp ends stops state ↔ ends () (state.1, change state.2) := Iff.rfl

@[simp]
theorem wp_abort (adapter : Adapter) (reason : String) (result : AdapterAttemptResult)
    {ends : A → World × Attempt → Prop}
    {stops : AdapterAttemptResult → World × Attempt → Prop} {state : World × Attempt} :
    (abort host adapter reason result : Driving World A).wp ends stops state ↔
      stops result (host.cancel adapter reason state.1, state.2) := Iff.rfl

theorem wp_checkpoint {adapter : Adapter}
    {cancelReason deadlineReason : String} {observed : Nat} {world : World}
    {ends : Unit → World × Attempt → Prop} (ending : ∀ world, ends () (world, attempt)) :
    (checkpoint host adapter deadlineMillis cancelReason deadlineReason observed).wp ends
      Explained (world, attempt) := by
  unfold checkpoint
  rw [wp_bind, wp_inquire]
  split_ifs
  · exact (wp_abort host adapter _ _).mpr (.of_not not_retryable_uncertain)
  · rw [wp_bind, wp_inquire]
    split_ifs
    · exact (wp_abort host adapter _ _).mpr (.of_not not_retryable_uncertain)
    · exact ending _

/-- What has been seen is what the polls have answered, as far as a completion is concerned. -/
structure Follows (seen : Seen) (polls : List AdapterPoll) : Prop where
  running : ∀ poll ∈ polls, poll = .pending ∨ ∃ event, poll = .event event
  open' : seen.completed = false → ∀ poll ∈ polls, Open poll

theorem Follows.next {next : Seen}
    (follows : Follows seen polls) (running : poll = .pending ∨ ∃ event, poll = .event event)
    (open' : next.completed = false → seen.completed = false ∧ Open poll) :
    Follows next (polls ++ [poll]) := by
  constructor
  · intro other mem
    rcases List.mem_append.mp mem with early | here
    · exact follows.running other early
    · exact List.mem_singleton.mp here ▸ running
  · intro unfinished other mem
    obtain ⟨unfinished', last⟩ := open' unfinished
    rcases List.mem_append.mp mem with early | here
    · exact follows.open' unfinished' other early
    · exact List.mem_singleton.mp here ▸ last

/-- **A failure is explained**: where it is taken for one that may be repeated, nothing was completed
before it. -/
theorem wp_observe_failed {adapter : Adapter}
    {failure : ModelFailure} {attemptedBytes : Nat} {world : World}
    {ends : Seen → World × Attempt → Prop}
    (follows : Follows seen polls)
    (polled : attempt.polls = polls ++ [.failed failure attemptedBytes]) :
    (observe host adapter providerId maxResponseBytes seen (.failed failure attemptedBytes)).wp
      ends Explained (world, attempt) := by
  unfold observe classified
  rw [wp_bind]
  have judgement : ∀ outcome world', (∀ _ : retryIsPermitted outcome = true,
      seen.completed = false ∧ attemptedBytes = 0 ∧
        (failure = .capacityExceeded ∨ failure = .providerError)) →
      Prog.wp (do
        let declared ← inquire fun world =>
          ((host.capabilities adapter world).retryableFailureClasses, world)
        note fun attempt =>
          { attempt with
            judged := some (outcome, declared) }
        Prog.stop (.failed (declaredOrUncertain outcome declared) (some failure) attemptedBytes none))
        ends Explained (world', attempt) := by
    intro outcome world' condition
    rw [wp_bind, wp_inquire, wp_bind, wp_note, wp_stop]
    unfold declaredOrUncertain
    split_ifs with undeclared
    · exact .of_not not_retryable_uncertain
    · rintro ⟨classification, _, _, _, same, permitted⟩
      obtain ⟨rfl, -⟩ := AdapterAttemptResult.failed.inj same
      obtain ⟨unfinished, rfl, kind⟩ := condition permitted
      have member : outcome ∈ (host.capabilities adapter world').retryableFailureClasses :=
        not_not.mp fun absent => undeclared ⟨permitted, absent⟩
      exact Or.inr ⟨polls, failure, outcome, _, polled, kind, follows.open' unfinished, rfl,
        permitted, member⟩
  split_ifs with condition
  · exact judgement _ _ fun _ => condition
  · exact judgement .uncertain world fun permitted => absurd permitted (by decide)

theorem wp_observe {adapter : Adapter} {world : World}
    (follows : Follows seen polls) (polled : attempt.polls = polls ++ [poll]) :
    (observe host adapter providerId maxResponseBytes seen poll).wp
      (fun next after => after.2 = attempt ∧ Follows next (polls ++ [poll])) Explained
      (world, attempt) := by
  have final : ∀ {attemptedBytes : Nat} {code : String} {after : World × Attempt},
      Explained (protocolFailure attemptedBytes code) after :=
    .of_not not_retryable_uncertain
  cases poll with
  | pending =>
    exact ⟨rfl, follows.next (Or.inl rfl) fun unfinished => ⟨unfinished, Or.inl rfl⟩⟩
  | failed failure attemptedBytes => exact wp_observe_failed host follows polled
  | settled settlement =>
    rw [observe, settle]
    split_ifs
    · exact final
    · exact final
    · exact final
    · exact .of_not not_retryable_settled
  | event event =>
    cases event with
    | delta chunk | usage tokensIn tokensOut costMicros =>
      rw [observe]
      split_ifs
      · exact final
      · exact final
      · exact ⟨rfl, follows.next (Or.inr ⟨_, rfl⟩) fun unfinished =>
          ⟨unfinished, Or.inr ⟨_, rfl, by simp⟩⟩⟩
    | completed =>
      rw [observe]
      split_ifs with completed
      · exact final
      · exact ⟨rfl, follows.next (Or.inr ⟨_, rfl⟩) fun unfinished =>
          Bool.noConfusion unfinished⟩

/-- **The polls of an attempt.** -/
theorem wp_pollLoop {adapter : Adapter} {maxPolls polls : Nat} {world : World}
    (follows : Follows seen attempt.polls) :
    (pollLoop host adapter providerId deadlineMillis maxResponseBytes maxPolls polls seen).wp
      Explained Explained (world, attempt) := by
  induction polls generalizing seen world attempt with
  | zero =>
    unfold pollLoop
    exact (wp_abort host adapter _ _).mpr (.of_not not_retryable_uncertain)
  | succ polls ih =>
    unfold pollLoop
    rw [wp_bind]
    refine wp_checkpoint host fun world => ?_
    rw [wp_bind, wp_inquire, wp_bind, wp_note, wp_bind]
    refine wp_checkpoint host fun world => ?_
    rw [wp_bind]
    refine wp_mono (wp_observe host follows rfl) ?_ fun _ _ => id
    rintro next ⟨world', attempt'⟩ ⟨rfl, follows'⟩
    exact ih follows'

theorem Explained.unstarted {result : AdapterAttemptResult} {after : World × Attempt}
    (unstarted : after.2.started ≠ some true) : Explained result after := fun _ => Or.inl unstarted

theorem wp_admissible {world : World}
    (unstarted : attempt.started ≠ some true) {ends : Unit → World × Attempt → Prop}
    (ending : ∀ world, ends () (world, attempt)) :
    (admissible host deadlineMillis).wp ends Explained (world, attempt) := by
  unfold admissible
  rw [wp_bind, wp_inquire, wp_bind, wp_stopIf]
  refine ⟨fun _ => .unstarted unstarted, fun _ => ?_⟩
  rw [wp_bind, wp_inquire, wp_stopIf]
  exact ⟨fun _ => .unstarted unstarted, fun _ => ending _⟩

theorem wp_orReturn {E : Type} {translate : E → AdapterAttemptResult} {checked : Except E A}
    {ends : A → World × Attempt → Prop} {state : World × Attempt}
    (refused : ∀ refusal, checked = .error refusal → Explained (translate refusal) state)
    (ending : ∀ value, checked = .ok value → ends value state) :
    (orReturn translate checked).wp ends Explained state := by
  cases checked with
  | ok value => exact ending value rfl
  | error refusal => exact refused refusal rfl

/-- An adapter is prepared without starting anything. -/
theorem wp_prepare
    {expectedModel : Option ModelSelection} {plan : AdapterAttemptPlan} {world : World} :
    (prepare host deadlineMillis providerId expectedModel plan).wp
      (fun _ after => after.2 = ⟨true, none, [], none⟩) Explained (world, .none) := by
  have unstarted : ∀ {created : Bool}, (⟨created, none, [], none⟩ : Attempt).started ≠ some true :=
    by simp
  unfold prepare
  rw [wp_bind]
  refine wp_admissible host unstarted fun world => ?_
  rw [wp_bind, wp_note, wp_bind, wp_inquire, wp_bind]
  refine wp_orReturn (fun _ _ => .unstarted unstarted) fun adapter _ => ?_
  rw [wp_bind, wp_inquire, wp_bind, wp_stopIf]
  refine ⟨fun _ => .unstarted unstarted, fun _ => ?_⟩
  rw [wp_bind, wp_inquire, wp_bind]
  refine wp_orReturn (fun _ _ => .unstarted unstarted) fun _ _ => ?_
  rw [wp_bind, wp_inquire, wp_bind]
  refine wp_orReturn (fun _ _ => .unstarted unstarted) fun _ _ => ?_
  rw [wp_bind]
  exact wp_admissible host unstarted fun world => rfl

/-- **A repeatable result is explained**: the adapter was not started, or it failed and was judged. -/
theorem drive_spec (deadlineMillis : Option I64) (providerId : String)
    (expectedModel : Option ModelSelection) (request : AdapterRequest) (plan : AdapterAttemptPlan)
    (world : World) : (drive host deadlineMillis providerId expectedModel request plan).wp
      Explained Explained (world, .none) := by
  unfold drive
  rw [wp_bind]
  refine wp_mono (wp_prepare host) ?_ fun _ _ => id
  rintro adapter ⟨world', attempt⟩ rfl
  rw [wp_bind, wp_inquire, wp_bind, wp_note, wp_bind]
  refine wp_orReturn (fun refusal refused => .unstarted ?_) fun value accepted => ?_
  · rw [refused]
    simp [Except.toBool]
  · exact wp_pollLoop host ⟨List.forall_mem_nil _, fun _ poll mem => absurd mem List.not_mem_nil⟩

theorem driven_explained (deadlineMillis : Option I64) (providerId : String)
    (expectedModel : Option ModelSelection) (request : AdapterRequest) (plan : AdapterAttemptPlan)
    (world : World) :
    Explained (driven host deadlineMillis providerId expectedModel request plan world).1
      (driven host deadlineMillis providerId expectedModel request plan world).2 := by
  unfold driven
  rcases wp_run (drive_spec host deadlineMillis providerId expectedModel request plan world)
    with ⟨result, after, ran, explained⟩ | ⟨result, after, ran, explained⟩
  · rw [ran]
    exact explained
  · rw [ran]
    exact explained

end Drive

/-- A poll that answers with response bytes or with a usage. -/
def Reports (poll : AdapterPoll) : Prop :=
  (∃ chunk, poll = .event (.delta chunk) ∧ chunk ≠ []) ∨
    ∃ tokensIn tokensOut costMicros, poll = .event (.usage tokensIn tokensOut costMicros)

/-- A poll without response bytes, usage or completion. -/
def Silent (poll : AdapterPoll) : Prop := poll = .pending ∨ poll = .event (.delta [])

/-- An adapter that was started and fails without attempted bytes has reported nothing before. -/
def Candid (attempt : Attempt) : Prop :=
  attempt.started = some true → ∀ before failure, attempt.polls = before ++ [.failed failure 0] →
    failure = .capacityExceeded ∨ failure = .providerError → ∀ poll ∈ before, ¬Reports poll

/-- An attempt after which another one is safe: it was not started, or it failed without any output, and
the class of the failure is permitted and declared. -/
def Safe (attempt : Attempt) : Prop :=
  attempt.started ≠ some true ∨ ∃ before failure outcome declared,
    attempt.polls = before ++ [.failed failure 0] ∧
    (failure = .capacityExceeded ∨ failure = .providerError) ∧ (∀ poll ∈ before, Silent poll) ∧
    attempt.judged = some (outcome, declared) ∧ retryIsPermitted outcome = true ∧ outcome ∈ declared

theorem silent_of_open (unended : Open poll) (quiet : ¬Reports poll) : Silent poll := by
  rcases unended with rfl | ⟨event, rfl, notCompleted⟩
  · exact Or.inl rfl
  · cases event with
    | delta chunk =>
      by_cases empty : chunk = []
      · exact Or.inr (by rw [empty])
      · exact absurd (Or.inl ⟨chunk, rfl, empty⟩) quiet
    | usage tokensIn tokensOut costMicros => exact absurd (Or.inr ⟨_, _, _, rfl⟩) quiet
    | completed => exact absurd rfl notCompleted

/-- **A repeated attempt of a candid adapter is safe.** -/
theorem Explained.safe {World : Type} {after : World × Attempt}
    (explained : Explained result after) (retryable : Retryable result) (candid : Candid after.2) :
    Safe after.2 := by
  by_cases started : after.2.started = some true
  · obtain ⟨before, failure, outcome, declared, polls, kind, unended, judged⟩ :=
      (explained retryable).resolve_left (not_not.mpr started)
    exact Or.inr ⟨before, failure, outcome, declared, polls, kind, fun poll mem =>
      silent_of_open (unended poll mem) (candid started before failure polls kind poll mem), judged⟩
  · exact Or.inl started

theorem not_reports_of_silent (silent : Silent poll) : ¬Reports poll := by
  rcases silent with rfl | rfl
  · simp [Reports]
  · simp [Reports]

theorem Safe.candid {attempt : Attempt} (safe : Safe attempt) : Candid attempt := by
  intro started before failure polls _ poll mem
  obtain ⟨before', failure', _, _, polls', _, silent, _⟩ :=
    safe.resolve_left (not_not.mpr started)
  rw [polls] at polls'
  rw [(List.append_inj' polls' rfl).1] at mem
  exact not_reports_of_silent (silent poll mem)

end Semaprax.ModelPolicy
