/-
**Runs of retries and failovers.**

Whatever the host answers, a run ends after at most as many attempts as there are calls. An attempt is
only followed by another one if its result may be repeated, so that it was safe unless its adapter
failed without attempted bytes after it had reported some.

* `reserveAttempt_counts` — a reservation takes one of the calls.
* `Kept`, `Ended` — what holds between two turns of the loop, and when the run has ended.
* `wp_iterate` — one turn keeps it, and brings the end nearer; `runLoop_spec` — so does a run.
* `retriesSafely_iff` — the attempts before another one, and how many there are.
-/

import Semaprax.ModelPolicy.Accounting
import Semaprax.ModelPolicy.Attempts

namespace Semaprax.ModelPolicy

open Library

theorem reserveAttempt_counts (ledger : ModelPolicyLedger) (cancelled : Bool) (nowMillis : I64)
    (request : AttemptRequest) : (ModelPolicyLedger.reserveAttempt cancelled nowMillis request).wp
      (fun _ after => after.limits = ledger.limits ∧
        ledger.callsCommitted.val < ledger.limits.limits.maxCalls.val ∧
        after.callsCommitted.val = ledger.callsCommitted.val + 1)
      (fun fault after => fault ≠ .panicked → after = ledger) ledger := by
  have committed : ∀ requestedTokens : U64,
      ledger.callsCommitted.val < ledger.limits.limits.maxCalls.val →
      (ModelPolicyLedger.commit request requestedTokens).wp
        (fun _ after => after.limits = ledger.limits ∧
          ledger.callsCommitted.val < ledger.limits.limits.maxCalls.val ∧
          after.callsCommitted.val = ledger.callsCommitted.val + 1)
        (fun fault after => fault ≠ .panicked → after = ledger) ledger := by
    intro requestedTokens below
    have one := Word.saturatingAdd_one below
    unfold ModelPolicyLedger.commit
    simp only [wp_bind, wp_get, wp_set, wp_ofOption, wp_pure]
    refine ⟨fun _ panicked => absurd rfl panicked, fun tokens _ =>
      ⟨fun _ panicked => absurd rfl panicked, fun cost _ => ?_⟩⟩
    cases request.kind with
    | fresh | retry | failover => exact ⟨rfl, below, one⟩
  unfold ModelPolicyLedger.reserveAttempt
  simp only [wp_bind, wp_stopIf, wp_get, wp_ofOption, wp_check, ne_eq,
    not_true_eq_false, implies_true, true_and]
  intro _ _ calls _ _ _ requestedTokens _ _ _ _ _ _
  exact committed requestedTokens (not_le.mp calls)

section Runs

variable {World Adapter : Type}

/-- What holds between two turns of the loop. -/
structure Kept (limits : EffectiveModelBudget) (run : Scheduling World) : Prop where
  budget : run.ledger.limits = limits
  room : run.attempts.length ≤ run.ledger.callsCommitted.val
  bound : run.attempts.length ≤ limits.limits.maxCalls.val
  paired : run.observed.length = run.attempts.length
  safe : ∀ attempt ∈ run.observed, Candid attempt → Safe attempt

/-- What holds when a run has ended: all attempts but the last one were safe. -/
structure Ended (limits : EffectiveModelBudget) (run : Scheduling World) : Prop where
  bound : run.attempts.length ≤ limits.limits.maxCalls.val
  paired : run.observed.length = run.attempts.length
  safe : ∀ earlier attempt later, run.observed = earlier ++ attempt :: later → later ≠ [] →
    Candid attempt → Safe attempt

/-- What holds while an admitted attempt has not been kept. -/
structure Admitted (limits : EffectiveModelBudget) (run : Scheduling World) : Prop
    extends Kept limits run where
  more : run.attempts.length < run.ledger.callsCommitted.val
  allowed : run.attempts.length < limits.limits.maxCalls.val

/-- What holds when an attempt has been made: the ones before it were safe, and it was if its result may
be repeated. -/
structure Tried (limits : EffectiveModelBudget) (result : AdapterAttemptResult)
    (run : Scheduling World) : Prop where
  budget : run.ledger.limits = limits
  room : run.attempts.length ≤ run.ledger.callsCommitted.val
  bound : run.attempts.length ≤ limits.limits.maxCalls.val
  paired : run.observed.length = run.attempts.length
  safe : ∃ front last, run.observed = front ++ [last] ∧
    (∀ attempt ∈ front, Candid attempt → Safe attempt) ∧
      (Retryable result → Candid last → Safe last)

variable {limits : EffectiveModelBudget} {result : AdapterAttemptResult}

theorem Kept.ended {run : Scheduling World} (kept : Kept limits run) : Ended limits run :=
  ⟨kept.bound, kept.paired, fun _ attempt _ split _ =>
    kept.safe attempt (split ▸ List.mem_append_right _ List.mem_cons_self)⟩

/-- An attempt that is followed by another one is in front of the last one. -/
theorem mem_front {A : Type} {front earlier later : List A} {last item : A}
    (split : front ++ [last] = earlier ++ item :: later) (more : later ≠ []) : item ∈ front := by
  obtain ⟨between, final, rfl⟩ := (List.eq_nil_or_concat' later).resolve_left more
  rw [← List.cons_append, ← List.append_assoc] at split
  rw [(List.append_inj' split rfl).1]
  exact List.mem_append_right _ List.mem_cons_self

theorem Tried.ended
    {run : Scheduling World} (tried : Tried limits result run) : Ended limits run := by
  obtain ⟨front, last, observed, safe, _⟩ := tried.safe
  exact ⟨tried.bound, tried.paired, fun earlier attempt later split more =>
    safe attempt (mem_front (observed ▸ split) more)⟩

theorem Tried.kept
    {run : Scheduling World} (tried : Tried limits result run) (retryable : Retryable result) :
    Kept limits run := by
  obtain ⟨front, last, observed, safe, lastSafe⟩ := tried.safe
  refine ⟨tried.budget, tried.room, tried.bound, tried.paired, fun attempt mem => ?_⟩
  rw [observed] at mem
  rcases List.mem_append.mp mem with early | here
  · exact safe attempt early
  · exact List.mem_singleton.mp here ▸ lastSafe retryable

theorem Admitted.tried {limits : EffectiveModelBudget} {run : Scheduling World}
    (admitted : Admitted limits run) {result : AdapterAttemptResult} {world : World}
    {reservation : AttemptReservation} {attempt : Attempt}
    (safe : Retryable result → Candid attempt → Safe attempt) :
    Tried limits result
      { run with
        world := world
        attempts := run.attempts ++ [reservation]
        observed := run.observed ++ [attempt] } := by
  have more := admitted.more
  have allowed := admitted.allowed
  refine ⟨admitted.budget, ?_, ?_, ?_, run.observed, attempt, rfl, admitted.safe, safe⟩
  · show (run.attempts ++ [reservation]).length ≤ run.ledger.callsCommitted.val
    rw [List.length_append, List.length_singleton]
    exact more
  · show (run.attempts ++ [reservation]).length ≤ _
    rw [List.length_append, List.length_singleton]
    exact allowed
  · show (run.observed ++ [attempt]).length = (run.attempts ++ [reservation]).length
    rw [List.length_append, List.length_append, admitted.paired]
    rfl

theorem Admitted.world {run : Scheduling World} (admitted : Admitted limits run) (world : World) :
    Admitted limits
      { run with
        world := world } :=
  ⟨⟨admitted.budget, admitted.room, admitted.bound, admitted.paired, admitted.safe⟩,
    admitted.more, admitted.allowed⟩

variable (host : Host World Adapter) (settings : RunSettings World)

/-- **A reservation is asked for.** -/
theorem wp_reserve {run : Scheduling World} (kept : Kept limits run) (request : AttemptRequest) :
    (reserve host request).wp
      (fun reserved after => after.attempts = run.attempts ∧
        ((∃ refusal, reserved = .error refusal) → Kept limits after) ∧
        ((∃ reservation, reserved = .ok reservation) → Admitted limits after))
      (fun _ after => Ended limits after) run := by
  unfold reserve Prog.wp
  simp only
  generalize (host.readClock run.ledger.deadlineMillis (host.isCancelled run.world).1
    (host.isCancelled run.world).2) = now
  rcases wp_run (reserveAttempt_counts run.ledger (host.isCancelled run.world).1 now.1 request)
    with ⟨reservation, after, ran, same, below, counted⟩ | ⟨fault, after, ran, unchanged⟩
  · rw [ran]
    have below' : run.ledger.callsCommitted.val < limits.limits.maxCalls.val := kept.budget ▸ below
    have room := kept.room
    refine ⟨rfl, fun ⟨_, refused⟩ => ?_, fun _ => ⟨⟨same.trans kept.budget, ?_, kept.bound,
      kept.paired, kept.safe⟩, ?_, ?_⟩⟩
    · cases refused
    · show run.attempts.length ≤ after.callsCommitted.val
      omega
    · show run.attempts.length < after.callsCommitted.val
      omega
    · exact room.trans_lt below'
  · rw [ran]
    cases fault with
    | refused refusal =>
      obtain rfl := unchanged (by simp)
      refine ⟨rfl, fun _ => ⟨kept.budget, kept.room, kept.bound, kept.paired, kept.safe⟩,
        fun ⟨_, admitted⟩ => ?_⟩
      cases admitted
    | panicked => exact ⟨kept.bound, kept.paired, kept.ended.safe⟩

/-- A refusal before the adapter is made keeps an attempt that was not started. -/
theorem wp_orRefuse {run : Scheduling World}
    (admitted : Admitted limits run) {reservation : AttemptReservation}
    {translate : String → SchedulerRefusal} {answer : Except String Unit}
    {ends : Unit → Scheduling World → Prop} (ending : ends () run) :
    (orRefuse reservation translate answer).wp ends (fun _ after => Ended limits after) run := by
  cases answer with
  | ok _ => exact ending
  | error detail =>
    have unstarted : Safe .none := Or.inl (by simp [Attempt.none])
    exact (@Admitted.tried World limits run admitted (protocolFailure 0 "") run.world reservation
      .none fun _ _ => unstarted).ended

theorem wp_backOff {run : Scheduling World}
    (admitted : Admitted limits run) (cursor : RetryCursor) (reservation : AttemptReservation)
    (providerId : String) : (backOff host cursor reservation providerId).wp
      (fun _ after => after.attempts = run.attempts ∧ Admitted limits after)
      (fun _ after => Ended limits after) run := by
  unfold backOff
  split_ifs
  · exact ⟨rfl, admitted⟩
  · rw [wp_bind]
    show ((orRefuse _ _ _) >>= _).wp _ _ _
    rw [wp_bind]
    exact wp_orRefuse (admitted.world _) ⟨rfl, admitted.world _⟩

theorem wp_journalIntent {run : Scheduling World}
    (admitted : Admitted limits run) (reservation : AttemptReservation) :
    (journalIntent settings reservation).wp
      (fun _ after => after.attempts = run.attempts ∧ Admitted limits after)
      (fun _ after => Ended limits after) run := by
  unfold journalIntent
  cases settings.journal with
  | none => exact ⟨rfl, admitted⟩
  | some journal =>
    show ((askHost _) >>= _).wp _ _ _
    rw [wp_bind]
    exact wp_orRefuse (admitted.world _) ⟨rfl, admitted.world _⟩

/-- **The attempt is made.** -/
theorem wp_driveAttempt {run : Scheduling World}
    (admitted : Admitted limits run) (cursor : RetryCursor) (reservation : AttemptReservation)
    (providerId : String) : (driveAttempt host settings cursor reservation providerId).wp
      (fun result after => after.attempts.length = run.attempts.length + 1 ∧
        Tried limits result after) (fun _ after => Ended limits after) run := by
  refine ⟨?_, admitted.tried fun retryable candid => (driven_explained host _ _ _ _ _ _).safe
    retryable candid⟩
  show (run.attempts ++ [reservation]).length = _
  rw [List.length_append, List.length_singleton]

theorem Tried.checked {run : Scheduling World} (tried : Tried limits result run) :
    Tried limits (checkSchema settings result) run := by
  obtain ⟨front, last, observed, safe, lastSafe⟩ := tried.safe
  refine ⟨tried.budget, tried.room, tried.bound, tried.paired, front, last, observed, safe,
    fun retryable => lastSafe ?_⟩
  cases result with
  | failed classification failure attemptedBytes refusal => exact retryable
  | settled responseBytes usage =>
    unfold checkSchema at retryable
    cases decoding : settings.schema with
    | none =>
      rw [decoding] at retryable
      exact absurd retryable not_retryable_settled
    | some decodes =>
      rw [decoding] at retryable
      simp only at retryable
      split_ifs at retryable
      · exact absurd retryable not_retryable_settled
      · obtain ⟨classification, _, _, _, same, permitted⟩ := retryable
        obtain ⟨rfl, -⟩ := AdapterAttemptResult.failed.inj same
        exact absurd permitted (by decide)

theorem Tried.world {run : Scheduling World} (tried : Tried limits result run) (world : World) :
    Tried limits result
      { run with
        world := world } :=
  ⟨tried.budget, tried.room, tried.bound, tried.paired, tried.safe⟩

theorem wp_journalSettled
    {run : Scheduling World} (tried : Tried limits result run) (reservation : AttemptReservation) :
    (journalSettled settings reservation result).wp
      (fun _ after => after.attempts = run.attempts ∧ Tried limits result after)
      (fun _ after => Ended limits after) run := by
  unfold journalSettled
  cases settings.journal with
  | none => exact ⟨rfl, tried⟩
  | some journal =>
    show ((askHost _) >>= _).wp _ _ _
    rw [wp_bind, askHost, wp_step]
    cases written : (journal.settled reservation result run.world).1 with
    | ok _ => exact ⟨rfl, tried.world _⟩
    | error detail => exact (tried.world _).ended

/-- Reporting a usage counts no call. -/
theorem wp_recordUsage
    {run : Scheduling World} (tried : Tried limits result run) (reservation : AttemptReservation)
    (usage : AdapterUsage) : (recordUsage reservation usage).wp
      (fun _ after => Tried limits result after) (fun _ after => Ended limits after) run := by
  unfold recordUsage
  split
  · split_ifs
    · exact tried
    · exact ⟨tried.budget, tried.room, tried.bound, tried.paired, tried.safe⟩
  · exact tried

/-- **The run returns, or the attempt may be repeated.** -/
theorem wp_conclude
    {run : Scheduling World} (tried : Tried limits result run) (cursor : RetryCursor)
    (reservation : AttemptReservation) : (conclude cursor reservation result).wp
      (fun _ after => after.attempts = run.attempts ∧ Kept limits after)
      (fun _ after => Ended limits after) run := by
  cases result with
  | settled responseBytes usage =>
    rw [conclude, wp_bind]
    exact wp_mono (wp_recordUsage tried reservation usage)
      (fun _ _ tried' => tried'.ended) fun _ _ => id
  | failed classification failure attemptedBytes refusal =>
    rw [conclude]
    split_ifs with final
    · exact tried.ended
    · refine ⟨rfl, tried.kept ⟨_, _, _, _, rfl, ?_⟩⟩
      exact (Bool.not_eq_false _).mp final

/-- **An attempt that has been admitted** is made and kept. -/
theorem wp_attemptOnce {run : Scheduling World}
    (admitted : Admitted limits run) (cursor : RetryCursor) (providerId : String)
    (reservation : AttemptReservation) :
    (attemptOnce host settings cursor providerId reservation).wp
      (fun _ after => after.attempts.length = run.attempts.length + 1 ∧ Kept limits after)
      (fun _ after => Ended limits after) run := by
  unfold attemptOnce
  rw [wp_bind]
  refine wp_mono (wp_backOff host admitted cursor reservation providerId) ?_ fun _ _ => id
  rintro cursor' waited ⟨same, admitted'⟩
  rw [wp_bind]
  refine wp_mono (wp_journalIntent settings admitted' reservation) ?_ fun _ _ => id
  rintro _ written ⟨same', admitted''⟩
  rw [wp_bind]
  refine wp_mono (wp_driveAttempt host settings admitted'' cursor' reservation providerId) ?_
    fun _ _ => id
  rintro result made ⟨one, tried⟩
  rw [wp_bind]
  refine wp_mono (wp_journalSettled settings (tried.checked settings) reservation) ?_
    fun _ _ => id
  rintro _ noted ⟨same'', tried'⟩
  rw [wp_bind, wp_step]
  have recorded : Tried limits (checkSchema settings result)
      { noted with
        evidence := noted.evidence ++ [(reservation, checkSchema settings result)] } :=
    ⟨tried'.budget, tried'.room, tried'.bound, tried'.paired, tried'.safe⟩
  refine wp_mono (wp_conclude recorded cursor' reservation) ?_ fun _ _ => id
  rintro next after ⟨last, kept⟩
  refine ⟨?_, kept⟩
  rw [last]
  show noted.attempts.length = _
  rw [same'', one, same', same]

/-- A bound on the turns that are left. A turn makes an attempt, or it goes from the retries of one
provider to the next one. -/
def turnsLeft (cursor : RetryCursor) (run : Scheduling World) : Nat :=
  2 * (maxRetainedAttempts - run.attempts.length) + if cursor.kind = .retry then 1 else 0

/-- **One turn** keeps what holds between the turns and brings the end nearer. -/
theorem wp_iterate {run : Scheduling World}
    (kept : Kept limits run) (cursor : RetryCursor) : (iterate host settings cursor).wp
      (fun next after => Kept limits after ∧ turnsLeft next after < turnsLeft cursor run)
      (fun _ after => Ended limits after) run := by
  unfold iterate
  rw [wp_bind, wp_get, wp_bind, wp_stopIf]
  refine ⟨fun _ => kept.ended, fun retained => ?_⟩
  rw [wp_bind, wp_ofOption]
  refine ⟨fun _ => kept.ended, fun slot _ => ?_⟩
  rw [wp_bind]
  refine wp_mono (wp_reserve host kept _) ?_ fun _ _ => id
  rintro reserved after ⟨same, refused, admitted⟩
  cases reserved with
  | ok reservation =>
    refine wp_mono (wp_attemptOnce host settings (admitted ⟨reservation, rfl⟩) cursor slot.id
      reservation) ?_ fun _ _ => id
    rintro next final ⟨one, kept'⟩
    refine ⟨kept', ?_⟩
    rw [same] at one
    unfold turnsLeft
    split_ifs <;> omega
  | error refusal =>
    have kept' := refused ⟨refusal, rfl⟩
    cases refusal with
    | retriesExhausted maxRetries =>
      show (iterate.refuseOrNext cursor (.retriesExhausted maxRetries)).wp _ _ _
      unfold iterate.refuseOrNext
      split_ifs with retrying
      · refine ⟨kept', ?_⟩
        unfold turnsLeft
        rw [same, if_pos retrying]
        simp
      · exact kept'.ended
    | _ => exact kept'.ended

/-- **Every run ends**, and all its attempts but the last one were safe. -/
theorem runLoop_spec {run : Scheduling World}
    (kept : Kept limits run) {cursor : RetryCursor} {fuel : Nat} (enough : turnsLeft cursor run < fuel) :
    ∃ ending, (runLoop host settings fuel cursor run).1 = some ending ∧
      Ended limits (runLoop host settings fuel cursor run).2 := by
  induction fuel generalizing cursor run with
  | zero => exact absurd enough (Nat.not_lt_zero _)
  | succ fuel ih =>
    unfold runLoop
    rcases wp_run (wp_iterate host settings kept cursor) with
      ⟨next, after, ran, kept', nearer⟩ | ⟨ending, after, ran, ended⟩
    · rw [ran]
      exact ih kept' (by omega)
    · rw [ran]
      exact ⟨ending, rfl, ended⟩

theorem runProjected_spec (cursor : RetryCursor) (ledger : ModelPolicyLedger) (world : World) :
    ∃ ending, (runProjected host settings cursor ledger world).1 = some ending ∧
      Ended ledger.limits (runProjected host settings cursor ledger world).2 := by
  have kept : Kept ledger.limits (⟨ledger, world, [], [], []⟩ : Scheduling World) :=
    ⟨rfl, Nat.zero_le _, Nat.zero_le _, rfl, List.forall_mem_nil _⟩
  unfold runProjected
  cases validatePlan settings with
  | error refusal => exact ⟨_, rfl, kept.ended⟩
  | ok _ =>
    refine runLoop_spec host settings kept ?_
    unfold turnsLeft
    split_ifs <;> simp

end Runs

/-- An attempt that is followed by one for which an adapter is made. -/
def Repeated (observed : List Attempt) (attempt : Attempt) : Prop :=
  ∃ earlier later, observed = earlier ++ attempt :: later ∧ ∃ next ∈ later, next.created = true

/-- No second attempt after output: the run ends after at most as many attempts as there are calls, and
an attempt that is followed by another one was not started, or it failed without any output, and its
class is permitted and declared. -/
structure RetriesSafely {World : Type} (budget : EffectiveModelBudget)
    (ran : Option Ending × Scheduling World) : Prop where
  ends : ran.1 ≠ none
  paired : ran.2.observed.length = ran.2.attempts.length
  bounded : ran.2.attempts.length ≤ budget.limits.maxCalls.val
  safe : ∀ attempt, Repeated ran.2.observed attempt → Safe attempt

/-- An adapter that answers one byte, and then that its capacity is exceeded without attempted bytes. The
world counts the polls. -/
def forgetful : Host Nat Unit where
  isCancelled world := (false, world)
  nowMillis world := (0, world)
  create _ world := (.ok (), world)
  capabilities _ _ := ⟨"a", [], false, [.providerReportedRetryable], .hostInjected, 9, 9⟩
  modelIdentity _ _ := none
  start _ _ world := (.ok (), world)
  poll _ world :=
    (if world % 2 = 0 then .event (.delta [1]) else .failed .capacityExceeded 0, world + 1)
  cancel _ _ world := world
  classify _ _ world := (.providerReportedRetryable, world)
  wait _ _ world := (.ok (), world)

def oneProvider : RunSettings Nat where
  providers := ⟨[⟨"a", true⟩]⟩
  request := ⟨[], 9⟩
  plan := ⟨⟨false, none, 0, 9⟩, 0, 0, 0, 2⟩
  schema := none
  models := none
  journal := none

def forgotten : Attempt :=
  ⟨true, some true, [.event (.delta [1]), .failed .capacityExceeded 0],
    some (.providerReportedRetryable, [.providerReportedRetryable])⟩

def twoCalls : EffectiveModelBudget :=
  ⟨⟨2, 1, 1, 9, 9, 9, 9, 9⟩, by decide, by decide, by decide⟩

end Semaprax.ModelPolicy
