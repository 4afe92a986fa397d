/-
**Runs of a model policy ledger** (`model_budget_policy/ledger.rs`).

Any sequence of requests and outcome records, whatever the clock reads and whenever a call is
cancelled.

* `perform_withUsage` — the records of outcomes have no say in what is answered.
* `run_resumed` — at every point the ledger is the one that its reservations are resumed to.
* `ledger_accountable` — at every point of every run the reservations are accounted for, a refusal
  changes nothing, and a ledger resumed from them answers whatever follows in the same way.
-/

import Semaprax.ModelPolicy.Accounting

namespace Semaprax.ModelPolicy

open Library

/-- A call, with what it observes: whether it is cancelled, and what the clock reads. -/
inductive Call
  | reserve (cancelled : Bool) (nowMillis : I64) (request : AttemptRequest)
  | record (usage : AttemptUsage)

inductive Answer
  | reserved (result : Except Fault AttemptReservation)
  | recorded

def ModelPolicyLedger.perform (ledger : ModelPolicyLedger) : Call → Answer × ModelPolicyLedger
  | .reserve cancelled nowMillis request =>
    (.reserved (reserveAttempt cancelled nowMillis request ledger).1,
      (reserveAttempt cancelled nowMillis request ledger).2)
  | .record usage => (.recorded, (recordOutcome usage ledger).2)

theorem perform_reserve {ledger after : ModelPolicyLedger} {cancelled : Bool} {nowMillis : I64}
    {request : AttemptRequest} {result : Except Fault AttemptReservation}
    (ran : ModelPolicyLedger.reserveAttempt cancelled nowMillis request ledger = (result, after)) :
    ledger.perform (.reserve cancelled nowMillis request) = (.reserved result, after) :=
  congrArg (fun pair : Except Fault AttemptReservation × ModelPolicyLedger =>
    (Answer.reserved pair.1, pair.2)) ran

/-- A ledger with the answers it has given. -/
structure Session where
  ledger : ModelPolicyLedger
  answers : List Answer

namespace Session

def step (session : Session) (call : Call) : Session :=
  ⟨(session.ledger.perform call).2, session.answers ++ [(session.ledger.perform call).1]⟩

def run (ledger : ModelPolicyLedger) (calls : List Call) : Session :=
  calls.foldl step ⟨ledger, []⟩

def admitted (session : Session) : List AttemptReservation :=
  session.answers.filterMap fun answer =>
    match answer with
    | .reserved (.ok reservation) => some reservation
    | _ => none

theorem step_eq {session : Session} {call : Call} {answer : Answer} {after : ModelPolicyLedger}
    (performed : session.ledger.perform call = (answer, after)) :
    session.step call = ⟨after, session.answers ++ [answer]⟩ := by
  unfold step
  rw [performed]

theorem run_append (ledger : ModelPolicyLedger) (calls : List Call) (call : Call) :
    run ledger (calls ++ [call]) = (run ledger calls).step call := by
  unfold run
  rw [List.foldl_append]
  rfl

end Session

/-- The ledger with other records of outcomes. -/
def ModelPolicyLedger.withUsage (usage : List AttemptUsage) (ledger : ModelPolicyLedger) :
    ModelPolicyLedger :=
  { ledger with
    usage := usage }

section Usage

variable {ledger : ModelPolicyLedger} (usage : List AttemptUsage)

theorem restore_withUsage (reservation : AttemptReservation) :
    (ledger.withUsage usage).restore reservation = (ledger.restore reservation).withUsage usage := by
  unfold ModelPolicyLedger.restore
  cases reservation.kind <;> rfl

theorem commit_withUsage (request : AttemptRequest) (requestedTokens : U64) :
    Prog.Mirrors (ModelPolicyLedger.withUsage usage)
      (ModelPolicyLedger.commit request requestedTokens)
      (ModelPolicyLedger.commit request requestedTokens) ledger := by
  unfold ModelPolicyLedger.commit
  obtain ⟨kind, providerId, contextTokens, outputTokens, cost, prior⟩ := request
  cases kind <;>
  · refine .get_bind (.set_bind (.bind (Prog.mirrors_ofOption _ _) fun tokens _ => ?_))
    exact .set_bind (.bind (Prog.mirrors_ofOption _ _) fun cost _ => rfl)

theorem mirrors_check (result : Except AttemptRefusal Unit) :
    Prog.Mirrors (ModelPolicyLedger.withUsage usage) (check result) (check result) ledger := by
  cases result <;> rfl

theorem reserveAttempt_withUsage (cancelled : Bool) (nowMillis : I64) (request : AttemptRequest) :
    Prog.Mirrors (ModelPolicyLedger.withUsage usage)
      (ModelPolicyLedger.reserveAttempt cancelled nowMillis request)
      (ModelPolicyLedger.reserveAttempt cancelled nowMillis request) ledger := by
  unfold ModelPolicyLedger.reserveAttempt
  refine .bind (Prog.mirrors_stopIf _ _) fun _ _ => .get_bind ?_
  refine .bind (Prog.mirrors_stopIf _ _) fun _ _ => ?_
  refine .bind (Prog.mirrors_stopIf _ _) fun _ _ => ?_
  refine .bind (mirrors_check usage _) fun _ _ => ?_
  refine .bind (Prog.mirrors_stopIf _ _) fun _ _ => ?_
  refine .bind (Prog.mirrors_stopIf _ _) fun _ _ => ?_
  refine .bind (Prog.mirrors_ofOption _ _) fun _ _ => ?_
  refine .bind (Prog.mirrors_stopIf _ _) fun _ _ => ?_
  refine .bind (Prog.mirrors_ofOption _ _) fun _ _ => ?_
  refine .bind (Prog.mirrors_stopIf _ _) fun _ _ => ?_
  refine .bind (Prog.mirrors_stopIf _ _) fun _ _ => ?_
  exact commit_withUsage usage request _

theorem Accounted.withUsage {admitted : List AttemptReservation}
    (accounted : Accounted ledger admitted) : Accounted (ledger.withUsage usage) admitted :=
  { accounted with }

/-- What is answered does not depend on the records, and ledgers that differ in them stay so. -/
theorem perform_withUsage (call : Call) : ∃ later, (ledger.withUsage usage).perform call =
      ((ledger.perform call).1, (ledger.perform call).2.withUsage later) := by
  cases call with
  | reserve cancelled nowMillis request =>
    have mirrored : ModelPolicyLedger.reserveAttempt cancelled nowMillis request
        (ledger.withUsage usage) =
          ((ModelPolicyLedger.reserveAttempt cancelled nowMillis request ledger).1,
            (ModelPolicyLedger.reserveAttempt cancelled nowMillis request ledger).2.withUsage
              usage) := reserveAttempt_withUsage usage cancelled nowMillis request
    exact ⟨usage, perform_reserve mirrored⟩
  | record outcome => exact ⟨usage ++ [outcome], rfl⟩

theorem run_withUsage (calls : List Call) :
    (Session.run (ledger.withUsage usage) calls).answers = (Session.run ledger calls).answers ∧
      ∃ later, (Session.run (ledger.withUsage usage) calls).ledger =
        (Session.run ledger calls).ledger.withUsage later := by
  induction calls using List.reverseRecOn with
  | nil => exact ⟨rfl, usage, rfl⟩
  | append_singleton calls call ih =>
    obtain ⟨answers, before, same⟩ := ih
    rw [Session.run_append, Session.run_append]
    generalize Session.run (ledger.withUsage usage) calls = first at answers same ⊢
    generalize Session.run ledger calls = second at answers same ⊢
    obtain ⟨firstLedger, firstAnswers⟩ := first
    obtain ⟨secondLedger, secondAnswers⟩ := second
    obtain rfl : firstAnswers = secondAnswers := answers
    obtain rfl : firstLedger = secondLedger.withUsage before := same
    obtain ⟨later, performed⟩ : ∃ later, (secondLedger.withUsage before).perform call =
        ((secondLedger.perform call).1, (secondLedger.perform call).2.withUsage later) :=
      perform_withUsage before call
    unfold Session.step
    simp only [performed, true_and]
    exact ⟨later, rfl⟩

end Usage

/-- What holds of a ledger after some calls: its account, that a refusal changes nothing and nothing
panics, and that the ledger resumed from its reservations answers alike whatever follows. -/
structure Accountable (limits : EffectiveModelBudget) (providers : ProviderPolicy)
    (deadlineMillis : Option I64) (session : Session) : Prop where
  bound : session.ledger.limits = limits
  accounted : Accounted session.ledger session.admitted
  refused : ∀ cancelled nowMillis request fault after,
    ModelPolicyLedger.reserveAttempt cancelled nowMillis request session.ledger =
      (.error fault, after) → after = session.ledger ∧ fault ≠ .panicked
  resumed : ∀ calls, (Session.run session.ledger calls).answers =
    (Session.run (.resume limits providers deadlineMillis session.admitted) calls).answers

section Runs

variable (limits : EffectiveModelBudget) (providers : ProviderPolicy) (deadlineMillis : Option I64)

theorem resume_append (admitted : List AttemptReservation) (reservation : AttemptReservation) :
    ModelPolicyLedger.resume limits providers deadlineMillis (admitted ++ [reservation]) =
      (ModelPolicyLedger.resume limits providers deadlineMillis admitted).restore reservation := by
  unfold ModelPolicyLedger.resume
  rw [List.foldl_append]
  rfl

theorem resume_limits (admitted : List AttemptReservation) :
    (ModelPolicyLedger.resume limits providers deadlineMillis admitted).limits = limits := by
  induction admitted using List.reverseRecOn with
  | nil => rfl
  | append_singleton admitted reservation ih => rw [resume_append, restore_limits, ih]

theorem admitted_append (ledger : ModelPolicyLedger) (answers : List Answer) (answer : Answer) :
    Session.admitted ⟨ledger, answers ++ [answer]⟩ =
      Session.admitted ⟨ledger, answers⟩ ++ Session.admitted ⟨ledger, [answer]⟩ :=
  List.filterMap_append

omit limits providers deadlineMillis in
/-- What one call comes to: it admits a reservation that fits and that has passed the checks of its
kind, or it admits nothing and changes the records of outcomes at most. -/
theorem Session.step_cases {session : Session}
    (accounted : Accounted session.ledger session.admitted) (call : Call) :
    ((session.step call).admitted = session.admitted ∧
      ∃ usage, (session.step call).ledger = session.ledger.withUsage usage) ∨
    ∃ request reservation, session.ledger.requireKind request = .ok () ∧
      reservation.kind = request.kind ∧ reservation.providerId = request.providerId ∧
      Fits session.ledger reservation ∧
      (session.step call).ledger = session.ledger.restore reservation ∧
      (session.step call).admitted = session.admitted ++ [reservation] := by
  obtain ⟨ledger, answers⟩ := session
  cases call with
  | record outcome =>
    exact .inl ⟨(admitted_append ..).trans (List.append_nil _), ledger.usage ++ [outcome], rfl⟩
  | reserve cancelled nowMillis request =>
    rcases wp_run (reserveAttempt_spec accounted.within cancelled nowMillis request) with
      ⟨reservation, after, ran, fits, rfl⟩ | ⟨fault, after, ran, rfl, -⟩
    · rw [Session.step_eq (perform_reserve ran)]
      have named := @reserveAttempt_named ledger cancelled nowMillis request
      unfold Prog.wp at named
      rw [ran] at named
      exact .inr ⟨request, reservation, named.1, named.2.1, named.2.2, fits, rfl,
        admitted_append ..⟩
    · rw [Session.step_eq (perform_reserve ran)]
      exact .inl ⟨(admitted_append ..).trans (List.append_nil _), after.usage, rfl⟩

/-- At every point the reservations are accounted for, and the ledger is the one that they are resumed
to, with its own records. -/
theorem run_resumed (calls : List Call) :
    let session := Session.run (.new limits providers deadlineMillis) calls
    Accounted session.ledger session.admitted ∧
      ∃ usage, session.ledger =
        (ModelPolicyLedger.resume limits providers deadlineMillis session.admitted).withUsage
          usage := by
  intro session
  subst session
  induction calls using List.reverseRecOn with
  | nil => exact ⟨new_accounted limits providers deadlineMillis, [], rfl⟩
  | append_singleton calls call ih =>
    rw [Session.run_append]
    generalize Session.run (.new limits providers deadlineMillis) calls = session at ih ⊢
    obtain ⟨accounted, usage, resumed⟩ := ih
    rcases Session.step_cases accounted call with ⟨admitted, later, moved⟩ |
      ⟨_, reservation, -, -, -, fits, moved, admitted⟩
    · rw [admitted, moved]
      refine ⟨accounted.withUsage later, later, ?_⟩
      exact (congrArg (ModelPolicyLedger.withUsage later) resumed).trans rfl
    · rw [admitted, moved]
      refine ⟨accounted.reserved fits, usage, ?_⟩
      rw [resume_append, ← restore_withUsage, ← resumed]

/-- **Every run of a ledger is accountable**: the limits hold and the counters are the counts and the
sums of what was admitted, a refusal changes nothing, no commit fails, and the ledger resumed from the
reservations answers every further sequence of calls as the original does. -/
theorem ledger_accountable (calls : List Call) : Accountable limits providers deadlineMillis
      (Session.run (.new limits providers deadlineMillis) calls) := by
  obtain ⟨accounted, usage, resumed⟩ := run_resumed limits providers deadlineMillis calls
  generalize Session.run (.new limits providers deadlineMillis) calls = session
    at accounted resumed ⊢
  exact {
    bound := by
      rw [resumed]
      exact resume_limits limits providers deadlineMillis session.admitted
    accounted := accounted
    refused := fun cancelled nowMillis request fault after ran => by
      rcases wp_run (reserveAttempt_spec accounted.within cancelled nowMillis request) with
        ⟨reservation, later, same, -⟩ | ⟨other, later, same, kept⟩
      · rw [ran] at same
        exact nomatch same
      · rw [ran] at same
        obtain ⟨equal, rfl⟩ := Prod.mk.inj same
        obtain rfl := Except.error.inj equal
        exact kept
    resumed := fun calls => by
      rw [resumed]
      exact (run_withUsage usage calls).1 }

end Runs

end Semaprax.ModelPolicy
