/-
**What a run offers to its sink.**

Every journal that a run offers to its sink is the one it was started with and entries that it has
written itself. What it writes has the formats and the ranges that the reader asks for, but for one
field: the digest of a grant is a text of the gate.

* `JournalEntry.Written` — what is known of an entry that a run has written.
* `Upholds` — an invariant of the environment that the handlers keep, whatever is offered.
* `runLiveInvocation_upholds` — a run keeps it wherever it ends.
-/

import Semaprax.LiveInvocation.Documents
import Semaprax.LiveInvocation.Grammar
import Semaprax.LiveInvocation.Stranding

namespace Semaprax.LiveInvocation

open Library

/-- An entry that a run may write. The digest of a grant can be any text. -/
def JournalEntry.Written : JournalEntry → Prop
  | .authorizationConsumed turn _ => turn ≤ lastTurn
  | entry => entry.Readable

variable {entry : JournalEntry}

theorem JournalEntry.Readable.written (readable : entry.Readable) : entry.Written := by
  cases entry with
  | authorizationConsumed turn grant => exact readable.turn
  | _ => exact readable

theorem JournalEntry.Written.readable_iff (written : entry.Written) :
    entry.Readable ↔ ∀ turn grant, entry = .authorizationConsumed turn grant →
      looksLikeDigest grant = true := by
  constructor
  · rintro readable turn grant rfl
    exact readable.digests grant (List.mem_singleton_self grant)
  · intro granted
    cases entry with
    | authorizationConsumed turn grant =>
      refine ⟨written, fun digest member => ?_, trivial⟩
      rw [List.mem_singleton.mp member]
      exact granted turn grant rfl
    | _ => exact written

theorem written_text (room : entry.turn ≤ lastTurn)
    (none : entry.digests = []) (inRange : entry.InRange) : entry.Written :=
  JournalEntry.Readable.written ⟨room, fun digest member => by
    rw [none] at member
    exact absurd member List.not_mem_nil, inRange⟩

theorem written_digest {sha256 : Bytes → Bytes} {domain : String}
    {bytes : Bytes} (hashes : ∀ bytes, (sha256 bytes).length = 32) (room : entry.turn ≤ lastTurn)
    (only : entry.digests = [digest sha256 domain bytes]) (inRange : entry.InRange) :
    entry.Written :=
  JournalEntry.Readable.written ⟨room, fun digest member => by
    rw [only] at member
    rw [List.mem_singleton.mp member]
    exact looksLikeDigest_digest hashes domain bytes, inRange⟩

/-- A journal of entries that a run was started with and of those that it has written. -/
def Made (start journal : Journal) : Prop := ∀ entry ∈ journal, entry ∈ start ∨ entry.Written

theorem Made.push {start journal : Journal} (made : Made start journal)
    (written : entry.Written) : Made start (journal ++ [entry]) := by
  intro other member
  rcases List.mem_append.mp member with old | new
  · exact made other old
  · rw [List.mem_singleton.mp new]
    exact .inr written

section Environments

variable {E A B : Type}

/-- A call keeps an invariant of the environment. -/
def Leaves (holds : E → Prop) (call : E → A × E) : Prop := ∀ env, holds env → holds (call env).2

/-- Every handler keeps an invariant of the environment, and the sink does so when it is offered what
a run offers. -/
structure Upholds (start : Journal) (holds : E → Prop) (handlers : LiveInvocationHandlers E) :
    Prop where
  invoke : ∀ request, Leaves holds (handlers.invoke request)
  decode : ∀ turn response, Leaves holds (handlers.decode turn response)
  authorize : ∀ context, Leaves holds (handlers.authorize context)
  checkDeadline : Leaves holds handlers.checkDeadline
  checkPreDispatch : Leaves holds handlers.checkPreDispatch
  reserve : ∀ request, Leaves holds (handlers.reserve request)
  record : ∀ usage, Leaves holds (handlers.record usage)
  observe : ∀ turn, Leaves holds (handlers.observe turn)
  reduce : ∀ turn proposal, Leaves holds (handlers.reduce turn proposal)
  effect : ∀ effect, handlers.effect = some effect → ∀ turn grant, Leaves holds (effect turn grant)
  sink : ∀ sink, handlers.sink = some sink → ∀ journal, journal ≠ [] → Made start journal →
    Leaves holds (sink journal)
  isCancelled : Leaves holds handlers.isCancelled

variable {start journal : Journal} {holds : E → Prop} {handlers : LiveInvocationHandlers E}
  {ends : A → Prop}

/-- A part of a run keeps an invariant of the environment wherever it ends, and ends in certain ways
only. -/
def Keeping (holds : E → Prop) (ends : A → Prop) (part : Kernel E A) : Prop :=
  ∀ world : World E, holds world.env →
    part.wp (fun value after => holds after.env ∧ ends value) (fun _ after => holds after.env) world

theorem Keeping.after {part : Kernel E A} (keeping : Keeping holds ends part) {world : World E}
    (held : holds world.env) : holds (part world).2.env := by
  have kept := keeping world held
  unfold Prog.wp at kept
  cases ran : part world with
  | mk outcome after =>
    rw [ran] at kept
    cases outcome with
    | ok value => exact kept.1
    | error stop => exact kept

theorem keeping_ask {call : Call E A} (leaves : Leaves holds call) :
    Keeping holds (fun _ => True) (ask call) := by
  intro world held
  have kept := leaves world.env held
  unfold Prog.wp ask
  cases ran : call world.env with
  | mk answer env =>
    rw [ran] at kept
    cases answer with
    | none => exact kept
    | some answer => exact ⟨kept, trivial⟩

theorem keeping_note (event : Event) :
    Keeping holds (fun _ => True) (note event : Kernel E Unit) := fun _ held => ⟨held, trivial⟩

theorem keeping_persist (upholds : Upholds start holds handlers) (nonempty : journal ≠ [])
    (made : Made start journal) (dispatched : Nat) :
    Keeping holds (fun _ => True) (persist handlers journal dispatched) := by
  intro world held
  unfold Prog.wp persist
  cases sunk : handlers.sink with
  | none => exact ⟨held, trivial⟩
  | some sink =>
    have kept := upholds.sink sink sunk journal nonempty made world.env held
    dsimp only
    cases ran : sink journal world.env with
    | mk outcome env =>
      rw [ran] at kept
      cases outcome with
      | durable => exact ⟨kept, trivial⟩
      | failed _ | crashed _ => exact kept

theorem keeping_bind {part : Kernel E B} {rest : B → Kernel E A}
    (first : Keeping holds (fun _ => True) part) (later : ∀ value, Keeping holds ends (rest value)) :
    Keeping holds ends (part >>= rest) := by
  intro world held
  rw [wp_bind]
  exact wp_mono (first world held) (fun value after kept => later value after kept.1)
    fun _ _ => id

theorem keeping_pure {value : A} (ended : ends value) :
    Keeping holds ends (pure value : Kernel E A) := fun _ held => ⟨held, ended⟩

theorem keeping_stop (stop : Stop) : Keeping holds ends (Prog.stop stop : Kernel E A) :=
  fun _ held => held

end Environments

section Stages

variable {E : Type} {start journal : Journal} {holds : E → Prop} {call : KernelCall E}
  {turn dispatched : Nat}

/-- How a stage ends: with a run, or with a journal to go on with. -/
def Goes (start : Journal) : TurnEnd → Prop
  | .returned _ => True
  | .continued journal _ => Made start journal

variable (upholds : Upholds start holds call.handlers)
  (hashes : ∀ bytes, (call.sha256 bytes).length = 32) (room : turn ≤ lastTurn)

include upholds hashes room

variable {request : ModelInvocationRequest}

theorem conclude_upholds (made : Made start journal) (transition : TurnTransition) :
    Keeping holds (Goes start) (call.conclude journal turn transition dispatched) := by
  have close : ∀ (case : String) (bytes : Bytes) (outcome : LiveInvocationOutcome),
      case ∈ terminalCases → Keeping holds (Goes start) (do
        persist call.handlers (journal ++ [JournalEntry.transition turn case
          (call.carrierDigest bytes), .terminalOutcome turn case (call.carrierDigest bytes)])
          dispatched
        pure (.returned ⟨journal ++ [JournalEntry.transition turn case (call.carrierDigest bytes),
          .terminalOutcome turn case (call.carrierDigest bytes)], outcome, dispatched⟩)) := by
    intro case bytes outcome allowed
    refine keeping_bind (keeping_persist upholds
      (List.append_ne_nil_of_right_ne_nil _ (List.cons_ne_nil _ _)) ?_ dispatched)
      fun _ => keeping_pure trivial
    have moved : Made start (journal ++ [JournalEntry.transition turn case
        (call.carrierDigest bytes)]) :=
      made.push (written_digest hashes room rfl (List.mem_cons_of_mem _ allowed))
    have ended : JournalEntry.Written (.terminalOutcome turn case (call.carrierDigest bytes)) :=
      written_digest hashes room rfl allowed
    have closed := moved.push ended
    rwa [List.append_assoc, List.singleton_append] at closed
  cases transition with
  | «continue» => exact keeping_stop _
  | complete bytes => exact close "complete" bytes _ (by decide)
  | suspend bytes => exact close "suspend" bytes _ (by decide)
  | fail bytes => exact close "fail" bytes _ (by decide)

theorem closeTurn_upholds {entry : JournalEntry} (made : Made start journal)
    (written : entry.Written) (reason : String) :
    Keeping holds (Goes start) (call.closeTurn journal entry turn reason dispatched) :=
  keeping_bind (keeping_persist upholds push_ne_nil (made.push written) dispatched)
    fun _ => conclude_upholds upholds hashes room (made.push written) _

omit hashes room in
theorem selectTransition_upholds (proposal : Bytes) :
    Keeping holds (fun _ => True) (call.selectTransition turn proposal) := by
  refine keeping_bind (keeping_ask (upholds.reduce turn proposal)) fun transition => ?_
  cases limitTurns call.config.maxTurns turn transition with
  | fail bytes => exact keeping_pure trivial
  | «continue» | complete bytes | suspend bytes =>
    refine keeping_bind (keeping_ask upholds.checkDeadline) fun checked => ?_
    cases checked with
    | error refusal | ok done => exact keeping_pure trivial

theorem reduceTurn_upholds (made : Made start journal) (proposal : Bytes) :
    Keeping holds (Goes start) (call.reduceTurn turn proposal journal dispatched) := by
  refine keeping_bind (keeping_ask upholds.checkDeadline) fun checked => ?_
  cases checked with
  | error refusal => exact conclude_upholds upholds hashes room made _
  | ok done =>
    refine keeping_bind (selectTransition_upholds upholds proposal)
      fun transition => ?_
    cases transition with
    | «continue» =>
      have moved : Made start (journal ++ [JournalEntry.transition turn "continue"
          (call.carrierDigest [])]) :=
        made.push (written_digest hashes room rfl List.mem_cons_self)
      exact keeping_bind (keeping_persist upholds push_ne_nil moved dispatched)
        fun _ => keeping_pure moved
    | complete bytes | suspend bytes | fail bytes =>
      exact conclude_upholds upholds hashes room made _

theorem callEffect_upholds {effect : Nat → String → Call E (Except String Bytes)}
    (given : call.handlers.effect = some effect) (made : Made start journal) (grant : String)
    (proposal : Bytes) :
    Keeping holds (Goes start) (call.callEffect effect turn grant proposal journal dispatched) := by
  have failed : ∀ reason, (JournalEntry.effectFailed turn turnEffectOperation reason).Written :=
    fun reason => written_text room rfl trivial
  refine keeping_bind (keeping_ask upholds.isCancelled) fun cancelled => ?_
  cases cancelled with
  | true => exact closeTurn_upholds upholds hashes room made (failed _) _
  | false =>
    refine keeping_bind (keeping_ask upholds.checkDeadline) fun checked => ?_
    cases checked with
    | error refusal => exact closeTurn_upholds upholds hashes room made (failed _) _
    | ok done =>
      refine keeping_bind (keeping_note _) fun _ =>
        keeping_bind (keeping_ask (upholds.effect effect given turn grant)) fun answer => ?_
      cases answer with
      | ok observed =>
        have seen : ∀ domain, Made start (journal ++ [JournalEntry.effectObserved turn
            turnEffectOperation (digest call.sha256 domain observed)]) :=
          fun domain => made.push (written_digest hashes room rfl trivial)
        exact keeping_bind (keeping_persist upholds push_ne_nil (seen _) dispatched)
          fun _ => reduceTurn_upholds upholds hashes room (seen _) proposal
      | error reason => exact closeTurn_upholds upholds hashes room made (failed _) _

theorem intendEffect_upholds (made : Made start journal) (grant : String) (proposal : Bytes) :
    Keeping holds (Goes start) (call.intendEffect turn grant proposal journal dispatched) := by
  unfold KernelCall.intendEffect
  cases given : call.handlers.effect with
  | none => exact reduceTurn_upholds upholds hashes room made proposal
  | some effect =>
    have intended : ∀ domain, Made start (journal ++ [JournalEntry.effectIntent turn
        turnEffectOperation (digest call.sha256 domain (asBytes grant))]) :=
      fun domain => made.push (written_digest hashes room rfl trivial)
    exact keeping_bind (keeping_persist upholds push_ne_nil (intended _) dispatched)
      fun _ => callEffect_upholds upholds hashes room given (intended _) grant proposal

theorem authorizeTurn_upholds (made : Made start journal) (observationDigest : String)
    (proposal : Bytes) :
    Keeping holds (Goes start)
      (call.authorizeTurn turn observationDigest proposal journal dispatched) := by
  have refused : ∀ reason, (JournalEntry.authorizationRefused turn reason).Written :=
    fun reason => written_text room rfl trivial
  refine keeping_bind (keeping_ask upholds.isCancelled) fun cancelled => ?_
  cases cancelled with
  | true => exact closeTurn_upholds upholds hashes room made (refused _) _
  | false =>
    refine keeping_bind (keeping_ask upholds.checkDeadline) fun checked => ?_
    cases checked with
    | error refusal => exact closeTurn_upholds upholds hashes room made (refused _) _
    | ok done =>
      refine keeping_bind (keeping_ask (upholds.authorize _)) fun answer => ?_
      cases answer with
      | ok grant =>
        have consumed : Made start (journal ++ [JournalEntry.authorizationConsumed turn
            grant]) := made.push room
        exact keeping_bind (keeping_persist upholds push_ne_nil consumed dispatched)
          fun _ => intendEffect_upholds upholds hashes room consumed grant proposal
      | error refusal => exact closeTurn_upholds upholds hashes room made (refused _) _

theorem decodeResponse_upholds (made : Made start journal) (observationDigest : String)
    (response : Bytes) :
    Keeping holds (Goes start)
      (call.decodeResponse turn observationDigest response journal dispatched) := by
  have refused : ∀ reason, Made start (journal ++ [JournalEntry.proposalRefused turn reason]) :=
    fun reason => made.push (written_text room rfl trivial)
  refine keeping_bind (keeping_ask upholds.checkDeadline) fun checked => ?_
  cases checked with
  | error refusal => exact conclude_upholds upholds hashes room (refused _) _
  | ok done =>
    refine keeping_bind (keeping_ask (upholds.decode turn response)) fun decoded => ?_
    cases decoded with
    | admitted proposal =>
      have admitted : ∀ domain, Made start (journal ++ [JournalEntry.proposalAdmitted turn
          (digest call.sha256 domain proposal)]) :=
        fun domain => made.push (written_digest hashes room rfl trivial)
      exact keeping_bind (keeping_persist upholds push_ne_nil (admitted _) dispatched) fun _ =>
        authorizeTurn_upholds upholds hashes room (admitted _) observationDigest proposal
    | refused reason => exact conclude_upholds upholds hashes room (refused _) _

theorem failResponse_upholds {attemptedBytes : Nat}
    (named : request.turn = turn) (made : Made start journal) (failure reason : String)
    (counted : attemptedBytes < 2 ^ 64) :
    Keeping holds (Goes start)
      (call.failResponse request failure attemptedBytes reason journal dispatched) := by
  subst named
  have failed : Made start (journal ++ [JournalEntry.responseFailed request.turn failure
      attemptedBytes]) := made.push (written_text room rfl counted)
  exact keeping_bind (keeping_persist upholds push_ne_nil failed dispatched) fun _ =>
    keeping_bind (keeping_ask (upholds.record _)) fun _ =>
      conclude_upholds upholds hashes room failed _

theorem recordResponse_upholds (named : request.turn = turn)
    (made : Made start journal) (observationDigest : String) (outcome : ModelInvocationOutcome) :
    Keeping holds (Goes start)
      (call.recordResponse request observationDigest outcome journal dispatched) := by
  have capped : ∀ bytes, min bytes (saturatingNext maxUsize call.config.maxResponseBytes) <
      2 ^ 64 := fun bytes => by
    have most : maxUsize < 2 ^ 64 := by norm_num [maxUsize]
    unfold saturatingNext
    omega
  unfold KernelCall.recordResponse
  dsimp only
  cases limitResponse call.config.maxResponseBytes outcome with
  | settled response =>
    refine keeping_bind (keeping_ask upholds.checkDeadline) fun checked => ?_
    cases checked with
    | error refusal =>
      exact failResponse_upholds upholds hashes room named made _ _ (capped response.length)
    | ok done =>
      subst named
      have responded : ∀ domain, Made start (journal ++ [JournalEntry.responseRecorded
          request.turn (digest call.sha256 domain response) response]) :=
        fun domain => made.push (written_digest hashes room rfl trivial)
      exact keeping_bind (keeping_persist upholds push_ne_nil (responded _) dispatched)
        fun _ => keeping_bind (keeping_ask (upholds.record _)) fun _ =>
          decodeResponse_upholds upholds hashes room (responded _) observationDigest response
  | failed failure attemptedBytes =>
    exact failResponse_upholds upholds hashes room named made _ _ (capped attemptedBytes)

omit upholds hashes room in
theorem unanswered_written (room : turn ≤ lastTurn) (failure : String) :
    (JournalEntry.responseFailed turn failure 0).Written :=
  written_text room rfl (Nat.two_pow_pos 64)

theorem dispatchRequest_upholds (named : request.turn = turn)
    (made : Made start journal) (observationDigest : String) :
    Keeping holds (Goes start)
      (call.dispatchRequest request observationDigest journal dispatched) := by
  refine keeping_bind (keeping_ask upholds.checkPreDispatch) fun checked => ?_
  cases checked with
  | error refusal =>
    subst named
    exact closeTurn_upholds upholds hashes room made (unanswered_written room refusal) _
  | ok done =>
    refine keeping_bind (keeping_ask upholds.isCancelled) fun cancelled => ?_
    cases cancelled with
    | true =>
      show Keeping holds (Goes start) (call.recordResponse request observationDigest
        (.failed .cancelled 0) journal dispatched)
      exact recordResponse_upholds upholds hashes room named made observationDigest _
    | false =>
      exact keeping_bind (keeping_note _) fun _ =>
        keeping_bind (keeping_ask (upholds.invoke request)) fun outcome =>
          recordResponse_upholds upholds hashes room named made observationDigest outcome

theorem reserveRequest_upholds (named : request.turn = turn)
    (made : Made start journal) (observationDigest : String) :
    Keeping holds (Goes start)
      (call.reserveRequest request observationDigest journal dispatched) := by
  subst named
  have intended : ∀ (request' : ModelInvocationRequest) (reserved : I64),
      request'.turn = request.turn → Made start (journal ++ [JournalEntry.requestIntent
        request'.turn (request'.digest call.sha256) reserved]) :=
    fun request' reserved same => made.push (written_digest hashes (same ▸ room) rfl trivial)
  refine keeping_bind (keeping_ask (upholds.reserve request)) fun answer => ?_
  cases answer with
  | error refusal =>
    exact keeping_bind (keeping_persist upholds push_ne_nil (intended request 0 rfl) dispatched)
      fun _ => closeTurn_upholds upholds hashes room (intended request 0 rfl)
        (unanswered_written room refusal) _
  | ok reserved =>
    have reserves := intended
      { request with
        effectiveBudget := reserved } reserved rfl
    refine keeping_bind (keeping_persist upholds push_ne_nil reserves dispatched) fun _ => ?_
    refine dispatchRequest_upholds upholds hashes room ?_ reserves observationDigest
    rfl

theorem turnFrom_upholds (named : looksLikeDigest call.config.identity.digest = true)
    (made : Made start journal) :
    Keeping holds (Goes start) (call.turnFrom turn journal dispatched) := by
  refine keeping_bind (keeping_ask upholds.isCancelled) fun cancelled => ?_
  cases cancelled with
  | true => exact keeping_pure trivial
  | false =>
    refine keeping_bind (keeping_ask (upholds.observe turn)) fun observation => ?_
    have opened : ∀ domain, Made start (journal ++ [JournalEntry.turnOpened turn
        call.config.identity.digest (digest call.sha256 domain observation)]) := fun domain =>
      made.push (JournalEntry.Readable.written ⟨room, fun digest member => by
        rcases List.mem_pair.mp member with rfl | rfl
        · exact named
        · exact looksLikeDigest_digest hashes _ _, trivial⟩)
    refine keeping_bind (keeping_persist upholds push_ne_nil (opened _) dispatched) fun _ =>
      keeping_bind (keeping_ask upholds.isCancelled) fun cancelled => ?_
    cases cancelled with
    | true => exact keeping_pure trivial
    | false => exact reserveRequest_upholds upholds hashes room rfl (opened _) _

omit room in
theorem turnsFrom_upholds (named : looksLikeDigest call.config.identity.digest = true)
    (fuel : Nat) : ∀ (turn : Nat) (journal : Journal) (dispatched : Nat), turn ≤ lastTurn →
      Made start journal →
        Keeping holds (fun _ => True) (call.turnsFrom fuel turn journal dispatched) := by
  induction fuel with
  | zero => exact fun _ _ _ _ _ => keeping_stop _
  | succ fuel ih =>
    intro turn journal dispatched room made world held
    rw [KernelCall.turnsFrom, wp_bind]
    refine wp_mono (turnFrom_upholds upholds hashes room named made world held)
      (fun ending after kept => ?_) fun _ _ => id
    cases ending with
    | returned run => exact ⟨kept.1, trivial⟩
    | continued journal dispatched =>
      exact ih _ journal dispatched (min_le_right _ _) kept.2 after kept.1

omit room in
/-- **A run keeps every invariant** that its handlers keep and that its sink keeps when it is offered
journals of entries that the run was started with or has written. -/
theorem runLiveInvocation_upholds (named : looksLikeDigest call.config.identity.digest = true) :
    Keeping holds (fun _ => True) (call.runLiveInvocation start) := by
  have made : Made start start := fun _ member => .inl member
  rcases runLiveInvocation_starts call start with ⟨stop, same, -⟩ | ⟨same, -⟩ |
    ⟨turn, pending, same, scans, -⟩
  · rw [same]
    exact keeping_stop stop
  · rw [same]
    exact keeping_pure trivial
  · rw [same]
    have walks : Walks call.config.identity.digest .start start
        ⟨.needTurnOpened, turn, false, pending⟩ := scanFrom_eq_ok.mp scans
    have steady := walks.steady ⟨Nat.zero_le _, fun waiting => by cases waiting⟩
    exact turnsFrom_upholds upholds hashes named _ turn start 0 steady.bounded made

end Stages

section Sinks

variable {S E A : Type}

/-- A call that leaves the sink alone. -/
def aside (call : E → A × E) : S × E → A × S × E := fun env =>
  ((call env.2).1, env.1, (call env.2).2)

def sinkHandlers (handlers : LiveInvocationHandlers E)
    (sink : Journal → S × E → Persisted × S × E) : LiveInvocationHandlers (S × E) where
  schemaDigest := handlers.schemaDigest
  invoke := fun request => aside (handlers.invoke request)
  decode := fun turn response => aside (handlers.decode turn response)
  authorize := fun context => aside (handlers.authorize context)
  checkDeadline := aside handlers.checkDeadline
  checkPreDispatch := aside handlers.checkPreDispatch
  reserve := fun request => aside (handlers.reserve request)
  record := fun usage => aside (handlers.record usage)
  observe := fun turn => aside (handlers.observe turn)
  reduce := fun turn proposal => aside (handlers.reduce turn proposal)
  effect := handlers.effect.map fun effect turn grant => aside (effect turn grant)
  sink := some sink
  isCancelled := aside handlers.isCancelled

theorem sinkHandlers_upholds {start : Journal} {holds : S → Prop}
    (handlers : LiveInvocationHandlers E) {sink : Journal → S × E → Persisted × S × E}
    (kept : ∀ journal, journal ≠ [] → Made start journal →
      Leaves (fun env => holds env.1) (sink journal)) :
    Upholds start (fun env => holds env.1) (sinkHandlers handlers sink) where
  invoke := fun _ _ => id
  decode := fun _ _ _ => id
  authorize := fun _ _ => id
  checkDeadline := fun _ => id
  checkPreDispatch := fun _ => id
  reserve := fun _ _ => id
  record := fun _ _ => id
  observe := fun _ _ => id
  reduce := fun _ _ _ => id
  effect := by
    rintro effect given turn grant env held
    obtain ⟨inner, -, rfl⟩ := Option.map_eq_some_iff.mp given
    exact held
  sink := by
    intro given same
    cases same
    exact kept
  isCancelled := fun _ => id

end Sinks

end Semaprax.LiveInvocation
