/-
**What a run keeps** (`live_invocation/kernel.rs`).

The safety of the log that a run leaves, and one lemma a stage that the stage keeps it.

* `Safe` — every journal persisted is accepted, a turn's model and effect are each called once, after
  the records that allow it, and the reservations stored are within a budget predicate.
* `At` — the run holds a journal that the phase machine takes to a given point, of which the store
  holds a prefix.
* `Keeps` — the handlers keep a budget invariant over the reservations of the journal in hand.
* `turnsFrom_safe` / `runLiveInvocation_safe` — a whole run keeps the log safe wherever it stops, and
  neither panics nor runs out of fuel.
-/

import Semaprax.LiveInvocation.Kernel

namespace Semaprax.LiveInvocation

open Library

def dispatchedRequests : List Event → List ModelInvocationRequest
  | [] => []
  | .invoked request :: log => dispatchedRequests log ++ [request]
  | _ :: log => dispatchedRequests log

def calledTurns : List Event → List Nat
  | [] => []
  | .called turn _ :: log => calledTurns log ++ [turn]
  | _ :: log => calledTurns log

def EndsInIntent (journal : Journal) (request : ModelInvocationRequest) : Prop :=
  ∃ front digest, journal =
    front ++ [JournalEntry.requestIntent request.turn digest request.effectiveBudget]

def Authorized (journal : Journal) (turn : Nat) : Prop :=
  (∃ grant, .authorizationConsumed turn grant ∈ journal) ∧
    ∃ operation digest, .effectIntent turn operation digest ∈ journal

/-- What may be done to the outside after a log. -/
def Allowed (invocation : String) (log : List Event) : Event → Prop
  | .persisted journal => Accepted invocation journal
  | .invoked request =>
    request.turn ∉ (dispatchedRequests log).map (·.turn) ∧ EndsInIntent (stored log) request
  | .called turn _ => turn ∉ calledTurns log ∧ Authorized (stored log) turn

def Ordered (invocation : String) : List Event → Prop
  | [] => True
  | event :: log => Allowed invocation log event ∧ Ordered invocation log

/-- The log is ordered, the store is within the budget, and it holds the intents of all calls. -/
structure Safe (invocation : String) (within : List I64 → Prop) (log : List Event) : Prop where
  ordered : Ordered invocation log
  budget : within (reservations (stored log))
  charged : ((dispatchedRequests log).map (·.effectiveBudget)).Sublist (reservations (stored log))
  requested : ∀ request ∈ dispatchedRequests log,
    ∃ digest amount, .requestIntent request.turn digest amount ∈ stored log
  intended : ∀ turn ∈ calledTurns log, ∃ operation digest,
    .effectIntent turn operation digest ∈ stored log

section Log

variable {invocation : String} {within : List I64 → Prop} {log : List Event}

variable {front : Journal}

section InOrder

variable (ordered : Ordered invocation log)

include ordered

theorem Ordered.allowed {later earlier : List Event}
    {event : Event} (split : log = later ++ event :: earlier) :
    Allowed invocation earlier event := by
  induction later generalizing log with
  | nil =>
    subst split
    exact ordered.1
  | cons newest later ih =>
    subst split
    exact ih ordered.2 rfl

theorem Ordered.accepted {journal : Journal}
    (persisted : .persisted journal ∈ log) : Accepted invocation journal := by
  obtain ⟨later, earlier, split⟩ := List.append_of_mem persisted
  exact ordered.allowed split

theorem Ordered.stored_accepted : stored log = [] ∨ Accepted invocation (stored log) := by
  induction log with
  | nil => exact .inl rfl
  | cons event log ih =>
    cases event with
    | persisted journal => exact .inr ordered.1
    | invoked request => exact ih ordered.2
    | called turn grant => exact ih ordered.2

theorem Ordered.dispatched_nodup : ((dispatchedRequests log).map (·.turn)).Nodup := by
  induction log with
  | nil => exact List.nodup_nil
  | cons event log ih =>
    cases event with
    | persisted journal => exact ih ordered.2
    | called turn grant => exact ih ordered.2
    | invoked request =>
      show ((dispatchedRequests log ++ [request]).map (·.turn)).Nodup
      rw [List.map_append, List.map_singleton]
      exact (ih ordered.2).append (List.nodup_singleton _)
        (List.disjoint_singleton.mpr ordered.1.1)

theorem Ordered.called_nodup : (calledTurns log).Nodup := by
  induction log with
  | nil => exact List.nodup_nil
  | cons event log ih =>
    cases event with
    | persisted journal => exact ih ordered.2
    | invoked request => exact ih ordered.2
    | called turn grant =>
      exact (ih ordered.2).append (List.nodup_singleton _)
        (List.disjoint_singleton.mpr ordered.1.1)

end InOrder

theorem reservations_push {journal : Journal} {entry : JournalEntry}
    (unreserved : entry.reserved = none) :
    reservations (journal ++ [entry]) = reservations journal := by
  unfold reservations
  rw [List.filterMap_append, List.filterMap_cons_none unreserved, List.filterMap_nil,
    List.append_nil]

theorem reservations_intent (journal : Journal) (turn : Nat) (digest : String) (amount : I64) :
    reservations (journal ++ [JournalEntry.requestIntent turn digest amount]) =
      reservations journal ++ [amount] := by
  unfold reservations
  rw [List.filterMap_append]
  rfl

theorem reservations_sublist {journal : Journal} (before : front <+: journal) :
    (reservations front).Sublist (reservations journal) :=
  (before.filterMap JournalEntry.reserved).sublist

theorem Safe.persisted (safe : Safe invocation within log) {journal : Journal}
    (kept : stored log <+: journal) (accepted : Accepted invocation journal)
    (budget : within (reservations journal)) :
    Safe invocation within (.persisted journal :: log) where
  ordered := ⟨accepted, safe.ordered⟩
  budget := budget
  charged := safe.charged.trans (reservations_sublist kept)
  requested := fun request member => by
    obtain ⟨digest, amount, recorded⟩ := safe.requested request member
    exact ⟨digest, amount, kept.subset recorded⟩
  intended := fun turn member => by
    obtain ⟨operation, digest, recorded⟩ := safe.intended turn member
    exact ⟨operation, digest, kept.subset recorded⟩

theorem Safe.invoked (safe : Safe invocation within log) {request : ModelInvocationRequest}
    {digest : String} (fresh : ∀ other ∈ dispatchedRequests log, other.turn < request.turn)
    (intent : stored log = front ++
      [JournalEntry.requestIntent request.turn digest request.effectiveBudget])
    (charged : ((dispatchedRequests log).map (·.effectiveBudget)).Sublist (reservations front)) :
    Safe invocation within (.invoked request :: log) where
  ordered := by
    refine ⟨⟨fun again => ?_, front, digest, intent⟩, safe.ordered⟩
    obtain ⟨other, member, same⟩ := List.mem_map.mp again
    exact absurd same (fresh other member).ne
  budget := safe.budget
  charged := by
    show ((dispatchedRequests log ++ [request]).map (·.effectiveBudget)).Sublist
      (reservations (stored log))
    rw [List.map_append, intent, reservations_intent]
    exact charged.append (List.Sublist.refl _)
  requested := fun other member => by
    rcases List.mem_append.mp member with old | new
    · exact safe.requested other old
    · rw [List.mem_singleton.mp new]
      refine ⟨digest, request.effectiveBudget, ?_⟩
      show _ ∈ stored log
      rw [intent]
      exact List.mem_concat_self
  intended := safe.intended

theorem Safe.called (safe : Safe invocation within log) {turn : Nat} {grant : String}
    (fresh : ∀ other ∈ calledTurns log, other < turn) (authorized : Authorized (stored log) turn) :
    Safe invocation within (.called turn grant :: log) where
  ordered := ⟨⟨fun again => absurd rfl (fresh turn again).ne, authorized⟩, safe.ordered⟩
  budget := safe.budget
  charged := safe.charged
  requested := safe.requested
  intended := fun other member => by
    rcases List.mem_append.mp member with old | new
    · exact safe.intended other old
    · rw [List.mem_singleton.mp new]
      exact authorized.2

/-- The journal in hand is in order, and the store holds a prefix of it. -/
structure At (invocation : String) (within : List I64 → Prop) (scan : Scan) (journal : Journal)
    (log : List Event) : Prop where
  safe : Safe invocation within log
  kept : stored log <+: journal
  scans : Scans invocation journal scan

variable {scan after : Scan} {journal : Journal} {entry : JournalEntry}

theorem At.push (held : At invocation within scan journal log)
    (taken : scanEntry invocation journal.length scan entry = .ok after) :
    At invocation within after (journal ++ [entry]) log where
  safe := held.safe
  kept := held.kept.trans (List.prefix_append _ _)
  scans := held.scans.push taken

theorem At.step {phase next : Phase} {turn : Nat} {pending : Option String}
    (held : At invocation within ⟨phase, turn, false, pending⟩ journal log)
    (taken : phase.step entry = some next) (named : entry.turn = turn) :
    At invocation within ⟨next, turn, false, pending⟩ (journal ++ [entry]) log :=
  held.push (scanEntry_step taken named)

theorem At.persisted (held : At invocation within scan journal log) (nonempty : journal ≠ [])
    (budget : within (reservations journal)) :
    At invocation within scan journal (.persisted journal :: log) where
  safe := held.safe.persisted held.kept (accepted_iff.mpr ⟨nonempty, scan, held.scans⟩) budget
  kept := List.prefix_refl _
  scans := held.scans

theorem At.fresh {turn : Nat} {ended : Bool} {pending : Option String}
    (held : At invocation within ⟨.needTurnOpened, turn, ended, pending⟩ journal log) :
    (∀ request ∈ dispatchedRequests log, request.turn < turn) ∧
      ∀ other ∈ calledTurns log, other < turn := by
  have earlier := fun entry member => (scans_turns held.scans entry member).2 rfl
  refine ⟨fun request member => ?_, fun other member => ?_⟩
  · obtain ⟨digest, amount, recorded⟩ := held.safe.requested request member
    exact earlier _ (held.kept.subset recorded)
  · obtain ⟨operation, digest, recorded⟩ := held.safe.intended other member
    exact earlier _ (held.kept.subset recorded)

end Log

section Rules

variable {E A : Type} {invocation : String} {within : List I64 → Prop}
  {budget : E → List I64 → Prop} {handlers : LiveInvocationHandlers E}

/-- A call that keeps the budget invariant, whatever it answers. -/
def Quiet (budget : E → List I64 → Prop) (call : E → A × E) : Prop :=
  ∀ env amounts, budget env amounts → budget (call env).2 amounts

/-- Handlers with a sink that keep a budget invariant over the reservations of the journal in hand.
A reservation adds what it grants, and a refused one adds nothing. -/
structure Keeps (within : List I64 → Prop) (budget : E → List I64 → Prop)
    (handlers : LiveInvocationHandlers E) : Prop where
  within : ∀ env amounts, budget env amounts → within amounts
  invoke : ∀ request, Quiet budget (handlers.invoke request)
  decode : ∀ turn response, Quiet budget (handlers.decode turn response)
  authorize : ∀ context, Quiet budget (handlers.authorize context)
  checkDeadline : Quiet budget handlers.checkDeadline
  checkPreDispatch : Quiet budget handlers.checkPreDispatch
  record : ∀ usage, Quiet budget (handlers.record usage)
  observe : ∀ turn, Quiet budget (handlers.observe turn)
  reduce : ∀ turn proposal, Quiet budget (handlers.reduce turn proposal)
  effect : ∀ effect, handlers.effect = some effect → ∀ turn grant, Quiet budget (effect turn grant)
  sink : ∃ sink, handlers.sink = some sink ∧ ∀ journal, Quiet budget (sink journal)
  isCancelled : Quiet budget handlers.isCancelled
  reserved : ∀ request env amounts amount after, budget env amounts →
    handlers.reserve request env = (some (.ok amount), after) → budget after (amounts ++ [amount])
  refused : ∀ request env amounts refusal after, budget env amounts →
    handlers.reserve request env = (some (.error refusal), after) → budget after (amounts ++ [0])

/-- Where a run may stop: for a reason of its own, and with a safe log. -/
def Stopped (invocation : String) (within : List I64 → Prop) (stop : Stop) (world : World E) :
    Prop :=
  (stop ≠ .panicked ∧ stop ≠ .stalled) ∧ Safe invocation within world.log

/-- The journal that a run returns: accepted, or still empty in a cancelled run. -/
def Returned (invocation : String) (within : List I64 → Prop) (run : LiveKernelRun)
    (world : World E) : Prop :=
  Safe invocation within world.log ∧
    ((run.journal = [] ∧ run.outcome = .cancelled) ∨ Accepted invocation run.journal)

variable {env : E} {log : List Event} {amounts : List I64}

theorem ask_ends {call : Call E A} {ends : A → World E → Prop} {stops : Stop → World E → Prop}
    (answered : ∀ answer after, call env = (some answer, after) → ends answer ⟨after, log⟩)
    (crashed : ∀ after, stops .crashed ⟨after, log⟩) :
    (ask call).wp ends stops ⟨env, log⟩ := by
  unfold Prog.wp ask
  cases ran : call env with
  | mk answer after =>
    cases answer with
    | none => exact crashed after
    | some answer => exact answered answer after ran

theorem Quiet.ask {call : Call E A} {ends : A → World E → Prop} (quiet : Quiet budget call)
    (kept : budget env amounts) (safe : Safe invocation within log)
    (next : ∀ answer env, budget env amounts → ends answer ⟨env, log⟩) :
    (ask call).wp ends (Stopped invocation within) ⟨env, log⟩ := by
  refine ask_ends (fun answer after ran => next answer after ?_) fun after => ?_
  · have same := quiet env amounts kept
    rwa [ran] at same
  · exact ⟨⟨nofun, nofun⟩, safe⟩

theorem Keeps.persist (keeps : Keeps within budget handlers) {scan : Scan} {journal : Journal}
    {dispatched : Nat} {ends : Unit → World E → Prop}
    (held : At invocation within scan journal log) (nonempty : journal ≠ [])
    (kept : budget env (reservations journal))
    (next : ∀ env, budget env (reservations journal) →
      At invocation within scan journal (.persisted journal :: log) →
      ends () ⟨env, .persisted journal :: log⟩) :
    (persist handlers journal dispatched).wp ends (Stopped invocation within) ⟨env, log⟩ := by
  obtain ⟨sink, bound, quiet⟩ := keeps.sink
  have stores := held.persisted nonempty (keeps.within env _ kept)
  have same := quiet journal env _ kept
  have either : ∀ keep : Bool,
      Safe invocation within (if keep then .persisted journal :: log else log) := fun keep => by
    cases keep with
    | false => exact held.safe
    | true => exact stores.safe
  unfold Prog.wp LiveInvocation.persist
  rw [bound]
  dsimp only
  cases offered : sink journal env with
  | mk outcome after =>
    rw [offered] at same
    cases outcome with
    | durable => exact next after same stores
    | failed keep => exact ⟨⟨nofun, nofun⟩, either keep⟩
    | crashed keep => exact ⟨⟨nofun, nofun⟩, either keep⟩

end Rules

/-- How a pass of the loop ends: the run returns, or the next turn is within the limit and the
journal in hand is between turns. -/
def TurnEnded {E : Type} (call : KernelCall E) (within : List I64 → Prop)
    (budget : E → List I64 → Prop) (turn : Nat) : TurnEnd → World E → Prop
  | .returned run, world => Returned call.config.identity.digest within run world
  | .continued journal _, world => turn + 1 < call.config.maxTurns ∧
      budget world.env (reservations journal) ∧ ∃ pending, At call.config.identity.digest within
        ⟨.needTurnOpened, turn + 1, false, pending⟩ journal world.log

section Stages

variable {E : Type} {call : KernelCall E} {within : List I64 → Prop}
  {budget : E → List I64 → Prop} {env : E} {log : List Event} {journal : Journal}
  {turn dispatched : Nat} {pending : Option String}

variable {reason grant observationDigest : String} {proposal : Bytes}
variable {request : ModelInvocationRequest}

variable (call within) in
/-- The journal in hand stands at a place of a turn. -/
abbrev Stands (phase : Phase) (turn : Nat) (pending : Option String) (journal : Journal)
    (log : List Event) : Prop :=
  At call.config.identity.digest within ⟨phase, turn, false, pending⟩ journal log

variable (call within budget) in
abbrev Ends (turn : Nat) (env : E) (log : List Event) (stage : Kernel E TurnEnd) : Prop :=
  stage.wp (TurnEnded call within budget turn) (Stopped call.config.identity.digest within)
    ⟨env, log⟩

theorem push_ne_nil {entry : JournalEntry} : journal ++ [entry] ≠ [] :=
  List.concat_ne_nil _ _

variable (keeps : Keeps within budget call.handlers)

include keeps

/-- Ending the turn with a transition other than `continue` closes the journal. -/
theorem conclude_ends {transition : TurnTransition} (ends : transition ≠ .continue)
    (held : Stands call within .needEffectOrTransition turn pending journal log)
    (kept : budget env (reservations journal)) :
    Ends call within budget turn env log (call.conclude journal turn transition dispatched) := by
  have close : ∀ (case carrier : String) (outcome : LiveInvocationOutcome), case ≠ "continue" →
      ((do
        persist call.handlers (journal ++ [JournalEntry.transition turn case carrier,
          .terminalOutcome turn case carrier]) dispatched
        pure (.returned ⟨journal ++ [JournalEntry.transition turn case carrier,
          .terminalOutcome turn case carrier], outcome, dispatched⟩)) : Kernel E TurnEnd).wp
      (TurnEnded call within budget turn) (Stopped call.config.identity.digest within)
      ⟨env, log⟩ := fun case carrier outcome other => by
    have moved : Stands call within .needTerminalOutcome turn pending
        (journal ++ [JournalEntry.transition turn case carrier]) log :=
      held.push (by simp [scanEntry, other])
    have closed : At call.config.identity.digest within ⟨.needTerminalOutcome, turn, true, pending⟩
        (journal ++ [JournalEntry.transition turn case carrier] ++
          [JournalEntry.terminalOutcome turn case carrier]) log :=
      moved.push (by simp [scanEntry])
    have unreserved : budget env (reservations (journal ++ [JournalEntry.transition turn case carrier] ++
        [JournalEntry.terminalOutcome turn case carrier])) := by
      rwa [reservations_push rfl, reservations_push rfl]
    rw [List.append_assoc, List.singleton_append] at closed unreserved
    rw [wp_bind]
    refine keeps.persist closed (List.append_ne_nil_of_right_ne_nil _ (List.cons_ne_nil _ _))
      unreserved fun env kept stores => ?_
    exact ⟨stores.safe, .inr (stores.safe.ordered.accepted List.mem_cons_self)⟩
  cases transition with
  | «continue» => exact absurd rfl ends
  | complete bytes => exact close "complete" _ _ (by decide)
  | suspend bytes => exact close "suspend" _ _ (by decide)
  | fail bytes => exact close "fail" _ _ (by decide)

theorem closeTurn_ends {entry : JournalEntry} (unreserved : entry.reserved = none)
    (held : Stands call within .needEffectOrTransition turn pending (journal ++ [entry]) log)
    (kept : budget env (reservations journal)) :
    Ends call within budget turn env log (call.closeTurn journal entry turn reason dispatched) := by
  unfold Ends KernelCall.closeTurn
  rw [wp_bind]
  rw [← reservations_push unreserved] at kept
  refine keeps.persist held push_ne_nil kept fun env kept stores => ?_
  exact conclude_ends keeps nofun stores kept

theorem selectTransition_ends
    {ends : TurnTransition → World E → Prop} {amounts : List I64} (kept : budget env amounts)
    (safe : Safe call.config.identity.digest within log)
    (next : ∀ transition env, budget env amounts →
      (transition = .continue → turn + 1 < call.config.maxTurns) → ends transition ⟨env, log⟩) :
    (call.selectTransition turn proposal).wp ends (Stopped call.config.identity.digest within)
      ⟨env, log⟩ := by
  have limit := call.config.maxTurns_bound
  unfold KernelCall.selectTransition
  rw [wp_bind]
  refine (keeps.reduce turn proposal).ask kept safe fun transition env kept => ?_
  have limited : limitTurns call.config.maxTurns turn transition = .continue →
      turn + 1 < call.config.maxTurns := fun same => by
    cases transition with
    | «continue» =>
      unfold limitTurns saturatingNext at same
      split_ifs at same with beyond
      omega
    | complete bytes | suspend bytes | fail bytes => exact nomatch same
  cases selected : limitTurns call.config.maxTurns turn transition with
  | fail bytes => exact next _ env kept nofun
  | «continue» | complete bytes | suspend bytes =>
    dsimp only
    rw [wp_bind]
    refine keeps.checkDeadline.ask kept safe fun checked env kept => ?_
    cases checked with
    | error refusal => exact next _ env kept nofun
    | ok done => exact next _ env kept fun same => limited (selected.trans same)

theorem reduceTurn_ends (held : Stands call within .needEffectOrTransition turn pending journal log)
    (kept : budget env (reservations journal)) :
    Ends call within budget turn env log (call.reduceTurn turn proposal journal dispatched) := by
  have limit := call.config.maxTurns_bound
  unfold Ends KernelCall.reduceTurn
  rw [wp_bind]
  refine keeps.checkDeadline.ask kept held.safe fun checked env kept => ?_
  cases checked with
  | error refusal => exact conclude_ends keeps (by simp) held kept
  | ok done =>
    dsimp only
    rw [wp_bind]
    refine selectTransition_ends keeps kept held.safe fun transition env kept room => ?_
    cases transition with
    | «continue» =>
      have moved : Stands call within .needTurnOpened (turn + 1) pending
          (journal ++ [JournalEntry.transition turn "continue" (call.carrierDigest [])]) log :=
        held.push (by
          have bound : ¬ lastTurn ≤ turn := by have := room rfl; omega
          simp [scanEntry, bound])
      dsimp only
      rw [wp_bind]
      refine keeps.persist moved push_ne_nil (by rwa [reservations_push rfl])
        fun env kept stores => ?_
      exact ⟨room rfl, kept, pending, stores⟩
    | complete bytes | suspend bytes | fail bytes => exact conclude_ends keeps (by simp) held kept

theorem callEffect_ends {effect : Nat → String → Call E (Except String Bytes)}
    (bound : call.handlers.effect = some effect)
    (fresh : ∀ other ∈ calledTurns log, other < turn) (authorized : Authorized (stored log) turn)
    (held : Stands call within .needEffectObserved turn (some turnEffectOperation) journal log)
    (kept : budget env (reservations journal)) :
    Ends call within budget turn env log
      (call.callEffect effect turn grant proposal journal dispatched) := by
  have failed : ∀ log,
      Stands call within .needEffectObserved turn (some turnEffectOperation) journal log →
      ∀ reason, Stands call within .needEffectOrTransition turn none
        (journal ++ [JournalEntry.effectFailed turn turnEffectOperation reason]) log :=
    fun log held reason => held.push (by simp [scanEntry])
  unfold Ends KernelCall.callEffect
  rw [wp_bind]
  refine keeps.isCancelled.ask kept held.safe fun cancelled env kept => ?_
  cases cancelled with
  | true => exact closeTurn_ends keeps rfl (failed log held _) kept
  | false =>
    dsimp only
    rw [if_neg Bool.false_ne_true, wp_bind]
    refine keeps.checkDeadline.ask kept held.safe fun checked env kept => ?_
    cases checked with
    | error refusal => exact closeTurn_ends keeps rfl (failed log held _) kept
    | ok done =>
      dsimp only
      rw [wp_bind]
      show (_ >>= _ : Kernel E TurnEnd).wp _ _ ⟨env, .called turn grant :: log⟩
      rw [wp_bind]
      have calls : Stands call within .needEffectObserved turn (some turnEffectOperation) journal
          (.called turn grant :: log) :=
        ⟨held.safe.called fresh authorized, held.kept, held.scans⟩
      refine (keeps.effect effect bound turn grant).ask kept calls.safe
        fun observed env kept => ?_
      cases observed with
      | error reason => exact closeTurn_ends keeps rfl (failed _ calls reason) kept
      | ok observation =>
        dsimp only
        rw [wp_bind]
        have observed : ∀ digest, Stands call within .needEffectOrTransition turn none
            (journal ++ [JournalEntry.effectObserved turn turnEffectOperation digest])
            (.called turn grant :: log) :=
          fun digest => calls.push (by simp [scanEntry])
        refine keeps.persist (observed _) push_ne_nil (by rwa [reservations_push rfl])
          fun env kept stores => ?_
        exact reduceTurn_ends keeps stores kept

theorem intendEffect_ends (fresh : ∀ other ∈ calledTurns log, other < turn)
    (authorized : .authorizationConsumed turn grant ∈ journal)
    (held : Stands call within .needEffectOrTransition turn pending journal log)
    (kept : budget env (reservations journal)) :
    Ends call within budget turn env log
      (call.intendEffect turn grant proposal journal dispatched) := by
  unfold Ends KernelCall.intendEffect
  cases bound : call.handlers.effect with
  | none => exact reduceTurn_ends keeps held kept
  | some effect =>
    dsimp only
    rw [wp_bind]
    have intended : ∀ digest, Stands call within .needEffectObserved turn (some turnEffectOperation)
        (journal ++ [JournalEntry.effectIntent turn turnEffectOperation digest]) log :=
      fun digest => held.push (by simp [scanEntry])
    refine keeps.persist (intended _) push_ne_nil (by rwa [reservations_push rfl])
      fun env kept stores => ?_
    have recorded : ∀ digest, Authorized
        (journal ++ [JournalEntry.effectIntent turn turnEffectOperation digest]) turn := fun digest =>
      ⟨⟨grant, List.mem_append_left _ authorized⟩, turnEffectOperation, digest,
        List.mem_concat_self⟩
    exact callEffect_ends keeps bound fresh (recorded _) stores kept

theorem authorizeTurn_ends (fresh : ∀ other ∈ calledTurns log, other < turn)
    (held : Stands call within .needAuthorizationConsumed turn pending journal log)
    (kept : budget env (reservations journal)) :
    Ends call within budget turn env log
      (call.authorizeTurn turn observationDigest proposal journal dispatched) := by
  unfold Ends KernelCall.authorizeTurn
  rw [wp_bind]
  refine keeps.isCancelled.ask kept held.safe fun cancelled env kept => ?_
  cases cancelled with
  | true => exact closeTurn_ends keeps rfl (held.step rfl rfl) kept
  | false =>
    dsimp only
    rw [if_neg Bool.false_ne_true, wp_bind]
    refine keeps.checkDeadline.ask kept held.safe fun checked env kept => ?_
    cases checked with
    | error refusal => exact closeTurn_ends keeps rfl (held.step rfl rfl) kept
    | ok done =>
      dsimp only
      rw [wp_bind]
      refine (keeps.authorize _).ask kept held.safe fun granted env kept => ?_
      cases granted with
      | error refusal => exact closeTurn_ends keeps rfl (held.step rfl rfl) kept
      | ok grant =>
        dsimp only
        rw [wp_bind]
        refine keeps.persist (held.step rfl rfl) push_ne_nil (by rwa [reservations_push rfl])
          fun env kept stores => ?_
        exact intendEffect_ends keeps fresh
          List.mem_concat_self stores kept

theorem decodeResponse_ends {response : Bytes} (fresh : ∀ other ∈ calledTurns log, other < turn)
    (held : Stands call within .needDecode turn pending journal log)
    (kept : budget env (reservations journal)) :
    Ends call within budget turn env log
      (call.decodeResponse turn observationDigest response journal dispatched) := by
  have refused : ∀ env reason, budget env (reservations journal) →
      budget env (reservations (journal ++ [JournalEntry.proposalRefused turn reason])) :=
    fun env reason kept => by rwa [reservations_push rfl]
  unfold Ends KernelCall.decodeResponse
  rw [wp_bind]
  refine keeps.checkDeadline.ask kept held.safe fun checked env kept => ?_
  cases checked with
  | error refusal =>
    exact conclude_ends keeps nofun (held.step rfl rfl) (refused env refusal kept)
  | ok done =>
    dsimp only
    rw [wp_bind]
    refine (keeps.decode turn response).ask kept held.safe fun decoded env kept => ?_
    cases decoded with
    | refused reason =>
      exact conclude_ends keeps nofun (held.step rfl rfl) (refused env reason kept)
    | admitted proposal =>
      dsimp only
      rw [wp_bind]
      refine keeps.persist (held.step rfl rfl) push_ne_nil (by rwa [reservations_push rfl])
        fun env kept stores => ?_
      exact authorizeTurn_ends keeps fresh stores kept

theorem failResponse_ends {failure : String} {attemptedBytes : Nat}
    (held : Stands call within .needResponse request.turn pending journal log)
    (kept : budget env (reservations journal)) :
    Ends call within budget request.turn env log
      (call.failResponse request failure attemptedBytes reason journal dispatched) := by
  unfold Ends KernelCall.failResponse
  rw [wp_bind]
  refine keeps.persist (held.step rfl rfl) push_ne_nil (by rwa [reservations_push rfl])
    fun env kept stores => ?_
  rw [wp_bind]
  refine (keeps.record _).ask kept stores.safe fun recorded env kept => ?_
  exact conclude_ends keeps nofun stores kept

theorem recordResponse_ends
    {outcome : ModelInvocationOutcome} (fresh : ∀ other ∈ calledTurns log, other < request.turn)
    (held : Stands call within .needResponse request.turn pending journal log)
    (kept : budget env (reservations journal)) :
    Ends call within budget request.turn env log
      (call.recordResponse request observationDigest outcome journal dispatched) := by
  unfold Ends KernelCall.recordResponse
  dsimp only
  cases limitResponse call.config.maxResponseBytes outcome with
  | failed failure attemptedBytes => exact failResponse_ends keeps held kept
  | settled response =>
    dsimp only
    rw [wp_bind]
    refine keeps.checkDeadline.ask kept held.safe fun checked env kept => ?_
    cases checked with
    | error refusal => exact failResponse_ends keeps held kept
    | ok done =>
      dsimp only
      rw [wp_bind]
      refine keeps.persist (held.step rfl rfl) push_ne_nil (by rwa [reservations_push rfl])
        fun env kept stores => ?_
      rw [wp_bind]
      refine (keeps.record _).ask kept stores.safe fun recorded env kept => ?_
      exact decodeResponse_ends keeps fresh stores kept

/-- Before the dispatch the store ends in the intent of the request, and every model call so far is
charged to what precedes the intent. -/
theorem dispatchRequest_ends {digest : String} {front : Journal}
    (fresh : ∀ other ∈ calledTurns log, other < request.turn)
    (undispatched : ∀ other ∈ dispatchedRequests log, other.turn < request.turn)
    (charged : ((dispatchedRequests log).map (·.effectiveBudget)).Sublist (reservations front))
    (intent : journal = front ++
      [JournalEntry.requestIntent request.turn digest request.effectiveBudget])
    (persisted : stored log = journal)
    (held : Stands call within .needResponse request.turn pending journal log)
    (kept : budget env (reservations journal)) :
    Ends call within budget request.turn env log
      (call.dispatchRequest request observationDigest journal dispatched) := by
  unfold Ends KernelCall.dispatchRequest
  rw [wp_bind]
  refine keeps.checkPreDispatch.ask kept held.safe fun checked env kept => ?_
  cases checked with
  | error refusal => exact closeTurn_ends keeps rfl (held.step rfl rfl) kept
  | ok done =>
    dsimp only
    rw [wp_bind]
    refine keeps.isCancelled.ask kept held.safe fun cancelled env kept => ?_
    cases cancelled with
    | true =>
      rw [if_pos rfl]
      exact recordResponse_ends keeps fresh held kept
    | false =>
      rw [if_neg Bool.false_ne_true, wp_bind]
      show (_ >>= _ : Kernel E TurnEnd).wp _ _ ⟨env, .invoked request :: log⟩
      rw [wp_bind]
      have dispatches : Stands call within .needResponse request.turn pending journal
          (.invoked request :: log) :=
        ⟨held.safe.invoked undispatched (persisted.trans intent) charged, held.kept, held.scans⟩
      refine (keeps.invoke request).ask kept dispatches.safe fun outcome env kept => ?_
      exact recordResponse_ends keeps fresh dispatches kept

theorem reserveRequest_ends (fresh : ∀ other ∈ calledTurns log, other < request.turn)
    (undispatched : ∀ other ∈ dispatchedRequests log, other.turn < request.turn)
    (held : Stands call within .needRequestIntent request.turn pending journal log)
    (kept : budget env (reservations journal)) :
    Ends call within budget request.turn env log
      (call.reserveRequest request observationDigest journal dispatched) := by
  unfold Ends KernelCall.reserveRequest
  rw [wp_bind]
  refine ask_ends (fun reserved after ran => ?_) fun after => ⟨⟨nofun, nofun⟩, held.safe⟩
  cases reserved with
  | error refusal =>
    have adds := keeps.refused request env _ refusal after kept ran
    dsimp only
    rw [wp_bind]
    refine keeps.persist (held.step rfl rfl) push_ne_nil (by rwa [reservations_intent])
      fun env kept stores => ?_
    exact closeTurn_ends keeps rfl (stores.step rfl rfl) kept
  | ok amount =>
    have adds := keeps.reserved request env _ amount after kept ran
    dsimp only
    rw [wp_bind]
    refine keeps.persist (held.step rfl rfl) push_ne_nil (by rwa [reservations_intent])
      fun env kept stores => ?_
    exact dispatchRequest_ends keeps fresh undispatched
      (held.safe.charged.trans (reservations_sublist held.kept)) rfl rfl stores kept

/-- One pass of the loop. A run that is cancelled before it opens its turn returns the journal as it
was, which may be empty. -/
theorem turnFrom_ends (held : Stands call within .needTurnOpened turn pending journal log)
    (kept : budget env (reservations journal)) :
    Ends call within budget turn env log (call.turnFrom turn journal dispatched) := by
  obtain ⟨undispatched, fresh⟩ := held.fresh
  unfold Ends KernelCall.turnFrom
  rw [wp_bind]
  refine keeps.isCancelled.ask kept held.safe fun cancelled env kept => ?_
  cases cancelled with
  | true =>
    refine ⟨held.safe, ?_⟩
    by_cases empty : journal = []
    · exact .inl ⟨empty, rfl⟩
    · exact .inr (accepted_iff.mpr ⟨empty, _, held.scans⟩)
  | false =>
    dsimp only
    rw [if_neg Bool.false_ne_true, wp_bind]
    refine (keeps.observe turn).ask kept held.safe fun observation env kept => ?_
    rw [wp_bind]
    have opened : ∀ digest, Stands call within .needRequestIntent turn pending
        (journal ++ [JournalEntry.turnOpened turn call.config.identity.digest digest]) log :=
      fun digest => held.push (by simp [scanEntry])
    refine keeps.persist (opened _) push_ne_nil (by rwa [reservations_push rfl])
      fun env kept stores => ?_
    rw [wp_bind]
    refine keeps.isCancelled.ask kept stores.safe fun cancelled env kept => ?_
    cases cancelled with
    | true => exact ⟨stores.safe, .inr (stores.safe.ordered.accepted List.mem_cons_self)⟩
    | false =>
      exact reserveRequest_ends keeps fresh undispatched stores kept

/-- The loop: fuel for every turn left is enough, since each pass moves on by one turn and the last
one does not continue. -/
theorem turnsFrom_safe {fuel : Nat} (room : call.config.maxTurns < turn + fuel) (some : 0 < fuel)
    (held : Stands call within .needTurnOpened turn pending journal log)
    (kept : budget env (reservations journal)) :
    (call.turnsFrom fuel turn journal dispatched).wp
      (Returned call.config.identity.digest within)
      (Stopped call.config.identity.digest within) ⟨env, log⟩ := by
  induction fuel generalizing turn journal dispatched env log pending with
  | zero => exact absurd some (lt_irrefl 0)
  | succ fuel ih =>
    unfold KernelCall.turnsFrom
    rw [wp_bind]
    refine wp_mono (turnFrom_ends keeps held kept) (fun ending world ended => ?_)
      fun _ _ stopped => stopped
    cases ending with
    | returned run => exact ended
    | continued journal dispatched =>
      obtain ⟨within, kept, pending, held⟩ := ended
      have limit := call.config.maxTurns_bound
      have next : saturatingNext lastTurn turn = turn + 1 := by
        unfold saturatingNext
        omega
      dsimp only
      rw [next]
      exact ih (by omega) (by omega) held kept

theorem runLiveInvocation_safe (safe : Safe call.config.identity.digest within log)
    (kept : budget env (reservations (stored log))) :
    (call.runLiveInvocation (stored log)).wp (Returned call.config.identity.digest within)
      (Stopped call.config.identity.digest within) ⟨env, log⟩ := by
  have resumes : ∀ {scan : Scan}, Scans call.config.identity.digest (stored log) scan →
      At call.config.identity.digest within scan (stored log) log :=
    fun scans => ⟨safe, List.prefix_refl _, scans⟩
  unfold KernelCall.runLiveInvocation
  dsimp only
  split_ifs with drift empty
  · exact ⟨⟨nofun, nofun⟩, safe⟩
  · rw [List.isEmpty_iff] at empty
    have start : Scans call.config.identity.digest (stored log) .start := empty ▸ scans_nil
    exact turnsFrom_safe keeps (by omega) (by omega) (resumes start) kept
  · have accepted := safe.ordered.stored_accepted.resolve_left fun isEmpty =>
      empty (List.isEmpty_iff.mpr isEmpty)
    obtain ⟨nonempty, scan, scans⟩ := accepted_iff.mp accepted
    rw [validate_of_scans scans nonempty]
    dsimp only
    cases ended : scan.ended with
    | true => exact ⟨safe, .inr accepted⟩
    | false =>
      by_cases waiting : scan.phase = .needResponse
      · simp only [waiting]
        exact ⟨⟨nofun, nofun⟩, safe⟩
      · by_cases between : scan.phase = .needTurnOpened
        · simp only [between]
          have held := resumes scans
          obtain ⟨phase, turn, ended', pending⟩ := scan
          cases between
          cases ended
          exact turnsFrom_safe keeps (by omega) (by omega) held kept
        · simp only [waiting, between]
          exact ⟨⟨nofun, nofun⟩, safe⟩

end Stages

end Semaprax.LiveInvocation
