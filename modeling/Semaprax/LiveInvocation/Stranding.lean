/-
**Runs that strand their invocation** (`live_invocation/kernel.rs`).

A run that returns hands back a journal. It should be empty, or end the invocation, or let a later run
go on; every way out of a turn closes it for that, but one: a cancellation that is observed right after
the turn was opened.

* `Lands` — a stage of a turn returns a journal that has ended, or goes on between turns.
* `Strands` — the cancellation that is observed too late. `Pass.Leads` — the passes of a run.
* `run_resumable_iff` — a run returns a journal to go on with if and only if none of its passes
  strands.
-/

import Semaprax.LiveInvocation.Recovery

namespace Semaprax.LiveInvocation

open Library

/-- A journal that has ended, or that a run can go on with. -/
def Resumable (invocation : String) (journal : Journal) : Prop :=
  journal = [] ∨ ∃ validated, validate journal invocation = .ok validated ∧
    (validated.terminal = true ∨ validated.resumableTurn.isSome)

/-- What a run is refused for that has no way to go on. -/
def Stuck (stop : Stop) : Prop :=
  stop = .refused .uncertainIntent ∨ stop = .refused .unresolvedPrefix

/-- No run of the invocation from the journal gets stuck. -/
def Proceeds (invocation : String) (journal : Journal) : Prop :=
  ∀ (E : Type) (call : KernelCall E) (world : World E) (stop : Stop),
    call.config.identity.digest = invocation →
      (call.runLiveInvocation journal world).1 = .error stop → ¬ Stuck stop

/-- A pass of the loop: where it starts. -/
structure Pass (E : Type) where
  turn : Nat
  journal : Journal
  dispatched : Nat
  world : World E

section Passes

variable {E : Type} (call : KernelCall E)

def KernelCall.opening (turn : Nat) (observation : Bytes) : JournalEntry :=
  .turnOpened turn call.config.identity.digest
    (digest call.sha256 "semaprax.live-invocation.observation.v1\x00" observation)

/-- The pass opens its turn, and a cancellation is observed right after that and not before. -/
def Pass.Strands (pass : Pass E) : Prop :=
  ∃ first observation second opened third,
    call.handlers.isCancelled pass.world.env = (some false, first) ∧
      call.handlers.observe pass.turn first = (some observation, second) ∧
      persist call.handlers (pass.journal ++ [call.opening pass.turn observation]) pass.dispatched
        ⟨second, pass.world.log⟩ = (.ok (), opened) ∧
      call.handlers.isCancelled opened.env = (some true, third)

inductive Pass.Leads : Pass E → Pass E → Prop
  | here (pass : Pass E) : Leads pass pass
  | next {pass last : Pass E} {journal : Journal} {dispatched : Nat} {world : World E}
      (ran : call.turnFrom pass.turn pass.journal pass.dispatched pass.world =
        (.ok (.continued journal dispatched), world))
      (later : Leads ⟨saturatingNext lastTurn pass.turn, journal, dispatched, world⟩ last) :
      Leads pass last

def KernelCall.Starts (journal : Journal) (world : World E) (pass : Pass E) : Prop :=
  ∃ turn, pass = ⟨turn, journal, 0, world⟩ ∧ ((journal = [] ∧ turn = 0) ∨
    ∃ validated, validate journal call.config.identity.digest = .ok validated ∧
      validated.terminal = false ∧ validated.resumableTurn = some turn)

end Passes

/-- A journal with a terminal outcome. -/
def Closes (invocation : String) (journal : Journal) : Prop :=
  journal ≠ [] ∧ ∃ scan, Scans invocation journal scan ∧ scan.ended = true

def Landed {E : Type} (call : KernelCall E) (turn : Nat) : TurnEnd → World E → Prop
  | .returned run, _ => Closes call.config.identity.digest run.journal
  | .continued journal _, _ => turn + 1 < call.config.maxTurns ∧ journal ≠ [] ∧
      ∃ pending, Scans call.config.identity.digest journal
        ⟨.needTurnOpened, turn + 1, false, pending⟩

/-- A stage lands from everywhere, or stops for a reason that does not concern the journal. -/
def Lands {E : Type} (call : KernelCall E) (turn : Nat) (stage : Kernel E TurnEnd) : Prop :=
  ∀ world, stage.wp (Landed call turn) (fun stop _ => ¬ Stuck stop) world

section Stages

variable {E A : Type} {call : KernelCall E} {journal : Journal} {turn dispatched : Nat}
  {pending : Option String}

/-- A part of a stage that never gets stuck. -/
def Unstuck (part : Kernel E A) : Prop :=
  ∀ world, part.wp (fun _ _ => True) (fun stop _ => ¬ Stuck stop) world

variable {reason grant observationDigest : String} {proposal : Bytes}
variable {request : ModelInvocationRequest}

theorem unstuck_ask (handler : Call E A) : Unstuck (ask handler) := by
  intro world
  unfold Prog.wp ask
  cases handler world.env with
  | mk answer env =>
    cases answer with
    | none => simp [Stuck]
    | some answer => trivial

theorem unstuck_note (event : Event) : Unstuck (note event : Kernel E Unit) := fun _ => trivial

theorem unstuck_persist (handlers : LiveInvocationHandlers E) (journal : Journal)
    (dispatched : Nat) : Unstuck (persist handlers journal dispatched) := by
  intro world
  unfold Prog.wp persist
  cases handlers.sink with
  | none => trivial
  | some sink =>
    dsimp only
    cases sink journal world.env with
    | mk outcome env => cases outcome <;> simp [Stuck]

theorem lands_bind {part : Kernel E A} {rest : A → Kernel E TurnEnd} (unstuck : Unstuck part)
    (later : ∀ value, Lands call turn (rest value)) : Lands call turn (part >>= rest) := by
  intro world
  rw [wp_bind]
  exact wp_mono (unstuck world) (fun value after _ => later value after) fun _ _ => id

/-- The journal stands at a place of a turn. -/
abbrev ScansTo (call : KernelCall E) (phase : Phase) (turn : Nat) (pending : Option String)
    (journal : Journal) : Prop :=
  Scans call.config.identity.digest journal ⟨phase, turn, false, pending⟩

theorem conclude_lands {transition : TurnTransition} (ends : transition ≠ .continue)
    (scans : ScansTo call .needEffectOrTransition turn pending journal) :
    Lands call turn (call.conclude journal turn transition dispatched) := by
  have close : ∀ (case carrier : String) (outcome : LiveInvocationOutcome), case ≠ "continue" →
      Lands call turn (do
        persist call.handlers (journal ++ [JournalEntry.transition turn case carrier,
          .terminalOutcome turn case carrier]) dispatched
        pure (.returned ⟨journal ++ [JournalEntry.transition turn case carrier,
          .terminalOutcome turn case carrier], outcome, dispatched⟩)) := by
    intro case carrier outcome other
    refine lands_bind (unstuck_persist _ _ _) fun _ world => ?_
    refine ⟨List.append_ne_nil_of_right_ne_nil _ (List.cons_ne_nil _ _),
      ⟨.needTerminalOutcome, turn, true, pending⟩, ?_, rfl⟩
    have moved : ScansTo call .needTerminalOutcome turn pending
        (journal ++ [JournalEntry.transition turn case carrier]) :=
      scans.push (by simp [scanEntry, other])
    have closed : Scans call.config.identity.digest
        (journal ++ [JournalEntry.transition turn case carrier] ++
        [JournalEntry.terminalOutcome turn case carrier]) ⟨.needTerminalOutcome, turn, true, pending⟩ :=
      moved.push (by simp [scanEntry])
    rwa [List.append_assoc, List.singleton_append] at closed
  cases transition with
  | «continue» => exact absurd rfl ends
  | complete bytes => exact close "complete" _ _ (by decide)
  | suspend bytes => exact close "suspend" _ _ (by decide)
  | fail bytes => exact close "fail" _ _ (by decide)

theorem closeTurn_lands {entry : JournalEntry}
    (scans : ScansTo call .needEffectOrTransition turn pending (journal ++ [entry])) :
    Lands call turn (call.closeTurn journal entry turn reason dispatched) :=
  lands_bind (unstuck_persist _ _ _) fun _ => conclude_lands nofun scans

theorem selectTransition_limited (proposal : Bytes) (world : World E) :
    (call.selectTransition turn proposal).wp
      (fun transition _ => transition = .continue → turn + 1 < call.config.maxTurns)
      (fun stop _ => ¬ Stuck stop) world := by
  have limit := call.config.maxTurns_bound
  unfold KernelCall.selectTransition
  rw [wp_bind]
  refine wp_mono (unstuck_ask _ world) (fun transition world _ => ?_) fun _ _ => id
  have limited : limitTurns call.config.maxTurns turn transition = .continue →
      turn + 1 < call.config.maxTurns := fun same => by
    cases transition with
    | «continue» =>
      unfold limitTurns saturatingNext at same
      split_ifs at same with beyond
      omega
    | complete bytes | suspend bytes | fail bytes => exact nomatch same
  cases selected : limitTurns call.config.maxTurns turn transition with
  | fail bytes => exact fun same => nomatch same
  | «continue» | complete bytes | suspend bytes =>
    dsimp only
    rw [wp_bind]
    refine wp_mono (unstuck_ask _ world) (fun checked world _ => ?_) fun _ _ => id
    cases checked with
    | error refusal => exact fun same => nomatch same
    | ok done => exact fun same => limited (selected.trans same)

theorem reduceTurn_lands (scans : ScansTo call .needEffectOrTransition turn pending journal) :
    Lands call turn (call.reduceTurn turn proposal journal dispatched) := by
  have limit := call.config.maxTurns_bound
  refine lands_bind (unstuck_ask _) fun checked => ?_
  cases checked with
  | error refusal => exact conclude_lands nofun scans
  | ok done =>
    intro world
    dsimp only
    rw [wp_bind]
    refine wp_mono (selectTransition_limited proposal world) (fun transition world room => ?_)
      fun _ _ => id
    cases transition with
    | «continue» =>
      have moved : ScansTo call .needTurnOpened (turn + 1) pending
          (journal ++ [JournalEntry.transition turn "continue" (call.carrierDigest [])]) :=
        scans.push (by
        have bound : ¬ lastTurn ≤ turn := by have := room rfl; omega
        simp [scanEntry, bound])
      dsimp only
      rw [wp_bind]
      exact wp_mono (unstuck_persist _ _ _ world)
        (fun _ world _ => ⟨room rfl, push_ne_nil, pending, moved⟩) fun _ _ => id
    | complete bytes | suspend bytes | fail bytes => exact conclude_lands (by simp) scans world

theorem callEffect_lands {effect : Nat → String → Call E (Except String Bytes)}
    (scans : ScansTo call .needEffectObserved turn (some turnEffectOperation) journal) :
    Lands call turn (call.callEffect effect turn grant proposal journal dispatched) := by
  have failed : ∀ reason, ScansTo call .needEffectOrTransition turn none
      (journal ++ [JournalEntry.effectFailed turn turnEffectOperation reason]) :=
    fun reason => scans.push (by simp [scanEntry])
  refine lands_bind (unstuck_ask _) fun cancelled => ?_
  cases cancelled with
  | true => exact closeTurn_lands (failed _)
  | false =>
    refine lands_bind (unstuck_ask _) fun checked => ?_
    cases checked with
    | error refusal => exact closeTurn_lands (failed _)
    | ok done =>
      refine lands_bind (unstuck_note _) fun _ => lands_bind (unstuck_ask _) fun answer => ?_
      cases answer with
      | ok observed =>
        have seen : ∀ digest, ScansTo call .needEffectOrTransition turn none
            (journal ++ [JournalEntry.effectObserved turn turnEffectOperation digest]) :=
          fun digest => scans.push (by simp [scanEntry])
        exact lands_bind (unstuck_persist _ _ _) fun _ => reduceTurn_lands (seen _)
      | error reason => exact closeTurn_lands (failed _)

theorem intendEffect_lands (scans : ScansTo call .needEffectOrTransition turn pending journal) :
    Lands call turn (call.intendEffect turn grant proposal journal dispatched) := by
  unfold KernelCall.intendEffect
  cases call.handlers.effect with
  | none => exact reduceTurn_lands scans
  | some effect =>
    exact lands_bind (unstuck_persist _ _ _) fun _ =>
      callEffect_lands (scans.push (by simp [scanEntry]))

theorem authorizeTurn_lands (scans : ScansTo call .needAuthorizationConsumed turn pending journal) :
    Lands call turn (call.authorizeTurn turn observationDigest proposal journal dispatched) := by
  have refused : ∀ reason, ScansTo call .needEffectOrTransition turn pending
      (journal ++ [JournalEntry.authorizationRefused turn reason]) :=
    fun reason => scans.push (scanEntry_step rfl rfl)
  refine lands_bind (unstuck_ask _) fun cancelled => ?_
  cases cancelled with
  | true => exact closeTurn_lands (refused _)
  | false =>
    refine lands_bind (unstuck_ask _) fun checked => ?_
    cases checked with
    | error refusal => exact closeTurn_lands (refused _)
    | ok done =>
      refine lands_bind (unstuck_ask _) fun answer => ?_
      cases answer with
      | ok grant =>
        exact lands_bind (unstuck_persist _ _ _) fun _ =>
          intendEffect_lands (scans.push (scanEntry_step rfl rfl))
      | error refusal => exact closeTurn_lands (refused _)

theorem decodeResponse_lands {response : Bytes}
    (scans : ScansTo call .needDecode turn pending journal) :
    Lands call turn (call.decodeResponse turn observationDigest response journal dispatched) := by
  have refused : ∀ reason, ScansTo call .needEffectOrTransition turn pending
      (journal ++ [JournalEntry.proposalRefused turn reason]) :=
    fun reason => scans.push (scanEntry_step rfl rfl)
  refine lands_bind (unstuck_ask _) fun checked => ?_
  cases checked with
  | error refusal => exact conclude_lands nofun (refused _)
  | ok done =>
    refine lands_bind (unstuck_ask _) fun decoded => ?_
    cases decoded with
    | admitted proposal =>
      exact lands_bind (unstuck_persist _ _ _) fun _ =>
        authorizeTurn_lands (scans.push (scanEntry_step rfl rfl))
    | refused reason => exact conclude_lands nofun (refused _)

theorem failResponse_lands {failure : String} {attemptedBytes : Nat} (named : request.turn = turn)
    (scans : ScansTo call .needResponse turn pending journal) :
    Lands call turn
      (call.failResponse request failure attemptedBytes reason journal dispatched) := by
  subst named
  refine lands_bind (unstuck_persist _ _ _) fun _ => lands_bind (unstuck_ask _) fun _ => ?_
  exact conclude_lands nofun (scans.push (scanEntry_step rfl rfl))

theorem recordResponse_lands {outcome : ModelInvocationOutcome} (named : request.turn = turn)
    (scans : ScansTo call .needResponse turn pending journal) :
    Lands call turn
      (call.recordResponse request observationDigest outcome journal dispatched) := by
  unfold KernelCall.recordResponse
  dsimp only
  cases limitResponse call.config.maxResponseBytes outcome with
  | settled response =>
    refine lands_bind (unstuck_ask _) fun checked => ?_
    cases checked with
    | error refusal => exact failResponse_lands named scans
    | ok done =>
      subst named
      refine lands_bind (unstuck_persist _ _ _) fun _ => lands_bind (unstuck_ask _) fun _ => ?_
      exact decodeResponse_lands (scans.push (scanEntry_step rfl rfl))
  | failed failure attemptedBytes => exact failResponse_lands named scans

theorem dispatchRequest_lands (named : request.turn = turn)
    (scans : ScansTo call .needResponse turn pending journal) :
    Lands call turn (call.dispatchRequest request observationDigest journal dispatched) := by
  refine lands_bind (unstuck_ask _) fun checked => ?_
  cases checked with
  | error refusal =>
    subst named
    exact closeTurn_lands (scans.push (scanEntry_step rfl rfl))
  | ok done =>
    refine lands_bind (unstuck_ask _) fun cancelled => ?_
    cases cancelled with
    | true =>
      rw [if_pos rfl]
      exact recordResponse_lands named scans
    | false =>
      refine lands_bind (unstuck_note _) fun _ => lands_bind (unstuck_ask _) fun outcome => ?_
      exact recordResponse_lands named scans

theorem reserveRequest_lands (named : request.turn = turn)
    (scans : ScansTo call .needRequestIntent turn pending journal) :
    Lands call turn (call.reserveRequest request observationDigest journal dispatched) := by
  subst named
  refine lands_bind (unstuck_ask _) fun answer => ?_
  cases answer with
  | error refusal =>
    have failed : ∀ digest, ScansTo call .needEffectOrTransition request.turn pending
        (journal ++ [JournalEntry.requestIntent request.turn digest 0] ++
          [JournalEntry.responseFailed request.turn refusal 0]) :=
      fun digest => (scans.push (scanEntry_step rfl rfl)).push (scanEntry_step rfl rfl)
    exact lands_bind (unstuck_persist _ _ _) fun _ => closeTurn_lands (failed _)
  | ok reserved =>
    exact lands_bind (unstuck_persist _ _ _) fun _ =>
      dispatchRequest_lands rfl (scans.push (scanEntry_step rfl rfl))

end Stages

section Journals

variable {invocation : String} {journal : Journal} {scan : Scan}

theorem resumable_iff (scans : Scans invocation journal scan) (nonempty : journal ≠ []) :
    Resumable invocation journal ↔ scan.ended = true ∨ scan.phase = .needTurnOpened := by
  unfold Resumable
  rw [or_iff_right nonempty, validate_of_scans scans nonempty]
  simp only [Except.ok.injEq, exists_eq_left']
  cases scan.ended with
  | true => simp
  | false => by_cases between : scan.phase = .needTurnOpened <;> simp [between]

theorem Closes.resumable (closes : Closes invocation journal) : Resumable invocation journal := by
  obtain ⟨nonempty, scan, scans, ended⟩ := closes
  exact (resumable_iff scans nonempty).mpr (.inl ended)

end Journals

section Run

variable {E : Type} {call : KernelCall E} {pass : Pass E} {world : World E} {journal : Journal}

def Pass.Between (call : KernelCall E) (pass : Pass E) : Prop :=
  ∃ pending, Scans call.config.identity.digest pass.journal
    ⟨.needTurnOpened, pass.turn, false, pending⟩

/-- How a pass ends: it strands, and returns a journal that ends in the opening of its turn; or it does
not, and lands or returns the journal it started with. -/
def Pass.Ended (call : KernelCall E) (pass : Pass E) (ending : TurnEnd) (world : World E) : Prop :=
  (pass.Strands call ∧ ∃ run, ending = .returned run ∧
      ¬ Resumable call.config.identity.digest run.journal) ∨
    ¬ pass.Strands call ∧
      ((∃ run, ending = .returned run ∧ Resumable call.config.identity.digest run.journal) ∨
        ∃ journal dispatched, ending = .continued journal dispatched ∧
          (Pass.mk (saturatingNext lastTurn pass.turn) journal dispatched world).Between call)

theorem Landed.ended {ending : TurnEnd} (spared : ¬ pass.Strands call)
    (landed : Landed call pass.turn ending world) : pass.Ended call ending world := by
  have limit := call.config.maxTurns_bound
  refine .inr ⟨spared, ?_⟩
  cases ending with
  | returned run => exact .inl ⟨run, rfl, Closes.resumable landed⟩
  | continued journal dispatched =>
    obtain ⟨room, -, pending, scans⟩ := landed
    refine .inr ⟨journal, dispatched, rfl, pending, ?_⟩
    have next : saturatingNext lastTurn pass.turn = pass.turn + 1 := by
      unfold saturatingNext
      omega
    rwa [next]

/-- **One pass strands exactly if it is cancelled right after it opened its turn.** -/
theorem turnFrom_ended (between : pass.Between call) :
    (call.turnFrom pass.turn pass.journal pass.dispatched).wp (pass.Ended call)
      (fun stop _ => ¬ Stuck stop) pass.world := by
  obtain ⟨pending, scans⟩ := between
  obtain ⟨turn, journal, dispatched, env, log⟩ := pass
  have crashed : ¬ Stuck .crashed := by simp [Stuck]
  unfold KernelCall.turnFrom
  rw [wp_bind]
  refine ask_ends (fun cancelled first checked => ?_) fun _ => crashed
  cases cancelled with
  | true =>
    refine .inr ⟨?_, .inl ⟨_, rfl, ?_⟩⟩
    · rintro ⟨_, _, _, _, _, unchecked, -⟩
      cases checked.symm.trans unchecked
    · by_cases empty : journal = []
      · exact .inl empty
      · exact (resumable_iff scans empty).mpr (.inr rfl)
  | false =>
    dsimp only
    rw [if_neg Bool.false_ne_true, wp_bind]
    refine ask_ends (fun observation second observed => ?_) fun _ => crashed
    rw [wp_bind]
    have opens : Scans call.config.identity.digest (journal ++ [call.opening turn observation])
        ⟨.needRequestIntent, turn, false, pending⟩ := scans.push (by
      simp [scanEntry, KernelCall.opening])
    refine wp_mono (Prog.wp.both (wp_self _ _) (unstuck_persist _ _ _ _))
      (fun _ opened persisted => ?_) fun _ _ => And.right
    rw [wp_bind]
    refine ask_ends (fun cancelled third checked' => ?_) fun _ => crashed
    cases cancelled with
    | true =>
      refine .inl ⟨⟨first, observation, second, opened, third, checked, observed,
        persisted.1, checked'⟩, _, rfl, ?_⟩
      exact mt (resumable_iff opens push_ne_nil).mp (by simp)
    | false =>
      have spared : ¬ (Pass.mk turn journal dispatched ⟨env, log⟩).Strands call := by
        rintro ⟨first', observation', second', opened', third', same₁, same₂, same₃, same₄⟩
        cases checked.symm.trans same₁
        cases observed.symm.trans same₂
        cases persisted.1.symm.trans same₃
        cases checked'.symm.trans same₄
      refine wp_mono (reserveRequest_lands rfl opens _)
        (fun ending world landed => landed.ended spared) fun _ _ => id

theorem leads_iff {dispatched : Nat}
    (ran : call.turnFrom pass.turn pass.journal pass.dispatched pass.world =
      (.ok (.continued journal dispatched), world)) (holds : Pass E → Prop) :
    (∀ last, pass.Leads call last → holds last) ↔ holds pass ∧
      ∀ last, (Pass.mk (saturatingNext lastTurn pass.turn) journal dispatched world).Leads call last →
        holds last := by
  constructor
  · intro all
    exact ⟨all pass (.here pass), fun last later => all last (.next ran later)⟩
  · rintro ⟨first, rest⟩ last leads
    cases leads with
    | here => exact first
    | next ran' later =>
      cases ran.symm.trans ran'
      exact rest last later

theorem turnsFrom_ended (fuel : Nat) (between : pass.Between call) :
    (call.turnsFrom fuel pass.turn pass.journal pass.dispatched).wp
      (fun run _ => Resumable call.config.identity.digest run.journal ↔
        ∀ last, pass.Leads call last → ¬ last.Strands call)
      (fun stop _ => ¬ Stuck stop) pass.world := by
  induction fuel generalizing pass with
  | zero => simp [KernelCall.turnsFrom, Stuck]
  | succ fuel ih =>
    unfold KernelCall.turnsFrom
    rw [wp_bind]
    refine wp_mono (Prog.wp.both (wp_self _ _) (turnFrom_ended between))
      (fun ending world ended => ?_) fun _ _ => And.right
    obtain ⟨ran, ended⟩ := ended
    have returns : ∀ {run}, ending = .returned run → ∀ last, pass.Leads call last → last = pass := by
      rintro run rfl last leads
      cases leads with
      | here => rfl
      | next ran' _ => exact nomatch ran.symm.trans ran'
    rcases ended with ⟨strands, run, same, stranded⟩ | ⟨spared, ⟨run, same, resumable⟩ |
      ⟨journal, dispatched, rfl, between'⟩⟩
    · subst same
      exact iff_of_false stranded fun all => all pass (.here pass) strands
    · refine same ▸ iff_of_true resumable fun last leads => ?_
      rw [returns same last leads]
      exact spared
    · refine wp_mono (ih between') (fun run _ exactly => ?_) fun _ _ => id
      rw [exactly, leads_iff ran, and_iff_right spared]

theorem runLiveInvocation_starts (call : KernelCall E) (journal : Journal) :
    (∃ stop, call.runLiveInvocation journal = Prog.stop stop ∧
        (Stuck stop → ¬ Resumable call.config.identity.digest journal)) ∨
      (call.runLiveInvocation journal = pure ⟨journal, KernelCall.terminalOutcomeOf journal, 0⟩ ∧
        Resumable call.config.identity.digest journal ∧
          ∀ world pass, ¬ call.Starts journal world pass) ∨
      ∃ turn pending, call.runLiveInvocation journal =
          call.turnsFrom (call.config.maxTurns + 1) turn journal 0 ∧
        Scans call.config.identity.digest journal ⟨.needTurnOpened, turn, false, pending⟩ ∧
        ∀ world pass, call.Starts journal world pass ↔ pass = ⟨turn, journal, 0, world⟩ := by
  have unstuck : ∀ error, error ≠ .uncertainIntent → error ≠ .unresolvedPrefix →
      ¬ Stuck (.refused error) := by
    rintro error certain resolved (same | same)
    · exact certain (Stop.refused.inj same)
    · exact resolved (Stop.refused.inj same)
  unfold KernelCall.runLiveInvocation
  dsimp only
  by_cases drift : call.handlers.schemaDigest ≠ call.config.interactionSchemaDigest
  · rw [if_pos drift]
    exact .inl ⟨_, rfl, fun stuck => absurd stuck (unstuck _ nofun nofun)⟩
  rw [if_neg drift]
  by_cases empty : journal = []
  · subst empty
    refine .inr (.inr ⟨0, none, rfl, scans_nil, fun world pass => ?_⟩)
    constructor
    · rintro ⟨turn, rfl, ⟨-, rfl⟩ | ⟨validated, ran, -⟩⟩
      · rfl
      · exact nomatch ran
    · rintro rfl
      exact ⟨0, rfl, .inl ⟨rfl, rfl⟩⟩
  rw [if_neg (by rwa [List.isEmpty_iff])]
  cases ran : validate journal call.config.identity.digest with
  | error fault =>
    left
    cases fault with
    | rejected error => exact ⟨_, rfl, fun stuck => absurd stuck (unstuck _ nofun nofun)⟩
    | overflow => exact ⟨_, rfl, fun stuck => by simp [Stuck] at stuck⟩
  | ok validated =>
    obtain ⟨-, scan, scans⟩ := accepted_iff.mp ⟨validated, ran⟩
    have same := ran.symm.trans (validate_of_scans scans empty)
    cases same
    dsimp only
    have resumable := resumable_iff scans empty
    obtain ⟨phase, turn, ended, pending⟩ := scan
    dsimp only at resumable ran ⊢
    cases ended with
    | true =>
      refine .inr (.inl ⟨rfl, resumable.mpr (.inl rfl), fun world pass => ?_⟩)
      rintro ⟨turn', rfl, ⟨isEmpty, -⟩ | ⟨validated, ran', terminal, -⟩⟩
      · exact empty isEmpty
      · cases ran.symm.trans ran'
        exact nomatch terminal
    | false =>
      by_cases waiting : phase = .needResponse
      · subst waiting
        exact .inl ⟨_, rfl, fun _ => mt resumable.mp (by simp)⟩
      · by_cases between : phase = .needTurnOpened
        · subst between
          refine .inr (.inr ⟨turn, pending, rfl, scans, fun world pass => ?_⟩)
          constructor
          · rintro ⟨turn', rfl, ⟨isEmpty, -⟩ | ⟨validated, ran', -, resumes⟩⟩
            · exact absurd isEmpty empty
            · cases ran.symm.trans ran'
              cases resumes
              rfl
          · rintro rfl
            exact ⟨turn, rfl, .inr ⟨_, ran, rfl, rfl⟩⟩
        · refine .inl ⟨.refused .unresolvedPrefix, ?_, fun _ => mt resumable.mp ?_⟩
          · simp [waiting, between]
          · simp [between]

theorem Resumable.proceeds {invocation : String} (resumable : Resumable invocation journal) :
    Proceeds invocation journal := by
  rintro E call world stop rfl ran stuck
  rcases runLiveInvocation_starts call journal with ⟨stop', same, stuck'⟩ | ⟨same, -⟩ |
    ⟨turn, pending, same, scans, -⟩
  · rw [same] at ran
    obtain rfl := Except.error.inj ran
    exact stuck' stuck resumable
  · rw [same] at ran
    exact nomatch ran
  · have ended := turnsFrom_ended (call.config.maxTurns + 1)
      (⟨pending, scans⟩ : (Pass.mk turn journal 0 world).Between call)
    rw [same] at ran
    unfold Prog.wp at ended
    dsimp only at ended
    cases ran' : call.turnsFrom (call.config.maxTurns + 1) turn journal 0 world with
    | mk outcome after =>
      rw [ran'] at ran ended
      obtain rfl := ran
      exact ended stuck

end Run

/-- Handlers that are cancelled after the first check. -/
def lateHandlers : LiveInvocationHandlers Nat where
  schemaDigest := "schema"
  invoke := fun _ checks => (some (.settled []), checks)
  decode := fun _ response checks => (some (.admitted response), checks)
  authorize := fun _ checks => (some (.ok "grant"), checks)
  checkDeadline := fun checks => (some (.ok ()), checks)
  checkPreDispatch := fun checks => (some (.ok ()), checks)
  reserve := fun request checks => (some (.ok request.effectiveBudget), checks)
  record := fun _ checks => (some (), checks)
  observe := fun _ checks => (some [], checks)
  reduce := fun _ _ checks => (some (.complete []), checks)
  effect := none
  sink := none
  isCancelled := fun checks => (some (decide (0 < checks)), checks + 1)

end Semaprax.LiveInvocation
