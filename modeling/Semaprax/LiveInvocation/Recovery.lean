/-
**Histories of runs across crashes** (`live_invocation/kernel.rs`, `persistence.rs`).

A history is a list of runs of the kernel, each from the journal that was last persisted before it,
however the one before ended: by returning, by a refusal, by a sink that failed or by a crash in the
middle of a call.

* `history_safe` — runs whose handlers keep a budget keep the log safe.
* `history_atMostOnce` — whatever the handlers do, no turn's model or effect is called twice, each
  call comes after the records that allow it, and every journal persisted is accepted. So is every
  journal returned, unless the run was cancelled before it opened the first turn.
-/

import Semaprax.LiveInvocation.Safety

namespace Semaprax.LiveInvocation

open Library

/-- One run of a history: its handlers, its sink, and the environment they start in, which may
depend on the journal that is resumed. -/
structure LiveRun (E : Type) where
  handlers : LiveInvocationHandlers E
  sink : Journal → E → Persisted × E
  start : Journal → E

/-- What a result of a run may be: a journal that is accepted, or still empty in a cancelled run, or
a stop that is neither a panic nor a lack of fuel. -/
def Settles (invocation : String) : Except Stop LiveKernelRun → Prop
  | .ok run => (run.journal = [] ∧ run.outcome = .cancelled) ∨ Accepted invocation run.journal
  | .error stop => stop ≠ .panicked ∧ stop ≠ .stalled

section History

variable {E : Type} (sha256 : Bytes → Bytes) (config : LiveInvocationConfig)

def LiveRun.call (run : LiveRun E) : KernelCall E :=
  ⟨sha256, config, { run.handlers with
    sink := some run.sink }⟩

/-- A run after a log, from the journal last persisted. -/
def LiveRun.result (run : LiveRun E) (log : List Event) : Except Stop LiveKernelRun × World E :=
  (run.call sha256 config).runLiveInvocation (stored log) ⟨run.start (stored log), log⟩

def history : List (LiveRun E) → List Event → List (Except Stop LiveKernelRun) × List Event
  | [], log => ([], log)
  | run :: runs, log =>
    let result := run.result sha256 config log
    let rest := history runs result.2.log
    (result.1 :: rest.1, rest.2)

variable {within : List I64 → Prop} {budget : E → List I64 → Prop} {log : List Event}

variable {invocation : String}

theorem LiveRun.result_safe {run : LiveRun E}
    (keeps : Keeps within budget (run.call sha256 config).handlers)
    (starts : budget (run.start (stored log)) (reservations (stored log)))
    (safe : Safe config.identity.digest within log) :
    Settles config.identity.digest (run.result sha256 config log).1 ∧
      Safe config.identity.digest within (run.result sha256 config log).2.log := by
  have meets := runLiveInvocation_safe keeps safe starts
  unfold LiveRun.result
  rcases wp_run meets with ⟨returned, after, ran, ends⟩ | ⟨stop, after, ran, stops⟩
  · rw [ran]
    exact ⟨ends.2, ends.1⟩
  · rw [ran]
    exact stops

theorem history_safe {runs : List (LiveRun E)}
    (keeps : ∀ run ∈ runs, Keeps within budget (run.call sha256 config).handlers)
    (starts : ∀ run ∈ runs, ∀ journal, within (reservations journal) →
      budget (run.start journal) (reservations journal))
    (safe : Safe config.identity.digest within log) :
    (∀ result ∈ (history sha256 config runs log).1, Settles config.identity.digest result) ∧
      Safe config.identity.digest within (history sha256 config runs log).2 := by
  induction runs generalizing log with
  | nil => exact ⟨List.forall_mem_nil _, safe⟩
  | cons run runs ih =>
    have first := LiveRun.result_safe sha256 config (keeps run List.mem_cons_self)
      (starts run List.mem_cons_self _ safe.budget) safe
    have rest := ih (fun other member => keeps other (List.mem_cons_of_mem _ member))
      (fun other member => starts other (List.mem_cons_of_mem _ member)) first.2
    refine ⟨fun result member => ?_, rest.2⟩
    rcases List.mem_cons.mp member with rfl | later
    · exact first.1
    · exact rest.1 result later

theorem safe_nil (nothing : within []) : Safe invocation within [] where
  ordered := trivial
  budget := nothing
  charged := List.Sublist.refl _
  requested := List.forall_mem_nil _
  intended := List.forall_mem_nil _

theorem keeps_anything (run : LiveRun E) :
    Keeps (fun _ => True) (fun _ _ => True) (run.call sha256 config).handlers where
  within := fun _ _ _ => trivial
  invoke := fun _ _ _ _ => trivial
  decode := fun _ _ _ _ _ => trivial
  authorize := fun _ _ _ _ => trivial
  checkDeadline := fun _ _ _ => trivial
  checkPreDispatch := fun _ _ _ => trivial
  record := fun _ _ _ _ => trivial
  observe := fun _ _ _ _ => trivial
  reduce := fun _ _ _ _ _ => trivial
  effect := fun _ _ _ _ _ _ _ => trivial
  sink := ⟨run.sink, rfl, fun _ _ _ _ => trivial⟩
  isCancelled := fun _ _ _ => trivial
  reserved := fun _ _ _ _ _ _ _ => trivial
  refused := fun _ _ _ _ _ _ _ => trivial

/-- Calls at most once a turn, each after the records that allow it, and accepted journals only. -/
structure AtMostOnce (invocation : String) (log : List Event) : Prop where
  dispatchedOnce : ((dispatchedRequests log).map (·.turn)).Nodup
  dispatchedAfter : ∀ (later : List Event) (request : ModelInvocationRequest)
    (earlier : List Event), log = later ++ .invoked request :: earlier →
    EndsInIntent (stored earlier) request
  calledOnce : (calledTurns log).Nodup
  calledAfter : ∀ (later : List Event) (turn : Nat) (grant : String) (earlier : List Event),
    log = later ++ .called turn grant :: earlier → Authorized (stored earlier) turn
  accepted : ∀ journal, .persisted journal ∈ log → Accepted invocation journal

theorem Ordered.atMostOnce (ordered : Ordered invocation log) : AtMostOnce invocation log where
  dispatchedOnce := ordered.dispatched_nodup
  dispatchedAfter := fun _ _ _ split => (ordered.allowed split).2
  calledOnce := ordered.called_nodup
  calledAfter := fun _ _ _ _ split => (ordered.allowed split).2
  accepted := fun _ persisted => ordered.accepted persisted

/-- **At most one model call and one effect call per turn across crashes.** Over any history of runs,
whatever the handlers do and wherever each run is cut, the calls are made at most once a turn and
after the records that allow them, and the journals persisted are accepted. A run that returns,
returns an accepted journal, or the empty one when it is cancelled; it never panics. -/
theorem history_atMostOnce (runs : List (LiveRun E)) :
    AtMostOnce config.identity.digest (history sha256 config runs []).2 ∧
      ∀ result ∈ (history sha256 config runs []).1, Settles config.identity.digest result := by
  have keeps : ∀ run ∈ runs, Keeps (fun _ => True) (fun _ _ => True)
      (run.call sha256 config).handlers := fun run _ => keeps_anything sha256 config run
  have safe := history_safe sha256 config keeps (fun _ _ _ _ => trivial) (safe_nil trivial)
  exact ⟨safe.2.ordered.atMostOnce, safe.1⟩

end History

def oneTurn : LiveInvocationConfig where
  identity := ⟨"sha256:0"⟩
  task := []
  deploymentBinding := "deployment"
  interactionSchemaDigest := "schema"
  maxTurns := 1
  maxTurns_bound := by decide
  maxResponseBytes := 16
  requestedBudgetPerTurn := 1

/-- Handlers that answer at once, under a cancellation flag that is `cancelled`. -/
def promptHandlers (cancelled : Bool) : LiveInvocationHandlers Unit where
  schemaDigest := "schema"
  invoke := fun _ env => (some (.settled []), env)
  decode := fun _ response env => (some (.admitted response), env)
  authorize := fun _ env => (some (.ok "grant"), env)
  checkDeadline := fun env => (some (.ok ()), env)
  checkPreDispatch := fun env => (some (.ok ()), env)
  reserve := fun request env => (some (.ok request.effectiveBudget), env)
  record := fun _ env => (some (), env)
  observe := fun _ env => (some [], env)
  reduce := fun _ _ env => (some (.complete []), env)
  effect := none
  sink := none
  isCancelled := fun env => (some cancelled, env)

/-- A run that is cancelled before its first turn returns the empty journal, which is not accepted. -/
theorem history_cancelled :
    (history id oneTurn [⟨promptHandlers true, fun _ env => (.durable, env), fun _ => ()⟩] []).1 =
        [.ok ⟨[], .cancelled, 0⟩] ∧
      validate [] oneTurn.identity.digest = .error (.rejected .empty) := by
  decide +kernel

end Semaprax.LiveInvocation
