/-
**Checkpoints of a session** (`session_protocol/engine.rs`, `SessionTable::checkpoint`).

A checkpoint is refused while the record of the session has a call pending. The record has one slot
for it: a later call overwrites it, and any return clears it.

* `SessionTable.checkpoint` — a snapshot of a session, or why there is none.
* `outstanding` — how many calls of a session are not resolved.
* `Run.Settled.perform` — the step of a run.
* `checkpoints_settled_iff` — over whole runs, a checkpoint is only ever granted with no call
  outstanding exactly if no return is taken while more than one call is.
-/

import Semaprax.Library.Histories
import Semaprax.SessionProtocol.Histories

namespace Semaprax.SessionProtocol

open Library

variable {H : Type*}

/-- Why a checkpoint is refused. -/
inductive CheckpointError
  | unknownSession
  | staleHandle
  | inFlightCall (label : Label)
deriving DecidableEq, Repr

/-- A resumable snapshot of a session. -/
structure Checkpoint where
  sessionId : String
  state : StateId
  generation : Nat
deriving DecidableEq, Repr

/-- The snapshot of an endpoint's session, unless the endpoint is stale or a call is pending. -/
def SessionTable.checkpoint (table : SessionTable) (endpoint : Endpoint) :
    Except CheckpointError Checkpoint :=
  match table.records[endpoint.sessionId]? with
  | none => .error .unknownSession
  | some record =>
    if record.generation ≠ endpoint.generation then .error .staleHandle
    else
      match record.pending with
      | some label => .error (.inFlightCall label)
      | none => .ok ⟨endpoint.sessionId, record.state, record.generation⟩

/-- The number of calls that are not resolved after one more transition: a return resolves one call,
an escape all of them. -/
def Kind.resolve (calls : Nat) : Kind → Nat
  | .call => calls + 1
  | .return => calls - 1
  | .cancel | .timeout | .fail => 0
  | .send | .receive => calls

/-- How many calls are not resolved after transitions of these kinds. -/
def outstanding (kinds : List Kind) : Nat := kinds.foldl Kind.resolve 0

/-- The kind of the transition that a successful `advance` of the session took. -/
def Performed.kind (sessionId : String) (performed : Performed) : Option Kind := do
  let move ← performed.event.move sessionId
  let record ← performed.before.records[sessionId]?
  let transition ← (performed.before.spec.transitionsFrom record.state).find? (·.label = move.1)
  pure transition.kind

def kindsOf (sessionId : String) (history : List Performed) : List Kind :=
  history.filterMap (Performed.kind sessionId)

/-- A checkpoint after the last call is granted only to a session whose calls are all resolved. -/
def ChecksResolved (earlier : List Performed) (performed : Performed) : Prop :=
  ∀ endpoint checkpoint, performed.after.checkpoint endpoint = .ok checkpoint →
    outstanding (kindsOf endpoint.sessionId (earlier ++ [performed])) = 0

/-- A return is taken only if it resolves the last call that is not resolved. -/
def ReturnsLast (earlier : List Performed) (performed : Performed) : Prop :=
  ∀ sessionId, performed.kind sessionId = some .return →
    outstanding (kindsOf sessionId earlier) ≤ 1

variable {record : SessionRecord} {transition : Transition} {target : StateId}

theorem outstanding_append (kinds : List Kind) (kind : Kind) :
    outstanding (kinds ++ [kind]) = kind.resolve (outstanding kinds) := by
  unfold outstanding
  rw [List.foldl_append]
  rfl

theorem kindsOf_append (sessionId : String) (earlier : List Performed) (performed : Performed) :
    kindsOf sessionId (earlier ++ [performed]) =
      kindsOf sessionId earlier ++ (performed.kind sessionId).toList := by
  unfold kindsOf
  rw [List.filterMap_append]
  cases taken : performed.kind sessionId <;> simp [taken]

theorem SessionTable.checkpoint_iff (table : SessionTable) (sessionId : String) :
    (∃ endpoint checkpoint, endpoint.sessionId = sessionId ∧
      table.checkpoint endpoint = .ok checkpoint) ↔
    ∃ record, table.records[sessionId]? = some record ∧ record.pending = none := by
  constructor
  · rintro ⟨endpoint, checkpoint, rfl, granted⟩
    unfold SessionTable.checkpoint at granted
    cases known : table.records[endpoint.sessionId]? with
    | none =>
      rw [known] at granted
      cases granted
    | some record =>
      simp only [known] at granted
      split_ifs at granted with stale
      cases pending : record.pending with
      | none => exact ⟨record, rfl, pending⟩
      | some label =>
        rw [pending] at granted
        cases granted
  · rintro ⟨record, known, pending⟩
    refine ⟨⟨sessionId, record.state, record.generation, false⟩,
      ⟨sessionId, record.state, record.generation⟩, rfl, ?_⟩
    unfold SessionTable.checkpoint
    simp only [known, pending, ne_eq, not_true_eq_false, if_false]

theorem checksResolved_iff {earlier : List Performed} {performed : Performed} :
    ChecksResolved earlier performed ↔ ∀ (sessionId : String) (record : SessionRecord),
      performed.after.records[sessionId]? = some record → record.pending = none →
        outstanding (kindsOf sessionId (earlier ++ [performed])) = 0 := by
  constructor
  · intro checks sessionId record known pending
    obtain ⟨endpoint, checkpoint, rfl, granted⟩ :=
      (performed.after.checkpoint_iff sessionId).mpr ⟨record, known, pending⟩
    exact checks endpoint checkpoint granted
  · intro resolved endpoint checkpoint granted
    obtain ⟨record, known, pending⟩ :=
      (performed.after.checkpoint_iff endpoint.sessionId).mp ⟨endpoint, checkpoint, rfl, granted⟩
    exact resolved endpoint.sessionId record known pending

/-- In a run so far, a session without a pending call has none that is not resolved. -/
structure Run.Settled (run : Run H) : Prop where
  unknown : ∀ sessionId : String, run.table.records[sessionId]? = none →
    kindsOf sessionId run.history = []
  resolved : ∀ (sessionId : String) (record : SessionRecord),
    run.table.records[sessionId]? = some record → record.pending = none →
      outstanding (kindsOf sessionId run.history) = 0

theorem Run.new_settled (spec : ProtocolSpec) (handlerState : H) :
    (Run.new spec handlerState).Settled where
  unknown := fun _ _ => rfl
  resolved := fun _ _ _ _ => rfl

/-- The transition that a granted `advance` took, in the history. -/
theorem SessionTable.Took.kind {table after : SessionTable} {old : Endpoint} {operation : Operation}
    {outcome : AdvanceOutcome} (took : table.Took old operation record transition target)
    (sessionId : String) :
    Performed.kind sessionId ⟨table, .advanced old operation (.ok outcome), after⟩ =
      if old.sessionId = sessionId then some transition.kind else none := by
  unfold Performed.kind
  simp only [TableEvent.move]
  split_ifs with same
  · subst same
    simp only [Option.bind_eq_bind, Option.bind_some, took.known, took.found]
    rfl
  · rfl

/-- The pending call after a transition, against the calls that are not resolved: only a return can
make a difference. -/
theorem moveTo_resolved {label : Label} {isTerminal : Bool} {kinds : List Kind}
    (before : record.pending = none → outstanding kinds = 0) :
    ((record.moveTo transition label target isTerminal).pending = none →
      outstanding (kinds ++ [transition.kind]) = 0) ↔
        (transition.kind = .return → outstanding kinds ≤ 1) := by
  rw [outstanding_append]
  unfold SessionRecord.moveTo
  cases kind : transition.kind <;>
    simp [Kind.opensPending, Kind.isEscape, Kind.resolve, Nat.sub_eq_zero_iff_le]
  all_goals exact before

/-- **The step of a run.** As long as the sessions are settled, the checkpoints after one more call
are granted to settled sessions only if its return, if it took one, resolved the last call. -/
theorem Run.Settled.perform {run next : Run H} {call : TableCall H} (settled : run.Settled)
    (performed : run.perform call = some next) : ∃ last,
      next.history = run.history ++ [last] ∧
      (ChecksResolved run.history last ↔ ReturnsLast run.history last) ∧
      (ChecksResolved run.history last → next.Settled) := by
  rcases Run.perform_cases performed with ⟨event, table, -, history, still, -⟩ |
    ⟨sessionId, endpoint, isTerminal, unknown, -, table, -, history⟩ |
    ⟨old, operation, record, transition, target, outcome, took, -, table, -, history⟩
  · have idle (sessionId : String) : Performed.kind sessionId ⟨run.table, event, run.table⟩ = none := by
      unfold Performed.kind
      rw [still]
      rfl
    have same (sessionId : String) :
        kindsOf sessionId (run.history ++ [⟨run.table, event, run.table⟩]) =
          kindsOf sessionId run.history := by
      rw [kindsOf_append, idle, Option.toList_none, List.append_nil]
    have checks : ChecksResolved run.history ⟨run.table, event, run.table⟩ := by
      rw [checksResolved_iff]
      intro sessionId record known pending
      rw [same]
      exact settled.resolved sessionId record known pending
    refine ⟨_, history, ⟨fun _ sessionId taken => ?_, fun _ => checks⟩, fun _ => ⟨?_, ?_⟩⟩
    · rw [idle] at taken
      cases taken
    · intro sessionId missing
      rw [history, same]
      exact settled.unknown sessionId (by rwa [← table])
    · intro sessionId record known pending
      rw [history, same]
      exact settled.resolved sessionId record (by rwa [← table]) pending
  · have idle (other : String) :
        Performed.kind other ⟨run.table, .opened sessionId (.ok endpoint), next.table⟩ = none := rfl
    have same (other : String) : kindsOf other
        (run.history ++ [⟨run.table, .opened sessionId (.ok endpoint), next.table⟩]) =
          kindsOf other run.history := by
      rw [kindsOf_append, idle, Option.toList_none, List.append_nil]
    have records (other : String) : next.table.records[other]? =
        if sessionId = other then some ⟨run.table.spec.initial, 0, none, isTerminal⟩
        else run.table.records[other]? := by
      rw [table]
      exact BTreeMap.getElem?_insert_eq ..
    have resolved (other : String) (record : SessionRecord)
        (known : next.table.records[other]? = some record) (pending : record.pending = none) :
        outstanding (kindsOf other run.history) = 0 := by
      rw [records] at known
      split_ifs at known with here
      · subst here
        rw [settled.unknown sessionId unknown]
        rfl
      · exact settled.resolved other record known pending
    have checks : ChecksResolved run.history
        ⟨run.table, .opened sessionId (.ok endpoint), next.table⟩ := by
      rw [checksResolved_iff]
      intro other record known pending
      rw [same]
      exact resolved other record known pending
    refine ⟨_, history, ⟨fun _ other taken => ?_, fun _ => checks⟩, fun _ => ⟨?_, ?_⟩⟩
    · rw [idle] at taken
      cases taken
    · intro other missing
      rw [history, same]
      rw [records] at missing
      split_ifs at missing
      exact settled.unknown other missing
    · intro other record known pending
      rw [history, same]
      exact resolved other record known pending
  · have kinds (other : String) : kindsOf other
        (run.history ++ [⟨run.table, .advanced old operation (.ok outcome), next.table⟩]) =
          kindsOf other run.history ++
            (if old.sessionId = other then some transition.kind else none).toList := by
      rw [kindsOf_append, took.kind]
    have records (other : String) : next.table.records[other]? =
        if old.sessionId = other then some (record.moveTo transition operation.label target
          (run.table.spec.terminal.contains target))
        else run.table.records[other]? := by
      rw [table]
      exact BTreeMap.getElem?_insert_eq ..
    have moved : ((record.moveTo transition operation.label target
          (run.table.spec.terminal.contains target)).pending = none →
        outstanding (kindsOf old.sessionId run.history ++ [transition.kind]) = 0) ↔
          (transition.kind = .return → outstanding (kindsOf old.sessionId run.history) ≤ 1) :=
      moveTo_resolved (settled.resolved old.sessionId record took.known)
    have checks : ChecksResolved run.history
        ⟨run.table, .advanced old operation (.ok outcome), next.table⟩ ↔
          (transition.kind = .return → outstanding (kindsOf old.sessionId run.history) ≤ 1) := by
      rw [checksResolved_iff, ← moved]
      constructor
      · intro resolved pending
        have here := resolved old.sessionId _ ((records _).trans (if_pos rfl)) pending
        rwa [kinds, if_pos rfl] at here
      · intro here other found known pending
        rw [kinds]
        rw [records] at known
        split_ifs at known with same
        · subst same
          cases known
          rw [if_pos rfl]
          exact here pending
        · rw [if_neg same, Option.toList_none, List.append_nil]
          exact settled.resolved other found known pending
    refine ⟨_, history, checks.trans ⟨fun last other taken => ?_, fun last taken => ?_⟩,
      fun resolved => ⟨?_, ?_⟩⟩
    · rw [took.kind] at taken
      split_ifs at taken with same
      subst same
      exact last (Option.some.inj taken)
    · refine last old.sessionId ?_
      rw [took.kind, if_pos rfl, taken]
    · intro other missing
      rw [records] at missing
      split_ifs at missing with same
      rw [history, kinds, if_neg same, Option.toList_none, List.append_nil]
      exact settled.unknown other missing
    · intro other found known pending
      rw [history]
      exact checksResolved_iff.mp resolved other found known pending

theorem Run.perform_history {run next : Run H} {call : TableCall H}
    (performed : run.perform call = some next) : ∃ last, next.history = run.history ++ [last] := by
  rcases Run.perform_cases performed with ⟨_, -, -, history, -⟩ |
    ⟨_, _, _, -, -, -, -, history⟩ | ⟨_, _, _, _, _, _, -, -, -, -, history⟩ <;>
  exact ⟨_, history⟩

theorem Run.Settled.performAll {run : Run H} (calls : List (TableCall H))
    (same : Throughout ChecksResolved run.history ↔ Throughout ReturnsLast run.history)
    (settled : Throughout ChecksResolved run.history → run.Settled) :
    Throughout ChecksResolved (run.performAll calls).history ↔
      Throughout ReturnsLast (run.performAll calls).history := by
  induction calls generalizing run with
  | nil => exact same
  | cons call calls ih =>
    unfold Run.performAll
    cases performed : run.perform call with
    | none => exact same
    | some next =>
      obtain ⟨last, history⟩ := Run.perform_history performed
      have stepped (checks : Throughout ChecksResolved run.history) :
          (ChecksResolved run.history last ↔ ReturnsLast run.history last) ∧
            (ChecksResolved run.history last → next.Settled) := by
        obtain ⟨other, history', step⟩ := (settled checks).perform performed
        have ends := history'.symm.trans history
        obtain rfl : other = last := (List.cons.inj (List.append_inj' ends rfl).2).1
        exact step
      refine ih ?_ fun checks => ?_
      · rw [history, throughout_append, throughout_append, ← same]
        exact and_congr_right fun checks => (stepped checks).1
      · rw [history, throughout_append] at checks
        exact (stepped checks.1).2 checks.2

/-- **Checkpoints are granted with every call resolved exactly if calls do not nest.** In a run of
any calls from an empty table, every checkpoint that is granted finds no call of its session
outstanding, if and only if no return is taken while more than one call of its session is. -/
theorem checkpoints_settled_iff (spec : ProtocolSpec) (handlerState : H)
    (calls : List (TableCall H)) :
    Throughout ChecksResolved ((Run.new spec handlerState).performAll calls).history ↔
      Throughout ReturnsLast ((Run.new spec handlerState).performAll calls).history :=
  Run.Settled.performAll calls ⟨fun _ => throughout_nil, fun _ => throughout_nil⟩
    fun _ => Run.new_settled spec handlerState

/-- A protocol in which a second call may be made before the first has returned. -/
def nestedSpec : ProtocolSpec where
  name := "nested"
  states := {"idle", "asked", "askedAgain", "answered", "done"}
  initial := "idle"
  terminal := {"done"}
  transitions :=
    [⟨"idle", "ask", .call, "unit", none, .none, .then "asked"⟩,
     ⟨"asked", "askAgain", .call, "unit", none, .none, .then "askedAgain"⟩,
     ⟨"askedAgain", "answer", .return, "unit", none, .none, .then "answered"⟩,
     ⟨"idle", "stop", .cancel, "unit", none, .none, .then "done"⟩,
     ⟨"asked", "stop", .cancel, "unit", none, .none, .then "done"⟩,
     ⟨"askedAgain", "stop", .cancel, "unit", none, .none, .then "done"⟩,
     ⟨"answered", "stop", .cancel, "unit", none, .none, .then "done"⟩]
  cleanup := [("done", [])]

/-- A session that makes two calls and returns from one. -/
def nestedCalls : List (TableCall Unit) :=
  let handler : CleanupHandler Unit := fun state _ _ _ => (.ok (), state)
  [.open "s", .advance ⟨"s", "idle", 0, false⟩ ⟨"ask", "unit", none, none, none⟩ handler,
    .advance ⟨"s", "asked", 1, false⟩ ⟨"askAgain", "unit", none, none, none⟩ handler,
    .advance ⟨"s", "askedAgain", 2, false⟩ ⟨"answer", "unit", none, none, none⟩ handler]

/-- The checkpoint after the return is granted, although the first call has not returned. -/
theorem checkpoint_nested : nestedSpec.validate = .ok () ∧
      ((Run.new nestedSpec ()).performAll nestedCalls).table.checkpoint
        ⟨"s", "answered", 3, false⟩ = .ok ⟨"s", "answered", 3⟩ ∧
      kindsOf "s" ((Run.new nestedSpec ()).performAll nestedCalls).history =
        [.call, .call, .return] ∧ outstanding [.call, .call, .return] = 1 := by
  decide +kernel

end Semaprax.SessionProtocol
