/-
**Runs of a scoped-task model** (`scoped_tasks.rs`).

A run starts, ends, cancels and finalizes tasks and leaves scopes, one event a step; a scope may be
cancelled between two steps.

* The seven rules of a step, in the order in which they are tried; `ScopedTaskRun.step`.
* `ScopedTaskRun.cancelScope`, `ScopedTaskRun.finish`.
* `ScopedTaskModel.perform` — a run under any sequence of calls, with the history of what was called
  and what happened.
-/

import Semaprax.ScopedTasks.Accepted

namespace Semaprax.ScopedTasks

open Library

inductive ScopeExitOutcome
  | success
  | failed (task : DeclarationId) (failure : FailureKind)
  | cancelled
deriving DecidableEq, Repr

/-- The events of a run. -/
inductive TaskEvent
  | started (task : DeclarationId)
  | completed (task : DeclarationId)
  | failed (task : DeclarationId) (failure : FailureKind)
  | cancelled (task : DeclarationId)
  | scopeCancelled (scope : DeclarationId)
  | finalized (task : DeclarationId)
  | scopeExited (scope : DeclarationId) (outcome : ScopeExitOutcome)
deriving DecidableEq, Repr

inductive TaskState
  | pending
  | started
  | completed
  | failed
  | cancelled
deriving DecidableEq, Repr

/-- A task of a run: its state, and when it was completed or failed. -/
structure TaskRuntime where
  state : TaskState
  completionSeq : Option Nat

def TaskRuntime.pending : TaskRuntime := ⟨.pending, none⟩

structure RunTotals where
  started : Nat := 0
  completed : Nat := 0
  failed : Nat := 0
  cancelled : Nat := 0
deriving DecidableEq, Repr

structure ScopedTaskRun where
  states : BTreeMap DeclarationId TaskRuntime
  pendingDependencies : BTreeMap DeclarationId Nat
  dependents : Links DeclarationId
  cancelledScopes : BTreeSet DeclarationId
  announcedCancellations : BTreeSet DeclarationId
  exitedScopes : BTreeSet DeclarationId
  finalizedTasks : BTreeSet DeclarationId
  scopeFailures : BTreeMap DeclarationId (Nat × DeclarationId × FailureKind)
  scopeOutcomes : BTreeMap DeclarationId ScopeExitOutcome
  completionSeq : Nat
  events : List TaskEvent
  running : Option DeclarationId
  totals : RunTotals
  complete : Bool

/-- The outcome of the root, and the totals. -/
structure ScopeRunSummary where
  rootOutcome : ScopeExitOutcome
  totals : RunTotals

def ScopedTaskModel.prepareRun (model : ScopedTaskModel) : Except Fault ScopedTaskRun := do
  let pending ← expect (tally (edgeList model.dependencies) (BTreeMap.ofKeys model.tasks.keys 0))
  pure
    { states := BTreeMap.ofKeys model.tasks.keys TaskRuntime.pending
      pendingDependencies := pending
      dependents := successors (edgeList model.dependencies)
      cancelledScopes := ∅
      announcedCancellations := ∅
      exitedScopes := ∅
      finalizedTasks := ∅
      scopeFailures := ∅
      scopeOutcomes := ∅
      completionSeq := 0
      events := []
      running := none
      totals := {}
      complete := false }

def ScopedTaskModel.scopeOf (model : ScopedTaskModel) (task : DeclarationId) :
    Option DeclarationId :=
  (model.tasks[task]?).map TaskEntry.scope

namespace ScopedTaskRun

variable (model : ScopedTaskModel) (run : ScopedTaskRun)

def stateOf (task : DeclarationId) : Option TaskState := (run.states[task]?).map TaskRuntime.state

/-- When a task was completed or failed. -/
def seqOf (task : DeclarationId) : Option Nat := (run.states[task]?).bind TaskRuntime.completionSeq

/-- Append an event and count it. -/
def record (event : TaskEvent) : ScopedTaskRun :=
  { run with
    events := run.events ++ [event]
    totals :=
      match event with
      | .started _ => { run.totals with
          started := run.totals.started + 1 }
      | .completed _ => { run.totals with
          completed := run.totals.completed + 1 }
      | .failed _ _ => { run.totals with
          failed := run.totals.failed + 1 }
      | .cancelled _ => { run.totals with
          cancelled := run.totals.cancelled + 1 }
      | .scopeCancelled _ | .finalized _ | .scopeExited _ _ => run.totals }

def setState (task : DeclarationId) (state : TaskState) : Except Fault ScopedTaskRun := do
  let runtime ← expect run.states[task]?
  pure { run with
    states := run.states.insert task { runtime with
      state } }

def pendingTasks : List DeclarationId :=
  run.states.keys.filter fun task => run.stateOf task = some .pending

def taskInCancelledScope (task : DeclarationId) : Bool :=
  match model.tasks[task]? with
  | none => false
  | some entry => (scopeLineage model.scopes entry.scope).any fun scope =>
    scope ∈ run.cancelledScopes

/-- No prerequisite is left to wait for. -/
def isReady (task : DeclarationId) : Bool := run.pendingDependencies.getD task 0 = 0

/-- What a rule does, if it applies: the run that it leaves, and its event. -/
abbrev Ruled := Except Fault (Option (ScopedTaskRun × TaskEvent))

/-- Lower the counters of the dependents of a task, as far as they have one. -/
def settleCompletionEdges (task : DeclarationId) : Option (BTreeMap DeclarationId Nat) :=
  lowerAll run.pendingDependencies
    ((targetsOf run.dependents task).filter fun dependent => dependent ∈ run.pendingDependencies)

/-- Enter a failure for a scope and the scopes around it, where none is entered. -/
def recordFailure (task scope : DeclarationId) (failure : FailureKind) : ScopedTaskRun :=
  { run with
    scopeFailures := (scopeLineage model.scopes scope).foldl (fun failures scope =>
      failures.insertIfNew scope (run.completionSeq, task, failure)) run.scopeFailures }

def ended (task : DeclarationId) (state : TaskState) : ScopedTaskRun :=
  { run with
    running := none
    states := run.states.insert task ⟨state, some run.completionSeq⟩
    completionSeq := run.completionSeq + 1 }

def applyRunningOutcome : Ruled :=
  match run.running with
  | none => .ok none
  | some task => do
      let entry ← expect model.tasks[task]?
      let _ ← expect run.states[task]?
      match entry.outcome with
      | .succeed => do
          let pending ← expect (settleCompletionEdges (run.ended task .completed) task)
          let after := { run.ended task .completed with
            pendingDependencies := pending }
          pure (some (after, .completed task))
      | .fail failure =>
        pure (some (recordFailure model (run.ended task .failed) task entry.scope failure,
          .failed task failure))

def materializeScopeCancelled : Ruled :=
  match run.cancelledScopes.toList.find? fun scope => scope ∉ run.announcedCancellations with
  | none => .ok none
  | some scope =>
    let after := { run with
      announcedCancellations := run.announcedCancellations.insert scope }
    .ok (some (after, .scopeCancelled scope))

def materializeTaskCancelled : Ruled :=
  match run.pendingTasks.find? (run.taskInCancelledScope model) with
  | none => .ok none
  | some task => do
      let after ← run.setState task .cancelled
      pure (some (after, .cancelled task))

def startReadyTask : Ruled :=
  match run.pendingTasks.find? fun task =>
      run.isReady task && !run.taskInCancelledScope model task with
  | none => .ok none
  | some task => do
      let after ← run.setState task .started
      pure (some ({ after with
        running := some task }, .started task))

def abandonBlockedTask : Ruled :=
  match run.pendingTasks.find? fun task => !run.isReady task with
  | none => .ok none
  | some task => do
      let after ← run.setState task .cancelled
      pure (some (after, .cancelled task))

def isTerminal (task : DeclarationId) : Bool :=
  run.stateOf task = some .completed || run.stateOf task = some .failed ||
    run.stateOf task = some .cancelled

/-- A scope that has not been left, whose tasks have ended and whose children have been left. -/
def canExit (scope : DeclarationId) : Bool :=
  scope ∉ run.exitedScopes &&
    (run.states.keys.filter fun task => model.scopeOf task = some scope).all run.isTerminal &&
    (targetsOf model.children scope).all fun child => child ∈ run.exitedScopes

/-- The deepest scope that can be left, the least among equals (`max_by` keeps the last maximum). -/
def exitCandidate : Option DeclarationId :=
  ((model.scopes.toList.filter fun entry => run.canExit model entry.1).reverse.argmax
    fun entry => toLex (entry.2.depth, OrderDual.toDual entry.1)).map Prod.fst

/-- The tasks of a scope that have been completed or failed and are not finalized. -/
def unfinalizedRanTasks (scope : DeclarationId) : List DeclarationId :=
  run.states.keys.filter fun task =>
    (run.stateOf task = some .completed || run.stateOf task = some .failed) &&
      task ∉ run.finalizedTasks && model.scopeOf task = some scope

def finalizeOneTask : Ruled :=
  match run.exitCandidate model with
  | none => .ok none
  | some scope =>
    match (run.unfinalizedRanTasks model scope).reverse.argmax fun task =>
        (run.seqOf task).getD 0 with
    | none => .ok none
    | some task =>
      let after := { run with
        finalizedTasks := run.finalizedTasks.insert task }
      .ok (some (after, .finalized task))

def scopeExitOutcomeFor (scope : DeclarationId) : ScopeExitOutcome :=
  match run.scopeFailures[scope]? with
  | some (_, task, failure) => .failed task failure
  | none => if scope ∈ run.cancelledScopes then .cancelled else .success

def exitOneScope : Ruled :=
  match run.exitCandidate model with
  | none => .ok none
  | some scope =>
    if run.unfinalizedRanTasks model scope ≠ [] then .ok none
    else
      let outcome := run.scopeExitOutcomeFor scope
      let after := { run with
        exitedScopes := run.exitedScopes.insert scope
        scopeOutcomes := run.scopeOutcomes.insert scope outcome }
      .ok (some (after, .scopeExited scope outcome))

/-- The rules that are tried before a scope is left, in order. -/
def schedulingRules : List (ScopedTaskRun → Ruled) :=
  [applyRunningOutcome model, materializeScopeCancelled, materializeTaskCancelled model,
    startReadyTask model, abandonBlockedTask, finalizeOneTask model]

def firstRule : List (ScopedTaskRun → Ruled) → Ruled
  | [] => .ok none
  | rule :: rules => do
      match ← rule run with
      | some ruled => pure (some ruled)
      | none => firstRule rules

def step : Except Fault (ScopedTaskRun × Option TaskEvent) :=
  if run.complete then .ok (run, none)
  else do
    match ← run.firstRule (schedulingRules model) with
    | some (after, event) => pure (after.record event, some event)
    | none => do
        match ← run.exitOneScope model with
        | some (after, event) =>
          let after := after.record event
          let left := match event with
            | .scopeExited scope _ => decide (scope = model.root)
            | _ => false
          pure ({ after with
            complete := after.complete || left }, some event)
        | none => pure ({ run with
            complete := true }, none)

def descendantsIncluding (scope : DeclarationId) : List DeclarationId :=
  ((collectFrom model.children model.scopes.size 0 [scope]).mergeSort (· ≤ ·)).dedup

/-- Mark a scope and the scopes below it cancelled. -/
def cancelScope (scope : DeclarationId) : Except Fault (ScopedTaskRun × Bool) := do
  refuseIf run.complete .runAlreadyComplete
  refuseIf (scope ∉ model.scopes) .unknownScope
  let marked := (descendantsIncluding model scope).foldl (fun marked candidate =>
    (marked.1.insert candidate, marked.2 || decide (candidate ∉ marked.1)))
    (run.cancelledScopes, false)
  pure ({ run with
    cancelledScopes := marked.1 }, marked.2)

def finish : Except Fault ScopeRunSummary := do
  refuseIf (run.complete = false) .runNotComplete
  match run.scopeOutcomes[model.root]? with
  | none => .error (.refused .runNotComplete)
  | some rootOutcome => pure ⟨rootOutcome, run.totals⟩

end ScopedTaskRun

/-- A call on a run. -/
inductive Call
  | step
  | cancelScope (scope : DeclarationId)
deriving DecidableEq, Repr

/-- What a history is made of: events, and cancellations that were called and not refused. -/
inductive Moment
  | happened (event : TaskEvent)
  | called (scope : DeclarationId)
deriving DecidableEq, Repr

/-- A run with its history. -/
structure History where
  past : List Moment
  run : ScopedTaskRun

def History.make (model : ScopedTaskModel) (history : History) : Call → Except Fault History
  | .step => do
      let stepped ← history.run.step model
      pure ⟨history.past ++ (stepped.2.map Moment.happened).toList, stepped.1⟩
  | .cancelScope scope =>
    match history.run.cancelScope model scope with
    | .ok (after, _) => .ok ⟨history.past ++ [Moment.called scope], after⟩
    | .error (.refused _) => .ok history
    | .error .panicked => .error .panicked

def History.perform (model : ScopedTaskModel) : List Call → History → Except Fault History
  | [], history => .ok history
  | call :: calls, history => do
      let after ← history.make model call
      History.perform model calls after

/-- A sequence of calls on a run that was just prepared. -/
def ScopedTaskModel.perform (model : ScopedTaskModel) (calls : List Call) :
    Except Fault History := do
  let run ← model.prepareRun
  History.perform model calls ⟨[], run⟩

end Semaprax.ScopedTasks
