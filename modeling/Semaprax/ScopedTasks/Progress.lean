/-
**Runs end** (`scoped_tasks.rs`).

* `ScopedTaskRun.Abandons` — the step of a run abandons a task.
* `run_completes` — a bounded number of steps completes a run, whatever is cancelled between them; it is
  complete by leaving the root, when all tasks have ended and `finish` has a summary; an abandoned task
  depends on one that has failed or was cancelled.
-/

import Semaprax.ScopedTasks.Safety

namespace Semaprax.ScopedTasks

open Library Relation

def ScopedTaskRun.Abandons (model : ScopedTaskModel) (run : ScopedTaskRun) (task : DeclarationId) :
    Prop :=
  run.firstRule [applyRunningOutcome model, materializeScopeCancelled,
    materializeTaskCancelled model, startReadyTask model] = .ok none ∧
    ∃ after, run.abandonBlockedTask = .ok (some (after, .cancelled task))

variable {model : ScopedTaskModel} {history : History} {task : DeclarationId}

theorem Mirrors.abandoned (sound : model.Sound) (mirrors : Mirrors model history)
    (abandons : history.run.Abandons model task) :
    ∃ prerequisite, TransGen model.Depends prerequisite task ∧
      (history.run.stateOf prerequisite = some .failed ∨
        history.run.stateOf prerequisite = some .cancelled) := by
  obtain ⟨skips, after, applied⟩ := abandons
  obtain ⟨skip₁, skips⟩ := firstRule_none skips
  obtain ⟨-, skips⟩ := firstRule_none skips
  obtain ⟨skip₃, skips⟩ := firstRule_none skips
  obtain ⟨skip₄, -⟩ := firstRule_none skips
  have first := applyRunningOutcome_obeys sound mirrors.tasks mirrors.scopes
  rw [skip₁] at first
  have idle := first.skipped
  have third := materializeTaskCancelled_obeys sound mirrors.tasks mirrors.scopes
  rw [skip₃] at third
  have fourth := startReadyTask_obeys sound mirrors.tasks mirrors.scopes idle
  rw [skip₄] at fourth
  have here : history.run.stateOf task = some .pending := by
    unfold ScopedTaskRun.abandonBlockedTask at applied
    split at applied
    · exact nomatch applied
    · rename_i found chosen
      obtain ⟨changed, -, applied⟩ := bind_eq_ok.mp applied
      obtain ⟨-, same⟩ := Prod.mk.inj (Option.some.inj (Except.ok.inj applied))
      obtain rfl := TaskEvent.cancelled.inj same
      exact mem_pendingTasks.mp (List.mem_of_find?_eq_some chosen)
  obtain ⟨prerequisite, path, reached⟩ := exists_blocker sound mirrors.tasks idle
    (fun task here isReady => fourth.skipped task here ⟨isReady, third.skipped task here⟩) here
  refine ⟨prerequisite, path, ?_⟩
  have known := reached.elim (mirrors.tasks.known prerequisite _)
    (mirrors.tasks.known prerequisite _)
  obtain ⟨state, there⟩ := mirrors.tasks.stateOf_some known
  rw [mirrors.tasks.entered _ state there, mirrors.tasks.entered _ state there] at reached
  rw [there]
  cases state <;> simp_all [TaskState.Passed]

theorem Mirrors.all_terminal (sound : model.Sound) (mirrors : Mirrors model history)
    (complete : history.run.complete = true) (known : task ∈ model.tasks) :
    history.run.isTerminal task := by
  obtain ⟨scope, home⟩ := exists_scopeOf known
  have exited := mirrors.all_exited sound complete (scopeOf_known sound home).2
  rw [mirrors.tasks.isTerminal_iff known]
  rcases (mirrors.scopes.left scope exited).tasks task home with cancelled | finalized
  · exact .inr cancelled
  · -- it was permitted to be finalized
    obtain ⟨before, after, split⟩ := List.append_of_mem finalized
    have ran := (mirrors.orderly before _ after split).ran
    rw [split]
    exact .inl (ran.imp (fun entered => entered.mono (List.subset_append_left ..))
      fun entered => entered.mono (List.subset_append_left ..))

theorem Mirrors.finish_ok (mirrors : Mirrors model history)
    (complete : history.run.complete = true) :
    ∃ summary, history.run.finish model = .ok summary := by
  have exited := (mirrors.scopes.exited model.root).mpr (mirrors.complete.mp complete)
  have outcome := mirrors.scopes.outcomes model.root exited
  rw [Std.TreeMap.mem_iff_isSome_getElem?, Option.isSome_iff_exists] at outcome
  obtain ⟨rootOutcome, found⟩ := outcome
  refine ⟨⟨rootOutcome, history.run.totals⟩, ?_⟩
  unfold ScopedTaskRun.finish refuseIf
  rw [if_neg (by simp [complete]), found]
  rfl

/-- What progress a run has made after a number of steps. -/
structure Progress (model : ScopedTaskModel) (history : History) (steps : Nat) : Prop where
  /-- Three steps for each task and two for each scope complete the run. -/
  completes : 3 * model.tasks.size + 2 * model.scopes.size ≤ steps → history.run.complete = true
  /-- A step of a run that is not complete has an event. -/
  moves : history.run.complete = false →
    ∃ after event, history.run.step model = .ok (after, some event)
  /-- A complete run has left its root, -/
  exited : history.run.complete = true →
    ∃ outcome, .scopeExited model.root outcome ∈ history.run.events
  /-- all its tasks have ended, -/
  terminal : history.run.complete = true → ∀ task ∈ model.tasks, history.run.isTerminal task
  /-- and it has a summary. -/
  finishes : history.run.complete = true → ∃ summary, history.run.finish model = .ok summary
  /-- An abandoned task depends on one that has failed or was cancelled. -/
  abandoned : ∀ task, history.run.Abandons model task →
    ∃ prerequisite, TransGen model.Depends prerequisite task ∧
      (history.run.stateOf prerequisite = some .failed ∨
        history.run.stateOf prerequisite = some .cancelled)

/-- **Runs end.** Every sequence of calls, with cancellations wherever among them, makes progress by
its number of steps. -/
theorem run_completes {scopes : List ScopeSpec} {tasks : List TaskSpec}
    {dependencies : List DependencyEdge} {joins : List ScopeJoin}
    (accepted : ScopedTaskModel.tryNew scopes tasks dependencies joins = .ok model)
    (calls : List Call) :
    ∃ history, model.perform calls = .ok history ∧
      Progress model history (calls.count .step) := by
  have sound := tryNew_sound accepted
  obtain ⟨history, performed, mirrors, counted⟩ := perform_mirrors sound calls
  refine ⟨history, performed, fun many => ?_, fun incomplete => ?_, fun complete => ?_,
    fun complete task known => mirrors.all_terminal sound complete known,
    mirrors.finish_ok, fun task abandons => mirrors.abandoned sound abandons⟩
  · -- otherwise there is an event for each step, and one more to come
    by_contra incomplete
    rw [Bool.not_eq_true] at incomplete
    obtain ⟨after, event, -, mirrors'⟩ := step_mirrors sound mirrors incomplete
    have few := mirrors'.orderly.length_le
    rw [List.filterMap_append, List.length_append, counted incomplete] at few
    change calls.count .step + 1 ≤ _ at few
    omega
  · obtain ⟨after, event, ran, -⟩ := step_mirrors sound mirrors incomplete
    exact ⟨after, event, ran⟩
  · obtain ⟨outcome, member⟩ := mirrors.complete.mp complete
    refine ⟨outcome, ?_⟩
    rw [← mirrors.events]
    exact List.mem_filterMap.mpr ⟨_, member, rfl⟩

/-- Thirteen steps complete a run of the small model. -/
theorem run_completes_small : ∃ model,
    ScopedTaskModel.tryNew smallScopes smallTasks smallDependencies smallJoins = .ok model ∧
      ∃ history, model.perform (List.replicate 13 .step) = .ok history ∧
        Progress model history 13 := by
  obtain ⟨model, accepted⟩ := smallModel_accepted
  exact ⟨model, accepted, run_completes accepted (List.replicate 13 .step)⟩

end Semaprax.ScopedTasks
