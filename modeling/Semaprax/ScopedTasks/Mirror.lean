/-
**A run and its history.**

The tables of a run say what its history says.

* `TasksMirror` — the states of the tasks, the counters of what they wait for, the order in which they
  ended.
* `ScopesMirror` — what is cancelled, announced, finalized and left, and the first failures.
* What the conditions of the rules mean for the history: `isReady_iff`, `taskInCancelledScope_iff`,
  `canExit_iff`.
-/

import Semaprax.ScopedTasks.History

namespace Semaprax.ScopedTasks

open Library Relation

def TaskState.Passed : TaskState → TaskState → Prop
  | .pending, _ => False
  | .started, phase => phase = .started
  | .completed, phase => phase = .started ∨ phase = .completed
  | .failed, phase => phase = .started ∨ phase = .failed
  | .cancelled, phase => phase = .cancelled

section Mirrors

variable (model : ScopedTaskModel) (past : List Moment) (run : ScopedTaskRun)

/-- The tasks of a run are where its history has them. -/
structure PhasesMirror : Prop where
  keyed : ∀ task, task ∈ run.states ↔ task ∈ model.tasks
  entered : ∀ task state, run.stateOf task = some state →
    ∀ phase, Entered past task phase ↔ state.Passed phase
  known : ∀ task phase, Entered past task phase → task ∈ model.tasks

/-- So are the tables about them. -/
structure TasksMirror : Prop extends PhasesMirror model past run where
  running : ∀ task, run.running = some task ↔ run.stateOf task = some .started
  order : ∀ i task, (ranOf past)[i]? = some task ↔ run.seqOf task = some i
  count : (ranOf past).length = run.completionSeq
  dependents : ∀ prerequisite dependent,
    dependent ∈ targetsOf run.dependents prerequisite ↔ model.Depends prerequisite dependent
  counters : Tallied {task | task ∈ model.tasks} {edge | edge ∈ edgeList model.dependencies}
    {task | Entered past task .completed} run.pendingDependencies

/-- Every task of a scope that was left is cancelled or finalized, and every child was left. -/
structure Left (scope : DeclarationId) : Prop where
  tasks : ∀ task, model.scopeOf task = some scope →
    Entered past task .cancelled ∨ Finalized past task
  children : ∀ child, model.parentOf child = some (some scope) → Exited past child

/-- The scopes of a run are as its history has them. -/
structure ScopesMirror : Prop where
  finalized : ∀ task, task ∈ run.finalizedTasks ↔ Finalized past task
  exited : ∀ scope, scope ∈ run.exitedScopes ↔ Exited past scope
  calls : ∀ scope, .called scope ∈ past → scope ∈ model.scopes
  cancelled : ∀ scope, scope ∈ run.cancelledScopes ↔ CancelledIn model past scope
  announced : ∀ scope, scope ∈ run.announcedCancellations ↔
    .happened (.scopeCancelled scope) ∈ past
  failures : ∀ scope ∈ model.scopes,
    (run.scopeFailures[scope]?).map Prod.snd = firstFailure model past scope
  outcomes : ∀ scope ∈ run.exitedScopes, scope ∈ run.scopeOutcomes
  left : ∀ scope, Exited past scope → Left model past scope

end Mirrors

section Append

variable {model : ScopedTaskModel} {past : List Moment} {moment : Moment}
  {task scope : DeclarationId}

theorem exited_append : Exited (past ++ [moment]) scope ↔
    Exited past scope ∨ ∃ outcome, .happened (.scopeExited scope outcome) = moment := by
  unfold Exited
  simp [exists_or]

theorem finalized_append : Finalized (past ++ [moment]) task ↔
    Finalized past task ∨ .happened (.finalized task) = moment := by
  unfold Finalized
  simp

theorem cancelledIn_append : CancelledIn model (past ++ [moment]) scope ↔
    CancelledIn model past scope ∨
      ∃ outer, .called outer = moment ∧ Within model.parentOf scope outer := by
  unfold CancelledIn
  simp [or_and_right, exists_or]

theorem firstFailure_append : firstFailure model (past ++ [moment]) scope =
    (firstFailure model past scope).or (failureIn model scope moment) := by
  unfold firstFailure
  rw [List.findSome?_append]
  cases found : failureIn model scope moment <;> simp [List.findSome?, found]

theorem ranOf_append : ranOf (past ++ [moment]) = ranOf past ++ moment.ran?.toList := by
  unfold ranOf
  rw [List.filterMap_append]
  cases found : moment.ran? <;> simp [found]

theorem Left.append (left : Left model past scope) : Left model (past ++ [moment]) scope where
  tasks := fun task home => (left.tasks task home).imp Entered.append Finalized.append
  children := fun child isChild => (left.children child isChild).append

theorem Moment.ran?_eq_none (silent : moment.phase? = none) : moment.ran? = none := by
  unfold Moment.ran?
  split
  · exact nomatch silent
  · exact nomatch silent
  · rfl

end Append

section Meaning

variable {model : ScopedTaskModel} {past : List Moment} {run : ScopedTaskRun}
  {task scope : DeclarationId} {state : TaskState}

theorem isNode_iff : (model.parentOf scope).isSome ↔ scope ∈ model.scopes := by
  unfold ScopedTaskModel.parentOf parentIn
  rw [Option.isSome_map, Std.TreeMap.mem_iff_isSome_getElem?]

theorem mem_scopeLineage (sound : model.Sound) (known : scope ∈ model.scopes)
    (outer : DeclarationId) :
    outer ∈ scopeLineage model.scopes scope ↔ Within model.parentOf scope outer := by
  rw [Std.TreeMap.mem_iff_isSome_getElem?, Option.isSome_iff_exists] at known
  obtain ⟨entry, found⟩ := known
  have deep := sound.deep scope entry found
  refine mem_lineage deep ?_
  rw [← Std.TreeMap.length_keys]
  exact deep.lt_size fun other isNode => Std.TreeMap.mem_keys.mpr (isNode_iff.mp isNode)

theorem mem_descendantsIncluding (sound : model.Sound) (known : scope ∈ model.scopes)
    (inner : DeclarationId) :
    inner ∈ ScopedTaskRun.descendantsIncluding model scope ↔
      Within model.parentOf inner scope := by
  unfold ScopedTaskRun.descendantsIncluding
  rw [List.mem_dedup, List.mem_mergeSort, ← Std.TreeMap.length_keys]
  refine mem_collectFrom sound.children
    (fun other isNode => Std.TreeMap.mem_keys.mpr (isNode_iff.mp isNode)) ?_ (Nat.le_add_right _ _)
    inner
  refine ⟨List.mem_singleton_self scope, List.nodup_singleton scope, fun node member => ?_,
    fun i before => absurd before (Nat.not_lt_zero i)⟩
  obtain rfl := List.mem_singleton.mp member
  exact ⟨ReflTransGen.refl, isNode_iff.mpr known⟩

theorem within_known {inner outer : DeclarationId}
    (within : Within model.parentOf inner outer) (known : outer ∈ model.scopes) :
    inner ∈ model.scopes := by
  rcases within_iff.mp within with rfl | ⟨above, isChild, -⟩
  · exact known
  · exact isNode_iff.mp (by rw [isChild]; rfl)

theorem scopeOf_known (sound : model.Sound) (home : model.scopeOf task = some scope) :
    task ∈ model.tasks ∧ scope ∈ model.scopes := by
  obtain ⟨entry, found, rfl⟩ := Option.map_eq_some_iff.mp home
  refine ⟨?_, sound.homes task entry found⟩
  rw [Std.TreeMap.mem_iff_isSome_getElem?, found]
  rfl

theorem exists_scopeOf (known : task ∈ model.tasks) : ∃ scope, model.scopeOf task = some scope := by
  rw [Std.TreeMap.mem_iff_isSome_getElem?, Option.isSome_iff_exists] at known
  obtain ⟨entry, found⟩ := known
  exact ⟨entry.scope, by unfold ScopedTaskModel.scopeOf; rw [found]; rfl⟩

namespace PhasesMirror

section Mirrored

variable (mirror : PhasesMirror model past run)

include mirror

theorem stateOf_some (known : task ∈ model.tasks) : ∃ state, run.stateOf task = some state := by
  have keyed := (mirror.keyed task).mpr known
  rw [Std.TreeMap.mem_iff_isSome_getElem?, Option.isSome_iff_exists] at keyed
  obtain ⟨runtime, found⟩ := keyed
  exact ⟨runtime.state, by unfold ScopedTaskRun.stateOf; rw [found]; rfl⟩

theorem known_of_stateOf (here : run.stateOf task = some state) : task ∈ model.tasks := by
  obtain ⟨runtime, found, -⟩ := Option.map_eq_some_iff.mp here
  refine (mirror.keyed task).mp ?_
  rw [Std.TreeMap.mem_iff_isSome_getElem?, found]
  rfl

theorem ran_iff (here : run.stateOf task = some state) :
    Ran past task ↔ state = .completed ∨ state = .failed := by
  unfold Ran
  rw [mirror.entered task state here, mirror.entered task state here]
  cases state <;> simp [TaskState.Passed]

theorem ended_iff (here : run.stateOf task = some state) :
    Ended past task ↔ state = .completed ∨ state = .failed ∨ state = .cancelled := by
  unfold Ended
  rw [mirror.ran_iff here, mirror.entered task state here]
  cases state <;> simp [TaskState.Passed]

theorem isTerminal_iff (known : task ∈ model.tasks) : run.isTerminal task ↔ Ended past task := by
  obtain ⟨state, here⟩ := mirror.stateOf_some known
  rw [mirror.ended_iff here]
  unfold ScopedTaskRun.isTerminal
  rw [here]
  simp [or_assoc]

end Mirrored

end PhasesMirror

theorem mem_pendingTasks : task ∈ run.pendingTasks ↔ run.stateOf task = some .pending := by
  unfold ScopedTaskRun.pendingTasks
  rw [List.mem_filter, decide_eq_true_iff, BTreeMap.mem_keys_iff]
  refine and_iff_right_of_imp fun here => ?_
  obtain ⟨runtime, found, -⟩ := Option.map_eq_some_iff.mp here
  rw [Std.TreeMap.mem_iff_isSome_getElem?, found]
  rfl

theorem TasksMirror.isReady_iff (mirror : TasksMirror model past run)
    (known : task ∈ model.tasks) : run.isReady task ↔
      ∀ prerequisite, model.Depends prerequisite task → Entered past prerequisite .completed := by
  have finite : {edge | edge ∈ edgeList model.dependencies}.Finite := List.finite_toSet _
  unfold ScopedTaskRun.isReady
  rw [decide_eq_true_iff, Std.TreeMap.getD_eq_getD_getElem?, mirror.counters task known]
  show Set.ncard _ = 0 ↔ _
  rw [Set.ncard_eq_zero (waitingFor_finite finite _ task), Set.eq_empty_iff_forall_notMem]
  refine forall_congr' fun prerequisite => ?_
  show ¬ (_ ∈ edgeList model.dependencies ∧ ¬ Entered past prerequisite .completed) ↔ _
  rw [mem_edgeList, not_and, not_not]
  rfl

theorem ScopesMirror.taskInCancelledScope_iff (sound : model.Sound)
    (mirror : ScopesMirror model past run) : run.taskInCancelledScope model task ↔
      ∃ outer, .called outer ∈ past ∧ model.LivesIn task outer := by
  unfold ScopedTaskRun.taskInCancelledScope ScopedTaskModel.LivesIn ScopedTaskModel.scopeOf
  cases found : model.tasks[task]? with
  | none => simp
  | some entry =>
    have home := sound.homes task entry found
    show (List.any _ _) = true ↔ _
    simp only [List.any_eq_true, decide_eq_true_iff, mem_scopeLineage sound home,
      mirror.cancelled, CancelledIn, Option.map_some, Option.some.injEq, exists_eq_left']
    constructor
    · rintro ⟨scope, inside, outer, called, within⟩
      exact ⟨outer, called, inside.trans within⟩
    · rintro ⟨outer, called, within⟩
      exact ⟨entry.scope, ReflTransGen.refl, outer, called, within⟩

theorem canExit_iff (sound : model.Sound) (tasks : TasksMirror model past run)
    (scopes : ScopesMirror model past run) :
    run.canExit model scope ↔ ¬ Exited past scope ∧ Settled model past scope := by
  unfold ScopedTaskRun.canExit
  rw [Bool.and_eq_true, Bool.and_eq_true, decide_eq_true_iff, scopes.exited, List.all_eq_true,
    List.all_eq_true, and_assoc]
  refine and_congr_right fun _ => ⟨fun done => ⟨fun task home => ?_, fun child isChild => ?_⟩,
    fun settled => ⟨fun task member => ?_, fun child member => ?_⟩⟩
  · have known := (scopeOf_known sound home).1
    refine (tasks.isTerminal_iff known).mp (done.1 task (List.mem_filter.mpr ⟨?_, ?_⟩))
    · exact Std.TreeMap.mem_keys.mpr ((tasks.keyed task).mpr known)
    · rwa [decide_eq_true_iff]
  · have left := done.2 child ((sound.children scope child).mpr isChild)
    rwa [decide_eq_true_iff, scopes.exited] at left
  · obtain ⟨known, home⟩ := List.mem_filter.mp member
    rw [decide_eq_true_iff] at home
    exact (tasks.isTerminal_iff (scopeOf_known sound home).1).mpr (settled.tasks task home)
  · rw [decide_eq_true_iff, scopes.exited]
    exact settled.children child ((sound.children scope child).mp member)

theorem exitCandidate_some (sound : model.Sound) (tasks : TasksMirror model past run)
    (scopes : ScopesMirror model past run) (candidate : run.exitCandidate model = some scope) :
    scope ∈ model.scopes ∧ ¬ Exited past scope ∧ Settled model past scope := by
  obtain ⟨entry, best, rfl⟩ := Option.map_eq_some_iff.mp candidate
  have member := List.argmax_mem best
  rw [List.mem_reverse, List.mem_filter, Std.TreeMap.mem_toList_iff_getElem?_eq_some] at member
  refine ⟨?_, (canExit_iff sound tasks scopes).mp member.2⟩
  rw [Std.TreeMap.mem_iff_isSome_getElem?, member.1]
  rfl

theorem exitCandidate_none (sound : model.Sound) (tasks : TasksMirror model past run)
    (scopes : ScopesMirror model past run) (none : run.exitCandidate model = none)
    (known : scope ∈ model.scopes) (settled : Settled model past scope) : Exited past scope := by
  unfold ScopedTaskRun.exitCandidate at none
  rw [Option.map_eq_none_iff, List.argmax_eq_none, List.reverse_eq_nil_iff,
    List.filter_eq_nil_iff] at none
  rw [Std.TreeMap.mem_iff_isSome_getElem?, Option.isSome_iff_exists] at known
  obtain ⟨entry, found⟩ := known
  by_contra inside
  exact none (scope, entry) (Std.TreeMap.mem_toList_iff_getElem?_eq_some.mpr found)
    ((canExit_iff sound tasks scopes).mpr ⟨inside, settled⟩)

theorem mem_unfinalizedRanTasks (tasks : TasksMirror model past run)
    (scopes : ScopesMirror model past run) : task ∈ run.unfinalizedRanTasks model scope ↔
      Ran past task ∧ ¬ Finalized past task ∧ model.scopeOf task = some scope := by
  unfold ScopedTaskRun.unfinalizedRanTasks
  rw [List.mem_filter, Bool.and_eq_true, Bool.and_eq_true, decide_eq_true_iff, decide_eq_true_iff,
    Bool.or_eq_true, decide_eq_true_iff, decide_eq_true_iff, BTreeMap.mem_keys_iff,
    scopes.finalized, and_assoc]
  constructor
  · rintro ⟨-, here, fresh, home⟩
    refine ⟨?_, fresh, home⟩
    rcases here with here | here
    · exact (tasks.ran_iff here).mpr (.inl rfl)
    · exact (tasks.ran_iff here).mpr (.inr rfl)
  · rintro ⟨ran, fresh, home⟩
    have known : task ∈ model.tasks := ran.elim (tasks.known task _) (tasks.known task _)
    obtain ⟨state, here⟩ := tasks.stateOf_some known
    refine ⟨(tasks.keyed task).mpr known, ?_, fresh, home⟩
    rw [here]
    exact ((tasks.ran_iff here).mp ran).imp (congrArg some) (congrArg some)

end Meaning

end Semaprax.ScopedTasks
