/-
**What each rule does to the history.**

A rule does not apply, and then says something about the run; or it applies, and then its event was
permitted and the tables go on to mirror the history.

* `TasksMirror.enter` / `TasksMirror.silent` — a task enters a state, or none does.
* `ScopesMirror.quiet` and the lemmas after it — the tables of the scopes, moment by moment.
* One lemma for each rule of a step, and `cancelScope_follows` for a cancellation.
-/

import Semaprax.ScopedTasks.Mirror

namespace Semaprax.ScopedTasks

open Library Relation

variable {model : ScopedTaskModel} {past : List Moment} {run after : ScopedTaskRun}
  {moment : Moment} {task scope : DeclarationId} {before state : TaskState}

theorem mem_states_iff : task ∈ run.states ↔ (run.stateOf task).isSome := by
  unfold ScopedTaskRun.stateOf
  rw [Option.isSome_map, Std.TreeMap.mem_iff_isSome_getElem?]

theorem PhasesMirror.enter (mirror : PhasesMirror model past run)
    (here : run.stateOf task = some before) (enters : moment.phase? = some (task, state))
    (grows : ∀ phase, state.Passed phase ↔ before.Passed phase ∨ phase = state)
    (states : ∀ other, after.stateOf other =
      if task = other then some state else run.stateOf other) :
    PhasesMirror model (past ++ [moment]) after where
  keyed := fun other => by
    rw [mem_states_iff, states, ← mirror.keyed, mem_states_iff]
    split_ifs with same
    · rw [← same, here]
      rfl
    · rfl
  entered := fun other now there phase => by
    rw [states] at there
    rw [entered_append, enters]
    split_ifs at there with same
    · obtain rfl := Option.some.inj there
      rw [grows, ← same, mirror.entered task before here]
      simp [eq_comm]
    · rw [mirror.entered other now there]
      simp [same]
  known := fun other phase entered => by
    rcases entered_append.mp entered with old | new
    · exact mirror.known other phase old
    · obtain ⟨rfl, -⟩ := Prod.mk.inj (Option.some.inj (enters.symm.trans new))
      exact mirror.known_of_stateOf here

theorem TasksMirror.enter (mirror : TasksMirror model past run)
    (here : run.stateOf task = some before) (enters : moment.phase? = some (task, state))
    (grows : ∀ phase, state.Passed phase ↔ before.Passed phase ∨ phase = state)
    (states : ∀ other, after.stateOf other =
      if task = other then some state else run.stateOf other)
    (staysOut : moment.ran? = none) (incomplete : state ≠ .completed)
    (seqs : ∀ other, after.seqOf other = run.seqOf other)
    (running : ∀ other, after.running = some other ↔ after.stateOf other = some .started)
    (completionSeq : after.completionSeq = run.completionSeq)
    (dependents : after.dependents = run.dependents)
    (counts : after.pendingDependencies = run.pendingDependencies) :
    TasksMirror model (past ++ [moment]) after where
  toPhasesMirror := mirror.toPhasesMirror.enter here enters grows states
  running := running
  order := fun i other => by
    rw [ranOf_append, staysOut, seqs]
    simpa using mirror.order i other
  count := by
    rw [ranOf_append, staysOut, completionSeq]
    simpa using mirror.count
  dependents := by
    rw [dependents]
    exact mirror.dependents
  counters := by
    have same : {other | Entered (past ++ [moment]) other .completed} =
        {other | Entered past other .completed} := by
      ext other
      show Entered (past ++ [moment]) other _ ↔ Entered past other _
      rw [entered_append, enters]
      simp [incomplete]
    rw [same, counts]
    exact mirror.counters

theorem TasksMirror.silent (mirror : TasksMirror model past run) (silent : moment.phase? = none)
    (states : after.states = run.states) (running : after.running = run.running)
    (completionSeq : after.completionSeq = run.completionSeq)
    (dependents : after.dependents = run.dependents)
    (counts : after.pendingDependencies = run.pendingDependencies) :
    TasksMirror model (past ++ [moment]) after := by
  have same : ∀ other phase, Entered (past ++ [moment]) other phase ↔ Entered past other phase := by
    intro other phase
    rw [entered_append, silent]
    simp
  have stateOf : ∀ other, after.stateOf other = run.stateOf other := fun other => by
    unfold ScopedTaskRun.stateOf
    rw [states]
  have seqOf : ∀ other, after.seqOf other = run.seqOf other := fun other => by
    unfold ScopedTaskRun.seqOf
    rw [states]
  have order : ranOf (past ++ [moment]) = ranOf past := by
    rw [ranOf_append, Moment.ran?_eq_none silent, Option.toList_none, List.append_nil]
  refine ⟨⟨?_, fun other state there phase => ?_, fun other phase entered => ?_⟩, fun other => ?_,
    fun i other => ?_, ?_, ?_, ?_⟩
  · rw [states]
    exact mirror.keyed
  · rw [same]
    exact mirror.entered other state ((stateOf other).symm.trans there) phase
  · exact mirror.known other phase ((same other phase).mp entered)
  · rw [running, stateOf]
    exact mirror.running other
  · rw [order, seqOf]
    exact mirror.order i other
  · rw [order, completionSeq]
    exact mirror.count
  · rw [dependents]
    exact mirror.dependents
  · rw [counts]
    simp only [same]
    exact mirror.counters

theorem TasksMirror.endTask (mirror : TasksMirror model past run)
    (here : run.stateOf task = some .started) (enters : moment.phase? = some (task, state))
    (grows : ∀ phase, state.Passed phase ↔ TaskState.started.Passed phase ∨ phase = state)
    (ends : moment.ran? = some task) (unstarted : state ≠ .started)
    (written : after.states = (run.ended task state).states) (idle : after.running = none)
    (completionSeq : after.completionSeq = run.completionSeq + 1)
    (dependents : after.dependents = run.dependents)
    (counters : Tallied {task | task ∈ model.tasks} {edge | edge ∈ edgeList model.dependencies}
      {other | Entered (past ++ [moment]) other .completed} after.pendingDependencies) :
    TasksMirror model (past ++ [moment]) after := by
  have states : ∀ other, after.stateOf other =
      if task = other then some state else run.stateOf other := by
    intro other
    unfold ScopedTaskRun.stateOf
    rw [written, ScopedTaskRun.ended, BTreeMap.getElem?_insert_eq]
    split_ifs <;> rfl
  have seqs : ∀ other, after.seqOf other =
      if task = other then some run.completionSeq else run.seqOf other := by
    intro other
    unfold ScopedTaskRun.seqOf
    rw [written, ScopedTaskRun.ended, BTreeMap.getElem?_insert_eq]
    split_ifs <;> rfl
  have notRan : task ∉ ranOf past := fun ran => by
    have reached := (mirror.ran_iff here).mp (mem_ranOf.mp ran)
    simp at reached
  have order : ranOf (past ++ [moment]) = ranOf past ++ [task] := by
    rw [ranOf_append, ends]
    rfl
  refine ⟨mirror.toPhasesMirror.enter here enters grows states, fun other => ?_,
    fun i other => ?_, ?_, fun prerequisite dependent => ?_, counters⟩
  · rw [idle]
    refine iff_of_false (fun running => nomatch running) fun running => ?_
    rw [states] at running
    split_ifs at running with same
    · exact unstarted (Option.some.inj running)
    · have first := (mirror.running task).mpr here
      have second := (mirror.running other).mpr running
      exact same (Option.some.inj (first.symm.trans second))
  · rw [order, seqs, List.getElem?_append]
    split_ifs with inside same same
    · have ended : (ranOf past)[i]? ≠ some other := fun found =>
        notRan (same ▸ List.mem_of_getElem? found)
      refine iff_of_false ended fun last => ?_
      rw [mirror.count, Option.some.inj last] at inside
      exact lt_irrefl i inside
    · exact mirror.order i other
    · rw [mirror.count] at inside ⊢
      rw [List.getElem?_singleton]
      split_ifs with last
      · exact iff_of_true (congrArg some same) (congrArg some (by omega))
      · refine iff_of_false (fun found => nomatch found) fun found => last ?_
        have := Option.some.inj found
        omega
    · refine iff_of_false (fun found => ?_) fun found => ?_
      · rw [List.getElem?_singleton] at found
        split_ifs at found
        exact same (Option.some.inj found)
      · exact inside (List.getElem?_eq_some_iff.mp ((mirror.order i other).mpr found)).1
  · rw [order, List.length_append, mirror.count, completionSeq]
    rfl
  · rw [dependents]
    exact mirror.dependents prerequisite dependent

theorem ScopesMirror.append (mirror : ScopesMirror model past run)
    (finalized : ∀ task, task ∈ after.finalizedTasks ↔
      task ∈ run.finalizedTasks ∨ .happened (.finalized task) = moment)
    (exited : ∀ scope, scope ∈ after.exitedScopes ↔
      scope ∈ run.exitedScopes ∨ ∃ outcome, .happened (.scopeExited scope outcome) = moment)
    (calls : ∀ scope, .called scope = moment → scope ∈ model.scopes)
    (cancelled : ∀ scope, scope ∈ after.cancelledScopes ↔ scope ∈ run.cancelledScopes ∨
      ∃ outer, .called outer = moment ∧ Within model.parentOf scope outer)
    (announced : ∀ scope, scope ∈ after.announcedCancellations ↔
      scope ∈ run.announcedCancellations ∨ .happened (.scopeCancelled scope) = moment)
    (failures : ∀ scope ∈ model.scopes, (after.scopeFailures[scope]?).map Prod.snd =
      ((run.scopeFailures[scope]?).map Prod.snd).or (failureIn model scope moment))
    (outcomes : ∀ scope ∈ after.exitedScopes, scope ∈ after.scopeOutcomes)
    (left : ∀ scope outcome, .happened (.scopeExited scope outcome) = moment →
      Left model past scope) :
    ScopesMirror model (past ++ [moment]) after where
  finalized := fun task => by rw [finalized, finalized_append, mirror.finalized]
  exited := fun scope => by rw [exited, exited_append, mirror.exited]
  calls := fun scope called => by
    rcases List.mem_append.mp called with old | new
    · exact mirror.calls scope old
    · exact calls scope (List.mem_singleton.mp new)
  cancelled := fun scope => by rw [cancelled, cancelledIn_append, mirror.cancelled]
  announced := fun scope => by
    rw [announced, List.mem_append, List.mem_singleton, mirror.announced]
  failures := fun scope known => by
    rw [failures scope known, firstFailure_append, mirror.failures scope known]
  outcomes := outcomes
  left := fun scope gone => by
    rcases exited_append.mp gone with old | ⟨outcome, new⟩
    · exact (mirror.left scope old).append
    · exact (left scope outcome new).append

/-- The moments that leave the tables of the scopes as they are. -/
def Moment.Quiet : Moment → Prop
  | .happened (.started _) => True
  | .happened (.completed _) => True
  | .happened (.cancelled _) => True
  | _ => False

theorem ScopesMirror.quiet (mirror : ScopesMirror model past run) (quiet : moment.Quiet)
    (finalized : after.finalizedTasks = run.finalizedTasks)
    (exited : after.exitedScopes = run.exitedScopes)
    (cancelled : after.cancelledScopes = run.cancelledScopes)
    (announced : after.announcedCancellations = run.announcedCancellations)
    (failures : after.scopeFailures = run.scopeFailures)
    (outcomes : after.scopeOutcomes = run.scopeOutcomes) :
    ScopesMirror model (past ++ [moment]) after := by
  refine mirror.append (fun task => ?_) (fun scope => ?_) (fun scope called => ?_) (fun scope => ?_)
    (fun scope => ?_) (fun scope known => ?_) ?_ (fun scope outcome exit => ?_)
  · rw [finalized]
    exact (or_iff_left fun same => by rw [← same] at quiet; exact quiet).symm
  · rw [exited]
    refine (or_iff_left ?_).symm
    rintro ⟨outcome, rfl⟩
    exact quiet
  · rw [← called] at quiet
    exact quiet.elim
  · rw [cancelled]
    refine (or_iff_left ?_).symm
    rintro ⟨outer, rfl, -⟩
    exact quiet
  · rw [announced]
    exact (or_iff_left fun same => by rw [← same] at quiet; exact quiet).symm
  · have noFailure : failureIn model scope moment = none := by
      unfold failureIn
      split
      · exact quiet.elim
      · rfl
    rw [failures, noFailure, Option.or_none]
  · rw [exited, outcomes]
    exact mirror.outcomes
  · rw [← exit] at quiet
    exact quiet.elim

/-- A rule applied: its event was permitted, and the run mirrors the history with it. -/
structure Follows (model : ScopedTaskModel) (past : List Moment) (run after : ScopedTaskRun)
    (event : TaskEvent) : Prop where
  permitted : Permitted model past (.happened event)
  tasks : TasksMirror model (past ++ [Moment.happened event]) after
  scopes : ScopesMirror model (past ++ [Moment.happened event]) after
  events : after.events = run.events
  complete : after.complete = run.complete

/-- A rule does not apply, and something holds then; or it applies, and no scope is left. -/
def Obeys (model : ScopedTaskModel) (past : List Moment) (run : ScopedTaskRun)
    (ruled : ScopedTaskRun.Ruled) (otherwise : Prop) : Prop :=
  (ruled = .ok none ∧ otherwise) ∨ ∃ after event, ruled = .ok (some (after, event)) ∧
    Follows model past run after event ∧ ∀ scope outcome, event ≠ .scopeExited scope outcome

theorem exists_entry (known : task ∈ model.tasks) : ∃ entry, model.tasks[task]? = some entry := by
  rwa [Std.TreeMap.mem_iff_isSome_getElem?, Option.isSome_iff_exists] at known

theorem setState_ok (here : run.stateOf task = some before) (state : TaskState) :
    ∃ changed, run.setState task state = .ok changed ∧
      (∃ states, changed = { run with
        states }) ∧
      (∀ other, changed.stateOf other = if task = other then some state else run.stateOf other) ∧
      ∀ other, changed.seqOf other = run.seqOf other := by
  obtain ⟨runtime, found, -⟩ := Option.map_eq_some_iff.mp here
  refine ⟨{ run with
    states := run.states.insert task { runtime with
      state } }, ?_, ⟨_, rfl⟩, fun other => ?_, fun other => ?_⟩
  · unfold ScopedTaskRun.setState
    rw [found]
    rfl
  · unfold ScopedTaskRun.stateOf
    rw [BTreeMap.getElem?_insert_eq]
    split_ifs <;> rfl
  · unfold ScopedTaskRun.seqOf
    rw [BTreeMap.getElem?_insert_eq]
    split_ifs with same
    · rw [← same, found]
      rfl
    · rfl

theorem settleCompletionEdges_some (sound : model.Sound) (mirror : TasksMirror model past run)
    (here : run.stateOf task = some .started) :
    ∃ counts, (run.ended task .completed).settleCompletionEdges task = some counts ∧
      Tallied {task | task ∈ model.tasks} {edge | edge ∈ edgeList model.dependencies}
        {other | Entered (past ++ [Moment.happened (.completed task)]) other .completed} counts := by
  have fresh : task ∉ {other | Entered past other .completed} := fun completed => by
    have passed := (mirror.entered task _ here _).mp completed
    exact nomatch passed
  have grown : {other | Entered (past ++ [Moment.happened (.completed task)]) other .completed} =
      insert task {other | Entered past other .completed} := by
    ext other
    show Entered (past ++ [_]) other _ ↔ other = task ∨ Entered past other _
    rw [entered_append]
    simp [Moment.phase?, or_comm, eq_comm]
  have ends : ∀ node, (task, node) ∈ edgeList model.dependencies → node ∈ model.tasks :=
    fun node edge => (sound.ends task node ((mem_edgeList _).mp edge)).2
  have linked : ∀ node, node ∈ (targetsOf run.dependents task).filter (fun dependent =>
      dependent ∈ run.pendingDependencies) ↔ (task, node) ∈ edgeList model.dependencies := by
    intro node
    rw [List.mem_filter, mirror.dependents, decide_eq_true_iff]
    refine ⟨fun edge => (mem_edgeList _).mpr edge.1, fun edge => ⟨(mem_edgeList _).mp edge, ?_⟩⟩
    rw [Std.TreeMap.mem_iff_isSome_getElem?, mirror.counters node (ends node edge)]
    rfl
  rw [grown]
  exact mirror.counters.settle (List.finite_toSet _) fresh
    ((targetsOf_nodup run.dependents task).filter _) linked ends

theorem mayEnd (mirror : TasksMirror model past run) (here : run.stateOf task = some .started)
    {entry : TaskEntry} (found : model.tasks[task]? = some entry) {outcome : TaskOutcome}
    (scripted : entry.outcome = outcome) : MayEnd model past task outcome where
  known := mirror.known_of_stateOf here
  started := (mirror.entered task _ here _).mpr rfl
  once := fun ended => by
    have reached := (mirror.ended_iff here).mp ended
    simp at reached
  scripted := by rw [found, ← scripted]; rfl

variable (sound : model.Sound) (tasks : TasksMirror model past run)
  (scopes : ScopesMirror model past run)

include sound tasks scopes

theorem applyRunningOutcome_obeys :
    Obeys model past run (run.applyRunningOutcome model) (run.running = none) := by
  unfold ScopedTaskRun.applyRunningOutcome
  cases running : run.running with
  | none => exact .inl ⟨rfl, rfl⟩
  | some task =>
    right
    have here := (tasks.running task).mp running
    obtain ⟨entry, found⟩ := exists_entry (tasks.known_of_stateOf here)
    obtain ⟨runtime, held, -⟩ := Option.map_eq_some_iff.mp here
    have home : model.scopeOf task = some entry.scope := by
      unfold ScopedTaskModel.scopeOf
      rw [found]
      rfl
    dsimp only
    rw [found, held]
    dsimp only [expect, Except.bind, Bind.bind]
    cases scripted : entry.outcome with
    | succeed =>
      obtain ⟨counts, settled, counters⟩ := settleCompletionEdges_some sound tasks here
      dsimp only
      rw [settled]
      refine ⟨_, _, rfl, ⟨mayEnd tasks here found scripted, ?_, ?_, rfl, rfl⟩, by simp⟩
      · exact tasks.endTask here rfl (by simp [TaskState.Passed]) rfl (by simp) rfl rfl rfl rfl
          counters
      · exact scopes.quiet trivial rfl rfl rfl rfl rfl rfl
    | fail failure =>
      refine ⟨_, _, rfl, ⟨mayEnd tasks here found scripted, ?_, ?_, rfl, rfl⟩, by simp⟩
      · have same : {other | Entered (past ++ [Moment.happened (.failed task failure)]) other
            .completed} = {other | Entered past other .completed} := by
          ext other
          show Entered (past ++ [_]) other _ ↔ Entered past other _
          rw [entered_append]
          simp [Moment.phase?]
        have counters := tasks.counters
        rw [← same] at counters
        exact tasks.endTask here rfl (by simp [TaskState.Passed]) rfl (by simp) rfl rfl rfl rfl
          counters
      · refine scopes.append (by simp [ScopedTaskRun.recordFailure, ScopedTaskRun.ended])
          (by simp [ScopedTaskRun.recordFailure, ScopedTaskRun.ended]) (by simp)
          (by simp [ScopedTaskRun.recordFailure, ScopedTaskRun.ended])
          (by simp [ScopedTaskRun.recordFailure, ScopedTaskRun.ended])
          (fun scope known => ?_) scopes.outcomes (by simp)
        have lives : scope ∈ scopeLineage model.scopes entry.scope ↔
            model.LivesIn task scope := by
          rw [mem_scopeLineage sound (scopeOf_known sound home).2]
          unfold ScopedTaskModel.LivesIn
          rw [home]
          simp
        show ((List.foldl _ _ _)[scope]?).map Prod.snd = _
        rw [BTreeMap.getElem?_foldl_insertIfNew]
        unfold failureIn ScopedTaskRun.ended
        dsimp only
        by_cases inside : model.LivesIn task scope
        · rw [if_pos (lives.mpr inside), if_pos inside]
          cases run.scopeFailures[scope]? <;> rfl
        · rw [if_neg (mt lives.mp inside), if_neg inside, Option.or_none]

omit sound in
theorem materializeScopeCancelled_obeys :
    Obeys model past run run.materializeScopeCancelled True := by
  unfold ScopedTaskRun.materializeScopeCancelled
  cases found : run.cancelledScopes.toList.find? fun scope =>
      scope ∉ run.announcedCancellations with
  | none => exact .inl ⟨rfl, trivial⟩
  | some scope =>
    right
    have fresh := List.find?_some found
    have member := (BTreeSet.mem_toList_iff ..).mp (List.mem_of_find?_eq_some found)
    rw [decide_eq_true_iff, scopes.announced] at fresh
    rw [scopes.cancelled] at member
    have known : scope ∈ model.scopes := by
      obtain ⟨outer, called, within⟩ := member
      exact within_known within (scopes.calls outer called)
    refine ⟨_, _, rfl, ⟨⟨known, member, fresh⟩, ?_, ?_, rfl, rfl⟩, by simp⟩
    · exact tasks.silent rfl rfl rfl rfl rfl rfl
    · refine scopes.append (by simp) (by simp) (by simp) (by simp) (fun other => ?_)
        (fun other _ => ?_) scopes.outcomes (by simp)
      · show other ∈ run.announcedCancellations.insert scope ↔ _
        rw [BTreeSet.mem_insert_iff]
        simp [or_comm, eq_comm]
      · exact Option.or_none.symm

omit sound in
theorem cancelTask_follows (here : run.stateOf task = some .pending)
    (reason : (∃ scope, .called scope ∈ past ∧ model.LivesIn task scope) ∨
      ∃ prerequisite, TransGen model.Depends prerequisite task ∧
        (Entered past prerequisite .failed ∨ Entered past prerequisite .cancelled)) :
    ∃ after, run.setState task .cancelled = .ok after ∧
      Follows model past run after (.cancelled task) := by
  obtain ⟨after, ran, ⟨states, rfl⟩, stateOf, seqOf⟩ := setState_ok here .cancelled
  refine ⟨_, ran, ⟨⟨tasks.known_of_stateOf here, ?_, ?_, reason⟩, ?_, ?_, rfl, rfl⟩⟩
  · rw [tasks.entered task _ here]
    exact id
  · rw [tasks.ended_iff here]
    simp
  · refine tasks.enter here rfl (by simp [TaskState.Passed]) stateOf rfl (by simp) seqOf
      (fun other => ?_) rfl rfl rfl
    rw [stateOf]
    show run.running = some other ↔ _
    rw [tasks.running]
    split_ifs with same
    · rw [← same, here]
      simp
    · rfl
  · exact scopes.quiet trivial rfl rfl rfl rfl rfl rfl

theorem materializeTaskCancelled_obeys : Obeys model past run (run.materializeTaskCancelled model)
      (∀ task, run.stateOf task = some .pending → ¬ run.taskInCancelledScope model task) := by
  unfold ScopedTaskRun.materializeTaskCancelled
  cases found : run.pendingTasks.find? (run.taskInCancelledScope model) with
  | none =>
    exact .inl ⟨rfl, fun task here => List.find?_eq_none.mp found task (mem_pendingTasks.mpr here)⟩
  | some task =>
    right
    have here := mem_pendingTasks.mp (List.mem_of_find?_eq_some found)
    have cancelled := (scopes.taskInCancelledScope_iff sound).mp (List.find?_some found)
    obtain ⟨after, ran, follows⟩ := cancelTask_follows tasks scopes here (.inl cancelled)
    dsimp only
    rw [ran]
    exact ⟨after, _, rfl, follows, by simp⟩

theorem startReadyTask_obeys (idle : run.running = none) :
    Obeys model past run (run.startReadyTask model)
      (∀ task, run.stateOf task = some .pending →
        ¬ (run.isReady task ∧ ¬ run.taskInCancelledScope model task)) := by
  unfold ScopedTaskRun.startReadyTask
  cases found : run.pendingTasks.find? fun task =>
      run.isReady task && !run.taskInCancelledScope model task with
  | none =>
    refine .inl ⟨rfl, fun task here => ?_⟩
    have refused := List.find?_eq_none.mp found task (mem_pendingTasks.mpr here)
    simpa using refused
  | some task =>
    right
    have here := mem_pendingTasks.mp (List.mem_of_find?_eq_some found)
    have known := tasks.known_of_stateOf here
    have chosen := List.find?_some found
    rw [Bool.and_eq_true, Bool.not_eq_true', ← Bool.not_eq_true, tasks.isReady_iff known,
      scopes.taskInCancelledScope_iff sound] at chosen
    obtain ⟨changed, ran, ⟨states, rfl⟩, stateOf, seqOf⟩ := setState_ok here .started
    have unstarted : ∀ other, run.stateOf other ≠ some .started := fun other started => by
      rw [(tasks.running other).mpr started] at idle
      exact nomatch idle
    dsimp only
    rw [ran]
    refine ⟨_, _, rfl, ⟨?_, ?_, ?_, rfl, rfl⟩, by simp⟩
    · refine ⟨known, ?_, ?_, chosen.1, fun other started => ?_, fun scope called lives => ?_⟩
      · rw [tasks.entered task _ here]
        exact id
      · rw [tasks.ended_iff here]
        simp
      · obtain ⟨state, there⟩ := tasks.stateOf_some (tasks.known other _ started)
        have passed := (tasks.entered other state there _).mp started
        have other_unstarted := unstarted other
        rw [there] at other_unstarted
        rw [tasks.ended_iff there]
        cases state <;> simp_all [TaskState.Passed]
      · exact chosen.2 ⟨scope, called, lives⟩
    · refine tasks.enter here rfl (by simp [TaskState.Passed]) stateOf rfl (by simp) seqOf
        (fun other => ?_) rfl rfl rfl
      show some task = some other ↔ ScopedTaskRun.stateOf { run with
        states } other = _
      rw [stateOf]
      split_ifs with same
      · simp [same]
      · exact iff_of_false (fun equal => same (Option.some.inj equal)) (unstarted other)
    · exact scopes.quiet trivial rfl rfl rfl rfl rfl rfl

omit scopes in
/-- When no task runs and no pending task can be started, whatever is pending waits, directly or not,
for a task that has failed or was cancelled. The induction is on the dependencies. -/
theorem exists_blocker (idle : run.running = none)
    (stuck : ∀ task, run.stateOf task = some .pending → ¬ run.isReady task)
    (here : run.stateOf task = some .pending) :
    ∃ prerequisite, TransGen model.Depends prerequisite task ∧
      (Entered past prerequisite .failed ∨ Entered past prerequisite .cancelled) := by
  induction task using sound.acyclic.induction with
  | _ task ih =>
    have waits := stuck task here
    rw [tasks.isReady_iff (tasks.known_of_stateOf here)] at waits
    push Not at waits
    obtain ⟨prerequisite, depends, incomplete⟩ := waits
    obtain ⟨state, there⟩ := tasks.stateOf_some (sound.ends _ _ depends).1
    cases state with
    | pending =>
      obtain ⟨blocker, path, reached⟩ := ih prerequisite depends there
      exact ⟨blocker, path.tail depends, reached⟩
    | started =>
      rw [(tasks.running prerequisite).mpr there] at idle
      exact nomatch idle
    | completed => exact absurd ((tasks.entered _ _ there _).mpr (.inr rfl)) incomplete
    | failed =>
      exact ⟨prerequisite, .single depends, .inl ((tasks.entered _ _ there _).mpr (.inr rfl))⟩
    | cancelled =>
      exact ⟨prerequisite, .single depends, .inr ((tasks.entered _ _ there _).mpr rfl)⟩

theorem abandonBlockedTask_obeys (idle : run.running = none)
    (uncancelled : ∀ task, run.stateOf task = some .pending → ¬ run.taskInCancelledScope model task)
    (unready : ∀ task, run.stateOf task = some .pending →
      ¬ (run.isReady task ∧ ¬ run.taskInCancelledScope model task)) :
    Obeys model past run run.abandonBlockedTask (∀ task, run.stateOf task ≠ some .pending) := by
  have stuck : ∀ task, run.stateOf task = some .pending → ¬ run.isReady task :=
    fun task here isReady => unready task here ⟨isReady, uncancelled task here⟩
  unfold ScopedTaskRun.abandonBlockedTask
  cases found : run.pendingTasks.find? fun task => !run.isReady task with
  | none =>
    refine .inl ⟨rfl, fun task here => ?_⟩
    have isReady := List.find?_eq_none.mp found task (mem_pendingTasks.mpr here)
    rw [Bool.not_eq_true', Bool.not_eq_false] at isReady
    exact stuck task here isReady
  | some task =>
    right
    have here := mem_pendingTasks.mp (List.mem_of_find?_eq_some found)
    obtain ⟨after, ran, follows⟩ := cancelTask_follows tasks scopes here
      (.inr (exists_blocker sound tasks idle stuck here))
    dsimp only
    rw [ran]
    exact ⟨after, _, rfl, follows, by simp⟩

theorem finalizeOneTask_obeys : Obeys model past run (run.finalizeOneTask model)
      (∀ scope, run.exitCandidate model = some scope →
        run.unfinalizedRanTasks model scope = []) := by
  unfold ScopedTaskRun.finalizeOneTask
  cases candidate : run.exitCandidate model with
  | none => exact .inl ⟨rfl, fun scope found => nomatch found⟩
  | some scope =>
    dsimp only
    cases last : (run.unfinalizedRanTasks model scope).reverse.argmax fun task =>
        (run.seqOf task).getD 0 with
    | none =>
      rw [List.argmax_eq_none, List.reverse_eq_nil_iff] at last
      exact .inl ⟨rfl, fun other same => Option.some.inj same ▸ last⟩
    | some task =>
      right
      have settled := (exitCandidate_some sound tasks scopes candidate).2.2
      have member := List.argmax_mem last
      rw [List.mem_reverse, mem_unfinalizedRanTasks tasks scopes] at member
      obtain ⟨ran, fresh, home⟩ := member
      refine ⟨_, _, rfl, ⟨⟨?_, ran, fresh, fun other here => ?_, ?_⟩, ?_, ?_, rfl, rfl⟩, by simp⟩
      · exact ran.elim (tasks.known task _) (tasks.known task _)
      · exact Option.some.inj (home.symm.trans here) ▸ settled
      · intro earlier later order other inside here
        by_contra waits
        obtain ⟨i, there⟩ := List.mem_iff_getElem?.mp inside
        have first : run.seqOf task = some earlier.length := by
          rw [← tasks.order, order, List.getElem?_append_right le_rfl, Nat.sub_self]
          rfl
        have second : run.seqOf other = some (earlier.length + (i + 1)) := by
          rw [← tasks.order, order, List.getElem?_append_right (Nat.le_add_right _ _),
            Nat.add_sub_cancel_left]
          exact there
        have ran' : Ran past other := mem_ranOf.mp (order ▸ by simp [inside])
        have least := List.le_of_mem_argmax (List.mem_reverse.mpr
          ((mem_unfinalizedRanTasks tasks scopes).mpr ⟨ran', waits, here.trans home⟩)) last
        rw [first, second] at least
        simp only [Option.getD_some] at least
        omega
      · exact tasks.silent rfl rfl rfl rfl rfl rfl
      · refine scopes.append (fun other => ?_) (by simp) (by simp) (by simp) (by simp)
          (fun other _ => ?_) scopes.outcomes (by simp)
        · show other ∈ run.finalizedTasks.insert task ↔ _
          rw [BTreeSet.mem_insert_iff]
          simp [or_comm, eq_comm]
        · exact Option.or_none.symm

omit sound tasks in
theorem scopeExitOutcomeFor_eq (known : scope ∈ model.scopes) :
    run.scopeExitOutcomeFor scope = outcomeOf model past scope := by
  have failures := scopes.failures scope known
  unfold ScopedTaskRun.scopeExitOutcomeFor outcomeOf
  cases found : run.scopeFailures[scope]? with
  | none =>
    rw [found] at failures
    rw [← failures]
    dsimp only [Option.map_none]
    by_cases cancelled : scope ∈ run.cancelledScopes
    · rw [if_pos cancelled, if_pos ((scopes.cancelled scope).mp cancelled)]
    · rw [if_neg cancelled, if_neg (mt (scopes.cancelled scope).mpr cancelled)]
  | some entry =>
    rw [found] at failures
    rw [← failures]
    rfl

theorem exitOneScope_follows (drained : ∀ scope, run.exitCandidate model = some scope →
      run.unfinalizedRanTasks model scope = []) :
    (run.exitOneScope model = .ok none ∧ run.exitCandidate model = none) ∨
      ∃ after scope outcome,
        run.exitOneScope model = .ok (some (after, .scopeExited scope outcome)) ∧
          Follows model past run after (.scopeExited scope outcome) := by
  unfold ScopedTaskRun.exitOneScope
  cases candidate : run.exitCandidate model with
  | none => exact .inl ⟨rfl, rfl⟩
  | some scope =>
    right
    obtain ⟨known, inside, settled⟩ := exitCandidate_some sound tasks scopes candidate
    have empty := drained scope candidate
    have finalized : ∀ task, model.scopeOf task = some scope → Ran past task →
        Finalized past task := by
      intro task home ran
      by_contra waits
      have member := (mem_unfinalizedRanTasks tasks scopes).mpr ⟨ran, waits, home⟩
      rw [empty] at member
      cases member
    dsimp only
    rw [if_neg (not_not.mpr empty)]
    refine ⟨_, scope, _, rfl, ⟨known, inside, settled, finalized,
      scopeExitOutcomeFor_eq scopes known⟩, ?_, ?_, rfl, rfl⟩
    · exact tasks.silent rfl rfl rfl rfl rfl rfl
    · refine scopes.append (by simp) (fun other => ?_) (by simp) (by simp) (by simp)
        (fun other _ => Option.or_none.symm) (fun other member => ?_) ?_
      · show other ∈ run.exitedScopes.insert scope ↔ _
        rw [BTreeSet.mem_insert_iff]
        simp [or_comm, eq_comm]
      · refine (BTreeMap.mem_insert_iff ..).mpr ?_
        exact ((BTreeSet.mem_insert_iff ..).mp member).imp id (scopes.outcomes other)
      · intro other outcome same
        have here : other = scope ∧ outcome = run.scopeExitOutcomeFor scope := by
          simpa using same
        rw [here.1]
        refine ⟨fun task home => ?_, settled.children⟩
        rcases settled.tasks task home with ran | cancelled
        · exact .inr (finalized task home ran)
        · exact .inl cancelled

omit sound tasks scopes in
theorem mem_foldl_insert (candidates : List DeclarationId) (marked : BTreeSet DeclarationId)
    (inserted : Bool) (scope : DeclarationId) :
    scope ∈ (candidates.foldl (fun marked candidate =>
      (marked.1.insert candidate, marked.2 || decide (candidate ∉ marked.1)))
      (marked, inserted)).1 ↔ scope ∈ candidates ∨ scope ∈ marked := by
  induction candidates generalizing marked inserted with
  | nil => simp
  | cons candidate candidates ih =>
    rw [List.foldl_cons, ih, BTreeSet.mem_insert_iff, List.mem_cons]
    tauto

theorem cancelScope_follows (scope : DeclarationId) :
    (∃ error, run.cancelScope model scope = .error (.refused error)) ∨
      ∃ after inserted, run.cancelScope model scope = .ok (after, inserted) ∧
        scope ∈ model.scopes ∧ TasksMirror model (past ++ [Moment.called scope]) after ∧
        ScopesMirror model (past ++ [Moment.called scope]) after ∧ after.events = run.events ∧
        after.complete = run.complete := by
  unfold ScopedTaskRun.cancelScope refuseIf
  by_cases complete : run.complete = true
  · rw [if_pos complete]
    exact .inl ⟨_, rfl⟩
  rw [if_neg complete]
  by_cases known : scope ∈ model.scopes
  swap
  · rw [if_pos known]
    exact .inl ⟨_, rfl⟩
  rw [if_neg (not_not.mpr known)]
  refine .inr ⟨_, _, rfl, known, tasks.silent rfl rfl rfl rfl rfl rfl, ?_, rfl, rfl⟩
  refine scopes.append (by simp) (by simp) (fun other same => ?_) (fun other => ?_) (by simp)
    (fun other _ => Option.or_none.symm) scopes.outcomes (by simp)
  · obtain rfl : other = scope := by simpa using same
    exact known
  · rw [mem_foldl_insert, mem_descendantsIncluding sound known]
    simp [or_comm]

end Semaprax.ScopedTasks
