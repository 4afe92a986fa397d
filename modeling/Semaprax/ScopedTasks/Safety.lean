/-
**Runs are orderly** (`scoped_tasks.rs`).

Whatever is called, in whatever order, the run mirrors its history, and every moment of the history was
permitted when it came.

* `Mirrors` — the invariant; `step_mirrors`, `cancelScope_mirrors` — one call keeps it.
* `perform_mirrors` — so does any sequence of calls.
* `trace_orderly` — what that means for the events of a run.
-/

import Semaprax.ScopedTasks.Rules

namespace Semaprax.ScopedTasks

open Library Relation

/-- A run is as its history has it, and its history is orderly. -/
structure Mirrors (model : ScopedTaskModel) (history : History) : Prop where
  orderly : Orderly model history.past
  events : history.past.filterMap Moment.event? = history.run.events
  tasks : TasksMirror model history.past history.run
  scopes : ScopesMirror model history.past history.run
  complete : history.run.complete = true ↔ Exited history.past model.root

variable {model : ScopedTaskModel} {past : List Moment} {run after : ScopedTaskRun}
  {history : History} {rule : ScopedTaskRun → ScopedTaskRun.Ruled}
  {rules : List (ScopedTaskRun → ScopedTaskRun.Ruled)} {otherwise otherwise' : Prop}

theorem Obeys.skipped (obeys : Obeys model past run (.ok none) otherwise) : otherwise := by
  rcases obeys with ⟨-, holds⟩ | ⟨after, event, applied, -⟩
  · exact holds
  · exact nomatch applied

theorem Obeys.cons (first : Obeys model past run (rule run) otherwise')
    (rest : otherwise' → Obeys model past run (run.firstRule rules) otherwise) :
    Obeys model past run (run.firstRule (rule :: rules)) otherwise := by
  unfold ScopedTaskRun.firstRule
  rcases first with ⟨skipped, holds⟩ | ⟨after, event, applied, follows⟩
  · rw [skipped]
    exact rest holds
  · rw [applied]
    exact .inr ⟨after, event, rfl, follows⟩

theorem firstRule_none (skips : run.firstRule (rule :: rules) = .ok none) :
    rule run = .ok none ∧ run.firstRule rules = .ok none := by
  unfold ScopedTaskRun.firstRule at skips
  obtain ⟨ruled, tried, rest⟩ := bind_eq_ok.mp skips
  cases ruled with
  | none => exact ⟨tried, rest⟩
  | some applied => exact nomatch rest

/-- The run has nothing left but to leave a scope. -/
structure Drained (model : ScopedTaskModel) (run : ScopedTaskRun) : Prop where
  idle : run.running = none
  unpending : ∀ task, run.stateOf task ≠ some .pending
  finalized : ∀ scope, run.exitCandidate model = some scope →
    run.unfinalizedRanTasks model scope = []

section Sound

variable (sound : model.Sound)

include sound

theorem schedulingRules_obeys (tasks : TasksMirror model past run)
    (scopes : ScopesMirror model past run) :
    Obeys model past run (run.firstRule (ScopedTaskRun.schedulingRules model))
      (Drained model run) := by
  refine (applyRunningOutcome_obeys sound tasks scopes).cons fun idle => ?_
  refine (materializeScopeCancelled_obeys tasks scopes).cons fun _ => ?_
  refine (materializeTaskCancelled_obeys sound tasks scopes).cons fun uncancelled => ?_
  refine (startReadyTask_obeys sound tasks scopes idle).cons fun unready => ?_
  refine (abandonBlockedTask_obeys sound tasks scopes idle uncancelled unready).cons
    fun unpending => ?_
  exact (finalizeOneTask_obeys sound tasks scopes).cons fun finalized =>
    .inl ⟨rfl, idle, unpending, finalized⟩

theorem exists_settled (ended : ∀ task ∈ model.tasks, Ended past task)
    (inside : ¬ Exited past model.root) :
    ∃ scope ∈ model.scopes, ¬ Exited past scope ∧ Settled model past scope := by
  classical
  have rootKnown : model.root ∈ model.scopes := isNode_iff.mp (by rw [sound.root]; rfl)
  let remaining := model.scopes.keys.toFinset.filter fun scope => ¬ Exited past scope
  have mem_remaining : ∀ scope, scope ∈ remaining ↔ scope ∈ model.scopes ∧ ¬ Exited past scope := by
    intro scope
    show scope ∈ Finset.filter _ _ ↔ _
    rw [Finset.mem_filter, List.mem_toFinset, BTreeMap.mem_keys_iff]
  obtain ⟨scope, member, deepest⟩ := remaining.exists_max_image
    (fun scope => ((model.scopes[scope]?).map ScopeEntry.depth).getD 0)
    ⟨model.root, (mem_remaining _).mpr ⟨rootKnown, inside⟩⟩
  obtain ⟨known, stays⟩ := (mem_remaining scope).mp member
  refine ⟨scope, known, stays, fun task home => ended task (scopeOf_known sound home).1,
    fun child isChild => ?_⟩
  by_contra staysBelow
  have childKnown : child ∈ model.scopes := isNode_iff.mp (by rw [isChild]; rfl)
  have less := deepest child ((mem_remaining child).mpr ⟨childKnown, staysBelow⟩)
  rw [Std.TreeMap.mem_iff_isSome_getElem?, Option.isSome_iff_exists] at known childKnown
  obtain ⟨entry, found⟩ := known
  obtain ⟨entry', found'⟩ := childKnown
  obtain ⟨depth, deep, deeper⟩ := (sound.deep child entry' found').parent_deep isChild
  have same := (sound.deep scope entry found).unique deep
  rw [found, found'] at less
  simp only [Option.map_some, Option.getD_some] at less
  omega

omit sound in
theorem Follows.mirrors {event : TaskEvent} (mirrors : Mirrors model history)
    (follows : Follows model history.past history.run run event)
    (recorded : after = run.record event ∨ ∃ complete, after = { run.record event with
      complete })
    (complete : after.complete = true ↔
      Exited (history.past ++ [Moment.happened event]) model.root) :
    Mirrors model ⟨history.past ++ [Moment.happened event], after⟩ := by
  have events : (history.past ++ [Moment.happened event]).filterMap Moment.event? =
      run.events ++ [event] := by
    rw [List.filterMap_append, mirrors.events, follows.events]
    rfl
  have tasks := follows.tasks
  have scopes := follows.scopes
  refine ⟨mirrors.orderly.append follows.permitted, ?_, ?_, ?_, complete⟩
  · rcases recorded with rfl | ⟨complete, rfl⟩ <;> exact events
  · rcases recorded with rfl | ⟨complete, rfl⟩ <;>
      exact ⟨⟨tasks.keyed, tasks.entered, tasks.known⟩, tasks.running, tasks.order, tasks.count,
        tasks.dependents, tasks.counters⟩
  · rcases recorded with rfl | ⟨complete, rfl⟩ <;>
      exact ⟨scopes.finalized, scopes.exited, scopes.calls, scopes.cancelled, scopes.announced,
        scopes.failures, scopes.outcomes, scopes.left⟩

theorem step_mirrors (mirrors : Mirrors model history) (incomplete : history.run.complete = false) :
    ∃ after event, history.run.step model = .ok (after, some event) ∧
      Mirrors model ⟨history.past ++ [Moment.happened event], after⟩ := by
  have tasks := mirrors.tasks
  have scopes := mirrors.scopes
  have inside : ¬ Exited history.past model.root := by
    rw [← mirrors.complete, incomplete]
    exact Bool.false_ne_true
  unfold ScopedTaskRun.step
  rw [if_neg (by rw [incomplete]; exact Bool.false_ne_true)]
  rcases schedulingRules_obeys sound tasks scopes with
    ⟨skipped, drained⟩ | ⟨after, event, applied, follows, stays⟩
  · rw [skipped]
    dsimp only [Bind.bind, Except.bind]
    rcases exitOneScope_follows sound tasks scopes drained.finalized with
      ⟨-, none⟩ | ⟨after, scope, outcome, left, follows⟩
    · have ended : ∀ task ∈ model.tasks, Ended history.past task := by
        intro task known
        obtain ⟨state, here⟩ := tasks.stateOf_some known
        rw [tasks.ended_iff here]
        cases state with
        | pending => exact absurd here (drained.unpending task)
        | started =>
          have running := (tasks.running task).mpr here
          rw [drained.idle] at running
          exact nomatch running
        | completed | failed | cancelled => simp
      obtain ⟨scope, known, stays, settled⟩ := exists_settled sound ended inside
      exact absurd (exitCandidate_none sound tasks scopes none known settled) stays
    · rw [left]
      refine ⟨_, _, rfl, follows.mirrors mirrors (.inr ⟨_, rfl⟩) ?_⟩
      show (after.complete || decide (scope = model.root)) = true ↔ _
      rw [follows.complete, incomplete, Bool.false_or, decide_eq_true_iff, exited_append]
      simp [inside, eq_comm]
  · rw [applied]
    refine ⟨_, _, rfl, follows.mirrors mirrors (.inl rfl) ?_⟩
    show after.complete = true ↔ _
    rw [follows.complete, mirrors.complete, exited_append]
    refine (or_iff_left ?_).symm
    rintro ⟨outcome, same⟩
    exact stays _ _ (Moment.happened.inj same).symm

theorem make_mirrors (mirrors : Mirrors model history) (call : Call) :
    ∃ after, history.make model call = .ok after ∧ Mirrors model after ∧
      ∃ moments, after.past = history.past ++ moments ∧
        (after.run.complete = false → (moments.filterMap Moment.event?).length =
          [call].count .step) := by
  cases call with
  | step =>
    unfold History.make
    cases complete : history.run.complete with
    | true =>
      have stays : history.run.step model = .ok (history.run, none) := by
        unfold ScopedTaskRun.step
        rw [if_pos complete]
      dsimp only
      rw [stays]
      refine ⟨_, rfl, ?_, [], rfl, fun incomplete => ?_⟩
      · simpa using mirrors
      · rw [complete] at incomplete
        exact nomatch incomplete
    | false =>
      obtain ⟨after, event, ran, mirrors'⟩ := step_mirrors sound mirrors complete
      dsimp only
      rw [ran]
      exact ⟨_, rfl, mirrors', _, rfl, fun _ => rfl⟩
  | cancelScope scope =>
    unfold History.make
    dsimp only
    rcases cancelScope_follows sound mirrors.tasks mirrors.scopes scope with
      ⟨error, refused⟩ | ⟨after, inserted, ran, known, tasks, scopes, events, complete⟩
    · rw [refused]
      exact ⟨_, rfl, mirrors, [], (List.append_nil _).symm, fun _ => rfl⟩
    · rw [ran]
      refine ⟨_, rfl, ⟨mirrors.orderly.append known, ?_, tasks, scopes, ?_⟩, _, rfl, fun _ => rfl⟩
      · rw [List.filterMap_append, mirrors.events, events]
        exact List.append_nil _
      · rw [complete, mirrors.complete, exited_append]
        simp

theorem prepareRun_mirrors : ∃ run, model.prepareRun = .ok run ∧ Mirrors model ⟨[], run⟩ := by
  obtain ⟨counts, counted, tallied⟩ := tally_edges fun edge member => (sound.ends _ _ member).2
  unfold ScopedTaskModel.prepareRun
  rw [counted]
  have unentered : ∀ task phase, ¬ Entered [] task phase := by
    rintro task phase ⟨moment, member, -⟩
    cases member
  have stateOf : ∀ (task : DeclarationId) (state : TaskState), ((BTreeMap.ofKeys model.tasks.keys TaskRuntime.pending)[task]?).map
      TaskRuntime.state = some state → state = .pending := by
    intro task state here
    rw [BTreeMap.getElem?_ofKeys] at here
    split_ifs at here
    · exact (Option.some.inj here).symm
    · exact nomatch here
  refine ⟨_, rfl, Orderly.nil, rfl, ⟨⟨fun task => ?_, fun task state here phase => ?_,
    fun task phase entered => absurd entered (unentered task phase)⟩, fun task => ?_,
    fun i task => ?_, rfl, fun prerequisite dependent => ?_, ?_⟩, ?_, ?_⟩
  · rw [Std.TreeMap.mem_iff_isSome_getElem?, BTreeMap.getElem?_ofKeys, ← BTreeMap.mem_keys_iff]
    split_ifs with known <;> simp [known]
  · obtain rfl := stateOf task state here
    exact iff_of_false (unentered task phase) id
  · exact iff_of_false (fun running => nomatch running) fun started =>
      nomatch stateOf task .started started
  · refine iff_of_false (fun found => by simp [ranOf] at found) fun found => ?_
    change ((BTreeMap.ofKeys model.tasks.keys TaskRuntime.pending)[task]?).bind _ = _ at found
    rw [BTreeMap.getElem?_ofKeys] at found
    split_ifs at found <;> exact nomatch found
  · rw [mem_successors, mem_edgeList]
    rfl
  · intro task known
    have nothing : {other | Entered [] other .completed} = ∅ := by
      ext other
      exact iff_of_false (unentered other _) id
    rw [nothing]
    exact tallied task (Std.TreeMap.mem_keys.mpr known)
  · have unexited : ∀ scope, ¬ Exited [] scope := by
      rintro scope ⟨outcome, member⟩
      cases member
    refine ⟨by simp [Finalized], fun scope => ?_, by simp, by simp [CancelledIn], by simp,
      fun scope _ => ?_, by simp, fun scope gone => absurd gone (unexited scope)⟩
    · exact iff_of_false (by simp) (unexited scope)
    · simp [firstFailure]
  · refine iff_of_false Bool.false_ne_true ?_
    rintro ⟨outcome, member⟩
    cases member

/-- Any sequence of calls goes on with the history. While the run is not complete, each step among them
adds an event. -/
theorem History.perform_mirrors (calls : List Call) (mirrors : Mirrors model history) :
    ∃ after, History.perform model calls history = .ok after ∧ Mirrors model after ∧
      ∃ moments, after.past = history.past ++ moments ∧
        (after.run.complete = false → (moments.filterMap Moment.event?).length =
          calls.count .step) := by
  induction calls generalizing history with
  | nil => exact ⟨history, rfl, mirrors, [], (List.append_nil _).symm, fun _ => rfl⟩
  | cons call calls ih =>
    obtain ⟨between, made, mirrors', moments, grown, first⟩ := make_mirrors sound mirrors call
    obtain ⟨after, performed, mirrors'', moments', grown', rest⟩ := ih mirrors'
    refine ⟨after, ?_, mirrors'', moments ++ moments', ?_, fun incomplete => ?_⟩
    · unfold History.perform
      rw [made]
      exact performed
    · rw [grown', grown, List.append_assoc]
    · have earlier : between.run.complete = false := by
        -- the exit of the root stays in the history
        rw [← Bool.not_eq_true, mirrors'.complete]
        rintro ⟨outcome, member⟩
        rw [← Bool.not_eq_true, mirrors''.complete] at incomplete
        exact incomplete ⟨outcome, by rw [grown']; exact List.mem_append_left _ member⟩
      rw [List.filterMap_append, List.length_append, first earlier, rest incomplete,
        ← List.count_append]
      rfl

theorem perform_mirrors (calls : List Call) :
    ∃ history, model.perform calls = .ok history ∧ Mirrors model history ∧
      (history.run.complete = false →
        (history.past.filterMap Moment.event?).length = calls.count .step) := by
  obtain ⟨run, prepared, mirrors⟩ := prepareRun_mirrors sound
  obtain ⟨history, performed, mirrors', moments, grown, counted⟩ :=
    History.perform_mirrors sound calls mirrors
  refine ⟨history, ?_, mirrors', ?_⟩
  · unfold ScopedTaskModel.perform
    rw [prepared]
    exact performed
  · rw [grown]
    exact counted

theorem Mirrors.all_exited (mirrors : Mirrors model history)
    (complete : history.run.complete = true) {scope : DeclarationId}
    (known : scope ∈ model.scopes) : Exited history.past scope := by
  have inside : Within model.parentOf scope model.root := by
    rw [Std.TreeMap.mem_iff_isSome_getElem?, Option.isSome_iff_exists] at known
    obtain ⟨entry, found⟩ := known
    obtain ⟨root, isRoot, inside⟩ := (sound.deep scope entry found).rooted
    rwa [sound.single root isRoot] at inside
  clear known
  induction inside using ReflTransGen.head_induction_on with
  | refl => exact mirrors.complete.mp complete
  | head isChild _ ih => exact (mirrors.scopes.left _ ih).children _ isChild

end Sound

section Traces

variable {scopes : List ScopeSpec} {tasks : List TaskSpec} {dependencies : List DependencyEdge}
  {joins : List ScopeJoin}

/-- **Runs are orderly.** Under every sequence of calls no call panics, and the events of the run with
the cancellations among them make an orderly history: `Permitted` says what has gone before each. In a
complete run, whatever ran is finalized. -/
theorem trace_orderly
    (accepted : ScopedTaskModel.tryNew scopes tasks dependencies joins = .ok model)
    (calls : List Call) :
    ∃ history, model.perform calls = .ok history ∧
      history.past.filterMap Moment.event? = history.run.events ∧
      Orderly model history.past ∧
      (history.run.complete = true → ∀ task, Ran history.past task →
        Finalized history.past task) := by
  have sound := tryNew_sound accepted
  obtain ⟨history, performed, mirrors, -⟩ := perform_mirrors sound calls
  refine ⟨history, performed, mirrors.events, mirrors.orderly, fun complete task ran => ?_⟩
  have known : task ∈ model.tasks := ran.elim (mirrors.tasks.known task _) (mirrors.tasks.known task _)
  obtain ⟨scope, home⟩ := exists_scopeOf known
  have exited := mirrors.all_exited sound complete (scopeOf_known sound home).2
  rcases (mirrors.scopes.left scope exited).tasks task home with cancelled | finalized
  · -- a task that ran is in another state than a cancelled one
    obtain ⟨state, here⟩ := mirrors.tasks.stateOf_some known
    have ranState := (mirrors.tasks.ran_iff here).mp ran
    have passed := (mirrors.tasks.entered task state here _).mp cancelled
    rcases ranState with rfl | rfl <;> simp [TaskState.Passed] at passed
  · exact finalized

end Traces

/-- A scope with a child, and a task in the child that depends on a failing task outside. -/
def smallScopes : List ScopeSpec := [⟨"root", none⟩, ⟨"inner", some "root"⟩]

def smallTasks : List TaskSpec :=
  [⟨"a", "root", .sendable, .shareable, .fail .semantic⟩,
    ⟨"b", "inner", .sendable, .notShareable, .succeed⟩,
    ⟨"c", "inner", .sendable, .notShareable, .succeed⟩]

def smallDependencies : List DependencyEdge := [⟨"a", "c"⟩]

def smallJoins : List ScopeJoin := [⟨"root", "inner"⟩]

theorem smallModel_accepted : ∃ model,
    ScopedTaskModel.tryNew smallScopes smallTasks smallDependencies smallJoins = .ok model := by
  have built : (ScopedTaskModel.tryNew smallScopes smallTasks smallDependencies
      smallJoins).toOption.isSome := by
    decide +kernel
  obtain ⟨model, built⟩ := Option.isSome_iff_exists.mp built
  exact ⟨model, toOption_eq_some.mp built⟩

/-- A run of it that is cancelled after the failure. -/
theorem trace_orderly_small : ∃ model,
    ScopedTaskModel.tryNew smallScopes smallTasks smallDependencies smallJoins = .ok model ∧
      ∃ history, model.perform [.step, .step, .cancelScope "inner", .step] = .ok history ∧
        history.past.filterMap Moment.event? = history.run.events ∧
        Orderly model history.past ∧
        (history.run.complete = true → ∀ task, Ran history.past task →
          Finalized history.past task) := by
  obtain ⟨model, accepted⟩ := smallModel_accepted
  exact ⟨model, accepted, trace_orderly accepted [.step, .step, .cancelScope "inner", .step]⟩

end Semaprax.ScopedTasks
