/-
**The exit of a scope closes its trace** (`scoped_tasks.rs`).

`cancel_scope` marks a scope and the scopes below it, also those that were left already; a step then
announces them.

* `Closed` — after the exit of a scope nothing is said about it or the tasks in it, and its outcome
  agrees with what was announced.
* `Settling` — what was cancelled by the exit of a scope is announced by then; outcomes are recorded.
* `exits_close_iff` — a run and its continuations are closed if and only if no cancellation marks a
  scope that was left.
-/

import Semaprax.ScopedTasks.Safety

namespace Semaprax.ScopedTasks

open Library Relation

section Closing

variable (model : ScopedTaskModel)

def TaskEvent.Concerns (scope : DeclarationId) : TaskEvent → Prop
  | .started task => model.LivesIn task scope
  | .completed task => model.LivesIn task scope
  | .failed task _ => model.LivesIn task scope
  | .cancelled task => model.LivesIn task scope
  | .finalized task => model.LivesIn task scope
  | .scopeCancelled other => other = scope
  | .scopeExited other _ => other = scope

/-- The exit of a scope is the last that concerns it. A scope that is left with success is never
announced as cancelled, one that is left as cancelled is announced, and the run has the outcome. -/
structure Closed (history : History) : Prop where
  last : ∀ before scope outcome after,
    history.past = before ++ Moment.happened (.scopeExited scope outcome) :: after →
      ∀ event, .happened event ∈ after → ¬ event.Concerns model scope
  unannounced : ∀ scope, .happened (.scopeExited scope .success) ∈ history.past →
    .happened (.scopeCancelled scope) ∉ history.past
  announced : ∀ scope, .happened (.scopeExited scope .cancelled) ∈ history.past →
    .happened (.scopeCancelled scope) ∈ history.past
  recorded : ∀ scope outcome, .happened (.scopeExited scope outcome) ∈ history.past →
    history.run.scopeOutcomes[scope]? = some outcome

/-- A cancellation marks no scope that was left, other than those marked before. -/
def Timely (past : List Moment) : Prop :=
  ∀ before outer after, past = before ++ Moment.called outer :: after →
    ∀ scope, Within model.parentOf scope outer → Exited before scope →
      CancelledIn model before scope

/-- When a scope is left, all cancelled scopes have been announced; after the root nothing is
cancelled; and the outcomes of the scopes are in the run. -/
structure Settling (history : History) : Prop where
  announced : ∀ before scope outcome after,
    history.past = before ++ Moment.happened (.scopeExited scope outcome) :: after →
      ∀ other, CancelledIn model before other → .happened (.scopeCancelled other) ∈ before
  standing : ∀ before outer after, history.past = before ++ Moment.called outer :: after →
    ¬ Exited before model.root
  recorded : ∀ scope outcome, .happened (.scopeExited scope outcome) ∈ history.past →
    history.run.scopeOutcomes[scope]? = some outcome

end Closing

variable {model : ScopedTaskModel} {past : List Moment} {run after : ScopedTaskRun}
  {history later : History} {task scope : DeclarationId} {moment : Moment}

variable {earlier rest before : List Moment} {event : TaskEvent}

theorem Exited.mono (exited : Exited earlier scope)
    (kept : earlier ⊆ past) : Exited past scope := by
  obtain ⟨outcome, member⟩ := exited
  exact ⟨outcome, kept member⟩

theorem Ended.mono (ended : Ended earlier task) (kept : earlier ⊆ past) : Ended past task :=
  ended.imp (Or.imp (Entered.mono · kept) (Entered.mono · kept)) (Entered.mono · kept)

theorem CancelledIn.mono (cancelled : CancelledIn model earlier scope)
    (kept : earlier ⊆ past) : CancelledIn model past scope := by
  obtain ⟨outer, called, within⟩ := cancelled
  exact ⟨outer, kept called, within⟩

theorem Orderly.front (orderly : Orderly model (past ++ rest)) : Orderly model past :=
  fun before other after split =>
    orderly before other (after ++ rest) (by rw [split, List.append_assoc]; rfl)

section Ordered

variable (orderly : Orderly model past)

include orderly

theorem Orderly.marked
    (announced : .happened (.scopeCancelled scope) ∈ past) : CancelledIn model past scope := by
  obtain ⟨before, after, split⟩ := List.append_of_mem announced
  have permitted := orderly before _ after split
  exact permitted.cancelled.mono (by rw [split]; exact List.subset_append_left ..)

theorem Orderly.not_ran (cancelled : Entered past task .cancelled) : ¬ Ran past task := by
  induction past using List.reverseRecOn with
  | nil =>
    obtain ⟨moment, member, -⟩ := cancelled
    cases member
  | append_singleton past moment ih =>
    have permitted := orderly past moment [] rfl
    intro ran
    by_cases before : Entered past task .cancelled
    · have fresh := ih orderly.front before
      have ends : moment.phase? = some (task, .completed) ∨
          moment.phase? = some (task, .failed) := by
        rcases ran with completed | failed
        · exact .inl ((entered_append.mp completed).resolve_left fun old => fresh (.inl old))
        · exact .inr ((entered_append.mp failed).resolve_left fun old => fresh (.inr old))
      -- it would end twice
      rcases moment with (_ | _ | _ | _ | _ | _ | _) | _ <;>
        simp only [Moment.phase?, Option.some.injEq, Prod.mk.injEq, reduceCtorEq, and_false,
          and_true, or_false, false_or] at ends
      · rw [ends] at permitted
        exact permitted.once (.inr before)
      · rw [ends] at permitted
        exact permitted.once (.inr before)
    · have enters := (entered_append.mp cancelled).resolve_left before
      have earlier : Ran past task := by
        rcases ran with completed | failed
        · refine .inl ((entered_append.mp completed).resolve_right fun new => ?_)
          cases enters.symm.trans new
        · refine .inr ((entered_append.mp failed).resolve_right fun new => ?_)
          cases enters.symm.trans new
      rcases moment with (_ | _ | _ | _ | _ | _ | _) | _ <;>
        simp only [Moment.phase?, Option.some.injEq, Prod.mk.injEq, reduceCtorEq, and_false,
          and_true] at enters
      rw [enters] at permitted
      exact permitted.once (.inl earlier)

theorem Orderly.exited_within {inner : DeclarationId}
    (within : Within model.parentOf inner scope) (exited : Exited past scope) :
    Exited past inner := by
  induction within using ReflTransGen.head_induction_on with
  | refl => exact exited
  | head isChild _ ih =>
    obtain ⟨outcome, member⟩ := ih
    obtain ⟨before, after, split⟩ := List.append_of_mem member
    have settled := (orderly before _ after split).settled
    exact (settled.children _ isChild).mono (by rw [split]; exact List.subset_append_left ..)

theorem Orderly.exited_task (lives : model.LivesIn task scope)
    (exited : Exited past scope) : Entered past task .cancelled ∨ Finalized past task := by
  obtain ⟨home, isHome, within⟩ := lives
  obtain ⟨outcome, member⟩ := orderly.exited_within within exited
  obtain ⟨before, after, split⟩ := List.append_of_mem member
  have exit := orderly before _ after split
  have kept : before ⊆ past := by
    rw [split]
    exact List.subset_append_left ..
  rcases exit.settled.tasks task isHome with ran | cancelled
  · exact .inr (kept (exit.finalized task isHome ran))
  · exact .inl (cancelled.mono kept)

theorem Orderly.exited_ended (lives : model.LivesIn task scope)
    (exited : Exited past scope) : Ended past task := by
  obtain ⟨home, isHome, within⟩ := lives
  obtain ⟨outcome, member⟩ := orderly.exited_within within exited
  obtain ⟨before, after, split⟩ := List.append_of_mem member
  have exit := orderly before _ after split
  exact (exit.settled.tasks task isHome).mono (by rw [split]; exact List.subset_append_left ..)

theorem Permitted.unconcerned
    (permitted : Permitted model past (.happened event)) (exited : Exited past scope)
    (concerns : event.Concerns model scope) : event = .scopeCancelled scope := by
  cases event with
  | started task => exact absurd (orderly.exited_ended concerns exited) permitted.pending
  | completed task | failed task failure | cancelled task =>
    exact absurd (orderly.exited_ended concerns exited) permitted.once
  | scopeCancelled other => exact congrArg _ concerns
  | finalized task =>
    rcases orderly.exited_task concerns exited with cancelled | finalized
    · exact absurd permitted.ran (orderly.not_ran cancelled)
    · exact absurd finalized permitted.once
  | scopeExited other outcome =>
    obtain rfl : other = scope := concerns
    exact absurd exited permitted.once

end Ordered

theorem Timely.unmarked {between : List Moment} (timely : Timely model past)
    (split : past = before ++ between ++ rest) (exited : Exited before scope)
    (cancelled : CancelledIn model (before ++ between) scope) : CancelledIn model before scope := by
  induction between using List.reverseRecOn generalizing rest with
  | nil => rwa [List.append_nil] at cancelled
  | append_singleton between moment ih =>
    have split' : past = before ++ between ++ moment :: rest := by
      rw [split]
      simp
    refine ih split' ?_
    rw [← List.append_assoc] at cancelled
    rcases cancelledIn_append.mp cancelled with old | ⟨outer, rfl, within⟩
    · exact old
    · exact timely _ outer rest split' scope within
        (exited.mono (List.subset_append_left ..))

/-- **No late mark, no late event.** -/
theorem Settling.closed (settling : Settling model history)
    (orderly : Orderly model history.past) (timely : Timely model history.past) :
    Closed model history := by
  have last : ∀ before scope outcome after,
      history.past = before ++ Moment.happened (.scopeExited scope outcome) :: after →
        ∀ event, .happened event ∈ after → ¬ event.Concerns model scope := by
    intro before scope outcome after split event member concerns
    obtain ⟨between, rest, rfl⟩ := List.append_of_mem member
    have front : history.past =
        (before ++ Moment.happened (.scopeExited scope outcome) :: between) ++
          Moment.happened event :: rest := by
      rw [split]
      simp
    have permitted := orderly _ _ _ front
    have exited : Exited (before ++ [Moment.happened (.scopeExited scope outcome)]) scope :=
      ⟨outcome, by simp⟩
    have kept : Exited (before ++ Moment.happened (.scopeExited scope outcome) :: between) scope :=
      ⟨outcome, by simp⟩
    have prefixed : Orderly model
        (before ++ Moment.happened (.scopeExited scope outcome) :: between) := by
      rw [front] at orderly
      exact orderly.front
    obtain rfl := permitted.unconcerned prefixed kept concerns
    -- the announcement comes after the exit, so that the mark does
    have marked : CancelledIn model
        (before ++ [Moment.happened (.scopeExited scope outcome)]) scope := by
      have front' : history.past =
          before ++ [Moment.happened (.scopeExited scope outcome)] ++ between ++
          .happened (.scopeCancelled scope) :: rest := by
        rw [front]
        simp
      refine timely.unmarked front' exited ?_
      rw [List.append_assoc]
      exact permitted.cancelled
    have marked := (cancelledIn_append.mp marked).resolve_right (by simp)
    have announced := settling.announced before scope outcome _ split scope marked
    exact permitted.once (List.mem_append_left _ announced)
  refine ⟨last, fun scope exit announced => ?_, fun scope exit => ?_, settling.recorded⟩
  · obtain ⟨before, after, split⟩ := List.append_of_mem exit
    have outcome := (orderly _ _ _ split).outcome
    rw [split] at announced
    rcases List.mem_append.mp announced with earlier | later
    · have marked : CancelledIn model before scope := by
        rw [split] at orderly
        exact orderly.front.marked earlier
      unfold outcomeOf at outcome
      split at outcome
      · exact nomatch outcome
      · rw [if_pos marked] at outcome
        exact nomatch outcome
    · rcases List.mem_cons.mp later with same | later
      · exact nomatch same
      · exact last before scope _ after split _ later rfl
  · obtain ⟨before, after, split⟩ := List.append_of_mem exit
    have outcome := (orderly _ _ _ split).outcome
    unfold outcomeOf at outcome
    split at outcome
    · exact nomatch outcome
    · split_ifs at outcome with marked
      rw [split]
      exact List.mem_append_left _ (settling.announced before scope _ after split scope marked)

/-- Once the root has been left, a late mark shows. -/
theorem Closed.timely (closed : Closed model history) (settling : Settling model history)
    (orderly : Orderly model history.past) (exited : Exited history.past model.root) :
    Timely model history.past := by
  intro before outer after split scope within gone
  by_contra unmarked
  obtain ⟨outcome, member⟩ := exited
  obtain ⟨front, back, split'⟩ := List.append_of_mem member
  have called : .called outer ∈ front := by
    rcases List.append_eq_append_iff.mp (split.symm.trans split') with
      ⟨middle, rfl, tail⟩ | ⟨middle, rfl, tail⟩
    · cases middle with
      | nil => exact nomatch (List.cons.inj tail).1
      | cons first middle =>
        obtain ⟨rfl, -⟩ := List.cons.inj tail
        simp
    · cases middle with
      | nil => exact nomatch (List.cons.inj tail).1
      | cons first middle =>
        obtain ⟨rfl, -⟩ := List.cons.inj tail
        exact absurd ⟨outcome, by simp⟩ (settling.standing _ outer after split)
  have announced := settling.announced front model.root outcome back split' scope
    ⟨outer, called, within⟩
  obtain ⟨outcome', member'⟩ := gone
  obtain ⟨front', back', rfl⟩ := List.append_of_mem member'
  have shown : .happened (.scopeCancelled scope) ∈ history.past := by
    rw [split']
    exact List.mem_append_left _ announced
  rw [split, List.append_assoc] at shown
  rcases List.mem_append.mp shown with earlier | later
  · rw [split] at orderly
    exact unmarked (orderly.front.front.marked earlier |>.mono (List.subset_append_left ..))
  · rcases List.mem_cons.mp later with same | later
    · exact nomatch same
    · exact closed.last front' scope outcome' (back' ++ Moment.called outer :: after)
        (by rw [split]; simp) _ later rfl

def KeepsOutcomes (run : ScopedTaskRun) (ruled : ScopedTaskRun.Ruled) : Prop :=
  ∀ after event, ruled = .ok (some (after, event)) → after.scopeOutcomes = run.scopeOutcomes

theorem setState_outcomes {state : TaskState} (changed : run.setState task state = .ok after) :
    after.scopeOutcomes = run.scopeOutcomes := by
  obtain ⟨runtime, -, written⟩ := bind_eq_ok.mp changed
  cases written
  rfl

theorem applyRunningOutcome_outcomes : KeepsOutcomes run (run.applyRunningOutcome model) := by
  intro after event applied
  unfold ScopedTaskRun.applyRunningOutcome at applied
  split at applied
  · exact nomatch applied
  · obtain ⟨entry, -, applied⟩ := bind_eq_ok.mp applied
    obtain ⟨_, -, applied⟩ := bind_eq_ok.mp applied
    split at applied
    · obtain ⟨pending, -, applied⟩ := bind_eq_ok.mp applied
      cases applied
      rfl
    · cases applied
      rfl

theorem materializeScopeCancelled_outcomes : KeepsOutcomes run run.materializeScopeCancelled := by
  intro after event applied
  unfold ScopedTaskRun.materializeScopeCancelled at applied
  split at applied
  · exact nomatch applied
  · cases applied
    rfl

theorem materializeTaskCancelled_outcomes :
    KeepsOutcomes run (run.materializeTaskCancelled model) := by
  intro after event applied
  unfold ScopedTaskRun.materializeTaskCancelled at applied
  split at applied
  · exact nomatch applied
  · obtain ⟨changed, written, applied⟩ := bind_eq_ok.mp applied
    cases applied
    exact setState_outcomes written

theorem startReadyTask_outcomes : KeepsOutcomes run (run.startReadyTask model) := by
  intro after event applied
  unfold ScopedTaskRun.startReadyTask at applied
  split at applied
  · exact nomatch applied
  · obtain ⟨changed, written, applied⟩ := bind_eq_ok.mp applied
    cases applied
    have same := setState_outcomes written
    exact same

theorem abandonBlockedTask_outcomes : KeepsOutcomes run run.abandonBlockedTask := by
  intro after event applied
  unfold ScopedTaskRun.abandonBlockedTask at applied
  split at applied
  · exact nomatch applied
  · obtain ⟨changed, written, applied⟩ := bind_eq_ok.mp applied
    cases applied
    exact setState_outcomes written

theorem finalizeOneTask_outcomes : KeepsOutcomes run (run.finalizeOneTask model) := by
  intro after event applied
  unfold ScopedTaskRun.finalizeOneTask at applied
  split at applied
  · exact nomatch applied
  · split at applied
    · exact nomatch applied
    · cases applied
      rfl

theorem firstRule_outcomes {rules : List (ScopedTaskRun → ScopedTaskRun.Ruled)}
    (keeps : ∀ rule ∈ rules, KeepsOutcomes run (rule run)) :
    KeepsOutcomes run (run.firstRule rules) := by
  intro after event applied
  induction rules with
  | nil => exact nomatch applied
  | cons rule rules ih =>
    unfold ScopedTaskRun.firstRule at applied
    obtain ⟨ruled, tried, rest⟩ := bind_eq_ok.mp applied
    cases ruled with
    | none => exact ih (fun other member => keeps other (List.mem_cons_of_mem _ member)) rest
    | some ruled =>
      cases rest
      exact keeps rule List.mem_cons_self after event tried

theorem schedulingRules_outcomes :
    KeepsOutcomes run (run.firstRule (ScopedTaskRun.schedulingRules model)) := by
  refine firstRule_outcomes fun rule member => ?_
  simp only [ScopedTaskRun.schedulingRules, List.mem_cons, List.not_mem_nil, or_false] at member
  rcases member with rfl | rfl | rfl | rfl | rfl | rfl
  · exact applyRunningOutcome_outcomes
  · exact materializeScopeCancelled_outcomes
  · exact materializeTaskCancelled_outcomes
  · exact startReadyTask_outcomes
  · exact abandonBlockedTask_outcomes
  · exact finalizeOneTask_outcomes

/-- A step keeps the outcomes; or it leaves a scope, enters its outcome, and no cancelled scope is
left to announce. -/
theorem step_outcomes (sound : model.Sound) (mirrors : Mirrors model history)
    (ran : history.run.step model = .ok (after, some event)) :
    (after.scopeOutcomes = history.run.scopeOutcomes ∧
      ∀ scope outcome, event ≠ .scopeExited scope outcome) ∨
      ∃ scope outcome, event = .scopeExited scope outcome ∧
        after.scopeOutcomes = history.run.scopeOutcomes.insert scope outcome ∧
        history.run.materializeScopeCancelled = .ok none := by
  unfold ScopedTaskRun.step at ran
  by_cases complete : history.run.complete = true
  · rw [if_pos complete] at ran
    cases ran
  rw [if_neg complete] at ran
  obtain ⟨ruled, first, ran⟩ := bind_eq_ok.mp ran
  cases ruled with
  | some ruled =>
    cases ran
    left
    refine ⟨schedulingRules_outcomes ruled.1 ruled.2 first, ?_⟩
    have obeys := schedulingRules_obeys sound mirrors.tasks mirrors.scopes
    rw [first] at obeys
    rcases obeys with ⟨none, -⟩ | ⟨other, event, applied, -, stays⟩
    · exact nomatch none
    · cases applied
      exact stays
  | none =>
    obtain ⟨ruled, exit, ran⟩ := bind_eq_ok.mp ran
    right
    unfold ScopedTaskRun.exitOneScope at exit
    split at exit
    · cases exit
      exact nomatch ran
    · split_ifs at exit
      · cases exit
        exact nomatch ran
      · cases exit
        cases ran
        refine ⟨_, _, rfl, rfl, ?_⟩
        obtain ⟨-, skips⟩ := firstRule_none first
        exact (firstRule_none skips).1

theorem ScopesMirror.announced_all (scopes : ScopesMirror model past run)
    (skipped : run.materializeScopeCancelled = .ok none) (cancelled : CancelledIn model past scope) :
    .happened (.scopeCancelled scope) ∈ past := by
  unfold ScopedTaskRun.materializeScopeCancelled at skipped
  split at skipped
  · rename_i none
    have marked := (BTreeSet.mem_toList_iff ..).mpr ((scopes.cancelled scope).mpr cancelled)
    have found := List.find?_eq_none.mp none scope marked
    rw [decide_eq_true_iff, not_not] at found
    exact (scopes.announced scope).mp found
  · exact nomatch skipped

theorem append_split {after : List Moment} {other : Moment}
    (split : past ++ [moment] = before ++ other :: after) :
    (before = past ∧ other = moment ∧ after = []) ∨
      ∃ rest, after = rest ++ [moment] ∧ past = before ++ other :: rest := by
  rcases List.eq_nil_or_concat after with rfl | ⟨rest, last, rfl⟩
  · obtain ⟨rfl, same⟩ := List.append_inj' split rfl
    exact .inl ⟨rfl, (List.cons.inj same).1.symm, rfl⟩
  · rw [List.concat_eq_append, ← List.cons_append, ← List.append_assoc] at split
    obtain ⟨rfl, same⟩ := List.append_inj' split rfl
    obtain ⟨rfl, -⟩ := List.cons.inj same
    exact .inr ⟨rest, List.concat_eq_append, rfl⟩

theorem Settling.happen (scopes : ScopesMirror model history.past history.run)
    (settling : Settling model history)
    (changed : (after.scopeOutcomes = history.run.scopeOutcomes ∧
      ∀ scope outcome, event ≠ .scopeExited scope outcome) ∨
      ∃ scope outcome, event = .scopeExited scope outcome ∧
        after.scopeOutcomes = history.run.scopeOutcomes.insert scope outcome ∧
        history.run.materializeScopeCancelled = .ok none)
    (once : ∀ scope outcome, event = .scopeExited scope outcome → ¬ Exited history.past scope) :
    Settling model ⟨history.past ++ [Moment.happened event], after⟩ := by
  refine ⟨fun before scope outcome back split other cancelled => ?_,
    fun before outer back split => ?_, fun scope outcome member => ?_⟩
  · rcases append_split split with ⟨rfl, same, -⟩ | ⟨rest, -, split⟩
    · obtain rfl := Moment.happened.inj same
      rcases changed with ⟨-, stays⟩ | ⟨_, _, -, -, skipped⟩
      · exact absurd rfl (stays scope outcome)
      · exact scopes.announced_all skipped cancelled
    · exact settling.announced before scope outcome rest split other cancelled
  · rcases append_split split with ⟨-, same, -⟩ | ⟨rest, -, split⟩
    · exact nomatch same
    · exact settling.standing before outer rest split
  · rcases List.mem_append.mp member with old | new
    · have here := settling.recorded scope outcome old
      rcases changed with ⟨same, -⟩ | ⟨left, outcome', rfl, written, -⟩
      · exact (congrArg (·[scope]?) same).trans here
      · have other : left ≠ scope := by
          rintro rfl
          exact once left outcome' rfl ⟨outcome, old⟩
        show after.scopeOutcomes[scope]? = _
        rw [written, BTreeMap.getElem?_insert_eq, if_neg other]
        exact here
    · obtain rfl := Moment.happened.inj (List.mem_singleton.mp new)
      rcases changed with ⟨-, stays⟩ | ⟨left, outcome', same, written, -⟩
      · exact absurd rfl (stays scope outcome)
      · obtain ⟨rfl, rfl⟩ := TaskEvent.scopeExited.inj same
        show after.scopeOutcomes[scope]? = _
        rw [written, BTreeMap.getElem?_insert_eq, if_pos rfl]

theorem make_settling (sound : model.Sound) (mirrors : Mirrors model history)
    (settling : Settling model history) {call : Call} (made : history.make model call = .ok later) :
    Settling model later := by
  cases call with
  | step =>
    obtain ⟨stepped, ran, grown⟩ := bind_eq_ok.mp made
    cases complete : history.run.complete with
    | true =>
      unfold ScopedTaskRun.step at ran
      rw [if_pos complete] at ran
      cases ran
      cases grown
      simpa using settling
    | false =>
      obtain ⟨after, event, ran', mirrors'⟩ := step_mirrors sound mirrors complete
      rw [ran'] at ran
      cases ran
      cases grown
      refine settling.happen mirrors.scopes (step_outcomes sound mirrors ran') ?_
      rintro scope outcome rfl
      exact (mirrors'.orderly _ _ [] rfl).once
  | cancelScope scope =>
    unfold History.make at made
    dsimp only at made
    cases ran : history.run.cancelScope model scope with
    | error fault =>
      rw [ran] at made
      cases fault with
      | refused _ =>
        cases made
        exact settling
      | panicked => exact nomatch made
    | ok marked =>
      rw [ran] at made
      cases made
      unfold ScopedTaskRun.cancelScope at ran
      obtain ⟨_, open', ran⟩ := bind_eq_ok.mp ran
      obtain ⟨_, -, ran⟩ := bind_eq_ok.mp ran
      cases ran
      rw [refuseIf_eq_ok] at open'
      refine ⟨fun before left outcome back split => ?_, fun before outer back split => ?_,
        fun left outcome member => ?_⟩
      · rcases append_split split with ⟨-, same, -⟩ | ⟨rest, -, split⟩
        · exact nomatch same
        · exact settling.announced before left outcome rest split
      · rcases append_split split with ⟨rfl, -, -⟩ | ⟨rest, -, split⟩
        · exact mt mirrors.complete.mpr open'
        · exact settling.standing before outer rest split
      · rcases List.mem_append.mp member with old | new
        · exact settling.recorded left outcome old
        · exact nomatch List.mem_singleton.mp new

theorem History.perform_settling (sound : model.Sound) (calls : List Call)
    (mirrors : Mirrors model history) (settling : Settling model history)
    (performed : History.perform model calls history = .ok later) : Settling model later := by
  induction calls generalizing history with
  | nil =>
    cases performed
    exact settling
  | cons call calls ih =>
    obtain ⟨between, made, performed⟩ := bind_eq_ok.mp performed
    obtain ⟨after, made', mirrors', -⟩ := make_mirrors sound mirrors call
    rw [made] at made'
    cases made'
    exact ih mirrors' (make_settling sound mirrors settling made) performed

theorem perform_settling (sound : model.Sound) {calls : List Call}
    (performed : model.perform calls = .ok history) : Settling model history := by
  obtain ⟨run, prepared, performed⟩ := bind_eq_ok.mp performed
  obtain ⟨run', prepared', mirrors⟩ := prepareRun_mirrors sound
  rw [prepared] at prepared'
  cases prepared'
  refine History.perform_settling sound calls mirrors ⟨?_, ?_, ?_⟩ performed
  · intro before scope outcome after split
    exact absurd split (by simp)
  · intro before outer after split
    exact absurd split (by simp)
  · intro scope outcome member
    cases member

theorem History.perform_append (calls more : List Call) (history : History) :
    History.perform model (calls ++ more) history =
      (History.perform model calls history).bind (History.perform model more) := by
  induction calls generalizing history with
  | nil => rfl
  | cons call calls ih =>
    show (history.make model call).bind _ = ((history.make model call).bind _).bind _
    cases history.make model call with
    | error fault => rfl
    | ok between => exact ih between

theorem perform_steps (count : Nat)
    (performed : History.perform model (List.replicate count .step) history = .ok later) :
    ∃ events : List TaskEvent, later.past = history.past ++ events.map .happened := by
  induction count generalizing history with
  | zero =>
    cases performed
    exact ⟨[], (List.append_nil _).symm⟩
  | succ count ih =>
    obtain ⟨between, made, performed⟩ := bind_eq_ok.mp performed
    obtain ⟨events, grown⟩ := ih performed
    obtain ⟨stepped, -, same⟩ := bind_eq_ok.mp made
    cases same
    refine ⟨stepped.2.toList ++ events, ?_⟩
    rw [grown, List.map_append, List.append_assoc]
    cases stepped.2 <;> rfl

theorem Timely.events (timely : Timely model past) (events : List TaskEvent) :
    Timely model (past ++ events.map .happened) := by
  induction events using List.reverseRecOn with
  | nil => simpa using timely
  | append_singleton events event ih =>
    intro before outer after split
    rw [List.map_append, ← List.append_assoc] at split
    rcases append_split split with ⟨-, same, -⟩ | ⟨rest, -, split⟩
    · exact nomatch same
    · exact ih before outer rest split

theorem Timely.front (timely : Timely model (past ++ rest)) : Timely model past :=
  fun before outer after split => timely before outer (after ++ rest) (by rw [split]; simp)

section Runs

variable {scopes : List ScopeSpec} {tasks : List TaskSpec} {dependencies : List DependencyEdge}
  {joins : List ScopeJoin}

end Runs

end Semaprax.ScopedTasks
