/-
**Histories of a scoped-task run.**

What a history says by itself, and what it owes to the model: for each moment, what must have gone
before.

* `Entered`, `Ended`, `ranOf`, `Exited`, `firstFailure` — the tasks and the scopes of a history.
* `Permitted` — what must have gone before a moment; `Orderly` — every moment of a history was
  permitted when it came.
* `Orderly.length_le` — an orderly history has a bounded number of events: each takes a slot that no
  earlier one took.
-/

import Semaprax.ScopedTasks.Run

namespace Semaprax.ScopedTasks

open Library Relation

def Moment.event? : Moment → Option TaskEvent
  | .happened event => some event
  | .called _ => none

def Moment.phase? : Moment → Option (DeclarationId × TaskState)
  | .happened (.started task) => some (task, .started)
  | .happened (.completed task) => some (task, .completed)
  | .happened (.failed task _) => some (task, .failed)
  | .happened (.cancelled task) => some (task, .cancelled)
  | _ => none

def Moment.ran? : Moment → Option DeclarationId
  | .happened (.completed task) => some task
  | .happened (.failed task _) => some task
  | _ => none

section Past

variable (past : List Moment)

def Entered (task : DeclarationId) (state : TaskState) : Prop :=
  ∃ moment ∈ past, moment.phase? = some (task, state)

/-- A task has been completed or has failed. -/
def Ran (task : DeclarationId) : Prop := Entered past task .completed ∨ Entered past task .failed

/-- A task has been completed, has failed or was cancelled. -/
def Ended (task : DeclarationId) : Prop := Ran past task ∨ Entered past task .cancelled

/-- The tasks that have been completed or have failed, in this order. -/
def ranOf : List DeclarationId := past.filterMap Moment.ran?

def Finalized (task : DeclarationId) : Prop := .happened (.finalized task) ∈ past

def Exited (scope : DeclarationId) : Prop :=
  ∃ outcome, .happened (.scopeExited scope outcome) ∈ past

end Past

section Model

variable (model : ScopedTaskModel)

def ScopedTaskModel.LivesIn (task scope : DeclarationId) : Prop :=
  ∃ home, model.scopeOf task = some home ∧ Within model.parentOf home scope

def CancelledIn (past : List Moment) (scope : DeclarationId) : Prop :=
  ∃ outer, .called outer ∈ past ∧ Within model.parentOf scope outer

noncomputable def failureIn (scope : DeclarationId) (moment : Moment) :
    Option (DeclarationId × FailureKind) :=
  open Classical in
  match moment with
  | .happened (.failed task failure) =>
    if model.LivesIn task scope then some (task, failure) else none
  | _ => none

noncomputable def firstFailure (past : List Moment) (scope : DeclarationId) :
    Option (DeclarationId × FailureKind) :=
  past.findSome? (failureIn model scope)

/-- The outcome that a history gives a scope: its first failure, else cancelled, else success. -/
noncomputable def outcomeOf (past : List Moment) (scope : DeclarationId) : ScopeExitOutcome :=
  open Classical in
  match firstFailure model past scope with
  | some (task, failure) => .failed task failure
  | none => if CancelledIn model past scope then .cancelled else .success

/-- A scope has nothing left to do: its tasks have ended, its children have been left. -/
structure Settled (past : List Moment) (scope : DeclarationId) : Prop where
  tasks : ∀ task, model.scopeOf task = some scope → Ended past task
  children : ∀ child, model.parentOf child = some (some scope) → Exited past child

structure MayStart (past : List Moment) (task : DeclarationId) : Prop where
  known : task ∈ model.tasks
  fresh : ¬ Entered past task .started
  pending : ¬ Ended past task
  prerequisites : ∀ prerequisite, model.Depends prerequisite task →
    Entered past prerequisite .completed
  alone : ∀ other, Entered past other .started → Ended past other
  uncancelled : ∀ scope, .called scope ∈ past → ¬ model.LivesIn task scope

/-- A task that has been started and not ended ends as its script says. -/
structure MayEnd (past : List Moment) (task : DeclarationId) (outcome : TaskOutcome) : Prop where
  known : task ∈ model.tasks
  started : Entered past task .started
  once : ¬ Ended past task
  scripted : (model.tasks[task]?).map TaskEntry.outcome = some outcome

/-- A task is cancelled with a scope around it, or because a task on which it depends has failed or was
cancelled. -/
structure MayCancel (past : List Moment) (task : DeclarationId) : Prop where
  known : task ∈ model.tasks
  fresh : ¬ Entered past task .started
  once : ¬ Ended past task
  reason : (∃ scope, .called scope ∈ past ∧ model.LivesIn task scope) ∨
    ∃ prerequisite, TransGen model.Depends prerequisite task ∧
      (Entered past prerequisite .failed ∨ Entered past prerequisite .cancelled)

structure MayAnnounce (past : List Moment) (scope : DeclarationId) : Prop where
  known : scope ∈ model.scopes
  cancelled : CancelledIn model past scope
  once : .happened (.scopeCancelled scope) ∉ past

structure MayFinalize (past : List Moment) (task : DeclarationId) : Prop where
  known : task ∈ model.tasks
  ran : Ran past task
  once : ¬ Finalized past task
  settled : ∀ scope, model.scopeOf task = some scope → Settled model past scope
  /-- Whatever ran later in its scope is finalized. -/
  reversed : ∀ earlier later, ranOf past = earlier ++ task :: later →
    ∀ other ∈ later, model.scopeOf other = model.scopeOf task → Finalized past other

structure MayExit (past : List Moment) (scope : DeclarationId) (outcome : ScopeExitOutcome) :
    Prop where
  known : scope ∈ model.scopes
  once : ¬ Exited past scope
  settled : Settled model past scope
  finalized : ∀ task, model.scopeOf task = some scope → Ran past task → Finalized past task
  outcome : outcome = outcomeOf model past scope

def Permitted (past : List Moment) : Moment → Prop
  | .called scope => scope ∈ model.scopes
  | .happened (.started task) => MayStart model past task
  | .happened (.completed task) => MayEnd model past task .succeed
  | .happened (.failed task failure) => MayEnd model past task (.fail failure)
  | .happened (.cancelled task) => MayCancel model past task
  | .happened (.scopeCancelled scope) => MayAnnounce model past scope
  | .happened (.finalized task) => MayFinalize model past task
  | .happened (.scopeExited scope outcome) => MayExit model past scope outcome

/-- Every moment was permitted when it came. -/
def Orderly (past : List Moment) : Prop :=
  ∀ before moment after, past = before ++ moment :: after → Permitted model before moment

end Model

section Append

variable {model : ScopedTaskModel} {past : List Moment} {moment : Moment}
  {task scope : DeclarationId}

variable {state : TaskState}

theorem Orderly.nil : Orderly model [] := fun before moment after split => by
  have long := congrArg List.length split
  simp at long

theorem Orderly.append (orderly : Orderly model past) (permitted : Permitted model past moment) :
    Orderly model (past ++ [moment]) := by
  intro before other after split
  rcases List.append_eq_append_iff.mp split with ⟨middle, rfl, tail⟩ | ⟨middle, rfl, tail⟩
  · cases middle with
    | nil =>
      obtain ⟨rfl, -⟩ := List.cons.inj tail
      rwa [List.append_nil]
    | cons first middle =>
      have long := congrArg List.length tail
      simp at long
  · cases middle with
    | nil =>
      obtain ⟨rfl, -⟩ := List.cons.inj tail
      simpa using permitted
    | cons first middle =>
      obtain ⟨rfl, rfl⟩ := List.cons.inj tail
      exact orderly before _ middle rfl

theorem entered_append : Entered (past ++ [moment]) task state ↔
    Entered past task state ∨ moment.phase? = some (task, state) := by
  unfold Entered
  simp [or_and_right, exists_or]

theorem Entered.mono {earlier : List Moment}
    (entered : Entered earlier task state) (kept : earlier ⊆ past) : Entered past task state := by
  obtain ⟨moment, member, enters⟩ := entered
  exact ⟨moment, kept member, enters⟩

theorem Entered.append (entered : Entered past task state) :
    Entered (past ++ [moment]) task state := entered_append.mpr (.inl entered)

theorem Exited.append (exited : Exited past scope) : Exited (past ++ [moment]) scope := by
  obtain ⟨outcome, member⟩ := exited
  exact ⟨outcome, List.mem_append_left _ member⟩

theorem Finalized.append (finalized : Finalized past task) : Finalized (past ++ [moment]) task :=
  List.mem_append_left _ finalized

theorem mem_ranOf : task ∈ ranOf past ↔ Ran past task := by
  have phase : ∀ moment : Moment, moment.ran? = some task ↔
      moment.phase? = some (task, .completed) ∨ moment.phase? = some (task, .failed) := by
    rintro ((_ | _ | _ | _ | _ | _ | _) | _) <;> simp [Moment.ran?, Moment.phase?]
  unfold ranOf Ran Entered
  rw [List.mem_filterMap]
  simp only [phase, and_or_left, exists_or]

end Append

/-- The slot that an event takes: the start, the end and the finalization of a task, the cancellation and
the exit of a scope. -/
def TaskEvent.slot : TaskEvent → Fin 5 × DeclarationId
  | .started task => (0, task)
  | .completed task => (1, task)
  | .failed task _ => (1, task)
  | .cancelled task => (1, task)
  | .finalized task => (2, task)
  | .scopeCancelled scope => (3, scope)
  | .scopeExited scope _ => (4, scope)

def ScopedTaskModel.slots (model : ScopedTaskModel) : Finset (Fin 5 × DeclarationId) :=
  {0, 1, 2} ×ˢ model.tasks.keys.toFinset ∪ {3, 4} ×ˢ model.scopes.keys.toFinset

def slotsOf (past : List Moment) : List (Fin 5 × DeclarationId) :=
  past.filterMap fun moment => moment.event?.map TaskEvent.slot

section Slots

variable {model : ScopedTaskModel} {past : List Moment}

theorem mem_slotsOf {slot : Fin 5 × DeclarationId} :
    slot ∈ slotsOf past ↔ ∃ event, .happened event ∈ past ∧ event.slot = slot := by
  unfold slotsOf
  rw [List.mem_filterMap]
  constructor
  · rintro ⟨moment, member, taken⟩
    obtain ⟨event, isEvent, rfl⟩ := Option.map_eq_some_iff.mp taken
    cases moment with
    | called _ => exact nomatch isEvent
    | happened other =>
      obtain rfl := Option.some.inj isEvent
      exact ⟨other, member, rfl⟩
  · rintro ⟨event, member, rfl⟩
    exact ⟨_, member, rfl⟩

theorem Permitted.slot {event : TaskEvent} (permitted : Permitted model past (.happened event)) :
    event.slot ∈ model.slots ∧ event.slot ∉ slotsOf past := by
  have ended : ∀ {task}, ¬ Ended past task → ((1 : Fin 5), task) ∉ slotsOf past := by
    intro task pending member
    obtain ⟨other, earlier, same⟩ := mem_slotsOf.mp member
    refine pending ?_
    cases other with
    | completed _ => exact .inl (.inl ⟨_, earlier, by obtain rfl := congrArg Prod.snd same; rfl⟩)
    | failed _ _ => exact .inl (.inr ⟨_, earlier, by obtain rfl := congrArg Prod.snd same; rfl⟩)
    | cancelled _ => exact .inr ⟨_, earlier, by obtain rfl := congrArg Prod.snd same; rfl⟩
    | _ => simp [TaskEvent.slot] at same
  have taskSlot : ∀ {task} {kind : Fin 5}, task ∈ model.tasks → kind ∈ ({0, 1, 2} : Finset (Fin 5)) →
      (kind, task) ∈ model.slots := by
    intro task kind known inside
    refine Finset.mem_union_left _ (Finset.mem_product.mpr ⟨inside, ?_⟩)
    exact List.mem_toFinset.mpr (Std.TreeMap.mem_keys.mpr known)
  have scopeSlot : ∀ {scope} {kind : Fin 5}, scope ∈ model.scopes →
      kind ∈ ({3, 4} : Finset (Fin 5)) → (kind, scope) ∈ model.slots := by
    intro scope kind known inside
    refine Finset.mem_union_right _ (Finset.mem_product.mpr ⟨inside, ?_⟩)
    exact List.mem_toFinset.mpr (Std.TreeMap.mem_keys.mpr known)
  cases event with
  | started task =>
    refine ⟨taskSlot permitted.known (by decide), fun member => permitted.fresh ?_⟩
    obtain ⟨other, earlier, same⟩ := mem_slotsOf.mp member
    cases other with
    | started _ => exact ⟨_, earlier, by obtain rfl := congrArg Prod.snd same; rfl⟩
    | _ => simp [TaskEvent.slot] at same
  | completed task | failed task failure | cancelled task =>
    exact ⟨taskSlot permitted.known (by decide), ended permitted.once⟩
  | finalized task =>
    refine ⟨taskSlot permitted.known (by decide), fun member => permitted.once ?_⟩
    obtain ⟨other, earlier, same⟩ := mem_slotsOf.mp member
    cases other with
    | finalized _ => obtain rfl := congrArg Prod.snd same; exact earlier
    | _ => simp [TaskEvent.slot] at same
  | scopeCancelled scope =>
    refine ⟨scopeSlot permitted.known (by decide), fun member => permitted.once ?_⟩
    obtain ⟨other, earlier, same⟩ := mem_slotsOf.mp member
    cases other with
    | scopeCancelled _ => obtain rfl := congrArg Prod.snd same; exact earlier
    | _ => simp [TaskEvent.slot] at same
  | scopeExited scope outcome =>
    refine ⟨scopeSlot permitted.known (by decide), fun member => permitted.once ?_⟩
    obtain ⟨other, earlier, same⟩ := mem_slotsOf.mp member
    cases other with
    | scopeExited _ _ => obtain rfl := congrArg Prod.snd same; exact ⟨_, earlier⟩
    | _ => simp [TaskEvent.slot] at same

theorem Orderly.slots (orderly : Orderly model past) :
    (slotsOf past).Nodup ∧ ∀ slot ∈ slotsOf past, slot ∈ model.slots := by
  induction past using List.reverseRecOn with
  | nil => exact ⟨List.nodup_nil, List.forall_mem_nil _⟩
  | append_singleton past moment ih =>
    have permitted := orderly past moment [] rfl
    obtain ⟨distinct, inside⟩ := ih fun before other after split =>
      orderly before other (after ++ [moment]) (by rw [split]; simp)
    have append : slotsOf (past ++ [moment]) = slotsOf past ++ slotsOf [moment] :=
      List.filterMap_append
    rw [append]
    cases moment with
    | called scope =>
      have none : slotsOf [.called scope] = [] := rfl
      rw [none, List.append_nil]
      exact ⟨distinct, inside⟩
    | happened event =>
      obtain ⟨isSlot, fresh⟩ := permitted.slot
      refine ⟨List.nodup_append.mpr ⟨distinct, List.nodup_singleton _, ?_⟩, ?_⟩
      · intro first member second last same
        obtain rfl := List.mem_singleton.mp last
        exact fresh (same ▸ member)
      · intro slot member
        rcases List.mem_append.mp member with old | new
        · exact inside slot old
        · obtain rfl := List.mem_singleton.mp new
          exact isSlot

/-- **The number of events is bounded**: three for each task and two for each scope. -/
theorem Orderly.length_le (orderly : Orderly model past) :
    (past.filterMap Moment.event?).length ≤ 3 * model.tasks.size + 2 * model.scopes.size := by
  obtain ⟨distinct, inside⟩ := orderly.slots
  have same : (slotsOf past).length = (past.filterMap Moment.event?).length := by
    unfold slotsOf
    rw [← List.map_filterMap, List.length_map]
  have few : (slotsOf past).length ≤ model.slots.card := by
    rw [← List.toFinset_card_of_nodup distinct]
    exact Finset.card_le_card fun slot member => inside slot (List.mem_toFinset.mp member)
  have bound : model.slots.card ≤ 3 * model.tasks.size + 2 * model.scopes.size := by
    refine (Finset.card_union_le _ _).trans ?_
    rw [Finset.card_product, Finset.card_product]
    refine Nat.add_le_add (Nat.mul_le_mul_left 3 ?_) (Nat.mul_le_mul_left 2 ?_)
    · exact (List.toFinset_card_le _).trans Std.TreeMap.length_keys.le
    · exact (List.toFinset_card_le _).trans Std.TreeMap.length_keys.le
  rw [← same]
  exact few.trans bound

end Slots

end Semaprax.ScopedTasks
