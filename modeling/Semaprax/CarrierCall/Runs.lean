/-
**A carrier call keeps to its settlement** (`public_generic_abi/carrier/machine.rs`).

The operations are called in any order and their errors are ignored. The handles of a set are
transferred together and once, what was released is not transferred again, and a settlement stays. A
call that is settled may go on all the same: neither its phase nor its result is guarded by the
settlement.

* `Lawful` — a run that never goes on past its settlement.
* `Operation.Timely` — an operation that does not go on past a settlement.
* `lawful_iff_timely` — the runs that are lawful.
-/

import Semaprax.CarrierCall.Steps
import Semaprax.Library.Histories

namespace Semaprax.CarrierCall

open Library

namespace HandleSet

/-- The handle that an event of a leaf, or of the root, is about. -/
def handleOf (set : HandleSet) : Option Nat → Option Handle
  | none => some set.root.handle
  | some index => set.leaves[index]?.map HandleLedger.handle

def releasedBy (set : HandleSet) (events : List TraceEvent) : List (Direction × Option Handle) :=
  (events.filter fun event => event.label = .leafRelease).map fun event =>
    (event.direction, set.handleOf event.leaf)

end HandleSet

section Releases

variable {set : HandleSet} {direction : Direction}

variable {trace later : Trace}

theorem releasedBy_append (earlier later : List TraceEvent) :
    set.releasedBy (earlier ++ later) = set.releasedBy earlier ++ set.releasedBy later := by
  unfold HandleSet.releasedBy
  rw [List.filter_append, List.map_append]

theorem handleOf_leafAt (set : HandleSet) (position : Nat) :
    set.handleOf (leafAt position) = set.ledgers[position]?.map HandleLedger.handle := by
  cases position <;> rfl

theorem reversed_handles (set : HandleSet) (direction : Direction) :
    ((List.range' 0 set.ledgers.length).map fun position =>
      (direction, set.handleOf (leafAt position))).reverse =
        set.obligationOrder.reverse.map fun handle => (direction, some handle) := by
  rw [List.map_reverse]
  refine congrArg List.reverse (List.ext_getElem ?_ fun position here _ => ?_)
  · simp [HandleSet.obligationOrder]
  · have within : position < set.ledgers.length := by simpa using here
    simp [HandleSet.obligationOrder, handleOf_leafAt, List.getElem?_eq_getElem within]

theorem releaseLedger_logs (set : HandleSet) {event : Event} {position : Nat} {ledger after : HandleLedger}
    (ended : HandleSet.releaseLedger direction event position (ledger, trace) =
      (.ok (), after, later)) : set.releasedBy later.events =
        set.releasedBy trace.events ++ [(direction, set.handleOf (leafAt position))] := by
  have logs : (HandleSet.releaseLedger direction event position).wp
      (fun _ found => set.releasedBy found.2.events =
        set.releasedBy trace.events ++ [(direction, set.handleOf (leafAt position))])
      (fun _ _ => True) (ledger, trace) := by
    unfold HandleSet.releaseLedger
    simp only [wp_bind, wp_get, wp_set, wp_onFirst, wp_apply]
    exact ⟨fun _ _ => releasedBy_append _ _, fun _ _ => trivial⟩
  exact logs.ended ended

theorem releaseSet_reversed {transferred : Bool} {after : HandleSet}
    (ended : HandleSet.releaseSet direction transferred (set, trace) = (.ok (), after, later)) :
    set.releasedBy later.events = set.releasedBy trace.events ++
      set.obligationOrder.reverse.map fun handle => (direction, some handle) := by
  obtain ⟨_, found, swept, marked⟩ := run_bind_ok ended
  obtain rfl : found.2.mark .carrierRelease direction = later :=
    congrArg (fun outcome => outcome.2.2) marked
  have all := backwards_logged (fun _ _ _ _ _ => releaseLedger_logs set) 0 set.ledgers
    trace (congrArg Prod.fst swept)
  have logged : set.releasedBy found.2.events = _ :=
    (congrArg (fun outcome => set.releasedBy outcome.2.2.events) swept).symm.trans all
  rw [reversed_handles] at logged
  exact ((releasedBy_append _ _).trans (List.append_nil _)).trans logged

end Releases

def Operation.releases : Operation → Option Direction
  | .releaseInputBeforeTransfer | .releaseInputAfterTransfer => some .input
  | .releaseResultBeforeCommit => some .result
  | _ => none

/-- A handle is transferred by a step. -/
def Becomes (direction : Direction) (before after : CarrierCallMachine) (position : Nat) : Prop :=
  (before.states direction)[position]? ≠ some .transferred ∧
    (after.states direction)[position]? = some .transferred

/-- A step transfers no handle in a direction, or all of them. -/
def Together (direction : Direction) (before after : CarrierCallMachine) : Prop :=
  (∃ position, Becomes direction before after position) →
    ∀ position < (after.states direction).length, Becomes direction before after position

/-- What holds of an operation in a run that never goes on past its settlement. -/
structure LawfulStep (machine : CarrierCallMachine) (operation : Operation) (outcome :
    Except Diagnostic Unit) (after : CarrierCallMachine) : Prop where
  input : Together .input machine after
  validated : ∀ position, Becomes .input machine after position → machine.call.phase = .validated
  result : Together .result machine after
  finished : ∀ position, Becomes .result machine after position →
    machine.executionFinished = true ∧
      ∀ settled, machine.call.settlement = some settled → settled = .success
  phase : machine.call.settlement ≠ none → after.call.phase = machine.call.phase
  settlement : ∀ settled, machine.call.settlement = some settled →
    after.call.settlement = some settled
  inert : ∀ direction position, machine.trace.releases direction position ≠ 0 →
    ¬Becomes direction machine after position
  reversed : ∀ direction, operation.releases = some direction → outcome = .ok () →
    ∃ set, machine.set direction = some set ∧ set.releasedBy after.trace.events =
      set.releasedBy machine.trace.events ++
        set.obligationOrder.reverse.map fun handle => (direction, some handle)

/-- A run whose steps are lawful, that transfers no handle twice and releases none twice. -/
structure Lawful (start : CarrierCallMachine) (operations : List Operation) : Prop where
  steps : Throughout (fun earlier operation => LawfulStep (start.after earlier) operation
    (CarrierCallMachine.perform operation (start.after earlier)).1
      (start.after (earlier ++ [operation]))) operations
  once : ∀ earlier first middle second later direction position again,
    operations = earlier ++ first :: (middle ++ second :: later) →
      Becomes direction (start.after earlier) (start.after (earlier ++ [first])) position →
        ¬Becomes direction (start.after (earlier ++ first :: middle))
          (start.after (earlier ++ first :: middle ++ [second])) again
  released : ∀ direction position, (start.after operations).trace.releases direction position ≤ 1

/-- An operation does not go on past a settlement: the phase is not advanced, and the result is not
committed unless the settlement is a success. -/
def Operation.Timely (machine : CarrierCallMachine) : Operation → Prop
  | .validate => machine.call.phase = .preparing → machine.call.settlement = none
  | .commitInputTransfer => machine.call.phase = .validated →
      machine.input.allReadyFor .commit = true → machine.call.settlement = none
  | .commitResult => ∀ result, machine.result = some result → result.allReadyFor .commit = true →
      ∀ settled, machine.call.settlement = some settled → settled = .success
  | _ => True

section Runs

variable {machine after : CarrierCallMachine} {operation : Operation} {direction : Direction}
  {position : Nat}

theorem after_append (earlier later : List Operation) :
    machine.after (earlier ++ later) = (machine.after earlier).after later :=
  List.foldl_append

theorem after_concat (earlier : List Operation) (operation : Operation) :
    machine.after (earlier ++ [operation]) =
      (CarrierCallMachine.perform operation (machine.after earlier)).2 :=
  after_append earlier [operation]

/-- A run takes every handle forward. -/
theorem after_progress (machine : CarrierCallMachine) (operations : List Operation)
    (direction : Direction) (position : Nat) : Progress (machine.view direction position)
      ((machine.after operations).view direction position) := by
  induction operations using List.reverseRecOn with
  | nil => exact .refl _
  | append_singleton earlier operation ih =>
    rw [after_concat]
    exact ih.trans ((perform_stepped operation _).progress direction position)

theorem Becomes.commits (becomes : Becomes direction machine after position)
    (stepped : Stepped machine operation after) : Commits direction machine after ∧
      match direction with
      | .input => operation = .commitInputTransfer ∧ machine.call.phase = .validated ∧
          machine.input.allReadyFor .commit = true
      | .result => operation = .commitResult ∧
          ∃ result, machine.result = some result ∧ result.allReadyFor .commit = true := by
  obtain ⟨before, transferred⟩ := becomes
  cases stepped with
  | moves moves => exact absurd (moves.unmoved direction position transferred) before
  | input phase ready commits =>
    cases direction with
    | input => exact ⟨commits, rfl, phase, ready⟩
    | result =>
      rw [commits.elsewhere .result (by decide)] at transferred
      exact absurd transferred before
  | result staged ready commits =>
    cases direction with
    | input =>
      rw [commits.elsewhere .input (by decide)] at transferred
      exact absurd transferred before
    | result => exact ⟨commits, rfl, _, staged, ready⟩

theorem Commits.becomes (commits : Commits direction machine after)
    (within : position < (after.states direction).length) :
    Becomes direction machine after position := by
  have length := congrArg List.length commits.transferred
  rw [List.length_map] at length
  have here : position < (machine.states direction).length := length ▸ within
  refine ⟨fun wrong => ?_, ?_⟩
  · cases commits.ready _ (List.mem_of_getElem? wrong)
  · rw [commits.transferred, List.getElem?_map, List.getElem?_eq_getElem here]
    rfl

/-- A handle of a set that is committed has not come far. -/
theorem Commits.rank_le (commits : Commits direction machine after) (position : Nat) :
    rank (machine.view direction position).1 ≤ 1 := by
  show rank (machine.states direction)[position]? ≤ 1
  cases found : (machine.states direction)[position]? with
  | none => exact Nat.zero_le _
  | some state =>
    rw [commits.ready state (List.mem_of_getElem? found)]
    exact le_rfl

theorem Stepped.together (stepped : Stepped machine operation after) :
    Together direction machine after := by
  rintro ⟨position, becomes⟩ other within
  exact (becomes.commits stepped).1.becomes within

end Runs

section Calls

variable {root : Handle} {leaves : List Handle} {operations : List Operation}

theorem released_once (direction : Direction) (position : Nat) :
    (((CarrierCallMachine.new root leaves).after operations).trace.releases direction position = 0 ∨
      ((CarrierCallMachine.new root leaves).after operations).trace.releases direction position = 1 ∧
        rank (((CarrierCallMachine.new root leaves).after operations).view direction position).1 = 3) := by
  rcases (after_progress (.new root leaves) operations direction position).releases with
    same | ⟨one, -, last⟩
  · exact .inl same
  · exact .inr ⟨one, last⟩

theorem staged_finished
    (staged : ((CarrierCallMachine.new root leaves).after operations).result.isSome) :
    ((CarrierCallMachine.new root leaves).after operations).executionFinished = true := by
  induction operations using List.reverseRecOn with
  | nil => cases staged
  | append_singleton earlier operation ih =>
    rw [after_concat] at staged ⊢
    have keeps := perform_keeps operation ((CarrierCallMachine.new root leaves).after earlier)
    rcases keeps.staged staged with before | finished
    · exact keeps.finished (ih before)
    · exact finished

theorem perform_reversed {machine : CarrierCallMachine} {operation : Operation}
    {direction : Direction} (releases : operation.releases = some direction)
    (succeeds : (CarrierCallMachine.perform operation machine).1 = .ok ()) :
    ∃ set, machine.set direction = some set ∧
      set.releasedBy (CarrierCallMachine.perform operation machine).2.trace.events =
        set.releasedBy machine.trace.events ++
          set.obligationOrder.reverse.map fun handle => (direction, some handle) := by
  have input (transferred : Bool) (ended : (CarrierCallMachine.onInput
      (HandleSet.releaseSet .input transferred) machine).1 = .ok ()) :
      machine.input.releasedBy (CarrierCallMachine.onInput
        (HandleSet.releaseSet .input transferred) machine).2.trace.events =
          machine.input.releasedBy machine.trace.events ++
            machine.input.obligationOrder.reverse.map fun handle => (.input, some handle) :=
    releaseSet_reversed (Prod.ext ended rfl)
  cases operation with
  | releaseInputBeforeTransfer =>
    obtain rfl := Option.some.inj releases
    exact ⟨machine.input, rfl, input false succeeds⟩
  | releaseInputAfterTransfer =>
    obtain rfl := Option.some.inj releases
    exact ⟨machine.input, rfl, input true succeeds⟩
  | releaseResultBeforeCommit =>
    obtain rfl := Option.some.inj releases
    cases staged : machine.result with
    | none =>
      have refused : (CarrierCallMachine.onResult (HandleSet.releaseSet .result false)
          machine).1 = .ok () := succeeds
      unfold CarrierCallMachine.onResult at refused
      rw [staged] at refused
      cases refused
    | some result =>
      have ran : CarrierCallMachine.perform .releaseResultBeforeCommit machine =
          ((HandleSet.releaseSet .result false (result, machine.trace)).1, { machine with
              result := some (HandleSet.releaseSet .result false (result, machine.trace)).2.1
              trace := (HandleSet.releaseSet .result false (result, machine.trace)).2.2 }) := by
        show CarrierCallMachine.onResult (HandleSet.releaseSet .result false) machine = _
        unfold CarrierCallMachine.onResult
        rw [staged]
      rw [ran] at succeeds ⊢
      exact ⟨result, staged, releaseSet_reversed (Prod.ext succeeds rfl)⟩
  | _ => cases releases

theorem lawful_of_timely {earlier : List Operation} {operation : Operation}
    (timely : operation.Timely ((CarrierCallMachine.new root leaves).after earlier)) :
    LawfulStep ((CarrierCallMachine.new root leaves).after earlier) operation
      (CarrierCallMachine.perform operation ((CarrierCallMachine.new root leaves).after earlier)).1
        ((CarrierCallMachine.new root leaves).after (earlier ++ [operation])) := by
  rw [after_concat]
  have stepped := perform_stepped operation ((CarrierCallMachine.new root leaves).after earlier)
  have keeps := perform_keeps operation ((CarrierCallMachine.new root leaves).after earlier)
  refine ⟨stepped.together, fun position becomes => ?_, stepped.together,
    fun position becomes => ?_, fun settled => ?_, keeps.settlement,
    fun direction position released becomes => ?_, fun direction => perform_reversed⟩
  · exact (becomes.commits stepped).2.2.1
  · obtain ⟨rfl, result, staged, ready⟩ := (becomes.commits stepped).2
    exact ⟨staged_finished (by rw [staged]; rfl), timely result staged ready⟩
  · rcases keeps.phase with same | ⟨rfl, preparing⟩ | ⟨rfl, validated, ready⟩
    · exact same
    · exact absurd (timely preparing) settled
    · exact absurd (timely validated ready) settled
  · -- a handle that was released is at its end, and one that is transferred is not
    have early := (becomes.commits stepped).1.rank_le position
    rcases released_once direction position with none | ⟨-, last⟩
    · exact released none
    · omega

theorem timely_of_lawful {machine : CarrierCallMachine} {operation : Operation}
    (lawful : LawfulStep machine operation (CarrierCallMachine.perform operation machine).1
      (CarrierCallMachine.perform operation machine).2) : operation.Timely machine := by
  cases operation with
  | validate =>
    intro preparing
    by_contra settled
    have moved : (CarrierCallMachine.perform .validate machine).2.call.phase = .validated := by
      refine wp_after (P := fun after : CarrierCallMachine =>
        after.call.phase = .validated) |>.mp ?_
      simp [CarrierCallMachine.perform, CarrierCallMachine.validate, CallLedger.advance, preparing]
    rw [lawful.phase settled, preparing] at moved
    cases moved
  | commitInputTransfer =>
    intro validated ready
    by_contra settled
    have moved := (commitInputTransfer_commits validated ready).2
    have same := lawful.phase settled
    rw [validated] at same
    exact absurd (same.symm.trans moved) (by decide)
  | commitResult =>
    intro result staged ready
    have commits := commitResult_commits staged ready
    refine (lawful.finished 0 (commits.becomes ?_)).2
    rw [commits.transferred, List.length_map]
    unfold CarrierCallMachine.states CarrierCallMachine.set
    rw [staged]
    exact Nat.succ_pos _
  | _ => trivial

/-- **A run is lawful exactly if no operation goes on past a settlement**: whatever the operations are
and whichever of them are refused, handles are transferred together and once, are released once and
in order, and a settlement stays. -/
theorem lawful_iff_timely (root : Handle) (leaves : List Handle) (operations : List Operation) :
    Lawful (.new root leaves) operations ↔ Throughout (fun earlier operation =>
      operation.Timely ((CarrierCallMachine.new root leaves).after earlier)) operations := by
  constructor
  · intro lawful earlier operation later split
    have step : LawfulStep _ operation _ _ := lawful.steps earlier operation later split
    rw [after_concat] at step
    exact timely_of_lawful step
  · intro timely
    refine ⟨fun earlier operation later split => lawful_of_timely (timely earlier operation later
      split), fun earlier first middle second later direction position again _ becomes wrong => ?_,
      fun direction position => ?_⟩
    · -- the handle that was transferred first is past the state in which a set is committed
      rw [after_concat] at becomes wrong
      have again := (wrong.commits (perform_stepped second _)).1.rank_le position
      have goes := (after_progress ((CarrierCallMachine.perform first
        ((CarrierCallMachine.new root leaves).after earlier)).2) middle direction position).rank
      rw [← List.singleton_append, ← List.append_assoc, after_append, after_concat] at again
      have far : rank (CarrierCallMachine.view _ direction position).1 = 2 :=
        congrArg rank becomes.2
      omega
    · rcases released_once direction position with none | ⟨one, -⟩
      · exact none.le.trans (Nat.zero_le 1)
      · exact one.le

/-- A call whose settlement is selected is validated all the same. -/
theorem settled_validates : ¬∀ root leaves operations,
    Lawful (CarrierCallMachine.new root leaves) operations := by
  intro lawful
  have step := (lawful ⟨0, 1⟩ [] [.settle .providerFailure, .validate]).steps
    [.settle .providerFailure] .validate [] rfl
  exact absurd (step.phase (by decide)) (by decide)

end Calls

end Semaprax.CarrierCall
