/-
**The steps of a carrier call** (`public_generic_abi/carrier/machine.rs`).

An operation that ends or is refused takes every handle forward, and releases it at most once. Only
two operations transfer handles, and they transfer all handles of a set that is ready.

* `Progress` — how the state of a handle and its releases go on.
* `Visited`, `Swept` — what is done to one ledger, and to the ledgers of a set.
* `Moves`, `Commits`, `perform_stepped` — the steps that transfer nothing, and those that do.
* `perform_keeps` — the phase, the settlement and the execution of a call.
-/

import Semaprax.CarrierCall.Model

namespace Semaprax.CarrierCall

open Library

/-- How far a handle has come. -/
def rank : Option CarrierState → Nat
  | none | some .created => 0
  | some .initialized => 1
  | some .transferred | some .borrowed | some .consumed => 2
  | some .released | some .invalid => 3

theorem rank_le (state : Option CarrierState) : rank state ≤ 3 := by
  unfold rank
  split <;> omega

def Trace.releases (trace : Trace) (direction : Direction) (position : Nat) : Nat :=
  trace.events.countP fun event =>
    event.label = .leafRelease ∧ event.direction = direction ∧ event.leaf = leafAt position

/-- A handle goes on, and is released once if it is not at its end. -/
structure Progress (before after : Option CarrierState × Nat) : Prop where
  rank : rank before.1 ≤ rank after.1
  releases : after.2 = before.2 ∨
    after.2 = before.2 + 1 ∧ CarrierCall.rank before.1 < 3 ∧ CarrierCall.rank after.1 = 3

theorem Progress.refl (state : Option CarrierState × Nat) : Progress state state :=
  ⟨le_rfl, .inl rfl⟩

theorem Progress.trans {first second third : Option CarrierState × Nat}
    (before : Progress first second) (after : Progress second third) : Progress first third := by
  have lower := before.rank
  have upper := after.rank
  refine ⟨lower.trans upper, ?_⟩
  rcases before.releases with same | ⟨one, early, late⟩
  · rcases after.releases with again | ⟨once, open_, done⟩
    · exact .inl (again.trans same)
    · exact .inr ⟨by rw [once, same], lower.trans_lt open_, done⟩
  · rcases after.releases with again | ⟨once, open_, done⟩
    · exact .inr ⟨again.trans one, early, le_antisymm (rank_le _) (late.symm.le.trans upper)⟩
    · omega

theorem leafAt_injective : Function.Injective leafAt := by
  intro first second same
  cases first <;> cases second <;> simp_all [leafAt]

theorem Trace.releases_record (label : TraceLabel) (direction other : Direction)
    (position index : Nat) (before after : Option CarrierState) (status : Option Settlement)
    (trace : Trace) :
    (trace.record label direction (leafAt position) before after status).releases other index =
      trace.releases other index +
        if label = .leafRelease ∧ direction = other ∧ position = index then 1 else 0 := by
  unfold Trace.releases Trace.record
  rw [List.countP_append, List.countP_singleton]
  simp [leafAt_injective.eq_iff]

theorem Trace.releases_other {label : TraceLabel} (other : label ≠ .leafRelease)
    (direction sought : Direction) (leaf : Option Nat) (before after : Option CarrierState)
    (status : Option Settlement) (trace : Trace) (position : Nat) :
    (trace.record label direction leaf before after status).releases sought position =
      trace.releases sought position := by
  unfold Trace.releases Trace.record
  rw [List.countP_append, List.countP_singleton, if_neg (by simp [other])]
  rfl

structure Visited (direction : Direction) (position : Nat) (before after : HandleLedger × Trace) :
    Prop where
  handle : after.1.handle = before.1.handle
  elsewhere : ∀ other index, ¬(other = direction ∧ index = position) →
    after.2.releases other index = before.2.releases other index
  progress : Progress (some before.1.state, before.2.releases direction position)
    (some after.1.state, after.2.releases direction position)
  unmoved : after.1.state = .transferred → before.1.state = .transferred

/-- What a sweep that commits nothing does to the ledgers of a set. -/
structure Swept (direction : Direction) (before after : List HandleLedger × Trace) : Prop where
  handles : after.1.map HandleLedger.handle = before.1.map HandleLedger.handle
  elsewhere : ∀ other index, other ≠ direction →
    after.2.releases other index = before.2.releases other index
  progress : ∀ position : Nat, Progress
    (before.1[position]?.map HandleLedger.state, before.2.releases direction position)
    (after.1[position]?.map HandleLedger.state, after.2.releases direction position)
  unmoved : ∀ position : Nat, after.1[position]?.map HandleLedger.state = some .transferred →
    before.1[position]?.map HandleLedger.state = some .transferred

section Sweeps

variable {direction : Direction} {event : Event}

variable {visit : Nat → Prog (HandleLedger × Trace) Diagnostic Unit} {ledger : HandleLedger}
variable {next state : CarrierState}

theorem Swept.refl (state : List HandleLedger × Trace) : Swept direction state state :=
  ⟨rfl, fun _ _ _ => rfl, fun _ => .refl _, fun _ => id⟩

theorem Swept.trans {first second third : List HandleLedger × Trace}
    (before : Swept direction first second) (after : Swept direction second third) :
    Swept direction first third :=
  ⟨after.handles.trans before.handles, fun other index differs =>
      (after.elsewhere other index differs).trans (before.elsewhere other index differs),
    fun position => (before.progress position).trans (after.progress position),
    fun position => before.unmoved position ∘ after.unmoved position⟩

theorem Swept.mark {label : TraceLabel} (other : label ≠ .leafRelease) (marked : Direction)
    (ledgers : List HandleLedger) (trace : Trace) :
    Swept direction (ledgers, trace) (ledgers, trace.mark label marked) := by
  have same (sought : Direction) (position : Nat) :
      (trace.mark label marked).releases sought position = trace.releases sought position :=
    Trace.releases_other other ..
  refine ⟨rfl, fun sought position _ => same sought position, fun position => ?_, fun _ => id⟩
  exact ⟨le_rfl, .inl (same direction position)⟩

theorem Visited.swept {done rest : List HandleLedger} {cell : HandleLedger} {log : Trace}
    {after : HandleLedger × Trace} (visited : Visited direction done.length (cell, log) after) :
    Swept direction (done ++ cell :: rest, log) (done ++ after.1 :: rest, after.2) := by
  have others {position : Nat} (differs : position ≠ done.length) :
      (done ++ after.1 :: rest)[position]? = (done ++ cell :: rest)[position]? := by
    rcases Nat.lt_or_gt_of_ne differs with before | later
    · rw [List.getElem?_append_left before, List.getElem?_append_left before]
    · rw [List.getElem?_append_right later.le, List.getElem?_append_right later.le]
      obtain ⟨more, same⟩ := Nat.exists_eq_add_of_lt later
      have shift : position - done.length = more + 1 := by omega
      rw [shift, List.getElem?_cons_succ, List.getElem?_cons_succ]
  refine ⟨by simp [visited.handle], fun other index differs => ?_, fun position => ?_,
    fun position => ?_⟩
  · exact visited.elsewhere other index fun both => differs both.1
  · by_cases here : position = done.length
    · subst here
      simpa using visited.progress
    · rw [others here]
      simp only
      rw [visited.elsewhere direction position fun both => here both.2]
      exact .refl _
  · by_cases here : position = done.length
    · subst here
      simpa using visited.unmoved
    · rw [others here]
      exact id

/-- A visit of a kind that commits nothing, whether it ends or stops. -/
def Visits (direction : Direction) (visit : Nat → Prog (HandleLedger × Trace) Diagnostic Unit) :
    Prop := ∀ position before, Visited direction position before (visit position before).2

theorem Visits.forwards
    (visits : Visits direction visit) (ledgers : List HandleLedger) (trace : Trace) :
    Swept direction (ledgers, trace) (forwards visit 0 ledgers trace).2 :=
  forwards_related Swept.refl Swept.trans
    (fun done cell _ log => (visits done.length (cell, log)).swept) [] ledgers trace

theorem Visits.backwards
    (visits : Visits direction visit) (ledgers : List HandleLedger) (trace : Trace) :
    Swept direction (ledgers, trace) (backwards visit 0 ledgers trace).2 :=
  backwards_related Swept.refl Swept.trans
    (fun done cell _ log => (visits done.length (cell, log)).swept) [] ledgers trace

theorem wp_apply {ends : CarrierState → HandleLedger → Prop}
    {stops : Diagnostic → HandleLedger → Prop} :
    (HandleLedger.apply event).wp ends stops ledger ↔
      (∀ next, transition ledger.state event = .ok next → ends next ⟨ledger.handle, next⟩) ∧
        ∀ error, transition ledger.state event = .error error →
          stops error ⟨ledger.handle, .invalid⟩ := by
  unfold Prog.wp HandleLedger.apply
  cases transition ledger.state event <;> simp

theorem Visited.quiet {position : Nat} {trace later : Trace}
    (goes : rank (some ledger.state) ≤ rank (some next))
    (unmoved : next ≠ .transferred)
    (same : ∀ other index, later.releases other index = trace.releases other index) :
    Visited direction position (ledger, trace) (⟨ledger.handle, next⟩, later) :=
  ⟨rfl, fun other index _ => same other index, ⟨goes, .inl (same _ _)⟩,
    fun wrong => absurd wrong unmoved⟩

theorem transition_fill (legal : transition state .fill = .ok next) :
    state = .created ∧ next = .initialized := by
  cases state <;> cases legal
  exact ⟨rfl, rfl⟩

theorem transition_release {transferred : Bool} (legal : transition state
      (if transferred then .releaseAfterTransfer else .releaseBeforeTransfer) = .ok next) :
    rank (some state) < 3 ∧ next = .released := by
  cases transferred <;> cases state <;> cases legal <;> exact ⟨by decide, rfl⟩

theorem fill_visits (direction : Direction) (isResult : Bool) :
    Visits direction (HandleSet.fillLedger direction isResult) := by
  intro position before
  obtain ⟨ledger, trace⟩ := before
  refine Prog.wp_after.mp ?_
  unfold HandleSet.fillLedger
  simp only [wp_bind, wp_get, wp_set, wp_onFirst, wp_apply]
  refine ⟨fun next legal => ?_, fun error _ => ?_⟩
  · obtain ⟨created, rfl⟩ := transition_fill legal
    refine .quiet ?_ (by decide) fun other index => ?_
    · rw [created]
      exact Nat.zero_le _
    · cases isResult
      · rw [if_neg Bool.false_ne_true, Trace.releases_other (by decide),
          Trace.releases_other (by decide), Trace.releases_other (by decide)]
      · rw [if_pos rfl, Trace.releases_other (by decide), Trace.releases_other (by decide)]
  · refine .quiet (rank_le _) (by decide) fun other index => ?_
    cases isResult <;> exact Trace.releases_other (by decide) ..

theorem release_visits (direction : Direction) (transferred : Bool) :
    Visits direction (HandleSet.releaseLedger direction
      (if transferred then .releaseAfterTransfer else .releaseBeforeTransfer)) := by
  intro position before
  obtain ⟨ledger, trace⟩ := before
  refine Prog.wp_after.mp ?_
  unfold HandleSet.releaseLedger
  simp only [wp_bind, wp_get, wp_set, wp_onFirst, wp_apply]
  refine ⟨fun next legal => ?_, fun error _ =>
    .quiet (rank_le _) (by decide) fun _ _ => rfl⟩
  obtain ⟨early, rfl⟩ := transition_release legal
  refine ⟨rfl, fun other index differs => ?_, ⟨Nat.le_of_lt early, .inr ⟨?_, early, rfl⟩⟩,
    fun wrong => ?_⟩
  · rw [Trace.releases_record, if_neg fun both => differs ⟨both.2.1.symm, both.2.2.symm⟩]
    rfl
  · rw [Trace.releases_record, if_pos ⟨rfl, rfl, rfl⟩]
  · cases wrong

end Sweeps

namespace CarrierCallMachine

def set (machine : CarrierCallMachine) : Direction → Option HandleSet
  | .input => some machine.input
  | .result => machine.result

/-- The states of the handles in a direction, none before its set is there. -/
def states (machine : CarrierCallMachine) (direction : Direction) : List CarrierState :=
  (machine.set direction).elim [] fun set => set.ledgers.map HandleLedger.state

def view (machine : CarrierCallMachine) (direction : Direction) (position : Nat) :
    Option CarrierState × Nat :=
  ((machine.states direction)[position]?, machine.trace.releases direction position)

end CarrierCallMachine

/-- A step that transfers nothing. -/
structure Moves (before after : CarrierCallMachine) : Prop where
  progress : ∀ direction position, Progress (before.view direction position)
    (after.view direction position)
  unmoved : ∀ direction (position : Nat), (after.states direction)[position]? = some .transferred →
    (before.states direction)[position]? = some .transferred

/-- A step that transfers all handles in a direction. -/
structure Commits (direction : Direction) (before after : CarrierCallMachine) : Prop where
  ready : ∀ state ∈ before.states direction, state = .initialized
  transferred : after.states direction = (before.states direction).map fun _ => .transferred
  elsewhere : ∀ other, other ≠ direction → after.states other = before.states other
  releases : ∀ other position, after.trace.releases other position =
    before.trace.releases other position

section Machines

variable {before after machine : CarrierCallMachine} {direction : Direction}

theorem Moves.refl (machine : CarrierCallMachine) : Moves machine machine :=
  ⟨fun _ _ => .refl _, fun _ _ => id⟩

theorem Moves.of_same (states : ∀ direction, after.states direction = before.states direction)
    (releases : ∀ direction position, after.trace.releases direction position =
      before.trace.releases direction position) : Moves before after := by
  refine ⟨fun direction position => ?_, fun direction position => ?_⟩
  · unfold CarrierCallMachine.view
    rw [states, releases]
    exact .refl _
  · rw [states]
    exact id

theorem Moves.trans {third : CarrierCallMachine} (first : Moves before machine)
    (second : Moves machine third) : Moves before third :=
  ⟨fun direction position => (first.progress direction position).trans
      (second.progress direction position),
    fun direction position => first.unmoved direction position ∘ second.unmoved direction position⟩

theorem Moves.of_swept {ledgers later : List HandleLedger}
    (states : before.states direction = ledgers.map HandleLedger.state)
    (goes : after.states direction = later.map HandleLedger.state)
    (elsewhere : ∀ other, other ≠ direction → after.states other = before.states other)
    (swept : Swept direction (ledgers, before.trace) (later, after.trace)) :
    Moves before after := by
  refine ⟨fun other position => ?_, fun other position => ?_⟩
  · unfold CarrierCallMachine.view
    by_cases here : other = direction
    · subst here
      rw [states, goes, List.getElem?_map, List.getElem?_map]
      exact swept.progress position
    · rw [elsewhere other here, swept.elsewhere other position here]
      exact .refl _
  · by_cases here : other = direction
    · subst here
      rw [states, goes, List.getElem?_map, List.getElem?_map]
      exact swept.unmoved position
    · rw [elsewhere other here]
      exact id

theorem Commits.progress (commits : Commits direction before after) (other : Direction)
    (position : Nat) : Progress (before.view other position) (after.view other position) := by
  unfold CarrierCallMachine.view
  rw [commits.releases]
  by_cases here : other = direction
  · subst here
    rw [commits.transferred, List.getElem?_map]
    refine ⟨?_, .inl rfl⟩
    cases found : (before.states other)[position]? with
    | none => exact le_rfl
    | some state =>
      rw [commits.ready state (List.mem_of_getElem? found)]
      exact Nat.le_succ 1
  · rw [commits.elsewhere other here]
    exact .refl _

end Machines

section Steps

variable {ends : Unit → CarrierCallMachine → Prop} {stops : Diagnostic → CarrierCallMachine → Prop}
  {machine : CarrierCallMachine}

variable {set : HandleSet} {program : Prog (HandleSet × Trace) Diagnostic Unit}
variable {operation : Operation}

@[simp]
theorem wp_onCall (program : Prog CallLedger Diagnostic Unit) :
    (CarrierCallMachine.onCall program).wp ends stops machine ↔
      program.wp (fun value call => ends value { machine with call := call })
        (fun error call => stops error { machine with call := call }) machine.call := by
  unfold Prog.wp CarrierCallMachine.onCall
  cases program machine.call with
  | mk outcome call => cases outcome <;> exact Iff.rfl

@[simp]
theorem wp_onInput (program : Prog (HandleSet × Trace) Diagnostic Unit) :
    (CarrierCallMachine.onInput program).wp ends stops machine ↔
      program.wp (fun value found => ends value
          { machine with
            input := found.1
            trace := found.2 })
        (fun error found => stops error
          { machine with
            input := found.1
            trace := found.2 }) (machine.input, machine.trace) := by
  unfold Prog.wp CarrierCallMachine.onInput
  cases program (machine.input, machine.trace) with
  | mk outcome found => cases outcome <;> exact Iff.rfl

@[simp]
theorem wp_onResult (program : Prog (HandleSet × Trace) Diagnostic Unit) :
    (CarrierCallMachine.onResult program).wp ends stops machine ↔
      (machine.result = none → stops (illegalHere "result staging has not begun") machine) ∧
        ∀ result, machine.result = some result →
          program.wp (fun value found => ends value
              { machine with
                result := some found.1
                trace := found.2 })
            (fun error found => stops error
              { machine with
                result := some found.1
                trace := found.2 }) (result, machine.trace) := by
  unfold CarrierCallMachine.onResult
  cases staged : machine.result with
  | none => simp [Prog.wp, staged]
  | some result =>
    cases ran : program (result, machine.trace) with
    | mk outcome found => cases outcome <;> simp [Prog.wp, staged, ran]

@[simp]
theorem wp_record (label : TraceLabel) (direction : Direction) :
    (CarrierCallMachine.record label direction).wp ends stops machine ↔
      ends () { machine with trace := machine.trace.mark label direction } := Iff.rfl

theorem ledgers_replace {ledgers : List HandleLedger}
    (same : ledgers.map HandleLedger.handle = set.ledgers.map HandleLedger.handle) :
    (set.replace ledgers).ledgers = ledgers := by
  cases ledgers with
  | nil => cases same
  | cons root leaves => rfl

theorem sweeping_swept {direction : Direction} {trace : Trace}
    {sweep : List HandleLedger → Trace → Except Diagnostic Unit × List HandleLedger × Trace}
    (swept : Swept direction (set.ledgers, trace) (sweep set.ledgers trace).2) :
    Swept direction (set.ledgers, trace) ((HandleSet.sweeping sweep (set, trace)).2.1.ledgers,
      (HandleSet.sweeping sweep (set, trace)).2.2) := by
  have same : ((HandleSet.sweeping sweep (set, trace)).2.1.ledgers,
      (HandleSet.sweeping sweep (set, trace)).2.2) = (sweep set.ledgers trace).2 :=
    Prod.ext (ledgers_replace swept.handles) rfl
  rw [same]
  exact swept

def Sweeps (direction : Direction) (program : Prog (HandleSet × Trace) Diagnostic Unit) : Prop :=
  ∀ before, Swept direction (before.1.ledgers, before.2)
    ((program before).2.1.ledgers, (program before).2.2)

theorem fillAndTrace_sweeps (direction : Direction) (isResult : Bool) :
    Sweeps direction (HandleSet.fillAndTrace direction isResult) := fun _ =>
  sweeping_swept ((fill_visits direction isResult).forwards _ _)

theorem releaseSet_sweeps (direction : Direction) (transferred : Bool) :
    Sweeps direction (HandleSet.releaseSet direction transferred) := by
  intro before
  have swept := sweeping_swept ((release_visits direction transferred).backwards before.1.ledgers
    before.2)
  refine wp_after (P := fun after : HandleSet × Trace =>
    Swept direction (before.1.ledgers, before.2) (after.1.ledgers, after.2)) |>.mp ?_
  unfold HandleSet.releaseSet
  rw [wp_bind]
  refine wp_mono (Prog.wp_after.mpr swept) (fun _ found swept => ?_) fun _ _ => id
  exact swept.trans (.mark (by decide) _ _ _)

theorem onInput_moves (sweeps : Sweeps .input program) (machine : CarrierCallMachine) :
    Moves machine (CarrierCallMachine.onInput program machine).2 := by
  refine .of_swept rfl rfl (fun other differs => ?_) (sweeps (machine.input, machine.trace))
  cases other with
  | input => exact absurd rfl differs
  | result => rfl

theorem onResult_moves (sweeps : Sweeps .result program) (machine : CarrierCallMachine) :
    Moves machine (CarrierCallMachine.onResult program machine).2 := by
  unfold CarrierCallMachine.onResult
  cases staged : machine.result with
  | none => exact .refl _
  | some result =>
    have before : machine.states .result = result.ledgers.map HandleLedger.state := by
      unfold CarrierCallMachine.states CarrierCallMachine.set
      rw [staged]
      rfl
    refine .of_swept before rfl (fun other differs => ?_) (sweeps (result, machine.trace))
    cases other with
    | input => rfl
    | result => exact absurd rfl differs

theorem staged_moves (staged : machine.result = none) (root : Handle) (leaves : List Handle) :
    Moves machine { machine with result := some (.new root leaves) } := by
  have fresh : ∀ state ∈ (HandleSet.new root leaves).ledgers.map HandleLedger.state,
      state = .created := by
    intro state member
    simp only [HandleSet.ledgers, HandleSet.new, List.map_cons, List.map_map, List.mem_cons,
      List.mem_map] at member
    rcases member with rfl | ⟨_, -, rfl⟩ <;> rfl
  have absent : machine.states .result = [] := by
    unfold CarrierCallMachine.states CarrierCallMachine.set
    rw [staged]
    rfl
  refine ⟨fun direction position => ?_, fun direction position found => ?_⟩
  · refine ⟨?_, .inl rfl⟩
    cases direction with
    | input => exact le_rfl
    | result =>
      show rank (machine.states .result)[position]? ≤ _
      rw [absent]
      exact Nat.zero_le _
  · cases direction with
    | input => exact found
    | result => cases fresh _ (List.mem_of_getElem? found)

/-- A step that may record an event of a whole value and leaves the sets alone. -/
theorem Moves.of_sets {after : CarrierCallMachine} (input : after.input = machine.input)
    (result : after.result = machine.result)
    (releases : ∀ direction position, after.trace.releases direction position =
      machine.trace.releases direction position) : Moves machine after := by
  refine .of_same (fun direction => ?_) releases
  unfold CarrierCallMachine.states CarrierCallMachine.set
  rw [input, result]

theorem Moves.mark {before : CarrierCallMachine} {label : TraceLabel} (moves : Moves before machine)
    (other : label ≠ .leafRelease) (direction : Direction) :
    Moves before { machine with trace := machine.trace.mark label direction } :=
  moves.trans (.of_sets rfl rfl fun _ _ => Trace.releases_other other ..)

theorem allReadyFor_commit (ready : set.allReadyFor .commit = true) :
    ∀ ledger ∈ set.ledgers, ledger.state = .initialized := by
  intro ledger member
  have legal := List.all_eq_true.mp ready ledger member
  cases state : ledger.state <;> rw [state] at legal <;> first | rfl | cases legal

theorem commitAll_ready (ready : set.allReadyFor .commit = true) (trace : Trace) :
    ∃ after, HandleSet.commitAll (set, trace) = (.ok (), after, trace) ∧
      after.ledgers.map HandleLedger.state =
        (set.ledgers.map HandleLedger.state).map fun _ => .transferred := by
  have all : forwards HandleSet.commitLedger 0 set.ledgers trace = (.ok (),
      set.ledgers.map fun ledger => ⟨ledger.handle, .transferred⟩, trace) := by
    refine forwards_all 0 trace fun ledger member index log => ?_
    obtain ⟨handle, state⟩ := ledger
    obtain rfl : state = .initialized := allReadyFor_commit ready _ member
    rfl
  refine ⟨set.replace (set.ledgers.map fun ledger => ⟨ledger.handle, .transferred⟩), ?_, ?_⟩
  · unfold HandleSet.commitAll HandleSet.sweeping
    simp only
    rw [all]
  · rw [ledgers_replace]
    · simp
    · simp

/-- A step of an operation: it transfers nothing, or all handles of a set that is ready. -/
inductive Stepped (machine : CarrierCallMachine) : Operation → CarrierCallMachine → Prop
  | moves {operation : Operation} {after : CarrierCallMachine} (moves : Moves machine after) :
      Stepped machine operation after
  | input {after : CarrierCallMachine} (phase : machine.call.phase = .validated)
      (ready : machine.input.allReadyFor .commit = true) (commits : Commits .input machine after) :
      Stepped machine .commitInputTransfer after
  | result {result : HandleSet} {after : CarrierCallMachine} (staged : machine.result = some result)
      (ready : result.allReadyFor .commit = true) (commits : Commits .result machine after) :
      Stepped machine .commitResult after

theorem commitInputTransfer_commits (phase : machine.call.phase = .validated)
    (ready : machine.input.allReadyFor .commit = true) :
    Commits .input machine (CarrierCallMachine.commitInputTransfer machine).2 ∧
      (CarrierCallMachine.commitInputTransfer machine).2.call.phase = .committed := by
  refine wp_after (P := fun after : CarrierCallMachine => Commits .input machine after ∧
    after.call.phase = .committed) |>.mp ?_
  unfold CarrierCallMachine.commitInputTransfer CallLedger.advance
  simp only [wp_bind, wp_get, wp_stopIf, wp_onCall, wp_onInput, wp_record, wp_set]
  refine ⟨fun wrong => absurd phase wrong, fun _ => ⟨fun wrong => ?_, fun _ => ⟨fun wrong => ?_,
    fun _ => ?_⟩⟩⟩
  · rw [ready] at wrong
    cases wrong
  · exact absurd (.inr ⟨phase, trivial⟩) wrong
  obtain ⟨after, ran, states⟩ := commitAll_ready ready machine.trace
  unfold Prog.wp
  rw [ran]
  refine ⟨⟨?_, states, fun other differs => ?_, fun _ _ => ?_⟩, trivial⟩
  · intro state member
    obtain ⟨ledger, listed, rfl⟩ := List.mem_map.mp member
    exact allReadyFor_commit ready ledger listed
  · cases other with
    | input => exact absurd rfl differs
    | result => rfl
  · exact Trace.releases_other (by decide) ..

theorem commitResult_commits {result : HandleSet} (staged : machine.result = some result)
    (ready : result.allReadyFor .commit = true) :
    Commits .result machine (CarrierCallMachine.commitResult machine).2 := by
  refine Prog.wp_after.mp ?_
  unfold CarrierCallMachine.commitResult
  simp only [wp_bind, wp_get, wp_stopIf, wp_onResult, wp_record]
  refine ⟨fun absent => ?_, fun found same => ⟨fun wrong => ?_, fun _ => ?_⟩⟩
  · rw [staged] at absent
    cases absent
  all_goals obtain rfl := Option.some.inj (staged.symm.trans same)
  · rw [ready] at wrong
    cases wrong
  obtain ⟨after, ran, states⟩ := commitAll_ready ready machine.trace
  unfold Prog.wp
  rw [ran]
  have before : machine.states .result = result.ledgers.map HandleLedger.state := by
    unfold CarrierCallMachine.states CarrierCallMachine.set
    rw [staged]
    rfl
  refine ⟨?_, ?_, fun other differs => ?_, fun _ _ => ?_⟩
  · intro state member
    rw [before] at member
    obtain ⟨ledger, listed, rfl⟩ := List.mem_map.mp member
    exact allReadyFor_commit ready ledger listed
  · rw [before]
    exact states
  · cases other with
    | input => rfl
    | result => exact absurd rfl differs
  · exact Trace.releases_other (by decide) ..

theorem commitInputTransfer_stepped (machine : CarrierCallMachine) :
    Stepped machine .commitInputTransfer (CarrierCallMachine.commitInputTransfer machine).2 := by
  by_cases legal : machine.call.phase = .validated ∧ machine.input.allReadyFor .commit = true
  · exact .input legal.1 legal.2 (commitInputTransfer_commits legal.1 legal.2).1
  · refine Prog.wp_after.mp ?_
    unfold CarrierCallMachine.commitInputTransfer
    simp only [wp_bind, wp_get, wp_stopIf]
    refine ⟨fun _ => .moves (.refl _), fun phase => ⟨fun _ => .moves (.refl _), fun ready => ?_⟩⟩
    exact absurd ⟨not_not.mp phase, Bool.not_eq_false _ |>.mp ready⟩ legal

theorem commitResult_stepped (machine : CarrierCallMachine) :
    Stepped machine .commitResult (CarrierCallMachine.commitResult machine).2 := by
  cases staged : machine.result with
  | none =>
    refine .moves (Prog.wp_after.mp ?_)
    unfold CarrierCallMachine.commitResult
    rw [wp_bind, wp_onResult]
    refine ⟨fun _ => .refl _, fun result found => ?_⟩
    rw [staged] at found
    cases found
  | some result =>
    by_cases ready : result.allReadyFor .commit = true
    · exact .result staged ready (commitResult_commits staged ready)
    · refine .moves (Prog.wp_after.mp ?_)
      unfold CarrierCallMachine.commitResult
      simp only [wp_bind, wp_get, wp_stopIf, wp_onResult]
      refine ⟨fun _ => .refl _, fun found same => ⟨fun _ => ?_, fun prepared => ?_⟩⟩
      · exact .of_sets rfl same.symm fun _ _ => rfl
      · obtain rfl := Option.some.inj (staged.symm.trans same)
        exact absurd (Bool.not_eq_false _ |>.mp prepared) ready

theorem perform_stepped (operation : Operation) (machine : CarrierCallMachine) :
    Stepped machine operation (CarrierCallMachine.perform operation machine).2 := by
  have swept {program : Prog CarrierCallMachine Diagnostic Unit}
      (moves : Moves machine (program machine).2) {label : TraceLabel}
      (other : label ≠ .leafRelease) (direction : Direction) :
      Moves machine ((program >>= fun _ => CarrierCallMachine.record label direction) machine).2 := by
    refine Prog.wp_after.mp ?_
    rw [wp_bind]
    exact wp_mono (Prog.wp_after.mpr moves) (fun _ _ moves => moves.mark other direction)
      fun _ _ => id
  cases operation with
  | validate =>
    refine .moves (swept (Prog.wp_after.mp ?_) (by decide) _)
    rw [wp_onCall]
    exact wp_of_forall _ (fun _ _ => .of_sets rfl rfl fun _ _ => rfl) fun _ _ =>
      .of_sets rfl rfl fun _ _ => rfl
  | prepareInput =>
    exact .moves (swept (onInput_moves (fillAndTrace_sweeps _ _) machine) (by decide) _)
  | commitInputTransfer => exact commitInputTransfer_stepped machine
  | beginExecution | finishExecution =>
    refine Prog.wp_after.mp ?_
    simp only [CarrierCallMachine.perform, CarrierCallMachine.beginExecution,
      CarrierCallMachine.finishExecution, wp_bind, wp_get, wp_stopIf, wp_set, wp_record]
    refine ⟨fun _ => .moves (.refl _), fun _ => .moves ?_⟩
    exact .of_sets rfl rfl fun _ _ => Trace.releases_other (by decide) ..
  | beginResult root leaves =>
    refine Prog.wp_after.mp ?_
    simp only [CarrierCallMachine.perform, CarrierCallMachine.beginResult, wp_bind,
      wp_get, wp_stopIf, wp_set]
    refine ⟨fun _ => .moves (.refl _), fun free => .moves (staged_moves ?_ root leaves)⟩
    exact Option.not_isSome_iff_eq_none.mp fun staged => free (.inr staged)
  | prepareResult =>
    exact .moves (swept (onResult_moves (fillAndTrace_sweeps _ _) machine) (by decide) _)
  | commitResult => exact commitResult_stepped machine
  | settle outcome =>
    refine Prog.wp_after.mp ?_
    simp only [CarrierCallMachine.perform, CarrierCallMachine.settle, wp_bind, wp_get,
      wp_set, wp_onCall]
    exact wp_of_forall _ (fun _ _ => .moves (.of_sets rfl rfl fun _ _ =>
      Trace.releases_other (by decide) ..)) fun _ _ => .moves (.of_sets rfl rfl fun _ _ => rfl)
  | releaseInputBeforeTransfer | releaseInputAfterTransfer =>
    exact .moves (onInput_moves (releaseSet_sweeps _ _) machine)
  | releaseResultBeforeCommit => exact .moves (onResult_moves (releaseSet_sweeps _ _) machine)

theorem Stepped.progress {after : CarrierCallMachine}
    (stepped : Stepped machine operation after) (direction : Direction) (position : Nat) :
    Progress (machine.view direction position) (after.view direction position) := by
  cases stepped with
  | moves moves => exact moves.progress direction position
  | input _ _ commits => exact commits.progress direction position
  | result _ _ commits => exact commits.progress direction position

/-- What an operation does to the phase, the settlement and the execution of a call. -/
structure Keeps (machine : CarrierCallMachine) (operation : Operation)
    (after : CarrierCallMachine) : Prop where
  settlement : ∀ outcome, machine.call.settlement = some outcome →
    after.call.settlement = some outcome
  phase : after.call.phase = machine.call.phase ∨
    operation = .validate ∧ machine.call.phase = .preparing ∨
      operation = .commitInputTransfer ∧ machine.call.phase = .validated ∧
        machine.input.allReadyFor .commit = true
  finished : machine.executionFinished = true → after.executionFinished = true
  staged : after.result.isSome → machine.result.isSome ∨ after.executionFinished = true

theorem Keeps.of_call {after : CarrierCallMachine}
    (call : after.call = machine.call) (finished : after.executionFinished = machine.executionFinished)
    (staged : after.result.isSome = machine.result.isSome) : Keeps machine operation after :=
  ⟨fun _ settled => by rw [call, settled], .inl (by rw [call]), fun done => by rw [finished, done],
    fun some => .inl (staged ▸ some)⟩

theorem perform_keeps (operation : Operation) (machine : CarrierCallMachine) :
    Keeps machine operation (CarrierCallMachine.perform operation machine).2 := by
  refine Prog.wp_after.mp ?_
  have same : Keeps machine operation machine := .of_call rfl rfl rfl
  cases operation with
  | validate =>
    simp only [CarrierCallMachine.perform, CarrierCallMachine.validate, CallLedger.advance,
      wp_bind, wp_onCall, wp_get, wp_stopIf, wp_set, wp_record]
    refine ⟨fun _ => same, fun legal => ⟨fun _ => id, .inr (.inl ⟨rfl, ?_⟩), id, .inl⟩⟩
    simpa using legal
  | prepareInput =>
    simp only [CarrierCallMachine.perform, CarrierCallMachine.prepareInput, wp_bind,
      wp_onInput, wp_record]
    exact wp_of_forall _ (fun _ _ => .of_call rfl rfl rfl) fun _ _ => .of_call rfl rfl rfl
  | commitInputTransfer =>
    simp only [CarrierCallMachine.perform, CarrierCallMachine.commitInputTransfer,
      CallLedger.advance, wp_bind, wp_get, wp_stopIf, wp_onCall, wp_onInput,
      wp_record, wp_set]
    refine ⟨fun _ => same, fun phase => ⟨fun _ => same, fun ready => ⟨fun _ => same, fun _ => ?_⟩⟩⟩
    have committed (after : CarrierCallMachine) (call : after.call =
        { machine.call with phase := .committed })
        (finished : after.executionFinished = machine.executionFinished)
        (result : after.result = machine.result) :
        Keeps machine .commitInputTransfer after := by
      refine ⟨fun _ settled => by rw [call]; exact settled, .inr (.inr ⟨rfl, not_not.mp phase,
        Bool.not_eq_false _ |>.mp ready⟩), fun done => by rw [finished, done], fun some => ?_⟩
      exact .inl (result ▸ some)
    exact wp_of_forall _ (fun _ _ => committed _ rfl rfl rfl) fun _ _ =>
      committed _ rfl rfl rfl
  | beginExecution =>
    simp only [CarrierCallMachine.perform, CarrierCallMachine.beginExecution, wp_bind,
      wp_get, wp_stopIf, wp_set, wp_record]
    exact ⟨fun _ => same, fun _ => .of_call rfl rfl rfl⟩
  | finishExecution =>
    simp only [CarrierCallMachine.perform, CarrierCallMachine.finishExecution, wp_bind,
      wp_get, wp_stopIf, wp_set, wp_record]
    exact ⟨fun _ => same, fun _ => ⟨fun _ => id, .inl rfl, fun _ => rfl, fun _ => .inr rfl⟩⟩
  | beginResult root leaves =>
    simp only [CarrierCallMachine.perform, CarrierCallMachine.beginResult, wp_bind,
      wp_get, wp_stopIf, wp_set]
    refine ⟨fun _ => same, fun free => ⟨fun _ => id, .inl rfl, id, fun _ => .inr ?_⟩⟩
    exact Bool.not_eq_false _ |>.mp fun early => free (.inl early)
  | prepareResult =>
    simp only [CarrierCallMachine.perform, CarrierCallMachine.prepareResult, wp_bind,
      wp_onResult, wp_record]
    refine ⟨fun _ => same, fun result staged => wp_of_forall _ (fun _ _ => ?_) fun _ _ => ?_⟩
    · exact .of_call rfl rfl (by rw [staged]; rfl)
    · exact .of_call rfl rfl (by rw [staged]; rfl)
  | commitResult =>
    simp only [CarrierCallMachine.perform, CarrierCallMachine.commitResult, wp_bind,
      wp_onResult, wp_record]
    refine ⟨fun _ => same, fun result staged => wp_of_forall _ (fun _ _ => ?_) fun _ _ => ?_⟩
    · exact wp_of_forall _ (fun _ _ => .of_call rfl rfl (by rw [staged]; rfl)) fun _ _ =>
        .of_call rfl rfl (by rw [staged]; rfl)
    · exact .of_call rfl rfl (by rw [staged]; rfl)
  | settle outcome =>
    simp only [CarrierCallMachine.perform, CarrierCallMachine.settle, CallLedger.settle,
      wp_bind, wp_get, wp_set, wp_onCall]
    cases settled : machine.call.settlement with
    | none =>
      exact ⟨fun _ wrong => absurd (settled.symm.trans wrong) (by simp), .inl rfl, id, .inl⟩
    | some existing =>
      rw [wp_stopIf]
      exact ⟨fun _ => same, fun _ => .of_call rfl rfl rfl⟩
  | releaseInputBeforeTransfer | releaseInputAfterTransfer =>
    simp only [CarrierCallMachine.perform, CarrierCallMachine.releaseInputBeforeTransfer,
      CarrierCallMachine.releaseInputAfterTransfer, wp_onInput]
    exact wp_of_forall _ (fun _ _ => .of_call rfl rfl rfl) fun _ _ => .of_call rfl rfl rfl
  | releaseResultBeforeCommit =>
    simp only [CarrierCallMachine.perform, CarrierCallMachine.releaseResultBeforeCommit,
      wp_onResult]
    refine ⟨fun _ => same, fun result staged => ?_⟩
    exact wp_of_forall _ (fun _ _ => .of_call rfl rfl (by rw [staged]; rfl)) fun _ _ =>
      .of_call rfl rfl (by rw [staged]; rfl)

end Steps

end Semaprax.CarrierCall
