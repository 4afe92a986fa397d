/-
**The suspend/resume driver and its journal** (`resumable_effects/core.rs`).

* `Journal.validate` — the phase automaton that admits a journal. A turn number is a `u32` under
  overflow checks: past its last value the check panics, which is the outcome `none`.
* `peekRecorded` — what the journal records at a cursor: a complete group, a final failure, or
  nothing that replay recognises.
* `resume` — validate, replay the recorded groups, then work afresh; `run` resumes an empty journal.

The effect handler, the cleanup handler and the cancellation check are stateful objects of the
caller. Each is asked in a fixed order, so an arbitrary behaviour of one is a function of how often
it has been asked in this call: the handler also sees the request, the cleanup handler its
operation, and the cancellation check is asked once at every turn boundary.

`Drive.calls` and `Driven.calls` record the dispatches with their turns. The source keeps no such
record; nothing the driver decides depends on it.
-/

import Mathlib

namespace Semaprax.ResumableEffects

/-- What a journal is bound to. -/
structure EffectScope where
  programRoot : String
  invocationId : String
  policyEpoch : UInt64
deriving DecidableEq, Repr

/-- One turn's outcome. -/
inductive Step (State Result : Type*)
  | continue (state : State)
  | suspend (state : State)
  | complete (result : Result)
  | fail (code : Int64)
deriving DecidableEq

/-- Every step but `Continue` stops the driver (`is_terminal`). -/
def Step.isTerminal {State Result : Type*} : Step State Result → Bool
  | .continue _ => false
  | _ => true

/-- A caller-defined resumable computation. -/
structure ResumableEffectProgram (State Result Request Observation CleanupOp : Type*) where
  request : State → Option Request
  transition : State → Option Observation → Step State Result
  cleanupPlan : State → List CleanupOp

/-- The physical effect boundary: what the `n`-th dispatch of one driver call answers. -/
abbrev EffectHandler (Request Observation : Type*) := Nat → Request → Except String Observation

/-- The cleanup boundary: what the `n`-th cleanup operation of one driver call answers. -/
abbrev CleanupHandler (CleanupOp : Type*) := Nat → CleanupOp → Except String Unit

/-- One journal record. -/
inductive JournalEntry (State Result Request Observation : Type*)
  | intent (turn : Nat) (scope : EffectScope) (request : Request)
  | observed (turn : Nat) (scope : EffectScope) (request : Request) (observation : Observation)
  | observationFailed (turn : Nat) (scope : EffectScope) (request : Request) (reason : String)
  | transition (turn : Nat) (scope : EffectScope) (step : Step State Result)
deriving DecidableEq

/-- An ordered, append-only record of one computation. -/
abbrev Journal (State Result Request Observation : Type*) :=
  List (JournalEntry State Result Request Observation)

variable {State Result Request Observation CleanupOp : Type*}

def JournalEntry.turn : JournalEntry State Result Request Observation → Nat
  | .intent turn _ _ => turn
  | .observed turn _ _ _ => turn
  | .observationFailed turn _ _ _ => turn
  | .transition turn _ _ => turn

def JournalEntry.scope : JournalEntry State Result Request Observation → EffectScope
  | .intent _ scope _ => scope
  | .observed _ scope _ _ => scope
  | .observationFailed _ scope _ _ => scope
  | .transition _ scope _ => scope

/-- Why a journal was rejected. -/
inductive JournalError
  | staleProgramRoot (index : Nat)
  | wrongInvocation (index : Nat)
  | wrongPolicyEpoch (index : Nat)
  | outOfOrder (index : Nat)
  | requestMismatch (index : Nat)
  | nonSequentialTurn (index : Nat)
  | entryAfterTerminal (index : Nat)
  | unterminatedIntent
deriving DecidableEq, Repr

/-- Which phase of the current turn comes next. -/
inductive Phase
  | freshTurn
  | afterIntent
  | afterObservation
deriving DecidableEq, Repr

/-- The local variables of `validate`. -/
structure Validation (Request : Type*) where
  turnExpected : Nat
  terminalSeen : Bool
  phase : Phase
  openRequest : Option Request

/-- The variables of `validate` before its loop. -/
def Validation.start : Validation Request := ⟨0, false, .freshTurn, none⟩

/-- The last turn number that a `u32` holds. -/
def lastTurn : Nat := 2 ^ 32 - 1

theorem exists_budget {turn : Nat} (fits : turn < lastTurn) :
    ∃ maxTurns : UInt32, maxTurns.toNat = turn + 1 := by
  unfold lastTurn at fits
  exact ⟨.ofNat (turn + 1), UInt32.toNat_ofNat_of_lt' (show turn + 1 < 2 ^ 32 by omega)⟩

theorem budget_le (maxTurns : UInt32) : maxTurns.toNat ≤ lastTurn :=
  Nat.le_sub_one_of_lt maxTurns.toNat_lt

section Validate

variable [DecidableEq Request]

/-- The part of the loop body of `validate` that depends on the kind of the entry. -/
def checkKind (index : Nat) (check : Validation Request) :
    JournalEntry State Result Request Observation →
      Option (Except JournalError (Validation Request))
  | .intent _ _ request =>
    if check.phase ≠ .freshTurn then some (.error (.outOfOrder index))
    else some (.ok { check with openRequest := some request, phase := .afterIntent })
  | .observed _ _ request _ | .observationFailed _ _ request _ =>
    if check.phase ≠ .afterIntent then some (.error (.outOfOrder index))
    else if check.openRequest ≠ some request then some (.error (.requestMismatch index))
    else some (.ok { check with phase := .afterObservation })
  | .transition _ _ step =>
    if check.phase = .afterIntent then some (.error (.outOfOrder index))
    else
      let check := { check with phase := .freshTurn, openRequest := none }
      if step.isTerminal then some (.ok { check with terminalSeen := true })
      else if check.turnExpected ≥ lastTurn then none
      else some (.ok { check with turnExpected := check.turnExpected + 1 })

/-- The loop body of `validate`. -/
def checkEntry (expected : EffectScope) (index : Nat) (check : Validation Request)
    (entry : JournalEntry State Result Request Observation) :
    Option (Except JournalError (Validation Request)) :=
  if check.terminalSeen then some (.error (.entryAfterTerminal index))
  else if entry.scope.programRoot ≠ expected.programRoot then
    some (.error (.staleProgramRoot index))
  else if entry.scope.invocationId ≠ expected.invocationId then
    some (.error (.wrongInvocation index))
  else if entry.scope.policyEpoch ≠ expected.policyEpoch then
    some (.error (.wrongPolicyEpoch index))
  else if entry.turn ≠ check.turnExpected then some (.error (.nonSequentialTurn index))
  else checkKind index check entry

/-- The loop of `validate`. -/
def checkEntries (expected : EffectScope) : Nat → Validation Request →
    Journal State Result Request Observation → Option (Except JournalError (Validation Request))
  | _, check, [] => some (.ok check)
  | index, check, entry :: entries =>
    match checkEntry expected index check entry with
    | none => none
    | some (.error error) => some (.error error)
    | some (.ok check) => checkEntries expected (index + 1) check entries

/-- Admit or reject a journal (`Journal::validate`). -/
def Journal.validate (journal : Journal State Result Request Observation)
    (expected : EffectScope) : Option (Except JournalError Unit) :=
  match checkEntries expected 0 Validation.start journal with
  | none => none
  | some (.error error) => some (.error error)
  | some (.ok check) =>
    if check.phase = .afterIntent then some (.error .unterminatedIntent) else some (.ok ())

end Validate

/-- One recorded turn, extracted for replay. -/
structure RecordedGroup (State Result Request Observation : Type*) where
  request : Option Request
  observation : Option Observation
  step : Step State Result
  nextCursor : Nat

/-- What the journal records at a cursor. -/
inductive Recorded (State Result Request Observation : Type*)
  | group (group : RecordedGroup State Result Request Observation)
  | failure (reason : String)
  | none

/-- Peek the recorded turn at `cursor` (`peek_recorded`). -/
def peekRecorded (journal : Journal State Result Request Observation) (cursor turn : Nat) :
    Recorded State Result Request Observation :=
  match journal[cursor]? with
  | none => .none
  | some first =>
    if first.turn ≠ turn then .none
    else
      match first with
      | .transition _ _ step => .group ⟨none, none, step, cursor + 1⟩
      | .intent _ _ request =>
        match journal[cursor + 1]? with
        | none => .none
        | some (.observed _ _ _ observation) =>
          match journal[cursor + 2]? with
          | some (.transition _ _ step) =>
            .group ⟨some request, some observation, step, cursor + 3⟩
          | _ => .none
        | some (.observationFailed _ _ _ reason) =>
          -- A longer tail is left unrecognised.
          if journal[cursor + 2]?.isSome then .none else .failure reason
        | some _ => .none
      | .observed _ _ _ _ | .observationFailed _ _ _ _ => .none

/-- Why a driver call stopped before a terminal step. -/
inductive DriverError
  | journal (error : JournalError)
  | requestDrift (turn : Nat)
  | transitionDrift (turn : Nat)
  | handlerFailed (turn : Nat) (reason : String)
  | budgetExhausted
  | cancelled
deriving DecidableEq, Repr

/-- The result of a driver call that reached a terminal step. -/
structure Outcome (State Result CleanupOp : Type*) where
  terminal : Step State Result
  cleanup : List (CleanupOp × Except String Unit)
  dispatched : Nat

/-- The local variables of `resume`, and the dispatches made so far. -/
structure Drive (State Result Request Observation : Type*) where
  state : State
  turn : Nat
  cursor : Nat
  journal : Journal State Result Request Observation
  dispatched : Nat
  calls : List (Nat × Request)

/-- What one turn leaves: another turn, or the end of the loop by a terminal step or an error. -/
inductive Turn (State Result Request Observation : Type*)
  | next (drive : Drive State Result Request Observation)
  | ended (ending : Except DriverError (Step State Result))
      (drive : Drive State Result Request Observation)

/-- After a step: `Continue` goes to the next turn, every other step ends the loop. -/
def Drive.settle (drive : Drive State Result Request Observation) :
    Step State Result → Turn State Result Request Observation
  | .continue state => .next { drive with state, turn := drive.turn + 1 }
  | terminal => .ended (.ok terminal) drive

def runCleanup (handler : CleanupHandler CleanupOp) :
    Nat → List CleanupOp → List (CleanupOp × Except String Unit)
  | _, [] => []
  | asked, op :: plan => (op, handler asked op) :: runCleanup handler (asked + 1) plan

/-- The cleanup of a terminal step: only `Complete` and `Fail` run the plan. -/
def cleanupOf (program : ResumableEffectProgram State Result Request Observation CleanupOp)
    (handler : CleanupHandler CleanupOp) (state : State) :
    Step State Result → List (CleanupOp × Except String Unit)
  | .complete _ | .fail _ => runCleanup handler 0 (program.cleanupPlan state)
  | .suspend _ | .continue _ => []

/-- What a driver call yields: an outcome or an error, and in both cases the journal
(`DriveResult`). -/
structure Driven (State Result Request Observation CleanupOp : Type*) where
  result : Except DriverError (Outcome State Result CleanupOp)
  journal : Journal State Result Request Observation
  calls : List (Nat × Request)

/-- What the driver returns when its loop has ended. -/
def report (program : ResumableEffectProgram State Result Request Observation CleanupOp)
    (cleanupHandler : CleanupHandler CleanupOp) :
    Except DriverError (Step State Result) × Drive State Result Request Observation →
      Driven State Result Request Observation CleanupOp
  | (.error error, drive) => ⟨.error error, drive.journal, drive.calls⟩
  | (.ok terminal, drive) =>
    ⟨.ok ⟨terminal, cleanupOf program cleanupHandler drive.state terminal, drive.dispatched⟩,
      drive.journal, drive.calls⟩

section Report

variable (program : ResumableEffectProgram State Result Request Observation CleanupOp)
  (cleanupHandler : CleanupHandler CleanupOp)
  (ended : Except DriverError (Step State Result) × Drive State Result Request Observation)

@[simp] theorem report_journal :
    (report program cleanupHandler ended).journal = ended.2.journal := by
  obtain ⟨_ | _, _⟩ := ended <;> rfl

@[simp] theorem report_calls : (report program cleanupHandler ended).calls = ended.2.calls := by
  obtain ⟨_ | _, _⟩ := ended <;> rfl

end Report

section Driver

variable [DecidableEq State] [DecidableEq Result] [DecidableEq Request]

variable (program : ResumableEffectProgram State Result Request Observation CleanupOp)

def replayGroup (drive : Drive State Result Request Observation)
    (group : RecordedGroup State Result Request Observation) :
    Turn State Result Request Observation :=
  if program.request drive.state ≠ group.request then
    .ended (.error (.requestDrift drive.turn)) drive
  else if program.transition drive.state group.observation ≠ group.step then
    .ended (.error (.transitionDrift drive.turn)) drive
  else { drive with cursor := group.nextCursor }.settle group.step

def Drive.push (drive : Drive State Result Request Observation)
    (entries : Journal State Result Request Observation) :
    Drive State Result Request Observation :=
  { drive with journal := drive.journal ++ entries }

def freshTransition (scope : EffectScope) (drive : Drive State Result Request Observation)
    (observation : Option Observation) : Turn State Result Request Observation :=
  let step := program.transition drive.state observation
  let drive := drive.push [.transition drive.turn scope step]
  { drive with cursor := drive.journal.length }.settle step

def freshTurn (scope : EffectScope) (handler : EffectHandler Request Observation)
    (drive : Drive State Result Request Observation) : Turn State Result Request Observation :=
  match program.request drive.state with
  | none => freshTransition program scope drive none
  | some request =>
    let called :=
      { drive.push [.intent drive.turn scope request] with
        calls := drive.calls ++ [(drive.turn, request)] }
    match handler drive.calls.length request with
    | .ok observation =>
      freshTransition program scope
        { called.push [.observed drive.turn scope request observation] with
          dispatched := drive.dispatched + 1 }
        (some observation)
    | .error reason =>
      .ended (.error (.handlerFailed drive.turn reason))
        (called.push [.observationFailed drive.turn scope request reason])

/-- One turn of the loop of `resume`, past the budget and the cancellation check. -/
def driveTurn (scope : EffectScope) (handler : EffectHandler Request Observation)
    (drive : Drive State Result Request Observation) : Turn State Result Request Observation :=
  match peekRecorded drive.journal drive.cursor drive.turn with
  | .group group => replayGroup program drive group
  | .failure reason => .ended (.error (.handlerFailed drive.turn reason)) drive
  | .none => freshTurn program scope handler drive

/-- The loop of `resume`, with the number of turns the budget still allows
(`max_turns - turn`). -/
def driveLoop (program : ResumableEffectProgram State Result Request Observation CleanupOp)
    (scope : EffectScope) (handler : EffectHandler Request Observation) (cancelled : Nat → Bool) :
    Nat → Drive State Result Request Observation →
      Except DriverError (Step State Result) × Drive State Result Request Observation
  | 0, drive => (.error .budgetExhausted, drive)
  | remaining + 1, drive =>
    if cancelled drive.turn then (.error .cancelled, drive)
    else
      match driveTurn program scope handler drive with
      | .next drive => driveLoop program scope handler cancelled remaining drive
      | .ended ending drive => (ending, drive)

def resume (scope : EffectScope) (journal : Journal State Result Request Observation) (initial : State)
    (maxTurns : UInt32) (handler : EffectHandler Request Observation)
    (cleanupHandler : CleanupHandler CleanupOp) (cancelled : Nat → Bool) :
    Option (Driven State Result Request Observation CleanupOp) :=
  match Journal.validate journal scope with
  | none => none
  | some (.error error) => some ⟨.error (.journal error), journal, []⟩
  | some (.ok ()) =>
    some (report program cleanupHandler
      (driveLoop program scope handler cancelled maxTurns.toNat ⟨initial, 0, 0, journal, 0, []⟩))

/-- Run a fresh computation. -/
def run (scope : EffectScope) (initial : State) (maxTurns : UInt32)
    (handler : EffectHandler Request Observation) (cleanupHandler : CleanupHandler CleanupOp)
    (cancelled : Nat → Bool) : Option (Driven State Result Request Observation CleanupOp) :=
  resume program scope [] initial maxTurns handler cleanupHandler cancelled

theorem resume_admitted
    {program : ResumableEffectProgram State Result Request Observation CleanupOp}
    {scope : EffectScope} {journal : Journal State Result Request Observation}
    (admitted : Journal.validate journal scope = some (.ok ())) (initial : State)
    (maxTurns : UInt32) (handler : EffectHandler Request Observation)
    (cleanupHandler : CleanupHandler CleanupOp) (cancelled : Nat → Bool) :
    resume program scope journal initial maxTurns handler cleanupHandler cancelled
      = some (report program cleanupHandler (driveLoop program scope handler cancelled
          maxTurns.toNat ⟨initial, 0, 0, journal, 0, []⟩)) := by
  simp only [resume, admitted]

end Driver

end Semaprax.ResumableEffects
