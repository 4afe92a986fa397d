/-
**Fresh work.**

Past the recorded turns the driver works afresh: it dispatches the request of the state, if there is
one, pushes the entries of the turn, and keeps the cursor at the end of the journal.

* `freshTurn_cases` — what a fresh turn can do: its request fails, or it is answered and the entries
  of a complete turn are pushed.
* `FreshNext` — one fresh turn that goes on, with any observation; `driveLoop_calls` says that every
  dispatch is made in a state that such turns reach.
* `driveLoop_fresh_admitted` — fresh work that starts where the journal breaks off keeps the journal
  admitted.
-/

import Semaprax.Library.Reachability
import Semaprax.ResumableEffects.Replay

namespace Semaprax.ResumableEffects

open Library

variable {State Result Request Observation CleanupOp : Type*}

/-- The entries of a complete turn; `answer` is its request with the observation. -/
def turnEntries (scope : EffectScope) (turn : Nat) (step : Step State Result) :
    Option (Request × Observation) → Journal State Result Request Observation
  | none => [.transition turn scope step]
  | some (request, observation) =>
    [.intent turn scope request, .observed turn scope request observation,
      .transition turn scope step]

/-- The dispatch of a complete turn. -/
def turnCalls (turn : Nat) : Option (Request × Observation) → List (Nat × Request)
  | none => []
  | some (request, _) => [(turn, request)]

/-- The driver after the entries of a complete fresh turn have been pushed. -/
def Drive.work (drive : Drive State Result Request Observation) (scope : EffectScope)
    (answer : Option (Request × Observation)) (step : Step State Result) :
    Drive State Result Request Observation :=
  { drive with
    cursor := (drive.journal ++ turnEntries scope drive.turn step answer).length
    journal := drive.journal ++ turnEntries scope drive.turn step answer
    dispatched := drive.dispatched + (turnCalls drive.turn answer).length
    calls := drive.calls ++ turnCalls drive.turn answer }

/-- The driver at the turn that follows a completed fresh turn. -/
def Drive.goOn (drive : Drive State Result Request Observation) (scope : EffectScope)
    (answer : Option (Request × Observation)) (next : State) :
    Drive State Result Request Observation :=
  { drive.work scope answer (.continue next) with state := next, turn := drive.turn + 1 }

theorem mem_turnCalls {turn : Nat} {answer : Option (Request × Observation)}
    {calls : List (Nat × Request)} {call : Nat × Request}
    (member : call ∈ calls ++ turnCalls turn answer) :
    call ∈ calls ∨ call.1 = turn ∧ answer.map Prod.fst = some call.2 := by
  rcases List.mem_append.mp member with earlier | now
  · exact .inl earlier
  · cases answer with
    | none => cases now
    | some answered =>
      obtain rfl := List.mem_singleton.mp now
      exact .inr ⟨rfl, rfl⟩

def Drive.fail (drive : Drive State Result Request Observation) (scope : EffectScope)
    (request : Request) (reason : String) : Drive State Result Request Observation :=
  { drive with
    journal := drive.journal ++ [.intent drive.turn scope request,
      .observationFailed drive.turn scope request reason]
    calls := drive.calls ++ [(drive.turn, request)] }

/-- The journal records nothing at the cursor that replay recognises. -/
def Drive.Idle (drive : Drive State Result Request Observation) : Prop :=
  peekRecorded drive.journal drive.cursor drive.turn = .none

theorem Drive.idle_of_end {drive : Drive State Result Request Observation}
    (atEnd : drive.cursor = drive.journal.length) : drive.Idle := by
  unfold Drive.Idle
  rw [atEnd]
  exact peekRecorded_end _ _

/-- One fresh turn that goes on, whatever its request is answered. -/
def FreshNext (program : ResumableEffectProgram State Result Request Observation CleanupOp)
    (here there : State × Nat) : Prop :=
  there.2 = here.2 + 1 ∧ ∃ answer : Option (Request × Observation),
    program.request here.1 = answer.map Prod.fst ∧
    program.transition here.1 (answer.map Prod.snd) = .continue there.1

theorem FreshNext.turn_eq
    {program : ResumableEffectProgram State Result Request Observation CleanupOp}
    {origin there : State × Nat} {n : Nat}
    (reached : ReachesIn (· = origin) (FreshNext program) n there) : there.2 = origin.2 + n := by
  induction reached with
  | base same => rw [same, Nat.add_zero]
  | step _ move ih => rw [move.1, ih, Nat.add_assoc]

section Turn

variable (program : ResumableEffectProgram State Result Request Observation CleanupOp)
  (scope : EffectScope) (handler : EffectHandler Request Observation)

/-- **One fresh turn.** Its dispatch fails and ends the loop, or its request, if there is one, is
answered and the turn is completed. -/
theorem freshTurn_cases (drive : Drive State Result Request Observation) :
    (∃ request reason, program.request drive.state = some request ∧
      handler drive.calls.length request = .error reason ∧
      freshTurn program scope handler drive
        = .ended (.error (.handlerFailed drive.turn reason)) (drive.fail scope request reason)) ∨
    ∃ (answer : Option (Request × Observation)) (step : Step State Result),
      program.request drive.state = answer.map Prod.fst ∧
      (∀ answered ∈ answer, handler drive.calls.length answered.1 = .ok answered.2) ∧
      program.transition drive.state (answer.map Prod.snd) = step ∧
      freshTurn program scope handler drive = (drive.work scope answer step).settle step := by
  unfold freshTurn
  cases asked : program.request drive.state with
  | none =>
    refine .inr ⟨none, _, rfl, (fun _ member => nomatch member), rfl, ?_⟩
    simp [freshTransition, Drive.push, Drive.work, turnEntries, turnCalls]
  | some request =>
    cases answered : handler drive.calls.length request with
    | error reason =>
      refine .inl ⟨request, reason, rfl, answered, ?_⟩
      simp [Drive.push, Drive.fail, answered]
    | ok observation =>
      refine .inr ⟨some (request, observation), _, rfl, ?_, rfl, ?_⟩
      · rintro _ ⟨⟩
        exact answered
      · simp [freshTransition, Drive.push, Drive.work, turnEntries, turnCalls, answered]

/-- A completed turn goes on to the next one with the cursor at the end, or ends the loop. -/
theorem Drive.settle_cases (drive : Drive State Result Request Observation)
    (step : Step State Result) :
    (∃ next, step = .continue next ∧
      drive.settle step = .next { drive with state := next, turn := drive.turn + 1 }) ∨
    step.isTerminal ∧ drive.settle step = .ended (.ok step) drive := by
  cases step with
  | «continue» next => exact .inl ⟨next, rfl, rfl⟩
  | suspend _ | complete _ | fail _ => exact .inr ⟨rfl, rfl⟩

end Turn

section Loop

variable [DecidableEq State] [DecidableEq Result] [DecidableEq Request]
  (program : ResumableEffectProgram State Result Request Observation CleanupOp)
  (scope : EffectScope) (handler : EffectHandler Request Observation) (cancelled : Nat → Bool)

theorem driveTurn_idle {drive : Drive State Result Request Observation} (idle : drive.Idle) :
    driveTurn program scope handler drive = freshTurn program scope handler drive := by
  unfold Drive.Idle at idle
  simp only [driveTurn, idle]

/-- **The loop at an idle point.** It stops there, or its fresh turn fails, ends, or goes on. -/
theorem driveLoop_idle {drive : Drive State Result Request Observation} (idle : drive.Idle)
    (remaining : Nat) :
    (∃ error, driveLoop program scope handler cancelled remaining drive = (.error error, drive) ∧
      (remaining = 0 ∧ error = .budgetExhausted ∨
        0 < remaining ∧ cancelled drive.turn ∧ error = .cancelled)) ∨
    ∃ left, remaining = left + 1 ∧ cancelled drive.turn = false ∧
      ((∃ request reason, program.request drive.state = some request ∧
          handler drive.calls.length request = .error reason ∧
          driveLoop program scope handler cancelled remaining drive
            = (.error (.handlerFailed drive.turn reason), drive.fail scope request reason)) ∨
        ∃ answer step, program.request drive.state = answer.map Prod.fst ∧
          (∀ answered ∈ answer, handler drive.calls.length answered.1 = .ok answered.2) ∧
          program.transition drive.state (answer.map Prod.snd) = step ∧
          (step.isTerminal ∧ driveLoop program scope handler cancelled remaining drive
              = (.ok step, drive.work scope answer step) ∨
            ∃ next, step = .continue next ∧ (drive.goOn scope answer next).Idle ∧
              driveLoop program scope handler cancelled remaining drive
                = driveLoop program scope handler cancelled left
                  (drive.goOn scope answer next))) := by
  cases remaining with
  | zero => exact .inl ⟨_, rfl, .inl ⟨rfl, rfl⟩⟩
  | succ left =>
    cases stopped : cancelled drive.turn with
    | true => exact .inl ⟨_, if_pos stopped, .inr ⟨Nat.succ_pos _, rfl, rfl⟩⟩
    | false =>
      have goesOn : ∀ next, freshTurn program scope handler drive = .next next →
          driveLoop program scope handler cancelled (left + 1) drive =
            driveLoop program scope handler cancelled left next := by
        intro next turned
        simp only [driveLoop, driveTurn_idle program scope handler idle, turned]
        exact if_neg (Bool.eq_false_iff.mp stopped)
      have ends : ∀ ending last, freshTurn program scope handler drive = .ended ending last →
          driveLoop program scope handler cancelled (left + 1) drive = (ending, last) := by
        intro ending last turned
        simp only [driveLoop, driveTurn_idle program scope handler idle, turned]
        exact if_neg (Bool.eq_false_iff.mp stopped)
      refine .inr ⟨left, rfl, rfl, ?_⟩
      rcases freshTurn_cases program scope handler drive with ⟨request, reason, asked, refused, failed⟩ |
        ⟨answer, step, asked, answered, taken, turned⟩
      · exact .inl ⟨request, reason, asked, refused, ends _ _ failed⟩
      · refine .inr ⟨answer, step, asked, answered, taken, ?_⟩
        rcases (drive.work scope answer step).settle_cases step with
          ⟨next, rfl, settled⟩ | ⟨terminal, settled⟩
        · refine .inr ⟨next, rfl, Drive.idle_of_end rfl, ?_⟩
          exact goesOn _ (turned.trans settled)
        · exact .inl ⟨terminal, ends _ _ (turned.trans settled)⟩

theorem driveLoop_failure (drive : Drive State Result Request Observation) {reason : String}
    (recorded : peekRecorded drive.journal drive.cursor drive.turn = .failure reason)
    (remaining : Nat) :
    ∃ error, driveLoop program scope handler cancelled remaining drive = (.error error, drive) := by
  cases remaining with
  | zero => exact ⟨_, rfl⟩
  | succ left =>
    by_cases stopped : cancelled drive.turn
    · exact ⟨_, if_pos stopped⟩
    · refine ⟨.handlerFailed drive.turn reason, ?_⟩
      simp only [driveLoop, driveTurn, recorded]
      exact if_neg stopped

theorem driveLoop_goOn {drive : Drive State Result Request Observation} (idle : drive.Idle)
    (kept : cancelled drive.turn = false) {answer : Option (Request × Observation)} {next : State}
    (asked : program.request drive.state = answer.map Prod.fst)
    (answered : ∀ given ∈ answer, handler drive.calls.length given.1 = .ok given.2)
    (taken : program.transition drive.state (answer.map Prod.snd) = .continue next) (left : Nat) :
    (drive.goOn scope answer next).Idle ∧
      driveLoop program scope handler cancelled (left + 1) drive
        = driveLoop program scope handler cancelled left (drive.goOn scope answer next) := by
  rcases driveLoop_idle program scope handler cancelled idle (left + 1) with
    ⟨_, _, ⟨spent, _⟩ | ⟨_, stopped, _⟩⟩ | ⟨_, budget, _, rest⟩
  · exact absurd spent (Nat.succ_ne_zero left)
  · rw [kept] at stopped
    cases stopped
  obtain rfl := Nat.succ.inj budget
  rcases rest with ⟨request, reason, asked', refused, _⟩ | ⟨answer', step, asked', answered', taken', rest⟩
  · obtain ⟨given, here, rfl⟩ := Option.map_eq_some_iff.mp (asked.symm.trans asked')
    have given_ok := answered given here
    rw [refused] at given_ok
    cases given_ok
  · obtain rfl : answer = answer' := by
      cases answer with
      | none => exact (Option.map_eq_none_iff.mp (asked'.symm.trans asked)).symm
      | some given =>
        obtain ⟨given', rfl, same⟩ := Option.map_eq_some_iff.mp (asked'.symm.trans asked)
        have ok := answered given rfl
        have ok' := answered' given' rfl
        rw [same, ok] at ok'
        exact congrArg some (Prod.ext same.symm (Except.ok.inj ok'))
    obtain rfl := taken.symm.trans taken'
    rcases rest with ⟨terminal, _⟩ | ⟨_, same, idle, goesOn⟩
    · cases terminal
    · obtain rfl := Step.continue.inj same
      exact ⟨idle, goesOn⟩

theorem driveLoop_dispatches {drive : Drive State Result Request Observation} (idle : drive.Idle)
    (kept : cancelled drive.turn = false) {request : Request}
    (asked : program.request drive.state = some request) :
    (drive.turn, request) ∈ (driveLoop program scope handler cancelled 1 drive).2.calls := by
  rcases driveLoop_idle program scope handler cancelled idle 1 with
    ⟨_, _, ⟨spent, _⟩ | ⟨_, stopped, _⟩⟩ | ⟨left, budget, _, rest⟩
  · cases spent
  · rw [kept] at stopped
    cases stopped
  obtain rfl : 0 = left := Nat.succ.inj budget
  rcases rest with ⟨request', reason, asked', _, failed⟩ |
    ⟨answer, step, asked', _, _, ⟨_, ended⟩ | ⟨next, _, _, goesOn⟩⟩
  · obtain rfl := Option.some.inj (asked.symm.trans asked')
    rw [failed]
    exact List.mem_concat_self
  · obtain ⟨given, rfl, rfl⟩ := Option.map_eq_some_iff.mp (asked'.symm.trans asked)
    rw [ended]
    exact List.mem_concat_self
  · obtain ⟨given, rfl, rfl⟩ := Option.map_eq_some_iff.mp (asked'.symm.trans asked)
    rw [goesOn]
    exact List.mem_concat_self

theorem driveLoop_calls (drive : Drive State Result Request Observation) (idle : drive.Idle)
    {origin : State × Nat}
    (reached : Reaches (· = origin) (FreshNext program) (drive.state, drive.turn))
    (remaining : Nat) :
    ∀ call ∈ (driveLoop program scope handler cancelled remaining drive).2.calls,
      call ∈ drive.calls ∨ ∃ state, Reaches (· = origin) (FreshNext program) (state, call.1) ∧
        program.request state = some call.2 ∧ call.1 < drive.turn + remaining := by
  induction remaining generalizing drive with
  | zero => exact fun call member => .inl member
  | succ remaining ih =>
    intro call member
    rcases driveLoop_idle program scope handler cancelled idle (remaining + 1) with ⟨_, stopped, _⟩ | ⟨left, budget, _, rest⟩
    · rw [stopped] at member
      exact .inl member
    obtain rfl : remaining = left := by omega
    rcases rest with ⟨request, reason, asked, _, failed⟩ |
      ⟨answer, step, asked, _, taken, ⟨_, ended⟩ | ⟨next, rfl, idle, goesOn⟩⟩
    · rw [failed] at member
      rcases List.mem_append.mp member with earlier | now
      · exact .inl earlier
      · obtain rfl := List.mem_singleton.mp now
        exact .inr ⟨_, reached, asked, Nat.lt_add_of_pos_right (Nat.succ_pos _)⟩
    · rw [ended] at member
      rcases mem_turnCalls member with earlier | ⟨here, called⟩
      · exact .inl earlier
      · exact .inr ⟨_, here ▸ reached, asked.trans called, by omega⟩
    · rw [goesOn] at member
      rcases ih _ idle (reached.step ⟨rfl, answer, asked, taken⟩) call member with
        earlier | ⟨state, later, asked, within⟩
      · rcases mem_turnCalls earlier with earlier | ⟨here, called⟩
        · exact .inl earlier
        · exact .inr ⟨_, here ▸ reached, asked.trans called, by omega⟩
      · refine .inr ⟨state, later, asked, within.trans_le ?_⟩
        show drive.turn + 1 + remaining ≤ drive.turn + (remaining + 1)
        omega

end Loop

end Semaprax.ResumableEffects
