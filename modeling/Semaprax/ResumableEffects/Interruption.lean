/-
**Interruption is transparent.**

With a dispatch function of the request alone, a run may be cut off by its budget or by cancellation
at any turn boundary, any number of times, and resumed from the journal it left: the last call ends
as one uninterrupted run does.

* `Ran` — the turns a computation takes from one turn boundary to another, with their entries and
  dispatches. It composes (`Ran.trans`), it is admitted (`Ran.parses`), replay takes all of it
  (`Ran.handover_eq`), and fresh work produces it (`Ran.driveLoop_eq`).
* `driveLoop_interrupted` — what an interrupted loop leaves is such a stretch of turns.
* `interruption_transparent` — the last call and the uninterrupted run agree.
-/

import Semaprax.ResumableEffects.Preservation

namespace Semaprax.ResumableEffects

variable {State Result Request Observation CleanupOp : Type*}

/-- A handler whose answer depends on the request alone. -/
def ofDispatch (dispatch : Request → Except String Observation) :
    EffectHandler Request Observation := fun _ request => dispatch request

def Drive.atEnd (state : State) (turn : Nat) (front : Journal State Result Request Observation)
    (dispatched : Nat) (before : List (Nat × Request)) : Drive State Result Request Observation :=
  ⟨state, turn, front.length, front, dispatched, before⟩

theorem Drive.atEnd_idle (state : State) (turn : Nat)
    (front : Journal State Result Request Observation) (dispatched : Nat)
    (before : List (Nat × Request)) : (Drive.atEnd state turn front dispatched before).Idle :=
  Drive.idle_of_end rfl

theorem Drive.at_nil (state : State) (turn : Nat)
    (front : Journal State Result Request Observation) (dispatched : Nat)
    (calls : List (Nat × Request)) :
    Drive.at state turn front [] dispatched calls = .atEnd state turn front dispatched calls := by
  rw [Drive.at, List.append_nil]
  rfl

theorem Drive.goOn_atEnd (state next : State) (turn : Nat)
    (front : Journal State Result Request Observation) (dispatched : Nat)
    (before : List (Nat × Request)) (scope : EffectScope)
    (answer : Option (Request × Observation)) :
    (Drive.atEnd state turn front dispatched before).goOn scope answer next
      = .atEnd next (turn + 1) (front ++ turnEntries scope turn (.continue next) answer)
        (dispatched + (turnCalls turn answer).length) (before ++ turnCalls turn answer) := rfl

/-- The turns from one boundary to another: the entries they push and the dispatches they make. -/
inductive Ran (program : ResumableEffectProgram State Result Request Observation CleanupOp)
    (scope : EffectScope) (dispatch : Request → Except String Observation) :
    State → Nat → Journal State Result Request Observation → List (Nat × Request) →
      State → Nat → Prop
  | here (state : State) (turn : Nat) : Ran program scope dispatch state turn [] [] state turn
  | turn {state next last : State} {turn lastTurn : Nat}
      {entries : Journal State Result Request Observation} {calls : List (Nat × Request)}
      {answer : Option (Request × Observation)}
      (asked : program.request state = answer.map Prod.fst)
      (answered : ∀ given ∈ answer, dispatch given.1 = .ok given.2)
      (taken : program.transition state (answer.map Prod.snd) = .continue next)
      (rest : Ran program scope dispatch next (turn + 1) entries calls last lastTurn) :
      Ran program scope dispatch state turn
        (turnEntries scope turn (.continue next) answer ++ entries)
        (turnCalls turn answer ++ calls) last lastTurn

section Interruption

variable {program : ResumableEffectProgram State Result Request Observation CleanupOp}
  {scope : EffectScope} {dispatch : Request → Except String Observation}
  {state middle last : State} {turn middleTurn endTurn : Nat}
  {entries more : Journal State Result Request Observation} {calls later : List (Nat × Request)}

theorem Ran.trans (first : Ran program scope dispatch state turn entries calls middle middleTurn)
    (second : Ran program scope dispatch middle middleTurn more later last endTurn) :
    Ran program scope dispatch state turn (entries ++ more) (calls ++ later) last endTurn := by
  induction first with
  | here _ _ => exact second
  | turn asked answered taken _ ih =>
    rw [List.append_assoc, List.append_assoc]
    exact .turn asked answered taken (ih second)

section Ran

variable (ran : Ran program scope dispatch state turn entries calls last endTurn)

include ran

theorem Ran.turn_le : turn ≤ endTurn := by
  induction ran with
  | here _ _ => exact le_rfl
  | turn _ _ _ _ ih => exact (Nat.le_succ _).trans ih

theorem Ran.parses (fits : endTurn ≤ ResumableEffects.lastTurn) :
    Parses scope (.boundary turn) entries (.boundary endTurn) := by
  induction ran with
  | here _ _ => exact .nil
  | @turn _ _ _ turn _ _ _ _ _ _ _ rest ih =>
    have := rest.turn_le
    exact (parses_turnEntries (by simp) (.inl rfl)
      fun _ _ answered => .continue answered (by omega)).append (ih fits)

omit ran in
theorem Ran.admitted [DecidableEq Request]
    (ran : Ran program scope dispatch state 0 entries calls last endTurn)
    (fits : endTurn ≤ ResumableEffects.lastTurn) :
    Journal.validate entries scope = some (.ok ()) :=
  validate_ok_iff.mpr ⟨_, ran.parses fits, by simp [Validation.boundary]⟩

theorem Ran.handover_eq [DecidableEq State] [DecidableEq Result] [DecidableEq Request] :
    handover program state turn entries = some ⟨last, endTurn, []⟩ := by
  induction ran with
  | here _ _ => rfl
  | @turn _ next _ turn _ _ _ answer asked _ taken _ ih =>
    cases answer with
    | none =>
      simp only [Option.map_none] at asked taken
      simpa [turnEntries, handover, recompute, asked, taken] using ih
    | some given =>
      simp only [Option.map_some] at asked taken
      simpa [turnEntries, handover, recompute, asked, taken] using ih

/-- Fresh work produces every run that the dispatch function answers. -/
theorem Ran.driveLoop_eq [DecidableEq State] [DecidableEq Result] [DecidableEq Request] :
    ∃ steps, endTurn = turn + steps ∧
      ∀ (front : Journal State Result Request Observation) dispatched before left,
        driveLoop program scope (ofDispatch dispatch) never (steps + left)
            (.atEnd state turn front dispatched before)
          = driveLoop program scope (ofDispatch dispatch) never left
            (.atEnd last endTurn (front ++ entries) (dispatched + calls.length)
              (before ++ calls)) := by
  induction ran with
  | here _ _ =>
    refine ⟨0, rfl, fun front dispatched before left => ?_⟩
    simp only [Nat.zero_add, List.append_nil, List.length_nil, Nat.add_zero]
  | @turn state next _ turn _ _ _ answer asked answered taken _ ih =>
    obtain ⟨steps, sinceTurn, drives⟩ := ih
    refine ⟨steps + 1, by omega, fun front dispatched before left => ?_⟩
    have goesOn := (driveLoop_goOn program scope (ofDispatch dispatch) never
      (Drive.atEnd_idle state turn front dispatched before) rfl asked answered taken
      (steps + left)).2
    rw [Nat.add_right_comm, goesOn, Drive.goOn_atEnd, drives]
    simp only [List.append_assoc, List.length_append, Nat.add_assoc]

end Ran

/-- **What an interrupted loop leaves** of a turn boundary: some more turns. -/
theorem driveLoop_interrupted [DecidableEq State] [DecidableEq Result] [DecidableEq Request]
    {cancelled : Nat → Bool} (front : Journal State Result Request Observation) (dispatched : Nat)
    (before : List (Nat × Request)) (remaining : Nat) {error : DriverError}
    {drive : Drive State Result Request Observation}
    (stopped : driveLoop program scope (ofDispatch dispatch) cancelled remaining
      (.atEnd state turn front dispatched before) = (.error error, drive))
    (interrupted : error = .budgetExhausted ∨ error = .cancelled) :
    ∃ entries calls, drive.journal = front ++ entries ∧ drive.calls = before ++ calls ∧
      Ran program scope dispatch state turn entries calls drive.state drive.turn ∧
      drive.turn ≤ turn + remaining := by
  induction remaining generalizing state turn front dispatched before with
  | zero =>
    cases stopped
    exact ⟨[], [], (List.append_nil _).symm, (List.append_nil _).symm, .here _ _, le_rfl⟩
  | succ remaining ih =>
    rcases driveLoop_idle program scope (ofDispatch dispatch) cancelled
      (Drive.atEnd_idle state turn front dispatched before) (remaining + 1) with
      ⟨_, here, _⟩ | ⟨left, budget, _, rest⟩
    · cases here.symm.trans stopped
      exact ⟨[], [], (List.append_nil _).symm, (List.append_nil _).symm, .here _ _,
        Nat.le_add_right _ _⟩
    obtain rfl := Nat.succ.inj budget
    rcases rest with ⟨request, reason, _, _, failed⟩ |
      ⟨answer, step, asked, answered, taken, ⟨_, ended⟩ | ⟨next, rfl, _, goesOn⟩⟩
    · cases failed.symm.trans stopped
      rcases interrupted with same | same <;> cases same
    · cases ended.symm.trans stopped
    · rw [Drive.goOn_atEnd] at goesOn
      obtain ⟨entries, calls, journal, called, ran, within⟩ :=
        ih _ _ _ (goesOn.symm.trans stopped)
      rw [List.append_assoc] at journal called
      exact ⟨_, _, journal, called, .turn asked answered taken ran, within.trans (by omega)⟩

end Interruption

section Earlier

variable (program : ResumableEffectProgram State Result Request Observation CleanupOp)
  (scope : EffectScope) (dispatch : Request → Except String Observation)

/-- The driver with the dispatches of earlier calls counted in. -/
def Drive.since (drive : Drive State Result Request Observation) (earlier : List (Nat × Request)) :
    Drive State Result Request Observation :=
  { drive with
    dispatched := earlier.length + drive.dispatched
    calls := earlier ++ drive.calls }

/-- A driver call with the dispatches of earlier calls counted in. -/
def Driven.since (driven : Driven State Result Request Observation CleanupOp)
    (earlier : List (Nat × Request)) : Driven State Result Request Observation CleanupOp where
  result := driven.result.map fun outcome =>
    { outcome with dispatched := earlier.length + outcome.dispatched }
  journal := driven.journal
  calls := earlier ++ driven.calls

/-- A turn with the dispatches of earlier calls counted in. -/
def Turn.since (earlier : List (Nat × Request)) :
    Turn State Result Request Observation → Turn State Result Request Observation
  | .next after => .next (after.since earlier)
  | .ended ending after => .ended ending (after.since earlier)

variable (drive : Drive State Result Request Observation) (earlier : List (Nat × Request))

@[simp] theorem Drive.since_state : (drive.since earlier).state = drive.state := rfl
@[simp] theorem Drive.since_turn : (drive.since earlier).turn = drive.turn := rfl
@[simp] theorem Drive.since_cursor : (drive.since earlier).cursor = drive.cursor := rfl
@[simp] theorem Drive.since_journal : (drive.since earlier).journal = drive.journal := rfl

theorem Drive.settle_since (step : Step State Result) :
    (drive.since earlier).settle step = (drive.settle step).since earlier := by
  cases step <;> rfl

theorem freshTransition_since (observation : Option Observation) :
    freshTransition program scope (drive.since earlier) observation
      = (freshTransition program scope drive observation).since earlier := by
  let step := program.transition drive.state observation
  let pushed := drive.push [.transition drive.turn scope step]
  exact Drive.settle_since { pushed with cursor := pushed.journal.length } earlier step

theorem freshTurn_since : freshTurn program scope (ofDispatch dispatch) (drive.since earlier)
    = (freshTurn program scope (ofDispatch dispatch) drive).since earlier := by
  unfold freshTurn ofDispatch
  rw [Drive.since_state]
  cases program.request drive.state with
  | none => exact freshTransition_since program scope drive earlier none
  | some request =>
    cases answered : dispatch request with
    | error reason =>
      simp only [answered, Drive.since, Drive.push, Turn.since, List.append_assoc]
    | ok observation =>
      simp only [answered, ← freshTransition_since]
      simp only [Drive.since, Drive.push, List.append_assoc, Nat.add_assoc]

theorem report_since (cleanupHandler : CleanupHandler CleanupOp)
    (ended : Except DriverError (Step State Result) × Drive State Result Request Observation) :
    report program cleanupHandler (ended.map id (·.since earlier))
      = (report program cleanupHandler ended).since earlier := by
  obtain ⟨_ | _, _⟩ := ended <;> rfl

variable [DecidableEq State] [DecidableEq Result] [DecidableEq Request]

theorem replayGroup_since (group : RecordedGroup State Result Request Observation) :
    replayGroup program (drive.since earlier) group
      = (replayGroup program drive group).since earlier := by
  unfold replayGroup
  rw [Drive.since_state]
  by_cases drifts : program.request drive.state ≠ group.request
  · rw [if_pos drifts, if_pos drifts]
    rfl
  · rw [if_neg drifts, if_neg drifts]
    by_cases differs : program.transition drive.state group.observation ≠ group.step
    · rw [if_pos differs, if_pos differs]
      rfl
    · rw [if_neg differs, if_neg differs]
      exact Drive.settle_since { drive with cursor := group.nextCursor } earlier group.step

theorem driveTurn_since : driveTurn program scope (ofDispatch dispatch) (drive.since earlier)
    = (driveTurn program scope (ofDispatch dispatch) drive).since earlier := by
  unfold driveTurn
  rw [Drive.since_journal, Drive.since_cursor, Drive.since_turn]
  cases peekRecorded drive.journal drive.cursor drive.turn with
  | failure reason => rfl
  | group group => exact replayGroup_since program drive earlier group
  | none => exact freshTurn_since program scope dispatch drive earlier

theorem driveLoop_since (cancelled : Nat → Bool) (remaining : Nat) :
    driveLoop program scope (ofDispatch dispatch) cancelled remaining (drive.since earlier)
      = (driveLoop program scope (ofDispatch dispatch) cancelled remaining drive).map id
          (·.since earlier) := by
  induction remaining generalizing drive with
  | zero => rfl
  | succ remaining ih =>
    unfold driveLoop
    rw [Drive.since_turn, driveTurn_since]
    by_cases stopped : cancelled drive.turn
    · rw [if_pos stopped, if_pos stopped]
      rfl
    · rw [if_neg stopped, if_neg stopped]
      cases driveTurn program scope (ofDispatch dispatch) drive with
      | next after => exact ih after
      | ended ending after => rfl

end Earlier

section Transparency

variable [DecidableEq State] [DecidableEq Result] [DecidableEq Request]
  (program : ResumableEffectProgram State Result Request Observation CleanupOp)
  (scope : EffectScope) (dispatch : Request → Except String Observation) (initial : State)

/-- The journals that interrupted calls leave, each resumed from the one before within the limit,
and the dispatches made on the way. The first call starts from the empty journal. -/
inductive Interrupted (limit : UInt32) :
    Journal State Result Request Observation → List (Nat × Request) → Prop
  | fresh : Interrupted limit [] []
  | stopped {journal : Journal State Result Request Observation} {calls : List (Nat × Request)}
      (prior : Interrupted limit journal calls) (maxTurns : UInt32) (within : maxTurns ≤ limit)
      (cleanupHandler : CleanupHandler CleanupOp) (cancelled : Nat → Bool)
      {driven : Driven State Result Request Observation CleanupOp}
      (returned : resume program scope journal initial maxTurns (ofDispatch dispatch)
        cleanupHandler cancelled = some driven)
      (interrupted : driven.result = .error .budgetExhausted ∨ driven.result = .error .cancelled) :
      Interrupted limit driven.journal (calls ++ driven.calls)

variable {program scope dispatch initial}

/-- **What interrupted calls leave** is the run up to a turn within the limit. -/
theorem Interrupted.ran {limit : UInt32} {journal : Journal State Result Request Observation}
    {calls : List (Nat × Request)}
    (interrupted : Interrupted program scope dispatch initial limit journal calls) :
    ∃ last turn, Ran program scope dispatch initial 0 journal calls last turn ∧
      turn ≤ limit.toNat := by
  induction interrupted with
  | fresh => exact ⟨_, _, .here _ _, Nat.zero_le _⟩
  | @stopped journal calls _ maxTurns within cleanupHandler cancelled driven returned ended ih =>
    obtain ⟨last, turn, ran, bounded⟩ := ih
    have fits := bounded.trans (budget_le limit)
    rw [resume_admitted (ran.admitted fits)] at returned
    obtain rfl := Option.some.inj returned
    rw [report_journal, report_calls]
    rcases driveLoop_replay program (ofDispatch dispatch) cancelled (ran.parses fits)
      (by simp [Validation.boundary]) initial [] 0 [] maxTurns.toNat with
      ⟨ending, drive, looped, unchanged, nothing⟩ |
      ⟨point, front, left, handed, _, _, split, budget, arrived⟩
    · rw [show driveLoop program scope (ofDispatch dispatch) cancelled maxTurns.toNat
        ⟨initial, 0, 0, journal, 0, []⟩ = (ending, drive) from looped, unchanged, nothing,
        List.append_nil]
      exact ⟨last, turn, ran, bounded⟩
    · obtain rfl := Option.some.inj (ran.handover_eq.symm.trans handed)
      obtain rfl : front = journal := (List.append_nil front).symm.trans split
      rw [Drive.at_nil] at arrived
      generalize looped : driveLoop program scope (ofDispatch dispatch) cancelled left
        (.atEnd last turn front 0 []) = loop at arrived
      rw [show driveLoop program scope (ofDispatch dispatch) cancelled maxTurns.toNat
        ⟨initial, 0, 0, front, 0, []⟩ = loop from arrived] at ended ⊢
      obtain ⟨ending, drive⟩ := loop
      cases ending with
      | ok terminal => rcases ended with same | same <;> cases same
      | error error =>
        obtain ⟨entries, later, journal, called, further, reached⟩ :=
          driveLoop_interrupted front 0 [] left looped
            (ended.imp Except.error.inj Except.error.inj)
        refine ⟨drive.state, drive.turn, ?_, ?_⟩
        · rw [journal, called]
          exact ran.trans further
        · have budget : turn + left = 0 + maxTurns.toNat := budget
          have smaller := UInt32.le_iff_toNat_le.mp within
          omega

/-- **Interruption is transparent.** Whatever interrupted calls came before, the call that resumes
their journal and the uninterrupted run return the same terminal step or error, the same cleanup and
the same journal, and the dispatches of the run are those of the interrupted calls followed by those
of the last one. -/
theorem interruption_transparent {limit : UInt32}
    {journal : Journal State Result Request Observation} {calls : List (Nat × Request)}
    (interrupted : Interrupted program scope dispatch initial limit journal calls)
    (cleanupHandler : CleanupHandler CleanupOp) :
    ∃ driven, resume program scope journal initial limit (ofDispatch dispatch) cleanupHandler never
        = some driven ∧
      run program scope initial limit (ofDispatch dispatch) cleanupHandler never
        = some (driven.since calls) := by
  obtain ⟨last, turn, ran, bounded⟩ := interrupted.ran
  have fits := bounded.trans (budget_le limit)
  refine ⟨_, resume_admitted (ran.admitted fits) _ _ _ _ _, ?_⟩
  have empty : Journal.validate ([] : Journal State Result Request Observation) scope
      = some (.ok ()) := rfl
  rw [run, resume_admitted empty]
  obtain ⟨left, budget⟩ := Nat.exists_eq_add_of_le bounded
  obtain ⟨front, steps, sinceStart, _, _, split, resumed⟩ := driveLoop_handover program
    (ran.parses fits) (by simp [Validation.boundary]) initial [] 0 [] ran.handover_eq
  obtain ⟨steps', sinceStart', fresh⟩ := ran.driveLoop_eq
  obtain rfl : front = journal := (List.append_nil front).symm.trans split
  have atResume : driveLoop program scope (ofDispatch dispatch) never limit.toNat
      (.at initial 0 [] front 0 []) = driveLoop program scope (ofDispatch dispatch) never left
        (.atEnd last turn front 0 []) := by
    rw [budget, show turn + left = steps + left by simp only at sinceStart; omega, resumed,
      Drive.at_nil]
  have atRun : driveLoop program scope (ofDispatch dispatch) never limit.toNat
      (.atEnd initial 0 [] 0 []) = driveLoop program scope (ofDispatch dispatch) never left
        ((Drive.atEnd last turn front 0 []).since calls) := by
    rw [budget, show turn + left = steps' + left by omega, fresh]
    simp only [Drive.atEnd, Drive.since, List.nil_append, List.append_nil, Nat.zero_add,
      Nat.add_zero]
  rw [show driveLoop program scope (ofDispatch dispatch) never limit.toNat
      ⟨initial, 0, 0, [], 0, []⟩ = _ from atRun,
    show driveLoop program scope (ofDispatch dispatch) never limit.toNat
      ⟨initial, 0, 0, front, 0, []⟩ = _ from atResume, driveLoop_since, report_since]

end Transparency

/-! A program that counts to four and asks on every other turn, cut off after its second turn. -/

section CountToFour

/-- Ask at even states, count up, complete at four. -/
def countToFour : ResumableEffectProgram Nat Nat Nat Nat Nat where
  request state := if state % 2 = 0 then some state else none
  transition state _ := if state < 4 then .continue (state + 1) else .complete state
  cleanupPlan state := [state]

/-- Answer a request with its successor. -/
def answerNext : Nat → Except String Nat := fun request => .ok (request + 1)

theorem interruption_transparent_countToFour :
    ∃ journal calls driven, calls = [(0, 0)] ∧ journal.length = 4 ∧
      resume countToFour askScope journal 0 9 (ofDispatch answerNext) (fun _ _ => .ok ()) never
        = some driven ∧
      run countToFour askScope 0 9 (ofDispatch answerNext) (fun _ _ => .ok ()) never
        = some (driven.since calls) := by
  have cutOff : Interrupted countToFour askScope answerNext 0 9 _ _ :=
    .stopped .fresh 2 (by decide) (fun _ _ => .ok ()) never rfl (.inl rfl)
  obtain ⟨driven, resumed, whole⟩ := interruption_transparent cutOff fun _ _ => .ok ()
  exact ⟨_, _, driven, rfl, rfl, resumed, whole⟩

end CountToFour

end Semaprax.ResumableEffects
