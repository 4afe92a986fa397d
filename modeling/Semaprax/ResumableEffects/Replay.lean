/-
**Replay and hand-over.**

`handover` is what replay does to an admitted journal, without cursor and budget: it takes the
leading complete turns that the program recomputes as recorded, and hands over the state, the turn
and the rest of the entries; it hands over nothing when a recorded turn drifts or is terminal.

* `driveTurn_bare`, `driveTurn_effect`, … — one turn of the driver at each opening of the rest.
* `driveLoop_replay` — the driver either ends inside the replay, with the journal as it was and
  nothing dispatched, or it arrives at the hand-over.
* `driveLoop_handover` — given the budget and no cancellation, it does arrive there.
-/

import Semaprax.ResumableEffects.Admission

namespace Semaprax.ResumableEffects

variable {State Result Request Observation CleanupOp : Type*}

/-- Where replay leaves off: the state and the turn to go on from, and the entries left over. -/
structure Handover (State Result Request Observation : Type*) where
  state : State
  turn : Nat
  rest : Journal State Result Request Observation

section Handover

variable [DecidableEq State] [DecidableEq Result] [DecidableEq Request]

/-- The next state, when the program recomputes a recorded turn as it stands and the turn goes
on. -/
def recompute (program : ResumableEffectProgram State Result Request Observation CleanupOp)
    (state : State) (request : Option Request) (observation : Option Observation)
    (step : Step State Result) : Option State :=
  if program.request state = request ∧ program.transition state observation = step then
    match step with
    | .continue next => some next
    | _ => none
  else none

/-- What replay hands over to fresh work. -/
def handover (program : ResumableEffectProgram State Result Request Observation CleanupOp)
    (state : State) (turn : Nat) :
    Journal State Result Request Observation → Option (Handover State Result Request Observation)
  | .transition _ _ step :: tail =>
    match recompute program state none none step with
    | some next => handover program next (turn + 1) tail
    | none => none
  | .intent _ _ request :: .observed _ _ _ observation :: .transition _ _ step :: tail =>
    match recompute program state (some request) (some observation) step with
    | some next => handover program next (turn + 1) tail
    | none => none
  | rest => some ⟨state, turn, rest⟩

end Handover

section Peek

variable (done tail : Journal State Result Request Observation) (turn : Nat) (scope : EffectScope)
  (request : Request) (observation : Observation) (reason : String) (step : Step State Result)

theorem getElem?_after (entries : Journal State Result Request Observation) (offset : Nat) :
    (done ++ entries)[done.length + offset]? = entries[offset]? := by
  rw [List.getElem?_append_right (Nat.le_add_right _ _), Nat.add_sub_cancel_left]

theorem getElem?_here (entries : Journal State Result Request Observation) :
    (done ++ entries)[done.length]? = entries[0]? := getElem?_after done entries 0

theorem peekRecorded_end : peekRecorded done done.length turn = .none := by
  simp [peekRecorded]

theorem peekRecorded_bare :
    peekRecorded (done ++ .transition turn scope step :: tail) done.length turn
      = .group ⟨none, none, step, done.length + 1⟩ := by
  simp [peekRecorded, JournalEntry.turn]

theorem peekRecorded_effect :
    peekRecorded (done ++ .intent turn scope request :: .observed turn scope request observation ::
        .transition turn scope step :: tail) done.length turn
      = .group ⟨some request, some observation, step, done.length + 3⟩ := by
  simp only [peekRecorded, getElem?_here, getElem?_after]
  simp [JournalEntry.turn]

theorem peekRecorded_unsettled :
    peekRecorded (done ++ [.intent turn scope request, .observed turn scope request observation])
      done.length turn = .none := by
  simp only [peekRecorded, getElem?_here, getElem?_after]
  simp [JournalEntry.turn]

theorem peekRecorded_failure : peekRecorded
        (done ++ [.intent turn scope request, .observationFailed turn scope request reason])
        done.length turn = .failure reason := by
  simp only [peekRecorded, getElem?_here, getElem?_after]
  simp [JournalEntry.turn]

theorem peekRecorded_passed : peekRecorded (done ++ .intent turn scope request ::
        .observationFailed turn scope request reason :: .transition turn scope step :: tail)
      done.length turn = .none := by
  simp only [peekRecorded, getElem?_here, getElem?_after]
  simp [JournalEntry.turn]

end Peek

/-- The rest is a final recorded failure: the one leftover that replay answers by itself. -/
def IsFailure (rest : Journal State Result Request Observation) : Prop :=
  ∃ turn scope request turn' scope' request' reason,
    rest = [.intent turn scope request, .observationFailed turn' scope' request' reason]

theorem Leftover.peekRecorded_eq {scope : EffectScope} {turn : Nat}
    {rest : Journal State Result Request Observation} (leftover : Leftover scope turn rest)
    (done : Journal State Result Request Observation) :
    (IsFailure rest ∧ ∃ reason, peekRecorded (done ++ rest) done.length turn = .failure reason) ∨
      (¬ IsFailure rest ∧ peekRecorded (done ++ rest) done.length turn = .none) := by
  cases leftover with
  | nothing =>
    refine .inr ⟨(fun ⟨_, _, _, _, _, _, _, same⟩ => nomatch same), ?_⟩
    rw [List.append_nil]
    exact peekRecorded_end done turn
  | unsettled request observation =>
    exact .inr ⟨(fun ⟨_, _, _, _, _, _, _, same⟩ => nomatch same),
      peekRecorded_unsettled done turn scope request observation⟩
  | failure request reason =>
    exact .inl ⟨⟨_, _, _, _, _, _, _, rfl⟩, reason,
      peekRecorded_failure done turn scope request reason⟩
  | passed request reason step tail =>
    exact .inr ⟨(fun ⟨_, _, _, _, _, _, _, same⟩ => nomatch same),
      peekRecorded_passed done tail turn scope request reason step⟩

section Replay

variable [DecidableEq State] [DecidableEq Result] [DecidableEq Request]
  (program : ResumableEffectProgram State Result Request Observation CleanupOp)
  {scope : EffectScope}

/-- The driver at a point of the replay: `done` is behind the cursor, `rest` is ahead. -/
def Drive.at (state : State) (turn : Nat) (done rest : Journal State Result Request Observation)
    (dispatched : Nat) (calls : List (Nat × Request)) :
    Drive State Result Request Observation :=
  ⟨state, turn, done.length, done ++ rest, dispatched, calls⟩

/-- The replay of one complete turn: it ends the loop where it stands, or goes on to the recorded
next state, with the turn behind the cursor. -/
theorem replayGroup_cases (state : State) (turn : Nat)
    (done rest : Journal State Result Request Observation) (dispatched : Nat)
    (calls : List (Nat × Request)) (request : Option Request) (observation : Option Observation)
    (step : Step State Result) (cursor : Nat) :
    (recompute program state request observation step = none ∧ ∃ ending drive,
      replayGroup program (Drive.at state turn done rest dispatched calls)
          ⟨request, observation, step, cursor⟩ = .ended ending drive ∧
        drive.journal = done ++ rest ∧ drive.calls = calls) ∨
    ∃ next, step = .continue next ∧
      recompute program state request observation step = some next ∧
      replayGroup program (Drive.at state turn done rest dispatched calls)
          ⟨request, observation, step, cursor⟩
        = .next ⟨next, turn + 1, cursor, done ++ rest, dispatched, calls⟩ := by
  unfold replayGroup recompute
  by_cases sameRequest : program.request state = request
  · by_cases sameStep : program.transition state observation = step
    · cases step with
      | «continue» next | suspend _ | complete _ | fail _ =>
        simp [Drive.at, Drive.settle, sameRequest, sameStep]
    · simp [Drive.at, sameRequest, sameStep]
  · simp [Drive.at, sameRequest]

/-- **One turn of the replay.** The rest is left over, or the turn ends the loop and nothing is
handed over, or the turn moves behind the cursor and the hand-over is that of the tail. -/
theorem replay_step {turn : Nat} {last : Validation Request}
    {rest : Journal State Result Request Observation}
    (parses : Parses scope (.boundary turn) rest last) (answered : last.phase ≠ .afterIntent)
    (state : State) (done : Journal State Result Request Observation) (dispatched : Nat)
    (calls : List (Nat × Request)) :
    (Leftover scope turn rest ∧ handover program state turn rest = some ⟨state, turn, rest⟩) ∨
    (handover program state turn rest = none ∧ ∃ ending drive,
      (∀ handler, driveTurn program scope handler (.at state turn done rest dispatched calls)
          = .ended ending drive) ∧
        drive.journal = done ++ rest ∧ drive.calls = calls) ∨
    ∃ next group tail, rest = group ++ tail ∧ group ≠ [] ∧
      handover program state turn rest = handover program next (turn + 1) tail ∧
      (∀ handler, driveTurn program scope handler (.at state turn done rest dispatched calls)
        = .next (.at next (turn + 1) (done ++ group) tail dispatched calls)) ∧
      Parses scope (.boundary (turn + 1)) tail last := by
  rcases parses.opens answered with ⟨step, tail⟩ | ⟨request, observation, step, tail⟩ | leftover
  · have peeked := peekRecorded_bare done tail turn scope step
    rcases replayGroup_cases program state turn done (.transition turn scope step :: tail)
      dispatched calls none none step (done.length + 1) with
      ⟨drifts, ending, drive, ended, unchanged⟩ | ⟨next, rfl, agrees, goesOn⟩
    · refine .inr (.inl ⟨by simp only [handover, drifts], ending, drive, fun handler => ?_, unchanged⟩)
      simpa only [driveTurn, Drive.at, peeked] using ended
    · refine .inr (.inr ⟨next, [.transition turn scope (.continue next)], tail, rfl,
        List.cons_ne_nil _ _, by simp only [handover, agrees], fun handler => ?_,
        parses.after_continue⟩)
      simpa [driveTurn, Drive.at, peeked] using goesOn
  · have peeked := peekRecorded_effect done tail turn scope request observation step
    rcases replayGroup_cases program state turn done (.intent turn scope request ::
      .observed turn scope request observation :: .transition turn scope step :: tail)
      dispatched calls (some request) (some observation) step (done.length + 3) with
      ⟨drifts, ending, drive, ended, unchanged⟩ | ⟨next, rfl, agrees, goesOn⟩
    · refine .inr (.inl ⟨by simp only [handover, drifts], ending, drive, fun handler => ?_, unchanged⟩)
      simpa only [driveTurn, Drive.at, peeked] using ended
    · refine .inr (.inr ⟨next, [.intent turn scope request,
        .observed turn scope request observation, .transition turn scope (.continue next)], tail,
        rfl, List.cons_ne_nil _ _, by simp only [handover, agrees], fun handler => ?_,
        parses.after_effect⟩)
      simpa [driveTurn, Drive.at, peeked] using goesOn
  · refine .inl ⟨leftover, ?_⟩
    cases leftover <;> rfl

/-- **The replay phase.** The driver ends inside it, with the journal as it was and nothing
dispatched, or it arrives at the hand-over. -/
theorem driveLoop_replay (handler : EffectHandler Request Observation) (cancelled : Nat → Bool)
    {turn : Nat} {last : Validation Request} {rest : Journal State Result Request Observation}
    (parses : Parses scope (.boundary turn) rest last) (answered : last.phase ≠ .afterIntent)
    (state : State) (done : Journal State Result Request Observation) (dispatched : Nat)
    (calls : List (Nat × Request)) (remaining : Nat) :
    (∃ ending drive, driveLoop program scope handler cancelled remaining
        (.at state turn done rest dispatched calls) = (ending, drive) ∧
      drive.journal = done ++ rest ∧ drive.calls = calls) ∨
    ∃ point front left, handover program state turn rest = some point ∧
      Leftover scope point.turn point.rest ∧ Parses scope (.boundary point.turn) point.rest last ∧
      front ++ point.rest = done ++ rest ∧ point.turn + left = turn + remaining ∧
      driveLoop program scope handler cancelled remaining
          (.at state turn done rest dispatched calls)
        = driveLoop program scope handler cancelled left
          (.at point.state point.turn front point.rest dispatched calls) := by
  induction remaining generalizing state turn done rest with
  | zero => exact .inl ⟨_, _, rfl, rfl, rfl⟩
  | succ remaining ih =>
    rcases replay_step program parses answered state done
      dispatched calls with ⟨leftover, found⟩ | ⟨_, ending, drive, ended, unchanged⟩ |
      ⟨next, group, tail, rfl, _, found, goesOn, parses⟩
    · exact .inr ⟨_, done, remaining + 1, found, leftover, parses, rfl, rfl, rfl⟩
    · refine .inl ?_
      by_cases stopped : cancelled turn
      · exact ⟨_, _, if_pos stopped, rfl, rfl⟩
      · refine ⟨ending, drive, ?_, unchanged⟩
        simp only [driveLoop, ended handler]
        exact if_neg stopped
    · by_cases stopped : cancelled turn
      · exact .inl ⟨_, _, if_pos stopped, rfl, rfl⟩
      · have turned : driveLoop program scope handler cancelled (remaining + 1)
            (.at state turn done (group ++ tail) dispatched calls)
            = driveLoop program scope handler cancelled remaining
              (.at next (turn + 1) (done ++ group) tail dispatched calls) := by
          simp only [driveLoop, goesOn handler]
          exact if_neg stopped
        rw [turned, found, ← List.append_assoc]
        rcases ih parses next (done ++ group) with inside | ⟨point, front, left, rest⟩
        · exact .inl inside
        · obtain ⟨handed, leftover, parses, split, budget, arrived⟩ := rest
          exact .inr ⟨point, front, left, handed, leftover, parses, split, by omega, arrived⟩

/-- A cancellation check that never cancels. -/
def never : Nat → Bool := fun _ => false

/-- With enough budget and no cancellation the driver does arrive at the hand-over. -/
theorem driveLoop_handover {turn : Nat} {last : Validation Request} {rest : Journal State Result Request Observation}
    (parses : Parses scope (.boundary turn) rest last) (answered : last.phase ≠ .afterIntent)
    (state : State) (done : Journal State Result Request Observation) (dispatched : Nat)
    (calls : List (Nat × Request)) {point : Handover State Result Request Observation}
    (handed : handover program state turn rest = some point) :
    ∃ front steps, point.turn = turn + steps ∧ Leftover scope point.turn point.rest ∧
      Parses scope (.boundary point.turn) point.rest last ∧ front ++ point.rest = done ++ rest ∧
      ∀ handler left, driveLoop program scope handler never (steps + left)
          (.at state turn done rest dispatched calls)
        = driveLoop program scope handler never left
          (.at point.state point.turn front point.rest dispatched calls) := by
  induction size : rest.length using Nat.strong_induction_on generalizing state turn done rest with
  | _ size ih =>
    subst size
    rcases replay_step program parses answered state done
      dispatched calls with ⟨leftover, found⟩ | ⟨nothing, _⟩ |
      ⟨next, group, tail, rfl, nonempty, found, goesOn, parses⟩
    · obtain rfl : (⟨state, turn, rest⟩ : Handover _ _ _ _) = point :=
        Option.some.inj (found.symm.trans handed)
      exact ⟨done, 0, rfl, leftover, parses, rfl, fun _ left => by rw [Nat.zero_add]⟩
    · rw [nothing] at handed
      cases handed
    · have shorter : tail.length < (group ++ tail).length := by
        rw [List.length_append]
        exact Nat.lt_add_of_pos_left (List.length_pos_iff.mpr nonempty)
      obtain ⟨front, steps, reached, leftover, parses, split, arrived⟩ :=
        ih _ shorter parses next (done ++ group) (found.symm.trans handed) rfl
      refine ⟨front, steps + 1, by omega, leftover, parses, ?_, fun handler left => ?_⟩
      · rw [split, List.append_assoc]
      · rw [← arrived, Nat.add_right_comm]
        simp only [driveLoop, goesOn]
        exact if_neg Bool.false_ne_true

end Replay

end Semaprax.ResumableEffects
