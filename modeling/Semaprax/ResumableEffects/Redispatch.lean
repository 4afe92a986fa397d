/-
**Dispatches for recorded turns.**

`validate` admits two kinds of rest that `peek_recorded` does not recognise: an intent and its
observation with no transition yet, and a failed observation followed by a transition. At such a
rest the driver takes the turn for fresh, and asks the handler again for what the journal records.

* `driveLoop_scripted` — every path of fresh turns is driven by a handler that answers along it.
* `noRedispatch_iff` — for a given program, initial state and admitted journal, no driver call ever
  dispatches for a recorded turn exactly when fresh work from the hand-over meets no request at a
  recorded turn.
-/

import Semaprax.ResumableEffects.FreshWork

namespace Semaprax.ResumableEffects

open Library

variable {State Result Request Observation CleanupOp : Type*}

/-- The entry records how a dispatch was answered. -/
def JournalEntry.IsAnswer : JournalEntry State Result Request Observation → Prop
  | .observed _ _ _ _ | .observationFailed _ _ _ _ => True
  | .intent _ _ _ | .transition _ _ _ => False

/-- The journal records an `Observed` or `ObservationFailed` entry for the turn. -/
def Records (journal : Journal State Result Request Observation) (turn : Nat) : Prop :=
  ∃ entry ∈ journal, entry.IsAnswer ∧ entry.turn = turn

def scripted (observations : List Observation) : EffectHandler Request Observation :=
  fun asked _ =>
    match observations[asked]? with
    | some observation => .ok observation
    | none => .error "unscripted"

section Redispatch

variable [DecidableEq State] [DecidableEq Result] [DecidableEq Request]
  (program : ResumableEffectProgram State Result Request Observation CleanupOp)
  (scope : EffectScope) (initial : State) (journal : Journal State Result Request Observation)

/-- No call of `resume` on the journal dispatches for a turn that the journal records. -/
def NoRedispatch : Prop :=
  ∀ maxTurns handler cleanupHandler cancelled driven,
    resume program scope journal initial maxTurns handler cleanupHandler cancelled = some driven →
      ∀ call ∈ driven.calls, ¬ Records journal call.1

/-- Where replay hands over to fresh work, and the rest is no final failure, no state that fresh
turns reach has a request at a turn the journal records. The last turn number is out of reach of
every budget. -/
def FreshAvoidsRecorded : Prop :=
  ∀ point, handover program initial 0 journal = some point → IsFailure point.rest ∨
    ∀ there, Reaches (· = (point.state, point.turn)) (FreshNext program) there →
      there.2 < lastTurn → Records journal there.2 → program.request there.1 = none

/-- Along every path of fresh turns the loop is driven by the observations of the path, whatever
the handler answers later. -/
theorem driveLoop_scripted (drive : Drive State Result Request Observation) (idle : drive.Idle)
    (uncalled : drive.calls = []) {n : Nat} {there : State × Nat}
    (reached : ReachesIn (· = (drive.state, drive.turn)) (FreshNext program) n there) :
    ∃ observations : List Observation, ∀ more, ∃ after : Drive State Result Request Observation,
      after.Idle ∧ (after.state, after.turn) = there ∧
      after.calls.length = observations.length ∧
      ∀ left, driveLoop program scope (scripted (observations ++ more)) never (n + left) drive
        = driveLoop program scope (scripted (observations ++ more)) never left after := by
  induction reached with
  | base same =>
    refine ⟨[], fun more => ⟨drive, idle, same.symm, by rw [uncalled]; rfl, fun left => ?_⟩⟩
    rw [Nat.zero_add]
  | @step n here there _ move ih =>
    obtain ⟨observations, drives⟩ := ih
    obtain ⟨nextTurn, answer, asked, taken⟩ := move
    refine ⟨observations ++ (answer.map Prod.snd).toList, fun more => ?_⟩
    obtain ⟨after, idle, rfl, called, arrives⟩ := drives ((answer.map Prod.snd).toList ++ more)
    let handler : EffectHandler Request Observation :=
      scripted (observations ++ ((answer.map Prod.snd).toList ++ more))
    have answered : ∀ given ∈ answer, handler after.calls.length given.1 = .ok given.2 := by
      rintro given ⟨⟩
      simp [handler, scripted, called]
    obtain ⟨idle', goesOn⟩ := driveLoop_goOn program scope _ never idle rfl asked
      answered taken 0
    refine ⟨after.goOn scope answer there.1, idle', ?_, ?_, fun left => ?_⟩
    · exact Prod.ext rfl nextTurn.symm
    · cases answer <;> simp [Drive.goOn, Drive.work, turnCalls, called]
    · rw [List.append_assoc, Nat.add_right_comm, Nat.add_assoc, arrives]
      exact (driveLoop_goOn program scope _ never idle rfl asked answered taken left).2

variable {program scope initial journal}

/-- **Exactly when no recorded turn is dispatched again.** -/
theorem noRedispatch_iff (admitted : Journal.validate journal scope = some (.ok ())) :
    NoRedispatch program scope initial journal ↔ FreshAvoidsRecorded program initial journal := by
  obtain ⟨last, parses, answered⟩ := validate_ok_iff.mp admitted
  constructor
  · intro quiet point handed
    obtain ⟨front, steps, sinceStart, leftover, _, _, arrives⟩ :=
      driveLoop_handover program parses answered initial [] 0 [] handed
    rcases leftover.peekRecorded_eq front with ⟨failure, _⟩ | ⟨_, idle⟩
    · exact .inl failure
    refine .inr fun there reached fits records => ?_
    cases asked : program.request there.1 with
    | none => rfl
    | some request =>
      -- The handler answers along the path, and the budget ends right after its last turn.
      obtain ⟨n, reached⟩ := reached
      have turns := FreshNext.turn_eq reached
      obtain ⟨observations, drives⟩ := driveLoop_scripted program scope
        (.at point.state point.turn front point.rest 0 []) idle rfl reached
      obtain ⟨after, idle, rfl, _, follows⟩ := drives []
      have called := driveLoop_dispatches program scope (scripted (observations ++ [])) never idle
        rfl asked
      rw [← follows, ← arrives] at called
      obtain ⟨maxTurns, budget⟩ := exists_budget fits
      refine absurd records (quiet maxTurns (scripted (observations ++ [])) (fun _ _ => .ok ())
        never _ (resume_admitted admitted _ _ _ _ _) (after.turn, request) ?_)
      rw [report_calls, budget, show after.turn + 1 = steps + (n + 1) by omega]
      exact called
  · intro avoids maxTurns handler cleanupHandler cancelled driven returned call member records
    rw [resume_admitted admitted] at returned
    obtain rfl := Option.some.inj returned
    rw [report_calls] at member
    rcases driveLoop_replay program handler cancelled parses answered initial [] 0 []
      maxTurns.toNat with ⟨ending, drive, looped, _, nothing⟩ |
      ⟨point, front, left, handed, leftover, _, _, budget, arrived⟩
    · rw [show driveLoop program scope handler cancelled maxTurns.toNat
        ⟨initial, 0, 0, journal, 0, []⟩ = (ending, drive) from looped, nothing] at member
      cases member
    · rw [show driveLoop program scope handler cancelled maxTurns.toNat
        ⟨initial, 0, 0, journal, 0, []⟩ = _ from arrived] at member
      rcases leftover.peekRecorded_eq front with ⟨_, reason, recorded⟩ | ⟨unfailed, idle⟩
      · obtain ⟨error, stopped⟩ := driveLoop_failure program scope handler cancelled
          (.at point.state point.turn front point.rest 0 []) recorded left
        rw [stopped] at member
        cases member
      · rcases driveLoop_calls program scope handler cancelled
          (.at point.state point.turn front point.rest 0 []) idle (.base rfl) left call member with earlier | ⟨state, reached, asked, within⟩
        · cases earlier
        · have fits := budget_le maxTurns
          have quiet := (avoids point handed).resolve_left unfailed (state, call.1) reached
            (within.trans_le (by simp only [Drive.at]; omega)) records
          rw [asked] at quiet
          cases quiet

end Redispatch

/-! A program that asks once and completes with the answer. Its journal may break off after the
observation, and is admitted so; resuming it asks again. -/

section AskOnce

/-- One request, then `Complete`. -/
def askOnce : ResumableEffectProgram Nat Nat Nat Nat Nat where
  request _ := some 7
  transition _ observation := .complete (observation.getD 0)
  cleanupPlan _ := []

/-- The scope of the journals below. -/
def askScope : EffectScope := ⟨"root", "invocation", 0⟩

/-- The request was answered, the transition is not recorded. -/
def unsettledJournal : Journal Nat Nat Nat Nat :=
  [.intent 0 askScope 7, .observed 0 askScope 7 1]

def failedJournal : Journal Nat Nat Nat Nat :=
  [.intent 0 askScope 7, .observationFailed 0 askScope 7 "offline"]

theorem redispatch_unsettled :
    ¬ ∀ (program : ResumableEffectProgram Nat Nat Nat Nat Nat) (scope : EffectScope) (initial : Nat)
      (journal : Journal Nat Nat Nat Nat), Journal.validate journal scope = some (.ok ()) →
        NoRedispatch program scope initial journal := by
  intro claimed
  exact claimed askOnce askScope 0 unsettledJournal (by decide) 1 (fun _ _ => .ok 1)
    (fun _ _ => .ok ()) never _ rfl (0, 7) (by decide)
    ⟨_, List.mem_cons_of_mem _ List.mem_cons_self, trivial, rfl⟩

theorem noRedispatch_failedJournal : NoRedispatch askOnce askScope 0 failedJournal := by
  refine (noRedispatch_iff (by decide)).mpr fun point handed => .inl ?_
  obtain rfl := Option.some.inj handed
  exact ⟨_, _, _, _, _, _, _, rfl⟩

end AskOnce

end Semaprax.ResumableEffects
