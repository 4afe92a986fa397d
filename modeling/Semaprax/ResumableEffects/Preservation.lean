/-
**What a driver call leaves of its journal.**

The driver only appends, so the journal it returns extends the one it was given. It is admitted again
when the fresh entries fit where the recorded ones break off: after complete turns, or after an
observation whose turn the program now takes without a request. After any other leftover the first
fresh entry is out of place.

* `driveLoop_extends` — fresh work on an admitted journal leaves an admitted journal.
* `Leftover.refuses` — what can follow a leftover that replay does not answer.
* `keepsJournal_iff` — for a given program, initial state and admitted journal, every driver call
  returns an admitted extension exactly when the rest handed over is resumable.
-/

import Semaprax.ResumableEffects.Redispatch

namespace Semaprax.ResumableEffects

open Library

variable {State Result Request Observation CleanupOp : Type*}

/-- The rest is an intent with its observation: the transition of the turn is missing. -/
def IsUnsettled (rest : Journal State Result Request Observation) : Prop :=
  ∃ turn scope request turn' scope' request' observation,
    rest = [.intent turn scope request, .observed turn' scope' request' observation]

variable {turn : Nat}

/-- The entries of a complete turn are let through wherever its transition alone would be, and also
with their effect at a turn boundary. -/
theorem parses_turnEntries {scope : EffectScope} {step : Step State Result}
    {phase : Phase} {held : Option Request} {answer : Option (Request × Observation)}
    {after : Validation Request} (answered : phase ≠ .afterIntent)
    (fresh : phase = .freshTurn ∨ answer = none)
    (closes : ∀ phase held, phase ≠ .afterIntent → Follows scope ⟨turn, false, phase, held⟩
      (.transition turn scope step : JournalEntry State Result Request Observation) after) :
    Parses scope ⟨turn, false, phase, held⟩ (turnEntries scope turn step answer) after := by
  cases answer with
  | none => exact .cons (closes _ _ answered) .nil
  | some given =>
    obtain rfl := fresh.resolve_right (Option.some_ne_none given)
    exact .cons .intent (.cons .observed (.cons (closes _ _ (by decide)) .nil))

/-- What can follow a leftover that replay does not answer, at the turn it is left at: nothing but
the missing transition. -/
theorem Leftover.refuses {scope : EffectScope} {last after : Validation Request}
    {rest : Journal State Result Request Observation} (leftover : Leftover scope turn rest)
    (nonempty : rest ≠ []) (unfailed : ¬ IsFailure rest)
    (parses : Parses scope (.boundary turn) rest last)
    {entry : JournalEntry State Result Request Observation} (here : entry.turn = turn)
    (follows : Follows scope last entry after) :
    IsUnsettled rest ∧ ∀ request, entry ≠ .intent turn scope request := by
  cases leftover with
  | nothing => exact absurd rfl nonempty
  | failure request reason => exact absurd ⟨_, _, _, _, _, _, _, rfl⟩ unfailed
  | unsettled request observation =>
    refine ⟨⟨_, _, _, _, _, _, _, rfl⟩, ?_⟩
    rintro request' rfl
    obtain rfl := parses.det (.cons .intent (.cons .observed .nil))
    cases follows
  | passed request reason step tail =>
    obtain ⟨unended, same, _⟩ := follows.turn_eq
    rw [here] at same
    cases parses with
    | cons first parses =>
      cases first
      cases parses with
      | cons second parses =>
        cases second
        cases parses with
        | cons third parses =>
          cases third with
          | «continue» _ _ =>
            have grown : turn + 1 ≤ last.turnExpected := parses.turn_le.1
            omega
          | terminal _ _ =>
            cases parses with
            | nil => cases unended
            | cons fourth _ => cases fourth

theorem Leftover.stands {scope : EffectScope} {last : Validation Request}
    {rest : Journal State Result Request Observation} (leftover : Leftover scope turn rest)
    (open' : rest = [] ∨ IsUnsettled rest) (parses : Parses scope (.boundary turn) rest last) :
    ∃ phase held, last = ⟨turn, false, phase, held⟩ ∧ phase ≠ .afterIntent ∧
      (rest = [] → phase = .freshTurn) := by
  rcases open' with rfl | ⟨_, _, _, _, _, _, _, rfl⟩
  · cases parses
    exact ⟨_, _, rfl, by decide, fun _ => rfl⟩
  · cases leftover
    obtain rfl := parses.det (.cons .intent (.cons .observed .nil))
    exact ⟨_, _, rfl, by decide, fun empty => nomatch empty⟩

section Preservation

variable [DecidableEq State] [DecidableEq Result] [DecidableEq Request]
  (program : ResumableEffectProgram State Result Request Observation CleanupOp)
  (scope : EffectScope)

/-- **Fresh work keeps the journal admitted**, when it starts at a turn boundary, or after an
observation in a state without a request. -/
theorem driveLoop_extends (handler : EffectHandler Request Observation) (cancelled : Nat → Bool)
    (drive : Drive State Result Request Observation) (idle : drive.Idle) {phase : Phase}
    {held : Option Request}
    (parses : Parses scope (.boundary 0) drive.journal ⟨drive.turn, false, phase, held⟩)
    (answered : phase ≠ .afterIntent)
    (fresh : phase = .freshTurn ∨ program.request drive.state = none) (remaining : Nat)
    (fits : drive.turn + remaining ≤ lastTurn) :
    ∃ more last, (driveLoop program scope handler cancelled remaining drive).2.journal
        = drive.journal ++ more ∧
      Parses scope (.boundary 0) (drive.journal ++ more) last ∧ last.phase ≠ .afterIntent := by
  induction remaining generalizing drive phase held with
  | zero => exact ⟨[], _, (List.append_nil _).symm, by rwa [List.append_nil], answered⟩
  | succ remaining ih =>
    rcases driveLoop_idle program scope handler cancelled idle (remaining + 1) with
      ⟨_, stopped, _⟩ | ⟨left, budget, _, rest⟩
    · exact ⟨[], _, by rw [stopped, List.append_nil], by rwa [List.append_nil], answered⟩
    obtain rfl := Nat.succ.inj budget
    rcases rest with ⟨request, reason, asked, _, failed⟩ |
      ⟨answer, step, asked, _, _, ⟨terminal, ended⟩ | ⟨next, rfl, idle, goesOn⟩⟩
    · obtain rfl := fresh.resolve_right (by rw [asked]; exact Option.some_ne_none _)
      exact ⟨_, _, by rw [failed]; rfl,
        parses.append (.cons .intent (.cons .observationFailed .nil)), by simp⟩
    · have asks : phase = .freshTurn ∨ answer = none :=
        fresh.imp_right fun none => Option.map_eq_none_iff.mp (asked.symm.trans none)
      exact ⟨_, _, by rw [ended]; rfl, parses.append (parses_turnEntries answered asks
        fun _ _ answered => .terminal answered terminal), by simp⟩
    · have asks : phase = .freshTurn ∨ answer = none :=
        fresh.imp_right fun none => Option.map_eq_none_iff.mp (asked.symm.trans none)
      have pushed : Parses scope (.boundary 0) (drive.goOn scope answer next).journal
          (.boundary (drive.turn + 1)) :=
        parses.append (parses_turnEntries answered asks
          fun _ _ answered => .continue answered (by omega))
      obtain ⟨more, last, extended, admitted, closed⟩ :=
        ih _ idle pushed (by decide) (.inl rfl) (by simp only [Drive.goOn]; omega)
      refine ⟨turnEntries scope drive.turn (.continue next) answer ++ more, last, ?_, ?_, closed⟩
      · rw [goesOn, extended, ← List.append_assoc]
        rfl
      · rw [← List.append_assoc]
        exact admitted

theorem driveLoop_pushes (handler : EffectHandler Request Observation)
    (drive : Drive State Result Request Observation) (idle : drive.Idle) :
    ∃ entry more, (driveLoop program scope handler never 1 drive).2.journal
        = drive.journal ++ entry :: more ∧
      entry.turn = drive.turn ∧
      ∀ request, program.request drive.state = some request →
        entry = .intent drive.turn scope request := by
  have pushed : ∀ (answer : Option (Request × Observation)) (step : Step State Result),
      program.request drive.state = answer.map Prod.fst →
      ∃ entry more, drive.journal ++ turnEntries scope drive.turn step answer
          = drive.journal ++ entry :: more ∧
        entry.turn = drive.turn ∧ ∀ request, program.request drive.state = some request →
          entry = .intent drive.turn scope request := by
    intro answer step asked
    cases answer with
    | none =>
      refine ⟨_, _, rfl, rfl, fun request asked' => ?_⟩
      rw [asked] at asked'
      cases asked'
    | some given =>
      refine ⟨_, _, rfl, rfl, fun request asked' => ?_⟩
      rw [asked] at asked'
      cases asked'
      rfl
  rcases driveLoop_idle program scope handler never idle 1 with
    ⟨_, _, ⟨spent, _⟩ | ⟨_, stopped, _⟩⟩ | ⟨left, budget, _, rest⟩
  · cases spent
  · cases stopped
  obtain rfl : 0 = left := Nat.succ.inj budget
  rcases rest with ⟨request, reason, asked, _, failed⟩ |
    ⟨answer, step, asked, _, _, ⟨_, ended⟩ | ⟨next, rfl, _, goesOn⟩⟩
  · refine ⟨_, _, by rw [failed]; rfl, rfl, fun request' asked' => ?_⟩
    rw [Option.some.inj (asked.symm.trans asked')]
  · rw [ended]
    exact pushed answer step asked
  · rw [goesOn]
    exact pushed answer _ asked

variable (initial : State) (journal : Journal State Result Request Observation)

/-- Every call of `resume` on the journal returns an extension of it that is admitted again. -/
def KeepsJournal : Prop :=
  ∀ maxTurns handler cleanupHandler cancelled, ∃ driven,
    resume program scope journal initial maxTurns handler cleanupHandler cancelled = some driven ∧
      journal <+: driven.journal ∧ Journal.validate driven.journal scope = some (.ok ())

/-- Where replay hands over to fresh work within some budget, nothing is left over, or a final
failure, or an intent with its observation in a state that has no request. -/
def RestResumable : Prop :=
  ∀ point, handover program initial 0 journal = some point → point.turn < lastTurn →
    point.rest = [] ∨ IsFailure point.rest ∨
      IsUnsettled point.rest ∧ program.request point.state = none

variable {program scope initial journal}

/-- **Exactly when the returned journal is an admitted extension.** -/
theorem keepsJournal_iff (admitted : Journal.validate journal scope = some (.ok ())) :
    KeepsJournal program scope initial journal ↔ RestResumable program initial journal := by
  obtain ⟨last, parses, answered⟩ := validate_ok_iff.mp admitted
  constructor
  · intro keeps point handed fits
    obtain ⟨front, steps, sinceStart, leftover, parsesRest, split, arrives⟩ :=
      driveLoop_handover program parses answered initial [] 0 [] handed
    have behind : (Drive.at point.state point.turn front point.rest 0 []).journal = journal := split
    rcases leftover.peekRecorded_eq front with ⟨failure, _⟩ | ⟨unfailed, idle⟩
    · exact .inr (.inl failure)
    by_cases nonempty : point.rest = []
    · exact .inl nonempty
    refine .inr (.inr ?_)
    -- One fresh turn pushes an entry after the rest; that it is let through leaves one case.
    obtain ⟨maxTurns, budget⟩ := exists_budget fits
    obtain ⟨driven, returned, _, extended⟩ :=
      keeps maxTurns (fun _ _ => .error "refused") (fun _ _ => .ok ()) never
    rw [resume_admitted admitted] at returned
    obtain rfl := Option.some.inj returned
    obtain ⟨entry, more, pushed, here, intent⟩ := driveLoop_pushes program scope
      (fun _ _ => .error "refused") (.at point.state point.turn front point.rest 0 []) idle
    rw [← arrives, show steps + 1 = maxTurns.toNat by omega] at pushed
    rw [report_journal, show (driveLoop program scope _ never maxTurns.toNat
      ⟨initial, 0, 0, journal, 0, []⟩).2.journal = _ from pushed] at extended
    obtain ⟨_, whole, _⟩ := validate_ok_iff.mp extended
    obtain ⟨between, parsesFront, parsesMore⟩ := Parses.of_append whole
    obtain rfl : between = last := parsesFront.det (behind ▸ parses)
    cases parsesMore with
    | cons follows _ =>
      obtain ⟨unsettled, noIntent⟩ :=
        leftover.refuses nonempty unfailed parsesRest here follows
      refine ⟨unsettled, ?_⟩
      cases asked : program.request point.state with
      | none => rfl
      | some request => exact absurd (intent request asked) (noIntent request)
  · intro resumable maxTurns handler cleanupHandler cancelled
    refine ⟨_, resume_admitted admitted _ _ _ _ _, ?_⟩
    rw [report_journal]
    have unchanged : journal <+: journal ∧ Journal.validate journal scope = some (.ok ()) :=
      ⟨List.prefix_rfl, admitted⟩
    rcases driveLoop_replay program handler cancelled parses answered initial [] 0 []
      maxTurns.toNat with ⟨ending, drive, looped, same, _⟩ |
      ⟨point, front, left, handed, leftover, parsesRest, split, budget, arrived⟩
    · rw [show driveLoop program scope handler cancelled maxTurns.toNat
        ⟨initial, 0, 0, journal, 0, []⟩ = (ending, drive) from looped, same]
      exact unchanged
    have behind : (Drive.at point.state point.turn front point.rest 0 []).journal = journal := split
    rw [show driveLoop program scope handler cancelled maxTurns.toNat
      ⟨initial, 0, 0, journal, 0, []⟩ = _ from arrived]
    rcases leftover.peekRecorded_eq front with ⟨_, reason, recorded⟩ | ⟨unfailed, idle⟩
    · obtain ⟨error, stopped⟩ := driveLoop_failure program scope handler cancelled
        (.at point.state point.turn front point.rest 0 []) recorded left
      rw [stopped, behind]
      exact unchanged
    have fits := budget_le maxTurns
    by_cases within : point.turn < lastTurn
    · have rest := (resumable point handed within).imp_right (·.resolve_left unfailed)
      obtain ⟨phase, held, rfl, between, boundary⟩ :=
        leftover.stands (rest.imp_right And.left) parsesRest
      obtain ⟨more, last, extended, admitted, closed⟩ := driveLoop_extends program scope handler
        cancelled (.at point.state point.turn front point.rest 0 []) idle
        (behind ▸ parses) between (rest.imp boundary And.right) left
        (show point.turn + left ≤ lastTurn by omega)
      rw [behind] at extended admitted
      rw [extended]
      exact ⟨⟨more, rfl⟩, validate_ok_iff.mpr ⟨last, admitted, closed⟩⟩
    · obtain rfl : left = 0 := by omega
      rw [show (driveLoop program scope handler cancelled 0
        (.at point.state point.turn front point.rest 0 [])).2.journal = journal from behind]
      exact unchanged

end Preservation

section AskOnce

theorem journal_broken_unsettled :
    ¬ ∀ (program : ResumableEffectProgram Nat Nat Nat Nat Nat) (scope : EffectScope) (initial : Nat)
      (journal : Journal Nat Nat Nat Nat), Journal.validate journal scope = some (.ok ()) →
        KeepsJournal program scope initial journal := by
  intro claimed
  obtain ⟨driven, returned, _, readmitted⟩ := claimed askOnce askScope 0 unsettledJournal
    (by decide) 1 (fun _ _ => .ok 1) (fun _ _ => .ok ()) never
  rw [resume_admitted (by decide)] at returned
  obtain rfl := Option.some.inj returned
  exact absurd readmitted (by decide)

theorem keepsJournal_failedJournal : KeepsJournal askOnce askScope 0 failedJournal := by
  refine (keepsJournal_iff (by decide)).mpr fun point handed _ => .inr (.inl ?_)
  obtain rfl := Option.some.inj handed
  exact ⟨_, _, _, _, _, _, _, rfl⟩

end AskOnce

end Semaprax.ResumableEffects
