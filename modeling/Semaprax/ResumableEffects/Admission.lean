/-
**What `validate` admits.**

`Follows` says once what the loop body of `validate` can do with an entry it lets through, and
`Parses` is a whole stretch of such entries. The two turn the check into a grammar that the proofs
below read entry by entry.

* `checkEntry_ok_iff`, `validate_ok_iff` — the check and the grammar agree.
* `Parses.opens` — from a turn boundary, an admitted rest opens with a complete turn or is one of
  the four kinds of `Leftover`.
-/

import Semaprax.ResumableEffects.Core

namespace Semaprax.ResumableEffects

variable {State Result Request Observation CleanupOp : Type*}

/-- The variables of `validate` at a turn boundary. -/
def Validation.boundary (turn : Nat) : Validation Request := ⟨turn, false, .freshTurn, none⟩

/-- The entries that `validate` lets through, with its variables before and after. -/
inductive Follows (scope : EffectScope) : Validation Request →
    JournalEntry State Result Request Observation → Validation Request → Prop
  | intent {turn : Nat} {held : Option Request} {request : Request} :
      Follows scope ⟨turn, false, .freshTurn, held⟩ (.intent turn scope request)
        ⟨turn, false, .afterIntent, some request⟩
  | observed {turn : Nat} {request : Request} {observation : Observation} :
      Follows scope ⟨turn, false, .afterIntent, some request⟩
        (.observed turn scope request observation)
        ⟨turn, false, .afterObservation, some request⟩
  | observationFailed {turn : Nat} {request : Request} {reason : String} :
      Follows scope ⟨turn, false, .afterIntent, some request⟩
        (.observationFailed turn scope request reason)
        ⟨turn, false, .afterObservation, some request⟩
  | continue {turn : Nat} {phase : Phase} {held : Option Request} {state : State}
      (answered : phase ≠ .afterIntent) (fits : turn < lastTurn) :
      Follows scope ⟨turn, false, phase, held⟩ (.transition turn scope (.continue state))
        (.boundary (turn + 1))
  | terminal {turn : Nat} {phase : Phase} {held : Option Request} {step : Step State Result}
      (answered : phase ≠ .afterIntent) (terminal : step.isTerminal) :
      Follows scope ⟨turn, false, phase, held⟩ (.transition turn scope step)
        ⟨turn, true, .freshTurn, none⟩

/-- A stretch of entries that `validate` lets through. -/
inductive Parses (scope : EffectScope) : Validation Request →
    Journal State Result Request Observation → Validation Request → Prop
  | nil {check : Validation Request} : Parses scope check [] check
  | cons {check after last : Validation Request}
      {entry : JournalEntry State Result Request Observation}
      {entries : Journal State Result Request Observation}
      (first : Follows scope check entry after) (rest : Parses scope after entries last) :
      Parses scope check (entry :: entries) last

section Agreement

variable [DecidableEq Request]

variable {scope : EffectScope} {index : Nat}

theorem Follows.checkEntry {check after : Validation Request}
    {entry : JournalEntry State Result Request Observation}
    (follows : Follows scope check entry after) (index : Nat) :
    checkEntry scope index check entry = some (.ok after) := by
  cases follows with
  | intent | observed =>
    simp [ResumableEffects.checkEntry, checkKind, JournalEntry.scope, JournalEntry.turn]
  | observationFailed =>
    simp [ResumableEffects.checkEntry, checkKind, JournalEntry.scope, JournalEntry.turn]
  | «continue» answered fits =>
    simp [ResumableEffects.checkEntry, checkKind, JournalEntry.scope, JournalEntry.turn,
      Step.isTerminal, Validation.boundary, answered, Nat.not_le.mpr fits]
  | terminal answered terminal =>
    simp [ResumableEffects.checkEntry, checkKind, JournalEntry.scope, JournalEntry.turn, answered,
      terminal]

/-- The variables of `validate` after each kind of entry it lets through. -/
theorem follows_of_checkEntry {check after : Validation Request}
    {entry : JournalEntry State Result Request Observation}
    (passed : checkEntry scope index check entry = some (.ok after)) :
    Follows scope check entry after := by
  obtain ⟨turnExpected, terminalSeen, phase, openRequest⟩ := check
  unfold checkEntry at passed
  split_ifs at passed with seen root invocation epoch sequential
  · simp at passed
  · simp at passed
  · simp at passed
  · simp at passed
  · simp at passed
  have inScope : entry.scope = scope := by
    cases same : entry.scope
    cases scope
    simp_all
  obtain rfl : terminalSeen = false := by simpa using seen
  obtain rfl : entry.turn = turnExpected := not_not.mp sequential
  cases entry with
  | intent turn held request =>
    obtain rfl : held = scope := inScope
    simp only [checkKind] at passed
    split_ifs at passed with fresh
    · simp at passed
    · obtain rfl : phase = .freshTurn := not_not.mp fresh
      cases passed
      exact .intent
  | observed turn held request observation | observationFailed turn held request reason =>
    obtain rfl : held = scope := inScope
    simp only [checkKind] at passed
    split_ifs at passed with inPlace same
    · simp at passed
    · simp at passed
    · obtain rfl : phase = .afterIntent := not_not.mp inPlace
      obtain rfl : openRequest = some request := not_not.mp same
      cases passed
      constructor
  | transition turn held step =>
    obtain rfl : held = scope := inScope
    simp only [checkKind] at passed
    split_ifs at passed with unanswered terminal full
    · simp at passed
    · cases passed
      exact .terminal unanswered terminal
    · cases passed
      cases step with
      | «continue» state => exact .continue unanswered (Nat.not_le.mp full)
      | suspend _ | complete _ | fail _ => exact absurd rfl terminal

theorem checkEntry_ok_iff {check after : Validation Request}
    {entry : JournalEntry State Result Request Observation} :
    checkEntry scope index check entry = some (.ok after) ↔ Follows scope check entry after :=
  ⟨follows_of_checkEntry, fun follows => follows.checkEntry index⟩

theorem checkEntries_ok_iff {check last : Validation Request}
    {entries : Journal State Result Request Observation} :
    checkEntries scope index check entries = some (.ok last) ↔ Parses scope check entries last := by
  induction entries generalizing index check with
  | nil =>
    constructor
    · intro passed
      cases passed
      exact .nil
    · rintro ⟨⟩
      rfl
  | cons entry entries ih =>
    unfold checkEntries
    constructor
    · intro passed
      split at passed
      · cases passed
      · cases passed
      · next after checked => exact .cons (checkEntry_ok_iff.mp checked) (ih.mp passed)
    · rintro (_ | ⟨first, rest⟩)
      simp only [checkEntry_ok_iff.mpr first]
      exact ih.mpr rest

theorem validate_ok_iff {journal : Journal State Result Request Observation} :
    Journal.validate journal scope = some (.ok ()) ↔
      ∃ last, Parses scope (.boundary 0) journal last ∧ last.phase ≠ .afterIntent := by
  unfold Journal.validate
  constructor
  · intro admitted
    split at admitted
    · cases admitted
    · cases admitted
    · next last checked =>
        split_ifs at admitted with unterminated
        · simp at admitted
        · exact ⟨last, checkEntries_ok_iff.mp checked, unterminated⟩
  · rintro ⟨last, parses, answered⟩
    have checked : checkEntries scope 0 Validation.start journal = some (.ok last) :=
      checkEntries_ok_iff.mpr parses
    simp only [checked, if_neg answered]

end Agreement

variable {scope : EffectScope} {turn : Nat}

theorem Follows.det {check after after' : Validation Request}
    {entry : JournalEntry State Result Request Observation}
    (first : Follows scope check entry after) (second : Follows scope check entry after') :
    after = after' := by
  classical
  have same := (first.checkEntry 0).symm.trans (second.checkEntry 0)
  simpa using same

theorem Parses.det {check last last' : Validation Request}
    {entries : Journal State Result Request Observation} (first : Parses scope check entries last)
    (second : Parses scope check entries last') : last = last' := by
  induction first with
  | nil =>
    cases second
    rfl
  | cons follows _ ih =>
    cases second with
    | cons follows' rest' =>
      obtain rfl := follows.det follows'
      exact ih rest'

theorem Parses.append {check between last : Validation Request}
    {entries more : Journal State Result Request Observation}
    (first : Parses scope check entries between) (second : Parses scope between more last) :
    Parses scope check (entries ++ more) last := by
  induction first with
  | nil => exact second
  | cons follows _ ih => exact .cons follows (ih second)

theorem Parses.of_append {check last : Validation Request}
    {entries more : Journal State Result Request Observation}
    (parses : Parses scope check (entries ++ more) last) :
    ∃ between, Parses scope check entries between ∧ Parses scope between more last := by
  induction entries generalizing check with
  | nil => exact ⟨check, .nil, parses⟩
  | cons entry entries ih =>
    cases parses with
    | cons follows rest =>
      obtain ⟨between, front, back⟩ := ih rest
      exact ⟨between, .cons follows front, back⟩

theorem Follows.turn_eq {check after : Validation Request}
    {entry : JournalEntry State Result Request Observation}
    (follows : Follows scope check entry after) :
    check.terminalSeen = false ∧ entry.turn = check.turnExpected ∧
      check.turnExpected ≤ after.turnExpected := by
  cases follows with
  | «continue» _ _ => exact ⟨rfl, rfl, Nat.le_succ _⟩
  | intent | observed | observationFailed | terminal _ _ => exact ⟨rfl, rfl, le_rfl⟩

theorem Parses.turn_le {check last : Validation Request}
    {entries : Journal State Result Request Observation} (parses : Parses scope check entries last) :
    check.turnExpected ≤ last.turnExpected ∧
      ∀ entry ∈ entries, check.turnExpected ≤ entry.turn := by
  induction parses with
  | nil => exact ⟨le_rfl, List.forall_mem_nil _⟩
  | cons follows _ ih =>
    obtain ⟨_, same, grows⟩ := follows.turn_eq
    refine ⟨grows.trans ih.1, fun entry member => ?_⟩
    rcases List.mem_cons.mp member with rfl | member
    · exact same.ge
    · exact grows.trans (ih.2 entry member)

/-- The rests of an admitted journal that begin with no complete turn of an intent and its
observation, or of a transition alone. -/
inductive Leftover (scope : EffectScope) (turn : Nat) :
    Journal State Result Request Observation → Prop
  | nothing : Leftover scope turn []
  | unsettled (request : Request) (observation : Observation) :
      Leftover scope turn
        [.intent turn scope request, .observed turn scope request observation]
  | failure (request : Request) (reason : String) :
      Leftover scope turn
        [.intent turn scope request, .observationFailed turn scope request reason]
  | passed (request : Request) (reason : String) (step : Step State Result)
      (tail : Journal State Result Request Observation) :
      Leftover scope turn (.intent turn scope request ::
        .observationFailed turn scope request reason :: .transition turn scope step :: tail)

/-- How the entries from a turn boundary on can begin. -/
inductive Opens (scope : EffectScope) (turn : Nat) :
    Journal State Result Request Observation → Prop
  | bare (step : Step State Result) (tail : Journal State Result Request Observation) :
      Opens scope turn (.transition turn scope step :: tail)
  | effect (request : Request) (observation : Observation) (step : Step State Result)
      (tail : Journal State Result Request Observation) :
      Opens scope turn (.intent turn scope request :: .observed turn scope request observation ::
        .transition turn scope step :: tail)
  | leftover {rest : Journal State Result Request Observation}
      (leftover : Leftover scope turn rest) : Opens scope turn rest

theorem Parses.after_continue {phase : Phase}
    {held : Option Request} {last : Validation Request} {next : State}
    {tail : Journal State Result Request Observation}
    (parses : Parses scope ⟨turn, false, phase, held⟩
      (.transition turn scope (.continue next) :: tail) last) :
    Parses scope (.boundary (turn + 1)) tail last := by
  cases parses with
  | cons follows rest =>
    cases follows with
    | «continue» _ _ => exact rest
    | terminal _ terminal => cases terminal

theorem Parses.after_effect {last : Validation Request}
    {next : State} {request : Request} {observation : Observation}
    {tail : Journal State Result Request Observation}
    (parses : Parses scope (.boundary turn) (.intent turn scope request ::
      .observed turn scope request observation :: .transition turn scope (.continue next) :: tail)
      last) :
    Parses scope (.boundary (turn + 1)) tail last := by
  cases parses with
  | cons first rest =>
    cases first
    cases rest with
    | cons second rest =>
      cases second
      exact rest.after_continue

theorem Parses.after_observation {held : Option Request}
    {last : Validation Request} {entries : Journal State Result Request Observation}
    (parses : Parses scope ⟨turn, false, .afterObservation, held⟩ entries last) :
    entries = [] ∨ ∃ step tail, entries = .transition turn scope step :: tail := by
  cases parses with
  | nil => exact .inl rfl
  | cons follows _ =>
    cases follows with
    | «continue» _ _ => exact .inr ⟨_, _, rfl⟩
    | terminal _ _ => exact .inr ⟨_, _, rfl⟩

/-- **The openings of an admitted rest.** -/
theorem Parses.opens {last : Validation Request}
    {entries : Journal State Result Request Observation}
    (parses : Parses scope (.boundary turn) entries last) (answered : last.phase ≠ .afterIntent) :
    Opens scope turn entries := by
  cases parses with
  | nil => exact .leftover .nothing
  | cons follows rest =>
    cases follows with
    | «continue» _ _ => exact .bare _ _
    | terminal _ _ => exact .bare _ _
    | intent =>
      cases rest with
      | nil => exact absurd rfl answered
      | cons follows rest =>
        cases follows with
        | observed =>
          rcases rest.after_observation with rfl | ⟨step, tail, rfl⟩
          · exact .leftover (.unsettled _ _)
          · exact .effect _ _ _ _
        | observationFailed =>
          rcases rest.after_observation with rfl | ⟨step, tail, rfl⟩
          · exact .leftover (.failure _ _)
          · exact .leftover (.passed _ _ _ _)
        | «continue» unanswered _ => exact absurd rfl unanswered
        | terminal unanswered _ => exact absurd rfl unanswered

end Semaprax.ResumableEffects
