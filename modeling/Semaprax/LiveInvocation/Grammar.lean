/-
**The grammar of journals** (`live_invocation/journal.rs`).

The module says in which order the entries of a turn and the turns of an invocation come; `validate`
decides it with one phase machine.

* `Word.entries` — the words of the grammar: turns that go on, and one that ends. `Word.Formed` has
  them in order; `Word.Lawful` asks for the rest of what is documented.
* `Moves`, `Walks` — the arms of the phase machine as a relation.
* `accepted_iff_sequenced` — `validate` accepts the prefixes of the words that are in order.
* `grammatical_iff` — the documented grammar is accepted up to three kinds of journals: `Overlooked`.
-/

import Semaprax.LiveInvocation.Journal

namespace Semaprax.LiveInvocation

open Library

/-- What came of the request of a turn. -/
inductive Reply
  | responseFailed (failure : String) (attemptedBytes : Nat)
  | proposalRefused (responseDigest : String) (response : Bytes) (reason : String)
  | authorizationRefused (responseDigest : String) (response : Bytes)
      (proposalDigest reason : String)
  | authorizationConsumed (responseDigest : String) (response : Bytes)
      (proposalDigest grantDigest : String)

def Reply.entries (turn : Nat) : Reply → Journal
  | .responseFailed failure attemptedBytes => [JournalEntry.responseFailed turn failure attemptedBytes]
  | .proposalRefused responseDigest response reason =>
    [JournalEntry.responseRecorded turn responseDigest response, .proposalRefused turn reason]
  | .authorizationRefused responseDigest response proposalDigest reason =>
    [JournalEntry.responseRecorded turn responseDigest response, .proposalAdmitted turn proposalDigest,
      .authorizationRefused turn reason]
  | .authorizationConsumed responseDigest response proposalDigest grantDigest =>
    [JournalEntry.responseRecorded turn responseDigest response, .proposalAdmitted turn proposalDigest,
      .authorizationConsumed turn grantDigest]

/-- An effect that was intended, and what came of it. -/
inductive EffectRecord
  | observed (operation requestDigest observationDigest : String)
  | failed (operation requestDigest reason : String)

def EffectRecord.entries (turn : Nat) : EffectRecord → Journal
  | .observed operation requestDigest observationDigest =>
    [JournalEntry.effectIntent turn operation requestDigest,
      .effectObserved turn operation observationDigest]
  | .failed operation requestDigest reason =>
    [JournalEntry.effectIntent turn operation requestDigest, .effectFailed turn operation reason]

/-- A turn up to its transition. -/
structure TurnRecord where
  observationDigest : String
  requestDigest : String
  reservedBudget : I64
  reply : Reply
  effects : List EffectRecord

def TurnRecord.entries (invocation : String) (turn : Nat) (record : TurnRecord) : Journal :=
  .turnOpened turn invocation record.observationDigest ::
    .requestIntent turn record.requestDigest record.reservedBudget ::
      (record.reply.entries turn ++ record.effects.flatMap (EffectRecord.entries turn))

/-- Effects come after a grant only, and none after one that failed. -/
structure TurnRecord.Lawful (record : TurnRecord) : Prop where
  granted : record.effects ≠ [] → ∃ responseDigest response proposalDigest grantDigest,
    record.reply = .authorizationConsumed responseDigest response proposalDigest grantDigest
  stops : ∀ before operation requestDigest reason after,
    record.effects = before ++ .failed operation requestDigest reason :: after → after = []

/-- The turns of an invocation: those that go on, each with the carrier of its transition, and the last
one. -/
structure Word where
  going : List (TurnRecord × String)
  last : TurnRecord
  case : String
  carrierDigest : String
  outcomeCase : String
  outcomeDigest : String

/-- The entries of the turns that go on, numbered from `turn`. -/
def goingEntries (invocation : String) : Nat → List (TurnRecord × String) → Journal
  | _, [] => []
  | turn, (record, carrierDigest) :: going =>
    record.entries invocation turn ++
      .transition turn "continue" carrierDigest :: goingEntries invocation (turn + 1) going

/-- The entries of a word from turn `turn` on. -/
def Word.entriesFrom (invocation : String) (turn : Nat) (word : Word) : Journal :=
  goingEntries invocation turn word.going ++
    (word.last.entries invocation (turn + word.going.length) ++
      [JournalEntry.transition (turn + word.going.length) word.case word.carrierDigest,
        .terminalOutcome (turn + word.going.length) word.outcomeCase word.outcomeDigest])

def Word.entries (invocation : String) (word : Word) : Journal := word.entriesFrom invocation 0

/-- The turns of a word are `u32`, and the last one does not go on. -/
structure Word.Formed (word : Word) : Prop where
  bounded : word.going.length ≤ lastTurn
  ends : word.case ≠ "continue"

/-- A word of the documented grammar. -/
structure Word.Lawful (word : Word) : Prop extends Word.Formed word where
  going : ∀ turn ∈ word.going, turn.1.Lawful
  last : word.last.Lawful
  agrees : word.outcomeCase = word.case

/-- A journal is a part of a word that is in order. -/
def Sequenced (invocation : String) (journal : Journal) : Prop :=
  journal ≠ [] ∧ ∃ word : Word, word.Formed ∧ journal <+: word.entries invocation

/-- A journal is a part of a word of the documented grammar. -/
def Grammatical (invocation : String) (journal : Journal) : Prop :=
  journal ≠ [] ∧ ∃ word : Word, word.Lawful ∧ journal <+: word.entries invocation

/-- What the phase machine takes where, and where it goes on. -/
inductive Moves (invocation : String) : Scan → JournalEntry → Scan → Prop
  | turnOpened {turn : Nat} {pending : Option String} (observationDigest : String) :
      Moves invocation ⟨.needTurnOpened, turn, false, pending⟩
        (.turnOpened turn invocation observationDigest) ⟨.needRequestIntent, turn, false, pending⟩
  | requestIntent {turn : Nat} {pending : Option String} (requestDigest : String)
      (reservedBudget : I64) :
      Moves invocation ⟨.needRequestIntent, turn, false, pending⟩
        (.requestIntent turn requestDigest reservedBudget) ⟨.needResponse, turn, false, pending⟩
  | responseRecorded {turn : Nat} {pending : Option String} (responseDigest : String)
      (response : Bytes) :
      Moves invocation ⟨.needResponse, turn, false, pending⟩
        (.responseRecorded turn responseDigest response) ⟨.needDecode, turn, false, pending⟩
  | responseFailed {turn : Nat} {pending : Option String} (failure : String)
      (attemptedBytes : Nat) :
      Moves invocation ⟨.needResponse, turn, false, pending⟩
        (.responseFailed turn failure attemptedBytes)
        ⟨.needEffectOrTransition, turn, false, pending⟩
  | proposalAdmitted {turn : Nat} {pending : Option String} (proposalDigest : String) :
      Moves invocation ⟨.needDecode, turn, false, pending⟩ (.proposalAdmitted turn proposalDigest)
        ⟨.needAuthorizationConsumed, turn, false, pending⟩
  | proposalRefused {turn : Nat} {pending : Option String} (reason : String) :
      Moves invocation ⟨.needDecode, turn, false, pending⟩ (.proposalRefused turn reason)
        ⟨.needEffectOrTransition, turn, false, pending⟩
  | authorizationConsumed {turn : Nat} {pending : Option String} (grantDigest : String) :
      Moves invocation ⟨.needAuthorizationConsumed, turn, false, pending⟩
        (.authorizationConsumed turn grantDigest) ⟨.needEffectOrTransition, turn, false, pending⟩
  | authorizationRefused {turn : Nat} {pending : Option String} (reason : String) :
      Moves invocation ⟨.needAuthorizationConsumed, turn, false, pending⟩
        (.authorizationRefused turn reason) ⟨.needEffectOrTransition, turn, false, pending⟩
  | effectIntent {turn : Nat} {pending : Option String} (operation requestDigest : String) :
      Moves invocation ⟨.needEffectOrTransition, turn, false, pending⟩
        (.effectIntent turn operation requestDigest)
        ⟨.needEffectObserved, turn, false, some operation⟩
  | effectObserved {turn : Nat} (operation observationDigest : String) :
      Moves invocation ⟨.needEffectObserved, turn, false, some operation⟩
        (.effectObserved turn operation observationDigest)
        ⟨.needEffectOrTransition, turn, false, none⟩
  | effectFailed {turn : Nat} (operation reason : String) :
      Moves invocation ⟨.needEffectObserved, turn, false, some operation⟩
        (.effectFailed turn operation reason) ⟨.needEffectOrTransition, turn, false, none⟩
  | goesOn {turn : Nat} {pending : Option String} (carrierDigest : String)
      (room : turn < lastTurn) :
      Moves invocation ⟨.needEffectOrTransition, turn, false, pending⟩
        (.transition turn "continue" carrierDigest) ⟨.needTurnOpened, turn + 1, false, pending⟩
  | ends {turn : Nat} {pending : Option String} (case carrierDigest : String)
      (other : case ≠ "continue") :
      Moves invocation ⟨.needEffectOrTransition, turn, false, pending⟩
        (.transition turn case carrierDigest) ⟨.needTerminalOutcome, turn, false, pending⟩
  | terminalOutcome {turn : Nat} {pending : Option String} (case carrierDigest : String) :
      Moves invocation ⟨.needTerminalOutcome, turn, false, pending⟩
        (.terminalOutcome turn case carrierDigest) ⟨.needTerminalOutcome, turn, true, pending⟩

/-- The machine takes a list of entries. -/
inductive Walks (invocation : String) : Scan → Journal → Scan → Prop
  | done (scan : Scan) : Walks invocation scan [] scan
  | move {scan next after : Scan} {entry : JournalEntry} {entries : Journal}
      (first : Moves invocation scan entry next) (rest : Walks invocation next entries after) :
      Walks invocation scan (entry :: entries) after

section Machine

variable {invocation : String} {entry : JournalEntry} {scan next after : Scan} {seq : Nat}
  {entries : Journal}

variable {more : Journal}

theorem scanEntry_eq_ok :
    scanEntry invocation seq scan entry = .ok after ↔ Moves invocation scan entry after := by
  constructor
  · intro taken
    obtain ⟨phase, turn, ended, pending⟩ := scan
    unfold scanEntry at taken
    cases ended with
    | true => exact nomatch taken
    | false =>
      rw [if_neg Bool.false_ne_true] at taken
      cases entry
      case turnOpened =>
        dsimp only at taken
        split_ifs at taken with here named same
        cases taken
        obtain rfl := not_not.mp here
        obtain rfl := not_not.mp named
        obtain rfl := not_not.mp same
        exact .turnOpened _
      case effectIntent | terminalOutcome =>
        dsimp only at taken
        split_ifs at taken with here
        cases taken
        obtain ⟨rfl, rfl⟩ := not_or.mp here |>.imp not_not.mp not_not.mp
        constructor
      case effectObserved | effectFailed =>
        dsimp only at taken
        split_ifs at taken with here same
        cases taken
        obtain ⟨rfl, rfl⟩ := not_or.mp here |>.imp not_not.mp not_not.mp
        obtain rfl := not_not.mp same
        constructor
      case transition =>
        dsimp only at taken
        split_ifs at taken with here goes room
        · cases taken
          obtain ⟨rfl, rfl⟩ := not_or.mp here |>.imp not_not.mp not_not.mp
          obtain rfl := goes
          exact .goesOn _ (Nat.lt_of_not_ge room)
        · cases taken
          obtain ⟨rfl, rfl⟩ := not_or.mp here |>.imp not_not.mp not_not.mp
          exact .ends _ _ goes
      all_goals
        cases phase <;> simp only [Phase.step] at taken <;> try cases taken
        split_ifs at taken with same
        cases taken
        obtain rfl := not_not.mp same
        constructor
  · intro moves
    cases moves with
    | goesOn carrierDigest room => simp [scanEntry, Nat.not_le.mpr room]
    | ends case carrierDigest other => simp [scanEntry, other]
    | _ => simp [scanEntry, Phase.step, JournalEntry.turn]

theorem scanFrom_eq_ok :
    scanFrom invocation seq scan entries = .ok after ↔ Walks invocation scan entries after := by
  induction entries generalizing seq scan with
  | nil =>
    constructor
    · intro same
      cases same
      exact .done _
    · intro walks
      cases walks
      rfl
  | cons entry entries ih =>
    unfold scanFrom
    rw [bind_eq_ok]
    constructor
    · rintro ⟨next, taken, rest⟩
      exact .move (scanEntry_eq_ok.mp taken) (ih.mp rest)
    · intro walks
      cases walks with
      | move first rest => exact ⟨_, scanEntry_eq_ok.mpr first, ih.mpr rest⟩

theorem Walks.append (walks : Walks invocation scan entries next)
    (rest : Walks invocation next more after) : Walks invocation scan (entries ++ more) after := by
  induction walks with
  | done scan => exact rest
  | move first _ ih => exact .move first (ih rest)

theorem Walks.split (walks : Walks invocation scan (entries ++ more) after) :
    ∃ next, Walks invocation scan entries next ∧ Walks invocation next more after := by
  induction entries generalizing scan with
  | nil => exact ⟨scan, .done scan, walks⟩
  | cons entry entries ih =>
    cases walks with
    | move first rest =>
      obtain ⟨next, front, back⟩ := ih rest
      exact ⟨next, .move first front, back⟩

end Machine

section Words

variable {invocation : String} {turn : Nat} {pending : Option String} {after : Scan}
  {entries : Journal}

theorem effects_walk (invocation : String) (turn : Nat) (effects : List EffectRecord)
    (pending : Option String) :
    ∃ left, Walks invocation ⟨.needEffectOrTransition, turn, false, pending⟩
      (effects.flatMap (EffectRecord.entries turn))
      ⟨.needEffectOrTransition, turn, false, left⟩ := by
  induction effects generalizing pending with
  | nil => exact ⟨pending, .done _⟩
  | cons effect effects ih =>
    obtain ⟨left, rest⟩ := ih none
    refine ⟨left, ?_⟩
    rw [List.flatMap_cons]
    cases effect with
    | observed operation requestDigest observationDigest =>
      exact .move (.effectIntent _ _) (.move (.effectObserved _ _) rest)
    | failed operation requestDigest reason =>
      exact .move (.effectIntent _ _) (.move (.effectFailed _ _) rest)

theorem reply_walks (reply : Reply) : Walks invocation ⟨.needResponse, turn, false, pending⟩
    (reply.entries turn) ⟨.needEffectOrTransition, turn, false, pending⟩ := by
  cases reply with
  | responseFailed failure attemptedBytes => exact .move (.responseFailed _ _) (.done _)
  | proposalRefused responseDigest response reason =>
    exact .move (.responseRecorded _ _) (.move (.proposalRefused _) (.done _))
  | authorizationRefused responseDigest response proposalDigest reason =>
    exact .move (.responseRecorded _ _) (.move (.proposalAdmitted _)
      (.move (.authorizationRefused _) (.done _)))
  | authorizationConsumed responseDigest response proposalDigest grantDigest =>
    exact .move (.responseRecorded _ _) (.move (.proposalAdmitted _)
      (.move (.authorizationConsumed _) (.done _)))

theorem record_walks (invocation : String) (turn : Nat) (record : TurnRecord)
    (pending : Option String) :
    ∃ left, Walks invocation ⟨.needTurnOpened, turn, false, pending⟩
      (record.entries invocation turn) ⟨.needEffectOrTransition, turn, false, left⟩ := by
  obtain ⟨left, effects⟩ := effects_walk invocation turn record.effects pending
  exact ⟨left, .move (.turnOpened _) (.move (.requestIntent _ _)
    ((reply_walks record.reply).append effects))⟩

theorem going_walks (invocation : String) (going : List (TurnRecord × String)) (pending : Option String)
    (bounded : turn + going.length ≤ lastTurn) :
    ∃ left, Walks invocation ⟨.needTurnOpened, turn, false, pending⟩
      (goingEntries invocation turn going)
      ⟨.needTurnOpened, turn + going.length, false, left⟩ := by
  induction going generalizing turn pending with
  | nil => exact ⟨pending, .done _⟩
  | cons first going ih =>
    obtain ⟨record, carrierDigest⟩ := first
    rw [List.length_cons] at bounded ⊢
    obtain ⟨left, walks⟩ := record_walks invocation turn record pending
    obtain ⟨left', rest⟩ := ih left (show turn + 1 + going.length ≤ lastTurn by omega)
    rw [show turn + (going.length + 1) = turn + 1 + going.length by omega]
    exact ⟨left', walks.append (.move (.goesOn _ (by omega)) rest)⟩

theorem Word.Formed.walks {word : Word} (formed : word.Formed) :
    ∃ after, Walks invocation .start (word.entries invocation) after ∧ after.ended = true := by
  obtain ⟨left, going⟩ := going_walks invocation word.going none
    (show 0 + word.going.length ≤ lastTurn by simpa using formed.bounded)
  obtain ⟨left', record⟩ := record_walks invocation (0 + word.going.length) word.last left
  exact ⟨_, going.append (record.append (.move (.ends _ _ formed.ends)
    (.move (.terminalOutcome _ _) (.done _)))), rfl⟩

theorem walks_effects (walks : Walks invocation
      ⟨.needEffectOrTransition, turn, false, pending⟩ entries after)
    (ended : after.ended = true) :
    ∃ (effects : List EffectRecord) (rest : Journal),
      entries = effects.flatMap (EffectRecord.entries turn) ++ rest ∧
      ((∃ left carrierDigest rest', rest = .transition turn "continue" carrierDigest :: rest' ∧
          turn < lastTurn ∧
          Walks invocation ⟨.needTurnOpened, turn + 1, false, left⟩ rest' after) ∨
        ∃ case carrierDigest outcomeCase outcomeDigest, case ≠ "continue" ∧
          rest = [JournalEntry.transition turn case carrierDigest,
            .terminalOutcome turn outcomeCase outcomeDigest]) := by
  induction long : entries.length using Nat.strong_induction_on generalizing entries pending with
  | _ size ih =>
    cases walks with
    | done => exact nomatch ended
    | move first rest =>
      cases first with
      | effectIntent operation requestDigest =>
        cases rest with
        | done => exact nomatch ended
        | move second rest =>
          rw [List.length_cons, List.length_cons] at long
          cases second with
          | effectObserved _ observationDigest =>
            obtain ⟨effects, back, rfl, finish⟩ := ih _ (by omega) rest rfl
            exact ⟨.observed operation requestDigest observationDigest :: effects, back,
              rfl, finish⟩
          | effectFailed _ reason =>
            obtain ⟨effects, back, rfl, finish⟩ := ih _ (by omega) rest rfl
            exact ⟨.failed operation requestDigest reason :: effects, back, rfl, finish⟩
      | goesOn carrierDigest room => exact ⟨[], _, rfl, .inl ⟨_, _, _, rfl, room, rest⟩⟩
      | ends case carrierDigest other =>
        cases rest with
        | done => exact nomatch ended
        | move second rest =>
          cases second with
          | terminalOutcome outcomeCase outcomeDigest =>
            cases rest with
            | done => exact ⟨[], _, rfl, .inr ⟨_, _, _, _, other, rfl⟩⟩
            | move third _ => exact nomatch third

theorem walks_reply (walks : Walks invocation ⟨.needResponse, turn, false, pending⟩ entries after)
    (ended : after.ended = true) :
    ∃ (reply : Reply) (rest : Journal), entries = reply.entries turn ++ rest ∧
      Walks invocation ⟨.needEffectOrTransition, turn, false, pending⟩ rest after := by
  cases walks with
  | done => exact nomatch ended
  | move first rest =>
    cases first with
    | responseFailed failure attemptedBytes =>
      exact ⟨.responseFailed failure attemptedBytes, _, rfl, rest⟩
    | responseRecorded responseDigest response =>
      cases rest with
      | done => exact nomatch ended
      | move second rest =>
        cases second with
        | proposalRefused reason =>
          exact ⟨.proposalRefused responseDigest response reason, _, rfl, rest⟩
        | proposalAdmitted proposalDigest =>
          cases rest with
          | done => exact nomatch ended
          | move third rest =>
            cases third with
            | authorizationConsumed grantDigest =>
              exact ⟨.authorizationConsumed responseDigest response proposalDigest
                grantDigest, _, rfl, rest⟩
            | authorizationRefused reason =>
              exact ⟨.authorizationRefused responseDigest response proposalDigest
                reason, _, rfl, rest⟩

theorem walks_word (walks : Walks invocation ⟨.needTurnOpened, turn, false, pending⟩ entries after)
    (ended : after.ended = true) (bounded : turn ≤ lastTurn) :
    ∃ word : Word, turn + word.going.length ≤ lastTurn ∧ word.case ≠ "continue" ∧
      entries = word.entriesFrom invocation turn := by
  induction long : entries.length using Nat.strong_induction_on
    generalizing entries pending turn with
  | _ size ih =>
    cases walks with
    | done => exact nomatch ended
    | move first rest =>
      cases first with
      | turnOpened observationDigest =>
        cases rest with
        | done => exact nomatch ended
        | move second rest =>
          cases second with
          | requestIntent requestDigest reservedBudget =>
            obtain ⟨reply, rest', rfl, walks⟩ := walks_reply rest ended
            obtain ⟨effects, back, rfl, finish⟩ := walks_effects walks ended
            rcases finish with ⟨left, carrierDigest, rest, rfl, room, walks⟩ |
              ⟨case, carrierDigest, outcomeCase, outcomeDigest, other, rfl⟩
            · simp only [List.length_cons, List.length_append] at long
              obtain ⟨word, inside, other, rfl⟩ := ih _ (by omega) walks (by omega) rfl
              refine ⟨{ word with
                going := (⟨observationDigest, requestDigest, reservedBudget, reply,
                  effects⟩, carrierDigest) :: word.going }, ?_, other, ?_⟩
              · rw [List.length_cons]
                omega
              · unfold Word.entriesFrom
                rw [List.length_cons,
                  show turn + (word.going.length + 1) = turn + 1 + word.going.length by
                    omega]
                simp [goingEntries, TurnRecord.entries]
            · refine ⟨⟨[], ⟨observationDigest, requestDigest, reservedBudget, reply,
                effects⟩, case, carrierDigest, outcomeCase, outcomeDigest⟩, bounded,
                other, ?_⟩
              simp [Word.entriesFrom, goingEntries, TurnRecord.entries]

def Phase.closing (invocation : String) (turn : Nat) (operation case : String) : Phase → Journal
  | .needTerminalOutcome => [JournalEntry.terminalOutcome turn case ""]
  | .needEffectOrTransition => [JournalEntry.transition turn "" "", .terminalOutcome turn "" ""]
  | .needEffectObserved => .effectObserved turn operation "" ::
      [JournalEntry.transition turn "" "", .terminalOutcome turn "" ""]
  | .needAuthorizationConsumed => .authorizationRefused turn "" ::
      [JournalEntry.transition turn "" "", .terminalOutcome turn "" ""]
  | .needDecode => .proposalRefused turn "" ::
      [JournalEntry.transition turn "" "", .terminalOutcome turn "" ""]
  | .needResponse => .responseFailed turn "" 0 ::
      [JournalEntry.transition turn "" "", .terminalOutcome turn "" ""]
  | .needRequestIntent => .requestIntent turn "" 0 :: .responseFailed turn "" 0 ::
      [JournalEntry.transition turn "" "", .terminalOutcome turn "" ""]
  | .needTurnOpened => .turnOpened turn invocation "" :: .requestIntent turn "" 0 ::
      .responseFailed turn "" 0 :: [JournalEntry.transition turn "" "", .terminalOutcome turn "" ""]

/-- Where the machine can be: within the last turn, with an operation to observe. -/
structure Steady (scan : Scan) : Prop where
  bounded : scan.expectedTurn ≤ lastTurn
  pending : scan.phase = .needEffectObserved → ∃ operation, scan.pendingEffectOperation = some operation

theorem Walks.steady {scan : Scan} (walks : Walks invocation scan entries after)
    (steady : Steady scan) : Steady after := by
  induction walks with
  | done _ => exact steady
  | move first _ ih =>
    refine ih ?_
    cases first with
    | effectIntent operation requestDigest => exact ⟨steady.bounded, fun _ => ⟨operation, rfl⟩⟩
    | goesOn carrierDigest room => exact ⟨room, fun same => nomatch same⟩
    | _ => exact ⟨steady.bounded, fun same => nomatch same⟩

theorem Steady.closes {scan : Scan} (steady : Steady scan) (invocation case : String) :
    scan.ended = true ∨ ∃ operation after, Walks invocation scan
      (scan.phase.closing invocation scan.expectedTurn operation case) after ∧
        after.ended = true := by
  obtain ⟨phase, turn, ended, pending⟩ := scan
  cases ended with
  | true => exact .inl rfl
  | false =>
    right
    have finish (pending : Option String) : Walks invocation
        ⟨.needEffectOrTransition, turn, false, pending⟩
        [JournalEntry.transition turn "" "", .terminalOutcome turn "" ""]
        ⟨.needTerminalOutcome, turn, true, pending⟩ :=
      .move (.ends _ _ (by decide)) (.move (.terminalOutcome _ _) (.done _))
    cases phase with
    | needTerminalOutcome => exact ⟨"", _, .move (.terminalOutcome _ _) (.done _), rfl⟩
    | needEffectOrTransition => exact ⟨"", _, finish _, rfl⟩
    | needEffectObserved =>
      obtain ⟨operation, same⟩ := steady.pending rfl
      cases same
      exact ⟨operation, _, .move (.effectObserved _ _) (finish _), rfl⟩
    | needAuthorizationConsumed => exact ⟨"", _, .move (.authorizationRefused _) (finish _), rfl⟩
    | needDecode => exact ⟨"", _, .move (.proposalRefused _) (finish _), rfl⟩
    | needResponse => exact ⟨"", _, .move (.responseFailed _ _) (finish _), rfl⟩
    | needRequestIntent => exact ⟨"", _, .move (.requestIntent _ _)
        (.move (.responseFailed _ _) (finish _)), rfl⟩
    | needTurnOpened => exact ⟨"", _, .move (.turnOpened _) (.move (.requestIntent _ _)
        (.move (.responseFailed _ _) (finish _))), rfl⟩

theorem Sequenced.walks {journal : Journal} (sequenced : Sequenced invocation journal) :
    ∃ scan, Walks invocation .start journal scan := by
  obtain ⟨-, word, formed, more, same⟩ := sequenced
  obtain ⟨after, walks, -⟩ : ∃ after, Walks invocation .start (word.entries invocation) after ∧ _ :=
    formed.walks
  rw [← same] at walks
  obtain ⟨scan, front, -⟩ := walks.split
  exact ⟨scan, front⟩

theorem Walks.closed {journal : Journal} {scan : Scan}
    (walks : Walks invocation .start journal scan) (case : String) :
    ∃ (word : Word) (closing : Journal), word.Formed ∧ word.entries invocation = journal ++ closing ∧
      (closing = [] ∨ ∃ operation,
        closing = scan.phase.closing invocation scan.expectedTurn operation case) := by
  have steady : Steady scan := walks.steady ⟨Nat.zero_le _, fun same => nomatch same⟩
  rcases steady.closes invocation case with ended | ⟨operation, after, rest, ended⟩
  · obtain ⟨word, bounded, other, same⟩ := walks_word walks ended (Nat.zero_le _)
    exact ⟨word, [], ⟨by simpa using bounded, other⟩,
      by rw [List.append_nil]; exact same.symm, .inl rfl⟩
  · obtain ⟨word, bounded, other, same⟩ := walks_word (walks.append rest) ended (Nat.zero_le _)
    exact ⟨word, _, ⟨by simpa using bounded, other⟩, same.symm, .inr ⟨operation, rfl⟩⟩

/-- **`validate` accepts the journals that are in order.** -/
theorem accepted_iff_sequenced {journal : Journal} :
    Accepted invocation journal ↔ Sequenced invocation journal := by
  rw [accepted_iff]
  constructor
  · rintro ⟨nonempty, scan, scans⟩
    obtain ⟨word, closing, formed, same, -⟩ := (scanFrom_eq_ok.mp scans).closed ""
    exact ⟨nonempty, word, formed, closing, same.symm⟩
  · intro sequenced
    obtain ⟨scan, walks⟩ := sequenced.walks
    exact ⟨sequenced.1, scan, scanFrom_eq_ok.mpr walks⟩

end Words

def JournalEntry.Closes : JournalEntry → Prop
  | .responseFailed .. | .proposalRefused .. | .authorizationRefused .. | .effectFailed .. => True
  | _ => False

def Agrees : JournalEntry → JournalEntry → Prop
  | .transition _ case _, .terminalOutcome _ outcomeCase _ => outcomeCase = case
  | _, _ => True

/-- What goes before each effect intent. -/
def Intents (holds : Journal → Nat → Prop) (journal : Journal) : Prop :=
  ∀ before turn operation requestDigest after,
    journal = before ++ .effectIntent turn operation requestDigest :: after → holds before turn

/-- No entry closed the turn. -/
def StillOpen (before : Journal) (turn : Nat) : Prop :=
  ∀ entry ∈ before, entry.turn = turn → ¬ entry.Closes

def Granted (before : Journal) (turn : Nat) : Prop :=
  ∃ grantDigest, .authorizationConsumed turn grantDigest ∈ before

/-- What the grammar asks for and the machine does not: no effect is intended in a turn that was
closed, and the terminal outcome has the case of its transition. -/
structure Heeded (journal : Journal) : Prop where
  intents : Intents StillOpen journal
  agrees : journal.IsChain Agrees

section Intents

variable {holds : Journal → Nat → Prop} {entry : JournalEntry} {first second : Journal}

theorem intents_nil : Intents holds [] := by
  intro before turn operation requestDigest after split
  simp at split

theorem intents_cons : Intents holds (entry :: second) ↔
    (∀ turn operation requestDigest, entry = .effectIntent turn operation requestDigest →
      holds [] turn) ∧ Intents (fun before => holds (entry :: before)) second := by
  constructor
  · intro intents
    refine ⟨fun turn operation requestDigest same => ?_,
      fun before turn operation requestDigest after split => ?_⟩
    · exact intents [] turn operation requestDigest second (by rw [same]; rfl)
    · exact intents (entry :: before) turn operation requestDigest after (by rw [split]; rfl)
  · rintro ⟨head, rest⟩ before turn operation requestDigest after split
    cases before with
    | nil =>
      obtain ⟨rfl, -⟩ := List.cons.inj split
      exact head turn operation requestDigest rfl
    | cons other before =>
      obtain ⟨rfl, tail⟩ := List.cons.inj split
      exact rest before turn operation requestDigest after tail

theorem intents_append : Intents holds (first ++ second) ↔
    Intents holds first ∧ Intents (fun before => holds (first ++ before)) second := by
  induction first generalizing holds with
  | nil => exact ⟨fun intents => ⟨intents_nil, intents⟩, And.right⟩
  | cons entry first ih => rw [List.cons_append, intents_cons, intents_cons, ih, and_assoc]; rfl

theorem Intents.imp {holds' : Journal → Nat → Prop} {journal : Journal}
    (intents : Intents holds journal) (weaker : ∀ before turn, holds before turn → holds' before turn) :
    Intents holds' journal :=
  fun before turn operation requestDigest after split =>
    weaker before turn (intents before turn operation requestDigest after split)

theorem intents_of_none {journal : Journal}
    (none : ∀ turn operation requestDigest, .effectIntent turn operation requestDigest ∉ journal) :
    Intents holds journal := by
  intro before turn operation requestDigest after split
  exact absurd (by rw [split]; simp) (none turn operation requestDigest)

end Intents

section Lawful

variable {invocation : String} {turn : Nat} {record : TurnRecord} {word : Word}

/-- No entry closed the turn, and a grant was consumed in it. -/
def MayIntend (before : Journal) (turn : Nat) : Prop := StillOpen before turn ∧ Granted before turn

variable {before : Journal} {going : List (TurnRecord × String)}

theorem StillOpen.append {first second : Journal} (left : StillOpen first turn)
    (right : StillOpen second turn) : StillOpen (first ++ second) turn := by
  intro entry member
  exact (List.mem_append.mp member).elim (left entry) (right entry)

theorem effects_intents {effects : List EffectRecord}
    (stops : ∀ front operation requestDigest reason back,
      effects = front ++ .failed operation requestDigest reason :: back → back = [])
    (permitted : MayIntend before turn) :
    Intents (fun middle => MayIntend (before ++ middle))
      (effects.flatMap (EffectRecord.entries turn)) := by
  induction effects generalizing before with
  | nil => exact intents_nil
  | cons effect effects ih =>
    have stops' : ∀ front operation requestDigest reason back,
        effects = front ++ .failed operation requestDigest reason :: back → back = [] :=
      fun front operation requestDigest reason back split =>
        stops (effect :: front) operation requestDigest reason back (by rw [split]; rfl)
    have here : MayIntend (before ++ []) turn := by rwa [List.append_nil]
    rw [List.flatMap_cons, intents_append]
    cases effect with
    | observed operation requestDigest observationDigest =>
      refine ⟨?_, ?_⟩
      · refine intents_cons.mpr ⟨fun other _ _ same => ?_, intents_of_none (by simp)⟩
        cases same
        exact here
      · have still : MayIntend (before ++ [JournalEntry.effectIntent turn operation requestDigest,
            .effectObserved turn operation observationDigest]) turn := by
          obtain ⟨grantDigest, member⟩ := permitted.2
          exact ⟨permitted.1.append (by simp [StillOpen, JournalEntry.Closes]), grantDigest,
            List.mem_append_left _ member⟩
        simpa only [EffectRecord.entries, List.append_assoc] using ih stops' still
    | failed operation requestDigest reason =>
      obtain rfl := stops [] operation requestDigest reason effects rfl
      refine ⟨?_, intents_nil⟩
      refine intents_cons.mpr ⟨fun other _ _ same => ?_, intents_of_none (by simp)⟩
      cases same
      exact here

theorem reply_silent (reply : Reply) :
    ∀ other operation requestDigest, .effectIntent other operation requestDigest ∉
      reply.entries turn := by
  intro other operation requestDigest member
  cases reply <;> simp [Reply.entries] at member

theorem TurnRecord.Lawful.intents (lawful : record.Lawful) (fresh : StillOpen before turn) :
    Intents (fun middle => MayIntend (before ++ middle)) (record.entries invocation turn) := by
  unfold TurnRecord.entries
  refine intents_cons.mpr ⟨fun _ _ _ same => (nomatch same), ?_⟩
  refine intents_cons.mpr ⟨fun _ _ _ same => (nomatch same), ?_⟩
  rw [intents_append]
  refine ⟨intents_of_none (reply_silent _), ?_⟩
  by_cases empty : record.effects = []
  · rw [empty]
    exact intents_nil
  · obtain ⟨responseDigest, response, proposalDigest, grantDigest, same⟩ := lawful.granted empty
    have permitted : MayIntend (before ++ .turnOpened turn invocation record.observationDigest ::
        .requestIntent turn record.requestDigest record.reservedBudget ::
          record.reply.entries turn) turn := by
      rw [same]
      refine ⟨fresh.append ?_, grantDigest, ?_⟩
      · simp [StillOpen, Reply.entries, JournalEntry.Closes]
      · simp [Reply.entries]
    simpa only [List.append_assoc, List.cons_append] using effects_intents lawful.stops permitted

theorem record_turns : ∀ entry ∈ record.entries invocation turn, entry.turn = turn := by
  intro entry member
  simp only [TurnRecord.entries, List.mem_cons, List.mem_append, List.mem_flatMap] at member
  rcases member with rfl | rfl | reply | ⟨effect, -, member⟩
  · rfl
  · rfl
  · cases same : record.reply <;> rw [same] at reply <;>
      simp only [Reply.entries, List.mem_cons, List.not_mem_nil, or_false] at reply
    · rw [reply]
      rfl
    · rcases reply with rfl | rfl <;> rfl
    · rcases reply with rfl | rfl | rfl <;> rfl
    · rcases reply with rfl | rfl | rfl <;> rfl
  · cases effect <;> simp only [EffectRecord.entries, List.mem_cons, List.not_mem_nil,
      or_false] at member <;> rcases member with rfl | rfl <;> rfl

theorem going_turns :
    ∀ entry ∈ goingEntries invocation turn going, entry.turn < turn + going.length := by
  induction going generalizing turn with
  | nil => exact List.forall_mem_nil _
  | cons first going ih =>
    intro entry member
    rw [List.length_cons]
    simp only [goingEntries, List.mem_append, List.mem_cons] at member
    rcases member with here | rfl | later
    · rw [record_turns entry here]
      omega
    · show turn < _
      omega
    · have := ih entry later
      omega

theorem going_intents
    (lawful : ∀ turn ∈ going, turn.1.Lawful) (earlier : ∀ entry ∈ before, entry.turn < turn) :
    Intents (fun middle => MayIntend (before ++ middle)) (goingEntries invocation turn going) := by
  induction going generalizing turn before with
  | nil => exact intents_nil
  | cons first going ih =>
    have fresh : StillOpen before turn := fun entry member same =>
      absurd same (earlier entry member).ne
    unfold goingEntries
    rw [intents_append]
    refine ⟨(lawful first List.mem_cons_self).intents fresh, ?_⟩
    refine intents_cons.mpr ⟨fun _ _ _ same => (nomatch same), ?_⟩
    have earlier' : ∀ entry ∈ before ++ (first.1.entries invocation turn ++
        [JournalEntry.transition turn "continue" first.2]), entry.turn < turn + 1 := by
      intro entry member
      simp only [List.mem_append, List.mem_singleton] at member
      rcases member with old | here | rfl
      · exact Nat.lt_succ_of_lt (earlier entry old)
      · exact Nat.lt_succ_of_le (record_turns entry here).le
      · exact Nat.lt_succ_self turn
    have goes := ih (fun other member => lawful other (List.mem_cons_of_mem _ member)) earlier'
    simpa only [List.append_assoc, List.cons_append, List.nil_append] using goes

theorem Word.Lawful.intents (lawful : word.Lawful) :
    Intents MayIntend (word.entries invocation) := by
  unfold Word.entries Word.entriesFrom
  rw [intents_append, intents_append]
  refine ⟨?_, ?_, intents_of_none (by simp)⟩
  · have none : ∀ entry ∈ ([] : Journal), entry.turn < 0 := fun entry member =>
      absurd member List.not_mem_nil
    exact going_intents lawful.going none
  · refine lawful.last.intents fun entry member same => ?_
    exact absurd same (going_turns entry member).ne

theorem agrees_of_none {journal : Journal}
    (none : ∀ turn case carrierDigest, .terminalOutcome turn case carrierDigest ∉ journal) :
    journal.IsChain Agrees := by
  refine (List.pairwise_of_forall_mem_list fun first _ second member => ?_).isChain
  cases second with
  | terminalOutcome turn case carrierDigest => exact absurd member (none turn case carrierDigest)
  | _ => cases first <;> trivial

theorem record_silent : ∀ other case carrierDigest,
    .terminalOutcome other case carrierDigest ∉ record.entries invocation turn := by
  intro other case carrierDigest member
  simp only [TurnRecord.entries, List.mem_cons, reduceCtorEq, List.mem_append, List.mem_flatMap,
    false_or] at member
  rcases member with reply | ⟨effect, -, member⟩
  · cases same : record.reply <;> rw [same] at reply <;> simp [Reply.entries] at reply
  · cases effect <;> simp [EffectRecord.entries] at member

theorem going_silent : ∀ other case carrierDigest,
    .terminalOutcome other case carrierDigest ∉ goingEntries invocation turn going := by
  induction going generalizing turn with
  | nil => exact fun _ _ _ member => absurd member List.not_mem_nil
  | cons first going ih =>
    intro other case carrierDigest member
    simp only [goingEntries, List.mem_append, List.mem_cons, reduceCtorEq, false_or] at member
    rcases member with here | later
    · exact record_silent _ _ _ here
    · exact ih _ _ _ later

theorem Word.agrees_iff : (word.entries invocation).IsChain Agrees ↔
    word.outcomeCase = word.case := by
  unfold Word.entries Word.entriesFrom
  rw [← List.append_assoc]
  constructor
  · intro agrees
    exact (List.isChain_cons_cons.mp agrees.right_of_append).1
  · intro same
    refine List.isChain_append.mpr ⟨?_, ?_, ?_⟩
    · refine agrees_of_none fun other case carrierDigest member => ?_
      rcases List.mem_append.mp member with earlier | here
      · exact going_silent _ _ _ earlier
      · exact record_silent _ _ _ here
    · exact List.isChain_cons_cons.mpr ⟨same, List.isChain_singleton _⟩
    · intro last _ head isHead
      obtain rfl := Option.some.inj isHead
      cases last <;> trivial

theorem lawful_of_intents (intents : Intents (fun middle => StillOpen (before ++ middle))
      (record.entries invocation turn)) : record.Lawful := by
  unfold TurnRecord.entries at intents
  have later := (intents_cons.mp (intents_cons.mp intents).2).2
  rw [intents_append] at later
  have effects := later.2
  constructor
  · intro nonempty
    obtain ⟨effect, effects', same⟩ := List.exists_cons_of_ne_nil nonempty
    rw [same, List.flatMap_cons, intents_append] at effects
    have first : StillOpen (before ++ .turnOpened turn invocation record.observationDigest ::
        .requestIntent turn record.requestDigest record.reservedBudget ::
          (record.reply.entries turn ++ [])) turn := by
      cases effect with
      | observed operation requestDigest observationDigest =>
        exact (intents_cons.mp effects.1).1 _ _ _ rfl
      | failed operation requestDigest reason => exact (intents_cons.mp effects.1).1 _ _ _ rfl
    rw [List.append_nil] at first
    cases reply : record.reply with
    | authorizationConsumed responseDigest response proposalDigest grantDigest =>
      exact ⟨_, _, _, _, rfl⟩
    | responseFailed failure attemptedBytes =>
      exact absurd trivial (first (.responseFailed turn failure attemptedBytes)
        (by simp [reply, Reply.entries]) rfl)
    | proposalRefused responseDigest response reason =>
      exact absurd trivial (first (.proposalRefused turn reason)
        (by simp [reply, Reply.entries]) rfl)
    | authorizationRefused responseDigest response proposalDigest reason =>
      exact absurd trivial (first (.authorizationRefused turn reason)
        (by simp [reply, Reply.entries]) rfl)
  · intro front operation requestDigest reason back split
    cases back with
    | nil => rfl
    | cons effect back =>
      rw [split, List.flatMap_append, List.flatMap_cons, List.flatMap_cons, intents_append,
        intents_append, intents_append] at effects
      -- the failure comes before the next intent
      obtain ⟨-, -, next, -⟩ := effects
      have closed : ∀ middle : Journal, StillOpen middle turn →
          .effectFailed turn operation reason ∉ middle := fun middle still member =>
        absurd trivial (still _ member rfl)
      cases effect with
      | observed operation' requestDigest' observationDigest
      | failed operation' requestDigest' reason' =>
        have still := (intents_cons.mp next).1 _ _ _ rfl
        exact absurd (by simp [EffectRecord.entries]) (closed _ still)

theorem going_lawful (intents : Intents (fun middle => StillOpen (before ++ middle))
      (goingEntries invocation turn going)) : ∀ turn ∈ going, turn.1.Lawful := by
  induction going generalizing turn before with
  | nil => exact List.forall_mem_nil _
  | cons first going ih =>
    unfold goingEntries at intents
    rw [intents_append] at intents
    intro other member
    rcases List.mem_cons.mp member with rfl | member
    · exact lawful_of_intents intents.1
    · have later := (intents_cons.mp intents.2).2
      have later : Intents (fun middle => StillOpen (before ++ (first.1.entries invocation turn ++
          [JournalEntry.transition turn "continue" first.2]) ++ middle))
          (goingEntries invocation (turn + 1) going) := by
        simpa only [List.append_assoc, List.cons_append, List.nil_append] using later
      exact ih later other member

theorem Word.Formed.lawful (formed : word.Formed) (heeded : Heeded (word.entries invocation)) :
    word.Lawful := by
  have intents := heeded.intents
  unfold Word.entries Word.entriesFrom at intents
  rw [intents_append, intents_append] at intents
  have going : Intents (fun middle => StillOpen ([] ++ middle))
      (goingEntries invocation 0 word.going) := intents.1
  exact ⟨formed, going_lawful going, lawful_of_intents intents.2.1,
    Word.agrees_iff.mp heeded.agrees⟩

theorem Word.Lawful.heeded (lawful : word.Lawful) : Heeded (word.entries invocation) :=
  ⟨lawful.intents.imp fun _ _ => And.left, Word.agrees_iff.mpr lawful.agrees⟩

end Lawful

section Documented

variable {invocation : String} {journal : Journal}

theorem Phase.closing_silent (phase : Phase) (turn : Nat) (operation case : String) :
    ∀ other intended requestDigest, .effectIntent other intended requestDigest ∉
      phase.closing invocation turn operation case := by
  intro other intended requestDigest member
  cases phase <;> simp [Phase.closing] at member

def lastCase (journal : Journal) : String :=
  match journal.getLast? with
  | some (.transition _ case _) => case
  | _ => ""

theorem Phase.closing_agrees (phase : Phase) (turn : Nat) (operation : String)
    (agrees : journal.IsChain Agrees) :
    (journal ++ phase.closing invocation turn operation (lastCase journal)).IsChain Agrees := by
  refine List.isChain_append.mpr ⟨agrees, ?_, fun last isLast head isHead => ?_⟩
  · cases phase <;> simp [Phase.closing, Agrees]
  · cases phase <;> simp only [Phase.closing, List.head?_cons, Option.mem_some] at isHead <;>
      obtain rfl := isHead
    case needTerminalOutcome =>
      cases last <;> try trivial
      show lastCase journal = _
      unfold lastCase
      rw [isLast]
    all_goals cases last <;> trivial

theorem Sequenced.grammatical (sequenced : Sequenced invocation journal) (heeded : Heeded journal) :
    Grammatical invocation journal := by
  obtain ⟨scan, walks⟩ := sequenced.walks
  obtain ⟨word, closing, formed, same, closes⟩ := walks.closed (lastCase journal)
  suffices heeded : Heeded (word.entries invocation) from
    ⟨sequenced.1, word, formed.lawful heeded, closing, same.symm⟩
  rw [same]
  rcases closes with rfl | ⟨operation, rfl⟩
  · rwa [List.append_nil]
  · refine ⟨intents_append.mpr ⟨heeded.intents, ?_⟩, Phase.closing_agrees _ _ _ heeded.agrees⟩
    exact intents_of_none (Phase.closing_silent _ _ _ _)

theorem Grammatical.heeded (grammatical : Grammatical invocation journal) :
    Sequenced invocation journal ∧ Heeded journal ∧ Intents Granted journal := by
  obtain ⟨nonempty, word, lawful, rest, same⟩ := grammatical
  have heeded : Heeded (word.entries invocation) := lawful.heeded
  have intents : Intents MayIntend (word.entries invocation) := lawful.intents
  rw [← same] at heeded intents
  exact ⟨⟨nonempty, word, lawful.toFormed, rest, same⟩,
    ⟨(intents_append.mp heeded.intents).1, heeded.agrees.left_of_append⟩,
    (intents_append.mp intents).1.imp fun _ _ => And.right⟩

/-- **`validate` decides the documented grammar up to what it overlooks.** It accepts a journal
exactly if that is a part of a word of the grammar, and then only intends effects that were granted,
if and only if the journal is not one that is in order with an effect intended in a turn that was
closed, or with a terminal outcome of another case than its transition. -/
theorem grammatical_iff (invocation : String) (journal : Journal) :
    ((Accepted invocation journal ↔ Grammatical invocation journal) ∧
      (Accepted invocation journal → Intents Granted journal)) ↔
        (Sequenced invocation journal → Heeded journal) := by
  rw [accepted_iff_sequenced]
  constructor
  · rintro ⟨exactly, -⟩ sequenced
    exact (exactly.mp sequenced).heeded.2.1
  · intro heeds
    refine ⟨⟨fun sequenced => sequenced.grammatical (heeds sequenced), fun grammatical =>
      grammatical.heeded.1⟩, fun sequenced => ?_⟩
    exact (sequenced.grammatical (heeds sequenced)).heeded.2.2

/-- A turn whose response failed, with an effect. -/
def ungrantedJournal : Journal :=
  [JournalEntry.turnOpened 0 "i" "o", .requestIntent 0 "r" 0, .responseFailed 0 "timeout" 0,
    .effectIntent 0 "send" "e"]

/-- It is accepted, and no word of the grammar starts like it. -/
theorem grammar_overlooked : ¬ ∀ (invocation : String) (journal : Journal),
    (Accepted invocation journal ↔ Grammatical invocation journal) ∧
      (Accepted invocation journal → Intents Granted journal) := by
  intro claimed
  have accepted : Accepted "i" ungrantedJournal := by
    refine accepted_iff.mpr ⟨by decide, ?_⟩
    exact ⟨⟨.needEffectObserved, 0, false, some "send"⟩, by unfold Scans; decide⟩
  have grammatical := (claimed "i" ungrantedJournal).1.mp accepted
  obtain ⟨grantDigest, member⟩ := grammatical.heeded.2.2
    [JournalEntry.turnOpened 0 "i" "o", .requestIntent 0 "r" 0, .responseFailed 0 "timeout" 0]
    0 "send" "e" []
    rfl
  simp at member

end Documented

end Semaprax.LiveInvocation
