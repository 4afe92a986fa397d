/-
**Programs that share a world.**

A program asks a world one question at a time, and other programs change the world between its
questions. Programs are opened at any time and go on in any order, and any of them may stop for good
between two questions.

* `Flow` — a program as the tree of its questions; `Act` — a part of one, over a state.
* `Sharing` — what a world answers and which programs it runs; `Sharing.move` is one move.
* `Terms` — what is asked of a world and of its changes, and the tokens that programs hold: a token is
  issued to one program, and no other program spends it.
* `Flow.Keeps`, `Act.Keeps` — a program keeps the terms, whatever the others do between its
  questions, and ends well.
* `reached_keeps` — if every program that is opened keeps the terms, they hold in every world reached.
* `Flow.settle`, `Act.against` — a program that is alone, with a world whose answers are fixed.
-/

import Semaprax.Library.Programs
import Semaprax.Library.Reachability

namespace Library

/-- A program that asks questions in `Q`, answered in `R`, and ends with a value. -/
inductive Flow (Q : Type) (R : Q → Type) (A : Type) : Type
  | done (value : A)
  | ask (question : Q) (next : R question → Flow Q R A)

/-- A part of a program, over a state; it may stop early. -/
def Act (Q : Type) (R : Q → Type) (S X A : Type) : Type := S → Flow Q R (Except X A × S)

section Programs

variable {Q : Type} {R : Q → Type} {S X A B C : Type}

/-- Go on with the value of a program. -/
def Flow.bind : Flow Q R A → (A → Flow Q R B) → Flow Q R B
  | .done value, rest => rest value
  | .ask question next, rest => .ask question fun answer => (next answer).bind rest

/-- The value of a program that is alone with fixed answers. -/
def Flow.settle (answer : (question : Q) → R question) : Flow Q R A → A
  | .done value => value
  | .ask question next => (next (answer question)).settle answer

instance : Monad (Act Q R S X) where
  pure value := fun state => .done (.ok value, state)
  bind act rest := fun state => (act state).bind fun
    | (.ok value, state) => rest value state
    | (.error reason, state) => .done (.error reason, state)

namespace Act

/-- A program that asks nothing. -/
def of (program : Prog S X A) : Act Q R S X A := fun state => .done (program state)

def ask (question : S → Q) (change : (state : S) → R (question state) → Except X A × S) :
    Act Q R S X A := fun state => .ask (question state) fun answer => .done (change state answer)

/-- A part of a program that is alone with fixed answers. -/
def against (answer : (question : Q) → R question) (act : Act Q R S X A) : Prog S X A :=
  fun state => (act state).settle answer

end Act

variable {answer : (question : Q) → R question}

theorem Flow.settle_bind (flow : Flow Q R A) (rest : A → Flow Q R B) :
    (flow.bind rest).settle answer = (rest (flow.settle answer)).settle answer := by
  induction flow with
  | done value => rfl
  | ask question next ih => exact ih (answer question)

@[simp]
theorem Act.against_of (program : Prog S X A) :
    (Act.of program : Act Q R S X A).against answer = program := rfl

@[simp]
theorem Act.against_bind (act : Act Q R S X B) (rest : B → Act Q R S X A) :
    (act >>= rest).against answer = act.against answer >>= fun value => (rest value).against answer := by
  funext state
  show ((act state).bind _).settle answer = _
  rw [Flow.settle_bind]
  simp only [Act.against, Bind.bind]
  cases (act state).settle answer with
  | mk outcome after => cases outcome <;> rfl

section Keeps

variable {W Choice T : Type}

/-- What worlds answer, when a world is good, which worlds may follow another, and which tokens are
issued and spent in a world. -/
structure Terms (W Q : Type) (R : Q → Type) (Choice T : Type) where
  answers : W → (question : Q) → Choice → Option (W × R question)
  Good : W → Prop
  Later : W → W → Prop
  Issued : W → T → Prop
  Spent : W → T → Prop
  later_refl : ∀ world, Later world world
  later_trans : ∀ {first second third}, Later first second → Later second third → Later first third
  issued_later : ∀ {first second token}, Later first second → Issued first token →
    Issued second token

namespace Terms

variable (terms : Terms W Q R Choice T)

/-- What the others may do to the world of a program that holds a token: they do not spend it. -/
def Leaves (held : Option T) (world found : W) : Prop :=
  terms.Later world found ∧ ∀ token, held = some token → terms.Spent found token →
    terms.Spent world token

/-- What a program that holds a token may do: it spends no other, and another one that it holds
afterwards has been issued to it. -/
structure Takes (held : Option T) (found after : W) (held' : Option T) : Prop where
  good : terms.Good after
  later : terms.Later found after
  spends : ∀ token, terms.Spent after token → terms.Spent found token ∨ held = some token
  issued : ∀ token, held' = some token → held = some token ∨
    ¬terms.Issued found token ∧ terms.Issued after token

end Terms

variable (terms : Terms W Q R Choice T)

/-- Whatever the others leave to a program, each of its questions keeps the terms, and it ends in
`ends`. -/
def Flow.Keeps (ends : A → Option T → W → Prop) : Flow Q R A → Option T → W → Prop
  | .done value, held, world => ends value held world
  | .ask question next, held, world =>
    ∀ found, terms.Leaves held world found → terms.Good found → ∀ choice after answer,
      terms.answers found question choice = some (after, answer) →
        ∃ held', terms.Takes held found after held' ∧ (next answer).Keeps ends held' after

/-- A part of a program keeps the terms, and ends in `ends` or stops in `stops`. -/
def Act.Keeps (act : Act Q R S X A) (ends : A → S → Option T → W → Prop)
    (stops : X → S → Option T → W → Prop) (state : S) (held : Option T) (world : W) : Prop :=
  (act state).Keeps terms (fun outcome held world =>
    match outcome with
    | (.ok value, after) => ends value after held world
    | (.error reason, after) => stops reason after held world) held world

variable {terms} {world found : W} {held : Option T}

theorem Terms.Leaves.trans {middle : W} (first : terms.Leaves held world middle)
    (second : terms.Leaves held middle found) : terms.Leaves held world found :=
  ⟨terms.later_trans first.1 second.1,
    fun token holds spent => first.2 token holds (second.2 token holds spent)⟩

theorem Flow.keeps_bind {flow : Flow Q R A} {rest : A → Flow Q R B}
    {ends : B → Option T → W → Prop} : (flow.bind rest).Keeps terms ends held world ↔
      flow.Keeps terms (fun value => (rest value).Keeps terms ends) held world := by
  induction flow generalizing held world with
  | done value => exact Iff.rfl
  | ask question next ih =>
    simp only [Flow.bind, Flow.Keeps, ih]

theorem Flow.Keeps.mono {flow : Flow Q R A} {ends ends' : A → Option T → W → Prop}
    (keeps : flow.Keeps terms ends held world)
    (weaker : ∀ value held world, ends value held world → ends' value held world) :
    flow.Keeps terms ends' held world := by
  induction flow generalizing held world with
  | done value => exact weaker value held world keeps
  | ask question next ih =>
    intro found leaves good choice after answer answered
    obtain ⟨held', takes, goes⟩ := keeps found leaves good choice after answer answered
    exact ⟨held', takes, ih answer goes⟩

theorem Flow.Keeps.later {flow : Flow Q R A} {ends : A → Option T → W → Prop}
    (lasts : ∀ value held world found, ends value held world → terms.Later world found →
      terms.Good found → ends value held found)
    (keeps : flow.Keeps terms ends held world) (leaves : terms.Leaves held world found)
    (good : terms.Good found) : flow.Keeps terms ends held found := by
  cases flow with
  | done value => exact lasts value held world found keeps leaves.1 good
  | ask question next => exact fun found' leaves' good' => keeps found' (leaves.trans leaves') good'

namespace Act

variable {state : S} {stops : X → S → Option T → W → Prop}

@[simp]
theorem keeps_bind (act : Act Q R S X B) (rest : B → Act Q R S X A)
    {ends : A → S → Option T → W → Prop} :
    (act >>= rest).Keeps terms ends stops state held world ↔
      act.Keeps terms (fun value => (rest value).Keeps terms ends stops) stops state held world := by
  show ((act state).bind _).Keeps terms _ held world ↔ _
  rw [Flow.keeps_bind]
  unfold Act.Keeps
  refine ⟨fun keeps => keeps.mono fun outcome held world kept => ?_,
    fun keeps => keeps.mono fun outcome held world kept => ?_⟩
  · obtain ⟨outcome, after⟩ := outcome
    cases outcome <;> exact kept
  · obtain ⟨outcome, after⟩ := outcome
    cases outcome <;> exact kept

@[simp]
theorem keeps_of (program : Prog S X A) {ends : A → S → Option T → W → Prop} :
    (of program : Act Q R S X A).Keeps terms ends stops state held world ↔
      program.wp (fun value after => ends value after held world)
        (fun reason after => stops reason after held world) state := by
  cases ran : program state with
  | mk outcome after => cases outcome <;> simp [Act.Keeps, of, Prog.wp, Flow.Keeps, ran]

theorem Keeps.mono {act : Act Q R S X A} {ends ends' : A → S → Option T → W → Prop}
    {stops' : X → S → Option T → W → Prop} (keeps : act.Keeps terms ends stops state held world)
    (ending : ∀ value after held world, ends value after held world → ends' value after held world)
    (stopping : ∀ reason after held world, stops reason after held world →
      stops' reason after held world) : act.Keeps terms ends' stops' state held world := by
  refine Flow.Keeps.mono keeps fun outcome held world kept => ?_
  obtain ⟨outcome, after⟩ := outcome
  cases outcome with
  | ok value => exact ending value after held world kept
  | error reason => exact stopping reason after held world kept

end Act

end Keeps

end Programs

/-- What a world answers, and which programs are opened on it and go on from an end. -/
structure Sharing (W Q : Type) (R : Q → Type) (A Opening Request Choice : Type) where
  opens : W → Opening → Option (W × Flow Q R A)
  resumes : W → A → Request → Option (W × Flow Q R A)
  answers : W → (question : Q) → Choice → Option (W × R question)

/-- A world and the programs on it, other than those that have stopped. -/
structure Shared (W Q : Type) (R : Q → Type) (A : Type) where
  world : W
  flows : List (Option (Flow Q R A))

/-- Open a program, go on with one that has ended, answer the question of one, or stop one. -/
inductive Move (Opening Request Choice : Type)
  | opens (opening : Opening)
  | resumes (place : Nat) (request : Request)
  | answers (place : Nat) (choice : Choice)
  | stops (place : Nat)

namespace Sharing

variable {W Q : Type} {R : Q → Type} {A Opening Request Choice : Type}
  (sharing : Sharing W Q R A Opening Request Choice)

def move (shared : Shared W Q R A) : Move Opening Request Choice → Option (Shared W Q R A)
  | .opens opening =>
    (sharing.opens shared.world opening).map fun (world, flow) =>
      ⟨world, shared.flows ++ [some flow]⟩
  | .resumes place request =>
    match shared.flows[place]? with
    | some (some (.done value)) =>
      (sharing.resumes shared.world value request).map fun (world, flow) =>
        ⟨world, shared.flows.set place (some flow)⟩
    | _ => none
  | .answers place choice =>
    match shared.flows[place]? with
    | some (some (.ask question next)) =>
      (sharing.answers shared.world question choice).map fun (world, answer) =>
        ⟨world, shared.flows.set place (some (next answer))⟩
    | _ => none
  | .stops place => some ⟨shared.world, shared.flows.set place none⟩

def run (shared : Shared W Q R A) (moves : List (Move Opening Request Choice)) :
    Option (Shared W Q R A) := moves.foldlM sharing.move shared

def Reached (world : W) : Shared W Q R A → Prop :=
  Reaches (· = ⟨world, []⟩) fun before after => ∃ move, sharing.move before move = some after

variable {sharing} {world : W}

theorem reached_run {moves : List (Move Opening Request Choice)} {before after : Shared W Q R A}
    (reached : sharing.Reached world before) (ran : sharing.run before moves = some after) :
    sharing.Reached world after := by
  induction moves generalizing before with
  | nil =>
    obtain rfl := Option.some.inj ran
    exact reached
  | cons move moves ih =>
    unfold run at ran
    rw [List.foldlM_cons] at ran
    obtain ⟨next, moved, others⟩ := Option.bind_eq_some_iff.mp ran
    exact ih (reached.step ⟨move, moved⟩) others

section Keeps

variable {T : Type} {terms : Terms W Q R Choice T} {ends : A → Option T → W → Prop}
  {shared : Shared W Q R A} {tokens : Nat → Option T}

/-- The programs on a world and the tokens that they hold: they keep the terms, every token is issued,
and no two programs hold one. -/
structure Held (terms : Terms W Q R Choice T) (ends : A → Option T → W → Prop)
    (shared : Shared W Q R A) (tokens : Nat → Option T) : Prop where
  good : terms.Good shared.world
  keeps : ∀ (place : Nat) (flow : Flow Q R A), shared.flows[place]? = some (some flow) →
    flow.Keeps terms ends (tokens place) shared.world
  issued : ∀ place token, tokens place = some token → terms.Issued shared.world token
  apart : ∀ place other token, tokens place = some token → tokens other = some token →
    place = other

/-- What the others keep when one program has moved. -/
theorem Held.moved (holds : Held terms ends shared tokens)
    (lasts : ∀ value held world found, ends value held world → terms.Later world found →
      terms.Good found → ends value held found)
    {place : Nat} {after : W} {held' : Option T} {flows : List (Option (Flow Q R A))}
    (takes : terms.Takes (tokens place) shared.world after held')
    (others : ∀ (other : Nat) (flow : Flow Q R A), other ≠ place →
      flows[other]? = some (some flow) → shared.flows[other]? = some (some flow))
    (moved : ∀ flow : Flow Q R A, flows[place]? = some (some flow) → flow.Keeps terms ends held' after) :
    Held terms ends ⟨after, flows⟩ (Function.update tokens place held') := by
  refine ⟨takes.good, fun other flow there => ?_, fun other token => ?_,
    fun first second token => ?_⟩
  · by_cases same : other = place
    · subst same
      rw [Function.update_self]
      exact moved flow there
    · rw [Function.update_of_ne same]
      have before := holds.keeps other flow (others other flow same there)
      refine before.later lasts ⟨takes.later, fun token holding spent => ?_⟩ takes.good
      refine (takes.spends token spent).resolve_right fun spender => same ?_
      exact holds.apart other place token holding spender
  · by_cases same : other = place
    · subst same
      rw [Function.update_self]
      intro holding
      rcases takes.issued token holding with kept | ⟨_, fresh⟩
      · exact terms.issued_later takes.later (holds.issued other token kept)
      · exact fresh
    · rw [Function.update_of_ne same]
      exact fun holding => terms.issued_later takes.later (holds.issued other token holding)
  · -- a token that is issued anew is held by no other program
    have alone {other : Nat} (different : other ≠ place) (holding : tokens other = some token)
        (mine : held' = some token) : False := by
      rcases takes.issued token mine with kept | ⟨fresh, _⟩
      · exact different (holds.apart other place token holding kept)
      · exact fresh (holds.issued other token holding)
    by_cases one : first = place
    · by_cases two : second = place
      · exact fun _ _ => one.trans two.symm
      · rw [one, Function.update_self, Function.update_of_ne two]
        exact fun mine holding => (alone two holding mine).elim
    · by_cases two : second = place
      · rw [two, Function.update_self, Function.update_of_ne one]
        exact fun holding mine => (alone one holding mine).elim
      · rw [Function.update_of_ne one, Function.update_of_ne two]
        exact holds.apart first second token

/-- If every program that is opened, or goes on, keeps the terms, then so do all the programs in
every world that is reached. -/
theorem reached_keeps (terms : Terms W Q R Choice T) {ends : A → Option T → W → Prop}
    (same : terms.answers = sharing.answers) (start : terms.Good world)
    (lasts : ∀ value held world found, ends value held world → terms.Later world found →
      terms.Good found → ends value held found)
    (opening : ∀ world opening after flow, terms.Good world →
      sharing.opens world opening = some (after, flow) →
        terms.Takes none world after none ∧ flow.Keeps terms ends none after)
    (resuming : ∀ world value held request after flow, terms.Good world → ends value held world →
      sharing.resumes world value request = some (after, flow) →
        terms.Takes none world after none ∧ flow.Keeps terms ends none after)
    {shared : Shared W Q R A} (reached : sharing.Reached world shared) :
    ∃ tokens, Held terms ends shared tokens := by
  refine reached.invariant (P := fun shared => ∃ tokens, Held terms ends shared tokens) ?_ ?_
  · rintro _ rfl
    exact ⟨fun _ => none, start, fun _ _ there => absurd there (by simp),
      fun _ _ holding => absurd holding (by simp), fun _ _ _ holding => absurd holding (by simp)⟩
  rintro before after ⟨tokens, holds⟩ ⟨move, moved⟩
  have elsewhere {place : Nat} {next : Option (Flow Q R A)} (other : Nat) (flow : Flow Q R A)
      (different : other ≠ place) (there : (before.flows.set place next)[other]? = some (some flow)) :
      before.flows[other]? = some (some flow) := by
    rwa [List.getElem?_set_ne (Ne.symm different)] at there
  have here {place : Nat} {next : Flow Q R A} {flow : Flow Q R A}
      (there : (before.flows.set place (some next))[place]? = some (some flow)) : flow = next := by
    rw [List.getElem?_set_self'] at there
    cases found : before.flows[place]? with
    | none =>
      rw [found] at there
      cases there
    | some old =>
      rw [found] at there
      exact (Option.some.inj (Option.some.inj there)).symm
  -- a program that goes on, or is opened, holds no token before
  have dropped (place : Nat) {after : W} (takes : terms.Takes none before.world after none) :
      terms.Takes (tokens place) before.world after none :=
    ⟨takes.good, takes.later, fun token spent => .inl ((takes.spends token spent).resolve_right
      (fun none_held => by simp at none_held)), fun _ held => by simp at held⟩
  cases move with
  | opens opening' =>
    obtain ⟨⟨found, flow⟩, opened, rfl⟩ := Option.map_eq_some_iff.mp moved
    obtain ⟨takes, kept⟩ := opening _ _ _ _ holds.good opened
    refine ⟨_, holds.moved lasts (dropped before.flows.length takes) ?_ ?_⟩
    · intro other old different there
      rw [List.getElem?_append] at there
      split_ifs at there with short
      · exact there
      · rw [List.getElem?_singleton, if_neg (by omega)] at there
        cases there
    · intro other there
      rw [List.getElem?_concat_length] at there
      obtain rfl := Option.some.inj (Option.some.inj there)
      exact kept
  | resumes place request =>
    simp only [Sharing.move] at moved
    split at moved
    · rename_i value there
      obtain ⟨⟨found, flow⟩, resumed, rfl⟩ := Option.map_eq_some_iff.mp moved
      obtain ⟨takes, kept⟩ := resuming _ _ _ _ _ _ holds.good (holds.keeps _ _ there) resumed
      refine ⟨_, holds.moved lasts (dropped place takes) elsewhere fun other there => ?_⟩
      rw [here there]
      exact kept
    · cases moved
  | answers place choice =>
    simp only [Sharing.move] at moved
    split at moved
    · rename_i question next there
      obtain ⟨⟨found, answer⟩, answered, rfl⟩ := Option.map_eq_some_iff.mp moved
      rw [← same] at answered
      obtain ⟨held', takes, kept⟩ := holds.keeps _ _ there before.world
        ⟨terms.later_refl _, fun _ _ => id⟩ holds.good choice found answer answered
      refine ⟨_, holds.moved lasts takes elsewhere fun other there => ?_⟩
      rw [here there]
      exact kept
    · cases moved
  | stops place =>
    obtain rfl := Option.some.inj moved
    have still : terms.Takes (tokens place) before.world before.world none :=
      ⟨holds.good, terms.later_refl _, fun _ => .inl, fun _ held => by simp at held⟩
    refine ⟨_, holds.moved lasts still elsewhere fun flow there => ?_⟩
    rw [List.getElem?_set_self'] at there
    cases found : before.flows[place]? with
    | none | some old =>
      rw [found] at there
      cases there

end Keeps

end Sharing

end Library
