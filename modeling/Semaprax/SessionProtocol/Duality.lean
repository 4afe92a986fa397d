/-
**Two-party compatibility** (`session_protocol/duality.rs`).

`checkDuality` compares the transitions of two declarations pair by pair, by state and label: each
needs a counterpart of a complementary kind with the same payload tag and capability. It compares
neither the initial states, nor the terminal states, nor where a transition leads.

* `Pair.mirror` — a move of one side, mirrored on the other when the first side grants it.
* `Side.advance_cases` / `Side.advance_admitted` — what a move does to a side that stands at a state
  after so many moves.
* `lockstep_iff` — two accepted, dual declarations run in lockstep exactly when what the check does
  not compare agrees as well, along the moves of the first.
-/

import Semaprax.Library.Reachability
import Semaprax.SessionProtocol.Engine
import Semaprax.SessionProtocol.Validation

namespace Semaprax.SessionProtocol

open Library

/-- Why two declarations failed the check. -/
inductive DualityError
  | missingCounterpart (state : StateId) (label : Label)
  | kindNotComplementary (state : StateId) (label : Label) (a b : Kind)
  | payloadDivergence (state : StateId) (label : Label) (a b : String)
  | capabilityDivergence (state : StateId) (label : Label) (a b : Option String)
deriving DecidableEq, Repr

/-- The kinds of the two ends of one message. -/
def complementary : Kind → Kind → Bool
  | .send, .receive | .receive, .send | .call, .return | .return, .call => true
  | a, b => a = b && a.isEscape

/-- The transition indexed under a state and a label (`index_b`): a later one replaces an earlier. -/
def ProtocolSpec.indexed (spec : ProtocolSpec) (state : StateId) (label : Label) :
    Option Transition :=
  spec.transitions.reverse.find? fun transition =>
    transition.source = state ∧ transition.label = label

/-- The divergences of a transition from its counterpart in `b`. -/
def divergences (b : ProtocolSpec) (ta : Transition) : List DualityError :=
  match b.indexed ta.source ta.label with
  | none => [.missingCounterpart ta.source ta.label]
  | some tb =>
    (if complementary ta.kind tb.kind then []
      else [.kindNotComplementary ta.source ta.label ta.kind tb.kind]) ++
    (if ta.payloadType = tb.payloadType then []
      else [.payloadDivergence ta.source ta.label ta.payloadType tb.payloadType]) ++
    (if ta.requiredCapability = tb.requiredCapability then []
      else [.capabilityDivergence ta.source ta.label ta.requiredCapability tb.requiredCapability])

def checkDualityOneWay (a b : ProtocolSpec) : Except (List DualityError) Unit :=
  let errors := a.transitions.flatMap (divergences b)
  if errors.isEmpty then .ok () else .error errors

/-- The errors of a check, none if it succeeded. -/
def errorsOf {E : Type} : Except (List E) Unit → List E
  | .ok () => []
  | .error errors => errors

/-- The check in both directions. -/
def checkDuality (a b : ProtocolSpec) : Except (List DualityError) Unit :=
  let errors := errorsOf (checkDualityOneWay a b) ++ errorsOf (checkDualityOneWay b a)
  if errors.isEmpty then .ok () else .error errors

variable {H : Type*}

/-- One side: its table, the endpoint it holds of its session, and its handlers' state. -/
structure Side (H : Type*) where
  table : SessionTable
  endpoint : Endpoint
  handlerState : H

/-- A side with one session opened in an empty table. -/
def Side.start (spec : ProtocolSpec) (sessionId : String) (handlerState : H) : Side H where
  table := ((SessionTable.new spec).open sessionId).2
  endpoint := ⟨sessionId, spec.initial, 0, spec.terminal.contains spec.initial⟩
  handlerState

/-- Attempt one operation on a side: the refusal, if there is one, and the side with the endpoint
handed back. -/
def Side.advance (side : Side H) (operation : Operation) (handler : CleanupHandler H) :
    Option (Option ProtocolError × Side H) :=
  (side.table.advance side.endpoint operation handler side.handlerState).map
    fun (reply, table, handlerState) =>
      (match reply with
        | .error (error, _) => some error
        | .ok _ => none,
      ⟨table, reply.endpoint, handlerState⟩)

/-- The state and the closed flag of a side's record. -/
def Side.status (side : Side H) : Option (StateId × Bool) :=
  side.table.records[side.endpoint.sessionId]?.map fun record => (record.state, record.closed)

/-- The two sides. -/
structure Pair (H : Type*) where
  a : Side H
  b : Side H

/-- A move: an operation of the first side, the resource token that the second side presents when it
mirrors the rest of it, and the two cleanup handlers. -/
structure Move (H : Type*) where
  operation : Operation
  mirroredToken : Option ResourceToken
  handlerA : CleanupHandler H
  handlerB : CleanupHandler H

/-- What the second side is asked to do: the same label, payload tag, capability and choice. -/
def Move.mirrored (move : Move H) : Operation :=
  { move.operation with resourceToken := move.mirroredToken }

/-- Make a move on the first side and, if it is granted, on the second: the second side's refusal, if
there is one, and the two sides. -/
def Pair.mirror (pair : Pair H) (move : Move H) : Option (Option ProtocolError × Pair H) :=
  match pair.a.advance move.operation move.handlerA with
  | none => none
  | some (some _, a) => some (none, { pair with a })
  | some (none, a) =>
    match pair.b.advance move.mirrored move.handlerB with
    | none => none
    | some (refusal, b) => some (refusal, ⟨a, b⟩)

/-- The refusals that lockstep rules out; the others are about the resource a side presents. -/
def ProtocolError.Diverges : ProtocolError → Bool
  | .illegalTransition .. | .payloadTypeMismatch .. | .missingAuthority ..
  | .unknownBranchChoice .. => true
  | _ => false

/-- The two sides are in one state, and one is terminal exactly when the other is. -/
def Pair.InStep (pair : Pair H) : Prop := pair.a.status = pair.b.status
deriving Decidable

/-- The sides are in step before and after every mirrored move, and the second side never refuses one
for a diverging declaration. A refusal over a resource token ends the run, and so does a panic. -/
def Pair.Lockstep (pair : Pair H) : List (Move H) → Prop
  | [] => pair.InStep
  | move :: moves => pair.InStep ∧
      match pair.mirror move with
      | none => True
      | some (none, next) => next.Lockstep moves
      | some (some error, _) => error.Diverges = false

instance Pair.decidableLockstep (pair : Pair H) (moves : List (Move H)) :
    Decidable (pair.Lockstep moves) :=
  match moves with
  | [] => inferInstanceAs (Decidable pair.InStep)
  | move :: moves =>
    have : Decidable (match pair.mirror move with
        | none => True
        | some (none, next) => next.Lockstep moves
        | some (some error, _) => error.Diverges = false) :=
      match pair.mirror move with
      | none => inferInstanceAs (Decidable True)
      | some (none, next) => next.decidableLockstep moves
      | some (some error, _) => inferInstanceAs (Decidable (error.Diverges = false))
    inferInstanceAs (Decidable (_ ∧ _))

def Next.select : Next → Option Label → Option StateId
  | .then target, _ => some target
  | .choice _, none => none
  | .choice choices, some chosen => (choices.find? (·.1 = chosen)).map (·.2)

/-- A declared transition leads from one state to another. -/
def ProtocolSpec.Follows (spec : ProtocolSpec) (source target : StateId) : Prop :=
  ∃ transition ∈ spec.transitions, transition.source = source ∧
    ∃ choice, transition.next.select choice = some target

/-- The state is reached by so many declared transitions. -/
def ProtocolSpec.ReachesIn (spec : ProtocolSpec) : Nat → StateId → Prop :=
  Library.ReachesIn (· = spec.initial) spec.Follows

/-- What two dual declarations have to agree on besides: the initial state, and, in the states that
the first reaches within the range of the generation, being terminal and where a choice leads. -/
structure Continues (a b : ProtocolSpec) : Prop where
  initial : a.initial = b.initial
  terminal : ∀ n state, a.ReachesIn n state → n ≤ lastGeneration →
    (state ∈ a.terminal ↔ state ∈ b.terminal)
  next : ∀ n state, a.ReachesIn n state → n < lastGeneration →
    ∀ ta ∈ a.transitions, ta.source = state →
    ∀ tb ∈ b.transitions, tb.source = state → tb.label = ta.label →
    ∀ choice target, ta.next.select choice = some target → tb.next.select choice = some target

variable {state target : StateId} {transition : Transition} {operation : Operation}
variable {spec : ProtocolSpec} {n : Nat}

theorem selectTarget_eq (sessionId : String) (state : StateId) (transition : Transition)
    (operation : Operation) :
    selectTarget sessionId state transition operation =
      match transition.next.select operation.branchChoice with
      | some target => .ok target
      | none => .error
          (.unknownBranchChoice sessionId state operation.label operation.branchChoice) := by
  unfold selectTarget
  cases transition.next with
  | «then» target => rfl
  | choice choices =>
    cases operation.branchChoice with
    | none => rfl
    | some chosen =>
      simp only [Next.select]
      cases choices.find? (·.1 = chosen) <;> rfl

theorem selectTarget_ok {sessionId : String} :
    selectTarget sessionId state transition operation = .ok target ↔
      transition.next.select operation.branchChoice = some target := by
  rw [selectTarget_eq]
  cases transition.next.select operation.branchChoice <;> simp

/-- A side stands at `state` after `n` moves: its record does, and its endpoint is current. -/
structure Side.At (spec : ProtocolSpec) (n : Nat) (state : StateId) (side : Side H) : Prop where
  ofSpec : side.table.spec = spec
  record : ∃ pending closed, side.table.records[side.endpoint.sessionId]? =
    some ⟨state, n, pending, closed⟩ ∧ (closed = true ↔ state ∈ spec.terminal)
  current : side.endpoint.generation = n

theorem Side.start_at (spec : ProtocolSpec) (sessionId : String) (handlerState : H) :
    (Side.start spec sessionId handlerState).At spec 0 spec.initial where
  ofSpec := rfl
  record := by
    refine ⟨none, spec.terminal.contains spec.initial, ?_, Iff.rfl⟩
    show ((SessionTable.new spec).records.insert sessionId _)[sessionId]? = _
    rw [BTreeMap.getElem?_insert_eq, if_pos rfl]
    rfl
  current := rfl

theorem Side.At.status {side : Side H}
    (stands : side.At spec n state) : side.status = some (state, decide (state ∈ spec.terminal)) := by
  obtain ⟨pending, closed, known, terminal⟩ := stands.record
  unfold Side.status
  rw [known, Option.map_some]
  congr 2
  exact (Bool.eq_iff_iff.mpr (terminal.trans (decide_eq_true_iff).symm))

/-- What the checks of a side that stands at `state` established of a granted operation. -/
structure Granted (side : Side H) (spec : ProtocolSpec) (n : Nat) (state : StateId)
    (operation : Operation) (transition : Transition) (target : StateId) : Prop where
  live : state ∉ spec.terminal
  counts : n < lastGeneration
  found : (spec.transitionsFrom state).find? (·.label = operation.label) = some transition
  payload : transition.payloadType = operation.payloadType
  authorized : checkCapability side.endpoint.sessionId transition operation = .ok ()
  owned : side.table.checkOwnership side.endpoint.sessionId transition operation = .ok ()
  selected : transition.next.select operation.branchChoice = some target

theorem Side.At.advance_cases {side next : Side H} {handler : CleanupHandler H}
    {refusal : Option ProtocolError} (stands : side.At spec n state)
    (advanced : side.advance operation handler = some (refusal, next)) :
    ((∃ error, refusal = some error) ∧ next.At spec n state) ∨
    (refusal = none ∧ ∃ transition target,
      Granted side spec n state operation transition target ∧ next.At spec (n + 1) target) := by
  obtain ⟨rfl, ⟨pending, closed, known, terminal⟩, current⟩ := stands
  obtain ⟨⟨reply, table, handlerState⟩, returned, produced⟩ := Option.map_eq_some_iff.mp advanced
  have exists' : side.table.currentGeneration side.endpoint.sessionId ≠ none := by
    rw [SessionTable.currentGeneration, known]
    exact Option.some_ne_none _
  obtain ⟨same, isCurrent, _⟩ := SessionTable.advance_current exists' returned
  cases produced
  rcases SessionTable.advance_cases returned with ⟨refused, rfl, rfl, rfl⟩ |
    ⟨record, transition, target, outcome, took, rfl, rfl, _, _⟩
  · refine .inl ⟨⟨refused.1, rfl⟩, rfl, ⟨pending, closed, ?_, terminal⟩, ?_⟩
    · rw [same]
      exact known
    · unfold SessionTable.Current at isCurrent
      rw [same, SessionTable.currentGeneration, known] at isCurrent
      exact (Option.some.inj isCurrent).symm
  · obtain rfl := Option.some.inj (took.known.symm.trans known)
    have live : state ∉ side.table.spec.terminal := by
      rw [← terminal, show closed = false from took.live]
      exact Bool.false_ne_true
    have moved : (side.table.commit side.endpoint.sessionId ⟨state, n, pending, closed⟩ transition
        target operation).records[side.endpoint.sessionId]? =
          some (SessionRecord.moveTo ⟨state, n, pending, closed⟩ transition operation.label target
            (side.table.spec.terminal.contains target)) := by
      show (side.table.records.insert _ _)[side.endpoint.sessionId]? = _
      rw [BTreeMap.getElem?_insert_eq, if_pos rfl]
    refine .inr ⟨rfl, transition, target, ⟨live, took.counts, took.found, took.payload,
      took.authorized, took.owned, selectTarget_ok.mp took.selected⟩, rfl, ?_, ?_⟩
    · rw [same]
      exact ⟨_, _, moved, Iff.rfl⟩
    · unfold SessionTable.Current at isCurrent
      rw [same, SessionTable.commit_generation, if_pos rfl] at isCurrent
      exact (Option.some.inj isCurrent).symm

theorem Side.At.advance_admit {side : Side H}
    (operation : Operation) (handler : CleanupHandler H) (stands : side.At spec n state)
    (live : state ∉ spec.terminal) (counts : n < lastGeneration) :
    ∃ next, side.advance operation handler =
      some (match side.table.admit side.endpoint.sessionId state operation with
        | .error error => some error
        | .ok _ => none, next) := by
  obtain ⟨rfl, ⟨pending, closed, known, terminal⟩, rfl⟩ := stands
  have isLive : closed = false := by
    cases closed with
    | false => rfl
    | true => exact absurd (terminal.mp rfl) live
  subst isLive
  unfold Side.advance SessionTable.advance
  simp only [known, Bool.false_eq_true, if_false, ne_eq, not_true_eq_false]
  cases side.table.admit side.endpoint.sessionId state operation with
  | error error => exact ⟨_, rfl⟩
  | ok taken =>
    simp only [if_neg (not_le.mpr counts)]
    split_ifs
    · exact ⟨_, rfl⟩
    · exact ⟨_, rfl⟩

theorem Side.At.grant {side : Side H} (handler : CleanupHandler H)
    (stands : side.At spec n state) (live : state ∉ spec.terminal) (counts : n < lastGeneration)
    (admits : side.table.admit side.endpoint.sessionId state operation = .ok (transition, target)) :
    ∃ next, side.advance operation handler = some (none, next) ∧ next.At spec (n + 1) target := by
  obtain ⟨next, advanced⟩ := stands.advance_admit operation handler live counts
  simp only [admits] at advanced
  refine ⟨next, advanced, ?_⟩
  rcases stands.advance_cases advanced with ⟨⟨_, refused⟩, _⟩ | ⟨_, taken, target', granted, moved⟩
  · cases refused
  obtain ⟨found, _, _, _, selected⟩ := SessionTable.admit_ok.mp admits
  rw [stands.ofSpec] at found
  obtain rfl : transition = taken := Option.some.inj (found.symm.trans granted.found)
  rw [selectTarget_ok] at selected
  obtain rfl : target = target' := Option.some.inj (selected.symm.trans granted.selected)
  exact moved

section Dual

variable {a b : ProtocolSpec}

variable {state target : StateId} {transition ta : Transition} {sessionId : String}
variable {operation : Operation} {table : SessionTable} {n : Nat}

theorem indexed_declared {label : Label} (found : b.indexed state label = some transition) :
    transition ∈ b.transitions ∧ transition.source = state ∧ transition.label = label := by
  unfold ProtocolSpec.indexed at found
  refine ⟨List.mem_reverse.mp (List.mem_of_find?_eq_some found), ?_⟩
  simpa using List.find?_some found

theorem checkDuality_counterpart (dual : checkDuality a b = .ok ()) (member : ta ∈ a.transitions) :
    ∃ tb ∈ b.transitions, tb.source = ta.source ∧ tb.label = ta.label ∧
      ta.payloadType = tb.payloadType ∧ ta.requiredCapability = tb.requiredCapability := by
  have clean : errorsOf (checkDualityOneWay a b) = [] := by
    unfold checkDuality at dual
    simp only at dual
    split_ifs at dual with empty
    exact (List.append_eq_nil_iff.mp (List.isEmpty_iff.mp empty)).1
  have none : a.transitions.flatMap (divergences b) = [] := by
    unfold checkDualityOneWay at clean
    simp only at clean
    split_ifs at clean with empty
    · exact List.isEmpty_iff.mp empty
    · exact clean
  have agrees := List.flatMap_eq_nil_iff.mp none ta member
  unfold divergences at agrees
  cases found : b.indexed ta.source ta.label with
  | none =>
    simp only [found] at agrees
    cases agrees
  | some tb =>
    simp only [found, List.append_eq_nil_iff] at agrees
    obtain ⟨⟨_, payload⟩, capability⟩ := agrees
    obtain ⟨declared, source, label⟩ := indexed_declared found
    refine ⟨tb, declared, source, label, ?_, ?_⟩
    · by_contra differ
      exact nomatch (if_neg differ).symm.trans payload
    · by_contra differ
      exact nomatch (if_neg differ).symm.trans capability

theorem checkCapability_ok : checkCapability sessionId transition operation = .ok () ↔
      ∀ required, transition.requiredCapability = some required →
        operation.presentedCapability = some required := by
  unfold checkCapability
  cases transition.requiredCapability with
  | none => simp
  | some required =>
    by_cases presented : operation.presentedCapability = some required <;> simp [presented]

theorem checkOwnership_error {error : ProtocolError}
    (refused : table.checkOwnership sessionId transition operation = .error error) :
    error.Diverges = false := by
  unfold SessionTable.checkOwnership at refused
  cases owns : transition.ownership with
  | none =>
    simp only [owns] at refused
    cases refused
  | consumesResource =>
    simp only [owns] at refused
    cases presented : operation.resourceToken with
    | none =>
      simp only [presented] at refused
      cases refused
      rfl
    | some token =>
      simp only [presented] at refused
      split_ifs at refused
      cases refused
      rfl

theorem checkOwnership_fresh {token : String}
    (fresh : token ∉ table.consumedTokens) (transition : Transition)
    (presented : operation.resourceToken = some ⟨token⟩) :
    table.checkOwnership sessionId transition operation = .ok () := by
  unfold SessionTable.checkOwnership
  cases transition.ownership with
  | none => rfl
  | consumesResource =>
    simp only [presented]
    exact if_neg fresh

/-- What the second side makes of an operation with the payload tag and the capability of a
transition it declares: it is refused over its resource token, or over its choice, or admitted. -/
theorem admit_declared (valid : b.Valid) (ofSpec : table.spec = b)
    {tb : Transition} (declared : tb ∈ b.transitions)
    (label : tb.label = operation.label) (payload : tb.payloadType = operation.payloadType)
    (authorized : checkCapability sessionId tb operation = .ok ()) :
    table.admit sessionId tb.source operation =
      match table.checkOwnership sessionId tb operation with
      | .error error => .error error
      | .ok () =>
        match tb.next.select operation.branchChoice with
        | some target => .ok (tb, target)
        | none => .error (.unknownBranchChoice sessionId tb.source operation.label
            operation.branchChoice) := by
  have found := valid.find_transition declared
  rw [label, ← ofSpec] at found
  unfold SessionTable.admit
  simp only [found, payload, ne_eq, not_true_eq_false, if_false, authorized]
  cases table.checkOwnership sessionId tb operation with
  | error error => rfl
  | ok passed =>
    simp only [selectTarget_eq]
    cases tb.next.select operation.branchChoice <;> rfl

theorem Granted.counterpart {side : Side H} {move : Move H} (dual : checkDuality a b = .ok ())
    (granted : Granted side a n state move.operation ta target) (sessionId : String) :
    ∃ tb ∈ b.transitions, tb.source = state ∧ tb.label = ta.label ∧
      tb.label = move.mirrored.label ∧ tb.payloadType = move.mirrored.payloadType ∧
      checkCapability sessionId tb move.mirrored = .ok () := by
  obtain ⟨member, source, label⟩ := ProtocolSpec.find_transition_declared granted.found
  obtain ⟨tb, declared, sourced, labelled, payload, capability⟩ :=
    checkDuality_counterpart dual member
  refine ⟨tb, declared, sourced.trans source, labelled, labelled.trans label,
    payload.symm.trans granted.payload, checkCapability_ok.mpr ?_⟩
  rw [← capability]
  exact checkCapability_ok.mp granted.authorized

/-- Both sides stand at `state` after `n` moves. -/
structure Pair.At (a b : ProtocolSpec) (n : Nat) (state : StateId) (pair : Pair H) : Prop where
  a : pair.a.At a n state
  b : pair.b.At b n state

theorem Pair.At.inStep {pair : Pair H} (stand : pair.At a b n state)
    (terminal : state ∈ a.terminal ↔ state ∈ b.terminal) : pair.InStep := by
  unfold Pair.InStep
  rw [stand.a.status, stand.b.status, decide_eq_decide.mpr terminal]

/-- **One mirrored move of declarations that agree.** A move that the first side grants leads both
sides to one next state, unless the second side refuses it over its resource token. -/
theorem Pair.At.mirror {pair : Pair H} {move : Move H}
    {mirrored : Option ProtocolError × Pair H} (validB : b.Valid)
    (dual : checkDuality a b = .ok ()) (stand : pair.At a b n state)
    (terminal : state ∈ a.terminal ↔ state ∈ b.terminal)
    (agree : n < lastGeneration → ∀ ta ∈ a.transitions, ta.source = state →
      ∀ tb ∈ b.transitions, tb.source = state → tb.label = ta.label →
      ∀ choice target, ta.next.select choice = some target → tb.next.select choice = some target)
    (made : pair.mirror move = some mirrored) :
    (mirrored.1 = none ∧ mirrored.2.At a b n state) ∨
    (mirrored.1 = none ∧ n < lastGeneration ∧ ∃ target, a.Follows state target ∧
      mirrored.2.At a b (n + 1) target) ∨
    ∃ error, mirrored.1 = some error ∧ error.Diverges = false := by
  unfold Pair.mirror at made
  cases advancedA : pair.a.advance move.operation move.handlerA with
  | none =>
    simp only [advancedA] at made
    cases made
  | some outcome =>
  obtain ⟨refusal, sideA⟩ := outcome
  simp only [advancedA] at made
  rcases stand.a.advance_cases advancedA with ⟨⟨error, rfl⟩, stays⟩ |
    ⟨rfl, ta, target, granted, moved⟩
  · cases made
    exact .inl ⟨rfl, stays, stand.b⟩
  obtain ⟨member, source, label⟩ := ProtocolSpec.find_transition_declared granted.found
  have follows : a.Follows state target := ⟨ta, member, source, _, granted.selected⟩
  obtain ⟨tb, declared, sourced, labelled, asked, payload, authorized⟩ :=
    granted.counterpart dual pair.b.endpoint.sessionId
  have selected : tb.next.select move.mirrored.branchChoice = some target :=
    agree granted.counts ta member source tb declared sourced labelled _ _ granted.selected
  have liveB : state ∉ b.terminal := fun inB => granted.live (terminal.mpr inB)
  have admits := admit_declared validB stand.b.ofSpec declared asked payload authorized
  rw [sourced] at admits
  cases owned : pair.b.table.checkOwnership pair.b.endpoint.sessionId tb move.mirrored with
  | error error =>
    simp only [owned] at admits
    obtain ⟨sideB, advancedB⟩ :=
      stand.b.advance_admit move.mirrored move.handlerB liveB granted.counts
    simp only [admits] at advancedB
    simp only [advancedB] at made
    cases made
    exact .inr (.inr ⟨error, rfl, checkOwnership_error owned⟩)
  | ok passed =>
    simp only [owned, selected] at admits
    obtain ⟨sideB, advancedB, movedB⟩ := stand.b.grant move.handlerB liveB granted.counts admits
    simp only [advancedB] at made
    cases made
    exact .inr (.inl ⟨rfl, granted.counts, target, follows, moved, movedB⟩)

theorem Pair.At.lockstep {pair : Pair H} (validB : b.Valid)
    (dual : checkDuality a b = .ok ()) (continues : Continues a b)
    (stand : pair.At a b n state) (reached : a.ReachesIn n state) (within : n ≤ lastGeneration)
    (moves : List (Move H)) : pair.Lockstep moves := by
  induction moves generalizing n state pair with
  | nil => exact stand.inStep (continues.terminal n state reached within)
  | cons move moves ih =>
    have terminal := continues.terminal n state reached within
    refine ⟨stand.inStep terminal, ?_⟩
    cases made : pair.mirror move with
    | none => trivial
    | some mirrored =>
      obtain ⟨refusal, next⟩ := mirrored
      rcases stand.mirror validB dual terminal (continues.next n state reached) made with
        ⟨granted, stays⟩ | ⟨granted, counts, target, follows, moved⟩ | ⟨error, refused, spares⟩
      · obtain rfl : refusal = none := granted
        exact ih stays reached within
      · obtain rfl : refusal = none := granted
        exact ih moved (.step reached follows) counts
      · obtain rfl : refusal = some error := refused
        exact spares

/-- **One move that lockstep forces.** A transition that the first side can take has a counterpart
that leads to the same state, and the two sides can take it together. -/
theorem Pair.At.extend {pair : Pair H} {choice : Option Label} (validA : a.Valid) (validB : b.Valid)
    (dual : checkDuality a b = .ok ()) (stand : pair.At a b n state)
    (inLockstep : ∀ moves, pair.Lockstep moves) (counts : n < lastGeneration)
    (member : ta ∈ a.transitions) (source : ta.source = state)
    (selected : ta.next.select choice = some target) :
    (∀ tb ∈ b.transitions, tb.source = state → tb.label = ta.label →
      tb.next.select choice = some target) ∧
    ∃ next : Pair H, next.At a b (n + 1) target ∧ ∀ moves, next.Lockstep moves := by
  obtain ⟨tokenA, freshA⟩ := pair.a.table.consumedTokens.exists_not_mem
  obtain ⟨tokenB, freshB⟩ := pair.b.table.consumedTokens.exists_not_mem
  let move : Move H :=
    { operation := ⟨ta.label, ta.payloadType, ta.requiredCapability, choice, some ⟨tokenA⟩⟩
      mirroredToken := some ⟨tokenB⟩
      handlerA := fun handlerState _ _ _ => (.ok (), handlerState)
      handlerB := fun handlerState _ _ _ => (.ok (), handlerState) }
  subst source
  -- The first side grants the move.
  have liveA := validA.sourceLive ta member
  have authorizedA : checkCapability pair.a.endpoint.sessionId ta move.operation = .ok () :=
    checkCapability_ok.mpr fun _ required => required
  have admitsA := admit_declared validA stand.a.ofSpec member (show ta.label = move.operation.label
    from rfl) rfl authorizedA
  rw [checkOwnership_fresh freshA ta rfl] at admitsA
  simp only [show ta.next.select move.operation.branchChoice = some target from selected] at admitsA
  obtain ⟨sideA, advancedA, movedA⟩ := stand.a.grant move.handlerA liveA counts admitsA
  -- So does the second one, since it can only have diverged by its choice.
  obtain ⟨tb, declared, sourced, labelled, payload, capability⟩ :=
    checkDuality_counterpart dual member
  have authorizedB : checkCapability pair.b.endpoint.sessionId tb move.mirrored = .ok () :=
    checkCapability_ok.mpr fun _ required => capability.trans required
  have liveB : ta.source ∉ b.terminal := by
    have inStep : pair.InStep := inLockstep []
    unfold Pair.InStep at inStep
    rw [stand.a.status, stand.b.status, Option.some.injEq, Prod.mk.injEq, decide_eq_decide] at inStep
    exact fun inB => liveA (inStep.2.mpr inB)
  have admitsB := admit_declared validB stand.b.ofSpec declared
    (show tb.label = move.mirrored.label from labelled) payload.symm authorizedB
  rw [checkOwnership_fresh freshB tb rfl, sourced] at admitsB
  cases chosen : tb.next.select move.mirrored.branchChoice with
  | none =>
    simp only [chosen] at admitsB
    obtain ⟨sideB, advancedB⟩ := stand.b.advance_admit move.mirrored move.handlerB liveB counts
    simp only [admitsB] at advancedB
    have diverged := (inLockstep [move]).2
    simp only [Pair.mirror, advancedA, advancedB] at diverged
    cases diverged
  | some target' =>
    simp only [chosen] at admitsB
    obtain ⟨sideB, advancedB, movedB⟩ := stand.b.grant move.handlerB liveB counts admitsB
    have lockstep : ∀ moves, Pair.Lockstep ⟨sideA, sideB⟩ moves := fun moves => by
      have after := (inLockstep (move :: moves)).2
      simp only [Pair.mirror, advancedA, advancedB] at after
      exact after
    have inStep : Pair.InStep ⟨sideA, sideB⟩ := lockstep []
    unfold Pair.InStep at inStep
    rw [movedA.status, movedB.status, Option.some.injEq, Prod.mk.injEq] at inStep
    obtain rfl : target = target' := inStep.1
    refine ⟨fun tb' declared' sourced' labelled' => ?_, _, ⟨movedA, movedB⟩, lockstep⟩
    have found := validB.find_transition declared'
    rw [sourced', labelled', ← sourced, ← labelled, validB.find_transition declared] at found
    rw [← Option.some.inj found]
    exact chosen

theorem Pair.At.reached {pair : Pair H} (validA : a.Valid) (validB : b.Valid)
    (dual : checkDuality a b = .ok ()) (stand : pair.At a b 0 a.initial)
    (inLockstep : ∀ moves, pair.Lockstep moves)
    (reached : a.ReachesIn n state) (within : n ≤ lastGeneration) :
    ∃ next : Pair H, next.At a b n state ∧ ∀ moves, next.Lockstep moves := by
  unfold ProtocolSpec.ReachesIn at reached
  induction reached with
  | base initial =>
    subst initial
    exact ⟨pair, stand, inLockstep⟩
  | step _ follows ih =>
    obtain ⟨before, stands, lockstep⟩ := ih (Nat.le_of_succ_le within)
    obtain ⟨ta, member, source, choice, selected⟩ := follows
    exact (stands.extend validA validB dual lockstep within member source selected).2

end Dual

def Pair.start (a b : ProtocolSpec) (sessionA sessionB : String) (handlersA handlersB : H) : Pair H :=
  ⟨Side.start a sessionA handlersA, Side.start b sessionB handlersB⟩

/-- **Lockstep of dual declarations.** Two accepted declarations that pass the duality check run in
lockstep, over every sequence of mirrored moves, exactly when they also agree on the initial state
and, in the states the first reaches, on being terminal and on where each choice leads. -/
theorem lockstep_iff (a b : ProtocolSpec) (acceptedA : a.validate = .ok ())
    (acceptedB : b.validate = .ok ()) (dual : checkDuality a b = .ok ())
    (sessionA sessionB : String) (handlersA handlersB : H) :
    (∀ moves, (Pair.start a b sessionA sessionB handlersA handlersB).Lockstep moves) ↔
      Continues a b := by
  have validA := ProtocolSpec.validate_valid acceptedA
  have validB := ProtocolSpec.validate_valid acceptedB
  have startA := Side.start_at a sessionA handlersA
  have startB := Side.start_at b sessionB handlersB
  constructor
  · intro inLockstep
    have initial : a.initial = b.initial := by
      have inStep : Pair.InStep _ := inLockstep []
      unfold Pair.InStep Pair.start at inStep
      rw [startA.status, startB.status, Option.some.injEq, Prod.mk.injEq] at inStep
      exact inStep.1
    have stand : (Pair.start a b sessionA sessionB handlersA handlersB).At a b 0 a.initial :=
      ⟨startA, initial ▸ startB⟩
    refine ⟨initial, fun n state reached within => ?_,
      fun n state reached counts ta member source tb declared sourced labelled choice target
        selected => ?_⟩
    · obtain ⟨next, stands, lockstep⟩ :=
        stand.reached validA validB dual inLockstep reached within
      have inStep : Pair.InStep next := lockstep []
      unfold Pair.InStep at inStep
      rw [stands.a.status, stands.b.status, Option.some.injEq, Prod.mk.injEq,
        decide_eq_decide] at inStep
      exact inStep.2
    · obtain ⟨next, stands, lockstep⟩ :=
        stand.reached validA validB dual inLockstep reached counts.le
      exact (stands.extend validA validB dual lockstep counts member source selected).1 tb declared
        sourced labelled
  · intro continues moves
    have stand : (Pair.start a b sessionA sessionB handlersA handlersB).At a b 0 a.initial :=
      ⟨startA, continues.initial ▸ startB⟩
    exact stand.lockstep validB dual continues (.base rfl) (Nat.zero_le _) moves

/-- One side of a protocol of a single message and a cancellation; the message leads to `target`. -/
def greeting (kind : Kind) (target : StateId) : ProtocolSpec where
  name := "greeting"
  states := {"idle", "left", "right"}
  initial := "idle"
  terminal := {"left", "right"}
  transitions :=
    [⟨"idle", "greet", kind, "Greeting", none, .none, .then target⟩,
      ⟨"idle", "stop", .cancel, "Stop", none, .none, .then "left"⟩]
  cleanup := [("left", []), ("right", [])]

/-- The two sides of the greeting are dual, and part ways with it. -/
theorem lockstep_greeting_parts :
    (greeting .send "left").validate = .ok () ∧ (greeting .receive "right").validate = .ok () ∧
    checkDuality (greeting .send "left") (greeting .receive "right") = .ok () ∧
    ¬ (Pair.start (greeting .send "left") (greeting .receive "right") "a" "b" () ()).Lockstep
      [⟨⟨"greet", "Greeting", none, none, none⟩, none, fun _ _ _ _ => (.ok (), ()),
        fun _ _ _ _ => (.ok (), ())⟩] := by
  refine ⟨?_, ?_, ?_, ?_⟩ <;> decide +kernel

theorem lockstep_greeting :
    (∀ moves, (Pair.start (greeting .send "left") (greeting .receive "left") "a" "b" () ()).Lockstep
      moves) ↔ Continues (greeting .send "left") (greeting .receive "left") :=
  lockstep_iff _ _ (by decide +kernel) (by decide +kernel) (by decide +kernel) "a" "b" () ()

end Semaprax.SessionProtocol
