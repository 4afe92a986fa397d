/-
**The static checks of a declaration** (`ProtocolSpec::validate`).

The checks collect every defect in source order. A declaration without a defect is `Valid`, which is
what the runs of the table and the two-party check rely on.

* `validate_valid` — a declaration that `validate` accepts is valid.
* `Valid.find_transition` — in a valid declaration a state and a label name one transition.
-/

import Semaprax.SessionProtocol.Spec

namespace Semaprax.SessionProtocol

open Library

/-- Why a declaration failed validation. -/
inductive SpecError
  | unknownInitialState
  | unknownTerminalState (state : StateId)
  | unknownState (label : Label) (state : StateId)
  | duplicateLabelFromState (state : StateId) (label : Label)
  | choiceNeedsAtLeastTwo (state : StateId) (label : Label)
  | duplicateChoiceLabel (state : StateId) (label choice : Label)
  | terminalStateHasOutgoingTransition (state : StateId) (label : Label)
  | deadEnd (state : StateId)
  | missingEscape (state : StateId)
  | missingCleanupEntry (state : StateId)
deriving DecidableEq, Repr

/-- The states a transition can lead to. -/
def Next.targets : Next → List StateId
  | .then target => [target]
  | .choice choices => choices.map (·.2)

namespace ProtocolSpec

variable (spec : ProtocolSpec)

/-- The defects of the choices of one branch; `seen` holds the choice labels before them. -/
def choiceErrors (transition : Transition) : List (Label × StateId) → List Label → List SpecError
  | [], _ => []
  | (choice, target) :: choices, seen =>
    (if target ∈ spec.states then [] else [.unknownState transition.label target]) ++
    (if choice ∈ seen then [.duplicateChoiceLabel transition.source transition.label choice]
      else []) ++
    choiceErrors transition choices (choice :: seen)

/-- The defects of a transition's next states. -/
def nextErrors (transition : Transition) : List SpecError :=
  match transition.next with
  | .then target =>
    if target ∈ spec.states then [] else [.unknownState transition.label target]
  | .choice choices =>
    (if choices.length < 2 then
      [.choiceNeedsAtLeastTwo transition.source transition.label] else []) ++
    spec.choiceErrors transition choices []

/-- The defects of a transition's originating state. -/
def sourceErrors (transition : Transition) : List SpecError :=
  if transition.source ∉ spec.states then
    [.unknownState transition.label transition.source]
  else if transition.source ∈ spec.terminal then
    [.terminalStateHasOutgoingTransition transition.source transition.label]
  else []

/-- The loop over the transitions; `seen` holds the states and labels before them
(`seen_labels`). -/
def transitionErrors : List Transition → List (StateId × Label) → List SpecError
  | [], _ => []
  | transition :: transitions, seen =>
    spec.sourceErrors transition ++
    (if (transition.source, transition.label) ∈ seen then
      [.duplicateLabelFromState transition.source transition.label] else []) ++
    spec.nextErrors transition ++
    transitionErrors transitions ((transition.source, transition.label) :: seen)

/-- The defects of a state that is not terminal: it needs a way on and an escape. A state's
transitions count here once `sourceErrors` has nothing against them, so for a declared state that
is not terminal all of them do. -/
def stateErrors (state : StateId) : List SpecError :=
  if (spec.transitionsFrom state).isEmpty then [.deadEnd state]
  else if ¬ (spec.transitionsFrom state).any (·.kind.isEscape) then [.missingEscape state]
  else []

/-- Every static rule, in source order. -/
def errors : List SpecError :=
  (if spec.initial ∈ spec.states then [] else [.unknownInitialState]) ++
  (spec.terminal.toList.filter (· ∉ spec.states)).map
    .unknownTerminalState ++
  spec.transitionErrors spec.transitions [] ++
  (spec.states.toList.filter (· ∉ spec.terminal)).flatMap
    spec.stateErrors ++
  (spec.terminal.toList.filter (· ∉ spec.cleanup.map (·.1))).map
    .missingCleanupEntry

/-- Accept the declaration, or report every defect. -/
def validate : Except (List SpecError) Unit :=
  if spec.errors.isEmpty then .ok () else .error spec.errors

/-- What a declaration without a defect guarantees of its states and transitions. -/
structure Valid : Prop where
  initialDeclared : spec.initial ∈ spec.states
  sourceLive : ∀ transition ∈ spec.transitions, transition.source ∉ spec.terminal
  targetDeclared : ∀ transition ∈ spec.transitions, ∀ target ∈ transition.next.targets,
    target ∈ spec.states
  distinct : (spec.transitions.map fun transition => (transition.source, transition.label)).Nodup

variable {spec}

variable {transition : Transition}

theorem choiceErrors_nil {choices : List (Label × StateId)}
    {seen : List Label} (clean : spec.choiceErrors transition choices seen = []) :
    ∀ target ∈ choices.map (·.2), target ∈ spec.states := by
  induction choices generalizing seen with
  | nil => exact List.forall_mem_nil _
  | cons choice choices ih =>
    unfold choiceErrors at clean
    rw [List.append_eq_nil_iff, List.append_eq_nil_iff] at clean
    obtain ⟨⟨declared, _⟩, rest⟩ := clean
    refine List.forall_mem_cons.mpr ⟨?_, ih rest⟩
    by_contra undeclared
    exact nomatch (if_neg undeclared).symm.trans declared

theorem nextErrors_nil (clean : spec.nextErrors transition = []) :
    ∀ target ∈ transition.next.targets, target ∈ spec.states := by
  unfold nextErrors at clean
  cases next : transition.next with
  | «then» target =>
    simp only [next] at clean
    intro other member
    obtain rfl := List.mem_singleton.mp member
    by_contra undeclared
    exact nomatch (if_neg undeclared).symm.trans clean
  | choice choices =>
    simp only [next] at clean
    exact choiceErrors_nil (List.append_eq_nil_iff.mp clean).2

theorem sourceErrors_nil (clean : spec.sourceErrors transition = []) :
    transition.source ∉ spec.terminal := by
  unfold sourceErrors at clean
  intro terminal
  split_ifs at clean

/-- The loop reports nothing only if every transition is sound by itself and no label is declared
twice from a state. -/
theorem transitionErrors_nil {transitions : List Transition} {seen : List (StateId × Label)}
    (clean : spec.transitionErrors transitions seen = []) :
    (∀ transition ∈ transitions, transition.source ∉ spec.terminal ∧
      ∀ target ∈ transition.next.targets, target ∈ spec.states) ∧
    (transitions.map fun transition => (transition.source, transition.label)).Nodup ∧
    ∀ transition ∈ transitions, (transition.source, transition.label) ∉ seen := by
  induction transitions generalizing seen with
  | nil => exact ⟨by simp, List.nodup_nil, by simp⟩
  | cons transition transitions ih =>
    unfold transitionErrors at clean
    simp only [List.append_eq_nil_iff] at clean
    obtain ⟨⟨⟨source, label⟩, next⟩, rest⟩ := clean
    obtain ⟨sound, distinct, later⟩ := ih rest
    have fresh : (transition.source, transition.label) ∉ seen := by
      intro repeated
      rw [if_pos repeated] at label
      cases label
    refine ⟨List.forall_mem_cons.mpr ⟨⟨sourceErrors_nil source, nextErrors_nil next⟩, sound⟩,
      List.nodup_cons.mpr ⟨fun member => ?_, distinct⟩,
      List.forall_mem_cons.mpr ⟨fresh, fun other member => ?_⟩⟩
    · obtain ⟨other, member, same⟩ := List.mem_map.mp member
      exact later other member (same ▸ List.mem_cons_self)
    · exact fun repeated => later other member (List.mem_cons_of_mem _ repeated)

/-- **Accepted declarations are valid.** -/
theorem validate_valid (accepted : spec.validate = .ok ()) : spec.Valid := by
  have clean : spec.errors = [] := by
    unfold validate at accepted
    split_ifs at accepted with empty
    exact List.isEmpty_iff.mp empty
  unfold errors at clean
  simp only [List.append_eq_nil_iff] at clean
  obtain ⟨⟨⟨⟨initial, _⟩, transitions⟩, _⟩, _⟩ := clean
  obtain ⟨sound, distinct, _⟩ := transitionErrors_nil transitions
  refine ⟨?_, fun transition member => (sound transition member).1,
    fun transition member => (sound transition member).2, distinct⟩
  by_contra undeclared
  exact nomatch (if_neg undeclared).symm.trans initial

theorem Valid.find_transition (valid : spec.Valid) (member : transition ∈ spec.transitions) :
    (spec.transitionsFrom transition.source).find? (·.label = transition.label) =
      some transition := by
  have listed : transition ∈ spec.transitionsFrom transition.source :=
    List.mem_filter.mpr ⟨member, decide_eq_true rfl⟩
  cases found : (spec.transitionsFrom transition.source).find? (·.label = transition.label) with
  | none => exact absurd (List.find?_eq_none.mp found transition listed) (by simp)
  | some other =>
    have labelled : other.label = transition.label := by
      simpa using List.find?_some found
    obtain ⟨declared, source⟩ := List.mem_filter.mp (List.mem_of_find?_eq_some found)
    have same : (other.source, other.label) = (transition.source, transition.label) :=
      Prod.ext (of_decide_eq_true source) labelled
    rw [List.inj_on_of_nodup_map valid.distinct declared member same]

theorem find_transition_declared {state : StateId} {label : Label}
    (found : (spec.transitionsFrom state).find? (·.label = label) = some transition) :
    transition ∈ spec.transitions ∧ transition.source = state ∧ transition.label = label := by
  obtain ⟨declared, source⟩ := List.mem_filter.mp (List.mem_of_find?_eq_some found)
  exact ⟨declared, of_decide_eq_true source, by simpa using List.find?_some found⟩

end ProtocolSpec

end Semaprax.SessionProtocol
