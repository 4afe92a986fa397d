/-
**What the verdicts of the engine mean.**

* `checks_sound` — `Verified`, `NeverReached` and `BoundExhausted { MaxDepth }` are proofs: of every
  reachable state, of every reachable state, and of every state within `max_depth` steps.
* `checks_genuine` — a reported trace is a real path from an initial state to a state with the
  reported defect, and for `Violated` and `Reached` no shorter sequence of steps reaches one.

Both come with the return of the function: the loops stop within the fuel, for every transition
system, also one with infinitely many reachable states.
-/

import Semaprax.ModelChecking.Search

namespace Semaprax.ModelChecking

open Library

variable {S E : Type*}

/-- The states reached from an initial state by some finite sequence of steps. -/
abbrev TransitionSystem.Reachable (system : TransitionSystem S E) (state : S) : Prop :=
  Reaches system.Initial system.Next state

/-- The states reached from an initial state by exactly `n` steps. -/
abbrev TransitionSystem.ReachableIn (system : TransitionSystem S E) (n : Nat) (state : S) : Prop :=
  ReachesIn system.Initial system.Next n state

/-- The state satisfies every safety invariant. -/
def TransitionSystem.Safe (system : TransitionSystem S E) (state : S) : Prop :=
  system.safetyInvariant state = .ok ()

variable {bounds : Bounds}

theorem TransitionSystem.failedInvariant_eq_none {system : TransitionSystem S E} {state : S} :
    system.failedInvariant state = none ↔ system.Safe state := by
  unfold TransitionSystem.failedInvariant TransitionSystem.Safe
  cases system.safetyInvariant state <;> simp

theorem TransitionSystem.failedInvariant_eq_some {system : TransitionSystem S E} {state : S}
    {name : String} :
    system.failedInvariant state = some name ↔ system.safetyInvariant state = .error name := by
  unfold TransitionSystem.failedInvariant
  cases system.safetyInvariant state <;> simp

theorem hit_eq_none {target : S → Bool} {state : S} : hit target state = none ↔ ¬ target state := by
  simp [hit]

theorem hit_eq_some {target : S → Bool} {state : S} {found : Unit} :
    hit target state = some found ↔ target state := by
  simp [hit]

/-- What a safety verdict proves about the states it reports no trace to. -/
def SafetyOutcome.Sound (system : TransitionSystem S E) (bounds : Bounds) : SafetyOutcome S E → Prop
  | .verified => ∀ state, system.Reachable state →
      system.Safe state ∧ (system.enabledEvents state = [] → system.isTerminal state = true)
  | .boundExhausted .maxDepth => ∀ n state, system.ReachableIn n state → n ≤ bounds.maxDepth →
      system.Safe state
  | _ => True

/-- What a reachability verdict proves about the states it reports no trace to. -/
def ReachabilityOutcome.Sound (system : TransitionSystem S E) (bounds : Bounds)
    (target : S → Bool) : ReachabilityOutcome S E → Prop
  | .neverReached => ∀ state, system.Reachable state → ¬ target state
  | .boundExhausted .maxDepth => ∀ n state, system.ReachableIn n state → n ≤ bounds.maxDepth →
      ¬ target state
  | _ => True

theorem Outcome.Meets.toSafety_sound {system : TransitionSystem S E}
    {outcome : Outcome S E String} (meets : outcome.Meets system bounds system.failedInvariant) :
    outcome.toSafety.Sound system bounds := by
  cases outcome with
  | closed =>
    intro state reached
    obtain ⟨clean, terminal⟩ := meets state reached
    exact ⟨TransitionSystem.failedInvariant_eq_none.mp clean, terminal⟩
  | boundExhausted limit =>
    cases limit with
    | maxDepth =>
      intro n state reached within
      exact TransitionSystem.failedInvariant_eq_none.mp (meets n state reached within)
    | maxStates | maxTransitions => trivial
  | found _ _ | deadState _ | emptyStateSpace => trivial

theorem Outcome.Meets.toReachability_sound {system : TransitionSystem S E}
    {target : S → Bool} {outcome : Outcome S E Unit}
    (meets : outcome.Meets system bounds (hit target)) :
    outcome.toReachability.Sound system bounds target := by
  cases outcome with
  | closed => exact fun state reached => hit_eq_none.mp (meets state reached).1
  | boundExhausted limit =>
    cases limit with
    | maxDepth =>
      intro n state reached within
      exact hit_eq_none.mp (meets n state reached within)
    | maxStates | maxTransitions => trivial
  | found _ _ | deadState _ | emptyStateSpace => trivial

/-- The trace is a path from an initial state to a dead end that is not declared terminal. -/
def TransitionSystem.DeadEnd (system : TransitionSystem S E) (trace : Trace S E) : Prop :=
  ∃ first last, system.Initial first ∧ system.Leads first trace last ∧
    system.enabledEvents last = [] ∧ system.isTerminal last = false

/-- The trace of a safety verdict is a genuine path to the reported defect, and a shortest one for
`Violated`. -/
def SafetyOutcome.Genuine (system : TransitionSystem S E) : SafetyOutcome S E → Prop
  | .violated trace invariant => ∃ first last, system.Initial first ∧
      system.Leads first trace last ∧ system.safetyInvariant last = .error invariant ∧
      ∀ n state, system.ReachableIn n state → n < trace.length → system.Safe state
  | .deadState trace => system.DeadEnd trace
  | _ => True

/-- The trace of a reachability verdict is a genuine path to the reported state, and a shortest one
for `Reached`. -/
def ReachabilityOutcome.Genuine (system : TransitionSystem S E) (target : S → Bool) :
    ReachabilityOutcome S E → Prop
  | .reached trace => ∃ first last, system.Initial first ∧ system.Leads first trace last ∧
      target last ∧ ∀ n state, system.ReachableIn n state → n < trace.length → ¬ target state
  | .deadState trace => system.DeadEnd trace
  | _ => True

theorem Outcome.Meets.toSafety_genuine {system : TransitionSystem S E}
    {outcome : Outcome S E String} (meets : outcome.Meets system bounds system.failedInvariant) :
    outcome.toSafety.Genuine system := by
  cases outcome with
  | found trace name =>
    obtain ⟨first, last, initial, leads, failed, shortest⟩ := meets
    exact ⟨first, last, initial, leads, TransitionSystem.failedInvariant_eq_some.mp failed,
      fun n state reached shorter =>
        TransitionSystem.failedInvariant_eq_none.mp (shortest n state reached shorter)⟩
  | deadState _ => exact meets
  | closed | emptyStateSpace | boundExhausted _ => trivial

theorem Outcome.Meets.toReachability_genuine {system : TransitionSystem S E}
    {target : S → Bool} {outcome : Outcome S E Unit}
    (meets : outcome.Meets system bounds (hit target)) :
    outcome.toReachability.Genuine system target := by
  cases outcome with
  | found trace name =>
    obtain ⟨first, last, initial, leads, found, shortest⟩ := meets
    exact ⟨first, last, initial, leads, hit_eq_some.mp found,
      fun n state reached shorter => hit_eq_none.mp (shortest n state reached shorter)⟩
  | deadState _ => exact meets
  | closed | emptyStateSpace | boundExhausted _ => trivial

variable [LinearOrder S]

theorem checkSafety_meets (system : TransitionSystem S E) (bounds : Bounds) :
    ∃ report : Report S E String, checkSafety system bounds
        = some ⟨report.outcome.toSafety, report.counters, report.bounds⟩ ∧
      report.outcome.Meets system bounds system.failedInvariant := by
  obtain ⟨report, returned, meets⟩ := explore_meets system bounds system.failedInvariant
  exact ⟨report, by rw [checkSafety, returned]; rfl, meets⟩

theorem checkReachable_meets (system : TransitionSystem S E) (bounds : Bounds) (target : S → Bool) :
    ∃ report : Report S E Unit, checkReachable system bounds target
        = some ⟨report.outcome.toReachability, report.counters, report.bounds⟩ ∧
      report.outcome.Meets system bounds (hit target) := by
  obtain ⟨report, returned, meets⟩ := explore_meets system bounds (hit target)
  exact ⟨report, by rw [checkReachable, returned]; rfl, meets⟩

/-- The two checks return for every transition system and all bounds, and their verdicts are sound:
`Verified` covers every reachable state and every dead end, `NeverReached` every reachable state,
`BoundExhausted { MaxDepth }` every state within `max_depth` steps. -/
theorem checks_sound (system : TransitionSystem S E) (bounds : Bounds) :
    (∃ report, checkSafety system bounds = some report ∧ report.outcome.Sound system bounds) ∧
    ∀ target : S → Bool, ∃ report, checkReachable system bounds target = some report ∧
      report.outcome.Sound system bounds target := by
  constructor
  · obtain ⟨report, returned, meets⟩ := checkSafety_meets system bounds
    exact ⟨_, returned, meets.toSafety_sound⟩
  · intro target
    obtain ⟨report, returned, meets⟩ := checkReachable_meets system bounds target
    exact ⟨_, returned, meets.toReachability_sound⟩

/-- Every reported trace is a real path from an initial state to the reported state, and the traces
of `Violated` and `Reached` are as short as any sequence of steps to such a state. -/
theorem checks_genuine (system : TransitionSystem S E) (bounds : Bounds) :
    (∃ report, checkSafety system bounds = some report ∧ report.outcome.Genuine system) ∧
    ∀ target : S → Bool, ∃ report, checkReachable system bounds target = some report ∧
      report.outcome.Genuine system target := by
  constructor
  · obtain ⟨report, returned, meets⟩ := checkSafety_meets system bounds
    exact ⟨_, returned, meets.toSafety_genuine⟩
  · intro target
    obtain ⟨report, returned, meets⟩ := checkReachable_meets system bounds target
    exact ⟨_, returned, meets.toReachability_genuine⟩

/-! A counter that steps by one or two, checked for staying below five: the search reports the
shortest way to break the invariant, and stops at the depth bound when that lies further off. -/

section Counter

/-- A counter with two events, the number to add. -/
def counter : TransitionSystem Nat Nat where
  initialStates := [0]
  enabledEvents _ := [1, 2]
  apply state event := some (state + event)
  isTerminal _ := false
  safetyInvariant state := if state < 5 then .ok () else .error "below five"

example : (checkSafety counter ⟨100, 100, 100⟩).map (·.outcome)
    = some (.violated [⟨0, 1, 1⟩, ⟨1, 2, 3⟩, ⟨3, 2, 5⟩] "below five") := by decide

example : (checkSafety counter ⟨100, 2, 100⟩).map (·.outcome)
    = some (.boundExhausted .maxDepth) := by decide

end Counter

end Semaprax.ModelChecking
