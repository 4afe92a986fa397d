/-
**The bounded explicit-state engine** (`assurance_manifest/model_checking/engine.rs`).

`check_safety` and `check_reachable` run the same breadth-first loop; they differ in what they look
for in a state (`safety_invariant` returning `Err`, or `target` holding) and in the names of their
outcomes. `explore` is that loop, with the thing looked for as a parameter `defect`; `checkSafety`
and `checkReachable` are `explore` at their own `defect`, with their own outcome types.

The loops of the source carry no counter. Here each one takes a fuel argument and returns `none`
when it is used up; `explore_isSome` (`Search`) says that the fuel handed out never is.
-/

import Semaprax.Library.Collections

namespace Semaprax.ModelChecking

open Library

/-- Caller-declared limits on one exploration (`Bounds`). -/
structure Bounds where
  maxStates : Nat
  maxDepth : Nat
  maxTransitions : Nat
deriving DecidableEq, Repr

/-- One finite-state, finite-event projection (`TransitionSystem`). The events and the initial
states come in a fixed declared order. -/
structure TransitionSystem (S E : Type*) where
  initialStates : List S
  enabledEvents : S → List E
  apply : S → E → Option S
  isTerminal : S → Bool
  safetyInvariant : S → Except String Unit

/-- One edge of a trace (`Step`). -/
structure Step (S E : Type*) where
  source : S
  event : E
  target : S
deriving DecidableEq, Repr

/-- A path from an initial state to the state reported about (`Trace`). -/
abbrev Trace (S E : Type*) := List (Step S E)

/-- The bound that stopped an incomplete exploration (`LimitHit`). -/
inductive LimitHit
  | maxStates
  | maxDepth
  | maxTransitions
deriving DecidableEq, Repr

/-- The counters reported with every outcome (`ExploreCounters`). -/
structure ExploreCounters where
  exploredStates : Nat
  exploredTransitions : Nat
  maxDepthReached : Nat
deriving DecidableEq, Repr

/-- The outcomes of the shared loop: `SafetyOutcome` and `ReachabilityOutcome` without their
names. -/
inductive Outcome (S E D : Type*)
  | closed
  | found (trace : Trace S E) (defect : D)
  | deadState (trace : Trace S E)
  | emptyStateSpace
  | boundExhausted (limit : LimitHit)
deriving DecidableEq, Repr

/-- A report of the shared loop. -/
structure Report (S E D : Type*) where
  outcome : Outcome S E D
  counters : ExploreCounters
  bounds : Bounds
deriving DecidableEq, Repr

section Loop

variable {S E D : Type*} [LinearOrder S]

/-- The local variables of the loop. -/
structure Search (S E : Type*) [LinearOrder S] where
  visited : BTreeSet S
  parent : BTreeMap S (S × E)
  frontier : List (S × Nat)
  exploredStates : Nat
  exploredTransitions : Nat
  maxDepthReached : Nat
  depthBoundHit : Bool

def Search.counters (search : Search S E) : ExploreCounters :=
  ⟨search.exploredStates, search.exploredTransitions, search.maxDepthReached⟩

/-- The `while let` of `reconstruct_trace`, which collects the steps from the last to the first. -/
def reconstructSteps (parent : BTreeMap S (S × E)) : Nat → S → Option (List (Step S E))
  | 0, _ => none
  | fuel + 1, current =>
    match parent[current]? with
    | none => some []
    | some (previous, event) =>
      (reconstructSteps parent fuel previous).map (⟨previous, event, current⟩ :: ·)

/-- The path that the parent index records for `state` (`reconstruct_trace`). The walk visits
distinct keys of the index unless it is going round for ever. -/
def reconstructTrace (parent : BTreeMap S (S × E)) (state : S) : Option (Trace S E) :=
  (reconstructSteps parent (parent.size + 1) state).map List.reverse

/-- What one pass of a loop body leaves: the search goes on, or the function returns. -/
inductive Flow (S E D : Type*) [LinearOrder S]
  | goOn (search : Search S E)
  | stop (report : Option (Report S E D))

/-- Record a state met for the first time, by `event` from `state`. -/
def Search.discover (search : Search S E) (state : S) (depth : Nat) (event : E) (next : S) :
    Search S E :=
  { search with
    visited := search.visited.insert next
    parent := search.parent.insert next (state, event)
    frontier := search.frontier ++ [(next, depth + 1)] }

/-- The `for event in events` loop over one popped state. -/
def exploreEvents (system : TransitionSystem S E) (bounds : Bounds) (defect : S → Option D)
    (state : S) (depth : Nat) : List E → Search S E → Flow S E D
  | [], search => .goOn search
  | event :: events, search =>
    if search.exploredTransitions ≥ bounds.maxTransitions then
      .stop (some ⟨.boundExhausted .maxTransitions, search.counters, bounds⟩)
    else
      match system.apply state event with
      | none => exploreEvents system bounds defect state depth events search
      | some next =>
        let search := { search with exploredTransitions := search.exploredTransitions + 1 }
        match defect next with
        | some found =>
          .stop ((reconstructTrace search.parent state).map fun trace =>
            ⟨.found (trace ++ [⟨state, event, next⟩]) found, search.counters, bounds⟩)
        | none =>
          if search.visited.contains next then
            exploreEvents system bounds defect state depth events search
          else
            exploreEvents system bounds defect state depth events
              (search.discover state depth event next)

/-- Pop `(state, depth)`, leaving `rest` in the frontier. -/
def Search.pop (search : Search S E) (depth : Nat) (rest : List (S × Nat)) : Search S E :=
  { search with
    frontier := rest
    exploredStates := search.exploredStates + 1
    maxDepthReached := max search.maxDepthReached depth }

/-- One pass of the `while let Some((state, depth)) = frontier.pop_front()` body. -/
def exploreState (system : TransitionSystem S E) (bounds : Bounds) (defect : S → Option D)
    (state : S) (depth : Nat) (search : Search S E) : Flow S E D :=
  if search.exploredStates > bounds.maxStates then
    .stop (some ⟨.boundExhausted .maxStates,
      { search.counters with exploredStates := search.exploredStates - 1 }, bounds⟩)
  else
    match system.enabledEvents state with
    | [] =>
      if system.isTerminal state then .goOn search
      else
        .stop ((reconstructTrace search.parent state).map fun trace =>
          ⟨.deadState trace, search.counters, bounds⟩)
    | event :: events =>
      if depth ≥ bounds.maxDepth then .goOn { search with depthBoundHit := true }
      else exploreEvents system bounds defect state depth (event :: events) search

/-- What is reported when the frontier has drained. -/
def Search.closing (search : Search S E) (bounds : Bounds) : Report S E D :=
  ⟨if search.depthBoundHit then .boundExhausted .maxDepth else .closed, search.counters, bounds⟩

/-- The `while let` loop over the frontier. -/
def exploreLoop (system : TransitionSystem S E) (bounds : Bounds) (defect : S → Option D) :
    Nat → Search S E → Option (Report S E D)
  | 0, _ => none
  | fuel + 1, search =>
    match search.frontier with
    | [] => some (search.closing bounds)
    | (state, depth) :: rest =>
      match exploreState system bounds defect state depth (search.pop depth rest) with
      | .goOn search => exploreLoop system bounds defect fuel search
      | .stop report => report

/-- The search before the loop: the initial states, each once, at depth `0`. -/
def Search.initial (initials : List S) : Search S E :=
  initials.foldl
    (fun search state =>
      if search.visited.contains state then search
      else
        { search with
          visited := search.visited.insert state
          frontier := search.frontier ++ [(state, 0)] })
    ⟨∅, ∅, [], 0, 0, 0, false⟩

/-- The body shared by `check_safety` and `check_reachable`. Every pass of the loop pops one state
and counts it, and the count may not pass `maxStates`, so `maxStates + 2` passes are enough. -/
def explore (system : TransitionSystem S E) (bounds : Bounds) (defect : S → Option D) :
    Option (Report S E D) :=
  if system.initialStates.isEmpty then some ⟨.emptyStateSpace, ⟨0, 0, 0⟩, bounds⟩
  else
    match system.initialStates.findSome? defect with
    | some found => some ⟨.found [] found, ⟨0, 0, 0⟩, bounds⟩
    | none =>
      exploreLoop system bounds defect (bounds.maxStates + 2)
        (Search.initial system.initialStates)

end Loop

/-- The outcome of a safety exploration (`SafetyOutcome`). -/
inductive SafetyOutcome (S E : Type*)
  | verified
  | violated (trace : Trace S E) (invariant : String)
  | deadState (trace : Trace S E)
  | emptyStateSpace
  | boundExhausted (limit : LimitHit)
deriving DecidableEq, Repr

/-- A safety report (`ExploreReport`). -/
structure ExploreReport (S E : Type*) where
  outcome : SafetyOutcome S E
  counters : ExploreCounters
  bounds : Bounds
deriving DecidableEq, Repr

/-- The outcome of a reachability exploration (`ReachabilityOutcome`). -/
inductive ReachabilityOutcome (S E : Type*)
  | reached (trace : Trace S E)
  | neverReached
  | deadState (trace : Trace S E)
  | emptyStateSpace
  | boundExhausted (limit : LimitHit)
deriving DecidableEq, Repr

/-- A reachability report (`ReachabilityReport`). -/
structure ReachabilityReport (S E : Type*) where
  outcome : ReachabilityOutcome S E
  counters : ExploreCounters
  bounds : Bounds
deriving DecidableEq, Repr

variable {S E : Type*}

/-- The shared outcomes under the names of `SafetyOutcome`. -/
def Outcome.toSafety : Outcome S E String → SafetyOutcome S E
  | .closed => .verified
  | .found trace invariant => .violated trace invariant
  | .deadState trace => .deadState trace
  | .emptyStateSpace => .emptyStateSpace
  | .boundExhausted limit => .boundExhausted limit

/-- The shared outcomes under the names of `ReachabilityOutcome`. -/
def Outcome.toReachability : Outcome S E Unit → ReachabilityOutcome S E
  | .closed => .neverReached
  | .found trace _ => .reached trace
  | .deadState trace => .deadState trace
  | .emptyStateSpace => .emptyStateSpace
  | .boundExhausted limit => .boundExhausted limit

/-- What `check_safety` looks for: the name of a failed invariant. -/
def TransitionSystem.failedInvariant (system : TransitionSystem S E) (state : S) : Option String :=
  match system.safetyInvariant state with
  | .ok _ => none
  | .error name => some name

/-- What `check_reachable` looks for: a state on which `target` holds. -/
def hit (target : S → Bool) (state : S) : Option Unit := if target state then some () else none

variable [LinearOrder S]

/-- One bounded breadth-first safety exploration (`check_safety`). -/
def checkSafety (system : TransitionSystem S E) (bounds : Bounds) : Option (ExploreReport S E) :=
  (explore system bounds system.failedInvariant).map fun report =>
    ⟨report.outcome.toSafety, report.counters, report.bounds⟩

/-- One bounded breadth-first search for a state satisfying `target` (`check_reachable`). -/
def checkReachable (system : TransitionSystem S E) (bounds : Bounds) (target : S → Bool) :
    Option (ReachabilityReport S E) :=
  (explore system bounds (hit target)).map fun report =>
    ⟨report.outcome.toReachability, report.counters, report.bounds⟩

end Semaprax.ModelChecking
