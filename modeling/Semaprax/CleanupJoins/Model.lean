/-
**Joins of cleanup paths** (`cleanup_plan/replay/path_join.rs`, `cleanup_plan/replay/renewal.rs`).

The states of the paths that come to a block are joined, group by group. Each has its history, the
flags in the order in which they became live. A group is first checked state by state, and its
histories are then joined two by two.

* `PathState` — what is known at the end of a path.
* `precedence`, `readyFlags` — the graph of the flags that follow each other in some history.
* `validateJoinCompatibility`, `validateGroup` — one graph of all histories.
* `joinLiveOrders`, `joinedLiveOrder` — a graph of two histories, the smallest flag first.
-/

import Semaprax.Library.Orders

namespace Semaprax.CleanupJoins

open Library

abbrev LivenessFlagId := Nat

abbrev ExpressionId := Nat

/-- What is known at the end of a path. The sources of failures and of staged results are only
compared. -/
structure PathState (Source Staged : Type) where
  renewals : List (ExpressionId × List LivenessFlagId)
  liveOrder : List LivenessFlagId
  pendingFailure : Option Source
  selectedFailure : Option Source
  stagedCopyResult : Option Staged
  published : Bool
deriving DecidableEq

/-- Why a join is refused. A flag that is not indexed is a panic. -/
inductive Refusal
  | incompatibleControl (block : Nat)
  | conflictingHistories (block : Nat)
  | conflictingJoin
  | noStates
  | panicked
deriving DecidableEq, Repr

def Refusal.text : Refusal → String
  | .incompatibleControl block => s!"cleanup join at block {block} has incompatible control states"
  | .conflictingHistories block =>
    s!"cleanup join at block {block} has conflicting initialization histories"
  | .conflictingJoin => "cleanup join has conflicting initialization histories"
  | .noStates => "cleanup join has no incoming states"
  | .panicked => "joined replay flag is indexed"

def windows (history : List LivenessFlagId) : List (LivenessFlagId × LivenessFlagId) :=
  history.zip history.tail

structure Precedence where
  successors : Links LivenessFlagId
  indegree : BTreeMap LivenessFlagId Nat

/-- One flag follows another. It counts once. -/
def addPair (graph : Precedence) (pair : LivenessFlagId × LivenessFlagId) : Option Precedence := do
  let targets ← graph.successors[pair.1]?
  if pair.2 ∈ targets then pure graph
  else do
    let degree ← graph.indegree[pair.2]?
    pure ⟨graph.successors.insert pair.1 (targets.insert pair.2),
      graph.indegree.insert pair.2 (degree + 1)⟩

def flagsOf (histories : List (List LivenessFlagId)) : List LivenessFlagId :=
  (BTreeSet.collect histories.flatten).toList

def precedence (histories : List (List LivenessFlagId)) : Option Precedence :=
  (histories.flatMap windows).foldlM addPair
    ⟨BTreeMap.ofKeys (flagsOf histories) ∅, BTreeMap.ofKeys (flagsOf histories) 0⟩

def readyFlags (indegree : BTreeMap LivenessFlagId Nat) : BTreeSet LivenessFlagId :=
  BTreeSet.collect (indegree.toList.filterMap fun (flag, degree) =>
    if degree = 0 then some flag else none)

section States

variable {Source Staged : Type} [DecidableEq Source]

def validateJoinCompatibility (existing : List (PathState Source Staged))
    (incoming : PathState Source Staged) (block : Nat) : Except Refusal Unit :=
  if existing.any fun state => state.renewals ≠ incoming.renewals ∨
      state.pendingFailure ≠ incoming.pendingFailure ∨
      state.selectedFailure ≠ incoming.selectedFailure ∨ state.published ≠ incoming.published then
    .error (.incompatibleControl block)
  else
    let histories := existing.map PathState.liveOrder ++ [incoming.liveOrder]
    let visited := do
      let graph ← precedence histories
      peel graph.successors (flagsOf histories).length graph.indegree (readyFlags graph.indegree)
    match visited with
    | none => .error .panicked
    | some visited =>
      if visited ≠ (flagsOf histories).length then .error (.conflictingHistories block) else .ok ()

def validateGroup (block : Nat) :
    List (PathState Source Staged) → List (PathState Source Staged) → Except Refusal Unit
  | _, [] => .ok ()
  | checked, state :: states => do
      validateJoinCompatibility checked state block
      validateGroup block (checked ++ [state]) states

end States

def joinLiveOrders (left right : List LivenessFlagId) : Except Refusal (List LivenessFlagId) :=
  let joined := do
    let graph ← precedence [left, right]
    peelOrder graph.successors (flagsOf [left, right]).length graph.indegree
      (readyFlags graph.indegree)
  match joined with
  | none => .error .panicked
  | some joined =>
    if joined.length ≠ (flagsOf [left, right]).length then .error .conflictingJoin else .ok joined

def joinedLiveOrder {Source Staged : Type} :
    List (PathState Source Staged) → Except Refusal (List LivenessFlagId)
  | [] => .error .noStates
  | first :: states =>
    states.foldlM (fun order state => joinLiveOrders order state.liveOrder) first.liveOrder

example : joinLiveOrders [5, 1] [3, 1, 2] = .ok [3, 5, 1, 2] := by decide +kernel

end Semaprax.CleanupJoins
