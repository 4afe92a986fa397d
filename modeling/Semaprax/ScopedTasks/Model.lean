/-
**Scopes, tasks and their dependencies** (`scoped_tasks.rs`).

The certified structure that a run is bound to: a tree of scopes, the tasks of each scope, the
dependencies between tasks, and a join of every scope by its parent.

* `ScopedTaskModel.tryNew` — the checks of the structure.

A failed `expect`, an index without an entry and a counter below zero are the fault `panicked`. The
fingerprint that ties a run to its model is left out: a run keeps the one of the model that prepared
it, so that `authenticate` never refuses.
-/

import Semaprax.Library.Prerequisites
import Semaprax.Library.Results
import Semaprax.Library.Trees

namespace Semaprax.ScopedTasks

open Library

/-- The identity of a scope or a task. -/
abbrev DeclarationId := String

inductive SendableMark
  | sendable
  | notSendable
deriving DecidableEq, Repr

inductive ShareableMark
  | shareable
  | notShareable
deriving DecidableEq, Repr

/-- How a task fails. -/
inductive FailureKind
  | semantic
  | physical (code : UInt32)
deriving DecidableEq, Repr

inductive TaskOutcome
  | succeed
  | fail (failure : FailureKind)
deriving DecidableEq, Repr

/-- A scope; the root has no parent. -/
structure ScopeSpec where
  id : DeclarationId
  parent : Option DeclarationId

structure TaskSpec where
  id : DeclarationId
  scope : DeclarationId
  sendable : SendableMark
  shareable : ShareableMark
  outcome : TaskOutcome

/-- The parent `waiter` waits for its child `target`. -/
structure ScopeJoin where
  waiter : DeclarationId
  target : DeclarationId

structure DependencyEdge where
  prerequisite : DeclarationId
  dependent : DeclarationId

/-- The refusals of the model and of its runs. -/
inductive ScopedTasksError
  | missingRoot
  | multipleRoots
  | invalidIdentity
  | duplicateScope
  | duplicateTask
  | unknownScope
  | unknownTask
  | scopeCycle
  | scopeBoundExceeded
  | taskBoundExceeded
  | dependencyBoundExceeded
  | workBudgetExceeded
  | selfDependency
  | duplicateDependency
  | escapingDependency
  | dependencyCycle
  | unjoinedChildScope
  | orphanJoin
  | doubleJoin
  | invalidFailureCode
  | runAlreadyComplete
  | runNotComplete
deriving DecidableEq, Repr

/-- Why there is no result. -/
inductive Fault
  | refused (error : ScopedTasksError)
  | panicked
deriving DecidableEq, Repr

structure ScopeEntry where
  parent : Option DeclarationId
  depth : Nat

structure TaskEntry where
  scope : DeclarationId
  sendable : SendableMark
  shareable : ShareableMark
  outcome : TaskOutcome

/-- The scope tree, the tasks, the dependencies and the joins. -/
structure ScopedTaskModel where
  root : DeclarationId
  scopes : BTreeMap DeclarationId ScopeEntry
  tasks : BTreeMap DeclarationId TaskEntry
  dependencies : BTreeSet (DeclarationId ×ₗ DeclarationId)
  joins : BTreeMap DeclarationId DeclarationId
  children : Links DeclarationId

/-- The bounds of a model. -/
def maxScopes : Nat := 4096
def maxTasks : Nat := 4096
def maxDependencies : Nat := 65536
def maxWorkUnits : Nat := 1000000

def refuseIf (condition : Prop) [Decidable condition] (error : ScopedTasksError) :
    Except Fault Unit :=
  if condition then .error (.refused error) else .ok ()

/-- What a lookup takes for granted. -/
def expect {A : Type} : Option A → Except Fault A
  | some value => .ok value
  | none => .error .panicked

/-- An identity is not empty and contains no NUL. -/
def validateIdentity (name : DeclarationId) : Except Fault Unit :=
  refuseIf (name.isEmpty ∨ name.toList.contains '\x00') .invalidIdentity

/-- The parents of the scopes. -/
abbrev Parents := BTreeMap DeclarationId (Option DeclarationId)

def scopeParents : List ScopeSpec → Parents → Except Fault Parents
  | [], parents => .ok parents
  | scope :: scopes, parents => do
      validateIdentity scope.id
      refuseIf (scope.id ∈ parents) .duplicateScope
      scopeParents scopes (parents.insert scope.id scope.parent)

/-- Exactly one scope has no parent. -/
def checkRoots (scopes : List ScopeSpec) : Except Fault Unit := do
  let roots := (scopes.filter fun scope => scope.parent.isNone).length
  refuseIf (roots = 0) .missingRoot
  refuseIf (roots ≠ 1) .multipleRoots

def checkParents (parents : Parents) : List ScopeSpec → Except Fault Unit
  | [] => .ok ()
  | scope :: scopes =>
    match scope.parent with
    | none => checkParents parents scopes
    | some parent => do
        refuseIf (scope.id = parent) .scopeCycle
        refuseIf (parent ∉ parents) .unknownScope
        checkParents parents scopes

/-- Climb from a scope to one whose depth is known, or to the root: the scopes passed, latest first,
the scope the climb ends at, and its depth. `room` is how many more may be passed. -/
def climb (parents : Parents) (depths : BTreeMap DeclarationId Nat) :
    Nat → DeclarationId → List DeclarationId →
    Except Fault (List DeclarationId × DeclarationId × Nat)
  | room, cursor, stack =>
    match depths[cursor]? with
    | some known => .ok (stack, cursor, known)
    | none =>
      match parents[cursor]? with
      | none => .error .panicked
      | some none => .ok (stack, cursor, 0)
      | some (some parent) =>
        match room with
        | 0 => .error (.refused .scopeCycle)
        | room + 1 => climb parents depths room parent (cursor :: stack)

/-- The depths of the scopes that were passed, below that of the scope the climb ended at
(`checked_add` of a `u32`). -/
def descend : List DeclarationId → Nat → BTreeMap DeclarationId Nat →
    Except Fault (BTreeMap DeclarationId Nat)
  | [], _, depths => .ok depths
  | name :: stack, running, depths => do
      refuseIf (running + 1 ≥ 2 ^ 32) .scopeCycle
      descend stack (running + 1) (depths.insert name (running + 1))

def canonicalDepths (parents : Parents) : List DeclarationId → BTreeMap DeclarationId Nat →
    Except Fault (BTreeMap DeclarationId Nat)
  | [], depths => .ok depths
  | id :: ids, depths => do
      let climbed ← climb parents depths parents.size id []
      let depths ← descend climbed.1 climbed.2.2 depths
      canonicalDepths parents ids (depths.insertIfNew climbed.2.1 climbed.2.2)

def scopeEntries (depths : BTreeMap DeclarationId Nat) :
    List (DeclarationId × Option DeclarationId) → BTreeMap DeclarationId ScopeEntry →
    Except Fault (BTreeMap DeclarationId ScopeEntry)
  | [], entries => .ok entries
  | (id, parent) :: rest, entries => do
      let depth ← expect depths[id]?
      scopeEntries depths rest (entries.insert id ⟨parent, depth⟩)

def childLinks (parents : Parents) : List (DeclarationId × DeclarationId) :=
  parents.toList.filterMap fun entry => entry.2.map fun parent => (parent, entry.1)

def parentIn (scopes : BTreeMap DeclarationId ScopeEntry) (id : DeclarationId) :
    Option (Option DeclarationId) :=
  (scopes[id]?).map ScopeEntry.parent

def scopeLineage (scopes : BTreeMap DeclarationId ScopeEntry) (start : DeclarationId) :
    List DeclarationId :=
  lineage (parentIn scopes) scopes.size start

def isSelfOrAncestor (scopes : BTreeMap DeclarationId ScopeEntry)
    (start candidate : DeclarationId) : Bool :=
  candidate ∈ scopeLineage scopes start

def taskEntries (scopes : BTreeMap DeclarationId ScopeEntry) : List TaskSpec →
    BTreeMap DeclarationId TaskEntry → Except Fault (BTreeMap DeclarationId TaskEntry)
  | [], entries => .ok entries
  | task :: tasks, entries => do
      validateIdentity task.id
      refuseIf (task.scope ∉ scopes) .unknownScope
      refuseIf (task.outcome = .fail (.physical 0)) .invalidFailureCode
      refuseIf (task.id ∈ entries) .duplicateTask
      taskEntries scopes tasks
        (entries.insert task.id ⟨task.scope, task.sendable, task.shareable, task.outcome⟩)

def dependencySet (scopes : BTreeMap DeclarationId ScopeEntry)
    (tasks : BTreeMap DeclarationId TaskEntry) : List DependencyEdge →
    BTreeSet (DeclarationId ×ₗ DeclarationId) →
    Except Fault (BTreeSet (DeclarationId ×ₗ DeclarationId))
  | [], edges => .ok edges
  | edge :: rest, edges =>
    match tasks[edge.prerequisite]?, tasks[edge.dependent]? with
    | some prerequisite, some dependent => do
        refuseIf (edge.prerequisite = edge.dependent) .selfDependency
        refuseIf (¬ isSelfOrAncestor scopes dependent.scope prerequisite.scope)
          .escapingDependency
        refuseIf (toLex (edge.prerequisite, edge.dependent) ∈ edges) .duplicateDependency
        dependencySet scopes tasks rest
          (edges.insert (toLex (edge.prerequisite, edge.dependent)))
    | _, _ => .error (.refused .unknownTask)

/-- The dependencies as pairs, in order. -/
def edgeList (dependencies : BTreeSet (DeclarationId ×ₗ DeclarationId)) :
    List (DeclarationId × DeclarationId) :=
  dependencies.toList.map ofLex

def validateAcyclic (tasks : BTreeMap DeclarationId TaskEntry)
    (dependencies : BTreeSet (DeclarationId ×ₗ DeclarationId)) : Except Fault Unit := do
  let indegree ← expect (tally (edgeList dependencies) (BTreeMap.ofKeys tasks.keys 0))
  let ready := indegree.keys.filter fun id => indegree[id]? = some 0
  let processed ← expect (peel (successors (edgeList dependencies)) tasks.size indegree
    (Std.TreeSet.ofList ready compare))
  refuseIf (processed ≠ tasks.size) .dependencyCycle

/-- Every join is of a child by its parent, and none is made twice. -/
def joinMap (scopes : BTreeMap DeclarationId ScopeEntry) (root : DeclarationId) :
    List ScopeJoin → BTreeMap DeclarationId DeclarationId →
    Except Fault (BTreeMap DeclarationId DeclarationId)
  | [], joins => .ok joins
  | join :: rest, joins => do
      refuseIf (join.waiter ∉ scopes ∨ join.target ∉ scopes) .unknownScope
      refuseIf (join.target = root) .orphanJoin
      let parent ← expect (parentIn scopes join.target).join
      refuseIf (join.waiter ≠ parent) .orphanJoin
      refuseIf (join.target ∈ joins) .doubleJoin
      joinMap scopes root rest (joins.insert join.target join.waiter)

/-- Build and validate a model. The work is counted in a `u64`, which the bounds keep from
overflowing. -/
def ScopedTaskModel.tryNew (scopes : List ScopeSpec) (tasks : List TaskSpec)
    (dependencies : List DependencyEdge) (joins : List ScopeJoin) :
    Except Fault ScopedTaskModel := do
  refuseIf (scopes = []) .missingRoot
  refuseIf (scopes.length > maxScopes) .scopeBoundExceeded
  refuseIf (tasks.length > maxTasks) .taskBoundExceeded
  refuseIf (dependencies.length > maxDependencies) .dependencyBoundExceeded
  refuseIf (tasks.length * (dependencies.length + 1) + scopes.length > maxWorkUnits)
    .workBudgetExceeded
  let parents ← scopeParents scopes ∅
  checkRoots scopes
  checkParents parents scopes
  let depths ← canonicalDepths parents parents.keys ∅
  let entries ← scopeEntries depths parents.toList ∅
  let root ← expect ((scopes.find? fun scope => scope.parent.isNone).map ScopeSpec.id)
  let taskEntries ← taskEntries entries tasks ∅
  let edges ← dependencySet entries taskEntries dependencies ∅
  validateAcyclic taskEntries edges
  refuseIf (joins.length ≠ scopes.length - 1) .unjoinedChildScope
  let joinMap ← joinMap entries root joins ∅
  refuseIf (∃ entry ∈ parents.toList, entry.2.isSome ∧ entry.1 ∉ joinMap) .unjoinedChildScope
  pure ⟨root, entries, taskEntries, edges, joinMap, successors (childLinks parents)⟩

end Semaprax.ScopedTasks
