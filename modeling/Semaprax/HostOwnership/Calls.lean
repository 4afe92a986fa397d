/-
**Committed calls of a host ownership registry** (`host_ownership.rs`).

* `commitPlan` — every owner of a plan enters the call, or none.
* `finish`, `finishChecked`, `abandon` — the owners of the call are dead, and one may be published
  under its next generation.
* `HostOwnershipRegistry.perform` — one call on a registry, with its answer.
-/

import Semaprax.HostOwnership.Model

namespace Semaprax.HostOwnership

open Library

namespace HostOwnershipRegistry

/-- The next number; an overflow panics. -/
def addOne {S : Type} (number : Nat) : Prog S Fault Nat := ofOption .panicked (checkedNext number)

def expectOwner (slot : Nat) : Prog HostOwnershipRegistry Fault HostOwnerEntry := do
  let registry ← Prog.get
  ofOption .panicked registry.owners[slot]?

def setOwner (slot : Nat) (owner : HostOwnerEntry) : Prog HostOwnershipRegistry Fault Unit := do
  let registry ← Prog.get
  Prog.set (registry.put slot owner)

def enter (sequence : Nat) : List Nat → Prog HostOwnershipRegistry Fault Unit
  | [] => pure ()
  | slot :: slots => do
      let owner ← expectOwner slot
      setOwner slot { owner with state := .inInvocation sequence }
      enter sequence slots

def commitPlan (plan : HostPlannedInvocation) :
    Prog HostOwnershipRegistry Fault HostPreparedInvocation := do
  let registry ← Prog.get
  check (registry.validatePlan plan)
  let nextInvocation ← addOne registry.nextInvocation
  Prog.set
    { registry with
      nextInvocation := nextInvocation }
  enter plan.sequence (plan.tokens.map HostOwnerToken.slot)
  let registry ← Prog.get
  Prog.set
    { registry with
      active := some ⟨plan.sequence, plan.slots⟩ }
  pure ⟨plan.sequence, plan.resultSlot, plan.resources, plan.payloads⟩

/-- Plan and commit at once, for either kind of result. -/
def prepareScalar (request : HostCallRequest) :
    Prog HostOwnershipRegistry Fault HostPreparedInvocation := do
  let registry ← Prog.get
  match registry.planScalar request with
  | .error fault => Prog.stop fault
  | .ok plan => commitPlan plan

def prepareOwned (request : HostCallRequest) :
    Prog HostOwnershipRegistry Fault HostPreparedInvocation := do
  let registry ← Prog.get
  match registry.planOwned request with
  | .error fault => Prog.stop fault
  | .ok plan => commitPlan plan

/-- The owner of a slot of a call that ends without an exception: published, or dead. -/
def settle (published : Option Nat) (slot : Nat) (owner : HostOwnerEntry) : HostOwnerEntry :=
  if some slot = published then
    { owner with
      generation := owner.generation + 1
      state := .live }
  else { owner with state := .dead }

def checkCommitted (registry : HostOwnershipRegistry) (sequence : Nat) (published : Option Nat) :
    List Nat → Bool
  | [] => true
  | slot :: slots =>
    (match registry.owners[slot]? with
      | none => false
      | some owner => owner.state = .inInvocation sequence ∧
          (some slot = published → owner.generation < maxU64)) &&
    checkCommitted registry sequence published slots

def settleSlots (published : Option Nat) : List Nat → Option HostOwnerToken →
    Prog HostOwnershipRegistry Fault (Option HostOwnerToken)
  | [], publishedOwner => pure publishedOwner
  | slot :: slots, publishedOwner => do
      let registry ← Prog.get
      let owner ← expectOwner slot
      if some slot = published then
        let generation ← addOne owner.generation
        setOwner slot
          { owner with
            generation := generation
            state := .live }
        settleSlots published slots (some ⟨registry.nonce, slot, generation⟩)
      else
        setOwner slot { owner with state := .dead }
        settleSlots published slots publishedOwner

variable {Status : Type}

def finish (sequence : Nat) (publishedSlot : Option Nat) (scalar : Option Int)
    (failure : Option Status) : Prog HostOwnershipRegistry Fault (HostCallOutcome Status) := do
  let registry ← Prog.get
  let active ← ofOption .panicked registry.active
  stopIf (active.sequence ≠ sequence) .panicked
  -- exactly one of the three
  stopIf ((publishedSlot.isSome, scalar.isSome, failure.isSome) ∉
    [(false, true, false), (true, false, false), (false, false, true)]) .panicked
  stopIf (∃ slot, publishedSlot = some slot ∧ slot ∉ active.slots) .panicked
  stopIf (!registry.checkCommitted sequence publishedSlot active.slots) .panicked
  Prog.set
    { registry with
      active := none }
  let publishedOwner ← settleSlots publishedSlot active.slots none
  match failure, scalar, publishedOwner with
  | some status, _, _ => pure (.executedFailure status)
  | none, some value, none => pure (.executedSuccess (.scalar value))
  | none, none, some owner => pure (.executedSuccess (.owner owner))
  | none, _, _ => Prog.stop .panicked

def checkExpected (registry : HostOwnershipRegistry) (sequence published generation : Nat) :
    List Nat → Bool
  | [] => true
  | slot :: slots =>
    (match registry.owners[slot]? with
      | none => false
      | some owner => owner.state = .inInvocation sequence ∧
          (slot = published → checkedNext owner.generation = some generation)) &&
    checkExpected registry sequence published generation slots

def settleExpected (published generation : Nat) : List Nat → Prog HostOwnershipRegistry Fault Unit
  | [] => pure ()
  | slot :: slots => do
      let registry ← Prog.get
      let owner ← ofOption (.rejected .stalePlan) registry.owners[slot]?
      setOwner slot (if slot = published then
          { owner with
            generation := generation
            state := .live }
        else { owner with state := .dead })
      settleExpected published generation slots

def finishChecked (sequence publishedSlot : Nat) (expectedOwner : HostOwnerToken) :
    Prog HostOwnershipRegistry Fault (HostCallOutcome Status) := do
  let registry ← Prog.get
  let active ← ofOption (.rejected .stalePlan) registry.active
  stopIf (active.sequence ≠ sequence ∨ publishedSlot ∉ active.slots ∨
    expectedOwner.registryNonce ≠ registry.nonce ∨ expectedOwner.slot ≠ publishedSlot)
    (.rejected .stalePlan)
  stopIf
    (!registry.checkExpected sequence publishedSlot expectedOwner.generation active.slots)
    (.rejected .stalePlan)
  Prog.set
    { registry with
      active := none }
  settleExpected publishedSlot expectedOwner.generation active.slots
  pure (.executedSuccess (.owner expectedOwner))

/-- The slots of an abandoned call, in order: what is not as the call left it poisons the registry. -/
def kill (sequence : Nat) : List Nat → HostOwnershipRegistry → HostOwnershipRegistry
  | [], registry => registry
  | slot :: slots, registry =>
    match registry.owners[slot]? with
    | some owner => kill sequence slots
        ({ registry with
            poisoned :=
              registry.poisoned || owner.state ≠ HostOwnerState.inInvocation sequence }.put slot
          { owner with state := .dead })
    | none => kill sequence slots { registry with poisoned := true }

/-- End the call without an outcome. -/
def abandon (sequence : Nat) : Prog HostOwnershipRegistry Fault Unit := do
  let registry ← Prog.get
  match registry.active with
  | none =>
    Prog.set
      { registry with
        poisoned := true
        lastAbandonment := true }
  | some active =>
    let killed := kill sequence active.slots
      { registry with
        active := none
        poisoned := registry.poisoned || active.sequence ≠ sequence }
    Prog.set
      { killed with
        lastAbandonment := true }

def completePreparedScalar (invocation : HostPreparedInvocation) (result : Except Status Int) :
    Prog HostOwnershipRegistry Fault (HostCallOutcome Status) := do
  stopIf (invocation.resultSlot.isSome = true) .panicked
  match result with
  | .ok value => finish invocation.sequence none (some value) none
  | .error status => finish invocation.sequence none none (some status)

def completePreparedOwned (invocation : HostPreparedInvocation) (result : Except Status Unit) :
    Prog HostOwnershipRegistry Fault (HostCallOutcome Status) := do
  let resultSlot ← ofOption .panicked invocation.resultSlot
  match result with
  | .ok () => finish invocation.sequence (some resultSlot) none none
  | .error status => finish invocation.sequence none none (some status)

def completePreparedOwnedExpected (invocation : HostPreparedInvocation)
    (expectedOwner : HostOwnerToken) :
    Prog HostOwnershipRegistry Fault (HostCallOutcome Status) := do
  let resultSlot ← ofOption (.rejected .resultKindMismatch) invocation.resultSlot
  finishChecked invocation.sequence resultSlot expectedOwner

/-- Whether a call was abandoned since this was last asked. -/
def takeLastAbandonment : Prog HostOwnershipRegistry Fault Bool := do
  let registry ← Prog.get
  Prog.set
    { registry with
      lastAbandonment := false }
  pure registry.lastAbandonment

end HostOwnershipRegistry

/-- The calls on a registry, with any tokens, plans and invocations. -/
inductive Call (Status : Type)
  | registerAdapterOwner (provenance : HostResourceProvenance) (payload : Nat)
  | rollbackAdapterOwner (token : HostOwnerToken)
  | retireOwner (token : HostOwnerToken)
  | planScalar (request : HostCallRequest)
  | planOwned (request : HostCallRequest)
  | commitPlan (plan : HostPlannedInvocation)
  | prepareScalar (request : HostCallRequest)
  | prepareOwned (request : HostCallRequest)
  | completePreparedScalar (invocation : HostPreparedInvocation) (result : Except Status Int)
  | completePreparedOwned (invocation : HostPreparedInvocation) (result : Except Status Unit)
  | completePreparedOwnedExpected (invocation : HostPreparedInvocation)
      (expectedOwner : HostOwnerToken)
  | abandonPrepared (invocation : HostPreparedInvocation)
  | takeLastAbandonment

/-- What a call that succeeds returns. -/
inductive Answer (Status : Type)
  | token (token : HostOwnerToken)
  | payload (payload : Nat)
  | plan (plan : HostPlannedInvocation)
  | prepared (invocation : HostPreparedInvocation)
  | outcome (outcome : HostCallOutcome Status)
  | flag (flag : Bool)
  | done

variable {Status : Type}

def HostOwnershipRegistry.perform : Call Status → Prog HostOwnershipRegistry Fault (Answer Status)
  | .registerAdapterOwner provenance payload => do
      let token ← registerAdapterOwner provenance payload
      pure (.token token)
  | .rollbackAdapterOwner token => do
      rollbackAdapterOwner token
      pure .done
  | .retireOwner token => do
      let payload ← retireOwner token
      pure (.payload payload)
  | .planScalar request => do
      let registry ← Prog.get
      match registry.planScalar request with
      | .error fault => Prog.stop fault
      | .ok plan => pure (.plan plan)
  | .planOwned request => do
      let registry ← Prog.get
      match registry.planOwned request with
      | .error fault => Prog.stop fault
      | .ok plan => pure (.plan plan)
  | .commitPlan plan => do
      let invocation ← commitPlan plan
      pure (.prepared invocation)
  | .prepareScalar request => do
      let invocation ← prepareScalar request
      pure (.prepared invocation)
  | .prepareOwned request => do
      let invocation ← prepareOwned request
      pure (.prepared invocation)
  | .completePreparedScalar invocation result => do
      let outcome ← completePreparedScalar invocation result
      pure (.outcome outcome)
  | .completePreparedOwned invocation result => do
      let outcome ← completePreparedOwned invocation result
      pure (.outcome outcome)
  | .completePreparedOwnedExpected invocation expectedOwner => do
      let outcome ← completePreparedOwnedExpected invocation expectedOwner
      pure (.outcome outcome)
  | .abandonPrepared invocation => do
      abandon invocation.sequence
      pure .done
  | .takeLastAbandonment => do
      let flag ← takeLastAbandonment
      pure (.flag flag)

/-- What was called, and what came of it. -/
structure Event (Status : Type) where
  call : Call Status
  answer : Except Fault (Answer Status)

/-- A registry with the history of the calls on it. -/
structure Session (Status : Type) where
  registry : HostOwnershipRegistry
  events : List (Event Status)

def Session.step (session : Session Status) (call : Call Status) : Session Status :=
  ⟨(HostOwnershipRegistry.perform call session.registry).2,
    session.events ++ [⟨call, (HostOwnershipRegistry.perform call session.registry).1⟩]⟩

/-- The calls on a new registry, in order. -/
def Session.run (nonce : Nat) (calls : List (Call Status)) : Session Status :=
  calls.foldl Session.step ⟨HostOwnershipRegistry.new nonce, []⟩

end Semaprax.HostOwnership
