/-
**The host ownership registry** (`host_ownership.rs`).

Owners live in slots under a generation, and a token names a registry, a slot and a generation. A call
takes all its owners at once; what it does not publish is dead once the call is over.

* `HostOwnershipRegistry.registerAdapterOwner`, `rollbackAdapterOwner`, `retireOwner`.
* `planCall`, `commitPlan` — a call is planned without a change and committed as a whole.
* `finish`, `finishChecked`, `abandon` — the three ways in which a committed call ends.
* `preflight_distinct` — the owners of a call that is planned are in different slots.

A failed assertion or expectation panics, and the registry is left as it was at that point.
-/

import Semaprax.Library.Collections
import Semaprax.Library.Programs
import Semaprax.Library.Results

namespace Semaprax.HostOwnership

open Library

/-- A name without NUL that is not empty. -/
structure HostIdentity where
  value : String
  valid : ¬value.isEmpty ∧ '\x00' ∉ value.toList
deriving DecidableEq

/-- Where a resource comes from. -/
structure HostResourceProvenance where
  module : HostIdentity
  adapter : HostIdentity
  resourceType : HostIdentity
  lifecycle : HostIdentity
  ownerThread : Nat
  threaded : ownerThread ≠ 0
deriving DecidableEq

structure HostResourceRequirement where
  resourceType : HostIdentity
  lifecycle : HostIdentity
deriving DecidableEq

inductive HostResultPlan
  | scalar
  | ownedInput (inputIndex : Nat)
deriving DecidableEq

/-- The contract of one exported function; an owned result is one of the inputs. -/
structure HostCallContract where
  module : HostIdentity
  adapter : HostIdentity
  function : HostIdentity
  boundThread : Nat
  inputs : List HostResourceRequirement
  result : HostResultPlan
  threaded : boundThread ≠ 0
  resultInput : ∀ inputIndex, result = .ownedInput inputIndex → inputIndex < inputs.length

structure HostOwnerToken where
  registryNonce : Nat
  slot : Nat
  generation : Nat
deriving DecidableEq, Repr

structure HostCallRequest where
  contract : HostCallContract
  executingThread : Nat
  owners : List HostOwnerToken

inductive HostPublishedValue
  | scalar (value : Int)
  | owner (token : HostOwnerToken)
deriving DecidableEq, Repr

/-- What an executed call comes to; a failure carries a status. -/
inductive HostCallOutcome (Status : Type)
  | executedSuccess (value : HostPublishedValue)
  | executedFailure (status : Status)

inductive HostBoundaryRejection
  | invalidIdentity
  | registryExhausted
  | invocationExhausted
  | reentrantInvocation
  | registryPoisoned
  | inputCountMismatch
  | unknownOwner
  | staleOwner
  | ownerNotLive
  | duplicateOwner
  | wrongModule
  | wrongAdapter
  | wrongResourceType
  | wrongLifecycle
  | wrongThread
  | invalidOwnedResult
  | resultKindMismatch
  | stalePlan
deriving DecidableEq, Repr

/-- How a call may fail: with a rejection, or with a panic. -/
inductive Fault
  | rejected (rejection : HostBoundaryRejection)
  | panicked
deriving DecidableEq, Repr

structure HostCommittedResource where
  payload : Nat
deriving DecidableEq, Repr

/-- A call that was committed and has to be completed or abandoned. -/
structure HostPreparedInvocation where
  sequence : Nat
  resultSlot : Option Nat
  resources : List HostCommittedResource
  payloads : List Nat

/-- A call that was planned. Its owners are in different slots. -/
structure HostPlannedInvocation where
  registryNonce : Nat
  sequence : Nat
  resultSlot : Option Nat
  tokens : List HostOwnerToken
  slots : List Nat
  resources : List HostCommittedResource
  payloads : List Nat
  distinct : slots.Nodup

inductive HostOwnerState
  | live
  | inInvocation (sequence : Nat)
  | dead
deriving DecidableEq, Repr

structure HostOwnerEntry where
  generation : Nat
  provenance : HostResourceProvenance
  payload : Nat
  state : HostOwnerState
deriving DecidableEq

structure ActiveInvocation where
  sequence : Nat
  slots : List Nat
deriving DecidableEq, Repr

structure HostOwnershipRegistry where
  nonce : Nat
  nextSlot : Nat
  nextInvocation : Nat
  owners : BTreeMap Nat HostOwnerEntry
  active : Option ActiveInvocation
  lastAbandonment : Bool
  poisoned : Bool

/-- The greatest unsigned 64-bit number. -/
def maxU64 : Nat := 2 ^ 64 - 1

def checkedNext (number : Nat) : Option Nat := if number < maxU64 then some (number + 1) else none

def refuseIf (condition : Prop) [Decidable condition] (rejection : HostBoundaryRejection) :
    Except HostBoundaryRejection Unit :=
  if condition then .error rejection else .ok ()

def compareContract (actual : HostResourceProvenance) (contract : HostCallContract)
    (requirement : HostResourceRequirement) (executingThread : Nat) :
    Except HostBoundaryRejection Unit := do
  refuseIf (actual.module ≠ contract.module) .wrongModule
  refuseIf (actual.adapter ≠ contract.adapter) .wrongAdapter
  refuseIf (actual.resourceType ≠ requirement.resourceType) .wrongResourceType
  refuseIf (actual.lifecycle ≠ requirement.lifecycle) .wrongLifecycle
  refuseIf (actual.ownerThread ≠ executingThread) .wrongThread

namespace HostOwnershipRegistry

/-- A registry without owners. -/
def new (nonce : Nat) : HostOwnershipRegistry where
  nonce := nonce
  nextSlot := 1
  nextInvocation := 1
  owners := ∅
  active := none
  lastAbandonment := false
  poisoned := false

def put (registry : HostOwnershipRegistry) (slot : Nat) (owner : HostOwnerEntry) :
    HostOwnershipRegistry :=
  { registry with
    owners := registry.owners.insert slot owner }

/-- A step of a call that may reject it. -/
def check {A : Type} (result : Except HostBoundaryRejection A) :
    Prog HostOwnershipRegistry Fault A :=
  match result with
  | .ok value => pure value
  | .error rejection => Prog.stop (.rejected rejection)

/-- Register an owner in the next slot, under the first generation. -/
def registerAdapterOwner (provenance : HostResourceProvenance) (payload : Nat) :
    Prog HostOwnershipRegistry Fault HostOwnerToken := do
  let registry ← Prog.get
  stopIf (registry.poisoned = true) (.rejected .registryPoisoned)
  stopIf (registry.active.isSome = true) (.rejected .reentrantInvocation)
  let slot := registry.nextSlot
  let nextSlot ← ofOption (.rejected .registryExhausted) (checkedNext slot)
  Prog.set ({ registry with nextSlot := nextSlot }.put slot
    { generation := 1
      provenance := provenance
      payload := payload
      state := .live })
  pure ⟨registry.nonce, slot, 1⟩

/-- Undo the registration of the owner in the last slot. -/
def rollbackAdapterOwner (token : HostOwnerToken) : Prog HostOwnershipRegistry Fault Unit := do
  let registry ← Prog.get
  stopIf (registry.poisoned = true ∨ registry.active.isSome = true) (.rejected .stalePlan)
  let expectedNext ← ofOption (.rejected .stalePlan) (checkedNext token.slot)
  stopIf (token.registryNonce ≠ registry.nonce ∨ registry.nextSlot ≠ expectedNext)
    (.rejected .stalePlan)
  let owner ← ofOption (.rejected .stalePlan) registry.owners[token.slot]?
  stopIf (owner.generation ≠ token.generation ∨ owner.state ≠ .live) (.rejected .stalePlan)
  Prog.set
    { registry with
      owners := registry.owners.erase token.slot
      nextSlot := token.slot }

def lookup (registry : HostOwnershipRegistry) (token : HostOwnerToken) :
    Except HostBoundaryRejection HostOwnerEntry :=
  if token.registryNonce ≠ registry.nonce then .error .unknownOwner
  else
    match registry.owners[token.slot]? with
    | none => .error .unknownOwner
    | some owner =>
      if owner.generation ≠ token.generation then .error .staleOwner else .ok owner

def isLive (registry : HostOwnershipRegistry) (token : HostOwnerToken) : Bool :=
  match registry.lookup token with
  | .ok owner => owner.state = .live
  | .error _ => false

def payload (registry : HostOwnershipRegistry) (token : HostOwnerToken) : Option Nat :=
  match registry.lookup token with
  | .ok owner => if owner.state = .live then some owner.payload else none
  | .error _ => none

def retireOwner (token : HostOwnerToken) : Prog HostOwnershipRegistry Fault Nat := do
  let registry ← Prog.get
  stopIf (registry.poisoned = true) (.rejected .registryPoisoned)
  let owner ← check (registry.lookup token)
  stopIf (owner.state ≠ .live) (.rejected .ownerNotLive)
  Prog.set (registry.put token.slot { owner with state := .dead })
  pure owner.payload

def checkOwners (registry : HostOwnershipRegistry) (contract : HostCallContract)
    (executingThread : Nat) : List HostOwnerToken →
    List (HostOwnerToken × HostResourceRequirement) → Except HostBoundaryRejection Unit
  | _, [] => .ok ()
  | seen, (token, requirement) :: rest => do
      refuseIf (token ∈ seen) .duplicateOwner
      let owner ← registry.lookup token
      refuseIf (owner.state ≠ .live) .ownerNotLive
      compareContract owner.provenance contract requirement executingThread
      checkOwners registry contract executingThread (token :: seen) rest

/-- An owned result can be published under a next generation. -/
def checkResult (registry : HostOwnershipRegistry) (request : HostCallRequest) :
    Except HostBoundaryRejection Unit :=
  match request.contract.result with
  | .scalar => .ok ()
  | .ownedInput inputIndex =>
    match request.owners[inputIndex]? with
    -- the index is in range: there are as many owners as inputs
    | none => .ok ()
    | some token => do
        let owner ← registry.lookup token
        refuseIf (owner.generation = maxU64) .registryExhausted

/-- The checks of a call, without a change. -/
def preflight (registry : HostOwnershipRegistry) (request : HostCallRequest) :
    Except HostBoundaryRejection Unit := do
  refuseIf (registry.poisoned = true) .registryPoisoned
  refuseIf (registry.active.isSome = true) .reentrantInvocation
  refuseIf (registry.nextInvocation = maxU64) .invocationExhausted
  refuseIf (request.executingThread = 0 ∨
    request.executingThread ≠ request.contract.boundThread) .wrongThread
  refuseIf (request.owners.length ≠ request.contract.inputs.length) .inputCountMismatch
  registry.checkOwners request.contract request.executingThread []
    (request.owners.zip request.contract.inputs)
  registry.checkResult request

variable {registry : HostOwnershipRegistry} {owner : HostOwnerEntry}

theorem refuseIf_eq_ok {condition : Prop} [Decidable condition] {rejection : HostBoundaryRejection}
    {done : Unit} : refuseIf condition rejection = .ok done ↔ ¬condition := by
  unfold refuseIf
  split_ifs with holds <;> simp [holds]

theorem lookup_eq_ok {token : HostOwnerToken} : registry.lookup token = .ok owner ↔
      token.registryNonce = registry.nonce ∧ registry.owners[token.slot]? = some owner ∧
        owner.generation = token.generation := by
  unfold lookup
  by_cases own : token.registryNonce = registry.nonce
  · rw [if_neg (not_not.mpr own)]
    cases found : registry.owners[token.slot]? with
    | none => simp
    | some other =>
      by_cases same : other.generation = token.generation
      · simp only [same, ne_eq, not_true_eq_false, if_false, Except.ok.injEq, own, true_and,
          Option.some.injEq]
        exact ⟨fun equal => ⟨equal, equal ▸ same⟩, fun equal => equal.1⟩
      · simp only [same, ne_eq, not_false_eq_true, if_true, reduceCtorEq, false_iff, not_and,
          Option.some.injEq]
        rintro - rfl
        exact same
  · simp [own]

theorem lookup_inj {first second : HostOwnerToken}
    {other : HostOwnerEntry} (left : registry.lookup first = .ok owner)
    (right : registry.lookup second = .ok other) (slot : first.slot = second.slot) :
    first = second := by
  obtain ⟨nonce, found, generation⟩ := lookup_eq_ok.mp left
  obtain ⟨nonce', found', generation'⟩ := lookup_eq_ok.mp right
  rw [slot, found'] at found
  obtain rfl := Option.some.inj found
  obtain ⟨_, _, _⟩ := first
  obtain ⟨_, _, _⟩ := second
  simp_all

theorem checkOwners_live {contract : HostCallContract}
    {executingThread : Nat} {seen : List HostOwnerToken}
    {owners : List (HostOwnerToken × HostResourceRequirement)}
    (passed : registry.checkOwners contract executingThread seen owners = .ok ()) :
    (∀ token ∈ owners.map Prod.fst, token ∉ seen ∧
      ∃ owner, registry.lookup token = .ok owner ∧ owner.state = .live) ∧
    ((owners.map Prod.fst).map HostOwnerToken.slot).Nodup := by
  induction owners generalizing seen with
  | nil => simp
  | cons first rest ih =>
    obtain ⟨token, requirement⟩ := first
    unfold checkOwners at passed
    obtain ⟨_, fresh, passed⟩ := bind_eq_ok.mp passed
    obtain ⟨owner, found, passed⟩ := bind_eq_ok.mp passed
    obtain ⟨_, live, passed⟩ := bind_eq_ok.mp passed
    obtain ⟨_, -, passed⟩ := bind_eq_ok.mp passed
    obtain ⟨later, distinct⟩ := ih passed
    refine ⟨fun other member => ?_, ?_⟩
    · rcases List.mem_cons.mp member with rfl | member
      · exact ⟨refuseIf_eq_ok.mp fresh, owner, found, not_not.mp (refuseIf_eq_ok.mp live)⟩
      · obtain ⟨unseen, known⟩ := later other member
        exact ⟨fun old => unseen (List.mem_cons_of_mem _ old), known⟩
    · rw [List.map_cons, List.map_cons, List.nodup_cons]
      refine ⟨fun member => ?_, distinct⟩
      obtain ⟨other, listed, slot⟩ := List.mem_map.mp member
      obtain ⟨unseen, known, found', -⟩ := later other listed
      exact unseen (lookup_inj found' found slot ▸ List.mem_cons_self)

theorem preflight_live {request : HostCallRequest} (passed : registry.preflight request = .ok ()) :
    (∀ token ∈ request.owners, ∃ owner, registry.lookup token = .ok owner ∧ owner.state = .live) ∧
    (request.owners.map HostOwnerToken.slot).Nodup := by
  unfold preflight at passed
  iterate 4 obtain ⟨_, -, passed⟩ := bind_eq_ok.mp passed
  obtain ⟨_, counted, passed⟩ := bind_eq_ok.mp passed
  obtain ⟨_, checked, -⟩ := bind_eq_ok.mp passed
  obtain ⟨live, distinct⟩ := checkOwners_live checked
  have same : (request.owners.zip request.contract.inputs).map Prod.fst = request.owners :=
    List.map_fst_zip (not_not.mp (refuseIf_eq_ok.mp counted)).le
  rw [same] at live distinct
  exact ⟨fun token member => (live token member).2, distinct⟩

def resourcesOf (registry : HostOwnershipRegistry) (tokens : List HostOwnerToken) :
    Option (List HostCommittedResource) :=
  tokens.mapM fun token =>
    match registry.lookup token with
    | .ok owner => some ⟨owner.payload⟩
    | .error _ => none

def resultSlotOf (result : HostResultPlan) (slots : List Nat) : Option (Option Nat) :=
  match result with
  | .scalar => some none
  | .ownedInput inputIndex => (slots[inputIndex]?).map some

def planCall (registry : HostOwnershipRegistry) (request : HostCallRequest) :
    Except Fault HostPlannedInvocation :=
  match passed : registry.preflight request with
  | .error rejection => .error (.rejected rejection)
  | .ok () =>
    match registry.resourcesOf request.owners,
        resultSlotOf request.contract.result (request.owners.map HostOwnerToken.slot) with
    | some resources, some resultSlot => .ok
        { registryNonce := registry.nonce
          sequence := registry.nextInvocation
          resultSlot := resultSlot
          tokens := request.owners
          slots := request.owners.map HostOwnerToken.slot
          resources := resources
          payloads := resources.map HostCommittedResource.payload
          distinct := (preflight_live passed).2 }
    | _, _ => .error .panicked

def planScalar (registry : HostOwnershipRegistry) (request : HostCallRequest) :
    Except Fault HostPlannedInvocation :=
  if request.contract.result ≠ .scalar then .error (.rejected .resultKindMismatch)
  else registry.planCall request

def planOwned (registry : HostOwnershipRegistry) (request : HostCallRequest) :
    Except Fault HostPlannedInvocation :=
  if request.contract.result = .scalar then .error (.rejected .resultKindMismatch)
  else registry.planCall request

def checkPlanned (registry : HostOwnershipRegistry) :
    List HostOwnerToken → List Nat → List HostCommittedResource → List Nat →
    Except HostBoundaryRejection Unit
  | token :: tokens, slot :: slots, resource :: resources, payload :: payloads => do
      refuseIf (token.slot ≠ slot) .stalePlan
      let owner ← (registry.lookup token).mapError fun _ => .stalePlan
      refuseIf (owner.state ≠ .live ∨ owner.payload ≠ payload ∨ owner.payload ≠ resource.payload)
        .stalePlan
      checkPlanned registry tokens slots resources payloads
  | _, _, _, _ => .ok ()

def validatePlan (registry : HostOwnershipRegistry) (plan : HostPlannedInvocation) :
    Except HostBoundaryRejection Unit := do
  refuseIf (registry.poisoned = true ∨ registry.active.isSome = true ∨
    plan.registryNonce ≠ registry.nonce ∨ plan.sequence ≠ registry.nextInvocation ∨
    plan.tokens.length ≠ plan.slots.length ∨ plan.tokens.length ≠ plan.resources.length ∨
    plan.tokens.length ≠ plan.payloads.length) .stalePlan
  registry.checkPlanned plan.tokens plan.slots plan.resources plan.payloads
  refuseIf (∃ slot, plan.resultSlot = some slot ∧ slot ∉ plan.slots) .stalePlan

end HostOwnershipRegistry

end Semaprax.HostOwnership
