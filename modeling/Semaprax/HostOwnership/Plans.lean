/-
**Plans that are committed later** (`host_ownership.rs`).

Between the planning of a call and its commit there may be other calls on the registry. A commit looks
at the tokens and the payloads of the plan, but not at where their owners come from; and a call that
was committed carries no trace of the registry that it belongs to.

* `compareContract_eq_ok`, `preflight_eq_ok` — what the checks of a call ask for.
* `preflight_of_plan` — a plan that is valid passes the checks again exactly if its owners come from
  where they came from.
* `Inherits`, `run_inherits` — an owner keeps its provenance, unless it is replaced.
* `ends_iff` — when the end of an invocation changes the owners of a registry.
* `plans_iff` — **when a committed plan is a valid call, and which registries its end changes.**
-/

import Semaprax.HostOwnership.Tokens

namespace Semaprax.HostOwnership

open Library

namespace HostOwnershipRegistry

section Checks

variable {registry earlier later : HostOwnershipRegistry} {contract : HostCallContract}
  {requirement : HostResourceRequirement} {executingThread : Nat} {request : HostCallRequest}
  {plan : HostPlannedInvocation}

variable {actual : HostResourceProvenance}

theorem compareContract_eq_ok :
    compareContract actual contract requirement executingThread = .ok () ↔
      actual.module = contract.module ∧ actual.adapter = contract.adapter ∧
        actual.resourceType = requirement.resourceType ∧ actual.lifecycle = requirement.lifecycle ∧
        actual.ownerThread = executingThread := by
  unfold compareContract
  simp only [bind_eq_ok, refuseIf_eq_ok, not_not, exists_const]

theorem compareContract_inj {other : HostResourceProvenance}
    (first : compareContract actual contract requirement executingThread = .ok ())
    (second : compareContract other contract requirement executingThread = .ok ()) :
    actual = other := by
  obtain ⟨module, adapter, resourceType, lifecycle, thread⟩ := compareContract_eq_ok.mp first
  obtain ⟨module', adapter', resourceType', lifecycle', thread'⟩ := compareContract_eq_ok.mp second
  cases actual
  cases other
  simp_all

/-- Where the owner of a slot comes from. -/
def provenanceAt (registry : HostOwnershipRegistry) (slot : Nat) : Option HostResourceProvenance :=
  (registry.owners[slot]?).map HostOwnerEntry.provenance

/-- The token names a live owner that comes from where the contract asks for. -/
def Meets (registry : HostOwnershipRegistry) (contract : HostCallContract) (executingThread : Nat)
    (token : HostOwnerToken) (requirement : HostResourceRequirement) : Prop :=
  ∃ owner, registry.lookup token = .ok owner ∧ owner.state = .live ∧
    compareContract owner.provenance contract requirement executingThread = .ok ()

theorem checkOwners_again {seen : List HostOwnerToken}
    {owners : List (HostOwnerToken × HostResourceRequirement)}
    (passed : earlier.checkOwners contract executingThread seen owners = .ok ()) :
    later.checkOwners contract executingThread seen owners = .ok () ↔
      ∀ pair ∈ owners, later.Meets contract executingThread pair.1 pair.2 := by
  induction owners generalizing seen with
  | nil => exact ⟨fun _ _ member => absurd member List.not_mem_nil, fun _ => rfl⟩
  | cons first rest ih =>
    obtain ⟨token, requirement⟩ := first
    unfold checkOwners at passed ⊢
    obtain ⟨_, fresh, passed⟩ := bind_eq_ok.mp passed
    obtain ⟨owner, -, passed⟩ := bind_eq_ok.mp passed
    obtain ⟨_, -, passed⟩ := bind_eq_ok.mp passed
    obtain ⟨_, -, passed⟩ := bind_eq_ok.mp passed
    rw [List.forall_mem_cons, ← ih passed, fresh]
    constructor
    · intro again
      obtain ⟨_, -, again⟩ := bind_eq_ok.mp again
      obtain ⟨owner, found, again⟩ := bind_eq_ok.mp again
      obtain ⟨_, live, again⟩ := bind_eq_ok.mp again
      obtain ⟨_, compared, again⟩ := bind_eq_ok.mp again
      exact ⟨⟨owner, found, not_not.mp (refuseIf_eq_ok.mp live), compared⟩, again⟩
    · rintro ⟨⟨owner, found, live, compared⟩, again⟩
      exact bind_eq_ok.mpr ⟨(), rfl, bind_eq_ok.mpr ⟨owner, found, bind_eq_ok.mpr
        ⟨(), refuseIf_eq_ok.mpr (not_not.mpr live), bind_eq_ok.mpr ⟨(), compared, again⟩⟩⟩⟩

theorem preflight_eq_ok : registry.preflight request = .ok () ↔
    registry.poisoned = false ∧ registry.active = none ∧ registry.nextInvocation ≠ maxU64 ∧
      (request.executingThread ≠ 0 ∧ request.executingThread = request.contract.boundThread) ∧
      request.owners.length = request.contract.inputs.length ∧
      registry.checkOwners request.contract request.executingThread []
        (request.owners.zip request.contract.inputs) = .ok () ∧
      registry.checkResult request = .ok () := by
  unfold preflight
  simp only [bind_eq_ok, refuseIf_eq_ok, exists_const, not_or, not_not, Bool.not_eq_true,
    Option.isSome_eq_false_iff, Option.isNone_iff_eq_none, ne_eq]
  constructor
  · rintro ⟨sound, idle, counted, threads, lengths, ⟨⟩, owners, result⟩
    exact ⟨sound, idle, counted, threads, lengths, owners, result⟩
  · rintro ⟨sound, idle, counted, threads, lengths, owners, result⟩
    exact ⟨sound, idle, counted, threads, lengths, (), owners, result⟩

theorem planCall_eq_ok (planned : earlier.planCall request = .ok plan) :
    earlier.preflight request = .ok () ∧ plan.registryNonce = earlier.nonce ∧
      plan.sequence = earlier.nextInvocation ∧ plan.tokens = request.owners := by
  unfold planCall at planned
  split at planned
  · cases planned
  · split at planned
    · cases planned
      exact ⟨‹_›, rfl, rfl, rfl⟩
    · cases planned

theorem validatePlan_eq_ok (valid : registry.validatePlan plan = .ok ()) :
    registry.poisoned = false ∧ registry.active = none ∧ plan.registryNonce = registry.nonce ∧
      plan.sequence = registry.nextInvocation ∧
      ∀ token ∈ plan.tokens, registry.isLive token = true := by
  obtain ⟨idle, -, live⟩ := validatePlan_live valid
  unfold validatePlan at valid
  obtain ⟨_, fitting, -⟩ := bind_eq_ok.mp valid
  have fits := refuseIf_eq_ok.mp fitting
  push Not at fits
  exact ⟨Bool.not_eq_true _ ▸ fits.1, idle, fits.2.2.1, fits.2.2.2.1, live⟩

theorem checkResult_again (passed : earlier.checkResult request = .ok ())
    (live : ∀ token ∈ request.owners, later.isLive token = true) :
    later.checkResult request = .ok () := by
  unfold checkResult at passed ⊢
  cases result : request.contract.result with
  | scalar => rfl
  | ownedInput inputIndex =>
    rw [result] at passed
    dsimp only at passed ⊢
    cases named : request.owners[inputIndex]? with
    | none => rfl
    | some token =>
      rw [named] at passed
      obtain ⟨owner, found, room⟩ := bind_eq_ok.mp passed
      obtain ⟨nonce, owner', found', generation, -⟩ :=
        isLive_iff.mp (live token (List.mem_of_getElem? named))
      refine bind_eq_ok.mpr ⟨owner', lookup_eq_ok.mpr ⟨nonce, found', generation⟩, ?_⟩
      rw [refuseIf_eq_ok] at room ⊢
      rw [generation, ← (lookup_eq_ok.mp found).2.2]
      exact room

/-- **A plan that is valid passes the checks again** exactly if its owners come from where they came
from when it was made. -/
theorem preflight_of_plan (planned : earlier.planCall request = .ok plan)
    (valid : later.validatePlan plan = .ok ()) :
    later.preflight request = .ok () ↔
      ∀ token ∈ plan.tokens, later.provenanceAt token.slot = earlier.provenanceAt token.slot := by
  obtain ⟨passed, nonce, sequence, tokens⟩ := planCall_eq_ok planned
  obtain ⟨sound, idle, nonce', sequence', live⟩ := validatePlan_eq_ok valid
  obtain ⟨-, -, counted, threads, lengths, owners, result⟩ := preflight_eq_ok.mp passed
  rw [tokens] at live ⊢
  have zipped : (request.owners.zip request.contract.inputs).map Prod.fst = request.owners :=
    List.map_fst_zip lengths.le
  have meets := (checkOwners_again owners).mp owners
  rw [preflight_eq_ok, checkOwners_again owners]
  constructor
  · rintro ⟨-, -, -, -, -, again, -⟩ token member
    rw [← zipped] at member
    obtain ⟨⟨token, requirement⟩, listed, rfl⟩ := List.mem_map.mp member
    obtain ⟨owner, found, -, compared⟩ := meets _ listed
    obtain ⟨owner', found', -, compared'⟩ := again _ listed
    unfold provenanceAt
    rw [(lookup_eq_ok.mp found).2.1, (lookup_eq_ok.mp found').2.1, Option.map_some, Option.map_some,
      compareContract_inj compared compared']
  · intro same
    refine ⟨sound, idle, ?_, threads, lengths, ?_, checkResult_again result live⟩
    · rw [← sequence', sequence]
      exact counted
    · rintro ⟨token, requirement⟩ listed
      have member : token ∈ request.owners := zipped ▸ List.mem_map_of_mem listed
      obtain ⟨owner, found, -, compared⟩ := meets _ listed
      obtain ⟨ours, owner', found', generation, alive⟩ := isLive_iff.mp (live token member)
      have provenance := same token member
      unfold provenanceAt at provenance
      rw [found', (lookup_eq_ok.mp found).2.1, Option.map_some, Option.map_some,
        Option.some.injEq] at provenance
      refine ⟨owner', lookup_eq_ok.mpr ⟨ours, found', generation⟩, alive, ?_⟩
      rw [provenance]
      exact compared

/-- A plan that is not stale, and a call that can be counted. -/
def Commits (registry : HostOwnershipRegistry) (plan : HostPlannedInvocation) : Prop :=
  registry.validatePlan plan = .ok () ∧ registry.nextInvocation < maxU64

theorem commitPlan_commits (registry : HostOwnershipRegistry) (plan : HostPlannedInvocation) :
    (commitPlan plan).wp (fun _ _ => registry.Commits plan)
      (fun _ after => after = registry ∧ ¬registry.Commits plan) registry := by
  unfold commitPlan
  simp only [wp_bind, wp_get, wp_check]
  constructor
  · intro rejection stale
    refine ⟨trivial, fun commits => ?_⟩
    rw [commits.1] at stale
    cases stale
  · intro _ valid
    unfold addOne checkedNext
    rw [wp_ofOption]
    constructor
    · intro full
      refine ⟨rfl, fun commits => ?_⟩
      rw [if_pos commits.2] at full
      cases full
    · intro next counted
      have room : registry.nextInvocation < maxU64 := by
        by_contra full
        rw [if_neg full] at counted
        cases counted
      obtain ⟨-, slots, live⟩ := validatePlan_live valid
      have present : ∀ slot ∈ plan.tokens.map HostOwnerToken.slot,
          ∃ owner, registry.owners[slot]? = some owner := by
        intro slot member
        obtain ⟨token, listed, rfl⟩ := List.mem_map.mp member
        obtain ⟨-, owner, found, -⟩ := isLive_iff.mp (live token listed)
        exact ⟨owner, found⟩
      simp only [wp_bind, wp_set]
      refine wp_mono (enter_changed plan.sequence (slots ▸ plan.distinct) present)
        (fun _ _ _ => ?_) fun _ _ impossible => impossible.elim
      exact ⟨valid, room⟩

/-- The plan of a request stands at a commit: if it is committed, the request passes the checks, and
if it is not, nothing has changed. -/
def PlanStands (earlier later : HostOwnershipRegistry) (request : HostCallRequest) : Prop :=
  ∀ plan, earlier.planCall request = .ok plan →
    (∀ invocation after, commitPlan plan later = (.ok invocation, after) →
      later.preflight request = .ok ()) ∧
    ∀ fault after, commitPlan plan later = (.error fault, after) → after = later

/-- Of a plan that is not stale, every owner comes from where it came from when it was planned. -/
def Unreplaced (earlier later : HostOwnershipRegistry) (request : HostCallRequest) : Prop :=
  ∀ plan, earlier.planCall request = .ok plan → later.Commits plan →
    ∀ token ∈ request.owners, later.provenanceAt token.slot = earlier.provenanceAt token.slot

theorem planStands_iff : PlanStands earlier later request ↔ Unreplaced earlier later request := by
  refine forall₂_congr fun plan planned => ?_
  have tokens := (planCall_eq_ok planned).2.2.2
  rcases wp_run (commitPlan_commits later plan) with
    ⟨invocation, after, ran, commits⟩ | ⟨fault, after, ran, same, stale⟩
  · have again := preflight_of_plan planned commits.1
    rw [tokens] at again
    rw [ran, ← again]
    constructor
    · intro stands _
      exact stands.1 invocation after rfl
    · intro passes
      exact ⟨fun _ _ _ => passes commits, fun _ _ failed => by cases failed⟩
  · rw [ran]
    refine ⟨fun _ commits => absurd commits stale, fun _ => ⟨?_, ?_⟩⟩
    · intro _ _ ended
      cases ended
    · intro _ _ failed
      cases failed
      exact same

end Checks

/-- The call registers an owner under a slot that the request names, which comes from elsewhere than
the owner that was there when the call was planned. -/
def Replaces {Status : Type} (earlier : HostOwnershipRegistry) (request : HostCallRequest)
    (registry : HostOwnershipRegistry) : Call Status → Prop
  | .registerAdapterOwner provenance _ => ∃ token ∈ request.owners, token.slot = registry.nextSlot ∧
      earlier.provenanceAt token.slot ≠ some provenance
  | _ => False

section Replaced

variable {Status : Type} {before after : HostOwnershipRegistry} {effect : Effect}

variable {slot : Nat} {owner : HostOwnerEntry}

theorem changed_provenance {slots : List Nat} {change : Nat → HostOwnerEntry → HostOwnerEntry}
    (keeps : ∀ slot owner, (change slot owner).provenance = owner.provenance)
    (found : before.changed slots change slot = some owner) :
    before.provenanceAt slot = some owner.provenance := by
  obtain ⟨old, known, rfl⟩ := Option.map_eq_some_iff.mp found
  unfold provenanceAt
  rw [known, Option.map_some]
  split_ifs
  · rw [keeps]
  · rfl

theorem Moved.provenance (moved : Moved before after effect)
    (old : ∀ slot, effect ≠ .registered slot)
    (found : after.owners[slot]? = some owner) :
    before.provenanceAt slot = some owner.provenance := by
  cases moved with
  | kept nonce nextSlot active owners =>
    rw [owners] at found
    exact congrArg (Option.map HostOwnerEntry.provenance) found
  | registered => exact absurd rfl (old _)
  | rolledBack token live nonce last nextSlot idle active owners =>
    rw [owners, BTreeMap.getElem?_erase_eq] at found
    split_ifs at found
    exact congrArg (Option.map HostOwnerEntry.provenance) found
  | retired token entry known live nonce nextSlot active owners =>
    rw [owners, BTreeMap.getElem?_insert_eq] at found
    split_ifs at found with same
    · cases found
      rw [← same]
      exact congrArg (Option.map HostOwnerEntry.provenance) (lookup_eq_ok.mp known).2.1
    · exact congrArg (Option.map HostOwnerEntry.provenance) found
  | committed tokens sequence live distinct nonce nextSlot idle active owners =>
    rw [owners] at found
    refine changed_provenance ?_ found
    exact fun _ _ => rfl
  | settled published chosen nonce nextSlot active owners =>
    rw [owners] at found
    refine changed_provenance (fun slot owner => ?_) found
    unfold settle
    split_ifs <;> rfl

theorem registerAdapterOwner_owners (provenance : HostResourceProvenance) (payload : Nat) :
    (registerAdapterOwner provenance payload).wp
      (fun _ after => after.owners = before.owners.insert before.nextSlot
        ⟨1, provenance, payload, .live⟩)
      (fun _ after => after.owners = before.owners) before := by
  unfold registerAdapterOwner
  simp only [wp_bind, wp_get, wp_stopIf, wp_ofOption, wp_set, wp_pure]
  exact ⟨fun _ => trivial, fun _ => ⟨fun _ => trivial, fun _ => ⟨fun _ => trivial, fun _ _ => rfl⟩⟩⟩

theorem effect_registered {event : Event Status} (registered : event.effect = .registered slot) :
    ∃ provenance payload, event.call = .registerAdapterOwner provenance payload := by
  obtain ⟨call, answer⟩ := event
  cases call with
  | registerAdapterOwner provenance payload => exact ⟨provenance, payload, rfl⟩
  | completePreparedOwned invocation result =>
    cases answer <;> cases result <;> cases registered
  | _ =>
    rcases answer with fault | answer
    · cases registered
    · cases answer <;> cases registered

theorem step_provenance {session : Session Status} (exact : Exact session.registry)
    (call : Call Status)
    (found : (session.step call).registry.owners[slot]? = some owner) :
    session.registry.provenanceAt slot = some owner.provenance ∨
      slot = session.registry.nextSlot ∧
        ∃ payload, call = .registerAdapterOwner owner.provenance payload := by
  by_cases registers : ∃ provenance payload, call = .registerAdapterOwner provenance payload
  · obtain ⟨provenance, payload, rfl⟩ := registers
    have runs : (perform (.registerAdapterOwner provenance payload : Call Status)).wp
        (fun _ after => after.owners = session.registry.owners.insert session.registry.nextSlot
          ⟨1, provenance, payload, .live⟩)
        (fun _ after => after.owners = session.registry.owners) session.registry := by
      unfold perform
      rw [wp_bind]
      exact registerAdapterOwner_owners provenance payload
    unfold Session.step at found
    rcases wp_run runs with ⟨answer, after, ran, owners⟩ | ⟨fault, after, ran, owners⟩
    · rw [ran] at found
      dsimp only at found
      rw [owners, BTreeMap.getElem?_insert_eq] at found
      split_ifs at found with same
      · cases found
        exact .inr ⟨same.symm, payload, rfl⟩
      · exact .inl (congrArg (Option.map HostOwnerEntry.provenance) found)
    · rw [ran] at found
      dsimp only at found
      rw [owners] at found
      exact .inl (congrArg (Option.map HostOwnerEntry.provenance) found)
  · refine .inl (Moved.provenance (Session.step_moved exact call) (fun slot registered => ?_) found)
    exact registers (effect_registered registered)

theorem run_provenance (nonce : Nat) (before between : List (Call Status))
    (request : HostCallRequest)
    (kept : ∀ first call rest, between = first ++ call :: rest →
      ¬Replaces (Session.run nonce before).registry request
        (Session.run nonce (before ++ first)).registry call)
    {token : HostOwnerToken} (member : token ∈ request.owners)
    (found : (Session.run nonce (before ++ between)).registry.owners[token.slot]? = some owner) :
    (Session.run nonce before).registry.provenanceAt token.slot = some owner.provenance := by
  induction between using List.reverseRecOn generalizing owner with
  | nil =>
    rw [List.append_nil] at found
    exact congrArg (Option.map HostOwnerEntry.provenance) found
  | append_singleton between call ih =>
    rw [← List.append_assoc, Session.run_append] at found
    rcases step_provenance (run_exact nonce (before ++ between)) call found with
      same | ⟨slot, payload, rfl⟩
    · obtain ⟨old, known, provenance⟩ := Option.map_eq_some_iff.mp same
      rw [← provenance]
      refine ih (fun first other rest split => kept first other (rest ++ [call]) ?_) known
      rw [split, List.append_assoc, List.cons_append]
    · by_contra other
      exact kept between _ [] rfl ⟨token, member, slot, other⟩

theorem unreplaced_of_run (nonce : Nat) (before between : List (Call Status))
    (request : HostCallRequest)
    (kept : ∀ first call rest, between = first ++ call :: rest →
      ¬Replaces (Session.run nonce before).registry request
        (Session.run nonce (before ++ first)).registry call) :
    Unreplaced (Session.run nonce before).registry (Session.run nonce (before ++ between)).registry
      request := by
  intro plan planned commits token member
  obtain ⟨-, -, -, -, live⟩ := validatePlan_eq_ok commits.1
  rw [(planCall_eq_ok planned).2.2.2] at live
  obtain ⟨-, owner, found, -⟩ := isLive_iff.mp (live token member)
  rw [run_provenance nonce before between request kept member found]
  exact congrArg (Option.map HostOwnerEntry.provenance) found

end Replaced

end HostOwnershipRegistry

/-- The ways in which an invocation is ended. -/
inductive Ending (Status : Type)
  | scalar (result : Except Status Int)
  | owned (result : Except Status Unit)
  | expected (owner : HostOwnerToken)
  | abandoned

def Ending.call {Status : Type} (invocation : HostPreparedInvocation) : Ending Status → Call Status
  | .scalar result => .completePreparedScalar invocation result
  | .owned result => .completePreparedOwned invocation result
  | .expected owner => .completePreparedOwnedExpected invocation owner
  | .abandoned => .abandonPrepared invocation

namespace HostOwnershipRegistry

/-- The call in progress has the sequence number, and the owner that is to be published, if any, is
one of its owners and has a next generation. -/
def Expects (registry : HostOwnershipRegistry) (sequence : Nat) (published : Option Nat) : Prop :=
  ∃ active, registry.active = some active ∧ active.sequence = sequence ∧
    ∀ slot, published = some slot → slot ∈ active.slots ∧
      ∀ owner, registry.owners[slot]? = some owner → owner.generation < maxU64

/-- The invocation is taken for the call in progress. -/
def Mistakes {Status : Type} (registry : HostOwnershipRegistry) (invocation : HostPreparedInvocation) :
    Ending Status → Prop
  | .scalar _ => invocation.resultSlot = none ∧ registry.Expects invocation.sequence none
  | .owned (.ok ()) => invocation.resultSlot.isSome ∧
      registry.Expects invocation.sequence invocation.resultSlot
  | .owned (.error _) => invocation.resultSlot.isSome ∧ registry.Expects invocation.sequence none
  | .expected owner => owner.registryNonce = registry.nonce ∧
      invocation.resultSlot = some owner.slot ∧
      registry.Expects invocation.sequence invocation.resultSlot ∧
      ∀ entry, registry.owners[owner.slot]? = some entry → entry.generation + 1 = owner.generation
  | .abandoned => True

section Endings

variable {Status : Type} {registry : HostOwnershipRegistry}

variable {published : Option Nat} {takes : Prop}

/-- A completion goes through exactly if it fits the call in progress. -/
theorem finish_expects (exact : Exact registry) (sequence : Nat) (published : Option Nat)
    (scalar : Option Int) (failure : Option Status)
    (single : (published.isSome, scalar.isSome, failure.isSome) ∈
      [(false, true, false), (true, false, false), (false, false, true)]) :
    (finish sequence published scalar failure).wp
      (fun _ after => Moved registry after (.settled published) ∧ registry.Expects sequence published)
      (fun _ after => Moved registry after .kept ∧ ¬registry.Expects sequence published) registry := by
  have reads : (finish sequence published scalar failure).wp
      (fun _ _ => registry.Expects sequence published)
      (fun _ after => after.active = none ∨ ¬registry.Expects sequence published) registry := by
    unfold finish
    simp only [wp_bind, wp_get, wp_ofOption, wp_stopIf, wp_set]
    refine ⟨fun idle => .inl idle, fun active going => ⟨fun other => .inr ?_, fun same =>
      ⟨fun several => absurd single several, fun _ => ⟨fun missing => .inr ?_, fun among =>
        ⟨fun broken => .inr ?_, fun committed => ?_⟩⟩⟩⟩⟩
    · rintro ⟨active', going', same, -⟩
      rw [going] at going'
      cases going'
      exact other same
    · rintro ⟨active', going', -, fits⟩
      rw [going] at going'
      cases going'
      obtain ⟨slot, chosen, missing⟩ := missing
      exact missing (fits slot chosen).1
    · rintro ⟨active', going', same, fits⟩
      rw [going] at going'
      cases going'
      refine absurd (checkCommitted_iff.mpr fun slot member => ?_) (by simpa using broken)
      obtain ⟨owner, found, inside⟩ := exact.active active going slot member
      exact ⟨owner, found, same ▸ inside, fun chosen => (fits slot chosen.symm).2 owner found⟩
    · have present := checkCommitted_iff.mp (by simpa using committed)
      have expects : registry.Expects sequence published := by
        refine ⟨active, going, not_not.mp same, fun slot chosen => ?_⟩
        have member : slot ∈ active.slots := by_contra fun missing => among ⟨slot, chosen, missing⟩
        obtain ⟨owner, found, -, room⟩ := present slot member
        refine ⟨member, fun other known => ?_⟩
        rw [found] at known
        cases known
        exact room chosen.symm
      refine wp_mono (settleSlots_changed (exact.slots_distinct going) (fun slot member => by
          obtain ⟨owner, found, -, room⟩ := present slot member
          exact ⟨owner, found, room⟩) none)
        (fun token after settled => ?_) fun _ _ impossible => impossible.elim
      have idle : after.active = none := settled.1.active
      cases failure <;> cases scalar <;> cases token <;>
        first | exact expects | exact .inl idle
  refine wp_mono ((finish_moved exact sequence published scalar failure).both reads)
    (fun _ _ both => both) (fun _ after both => ⟨both.1, fun expects => ?_⟩)
  rcases both.2 with idle | other
  · obtain ⟨active, going, -⟩ := expects
    cases both.1 with
    | kept nonce nextSlot same owners =>
      rw [same, going] at idle
      cases idle
  · exact other expects

theorem finishChecked_expects (exact : Exact registry) (sequence published : Nat)
    (expectedOwner : HostOwnerToken) :
    (finishChecked sequence published expectedOwner :
      Prog HostOwnershipRegistry Fault (HostCallOutcome Status)).wp
      (fun _ _ => expectedOwner.registryNonce = registry.nonce ∧ published = expectedOwner.slot ∧
        registry.Expects sequence (some published) ∧
        ∀ entry, registry.owners[expectedOwner.slot]? = some entry →
          entry.generation + 1 = expectedOwner.generation)
      (fun _ _ => ¬(expectedOwner.registryNonce = registry.nonce ∧ published = expectedOwner.slot ∧
        registry.Expects sequence (some published) ∧
        ∀ entry, registry.owners[expectedOwner.slot]? = some entry →
          entry.generation + 1 = expectedOwner.generation)) registry := by
  unfold finishChecked
  simp only [wp_bind, wp_get, wp_ofOption, wp_stopIf, wp_set]
  refine ⟨fun idle => ?_, fun active going => ⟨fun other => ?_, fun fitting =>
    ⟨fun broken => ?_, fun expected => ?_⟩⟩⟩
  · rintro ⟨-, -, ⟨active, going, -⟩, -⟩
    rw [idle] at going
    cases going
  · rintro ⟨nonce, slot, ⟨active', going', same, fits⟩, -⟩
    rw [going] at going'
    cases going'
    rcases other with other | missing | foreign | elsewhere
    · exact other same
    · exact missing (fits published rfl).1
    · exact foreign nonce
    · exact elsewhere slot.symm
  · rintro ⟨-, slot, ⟨active', going', same, fits⟩, next⟩
    rw [going] at going'
    cases going'
    refine absurd (checkExpected_iff.mpr fun other member => ?_) (by simpa using broken)
    obtain ⟨owner, found, inside⟩ := exact.active active going other member
    refine ⟨owner, found, same ▸ inside, fun chosen => ?_⟩
    rw [chosen] at found
    unfold checkedNext
    rw [if_pos ((fits published rfl).2 owner found), next owner (slot ▸ found)]
  · push Not at fitting
    have present := checkExpected_iff.mp (by simpa using expected)
    obtain ⟨owner, found, -, next⟩ := present published fitting.2.1
    refine wp_mono (settleExpected_changed (exact.slots_distinct going) fun slot member => by
        obtain ⟨owner, found, -, next⟩ := present slot member
        exact ⟨owner, found, next⟩)
      (fun _ after settled => ?_) fun _ _ impossible => impossible.elim
    refine ⟨fitting.2.2.1, fitting.2.2.2.symm, ⟨active, going, fitting.1, ?_⟩, ?_⟩
    · rintro slot chosen
      cases chosen
      refine ⟨fitting.2.1, fun other known => ?_⟩
      rw [found] at known
      cases known
      by_contra full
      have none := next rfl
      unfold checkedNext at none
      rw [if_neg full] at none
      cases none
    · intro other known
      rw [fitting.2.2.2, found] at known
      cases known
      exact (checkedNext_eq_some (next rfl)).symm

theorem settled_owners (exact : Exact registry) {after : HostOwnershipRegistry}
    (moved : Moved registry after (.settled published)) :
    (∀ slot : Nat, after.owners[slot]? = registry.owners[slot]?) ↔ registry.activeSlots = [] := by
  cases moved with
  | settled published chosen nonce nextSlot active owners =>
    constructor
    · intro same
      by_contra some'
      obtain ⟨slot, member⟩ := List.exists_mem_of_ne_nil _ some'
      obtain ⟨call, going, among⟩ : ∃ call, registry.active = some call ∧ slot ∈ call.slots := by
        unfold activeSlots at member
        cases going : registry.active with
        | none =>
          rw [going] at member
          cases member
        | some call =>
          rw [going] at member
          exact ⟨call, rfl, member⟩
      obtain ⟨owner, found, inside⟩ := exact.active call going slot among
      have settled := owners slot
      rw [same, changed, found, Option.map_some, if_pos member, Option.some.injEq] at settled
      have state := congrArg HostOwnerEntry.state settled
      rw [inside] at state
      unfold settle at state
      split_ifs at state
    · intro none slot
      rw [owners, none, changed_nil]

theorem ends_of_wp (exact : Exact registry) {call : Call Status} (published : Option Nat)
    (runs : (perform call).wp (fun _ after => Moved registry after (.settled published) ∧ takes)
      (fun _ after => Moved registry after .kept ∧ ¬takes) registry) :
    (∀ slot : Nat, (perform call registry).2.owners[slot]? = registry.owners[slot]?) ↔
      registry.activeSlots = [] ∨ ¬takes := by
  rcases wp_run runs with ⟨answer, after, ran, moved, taken⟩ | ⟨fault, after, ran, moved, other⟩
  · rw [ran]
    show (∀ slot : Nat, after.owners[slot]? = _) ↔ _
    rw [settled_owners exact moved]
    exact ⟨.inl, fun either => either.resolve_right (not_not.mpr taken)⟩
  · rw [ran]
    refine ⟨fun _ => .inr other, fun _ slot => ?_⟩
    cases moved with
    | kept nonce nextSlot active owners => exact congrArg (fun owners => owners[slot]?) owners

/-- A completion of an invocation that has to fit the call in progress, and nothing else. -/
theorem finish_takes (exact : Exact registry) {sequence : Nat}
    {scalar : Option Int} {failure : Option Status}
    (same : registry.Expects sequence published ↔ takes)
    (single : (published.isSome, scalar.isSome, failure.isSome) ∈
      [(false, true, false), (true, false, false), (false, false, true)]) :
    (finish sequence published scalar failure).wp
      (fun _ after => Moved registry after (.settled published) ∧ takes)
      (fun _ after => Moved registry after .kept ∧ ¬takes) registry := by
  rw [← same]
  exact finish_expects exact sequence published scalar failure single

theorem abandon_ends (sequence : Nat) :
    (abandon sequence).wp (fun _ _ => True) (fun _ _ => False) registry := by
  unfold abandon
  rw [wp_bind, wp_get]
  cases registry.active with
  | none | some active => exact trivial

/-- **The end of an invocation changes the owners of a registry** exactly if the registry has a call in
progress that it is taken for, and the call has an owner. -/
theorem ends_iff (exact : Exact registry) (invocation : HostPreparedInvocation)
    (ending : Ending Status) :
    (∀ slot : Nat, (perform (ending.call invocation) registry).2.owners[slot]? =
        registry.owners[slot]?) ↔
      registry.activeSlots = [] ∨ ¬registry.Mistakes invocation ending := by
  cases ending with
  | scalar result =>
    refine ends_of_wp exact none ?_
    show (perform (.completePreparedScalar invocation result)).wp _ _ registry
    unfold perform completePreparedScalar
    rw [wp_bind, wp_bind, wp_stopIf]
    refine ⟨fun owned => ⟨.refl, fun mistakes => ?_⟩, fun scalar => ?_⟩
    · rw [mistakes.1] at owned
      cases owned
    · have same : registry.Expects invocation.sequence none ↔
          registry.Mistakes invocation (.scalar result) :=
        ⟨fun expects => ⟨Option.not_isSome_iff_eq_none.mp scalar, expects⟩, And.right⟩
      cases result with
      | ok value | error status => exact finish_takes exact same (by simp)
  | owned result =>
    cases result with
    | ok done =>
      refine ends_of_wp exact invocation.resultSlot ?_
      show (perform (.completePreparedOwned invocation (.ok done))).wp _ _ registry
      unfold perform completePreparedOwned
      rw [wp_bind, wp_bind, wp_ofOption]
      refine ⟨fun scalar => ⟨.refl, fun mistakes => ?_⟩, fun slot owned => ?_⟩
      · have some' := mistakes.1
        rw [scalar] at some'
        cases some'
      · have same : registry.Expects invocation.sequence (some slot) ↔
            registry.Mistakes invocation (.owned (.ok done) : Ending Status) := by
          show _ ↔ _ ∧ _
          rw [owned]
          exact ⟨fun expects => ⟨rfl, expects⟩, And.right⟩
        rw [owned]
        exact finish_takes exact same (by simp)
    | error status =>
      refine ends_of_wp exact none ?_
      show (perform (.completePreparedOwned invocation (.error status))).wp _ _ registry
      unfold perform completePreparedOwned
      rw [wp_bind, wp_bind, wp_ofOption]
      refine ⟨fun scalar => ⟨.refl, fun mistakes => ?_⟩, fun slot owned => ?_⟩
      · have some' := mistakes.1
        rw [scalar] at some'
        cases some'
      · have same : registry.Expects invocation.sequence none ↔
            registry.Mistakes invocation (.owned (.error status)) :=
          ⟨fun expects => ⟨Option.isSome_iff_exists.mpr ⟨slot, owned⟩, expects⟩, And.right⟩
        exact finish_takes exact same (by simp)
  | expected owner =>
    refine ends_of_wp exact invocation.resultSlot ?_
    show (perform (.completePreparedOwnedExpected invocation owner : Call Status)).wp _ _ registry
    unfold perform completePreparedOwnedExpected
    rw [wp_bind, wp_bind, wp_ofOption]
    refine ⟨fun scalar => ⟨.refl, fun mistakes => ?_⟩, fun slot owned => ?_⟩
    · have some' := mistakes.2.1
      rw [scalar] at some'
      cases some'
    · refine wp_mono ((finishChecked_moved exact invocation.sequence slot owner).both
        (finishChecked_expects exact invocation.sequence slot owner))
        (fun _ after both => ?_) fun _ after both => ⟨both.1, fun mistakes => both.2 ?_⟩
      · show Moved registry after (.settled invocation.resultSlot) ∧ _ ∧ _
        rw [owned]
        obtain ⟨nonce, same, expects, next⟩ := both.2
        exact ⟨both.1, nonce, congrArg some same, expects, next⟩
      · obtain ⟨nonce, same, expects, next⟩ := mistakes
        rw [owned] at same expects
        exact ⟨nonce, Option.some.inj same, expects, next⟩
  | abandoned =>
    refine ends_of_wp exact none ?_
    show (perform (.abandonPrepared invocation : Call Status)).wp _ _ registry
    unfold perform
    rw [wp_bind]
    exact wp_mono ((abandon_moved exact invocation.sequence).both (abandon_ends _))
      (fun _ _ both => ⟨both.1, trivial⟩) fun _ _ both => both.2.elim

end Endings

/-- **When a committed plan is a valid call, and which registries its end changes.** A plan that is
committed is a valid call, and a plan that is not committed changes nothing, unless an owner of the
plan was replaced by one from elsewhere, which the plan does not tell apart; so in every run without
such a registration. The end of an invocation leaves the owners of a registry alone exactly if the
registry has no call with owners in progress that the invocation is taken for. -/
theorem plans_iff {Status : Type} (nonce : Nat) (before between : List (Call Status))
    (request : HostCallRequest) (otherNonce : Nat) (calls : List (Call Status))
    (invocation : HostPreparedInvocation) (ending : Ending Status) :
    (PlanStands (Session.run nonce before).registry (Session.run nonce (before ++ between)).registry
        request ↔
      Unreplaced (Session.run nonce before).registry
        (Session.run nonce (before ++ between)).registry request) ∧
    ((∀ first call rest, between = first ++ call :: rest →
        ¬Replaces (Session.run nonce before).registry request
          (Session.run nonce (before ++ first)).registry call) →
      PlanStands (Session.run nonce before).registry
        (Session.run nonce (before ++ between)).registry request) ∧
    ((∀ slot : Nat, (perform (ending.call invocation)
          (Session.run otherNonce calls).registry).2.owners[slot]? =
        (Session.run otherNonce calls).registry.owners[slot]?) ↔
      (Session.run otherNonce calls).registry.activeSlots = [] ∨
        ¬(Session.run otherNonce calls).registry.Mistakes invocation ending) :=
  ⟨planStands_iff,
    fun kept => planStands_iff.mpr (unreplaced_of_run nonce before between request kept),
    ends_iff (run_exact otherNonce calls) invocation ending⟩

/-- A call of one owner from the adapter, with a scalar result. -/
def adapterRequest (nonce : Nat) : HostCallRequest where
  contract :=
    { module := adapterProvenance.module
      adapter := adapterProvenance.adapter
      function := ⟨"function", by decide⟩
      boundThread := 1
      inputs := [⟨adapterProvenance.resourceType, adapterProvenance.lifecycle⟩]
      result := .scalar
      threaded := Nat.one_ne_zero
      resultInput := fun _ impossible => by cases impossible }
  executingThread := 1
  owners := [⟨nonce, 1, 1⟩]

def committingCalls (nonce : Nat) : List (Call Unit) :=
  [.registerAdapterOwner adapterProvenance 91, .prepareScalar (adapterRequest nonce)]

/-- The owner is rolled back, and one of another module is registered in its place. -/
def exchangingCalls : List (Call Unit) :=
  [.rollbackAdapterOwner ⟨7, 1, 1⟩,
    .registerAdapterOwner { adapterProvenance with module := ⟨"other", by decide⟩ } 91]

/-- The owner of a plan is exchanged, and the plan is committed; and an invocation that one registry
committed is abandoned on another one, whose call loses its owner. -/
theorem plans_mistaken : ¬PlanStands (Session.run 7 ((committingCalls 7).take 1)).registry
        (Session.run 7 ((committingCalls 7).take 1 ++ exchangingCalls)).registry (adapterRequest 7) ∧
      (Session.run 7 (committingCalls 7)).events[1]? =
        some ⟨.prepareScalar (adapterRequest 7), .ok (.prepared ⟨1, none, [⟨91⟩], [91]⟩)⟩ ∧
      ((Session.run 8 (committingCalls 8)).registry.owners[1]?).map HostOwnerEntry.state =
        some (.inInvocation 1) ∧
      ((perform (Ending.call ⟨1, none, [⟨91⟩], [91]⟩ (.abandoned : Ending Unit))
          (Session.run 8 (committingCalls 8)).registry).2.owners[1]?).map HostOwnerEntry.state =
        some .dead := by
  refine ⟨fun stands => ?_, rfl, by decide +kernel, by decide +kernel⟩
  have planned : (Session.run 7 ((committingCalls 7).take 1)).registry.planCall (adapterRequest 7) =
      .ok ⟨7, 1, none, [⟨7, 1, 1⟩], [1], [⟨91⟩], [91], by decide⟩ := rfl
  have same := planStands_iff.mp stands _ planned ⟨rfl, by decide +kernel⟩ ⟨7, 1, 1⟩
    List.mem_cons_self
  revert same
  decide +kernel

end HostOwnershipRegistry

end Semaprax.HostOwnership
