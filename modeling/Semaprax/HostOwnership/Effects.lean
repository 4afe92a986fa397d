/-
**What a call does to a registry** (`host_ownership.rs`).

Every call on a registry has one of six effects on its owners, and the answer tells which.

* `Effect`, `Event.effect` — the effect that an event reports.
* `Moved` — what a registry is after an effect.
* `Exact` — the owners that are in a call are those of the one active call.
* `perform_moved` — from an exact registry every call has the effect that its answer reports.
-/

import Semaprax.HostOwnership.Calls

namespace Semaprax.HostOwnership

open Library

/-- The effects of a call. -/
inductive Effect
  | kept
  | registered (slot : Nat)
  | rolledBack (token : HostOwnerToken)
  | retired (token : HostOwnerToken)
  | committed (tokens : List HostOwnerToken) (sequence : Nat)
  | settled (published : Option Nat)

def Event.effect {Status : Type} (event : Event Status) : Effect :=
  match event.answer with
  | .error _ => .kept
  | .ok answer =>
    match event.call, answer with
    | .registerAdapterOwner .., .token token => .registered token.slot
    | .rollbackAdapterOwner token, _ => .rolledBack token
    | .retireOwner token, _ => .retired token
    | .commitPlan plan, _ => .committed plan.tokens plan.sequence
    | .prepareScalar request, .prepared invocation =>
      .committed request.owners invocation.sequence
    | .prepareOwned request, .prepared invocation =>
      .committed request.owners invocation.sequence
    | .completePreparedScalar .., _ => .settled none
    | .completePreparedOwned invocation (.ok ()), _ => .settled invocation.resultSlot
    | .completePreparedOwned _ (.error _), _ => .settled none
    | .completePreparedOwnedExpected invocation _, _ => .settled invocation.resultSlot
    | .abandonPrepared _, _ => .settled none
    | _, _ => .kept

namespace HostOwnershipRegistry

def activeSlots (registry : HostOwnershipRegistry) : List Nat :=
  match registry.active with
  | none => []
  | some active => active.slots

def changed (registry : HostOwnershipRegistry) (slots : List Nat)
    (change : Nat → HostOwnerEntry → HostOwnerEntry) (slot : Nat) : Option HostOwnerEntry :=
  (registry.owners[slot]?).map fun owner => if slot ∈ slots then change slot owner else owner

end HostOwnershipRegistry

open HostOwnershipRegistry

inductive Moved (before after : HostOwnershipRegistry) : Effect → Prop
  | kept (nonce : after.nonce = before.nonce) (nextSlot : after.nextSlot = before.nextSlot)
      (active : after.active = before.active) (owners : after.owners = before.owners) :
      Moved before after .kept
  | registered (provenance : HostResourceProvenance) (payload : Nat)
      (nonce : after.nonce = before.nonce) (nextSlot : after.nextSlot = before.nextSlot + 1)
      (idle : before.active = none) (active : after.active = none)
      (owners : after.owners =
        before.owners.insert before.nextSlot ⟨1, provenance, payload, .live⟩) :
      Moved before after (.registered before.nextSlot)
  | rolledBack (token : HostOwnerToken) (live : before.isLive token = true)
      (nonce : after.nonce = before.nonce) (last : before.nextSlot = token.slot + 1)
      (nextSlot : after.nextSlot = token.slot) (idle : before.active = none)
      (active : after.active = none) (owners : after.owners = before.owners.erase token.slot) :
      Moved before after (.rolledBack token)
  | retired (token : HostOwnerToken) (owner : HostOwnerEntry)
      (found : before.lookup token = .ok owner) (live : owner.state = .live)
      (nonce : after.nonce = before.nonce) (nextSlot : after.nextSlot = before.nextSlot)
      (active : after.active = before.active)
      (owners : after.owners = before.owners.insert token.slot { owner with
          state := .dead }) :
      Moved before after (.retired token)
  | committed (tokens : List HostOwnerToken) (sequence : Nat)
      (live : ∀ token ∈ tokens, before.isLive token = true)
      (distinct : (tokens.map HostOwnerToken.slot).Nodup)
      (nonce : after.nonce = before.nonce) (nextSlot : after.nextSlot = before.nextSlot)
      (idle : before.active = none)
      (active : after.active = some ⟨sequence, tokens.map HostOwnerToken.slot⟩)
      (owners : ∀ slot : Nat, after.owners[slot]? = before.changed (tokens.map HostOwnerToken.slot)
          (fun _ owner => { owner with state := .inInvocation sequence }) slot) :
      Moved before after (.committed tokens sequence)
  | settled (published : Option Nat)
      (chosen : ∀ slot, published = some slot → slot ∈ before.activeSlots)
      (nonce : after.nonce = before.nonce) (nextSlot : after.nextSlot = before.nextSlot)
      (active : after.active = none)
      (owners : ∀ slot : Nat, after.owners[slot]? =
        before.changed before.activeSlots (settle published) slot) :
      Moved before after (.settled published)

/-- Owners are in a call exactly if they are those of the active call, and none is past the next
slot. -/
structure Exact (registry : HostOwnershipRegistry) : Prop where
  below : ∀ (slot : Nat) (owner : HostOwnerEntry), registry.owners[slot]? = some owner →
    slot < registry.nextSlot
  distinct : registry.activeSlots.Nodup
  active : ∀ active, registry.active = some active → ∀ slot ∈ active.slots,
    ∃ owner, registry.owners[slot]? = some owner ∧ owner.state = .inInvocation active.sequence
  involved : ∀ (slot : Nat) (owner : HostOwnerEntry) (sequence : Nat),
    registry.owners[slot]? = some owner → owner.state = .inInvocation sequence →
      ∃ active, registry.active = some active ∧ active.sequence = sequence ∧ slot ∈ active.slots

section Calls

variable {registry : HostOwnershipRegistry}

variable {stops : Fault → HostOwnershipRegistry → Prop} {token : HostOwnerToken}
variable {owner : HostOwnerEntry} {slots : List Nat} {plan : HostPlannedInvocation}
variable {slot sequence generation : Nat} {published : Option Nat} {active : ActiveInvocation}
variable {request : HostCallRequest}

@[simp]
theorem wp_check {A : Type} (result : Except HostBoundaryRejection A)
    {ends : A → HostOwnershipRegistry → Prop} :
    (check result).wp ends stops registry ↔
      (∀ rejection, result = .error rejection → stops (.rejected rejection) registry) ∧
        ∀ value, result = .ok value → ends value registry := by
  cases result <;> simp [check]

theorem Moved.refl : Moved registry registry .kept := .kept rfl rfl rfl rfl

theorem checkedNext_eq_some {number next : Nat} (counted : checkedNext number = some next) :
    next = number + 1 := by
  unfold checkedNext at counted
  split_ifs at counted
  exact (Option.some.inj counted).symm

theorem isLive_of_lookup (found : registry.lookup token = .ok owner) (live : owner.state = .live) :
    registry.isLive token = true := by
  unfold isLive
  rw [found]
  exact decide_eq_true live

theorem isLive_iff : registry.isLive token = true ↔
    token.registryNonce = registry.nonce ∧ ∃ owner, registry.owners[token.slot]? = some owner ∧
      owner.generation = token.generation ∧ owner.state = .live := by
  unfold isLive
  cases found : registry.lookup token with
  | error rejection =>
    refine ⟨(nomatch ·), fun ⟨nonce, owner, present, generation, _⟩ => ?_⟩
    rw [lookup_eq_ok.mpr ⟨nonce, present, generation⟩] at found
    exact nomatch found
  | ok owner =>
    obtain ⟨nonce, present, generation⟩ := lookup_eq_ok.mp found
    rw [decide_eq_true_eq]
    refine ⟨fun live => ⟨nonce, owner, present, generation, live⟩, ?_⟩
    rintro ⟨-, other, present', -, live⟩
    rw [present] at present'
    obtain rfl := Option.some.inj present'
    exact live

theorem registerAdapterOwner_moved (provenance : HostResourceProvenance) (payload : Nat) :
    (registerAdapterOwner provenance payload).wp
      (fun token after => Moved registry after (.registered token.slot))
      (fun _ after => Moved registry after .kept) registry := by
  unfold registerAdapterOwner
  simp only [wp_bind, wp_get, wp_stopIf, wp_ofOption, wp_set, wp_pure]
  refine ⟨fun _ => .refl, fun _ => ⟨fun _ => .refl, fun idle => ⟨fun _ => .refl, fun next counted => ?_⟩⟩⟩
  have none := Option.not_isSome_iff_eq_none.mp idle
  exact .registered provenance payload rfl (checkedNext_eq_some counted) none none rfl

theorem rollbackAdapterOwner_moved (token : HostOwnerToken) :
    (rollbackAdapterOwner token).wp (fun _ after => Moved registry after (.rolledBack token))
      (fun _ after => Moved registry after .kept) registry := by
  unfold rollbackAdapterOwner
  simp only [wp_bind, wp_get, wp_stopIf, wp_ofOption, wp_set]
  refine ⟨fun _ => .refl, fun idle => ⟨fun _ => .refl, fun next counted => ⟨fun _ => .refl,
    fun last => ⟨fun _ => .refl, fun owner found => ⟨fun _ => .refl, fun live => ?_⟩⟩⟩⟩⟩
  push Not at idle last live
  have none : registry.active = none := by simpa using idle.2
  refine .rolledBack token (isLive_iff.mpr ⟨last.1, owner, found, live.1, live.2⟩) rfl ?_ rfl none
    none rfl
  rw [last.2]
  exact checkedNext_eq_some counted

theorem retireOwner_moved (token : HostOwnerToken) :
    (retireOwner token).wp (fun _ after => Moved registry after (.retired token))
      (fun _ after => Moved registry after .kept) registry := by
  unfold retireOwner
  simp only [wp_bind, wp_get, wp_stopIf, wp_check, wp_set, wp_pure]
  refine ⟨fun _ => .refl, fun _ => ⟨fun _ _ => .refl, fun owner found => ⟨fun _ => .refl,
    fun live => ?_⟩⟩⟩
  exact .retired token owner found (not_not.mp live) rfl rfl rfl rfl

theorem checkPlanned_live {tokens : List HostOwnerToken}
    {resources : List HostCommittedResource} {payloads : List Nat}
    (sameSlots : tokens.length = slots.length) (sameResources : tokens.length = resources.length)
    (samePayloads : tokens.length = payloads.length)
    (passed : registry.checkPlanned tokens slots resources payloads = .ok ()) :
    slots = tokens.map HostOwnerToken.slot ∧ ∀ token ∈ tokens, registry.isLive token = true := by
  induction tokens generalizing slots resources payloads with
  | nil => exact ⟨List.length_eq_zero_iff.mp sameSlots.symm, fun _ member => nomatch member⟩
  | cons token tokens ih =>
    obtain ⟨slot, slots, rfl⟩ := List.exists_cons_of_length_eq_add_one sameSlots.symm
    obtain ⟨resource, resources, rfl⟩ := List.exists_cons_of_length_eq_add_one sameResources.symm
    obtain ⟨payload, payloads, rfl⟩ := List.exists_cons_of_length_eq_add_one samePayloads.symm
    unfold checkPlanned at passed
    obtain ⟨_, slot, passed⟩ := bind_eq_ok.mp passed
    obtain ⟨owner, found, passed⟩ := bind_eq_ok.mp passed
    obtain ⟨_, live, passed⟩ := bind_eq_ok.mp passed
    have known : registry.lookup token = .ok owner := by
      cases looked : registry.lookup token with
      | error rejection =>
        rw [looked] at found
        exact nomatch found
      | ok other =>
        rw [looked] at found
        exact congrArg Except.ok (Except.ok.inj found)
    obtain ⟨rest, lives⟩ := ih (Nat.succ.inj sameSlots) (Nat.succ.inj sameResources)
      (Nat.succ.inj samePayloads) passed
    have alive : owner.state = .live := (not_or.mp (refuseIf_eq_ok.mp live)).1 |> not_not.mp
    refine ⟨?_, fun other member => ?_⟩
    · rw [List.map_cons, ← rest, not_not.mp (refuseIf_eq_ok.mp slot)]
    · rcases List.mem_cons.mp member with rfl | member
      · exact isLive_of_lookup known alive
      · exact lives other member

theorem validatePlan_live (passed : registry.validatePlan plan = .ok ()) :
    registry.active = none ∧ plan.slots = plan.tokens.map HostOwnerToken.slot ∧
      ∀ token ∈ plan.tokens, registry.isLive token = true := by
  unfold validatePlan at passed
  obtain ⟨_, fitting, passed⟩ := bind_eq_ok.mp passed
  obtain ⟨_, planned, -⟩ := bind_eq_ok.mp passed
  have fits := refuseIf_eq_ok.mp fitting
  push Not at fits
  obtain ⟨-, idle, -, -, slots, resources, payloads⟩ := fits
  exact ⟨by simpa using idle, checkPlanned_live slots resources payloads planned⟩

variable {change : Nat → HostOwnerEntry → HostOwnerEntry}

theorem changed_nil (slot : Nat) : registry.changed [] change slot = registry.owners[slot]? := by
  unfold changed
  simp

theorem changed_put
    (found : registry.owners[slot]? = some owner) (fresh : slot ∉ slots) (other : Nat) :
    (registry.put slot (change slot owner)).changed slots change other =
      registry.changed (slot :: slots) change other := by
  unfold changed put
  rw [BTreeMap.getElem?_insert_eq]
  by_cases same : slot = other
  · subst same
    simp [found, fresh]
  · simp [same, Ne.symm same]

/-- The registry with some slots changed, and otherwise as it was. -/
structure Changed (before after : HostOwnershipRegistry) (slots : List Nat)
    (change : Nat → HostOwnerEntry → HostOwnerEntry) : Prop where
  nonce : after.nonce = before.nonce
  nextSlot : after.nextSlot = before.nextSlot
  active : after.active = before.active
  owners : ∀ slot : Nat, after.owners[slot]? = before.changed slots change slot

theorem Changed.refl : Changed registry registry [] change :=
  ⟨rfl, rfl, rfl, fun slot => (changed_nil slot).symm⟩

theorem Changed.cons {slot : Nat} {slots : List Nat} {owner : HostOwnerEntry}
    {after : HostOwnershipRegistry} (found : registry.owners[slot]? = some owner)
    (fresh : slot ∉ slots) (later : Changed (registry.put slot (change slot owner)) after slots change) :
    Changed registry after (slot :: slots) change where
  nonce := later.nonce
  nextSlot := later.nextSlot
  active := later.active
  owners := fun other => (later.owners other).trans (changed_put found fresh other)

theorem put_found {other : Nat} (fresh : slot ∉ slots) (member : other ∈ slots) :
    (registry.put slot owner).owners[other]? = registry.owners[other]? := by
  have differ : slot ≠ other := fun same => fresh (same ▸ member)
  unfold put
  rw [BTreeMap.getElem?_insert_eq, if_neg differ]

@[simp]
theorem wp_expectOwner (slot : Nat) {ends : HostOwnerEntry → HostOwnershipRegistry → Prop}
    : (expectOwner slot).wp ends stops registry ↔
      (registry.owners[slot]? = none → stops .panicked registry) ∧
        ∀ owner, registry.owners[slot]? = some owner → ends owner registry := by
  unfold expectOwner
  simp only [wp_bind, wp_get, wp_ofOption]

@[simp]
theorem wp_setOwner (slot : Nat) (owner : HostOwnerEntry)
    {ends : Unit → HostOwnershipRegistry → Prop} :
    (setOwner slot owner).wp ends stops registry ↔ ends () (registry.put slot owner) := by
  unfold setOwner
  simp only [wp_bind, wp_get, wp_set]

theorem enter_changed (sequence : Nat) (distinct : slots.Nodup)
    (present : ∀ slot ∈ slots, ∃ owner, registry.owners[slot]? = some owner) :
    (enter sequence slots).wp
      (fun _ after => Changed registry after slots
        fun _ owner => { owner with state := .inInvocation sequence })
      (fun _ _ => False) registry := by
  induction slots generalizing registry with
  | nil => exact .refl
  | cons slot slots ih =>
    obtain ⟨fresh, distinct⟩ := List.nodup_cons.mp distinct
    obtain ⟨owner, found⟩ := present slot List.mem_cons_self
    unfold enter
    simp only [wp_bind, wp_expectOwner, wp_setOwner, found, reduceCtorEq, false_implies,
      Option.some.injEq, forall_eq', true_and]
    refine wp_mono (ih distinct fun other member => ?_) (fun _ after later => ?_)
      fun _ _ impossible => impossible
    · rw [put_found fresh member]
      exact present other (List.mem_cons_of_mem _ member)
    · exact .cons found fresh later

theorem commitPlan_moved (plan : HostPlannedInvocation) : (commitPlan plan).wp
      (fun invocation after => Moved registry after (.committed plan.tokens plan.sequence) ∧
        invocation.sequence = plan.sequence)
      (fun _ after => Moved registry after .kept) registry := by
  unfold commitPlan
  simp only [wp_bind, wp_get, wp_check]
  refine ⟨fun _ _ => .refl, fun _ passed => ?_⟩
  obtain ⟨idle, slots, live⟩ := validatePlan_live passed
  have distinct := slots ▸ plan.distinct
  unfold addOne
  rw [wp_ofOption]
  refine ⟨fun _ => .refl, fun next _ => ?_⟩
  simp only [wp_bind, wp_set]
  refine wp_mono (enter_changed plan.sequence distinct fun slot member => ?_)
    (fun _ after entered => ?_) fun _ _ impossible => impossible.elim
  · obtain ⟨token, listed, rfl⟩ := List.mem_map.mp member
    obtain ⟨-, owner, found, -⟩ := isLive_iff.mp (live token listed)
    exact ⟨owner, found⟩
  · simp only [wp_bind, wp_get, wp_set, wp_pure, and_true]
    exact .committed plan.tokens plan.sequence live distinct entered.nonce entered.nextSlot idle
      (by rw [slots]) entered.owners

theorem checkCommitted_iff : registry.checkCommitted sequence published slots = true ↔
      ∀ slot ∈ slots, ∃ owner, registry.owners[slot]? = some owner ∧
        owner.state = .inInvocation sequence ∧
          (some slot = published → owner.generation < maxU64) := by
  induction slots with
  | nil => simp [checkCommitted]
  | cons slot slots ih =>
    unfold checkCommitted
    rw [Bool.and_eq_true, ih, List.forall_mem_cons]
    refine and_congr_left fun _ => ?_
    cases registry.owners[slot]? <;> simp [imp_iff_not_or]

def publishedToken (registry : HostOwnershipRegistry) (published : Option Nat) :
    Option HostOwnerToken :=
  published.bind fun slot => (registry.owners[slot]?).map fun owner =>
    ⟨registry.nonce, slot, owner.generation + 1⟩

theorem settleSlots_changed (distinct : slots.Nodup)
    (present : ∀ slot ∈ slots, ∃ owner, registry.owners[slot]? = some owner ∧
      (some slot = published → owner.generation < maxU64))
    (token : Option HostOwnerToken) :
    (settleSlots published slots token).wp
      (fun result after => Changed registry after slots (settle published) ∧
        result = if ∃ slot ∈ slots, published = some slot then publishedToken registry published
          else token)
      (fun _ _ => False) registry := by
  induction slots generalizing registry token with
  | nil => exact ⟨.refl, by simp⟩
  | cons slot slots ih =>
    obtain ⟨fresh, distinct⟩ := List.nodup_cons.mp distinct
    obtain ⟨owner, found, room⟩ := present slot List.mem_cons_self
    have others : ∀ other ∈ slots, ∃ entry,
        (registry.put slot (settle published slot owner)).owners[other]? = some entry ∧
          (some other = published → entry.generation < maxU64) := fun other member => by
      rw [put_found fresh member]
      exact present other (List.mem_cons_of_mem _ member)
    unfold settleSlots
    simp only [wp_bind, wp_get, wp_expectOwner, found, reduceCtorEq, false_implies,
      Option.some.injEq, forall_eq', true_and]
    by_cases chosen : some slot = published
    · subst chosen
      have settled : settle (some slot) slot owner =
          { owner with
            generation := owner.generation + 1
            state := .live } := if_pos rfl
      have next : checkedNext owner.generation = some (owner.generation + 1) := if_pos (room rfl)
      unfold addOne
      simp only [if_true, wp_bind, wp_ofOption, wp_setOwner, next, reduceCtorEq,
        false_implies, Option.some.injEq, forall_eq', true_and]
      rw [← settled]
      refine wp_mono (ih distinct others _) (fun result after later => ?_)
        fun _ _ impossible => impossible
      refine ⟨.cons found fresh later.1, later.2.trans ?_⟩
      rw [if_neg (by simpa using fresh), if_pos ⟨slot, List.mem_cons_self, rfl⟩]
      simp [publishedToken, found]
    · have settled : settle published slot owner = { owner with state := .dead } := if_neg chosen
      simp only [if_neg chosen, wp_bind, wp_setOwner]
      rw [← settled]
      refine wp_mono (ih distinct others token) (fun result after later => ?_)
        fun _ _ impossible => impossible
      refine ⟨.cons found fresh later.1, later.2.trans ?_⟩
      have same : (∃ other ∈ slot :: slots, published = some other) ↔
          ∃ other ∈ slots, published = some other := by
        simp [Ne.symm chosen]
      rw [if_congr same rfl rfl]
      split_ifs with among
      · obtain ⟨other, member, rfl⟩ := among
        unfold publishedToken
        rw [Option.bind_some, Option.bind_some, put_found fresh member]
        rfl
      · rfl

variable {Status : Type}

theorem Exact.slots_distinct (exact : Exact registry)
    (going : registry.active = some active) : active.slots.Nodup := by
  have distinct := exact.distinct
  unfold activeSlots at distinct
  rw [going] at distinct
  exact distinct

theorem activeSlots_eq (going : registry.active = some active) :
    registry.activeSlots = active.slots := by
  unfold activeSlots
  rw [going]

theorem Moved.of_changed {after : HostOwnershipRegistry} (going : registry.active = some active)
    (chosen : ∀ slot, published = some slot → slot ∈ active.slots)
    (settled : Changed { registry with active := none } after active.slots (settle published)) :
    Moved registry after (.settled published) := by
  have slots := activeSlots_eq going
  refine .settled published (by rw [slots]; exact chosen) settled.nonce settled.nextSlot
    settled.active ?_
  rw [slots]
  exact settled.owners

/-- A completion settles the owners of the call, or changes nothing. -/
theorem finish_moved (exact : Exact registry) (sequence : Nat) (published : Option Nat)
    (scalar : Option Int) (failure : Option Status) :
    (finish sequence published scalar failure).wp
      (fun _ after => Moved registry after (.settled published))
      (fun _ after => Moved registry after .kept) registry := by
  unfold finish
  simp only [wp_bind, wp_get, wp_ofOption, wp_stopIf, wp_set]
  refine ⟨fun _ => .refl, fun active going => ⟨fun _ => .refl, fun _ => ⟨fun _ => .refl,
    fun single => ⟨fun _ => .refl, fun among => ⟨fun _ => .refl, fun committed => ?_⟩⟩⟩⟩⟩
  have chosen : ∀ slot, published = some slot → slot ∈ active.slots := fun slot same =>
    by_contra fun missing => among ⟨slot, same, missing⟩
  have present := checkCommitted_iff.mp (by simpa using committed)
  refine wp_mono (settleSlots_changed (exact.slots_distinct going) (fun slot member => by
      obtain ⟨owner, found, -, room⟩ := present slot member
      exact ⟨owner, found, room⟩) none)
    (fun token after settled => ?_) fun _ _ impossible => impossible.elim
  have moved := Moved.of_changed going chosen settled.1
  have token_eq := settled.2
  rcases failure with _ | status
  · rcases scalar with _ | value
    · cases published with
      | none => simp at single
      | some slot =>
        have member := chosen slot rfl
        obtain ⟨owner, found, -⟩ := present slot member
        rw [if_pos ⟨slot, member, rfl⟩] at token_eq
        have given : token = some ⟨registry.nonce, slot, owner.generation + 1⟩ := by
          rw [token_eq]
          show (some slot).bind _ = _
          rw [Option.bind_some]
          show ((registry.owners[slot]?).map _) = _
          rw [found]
          rfl
        rw [given]
        exact moved
    · cases published with
      | none =>
        rw [if_neg (by simp)] at token_eq
        rw [token_eq]
        exact moved
      | some slot => simp at single
  · exact moved

theorem checkExpected_iff {published : Nat} :
    registry.checkExpected sequence published generation slots = true ↔
      ∀ slot ∈ slots, ∃ owner, registry.owners[slot]? = some owner ∧
        owner.state = .inInvocation sequence ∧
          (slot = published → checkedNext owner.generation = some generation) := by
  induction slots with
  | nil => simp [checkExpected]
  | cons slot slots ih =>
    unfold checkExpected
    rw [Bool.and_eq_true, ih, List.forall_mem_cons]
    refine and_congr_left fun _ => ?_
    cases registry.owners[slot]? <;> simp [imp_iff_not_or]

theorem settleExpected_changed {published : Nat} (distinct : slots.Nodup)
    (present : ∀ slot ∈ slots, ∃ owner, registry.owners[slot]? = some owner ∧
      (slot = published → checkedNext owner.generation = some generation)) :
    (settleExpected published generation slots).wp
      (fun _ after => Changed registry after slots (settle (some published)))
      (fun _ _ => False) registry := by
  induction slots generalizing registry with
  | nil => exact .refl
  | cons slot slots ih =>
    obtain ⟨fresh, distinct⟩ := List.nodup_cons.mp distinct
    obtain ⟨owner, found, next⟩ := present slot List.mem_cons_self
    have settled : (if slot = published then
        { owner with
          generation := generation
          state := .live }
        else { owner with state := .dead }) = settle (some published) slot owner := by
      unfold settle
      by_cases chosen : slot = published
      · rw [if_pos chosen, if_pos (congrArg some chosen), checkedNext_eq_some (next chosen)]
      · rw [if_neg chosen, if_neg fun same => chosen (Option.some.inj same)]
    unfold settleExpected
    simp only [wp_bind, wp_get, wp_ofOption, wp_setOwner, found, reduceCtorEq,
      false_implies, Option.some.injEq, forall_eq', true_and]
    rw [settled]
    refine wp_mono (ih distinct fun other member => ?_) (fun _ after later => ?_)
      fun _ _ impossible => impossible
    · rw [put_found fresh member]
      exact present other (List.mem_cons_of_mem _ member)
    · exact .cons found fresh later

theorem finishChecked_moved (exact : Exact registry) (sequence published : Nat)
    (expectedOwner : HostOwnerToken) :
    (finishChecked sequence published expectedOwner :
      Prog HostOwnershipRegistry Fault (HostCallOutcome Status)).wp
      (fun _ after => Moved registry after (.settled (some published)))
      (fun _ after => Moved registry after .kept) registry := by
  unfold finishChecked
  simp only [wp_bind, wp_get, wp_ofOption, wp_stopIf, wp_set]
  refine ⟨fun _ => .refl, fun active going => ⟨fun _ => .refl, fun fitting => ⟨fun _ => .refl,
    fun expected => ?_⟩⟩⟩
  push Not at fitting
  have present := checkExpected_iff.mp (by simpa using expected)
  refine wp_mono (settleExpected_changed (exact.slots_distinct going) fun slot member => by
      obtain ⟨owner, found, -, next⟩ := present slot member
      exact ⟨owner, found, next⟩)
    (fun _ after settled => ?_) fun _ _ impossible => impossible.elim
  exact .of_changed going (fun slot same => Option.some.inj same ▸ fitting.2.1) settled

theorem kill_changed (sequence : Nat) (distinct : slots.Nodup)
    (present : ∀ slot ∈ slots, ∃ owner, registry.owners[slot]? = some owner) :
    Changed registry (kill sequence slots registry) slots (settle none) := by
  induction slots generalizing registry with
  | nil => exact .refl
  | cons slot slots ih =>
    obtain ⟨fresh, distinct⟩ := List.nodup_cons.mp distinct
    obtain ⟨owner, found⟩ := present slot List.mem_cons_self
    unfold kill
    simp only [found]
    let marked : HostOwnershipRegistry := { registry with
      poisoned := registry.poisoned || owner.state ≠ HostOwnerState.inInvocation sequence }
    let killed := marked.put slot { owner with state := .dead }
    have later : Changed killed (kill sequence slots killed) slots (settle none) :=
      ih distinct fun other member => by
        rw [put_found fresh member]
        exact present other (List.mem_cons_of_mem _ member)
    exact .cons found fresh ⟨later.nonce, later.nextSlot, later.active, later.owners⟩

theorem abandon_moved (exact : Exact registry) (sequence : Nat) :
    (abandon sequence).wp (fun _ after => Moved registry after (.settled none))
      (fun _ after => Moved registry after .kept) registry := by
  unfold abandon
  rw [wp_bind, wp_get]
  cases going : registry.active with
  | none =>
    have slots : registry.activeSlots = [] := by
      unfold activeSlots
      rw [going]
    refine .settled none (fun _ impossible => nomatch impossible) rfl rfl rfl fun slot => ?_
    rw [slots, changed_nil]
  | some active =>
    let idle : HostOwnershipRegistry := { registry with
      active := none
      poisoned := registry.poisoned || active.sequence ≠ sequence }
    have killed : Changed idle (kill sequence active.slots idle) active.slots (settle none) :=
      kill_changed sequence (exact.slots_distinct going) fun slot member => by
        obtain ⟨owner, found, -⟩ := exact.active active going slot member
        exact ⟨owner, found⟩
    exact .of_changed going (fun _ impossible => nomatch impossible)
      ⟨killed.nonce, killed.nextSlot, killed.active, killed.owners⟩

theorem planCall_tokens
    (planned : registry.planCall request = .ok plan) : plan.tokens = request.owners := by
  unfold planCall at planned
  split at planned
  · exact nomatch planned
  · split at planned
    · rw [← Except.ok.inj planned]
    · exact nomatch planned

theorem prepare_moved {planned : Except Fault HostPlannedInvocation}
    (tokens : ∀ plan, planned = .ok plan → plan.tokens = request.owners) :
    (match planned with
      | .error fault => Prog.stop fault
      | .ok plan => commitPlan plan).wp
      (fun invocation after => Moved registry after (.committed request.owners invocation.sequence))
      (fun _ after => Moved registry after .kept) registry := by
  cases planned with
  | error fault => exact .refl
  | ok plan =>
    rw [← tokens plan rfl]
    refine wp_mono (commitPlan_moved plan) (fun invocation after moved => ?_)
      fun _ _ moved => moved
    rw [moved.2]
    exact moved.1

theorem perform_moved (exact : Exact registry) (call : Call Status) :
    (perform call).wp (fun answer after => Moved registry after (Event.effect ⟨call, .ok answer⟩))
      (fun _ after => Moved registry after .kept) registry := by
  cases call with
  | registerAdapterOwner provenance payload =>
    unfold perform
    rw [wp_bind]
    exact wp_mono (registerAdapterOwner_moved provenance payload) (fun _ _ moved => moved)
      fun _ _ moved => moved
  | rollbackAdapterOwner token =>
    unfold perform
    rw [wp_bind]
    exact wp_mono (rollbackAdapterOwner_moved token) (fun _ _ moved => moved)
      fun _ _ moved => moved
  | retireOwner token =>
    unfold perform
    rw [wp_bind]
    exact wp_mono (retireOwner_moved token) (fun _ _ moved => moved) fun _ _ moved => moved
  | planScalar request =>
    unfold perform
    rw [wp_bind, wp_get]
    cases registry.planScalar request <;> exact .refl
  | planOwned request =>
    unfold perform
    rw [wp_bind, wp_get]
    cases registry.planOwned request <;> exact .refl
  | commitPlan plan =>
    unfold perform
    rw [wp_bind]
    exact wp_mono (commitPlan_moved plan) (fun _ _ moved => moved.1) fun _ _ moved => moved
  | prepareScalar request =>
    unfold perform prepareScalar
    rw [wp_bind, wp_bind, wp_get]
    refine wp_mono (prepare_moved fun plan planned => ?_) (fun _ _ moved => moved)
      fun _ _ moved => moved
    unfold planScalar at planned
    split_ifs at planned
    exact planCall_tokens planned
  | prepareOwned request =>
    unfold perform prepareOwned
    rw [wp_bind, wp_bind, wp_get]
    refine wp_mono (prepare_moved fun plan planned => ?_) (fun _ _ moved => moved)
      fun _ _ moved => moved
    unfold planOwned at planned
    split_ifs at planned
    exact planCall_tokens planned
  | completePreparedScalar invocation result =>
    unfold perform completePreparedScalar
    rw [wp_bind, wp_bind, wp_stopIf]
    refine ⟨fun _ => .refl, fun _ => ?_⟩
    cases result <;> exact finish_moved exact ..
  | completePreparedOwned invocation result =>
    unfold perform completePreparedOwned
    rw [wp_bind, wp_bind, wp_ofOption]
    refine ⟨fun _ => .refl, fun slot chosen => ?_⟩
    cases result with
    | ok done =>
      refine wp_mono (finish_moved exact ..) (fun _ _ moved => ?_) fun _ _ moved => moved
      show Moved registry _ (.settled invocation.resultSlot)
      rw [chosen]
      exact moved
    | error status => exact finish_moved exact ..
  | completePreparedOwnedExpected invocation expectedOwner =>
    unfold perform completePreparedOwnedExpected
    rw [wp_bind, wp_bind, wp_ofOption]
    refine ⟨fun _ => .refl, fun slot chosen => ?_⟩
    refine wp_mono (finishChecked_moved exact ..) (fun _ _ moved => ?_) fun _ _ moved => moved
    show Moved registry _ (.settled invocation.resultSlot)
    rw [chosen]
    exact moved
  | abandonPrepared invocation =>
    unfold perform
    rw [wp_bind]
    exact wp_mono (abandon_moved exact invocation.sequence) (fun _ _ moved => moved)
      fun _ _ moved => moved
  | takeLastAbandonment => exact .kept rfl rfl rfl rfl

end Calls

end Semaprax.HostOwnership
