/-
**Tokens of a host ownership registry** (`host_ownership.rs`).

A token is a copyable triple, so a stale one can be presented at any time.

* `Barred` — the slot of a token is under a later generation, or its owner is not live.
* `run_exact` — in every run the owners in a call are those of the active call.
* `run_spent`, `run_rolledBack` — what a call has taken, or a rollback has undone, stays barred.
* `rollback_revives` — a slot that is given back is registered under its first generation again.
* `tokens_spent` — the law of tokens over every run.
-/

import Semaprax.Library.Histories
import Semaprax.HostOwnership.Effects

namespace Semaprax.HostOwnership

open Library HostOwnershipRegistry

/-- The effect uses a token up: its owner enters a call or is retired. -/
def Effect.spends (effect : Effect) (token : HostOwnerToken) : Prop :=
  (∃ tokens sequence, effect = .committed tokens sequence ∧ token ∈ tokens) ∨
    effect = .retired token

/-- The registry accepts a token: as live, for its payload, in a plan, or in a commit. -/
def HostOwnershipRegistry.Accepts (registry : HostOwnershipRegistry) (token : HostOwnerToken) :
    Prop :=
  registry.isLive token = true ∨
  (registry.payload token).isSome = true ∨
  (∃ request plan, token ∈ request.owners ∧ registry.planCall request = .ok plan) ∨
  ∃ plan invocation, token ∈ plan.tokens ∧ (commitPlan plan registry).1 = .ok invocation

/-- The slot of the token is under a later generation, or its owner is not live. -/
def HostOwnershipRegistry.Spent (registry : HostOwnershipRegistry) (token : HostOwnerToken) : Prop :=
  ∃ owner, registry.owners[token.slot]? = some owner ∧ token.generation ≤ owner.generation ∧
    (owner.generation = token.generation → owner.state ≠ .live)

def HostOwnershipRegistry.Barred (registry : HostOwnershipRegistry) (token : HostOwnerToken) :
    Prop :=
  registry.owners[token.slot]? = none ∨ registry.Spent token

section Steps

variable {before after : HostOwnershipRegistry} {effect : Effect} {token : HostOwnerToken}

variable {slots : List Nat} {change : Nat → HostOwnerEntry → HostOwnerEntry}
variable {published : Option Nat} {slot : Nat}

theorem HostOwnershipRegistry.Accepts.isLive (accepts : before.Accepts token) : before.isLive token = true := by
  rcases accepts with live | paid | ⟨request, plan, member, planned⟩ |
    ⟨plan, invocation, member, committed⟩
  · exact live
  · unfold payload at paid
    cases found : before.lookup token with
    | error rejection =>
      rw [found] at paid
      exact nomatch paid
    | ok owner =>
      by_cases live : owner.state = .live
      · exact isLive_of_lookup found live
      · simp [found, live] at paid
  · unfold planCall at planned
    split at planned
    · exact nomatch planned
    · rename_i passed
      obtain ⟨owner, found, live⟩ := (preflight_live passed).1 token member
      exact isLive_of_lookup found live
  · rcases wp_run (commitPlan_moved plan) with ⟨other, later, ran, moved, -⟩ | ⟨fault, later, ran, -⟩
    · cases moved with
      | committed tokens sequence live => exact live token member
    · rw [ran] at committed
      exact nomatch committed

theorem HostOwnershipRegistry.Spent.not_live (spent : before.Spent token) : ¬before.isLive token = true := by
  intro live
  obtain ⟨owner, found, -, dead⟩ := spent
  obtain ⟨-, other, found', generation, live⟩ := isLive_iff.mp live
  rw [found] at found'
  obtain rfl := Option.some.inj found'
  exact dead generation live

theorem HostOwnershipRegistry.Barred.not_accepts (barred : before.Barred token) : ¬before.Accepts token := by
  intro accepts
  rcases barred with absent | spent
  · obtain ⟨-, owner, found, -⟩ := isLive_iff.mp accepts.isLive
    rw [absent] at found
    exact nomatch found
  · exact spent.not_live accepts.isLive

theorem HostOwnershipRegistry.Spent.changed (spent : before.Spent token)
    (owners : after.owners[token.slot]? = before.changed slots change token.slot)
    (change_generation : ∀ slot owner, owner.generation ≤ (change slot owner).generation)
    (change_live : ∀ slot owner, (change slot owner).generation = owner.generation →
      (change slot owner).state ≠ .live) : after.Spent token := by
  obtain ⟨owner, found, later, dead⟩ := spent
  unfold HostOwnershipRegistry.changed at owners
  rw [found, Option.map_some] at owners
  refine ⟨_, owners, ?_⟩
  by_cases member : token.slot ∈ slots
  · rw [if_pos member]
    refine ⟨later.trans (change_generation ..), fun same => change_live _ _ ?_⟩
    exact le_antisymm (same ▸ later) (change_generation ..)
  · rw [if_neg member]
    exact ⟨later, dead⟩

theorem settle_generation (published : Option Nat) (slot : Nat) (owner : HostOwnerEntry) :
    owner.generation ≤ (settle published slot owner).generation := by
  unfold settle
  split_ifs
  · exact Nat.le_succ _
  · exact le_rfl

theorem settle_live {owner : HostOwnerEntry}
    (same : (settle published slot owner).generation = owner.generation) :
    (settle published slot owner).state ≠ .live := by
  unfold settle at same ⊢
  split_ifs at same ⊢ with chosen
  · exact absurd same (Nat.succ_ne_self _)
  · exact nofun

theorem HostOwnershipRegistry.Spent.moved (exact : Exact before) (spent : before.Spent token)
    (moved : Moved before after effect)
    (kept : ∀ other, effect = .rolledBack other → other.slot = token.slot →
      ¬token.generation < other.generation) : after.Spent token := by
  obtain ⟨owner, found, later, dead⟩ := id spent
  cases moved with
  | kept nonce nextSlot active owners => exact ⟨owner, by rw [owners, found], later, dead⟩
  | registered provenance payload nonce nextSlot idle active owners =>
    have fresh : before.nextSlot ≠ token.slot := fun same =>
      absurd (exact.below _ _ found) (by omega)
    refine ⟨owner, ?_, later, dead⟩
    rw [owners, BTreeMap.getElem?_insert_eq, if_neg fresh, found]
  | rolledBack other live nonce last nextSlot idle active owners =>
    by_cases same : other.slot = token.slot
    · obtain ⟨-, entry, present, generation, alive⟩ := isLive_iff.mp live
      rw [same, found] at present
      obtain rfl := Option.some.inj present
      have equal : token.generation = owner.generation :=
        le_antisymm later (generation ▸ Nat.not_lt.mp (kept other rfl same))
      exact absurd alive (dead equal.symm)
    · refine ⟨owner, ?_, later, dead⟩
      rw [owners, BTreeMap.getElem?_erase_eq, if_neg same, found]
  | retired other entry looked live nonce nextSlot active owners =>
    obtain ⟨-, present, generation⟩ := lookup_eq_ok.mp looked
    by_cases same : other.slot = token.slot
    · rw [same, found] at present
      obtain rfl := Option.some.inj present
      refine ⟨{ owner with state := .dead }, ?_, later, fun _ => nofun⟩
      rw [owners, BTreeMap.getElem?_insert_eq, if_pos same]
    · refine ⟨owner, ?_, later, dead⟩
      rw [owners, BTreeMap.getElem?_insert_eq, if_neg same, found]
  | committed tokens sequence live distinct nonce nextSlot idle active owners =>
    exact spent.changed (owners token.slot) (fun _ _ => le_rfl) fun _ _ _ => nofun
  | settled published chosen nonce nextSlot active owners =>
    exact spent.changed (owners token.slot) (settle_generation published) fun _ _ => settle_live

theorem HostOwnershipRegistry.Barred.moved (exact : Exact before) (barred : before.Barred token)
    (moved : Moved before after effect) (kept : effect ≠ .registered token.slot) :
    after.Barred token := by
  rcases barred with absent | spent
  · left
    cases moved with
    | kept nonce nextSlot active owners => rw [owners, absent]
    | registered provenance payload nonce nextSlot idle active owners =>
      have fresh : before.nextSlot ≠ token.slot := fun same => kept (same ▸ rfl)
      rw [owners, BTreeMap.getElem?_insert_eq, if_neg fresh, absent]
    | rolledBack other live nonce last nextSlot idle active owners =>
      rw [owners, BTreeMap.getElem?_erase_eq, absent, ite_self]
    | retired other entry looked live nonce nextSlot active owners =>
      have differ : other.slot ≠ token.slot := fun same => by
        have present := (lookup_eq_ok.mp looked).2.1
        rw [same, absent] at present
        exact nomatch present
      rw [owners, BTreeMap.getElem?_insert_eq, if_neg differ, absent]
    | committed tokens sequence live distinct nonce nextSlot idle active owners =>
      rw [owners, changed, absent, Option.map_none]
    | settled published chosen nonce nextSlot active owners =>
      rw [owners, changed, absent, Option.map_none]
  · by_cases given : ∃ other, effect = .rolledBack other ∧ other.slot = token.slot
    · obtain ⟨other, rfl, same⟩ := given
      left
      cases moved with
      | rolledBack other live nonce last nextSlot idle active owners =>
        rw [owners, BTreeMap.getElem?_erase_eq, if_pos same]
    · exact .inr (spent.moved exact moved fun other same slot => absurd ⟨other, same, slot⟩ given)

theorem spends_spent (moved : Moved before after effect) (spends : effect.spends token) :
    after.Spent token := by
  rcases spends with ⟨tokens, sequence, rfl, member⟩ | rfl
  · cases moved with
    | committed tokens sequence live distinct nonce nextSlot idle active owners =>
      obtain ⟨-, owner, found, generation, -⟩ := isLive_iff.mp (live token member)
      have taken : token.slot ∈ tokens.map HostOwnerToken.slot := List.mem_map_of_mem member
      refine ⟨{ owner with state := .inInvocation sequence }, ?_, generation.ge, fun _ => nofun⟩
      rw [owners, changed, found, Option.map_some, if_pos taken]
  · cases moved with
    | retired token owner looked live nonce nextSlot active owners =>
      obtain ⟨-, found, generation⟩ := lookup_eq_ok.mp looked
      refine ⟨{ owner with state := .dead }, ?_, generation.ge, fun _ => nofun⟩
      rw [owners, BTreeMap.getElem?_insert_eq, if_pos rfl]

theorem rolledBack_barred (moved : Moved before after (.rolledBack token)) :
    after.Barred token := by
  cases moved with
  | rolledBack token live nonce last nextSlot idle active owners =>
    left
    rw [owners, BTreeMap.getElem?_erase_eq, if_pos rfl]

theorem new_exact (nonce : Nat) : Exact (new nonce) where
  below := fun slot owner found => by simp [new] at found
  distinct := List.nodup_nil
  active := fun active going => nomatch going
  involved := fun slot owner sequence found => by simp [new] at found

theorem Exact.of_idle
    (below : ∀ (slot : Nat) (owner : HostOwnerEntry), after.owners[slot]? = some owner →
      slot < after.nextSlot)
    (idle : after.active = none)
    (free : ∀ (slot : Nat) (owner : HostOwnerEntry) (sequence : Nat),
      after.owners[slot]? = some owner → owner.state ≠ .inInvocation sequence) : Exact after where
  below := below
  distinct := by
    unfold activeSlots
    rw [idle]
    exact List.nodup_nil
  active := fun active going => by
    rw [idle] at going
    exact nomatch going
  involved := fun slot owner sequence found inside => absurd inside (free slot owner sequence found)

section ExactRegistry

variable (exact : Exact before)

include exact

theorem Exact.free (idle : before.active = none) (slot : Nat)
    (owner : HostOwnerEntry) (sequence : Nat) (found : before.owners[slot]? = some owner) :
    owner.state ≠ .inInvocation sequence := by
  intro inside
  obtain ⟨active, going, -⟩ := exact.involved slot owner sequence found inside
  rw [idle] at going
  exact nomatch going

theorem Exact.below_changed (nextSlot : after.nextSlot = before.nextSlot)
    (owners : ∀ slot : Nat, after.owners[slot]? = before.changed slots change slot) (slot : Nat)
    (owner : HostOwnerEntry) (found : after.owners[slot]? = some owner) :
    slot < after.nextSlot := by
  rw [owners] at found
  obtain ⟨entry, present, -⟩ := Option.map_eq_some_iff.mp found
  rw [nextSlot]
  exact exact.below slot entry present

theorem exact_registered (moved : Moved before after (.registered slot)) : Exact after := by
  cases moved with
  | registered provenance payload nonce nextSlot idle active owners =>
    refine .of_idle (fun slot owner found => ?_) active fun slot owner sequence found => ?_
    · rw [owners, BTreeMap.getElem?_insert_eq] at found
      rw [nextSlot]
      split_ifs at found with same
      · omega
      · exact Nat.lt_succ_of_lt (exact.below slot owner found)
    · rw [owners, BTreeMap.getElem?_insert_eq] at found
      split_ifs at found with same
      · obtain rfl := Option.some.inj found
        exact nofun
      · exact exact.free idle slot owner sequence found

theorem exact_rolledBack (moved : Moved before after (.rolledBack token)) : Exact after := by
  cases moved with
  | rolledBack token live nonce last nextSlot idle active owners =>
    refine .of_idle (fun slot owner found => ?_) active fun slot owner sequence found => ?_
    · rw [owners, BTreeMap.getElem?_erase_eq] at found
      split_ifs at found with same
      have old := exact.below slot owner found
      omega
    · rw [owners, BTreeMap.getElem?_erase_eq] at found
      split_ifs at found with same
      exact exact.free idle slot owner sequence found

theorem exact_retired (moved : Moved before after (.retired token)) : Exact after := by
  cases moved with
  | retired token retiring looked live nonce nextSlot active owners =>
    obtain ⟨-, present, -⟩ := lookup_eq_ok.mp looked
    have slots : after.activeSlots = before.activeSlots := by
      unfold activeSlots
      rw [active]
    refine ⟨fun slot owner found => ?_, slots ▸ exact.distinct, fun call going slot member => ?_,
      fun slot owner sequence found inside => ?_⟩
    · rw [owners, BTreeMap.getElem?_insert_eq] at found
      rw [nextSlot]
      split_ifs at found with same
      · exact same ▸ exact.below token.slot retiring present
      · exact exact.below slot owner found
    · obtain ⟨owner, found, inside⟩ := exact.active call (active ▸ going) slot member
      have differ : token.slot ≠ slot := fun same => by
        rw [same, found] at present
        obtain rfl := Option.some.inj present
        exact nomatch inside.symm.trans live
      refine ⟨owner, ?_, inside⟩
      rw [owners, BTreeMap.getElem?_insert_eq, if_neg differ, found]
    · rw [owners, BTreeMap.getElem?_insert_eq] at found
      rw [active]
      split_ifs at found with same
      · obtain rfl := Option.some.inj found
        exact nomatch inside
      · exact exact.involved slot owner sequence found inside

theorem exact_committed {tokens : List HostOwnerToken} {sequence : Nat}
    (moved : Moved before after (.committed tokens sequence)) : Exact after := by
  cases moved with
  | committed tokens sequence live distinct nonce nextSlot idle active owners =>
    have slots : after.activeSlots = tokens.map HostOwnerToken.slot := by
      unfold activeSlots
      rw [active]
    refine ⟨exact.below_changed nextSlot owners, slots ▸ distinct, fun call going slot member => ?_,
      fun slot owner number found inside => ?_⟩
    · obtain rfl := Option.some.inj (active.symm.trans going)
      obtain ⟨token, listed, rfl⟩ := List.mem_map.mp member
      obtain ⟨-, owner, found, -⟩ := isLive_iff.mp (live token listed)
      refine ⟨{ owner with state := .inInvocation sequence }, ?_, rfl⟩
      rw [owners, changed, found, Option.map_some, if_pos member]
    · rw [owners] at found
      obtain ⟨entry, present, rfl⟩ := Option.map_eq_some_iff.mp found
      by_cases member : slot ∈ tokens.map HostOwnerToken.slot
      · rw [if_pos member] at inside
        exact ⟨_, active, HostOwnerState.inInvocation.inj inside, member⟩
      · rw [if_neg member] at inside
        exact absurd inside (exact.free idle slot entry number present)

theorem exact_settled (moved : Moved before after (.settled published)) : Exact after := by
  cases moved with
  | settled published chosen nonce nextSlot active owners =>
    refine .of_idle (exact.below_changed nextSlot owners) active
      fun slot owner sequence found inside => ?_
    rw [owners] at found
    obtain ⟨entry, present, rfl⟩ := Option.map_eq_some_iff.mp found
    by_cases member : slot ∈ before.activeSlots
    · rw [if_pos member] at inside
      unfold settle at inside
      split_ifs at inside
    · rw [if_neg member] at inside
      obtain ⟨call, going, -, among⟩ := exact.involved slot entry sequence present inside
      unfold activeSlots at member
      rw [going] at member
      exact member among

end ExactRegistry

/-- Every effect keeps the owners in a call those of the active call. -/
theorem Moved.exact (exact : Exact before) (moved : Moved before after effect) : Exact after := by
  cases effect with
  | kept =>
    cases moved with
    | kept nonce nextSlot active owners =>
      have slots : after.activeSlots = before.activeSlots := by
        unfold activeSlots
        rw [active]
      obtain ⟨below, distinct, going, involved⟩ := exact
      refine ⟨?_, slots ▸ distinct, ?_, ?_⟩
      · rwa [owners, nextSlot]
      · rwa [owners, active]
      · rwa [owners, active]
  | registered slot => exact exact_registered exact moved
  | rolledBack token => exact exact_rolledBack exact moved
  | retired token => exact exact_retired exact moved
  | committed tokens sequence => exact exact_committed exact moved
  | settled published => exact exact_settled exact moved

end Steps

section Runs

variable {Status : Type} {session : Session Status} (nonce : Nat)

theorem Session.run_append (calls : List (Call Status)) (call : Call Status) :
    Session.run nonce (calls ++ [call]) = (Session.run nonce calls).step call := by
  unfold Session.run
  rw [List.foldl_append]
  rfl

theorem Session.step_moved (exact : Exact session.registry) (call : Call Status) :
    Moved session.registry (session.step call).registry
      (Event.effect ⟨call, (perform call session.registry).1⟩) := by
  unfold Session.step
  rcases wp_run (perform_moved exact call) with
    ⟨answer, after, ran, moved⟩ | ⟨fault, after, ran, moved⟩
  · rw [ran]
    exact moved
  · rw [ran]
    exact moved

theorem run_exact (calls : List (Call Status)) : Exact (Session.run nonce calls).registry := by
  induction calls using List.reverseRecOn with
  | nil => exact new_exact nonce
  | append_singleton calls call ih =>
    rw [Session.run_append]
    exact Moved.exact ih (Session.step_moved ih call)

/-- The event rolls back no owner of the slot of the token under a later generation. -/
def Event.keepsSpent (token : HostOwnerToken) (event : Event Status) : Prop :=
  ∀ other, event.effect = .rolledBack other → other.slot = token.slot →
    ¬token.generation < other.generation

theorem run_spent (token : HostOwnerToken) (calls : List (Call Status))
    (since : Since (fun event => event.effect.spends token) (Event.keepsSpent token)
      (Session.run nonce calls).events) : (Session.run nonce calls).registry.Spent token := by
  induction calls using List.reverseRecOn with
  | nil => exact absurd since since_nil
  | append_singleton calls call ih =>
    have exact := run_exact nonce calls
    have moved := Session.step_moved exact call
    rw [Session.run_append] at since ⊢
    rcases since_append.mp since with ⟨before, kept⟩ | spends
    · exact (ih before).moved exact moved kept
    · exact spends_spent moved spends

theorem run_rolledBack (token : HostOwnerToken) (calls : List (Call Status))
    (since : Since (fun event => event.effect = .rolledBack token)
      (fun event => event.effect ≠ .registered token.slot) (Session.run nonce calls).events) :
    (Session.run nonce calls).registry.Barred token := by
  induction calls using List.reverseRecOn with
  | nil => exact absurd since since_nil
  | append_singleton calls call ih =>
    have exact := run_exact nonce calls
    have moved := Session.step_moved exact call
    rw [Session.run_append] at since ⊢
    rcases since_append.mp since with ⟨before, kept⟩ | undone
    · exact (ih before).moved exact moved kept
    · rw [undone] at moved
      exact rolledBack_barred moved

theorem isLive_inj {registry : HostOwnershipRegistry} {token other : HostOwnerToken}
    (live : registry.isLive token = true) (alive : registry.isLive other = true)
    (slot : token.slot = other.slot) : token = other := by
  obtain ⟨nonce, owner, found, generation, -⟩ := isLive_iff.mp live
  obtain ⟨nonce', owner', found', generation', -⟩ := isLive_iff.mp alive
  exact lookup_inj (lookup_eq_ok.mpr ⟨nonce, found, generation⟩)
    (lookup_eq_ok.mpr ⟨nonce', slot ▸ found', generation'⟩) slot

/-- The law of tokens at one point of a run. -/
structure Lawful (session : Session Status) : Prop where
  spent : ∀ token, Since (fun event => event.effect.spends token) (Event.keepsSpent token)
    session.events → ¬session.registry.Accepts token
  rolledBack : ∀ token, Since (fun event => event.effect = .rolledBack token)
    (fun event => event.effect ≠ .registered token.slot) session.events →
      ¬session.registry.Accepts token
  single : ∀ token other, session.registry.isLive token = true →
    session.registry.isLive other = true → token.slot = other.slot → token = other
  involved : ∀ (slot sequence : Nat),
    (∃ owner, session.registry.owners[slot]? = some owner ∧ owner.state = .inInvocation sequence) ↔
    ∃ active, session.registry.active = some active ∧ active.sequence = sequence ∧
      slot ∈ active.slots
  ended : ∀ call published, Event.effect ⟨call, (perform call session.registry).1⟩ =
      .settled published →
    (session.step call).registry.active = none ∧ ∀ slot ∈ session.registry.activeSlots,
      ∃ owner entry, session.registry.owners[slot]? = some owner ∧
        (session.step call).registry.owners[slot]? = some entry ∧
        (entry.state = .dead ∨ published = some slot ∧ entry.state = .live ∧
          entry.generation = owner.generation + 1)
  failed : ∀ call fault, (perform call session.registry).1 = .error fault →
    (session.step call).registry.owners = session.registry.owners ∧
      (session.step call).registry.active = session.registry.active

theorem ended_owners {before after : HostOwnershipRegistry} {published : Option Nat}
    (exact : Exact before) (moved : Moved before after (.settled published)) :
    after.active = none ∧ ∀ slot ∈ before.activeSlots, ∃ owner entry,
      before.owners[slot]? = some owner ∧ after.owners[slot]? = some entry ∧
        (entry.state = .dead ∨ published = some slot ∧ entry.state = .live ∧
          entry.generation = owner.generation + 1) := by
  cases moved with
  | settled published chosen nonce nextSlot active owners =>
    refine ⟨active, fun slot member => ?_⟩
    have going : ∃ call, before.active = some call ∧ slot ∈ call.slots := by
      unfold activeSlots at member
      split at member
      · exact nomatch member
      · exact ⟨_, ‹_›, member⟩
    obtain ⟨call, going, among⟩ := going
    obtain ⟨owner, found, -⟩ := exact.active call going slot among
    refine ⟨owner, settle published slot owner, found, ?_, ?_⟩
    · rw [owners, changed, found, Option.map_some, if_pos member]
    · unfold settle
      by_cases same : some slot = published
      · rw [if_pos same]
        exact .inr ⟨same.symm, rfl, rfl⟩
      · rw [if_neg same]
        exact .inl rfl

/-- In every run, a token that was spent is accepted no more as long as no later generation of its
slot is rolled back, and one that was rolled back as long as its slot is not registered again. -/
theorem tokens_spent (calls : List (Call Status)) : Lawful (Session.run nonce calls) where
  spent := fun token since accepts => (run_spent nonce token calls since).not_live accepts.isLive
  rolledBack := fun token since => (run_rolledBack nonce token calls since).not_accepts
  single := fun _ _ live alive slot => isLive_inj live alive slot
  involved := fun slot sequence => by
    have exact := run_exact nonce calls
    constructor
    · rintro ⟨owner, found, inside⟩
      exact exact.involved slot owner sequence found inside
    · rintro ⟨active, going, rfl, member⟩
      exact exact.active active going slot member
  ended := fun call published effect => by
    have moved := Session.step_moved (run_exact nonce calls) call
    rw [effect] at moved
    exact ended_owners (run_exact nonce calls) moved
  failed := fun call fault failed => by
    have moved := Session.step_moved (run_exact nonce calls) call
    rw [failed] at moved
    cases moved with
    | kept nonce nextSlot active owners => exact ⟨owners, active⟩

end Runs

/-- An owner that an adapter creates. -/
def adapterProvenance : HostResourceProvenance where
  module := ⟨"module", by decide⟩
  adapter := ⟨"adapter", by decide⟩
  resourceType := ⟨"resource", by decide⟩
  lifecycle := ⟨"lifecycle", by decide⟩
  ownerThread := 1
  threaded := Nat.one_ne_zero

/-- An owner is registered and rolled back, and another one is registered. -/
def replacingCalls : List (Call Unit) :=
  [.registerAdapterOwner adapterProvenance 91, .rollbackAdapterOwner ⟨7, 1, 1⟩,
    .registerAdapterOwner adapterProvenance 92]

/-- The replacement of an owner that was rolled back has its token. -/
theorem rollback_revives : ¬∀ (nonce : Nat) (calls : List (Call Unit)) (token : HostOwnerToken),
    (∃ event ∈ (Session.run nonce calls).events,
      event.effect.spends token ∨ event.effect = .rolledBack token) →
    ¬(Session.run nonce calls).registry.Accepts token := by
  intro never
  refine never 7 replacingCalls ⟨7, 1, 1⟩ ⟨⟨.rollbackAdapterOwner ⟨7, 1, 1⟩, .ok .done⟩, ?_, ?_⟩ ?_
  · have second : (Session.run 7 replacingCalls).events[1]? =
        some ⟨.rollbackAdapterOwner ⟨7, 1, 1⟩, .ok .done⟩ := rfl
    exact List.mem_of_getElem? second
  · exact .inr rfl
  · left
    decide +kernel

end Semaprax.HostOwnership
