/-
**The records of the sessions** (`authentication/session.rs`).

A token is accepted exactly if it is the one of a record that is active at a time within its own, and
a call makes a fresh record, ends the record of the token that is presented, or does both.

* `Live`, `verifyClaims_ok` — the records whose tokens are accepted.
* `Fresh` — the records that are made.
* `issue_made`, `verify_ok`, `rotate_made`, `revoke_made` — what each call does to the store.
-/

import Semaprax.SessionTokens.Service

namespace Semaprax.SessionTokens

open Library

def SessionService.tokenOf (service : SessionService) (record : SessionRecord) : List UInt8 :=
  service.token (Claims.fromRecord record service.policy)

structure SessionRecord.Sound (service : SessionService) (record : SessionRecord) : Prop where
  presentable : (Claims.fromRecord record service.policy).Presentable
  ttl : service.policy.ttlIsValid (record.expiresAt - record.issuedAt)

/-- The store keeps records that the service made, under their numbers. -/
def InMemorySessionStore.Sound (service : SessionService) (store : InMemorySessionStore) : Prop :=
  ∀ (id : SessionId) (record : SessionRecord), store.records[id]? = some record →
    record.id = id ∧ record.Sound service

/-- A record of the store whose token is presented at a time within its own. -/
structure Live (service : SessionService) (store : InMemorySessionStore) (bearer : List UInt8)
    (now : UInt64) (record : SessionRecord) : Prop where
  kept : store.records[record.id]? = some record
  token : service.tokenOf record = bearer
  active : record.state = .active
  issued : record.issuedAt ≤ now
  lasts : now < record.expiresAt

section Records

variable {service : SessionService} {store : InMemorySessionStore} {record other : SessionRecord}
  {bearer : List UInt8} {now ttl generation : UInt64}

theorem tokenOf_inj (sound : record.Sound service) (sound' : other.Sound service)
    (same : service.tokenOf record = service.tokenOf other) :
    Claims.fromRecord record service.policy = Claims.fromRecord other service.policy := by
  have read : service.decodeToken (service.tokenOf record) = .ok _ :=
    SessionService.decodeToken_token sound.presentable
  have read' : service.decodeToken (service.tokenOf other) = .ok _ :=
    SessionService.decodeToken_token sound'.presentable
  rw [same, read'] at read
  exact (Except.ok.inj read).symm

theorem newRecord_ok {drawn : Option SessionId} {subject : String}
    (made : service.newRecord drawn subject now ttl generation = .ok record) :
    record.Sound service ∧ record.issuedAt = now ∧
      record.expiresAt.toNat = now.toNat + ttl.toNat ∧ record.generation = generation ∧
        record.state = .active ∧ record.subject = subject := by
  unfold SessionService.newRecord SessionService.checkedAdd at made
  split_ifs at made with text valid room
  · cases drawn with
    | none => cases made
    | some id =>
      simp only at made
      split_ifs at made with blank
      cases made
      have whole : (now + ttl).toNat = now.toNat + ttl.toNat := by
        rw [UInt64.toNat_add]
        exact Nat.mod_eq_of_lt room
      have positive : 0 < ttl.toNat := by
        have least := UInt64.le_iff_toNat_le.mp valid.1
        have some_tick : service.policy.minTtl.toNat ≠ 0 := fun zero =>
          service.policy.ttls.1 (UInt64.toNat_inj.mp zero)
        omega
      refine ⟨⟨⟨service.policy.validPolicyId, service.policy.validIssuer,
        service.policy.validAudience, text, ?_, blank⟩, ?_⟩, rfl, whole, rfl, rfl, rfl⟩
      · rw [UInt64.lt_iff_toNat_lt]
        show now.toNat < (now + ttl).toNat
        omega
      · show service.policy.ttlIsValid (now + ttl - now)
        rw [UInt64.add_comm, UInt64.add_sub_cancel]
        exact valid

theorem verifyClaims_ok (sound : store.Sound service) {claims : Claims} :
    service.verifyClaims store bearer now = .ok claims ↔ ∃ record,
      Live service store bearer now record ∧ claims = Claims.fromRecord record service.policy := by
  constructor
  · intro verified
    unfold SessionService.verifyClaims at verified
    cases read : service.decodeToken bearer with
    | error wrong =>
      rw [read] at verified
      cases verified
    | ok found =>
      rw [read] at verified
      simp only [bind, Except.bind] at verified
      obtain ⟨presentable, rfl⟩ := SessionService.decodeToken_ok read
      split_ifs at verified with policy order early late
      cases kept : store.lookup found.id with
      | none =>
        rw [kept] at verified
        cases verified
      | some record =>
        rw [kept] at verified
        simp only at verified
        split_ifs at verified with state past differs
        cases verified
        simp only [not_or, not_not] at policy differs
        obtain ⟨id, subject, issuedAt, expiresAt, generation⟩ := differs
        have same : claims = Claims.fromRecord record service.policy :=
          Claims.ext id.symm generation.symm issuedAt.symm expiresAt.symm policy.1 policy.2.1
            policy.2.2 subject.symm
        refine ⟨record, ⟨by rw [id]; exact kept, ?_, not_not.mp state, ?_, ?_⟩, same⟩
        · unfold SessionService.tokenOf
          rw [← same]
        · rw [issuedAt]
          exact UInt64.not_lt.mp fun before => early (.inl before)
        · exact UInt64.not_le.mp past
  · rintro ⟨record, live, rfl⟩
    obtain ⟨-, presentable, ttl⟩ := sound _ _ live.kept
    have read : service.decodeToken bearer = .ok (Claims.fromRecord record service.policy) := by
      rw [← live.token]
      exact SessionService.decodeToken_token presentable
    have lasts := presentable.lasts
    have kept : store.lookup (Claims.fromRecord record service.policy).id = some record := live.kept
    generalize same : Claims.fromRecord record service.policy = claims at *
    have policy : ¬(claims.policyId ≠ service.policy.policyId ∨
        claims.issuer ≠ service.policy.issuer ∨ claims.audience ≠ service.policy.audience) := by
      rw [← same]
      simp [Claims.fromRecord]
    have early : ¬(now < claims.issuedAt ∨
        ¬service.policy.ttlIsValid (claims.expiresAt - claims.issuedAt)) := by
      rw [← same]
      rintro (before | wrong)
      · exact absurd live.issued (UInt64.not_le.mpr before)
      · exact wrong ttl
    have late : ¬claims.expiresAt ≤ now := by
      rw [← same]
      exact UInt64.not_le.mpr live.lasts
    have differs : ¬(record.id ≠ claims.id ∨ record.subject ≠ claims.subject ∨
        record.issuedAt ≠ claims.issuedAt ∨ record.expiresAt ≠ claims.expiresAt ∨
          record.generation ≠ claims.generation) := by
      rw [← same]
      simp [Claims.fromRecord]
    unfold SessionService.verifyClaims
    rw [read]
    simp only [bind, Except.bind]
    rw [if_neg policy, if_neg (UInt64.not_lt.mpr (UInt64.le_of_lt lasts)), if_neg early,
      if_neg late, kept]
    simp only
    rw [if_neg (not_not.mpr live.active), if_neg (UInt64.not_le.mpr live.lasts), if_neg differs]

/-- A record that is not yet in the store, of a session that begins at a time. -/
structure Fresh (service : SessionService) (store : InMemorySessionStore) (now ttl generation : UInt64)
    (record : SessionRecord) : Prop where
  absent : record.id ∉ store.records
  sound : record.Sound service
  issued : record.issuedAt = now
  expires : record.expiresAt.toNat = now.toNat + ttl.toNat
  generation : record.generation = generation
  active : record.state = .active

def SessionRecord.ended (record : SessionRecord) (state : SessionState) : SessionRecord :=
  { record with
    state := state }

theorem wp_orStop {A : Type} {outcome : Except AuthError A}
    {ends : A → InMemorySessionStore → Prop} {stops : AuthError → InMemorySessionStore → Prop} :
    (SessionService.orStop outcome).wp ends stops store ↔
      (∀ value, outcome = .ok value → ends value store) ∧
        ∀ error, outcome = .error error → stops error store := by
  unfold SessionService.orStop Prog.wp
  cases outcome <;> simp

theorem encodeToken_of_sound (sound : record.Sound service) :
    service.encodeToken (Claims.fromRecord record service.policy) = .ok (service.tokenOf record) :=
  SessionService.encodeToken_presentable sound.presentable

theorem issue_made (drawn : Option SessionId) (subject : String) :
    (service.issue drawn subject now ttl).wp
      (fun token after => ∃ record, Fresh service store now ttl 0 record ∧
        token = service.tokenOf record ∧ after = store.put record)
      (fun _ after => after = store) store := by
  unfold SessionService.issue InMemorySessionStore.issueIfAbsent
  simp only [wp_bind, wp_orStop, wp_get, wp_stopIf, wp_set, wp_pure]
  refine ⟨fun record made => ?_, fun _ _ => trivial⟩
  obtain ⟨sound, issued, expires, generation, active, -⟩ := newRecord_ok made
  refine ⟨fun token encoded => ?_, fun _ _ => trivial⟩
  refine ⟨fun _ => trivial, fun absent => ⟨fun _ => trivial, fun _ => ⟨record, ?_, ?_, rfl⟩⟩⟩
  · exact ⟨absent, sound, issued, expires, generation, active⟩
  · rw [encodeToken_of_sound sound] at encoded
    exact (Except.ok.inj encoded).symm

theorem verify_ok (sound : store.Sound service) :
    (∃ session, (service.verify bearer now store).1 = .ok session) ↔
      ∃ record, Live service store bearer now record := by
  have ran : (service.verify bearer now store).1 =
      (service.verifyClaims store bearer now).map Claims.public := by
    show ((SessionService.orStop (service.verifyClaims store bearer now) >>= fun claims =>
      pure claims.public : Prog InMemorySessionStore AuthError _) store).1 = _
    simp only [bind, SessionService.orStop]
    cases service.verifyClaims store bearer now <;> rfl
  rw [ran]
  constructor
  · rintro ⟨session, accepted⟩
    cases verified : service.verifyClaims store bearer now with
    | error wrong =>
      rw [verified] at accepted
      cases accepted
    | ok claims =>
      obtain ⟨record, live, -⟩ := (verifyClaims_ok sound).mp verified
      exact ⟨record, live⟩
  · rintro ⟨record, live⟩
    rw [(verifyClaims_ok sound).mpr ⟨record, live, rfl⟩]
    exact ⟨_, rfl⟩

theorem rotate_made (sound : store.Sound service) (drawn : Option SessionId) :
    (service.rotate drawn bearer now ttl).wp
      (fun token after => ∃ current replacement, Live service store bearer now current ∧
        Fresh service store now ttl replacement.generation replacement ∧
          replacement.generation.toNat = current.generation.toNat + 1 ∧
            token = service.tokenOf replacement ∧
              after = (store.put (current.ended .rotated)).put replacement)
      (fun _ after => after = store) store := by
  unfold SessionService.rotate InMemorySessionStore.compareAndRotate
  simp only [wp_bind, wp_orStop, wp_get, wp_stopIf, wp_set, wp_pure, wp_ofOption]
  refine ⟨fun claims verified => ⟨fun _ => trivial, fun next added =>
    ⟨fun replacement made => ⟨fun token encoded => ⟨fun _ => trivial, fun absent => ⟨fun _ => trivial,
      fun _ => ⟨fun _ => trivial, fun found kept => ⟨fun _ => trivial, fun _ => ?_⟩⟩⟩⟩,
        fun _ _ => trivial⟩, fun _ _ => trivial⟩⟩, fun _ _ => trivial⟩
  obtain ⟨current, live, rfl⟩ := (verifyClaims_ok sound).mp verified
  obtain ⟨sound', issued, expires, generation, active, -⟩ := newRecord_ok made
  obtain rfl : current = found := Option.some.inj (live.kept.symm.trans kept)
  refine ⟨current, replacement, live, ⟨fun listed => absent (.inr listed), sound', issued, expires,
    rfl, active⟩, ?_, ?_, rfl⟩
  · unfold SessionService.checkedAdd at added
    split_ifs at added with room
    cases added
    rw [generation, UInt64.toNat_add]
    exact Nat.mod_eq_of_lt room
  · rw [encodeToken_of_sound sound'] at encoded
    exact (Except.ok.inj encoded).symm

theorem revoke_made (sound : store.Sound service) : (service.revoke bearer now).wp
      (fun _ after => ∃ current, Live service store bearer now current ∧
        after = store.put (current.ended .revoked))
      (fun _ after => after = store) store := by
  unfold SessionService.revoke InMemorySessionStore.compareAndRevoke
  simp only [wp_bind, wp_orStop, wp_get, wp_stopIf, wp_set, wp_ofOption]
  refine ⟨fun claims verified => ⟨fun _ => trivial, fun found kept => ⟨fun _ => trivial,
    fun _ => ?_⟩⟩, fun _ _ => trivial⟩
  obtain ⟨current, live, rfl⟩ := (verifyClaims_ok sound).mp verified
  obtain rfl : current = found := Option.some.inj (live.kept.symm.trans kept)
  exact ⟨current, live, rfl⟩

end Records

end Semaprax.SessionTokens
