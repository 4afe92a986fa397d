/-
**A session token works while its record is the active one** (`authentication/session.rs`).

Calls are made on one service and one store, in any order, with any bearers, times and numbers.
What they returned says which tokens are accepted.

* `Stands` — a token was returned and its session was not ended since.
* `Chain` — the tokens that go back to one issue.
* `Open`, `Onward` — the active records of a store, and a later store.
* `Tracks`, `Tracks.step` — the store has the records that the replies say.
* `sessions_exact` — tokens, chains and the store in every run.
-/

import Semaprax.Library.Histories
import Semaprax.SessionTokens.Records

namespace Semaprax.SessionTokens

open Library

inductive Call
  | issue (drawn : Option SessionId) (subject : String) (now ttl : UInt64)
  | verify (bearer : List UInt8) (now : UInt64)
  | rotate (drawn : Option SessionId) (bearer : List UInt8) (now ttl : UInt64)
  | revoke (bearer : List UInt8) (now : UInt64)

inductive Reply
  | token (bearer : List UInt8)
  | session (session : AuthenticatedSession)
  | done

/-- A call and what it returned. -/
abbrev Past : Type := Call × Except AuthError Reply

namespace SessionService

variable (service : SessionService)

def perform : Call → Prog InMemorySessionStore AuthError Reply
  | .issue drawn subject now ttl => do
      let bearer ← service.issue drawn subject now ttl
      pure (.token bearer)
  | .verify bearer now => do
      let session ← service.verify bearer now
      pure (.session session)
  | .rotate drawn bearer now ttl => do
      let bearer ← service.rotate drawn bearer now ttl
      pure (.token bearer)
  | .revoke bearer now => do
      service.revoke bearer now
      pure .done

def next (state : List Past × InMemorySessionStore) (call : Call) :
    List Past × InMemorySessionStore :=
  (state.1 ++ [(call, (service.perform call state.2).1)], (service.perform call state.2).2)

def run (capacity : Nat) (calls : List Call) : List Past × InMemorySessionStore :=
  calls.foldl service.next ([], ⟨capacity, ∅⟩)

end SessionService

/-- A token was returned by an issue at a time, for so long. -/
def Issues (past : Past) (bearer : List UInt8) (now ttl : UInt64) : Prop :=
  past.2 = .ok (.token bearer) ∧ ∃ drawn subject, past.1 = .issue drawn subject now ttl

/-- A token was rotated for another one at a time, for so long. -/
def Rotates (past : Past) (bearer other : List UInt8) (now ttl : UInt64) : Prop :=
  past.2 = .ok (.token other) ∧ ∃ drawn, past.1 = .rotate drawn bearer now ttl

def Revokes (past : Past) (bearer : List UInt8) : Prop :=
  past.2 = .ok .done ∧ ∃ now, past.1 = .revoke bearer now

/-- A token was returned. -/
def Mints (past : Past) (bearer : List UInt8) (now ttl : UInt64) : Prop :=
  Issues past bearer now ttl ∨ ∃ old, Rotates past old bearer now ttl

/-- The session of a token was ended. -/
def Ends (past : Past) (bearer : List UInt8) : Prop :=
  (∃ other now ttl, Rotates past bearer other now ttl) ∨ Revokes past bearer

/-- A token was returned at a time, for so long, and its session was not ended since. -/
def Stands (history : List Past) (bearer : List UInt8) (issued ttl : UInt64) : Prop :=
  Since (fun past => Mints past bearer issued ttl) (fun past => ¬Ends past bearer) history

/-- The tokens that an issued token was rotated for, with the number of rotations. -/
inductive Chain (history : List Past) (start : List UInt8) : Nat → List UInt8 → Prop
  | issued {past : Past} {now ttl : UInt64} (member : past ∈ history)
      (issues : Issues past start now ttl) : Chain history start 0 start
  | rotated {past : Past} {number : Nat} {bearer other : List UInt8} {now ttl : UInt64}
      (chain : Chain history start number bearer) (member : past ∈ history)
      (rotates : Rotates past bearer other now ttl) : Chain history start (number + 1) other

theorem Rotates.same {past : Past} {bearer other other' : List UInt8} {now now' ttl ttl' : UInt64}
    (rotates : Rotates past bearer other now ttl)
    (rotates' : Rotates past bearer other' now' ttl') : other = other' := by
  have same := rotates.1.symm.trans rotates'.1
  exact Reply.token.inj (Except.ok.inj same)

theorem Chain.mono {history others : List Past} {start bearer : List UInt8} {number : Nat}
    (chain : Chain history start number bearer) (more : ∀ past ∈ history, past ∈ others) :
    Chain others start number bearer := by
  induction chain with
  | issued member issues => exact .issued (more _ member) issues
  | rotated _ member rotates ih => exact .rotated ih (more _ member) rotates

structure Keeps (service : SessionService) (store : InMemorySessionStore) (bearer : List UInt8)
    (record : SessionRecord) : Prop where
  kept : store.records[record.id]? = some record
  token : service.tokenOf record = bearer

/-- The record of a token is active from a time on, for so long. -/
def Open (service : SessionService) (store : InMemorySessionStore) (bearer : List UInt8)
    (issued ttl : UInt64) : Prop :=
  ∃ record, Keeps service store bearer record ∧ record.state = .active ∧
    record.issuedAt = issued ∧ record.expiresAt.toNat = issued.toNat + ttl.toNat

/-- A later store has the records in some states, and those that are not active unchanged. -/
def Onward (store after : InMemorySessionStore) : Prop :=
  ∀ (id : SessionId) (record : SessionRecord), store.records[id]? = some record → ∃ state,
    after.records[id]? = some (record.ended state) ∧
      (record.state ≠ .active → state = record.state)

theorem Onward.rfl (store : InMemorySessionStore) : Onward store store :=
  fun _ record kept => ⟨record.state, kept, fun _ => Eq.refl _⟩

theorem Onward.trans {store middle after : InMemorySessionStore} (first : Onward store middle)
    (second : Onward middle after) : Onward store after := by
  intro id record kept
  obtain ⟨state, kept', same⟩ := first id record kept
  obtain ⟨state', kept'', same'⟩ := second id _ kept'
  refine ⟨state', kept'', fun past => ?_⟩
  have past' : (record.ended state).state ≠ .active := by
    show state ≠ .active
    rw [same past]
    exact past
  rw [← same past]
  exact same' past'

section Stores

variable {service : SessionService} {store after : InMemorySessionStore}
  {record other current : SessionRecord} {bearer presented : List UInt8}
  {now ttl generation issued lasts : UInt64} {state : SessionState}

theorem get_put_self : (store.put record).records[record.id]? = some record := by
  unfold InMemorySessionStore.put
  rw [BTreeMap.getElem?_insert_eq, if_pos rfl]

theorem get_put_ne {id : SessionId} (differs : record.id ≠ id) :
    (store.put record).records[id]? = store.records[id]? := by
  unfold InMemorySessionStore.put
  rw [BTreeMap.getElem?_insert_eq, if_neg differs]

theorem mem_of_get {id : SessionId} (kept : store.records[id]? = some record) :
    id ∈ store.records := by
  rw [Std.TreeMap.mem_iff_isSome_getElem?, kept]
  rfl

theorem Keeps.unique (sound : store.Sound service) (keeps : Keeps service store bearer record)
    (keeps' : Keeps service store bearer other) : record = other := by
  have same := tokenOf_inj (sound _ _ keeps.kept).2 (sound _ _ keeps'.kept).2
    (keeps.token.trans keeps'.token.symm)
  have id : record.id = other.id := congrArg Claims.id same
  have kept := keeps.kept
  rw [id, keeps'.kept] at kept
  exact (Option.some.inj kept).symm

theorem Keeps.onward (keeps : Keeps service store bearer record) (onward : Onward store after) :
    ∃ state, Keeps service after bearer (record.ended state) ∧
      (record.state ≠ .active → state = record.state) := by
  obtain ⟨state, kept, same⟩ := onward _ _ keeps.kept
  exact ⟨state, ⟨kept, keeps.token⟩, same⟩

section FreshRecords

variable (fresh : Fresh service store now ttl generation record)

include fresh

theorem Fresh.put_sound (sound : store.Sound service) : (store.put record).Sound service := by
  intro id found kept
  by_cases same : record.id = id
  · rw [← same, get_put_self] at kept
    cases kept
    exact ⟨same, fresh.sound⟩
  · rw [get_put_ne same] at kept
    exact sound id found kept

theorem Fresh.put_onward : Onward store (store.put record) := by
  intro id found kept
  have differs : record.id ≠ id := by
    rintro rfl
    exact fresh.absent (mem_of_get kept)
  refine ⟨found.state, ?_, fun _ => rfl⟩
  rw [get_put_ne differs]
  exact kept

theorem Fresh.put_keeps : Keeps service (store.put record) bearer other ↔
      Keeps service store bearer other ∨ other = record ∧ bearer = service.tokenOf record := by
  constructor
  · rintro ⟨kept, token⟩
    by_cases same : record.id = other.id
    · rw [← same, get_put_self] at kept
      cases kept
      exact .inr ⟨rfl, token.symm⟩
    · rw [get_put_ne same] at kept
      exact .inl ⟨kept, token⟩
  · rintro (keeps | ⟨rfl, rfl⟩)
    · have differs : record.id ≠ other.id := by
        intro same
        have absent := fresh.absent
        rw [same] at absent
        exact absent (mem_of_get keeps.kept)
      refine ⟨?_, keeps.token⟩
      rw [get_put_ne differs]
      exact keeps.kept
    · exact ⟨get_put_self, rfl⟩

theorem Fresh.put_open : Open service (store.put record) bearer issued lasts ↔
      Open service store bearer issued lasts ∨
        bearer = service.tokenOf record ∧ issued = now ∧ lasts = ttl := by
  constructor
  · rintro ⟨found, keeps, active, from_time, until_time⟩
    rcases fresh.put_keeps.mp keeps with keeps | ⟨rfl, token⟩
    · exact .inl ⟨found, keeps, active, from_time, until_time⟩
    · have same : issued = now := from_time.symm.trans fresh.issued
      have expires := fresh.expires
      rw [until_time, same] at expires
      exact .inr ⟨token, same, UInt64.toNat_inj.mp (by omega)⟩
  · rintro (⟨found, keeps, rest⟩ | ⟨rfl, rfl, rfl⟩)
    · exact ⟨found, fresh.put_keeps.mpr (.inl keeps), rest⟩
    · exact ⟨record, fresh.put_keeps.mpr (.inr ⟨rfl, rfl⟩), fresh.active, fresh.issued,
        fresh.expires⟩

end FreshRecords

section Keeping

variable (keeps : Keeps service store presented current)

include keeps

theorem Keeps.end_sound
    (sound : store.Sound service) : (store.put (current.ended state)).Sound service := by
  intro id found kept
  by_cases same : (current.ended state).id = id
  · rw [← same, get_put_self] at kept
    cases kept
    obtain ⟨-, presentable, ttl⟩ := sound _ _ keeps.kept
    exact ⟨same, presentable, ttl⟩
  · rw [get_put_ne same] at kept
    exact sound id found kept

theorem Keeps.end_onward
    (active : current.state = .active) : Onward store (store.put (current.ended state)) := by
  intro id found kept
  by_cases same : (current.ended state).id = id
  · have whole : found = current := by
      have kept' := keeps.kept
      rw [show current.id = id from same, kept] at kept'
      exact Option.some.inj kept'
    subst whole
    refine ⟨state, ?_, fun past => absurd active past⟩
    rw [← same]
    exact get_put_self
  · refine ⟨found.state, ?_, fun _ => rfl⟩
    rw [get_put_ne same]
    exact kept

theorem Keeps.end_keeps
    (sound : store.Sound service) : Keeps service (store.put (current.ended state)) bearer other ↔
      Keeps service store bearer other ∧ bearer ≠ presented ∨
        other = current.ended state ∧ bearer = presented := by
  constructor
  · rintro ⟨kept, token⟩
    by_cases same : (current.ended state).id = other.id
    · rw [← same, get_put_self] at kept
      cases kept
      exact .inr ⟨rfl, token.symm.trans keeps.token⟩
    · rw [get_put_ne same] at kept
      refine .inl ⟨⟨kept, token⟩, fun whole => same ?_⟩
      subst whole
      show current.id = other.id
      rw [keeps.unique sound ⟨kept, token⟩]
  · rintro (⟨⟨kept, token⟩, differs⟩ | ⟨rfl, rfl⟩)
    · refine ⟨?_, token⟩
      rw [get_put_ne]
      · exact kept
      · intro same
        rw [← show current.id = other.id from same, keeps.kept] at kept
        cases kept
        exact differs (token.symm.trans keeps.token)
    · exact ⟨get_put_self, keeps.token⟩

theorem Keeps.end_open (sound : store.Sound service) (ended : state ≠ .active) :
    Open service (store.put (current.ended state)) bearer issued lasts ↔
      Open service store bearer issued lasts ∧ bearer ≠ presented := by
  constructor
  · rintro ⟨found, keeps', active, rest⟩
    rcases (keeps.end_keeps sound).mp keeps' with ⟨before, differs⟩ | ⟨rfl, -⟩
    · exact ⟨⟨found, before, active, rest⟩, differs⟩
    · exact absurd active ended
  · rintro ⟨⟨found, before, rest⟩, differs⟩
    exact ⟨found, (keeps.end_keeps sound).mpr (.inl ⟨before, differs⟩), rest⟩

end Keeping

end Stores

/-- A store has the records that the replies say, in the states that they say. -/
structure Tracks (service : SessionService) (history : List Past) (store : InMemorySessionStore) :
    Prop where
  sound : store.Sound service
  stands : ∀ bearer issued ttl,
    Open service store bearer issued ttl ↔ Stands history bearer issued ttl
  issued : ∀ past ∈ history, ∀ bearer now ttl, Issues past bearer now ttl → ∃ record,
    Keeps service store bearer record ∧ record.generation.toNat = 0
  rotated : ∀ past ∈ history, ∀ bearer other now ttl, Rotates past bearer other now ttl →
    ∃ record record', Keeps service store bearer record ∧ record.state ≠ .active ∧
      Keeps service store other record' ∧ record'.generation.toNat = record.generation.toNat + 1
  once : ∀ past ∈ history, ∀ past' ∈ history, ∀ bearer other other' now now' ttl ttl',
    Rotates past bearer other now ttl → Rotates past' bearer other' now' ttl' → other = other'
  known : ∀ bearer record, Keeps service store bearer record → ∃ start number,
    Chain history start number bearer

/-- A store after a call has what the reply says. -/
structure Follows (service : SessionService) (store : InMemorySessionStore) (past : Past)
    (after : InMemorySessionStore) : Prop where
  sound : after.Sound service
  onward : Onward store after
  stands : ∀ bearer issued ttl, Open service after bearer issued ttl ↔
    (Open service store bearer issued ttl ∧ ¬Ends past bearer) ∨ Mints past bearer issued ttl
  issued : ∀ bearer now ttl, Issues past bearer now ttl → ∃ record,
    Keeps service after bearer record ∧ record.generation.toNat = 0
  rotated : ∀ bearer other now ttl, Rotates past bearer other now ttl → ∃ record record',
    Keeps service store bearer record ∧ record.state = .active ∧
      Keeps service after bearer (record.ended .rotated) ∧ Keeps service after other record' ∧
        record'.generation.toNat = record.generation.toNat + 1
  known : ∀ bearer record, Keeps service after bearer record →
    (∃ before, Keeps service store bearer before) ∨ ∃ now ttl, Mints past bearer now ttl

section Runs

variable {service : SessionService} {history : List Past} {store after : InMemorySessionStore}
  {past : Past}

theorem Tracks.start (capacity : Nat) : Tracks service [] ⟨capacity, ∅⟩ := by
  have none : ∀ (id : SessionId) (record : SessionRecord),
      (∅ : BTreeMap SessionId SessionRecord)[id]? ≠ some record := by
    intro id record kept
    rw [Std.TreeMap.getElem?_emptyc] at kept
    cases kept
  refine ⟨fun id record kept => absurd kept (none id record), fun bearer issued ttl => ?_,
    by simp, by simp, by simp, fun bearer record keeps => absurd keeps.kept (none _ _)⟩
  constructor
  · rintro ⟨record, keeps, -⟩
    exact absurd keeps.kept (none _ _)
  · intro stands
    exact absurd stands since_nil

section Tracking

variable (tracks : Tracks service history store)

include tracks

theorem Tracks.step
    (follows : Follows service store past after) : Tracks service (history ++ [past]) after := by
  have still : ∀ (bearer : List UInt8) (record : SessionRecord),
      Keeps service store bearer record → ∃ record', Keeps service after bearer record' ∧
        record'.generation = record.generation ∧
          (record.state ≠ .active → record'.state ≠ .active) := by
    intro bearer record keeps
    obtain ⟨state, keeps', same⟩ := keeps.onward follows.onward
    refine ⟨_, keeps', rfl, fun ended => ?_⟩
    rw [show (record.ended state).state = state from rfl, same ended]
    exact ended
  refine ⟨follows.sound, fun bearer issued ttl => ?_, ?_, ?_, ?_, ?_⟩
  · unfold Stands
    rw [since_append, follows.stands, tracks.stands]
    rfl
  · intro other member bearer now ttl issues
    rcases List.mem_append.mp member with member | member
    · obtain ⟨record, keeps, zero⟩ := tracks.issued other member bearer now ttl issues
      obtain ⟨record', keeps', same, -⟩ := still bearer record keeps
      exact ⟨record', keeps', by rw [same, zero]⟩
    · rw [List.mem_singleton.mp member] at issues
      exact follows.issued bearer now ttl issues
  · intro other member bearer next now ttl rotates
    rcases List.mem_append.mp member with member | member
    · obtain ⟨record, record', keeps, ended, keeps', generation⟩ :=
        tracks.rotated other member bearer next now ttl rotates
      obtain ⟨found, kept, same, stays⟩ := still bearer record keeps
      obtain ⟨found', kept', same', -⟩ := still next record' keeps'
      exact ⟨found, found', kept, stays ended, kept', by rw [same, same', generation]⟩
    · rw [List.mem_singleton.mp member] at rotates
      obtain ⟨record, record', -, -, keeps, keeps', generation⟩ :=
        follows.rotated bearer next now ttl rotates
      refine ⟨_, record', keeps, fun active => ?_, keeps', generation⟩
      cases active
  · intro first member second member' bearer other other' now now' ttl ttl' rotates rotates'
    -- A token that was rotated has a record that is not active, so it is not rotated once more.
    have not_again : ∀ (before : Past) (other other' : List UInt8) (now now' ttl ttl' : UInt64),
        before ∈ history → Rotates before bearer other now ttl →
          ¬Rotates past bearer other' now' ttl' := by
      intro before other other' now now' ttl ttl' member rotates rotates'
      obtain ⟨record, -, keeps, ended, -⟩ :=
        tracks.rotated before member bearer other now ttl rotates
      obtain ⟨found, -, kept, active, -⟩ := follows.rotated bearer other' now' ttl' rotates'
      rw [keeps.unique tracks.sound kept] at ended
      exact ended active
    rcases List.mem_append.mp member with member | member <;>
      rcases List.mem_append.mp member' with member' | member'
    · exact tracks.once first member second member' bearer other other' now now' ttl ttl' rotates
        rotates'
    · rw [List.mem_singleton.mp member'] at rotates'
      exact absurd rotates' (not_again first _ _ _ _ _ _ member rotates)
    · rw [List.mem_singleton.mp member] at rotates
      exact absurd rotates (not_again second _ _ _ _ _ _ member' rotates')
    · rw [List.mem_singleton.mp member] at rotates
      rw [List.mem_singleton.mp member'] at rotates'
      exact rotates.same rotates'
  · intro bearer record keeps
    have older : ∀ earlier ∈ history, earlier ∈ history ++ [past] :=
      fun _ member => List.mem_append_left _ member
    have last : past ∈ history ++ [past] := List.mem_concat_self
    rcases follows.known bearer record keeps with
      ⟨before, keeps⟩ | ⟨now, ttl, issues | ⟨old, rotates⟩⟩
    · obtain ⟨start, number, chain⟩ := tracks.known bearer before keeps
      exact ⟨start, number, chain.mono older⟩
    · exact ⟨bearer, 0, .issued last issues⟩
    · obtain ⟨found, -, kept, -⟩ := follows.rotated old bearer now ttl rotates
      obtain ⟨start, number, chain⟩ := tracks.known old found kept
      exact ⟨start, number + 1, .rotated (chain.mono older) last rotates⟩

theorem Tracks.chain {start bearer : List UInt8}
    {number : Nat} (chain : Chain history start number bearer) : ∃ record,
      Keeps service store bearer record ∧ record.generation.toNat = number := by
  cases chain with
  | issued member issues => exact tracks.issued _ member _ _ _ issues
  | rotated chain member rotates =>
    obtain ⟨before, keeps, generation⟩ := Tracks.chain chain
    obtain ⟨record, record', keeps', -, kept, next⟩ := tracks.rotated _ member _ _ _ _ rotates
    rw [keeps.unique tracks.sound keeps'] at generation
    exact ⟨record', kept, by rw [next, generation]⟩

theorem Tracks.chain_unique
    {start bearer other : List UInt8} {number : Nat} (chain : Chain history start number bearer)
    (chain' : Chain history start number other) : bearer = other := by
  induction number generalizing bearer other with
  | zero =>
    cases chain
    cases chain'
    rfl
  | succ number ih =>
    cases chain with
    | rotated chain member rotates =>
      cases chain' with
      | rotated chain' member' rotates' =>
        have same := ih chain chain'
        subst same
        exact tracks.once _ member _ member' _ _ _ _ _ _ _ rotates rotates'

theorem Tracks.chain_past {start bearer other : List UInt8}
    {number later : Nat} (chain : Chain history start number bearer)
    (chain' : Chain history start later other) (before : number < later) :
    ∃ record, Keeps service store bearer record ∧ record.state ≠ .active := by
  induction chain' with
  | issued => exact absurd before (Nat.not_lt_zero _)
  | @rotated past found middle other now ttl chain' member rotates ih =>
    rcases Nat.lt_succ_iff_lt_or_eq.mp before with earlier | same
    · exact ih earlier
    · subst same
      obtain ⟨record, -, keeps, ended, -⟩ := tracks.rotated _ member _ _ _ _ rotates
      rw [tracks.chain_unique chain' chain] at keeps
      exact ⟨record, keeps, ended⟩

theorem Tracks.chain_active
    {start bearer other : List UInt8} {number later : Nat} {record record' : SessionRecord}
    (chain : Chain history start number bearer) (chain' : Chain history start later other)
    (keeps : Keeps service store bearer record) (keeps' : Keeps service store other record')
    (active : record.state = .active) (active' : record'.state = .active) : record = record' := by
  rcases Nat.lt_trichotomy number later with before | same | before
  · obtain ⟨found, kept, ended⟩ := tracks.chain_past chain chain' before
    rw [kept.unique tracks.sound keeps] at ended
    exact absurd active ended
  · subst same
    have same := tracks.chain_unique chain chain'
    subst same
    exact keeps.unique tracks.sound keeps'
  · obtain ⟨found, kept, ended⟩ := tracks.chain_past chain' chain before
    rw [kept.unique tracks.sound keeps'] at ended
    exact absurd active' ended

end Tracking

theorem Follows.idle (sound : store.Sound service) (token : ∀ bearer, past.2 ≠ .ok (.token bearer))
    (done : past.2 ≠ .ok .done) : Follows service store past store := by
  have not_issues : ∀ bearer now ttl, ¬Issues past bearer now ttl :=
    fun bearer _ _ issues => token bearer issues.1
  have not_rotates : ∀ bearer other now ttl, ¬Rotates past bearer other now ttl :=
    fun _ other _ _ rotates => token other rotates.1
  refine ⟨sound, .rfl store, fun bearer issued ttl => ?_, ?_, ?_, fun _ record keeps => ?_⟩
  · simp [Ends, Mints, not_issues, not_rotates, Revokes, done]
  · exact fun bearer now ttl issues => absurd issues (not_issues _ _ _)
  · exact fun bearer other now ttl rotates => absurd rotates (not_rotates _ _ _ _)
  · exact .inl ⟨record, keeps⟩

variable {record current : SessionRecord} {now ttl generation : UInt64}
  {drawn : Option SessionId} {subject : String} {bearer : List UInt8}

section Sound

variable (sound : store.Sound service)

include sound

theorem Follows.issue (fresh : Fresh service store now ttl 0 record) :
    Follows service store (.issue drawn subject now ttl, .ok (.token (service.tokenOf record)))
      (store.put record) := by
  refine ⟨fresh.put_sound sound, fresh.put_onward, fun bearer issued lasts => ?_, ?_, ?_,
    fun bearer found keeps => ?_⟩
  · rw [fresh.put_open]
    simp only [Ends, Rotates, Revokes, Mints, Issues, Except.ok.injEq, Reply.token.injEq,
      Call.issue.injEq]
    constructor
    · rintro (before | ⟨rfl, rfl, rfl⟩)
      · exact .inl ⟨before, by simp⟩
      · exact .inr (.inl ⟨rfl, drawn, subject, rfl, rfl, rfl, rfl⟩)
    · rintro (⟨before, -⟩ | ⟨rfl, _, _, -, -, rfl, rfl⟩ | ⟨_, -, _, call⟩)
      · exact .inl before
      · exact .inr ⟨rfl, rfl, rfl⟩
      · cases call
  · rintro bearer now ttl ⟨reply, -⟩
    cases reply
    exact ⟨record, fresh.put_keeps.mpr (.inr ⟨rfl, rfl⟩), by rw [fresh.generation]; rfl⟩
  · rintro bearer other now ttl ⟨-, _, call⟩
    cases call
  · rcases fresh.put_keeps.mp keeps with before | ⟨-, rfl⟩
    · exact .inl ⟨found, before⟩
    · exact .inr ⟨now, ttl, .inl ⟨rfl, drawn, subject, rfl⟩⟩

theorem Follows.revoke (keeps : Keeps service store bearer current)
    (active : current.state = .active) :
    Follows service store (.revoke bearer now, .ok .done) (store.put (current.ended .revoked)) := by
  refine ⟨keeps.end_sound sound, keeps.end_onward active, fun presented issued lasts => ?_, ?_, ?_,
    fun presented found keeps' => ?_⟩
  · rw [keeps.end_open sound (by decide)]
    simp only [Ends, Rotates, Revokes, Mints, Issues]
    constructor
    · rintro ⟨before, differs⟩
      refine .inl ⟨before, ?_⟩
      rintro (⟨_, _, _, reply, -⟩ | ⟨-, _, call⟩)
      · cases reply
      · cases call
        exact differs rfl
    · rintro (⟨before, stays⟩ | ⟨reply, -⟩ | ⟨_, reply, -⟩)
      · refine ⟨before, ?_⟩
        rintro rfl
        exact stays (.inr ⟨trivial, now, rfl⟩)
      · cases reply
      · cases reply
  · rintro bearer now ttl ⟨reply, -⟩
    cases reply
  · rintro bearer other now ttl ⟨reply, -⟩
    cases reply
  · rcases (keeps.end_keeps sound).mp keeps' with ⟨before, -⟩ | ⟨-, rfl⟩
    · exact .inl ⟨found, before⟩
    · exact .inl ⟨current, keeps⟩

theorem Follows.rotate (keeps : Keeps service store bearer current)
    (active : current.state = .active)
    (fresh : Fresh service store now ttl record.generation record)
    (next : record.generation.toNat = current.generation.toNat + 1) :
    Follows service store (.rotate drawn bearer now ttl, .ok (.token (service.tokenOf record)))
      ((store.put (current.ended .rotated)).put record) := by
  have sound' : (store.put (current.ended .rotated)).Sound service := keeps.end_sound sound
  have fresh' : Fresh service (store.put (current.ended .rotated)) now ttl record.generation
      record := by
    refine ⟨fun listed => fresh.absent ?_, fresh.sound, fresh.issued, fresh.expires, rfl,
      fresh.active⟩
    rcases (BTreeMap.mem_insert_iff _ _ _ _).mp listed with same | listed
    · rw [← same]
      exact mem_of_get keeps.kept
    · exact listed
  refine ⟨fresh'.put_sound sound', (keeps.end_onward active).trans fresh'.put_onward,
    fun presented issued lasts => ?_, ?_, ?_, fun presented found keeps' => ?_⟩
  · rw [fresh'.put_open, keeps.end_open sound (by decide)]
    simp only [Ends, Rotates, Revokes, Mints, Issues]
    constructor
    · rintro (⟨before, differs⟩ | ⟨rfl, rfl, rfl⟩)
      · refine .inl ⟨before, ?_⟩
        rintro (⟨_, _, _, -, _, call⟩ | ⟨reply, -⟩)
        · cases call
          exact differs rfl
        · cases reply
      · exact .inr (.inr ⟨bearer, rfl, drawn, rfl⟩)
    · rintro (⟨before, stays⟩ | ⟨-, _, _, call⟩ | ⟨_, reply, _, call⟩)
      · refine .inl ⟨before, ?_⟩
        rintro rfl
        exact stays (.inl ⟨_, now, ttl, rfl, drawn, rfl⟩)
      · cases call
      · cases reply
        cases call
        exact .inr ⟨rfl, rfl, rfl⟩
  · rintro bearer now ttl ⟨-, _, _, call⟩
    cases call
  · rintro old other now ttl ⟨reply, _, call⟩
    cases reply
    cases call
    refine ⟨current, record, keeps, active, fresh'.put_keeps.mpr (.inl ?_),
      fresh'.put_keeps.mpr (.inr ⟨rfl, rfl⟩), next⟩
    exact (keeps.end_keeps sound).mpr (.inr ⟨rfl, rfl⟩)
  · rcases fresh'.put_keeps.mp keeps' with before | ⟨-, rfl⟩
    · rcases (keeps.end_keeps sound).mp before with ⟨before, -⟩ | ⟨-, rfl⟩
      · exact .inl ⟨found, before⟩
      · exact .inl ⟨current, keeps⟩
    · exact .inr ⟨now, ttl, .inr ⟨bearer, rfl, drawn, rfl⟩⟩

theorem perform_follows (call : Call) :
    (service.perform call).wp (fun reply after => Follows service store (call, .ok reply) after)
      (fun _ after => after = store) store := by
  cases call with
  | issue drawn subject now ttl =>
    unfold SessionService.perform
    rw [wp_bind]
    refine wp_mono (issue_made drawn subject) ?_ fun _ _ same => same
    rintro token after ⟨record, fresh, rfl, rfl⟩
    exact (wp_pure _).mpr (.issue sound fresh)
  | verify bearer now =>
    unfold SessionService.perform SessionService.verify
    simp only [wp_bind, wp_get, wp_orStop, wp_pure]
    refine ⟨fun claims _ => ?_, fun _ _ => trivial⟩
    exact .idle sound (fun bearer reply => by cases reply) (fun reply => by cases reply)
  | rotate drawn bearer now ttl =>
    unfold SessionService.perform
    rw [wp_bind]
    refine wp_mono (rotate_made sound drawn) ?_ fun _ _ same => same
    rintro token after ⟨current, replacement, live, fresh, next, rfl, rfl⟩
    exact (wp_pure _).mpr (.rotate sound ⟨live.kept, live.token⟩ live.active fresh next)
  | revoke bearer now =>
    unfold SessionService.perform
    rw [wp_bind]
    refine wp_mono (revoke_made sound) ?_ fun _ _ same => same
    rintro _ after ⟨current, live, rfl⟩
    exact (wp_pure _).mpr (.revoke sound ⟨live.kept, live.token⟩ live.active)

theorem perform_failed {call : Call} {wrong : AuthError}
    (failed : (service.perform call store).1 = .error wrong) :
    (service.perform call store).2 = store :=
  (perform_follows sound call).stopped (Prod.ext failed rfl)

end Sound

theorem Tracks.next (tracks : Tracks service history store) (call : Call) :
    Tracks service (service.next (history, store) call).1 (service.next (history, store) call).2 ∧
      Onward store (service.next (history, store) call).2 := by
  have follows : Follows service store (call, (service.perform call store).1)
      (service.perform call store).2 := by
    rcases wp_run (perform_follows tracks.sound call) with
      ⟨reply, after, ran, follows⟩ | ⟨wrong, after, ran, rfl⟩
    · rw [ran]
      exact follows
    · rw [ran]
      exact .idle tracks.sound (fun bearer reply => by cases reply) (fun reply => by cases reply)
  exact ⟨tracks.step follows, follows.onward⟩

theorem run_concat (service : SessionService) (capacity : Nat) (calls : List Call) (call : Call) :
    service.run capacity (calls ++ [call]) = service.next (service.run capacity calls) call := by
  unfold SessionService.run
  rw [List.foldl_append]
  rfl

theorem run_tracks (service : SessionService) (capacity : Nat) (calls : List Call) :
    Tracks service (service.run capacity calls).1 (service.run capacity calls).2 := by
  induction calls using List.reverseRecOn with
  | nil => exact Tracks.start capacity
  | append_singleton calls call ih =>
    rw [run_concat]
    exact (ih.next call).1

theorem run_onward (service : SessionService) (capacity : Nat) (calls more : List Call) :
    Onward (service.run capacity calls).2 (service.run capacity (calls ++ more)).2 := by
  induction more using List.reverseRecOn with
  | nil =>
    rw [List.append_nil]
    exact .rfl _
  | append_singleton more call ih =>
    rw [← List.append_assoc, run_concat]
    exact ih.trans ((run_tracks service capacity (calls ++ more)).next call).2

theorem verify_iff_open (sound : store.Sound service) :
    (∃ session, (service.verify bearer now store).1 = .ok session) ↔ ∃ issued ttl,
      Open service store bearer issued ttl ∧ issued ≤ now ∧
        now.toNat < issued.toNat + ttl.toNat := by
  rw [verify_ok sound]
  constructor
  · rintro ⟨record, live⟩
    have lasts := UInt64.lt_iff_toNat_lt.mp live.lasts
    have issued := UInt64.le_iff_toNat_le.mp live.issued
    have order : record.issuedAt ≤ record.expiresAt :=
      UInt64.le_iff_toNat_le.mpr (issued.trans lasts.le)
    have whole : record.expiresAt.toNat =
        record.issuedAt.toNat + (record.expiresAt - record.issuedAt).toNat := by
      rw [UInt64.toNat_sub_of_le _ _ order]
      omega
    refine ⟨record.issuedAt, record.expiresAt - record.issuedAt, ?_, live.issued, whole ▸ lasts⟩
    exact ⟨record, ⟨live.kept, live.token⟩, live.active, rfl, whole⟩
  · rintro ⟨issued, ttl, ⟨record, keeps, active, rfl, expires⟩, begun, before⟩
    refine ⟨record, keeps.kept, keeps.token, active, begun, ?_⟩
    rw [UInt64.lt_iff_toNat_lt, expires]
    exact before

/-- **A token works while its session stands, a session has one active token at most, and the tokens
of a session are numbered by its rotations; an ended session stays ended, and a call that fails does
nothing.** -/
theorem sessions_exact (service : SessionService) (capacity : Nat) (calls : List Call) :
    (∀ bearer now,
      (∃ session, (service.verify bearer now (service.run capacity calls).2).1 = .ok session) ↔
        ∃ issued ttl, Stands (service.run capacity calls).1 bearer issued ttl ∧ issued ≤ now ∧
          now.toNat < issued.toNat + ttl.toNat) ∧
    (∀ start number bearer, Chain (service.run capacity calls).1 start number bearer → ∃ record,
      Keeps service (service.run capacity calls).2 bearer record ∧
        record.generation.toNat = number) ∧
    (∀ bearer record, Keeps service (service.run capacity calls).2 bearer record →
      ∃ start number, Chain (service.run capacity calls).1 start number bearer) ∧
    (∀ start number later bearer other (record record' : SessionRecord),
      Chain (service.run capacity calls).1 start number bearer →
      Chain (service.run capacity calls).1 start later other →
      Keeps service (service.run capacity calls).2 bearer record →
      Keeps service (service.run capacity calls).2 other record' →
      record.state = .active → record'.state = .active → record = record') ∧
    (∀ (more : List Call) (id : SessionId) (record : SessionRecord),
      (service.run capacity calls).2.records[id]? = some record → record.state ≠ .active →
        (service.run capacity (calls ++ more)).2.records[id]? = some record) ∧
    ∀ call wrong, (service.perform call (service.run capacity calls).2).1 = .error wrong →
      (service.perform call (service.run capacity calls).2).2 = (service.run capacity calls).2 := by
  have tracks := run_tracks service capacity calls
  refine ⟨fun bearer now => ?_, fun _ _ _ chain => tracks.chain chain, tracks.known, ?_, ?_,
    fun _ _ => perform_failed tracks.sound⟩
  · rw [verify_iff_open tracks.sound]
    simp only [tracks.stands]
  · intro start number later bearer other record record' chain chain' keeps keeps' active active'
    exact tracks.chain_active chain chain' keeps keeps' active active'
  · intro more id record kept ended
    obtain ⟨state, kept', same⟩ := run_onward service capacity calls more id record kept
    rw [kept', same ended]
    rfl

end Runs

end Semaprax.SessionTokens
