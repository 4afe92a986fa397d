/-
**The session service and its store** (`authentication/session.rs`).

A token is the claims of a session and the mark of the service on them. The store keeps a record of
every session, and a session is rotated or revoked only from the generation that the token claims.

* `InMemorySessionStore` — the records of the sessions.
* `SessionService.encodeToken`, `decodeToken` — tokens; the marks are those of any function.
* `SessionService.issue`, `verify`, `rotate`, `revoke` — the calls of the service.
* `decodeToken_iff` — a token has one spelling.
-/

import Semaprax.Library.Collections
import Semaprax.SessionTokens.Claims

namespace Semaprax.SessionTokens

open Library

theorem SessionId.bytes_injective :
    Function.Injective fun id : SessionId => id.bytes.map UInt8.toNat := by
  intro first second same
  have bytes : first.bytes = second.bytes :=
    List.map_injective_iff.mpr (fun _ _ => UInt8.toNat_inj.mp) same
  cases first
  cases second
  cases bytes
  rfl

/-- The order of the bytes. -/
instance : LinearOrder SessionId :=
  LinearOrder.lift' (fun id : SessionId => id.bytes.map UInt8.toNat) SessionId.bytes_injective

inductive SessionState
  | active | rotated | revoked
  deriving DecidableEq

structure SessionRecord where
  id : SessionId
  subject : String
  issuedAt : UInt64
  expiresAt : UInt64
  generation : UInt64
  state : SessionState
  deriving DecidableEq

def maxInMemorySessions : Nat := 1024

structure InMemorySessionStore where
  capacity : Nat
  records : BTreeMap SessionId SessionRecord

namespace InMemorySessionStore

def new (capacity : Nat) : Except AuthError InMemorySessionStore :=
  if capacity = 0 ∨ capacity > maxInMemorySessions then .error .invalidPolicy
  else .ok ⟨capacity, ∅⟩

def lookup (store : InMemorySessionStore) (id : SessionId) : Option SessionRecord :=
  store.records[id]?

def put (store : InMemorySessionStore) (record : SessionRecord) : InMemorySessionStore :=
  { store with
    records := store.records.insert record.id record }

def issueIfAbsent (record : SessionRecord) : Prog InMemorySessionStore AuthError Unit := do
  let store ← Prog.get
  stopIf (record.id ∈ store.records) .conflict
  stopIf (store.records.size ≥ store.capacity) .capacity
  Prog.set (store.put record)

def compareAndRotate (id : SessionId) (generation : UInt64) (replacement : SessionRecord) :
    Prog InMemorySessionStore AuthError Unit := do
  let store ← Prog.get
  stopIf (replacement.id = id ∨ replacement.id ∈ store.records) .conflict
  stopIf (store.records.size ≥ store.capacity) .capacity
  let current ← ofOption .revoked (store.records[id]?)
  stopIf (current.generation ≠ generation ∨ current.state ≠ .active) .conflict
  let rotated : SessionRecord :=
    { current with
      state := .rotated }
  Prog.set
    { store with
      records := (store.records.insert id rotated).insert replacement.id replacement }

def compareAndRevoke (id : SessionId) (generation : UInt64) :
    Prog InMemorySessionStore AuthError Unit := do
  let store ← Prog.get
  let current ← ofOption .revoked (store.records[id]?)
  stopIf (current.generation ≠ generation ∨ current.state ≠ .active) .conflict
  let revoked : SessionRecord :=
    { current with
      state := .revoked }
  Prog.set
    { store with
      records := store.records.insert id revoked }

end InMemorySessionStore

def macDomain : List UInt8 := utf8 "semaprax.session-token.v1" ++ [0]
def macBytes : Nat := 32

/-- The mark of a key on bytes: any function whose values have the length of a mark. -/
structure Hmac where
  mark : (key message : List UInt8) → List UInt8
  length : ∀ key message, (mark key message).length = macBytes

structure SessionService where
  policy : SessionPolicy
  signingKey : List UInt8
  hmac : Hmac

def Claims.fromRecord (record : SessionRecord) (policy : SessionPolicy) : Claims where
  id := record.id
  generation := record.generation
  issuedAt := record.issuedAt
  expiresAt := record.expiresAt
  policyId := policy.policyId
  issuer := policy.issuer
  audience := policy.audience
  subject := record.subject

structure AuthenticatedSession where
  subject : String
  issuedAt : UInt64
  expiresAt : UInt64
  generation : UInt64

def Claims.public (claims : Claims) : AuthenticatedSession :=
  ⟨claims.subject, claims.issuedAt, claims.expiresAt, claims.generation⟩

/-- `SecretBytes::try_from_bytes`. -/
def secretBytes (bytes : List UInt8) : Except AuthError (List UInt8) :=
  if bytes = [] ∨ bytes.length > 4096 then .error .invalidInput else .ok bytes

namespace SessionService

variable (service : SessionService)

def tag (payload : List UInt8) : List UInt8 :=
  service.hmac.mark service.signingKey (macDomain ++ payload)

def encodeToken (claims : Claims) : Except AuthError (List UInt8) := do
  let payload ← claims.encode
  let bearer := base64urlEncode payload ++ [46] ++ base64urlEncode (service.tag payload)
  if bearer.length > maxTokenBytes then .error .capacity else secretBytes bearer

/-- The parts between the dots are two. -/
def decodeToken (bearer : List UInt8) : Except AuthError Claims :=
  if bearer = [] ∨ bearer.length > maxTokenBytes then .error .invalidCredential
  else
    match bearer.splitOn 46 with
    | [payloadText, tagText] =>
      if payloadText = [] ∨ tagText = [] then .error .invalidCredential
      else do
        let payload ← base64urlDecode payloadText
        let tag ← base64urlDecode tagText
        if tag.length ≠ macBytes then .error .invalidCredential
        else if tag ≠ service.tag payload then .error .invalidCredential
        else Claims.decode payload
    | _ => .error .invalidCredential

/-- `checked_add`. -/
def checkedAdd (first second : UInt64) : Option UInt64 :=
  if first.toNat + second.toNat < 2 ^ 64 then some (first + second) else none

def newRecord (drawn : Option SessionId) (subject : String) (now ttl generation : UInt64) :
    Except AuthError SessionRecord :=
  if ¬ValidText subject maxSubjectBytes then .error .invalidInput
  else if ¬service.policy.ttlIsValid ttl then .error .invalidPolicy
  else
    match checkedAdd now ttl with
    | none => .error .invalidInput
    | some expiresAt =>
      match drawn with
      | none => .error .entropy
      | some id =>
        if id.Blank then .error .entropy
        else .ok ⟨id, subject, now, expiresAt, generation, .active⟩

def verifyClaims (store : InMemorySessionStore) (bearer : List UInt8) (now : UInt64) :
    Except AuthError Claims := do
  let claims ← service.decodeToken bearer
  if claims.policyId ≠ service.policy.policyId ∨ claims.issuer ≠ service.policy.issuer ∨
      claims.audience ≠ service.policy.audience then .error .invalidCredential
  else if claims.expiresAt < claims.issuedAt then .error .invalidCredential
  else if now < claims.issuedAt ∨
      ¬service.policy.ttlIsValid (claims.expiresAt - claims.issuedAt) then .error .invalidCredential
  else if claims.expiresAt ≤ now then .error .expired
  else
    match store.lookup claims.id with
    | none => .error .revoked
    | some record =>
      if record.state ≠ .active then .error .revoked
      else if record.expiresAt ≤ now then .error .expired
      else if record.id ≠ claims.id ∨ record.subject ≠ claims.subject ∨
          record.issuedAt ≠ claims.issuedAt ∨ record.expiresAt ≠ claims.expiresAt ∨
            record.generation ≠ claims.generation then .error .invalidCredential
      else .ok claims

/-- Go on with what a computation ends with, or stop for its error. -/
def orStop {A : Type} (outcome : Except AuthError A) : Prog InMemorySessionStore AuthError A :=
  fun store => (outcome, store)

def issue (drawn : Option SessionId) (subject : String) (now ttl : UInt64) :
    Prog InMemorySessionStore AuthError (List UInt8) := do
  let record ← orStop (service.newRecord drawn subject now ttl 0)
  let token ← orStop (service.encodeToken (Claims.fromRecord record service.policy))
  InMemorySessionStore.issueIfAbsent record
  pure token

def verify (bearer : List UInt8) (now : UInt64) :
    Prog InMemorySessionStore AuthError AuthenticatedSession := do
  let store ← Prog.get
  let claims ← orStop (service.verifyClaims store bearer now)
  pure claims.public

def rotate (drawn : Option SessionId) (bearer : List UInt8) (now ttl : UInt64) :
    Prog InMemorySessionStore AuthError (List UInt8) := do
  let store ← Prog.get
  let current ← orStop (service.verifyClaims store bearer now)
  let generation ← ofOption .capacity (checkedAdd current.generation 1)
  let replacement ← orStop (service.newRecord drawn current.subject now ttl generation)
  let token ← orStop (service.encodeToken (Claims.fromRecord replacement service.policy))
  InMemorySessionStore.compareAndRotate current.id current.generation replacement
  pure token

def revoke (bearer : List UInt8) (now : UInt64) : Prog InMemorySessionStore AuthError Unit := do
  let store ← Prog.get
  let current ← orStop (service.verifyClaims store bearer now)
  InMemorySessionStore.compareAndRevoke current.id current.generation

def token (claims : Claims) : List UInt8 :=
  base64urlEncode claims.bytes ++ [46] ++ base64urlEncode (service.tag claims.bytes)

variable {service} {claims : Claims} {bearer : List UInt8}

variable {bytes : List UInt8}

theorem length_token (presentable : claims.Presentable) :
    (service.token claims).length ≤ maxTokenBytes := by
  obtain ⟨-, short⟩ := claims.length_bytes presentable
  have mark : (service.tag claims.bytes).length = 32 := service.hmac.length _ _
  have most : maxTokenBytes = 768 := rfl
  unfold token
  simp only [List.length_append, List.length_singleton, length_base64urlEncode, mark]
  omega

theorem secretBytes_ok (some_byte : bytes ≠ []) (short : bytes.length ≤ 4096) :
    secretBytes bytes = .ok bytes := by
  unfold secretBytes
  rw [if_neg]
  rintro (empty | long)
  · exact some_byte empty
  · exact absurd short (Nat.not_le.mpr long)

theorem encodeToken_presentable (presentable : claims.Presentable) :
    service.encodeToken claims = .ok (service.token claims) := by
  have short : (service.token claims).length ≤ maxTokenBytes := length_token presentable
  unfold encodeToken
  rw [claims.encode_bytes presentable]
  simp only [bind, Except.bind]
  unfold token at short ⊢
  rw [if_neg (Nat.not_lt.mpr short)]
  refine secretBytes_ok (fun empty => ?_) (short.trans (by decide))
  simp at empty

theorem splitOn_dot {payload tag : List UInt8} (free : 46 ∉ payload) (free' : 46 ∉ tag) :
    (payload ++ [46] ++ tag).splitOn 46 = [payload, tag] := by
  rw [List.append_assoc, List.singleton_append, List.splitOn_append_cons_self_of_not_mem free,
    List.splitOn_eq_singleton free']

theorem base64urlEncode_ne_nil (some_byte : bytes ≠ []) : base64urlEncode bytes ≠ [] := by
  intro empty
  have length := length_base64urlEncode bytes
  have positive := List.length_pos_iff.mpr some_byte
  rw [empty, List.length_nil] at length
  omega

theorem decodeToken_token (presentable : claims.Presentable) :
    service.decodeToken (service.token claims) = .ok claims := by
  have short : (service.token claims).length ≤ maxTokenBytes := length_token presentable
  have some_byte := (claims.length_bytes presentable).1
  have mark : (service.tag claims.bytes).length = macBytes := service.hmac.length _ _
  have payload_ne : claims.bytes ≠ [] := fun empty => by simp [empty] at some_byte
  have tag_ne : service.tag claims.bytes ≠ [] := fun empty => by simp [empty, macBytes] at mark
  have parts : (service.token claims).length = (base64urlEncode claims.bytes).length + 1 +
      (base64urlEncode (service.tag claims.bytes)).length := by
    unfold token
    rw [List.length_append, List.length_append, List.length_singleton]
  have payload : base64urlDecode (base64urlEncode claims.bytes) = .ok claims.bytes :=
    base64urlDecode_encode payload_ne (by omega)
  have tag : base64urlDecode (base64urlEncode (service.tag claims.bytes)) =
      .ok (service.tag claims.bytes) := base64urlDecode_encode tag_ne (by omega)
  have accepted : ¬(service.token claims = [] ∨ (service.token claims).length > maxTokenBytes) := by
    rintro (empty | long)
    · rw [empty, List.length_nil] at parts
      omega
    · omega
  have split : (service.token claims).splitOn 46 =
      [base64urlEncode claims.bytes, base64urlEncode (service.tag claims.bytes)] :=
    splitOn_dot (dot_not_mem_base64urlEncode _) (dot_not_mem_base64urlEncode _)
  unfold decodeToken
  rw [if_neg accepted, split]
  simp only [bind, Except.bind, payload, tag]
  rw [if_neg (not_or.mpr ⟨base64urlEncode_ne_nil payload_ne, base64urlEncode_ne_nil tag_ne⟩),
    if_neg (not_not.mpr mark), if_neg (not_not.mpr rfl)]
  exact claims.decode_bytes presentable

/-- **A token that is read is the one that is written for the claims that it is read as.** -/
theorem decodeToken_ok (read : service.decodeToken bearer = .ok claims) :
    claims.Presentable ∧ bearer = service.token claims := by
  unfold decodeToken at read
  split_ifs at read with refused
  split at read
  swap
  · cases read
  rename_i payloadText tagText split
  split_ifs at read with empty
  cases payload : base64urlDecode payloadText with
  | error wrong =>
    rw [payload] at read
    cases read
  | ok bytes =>
    cases tag : base64urlDecode tagText with
    | error wrong =>
      rw [payload, tag] at read
      cases read
    | ok mark =>
      rw [payload, tag] at read
      simp only [bind, Except.bind] at read
      split_ifs at read with length same
      obtain ⟨presentable, rfl⟩ := Claims.decode_ok read
      refine ⟨presentable, ?_⟩
      have joined : [46].intercalate (bearer.splitOn 46) = bearer := List.intercalate_splitOn 46
      rw [split] at joined
      unfold token
      rw [base64urlEncode_decode payload, ← not_not.mp same, base64urlEncode_decode tag, ← joined]
      simp [List.intercalate]

end SessionService

end Semaprax.SessionTokens
