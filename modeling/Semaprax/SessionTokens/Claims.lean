/-
**The claims of a session token** (`authentication/session.rs`: `Claims`, `SessionPolicy`).

Claims are written as a mark, the number of the session, three numbers and four short texts, and are
read back only from bytes that are written so.

* `SessionPolicy` — the policy that a service was made with.
* `Claims.encode`, `Claims.decode` — the layout of the claims.
* `Claims.Presentable` — what the decoder asks of claims beyond their layout.
* `decode_eq_ok` — the bytes that are read, and the claims that they are read as.
-/

import Semaprax.Library.Bytes
import Semaprax.SessionTokens.Base64

namespace Semaprax.SessionTokens

open Library

def tokenVersion : UInt8 := 1
def tokenMagic : List UInt8 := [83, 80, 88, 83]
def sessionIdBytes : Nat := 32
def maxPolicyIdBytes : Nat := 64
def maxIssuerBytes : Nat := 128
def maxAudienceBytes : Nat := 128
def maxSubjectBytes : Nat := 128
def maxTtl : UInt64 := 2592000

def utf8 (text : String) : List UInt8 := text.toUTF8.data.toList

/-- `std::str::from_utf8`. -/
def fromUtf8 (bytes : List UInt8) : Option String := String.fromUTF8? ⟨bytes.toArray⟩

theorem fromUtf8_utf8 (text : String) : fromUtf8 (utf8 text) = some text := by
  unfold fromUtf8 utf8 String.fromUTF8?
  rw [Array.toArray_toList]
  exact dif_pos text.isValidUTF8

theorem utf8_fromUtf8 {bytes : List UInt8} {text : String} (read : fromUtf8 bytes = some text) :
    utf8 text = bytes := by
  unfold fromUtf8 String.fromUTF8? at read
  split_ifs at read with valid
  cases read
  rfl

/-- Some bytes, not too many, and no control character among them. -/
def ValidText (value : String) (maximum : Nat) : Prop :=
  utf8 value ≠ [] ∧ (utf8 value).length ≤ maximum ∧
    ∀ byte ∈ utf8 value, ¬(byte = 0 ∨ byte < 32 ∨ byte = 127)

instance (value : String) (maximum : Nat) : Decidable (ValidText value maximum) :=
  inferInstanceAs (Decidable (_ ∧ _ ∧ _))

structure SessionPolicy where
  policyId : String
  issuer : String
  audience : String
  minTtl : UInt64
  maxTtl : UInt64
  validPolicyId : ValidText policyId maxPolicyIdBytes
  validIssuer : ValidText issuer maxIssuerBytes
  validAudience : ValidText audience maxAudienceBytes
  ttls : minTtl ≠ 0 ∧ minTtl ≤ maxTtl ∧ maxTtl ≤ SessionTokens.maxTtl

def SessionPolicy.new (policyId issuer audience : String) (minTtl maxTtl : UInt64) :
    Except AuthError SessionPolicy :=
  if validPolicyId : ValidText policyId maxPolicyIdBytes then
    if validIssuer : ValidText issuer maxIssuerBytes then
      if validAudience : ValidText audience maxAudienceBytes then
        if ttls : minTtl ≠ 0 ∧ minTtl ≤ maxTtl ∧ maxTtl ≤ SessionTokens.maxTtl then
          .ok ⟨policyId, issuer, audience, minTtl, maxTtl, validPolicyId, validIssuer,
            validAudience, ttls⟩
        else .error .invalidPolicy
      else .error .invalidInput
    else .error .invalidInput
  else .error .invalidInput

def SessionPolicy.ttlIsValid (policy : SessionPolicy) (ttl : UInt64) : Prop :=
  policy.minTtl ≤ ttl ∧ ttl ≤ policy.maxTtl

instance (policy : SessionPolicy) (ttl : UInt64) : Decidable (policy.ttlIsValid ttl) :=
  inferInstanceAs (Decidable (_ ∧ _))

structure SessionId where
  bytes : List UInt8
  length : bytes.length = sessionIdBytes
  deriving DecidableEq

/-- The number that is all zeros. -/
def SessionId.Blank (id : SessionId) : Prop := ∀ byte ∈ id.bytes, byte = 0

instance (id : SessionId) : Decidable id.Blank := inferInstanceAs (Decidable (∀ _ ∈ _, _))

@[ext]
structure Claims where
  id : SessionId
  generation : UInt64
  issuedAt : UInt64
  expiresAt : UInt64
  policyId : String
  issuer : String
  audience : String
  subject : String
  deriving DecidableEq

/-- `to_be_bytes`. -/
def beBytes (number : UInt64) : List UInt8 := (leBytes 8 number.toNat).reverse

/-- `from_be_bytes`. -/
def beValue (bytes : List UInt8) : UInt64 := UInt64.ofNat (leValue bytes.reverse)

def lengthed (value : String) : List UInt8 := UInt8.ofNat (utf8 value).length :: utf8 value

def pushText (output : List UInt8) (value : String) (maximum : Nat) : Except AuthError (List UInt8) :=
  if ValidText value maximum then
    if (utf8 value).length < 2 ^ 8 then .ok (output ++ lengthed value) else .error .capacity
  else .error .invalidInput

/-- What comes before the texts. -/
def Claims.head (claims : Claims) : List UInt8 :=
  tokenMagic ++ [tokenVersion] ++ claims.id.bytes ++ beBytes claims.generation ++
    beBytes claims.issuedAt ++ beBytes claims.expiresAt

def Claims.encode (claims : Claims) : Except AuthError (List UInt8) := do
  let payload ← pushText claims.head claims.policyId maxPolicyIdBytes
  let payload ← pushText payload claims.issuer maxIssuerBytes
  let payload ← pushText payload claims.audience maxAudienceBytes
  pushText payload claims.subject maxSubjectBytes

/-- A reader of what is left of a payload. -/
abbrev Reader (A : Type) : Type := Prog (List UInt8) AuthError A

def take (length : Nat) : Reader (List UInt8) := do
  let input ← Prog.get
  stopIf (input.length < length) .invalidCredential
  Prog.set (input.drop length)
  pure (input.take length)

def takeU64 : Reader UInt64 := do
  let bytes ← take 8
  pure (beValue bytes)

def takeText (maximum : Nat) : Reader String := do
  let first ← take 1
  let length := (first.headD 0).toNat
  stopIf (length = 0 ∨ length > maximum) .invalidCredential
  let bytes ← take length
  let value ← ofOption .invalidCredential (fromUtf8 bytes)
  stopIf (¬ValidText value maximum) .invalidCredential
  pure value

def takeId : Reader SessionId := do
  let bytes ← take sessionIdBytes
  if length : bytes.length = sessionIdBytes then pure ⟨bytes, length⟩
  else Prog.stop .invalidCredential

def decodeClaims : Reader Claims := do
  let id ← takeId
  let generation ← takeU64
  let issuedAt ← takeU64
  let expiresAt ← takeU64
  stopIf (expiresAt ≤ issuedAt ∨ id.Blank) .invalidCredential
  let policyId ← takeText maxPolicyIdBytes
  let issuer ← takeText maxIssuerBytes
  let audience ← takeText maxAudienceBytes
  let subject ← takeText maxSubjectBytes
  let rest ← Prog.get
  stopIf (rest ≠ []) .invalidCredential
  pure ⟨id, generation, issuedAt, expiresAt, policyId, issuer, audience, subject⟩

def Claims.decode (payload : List UInt8) : Except AuthError Claims :=
  if payload.length < tokenMagic.length + 1 + sessionIdBytes + 24 ∨ payload.length > maxTokenBytes ∨
      payload.take 4 ≠ tokenMagic ∨ payload[4]? ≠ some tokenVersion then
    .error .invalidCredential
  else (decodeClaims (payload.drop 5)).1

/-- What the decoder asks of claims beyond their layout. -/
structure Claims.Presentable (claims : Claims) : Prop where
  policyId : ValidText claims.policyId maxPolicyIdBytes
  issuer : ValidText claims.issuer maxIssuerBytes
  audience : ValidText claims.audience maxAudienceBytes
  subject : ValidText claims.subject maxSubjectBytes
  lasts : claims.issuedAt < claims.expiresAt
  named : ¬claims.id.Blank

def Claims.bytes (claims : Claims) : List UInt8 :=
  claims.head ++ lengthed claims.policyId ++ lengthed claims.issuer ++ lengthed claims.audience ++
    lengthed claims.subject

theorem pushText_valid {output : List UInt8} {value : String} {maximum : Nat}
    (valid : ValidText value maximum) (short : maximum < 2 ^ 8) :
    pushText output value maximum = .ok (output ++ lengthed value) := by
  unfold pushText
  rw [if_pos valid, if_pos (valid.2.1.trans_lt short)]

theorem Claims.encode_bytes {claims : Claims} (presentable : claims.Presentable) :
    claims.encode = .ok claims.bytes := by
  unfold Claims.encode
  rw [pushText_valid presentable.policyId (by decide)]
  show (pushText (claims.head ++ lengthed claims.policyId) claims.issuer maxIssuerBytes).bind _ = _
  rw [pushText_valid presentable.issuer (by decide)]
  show (pushText _ claims.audience maxAudienceBytes).bind _ = _
  rw [pushText_valid presentable.audience (by decide)]
  exact pushText_valid presentable.subject (by decide)

theorem length_beBytes (number : UInt64) : (beBytes number).length = 8 := by
  unfold beBytes
  rw [List.length_reverse, length_leBytes]

theorem length_head (claims : Claims) : claims.head.length = 61 := by
  unfold Claims.head
  simp [length_beBytes, claims.id.length, tokenMagic, sessionIdBytes]

theorem Claims.length_bytes {claims : Claims} (presentable : claims.Presentable) :
    61 < claims.bytes.length ∧ claims.bytes.length ≤ 513 := by
  obtain ⟨some_id, policyId, -⟩ := presentable.policyId
  obtain ⟨-, issuer, -⟩ := presentable.issuer
  obtain ⟨-, audience, -⟩ := presentable.audience
  obtain ⟨-, subject, -⟩ := presentable.subject
  unfold maxPolicyIdBytes at policyId
  unfold maxIssuerBytes at issuer
  unfold maxAudienceBytes at audience
  unfold maxSubjectBytes at subject
  have head := length_head claims
  unfold Claims.bytes lengthed
  simp only [List.length_append, List.length_cons]
  omega

theorem beValue_beBytes (number : UInt64) : beValue (beBytes number) = number := by
  unfold beValue beBytes
  rw [List.reverse_reverse, leValue_leBytes]
  apply UInt64.toNat_inj.mp
  have small := number.toNat_lt
  rw [UInt64.toNat_ofNat']
  omega

theorem beBytes_beValue {bytes : List UInt8} (length : bytes.length = 8) :
    beBytes (beValue bytes) = bytes := by
  have small := leValue_lt bytes.reverse
  rw [List.length_reverse, length] at small
  unfold beValue beBytes
  rw [UInt64.toNat_ofNat_of_lt' small]
  have written := leBytes_leValue bytes.reverse
  rw [List.length_reverse, length] at written
  rw [written, List.reverse_reverse]

theorem parses_take {bytes : List UInt8} {length : Nat} (same : bytes.length = length) :
    Parses (take length) bytes bytes := parses_takeBytes same

theorem parses_takeU64 (number : UInt64) : Parses takeU64 (beBytes number) number :=
  (parses_take (length_beBytes number)).map (beValue_beBytes number)

theorem parses_takeId (id : SessionId) : Parses takeId id.bytes id := by
  have found : Parses (if length : id.bytes.length = sessionIdBytes then pure ⟨id.bytes, length⟩
      else Prog.stop .invalidCredential : Reader SessionId) [] id := by
    rw [dif_pos id.length]
    exact parses_pure
  have whole : Parses takeId (id.bytes ++ []) id := (parses_take id.length).bind found
  rwa [List.append_nil] at whole

theorem parses_takeText {value : String} {maximum : Nat} (valid : ValidText value maximum)
    (short : maximum < 2 ^ 8) : Parses (takeText maximum) (lengthed value) value := by
  have length : (UInt8.ofNat (utf8 value).length).toNat = (utf8 value).length :=
    UInt8.toNat_ofNat_of_lt' (valid.2.1.trans_lt short)
  have text : Parses (ofOption AuthError.invalidCredential (fromUtf8 (utf8 value)) :
      Reader String) [] value := by
    rw [fromUtf8_utf8]
    exact parses_pure
  have kept : Parses (stopIf (¬ValidText value maximum) AuthError.invalidCredential >>=
      fun _ => pure value : Reader String) [] value :=
    .stopIf_bind (not_not.mpr valid) parses_pure
  have one : Parses (take 1) [UInt8.ofNat (utf8 value).length] [UInt8.ofNat (utf8 value).length] :=
    parses_take rfl
  have whole : Parses (takeText maximum) ([UInt8.ofNat (utf8 value).length] ++ (utf8 value ++
      ([] ++ []))) value := by
    refine one.bind (.stopIf_bind ?_ ((parses_take length.symm).bind (text.bind kept)))
    show ¬((UInt8.ofNat (utf8 value).length).toNat = 0 ∨
      (UInt8.ofNat (utf8 value).length).toNat > maximum)
    rw [length]
    rintro (empty | long)
    · exact valid.1 (List.length_eq_zero_iff.mp empty)
    · exact absurd valid.2.1 (Nat.not_le.mpr long)
  rwa [List.append_nil, List.append_nil] at whole

theorem Claims.decode_bytes {claims : Claims} (presentable : claims.Presentable) :
    Claims.decode claims.bytes = .ok claims := by
  obtain ⟨long, short⟩ := length_bytes presentable
  have split : claims.bytes = tokenMagic ++ [tokenVersion] ++ (claims.id.bytes ++
      (beBytes claims.generation ++ (beBytes claims.issuedAt ++ (beBytes claims.expiresAt ++
        (lengthed claims.policyId ++ (lengthed claims.issuer ++ (lengthed claims.audience ++
          (lengthed claims.subject ++ [])))))))) := by
    unfold Claims.bytes Claims.head
    simp only [List.append_assoc, List.append_nil]
  have accepted : ¬(claims.bytes.length < tokenMagic.length + 1 + sessionIdBytes + 24 ∨
      claims.bytes.length > maxTokenBytes ∨ claims.bytes.take 4 ≠ tokenMagic ∨
        claims.bytes[4]? ≠ some tokenVersion) := by
    have least : tokenMagic.length + 1 + sessionIdBytes + 24 = 61 := rfl
    have most : maxTokenBytes = 768 := rfl
    rintro (less | more | magic | version)
    · omega
    · omega
    · exact magic (by rw [split]; rfl)
    · exact version (by rw [split]; rfl)
  unfold Claims.decode
  rw [if_neg accepted, split]
  show (decodeClaims _).1 = _
  have ran : decodeClaims (claims.id.bytes ++ (beBytes claims.generation ++
      (beBytes claims.issuedAt ++ (beBytes claims.expiresAt ++ (lengthed claims.policyId ++
        (lengthed claims.issuer ++ (lengthed claims.audience ++
          (lengthed claims.subject ++ [])))))))) = (.ok claims, []) := by
    unfold decodeClaims
    refine (parses_takeId _).finish ((parses_takeU64 _).finish ((parses_takeU64 _).finish
      ((parses_takeU64 _).finish (finish_stopIf ?_ ?_))))
    · rintro (wrong | blank)
      · exact absurd presentable.lasts (UInt64.not_lt.mpr wrong)
      · exact presentable.named blank
    refine (parses_takeText presentable.policyId (by decide)).finish
      ((parses_takeText presentable.issuer (by decide)).finish
        ((parses_takeText presentable.audience (by decide)).finish
          ((parses_takeText presentable.subject (by decide)).finish ?_)))
    rfl
  exact congrArg Prod.fst ran

theorem reads_takeU64 : Reads takeU64 beBytes := by
  intro bytes
  unfold takeU64
  rw [wp_bind]
  refine wp_mono (reads_takeBytes _ 8 bytes) (fun value rest taken => ?_) fun _ _ _ => trivial
  rw [wp_pure, beBytes_beValue taken.2]
  exact taken.1

theorem reads_takeId : Reads takeId SessionId.bytes := by
  intro bytes
  unfold takeId
  rw [wp_bind]
  refine wp_mono (reads_takeBytes _ sessionIdBytes bytes) (fun value rest taken => ?_)
    fun _ _ _ => trivial
  rw [dif_pos taken.2]
  exact taken.1

theorem reads_takeText {maximum : Nat} (bytes : List UInt8) :
    (takeText maximum).wp (fun value rest => bytes = lengthed value ++ rest ∧
      ValidText value maximum) (fun _ _ => True) bytes := by
  unfold takeText
  rw [wp_bind]
  refine wp_mono (reads_takeBytes _ 1 bytes) (fun first rest taken => ?_) fun _ _ _ => trivial
  obtain ⟨one, rfl⟩ := List.length_eq_one_iff.mp taken.2
  refine stopIf_step fun _ => ?_
  rw [wp_bind]
  refine wp_mono (reads_takeBytes _ _ rest) (fun text rest' taken' => ?_) fun _ _ _ => trivial
  simp only [wp_bind, wp_ofOption, wp_stopIf, wp_pure]
  refine ⟨fun _ => trivial, fun value read => ⟨fun _ => trivial, fun valid => ⟨?_, ?_⟩⟩⟩
  · have written := utf8_fromUtf8 read
    have length : text.length = one.toNat := taken'.2
    unfold lengthed
    rw [written, length, UInt8.ofNat_toNat, taken.1, taken'.1]
    rfl
  · exact not_not.mp valid

theorem Claims.decode_ok {payload : List UInt8} {claims : Claims}
    (read : Claims.decode payload = .ok claims) : claims.Presentable ∧ payload = claims.bytes := by
  unfold Claims.decode at read
  split_ifs at read with refused
  simp only [not_or, not_not] at refused
  obtain ⟨-, -, magic, version⟩ := refused
  obtain ⟨within, same⟩ := List.getElem?_eq_some_iff.mp version
  have front : payload = tokenMagic ++ [tokenVersion] ++ payload.drop 5 := by
    calc payload = payload.take 4 ++ payload.drop 4 := (List.take_append_drop 4 payload).symm
      _ = tokenMagic ++ (tokenVersion :: payload.drop 5) := by
          rw [magic, List.drop_eq_getElem_cons within, same]
      _ = tokenMagic ++ [tokenVersion] ++ payload.drop 5 := List.append_cons ..
  have reads : (decodeClaims).wp (fun claims rest => payload.drop 5 = claims.id.bytes ++
      (beBytes claims.generation ++ (beBytes claims.issuedAt ++ (beBytes claims.expiresAt ++
        (lengthed claims.policyId ++ (lengthed claims.issuer ++ (lengthed claims.audience ++
          lengthed claims.subject)))))) ∧ claims.Presentable) (fun _ _ => True)
            (payload.drop 5) := by
    unfold decodeClaims
    refine reads_takeId.step fun id rest first => ?_
    refine reads_takeU64.step fun generation rest second => ?_
    refine reads_takeU64.step fun issuedAt rest third => ?_
    refine reads_takeU64.step fun expiresAt rest fourth => ?_
    refine stopIf_step fun lasts => ?_
    have text {maximum : Nat} {next : String → Reader Claims} {bytes : List UInt8}
        {ends : Claims → List UInt8 → Prop} (goes : ∀ value rest, bytes = lengthed value ++ rest →
          ValidText value maximum → (next value).wp ends (fun _ _ => True) rest) :
        (takeText maximum >>= next).wp ends (fun _ _ => True) bytes := by
      rw [wp_bind]
      exact wp_mono (reads_takeText bytes) (fun value rest taken =>
        goes value rest taken.1 taken.2) fun _ _ _ => trivial
    refine text fun policyId rest fifth validPolicyId => text fun issuer rest sixth validIssuer =>
      text fun audience rest seventh validAudience => text fun subject rest last validSubject => ?_
    simp only [wp_bind, wp_get, wp_stopIf, wp_pure]
    refine ⟨fun _ => trivial, fun ended => ⟨?_, validPolicyId, validIssuer, validAudience,
      validSubject, ?_, fun blank => lasts (.inr blank)⟩⟩
    · rw [first, second, third, fourth, fifth, sixth, seventh, last, not_not.mp ended,
        List.append_nil]
    · exact UInt64.not_le.mp fun late => lasts (.inl late)
  obtain ⟨_, bytes, presentable⟩ := ended_of_wp reads read
  refine ⟨presentable, ?_⟩
  rw [front, bytes]
  unfold Claims.bytes Claims.head
  simp only [List.append_assoc]

end Semaprax.SessionTokens
