import Keychute.Api.Grants
import Keychute.Crypto
import Keychute.Db.Secrets
import Keychute.Sigv4

/-!
# Deposits and reads of stored bytes (`server/src/api/secrets.rs`, `api/grants.rs`, `injection.rs`)

* `validateInjection` : the template that an operator or a depositor supplies;
* `decodeValue`, `storeInner` : a deposit up to its transaction, with the closure that seals the bytes;
* `openSecretVersion`, `readResponse` : the bytes of a version, as a grant read returns them.
-/

namespace Keychute.Api
open Keychute.Db Keychute.Http Keychute.Crypto

inductive SecretEncoding where
  | utf8 | base64
  deriving DecidableEq

/-- `std::str::from_utf8`, and base64 where it fails: how both ends put bytes into a JSON string. -/
def encodeSecret (bs : Blob) : String × SecretEncoding :=
  match fromUtf8 bs with
  | some s => (s, .utf8)
  | none => (String.ofList (base64Encode bs), .base64)

/-- The bytes of such a string. -/
def decodeSecret (value : String) : SecretEncoding → Option Blob
  | .utf8 => some (bytes value)
  | .base64 => base64Decode value.toList

theorem decodeSecret_encodeSecret (bs : Blob) : decodeSecret (encodeSecret bs).1 (encodeSecret bs).2 = some bs := by
  unfold encodeSecret
  cases h : fromUtf8 bs with
  | none => simpa [decodeSecret] using base64Decode_encode bs
  | some s => exact congrArg some (fromUtf8_eq_some.1 h)

/-- An encoding takes four bytes for every three, or none more. -/
theorem byteLen_encodeSecret_le (bs : Blob) : byteLen (encodeSecret bs).1 ≤ 4 * ((bs.length + 2) / 3) := by
  unfold encodeSecret
  cases h : fromUtf8 bs with
  | none => exact Nat.le_of_eq (byteLen_base64Encode bs)
  | some s =>
      have hlen : byteLen s = bs.length := congrArg List.length (fromUtf8_eq_some.1 h)
      change byteLen s ≤ _
      omega

theorem byteLen_encodeSecret_pos {bs : Blob} (h : bs ≠ []) : 0 < byteLen (encodeSecret bs).1 := by
  have hpos := List.length_pos_iff.2 h
  unfold encodeSecret
  cases hs : fromUtf8 bs with
  | none =>
      change 0 < byteLen (String.ofList (base64Encode bs))
      rw [byteLen_base64Encode]
      omega
  | some s =>
      have hlen : byteLen s = bs.length := congrArg List.length (fromUtf8_eq_some.1 hs)
      change 0 < byteLen s
      omega

/-! ## Injection templates -/

/-- Headers the injection template may never target. -/
def reserved : List String :=
  ["host", "authorization", "proxy-authorization", "cookie", "set-cookie", "forwarded", "x-real-ip",
    "x-http-method-override", "x-method-override", "x-original-url", "x-rewrite-url", "x-original-method",
    "connection", "keep-alive", "proxy-connection", "te", "trailer", "transfer-encoding", "upgrade", "content-length",
    "expect"]

def maxInjectionFieldBytes : Nat := 128

/-- The kind, the header column and the username column of a template. -/
def validateInjection (kind : String) (header scope : Option String) :
    Except String (String × Option String × Option String) :=
  if scope.isSome && kind != "aws-sigv4" then
    .error "a SigV4 scope is only valid for injection kind 'aws-sigv4'"
  else
    match kind with
    | "bearer" => .ok ("bearer", none, none)
    | "header" =>
      match header with
      | none => .error "injection kind 'header' requires a header name"
      | some name =>
        if byteLen name > maxInjectionFieldBytes then .error "injection header name is too long"
        else if (bytes name).isEmpty || !(bytes name).all isTchar then
          .error "injection header is not a valid header name"
        else if reserved.contains (toAsciiLowercase name) ||
            "x-forwarded-".toList.isPrefixOf (toAsciiLowercase name).toList then
          .error "injection header is reserved"
        else .ok ("header", some name, none)
    | "basic" | "basic-password" =>
      match header with
      | none => .error "injection kind 'basic-password' requires a username"
      | some username =>
        if byteLen username > maxInjectionFieldBytes then .error "basic-auth username is too long"
        else if username.toList.contains ':' || username.toList.any isControl then
          .error "invalid basic-auth username"
        else .ok ("basic", none, some username)
    | "aws-sigv4" => do
      match header with
      | none => .error "injection kind 'aws-sigv4' requires an access key id"
      | some accessKeyId =>
        Sigv4.validateAccessKeyId accessKeyId
        match scope with
        | none => .error "injection kind 'aws-sigv4' requires a region/service scope"
        | some scope =>
          let _ ← Sigv4.parseScope scope
          return ("aws-sigv4", some scope, some accessKeyId)
    | _ => .error "unknown injection kind"

/-! ## Deposits -/

def maxNameBytes : Nat := 128
def maxDescriptionBytes : Nat := 1024
def maxValueBytes : Nat := 64 * 1024
def maxEncodedValueBytes : Nat := 4 * maxValueBytes / 3 + 4096

structure StoreSecretRequest where
  name : String
  value : String
  encoding : SecretEncoding
  description : String
  maxTier : Option Tier
  injectionKind : Option String
  injectionHeader : Option String
  deriving DecidableEq

/-- A deposited name must be a plain identifier. -/
def validateName (name : String) : Except ApiFailure Unit :=
  if (bytes name).isEmpty then .error (.invalidRequest "name is required")
  else if byteLen name > maxNameBytes then .error (.requestTooLarge "name too long")
  else if !((bytes name).all fun b => Sigv4.isAlphanumeric b || b == 45 || b == 95 || b == 46) ||
      name.toList.head? == some '.' then
    .error (.invalidRequest "name must be ASCII letters, digits, '-', '_' or '.'")
  else .ok ()

/-- The value field of a deposit, decoded between its two size checks. -/
def decodeValue (value : String) (encoding : SecretEncoding) : Except ApiFailure Blob := do
  refuseIf (bytes value).isEmpty (.invalidRequest "value is required")
  refuseIf (decide (byteLen value > maxEncodedValueBytes)) (.requestTooLarge "value too large")
  let plaintext ← okOr (decodeSecret value encoding) (.invalidRequest "value is not valid base64")
  refuseIf (decide (plaintext.length > maxValueBytes)) (.requestTooLarge "value too large")
  refuseIf plaintext.isEmpty (.invalidRequest "value is required")
  return plaintext

/-- The deposit handler up to its transaction. `sealBytes` is `Keyset::seal` as it will be called there. -/
def storeInner (sealBytes : Blob → AadContext → SealFn) (mayStoreSecrets : Bool) (secretId : Uuid)
    (req : StoreSecretRequest) : Except ApiFailure StoreSecretParams := do
  refuseIf (!mayStoreSecrets) (.policyDenied "client is not permitted to store secrets")
  let name := trim req.name
  validateName name
  refuseIf (decide (byteLen req.description > maxDescriptionBytes)) (.requestTooLarge "description too long")
  let value ← decodeValue req.value req.encoding
  let template ← (validateInjection (req.injectionKind.getD "bearer")
    (req.injectionHeader.filter fun h => !(bytes h).isEmpty) none).mapError .invalidRequest
  return {
    secretId, name
    description := trim req.description
    maxTier := (req.maxTier.getD .brokered).asInt
    injectionKind := template.1
    injectionHeader := template.2.1
    injectionUsername := template.2.2
    sealWith := sealBytes value (.secretVersion secretId 1) }

/-- What a deposit is checked for besides its value. -/
structure StoreSecretRequest.RestValid (mayStoreSecrets : Bool) (req : StoreSecretRequest) : Prop where
  permitted : mayStoreSecrets = true
  name : validateName (trim req.name) = .ok ()
  description : byteLen req.description ≤ maxDescriptionBytes
  injection : ∃ template, validateInjection (req.injectionKind.getD "bearer")
    (req.injectionHeader.filter fun h => !(bytes h).isEmpty) none = .ok template

/-- A deposit that is otherwise valid goes to its transaction, to seal what its value decodes to. -/
theorem storeInner_ok {sealBytes : Blob → AadContext → SealFn} {mayStoreSecrets : Bool} {secretId : Uuid}
    {req : StoreSecretRequest} {value : Blob} (hrest : req.RestValid mayStoreSecrets)
    (hval : decodeValue req.value req.encoding = .ok value) :
    ∃ p, storeInner sealBytes mayStoreSecrets secretId req = .ok p ∧
      p.sealWith = sealBytes value (.secretVersion secretId 1) := by
  obtain ⟨template, htemplate⟩ := hrest.injection
  have hmay : (!mayStoreSecrets) = false := by rw [hrest.permitted]; rfl
  have hdesc : decide (byteLen req.description > maxDescriptionBytes) = false := by
    simpa using hrest.description
  refine ⟨_, bind_eq_ok.2 ⟨(), refuseIf_eq_ok.2 hmay, bind_eq_ok.2 ⟨(), hrest.name, bind_eq_ok.2 ⟨(),
    refuseIf_eq_ok.2 hdesc, bind_eq_ok.2 ⟨value, hval, bind_eq_ok.2 ⟨template, ?_, rfl⟩⟩⟩⟩⟩, rfl⟩
  rw [htemplate]
  rfl

/-- What an encoder of at most 64 KiB sends passes both size checks, and decodes to what was encoded. -/
theorem decodeValue_encodeSecret {bs : Blob} (hne : bs ≠ []) (hlen : bs.length ≤ maxValueBytes) :
    decodeValue (encodeSecret bs).1 (encodeSecret bs).2 = .ok bs := by
  have hpos := byteLen_encodeSecret_pos hne
  have hle := byteLen_encodeSecret_le bs
  have hbytes : (bytes (encodeSecret bs).1).isEmpty = false := by
    rw [List.isEmpty_eq_false_iff, ← List.length_pos_iff]
    exact hpos
  have henc : ¬ byteLen (encodeSecret bs).1 > maxEncodedValueBytes := by
    unfold maxEncodedValueBytes maxValueBytes at *
    omega
  refine bind_eq_ok.2 ⟨(), refuseIf_eq_ok.2 hbytes, bind_eq_ok.2 ⟨(), refuseIf_eq_ok.2 (by simpa using henc), ?_⟩⟩
  refine bind_eq_ok.2 ⟨bs, okOr_eq_ok.2 (decodeSecret_encodeSecret bs), ?_⟩
  refine bind_eq_ok.2 ⟨(), refuseIf_eq_ok.2 (by simpa using hlen), bind_eq_ok.2 ⟨(), refuseIf_eq_ok.2 ?_, rfl⟩⟩
  simpa using hne

/-! ## Reads -/

/-- `open_secret_version`. -/
def openSecretVersion (A : Aead) (keyset : Crypto.Keyset) (row : SecretVersionRow) : Except ApiFailure Blob :=
  (keyset.openSealed A row.sealed.ciphertext row.sealed.nonce row.sealed.wrappedDek row.sealed.kekId
    (.secretVersion row.secretId row.version)).mapError fun _ => .internal "decryption failed"

structure ReadGrantResponse where
  secret : String
  encoding : SecretEncoding
  secretVersionId : Uuid

/-- The response body of a grant read that releases these bytes. -/
def readResponse (plaintext : Blob) (releasedVersionId : Uuid) : ReadGrantResponse where
  secret := (encodeSecret plaintext).1
  encoding := (encodeSecret plaintext).2
  secretVersionId := releasedVersionId

end Keychute.Api
