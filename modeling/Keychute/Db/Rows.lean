import Keychute.Types

/-!
# Rows of the store (`server/src/db`)

Row structures mirror the columns that the modelled functions read or write. `constraints` columns hold the
serialized `Constraints` record and are kept as the record; the enumerated text columns `state` and `kind` are
enumerations (their values are fixed by a `CHECK` and by `audit::kinds`).
-/

namespace Keychute.Db

abbrev Blob : Type := List UInt8

/-- A row of `clients`. -/
structure ClientRow where
  id : Uuid
  name : String
  maxTier : Int
  mechanisms : List String
  enabled : Bool
  mayStoreSecrets : Bool

/-- A row of `secrets`. -/
structure SecretRow where
  id : Uuid
  name : String
  description : String
  maxTier : Int
  injectionKind : String
  injectionHeader : Option String
  injectionUsername : Option String
  currentVersion : Int
  enabled : Bool
  operatorVetted : Bool
  managedByConfig : Bool
  createdAt : DateTime
  updatedAt : DateTime

/-- A sealed payload (`crypto::Sealed`). -/
structure Sealed where
  ciphertext : Blob
  nonce : Blob
  wrappedDek : Blob
  kekId : String
  deriving DecidableEq

/-- Seals a payload inside the writing transaction (`db::SealFn`), under the key with this id. -/
abbrev SealFn : Type := String → Option Sealed

/-- A row of `secret_versions`. -/
structure SecretVersionRow where
  id : Uuid
  secretId : Uuid
  version : Int
  sealed : Sealed
  createdAt : DateTime
  createdByRequest : Option Uuid
  deriving DecidableEq

/-- A row of `secret_tags`. -/
structure SecretTagRow where
  secretId : Uuid
  tag : String
  deriving DecidableEq

/-- A row of `policies`. -/
structure PolicyRow where
  id : Uuid
  clientName : Option String
  secretName : Option String
  secretTag : Option String
  mechanism : String
  outcome : String
  priority : Int
  origins : Json
  methods : List String
  pathPrefixes : List String
  maxTtlSeconds : Option Int
  maxUses : Option Int
  notAfter : Option DateTime
  createdBy : String
  createdAt : DateTime
  managedByConfig : Bool

/-- What a policy row is inserted from. -/
structure NewPolicy where
  clientName : Option String
  secretName : Option String
  secretTag : Option String
  mechanism : String
  outcome : String
  priority : Int
  origins : Json
  methods : List String
  pathPrefixes : List String
  maxTtlSeconds : Option Int
  maxUses : Option Int
  notAfter : Option DateTime
  createdBy : String

/-- The stored row of a new policy: the columns as given, `id` and `created_at` from the database. -/
def NewPolicy.row (p : NewPolicy) (id : Uuid) (createdAt : DateTime) (managedByConfig : Bool) : PolicyRow where
  id := id
  clientName := p.clientName
  secretName := p.secretName
  secretTag := p.secretTag
  mechanism := p.mechanism
  outcome := p.outcome
  priority := p.priority
  origins := p.origins
  methods := p.methods
  pathPrefixes := p.pathPrefixes
  maxTtlSeconds := p.maxTtlSeconds
  maxUses := p.maxUses
  notAfter := p.notAfter
  createdBy := p.createdBy
  createdAt := createdAt
  managedByConfig := managedByConfig

/-- A row of `access_requests`. -/
structure AccessRequestRow where
  id : Uuid
  clientName : String
  secretName : String
  mechanism : String
  constraints : Constraints
  contextCiphertext : Option Blob
  contextNonce : Option Blob
  contextWrappedDek : Option Blob
  contextKekId : Option String
  state : RequestState
  policyNotAfter : Option DateTime
  denyReason : Option String
  resolvedBy : Option String
  createdAt : DateTime
  resolvedAt : Option DateTime
  expiresAt : DateTime
  notifyOnly : Bool
  idemClient : String
  idemKey : String
  idemMac : Blob

/-- What an access request is inserted from. -/
structure NewAccessRequest where
  clientName : String
  secretName : String
  mechanism : String
  constraints : Constraints
  expiresAt : DateTime
  policyNotAfter : Option DateTime
  idemClient : String
  idemKey : String
  idemMac : Blob

/-- A row of `grants`. -/
structure GrantRow where
  id : Uuid
  requestId : Uuid
  clientName : String
  secretName : String
  mechanism : String
  constraints : Constraints
  notAfter : DateTime
  maxUses : Option Int
  useCount : Int
  revoked : Bool
  passthroughCiphertext : Option Blob
  passthroughNonce : Option Blob
  passthroughWrappedDek : Option Blob
  passthroughEphemeral : Bool
  createdAt : DateTime

/-- A payload entered at approval time, sealed under the process-local key. -/
structure PassthroughPayload where
  ciphertext : Blob
  nonce : Blob
  wrappedDek : Blob
  deriving DecidableEq

/-- Grant fields decided at approval time. `secretId` is the stored row the decision was made against. -/
structure GrantParams where
  clientName : String
  secretName : String
  secretId : Option Uuid
  mechanism : String
  constraints : Constraints
  notAfter : DateTime
  maxUses : Option Int
  passthrough : Option PassthroughPayload

/-- The policy outcome decided before an access request is inserted (`api_ext::InitialResolution`). -/
inductive InitialResolution where
  | pending
  | denied (reason resolvedBy : String)
  | approved (resolvedBy : String) (grant : GrantParams) (notifyOnly : Bool)

/-- A row of `grant_reads`. -/
structure GrantReadRow where
  grantId : Uuid
  idemKey : String
  secretVersionId : Option Uuid
  passthrough : Bool
  firstReadAt : DateTime
  deriving DecidableEq

/-- `audit::kinds`. -/
inductive AuditKind where
  | requestCreated | requestApproved | requestDenied | requestExpired | grantRevoked
  | releaseAttempt | releaseCompleted | proxyAttempt | proxyCompleted
  | secretCreated | secretRotated | secretUpdated | secretDeleted | secretVetted
  | policyCreated | policyDeleted
  deriving DecidableEq, Repr

/-- A row of `audit_log`; `status` is written by the completion rows only. -/
structure AuditRow where
  at_ : DateTime
  kind : AuditKind
  requestId : Option Uuid := none
  grantId : Option Uuid := none
  clientName : Option String := none
  secretName : Option String := none
  secretVersionId : Option Uuid := none
  actor : Option String := none
  method : Option String := none
  origin : Option String := none
  path : Option String := none
  status : Option Int := none
  detail : Option Json := none

end Keychute.Db
