import Keychute.Api.Secrets
import Keychute.Db.Ops

/-!
# Grant reads (`server/src/api/grants.rs`)

* `ReadCall.next`, `release` : `read`, from one statement of the database to the next. The completion row of the audit
  log is written by a detached task, and is left out;
* `ReadServer.step` : any number of reads, and the other calls of the store beside them; a restart draws a new key for
  passthrough payloads.
-/

namespace Keychute.Api
open Keychute.Db Keychute.Lib Keychute.Crypto

/-- What every process of the server runs with: the cipher, the key file, and the settings of the store. -/
structure ReadEnv where
  aead : Aead
  keyset : Crypto.Keyset
  replayWindowSeconds : Int

/-- Where the bytes come from, resolved before the use is accounted. -/
inductive Source where
  | passthrough
  /-- Was a passthrough grant, but the payload is gone. -/
  | passthroughGone
  | stored (version : SecretVersionRow)

inductive ReadPhase where
  | arrived
  /-- The grant was found to be the caller's. -/
  | owned (grant : GrantRow)
  /-- Revalidation has read the client, in this state. -/
  | clientRead (grant : GrantRow) (clients : Store)
  | revalidated (grant : GrantRow) (secret : Option Db.SecretRow)
  /-- Neither revoked nor expired. -/
  | alive (grant : GrantRow) (secret : Option Db.SecretRow)
  | resolved (grant : GrantRow) (source : Source) (versionId : Uuid)
  | used (source : Source) (versionId : Uuid) (outcome : GrantUse)
  | done (answer : Except ApiFailure ReadGrantResponse)

/-- A read of an authenticated client. -/
structure ReadCall where
  client : String
  grantId : Uuid
  idemKey : String
  phase : ReadPhase

/-- Decrypt a grant's passthrough payload; any failure is `payload-lost`. -/
def openPassthrough (env : ReadEnv) (ephemeralKek : KeyMaterial) (grant : GrantRow) : Except ApiFailure Blob :=
  match grant.passthroughCiphertext, grant.passthroughNonce, grant.passthroughWrappedDek with
  | some ct, some nonce, some dek =>
    if !grant.passthroughEphemeral then .error .payloadLost
    else (openWithKek env.aead ephemeralKek ct nonce dek (.grantPassthrough grant.id)).mapError fun _ => .payloadLost
  | _, _, _ => .error .payloadLost

def getSecretVersionById (s : Store) (id : Uuid) : Option SecretVersionRow := s.versions.rows.find? (·.id == id)

/-- What a use releases. -/
def release (env : ReadEnv) (ephemeralKek : KeyMaterial) (s : Store) (source : Source) (versionId : Uuid) :
    GrantUse → Except ApiFailure ReadGrantResponse
  | .notFound => .error .notFound
  | .expiredOrRevoked => .error .grantExpired
  | .exhausted => .error .grantExhausted
  | .firstUse grant =>
    match source with
    | .passthrough => return readResponse (← openPassthrough env ephemeralKek grant) versionId
    | .passthroughGone => .error .payloadLost
    | .stored version => return readResponse (← openSecretVersion env.aead env.keyset version) versionId
  | .replay grant secretVersionId passthrough =>
    if passthrough then return readResponse (← openPassthrough env ephemeralKek grant) grant.id
    else do
      let pinned ← okOr secretVersionId .payloadLost
      let version ← okOr (getSecretVersionById s pinned) .payloadLost
      return readResponse (← openSecretVersion env.aead env.keyset version) pinned

/-- The payload source. A payload that is gone is no early return: the accounting has to establish exhaustion first. -/
def resolveSource (s : Store) (grant : GrantRow) (secret : Option Db.SecretRow) : Except ApiFailure (Source × Uuid) :=
  if grant.passthroughCiphertext.isSome then .ok (.passthrough, grant.id)
  else if grant.passthroughEphemeral then .ok (.passthroughGone, grant.id)
  else do
    let secret ← okOr secret .payloadLost
    let version ← okOr (getSecretVersion s secret.id secret.currentVersion) .payloadLost
    return (.stored version, version.id)

/-- `?` of the handler. -/
def ReadPhase.orDone : Except ApiFailure ReadPhase → ReadPhase
  | .ok p => p
  | .error e => .done (.error e)

/-- The answer of the store to a use. -/
def ReadPhase.afterUse (source : Source) (versionId : Uuid) : Except DbError Reply → ReadPhase
  | .ok (.grantUse outcome) => .used source versionId outcome
  | _ => .done (.error (.internal "begin_grant_use"))

/-- The next statement that only reads the database. -/
def ReadCall.next (env : ReadEnv) (ephemeralKek : KeyMaterial) (now : DateTime) (s : Store) (c : ReadCall) : ReadPhase :=
  match c.phase with
  | .arrived => .orDone do
    validateReadKey c.idemKey
    let grant ← ownedGrant s c.client c.grantId
    let mechanism ← okOr (Mechanism.fromStrOpt grant.mechanism) .revalidationFailed
    refuseIf (!mechanism.isReleasing) .wrongMechanism
    return .owned grant
  | .owned grant => .clientRead grant s
  | .clientRead grant clients => .orDone do
    let secret ← revalidateGrant clients s grant
    return .revalidated grant secret
  | .revalidated grant secret =>
    -- `SELECT revoked OR now() >= not_after`, and dead where there is no row
    if ((s.findGrant grant.id).map fun g => g.revoked || decide (g.notAfter ≤ now)).getD true then
      .done (.error .grantExpired)
    else .alive grant secret
  | .alive grant secret => .orDone do
    let (source, versionId) ← resolveSource s grant secret
    return .resolved grant source versionId
  | .resolved grant source versionId => .resolved grant source versionId
  | .used source versionId outcome => .done (release env ephemeralKek s source versionId outcome)
  | .done answer => .done answer

/-- A use that a read made: under which key, of what, and what the store answered. -/
structure ReadUse where
  grantId : Uuid
  key : String
  source : Source
  versionId : Uuid
  outcome : Except DbError Reply

/-- The call that accounts the use. -/
def ReadCall.useOp (c : ReadCall) (grant : GrantRow) (versionId : Uuid) : StoreOp :=
  .beginGrantUse grant.id (some c.idemKey) (some versionId) .releaseAttempt none

/-- The database, and the process that serves it: its reads, and the key that it drew at its start. -/
structure ReadServer where
  store : Store
  calls : List ReadCall
  ephemeralKek : KeyMaterial

inductive ReadAction where
  /-- Another call of the store. -/
  | store (op : StoreOp)
  | receive (client : String) (grantId : Uuid) (idemKey : String)
  /-- The next statement of one of the reads. -/
  | advance (i : Nat)
  /-- The reads under way are lost with the key; startup reconciles the clients and draws another. -/
  | restart (clients : Table clientKeys) (ephemeralKek : KeyMaterial)

/-- A use under a key, which only a read makes. -/
def isKeyedUse : StoreOp → Bool
  | .beginGrantUse _ idemKey _ _ _ => idemKey.isSome
  | _ => false

namespace ReadServer

/-- The use of a read is one transaction; every other statement leaves the database as it is. -/
def advance (env : ReadEnv) (now : DateTime) (w : ReadServer) (i : Nat) (c : ReadCall) : ReadServer × Option ReadUse :=
  match c.phase with
  | .resolved grant source versionId =>
    let r := (c.useOp grant versionId).step env.replayWindowSeconds now w.store
    ({ w with store := r.1, calls := w.calls.set i { c with phase := .afterUse source versionId r.2 } },
      some ⟨grant.id, c.idemKey, source, versionId, r.2⟩)
  | _ => ({ w with calls := w.calls.set i { c with phase := c.next env w.ephemeralKek now w.store } }, none)

def step (env : ReadEnv) (a : ReadAction) (now : DateTime) (w : ReadServer) : ReadServer × Option ReadUse :=
  match a with
  | .store op =>
    if isKeyedUse op then (w, none) else ({ w with store := (op.step env.replayWindowSeconds now w.store).1 }, none)
  | .receive client grantId idemKey => ({ w with calls := ⟨client, grantId, idemKey, .arrived⟩ :: w.calls }, none)
  | .advance i =>
    match w.calls[i]? with
    | none => (w, none)
    | some c => w.advance env now i c
  | .restart clients ephemeralKek => (⟨{ w.store with clients := clients }, [], ephemeralKek⟩, none)

/-- A database after its migrations, and nothing under way. -/
def init (ephemeralKek : KeyMaterial) : ReadServer := ⟨.empty, [], ephemeralKek⟩

end ReadServer

end Keychute.Api
