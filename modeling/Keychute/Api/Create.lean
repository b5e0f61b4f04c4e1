import Mathlib.Data.List.Sort
import Keychute.Api.Requests
import Keychute.Crypto
import Keychute.Incarnation

/-!
# `POST /v1/access-requests` (`server/src/api/requests.rs`, `api/canonical.rs`)

* `canonicalRequestPayload` : what the idempotency MAC is over;
* `CreateCall` : one request to create, from the lookup of its key to its answer;
* `Creates`, `Creates.Step` : any number of them, between the transactions of the store.

The handler is three separate parts: the lookup, the evaluation, and the insert transaction, with whatever the others
do in between. What the evaluation reads of the database is any value of its type.
-/

namespace Keychute.Api
open Keychute.Lib
open Keychute.Db (Store StoreOp StoreWorld Reply DbError LockKey Blob AccessRequestRow SealFn)

/-! ## The canonical payload -/

/-- `serde_json`'s escapes. -/
def jsonEscape (c : Char) : List Char :=
  if c = '"' then ['\\', '"']
  else if c = '\\' then ['\\', '\\']
  else if c.toNat = 8 then ['\\', 'b']
  else if c.toNat = 9 then ['\\', 't']
  else if c.toNat = 10 then ['\\', 'n']
  else if c.toNat = 12 then ['\\', 'f']
  else if c.toNat = 13 then ['\\', 'r']
  else if c.toNat < 32 then ['\\', 'u', '0', '0', Nat.digitChar (c.toNat / 16), Nat.digitChar (c.toNat % 16)]
  else [c]

/-- `serde_json::to_string` of a text. -/
def jsonString (s : String) : String := "\"" ++ String.ofList (s.toList.flatMap jsonEscape) ++ "\""

/-- The fields of an object, in the byte order of their keys. -/
def sortFields (fields : List (String × String)) : List (String × String) :=
  fields.insertionSort fun a b => a.1 ≤ b.1

mutual

/-- Object keys sorted, no whitespace; `floatText` is how `serde_json` prints a float. -/
def canonicalJson (floatText : UInt64 → String) : Json → String
  | .null => "null"
  | .bool b => if b then "true" else "false"
  | .int n => toString n
  | .float bits => floatText bits
  | .str s => jsonString s
  | .arr items => "[" ++ String.intercalate "," (canonicalItems floatText items) ++ "]"
  | .obj fields =>
    "\x7b" ++ String.intercalate "," ((sortFields (canonicalFields floatText fields)).map fun f =>
      jsonString f.1 ++ ":" ++ f.2) ++ "\x7d"

def canonicalItems (floatText : UInt64 → String) : List Json → List String
  | [] => []
  | item :: items => canonicalJson floatText item :: canonicalItems floatText items

def canonicalFields (floatText : UInt64 → String) : List (String × Json) → List (String × String)
  | [] => []
  | (key, value) :: fields => (key, canonicalJson floatText value) :: canonicalFields floatText fields

end

/-- `serde_json::to_value(&constraints)`. -/
def constraintsToJson (c : Constraints) : Json :=
  .obj ([("origins", Origin.listToJson c.origins), ("methods", .arr (c.methods.map .str)),
    ("path_prefixes", .arr (c.pathPrefixes.map .str)), ("ttl_seconds", .int c.ttlSeconds)] ++
    match c.maxUses with
    | some n => [("max_uses", .int n)]
    | none => [])

/-- The body less `idempotency_key` and less `context.structured`. -/
def canonicalRequestPayload (floatText : UInt64 → String) (req : CreateAccessRequest) : Blob :=
  (canonicalJson floatText (.obj [("secret_name", .str req.secretName), ("mechanism", .str req.mechanism.asStr),
    ("constraints", constraintsToJson req.constraints),
    ("context", .obj [("reason", .str req.context.reason)])])).toUTF8.toList

/-! ## Answers -/

structure AccessRequestStatus where
  requestId : Uuid
  state : RequestState
  grantId : Option Uuid
  denyReason : Option String
  expiresAt : DateTime
  grantedSecretName : Option String
  autoApproved : Bool

/-- `get_request_by_idem`. -/
def getRequestByIdem (s : Store) (idemClient idemKey : String) : Option AccessRequestRow :=
  s.requests.rows.find? fun r => r.idemClient == idemClient && r.idemKey == idemKey

/-- The status of a row; its grant is read for an approved one. -/
def statusFromRow (s : Store) (row : AccessRequestRow) : AccessRequestStatus :=
  let grant := if row.state = .approved then s.grants.rows.find? (·.requestId == row.id) else none
  { requestId := row.id
    state := row.state
    grantId := grant.map (·.id)
    denyReason := row.denyReason
    expiresAt := row.expiresAt
    grantedSecretName := grant.map (·.secretName)
    autoApproved := row.state == .approved && row.resolvedBy == some "policy:auto" }

/-- The answer to a creation, once its row is committed. -/
def answerCreated (plan : CreatePlan) (row : AccessRequestRow) (grantId : Option Uuid) :
    Except ApiFailure AccessRequestStatus :=
  match plan.decision with
  | .deny reason => .error (.policyDenied reason)
  | .autoApprove | .notifyOnly =>
    match grantId with
    | none => .error (.internal "approved request created without a grant")
    | some grantId =>
      .ok {
        requestId := row.id
        state := .approved
        grantId := some grantId
        denyReason := none
        expiresAt := row.expiresAt
        grantedSecretName := plan.resolution.grant.map (·.secretName)
        autoApproved := true }
  | .requireApproval =>
    .ok {
      requestId := row.id
      state := .pending
      grantId := none
      denyReason := none
      expiresAt := row.expiresAt
      grantedSecretName := none
      autoApproved := false }

/-! ## One call -/

/-- What the handlers run with: the settings, the URL library, the MAC key of the keyset and how floats are printed. -/
structure CreateEnv where
  url : UrlHost
  limits : Limits
  hmac : Crypto.Hmac
  floatText : UInt64 → String

inductive CreatePhase where
  /-- Authenticated, the key checked, the MAC computed. -/
  | lookup
  /-- No row for the key was found. -/
  | evaluate
  /-- The insert transaction is under way. -/
  | insert (plan : CreatePlan)
  /-- The insert met a row of the same key and was rolled back. -/
  | conflict
  /-- The row is this request's; its status is read. -/
  | status (row : AccessRequestRow)
  | done (answer : Except ApiFailure AccessRequestStatus)

/-- A request to create, with what its lookup found and the transaction it was inserted by. -/
structure CreateCall where
  client : Db.ClientRow
  req : CreateAccessRequest
  found : Option AccessRequestRow
  op : Option StoreOp
  phase : CreatePhase

namespace CreateCall

def mac (env : CreateEnv) (c : CreateCall) : Blob :=
  Crypto.idemMac env.hmac c.client.name (canonicalRequestPayload env.floatText c.req)

/-- A row of the same key: this request's own if the MAC is the same. -/
def settle (env : CreateEnv) (c : CreateCall) (row : AccessRequestRow) : CreatePhase :=
  if row.idemMac = c.mac env then .status row else .done (.error .idempotencyKeyReuse)

/-- The short-circuit, before any validation. -/
def lookup (env : CreateEnv) (s : Store) (c : CreateCall) : CreateCall :=
  match getRequestByIdem s c.client.name c.req.idempotencyKey with
  | some row => { c with found := some row, phase := c.settle env row }
  | none => { c with phase := .evaluate }

/-- The context is sealed when there is one. -/
def sealContext (c : CreateCall) (sealWith : SealFn) : Option SealFn :=
  if byteLen c.req.context.reason = 0 && c.req.context.structured.isNone then none else some sealWith

/-- The insert of a plan. -/
def insertOp (c : CreateCall) (plan : CreatePlan) (id grantId : Uuid) (sealWith : SealFn) : StoreOp :=
  .insertAccessRequestWithId id plan.newRow plan.pendingCap plan.resolution (c.sealContext sealWith) grantId

/-- The insert transaction ended without a commit. -/
def rolledBack (c : CreateCall) (r : Except DbError Reply) : CreateCall :=
  match r with
  | .ok (.insert (.existing _)) => { c with phase := .conflict }
  | .ok (.insert .pendingCapExceeded) => { c with phase := .done (.error .tooManyPending) }
  | _ => { c with phase := .done (.error (.internal "insert")) }

/-- The row of the conflict, read after the rollback. -/
def conflict (env : CreateEnv) (s : Store) (c : CreateCall) : CreateCall :=
  match getRequestByIdem s c.client.name c.req.idempotencyKey with
  | some row => { c with phase := c.settle env row }
  | none =>
    { c with phase := .done (.error (.internal ("idempotency conflict row vanished for " ++ c.client.name))) }

/-- The insert transaction was committed. -/
def committed (c : CreateCall) (plan : CreatePlan) (r : Reply) : CreateCall :=
  match r with
  | .insert (.created row grantId) => { c with phase := .done (answerCreated plan row grantId) }
  | _ => { c with phase := .done (.error (.internal "insert")) }

end CreateCall

/-! ## Any number of them -/

/-- The store with its transactions in flight, and the calls. -/
structure Creates where
  world : StoreWorld
  calls : List CreateCall

/-- One step of one of them, or of the store. -/
inductive Creates.Step (env : CreateEnv) : Creates → Creates → Prop where
  | store (w w' : StoreWorld) (calls : List CreateCall)
      (hs : World.Step (StoreOp.txn env.limits.replayWindowSeconds) w w')
      (hops : ∀ th ∈ w'.threads, th.op.attempts = true) : Step env ⟨w, calls⟩ ⟨w', calls⟩
  | receive (w : StoreWorld) (calls : List CreateCall) (client : Db.ClientRow) (req : CreateAccessRequest)
      (hkey : validateIdempotencyKey req = .ok ()) : Step env ⟨w, calls⟩ ⟨w, ⟨client, req, none, none, .lookup⟩ :: calls⟩
  | lookup (w : StoreWorld) (pre post : List CreateCall) (c : CreateCall) (hc : c.phase = .lookup) :
      Step env ⟨w, pre ++ c :: post⟩ ⟨w, pre ++ c.lookup env w.store :: post⟩
  | refuse (w : StoreWorld) (pre post : List CreateCall) (c : CreateCall) (secret : Option Db.SecretRow)
      (secretTags : List String) (policies : List Db.PolicyRow) (now : DateTime) (e : ApiFailure)
      (hc : c.phase = .evaluate)
      (hplan : planCreate env.url env.limits c.client secret secretTags policies now c.req (c.mac env) = .error e) :
      Step env ⟨w, pre ++ c :: post⟩ ⟨w, pre ++ { c with phase := .done (.error e) } :: post⟩
  | evaluate (w : StoreWorld) (pre post : List CreateCall) (c : CreateCall) (secret : Option Db.SecretRow)
      (secretTags : List String) (policies : List Db.PolicyRow) (now : DateTime) (plan : CreatePlan) (id grantId : Uuid)
      (sealWith : SealFn) (op : StoreOp) (hc : c.phase = .evaluate)
      (hplan : planCreate env.url env.limits c.client secret secretTags policies now c.req (c.mac env) = .ok plan)
      (hop : op = c.insertOp plan id grantId sealWith) :
      Step env ⟨w, pre ++ c :: post⟩
        ⟨{ w with threads := ⟨op, w.clock, op.txn env.limits.replayWindowSeconds w.clock, fun s => s, []⟩ :: w.threads },
          pre ++ { c with op := some op, phase := .insert plan } :: post⟩
  | commit (w : StoreWorld) (pre post : List CreateCall) (c : CreateCall) (plan : CreatePlan) (op : StoreOp)
      (ths ths' : List (Thread Store LockKey (Except DbError Reply) Reply DateTime StoreOp)) (t : DateTime) (r : Reply)
      (d : Store → Store) (h : Held LockKey) (hc : c.phase = .insert plan) (hop : c.op = some op)
      (hth : w.threads = ths ++ ⟨op, t, .pure r, d, h⟩ :: ths') :
      Step env ⟨w, pre ++ c :: post⟩
        ⟨{ w with store := d w.store, log := w.log ++ [(op, r)], threads := ths ++ ths' },
          pre ++ c.committed plan r :: post⟩
  | rollback (w : StoreWorld) (pre post : List CreateCall) (c : CreateCall) (plan : CreatePlan) (op : StoreOp)
      (ths ths' : List (Thread Store LockKey (Except DbError Reply) Reply DateTime StoreOp)) (t : DateTime)
      (r : Except DbError Reply) (d : Store → Store) (h : Held LockKey) (hc : c.phase = .insert plan)
      (hop : c.op = some op) (hth : w.threads = ths ++ ⟨op, t, .abort r, d, h⟩ :: ths') :
      Step env ⟨w, pre ++ c :: post⟩ ⟨{ w with threads := ths ++ ths' }, pre ++ c.rolledBack r :: post⟩
  /-- The connection is lost; the transaction is left to the store's own steps, which may still commit it. -/
  | lost (w : StoreWorld) (pre post : List CreateCall) (c : CreateCall) (plan : CreatePlan) (message : String)
      (hc : c.phase = .insert plan) :
      Step env ⟨w, pre ++ c :: post⟩ ⟨w, pre ++ { c with phase := .done (.error (.internal message)) } :: post⟩
  | conflict (w : StoreWorld) (pre post : List CreateCall) (c : CreateCall) (hc : c.phase = .conflict) :
      Step env ⟨w, pre ++ c :: post⟩ ⟨w, pre ++ c.conflict env w.store :: post⟩
  | status (w : StoreWorld) (pre post : List CreateCall) (c : CreateCall) (row : AccessRequestRow)
      (hc : c.phase = .status row) :
      Step env ⟨w, pre ++ c :: post⟩ ⟨w, pre ++ { c with phase := .done (.ok (statusFromRow w.store row)) } :: post⟩

/-- A database after its migrations, and nothing under way. -/
def Creates.init (c₀ : DateTime) : Creates := ⟨⟨.empty, c₀, [], []⟩, []⟩

/-- One moment and a later one. -/
abbrev Creates.Steps (env : CreateEnv) : Creates → Creates → Prop := Relation.ReflTransGen (Creates.Step env)

end Keychute.Api
