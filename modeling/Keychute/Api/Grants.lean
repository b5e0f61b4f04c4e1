import Keychute.Api.Requests
import Keychute.Db.Grants

/-!
# Lookups of the grant routes (`server/src/api/mod.rs`)

* `okOr`, `refuseIf` : the two ways a handler gives up, with `bind_eq_ok` to take a run of them apart;
* `validateReadKey` : the key of a grant read;
* `ownedGrant` : the grant of a route, when it is the caller's;
* `revalidateGrant` : the checks that are made again each time a grant is exercised. The client and the secret are
  read by two statements, so from two states of the store.
-/

namespace Keychute.Api
open Keychute.Db

/-- `Option::ok_or`, and `?`. -/
def okOr {α : Type} (o : Option α) (e : ApiFailure) : Except ApiFailure α :=
  match o with
  | some a => .ok a
  | none => .error e

/-- `if c { return Err(e) }`. -/
def refuseIf (c : Bool) (e : ApiFailure) : Except ApiFailure Unit := if c then .error e else .ok ()

theorem okOr_eq_ok {α : Type} {o : Option α} {e : ApiFailure} {a : α} : okOr o e = .ok a ↔ o = some a := by
  cases o <;> simp [okOr]

theorem refuseIf_eq_ok {c : Bool} {e : ApiFailure} {u : Unit} : refuseIf c e = .ok u ↔ c = false := by
  cases c <;> simp [refuseIf]

/-- The key of a grant read: 160 bytes leave room over the request's cap for what clients put before it. -/
def validateReadKey (key : String) : Except ApiFailure Unit := do
  refuseIf (bytes key).isEmpty (.invalidRequest "idempotency_key is required")
  refuseIf (decide (byteLen key > 160)) (.requestTooLarge "idempotency_key too long")

def getClientByName (s : Store) (name : String) : Option Db.ClientRow := s.clients.rows.find? (·.name == name)

def getSecretByName (s : Store) (name : String) : Option Db.SecretRow := s.secrets.rows.find? (·.name == name)

def getSecretVersion (s : Store) (secretId : Uuid) (version : Int) : Option SecretVersionRow :=
  s.versions.rows.find? fun v => v.secretId == secretId && v.version == version

/-- The grant, if the client owns it; another client's looks absent. -/
def ownedGrant (s : Store) (client : String) (id : Uuid) : Except ApiFailure GrantRow := do
  let grant ← okOr (s.findGrant id) .notFound
  refuseIf (grant.clientName != client) .notFound
  return grant

/-- Access-time revalidation: the client, its mechanisms and cap, and those of the secret when its row exists. -/
def revalidateGrant (clients secrets : Store) (grant : GrantRow) : Except ApiFailure (Option Db.SecretRow) := do
  let client ← okOr (getClientByName clients grant.clientName) .revalidationFailed
  refuseIf (!client.enabled) .revalidationFailed
  let mechanism ← okOr (Mechanism.fromStrOpt grant.mechanism) .revalidationFailed
  refuseIf (!client.mechanisms.any (· == grant.mechanism)) .revalidationFailed
  let clientMax ← okOr (Tier.fromInt client.maxTier) .revalidationFailed
  refuseIf (decide (mechanism.tier > clientMax)) .revalidationFailed
  match getSecretByName secrets grant.secretName with
  | none => return none
  | some secret =>
    refuseIf (!secret.enabled) .revalidationFailed
    let secretMax ← okOr (Tier.fromInt secret.maxTier) .revalidationFailed
    refuseIf (decide (mechanism.tier > secretMax)) .revalidationFailed
    return some secret

end Keychute.Api
