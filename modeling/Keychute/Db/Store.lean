import Keychute.Db.Rows
import Keychute.Lib.Statements

/-!
# The database

* `Store` : the tables of the schema, each with its unique keys, the audit log, and the id of the key that seals;
* `LockKey` : the advisory locks, the locks of rows and of unique keys;
* `Tx` : a transaction of the store layer. `rollback r` is an early `return Ok(r)` or an explicit rollback, `fail e`
  an error; the state is left as it was by both.
-/

namespace Keychute.Db
open Keychute.Lib

/-! ## Tables -/

abbrev clientKeys : Keys ClientRow := .pair (·.id) (·.name)
abbrev secretKeys : Keys SecretRow := .pair (·.id) (·.name)
abbrev versionKeys : Keys SecretVersionRow := .pair (·.id) (fun v => (v.secretId, v.version))
abbrev tagKeys : Keys SecretTagRow := .single fun t => (t.secretId, t.tag)
abbrev policyKeys : Keys PolicyRow := .single (·.id)
abbrev requestKeys : Keys AccessRequestRow := .pair (·.id) (fun r => (r.idemClient, r.idemKey))
abbrev grantKeys : Keys GrantRow := .pair (·.id) (·.requestId)
abbrev readKeys : Keys GrantReadRow := .single fun r => (r.grantId, r.idemKey)

structure Store where
  clients : Table clientKeys
  secrets : Table secretKeys
  versions : Table versionKeys
  tags : Table tagKeys
  policies : Table policyKeys
  requests : Table requestKeys
  grants : Table grantKeys
  reads : Table readKeys
  audit : List AuditRow
  /-- `Keyset::active`, of the process that runs now. -/
  activeKek : String

/-- The database after its migrations. -/
def Store.empty : Store := ⟨.empty, .empty, .empty, .empty, .empty, .empty, .empty, .empty, [], "k0"⟩

theorem secret_eq_of_id {s : Store} {a b : SecretRow} (ha : a ∈ s.secrets.rows) (hb : b ∈ s.secrets.rows)
    (hid : a.id = b.id) : a = b :=
  Table.eq_of_clash ha hb (Keys.pair_clashes.2 (.inl hid))

/-- A lock that a transaction holds to its end. A hash collision of two advisory keys would only make their lock
coarser. -/
inductive LockKey where
  | kek
  | secret (name : String)
  | pendingOf (client : String)
  | depositsOf (client : String)
  | secretRow (id : Uuid)
  | secretId (id : Uuid)
  | secretName (name : String)
  | versionRow (id : Uuid)
  | versionId (id : Uuid)
  | versionOf (secret : Uuid) (version : Int)
  | tag (secret : Uuid) (tag : String)
  | requestRow (id : Uuid)
  | requestId (id : Uuid)
  | requestIdem (client key : String)
  | grantRow (id : Uuid)
  | grantId (id : Uuid)
  | grantOf (request : Uuid)
  | readRow (grant : Uuid) (key : String)
  | readKey (grant : Uuid) (key : String)
  deriving DecidableEq

@[reducible] def secretRel : Rel Store LockKey secretKeys where
  get := Store.secrets
  set s t := { s with secrets := t }
  rowLock r := .secretRow r.id
  keyLocks r := [.secretId r.id, .secretName r.name]

@[reducible] def versionRel : Rel Store LockKey versionKeys where
  get := Store.versions
  set s t := { s with versions := t }
  rowLock v := .versionRow v.id
  keyLocks v := [.versionId v.id, .versionOf v.secretId v.version]

@[reducible] def tagRel : Rel Store LockKey tagKeys where
  get := Store.tags
  set s t := { s with tags := t }
  rowLock t := .tag t.secretId t.tag
  keyLocks t := [.tag t.secretId t.tag]

@[reducible] def requestRel : Rel Store LockKey requestKeys where
  get := Store.requests
  set s t := { s with requests := t }
  rowLock r := .requestRow r.id
  keyLocks r := [.requestId r.id, .requestIdem r.idemClient r.idemKey]

@[reducible] def grantRel : Rel Store LockKey grantKeys where
  get := Store.grants
  set s t := { s with grants := t }
  rowLock g := .grantRow g.id
  keyLocks g := [.grantId g.id, .grantOf g.requestId]

@[reducible] def readRel : Rel Store LockKey readKeys where
  get := Store.reads
  set s t := { s with reads := t }
  rowLock r := .readRow r.grantId r.idemKey
  keyLocks r := [.readKey r.grantId r.idemKey]

/-! ## Outcomes -/

/-- `anyhow::Error`, as far as the modelled functions raise one. -/
inductive DbError where
  | uniqueViolation
  | integerOutOfRange
  | rowNotFound
  | sealing (what : String)
  | opening
  | bail (message : String)
  deriving DecidableEq, Repr

/-- Outcome of one attempt to use a grant. -/
inductive GrantUse where
  | notFound
  | expiredOrRevoked
  | exhausted
  | replay (grant : GrantRow) (secretVersionId : Option Uuid) (passthrough : Bool)
  | firstUse (grant : GrantRow)

inductive ApproveOutcome where
  | approved (grantId : Uuid)
  | notApprovable
  | secretNameTaken
  | secretGone
  deriving DecidableEq

inductive InsertOutcome where
  | created (row : AccessRequestRow) (grantId : Option Uuid)
  | existing (row : AccessRequestRow)
  | pendingCapExceeded

inductive DepositOutcome where
  | created (secretId : Uuid)
  | nameTaken
  | rateLimited
  deriving DecidableEq

inductive UpdateSecretOutcome where
  | updated | notFound | managed
  deriving DecidableEq

inductive DeleteSecretOutcome where
  | deleted (grantsRevoked : Nat)
  | stale
  deriving DecidableEq

inductive SecretChange where
  | created
  | updated (metadata rotated : Bool)
  | unchanged
  deriving DecidableEq

/-- What a store call returns. -/
inductive Reply where
  | grantUse (u : GrantUse)
  | approve (o : ApproveOutcome)
  | resolved (grantId : Option Uuid)
  | insert (o : InsertOutcome)
  | deposit (o : DepositOutcome)
  | settings (o : UpdateSecretOutcome)
  | deleted (o : DeleteSecretOutcome)
  | version (v : Option SecretVersionRow)
  | change (c : SecretChange)
  | flag (b : Bool)
  | count (n : Nat)

abbrev Tx (α : Type) : Type := Txn Store LockKey (Except DbError Reply) α

/-- Return without committing. -/
def rollback {α : Type} (r : Reply) : Tx α := .abort (.ok r)

def fail {α : Type} (e : DbError) : Tx α := .abort (.error e)

@[simp] theorem exec_rollback {α : Type} (r : Reply) (s : Store) : (rollback r : Tx α).exec s = .error (.ok r) := rfl

@[simp] theorem exec_fail {α : Type} (e : DbError) (s : Store) : (fail e : Tx α).exec s = .error (.error e) := rfl

theorem exec_rollback_eq_ok {α : Type} {r : Reply} {a : α} {s s' : Store} :
    ¬ (rollback r : Tx α).exec s = .ok (a, s') := Txn.exec_abort_eq_ok

theorem exec_fail_eq_ok {α : Type} {e : DbError} {a : α} {s s' : Store} :
    ¬ (fail e : Tx α).exec s = .ok (a, s') := Txn.exec_abort_eq_ok

/-- `insert_audit`; `at` is the transaction's `now()`. -/
def insertAudit (row : AuditRow) : Tx Unit := Txn.modify fun s => { s with audit := s.audit ++ [row] }

@[simp] theorem exec_insertAudit (row : AuditRow) (s : Store) :
    (insertAudit row).exec s = .ok ((), { s with audit := s.audit ++ [row] }) := rfl

theorem exec_insertAudit_eq_ok {row : AuditRow} {s s' : Store} {a : Unit} :
    (insertAudit row).exec s = .ok (a, s') ↔ { s with audit := s.audit ++ [row] } = s' := by
  rw [exec_insertAudit, Except.ok.injEq, Prod.mk.injEq]
  exact ⟨fun h => h.2, fun h => ⟨rfl, h⟩⟩

def insertAudits (rows : List AuditRow) : Tx Unit := Txn.modify fun s => { s with audit := s.audit ++ rows }

@[simp] theorem exec_insertAudits (rows : List AuditRow) (s : Store) :
    (insertAudits rows).exec s = .ok ((), { s with audit := s.audit ++ rows }) := rfl

theorem exec_insertAudits_eq_ok {rows : List AuditRow} {s s' : Store} {a : Unit} :
    (insertAudits rows).exec s = .ok (a, s') ↔ { s with audit := s.audit ++ rows } = s' := by
  rw [exec_insertAudits, Except.ok.injEq, Prod.mk.injEq]
  exact ⟨fun h => h.2, fun h => ⟨rfl, h⟩⟩

/-- `if c { x }`. -/
def onlyIf (c : Bool) (x : Tx Unit) : Tx Unit := if c then x else pure ()

theorem exec_onlyIf_eq_ok {c : Bool} {x : Tx Unit} {s s' : Store} {a : Unit} :
    (onlyIf c x).exec s = .ok (a, s') ↔ c = true ∧ x.exec s = .ok ((), s') ∨ c = false ∧ s = s' := by
  cases c with
  | true => simp [onlyIf]
  | false =>
      rw [onlyIf, if_neg Bool.false_ne_true, Txn.exec_pure_eq_ok]
      simp

theorem exec_onlyIf_lock_eq_ok {c : Bool} {key : LockKey} {mode : Mode} {s s' : Store} {a : Unit} :
    (onlyIf c (Txn.lock key mode)).exec s = .ok (a, s') ↔ s = s' := by
  rw [exec_onlyIf_eq_ok, Txn.exec_lock_eq_ok]
  cases c <;> simp

/-- Call a sealing closure. The keyset seals under the key that is active at the call, and records its id. -/
def sealNow (sealWith : SealFn) (what : String) : Tx Sealed := do
  let s ← Txn.get
  match sealWith s.activeKek with
  | none => fail (.sealing what)
  | some sealed => pure { sealed with kekId := s.activeKek }

theorem exec_sealNow_eq_ok {sealWith : SealFn} {what : String} {s s' : Store} {sealed : Sealed}
    (h : (sealNow sealWith what).exec s = .ok (sealed, s')) : s = s' := by
  simp only [sealNow, Txn.exec_bind_eq_ok, Txn.exec_get_eq_ok] at h
  obtain ⟨_, _, ⟨rfl, rfl⟩, h⟩ := h
  split at h
  · exact absurd h exec_fail_eq_ok
  · exact (Txn.exec_pure_eq_ok.1 h).2

/-- What was sealed, and under which key. -/
theorem exec_sealNow_sealed {sealWith : SealFn} {what : String} {s s' : Store} {sealed : Sealed}
    (h : (sealNow sealWith what).exec s = .ok (sealed, s')) :
    ∃ x, sealWith s.activeKek = some x ∧ sealed = { x with kekId := s.activeKek } := by
  simp only [sealNow, Txn.exec_bind_eq_ok, Txn.exec_get_eq_ok] at h
  obtain ⟨_, _, ⟨rfl, rfl⟩, h⟩ := h
  split at h
  · exact absurd h exec_fail_eq_ok
  · rename_i x hx
    exact ⟨x, hx, (Txn.exec_pure_eq_ok.1 h).1.symm⟩

theorem aborts_onlyIf {P : Except DbError Reply → Prop} {c : Bool} {x : Tx Unit} (h : x.Aborts P) :
    (onlyIf c x).Aborts P := by
  cases c with
  | true => exact h
  | false => trivial

theorem aborts_sealNow {P : Except DbError Reply → Prop} {sealWith : SealFn} {what : String} (h : P (.error (.sealing what))) :
    (sealNow sealWith what).Aborts P := by
  refine Txn.aborts_bind (Txn.aborts_get P) fun s => ?_
  split
  · exact h
  · trivial

/-! ## Advisory locks -/

/-- Held by every transaction that stores a wrapped key. -/
def takeKekSharedLock : Tx Unit := Txn.lock .kek .shared

/-- Held by creators of grants on a stored secret, from before they check that it is still there. -/
def takeSecretSharedLock (name : String) : Tx Unit := Txn.lock (.secret name) .shared

/-- Held by deletion. -/
def takeSecretExclusiveLock (name : String) : Tx Unit := Txn.lock (.secret name) .exclusive

/-- This id under this name is still in the table. -/
def secretIncarnationExists (id : Uuid) (name : String) : Tx Bool := do
  let s ← Txn.get
  return s.secrets.rows.any fun r => r.id == id && r.name == name

@[simp] theorem exec_takeKekSharedLock (s : Store) : takeKekSharedLock.exec s = .ok ((), s) := rfl

@[simp] theorem exec_takeSecretSharedLock (name : String) (s : Store) :
    (takeSecretSharedLock name).exec s = .ok ((), s) := rfl

@[simp] theorem exec_takeSecretExclusiveLock (name : String) (s : Store) :
    (takeSecretExclusiveLock name).exec s = .ok ((), s) := rfl

@[simp] theorem exec_secretIncarnationExists (id : Uuid) (name : String) (s : Store) :
    (secretIncarnationExists id name).exec s = .ok (s.secrets.rows.any (fun r => r.id == id && r.name == name), s) := rfl

end Keychute.Db
