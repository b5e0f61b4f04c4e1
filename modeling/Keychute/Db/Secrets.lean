import Keychute.Db.Grants

/-!
# Stored secrets (`server/src/db/secrets.rs`, `ui_ext.rs`, `provision.rs`)

* `createSecretWithVersion`, `createSecretFromClient` : an operator's and a client's new secret;
* `markSecretVetted`, `rotateSecretVersion`, `updateSecretSettingsAudited`, `deleteSecretAudited` : what an operator
  does to a stored one;
* `reconcileOneSecret` : what startup does for a secret listed in config. `reconcile_secrets` is one such call for each
  listed secret, and then `deleteSecretAudited` by `config` for each managed row no longer listed.

Each has a lemma `.._ok` that says what its commit did. `CHECK`s on columns that callers validate first are left out.
-/

namespace Keychute.Db
open Keychute.Lib

/-- A secret about to be stored. -/
structure StoreSecretParams where
  secretId : Uuid
  name : String
  description : String
  maxTier : Int
  injectionKind : String
  injectionHeader : Option String
  injectionUsername : Option String
  sealWith : SealFn

/-- The row of a new secret, at version 1. -/
def StoreSecretParams.row (p : StoreSecretParams) (operatorVetted managedByConfig : Bool) (now : DateTime) :
    SecretRow where
  id := p.secretId
  name := p.name
  description := p.description
  maxTier := p.maxTier
  injectionKind := p.injectionKind
  injectionHeader := p.injectionHeader
  injectionUsername := p.injectionUsername
  currentVersion := 1
  enabled := true
  operatorVetted := operatorVetted
  managedByConfig := managedByConfig
  createdAt := now
  updatedAt := now

/-- `INSERT INTO secrets .. ON CONFLICT (name) DO NOTHING`. -/
def insertSecret (row : SecretRow) : Tx Bool :=
  secretRel.insertOnConflict row (·.name == row.name) (.error .uniqueViolation)

/-- `INSERT INTO secret_versions`. -/
def insertSecretVersion (row : SecretVersionRow) : Tx Unit := versionRel.insertOrFail row (.error .uniqueViolation)

/-- Create a secret with its version 1 from the admin UI. -/
def createSecretWithVersion (store : StoreSecretParams) (versionId : Uuid) (actor : String) (now : DateTime) :
    Tx Reply := do
  takeKekSharedLock
  let sealed ← sealNow store.sealWith "sealing secret"
  let inserted ← insertSecret (store.row true false now)
  if !inserted then rollback (.flag false)
  else
    insertSecretVersion ⟨versionId, store.secretId, 1, sealed, now, none⟩
    insertAudit {
      at_ := now
      kind := .secretCreated
      secretName := some store.name
      actor := some actor }
    return .flag true

/-- At most `maxPerWindow` deposits per client per rolling `windowHours`. -/
structure DepositRate where
  maxPerWindow : Int
  windowHours : Int

/-- The deposits of a client that its cap counts. -/
def Store.recentDeposits (s : Store) (clientName : String) (rate : DepositRate) (now : DateTime) : Nat :=
  s.audit.countP fun a =>
    a.kind == .secretCreated && a.clientName == some clientName && a.at_.within now (rate.windowHours * 3600)

/-- The audit row of a deposit. -/
def depositRow (name clientName : String) (now : DateTime) : AuditRow where
  at_ := now
  kind := .secretCreated
  clientName := some clientName
  secretName := some name
  actor := some ("client:" ++ clientName)
  detail := some (.obj [("source", .str "client-api")])

/-- Client-initiated deposit: create-only, and under the client's hourly cap. -/
def createSecretFromClient (store : StoreSecretParams) (versionId : Uuid) (clientName : String) (rate : DepositRate)
    (now : DateTime) : Tx Reply := do
  Txn.lock (.depositsOf clientName) .exclusive
  let s ← Txn.get
  if (s.recentDeposits clientName rate now : Int) ≥ rate.maxPerWindow then rollback (.deposit .rateLimited)
  else
    takeKekSharedLock
    let inserted ← insertSecret (store.row false false now)
    if !inserted then rollback (.deposit .nameTaken)
    else
      let sealed ← sealNow store.sealWith "sealing secret"
      insertSecretVersion ⟨versionId, store.secretId, 1, sealed, now, none⟩
      insertAudit (depositRow store.name clientName now)
      return .deposit (.created store.secretId)

/-- The rows a vet confirmation lands on. -/
def vettable (secretId : Uuid) (reviewedVersion : Int) (r : SecretRow) : Bool :=
  r.id == secretId && !r.operatorVetted && r.currentVersion == reviewedVersion

def SecretRow.vet (now : DateTime) (r : SecretRow) : SecretRow := { r with operatorVetted := true, updatedAt := now }

theorem SecretRow.key_vet (now : DateTime) (r : SecretRow) : secretKeys.key (r.vet now) = secretKeys.key r := rfl

/-- Record that an operator has reviewed the version of a secret that is current. -/
def markSecretVetted (secretId : Uuid) (reviewedVersion : Int) (actor : String) (now : DateTime) : Tx Reply := do
  let updated ← secretRel.updateWhere (vettable secretId reviewedVersion) (SecretRow.vet now) (SecretRow.key_vet now)
  if updated.isEmpty then rollback (.flag false)
  else
    let s ← Txn.get
    match s.secrets.rows.find? (·.id == secretId) with
    | none => fail .rowNotFound
    | some row =>
      insertAudit {
        at_ := now
        kind := .secretVetted
        secretName := some row.name
        actor := some actor
        detail := some (.obj [("version", .int reviewedVersion)]) }
      return .flag true

/-- `current_version + 1` does not fit its column. -/
def versionOverflow (r : SecretRow) : Option (Except DbError Reply) :=
  if r.currentVersion = i32Max then some (.error .integerOutOfRange) else none

/-- The row with an operator's new version. -/
def SecretRow.rotate (now : DateTime) (r : SecretRow) : SecretRow :=
  { r with currentVersion := r.currentVersion + 1, operatorVetted := true, updatedAt := now }

theorem SecretRow.key_rotate (now : DateTime) (r : SecretRow) : secretKeys.key (r.rotate now) = secretKeys.key r := rfl

/-- Rotate a stored secret: the value is the operator's own, so the row counts as vetted. -/
def rotateSecretVersion (secretId : Uuid) (secretName actor : String) (sealAt : Int → SealFn) (versionId : Uuid)
    (now : DateTime) : Tx Reply := do
  takeKekSharedLock
  let updated ← secretRel.updateOrFail (·.id == secretId) versionOverflow (SecretRow.rotate now) (SecretRow.key_rotate now)
  match updated.head? with
  | none => rollback (.version none)
  | some r =>
    let sealed ← sealNow (sealAt r.currentVersion) "sealing rotated secret"
    let row : SecretVersionRow := ⟨versionId, secretId, r.currentVersion, sealed, now, none⟩
    insertSecretVersion row
    insertAudit {
      at_ := now
      kind := .secretRotated
      secretName := some secretName
      secretVersionId := some versionId
      actor := some actor }
    return .version (some row)

/-- `INSERT INTO secret_tags .. ON CONFLICT DO NOTHING`, one tag after the other. -/
def insertTags (secretId : Uuid) : List String → Tx Unit
  | [] => pure ()
  | tag :: tags => do
    let _ ← tagRel.insertOnConflict ⟨secretId, tag⟩ (fun t => t.secretId == secretId && t.tag == tag)
      (.error .uniqueViolation)
    insertTags secretId tags

def replaceTags (secretId : Uuid) (tags : List String) : Tx Unit := do
  let _ ← tagRel.deleteWhere (·.secretId == secretId)
  insertTags secretId tags

/-- The total order in which a database sorts text. -/
structure Collation where
  le : String → String → Bool
  total : ∀ a b, le a b || le b a
  trans : ∀ a b c, le a b → le b c → le a c
  antisymm : ∀ a b, le a b → le b a → a = b

/-- The collation `C`: byte by byte, as Rust compares. -/
def Collation.bytes : Collation where
  le a b := decide (a ≤ b)
  total a b := by simpa using String.le_total a b
  trans a b c hab hbc := by simpa using String.le_trans (by simpa using hab) (by simpa using hbc)
  antisymm a b hab hba := String.le_antisymm (by simpa using hab) (by simpa using hba)

/-- `SELECT tag FROM secret_tags .. ORDER BY tag`. -/
def Store.tagsOf (s : Store) (secretId : Uuid) (collation : Collation := .bytes) : List String :=
  ((s.tags.rows.filter (·.secretId == secretId)).map (·.tag)).mergeSort collation.le

/-- An operator's edit of a stored secret's settings: everything except its name and its value. -/
structure SecretSettings where
  description : String
  maxTier : Int
  injectionKind : String
  injectionHeader : Option String
  injectionUsername : Option String
  enabled : Bool
  tags : List String

/-- The row with the new settings; the vetting flag is left alone. -/
def SecretSettings.apply (t : SecretSettings) (now : DateTime) (r : SecretRow) : SecretRow :=
  { r with
    description := t.description
    maxTier := t.maxTier
    injectionKind := t.injectionKind
    injectionHeader := t.injectionHeader
    injectionUsername := t.injectionUsername
    enabled := t.enabled
    updatedAt := now }

theorem SecretSettings.key_apply (t : SecretSettings) (now : DateTime) (r : SecretRow) :
    secretKeys.key (t.apply now r) = secretKeys.key r := rfl

/-- Replace a UI-owned secret's settings and tags. -/
def updateSecretSettingsAudited (secretId : Uuid) (t : SecretSettings) (actor : String) (now : DateTime) :
    Tx Reply := do
  let before ← secretRel.selectForUpdate (·.id == secretId)
  match before.head? with
  | none => rollback (.settings .notFound)
  | some prev =>
    if prev.managedByConfig then rollback (.settings .managed)
    else
      let s ← Txn.get
      let prevTags := s.tagsOf secretId
      let _ ← secretRel.updateWhere (·.id == secretId) (t.apply now) (t.key_apply now)
      replaceTags secretId t.tags
      let injectionChanged := prev.injectionKind != t.injectionKind || prev.injectionHeader != t.injectionHeader ||
        prev.injectionUsername != t.injectionUsername
      insertAudit {
        at_ := now
        kind := .secretUpdated
        secretName := some prev.name
        actor := some actor
        detail := some (.obj [("max_tier", .int t.maxTier), ("previous_max_tier", .int prev.maxTier),
          ("enabled", .bool t.enabled), ("previous_enabled", .bool prev.enabled),
          ("injection_kind", .str t.injectionKind), ("injection_changed", .bool injectionChanged),
          ("tags", .arr (t.tags.map .str)), ("previous_tags", .arr (prevTags.map .str))]) }
      return .settings .updated

/-- The grants that go with a deleted secret: those it backed that are still live. -/
def backedBy (name : String) (now : DateTime) (g : GrantRow) : Bool :=
  g.secretName == name && g.live now && !g.passthroughEphemeral

/-- The audit row of a grant revoked with its secret. -/
def revokedRow (name actor : String) (now : DateTime) (g : GrantRow) : AuditRow where
  at_ := now
  kind := .grantRevoked
  requestId := some g.requestId
  grantId := some g.id
  clientName := some g.clientName
  secretName := some name
  actor := some actor
  detail := some (.obj [("reason", .str "secret-deleted")])

/-- The audit row of a deletion. -/
def secretDeletedRow (name actor : String) (version : Int) (versions grants : Nat) (now : DateTime) : AuditRow where
  at_ := now
  kind := .secretDeleted
  secretName := some name
  actor := some actor
  detail := some (.obj [("current_version", .int version), ("versions_deleted", .int versions),
    ("grants_revoked", .int grants)])

/-- Delete a stored secret with its versions and tags, and revoke every live grant that could still release it. The
name is read before its lock is held, only to key the lock. -/
def deleteSecretAudited (secretId : Uuid) (expectedVersion : Int) (actor : String) (now : DateTime) : Tx Reply := do
  let s ← Txn.get
  match s.secrets.rows.find? (·.id == secretId) with
  | none => rollback (.deleted .stale)
  | some row =>
    takeSecretExclusiveLock row.name
    let s ← Txn.get
    let versions := s.versions.rows.countP (·.secretId == secretId)
    let deleted ← secretRel.deleteWhere fun r => r.id == secretId && r.currentVersion == expectedVersion
    if deleted.isEmpty then rollback (.deleted .stale)
    else
      -- `ON DELETE CASCADE`
      let _ ← versionRel.deleteWhere (·.secretId == secretId)
      let _ ← tagRel.deleteWhere (·.secretId == secretId)
      let revoked ← grantRel.updateWhere (backedBy row.name now) GrantRow.revoke GrantRow.key_revoke
      insertAudits (revoked.map (revokedRow row.name actor now))
      insertAudit (secretDeletedRow row.name actor expectedVersion versions revoked.length now)
      return .deleted (.deleted revoked.length)

/-! ## Provisioning -/

/-- The keys that wrap stored values; a value is sealed for one secret and one version number. -/
structure Keyset where
  sealFor : Uuid → Int → Blob → SealFn
  openFor : Uuid → Int → Sealed → Option Blob

/-- A secret as the config wants it, with its value already read from file. -/
structure DesiredSecret where
  name : String
  description : String
  maxTier : Int
  injectionKind : String
  injectionHeader : Option String
  injectionUsername : Option String
  tags : List String
  value : Blob

/-- The row that config creates. -/
def DesiredSecret.row (d : DesiredSecret) (secretId : Uuid) (now : DateTime) : SecretRow where
  id := secretId
  name := d.name
  description := d.description
  maxTier := d.maxTier
  injectionKind := d.injectionKind
  injectionHeader := d.injectionHeader
  injectionUsername := d.injectionUsername
  currentVersion := 1
  enabled := true
  operatorVetted := true
  managedByConfig := true
  createdAt := now
  updatedAt := now

/-- The existing row as config wants it, its value apart. -/
def DesiredSecret.adopt (d : DesiredSecret) (now : DateTime) (r : SecretRow) : SecretRow :=
  { r with
    description := d.description
    maxTier := d.maxTier
    injectionKind := d.injectionKind
    injectionHeader := d.injectionHeader
    injectionUsername := d.injectionUsername
    enabled := true
    operatorVetted := true
    managedByConfig := true
    updatedAt := now }

/-- The row with config's new version. -/
def SecretRow.bumpVersion (now : DateTime) (r : SecretRow) : SecretRow :=
  { r with currentVersion := r.currentVersion + 1, updatedAt := now }

theorem DesiredSecret.key_adopt (d : DesiredSecret) (now : DateTime) (r : SecretRow) :
    secretKeys.key (d.adopt now r) = secretKeys.key r := rfl

theorem SecretRow.key_bumpVersion (now : DateTime) (r : SecretRow) :
    secretKeys.key (r.bumpVersion now) = secretKeys.key r := rfl

/-- `wanted_tags.sort(); wanted_tags.dedup()`. -/
def sortDedup (tags : List String) : List String := (tags.mergeSort fun a b => decide (a ≤ b)).dedup

def DesiredSecret.differs (d : DesiredSecret) (row : SecretRow) (currentTags : List String) : Bool :=
  row.description != d.description || row.maxTier != d.maxTier || row.injectionKind != d.injectionKind ||
    row.injectionHeader != d.injectionHeader || row.injectionUsername != d.injectionUsername || !row.enabled ||
    !row.operatorVetted || !row.managedByConfig || currentTags != sortDedup d.tags

/-- Seal and insert one version row. -/
def insertVersion (keyset : Keyset) (versionId secretId : Uuid) (version : Int) (value : Blob) (now : DateTime) :
    Tx Unit := do
  let sealed ← sealNow (keyset.sealFor secretId version value) "sealing provisioned secret"
  insertSecretVersion ⟨versionId, secretId, version, sealed, now, none⟩

/-- The branch for a name that is free. -/
def provisionSecret (keyset : Keyset) (d : DesiredSecret) (secretId versionId : Uuid) (now : DateTime) : Tx Reply := do
  secretRel.insertOrFail (d.row secretId now) (.error .uniqueViolation)
  insertVersion keyset versionId secretId 1 d.value now
  replaceTags secretId d.tags
  insertAudit {
    at_ := now
    kind := .secretCreated
    secretName := some d.name
    secretVersionId := some versionId
    actor := some "config" }
  return .change .created

/-- `UPDATE secrets SET ..` of an existing row that is not as config wants it. -/
def adoptSecret (d : DesiredSecret) (row : SecretRow) (now : DateTime) : Tx Unit := do
  let _ ← secretRel.updateWhere (·.id == row.id) (d.adopt now) (d.key_adopt now)
  replaceTags row.id (sortDedup d.tags)
  insertAudit {
    at_ := now
    kind := .secretUpdated
    secretName := some d.name
    actor := some "config"
    detail := some (.obj [("max_tier", .int d.maxTier), ("injection_kind", .str d.injectionKind),
      ("adopted", .bool !row.managedByConfig)]) }

/-- A version with the bytes of config. -/
def provisionVersion (keyset : Keyset) (d : DesiredSecret) (row : SecretRow) (versionId : Uuid) (now : DateTime) :
    Tx Unit := do
  let updated ← secretRel.updateOrFail (·.id == row.id) versionOverflow (SecretRow.bumpVersion now) (SecretRow.key_bumpVersion now)
  match updated.head? with
  | none => fail .rowNotFound
  | some r =>
    insertVersion keyset versionId row.id r.currentVersion d.value now
    insertAudit {
      at_ := now
      kind := .secretRotated
      secretName := some d.name
      secretVersionId := some versionId
      actor := some "config" }

/-- The stored value is the configured one; `none` when the current version does not open. -/
def sameValue (keyset : Keyset) (d : DesiredSecret) (current : Option SecretVersionRow) : Option Bool :=
  match current with
  | none => some false
  | some v => (keyset.openFor v.secretId v.version v.sealed).map (· == d.value)

/-- Make the database match config for one listed secret. -/
def reconcileOneSecret (keyset : Keyset) (d : DesiredSecret) (secretId versionId : Uuid) (now : DateTime)
    (collation : Collation := .bytes) : Tx Reply := do
  takeKekSharedLock
  let existing ← secretRel.selectForUpdate (·.name == d.name)
  match existing.head? with
  | none => provisionSecret keyset d secretId versionId now
  | some row =>
    let s ← Txn.get
    let metadata := d.differs row (s.tagsOf row.id collation)
    onlyIf metadata (adoptSecret d row now)
    -- rotate only when the bytes differ
    let s ← Txn.get
    match sameValue keyset d (s.versions.rows.find? fun v =>
        v.secretId == row.id && v.version == row.currentVersion) with
    | none => fail .opening
    | some same =>
      onlyIf (!same) (provisionVersion keyset d row versionId now)
      return .change (if metadata || !same then .updated metadata (!same) else .unchanged)

/-! ## What each commit did -/

section Commits
variable {s s' : Store} {r : Reply} {now : DateTime}

/-- The version row of a new value. -/
abbrev newVersion (versionId secretId : Uuid) (version : Int) (sealed : Sealed) (request : Option Uuid)
    (now : DateTime) : SecretVersionRow := ⟨versionId, secretId, version, sealed, now, request⟩

theorem createSecretWithVersion_ok {store : StoreSecretParams} {versionId : Uuid} {actor : String}
    (h : (createSecretWithVersion store versionId actor now).exec s = .ok (r, s')) :
    ∃ sealed a, a.kind = AuditKind.secretCreated ∧ s.secrets.Fresh (store.row true false now) ∧
      s.versions.Fresh (newVersion versionId store.secretId 1 sealed none now) ∧ r = .flag true ∧
      s' = { s with
        secrets := s.secrets.insert (store.row true false now)
        versions := s.versions.insert (newVersion versionId store.secretId 1 sealed none now)
        audit := s.audit ++ [a] } := by
  simp only [createSecretWithVersion, insertSecret, insertSecretVersion, takeKekSharedLock, Txn.exec_bind_eq_ok,
    Txn.exec_lock_eq_ok] at h
  obtain ⟨_, _, rfl, sealed, _, hseal, h⟩ := h
  obtain rfl := exec_sealNow_eq_ok hseal
  simp only [Rel.exec_insertOnConflict_eq_ok] at h
  obtain ⟨_, _, ⟨_, rfl, rfl⟩ | ⟨_, hfresh, rfl, rfl⟩, h⟩ := h
  · exact absurd h exec_rollback_eq_ok
  · simp only [Bool.not_true, Bool.false_eq_true, if_false, Txn.exec_bind_eq_ok, Rel.exec_insertOrFail_eq_ok,
      exec_insertAudit_eq_ok, Txn.exec_pure_eq_ok] at h
    obtain ⟨_, _, ⟨hv, rfl⟩, _, _, rfl, rfl, rfl⟩ := h
    exact ⟨sealed, _, rfl, hfresh, hv, rfl, rfl⟩

theorem createSecretFromClient_ok {store : StoreSecretParams} {versionId : Uuid} {clientName : String}
    {rate : DepositRate} (h : (createSecretFromClient store versionId clientName rate now).exec s = .ok (r, s')) :
    ∃ sealed, s.secrets.Fresh (store.row false false now) ∧
      s.versions.Fresh (newVersion versionId store.secretId 1 sealed none now) ∧
      r = .deposit (.created store.secretId) ∧
      s' = { s with
        secrets := s.secrets.insert (store.row false false now)
        versions := s.versions.insert (newVersion versionId store.secretId 1 sealed none now)
        audit := s.audit ++ [depositRow store.name clientName now] } := by
  simp only [createSecretFromClient, insertSecret, insertSecretVersion, takeKekSharedLock, Txn.exec_bind_eq_ok,
    Txn.exec_lock_eq_ok, Txn.exec_get_eq_ok] at h
  obtain ⟨_, _, rfl, _, _, ⟨rfl, rfl⟩, h⟩ := h
  split at h
  · exact absurd h exec_rollback_eq_ok
  · simp only [Txn.exec_bind_eq_ok, Txn.exec_lock_eq_ok, Rel.exec_insertOnConflict_eq_ok] at h
    obtain ⟨_, _, rfl, _, _, ⟨_, rfl, rfl⟩ | ⟨_, hfresh, rfl, rfl⟩, h⟩ := h
    · exact absurd h exec_rollback_eq_ok
    · simp only [Bool.not_true, Bool.false_eq_true, if_false, Txn.exec_bind_eq_ok, Rel.exec_insertOrFail_eq_ok,
        exec_insertAudit_eq_ok, Txn.exec_pure_eq_ok] at h
      obtain ⟨sealed, _, hseal, _, _, ⟨hv, rfl⟩, _, _, rfl, rfl, rfl⟩ := h
      obtain rfl := exec_sealNow_eq_ok hseal
      exact ⟨sealed, hfresh, hv, rfl, rfl⟩

theorem markSecretVetted_ok {secretId : Uuid} {reviewedVersion : Int} {actor : String}
    (h : (markSecretVetted secretId reviewedVersion actor now).exec s = .ok (r, s')) :
    ∃ a, a.kind = AuditKind.secretVetted ∧ r = .flag true ∧
      s' = { s with
        secrets := s.secrets.update (vettable secretId reviewedVersion) (SecretRow.vet now) (SecretRow.key_vet now)
        audit := s.audit ++ [a] } := by
  simp only [markSecretVetted, Txn.exec_bind_eq_ok, Rel.exec_updateWhere_eq_ok] at h
  obtain ⟨_, _, ⟨rfl, rfl⟩, h⟩ := h
  split at h
  · exact absurd h exec_rollback_eq_ok
  · simp only [Txn.exec_bind_eq_ok, Txn.exec_get_eq_ok] at h
    obtain ⟨_, _, ⟨rfl, rfl⟩, h⟩ := h
    split at h
    · exact absurd h exec_fail_eq_ok
    · simp only [Txn.exec_bind_eq_ok, exec_insertAudit_eq_ok, Txn.exec_pure_eq_ok] at h
      obtain ⟨_, _, rfl, rfl, rfl⟩ := h
      exact ⟨_, rfl, rfl, rfl⟩

theorem rotateSecretVersion_ok {secretId : Uuid} {secretName actor : String} {sealAt : Int → SealFn}
    {versionId : Uuid} (h : (rotateSecretVersion secretId secretName actor sealAt versionId now).exec s = .ok (r, s')) :
    ∃ row ∈ s.secrets.rows, ∃ sealed a, row.id = secretId ∧ a.kind = AuditKind.secretRotated ∧
      s.versions.Fresh (newVersion versionId secretId (row.currentVersion + 1) sealed none now) ∧
      r = .version (some (newVersion versionId secretId (row.currentVersion + 1) sealed none now)) ∧
      s' = { s with
        secrets := s.secrets.update (·.id == secretId) (SecretRow.rotate now) (SecretRow.key_rotate now)
        versions := s.versions.insert (newVersion versionId secretId (row.currentVersion + 1) sealed none now)
        audit := s.audit ++ [a] } := by
  simp only [rotateSecretVersion, takeKekSharedLock, Txn.exec_bind_eq_ok, Txn.exec_lock_eq_ok,
    Rel.exec_updateOrFail_eq_ok] at h
  obtain ⟨_, _, rfl, _, _, ⟨_, rfl, rfl⟩, h⟩ := h
  split at h
  · exact absurd h exec_rollback_eq_ok
  · rename_i row' hhead
    obtain ⟨row, hrow, rfl⟩ := List.mem_map.1 (List.mem_of_mem_head? hhead)
    rw [List.mem_filter, beq_iff_eq] at hrow
    simp only [insertSecretVersion, Txn.exec_bind_eq_ok, Rel.exec_insertOrFail_eq_ok, exec_insertAudit_eq_ok,
      Txn.exec_pure_eq_ok] at h
    obtain ⟨sealed, _, hseal, _, _, ⟨hv, rfl⟩, _, _, rfl, rfl, rfl⟩ := h
    obtain rfl := exec_sealNow_eq_ok hseal
    exact ⟨row, hrow.1, sealed, _, hrow.2, rfl, hv, rfl, rfl⟩

theorem exec_insertTags_eq_ok {secretId : Uuid} {tags : List String} {a : Unit}
    (h : (insertTags secretId tags).exec s = .ok (a, s')) : ∃ t, s' = { s with tags := t } := by
  induction tags generalizing s with
  | nil =>
      simp only [insertTags, Txn.exec_pure_eq_ok] at h
      obtain ⟨_, rfl⟩ := h
      exact ⟨s.tags, rfl⟩
  | cons tag tags ih =>
      simp only [insertTags, Txn.exec_bind_eq_ok, Rel.exec_insertOnConflict_eq_ok] at h
      obtain ⟨_, _, ⟨_, _, rfl⟩ | ⟨_, _, _, rfl⟩, h⟩ := h
      · exact ih h
      · obtain ⟨t, rfl⟩ := ih h
        exact ⟨t, rfl⟩

theorem exec_replaceTags_eq_ok {secretId : Uuid} {tags : List String} {a : Unit}
    (h : (replaceTags secretId tags).exec s = .ok (a, s')) : ∃ t, s' = { s with tags := t } := by
  simp only [replaceTags, Txn.exec_bind_eq_ok, Rel.exec_deleteWhere_eq_ok] at h
  obtain ⟨_, _, ⟨_, rfl⟩, h⟩ := h
  obtain ⟨t, rfl⟩ := exec_insertTags_eq_ok h
  exact ⟨t, rfl⟩

theorem updateSecretSettingsAudited_ok {secretId : Uuid} {t : SecretSettings} {actor : String}
    (h : (updateSecretSettingsAudited secretId t actor now).exec s = .ok (r, s')) :
    ∃ tags a, a.kind = AuditKind.secretUpdated ∧ r = .settings .updated ∧
      s' = { s with
        secrets := s.secrets.update (·.id == secretId) (t.apply now) (t.key_apply now)
        tags := tags
        audit := s.audit ++ [a] } := by
  simp only [updateSecretSettingsAudited, Txn.exec_bind_eq_ok, Rel.exec_selectForUpdate_eq_ok] at h
  obtain ⟨_, _, ⟨rfl, rfl⟩, h⟩ := h
  split at h
  · exact absurd h exec_rollback_eq_ok
  · split at h
    · exact absurd h exec_rollback_eq_ok
    · simp only [Txn.exec_bind_eq_ok, Txn.exec_get_eq_ok, Rel.exec_updateWhere_eq_ok, exec_insertAudit_eq_ok,
        Txn.exec_pure_eq_ok] at h
      obtain ⟨_, _, ⟨rfl, rfl⟩, _, _, ⟨_, rfl⟩, _, _, htags, _, _, rfl, rfl, rfl⟩ := h
      obtain ⟨tags, rfl⟩ := exec_replaceTags_eq_ok htags
      exact ⟨tags, _, rfl, rfl, rfl⟩

theorem deleteSecretAudited_ok {secretId : Uuid} {expectedVersion : Int} {actor : String}
    (h : (deleteSecretAudited secretId expectedVersion actor now).exec s = .ok (r, s')) :
    ∃ row ∈ s.secrets.rows, ∃ tags audits, row.id = secretId ∧ row.currentVersion = expectedVersion ∧
      (∀ a ∈ audits, a.kind = AuditKind.grantRevoked ∨ a.kind = AuditKind.secretDeleted) ∧
      (∃ n, r = .deleted (.deleted n)) ∧
      s' = { s with
        secrets := s.secrets.delete fun x => x.id == secretId && x.currentVersion == expectedVersion
        versions := s.versions.delete (·.secretId == secretId)
        tags := tags
        grants := s.grants.update (backedBy row.name now) GrantRow.revoke GrantRow.key_revoke
        audit := s.audit ++ audits } := by
  simp only [deleteSecretAudited, Txn.exec_bind_eq_ok, Txn.exec_get_eq_ok] at h
  obtain ⟨_, _, ⟨rfl, rfl⟩, h⟩ := h
  split at h
  · exact absurd h exec_rollback_eq_ok
  · rename_i row hrow
    simp only [takeSecretExclusiveLock, Txn.exec_bind_eq_ok, Txn.exec_lock_eq_ok, Txn.exec_get_eq_ok,
      Rel.exec_deleteWhere_eq_ok] at h
    obtain ⟨_, _, rfl, _, _, ⟨rfl, rfl⟩, _, _, ⟨rfl, rfl⟩, h⟩ := h
    split at h
    · exact absurd h exec_rollback_eq_ok
    · rename_i hdel
      simp only [Txn.exec_bind_eq_ok, Rel.exec_deleteWhere_eq_ok, Rel.exec_updateWhere_eq_ok, exec_insertAudits_eq_ok,
        exec_insertAudit_eq_ok, Txn.exec_pure_eq_ok] at h
      obtain ⟨_, _, ⟨_, rfl⟩, _, _, ⟨_, rfl⟩, _, _, ⟨rfl, rfl⟩, _, _, rfl, _, _, rfl, rfl, rfl⟩ := h
      -- the row read first is the one that was deleted
      have hfound : row ∈ s.secrets.rows ∧ row.id = secretId := by
        have hsome := List.find?_some hrow
        exact ⟨List.mem_of_find?_eq_some hrow, by simpa using hsome⟩
      obtain ⟨row', hrow'⟩ : ∃ x, x ∈ s.secrets.rows ∧ x.id = secretId ∧ x.currentVersion = expectedVersion := by
        simpa using hdel
      have hsame : row = row' := by
        apply Table.eq_of_clash hfound.1 hrow'.1
        rw [Keys.pair_clashes]
        exact Or.inl (hfound.2.trans hrow'.2.1.symm)
      subst hsame
      let revoked := (s.grants.rows.filter (backedBy row.name now)).map GrantRow.revoke
      refine ⟨row, hfound.1, s.tags.delete (·.secretId == secretId), revoked.map (revokedRow row.name actor now) ++
        [secretDeletedRow row.name actor expectedVersion (s.versions.rows.countP (·.secretId == secretId))
          revoked.length now], hfound.2, hrow'.2.2, ?_, ⟨_, rfl⟩, ?_⟩
      · intro a ha
        rcases List.mem_append.1 ha with ha | ha
        · obtain ⟨g, _, rfl⟩ := List.mem_map.1 ha
          exact Or.inl rfl
        · rw [List.mem_singleton.1 ha]
          exact Or.inr rfl
      · rw [← List.append_assoc]

theorem exec_insertVersion_eq_ok {keyset : Keyset} {versionId secretId : Uuid} {version : Int} {value : Blob}
    {a : Unit} (h : (insertVersion keyset versionId secretId version value now).exec s = .ok (a, s')) :
    ∃ sealed, s.versions.Fresh (newVersion versionId secretId version sealed none now) ∧
      s' = { s with versions := s.versions.insert (newVersion versionId secretId version sealed none now) } := by
  simp only [insertVersion, insertSecretVersion, Txn.exec_bind_eq_ok, Rel.exec_insertOrFail_eq_ok] at h
  obtain ⟨sealed, _, hseal, hfresh, rfl⟩ := h
  obtain rfl := exec_sealNow_eq_ok hseal
  exact ⟨sealed, hfresh, rfl⟩

theorem provisionSecret_ok {keyset : Keyset} {d : DesiredSecret} {secretId versionId : Uuid}
    (h : (provisionSecret keyset d secretId versionId now).exec s = .ok (r, s')) :
    ∃ sealed tags a, a.kind = AuditKind.secretCreated ∧ s.secrets.Fresh (d.row secretId now) ∧
      s.versions.Fresh (newVersion versionId secretId 1 sealed none now) ∧ r = .change .created ∧
      s' = { s with
        secrets := s.secrets.insert (d.row secretId now)
        versions := s.versions.insert (newVersion versionId secretId 1 sealed none now)
        tags := tags
        audit := s.audit ++ [a] } := by
  simp only [provisionSecret, Txn.exec_bind_eq_ok, Rel.exec_insertOrFail_eq_ok, exec_insertAudit_eq_ok,
    Txn.exec_pure_eq_ok] at h
  obtain ⟨_, _, ⟨hfresh, rfl⟩, _, _, hver, _, _, htags, _, _, rfl, rfl, rfl⟩ := h
  obtain ⟨sealed, hv, rfl⟩ := exec_insertVersion_eq_ok hver
  obtain ⟨tags, rfl⟩ := exec_replaceTags_eq_ok htags
  exact ⟨sealed, tags, _, rfl, hfresh, hv, rfl, rfl⟩

theorem exec_adoptSecret_eq_ok {d : DesiredSecret} {row : SecretRow} {a : Unit}
    (h : (adoptSecret d row now).exec s = .ok (a, s')) :
    ∃ tags a, a.kind = AuditKind.secretUpdated ∧
      s' = { s with
        secrets := s.secrets.update (·.id == row.id) (d.adopt now) (d.key_adopt now)
        tags := tags
        audit := s.audit ++ [a] } := by
  simp only [adoptSecret, Txn.exec_bind_eq_ok, Rel.exec_updateWhere_eq_ok, exec_insertAudit_eq_ok] at h
  obtain ⟨_, _, ⟨_, rfl⟩, _, _, htags, rfl⟩ := h
  obtain ⟨tags, rfl⟩ := exec_replaceTags_eq_ok htags
  exact ⟨tags, _, rfl, rfl⟩

theorem exec_provisionVersion_eq_ok {keyset : Keyset} {d : DesiredSecret} {row : SecretRow} {versionId : Uuid}
    {a : Unit} (h : (provisionVersion keyset d row versionId now).exec s = .ok (a, s')) :
    ∃ current ∈ s.secrets.rows, ∃ sealed a, current.id = row.id ∧ a.kind = AuditKind.secretRotated ∧
      s.versions.Fresh (newVersion versionId row.id (current.currentVersion + 1) sealed none now) ∧
      s' = { s with
        secrets := s.secrets.update (·.id == row.id) (SecretRow.bumpVersion now) (SecretRow.key_bumpVersion now)
        versions := s.versions.insert (newVersion versionId row.id (current.currentVersion + 1) sealed none now)
        audit := s.audit ++ [a] } := by
  simp only [provisionVersion, Txn.exec_bind_eq_ok, Rel.exec_updateOrFail_eq_ok] at h
  obtain ⟨_, _, ⟨_, rfl, rfl⟩, h⟩ := h
  split at h
  · exact absurd h exec_fail_eq_ok
  · rename_i _ hhead
    obtain ⟨current, hcur, rfl⟩ := List.mem_map.1 (List.mem_of_mem_head? hhead)
    rw [List.mem_filter, beq_iff_eq] at hcur
    simp only [Txn.exec_bind_eq_ok, exec_insertAudit_eq_ok] at h
    obtain ⟨_, _, hver, rfl⟩ := h
    obtain ⟨sealed, hv, rfl⟩ := exec_insertVersion_eq_ok hver
    exact ⟨current, hcur.1, sealed, _, hcur.2, rfl, hv, rfl⟩

/-- The current version of a row. -/
def Store.currentVersionOf (s : Store) (row : SecretRow) : Option SecretVersionRow :=
  s.versions.rows.find? fun v => v.secretId == row.id && v.version == row.currentVersion

/-- Reconciliation creates the row, or adopts it if it is not as config wants it and gives it a version unless the
current one already holds the configured bytes. -/
theorem reconcileOneSecret_ok {keyset : Keyset} {d : DesiredSecret} {secretId versionId : Uuid} {collation : Collation}
    (h : (reconcileOneSecret keyset d secretId versionId now collation).exec s = .ok (r, s')) :
    (provisionSecret keyset d secretId versionId now).exec s = .ok (r, s') ∨
      ∃ row ∈ s.secrets.rows, row.name = d.name ∧ ∃ s₁,
        (d.differs row (s.tagsOf row.id collation) = true ∧ (adoptSecret d row now).exec s = .ok ((), s₁) ∨
          d.differs row (s.tagsOf row.id collation) = false ∧ s₁ = s) ∧
        (sameValue keyset d (s₁.currentVersionOf row) = some false ∧
            (provisionVersion keyset d row versionId now).exec s₁ = .ok ((), s') ∨
          sameValue keyset d (s₁.currentVersionOf row) = some true ∧ s' = s₁) ∧
        ∃ c, r = .change c := by
  simp only [reconcileOneSecret, takeKekSharedLock, Txn.exec_bind_eq_ok, Txn.exec_lock_eq_ok,
    Rel.exec_selectForUpdate_eq_ok] at h
  obtain ⟨_, _, rfl, _, _, ⟨rfl, rfl⟩, h⟩ := h
  split at h
  · exact Or.inl h
  · rename_i row hrow
    obtain ⟨hmem, hname⟩ := List.mem_filter.1 (List.mem_of_mem_head? hrow)
    simp only [Txn.exec_bind_eq_ok, Txn.exec_get_eq_ok] at h
    obtain ⟨_, _, ⟨rfl, rfl⟩, _, s₁, hadopt, _, _, ⟨rfl, rfl⟩, h⟩ := h
    refine Or.inr ⟨row, hmem, by simpa using hname, s₁, ?_, ?_⟩
    · obtain ⟨hd, hadopt⟩ | ⟨hd, rfl⟩ := exec_onlyIf_eq_ok.1 hadopt
      · exact Or.inl ⟨hd, hadopt⟩
      · exact Or.inr ⟨hd, rfl⟩
    · split at h
      · exact absurd h exec_fail_eq_ok
      · rename_i same hsame
        change sameValue keyset d (s₁.currentVersionOf row) = some same at hsame
        simp only [Txn.exec_bind_eq_ok, Txn.exec_pure_eq_ok] at h
        obtain ⟨_, s₂, hprov, rfl, rfl⟩ := h
        obtain ⟨hs, hprov⟩ | ⟨hs, rfl⟩ := exec_onlyIf_eq_ok.1 hprov
        · rw [Bool.not_eq_true'] at hs
          rw [hs] at hsame
          exact ⟨Or.inl ⟨hsame, hprov⟩, _, rfl⟩
        · rw [Bool.not_eq_false'] at hs
          rw [hs] at hsame
          exact ⟨Or.inr ⟨hsame, rfl⟩, _, rfl⟩

end Commits
end Keychute.Db
