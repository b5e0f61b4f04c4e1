import Keychute.Db.Secrets

/-!
# Access requests (`server/src/db/requests.rs`, `api_ext.rs`, `ui_ext.rs`)

* `insertAccessRequestWithId` : a new request, pending or already resolved by policy;
* `approveRequest`, `resolveApprove`, `resolveDeny` : an operator's resolution;
* `expireStale`, `purgeRequestContext` : the sweeps.
-/

namespace Keychute.Db
open Keychute.Lib

/-- The row of a new grant. -/
def GrantParams.row (p : GrantParams) (id requestId : Uuid) (now : DateTime) : GrantRow where
  id := id
  requestId := requestId
  clientName := p.clientName
  secretName := p.secretName
  mechanism := p.mechanism
  constraints := p.constraints
  notAfter := p.notAfter
  maxUses := p.maxUses
  useCount := 0
  revoked := false
  passthroughCiphertext := p.passthrough.map (·.ciphertext)
  passthroughNonce := p.passthrough.map (·.nonce)
  passthroughWrappedDek := p.passthrough.map (·.wrappedDek)
  passthroughEphemeral := p.passthrough.isSome
  createdAt := now

/-- `INSERT INTO grants`. -/
def insertGrant (row : GrantRow) : Tx Unit := grantRel.insertOrFail row (.error .uniqueViolation)

/-- The `request-approved` row. -/
def approvedRow (grant : GrantParams) (requestId grantId : Uuid) (actor : String) (detail : Option Json)
    (now : DateTime) : AuditRow where
  at_ := now
  kind := .requestApproved
  requestId := some requestId
  grantId := some grantId
  clientName := some grant.clientName
  secretName := some grant.secretName
  actor := some actor
  detail := detail

/-- The `request-denied` row. -/
def deniedRow (requestId : Uuid) (clientName secretName actor : String) (now : DateTime) : AuditRow where
  at_ := now
  kind := .requestDenied
  requestId := some requestId
  clientName := some clientName
  secretName := some secretName
  actor := some actor

/-- The `request-expired` row. -/
def expiredRow (now : DateTime) (r : AccessRequestRow) : AuditRow where
  at_ := now
  kind := .requestExpired
  requestId := some r.id
  clientName := some r.clientName
  secretName := some r.secretName

/-- The `request-created` row. -/
def createdRow (id : Uuid) (req : NewAccessRequest) (now : DateTime) : AuditRow where
  at_ := now
  kind := .requestCreated
  requestId := some id
  clientName := some req.clientName
  secretName := some req.secretName
  detail := some (.obj [("mechanism", .str req.mechanism)])

namespace AccessRequestRow

def approve (resolvedBy : String) (now : DateTime) (r : AccessRequestRow) : AccessRequestRow :=
  { r with state := .approved, resolvedBy := some resolvedBy, resolvedAt := some now }

def deny (reason resolvedBy : String) (now : DateTime) (r : AccessRequestRow) : AccessRequestRow :=
  { r with state := .denied, denyReason := some reason, resolvedBy := some resolvedBy, resolvedAt := some now }

def expire (now : DateTime) (r : AccessRequestRow) : AccessRequestRow :=
  { r with state := .expired, resolvedAt := some now }

def purge (r : AccessRequestRow) : AccessRequestRow :=
  { r with contextCiphertext := none, contextNonce := none, contextWrappedDek := none, contextKekId := none }

theorem key_approve (resolvedBy : String) (now : DateTime) (r : AccessRequestRow) :
    requestKeys.key (r.approve resolvedBy now) = requestKeys.key r := rfl

theorem key_deny (reason resolvedBy : String) (now : DateTime) (r : AccessRequestRow) :
    requestKeys.key (r.deny reason resolvedBy now) = requestKeys.key r := rfl

theorem key_expire (now : DateTime) (r : AccessRequestRow) : requestKeys.key (r.expire now) = requestKeys.key r := rfl

theorem key_purge (r : AccessRequestRow) : requestKeys.key r.purge = requestKeys.key r := rfl

/-- `state = 'pending' AND now() < expires_at`. -/
def resolvable (now : DateTime) (r : AccessRequestRow) : Bool := r.state == .pending && decide (now < r.expiresAt)

end AccessRequestRow

/-- The row the grant was decided on is still there, under the same id and the same name; without an identity it
cannot be shown to be. -/
def sameIncarnation (grant : GrantParams) : Tx Bool :=
  match grant.secretId with
  | some id => secretIncarnationExists id grant.secretName
  | none => pure false

/-- A grant with no payload of its own releases the stored secret: hold its lock, and end with `gone` if the row it was
decided on is no longer there. -/
def requireStoredSecret (grant : GrantParams) (gone : Except DbError Reply) : Tx Unit := do
  takeSecretSharedLock grant.secretName
  let sameRow ← sameIncarnation grant
  if !sameRow then .abort gone else pure ()

/-- The lock of an approval, and the check of the row unless the approval itself creates it. -/
def lockForApproval (grant : GrantParams) (store : Option StoreSecretParams) : Tx Unit :=
  onlyIf grant.passthrough.isNone <|
    if store.isNone then requireStoredSecret grant (.ok (.approve .secretGone))
    else takeSecretSharedLock grant.secretName

/-- "Also store this secret": the secret of an approval, with its version 1. -/
def storeApproved (requestId : Uuid) (resolvedBy : String) (versionId : Uuid) (now : DateTime) :
    Option StoreSecretParams → Tx Unit
  | none => pure ()
  | some store => do
    let sealed ← sealNow store.sealWith "sealing secret"
    let inserted ← insertSecret (store.row true false now)
    if !inserted then rollback (.approve .secretNameTaken)
    else
      insertSecretVersion ⟨versionId, store.secretId, 1, sealed, now, some requestId⟩
      insertAudit {
        at_ := now
        kind := .secretCreated
        requestId := some requestId
        secretName := some store.name
        actor := some resolvedBy }

/-- The name the client asked for, when a different stored secret was released instead. -/
def substitution (requestedName secretName : String) : Option Json :=
  if requestedName ≠ secretName then some (.obj [("substituted_for_requested_name", .str requestedName)]) else none

/-- The requests an approval flips. -/
def approvable (requestId : Uuid) (grant : GrantParams) (now : DateTime) (r : AccessRequestRow) : Bool :=
  r.id == requestId && r.resolvable now && decide (now < grant.notAfter)

/-- Approve a pending request with an app-supplied grant id. -/
def approveRequest (requestId : Uuid) (resolvedBy : String) (grantId : Uuid) (grant : GrantParams)
    (store : Option StoreSecretParams) (versionId : Uuid) (now : DateTime) : Tx Reply := do
  lockForApproval grant store
  onlyIf store.isSome takeKekSharedLock
  let updated ← requestRel.updateWhere (approvable requestId grant now) (AccessRequestRow.approve resolvedBy now)
    (AccessRequestRow.key_approve resolvedBy now)
  match updated.head? with
  | none => rollback (.approve .notApprovable)
  | some r =>
    storeApproved requestId resolvedBy versionId now store
    insertGrant (grant.row grantId requestId now)
    insertAudit (approvedRow grant requestId grantId resolvedBy (substitution r.secretName grant.secretName) now)
    return .approve (.approved grantId)

/-- Approve a pending request; the grant id is the database's. -/
def resolveApprove (requestId : Uuid) (resolvedBy : String) (grant : GrantParams) (grantId : Uuid) (now : DateTime) :
    Tx Reply := do
  onlyIf grant.passthrough.isNone (requireStoredSecret grant (.ok (.resolved none)))
  let updated ← requestRel.updateWhere (fun r => r.id == requestId && r.resolvable now)
    (AccessRequestRow.approve resolvedBy now) (AccessRequestRow.key_approve resolvedBy now)
  if updated.length != 1 then rollback (.resolved none)
  else
    insertGrant (grant.row grantId requestId now)
    insertAudit (approvedRow grant requestId grantId resolvedBy none now)
    return .resolved (some grantId)

/-- Deny a pending request. -/
def resolveDeny (requestId : Uuid) (resolvedBy reason : String) (now : DateTime) : Tx Reply := do
  let updated ← requestRel.updateWhere (fun r => r.id == requestId && r.resolvable now)
    (AccessRequestRow.deny reason resolvedBy now) (AccessRequestRow.key_deny reason resolvedBy now)
  match updated.head? with
  | none => rollback (.flag false)
  | some r =>
    insertAudit (deniedRow requestId r.clientName r.secretName resolvedBy now)
    return .flag true

/-- The requests a sweep expires. -/
def expirable (now : DateTime) (r : AccessRequestRow) : Bool := r.state == .pending && decide (r.expiresAt < now)

/-- Expire pending requests past their deadline. -/
def expireStale (now : DateTime) : Tx Reply := do
  let expired ← requestRel.updateWhere (expirable now) (AccessRequestRow.expire now) (AccessRequestRow.key_expire now)
  insertAudits (expired.map (expiredRow now))
  return .count expired.length

/-- Purge the context of requests resolved longer ago than the retention. -/
def purgeRequestContext (retentionSeconds : Int) (now : DateTime) : Tx Reply := do
  let purged ← requestRel.updateWhere
    (fun r => r.state != .pending && r.resolvedAt.any (·.olderThan now retentionSeconds) && r.contextCiphertext.isSome)
    AccessRequestRow.purge AccessRequestRow.key_purge
  return .count purged.length

/-! ## Creation -/

/-- The row of a new request, pending. -/
def NewAccessRequest.row (req : NewAccessRequest) (id : Uuid) (context : Option Sealed) (now : DateTime) :
    AccessRequestRow where
  id := id
  clientName := req.clientName
  secretName := req.secretName
  mechanism := req.mechanism
  constraints := req.constraints
  contextCiphertext := context.map (·.ciphertext)
  contextNonce := context.map (·.nonce)
  contextWrappedDek := context.map (·.wrappedDek)
  contextKekId := context.map (·.kekId)
  state := .pending
  policyNotAfter := req.policyNotAfter
  denyReason := none
  resolvedBy := none
  createdAt := now
  resolvedAt := none
  expiresAt := req.expiresAt
  notifyOnly := false
  idemClient := req.idemClient
  idemKey := req.idemKey
  idemMac := req.idemMac

/-- `ON CONFLICT (idem_client, idem_key)`. -/
def NewAccessRequest.sameIdem (req : NewAccessRequest) (r : AccessRequestRow) : Bool :=
  r.idemClient == req.idemClient && r.idemKey == req.idemKey

/-- The requests of a client that its cap counts: pending, and not yet past their deadline. -/
def Store.pendingOf (s : Store) (clientName : String) (now : DateTime) : Nat :=
  s.requests.rows.countP fun r => r.clientName == clientName && r.resolvable now

/-- The lock and the check of an auto-approval. -/
def lockForResolution : InitialResolution → Tx Unit
  | .approved _ grant _ =>
    onlyIf grant.passthrough.isNone <| requireStoredSecret grant <| .error <| .bail <|
      "the stored secret changed identity during auto-approval; nothing was written " ++
        "— a retry re-evaluates policy"
  | _ => pure ()

/-- The sealed context, sealed under the lock. -/
def sealContext : Option SealFn → Tx (Option Sealed)
  | none => pure none
  | some sealWith => do
    takeKekSharedLock
    let sealed ← sealNow sealWith "sealing request context"
    return some sealed

/-- `UPDATE access_requests SET state = 'approved', .., notify_only = $3`. -/
def AccessRequestRow.autoApprove (resolvedBy : String) (notifyOnly : Bool) (now : DateTime) (r : AccessRequestRow) :
    AccessRequestRow :=
  { r.approve resolvedBy now with notifyOnly := notifyOnly }

theorem AccessRequestRow.key_autoApprove (resolvedBy : String) (notifyOnly : Bool) (now : DateTime)
    (r : AccessRequestRow) : requestKeys.key (r.autoApprove resolvedBy notifyOnly now) = requestKeys.key r := rfl

/-- What policy already decided, in the transaction that created the row. -/
def applyResolution (row : AccessRequestRow) (req : NewAccessRequest) (grantId : Uuid) (now : DateTime) :
    InitialResolution → Tx (AccessRequestRow × Option Uuid)
  | .pending => pure (row, none)
  | .denied reason resolvedBy => do
    let updated ← requestRel.updateWhere (·.id == row.id) (AccessRequestRow.deny reason resolvedBy now)
      (AccessRequestRow.key_deny reason resolvedBy now)
    match updated.head? with
    | none => fail .rowNotFound
    | some row =>
      insertAudit (deniedRow row.id req.clientName req.secretName resolvedBy now)
      return (row, none)
  | .approved resolvedBy grant notifyOnly => do
    let updated ← requestRel.updateWhere (fun r => r.id == row.id && decide (now < grant.notAfter))
      (AccessRequestRow.autoApprove resolvedBy notifyOnly now)
      (AccessRequestRow.key_autoApprove resolvedBy notifyOnly now)
    match updated.head? with
    | none =>
      fail <| .bail <| "auto-approval grant deadline elapsed during insert; nothing was written " ++
        "— a retry re-evaluates policy"
    | some row =>
      insertGrant (grant.row grantId row.id now)
      insertAudit (approvedRow grant row.id grantId resolvedBy none now)
      return (row, some grantId)

/-- Idempotent insert with an app-generated request id; creation and resolution commit together. -/
def insertAccessRequestWithId (id : Uuid) (req : NewAccessRequest) (pendingCap : Option Int)
    (resolution : InitialResolution) (context : Option SealFn) (grantId : Uuid) (now : DateTime) :
    Tx Reply := do
  lockForResolution resolution
  let context ← sealContext context
  onlyIf pendingCap.isSome (Txn.lock (.pendingOf req.clientName) .exclusive)
  let inserted ← requestRel.insertOnConflict (req.row id context now) req.sameIdem (.error .uniqueViolation)
  let s ← Txn.get
  if inserted then
    if pendingCap.any fun cap => decide ((s.pendingOf req.clientName now : Int) > cap) then
      rollback (.insert .pendingCapExceeded)
    else
      insertAudit (createdRow id req now)
      let (row, grant) ← applyResolution (req.row id context now) req grantId now resolution
      return .insert (.created row grant)
  else
    match s.requests.rows.find? req.sameIdem with
    | some row => rollback (.insert (.existing row))
    | none => fail (.bail ("idempotency conflict row vanished for " ++ req.idemClient))

/-! ## What each commit did -/

section Commits
variable {s s' : Store} {r : Reply} {now : DateTime}

/-- A grant without a payload of its own is decided on a row that is there. -/
def GrantParams.Backed (grant : GrantParams) (s : Store) : Prop :=
  grant.passthrough = none → ∃ row ∈ s.secrets.rows, grant.secretId = some row.id ∧ row.name = grant.secretName

theorem exec_requireStoredSecret_eq_ok {grant : GrantParams} {gone : Except DbError Reply} {a : Unit}
    (h : (requireStoredSecret grant gone).exec s = .ok (a, s')) : grant.Backed s ∧ s = s' := by
  simp only [requireStoredSecret, takeSecretSharedLock, Txn.exec_bind_eq_ok, Txn.exec_lock_eq_ok] at h
  obtain ⟨_, _, rfl, same, _, hsame, h⟩ := h
  cases same with
  | false => exact absurd h Txn.exec_abort_eq_ok
  | true =>
      simp only [Bool.not_true, Bool.false_eq_true, if_false, Txn.exec_pure_eq_ok] at h
      obtain ⟨-, rfl⟩ := h
      unfold sameIncarnation at hsame
      split at hsame
      · rename_i id hid
        simp only [exec_secretIncarnationExists, Except.ok.injEq, Prod.mk.injEq, List.any_eq_true, Bool.and_eq_true,
          beq_iff_eq] at hsame
        obtain ⟨⟨row, hrow, rfl, hname⟩, rfl⟩ := hsame
        exact ⟨fun _ => ⟨row, hrow, hid, hname⟩, rfl⟩
      · cases hsame

/-- The check is made exactly for grants without a payload. -/
theorem exec_onlyIf_requireStoredSecret_eq_ok {grant : GrantParams} {gone : Except DbError Reply} {a : Unit}
    (h : (onlyIf grant.passthrough.isNone (requireStoredSecret grant gone)).exec s = .ok (a, s')) :
    grant.Backed s ∧ s = s' := by
  obtain ⟨-, h⟩ | ⟨hp, rfl⟩ := exec_onlyIf_eq_ok.1 h
  · exact exec_requireStoredSecret_eq_ok h
  · refine ⟨?_, rfl⟩
    intro hnone
    rw [hnone] at hp
    cases hp

theorem exec_lockForApproval_eq_ok {grant : GrantParams} {store : Option StoreSecretParams} {a : Unit}
    (h : (lockForApproval grant store).exec s = .ok (a, s')) : (store = none → grant.Backed s) ∧ s = s' := by
  unfold lockForApproval at h
  cases store with
  | none =>
      obtain ⟨hb, rfl⟩ := exec_onlyIf_requireStoredSecret_eq_ok h
      exact ⟨fun _ => hb, rfl⟩
  | some p =>
      refine ⟨fun hnone => absurd hnone (by simp), ?_⟩
      obtain ⟨-, h⟩ | ⟨-, rfl⟩ := exec_onlyIf_eq_ok.1 h
      · exact Txn.exec_lock_eq_ok.1 h
      · rfl

/-- The store with the secret of an approval, if there is one. -/
def Store.withSecret (s : Store) (now : DateTime) (versionId requestId : Uuid) (a : AuditRow) :
    Option (StoreSecretParams × Sealed) → Store
  | none => s
  | some (p, sealed) => { s with
      secrets := s.secrets.insert (p.row true false now)
      versions := s.versions.insert (newVersion versionId p.secretId 1 sealed (some requestId) now)
      audit := s.audit ++ [a] }

theorem exec_storeApproved_eq_ok {requestId versionId : Uuid} {resolvedBy : String}
    {store : Option StoreSecretParams} {u : Unit}
    (h : (storeApproved requestId resolvedBy versionId now store).exec s = .ok (u, s')) :
    ∃ stored a, a.kind = AuditKind.secretCreated ∧ stored.map Prod.fst = store ∧
      (∀ p ∈ stored, s.secrets.Fresh (p.1.row true false now) ∧
        s.versions.Fresh (newVersion versionId p.1.secretId 1 p.2 (some requestId) now)) ∧
      s' = s.withSecret now versionId requestId a stored := by
  cases store with
  | none =>
      simp only [storeApproved, Txn.exec_pure_eq_ok] at h
      obtain ⟨-, rfl⟩ := h
      exact ⟨none, ⟨now, .secretCreated, none, none, none, none, none, none, none, none, none, none, none⟩, rfl, rfl,
        by simp, rfl⟩
  | some p =>
      simp only [storeApproved, insertSecret, Txn.exec_bind_eq_ok, Rel.exec_insertOnConflict_eq_ok] at h
      obtain ⟨sealed, _, hseal, _, _, hins, h⟩ := h
      obtain rfl := exec_sealNow_eq_ok hseal
      obtain ⟨_, rfl, rfl⟩ | ⟨_, hfresh, rfl, rfl⟩ := hins
      · exact absurd h exec_rollback_eq_ok
      · simp only [insertSecretVersion, Bool.not_true, Bool.false_eq_true, if_false, Txn.exec_bind_eq_ok,
          Rel.exec_insertOrFail_eq_ok, exec_insertAudit_eq_ok] at h
        obtain ⟨_, _, ⟨hv, rfl⟩, rfl⟩ := h
        refine ⟨some (p, sealed), _, rfl, rfl, ?_, rfl⟩
        intro q hq
        cases hq
        exact ⟨hfresh, hv⟩

theorem approveRequest_ok {requestId grantId versionId : Uuid} {resolvedBy : String} {grant : GrantParams}
    {store : Option StoreSecretParams}
    (h : (approveRequest requestId resolvedBy grantId grant store versionId now).exec s = .ok (r, s')) :
    ∃ req ∈ s.requests.rows, ∃ stored a detail, approvable requestId grant now req = true ∧
      a.kind = AuditKind.secretCreated ∧ stored.map Prod.fst = store ∧ (store = none → grant.Backed s) ∧
      (∀ p ∈ stored, s.secrets.Fresh (p.1.row true false now) ∧
        s.versions.Fresh (newVersion versionId p.1.secretId 1 p.2 (some requestId) now)) ∧
      s.grants.Fresh (grant.row grantId requestId now) ∧ r = .approve (.approved grantId) ∧
      s' = { s.withSecret now versionId requestId a stored with
        requests := s.requests.update (approvable requestId grant now) (AccessRequestRow.approve resolvedBy now)
          (AccessRequestRow.key_approve resolvedBy now)
        grants := s.grants.insert (grant.row grantId requestId now)
        audit := (s.withSecret now versionId requestId a stored).audit ++
          [approvedRow grant requestId grantId resolvedBy detail now] } := by
  simp only [approveRequest, Txn.exec_bind_eq_ok, takeKekSharedLock, exec_onlyIf_lock_eq_ok,
    Rel.exec_updateWhere_eq_ok] at h
  obtain ⟨_, _, hlock, _, _, rfl, _, _, ⟨rfl, rfl⟩, h⟩ := h
  obtain ⟨hbacked, rfl⟩ := exec_lockForApproval_eq_ok hlock
  split at h
  · exact absurd h exec_rollback_eq_ok
  · rename_i req' hhead
    obtain ⟨req, hreq, rfl⟩ := List.mem_map.1 (List.mem_of_mem_head? hhead)
    rw [List.mem_filter] at hreq
    simp only [insertGrant, Txn.exec_bind_eq_ok, Rel.exec_insertOrFail_eq_ok, exec_insertAudit_eq_ok,
      Txn.exec_pure_eq_ok] at h
    obtain ⟨_, _, hstore, _, _, ⟨hg, rfl⟩, _, _, rfl, rfl, rfl⟩ := h
    obtain ⟨stored, a, ha, hstored, hfresh, rfl⟩ := exec_storeApproved_eq_ok hstore
    refine ⟨req, hreq.1, stored, a, substitution (req.approve resolvedBy now).secretName grant.secretName, hreq.2, ha,
      hstored, hbacked, hfresh, ?_, rfl, ?_⟩
    · cases stored <;> exact hg
    · cases stored <;> rfl

theorem resolveApprove_ok {requestId grantId : Uuid} {resolvedBy : String} {grant : GrantParams}
    (h : (resolveApprove requestId resolvedBy grant grantId now).exec s = .ok (r, s')) :
    ∃ req ∈ s.requests.rows, req.id = requestId ∧ req.resolvable now = true ∧ grant.Backed s ∧
      s.grants.Fresh (grant.row grantId requestId now) ∧ r = .resolved (some grantId) ∧
      s' = { s with
        requests := s.requests.update (fun r => r.id == requestId && r.resolvable now)
          (AccessRequestRow.approve resolvedBy now) (AccessRequestRow.key_approve resolvedBy now)
        grants := s.grants.insert (grant.row grantId requestId now)
        audit := s.audit ++ [approvedRow grant requestId grantId resolvedBy none now] } := by
  simp only [resolveApprove, Txn.exec_bind_eq_ok, Rel.exec_updateWhere_eq_ok] at h
  obtain ⟨_, _, hlock, _, _, ⟨rfl, rfl⟩, h⟩ := h
  obtain ⟨hbacked, rfl⟩ := exec_onlyIf_requireStoredSecret_eq_ok hlock
  split at h
  · exact absurd h exec_rollback_eq_ok
  · rename_i hlen
    rw [List.length_map, Bool.not_eq_true, bne_eq_false_iff_eq] at hlen
    obtain ⟨req, hreq⟩ := List.exists_mem_of_length_pos (hlen ▸ Nat.one_pos)
    simp only [List.mem_filter, Bool.and_eq_true, beq_iff_eq] at hreq
    simp only [insertGrant, Txn.exec_bind_eq_ok, Rel.exec_insertOrFail_eq_ok, exec_insertAudit_eq_ok,
      Txn.exec_pure_eq_ok] at h
    obtain ⟨_, _, ⟨hg, rfl⟩, _, _, rfl, rfl, rfl⟩ := h
    exact ⟨req, hreq.1, hreq.2.1, hreq.2.2, hbacked, hg, rfl, rfl⟩

theorem resolveDeny_ok {requestId : Uuid} {resolvedBy reason : String}
    (h : (resolveDeny requestId resolvedBy reason now).exec s = .ok (r, s')) :
    ∃ req ∈ s.requests.rows, req.id = requestId ∧ req.resolvable now = true ∧ r = .flag true ∧
      s' = { s with
        requests := s.requests.update (fun r => r.id == requestId && r.resolvable now)
          (AccessRequestRow.deny reason resolvedBy now) (AccessRequestRow.key_deny reason resolvedBy now)
        audit := s.audit ++ [deniedRow requestId req.clientName req.secretName resolvedBy now] } := by
  simp only [resolveDeny, Txn.exec_bind_eq_ok, Rel.exec_updateWhere_eq_ok] at h
  obtain ⟨_, _, ⟨rfl, rfl⟩, h⟩ := h
  split at h
  · exact absurd h exec_rollback_eq_ok
  · rename_i req' hhead
    obtain ⟨req, hreq, rfl⟩ := List.mem_map.1 (List.mem_of_mem_head? hhead)
    simp only [List.mem_filter, Bool.and_eq_true, beq_iff_eq] at hreq
    simp only [Txn.exec_bind_eq_ok, exec_insertAudit_eq_ok, Txn.exec_pure_eq_ok] at h
    obtain ⟨_, _, rfl, rfl, rfl⟩ := h
    exact ⟨req, hreq.1, hreq.2.1, hreq.2.2, rfl, rfl⟩

theorem expireStale_ok (h : (expireStale now).exec s = .ok (r, s')) :
    (∃ n, r = .count n) ∧ s' = { s with
      requests := s.requests.update (expirable now) (AccessRequestRow.expire now) (AccessRequestRow.key_expire now)
      audit := s.audit ++
        ((s.requests.rows.filter (expirable now)).map (AccessRequestRow.expire now)).map (expiredRow now) } := by
  simp only [expireStale, Txn.exec_bind_eq_ok, Rel.exec_updateWhere_eq_ok, exec_insertAudits_eq_ok,
    Txn.exec_pure_eq_ok] at h
  obtain ⟨_, _, ⟨rfl, rfl⟩, _, _, rfl, rfl, rfl⟩ := h
  exact ⟨⟨_, rfl⟩, rfl⟩

theorem purgeRequestContext_ok {retentionSeconds : Int}
    (h : (purgeRequestContext retentionSeconds now).exec s = .ok (r, s')) :
    (∃ n, r = .count n) ∧ ∃ p, s' = { s with
      requests := s.requests.update p AccessRequestRow.purge AccessRequestRow.key_purge } := by
  simp only [purgeRequestContext, Txn.exec_bind_eq_ok, Rel.exec_updateWhere_eq_ok, Txn.exec_pure_eq_ok] at h
  obtain ⟨_, _, ⟨_, rfl⟩, rfl, rfl⟩ := h
  exact ⟨⟨_, rfl⟩, _, rfl⟩

/-- The state that policy gave a new row. -/
def InitialResolution.settle (now : DateTime) : InitialResolution → AccessRequestRow → AccessRequestRow
  | .pending, r => r
  | .denied reason resolvedBy, r => r.deny reason resolvedBy now
  | .approved resolvedBy _ notifyOnly, r => r.autoApprove resolvedBy notifyOnly now

/-- The grant that policy minted. -/
def InitialResolution.grant : InitialResolution → Option GrantParams
  | .approved _ grant _ => some grant
  | _ => none

/-- The resolution row of a request created already resolved. -/
def InitialResolution.auditRows (id grantId : Uuid) (req : NewAccessRequest) (now : DateTime) :
    InitialResolution → List AuditRow
  | .pending => []
  | .denied _ resolvedBy => [deniedRow id req.clientName req.secretName resolvedBy now]
  | .approved resolvedBy grant _ => [approvedRow grant id grantId resolvedBy none now]

/-- The store with the grant of a resolution, if there is one. -/
def Store.withGrant (s : Store) (id grantId : Uuid) (now : DateTime) : Option GrantParams → Store
  | none => s
  | some grant => { s with grants := s.grants.insert (grant.row grantId id now) }

theorem exec_lockForResolution_eq_ok {resolution : InitialResolution} {a : Unit}
    (h : (lockForResolution resolution).exec s = .ok (a, s')) :
    (∀ grant ∈ resolution.grant, grant.Backed s) ∧ s = s' := by
  unfold lockForResolution at h
  split at h
  · rename_i grant _
    obtain ⟨hb, rfl⟩ := exec_onlyIf_requireStoredSecret_eq_ok h
    refine ⟨?_, rfl⟩
    intro g hg
    cases hg
    exact hb
  · rename_i hne
    obtain ⟨-, rfl⟩ := Txn.exec_pure_eq_ok.1 h
    refine ⟨?_, rfl⟩
    intro g hg
    unfold InitialResolution.grant at hg
    split at hg
    · exact absurd rfl (hne _ _ _)
    · cases hg

theorem exec_sealContext_eq_ok {context : Option SealFn} {c : Option Sealed}
    (h : (sealContext context).exec s = .ok (c, s')) : s = s' := by
  unfold sealContext at h
  split at h
  · exact (Txn.exec_pure_eq_ok.1 h).2
  · simp only [takeKekSharedLock, Txn.exec_bind_eq_ok, Txn.exec_lock_eq_ok, Txn.exec_pure_eq_ok] at h
    obtain ⟨_, _, rfl, _, _, hseal, -, rfl⟩ := h
    exact exec_sealNow_eq_ok hseal

/-- The resolution of a row that was just inserted. -/
theorem exec_applyResolution_eq_ok {row row' : AccessRequestRow} {req : NewAccessRequest} {grantId : Uuid}
    {gid : Option Uuid} {resolution : InitialResolution} {t : Table requestKeys} (hfresh : t.Fresh row)
    (hs : s.requests = t.insert row)
    (h : (applyResolution row req grantId now resolution).exec s = .ok ((row', gid), s')) :
    (∀ grant ∈ resolution.grant, now < grant.notAfter ∧ s.grants.Fresh (grant.row grantId row.id now)) ∧
      row' = resolution.settle now row ∧
      s' = { s.withGrant row.id grantId now resolution.grant with
        requests := t.insert (resolution.settle now row)
        audit := s.audit ++ resolution.auditRows row.id grantId req now } := by
  have hold : ∀ a ∈ t.rows, (a.id == row.id) = false := by
    intro a ha
    have hc := hfresh a ha
    by_contra hid
    rw [Bool.not_eq_false, beq_iff_eq] at hid
    rw [Keys.pair_clashes.2 (Or.inl hid)] at hc
    cases hc
  unfold applyResolution at h
  split at h
  · obtain ⟨heq, rfl⟩ := Txn.exec_pure_eq_ok.1 h
    cases heq
    refine ⟨by simp [InitialResolution.grant], rfl, ?_⟩
    rw [InitialResolution.settle, ← hs, InitialResolution.auditRows, List.append_nil]
    rfl
  · rename_i reason resolvedBy
    simp only [Txn.exec_bind_eq_ok, Rel.exec_updateWhere_eq_ok] at h
    obtain ⟨_, _, ⟨rfl, rfl⟩, h⟩ := h
    have hupd : (t.insert row).update (·.id == row.id) (AccessRequestRow.deny reason resolvedBy now)
        (AccessRequestRow.key_deny reason resolvedBy now) = t.insert (row.deny reason resolvedBy now) :=
      Table.update_insert hfresh (by simp) hold
    have hrows : s.requests.rows.filter (·.id == row.id) = [row] := by
      rw [hs, Table.insert_rows hfresh, List.filter_append, List.filter_eq_nil_iff.2 (by simpa using hold)]
      simp
    simp only [hrows, List.map_cons, List.map_nil, List.head?_cons, Txn.exec_bind_eq_ok, exec_insertAudit_eq_ok,
      Txn.exec_pure_eq_ok, Prod.mk.injEq] at h
    obtain ⟨_, _, rfl, ⟨rfl, rfl⟩, rfl⟩ := h
    refine ⟨by simp [InitialResolution.grant], rfl, ?_⟩
    rw [hs, hupd]
    rfl
  · rename_i resolvedBy grant notifyOnly
    simp only [Txn.exec_bind_eq_ok, Rel.exec_updateWhere_eq_ok] at h
    obtain ⟨_, _, ⟨rfl, rfl⟩, h⟩ := h
    split at h
    · exact absurd h exec_fail_eq_ok
    · rename_i row'' hhead
      obtain ⟨x, hx, rfl⟩ := List.mem_map.1 (List.mem_of_mem_head? hhead)
      simp only [List.mem_filter, Bool.and_eq_true, beq_iff_eq, decide_eq_true_eq] at hx
      have hxrow : x = row := by
        rw [hs] at hx
        rcases Table.mem_of_mem_insert hx.1 with hmem | rfl
        · have := hold x hmem
          simp [hx.2.1] at this
        · rfl
      subst hxrow
      have hupd : (t.insert x).update (fun r => r.id == x.id && decide (now < grant.notAfter))
          (AccessRequestRow.autoApprove resolvedBy notifyOnly now)
          (AccessRequestRow.key_autoApprove resolvedBy notifyOnly now) =
            t.insert (x.autoApprove resolvedBy notifyOnly now) := by
        refine Table.update_insert hfresh (by simp [hx.2.2]) ?_
        intro a ha
        rw [hold a ha]
        rfl
      simp only [insertGrant, Txn.exec_bind_eq_ok, Rel.exec_insertOrFail_eq_ok, exec_insertAudit_eq_ok,
        Txn.exec_pure_eq_ok, Prod.mk.injEq] at h
      obtain ⟨_, _, ⟨hg, rfl⟩, _, _, rfl, ⟨rfl, rfl⟩, rfl⟩ := h
      refine ⟨?_, rfl, ?_⟩
      · intro g hmem
        cases hmem
        exact ⟨hx.2.2, hg⟩
      · rw [hs, hupd]
        rfl

theorem insertAccessRequestWithId_ok {id grantId : Uuid} {req : NewAccessRequest} {pendingCap : Option Int}
    {resolution : InitialResolution} {context : Option SealFn}
    (h : (insertAccessRequestWithId id req pendingCap resolution context grantId now).exec s = .ok (r, s')) :
    ∃ c gid, s.requests.Fresh (req.row id c now) ∧
      (∀ grant ∈ resolution.grant, grant.Backed s ∧ now < grant.notAfter ∧ s.grants.Fresh (grant.row grantId id now)) ∧
      r = .insert (.created (resolution.settle now (req.row id c now)) gid) ∧
      s' = { s.withGrant id grantId now resolution.grant with
        requests := s.requests.insert (resolution.settle now (req.row id c now))
        audit := s.audit ++ createdRow id req now :: resolution.auditRows id grantId req now } := by
  simp only [insertAccessRequestWithId, Txn.exec_bind_eq_ok, exec_onlyIf_lock_eq_ok,
    Rel.exec_insertOnConflict_eq_ok, Txn.exec_get_eq_ok] at h
  obtain ⟨_, _, hlock, c, _, hseal, _, _, rfl, inserted, _, hins, _, _, ⟨rfl, rfl⟩, h⟩ := h
  obtain ⟨hbacked, rfl⟩ := exec_lockForResolution_eq_ok hlock
  obtain rfl := exec_sealContext_eq_ok hseal
  obtain ⟨_, rfl, rfl⟩ | ⟨_, hfresh, rfl, rfl⟩ := hins
  · simp only [Bool.false_eq_true, if_false] at h
    split at h
    · exact absurd h exec_rollback_eq_ok
    · exact absurd h exec_fail_eq_ok
  · simp only [if_true] at h
    split at h
    · exact absurd h exec_rollback_eq_ok
    · simp only [Txn.exec_bind_eq_ok, exec_insertAudit_eq_ok, Txn.exec_pure_eq_ok] at h
      obtain ⟨_, _, rfl, ⟨row', gid⟩, _, happly, rfl, rfl⟩ := h
      obtain ⟨hg, rfl, rfl⟩ := exec_applyResolution_eq_ok hfresh rfl happly
      refine ⟨c, gid, hfresh, ?_, rfl, ?_⟩
      · intro grant hgrant
        exact ⟨hbacked grant hgrant, hg grant hgrant⟩
      · rw [List.append_assoc]
        cases resolution.grant <;> rfl

end Commits
end Keychute.Db
