import Keychute.Db.Store

/-!
# Grants (`server/src/db/grants.rs`)

* `beginGrantUse` : account one use of a grant (`exec_beginGrantUse`: what it does, by the state it finds);
* `revokeGrant`, `sweepPurgePassthroughs`, `unpinStaleGrantReads` : revocation and the two sweeps.
-/

namespace Keychute.Db
open Keychute.Lib

/-- Where the credential is about to be sent, for the audit row of a proxied call. -/
structure AuditTarget where
  method : String
  origin : String
  path : String

/-- `NOT revoked AND now() < not_after`. -/
def GrantRow.live (g : GrantRow) (now : DateTime) : Bool := !g.revoked && decide (now < g.notAfter)

/-- `max_uses IS NULL OR use_count < max_uses`. -/
def GrantRow.usesLeft (g : GrantRow) : Bool := g.maxUses.all (g.useCount < ·)

/-- The write-ahead audit row of an attempt. -/
def attemptRow (now : DateTime) (kind : AuditKind) (g : GrantRow) (versionId : Option Uuid) (target : Option AuditTarget)
    (detail : Option Json) : AuditRow where
  at_ := now
  kind := kind
  requestId := some g.requestId
  grantId := some g.id
  clientName := some g.clientName
  secretName := some g.secretName
  secretVersionId := versionId
  method := target.map (·.method)
  origin := target.map (·.origin)
  path := target.map (·.path)
  detail := detail

/-- `UPDATE grants SET use_count = use_count + 1 ..`, the replay record and the audit row. -/
def accountUse (grantId : Uuid) (idemKey : Option String) (versionId : Option Uuid) (kind : AuditKind)
    (target : Option AuditTarget) (now : DateTime) : Tx Reply := do
  let updated ← grantRel.updateOrFail (fun g => g.id == grantId && g.live now && g.usesLeft)
    (fun g => if g.useCount = i32Max then some (.error .integerOutOfRange) else none)
    (fun g => { g with useCount := g.useCount + 1 }) (fun _ => rfl)
  match updated.head? with
  | none => rollback (.grantUse .exhausted)
  | some grant =>
    match idemKey with
    | some key =>
      readRel.insertOrFail ⟨grantId, key, versionId, grant.passthroughCiphertext.isSome, now⟩ (.error .uniqueViolation)
    | none => pure ()
    insertAudit (attemptRow now kind grant versionId target none)
    return .grantUse (.firstUse grant)

/-- Atomically account one grant use. -/
def beginGrantUse (grantId : Uuid) (idemKey : Option String) (versionId : Option Uuid) (kind : AuditKind)
    (replayWindowSeconds : Int) (target : Option AuditTarget) (now : DateTime) : Tx Reply := do
  let locked ← grantRel.selectForUpdate (·.id == grantId)
  match locked.head? with
  | none => rollback (.grantUse .notFound)
  | some grant =>
    let s ← Txn.get
    if !(s.grants.rows.find? (·.id == grantId)).any (·.live now) then rollback (.grantUse .expiredOrRevoked)
    else
      let s ← Txn.get
      match idemKey.bind fun key => s.reads.rows.find? fun r => r.grantId == grantId && r.idemKey == key with
      | some prior =>
        if prior.firstReadAt.within now replayWindowSeconds then
          insertAudit (attemptRow now kind grant prior.secretVersionId target (some (.obj [("replay", .bool true)])))
          return .grantUse (.replay grant prior.secretVersionId prior.passthrough)
        else rollback (.grantUse .exhausted)
      | none => accountUse grantId idemKey versionId kind target now

/-- Without its passthrough payload. -/
def GrantRow.purged (g : GrantRow) : GrantRow :=
  { g with passthroughCiphertext := none, passthroughNonce := none, passthroughWrappedDek := none }

/-- Revoked, and its passthrough payload gone. -/
def GrantRow.revoke (g : GrantRow) : GrantRow := { g.purged with revoked := true }

theorem GrantRow.key_purged (g : GrantRow) : grantKeys.key g.purged = grantKeys.key g := rfl

theorem GrantRow.key_revoke (g : GrantRow) : grantKeys.key g.revoke = grantKeys.key g := rfl

/-- Revoke a grant and purge any passthrough payload, with an audit row. -/
def revokeGrant (grantId : Uuid) (actor : String) (now : DateTime) : Tx Reply := do
  let updated ← grantRel.updateWhere (fun g => g.id == grantId && !g.revoked) GrantRow.revoke GrantRow.key_revoke
  match updated.head? with
  | none => rollback (.flag false)
  | some g =>
    insertAudit {
      at_ := now
      kind := .grantRevoked
      requestId := some g.requestId
      grantId := some grantId
      clientName := some g.clientName
      secretName := some g.secretName
      actor := some actor }
    return .flag true

/-- A read of the grant is still within the replay window. -/
def Store.replayOpen (s : Store) (grantId : Uuid) (window : Int) (now : DateTime) : Bool :=
  s.reads.rows.any fun r => r.grantId == grantId && r.firstReadAt.within now window

/-- The condition of the purge sweep: payload present, and revoked, expired, or used up with no replay open. -/
def Store.purgeable (s : Store) (window : Int) (now : DateTime) (g : GrantRow) : Bool :=
  g.passthroughCiphertext.isSome &&
    (g.revoked || decide (g.notAfter < now) || (g.maxUses.any (g.useCount ≥ ·) && !s.replayOpen g.id window now))

/-- Purge the passthrough payloads that nothing can release any more. -/
def sweepPurgePassthroughs (replayWindowSeconds : Int) (now : DateTime) : Tx Reply := do
  let s ← Txn.get
  let purged ← grantRel.updateWhere (s.purgeable replayWindowSeconds now) GrantRow.purged GrantRow.key_purged
  return .count purged.length

/-- The condition of the unpin sweep: the window has closed. -/
def unpinnable (window : Int) (now : DateTime) (r : GrantReadRow) : Bool :=
  r.firstReadAt.olderThan now window && r.secretVersionId.isSome

def GrantReadRow.unpin (r : GrantReadRow) : GrantReadRow := { r with secretVersionId := none }

theorem GrantReadRow.key_unpin (r : GrantReadRow) : readKeys.key r.unpin = readKeys.key r := rfl

/-- Drop the version pin of replay rows whose window has closed; the rows stay. -/
def unpinStaleGrantReads (replayWindowSeconds : Int) (now : DateTime) : Tx Reply := do
  let updated ← readRel.updateWhere (unpinnable replayWindowSeconds now) GrantReadRow.unpin GrantReadRow.key_unpin
  return .count updated.length

/-! ## What each commit did -/

section Commits
variable {s s' : Store} {r : Reply} {now : DateTime}

theorem revokeGrant_ok {grantId : Uuid} {actor : String}
    (h : (revokeGrant grantId actor now).exec s = .ok (r, s')) :
    ∃ a, a.kind = AuditKind.grantRevoked ∧ r = .flag true ∧ s' = { s with
      grants := s.grants.update (fun g => g.id == grantId && !g.revoked) GrantRow.revoke GrantRow.key_revoke
      audit := s.audit ++ [a] } := by
  simp only [revokeGrant, Txn.exec_bind_eq_ok, Rel.exec_updateWhere_eq_ok] at h
  obtain ⟨_, _, ⟨rfl, rfl⟩, h⟩ := h
  split at h
  · exact absurd h exec_rollback_eq_ok
  · simp only [Txn.exec_bind_eq_ok, exec_insertAudit_eq_ok, Txn.exec_pure_eq_ok] at h
    obtain ⟨_, _, rfl, rfl, rfl⟩ := h
    exact ⟨_, rfl, rfl, rfl⟩

theorem sweepPurgePassthroughs_ok {window : Int} (h : (sweepPurgePassthroughs window now).exec s = .ok (r, s')) :
    (∃ n, r = .count n) ∧ s' = { s with
      grants := s.grants.update (s.purgeable window now) GrantRow.purged GrantRow.key_purged } := by
  simp only [sweepPurgePassthroughs, Txn.exec_bind_eq_ok, Txn.exec_get_eq_ok, Rel.exec_updateWhere_eq_ok,
    Txn.exec_pure_eq_ok] at h
  obtain ⟨_, _, ⟨rfl, rfl⟩, _, _, ⟨_, rfl⟩, rfl, rfl⟩ := h
  exact ⟨⟨_, rfl⟩, rfl⟩

theorem unpinStaleGrantReads_ok {window : Int} (h : (unpinStaleGrantReads window now).exec s = .ok (r, s')) :
    (∃ n, r = .count n) ∧ s' = { s with
      reads := s.reads.update (unpinnable window now) GrantReadRow.unpin GrantReadRow.key_unpin } := by
  simp only [unpinStaleGrantReads, Txn.exec_bind_eq_ok, Rel.exec_updateWhere_eq_ok, Txn.exec_pure_eq_ok] at h
  obtain ⟨_, _, ⟨_, rfl⟩, rfl, rfl⟩ := h
  exact ⟨⟨_, rfl⟩, rfl⟩

end Commits

/-! ## Run alone -/

def Store.findGrant (s : Store) (id : Uuid) : Option GrantRow := s.grants.rows.find? (·.id == id)

def Store.findRead (s : Store) (grantId : Uuid) (key : String) : Option GrantReadRow :=
  s.reads.rows.find? fun r => r.grantId == grantId && r.idemKey == key

theorem findGrant_eq_some {s : Store} {id : Uuid} {g : GrantRow} :
    s.findGrant id = some g ↔ g ∈ s.grants.rows ∧ g.id = id := by
  unfold Store.findGrant
  rw [Table.find?_eq_some]
  · simp
  · intro a b ha hb
    rw [Keys.pair_clashes]
    simp only [beq_iff_eq] at ha hb
    exact Or.inl (ha.trans hb.symm)

theorem findRead_eq_some {s : Store} {id : Uuid} {key : String} {r : GrantReadRow} :
    s.findRead id key = some r ↔ r ∈ s.reads.rows ∧ r.grantId = id ∧ r.idemKey = key := by
  unfold Store.findRead
  rw [Table.find?_eq_some]
  · simp
  · intro a b ha hb
    rw [Keys.single_clashes]
    simp only [Bool.and_eq_true, beq_iff_eq] at ha hb
    rw [ha.1, ha.2, hb.1, hb.2]

theorem findGrant_unique {s : Store} {g g' : GrantRow} (hg : g ∈ s.grants.rows) (hg' : g' ∈ s.grants.rows)
    (h : g.id = g'.id) : g = g' := by
  apply Table.eq_of_clash hg hg'
  rw [Keys.pair_clashes]
  exact Or.inl h

/-- A key without a record can get one. -/
theorem fresh_read {s : Store} {id : Uuid} {key : String} (h : s.findRead id key = none) (versionId : Option Uuid)
    (passthrough : Bool) (now : DateTime) : s.reads.Fresh ⟨id, key, versionId, passthrough, now⟩ := by
  intro a ha
  by_contra hc
  rw [Bool.not_eq_false, Keys.single_clashes, Prod.mk.injEq] at hc
  rw [findRead_eq_some.2 ⟨ha, hc⟩] at h
  cases h

/-- One more use on the grant. -/
def GrantRow.bump (g : GrantRow) : GrantRow := { g with useCount := g.useCount + 1 }

/-- The store after a first use of `g`. -/
def Store.afterUse (s : Store) (g : GrantRow) (idemKey : Option String) (versionId : Option Uuid) (row : AuditRow)
    (now : DateTime) : Store where
  clients := s.clients
  secrets := s.secrets
  versions := s.versions
  tags := s.tags
  policies := s.policies
  requests := s.requests
  grants := s.grants.update (·.id == g.id) GrantRow.bump fun _ => rfl
  reads := match idemKey with
    | some key => s.reads.insert ⟨g.id, key, versionId, g.passthroughCiphertext.isSome, now⟩
    | none => s.reads
  audit := s.audit ++ [row]
  activeKek := s.activeKek

theorem grant_id_clash {id : Uuid} (a b : GrantRow) (ha : (a.id == id) = true) (hb : (b.id == id) = true) :
    grantKeys.clashes a b = true := by
  rw [Keys.pair_clashes]
  simp only [beq_iff_eq] at ha hb
  exact Or.inl (ha.trans hb.symm)

theorem exec_accountUse {s : Store} {grantId : Uuid} {g : GrantRow} (hg : s.findGrant grantId = some g)
    {idemKey : Option String} (hkey : idemKey.bind (s.findRead grantId) = none) {now : DateTime}
    (hlive : g.live now = true) (versionId : Option Uuid) (kind : AuditKind) (target : Option AuditTarget) :
    (accountUse grantId idemKey versionId kind target now).exec s =
      if !g.usesLeft then .error (.ok (.grantUse .exhausted))
      else if g.useCount = i32Max then .error (.error .integerOutOfRange)
      else .ok (.grantUse (.firstUse g.bump),
        s.afterUse g idemKey versionId (attemptRow now kind g versionId target none) now) := by
  have hid : g.id = grantId := (findGrant_eq_some.1 hg).2
  have hrows : s.grants.rows.filter (fun x => x.id == grantId && x.live now && x.usesLeft) =
      if g.usesLeft then [g] else [] := by
    have := Table.filter_key_and (@grant_id_clash grantId) hg (fun x => x.live now && x.usesLeft)
    simp only [hlive, Bool.true_and] at this
    simp only [Bool.and_assoc, this]
  unfold accountUse
  rw [Txn.exec_bind, Rel.exec_updateOrFail]
  simp only [hrows]
  cases hu : g.usesLeft with
  | false => simp
  | true =>
      by_cases hmax : g.useCount = i32Max
      · simp [hmax]
      have hupd : s.grants.update (fun x => x.id == grantId && x.live now && x.usesLeft) GrantRow.bump (fun _ => rfl) =
          s.grants.update (·.id == g.id) GrantRow.bump fun _ => rfl := by
        apply Table.update_congr
        intro x hx
        by_cases hxg : x.id = grantId
        · rw [findGrant_unique hx (findGrant_eq_some.1 hg).1 (hxg.trans hid.symm)]
          simp [hid, hlive, hu]
        · rw [hid, beq_false_of_ne hxg]
          rfl
      change s.grants.update _ (fun g => { g with useCount := g.useCount + 1 }) _ = _ at hupd
      simp only [hmax, if_true, if_false, List.findSome?_cons, List.findSome?_nil, List.map_cons, List.map_nil,
        List.head?_cons, hupd]
      cases idemKey with
      | none => simp [Store.afterUse, GrantRow.bump, attemptRow]
      | some key =>
          have hclash : s.reads.rows.any (fun r => readKeys.clashes r
              ⟨grantId, key, versionId, g.passthroughCiphertext.isSome, now⟩) = false := by
            rw [List.any_eq_false]
            intro r hr
            rw [fresh_read hkey _ _ _ r hr]
            exact Bool.false_ne_true
          simp [hclash, Store.afterUse, GrantRow.bump, attemptRow, hid]

/-- One grant use, by what it finds: the grant, its liveness, a prior read under the key, and the uses left. -/
theorem exec_beginGrantUse (s : Store) (grantId : Uuid) (idemKey : Option String) (versionId : Option Uuid)
    (kind : AuditKind) (window : Int) (target : Option AuditTarget) (now : DateTime) :
    (beginGrantUse grantId idemKey versionId kind window target now).exec s =
      match s.findGrant grantId with
      | none => .error (.ok (.grantUse .notFound))
      | some g =>
        if !g.live now then .error (.ok (.grantUse .expiredOrRevoked))
        else
          match idemKey.bind (s.findRead grantId) with
          | some prior =>
            if prior.firstReadAt.within now window then
              .ok (.grantUse (.replay g prior.secretVersionId prior.passthrough),
                { s with audit := s.audit ++ [attemptRow now kind g prior.secretVersionId target
                  (some (.obj [("replay", .bool true)]))] })
            else .error (.ok (.grantUse .exhausted))
          | none =>
            if !g.usesLeft then .error (.ok (.grantUse .exhausted))
            else if g.useCount = i32Max then .error (.error .integerOutOfRange)
            else .ok (.grantUse (.firstUse g.bump),
              s.afterUse g idemKey versionId (attemptRow now kind g versionId target none) now) := by
  unfold beginGrantUse
  rw [Txn.exec_bind, Rel.exec_selectForUpdate]
  simp only [List.head?_filter]
  change _ = match s.findGrant grantId with | _ => _
  have hfind : s.grants.rows.find? (fun g => g.id == grantId) = s.findGrant grantId := rfl
  rw [hfind]
  cases hg : s.findGrant grantId with
  | none => simp
  | some g =>
      simp only [Txn.exec_bind, Txn.exec_get, hfind, hg, Option.any_some]
      cases hlive : g.live now with
      | false => simp
      | true =>
          simp only [Bool.not_true, Bool.false_eq_true, if_false, Txn.exec_bind, Txn.exec_get]
          have hread : (idemKey.bind fun key => s.reads.rows.find? fun r => r.grantId == grantId && r.idemKey == key) =
              idemKey.bind (s.findRead grantId) := rfl
          rw [hread]
          cases hkey : idemKey.bind (s.findRead grantId) with
          | some prior =>
              by_cases hw : prior.firstReadAt.within now window = true <;> simp [hw]
          | none => exact exec_accountUse hg hkey hlive versionId kind target

/-- What a use that commits did: released again under a key that was used before, or accounted one more use. -/
theorem beginGrantUse_ok {s s' : Store} {r : Reply} {grantId : Uuid} {idemKey : Option String}
    {versionId : Option Uuid} {kind : AuditKind} {window : Int} {target : Option AuditTarget} {now : DateTime}
    (h : (beginGrantUse grantId idemKey versionId kind window target now).exec s = .ok (r, s')) :
    ∃ g, s.findGrant grantId = some g ∧ g.live now = true ∧
      ((∃ prior, idemKey.bind (s.findRead grantId) = some prior ∧ prior.firstReadAt.within now window = true ∧
          r = .grantUse (.replay g prior.secretVersionId prior.passthrough) ∧
          s' = { s with audit := s.audit ++ [attemptRow now kind g prior.secretVersionId target
            (some (.obj [("replay", .bool true)]))] }) ∨
        (idemKey.bind (s.findRead grantId) = none ∧ g.usesLeft = true ∧ r = .grantUse (.firstUse g.bump) ∧
          s' = s.afterUse g idemKey versionId (attemptRow now kind g versionId target none) now)) := by
  rw [exec_beginGrantUse] at h
  cases hg : s.findGrant grantId with
  | none => simp [hg] at h
  | some g =>
      simp only [hg] at h
      split at h
      · cases h
      · rename_i hlive
        refine ⟨g, rfl, by simpa using hlive, ?_⟩
        split at h
        · rename_i prior hprior
          split at h
          · rename_i hw
            cases h
            exact Or.inl ⟨prior, hprior, hw, rfl, rfl⟩
          · cases h
        · rename_i hnone
          split at h
          · cases h
          · rename_i hleft
            split at h
            · cases h
            · cases h
              exact Or.inr ⟨hnone, by simpa using hleft, rfl, rfl⟩

/-- A use that does not commit releases nothing. -/
theorem beginGrantUse_error {s : Store} {r : Except DbError Reply} {grantId : Uuid} {idemKey : Option String}
    {versionId : Option Uuid} {kind : AuditKind} {window : Int} {target : Option AuditTarget} {now : DateTime}
    (h : (beginGrantUse grantId idemKey versionId kind window target now).exec s = .error r) :
    r = .ok (.grantUse .notFound) ∨ r = .ok (.grantUse .expiredOrRevoked) ∨ r = .ok (.grantUse .exhausted) ∨
      r = .error .integerOutOfRange := by
  rw [exec_beginGrantUse] at h
  split at h
  · cases h
    exact Or.inl rfl
  · split at h
    · cases h
      exact Or.inr (Or.inl rfl)
    · split at h
      · split at h
        · cases h
        · cases h
          exact Or.inr (Or.inr (Or.inl rfl))
      · split at h
        · cases h
          exact Or.inr (Or.inr (Or.inl rfl))
        · split at h
          · cases h
            exact Or.inr (Or.inr (Or.inr rfl))
          · cases h

end Keychute.Db
