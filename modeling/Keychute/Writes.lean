import Keychute.Lifecycle

/-!
# What the transactions write, and under which locks

* `StoreWrite A op now h f` : `f` is one write of the call `op`, made while the locks `h` are held;
* `txn_within` : every write of every call is one of these.

A property of writes that only needs the locks is proved once for each kind of write, and then holds of every
transaction in flight.
-/

namespace Keychute.Db
open Keychute.Lib

/-- The secret a call would create. -/
def StoreOp.creates (now : DateTime) : StoreOp → Option SecretRow
  | .createSecretWithVersion store _ _ => some (store.row true false now)
  | .createSecretFromClient store _ _ _ => some (store.row false false now)
  | .reconcileOneSecret _ d secretId _ => some (d.row secretId now)
  | .approveRequest _ _ _ _ (some store) _ => some (store.row true false now)
  | _ => none

/-- The secret a call deletes. -/
def StoreOp.deletes : StoreOp → Option Uuid
  | .deleteSecretAudited secretId _ _ => some secretId
  | _ => none

/-- The client a call deposits for. -/
def StoreOp.depositor : StoreOp → Option String
  | .createSecretFromClient _ _ clientName _ => some clientName
  | _ => none

/-- The call creates a request. -/
def StoreOp.asks : StoreOp → Bool
  | .insertAccessRequestWithId _ _ _ _ _ _ => true
  | _ => false

/-- A later state of the same request. -/
structure AccessRequestRow.Resolves (r r' : AccessRequestRow) : Prop where
  id : r'.id = r.id
  clientName : r'.clientName = r.clientName
  idem : r'.idemClient = r.idemClient ∧ r'.idemKey = r.idemKey
  idemMac : r'.idemMac = r.idemMac
  expiresAt : r'.expiresAt = r.expiresAt
  state : r'.state = r.state ∨ r'.state ≠ .pending
  kek : r'.contextKekId = r.contextKekId ∨ r'.contextKekId = none

/-- A payload that this closure sealed, under some key. -/
def Seals (sealWith : SealFn) (sealed : Sealed) : Prop :=
  ∃ kek out, sealWith kek = some out ∧ sealed = { out with kekId := kek }

/-- The version a call stores: its id, where it belongs, and that the call sealed it. -/
def StoreOp.stores (row : SecretVersionRow) : StoreOp → Prop
  | .createSecretWithVersion store versionId _ | .createSecretFromClient store versionId _ _
  | .approveRequest _ _ _ _ (some store) versionId =>
    row.id = versionId ∧ row.secretId = store.secretId ∧ row.version = 1 ∧ Seals store.sealWith row.sealed
  | .rotateSecretVersion secretId _ _ sealAt versionId =>
    row.id = versionId ∧ row.secretId = secretId ∧ Seals (sealAt row.version) row.sealed
  | .reconcileOneSecret keyset d _ versionId =>
    row.id = versionId ∧ Seals (keyset.sealFor row.secretId row.version d.value) row.sealed
  | _ => False

/-- The change a call makes to stored secrets, and the condition it makes it under. -/
def StoreOp.edits (now : DateTime) (p : SecretRow → Bool) (f : SecretRow → SecretRow) : StoreOp → Prop
  | .markSecretVetted secretId reviewedVersion _ => p = vettable secretId reviewedVersion ∧ f = SecretRow.vet now
  | .rotateSecretVersion secretId _ _ _ _ => p = (·.id == secretId) ∧ f = SecretRow.rotate now
  | .updateSecretSettingsAudited secretId t _ => p = (·.id == secretId) ∧ f = t.apply now
  | .reconcileOneSecret _ d _ _ => f = d.adopt now ∨ f = SecretRow.bumpVersion now
  | _ => False

/-- A key id that was read where the KEK lock was held. -/
def ReadUnderLock (A : Held LockKey → Store → Prop) (kek : String) : Prop :=
  ∃ h s, (.kek, .shared) ∈ h ∧ A h s ∧ s.activeKek = kek

inductive StoreWrite (A : Held LockKey → Store → Prop) (op : StoreOp) (now : DateTime) (h : Held LockKey) : (Store → Store) → Prop where
  | audit (rows : List AuditRow) (hat : ∀ a ∈ rows, a.at_ = now)
      (hdep : ∀ a ∈ rows, ∀ c, a.kind = .secretCreated → a.clientName = some c →
        op.depositor = some c ∧ (.depositsOf c, .exclusive) ∈ h)
      (hask : ∀ a ∈ rows, a.kind = .requestCreated → op.asks = true) :
      StoreWrite A op now h fun s => { s with audit := s.audit ++ rows }
  | insertSecret (row : SecretRow) (hrow : op.creates now = some row) (hlock : Rel.Locked h (secretRel.keyLocks row)) :
      StoreWrite A op now h (secretRel.inserting row)
  | updateSecrets (p : SecretRow → Bool) (keys : List LockKey) (f : SecretRow → SecretRow)
      (hf : ∀ r, secretKeys.key (f r) = secretKeys.key r) (hlock : Rel.Locked h keys) (hop : op.edits now p f) :
      StoreWrite A op now h (secretRel.updating p keys f hf)
  | deleteSecrets (p : SecretRow → Bool) (keys : List LockKey) (secretId : Uuid) (hop : op.deletes = some secretId)
      (hp : ∀ r, p r = true → r.id = secretId) (hlock : Rel.Locked h keys) :
      StoreWrite A op now h (secretRel.deleting p keys)
  | insertVersion (row : SecretVersionRow) (hkek : (.kek, .shared) ∈ h) (hread : ReadUnderLock A row.sealed.kekId)
      (hlock : Rel.Locked h (versionRel.keyLocks row)) (hop : op.stores row) :
      StoreWrite A op now h (versionRel.inserting row)
  | deleteVersions (p : SecretVersionRow → Bool) (keys : List LockKey) (secretId : Uuid)
      (hop : op.deletes = some secretId) (hp : ∀ v, p v = true → v.secretId = secretId)
      (hlock : (.secretRow secretId, .exclusive) ∈ h) : StoreWrite A op now h (versionRel.deleting p keys)
  | tags (f : Table tagKeys → Table tagKeys) : StoreWrite A op now h fun s => { s with tags := f s.tags }
  | insertRequest (id : Uuid) (req : NewAccessRequest) (pendingCap : Option Int) (resolution : InitialResolution)
      (context : Option SealFn) (grantId : Uuid) (c : Option Sealed)
      (hop : op = .insertAccessRequestWithId id req pendingCap resolution context grantId)
      (hkek : c ≠ none → (.kek, .shared) ∈ h) (hread : ∀ sealed ∈ c, ReadUnderLock A sealed.kekId)
      (hpend : pendingCap.isSome = true → (.pendingOf req.clientName, .exclusive) ∈ h)
      (hlock : Rel.Locked h (requestRel.keyLocks (req.row id c now))) :
      StoreWrite A op now h (requestRel.inserting (req.row id c now))
  | updateRequests (p : AccessRequestRow → Bool) (keys : List LockKey) (f : AccessRequestRow → AccessRequestRow)
      (hf : ∀ r, requestKeys.key (f r) = requestKeys.key r) (hres : ∀ r, AccessRequestRow.Resolves r (f r)) (hlock : Rel.Locked h keys) :
      StoreWrite A op now h (requestRel.updating p keys f hf)
  | insertGrant (row : GrantRow) (hm : op.mints now = some row) (hlock : Rel.Locked h (grantRel.keyLocks row)) :
      StoreWrite A op now h (grantRel.inserting row)
  | updateGrants (p : GrantRow → Bool) (keys : List LockKey) (f : GrantRow → GrantRow)
      (hf : ∀ g, grantKeys.key (f g) = grantKeys.key g) (hev : ∀ g, GrantRow.Evolves g (f g)) :
      StoreWrite A op now h (grantRel.updating p keys f hf)
  | insertRead (row : GrantReadRow) : StoreWrite A op now h (readRel.inserting row)
  | updateReads (p : GrantReadRow → Bool) (keys : List LockKey) (f : GrantReadRow → GrantReadRow)
      (hf : ∀ r, readKeys.key (f r) = readKeys.key r) : StoreWrite A op now h (readRel.updating p keys f hf)

section Traversal
variable {A : Held LockKey → Store → Prop} {op : StoreOp} {now : DateTime} {h : Held LockKey}
  {G : Held LockKey → (Store → Store) → Prop}

theorem within_insertAudits {rows : List AuditRow} (hG : G h fun s => { s with audit := s.audit ++ rows }) :
    (insertAudits rows).Within A G h := ⟨hG, trivial⟩

theorem within_insertAudit {row : AuditRow} (hG : G h fun s => { s with audit := s.audit ++ [row] }) :
    (insertAudit row).Within A G h := ⟨hG, trivial⟩

theorem within_onlyIf {c : Bool} {x : Tx Unit} (hx : c = true → x.Within A G h) : (onlyIf c x).Within A G h := by
  cases c with
  | true => exact hx rfl
  | false => trivial

/-- After a conditional lock. -/
theorem within_onlyIf_lock_bind {c : Bool} {key : LockKey} {mode : Mode} {β : Type} {f : Unit → Tx β}
    (hf : ∀ h', h ⊆ h' → (c = true → (key, mode) ∈ h') → (f ()).Within A G h') :
    (onlyIf c (Txn.lock key mode) >>= f).Within A G h := by
  cases c with
  | true => exact hf _ (List.subset_cons_self _ _) fun _ => List.mem_cons_self
  | false => exact hf h (List.Subset.refl h) fun hc => nomatch hc

theorem within_sealNow {sealWith : SealFn} {what : String} : (sealNow sealWith what).Within A G h := by
  refine Txn.within_get_bind fun s _ => ?_
  split <;> trivial

/-- A payload sealed under the lock is under a key read there. -/
theorem within_sealNow_bind {sealWith : SealFn} {what : String} {β : Type} {f : Sealed → Tx β}
    (hkek : (.kek, .shared) ∈ h)
    (hf : ∀ sealed, ReadUnderLock A sealed.kekId → Seals sealWith sealed → (f sealed).Within A G h) :
    (sealNow sealWith what >>= f).Within A G h := by
  rw [sealNow, Txn.bind_bind]
  refine Txn.within_get_bind fun s hs => ?_
  split
  · trivial
  · rename_i out hout
    exact hf _ ⟨h, s, hkek, hs, rfl⟩ ⟨s.activeKek, out, hout, rfl⟩

/-- A row no client deposit writes. -/
theorem StoreWrite.log {rows : List AuditRow} (hat : ∀ a ∈ rows, a.at_ = now)
    (hkind : ∀ a ∈ rows, a.kind ≠ .secretCreated ∨ a.clientName = none)
    (hask : ∀ a ∈ rows, a.kind = .requestCreated → op.asks = true) :
    StoreWrite A op now h fun s => { s with audit := s.audit ++ rows } := by
  refine .audit rows hat (fun a ha c hk hc => ?_) hask
  rcases hkind a ha with hne | hnone
  · exact absurd hk hne
  · rw [hnone] at hc
    cases hc

theorem AccessRequestRow.resolves_approve (resolvedBy : String) (r : AccessRequestRow) :
    r.Resolves (r.approve resolvedBy now) :=
  ⟨rfl, rfl, ⟨rfl, rfl⟩, rfl, rfl, Or.inr RequestState.noConfusion, Or.inl rfl⟩

theorem AccessRequestRow.resolves_deny (reason resolvedBy : String) (r : AccessRequestRow) :
    r.Resolves (r.deny reason resolvedBy now) :=
  ⟨rfl, rfl, ⟨rfl, rfl⟩, rfl, rfl, Or.inr RequestState.noConfusion, Or.inl rfl⟩

theorem within_insertTags (hG : ∀ h (f : Table tagKeys → Table tagKeys), G h fun s => { s with tags := f s.tags })
    (secretId : Uuid) (tags : List String) (h : Held LockKey) : (insertTags secretId tags).Within A G h := by
  induction tags generalizing h with
  | nil => trivial
  | cons tag tags ih =>
      refine Txn.within_bind (Rel.within_insertOnConflict fun _ _ _ => ?_) fun _ h' _ => ih h'
      exact hG _ fun t => t.insert ⟨secretId, tag⟩

theorem within_replaceTags (hG : ∀ h (f : Table tagKeys → Table tagKeys), G h fun s => { s with tags := f s.tags })
    (secretId : Uuid) (tags : List String) (h : Held LockKey) : (replaceTags secretId tags).Within A G h := by
  refine Txn.within_bind (Rel.within_deleteWhere fun _ keys _ _ => ?_) fun _ h' _ => within_insertTags hG secretId tags h'
  exact hG _ fun t => t.delete (tagRel.hit (·.secretId == secretId) keys)

theorem within_insertSecretVersion (hG : ∀ h f, StoreWrite A op now h f → G h f) (hkek : (.kek, .shared) ∈ h)
    (row : SecretVersionRow) (hread : ReadUnderLock A row.sealed.kekId) (hop : op.stores row) :
    (insertSecretVersion row).Within A G h :=
  Rel.within_insertOrFail fun _ hh hlock => hG _ _ (.insertVersion row (hh hkek) hread hlock hop)

theorem within_createSecretWithVersion {store : StoreSecretParams} {versionId : Uuid} {actor : String}
    (hG : ∀ h f, StoreWrite A (.createSecretWithVersion store versionId actor) now h f → G h f) :
    (createSecretWithVersion store versionId actor now).Within A G [] := by
  refine Txn.within_lock_bind (within_sealNow_bind List.mem_cons_self fun sealed hread hseal => ?_)
  refine Txn.within_bind (Rel.within_insertOnConflict fun h' _ hl => hG _ _ (.insertSecret _ rfl hl)) fun ins h₂ hh₂ => ?_
  split
  · trivial
  · refine Txn.within_bind (within_insertSecretVersion hG (hh₂ List.mem_cons_self) _ hread ⟨rfl, rfl, rfl, hseal⟩)
      fun _ h₃ _ => ?_
    exact Txn.within_bind (within_insertAudit (hG _ _ (.log (by simp) (by simp) (by simp)))) fun _ _ _ => trivial

theorem within_createSecretFromClient {store : StoreSecretParams} {versionId : Uuid} {clientName : String}
    {rate : DepositRate}
    (hG : ∀ h f, StoreWrite A (.createSecretFromClient store versionId clientName rate) now h f → G h f) :
    (createSecretFromClient store versionId clientName rate now).Within A G [] := by
  refine Txn.within_lock_bind (Txn.within_bind Txn.within_get fun s h₁ hh₁ => ?_)
  split
  · trivial
  · refine Txn.within_lock_bind ?_
    refine Txn.within_bind (Rel.within_insertOnConflict fun h' _ hl => hG _ _ (.insertSecret _ rfl hl))
      fun ins h₂ hh₂ => ?_
    split
    · trivial
    · refine within_sealNow_bind (hh₂ List.mem_cons_self) fun sealed hread hseal => ?_
      refine Txn.within_bind (within_insertSecretVersion hG (hh₂ List.mem_cons_self) _ hread ⟨rfl, rfl, rfl, hseal⟩)
        fun _ h₄ hh₄ => ?_
      have hdep : (LockKey.depositsOf clientName, Mode.exclusive) ∈ h₄ :=
        hh₄ (hh₂ (List.mem_cons_of_mem _ (hh₁ List.mem_cons_self)))
      refine Txn.within_bind (within_insertAudit (hG _ _ ?_)) fun _ _ _ => trivial
      refine .audit _ (by simp [depositRow]) (fun a ha c _ hc => ?_) (by simp [depositRow])
      rw [List.mem_singleton.1 ha] at hc
      cases hc
      exact ⟨rfl, hdep⟩

theorem within_rotateSecretVersion {secretId versionId : Uuid} {secretName actor : String} {sealAt : Int → SealFn}
    (hG : ∀ h f, StoreWrite A (.rotateSecretVersion secretId secretName actor sealAt versionId) now h f → G h f) :
    (rotateSecretVersion secretId secretName actor sealAt versionId now).Within A G [] := by
  refine Txn.within_lock_bind ?_
  refine Txn.within_bind (Rel.within_updateOrFail fun h' keys _ hl => hG _ _ (.updateSecrets _ keys _ _ hl ⟨rfl, rfl⟩))
    fun updated h₁ hh₁ => ?_
  split
  · trivial
  · refine within_sealNow_bind (hh₁ List.mem_cons_self) fun sealed hread hseal => ?_
    refine Txn.within_bind (within_insertSecretVersion hG (hh₁ List.mem_cons_self) _ hread ⟨rfl, rfl, hseal⟩) fun _ h₃ _ => ?_
    exact Txn.within_bind (within_insertAudit (hG _ _ (.log (by simp) (by simp) (by simp)))) fun _ _ _ => trivial

theorem within_markSecretVetted {secretId : Uuid} {reviewedVersion : Int} {actor : String}
    (hG : ∀ h f, StoreWrite A (.markSecretVetted secretId reviewedVersion actor) now h f → G h f) :
    (markSecretVetted secretId reviewedVersion actor now).Within A G [] := by
  refine Txn.within_bind (Rel.within_updateWhere fun h' keys _ hl => hG _ _ (.updateSecrets _ keys _ _ hl ⟨rfl, rfl⟩))
    fun updated h₁ hh₁ => ?_
  split
  · trivial
  · refine Txn.within_bind Txn.within_get fun s h₂ _ => ?_
    split
    · trivial
    · exact Txn.within_bind (within_insertAudit (hG _ _ (.log (by simp) (by simp) (by simp)))) fun _ _ _ => trivial

theorem within_updateSecretSettingsAudited {secretId : Uuid} {t : SecretSettings} {actor : String}
    (hG : ∀ h f, StoreWrite A (.updateSecretSettingsAudited secretId t actor) now h f → G h f) :
    (updateSecretSettingsAudited secretId t actor now).Within A G [] := by
  refine Txn.within_bind (secretRel.within_selectForUpdate _) fun before h₁ hh₁ => ?_
  split
  · trivial
  · split
    · trivial
    · refine Txn.within_bind Txn.within_get fun s h₂ _ => ?_
      refine Txn.within_bind (Rel.within_updateWhere fun h' keys _ hl => hG _ _ (.updateSecrets _ keys _ _ hl ⟨rfl, rfl⟩))
        fun updated h₃ hh₃ => Txn.within_bind (within_replaceTags (fun _ f => hG _ _ (.tags f)) _ _ _) fun _ h₄ _ => ?_
      exact Txn.within_bind (within_insertAudit (hG _ _ (.log (by simp) (by simp) (by simp)))) fun _ _ _ => trivial

theorem within_deleteSecretAudited {secretId : Uuid} {expectedVersion : Int} {actor : String}
    (hG : ∀ h f, StoreWrite A (.deleteSecretAudited secretId expectedVersion actor) now h f → G h f) :
    (deleteSecretAudited secretId expectedVersion actor now).Within A G [] := by
  refine Txn.within_bind Txn.within_get fun s h₁ hh₁ => ?_
  split
  · trivial
  · refine Txn.within_lock_bind (Txn.within_bind Txn.within_get fun s h₂ hh₂ => ?_)
    have hp : ∀ r : SecretRow, (r.id == secretId && r.currentVersion == expectedVersion) = true → r.id = secretId := by
      intro r hr
      rw [Bool.and_eq_true, beq_iff_eq] at hr
      exact hr.1
    refine Rel.within_deleteWhere_bind (fun h' keys _ hl => hG _ _ (.deleteSecrets _ keys secretId rfl hp hl))
      fun deleted h₃ hh₃ hdeleted => ?_
    split
    · trivial
    · rename_i hne
      have hlock : (.secretRow secretId, .exclusive) ∈ h₃ := by
        obtain ⟨r, rest, hrows⟩ := List.exists_cons_of_ne_nil fun hnil => hne (List.isEmpty_iff.2 hnil)
        obtain ⟨hr, hl⟩ := hdeleted r (by rw [hrows]; exact List.mem_cons_self)
        rw [← hp r hr]
        exact hl
      refine Txn.within_bind (Rel.within_deleteWhere fun h' keys hh _ => hG _ _
        (.deleteVersions _ keys secretId rfl (fun v hv => beq_iff_eq.1 hv) (hh hlock))) fun _ h₄ _ => ?_
      refine Txn.within_bind (Rel.within_deleteWhere fun h' keys _ _ => hG _ _
        (.tags fun t => t.delete (tagRel.hit (·.secretId == secretId) keys))) fun _ h₅ _ => ?_
      refine Txn.within_bind (Rel.within_updateWhere fun h' keys _ _ => hG _ _
        (.updateGrants _ keys _ _ GrantRow.Evolves.revoke)) fun revoked h₆ _ => ?_
      refine Txn.within_bind (within_insertAudits (hG _ _ (.log ?_ ?_ ?_))) fun _ h₇ _ => ?_
      · intro a ha
        obtain ⟨g, _, rfl⟩ := List.mem_map.1 ha
        rfl
      · intro a ha
        obtain ⟨g, _, rfl⟩ := List.mem_map.1 ha
        exact Or.inl AuditKind.noConfusion
      · intro a ha hk
        obtain ⟨g, _, rfl⟩ := List.mem_map.1 ha
        cases hk
      · refine Txn.within_bind (within_insertAudit (hG _ _ (.log (by simp [secretDeletedRow]) ?_ ?_))) fun _ _ _ => trivial
        · simp [secretDeletedRow]
        · simp [secretDeletedRow]

theorem within_insertVersion {keyset : Keyset} {versionId secretId : Uuid} {version : Int} {value : Blob}
    (hG : ∀ h f, StoreWrite A op now h f → G h f) (hkek : (.kek, .shared) ∈ h)
    (hop : ∀ sealed, Seals (keyset.sealFor secretId version value) sealed →
      op.stores ⟨versionId, secretId, version, sealed, now, none⟩) :
    (insertVersion keyset versionId secretId version value now).Within A G h := by
  refine within_sealNow_bind hkek fun sealed hread hseal => ?_
  exact within_insertSecretVersion hG hkek _ hread (hop sealed hseal)

theorem within_reconcileOneSecret {keyset : Keyset} {d : DesiredSecret} {secretId versionId : Uuid}
    (hG : ∀ h f, StoreWrite A (.reconcileOneSecret keyset d secretId versionId) now h f → G h f) :
    (reconcileOneSecret keyset d secretId versionId now).Within A G [] := by
  refine Txn.within_lock_bind (Txn.within_bind (secretRel.within_selectForUpdate _) fun existing h₁ hh₁ => ?_)
  have hkek : (LockKey.kek, Mode.shared) ∈ h₁ := hh₁ List.mem_cons_self
  have hlog : ∀ h' a, a.at_ = now → a.clientName = none → a.kind ≠ .requestCreated →
      G h' fun s => { s with audit := s.audit ++ [a] } := by
    intro h' a hat hnone hne
    exact hG _ _ (.log (by simpa using hat) (by simp [hnone]) (by simp [hne]))
  split
  · refine Txn.within_bind (Rel.within_insertOrFail fun h' _ hl => hG _ _ (.insertSecret _ rfl hl)) fun _ h₂ hh₂ => ?_
    refine Txn.within_bind (within_insertVersion hG (hh₂ hkek) fun _ hseal => ⟨rfl, hseal⟩) fun _ h₃ _ => ?_
    refine Txn.within_bind (within_replaceTags (fun _ f => hG _ _ (.tags f)) _ _ _) fun _ h₄ _ => ?_
    exact Txn.within_bind (within_insertAudit (hlog _ _ rfl rfl AuditKind.noConfusion)) fun _ _ _ => trivial
  · refine Txn.within_bind Txn.within_get fun s h₂ hh₂ => ?_
    refine Txn.within_bind (within_onlyIf fun _ => ?_) fun _ h₃ hh₃ => ?_
    · refine Txn.within_bind (Rel.within_updateWhere fun h' keys _ hl => hG _ _ (.updateSecrets _ keys _ _ hl (Or.inl rfl)))
        fun updated h₃ _ => Txn.within_bind (within_replaceTags (fun _ f => hG _ _ (.tags f)) _ _ _) fun _ h₄ _ => ?_
      exact within_insertAudit (hlog _ _ rfl rfl AuditKind.noConfusion)
    refine Txn.within_bind Txn.within_get fun s h₄ hh₄ => ?_
    split
    · trivial
    · refine Txn.within_bind (within_onlyIf fun _ => ?_) fun _ _ _ => trivial
      refine Txn.within_bind (Rel.within_updateOrFail fun h' keys _ hl => hG _ _ (.updateSecrets _ keys _ _ hl (Or.inr rfl)))
        fun updated h₅ hh₅ => ?_
      split
      · trivial
      · refine Txn.within_bind (within_insertVersion hG (hh₅ (hh₄ (hh₃ (hh₂ hkek)))) fun _ hseal => ⟨rfl, hseal⟩) fun _ h₆ _ => ?_
        exact within_insertAudit (hlog _ _ rfl rfl AuditKind.noConfusion)

theorem within_beginGrantUse {grantId : Uuid} {idemKey : Option String} {versionId : Option Uuid} {kind : AuditKind}
    {window : Int} {target : Option AuditTarget}
    (hop : (StoreOp.beginGrantUse grantId idemKey versionId kind target).attempts = true)
    (hG : ∀ h f, StoreWrite A (.beginGrantUse grantId idemKey versionId kind target) now h f → G h f) :
    (beginGrantUse grantId idemKey versionId kind window target now).Within A G [] := by
  have hkind : kind ≠ .secretCreated ∧ kind ≠ .requestCreated := by
    constructor <;> rintro rfl <;> cases hop
  have hlog : ∀ h' g v d, G h' fun s => { s with audit := s.audit ++ [attemptRow now kind g v target d] } := by
    intro h' g v d
    exact hG _ _ (.log (by simp [attemptRow]) (by simp [attemptRow, hkind.1]) (by simp [attemptRow, hkind.2]))
  refine Txn.within_bind (grantRel.within_selectForUpdate _) fun locked h₁ _ => ?_
  split
  · trivial
  · refine Txn.within_bind Txn.within_get fun s h₂ _ => ?_
    split
    · trivial
    · refine Txn.within_bind Txn.within_get fun s h₃ _ => ?_
      split
      · split
        · exact Txn.within_bind (within_insertAudit (hlog _ _ _ _)) fun _ _ _ => trivial
        · trivial
      · refine Txn.within_bind (Rel.within_updateOrFail fun h' keys _ _ => hG _ _
          (.updateGrants _ keys _ _ GrantRow.Evolves.bump)) fun updated h₄ _ => ?_
        split
        · trivial
        · split
          · refine Txn.within_bind (Rel.within_insertOrFail fun h' _ _ => hG _ _ (.insertRead _)) fun _ h₅ _ => ?_
            exact Txn.within_bind (within_insertAudit (hlog _ _ _ _)) fun _ _ _ => trivial
          · exact Txn.within_bind (within_insertAudit (hlog _ _ _ _)) fun _ _ _ => trivial

theorem within_revokeGrant {grantId : Uuid} {actor : String}
    (hG : ∀ h f, StoreWrite A (.revokeGrant grantId actor) now h f → G h f) :
    (revokeGrant grantId actor now).Within A G [] := by
  refine Txn.within_bind (Rel.within_updateWhere fun h' keys _ _ => hG _ _
    (.updateGrants _ keys _ _ GrantRow.Evolves.revoke)) fun updated h₁ _ => ?_
  split
  · trivial
  · exact Txn.within_bind (within_insertAudit (hG _ _ (.log (by simp) (by simp) (by simp)))) fun _ _ _ => trivial

theorem within_requireStoredSecret {grant : GrantParams} {gone : Except DbError Reply} :
    (requireStoredSecret grant gone).Within A G h := by
  refine Txn.within_lock_bind (Txn.within_bind ?_ fun same h' _ => ?_)
  · unfold sameIncarnation
    split
    · exact Txn.within_bind Txn.within_get fun _ _ _ => trivial
    · trivial
  · split <;> trivial

theorem within_approveRequest {requestId grantId versionId : Uuid} {resolvedBy : String} {grant : GrantParams}
    {store : Option StoreSecretParams}
    (hG : ∀ h f, StoreWrite A (.approveRequest requestId resolvedBy grantId grant store versionId) now h f → G h f) :
    (approveRequest requestId resolvedBy grantId grant store versionId now).Within A G [] := by
  refine Txn.within_bind (within_onlyIf fun _ => ?_) fun _ h₁ _ => within_onlyIf_lock_bind fun h₂ _ hkek => ?_
  · split
    · exact within_requireStoredSecret
    · trivial
  refine Txn.within_bind (Rel.within_updateWhere fun h' keys _ hl => hG _ _
    (.updateRequests _ keys _ _ (AccessRequestRow.resolves_approve resolvedBy) hl)) fun updated h₃ hh₃ => ?_
  split
  · trivial
  · refine Txn.within_bind ?_ fun _ h₄ _ => ?_
    · cases store with
      | none => trivial
      | some p =>
          refine within_sealNow_bind (hh₃ (hkek rfl)) fun sealed hread hseal => ?_
          refine Txn.within_bind (Rel.within_insertOnConflict fun h' _ hl => hG _ _ (.insertSecret _ rfl hl))
            fun ins h₅ hh₅ => ?_
          split
          · trivial
          · refine Txn.within_bind (within_insertSecretVersion hG (hh₅ (hh₃ (hkek rfl))) _ hread ⟨rfl, rfl, rfl, hseal⟩)
              fun _ h₆ _ => ?_
            exact within_insertAudit (hG _ _ (.log (by simp) (by simp) (by simp)))
    · refine Txn.within_bind (Rel.within_insertOrFail fun h' _ hl => hG _ _ (.insertGrant _ rfl hl)) fun _ h₅ _ => ?_
      exact Txn.within_bind (within_insertAudit (hG _ _ (.log (by simp [approvedRow]) (by simp [approvedRow]) (by simp [approvedRow]))))
        fun _ _ _ => trivial

theorem within_resolveApprove {requestId grantId : Uuid} {resolvedBy : String} {grant : GrantParams}
    (hG : ∀ h f, StoreWrite A (.resolveApprove requestId resolvedBy grant grantId) now h f → G h f) :
    (resolveApprove requestId resolvedBy grant grantId now).Within A G [] := by
  refine Txn.within_bind (within_onlyIf fun _ => within_requireStoredSecret) fun _ h₁ _ => ?_
  refine Txn.within_bind (Rel.within_updateWhere fun h' keys _ hl => hG _ _
    (.updateRequests _ keys _ _ (AccessRequestRow.resolves_approve resolvedBy) hl)) fun updated h₂ _ => ?_
  split
  · trivial
  · refine Txn.within_bind (Rel.within_insertOrFail fun h' _ hl => hG _ _ (.insertGrant _ rfl hl)) fun _ h₃ _ => ?_
    exact Txn.within_bind (within_insertAudit (hG _ _ (.log (by simp [approvedRow]) (by simp [approvedRow]) (by simp [approvedRow]))))
      fun _ _ _ => trivial

theorem within_resolveDeny {requestId : Uuid} {resolvedBy reason : String}
    (hG : ∀ h f, StoreWrite A (.resolveDeny requestId resolvedBy reason) now h f → G h f) :
    (resolveDeny requestId resolvedBy reason now).Within A G [] := by
  refine Txn.within_bind (Rel.within_updateWhere fun h' keys _ hl => hG _ _
    (.updateRequests _ keys _ _ (AccessRequestRow.resolves_deny reason resolvedBy) hl)) fun updated h₁ _ => ?_
  split
  · trivial
  · exact Txn.within_bind (within_insertAudit (hG _ _ (.log (by simp [deniedRow]) (by simp [deniedRow]) (by simp [deniedRow]))))
      fun _ _ _ => trivial

theorem within_expireStale (hG : ∀ h f, StoreWrite A .expireStale now h f → G h f) : (expireStale now).Within A G [] := by
  refine Txn.within_bind (Rel.within_updateWhere fun h' keys _ hl => hG _ _ (.updateRequests _ keys _ _ ?_ hl))
    fun expired h₁ _ => ?_
  · intro r
    exact ⟨rfl, rfl, ⟨rfl, rfl⟩, rfl, rfl, Or.inr RequestState.noConfusion, Or.inl rfl⟩
  · refine Txn.within_bind (within_insertAudits (hG _ _ (.log ?_ ?_ ?_))) fun _ _ _ => trivial
    · intro a ha
      obtain ⟨r, _, rfl⟩ := List.mem_map.1 ha
      rfl
    · intro a ha
      obtain ⟨r, _, rfl⟩ := List.mem_map.1 ha
      exact Or.inl AuditKind.noConfusion
    · intro a ha hk
      obtain ⟨r, _, rfl⟩ := List.mem_map.1 ha
      cases hk

theorem within_purgeRequestContext {retentionSeconds : Int}
    (hG : ∀ h f, StoreWrite A (.purgeRequestContext retentionSeconds) now h f → G h f) :
    (purgeRequestContext retentionSeconds now).Within A G [] := by
  refine Txn.within_bind (Rel.within_updateWhere fun h' keys _ hl => hG _ _ (.updateRequests _ keys _ _ ?_ hl))
    fun _ _ _ => trivial
  intro r
  exact ⟨rfl, rfl, ⟨rfl, rfl⟩, rfl, rfl, Or.inl rfl, Or.inr rfl⟩

theorem within_applyResolution {id grantId : Uuid} {req : NewAccessRequest} {pendingCap : Option Int}
    {resolution : InitialResolution} {context : Option SealFn} {row : AccessRequestRow} (hrow : row.id = id)
    (hG : ∀ h f, StoreWrite A (.insertAccessRequestWithId id req pendingCap resolution context grantId) now h f → G h f) :
    (applyResolution row req grantId now resolution).Within A G h := by
  cases resolution with
  | pending => trivial
  | denied reason resolvedBy =>
      refine Txn.within_bind (Rel.within_updateWhere fun h' keys _ hl => hG _ _
        (.updateRequests _ keys _ _ (AccessRequestRow.resolves_deny reason resolvedBy) hl)) fun updated h₁ _ => ?_
      split
      · trivial
      · exact Txn.within_bind (within_insertAudit (hG _ _ (.log (by simp [deniedRow]) (by simp [deniedRow]) (by simp [deniedRow]))))
          fun _ _ _ => trivial
  | approved resolvedBy grant notifyOnly =>
      refine Txn.within_bind_returns (Rel.within_updateWhere fun h' keys _ hl => hG _ _
        (.updateRequests _ keys _ _ ?_ hl)) (requestRel.returns_updateWhere _ _ _) fun updated h₁ hupd _ => ?_
      · intro r
        exact ⟨rfl, rfl, ⟨rfl, rfl⟩, rfl, rfl, Or.inr RequestState.noConfusion, Or.inl rfl⟩
      split
      · trivial
      · rename_i row' hhead
        -- the row returned is the one just inserted, so the grant is for this request
        have hid : row'.id = id := by
          obtain ⟨r, hr, rfl⟩ := hupd row' (List.mem_of_mem_head? hhead)
          rw [Bool.and_eq_true, beq_iff_eq] at hr
          exact hr.1.trans hrow
        rw [hid]
        refine Txn.within_bind (Rel.within_insertOrFail fun h' _ hl => hG _ _ (.insertGrant _ rfl hl)) fun _ h₂ _ => ?_
        exact Txn.within_bind (within_insertAudit (hG _ _ (.log (by simp [approvedRow]) (by simp [approvedRow]) (by simp [approvedRow]))))
          fun _ _ _ => trivial

theorem within_lockForResolution {resolution : InitialResolution} : (lockForResolution resolution).Within A G h := by
  unfold lockForResolution
  split
  · exact within_onlyIf fun _ => within_requireStoredSecret
  · trivial

/-- A context is sealed only under the lock. -/
theorem within_sealContext_bind {context : Option SealFn} {β : Type} {f : Option Sealed → Tx β}
    (hf : ∀ c h', h ⊆ h' → (c ≠ none → (.kek, .shared) ∈ h') → (∀ sealed ∈ c, ReadUnderLock A sealed.kekId) →
      (f c).Within A G h') : (sealContext context >>= f).Within A G h := by
  cases context with
  | none => exact hf none h (List.Subset.refl h) (fun hc => absurd rfl hc) (by simp)
  | some sealWith =>
      rw [sealContext, takeKekSharedLock, Txn.bind_bind]
      refine Txn.within_lock_bind ?_
      rw [Txn.bind_bind]
      refine within_sealNow_bind List.mem_cons_self fun sealed hread hseal => ?_
      refine hf (some sealed) _ (List.subset_cons_self _ _) (fun _ => List.mem_cons_self) ?_
      intro sealed' hs
      cases hs
      exact hread

theorem within_insertAccessRequestWithId {id grantId : Uuid} {req : NewAccessRequest} {pendingCap : Option Int}
    {resolution : InitialResolution} {context : Option SealFn}
    (hG : ∀ h f, StoreWrite A (.insertAccessRequestWithId id req pendingCap resolution context grantId) now h f → G h f) :
    (insertAccessRequestWithId id req pendingCap resolution context grantId now).Within A G [] := by
  refine Txn.within_bind within_lockForResolution fun _ h₁ _ => within_sealContext_bind fun c h₂ _ hkek hread => ?_
  refine within_onlyIf_lock_bind fun h₃ hh₃ hpend => ?_
  refine Txn.within_bind (Rel.within_insertOnConflict fun h' hh hl => hG _ _ (.insertRequest id req pendingCap resolution
    context grantId c rfl (fun hc => hh (hh₃ (hkek hc))) hread (fun hp => hh (hpend hp)) hl))
    fun ins h₄ hh₄ => Txn.within_bind Txn.within_get fun s h₅ _ => ?_
  split
  · split
    · trivial
    · refine Txn.within_bind (within_insertAudit (hG _ _ (.log (by simp [createdRow]) (by simp [createdRow])
        fun _ _ _ => rfl)))
        fun _ h₆ _ => Txn.within_bind (within_applyResolution rfl hG) fun _ _ _ => trivial
  · split <;> trivial

/-- Every write of every call. -/
theorem txn_within {window : Int} (hop : op.attempts = true) (hG : ∀ h f, StoreWrite A op now h f → G h f) :
    (op.txn window now).Within A G [] := by
  cases op with
  | beginGrantUse grantId idemKey versionId kind target => exact within_beginGrantUse hop hG
  | revokeGrant grantId actor => exact within_revokeGrant hG
  | sweepPurgePassthroughs =>
      refine Txn.within_bind Txn.within_get fun s h₁ _ => Txn.within_bind (Rel.within_updateWhere fun h' keys _ _ =>
        hG _ _ (.updateGrants _ keys _ _ GrantRow.Evolves.purged)) fun _ _ _ => trivial
  | unpinStaleGrantReads =>
      exact Txn.within_bind (Rel.within_updateWhere fun h' keys _ _ => hG _ _ (.updateReads _ keys _ _))
        fun _ _ _ => trivial
  | createSecretWithVersion store versionId actor => exact within_createSecretWithVersion hG
  | createSecretFromClient store versionId clientName rate => exact within_createSecretFromClient hG
  | markSecretVetted secretId reviewedVersion actor => exact within_markSecretVetted hG
  | rotateSecretVersion secretId secretName actor sealAt versionId => exact within_rotateSecretVersion hG
  | updateSecretSettingsAudited secretId settings actor => exact within_updateSecretSettingsAudited hG
  | deleteSecretAudited secretId expectedVersion actor => exact within_deleteSecretAudited hG
  | reconcileOneSecret keyset d secretId versionId => exact within_reconcileOneSecret hG
  | insertAccessRequestWithId id req pendingCap resolution context grantId => exact within_insertAccessRequestWithId hG
  | approveRequest requestId resolvedBy grantId grant store versionId => exact within_approveRequest hG
  | resolveApprove requestId resolvedBy grant grantId => exact within_resolveApprove hG
  | resolveDeny requestId resolvedBy reason => exact within_resolveDeny hG
  | expireStale => exact within_expireStale hG
  | purgeRequestContext retentionSeconds => exact within_purgeRequestContext hG

end Traversal
end Keychute.Db
