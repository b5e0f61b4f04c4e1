import Keychute.Lib.Locks
import Keychute.Retirement

/-!
# The order of the advisory locks

A transaction takes the lock of a secret's name first, then the deposit lock of a client, then the KEK lock, then the
pending lock of a client, each at most once and each only where its branch needs it (`climbs_txn`). With such an order
no transactions can wait for each other in a circle (`advisory_locks_acyclic`), whatever the queues look like.
-/

namespace Keychute.Db
open Keychute.Lib Txn

/-- The advisory locks, in the order in which they are taken; the locks of rows and of unique keys are not among
them. -/
def LockKey.rank : LockKey → Option ℕ
  | .secret _ => some 0
  | .depositsOf _ => some 1
  | .kek => some 2
  | .pendingOf _ => some 3
  | _ => none

theorem unranked_secretRel : secretRel.Unranked LockKey.rank :=
  ⟨fun _ => rfl, fun _ => List.forall_mem_cons.2 ⟨rfl, List.forall_mem_singleton.2 rfl⟩⟩

theorem unranked_versionRel : versionRel.Unranked LockKey.rank :=
  ⟨fun _ => rfl, fun _ => List.forall_mem_cons.2 ⟨rfl, List.forall_mem_singleton.2 rfl⟩⟩

theorem unranked_tagRel : tagRel.Unranked LockKey.rank :=
  ⟨fun _ => rfl, fun _ => List.forall_mem_singleton.2 rfl⟩

theorem unranked_requestRel : requestRel.Unranked LockKey.rank :=
  ⟨fun _ => rfl, fun _ => List.forall_mem_cons.2 ⟨rfl, List.forall_mem_singleton.2 rfl⟩⟩

theorem unranked_grantRel : grantRel.Unranked LockKey.rank :=
  ⟨fun _ => rfl, fun _ => List.forall_mem_cons.2 ⟨rfl, List.forall_mem_singleton.2 rfl⟩⟩

theorem unranked_readRel : readRel.Unranked LockKey.rank :=
  ⟨fun _ => rfl, fun _ => List.forall_mem_singleton.2 rfl⟩

/-! ## Parts that take no advisory lock -/

section Flat

theorem flat_insertAudit (row : AuditRow) : (insertAudit row).Flat LockKey.rank := trivial

theorem flat_insertAudits (rows : List AuditRow) : (insertAudits rows).Flat LockKey.rank := trivial

theorem flat_onlyIf {c : Bool} {x : Tx Unit} (hx : x.Flat LockKey.rank) : (onlyIf c x).Flat LockKey.rank := by
  cases c with
  | true => exact hx
  | false => trivial

theorem flat_sealNow (sealWith : SealFn) (what : String) : (sealNow sealWith what).Flat LockKey.rank := by
  refine flat_bind flat_get fun s => ?_
  split <;> trivial

theorem flat_insertSecret (row : SecretRow) : (insertSecret row).Flat LockKey.rank :=
  unranked_secretRel.flat_insertOnConflict _ _ _

theorem flat_insertSecretVersion (row : SecretVersionRow) : (insertSecretVersion row).Flat LockKey.rank :=
  unranked_versionRel.flat_insertOrFail _ _

theorem flat_insertGrant (row : GrantRow) : (insertGrant row).Flat LockKey.rank :=
  unranked_grantRel.flat_insertOrFail _ _

theorem flat_insertTags (secretId : Uuid) (tags : List String) : (insertTags secretId tags).Flat LockKey.rank := by
  induction tags with
  | nil => trivial
  | cons tag tags ih => exact flat_bind (unranked_tagRel.flat_insertOnConflict _ _ _) fun _ => ih

theorem flat_replaceTags (secretId : Uuid) (tags : List String) : (replaceTags secretId tags).Flat LockKey.rank :=
  flat_bind (unranked_tagRel.flat_deleteWhere _) fun _ => flat_insertTags _ _

theorem flat_insertVersion (keyset : Keyset) (versionId secretId : Uuid) (version : Int) (value : Blob) (now : DateTime) :
    (insertVersion keyset versionId secretId version value now).Flat LockKey.rank :=
  flat_bind (flat_sealNow _ _) fun _ => flat_insertSecretVersion _

theorem flat_adoptSecret (d : DesiredSecret) (row : SecretRow) (now : DateTime) :
    (adoptSecret d row now).Flat LockKey.rank :=
  flat_bind (unranked_secretRel.flat_updateWhere _ _ _) fun _ =>
    flat_bind (flat_replaceTags _ _) fun _ => flat_insertAudit _

theorem flat_provisionSecret (keyset : Keyset) (d : DesiredSecret) (secretId versionId : Uuid) (now : DateTime) :
    (provisionSecret keyset d secretId versionId now).Flat LockKey.rank := by
  refine flat_bind (unranked_secretRel.flat_insertOrFail _ _) fun _ => ?_
  refine flat_bind (flat_insertVersion _ _ _ _ _ _) fun _ => flat_bind (flat_replaceTags _ _) fun _ => ?_
  exact flat_bind (flat_insertAudit _) fun _ => trivial

theorem flat_provisionVersion (keyset : Keyset) (d : DesiredSecret) (row : SecretRow) (versionId : Uuid)
    (now : DateTime) : (provisionVersion keyset d row versionId now).Flat LockKey.rank := by
  refine flat_bind (unranked_secretRel.flat_updateOrFail _ _ _ _) fun _ => ?_
  split
  · trivial
  · exact flat_bind (flat_insertVersion _ _ _ _ _ _) fun _ => flat_insertAudit _

theorem flat_storeApproved (requestId : Uuid) (resolvedBy : String) (versionId : Uuid) (now : DateTime)
    (store : Option StoreSecretParams) : (storeApproved requestId resolvedBy versionId now store).Flat LockKey.rank := by
  cases store with
  | none => trivial
  | some p =>
      refine flat_bind (flat_sealNow _ _) fun _ => flat_bind (flat_insertSecret _) fun _ => ?_
      split
      · trivial
      · exact flat_bind (flat_insertSecretVersion _) fun _ => flat_insertAudit _

theorem flat_applyResolution (row : AccessRequestRow) (req : NewAccessRequest) (grantId : Uuid) (now : DateTime)
    (resolution : InitialResolution) : (applyResolution row req grantId now resolution).Flat LockKey.rank := by
  cases resolution with
  | pending => trivial
  | denied reason resolvedBy =>
      refine flat_bind (unranked_requestRel.flat_updateWhere _ _ _) fun _ => ?_
      split
      · trivial
      · exact flat_bind (flat_insertAudit _) fun _ => trivial
  | approved resolvedBy grant notifyOnly =>
      refine flat_bind (unranked_requestRel.flat_updateWhere _ _ _) fun _ => ?_
      split
      · trivial
      · exact flat_bind (flat_insertGrant _) fun _ => flat_bind (flat_insertAudit _) fun _ => trivial

theorem flat_sameIncarnation (grant : GrantParams) : (sameIncarnation grant).Flat LockKey.rank := by
  unfold sameIncarnation
  split
  · exact flat_bind flat_get fun _ => trivial
  · trivial

theorem flat_beginGrantUse (grantId : Uuid) (idemKey : Option String) (versionId : Option Uuid) (kind : AuditKind)
    (window : Int) (target : Option AuditTarget) (now : DateTime) :
    (beginGrantUse grantId idemKey versionId kind window target now).Flat LockKey.rank := by
  refine flat_bind (unranked_grantRel.flat_selectForUpdate _) fun _ => ?_
  split
  · trivial
  · refine flat_bind flat_get fun _ => ?_
    split
    · trivial
    · refine flat_bind flat_get fun _ => ?_
      split
      · split
        · exact flat_bind (flat_insertAudit _) fun _ => trivial
        · trivial
      · refine flat_bind (unranked_grantRel.flat_updateOrFail _ _ _ _) fun _ => ?_
        split
        · trivial
        · split
          · exact flat_bind (unranked_readRel.flat_insertOrFail _ _) fun _ =>
              flat_bind (flat_insertAudit _) fun _ => trivial
          · exact flat_bind (flat_insertAudit _) fun _ => trivial

end Flat

/-! ## Every transaction climbs -/

section Climbs
variable {β : Type} {n m : ℕ} {now : DateTime}

/-- A lock taken only where it is needed. -/
theorem climbs_onlyIf_lock_bind {c : Bool} {key : LockKey} {mode : Mode} {r : ℕ} {f : Unit → Tx β}
    (hkey : key.rank = some r) (hn : n ≤ r) (hm : r < m) (hf : (f ()).Climbs LockKey.rank (r + 1) m) :
    (onlyIf c (Txn.lock key mode) >>= f).Climbs LockKey.rank n m := by
  cases c with
  | true => exact climbs_lock_bind hkey hn hm hf
  | false => exact hf.mono (hn.trans (Nat.le_succ r)) (le_refl _)

theorem climbs_kek_bind {f : Unit → Tx β} (hf : (f ()).Climbs LockKey.rank 3 4) (hn : n ≤ 2) :
    (takeKekSharedLock >>= f).Climbs LockKey.rank n 4 :=
  climbs_lock_bind rfl hn (by decide) hf

theorem climbs_requireStoredSecret_bind {grant : GrantParams} {gone : Except DbError Reply} {f : Unit → Tx β}
    (hf : (f ()).Climbs LockKey.rank 1 4) : (requireStoredSecret grant gone >>= f).Climbs LockKey.rank 0 4 := by
  rw [requireStoredSecret, takeSecretSharedLock, bind_bind]
  refine climbs_lock_bind rfl (le_refl _) (by decide) ?_
  rw [bind_bind]
  refine climbs_bind_flat (flat_sameIncarnation grant) fun same => ?_
  split
  · trivial
  · exact hf

theorem climbs_sealContext_bind {context : Option SealFn} {f : Option Sealed → Tx β}
    (hf : ∀ c, (f c).Climbs LockKey.rank 3 4) : (sealContext context >>= f).Climbs LockKey.rank 1 4 := by
  cases context with
  | none => exact (hf none).mono (by decide) (le_refl _)
  | some sealWith =>
      rw [sealContext, bind_bind]
      refine climbs_kek_bind ?_ (by decide)
      rw [bind_bind]
      exact climbs_bind_flat (flat_sealNow _ _) fun sealed => hf (some sealed)

theorem climbs_createSecretFromClient (store : StoreSecretParams) (versionId : Uuid) (clientName : String)
    (rate : DepositRate) : (createSecretFromClient store versionId clientName rate now).Climbs LockKey.rank 0 4 := by
  refine climbs_lock_bind (r := 1) rfl (by decide) (by decide) (climbs_bind_flat flat_get fun s => ?_)
  split
  · trivial
  · refine climbs_kek_bind (climbs_bind_flat (flat_insertSecret _) fun _ => ?_) (by decide)
    split
    · trivial
    · refine climbs_bind_flat (flat_sealNow _ _) fun _ => climbs_bind_flat (flat_insertSecretVersion _) fun _ => ?_
      exact climbs_bind_flat (flat_insertAudit _) fun _ => trivial

theorem climbs_createSecretWithVersion (store : StoreSecretParams) (versionId : Uuid) (actor : String) :
    (createSecretWithVersion store versionId actor now).Climbs LockKey.rank 0 4 := by
  refine climbs_kek_bind (climbs_bind_flat (flat_sealNow _ _) fun _ => ?_) (by decide)
  refine climbs_bind_flat (flat_insertSecret _) fun _ => ?_
  split
  · trivial
  · exact climbs_bind_flat (flat_insertSecretVersion _) fun _ => climbs_bind_flat (flat_insertAudit _) fun _ => trivial

theorem climbs_rotateSecretVersion (secretId versionId : Uuid) (secretName actor : String) (sealAt : Int → SealFn) :
    (rotateSecretVersion secretId secretName actor sealAt versionId now).Climbs LockKey.rank 0 4 := by
  refine climbs_kek_bind (climbs_bind_flat (unranked_secretRel.flat_updateOrFail _ _ _ _) fun _ => ?_) (by decide)
  split
  · trivial
  · refine climbs_bind_flat (flat_sealNow _ _) fun _ => climbs_bind_flat (flat_insertSecretVersion _) fun _ => ?_
    exact climbs_bind_flat (flat_insertAudit _) fun _ => trivial

theorem climbs_deleteSecretAudited (secretId : Uuid) (expectedVersion : Int) (actor : String) :
    (deleteSecretAudited secretId expectedVersion actor now).Climbs LockKey.rank 0 4 := by
  refine climbs_bind_flat flat_get fun s => ?_
  split
  · trivial
  · refine climbs_lock_bind rfl (le_refl _) (by decide) (climbs_bind_flat flat_get fun _ => ?_)
    refine climbs_bind_flat (unranked_secretRel.flat_deleteWhere _) fun _ => ?_
    split
    · trivial
    · refine climbs_bind_flat (unranked_versionRel.flat_deleteWhere _) fun _ => ?_
      refine climbs_bind_flat (unranked_tagRel.flat_deleteWhere _) fun _ => ?_
      refine climbs_bind_flat (unranked_grantRel.flat_updateWhere _ _ _) fun _ => ?_
      exact climbs_bind_flat (flat_insertAudits _) fun _ => climbs_bind_flat (flat_insertAudit _) fun _ => trivial

theorem climbs_reconcileOneSecret (keyset : Keyset) (d : DesiredSecret) (secretId versionId : Uuid) :
    (reconcileOneSecret keyset d secretId versionId now).Climbs LockKey.rank 0 4 := by
  refine climbs_kek_bind (climbs_bind_flat (unranked_secretRel.flat_selectForUpdate _) fun _ => ?_) (by decide)
  split
  · exact (flat_provisionSecret _ _ _ _ _).climbs
  · refine climbs_bind_flat flat_get fun _ => climbs_bind_flat (flat_onlyIf (flat_adoptSecret _ _ _)) fun _ => ?_
    refine climbs_bind_flat flat_get fun _ => ?_
    split
    · trivial
    · exact climbs_bind_flat (flat_onlyIf (flat_provisionVersion _ _ _ _ _)) fun _ => trivial

theorem climbs_onlyIf_requireStoredSecret_bind {c : Bool} {grant : GrantParams} {gone : Except DbError Reply}
    {f : Unit → Tx β} (hf : (f ()).Climbs LockKey.rank 1 4) :
    (onlyIf c (requireStoredSecret grant gone) >>= f).Climbs LockKey.rank 0 4 := by
  cases c with
  | true => exact climbs_requireStoredSecret_bind hf
  | false => exact hf.mono (by decide) (le_refl _)

theorem climbs_lockForApproval_bind {grant : GrantParams} {store : Option StoreSecretParams} {f : Unit → Tx β}
    (hf : (f ()).Climbs LockKey.rank 1 4) : (lockForApproval grant store >>= f).Climbs LockKey.rank 0 4 := by
  cases store with
  | none => exact climbs_onlyIf_requireStoredSecret_bind hf
  | some p => exact climbs_onlyIf_lock_bind rfl (le_refl _) (by decide) hf

theorem climbs_lockForResolution_bind {resolution : InitialResolution} {f : Unit → Tx β}
    (hf : (f ()).Climbs LockKey.rank 1 4) : (lockForResolution resolution >>= f).Climbs LockKey.rank 0 4 := by
  cases resolution with
  | approved resolvedBy grant notifyOnly => exact climbs_onlyIf_requireStoredSecret_bind hf
  | _ => exact hf.mono (by decide) (le_refl _)

theorem climbs_approveRequest (requestId grantId versionId : Uuid) (resolvedBy : String) (grant : GrantParams)
    (store : Option StoreSecretParams) :
    (approveRequest requestId resolvedBy grantId grant store versionId now).Climbs LockKey.rank 0 4 := by
  refine climbs_lockForApproval_bind (climbs_onlyIf_lock_bind rfl (by decide) (by decide) ?_)
  refine climbs_bind_flat (unranked_requestRel.flat_updateWhere _ _ _) fun _ => ?_
  split
  · trivial
  · refine climbs_bind_flat (flat_storeApproved _ _ _ _ _) fun _ => climbs_bind_flat (flat_insertGrant _) fun _ => ?_
    exact climbs_bind_flat (flat_insertAudit _) fun _ => trivial

theorem climbs_resolveApprove (requestId grantId : Uuid) (resolvedBy : String) (grant : GrantParams) :
    (resolveApprove requestId resolvedBy grant grantId now).Climbs LockKey.rank 0 4 := by
  refine climbs_onlyIf_requireStoredSecret_bind ?_
  refine climbs_bind_flat (unranked_requestRel.flat_updateWhere _ _ _) fun _ => ?_
  split
  · trivial
  · exact climbs_bind_flat (flat_insertGrant _) fun _ => climbs_bind_flat (flat_insertAudit _) fun _ => trivial

theorem climbs_insertAccessRequestWithId (id grantId : Uuid) (req : NewAccessRequest) (pendingCap : Option Int)
    (resolution : InitialResolution) (context : Option SealFn) :
    (insertAccessRequestWithId id req pendingCap resolution context grantId now).Climbs LockKey.rank 0 4 := by
  refine climbs_lockForResolution_bind (climbs_sealContext_bind fun c => ?_)
  refine climbs_onlyIf_lock_bind rfl (le_refl _) (by decide) ?_
  refine climbs_bind_flat (unranked_requestRel.flat_insertOnConflict _ _ _) fun _ => climbs_bind_flat flat_get fun _ => ?_
  split
  · split
    · trivial
    · exact climbs_bind_flat (flat_insertAudit _) fun _ =>
        climbs_bind_flat (flat_applyResolution _ _ _ _ _) fun _ => trivial
  · split <;> trivial

/-- The advisory locks of every call of the store come in the order of their ranks. -/
theorem climbs_txn {window : Int} (op : StoreOp) : (op.txn window now).Climbs LockKey.rank 0 4 := by
  cases op with
  | beginGrantUse grantId idemKey versionId kind target => exact (flat_beginGrantUse _ _ _ _ _ _ _).climbs
  | revokeGrant grantId actor =>
      refine climbs_bind_flat (unranked_grantRel.flat_updateWhere _ _ _) fun _ => ?_
      split
      · trivial
      · exact climbs_bind_flat (flat_insertAudit _) fun _ => trivial
  | sweepPurgePassthroughs =>
      exact climbs_bind_flat flat_get fun _ => climbs_bind_flat (unranked_grantRel.flat_updateWhere _ _ _) fun _ => trivial
  | unpinStaleGrantReads => exact climbs_bind_flat (unranked_readRel.flat_updateWhere _ _ _) fun _ => trivial
  | createSecretWithVersion store versionId actor => exact climbs_createSecretWithVersion _ _ _
  | createSecretFromClient store versionId clientName rate => exact climbs_createSecretFromClient _ _ _ _
  | markSecretVetted secretId reviewedVersion actor =>
      refine climbs_bind_flat (unranked_secretRel.flat_updateWhere _ _ _) fun _ => ?_
      split
      · trivial
      · refine climbs_bind_flat flat_get fun _ => ?_
        split
        · trivial
        · exact climbs_bind_flat (flat_insertAudit _) fun _ => trivial
  | rotateSecretVersion secretId secretName actor sealAt versionId => exact climbs_rotateSecretVersion _ _ _ _ _
  | updateSecretSettingsAudited secretId settings actor =>
      refine climbs_bind_flat (unranked_secretRel.flat_selectForUpdate _) fun _ => ?_
      split
      · trivial
      · split
        · trivial
        · refine climbs_bind_flat flat_get fun _ => ?_
          refine climbs_bind_flat (unranked_secretRel.flat_updateWhere _ _ _) fun _ => ?_
          exact climbs_bind_flat (flat_replaceTags _ _) fun _ => climbs_bind_flat (flat_insertAudit _) fun _ => trivial
  | deleteSecretAudited secretId expectedVersion actor => exact climbs_deleteSecretAudited _ _ _
  | reconcileOneSecret keyset d secretId versionId => exact climbs_reconcileOneSecret _ _ _ _
  | insertAccessRequestWithId id req pendingCap resolution context grantId =>
      exact climbs_insertAccessRequestWithId _ _ _ _ _ _
  | approveRequest requestId resolvedBy grantId grant store versionId => exact climbs_approveRequest _ _ _ _ _ _
  | resolveApprove requestId resolvedBy grant grantId => exact climbs_resolveApprove _ _ _ _
  | resolveDeny requestId resolvedBy reason =>
      refine climbs_bind_flat (unranked_requestRel.flat_updateWhere _ _ _) fun _ => ?_
      split
      · trivial
      · exact climbs_bind_flat (flat_insertAudit _) fun _ => trivial
  | expireStale =>
      exact climbs_bind_flat (unranked_requestRel.flat_updateWhere _ _ _) fun _ =>
        climbs_bind_flat (flat_insertAudits _) fun _ => trivial
  | purgeRequestContext retentionSeconds =>
      exact climbs_bind_flat (unranked_requestRel.flat_updateWhere _ _ _) fun _ => trivial

theorem KekOp.climbs_txn {window : Int} (op : KekOp) : (op.txn window now).Climbs LockKey.rank 0 4 := by
  cases op with
  | store op => exact Db.climbs_txn op
  | insertAccessRequest id req context =>
      refine (climbs_sealContext_bind fun c => ?_).mono (by decide) (le_refl _)
      refine climbs_bind_flat (unranked_requestRel.flat_insertOnConflict _ _ _) fun _ => ?_
      split
      · trivial
      · refine climbs_bind_flat flat_get fun _ => ?_
        split <;> trivial
  | insertSecretVersion secretId sealAt createdByRequest versionId =>
      refine climbs_kek_bind (climbs_bind_flat (unranked_secretRel.flat_updateOrFail _ _ _ _) fun _ => ?_) (by decide)
      split
      · trivial
      · exact climbs_bind_flat (flat_sealNow _ _) fun _ => climbs_bind_flat (flat_insertSecretVersion _) fun _ => trivial
  | verifyNoReferences kekId => exact climbs_lock_bind rfl (by decide) (by decide) fun _ => trivial
  | activate kekId => trivial

end Climbs

/-- The transactions of the store, each starting at any time. -/
def storeTransactions (window : Int) : Set (Tx Reply) := { x | ∃ (op : KekOp) (now : DateTime), x = op.txn window now }

theorem storeTransactions_climb {window : Int} : ∀ x ∈ storeTransactions window, x.Climbs LockKey.rank 0 4 := by
  rintro x ⟨op, now, rfl⟩
  exact op.climbs_txn

/-- Whatever transactions run, and however their steps are ordered, none waits in a circle for the advisory locks of the
others. -/
theorem advisory_locks_acyclic {window : Int} {w : LockWorld Store LockKey (Except DbError Reply) Reply}
    (hw : w.Reachable LockKey.rank (storeTransactions window)) : ¬ ∃ i, Relation.TransGen w.WaitsFor i i := by
  rintro ⟨i, hi⟩
  exact LockWorld.acyclic_of_reachable hw storeTransactions_climb i hi

/-- A new secret waits for the KEK lock that a check of references holds. -/
theorem advisory_locks_acyclic_check : ∃ w : LockWorld Store LockKey (Except DbError Reply) Reply,
    w.Reachable LockKey.rank (storeTransactions 60) ∧ w.WaitsFor 1 0 ∧ ¬ ∃ i, Relation.TransGen w.WaitsFor i i := by
  let count : Tx Reply := .read fun s => .pure (.flag (s.references "k0" == 0))
  let create : Tx Reply := KekOp.txn 60 (.store (.createSecretWithVersion deployKey 4 "operator")) (.ofSeconds 900)
  have hcheck : .acquire .kek .exclusive count ∈ storeTransactions 60 := ⟨.verifyNoReferences "k0", .ofSeconds 900, rfl⟩
  have hcreate : create ∈ storeTransactions 60 := ⟨_, _, rfl⟩
  let w₁ : LockWorld Store LockKey (Except DbError Reply) Reply := LockWorld.empty.set 0 ⟨.acquire .kek .exclusive count, []⟩
  let w₂ : LockWorld Store LockKey (Except DbError Reply) Reply := w₁.set 0 ⟨count, [(.kek, .exclusive)]⟩
  let w₃ : LockWorld Store LockKey (Except DbError Reply) Reply := { w₂.set 1 ⟨create, []⟩ with queue := [⟨1, .kek, .shared⟩] }
  have h₁ : w₁.Reachable LockKey.rank (storeTransactions 60) := .step .init (.start _ 0 _ rfl hcheck)
  have hasked : LockWorld.Reachable LockKey.rank (storeTransactions 60) { w₁ with queue := [⟨0, .kek, .exclusive⟩] } :=
    .step h₁ (.request _ 0 .kek .exclusive count [] rfl rfl (by simp [w₁, LockWorld.set, LockWorld.empty]))
  have h₂ : w₂.Reachable LockKey.rank (storeTransactions 60) := by
    refine .step hasked (.grant _ 0 .kek .exclusive count [] [] [] rfl rfl ?_ (by simp))
    intro id a hne ha
    simp [w₁, LockWorld.set, LockWorld.empty, Function.update_of_ne hne] at ha
  have hstarted : (w₂.set 1 ⟨create, []⟩).Reachable LockKey.rank (storeTransactions 60) :=
    .step h₂ (.start _ 1 _ rfl hcreate)
  have h₃ : w₃.Reachable LockKey.rank (storeTransactions 60) :=
    .step hstarted (.request (w₂.set 1 ⟨create, []⟩) 1 LockKey.kek .shared _ [] rfl rfl
      (by simp [w₁, w₂, LockWorld.set, LockWorld.empty]))
  refine ⟨w₃, h₃, ⟨[], _, [], rfl, rfl, Or.inl ⟨_, rfl, .exclusive, List.mem_cons_self⟩⟩, advisory_locks_acyclic h₃⟩

end Keychute.Db
