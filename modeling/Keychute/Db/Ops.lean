import Keychute.Db.Requests
import Keychute.Lib.Run

/-!
# The store as a system

* `StoreOp`, `StoreOp.txn` : the calls of the store layer. Ids that the database or the process draws at random are
  part of the call; the replay window is one setting of the process;
* `StoreOp.step` : one call as one atomic step;
* `Commit`, `commit_step` : what a commit can do to the tables.
-/

namespace Keychute.Db
open Keychute.Lib

inductive StoreOp where
  | beginGrantUse (grantId : Uuid) (idemKey : Option String) (versionId : Option Uuid) (kind : AuditKind)
      (target : Option AuditTarget)
  | revokeGrant (grantId : Uuid) (actor : String)
  | sweepPurgePassthroughs
  | unpinStaleGrantReads
  | createSecretWithVersion (store : StoreSecretParams) (versionId : Uuid) (actor : String)
  | createSecretFromClient (store : StoreSecretParams) (versionId : Uuid) (clientName : String) (rate : DepositRate)
  | markSecretVetted (secretId : Uuid) (reviewedVersion : Int) (actor : String)
  | rotateSecretVersion (secretId : Uuid) (secretName actor : String) (sealAt : Int → SealFn) (versionId : Uuid)
  | updateSecretSettingsAudited (secretId : Uuid) (settings : SecretSettings) (actor : String)
  | deleteSecretAudited (secretId : Uuid) (expectedVersion : Int) (actor : String)
  | reconcileOneSecret (keyset : Keyset) (d : DesiredSecret) (secretId versionId : Uuid)
  | insertAccessRequestWithId (id : Uuid) (req : NewAccessRequest) (pendingCap : Option Int)
      (resolution : InitialResolution) (context : Option SealFn) (grantId : Uuid)
  | approveRequest (requestId : Uuid) (resolvedBy : String) (grantId : Uuid) (grant : GrantParams)
      (store : Option StoreSecretParams) (versionId : Uuid)
  | resolveApprove (requestId : Uuid) (resolvedBy : String) (grant : GrantParams) (grantId : Uuid)
  | resolveDeny (requestId : Uuid) (resolvedBy reason : String)
  | expireStale
  | purgeRequestContext (retentionSeconds : Int)

namespace StoreOp

def txn (window : Int) : StoreOp → DateTime → Tx Reply
  | .beginGrantUse grantId idemKey versionId kind target, now =>
    Db.beginGrantUse grantId idemKey versionId kind window target now
  | .revokeGrant grantId actor, now => Db.revokeGrant grantId actor now
  | .sweepPurgePassthroughs, now => Db.sweepPurgePassthroughs window now
  | .unpinStaleGrantReads, now => Db.unpinStaleGrantReads window now
  | .createSecretWithVersion store versionId actor, now => Db.createSecretWithVersion store versionId actor now
  | .createSecretFromClient store versionId clientName rate, now =>
    Db.createSecretFromClient store versionId clientName rate now
  | .markSecretVetted secretId reviewedVersion actor, now => Db.markSecretVetted secretId reviewedVersion actor now
  | .rotateSecretVersion secretId secretName actor sealAt versionId, now =>
    Db.rotateSecretVersion secretId secretName actor sealAt versionId now
  | .updateSecretSettingsAudited secretId settings actor, now =>
    Db.updateSecretSettingsAudited secretId settings actor now
  | .deleteSecretAudited secretId expectedVersion actor, now =>
    Db.deleteSecretAudited secretId expectedVersion actor now
  | .reconcileOneSecret keyset d secretId versionId, now => Db.reconcileOneSecret keyset d secretId versionId now
  | .insertAccessRequestWithId id req pendingCap resolution context grantId, now =>
    Db.insertAccessRequestWithId id req pendingCap resolution context grantId now
  | .approveRequest requestId resolvedBy grantId grant store versionId, now =>
    Db.approveRequest requestId resolvedBy grantId grant store versionId now
  | .resolveApprove requestId resolvedBy grant grantId, now => Db.resolveApprove requestId resolvedBy grant grantId now
  | .resolveDeny requestId resolvedBy reason, now => Db.resolveDeny requestId resolvedBy reason now
  | .expireStale, now => Db.expireStale now
  | .purgeRequestContext retentionSeconds, now => Db.purgeRequestContext retentionSeconds now

def step (window : Int) (op : StoreOp) (now : DateTime) (s : Store) : Store × Except DbError Reply :=
  (op.txn window now).run s

/-- The grant a call would create. -/
def mints (now : DateTime) : StoreOp → Option GrantRow
  | .approveRequest requestId _ grantId grant _ _ => some (grant.row grantId requestId now)
  | .resolveApprove requestId _ grant grantId => some (grant.row grantId requestId now)
  | .insertAccessRequestWithId id _ _ resolution _ grantId => resolution.grant.map (·.row grantId id now)
  | _ => none

/-- A call either commits or changes nothing. -/
theorem step_cases (window : Int) (op : StoreOp) (now : DateTime) (s : Store) :
    (∃ r s', (op.txn window now).exec s = .ok (r, s') ∧ op.step window now s = (s', .ok r)) ∨
      (∃ r, (op.txn window now).exec s = .error r ∧ op.step window now s = (s, r)) :=
  Txn.run_cases _ s

end StoreOp

/-- The call accounts a use of this grant. -/
def StoreOp.usesGrant (grantId : Uuid) : StoreOp → Bool
  | .beginGrantUse id _ _ _ _ => id == grantId
  | _ => false

def Reply.firstUse : Reply → Bool
  | .grantUse (.firstUse _) => true
  | _ => false

/-! ## What a commit can do -/

section Steps
variable {window : Int} {op : StoreOp} {now : DateTime} {s s' : Store} {r : Reply}

/-- How the grants can change. -/
inductive GrantsStep (window : Int) (op : StoreOp) (now : DateTime) (s : Store) (r : Reply) (s' : Store) : Prop where
  | same (hr : r.firstUse = false) (h : s'.grants = s.grants)
  | used (g : GrantRow) (hg : s.findGrant g.id = some g) (hop : op.usesGrant g.id = true)
      (hlive : g.live now = true) (hleft : g.usesLeft = true) (hr : r = .grantUse (.firstUse g.bump))
      (h : s'.grants = s.grants.update (·.id == g.id) GrantRow.bump (fun _ => rfl))
  | revoked (hr : r.firstUse = false) (p : GrantRow → Bool)
      (h : s'.grants = s.grants.update p GrantRow.revoke GrantRow.key_revoke)
  | purged (hr : r.firstUse = false)
      (h : s'.grants = s.grants.update (s.purgeable window now) GrantRow.purged GrantRow.key_purged)
  | minted (hr : r.firstUse = false) (row : GrantRow) (hm : op.mints now = some row) (hfresh : s.grants.Fresh row)
      (h : s'.grants = s.grants.insert row)

/-- How the replay records can change. -/
inductive ReadsStep (window : Int) (op : StoreOp) (now : DateTime) (s s' : Store) : Prop where
  | same (h : s'.reads = s.reads)
  | unpinned (h : s'.reads = s.reads.update (unpinnable window now) GrantReadRow.unpin GrantReadRow.key_unpin)
  | recorded (g : GrantRow) (key : String) (versionId : Option Uuid) (hg : s.findGrant g.id = some g)
      (hop : ∃ kind target, op = .beginGrantUse g.id (some key) versionId kind target)
      (hnone : s.findRead g.id key = none)
      (h : s'.reads = s.reads.insert ⟨g.id, key, versionId, g.passthroughCiphertext.isSome, now⟩)

/-- What a commit did, table by table. -/
structure Commit (window : Int) (op : StoreOp) (now : DateTime) (s : Store) (r : Reply) (s' : Store) : Prop where
  grants : GrantsStep window op now s r s'
  reads : ReadsStep window op now s s'

theorem reconcileOneSecret_grants {keyset : Keyset} {d : DesiredSecret} {secretId versionId : Uuid}
    {collation : Collation} (h : (reconcileOneSecret keyset d secretId versionId now collation).exec s = .ok (r, s')) :
    r.firstUse = false ∧ s'.grants = s.grants ∧ s'.reads = s.reads ∧ s'.requests = s.requests := by
  obtain h | ⟨row, -, -, s₁, h₁, h₂, _, rfl⟩ := reconcileOneSecret_ok h
  · obtain ⟨_, _, _, _, _, _, rfl, rfl⟩ := provisionSecret_ok h
    exact ⟨rfl, rfl, rfl, rfl⟩
  · have hs₁ : s₁.grants = s.grants ∧ s₁.reads = s.reads ∧ s₁.requests = s.requests := by
      obtain ⟨-, h₁⟩ | ⟨-, rfl⟩ := h₁
      · obtain ⟨_, _, _, rfl⟩ := exec_adoptSecret_eq_ok h₁
        exact ⟨rfl, rfl, rfl⟩
      · exact ⟨rfl, rfl, rfl⟩
    obtain ⟨-, h₂⟩ | ⟨-, rfl⟩ := h₂
    · obtain ⟨_, _, _, _, _, _, _, rfl⟩ := exec_provisionVersion_eq_ok h₂
      exact ⟨rfl, hs₁⟩
    · exact ⟨rfl, hs₁⟩

theorem commit_step (h : (op.txn window now).exec s = .ok (r, s')) : Commit window op now s r s' := by
  cases op with
  | beginGrantUse grantId idemKey versionId kind target =>
      obtain ⟨g, hg, hlive, ⟨_, _, _, rfl, rfl⟩ | ⟨hnone, hleft, rfl, rfl⟩⟩ := beginGrantUse_ok h
      · exact ⟨.same rfl rfl, .same rfl⟩
      · obtain rfl := (findGrant_eq_some.1 hg).2
        refine ⟨.used g hg (beq_self_eq_true g.id) hlive hleft rfl rfl, ?_⟩
        cases idemKey with
        | none => exact .same rfl
        | some key => exact .recorded g key versionId hg ⟨kind, target, rfl⟩ hnone rfl
  | revokeGrant grantId actor =>
      obtain ⟨_, _, rfl, rfl⟩ := revokeGrant_ok h
      exact ⟨.revoked rfl _ rfl, .same rfl⟩
  | sweepPurgePassthroughs =>
      obtain ⟨⟨_, rfl⟩, rfl⟩ := sweepPurgePassthroughs_ok h
      exact ⟨.purged rfl rfl, .same rfl⟩
  | unpinStaleGrantReads =>
      obtain ⟨⟨_, rfl⟩, rfl⟩ := unpinStaleGrantReads_ok h
      exact ⟨.same rfl rfl, .unpinned rfl⟩
  | createSecretWithVersion store versionId actor =>
      obtain ⟨_, _, _, _, _, rfl, rfl⟩ := createSecretWithVersion_ok h
      exact ⟨.same rfl rfl, .same rfl⟩
  | createSecretFromClient store versionId clientName rate =>
      obtain ⟨_, _, _, rfl, rfl⟩ := createSecretFromClient_ok h
      exact ⟨.same rfl rfl, .same rfl⟩
  | markSecretVetted secretId reviewedVersion actor =>
      obtain ⟨_, _, rfl, rfl⟩ := markSecretVetted_ok h
      exact ⟨.same rfl rfl, .same rfl⟩
  | rotateSecretVersion secretId secretName actor sealAt versionId =>
      obtain ⟨_, _, _, _, _, _, _, rfl, rfl⟩ := rotateSecretVersion_ok h
      exact ⟨.same rfl rfl, .same rfl⟩
  | updateSecretSettingsAudited secretId settings actor =>
      obtain ⟨_, _, _, rfl, rfl⟩ := updateSecretSettingsAudited_ok h
      exact ⟨.same rfl rfl, .same rfl⟩
  | deleteSecretAudited secretId expectedVersion actor =>
      obtain ⟨_, _, _, _, _, _, _, ⟨_, rfl⟩, rfl⟩ := deleteSecretAudited_ok h
      exact ⟨.revoked rfl _ rfl, .same rfl⟩
  | reconcileOneSecret keyset d secretId versionId =>
      obtain ⟨hr, hg, hreads, -⟩ := reconcileOneSecret_grants h
      exact ⟨.same hr hg, .same hreads⟩
  | insertAccessRequestWithId id req pendingCap resolution context grantId =>
      obtain ⟨_, _, _, hg, rfl, rfl⟩ := insertAccessRequestWithId_ok h
      cases hres : resolution.grant with
      | none => exact ⟨.same rfl rfl, .same rfl⟩
      | some grant =>
          refine ⟨.minted rfl (grant.row grantId id now) ?_ (hg grant hres).2.2 rfl, .same rfl⟩
          rw [StoreOp.mints, hres]
          rfl
  | approveRequest requestId resolvedBy grantId grant store versionId =>
      obtain ⟨_, _, stored, _, _, _, _, _, _, _, hg, rfl, rfl⟩ := approveRequest_ok h
      cases stored <;> exact ⟨.minted rfl _ rfl hg rfl, .same rfl⟩
  | resolveApprove requestId resolvedBy grant grantId =>
      obtain ⟨_, _, _, _, _, hg, rfl, rfl⟩ := resolveApprove_ok h
      exact ⟨.minted rfl _ rfl hg rfl, .same rfl⟩
  | resolveDeny requestId resolvedBy reason =>
      obtain ⟨_, _, _, _, rfl, rfl⟩ := resolveDeny_ok h
      exact ⟨.same rfl rfl, .same rfl⟩
  | expireStale =>
      obtain ⟨⟨_, rfl⟩, rfl⟩ := expireStale_ok h
      exact ⟨.same rfl rfl, .same rfl⟩
  | purgeRequestContext retentionSeconds =>
      obtain ⟨⟨_, rfl⟩, _, rfl⟩ := purgeRequestContext_ok h
      exact ⟨.same rfl rfl, .same rfl⟩

end Steps
end Keychute.Db
