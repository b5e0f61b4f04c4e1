import Keychute.ActiveGrants
import Keychute.Api.Create
import Keychute.Api.Read
import Keychute.Incarnation
import Keychute.ProxyHandler

/-!
# Clients beside each other

* `ClientCall` : what a client's own calls do to the store, under whatever policies. Waiting and asking for a status
  read only;
* `Untouched` : what the calls of other clients leave of a grant, and of the names that are taken;
* `readOutcome` : what a read of the grant would come to, if it ran now and alone; `readOutcome_served` : that is what the
  server's statements make of it;
* `grants_undisturbed` : reads and proxied calls come to the same after calls of other clients, unless the grant carries
  its own payload and one of them deposited a secret under its name, capped below its mechanism.
-/

namespace Keychute.Api
open Keychute.Db Keychute.Lib

/-! ## The calls of a client -/

/-- What this client can make of the store in this state. -/
inductive ClientCall (s : Store) (client : String) : StoreOp → Prop where
  /-- `POST /v1/access-requests`. -/
  | request (env : CreateEnv) (c : CreateCall) (secret : Option Db.SecretRow) (secretTags : List String)
      (policies : List Db.PolicyRow) (now : DateTime) (plan : CreatePlan) (id grantId : Uuid) (sealWith : SealFn)
      (hclient : c.client.name = client)
      (hplan : planCreate env.url env.limits c.client secret secretTags policies now c.req (c.mac env) = .ok plan) :
      ClientCall s client (c.insertOp plan id grantId sealWith)
  /-- `POST /v1/secrets`. -/
  | deposit (sealBytes : Blob → Crypto.AadContext → SealFn) (mayStoreSecrets : Bool) (secretId : Uuid)
      (req : StoreSecretRequest) (store : StoreSecretParams) (versionId : Uuid) (rate : DepositRate)
      (hreq : storeInner sealBytes mayStoreSecrets secretId req = .ok store) :
      ClientCall s client (.createSecretFromClient store versionId client rate)
  /-- A read or a proxied call on one of its grants. -/
  | use (id : Uuid) (grant : GrantRow) (idemKey : Option String) (versionId : Option Uuid) (kind : AuditKind)
      (target : Option AuditTarget) (hown : ownedGrant s client id = .ok grant) :
      ClientCall s client (.beginGrantUse id idemKey versionId kind target)

/-- Calls of clients other than this one, one after the other. -/
inductive OtherCalls (window : Int) (client : String) : List StoreOp → Store → Store → Prop where
  | nil (s : Store) : OtherCalls window client [] s s
  | call {ops : List StoreOp} {s s' : Store} {other : String} {op : StoreOp} (now : DateTime) :
      OtherCalls window client ops s s' → other ≠ client → ClientCall s' other op →
      OtherCalls window client (ops ++ [op]) s (op.step window now s').1

/-- The cap of the row is below the tier of the grant's mechanism. -/
def capBelow (g : GrantRow) (row : Db.SecretRow) : Bool :=
  (Mechanism.fromStrOpt g.mechanism).any fun m => decide (row.maxTier < m.tier.asInt)

/-! ## What they leave -/

/-- A row as a deposit stores it. -/
def Deposited (row : Db.SecretRow) : Prop := row.enabled = true ∧ ∃ tier : Tier, row.maxTier = tier.asInt

/-- The grant, its replay records and the stored secrets are as they were; only deposits were added. -/
structure Untouched (g : GrantRow) (s s' : Store) : Prop where
  clients : s'.clients = s.clients
  grant : g ∈ s'.grants.rows
  reads : ∀ key, s'.findRead g.id key = s.findRead g.id key
  secrets : ∀ row ∈ s.secrets.rows, row ∈ s'.secrets.rows
  versions : ∀ row ∈ s.secrets.rows, ∀ v, v.secretId = row.id → (v ∈ s'.versions.rows ↔ v ∈ s.versions.rows)
  added : ∀ row ∈ s'.secrets.rows, row ∈ s.secrets.rows ∨ Deposited row

section
variable {g : GrantRow} {ops : List StoreOp} {s s' s'' : Store} {window : Int} {now : DateTime}

theorem Untouched.of_eq (hg : g ∈ s.grants.rows) (hc : s'.clients = s.clients) (hgrants : s'.grants = s.grants)
    (hr : s'.reads = s.reads) (hs : s'.secrets = s.secrets) (hv : s'.versions = s.versions) :
    Untouched g s s' where
  clients := hc
  grant := hgrants ▸ hg
  reads key := by rw [Store.findRead, hr]; rfl
  secrets row hrow := hs ▸ hrow
  versions row _ v _ := by rw [hv]
  added row hrow := Or.inl (hs ▸ hrow)

theorem Untouched.trans (h : Untouched g s s') (h' : Untouched g s' s'') : Untouched g s s'' where
  clients := h'.clients.trans h.clients
  grant := h'.grant
  reads key := (h'.reads key).trans (h.reads key)
  secrets row hrow := h'.secrets row (h.secrets row hrow)
  versions row hrow v hv := (h'.versions row (h.secrets row hrow) v hv).trans (h.versions row hrow v hv)
  added row hrow := by
    rcases h'.added row hrow with hmid | hnew
    · exact h.added row hmid
    · exact Or.inr hnew

/-- A deposit names one of the tiers. -/
theorem storeInner_maxTier {sealBytes : Blob → Crypto.AadContext → SealFn} {mayStoreSecrets : Bool} {secretId : Uuid}
    {req : StoreSecretRequest} {store : StoreSecretParams}
    (h : storeInner sealBytes mayStoreSecrets secretId req = .ok store) : ∃ tier : Tier, store.maxTier = tier.asInt := by
  simp only [storeInner, bind_eq_ok] at h
  obtain ⟨_, -, _, -, _, -, _, -, _, -, hret⟩ := h
  cases hret
  exact ⟨_, rfl⟩

theorem untouched_deposit {store : StoreSecretParams} {versionId : Uuid} {client : String} {rate : DepositRate}
    {r : Reply} (hg : g ∈ s.grants.rows) (htier : ∃ tier : Tier, store.maxTier = tier.asInt)
    (h : (createSecretFromClient store versionId client rate now).exec s = .ok (r, s')) :
    Untouched g s s' := by
  obtain ⟨sealed, hfresh, -, -, rfl⟩ := createSecretFromClient_ok h
  refine ⟨rfl, hg, fun key => rfl, fun row hrow => Table.mem_insert_of_mem hrow, ?_, ?_⟩
  · -- the new version is of the new secret
    intro row hrow v hv
    refine ⟨fun hmem => (Table.mem_of_mem_insert hmem).resolve_right fun hnew => ?_, Table.mem_insert_of_mem⟩
    have := hfresh row hrow
    rw [Keys.pair_clashes.2 (Or.inl (by rw [← hv, hnew]; rfl))] at this
    cases this
  · intro row hrow
    rcases Table.mem_of_mem_insert hrow with hold | rfl
    · exact Or.inl hold
    · exact Or.inr ⟨rfl, htier⟩

theorem untouched_use {id : Uuid} {idemKey : Option String} {versionId : Option Uuid} {kind : AuditKind}
    {target : Option AuditTarget} {r : Reply} (hg : g ∈ s.grants.rows) (hne : id ≠ g.id)
    (h : (beginGrantUse id idemKey versionId kind window target now).exec s = .ok (r, s')) :
    Untouched g s s' := by
  obtain ⟨g', hg', -, ⟨_, -, -, -, rfl⟩ | ⟨-, -, -, rfl⟩⟩ := beginGrantUse_ok h
  · exact .of_eq hg rfl rfl rfl rfl rfl
  · obtain ⟨-, hid⟩ := findGrant_eq_some.1 hg'
    have hmem : g ∈ (s.grants.update (·.id == g'.id) GrantRow.bump fun _ => rfl).rows := by
      have := Table.mem_update_of_mem (p := (·.id == g'.id)) (f := GrantRow.bump) (fun _ => rfl) hg
      rwa [if_neg] at this
      rw [beq_iff_eq, hid]
      exact fun heq => hne heq.symm
    refine ⟨rfl, hmem, fun key => ?_, fun row hrow => hrow, fun _ _ _ _ => Iff.rfl, fun row hrow => Or.inl hrow⟩
    · -- a record of another grant
      refine Option.ext fun row => ?_
      rw [findRead_eq_some, findRead_eq_some]
      refine and_congr_left fun hrow => ?_
      cases idemKey with
      | none => exact Iff.rfl
      | some k =>
          refine ⟨fun hmem => (Table.mem_of_mem_insert hmem).resolve_right fun hnew => hne ?_, Table.mem_insert_of_mem⟩
          rw [← hid, ← hrow.1, hnew]

/-- One call of another client. -/
theorem ClientCall.untouched {other : String} {op : StoreOp} (h : ClientCall s other op) (hne : other ≠ g.clientName)
    (hg : g ∈ s.grants.rows) (window : Int) (now : DateTime) : Untouched g s (op.step window now s).1 := by
  rcases op.step_cases window now s with ⟨r, s', hexec, hstep⟩ | ⟨r, hexec, hstep⟩
  · rw [hstep]
    cases h with
    | request env c secret secretTags policies now' plan id grantId sealWith hclient hplan =>
        obtain ⟨_, _, _, -, -, rfl⟩ := insertAccessRequestWithId_ok hexec
        cases hres : plan.resolution.grant with
        | none => exact .of_eq hg rfl rfl rfl rfl rfl
        | some grant =>
            exact ⟨rfl, Table.mem_insert_of_mem hg, fun key => rfl, fun row hrow => hrow, fun _ _ _ _ => Iff.rfl,
              fun row hrow => Or.inl hrow⟩
    | deposit sealBytes mayStoreSecrets secretId req store versionId rate hreq =>
        exact untouched_deposit hg (storeInner_maxTier hreq) hexec
    | use id grant idemKey versionId kind target hown =>
        refine untouched_use hg (fun hid => hne ?_) hexec
        simp only [ownedGrant, bind_eq_ok, okOr_eq_ok, refuseIf_eq_ok] at hown
        obtain ⟨g', hfound, _, howner, -⟩ := hown
        obtain ⟨hmem, hid'⟩ := findGrant_eq_some.1 hfound
        rw [findGrant_unique hmem hg (hid'.trans hid)] at howner
        rw [bne_eq_false_iff_eq] at howner
        exact howner.symm
  · rw [hstep]
    exact .of_eq hg rfl rfl rfl rfl rfl

theorem OtherCalls.untouched (h : OtherCalls window g.clientName ops s s') (hg : g ∈ s.grants.rows) :
    Untouched g s s' := by
  induction h with
  | nil s => exact .of_eq hg rfl rfl rfl rfl rfl
  | call now _ hne hcall ih => exact (ih hg).trans (hcall.untouched hne (ih hg).grant window now)

/-! ## What the next use finds -/

theorem getSecretByName_eq_some {name : String} {row : Db.SecretRow} :
    getSecretByName s name = some row ↔ row ∈ s.secrets.rows ∧ row.name = name := by
  unfold getSecretByName
  rw [Table.find?_eq_some]
  · simp
  · intro a b ha hb
    rw [Keys.pair_clashes]
    simp only [beq_iff_eq] at ha hb
    exact Or.inr (ha.trans hb.symm)

theorem getSecretVersion_eq_some {id : Uuid} {n : Int} {v : SecretVersionRow} :
    getSecretVersion s id n = some v ↔ v ∈ s.versions.rows ∧ v.secretId = id ∧ v.version = n := by
  unfold getSecretVersion
  rw [Table.find?_eq_some]
  · simp
  · intro a b ha hb
    rw [Keys.pair_clashes]
    simp only [Bool.and_eq_true, beq_iff_eq] at ha hb
    exact Or.inr (Prod.ext (ha.1.trans hb.1.symm) (ha.2.trans hb.2.symm))

theorem Untouched.secret (h : Untouched g s s') {name : String} {row : Db.SecretRow}
    (hrow : getSecretByName s name = some row) : getSecretByName s' name = some row := by
  obtain ⟨hmem, hname⟩ := getSecretByName_eq_some.1 hrow
  exact getSecretByName_eq_some.2 ⟨h.secrets row hmem, hname⟩

theorem Untouched.version (h : Untouched g s s') {row : Db.SecretRow} (hrow : row ∈ s.secrets.rows) (n : Int) :
    getSecretVersion s' row.id n = getSecretVersion s row.id n := by
  refine Option.ext fun v => ?_
  rw [getSecretVersion_eq_some, getSecretVersion_eq_some]
  exact and_congr_left fun hv => h.versions row hrow v hv.1

theorem Untouched.owned (h : Untouched g s s') (hg : g ∈ s.grants.rows) (client : String) :
    ownedGrant s' client g.id = ownedGrant s client g.id := by
  unfold ownedGrant
  rw [findGrant_eq_some.2 ⟨h.grant, rfl⟩, findGrant_eq_some.2 ⟨hg, rfl⟩]

theorem Untouched.answer (h : Untouched g s s') (hg : g ∈ s.grants.rows) (idemKey : Option String)
    (versionId : Option Uuid) (kind : AuditKind) (window : Int) (target : Option AuditTarget) (now : DateTime) :
    s'.useAnswer g.id idemKey versionId kind window target now =
      s.useAnswer g.id idemKey versionId kind window target now := by
  rw [useAnswer_eq h.grant, useAnswer_eq hg, show s'.findRead g.id = s.findRead g.id from funext h.reads]

theorem eq_of_ownedGrant {client : String} {g' : GrantRow} (hg : g ∈ s.grants.rows)
    (h : ownedGrant s client g.id = .ok g') : g' = g := by
  simp only [ownedGrant, bind_eq_ok, okOr_eq_ok] at h
  obtain ⟨g₀, hfound, _, -, hret⟩ := h
  cases hret
  exact Option.some.inj (hfound.symm.trans (findGrant_eq_some.2 ⟨hg, rfl⟩))

/-- The name was stored before: the same row is found. -/
theorem Untouched.revalidate (h : Untouched g s s') {row : Db.SecretRow}
    (hrow : getSecretByName s g.secretName = some row) : revalidateGrant s' s' g = revalidateGrant s s g := by
  unfold revalidateGrant
  rw [h.secret hrow, hrow, show getClientByName s' g.clientName = getClientByName s g.clientName by
    unfold getClientByName
    rw [h.clients]]

/-- The name was free: what a deposit put there passes, if its cap covers the mechanism. -/
theorem Untouched.deposited (h : Untouched g s s') (hnone : getSecretByName s g.secretName = none) {m : Mechanism}
    (hm : Mechanism.fromStrOpt g.mechanism = some m) {row : Db.SecretRow}
    (hrow : getSecretByName s' g.secretName = some row) (hcap : capBelow g row = false) :
    row.enabled = true ∧ ∃ tier, Tier.fromInt row.maxTier = some tier ∧ m.tier ≤ tier := by
  obtain ⟨hmem, hname⟩ := getSecretByName_eq_some.1 hrow
  rcases h.added row hmem with hold | ⟨henabled, tier, htier⟩
  · rw [getSecretByName_eq_some.2 ⟨hold, hname⟩] at hnone
    cases hnone
  · refine ⟨henabled, tier, ?_, ?_⟩
    · rw [htier]
      cases tier <;> rfl
    · rw [capBelow, hm, Option.any_some, decide_eq_false_iff_not, htier, not_lt] at hcap
      exact hcap

theorem bind_congr_ok {α β : Type} {x : Except ApiFailure α} {f f' : α → Except ApiFailure β}
    (h : ∀ a, x = .ok a → f a = f' a) : (x >>= f) = (x >>= f') := by
  cases hx : x with
  | error e => rfl
  | ok a => exact h a hx

theorem bind_eq_map {α β γ : Type} {x : Except ApiFailure α} {f : α → Except ApiFailure β} {f' : α → Except ApiFailure γ}
    {k : γ → β} (h : ∀ a, x = .ok a → f a = (f' a).map k) : (x >>= f) = (x >>= f').map k := by
  cases hx : x with
  | error e => rfl
  | ok a => exact h a hx

theorem Untouched.revalidate_free (h : Untouched g s s') (hnone : getSecretByName s g.secretName = none)
    (hcap : ∀ row, getSecretByName s' g.secretName = some row → capBelow g row = false) :
    revalidateGrant s' s' g = (revalidateGrant s s g).map fun _ => getSecretByName s' g.secretName := by
  unfold revalidateGrant
  rw [hnone, show getClientByName s' g.clientName = getClientByName s g.clientName by
    unfold getClientByName
    rw [h.clients]]
  -- the checks of the client are the same
  refine bind_eq_map fun client _ => bind_eq_map fun _ _ => bind_eq_map fun m hm => bind_eq_map fun _ _ =>
    bind_eq_map fun clientMax _ => bind_eq_map fun _ _ => ?_
  rw [okOr_eq_ok] at hm
  cases hrow : getSecretByName s' g.secretName with
  | none => rfl
  | some row =>
      obtain ⟨henabled, tier, htier, hle⟩ := h.deposited hnone hm hrow (hcap row hrow)
      refine bind_eq_ok.2 ⟨(), refuseIf_eq_ok.2 (by rw [henabled]; rfl), ?_⟩
      exact bind_eq_ok.2 ⟨tier, okOr_eq_ok.2 htier, bind_eq_ok.2 ⟨(), refuseIf_eq_ok.2 (by simpa using hle), rfl⟩⟩

/-! ## Reads and proxied calls -/

/-- What a read checks and resolves before its use, if it ran now and alone. -/
def readChecks (s : Store) (now : DateTime) (client : String) (id : Uuid) (key : String) :
    Except ApiFailure (GrantRow × Source × Uuid) := do
  validateReadKey key
  let grant ← ownedGrant s client id
  let mechanism ← okOr (Mechanism.fromStrOpt grant.mechanism) .revalidationFailed
  refuseIf (!mechanism.isReleasing) .wrongMechanism
  let secret ← revalidateGrant s s grant
  refuseIf (((s.findGrant grant.id).map fun g => g.revoked || decide (g.notAfter ≤ now)).getD true) .grantExpired
  let (source, versionId) ← resolveSource s grant secret
  return (grant, source, versionId)

/-- What it would come to: where its bytes come from, and the answer of the accounting. -/
def readOutcome (s : Store) (window : Int) (now : DateTime) (client : String) (id : Uuid) (key : String) :
    Except ApiFailure (Source × Except DbError Reply) := do
  let (grant, source, versionId) ← readChecks s now client id key
  return (source, s.useAnswer grant.id (some key) (some versionId) .releaseAttempt window none now)

section Served
variable {env : ReadEnv} {kek : Crypto.KeyMaterial} {c : ReadCall}

/-- The statements that are left, where `x` is what the one before came to. -/
theorem iterate_orDone {F : ReadPhase → ReadPhase} (hF : ∀ e, F (.done (.error e)) = .done (.error e)) (n : Nat)
    {α : Type} {x : Except ApiFailure α} {f : α → Except ApiFailure ReadPhase} {g : α → Except ApiFailure ReadPhase}
    (h : ∀ a, x = .ok a → F^[n] (.orDone (f a)) = .orDone (g a)) : F^[n] (.orDone (x >>= f)) = .orDone (x >>= g) := by
  cases x with
  | ok a => exact h a rfl
  | error e => exact Function.iterate_fixed (hF e) n

/-- The five statements of a read before its use, in one state. -/
theorem readChecks_served (hphase : c.phase = .arrived) :
    (fun p => ReadCall.next env kek now s { c with phase := p })^[5] c.phase =
      .orDone (do
        let (grant, source, versionId) ← readChecks s now c.client c.grantId c.idemKey
        return .resolved grant source versionId) := by
  generalize hF : (fun p => ReadCall.next env kek now s { c with phase := p }) = F
  have hend : ∀ e, F (.done (.error e)) = .done (.error e) := fun e => by rw [← hF]; rfl
  rw [hphase, Function.iterate_succ_apply]
  have harrived : F .arrived = .orDone (do
      validateReadKey c.idemKey
      let grant ← ownedGrant s c.client c.grantId
      let mechanism ← okOr (Mechanism.fromStrOpt grant.mechanism) .revalidationFailed
      refuseIf (!mechanism.isReleasing) .wrongMechanism
      return .owned grant) := by
    rw [← hF]
    rfl
  rw [harrived]
  simp only [readChecks, bind_assoc, pure_bind]
  refine iterate_orDone hend 4 fun _ _ => iterate_orDone hend 4 fun grant _ => iterate_orDone hend 4 fun mechanism _ =>
    iterate_orDone hend 4 fun _ _ => ?_
  have hclient : F^[4] (.owned grant) = F^[2] (.orDone (do
      let secret ← revalidateGrant s s grant
      return .revalidated grant secret)) := by
    rw [← hF]
    rfl
  rw [show (ReadPhase.orDone (pure (.owned grant))) = .owned grant from rfl, hclient]
  refine iterate_orDone hend 2 fun secret _ => ?_
  have hcheck : F (.revalidated grant secret) = .orDone (do
      refuseIf (((s.findGrant grant.id).map fun g => g.revoked || decide (g.notAfter ≤ now)).getD true) .grantExpired
      return .alive grant secret) := by
    rw [← hF]
    dsimp only [ReadCall.next]
    cases ((s.findGrant grant.id).map fun g => g.revoked || decide (g.notAfter ≤ now)).getD true <;> rfl
  rw [show ReadPhase.orDone (pure (.revalidated grant secret)) = .revalidated grant secret from rfl,
    Function.iterate_succ_apply, hcheck]
  refine iterate_orDone hend 1 fun _ _ => ?_
  have hresolved : F (.alive grant secret) = .orDone (do
      let (source, versionId) ← resolveSource s grant secret
      return .resolved grant source versionId) := by
    rw [← hF]
    rfl
  exact hresolved

/-- How many statements a read has behind it, before its use. -/
def ReadPhase.behind : ReadPhase → Nat
  | .arrived | .used _ _ _ | .done _ => 0
  | .owned _ => 1
  | .clientRead _ _ => 2
  | .revalidated _ _ => 3
  | .alive _ _ => 4
  | .resolved _ _ _ => 5

theorem behind_orDone {n : Nat} {x : Except ApiFailure ReadPhase} (h : ∀ p, x = .ok p → p.behind ≤ n) :
    (ReadPhase.orDone x).behind ≤ n := by
  cases x with
  | error e => exact Nat.zero_le n
  | ok p => exact h p rfl

theorem behind_next (hfive : c.phase.behind < 5) : (c.next env kek now s).behind ≤ c.phase.behind + 1 := by
  unfold ReadCall.next
  split
  · rename_i hphase
    rw [hphase]
    refine behind_orDone fun p hp => ?_
    simp only [bind_eq_ok] at hp
    obtain ⟨_, -, _, -, _, -, _, -, hret⟩ := hp
    cases hret
    exact le_refl 1
  · rename_i hphase
    rw [hphase]
    exact le_refl 2
  · rename_i hphase
    rw [hphase]
    refine behind_orDone fun p hp => ?_
    simp only [bind_eq_ok] at hp
    obtain ⟨_, -, hret⟩ := hp
    cases hret
    exact le_refl 3
  · rename_i hphase
    rw [hphase]
    split
    · exact Nat.zero_le _
    · exact le_refl 4
  · rename_i hphase
    rw [hphase]
    refine behind_orDone fun p hp => ?_
    simp only [bind_eq_ok] at hp
    obtain ⟨_, -, hret⟩ := hp
    cases hret
    exact le_refl 5
  · rename_i hphase
    rw [hphase] at hfive
    exact absurd hfive (lt_irrefl 5)
  · exact Nat.zero_le _
  · exact Nat.zero_le _

variable {w : ReadServer} {i : Nat}

/-- The server's next statement of a read that is not at its use. -/
theorem serve_next (hc : w.calls[i]? = some c) (hfive : c.phase.behind < 5) :
    ReadServer.step env (.advance i) now w =
      ({ w with calls := w.calls.set i { c with phase := c.next env w.ephemeralKek now w.store } }, none) := by
  simp only [ReadServer.step, hc, ReadServer.advance]
  split
  · rename_i hphase
    rw [hphase] at hfive
    exact absurd hfive (lt_irrefl 5)
  · rfl

/-- The first statements of a read, one after the other at one time. -/
theorem serve_iterate (hc : w.calls[i]? = some c) (hphase : c.phase = .arrived) {n : Nat} (hn : n ≤ 5) :
    ((fun p => ReadCall.next env w.ephemeralKek now w.store { c with phase := p })^[n] c.phase).behind ≤ n ∧
      (fun w => (ReadServer.step env (.advance i) now w).1)^[n] w =
        { w with calls := w.calls.set i { c with
          phase := (fun p => ReadCall.next env w.ephemeralKek now w.store { c with phase := p })^[n] c.phase } } := by
  have hi : i < w.calls.length := (List.getElem?_eq_some_iff.1 hc).1
  induction n with
  | zero =>
      refine ⟨by rw [hphase]; exact le_refl 0, ?_⟩
      have hself : w.calls.set i c = w.calls := by
        rw [← (List.getElem?_eq_some_iff.1 hc).2]
        exact List.set_getElem_self hi
      exact congrArg (fun calls => { w with calls := calls }) hself.symm
  | succ n ih =>
      obtain ⟨hbehind, hserved⟩ := ih (Nat.le_of_succ_le hn)
      rw [Function.iterate_succ_apply', Function.iterate_succ_apply', hserved]
      generalize hp : (fun p => ReadCall.next env w.ephemeralKek now w.store { c with phase := p })^[n] c.phase = p at *
      have hfive : p.behind < 5 := by omega
      refine ⟨(behind_next (c := { c with phase := p }) hfive).trans (Nat.succ_le_succ hbehind), ?_⟩
      rw [serve_next (c := { c with phase := p }) (List.getElem?_set_self hi) hfive, List.set_set]

/-- A read that arrives and runs alone comes to `readOutcome`: it is refused with that error, or makes its use with that
answer. -/
theorem readOutcome_served (hc : w.calls[i]? = some c) (hphase : c.phase = .arrived) :
    ∃ p, ((fun w => (ReadServer.step env (.advance i) now w).1)^[6] w).calls[i]? = some { c with phase := p } ∧
      match readOutcome w.store env.replayWindowSeconds now c.client c.grantId c.idemKey with
      | .ok (source, answer) => ∃ versionId, p = .afterUse source versionId answer
      | .error e => p = .done (.error e) := by
  have hi : i < w.calls.length := (List.getElem?_eq_some_iff.1 hc).1
  rw [Function.iterate_succ_apply', (serve_iterate hc hphase (le_refl 5)).2, readChecks_served hphase, readOutcome]
  cases readChecks w.store now c.client c.grantId c.idemKey with
  | error e =>
      refine ⟨.done (.error e), ?_, rfl⟩
      rw [serve_next (c := { c with phase := .done (.error e) }) (List.getElem?_set_self hi) (Nat.zero_lt_succ 4),
        List.set_set]
      exact List.getElem?_set_self hi
  | ok found =>
      obtain ⟨grant, source, versionId⟩ := found
      have hset : i < (w.calls.set i { c with phase := .resolved grant source versionId }).length := by
        rwa [List.length_set]
      refine ⟨_, ?_, versionId, rfl⟩
      dsimp only [ReadServer.step, ReadPhase.orDone, bind, Except.bind, pure, Except.pure]
      rw [List.getElem?_set_self hi]
      exact List.getElem?_set_self hset

end Served

/-- Without a row of its own the source is the payload, whatever is stored under the name. -/
theorem resolveSource_own (heph : g.passthroughEphemeral = true) (secret secret' : Option Db.SecretRow) :
    resolveSource s' g secret' = resolveSource s g secret := by
  unfold resolveSource
  rw [heph]
  simp

theorem Untouched.resolve (h : Untouched g s s') {row : Db.SecretRow} (hrow : row ∈ s.secrets.rows) :
    resolveSource s' g (some row) = resolveSource s g (some row) := by
  unfold resolveSource
  split
  · rfl
  · split
    · rfl
    · refine bind_congr_ok fun row' hrow' => ?_
      rw [okOr_eq_ok] at hrow'
      obtain rfl := Option.some.inj hrow'
      rw [h.version hrow]

theorem eq_of_revalidateGrant {clients : Store} {secret : Option Db.SecretRow}
    (h : revalidateGrant clients s g = .ok secret) : secret = getSecretByName s g.secretName := by
  simp only [revalidateGrant, bind_eq_ok] at h
  obtain ⟨_, -, _, -, _, -, _, -, _, -, _, -, h⟩ := h
  split at h
  · cases h
    exact Eq.symm ‹_›
  · simp only [bind_eq_ok] at h
    obtain ⟨_, -, _, -, _, -, hret⟩ := h
    cases hret
    exact Eq.symm ‹_›

/-- A row is stored under the grant's name; or the grant does not need one, and none gets in its way. -/
def Unsquatted (g : GrantRow) (s s' : Store) : Prop :=
  (∃ row, getSecretByName s g.secretName = some row) ∨
    getSecretByName s g.secretName = none ∧ g.passthroughEphemeral = true ∧
      ∀ row, getSecretByName s' g.secretName = some row → capBelow g row = false

theorem Untouched.checks (h : Untouched g s s') (hg : g ∈ s.grants.rows) (hfree : Unsquatted g s s')
    (client key : String) : readChecks s' now client g.id key = readChecks s now client g.id key := by
  unfold readChecks
  rw [h.owned hg]
  refine bind_congr_ok fun _ _ => bind_congr_ok fun g' hown => bind_congr_ok fun m _ => bind_congr_ok fun _ _ => ?_
  obtain rfl := eq_of_ownedGrant hg hown
  rw [findGrant_eq_some.2 ⟨h.grant, rfl⟩, findGrant_eq_some.2 ⟨hg, rfl⟩]
  rcases hfree with ⟨row, hrow⟩ | ⟨hnone, heph, hcap⟩
  · rw [h.revalidate hrow]
    refine bind_congr_ok fun secret hsecret => bind_congr_ok fun _ _ => ?_
    rw [eq_of_revalidateGrant hsecret, hrow, h.resolve (getSecretByName_eq_some.1 hrow).1]
  · rw [h.revalidate_free hnone hcap]
    cases revalidateGrant s s g' with
    | error e => rfl
    | ok secret =>
        change (refuseIf _ _ >>= _) = (refuseIf _ _ >>= _)
        refine bind_congr_ok fun _ _ => ?_
        rw [resolveSource_own heph]

theorem Untouched.readOutcome_eq (h : Untouched g s s') (hg : g ∈ s.grants.rows) (hfree : Unsquatted g s s')
    (window : Int) (now : DateTime) (client key : String) :
    readOutcome s' window now client g.id key = readOutcome s window now client g.id key := by
  unfold readOutcome
  rw [h.checks hg hfree]
  refine bind_congr_ok fun c hc => ?_
  simp only [readChecks, bind_eq_ok] at hc
  obtain ⟨_, -, g', hown, _, -, _, -, _, -, _, -, _, -, hret⟩ := hc
  obtain rfl := eq_of_ownedGrant hg hown
  cases hret
  dsimp only
  rw [h.answer hg]

/-- The store at one instant, for every statement of a proxied call. -/
def atOnce (s : Store) : Proxy.Views := ⟨s, s, s, s, s⟩

theorem Untouched.admission (h : Untouched g s s') (hg : g ∈ s.grants.rows) (hfree : Unsquatted g s s')
    (hpayload : g.passthroughEphemeral = true → Mechanism.fromStrOpt g.mechanism ≠ some .brokered)
    (env : Proxy.ProxyEnv) (req : Proxy.ProxyRequest) :
    Proxy.admission env (atOnce s') g.id req = Proxy.admission env (atOnce s) g.id req := by
  simp only [Proxy.admission, atOnce, h.owned hg]
  refine bind_congr_ok fun _ _ => bind_congr_ok fun g' hown => bind_congr_ok fun _ hmech => ?_
  obtain rfl := eq_of_ownedGrant hg hown
  rcases hfree with ⟨row, hrow⟩ | ⟨-, heph, -⟩
  · rw [h.revalidate hrow]
    refine bind_congr_ok fun secret hsecret => bind_congr_ok fun found hfound => ?_
    rw [eq_of_revalidateGrant hsecret, hrow, okOr_eq_ok] at hfound
    obtain rfl := Option.some.inj hfound
    rw [h.version (getSecretByName_eq_some.1 hrow).1]
  · -- a payload of its own is never proxied
    rw [refuseIf_eq_ok, bne_eq_false_iff_eq] at hmech
    exact absurd hmech (hpayload heph)

theorem Untouched.handleInner_eq (h : Untouched g s s') (hg : g ∈ s.grants.rows) (hfree : Unsquatted g s s')
    (hpayload : g.passthroughEphemeral = true → Mechanism.fromStrOpt g.mechanism ≠ some .brokered)
    (env : Proxy.ProxyEnv) (req : Proxy.ProxyRequest) (opened : Option Blob) (upstream : Proxy.Upstream) :
    (Proxy.handleInner env (atOnce s') g.id req opened upstream).1 =
      (Proxy.handleInner env (atOnce s) g.id req opened upstream).1 := by
  unfold Proxy.handleInner
  rw [h.admission hg hfree hpayload]
  cases Proxy.admission env (atOnce s) g.id req with
  | error e => rfl
  | ok a =>
      have hanswer := h.answer hg none (some a.version.id) .proxyAttempt env.replayWindow (some a.target) env.now
      simp only [Store.useAnswer] at hanswer
      dsimp only [atOnce]
      generalize (beginGrantUse g.id none (some a.version.id) .proxyAttempt env.replayWindow (some a.target)
        env.now).run s' = after at hanswer ⊢
      generalize (beginGrantUse g.id none (some a.version.id) .proxyAttempt env.replayWindow (some a.target)
        env.now).run s = before at hanswer ⊢
      obtain ⟨s₁, r⟩ := after
      obtain ⟨s₂, r'⟩ := before
      obtain rfl : r = r' := hanswer
      rcases r with e | r
      · rfl
      · cases r with
        | grantUse u => cases u <;> rfl
        | _ => rfl

/-! ## Every reachable state -/

/-- What callers keep to besides `StoreOp.Legit`: a brokered grant is only approved on a stored secret. -/
def ReleasesPayloads (op : StoreOp) : Prop :=
  ∀ now row, op.mints now = some row → row.passthroughEphemeral = true →
    Mechanism.fromStrOpt row.mechanism ≠ some .brokered

/-- No grant with a payload of its own is brokered. -/
def PayloadsReleased (s : Store) : Prop :=
  ∀ g ∈ s.grants.rows, g.passthroughEphemeral = true → Mechanism.fromStrOpt g.mechanism ≠ some .brokered

theorem payloadsReleased_write {op : StoreOp} (hop : ReleasesPayloads op) {now : DateTime} {held : Held LockKey}
    {f : Store → Store} (hf : StoreWrite (fun _ _ => True) op now held f) : Txn.Preserving PayloadsReleased held f := by
  intro s hs
  cases hf with
  | insertGrant row hm hlock =>
      intro g hg
      rcases Table.mem_of_mem_insert hg with hg | rfl
      · exact hs g hg
      · exact hop now _ hm
  | updateGrants p keys f hf hev =>
      intro g' hg'
      obtain ⟨g, hg, rfl⟩ := Table.exists_of_mem_update hf hg'
      split
      · rw [(hev g).ephemeral, (hev g).mechanism]
        exact hs g hg
      · exact hs g hg
  | _ => exact hs

theorem payloadsReleased_of_reachable {nameOf : Uuid → String} {c₀ : DateTime} {w : StoreWorld}
    (hw : w.Reachable window c₀ fun op => op.Legit nameOf ∧ ReleasesPayloads op) : PayloadsReleased w.store := by
  refine World.Reachable.store_inv (fun g hg => nomatch hg) ?_ hw
  intro op now hop
  exact txn_within hop.1.attempts fun held f hf => payloadsReleased_write hop.2 hf

/-- In every reachable state, whatever other clients then do, in any order and under any policies: reads and proxied
calls on a live grant come to what they would have come to at once. The exception is a grant with a payload of its own
under a name that was free, where one of them has stored a secret under that name, with a cap below the grant's
mechanism. -/
theorem grants_undisturbed {nameOf : Uuid → String} {c₀ : DateTime} {w : StoreWorld}
    (hw : w.Reachable window c₀ fun op => op.Legit nameOf ∧ ReleasesPayloads op) (hg : g ∈ w.store.grants.rows)
    (hlive : g.live w.clock = true) (clients : Table clientKeys)
    (hcalls : OtherCalls window g.clientName ops { w.store with clients := clients } s')
    (hfree : ¬ (g.passthroughEphemeral = true ∧ getSecretByName w.store g.secretName = none ∧
      ∃ row, getSecretByName s' g.secretName = some row ∧ capBelow g row = true)) :
    (∀ replayWindow now client key, readOutcome s' replayWindow now client g.id key =
        readOutcome { w.store with clients := clients } replayWindow now client g.id key) ∧
      ∀ env req opened upstream, (Proxy.handleInner env (atOnce s') g.id req opened upstream).1 =
        (Proxy.handleInner env (atOnce { w.store with clients := clients }) g.id req opened upstream).1 := by
  have hleft := hcalls.untouched hg
  have hun : Unsquatted g { w.store with clients := clients } s' := by
    cases hrow : getSecretByName w.store g.secretName with
    | some row => exact Or.inl ⟨row, hrow⟩
    | none =>
        have heph : g.passthroughEphemeral = true := by
          -- without a payload of its own, it has the row it was decided on
          by_contra heph
          rw [Bool.not_eq_true] at heph
          rw [GrantRow.live, Bool.and_eq_true, Bool.not_eq_true', decide_eq_true_eq] at hlive
          obtain ⟨⟨e, he, id, hdec⟩, hrows⟩ :=
            incarnation_of_reachable (hw.mono fun _ hop => hop.1) g hg heph hlive.1 hlive.2
          obtain ⟨row, hmem, hname, -⟩ := hrows e he id hdec
          rw [getSecretByName_eq_some.2 ⟨hmem, hname⟩] at hrow
          cases hrow
        refine Or.inr ⟨hrow, heph, fun row' hrow' => ?_⟩
        by_contra hbelow
        rw [Bool.not_eq_false] at hbelow
        exact hfree ⟨heph, hrow, row', hrow', hbelow⟩
  refine ⟨fun replayWindow now client key => hleft.readOutcome_eq hg hun replayWindow now client key, ?_⟩
  intro env req opened upstream
  exact hleft.handleInner_eq hg hun (payloadsReleased_of_reachable hw g hg) env req opened upstream

/-- An approval with a value that the operator typed in, and did not store. -/
def typedGrant : GrantParams :=
  { deployGrant with mechanism := "cli-read", secretId := none, passthrough := some ⟨[1], [2], [3]⟩ }

def typedOnce : List (StoreOp × DateTime) :=
  [(.insertAccessRequestWithId 5 { askedRequest with mechanism := "cli-read" } (some 20) .pending none 0,
      .ofSeconds 1000),
    (.approveRequest 5 "operator" 7 typedGrant none 0, .ofSeconds 1100)]

def agentOnly : Table clientKeys :=
  ⟨[⟨2, "agent", 2, ["cli-read"], true, false⟩], List.pairwise_singleton _ _⟩

def typedStore : Store := { playEnd (StoreOp.step 60) .empty typedOnce with clients := agentOnly }

theorem typed_reachable : ∃ log, StoreWorld.Reachable 60 (.ofSeconds 1000)
    (fun op => op.Legit (fun _ => "deploy-key") ∧ ReleasesPayloads op)
    ⟨playEnd (StoreOp.step 60) .empty typedOnce, .ofSeconds 1100, log, []⟩ := by
  have hrun := run_play (StoreOp.step 60) .empty (.ofSeconds 1000) typedOnce (by decide)
  refine hrun.reachable fun e he => ?_
  simp only [typedOnce, play, callEvent, List.mem_cons, List.not_mem_nil, or_false] at he
  rcases he with rfl | rfl
  · exact ⟨⟨rfl, by simp [StoreOp.creates], by simp⟩, by simp [ReleasesPayloads, StoreOp.mints, InitialResolution.grant]⟩
  · refine ⟨⟨rfl, by simp [StoreOp.creates], by simp [typedGrant]⟩, ?_⟩
    rintro now row hm -
    rw [← Option.some.inj hm]
    exact (by decide : Mechanism.fromStrOpt "cli-read" ≠ some .brokered)

/-- A deposit of the same name by another client. -/
def squat (maxTier : Tier) : StoreSecretParams where
  secretId := 9
  name := "deploy-key"
  description := ""
  maxTier := maxTier.asInt
  injectionKind := "bearer"
  injectionHeader := none
  injectionUsername := none
  sealWith := fun kek => some ⟨[4], [5], [6], kek⟩

def squatOp (maxTier : Tier) : StoreOp := .createSecretFromClient (squat maxTier) 10 "ci" ⟨10, 1⟩

theorem squat_called (maxTier : Tier) : OtherCalls 60 "agent" [squatOp maxTier] typedStore
    ((squatOp maxTier).step 60 (.ofSeconds 1200) typedStore).1 := by
  refine .call (.ofSeconds 1200) (.nil _) (by decide : "ci" ≠ "agent") ?_
  refine .deposit (fun _ _ => (squat maxTier).sealWith) true 9 ⟨"deploy-key", "s", .utf8, "", some maxTier, none, none⟩
    (squat maxTier) 10 ⟨10, 1⟩ ?_
  cases maxTier <;> rfl

/-- A payload that could be read, until another client deposited a secret under its name, at the default cap. -/
theorem grant_disturbed : ∃ w : StoreWorld, w.Reachable 60 (.ofSeconds 1000)
      (fun op => op.Legit (fun _ => "deploy-key") ∧ ReleasesPayloads op) ∧
    ∃ g ∈ w.store.grants.rows, g.live w.clock = true ∧
      ∃ ops s', OtherCalls 60 g.clientName ops { w.store with clients := agentOnly } s' ∧
        (readOutcome { w.store with clients := agentOnly } 60 (.ofSeconds 1300) "agent" g.id "read-1").toOption.isSome =
          true ∧
        readOutcome s' 60 (.ofSeconds 1300) "agent" g.id "read-1" = .error .revalidationFailed := by
  obtain ⟨log, hw⟩ := typed_reachable
  refine ⟨_, hw, typedGrant.row 7 5 (.ofSeconds 1100), List.mem_singleton_self _, rfl, _, _,
    squat_called .brokered, ?_, ?_⟩
  · rfl
  · rfl

/-- The deposit of a secret that covers the mechanism changes nothing. -/
theorem grants_undisturbed_covered :
    readOutcome ((squatOp .direct).step 60 (.ofSeconds 1200) typedStore).1 60 (.ofSeconds 1300) "agent" 7 "read-1" =
      readOutcome typedStore 60 (.ofSeconds 1300) "agent" 7 "read-1" := by
  obtain ⟨log, hw⟩ := typed_reachable
  refine (grants_undisturbed (g := typedGrant.row 7 5 (.ofSeconds 1100)) hw (List.mem_singleton_self _) rfl agentOnly
    (squat_called .direct) ?_).1 60 (.ofSeconds 1300) "agent" "read-1"
  rintro ⟨-, -, row, hrow, hbelow⟩
  have hsame : some ((squat .direct).row false false (.ofSeconds 1200)) = some row := hrow
  cases hsame
  cases hbelow

end
end Keychute.Api
