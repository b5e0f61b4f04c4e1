import Keychute.ActiveGrants
import Keychute.Incarnation

/-!
# What a replay still needs

* `secrets_step` : a commit keeps the stored secrets and their versions, or deletes one secret and leaves no live grant
  on its name. So what a live grant releases stays (`WhileLive.step`, `hasVersion_step`);
* `PayloadOk` : a grant has its own payload for as long as anything can be released under it;
* `ReadOk` : what a replay record keeps until its window closes;
* `Sound.commit` : every commit keeps both, as long as a use under a key names a version that is stored.
-/

namespace Keychute.Db
open Keychute.Lib

/-! ## The stored secrets -/

/-- A version of the secret of this name. -/
def Store.hasVersion (s : Store) (name : String) (versionId : Uuid) : Prop :=
  ∃ v ∈ s.versions.rows, v.id = versionId ∧ s.hasRow v.secretId name

/-- No live grant releases the secret of this name. -/
def Store.Orphaned (s : Store) (now : DateTime) (name : String) : Prop :=
  ∀ g ∈ s.grants.rows, g.secretName = name → g.passthroughEphemeral = false → g.live now = false

/-- How the secrets and their versions can change. -/
inductive SecretsStep (now : DateTime) (s s' : Store) : Prop where
  | kept (hrows : ∀ r ∈ s.secrets.rows, s'.hasRow r.id r.name) (hversions : ∀ v ∈ s.versions.rows, v ∈ s'.versions.rows)
  | deleted (row : SecretRow) (hrow : row ∈ s.secrets.rows)
      (hrows : ∀ r ∈ s.secrets.rows, r.id ≠ row.id → s'.hasRow r.id r.name)
      (hversions : ∀ v ∈ s.versions.rows, v.secretId ≠ row.id → v ∈ s'.versions.rows)
      (horphan : s'.Orphaned now row.name)

namespace SecretsStep
variable {now : DateTime} {s s' s'' : Store}

theorem of_eq (hs : s'.secrets = s.secrets) (hv : s'.versions = s.versions) : SecretsStep now s s' :=
  .kept (fun r hr => ⟨r, by rwa [hs], rfl, rfl⟩) fun v hvm => by rwa [hv]

theorem of_insert {row : SecretRow} {version : SecretVersionRow} (hs : s'.secrets = s.secrets.insert row)
    (hv : s'.versions = s.versions.insert version) : SecretsStep now s s' := by
  refine .kept ?_ ?_
  · intro r hr
    refine ⟨r, ?_, rfl, rfl⟩
    rw [hs]
    exact Table.mem_insert_of_mem hr
  · intro v hvm
    rw [hv]
    exact Table.mem_insert_of_mem hvm

theorem of_update {p : SecretRow → Bool} {f : SecretRow → SecretRow} (hf : ∀ r, secretKeys.key (f r) = secretKeys.key r)
    (hs : s'.secrets = s.secrets.update p f hf) (hv : ∀ v ∈ s.versions.rows, v ∈ s'.versions.rows) :
    SecretsStep now s s' := by
  refine .kept ?_ hv
  intro r hr
  refine ⟨_, by rw [hs]; exact Table.mem_update_of_mem hf hr, ?_⟩
  split
  · exact ⟨congrArg Prod.fst (hf r), congrArg Prod.snd (hf r)⟩
  · exact ⟨rfl, rfl⟩

end SecretsStep

section
variable {window : Int} {op : StoreOp} {now : DateTime} {s s' : Store} {r : Reply}

/-- A deletion revokes what the secret backed. -/
theorem orphaned_of_revoked {name : String}
    (h : s'.grants = s.grants.update (backedBy name now) GrantRow.revoke GrantRow.key_revoke) : s'.Orphaned now name := by
  intro g' hg' hname heph
  rw [h] at hg'
  obtain ⟨g, hg, rfl⟩ := Table.mem_update.1 hg'
  by_cases hb : backedBy name now g = true
  · rw [if_pos hb]
    rfl
  · rw [if_neg hb] at hname heph ⊢
    by_contra hlive
    rw [Bool.not_eq_false] at hlive
    exact hb (by simp [backedBy, hname, heph, hlive])

theorem reconcileOneSecret_secrets {keyset : Keyset} {d : DesiredSecret} {secretId versionId : Uuid}
    {collation : Collation} (h : (reconcileOneSecret keyset d secretId versionId now collation).exec s = .ok (r, s')) :
    SecretsStep now s s' := by
  obtain h | ⟨row, -, -, s₁, h₁, h₂, -⟩ := reconcileOneSecret_ok h
  · obtain ⟨_, _, _, _, _, _, _, rfl⟩ := provisionSecret_ok h
    exact .of_insert rfl rfl
  · -- the row may be adopted, and then rotated
    have hfirst : (∀ r ∈ s.secrets.rows, s₁.hasRow r.id r.name) ∧ s₁.versions = s.versions := by
      obtain ⟨-, h₁⟩ | ⟨-, rfl⟩ := h₁
      · obtain ⟨_, _, _, rfl⟩ := exec_adoptSecret_eq_ok h₁
        refine ⟨fun r hr => ⟨_, Table.mem_update_of_mem (d.key_adopt now) hr, ?_⟩, rfl⟩
        split <;> exact ⟨rfl, rfl⟩
      · exact ⟨fun r hr => ⟨r, hr, rfl, rfl⟩, rfl⟩
    obtain ⟨-, h₂⟩ | ⟨-, rfl⟩ := h₂
    · obtain ⟨_, _, _, _, _, _, _, rfl⟩ := exec_provisionVersion_eq_ok h₂
      refine .kept ?_ ?_
      · intro r hr
        obtain ⟨r₁, hr₁, hid, hname⟩ := hfirst.1 r hr
        refine ⟨_, Table.mem_update_of_mem (SecretRow.key_bumpVersion now) hr₁, ?_⟩
        split <;> exact ⟨hid, hname⟩
      · intro v hv
        rw [← hfirst.2] at hv
        exact Table.mem_insert_of_mem hv
    · exact .kept hfirst.1 fun v hv => by rwa [hfirst.2]

/-- Only a deletion takes secrets and versions away. -/
theorem secrets_step (h : (op.txn window now).exec s = .ok (r, s')) : SecretsStep now s s' := by
  cases op with
  | beginGrantUse grantId idemKey versionId kind target =>
      obtain ⟨_, _, _, ⟨_, _, _, _, rfl⟩ | ⟨_, _, _, rfl⟩⟩ := beginGrantUse_ok h <;> exact .of_eq rfl rfl
  | revokeGrant grantId actor =>
      obtain ⟨_, _, _, rfl⟩ := revokeGrant_ok h
      exact .of_eq rfl rfl
  | sweepPurgePassthroughs =>
      obtain ⟨_, rfl⟩ := sweepPurgePassthroughs_ok h
      exact .of_eq rfl rfl
  | unpinStaleGrantReads =>
      obtain ⟨_, rfl⟩ := unpinStaleGrantReads_ok h
      exact .of_eq rfl rfl
  | createSecretWithVersion store versionId actor =>
      obtain ⟨_, _, _, _, _, _, rfl⟩ := createSecretWithVersion_ok h
      exact .of_insert rfl rfl
  | createSecretFromClient store versionId clientName rate =>
      obtain ⟨_, _, _, _, rfl⟩ := createSecretFromClient_ok h
      exact .of_insert rfl rfl
  | markSecretVetted secretId reviewedVersion actor =>
      obtain ⟨_, _, _, rfl⟩ := markSecretVetted_ok h
      exact .of_update (SecretRow.key_vet now) rfl fun _ hv => hv
  | rotateSecretVersion secretId secretName actor sealAt versionId =>
      obtain ⟨_, _, _, _, _, _, _, _, rfl⟩ := rotateSecretVersion_ok h
      exact .of_update (SecretRow.key_rotate now) rfl fun _ hv => Table.mem_insert_of_mem hv
  | updateSecretSettingsAudited secretId settings actor =>
      obtain ⟨_, _, _, _, rfl⟩ := updateSecretSettingsAudited_ok h
      exact .of_update (settings.key_apply now) rfl fun _ hv => hv
  | deleteSecretAudited secretId expectedVersion actor =>
      obtain ⟨row, hrow, _, _, rfl, -, -, -, rfl⟩ := deleteSecretAudited_ok h
      refine .deleted row hrow ?_ ?_ (orphaned_of_revoked rfl)
      · intro x hx hne
        exact ⟨x, Table.mem_delete.2 ⟨hx, by simp [hne]⟩, rfl, rfl⟩
      · intro v hv hne
        exact Table.mem_delete.2 ⟨hv, by simp [hne]⟩
  | reconcileOneSecret keyset d secretId versionId => exact reconcileOneSecret_secrets h
  | insertAccessRequestWithId id req pendingCap resolution context grantId =>
      obtain ⟨_, _, _, _, _, rfl⟩ := insertAccessRequestWithId_ok h
      cases resolution.grant <;> exact .of_eq rfl rfl
  | approveRequest requestId resolvedBy grantId grant store versionId =>
      obtain ⟨_, _, stored, _, _, _, _, _, _, _, _, _, rfl⟩ := approveRequest_ok h
      cases stored with
      | none => exact .of_eq rfl rfl
      | some p => exact .of_insert rfl rfl
  | resolveApprove requestId resolvedBy grant grantId =>
      obtain ⟨_, _, _, _, _, _, _, rfl⟩ := resolveApprove_ok h
      exact .of_eq rfl rfl
  | resolveDeny requestId resolvedBy reason =>
      obtain ⟨_, _, _, _, _, rfl⟩ := resolveDeny_ok h
      exact .of_eq rfl rfl
  | expireStale =>
      obtain ⟨_, rfl⟩ := expireStale_ok h
      exact .of_eq rfl rfl
  | purgeRequestContext retentionSeconds =>
      obtain ⟨_, _, rfl⟩ := purgeRequestContext_ok h
      exact .of_eq rfl rfl

theorem hasRow_step (h : (op.txn window now).exec s = .ok (r, s')) {id : Uuid} {name : String} (hr : s.hasRow id name) :
    s'.hasRow id name ∨ s'.Orphaned now name := by
  obtain ⟨row, hrow, rfl, rfl⟩ := hr
  cases secrets_step h with
  | kept hrows hversions => exact Or.inl (hrows row hrow)
  | deleted gone hgone hrows hversions horphan =>
      by_cases hid : row.id = gone.id
      · rw [Table.eq_of_clash hrow hgone (Keys.pair_clashes.2 (Or.inl hid))]
        exact Or.inr horphan
      · exact Or.inl (hrows row hrow hid)

theorem hasVersion_step (h : (op.txn window now).exec s = .ok (r, s')) {name : String} {versionId : Uuid}
    (hv : s.hasVersion name versionId) : s'.hasVersion name versionId ∨ s'.Orphaned now name := by
  obtain ⟨v, hmem, rfl, hrow⟩ := hv
  rcases hasRow_step h hrow with hrow' | horphan
  · cases secrets_step h with
    | kept hrows hversions => exact Or.inl ⟨v, hversions v hmem, rfl, hrow'⟩
    | deleted gone hgone hrows hversions horphan =>
        by_cases hid : v.secretId = gone.id
        · obtain ⟨row, hr, hrid, rfl⟩ := hrow
          rw [Table.eq_of_clash hr hgone (Keys.pair_clashes.2 (Or.inl (hrid.trans hid)))]
          exact Or.inr horphan
        · exact Or.inl ⟨v, hversions v hmem hid, rfl, hrow'⟩
  · exact Or.inr horphan

end

/-! ## What a live grant releases -/

/-- As long as the grant is live and releases a stored secret, this holds of its name. -/
def Store.WhileLive (s : Store) (t : DateTime) (grantId : Uuid) (P : String → Prop) : Prop :=
  ∀ g ∈ s.grants.rows, g.id = grantId → g.passthroughEphemeral = false → g.live t = true → P g.secretName

section
variable {window : Int} {op : StoreOp} {t now : DateTime} {s s' : Store} {r : Reply}

theorem GrantRow.live_mono {g : GrantRow} (ht : t ≤ now) (h : g.live now = true) : g.live t = true := by
  by_contra hne
  rw [Bool.not_eq_true] at hne
  rw [(GrantRow.Evolves.refl g).dead ht hne] at h
  cases h

theorem Store.WhileLive.tick {grantId : Uuid} {P : String → Prop} (h : s.WhileLive t grantId P) (ht : t ≤ now) :
    s.WhileLive now grantId P := fun g hg hid heph hlive => h g hg hid heph (GrantRow.live_mono ht hlive)

/-- What is kept unless no live grant needs it is kept for the grant. -/
theorem Store.WhileLive.step {grantId : Uuid} {P P' : String → Prop} (hw : s.WhileLive now grantId P)
    (h : (op.txn window now).exec s = .ok (r, s')) (hg : ∃ g ∈ s.grants.rows, g.id = grantId)
    (hkeep : ∀ name, P name → P' name ∨ s'.Orphaned now name) : s'.WhileLive now grantId P' := by
  intro g' hg' hid heph hlive
  obtain ⟨g, hmem, rfl⟩ := hg
  obtain ⟨g'', hg'', hev, -⟩ := grant_step h hmem
  obtain rfl := findGrant_unique hg' hg'' (hid.trans hev.id.symm)
  have hlive₀ : g.live now = true := by
    by_contra hne
    rw [Bool.not_eq_true] at hne
    rw [hev.dead (le_refl now) hne] at hlive
    cases hlive
  rcases hkeep _ (hw g hmem rfl (hev.ephemeral ▸ heph) hlive₀) with hP | horphan
  · rwa [hev.secretName]
  · rw [horphan g' hg' hev.secretName heph] at hlive
    cases hlive

end

/-! ## The payloads and the replay records -/

/-- All parts of the payload. -/
def GrantRow.hasPayload (g : GrantRow) : Bool :=
  g.passthroughCiphertext.isSome && g.passthroughNonce.isSome && g.passthroughWrappedDek.isSome

/-- A grant of its own payload has it until nothing can be released under the grant, not even again. The other grants
never have one. -/
structure PayloadOk (s : Store) (window : Int) (t : DateTime) (g : GrantRow) : Prop where
  own : g.passthroughEphemeral = true → g.hasPayload = true ∨ s.silent window t g.id = true
  stored : g.passthroughEphemeral = false → g.passthroughCiphertext = none

/-- What a replay record keeps: whose payload it is, its version until the window closes, and the version's row for as
long as the grant can release it. -/
structure ReadOk (s : Store) (window : Int) (t : DateTime) (r : GrantReadRow) : Prop where
  grant : ∃ g ∈ s.grants.rows, g.id = r.grantId ∧ r.passthrough = g.passthroughEphemeral
  pinned : r.secretVersionId = none → r.firstReadAt.olderThan t window = true
  version : ∀ v ∈ r.secretVersionId, s.WhileLive t r.grantId (s.hasVersion · v)

structure Sound (window : Int) (s : Store) (t : DateTime) : Prop where
  payloads : ∀ g ∈ s.grants.rows, PayloadOk s window t g
  reads : ∀ r ∈ s.reads.rows, ReadOk s window t r

/-- A use under a key names a version of the grant's secret. -/
def StoreOp.Pins (op : StoreOp) (s : Store) (t : DateTime) : Prop :=
  ∀ grantId key versionId kind target, op = .beginGrantUse grantId (some key) versionId kind target →
    ∃ v, versionId = some v ∧ s.WhileLive t grantId (s.hasVersion · v)

theorem sound_empty (window : Int) (t : DateTime) : Sound window .empty t := ⟨by simp [Store.empty], by simp [Store.empty]⟩

section
variable {window : Int} {op : StoreOp} {t now : DateTime} {s s' : Store} {r : Reply}

theorem olderThan_mono {a : DateTime} (ht : t ≤ now) (h : a.olderThan t window = true) :
    a.olderThan now window = true := by
  rw [DateTime.le_def] at ht
  simp only [DateTime.olderThan, decide_eq_true_eq] at h ⊢
  omega

theorem not_within_of_olderThan {a : DateTime} (h : a.olderThan t window = true) :
    a.within t window = false := by
  simp only [DateTime.olderThan, DateTime.within, decide_eq_true_eq, decide_eq_false_iff_not] at h ⊢
  omega

theorem Sound.tick (h : Sound window s t) (ht : t ≤ now) : Sound window s now where
  payloads g hg :=
    { own := fun heph => ((h.payloads g hg).own heph).imp_right (silent_later ht)
      stored := (h.payloads g hg).stored }
  reads row hrow :=
    { grant := (h.reads row hrow).grant
      pinned := fun hnone => olderThan_mono ht ((h.reads row hrow).pinned hnone)
      version := fun v hv => ((h.reads row hrow).version v hv).tick ht }

theorem silent_step (h : (op.txn window now).exec s = .ok (r, s')) {id : Uuid} (hs : s.silent window now id = true) :
    s'.silent window now id = true := by
  have := @silent_call _ _ _ op _ hs
  rwa [StoreOp.step, Txn.run, h] at this

theorem silent_of_dead {g : GrantRow} (hg : g ∈ s.grants.rows) (hdead : g.live now = false) :
    s.silent window now g.id = true := silent_iff.2 ⟨g, findGrant_eq_some.2 ⟨hg, rfl⟩, Or.inl hdead⟩

/-- Nothing can be released under what the sweep purges. -/
theorem silent_of_purgeable {g : GrantRow} (hg : g ∈ s.grants.rows) (h : s.purgeable window now g = true) :
    s.silent window now g.id = true := by
  simp only [Store.purgeable, Bool.and_eq_true, Bool.or_eq_true, decide_eq_true_eq, Bool.not_eq_true'] at h
  obtain ⟨-, (hrev | hexp) | ⟨hused, hopen⟩⟩ := h
  · exact silent_of_dead hg (by rw [GrantRow.live, hrev]; rfl)
  · refine silent_of_dead hg ?_
    rw [GrantRow.live, decide_eq_false (not_lt_of_gt hexp), Bool.and_false]
  · refine silent_iff.2 ⟨g, findGrant_eq_some.2 ⟨hg, rfl⟩, Or.inr ⟨?_, hopen⟩⟩
    unfold GrantRow.usesLeft
    cases hm : g.maxUses with
    | none => simp [hm] at hused
    | some m =>
        simp only [hm, Option.any_some, decide_eq_true_eq, Option.all_some, decide_eq_false_iff_not] at hused ⊢
        omega

/-- A grant that keeps its payload. -/
theorem PayloadOk.evolve {g g' : GrantRow} (hp : PayloadOk s window now g)
    (h : (op.txn window now).exec s = .ok (r, s')) (hev : g.Evolves g') (hpay : g'.hasPayload = g.hasPayload)
    (hct : g'.passthroughCiphertext = g.passthroughCiphertext) : PayloadOk s' window now g' where
  own heph := by
    rw [hpay]
    exact (hp.own (hev.ephemeral ▸ heph)).imp_right fun hs => hev.id ▸ silent_step h hs
  stored heph := hct.trans (hp.stored (hev.ephemeral ▸ heph))

/-- A grant is minted with its whole payload. -/
theorem PayloadOk.minted {row : GrantRow} (hm : op.mints now = some row) : PayloadOk s window now row := by
  obtain ⟨p, id, requestId, rfl⟩ : ∃ p id requestId, row = GrantParams.row p id requestId now := by
    cases op with
    | approveRequest requestId resolvedBy grantId grant store versionId => exact ⟨grant, _, _, (Option.some.inj hm).symm⟩
    | resolveApprove requestId resolvedBy grant grantId => exact ⟨grant, _, _, (Option.some.inj hm).symm⟩
    | insertAccessRequestWithId id req pendingCap resolution context grantId =>
        obtain ⟨grant, -, hrow⟩ := Option.map_eq_some_iff.1 hm
        exact ⟨grant, _, _, hrow.symm⟩
    | _ => cases hm
  unfold GrantParams.row
  refine ⟨fun heph => Or.inl ?_, fun heph => ?_⟩
  · obtain ⟨payload, hp⟩ := Option.isSome_iff_exists.1 heph
    simp [GrantRow.hasPayload, hp]
  · simpa using heph

theorem payloads_step (hp : ∀ g ∈ s.grants.rows, PayloadOk s window now g)
    (h : (op.txn window now).exec s = .ok (r, s')) : ∀ g ∈ s'.grants.rows, PayloadOk s' window now g := by
  intro g' hg'
  have hsame : g' ∈ s.grants.rows → PayloadOk s' window now g' := fun hg => (hp g' hg).evolve h (.refl g') rfl rfl
  cases (commit_step h).grants with
  | same hr heq => exact hsame (heq ▸ hg')
  | used g₀ hg₀ hop hlive hleft hr heq =>
      rw [heq] at hg'
      obtain ⟨g, hg, rfl⟩ := Table.mem_update.1 hg'
      by_cases hid : (g.id == g₀.id) = true
      · rw [if_pos hid]
        exact (hp g hg).evolve h (.bump g) rfl rfl
      · rw [if_neg hid] at hsame ⊢
        exact hsame hg
  | revoked hr p heq =>
      rw [heq] at hg'
      obtain ⟨g, hg, rfl⟩ := Table.mem_update.1 hg'
      by_cases hpg : p g = true
      · rw [if_pos hpg]
        refine ⟨fun _ => Or.inr ?_, fun _ => rfl⟩
        refine silent_of_dead (g := g.revoke) ?_ rfl
        rw [heq]
        exact Table.mem_update.2 ⟨g, hg, by rw [if_pos hpg]⟩
      · rw [if_neg hpg] at hsame ⊢
        exact hsame hg
  | purged hr heq =>
      rw [heq] at hg'
      obtain ⟨g, hg, rfl⟩ := Table.mem_update.1 hg'
      by_cases hpg : s.purgeable window now g = true
      · rw [if_pos hpg]
        have hs := silent_of_purgeable hg hpg
        exact ⟨fun _ => Or.inr (silent_step h hs), fun _ => rfl⟩
      · rw [if_neg hpg] at hsame ⊢
        exact hsame hg
  | minted hr row hm hfresh heq =>
      rw [heq] at hg'
      rcases Table.mem_of_mem_insert hg' with hold | rfl
      · exact hsame hold
      · exact .minted hm

/-- What can be released under a live grant of its own payload is still there. -/
theorem PayloadOk.has {g : GrantRow} (hp : PayloadOk s window now g) (hg : g ∈ s.grants.rows) (hlive : g.live now = true)
    (hopen : g.usesLeft = true ∨ s.replayOpen g.id window now = true) (heph : g.passthroughEphemeral = true) :
    g.hasPayload = true := by
  refine (hp.own heph).resolve_right fun hs => ?_
  obtain ⟨g', hg', hcase⟩ := silent_iff.1 hs
  obtain rfl := findGrant_unique hg (findGrant_eq_some.1 hg').1 (findGrant_eq_some.1 hg').2.symm
  rcases hcase with hdead | ⟨hleft, hclosed⟩
  · rw [hlive] at hdead
    cases hdead
  · rw [hleft, hclosed] at hopen
    simp at hopen

/-- While a first use is possible, a grant has a payload exactly if it is one of its own. -/
theorem PayloadOk.isSome {g : GrantRow} (hp : PayloadOk s window now g) (hg : g ∈ s.grants.rows)
    (hlive : g.live now = true) (hleft : g.usesLeft = true) :
    g.passthroughCiphertext.isSome = g.passthroughEphemeral := by
  cases heph : g.passthroughEphemeral with
  | false => rw [hp.stored heph]; rfl
  | true =>
      have hpay := hp.has hg hlive (Or.inl hleft) heph
      rw [GrantRow.hasPayload, Bool.and_eq_true, Bool.and_eq_true] at hpay
      exact hpay.1.1

theorem ReadOk.step {row : GrantReadRow} (hr : ReadOk s window now row) (h : (op.txn window now).exec s = .ok (r, s')) :
    ReadOk s' window now row where
  grant := by
    obtain ⟨g, hg, hid, hpass⟩ := hr.grant
    obtain ⟨g', hg', hev, -⟩ := grant_step h hg
    exact ⟨g', hg', hev.id.trans hid, hpass.trans hev.ephemeral.symm⟩
  pinned := hr.pinned
  version v hv := by
    obtain ⟨g, hg, hid, -⟩ := hr.grant
    exact (hr.version v hv).step h ⟨g, hg, hid⟩ fun name => hasVersion_step h

theorem ReadOk.unpin {row : GrantReadRow} (hr : ReadOk s window now row)
    (hclosed : row.firstReadAt.olderThan now window = true) : ReadOk s window now row.unpin where
  grant := hr.grant
  pinned _ := hclosed
  version v hv := absurd hv (by simp [GrantReadRow.unpin])

/-- Every commit keeps what replays need, if a use under a key names a version that is stored. -/
theorem Sound.commit (hs : Sound window s now) (hpins : op.Pins s now)
    (h : (op.txn window now).exec s = .ok (r, s')) : Sound window s' now := by
  refine ⟨payloads_step hs.payloads h, fun row hrow => ?_⟩
  have hsame : row ∈ s.reads.rows → ReadOk s' window now row := fun hold => (hs.reads row hold).step h
  cases (commit_step h).reads with
  | same heq => exact hsame (heq ▸ hrow)
  | unpinned heq =>
      rw [heq] at hrow
      obtain ⟨row₀, hrow₀, rfl⟩ := Table.mem_update.1 hrow
      by_cases hp : unpinnable window now row₀ = true
      · rw [if_pos hp]
        rw [unpinnable, Bool.and_eq_true] at hp
        exact ((hs.reads row₀ hrow₀).step h).unpin hp.1
      · rw [if_neg hp] at hsame ⊢
        exact hsame hrow₀
  | recorded g key versionId hg hop hnone heq =>
      obtain ⟨kind, target, rfl⟩ := hop
      obtain ⟨g', hg', hlive, ⟨_, _, _, _, rfl⟩ | ⟨-, hleft, -, -⟩⟩ := beginGrantUse_ok h
      · exact hsame hrow
      · obtain rfl := Option.some.inj (hg.symm.trans hg')
        rw [heq] at hrow
        rcases Table.mem_of_mem_insert hrow with hold | rfl
        · exact hsame hold
        · -- the record of this use
          have hmem := (findGrant_eq_some.1 hg).1
          obtain ⟨g'', hg'', hev, -⟩ := grant_step h hmem
          obtain ⟨v, rfl, hv⟩ := hpins g.id key versionId kind target rfl
          refine ⟨⟨g'', hg'', hev.id, ?_⟩, fun hnone => absurd hnone (by simp), ?_⟩
          · rw [hev.ephemeral]
            exact (hs.payloads g hmem).isSome hmem hlive hleft
          · intro v' hv'
            obtain rfl := Option.some.inj hv'
            exact hv.step h ⟨g, hmem, rfl⟩ fun name => hasVersion_step h

/-- Every call keeps what replays need. -/
theorem Sound.call (hs : Sound window s t) (ht : t ≤ now) (hpins : op.Pins s now) :
    Sound window (op.step window now s).1 now := by
  rcases op.step_cases window now s with ⟨r, s', hexec, hstep⟩ | ⟨r, hexec, hstep⟩
  · rw [hstep]
    exact (hs.tick ht).commit hpins hexec
  · rw [hstep]
    exact hs.tick ht

end
end Keychute.Db
