import Keychute.Crypto
import Keychute.Db.Ops
import Mathlib.Data.Prod.Lex
import Mathlib.Data.String.Basic

/-!
# Stored secrets from config (`server/src/db/provision.rs`)

* `Startup` : what a run of the server draws at random or reads off the database's clock and row order;
* `reconcileSecrets` : one transaction for each listed secret, then one for each managed row no longer listed;
* `AsDesired`, `Kept` : a row as config wants it, a row left alone;
* `Settled` : what a run is to establish, and that the next one writes nothing;
* `reconcileSecrets_settled_iff` : when it does. The tags of a row come back in the order of the database's collation and
  are compared, as a sequence, with tags sorted by bytes.
-/

namespace Keychute.Reconcile
open Keychute.Db Keychute.Lib
open Keychute.Crypto (Aead KeyMaterial XNonce AadContext)

/-! ## The run -/

/-- Drawn for one listed secret: ids, a data key with its nonces, and the time of the transaction. -/
structure Draw where
  secretId : Uuid
  versionId : Uuid
  dek : KeyMaterial
  payloadNonce : XNonce
  wrapNonce : XNonce
  now : DateTime

/-- Drawn for one startup. `scan` is the order in which the database returns the rows of an unordered `SELECT`. -/
structure Startup where
  draws : Nat → Draw
  scan : List SecretRow → List SecretRow
  scan_perm : ∀ rows, (scan rows).Perm rows
  deletedAt : Uuid → DateTime

section Run
variable (A : Aead) (K : Crypto.Keyset) (collation : Collation)

/-- `Keyset::seal` and `Keyset::open` for the versions of stored secrets. -/
def storedKeyset (w : Draw) : Db.Keyset where
  sealFor id version value kekId :=
    (do
      let kek ← K.kek kekId
      Crypto.sealWithKek A w.dek w.payloadNonce w.wrapNonce kek kekId value (.secretVersion id version)).toOption
  openFor id version sealed :=
    (K.openSealed A sealed.ciphertext sealed.nonce sealed.wrappedDek sealed.kekId (.secretVersion id version)).toOption

/-- One transaction for each listed secret; those before an error stay. -/
def reconcileEach : List DesiredSecret → (Nat → Draw) → Store → Store × Except DbError (List (String × Reply))
  | [], _, s => (s, .ok [])
  | d :: desired, draws, s =>
    let w := draws 0
    match (reconcileOneSecret (storedKeyset A K w) d w.secretId w.versionId w.now collation).run s with
    | (s, .error e) => (s, .error e)
    | (s, .ok change) =>
      match reconcileEach desired (fun i => draws (i + 1)) s with
      | (s, .error e) => (s, .error e)
      | (s, .ok changes) => (s, .ok ((d.name, change) :: changes))

/-- `delete_secret_audited` by `config`, for each row; its outcome is only logged. -/
def removeStale (deletedAt : Uuid → DateTime) : List SecretRow → Store → Store × Except DbError Unit
  | [], s => (s, .ok ())
  | row :: rows, s =>
    match (deleteSecretAudited row.id row.currentVersion "config" (deletedAt row.id)).run s with
    | (s, .error e) => (s, .error e)
    | (s, .ok _) => removeStale deletedAt rows s

/-- `managed_by_config AND name <> ALL($1)`. -/
def unlisted (desired : List DesiredSecret) (r : SecretRow) : Bool :=
  r.managedByConfig && !(desired.map (·.name)).contains r.name

def reconcileSecrets (desired : List DesiredSecret) (u : Startup) (s : Store) :
    Store × Except DbError (List (String × Reply)) :=
  match reconcileEach A K collation desired u.draws s with
  | (s, .error e) => (s, .error e)
  | (s, .ok changes) =>
    match removeStale u.deletedAt (u.scan (s.secrets.rows.filter (unlisted desired))) s with
    | (s, .error e) => (s, .error e)
    | (s, .ok ()) => (s, .ok changes)

end Run

/-! ## What a run is to establish -/

/-- The tags of a stored secret. -/
def tagRows (s : Store) (id : Uuid) : List SecretTagRow := s.tags.rows.filter (·.secretId == id)

def versionRows (s : Store) (id : Uuid) : List SecretVersionRow := s.versions.rows.filter (·.secretId == id)

/-- The grants on a name. -/
def grantRows (s : Store) (name : String) : List GrantRow := s.grants.rows.filter (·.secretName == name)

/-- A row with its tags and versions, left alone. -/
structure Kept (s s' : Store) (r : SecretRow) : Prop where
  row : r ∈ s'.secrets.rows
  tags : tagRows s' r.id = tagRows s r.id
  versions : versionRows s' r.id = versionRows s r.id

/-- A managed, enabled and vetted row with the configured metadata and tags. -/
structure HasMetadata (s : Store) (d : DesiredSecret) (r : SecretRow) : Prop where
  name : r.name = d.name
  description : r.description = d.description
  maxTier : r.maxTier = d.maxTier
  injectionKind : r.injectionKind = d.injectionKind
  injectionHeader : r.injectionHeader = d.injectionHeader
  injectionUsername : r.injectionUsername = d.injectionUsername
  enabled : r.enabled = true
  vetted : r.operatorVetted = true
  managed : r.managedByConfig = true
  tags : ∀ tag, ⟨r.id, tag⟩ ∈ s.tags.rows ↔ tag ∈ d.tags

/-- Such a row whose current version opens to the configured value. -/
structure AsDesired (A : Aead) (K : Crypto.Keyset) (s : Store) (d : DesiredSecret) (r : SecretRow) : Prop extends
    HasMetadata s d r where
  value : ∃ v, s.currentVersionOf r = some v ∧
    K.openSealed A v.sealed.ciphertext v.sealed.nonce v.sealed.wrappedDek v.sealed.kekId
      (.secretVersion v.secretId v.version) = .ok d.value

/-- The run from `s` to `s'` did what config asks for. -/
structure Established (A : Aead) (K : Crypto.Keyset) (desired : List DesiredSecret) (u : Startup) (s s' : Store) :
    Prop where
  listed : ∀ d ∈ desired, ∃ r ∈ s'.secrets.rows, AsDesired A K s' d r ∧ ∀ r' ∈ s'.secrets.rows, r'.name = d.name → r' = r
  removed : ∀ r ∈ s'.secrets.rows, unlisted desired r = false
  revoked : ∀ r ∈ s.secrets.rows, unlisted desired r = true →
    ∀ t, u.deletedAt r.id ≤ t → ∀ g ∈ s'.grants.rows, backedBy r.name t g = false
  untouched : ∀ r ∈ s.secrets.rows, r.managedByConfig = false → (∀ d ∈ desired, d.name ≠ r.name) →
    Kept s s' r ∧ grantRows s' r.name = grantRows s r.name

/-- And another run reports `Unchanged` for every secret and leaves the store as it is. -/
structure Settled (A : Aead) (K : Crypto.Keyset) (collation : Collation) (desired : List DesiredSecret) (u : Startup)
    (s s' : Store) : Prop extends Established A K desired u s s' where
  again : ∀ u' : Startup, reconcileSecrets A K collation desired u' s' =
    (s', .ok (desired.map fun d => (d.name, .change .unchanged)))

/-- On these tags the collation sorts the way bytes do. -/
def agreesOn (collation : Collation) (tags : List String) : Prop :=
  ∀ a ∈ tags, ∀ b ∈ tags, a ≤ b → collation.le a b = true

/-! ## Sorted tags -/

theorem mem_sortDedup {tags : List String} {tag : String} : tag ∈ sortDedup tags ↔ tag ∈ tags := by
  rw [sortDedup, List.mem_dedup, (List.mergeSort_perm _ _).mem_iff]

theorem sortDedup_nodup (tags : List String) : (sortDedup tags).Nodup := List.nodup_dedup _

theorem sortDedup_sorted (tags : List String) : (sortDedup tags).Pairwise (· ≤ ·) := by
  have hsorted := List.pairwise_mergeSort Collation.bytes.trans Collation.bytes.total tags
  exact (hsorted.imp fun h => by simpa [Collation.bytes] using h).sublist (List.dedup_sublist _)

theorem collation_refl (collation : Collation) (a : String) : collation.le a a = true := by
  simpa using collation.total a a

/-- A list that the two parties sort alike is one on which their orders agree. -/
theorem sortDedup_pairwise_iff {collation : Collation} {tags : List String} :
    (sortDedup tags).Pairwise (fun a b => collation.le a b = true) ↔ agreesOn collation tags := by
  constructor
  · intro h a ha b hb hab
    let S : String → String → Prop := fun x y =>
      (x ≤ y → collation.le x y = true) ∧ (y ≤ x → collation.le y x = true)
    have hS : (sortDedup tags).Pairwise S := by
      refine ((sortDedup_sorted tags).and h).imp fun {x y} hxy => ⟨fun _ => hxy.2, fun hyx => ?_⟩
      rw [String.le_antisymm hyx hxy.1]
      exact collation_refl collation x
    have : Std.Symm S := ⟨fun x y hxy => ⟨hxy.2, hxy.1⟩⟩
    have hrefl : ∀ x ∈ sortDedup tags, S x x := fun x _ => ⟨fun _ => collation_refl collation x, fun _ => collation_refl collation x⟩
    exact (hS.forall_of_forall hrefl (mem_sortDedup.2 ha) (mem_sortDedup.2 hb)).1 hab
  · intro h
    refine (sortDedup_sorted tags).imp_of_mem fun {a b} ha hb hab => ?_
    exact h a (mem_sortDedup.1 ha) b (mem_sortDedup.1 hb) hab

theorem tagsOf_perm {s : Store} {id : Uuid} {collation : Collation} {tags : List String}
    (h : ∀ tag, ⟨id, tag⟩ ∈ s.tags.rows ↔ tag ∈ tags) : (s.tagsOf id collation).Perm (sortDedup tags) := by
  refine (List.mergeSort_perm _ _).trans ?_
  have hnodup : ((s.tags.rows.filter (·.secretId == id)).map (·.tag)).Nodup := by
    rw [List.Nodup, List.pairwise_map]
    refine (s.tags.distinct.filter _).imp_of_mem fun {a b} ha hb hab heq => ?_
    have hid : a.secretId = b.secretId := by
      have ha := (List.mem_filter.1 ha).2
      have hb := (List.mem_filter.1 hb).2
      exact (beq_iff_eq.1 ha).trans (beq_iff_eq.1 hb).symm
    have hclash : tagKeys.clashes a b = true := Keys.single_clashes.2 (by rw [hid, heq])
    rw [hclash] at hab
    cases hab
  refine (List.perm_ext_iff_of_nodup hnodup (sortDedup_nodup tags)).2 fun tag => ?_
  rw [mem_sortDedup, ← h]
  constructor
  · intro ht
    obtain ⟨row, hrow, rfl⟩ := List.mem_map.1 ht
    obtain ⟨hmem, hid⟩ := List.mem_filter.1 hrow
    rw [← beq_iff_eq.1 hid]
    exact hmem
  · intro ht
    exact List.mem_map.2 ⟨⟨id, tag⟩, List.mem_filter.2 ⟨ht, beq_self_eq_true id⟩, rfl⟩

/-- The tags of a row with the configured ones come back as startup sorts them exactly where the orders agree. -/
theorem tagsOf_eq_iff {s : Store} {id : Uuid} {collation : Collation} {tags : List String}
    (h : ∀ tag, ⟨id, tag⟩ ∈ s.tags.rows ↔ tag ∈ tags) :
    s.tagsOf id collation = sortDedup tags ↔ agreesOn collation tags := by
  rw [← sortDedup_pairwise_iff]
  have hsorted : (s.tagsOf id collation).Pairwise (fun a b => collation.le a b = true) :=
    List.pairwise_mergeSort collation.trans collation.total _
  constructor
  · intro heq
    rwa [heq] at hsorted
  · intro hpair
    exact (tagsOf_perm h).eq_of_pairwise (fun a b _ _ => collation.antisymm a b) hsorted hpair

theorem mem_of_tagsOf {s : Store} {id : Uuid} {collation : Collation} {tags : List String}
    (h : s.tagsOf id collation = sortDedup tags) (tag : String) : ⟨id, tag⟩ ∈ s.tags.rows ↔ tag ∈ tags := by
  rw [← mem_sortDedup, ← h, Store.tagsOf, (List.mergeSort_perm _ _).mem_iff, List.mem_map]
  constructor
  · intro hmem
    exact ⟨⟨id, tag⟩, List.mem_filter.2 ⟨hmem, beq_self_eq_true id⟩, rfl⟩
  · intro ⟨row, hrow, htag⟩
    obtain ⟨hmem, hid⟩ := List.mem_filter.1 hrow
    rw [← beq_iff_eq.1 hid, ← htag]
    exact hmem

/-! ## One statement -/

section Statements
variable {s s' : Store} {now : DateTime}

theorem exec_insertTags_rows {secretId : Uuid} {tags : List String} {a : Unit}
    (h : (insertTags secretId tags).exec s = .ok (a, s')) :
    (∀ id, id ≠ secretId → tagRows s' id = tagRows s id) ∧
      ∀ tag, ⟨secretId, tag⟩ ∈ s'.tags.rows ↔ ⟨secretId, tag⟩ ∈ s.tags.rows ∨ tag ∈ tags := by
  induction tags generalizing s with
  | nil =>
      simp only [insertTags, Txn.exec_pure_eq_ok] at h
      obtain ⟨_, rfl⟩ := h
      exact ⟨fun _ _ => rfl, fun tag => by simp⟩
  | cons tag tags ih =>
      simp only [insertTags, Txn.exec_bind_eq_ok, Rel.exec_insertOnConflict_eq_ok] at h
      obtain ⟨_, _, ⟨hthere, _, rfl⟩ | ⟨_, hfresh, _, rfl⟩, h⟩ := h
      · -- the tag is there
        obtain ⟨hother, hmem⟩ := ih h
        refine ⟨hother, fun tag' => ?_⟩
        have hold : (⟨secretId, tag⟩ : SecretTagRow) ∈ s.tags.rows := by
          obtain ⟨⟨i, x⟩, hx, hid⟩ := List.any_eq_true.1 hthere
          simp only [Bool.and_eq_true, beq_iff_eq] at hid
          obtain ⟨rfl, rfl⟩ := hid
          exact hx
        rw [hmem, List.mem_cons]
        grind
      · obtain ⟨hother, hmem⟩ := ih h
        refine ⟨fun id hid => (hother id hid).trans ?_, fun tag' => ?_⟩
        · have hne : (secretId == id) = false := beq_eq_false_iff_ne.2 (Ne.symm hid)
          simp [tagRows, Table.insert_rows hfresh, hne]
        · rw [hmem, Table.insert_rows hfresh, List.mem_append, List.mem_singleton, List.mem_cons]
          simp only [SecretTagRow.mk.injEq, true_and, or_assoc]

/-- A secret's tags are what they were replaced with, and no other secret's change. -/
theorem exec_replaceTags_rows {secretId : Uuid} {tags : List String} {a : Unit}
    (h : (replaceTags secretId tags).exec s = .ok (a, s')) :
    (∀ id, id ≠ secretId → tagRows s' id = tagRows s id) ∧ ∀ tag, ⟨secretId, tag⟩ ∈ s'.tags.rows ↔ tag ∈ tags := by
  simp only [replaceTags, Txn.exec_bind_eq_ok, Rel.exec_deleteWhere_eq_ok] at h
  obtain ⟨_, _, ⟨_, rfl⟩, h⟩ := h
  obtain ⟨hother, hmem⟩ := exec_insertTags_rows h
  refine ⟨fun id hid => (hother id hid).trans ?_, fun tag => ?_⟩
  · rw [tagRows, tagRows, Table.delete_rows, List.filter_filter]
    refine List.filter_congr fun t _ => ?_
    by_cases ht : t.secretId = id <;> simp [ht, hid]
  · rw [hmem, Table.mem_delete]
    simp

/-- What a sealing under `storedKeyset` opens to. -/
theorem storedKeyset_opens {A : Aead} (hA : A.Ideal) {K : Crypto.Keyset} {w : Draw} {id : Uuid} {version : Int}
    {value : Blob} {kekId : String} {x : Sealed} (h : (storedKeyset A K w).sealFor id version value kekId = some x) :
    K.openSealed A x.ciphertext x.nonce x.wrappedDek kekId (.secretVersion id version) = .ok value := by
  simp only [storedKeyset] at h
  cases hk : K.keys kekId with
  | none => simp [Crypto.Keyset.kek, hk, bind, Except.bind, Except.toOption] at h
  | some kek =>
      obtain ⟨c, hc⟩ := hA.total w.dek w.payloadNonce (AadContext.secretVersion id version).derive value
      obtain ⟨b, hb, hwraps⟩ := Crypto.wrapDek_ok hA kek w.wrapNonce w.dek
      have hsealed : x = ⟨c, w.payloadNonce.val, b, kekId⟩ := by
        simpa [Crypto.Keyset.kek, hk, bind, Except.bind, Crypto.sealWithKek, hc, hb, pure, Except.pure, Except.toOption]
          using h.symm
      subst hsealed
      have hopen := Crypto.openWithKek_same hA (n := w.payloadNonce) (c := c) hwraps (.secretVersion id version)
      rw [hA.inverts hc] at hopen
      simp only [Crypto.Keyset.openSealed, Crypto.Keyset.kek, hk]
      exact hopen

/-- A value just sealed is a version of its secret that opens to it; the others stay. -/
theorem exec_insertVersion_rows {A : Aead} (hA : A.Ideal) {K : Crypto.Keyset} {w : Draw} {versionId secretId : Uuid}
    {version : Int} {value : Blob} {a : Unit}
    (h : (insertVersion (storedKeyset A K w) versionId secretId version value now).exec s = .ok (a, s')) :
    ∃ v, s.versions.Fresh v ∧ v.secretId = secretId ∧ v.version = version ∧
      K.openSealed A v.sealed.ciphertext v.sealed.nonce v.sealed.wrappedDek v.sealed.kekId
        (.secretVersion v.secretId v.version) = .ok value ∧
      s' = { s with versions := s.versions.insert v } := by
  simp only [insertVersion, insertSecretVersion, Txn.exec_bind_eq_ok, Rel.exec_insertOrFail_eq_ok] at h
  obtain ⟨sealed, _, hseal, hfresh, rfl⟩ := h
  obtain ⟨x, hx, rfl⟩ := exec_sealNow_sealed hseal
  obtain rfl := exec_sealNow_eq_ok hseal
  have hopen := storedKeyset_opens hA hx
  exact ⟨_, hfresh, rfl, rfl, hopen, rfl⟩

theorem versionRows_insert {v : SecretVersionRow} (h : s.versions.Fresh v) {id : Uuid} (hid : id ≠ v.secretId) :
    (s.versions.insert v).rows.filter (·.secretId == id) = s.versions.rows.filter (·.secretId == id) := by
  have hne : (v.secretId == id) = false := beq_eq_false_iff_ne.2 (Ne.symm hid)
  simp [Table.insert_rows h, hne]

/-- The version with a row's current number is its current one. -/
theorem currentVersionOf_eq {r : SecretRow} {v : SecretVersionRow} :
    s.currentVersionOf r = some v ↔ v ∈ s.versions.rows ∧ v.secretId = r.id ∧ v.version = r.currentVersion := by
  have hkey : ∀ a b : SecretVersionRow, (a.secretId == r.id && a.version == r.currentVersion) = true →
      (b.secretId == r.id && b.version == r.currentVersion) = true → versionKeys.clashes a b = true := by
    intro a b ha hb
    simp only [Bool.and_eq_true, beq_iff_eq] at ha hb
    refine Keys.pair_clashes.2 (.inr ?_)
    rw [ha.1, ha.2, hb.1, hb.2]
  rw [Store.currentVersionOf, Table.find?_eq_some hkey]
  simp

theorem row_eq_of_name {a b : SecretRow} (ha : a ∈ s.secrets.rows) (hb : b ∈ s.secrets.rows) (h : a.name = b.name) :
    a = b :=
  Table.eq_of_clash ha hb (Keys.pair_clashes.2 (.inr h))

/-- No secret but `id` changed. -/
structure OnlySecret (id : Uuid) (s s' : Store) : Prop where
  rows : ∀ r : SecretRow, r.id ≠ id → (r ∈ s'.secrets.rows ↔ r ∈ s.secrets.rows)
  tags : ∀ i, i ≠ id → tagRows s' i = tagRows s i
  versions : ∀ i, i ≠ id → versionRows s' i = versionRows s i

theorem OnlySecret.refl (id : Uuid) (s : Store) : OnlySecret id s s :=
  ⟨fun _ _ => Iff.rfl, fun _ _ => rfl, fun _ _ => rfl⟩

theorem OnlySecret.trans {id : Uuid} {s s₁ s₂ : Store} (h : OnlySecret id s s₁) (h' : OnlySecret id s₁ s₂) :
    OnlySecret id s s₂ where
  rows r hr := (h'.rows r hr).trans (h.rows r hr)
  tags i hi := (h'.tags i hi).trans (h.tags i hi)
  versions i hi := (h'.versions i hi).trans (h.versions i hi)

theorem OnlySecret.kept {id : Uuid} (h : OnlySecret id s s') {r : SecretRow} (hr : r ∈ s.secrets.rows)
    (hid : r.id ≠ id) : Kept s s' r :=
  ⟨(h.rows r hid).2 hr, h.tags r.id hid, h.versions r.id hid⟩

theorem Kept.trans {s s₁ s₂ : Store} {r : SecretRow} (h : Kept s s₁ r) (h' : Kept s₁ s₂ r) : Kept s s₂ r :=
  ⟨h'.row, h'.tags.trans h.tags, h'.versions.trans h.versions⟩

/-- A row as config wants it stays so while it is left alone. -/
theorem AsDesired.kept {A : Aead} {K : Crypto.Keyset} {d : DesiredSecret} {r : SecretRow} (h : AsDesired A K s d r)
    (hk : Kept s s' r) : AsDesired A K s' d r where
  toHasMetadata := by
    refine { h.toHasMetadata with tags := fun tag => ?_ }
    rw [← h.tags tag]
    have hmem : ∀ s : Store, (⟨r.id, tag⟩ : SecretTagRow) ∈ s.tags.rows ↔ ⟨r.id, tag⟩ ∈ tagRows s r.id := by
      intro s
      simp [tagRows]
    rw [hmem, hmem, hk.tags]
  value := by
    obtain ⟨v, hv, hopen⟩ := h.value
    have hmem : ∀ s : Store, s.currentVersionOf r = some v ↔ v ∈ versionRows s r.id ∧ v.version = r.currentVersion := by
      intro s
      rw [currentVersionOf_eq, versionRows, List.mem_filter, beq_iff_eq, and_assoc]
    rw [hmem, ← hk.versions, ← hmem] at hv
    exact ⟨v, hv, hopen⟩

/-- An `UPDATE` of the row with an id leaves the others. -/
theorem mem_update_of_id {id : Uuid} {f : SecretRow → SecretRow} (hf : ∀ r, secretKeys.key (f r) = secretKeys.key r)
    {r : SecretRow} (hr : r.id ≠ id) :
    r ∈ (s.secrets.update (·.id == id) f hf).rows ↔ r ∈ s.secrets.rows := by
  rw [Table.mem_update]
  constructor
  · rintro ⟨a, ha, hra⟩
    split at hra
    · rename_i haid
      have hid : r.id = a.id := by
        rw [hra]
        exact congrArg Prod.fst (hf a)
      exact absurd (hid.trans (beq_iff_eq.1 haid)) hr
    · rw [hra]
      exact ha
  · intro h
    exact ⟨r, h, by simp [hr]⟩

theorem provisionSecret_spec {A : Aead} (hA : A.Ideal) {K : Crypto.Keyset} {w : Draw} {d : DesiredSecret}
    {secretId versionId : Uuid} {r : Reply}
    (h : (provisionSecret (storedKeyset A K w) d secretId versionId now).exec s = .ok (r, s')) :
    OnlySecret secretId s s' ∧ (∀ row ∈ s.secrets.rows, row.id ≠ secretId) ∧ r = .change .created ∧
      d.row secretId now ∈ s'.secrets.rows ∧ AsDesired A K s' d (d.row secretId now) := by
  simp only [provisionSecret, Txn.exec_bind_eq_ok, Rel.exec_insertOrFail_eq_ok, exec_insertAudit_eq_ok,
    Txn.exec_pure_eq_ok] at h
  obtain ⟨_, _, ⟨hfresh, rfl⟩, _, _, hver, _, _, htags, _, _, rfl, rfl, rfl⟩ := h
  obtain ⟨v, hv, hvid, hvno, hopen, rfl⟩ := exec_insertVersion_rows hA hver
  obtain ⟨hother, hmem⟩ := exec_replaceTags_rows htags
  obtain ⟨tags, rfl⟩ := exec_replaceTags_eq_ok htags
  refine ⟨⟨fun row hrow => ?_, hother, fun i hi => versionRows_insert hv (hvid ▸ hi)⟩, ?_, rfl,
    Table.mem_insert_self hfresh, ⟨rfl, rfl, rfl, rfl, rfl, rfl, rfl, rfl, rfl, hmem⟩, v, ?_, hopen⟩
  · refine ⟨fun hr => ?_, fun hr => Table.mem_insert_of_mem hr⟩
    obtain hr | rfl := Table.mem_of_mem_insert hr
    · exact hr
    · exact absurd rfl hrow
  · intro row hrow hid
    have hclash : secretKeys.clashes row (d.row secretId now) = true := Keys.pair_clashes.2 (.inl hid)
    rw [hfresh row hrow] at hclash
    cases hclash
  · exact currentVersionOf_eq.2 ⟨Table.mem_insert_self hv, hvid, hvno⟩

theorem adoptSecret_spec {d : DesiredSecret} {row : SecretRow} (hrow : row ∈ s.secrets.rows) (hname : row.name = d.name)
    {a : Unit} (h : (adoptSecret d row now).exec s = .ok (a, s')) :
    OnlySecret row.id s s' ∧ s'.versions = s.versions ∧ d.adopt now row ∈ s'.secrets.rows ∧
      HasMetadata s' d (d.adopt now row) := by
  simp only [adoptSecret, Txn.exec_bind_eq_ok, Rel.exec_updateWhere_eq_ok, exec_insertAudit_eq_ok] at h
  obtain ⟨_, _, ⟨_, rfl⟩, _, _, htags, rfl⟩ := h
  obtain ⟨hother, hmem⟩ := exec_replaceTags_rows htags
  obtain ⟨tags, rfl⟩ := exec_replaceTags_eq_ok htags
  have hin := Table.mem_update_of_mem (d.key_adopt now) (p := (·.id == row.id)) hrow
  simp only [beq_self_eq_true, if_true] at hin
  refine ⟨⟨fun r hr => mem_update_of_id (d.key_adopt now) hr, hother, fun _ _ => rfl⟩, rfl, hin,
    hname, rfl, rfl, rfl, rfl, rfl, rfl, rfl, rfl, fun tag => ?_⟩
  exact (hmem tag).trans mem_sortDedup

theorem provisionVersion_spec {A : Aead} (hA : A.Ideal) {K : Crypto.Keyset} {w : Draw} {d : DesiredSecret}
    {row row₁ : SecretRow} {versionId : Uuid} (hrow : row₁ ∈ s.secrets.rows) (hid : row₁.id = row.id)
    (hmeta : HasMetadata s d row₁) {a : Unit}
    (h : (provisionVersion (storedKeyset A K w) d row versionId now).exec s = .ok (a, s')) :
    OnlySecret row.id s s' ∧ row₁.bumpVersion now ∈ s'.secrets.rows ∧ AsDesired A K s' d (row₁.bumpVersion now) := by
  simp only [provisionVersion, Txn.exec_bind_eq_ok, Rel.exec_updateOrFail_eq_ok] at h
  obtain ⟨_, _, ⟨_, rfl, rfl⟩, h⟩ := h
  split at h
  · exact absurd h exec_fail_eq_ok
  · rename_i r hhead
    obtain ⟨current, hcur, rfl⟩ := List.mem_map.1 (List.mem_of_mem_head? hhead)
    rw [List.mem_filter, beq_iff_eq] at hcur
    obtain rfl : row₁ = current := secret_eq_of_id hrow hcur.1 (hid.trans hcur.2.symm)
    simp only [Txn.exec_bind_eq_ok, exec_insertAudit_eq_ok] at h
    obtain ⟨_, _, hver, rfl⟩ := h
    obtain ⟨v, hv, hvid, hvno, hopen, rfl⟩ := exec_insertVersion_rows hA hver
    have hin := Table.mem_update_of_mem (SecretRow.key_bumpVersion now) (p := (·.id == row.id)) hrow
    simp only [hid, beq_self_eq_true, if_true] at hin
    refine ⟨⟨fun r hr => mem_update_of_id (SecretRow.key_bumpVersion now) hr, fun _ _ => rfl,
      fun i hi => versionRows_insert hv (hvid ▸ hi)⟩, hin, ?_, v, ?_, hopen⟩
    · exact ⟨hmeta.name, hmeta.description, hmeta.maxTier, hmeta.injectionKind, hmeta.injectionHeader,
        hmeta.injectionUsername, hmeta.enabled, hmeta.vetted, hmeta.managed, hmeta.tags⟩
    · exact currentVersionOf_eq.2 ⟨Table.mem_insert_self hv, hvid.trans hid.symm, hvno⟩

end Statements

/-! ## One secret -/

section One
variable {A : Aead} {K : Crypto.Keyset} {collation : Collation} {s s' : Store} {w : Draw} {d : DesiredSecret}
  {r : Reply} {secretId versionId : Uuid} {now : DateTime}

theorem differs_eq_false {row : SecretRow} (hname : row.name = d.name) :
    d.differs row (s.tagsOf row.id collation) = false ↔ HasMetadata s d row ∧ agreesOn collation d.tags := by
  simp only [DesiredSecret.differs, Bool.or_eq_false_iff, bne_eq_false_iff_eq, Bool.not_eq_false', and_assoc]
  constructor
  · intro ⟨hdesc, htier, hkind, hheader, huser, hon, hvet, hman, htags⟩
    have hmem := mem_of_tagsOf htags
    exact ⟨⟨hname, hdesc, htier, hkind, hheader, huser, hon, hvet, hman, hmem⟩, (tagsOf_eq_iff hmem).1 htags⟩
  · intro ⟨h, hagree⟩
    exact ⟨h.description, h.maxTier, h.injectionKind, h.injectionHeader, h.injectionUsername, h.enabled, h.vetted,
      h.managed, (tagsOf_eq_iff h.tags).2 hagree⟩

/-- The current version holds the configured bytes. -/
theorem sameValue_eq_true {current : Option SecretVersionRow} :
    sameValue (storedKeyset A K w) d current = some true ↔ ∃ v, current = some v ∧
      K.openSealed A v.sealed.ciphertext v.sealed.nonce v.sealed.wrappedDek v.sealed.kekId
        (.secretVersion v.secretId v.version) = .ok d.value := by
  cases current with
  | none => simp [sameValue]
  | some v =>
      simp only [sameValue, storedKeyset, Option.map_eq_some_iff, beq_iff_eq, Option.some.injEq, exists_eq_left']
      cases K.openSealed A v.sealed.ciphertext v.sealed.nonce v.sealed.wrappedDek v.sealed.kekId
        (.secretVersion v.secretId v.version) with
      | error e => simp [Except.toOption]
      | ok m => simp [Except.toOption]

/-- One call leaves a row as config wants it, and every secret of another name alone. -/
theorem reconcileOneSecret_spec (hA : A.Ideal)
    (h : (reconcileOneSecret (storedKeyset A K w) d secretId versionId now collation).exec s = .ok (r, s')) :
    ∃ id, OnlySecret id s s' ∧ (∀ row ∈ s.secrets.rows, row.id = id → row.name = d.name) ∧
      ∃ row ∈ s'.secrets.rows, row.id = id ∧ AsDesired A K s' d row := by
  obtain h | ⟨row, hrow, hname, s₁, h₁, h₂, -⟩ := reconcileOneSecret_ok h
  · obtain ⟨honly, hfree, -, hin, hdes⟩ := provisionSecret_spec hA h
    exact ⟨secretId, honly, fun row hrow hid => absurd hid (hfree row hrow), _, hin, rfl, hdes⟩
  · -- after the first half the metadata is right, and the current version is the old one
    obtain ⟨row₁, hin₁, hid₁, hcur₁, hmeta₁, honly₁⟩ : ∃ row₁ ∈ s₁.secrets.rows, row₁.id = row.id ∧
        row₁.currentVersion = row.currentVersion ∧ HasMetadata s₁ d row₁ ∧ OnlySecret row.id s s₁ := by
      obtain ⟨-, h₁⟩ | ⟨hd, rfl⟩ := h₁
      · obtain ⟨honly, -, hin, hmeta⟩ := adoptSecret_spec hrow hname h₁
        exact ⟨_, hin, rfl, rfl, hmeta, honly⟩
      · exact ⟨row, hrow, rfl, rfl, ((differs_eq_false hname).1 hd).1, .refl _ _⟩
    have hcurrent : s₁.currentVersionOf row₁ = s₁.currentVersionOf row := by
      rw [Store.currentVersionOf, hid₁, hcur₁, Store.currentVersionOf]
    refine ⟨row.id, ?_⟩
    have hnames : ∀ r ∈ s.secrets.rows, r.id = row.id → r.name = d.name := by
      intro r hr hid
      rw [secret_eq_of_id hr hrow hid, hname]
    obtain ⟨-, h₂⟩ | ⟨hsame, rfl⟩ := h₂
    · obtain ⟨honly₂, hin₂, hdes⟩ := provisionVersion_spec hA hin₁ hid₁ hmeta₁ h₂
      exact ⟨honly₁.trans honly₂, hnames, _, hin₂, hid₁, hdes⟩
    · rw [← hcurrent] at hsame
      exact ⟨honly₁, hnames, row₁, hin₁, hid₁, hmeta₁, sameValue_eq_true.1 hsame⟩

/-- A call reports `Unchanged` exactly where the row is as config wants it and its tags sort alike; it writes nothing. -/
theorem reconcileOneSecret_unchanged :
    (reconcileOneSecret (storedKeyset A K w) d secretId versionId now collation).exec s = .ok (.change .unchanged, s') ↔
      s' = s ∧ agreesOn collation d.tags ∧ ∃ row ∈ s.secrets.rows, AsDesired A K s d row := by
  simp only [reconcileOneSecret, takeKekSharedLock, Txn.exec_bind_eq_ok, Txn.exec_lock_eq_ok,
    Rel.exec_selectForUpdate_eq_ok]
  constructor
  · rintro ⟨_, _, rfl, _, _, ⟨rfl, rfl⟩, h⟩
    split at h
    · obtain ⟨_, _, _, _, _, _, hr, _⟩ := provisionSecret_ok h
      cases hr
    · rename_i row hrow
      obtain ⟨hmem, hname⟩ := List.mem_filter.1 (List.mem_of_mem_head? hrow)
      simp only [Txn.exec_bind_eq_ok, Txn.exec_get_eq_ok] at h
      obtain ⟨_, _, ⟨rfl, rfl⟩, _, s₁, hadopt, _, _, ⟨rfl, rfl⟩, h⟩ := h
      split at h
      · exact absurd h exec_fail_eq_ok
      · rename_i same hsame
        simp only [Txn.exec_bind_eq_ok, Txn.exec_pure_eq_ok, Reply.change.injEq] at h
        obtain ⟨_, s₂, hprov, hreply, rfl⟩ := h
        split at hreply
        · cases hreply
        · rename_i hnone
          simp only [Bool.or_eq_true, Bool.not_eq_true', not_or, Bool.not_eq_true, Bool.not_eq_false] at hnone
          rw [hnone.1, exec_onlyIf_eq_ok] at hadopt
          rw [hnone.2, exec_onlyIf_eq_ok] at hprov
          simp only [Bool.false_eq_true, false_and, true_and, false_or] at hadopt
          simp only [Bool.not_true, Bool.false_eq_true, false_and, true_and, false_or] at hprov
          subst hadopt hprov
          obtain ⟨hmeta, hagree⟩ := (differs_eq_false (by simpa using hname)).1 hnone.1
          rw [hnone.2] at hsame
          exact ⟨rfl, hagree, row, hmem, hmeta, sameValue_eq_true.1 hsame⟩
  · rintro ⟨rfl, hagree, row, hrow, hdes⟩
    have hhead : (s'.secrets.rows.filter (·.name == d.name)).head? = some row := by
      rw [List.head?_filter]
      refine (Table.find?_eq_some fun a b ha hb => ?_).2 ⟨hrow, by simpa using hdes.name⟩
      simp only [beq_iff_eq] at ha hb
      exact Keys.pair_clashes.2 (.inr (ha.trans hb.symm))
    have hdiff : d.differs row (s'.tagsOf row.id collation) = false :=
      (differs_eq_false hdes.name).2 ⟨hdes.toHasMetadata, hagree⟩
    have hsame : sameValue (storedKeyset A K w) d (s'.currentVersionOf row) = some true :=
      sameValue_eq_true.2 hdes.value
    rw [Store.currentVersionOf] at hsame
    refine ⟨(), s', rfl, _, s', ⟨rfl, rfl⟩, ?_⟩
    rw [hhead]
    simp [hdiff, hsame, onlyIf]

/-- A reply that is an error. -/
def IsError (r : Except DbError Reply) : Prop := ∃ e, r = .error e

theorem aborts_insertTags (secretId : Uuid) (tags : List String) : (insertTags secretId tags).Aborts IsError := by
  induction tags with
  | nil => trivial
  | cons tag tags ih => exact Txn.aborts_bind (tagRel.aborts_insertOnConflict _ _ ⟨_, rfl⟩) fun _ => ih

theorem aborts_replaceTags (secretId : Uuid) (tags : List String) : (replaceTags secretId tags).Aborts IsError :=
  Txn.aborts_bind (tagRel.aborts_deleteWhere _) fun _ => aborts_insertTags secretId tags

theorem aborts_insertVersion {keyset : Db.Keyset} {version : Int} {value : Blob} :
    (insertVersion keyset versionId secretId version value now).Aborts IsError :=
  Txn.aborts_bind (aborts_sealNow ⟨_, rfl⟩) fun _ => versionRel.aborts_insertOrFail _ ⟨_, rfl⟩

theorem aborts_provisionSecret {keyset : Db.Keyset} :
    (provisionSecret keyset d secretId versionId now).Aborts IsError := by
  refine Txn.aborts_bind (secretRel.aborts_insertOrFail _ ⟨_, rfl⟩) fun _ => ?_
  exact Txn.aborts_bind aborts_insertVersion fun _ => Txn.aborts_bind (aborts_replaceTags _ _) fun _ => trivial

theorem aborts_adoptSecret {row : SecretRow} : (adoptSecret d row now).Aborts IsError := by
  refine Txn.aborts_bind (secretRel.aborts_updateWhere _ _ _) fun _ => ?_
  exact Txn.aborts_bind (aborts_replaceTags _ _) fun _ => trivial

theorem aborts_provisionVersion {keyset : Db.Keyset} {row : SecretRow} :
    (provisionVersion keyset d row versionId now).Aborts IsError := by
  refine Txn.aborts_bind (secretRel.aborts_updateOrFail fun r e he => ?_) fun updated => ?_
  · rw [versionOverflow] at he
    split at he
    · exact ⟨.integerOutOfRange, (Option.some.inj he).symm⟩
    · cases he
  · split
    · exact ⟨_, rfl⟩
    · exact Txn.aborts_bind aborts_insertVersion fun _ => trivial

/-- Reconciliation rolls back on errors only. -/
theorem aborts_reconcileOneSecret {keyset : Db.Keyset} :
    (reconcileOneSecret keyset d secretId versionId now collation).Aborts IsError := by
  refine Txn.aborts_bind trivial fun _ => Txn.aborts_bind (secretRel.aborts_selectForUpdate _) fun existing => ?_
  split
  · exact aborts_provisionSecret
  · refine Txn.aborts_bind (Txn.aborts_get _) fun s => Txn.aborts_bind (aborts_onlyIf aborts_adoptSecret) fun _ => ?_
    refine Txn.aborts_bind (Txn.aborts_get _) fun s => ?_
    split
    · exact ⟨_, rfl⟩
    · exact Txn.aborts_bind (aborts_onlyIf aborts_provisionVersion) fun _ => trivial

theorem run_reconcileOneSecret {keyset : Db.Keyset} :
    (reconcileOneSecret keyset d secretId versionId now collation).run s = (s', .ok r) ↔
      (reconcileOneSecret keyset d secretId versionId now collation).exec s = .ok (r, s') := by
  obtain ⟨r', s₁, hexec, hrun⟩ | ⟨r', hexec, hrun⟩ :=
    Txn.run_cases (reconcileOneSecret keyset d secretId versionId now collation) s
  · rw [hrun, hexec, Prod.mk.injEq, Except.ok.injEq, Except.ok.injEq, Prod.mk.injEq, and_comm]
  · obtain ⟨e, rfl⟩ := aborts_reconcileOneSecret.exec hexec
    rw [hrun, hexec]
    simp

end One

/-! ## A whole run -/

section Whole
variable {A : Aead} {K : Crypto.Keyset} {collation : Collation} {desired : List DesiredSecret} {s s' : Store}

theorem reconcileEach_cons {d : DesiredSecret} {draws : Nat → Draw} {changes : List (String × Reply)} :
    reconcileEach A K collation (d :: desired) draws s = (s', .ok changes) ↔
      ∃ r s₁ rest, (reconcileOneSecret (storedKeyset A K (draws 0)) d (draws 0).secretId (draws 0).versionId (draws 0).now
          collation).exec s = .ok (r, s₁) ∧
        reconcileEach A K collation desired (fun i => draws (i + 1)) s₁ = (s', .ok rest) ∧
        changes = (d.name, r) :: rest := by
  simp only [← run_reconcileOneSecret, reconcileEach]
  generalize (reconcileOneSecret (storedKeyset A K (draws 0)) d (draws 0).secretId (draws 0).versionId (draws 0).now
    collation).run s = first
  obtain ⟨s₁, e | r⟩ := first
  · simp
  · simp only [Prod.mk.injEq, Except.ok.injEq]
    generalize hrest : reconcileEach A K collation desired (fun i => draws (i + 1)) s₁ = last
    obtain ⟨s₂, e | rest⟩ := last
    · constructor
      · intro h
        cases h
      · rintro ⟨_, _, _, ⟨rfl, rfl⟩, h', -⟩
        rw [hrest] at h'
        cases h'
    · constructor
      · intro h
        cases h
        exact ⟨r, s₁, rest, ⟨rfl, rfl⟩, hrest, rfl⟩
      · rintro ⟨_, _, _, ⟨rfl, rfl⟩, h', rfl⟩
        rw [hrest] at h'
        cases h'
        rfl

/-- The rows after the first half, and what it leaves alone. -/
theorem reconcileEach_spec (hA : A.Ideal) (hnames : (desired.map (·.name)).Nodup) {draws : Nat → Draw}
    {changes : List (String × Reply)} (h : reconcileEach A K collation desired draws s = (s', .ok changes)) :
    s'.grants = s.grants ∧ (∀ d ∈ desired, ∃ r ∈ s'.secrets.rows, AsDesired A K s' d r) ∧
      ∀ r : SecretRow, (∀ d ∈ desired, d.name ≠ r.name) →
        (r ∈ s'.secrets.rows ↔ r ∈ s.secrets.rows) ∧ (r ∈ s.secrets.rows → Kept s s' r) := by
  induction desired generalizing s draws changes with
  | nil =>
      cases h
      exact ⟨rfl, fun _ hd => absurd hd List.not_mem_nil, fun r _ => ⟨Iff.rfl, fun hr => ⟨hr, rfl, rfl⟩⟩⟩
  | cons d desired ih =>
      obtain ⟨r, s₁, rest, hone, hrest, -⟩ := reconcileEach_cons.1 h
      rw [List.map_cons, List.nodup_cons] at hnames
      obtain ⟨hgrants, hdes, hother⟩ := ih hnames.2 hrest
      obtain ⟨id, honly, hnamed, row, hin, hid, hrow⟩ := reconcileOneSecret_spec hA hone
      refine ⟨hgrants.trans (reconcileOneSecret_grants hone).2.1, fun d' hd' => ?_, fun r' hr' => ?_⟩
      · obtain rfl | hd' := List.mem_cons.1 hd'
        · -- no later secret has this name
          have hfree : ∀ d'' ∈ desired, d''.name ≠ row.name := by
            intro d'' hd'' heq
            rw [hrow.name] at heq
            exact hnames.1 (List.mem_map.2 ⟨d'', hd'', heq⟩)
          have hkept := (hother row hfree).2 hin
          exact ⟨row, hkept.row, hrow.kept hkept⟩
        · exact hdes d' hd'
      · have hfree : ∀ d'' ∈ desired, d''.name ≠ r'.name := fun d'' hd'' => hr' d'' (List.mem_cons_of_mem _ hd'')
        have hname := hr' d List.mem_cons_self
        obtain ⟨hiff, hkept⟩ := hother r' hfree
        by_cases hr'id : r'.id = id
        · -- its id is the one of the listed secret, so it was and is not there
          have hold : r' ∉ s.secrets.rows := fun hmem => hname (hnamed r' hmem hr'id).symm
          have hnew : r' ∉ s₁.secrets.rows := by
            intro hmem
            have := secret_eq_of_id hmem hin (hr'id.trans hid.symm)
            exact hname (this ▸ hrow.name).symm
          exact ⟨hiff.trans ⟨fun hm => absurd hm hnew, fun hm => absurd hm hold⟩, fun hm => absurd hm hold⟩
        · refine ⟨hiff.trans (honly.rows r' hr'id), fun hmem => ?_⟩
          have hfirst := honly.kept hmem hr'id
          exact hfirst.trans (hkept hfirst.row)

/-- The first half reports `Unchanged` throughout exactly where every secret is as config wants it, with tags that sort
alike. -/
theorem reconcileEach_unchanged {draws : Nat → Draw} :
    reconcileEach A K collation desired draws s = (s', .ok (desired.map fun d => (d.name, .change .unchanged))) ↔
      s' = s ∧ ∀ d ∈ desired, agreesOn collation d.tags ∧ ∃ r ∈ s.secrets.rows, AsDesired A K s d r := by
  induction desired generalizing s draws with
  | nil => simp [reconcileEach, eq_comm]
  | cons d desired ih =>
      simp only [reconcileEach_cons, List.map_cons, List.cons.injEq, Prod.mk.injEq, true_and, List.forall_mem_cons]
      constructor
      · rintro ⟨_, s₁, _, hone, hrest, rfl, rfl⟩
        obtain ⟨rfl, hd⟩ := reconcileOneSecret_unchanged.1 hone
        obtain ⟨rfl, hds⟩ := ih.1 hrest
        exact ⟨rfl, hd, hds⟩
      · rintro ⟨rfl, hd, hds⟩
        exact ⟨_, s', _, reconcileOneSecret_unchanged.2 ⟨rfl, hd⟩, ih.2 ⟨rfl, hds⟩, rfl, rfl⟩

/-! ### Deletions -/

theorem deleteSecretAudited_exec {row : SecretRow} (hrow : row ∈ s.secrets.rows) (actor : String) (now : DateTime) :
    ∃ n audit, (deleteSecretAudited row.id row.currentVersion actor now).run s =
      ({ s with
        secrets := s.secrets.delete fun x => x.id == row.id && x.currentVersion == row.currentVersion
        versions := s.versions.delete (·.secretId == row.id)
        tags := s.tags.delete (·.secretId == row.id)
        grants := s.grants.update (backedBy row.name now) GrantRow.revoke GrantRow.key_revoke
        audit := audit }, .ok (.deleted (.deleted n))) := by
  have hfind : s.secrets.rows.find? (·.id == row.id) = some row := by
    refine (Table.find?_eq_some fun a b ha hb => ?_).2 ⟨hrow, beq_self_eq_true row.id⟩
    simp only [beq_iff_eq] at ha hb
    exact Keys.pair_clashes.2 (.inl (ha.trans hb.symm))
  have hdel : (s.secrets.rows.filter fun x => x.id == row.id && x.currentVersion == row.currentVersion).isEmpty =
      false := by
    rw [List.isEmpty_eq_false_iff]
    exact List.ne_nil_of_mem (List.mem_filter.2 ⟨hrow, by simp⟩)
  simp only [deleteSecretAudited, Txn.run, Txn.exec_bind, Txn.exec_get, hfind, takeSecretExclusiveLock, Txn.exec_lock,
    Rel.exec_deleteWhere, hdel, Bool.false_eq_true, if_false, Rel.exec_updateWhere, exec_insertAudits,
    exec_insertAudit, Txn.exec_pure]
  exact ⟨_, _, rfl⟩

/-- A grant that went with its secret is live at no later time. -/
theorem backedBy_revoked {name : String} {t₀ t : DateTime} (h : t₀ ≤ t) {g : GrantRow}
    (hg : g ∈ (s.grants.update (backedBy name t₀) GrantRow.revoke GrantRow.key_revoke).rows) : backedBy name t g = false := by
  obtain ⟨a, -, rfl⟩ := Table.mem_update.1 hg
  split
  · simp [backedBy, GrantRow.live, GrantRow.revoke]
  · rename_i hno
    rw [← Bool.not_eq_true]
    intro hyes
    simp only [backedBy, GrantRow.live, Bool.and_eq_true, beq_iff_eq, Bool.not_eq_true', decide_eq_true_eq] at hyes hno
    exact hno ⟨⟨hyes.1.1, hyes.1.2.1, lt_of_le_of_lt h hyes.1.2.2⟩, hyes.2⟩

/-- Revoking more grants makes none live. -/
theorem backedBy_update {p : GrantRow → Bool} {name : String} {t : DateTime}
    (h : ∀ g ∈ s.grants.rows, backedBy name t g = false) :
    ∀ g ∈ (s.grants.update p GrantRow.revoke GrantRow.key_revoke).rows, backedBy name t g = false := by
  intro g hg
  obtain ⟨a, ha, rfl⟩ := Table.mem_update.1 hg
  split
  · simp [backedBy, GrantRow.live, GrantRow.revoke]
  · exact h a ha

theorem grantRows_revoke {name other : String} (h : name ≠ other) (now : DateTime) :
    (s.grants.update (backedBy other now) GrantRow.revoke GrantRow.key_revoke).rows.filter (·.secretName == name) =
      s.grants.rows.filter (·.secretName == name) := by
  have hsame : ∀ g : GrantRow, (if backedBy other now g then g.revoke else g).secretName = g.secretName := by
    intro g
    split <;> rfl
  rw [Table.update_rows, List.filter_map]
  simp only [Function.comp_def, hsame]
  refine (List.map_congr_left fun g hg => ?_).trans (List.map_id _)
  have hname := beq_iff_eq.1 (List.mem_filter.1 hg).2
  have hno : backedBy other now g = false := by
    simp [backedBy, hname, h]
  rw [hno]
  rfl

theorem delete_onlySecret {row : SecretRow} {grants : Table grantKeys} {audit : List AuditRow} : OnlySecret row.id s
      { s with
        secrets := s.secrets.delete fun x => x.id == row.id && x.currentVersion == row.currentVersion
        versions := s.versions.delete (·.secretId == row.id)
        tags := s.tags.delete (·.secretId == row.id)
        grants := grants
        audit := audit } where
  rows r hr := by
    rw [Table.mem_delete]
    simp [hr]
  tags i hi := by
    rw [tagRows, tagRows, Table.delete_rows, List.filter_filter]
    refine List.filter_congr fun t _ => ?_
    by_cases ht : t.secretId = i <;> simp [ht, hi]
  versions i hi := by
    rw [versionRows, versionRows, Table.delete_rows, List.filter_filter]
    refine List.filter_congr fun t _ => ?_
    by_cases ht : t.secretId = i <;> simp [ht, hi]

/-- The rows listed for deletion go, with the grants they back; every other row stays as it is. -/
theorem removeStale_spec {deletedAt : Uuid → DateTime} {rows : List SecretRow} (hmem : ∀ r ∈ rows, r ∈ s.secrets.rows)
    (hnodup : rows.Nodup) :
    ∃ s', removeStale deletedAt rows s = (s', .ok ()) ∧
      (∀ r, r ∈ s'.secrets.rows ↔ r ∈ s.secrets.rows ∧ r ∉ rows) ∧
      (∀ r ∈ s.secrets.rows, r ∉ rows → Kept s s' r) ∧
      (∀ r ∈ rows, ∀ t, deletedAt r.id ≤ t → ∀ g ∈ s'.grants.rows, backedBy r.name t g = false) ∧
      (∀ name t, (∀ g ∈ s.grants.rows, backedBy name t g = false) → ∀ g ∈ s'.grants.rows, backedBy name t g = false) ∧
      ∀ name, (∀ r ∈ rows, r.name ≠ name) → grantRows s' name = grantRows s name := by
  induction rows generalizing s with
  | nil =>
      refine ⟨s, rfl, fun r => by simp, fun r hr _ => ⟨hr, rfl, rfl⟩, fun r hr => absurd hr List.not_mem_nil,
        fun _ _ h => h, fun _ _ => rfl⟩
  | cons row rows ih =>
      obtain ⟨hrow, hmem⟩ := List.forall_mem_cons.1 hmem
      rw [List.nodup_cons] at hnodup
      obtain ⟨n, audit, hdel⟩ := deleteSecretAudited_exec hrow "config" (deletedAt row.id)
      generalize hs₁ : ({ s with
        secrets := s.secrets.delete fun x => x.id == row.id && x.currentVersion == row.currentVersion
        versions := s.versions.delete (·.secretId == row.id)
        tags := s.tags.delete (·.secretId == row.id)
        grants := s.grants.update (backedBy row.name (deletedAt row.id)) GrantRow.revoke GrantRow.key_revoke
        audit := audit } : Store) = s₁ at hdel
      have honly : OnlySecret row.id s s₁ := hs₁ ▸ delete_onlySecret
      have hgrants : s₁.grants =
          s.grants.update (backedBy row.name (deletedAt row.id)) GrantRow.revoke GrantRow.key_revoke := by
        rw [← hs₁]
      have hrows : ∀ r, r ∈ s₁.secrets.rows ↔ r ∈ s.secrets.rows ∧ r ≠ row := by
        intro r
        by_cases hid : r.id = row.id
        · have hgone : r ∉ s₁.secrets.rows := by
            rw [← hs₁, Table.mem_delete]
            rintro ⟨hr, hkeep⟩
            rw [secret_eq_of_id hr hrow hid] at hkeep
            simp at hkeep
          exact ⟨fun hr => absurd hr hgone, fun hr => absurd (secret_eq_of_id hr.1 hrow hid) hr.2⟩
        · rw [honly.rows r hid]
          exact ⟨fun hr => ⟨hr, fun heq => hid (by rw [heq])⟩, fun hr => hr.1⟩
      have hmem₁ : ∀ r ∈ rows, r ∈ s₁.secrets.rows := fun r hr =>
        (hrows r).2 ⟨hmem r hr, fun heq => hnodup.1 (heq ▸ hr)⟩
      obtain ⟨s', hrest, hrows', hkept', hrev', hstay', hgr'⟩ := ih hmem₁ hnodup.2
      refine ⟨s', ?_, fun r => ?_, fun r hr hout => ?_, fun r hr t ht => ?_, fun name t hno => ?_, fun name hname => ?_⟩
      · rw [removeStale, hdel]
        exact hrest
      · rw [hrows', hrows, List.mem_cons, not_or, and_assoc]
      · rw [List.mem_cons, not_or] at hout
        have hid : r.id ≠ row.id := fun hid => hout.1 (secret_eq_of_id hr hrow hid)
        have hfirst := honly.kept hr hid
        exact hfirst.trans (hkept' r hfirst.row hout.2)
      · obtain rfl | hr := List.mem_cons.1 hr
        · refine hstay' _ t fun g hg => ?_
          rw [hgrants] at hg
          exact backedBy_revoked ht hg
        · exact hrev' r hr t ht
      · refine hstay' name t ?_
        rw [hgrants]
        exact backedBy_update hno
      · obtain ⟨hne, hname⟩ := List.forall_mem_cons.1 hname
        rw [hgr' name hname, grantRows, hgrants]
        exact grantRows_revoke (Ne.symm hne) _

/-! ### Both halves -/

theorem reconcileSecrets_eq_ok {u : Startup} {changes : List (String × Reply)} :
    reconcileSecrets A K collation desired u s = (s', .ok changes) ↔
      ∃ s₁, reconcileEach A K collation desired u.draws s = (s₁, .ok changes) ∧
        removeStale u.deletedAt (u.scan (s₁.secrets.rows.filter (unlisted desired))) s₁ = (s', .ok ()) := by
  rw [reconcileSecrets]
  obtain ⟨s₁, e | first⟩ := reconcileEach A K collation desired u.draws s
  · simp
  · simp only [Prod.mk.injEq, Except.ok.injEq]
    generalize hstale : removeStale u.deletedAt (u.scan (s₁.secrets.rows.filter (unlisted desired))) s₁ = last
    obtain ⟨s₂, e | ⟨⟩⟩ := last
    · constructor
      · intro h
        cases h
      · rintro ⟨_, ⟨rfl, rfl⟩, h'⟩
        rw [hstale] at h'
        cases h'
    · constructor
      · intro h
        cases h
        exact ⟨s₁, ⟨rfl, rfl⟩, hstale⟩
      · rintro ⟨_, ⟨rfl, rfl⟩, h'⟩
        rw [hstale] at h'
        cases h'
        rfl

theorem unlisted_iff {r : SecretRow} :
    unlisted desired r = true ↔ r.managedByConfig = true ∧ ∀ d ∈ desired, d.name ≠ r.name := by
  simp [unlisted]

/-- A run that succeeds did what config asks for, whatever the collation. -/
theorem reconcileSecrets_established (hA : A.Ideal) (hnames : (desired.map (·.name)).Nodup) {u : Startup}
    {changes : List (String × Reply)} (h : reconcileSecrets A K collation desired u s = (s', .ok changes)) :
    Established A K desired u s s' := by
  obtain ⟨s₁, heach, hstale⟩ := reconcileSecrets_eq_ok.1 h
  obtain ⟨hgrants, hdes, hother⟩ := reconcileEach_spec hA hnames heach
  have hperm := u.scan_perm (s₁.secrets.rows.filter (unlisted desired))
  have hin : ∀ r, r ∈ u.scan (s₁.secrets.rows.filter (unlisted desired)) ↔
      r ∈ s₁.secrets.rows ∧ unlisted desired r = true := fun r => hperm.mem_iff.trans List.mem_filter
  have hnodup : (u.scan (s₁.secrets.rows.filter (unlisted desired))).Nodup := by
    refine hperm.nodup_iff.2 (List.Nodup.filter _ (s₁.secrets.distinct.imp fun {a b} hab heq => ?_))
    rw [heq, Keys.pair_clashes.2 (.inl rfl)] at hab
    cases hab
  obtain ⟨s₂, hrun, hrows, hkept, hrev, -, hsame⟩ := removeStale_spec (fun r hr => ((hin r).1 hr).1) hnodup
  obtain rfl : s₂ = s' := by
    rw [hstale] at hrun
    exact (congrArg Prod.fst hrun).symm
  constructor
  · intro d hd
    obtain ⟨r, hr, hrow⟩ := hdes d hd
    have hout : r ∉ u.scan (s₁.secrets.rows.filter (unlisted desired)) := by
      rw [hin, unlisted_iff]
      exact fun hbad => hbad.2.2 d hd hrow.name.symm
    have hk := hkept r hr hout
    refine ⟨r, hk.row, hrow.kept hk, fun r' hr' hname => ?_⟩
    exact row_eq_of_name hr' hk.row (hname.trans hrow.name.symm)
  · intro r hr
    obtain ⟨hr₁, hout⟩ := (hrows r).1 hr
    rw [← Bool.not_eq_true]
    exact fun hbad => hout ((hin r).2 ⟨hr₁, hbad⟩)
  · intro r hr hun
    have hr₁ := ((hother r (unlisted_iff.1 hun).2).1).2 hr
    exact hrev r ((hin r).2 ⟨hr₁, hun⟩)
  · intro r hr hunman hfree
    have hk₁ := (hother r hfree).2 hr
    have hout : r ∉ u.scan (s₁.secrets.rows.filter (unlisted desired)) := by
      rw [hin, unlisted_iff, hunman]
      simp
    refine ⟨hk₁.trans (hkept r hk₁.row hout), ?_⟩
    rw [hsame r.name, grantRows, hgrants, grantRows]
    intro r' hr' hname
    -- a row of this name is this row, which is not listed for deletion
    have hr'₁ := ((hin r').1 hr').1
    rw [row_eq_of_name hr'₁ hk₁.row hname] at hr'
    exact hout hr'

/-- After such a run another one writes nothing exactly where the tags of every secret sort alike. -/
theorem again_iff {u : Startup} (hest : Established A K desired u s s') :
    (∀ u' : Startup, reconcileSecrets A K collation desired u' s' =
        (s', .ok (desired.map fun d => (d.name, .change .unchanged)))) ↔ ∀ d ∈ desired, agreesOn collation d.tags := by
  constructor
  · intro hagain d hd
    obtain ⟨s₁, heach, -⟩ := reconcileSecrets_eq_ok.1 (hagain u)
    exact ((reconcileEach_unchanged.1 heach).2 d hd).1
  · intro hagree u'
    have hrows : ∀ d ∈ desired, agreesOn collation d.tags ∧ ∃ r ∈ s'.secrets.rows, AsDesired A K s' d r := by
      intro d hd
      obtain ⟨r, hr, hrow, -⟩ := hest.listed d hd
      exact ⟨hagree d hd, r, hr, hrow⟩
    refine reconcileSecrets_eq_ok.2 ⟨s', reconcileEach_unchanged.2 ⟨rfl, hrows⟩, ?_⟩
    have hnone : s'.secrets.rows.filter (unlisted desired) = [] := by
      rw [List.filter_eq_nil_iff]
      intro r hr
      rw [hest.removed r hr]
      exact Bool.false_ne_true
    rw [hnone, (u'.scan_perm []).eq_nil, removeStale]

/-- A run that succeeds settles the database exactly where the database's collation sorts the tags of each listed secret
the way bytes do. Everything but the restart that writes nothing holds for every collation. -/
theorem reconcileSecrets_settled_iff (hA : A.Ideal) (hnames : (desired.map (·.name)).Nodup) {u : Startup}
    {changes : List (String × Reply)} (h : reconcileSecrets A K collation desired u s = (s', .ok changes)) :
    Settled A K collation desired u s s' ↔ ∀ d ∈ desired, agreesOn collation d.tags := by
  have hest := reconcileSecrets_established hA hnames h
  rw [← again_iff hest]
  exact ⟨fun hset => hset.again, fun hagain => ⟨hest, hagain⟩⟩

end Whole

/-! ## A restart that is not quiet -/

/-- A collation of natural language: letters first, case only between equal words. -/
def foldCase : Collation where
  le a b := decide (toLex (a.toLower, a) ≤ toLex (b.toLower, b))
  total a b := by simpa using le_total (toLex (a.toLower, a)) (toLex (b.toLower, b))
  trans a b c hab hbc := by simpa using le_trans (of_decide_eq_true hab) (of_decide_eq_true hbc)
  antisymm a b hab hba := by
    have h := le_antisymm (of_decide_eq_true hab) (of_decide_eq_true hba)
    exact congrArg Prod.snd (toLex.injective h)

def sampleDraw : Draw where
  secretId := 1
  versionId := 2
  dek := Crypto.sampleKey 7
  payloadNonce := Crypto.sampleNonce 1
  wrapNonce := Crypto.sampleNonce 2
  now := .ofSeconds 0

def sampleStartup : Startup where
  draws _ := sampleDraw
  scan := id
  scan_perm _ := List.Perm.refl _
  deletedAt _ := .ofSeconds 0

/-- A secret with these tags. -/
def tagged (tags : List String) : DesiredSecret where
  name := "deploy"
  description := ""
  maxTier := 1
  injectionKind := "bearer"
  injectionHeader := none
  injectionUsername := none
  tags := tags
  value := [104, 105]

/-- A new database, under the key file `Crypto.beforeRotation`. -/
def freshStore : Store := { Store.empty with activeKek := "k1" }

theorem reconcileSecrets_settled_iff_ordered : ∃ s' changes,
    reconcileSecrets Crypto.tagging Crypto.beforeRotation .bytes [tagged ["prod", "ci"]] sampleStartup freshStore =
      (s', .ok changes) ∧
    Settled Crypto.tagging Crypto.beforeRotation .bytes [tagged ["prod", "ci"]] sampleStartup freshStore s' := by
  have hrun : (reconcileSecrets Crypto.tagging Crypto.beforeRotation .bytes [tagged ["prod", "ci"]] sampleStartup
      freshStore).2 = .ok [("deploy", .change .created)] := rfl
  have h := Prod.ext_iff.2 ⟨rfl, hrun⟩
  refine ⟨_, _, h, (reconcileSecrets_settled_iff Crypto.tagging_ideal (by decide) h).2 fun d _ a _ b _ hab => ?_⟩
  exact decide_eq_true hab

/-- Tags `a` and `B`: bytes put the capital first, the collation does not. -/
theorem foldCase_disagrees : ¬ agreesOn foldCase (tagged ["a", "B"]).tags := by
  intro h
  have hle := h "B" (by decide) "a" (by decide) (by decide)
  revert hle
  decide +kernel

theorem restart_writes_again : ∃ s' changes,
    reconcileSecrets Crypto.tagging Crypto.beforeRotation foldCase [tagged ["a", "B"]] sampleStartup freshStore =
      (s', .ok changes) ∧
    ¬ Settled Crypto.tagging Crypto.beforeRotation foldCase [tagged ["a", "B"]] sampleStartup freshStore s' := by
  have hrun : (reconcileSecrets Crypto.tagging Crypto.beforeRotation foldCase [tagged ["a", "B"]] sampleStartup
      freshStore).2 = .ok [("deploy", .change .created)] := rfl
  have h := Prod.ext_iff.2 ⟨rfl, hrun⟩
  refine ⟨_, _, h, fun hset => ?_⟩
  exact foldCase_disagrees ((again_iff hset.toEstablished).1 hset.again _ List.mem_cons_self)

end Keychute.Reconcile
