import Keychute.Writes

/-!
# A grant releases the row it was decided on

* `StoreOp.decides` : the grant a call mints, and the stored row it was decided on;
* `Backed` : every live grant without a payload of its own has that very row under its name;
* `incarnation_of_reachable` : this holds in every state that transactions in flight can reach, in any order of their
  statements.
-/

namespace Keychute.Db
open Keychute.Lib

/-! ## The invariant -/

/-- The row a payload-less grant was decided on: the one the transaction checks, or the one it creates. -/
def GrantParams.decidedOn (grant : GrantParams) (store : Option StoreSecretParams) : Option Uuid :=
  if grant.passthrough.isSome then none else (store.map (·.secretId)).or grant.secretId

/-- The grant a call mints, with the row it was decided on. -/
def StoreOp.decides : StoreOp → Option (Uuid × Uuid)
  | .approveRequest _ _ grantId grant store _ => (grant.decidedOn store).map (grantId, ·)
  | .resolveApprove _ _ grant grantId => (grant.decidedOn none).map (grantId, ·)
  | .insertAccessRequestWithId _ _ _ (.approved _ grant _) _ grantId => (grant.decidedOn none).map (grantId, ·)
  | _ => none

/-- What the callers keep to: secret ids are drawn at random, so no id is used for two names; an approval that stores a
secret stores it under the name the grant releases. -/
structure StoreOp.Legit (nameOf : Uuid → String) (op : StoreOp) : Prop where
  attempts : op.attempts = true
  named : ∀ now row, op.creates now = some row → nameOf row.id = row.name
  stored : ∀ requestId resolvedBy grantId grant store versionId,
    op = .approveRequest requestId resolvedBy grantId grant (some store) versionId → store.name = grant.secretName

/-- The secrets table has this row under this name. -/
def Store.hasRow (s : Store) (id : Uuid) (name : String) : Prop := ∃ r ∈ s.secrets.rows, r.id = id ∧ r.name = name

/-- Live, and without a payload of its own. -/
def GrantRow.storedBacked (g : GrantRow) (now : DateTime) : Prop :=
  g.passthroughEphemeral = false ∧ g.revoked = false ∧ now < g.notAfter

structure Backed (nameOf : Uuid → String) (s : Store) (c : DateTime) (log : List (StoreOp × Reply)) : Prop where
  named : ∀ r ∈ s.secrets.rows, nameOf r.id = r.name
  decided : ∀ g ∈ s.grants.rows, g.storedBacked c → ∃ e ∈ log, ∃ id, e.1.decides = some (g.id, id)
  rows : ∀ g ∈ s.grants.rows, g.storedBacked c → ∀ e ∈ log, ∀ id, e.1.decides = some (g.id, id) →
    s.hasRow id g.secretName
  minted : ∀ e ∈ log, ∀ gid id, e.1.decides = some (gid, id) → ∃ g ∈ s.grants.rows, g.id = gid

/-- What a commit leaves to the transactions beside it, by the locks it holds. -/
structure Leaves (h : Held LockKey) (s s' : Store) : Prop where
  secrets : ∀ r ∈ s.secrets.rows, s'.hasRow r.id r.name ∨ (.secret r.name, .exclusive) ∈ h
  new_secrets : ∀ r' ∈ s'.secrets.rows, s.hasRow r'.id r'.name ∨ Rel.Locked h (secretRel.keyLocks r')
  grants : ∀ g' ∈ s'.grants.rows, (∃ g ∈ s.grants.rows, g.Evolves g') ∨
    (Rel.Locked h (grantRel.keyLocks g') ∧ (g'.passthroughEphemeral = false → (.secret g'.secretName, .shared) ∈ h))

theorem GrantRow.storedBacked.mono {g : GrantRow} {c c' : DateTime} (hc : c ≤ c') (h : g.storedBacked c') :
    g.storedBacked c := ⟨h.1, h.2.1, lt_of_le_of_lt hc h.2.2⟩

theorem GrantRow.Evolves.storedBacked {g g' : GrantRow} (h : g.Evolves g') {c : DateTime} (hg' : g'.storedBacked c) :
    g.storedBacked c := by
  refine ⟨h.ephemeral ▸ hg'.1, ?_, h.notAfter ▸ hg'.2.2⟩
  by_contra hr
  have := h.revoked (by simpa using hr)
  rw [hg'.2.1] at this
  cases this

/-- The protocol of the grants and the rows they release. -/
def incarnations (nameOf : Uuid → String) : Protocol Store LockKey DateTime StoreOp Reply where
  Inv := Backed nameOf
  Guarantee := Leaves
  inv_tick hc h := {
    named := h.named
    decided := fun g hg hb => h.decided g hg (hb.mono hc)
    rows := fun g hg hb => h.rows g hg (hb.mono hc)
    minted := h.minted }

/-! ## Facts that the locks protect -/

section Facts
variable {nameOf : Uuid → String} {h : Held LockKey}

theorem stable_hasRow {id : Uuid} {name : String} (hl : (.secret name, .shared) ∈ h) :
    (incarnations nameOf).Stable h fun s => s.hasRow id name := by
  intro h' s s' hc hg ⟨r, hr, hid, hname⟩
  rcases hg.secrets r hr with hrow | hex
  · rwa [hid, hname] at hrow
  · rw [hname] at hex
    exact (hc.clash hl hex rfl).elim

theorem stable_fresh_secret {row : SecretRow} (hl : Rel.Locked h (secretRel.keyLocks row)) :
    (incarnations nameOf).Stable h fun s => s.secrets.Fresh row := by
  intro h' s s' hc hg hfresh r' hr'
  by_contra hclash
  rw [Bool.not_eq_false] at hclash
  rcases hg.new_secrets r' hr' with ⟨r, hr, hid, hname⟩ | hl'
  · have := hfresh r hr
    rw [Keys.pair_clashes.2 (by rw [hid, hname]; exact Keys.pair_clashes.1 hclash)] at this
    cases this
  · rcases Keys.pair_clashes.1 hclash with hid | hname
    · have := hl' (.secretId r'.id) (by simp)
      rw [hid] at this
      exact hc.clash (hl (.secretId row.id) (by simp)) this rfl
    · have := hl' (.secretName r'.name) (by simp)
      rw [hname] at this
      exact hc.clash (hl (.secretName row.name) (by simp)) this rfl

theorem stable_fresh_grant {row : GrantRow} (hl : Rel.Locked h (grantRel.keyLocks row)) :
    (incarnations nameOf).Stable h fun s => s.grants.Fresh row := by
  intro h' s s' hc hg hfresh g' hg'
  by_contra hclash
  rw [Bool.not_eq_false] at hclash
  rcases hg.grants g' hg' with ⟨g, hmem, hev⟩ | ⟨hl', -⟩
  · have := hfresh g hmem
    rw [Keys.pair_clashes.2 (by rw [← hev.id, ← hev.requestId]; exact Keys.pair_clashes.1 hclash)] at this
    cases this
  · rcases Keys.pair_clashes.1 hclash with hid | hreq
    · have := hl' (.grantId g'.id) (by simp)
      rw [hid] at this
      exact hc.clash (hl (.grantId row.id) (by simp)) this rfl
    · have := hl' (.grantOf g'.requestId) (by simp)
      rw [hreq] at this
      exact hc.clash (hl (.grantOf row.requestId) (by simp)) this rfl

/-- No grant on the name can appear while its lock is held by a deletion. -/
theorem stable_scanned {name : String} {now : DateTime} {keys : List LockKey} (hl : (.secret name, .exclusive) ∈ h) :
    (incarnations nameOf).Stable h fun s => grantRel.Scanned (backedBy name now) keys s := by
  intro h' s s' hc hg hscan g' hg' hback
  rw [backedBy, Bool.and_eq_true, Bool.and_eq_true, beq_iff_eq] at hback
  rcases hg.grants g' hg' with ⟨g, hmem, hev⟩ | ⟨-, hshared⟩
  · have hlive : g.live now = true := by
      by_contra hne
      have := hev.dead (le_refl now) (by simpa using hne)
      rw [hback.1.2] at this
      cases this
    have := hscan g hmem (by simp [backedBy, ← hev.secretName, hback.1.1, hlive, ← hev.ephemeral, hback.2])
    rwa [show grantRel.rowLock g = grantRel.rowLock g' from congrArg LockKey.grantRow hev.id.symm] at this
  · have := hshared (by simpa using hback.2)
    rw [hback.1.1] at this
    exact (hc.clash hl this rfl).elim

end Facts

/-! ## Writes that keep every row and mint nothing -/

/-- Rows stay under their ids and names, grants only evolve, and a new secret row comes with its key locks. -/
structure Keeps (nameOf : Uuid → String) (h : Held LockKey) (s s' : Store) : Prop where
  secrets : ∀ r ∈ s.secrets.rows, s'.hasRow r.id r.name
  new_secrets : ∀ r' ∈ s'.secrets.rows, s.hasRow r'.id r'.name ∨
    (nameOf r'.id = r'.name ∧ Rel.Locked h (secretRel.keyLocks r'))
  grants : ∀ g ∈ s.grants.rows, ∃ g' ∈ s'.grants.rows, g.Evolves g'
  evolved : ∀ g' ∈ s'.grants.rows, ∃ g ∈ s.grants.rows, g.Evolves g'

namespace Keeps
variable {nameOf : Uuid → String} {h h' : Held LockKey} {s s' s'' : Store}

theorem refl (nameOf : Uuid → String) (h : Held LockKey) (s : Store) : Keeps nameOf h s s where
  secrets r hr := ⟨r, hr, rfl, rfl⟩
  new_secrets r hr := Or.inl ⟨r, hr, rfl, rfl⟩
  grants g hg := ⟨g, hg, .refl g⟩
  evolved g hg := ⟨g, hg, .refl g⟩

theorem trans (h₁ : Keeps nameOf h s s') (h₂ : Keeps nameOf h s' s'') : Keeps nameOf h s s'' where
  secrets r hr := by
    obtain ⟨r', hr', hid, hname⟩ := h₁.secrets r hr
    obtain ⟨r'', hr'', hid', hname'⟩ := h₂.secrets r' hr'
    exact ⟨r'', hr'', hid'.trans hid, hname'.trans hname⟩
  new_secrets r'' hr'' := by
    rcases h₂.new_secrets r'' hr'' with ⟨r', hr', hid, hname⟩ | hnew
    · rcases h₁.new_secrets r' hr' with hold | ⟨hn, hl⟩
      · rw [hid, hname] at hold
        exact Or.inl hold
      · refine Or.inr ⟨by rw [← hid, ← hname]; exact hn, ?_⟩
        rw [show secretRel.keyLocks r'' = secretRel.keyLocks r' by simp [hid, hname]]
        exact hl
    · exact Or.inr hnew
  grants g hg := by
    obtain ⟨g', hg', hev⟩ := h₁.grants g hg
    obtain ⟨g'', hg'', hev'⟩ := h₂.grants g' hg'
    exact ⟨g'', hg'', hev.trans hev'⟩
  evolved g'' hg'' := by
    obtain ⟨g', hg', hev'⟩ := h₂.evolved g'' hg''
    obtain ⟨g, hg, hev⟩ := h₁.evolved g' hg'
    exact ⟨g, hg, hev.trans hev'⟩

theorem mono (hk : Keeps nameOf h s s') (hh : h ⊆ h') : Keeps nameOf h' s s' where
  secrets := hk.secrets
  new_secrets r hr := (hk.new_secrets r hr).imp_right fun hn => ⟨hn.1, fun k hk' => hh (hn.2 k hk')⟩
  grants := hk.grants
  evolved := hk.evolved

/-- A write outside the two tables. -/
theorem of_eq (hs : s'.secrets = s.secrets) (hg : s'.grants = s.grants) : Keeps nameOf h s s' := by
  have := refl nameOf h s
  exact ⟨fun r hr => by rw [Store.hasRow, hs]; exact this.secrets r hr,
    fun r hr => this.new_secrets r (by rwa [← hs]), fun g hgr => by rw [hg]; exact this.grants g hgr,
    fun g hgr => this.evolved g (by rwa [← hg])⟩

theorem hasRow (hk : Keeps nameOf h s s') {id : Uuid} {name : String} (hr : s.hasRow id name) : s'.hasRow id name := by
  obtain ⟨r, hmem, rfl, rfl⟩ := hr
  exact hk.secrets r hmem

theorem fresh_grant (hk : Keeps nameOf h s s') {row : GrantRow} : s'.grants.Fresh row ↔ s.grants.Fresh row := by
  have hclash : ∀ {g g' : GrantRow}, g.Evolves g' → grantKeys.clashes g' row = grantKeys.clashes g row := by
    intro g g' hev
    rw [Keys.clashes, Keys.clashes, show grantKeys.key g' = grantKeys.key g from Prod.ext hev.id hev.requestId]
  constructor
  · intro hfresh g hg
    obtain ⟨g', hg', hev⟩ := hk.grants g hg
    rw [← hclash hev]
    exact hfresh g' hg'
  · intro hfresh g' hg'
    obtain ⟨g, hg, hev⟩ := hk.evolved g' hg'
    rw [hclash hev]
    exact hfresh g hg

theorem leaves (hk : Keeps nameOf h s s') : Leaves h s s' where
  secrets r hr := Or.inl (hk.secrets r hr)
  new_secrets r hr := (hk.new_secrets r hr).imp_right And.right
  grants g hg := Or.inl (hk.evolved g hg)

/-- What keeps the rows keeps the invariant. -/
theorem backed (hk : Keeps nameOf h s s') {c : DateTime} {log : List (StoreOp × Reply)} (hb : Backed nameOf s c log) :
    Backed nameOf s' c log := by
  refine ⟨?_, ?_, ?_, ?_⟩
  · intro r' hr'
    rcases hk.new_secrets r' hr' with ⟨r, hr, hid, hname⟩ | hnew
    · rw [← hid, ← hname]
      exact hb.named r hr
    · exact hnew.1
  · intro g' hg' hlive
    obtain ⟨g, hg, hev⟩ := hk.evolved g' hg'
    obtain ⟨e, he, hdec⟩ := hb.decided g hg (hev.storedBacked hlive)
    exact ⟨e, he, by rwa [hev.id]⟩
  · intro g' hg' hlive e he id hdec
    obtain ⟨g, hg, hev⟩ := hk.evolved g' hg'
    rw [hev.secretName]
    exact hk.hasRow (hb.rows g hg (hev.storedBacked hlive) e he id (by rwa [← hev.id]))
  · intro e he gid id hdec
    obtain ⟨g, hg, hid⟩ := hb.minted e he gid id hdec
    obtain ⟨g', hg', hev⟩ := hk.grants g hg
    exact ⟨g', hg', hev.id.trans hid⟩

end Keeps

/-- An entry of the log that minted nothing. -/
theorem Backed.log {nameOf : Uuid → String} {s : Store} {c : DateTime} {log : List (StoreOp × Reply)}
    (hb : Backed nameOf s c log) {op : StoreOp} {r : Reply} (hop : op.decides = none) :
    Backed nameOf s c (log ++ [(op, r)]) := by
  have hlog : ∀ e ∈ log ++ [(op, r)], ∀ p, e.1.decides = some p → e ∈ log := by
    intro e he p hp
    rcases List.mem_append.1 he with he | he
    · exact he
    · rw [List.mem_singleton.1 he, hop] at hp
      cases hp
  refine ⟨hb.named, ?_, ?_, ?_⟩
  · intro g hg hlive
    obtain ⟨e, he, hdec⟩ := hb.decided g hg hlive
    exact ⟨e, List.mem_append_left _ he, hdec⟩
  · intro g hg hlive e he id hdec
    exact hb.rows g hg hlive e (hlog e he _ hdec) id hdec
  · intro e he gid id hdec
    exact hb.minted e (hlog e he _ hdec) gid id hdec

/-- The kind of writes that keep. -/
def Keeping (nameOf : Uuid → String) (h : Held LockKey) (f : Store → Store) : Prop := ∀ s, Keeps nameOf h s (f s)

theorem writeKind_keeping (nameOf : Uuid → String) : WriteKind (Keeping nameOf) where
  id h s := .refl nameOf h s
  comp hf hg s := (hf s).trans (hg _)
  mono hh hf s := (hf s).mono hh

/-- Writes outside the two tables. -/
def Aside (_ : Held LockKey) (f : Store → Store) : Prop := ∀ s, (f s).secrets = s.secrets ∧ (f s).grants = s.grants

theorem writeKind_aside : WriteKind Aside where
  id _ _ := ⟨rfl, rfl⟩
  comp hf hg s := ⟨(hg _).1.trans (hf s).1, (hg _).2.trans (hf s).2⟩
  mono _ hf := hf

theorem Aside.keeping {nameOf : Uuid → String} {h : Held LockKey} {f : Store → Store} (hf : Aside h f) :
    Keeping nameOf h f := fun s => .of_eq (hf s).1 (hf s).2

theorem Aside.hasRow {h : Held LockKey} {f : Store → Store} (hf : Aside h f) {s : Store} {id : Uuid} {name : String}
    (hr : s.hasRow id name) : (f s).hasRow id name := by
  rw [Store.hasRow, (hf s).1]
  exact hr

/-- Every write keeps, except the deletion of secrets and the insertion of a grant. -/
theorem StoreWrite.keeping {nameOf : Uuid → String} {op : StoreOp} (hop : op.Legit nameOf) {now : DateTime}
    {h : Held LockKey} {f : Store → Store} (hf : StoreWrite (fun _ _ => True) op now h f) (hdel : op.deletes = none)
    (hmint : op.mints now = none) : Keeping nameOf h f := by
  intro s
  cases hf with
  | insertSecret row hrow hlock =>
      refine ⟨?_, ?_, (Keeps.refl nameOf h s).grants, (Keeps.refl nameOf h s).evolved⟩
      · intro r hr
        exact ⟨r, Table.mem_insert_of_mem hr, rfl, rfl⟩
      · intro r' hr'
        rcases Table.mem_of_mem_insert hr' with hr | rfl
        · exact Or.inl ⟨r', hr, rfl, rfl⟩
        · exact Or.inr ⟨hop.named now _ hrow, hlock⟩
  | updateSecrets p keys f hf hlock =>
      have hkey : ∀ r, (if secretRel.hit p keys r then f r else r).id = r.id ∧
          (if secretRel.hit p keys r then f r else r).name = r.name := by
        intro r
        split
        · exact ⟨congrArg Prod.fst (hf r), congrArg Prod.snd (hf r)⟩
        · exact ⟨rfl, rfl⟩
      refine ⟨?_, ?_, (Keeps.refl nameOf h s).grants, (Keeps.refl nameOf h s).evolved⟩
      · intro r hr
        exact ⟨_, Table.mem_update_of_mem hf hr, hkey r⟩
      · intro r' hr'
        obtain ⟨r, hr, rfl⟩ := Table.exists_of_mem_update hf hr'
        exact Or.inl ⟨r, hr, (hkey r).1.symm, (hkey r).2.symm⟩
  | deleteSecrets p keys secretId hop' hp =>
      rw [hdel] at hop'
      cases hop'
  | insertGrant row hm hlock =>
      rw [hmint] at hm
      cases hm
  | updateGrants p keys f hf hev =>
      refine ⟨(Keeps.refl nameOf h s).secrets, (Keeps.refl nameOf h s).new_secrets, ?_, ?_⟩
      · intro g hg
        refine ⟨_, Table.mem_update_of_mem hf hg, ?_⟩
        split
        · exact hev g
        · exact .refl g
      · intro g' hg'
        obtain ⟨g, hg, rfl⟩ := Table.exists_of_mem_update hf hg'
        refine ⟨g, hg, ?_⟩
        split
        · exact hev g
        · exact .refl g
  | _ => exact .of_eq rfl rfl

/-- A call that deletes nothing and mints nothing. -/
theorem safe_of_keeping {nameOf : Uuid → String} {window : Int} {op : StoreOp} (hop : op.Legit nameOf) {now : DateTime}
    (hdel : op.deletes = none) (hmint : op.mints now = none) (hdec : op.decides = none) :
    (incarnations nameOf).Safe op now (op.txn window now) := by
  refine Txn.wp_within (writeKind_keeping nameOf)
    (txn_within hop.attempts fun h f hf => hf.keeping hop hdel hmint) (Protocol.stable_true _ _) ?_
  intro r h e _ he s c log _ hinv _
  exact ⟨((he s).backed hinv).log hdec, (he s).leaves⟩

/-! ## Minting -/

section Mint
variable {nameOf : Uuid → String} {h : Held LockKey} {s : Store} {op : StoreOp} {row : GrantRow}

/-- What the call says about the grant it mints: a grant without a payload was decided on a row that is there. -/
structure Decided (op : StoreOp) (row : GrantRow) (s : Store) : Prop where
  backed : row.passthroughEphemeral = false → ∃ id, op.decides = some (row.id, id) ∧ s.hasRow id row.secretName
  only : ∀ gid id, op.decides = some (gid, id) → gid = row.id ∧ row.passthroughEphemeral = false

theorem Backed.mint {c : DateTime} {log : List (StoreOp × Reply)} (hb : Backed nameOf s c log)
    (hfresh : s.grants.Fresh row) (hdec : Decided op row s) {r : Reply} :
    Backed nameOf (grantRel.inserting row s) c (log ++ [(op, r)]) := by
  have hother : ∀ g ∈ s.grants.rows, g.id ≠ row.id := by
    intro g hg hid
    have := hfresh g hg
    rw [Keys.pair_clashes.2 (Or.inl hid)] at this
    cases this
  refine ⟨hb.named, ?_, ?_, ?_⟩
  · intro g hg hlive
    rcases Table.mem_of_mem_insert hg with hg | rfl
    · obtain ⟨e, he, hd⟩ := hb.decided g hg hlive
      exact ⟨e, List.mem_append_left _ he, hd⟩
    · obtain ⟨id, hd, -⟩ := hdec.backed hlive.1
      exact ⟨(op, r), by simp, id, hd⟩
  · intro g hg hlive e he id hd
    rcases Table.mem_of_mem_insert hg with hg | rfl
    · rcases List.mem_append.1 he with he | he
      · exact hb.rows g hg hlive e he id hd
      · rw [List.mem_singleton.1 he] at hd
        exact absurd (hdec.only _ _ hd).1 (hother g hg)
    · rcases List.mem_append.1 he with he | he
      · obtain ⟨g', hg', hid⟩ := hb.minted e he _ _ hd
        exact absurd hid (hother g' hg')
      · rw [List.mem_singleton.1 he] at hd
        obtain ⟨id', hd', hrow⟩ := hdec.backed hlive.1
        rw [hd, Option.some.injEq, Prod.mk.injEq] at hd'
        rw [hd'.2]
        exact hrow
  · intro e he gid id hd
    rcases List.mem_append.1 he with he | he
    · obtain ⟨g, hg, hid⟩ := hb.minted e he gid id hd
      exact ⟨g, Table.mem_insert_of_mem hg, hid⟩
    · rw [List.mem_singleton.1 he] at hd
      exact ⟨row, Table.mem_insert_self hfresh, (hdec.only _ _ hd).1.symm⟩

/-- What a minting commit leaves. -/
theorem leaves_mint {d e : Store → Store} (hd : Keeping nameOf h d) (he : Keeping nameOf h e)
    (hl : Rel.Locked h (grantRel.keyLocks row))
    (hshared : row.passthroughEphemeral = false → (.secret row.secretName, .shared) ∈ h) (s : Store) :
    Leaves h s (e (grantRel.inserting row (d s))) := by
  refine ⟨?_, ?_, ?_⟩
  · intro r hr
    exact Or.inl ((he _).hasRow ((hd s).secrets r hr))
  · intro r' hr'
    rcases (he _).new_secrets r' hr' with ⟨r, hr, hid, hname⟩ | hnew
    · rcases (hd s).new_secrets r hr with hold | ⟨-, hlock⟩
      · rw [hid, hname] at hold
        exact Or.inl hold
      · rw [show secretRel.keyLocks r = secretRel.keyLocks r' by simp [hid, hname]] at hlock
        exact Or.inr hlock
    · exact Or.inr hnew.2
  · intro g' hg'
    obtain ⟨g, hg, hev⟩ := (he _).evolved g' hg'
    rcases Table.mem_of_mem_insert hg with hg | rfl
    · obtain ⟨g₀, hg₀, hev₀⟩ := (hd s).evolved g hg
      exact Or.inl ⟨g₀, hg₀, hev₀.trans hev⟩
    · refine Or.inr ⟨?_, ?_⟩
      · rw [show grantRel.keyLocks g' = grantRel.keyLocks g by simp [hev.id, hev.requestId]]
        exact hl
      · rw [hev.ephemeral, hev.secretName]
        exact hshared

/-- Insert the grant, and go on with writes that keep. -/
theorem wp_mint {now : DateTime} {d : Store → Store} {F : Store → Prop} {x : Unit → Tx Reply}
    (hF : (incarnations nameOf).Stable h F) (hd : Keeping nameOf h d) (hdec : ∀ s, F s → Decided op row (d s))
    (hshared : row.passthroughEphemeral = false → (.secret row.secretName, .shared) ∈ h)
    (hx : ∀ h', (x ()).Writes (Keeping nameOf) h') :
    (insertGrant row >>= x).wp (incarnations nameOf) ((incarnations nameOf).Final op now) h d F := by
  have hst : ∀ h', h ⊆ h' → Rel.Locked h' (grantRel.keyLocks row) →
      (incarnations nameOf).Stable h' fun s => (d s).grants.Fresh row := by
    intro h' hh hl h'' s s' hc hg hfresh
    have hd' : Keeping nameOf h' d := (writeKind_keeping nameOf).mono hh hd
    exact (hd' s').fresh_grant.2 (stable_fresh_grant hl h'' s s' hc hg ((hd' s).fresh_grant.1 hfresh))
  refine Txn.wp_bind (Rel.wp_insertOrFail hF hst fun h' hh hl => ?_)
  refine Txn.wp_within (writeKind_keeping nameOf) (hx h') ((hF.mono hh).and (hst h' hh hl)) ?_
  intro r h'' e hh' he s c log hle hinv ⟨hs, hfresh⟩
  have hsub : h ⊆ h'' := fun l hl => hh' (hh hl)
  have hd' : Keeping nameOf h'' d := (writeKind_keeping nameOf).mono hsub hd
  refine ⟨(he _).backed (((hd' s).backed hinv).mint hfresh (hdec s hs)), ?_⟩
  exact leaves_mint hd' he (fun k hk => hh' (hl k hk)) (fun hp => hsub (hshared hp)) s

/-- Wait for the lock of the secret, and check that the row is still there. -/
theorem wp_requireStoredSecret {grant : GrantParams} {gone : Except DbError Reply} {d : Store → Store} {F : Store → Prop}
    {Q : Unit → Held LockKey → (Store → Store) → (Store → Prop) → Prop} (hF : (incarnations nameOf).Stable h F)
    (hd : ∀ s, (d s).secrets = s.secrets)
    (hQ : ∀ id, grant.secretId = some id → Q () ((.secret grant.secretName, .shared) :: h) d
      fun s => F s ∧ s.hasRow id grant.secretName) :
    (requireStoredSecret grant gone).wp (incarnations nameOf) Q h d F := by
  let h' : Held LockKey := (.secret grant.secretName, .shared) :: h
  have hF' : (incarnations nameOf).Stable h' F := hF.mono (List.subset_cons_self _ _)
  change (sameIncarnation grant >>= fun same => if !same then .abort gone else pure ()).wp _ Q h' d F
  refine Txn.wp_bind ?_
  cases hid : grant.secretId with
  | none =>
      rw [sameIncarnation, hid]
      trivial
  | some id =>
      rw [sameIncarnation, hid]
      refine Txn.wp_bind (Txn.wp_get_cases fun v => ?_)
      cases hsame : v.secrets.rows.any (fun r => r.id == id && r.name == grant.secretName) with
      | false =>
          exact ⟨F, hF', fun _ _ _ _ hs _ => hs, trivial⟩
      | true =>
          refine ⟨fun s => F s ∧ s.hasRow id grant.secretName, hF'.and (stable_hasRow List.mem_cons_self), ?_, ?_⟩
          · intro s c l _ hs hv
            refine ⟨hs, ?_⟩
            rw [← hv, hd, List.any_eq_true] at hsame
            obtain ⟨r, hr, hp⟩ := hsame
            rw [Bool.and_eq_true, beq_iff_eq, beq_iff_eq] at hp
            exact ⟨r, hr, hp⟩
          · exact hQ id hid

/-- After the check of an approval: the lock is held, and the row is there unless the approval creates it. -/
structure Checked (nameOf : Uuid → String) (grant : GrantParams) (store : Option StoreSecretParams) (h : Held LockKey)
    (F : Store → Prop) : Prop where
  stable : (incarnations nameOf).Stable h F
  shared : grant.passthrough = none → (.secret grant.secretName, .shared) ∈ h
  row : grant.passthrough = none → store = none →
    ∃ id, grant.secretId = some id ∧ ∀ s, F s → s.hasRow id grant.secretName

theorem wp_check {grant : GrantParams} {gone : Except DbError Reply}
    {Q : Unit → Held LockKey → (Store → Store) → (Store → Prop) → Prop}
    (hQ : ∀ h F, Checked nameOf grant none h F → Q () h id F) :
    (onlyIf grant.passthrough.isNone (requireStoredSecret grant gone)).wp (incarnations nameOf) Q [] id
      fun _ => True := by
  cases hp : grant.passthrough with
  | some p => exact hQ _ _ ⟨Protocol.stable_true _ _, by simp [hp], by simp [hp]⟩
  | none =>
      refine wp_requireStoredSecret (Protocol.stable_true _ _) (fun _ => rfl) fun id hid => hQ _ _ ⟨?_, ?_, ?_⟩
      · exact (Protocol.stable_true _ _).and (stable_hasRow List.mem_cons_self)
      · exact fun _ => List.mem_cons_self
      · exact fun _ _ => ⟨id, hid, fun s hs => hs.2⟩

theorem wp_lockForApproval {grant : GrantParams} {store : Option StoreSecretParams}
    {Q : Unit → Held LockKey → (Store → Store) → (Store → Prop) → Prop}
    (hQ : ∀ h F, Checked nameOf grant store h F → Q () h id F) :
    (lockForApproval grant store).wp (incarnations nameOf) Q [] id fun _ => True := by
  cases store with
  | none => exact wp_check hQ
  | some p =>
      unfold lockForApproval
      cases hp : grant.passthrough with
      | some _ => exact hQ _ _ ⟨Protocol.stable_true _ _, by simp [hp], by simp⟩
      | none => exact hQ _ _ ⟨Protocol.stable_true _ _, fun _ => List.mem_cons_self, by simp⟩

/-- What the call says about its grant, once the row is known to be there. -/
theorem decided_row {grant : GrantParams} {store : Option StoreSecretParams} {grantId requestId : Uuid} {now : DateTime}
    (hop : op.decides = (grant.decidedOn store).map (grantId, ·))
    (hrow : grant.passthrough = none → ∃ id, grant.decidedOn store = some id ∧ s.hasRow id grant.secretName) :
    Decided op (grant.row grantId requestId now) s := by
  refine ⟨?_, ?_⟩
  · intro heph
    have hnone : grant.passthrough = none := by simpa [GrantParams.row] using heph
    obtain ⟨id, hid, hr⟩ := hrow hnone
    exact ⟨id, by rw [hop, hid]; rfl, hr⟩
  · intro gid id hdec
    rw [hop, Option.map_eq_some_iff] at hdec
    obtain ⟨id', hid', heq⟩ := hdec
    refine ⟨(congrArg Prod.fst heq).symm, ?_⟩
    unfold GrantParams.decidedOn at hid'
    split at hid'
    · cases hid'
    · rename_i hsome
      simpa [GrantParams.row] using hsome

theorem decidedOn_none {grant : GrantParams} (hp : grant.passthrough = none) : grant.decidedOn none = grant.secretId := by
  simp [GrantParams.decidedOn, hp]

theorem safe_resolveApprove {requestId grantId : Uuid} {resolvedBy : String} {grant : GrantParams} {now : DateTime} :
    (incarnations nameOf).Safe (.resolveApprove requestId resolvedBy grant grantId) now
      (resolveApprove requestId resolvedBy grant grantId now) := by
  refine Txn.wp_bind (wp_check fun h F hchk => Txn.wp_bind ?_)
  refine Txn.wp_within writeKind_aside (Rel.within_updateWhere fun h' keys _ _ s => ⟨rfl, rfl⟩)
    hchk.stable fun updated h' e hh he => ?_
  split
  · trivial
  · refine wp_mint (hchk.stable.mono hh) he.keeping ?_ ?_ fun h'' => ?_
    · intro s hs
      refine decided_row rfl fun hp => ?_
      obtain ⟨id, hid, hrow⟩ := hchk.row hp rfl
      exact ⟨id, (decidedOn_none hp).trans hid, he.hasRow (hrow s hs)⟩
    · intro heph
      exact hh (hchk.shared (by simpa [GrantParams.row] using heph))
    · exact Txn.within_bind (within_insertAudit fun s => .of_eq rfl rfl) fun _ _ _ => trivial

/-- The secret of an approval is there once it is inserted. -/
theorem wp_storeApproved {requestId versionId : Uuid} {resolvedBy : String} {now : DateTime} {p : StoreSecretParams}
    {d : Store → Store} {F : Store → Prop} {Q : Unit → Held LockKey → (Store → Store) → (Store → Prop) → Prop}
    (hname : nameOf p.secretId = p.name) (hF : (incarnations nameOf).Stable h F) (hd : Aside h d)
    (hQ : ∀ h' d' F', h ⊆ h' → (incarnations nameOf).Stable h' F' → Keeping nameOf h' d' →
      (∀ s, F' s → (d' s).hasRow p.secretId p.name) → Q () h' d' F') :
    (storeApproved requestId resolvedBy versionId now (some p)).wp (incarnations nameOf) Q h d F := by
  refine Txn.wp_bind (Txn.wp_within writeKind_aside within_sealNow hF fun sealed h₁ e₁ hh₁ he₁ => ?_)
  have hd₁ : Aside h₁ (e₁ ∘ d) := writeKind_aside.comp hd he₁
  have hF₁ := hF.mono hh₁
  have hst : ∀ h', h₁ ⊆ h' → Rel.Locked h' (secretRel.keyLocks (p.row true false now)) →
      (incarnations nameOf).Stable h' fun s => ((e₁ ∘ d) s).secrets.Fresh (p.row true false now) := by
    intro h' _ hl h'' s s' hc hg hfresh
    rw [(hd₁ _).1] at hfresh ⊢
    exact stable_fresh_secret hl h'' s s' hc hg hfresh
  refine Txn.wp_bind (Rel.wp_insertOnConflict hF₁ _ (fun s hs hfresh => ⟨hs, hfresh⟩)
    (fun h' hh hl => (hF₁.mono hh).and (hst h' hh hl)) (fun h' _ => trivial) fun h₂ hh₂ hl => ?_)
  refine Txn.wp_within (writeKind_keeping nameOf) (Txn.within_bind (Rel.within_insertOrFail fun h' _ _ s =>
    .of_eq rfl rfl) fun _ h' _ => within_insertAudit fun s => .of_eq rfl rfl) ((hF₁.mono hh₂).and (hst h₂ hh₂ hl))
    fun _ h₃ e hh₃ he => ?_
  have hins : Keeping nameOf h₃ (secretRel.inserting (p.row true false now)) := by
    intro s
    refine ⟨fun r hr => ⟨r, Table.mem_insert_of_mem hr, rfl, rfl⟩, ?_, (Keeps.refl nameOf h₃ s).grants,
      (Keeps.refl nameOf h₃ s).evolved⟩
    intro r' hr'
    rcases Table.mem_of_mem_insert hr' with hr | rfl
    · exact Or.inl ⟨r', hr, rfl, rfl⟩
    · exact Or.inr ⟨hname, fun k hk => hh₃ (hl k hk)⟩
  have hkind := writeKind_keeping nameOf
  refine hQ h₃ _ _ (fun l hl => hh₃ (hh₂ (hh₁ hl))) (((hF₁.mono hh₂).and (hst h₂ hh₂ hl)).mono hh₃)
    (hkind.comp (hkind.comp (hkind.mono (fun l hl => hh₃ (hh₂ hl)) hd₁.keeping) hins) he) ?_
  intro s hs
  exact (he _).hasRow ⟨_, Table.mem_insert_self hs.2, rfl, rfl⟩

theorem safe_approveRequest {requestId grantId versionId : Uuid} {resolvedBy : String} {grant : GrantParams}
    {store : Option StoreSecretParams} {now : DateTime}
    (hop : StoreOp.Legit nameOf (.approveRequest requestId resolvedBy grantId grant store versionId)) :
    (incarnations nameOf).Safe (.approveRequest requestId resolvedBy grantId grant store versionId) now
      (approveRequest requestId resolvedBy grantId grant store versionId now) := by
  refine Txn.wp_bind (wp_lockForApproval fun h F hchk => Txn.wp_bind ?_)
  refine Txn.wp_within writeKind_aside (within_onlyIf fun _ => trivial) hchk.stable fun _ h₁ e₁ hh₁ he₁ => ?_
  have hF₁ := hchk.stable.mono hh₁
  refine Txn.wp_bind (Txn.wp_within writeKind_aside (Rel.within_updateWhere fun h' keys _ _ s => ⟨rfl, rfl⟩)
    hF₁ fun updated h₂ e₂ hh₂ he₂ => ?_)
  have hd : Aside h₂ (e₂ ∘ e₁ ∘ id) := writeKind_aside.comp he₁ he₂
  have hF₂ := hF₁.mono hh₂
  have hsub : h ⊆ h₂ := fun l hl => hh₂ (hh₁ hl)
  have hend : ∀ (a : AuditRow) h', (insertAudit a >>= fun _ => (pure (.approve (.approved grantId)) : Tx Reply)).Writes
      (Keeping nameOf) h' :=
    fun a h' => Txn.within_bind (within_insertAudit fun s => .of_eq rfl rfl) fun _ _ _ => trivial
  have hshared : (grant.row grantId requestId now).passthroughEphemeral = false →
      (.secret grant.secretName, .shared) ∈ h₂ :=
    fun heph => hsub (hchk.shared (by simpa [GrantParams.row] using heph))
  split
  · trivial
  · refine Txn.wp_bind ?_
    cases store with
    | none =>
        refine wp_mint hF₂ hd.keeping ?_ hshared fun h' => hend _ h'
        intro s hs
        refine decided_row rfl fun hp => ?_
        obtain ⟨id, hid, hrow⟩ := hchk.row hp rfl
        exact ⟨id, (decidedOn_none hp).trans hid, hd.hasRow (hrow s hs)⟩
    | some p =>
        have hname : p.name = grant.secretName := hop.stored _ _ _ _ _ _ rfl
        refine wp_storeApproved (hop.named now _ rfl) hF₂ hd fun h' d' F' hh' hF' hd' hrow => ?_
        refine wp_mint hF' hd' ?_ (fun heph => hh' (hshared heph)) fun h'' => hend _ h''
        intro s hs
        refine decided_row rfl fun hp => ⟨p.secretId, ?_, ?_⟩
        · simp [GrantParams.decidedOn, hp]
        · rw [← hname]
          exact hrow s hs

theorem safe_insertAccessRequestWithId {rid grantId : Uuid} {req : NewAccessRequest} {pendingCap : Option Int}
    {resolvedBy : String} {grant : GrantParams} {notifyOnly : Bool} {context : Option SealFn} {now : DateTime} :
    (incarnations nameOf).Safe
      (.insertAccessRequestWithId rid req pendingCap (.approved resolvedBy grant notifyOnly) context grantId) now
      (insertAccessRequestWithId rid req pendingCap (.approved resolvedBy grant notifyOnly) context grantId now) := by
  refine Txn.wp_bind (wp_check fun h F hchk => Txn.wp_bind ?_)
  have hseal : (sealContext context).Writes Aside h := by
    unfold sealContext
    split
    · trivial
    · exact Txn.within_lock_bind (Txn.within_bind within_sealNow fun _ _ _ => trivial)
  refine Txn.wp_within writeKind_aside hseal hchk.stable fun c h₁ e₁ hh₁ he₁ => Txn.wp_bind ?_
  have hF₁ := hchk.stable.mono hh₁
  refine Txn.wp_within writeKind_aside (within_onlyIf fun _ => trivial) hF₁ fun _ h₂ e₂ hh₂ he₂ => Txn.wp_bind ?_
  have hF₂ := hF₁.mono hh₂
  refine Txn.wp_within writeKind_aside (Rel.within_insertOnConflict fun h' _ _ s => ⟨rfl, rfl⟩) hF₂
    fun inserted h₃ e₃ hh₃ he₃ => Txn.wp_bind (Txn.wp_get (hF₂.mono hh₃) fun v => ?_)
  have hF₃ := hF₂.mono hh₃
  split
  · split
    · trivial
    · refine Txn.wp_bind (Txn.wp_within writeKind_aside (within_insertAudit fun s => ⟨rfl, rfl⟩) hF₃
        fun _ h₄ e₄ hh₄ he₄ => ?_)
      have hF₄ := hF₃.mono hh₄
      rw [applyResolution, Txn.bind_bind]
      refine Txn.wp_bind (Txn.wp_within writeKind_aside (Rel.within_updateWhere fun h' keys _ _ s => ⟨rfl, rfl⟩) hF₄
        fun updated h₅ e₅ hh₅ he₅ => ?_)
      have hsub : h ⊆ h₅ := fun l hl => hh₅ (hh₄ (hh₃ (hh₂ (hh₁ hl))))
      have hd : Aside h₅ (e₅ ∘ e₄ ∘ e₃ ∘ e₂ ∘ e₁ ∘ id) := by
        have hkind := writeKind_aside
        exact hkind.comp (hkind.comp (hkind.comp (hkind.comp (hkind.comp (hkind.id h₅) he₁) he₂) he₃) he₄) he₅
      split
      · trivial
      · rw [Txn.bind_bind]
        refine wp_mint (hF₄.mono hh₅) hd.keeping ?_ ?_ fun h' => ?_
        · intro s hs
          refine decided_row rfl fun hp => ?_
          obtain ⟨id, hid, hrow⟩ := hchk.row hp rfl
          exact ⟨id, (decidedOn_none hp).trans hid, hd.hasRow (hrow s hs)⟩
        · intro heph
          exact hsub (hchk.shared (by simpa [GrantParams.row] using heph))
        · exact Txn.within_bind (Txn.within_bind (within_insertAudit fun s => .of_eq rfl rfl) fun _ _ _ => trivial)
            fun _ _ _ => trivial
  · split <;> trivial

end Mint

/-! ## Deleting -/

section Delete
variable {nameOf : Uuid → String}

/-- Writes that drop nothing but rows of one secret, and leave the grants alone. -/
def Dropping (secretId : Uuid) (_ : Held LockKey) (f : Store → Store) : Prop :=
  ∀ s, (f s).grants = s.grants ∧ (∀ r ∈ (f s).secrets.rows, r ∈ s.secrets.rows) ∧
    ∀ r ∈ s.secrets.rows, r.id ≠ secretId → r ∈ (f s).secrets.rows

theorem writeKind_dropping (secretId : Uuid) : WriteKind (Dropping secretId) where
  id _ _ := ⟨rfl, fun _ hr => hr, fun _ hr _ => hr⟩
  comp hf hg s := ⟨(hg _).1.trans (hf s).1, fun r hr => (hf s).2.1 r ((hg _).2.1 r hr),
    fun r hr hne => (hg _).2.2 r ((hf s).2.2 r hr hne) hne⟩
  mono _ hf := hf

theorem dropping_of_eq {secretId : Uuid} {h : Held LockKey} {f : Store → Store} (hf : Aside h f) :
    Dropping secretId h f := by
  intro s
  rw [(hf s).1]
  exact ⟨(hf s).2, fun _ hr => hr, fun _ hr _ => hr⟩

/-- A deletion under the lock of the name: its rows go, and with them every grant that they backed. -/
theorem final_delete {op : StoreOp} {now : DateTime} {h : Held LockKey} {secretId : Uuid} {name : String}
    {keys : List LockKey} {d e : Store → Store} {r : Reply} (hop : op.decides = none)
    (hlock : (.secret name, .exclusive) ∈ h) (hname : nameOf secretId = name) (hd : Dropping secretId h d)
    (he : Aside h e) :
    (incarnations nameOf).Final op now r h
      (e ∘ grantRel.updating (backedBy name now) keys GrantRow.revoke GrantRow.key_revoke ∘ d)
      fun s => grantRel.Scanned (backedBy name now) keys (d s) := by
  intro s c log hle hinv hscan
  let f := grantRel.updating (backedBy name now) keys GrantRow.revoke GrantRow.key_revoke
  have hgrants : (e (f (d s))).grants = s.grants.update (grantRel.hit (backedBy name now) keys) GrantRow.revoke
      GrantRow.key_revoke := by
    rw [(he _).2]
    change (d s).grants.update _ _ GrantRow.key_revoke = _
    rw [(hd s).1]
  have hsecrets : (e (f (d s))).secrets = (d s).secrets := (he _).1
  have hev : ∀ g' ∈ (e (f (d s))).grants.rows, ∃ g ∈ s.grants.rows, g.Evolves g' ∧
      (grantRel.hit (backedBy name now) keys g = true → g'.revoked = true) := by
    intro g' hg'
    rw [hgrants] at hg'
    obtain ⟨g, hg, rfl⟩ := Table.exists_of_mem_update GrantRow.key_revoke hg'
    refine ⟨g, hg, ?_⟩
    split
    · exact ⟨.revoke g, fun _ => rfl⟩
    · rename_i hne
      exact ⟨.refl g, fun hhit => absurd hhit hne⟩
  have hgone : ∀ r ∈ s.secrets.rows, r.name ≠ name → r ∈ (d s).secrets.rows := by
    intro r hr hne
    refine (hd s).2.2 r hr fun hid => hne ?_
    rw [← hinv.named r hr, hid, hname]
  refine ⟨Backed.log ⟨?_, ?_, ?_, ?_⟩ hop, ?_, ?_, ?_⟩
  · intro r hr
    rw [Function.comp_apply, Function.comp_apply, hsecrets] at hr
    exact hinv.named r ((hd s).2.1 r hr)
  · intro g' hg' hlive
    obtain ⟨g, hg, hevol, -⟩ := hev g' hg'
    rw [hevol.id]
    exact hinv.decided g hg (hevol.storedBacked hlive)
  · intro g' hg' hlive e' he' id hdec
    obtain ⟨g, hg, hevol, hrev⟩ := hev g' hg'
    have hglive := hevol.storedBacked hlive
    rw [hevol.id] at hdec
    obtain ⟨r, hr, hid, hrn⟩ := hinv.rows g hg hglive e' he' id hdec
    have hother : g.secretName ≠ name := by
      intro hgn
      -- the scan saw it, so it was revoked
      have hback : backedBy name now g = true := by
        simp [backedBy, hgn, GrantRow.live, hglive.1, hglive.2.1, lt_of_le_of_lt hle hglive.2.2]
      have hhit : grantRel.hit (backedBy name now) keys g = true := by
        rw [Rel.hit, hback, Bool.true_and, List.contains_iff_mem]
        exact hscan g (by change g ∈ (d s).grants.rows; rw [(hd s).1]; exact hg) hback
      have := hrev hhit
      rw [hlive.2.1] at this
      cases this
    rw [hevol.secretName, Store.hasRow, Function.comp_apply, Function.comp_apply, hsecrets]
    exact ⟨r, hgone r hr (by rw [hrn]; exact hother), hid, hrn⟩
  · intro e' he' gid id hdec
    obtain ⟨g, hg, hid⟩ := hinv.minted e' he' gid id hdec
    rw [Function.comp_apply, Function.comp_apply, hgrants]
    refine ⟨_, Table.mem_update_of_mem GrantRow.key_revoke hg, ?_⟩
    split
    · exact hid
    · exact hid
  · intro r hr
    by_cases hne : r.name = name
    · rw [hne]
      exact Or.inr hlock
    · refine Or.inl ?_
      rw [Store.hasRow, Function.comp_apply, Function.comp_apply, hsecrets]
      exact ⟨r, hgone r hr hne, rfl, rfl⟩
  · intro r' hr'
    rw [Function.comp_apply, Function.comp_apply, hsecrets] at hr'
    exact Or.inl ⟨r', (hd s).2.1 r' hr', rfl, rfl⟩
  · intro g' hg'
    obtain ⟨g, hg, hevol, -⟩ := hev g' hg'
    exact Or.inl ⟨g, hg, hevol⟩

theorem safe_deleteSecretAudited {secretId : Uuid} {expectedVersion : Int} {actor : String} {now : DateTime} :
    (incarnations nameOf).Safe (.deleteSecretAudited secretId expectedVersion actor) now
      (deleteSecretAudited secretId expectedVersion actor now) := by
  refine Txn.wp_bind (Txn.wp_get_cases fun v => ?_)
  cases hfind : v.secrets.rows.find? (·.id == secretId) with
  | none => exact ⟨_, Protocol.stable_true _ _, fun _ _ _ _ _ _ => trivial, trivial⟩
  | some row =>
      -- the name of an id never changes, so what the first read says stays true
      refine ⟨fun _ => nameOf secretId = row.name, fun _ _ _ _ _ hn => hn, ?_, ?_⟩
      · intro s c l hinv _ hv
        have hid : row.id = secretId := by simpa using List.find?_some hfind
        rw [← hid]
        exact hinv.named row (by rw [show s = v from hv]; exact List.mem_of_find?_eq_some hfind)
      · refine Txn.wp_bind (Txn.wp_lock (Txn.wp_bind (Txn.wp_get (fun _ _ _ _ _ hn => hn) fun v' => ?_)))
        have hkind := writeKind_dropping secretId
        have hconst : ∀ h', (incarnations nameOf).Stable h' fun _ => nameOf secretId = row.name :=
          fun _ _ _ _ _ _ hn => hn
        refine Txn.wp_bind (Txn.wp_within hkind (Rel.within_deleteWhere fun h' keys _ _ s => ⟨rfl, ?_, ?_⟩)
          (hconst _) fun deleted h₁ e₁ hh₁ he₁ => ?_)
        · exact fun r hr => (Table.mem_delete.1 hr).1
        · intro r hr hne
          refine Table.mem_delete.2 ⟨hr, ?_⟩
          simp [Rel.hit, hne]
        split
        · trivial
        · refine Txn.wp_bind (Txn.wp_within hkind (Rel.within_deleteWhere fun h' keys _ _ =>
            dropping_of_eq fun s => ⟨rfl, rfl⟩) (hconst _) fun _ h₂ e₂ hh₂ he₂ => ?_)
          refine Txn.wp_bind (Txn.wp_within hkind (Rel.within_deleteWhere fun h' keys _ _ =>
            dropping_of_eq fun s => ⟨rfl, rfl⟩) (hconst _) fun _ h₃ e₃ hh₃ he₃ => ?_)
          have hd : Dropping secretId h₃ (e₃ ∘ e₂ ∘ e₁ ∘ id) :=
            hkind.comp (hkind.comp (hkind.comp (hkind.id h₃) he₁) he₂) he₃
          have hlock : (.secret row.name, .exclusive) ∈ h₃ := hh₃ (hh₂ (hh₁ List.mem_cons_self))
          have hscan : ∀ keys, (incarnations nameOf).Stable h₃ fun s =>
              grantRel.Scanned (backedBy row.name now) keys ((e₃ ∘ e₂ ∘ e₁ ∘ id) s) := by
            intro keys h' s s' hc hg hs
            have hsame : ∀ s, grantRel.get ((e₃ ∘ e₂ ∘ e₁ ∘ id) s) = grantRel.get s := fun s => (hd s).1
            rw [Rel.Scanned, hsame] at hs ⊢
            exact stable_scanned hlock h' s s' hc hg hs
          refine Txn.wp_bind (Rel.wp_updateWhere (hconst _) hscan fun h₄ keys revoked hh₄ _ => ?_)
          refine Txn.wp_within writeKind_aside (Txn.within_bind (within_insertAudits fun s => ⟨rfl, rfl⟩) fun _ h' _ =>
            Txn.within_bind (within_insertAudit fun s => ⟨rfl, rfl⟩) fun _ _ _ => trivial)
            ((hconst _).and ((hscan keys).mono hh₄)) fun r h₅ e hh₅ he => ?_
          intro s c log hle hinv hboth
          exact final_delete rfl (hh₅ (hh₄ hlock)) hboth.1 hd he s c log hle hinv hboth.2

end Delete

/-! ## Every interleaving -/

theorem safe_txn {nameOf : Uuid → String} {window : Int} {op : StoreOp} (hop : op.Legit nameOf) (now : DateTime) :
    (incarnations nameOf).Safe op now (op.txn window now) := by
  cases op with
  | deleteSecretAudited secretId expectedVersion actor => exact safe_deleteSecretAudited
  | approveRequest requestId resolvedBy grantId grant store versionId => exact safe_approveRequest hop
  | resolveApprove requestId resolvedBy grant grantId => exact safe_resolveApprove
  | insertAccessRequestWithId id req pendingCap resolution context grantId =>
      cases resolution with
      | approved resolvedBy grant notifyOnly => exact safe_insertAccessRequestWithId
      | _ => exact safe_of_keeping hop rfl rfl rfl
  | _ => exact safe_of_keeping hop rfl rfl rfl

/-- The transactions of the store in flight. -/
abbrev StoreWorld : Type := World Store LockKey (Except DbError Reply) Reply DateTime StoreOp

abbrev StoreWorld.Reachable (window : Int) (c₀ : DateTime) (ok : StoreOp → Prop) (w : StoreWorld) : Prop :=
  World.Reachable (StoreOp.txn window) Store.empty c₀ ok w

/-- In every state that can be reached, a live grant without a payload of its own was minted by a committed call, and
the row under the name it releases is the one that call decided on. -/
theorem incarnation_of_reachable {nameOf : Uuid → String} {window : Int} {c₀ : DateTime} {w : StoreWorld}
    (hw : w.Reachable window c₀ (StoreOp.Legit nameOf)) :
    ∀ g ∈ w.store.grants.rows, g.passthroughEphemeral = false → g.revoked = false → w.clock < g.notAfter →
      (∃ e ∈ w.log, ∃ id, e.1.decides = some (g.id, id)) ∧
        ∀ e ∈ w.log, ∀ id, e.1.decides = some (g.id, id) →
          ∃ row ∈ w.store.secrets.rows, row.name = g.secretName ∧ row.id = id := by
  have hinv : Backed nameOf w.store w.clock w.log := by
    refine Protocol.inv_of_reachable ?_ (fun op hop now => safe_txn hop now) hw
    exact ⟨by simp [Store.empty], by simp [Store.empty], by simp [Store.empty], by simp⟩
  intro g hg heph hrev hlive
  refine ⟨hinv.decided g hg ⟨heph, hrev, hlive⟩, ?_⟩
  intro e he id hdec
  obtain ⟨row, hrow, hid, hname⟩ := hinv.rows g hg ⟨heph, hrev, hlive⟩ e he id hdec
  exact ⟨row, hrow, hname, hid⟩

/-- A secret of the operator's. -/
def deployKey : StoreSecretParams where
  secretId := 3
  name := "deploy-key"
  description := ""
  maxTier := 2
  injectionKind := "bearer"
  injectionHeader := none
  injectionUsername := none
  sealWith := fun kek => some ⟨[1], [2], [3], kek⟩

/-- An approval of `askedRequest` on that secret. -/
def deployGrant : GrantParams where
  clientName := "agent"
  secretName := "deploy-key"
  secretId := some 3
  mechanism := "release"
  constraints := ⟨[], [], [], 900, some 1⟩
  notAfter := .ofSeconds 1900
  maxUses := some 1
  passthrough := none

/-- Stored, asked for, approved, and then the deletion of a version that is not current. -/
def approvedOnce : List (StoreOp × DateTime) :=
  [(.createSecretWithVersion deployKey 4 "operator", .ofSeconds 900),
    (.insertAccessRequestWithId 5 askedRequest (some 20) .pending none 0, .ofSeconds 1000),
    (.approveRequest 5 "operator" 7 deployGrant none 0, .ofSeconds 1100),
    (.deleteSecretAudited 3 2 "operator", .ofSeconds 1200)]

theorem incarnation_of_reachable_approved :
    ∃ w : StoreWorld, w.Reachable 60 (.ofSeconds 900) (StoreOp.Legit fun _ => "deploy-key") ∧
      w.store.grants.rows.map (·.id) = [7] ∧ w.store.secrets.rows.map (·.id) = [3] ∧
        ∃ e ∈ w.log, ∃ id, e.1.decides = some (7, id) ∧
          ∃ row ∈ w.store.secrets.rows, row.name = "deploy-key" ∧ row.id = id := by
  have hrun := run_play (StoreOp.step 60) .empty (.ofSeconds 900) approvedOnce (by decide)
  have hops : ∀ e ∈ play (StoreOp.step 60) .empty approvedOnce, StoreOp.Legit (fun _ => "deploy-key") e.op := by
    intro e he
    simp only [approvedOnce, play, callEvent, List.mem_cons, List.not_mem_nil, or_false] at he
    rcases he with rfl | rfl | rfl | rfl <;> refine ⟨rfl, ?_, ?_⟩ <;> simp [StoreOp.creates, StoreSecretParams.row, deployKey]
  obtain ⟨log, hw⟩ := hrun.reachable hops
  have hids : (playEnd (StoreOp.step 60) .empty approvedOnce).grants.rows.map (·.id) = [7] ∧
      (playEnd (StoreOp.step 60) .empty approvedOnce).secrets.rows.map (·.id) = [3] := by
    decide +kernel
  obtain ⟨g, hg, hid, hlive⟩ : ∃ g ∈ (playEnd (StoreOp.step 60) .empty approvedOnce).grants.rows, g.id = 7 ∧
      (g.passthroughEphemeral = false ∧ g.revoked = false ∧ DateTime.ofSeconds 1200 < g.notAfter ∧
        g.secretName = "deploy-key") := by
    decide +kernel
  obtain ⟨⟨e, he, id, hdec⟩, hrows⟩ := incarnation_of_reachable hw g hg hlive.1 hlive.2.1 hlive.2.2.1
  refine ⟨_, hw, hids.1, hids.2, e, he, id, by rwa [← hid], ?_⟩
  rw [← hlive.2.2.2]
  exact hrows e he id hdec

end Keychute.Db
