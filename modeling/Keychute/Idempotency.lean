import Keychute.Api.Create

/-!
# Creating a request is idempotent

* `Store.Extends` : requests, grants and audit rows stay, in every later state;
* `Recorded` : every committed insert has its row, and every `request-created` row belongs to one request and is its
  only one;
* `CreateCall.Sound` : what is known of a call between its lookup and its answer;
* `idempotent_creation` : for a client and a key there is one request, one grant and one `request-created` row, ever;
  answers name it; a different payload changes nothing.
-/

namespace Keychute.Db
open Keychute.Lib

/-! ## What stays -/

namespace AccessRequestRow.Resolves
variable {r r' r'' : AccessRequestRow}

theorem refl (r : AccessRequestRow) : r.Resolves r := ⟨rfl, rfl, ⟨rfl, rfl⟩, rfl, rfl, Or.inl rfl, Or.inl rfl⟩

theorem trans (h : r.Resolves r') (h' : r'.Resolves r'') : r.Resolves r'' where
  id := h'.id.trans h.id
  clientName := h'.clientName.trans h.clientName
  idem := ⟨h'.idem.1.trans h.idem.1, h'.idem.2.trans h.idem.2⟩
  idemMac := h'.idemMac.trans h.idemMac
  expiresAt := h'.expiresAt.trans h.expiresAt
  state := by
    rcases h'.state with heq | hne
    · rw [heq]
      exact h.state
    · exact Or.inr hne
  kek := by
    rcases h'.kek with heq | hnone
    · rw [heq]
      exact h.kek
    · exact Or.inr hnone

end AccessRequestRow.Resolves

/-- The rows of `s` are still there in `s'`. -/
structure Store.Extends (s s' : Store) : Prop where
  requests : ∀ r ∈ s.requests.rows, ∃ r' ∈ s'.requests.rows, r.Resolves r'
  grants : ∀ g ∈ s.grants.rows, ∃ g' ∈ s'.grants.rows, g.Evolves g'
  audit : s.audit <+: s'.audit

namespace Store.Extends
variable {s s' s'' : Store}

theorem refl (s : Store) : s.Extends s :=
  ⟨fun r hr => ⟨r, hr, .refl r⟩, fun g hg => ⟨g, hg, .refl g⟩, List.prefix_refl _⟩

theorem trans (h : s.Extends s') (h' : s'.Extends s'') : s.Extends s'' where
  requests r hr := by
    obtain ⟨r', hr', hres⟩ := h.requests r hr
    obtain ⟨r'', hr'', hres'⟩ := h'.requests r' hr'
    exact ⟨r'', hr'', hres.trans hres'⟩
  grants g hg := by
    obtain ⟨g', hg', hev⟩ := h.grants g hg
    obtain ⟨g'', hg'', hev'⟩ := h'.grants g' hg'
    exact ⟨g'', hg'', hev.trans hev'⟩
  audit := h.audit.trans h'.audit

/-- A change of other tables. -/
theorem of_eq (hr : s'.requests = s.requests) (hg : s'.grants = s.grants) (ha : s'.audit = s.audit) : s.Extends s' where
  requests r hmem := ⟨r, by rwa [hr], .refl r⟩
  grants g hmem := ⟨g, by rwa [hg], .refl g⟩
  audit := by rw [ha]

end Store.Extends

def Extending (_ : Held LockKey) (f : Store → Store) : Prop := ∀ s : Store, s.Extends (f s)

theorem writeKind_extending : WriteKind Extending where
  id _ s := .refl s
  comp {_ f _} hf hg s := (hf s).trans (hg (f s))
  mono _ hf := hf

theorem StoreWrite.extending {A : Held LockKey → Store → Prop} {op : StoreOp} {now : DateTime} {h : Held LockKey}
    {f : Store → Store} (hf : StoreWrite A op now h f) : Extending h f := by
  intro s
  cases hf with
  | audit rows hat hdep hask =>
      exact ⟨fun r hr => ⟨r, hr, .refl r⟩, fun g hg => ⟨g, hg, .refl g⟩, List.prefix_append _ _⟩
  | insertRequest id req pendingCap resolution context grantId c hop hkek hread hpend hlock =>
      exact ⟨fun r hr => ⟨r, Table.mem_insert_of_mem hr, .refl r⟩, fun g hg => ⟨g, hg, .refl g⟩, List.prefix_refl _⟩
  | updateRequests p keys f hf hres hlock =>
      refine ⟨fun r hr => ?_, fun g hg => ⟨g, hg, .refl g⟩, List.prefix_refl _⟩
      refine ⟨_, Table.mem_update_of_mem hf hr, ?_⟩
      split
      · exact hres r
      · exact .refl r
  | insertGrant row hm hlock =>
      exact ⟨fun r hr => ⟨r, hr, .refl r⟩, fun g hg => ⟨g, Table.mem_insert_of_mem hg, .refl g⟩, List.prefix_refl _⟩
  | updateGrants p keys f hf hev =>
      refine ⟨fun r hr => ⟨r, hr, .refl r⟩, fun g hg => ?_, List.prefix_refl _⟩
      refine ⟨_, Table.mem_update_of_mem hf hg, ?_⟩
      split
      · exact hev g
      · exact .refl g
  | _ => exact .of_eq rfl rfl rfl

/-- Rows stay along every step of transactions in flight. -/
theorem extends_of_step {window : Int} {s₀ : Store} {c₀ : DateTime} {w w' : StoreWorld}
    (hw : World.Reachable (StoreOp.txn window) s₀ c₀ (fun op => op.attempts = true) w)
    (hs : World.Step (StoreOp.txn window) w w') : w.store.Extends w'.store := by
  have hbody : ∀ (op : StoreOp) now, op.attempts = true → True → (op.txn window now).Writes Extending [] :=
    fun op now hop _ => txn_within hop fun h f hf => hf.extending
  have hthreads := hw.forall_threads (Txn.threadInv_writes (fun _ => True) writeKind_extending hbody)
  rcases hs.store_cases with heq | ⟨th, hth, heq⟩
  · rw [heq]
    exact .refl _
  · rw [heq]
    exact (hthreads th hth trivial).2 w.store

/-! ## What is recorded of a creation -/

/-- The request of this client and key, with this MAC and id. -/
def Store.Holds (s : Store) (client key : String) (mac : Blob) (id : Uuid) : Prop :=
  ∃ r ∈ s.requests.rows, r.idemClient = client ∧ r.idemKey = key ∧ r.idemMac = mac ∧ r.id = id

theorem Store.Extends.holds {s s' : Store} (h : s.Extends s') {client key : String} {mac : Blob} {id : Uuid}
    (hs : s.Holds client key mac id) : s'.Holds client key mac id := by
  obtain ⟨r, hr, hclient, hkey, hmac, hid⟩ := hs
  obtain ⟨r', hr', hres⟩ := h.requests r hr
  exact ⟨r', hr', hres.idem.1.trans hclient, hres.idem.2.trans hkey, hres.idemMac.trans hmac, hres.id.trans hid⟩

/-- What a call inserts: the id of the request and its content. -/
def StoreOp.inserts : StoreOp → Option (Uuid × NewAccessRequest)
  | .insertAccessRequestWithId id req _ _ _ _ => some (id, req)
  | _ => none

structure Recorded (s : Store) (log : List (StoreOp × Reply)) : Prop where
  inserted : ∀ e ∈ log, ∀ id req, e.1.inserts = some (id, req) → s.Holds req.idemClient req.idemKey req.idemMac id
  known : ∀ a ∈ s.audit, a.kind = .requestCreated → ∃ r ∈ s.requests.rows, a.requestId = some r.id
  once : ∀ id, s.audit.countP (isCreatedRow id) ≤ 1

/-- What a commit does to the requests: those there are stay, and a new one comes with its key locks. -/
structure AddsRequests (h : Held LockKey) (s s' : Store) : Prop where
  stays : ∀ r ∈ s.requests.rows, ∃ r' ∈ s'.requests.rows, r.Resolves r'
  new : ∀ r' ∈ s'.requests.rows, (∃ r ∈ s.requests.rows, r.Resolves r') ∨ Rel.Locked h (requestRel.keyLocks r')

/-- The protocol of creations. -/
def creations : Protocol Store LockKey DateTime StoreOp Reply where
  Inv s _ log := Recorded s log
  Guarantee := AddsRequests
  inv_tick _ h := h

/-- No request with a key of this row can appear while its key locks are held. -/
theorem stable_fresh_request {row : AccessRequestRow} {h : Held LockKey}
    (hl : Rel.Locked h (requestRel.keyLocks row)) : creations.Stable h fun s => s.requests.Fresh row := by
  intro h' s s' hc hg hfresh r' hr'
  by_contra hclash
  rw [Bool.not_eq_false] at hclash
  rcases hg.new r' hr' with ⟨r, hr, hres⟩ | hl'
  · have := hfresh r hr
    rw [Keys.pair_clashes.2 (by rw [← hres.id, ← hres.idem.1, ← hres.idem.2]; exact Keys.pair_clashes.1 hclash)] at this
    cases this
  · rcases Keys.pair_clashes.1 hclash with hid | hidem
    · have := hl' (.requestId r'.id) (by simp)
      rw [hid] at this
      exact hc.clash (hl (.requestId row.id) (by simp)) this rfl
    · obtain ⟨hclient, hkey⟩ := Prod.mk.injEq .. ▸ hidem
      have := hl' (.requestIdem r'.idemClient r'.idemKey) (by simp)
      rw [hclient, hkey] at this
      exact hc.clash (hl (.requestIdem row.idemClient row.idemKey) (by simp)) this rfl

/-- No request appears, and no `request-created` row. -/
structure NoNewRequest (s s' : Store) : Prop where
  stays : ∀ r ∈ s.requests.rows, ∃ r' ∈ s'.requests.rows, r.Resolves r'
  old : ∀ r' ∈ s'.requests.rows, ∃ r ∈ s.requests.rows, r.Resolves r'
  audit : ∃ rows, s'.audit = s.audit ++ rows ∧ ∀ a ∈ rows, a.kind ≠ .requestCreated

namespace NoNewRequest
variable {s s' s'' : Store} {log : List (StoreOp × Reply)}

theorem of_eq (hr : s'.requests = s.requests) (ha : s'.audit = s.audit) : NoNewRequest s s' where
  stays r hmem := ⟨r, by rwa [hr], .refl r⟩
  old r hmem := ⟨r, by rwa [hr] at hmem, .refl r⟩
  audit := ⟨[], by rw [ha, List.append_nil], by simp⟩

theorem trans (h : NoNewRequest s s') (h' : NoNewRequest s' s'') : NoNewRequest s s'' where
  stays r hr := by
    obtain ⟨r', hr', hres⟩ := h.stays r hr
    obtain ⟨r'', hr'', hres'⟩ := h'.stays r' hr'
    exact ⟨r'', hr'', hres.trans hres'⟩
  old r'' hr'' := by
    obtain ⟨r', hr', hres'⟩ := h'.old r'' hr''
    obtain ⟨r, hr, hres⟩ := h.old r' hr'
    exact ⟨r, hr, hres.trans hres'⟩
  audit := by
    obtain ⟨rows, ha, hrows⟩ := h.audit
    obtain ⟨rows', ha', hrows'⟩ := h'.audit
    refine ⟨rows ++ rows', by rw [ha', ha, List.append_assoc], ?_⟩
    intro a ha
    rcases List.mem_append.1 ha with ha | ha
    · exact hrows a ha
    · exact hrows' a ha

theorem recorded (h : NoNewRequest s s') (hs : Recorded s log) : Recorded s' log := by
  obtain ⟨rows, haudit, hrows⟩ := h.audit
  refine ⟨?_, ?_, ?_⟩
  · intro e he id req hins
    obtain ⟨r, hr, hclient, hkey, hmac, hid⟩ := hs.inserted e he id req hins
    obtain ⟨r', hr', hres⟩ := h.stays r hr
    exact ⟨r', hr', hres.idem.1.trans hclient, hres.idem.2.trans hkey, hres.idemMac.trans hmac, hres.id.trans hid⟩
  · intro a ha hkind
    rw [haudit] at ha
    rcases List.mem_append.1 ha with ha | ha
    · obtain ⟨r, hr, hid⟩ := hs.known a ha hkind
      obtain ⟨r', hr', hres⟩ := h.stays r hr
      exact ⟨r', hr', by rw [hres.id, hid]⟩
    · exact absurd hkind (hrows a ha)
  · intro id
    have hnone : rows.countP (isCreatedRow id) = 0 := by
      rw [List.countP_eq_zero]
      intro a ha
      simp [isCreatedRow, hrows a ha]
    rw [haudit, List.countP_append, hnone]
    exact hs.once id

end NoNewRequest

def SparesRequests (_ : Held LockKey) (f : Store → Store) : Prop := ∀ s : Store, NoNewRequest s (f s)

theorem writeKind_sparesRequests : WriteKind SparesRequests where
  id _ _ := .of_eq rfl rfl
  comp {_ f _} hf hg s := (hf s).trans (hg (f s))
  mono _ hf := hf

theorem sparesRequests_audit {rows : List AuditRow} (hrows : ∀ a ∈ rows, a.kind ≠ .requestCreated) {h : Held LockKey} :
    SparesRequests h fun s => { s with audit := s.audit ++ rows } :=
  fun _ => ⟨fun r hr => ⟨r, hr, .refl r⟩, fun r hr => ⟨r, hr, .refl r⟩, rows, rfl, hrows⟩

theorem sparesRequests_update {p : AccessRequestRow → Bool} {keys : List LockKey}
    {f : AccessRequestRow → AccessRequestRow} {hf : ∀ r, requestKeys.key (f r) = requestKeys.key r}
    (hres : ∀ r, AccessRequestRow.Resolves r (f r)) {h : Held LockKey} :
    SparesRequests h (requestRel.updating p keys f hf) := by
  have hstep : ∀ r, AccessRequestRow.Resolves r (if requestRel.hit p keys r then f r else r) := by
    intro r
    split
    · exact hres r
    · exact .refl r
  refine fun s => ⟨fun r hr => ⟨_, Table.mem_update_of_mem hf hr, hstep r⟩, fun r' hr' => ?_, [], by simp; rfl, by simp⟩
  obtain ⟨r, hr, rfl⟩ := Table.exists_of_mem_update hf hr'
  exact ⟨r, hr, hstep r⟩

theorem StoreWrite.sparesRequests {A : Held LockKey → Store → Prop} {op : StoreOp} {now : DateTime} {h : Held LockKey}
    {f : Store → Store} (hf : StoreWrite A op now h f) (hop : op.asks = false) : SparesRequests h f := by
  cases hf with
  | audit rows hat hdep hask =>
      refine sparesRequests_audit fun a ha hkind => ?_
      rw [hask a ha hkind] at hop
      cases hop
  | insertRequest id req pendingCap resolution context grantId c hop' hkek hread hpend hlock =>
      rw [hop'] at hop
      cases hop
  | updateRequests p keys f hf hres hlock => exact sparesRequests_update hres
  | _ => exact fun s => .of_eq rfl rfl

/-! ### The transactions -/

theorem Recorded.append {s : Store} {log : List (StoreOp × Reply)} (hs : Recorded s log) {op : StoreOp} {r : Reply}
    (hop : ∀ id req, op.inserts = some (id, req) → s.Holds req.idemClient req.idemKey req.idemMac id) :
    Recorded s (log ++ [(op, r)]) where
  inserted e he := by
    rcases List.mem_append.1 he with he | he
    · exact hs.inserted e he
    · rw [List.mem_singleton.1 he]
      exact hop
  known := hs.known
  once := hs.once

/-- A call that creates no request. -/
theorem safe_of_not_asks {window : Int} {op : StoreOp} {now : DateTime} (hatt : op.attempts = true)
    (hop : op.asks = false) : creations.Safe op now (op.txn window now) := by
  refine Txn.wp_within writeKind_sparesRequests (txn_within hatt fun h f hf => hf.sparesRequests hop)
    (Protocol.stable_true _ _) fun r h e _ he => ?_
  intro s c log _ hinv _
  refine ⟨((he s).recorded hinv).append ?_, (he s).stays, fun r' hr' => Or.inl ((he s).old r' hr')⟩
  intro id req hins
  cases op with
  | insertAccessRequestWithId id' req' pendingCap resolution context grantId => cases hop
  | _ => cases hins

/-- Writes of nothing. -/
def Silent (_ : Held LockKey) (f : Store → Store) : Prop := ∀ s : Store, f s = s

theorem writeKind_silent : WriteKind Silent where
  id _ _ := rfl
  comp {_ f _} hf hg s := (hg (f s)).trans (hf s)
  mono _ hf := hf

theorem silent_sealContext {context : Option SealFn} {h : Held LockKey} : (sealContext context).Writes Silent h := by
  unfold sealContext
  split
  · trivial
  · exact Txn.within_lock_bind (Txn.within_bind within_sealNow fun _ _ _ => trivial)

theorem writes_applyResolution {row : AccessRequestRow} {req : NewAccessRequest} {grantId : Uuid} {now : DateTime}
    {resolution : InitialResolution} {h : Held LockKey} :
    (applyResolution row req grantId now resolution).Writes SparesRequests h := by
  cases resolution with
  | pending => trivial
  | denied reason resolvedBy =>
      refine Txn.within_bind (Rel.within_updateWhere fun h' keys _ _ =>
        sparesRequests_update (AccessRequestRow.resolves_deny reason resolvedBy)) fun updated h₁ _ => ?_
      split
      · trivial
      · exact Txn.within_bind (within_insertAudit (sparesRequests_audit (by simp [deniedRow]))) fun _ _ _ => trivial
  | approved resolvedBy grant notifyOnly =>
      refine Txn.within_bind (Rel.within_updateWhere fun h' keys _ _ => sparesRequests_update ?_) fun updated h₁ _ => ?_
      · intro r
        exact ⟨rfl, rfl, ⟨rfl, rfl⟩, rfl, rfl, Or.inr RequestState.noConfusion, Or.inl rfl⟩
      split
      · trivial
      · refine Txn.within_bind (Rel.within_insertOrFail fun h' _ _ s => .of_eq rfl rfl) fun _ h₂ _ => ?_
        exact Txn.within_bind (within_insertAudit (sparesRequests_audit (by simp [approvedRow]))) fun _ _ _ => trivial

/-- A row that is new, with its `request-created` row. -/
theorem Recorded.insert {s : Store} {log : List (StoreOp × Reply)} (hs : Recorded s log) {id : Uuid}
    {req : NewAccessRequest} {c : Option Sealed} {now : DateTime} (hfresh : s.requests.Fresh (req.row id c now)) :
    Recorded { s with requests := s.requests.insert (req.row id c now), audit := s.audit ++ [createdRow id req now] }
      log := by
  have hmem : req.row id c now ∈ (s.requests.insert (req.row id c now)).rows := Table.mem_insert_self hfresh
  refine ⟨?_, ?_, ?_⟩
  · intro e he id' req' hins
    obtain ⟨r, hr, hholds⟩ := hs.inserted e he id' req' hins
    exact ⟨r, Table.mem_insert_of_mem hr, hholds⟩
  · intro a ha hkind
    rcases List.mem_append.1 ha with ha | ha
    · obtain ⟨r, hr, hid⟩ := hs.known a ha hkind
      exact ⟨r, Table.mem_insert_of_mem hr, hid⟩
    · rw [List.mem_singleton.1 ha]
      exact ⟨_, hmem, rfl⟩
  · intro id'
    rw [List.countP_append, List.countP_singleton]
    by_cases hid : isCreatedRow id' (createdRow id req now) = true
    · -- a row of this id would be known, and the id is fresh
      have hzero : s.audit.countP (isCreatedRow id') = 0 := by
        rw [List.countP_eq_zero]
        intro a ha hcreated
        simp only [isCreatedRow, Bool.and_eq_true, beq_iff_eq, createdRow, Option.some.injEq] at hcreated hid
        obtain ⟨r, hr, hreq⟩ := hs.known a ha hcreated.1
        rw [hcreated.2, ← hid.2, Option.some.injEq] at hreq
        have hclash := hfresh r hr
        rw [Keys.pair_clashes.2 (Or.inl hreq.symm)] at hclash
        cases hclash
      rw [hzero, if_pos hid]
    · rw [if_neg hid]
      exact hs.once id'

/-- The write of an audit row. -/
def insertingAudit (row : AuditRow) (s : Store) : Store := { s with audit := s.audit ++ [row] }

theorem safe_insert {id grantId : Uuid} {req : NewAccessRequest} {pendingCap : Option Int}
    {resolution : InitialResolution} {context : Option SealFn} {now : DateTime} : creations.Safe
      (.insertAccessRequestWithId id req pendingCap resolution context grantId) now
      (insertAccessRequestWithId id req pendingCap resolution context grantId now) := by
  have htrue : ∀ h', creations.Stable h' fun _ => True := fun h' => Protocol.stable_true _ _
  have hkind := writeKind_silent
  refine Txn.wp_bind (Txn.wp_within hkind within_lockForResolution (htrue _) fun _ h₁ e₁ _ he₁ => ?_)
  refine Txn.wp_bind (Txn.wp_within hkind silent_sealContext (htrue _) fun c h₂ e₂ _ he₂ => ?_)
  refine Txn.wp_bind (Txn.wp_within hkind (within_onlyIf fun _ => trivial) (htrue _) fun _ h₃ e₃ _ he₃ => ?_)
  let row := req.row id c now
  have he : ∀ s, (e₃ ∘ e₂ ∘ e₁) s = s := fun s => (he₃ _).trans ((he₂ _).trans (he₁ s))
  refine Txn.wp_bind (Rel.wp_insertOnConflict (htrue _) (fun s => s.requests.Fresh row) (fun s _ hs => ?_)
    (fun h' _ hl => stable_fresh_request hl) (fun h' _ => ?_) fun h₄ _ hl => ?_)
  · rw [← he s]
    exact hs
  · refine Txn.wp_bind (Txn.wp_get (htrue _) fun v => ?_)
    rw [if_neg Bool.false_ne_true]
    split <;> trivial
  · have hfresh : ∀ h', h₄ ⊆ h' → creations.Stable h' fun s => s.requests.Fresh row :=
      fun h' hh => (stable_fresh_request hl).mono hh
    refine Txn.wp_bind (Txn.wp_get (hfresh _ (List.Subset.refl _)) fun v => ?_)
    rw [if_pos rfl]
    split
    · trivial
    · refine Txn.wp_bind (Txn.wp_bind (Txn.wp_within writeKind_sparesRequests writes_applyResolution
        (hfresh _ (List.Subset.refl _)) fun r h₅ e₅ hh₅ he₅ => ?_))
      intro s c' log _ hinv hs
      let s₁ : Store := { s with requests := s.requests.insert row, audit := s.audit ++ [createdRow id req now] }
      have hs₁ : (insertingAudit (createdRow id req now) ∘ requestRel.inserting row ∘ e₃ ∘ e₂ ∘ e₁) s = s₁ := by
        rw [Function.comp_apply, Function.comp_apply, he s]
        rfl
      have hnew := he₅ s₁
      change Recorded (e₅ ((insertingAudit (createdRow id req now) ∘ requestRel.inserting row ∘ e₃ ∘ e₂ ∘ e₁) s)) _ ∧
        AddsRequests h₅ s (e₅ ((insertingAudit (createdRow id req now) ∘ requestRel.inserting row ∘ e₃ ∘ e₂ ∘ e₁) s))
      rw [hs₁]
      refine ⟨(hnew.recorded (hinv.insert hs)).append ?_, ?_, ?_⟩
      · rintro id' req' hins
        cases hins
        obtain ⟨r', hr', hres⟩ := hnew.stays row (Table.mem_insert_self hs)
        exact ⟨r', hr', hres.idem.1, hres.idem.2, hres.idemMac, hres.id⟩
      · exact fun r hr => hnew.stays r (Table.mem_insert_of_mem hr)
      · intro r' hr'
        obtain ⟨r, hr, hres⟩ := hnew.old r' hr'
        rcases Table.mem_of_mem_insert hr with hr | rfl
        · exact Or.inl ⟨r, hr, hres⟩
        · refine Or.inr fun key hkey => hh₅ (hl key ?_)
          simpa [hres.id, hres.idem.1, hres.idem.2] using hkey

theorem safe_creations {window : Int} {op : StoreOp} (hop : op.attempts = true) (now : DateTime) :
    creations.Safe op now (op.txn window now) := by
  cases op with
  | insertAccessRequestWithId id req pendingCap resolution context grantId => exact safe_insert
  | _ => exact safe_of_not_asks hop rfl

theorem recorded_of_reachable {window : Int} {c₀ : DateTime} {w : StoreWorld}
    (hw : w.Reachable window c₀ fun op => op.attempts = true) : Recorded w.store w.log :=
  Protocol.inv_of_reachable (P := creations) ⟨by simp, by simp [Store.empty], by simp [Store.empty]⟩
    (fun _ hop now => safe_creations hop now) hw

theorem returns_applyResolution {row : AccessRequestRow} {req : NewAccessRequest} {grantId : Uuid} {now : DateTime}
    {resolution : InitialResolution} :
    (applyResolution row req grantId now resolution).Returns fun p => p.1.id = row.id := by
  cases resolution with
  | pending => rfl
  | denied reason resolvedBy =>
      refine Txn.returns_bind_of (requestRel.returns_updateWhere _ _ _) fun updated hupd => ?_
      split
      · trivial
      · rename_i row' hhead
        obtain ⟨r, hr, rfl⟩ := hupd row' (List.mem_of_mem_head? hhead)
        exact Txn.returns_bind fun _ => beq_iff_eq.1 hr
  | approved resolvedBy grant notifyOnly =>
      refine Txn.returns_bind_of (requestRel.returns_updateWhere _ _ _) fun updated hupd => ?_
      split
      · trivial
      · rename_i row' hhead
        obtain ⟨r, hr, rfl⟩ := hupd row' (List.mem_of_mem_head? hhead)
        rw [Bool.and_eq_true, beq_iff_eq] at hr
        exact Txn.returns_bind fun _ => Txn.returns_bind fun _ => hr.1

/-- A created request is returned under the id it was inserted with. -/
theorem returns_insert {id grantId : Uuid} {req : NewAccessRequest} {pendingCap : Option Int}
    {resolution : InitialResolution} {context : Option SealFn} {now : DateTime} :
    (insertAccessRequestWithId id req pendingCap resolution context grantId now).Returns
      fun r => ∃ row gid, r = .insert (.created row gid) ∧ row.id = id := by
  refine Txn.returns_bind fun _ => Txn.returns_bind fun c => Txn.returns_bind fun _ => Txn.returns_bind fun ins =>
    Txn.returns_bind fun s => ?_
  split
  · split
    · trivial
    · refine Txn.returns_bind fun _ => Txn.returns_bind_of returns_applyResolution fun p hp => ?_
      exact ⟨p.1, p.2, rfl, hp⟩
  · split <;> trivial

/-- The reply that a call commits with. -/
def StoreOp.Answers (op : StoreOp) (r : Reply) : Prop :=
  ∀ id req, op.inserts = some (id, req) → ∃ row gid, r = .insert (.created row gid) ∧ row.id = id

theorem returns_answers {window : Int} {op : StoreOp} {now : DateTime} : (op.txn window now).Returns op.Answers := by
  cases op with
  | insertAccessRequestWithId id req pendingCap resolution context grantId =>
      refine returns_insert.mono ?_
      rintro r hr id' req' hins
      cases hins
      exact hr
  | _ =>
      refine Txn.returns_of ?_ _
      rintro r id req hins
      cases hins

end Keychute.Db

namespace Keychute.Api
open Keychute.Lib
open Keychute.Db (Store StoreOp StoreWorld Reply AccessRequestRow)

/-! ## The calls -/

theorem getRequestByIdem_eq_some {s : Store} {client key : String} {r : AccessRequestRow}
    (h : getRequestByIdem s client key = some r) : r ∈ s.requests.rows ∧ r.idemClient = client ∧ r.idemKey = key := by
  have hp := List.find?_some h
  rw [Bool.and_eq_true, beq_iff_eq, beq_iff_eq] at hp
  exact ⟨List.mem_of_find?_eq_some h, hp⟩

/-- The store has the request of this call, under this id. -/
def CreateCall.HeldAs (env : CreateEnv) (s : Store) (c : CreateCall) (id : Uuid) : Prop :=
  s.Holds c.client.name c.req.idempotencyKey (c.mac env) id

/-- What is known in each phase. -/
def CreatePhase.Sound (env : CreateEnv) (s : Store) (c : CreateCall) : CreatePhase → Prop
  | .lookup => c.found = none
  | .evaluate => c.found = none
  | .insert _ => c.found = none
  | .conflict => c.found = none
  | .status row => c.HeldAs env s row.id ∧ ∀ r, c.found = some r → row = r
  | .done (.ok st) => c.HeldAs env s st.requestId ∧ ∀ r, c.found = some r → st.requestId = r.id
  | .done (.error _) => ∀ r, c.found = some r → r.idemMac ≠ c.mac env

structure CreateCall.Sound (env : CreateEnv) (s : Store) (c : CreateCall) : Prop where
  phase : c.phase.Sound env s c
  op : ∀ op, c.op = some op → ∃ id req, op.inserts = some (id, req) ∧ req.idemClient = c.client.name ∧
    req.idemKey = c.req.idempotencyKey ∧ req.idemMac = c.mac env

section Sound
variable {env : CreateEnv} {s s' : Store} {c : CreateCall}

theorem CreateCall.Sound.mono (h : c.Sound env s) (hs : s.Extends s') : c.Sound env s' := by
  refine ⟨?_, h.op⟩
  have hp := h.phase
  cases hc : c.phase with
  | status row =>
      rw [hc] at hp
      exact ⟨hs.holds hp.1, hp.2⟩
  | done answer =>
      rw [hc] at hp
      cases answer with
      | error e => exact hp
      | ok st => exact ⟨hs.holds hp.1, hp.2⟩
  | _ =>
      rw [hc] at hp
      exact hp

/-- A row of the key decides between the two answers. -/
theorem sound_settle {row : AccessRequestRow} (hrow : row ∈ s.requests.rows ∧ row.idemClient = c.client.name ∧
    row.idemKey = c.req.idempotencyKey) (hfound : ∀ r, c.found = some r → row = r) :
    (c.settle env row).Sound env s c := by
  unfold CreateCall.settle
  split
  · rename_i hmac
    exact ⟨⟨row, hrow.1, hrow.2.1, hrow.2.2, hmac, rfl⟩, hfound⟩
  · rename_i hmac
    intro r hr
    rw [← hfound r hr]
    exact hmac

theorem sound_lookup (h : c.Sound env s) (hc : c.phase = .lookup) : (c.lookup env s).Sound env s := by
  have hnone : c.found = none := by
    have hp := h.phase
    rw [hc] at hp
    exact hp
  unfold CreateCall.lookup
  split
  · rename_i row hrow
    refine ⟨sound_settle (c := { c with found := some row, phase := _ }) (getRequestByIdem_eq_some hrow) ?_, h.op⟩
    intro r hr
    exact Option.some.inj hr
  · exact ⟨hnone, h.op⟩

theorem sound_conflict (h : c.Sound env s) (hc : c.phase = .conflict) : (c.conflict env s).Sound env s := by
  have hnone : c.found = none := by
    have hp := h.phase
    rw [hc] at hp
    exact hp
  unfold CreateCall.conflict
  split
  · rename_i row hrow
    refine ⟨sound_settle (c := { c with phase := _ }) (getRequestByIdem_eq_some hrow) ?_, h.op⟩
    intro r hr
    rw [hnone] at hr
    cases hr
  · refine ⟨?_, h.op⟩
    intro r hr
    rw [hnone] at hr
    cases hr

/-- A call that found nothing may answer with any failure. -/
theorem sound_error (h : c.Sound env s) (hnone : c.found = none) (e : ApiFailure) :
    CreateCall.Sound env s { c with phase := .done (.error e) } := by
  refine ⟨?_, h.op⟩
  intro r hr
  rw [hnone] at hr
  cases hr

theorem sound_rolledBack (h : c.Sound env s) (hnone : c.found = none) (r : Except Db.DbError Reply) :
    (c.rolledBack r).Sound env s := by
  unfold CreateCall.rolledBack
  split
  · exact ⟨hnone, h.op⟩
  · exact sound_error h hnone _
  · exact sound_error h hnone _

/-- An answer to a creation names the row that was created. -/
theorem requestId_of_answerCreated {plan : CreatePlan} {row : AccessRequestRow} {gid : Option Uuid}
    {st : AccessRequestStatus} (h : answerCreated plan row gid = .ok st) : st.requestId = row.id := by
  unfold answerCreated at h
  split at h
  · cases h
  · split at h
    · cases h
    · cases h
      rfl
  · split at h
    · cases h
    · cases h
      rfl
  · cases h
    rfl

theorem sound_committed (h : c.Sound env s) (hnone : c.found = none) {plan : CreatePlan} {row : AccessRequestRow}
    {gid : Option Uuid} (hrow : c.HeldAs env s row.id) :
    (c.committed plan (.insert (.created row gid))).Sound env s := by
  change CreateCall.Sound env s { c with phase := .done (answerCreated plan row gid) }
  refine ⟨?_, h.op⟩
  change CreatePhase.Sound env s _ (.done (answerCreated plan row gid))
  cases hans : answerCreated plan row gid with
  | error e =>
      intro r hr
      rw [hnone] at hr
      cases hr
  | ok st =>
      refine ⟨?_, ?_⟩
      · rw [requestId_of_answerCreated hans]
        exact hrow
      · intro r hr
        rw [hnone] at hr
        cases hr

end Sound

/-! ## Whole runs -/

section Runs
variable {env : CreateEnv} {c₀ : DateTime} {w w' : Creates}

/-- What holds between the steps. -/
structure CreatesOk (env : CreateEnv) (c₀ : DateTime) (w : Creates) : Prop where
  world : w.world.Reachable env.limits.replayWindowSeconds c₀ fun op => op.attempts = true
  calls : ∀ c ∈ w.calls, c.Sound env w.world.store

theorem forall_call_middle {pre post : List CreateCall} {c : CreateCall} {p : CreateCall → Prop} :
    (∀ c' ∈ pre ++ c :: post, p c') ↔ p c ∧ ∀ c' ∈ pre ++ post, p c' := by
  simp only [List.mem_append, List.mem_cons]
  constructor
  · intro h
    exact ⟨h c (Or.inr (Or.inl rfl)), fun c' hc' => h c' (hc'.imp_right Or.inr)⟩
  · rintro ⟨hc, h⟩ c' (hc' | rfl | hc')
    · exact h c' (Or.inl hc')
    · exact hc
    · exact h c' (Or.inr hc')

/-- A step of the store beside the calls. -/
theorem CreatesOk.world_step {wo wo' : StoreWorld} {calls : List CreateCall} (h : CreatesOk env c₀ ⟨wo, calls⟩)
    (hs : World.Step (StoreOp.txn env.limits.replayWindowSeconds) wo wo')
    (hops : ∀ th ∈ wo'.threads, th.op.attempts = true) : CreatesOk env c₀ ⟨wo', calls⟩ :=
  ⟨.step h.world hs hops, fun c hc => (h.calls c hc).mono (Db.extends_of_step h.world hs)⟩

/-- A call goes on, and the others stay as they are. -/
theorem CreatesOk.call {wo : StoreWorld} {pre post : List CreateCall} {c c' : CreateCall}
    (h : CreatesOk env c₀ ⟨wo, pre ++ c :: post⟩) (hc' : c.Sound env wo.store → c'.Sound env wo.store) :
    CreatesOk env c₀ ⟨wo, pre ++ c' :: post⟩ := by
  obtain ⟨hc, hrest⟩ := forall_call_middle.1 h.calls
  exact ⟨h.world, forall_call_middle.2 ⟨hc' hc, hrest⟩⟩

theorem CreatesOk.step (h : CreatesOk env c₀ w) (hs : Creates.Step env w w') : CreatesOk env c₀ w' := by
  cases hs with
  | store wo wo' calls hs hops => exact h.world_step hs hops
  | receive wo calls client req hkey =>
      refine ⟨h.world, ?_⟩
      intro c hc
      rcases List.mem_cons.1 hc with rfl | hc
      · exact ⟨rfl, fun op hop => nomatch hop⟩
      · exact h.calls c hc
  | lookup wo pre post c hc => exact h.call fun hsound => sound_lookup hsound hc
  | refuse wo pre post c secret secretTags policies now e hc hplan =>
      exact h.call fun hsound => sound_error hsound (by simpa [hc, CreatePhase.Sound] using hsound.phase) e
  | evaluate wo pre post c secret secretTags policies now plan id grantId sealWith op hc hplan hop =>
      have hstart := h.world_step (.start wo op) ?_
      · refine hstart.call fun hsound => ⟨?_, ?_⟩
        · simpa [hc, CreatePhase.Sound] using hsound.phase
        · intro op' hop'
          obtain ⟨-, hclient, hkey, hmac, -⟩ := planCreate_ok hplan
          obtain rfl := Option.some.inj hop'
          exact ⟨id, plan.newRow, by rw [hop]; rfl, hclient, hkey, hmac⟩
      · intro th hth
        rcases List.mem_cons.1 hth with rfl | hth
        · rw [hop]
          rfl
        · exact h.world.ops_ok th hth
  | commit wo pre post c plan op ths ths' t r d hl hc hop hth =>
      have hops := h.world.ops_ok
      rw [hth, forall_mem_middle] at hops
      have hcommit := h.world_step (.commit wo ths ths' op t r d hl hth) hops.2
      refine hcommit.call fun hsound => ?_
      obtain ⟨id, req, hins, hclient, hkey, hmac⟩ := hsound.op op hop
      -- the reply is the one the transaction ended with, and the log now has it
      have hret := h.world.forall_threads (Txn.threadInv_returns fun _ _ _ => Db.returns_answers)
      rw [hth, forall_mem_middle] at hret
      obtain ⟨row, gid, rfl, rfl⟩ := hret.1 id req hins
      have hheld := (Db.recorded_of_reachable hcommit.world).inserted
        (op, .insert (.created row gid)) (by simp) row.id req hins
      rw [hclient, hkey, hmac] at hheld
      exact sound_committed hsound (by simpa [hc, CreatePhase.Sound] using hsound.phase) hheld
  | rollback wo pre post c plan op ths ths' t r d hl hc hop hth =>
      have hops := h.world.ops_ok
      rw [hth, forall_mem_middle] at hops
      refine (h.world_step (.rollback wo ths ths' _ hth) hops.2).call fun hsound => ?_
      exact sound_rolledBack hsound (by simpa [hc, CreatePhase.Sound] using hsound.phase) r
  | lost wo pre post c plan message hc =>
      exact h.call fun hsound => sound_error hsound (by simpa [hc, CreatePhase.Sound] using hsound.phase) _
  | conflict wo pre post c hc => exact h.call fun hsound => sound_conflict hsound hc
  | status wo pre post c row hc =>
      refine h.call fun hsound => ⟨?_, hsound.op⟩
      have hp := hsound.phase
      rw [hc] at hp
      exact ⟨hp.1, fun r hr => congrArg AccessRequestRow.id (hp.2 r hr)⟩

theorem CreatesOk.steps (h : CreatesOk env c₀ w) (hs : Creates.Steps env w w') : CreatesOk env c₀ w' := by
  induction hs with
  | refl => exact h
  | tail _ hstep ih => exact ih.step hstep

theorem createsOk_init (env : CreateEnv) (c₀ : DateTime) : CreatesOk env c₀ (Creates.init c₀) where
  world := .init
  calls := by simp [Creates.init]

theorem extends_of_createStep (h : CreatesOk env c₀ w) (hs : Creates.Step env w w') :
    w.world.store.Extends w'.world.store := by
  cases hs with
  | store wo wo' calls hs hops => exact Db.extends_of_step h.world hs
  | commit wo pre post c plan op ths ths' t r d hl hc hop hth =>
      exact Db.extends_of_step h.world (.commit wo ths ths' op t r d hl hth)
  | _ => exact .refl _

theorem extends_of_steps (h : CreatesOk env c₀ w) (hs : Creates.Steps env w w') :
    w.world.store.Extends w'.world.store := by
  induction hs with
  | refl => exact .refl _
  | tail hsteps hstep ih => exact ih.trans (extends_of_createStep (h.steps hsteps) hstep)

/-- The `request-created` rows of a client and a key. -/
def createdFor (s : Store) (client key : String) (a : Db.AuditRow) : Bool :=
  a.kind == .requestCreated &&
    s.requests.rows.any fun r => r.idemClient == client && r.idemKey == key && a.requestId == some r.id

/-- One request, one grant and one `request-created` row for a client and a key, at one moment and a later one. -/
structure CreatedOnce (s s' : Store) : Prop where
  request : ∀ r ∈ s.requests.rows, ∀ r' ∈ s'.requests.rows, r'.idemClient = r.idemClient → r'.idemKey = r.idemKey →
    r'.id = r.id
  grant : ∀ r ∈ s.requests.rows, ∀ r' ∈ s'.requests.rows, r'.idemClient = r.idemClient → r'.idemKey = r.idemKey →
    ∀ g ∈ s.grants.rows, ∀ g' ∈ s'.grants.rows, g.requestId = r.id → g'.requestId = r'.id → g'.id = g.id
  created : s.audit <+: s'.audit ∧ ∀ client key, s'.audit.countP (createdFor s' client key) ≤ 1
  known : ∀ a ∈ s'.audit, a.kind = .requestCreated → ∃ r ∈ s'.requests.rows, a.requestId = some r.id

/-- What the calls are answered. -/
structure Answered (env : CreateEnv) (w : Creates) : Prop where
  success : ∀ c ∈ w.calls, ∀ st, c.phase = .done (.ok st) → ∃ r ∈ w.world.store.requests.rows,
    r.idemClient = c.client.name ∧ r.idemKey = c.req.idempotencyKey ∧ r.idemMac = c.mac env ∧ st.requestId = r.id
  same : ∀ c ∈ w.calls, ∀ c' ∈ w.calls, c'.client.name = c.client.name →
    c'.req.idempotencyKey = c.req.idempotencyKey → ∀ st st', c.phase = .done (.ok st) → c'.phase = .done (.ok st') →
      st'.requestId = st.requestId
  /-- Another payload under the key: no success, and no commit of its insert. -/
  reuse : ∀ c ∈ w.calls, ∀ r ∈ w.world.store.requests.rows, r.idemClient = c.client.name →
    r.idemKey = c.req.idempotencyKey → r.idemMac ≠ c.mac env →
      (∀ st, c.phase ≠ .done (.ok st)) ∧ ∀ op, c.op = some op → ∀ reply, (op, reply) ∉ w.world.log
  /-- A lookup that runs when the row is there finds it. -/
  found : ∀ c : CreateCall, c.phase = .lookup → ∀ r ∈ w.world.store.requests.rows, r.idemClient = c.client.name →
    r.idemKey = c.req.idempotencyKey → r.idemMac = c.mac env →
      c.lookup env w.world.store = { c with found := some r, phase := .status r }
  /-- And the call then succeeds with it. -/
  retry : ∀ c ∈ w.calls, ∀ r, c.found = some r → r.idemMac = c.mac env →
    c.phase = .status r ∨ ∃ st, c.phase = .done (.ok st) ∧ st.requestId = r.id

theorem request_eq {s : Store} {r r' : AccessRequestRow} (hr : r ∈ s.requests.rows) (hr' : r' ∈ s.requests.rows)
    (hclient : r'.idemClient = r.idemClient) (hkey : r'.idemKey = r.idemKey) : r' = r :=
  Table.eq_of_clash hr' hr (Keys.pair_clashes.2 (Or.inr (by rw [hclient, hkey])))

theorem countP_createdFor {s : Store} {log : List (StoreOp × Reply)} (hs : Db.Recorded s log) (client key : String) :
    s.audit.countP (createdFor s client key) ≤ 1 := by
  by_cases hrow : ∃ r ∈ s.requests.rows, r.idemClient = client ∧ r.idemKey = key
  · obtain ⟨r, hr, rfl, rfl⟩ := hrow
    refine le_trans (List.countP_mono_left fun a _ ha => ?_) (hs.once r.id)
    simp only [createdFor, Bool.and_eq_true, List.any_eq_true, beq_iff_eq] at ha
    obtain ⟨hkind, r', hr', ⟨hclient, hkey⟩, hid⟩ := ha
    obtain rfl := request_eq hr hr' hclient hkey
    simp [Db.isCreatedRow, hkind, hid]
  · have hzero : s.audit.countP (createdFor s client key) = 0 := by
      rw [List.countP_eq_zero]
      intro a _ ha
      simp only [createdFor, Bool.and_eq_true, List.any_eq_true, beq_iff_eq] at ha
      obtain ⟨-, r, hr, hpair, -⟩ := ha
      exact hrow ⟨r, hr, hpair⟩
    rw [hzero]
    exact Nat.zero_le 1

theorem createdOnce_of_extends {s s' : Store} {log : List (StoreOp × Reply)} (hs : s.Extends s')
    (hrec : Db.Recorded s' log) : CreatedOnce s s' where
  request r hr r' hr' hclient hkey := by
    obtain ⟨r'', hr'', hres⟩ := hs.requests r hr
    rw [request_eq hr'' hr' (hclient.trans hres.idem.1.symm) (hkey.trans hres.idem.2.symm)]
    exact hres.id
  grant r hr r' hr' hclient hkey g hg g' hg' hreq hreq' := by
    obtain ⟨r'', hr'', hres⟩ := hs.requests r hr
    obtain ⟨g'', hg'', hev⟩ := hs.grants g hg
    have hid : r' = r'' := request_eq hr'' hr' (hclient.trans hres.idem.1.symm) (hkey.trans hres.idem.2.symm)
    have hsame : g' = g'' := Table.eq_of_clash hg' hg'' <| Keys.pair_clashes.2 <| Or.inr <| by
      rw [hreq', hid, hres.id, hev.requestId, hreq]
    rw [hsame, hev.id]
  created := ⟨hs.audit, countP_createdFor hrec⟩
  known := hrec.known

theorem lookup_of_row {s : Store} {c : CreateCall} {r : AccessRequestRow} (hr : r ∈ s.requests.rows)
    (hclient : r.idemClient = c.client.name) (hkey : r.idemKey = c.req.idempotencyKey) (hmac : r.idemMac = c.mac env) :
    c.lookup env s = { c with found := some r, phase := .status r } := by
  have hfind : getRequestByIdem s c.client.name c.req.idempotencyKey = some r := by
    cases hget : getRequestByIdem s c.client.name c.req.idempotencyKey with
    | none =>
        have := List.find?_eq_none.1 hget r hr
        simp [hclient, hkey] at this
    | some r' =>
        obtain ⟨hr', hclient', hkey'⟩ := getRequestByIdem_eq_some hget
        rw [request_eq hr hr' (hclient'.trans hclient.symm) (hkey'.trans hkey.symm)]
  rw [CreateCall.lookup, hfind]
  simp only [CreateCall.settle, if_pos hmac]

theorem answered_of_ok (h : CreatesOk env c₀ w) : Answered env w := by
  have hheld : ∀ c ∈ w.calls, ∀ st, c.phase = .done (.ok st) → c.HeldAs env w.world.store st.requestId := by
    intro c hc st hst
    have hp := (h.calls c hc).phase
    rw [hst] at hp
    exact hp.1
  refine ⟨?_, ?_, ?_, ?_, ?_⟩
  · intro c hc st hst
    obtain ⟨r, hr, hclient, hkey, hmac, hid⟩ := hheld c hc st hst
    exact ⟨r, hr, hclient, hkey, hmac, hid.symm⟩
  · intro c hc c' hc' hclient hkey st st' hst hst'
    obtain ⟨r, hr, hclient₁, hkey₁, -, hid⟩ := hheld c hc st hst
    obtain ⟨r', hr', hclient₁', hkey₁', -, hid'⟩ := hheld c' hc' st' hst'
    rw [← hid, ← hid', request_eq hr hr' (hclient₁'.trans (hclient.trans hclient₁.symm))
      (hkey₁'.trans (hkey.trans hkey₁.symm))]
  · intro c hc r hr hclient hkey hmac
    refine ⟨fun st hst => ?_, fun op hop reply hlog => ?_⟩
    · obtain ⟨r', hr', hclient', hkey', hmac', -⟩ := hheld c hc st hst
      rw [request_eq hr hr' (hclient'.trans hclient.symm) (hkey'.trans hkey.symm)] at hmac'
      exact hmac hmac'
    · obtain ⟨id, req, hins, hclient₁, hkey₁, hmac₁⟩ := (h.calls c hc).op op hop
      obtain ⟨r', hr', hclient', hkey', hmac', -⟩ := (Db.recorded_of_reachable h.world).inserted _ hlog id req hins
      rw [request_eq hr hr' (hclient'.trans (hclient₁.trans hclient.symm)) (hkey'.trans (hkey₁.trans hkey.symm))] at hmac'
      exact hmac (hmac'.trans hmac₁)
  · intro c _ r hr hclient hkey hmac
    exact lookup_of_row hr hclient hkey hmac
  · intro c hc r hfound hmac
    have hp := (h.calls c hc).phase
    cases hphase : c.phase with
    | status row =>
        rw [hphase] at hp
        exact Or.inl (by rw [hp.2 r hfound])
    | done answer =>
        rw [hphase] at hp
        cases answer with
        | ok st => exact Or.inr ⟨st, rfl, hp.2 r hfound⟩
        | error e => exact absurd hmac (hp r hfound)
    | _ =>
        rw [hphase] at hp
        rw [hp] at hfound
        cases hfound

/-- In every run of creations and of transactions of the store: for a client and a key there is at most one request, one
grant and one `request-created` row, ever; every success names that request and is for the payload it was created with;
another payload changes nothing; a retry that finds the row succeeds with it. -/
theorem idempotent_creation (env : CreateEnv) (c₀ : DateTime) {w w' : Creates}
    (hw : Creates.Steps env (Creates.init c₀) w) (hw' : Creates.Steps env w w') :
    CreatedOnce w.world.store w'.world.store ∧ Answered env w' := by
  have hok := (createsOk_init env c₀).steps hw
  have hok' := hok.steps hw'
  exact ⟨createdOnce_of_extends (extends_of_steps hok hw') (Db.recorded_of_reachable hok'.world), answered_of_ok hok'⟩

end Runs

/-! ### A request made twice -/

def twiceEnv : CreateEnv where
  url host := some (some host)
  limits := ⟨900, 20, 60, 10⟩
  hmac := id
  floatText _ := ""

def twiceClient : Db.ClientRow := ⟨1, "agent", 2, ["cli-read"], true, false⟩

def twiceReq : CreateAccessRequest := ⟨"k1", "deploy-key", .cliRead, ⟨[], [], [], 900, none⟩, ⟨"", none⟩⟩

/-- The call before its lookup. -/
def twiceCall : CreateCall := ⟨twiceClient, twiceReq, none, none, .lookup⟩

/-- The insert of a call runs up to its commit when nothing runs beside it. -/
theorem runs_alone {env : CreateEnv} {op : StoreOp} (hop : op.attempts = true) {s s' : Store} {clock t : DateTime}
    {log : List (StoreOp × Reply)} {calls : List CreateCall} {a : Reply} {x : Db.Tx Reply} {d : Store → Store}
    {h : Held Db.LockKey} (hx : x.exec (d s) = .ok (a, s')) :
    ∃ d' h', Creates.Steps env ⟨⟨s, clock, log, [⟨op, t, x, d, h⟩]⟩, calls⟩
      ⟨⟨s, clock, log, [⟨op, t, .pure a, d', h'⟩]⟩, calls⟩ ∧ d' s = s' := by
  have hops : ∀ {y : Db.Tx Reply} {d : Store → Store} {h : Held Db.LockKey}, ∀ th ∈ ([] ++ ⟨op, t, y, d, h⟩ :: [] :
      List (Thread Store Db.LockKey (Except Db.DbError Reply) Reply DateTime StoreOp)), th.op.attempts = true := by
    intro y d h th hth
    rw [List.mem_singleton.1 hth]
    exact hop
  induction x generalizing d h with
  | pure b =>
      cases hx
      exact ⟨d, h, .refl, rfl⟩
  | abort r => cases hx
  | read k ih =>
      obtain ⟨d', h', hsteps, hd⟩ := ih (d s) hx
      exact ⟨d', h', .head (.store _ _ _ (.read _ [] [] op t k d h rfl) hops) hsteps, hd⟩
  | acquire key mode k ih =>
      obtain ⟨d', h', hsteps, hd⟩ := ih hx
      exact ⟨d', h', .head (.store _ _ _ (.acquire _ [] [] op t key mode k d h rfl (by simp)) hops) hsteps, hd⟩
  | write f k ih =>
      obtain ⟨d', h', hsteps, hd⟩ := ih (d := f ∘ d) hx
      exact ⟨d', h', .head (.store _ _ _ (.write _ [] [] op t f k d h rfl) hops) hsteps, hd⟩

/-- The plan of the call, where policy has no say. -/
def twicePlan : CreatePlan where
  newRow := ⟨"agent", "deploy-key", "cli-read", ⟨[], [], [], 900, some 1⟩, .ofSeconds 1900, none, "agent", "k1",
    twiceCall.mac twiceEnv⟩
  pendingCap := some 20
  resolution := .pending
  decision := .requireApproval

theorem planCreate_twice : planCreate twiceEnv.url twiceEnv.limits twiceClient none [] [] (.ofSeconds 1000) twiceReq
    (twiceCall.mac twiceEnv) = .ok twicePlan := rfl

/-- The insert of the first call. -/
def twiceOp : StoreOp := twiceCall.insertOp twicePlan 5 0 fun _ => none

/-- The first call, its insert under way. -/
def insertingCall : CreateCall := { twiceCall with op := some twiceOp, phase := .insert twicePlan }

theorem exec_twice : ∃ row gid s, (twiceOp.txn 60 (.ofSeconds 1000)).exec .empty = .ok (.insert (.created row gid), s) :=
  ⟨_, _, _, rfl⟩

/-- Created, and asked for again: the second call finds the row of the first. -/
theorem idempotent_creation_twice : ∃ w c c' st st', Creates.Steps twiceEnv (Creates.init (.ofSeconds 1000)) w ∧
    w.calls = [c', c] ∧ c.found = none ∧ c'.found ≠ none ∧ c.phase = .done (.ok st) ∧ c'.phase = .done (.ok st') ∧
      st'.requestId = st.requestId := by
  obtain ⟨row, gid, s, hexec⟩ := exec_twice
  have hstart : Creates.Steps twiceEnv (Creates.init (.ofSeconds 1000)) ⟨⟨.empty, .ofSeconds 1000, [],
      [⟨twiceOp, .ofSeconds 1000, twiceOp.txn 60 (.ofSeconds 1000), fun s => s, []⟩]⟩, [insertingCall]⟩ :=
    .tail (.tail (.tail .refl (.receive _ [] twiceClient twiceReq (by decide))) (.lookup _ [] [] twiceCall rfl))
      (.evaluate _ [] [] { twiceCall with phase := .evaluate } none [] [] (.ofSeconds 1000) twicePlan 5 0 (fun _ => none)
        twiceOp rfl planCreate_twice rfl)
  obtain ⟨d, h, halone, -⟩ := @runs_alone twiceEnv twiceOp rfl _ _ (.ofSeconds 1000) (.ofSeconds 1000) [] [insertingCall]
    _ _ (fun s => s) [] hexec
  have hcommit := (hstart.trans halone).tail (.commit _ [] [] insertingCall twicePlan twiceOp [] [] _ _ d h rfl rfl rfl)
  -- the answer to the first call names a row, which the second call finds
  obtain ⟨r, hr, hclient, hkey, hmac, -⟩ :=
    (answered_of_ok ((createsOk_init twiceEnv _).steps hcommit)).success _ (List.mem_singleton_self _) _ rfl
  have hlookup : twiceCall.lookup twiceEnv (d .empty) = { twiceCall with found := some r, phase := .status r } :=
    lookup_of_row hr hclient hkey hmac
  have hagain := (hcommit.tail (.receive _ _ twiceClient twiceReq (by decide))).tail (.lookup _ [] _ twiceCall rfl)
  rw [List.nil_append] at hagain
  change Creates.Steps _ _ ⟨_, twiceCall.lookup twiceEnv (d .empty) :: _⟩ at hagain
  rw [hlookup] at hagain
  have hdone := hagain.tail (.status _ [] _ _ r rfl)
  refine ⟨_, _, _, _, _, hdone, rfl, rfl, Option.some_ne_none r, rfl, rfl, ?_⟩
  exact (idempotent_creation twiceEnv _ hdone .refl).2.same _ (List.mem_cons_of_mem _ (List.mem_singleton_self _)) _
    List.mem_cons_self rfl rfl _ _ rfl rfl

end Keychute.Api
