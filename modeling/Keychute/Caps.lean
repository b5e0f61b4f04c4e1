import Keychute.Incarnation
import Keychute.Api.Requests

/-!
# The caps of a client

* `pendingCaps` : no client has more pending requests than its cap, in any committed state;
* `depositCaps` : no client has more deposits than its cap in any hour;
* `caps_of_reachable` : both hold under every interleaving, and a deposit leaves the secrets that are there alone.

A transaction's `now()` is when it began, so the rows that a check counts may carry later clocks than its own. Both
checks count from their own clock on with no upper end, which is what makes them sufficient.
-/

namespace Keychute.Db
open Keychute.Lib

/-- `DEPOSIT_RATE_WINDOW_HOURS`. -/
def depositRateWindowHours : Int := 1

/-- The rate that a deposit is made under. -/
def depositRate (limits : Api.Limits) : DepositRate := ⟨limits.maxDepositsPerHourPerClient, depositRateWindowHours⟩

/-- The calls that the handlers make under these limits (`Api.planCreate_ok` for the requests). -/
structure StoreOp.Capped (limits : Api.Limits) (op : StoreOp) : Prop where
  attempts : op.attempts = true
  pending : ∀ id req pendingCap resolution context grantId,
    op = .insertAccessRequestWithId id req pendingCap resolution context grantId →
      pendingCap = limits.pendingCap resolution
  deposit : ∀ store versionId clientName rate,
    op = .createSecretFromClient store versionId clientName rate → rate = depositRate limits

/-! ## Pending requests -/

section Pending
variable {client : String}

/-- What a commit does to the requests of a client: without its lock their number does not grow, and no row goes. -/
structure NoMorePending (client : String) (h : Held LockKey) (s s' : Store) : Prop where
  count : (.pendingOf client, .exclusive) ∈ h ∨ ∀ t, s'.pendingOf client t ≤ s.pendingOf client t
  fresh : ∀ row, s'.requests.Fresh row → s.requests.Fresh row

/-- Requests only run out as time passes. -/
theorem Store.pendingOf_le_of_le (s : Store) (client : String) {t t' : DateTime} (ht : t ≤ t') :
    s.pendingOf client t' ≤ s.pendingOf client t := by
  refine List.countP_mono_left fun r _ hr => ?_
  simp only [AccessRequestRow.resolvable, Bool.and_eq_true, decide_eq_true_eq] at hr ⊢
  exact ⟨hr.1, hr.2.1, lt_of_le_of_lt ht hr.2.2⟩

/-- The protocol of a client's pending requests. -/
def pendingCaps (client : String) (cap : Int) : Protocol Store LockKey DateTime StoreOp Reply where
  Inv s c _ := (s.pendingOf client c : Int) ≤ cap
  Guarantee := NoMorePending client
  inv_tick {s _ _ _} hc h := by
    have hle := s.pendingOf_le_of_le client hc
    omega

/-- Writes that add nothing to the pending requests of a client, and keep every request. -/
def SparesPending (client : String) (_ : Held LockKey) (f : Store → Store) : Prop :=
  ∀ s, (∀ t, (f s).pendingOf client t ≤ s.pendingOf client t) ∧ ∀ row, (f s).requests.Fresh row → s.requests.Fresh row

theorem writeKind_sparesPending (client : String) : WriteKind (SparesPending client) where
  id _ _ := ⟨fun _ => le_refl _, fun _ hrow => hrow⟩
  comp {_ f _} hf hg s := ⟨fun t => ((hg (f s)).1 t).trans ((hf s).1 t), fun row hrow => (hf s).2 row ((hg _).2 row hrow)⟩
  mono _ hf := hf

/-- Writes outside the requests. -/
def BesideRequests (_ : Held LockKey) (f : Store → Store) : Prop := ∀ s, (f s).requests = s.requests

theorem writeKind_besideRequests : WriteKind BesideRequests where
  id _ _ := rfl
  comp {_ f _} hf hg s := (hg (f s)).trans (hf s)
  mono _ hf := hf

theorem BesideRequests.spares {h : Held LockKey} {f : Store → Store} (hf : BesideRequests h f) :
    SparesPending client h f := by
  intro s
  refine ⟨fun t => ?_, fun row hrow => by rwa [hf s] at hrow⟩
  rw [Store.pendingOf, Store.pendingOf, hf s]

theorem AccessRequestRow.Resolves.counted {r r' : AccessRequestRow} (h : r.Resolves r') {t : DateTime}
    (hr' : (r'.clientName == client && r'.resolvable t) = true) : (r.clientName == client && r.resolvable t) = true := by
  simp only [AccessRequestRow.resolvable, Bool.and_eq_true, beq_iff_eq, decide_eq_true_eq] at hr' ⊢
  rw [h.expiresAt, h.clientName] at hr'
  refine ⟨hr'.1, ?_, hr'.2.2⟩
  rcases h.state with hst | hne
  · rw [← hst]
    exact hr'.2.1
  · exact absurd hr'.2.1 hne

theorem fresh_of_insert {row row' : AccessRequestRow} {t : Table requestKeys} (h : (t.insert row').Fresh row) :
    t.Fresh row := fun a ha => h a (Table.mem_insert_of_mem ha)

/-- Every write but the insertion of a request of this client. -/
theorem StoreWrite.sparesPending {op : StoreOp} {now : DateTime} {h : Held LockKey} {f : Store → Store}
    (hf : StoreWrite (fun _ _ => True) op now h f)
    (hop : ∀ id req pendingCap resolution context grantId,
      op = .insertAccessRequestWithId id req pendingCap resolution context grantId → req.clientName ≠ client) :
    SparesPending client h f := by
  cases hf with
  | insertRequest id req pendingCap resolution context grantId c hop' hkek hread hpend hlock =>
      intro s
      refine ⟨fun t => le_of_eq (Table.countP_insert_of_neg ?_), fun row => fresh_of_insert⟩
      have hne : ((req.row id c now).clientName == client) = false := beq_false_of_ne (hop _ _ _ _ _ _ hop')
      rw [hne, Bool.false_and]
  | updateRequests p keys f hf hres hlock =>
      intro s
      exact ⟨fun t => Table.countP_update_le hf fun r hr => (hres r).counted hr, fun row => (Table.fresh_update hf).1⟩
  | _ => exact BesideRequests.spares fun s => rfl

variable {cap : Int}

theorem final_spares {op : StoreOp} {now : DateTime} {r : Reply} {h : Held LockKey} {d : Store → Store}
    {F : Store → Prop} (hd : SparesPending client h d) : (pendingCaps client cap).Final op now r h d F := by
  intro s c l _ hinv _
  have hle := (hd s).1 c
  refine ⟨?_, Or.inr (hd s).1, (hd s).2⟩
  change (s.pendingOf client c : Int) ≤ cap at hinv
  change ((d s).pendingOf client c : Int) ≤ cap
  omega

/-- A call that creates no request of this client. -/
theorem safe_of_spares {window : Int} {op : StoreOp} {now : DateTime} (hatt : op.attempts = true)
    (hop : ∀ id req pendingCap resolution context grantId,
      op = .insertAccessRequestWithId id req pendingCap resolution context grantId → req.clientName ≠ client) :
    (pendingCaps client cap).Safe op now (op.txn window now) := by
  refine Txn.wp_within (writeKind_sparesPending client) (txn_within hatt fun h f hf => hf.sparesPending hop)
    (Protocol.stable_true _ _) fun r h e _ he => final_spares he

/-- Under the lock of the client, a count with the new row in it stays what it was. -/
theorem stable_counted {h : Held LockKey} (row : AccessRequestRow) (now : DateTime)
    (hl : (.pendingOf client, .exclusive) ∈ h) : (pendingCaps client cap).Stable h fun s =>
      (((s.requests.insert row).rows.countP fun r => r.clientName == client && r.resolvable now : Nat) : Int) ≤ cap := by
  intro h' s s' hc hg hs
  have hle : ∀ t, s'.pendingOf client t ≤ s.pendingOf client t :=
    hg.count.resolve_left fun hl' => hc.clash hl hl' rfl
  have hcount := hle now
  unfold Store.pendingOf at hcount
  by_cases hfresh : s'.requests.Fresh row
  · rw [Table.insert_rows (hg.fresh row hfresh), List.countP_append] at hs
    rw [Table.insert_rows hfresh, List.countP_append]
    omega
  · have hsame : s'.requests.insert row = s'.requests := dif_neg hfresh
    have hmono : s.requests.rows.countP (fun r => r.clientName == client && r.resolvable now) ≤
        (s.requests.insert row).rows.countP fun r => r.clientName == client && r.resolvable now := by
      rcases Table.insert_rows_or s.requests row with hi | hi <;> rw [hi]
      rw [List.countP_append]
      omega
    rw [hsame]
    omega

theorem besideRequests_insertAudit {row : AuditRow} {h : Held LockKey} : (insertAudit row).Writes BesideRequests h :=
  within_insertAudit fun _ => rfl

theorem besideRequests_sealContext {context : Option SealFn} {h : Held LockKey} :
    (sealContext context).Writes BesideRequests h := by
  unfold sealContext
  split
  · trivial
  · exact Txn.within_lock_bind (Txn.within_bind within_sealNow fun _ _ _ => trivial)

/-- A request that policy resolves in the transaction that creates it is never pending in a committed state. -/
theorem wp_applyResolution {op : StoreOp} {req : NewAccessRequest} {grantId : Uuid} {now : DateTime}
    {row : AccessRequestRow} {resolution : InitialResolution} (hres : resolution ≠ .pending) {h : Held LockKey}
    {e : Store → Store} (he : ∀ s, (e s).requests = s.requests.insert row)
    {g : AccessRequestRow × Option Uuid → Reply} :
    (applyResolution row req grantId now resolution >>= fun p => pure (g p)).wp (pendingCaps client cap)
      ((pendingCaps client cap).Final op now) h e fun _ => True := by
  have htrue : ∀ h', (pendingCaps client cap).Stable h' fun _ => True := fun h' => Protocol.stable_true _ _
  -- what the update leaves of the row just inserted
  have hupd : ∀ (p : AccessRequestRow → Bool) (keys : List LockKey) (f : AccessRequestRow → AccessRequestRow)
      (hf : ∀ r, requestKeys.key (f r) = requestKeys.key r), (∀ r, AccessRequestRow.Resolves r (f r)) →
      requestRel.hit p keys row = true → (f row).state ≠ .pending →
      SparesPending client h (requestRel.updating p keys f hf ∘ e) := by
    intro p keys f hf hresolves hhit hstate s
    have hreq : (requestRel.updating p keys f hf (e s)).requests =
        (s.requests.insert row).update (requestRel.hit p keys) f hf := by rw [← he s]; rfl
    rw [Function.comp_apply]
    refine ⟨fun t => ?_, fun row' hrow' => fresh_of_insert ((Table.fresh_update hf).1 (hreq ▸ hrow'))⟩
    rw [Store.pendingOf, hreq]
    refine Table.countP_update_insert_le hf (fun r hr => (hresolves r).counted hr) hhit ?_
    rw [AccessRequestRow.resolvable, beq_false_of_ne hstate, Bool.false_and, Bool.and_false]
  have hkind := writeKind_sparesPending client
  cases resolution with
  | pending => exact absurd rfl hres
  | denied reason resolvedBy =>
      rw [applyResolution, Txn.bind_bind]
      refine Txn.wp_bind (Rel.wp_updateWhere_returning (htrue h) fun h₁ keys rows hh₁ _ hrows => ?_)
      split
      · trivial
      · rename_i row' hhead
        obtain ⟨r, hr, -⟩ := hrows row' (List.mem_of_mem_head? hhead)
        have hhit : requestRel.hit (·.id == row.id) keys row = true := by
          simp only [Rel.hit, Bool.and_eq_true, beq_iff_eq, List.contains_iff_mem] at hr ⊢
          exact ⟨trivial, hr.1 ▸ hr.2⟩
        rw [Txn.bind_bind]
        refine Txn.wp_bind (Txn.wp_within writeKind_besideRequests besideRequests_insertAudit (htrue _)
          fun _ h₂ e₂ _ he₂ => ?_)
        exact final_spares (hkind.comp (hupd _ keys _ _ (AccessRequestRow.resolves_deny reason resolvedBy) hhit
          RequestState.noConfusion) he₂.spares)
  | approved resolvedBy grant notifyOnly =>
      rw [applyResolution, Txn.bind_bind]
      refine Txn.wp_bind (Rel.wp_updateWhere_returning (htrue h) fun h₁ keys rows hh₁ _ hrows => ?_)
      split
      · trivial
      · rename_i row' hhead
        obtain ⟨r, hr, -⟩ := hrows row' (List.mem_of_mem_head? hhead)
        have hhit : requestRel.hit (fun r => r.id == row.id && decide (now < grant.notAfter)) keys row = true := by
          simp only [Rel.hit, Bool.and_eq_true, beq_iff_eq, List.contains_iff_mem] at hr ⊢
          exact ⟨⟨trivial, hr.1.2⟩, hr.1.1 ▸ hr.2⟩
        rw [Txn.bind_bind]
        refine Txn.wp_bind (Txn.wp_within writeKind_besideRequests (Rel.within_insertOrFail fun _ _ _ s => rfl)
          (htrue _) fun _ h₂ e₂ _ he₂ => ?_)
        rw [Txn.bind_bind]
        refine Txn.wp_bind (Txn.wp_within writeKind_besideRequests besideRequests_insertAudit (htrue _)
          fun _ h₃ e₃ _ he₃ => ?_)
        refine final_spares (hkind.comp (hkind.comp (hupd _ keys _ _ ?_ hhit RequestState.noConfusion) he₂.spares)
          he₃.spares)
        intro r
        exact ⟨rfl, rfl, ⟨rfl, rfl⟩, rfl, rfl, Or.inr RequestState.noConfusion, Or.inl rfl⟩

section Insert
variable {limits : Api.Limits} {id grantId : Uuid} {req : NewAccessRequest} {context : Option SealFn} {now : DateTime}

theorem safe_insert_pending : (pendingCaps req.clientName limits.maxPendingPerClient).Safe
    (.insertAccessRequestWithId id req (limits.pendingCap .pending) .pending context grantId) now
    (insertAccessRequestWithId id req (limits.pendingCap .pending) .pending context grantId now) := by
  have htrue : ∀ h', (pendingCaps req.clientName limits.maxPendingPerClient).Stable h' fun _ => True :=
    fun h' => Protocol.stable_true _ _
  have hkind := writeKind_besideRequests
  refine Txn.wp_bind (Txn.wp_within hkind within_lockForResolution (htrue _) fun _ h₁ e₁ _ he₁ => ?_)
  refine Txn.wp_bind (Txn.wp_within hkind besideRequests_sealContext (htrue _) fun c h₂ e₂ _ he₂ => ?_)
  let row := req.row id c now
  have hins : ∀ s, ((requestRel.inserting row ∘ e₂ ∘ e₁) s).requests = s.requests.insert row :=
    fun s => congrArg (Table.insert · row) ((he₂ _).trans (he₁ s))
  refine Txn.wp_bind (Txn.wp_lock (Txn.wp_bind (Rel.wp_insertOnConflict (htrue _) _ (fun _ _ _ => trivial)
    (fun h' _ _ => htrue h') (fun h' _ => ?_) fun h₃ hh₃ _ => ?_)))
  · refine Txn.wp_bind (Txn.wp_get (htrue _) fun v => ?_)
    rw [if_neg Bool.false_ne_true]
    split <;> trivial
  · refine Txn.wp_bind (Txn.wp_get_cases fun v => ?_)
    have hany : (limits.pendingCap .pending).any (fun cap => decide ((v.pendingOf req.clientName now : Int) > cap)) =
        decide ((v.pendingOf req.clientName now : Int) > limits.maxPendingPerClient) := rfl
    rw [if_pos rfl, hany]
    by_cases hcap : (v.pendingOf req.clientName now : Int) > limits.maxPendingPerClient
    · refine ⟨_, htrue _, fun _ _ _ _ _ _ => trivial, ?_⟩
      rw [if_pos (decide_eq_true hcap)]
      trivial
    · have hmem : (LockKey.pendingOf req.clientName, Mode.exclusive) ∈ h₃ := hh₃ List.mem_cons_self
      refine ⟨_, stable_counted row now hmem, ?_, ?_⟩
      · intro s c' l _ _ hv
        rw [← hins s]
        subst hv
        exact not_lt.1 hcap
      · rw [if_neg (by simpa using hcap)]
        refine Txn.wp_bind (Txn.wp_within hkind besideRequests_insertAudit (stable_counted row now hmem)
          fun _ h₄ e₄ hh₄ he₄ => ?_)
        intro s c' l hle hinv hcount
        let s' := (e₄ ∘ requestRel.inserting row ∘ e₂ ∘ e₁) s
        have hreq : s'.requests = s.requests.insert row := (he₄ _).trans (hins s)
        rw [← hreq] at hcount
        refine ⟨le_trans (Int.ofNat_le.2 (s'.pendingOf_le_of_le req.clientName hle)) hcount, Or.inl (hh₄ hmem), ?_⟩
        intro row' hrow'
        exact fresh_of_insert (hreq ▸ hrow')

theorem safe_insert_resolved {client : String} {cap : Int} {resolution : InitialResolution}
    (hres : resolution ≠ .pending) : (pendingCaps client cap).Safe
      (.insertAccessRequestWithId id req none resolution context grantId) now
      (insertAccessRequestWithId id req none resolution context grantId now) := by
  have htrue : ∀ h', (pendingCaps client cap).Stable h' fun _ => True := fun h' => Protocol.stable_true _ _
  have hkind := writeKind_besideRequests
  refine Txn.wp_bind (Txn.wp_within hkind within_lockForResolution (htrue _) fun _ h₁ e₁ _ he₁ => ?_)
  refine Txn.wp_bind (Txn.wp_within hkind besideRequests_sealContext (htrue _) fun c h₂ e₂ _ he₂ => ?_)
  refine Txn.wp_bind (Txn.wp_within hkind (within_onlyIf fun _ => trivial) (htrue _) fun _ h₃ e₃ _ he₃ => ?_)
  refine Txn.wp_bind (Rel.wp_insertOnConflict (htrue _) _ (fun _ _ _ => trivial) (fun h' _ _ => htrue h')
    (fun h' _ => ?_) fun h₄ _ _ => ?_)
  · refine Txn.wp_bind (Txn.wp_get (htrue _) fun v => ?_)
    rw [if_neg Bool.false_ne_true]
    split <;> trivial
  · refine Txn.wp_bind (Txn.wp_get (htrue _) fun v => ?_)
    rw [if_pos rfl, if_neg (by simp)]
    refine Txn.wp_bind (Txn.wp_within hkind besideRequests_insertAudit (htrue _) fun _ h₅ e₅ _ he₅ => ?_)
    refine wp_applyResolution hres fun s => (he₅ _).trans ?_
    exact congrArg (Table.insert · (req.row id c now)) ((he₃ _).trans ((he₂ _).trans (he₁ s)))

end Insert

theorem safe_pendingCaps {limits : Api.Limits} {window : Int} {op : StoreOp} (hop : op.Capped limits) (now : DateTime) :
    (pendingCaps client limits.maxPendingPerClient).Safe op now (op.txn window now) := by
  by_cases hother : ∀ id req pendingCap resolution context grantId,
      op = .insertAccessRequestWithId id req pendingCap resolution context grantId → req.clientName ≠ client
  · exact safe_of_spares hop.attempts hother
  · push Not at hother
    obtain ⟨id, req, pendingCap, resolution, context, grantId, rfl, rfl⟩ := hother
    obtain rfl := hop.pending _ _ _ _ _ _ rfl
    cases resolution with
    | pending => exact safe_insert_pending
    | denied reason resolvedBy => exact safe_insert_resolved InitialResolution.noConfusion
    | approved resolvedBy grant notifyOnly => exact safe_insert_resolved InitialResolution.noConfusion

end Pending

/-! ## Deposits -/

section Deposits
variable {client : String}

/-- A deposit of the client. -/
def AuditRow.depositOf (client : String) (a : AuditRow) : Bool := a.kind == .secretCreated && a.clientName == some client

def Store.depositsOf (s : Store) (client : String) : List AuditRow := s.audit.filter (·.depositOf client)

/-- The deposits of a client in the hour that ends at `x`, its start excluded. -/
def Store.depositsWithinHour (s : Store) (client : String) (x : DateTime) : Nat :=
  s.audit.countP fun a => a.depositOf client && (a.at_.within x 3600 && decide (a.at_ ≤ x))

theorem Store.depositsWithinHour_eq (s : Store) (client : String) (x : DateTime) :
    s.depositsWithinHour client x = (s.depositsOf client).countP fun a => a.at_.within x 3600 && decide (a.at_ ≤ x) := by
  rw [depositsWithinHour, depositsOf, List.countP_filter]
  exact congrArg (List.countP · s.audit) (funext fun a => Bool.and_comm _ _)

theorem Store.recentDeposits_eq (s : Store) (client : String) (rate : DepositRate) (now : DateTime) :
    s.recentDeposits client rate now = (s.depositsOf client).countP fun a => a.at_.within now (rate.windowHours * 3600) := by
  rw [recentDeposits, depositsOf, List.countP_filter]
  exact congrArg (List.countP · s.audit) (funext fun a => Bool.and_comm _ _)

/-- The protocol of a client's deposits. -/
def depositCaps (client : String) (max : Int) : Protocol Store LockKey DateTime StoreOp Reply where
  Inv s _ _ := ∀ x, (s.depositsWithinHour client x : Int) ≤ max
  Guarantee h s s' := (.depositsOf client, .exclusive) ∈ h ∨ s'.depositsOf client = s.depositsOf client
  inv_tick _ h := h

/-- Writes that log no deposit of the client. -/
def SparesDeposits (client : String) (_ : Held LockKey) (f : Store → Store) : Prop :=
  ∀ s, (f s).depositsOf client = s.depositsOf client

theorem writeKind_sparesDeposits (client : String) : WriteKind (SparesDeposits client) where
  id _ _ := rfl
  comp {_ f _} hf hg s := (hg (f s)).trans (hf s)
  mono _ hf := hf

theorem StoreWrite.sparesDeposits {op : StoreOp} {now : DateTime} {h : Held LockKey} {f : Store → Store}
    (hf : StoreWrite (fun _ _ => True) op now h f) (hop : op.depositor ≠ some client) : SparesDeposits client h f := by
  cases hf with
  | audit rows hat hdep hask =>
      intro s
      have hnone : rows.filter (·.depositOf client) = [] := by
        rw [List.filter_eq_nil_iff]
        intro a ha hd
        rw [AuditRow.depositOf, Bool.and_eq_true, beq_iff_eq, beq_iff_eq] at hd
        exact hop (hdep a ha client hd.1 hd.2).1
      rw [Store.depositsOf, List.filter_append, hnone, List.append_nil]
      rfl
  | _ => exact fun s => rfl

variable {max : Int}

theorem final_sparesDeposits {op : StoreOp} {now : DateTime} {r : Reply} {h : Held LockKey} {d : Store → Store}
    {F : Store → Prop} (hd : SparesDeposits client h d) : (depositCaps client max).Final op now r h d F := by
  intro s c l _ hinv _
  refine ⟨fun x => ?_, Or.inr (hd s)⟩
  rw [Store.depositsWithinHour_eq, hd s, ← Store.depositsWithinHour_eq]
  exact hinv x

theorem stable_recentDeposits (max : Int) (now : DateTime) (rate : DepositRate) {h : Held LockKey}
    (hl : (.depositsOf client, .exclusive) ∈ h) :
    (depositCaps client max).Stable h fun s => (s.recentDeposits client rate now : Int) < rate.maxPerWindow := by
  intro h' s s' hc hg hs
  have hsame : s'.depositsOf client = s.depositsOf client := hg.resolve_left fun hl' => hc.clash hl hl' rfl
  rw [Store.recentDeposits_eq, hsame, ← Store.recentDeposits_eq]
  exact hs

/-- One more deposit, counted in whatever hour: everything in that hour is in the deposit's own count. -/
theorem depositsWithinHour_deposit {s s' : Store} {name : String} {now : DateTime} {limits : Api.Limits}
    (hinv : ∀ x, (s.depositsWithinHour client x : Int) ≤ limits.maxDepositsPerHourPerClient)
    (hcount : (s.recentDeposits client (depositRate limits) now : Int) < limits.maxDepositsPerHourPerClient)
    (hs' : s'.depositsOf client = s.depositsOf client ++ [depositRow name client now]) (x : DateTime) :
    (s'.depositsWithinHour client x : Int) ≤ limits.maxDepositsPerHourPerClient := by
  have hx := hinv x
  rw [Store.depositsWithinHour_eq] at hx
  rw [Store.depositsWithinHour_eq, hs', List.countP_append, List.countP_singleton]
  split
  · rename_i hnow
    have hle : (s.depositsOf client).countP (fun a => a.at_.within x 3600 && decide (a.at_ ≤ x)) ≤
        s.recentDeposits client (depositRate limits) now := by
      rw [Store.recentDeposits_eq]
      refine List.countP_mono_left fun a _ ha => ?_
      simp only [depositRow, DateTime.within, DateTime.le_def, Bool.and_eq_true, decide_eq_true_eq] at hnow ha
      have hhour : (depositRate limits).windowHours = 1 := rfl
      refine decide_eq_true ?_
      rw [hhour]
      omega
    omega
  · omega

theorem safe_createSecretFromClient {limits : Api.Limits} {store : StoreSecretParams} {versionId : Uuid} {now : DateTime} :
    (depositCaps client limits.maxDepositsPerHourPerClient).Safe
      (.createSecretFromClient store versionId client (depositRate limits)) now
      (createSecretFromClient store versionId client (depositRate limits) now) := by
  have hkind := writeKind_sparesDeposits client
  refine Txn.wp_bind (Txn.wp_lock (Txn.wp_bind (Txn.wp_get_cases fun v => ?_)))
  by_cases hfull : (v.recentDeposits client (depositRate limits) now : Int) ≥ (depositRate limits).maxPerWindow
  · refine ⟨_, Protocol.stable_true _ _, fun _ _ _ _ _ _ => trivial, ?_⟩
    rw [if_pos hfull]
    trivial
  · have hst := stable_recentDeposits limits.maxDepositsPerHourPerClient now (depositRate limits)
      (h := [(.depositsOf client, .exclusive)]) List.mem_cons_self
    refine ⟨_, hst, ?_, ?_⟩
    · intro s c l _ _ hv
      subst hv
      exact not_le.1 hfull
    · rw [if_neg hfull]
      refine Txn.wp_bind (Txn.wp_lock (Txn.wp_bind (Txn.wp_within hkind (Rel.within_insertOnConflict fun _ _ _ s => rfl)
        (hst.mono (List.subset_cons_self _ _)) fun inserted h₁ e₁ hh₁ he₁ => ?_)))
      have hst₁ := (hst.mono (List.subset_cons_self _ _)).mono hh₁
      split
      · trivial
      · refine Txn.wp_bind (Txn.wp_within hkind within_sealNow hst₁ fun sealed h₂ e₂ hh₂ he₂ => ?_)
        refine Txn.wp_bind (Txn.wp_within hkind (Rel.within_insertOrFail fun _ _ _ s => rfl) (hst₁.mono hh₂)
          fun _ h₃ e₃ hh₃ he₃ => ?_)
        intro s c l _ hinv hcount
        have hd : SparesDeposits client h₃ (e₃ ∘ e₂ ∘ e₁) := hkind.comp (hkind.comp he₁ he₂) he₃
        have hlog : ((e₃ (e₂ (e₁ s))).audit ++ [depositRow store.name client now]).filter (·.depositOf client) =
            s.depositsOf client ++ [depositRow store.name client now] := by
          rw [List.filter_append, List.filter_singleton]
          simp only [AuditRow.depositOf, depositRow, beq_self_eq_true, Bool.and_self]
          exact congrArg (· ++ _) (hd s)
        exact ⟨depositsWithinHour_deposit hinv hcount hlog, Or.inl (hh₃ (hh₂ (hh₁ (by simp))))⟩

theorem safe_depositCaps {limits : Api.Limits} {window : Int} {op : StoreOp} (hop : op.Capped limits) (now : DateTime) :
    (depositCaps client limits.maxDepositsPerHourPerClient).Safe op now (op.txn window now) := by
  by_cases hdep : op.depositor = some client
  · cases op with
    | createSecretFromClient store versionId clientName rate =>
        obtain rfl : clientName = client := Option.some.inj hdep
        obtain rfl := hop.deposit _ _ _ _ rfl
        exact safe_createSecretFromClient
    | _ => cases hdep
  · exact Txn.wp_within (writeKind_sparesDeposits client)
      (txn_within hop.attempts fun h f hf => hf.sparesDeposits hdep) (Protocol.stable_true _ _)
      fun r h e _ he => final_sparesDeposits he

end Deposits

/-! ## What a deposit leaves alone -/

/-- Writes that keep every secret and every version as it is. -/
def KeepsSecrets (_ : Held LockKey) (f : Store → Store) : Prop :=
  ∀ s, s.secrets.rows ⊆ (f s).secrets.rows ∧ s.versions.rows ⊆ (f s).versions.rows

theorem writeKind_keepsSecrets : WriteKind KeepsSecrets where
  id _ _ := ⟨List.Subset.refl _, List.Subset.refl _⟩
  comp {_ f _} hf hg s := ⟨fun _ hr => (hg (f s)).1 ((hf s).1 hr), fun _ hr => (hg (f s)).2 ((hf s).2 hr)⟩
  mono _ hf := hf

theorem keepsSecrets_createSecretFromClient {store : StoreSecretParams} {versionId : Uuid} {clientName : String}
    {rate : DepositRate} {now : DateTime} :
    (createSecretFromClient store versionId clientName rate now).Writes KeepsSecrets [] := by
  refine Txn.within_lock_bind (Txn.within_get_bind fun s _ => ?_)
  split
  · trivial
  · refine Txn.within_lock_bind (Txn.within_bind (Rel.within_insertOnConflict fun _ _ _ s => ?_) fun _ h₁ _ => ?_)
    · exact ⟨fun _ hr => Table.mem_insert_of_mem hr, List.Subset.refl _⟩
    · split
      · trivial
      · refine Txn.within_bind within_sealNow fun _ h₂ _ => ?_
        refine Txn.within_bind (Rel.within_insertOrFail fun _ _ _ s => ?_) fun _ h₃ _ => ?_
        · exact ⟨List.Subset.refl _, fun _ hr => Table.mem_insert_of_mem hr⟩
        · refine Txn.within_bind (within_insertAudit fun s => ?_) fun _ _ _ => trivial
          exact ⟨List.Subset.refl _, List.Subset.refl _⟩

/-- A deposit in flight, at any point, has changed no secret and no version that is there. -/
theorem threadInv_deposit {window : Int} {ok : StoreOp → Prop} :
    ThreadInv (StoreOp.txn window) ok fun th =>
      th.op.depositor ≠ none → th.rest.Writes KeepsSecrets th.held ∧ KeepsSecrets th.held th.writes := by
  refine Txn.threadInv_writes (fun op : StoreOp => op.depositor ≠ none) writeKind_keepsSecrets fun op now _ hop => ?_
  cases op with
  | createSecretFromClient store versionId clientName rate => exact keepsSecrets_createSecretFromClient
  | _ => exact absurd rfl hop

/-- Under the limits of the config, in every state that transactions in flight can reach: no client has more pending
requests, or more deposits in any hour, than its cap; and the step that ends a deposit, refused or not, leaves every
secret and every version as it was. -/
theorem caps_of_reachable {limits : Api.Limits} (hlimits : limits.Valid) {window : Int} {c₀ : DateTime} {w : StoreWorld}
    (hw : w.Reachable window c₀ (StoreOp.Capped limits)) :
    (∀ client, (w.store.pendingOf client w.clock : Int) ≤ limits.maxPendingPerClient) ∧
      (∀ client x, (w.store.depositsWithinHour client x : Int) ≤ limits.maxDepositsPerHourPerClient) ∧
      ∀ pre th post w', w.threads = pre ++ th :: post → th.op.depositor ≠ none →
        World.Step (StoreOp.txn window) w w' → w'.threads = pre ++ post →
          w.store.secrets.rows ⊆ w'.store.secrets.rows ∧ w.store.versions.rows ⊆ w'.store.versions.rows := by
  refine ⟨fun client => ?_, fun client => ?_, ?_⟩
  · refine Protocol.inv_of_reachable (P := pendingCaps client limits.maxPendingPerClient) ?_
      (fun op hop now => safe_pendingCaps hop now) hw
    exact hlimits.maxPending.le
  · refine Protocol.inv_of_reachable (P := depositCaps client limits.maxDepositsPerHourPerClient) ?_
      (fun op hop now => safe_depositCaps hop now) hw
    exact fun x => hlimits.maxDeposits.le
  · intro pre th post w' hth hdep hstep hw'
    have hkeeps := (hw.forall_threads threadInv_deposit th (by rw [hth]; simp) hdep).2
    rcases hstep.ended hth hw' with hs | hs
    · rw [hs]
      exact hkeeps w.store
    · rw [hs]
      exact ⟨List.Subset.refl _, List.Subset.refl _⟩

/-- A token a client deposits. -/
def agentToken : StoreSecretParams where
  secretId := 8
  name := "agent-token"
  description := ""
  maxTier := 1
  injectionKind := "bearer"
  injectionHeader := none
  injectionUsername := none
  sealWith := fun kek => some ⟨[1], [2], [3], kek⟩

/-- Each cap at one. -/
def strictLimits : Api.Limits := ⟨3600, 1, 60, 1⟩

/-- A request and a deposit, and a second deposit within the hour. -/
def cappedOnce : List (StoreOp × DateTime) :=
  [(.insertAccessRequestWithId 5 askedRequest (some 1) .pending none 0, .ofSeconds 1000),
    (.createSecretFromClient agentToken 4 "agent" (depositRate strictLimits), .ofSeconds 1100),
    (.createSecretFromClient { deployKey with secretId := 9 } 6 "agent" (depositRate strictLimits), .ofSeconds 1200)]

theorem caps_of_reachable_strict :
    ∃ w : StoreWorld, w.Reachable 60 (.ofSeconds 1000) (StoreOp.Capped strictLimits) ∧
      w.store.secrets.rows.map (·.id) = [8] ∧ w.store.pendingOf "agent" w.clock = 1 ∧
      (∀ client, (w.store.pendingOf client w.clock : Int) ≤ 1) ∧
      ∀ client x, (w.store.depositsWithinHour client x : Int) ≤ 1 := by
  have hrun := run_play (StoreOp.step 60) .empty (.ofSeconds 1000) cappedOnce (by decide)
  have hops : ∀ e ∈ play (StoreOp.step 60) .empty cappedOnce, StoreOp.Capped strictLimits e.op := by
    intro e he
    simp only [cappedOnce, play, callEvent, List.mem_cons, List.not_mem_nil, or_false] at he
    rcases he with rfl | rfl | rfl <;> refine ⟨rfl, ?_, ?_⟩ <;> simp <;> intros <;> subst_vars <;> rfl
  obtain ⟨log, hw⟩ := hrun.reachable hops
  have hcaps := caps_of_reachable ⟨by decide, by decide, by decide, by decide⟩ hw
  have hids : (playEnd (StoreOp.step 60) .empty cappedOnce).secrets.rows.map (·.id) = [8] := by decide +kernel
  have hpending : (playEnd (StoreOp.step 60) .empty cappedOnce).pendingOf "agent" (.ofSeconds 1200) = 1 := by
    decide +kernel
  exact ⟨_, hw, hids, hpending, hcaps.1, hcaps.2.1⟩

end Keychute.Db
