import Keychute.Incarnation

/-!
# Retiring a key-encryption key (`verify_no_references`)

* `KekOp` : the calls of the store, the two writers that only tests call, the check before a key is removed, and the
  change of the active key;
* `Clear` : a transaction in flight that has no payload sealed under a key;
* `retirement_of_reachable` : when the check says that a key is unused, no row refers to it, no transaction in flight
  holds a payload under it, and as long as it is not made active again none ever will.
-/

namespace Keychute.Db
open Keychute.Lib

/-! ## The writers outside the handlers, and the check -/

/-- `insert_access_request`: the idempotent insert with a database-generated id. The row of a conflict is read after
the rollback; it is read here before it. -/
def insertAccessRequest (id : Uuid) (req : NewAccessRequest) (context : Option SealFn) (now : DateTime) : Tx Reply := do
  let context ← sealContext context
  let inserted ← requestRel.insertOnConflict (req.row id context now) req.sameIdem (.error .uniqueViolation)
  if inserted then return .insert (.created (req.row id context now) none)
  else
    let s ← Txn.get
    match s.requests.rows.find? req.sameIdem with
    | some row => rollback (.insert (.existing row))
    | none => fail .rowNotFound

/-- `insert_secret_version`: append a version, sealed for its number. -/
def Secrets.insertSecretVersion (secretId : Uuid) (sealAt : Int → SealFn) (createdByRequest : Option Uuid)
    (versionId : Uuid) (now : DateTime) : Tx Reply := do
  takeKekSharedLock
  let updated ← secretRel.updateOrFail (·.id == secretId) versionOverflow (SecretRow.bumpVersion now)
    (SecretRow.key_bumpVersion now)
  match updated.head? with
  | none => fail (.bail "secret not found")
  | some r =>
    let sealed ← sealNow (sealAt r.currentVersion) "sealing secret version"
    let row : SecretVersionRow := ⟨versionId, secretId, r.currentVersion, sealed, now, createdByRequest⟩
    Db.insertSecretVersion row
    return .version (some row)

/-- The rows that store a key wrapped under `kekId`. -/
def Store.references (s : Store) (kekId : String) : Nat :=
  s.versions.rows.countP (·.sealed.kekId == kekId) + s.requests.rows.countP (·.contextKekId == some kekId)

/-- Nothing refers to the key: it is safe to retire. -/
def verifyNoReferences (kekId : String) : Tx Reply := do
  Txn.lock .kek .exclusive
  let s ← Txn.get
  return .flag (s.references kekId == 0)

inductive KekOp where
  | store (op : StoreOp)
  | insertAccessRequest (id : Uuid) (req : NewAccessRequest) (context : Option SealFn)
  | insertSecretVersion (secretId : Uuid) (sealAt : Int → SealFn) (createdByRequest : Option Uuid) (versionId : Uuid)
  | verifyNoReferences (kekId : String)
  | activate (kekId : String)

/-- A change of the active key is one write: the keyset is loaded whole. -/
def KekOp.txn (window : Int) : KekOp → DateTime → Tx Reply
  | .store op, now => op.txn window now
  | .insertAccessRequest id req context, now => Db.insertAccessRequest id req context now
  | .insertSecretVersion secretId sealAt createdByRequest versionId, now =>
    Secrets.insertSecretVersion secretId sealAt createdByRequest versionId now
  | .verifyNoReferences kekId, _ => Db.verifyNoReferences kekId
  | .activate kekId, _ => do
    Txn.modify fun s => { s with activeKek := kekId }
    return .flag true

/-- The store calls as their callers make them. -/
def KekOp.Ok : KekOp → Prop
  | .store op => op.attempts = true
  | _ => True

/-! ## Rows under a key -/

/-- No row refers to the key. -/
structure Unreferenced (kekId : String) (s : Store) : Prop where
  versions : ∀ v ∈ s.versions.rows, v.sealed.kekId ≠ kekId
  requests : ∀ r ∈ s.requests.rows, r.contextKekId ≠ some kekId

theorem references_eq_zero {kekId : String} {s : Store} : s.references kekId = 0 ↔ Unreferenced kekId s := by
  rw [Store.references, Nat.add_eq_zero_iff, List.countP_eq_zero, List.countP_eq_zero]
  simp only [beq_iff_eq]
  exact ⟨fun h => ⟨h.1, h.2⟩, fun h => ⟨h.1, h.2⟩⟩

/-- Writes that add no row under the key. -/
def AddsNone (kekId : String) (_ : Held LockKey) (f : Store → Store) : Prop :=
  ∀ s, Unreferenced kekId s → Unreferenced kekId (f s)

theorem writeKind_addsNone (kekId : String) : WriteKind (AddsNone kekId) where
  id _ _ hs := hs
  comp {_ f _} hf hg s hs := hg (f s) (hf s hs)
  mono _ hf := hf

/-- Where the KEK lock is held, the key is not the active one. -/
def Inactive (kekId : String) (h : Held LockKey) (s : Store) : Prop := (.kek, .shared) ∈ h → s.activeKek ≠ kekId

theorem ReadUnderLock.ne {kekId kek : String} (h : ReadUnderLock (Inactive kekId) kek) : kek ≠ kekId := by
  obtain ⟨_, s, hmem, hinactive, rfl⟩ := h
  exact hinactive hmem

variable {kekId : String}

theorem addsNone_insertVersion {h : Held LockKey} {row : SecretVersionRow} (hrow : row.sealed.kekId ≠ kekId) :
    AddsNone kekId h (versionRel.inserting row) := by
  intro s hs
  refine ⟨?_, hs.requests⟩
  intro v hv
  rcases Table.mem_of_mem_insert hv with hv | rfl
  · exact hs.versions v hv
  · exact hrow

theorem addsNone_insertRequest {h : Held LockKey} {row : AccessRequestRow} (hrow : row.contextKekId ≠ some kekId) :
    AddsNone kekId h (requestRel.inserting row) := by
  intro s hs
  refine ⟨hs.versions, ?_⟩
  intro r hr
  rcases Table.mem_of_mem_insert hr with hr | rfl
  · exact hs.requests r hr
  · exact hrow

theorem row_contextKekId_ne {req : NewAccessRequest} {id : Uuid} {c : Option Sealed} {now : DateTime}
    (hread : ∀ sealed ∈ c, ReadUnderLock (Inactive kekId) sealed.kekId) : (req.row id c now).contextKekId ≠ some kekId := by
  cases c with
  | none => exact (Option.some_ne_none kekId).symm
  | some sealed =>
      intro heq
      exact (hread sealed rfl).ne (Option.some.inj heq)

theorem StoreWrite.addsNone {op : StoreOp} {now : DateTime} {h : Held LockKey} {f : Store → Store}
    (hf : StoreWrite (Inactive kekId) op now h f) : AddsNone kekId h f := by
  cases hf with
  | insertVersion row hkek hread hlock => exact addsNone_insertVersion hread.ne
  | deleteVersions p keys secretId hop =>
      intro s hs
      exact ⟨fun v hv => hs.versions v (Table.mem_delete.1 hv).1, hs.requests⟩
  | insertRequest id req pendingCap resolution context grantId c hop hkek hread hpend hlock =>
      exact addsNone_insertRequest (row_contextKekId_ne hread)
  | updateRequests p keys f hf hres hlock =>
      intro s hs
      refine ⟨hs.versions, ?_⟩
      intro r' hr'
      obtain ⟨r, hr, rfl⟩ := Table.exists_of_mem_update hf hr'
      split
      · rcases (hres r).kek with hkek | hkek
        · rw [hkek]
          exact hs.requests r hr
        · rw [hkek]
          exact (Option.some_ne_none kekId).symm
      · exact hs.requests r hr
  | _ => exact fun s hs => ⟨hs.versions, hs.requests⟩

/-- Every call adds no row under a key that is not active where it seals. -/
theorem KekOp.within_addsNone {window : Int} {op : KekOp} (hop : op.Ok) (now : DateTime) :
    (op.txn window now).Within (Inactive kekId) (AddsNone kekId) [] := by
  cases op with
  | store op => exact txn_within hop fun h f hf => hf.addsNone
  | insertAccessRequest id req context =>
      refine within_sealContext_bind fun c h₁ _ _ hread => ?_
      refine Txn.within_bind (Rel.within_insertOnConflict fun _ _ _ => ?_) fun _ h₂ _ => ?_
      · exact addsNone_insertRequest (row_contextKekId_ne hread)
      · split
        · trivial
        · refine Txn.within_get_bind fun s _ => ?_
          split <;> trivial
  | insertSecretVersion secretId sealAt createdByRequest versionId =>
      refine Txn.within_lock_bind (Txn.within_bind (Rel.within_updateOrFail fun _ _ _ _ => ?_) fun _ h₁ hh₁ => ?_)
      · exact fun s hs => ⟨hs.versions, hs.requests⟩
      · split
        · trivial
        · refine within_sealNow_bind (hh₁ List.mem_cons_self) fun sealed hread _ => ?_
          refine Txn.within_bind (Rel.within_insertOrFail fun _ _ _ => ?_) fun _ _ _ => trivial
          exact addsNone_insertVersion hread.ne
  | verifyNoReferences k => exact Txn.within_lock_bind (Txn.within_get_bind fun _ _ => trivial)
  | activate k => exact ⟨fun s hs => ⟨hs.versions, hs.requests⟩, trivial⟩

/-! ## Transactions in flight -/

abbrev KekThread : Type := Thread Store LockKey (Except DbError Reply) Reply DateTime KekOp

abbrev KekWorld : Type := World Store LockKey (Except DbError Reply) Reply DateTime KekOp

abbrev KekWorld.Step (window : Int) (w w' : KekWorld) : Prop := World.Step (KekOp.txn window) w w'

abbrev KekWorld.Reachable (window : Int) (c₀ : DateTime) (w : KekWorld) : Prop :=
  World.Reachable (KekOp.txn window) Store.empty c₀ KekOp.Ok w

/-- The transaction has no payload sealed under the key: nothing it wrote puts one in a row, and nothing it may still
write does unless it seals under the key from now on. -/
structure Clear (kekId : String) (th : KekThread) : Prop where
  rest : th.rest.Within (Inactive kekId) (AddsNone kekId) th.held
  writes : AddsNone kekId th.held th.writes

namespace Clear
variable {op : KekOp} {t : DateTime} {d : Store → Store} {h : Held LockKey}

theorem read {k : Store → Tx Reply} {s : Store} (hc : Clear kekId ⟨op, t, .read k, d, h⟩) (hs : Inactive kekId h s) :
    Clear kekId ⟨op, t, k s, d, h⟩ := ⟨hc.rest s hs, hc.writes⟩

theorem acquire {key : LockKey} {mode : Mode} {k : Tx Reply} (hc : Clear kekId ⟨op, t, .acquire key mode k, d, h⟩) :
    Clear kekId ⟨op, t, k, d, (key, mode) :: h⟩ := ⟨hc.rest, hc.writes⟩

theorem write {f : Store → Store} {k : Tx Reply} (hc : Clear kekId ⟨op, t, .write f k, d, h⟩) :
    Clear kekId ⟨op, t, k, f ∘ d, h⟩ :=
  ⟨hc.rest.2, (writeKind_addsNone kekId).comp (f := d) (g := f) hc.writes hc.rest.1⟩

end Clear

/-- Nothing is sealed before the lock is held. -/
theorem threadInv_clear {window : Int} : ThreadInv (KekOp.txn window) KekOp.Ok fun th =>
    (.kek, .shared) ∈ th.held ∨ Clear kekId th where
  start op now hop := Or.inr ⟨KekOp.within_addsNone hop now, fun _ hs => hs⟩
  read {_ _ _ _ h} s hth := by
    by_cases hkek : (LockKey.kek, Mode.shared) ∈ h
    · exact Or.inl hkek
    · exact Or.inr ((hth.resolve_left hkek).read fun hmem => absurd hmem hkek)
  acquire hth := hth.imp (List.mem_cons_of_mem _) Clear.acquire
  write hth := hth.imp_right Clear.write

/-- Writes that leave the active key as it is. -/
def KeepsActive (_ : Held LockKey) (f : Store → Store) : Prop := ∀ s, (f s).activeKek = s.activeKek

theorem writeKind_keepsActive : WriteKind KeepsActive where
  id _ _ := rfl
  comp {_ f _} hf hg s := (hg (f s)).trans (hf s)
  mono _ hf := hf

theorem KekOp.within_keepsActive {window : Int} {op : KekOp} (hop : op.Ok) (hne : ∀ k, op ≠ .activate k)
    (now : DateTime) : (op.txn window now).Writes KeepsActive [] := by
  cases op with
  | store op =>
      refine txn_within hop fun h f hf => ?_
      cases hf <;> exact fun _ => rfl
  | insertAccessRequest id req context =>
      refine within_sealContext_bind fun c h₁ _ _ _ => ?_
      refine Txn.within_bind (Rel.within_insertOnConflict fun _ _ _ _ => rfl) fun _ h₂ _ => ?_
      split
      · trivial
      · refine Txn.within_get_bind fun s _ => ?_
        split <;> trivial
  | insertSecretVersion secretId sealAt createdByRequest versionId =>
      refine Txn.within_lock_bind (Txn.within_bind (Rel.within_updateOrFail fun _ _ _ _ _ => rfl) fun _ h₁ hh₁ => ?_)
      split
      · trivial
      · refine Txn.within_bind within_sealNow fun _ h₂ _ => ?_
        exact Txn.within_bind (Rel.within_insertOrFail fun _ _ _ _ => rfl) fun _ _ _ => trivial
  | verifyNoReferences k => exact Txn.within_lock_bind (Txn.within_get_bind fun _ _ => trivial)
  | activate k => exact absurd rfl (hne k)

/-- A change of the active key takes no lock. -/
theorem threadInv_activate {window : Int} : ThreadInv (KekOp.txn window) KekOp.Ok fun th =>
    ∀ k, th.op = .activate k → th.held = [] ∧
      (th.rest = KekOp.txn window (.activate k) th.began ∨ th.rest = .pure (.flag true)) where
  start op now _ k hop := by
    subst hop
    exact ⟨rfl, Or.inl rfl⟩
  read s hth k hop := by rcases (hth k hop).2 with h | h <;> cases h
  acquire hth k hop := by rcases (hth k hop).2 with h | h <;> cases h
  write hth k hop := by
    refine ⟨(hth k hop).1, Or.inr ?_⟩
    rcases (hth k hop).2 with h | h <;> cases h
    rfl

/-- Where the KEK lock is held, a transaction sees the key that is committed as active. -/
theorem activeKek_of_locked {window : Int} {c₀ : DateTime} {w : KekWorld} (hw : w.Reachable window c₀) {th : KekThread}
    (hth : th ∈ w.threads) (hlock : (.kek, .shared) ∈ th.held) (s : Store) : (th.writes s).activeKek = s.activeKek := by
  have hne : ∀ k, th.op ≠ .activate k := by
    intro k hop
    rw [(hw.forall_threads threadInv_activate th hth k hop).1] at hlock
    cases hlock
  exact (hw.forall_threads (Txn.threadInv_writes (fun op : KekOp => ∀ k, op ≠ .activate k) writeKind_keepsActive
    fun op now hop hsel => KekOp.within_keepsActive hop hsel now) th hth hne).2 s

/-! ## The check -/

/-- Where a check can be: before its lock, before its count, or done; what it found still holds while it has the
lock. -/
inductive Checking (kekId : String) (s : Store) (th : KekThread) : Prop where
  | waiting (hrest : th.rest = Db.verifyNoReferences kekId)
  | locked (hlock : (.kek, .exclusive) ∈ th.held)
      (hrest : th.rest = Txn.get >>= fun s => pure (.flag (s.references kekId == 0)))
  | done (hlock : (.kek, .exclusive) ∈ th.held) (found : Bool) (hrest : th.rest = .pure (.flag found))
      (hfound : found = true → Unreferenced kekId s)

theorem Checking.mono {s s' : Store} {th : KekThread} (hs : (.kek, .exclusive) ∈ th.held → Unreferenced kekId s → Unreferenced kekId s')
    (hth : Checking kekId s th) : Checking kekId s' th := by
  cases hth with
  | waiting hrest => exact .waiting hrest
  | locked hlock hrest => exact .locked hlock hrest
  | done hlock found hrest hfound => exact .done hlock found hrest fun ht => hs hlock (hfound ht)

/-- Beside a transaction that holds the exclusive lock, every other one is clear. -/
theorem clear_beside {window : Int} {c₀ : DateTime} {w : KekWorld} (hw : w.Reachable window c₀) {h : Held LockKey}
    (hlock : (.kek, .exclusive) ∈ h) {th : KekThread} (hth : th ∈ w.threads) (hc : Held.Compatible h th.held) :
    Clear kekId th :=
  (hw.forall_threads threadInv_clear th hth).resolve_left fun hl => hc.clash hlock hl rfl

/-- A check in flight has written nothing. -/
theorem threadInv_check {window : Int} : ThreadInv (KekOp.txn window) KekOp.Ok fun th =>
    ∀ k, th.op = .verifyNoReferences k → th.writes = id ∧ th.rest.Writes (fun _ _ => False) th.held where
  start op now _ k hop := by
    subst hop
    exact ⟨rfl, fun _ _ => trivial⟩
  read s hth k hop := ⟨(hth k hop).1, (hth k hop).2 s trivial⟩
  acquire hth k hop := hth k hop
  write hth k hop := (hth k hop).2.1.elim

theorem checking_of_reachable {window : Int} {c₀ : DateTime} {w : KekWorld} (hw : w.Reachable window c₀) :
    ∀ th ∈ w.threads, th.op = .verifyNoReferences kekId → Checking kekId w.store th := by
  induction hw with
  | init => simp
  | @step w w' hw hs _ ih =>
      have hlocks := hw.compatible
      have hwrites := hw.forall_threads threadInv_check
      cases hs with
      | tick c hc => exact ih
      | start op =>
          intro th hth hop
          rcases List.mem_cons.1 hth with rfl | hth
          · obtain rfl : op = _ := hop
            exact .waiting rfl
          · exact ih th hth hop
      | read pre post op t k d h hth =>
          rw [hth, forall_mem_middle] at ih hwrites
          refine forall_mem_middle.2 ⟨fun hop => ?_, ih.2⟩
          cases ih.1 hop with
          | waiting hrest => cases hrest
          | locked hlock hrest =>
              have hd : d = id := (hwrites.1 kekId hop).1
              cases hrest
              refine .done hlock (w.store.references kekId == 0) (by rw [hd]; rfl) fun hzero => ?_
              exact references_eq_zero.1 (by simpa using hzero)
          | done hlock found hrest hfound => cases hrest
      | acquire pre post op t key mode k d h hth hfree =>
          rw [hth, forall_mem_middle] at ih
          refine forall_mem_middle.2 ⟨fun hop => ?_, ih.2⟩
          cases ih.1 hop with
          | waiting hrest =>
              cases hrest
              exact .locked List.mem_cons_self rfl
          | locked hlock hrest => cases hrest
          | done hlock found hrest hfound => cases hrest
      | write pre post op t f k d h hth =>
          rw [hth, forall_mem_middle] at ih hwrites
          exact forall_mem_middle.2 ⟨fun hop => (hwrites.1 kekId hop).2.1.elim, ih.2⟩
      | commit pre post op t a d h hth =>
          rw [hth, forall_mem_middle] at ih
          rw [hth, pairwise_compatible_iff] at hlocks
          intro th hmem hop
          refine (ih.2 th hmem hop).mono fun hlock hun => ?_
          exact (clear_beside hw hlock (by rw [hth]; simp) (hlocks.2 th hmem).symm).writes w.store hun
      | rollback pre post th hth =>
          rw [hth, forall_mem_middle] at ih
          exact ih.2

/-- Steps after which the key is still not the active one. -/
def KekWorld.StepWithout (window : Int) (kekId : String) (w w' : KekWorld) : Prop :=
  KekWorld.Step window w w' ∧ (∀ th ∈ w'.threads, th.op.Ok) ∧ w'.store.activeKek ≠ kekId

/-- As long as a key is not active, transactions that have no payload under it get none. -/
theorem unreferenced_of_steps {window : Int} {c₀ : DateTime} {w w' : KekWorld} (hw : w.Reachable window c₀)
    (hactive : w.store.activeKek ≠ kekId) (hun : Unreferenced kekId w.store) (hclear : ∀ th ∈ w.threads, Clear kekId th)
    (hsteps : Relation.ReflTransGen (KekWorld.StepWithout window kekId) w w') : Unreferenced kekId w'.store := by
  have hall : w'.Reachable window c₀ ∧ w'.store.activeKek ≠ kekId ∧ Unreferenced kekId w'.store ∧
      ∀ th ∈ w'.threads, Clear kekId th := by
    induction hsteps with
    | refl => exact ⟨hw, hactive, hun, hclear⟩
    | @tail a b _ hstep ih =>
        obtain ⟨ha, hact, huna, hcl⟩ := ih
        obtain ⟨hs, hops, hact'⟩ := hstep
        have hb : b.Reachable window c₀ := .step ha hs hops
        refine ⟨hb, hact', ?_⟩
        cases hs with
        | tick c hc => exact ⟨huna, hcl⟩
        | start op =>
            refine ⟨huna, ?_⟩
            intro th hth
            rcases List.mem_cons.1 hth with rfl | hth
            · exact ⟨KekOp.within_addsNone (hops _ List.mem_cons_self) a.clock, fun _ hs => hs⟩
            · exact hcl th hth
        | read pre post op t k d h hth =>
            have hseen : (.kek, .shared) ∈ h → (d a.store).activeKek = a.store.activeKek := fun hl =>
              @activeKek_of_locked _ _ a ha ⟨op, t, .read k, d, h⟩ (by rw [hth]; simp) hl a.store
            rw [hth, forall_mem_middle] at hcl
            refine ⟨huna, forall_mem_middle.2 ⟨hcl.1.read fun hl => ?_, hcl.2⟩⟩
            rw [hseen hl]
            exact hact
        | acquire pre post op t key mode k d h hth hfree =>
            rw [hth, forall_mem_middle] at hcl
            exact ⟨huna, forall_mem_middle.2 ⟨hcl.1.acquire, hcl.2⟩⟩
        | write pre post op t f k d h hth =>
            rw [hth, forall_mem_middle] at hcl
            exact ⟨huna, forall_mem_middle.2 ⟨hcl.1.write, hcl.2⟩⟩
        | commit pre post op t a' d h hth =>
            rw [hth, forall_mem_middle] at hcl
            exact ⟨hcl.1.writes _ huna, hcl.2⟩
        | rollback pre post th hth =>
            rw [hth, forall_mem_middle] at hcl
            exact ⟨huna, hcl.2⟩
  exact hall.2.2.1

/-- `Keyset::open` looks the key of a payload up by its id: it finds one for every payload in a row. -/
structure Openable (keys : List String) (s : Store) : Prop where
  versions : ∀ v ∈ s.versions.rows, v.sealed.kekId ∈ keys
  requests : ∀ r ∈ s.requests.rows, ∀ id ∈ r.contextKekId, id ∈ keys

theorem Unreferenced.openable {s : Store} (h : Unreferenced kekId s) {keys : List String} (hkeys : Openable keys s) :
    Openable (keys.filter (· ≠ kekId)) s where
  versions v hv := List.mem_filter.2 ⟨hkeys.versions v hv, decide_eq_true (h.versions v hv)⟩
  requests r hr id hid := by
    refine List.mem_filter.2 ⟨hkeys.requests r hr id hid, decide_eq_true ?_⟩
    rintro rfl
    exact h.requests r hr hid

/-- At the commit of a check that finds a key unused, no committed row refers to it and no transaction in flight has a
payload sealed under it. If it is not active then or later, whatever is committed can be opened without it. -/
theorem retirement_of_reachable {window : Int} {c₀ : DateTime} {w w' : KekWorld} (hw : w.Reachable window c₀)
    (hs : KekWorld.Step window w w') (hlog : w'.log = w.log ++ [(.verifyNoReferences kekId, .flag true)]) :
    Unreferenced kekId w'.store ∧ (∀ th ∈ w'.threads, Clear kekId th) ∧
      (w'.store.activeKek ≠ kekId → ∀ w'', Relation.ReflTransGen (KekWorld.StepWithout window kekId) w' w'' →
        ∀ keys, Openable keys w''.store → Openable (keys.filter (· ≠ kekId)) w''.store) := by
  have hchecks := @checking_of_reachable kekId _ _ _ hw
  have hwrites := hw.forall_threads threadInv_check
  have hmain : Unreferenced kekId w'.store ∧ ∀ th ∈ w'.threads, Clear kekId th ∧ th.op.Ok := by
    cases hs with
    | commit pre post op t a d h hth =>
        obtain ⟨rfl, rfl⟩ : op = .verifyNoReferences kekId ∧ a = .flag true := by
          simpa using List.append_cancel_left hlog
        have hmem : ∀ th ∈ pre ++ post, th ∈ w.threads := by
          rw [hth]
          exact (forall_mem_middle.1 fun _ hm => hm).2
        rw [hth, forall_mem_middle] at hchecks hwrites
        obtain rfl : d = id := (hwrites.1 kekId rfl).1
        have hlocks := hw.compatible
        rw [hth, pairwise_compatible_iff] at hlocks
        cases hchecks.1 rfl with
        | waiting hrest => cases hrest
        | locked hlock hrest => cases hrest
        | done hlock found hrest hfound =>
            cases hrest
            refine ⟨hfound rfl, fun th hm => ⟨?_, hw.ops_ok th (hmem th hm)⟩⟩
            exact clear_beside hw hlock (hmem th hm) (hlocks.2 th hm)
    | _ => simp at hlog
  have hw' : w'.Reachable window c₀ := .step hw hs fun th hm => (hmain.2 th hm).2
  refine ⟨hmain.1, fun th hm => (hmain.2 th hm).1, fun hactive w'' hsteps keys hkeys => ?_⟩
  exact (unreferenced_of_steps hw' hactive hmain.1 (fun th hm => (hmain.2 th hm).1) hsteps).openable hkeys

/-- A check that nothing runs beside finds an unused key unused. -/
theorem exists_check {window : Int} {c₀ c : DateTime} {s : Store} {log : List (KekOp × Reply)}
    (hw : KekWorld.Reachable window c₀ ⟨s, c, log, []⟩) (hunused : s.references kekId = 0) :
    ∃ w : KekWorld, w.Reachable window c₀ ∧ w.log = log ∧
      KekWorld.Step window w ⟨s, c, log ++ [(.verifyNoReferences kekId, .flag true)], []⟩ := by
  have hok : ∀ {rest : Tx Reply} {h : Held LockKey}, ∀ th ∈ ([⟨.verifyNoReferences kekId, c, rest, id, h⟩] :
      List KekThread), th.op.Ok := by simp [KekOp.Ok]
  let found (s : Store) : Tx Reply := .pure (.flag (s.references kekId == 0))
  have hstart : KekWorld.Reachable window c₀ ⟨s, c, log, [⟨.verifyNoReferences kekId, c, .acquire .kek .exclusive (.read found),
      id, []⟩]⟩ := .step hw (.start _ _) hok
  have hlocked : KekWorld.Reachable window c₀ ⟨s, c, log, [⟨.verifyNoReferences kekId, c, .read found, id,
      [(.kek, .exclusive)]⟩]⟩ := .step hstart (.acquire _ [] [] _ _ _ _ _ _ _ rfl (by simp)) hok
  have hread : KekWorld.Reachable window c₀ ⟨s, c, log, [⟨.verifyNoReferences kekId, c,
      .pure (.flag (s.references kekId == 0)), id, [(.kek, .exclusive)]⟩]⟩ :=
    .step hlocked (.read _ [] [] _ c found id _ rfl) hok
  rw [hunused] at hread
  exact ⟨_, hread, rfl, .commit _ [] [] (KekOp.verifyNoReferences kekId) c (Reply.flag true) id _ rfl⟩

/-- A secret stored under the first key, the key changed, and the secret deleted. -/
def storedUnderFirst : List (KekOp × DateTime) :=
  [(.store (.createSecretWithVersion deployKey 4 "operator"), .ofSeconds 900), (.activate "k1", .ofSeconds 1000),
    (.store (.deleteSecretAudited 3 1 "operator"), .ofSeconds 1100)]

theorem retirement_of_reachable_unused :
    ∃ w w' : KekWorld, w.Reachable 60 (.ofSeconds 900) ∧ KekWorld.Step 60 w w' ∧ w'.store.activeKek ≠ "k0" ∧
      Unreferenced "k0" w'.store ∧ ∀ th ∈ w'.threads, Clear "k0" th := by
  have hrun := run_play (fun op now => (KekOp.txn 60 op now).run) .empty (.ofSeconds 900) storedUnderFirst (by decide)
  have hops : ∀ e ∈ play (fun op now => (KekOp.txn 60 op now).run) .empty storedUnderFirst, e.op.Ok := by
    simp [storedUnderFirst, play, callEvent, KekOp.Ok, StoreOp.attempts]
  obtain ⟨log, hw⟩ := hrun.reachable hops
  have hend : (playEnd (fun op now => (KekOp.txn 60 op now).run) .empty storedUnderFirst).references "k0" = 0 ∧
      (playEnd (fun op now => (KekOp.txn 60 op now).run) .empty storedUnderFirst).activeKek ≠ "k0" := by decide +kernel
  obtain ⟨w, hreach, hlog, hstep⟩ := exists_check hw hend.1
  obtain ⟨hun, hclear, -⟩ := retirement_of_reachable hreach hstep (by rw [hlog])
  exact ⟨w, _, hreach, hstep, hend.2, hun, hclear⟩

end Keychute.Db
