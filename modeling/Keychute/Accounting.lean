import Keychute.Db.Ops

/-!
# Accounting of grant uses

* `GrantRow.Evolves` : what a call can leave of a grant. Its terms stay, a revocation stays, the count only grows
  (`grant_step`, `grant_run`);
* `use_accounting` : over every run of the store, the count of a grant is the number of its first uses and within its
  cap, a key is used first at most once, a dead grant releases nothing, and every release is audited.
-/

namespace Keychute.Db
open Keychute.Lib

abbrev StoreEvent : Type := Event StoreOp DateTime Store (Except DbError Reply)

abbrev StoreRun (window : Int) : Store → DateTime → List StoreEvent → Store → DateTime → Prop :=
  Run (StoreOp.step window)

/-! ## One grant, call after call -/

/-- A later state of the same grant. -/
structure GrantRow.Evolves (g g' : GrantRow) : Prop where
  id : g'.id = g.id
  requestId : g'.requestId = g.requestId
  clientName : g'.clientName = g.clientName
  secretName : g'.secretName = g.secretName
  mechanism : g'.mechanism = g.mechanism
  notAfter : g'.notAfter = g.notAfter
  maxUses : g'.maxUses = g.maxUses
  ephemeral : g'.passthroughEphemeral = g.passthroughEphemeral
  revoked : g.revoked = true → g'.revoked = true
  useCount : g.useCount ≤ g'.useCount

namespace GrantRow.Evolves
variable {g g' g'' : GrantRow}

theorem refl (g : GrantRow) : g.Evolves g := ⟨rfl, rfl, rfl, rfl, rfl, rfl, rfl, rfl, fun h => h, le_refl _⟩

theorem trans (h : g.Evolves g') (h' : g'.Evolves g'') : g.Evolves g'' where
  id := h'.id.trans h.id
  requestId := h'.requestId.trans h.requestId
  clientName := h'.clientName.trans h.clientName
  secretName := h'.secretName.trans h.secretName
  mechanism := h'.mechanism.trans h.mechanism
  notAfter := h'.notAfter.trans h.notAfter
  maxUses := h'.maxUses.trans h.maxUses
  ephemeral := h'.ephemeral.trans h.ephemeral
  revoked := h'.revoked ∘ h.revoked
  useCount := h.useCount.trans h'.useCount

theorem bump (g : GrantRow) : g.Evolves g.bump where
  __ := refl g
  useCount := by simp only [GrantRow.bump]; omega

theorem revoke (g : GrantRow) : g.Evolves g.revoke := { refl g with revoked := fun _ => rfl }

theorem purged (g : GrantRow) : g.Evolves g.purged := { refl g with }

/-- Not live stays not live. -/
theorem dead (h : g.Evolves g') {t t' : DateTime} (ht : t ≤ t') (hd : g.live t = false) : g'.live t' = false := by
  unfold GrantRow.live at hd ⊢
  rw [Bool.and_eq_false_iff, decide_eq_false_iff_not, not_lt] at hd ⊢
  rcases hd with hr | hexp
  · refine Or.inl ?_
    rw [h.revoked (by simpa using hr)]
    rfl
  · rw [h.notAfter]
    exact Or.inr (hexp.trans ht)

end GrantRow.Evolves

section
variable {window : Int} {op : StoreOp} {now : DateTime} {s s' : Store} {r : Reply}

theorem usesGrant_unique {id id' : Uuid} (h : op.usesGrant id = true) (h' : op.usesGrant id' = true) : id = id' := by
  cases op with
  | beginGrantUse grantId idemKey versionId kind target =>
      simp only [StoreOp.usesGrant, beq_iff_eq] at h h'
      exact h.symm.trans h'
  | _ => cases h

/-- What a commit leaves of a grant, and how it counts. -/
theorem grant_step (h : (op.txn window now).exec s = .ok (r, s')) {g : GrantRow} (hg : g ∈ s.grants.rows) :
    ∃ g' ∈ s'.grants.rows, g.Evolves g' ∧
      g'.useCount = g.useCount + if op.usesGrant g.id && r.firstUse then 1 else 0 := by
  cases (commit_step h).grants with
  | same hr heq =>
      refine ⟨g, by rwa [heq], .refl g, ?_⟩
      simp [hr]
  | used g₁ hg₁ hop hlive hleft hr heq =>
      refine ⟨_, by rw [heq]; exact Table.mem_update.2 ⟨g, hg, rfl⟩, ?_⟩
      by_cases hid : g.id = g₁.id
      · rw [if_pos (by simp [hid])]
        refine ⟨.bump g, ?_⟩
        rw [hid, hop, hr]
        rfl
      · rw [if_neg (by simp [hid])]
        refine ⟨.refl g, ?_⟩
        have hother : op.usesGrant g.id = false := by
          by_contra hne
          exact hid (usesGrant_unique (by simpa using hne) hop)
        simp [hother]
  | revoked hr p heq =>
      refine ⟨_, by rw [heq]; exact Table.mem_update.2 ⟨g, hg, rfl⟩, ?_⟩
      rw [hr, Bool.and_false]
      cases p g with
      | true => exact ⟨.revoke g, by simp [GrantRow.revoke, GrantRow.purged]⟩
      | false => exact ⟨.refl g, by simp⟩
  | purged hr heq =>
      refine ⟨_, by rw [heq]; exact Table.mem_update.2 ⟨g, hg, rfl⟩, ?_⟩
      rw [hr, Bool.and_false]
      cases s.purgeable window now g with
      | true => exact ⟨.purged g, by simp [GrantRow.purged]⟩
      | false => exact ⟨.refl g, by simp⟩
  | minted hr row hm hfresh heq =>
      refine ⟨g, by rw [heq]; exact Table.mem_insert_of_mem hg, .refl g, ?_⟩
      simp [hr]

/-- The call released something under the grant. -/
def Reply.released : Reply → Bool
  | .grantUse (.firstUse _) => true
  | .grantUse (.replay _ _ _) => true
  | _ => false

theorem released_of_error {grantId : Uuid} {r : Except DbError Reply} (hop : op.usesGrant grantId = true)
    (h : (op.txn window now).exec s = .error r) : r.toOption.any Reply.released = false := by
  cases op with
  | beginGrantUse id idemKey versionId kind target =>
      obtain rfl | rfl | rfl | rfl := beginGrantUse_error h <;> rfl
  | _ => cases hop

theorem not_firstUse_of_error {grantId : Uuid} {r : Except DbError Reply} (hop : op.usesGrant grantId = true)
    (h : (op.txn window now).exec s = .error r) : r.toOption.any Reply.firstUse = false := by
  cases op with
  | beginGrantUse id idemKey versionId kind target =>
      obtain rfl | rfl | rfl | rfl := beginGrantUse_error h <;> rfl
  | _ => cases hop

/-- The call is a first use of the grant. -/
def isFirstUse (grantId : Uuid) (e : StoreEvent) : Bool :=
  e.op.usesGrant grantId && e.reply.toOption.any Reply.firstUse

/-- What a call leaves of a grant, whether it commits or not. -/
theorem grant_call (window : Int) (op : StoreOp) (now : DateTime) {g : GrantRow} (hg : g ∈ s.grants.rows) :
    ∃ g' ∈ (op.step window now s).1.grants.rows, g.Evolves g' ∧
      (g'.useCount = g.useCount + if isFirstUse g.id (callEvent (StoreOp.step window) op now s) then 1 else 0) := by
  rcases op.step_cases window now s with ⟨r, s', hexec, hstep⟩ | ⟨r, hexec, hstep⟩
  · obtain ⟨g', hg', hev, hcount⟩ := grant_step hexec hg
    refine ⟨g', by rw [hstep]; exact hg', hev, ?_⟩
    rw [hcount, isFirstUse, callEvent, hstep]
    rfl
  · refine ⟨g, by rw [hstep]; exact hg, .refl g, ?_⟩
    have hnot : isFirstUse g.id (callEvent (StoreOp.step window) op now s) = false := by
      rw [isFirstUse, callEvent, hstep]
      by_contra hne
      rw [Bool.not_eq_false, Bool.and_eq_true] at hne
      exact absurd hne.2 (by rw [not_firstUse_of_error hne.1 hexec]; exact Bool.false_ne_true)
    rw [hnot]
    simp

/-- What a run leaves of a grant. -/
theorem grant_run {s₀ : Store} {t₀ t : DateTime} {es : List StoreEvent} (h : StoreRun window s₀ t₀ es s t)
    {g₀ : GrantRow} (hg₀ : g₀ ∈ s₀.grants.rows) :
    ∃ g ∈ s.grants.rows, g₀.Evolves g ∧ g.useCount = g₀.useCount + es.countP (isFirstUse g₀.id) := by
  induction h with
  | nil => exact ⟨g₀, hg₀, .refl g₀, by simp⟩
  | @call es s t op now hrun hle ih =>
      obtain ⟨g, hg, hev, hcount⟩ := ih
      obtain ⟨g', hg', hev', hcount'⟩ := grant_call window op now hg
      refine ⟨g', hg', hev.trans hev', ?_⟩
      rw [hcount', hcount, hev.id, List.countP_append, List.countP_singleton]
      split
      · push_cast
        omega
      · push_cast
        omega

/-! ## Keys -/

/-- The call uses the grant under this key. -/
def StoreOp.usesKey (grantId : Uuid) (key : String) : StoreOp → Bool
  | .beginGrantUse id (some k) _ _ _ => id == grantId && k == key
  | _ => false

theorem StoreOp.usesKey_eq_true {grantId : Uuid} {key : String} (h : op.usesKey grantId key = true) :
    ∃ versionId kind target, op = .beginGrantUse grantId (some key) versionId kind target := by
  unfold StoreOp.usesKey at h
  split at h
  · simp only [Bool.and_eq_true, beq_iff_eq] at h
    obtain ⟨rfl, rfl⟩ := h
    exact ⟨_, _, _, rfl⟩
  · cases h

/-- The call is a first use of the grant under this key. -/
def isFirstUseWith (grantId : Uuid) (key : String) (e : StoreEvent) : Bool :=
  e.op.usesKey grantId key && e.reply.toOption.any Reply.firstUse

/-- Replay records stay. -/
theorem read_step (h : (op.txn window now).exec s = .ok (r, s')) {row : GrantReadRow} (hrow : row ∈ s.reads.rows) :
    ∃ row' ∈ s'.reads.rows, row'.grantId = row.grantId ∧ row'.idemKey = row.idemKey := by
  cases (commit_step h).reads with
  | same heq => exact ⟨row, by rwa [heq], rfl, rfl⟩
  | unpinned heq =>
      refine ⟨_, by rw [heq]; exact Table.mem_update.2 ⟨row, hrow, rfl⟩, ?_⟩
      split <;> exact ⟨rfl, rfl⟩
  | recorded g key versionId hg hop hnone heq =>
      exact ⟨row, by rw [heq]; exact Table.mem_insert_of_mem hrow, rfl, rfl⟩

theorem findRead_isSome {grantId : Uuid} {key : String} :
    (s.findRead grantId key).isSome = true ↔ ∃ row ∈ s.reads.rows, row.grantId = grantId ∧ row.idemKey = key := by
  rw [Option.isSome_iff_exists]
  simp only [findRead_eq_some]

/-- A key is used first only where it has no record, and has one afterwards. -/
theorem firstUse_key {grantId : Uuid} {key : String} (hop : op.usesKey grantId key = true) (hr : r.firstUse = true)
    (h : (op.txn window now).exec s = .ok (r, s')) :
    s.findRead grantId key = none ∧ (s'.findRead grantId key).isSome = true := by
  obtain ⟨versionId, kind, target, rfl⟩ := StoreOp.usesKey_eq_true hop
  obtain ⟨g, hg, _, ⟨_, _, _, rfl, rfl⟩ | ⟨hnone, _, _, rfl⟩⟩ := beginGrantUse_ok h
  · cases hr
  · obtain rfl := (findGrant_eq_some.1 hg).2
    refine ⟨hnone, ?_⟩
    rw [findRead_isSome]
    exact ⟨_, Table.mem_insert_self (fresh_read hnone versionId g.passthroughCiphertext.isSome now), rfl, rfl⟩

/-- A key that was used first has a record, and was so only once. -/
theorem firstUse_once {s₀ : Store} {t₀ t : DateTime} {es : List StoreEvent} (h : StoreRun window s₀ t₀ es s t)
    (grantId : Uuid) (key : String) :
    es.countP (isFirstUseWith grantId key) ≤ 1 ∧
      (0 < es.countP (isFirstUseWith grantId key) → (s.findRead grantId key).isSome = true) := by
  induction h with
  | nil => simp
  | @call es s t op now hrun hle ih =>
      rw [List.countP_append, List.countP_singleton]
      rcases op.step_cases window now s with ⟨r, s', hexec, hstep⟩ | ⟨r, hexec, hstep⟩
      · have hkeep : (s.findRead grantId key).isSome = true → (s'.findRead grantId key).isSome = true := by
          intro hsome
          obtain ⟨row, hrow, hid, hkey⟩ := findRead_isSome.1 hsome
          obtain ⟨row', hrow', hid', hkey'⟩ := read_step hexec hrow
          exact findRead_isSome.2 ⟨row', hrow', hid'.trans hid, hkey'.trans hkey⟩
        have hev : isFirstUseWith grantId key (callEvent (StoreOp.step window) op now s) =
            (op.usesKey grantId key && r.firstUse) := by
          rw [isFirstUseWith, callEvent, hstep]
          rfl
        rw [hstep, hev]
        by_cases hfirst : op.usesKey grantId key = true ∧ r.firstUse = true
        · -- no first use under the key so far: it would have left a record
          obtain ⟨hnone, hsome⟩ := firstUse_key hfirst.1 hfirst.2 hexec
          have hzero : es.countP (isFirstUseWith grantId key) = 0 := by
            by_contra hne
            have := ih.2 (Nat.pos_of_ne_zero hne)
            rw [hnone] at this
            cases this
          rw [hzero, hfirst.1, hfirst.2]
          exact ⟨le_refl _, fun _ => hsome⟩
        · have hfalse : (op.usesKey grantId key && r.firstUse) = false := by
            rw [← Bool.not_eq_true, Bool.and_eq_true]
            exact hfirst
          rw [hfalse]
          exact ⟨ih.1, fun hpos => hkeep (ih.2 hpos)⟩
      · have hev : isFirstUseWith grantId key (callEvent (StoreOp.step window) op now s) = false := by
          by_contra hne
          rw [Bool.not_eq_false, isFirstUseWith, callEvent, hstep, Bool.and_eq_true] at hne
          have huse : op.usesGrant grantId = true := by
            obtain ⟨_, _, _, hop⟩ := StoreOp.usesKey_eq_true hne.1
            rw [show op = _ from hop]
            exact beq_self_eq_true grantId
          exact absurd hne.2 (by rw [not_firstUse_of_error huse hexec]; exact Bool.false_ne_true)
        rw [hstep, hev]
        exact ⟨ih.1, ih.2⟩

/-! ## Every use of one grant, over every run -/

/-- The kind of attempt a call makes on the grant. -/
def StoreOp.attemptOn (grantId : Uuid) : StoreOp → Option AuditKind
  | .beginGrantUse id _ _ kind _ => if id == grantId then some kind else none
  | _ => none

/-- The grant is there, and revoked or past its deadline. -/
def Store.dead (s : Store) (grantId : Uuid) (now : DateTime) : Bool :=
  (s.findGrant grantId).any fun g => g.revoked || decide (g.notAfter ≤ now)

/-- What holds of a grant `g₀` after the calls `es`, which left `s`. -/
structure Accounted (g₀ : GrantRow) (es : List StoreEvent) (s : Store) : Prop where
  counted : ∃ g, s.findGrant g₀.id = some g ∧ g.useCount = es.countP (isFirstUse g₀.id) ∧
    g.maxUses = g₀.maxUses ∧ ∀ m ∈ g.maxUses, g.useCount ≤ m
  once : ∀ key, es.countP (isFirstUseWith g₀.id key) ≤ 1
  replayed : ∀ e ∈ es, e.op.usesGrant g₀.id = true → (∃ g v p, e.reply = .ok (.grantUse (.replay g v p))) →
    (e.after.findGrant g₀.id).map (·.useCount) = (e.before.findGrant g₀.id).map (·.useCount)
  dead_now : ∀ e ∈ es, e.op.usesGrant g₀.id = true → e.before.dead g₀.id e.now = true →
    e.reply = .ok (.grantUse .expiredOrRevoked)
  dead_later : es.Pairwise fun e e' => e.after.dead g₀.id e.now = true → e'.op.usesGrant g₀.id = true →
    e'.reply = .ok (.grantUse .expiredOrRevoked)
  audited : ∀ e ∈ es, ∀ kind, e.op.attemptOn g₀.id = some kind →
    if e.reply.toOption.any Reply.released then
      ∃ row, row.kind = kind ∧ row.grantId = some g₀.id ∧ e.after.audit = e.before.audit ++ [row]
    else e.after = e.before

theorem GrantRow.live_eq_false {g : GrantRow} : g.live now = false ↔ (g.revoked || decide (g.notAfter ≤ now)) = true := by
  unfold GrantRow.live
  rw [Bool.and_eq_false_iff, decide_eq_false_iff_not, not_lt, Bool.or_eq_true, decide_eq_true_eq]
  simp

theorem Store.dead_iff {grantId : Uuid} :
    s.dead grantId now = true ↔ ∃ g, s.findGrant grantId = some g ∧ g.live now = false := by
  unfold Store.dead
  rw [Option.any_eq_true]
  simp only [GrantRow.live_eq_false]

theorem usesGrant_eq_true {grantId : Uuid} (h : op.usesGrant grantId = true) :
    ∃ idemKey versionId kind target, op = .beginGrantUse grantId idemKey versionId kind target := by
  cases op with
  | beginGrantUse id idemKey versionId kind target =>
      simp only [StoreOp.usesGrant, beq_iff_eq] at h
      subst h
      exact ⟨_, _, _, _, rfl⟩
  | _ => cases h

/-- A dead grant releases nothing. -/
theorem reply_of_dead {grantId : Uuid} (hop : op.usesGrant grantId = true) (hd : s.dead grantId now = true) :
    (op.step window now s).2 = .ok (.grantUse .expiredOrRevoked) := by
  obtain ⟨idemKey, versionId, kind, target, rfl⟩ := usesGrant_eq_true hop
  obtain ⟨g, hg, hlive⟩ := Store.dead_iff.1 hd
  have hexec : (beginGrantUse grantId idemKey versionId kind window target now).exec s =
      .error (.ok (.grantUse .expiredOrRevoked)) := by
    rw [exec_beginGrantUse]
    simp [hg, hlive]
  simp only [StoreOp.step, StoreOp.txn, Txn.run, hexec]

/-- A grant stays dead. -/
theorem dead_run {s₀ : Store} {t₀ t t' : DateTime} {es : List StoreEvent} (h : StoreRun window s₀ t₀ es s t)
    {grantId : Uuid} (hd : s₀.dead grantId t₀ = true) (ht : t ≤ t') : s.dead grantId t' = true := by
  obtain ⟨g₀, hg₀, hlive⟩ := Store.dead_iff.1 hd
  obtain ⟨hmem, hid⟩ := findGrant_eq_some.1 hg₀
  obtain ⟨g, hg, hev, -⟩ := grant_run h hmem
  rw [Store.dead_iff]
  exact ⟨g, findGrant_eq_some.2 ⟨hg, hev.id.trans hid⟩, hev.dead (h.le.trans ht) hlive⟩

/-- Every use that releases is audited by one row, and no other use writes anything. -/
theorem use_audited {grantId : Uuid} {kind : AuditKind} (hop : op.attemptOn grantId = some kind) :
    if (op.step window now s).2.toOption.any Reply.released then
      ∃ row, row.kind = kind ∧ row.grantId = some grantId ∧ (op.step window now s).1.audit = s.audit ++ [row]
    else (op.step window now s).1 = s := by
  cases op with
  | beginGrantUse id idemKey versionId kind' target =>
      simp only [StoreOp.attemptOn, Option.ite_none_right_eq_some, beq_iff_eq, Option.some.injEq] at hop
      obtain ⟨rfl, rfl⟩ := hop
      rcases StoreOp.step_cases window (.beginGrantUse id idemKey versionId kind' target) now s with
        ⟨r, s', hexec, hstep⟩ | ⟨r, hexec, hstep⟩
      · rw [hstep]
        obtain ⟨g, hg, _, ⟨_, _, _, rfl, rfl⟩ | ⟨_, _, rfl, rfl⟩⟩ := beginGrantUse_ok hexec
        · obtain rfl := (findGrant_eq_some.1 hg).2
          exact ⟨_, rfl, rfl, rfl⟩
        · obtain rfl := (findGrant_eq_some.1 hg).2
          exact ⟨_, rfl, rfl, rfl⟩
      · have huse : (StoreOp.beginGrantUse id idemKey versionId kind' target).usesGrant id = true := by
          simp [StoreOp.usesGrant]
        rw [hstep, released_of_error huse hexec]
        rfl
  | _ => cases hop

/-- A first use is only accounted while the grant is live and uses are left. -/
theorem usesLeft_of_firstUse {g : GrantRow} (hg : g ∈ s.grants.rows) (hop : op.usesGrant g.id = true)
    (hr : (op.step window now s).2.toOption.any Reply.firstUse = true) : g.live now = true ∧ g.usesLeft = true := by
  rcases op.step_cases window now s with ⟨r, s', hexec, hstep⟩ | ⟨r, hexec, hstep⟩
  · rw [hstep] at hr
    obtain ⟨idemKey, versionId, kind, target, rfl⟩ := usesGrant_eq_true hop
    obtain ⟨g', hg', hlive, ⟨_, _, _, rfl, rfl⟩ | ⟨_, hleft, rfl, rfl⟩⟩ := beginGrantUse_ok hexec
    · cases hr
    · obtain ⟨hmem, hid⟩ := findGrant_eq_some.1 hg'
      rw [findGrant_unique hg hmem hid.symm]
      exact ⟨hlive, hleft⟩
  · rw [hstep, not_firstUse_of_error hop hexec] at hr
    cases hr

theorem useCount_le {s₀ : Store} {t₀ t : DateTime} {es : List StoreEvent} (h : StoreRun window s₀ t₀ es s t)
    {g₀ : GrantRow} (hg₀ : g₀ ∈ s₀.grants.rows) {m : Int} (hmax : g₀.maxUses = some m) (hle₀ : g₀.useCount ≤ m) :
    ∀ g ∈ s.grants.rows, g.id = g₀.id → g.useCount ≤ m := by
  induction h with
  | nil =>
      intro g hg hid
      rw [findGrant_unique hg hg₀ hid]
      exact hle₀
  | @call es s t op now hrun hle ih =>
      intro g' hg' hid'
      obtain ⟨g, hg, hev, -⟩ := grant_run hrun hg₀
      obtain ⟨g'', hg'', hev', hcount⟩ := grant_call window op now hg
      have hsame : g' = g'' := findGrant_unique hg' hg'' (hid'.trans (hev'.id.trans hev.id).symm)
      subst hsame
      have hm := ih g hg hev.id
      rw [hcount]
      split
      · rename_i hfirst
        -- a first use is only accounted while uses are left
        have hleft : g.usesLeft = true := by
          rw [isFirstUse, Bool.and_eq_true] at hfirst
          exact (usesLeft_of_firstUse hg hfirst.1 hfirst.2).2
        rw [GrantRow.usesLeft, hev.maxUses, hmax, Option.all_some, decide_eq_true_eq] at hleft
        omega
      · omega

/-- The accounting of a grant that was created with no use, over every run of the store. -/
theorem use_accounting {s₀ : Store} {t₀ t : DateTime} {es : List StoreEvent} (hrun : StoreRun window s₀ t₀ es s t)
    {g₀ : GrantRow} (hg₀ : g₀ ∈ s₀.grants.rows) (hcount : g₀.useCount = 0) (hmax : ∀ m ∈ g₀.maxUses, 0 ≤ m) :
    Accounted g₀ es s := by
  obtain ⟨g, hg, hev, hg_count⟩ := grant_run hrun hg₀
  refine ⟨?_, ?_, ?_, ?_, ?_, ?_⟩
  · refine ⟨g, findGrant_eq_some.2 ⟨hg, hev.id⟩, by rw [hg_count, hcount]; omega, hev.maxUses, ?_⟩
    intro m hm
    rw [hev.maxUses] at hm
    exact useCount_le hrun hg₀ hm (by rw [hcount]; exact hmax m hm) g hg hev.id
  · intro key
    exact (firstUse_once hrun g₀.id key).1
  · intro e he huse hreplay
    obtain ⟨es₁, t₁, hbefore, -, -, hcall⟩ := hrun.forall_event he
    obtain ⟨g₁, hg₁, hev₁, -⟩ := grant_run hbefore hg₀
    obtain ⟨g₂, hg₂, hev₂, hcount₂⟩ := grant_call window e.op e.now hg₁
    have hnot : isFirstUse g₁.id (callEvent (StoreOp.step window) e.op e.now e.before) = false := by
      rw [← hcall, isFirstUse]
      obtain ⟨_, _, _, hrep⟩ := hreplay
      rw [hrep]
      exact Bool.and_false _
    have hafter : e.after = (e.op.step window e.now e.before).1 := by rw [hcall]; rfl
    rw [findGrant_eq_some.2 ⟨hg₁, hev₁.id⟩, hafter, findGrant_eq_some.2 ⟨hg₂, hev₂.id.trans hev₁.id⟩,
      Option.map_some, Option.map_some, hcount₂, hnot]
    simp
  · intro e he huse hd
    obtain ⟨_, _, -, -, -, hcall⟩ := hrun.forall_event he
    rw [hcall]
    exact reply_of_dead huse hd
  · refine hrun.pairwise.imp ?_
    intro e e' ⟨es', t', _, hrun', hle, hcall⟩ hd huse
    rw [hcall]
    exact reply_of_dead huse (dead_run hrun' hd hle)
  · intro e he kind hop
    obtain ⟨_, _, -, -, -, hcall⟩ := hrun.forall_event he
    rw [hcall]
    exact use_audited hop

end

/-- A grant of two uses, for a quarter of an hour. -/
def twoUses : GrantRow where
  id := 7
  requestId := 5
  clientName := "agent"
  secretName := "deploy-key"
  mechanism := "release"
  constraints := ⟨[], [], [], 900, some 2⟩
  notAfter := .ofSeconds 1900
  maxUses := some 2
  useCount := 0
  revoked := false
  passthroughCiphertext := none
  passthroughNonce := none
  passthroughWrappedDek := none
  passthroughEphemeral := false
  createdAt := .ofSeconds 1000

def twoUsesStart : Store := { Store.empty with grants := Table.empty.insert twoUses }

/-- The same key three times: first, within its replay window of a minute, and after it has closed. -/
def threeCalls : List (StoreOp × DateTime) :=
  [.ofSeconds 1100, .ofSeconds 1130, .ofSeconds 1300].map fun now =>
    (.beginGrantUse 7 (some "k") (some 9) .releaseAttempt none, now)

theorem use_accounting_three :
    twoUses ∈ twoUsesStart.grants.rows ∧
      Accounted twoUses (play (StoreOp.step 60) twoUsesStart threeCalls)
        (playEnd (StoreOp.step 60) twoUsesStart threeCalls) := by
  have hmem : twoUses ∈ twoUsesStart.grants.rows := Table.mem_insert_self (fun a ha => by cases ha)
  have hrun := run_play (StoreOp.step 60) twoUsesStart (.ofSeconds 1000) threeCalls (by decide)
  refine ⟨hmem, use_accounting hrun hmem rfl ?_⟩
  intro m hm
  cases hm
  decide

end Keychute.Db
