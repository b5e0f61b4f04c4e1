import Keychute.Lib.Table
import Keychute.Lib.Txn

/-!
# Statements on tables, at the isolation level `READ COMMITTED`

A statement that changes rows scans the committed rows (and the transaction's own) for those that satisfy its
condition, waits for the lock of each, evaluates the condition again on what is there by then, and changes the rows
that still satisfy it. An insertion waits for the locks of its unique keys. The locks are held to commit.

Run alone (`exec_updateOrFail`, `exec_deleteWhere`, `exec_insertOnConflict`, `exec_insertOrFail`) a statement changes
exactly the rows that satisfy its condition; under interference each has a rule for `Txn.wp`.
-/

namespace Keychute.Lib
open Txn

/-- A table of the database, with the locks of its rows and of their unique keys. -/
structure Rel (σ κ : Type) {ρ : Type} (u : Keys ρ) where
  get : σ → Table u
  set : σ → Table u → σ
  rowLock : ρ → κ
  keyLocks : ρ → List κ

variable {σ κ ε ρ : Type} [DecidableEq κ] {u : Keys ρ}

namespace Rel

/-- The rows a statement with condition `p` acts on, once it holds the locks in `keys`. -/
def hit (R : Rel σ κ u) (p : ρ → Bool) (keys : List κ) (r : ρ) : Bool := p r && keys.contains (R.rowLock r)

/-- `SELECT .. WHERE p FOR UPDATE`. -/
def selectForUpdate (R : Rel σ κ u) (p : ρ → Bool) : Txn σ κ ε (List ρ) := do
  let s ← Txn.get
  let keys := ((R.get s).rows.filter p).map R.rowLock
  lockAll keys
  let s ← Txn.get
  return (R.get s).rows.filter (R.hit p keys)

/-- `UPDATE .. SET f WHERE p RETURNING *`; `bad` is the error that computing the new values of a row raises. -/
def updateOrFail (R : Rel σ κ u) (p : ρ → Bool) (bad : ρ → Option ε) (f : ρ → ρ) (hf : ∀ r, u.key (f r) = u.key r) :
    Txn σ κ ε (List ρ) := do
  let s ← Txn.get
  let keys := ((R.get s).rows.filter p).map R.rowLock
  lockAll keys
  let s ← Txn.get
  let rows := (R.get s).rows.filter (R.hit p keys)
  match rows.findSome? bad with
  | some e => .abort e
  | none =>
    modify fun s => R.set s ((R.get s).update (R.hit p keys) f hf)
    return rows.map f

def updateWhere (R : Rel σ κ u) (p : ρ → Bool) (f : ρ → ρ) (hf : ∀ r, u.key (f r) = u.key r) : Txn σ κ ε (List ρ) :=
  R.updateOrFail p (fun _ => none) f hf

/-- `DELETE .. WHERE p`. -/
def deleteWhere (R : Rel σ κ u) (p : ρ → Bool) : Txn σ κ ε (List ρ) := do
  let s ← Txn.get
  let keys := ((R.get s).rows.filter p).map R.rowLock
  lockAll keys
  let s ← Txn.get
  modify fun s => R.set s ((R.get s).delete (R.hit p keys))
  return (R.get s).rows.filter (R.hit p keys)

/-- `INSERT .. ON CONFLICT .. DO NOTHING`, where `arbiter` finds the rows that conflict; `e` is the violation of
another unique key. -/
def insertOnConflict (R : Rel σ κ u) (r : ρ) (arbiter : ρ → Bool) (e : ε) : Txn σ κ ε Bool := do
  lockAll (R.keyLocks r)
  let s ← Txn.get
  if (R.get s).rows.any arbiter then return false
  else if (R.get s).rows.any (u.clashes · r) then .abort e
  else
    modify fun s => R.set s ((R.get s).insert r)
    return true

/-- `INSERT`. -/
def insertOrFail (R : Rel σ κ u) (r : ρ) (e : ε) : Txn σ κ ε Unit := do
  lockAll (R.keyLocks r)
  let s ← Txn.get
  if (R.get s).rows.any (u.clashes · r) then .abort e
  else modify fun s => R.set s ((R.get s).insert r)

/-! ## Run alone -/

theorem hit_scanned (R : Rel σ κ u) (p : ρ → Bool) {t : Table u} {r : ρ} (hr : r ∈ t.rows) :
    R.hit p ((t.rows.filter p).map R.rowLock) r = p r := by
  unfold hit
  cases hp : p r with
  | false => rfl
  | true =>
      rw [Bool.true_and, List.contains_iff_mem]
      exact List.mem_map.2 ⟨r, List.mem_filter.2 ⟨hr, hp⟩, rfl⟩

theorem filter_hit (R : Rel σ κ u) (p : ρ → Bool) (t : Table u) :
    t.rows.filter (R.hit p ((t.rows.filter p).map R.rowLock)) = t.rows.filter p :=
  List.filter_congr fun _ hr => R.hit_scanned p hr

theorem update_hit (R : Rel σ κ u) (p : ρ → Bool) (f : ρ → ρ) (hf : ∀ r, u.key (f r) = u.key r) (t : Table u) :
    t.update (R.hit p ((t.rows.filter p).map R.rowLock)) f hf = t.update p f hf :=
  Table.update_congr fun _ hr => R.hit_scanned p hr

theorem delete_hit (R : Rel σ κ u) (p : ρ → Bool) (t : Table u) :
    t.delete (R.hit p ((t.rows.filter p).map R.rowLock)) = t.delete p := by
  apply Table.ext
  rw [Table.delete_rows, Table.delete_rows]
  apply List.filter_congr
  intro r hr
  rw [R.hit_scanned p hr]

@[simp] theorem exec_selectForUpdate (R : Rel σ κ u) (p : ρ → Bool) (s : σ) :
    (R.selectForUpdate p : Txn σ κ ε (List ρ)).exec s = .ok ((R.get s).rows.filter p, s) := by
  simp [selectForUpdate, filter_hit]

@[simp] theorem exec_updateOrFail (R : Rel σ κ u) (p : ρ → Bool) (bad : ρ → Option ε) (f : ρ → ρ)
    (hf : ∀ r, u.key (f r) = u.key r) (s : σ) :
    (R.updateOrFail p bad f hf).exec s = match ((R.get s).rows.filter p).findSome? bad with
      | some e => .error e
      | none => .ok (((R.get s).rows.filter p).map f, R.set s ((R.get s).update p f hf)) := by
  simp only [updateOrFail, exec_bind, exec_get, exec_lockAll, filter_hit]
  split <;> simp [update_hit]

@[simp] theorem exec_updateWhere (R : Rel σ κ u) (p : ρ → Bool) (f : ρ → ρ) (hf : ∀ r, u.key (f r) = u.key r) (s : σ) :
    (R.updateWhere p f hf : Txn σ κ ε (List ρ)).exec s =
      .ok (((R.get s).rows.filter p).map f, R.set s ((R.get s).update p f hf)) := by
  have hnone : ((R.get s).rows.filter p).findSome? (fun _ => (none : Option ε)) = none := by simp
  rw [updateWhere, exec_updateOrFail, hnone]

@[simp] theorem exec_deleteWhere (R : Rel σ κ u) (p : ρ → Bool) (s : σ) :
    (R.deleteWhere p : Txn σ κ ε (List ρ)).exec s =
      .ok ((R.get s).rows.filter p, R.set s ((R.get s).delete p)) := by
  simp [deleteWhere, filter_hit, delete_hit]

omit [DecidableEq κ] in
@[simp] theorem exec_insertOnConflict (R : Rel σ κ u) (r : ρ) (arbiter : ρ → Bool) (e : ε) (s : σ) :
    (R.insertOnConflict r arbiter e).exec s =
      if (R.get s).rows.any arbiter then .ok (false, s)
      else if (R.get s).rows.any (u.clashes · r) then .error e
      else .ok (true, R.set s ((R.get s).insert r)) := by
  simp only [insertOnConflict, exec_bind, exec_get, exec_lockAll]
  split_ifs <;> simp

omit [DecidableEq κ] in
@[simp] theorem exec_insertOrFail (R : Rel σ κ u) (r : ρ) (e : ε) (s : σ) :
    (R.insertOrFail r e).exec s =
      if (R.get s).rows.any (u.clashes · r) then .error e else .ok ((), R.set s ((R.get s).insert r)) := by
  simp only [insertOrFail, exec_bind, exec_get, exec_lockAll]
  split_ifs <;> simp

/-! ### What a commit went through -/

theorem exec_selectForUpdate_eq_ok {R : Rel σ κ u} {p : ρ → Bool} {s s' : σ} {rows : List ρ} :
    (R.selectForUpdate p : Txn σ κ ε (List ρ)).exec s = .ok (rows, s') ↔ (R.get s).rows.filter p = rows ∧ s = s' := by
  rw [exec_selectForUpdate, Except.ok.injEq, Prod.mk.injEq]

theorem exec_updateOrFail_eq_ok {R : Rel σ κ u} {p : ρ → Bool} {bad : ρ → Option ε} {f : ρ → ρ}
    {hf : ∀ r, u.key (f r) = u.key r} {s s' : σ} {rows : List ρ} :
    (R.updateOrFail p bad f hf).exec s = .ok (rows, s') ↔
      (∀ r ∈ (R.get s).rows, p r = true → bad r = none) ∧ ((R.get s).rows.filter p).map f = rows ∧
        R.set s ((R.get s).update p f hf) = s' := by
  rw [exec_updateOrFail]
  have hbad : ((R.get s).rows.filter p).findSome? bad = none ↔ ∀ r ∈ (R.get s).rows, p r = true → bad r = none := by
    rw [List.findSome?_eq_none_iff]
    simp only [List.mem_filter, and_imp]
  rw [← hbad]
  cases ((R.get s).rows.filter p).findSome? bad with
  | some e => simp
  | none => simp only [true_and, Except.ok.injEq, Prod.mk.injEq]

theorem exec_updateWhere_eq_ok {R : Rel σ κ u} {p : ρ → Bool} {f : ρ → ρ} {hf : ∀ r, u.key (f r) = u.key r}
    {s s' : σ} {rows : List ρ} :
    (R.updateWhere p f hf : Txn σ κ ε (List ρ)).exec s = .ok (rows, s') ↔
      ((R.get s).rows.filter p).map f = rows ∧ R.set s ((R.get s).update p f hf) = s' := by
  rw [updateWhere, exec_updateOrFail_eq_ok]
  simp

theorem exec_deleteWhere_eq_ok {R : Rel σ κ u} {p : ρ → Bool} {s s' : σ} {rows : List ρ} :
    (R.deleteWhere p : Txn σ κ ε (List ρ)).exec s = .ok (rows, s') ↔
      (R.get s).rows.filter p = rows ∧ R.set s ((R.get s).delete p) = s' := by
  rw [exec_deleteWhere, Except.ok.injEq, Prod.mk.injEq]

omit [DecidableEq κ] in
theorem exec_insertOnConflict_eq_ok {R : Rel σ κ u} {r : ρ} {arbiter : ρ → Bool} {e : ε} {s s' : σ} {b : Bool} :
    (R.insertOnConflict r arbiter e).exec s = .ok (b, s') ↔
      ((R.get s).rows.any arbiter = true ∧ false = b ∧ s = s') ∨
        ((R.get s).rows.any arbiter = false ∧ (R.get s).Fresh r ∧ true = b ∧ R.set s ((R.get s).insert r) = s') := by
  rw [exec_insertOnConflict]
  cases (R.get s).rows.any arbiter with
  | true => simp only [if_true, Except.ok.injEq, Prod.mk.injEq, true_and, Bool.true_eq_false, false_and, or_false]
  | false =>
      simp only [Bool.false_eq_true, if_false, false_and, true_and, false_or, Table.any_clashes_iff]
      by_cases hfresh : (R.get s).Fresh r
      · simp only [hfresh, not_true, if_false, true_and, Except.ok.injEq, Prod.mk.injEq]
      · simp [hfresh]

omit [DecidableEq κ] in
theorem exec_insertOrFail_eq_ok {R : Rel σ κ u} {r : ρ} {e : ε} {s s' : σ} {a : Unit} :
    (R.insertOrFail r e).exec s = .ok (a, s') ↔ (R.get s).Fresh r ∧ R.set s ((R.get s).insert r) = s' := by
  rw [exec_insertOrFail]
  by_cases hfresh : (R.get s).Fresh r
  · simp only [Table.any_clashes_iff, hfresh, not_true, if_false, true_and, Except.ok.injEq, Prod.mk.injEq]
  · simp only [Table.any_clashes_iff, hfresh, not_false_eq_true, if_true, false_and, reduceCtorEq]

/-! ### How a statement can roll back -/

section
variable {P : ε → Prop}

theorem aborts_selectForUpdate (R : Rel σ κ u) (p : ρ → Bool) : (R.selectForUpdate p : Txn σ κ ε (List ρ)).Aborts P := by
  refine aborts_bind (aborts_get P) fun s => aborts_bind (aborts_lockAll P _) fun _ => ?_
  exact aborts_bind (aborts_get P) fun s => trivial

theorem aborts_updateOrFail (R : Rel σ κ u) {p : ρ → Bool} {bad : ρ → Option ε} {f : ρ → ρ}
    {hf : ∀ r, u.key (f r) = u.key r} (hbad : ∀ r e, bad r = some e → P e) : (R.updateOrFail p bad f hf).Aborts P := by
  refine aborts_bind (aborts_get P) fun s => aborts_bind (aborts_lockAll P _) fun _ => ?_
  refine aborts_bind (aborts_get P) fun s => ?_
  dsimp only
  split
  · rename_i e he
    obtain ⟨r, -, hr⟩ := List.exists_of_findSome?_eq_some he
    exact hbad r e hr
  · trivial

theorem aborts_updateWhere (R : Rel σ κ u) (p : ρ → Bool) (f : ρ → ρ) (hf : ∀ r, u.key (f r) = u.key r) :
    (R.updateWhere p f hf : Txn σ κ ε (List ρ)).Aborts P :=
  R.aborts_updateOrFail fun _ _ h => nomatch h

theorem aborts_deleteWhere (R : Rel σ κ u) (p : ρ → Bool) : (R.deleteWhere p : Txn σ κ ε (List ρ)).Aborts P := by
  refine aborts_bind (aborts_get P) fun s => aborts_bind (aborts_lockAll P _) fun _ => ?_
  exact aborts_bind (aborts_get P) fun s => trivial

omit [DecidableEq κ] in
theorem aborts_insertOnConflict (R : Rel σ κ u) (r : ρ) (arbiter : ρ → Bool) {e : ε} (he : P e) :
    (R.insertOnConflict r arbiter e).Aborts P := by
  refine aborts_bind (aborts_lockAll P _) fun _ => aborts_bind (aborts_get P) fun s => ?_
  split
  · trivial
  · split
    · exact he
    · trivial

omit [DecidableEq κ] in
theorem aborts_insertOrFail (R : Rel σ κ u) (r : ρ) {e : ε} (he : P e) : (R.insertOrFail r e).Aborts P := by
  refine aborts_bind (aborts_lockAll P _) fun _ => aborts_bind (aborts_get P) fun s => ?_
  split
  · exact he
  · trivial

end

/-! ## Under interference -/

/-- The change of an `UPDATE` that holds the locks in `keys`. -/
def updating (R : Rel σ κ u) (p : ρ → Bool) (keys : List κ) (f : ρ → ρ) (hf : ∀ r, u.key (f r) = u.key r) (s : σ) : σ :=
  R.set s ((R.get s).update (R.hit p keys) f hf)

/-- The change of a `DELETE` that holds the locks in `keys`. -/
def deleting (R : Rel σ κ u) (p : ρ → Bool) (keys : List κ) (s : σ) : σ := R.set s ((R.get s).delete (R.hit p keys))

/-- The change of an `INSERT`. -/
def inserting (R : Rel σ κ u) (r : ρ) (s : σ) : σ := R.set s ((R.get s).insert r)

/-- Exclusive locks on all of `keys`. -/
def Locked (h : Held κ) (keys : List κ) : Prop := ∀ key ∈ keys, (key, .exclusive) ∈ h

section Kinds
variable {A : Held κ → σ → Prop} {G : Held κ → (σ → σ) → Prop} {h : Held κ}

theorem within_selectForUpdate (R : Rel σ κ u) (p : ρ → Bool) : (R.selectForUpdate p : Txn σ κ ε (List ρ)).Within A G h := by
  refine within_bind within_get fun s h₁ _ => within_lockAll_bind fun h₂ _ _ => ?_
  exact within_bind within_get fun _ _ _ => trivial

theorem within_updateOrFail {R : Rel σ κ u} {p : ρ → Bool} {bad : ρ → Option ε} {f : ρ → ρ}
    {hf : ∀ r, u.key (f r) = u.key r} (hG : ∀ h' keys, h ⊆ h' → Locked h' keys → G h' (R.updating p keys f hf)) :
    (R.updateOrFail p bad f hf).Within A G h := by
  refine within_bind within_get fun s h₁ hh₁ => within_lockAll_bind fun h₂ hh₂ hkeys => ?_
  refine within_bind within_get fun s h₃ hh₃ => ?_
  dsimp only
  split
  · trivial
  · exact ⟨hG h₃ _ (fun _ hl => hh₃ (hh₂ (hh₁ hl))) (fun k hk => hh₃ (hkeys k hk)), trivial⟩

theorem within_updateWhere {R : Rel σ κ u} {p : ρ → Bool} {f : ρ → ρ} {hf : ∀ r, u.key (f r) = u.key r}
    (hG : ∀ h' keys, h ⊆ h' → Locked h' keys → G h' (R.updating p keys f hf)) :
    (R.updateWhere p f hf : Txn σ κ ε (List ρ)).Within A G h := within_updateOrFail hG

/-- What an `UPDATE .. RETURNING *` returns. -/
theorem returns_updateWhere (R : Rel σ κ u) (p : ρ → Bool) (f : ρ → ρ) (hf : ∀ r, u.key (f r) = u.key r) :
    (R.updateWhere p f hf : Txn σ κ ε (List ρ)).Returns fun rows => ∀ r' ∈ rows, ∃ r, p r = true ∧ r' = f r := by
  refine returns_bind fun s => returns_bind fun _ => returns_bind fun s => ?_
  dsimp only
  split
  · trivial
  · intro r' hr'
    obtain ⟨r, hr, rfl⟩ := List.mem_map.1 hr'
    rw [List.mem_filter, hit, Bool.and_eq_true] at hr
    exact ⟨r, hr.2.1, rfl⟩

theorem within_deleteWhere {R : Rel σ κ u} {p : ρ → Bool}
    (hG : ∀ h' keys, h ⊆ h' → Locked h' keys → G h' (R.deleting p keys)) :
    (R.deleteWhere p : Txn σ κ ε (List ρ)).Within A G h := by
  refine within_bind within_get fun s h₁ hh₁ => within_lockAll_bind fun h₂ hh₂ hkeys => ?_
  refine within_bind within_get fun s h₃ hh₃ => ?_
  exact ⟨hG h₃ _ (fun _ hl => hh₃ (hh₂ (hh₁ hl))) (fun k hk => hh₃ (hkeys k hk)), trivial⟩

/-- What a `DELETE .. RETURNING *` returns is locked. -/
theorem within_deleteWhere_bind {R : Rel σ κ u} {p : ρ → Bool} {β : Type} {f : List ρ → Txn σ κ ε β}
    (hG : ∀ h' keys, h ⊆ h' → Locked h' keys → G h' (R.deleting p keys))
    (hf : ∀ rows h', h ⊆ h' → (∀ r ∈ rows, p r = true ∧ (R.rowLock r, .exclusive) ∈ h') → (f rows).Within A G h') :
    (R.deleteWhere p >>= f).Within A G h := by
  unfold deleteWhere
  rw [bind_bind]
  refine within_get_bind fun s _ => ?_
  rw [bind_bind]
  refine within_lockAll_bind fun h₁ hh₁ hkeys => ?_
  rw [bind_bind]
  refine within_get_bind fun s' _ => ?_
  refine ⟨hG h₁ _ hh₁ hkeys, hf _ h₁ hh₁ ?_⟩
  intro r hr
  rw [List.mem_filter, hit, Bool.and_eq_true, List.contains_iff_mem] at hr
  exact ⟨hr.2.1, hkeys _ hr.2.2⟩

omit [DecidableEq κ] in
theorem within_insertOnConflict {R : Rel σ κ u} {r : ρ} {arbiter : ρ → Bool} {e : ε}
    (hG : ∀ h', h ⊆ h' → Locked h' (R.keyLocks r) → G h' (R.inserting r)) :
    (R.insertOnConflict r arbiter e).Within A G h := by
  refine within_lockAll_bind fun h₁ hh₁ hkeys => within_bind within_get fun s h₂ hh₂ => ?_
  split
  · trivial
  · split
    · trivial
    · exact ⟨hG h₂ (fun _ hl => hh₂ (hh₁ hl)) (fun k hk => hh₂ (hkeys k hk)), trivial⟩

omit [DecidableEq κ] in
theorem within_insertOrFail {R : Rel σ κ u} {r : ρ} {e : ε}
    (hG : ∀ h', h ⊆ h' → Locked h' (R.keyLocks r) → G h' (R.inserting r)) :
    (R.insertOrFail r e).Within A G h := by
  refine within_lockAll_bind fun h₁ hh₁ hkeys => within_bind within_get fun s h₂ hh₂ => ?_
  split
  · trivial
  · exact ⟨hG h₂ (fun _ hl => hh₂ (hh₁ hl)) (fun k hk => hh₂ (hkeys k hk)), trivial⟩

end Kinds

section Facts
variable {τ ω α : Type} [Preorder τ] {P : Protocol σ κ τ ω α} {h : Held κ} {d : σ → σ} {F : σ → Prop}

omit [DecidableEq κ] in
/-- An insertion knows that the row was fresh, as long as its key locks keep it so. -/
theorem wp_insertOrFail {R : Rel σ κ u} {r : ρ} {e : ε} {Q : Unit → Held κ → (σ → σ) → (σ → Prop) → Prop}
    (hF : P.Stable h F)
    (hst : ∀ h', h ⊆ h' → Locked h' (R.keyLocks r) → P.Stable h' fun s => (R.get (d s)).Fresh r)
    (hQ : ∀ h', h ⊆ h' → Locked h' (R.keyLocks r) → Q () h' (R.inserting r ∘ d) fun s => F s ∧ (R.get (d s)).Fresh r) :
    (R.insertOrFail r e).wp P Q h d F := by
  refine wp_bind (wp_lockAll fun h' hh hkeys => wp_bind (wp_get_cases fun v => ?_))
  by_cases hfresh : (R.get v).Fresh r
  · refine ⟨fun s => F s ∧ (R.get (d s)).Fresh r, (hF.mono hh).and (hst h' hh hkeys), ?_, ?_⟩
    · intro s c l _ hs hv
      exact ⟨hs, by rwa [hv]⟩
    · rw [if_neg (by rw [Table.any_clashes_iff]; exact not_not.2 hfresh)]
      exact hQ h' hh hkeys
  · refine ⟨F, hF.mono hh, fun _ _ _ _ hs _ => hs, ?_⟩
    rw [if_pos (Table.any_clashes_iff.2 hfresh)]
    trivial

omit [DecidableEq κ] in
/-- `F'` is what is worth knowing of a row that was fresh. -/
theorem wp_insertOnConflict {R : Rel σ κ u} {r : ρ} {arbiter : ρ → Bool} {e : ε}
    {Q : Bool → Held κ → (σ → σ) → (σ → Prop) → Prop} (hF : P.Stable h F) (F' : σ → Prop)
    (hfresh : ∀ s, F s → (R.get (d s)).Fresh r → F' s)
    (hst : ∀ h', h ⊆ h' → Locked h' (R.keyLocks r) → P.Stable h' F') (hfalse : ∀ h', h ⊆ h' → Q false h' d F)
    (htrue : ∀ h', h ⊆ h' → Locked h' (R.keyLocks r) → Q true h' (R.inserting r ∘ d) F') :
    (R.insertOnConflict r arbiter e).wp P Q h d F := by
  refine wp_bind (wp_lockAll fun h' hh hkeys => wp_bind (wp_get_cases fun v => ?_))
  by_cases harb : (R.get v).rows.any arbiter = true
  · refine ⟨F, hF.mono hh, fun _ _ _ _ hs _ => hs, ?_⟩
    rw [if_pos harb]
    exact hfalse h' hh
  · by_cases hv : (R.get v).Fresh r
    · refine ⟨F', hst h' hh hkeys, ?_, ?_⟩
      · intro s c l _ hs heq
        exact hfresh s hs (by rwa [heq])
      · rw [if_neg harb, if_neg (by rw [Table.any_clashes_iff]; exact not_not.2 hv)]
        exact htrue h' hh hkeys
    · refine ⟨F, hF.mono hh, fun _ _ _ _ hs _ => hs, ?_⟩
      rw [if_neg harb, if_pos (Table.any_clashes_iff.2 hv)]
      trivial

/-- The rows that satisfy the condition of an `UPDATE` are locked. -/
def Scanned (R : Rel σ κ u) (p : ρ → Bool) (keys : List κ) (s : σ) : Prop :=
  ∀ r ∈ (R.get s).rows, p r = true → R.rowLock r ∈ keys

/-- An update knows that it locked every row that satisfies its condition, as long as other locks keep it so. -/
theorem wp_updateWhere {R : Rel σ κ u} {p : ρ → Bool} {f : ρ → ρ} {hf : ∀ r, u.key (f r) = u.key r}
    {Q : List ρ → Held κ → (σ → σ) → (σ → Prop) → Prop} (hF : P.Stable h F)
    (hst : ∀ keys, P.Stable h fun s => R.Scanned p keys (d s))
    (hQ : ∀ h' keys rows, h ⊆ h' → Locked h' keys →
      Q rows h' (R.updating p keys f hf ∘ d) fun s => F s ∧ R.Scanned p keys (d s)) :
    (R.updateWhere p f hf : Txn σ κ ε (List ρ)).wp P Q h d F := by
  refine wp_bind (wp_get_cases fun v => ?_)
  let keys := ((R.get v).rows.filter p).map R.rowLock
  have hfact : P.Stable h fun s => F s ∧ R.Scanned p keys (d s) := hF.and (hst keys)
  refine ⟨_, hfact, ?_, ?_⟩
  · intro s c l _ hs hv
    refine ⟨hs, ?_⟩
    intro r hr hp
    rw [hv] at hr
    exact List.mem_map.2 ⟨r, List.mem_filter.2 ⟨hr, hp⟩, rfl⟩
  · refine wp_bind (wp_lockAll fun h' hh hkeys => wp_bind (wp_get (hfact.mono hh) fun v' => ?_))
    dsimp only
    split
    · trivial
    · exact hQ h' keys _ hh hkeys

/-- The rows that an update returns are rows it changed. -/
theorem wp_updateOrFail_returning {R : Rel σ κ u} {p : ρ → Bool} {bad : ρ → Option ε} {f : ρ → ρ}
    {hf : ∀ r, u.key (f r) = u.key r} {Q : List ρ → Held κ → (σ → σ) → (σ → Prop) → Prop} (hF : P.Stable h F)
    (hQ : ∀ h' keys rows, h ⊆ h' → Locked h' keys → (∀ r' ∈ rows, ∃ r, R.hit p keys r = true ∧ r' = f r) →
      Q rows h' (R.updating p keys f hf ∘ d) F) : (R.updateOrFail p bad f hf).wp P Q h d F := by
  refine wp_bind (wp_get hF fun v => wp_bind (wp_lockAll fun h' hh hkeys => ?_))
  refine wp_bind (wp_get (hF.mono hh) fun v' => ?_)
  dsimp only
  split
  · trivial
  · refine hQ h' _ _ hh hkeys ?_
    intro r' hr'
    obtain ⟨r, hr, rfl⟩ := List.mem_map.1 hr'
    exact ⟨r, (List.mem_filter.1 hr).2, rfl⟩

theorem wp_updateWhere_returning {R : Rel σ κ u} {p : ρ → Bool} {f : ρ → ρ} {hf : ∀ r, u.key (f r) = u.key r}
    {Q : List ρ → Held κ → (σ → σ) → (σ → Prop) → Prop} (hF : P.Stable h F)
    (hQ : ∀ h' keys rows, h ⊆ h' → Locked h' keys → (∀ r' ∈ rows, ∃ r, R.hit p keys r = true ∧ r' = f r) →
      Q rows h' (R.updating p keys f hf ∘ d) F) : (R.updateWhere p f hf : Txn σ κ ε (List ρ)).wp P Q h d F :=
  wp_updateOrFail_returning hF hQ

end Facts

end Rel
end Keychute.Lib
