import Keychute.Lib.Statements
import Mathlib.Data.Prod.Lex
import Mathlib.Logic.Relation

/-!
# Queues for locks

A transaction that asks for a lock joins the queue of its key and waits until no other transaction holds the lock in an
excluding mode and nobody ahead of it in the queue asks for it in one.

* `LockWorld`, `LockWorld.Step` : transactions in flight and the queue, in any order of steps; what a transaction reads
  is arbitrary, so every run of a real database is among these;
* `Txn.Climbs` : the ranked locks of a transaction come in the order of their ranks; `Txn.Flat` : it takes none;
* `acyclic_of_reachable` : if every transaction climbs, no transactions wait for each other in a circle.
-/

namespace Keychute.Lib

variable {σ κ ρ α β : Type}

/-! ## Climbing -/

/-- The ranked locks are taken in strictly rising order, with ranks from `n` on and below `m`. -/
def Txn.Climbs (rank : κ → Option ℕ) (n m : ℕ) : Txn σ κ ρ α → Prop
  | .pure _ => True
  | .abort _ => True
  | .read k => ∀ s, (k s).Climbs rank n m
  | .acquire key _ k =>
    match rank key with
    | none => k.Climbs rank n m
    | some r => n ≤ r ∧ r < m ∧ k.Climbs rank (r + 1) m
  | .write _ k => k.Climbs rank n m

namespace Txn
variable {rank : κ → Option ℕ} {n n' m l : ℕ}

theorem Climbs.mono {x : Txn σ κ ρ α} (hx : x.Climbs rank n m) (hn : n' ≤ n) (hm : m ≤ l) : x.Climbs rank n' l := by
  induction x generalizing n n' with
  | pure a => trivial
  | abort r => trivial
  | read k ih => exact fun s => ih s (hx s) hn
  | acquire key mode k ih =>
      unfold Climbs at hx ⊢
      split at hx
      · exact ih hx hn
      · exact ⟨hn.trans hx.1, hx.2.1.trans_le hm, ih hx.2.2 (le_refl _)⟩
  | write f k ih => exact ih hx hn

theorem climbs_lock_bind {key : κ} {mode : Mode} {r : ℕ} {f : Unit → Txn σ κ ρ β} (hkey : rank key = some r)
    (hn : n ≤ r) (hm : r < m) (hf : (f ()).Climbs rank (r + 1) m) : (lock key mode >>= f).Climbs rank n m := by
  change Climbs rank n m (.acquire key mode (f ()))
  unfold Climbs
  rw [hkey]
  exact ⟨hn, hm, hf⟩

/-- No ranked lock is taken. -/
def Flat (rank : κ → Option ℕ) : Txn σ κ ρ α → Prop
  | .pure _ => True
  | .abort _ => True
  | .read k => ∀ s, (k s).Flat rank
  | .acquire key _ k => rank key = none ∧ k.Flat rank
  | .write _ k => k.Flat rank

theorem flat_bind {x : Txn σ κ ρ α} {f : α → Txn σ κ ρ β} (hx : x.Flat rank) (hf : ∀ a, (f a).Flat rank) :
    (x >>= f).Flat rank := by
  change (x.bind f).Flat rank
  induction x with
  | pure a => exact hf a
  | abort r => trivial
  | read k ih => exact fun s => ih s (hx s)
  | acquire key mode k ih => exact ⟨hx.1, ih hx.2⟩
  | write g k ih => exact ih hx

/-- After something that takes no ranked lock. -/
theorem climbs_bind_flat {x : Txn σ κ ρ α} {f : α → Txn σ κ ρ β} (hx : x.Flat rank)
    (hf : ∀ a, (f a).Climbs rank n m) : (x >>= f).Climbs rank n m := by
  change (x.bind f).Climbs rank n m
  induction x with
  | pure a => exact hf a
  | abort r => trivial
  | read k ih => exact fun s => ih s (hx s)
  | acquire key mode k ih =>
      unfold bind Climbs
      rw [hx.1]
      exact ih hx.2
  | write g k ih => exact ih hx

theorem Flat.climbs {x : Txn σ κ ρ α} (hx : x.Flat rank) : x.Climbs rank n m := by
  induction x with
  | pure a => trivial
  | abort r => trivial
  | read k ih => exact fun s => ih s (hx s)
  | acquire key mode k ih =>
      unfold Climbs
      rw [hx.1]
      exact ih hx.2
  | write g k ih => exact ih hx

theorem flat_get : (get : Txn σ κ ρ σ).Flat rank := fun _ => trivial

theorem flat_lockAll {keys : List κ} (hkeys : ∀ key ∈ keys, rank key = none) :
    (lockAll keys : Txn σ κ ρ Unit).Flat rank := by
  induction keys with
  | nil => trivial
  | cons key keys ih => exact ⟨hkeys key List.mem_cons_self, ih fun k hk => hkeys k (List.mem_cons_of_mem _ hk)⟩

end Txn

/-! ### Statements -/

namespace Rel
open Txn
variable [DecidableEq κ] {υ : Type} {u : Keys υ} {rank : κ → Option ℕ} {R : Rel σ κ u}

/-- The locks of the rows and of the unique keys have no rank. -/
structure Unranked (rank : κ → Option ℕ) (R : Rel σ κ u) : Prop where
  rows : ∀ r, rank (R.rowLock r) = none
  keys : ∀ r, ∀ key ∈ R.keyLocks r, rank key = none

omit [DecidableEq κ] in
theorem Unranked.lockRows (hR : R.Unranked rank) (rows : List υ) :
    (lockAll (rows.map R.rowLock) : Txn σ κ ρ Unit).Flat rank := by
  refine flat_lockAll fun key hkey => ?_
  obtain ⟨r, -, rfl⟩ := List.mem_map.1 hkey
  exact hR.rows r

theorem Unranked.flat_selectForUpdate (hR : R.Unranked rank) (p : υ → Bool) :
    (R.selectForUpdate p : Txn σ κ ρ (List υ)).Flat rank :=
  flat_bind flat_get fun _ => flat_bind (hR.lockRows _) fun _ => flat_bind flat_get fun _ => trivial

theorem Unranked.flat_updateOrFail (hR : R.Unranked rank) (p : υ → Bool) (bad : υ → Option ρ) (f : υ → υ)
    (hf : ∀ r, u.key (f r) = u.key r) : (R.updateOrFail p bad f hf).Flat rank := by
  refine flat_bind flat_get fun _ => flat_bind (hR.lockRows _) fun _ => flat_bind flat_get fun _ => ?_
  dsimp only
  split <;> trivial

theorem Unranked.flat_updateWhere (hR : R.Unranked rank) (p : υ → Bool) (f : υ → υ)
    (hf : ∀ r, u.key (f r) = u.key r) : (R.updateWhere p f hf : Txn σ κ ρ (List υ)).Flat rank :=
  hR.flat_updateOrFail p (fun _ => none) f hf

theorem Unranked.flat_deleteWhere (hR : R.Unranked rank) (p : υ → Bool) :
    (R.deleteWhere p : Txn σ κ ρ (List υ)).Flat rank :=
  flat_bind flat_get fun _ => flat_bind (hR.lockRows _) fun _ => flat_bind flat_get fun _ => trivial

omit [DecidableEq κ] in
theorem Unranked.flat_insertOnConflict (hR : R.Unranked rank) (r : υ) (arbiter : υ → Bool) (e : ρ) :
    (R.insertOnConflict r arbiter e).Flat rank := by
  refine flat_bind (flat_lockAll (hR.keys r)) fun _ => flat_bind flat_get fun _ => ?_
  split
  · trivial
  · split <;> trivial

omit [DecidableEq κ] in
theorem Unranked.flat_insertOrFail (hR : R.Unranked rank) (r : υ) (e : ρ) : (R.insertOrFail r e).Flat rank := by
  refine flat_bind (flat_lockAll (hR.keys r)) fun _ => flat_bind flat_get fun _ => ?_
  split <;> trivial

end Rel

/-! ## Transactions that wait -/

/-- A transaction in flight: what is left of it, and the ranked locks it holds. -/
structure Agent (σ κ ρ α : Type) where
  rest : Txn σ κ ρ α
  held : Held κ

structure Waiter (κ : Type) where
  id : ℕ
  key : κ
  mode : Mode

/-- The transactions in flight by their number, and those that wait, in the order of arrival. -/
structure LockWorld (σ κ ρ α : Type) where
  agents : ℕ → Option (Agent σ κ ρ α)
  queue : List (Waiter κ)

namespace LockWorld

def empty : LockWorld σ κ ρ α := ⟨fun _ => none, []⟩

def set (w : LockWorld σ κ ρ α) (id : ℕ) (a : Agent σ κ ρ α) : LockWorld σ κ ρ α :=
  { w with agents := Function.update w.agents id (some a) }

/-- One step, for transactions that start as a member of `bodies`. -/
inductive Step (rank : κ → Option ℕ) (bodies : Set (Txn σ κ ρ α)) : LockWorld σ κ ρ α → LockWorld σ κ ρ α → Prop where
  | start (w : LockWorld σ κ ρ α) (id : ℕ) (x : Txn σ κ ρ α) (hid : w.agents id = none) (hx : x ∈ bodies) :
      Step rank bodies w (w.set id ⟨x, []⟩)
  | read (w : LockWorld σ κ ρ α) (id : ℕ) (k : σ → Txn σ κ ρ α) (h : Held κ) (s : σ)
      (hid : w.agents id = some ⟨.read k, h⟩) : Step rank bodies w (w.set id ⟨k s, h⟩)
  | write (w : LockWorld σ κ ρ α) (id : ℕ) (f : σ → σ) (k : Txn σ κ ρ α) (h : Held κ)
      (hid : w.agents id = some ⟨.write f k, h⟩) : Step rank bodies w (w.set id ⟨k, h⟩)
  /-- Locks without a rank are granted at some time. -/
  | pass (w : LockWorld σ κ ρ α) (id : ℕ) (key : κ) (mode : Mode) (k : Txn σ κ ρ α) (h : Held κ)
      (hid : w.agents id = some ⟨.acquire key mode k, h⟩) (hkey : rank key = none) :
      Step rank bodies w (w.set id ⟨k, h⟩)
  | request (w : LockWorld σ κ ρ α) (id : ℕ) (key : κ) (mode : Mode) (k : Txn σ κ ρ α) (h : Held κ)
      (hid : w.agents id = some ⟨.acquire key mode k, h⟩) (hkey : (rank key).isSome = true)
      (hnew : ∀ v ∈ w.queue, v.id ≠ id) : Step rank bodies w { w with queue := w.queue ++ [⟨id, key, mode⟩] }
  | grant (w : LockWorld σ κ ρ α) (id : ℕ) (key : κ) (mode : Mode) (k : Txn σ κ ρ α) (h : Held κ)
      (pre post : List (Waiter κ)) (hid : w.agents id = some ⟨.acquire key mode k, h⟩)
      (hq : w.queue = pre ++ ⟨id, key, mode⟩ :: post)
      (hholders : ∀ id' a, id' ≠ id → w.agents id' = some a → Held.Compatible [(key, mode)] a.held)
      (hahead : ∀ v ∈ pre, v.key = key → mode.excludes v.mode = false) :
      Step rank bodies w { w.set id ⟨k, (key, mode) :: h⟩ with queue := pre ++ post }
  /-- Commit, rollback, or the end of the connection: the locks are released and the place in the queue is given up. -/
  | finish (w : LockWorld σ κ ρ α) (id : ℕ) :
      Step rank bodies w ⟨Function.update w.agents id none, w.queue.filter (·.id != id)⟩

inductive Reachable (rank : κ → Option ℕ) (bodies : Set (Txn σ κ ρ α)) : LockWorld σ κ ρ α → Prop where
  | init : Reachable rank bodies empty
  | step {w w' : LockWorld σ κ ρ α} : Reachable rank bodies w → Step rank bodies w w' → Reachable rank bodies w'

/-- `i` waits for a lock that `j` holds, or is queued for ahead of it. -/
def WaitsFor (w : LockWorld σ κ ρ α) (i j : ℕ) : Prop :=
  ∃ pre v post, w.queue = pre ++ v :: post ∧ v.id = i ∧
    ((∃ a, w.agents j = some a ∧ ∃ mode, (v.key, mode) ∈ a.held) ∨ ∃ u ∈ pre, u.id = j ∧ u.key = v.key)

/-! ## No circle -/

/-- Who is queued asks for the lock its transaction is at, once; and every transaction climbs from above the locks it
holds. -/
structure Ordered (rank : κ → Option ℕ) (top : ℕ) (w : LockWorld σ κ ρ α) : Prop where
  waiting : ∀ v ∈ w.queue, ∃ k h, w.agents v.id = some ⟨.acquire v.key v.mode k, h⟩ ∧ (rank v.key).isSome = true
  once : w.queue.Pairwise fun u v => u.id ≠ v.id
  climbs : ∀ i a, w.agents i = some a →
    ∃ n, a.rest.Climbs rank n top ∧ ∀ l ∈ a.held, ∃ r, rank l.1 = some r ∧ r < n

variable {rank : κ → Option ℕ} {top : ℕ} {bodies : Set (Txn σ κ ρ α)}

/-- A step of one transaction that is not queued. -/
theorem Ordered.set {w : LockWorld σ κ ρ α} (hw : w.Ordered rank top) {id : ℕ} {a : Agent σ κ ρ α}
    (hout : ∀ v ∈ w.queue, v.id ≠ id)
    (ha : ∃ n, a.rest.Climbs rank n top ∧ ∀ l ∈ a.held, ∃ r, rank l.1 = some r ∧ r < n) :
    (w.set id a).Ordered rank top := by
  refine ⟨?_, hw.once, ?_⟩
  · intro v hv
    change ∃ k h, Function.update w.agents id (some a) v.id = _ ∧ _
    rw [Function.update_of_ne (hout v hv)]
    exact hw.waiting v hv
  · intro i b hb
    change Function.update w.agents id (some a) i = some b at hb
    rcases eq_or_ne i id with rfl | hne
    · rw [Function.update_self, Option.some.injEq] at hb
      exact hb ▸ ha
    · rw [Function.update_of_ne hne] at hb
      exact hw.climbs i b hb

/-- A transaction that is not at a ranked lock is not queued. -/
theorem Ordered.not_queued {w : LockWorld σ κ ρ α} (hw : w.Ordered rank top) {id : ℕ} {x : Txn σ κ ρ α} {h : Held κ}
    (hid : w.agents id = some ⟨x, h⟩) (hx : ∀ key mode k, x = .acquire key mode k → rank key = none) :
    ∀ v ∈ w.queue, v.id ≠ id := by
  rintro v hv rfl
  obtain ⟨k, h', ha, hrank⟩ := hw.waiting v hv
  rw [hid, Option.some.injEq, Agent.mk.injEq] at ha
  rw [hx _ _ _ ha.1] at hrank
  cases hrank

theorem Ordered.step {w w' : LockWorld σ κ ρ α} (hw : w.Ordered rank top) (hs : Step rank bodies w w')
    (hbodies : ∀ x ∈ bodies, x.Climbs rank 0 top) : w'.Ordered rank top := by
  cases hs with
  | start id x hid hx =>
      refine hw.set ?_ ⟨0, hbodies x hx, by simp⟩
      rintro v hv rfl
      obtain ⟨_, _, ha, _⟩ := hw.waiting v hv
      rw [hid] at ha
      cases ha
  | read id k h s hid =>
      obtain ⟨n, hn, hheld⟩ := hw.climbs id _ hid
      exact hw.set (hw.not_queued hid fun _ _ _ hx => nomatch hx) ⟨n, hn s, hheld⟩
  | write id f k h hid =>
      obtain ⟨n, hn, hheld⟩ := hw.climbs id _ hid
      exact hw.set (hw.not_queued hid fun _ _ _ hx => nomatch hx) ⟨n, hn, hheld⟩
  | pass id key mode k h hid hkey =>
      obtain ⟨n, hn, hheld⟩ := hw.climbs id _ hid
      refine hw.set (hw.not_queued hid ?_) ⟨n, ?_, hheld⟩
      · intro key' mode' k' hx
        cases hx
        exact hkey
      · simpa only [Txn.Climbs, hkey] using hn
  | request id key mode k h hid hkey hnew =>
      refine ⟨?_, ?_, hw.climbs⟩
      · intro v hv
        rcases List.mem_append.1 hv with hv | hv
        · exact hw.waiting v hv
        · rw [List.mem_singleton.1 hv]
          exact ⟨k, h, hid, hkey⟩
      · rw [List.pairwise_append]
        refine ⟨hw.once, List.pairwise_singleton _ _, ?_⟩
        intro u hu v hv
        rw [List.mem_singleton.1 hv]
        exact hnew u hu
  | grant id key mode k h pre post hid hq hholders hahead =>
      have hrank : (rank key).isSome = true := by
        obtain ⟨_, _, _, hr⟩ := hw.waiting ⟨id, key, mode⟩ (by rw [hq]; simp)
        exact hr
      obtain ⟨r, hr⟩ := Option.isSome_iff_exists.1 hrank
      obtain ⟨n, hn, hheld⟩ := hw.climbs id _ hid
      unfold Txn.Climbs at hn
      rw [hr] at hn
      -- the queue without it, and then its own step
      have honce := hw.once
      rw [hq, List.pairwise_middle fun huv => huv.symm, List.pairwise_cons] at honce
      have hless : Ordered rank top { w with queue := pre ++ post } := by
        refine ⟨fun v hv => hw.waiting v ?_, honce.2, hw.climbs⟩
        rw [hq]
        rcases List.mem_append.1 hv with hv | hv
        · exact List.mem_append_left _ hv
        · exact List.mem_append_right _ (List.mem_cons_of_mem _ hv)
      refine hless.set (fun v hv => (honce.1 v hv).symm) ⟨r + 1, hn.2.2, ?_⟩
      intro l hl
      rcases List.mem_cons.1 hl with rfl | hl
      · exact ⟨r, hr, Nat.lt_succ_self r⟩
      · obtain ⟨r', hr', hlt⟩ := hheld l hl
        exact ⟨r', hr', (hlt.trans_le hn.1).trans (Nat.lt_succ_self r)⟩
  | finish id =>
      refine ⟨?_, hw.once.filter _, ?_⟩
      · intro v hv
        obtain ⟨hv, hne⟩ := List.mem_filter.1 hv
        change ∃ k h, Function.update w.agents id none v.id = _ ∧ _
        rw [Function.update_of_ne (by simpa using hne)]
        exact hw.waiting v hv
      · intro i a ha
        change Function.update w.agents id none i = some a at ha
        rcases eq_or_ne i id with rfl | hne
        · rw [Function.update_self] at ha
          cases ha
        · rw [Function.update_of_ne hne] at ha
          exact hw.climbs i a ha

theorem ordered_of_reachable {w : LockWorld σ κ ρ α} (hw : Reachable rank bodies w)
    (hbodies : ∀ x ∈ bodies, x.Climbs rank 0 top) : w.Ordered rank top := by
  induction hw with
  | init => exact ⟨by simp [empty], List.Pairwise.nil, by simp [empty]⟩
  | step _ hs ih => exact ih.step hs hbodies

/-- Where a transaction stands: the rank of the lock it waits for, and how far ahead it is in the queue. -/
def height (rank : κ → Option ℕ) (queue : List (Waiter κ)) (id : ℕ) : ℕ ×ₗ ℤ :=
  toLex (((queue.find? (·.id == id)).bind fun v => rank v.key).getD 0, -(queue.findIdx (·.id == id) : ℤ))

theorem height_eq (rank : κ → Option ℕ) {queue pre post : List (Waiter κ)} {v : Waiter κ}
    (honce : queue.Pairwise fun u v => u.id ≠ v.id) (hq : queue = pre ++ v :: post) :
    height rank queue v.id = toLex ((rank v.key).getD 0, -(pre.length : ℤ)) := by
  subst hq
  have hpre : ∀ u ∈ pre, (u.id == v.id) = false := by
    intro u hu
    exact beq_false_of_ne ((List.pairwise_append.1 honce).2.2 u hu v List.mem_cons_self)
  have hfind : (pre ++ v :: post).find? (·.id == v.id) = some v := by
    rw [List.find?_append, List.find?_eq_none.2 (by simpa using hpre)]
    simp
  have hidx : (pre ++ v :: post).findIdx (·.id == v.id) = pre.length := by
    rw [List.findIdx_append, List.findIdx_eq_length.2 hpre]
    simp [List.findIdx_cons]
  rw [height, hfind, hidx]
  rfl

/-- Who is waited for, and waits itself, stands higher. -/
theorem WaitsFor.height_lt {w : LockWorld σ κ ρ α} (hw : w.Ordered rank top) {i j l : ℕ} (hij : w.WaitsFor i j)
    (hjl : w.WaitsFor j l) : height rank w.queue i < height rank w.queue j := by
  obtain ⟨pre, v, post, hq, rfl, hcause⟩ := hij
  obtain ⟨pre', v', post', hq', rfl, -⟩ := hjl
  have hv := height_eq rank hw.once hq
  have hv' := height_eq rank hw.once hq'
  obtain ⟨k', h', ha', hr'⟩ := hw.waiting v' (by rw [hq']; simp)
  obtain ⟨r', hr'⟩ := Option.isSome_iff_exists.1 hr'
  rw [hv, hv', Prod.Lex.toLex_lt_toLex]
  rcases hcause with ⟨a, ha, mode, hheld⟩ | ⟨u, hu, huid, hukey⟩
  · -- it holds the lock, and what it asks for ranks above all it holds
    rw [ha'] at ha
    cases ha
    obtain ⟨n, hn, hbelow⟩ := hw.climbs v'.id _ ha'
    obtain ⟨r, hr, hlt⟩ := hbelow _ hheld
    unfold Txn.Climbs at hn
    rw [hr'] at hn
    rw [hr, hr']
    exact Or.inl (hlt.trans_le hn.1)
  · -- it is queued ahead, for the same lock
    obtain ⟨p, q, rfl⟩ := List.append_of_mem hu
    rw [List.append_assoc, List.cons_append] at hq
    have hu' := height_eq rank hw.once hq
    rw [huid, hv'] at hu'
    have hpos := congrArg Prod.snd (toLex.injective hu')
    have hrank := congrArg Prod.fst (toLex.injective hu')
    rw [hukey] at hrank
    refine Or.inr ⟨hrank.symm, ?_⟩
    rw [hpos, List.length_append, List.length_cons]
    simp only
    omega

/-- No transactions wait for each other in a circle. -/
theorem acyclic_of_reachable {w : LockWorld σ κ ρ α} (hw : Reachable rank bodies w)
    (hbodies : ∀ x ∈ bodies, x.Climbs rank 0 top) (i : ℕ) : ¬ Relation.TransGen w.WaitsFor i i := by
  have hord := ordered_of_reachable hw hbodies
  intro hcycle
  have hup : ∀ {j}, Relation.TransGen w.WaitsFor i j → (∃ l, w.WaitsFor j l) →
      height rank w.queue i < height rank w.queue j := by
    intro j hij
    induction hij with
    | single h =>
        rintro ⟨l, hl⟩
        exact h.height_lt hord hl
    | tail _ hbc ih =>
        rintro ⟨l, hl⟩
        exact (ih ⟨_, hbc⟩).trans (hbc.height_lt hord hl)
  obtain ⟨j, hij, -⟩ := Relation.TransGen.head'_iff.1 hcycle
  exact lt_irrefl _ (hup hcycle ⟨j, hij⟩)

end LockWorld
end Keychute.Lib
