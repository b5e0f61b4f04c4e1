import Mathlib.Order.Basic
import Mathlib.Data.List.Basic
import Mathlib.Data.List.Pairwise
import Mathlib.Data.Multiset.AddSub
import Mathlib.Tactic.Common

/-!
# Transactions with locks held to commit

`Txn σ κ ρ α` is a transaction over a database `σ` with lock keys `κ`: it reads what is committed together with its
own writes, waits for locks, writes, and ends by committing a result in `α` or by rolling back with one in `ρ`.

* `Txn.exec` : the transaction run alone, as one step (`exec_bind` and the `simp` set of the primitives);
* `Txn.Aborts` : the results it can roll back with;
* `World`, `World.Step` : any number of transactions in flight, each statement on the committed state of its moment,
  locks released at commit or rollback;
* `Txn.wp` : a rule of preconditions under interference: a fact about the committed state may be kept while the
  locks that are held keep every other transaction from breaking it (`Protocol.Stable`);
* `Txn.Within`, `Txn.wp_within` : a transaction whose every write is justified by the locks held where it is made;
* `Protocol.inv_of_reachable` : if every transaction that starts is `Safe`, the invariant holds in every reachable
  state;
* `World.Reachable.forall_threads` : what every transaction in flight keeps to, whatever the others do.
-/

namespace Keychute.Lib

inductive Mode where
  | shared | exclusive
  deriving DecidableEq, Repr

/-- Two holders of one lock exclude each other unless both share it. -/
def Mode.excludes : Mode → Mode → Bool
  | .shared, .shared => false
  | _, _ => true

inductive Txn (σ κ ρ α : Type) : Type where
  | pure (a : α)
  | abort (r : ρ)
  | read (k : σ → Txn σ κ ρ α)
  | acquire (key : κ) (mode : Mode) (k : Txn σ κ ρ α)
  | write (f : σ → σ) (k : Txn σ κ ρ α)

namespace Txn
variable {σ κ ρ α β : Type}

def bind : Txn σ κ ρ α → (α → Txn σ κ ρ β) → Txn σ κ ρ β
  | .pure a, f => f a
  | .abort r, _ => .abort r
  | .read k, f => .read fun s => (k s).bind f
  | .acquire key mode k, f => .acquire key mode (k.bind f)
  | .write g k, f => .write g (k.bind f)

instance : Monad (Txn σ κ ρ) where
  pure := .pure
  bind := .bind

theorem bind_bind {γ : Type} (x : Txn σ κ ρ α) (f : α → Txn σ κ ρ β) (g : β → Txn σ κ ρ γ) :
    (x >>= f) >>= g = x >>= fun a => f a >>= g := by
  change (x.bind f).bind g = x.bind fun a => (f a).bind g
  induction x with
  | pure a => rfl
  | abort r => rfl
  | read k ih => exact congrArg Txn.read (funext ih)
  | acquire key mode k ih => exact congrArg (Txn.acquire key mode) ih
  | write h k ih => exact congrArg (Txn.write h) ih

/-! ## Primitives -/

def get : Txn σ κ ρ σ := .read .pure

def lock (key : κ) (mode : Mode) : Txn σ κ ρ Unit := .acquire key mode (.pure ())

def modify (f : σ → σ) : Txn σ κ ρ Unit := .write f (.pure ())

/-- Exclusive locks, one after the other. -/
def lockAll : List κ → Txn σ κ ρ Unit
  | [] => .pure ()
  | key :: keys => .acquire key .exclusive (lockAll keys)

/-! ## One transaction at a time -/

/-- The transaction run alone: its result and the state it commits, or why it rolled back. -/
def exec : Txn σ κ ρ α → σ → Except ρ (α × σ)
  | .pure a, s => .ok (a, s)
  | .abort r, _ => .error r
  | .read k, s => (k s).exec s
  | .acquire _ _ k, s => k.exec s
  | .write f k, s => k.exec (f s)

@[simp] theorem exec_pure (a : α) (s : σ) : (Pure.pure a : Txn σ κ ρ α).exec s = .ok (a, s) := rfl

@[simp] theorem exec_abort (r : ρ) (s : σ) : (Txn.abort r : Txn σ κ ρ α).exec s = .error r := rfl

@[simp] theorem exec_get (s : σ) : (get : Txn σ κ ρ σ).exec s = .ok (s, s) := rfl

@[simp] theorem exec_lock (key : κ) (mode : Mode) (s : σ) :
    (lock key mode : Txn σ κ ρ Unit).exec s = .ok ((), s) := rfl

@[simp] theorem exec_modify (f : σ → σ) (s : σ) : (modify f : Txn σ κ ρ Unit).exec s = .ok ((), f s) := rfl

@[simp] theorem exec_lockAll (keys : List κ) (s : σ) : (lockAll keys : Txn σ κ ρ Unit).exec s = .ok ((), s) := by
  induction keys with
  | nil => rfl
  | cons key keys ih => exact ih

@[simp] theorem exec_bind (x : Txn σ κ ρ α) (f : α → Txn σ κ ρ β) (s : σ) :
    (x >>= f).exec s = match x.exec s with
      | .ok (a, s') => (f a).exec s'
      | .error r => .error r := by
  change (x.bind f).exec s = _
  induction x generalizing s with
  | pure a => rfl
  | abort r => rfl
  | read k ih => exact ih s s
  | acquire key mode k ih => exact ih s
  | write g k ih => exact ih (g s)

/-! ### What a commit went through -/

theorem exec_bind_eq_ok {x : Txn σ κ ρ α} {f : α → Txn σ κ ρ β} {s s' : σ} {b : β} :
    (x >>= f).exec s = .ok (b, s') ↔ ∃ a s₁, x.exec s = .ok (a, s₁) ∧ (f a).exec s₁ = .ok (b, s') := by
  rw [exec_bind]
  cases hx : x.exec s with
  | error r => simp
  | ok p =>
      obtain ⟨a, s₁⟩ := p
      constructor
      · intro h
        exact ⟨a, s₁, rfl, h⟩
      · rintro ⟨a', s₁', heq, h⟩
        cases heq
        exact h

theorem exec_pure_eq_ok {a b : α} {s s' : σ} :
    (Pure.pure a : Txn σ κ ρ α).exec s = .ok (b, s') ↔ a = b ∧ s = s' := by
  rw [exec_pure, Except.ok.injEq, Prod.mk.injEq]

theorem exec_abort_eq_ok {r : ρ} {a : α} {s s' : σ} : ¬ (Txn.abort r : Txn σ κ ρ α).exec s = .ok (a, s') := by
  intro h
  cases h

theorem exec_get_eq_ok {s s' v : σ} : (get : Txn σ κ ρ σ).exec s = .ok (v, s') ↔ s = v ∧ s = s' := by
  rw [exec_get, Except.ok.injEq, Prod.mk.injEq]

theorem exec_lock_eq_ok {key : κ} {mode : Mode} {s s' : σ} {a : Unit} :
    (lock key mode : Txn σ κ ρ Unit).exec s = .ok (a, s') ↔ s = s' := by
  rw [exec_lock, Except.ok.injEq, Prod.mk.injEq]
  exact ⟨fun h => h.2, fun h => ⟨rfl, h⟩⟩

/-- One call of the store: the state afterwards, and what the caller gets. -/
def run {ε : Type} (x : Txn σ κ (Except ε α) α) (s : σ) : σ × Except ε α :=
  match x.exec s with
  | .ok (a, s') => (s', .ok a)
  | .error r => (s, r)

/-- A call either commits or leaves the state as it was. -/
theorem run_cases {ε : Type} (x : Txn σ κ (Except ε α) α) (s : σ) :
    (∃ a s', x.exec s = .ok (a, s') ∧ x.run s = (s', .ok a)) ∨ (∃ r, x.exec s = .error r ∧ x.run s = (s, r)) := by
  unfold run
  cases hx : x.exec s with
  | error r => exact Or.inr ⟨r, rfl, rfl⟩
  | ok p => exact Or.inl ⟨p.1, p.2, rfl, rfl⟩

/-! ### How a transaction can roll back -/

/-- Wherever the transaction rolls back, it is with a result in `P`. -/
def Aborts (P : ρ → Prop) : Txn σ κ ρ α → Prop
  | .pure _ => True
  | .abort r => P r
  | .read k => ∀ s, (k s).Aborts P
  | .acquire _ _ k => k.Aborts P
  | .write _ k => k.Aborts P

theorem aborts_bind {P : ρ → Prop} {x : Txn σ κ ρ α} {f : α → Txn σ κ ρ β} (hx : x.Aborts P)
    (hf : ∀ a, (f a).Aborts P) : (x >>= f).Aborts P := by
  change (x.bind f).Aborts P
  induction x with
  | pure a => exact hf a
  | abort r => exact hx
  | read k ih => exact fun s => ih s (hx s)
  | acquire key mode k ih => exact ih hx
  | write g k ih => exact ih hx

theorem aborts_get (P : ρ → Prop) : (get : Txn σ κ ρ σ).Aborts P := fun _ => trivial

theorem aborts_lockAll (P : ρ → Prop) (keys : List κ) : (lockAll keys : Txn σ κ ρ Unit).Aborts P := by
  induction keys with
  | nil => trivial
  | cons key keys ih => exact ih

theorem Aborts.exec {P : ρ → Prop} {x : Txn σ κ ρ α} (hx : x.Aborts P) {s : σ} {r : ρ} (h : x.exec s = .error r) :
    P r := by
  induction x generalizing s with
  | pure a => cases h
  | abort r' =>
      cases h
      exact hx
  | read k ih => exact ih s (hx s) h
  | acquire key mode k ih => exact ih hx h
  | write g k ih => exact ih hx h

end Txn

/-! ## Transactions in flight -/

/-- The locks of a transaction. -/
abbrev Held (κ : Type) : Type := List (κ × Mode)

/-- No lock of one is excluded by a lock of the other. -/
def Held.Compatible {κ : Type} (h h' : Held κ) : Prop :=
  ∀ l ∈ h, ∀ l' ∈ h', l.1 = l'.1 → l.2.excludes l'.2 = false

theorem Held.Compatible.clash {κ : Type} {h h' : Held κ} (hc : Held.Compatible h h') {k : κ} {m m' : Mode}
    (hk : (k, m) ∈ h) (hk' : (k, m') ∈ h') (hx : m.excludes m' = true) : False := by
  have := hc _ hk _ hk' rfl
  rw [hx] at this
  cases this

/-- A transaction in flight: which operation it is, when it began, what is left of it, its own writes, its locks. -/
structure Thread (σ κ ρ α τ ω : Type) where
  op : ω
  began : τ
  rest : Txn σ κ ρ α
  writes : σ → σ
  held : Held κ

/-- The committed state, the clock, the operations committed so far, and the transactions in flight. -/
structure World (σ κ ρ α τ ω : Type) where
  store : σ
  clock : τ
  log : List (ω × α)
  threads : List (Thread σ κ ρ α τ ω)

section Interleaving
variable {σ κ ρ α τ ω : Type} [Preorder τ]

/-- One step of the system, for operations that start as `body op now`. -/
inductive World.Step (body : ω → τ → Txn σ κ ρ α) : World σ κ ρ α τ ω → World σ κ ρ α τ ω → Prop where
  | tick (w : World σ κ ρ α τ ω) (c : τ) (hc : w.clock ≤ c) : Step body w { w with clock := c }
  | start (w : World σ κ ρ α τ ω) (op : ω) :
      Step body w { w with threads := ⟨op, w.clock, body op w.clock, id, []⟩ :: w.threads }
  | read (w : World σ κ ρ α τ ω) (pre post : List (Thread σ κ ρ α τ ω)) (op : ω) (t : τ) (k : σ → Txn σ κ ρ α)
      (d : σ → σ) (h : Held κ) (hw : w.threads = pre ++ ⟨op, t, .read k, d, h⟩ :: post) :
      Step body w { w with threads := pre ++ ⟨op, t, k (d w.store), d, h⟩ :: post }
  | acquire (w : World σ κ ρ α τ ω) (pre post : List (Thread σ κ ρ α τ ω)) (op : ω) (t : τ) (key : κ) (mode : Mode)
      (k : Txn σ κ ρ α) (d : σ → σ) (h : Held κ) (hw : w.threads = pre ++ ⟨op, t, .acquire key mode k, d, h⟩ :: post)
      (hfree : ∀ th ∈ pre ++ post, Held.Compatible [(key, mode)] th.held) :
      Step body w { w with threads := pre ++ ⟨op, t, k, d, (key, mode) :: h⟩ :: post }
  | write (w : World σ κ ρ α τ ω) (pre post : List (Thread σ κ ρ α τ ω)) (op : ω) (t : τ) (f : σ → σ)
      (k : Txn σ κ ρ α) (d : σ → σ) (h : Held κ) (hw : w.threads = pre ++ ⟨op, t, .write f k, d, h⟩ :: post) :
      Step body w { w with threads := pre ++ ⟨op, t, k, f ∘ d, h⟩ :: post }
  | commit (w : World σ κ ρ α τ ω) (pre post : List (Thread σ κ ρ α τ ω)) (op : ω) (t : τ) (a : α)
      (d : σ → σ) (h : Held κ) (hw : w.threads = pre ++ ⟨op, t, .pure a, d, h⟩ :: post) :
      Step body w { w with store := d w.store, log := w.log ++ [(op, a)], threads := pre ++ post }
  | rollback (w : World σ κ ρ α τ ω) (pre post : List (Thread σ κ ρ α τ ω)) (th : Thread σ κ ρ α τ ω)
      (hw : w.threads = pre ++ th :: post) : Step body w { w with threads := pre ++ post }

/-- The worlds reachable from a quiet one, starting only operations that satisfy `ok`. -/
inductive World.Reachable (body : ω → τ → Txn σ κ ρ α) (s₀ : σ) (c₀ : τ) (ok : ω → Prop) :
    World σ κ ρ α τ ω → Prop where
  | init : Reachable body s₀ c₀ ok ⟨s₀, c₀, [], []⟩
  | step {w w' : World σ κ ρ α τ ω} : Reachable body s₀ c₀ ok w → World.Step body w w' →
      (∀ th ∈ w'.threads, ok th.op) → Reachable body s₀ c₀ ok w'

namespace World.Reachable
variable {body : ω → τ → Txn σ κ ρ α} {s₀ s s' : σ} {c₀ c : τ} {ok : ω → Prop} {log : List (ω × α)} {op : ω} {a : α}

theorem tick {w : World σ κ ρ α τ ω} (hw : World.Reachable body s₀ c₀ ok w) {c : τ} (hc : w.clock ≤ c)
    (hops : ∀ th ∈ w.threads, ok th.op) : World.Reachable body s₀ c₀ ok { w with clock := c } :=
  .step hw (.tick w c hc) hops

/-- The rest of a transaction that nothing runs beside. -/
theorem finish (hop : ok op) {began : τ} {x : Txn σ κ ρ α} {d : σ → σ} {h : Held κ}
    (hw : World.Reachable body s₀ c₀ ok ⟨s, c, log, [⟨op, began, x, d, h⟩]⟩) (hx : x.exec (d s) = .ok (a, s')) :
    World.Reachable body s₀ c₀ ok ⟨s', c, log ++ [(op, a)], []⟩ := by
  have hok : ∀ {x : Txn σ κ ρ α} {d : σ → σ} {h : Held κ}, ∀ th ∈ ([] ++ ⟨op, began, x, d, h⟩ :: [] :
      List (Thread σ κ ρ α τ ω)), ok th.op := by
    intro x d h th hth
    rw [List.mem_singleton.1 hth]
    exact hop
  induction x generalizing d h with
  | pure b =>
      cases hx
      exact .step hw (.commit _ [] [] op began a d h rfl) (by simp)
  | abort r => cases hx
  | read k ih => exact ih (d s) (.step hw (.read _ [] [] op began k d h rfl) hok) hx
  | acquire key mode k ih => exact ih (.step hw (.acquire _ [] [] op began key mode k d h rfl (by simp)) hok) hx
  | write f k ih => exact ih (.step hw (.write _ [] [] op began f k d h rfl) hok) hx

/-- A transaction that runs alone commits what `exec` says: the runs of one call after the other are among the
interleavings. -/
theorem alone (hw : World.Reachable body s₀ c₀ ok ⟨s, c, log, []⟩) (hop : ok op) (hx : (body op c).exec s = .ok (a, s')) :
    World.Reachable body s₀ c₀ ok ⟨s', c, log ++ [(op, a)], []⟩ := by
  refine finish hop (.step hw (.start _ op) ?_) hx
  intro th hth
  rw [List.mem_singleton.1 hth]
  exact hop

end World.Reachable

/-! ### One transaction among the others -/

omit [Preorder τ] in
theorem forall_mem_middle {pre post : List (Thread σ κ ρ α τ ω)} {th : Thread σ κ ρ α τ ω}
    {p : Thread σ κ ρ α τ ω → Prop} :
    (∀ t ∈ pre ++ th :: post, p t) ↔ p th ∧ ∀ t ∈ pre ++ post, p t := by
  simp only [List.mem_append, List.mem_cons]
  constructor
  · intro h
    exact ⟨h th (Or.inr (Or.inl rfl)), fun t ht => h t (ht.imp_right Or.inr)⟩
  · rintro ⟨hth, h⟩ t (ht | rfl | ht)
    · exact h t (Or.inl ht)
    · exact hth
    · exact h t (Or.inr ht)

/-- A property of transactions in flight that each of their own statements keeps. -/
structure ThreadInv (body : ω → τ → Txn σ κ ρ α) (ok : ω → Prop) (T : Thread σ κ ρ α τ ω → Prop) : Prop where
  start : ∀ op now, ok op → T ⟨op, now, body op now, id, []⟩
  read : ∀ {op t k d h} (s : σ), T ⟨op, t, .read k, d, h⟩ → T ⟨op, t, k s, d, h⟩
  acquire : ∀ {op t key mode k d h}, T ⟨op, t, .acquire key mode k, d, h⟩ → T ⟨op, t, k, d, (key, mode) :: h⟩
  write : ∀ {op t f k d h}, T ⟨op, t, .write f k, d, h⟩ → T ⟨op, t, k, f ∘ d, h⟩

theorem World.Reachable.ops_ok {body : ω → τ → Txn σ κ ρ α} {s₀ : σ} {c₀ : τ} {ok : ω → Prop}
    {w : World σ κ ρ α τ ω} (hw : World.Reachable body s₀ c₀ ok w) : ∀ th ∈ w.threads, ok th.op := by
  cases hw with
  | init => simp
  | step _ _ hops => exact hops

theorem World.Reachable.mono {body : ω → τ → Txn σ κ ρ α} {s₀ : σ} {c₀ : τ} {ok ok' : ω → Prop}
    {w : World σ κ ρ α τ ω} (hw : World.Reachable body s₀ c₀ ok w) (h : ∀ op, ok op → ok' op) :
    World.Reachable body s₀ c₀ ok' w := by
  induction hw with
  | init => exact .init
  | step _ hs hops ih => exact .step ih hs fun th hth => h _ (hops th hth)

theorem World.Reachable.forall_threads {body : ω → τ → Txn σ κ ρ α} {s₀ : σ} {c₀ : τ} {ok : ω → Prop}
    {T : Thread σ κ ρ α τ ω → Prop} (hT : ThreadInv body ok T) {w : World σ κ ρ α τ ω}
    (hw : World.Reachable body s₀ c₀ ok w) : ∀ th ∈ w.threads, T th := by
  induction hw with
  | init => simp
  | @step w w' _ hs hops ih =>
      cases hs with
      | tick c hc => exact ih
      | start op =>
          intro th hth
          rcases List.mem_cons.1 hth with rfl | hth
          · exact hT.start op w.clock (hops _ List.mem_cons_self)
          · exact ih th hth
      | read pre post op t k d h hth =>
          rw [hth, forall_mem_middle] at ih
          exact forall_mem_middle.2 ⟨hT.read _ ih.1, ih.2⟩
      | acquire pre post op t key mode k d h hth hfree =>
          rw [hth, forall_mem_middle] at ih
          exact forall_mem_middle.2 ⟨hT.acquire ih.1, ih.2⟩
      | write pre post op t f k d h hth =>
          rw [hth, forall_mem_middle] at ih
          exact forall_mem_middle.2 ⟨hT.write ih.1, ih.2⟩
      | commit pre post op t a d h hth =>
          rw [hth, forall_mem_middle] at ih
          exact ih.2
      | rollback pre post th hth =>
          rw [hth, forall_mem_middle] at ih
          exact ih.2

/-- The committed state only changes by the writes of a transaction. -/
theorem World.Step.store_cases {body : ω → τ → Txn σ κ ρ α} {w w' : World σ κ ρ α τ ω} (hs : World.Step body w w') :
    w'.store = w.store ∨ ∃ th ∈ w.threads, w'.store = th.writes w.store := by
  cases hs with
  | commit pre post op t a d h hth => exact Or.inr ⟨⟨op, t, .pure a, d, h⟩, by rw [hth]; simp, rfl⟩
  | _ => exact Or.inl rfl

/-- The step that ends a transaction commits its writes, or nothing. -/
theorem World.Step.ended {body : ω → τ → Txn σ κ ρ α} {w w' : World σ κ ρ α τ ω}
    {pre post : List (Thread σ κ ρ α τ ω)} {th : Thread σ κ ρ α τ ω} (hs : World.Step body w w')
    (hw : w.threads = pre ++ th :: post) (hw' : w'.threads = pre ++ post) :
    w'.store = th.writes w.store ∨ w'.store = w.store := by
  have hlen : w'.threads.length + 1 = w.threads.length := by
    rw [hw, hw']
    simp only [List.length_append, List.length_cons]
    omega
  cases hs with
  | tick c hc => exact Or.inr rfl
  | start op =>
      rw [List.length_cons] at hlen
      omega
  | read pre' post' op t k d h hth => exact Or.inr rfl
  | acquire pre' post' op t key mode k d h hth hfree => exact Or.inr rfl
  | write pre' post' op t f k d h hth => exact Or.inr rfl
  | commit pre' post' op t a d h hth =>
      -- the same list with one transaction less, so it is the same transaction
      have hperm : (pre ++ th :: post).Perm (pre' ++ ⟨op, t, .pure a, d, h⟩ :: post') := by rw [← hw, hth]
      have hrest : pre' ++ post' = pre ++ post := hw'
      have hcons := (List.perm_middle.symm.trans hperm).trans List.perm_middle
      rw [hrest] at hcons
      have hth' := (Multiset.cons_inj_left _).1 (show th ::ₘ ((pre ++ post : List _) : Multiset _) =
        ⟨op, t, .pure a, d, h⟩ ::ₘ ((pre ++ post : List _) : Multiset _) from Quot.sound hcons)
      rw [hth']
      exact Or.inl rfl
  | rollback pre' post' th' hth => exact Or.inr rfl

/-- What commits may do: the invariant they keep, and what a commit guarantees to the transactions it runs beside,
by the locks it holds. -/
structure Protocol (σ κ τ : Type) (ω α : Type) [Preorder τ] where
  Inv : σ → τ → List (ω × α) → Prop
  Guarantee : Held κ → σ → σ → Prop
  inv_tick : ∀ {s c c' l}, c ≤ c' → Inv s c l → Inv s c' l

namespace Protocol
variable (P : Protocol σ κ τ ω α)

/-- The fact survives every commit that can happen while `h` is held. -/
def Stable (h : Held κ) (F : σ → Prop) : Prop :=
  ∀ h' s s', Held.Compatible h h' → P.Guarantee h' s s' → F s → F s'

/-- What a transaction has to show where it commits. -/
def Final (op : ω) (began : τ) (a : α) (h : Held κ) (d : σ → σ) (F : σ → Prop) : Prop :=
  ∀ s c l, began ≤ c → P.Inv s c l → F s → P.Inv (d s) c (l ++ [(op, a)]) ∧ P.Guarantee h s (d s)

theorem stable_true (h : Held κ) : P.Stable h fun _ => True := fun _ _ _ _ _ _ => trivial

theorem Stable.mono {P : Protocol σ κ τ ω α} {h h' : Held κ} {F : σ → Prop} (hF : P.Stable h F) (hh : h ⊆ h') :
    P.Stable h' F := by
  intro h'' s s' hc
  exact hF h'' s s' fun m hm => hc m (hh hm)

theorem Stable.and {P : Protocol σ κ τ ω α} {h : Held κ} {F F' : σ → Prop} (hF : P.Stable h F)
    (hF' : P.Stable h F') : P.Stable h fun s => F s ∧ F' s := by
  intro h' s s' hc hg hs
  exact ⟨hF h' s s' hc hg hs.1, hF' h' s s' hc hg hs.2⟩

end Protocol

/-! ## Preconditions under interference -/

/-- Whatever the others commit meanwhile, the rest of the transaction is fine: `F` is what is known of the committed
state, `d` the own writes, `h` the locks; `Q` has to hold where it would commit. -/
def Txn.wp (P : Protocol σ κ τ ω α) {β : Type} : Txn σ κ ρ β →
    (β → Held κ → (σ → σ) → (σ → Prop) → Prop) → Held κ → (σ → σ) → (σ → Prop) → Prop
  | .pure a, Q, h, d, F => Q a h d F
  | .abort _, _, _, _, _ => True
  | .read k, Q, h, d, F => ∀ v, ∃ F', P.Stable h F' ∧ (∀ s c l, P.Inv s c l → F s → d s = v → F' s) ∧
      Txn.wp P (k v) Q h d F'
  | .acquire key mode k, Q, h, d, F => Txn.wp P k Q ((key, mode) :: h) d F
  | .write f k, Q, h, d, F => Txn.wp P k Q h (f ∘ d) F

namespace Txn
variable {β γ : Type} {P : Protocol σ κ τ ω α}

theorem wp_bind {x : Txn σ κ ρ β} {f : β → Txn σ κ ρ γ} {Q : γ → Held κ → (σ → σ) → (σ → Prop) → Prop} {h : Held κ}
    {d : σ → σ} {F : σ → Prop} (hx : x.wp P (fun b h d F => (f b).wp P Q h d F) h d F) : (x >>= f).wp P Q h d F := by
  change (x.bind f).wp P Q h d F
  induction x generalizing h d F with
  | pure a => exact hx
  | abort r => trivial
  | read k ih =>
      intro v
      obtain ⟨F', hst, himp, hk⟩ := hx v
      exact ⟨F', hst, himp, ih v hk⟩
  | acquire key mode k ih => exact ih hx
  | write g k ih => exact ih hx

/-- What is known after a read may depend on what was read. -/
theorem wp_get_cases {Q : σ → Held κ → (σ → σ) → (σ → Prop) → Prop} {h : Held κ} {d : σ → σ} {F : σ → Prop}
    (hQ : ∀ v, ∃ F', P.Stable h F' ∧ (∀ s c l, P.Inv s c l → F s → d s = v → F' s) ∧ Q v h d F') :
    (get : Txn σ κ ρ σ).wp P Q h d F := hQ

theorem wp_get {Q : σ → Held κ → (σ → σ) → (σ → Prop) → Prop} {h : Held κ} {d : σ → σ} {F : σ → Prop}
    (hF : P.Stable h F) (hQ : ∀ v, Q v h d F) : (get : Txn σ κ ρ σ).wp P Q h d F := by
  intro v
  exact ⟨F, hF, fun _ _ _ _ hs _ => hs, hQ v⟩

theorem wp_lock {Q : Unit → Held κ → (σ → σ) → (σ → Prop) → Prop} {h : Held κ} {d : σ → σ} {F : σ → Prop} {key : κ}
    {mode : Mode} (hQ : Q () ((key, mode) :: h) d F) : (lock key mode : Txn σ κ ρ Unit).wp P Q h d F := hQ

theorem wp_lockAll {Q : Unit → Held κ → (σ → σ) → (σ → Prop) → Prop} {h : Held κ} {d : σ → σ} {F : σ → Prop}
    {keys : List κ} (hQ : ∀ h', h ⊆ h' → (∀ key ∈ keys, (key, .exclusive) ∈ h') → Q () h' d F) :
    (lockAll keys : Txn σ κ ρ Unit).wp P Q h d F := by
  induction keys generalizing h with
  | nil => exact hQ h (List.Subset.refl h) (by simp)
  | cons key keys ih =>
      refine ih fun h' hh' hkeys => hQ h' ?_ ?_
      · exact fun l hl => hh' (List.mem_cons_of_mem _ hl)
      · intro k hk
        rcases List.mem_cons.1 hk with rfl | hk
        · exact hh' List.mem_cons_self
        · exact hkeys k hk

end Txn

/-! ### Writes that only the locks justify -/

/-- A kind of writes under locks that contains doing nothing, is closed under composition, and does not mind more
locks. -/
structure WriteKind (G : Held κ → (σ → σ) → Prop) : Prop where
  id : ∀ h, G h id
  comp : ∀ {h f g}, G h f → G h g → G h (g ∘ f)
  mono : ∀ {h h' f}, h ⊆ h' → G h f → G h' f

namespace Txn
variable {β γ : Type} {P : Protocol σ κ τ ω α} {A : Held κ → σ → Prop} {G : Held κ → (σ → σ) → Prop}

/-- As long as the states it reads are in `A`, every write is of the kind `G`, for the locks held where it is made. -/
def Within (A : Held κ → σ → Prop) (G : Held κ → (σ → σ) → Prop) : Txn σ κ ρ β → Held κ → Prop
  | .pure _, _ => True
  | .abort _, _ => True
  | .read k, h => ∀ s, A h s → (k s).Within A G h
  | .acquire key mode k, h => k.Within A G ((key, mode) :: h)
  | .write f k, h => G h f ∧ k.Within A G h

theorem within_bind {x : Txn σ κ ρ β} {f : β → Txn σ κ ρ γ} {h : Held κ} (hx : x.Within A G h)
    (hf : ∀ b h', h ⊆ h' → (f b).Within A G h') : (x >>= f).Within A G h := by
  change (x.bind f).Within A G h
  induction x generalizing h with
  | pure a => exact hf a h (List.Subset.refl h)
  | abort r => trivial
  | read k ih => exact fun s hs => ih s (hx s hs) hf
  | acquire key mode k ih => exact ih hx fun b h' hh => hf b h' fun l hl => hh (List.mem_cons_of_mem _ hl)
  | write g k ih => exact ⟨hx.1, ih hx.2 hf⟩

/-- Whatever the transaction returns satisfies `P`. -/
def Returns (P : β → Prop) : Txn σ κ ρ β → Prop
  | .pure b => P b
  | .abort _ => True
  | .read k => ∀ s, (k s).Returns P
  | .acquire _ _ k => k.Returns P
  | .write _ k => k.Returns P

theorem Returns.mono {P Q : β → Prop} {x : Txn σ κ ρ β} (hx : x.Returns P) (h : ∀ b, P b → Q b) : x.Returns Q := by
  induction x with
  | pure a => exact h a hx
  | abort r => trivial
  | read k ih => exact fun s => ih s (hx s)
  | acquire key mode k ih => exact ih hx
  | write g k ih => exact ih hx

theorem returns_of {P : β → Prop} (h : ∀ b, P b) (x : Txn σ κ ρ β) : x.Returns P := by
  induction x with
  | pure a => exact h a
  | abort r => trivial
  | read k ih => exact fun s => ih s
  | acquire key mode k ih => exact ih
  | write g k ih => exact ih

theorem returns_bind {P : γ → Prop} {x : Txn σ κ ρ β} {f : β → Txn σ κ ρ γ} (hf : ∀ b, (f b).Returns P) :
    (x >>= f).Returns P := by
  change (x.bind f).Returns P
  induction x with
  | pure a => exact hf a
  | abort r => trivial
  | read k ih => exact fun s => ih s
  | acquire key mode k ih => exact ih
  | write g k ih => exact ih

theorem returns_bind_of {P : β → Prop} {Q : γ → Prop} {x : Txn σ κ ρ β} {f : β → Txn σ κ ρ γ} (hx : x.Returns P)
    (hf : ∀ b, P b → (f b).Returns Q) : (x >>= f).Returns Q := by
  change (x.bind f).Returns Q
  induction x with
  | pure a => exact hf a hx
  | abort r => trivial
  | read k ih => exact fun s => ih s (hx s)
  | acquire key mode k ih => exact ih hx
  | write g k ih => exact ih hx

theorem within_bind_returns {P : β → Prop} {x : Txn σ κ ρ β} {f : β → Txn σ κ ρ γ} {h : Held κ}
    (hx : x.Within A G h) (hP : x.Returns P) (hf : ∀ b h', P b → h ⊆ h' → (f b).Within A G h') :
    (x >>= f).Within A G h := by
  change (x.bind f).Within A G h
  induction x generalizing h with
  | pure a => exact hf a h hP (List.Subset.refl h)
  | abort r => trivial
  | read k ih => exact fun s hs => ih s (hx s hs) (hP s) hf
  | acquire key mode k ih => exact ih hx hP fun b h' hb hh => hf b h' hb fun l hl => hh (List.mem_cons_of_mem _ hl)
  | write g k ih => exact ⟨hx.1, ih hx.2 hP hf⟩

theorem within_get {h : Held κ} : (get : Txn σ κ ρ σ).Within A G h := fun _ _ => trivial

theorem within_get_bind {f : σ → Txn σ κ ρ γ} {h : Held κ} (hf : ∀ s, A h s → (f s).Within A G h) :
    (get >>= f).Within A G h := hf

theorem within_lock_bind {key : κ} {mode : Mode} {f : Unit → Txn σ κ ρ γ} {h : Held κ}
    (hf : (f ()).Within A G ((key, mode) :: h)) : (lock key mode >>= f).Within A G h := hf

theorem within_lockAll_bind {keys : List κ} {x : Txn σ κ ρ γ} {h : Held κ}
    (hx : ∀ h', h ⊆ h' → (∀ key ∈ keys, (key, .exclusive) ∈ h') → x.Within A G h') :
    ((lockAll keys : Txn σ κ ρ Unit) >>= fun _ => x).Within A G h := by
  induction keys generalizing h with
  | nil => exact hx h (List.Subset.refl h) (by simp)
  | cons key keys ih =>
      refine ih fun h' hh' hkeys => hx h' ?_ ?_
      · exact fun l hl => hh' (List.mem_cons_of_mem _ hl)
      · intro k hk
        rcases List.mem_cons.1 hk with rfl | hk
        · exact hh' List.mem_cons_self
        · exact hkeys k hk

/-- Whatever it reads, every write is of the kind. -/
abbrev Writes (G : Held κ → (σ → σ) → Prop) (x : Txn σ κ ρ β) (h : Held κ) : Prop := x.Within (fun _ _ => True) G h

/-- What is known stays known, and the writes of the transaction are of the kind. -/
theorem wp_within (hG : WriteKind G) {x : Txn σ κ ρ β} {Q : β → Held κ → (σ → σ) → (σ → Prop) → Prop} {h : Held κ}
    {d : σ → σ} {F : σ → Prop} (hx : x.Writes G h) (hF : P.Stable h F)
    (hQ : ∀ b h' e, h ⊆ h' → G h' e → Q b h' (e ∘ d) F) : x.wp P Q h d F := by
  induction x generalizing h d with
  | pure a => exact hQ a h (fun s => s) (List.Subset.refl h) (hG.id h)
  | abort r => trivial
  | read k ih => exact fun v => ⟨F, hF, fun _ _ _ _ hs _ => hs, ih v (hx v trivial) hF hQ⟩
  | acquire key mode k ih =>
      have hsub : h ⊆ (key, mode) :: h := List.subset_cons_self _ _
      exact ih hx (hF.mono hsub) fun b h' e hh => hQ b h' e fun l hl => hh (hsub hl)
  | write g k ih =>
      refine ih hx.2 hF fun b h' e hh he => ?_
      exact hQ b h' (e ∘ g) hh (hG.comp (hG.mono hh hx.1) he)

omit [Preorder τ] in
theorem threadInv_returns {body : ω → τ → Txn σ κ ρ α} {ok : ω → Prop} {R : ω → α → Prop}
    (hbody : ∀ op now, ok op → (body op now).Returns (R op)) : ThreadInv body ok fun th => th.rest.Returns (R th.op) where
  start op now hop := hbody op now hop
  read s hth := hth s
  acquire hth := hth
  write hth := hth

omit [Preorder τ] in
/-- What the operations in `sel` wrote so far, and what they may still write, are of the kind. -/
theorem threadInv_writes {body : ω → τ → Txn σ κ ρ α} {ok : ω → Prop} (sel : ω → Prop) (hG : WriteKind G)
    (hbody : ∀ op now, ok op → sel op → (body op now).Writes G []) :
    ThreadInv body ok fun th => sel th.op → th.rest.Writes G th.held ∧ G th.held th.writes where
  start op now hop hsel := ⟨hbody op now hop hsel, hG.id []⟩
  read s hth hsel := ⟨(hth hsel).1 s trivial, (hth hsel).2⟩
  acquire hth hsel := ⟨(hth hsel).1, hG.mono (List.subset_cons_self _ _) (hth hsel).2⟩
  write {_ _ f _ d _} hth hsel := ⟨(hth hsel).1.2, hG.comp (f := d) (g := f) (hth hsel).2 (hth hsel).1.1⟩

/-- Writes that keep a property of the state. -/
def Preserving (I : σ → Prop) (_ : Held κ) (f : σ → σ) : Prop := ∀ s, I s → I (f s)

omit [Preorder τ] in
theorem writeKind_preserving (I : σ → Prop) : WriteKind (@Preserving σ κ I) where
  id _ _ hs := hs
  comp hf hg s hs := hg _ (hf s hs)
  mono _ hf := hf

end Txn

/-- What every write of every transaction keeps is so in every reachable state. -/
theorem World.Reachable.store_inv {body : ω → τ → Txn σ κ ρ α} {s₀ : σ} {c₀ : τ} {ok : ω → Prop} {I : σ → Prop}
    (h₀ : I s₀) (hbody : ∀ op now, ok op → (body op now).Writes (Txn.Preserving I) []) {w : World σ κ ρ α τ ω}
    (hw : World.Reachable body s₀ c₀ ok w) : I w.store := by
  induction hw with
  | init => exact h₀
  | @step w w' hw hs hops ih =>
      rcases hs.store_cases with heq | ⟨th, hth, heq⟩
      · rw [heq]
        exact ih
      · have hT := Txn.threadInv_writes (fun _ => True) (Txn.writeKind_preserving I) fun op now hop _ => hbody op now hop
        rw [heq]
        exact (hw.forall_threads hT th hth trivial).2 _ ih

namespace Protocol
variable {P : Protocol σ κ τ ω α}

/-- A transaction that may start: from no knowledge, no writes and no locks it ends well. -/
def Safe (P : Protocol σ κ τ ω α) (op : ω) (now : τ) (x : Txn σ κ ρ α) : Prop :=
  x.wp P (P.Final op now) [] id fun _ => True

/-- What is known of a transaction in flight. -/
def ThreadOk (P : Protocol σ κ τ ω α) (s : σ) (c : τ) (th : Thread σ κ ρ α τ ω) : Prop :=
  th.began ≤ c ∧ ∃ F, F s ∧ P.Stable th.held F ∧ th.rest.wp P (P.Final th.op th.began) th.held th.writes F

/-- The invariant of the whole system. -/
structure WorldOk (P : Protocol σ κ τ ω α) (w : World σ κ ρ α τ ω) : Prop where
  inv : P.Inv w.store w.clock w.log
  threads : ∀ th ∈ w.threads, P.ThreadOk w.store w.clock th
  locks : w.threads.Pairwise fun a b => Held.Compatible a.held b.held

end Protocol

theorem Mode.excludes_comm (m n : Mode) : m.excludes n = n.excludes m := by cases m <;> cases n <;> rfl

theorem Held.Compatible.symm {h h' : Held κ} (hc : Held.Compatible h h') : Held.Compatible h' h := by
  intro l hl l' hl' heq
  rw [Mode.excludes_comm]
  exact hc l' hl' l hl heq.symm

theorem Held.Compatible.cons {l : κ × Mode} {h h' : Held κ} (hl : Held.Compatible [l] h')
    (hc : Held.Compatible h h') : Held.Compatible (l :: h) h' := by
  intro m hm
  rcases List.mem_cons.1 hm with rfl | hm
  · exact hl m (List.mem_singleton_self m)
  · exact hc m hm

omit [Preorder τ] in
/-- Pairwise compatibility, seen from one transaction of the list. -/
theorem pairwise_compatible_iff {pre post : List (Thread σ κ ρ α τ ω)} {th : Thread σ κ ρ α τ ω} :
    (pre ++ th :: post).Pairwise (fun a b => Held.Compatible a.held b.held) ↔
      (pre ++ post).Pairwise (fun a b => Held.Compatible a.held b.held) ∧
        ∀ t ∈ pre ++ post, Held.Compatible th.held t.held := by
  have hmid : (pre ++ th :: post).Pairwise (fun a b => Held.Compatible a.held b.held) ↔
      (th :: (pre ++ post)).Pairwise (fun a b => Held.Compatible a.held b.held) :=
    List.pairwise_middle fun h => Held.Compatible.symm h
  rw [hmid, List.pairwise_cons]
  exact and_comm

/-- No step lets two transactions hold locks that exclude each other. -/
theorem World.Step.compatible {body : ω → τ → Txn σ κ ρ α} {w w' : World σ κ ρ α τ ω} (hs : World.Step body w w')
    (hl : w.threads.Pairwise fun a b => Held.Compatible a.held b.held) :
    w'.threads.Pairwise fun a b => Held.Compatible a.held b.held := by
  cases hs with
  | tick c hc => exact hl
  | start op =>
      rw [List.pairwise_cons]
      refine ⟨?_, hl⟩
      intro t _ l hmem
      cases hmem
  | read pre post op t k d h hw =>
      rw [hw, pairwise_compatible_iff] at hl
      exact pairwise_compatible_iff.2 hl
  | acquire pre post op t key mode k d h hw hfree =>
      rw [hw, pairwise_compatible_iff] at hl
      exact pairwise_compatible_iff.2 ⟨hl.1, fun t ht => (hfree t ht).cons (hl.2 t ht)⟩
  | write pre post op t f k d h hw =>
      rw [hw, pairwise_compatible_iff] at hl
      exact pairwise_compatible_iff.2 hl
  | commit pre post op t a d h hw =>
      rw [hw, pairwise_compatible_iff] at hl
      exact hl.1
  | rollback pre post th hw =>
      rw [hw, pairwise_compatible_iff] at hl
      exact hl.1

theorem World.Reachable.compatible {body : ω → τ → Txn σ κ ρ α} {s₀ : σ} {c₀ : τ} {ok : ω → Prop}
    {w : World σ κ ρ α τ ω} (hw : World.Reachable body s₀ c₀ ok w) :
    w.threads.Pairwise fun a b => Held.Compatible a.held b.held := by
  induction hw with
  | init => exact List.Pairwise.nil
  | step _ hs _ ih => exact hs.compatible ih

namespace Protocol
variable {P : Protocol σ κ τ ω α}

/-- One step keeps the invariant of the system. -/
theorem WorldOk.step {body : ω → τ → Txn σ κ ρ α} {w w' : World σ κ ρ α τ ω} (hok : P.WorldOk w)
    (hs : World.Step body w w') (hsafe : ∀ th ∈ w'.threads, ∀ now, P.Safe th.op now (body th.op now)) :
    P.WorldOk w' := by
  have hlocks := hs.compatible hok.locks
  have hthreads := hok.threads
  cases hs with
  | tick c hc =>
      refine ⟨P.inv_tick hc hok.inv, ?_, hlocks⟩
      intro th hth
      obtain ⟨hb, F, hF, hst, hwp⟩ := hthreads th hth
      exact ⟨hb.trans hc, F, hF, hst, hwp⟩
  | start op =>
      refine ⟨hok.inv, ?_, hlocks⟩
      intro th hth
      rcases List.mem_cons.1 hth with rfl | hth
      · refine ⟨le_refl _, fun _ => True, trivial, P.stable_true _, ?_⟩
        exact hsafe _ List.mem_cons_self w.clock
      · exact hthreads th hth
  | read pre post op t k d h hw =>
      rw [hw, forall_mem_middle] at hthreads
      obtain ⟨⟨hb, F, hF, hst, hwp⟩, hrest⟩ := hthreads
      obtain ⟨F', hst', himp, hk⟩ := hwp (d w.store)
      have hth : P.ThreadOk w.store w.clock ⟨op, t, k (d w.store), d, h⟩ :=
        ⟨hb, F', himp _ _ _ hok.inv hF rfl, hst', hk⟩
      exact ⟨hok.inv, forall_mem_middle.2 ⟨hth, hrest⟩, hlocks⟩
  | acquire pre post op t key mode k d h hw hfree =>
      rw [hw, forall_mem_middle] at hthreads
      obtain ⟨⟨hb, F, hF, hst, hwp⟩, hrest⟩ := hthreads
      have hth : P.ThreadOk w.store w.clock ⟨op, t, k, d, (key, mode) :: h⟩ :=
        ⟨hb, F, hF, hst.mono (List.subset_cons_self _ _), hwp⟩
      exact ⟨hok.inv, forall_mem_middle.2 ⟨hth, hrest⟩, hlocks⟩
  | write pre post op t f k d h hw =>
      rw [hw, forall_mem_middle] at hthreads
      obtain ⟨⟨hb, F, hF, hst, hwp⟩, hrest⟩ := hthreads
      have hth : P.ThreadOk w.store w.clock ⟨op, t, k, f ∘ d, h⟩ := ⟨hb, F, hF, hst, hwp⟩
      exact ⟨hok.inv, forall_mem_middle.2 ⟨hth, hrest⟩, hlocks⟩
  | commit pre post op t a d h hw =>
      rw [hw, forall_mem_middle] at hthreads
      obtain ⟨⟨hb, F, hF, -, hwp⟩, hrest⟩ := hthreads
      obtain ⟨hinv, hguar⟩ := hwp w.store w.clock w.log hb hok.inv hF
      have hl := hok.locks
      rw [hw, pairwise_compatible_iff] at hl
      refine ⟨hinv, ?_, hlocks⟩
      intro th hth
      obtain ⟨hb', F', hF', hst', hwp'⟩ := hrest th hth
      exact ⟨hb', F', hst' h _ _ (hl.2 th hth).symm hguar hF', hst', hwp'⟩
  | rollback pre post th hw =>
      rw [hw, forall_mem_middle] at hthreads
      exact ⟨hok.inv, hthreads.2, hlocks⟩

/-- Every run of safe transactions keeps the invariant. -/
theorem inv_of_reachable {body : ω → τ → Txn σ κ ρ α} {s₀ : σ} {c₀ : τ} {ok : ω → Prop}
    (h₀ : P.Inv s₀ c₀ []) (hsafe : ∀ op, ok op → ∀ now, P.Safe op now (body op now)) {w : World σ κ ρ α τ ω}
    (hw : World.Reachable body s₀ c₀ ok w) : P.Inv w.store w.clock w.log := by
  have hworld : P.WorldOk w := by
    induction hw with
    | init => exact ⟨h₀, by simp, List.Pairwise.nil⟩
    | step _ hs hops ih => exact ih.step hs fun th hth => hsafe th.op (hops th hth)
  exact hworld.inv

end Protocol
end Interleaving
end Keychute.Lib
