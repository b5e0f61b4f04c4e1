import Keychute.Lib.Statements

/-!
# When the statements of a transaction run

`Txn.Timed` is one execution of a transaction up to its commit, among whatever else happens: a statement runs at some
time, on whatever is committed by then, and any amount of time passes before it (for a lock that another transaction
holds, for computing what is written, or for nothing at all). Its `Mark`s are the waits and the writes, in order.

* `World.Noted` : a transaction of an interleaving, with its marks so far; `Noted.timed` : these are the marks of an
  execution, `exists_noted` : every transaction in flight has them;
* `timed_bind`, `Timed.of_quiet`, `Rel.timed_updateWhere` : taking an execution apart;
* `Timed.le_of_prompt` : what runs before any time has passed runs when the transaction began;
* `World.Noted.finish` : the rest of a transaction that runs alone, all at one time.
-/

namespace Keychute.Lib

variable {σ κ ρ α β τ ω : Type} [Preorder τ]

/-- What an observer notes of a transaction. -/
inductive Mark (σ τ : Type) where
  | waited (since till : τ)
  | wrote (time : τ) (f : σ → σ)

namespace Mark

def isWait : Mark σ τ → Bool
  | .waited _ _ => true
  | .wrote _ _ => false

/-- No time passed. -/
def Prompt : Mark σ τ → Prop
  | .waited since till => till ≤ since
  | .wrote _ _ => True

end Mark

/-- From the own writes `d` at time `c`, the transaction commits `a` with the writes `d'` at time `c'`. -/
inductive Txn.Timed : Txn σ κ ρ α → (σ → σ) → τ → List (Mark σ τ) → α → (σ → σ) → τ → Prop where
  | done (a : α) (d : σ → σ) (c : τ) : Timed (.pure a) d c [] a d c
  | wait {x : Txn σ κ ρ α} {d d' : σ → σ} {c c' c'' : τ} {ms : List (Mark σ τ)} {a : α} (hc : c ≤ c')
      (h : Timed x d c' ms a d' c'') : Timed x d c (.waited c c' :: ms) a d' c''
  | read {k : σ → Txn σ κ ρ α} {d d' : σ → σ} {c c' : τ} {ms : List (Mark σ τ)} {a : α} (s : σ)
      (h : Timed (k (d s)) d c ms a d' c') : Timed (.read k) d c ms a d' c'
  | acquire {key : κ} {mode : Mode} {k : Txn σ κ ρ α} {d d' : σ → σ} {c c' : τ} {ms : List (Mark σ τ)} {a : α}
      (h : Timed k d c ms a d' c') : Timed (.acquire key mode k) d c ms a d' c'
  | write {f : σ → σ} {k : Txn σ κ ρ α} {d d' : σ → σ} {c c' : τ} {ms : List (Mark σ τ)} {a : α}
      (h : Timed k (f ∘ d) c ms a d' c') : Timed (.write f k) d c (.wrote c f :: ms) a d' c'

/-! ### The transactions of an interleaving -/

section Interleaving
variable {body : ω → τ → Txn σ κ ρ α} {s₀ : σ} {c₀ : τ} {ok : ω → Prop}

/-- A transaction of a run, with what an observer has noted of it since it began. -/
inductive World.Noted (body : ω → τ → Txn σ κ ρ α) (s₀ : σ) (c₀ : τ) (ok : ω → Prop) :
    World σ κ ρ α τ ω → Thread σ κ ρ α τ ω → List (Mark σ τ) → Prop where
  | start {w : World σ κ ρ α τ ω} (hw : World.Reachable body s₀ c₀ ok w) (op : ω) (hop : ok op) :
      Noted body s₀ c₀ ok { w with threads := ⟨op, w.clock, body op w.clock, id, []⟩ :: w.threads }
        ⟨op, w.clock, body op w.clock, id, []⟩ []
  | tick {w : World σ κ ρ α τ ω} {th : Thread σ κ ρ α τ ω} {ms : List (Mark σ τ)} (hn : Noted body s₀ c₀ ok w th ms)
      (c : τ) (hc : w.clock ≤ c) : Noted body s₀ c₀ ok { w with clock := c } th (ms ++ [.waited w.clock c])
  | other {w w' : World σ κ ρ α τ ω} {th : Thread σ κ ρ α τ ω} {ms : List (Mark σ τ)} (hn : Noted body s₀ c₀ ok w th ms)
      (hs : World.Step body w w') (hops : ∀ th ∈ w'.threads, ok th.op) (hclock : w'.clock = w.clock)
      (hth : th ∈ w'.threads) : Noted body s₀ c₀ ok w' th ms
  | read {w : World σ κ ρ α τ ω} {pre post : List (Thread σ κ ρ α τ ω)} {op : ω} {t : τ} {k : σ → Txn σ κ ρ α}
      {d : σ → σ} {h : Held κ} {ms : List (Mark σ τ)} (hn : Noted body s₀ c₀ ok w ⟨op, t, .read k, d, h⟩ ms)
      (hw : w.threads = pre ++ ⟨op, t, .read k, d, h⟩ :: post) :
      Noted body s₀ c₀ ok { w with threads := pre ++ ⟨op, t, k (d w.store), d, h⟩ :: post }
        ⟨op, t, k (d w.store), d, h⟩ ms
  | acquire {w : World σ κ ρ α τ ω} {pre post : List (Thread σ κ ρ α τ ω)} {op : ω} {t : τ} {key : κ} {mode : Mode}
      {k : Txn σ κ ρ α} {d : σ → σ} {h : Held κ} {ms : List (Mark σ τ)}
      (hn : Noted body s₀ c₀ ok w ⟨op, t, .acquire key mode k, d, h⟩ ms)
      (hw : w.threads = pre ++ ⟨op, t, .acquire key mode k, d, h⟩ :: post)
      (hfree : ∀ th ∈ pre ++ post, Held.Compatible [(key, mode)] th.held) :
      Noted body s₀ c₀ ok { w with threads := pre ++ ⟨op, t, k, d, (key, mode) :: h⟩ :: post }
        ⟨op, t, k, d, (key, mode) :: h⟩ ms
  | write {w : World σ κ ρ α τ ω} {pre post : List (Thread σ κ ρ α τ ω)} {op : ω} {t : τ} {f : σ → σ}
      {k : Txn σ κ ρ α} {d : σ → σ} {h : Held κ} {ms : List (Mark σ τ)}
      (hn : Noted body s₀ c₀ ok w ⟨op, t, .write f k, d, h⟩ ms)
      (hw : w.threads = pre ++ ⟨op, t, .write f k, d, h⟩ :: post) :
      Noted body s₀ c₀ ok { w with threads := pre ++ ⟨op, t, k, f ∘ d, h⟩ :: post } ⟨op, t, k, f ∘ d, h⟩
        (ms ++ [.wrote w.clock f])

omit [Preorder τ] in
theorem mem_middle_of_mem {pre post : List (Thread σ κ ρ α τ ω)} (x : Thread σ κ ρ α τ ω) :
    ∀ th ∈ pre ++ post, th ∈ pre ++ x :: post :=
  (forall_mem_middle.1 fun _ h => h).2

/-- Every transaction in flight is noted from its beginning on. -/
theorem exists_noted {w : World σ κ ρ α τ ω} (hw : World.Reachable body s₀ c₀ ok w) :
    ∀ th ∈ w.threads, ∃ ms, World.Noted body s₀ c₀ ok w th ms := by
  induction hw with
  | init => simp
  | @step w w' hw hs hops ih =>
      have hother : w'.clock = w.clock → ∀ th ∈ w'.threads, (∃ ms, World.Noted body s₀ c₀ ok w th ms) →
          ∃ ms, World.Noted body s₀ c₀ ok w' th ms := by
        rintro hclock th hth ⟨ms, hn⟩
        exact ⟨ms, .other hn hs hops hclock hth⟩
      cases hs with
      | tick c hc =>
          intro th hth
          obtain ⟨ms, hn⟩ := ih th hth
          exact ⟨_, .tick hn c hc⟩
      | start op =>
          intro th hth
          rcases List.mem_cons.1 hth with rfl | hold
          · exact ⟨[], .start hw op (hops _ List.mem_cons_self)⟩
          · exact hother rfl th hth (ih th hold)
      | read pre post op t k d h hth =>
          rw [hth, forall_mem_middle] at ih
          exact forall_mem_middle.2 ⟨ih.1.imp fun ms hn => .read hn hth,
            fun th hin => hother rfl th (mem_middle_of_mem _ th hin) (ih.2 th hin)⟩
      | acquire pre post op t key mode k d h hth hfree =>
          rw [hth, forall_mem_middle] at ih
          exact forall_mem_middle.2 ⟨ih.1.imp fun ms hn => .acquire hn hth hfree,
            fun th hin => hother rfl th (mem_middle_of_mem _ th hin) (ih.2 th hin)⟩
      | write pre post op t f k d h hth =>
          rw [hth, forall_mem_middle] at ih
          refine forall_mem_middle.2 ⟨?_, fun th hin => hother rfl th (mem_middle_of_mem _ th hin) (ih.2 th hin)⟩
          obtain ⟨ms, hn⟩ := ih.1
          exact ⟨_, .write hn hth⟩
      | commit pre post op t a d h hth =>
          rw [hth, forall_mem_middle] at ih
          exact fun th hin => hother rfl th hin (ih.2 th hin)
      | rollback pre post th hth =>
          rw [hth, forall_mem_middle] at ih
          exact fun th hin => hother rfl th hin (ih.2 th hin)

/-- A transaction that is noted is in flight. -/
theorem World.Noted.reachable {w : World σ κ ρ α τ ω} {th : Thread σ κ ρ α τ ω} {ms : List (Mark σ τ)}
    (hn : World.Noted body s₀ c₀ ok w th ms) : World.Reachable body s₀ c₀ ok w ∧ th ∈ w.threads := by
  have hmid : ∀ {ths pre post : List (Thread σ κ ρ α τ ω)} {a b : Thread σ κ ρ α τ ω}, ths = pre ++ a :: post →
      a.op = b.op → (∀ th ∈ ths, ok th.op) → ∀ th ∈ pre ++ b :: post, ok th.op := by
    rintro _ pre post a b rfl hsame hops
    rw [forall_mem_middle] at hops ⊢
    exact ⟨hsame ▸ hops.1, hops.2⟩
  induction hn with
  | start hw op hop => exact ⟨.step hw (.start _ op) (List.forall_mem_cons.2 ⟨hop, hw.ops_ok⟩), List.mem_cons_self⟩
  | tick _ c hc ih => exact ⟨ih.1.tick hc ih.1.ops_ok, ih.2⟩
  | other _ hs hops _ hth ih => exact ⟨.step ih.1 hs hops, hth⟩
  | read _ hw ih => exact ⟨.step ih.1 (.read _ _ _ _ _ _ _ _ hw) (hmid hw rfl ih.1.ops_ok), by simp⟩
  | acquire _ hw hfree ih => exact ⟨.step ih.1 (.acquire _ _ _ _ _ _ _ _ _ _ hw hfree) (hmid hw rfl ih.1.ops_ok), by simp⟩
  | write _ hw ih => exact ⟨.step ih.1 (.write _ _ _ _ _ _ _ _ _ hw) (hmid hw rfl ih.1.ops_ok), by simp⟩

/-- What was noted of a transaction, followed by what it still does, is an execution of the whole of it. -/
theorem World.Noted.timed {w : World σ κ ρ α τ ω} {th : Thread σ κ ρ α τ ω} {ms₀ : List (Mark σ τ)}
    (hn : World.Noted body s₀ c₀ ok w th ms₀) : ∀ ms a d c, th.rest.Timed th.writes w.clock ms a d c →
      (body th.op th.began).Timed id th.began (ms₀ ++ ms) a d c := by
  induction hn with
  | start hw op hop => exact fun _ _ _ _ h => h
  | tick _ c hc ih =>
      intro ms a d c' h
      rw [List.append_assoc]
      exact ih _ a d c' (.wait hc h)
  | other _ _ _ hclock _ ih =>
      intro ms a d c h
      exact ih ms a d c (hclock ▸ h)
  | read _ _ ih => exact fun ms a d c h => ih ms a d c (.read _ h)
  | acquire _ _ _ ih => exact fun ms a d c h => ih ms a d c (.acquire h)
  | write _ _ ih =>
      intro ms a d c h
      rw [List.append_assoc]
      exact ih _ a d c (.write h)

/-- The rest of a transaction that nothing runs beside, all at one time. -/
theorem World.Noted.finish {s s' : σ} {c : τ} {log : List (ω × α)} {op : ω} {began : τ}
    {x : Txn σ κ ρ α} {d : σ → σ} {h : Held κ} {ms : List (Mark σ τ)} {a : α}
    (hn : World.Noted body s₀ c₀ ok ⟨s, c, log, [⟨op, began, x, d, h⟩]⟩ ⟨op, began, x, d, h⟩ ms)
    (hx : x.exec (d s) = .ok (a, s')) :
    ∃ d' h' ms', World.Noted body s₀ c₀ ok ⟨s, c, log, [⟨op, began, .pure a, d', h'⟩]⟩ ⟨op, began, .pure a, d', h'⟩
      (ms ++ ms') ∧ d' s = s' ∧ ∀ m ∈ ms', ∃ f, m = .wrote c f := by
  induction x generalizing d h ms with
  | pure b =>
      cases hx
      exact ⟨d, h, [], by rwa [List.append_nil], rfl, by simp⟩
  | abort r => cases hx
  | read k ih => exact ih (d s) (.read hn (List.nil_append _).symm) hx
  | acquire key mode k ih => exact ih (.acquire hn (List.nil_append _).symm (by simp)) hx
  | write f k ih =>
      obtain ⟨d', h', ms', hn', hd, hms⟩ := ih (.write hn (List.nil_append _).symm) hx
      rw [List.append_assoc] at hn'
      exact ⟨d', h', _, hn', hd, List.forall_mem_cons.2 ⟨⟨f, rfl⟩, hms⟩⟩

end Interleaving

/-! ### Taking an execution apart -/

namespace Txn
variable {x : Txn σ κ ρ α} {d d' : σ → σ} {c c' : τ} {ms : List (Mark σ τ)} {a : α}

theorem timed_bind {f : α → Txn σ κ ρ β} {b : β} (h : (x >>= f).Timed d c ms b d' c') :
    ∃ ms₁ ms₂ a d₁ c₁, ms = ms₁ ++ ms₂ ∧ x.Timed d c ms₁ a d₁ c₁ ∧ (f a).Timed d₁ c₁ ms₂ b d' c' := by
  change (x.bind f).Timed d c ms b d' c' at h
  generalize hy : x.bind f = y at h
  induction h generalizing x with
  | done b d c =>
      cases x with
      | pure a => exact ⟨[], [], a, d, c, rfl, .done a d c, (show f a = .pure b from hy) ▸ .done b d c⟩
      | _ => cases hy
  | wait hc h ih =>
      obtain ⟨ms₁, ms₂, a, d₁, c₁, rfl, h₁, h₂⟩ := ih hy
      exact ⟨_ :: ms₁, ms₂, a, d₁, c₁, rfl, .wait hc h₁, h₂⟩
  | read s h ih =>
      cases x with
      | pure a => exact ⟨[], _, a, _, _, rfl, .done a _ _, (show f a = .read _ from hy) ▸ .read s h⟩
      | read k =>
          cases hy
          obtain ⟨ms₁, ms₂, a, d₁, c₁, rfl, h₁, h₂⟩ := ih rfl
          exact ⟨ms₁, ms₂, a, d₁, c₁, rfl, .read s h₁, h₂⟩
      | _ => cases hy
  | acquire h ih =>
      cases x with
      | pure a => exact ⟨[], _, a, _, _, rfl, .done a _ _, (show f a = .acquire _ _ _ from hy) ▸ .acquire h⟩
      | acquire key mode k =>
          cases hy
          obtain ⟨ms₁, ms₂, a, d₁, c₁, rfl, h₁, h₂⟩ := ih rfl
          exact ⟨ms₁, ms₂, a, d₁, c₁, rfl, .acquire h₁, h₂⟩
      | _ => cases hy
  | write h ih =>
      cases x with
      | pure a => exact ⟨[], _, a, _, _, rfl, .done a _ _, (show f a = .write _ _ from hy) ▸ .write h⟩
      | write g k =>
          cases hy
          obtain ⟨ms₁, ms₂, a, d₁, c₁, rfl, h₁, h₂⟩ := ih rfl
          exact ⟨_ :: ms₁, ms₂, a, d₁, c₁, rfl, .write h₁, h₂⟩
      | _ => cases hy

/-- A part that writes nothing only waits. -/
theorem Timed.of_quiet (ht : x.Timed d c ms a d' c') {h : Held κ} (hx : x.Writes (fun _ _ => False) h) :
    ∀ m ∈ ms, m.isWait = true := by
  induction ht generalizing h with
  | done a d c => simp
  | wait hc _ ih =>
      intro m hm
      rcases List.mem_cons.1 hm with rfl | hm
      · rfl
      · exact ih hx m hm
  | read s _ ih => exact ih (hx _ trivial)
  | acquire _ ih => exact ih hx
  | write _ _ => exact hx.1.elim

theorem Timed.returns (ht : x.Timed d c ms a d' c') {P : α → Prop} (hx : x.Returns P) : P a := by
  induction ht with
  | done a d c => exact hx
  | wait hc _ ih => exact ih hx
  | read s _ ih => exact ih (hx _)
  | acquire _ ih => exact ih hx
  | write _ ih => exact ih hx

theorem timed_modify {f : σ → σ} {u : Unit} (h : (modify f : Txn σ κ ρ Unit).Timed d c ms u d' c') :
    ∃ ms₁ t ms₂, ms = ms₁ ++ .wrote t f :: ms₂ ∧ (∀ m ∈ ms₁, m.isWait = true) ∧ ∀ m ∈ ms₂, m.isWait = true := by
  generalize hy : (modify f : Txn σ κ ρ Unit) = y at h
  induction h with
  | done b d c => cases hy
  | wait hc _ ih =>
      obtain ⟨ms₁, t, ms₂, rfl, h₁, h₂⟩ := ih hy
      exact ⟨_ :: ms₁, t, ms₂, rfl, List.forall_mem_cons.2 ⟨rfl, h₁⟩, h₂⟩
  | read s _ _ => cases hy
  | acquire _ _ => cases hy
  | @write g k d d' c c' ms a h _ =>
      cases hy
      exact ⟨[], c, ms, rfl, by simp, h.of_quiet (h := []) trivial⟩

/-- What is written before any time has passed is written when the transaction began, or before. -/
theorem Timed.le_of_prompt {ms₁ ms₂ : List (Mark σ τ)} {t : τ} {f : σ → σ}
    (ht : x.Timed d c (ms₁ ++ .wrote t f :: ms₂) a d' c') (hprompt : ∀ m ∈ ms₁, m.Prompt) : t ≤ c := by
  generalize hms : ms₁ ++ Mark.wrote t f :: ms₂ = ms at ht
  induction ht generalizing ms₁ with
  | done a d c => simp at hms
  | wait hc _ ih =>
      cases ms₁ with
      | nil => cases hms
      | cons m ms₁ =>
          rw [List.cons_append, List.cons.injEq] at hms
          obtain ⟨rfl, hms⟩ := hms
          rw [List.forall_mem_cons] at hprompt
          exact (ih hprompt.2 hms).trans hprompt.1
  | read s _ ih => exact ih hprompt hms
  | acquire _ ih => exact ih hprompt hms
  | write _ ih =>
      cases ms₁ with
      | nil =>
          rw [List.nil_append, List.cons.injEq, Mark.wrote.injEq] at hms
          exact le_of_eq hms.1.1
      | cons m ms₁ =>
          rw [List.cons_append, List.cons.injEq] at hms
          exact ih (List.forall_mem_cons.1 hprompt).2 hms.2

end Txn

/-- An update writes once, what it found to satisfy its condition. -/
theorem Rel.timed_updateWhere [DecidableEq κ] {υ : Type} {u : Keys υ} {R : Rel σ κ u} {p : υ → Bool} {f : υ → υ}
    {hf : ∀ r, u.key (f r) = u.key r} {d d' : σ → σ} {c c' : τ} {ms : List (Mark σ τ)} {rows : List υ}
    (h : (R.updateWhere p f hf : Txn σ κ ρ (List υ)).Timed d c ms rows d' c') :
    (∀ r' ∈ rows, ∃ r, p r = true ∧ r' = f r) ∧
      ∃ ms₁ t keys ms₂, ms = ms₁ ++ .wrote t (R.updating p keys f hf) :: ms₂ := by
  refine ⟨h.returns (R.returns_updateWhere p f hf), ?_⟩
  obtain ⟨ms₁, _, v, _, _, rfl, -, h⟩ := Txn.timed_bind h
  obtain ⟨ms₂, _, _, _, _, rfl, -, h⟩ := Txn.timed_bind h
  obtain ⟨ms₃, _, v', _, _, rfl, -, h⟩ := Txn.timed_bind h
  dsimp only at h
  have hnone : ((R.get v').rows.filter (R.hit p (((R.get v).rows.filter p).map R.rowLock))).findSome?
      (fun _ => (none : Option ρ)) = none := by simp
  rw [hnone] at h
  obtain ⟨_, ms₅, _, _, _, rfl, hwrite, h⟩ := Txn.timed_bind h
  obtain ⟨ms₄, t, ms₄', rfl, -, -⟩ := Txn.timed_modify hwrite
  refine ⟨ms₁ ++ (ms₂ ++ (ms₃ ++ ms₄)), t, ((R.get v).rows.filter p).map R.rowLock, ms₄' ++ ms₅, ?_⟩
  simp only [List.append_assoc, List.cons_append]
  rfl

end Keychute.Lib
