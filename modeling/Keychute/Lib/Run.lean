import Keychute.Lib.Txn

/-!
# Runs of a system, one call after the other

* `Run step s₀ t₀ es s t` : from `s₀` at time `t₀` the calls in `es` led to `s` at time `t`, on a clock that never goes
  back;
* `Run.invariant` : what holds at the start and is kept by every call holds after every run;
* `Run.split` : a run up to one of its calls, and from there on;
* `Run.forall_event`, `Run.pairwise` : every call, and every pair of calls, of a run;
* `play`, `run_play` : the run that a list of calls makes;
* `Run.reachable` : a run of transactions, one after the other, is one of their interleavings.
-/

namespace Keychute.Lib

/-- A call that was made: when, in which state, with which reply, and the state it left. -/
structure Event (ω τ σ α : Type) where
  op : ω
  now : τ
  before : σ
  reply : α
  after : σ

section
variable {ω τ σ α : Type} [Preorder τ]

/-- The event of a call. -/
def callEvent (step : ω → τ → σ → σ × α) (op : ω) (now : τ) (s : σ) : Event ω τ σ α :=
  ⟨op, now, s, (step op now s).2, (step op now s).1⟩

inductive Run (step : ω → τ → σ → σ × α) (s₀ : σ) (t₀ : τ) : List (Event ω τ σ α) → σ → τ → Prop where
  | nil : Run step s₀ t₀ [] s₀ t₀
  | call {es : List (Event ω τ σ α)} {s : σ} {t : τ} (op : ω) (now : τ) :
      Run step s₀ t₀ es s t → t ≤ now → Run step s₀ t₀ (es ++ [callEvent step op now s]) (step op now s).1 now

namespace Run
variable {step : ω → τ → σ → σ × α} {s₀ s : σ} {t₀ t : τ} {es : List (Event ω τ σ α)}

theorem le (h : Run step s₀ t₀ es s t) : t₀ ≤ t := by
  induction h with
  | nil => exact le_refl _
  | call op now _ hle ih => exact ih.trans hle

/-- An invariant of the history, the state and the clock. -/
theorem invariant (h : Run step s₀ t₀ es s t) {Inv : List (Event ω τ σ α) → σ → τ → Prop} (h₀ : Inv [] s₀ t₀)
    (hstep : ∀ es s t op now, Run step s₀ t₀ es s t → t ≤ now → Inv es s t →
      Inv (es ++ [callEvent step op now s]) (step op now s).1 now) : Inv es s t := by
  induction h with
  | nil => exact h₀
  | call op now hrun hle ih => exact hstep _ _ _ op now hrun hle ih

/-- The calls before and after one of them. -/
theorem split {es₁ es₂ : List (Event ω τ σ α)} {e : Event ω τ σ α} (h : Run step s₀ t₀ (es₁ ++ e :: es₂) s t) :
    ∃ t₁, Run step s₀ t₀ es₁ e.before t₁ ∧ t₁ ≤ e.now ∧ e = callEvent step e.op e.now e.before ∧
      Run step e.after e.now es₂ s t := by
  generalize hes : es₁ ++ e :: es₂ = es at h
  induction h generalizing es₂ with
  | nil => simp at hes
  | @call es s t op now hrun hle ih =>
      rcases List.eq_nil_or_concat es₂ with rfl | ⟨es₃, e₃, rfl⟩
      · -- the call in question is the last one
        obtain ⟨rfl, he⟩ := List.append_inj' hes rfl
        cases he
        exact ⟨t, hrun, hle, rfl, Run.nil⟩
      · have hes' : (es₁ ++ e :: es₃) ++ [e₃] = es ++ [callEvent step op now s] := by
          rw [← hes]
          simp
        obtain ⟨hpre, he⟩ := List.append_inj' hes' rfl
        obtain ⟨t₁, hbefore, hle₁, hev, hafter⟩ := ih hpre
        cases he
        refine ⟨t₁, hbefore, hle₁, hev, ?_⟩
        rw [List.concat_eq_append]
        exact Run.call op now hafter hle

/-- Every call of a run was made in a state that a run leads to. -/
theorem forall_event (h : Run step s₀ t₀ es s t) {e : Event ω τ σ α} (he : e ∈ es) :
    ∃ es₁ t₁, Run step s₀ t₀ es₁ e.before t₁ ∧ es₁ ⊆ es ∧ t₁ ≤ e.now ∧ e = callEvent step e.op e.now e.before := by
  obtain ⟨es₁, es₂, rfl⟩ := List.append_of_mem he
  obtain ⟨t₁, hrun, hle, hev, -⟩ := h.split
  exact ⟨es₁, t₁, hrun, List.subset_append_left _ _, hle, hev⟩

/-- Of two calls, the later was made in a state that a run leads to from the earlier. -/
theorem pairwise (h : Run step s₀ t₀ es s t) :
    es.Pairwise fun e e' => ∃ es' t', es' ⊆ es ∧ Run step e.after e.now es' e'.before t' ∧ t' ≤ e'.now ∧
      e' = callEvent step e'.op e'.now e'.before := by
  induction h with
  | nil => exact List.Pairwise.nil
  | @call es s t op now hrun hle ih =>
      rw [List.pairwise_append]
      refine ⟨ih.imp ?_, List.pairwise_singleton _ _, fun e he e' he' => ?_⟩
      · intro e e' ⟨es', t', hsub, hrest⟩
        exact ⟨es', t', fun x hx => List.mem_append_left _ (hsub hx), hrest⟩
      · rw [List.mem_singleton.1 he']
        obtain ⟨es₁, es₂, rfl⟩ := List.append_of_mem he
        obtain ⟨-, -, -, -, hafter⟩ := hrun.split
        refine ⟨es₂, t, ?_, hafter, hle, rfl⟩
        intro e₂ he₂
        simp [he₂]

theorem trans {es' : List (Event ω τ σ α)} {s' : σ} {t' : τ} (h : Run step s₀ t₀ es s t)
    (h' : Run step s t es' s' t') : Run step s₀ t₀ (es ++ es') s' t' := by
  induction h' with
  | nil => rwa [List.append_nil]
  | call op now _ hle ih =>
      rw [← List.append_assoc]
      exact Run.call op now ih hle

end Run

/-- The events of a list of calls. -/
def play (step : ω → τ → σ → σ × α) : σ → List (ω × τ) → List (Event ω τ σ α)
  | _, [] => []
  | s, (op, now) :: calls => callEvent step op now s :: play step (step op now s).1 calls

/-- The state a list of calls leaves. -/
def playEnd (step : ω → τ → σ → σ × α) : σ → List (ω × τ) → σ
  | s, [] => s
  | s, (op, now) :: calls => playEnd step (step op now s).1 calls

/-- The time of the last call. -/
def playTime : τ → List (ω × τ) → τ
  | t, [] => t
  | _, (_, now) :: calls => playTime now calls

theorem run_play (step : ω → τ → σ → σ × α) (s₀ : σ) (t₀ : τ) (calls : List (ω × τ))
    (h : List.IsChain (· ≤ ·) (t₀ :: calls.map Prod.snd)) :
    Run step s₀ t₀ (play step s₀ calls) (playEnd step s₀ calls) (playTime t₀ calls) := by
  induction calls generalizing s₀ t₀ with
  | nil => exact Run.nil
  | cons c calls ih =>
      obtain ⟨op, now⟩ := c
      rw [List.map_cons, List.isChain_cons_cons] at h
      exact (Run.call op now Run.nil h.1).trans (ih (step op now s₀).1 now h.2)

/-- One call after the other is one of the interleavings. -/
theorem Run.reachable {κ ε : Type} {body : ω → τ → Txn σ κ (Except ε α) α} {s₀ s : σ} {t₀ t : τ}
    {es : List (Event ω τ σ (Except ε α))} (h : Run (fun op now => (body op now).run) s₀ t₀ es s t) {ok : ω → Prop}
    (hops : ∀ e ∈ es, ok e.op) : ∃ log, World.Reachable body s₀ t₀ ok ⟨s, t, log, []⟩ := by
  induction h with
  | nil => exact ⟨[], .init⟩
  | @call es s t op now hrun hle ih =>
      obtain ⟨log, hw⟩ := ih fun e he => hops e (List.mem_append_left _ he)
      have hop : ok op := hops (callEvent (fun op now => (body op now).run) op now s) (by simp)
      have hnow := hw.tick hle (by simp)
      rcases Txn.run_cases (body op now) s with ⟨a, s', hexec, hstep⟩ | ⟨r, _, hstep⟩
      · rw [hstep]
        exact ⟨_, hnow.alone hop hexec⟩
      · rw [hstep]
        exact ⟨log, hnow⟩

end
end Keychute.Lib
