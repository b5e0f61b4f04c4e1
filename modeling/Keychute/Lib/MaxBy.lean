import Mathlib.Data.List.Perm.Basic
import Mathlib.Order.Lattice
import Mathlib.Tactic.Common

/-!
# The element of greatest key

`maxByKey` is `Iterator::max_by_key`: the last element whose key is greatest. Where the keys are distinct it is
the element that every other one is strictly below (`maxByKey_eq_some_iff`), whatever the order of the list
(`maxByKey_perm`). An element more either wins or changes nothing (`maxByKey_insert`).
-/

namespace Keychute.Lib

variable {α κ : Type*} [LinearOrder κ]

/-- One round of `max_by_key`: the later element wins a tie. -/
def maxStep (key : α → κ) (best : Option α) (x : α) : Option α :=
  match best with
  | none => some x
  | some b => if key x < key b then some b else some x

def maxByKey (key : α → κ) (l : List α) : Option α := l.foldl (maxStep key) none

theorem foldl_maxStep (key : α → κ) (l : List α) (b : α) : ∃ a, l.foldl (maxStep key) (some b) = some a ∧
    (a = b ∨ a ∈ l) ∧ key b ≤ key a ∧ ∀ x ∈ l, key x ≤ key a := by
  induction l generalizing b with
  | nil => exact ⟨b, rfl, Or.inl rfl, le_refl _, by simp⟩
  | cons x l ih =>
      rw [List.foldl_cons]
      by_cases h : key x < key b
      · obtain ⟨a, ha, hmem, hb, hl⟩ := ih b
        refine ⟨a, by rw [maxStep, if_pos h, ha], hmem.imp id (List.mem_cons_of_mem _), hb, ?_⟩
        intro y hy
        rcases List.mem_cons.1 hy with rfl | hy
        · exact h.le.trans hb
        · exact hl y hy
      · obtain ⟨a, ha, hmem, hx, hl⟩ := ih x
        refine ⟨a, by rw [maxStep, if_neg h, ha], ?_, (not_lt.1 h).trans hx, ?_⟩
        · rw [List.mem_cons]
          exact Or.inr hmem
        · intro y hy
          rcases List.mem_cons.1 hy with rfl | hy
          · exact hx
          · exact hl y hy

theorem maxByKey_cons (key : α → κ) (x : α) (l : List α) :
    ∃ a, maxByKey key (x :: l) = some a ∧ a ∈ x :: l ∧ ∀ y ∈ x :: l, key y ≤ key a := by
  obtain ⟨a, ha, hmem, hx, hl⟩ := foldl_maxStep key l x
  refine ⟨a, ha, ?_, ?_⟩
  · rcases hmem with rfl | hmem
    · exact List.mem_cons_self
    · exact List.mem_cons_of_mem _ hmem
  · intro y hy
    rcases List.mem_cons.1 hy with rfl | hy
    · exact hx
    · exact hl y hy

theorem maxByKey_eq_none {key : α → κ} {l : List α} : maxByKey key l = none ↔ l = [] := by
  cases l with
  | nil => simp [maxByKey]
  | cons x l =>
      obtain ⟨a, ha, -⟩ := maxByKey_cons key x l
      simp [ha]

theorem maxByKey_spec {key : α → κ} {l : List α} {a : α} (h : maxByKey key l = some a) :
    a ∈ l ∧ ∀ b ∈ l, key b ≤ key a := by
  cases l with
  | nil => simp [maxByKey] at h
  | cons x l =>
      obtain ⟨a', ha, hspec⟩ := maxByKey_cons key x l
      rw [h] at ha
      cases ha
      exact hspec

/-- Where distinct elements have distinct keys, the winner is the element above every other one. -/
theorem maxByKey_eq_some_iff {key : α → κ} {l : List α} {a : α}
    (hinj : ∀ x ∈ l, ∀ y ∈ l, key x = key y → x = y) :
    maxByKey key l = some a ↔ a ∈ l ∧ ∀ b ∈ l, b ≠ a → key b < key a := by
  constructor
  · intro h
    obtain ⟨hmem, hle⟩ := maxByKey_spec h
    refine ⟨hmem, fun b hb hne => lt_of_le_of_ne (hle b hb) ?_⟩
    intro heq
    exact hne (hinj b hb a hmem heq)
  · intro ⟨hmem, hlt⟩
    cases hm : maxByKey key l with
    | none => rw [maxByKey_eq_none.1 hm] at hmem; cases hmem
    | some b =>
        obtain ⟨hb, hle⟩ := maxByKey_spec hm
        by_contra hne
        have hlt' := hlt b hb (fun h => hne (by rw [h]))
        exact absurd (hle a hmem) (not_le.2 hlt')

theorem maxByKey_perm {key : α → κ} {l l' : List α} (h : l.Perm l')
    (hinj : ∀ x ∈ l, ∀ y ∈ l, key x = key y → x = y) : maxByKey key l = maxByKey key l' := by
  have hinj' : ∀ x ∈ l', ∀ y ∈ l', key x = key y → x = y := by
    intro x hx y hy
    exact hinj x (h.mem_iff.2 hx) y (h.mem_iff.2 hy)
  apply Option.ext
  intro a
  rw [maxByKey_eq_some_iff hinj, maxByKey_eq_some_iff hinj']
  simp only [h.mem_iff]

/-- From a lower start the fold ends where it does from `x`, unless `x` stays on top. -/
theorem foldl_maxStep_lower (key : α → κ) (x : α) (l : List α) (b : Option α) (hb : ∀ y ∈ b, key y ≤ key x) :
    l.foldl (maxStep key) (some x) = some x ∨
      l.foldl (maxStep key) (some x) = l.foldl (maxStep key) b := by
  induction l generalizing b with
  | nil => exact Or.inl rfl
  | cons y l ih =>
      rw [List.foldl_cons, List.foldl_cons]
      by_cases hy : key y < key x
      · rw [show maxStep key (some x) y = some x from if_pos hy]
        apply ih
        intro z hz
        cases b with
        | none =>
            cases hz
            exact hy.le
        | some c =>
            by_cases hc : key y < key c
            · rw [show maxStep key (some c) y = some c from if_pos hc] at hz
              exact hb z hz
            · rw [show maxStep key (some c) y = some y from if_neg hc] at hz
              cases hz
              exact hy.le
      · -- `y` takes over from either start
        rw [show maxStep key (some x) y = some y from if_neg hy]
        have htake : maxStep key b y = some y := by
          cases b with
          | none => rfl
          | some c => exact if_neg (not_lt.2 ((hb c rfl).trans (not_lt.1 hy)))
        rw [htake]
        exact Or.inr rfl

theorem maxByKey_insert (key : α → κ) (x : α) (l₁ l₂ : List α) :
    maxByKey key (l₁ ++ x :: l₂) = some x ∨ maxByKey key (l₁ ++ x :: l₂) = maxByKey key (l₁ ++ l₂) := by
  unfold maxByKey
  rw [List.foldl_append, List.foldl_append, List.foldl_cons]
  cases hb : l₁.foldl (maxStep key) none with
  | none => exact foldl_maxStep_lower key x l₂ none (by simp)
  | some b =>
      by_cases hx : key x < key b
      · rw [show maxStep key (some b) x = some b from if_pos hx]
        exact Or.inr rfl
      · rw [show maxStep key (some b) x = some x from if_neg hx]
        apply foldl_maxStep_lower
        intro y hy
        cases hy
        exact not_lt.1 hx

end Keychute.Lib
