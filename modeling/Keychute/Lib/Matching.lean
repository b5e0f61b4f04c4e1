import Mathlib.Data.List.Count
import Mathlib.Data.List.Perm.Basic
import Mathlib.Tactic.Common

/-!
# Greedy matching by key

* `swapRemove` : an element leaves a vector and the last one takes its place (`perm_swapRemove`);
* `greedy` : each row takes one of the wanted items with its key, if there is one left;
* `greedy_rows`, `greedy_keys` : nothing is lost, on either side;
* `greedy_kept_of_count`, `greedy_left_not_unmatched` : a key that is wanted often enough loses no row, and no
  key is left on both sides.
-/

namespace Keychute.Lib

section SwapRemove
variable {β : Type}

/-- `Vec::swap_remove`. -/
def swapRemove (l : List β) (i : Nat) : List β :=
  match l.getLast? with
  | none => []
  | some last => (l.set i last).dropLast

theorem perm_swapRemove {l : List β} {i : Nat} (h : i < l.length) : (l[i] :: swapRemove l i).Perm l := by
  have hne : l ≠ [] := List.ne_nil_of_length_pos (Nat.zero_lt_of_lt h)
  obtain ⟨front, last, rfl⟩ : ∃ front last, l = front ++ [last] :=
    ⟨l.dropLast, l.getLast hne, (List.dropLast_concat_getLast hne).symm⟩
  rw [swapRemove, List.getLast?_concat]
  by_cases hi : i < front.length
  · simp only [List.set_append_left i last hi, List.dropLast_concat, List.getElem_append_left hi]
    calc List.Perm (front[i] :: front.set i last) (front[i] :: last :: front.eraseIdx i) :=
          (List.set_perm_cons_eraseIdx hi last).cons _
      List.Perm _ (last :: front[i] :: front.eraseIdx i) := List.Perm.swap ..
      List.Perm _ (last :: front) := (List.getElem_cons_eraseIdx_perm hi).cons _
      List.Perm _ (front ++ [last]) := (List.perm_append_singleton last front).symm
  · have hi' : i = front.length := by
      rw [List.length_append, List.length_singleton] at h
      omega
    subst hi'
    simp only [List.getElem_concat_length, List.set_append_right _ _ (Nat.le_refl _), Nat.sub_self, List.set_cons_zero,
      List.dropLast_concat]
    exact (List.perm_append_singleton last front).symm

end SwapRemove

section Greedy
variable {α β κ : Type} [DecidableEq κ]

/-- What a matching leaves: the rows that found an item, those that did not, and the items that are left. -/
structure Matching (α β : Type) where
  kept : List α
  unmatched : List α
  left : List β

/-- Each row in turn takes the first item with its key out of the vector. -/
def greedy (ka : α → κ) (kb : β → κ) : List α → List β → Matching α β
  | [], left => ⟨[], [], left⟩
  | a :: rows, left =>
    match left.findIdx? fun b => kb b == ka a with
    | some i =>
      let m := greedy ka kb rows (swapRemove left i)
      { m with kept := a :: m.kept }
    | none =>
      let m := greedy ka kb rows left
      { m with unmatched := a :: m.unmatched }

variable {ka : α → κ} {kb : β → κ}

theorem greedy_cons_some {a : α} {rows : List α} {wanted : List β} {i : Nat}
    (h : (wanted.findIdx? fun b => kb b == ka a) = some i) : greedy ka kb (a :: rows) wanted =
      { greedy ka kb rows (swapRemove wanted i) with kept := a :: (greedy ka kb rows (swapRemove wanted i)).kept } := by
  rw [greedy, h]

theorem greedy_cons_none {a : α} {rows : List α} {wanted : List β}
    (h : (wanted.findIdx? fun b => kb b == ka a) = none) : greedy ka kb (a :: rows) wanted =
      { greedy ka kb rows wanted with unmatched := a :: (greedy ka kb rows wanted).unmatched } := by
  rw [greedy, h]

/-- What a row takes has its key. -/
theorem perm_of_findIdx? {left : List β} {a : α} {i : Nat} (h : (left.findIdx? fun b => kb b == ka a) = some i) :
    (ka a :: (swapRemove left i).map kb).Perm (left.map kb) := by
  obtain ⟨hi, hkey, -⟩ := List.findIdx?_eq_some_iff_getElem.1 h
  have hp := (perm_swapRemove hi).map kb
  rwa [List.map_cons, eq_of_beq hkey] at hp

theorem not_mem_of_findIdx? {left : List β} {a : α} (h : (left.findIdx? fun b => kb b == ka a) = none) :
    ka a ∉ left.map kb := by
  intro hmem
  obtain ⟨b, hb, hkey⟩ := List.mem_map.1 hmem
  have hne := List.findIdx?_eq_none_iff.1 h b hb
  rw [hkey, beq_self_eq_true] at hne
  cases hne

theorem greedy_rows (rows : List α) (wanted : List β) :
    ((greedy ka kb rows wanted).kept ++ (greedy ka kb rows wanted).unmatched).Perm rows := by
  induction rows generalizing wanted with
  | nil => exact List.Perm.refl _
  | cons a rows ih =>
      rw [greedy]
      split
      · exact (ih _).cons a
      · exact List.perm_middle.trans ((ih wanted).cons a)

theorem greedy_keys (rows : List α) (wanted : List β) :
    ((greedy ka kb rows wanted).kept.map ka ++ (greedy ka kb rows wanted).left.map kb).Perm (wanted.map kb) := by
  induction rows generalizing wanted with
  | nil => exact List.Perm.refl _
  | cons a rows ih =>
      rw [greedy]
      split
      · rename_i i hi
        exact ((ih _).cons (ka a)).trans (perm_of_findIdx? hi)
      · exact ih wanted

/-- Keys only leave the vector. -/
theorem greedy_left_subset (rows : List α) (wanted : List β) {k : κ} (h : k ∈ (greedy ka kb rows wanted).left.map kb) :
    k ∈ wanted.map kb :=
  (greedy_keys rows wanted).subset (List.mem_append_right _ h)

theorem mem_of_mem_greedy_left {rows : List α} {wanted : List β} {b : β} (h : b ∈ (greedy ka kb rows wanted).left) :
    b ∈ wanted := by
  induction rows generalizing wanted with
  | nil => exact h
  | cons a rows ih =>
      rw [greedy] at h
      split at h
      · rename_i i hi
        obtain ⟨hlt, -, -⟩ := List.findIdx?_eq_some_iff_getElem.1 hi
        exact (perm_swapRemove hlt).subset (List.mem_cons_of_mem _ (ih h))
      · exact ih h

theorem greedy_left_not_unmatched {rows : List α} {wanted : List β} {a : α}
    (h : a ∈ (greedy ka kb rows wanted).unmatched) : ka a ∉ (greedy ka kb rows wanted).left.map kb := by
  induction rows generalizing wanted with
  | nil => cases h
  | cons r rows ih =>
      rw [greedy] at h ⊢
      split at h
      · exact ih h
      · rename_i hnone
        rcases List.mem_cons.1 h with rfl | h
        · exact fun hmem => not_mem_of_findIdx? hnone (greedy_left_subset rows wanted hmem)
        · exact ih h

/-- A key that is wanted as often as it occurs loses no row. -/
theorem greedy_kept_of_count {rows : List α} {wanted : List β} {a : α} (ha : a ∈ (greedy ka kb rows wanted).unmatched) :
    (wanted.map kb).count (ka a) < (rows.map ka).count (ka a) := by
  induction rows generalizing wanted with
  | nil => cases ha
  | cons r rows ih =>
      rw [greedy] at ha
      rw [List.map_cons, List.count_cons]
      split at ha
      · rename_i i hi
        have hcount := (perm_of_findIdx? hi).count_eq (ka a)
        rw [List.count_cons] at hcount
        have := ih ha
        omega
      · rename_i hnone
        rcases List.mem_cons.1 ha with rfl | ha
        · rw [List.count_eq_zero.2 (not_mem_of_findIdx? hnone)]
          simp
        · have := ih ha
          omega

/-- Rows whose keys are the wanted ones all find an item, and none is left. -/
theorem greedy_of_perm {rows : List α} {wanted : List β} (h : (rows.map ka).Perm (wanted.map kb)) :
    (greedy ka kb rows wanted).unmatched = [] ∧ (greedy ka kb rows wanted).left = [] := by
  have hun : (greedy ka kb rows wanted).unmatched = [] := by
    rw [List.eq_nil_iff_forall_not_mem]
    intro a ha
    have hlt := greedy_kept_of_count ha
    rw [h.count_eq] at hlt
    exact Nat.lt_irrefl _ hlt
  refine ⟨hun, ?_⟩
  have hrows := (@greedy_rows α β κ _ ka kb rows wanted).length_eq
  have hkeys := (@greedy_keys α β κ _ ka kb rows wanted).length_eq
  have hlen := h.length_eq
  simp only [hun, List.append_nil, List.length_append, List.length_map] at hrows hkeys hlen
  exact List.length_eq_zero_iff.1 (by omega)

end Greedy

end Keychute.Lib
