import Mathlib.Data.Finset.Max
import Mathlib.Data.List.Basic
import Mathlib.Data.List.DropRight
import Mathlib.Data.List.Infix
import Mathlib.Data.Prod.Lex
import Mathlib.Order.Lattice
import Mathlib.Tactic.Common
import Mathlib.Tactic.Cases

/-!
# Lists cut at a separator

For a separator `x`, the segments of a list are `List.splitOn x`. The prefix order on segment lists is
extension at a separator (`splitOn_prefix_splitOn`), and on lists that start with `x` and never repeat it
(`Rooted`) the segments without a trailing empty one (`stem`) give a preorder in which any two
prefixes of one list are comparable (`Rooted.stem_trans`, `stem_total`). A function that shortens what it changes
ranks segment lists by the first segment it changes (`changedRank_lt`).
-/

namespace Keychute.Lib

variable {α : Type*} [DecidableEq α] {x : α}

omit [DecidableEq α] in
theorem intercalate_append {l m : List (List α)} (hl : l ≠ []) (hm : m ≠ []) :
    [x].intercalate (l ++ m) = [x].intercalate l ++ x :: [x].intercalate m := by
  induction l with
  | nil => exact absurd rfl hl
  | cons a l ih =>
      cases l with
      | nil => rw [List.singleton_append, List.intercalate_cons_of_ne_nil hm, List.intercalate_singleton]; simp
      | cons b l =>
          rw [List.cons_append, List.intercalate_cons_of_ne_nil (by simp), ih (by simp),
            List.intercalate_cons_of_ne_nil (l := a) (by simp)]
          simp

theorem splitOn_inj {p l : List α} (h : p.splitOn x = l.splitOn x) : p = l := by
  have hi := congrArg [x].intercalate h
  rwa [List.intercalate_splitOn, List.intercalate_splitOn] at hi

/-- The segments of `p` begin those of `l` exactly when `l` is `p` or continues it at a separator. -/
theorem splitOn_prefix_splitOn {p l : List α} :
    p.splitOn x <+: l.splitOn x ↔ l = p ∨ p ++ [x] <+: l := by
  constructor
  · rintro ⟨rest, hrest⟩
    cases rest with
    | nil =>
        rw [List.append_nil] at hrest
        exact Or.inl (splitOn_inj hrest).symm
    | cons r rest =>
        refine Or.inr ⟨[x].intercalate (r :: rest), ?_⟩
        have h := congrArg [x].intercalate hrest
        rw [List.intercalate_splitOn, intercalate_append (List.splitOn_ne_nil x p) (by simp),
          List.intercalate_splitOn] at h
        rw [← h, List.append_assoc, List.singleton_append]
  · rintro (rfl | ⟨r, rfl⟩)
    · exact List.prefix_rfl
    · rw [List.append_assoc, List.singleton_append, List.splitOn_append_cons_self]
      exact List.prefix_append _ _

theorem splitOn_map {β : Type*} [DecidableEq β] {y : β} (f : α → β) (hf : ∀ a, f a = y ↔ a = x)
    (l : List α) : (l.map f).splitOn y = (l.splitOn x).map (List.map f) := by
  induction l with
  | nil => simp
  | cons a l ih =>
      rw [List.map_cons, List.splitOn_cons_eq_if_modifyHead, List.splitOn_cons_eq_if_modifyHead, ih]
      by_cases h : a = x
      · simp [h, (hf x).2 rfl]
      · have hne : ¬ f a = y := fun hy => h ((hf a).1 hy)
        obtain ⟨s, ss, hs⟩ := List.exists_cons_of_ne_nil (List.splitOn_ne_nil x l)
        simp [h, hne, hs]

theorem mem_of_mem_splitOn {l p : List α} {a : α} (hp : p ∈ l.splitOn x) (ha : a ∈ p) : a ∈ l := by
  induction l generalizing p with
  | nil =>
      rw [List.splitOn_nil, List.mem_singleton] at hp
      rwa [hp] at ha
  | cons b l ih =>
      rw [List.splitOn_cons_eq_if_modifyHead] at hp
      split at hp
      · rcases List.mem_cons.1 hp with rfl | hp
        · cases ha
        · exact List.mem_cons_of_mem _ (ih hp ha)
      · obtain ⟨s, ss, hs⟩ := List.exists_cons_of_ne_nil (List.splitOn_ne_nil x l)
        rw [hs, List.modifyHead_cons] at hp
        rcases List.mem_cons.1 hp with rfl | hp
        · rcases List.mem_cons.1 ha with rfl | ha
          · exact List.mem_cons_self
          · exact List.mem_cons_of_mem _ (ih (by rw [hs]; exact List.mem_cons_self) ha)
        · exact List.mem_cons_of_mem _ (ih (by rw [hs]; exact List.mem_cons_of_mem _ hp) ha)

omit [DecidableEq α] in
/-- No piece of a split holds an element that was split at. -/
theorem not_of_mem_splitOnP {p : α → Bool} {l piece : List α} (h : piece ∈ l.splitOnP p) {a : α}
    (ha : a ∈ piece) : p a = false := by
  induction l generalizing piece with
  | nil =>
      rw [List.splitOnP_nil, List.mem_singleton] at h
      rw [h] at ha
      cases ha
  | cons b l ih =>
      rw [List.splitOnP_cons_eq_if_modifyHead] at h
      split at h
      · rcases List.mem_cons.1 h with rfl | h
        · cases ha
        · exact ih h ha
      · rename_i hb
        obtain ⟨s, ss, hs⟩ := List.exists_cons_of_ne_nil (List.splitOnP_ne_nil p l)
        rw [hs, List.modifyHead_cons] at h
        rcases List.mem_cons.1 h with rfl | h
        · rcases List.mem_cons.1 ha with rfl | ha
          · exact Bool.eq_false_iff.2 hb
          · exact ih (hs ▸ List.mem_cons_self) ha
        · exact ih (hs ▸ List.mem_cons_of_mem _ h) ha

/-! ## Segments without a trailing empty one -/

/-- A segment list without its trailing empty segment, if it has one. -/
def stem (ss : List (List α)) : List (List α) := if ss.getLast? = some [] then ss.dropLast else ss

theorem stem_prefixOf (ss : List (List α)) : stem ss <+: ss := by
  unfold stem
  split
  · exact List.dropLast_prefix ss
  · exact List.prefix_rfl

theorem stem_eq_or (ss : List (List α)) : ss = stem ss ∨ ss = stem ss ++ [[]] := by
  unfold stem
  split
  · rename_i h
    obtain ⟨ys, rfl⟩ := List.getLast?_eq_some_iff.1 h
    exact Or.inr (by rw [List.dropLast_concat])
  · exact Or.inl rfl

theorem stem_concat_nil (ss : List (List α)) : stem (ss ++ [[]]) = ss := by
  unfold stem
  rw [if_pos (by simp), List.dropLast_concat]

theorem stem_of_getLast? {ss : List (List α)} (h : ss.getLast? ≠ some []) : stem ss = ss := if_neg h

/-- Two stems that begin the same segment list are comparable. -/
theorem stem_total {ps rs cs : List (List α)} (hp : stem ps <+: cs) (hr : stem rs <+: cs) :
    stem ps <+: rs ∨ stem rs <+: ps := by
  rcases List.prefix_or_prefix_of_prefix hp hr with h | h
  · exact Or.inl (h.trans (stem_prefixOf rs))
  · exact Or.inr (h.trans (stem_prefixOf ps))

theorem stem_map {β : Type*} [DecidableEq β] (f : α → β) (ss : List (List α)) :
    stem (ss.map (List.map f)) = (stem ss).map (List.map f) := by
  unfold stem
  simp only [List.getLast?_map, Option.map_eq_some_iff, List.map_eq_nil_iff, exists_eq_right]
  split
  · rw [List.map_dropLast]
  · rfl

/-! ## Rooted lists -/

/-- The list starts with the separator and never repeats it. -/
structure Rooted (x : α) (l : List α) : Prop where
  head : l.head? = some x
  simple : ¬ [x, x] <:+: l

omit [DecidableEq α] in
theorem Rooted.map {β : Type*} {y : β} {l : List α} (h : Rooted x l) (f : α → β)
    (hf : ∀ a, f a = y ↔ a = x) : Rooted y (l.map f) := by
  refine ⟨by rw [List.head?_map, h.head, Option.map_some, (hf x).2 rfl], ?_⟩
  rintro ⟨s, t, hst⟩
  rw [List.append_assoc] at hst
  obtain ⟨s', u, rfl, rfl, hu⟩ := List.map_eq_append_iff.1 hst.symm
  obtain ⟨m, t', rfl, hm, rfl⟩ := List.map_eq_append_iff.1 hu
  obtain ⟨a, b, rfl⟩ : ∃ a b, m = [a, b] := List.length_eq_two.1 (by simpa using congrArg List.length hm)
  simp only [List.map_cons, List.map_nil, List.cons.injEq, and_true] at hm
  rw [(hf a).1 hm.1, (hf b).1 hm.2] at h
  exact h.simple ⟨s', t', by simp⟩

/-- A rooted list is the separator alone, or ends in another element with at most one separator after it. -/
theorem Rooted.last {l : List α} (h : Rooted x l) :
    l = [x] ∨ ∃ q y, y ≠ x ∧ (l = q ++ [y] ∨ l = q ++ [y] ++ [x]) := by
  rcases List.eq_nil_or_concat' l with rfl | ⟨l', z, rfl⟩
  · exact absurd h.head (by simp)
  by_cases hz : z = x
  · subst hz
    rcases List.eq_nil_or_concat' l' with rfl | ⟨q, w, rfl⟩
    · exact Or.inl rfl
    · refine Or.inr ⟨q, w, ?_, Or.inr rfl⟩
      rintro rfl
      exact h.simple ⟨q, [], by simp⟩
  · exact Or.inr ⟨l', z, hz, Or.inl rfl⟩

theorem getLast?_splitOn_concat {q : List α} {y : α} (hy : y ≠ x) :
    (List.splitOn x (q ++ [y])).getLast? ≠ some [] := by
  intro h
  obtain ⟨ys, hys⟩ := List.getLast?_eq_some_iff.1 h
  have hc := congrArg [x].intercalate hys
  rw [List.intercalate_splitOn] at hc
  cases ys with
  | nil => simp at hc
  | cons z zs =>
      rw [intercalate_append (by simp) (by simp), List.intercalate_singleton] at hc
      exact hy (by simpa using (List.append_inj' hc rfl).2)

/-- The stem of a rooted list and the list without its trailing separators agree. -/
theorem Rooted.stem_splitOn {l : List α} (h : Rooted x l) (hne : l ≠ [x]) :
    l.rdropWhile (· == x) ≠ [] ∧ stem (l.splitOn x) = (l.rdropWhile (· == x)).splitOn x := by
  rcases h.last with rfl | ⟨q, y, hy, rfl | rfl⟩
  · exact absurd rfl hne
  · rw [List.rdropWhile_concat_neg _ _ _ (by simpa using hy)]
    exact ⟨by simp, stem_of_getLast? (getLast?_splitOn_concat hy)⟩
  · rw [List.rdropWhile_concat_pos _ _ _ (by simp), List.rdropWhile_concat_neg _ _ _ (by simpa using hy)]
    refine ⟨by simp, ?_⟩
    rw [List.splitOn_append_cons_self, List.splitOn_nil, stem_concat_nil]

theorem splitOn_singleton_self : [x].splitOn x = [[], []] := by
  rw [← List.nil_append [x], List.splitOn_append_cons_self, List.splitOn_nil]; rfl

theorem stem_splitOn_root : stem ([x].splitOn x) = [[]] := by
  rw [splitOn_singleton_self]
  exact stem_concat_nil [[]]

theorem splitOn_of_head {l : List α} (h : l.head? = some x) : ∃ ss, l.splitOn x = [] :: ss := by
  cases l with
  | nil => simp at h
  | cons a l =>
      obtain rfl : a = x := by simpa using h
      refine ⟨l.splitOn a, ?_⟩
      rw [← List.nil_append (a :: l), List.splitOn_append_cons_self, List.splitOn_nil]; rfl

/-- Only the separator alone has a stem that ends in an empty segment. -/
theorem Rooted.stem_getLast? {l : List α} (h : Rooted x l) (hl : (stem (l.splitOn x)).getLast? = some []) :
    stem (l.splitOn x) = [[]] := by
  rcases h.last with rfl | ⟨q, y, hy, rfl | rfl⟩
  · exact stem_splitOn_root
  · rw [stem_of_getLast? (getLast?_splitOn_concat hy)] at hl
    exact absurd hl (getLast?_splitOn_concat hy)
  · rw [List.splitOn_append_cons_self, List.splitOn_nil, stem_concat_nil] at hl
    exact absurd hl (getLast?_splitOn_concat hy)

/-- Beginning at a stem is transitive through a rooted list. -/
theorem Rooted.stem_trans {p : List α} {rs cs : List (List α)} (hp : Rooted x p) (hne : stem rs ≠ [])
    (hpr : stem (p.splitOn x) <+: rs) (hrc : stem rs <+: cs) : stem (p.splitOn x) <+: cs := by
  rcases stem_eq_or rs with h | h
  · rw [h] at hpr
    exact hpr.trans hrc
  · rw [h, List.prefix_concat_iff] at hpr
    rcases hpr with hpr | hpr
    · have hlast := hp.stem_getLast? (by rw [hpr]; simp)
      rw [hpr] at hlast
      exact absurd (List.append_eq_singleton_iff.1 hlast) (by simp [hne])
    · exact hpr.trans hrc

/-! ## Segments that a function shortens -/

section Shorten
variable {f : List α → List α}

/-- Where the first segment is that `f` changes, and how long it is, the longer the lower. -/
def changedRank (f : List α → List α) (ss : List (List α)) : ℕ ×ₗ ℕᵒᵈ :=
  let i := ss.findIdx fun s => decide (f s ≠ s)
  toLex (i, OrderDual.toDual (ss[i]?.getD []).length)

/-- Unchanged segments at the front stay at the front. -/
theorem stem_prefix_map {es ds : List (List α)} (he : ∀ e ∈ es, f e = e) (h : stem es <+: ds) :
    stem es <+: ds.map f := by
  have hfix : (stem es).map f = stem es := by
    rw [List.map_congr_left fun e hmem => he e ((stem_prefixOf es).subset hmem), List.map_id']
  rw [← hfix]
  exact h.map f

/-- What the changed segments of `ds` are the front of ranks above `ds`. -/
theorem changedRank_lt (hf : ∀ s, f s = s ∨ (f s).length < s.length) (hnil : ∀ s, s ≠ [] → f s ≠ [])
    {ds cs : List (List α)} (hd : ∃ s ∈ ds, f s ≠ s) (h : stem (ds.map f) <+: cs) :
    changedRank f ds < changedRank f cs := by
  obtain ⟨j, hj⟩ : ∃ j, j = ds.findIdx fun s => decide (f s ≠ s) := ⟨_, rfl⟩
  have hlt : j < ds.length := by
    obtain ⟨s, hs, hne⟩ := hd
    rw [hj]
    exact List.findIdx_lt_length_of_exists ⟨s, hs, decide_eq_true hne⟩
  have hchanged : f ds[j] ≠ ds[j] := by
    have := @List.findIdx_getElem _ (fun s => decide (f s ≠ s)) ds (hj ▸ hlt)
    simp only [← hj] at this
    exact of_decide_eq_true this
  have hne : ds[j] ≠ [] := by
    intro h0
    rcases hf ds[j] with hs | hs
    · exact hchanged hs
    · rw [h0] at hs
      exact absurd hs (Nat.not_lt_zero _)
  -- the segment is not the trailing empty one
  have hstem : j < (stem (ds.map f)).length := by
    rcases stem_eq_or (ds.map f) with heq | heq
    · rw [← heq, List.length_map]
      exact hlt
    · by_contra hge
      have hlen := congrArg List.length heq
      rw [List.length_map, List.length_append, List.length_singleton] at hlen
      have hlast : (ds.map f)[j]? = some [] := by
        rw [heq, List.getElem?_append_right (by omega), show j - (stem (ds.map f)).length = 0 by omega]
        rfl
      rw [List.getElem?_map, List.getElem?_eq_getElem hlt, Option.map_some] at hlast
      exact hnil _ hne (Option.some.inj hlast)
  have hget : ∀ k ≤ j, cs[k]? = (ds[k]?).map f := by
    intro k hk
    obtain ⟨rest, hrest⟩ := h
    have hks : k < (stem (ds.map f)).length := by omega
    rw [← hrest, List.getElem?_append_left hks, ← List.getElem?_map]
    obtain ⟨rest', hrest'⟩ := stem_prefixOf (ds.map f)
    have happ := @List.getElem?_append_left _ (stem (ds.map f)) rest' k hks
    rw [hrest'] at happ
    exact happ.symm
  have hcj : cs[j]? = some (f ds[j]) := by
    rw [hget j (le_refl j), List.getElem?_eq_getElem hlt, Option.map_some]
  obtain ⟨hlc, hcget⟩ := List.getElem?_eq_some_iff.1 hcj
  have hle : j ≤ cs.findIdx fun s => decide (f s ≠ s) := by
    refine List.le_findIdx_of_not hlc fun k hk => ?_
    have hkd : k < ds.length := by omega
    have hsame : f ds[k] = ds[k] := by
      have := @List.not_of_lt_findIdx _ (fun s => decide (f s ≠ s)) ds k (by omega)
      simpa using this
    have hck := hget k (le_of_lt hk)
    rw [List.getElem?_eq_getElem hkd, List.getElem?_eq_getElem (show k < cs.length by omega), Option.map_some,
      Option.some.injEq] at hck
    rw [hck, hsame, hsame]
    simp
  unfold changedRank
  simp only [← hj]
  rw [Prod.Lex.toLex_lt_toLex]
  rcases Nat.lt_or_eq_of_le hle with hlt' | heq
  · exact Or.inl hlt'
  · refine Or.inr ⟨heq, ?_⟩
    rw [← heq, hcj, List.getElem?_eq_getElem hlt, Option.getD_some, Option.getD_some, OrderDual.toDual_lt_toDual]
    exact (hf ds[j]).resolve_left hchanged

end Shorten

omit [DecidableEq α] in
/-- What can always be pushed to a lower rank inside a finite list is not there. -/
theorem forall_of_descent {β : Type*} [LinearOrder β] {l : List α} {good : α → Prop} (rank : α → β)
    (h : ∀ a ∈ l, ¬ good a → ∃ b ∈ l, ¬ good b ∧ rank b < rank a) : ∀ a ∈ l, good a := by
  classical
  by_contra hbad
  push Not at hbad
  obtain ⟨a, ha, hgood⟩ := hbad
  obtain ⟨m, hm, hmin⟩ := (l.toFinset.filter fun a => ¬ good a).exists_min_image rank
    ⟨a, Finset.mem_filter.2 ⟨List.mem_toFinset.2 ha, hgood⟩⟩
  rw [Finset.mem_filter, List.mem_toFinset] at hm
  obtain ⟨b, hb, hbgood, hlt⟩ := h m hm.1 hm.2
  exact absurd hlt (not_lt_of_ge (hmin b (Finset.mem_filter.2 ⟨List.mem_toFinset.2 hb, hbgood⟩)))

end Keychute.Lib
