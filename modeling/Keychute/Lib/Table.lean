import Mathlib.Data.List.Basic
import Mathlib.Data.List.Pairwise
import Mathlib.Tactic.Common

/-!
# Tables with unique keys

A table is a list of rows no two of which clash in a unique key. `insert`, `update` and `delete` keep that, so a
row is determined by any of its keys (`eq_of_clash`, `find?_eq_some`).
-/

namespace Keychute.Lib

/-- The unique keys of a row type: what they are, and when two of them clash. -/
structure Keys (ρ : Type) where
  Key : Type
  key : ρ → Key
  clash : Key → Key → Bool
  symm : ∀ a b, clash a b = clash b a

namespace Keys
variable {ρ : Type}

/-- Two rows share a unique key. -/
def clashes (u : Keys ρ) (a b : ρ) : Bool := u.clash (u.key a) (u.key b)

/-- One unique key. -/
@[reducible] def single {A : Type} [DecidableEq A] (f : ρ → A) : Keys ρ where
  Key := A
  key := f
  clash a b := a == b
  symm _ _ := Bool.beq_comm

/-- A primary key and another unique one. -/
@[reducible] def pair {A B : Type} [DecidableEq A] [DecidableEq B] (f : ρ → A) (g : ρ → B) : Keys ρ where
  Key := A × B
  key r := (f r, g r)
  clash a b := a.1 == b.1 || a.2 == b.2
  symm a b := by rw [Bool.beq_comm (a := a.1), Bool.beq_comm (a := a.2)]

theorem single_clashes {A : Type} [DecidableEq A] {f : ρ → A} {a b : ρ} :
    (single f).clashes a b = true ↔ f a = f b := by
  simp [clashes]

theorem pair_clashes {A B : Type} [DecidableEq A] [DecidableEq B] {f : ρ → A} {g : ρ → B} {a b : ρ} :
    (pair f g).clashes a b = true ↔ f a = f b ∨ g a = g b := by
  simp [clashes]

theorem clashes_comm (u : Keys ρ) (a b : ρ) : u.clashes a b = u.clashes b a := u.symm _ _

end Keys

@[ext]
structure Table {ρ : Type} (u : Keys ρ) where
  rows : List ρ
  distinct : rows.Pairwise fun a b => u.clashes a b = false

namespace Table
variable {ρ : Type} {u : Keys ρ}

def empty : Table u := ⟨[], List.Pairwise.nil⟩

/-- No row of the table clashes with `r`. -/
def Fresh (t : Table u) (r : ρ) : Prop := ∀ a ∈ t.rows, u.clashes a r = false

instance (t : Table u) (r : ρ) : Decidable (t.Fresh r) := inferInstanceAs (Decidable (∀ a ∈ t.rows, _))

/-- The row joins the table unless it clashes with one that is there. -/
def insert (t : Table u) (r : ρ) : Table u :=
  if h : t.Fresh r then
    ⟨t.rows ++ [r], by
      rw [List.pairwise_append]
      refine ⟨t.distinct, List.pairwise_singleton _ _, fun a ha b hb => ?_⟩
      rw [List.mem_singleton.1 hb]
      exact h a ha⟩
  else t

/-- The rows that satisfy `p`, changed in columns outside the keys. -/
def update (t : Table u) (p : ρ → Bool) (f : ρ → ρ) (hf : ∀ r, u.key (f r) = u.key r) : Table u :=
  ⟨t.rows.map fun r => if p r then f r else r, by
    rw [List.pairwise_map]
    refine t.distinct.imp fun {a b} h => ?_
    have hkey : ∀ r, u.key (if p r then f r else r) = u.key r := by
      intro r
      split
      · exact hf r
      · rfl
    rw [Keys.clashes, hkey, hkey]
    exact h⟩

def delete (t : Table u) (p : ρ → Bool) : Table u := ⟨t.rows.filter fun r => !p r, t.distinct.filter _⟩

@[simp] theorem empty_rows : (empty : Table u).rows = [] := rfl

@[simp] theorem update_rows (t : Table u) (p : ρ → Bool) (f : ρ → ρ) (hf : ∀ r, u.key (f r) = u.key r) :
    (t.update p f hf).rows = t.rows.map fun r => if p r then f r else r := rfl

@[simp] theorem delete_rows (t : Table u) (p : ρ → Bool) : (t.delete p).rows = t.rows.filter fun r => !p r := rfl

theorem insert_rows {t : Table u} {r : ρ} (h : t.Fresh r) :
    (t.insert r).rows = t.rows ++ [r] := by
  rw [insert, dif_pos h]

theorem insert_rows_or (t : Table u) (r : ρ) : (t.insert r).rows = t.rows ++ [r] ∨ (t.insert r).rows = t.rows := by
  by_cases h : t.Fresh r
  · exact Or.inl (insert_rows h)
  · exact Or.inr (by rw [insert, dif_neg h])

theorem any_clashes_iff {t : Table u} {r : ρ} : t.rows.any (u.clashes · r) = true ↔ ¬ t.Fresh r := by
  simp [Fresh]

theorem mem_insert_self {t : Table u} {r : ρ} (h : t.Fresh r) : r ∈ (t.insert r).rows := by
  rw [insert_rows h]
  exact List.mem_append_right _ (List.mem_singleton_self r)

theorem mem_insert_of_mem {t : Table u} {r a : ρ} (h : a ∈ t.rows) : a ∈ (t.insert r).rows := by
  rcases insert_rows_or t r with hi | hi <;> rw [hi]
  · exact List.mem_append_left _ h
  · exact h

theorem mem_of_mem_insert {t : Table u} {r a : ρ} (h : a ∈ (t.insert r).rows) : a ∈ t.rows ∨ a = r := by
  rcases insert_rows_or t r with hi | hi <;> rw [hi] at h
  · rcases List.mem_append.1 h with h | h
    · exact Or.inl h
    · exact Or.inr (List.mem_singleton.1 h)
  · exact Or.inl h

theorem mem_update {t : Table u} {p : ρ → Bool} {f : ρ → ρ} {hf : ∀ r, u.key (f r) = u.key r} {a : ρ} :
    a ∈ (t.update p f hf).rows ↔ ∃ r ∈ t.rows, a = if p r then f r else r := by
  rw [update_rows, List.mem_map]
  constructor
  · intro ⟨r, hr, h⟩
    exact ⟨r, hr, h.symm⟩
  · intro ⟨r, hr, h⟩
    exact ⟨r, hr, h.symm⟩

theorem mem_update_of_mem {t : Table u} {p : ρ → Bool} {f : ρ → ρ} (hf : ∀ r, u.key (f r) = u.key r) {a : ρ}
    (h : a ∈ t.rows) : (if p a then f a else a) ∈ (t.update p f hf).rows := mem_update.2 ⟨a, h, rfl⟩

theorem exists_of_mem_update {t : Table u} {p : ρ → Bool} {f : ρ → ρ} (hf : ∀ r, u.key (f r) = u.key r) {a : ρ}
    (h : a ∈ (t.update p f hf).rows) : ∃ r ∈ t.rows, a = if p r then f r else r := mem_update.1 h

theorem fresh_update {t : Table u} {p : ρ → Bool} {f : ρ → ρ} (hf : ∀ r, u.key (f r) = u.key r) {row : ρ} :
    (t.update p f hf).Fresh row ↔ t.Fresh row := by
  have hkey : ∀ r, u.clashes (if p r then f r else r) row = u.clashes r row := by
    intro r
    split
    · rw [Keys.clashes, Keys.clashes, hf]
    · rfl
  simp only [Fresh, update_rows, List.forall_mem_map, hkey]

/-- A change that makes no row satisfy `q` does not raise their number. -/
theorem countP_update_le {t : Table u} {p q : ρ → Bool} {f : ρ → ρ} (hf : ∀ r, u.key (f r) = u.key r)
    (hq : ∀ r, q (f r) = true → q r = true) : (t.update p f hf).rows.countP q ≤ t.rows.countP q := by
  rw [update_rows, List.countP_map]
  refine List.countP_mono_left fun r _ hr => ?_
  rw [Function.comp_apply] at hr
  split at hr
  · exact hq r hr
  · exact hr

theorem countP_insert_of_neg {t : Table u} {q : ρ → Bool} {row : ρ} (hrow : q row = false) :
    (t.insert row).rows.countP q = t.rows.countP q := by
  rcases insert_rows_or t row with hi | hi <;> rw [hi]
  rw [List.countP_append, List.countP_singleton, hrow]
  rfl

/-- A row that is inserted and then changed is counted as what it became. -/
theorem countP_update_insert_le {t : Table u} {p q : ρ → Bool} {f : ρ → ρ} (hf : ∀ r, u.key (f r) = u.key r)
    (hq : ∀ r, q (f r) = true → q r = true) {row : ρ} (hp : p row = true) (hrow : q (f row) = false) :
    ((t.insert row).update p f hf).rows.countP q ≤ t.rows.countP q := by
  rcases insert_rows_or t row with hi | hi
  · rw [update_rows, hi, List.map_append, List.map_singleton, if_pos hp, List.countP_append, List.countP_singleton, hrow]
    exact countP_update_le hf hq
  · rw [update_rows, hi]
    exact countP_update_le hf hq

theorem mem_delete {t : Table u} {p : ρ → Bool} {a : ρ} : a ∈ (t.delete p).rows ↔ a ∈ t.rows ∧ p a = false := by
  rw [delete_rows, List.mem_filter]
  simp

/-- A row is determined by any of its unique keys. -/
theorem eq_of_clash {t : Table u} {a b : ρ} (ha : a ∈ t.rows) (hb : b ∈ t.rows) (h : u.clashes a b = true) : a = b := by
  by_contra hne
  have : Std.Symm fun a b => u.clashes a b = false := ⟨fun a b hab => by rw [u.clashes_comm, hab]⟩
  have hp := t.distinct.forall ha hb hne
  rw [h] at hp
  cases hp

/-- Looking a row up by a unique key. -/
theorem find?_eq_some {t : Table u} {p : ρ → Bool} (hp : ∀ a b, p a = true → p b = true → u.clashes a b = true)
    {r : ρ} : t.rows.find? p = some r ↔ r ∈ t.rows ∧ p r = true := by
  constructor
  · intro h
    exact ⟨List.mem_of_find?_eq_some h, List.find?_some h⟩
  · intro ⟨hr, hpr⟩
    cases hf : t.rows.find? p with
    | none =>
        rw [List.find?_eq_none] at hf
        exact absurd hpr (hf r hr)
    | some r' =>
        have hr' := List.mem_of_find?_eq_some hf
        have hpr' := List.find?_some hf
        rw [eq_of_clash hr' hr (hp r' r hpr' hpr)]

/-- A further condition on the row with a given key. -/
theorem filter_key_and {t : Table u} {p : ρ → Bool} (hp : ∀ a b, p a = true → p b = true → u.clashes a b = true)
    {r : ρ} (h : t.rows.find? p = some r) (q : ρ → Bool) :
    t.rows.filter (fun a => p a && q a) = if q r then [r] else [] := by
  obtain ⟨hr, hpr⟩ := (find?_eq_some hp).1 h
  obtain ⟨l₁, l₂, hl⟩ := List.append_of_mem hr
  have hdis := t.distinct
  rw [hl, List.pairwise_append, List.pairwise_cons] at hdis
  -- no other row has the key, on either side of `r`
  have hnone₁ : ∀ a ∈ l₁, p a = false := by
    intro a ha
    by_contra hpa
    have hc := hdis.2.2 a ha r List.mem_cons_self
    rw [hp a r (by simpa using hpa) hpr] at hc
    cases hc
  have hnone₂ : ∀ a ∈ l₂, p a = false := by
    intro a ha
    by_contra hpa
    have hc := hdis.2.1.1 a ha
    rw [hp r a hpr (by simpa using hpa)] at hc
    cases hc
  have hf₁ : l₁.filter (fun a => p a && q a) = [] := by
    rw [List.filter_eq_nil_iff]
    intro a ha
    simp [hnone₁ a ha]
  have hf₂ : l₂.filter (fun a => p a && q a) = [] := by
    rw [List.filter_eq_nil_iff]
    intro a ha
    simp [hnone₂ a ha]
  rw [hl, List.filter_append, List.filter_cons, hf₁, hf₂]
  simp [hpr]

theorem update_congr {t : Table u} {p q : ρ → Bool} {f : ρ → ρ} {hf : ∀ r, u.key (f r) = u.key r}
    (h : ∀ r ∈ t.rows, p r = q r) : t.update p f hf = t.update q f hf := by
  apply Table.ext
  rw [update_rows, update_rows]
  apply List.map_congr_left
  intro r hr
  rw [h r hr]

/-- Looking up in a changed table, by something the change keeps. -/
theorem find?_update {t : Table u} {p q : ρ → Bool} {f : ρ → ρ} {hf : ∀ r, u.key (f r) = u.key r}
    (hq : ∀ r, q (f r) = q r) :
    (t.update p f hf).rows.find? q = (t.rows.find? q).map fun r => if p r then f r else r := by
  rw [update_rows, List.find?_map]
  have hcomp : (q ∘ fun r => if p r then f r else r) = q := by
    funext r
    rw [Function.comp_apply]
    split
    · exact hq r
    · rfl
  rw [hcomp]

/-- Looking up in a table with one row more. -/
theorem find?_insert {t : Table u} {r : ρ} (h : t.Fresh r) (q : ρ → Bool) :
    (t.insert r).rows.find? q = (t.rows.find? q).or (if q r then some r else none) := by
  rw [insert_rows h, List.find?_append, List.find?_singleton]

/-- Changing a row just inserted, and no other. -/
theorem update_insert {t : Table u} {r : ρ} (h : t.Fresh r) {p : ρ → Bool} {f : ρ → ρ}
    {hf : ∀ r, u.key (f r) = u.key r} (hp : p r = true) (hold : ∀ a ∈ t.rows, p a = false) :
    (t.insert r).update p f hf = t.insert (f r) := by
  have hfresh : t.Fresh (f r) := by
    intro a ha
    rw [Keys.clashes, hf]
    exact h a ha
  apply Table.ext
  rw [update_rows, insert_rows h, insert_rows hfresh, List.map_append, List.map_singleton, hp, if_pos rfl]
  congr 1
  rw [List.map_congr_left (g := id), List.map_id]
  intro a ha
  rw [hold a ha]
  rfl

end Table
end Keychute.Lib
