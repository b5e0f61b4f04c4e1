import Mathlib.Data.List.Basic
import Mathlib.Data.List.Forall2
import Mathlib.Tactic.Common
import Mathlib.Tactic.Cases

/-!
# Self-delimiting encodings

* `Delimited S stop R enc` : a text that begins with the encoding of a value, and goes on in a way `stop` allows,
  determines the value up to `R`, and the rest;
* `Delimited.block`, `Delimited.terminated` : a fixed-width length, then that many symbols; a text up to a symbol it does
  not hold;
* `Delimited.pair`, `Delimited.tagged`, `Delimited.counted` : two parts, an optional part behind a tag, a counted list;
* `forall₂_of_sepBy` : a list between separators, up to the symbol that closes it.
-/

namespace Keychute.Lib

section
variable {α α' β : Type} {S : α → Prop} {S' : α' → Prop} {stop stop' : List β → Prop} {R : α → α → Prop}
  {R' : α' → α' → Prop} {enc : α → List β} {enc' : α' → List β}

def Delimited (S : α → Prop) (stop : List β → Prop) (R : α → α → Prop) (enc : α → List β) : Prop :=
  ∀ a b, S a → S b → ∀ r r', stop r → stop r' → enc a ++ r = enc b ++ r' → R a b ∧ r = r'

/-- Any continuation. -/
def anyRest (_ : List β) : Prop := True

namespace Delimited

/-- A text, then a symbol it does not hold. -/
theorem terminated (mark : β) : Delimited (fun bs : List β => mark ∉ bs) anyRest Eq fun bs => bs ++ [mark] := by
  intro a b ha hb r r' _ _ heq
  rw [List.append_assoc, List.append_assoc] at heq
  induction a generalizing b with
  | nil =>
      cases b with
      | nil => exact ⟨rfl, List.tail_eq_of_cons_eq heq⟩
      | cons y b => exact absurd (List.head_eq_of_cons_eq heq ▸ List.mem_cons_self) hb
  | cons x a ih =>
      cases b with
      | nil => exact absurd (List.head_eq_of_cons_eq heq ▸ List.mem_cons_self) ha
      | cons y b =>
          obtain ⟨rfl, htail⟩ := List.cons.inj heq
          obtain ⟨rfl, hr⟩ := ih b (List.not_mem_of_not_mem_cons ha) (List.not_mem_of_not_mem_cons hb) htail
          exact ⟨rfl, hr⟩

/-- One part after the other. The first may be followed by anything. -/
theorem pair (h : Delimited S anyRest R enc) (h' : Delimited S' stop R' enc') :
    Delimited (fun p : α × α' => S p.1 ∧ S' p.2) stop (fun p q => R p.1 q.1 ∧ R' p.2 q.2)
      fun p => enc p.1 ++ enc' p.2 := by
  intro p q hp hq r r' hr hr' heq
  rw [List.append_assoc, List.append_assoc] at heq
  obtain ⟨hfst, hrest⟩ := h p.1 q.1 hp.1 hq.1 _ _ trivial trivial heq
  obtain ⟨hsnd, hr⟩ := h' p.2 q.2 hp.2 hq.2 r r' hr hr' hrest
  exact ⟨⟨hfst, hsnd⟩, hr⟩

/-- A value behind a tag, or another tag. -/
theorem tagged {absent present : β} (hne : absent ≠ present) (h : Delimited S anyRest Eq enc) :
    Delimited (fun o : Option α => ∀ a ∈ o, S a) anyRest Eq fun o =>
      match o with
      | none => [absent]
      | some a => present :: enc a := by
  intro o o' ho ho' r r' _ _ heq
  cases o with
  | none =>
      cases o' with
      | none => exact ⟨rfl, List.tail_eq_of_cons_eq heq⟩
      | some b => exact absurd (List.head_eq_of_cons_eq heq) hne
  | some a =>
      cases o' with
      | none => exact absurd (List.head_eq_of_cons_eq heq).symm hne
      | some b =>
          obtain ⟨rfl, hrest⟩ := h a b (ho a rfl) (ho' b rfl) r r' trivial trivial (List.tail_eq_of_cons_eq heq)
          exact ⟨rfl, hrest⟩

/-- As many values as the other list has. -/
theorem flatMap (h : Delimited S anyRest Eq enc) {xs ys : List α} (hlen : xs.length = ys.length)
    (hxs : ∀ x ∈ xs, S x) (hys : ∀ y ∈ ys, S y) {r r' : List β}
    (heq : xs.flatMap enc ++ r = ys.flatMap enc ++ r') : xs = ys ∧ r = r' := by
  induction xs generalizing ys with
  | nil =>
      obtain rfl : ys = [] := List.length_eq_zero_iff.1 hlen.symm
      exact ⟨rfl, heq⟩
  | cons x xs ih =>
      cases ys with
      | nil => cases hlen
      | cons y ys =>
          rw [List.forall_mem_cons] at hxs hys
          rw [List.flatMap_cons, List.flatMap_cons, List.append_assoc, List.append_assoc] at heq
          obtain ⟨rfl, hrest⟩ := h x y hxs.1 hys.1 _ _ trivial trivial heq
          obtain ⟨rfl, hr⟩ := ih (Nat.succ.inj hlen) hxs.2 hys.2 hrest
          exact ⟨rfl, hr⟩

/-- A count of fixed width, then that many values. -/
theorem counted {w bound : Nat} {len : Nat → List β} (hlen : ∀ n, (len n).length = w)
    (hinj : ∀ m n, m < bound → n < bound → len m = len n → m = n) (h : Delimited S anyRest Eq enc) :
    Delimited (fun xs : List α => xs.length < bound ∧ ∀ x ∈ xs, S x) anyRest Eq fun xs =>
      len xs.length ++ xs.flatMap enc := by
  intro xs ys hxs hys r r' _ _ heq
  rw [List.append_assoc, List.append_assoc] at heq
  obtain ⟨hl, hrest⟩ := List.append_inj heq ((hlen _).trans (hlen _).symm)
  exact h.flatMap (hinj _ _ hxs.1 hys.1 hl) hxs.2 hys.2 hrest

end Delimited

/-- A text that ends in a symbol and a part without it, split at the last such symbol. -/
theorem append_last_inj {mark : β} {a b x y : List β} (hx : mark ∉ x) (hy : mark ∉ y)
    (h : a ++ mark :: x = b ++ mark :: y) : a = b ∧ x = y := by
  have hrev := congrArg List.reverse h
  simp only [List.reverse_append, List.reverse_cons] at hrev
  obtain ⟨hxy, hab⟩ := Delimited.terminated mark x.reverse y.reverse (by simpa using hx) (by simpa using hy) _ _
    trivial trivial hrev
  exact ⟨List.reverse_injective hab, List.reverse_injective hxy⟩

/-! ## Lists between separators -/

/-- The partner of a member. -/
theorem exists_of_forall₂ {γ : Type} {R : α → γ → Prop} {xs : List α} {ys : List γ} (h : List.Forall₂ R xs ys) {x : α}
    (hx : x ∈ xs) : ∃ y ∈ ys, R x y := by
  induction h with
  | nil => cases hx
  | cons hxy _ ih =>
      rcases List.mem_cons.1 hx with rfl | hx
      · exact ⟨_, List.mem_cons_self, hxy⟩
      · obtain ⟨y, hy, hR⟩ := ih hx
        exact ⟨y, List.mem_cons_of_mem _ hy, hR⟩

/-- What may follow an item: the separator, or the symbol that closes the list. -/
def sepStop (sep close : β) (r : List β) : Prop := ∃ t, r = sep :: t ∨ r = close :: t

/-- The items one after the other, each but the first behind a separator, and the closing symbol. -/
def sepTail (sep close : β) (r : List β) : List (List β) → List β
  | [] => close :: r
  | x :: xs => sep :: (x ++ sepTail sep close r xs)

theorem sepTail_stop (sep close : β) (r : List β) (xs : List (List β)) : sepStop sep close (sepTail sep close r xs) := by
  cases xs with
  | nil => exact ⟨r, Or.inr rfl⟩
  | cons x xs => exact ⟨_, Or.inl rfl⟩

theorem intercalate_close (sep close : β) (r : List β) (x : List β) (xs : List (List β)) :
    [sep].intercalate (x :: xs) ++ close :: r = x ++ sepTail sep close r xs := by
  induction xs generalizing x with
  | nil => simp [sepTail]
  | cons y ys ih =>
      rw [List.intercalate_cons_cons, List.append_assoc, List.append_assoc, ih]
      rfl

theorem forall₂_of_sepTail {sep close : β} (hne : sep ≠ close) {xs ys : List α} {r r' : List β}
    (h : ∀ x ∈ xs, ∀ y ∈ ys, ∀ t t', sepStop sep close t → sepStop sep close t' → enc x ++ t = enc y ++ t' →
      R x y ∧ t = t')
    (heq : sepTail sep close r (xs.map enc) = sepTail sep close r' (ys.map enc)) :
    List.Forall₂ R xs ys ∧ r = r' := by
  induction xs generalizing ys with
  | nil =>
      cases ys with
      | nil => exact ⟨.nil, List.tail_eq_of_cons_eq heq⟩
      | cons y ys => exact absurd (List.head_eq_of_cons_eq heq).symm hne
  | cons x xs ih =>
      cases ys with
      | nil => exact absurd (List.head_eq_of_cons_eq heq) hne
      | cons y ys =>
          have htail := List.tail_eq_of_cons_eq heq
          obtain ⟨hxy, hrest⟩ := h x (by simp) y (by simp) _ _ (sepTail_stop ..) (sepTail_stop ..) htail
          obtain ⟨hxs, hr⟩ := ih (fun x hx y hy => h x (by simp [hx]) y (by simp [hy])) hrest
          exact ⟨.cons hxy hxs, hr⟩

/-- A list between separators is determined by its text up to the closing symbol, if its items are and none is empty or
begins with that symbol. -/
theorem forall₂_of_sepBy {sep close : β} (hne : sep ≠ close) {xs ys : List α} {r r' : List β}
    (hstart : ∀ x ∈ xs ++ ys, ∃ b t, enc x = b :: t ∧ b ≠ close)
    (h : ∀ x ∈ xs, ∀ y ∈ ys, ∀ t t', sepStop sep close t → sepStop sep close t' → enc x ++ t = enc y ++ t' →
      R x y ∧ t = t')
    (heq : [sep].intercalate (xs.map enc) ++ close :: r = [sep].intercalate (ys.map enc) ++ close :: r') :
    List.Forall₂ R xs ys ∧ r = r' := by
  cases xs with
  | nil =>
      cases ys with
      | nil => exact ⟨.nil, List.tail_eq_of_cons_eq heq⟩
      | cons y ys =>
          obtain ⟨b, t, hb, hclose⟩ := hstart y (by simp)
          rw [List.map_cons, intercalate_close, hb] at heq
          exact absurd (List.head_eq_of_cons_eq heq).symm hclose
  | cons x xs =>
      cases ys with
      | nil =>
          obtain ⟨b, t, hb, hclose⟩ := hstart x (by simp)
          rw [List.map_cons, intercalate_close, hb] at heq
          exact absurd (List.head_eq_of_cons_eq heq) hclose
      | cons y ys =>
          rw [List.map_cons, List.map_cons, intercalate_close, intercalate_close] at heq
          obtain ⟨hxy, hrest⟩ := h x (by simp) y (by simp) _ _ (sepTail_stop ..) (sepTail_stop ..) heq
          obtain ⟨hxs, hr⟩ := forall₂_of_sepTail hne (fun x hx y hy => h x (by simp [hx]) y (by simp [hy])) hrest
          exact ⟨.cons hxy hxs, hr⟩

end
end Keychute.Lib
