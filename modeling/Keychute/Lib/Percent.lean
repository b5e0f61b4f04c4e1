import Mathlib.Data.List.Basic
import Mathlib.Tactic.Common

/-!
# Percent-encoding of bytes

* `hexDigit?`, `escaped?` : the byte that two hexadecimal digits stand for;
* `percentDecode` : decoding once. An escape becomes its byte, and what is no escape stands for itself;
* `percentEncode` : encoding what a set does not keep, in upper case (`percentDecode_percentEncode`: its inverse);
* `splitOn_percentDecode` : decoding does not move a separator that no escape stands for.
-/

namespace Keychute.Lib

/-! ## Escapes -/

/-- The value of a hexadecimal digit, of either case. -/
def hexDigit? (b : UInt8) : Option Nat :=
  if 48 ≤ b.toNat ∧ b.toNat ≤ 57 then some (b.toNat - 48)
  else if 65 ≤ b.toNat ∧ b.toNat ≤ 70 then some (b.toNat - 55)
  else if 97 ≤ b.toNat ∧ b.toNat ≤ 102 then some (b.toNat - 87)
  else none

def escaped? (h l : UInt8) : Option UInt8 :=
  match hexDigit? h, hexDigit? l with
  | some x, some y => some (UInt8.ofNat (16 * x + y))
  | _, _ => none

/-- The upper-case digit of a value below 16. -/
def upperHexDigit (n : Nat) : UInt8 := UInt8.ofNat (if n < 10 then 48 + n else 55 + n)

theorem hexDigit?_ne_percent {b : UInt8} (h : (hexDigit? b).isSome = true) : b ≠ 37 := by
  rintro rfl
  cases h

theorem escaped?_isSome {h l : UInt8} :
    (escaped? h l).isSome = true ↔ (hexDigit? h).isSome = true ∧ (hexDigit? l).isSome = true := by
  unfold escaped?
  cases hexDigit? h <;> cases hexDigit? l <;> simp

theorem escaped?_upperHexDigit (b : UInt8) :
    escaped? (upperHexDigit (b.toNat / 16)) (upperHexDigit (b.toNat % 16)) = some b := by
  have key : ∀ n : Fin 256, escaped? (upperHexDigit (n.val / 16)) (upperHexDigit (n.val % 16)) = some ⟨⟨n⟩⟩ := by
    decide +kernel
  exact key b.toBitVec.toFin

/-! ## Decoding -/

def percentDecode : List UInt8 → List UInt8
  | [] => []
  | [a] => [a]
  | [a, b] => [a, b]
  | b :: h :: l :: rest =>
    match if b = 37 then escaped? h l else none with
    | some v => v :: percentDecode rest
    | none => b :: percentDecode (h :: l :: rest)

@[simp] theorem percentDecode_nil : percentDecode [] = [] := rfl

theorem percentDecode_cons {b : UInt8} (hb : b ≠ 37) (rest : List UInt8) :
    percentDecode (b :: rest) = b :: percentDecode rest := by
  match rest with
  | [] => rfl
  | [_] => rfl
  | _ :: _ :: _ => simp only [percentDecode, if_neg hb]

theorem percentDecode_escape {h l v : UInt8} (hv : escaped? h l = some v) (rest : List UInt8) :
    percentDecode (37 :: h :: l :: rest) = v :: percentDecode rest := by
  simp only [percentDecode, if_pos, hv]

/-- Decoding changes nothing, or shortens. -/
theorem percentDecode_eq_or_shorter (bs : List UInt8) :
    percentDecode bs = bs ∨ (percentDecode bs).length < bs.length := by
  fun_induction percentDecode bs with
  | case1 => exact Or.inl rfl
  | case2 => exact Or.inl rfl
  | case3 => exact Or.inl rfl
  | case4 b h l rest v _ ih =>
      refine Or.inr ?_
      rcases ih with ih | ih
      · rw [ih]
        simp
      · simp only [List.length_cons]
        omega
  | case5 b h l rest _ ih =>
      rcases ih with ih | ih
      · rw [ih]
        exact Or.inl rfl
      · refine Or.inr ?_
        rw [List.length_cons, List.length_cons]
        omega

theorem percentDecode_ne_nil {bs : List UInt8} (h : bs ≠ []) : percentDecode bs ≠ [] := by
  fun_cases percentDecode bs with
  | case1 => exact absurd rfl h
  | case2 => simp
  | case3 => simp
  | case4 => simp
  | case5 => simp

/-- Every `%` begins an escape. -/
def WellEscaped (bs : List UInt8) : Prop :=
  ∀ rest, 37 :: rest <:+ bs → ∃ h l rest', rest = h :: l :: rest' ∧ (escaped? h l).isSome = true

theorem WellEscaped.of_suffix {as bs : List UInt8} (h : WellEscaped bs) (hs : as <:+ bs) : WellEscaped as :=
  fun rest hr => h rest (hr.trans hs)

theorem wellEscaped_cons {b : UInt8} (hb : b ≠ 37) {bs : List UInt8} : WellEscaped (b :: bs) ↔ WellEscaped bs := by
  refine ⟨fun h => h.of_suffix (List.suffix_cons b bs), fun h rest hr => ?_⟩
  rcases List.suffix_cons_iff.1 hr with heq | hr
  · exact absurd (List.cons.inj heq).1.symm hb
  · exact h rest hr

theorem suffix_escape_iff {h l : UInt8} (hh : h ≠ 37) (hl : l ≠ 37) {rest bs : List UInt8} :
    37 :: rest <:+ 37 :: h :: l :: bs ↔ rest = h :: l :: bs ∨ 37 :: rest <:+ bs := by
  rw [List.suffix_cons_iff, List.suffix_cons_iff, List.suffix_cons_iff]
  constructor
  · rintro (heq | heq | heq | hs)
    · exact Or.inl (List.cons.inj heq).2
    · exact absurd (List.cons.inj heq).1.symm hh
    · exact absurd (List.cons.inj heq).1.symm hl
    · exact Or.inr hs
  · rintro (rfl | hs)
    · exact Or.inl rfl
    · exact Or.inr (Or.inr (Or.inr hs))

/-- A string with escapes is read off byte by byte or escape by escape. -/
theorem WellEscaped.induction {motive : ∀ bs : List UInt8, WellEscaped bs → Prop} (nil : ∀ h, motive [] h)
    (byte : ∀ b bs hw (_ : b ≠ 37) (hbs : WellEscaped bs), motive bs hbs → motive (b :: bs) hw)
    (escape : ∀ h l v bs hw (_ : escaped? h l = some v) (_ : h ≠ 37) (_ : l ≠ 37) (hbs : WellEscaped bs),
      motive bs hbs → motive (37 :: h :: l :: bs) hw) :
    ∀ (bs : List UInt8) (hw : WellEscaped bs), motive bs hw
  | [], hw => nil hw
  | b :: bs, hw => by
      by_cases hb : b = 37
      · subst hb
        obtain ⟨h, l, rest', rfl, hv⟩ := hw bs (List.suffix_refl _)
        obtain ⟨v, hv'⟩ := Option.isSome_iff_exists.1 hv
        obtain ⟨hh, hl⟩ := escaped?_isSome.1 hv
        have hrest : WellEscaped rest' := hw.of_suffix ⟨[37, h, l], rfl⟩
        exact escape h l v rest' hw hv' (hexDigit?_ne_percent hh) (hexDigit?_ne_percent hl) hrest
          (WellEscaped.induction nil byte escape rest' hrest)
      · have hbs := (wellEscaped_cons hb).1 hw
        exact byte b bs hw hb hbs (WellEscaped.induction nil byte escape bs hbs)
termination_by bs => bs.length

theorem splitOn_cons_of_ne {α : Type} [DecidableEq α] {b x : α} (hb : b ≠ x) {bs s : List α} {ss : List (List α)}
    (h : bs.splitOn x = s :: ss) : (b :: bs).splitOn x = (b :: s) :: ss := by
  rw [List.splitOn_cons_eq_if_modifyHead, if_neg (by simpa using hb), h]
  rfl

theorem splitOn_cons_self {α : Type} [DecidableEq α] {x : α} (bs : List α) :
    (x :: bs).splitOn x = [] :: bs.splitOn x := by
  rw [List.splitOn_cons_eq_if_modifyHead, if_pos (by simp)]

/-- A separator that no escape stands for cuts the decoded string where it cuts the encoded one. -/
theorem splitOn_percentDecode {x : UInt8} {bs : List UInt8} (hw : WellEscaped bs) (hx : x ≠ 37)
    (hd : hexDigit? x = none) (hno : ∀ h l rest, 37 :: h :: l :: rest <:+ bs → escaped? h l ≠ some x) :
    (percentDecode bs).splitOn x = (bs.splitOn x).map percentDecode := by
  induction bs, hw using WellEscaped.induction with
  | nil => simp
  | byte b bs _ hb _ ih =>
      have ih := ih fun h l rest hs => hno h l rest (hs.trans (List.suffix_cons b bs))
      rw [percentDecode_cons hb]
      by_cases hbx : b = x
      · rw [hbx, splitOn_cons_self, splitOn_cons_self, ih]
        rfl
      · obtain ⟨s, ss, hs⟩ := List.exists_cons_of_ne_nil (List.splitOn_ne_nil x bs)
        rw [hs, List.map_cons] at ih
        rw [splitOn_cons_of_ne hbx ih, splitOn_cons_of_ne hbx hs, List.map_cons, percentDecode_cons hb]
  | escape h l v bs _ hv hh hl _ ih =>
      have ih := ih fun h' l' rest hs => hno h' l' rest (hs.trans ⟨[37, h, l], rfl⟩)
      have hvx : v ≠ x := fun he => hno h l bs (List.suffix_refl _) (he ▸ hv)
      -- the two digits are no separators
      have hdig := escaped?_isSome.1 (Option.isSome_iff_exists.2 ⟨v, hv⟩)
      have hhx : h ≠ x := by rintro rfl; rw [hd] at hdig; cases hdig.1
      have hlx : l ≠ x := by rintro rfl; rw [hd] at hdig; cases hdig.2
      obtain ⟨s, ss, hs⟩ := List.exists_cons_of_ne_nil (List.splitOn_ne_nil x bs)
      rw [hs, List.map_cons] at ih
      rw [percentDecode_escape hv, splitOn_cons_of_ne hvx ih,
        splitOn_cons_of_ne (Ne.symm hx) (splitOn_cons_of_ne hhx (splitOn_cons_of_ne hlx hs)), List.map_cons,
        percentDecode_escape hv]

/-! ## Encoding -/

/-- Encode the bytes that `keep` does not keep. -/
def percentEncode (keep : UInt8 → Bool) (bs : List UInt8) : List UInt8 :=
  bs.flatMap fun b => if keep b then [b] else [37, upperHexDigit (b.toNat / 16), upperHexDigit (b.toNat % 16)]

theorem percentEncode_cons (keep : UInt8 → Bool) (b : UInt8) (bs : List UInt8) :
    percentEncode keep (b :: bs) =
      (if keep b then [b] else [37, upperHexDigit (b.toNat / 16), upperHexDigit (b.toNat % 16)]) ++
        percentEncode keep bs := rfl

theorem percentDecode_percentEncode {keep : UInt8 → Bool} (hkeep : keep 37 = false) (bs : List UInt8) :
    percentDecode (percentEncode keep bs) = bs := by
  induction bs with
  | nil => rfl
  | cons b bs ih =>
      rw [percentEncode_cons]
      split
      · rename_i hb
        have hb37 : b ≠ 37 := by rintro rfl; rw [hkeep] at hb; cases hb
        rw [List.singleton_append, percentDecode_cons hb37, ih]
      · rw [List.cons_append, List.cons_append, List.cons_append, List.nil_append,
          percentDecode_escape (escaped?_upperHexDigit b), ih]

end Keychute.Lib
