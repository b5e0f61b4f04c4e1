import Keychute.Lib.Percent
import Mathlib.Data.List.Basic

/-!
# `application/x-www-form-urlencoded`

* `encodeComponent`, `decodeComponent` : a name or a value, percent-encoded with `+` for a space;
* `serializePairs`, `parsePairs` : a list of names and values, written `name=value` and joined by `&`;
* `parsePairs_serializePairs` : any list is read back;
* `plain_serializePairs` : nothing but plain ASCII is written.
-/

namespace Keychute.Lib.FormUrlencoded

/-- What stands for itself: ASCII letters and digits, and `*-._`. -/
def keep (b : UInt8) : Bool :=
  (48 ≤ b && b ≤ 57) || (65 ≤ b && b ≤ 90) || (97 ≤ b && b ≤ 122) || b == 42 || b == 45 || b == 46 || b == 95

def encodeComponent (bs : List UInt8) : List UInt8 :=
  (percentEncode (fun b => keep b || b == 32) bs).map fun b => if b = 32 then 43 else b

def decodeComponent (bs : List UInt8) : List UInt8 := percentDecode (bs.map fun b => if b = 43 then 32 else b)

/-- `name=value` for each pair, joined by `&`. -/
def serializePairs (pairs : List (List UInt8 × List UInt8)) : List UInt8 :=
  [38].intercalate (pairs.map fun p => encodeComponent p.1 ++ 61 :: encodeComponent p.2)

/-- Cut at `&`, and each piece that is not empty at its first `=`. -/
def parsePairs (bs : List UInt8) : List (List UInt8 × List UInt8) :=
  ((bs.splitOn 38).filter fun piece => !piece.isEmpty).map fun piece =>
    (decodeComponent (piece.takeWhile (· != 61)), decodeComponent ((piece.dropWhile (· != 61)).drop 1))

/-! ## Components -/

/-- A byte of an encoded component: one that is kept, `%` or `+`. -/
def plain (b : UInt8) : Bool := keep b || b == 37 || b == 43

theorem plain_encodeComponent (bs : List UInt8) : ∀ b ∈ encodeComponent bs, plain b = true := by
  have key : ∀ n : Fin 256, ((if keep ⟨⟨n⟩⟩ || (⟨⟨n⟩⟩ : UInt8) == 32 then [⟨⟨n⟩⟩] else
      [37, upperHexDigit (n.val / 16), upperHexDigit (n.val % 16)]).map fun b : UInt8 => if b = 32 then 43 else b).all
        plain = true := by decide +kernel
  intro b hb
  rw [encodeComponent, percentEncode, List.map_flatMap, List.mem_flatMap] at hb
  obtain ⟨a, -, hb⟩ := hb
  exact List.all_eq_true.1 (key a.toBitVec.toFin) b hb

theorem decodeComponent_encodeComponent (bs : List UInt8) : decodeComponent (encodeComponent bs) = bs := by
  have key : ∀ n : Fin 256, (if keep ⟨⟨n⟩⟩ || (⟨⟨n⟩⟩ : UInt8) == 32 then [⟨⟨n⟩⟩] else
      [37, upperHexDigit (n.val / 16), upperHexDigit (n.val % 16)]).all (fun b : UInt8 => b != 43) = true := by
    decide +kernel
  -- no `+` stands in the percent-encoding, so every `+` was a space
  have hback : ∀ b ∈ percentEncode (fun b => keep b || b == 32) bs,
      (if (if b = 32 then 43 else b) = 43 then 32 else (if b = 32 then 43 else b)) = b := by
    intro b hb
    obtain ⟨a, -, hb⟩ := List.mem_flatMap.1 hb
    have hne := bne_iff_ne.1 (List.all_eq_true.1 (key a.toBitVec.toFin) b hb)
    by_cases h32 : b = 32
    · rw [if_pos h32, if_pos rfl, h32]
    · rw [if_neg h32, if_neg hne]
  have hspaces : (encodeComponent bs).map (fun b => if b = 43 then 32 else b) =
      percentEncode (fun b => keep b || b == 32) bs := by
    rw [encodeComponent, List.map_map]
    exact (List.map_congr_left hback).trans (List.map_id _)
  rw [decodeComponent, hspaces]
  exact percentDecode_percentEncode (by decide) bs

/-! ## Pairs -/

theorem mem_intercalate {α : Type} {sep : List α} {ls : List (List α)} {a : α} (h : a ∈ sep.intercalate ls) :
    a ∈ sep ∨ ∃ l ∈ ls, a ∈ l := by
  induction ls with
  | nil => cases h
  | cons l ls ih =>
      cases ls with
      | nil =>
          rw [List.intercalate_singleton] at h
          exact Or.inr ⟨l, List.mem_cons_self, h⟩
      | cons m ls =>
          rw [List.intercalate_cons_cons, List.mem_append, List.mem_append] at h
          rcases h with (h | h) | h
          · exact Or.inr ⟨l, List.mem_cons_self, h⟩
          · exact Or.inl h
          · rcases ih h with h | ⟨k, hk, h⟩
            · exact Or.inl h
            · exact Or.inr ⟨k, List.mem_cons_of_mem _ hk, h⟩

/-- A byte of a serialized list. -/
theorem plain_serializePairs {pairs : List (List UInt8 × List UInt8)} {b : UInt8} (h : b ∈ serializePairs pairs) :
    (plain b || b == 38 || b == 61) = true := by
  have hplain : ∀ {bs : List UInt8}, b ∈ encodeComponent bs → (plain b || b == 38 || b == 61) = true := by
    intro bs hb
    rw [plain_encodeComponent bs b hb, Bool.true_or, Bool.true_or]
  rcases mem_intercalate h with h | ⟨piece, hpiece, h⟩
  · rw [List.mem_singleton.1 h]
    rfl
  · obtain ⟨p, -, rfl⟩ := List.mem_map.1 hpiece
    rcases List.mem_append.1 h with h | h
    · exact hplain h
    · rcases List.mem_cons.1 h with rfl | h
      · rfl
      · exact hplain h

theorem parsePairs_serializePairs (pairs : List (List UInt8 × List UInt8)) :
    parsePairs (serializePairs pairs) = pairs := by
  have hplain : ∀ {bs : List UInt8} {b : UInt8}, b ∈ encodeComponent bs → b ≠ 38 ∧ b ≠ 61 := by
    intro bs b hb
    have hb := plain_encodeComponent bs b hb
    refine ⟨?_, ?_⟩
    · rintro rfl
      exact absurd hb (by decide)
    · rintro rfl
      exact absurd hb (by decide)
  cases hp : pairs with
  | nil => rfl
  | cons first rest =>
      rw [← hp]
      have hsplit : (serializePairs pairs).splitOn 38 =
          pairs.map fun p => encodeComponent p.1 ++ 61 :: encodeComponent p.2 := by
        refine List.splitOn_intercalate 38 ?_ (by rw [hp]; simp)
        intro piece hpiece hmem
        obtain ⟨p, -, rfl⟩ := List.mem_map.1 hpiece
        rcases List.mem_append.1 hmem with hmem | hmem
        · exact (hplain hmem).1 rfl
        · rcases List.mem_cons.1 hmem with hmem | hmem
          · exact absurd hmem (by decide)
          · exact (hplain hmem).1 rfl
      have hne : ∀ piece ∈ pairs.map (fun p => encodeComponent p.1 ++ 61 :: encodeComponent p.2),
          (!piece.isEmpty) = true := by
        intro piece hpiece
        obtain ⟨p, -, rfl⟩ := List.mem_map.1 hpiece
        simp
      have hread : ∀ p : List UInt8 × List UInt8,
          (decodeComponent ((encodeComponent p.1 ++ 61 :: encodeComponent p.2).takeWhile (· != 61)),
            decodeComponent (((encodeComponent p.1 ++ 61 :: encodeComponent p.2).dropWhile (· != 61)).drop 1)) = p := by
        intro p
        have hname : ∀ b ∈ encodeComponent p.1, (b != 61) = true := fun b hb => bne_iff_ne.2 (hplain hb).2
        rw [List.takeWhile_append_of_pos hname, List.dropWhile_append_of_pos hname,
          List.takeWhile_cons_of_neg (by decide), List.append_nil, List.dropWhile_cons_of_neg (by decide), List.drop_one,
          List.tail_cons, decodeComponent_encodeComponent, decodeComponent_encodeComponent]
      rw [parsePairs, hsplit, List.filter_eq_self.2 hne, List.map_map]
      exact (List.map_congr_left fun p _ => hread p).trans (List.map_id _)

end Keychute.Lib.FormUrlencoded
