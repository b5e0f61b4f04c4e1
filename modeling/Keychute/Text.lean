import Mathlib.Data.List.Basic
import Mathlib.Data.List.DropRight
import Mathlib.Tactic.Common
import Mathlib.Tactic.Cases

/-!
# Rust text

A Rust `String` is a sequence of bytes that is valid UTF-8, which is also what Lean's `String` is;
the functions of `str` that the source calls are defined here on its bytes or on its characters.

* `bytes`, `fromUtf8` : `as_bytes` and `String::from_utf8` (`fromUtf8_eq_some`: inverse);
* `toAsciiLowercase`, `eqIgnoreAsciiCase` : byte-wise folding (`bytes_toAsciiLowercase`), an equivalence;
* `trim`, `lines`, `isControl` : Unicode `White_Space`, line splitting, category `Cc` (`trim_trim`: nothing is left to
  trim);
* `parseUnsigned`, `parseSigned` : `str::parse` at an integer type given by its bounds (`parseSigned_toString`: a
  number reads back from its text).
-/

namespace Keychute

/-! ## Bytes -/

/-- `str::as_bytes`. -/
def bytes (s : String) : List UInt8 := s.toUTF8.data.toList

/-- `String::from_utf8`. -/
def fromUtf8 (bs : List UInt8) : Option String := String.fromUTF8? ⟨bs.toArray⟩

/-- `str::len`: a length in bytes. -/
def byteLen (s : String) : Nat := (bytes s).length

theorem bytes_inj {s t : String} : bytes s = bytes t ↔ s = t := by
  constructor
  · intro h
    have hd : s.toByteArray.data = t.toByteArray.data := Array.toList_inj.1 h
    exact String.toByteArray_inj.1 (ByteArray.ext hd)
  · rintro rfl; rfl

theorem bytes_eq_flatMap (s : String) : bytes s = s.toList.flatMap String.utf8EncodeChar := by
  have h : ∀ l : List Char, bytes (String.ofList l) = l.flatMap String.utf8EncodeChar := by
    intro l; simp [bytes, List.utf8Encode]
  rw [← h, String.ofList_toList]

theorem byteArray_toList_loop (bs : ByteArray) (i : Nat) (r : List UInt8) :
    ByteArray.toList.loop bs i r = r.reverse ++ bs.data.toList.drop i := by
  fun_induction ByteArray.toList.loop bs i r with
  | case1 i r h ih =>
      have hlt : i < bs.data.size := h
      have hlen : i < bs.data.toList.length := by simpa using hlt
      have hget : bs.get! i = bs.data[i] := by
        change bs.data[i]! = _
        exact getElem!_pos bs.data i hlt
      rw [ih, List.reverse_cons, List.append_assoc, List.drop_eq_getElem_cons hlen, hget]
      rfl
  | case2 i r h =>
      have hle : bs.data.toList.length ≤ i := by simpa using Nat.le_of_not_lt h
      rw [List.drop_of_length_le hle, List.append_nil]

theorem toUTF8_toList (s : String) : s.toUTF8.toList = bytes s := by
  rw [ByteArray.toList, byteArray_toList_loop]
  rfl

theorem fromUtf8_eq_some {bs : List UInt8} {s : String} : fromUtf8 bs = some s ↔ bytes s = bs := by
  unfold fromUtf8 String.fromUTF8?
  constructor
  · intro h
    split at h
    · cases h; rfl
    · cases h
  · rintro rfl
    have hv : ByteArray.IsValidUTF8 ⟨(bytes s).toArray⟩ := by simpa [bytes] using s.isValidUTF8
    rw [dif_pos hv]
    congr 1

/-! ## ASCII case -/

/-- `u8::to_ascii_lowercase`. -/
def lowerByte (b : UInt8) : UInt8 := if 65 ≤ b ∧ b ≤ 90 then b + 32 else b

/-- `str::to_ascii_lowercase`: Lean's `Char.toLower` folds ASCII letters only. -/
def toAsciiLowercase (s : String) : String := String.ofList (s.toList.map Char.toLower)

/-- `str::to_ascii_uppercase`. -/
def toAsciiUppercase (s : String) : String := String.ofList (s.toList.map Char.toUpper)

/-- `str::eq_ignore_ascii_case`, by its documentation equality of the lower-cased strings. -/
def eqIgnoreAsciiCase (s t : String) : Bool := toAsciiLowercase s == toAsciiLowercase t

theorem lowerByte_of_ge {b : UInt8} (h : 128 ≤ b.toNat) : lowerByte b = b := by
  unfold lowerByte
  rw [if_neg]
  rintro ⟨-, h2⟩
  have : b.toNat ≤ 90 := UInt8.le_iff_toNat_le.1 h2
  omega

theorem lowerByte_eq_slash (b : UInt8) : lowerByte b = 47 ↔ b = 47 := by
  have key : ∀ n : Fin 256, lowerByte ⟨⟨n⟩⟩ = 47 ↔ (⟨⟨n⟩⟩ : UInt8) = 47 := by decide +kernel
  exact key b.toBitVec.toFin

theorem utf8EncodeChar_ascii {c : Char} (h : c.toNat ≤ 127) :
    String.utf8EncodeChar c = [UInt8.ofNat c.toNat] := by
  have h' : c.val.toNat ≤ 127 := h
  simp only [String.utf8EncodeChar, h', if_true]
  rfl

theorem utf8EncodeChar_ge {c : Char} (h : ¬ c.toNat ≤ 127) : ∀ b ∈ String.utf8EncodeChar c, 128 ≤ b.toNat := by
  have h' : ¬ c.val.toNat ≤ 127 := h
  intro b hb
  simp only [String.utf8EncodeChar, h', if_false] at hb
  split at hb
  · simp only [List.mem_cons, List.not_mem_nil, or_false] at hb
    rcases hb with rfl | rfl <;> rw [UInt8.toNat_ofNat_of_lt'] <;> simp [UInt8.size] <;> omega
  · split at hb
    · simp only [List.mem_cons, List.not_mem_nil, or_false] at hb
      rcases hb with rfl | rfl | rfl <;> rw [UInt8.toNat_ofNat_of_lt'] <;> simp [UInt8.size] <;> omega
    · simp only [List.mem_cons, List.not_mem_nil, or_false] at hb
      rcases hb with rfl | rfl | rfl | rfl <;> rw [UInt8.toNat_ofNat_of_lt'] <;> simp [UInt8.size] <;> omega

/-- A character of a text gives bytes of its own. -/
theorem ascii_mem_bytes {s : String} {ch : Char} (hch : ch.toNat ≤ 127) :
    UInt8.ofNat ch.toNat ∈ bytes s ↔ ch ∈ s.toList := by
  rw [bytes_eq_flatMap, List.mem_flatMap]
  constructor
  · rintro ⟨d, hd, hmem⟩
    by_cases h : d.toNat ≤ 127
    · rw [utf8EncodeChar_ascii h, List.mem_singleton] at hmem
      have hnat := congrArg UInt8.toNat hmem
      rw [UInt8.toNat_ofNat', UInt8.toNat_ofNat', Nat.mod_eq_of_lt (by omega), Nat.mod_eq_of_lt (by omega)] at hnat
      rwa [← Char.toNat_inj.1 hnat] at hd
    · have hge := utf8EncodeChar_ge h _ hmem
      rw [UInt8.toNat_ofNat', Nat.mod_eq_of_lt (by omega)] at hge
      omega
  · intro h
    exact ⟨ch, h, by rw [utf8EncodeChar_ascii hch, List.mem_singleton]⟩

theorem toLower_of_gt {c : Char} (h : ¬ c.toNat ≤ 127) : c.toLower = c := by
  unfold Char.toLower
  rw [dif_neg]
  rintro ⟨-, h2⟩
  have : c.toNat ≤ 90 := UInt32.le_iff_toNat_le.1 h2
  omega

theorem toLower_toLower (c : Char) : c.toLower.toLower = c.toLower := by
  by_cases h : c.toNat ≤ 127
  · have key : ∀ n : Fin 128, (Char.ofNat n).toLower.toLower = (Char.ofNat n).toLower := by decide
    have := key ⟨c.toNat, by omega⟩
    rwa [Char.ofNat_toNat c] at this
  · rw [toLower_of_gt h, toLower_of_gt h]

theorem utf8EncodeChar_toLower (c : Char) :
    String.utf8EncodeChar c.toLower = (String.utf8EncodeChar c).map lowerByte := by
  by_cases h : c.toNat ≤ 127
  · have key : ∀ n : Fin 128, String.utf8EncodeChar (Char.ofNat n).toLower =
        [lowerByte (UInt8.ofNat n)] := by decide
    have hc : Char.ofNat c.toNat = c := Char.ofNat_toNat c
    have := key ⟨c.toNat, by omega⟩
    rw [hc] at this
    rw [this, utf8EncodeChar_ascii h, List.map_singleton]
  · rw [toLower_of_gt h]
    symm
    rw [List.map_congr_left (fun b hb => lowerByte_of_ge (utf8EncodeChar_ge h b hb)), List.map_id']

theorem toAsciiLowercase_idem (s : String) : toAsciiLowercase (toAsciiLowercase s) = toAsciiLowercase s := by
  simp only [toAsciiLowercase, String.toList_ofList, List.map_map, Function.comp_def, toLower_toLower]

theorem bytes_toAsciiLowercase (s : String) : bytes (toAsciiLowercase s) = (bytes s).map lowerByte := by
  rw [bytes_eq_flatMap, bytes_eq_flatMap, toAsciiLowercase, String.toList_ofList, List.flatMap_map,
    List.map_flatMap]
  exact List.flatMap_congr (fun c _ => utf8EncodeChar_toLower c)

/-- `u8::to_ascii_uppercase`. -/
def upperByte (b : UInt8) : UInt8 := if 97 ≤ b ∧ b ≤ 122 then b - 32 else b

theorem upperByte_of_ge {b : UInt8} (h : 128 ≤ b.toNat) : upperByte b = b := by
  unfold upperByte
  rw [if_neg]
  rintro ⟨-, h2⟩
  have : b.toNat ≤ 122 := UInt8.le_iff_toNat_le.1 h2
  omega

theorem toUpper_of_gt {c : Char} (h : ¬ c.toNat ≤ 127) : c.toUpper = c := by
  unfold Char.toUpper
  rw [dif_neg]
  rintro ⟨-, h2⟩
  have : c.toNat ≤ 122 := UInt32.le_iff_toNat_le.1 h2
  omega

theorem utf8EncodeChar_toUpper (c : Char) :
    String.utf8EncodeChar c.toUpper = (String.utf8EncodeChar c).map upperByte := by
  by_cases h : c.toNat ≤ 127
  · have key : ∀ n : Fin 128, String.utf8EncodeChar (Char.ofNat n).toUpper =
        [upperByte (UInt8.ofNat n)] := by decide
    have := key ⟨c.toNat, by omega⟩
    rw [Char.ofNat_toNat c] at this
    rw [this, utf8EncodeChar_ascii h, List.map_singleton]
  · rw [toUpper_of_gt h]
    symm
    rw [List.map_congr_left (fun b hb => upperByte_of_ge (utf8EncodeChar_ge h b hb)), List.map_id']

theorem bytes_toAsciiUppercase (s : String) : bytes (toAsciiUppercase s) = (bytes s).map upperByte := by
  rw [bytes_eq_flatMap, bytes_eq_flatMap, toAsciiUppercase, String.toList_ofList, List.flatMap_map,
    List.map_flatMap]
  exact List.flatMap_congr (fun c _ => utf8EncodeChar_toUpper c)

theorem eqIgnoreAsciiCase_symm {s t : String} (h : eqIgnoreAsciiCase s t = true) :
    eqIgnoreAsciiCase t s = true := by
  simp only [eqIgnoreAsciiCase, beq_iff_eq] at h ⊢
  exact h.symm

theorem eqIgnoreAsciiCase_trans {s t u : String} (h₁ : eqIgnoreAsciiCase s t = true)
    (h₂ : eqIgnoreAsciiCase t u = true) : eqIgnoreAsciiCase s u = true := by
  simp only [eqIgnoreAsciiCase, beq_iff_eq] at h₁ h₂ ⊢
  exact h₁.trans h₂

/-! ## White space, lines, control characters -/

/-- `char::is_whitespace`: the Unicode property `White_Space`. -/
def isWhitespace (c : Char) : Bool :=
  let n := c.toNat
  (9 ≤ n && n ≤ 13) || n == 0x20 || n == 0x85 || n == 0xA0 || n == 0x1680 || (0x2000 ≤ n && n ≤ 0x200A) ||
    n == 0x2028 || n == 0x2029 || n == 0x202F || n == 0x205F || n == 0x3000

/-- `str::trim`. -/
def trim (s : String) : String := String.ofList ((s.toList.dropWhile isWhitespace).rdropWhile isWhitespace)

/-- White space at neither end. -/
theorem trim_eq_self_iff {s : String} :
    trim s = s ↔ s.toList.dropWhile isWhitespace = s.toList ∧ s.toList.rdropWhile isWhitespace = s.toList := by
  rw [trim, ← String.toList_inj, String.toList_ofList]
  constructor
  · intro h
    have hprefix := List.rdropWhile_prefix isWhitespace (l := s.toList.dropWhile isWhitespace)
    have hsuffix := List.dropWhile_suffix isWhitespace (l := s.toList)
    have hdrop : s.toList.dropWhile isWhitespace = s.toList := by
      apply hsuffix.eq_of_length
      have hle := hprefix.length_le
      rw [h] at hle
      exact Nat.le_antisymm hsuffix.length_le hle
    rw [hdrop] at h
    exact ⟨hdrop, h⟩
  · rintro ⟨hdrop, hrdrop⟩
    rw [hdrop, hrdrop]

theorem trim_of_no_whitespace {s : String} (h : ∀ ch ∈ s.toList, isWhitespace ch = false) : trim s = s := by
  rw [trim_eq_self_iff]
  constructor
  · rw [List.dropWhile_eq_self_iff]
    intro hl
    simp [h _ (List.getElem_mem hl)]
  · rw [List.rdropWhile_eq_self_iff]
    intro hl
    simp [h _ (List.getLast_mem hl)]

theorem trim_trim (s : String) : trim (trim s) = trim s := by
  rw [trim_eq_self_iff, trim, String.toList_ofList]
  refine ⟨?_, List.rdropWhile_idempotent _ _⟩
  rw [List.dropWhile_eq_self_iff]
  intro hl
  have hprefix := List.rdropWhile_prefix isWhitespace (l := s.toList.dropWhile isWhitespace)
  have hhead := hprefix.getElem hl
  rw [hhead]
  have hne : s.toList.dropWhile isWhitespace ≠ [] := by
    intro hnil
    rw [hnil] at hl
    exact absurd hl (by simp)
  have hnot := List.head_dropWhile_not isWhitespace hne
  rw [List.head_eq_getElem] at hnot
  simp [hnot]

/-- `char::is_control`: the Unicode category `Cc`. -/
def isControl (c : Char) : Bool := c.toNat ≤ 0x1F || (0x7F ≤ c.toNat && c.toNat ≤ 0x9F)

/-- `str::lines`: cut after each line feed, which takes a carriage return before it along; a last line
that is empty is not a line. -/
def lines (s : String) : List String :=
  let parts := s.toList.splitOn '\n'
  let stripCr (l : List Char) : List Char := if l.getLast? = some '\r' then l.dropLast else l
  let last := parts.getLast?.getD []
  (parts.dropLast.map stripCr ++ if last.isEmpty then [] else [last]).map String.ofList

/-! ## Numbers -/

/-- Decimal digits, at least one. -/
def parseDigits (cs : List Char) : Option Nat :=
  if cs.isEmpty then none
  else cs.foldlM (fun n c => if c.isDigit then some (10 * n + (c.toNat - '0'.toNat)) else none) 0

/-- `str::parse` at an unsigned type whose greatest value is `hi`: an optional `+`, then digits. -/
def parseUnsigned (hi : Nat) (s : String) : Option Nat :=
  let n := match s.toList with
    | '+' :: cs => parseDigits cs
    | cs => parseDigits cs
  n.filter (· ≤ hi)

theorem parseUnsigned_le {hi n : Nat} {s : String} (h : parseUnsigned hi s = some n) : n ≤ hi := by
  unfold parseUnsigned at h
  have := Option.filter_eq_some_iff.1 h
  simpa using this.2

/-- `str::parse` at a signed type with values from `lo` to `hi`. -/
def parseSigned (lo hi : Int) (s : String) : Option Int :=
  let n : Option Int := match s.toList with
    | '+' :: cs => (parseDigits cs).map Int.ofNat
    | '-' :: cs => (parseDigits cs).map fun n => -Int.ofNat n
    | cs => (parseDigits cs).map Int.ofNat
  n.filter fun v => lo ≤ v ∧ v ≤ hi

/-! ### Numbers and their texts -/

theorem parseDigits_toDigits (n : Nat) : parseDigits (Nat.toDigits 10 n) = some n := by
  have hfold : ∀ (cs : List Char) (m : Nat), (∀ c ∈ cs, c.isDigit = true) →
      cs.foldlM (fun n c => if c.isDigit then some (10 * n + (c.toNat - '0'.toNat)) else none) m =
        some (Nat.ofDigitChars 10 cs m) := by
    intro cs
    induction cs with
    | nil => intro m _; rfl
    | cons c cs ih =>
        intro m h
        obtain ⟨hc, hcs⟩ := List.forall_mem_cons.1 h
        rw [List.foldlM_cons, if_pos hc, Nat.ofDigitChars_cons]
        exact ih _ hcs
  have hne : (Nat.toDigits 10 n).isEmpty = false := List.isEmpty_eq_false_iff.2 Nat.toDigits_ne_nil
  rw [parseDigits, hne, if_neg Bool.false_ne_true,
    hfold _ _ fun c hc => Nat.isDigit_of_mem_toDigits (by decide) (by decide) hc, Nat.ofDigitChars_ten_toDigits]

theorem toDigits_inj {m n : Nat} (h : Nat.toDigits 10 m = Nat.toDigits 10 n) : m = n := by
  have hm : Nat.ofDigitChars 10 (Nat.toDigits 10 m) 0 = m := Nat.ofDigitChars_ten_toDigits
  rw [h, Nat.ofDigitChars_ten_toDigits] at hm
  exact hm.symm

/-- The text of an integer. -/
theorem toList_toString (v : Int) :
    (toString v).toList = if 0 ≤ v then Nat.toDigits 10 v.toNat else '-' :: Nat.toDigits 10 (-v).toNat := by
  rw [Int.toString_eq_repr, Int.repr_eq_if]
  split
  · exact Nat.toList_repr
  · rw [String.toList_append, Nat.toList_repr]
    rfl

theorem isDigit_toDigits {c : Char} {n : Nat} (h : c ∈ Nat.toDigits 10 n) : c.isDigit = true :=
  Nat.isDigit_of_mem_toDigits (by decide) (by decide) h

/-- An integer within the bounds reads back from its text. -/
theorem parseSigned_toString {lo hi v : Int} (hlo : lo ≤ v) (hhi : v ≤ hi) :
    parseSigned lo hi (toString v) = some v := by
  rw [parseSigned, toList_toString]
  by_cases hpos : 0 ≤ v
  · rw [if_pos hpos]
    split
    · rename_i cs heq
      have := isDigit_toDigits (heq ▸ List.mem_cons_self : '+' ∈ Nat.toDigits 10 v.toNat)
      exact absurd this (by decide)
    · rename_i cs heq
      have := isDigit_toDigits (heq ▸ List.mem_cons_self : '-' ∈ Nat.toDigits 10 v.toNat)
      exact absurd this (by decide)
    · rw [parseDigits_toDigits, Option.map_some, Int.ofNat_eq_natCast, Int.toNat_of_nonneg hpos]
      simp [hlo, hhi]
  · rw [if_neg hpos]
    simp only [parseDigits_toDigits, Option.map_some]
    have hv : -Int.ofNat (-v).toNat = v := by
      rw [Int.ofNat_eq_natCast, Int.toNat_of_nonneg (by omega)]
      omega
    rw [hv]
    simp [hlo, hhi]

theorem toString_inj {v w : Int} (h : toString v = toString w) : v = w := by
  have hv := parseSigned_toString (Int.min_le_left v w) (Int.le_max_left v w)
  rw [h, parseSigned_toString (Int.min_le_right v w) (Int.le_max_right v w)] at hv
  exact (Option.some.inj hv).symm

theorem parseUnsigned_toString {hi n : Nat} (h : n ≤ hi) : parseUnsigned hi (toString n) = some n := by
  have htext : (toString n).toList = Nat.toDigits 10 n := Nat.toList_repr
  rw [parseUnsigned, htext]
  split
  · rename_i cs heq
    have := isDigit_toDigits (heq ▸ List.mem_cons_self : '+' ∈ Nat.toDigits 10 n)
    exact absurd this (by decide)
  · rw [parseDigits_toDigits]
    simp [h]

end Keychute
