import Keychute.Api.Create
import Keychute.Lib.Delimited
import Keychute.Lib.Percent
import Mathlib.Data.String.Basic
import Mathlib.Tactic.FinCases
import Mathlib.Data.Fintype.Basic

/-!
# The canonical payload identifies the request (`server/src/api/canonical.rs`)

* `Json.same` : equality of `serde_json` values, whose objects are maps;
* `jsonString_delimited`, `toString_delimited` : the texts of strings and integers delimit themselves;
* `same_of_canonicalJson`, `canonicalJson_of_same` : the canonical text determines a value up to the order of its keys,
  and only depends on it so;
* `canonicalRequestPayload_iff` : two requests have one payload exactly when they ask for the same thing.
-/

namespace Keychute
open Keychute.Lib

/-! ## JSON values -/

theorem Json.induction {P : Json → Prop} (null : P .null) (bool : ∀ b, P (.bool b)) (int : ∀ n, P (.int n))
    (float : ∀ bits, P (.float bits)) (str : ∀ s, P (.str s)) (arr : ∀ xs, (∀ x ∈ xs, P x) → P (.arr xs))
    (obj : ∀ fs, (∀ f ∈ fs, P f.2) → P (.obj fs)) (v : Json) : P v :=
  @Json.rec P (fun xs => ∀ x ∈ xs, P x) (fun fs => ∀ f ∈ fs, P f.2) (fun f => P f.2) null bool int float str arr obj
    (fun _ h => absurd h List.not_mem_nil) (fun _ _ hx hxs => List.forall_mem_cons.2 ⟨hx, hxs⟩)
    (fun _ h => absurd h List.not_mem_nil) (fun _ _ hf hfs => List.forall_mem_cons.2 ⟨hf, hfs⟩) (fun _ _ h => h) v

mutual

/-- The value and everything in it passes. -/
def Json.all (p : Json → Bool) : Json → Bool
  | .arr xs => p (.arr xs) && Json.allItems p xs
  | .obj fs => p (.obj fs) && Json.allFields p fs
  | v => p v

def Json.allItems (p : Json → Bool) : List Json → Bool
  | [] => true
  | x :: xs => Json.all p x && Json.allItems p xs

def Json.allFields (p : Json → Bool) : List (String × Json) → Bool
  | [] => true
  | (_, x) :: fs => Json.all p x && Json.allFields p fs

end

/-- The keys of every object are distinct, as those of a map are. -/
def Json.distinctKeys : Json → Bool :=
  Json.all fun
    | .obj fs => decide (fs.map Prod.fst).Nodup
    | _ => true

/-- No number is a float. -/
def Json.floatFree : Json → Bool :=
  Json.all fun
    | .float _ => false
    | _ => true

mutual

/-- `PartialEq for serde_json::Value`: an object equals another with as many keys that has each of its keys with an equal
value. -/
def Json.same : Json → Json → Bool
  | .null, .null => true
  | .bool a, .bool b => a == b
  | .int a, .int b => a == b
  | .float a, .float b => a == b
  | .str a, .str b => a == b
  | .arr xs, .arr ys => Json.sameItems xs ys
  | .obj fs, .obj gs => fs.length == gs.length && Json.sameFields fs gs
  | _, _ => false

def Json.sameItems : List Json → List Json → Bool
  | [], [] => true
  | x :: xs, y :: ys => Json.same x y && Json.sameItems xs ys
  | _, _ => false

def Json.sameFields : List (String × Json) → List (String × Json) → Bool
  | [], _ => true
  | (k, x) :: fs, gs => (gs.lookup k).any (Json.same x) && Json.sameFields fs gs

end

@[simp] theorem Json.same_bool (a b : Bool) : (Json.bool a).same (.bool b) = (a == b) := rfl
@[simp] theorem Json.same_int (a b : Int) : (Json.int a).same (.int b) = (a == b) := rfl
@[simp] theorem Json.same_str (a b : String) : (Json.str a).same (.str b) = (a == b) := rfl
@[simp] theorem Json.same_arr (xs ys : List Json) : (Json.arr xs).same (.arr ys) = Json.sameItems xs ys := rfl
@[simp] theorem Json.same_obj (fs gs : List (String × Json)) :
    (Json.obj fs).same (.obj gs) = (fs.length == gs.length && Json.sameFields fs gs) := rfl
@[simp] theorem Json.sameFields_nil (gs : List (String × Json)) : Json.sameFields [] gs = true := rfl
@[simp] theorem Json.sameFields_cons (k : String) (x : Json) (fs gs : List (String × Json)) :
    Json.sameFields ((k, x) :: fs) gs = ((gs.lookup k).any (Json.same x) && Json.sameFields fs gs) := rfl

theorem Json.allItems_iff {p : Json → Bool} {xs : List Json} :
    Json.allItems p xs = true ↔ ∀ x ∈ xs, Json.all p x = true := by
  induction xs with
  | nil => simp [Json.allItems]
  | cons x xs ih => rw [Json.allItems, Bool.and_eq_true, ih, List.forall_mem_cons]

theorem Json.allFields_iff {p : Json → Bool} {fs : List (String × Json)} :
    Json.allFields p fs = true ↔ ∀ f ∈ fs, Json.all p f.2 = true := by
  induction fs with
  | nil => simp [Json.allFields]
  | cons f fs ih => rw [Json.allFields, Bool.and_eq_true, ih, List.forall_mem_cons]

theorem Json.sameItems_iff {xs ys : List Json} :
    Json.sameItems xs ys = true ↔ List.Forall₂ (fun x y => Json.same x y = true) xs ys := by
  induction xs generalizing ys with
  | nil => cases ys <;> simp [Json.sameItems]
  | cons x xs ih => cases ys <;> simp [Json.sameItems, ih]

theorem Json.sameFields_iff {fs gs : List (String × Json)} :
    Json.sameFields fs gs = true ↔ ∀ f ∈ fs, ∃ y, gs.lookup f.1 = some y ∧ Json.same f.2 y = true := by
  induction fs with
  | nil => simp
  | cons f fs ih => rw [Json.sameFields_cons, Bool.and_eq_true, ih, List.forall_mem_cons, Option.any_eq_true]

/-- A value that is made of whole values, for the serializer: distinct keys, and no float. -/
structure Json.Plain (v : Json) : Prop where
  distinct : v.distinctKeys = true
  floatFree : v.floatFree = true

theorem Json.Plain.items {xs : List Json} (h : (Json.arr xs).Plain) : ∀ x ∈ xs, x.Plain := by
  intro x hx
  have hd := h.distinct
  have hf := h.floatFree
  rw [Json.distinctKeys, Json.all, Bool.and_eq_true, Json.allItems_iff] at hd
  rw [Json.floatFree, Json.all, Bool.and_eq_true, Json.allItems_iff] at hf
  exact ⟨hd.2 x hx, hf.2 x hx⟩

theorem Json.Plain.fields {fs : List (String × Json)} (h : (Json.obj fs).Plain) :
    (fs.map Prod.fst).Nodup ∧ ∀ f ∈ fs, f.2.Plain := by
  have hd := h.distinct
  have hf := h.floatFree
  rw [Json.distinctKeys, Json.all, Bool.and_eq_true, Json.allFields_iff, decide_eq_true_eq] at hd
  rw [Json.floatFree, Json.all, Bool.and_eq_true, Json.allFields_iff] at hf
  exact ⟨hd.1, fun f hmem => ⟨hd.2 f hmem, hf.2 f hmem⟩⟩

theorem Json.plain_arr {xs : List Json} (h : ∀ x ∈ xs, x.Plain) : (Json.arr xs).Plain := by
  constructor
  · rw [Json.distinctKeys, Json.all, Bool.true_and, Json.allItems_iff]
    exact fun x hx => (h x hx).distinct
  · rw [Json.floatFree, Json.all, Bool.true_and, Json.allItems_iff]
    exact fun x hx => (h x hx).floatFree

theorem Json.plain_obj {fs : List (String × Json)} (hnd : (fs.map Prod.fst).Nodup) (h : ∀ f ∈ fs, f.2.Plain) :
    (Json.obj fs).Plain := by
  constructor
  · rw [Json.distinctKeys, Json.all, Bool.and_eq_true, decide_eq_true_eq, Json.allFields_iff]
    exact ⟨hnd, fun f hf => (h f hf).distinct⟩
  · rw [Json.floatFree, Json.all, Bool.true_and, Json.allFields_iff]
    exact fun f hf => (h f hf).floatFree

theorem Json.plain_str (s : String) : (Json.str s).Plain := by
  constructor
  · simp [Json.distinctKeys, Json.all]
  · simp [Json.floatFree, Json.all]

theorem Json.plain_int (n : Int) : (Json.int n).Plain := by
  constructor
  · simp [Json.distinctKeys, Json.all]
  · simp [Json.floatFree, Json.all]

theorem Json.not_plain_float {bits : UInt64} : ¬ (Json.float bits).Plain := fun h => Bool.noConfusion h.floatFree

/-- In a map, a field is found under its key. -/
theorem lookup_of_mem {β : Type} {fs : List (String × β)} (hnd : (fs.map Prod.fst).Nodup) {k : String} {v : β}
    (hmem : (k, v) ∈ fs) : fs.lookup k = some v := by
  induction fs with
  | nil => cases hmem
  | cons f fs ih =>
      rw [List.map_cons, List.nodup_cons] at hnd
      rw [List.lookup_cons]
      rcases List.mem_cons.1 hmem with rfl | hmem
      · rw [beq_self_eq_true]
      · have hne : k ≠ f.1 := by
          rintro rfl
          exact hnd.1 (List.mem_map.2 ⟨_, hmem, rfl⟩)
        rw [beq_false_of_ne hne]
        exact ih hnd.2 hmem

theorem mem_of_lookup {β : Type} {fs : List (String × β)} {k : String} {v : β} (h : fs.lookup k = some v) :
    (k, v) ∈ fs := by
  induction fs with
  | nil => cases h
  | cons f fs ih =>
      rw [List.lookup_cons] at h
      split at h
      · rename_i hk
        cases h
        rw [beq_iff_eq.1 hk]
        exact List.mem_cons_self
      · exact List.mem_cons_of_mem _ (ih h)

/-! ## Texts of strings and integers -/

namespace Api

/-- The character at the head of an escaped text, and what follows it. -/
def unescape : List Char → Option (Char × List Char)
  | '\\' :: 'u' :: '0' :: '0' :: h :: l :: t =>
    match hexDigit? (UInt8.ofNat h.toNat), hexDigit? (UInt8.ofNat l.toNat) with
    | some hv, some lv => some (Char.ofNat (16 * hv + lv), t)
    | _, _ => none
  | '\\' :: 'b' :: t => some (Char.ofNat 8, t)
  | '\\' :: 't' :: t => some (Char.ofNat 9, t)
  | '\\' :: 'n' :: t => some (Char.ofNat 10, t)
  | '\\' :: 'f' :: t => some (Char.ofNat 12, t)
  | '\\' :: 'r' :: t => some (Char.ofNat 13, t)
  | '\\' :: c :: t => some (c, t)
  | c :: t => some (c, t)
  | [] => none

theorem unescape_jsonEscape (c : Char) (t : List Char) : unescape (jsonEscape c ++ t) = some (c, t) := by
  by_cases hsmall : c.toNat < 32
  · -- the control characters, one by one
    have key : ∀ (n : Fin 32) (t : List Char),
        unescape (jsonEscape (Char.ofNat n) ++ t) = some (Char.ofNat n, t) := by
      intro n t
      fin_cases n <;> rfl
    have := key ⟨c.toNat, hsmall⟩ t
    rwa [Char.ofNat_toNat] at this
  · by_cases hquote : c = '"'
    · subst hquote
      rfl
    by_cases hback : c = '\\'
    · subst hback
      rfl
    have hescape : jsonEscape c = [c] := by
      unfold jsonEscape
      rw [if_neg hquote, if_neg hback, if_neg (by omega), if_neg (by omega), if_neg (by omega), if_neg (by omega),
        if_neg (by omega), if_neg hsmall]
    rw [hescape, List.singleton_append]
    unfold unescape
    split <;> simp_all

/-- An escaped character does not begin with the quote that ends a string. -/
theorem jsonEscape_start (c : Char) : ∃ b t, jsonEscape c = b :: t ∧ b ≠ '"' := by
  have hback : ∀ l, ∃ b t, '\\' :: l = b :: t ∧ b ≠ '"' := fun l => ⟨'\\', l, rfl, by decide⟩
  have hstep : ∀ {p : Prop} [Decidable p] {l l' : List Char}, (∃ b t, l' = b :: t ∧ b ≠ '"') →
      ∃ b t, (if p then '\\' :: l else l') = b :: t ∧ b ≠ '"' := by
    intro p _ l l' hl'
    by_cases hp : p
    · rw [if_pos hp]
      exact hback l
    · rwa [if_neg hp]
  by_cases hquote : c = '"'
  · rw [jsonEscape, if_pos hquote]
    exact hback _
  · rw [jsonEscape, if_neg hquote]
    exact hstep (hstep (hstep (hstep (hstep (hstep (hstep ⟨c, [], rfl, hquote⟩))))))

theorem escaped_delimited {cs ds : List Char} {r r' : List Char}
    (h : cs.flatMap jsonEscape ++ '"' :: r = ds.flatMap jsonEscape ++ '"' :: r') : cs = ds ∧ r = r' := by
  induction cs generalizing ds with
  | nil =>
      cases ds with
      | nil => exact ⟨rfl, List.tail_eq_of_cons_eq h⟩
      | cons d ds =>
          obtain ⟨b, t, hd, hne⟩ := jsonEscape_start d
          rw [List.flatMap_cons, hd] at h
          exact absurd (List.head_eq_of_cons_eq h).symm hne
  | cons c cs ih =>
      cases ds with
      | nil =>
          obtain ⟨b, t, hc, hne⟩ := jsonEscape_start c
          rw [List.flatMap_cons, hc] at h
          exact absurd (List.head_eq_of_cons_eq h) hne
      | cons d ds =>
          rw [List.flatMap_cons, List.flatMap_cons, List.append_assoc, List.append_assoc] at h
          have hread := congrArg unescape h
          rw [unescape_jsonEscape, unescape_jsonEscape, Option.some.injEq, Prod.mk.injEq] at hread
          obtain ⟨rfl, hrest⟩ := hread
          obtain ⟨rfl, hr⟩ := ih hrest
          exact ⟨rfl, hr⟩

theorem toList_jsonString (s : String) : (jsonString s).toList = '"' :: (s.toList.flatMap jsonEscape ++ ['"']) := by
  have hescaped : (String.ofList (s.toList.flatMap jsonEscape)).toList = s.toList.flatMap jsonEscape :=
    String.toList_ofList
  rw [jsonString, String.toList_append, String.toList_append, hescaped, List.append_assoc]
  rfl

theorem jsonString_delimited : Delimited (fun _ : String => True) anyRest Eq fun s => (jsonString s).toList := by
  intro s t _ _ r r' _ _ h
  change (jsonString s).toList ++ r = (jsonString t).toList ++ r' at h
  rw [toList_jsonString, toList_jsonString, List.cons_append, List.cons_append, List.append_assoc,
    List.append_assoc] at h
  obtain ⟨hst, hr⟩ := escaped_delimited (List.tail_eq_of_cons_eq h)
  exact ⟨String.toList_injective hst, hr⟩

/-- What may follow a value inside a document. -/
def jsonStop (r : List Char) : Prop := ∀ c t, r = c :: t → c = ',' ∨ c = ']' ∨ c = '}'

theorem jsonStop_nil : jsonStop [] := fun _ _ h => by cases h

theorem jsonStop_of_sepStop {close : Char} (hclose : close = ']' ∨ close = '}') {r : List Char}
    (h : sepStop ',' close r) : jsonStop r := by
  intro c t hr
  obtain ⟨t', rfl | rfl⟩ := h
  · cases hr
    exact Or.inl rfl
  · cases hr
    exact Or.inr hclose

theorem takeWhile_digits {n : Nat} {r : List Char} (hr : jsonStop r) :
    (Nat.toDigits 10 n ++ r).takeWhile Char.isDigit = Nat.toDigits 10 n := by
  rw [List.takeWhile_append_of_pos fun c hc => isDigit_toDigits hc]
  cases r with
  | nil => simp
  | cons c t =>
      have hc : c.isDigit = false := by
        obtain rfl | rfl | rfl := hr c t rfl <;> rfl
      rw [List.takeWhile_cons_of_neg (by simp [hc]), List.append_nil]

theorem digits_delimited {m n : Nat} {r r' : List Char} (hr : jsonStop r) (hr' : jsonStop r')
    (h : Nat.toDigits 10 m ++ r = Nat.toDigits 10 n ++ r') : m = n ∧ r = r' := by
  have hdigits : Nat.toDigits 10 m = Nat.toDigits 10 n := by
    rw [← takeWhile_digits hr, h, takeWhile_digits hr']
  exact ⟨toDigits_inj hdigits, (List.append_inj h (by rw [hdigits])).2⟩

/-- A sign is no digit. -/
theorem digits_ne_minus {n : Nat} {r t : List Char} : Nat.toDigits 10 n ++ r ≠ '-' :: t := by
  intro h
  cases hd : Nat.toDigits 10 n with
  | nil => exact Nat.toDigits_ne_nil hd
  | cons c cs =>
      have hc : c.isDigit = true := isDigit_toDigits (by rw [hd]; exact List.mem_cons_self)
      rw [hd] at h
      rw [List.head_eq_of_cons_eq h] at hc
      cases hc

theorem toString_delimited : Delimited (fun _ : Int => True) jsonStop Eq fun n => (toString n).toList := by
  intro m n _ _ r r' hr hr' h
  change (toString m).toList ++ r = (toString n).toList ++ r' at h
  rw [toList_toString, toList_toString] at h
  split at h
  · split at h
    · obtain ⟨hmn, hrest⟩ := digits_delimited hr hr' h
      exact ⟨by omega, hrest⟩
    · exact absurd h digits_ne_minus
  · split at h
    · exact absurd h.symm digits_ne_minus
    · obtain ⟨hmn, hrest⟩ := digits_delimited hr hr' (List.tail_eq_of_cons_eq h)
      exact ⟨by omega, hrest⟩

/-! ## Texts of values -/

section
variable {floatText : UInt64 → String}

theorem canonicalItems_eq (xs : List Json) : canonicalItems floatText xs = xs.map (canonicalJson floatText) := by
  induction xs with
  | nil => rfl
  | cons x xs ih => rw [canonicalItems, ih, List.map_cons]

theorem canonicalFields_eq (fs : List (String × Json)) :
    canonicalFields floatText fs = fs.map fun f => (f.1, canonicalJson floatText f.2) := by
  induction fs with
  | nil => rfl
  | cons f fs ih => rw [canonicalFields, ih, List.map_cons]

/-- The text of a value, as characters. -/
def jsonText (floatText : UInt64 → String) (v : Json) : List Char := (canonicalJson floatText v).toList

/-- The text of a field of an object. -/
def fieldText (floatText : UInt64 → String) (f : String × Json) : List Char :=
  (jsonString f.1).toList ++ ':' :: jsonText floatText f.2

/-- The fields in the order in which they are written. -/
def sortedFields (fs : List (String × Json)) : List (String × Json) := fs.insertionSort fun f g => f.1 ≤ g.1

theorem sortFields_canonicalFields (fs : List (String × Json)) :
    sortFields (canonicalFields floatText fs) = canonicalFields floatText (sortedFields fs) := by
  rw [canonicalFields_eq, canonicalFields_eq]
  exact (List.map_insertionSort (fun f g : String × Json => f.1 ≤ g.1) (fun f g : String × String => f.1 ≤ g.1)
    (fun f => (f.1, canonicalJson floatText f.2)) fs fun f _ g _ => Iff.rfl).symm

theorem jsonText_null : jsonText floatText .null = ['n', 'u', 'l', 'l'] := by
  rw [jsonText, canonicalJson]
  rfl

theorem jsonText_bool (b : Bool) :
    jsonText floatText (.bool b) = if b then ['t', 'r', 'u', 'e'] else ['f', 'a', 'l', 's', 'e'] := by
  rw [jsonText, canonicalJson]
  cases b <;> rfl

theorem jsonText_int (n : Int) : jsonText floatText (.int n) = (toString n).toList := by
  rw [jsonText, canonicalJson]

theorem jsonText_str (s : String) : jsonText floatText (.str s) = (jsonString s).toList := by
  rw [jsonText, canonicalJson]

theorem jsonText_arr (xs : List Json) :
    jsonText floatText (.arr xs) = '[' :: ([','].intercalate (xs.map (jsonText floatText)) ++ [']']) := by
  rw [jsonText, canonicalJson, canonicalItems_eq, String.toList_append, String.toList_append, String.toList_intercalate,
    List.map_map, List.append_assoc]
  rfl

theorem jsonText_obj (fs : List (String × Json)) : jsonText floatText (.obj fs) =
    '\x7b' :: ([','].intercalate ((sortedFields fs).map (fieldText floatText)) ++ ['\x7d']) := by
  have hfield : ∀ f : String × Json,
      (jsonString f.1 ++ ":" ++ canonicalJson floatText f.2).toList = fieldText floatText f := by
    intro f
    rw [String.toList_append, String.toList_append, List.append_assoc]
    rfl
  rw [jsonText, canonicalJson, sortFields_canonicalFields, canonicalFields_eq, String.toList_append,
    String.toList_append, String.toList_intercalate, List.map_map, List.map_map, List.append_assoc]
  simp only [Function.comp_def, hfield]
  rfl

/-! ### The first character -/

/-- The kinds of values that the first character tells apart. -/
inductive JsonKind where
  | null | bool | number | str | arr | obj | none
  deriving DecidableEq

def kindOf : Json → JsonKind
  | .null => .null
  | .bool _ => .bool
  | .int _ => .number
  | .float _ => .none
  | .str _ => .str
  | .arr _ => .arr
  | .obj _ => .obj

def kindOfChar (c : Char) : JsonKind :=
  if c = 'n' then .null
  else if c = 't' ∨ c = 'f' then .bool
  else if c = '-' ∨ c.isDigit = true then .number
  else if c = '"' then .str
  else if c = '[' then .arr
  else if c = '\x7b' then .obj
  else .none

theorem kindOf_of_same {v w : Json} (h : v.same w = true) : kindOf v = kindOf w := by
  cases v <;> cases w <;> first | rfl | exact absurd h Bool.false_ne_true

theorem kindOfChar_digit {c : Char} (h : c.isDigit = true) : kindOfChar c = .number := by
  have hne : ∀ d : Char, d.isDigit = false → c ≠ d := by
    rintro d hd rfl
    rw [h] at hd
    cases hd
  unfold kindOfChar
  rw [if_neg (hne 'n' rfl), if_neg (not_or.2 ⟨hne 't' rfl, hne 'f' rfl⟩), if_pos (Or.inr h)]

theorem toString_start (n : Int) : ∃ c t, (toString n).toList = c :: t ∧ kindOfChar c = .number := by
  rw [toList_toString]
  split
  · cases hd : Nat.toDigits 10 n.toNat with
    | nil => exact absurd hd Nat.toDigits_ne_nil
    | cons c cs => exact ⟨c, cs, rfl, kindOfChar_digit (isDigit_toDigits (by rw [hd]; exact List.mem_cons_self))⟩
  · exact ⟨'-', _, rfl, rfl⟩

theorem jsonText_start {v : Json} (hv : v.Plain) : ∃ c t, jsonText floatText v = c :: t ∧ kindOfChar c = kindOf v := by
  cases v with
  | null => exact ⟨'n', _, jsonText_null, rfl⟩
  | bool b =>
      rw [jsonText_bool]
      cases b with
      | true => exact ⟨'t', _, rfl, rfl⟩
      | false => exact ⟨'f', _, rfl, rfl⟩
  | int n =>
      rw [jsonText_int]
      exact toString_start n
  | float bits => exact absurd hv Json.not_plain_float
  | str s =>
      rw [jsonText_str]
      exact ⟨'"', _, toList_jsonString s, rfl⟩
  | arr xs => exact ⟨'[', _, jsonText_arr xs, rfl⟩
  | obj fs => exact ⟨'\x7b', _, jsonText_obj fs, rfl⟩

theorem kindOf_eq {v w : Json} (hv : v.Plain) (hw : w.Plain) {r r' : List Char}
    (h : jsonText floatText v ++ r = jsonText floatText w ++ r') : kindOf v = kindOf w := by
  obtain ⟨c, t, hc, hkind⟩ := @jsonText_start floatText v hv
  obtain ⟨d, u, hd, hkind'⟩ := @jsonText_start floatText w hw
  rw [hc, hd] at h
  rw [← hkind, ← hkind', List.head_eq_of_cons_eq h]

/-! ### Unique reading -/

/-- The value can be read off any text that begins with it. -/
def Readable (floatText : UInt64 → String) (v : Json) : Prop :=
  v.Plain → ∀ w : Json, w.Plain → ∀ r r', jsonStop r → jsonStop r' →
    jsonText floatText v ++ r = jsonText floatText w ++ r' → v.same w = true ∧ r = r'

theorem readable_arr {xs : List Json} (ih : ∀ x ∈ xs, Readable floatText x) : Readable floatText (.arr xs) := by
  intro hv w hw r r' _ _ heq
  cases w with
  | arr ys =>
      rw [jsonText_arr, jsonText_arr, List.cons_append, List.cons_append, List.append_assoc, List.append_assoc] at heq
      have hstart : ∀ x ∈ xs ++ ys, ∃ b t, jsonText floatText x = b :: t ∧ b ≠ ']' := by
        intro x hx
        have hplain : x.Plain := (List.mem_append.1 hx).elim (hv.items x) (hw.items x)
        obtain ⟨c, t, hc, hkind⟩ := @jsonText_start floatText x hplain
        refine ⟨c, t, hc, ?_⟩
        rintro rfl
        cases x with
        | float bits => exact Json.not_plain_float hplain
        | _ => cases hkind
      obtain ⟨hall, hr⟩ := forall₂_of_sepBy (by decide) hstart (fun x hx y hy t t' ht ht' h => ih x hx (hv.items x hx)
        y (hw.items y hy) t t' (jsonStop_of_sepStop (.inl rfl) ht) (jsonStop_of_sepStop (.inl rfl) ht') h)
        (List.tail_eq_of_cons_eq heq)
      exact ⟨by rw [Json.same_arr, Json.sameItems_iff]; exact hall, hr⟩
  | _ => exact absurd (kindOf_eq hv hw heq) JsonKind.noConfusion

theorem mem_sortedFields {fs : List (String × Json)} {f : String × Json} : f ∈ sortedFields fs ↔ f ∈ fs :=
  List.mem_insertionSort _

/-- A field is read off as its key, the colon, and its value. -/
theorem readable_field {f g : String × Json} (hread : Readable floatText f.2) (hf : f.2.Plain) (hg : g.2.Plain)
    {r r' : List Char} (hr : jsonStop r) (hr' : jsonStop r')
    (h : fieldText floatText f ++ r = fieldText floatText g ++ r') : (f.1 = g.1 ∧ f.2.same g.2 = true) ∧ r = r' := by
  rw [fieldText, fieldText, List.append_assoc, List.append_assoc] at h
  obtain ⟨hkey, hrest⟩ := jsonString_delimited f.1 g.1 trivial trivial _ _ trivial trivial h
  obtain ⟨hsame, hrest⟩ := hread hf g.2 hg r r' hr hr' (List.tail_eq_of_cons_eq hrest)
  exact ⟨⟨hkey, hsame⟩, hrest⟩

theorem readable_obj {fs : List (String × Json)} (ih : ∀ f ∈ fs, Readable floatText f.2) :
    Readable floatText (.obj fs) := by
  intro hv w hw r r' _ _ heq
  cases w with
  | obj gs =>
      obtain ⟨-, hfs⟩ := hv.fields
      obtain ⟨hkeys, hgs⟩ := hw.fields
      rw [jsonText_obj, jsonText_obj, List.cons_append, List.cons_append, List.append_assoc, List.append_assoc] at heq
      have hstart : ∀ f ∈ sortedFields fs ++ sortedFields gs, ∃ b t, fieldText floatText f = b :: t ∧ b ≠ '\x7d' := by
        intro f _
        exact ⟨'"', _, by rw [fieldText, toList_jsonString]; rfl, by decide⟩
      obtain ⟨hall, hr⟩ := forall₂_of_sepBy (by decide) hstart (fun f hf g hg t t' ht ht' h =>
        readable_field (ih f (mem_sortedFields.1 hf)) (hfs f (mem_sortedFields.1 hf)) (hgs g (mem_sortedFields.1 hg))
          (jsonStop_of_sepStop (.inr rfl) ht) (jsonStop_of_sepStop (.inr rfl) ht') h) (List.tail_eq_of_cons_eq heq)
      refine ⟨?_, hr⟩
      have hlen : fs.length = gs.length := by
        have := hall.length_eq
        rwa [sortedFields, sortedFields, List.length_insertionSort, List.length_insertionSort] at this
      rw [Json.same_obj, Bool.and_eq_true, Json.sameFields_iff]
      refine ⟨by rw [hlen]; exact beq_self_eq_true _, ?_⟩
      intro f hf
      obtain ⟨g, hg, hfg⟩ := exists_of_forall₂ hall (mem_sortedFields.2 hf)
      refine ⟨g.2, ?_, hfg.2⟩
      rw [hfg.1]
      exact lookup_of_mem hkeys (mem_sortedFields.1 hg)
  | _ => exact absurd (kindOf_eq hv hw heq) JsonKind.noConfusion

/-- The canonical text of a value determines it up to the order of its keys. -/
theorem same_of_jsonText (v : Json) : Readable floatText v := by
  induction v using Json.induction with
  | null =>
      intro hv w hw r r' _ _ heq
      cases w with
      | null =>
          rw [jsonText_null] at heq
          exact ⟨rfl, List.append_cancel_left heq⟩
      | _ => exact absurd (kindOf_eq hv hw heq) JsonKind.noConfusion
  | bool b =>
      intro hv w hw r r' _ _ heq
      cases w with
      | bool c =>
          rw [jsonText_bool, jsonText_bool] at heq
          cases b <;> cases c
          · exact ⟨rfl, List.append_cancel_left heq⟩
          · exact absurd (List.head_eq_of_cons_eq heq) (by decide)
          · exact absurd (List.head_eq_of_cons_eq heq) (by decide)
          · exact ⟨rfl, List.append_cancel_left heq⟩
      | _ => exact absurd (kindOf_eq hv hw heq) JsonKind.noConfusion
  | int n =>
      intro hv w hw r r' hr hr' heq
      cases w with
      | int m =>
          rw [jsonText_int, jsonText_int] at heq
          obtain ⟨rfl, hrest⟩ := toString_delimited n m trivial trivial r r' hr hr' heq
          exact ⟨beq_self_eq_true n, hrest⟩
      | float bits => exact absurd hw Json.not_plain_float
      | _ => exact absurd (kindOf_eq hv hw heq) JsonKind.noConfusion
  | float bits => exact fun hv => absurd hv Json.not_plain_float
  | str s =>
      intro hv w hw r r' _ _ heq
      cases w with
      | str t =>
          rw [jsonText_str, jsonText_str] at heq
          obtain ⟨rfl, hrest⟩ := jsonString_delimited s t trivial trivial r r' trivial trivial heq
          exact ⟨beq_self_eq_true s, hrest⟩
      | _ => exact absurd (kindOf_eq hv hw heq) JsonKind.noConfusion
  | arr xs ih => exact readable_arr ih
  | obj fs ih => exact readable_obj ih

/-! ### Values that are the same -/

/-- Maps with the same fields are written in the same order. -/
theorem sortFields_of_perm {fs gs : List (String × String)} (hperm : fs.Perm gs) (hnd : (fs.map Prod.fst).Nodup) :
    sortFields fs = sortFields gs := by
  have hsorted := fun l : List (String × String) =>
    @List.pairwise_insertionSort _ (fun f g : String × String => f.1 ≤ g.1) _ ⟨fun f g => le_total f.1 g.1⟩
      ⟨fun _ _ _ h h' => le_trans h h'⟩ l
  have hperm' : (sortFields fs).Perm (sortFields gs) :=
    ((List.perm_insertionSort _ fs).trans hperm).trans (List.perm_insertionSort _ gs).symm
  refine hperm'.eq_of_pairwise ?_ (hsorted fs) (hsorted gs)
  intro f g hf hg hle hle'
  have hmem := fun {x : String × String} (hx : x ∈ sortFields fs) => (List.mem_insertionSort _).1 hx
  have hg' : g ∈ fs := hmem (hperm'.mem_iff.2 hg)
  have hkey : f.1 = g.1 := le_antisymm hle hle'
  have hval := lookup_of_mem hnd (hmem hf)
  rw [hkey, lookup_of_mem hnd hg', Option.some.injEq] at hval
  exact Prod.ext hkey hval.symm

theorem canonicalJson_of_same (v : Json) : v.Plain → ∀ w : Json, w.Plain → v.same w = true →
    canonicalJson floatText v = canonicalJson floatText w := by
  induction v using Json.induction with
  | null =>
      intro _ w _ h
      cases w with
      | null => rfl
      | _ => exact absurd (kindOf_of_same h) JsonKind.noConfusion
  | bool b =>
      intro _ w _ h
      cases w with
      | bool c =>
          rw [Json.same_bool, beq_iff_eq] at h
          rw [h]
      | _ => exact absurd (kindOf_of_same h) JsonKind.noConfusion
  | int n =>
      intro _ w _ h
      cases w with
      | int m =>
          rw [Json.same_int, beq_iff_eq] at h
          rw [h]
      | _ => exact absurd (kindOf_of_same h) JsonKind.noConfusion
  | float bits => exact fun hv => absurd hv Json.not_plain_float
  | str s =>
      intro _ w _ h
      cases w with
      | str t =>
          rw [Json.same_str, beq_iff_eq] at h
          rw [h]
      | _ => exact absurd (kindOf_of_same h) JsonKind.noConfusion
  | arr xs ih =>
      intro hv w hw h
      cases w with
      | arr ys =>
          rw [Json.same_arr, Json.sameItems_iff] at h
          have hitems : xs.map (canonicalJson floatText) = ys.map (canonicalJson floatText) := by
            have hxs := hv.items
            have hys := hw.items
            clear hv hw
            induction h with
            | nil => rfl
            | cons hxy _ hrest =>
                rw [List.forall_mem_cons] at hxs hys ih
                rw [List.map_cons, List.map_cons, ih.1 hxs.1 _ hys.1 hxy, hrest ih.2 hxs.2 hys.2]
          rw [canonicalJson, canonicalJson, canonicalItems_eq, canonicalItems_eq, hitems]
      | _ => exact absurd (kindOf_of_same h) JsonKind.noConfusion
  | obj fs ih =>
      intro hv w hw h
      cases w with
      | obj gs =>
          rw [Json.same_obj, Bool.and_eq_true, Json.sameFields_iff, beq_iff_eq] at h
          obtain ⟨hkeys, hfs⟩ := hv.fields
          obtain ⟨-, hgs⟩ := hw.fields
          have hkeys' : ((canonicalFields floatText fs).map Prod.fst).Nodup := by
            rwa [canonicalFields_eq, List.map_map]
          have hsub : canonicalFields floatText fs ⊆ canonicalFields floatText gs := by
            rw [canonicalFields_eq, canonicalFields_eq]
            intro _ hmem
            obtain ⟨f, hf, rfl⟩ := List.mem_map.1 hmem
            obtain ⟨y, hlook, hsame⟩ := h.2 f hf
            have hy := mem_of_lookup hlook
            exact List.mem_map.2 ⟨(f.1, y), hy, by rw [ih f hf (hfs f hf) y (hgs _ hy) hsame]⟩
          have hperm : (canonicalFields floatText fs).Perm (canonicalFields floatText gs) := by
            refine (hkeys'.of_map.subperm hsub).perm_of_length_le ?_
            rw [canonicalFields_eq, canonicalFields_eq, List.length_map, List.length_map, h.1]
          rw [canonicalJson, canonicalJson, sortFields_of_perm hperm hkeys']
      | _ => exact absurd (kindOf_of_same h) JsonKind.noConfusion

/-- The canonical text says exactly which value it is of, but for the order of keys. -/
theorem canonicalJson_eq_iff {v w : Json} (hv : v.Plain) (hw : w.Plain) :
    canonicalJson floatText v = canonicalJson floatText w ↔ v.same w = true := by
  constructor
  · intro h
    have htext : jsonText floatText v ++ [] = jsonText floatText w ++ [] := by rw [jsonText, jsonText, h]
    exact (same_of_jsonText v hv w hw [] [] jsonStop_nil jsonStop_nil htext).1
  · exact canonicalJson_of_same v hv w hw

/-! ## Requests -/

theorem sameItems_map {α : Type} {f : α → Json} (hinj : ∀ a b, (f a).same (f b) = true ↔ a = b) {xs ys : List α} :
    Json.sameItems (xs.map f) (ys.map f) = true ↔ xs = ys := by
  rw [Json.sameItems_iff, List.forall₂_map_left_iff, List.forall₂_map_right_iff]
  simp only [hinj, List.forall₂_eq_eq_eq]

theorem same_str {s t : String} : (Json.str s).same (.str t) = true ↔ s = t := by
  rw [Json.same_str, beq_iff_eq]

theorem same_int {m n : Int} : (Json.int m).same (.int n) = true ↔ m = n := by
  rw [Json.same_int, beq_iff_eq]

/-- An optional field is there or not, and has its value. -/
theorem same_origin (a b : Origin) : a.toJson.same b.toJson = true ↔ a = b := by
  obtain ⟨host, port⟩ := a
  obtain ⟨host', port'⟩ := b
  cases port with
  | none =>
      cases port' with
      | none => simp [Origin.toJson]
      | some p => simp [Origin.toJson]
  | some p =>
      cases port' with
      | none => simp [Origin.toJson, List.lookup_cons]
      | some q =>
          rw [Origin.mk.injEq, Option.some.injEq, ← UInt16.toNat_inj]
          simp [Origin.toJson, List.lookup_cons]

/-- The fields that constraints always have. -/
def requiredFields (c : Constraints) : List (String × Json) :=
  [("origins", Origin.listToJson c.origins), ("methods", .arr (c.methods.map .str)),
    ("path_prefixes", .arr (c.pathPrefixes.map .str)), ("ttl_seconds", .int c.ttlSeconds)]

/-- The field that is left out when it is absent. -/
def maxUsesField (uses : Option Nat) : List (String × Json) :=
  match uses with
  | some n => [("max_uses", .int n)]
  | none => []

theorem constraintsToJson_eq (c : Constraints) : constraintsToJson c = .obj (requiredFields c ++ maxUsesField c.maxUses) :=
  rfl

theorem sameFields_required (a b : Constraints) (gs : List (String × Json)) :
    Json.sameFields (requiredFields a) (requiredFields b ++ gs) = true ↔ a.origins = b.origins ∧ a.methods = b.methods ∧
      a.pathPrefixes = b.pathPrefixes ∧ a.ttlSeconds = b.ttlSeconds := by
  have hstr : ∀ s t : String, (Json.str s).same (.str t) = true ↔ s = t := fun _ _ => same_str
  simp [requiredFields, Origin.listToJson, List.lookup_cons, sameItems_map same_origin, sameItems_map hstr]

theorem sameFields_append (fs fs' gs : List (String × Json)) :
    Json.sameFields (fs ++ fs') gs = true ↔ Json.sameFields fs gs = true ∧ Json.sameFields fs' gs = true := by
  rw [Json.sameFields_iff, Json.sameFields_iff, Json.sameFields_iff, List.forall_mem_append]

theorem same_maxUses (b : Constraints) (m n : Nat) :
    Json.sameFields (maxUsesField (some m)) (requiredFields b ++ maxUsesField (some n)) = true ↔ m = n := by
  simp [maxUsesField, requiredFields, List.lookup_cons]

theorem same_constraints (a b : Constraints) : (constraintsToJson a).same (constraintsToJson b) = true ↔ a = b := by
  rw [constraintsToJson_eq, constraintsToJson_eq, Json.same_obj, Bool.and_eq_true, beq_iff_eq, sameFields_append,
    sameFields_required]
  obtain ⟨origins, methods, prefixes, ttl, uses⟩ := a
  obtain ⟨origins', methods', prefixes', ttl', uses'⟩ := b
  rw [Constraints.mk.injEq]
  cases uses with
  | none =>
      cases uses' with
      | none => simp [requiredFields, maxUsesField]
      | some n => simp [requiredFields, maxUsesField]
  | some m =>
      cases uses' with
      | none => simp [requiredFields, maxUsesField]
      | some n =>
          rw [same_maxUses]
          simp [requiredFields, maxUsesField, and_assoc]

theorem plain_constraints (c : Constraints) : (constraintsToJson c).Plain := by
  have hstrs : ∀ ss : List String, (Json.arr (ss.map .str)).Plain := by
    intro ss
    refine Json.plain_arr fun x hx => ?_
    obtain ⟨t, -, rfl⟩ := List.mem_map.1 hx
    exact Json.plain_str t
  have horigins : (Origin.listToJson c.origins).Plain := by
    refine Json.plain_arr fun x hx => ?_
    obtain ⟨o, -, rfl⟩ := List.mem_map.1 hx
    cases hport : o.port with
    | none =>
        rw [Origin.toJson, hport]
        exact Json.plain_obj (by simp) (by simp [Json.plain_str])
    | some p =>
        rw [Origin.toJson, hport]
        exact Json.plain_obj (by simp) (by simp [Json.plain_str, Json.plain_int])
  rw [constraintsToJson_eq]
  cases c.maxUses with
  | none =>
      refine Json.plain_obj (by simp [requiredFields, maxUsesField]) ?_
      simp [requiredFields, maxUsesField, horigins, hstrs, Json.plain_int]
  | some n =>
      refine Json.plain_obj (by simp [requiredFields, maxUsesField]) ?_
      simp [requiredFields, maxUsesField, horigins, hstrs, Json.plain_int]

/-- The body that the payload is the text of. -/
def payloadJson (req : CreateAccessRequest) : Json :=
  .obj [("secret_name", .str req.secretName), ("mechanism", .str req.mechanism.asStr),
    ("constraints", constraintsToJson req.constraints), ("context", .obj [("reason", .str req.context.reason)])]

theorem plain_payloadJson (req : CreateAccessRequest) : (payloadJson req).Plain := by
  have hcontext : (Json.obj [("reason", .str req.context.reason)]).Plain :=
    Json.plain_obj (by simp) (by simp [Json.plain_str])
  exact Json.plain_obj (by simp) (by simp [Json.plain_str, plain_constraints, hcontext])

/-- The two requests ask for the same thing; their keys and what the machine captured are left out. -/
structure AskSame (a b : CreateAccessRequest) : Prop where
  secretName : a.secretName = b.secretName
  mechanism : a.mechanism = b.mechanism
  constraints : a.constraints = b.constraints
  reason : a.context.reason = b.context.reason

theorem same_payloadJson (a b : CreateAccessRequest) : (payloadJson a).same (payloadJson b) = true ↔ AskSame a b := by
  have hfields : (payloadJson a).same (payloadJson b) = true ↔ a.secretName = b.secretName ∧
      a.mechanism.asStr = b.mechanism.asStr ∧ a.constraints = b.constraints ∧ a.context.reason = b.context.reason := by
    simp [payloadJson, List.lookup_cons, same_constraints]
  rw [hfields]
  constructor
  · rintro ⟨hname, hmech, hcons, hreason⟩
    exact ⟨hname, Mechanism.asStr_injective hmech, hcons, hreason⟩
  · rintro ⟨hname, hmech, hcons, hreason⟩
    exact ⟨hname, by rw [hmech], hcons, hreason⟩

/-- Two requests have one payload exactly when they ask for the same thing, and underneath, two float-free values have
one canonical text exactly when they are equal as maps of maps. -/
theorem canonicalRequestPayload_iff (floatText : UInt64 → String) :
    (∀ a b : CreateAccessRequest,
      canonicalRequestPayload floatText a = canonicalRequestPayload floatText b ↔ AskSame a b) ∧
    ∀ v w : Json, v.distinctKeys = true → w.distinctKeys = true → v.floatFree = true → w.floatFree = true →
      (canonicalJson floatText v = canonicalJson floatText w ↔ v.same w = true) := by
  refine ⟨fun a b => ?_, fun v w hv hw hfv hfw => canonicalJson_eq_iff ⟨hv, hfv⟩ ⟨hw, hfw⟩⟩
  change (canonicalJson floatText (payloadJson a)).toUTF8.toList =
    (canonicalJson floatText (payloadJson b)).toUTF8.toList ↔ _
  rw [toUTF8_toList, toUTF8_toList, bytes_inj, canonicalJson_eq_iff (plain_payloadJson a) (plain_payloadJson b),
    same_payloadJson]

end

/-- A request to read an issue tracker, under a key and with a reason. -/
def askedWith (key reason : String) : CreateAccessRequest :=
  ⟨key, "tracker", .brokered, ⟨[⟨"api.example.com", none⟩], ["GET"], ["/v1"], 60, none⟩, ⟨reason, none⟩⟩

/-- Another key is the same request, another reason is not, and keys may come in any order. -/
theorem canonicalRequestPayload_iff_reworded :
    canonicalRequestPayload (fun _ => "") (askedWith "k1" "deploy") =
        canonicalRequestPayload (fun _ => "") (askedWith "k2" "deploy") ∧
      canonicalRequestPayload (fun _ => "") (askedWith "k1" "deploy") ≠
        canonicalRequestPayload (fun _ => "") (askedWith "k1" "audit") ∧
      canonicalJson (fun _ => "") (.obj [("a", .int 1), ("b", .obj [("c", .int 2), ("d", .null)])]) =
        canonicalJson (fun _ => "") (.obj [("b", .obj [("d", .null), ("c", .int 2)]), ("a", .int 1)]) := by
  obtain ⟨hreq, hjson⟩ := canonicalRequestPayload_iff fun _ => ""
  refine ⟨(hreq _ _).2 ⟨rfl, rfl, rfl, rfl⟩, fun h => ?_, ?_⟩
  · exact absurd ((hreq _ _).1 h).reason (by decide)
  · refine (hjson _ _ ?_ ?_ ?_ ?_).2 ?_
    all_goals decide +kernel

end Api
end Keychute
