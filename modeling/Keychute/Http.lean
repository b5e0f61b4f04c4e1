import Keychute.Policy

/-!
# Header fields (the `http`, `hex` and `base64` crates)

* `HeaderName`, `HeaderValue`, `Method` : the checked texts of a request; none can be built from bytes the crate
  refuses;
* `HeaderMap` : fields in the order an iteration yields them;
* `hexEncode`, `base64Encode` : the two encodings that end up in a field value (`base64Decode_encode`: the second read
  back);
* `Visible` : a text that always makes a field value (`HeaderValue.fromStr_of_visible`), with what keeps it so.
-/

namespace Keychute.Http

/-! ## Bytes -/

/-- A byte of a field value: anything but a control character, and the tab. -/
def valueByte (b : UInt8) : Bool := (32 ≤ b && b != 127) || b == 9

/-- A byte that `HeaderValue::to_str` takes. -/
def visibleByte (b : UInt8) : Bool := (32 ≤ b && b < 127) || b == 9

theorem valueByte_of_visible {b : UInt8} (h : visibleByte b = true) : valueByte b = true := by
  have key : ∀ n : Fin 256, visibleByte ⟨⟨n⟩⟩ = true → valueByte ⟨⟨n⟩⟩ = true := by decide +kernel
  exact key b.toBitVec.toFin h

theorem visibleByte_of_tchar {b : UInt8} (h : isTchar b = true) : visibleByte b = true := by
  have key : ∀ n : Fin 256, isTchar ⟨⟨n⟩⟩ = true → visibleByte ⟨⟨n⟩⟩ = true := by decide +kernel
  exact key b.toBitVec.toFin h

/-! ## Visible texts -/

/-- Every byte of the text is visible ASCII, a space or a tab. -/
def Visible (s : String) : Prop := ∀ b ∈ bytes s, visibleByte b = true

instance (s : String) : Decidable (Visible s) := inferInstanceAs (Decidable (∀ b ∈ bytes s, visibleByte b = true))

theorem bytes_append (s t : String) : bytes (s ++ t) = bytes s ++ bytes t := by
  simp only [bytes_eq_flatMap, String.toList_append, List.flatMap_append]

theorem bytes_ofList (cs : List Char) : bytes (String.ofList cs) = cs.flatMap String.utf8EncodeChar := by
  rw [bytes_eq_flatMap, String.toList_ofList]

theorem Visible.append {s t : String} (hs : Visible s) (ht : Visible t) : Visible (s ++ t) := by
  intro b hb
  rw [bytes_append, List.mem_append] at hb
  exact hb.elim (hs b) (ht b)

theorem Visible.intercalate {sep : String} {parts : List String} (hsep : Visible sep) (hp : ∀ p ∈ parts, Visible p) :
    Visible (sep.intercalate parts) := by
  induction parts with
  | nil => simp [Visible, bytes_eq_flatMap]
  | cons p ps ih =>
      have hps : Visible (sep.intercalate ps) := ih fun q hq => hp q (List.mem_cons_of_mem _ hq)
      cases ps with
      | nil => simpa using hp p (List.mem_cons_self ..)
      | cons q qs =>
          rw [String.intercalate_cons_of_ne_nil (by simp)]
          exact ((hp p (List.mem_cons_self ..)).append hsep).append hps

theorem Visible.ofList {cs : List Char} (h : ∀ c ∈ cs, c.toNat ≤ 127 ∧ visibleByte (UInt8.ofNat c.toNat) = true) :
    Visible (String.ofList cs) := by
  intro b hb
  rw [bytes_ofList, List.mem_flatMap] at hb
  obtain ⟨c, hc, hbc⟩ := hb
  rw [utf8EncodeChar_ascii (h c hc).1, List.mem_singleton] at hbc
  rw [hbc]
  exact (h c hc).2

/-- A byte as the character that `to_str` reads it as. -/
def visibleChar (b : UInt8) : Char := Char.ofNat b.toNat

theorem utf8EncodeChar_visibleChar {b : UInt8} (h : visibleByte b = true) :
    String.utf8EncodeChar (visibleChar b) = [b] := by
  have key : ∀ n : Fin 256, visibleByte ⟨⟨n⟩⟩ = true → String.utf8EncodeChar (visibleChar ⟨⟨n⟩⟩) = [⟨⟨n⟩⟩] := by
    decide +kernel
  exact key b.toBitVec.toFin h

theorem bytes_visible {bs : List UInt8} (h : ∀ b ∈ bs, visibleByte b = true) :
    bytes (String.ofList (bs.map visibleChar)) = bs := by
  rw [bytes_ofList, List.flatMap_map]
  induction bs with
  | nil => rfl
  | cons b bs ih =>
      rw [List.forall_mem_cons] at h
      rw [List.flatMap_cons, utf8EncodeChar_visibleChar h.1, ih h.2, List.singleton_append]

theorem ofList_visible {s : String} (h : Visible s) : String.ofList ((bytes s).map visibleChar) = s := by
  rw [← bytes_inj, bytes_visible h]

/-! ## Values -/

structure HeaderValue where
  bytes : List UInt8
  valid : bytes.all valueByte = true
  deriving DecidableEq

namespace HeaderValue

def fromBytes (bs : List UInt8) : Option HeaderValue := if h : bs.all valueByte = true then some ⟨bs, h⟩ else none

def fromStr (s : String) : Option HeaderValue := fromBytes (Keychute.bytes s)

/-- `to_str`: the value as text, when all of it is visible ASCII. -/
def toStr (v : HeaderValue) : Option String :=
  if v.bytes.all visibleByte then some (String.ofList (v.bytes.map fun b => Char.ofNat b.toNat)) else none

theorem fromBytes_isSome {bs : List UInt8} (h : ∀ b ∈ bs, valueByte b = true) : (fromBytes bs).isSome = true := by
  rw [fromBytes, dif_pos (List.all_eq_true.2 h)]
  rfl

theorem fromStr_of_visible {s : String} (h : Visible s) : (fromStr s).isSome = true :=
  fromBytes_isSome fun b hb => valueByte_of_visible (h b hb)

theorem toStr_isSome (v : HeaderValue) : v.toStr.isSome = v.bytes.all visibleByte := by
  unfold toStr
  cases v.bytes.all visibleByte <;> rfl

/-- A text comes back as it was. -/
theorem toStr_fromStr {s : String} {v : HeaderValue} (h : fromStr s = some v) (hs : Visible s) : v.toStr = some s := by
  unfold fromStr fromBytes at h
  split at h
  · cases h
    unfold toStr
    rw [if_pos (List.all_eq_true.2 hs)]
    exact congrArg some (ofList_visible hs)
  · cases h

end HeaderValue

/-! ## Names and methods -/

/-- A field name as `HeaderName` holds it: a token in lower case. -/
def isHeaderName (s : String) : Bool :=
  !(bytes s).isEmpty && byteLen s ≤ 65535 && (bytes s).all fun b => isTchar b && lowerByte b == b

structure HeaderName where
  str : String
  valid : isHeaderName str = true
  deriving DecidableEq

namespace HeaderName

/-- `HeaderName::from_bytes`, of the bytes of a text. -/
def fromStr (s : String) : Option HeaderName :=
  if h : isHeaderName (toAsciiLowercase s) = true then some ⟨toAsciiLowercase s, h⟩ else none

theorem visible (n : HeaderName) : Visible n.str := by
  intro b hb
  have h := n.valid
  simp only [isHeaderName, Bool.and_eq_true, List.all_eq_true] at h
  exact visibleByte_of_tchar (h.2 b hb).1

theorem lower (n : HeaderName) : toAsciiLowercase n.str = n.str := by
  have h := n.valid
  simp only [isHeaderName, Bool.and_eq_true, List.all_eq_true, beq_iff_eq] at h
  rw [← bytes_inj, bytes_toAsciiLowercase]
  exact (List.map_congr_left fun b hb => (h.2 b hb).2).trans (List.map_id _)

end HeaderName

/-- `AUTHORIZATION`. -/
def authorization : HeaderName := ⟨"authorization", by decide +kernel⟩

/-- `CACHE_CONTROL`. -/
def cacheControl : HeaderName := ⟨"cache-control", by decide +kernel⟩

/-- A request method: any token. -/
structure Method where
  str : String
  valid : (!(bytes str).isEmpty && (bytes str).all isTchar) = true

/-- `Method::from_bytes`. -/
def Method.fromStr (s : String) : Option Method :=
  if h : (!(bytes s).isEmpty && (bytes s).all isTchar) = true then some ⟨s, h⟩ else none

theorem Method.fromStr_upper (m : Method) : (Method.fromStr (toAsciiUppercase m.str)).isSome = true := by
  have h := m.valid
  have hup : (!(bytes (toAsciiUppercase m.str)).isEmpty && (bytes (toAsciiUppercase m.str)).all isTchar) = true := by
    simp only [bytes_toAsciiUppercase, Bool.and_eq_true, List.isEmpty_map, List.all_eq_true, List.mem_map,
      forall_exists_index, and_imp, forall_apply_eq_imp_iff₂] at h ⊢
    exact ⟨h.1, fun b hb => isTchar_upperByte (h.2 b hb)⟩
  rw [Method.fromStr, dif_pos hup]
  rfl

/-! ## Maps -/

/-- The fields, as an iteration yields them: those of one name together, in the order they came. -/
abbrev HeaderMap : Type := List (HeaderName × HeaderValue)

namespace HeaderMap

def getAll (m : HeaderMap) (name : String) : List HeaderValue := (m.filter (·.1.str == name)).map (·.2)

/-- `insert`: what the name had before is gone. -/
def insert (m : HeaderMap) (name : HeaderName) (value : HeaderValue) : HeaderMap :=
  m.filter (·.1 != name) ++ [(name, value)]

/-- `append`: after the values that the name has. -/
def append : HeaderMap → HeaderName → HeaderValue → HeaderMap
  | [], name, value => [(name, value)]
  | h :: rest, name, value =>
    if h.1 == name && rest.all (·.1 != name) then h :: (name, value) :: rest else h :: append rest name value

/-- The map of the fields that arrive in an order. -/
def ofFields (fields : List (HeaderName × HeaderValue)) : HeaderMap :=
  fields.foldl (fun m h => append m h.1 h.2) []

theorem mem_append {m : HeaderMap} {name : HeaderName} {value : HeaderValue} {h : HeaderName × HeaderValue} :
    h ∈ append m name value ↔ h ∈ m ∨ h = (name, value) := by
  induction m with
  | nil => simp [append]
  | cons a rest ih =>
      unfold append
      split
      · simp only [List.mem_cons]
        tauto
      · rw [List.mem_cons, List.mem_cons, ih, or_assoc]

/-- A filter by name commutes with `append`. -/
theorem filter_append (p : HeaderName → Bool) (m : HeaderMap) (name : HeaderName) (value : HeaderValue) :
    (append m name value).filter (p ·.1) =
      if p name then append (m.filter (p ·.1)) name value else m.filter (p ·.1) := by
  induction m with
  | nil => cases hp : p name <;> simp [append, hp]
  | cons a rest ih =>
      obtain ⟨n, v⟩ := a
      by_cases hlast : (n == name && rest.all (·.1 != name)) = true
      · have hn : n = name := beq_iff_eq.1 (Bool.and_eq_true_iff.1 hlast).1
        have hrest : rest.all (·.1 != name) = true := (Bool.and_eq_true_iff.1 hlast).2
        subst hn
        rw [append, if_pos hlast]
        cases hp : p n with
        | false => simp [hp]
        | true =>
            have hfilter : (rest.filter (p ·.1)).all (·.1 != n) = true := by
              rw [List.all_filter]
              exact List.all_eq_true.2 fun h hh => by simp [List.all_eq_true.1 hrest h hh]
            simp only [List.filter_cons, hp, if_true]
            rw [append, if_pos (by rw [beq_self_eq_true, hfilter]; rfl)]
      · rw [append, if_neg hlast, List.filter_cons, List.filter_cons, ih]
        cases hn : p n with
        | false => simp
        | true =>
            cases hp : p name with
            | false => simp
            | true =>
                have hlater : ¬ ((n == name && (rest.filter (p ·.1)).all (·.1 != name)) = true) := by
                  intro hall
                  apply hlast
                  rw [Bool.and_eq_true, List.all_filter] at hall
                  rw [Bool.and_eq_true]
                  refine ⟨hall.1, List.all_eq_true.2 ?_⟩
                  intro h hh
                  have hh' := List.all_eq_true.1 hall.2 h hh
                  by_cases heq : h.1 = name
                  · simp [heq, hp] at hh'
                  · exact bne_iff_ne.2 heq
                simp only [if_true]
                rw [append, if_neg hlater]

theorem foldl_append_filter (p : HeaderName → Bool) (fields : List (HeaderName × HeaderValue)) (m : HeaderMap) :
    (fields.foldl (fun m h => append m h.1 h.2) m).filter (p ·.1) =
      (fields.filter (p ·.1)).foldl (fun m h => append m h.1 h.2) (m.filter (p ·.1)) := by
  induction fields generalizing m with
  | nil => rfl
  | cons h fields ih =>
      rw [List.foldl_cons, ih, filter_append, List.filter_cons]
      cases p h.1 <;> rfl

/-- The fields whose names pass, sorted out before they are sent or after they have arrived. -/
theorem filter_ofFields (p : HeaderName → Bool) (fields : List (HeaderName × HeaderValue)) :
    (ofFields fields).filter (p ·.1) = ofFields (fields.filter (p ·.1)) :=
  foldl_append_filter p fields []

theorem mem_foldl_append {fields : List (HeaderName × HeaderValue)} {m : HeaderMap} {h : HeaderName × HeaderValue} :
    h ∈ fields.foldl (fun m h => append m h.1 h.2) m ↔ h ∈ m ∨ h ∈ fields := by
  induction fields generalizing m with
  | nil => simp
  | cons a fields ih => rw [List.foldl_cons, ih, mem_append, List.mem_cons, or_assoc]

theorem mem_ofFields {fields : List (HeaderName × HeaderValue)} {h : HeaderName × HeaderValue} :
    h ∈ ofFields fields ↔ h ∈ fields := by
  rw [ofFields, mem_foldl_append]
  simp

theorem mem_getAll {m : HeaderMap} {name : String} {v : HeaderValue} :
    v ∈ getAll m name ↔ ∃ n : HeaderName, n.str = name ∧ (n, v) ∈ m := by
  unfold getAll
  rw [List.mem_map]
  constructor
  · rintro ⟨⟨n, w⟩, hmem, rfl⟩
    obtain ⟨hin, hn⟩ := List.mem_filter.1 hmem
    exact ⟨n, beq_iff_eq.1 hn, hin⟩
  · rintro ⟨n, rfl, hin⟩
    exact ⟨(n, v), List.mem_filter.2 ⟨hin, beq_self_eq_true n.str⟩, rfl⟩

theorem getAll_insert_self {m : HeaderMap} {name : HeaderName} {value : HeaderValue} {text : String}
    (h : name.str = text) : getAll (insert m name value) text = [value] := by
  subst h
  unfold getAll insert
  have hnone : (m.filter (·.1 != name)).filter (·.1.str == name.str) = [] := by
    rw [List.filter_filter, List.filter_eq_nil_iff]
    rintro ⟨n, v⟩ - hboth
    rw [Bool.and_eq_true, beq_iff_eq, bne_iff_ne] at hboth
    obtain ⟨str, valid⟩ := n
    obtain ⟨str', valid'⟩ := name
    simp only at hboth
    obtain ⟨rfl, hne⟩ := hboth
    exact hne rfl
  rw [List.filter_append, hnone, List.nil_append, List.filter_singleton, beq_self_eq_true]
  rfl

theorem getAll_insert_of_ne {m : HeaderMap} {name : HeaderName} {value : HeaderValue} {other : String}
    (h : name.str ≠ other) : getAll (insert m name value) other = getAll m other := by
  unfold getAll insert
  have hkeep : (m.filter (·.1 != name)).filter (·.1.str == other) = m.filter (·.1.str == other) := by
    rw [List.filter_filter]
    apply List.filter_congr
    rintro ⟨n, v⟩ -
    by_cases hn : n = name
    · subst hn
      simp [h]
    · simp [bne_iff_ne.2 hn]
  rw [List.filter_append, hkeep, List.filter_singleton, beq_eq_false_iff_ne.2 h]
  simp

end HeaderMap

/-! ## Encodings -/

def hexDigits : List Char := "0123456789abcdef".toList

/-- `hex::encode`. -/
def hexEncode (bs : List UInt8) : String :=
  String.ofList (bs.flatMap fun b => [hexDigits.getD (b.toNat / 16) '0', hexDigits.getD (b.toNat % 16) '0'])

def base64Alphabet : List Char := "ABCDEFGHIJKLMNOPQRSTUVWXYZabcdefghijklmnopqrstuvwxyz0123456789+/".toList

/-- The `i`-th six bits, from the left, of 24. -/
def base64Char (n i : Nat) : Char := base64Alphabet.getD (n / 64 ^ (3 - i) % 64) 'A'

/-- `base64::engine::general_purpose::STANDARD.encode`. -/
def base64Encode : List UInt8 → List Char
  | [] => []
  | [a] =>
    let n := a.toNat * 65536
    [base64Char n 0, base64Char n 1, '=', '=']
  | [a, b] =>
    let n := a.toNat * 65536 + b.toNat * 256
    [base64Char n 0, base64Char n 1, base64Char n 2, '=']
  | a :: b :: c :: rest =>
    let n := a.toNat * 65536 + b.toNat * 256 + c.toNat
    [base64Char n 0, base64Char n 1, base64Char n 2, base64Char n 3] ++ base64Encode rest

/-- What an ASCII character that a value may hold comes down to. -/
def plainChar (c : Char) : Prop := c.toNat ≤ 127 ∧ visibleByte (UInt8.ofNat c.toNat) = true

instance (c : Char) : Decidable (plainChar c) := inferInstanceAs (Decidable (_ ∧ _))

theorem plainChar_getD {cs : List Char} {d : Char} (h : cs.all plainChar = true) (hd : plainChar d) (i : Nat) :
    plainChar (cs.getD i d) := by
  rw [List.getD_eq_getElem?_getD]
  cases hi : cs[i]? with
  | none => exact hd
  | some c => exact of_decide_eq_true (List.all_eq_true.1 h c (List.mem_of_getElem? hi))

theorem hexEncode_plain (bs : List UInt8) : ∀ c ∈ (hexEncode bs).toList, plainChar c := by
  have hd : ∀ i, plainChar (hexDigits.getD i '0') := plainChar_getD (by decide +kernel) (by decide +kernel)
  intro c hc
  rw [hexEncode, String.toList_ofList] at hc
  obtain ⟨b, -, hc⟩ := List.mem_flatMap.1 hc
  rcases List.mem_pair.1 hc with rfl | rfl
  · exact hd _
  · exact hd _

theorem hexEncode_visible (bs : List UInt8) : Visible (hexEncode bs) := by
  rw [← @String.ofList_toList (hexEncode bs)]
  exact Visible.ofList (hexEncode_plain bs)

/-- ASCII text takes as many bytes as it has characters. -/
theorem byteLen_of_plain {cs : List Char} (h : ∀ c ∈ cs, plainChar c) : byteLen (String.ofList cs) = cs.length := by
  rw [byteLen, bytes_ofList]
  induction cs with
  | nil => rfl
  | cons c cs ih =>
      rw [List.forall_mem_cons] at h
      rw [List.flatMap_cons, List.length_append, utf8EncodeChar_ascii h.1.1, ih h.2, List.length_singleton,
        List.length_cons, Nat.add_comm]

theorem base64Char_plain (n i : Nat) : plainChar (base64Char n i) :=
  plainChar_getD (by decide +kernel) (by decide +kernel) _

theorem base64Encode_plain (bs : List UInt8) : ∀ c ∈ base64Encode bs, plainChar c := by
  have hpad : plainChar '=' := by decide +kernel
  fun_induction base64Encode bs with
  | case1 => simp
  | case2 a n => simp [base64Char_plain, hpad]
  | case3 a b n => simp [base64Char_plain, hpad]
  | case4 a b c rest n ih => simpa [base64Char_plain] using ih

theorem base64Encode_visible (bs : List UInt8) : Visible (String.ofList (base64Encode bs)) :=
  Visible.ofList (base64Encode_plain bs)

example : String.ofList (base64Encode [109, 101, 58, 112, 119]) = "bWU6cHc=" := by decide +kernel

/-! ## Base64, read back -/

def base64Value (c : Char) : Option Nat := base64Alphabet.idxOf? c

/-- `base64::engine::general_purpose::STANDARD.decode`: padding is required, and bits past the last byte are zero. -/
def base64Decode : List Char → Option (List UInt8)
  | [] => some []
  | a :: b :: c :: d :: rest =>
    if d = '=' ∧ rest.isEmpty then
      if c = '=' then do
        let n := (← base64Value a) * 64 + (← base64Value b)
        if n % 16 = 0 then some [UInt8.ofNat (n / 16)] else none
      else do
        let n := ((← base64Value a) * 64 + (← base64Value b)) * 64 + (← base64Value c)
        if n % 4 = 0 then some [UInt8.ofNat (n / 1024), UInt8.ofNat (n / 4 % 256)] else none
    else do
      let n := (((← base64Value a) * 64 + (← base64Value b)) * 64 + (← base64Value c)) * 64 + (← base64Value d)
      let bs ← base64Decode rest
      some (UInt8.ofNat (n / 65536) :: UInt8.ofNat (n / 256 % 256) :: UInt8.ofNat (n % 256) :: bs)
  | _ => none

theorem base64Value_char (n i : Nat) : base64Value (base64Char n i) = some (n / 64 ^ (3 - i) % 64) := by
  have key : ∀ i : Fin 64, base64Value (base64Alphabet.getD i 'A') = some i.val := by decide +kernel
  exact key ⟨n / 64 ^ (3 - i) % 64, Nat.mod_lt _ (by decide)⟩

theorem base64Char_ne_pad (n i : Nat) : base64Char n i ≠ '=' := by
  intro h
  have hv := base64Value_char n i
  rw [h] at hv
  have hpad : base64Value '=' = none := by decide +kernel
  rw [hpad] at hv
  cases hv

theorem ofNat_eq_of_toNat {n : Nat} {b : UInt8} (h : n = b.toNat) : UInt8.ofNat n = b := by
  rw [h, UInt8.ofNat_toNat]

/-- The first four base-64 digits of a number of at most 24 bits, put together again. -/
theorem sextets_eq {n : Nat} (h : n < 2 ^ 24) :
    ((n / 64 ^ 3 % 64 * 64 + n / 64 ^ 2 % 64) * 64 + n / 64 ^ 1 % 64) * 64 + n / 64 ^ 0 % 64 = n := by
  omega

/-- A number of whole bytes has zeros after its last digit. -/
theorem sextets_two {n k : Nat} (hk : k < 2 ^ 12) (h : n = k * 64 ^ 2) :
    n / 64 ^ 3 % 64 * 64 + n / 64 ^ 2 % 64 = k := by
  omega

theorem sextets_three {n k : Nat} (hk : k < 2 ^ 18) (h : n = k * 64 ^ 1) :
    (n / 64 ^ 3 % 64 * 64 + n / 64 ^ 2 % 64) * 64 + n / 64 ^ 1 % 64 = k := by
  omega

/-- A full group decodes to three bytes, whatever follows. -/
theorem base64Decode_group {n : Nat} (h : n < 2 ^ 24) (rest : List Char) :
    base64Decode (base64Char n 0 :: base64Char n 1 :: base64Char n 2 :: base64Char n 3 :: rest) =
      (base64Decode rest).map fun bs =>
        UInt8.ofNat (n / 65536) :: UInt8.ofNat (n / 256 % 256) :: UInt8.ofNat (n % 256) :: bs := by
  have hn := sextets_eq h
  rw [base64Decode, if_neg fun hd => base64Char_ne_pad n 3 hd.1]
  simp only [base64Value_char, Option.bind_eq_bind, Option.bind_some, Nat.sub_zero, show 3 - 1 = 2 from rfl,
    show 3 - 2 = 1 from rfl, show 3 - 3 = 0 from rfl, hn]
  cases base64Decode rest <;> rfl

theorem base64Decode_two {n k : Nat} (hk : k < 2 ^ 16) (hn : n = k * 4 * 64 ^ 1) :
    base64Decode [base64Char n 0, base64Char n 1, base64Char n 2, '='] =
      some [UInt8.ofNat (k / 256), UInt8.ofNat (k % 256)] := by
  have hsum := @sextets_three n (k * 4) (by omega) hn
  rw [base64Decode, if_pos ⟨rfl, rfl⟩, if_neg (base64Char_ne_pad n 2)]
  simp only [base64Value_char, Option.bind_eq_bind, Option.bind_some, Nat.sub_zero, show 3 - 1 = 2 from rfl,
    show 3 - 2 = 1 from rfl, hsum]
  rw [if_pos (by omega), show k * 4 / 1024 = k / 256 by omega, show k * 4 / 4 % 256 = k % 256 by omega]

theorem base64Decode_one {n k : Nat} (hk : k < 2 ^ 8) (hn : n = k * 16 * 64 ^ 2) :
    base64Decode [base64Char n 0, base64Char n 1, '=', '='] = some [UInt8.ofNat k] := by
  have hsum := @sextets_two n (k * 16) (by omega) hn
  rw [base64Decode, if_pos ⟨rfl, rfl⟩, if_pos rfl]
  simp only [base64Value_char, Option.bind_eq_bind, Option.bind_some, Nat.sub_zero, show 3 - 1 = 2 from rfl, hsum]
  rw [if_pos (by omega), show k * 16 / 16 = k by omega]

theorem base64Decode_encode : ∀ bs : List UInt8, base64Decode (base64Encode bs) = some bs
  | [] => rfl
  | [a] => by
      have ha := a.toNat_lt
      rw [base64Encode, base64Decode_one (k := a.toNat) ha (by omega), UInt8.ofNat_toNat]
  | [a, b] => by
      have ha := a.toNat_lt
      have hb := b.toNat_lt
      rw [base64Encode, base64Decode_two (k := a.toNat * 256 + b.toNat) (by omega) (by omega),
        ofNat_eq_of_toNat (b := a) (by omega), ofNat_eq_of_toNat (b := b) (by omega)]
  | a :: b :: c :: rest => by
      have ha := a.toNat_lt
      have hb := b.toNat_lt
      have hc := c.toNat_lt
      rw [base64Encode]
      simp only [List.cons_append, List.nil_append]
      rw [base64Decode_group (by omega), base64Decode_encode rest, Option.map_some,
        ofNat_eq_of_toNat (b := a) (by omega), ofNat_eq_of_toNat (b := b) (by omega),
        ofNat_eq_of_toNat (b := c) (by omega)]

theorem base64Encode_length (bs : List UInt8) : (base64Encode bs).length = 4 * ((bs.length + 2) / 3) := by
  fun_induction base64Encode bs with
  | case1 => rfl
  | case2 a n => simp
  | case3 a b n => simp
  | case4 a b c rest n ih =>
      simp only [List.cons_append, List.nil_append, List.length_cons, ih]
      omega

/-- The text of an encoding takes as many bytes as it has characters. -/
theorem byteLen_base64Encode (bs : List UInt8) :
    byteLen (String.ofList (base64Encode bs)) = 4 * ((bs.length + 2) / 3) := by
  rw [byteLen_of_plain (base64Encode_plain bs), base64Encode_length]

end Keychute.Http
