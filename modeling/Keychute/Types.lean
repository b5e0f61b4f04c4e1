import Keychute.Text
import Mathlib.Order.Basic
import Mathlib.Order.BoundedOrder.Basic
import Mathlib.Order.Lattice
import Mathlib.Algebra.Order.Ring.Int
import Mathlib.Data.Fin.Basic

/-!
# Shared types (`keychute-types`)

* `Uuid`, `DateTime` : 128-bit identifiers and their text (`uuidDisplay_append_inj`), and `chrono` instants with the
  bounds of the type (`DateTime` is a linear order with the latest instant `MAX_UTC` as its top);
* `Tier`, `Mechanism` : delivery tiers and the mechanisms that map onto them;
* `Json`, `Origin` : HTTPS origins, their parser and their JSON form (`Origin.fromJson_toJson`: an origin that
  `Origin.parse` accepted survives the round trip);
* `Constraints` : what a grant is limited to.
-/

namespace Keychute

/-- A run of fallible steps that succeeded, taken apart at `?`. -/
theorem bind_eq_ok {ε α β : Type} {x : Except ε α} {f : α → Except ε β} {b : β} :
    (x >>= f) = .ok b ↔ ∃ a, x = .ok a ∧ f a = .ok b := by
  cases x with
  | error e =>
      constructor
      · intro h; cases h
      · rintro ⟨a, h, -⟩; cases h
  | ok a =>
      constructor
      · intro h; exact ⟨a, rfl, h⟩
      · rintro ⟨a', h, hf⟩; cases h; exact hf

/-! ## Identifiers and instants -/

/-- A UUID; `Ord` compares the sixteen bytes from the first, that is the number they spell. -/
abbrev Uuid : Type := Fin (2 ^ 128)

instance Uuid.neZero : NeZero (2 ^ 128) := ⟨by decide⟩

def hexChar (n : Nat) : Char := "0123456789abcdef".toList.getD n '0'

/-- The 32 digits of a UUID. -/
def uuidDigits (u : Uuid) : List Char := (List.range 32).map fun i => hexChar (u.val / 16 ^ (31 - i) % 16)

/-- `Display for Uuid`: hyphenated, in lower case. -/
def uuidDisplay (u : Uuid) : String :=
  let d := uuidDigits u
  String.ofList (d.take 8 ++ '-' :: (d.drop 8).take 4 ++ '-' :: (d.drop 12).take 4 ++ '-' :: (d.drop 16).take 4 ++
    '-' :: d.drop 20)

theorem hexChar_inj {m n : Nat} (hm : m < 16) (hn : n < 16) (h : hexChar m = hexChar n) : m = n := by
  have key : ∀ i j : Fin 16, hexChar i = hexChar j → i = j := by decide +kernel
  exact congrArg Fin.val (key ⟨m, hm⟩ ⟨n, hn⟩ h)

/-- The low digits of a number determine it up to their number. -/
theorem mod_eq_of_digits {m n k : Nat} (h : ∀ i < k, m / 16 ^ i % 16 = n / 16 ^ i % 16) : m % 16 ^ k = n % 16 ^ k := by
  induction k with
  | zero => simp [Nat.mod_one]
  | succ k ih =>
      rw [Nat.mod_pow_succ, Nat.mod_pow_succ, ih fun i hi => h i (Nat.lt_succ_of_lt hi), h k (Nat.lt_succ_self k)]

theorem uuidDigits_injective : Function.Injective uuidDigits := by
  intro u v h
  have hdig : ∀ i < 32, u.val / 16 ^ i % 16 = v.val / 16 ^ i % 16 := by
    intro i hi
    have hget := congrArg (fun l : List Char => l[31 - i]?) h
    simp only [uuidDigits, List.getElem?_map, List.getElem?_range (show 31 - i < 32 by omega), Option.map_some,
      Option.some.injEq, show 31 - (31 - i) = i by omega] at hget
    exact hexChar_inj (Nat.mod_lt _ (by decide)) (Nat.mod_lt _ (by decide)) hget
  have hmod := mod_eq_of_digits hdig
  have hpow : (16 : Nat) ^ 32 = 2 ^ 128 := rfl
  rw [hpow, Nat.mod_eq_of_lt u.isLt, Nat.mod_eq_of_lt v.isLt] at hmod
  exact Fin.ext hmod

theorem uuidDisplay_length (u : Uuid) : (uuidDisplay u).toList.length = 36 := by
  simp [uuidDisplay, uuidDigits]

/-- The five groups of a digit list, put back together. -/
theorem take_groups (l : List Char) :
    l.take 8 ++ (l.drop 8).take 4 ++ (l.drop 12).take 4 ++ (l.drop 16).take 4 ++ l.drop 20 = l := by
  have h12 : l.drop 12 = (l.drop 8).drop 4 := by rw [List.drop_drop]
  have h16 : l.drop 16 = (l.drop 12).drop 4 := by rw [List.drop_drop]
  have h20 : l.drop 20 = (l.drop 16).drop 4 := by rw [List.drop_drop]
  rw [h20, List.append_assoc, List.take_append_drop, h16, List.append_assoc, List.take_append_drop, h12,
    List.append_assoc, List.take_append_drop, List.take_append_drop]

theorem uuidDisplay_injective : Function.Injective uuidDisplay := by
  intro u v h
  have hlist := congrArg String.toList h
  simp only [uuidDisplay, String.toList_ofList] at hlist
  have hu : (uuidDigits u).length = 32 := by simp [uuidDigits]
  have hv : (uuidDigits v).length = 32 := by simp [uuidDigits]
  obtain ⟨hlist, h20⟩ := List.append_inj' hlist (by simp [hu, hv])
  obtain ⟨hlist, h16⟩ := List.append_inj' hlist (by simp [hu, hv])
  obtain ⟨hlist, h12⟩ := List.append_inj' hlist (by simp [hu, hv])
  obtain ⟨h0, h8⟩ := List.append_inj' hlist (by simp [hu, hv])
  apply uuidDigits_injective
  rw [← take_groups (uuidDigits u), ← take_groups (uuidDigits v), h0, List.tail_eq_of_cons_eq h8,
    List.tail_eq_of_cons_eq h12, List.tail_eq_of_cons_eq h16, List.tail_eq_of_cons_eq h20]

/-- A UUID's text followed by anything determines the UUID and what follows. -/
theorem uuidDisplay_append_inj {u v : Uuid} {s t : String} (h : uuidDisplay u ++ s = uuidDisplay v ++ t) :
    u = v ∧ s = t := by
  have hlist := congrArg String.toList h
  rw [String.toList_append, String.toList_append] at hlist
  obtain ⟨hu, hs⟩ := List.append_inj hlist ((uuidDisplay_length u).trans (uuidDisplay_length v).symm)
  exact ⟨uuidDisplay_injective (String.toList_inj.1 hu), String.toList_inj.1 hs⟩

/-- An instant in nanoseconds since the epoch, within `DateTime::<Utc>::MIN_UTC ..= MAX_UTC`. -/
structure DateTime where
  nanos : Int
  min_le : -8334601315200 * 10 ^ 9 ≤ nanos
  le_max : nanos ≤ 8210266876799 * 10 ^ 9 + 999999999
  deriving DecidableEq

namespace DateTime

theorem nanos_injective : Function.Injective nanos := by
  rintro ⟨a, _, _⟩ ⟨b, _, _⟩ h
  cases h; rfl

instance : LinearOrder DateTime := LinearOrder.lift' nanos nanos_injective

/-- `DateTime::<Utc>::MAX_UTC`. -/
def maxUtc : DateTime := ⟨8210266876799 * 10 ^ 9 + 999999999, by decide, le_refl _⟩

instance : OrderTop DateTime where
  top := maxUtc
  le_top t := t.le_max

theorem le_def {s t : DateTime} : s ≤ t ↔ s.nanos ≤ t.nanos := Iff.rfl

theorem lt_def {s t : DateTime} : s < t ↔ s.nanos < t.nanos := Iff.rfl

/-- A number of seconds after the epoch, up to the last whole second. -/
def ofSeconds (n : Nat) : DateTime := ⟨min n 8210266876799 * 10 ^ 9, by omega, by omega⟩

/-- `t + Duration::seconds(n)`; `none` where `chrono` panics. -/
def addSeconds (t : DateTime) (n : Int) : Option DateTime :=
  if h : -8334601315200 * 10 ^ 9 ≤ t.nanos + n * 10 ^ 9 ∧
      t.nanos + n * 10 ^ 9 ≤ 8210266876799 * 10 ^ 9 + 999999999 then
    some ⟨t.nanos + n * 10 ^ 9, h.1, h.2⟩
  else none

/-- `t > base - make_interval(secs => n)`. -/
def within (t base : DateTime) (n : Int) : Bool := t.nanos > base.nanos - n * 10 ^ 9

/-- `t < base - make_interval(secs => n)`. -/
def olderThan (t base : DateTime) (n : Int) : Bool := t.nanos < base.nanos - n * 10 ^ 9

theorem addSeconds_nanos {t u : DateTime} {n : Int} (h : t.addSeconds n = some u) :
    u.nanos = t.nanos + n * 10 ^ 9 := by
  unfold addSeconds at h
  split at h
  · cases h; rfl
  · cases h

end DateTime

/-! ## Integer columns -/

/-- `i32::MAX`. -/
abbrev i32Max : Int := 2147483647

/-- `i64::MAX`. -/
abbrev i64Max : Int := 9223372036854775807

/-- `u32::MAX`. -/
abbrev u32Max : Nat := 4294967295

/-- `i32::try_from(u).unwrap_or(i32::MAX)`. -/
def saturateI32 (u : Nat) : Int := if (u : Int) ≤ i32Max then u else i32Max

/-- `n as i64` for a `u64`. -/
def asI64 (n : Nat) : Int := if (n : Int) ≤ i64Max then n else n - 2 ^ 64

/-! ## Tiers and mechanisms -/

inductive Tier where
  | brokered | trustedClient | cooperatingClient | direct
  deriving DecidableEq, Repr

namespace Tier

def asInt : Tier → Int
  | brokered => 0 | trustedClient => 1 | cooperatingClient => 2 | direct => 3

def fromInt (v : Int) : Option Tier :=
  if v = 0 then some brokered
  else if v = 1 then some trustedClient
  else if v = 2 then some cooperatingClient
  else if v = 3 then some direct
  else none

def asStr : Tier → String
  | brokered => "brokered" | trustedClient => "trusted-client"
  | cooperatingClient => "cooperating-client" | direct => "direct"

theorem asInt_injective : Function.Injective asInt := by
  intro a b h
  cases a <;> cases b <;> first | rfl | cases h

/-- The derived order of the enumeration: lower is less exposure. -/
instance : LinearOrder Tier := LinearOrder.lift' asInt asInt_injective

theorem fromInt_asInt (t : Tier) : fromInt t.asInt = some t := by cases t <;> rfl

end Tier

inductive Mechanism where
  | brokered | autofill | cliRead | directRead
  deriving DecidableEq, Repr

namespace Mechanism

def tier : Mechanism → Tier
  | brokered => .brokered | autofill => .trustedClient | cliRead => .cooperatingClient | directRead => .direct

def asStr : Mechanism → String
  | brokered => "brokered" | autofill => "autofill" | cliRead => "cli-read" | directRead => "direct-read"

def fromStrOpt (s : String) : Option Mechanism :=
  if s = "brokered" then some brokered
  else if s = "autofill" then some autofill
  else if s = "cli-read" then some cliRead
  else if s = "direct-read" then some directRead
  else none

/-- Mechanisms whose grants are exercised via `/read`. -/
def isReleasing (m : Mechanism) : Bool := m != .brokered

theorem fromStrOpt_asStr (m : Mechanism) : fromStrOpt m.asStr = some m := by cases m <;> decide

theorem fromStrOpt_eq_some {s : String} {m : Mechanism} (h : fromStrOpt s = some m) : s = m.asStr := by
  unfold fromStrOpt at h
  split_ifs at h with h₁ h₂ h₃ h₄ <;> cases h
  · exact h₁
  · exact h₂
  · exact h₃
  · exact h₄

theorem asStr_injective : Function.Injective asStr := by
  intro a b h
  have := congrArg fromStrOpt h
  rw [fromStrOpt_asStr, fromStrOpt_asStr] at this
  exact Option.some.inj this

end Mechanism

/-! ## Origins -/

/-- `serde_json::Value`. A number is an integer or the bits of a float. -/
inductive Json where
  | null
  | bool (b : Bool)
  | int (n : Int)
  | float (bits : UInt64)
  | str (s : String)
  | arr (xs : List Json)
  | obj (fields : List (String × Json))

mutual

def Json.decideEq : (a b : Json) → Decidable (a = b)
  | .null, .null => isTrue rfl
  | .bool a, .bool b => decidable_of_iff (a = b) (by simp)
  | .int a, .int b => decidable_of_iff (a = b) (by simp)
  | .float a, .float b => decidable_of_iff (a = b) (by simp)
  | .str a, .str b => decidable_of_iff (a = b) (by simp)
  | .arr a, .arr b =>
    match Json.decEqItems a b with
    | isTrue h => isTrue (by rw [h])
    | isFalse h => isFalse (by simpa using h)
  | .obj a, .obj b =>
    match Json.decEqFields a b with
    | isTrue h => isTrue (by rw [h])
    | isFalse h => isFalse (by simpa using h)
  | .null, .bool _ | .null, .int _ | .null, .float _ | .null, .str _ | .null, .arr _ | .null, .obj _
  | .bool _, .null | .bool _, .int _ | .bool _, .float _ | .bool _, .str _ | .bool _, .arr _ | .bool _, .obj _
  | .int _, .null | .int _, .bool _ | .int _, .float _ | .int _, .str _ | .int _, .arr _ | .int _, .obj _
  | .float _, .null | .float _, .bool _ | .float _, .int _ | .float _, .str _ | .float _, .arr _ | .float _, .obj _
  | .str _, .null | .str _, .bool _ | .str _, .int _ | .str _, .float _ | .str _, .arr _ | .str _, .obj _
  | .arr _, .null | .arr _, .bool _ | .arr _, .int _ | .arr _, .float _ | .arr _, .str _ | .arr _, .obj _
  | .obj _, .null | .obj _, .bool _ | .obj _, .int _ | .obj _, .float _ | .obj _, .str _ | .obj _, .arr _ =>
    isFalse (by simp)

def Json.decEqItems : (xs ys : List Json) → Decidable (xs = ys)
  | [], [] => isTrue rfl
  | [], _ :: _ => isFalse (by simp)
  | _ :: _, [] => isFalse (by simp)
  | x :: xs, y :: ys =>
    match Json.decideEq x y, Json.decEqItems xs ys with
    | isTrue h, isTrue hs => isTrue (by rw [h, hs])
    | isFalse h, _ => isFalse (by simp [h])
    | _, isFalse hs => isFalse (by simp [hs])

def Json.decEqFields : (xs ys : List (String × Json)) → Decidable (xs = ys)
  | [], [] => isTrue rfl
  | [], _ :: _ => isFalse (by simp)
  | _ :: _, [] => isFalse (by simp)
  | (k, x) :: xs, (l, y) :: ys =>
    match decEq k l, Json.decideEq x y, Json.decEqFields xs ys with
    | isTrue hk, isTrue h, isTrue hs => isTrue (by rw [hk, h, hs])
    | isFalse hk, _, _ => isFalse (by simp [hk])
    | _, isFalse h, _ => isFalse (by simp [h])
    | _, _, isFalse hs => isFalse (by simp [hs])

end

instance : DecidableEq Json := Json.decideEq

/-- An HTTPS origin: a host and an optional port. -/
structure Origin where
  host : String
  port : Option UInt16
  deriving DecidableEq, Repr

/-- Why `Origin::parse` refuses a text, with what its message quotes. -/
inductive OriginError where
  | empty
  | notHostPort (s : String)
  | badPort (s : String)
  | portZero
  | invalidHost (host : String)
  | noncanonicalHost (host target : String)
  deriving DecidableEq, Repr

/-- What `url::Url::parse` makes of `https://<host>`: `none` when it fails, else its `host_str`. -/
abbrev UrlHost : Type := String → Option (Option String)

namespace Origin

/-- Effective port (443 when unspecified). -/
def effectivePort (o : Origin) : UInt16 := o.port.getD 443

/-- Two origins are the same target iff host and effective port match. -/
def sameTarget (o other : Origin) : Bool :=
  o.host == other.host && o.effectivePort == other.effectivePort

def toDisplay (o : Origin) : String :=
  match o.port with
  | some p => "https://" ++ o.host ++ ":" ++ toString p.toNat
  | none => "https://" ++ o.host

/-- The characters a host may consist of. -/
def hostChar (c : Char) : Bool := c.isAlphanum || c == '-' || c == '.'

/-- The host part of `Origin::parse`, after any port has been cut off. -/
def parseHost (url : UrlHost) (raw : String) : Except OriginError String :=
  let host := toAsciiLowercase (String.ofList (raw.toList.rdropWhile (· == '.')))
  if host.toList.isEmpty || host.toList.contains '*' || !host.toList.all hostChar then .error (.invalidHost host)
  else
    match url host with
    | none => .error (.invalidHost host)
    | some target =>
      if target ≠ some host then .error (.noncanonicalHost host (target.getD "")) else .ok host

/-- `host[:port]`; a text with two colons is taken as a host and refused as one. -/
def parse (url : UrlHost) (s : String) : Except OriginError Origin :=
  let s := trim s
  let cs := s.toList
  if cs.isEmpty then .error .empty
  else if cs.contains '/' || cs.contains '@' || cs.contains '?' || cs.contains '#' then .error (.notHostPort s)
  else if cs.count ':' = 1 then
    let h := String.ofList (cs.takeWhile (· != ':'))
    let p := String.ofList ((cs.dropWhile (· != ':')).drop 1)
    match parseUnsigned 65535 p with
    | none => .error (.badPort s)
    | some port =>
      if port = 0 then .error .portZero
      else (fun host => ⟨host, some (UInt16.ofNat port)⟩) <$> parseHost url h
  else (fun host => ⟨host, none⟩) <$> parseHost url s

def toJson (o : Origin) : Json :=
  .obj (("host", .str o.host) :: match o.port with
    | some p => [("port", .int p.toNat)]
    | none => [])

/-- `Option<u16>` from JSON. -/
def portFromJson : Option Json → Option (Option UInt16)
  | none => some none
  | some .null => some none
  | some (.int n) => if 0 ≤ n ∧ n ≤ 65535 then some (some (UInt16.ofNat n.toNat)) else none
  | some _ => none

/-- The checks of `Deserialize for Origin` once the two fields are read. -/
def ofParts (url : UrlHost) (host : String) (port : Option UInt16) : Option Origin :=
  if host.toList.contains ':' then none
  else if port = some 0 then none
  else
    match parse url host with
    | .error _ => none
    | .ok parsed => some ⟨parsed.host, port⟩

/-- `Deserialize for Origin`: the derived reader of `RawOrigin` takes an object, unknown fields ignored, or
the fields in order as an array. -/
def fromJson (url : UrlHost) : Json → Option Origin
  | .obj fields =>
    match fields.lookup "host", portFromJson (fields.lookup "port") with
    | some (.str host), some port => ofParts url host port
    | _, _ => none
  | .arr [.str host] => ofParts url host none
  | .arr [.str host, port] =>
    match portFromJson (some port) with
    | some port => ofParts url host port
    | none => none
  | _ => none

/-- `serde_json::from_value::<Vec<Origin>>`. -/
def listFromJson (url : UrlHost) : Json → Option (List Origin)
  | .arr xs => xs.mapM (fromJson url)
  | _ => none

/-- `serde_json::to_value(&origins)`. -/
def listToJson (os : List Origin) : Json := .arr (os.map toJson)

/-! ### The JSON form of a parsed origin -/

theorem hostChar_ascii {c : Char} (h : hostChar c = true) : c.toNat ≤ 127 := by
  by_contra hc
  change ((((decide (c.val ≥ 65 ∧ c.val ≤ 90) || (decide (c.val ≥ 97) && decide (c.val ≤ 122))) ||
    (decide (c.val ≥ 48) && decide (c.val ≤ 57))) || c == '-') || c == '.') = true at h
  simp only [Bool.or_eq_true, Bool.and_eq_true, decide_eq_true_eq, beq_iff_eq, ge_iff_le, UInt32.le_iff_toNat_le] at h
  have hv : c.val.toNat = c.toNat := rfl
  rcases h with (((h | h) | h) | rfl) | rfl
  · have := h.2; simp at this; omega
  · have := h.2; simp at this; omega
  · have := h.2; simp at this; omega
  · exact hc (by decide)
  · exact hc (by decide)

/-- A host character is neither white space nor one of the characters `parse` cuts at or refuses. -/
theorem hostChar_plain {c : Char} (h : hostChar c = true) :
    isWhitespace c = false ∧ c ∉ [':', '/', '@', '?', '#', '*'] := by
  have key : ∀ n : Fin 128, hostChar (Char.ofNat n) = true →
      isWhitespace (Char.ofNat n) = false ∧ Char.ofNat n ∉ [':', '/', '@', '?', '#', '*'] := by decide
  have hc : Char.ofNat c.toNat = c := Char.ofNat_toNat c
  have := key ⟨c.toNat, by have := hostChar_ascii h; omega⟩
  rw [hc] at this
  exact this h

theorem toLower_eq_dot (c : Char) : c.toLower = '.' ↔ c = '.' := by
  by_cases h : c.toNat ≤ 127
  · have key : ∀ n : Fin 128, (Char.ofNat n).toLower = '.' ↔ Char.ofNat n = '.' := by decide
    have := key ⟨c.toNat, by omega⟩
    rwa [Char.ofNat_toNat c] at this
  · rw [toLower_of_gt h]

theorem ofNat_ne_zero {n : Nat} (hle : n ≤ 65535) (h0 : n ≠ 0) : UInt16.ofNat n ≠ 0 := by
  intro h
  have hn : (UInt16.ofNat n).toNat = n := UInt16.toNat_ofNat_of_lt' (by simp [UInt16.size]; omega)
  rw [h] at hn
  exact h0 (hn.symm.trans rfl)

/-- A host as `parse` leaves it: it parses to itself. -/
structure HostParsed (url : UrlHost) (host : String) : Prop where
  nonempty : host.toList ≠ []
  chars : ∀ c ∈ host.toList, hostChar c = true
  target : url host = some (some host)
  noDot : host.toList.rdropWhile (· == '.') = host.toList
  lower : toAsciiLowercase host = host

theorem parseHost_eq_ok {url : UrlHost} {raw host : String} (h : parseHost url raw = .ok host) :
    HostParsed url host := by
  unfold parseHost at h
  simp only at h
  split at h
  · cases h
  rename_i hchk
  split at h
  · cases h
  rename_i target htarget
  split at h
  · cases h
  rename_i heq
  injection h with h
  rw [h] at hchk htarget heq
  simp only [Bool.or_eq_true, not_or, Bool.not_eq_true, List.isEmpty_eq_false_iff, Bool.not_eq_false',
    List.all_eq_true] at hchk
  have hlist : host.toList = (raw.toList.rdropWhile (· == '.')).map Char.toLower := by
    rw [← h]; simp [toAsciiLowercase]
  refine ⟨hchk.1.1, hchk.2, by rw [htarget, not_ne_iff.1 heq], ?_, ?_⟩
  · rw [List.rdropWhile_eq_self_iff, hlist]
    intro hne hlast
    rw [List.getLast_map, beq_iff_eq, toLower_eq_dot] at hlast
    exact List.rdropWhile_last_not (· == '.') raw.toList (by simpa using hne) (by simpa using hlast)
  · rw [toAsciiLowercase, hlist, List.map_map]
    rw [show Char.toLower ∘ Char.toLower = Char.toLower from funext toLower_toLower, ← hlist, String.ofList_toList]

theorem HostParsed.trim {url : UrlHost} {host : String} (h : HostParsed url host) : trim host = host := by
  have hdrop : host.toList.dropWhile isWhitespace = host.toList := by
    rw [List.dropWhile_eq_self_iff]
    intro hl hw
    rw [(hostChar_plain (h.chars _ (List.getElem_mem hl))).1] at hw
    cases hw
  have hrdrop : host.toList.rdropWhile isWhitespace = host.toList := by
    rw [List.rdropWhile_eq_self_iff]
    intro hl hw
    rw [(hostChar_plain (h.chars _ (List.getLast_mem hl))).1] at hw
    cases hw
  rw [Keychute.trim, hdrop, hrdrop, String.ofList_toList]

theorem HostParsed.not_contains {url : UrlHost} {host : String} (h : HostParsed url host) {c : Char}
    (hc : c ∈ [':', '/', '@', '?', '#', '*']) : host.toList.contains c = false := by
  rw [List.contains_eq_mem, decide_eq_false_iff_not]
  intro hm
  exact (hostChar_plain (h.chars c hm)).2 hc

theorem HostParsed.parseHost {url : UrlHost} {host : String} (h : HostParsed url host) :
    parseHost url host = .ok host := by
  have hall : host.toList.all hostChar = true := List.all_eq_true.2 h.chars
  have hempty : host.toList.isEmpty = false := by simpa using h.nonempty
  unfold Origin.parseHost
  simp only [h.noDot, String.ofList_toList, h.lower, hempty, h.not_contains (c := '*') (by simp), hall, h.target]
  simp

theorem HostParsed.parse {url : UrlHost} {host : String} (h : HostParsed url host) :
    parse url host = .ok ⟨host, none⟩ := by
  have hcount : host.toList.count ':' = 0 := by
    rw [List.count_eq_zero]
    intro hm
    exact (hostChar_plain (h.chars _ hm)).2 (by simp)
  have hempty : host.toList.isEmpty = false := by simpa using h.nonempty
  unfold Origin.parse
  simp only [h.trim, hempty, h.not_contains (c := '/') (by simp), h.not_contains (c := '@') (by simp),
    h.not_contains (c := '?') (by simp), h.not_contains (c := '#') (by simp), hcount, h.parseHost]
  simp [Functor.map, Except.map]

theorem parse_eq_ok {url : UrlHost} {s : String} {o : Origin} (h : Origin.parse url s = .ok o) :
    HostParsed url o.host ∧ o.port ≠ some 0 := by
  unfold Origin.parse at h
  simp only at h
  split at h
  · cases h
  split at h
  · cases h
  split at h
  · split at h
    · cases h
    rename_i p port hport
    split at h
    · cases h
    rename_i hzero
    cases hh : parseHost url _ with
    | error e => rw [hh] at h; cases h
    | ok host =>
        rw [hh] at h
        cases h
        refine ⟨parseHost_eq_ok hh, ?_⟩
        have hle : port ≤ 65535 := parseUnsigned_le hport
        intro h0
        exact ofNat_ne_zero hle hzero (Option.some.inj h0)
  · cases hh : parseHost url _ with
    | error e => rw [hh] at h; cases h
    | ok host =>
        rw [hh] at h
        cases h
        exact ⟨parseHost_eq_ok hh, by simp⟩

theorem ofParts_parsed {url : UrlHost} {host : String} {port : Option UInt16} (h : HostParsed url host)
    (hp : port ≠ some 0) : ofParts url host port = some ⟨host, port⟩ := by
  unfold ofParts
  rw [h.not_contains (c := ':') (by simp), if_neg (by simp), if_neg hp, h.parse]

/-- An origin that `parse` accepted survives the JSON round trip. -/
theorem fromJson_toJson {url : UrlHost} {s : String} {o : Origin} (h : Origin.parse url s = .ok o) :
    fromJson url o.toJson = some o := by
  obtain ⟨hhost, hport⟩ := parse_eq_ok h
  obtain ⟨host, port⟩ := o
  have hparts := ofParts_parsed hhost hport
  cases port with
  | none =>
      have hlook : ([("host", Json.str host)] : List (String × Json)).lookup "port" = none := rfl
      simp only [toJson, fromJson, hlook, portFromJson]
      simpa using hparts
  | some p =>
      have hlook : ([("host", Json.str host), ("port", Json.int p.toNat)] : List (String × Json)).lookup "port" =
          some (.int p.toNat) := rfl
      have hle : (p.toNat : Int) ≤ 65535 := by have := p.toNat_lt; omega
      simp only [toJson, fromJson, hlook, portFromJson]
      simpa [hle] using hparts

theorem listFromJson_listToJson {url : UrlHost} {os : List Origin}
    (h : ∀ o ∈ os, ∃ s, Origin.parse url s = .ok o) : listFromJson url (listToJson os) = some os := by
  unfold listFromJson listToJson
  simp only
  induction os with
  | nil => rfl
  | cons o os ih =>
      obtain ⟨s, hs⟩ := h o List.mem_cons_self
      rw [List.map_cons, List.mapM_cons, fromJson_toJson hs, ih (fun o ho => h o (List.mem_cons_of_mem _ ho))]
      rfl

end Origin

/-! ## Constraints -/

/-- Constraints on a requested or granted capability; an empty list means unconstrained. -/
structure Constraints where
  origins : List Origin
  methods : List String
  pathPrefixes : List String
  ttlSeconds : Nat
  maxUses : Option Nat
  deriving DecidableEq, Repr

inductive RequestState where
  | pending | approved | denied | expired
  deriving DecidableEq, Repr

end Keychute
