import Keychute.Forwarding
import Keychute.Origins
import Keychute.PolicyForms
import Keychute.Ui.Settings

/-!
# A policy, edited (`server/src/ui/mod.rs`)

* `pathField`, `PolicyFormValues.fromRow` : how the edit page spells a row;
* `PolicyFormValues.submitted` : the form a browser sends for a page that was not touched;
* `canonicalize_pathField`, `fieldLines_join`, `parseMethodsField_join` : the printers of the page, read back;
* `policy_form_round_trips` : saving the page unchanged writes the rule that is there.
-/

namespace Keychute.Ui
open Keychute.Api Keychute.Lib
open Keychute.Proxy (percentEncode_eq_self decodeBytes_percentEncode_append)

/-! ## Paths -/

/-- What the form would not give back as it is: `%`, which it decodes, and white space, which it trims. -/
def escapedInField (c : Char) : Bool := c == '%' || isWhitespace c

/-- A canonical path prefix as the policy form spells it. -/
def pathField (canonical : String) : String :=
  String.ofList (canonical.toList.flatMap fun c =>
    if escapedInField c then
      (String.utf8EncodeChar c).flatMap fun b =>
        ['%', Sigv4.upperHex (b.toNat / 16), Sigv4.upperHex (b.toNat % 16)]
    else [c])

theorem ascii_mem_utf8EncodeChar {c ch : Char} (hch : ch.toNat ≤ 127) :
    UInt8.ofNat ch.toNat ∈ String.utf8EncodeChar c ↔ c = ch := by
  have h := @ascii_mem_bytes (String.ofList [c]) ch hch
  rw [Http.bytes_ofList, List.flatMap_singleton, String.toList_ofList, List.mem_singleton] at h
  rw [h]
  exact eq_comm

/-- The bytes of the field: each character's own, or their escapes. -/
theorem bytes_pathField (s : String) : bytes (pathField s) =
    s.toList.flatMap fun c => percentEncode (fun _ => !escapedInField c) (String.utf8EncodeChar c) := by
  have hdig : ∀ n : Fin 16, String.utf8EncodeChar (Sigv4.upperHex n.val) = [upperHexDigit n.val] := by decide +kernel
  rw [pathField, Http.bytes_ofList, List.flatMap_assoc]
  refine List.flatMap_congr fun c _ => ?_
  cases escapedInField c with
  | false =>
      rw [if_neg Bool.false_ne_true, List.flatMap_singleton]
      exact (percentEncode_eq_self fun _ _ => rfl).symm
  | true =>
      rw [if_pos rfl, List.flatMap_assoc, percentEncode]
      refine List.flatMap_congr fun b _ => ?_
      have hhi := hdig ⟨b.toNat / 16, by have := b.toNat_lt; omega⟩
      have hlo := hdig ⟨b.toNat % 16, Nat.mod_lt _ (by omega)⟩
      dsimp only at hhi hlo
      rw [List.flatMap_cons, List.flatMap_cons, List.flatMap_singleton, hhi, hlo]
      rfl

theorem decodeBytes_fieldBytes {cs : List Char} (h : '\\' ∉ cs) :
    decodeBytes (cs.flatMap fun c => percentEncode (fun _ => !escapedInField c) (String.utf8EncodeChar c)) =
      .ok (cs.flatMap String.utf8EncodeChar) := by
  induction cs with
  | nil => rfl
  | cons c cs ih =>
      rw [List.mem_cons, not_or] at h
      rw [List.flatMap_cons, List.flatMap_cons, decodeBytes_percentEncode_append ?_ ?_ ?_, ih h.2]
      · rfl
      · intro hmem
        have hc : c = '%' := (@ascii_mem_utf8EncodeChar c '%' (by decide)).1 hmem
        rw [hc]
        rfl
      · intro hmem
        have hc : c = '/' := (@ascii_mem_utf8EncodeChar c '/' (by decide)).1 hmem
        rw [hc]
        rfl
      · intro hmem
        exact h.1 ((@ascii_mem_utf8EncodeChar c '\\' (by decide)).1 hmem).symm

/-- A canonical prefix is read back from its field. -/
theorem canonicalize_pathField {c : String} (hc : Canonical c) : canonicalize (pathField c) = .ok c := by
  have hchk := hc.checked
  obtain ⟨raw, hraw⟩ := hc
  have hback : '\\' ∉ c.toList := by
    intro hmem
    have hbyte := (@ascii_mem_bytes c '\\' (by decide)).2 hmem
    exact decodeBytes_no_backslash (canonicalize_eq_ok.1 hraw).2.1 hbyte
  refine canonicalize_eq_ok.2 ⟨?_, ?_, hchk.noControl, hchk.noDot, hchk.noDouble⟩
  · have hhead := hchk.head
    rw [bytes_eq_flatMap] at hhead
    rw [bytes_pathField]
    cases hl : c.toList with
    | nil =>
        rw [hl] at hhead
        cases hhead
    | cons ch cs =>
        obtain ⟨b, rest, hcons⟩ := List.exists_cons_of_ne_nil (String.utf8EncodeChar_ne_nil (c := ch))
        rw [hl, List.flatMap_cons, hcons] at hhead
        obtain rfl : b = slash := Option.some.inj hhead
        have hslash : ch = '/' := (@ascii_mem_utf8EncodeChar ch '/' (by decide)).1 (by rw [hcons]; exact List.mem_cons_self)
        rw [hslash, List.flatMap_cons]
        rfl
  · rw [bytes_pathField, bytes_eq_flatMap]
    exact decodeBytes_fieldBytes hback

theorem pathField_plain {s : String} : ∀ c ∈ (pathField s).toList, isWhitespace c = false := by
  have hdig : ∀ n : Fin 16, isWhitespace (Sigv4.upperHex n.val) = false := by decide +kernel
  intro c hc
  rw [pathField, String.toList_ofList, List.mem_flatMap] at hc
  obtain ⟨d, -, hmem⟩ := hc
  cases hd : escapedInField d with
  | false =>
      rw [hd, if_neg Bool.false_ne_true, List.mem_singleton] at hmem
      rw [hmem]
      rw [escapedInField, Bool.or_eq_false_iff] at hd
      exact hd.2
  | true =>
      rw [hd, if_pos rfl, List.mem_flatMap] at hmem
      obtain ⟨b, -, hmem⟩ := hmem
      have hhi := hdig ⟨b.toNat / 16, by have := b.toNat_lt; omega⟩
      have hlo := hdig ⟨b.toNat % 16, Nat.mod_lt _ (by omega)⟩
      rw [List.mem_cons, List.mem_cons, List.mem_singleton] at hmem
      obtain rfl | rfl | rfl := hmem
      · rfl
      · exact hhi
      · exact hlo

theorem pathField_ne_empty {c : String} (hc : Canonical c) : pathField c ≠ "" := by
  intro hnil
  have hread := canonicalize_pathField hc
  rw [hnil] at hread
  cases (canonicalize_eq_ok.1 hread).1

/-! ## Lines -/

/-- Joined lines come apart again. -/
theorem lines_join {ls : List String} (h : ∀ l ∈ ls, l ≠ "" ∧ ∀ c ∈ l.toList, isWhitespace c = false) :
    lines ("\n".intercalate ls) = ls := by
  cases hls : ls with
  | nil => rfl
  | cons first rest =>
      rw [← hls]
      have hne : ls.map String.toList ≠ [] := by
        rw [hls]
        simp
      have hparts : ("\n".intercalate ls).toList.splitOn '\n' = ls.map String.toList := by
        rw [String.toList_intercalate]
        refine List.splitOn_intercalate '\n' ?_ hne
        intro l hl hmem
        obtain ⟨t, ht, rfl⟩ := List.mem_map.1 hl
        exact absurd ((h t ht).2 '\n' hmem) (by decide)
      have hstrip : ∀ l ∈ ls.map String.toList, (if l.getLast? = some '\r' then l.dropLast else l) = l := by
        intro l hl
        obtain ⟨t, ht, rfl⟩ := List.mem_map.1 hl
        refine if_neg fun hcr => ?_
        exact absurd ((h t ht).2 '\r' (List.mem_of_getLast? hcr)) (by decide)
      have hlast : ((ls.map String.toList).getLast?.getD []).isEmpty = false := by
        rw [List.getLast?_eq_some_getLast hne, Option.getD_some, List.isEmpty_eq_false_iff]
        obtain ⟨t, ht, heq⟩ := List.mem_map.1 (List.getLast_mem hne)
        rw [← heq]
        intro hnil
        exact (h t ht).1 (String.toList_injective hnil)
      unfold lines
      simp only [hparts, hlast]
      rw [List.map_congr_left fun l hl => hstrip l (List.mem_of_mem_dropLast hl), List.map_id',
        List.getLast?_eq_some_getLast hne, Option.getD_some, if_neg Bool.false_ne_true, List.dropLast_append_getLast hne,
        List.map_map]
      have hid : String.ofList ∘ String.toList = id := funext fun s => String.ofList_toList
      rw [hid, List.map_id]

/-- A text area filled with such lines gives them back. -/
theorem fieldLines_join {ls : List String} (h : ∀ l ∈ ls, l ≠ "" ∧ ∀ c ∈ l.toList, isWhitespace c = false) :
    fieldLines (some ("\n".intercalate ls)) = ls := by
  rw [fieldLines, Option.getD_some, lines_join h]
  have htrim : ls.map trim = ls := by
    rw [List.map_congr_left fun l hl => trim_of_no_whitespace (h l hl).2, List.map_id']
  rw [htrim, List.filter_eq_self]
  intro l hl
  exact decide_eq_true (h l hl).1

/-! ## Methods -/

theorem toUpper_toUpper (c : Char) : c.toUpper.toUpper = c.toUpper := by
  by_cases h : c.toNat ≤ 127
  · have key : ∀ n : Fin 128, (Char.ofNat n).toUpper.toUpper = (Char.ofNat n).toUpper := by decide
    have := key ⟨c.toNat, by omega⟩
    rwa [Char.ofNat_toNat c] at this
  · rw [toUpper_of_gt h, toUpper_of_gt h]

theorem toAsciiUppercase_idem (s : String) : toAsciiUppercase (toAsciiUppercase s) = toAsciiUppercase s := by
  unfold toAsciiUppercase
  rw [String.toList_ofList, List.map_map]
  exact congrArg String.ofList (List.map_congr_left fun c _ => toUpper_toUpper c)

theorem isTchar_range {b : UInt8} (h : isTchar b = true) : 33 ≤ b.toNat ∧ b.toNat ≤ 126 ∧ b.toNat ≠ 44 := by
  simp only [isTchar, Bool.or_eq_true, Bool.and_eq_true, decide_eq_true_eq, beq_iff_eq, UInt8.le_iff_toNat_le,
    ← UInt8.toNat_inj, UInt8.reduceToNat] at h
  omega

/-- A method is not empty, and holds nothing that the field is cut at. -/
theorem method_piece {m : String} (h : isValidHttpMethod m = true) :
    m ≠ "" ∧ m.toList.all (fun ch => !(ch == ',' || isWhitespace ch)) = true := by
  unfold isValidHttpMethod at h
  rw [Bool.and_eq_true, Bool.and_eq_true, Bool.not_eq_true', List.all_eq_true] at h
  obtain ⟨⟨hne, -⟩, hall⟩ := h
  have hrange : ∀ b ∈ bytes m, 33 ≤ b.toNat ∧ b.toNat ≤ 126 ∧ b.toNat ≠ 44 := fun b hb => isTchar_range (hall b hb)
  refine ⟨ne_empty_of_bytes hne, ?_⟩
  rw [List.all_eq_true]
  intro ch hch
  have hspace := not_whitespace_of_graphic (fun b hb => ⟨(hrange b hb).1, (hrange b hb).2.1⟩) ch hch
  have hcomma : ch ≠ ',' := by
    rintro rfl
    exact (hrange _ ((@ascii_mem_bytes m ',' (by decide)).2 hch)).2.2 rfl
  rw [hspace, beq_false_of_ne hcomma]
  rfl

theorem parseMethodsField_eq (raw : String) : parseMethodsField raw = (tagPieces raw).mapM fun m =>
    if isValidHttpMethod m then .ok (toAsciiUppercase m) else .error (.message "invalid HTTP method") := by
  have htrim : (splitMethods raw.toList).map (fun m => trim (String.ofList m)) = (splitMethods raw.toList).map String.ofList := by
    refine List.map_congr_left fun m hm => trim_of_no_whitespace ?_
    intro ch hch
    rw [String.toList_ofList] at hch
    have hpiece := List.all_eq_true.1 ((splitMethods_pieces raw.toList).2 m hm) ch hch
    rw [Bool.not_eq_true', Bool.or_eq_false_iff] at hpiece
    exact hpiece.2
  rw [parseMethodsField, tagPieces, htrim]

theorem mapM_ok_self {ε α : Type} {f : α → Except ε α} {l : List α} (h : ∀ a ∈ l, f a = .ok a) : l.mapM f = .ok l := by
  induction l with
  | nil => rfl
  | cons a l ih =>
      rw [List.forall_mem_cons] at h
      rw [List.mapM_cons, h.1, ih h.2]
      rfl

/-- Methods in upper case are read back from the field. -/
theorem parseMethodsField_join {ms : List String}
    (h : ∀ m ∈ ms, isValidHttpMethod m = true ∧ toAsciiUppercase m = m) :
    parseMethodsField (", ".intercalate ms) = .ok ms := by
  rw [parseMethodsField_eq, tagPieces_join fun m hm => method_piece (h m hm).1]
  apply mapM_ok_self
  intro m hm
  rw [(h m hm).1, if_pos rfl, (h m hm).2]

/-- What the field leaves: valid methods, in upper case. -/
theorem parseMethodsField_ok {raw : String} {ms : List String} (h : parseMethodsField raw = .ok ms) :
    ∀ m ∈ ms, isValidHttpMethod m = true ∧ toAsciiUppercase m = m := by
  intro m hm
  obtain ⟨r, hr⟩ := exists_of_mapM_eq_ok h hm
  split at hr
  · rename_i hv
    injection hr with hr
    rw [← hr]
    exact ⟨isValidHttpMethod_upper hv, toAsciiUppercase_idem r⟩
  · cases hr

/-! ## Numbers -/

theorem nonEmpty_toString (v : Int) : nonEmpty (some (toString v)) = some (toString v) := by
  have hlist := toList_toString v
  refine nonEmpty_self (trim_of_no_whitespace ?_) ?_
  · intro c hc
    rw [hlist] at hc
    split at hc
    · exact (isDigit_plain (isDigit_toDigits hc)).1
    · rcases List.mem_cons.1 hc with rfl | hc
      · decide
      · exact (isDigit_plain (isDigit_toDigits hc)).1
  · intro hnil
    rw [hnil] at hlist
    split at hlist
    · exact Nat.toDigits_ne_nil hlist.symm
    · cases hlist

theorem parseSigned_bounds {lo hi v : Int} {s : String} (h : parseSigned lo hi s = some v) : lo ≤ v ∧ v ≤ hi := by
  unfold parseSigned at h
  exact of_decide_eq_true (Option.filter_eq_some_iff.1 h).2

/-- A number or none, as the page writes it. -/
def numberField (v : Option Int) : String := (v.map toString).getD ""

theorem parsePositive_bounds {lo hi n : Int} {what : String} {v : Option String}
    (h : parsePositive lo hi what v = .ok (some n)) : lo ≤ n ∧ n ≤ hi ∧ 0 < n := by
  unfold parsePositive at h
  split at h
  · cases h
  · split at h
    · rename_i n' hn
      obtain rfl := Option.some.inj (Except.ok.inj h)
      obtain ⟨hread, hpos⟩ := Option.filter_eq_some_iff.1 hn
      exact ⟨(parseSigned_bounds hread).1, (parseSigned_bounds hread).2, of_decide_eq_true hpos⟩
    · cases h

/-- A positive number within the bounds is read back from its field, and so is none. -/
theorem parsePositive_numberField {lo hi : Int} {what : String} {n : Option Int}
    (h : ∀ k, n = some k → lo ≤ k ∧ k ≤ hi ∧ 0 < k) : parsePositive lo hi what (some (numberField n)) = .ok n := by
  unfold parsePositive numberField
  cases n with
  | none => rw [Option.map_none, Option.getD_none, nonEmpty_empty]
  | some k =>
      obtain ⟨hlo, hhi, hpos⟩ := h k rfl
      rw [Option.map_some, Option.getD_some, nonEmpty_toString]
      simp only [parseSigned_toString hlo hhi]
      rw [Option.filter_some, if_pos (decide_eq_true hpos)]

theorem parsePriority_toString {v : Option String} {n : Int} (h : parsePriority v = .ok n) :
    parsePriority (some (toString n)) = .ok n := by
  have hbounds : -2147483648 ≤ n ∧ n ≤ 2147483647 := by
    unfold parsePriority at h
    split at h
    · have := Except.ok.inj h
      omega
    · split at h
      · rename_i n' hn
        obtain rfl := Except.ok.inj h
        exact parseSigned_bounds hn
      · cases h
  unfold parsePriority
  rw [nonEmpty_toString]
  simp only [parseSigned_toString hbounds.1 hbounds.2]

/-! ## Dates -/

/-- `chrono`, as the form uses it: a UTC time written in a format, and a text read in one. -/
structure Chrono where
  format : DateTime → String → String
  parseFromStr : String → String → Option DateTime

def minutesFormat : String := "%Y-%m-%dT%H:%M"

def secondsFormat : String := "%Y-%m-%dT%H:%M:%S"

/-- The two formats of the form, the shorter one first. -/
def Chrono.parseDatetime (chrono : Chrono) (raw : String) : Option DateTime :=
  (chrono.parseFromStr raw minutesFormat).or (chrono.parseFromStr raw secondsFormat)

/-- `Timelike::second`. -/
def second (t : DateTime) : Int := t.nanos / 1000000000 % 60

/-- A UTC instant as an `<input type="datetime-local">` value, keeping seconds only when there are any. -/
def datetimeLocalValue (chrono : Chrono) (t : DateTime) : String :=
  if second t = 0 then chrono.format t minutesFormat else chrono.format t secondsFormat

/-- On the times that the form can read, which have no fraction of a second: the format with seconds gives the time
back, and is not read as the shorter one; the shorter one gives back a whole minute. Neither writes white space. -/
structure Chrono.Documented (chrono : Chrono) : Prop where
  minutes : ∀ raw t, chrono.parseDatetime raw = some t → second t = 0 →
    chrono.parseFromStr (chrono.format t minutesFormat) minutesFormat = some t
  seconds : ∀ raw t, chrono.parseDatetime raw = some t →
    chrono.parseFromStr (chrono.format t secondsFormat) secondsFormat = some t
  trailing : ∀ raw t, chrono.parseDatetime raw = some t →
    chrono.parseFromStr (chrono.format t secondsFormat) minutesFormat = none
  plain : ∀ raw t, chrono.parseDatetime raw = some t → ∀ fmt ∈ [minutesFormat, secondsFormat],
    chrono.format t fmt ≠ "" ∧ (chrono.format t fmt).toList.all (fun c => !isWhitespace c) = true

theorem parseDatetime_datetimeLocalValue {chrono : Chrono} (hchrono : chrono.Documented) {raw : String} {t : DateTime}
    (h : chrono.parseDatetime raw = some t) :
    nonEmpty (some (datetimeLocalValue chrono t)) = some (datetimeLocalValue chrono t) ∧
      chrono.parseDatetime (datetimeLocalValue chrono t) = some t := by
  have hplain : ∀ fmt ∈ [minutesFormat, secondsFormat],
      nonEmpty (some (chrono.format t fmt)) = some (chrono.format t fmt) := by
    intro fmt hfmt
    obtain ⟨hne, hall⟩ := hchrono.plain raw t h fmt hfmt
    refine nonEmpty_self (trim_of_no_whitespace fun c hc => ?_) hne
    have hc := List.all_eq_true.1 hall c hc
    rwa [Bool.not_eq_true'] at hc
  unfold datetimeLocalValue
  split
  · rename_i hsec
    refine ⟨hplain _ (by simp), ?_⟩
    rw [Chrono.parseDatetime, hchrono.minutes raw t h hsec, Option.some_or]
  · refine ⟨hplain _ (by simp), ?_⟩
    rw [Chrono.parseDatetime, hchrono.trailing raw t h, Option.none_or, hchrono.seconds raw t h]

/-- A time or none, as the page writes it. -/
def notAfterField (chrono : Chrono) (t : Option DateTime) : String := (t.map (datetimeLocalValue chrono)).getD ""

theorem parseNotAfter_some {parseDatetime : String → Option DateTime} {v : Option String} {t : DateTime}
    (h : parseNotAfter parseDatetime v = .ok (some t)) : ∃ raw, parseDatetime raw = some t := by
  unfold parseNotAfter at h
  cases hv : nonEmpty v with
  | none =>
      rw [hv] at h
      exact (Option.some_ne_none t (Except.ok.inj h).symm).elim
  | some raw =>
      rw [hv] at h
      cases ht : parseDatetime raw with
      | none =>
          simp only [ht] at h
          cases h
      | some t' =>
          simp only [ht] at h
          exact ⟨raw, ht.trans (Except.ok.inj h)⟩

theorem parseNotAfter_notAfterField {chrono : Chrono} (hchrono : chrono.Documented) {v : Option String}
    {t : Option DateTime} (h : parseNotAfter chrono.parseDatetime v = .ok t) :
    parseNotAfter chrono.parseDatetime (some (notAfterField chrono t)) = .ok t := by
  cases t with
  | none =>
      unfold parseNotAfter notAfterField
      rw [Option.map_none, Option.getD_none, nonEmpty_empty]
  | some t =>
      obtain ⟨raw, hraw⟩ := parseNotAfter_some h
      obtain ⟨hfield, hread⟩ := parseDatetime_datetimeLocalValue hchrono hraw
      unfold parseNotAfter notAfterField
      rw [Option.map_some, Option.getD_some, hfield]
      simp only [hread]

/-! ## The form -/

/-- The values the policy form renders with. -/
structure PolicyFormValues where
  client : Option String
  secret : Option String
  tag : Option String
  mechanism : Option Mechanism
  outcome : Option String
  priority : String
  origins : String
  methods : String
  paths : String
  maxTtl : String
  maxUses : String
  notAfter : String

/-- The row as the form spells it. -/
def PolicyFormValues.fromRow (url : UrlHost) (chrono : Chrono) (p : Db.PolicyRow) : PolicyFormValues where
  client := p.clientName
  secret := p.secretName
  tag := p.secretTag
  mechanism := Mechanism.fromStrOpt p.mechanism
  outcome := some p.outcome
  priority := toString p.priority
  origins := ((Origin.listFromJson url p.origins).map fun os => "\n".intercalate (os.map originField)).getD ""
  methods := ", ".intercalate p.methods
  paths := "\n".intercalate (p.pathPrefixes.map pathField)
  maxTtl := numberField p.maxTtlSeconds
  maxUses := numberField p.maxUses
  notAfter := notAfterField chrono p.notAfter

/-- `POLICY_OUTCOMES`. -/
def policyOutcomes : List String := ["require-approval", "notify-only", "auto-approve", "deny"]

/-- What the form sends when nothing is changed: a picker its selected value, or the blank one; a select without a
selected option its first. -/
def PolicyFormValues.submitted (v : PolicyFormValues) : PolicyForm where
  clientName := some (v.client.getD "")
  secretName := some (v.secret.getD "")
  secretTag := some (v.tag.getD "")
  mechanism := (v.mechanism.getD .brokered).asStr
  outcome := (v.outcome.filter policyOutcomes.contains).getD "require-approval"
  priority := some v.priority
  origins := some v.origins
  methods := some v.methods
  pathPrefixes := some v.paths
  maxTtlSeconds := some v.maxTtl
  maxUses := some v.maxUses
  notAfter := some v.notAfter

/-- A picker sends what it was given. -/
theorem nonEmpty_picked (v : Option String) : nonEmpty (some ((nonEmpty v).getD "")) = nonEmpty v := by
  cases h : nonEmpty v with
  | none => exact nonEmpty_empty
  | some s =>
      obtain ⟨htrim, hne⟩ := nonEmpty_eq_some h
      exact nonEmpty_self htrim hne

theorem fromStrOpt_trim_asStr (m : Mechanism) : Mechanism.fromStrOpt (trim m.asStr) = some m := by
  cases m <;> decide +kernel

/-- The origins of the form, printed one a line and read back. -/
theorem parseOrigins_join {url : UrlHost} {os : List Origin} (h : ∀ o ∈ os, ∃ s, Origin.parse url s = .ok o) :
    parseOrigins url (fieldLines (some ("\n".intercalate (os.map originField)))) = .ok os := by
  have hhost : ∀ o ∈ os, Origin.HostParsed url o.host ∧ o.port ≠ some 0 := by
    intro o ho
    obtain ⟨s, hs⟩ := h o ho
    exact Origin.parse_eq_ok hs
  rw [fieldLines_join ?_, parseOrigins, List.mapM_map]
  · apply mapM_ok_self
    intro o ho
    rw [Function.comp_apply, parse_originField (hhost o ho).1 (hhost o ho).2]
    rfl
  · intro l hl
    obtain ⟨o, ho, rfl⟩ := List.mem_map.1 hl
    refine ⟨?_, fun c hc => (originField_plain (hhost o ho).1 hc).1⟩
    intro hnil
    have hread := parse_originField (hhost o ho).1 (hhost o ho).2
    rw [hnil] at hread
    cases hread

/-- Canonical prefixes, printed one a line and read back. -/
theorem parsePrefixes_join {ps : List String} (h : ∀ c ∈ ps, Canonical c) :
    parsePrefixes (fieldLines (some ("\n".intercalate (ps.map pathField)))) = .ok ps := by
  rw [fieldLines_join ?_, parsePrefixes, List.mapM_map]
  · apply mapM_ok_self
    intro c hc
    rw [Function.comp_apply, canonicalize_pathField (h c hc)]
    rfl
  · intro l hl
    obtain ⟨c, hc, rfl⟩ := List.mem_map.1 hl
    exact ⟨pathField_ne_empty (h c hc), pathField_plain⟩

section Edit
variable {url : UrlHost} {chrono : Chrono} {form : PolicyForm} {m : Mechanism} {os : List Origin} {p : Db.NewPolicy}

theorem Reads.canonical (h : form.Reads url chrono.parseDatetime m os p) : ∀ c ∈ p.pathPrefixes, Canonical c := by
  intro c hc
  obtain ⟨raw, hraw⟩ := exists_of_mapM_eq_ok h.pathPrefixes hc
  exact ⟨raw, mapError_eq_ok.1 hraw⟩

theorem Reads.outcome_kept (h : form.Reads url chrono.parseDatetime m os p) :
    trim (((some p.outcome).filter policyOutcomes.contains).getD "require-approval") = p.outcome := by
  have hknown : policyOutcomes.contains p.outcome = true := h.known
  rw [Option.filter_some, if_pos hknown, Option.getD_some, ← h.outcome, trim_trim]

/-- The form of the edit page is read as the columns of the row it was made from. -/
theorem reads_fromRow (hchrono : chrono.Documented) (h : form.Reads url chrono.parseDatetime m os p) (id : Uuid)
    (createdAt : DateTime) (managed : Bool) :
    (PolicyFormValues.fromRow url chrono (p.row id createdAt managed)).submitted.Reads url chrono.parseDatetime
      m os p where
  clientName := by
    show nonEmpty (some (p.clientName.getD "")) = p.clientName
    rw [← h.clientName, nonEmpty_picked]
  secretName := by
    show nonEmpty (some (p.secretName.getD "")) = p.secretName
    rw [← h.secretName, nonEmpty_picked]
  secretTag := by
    show nonEmpty (some (p.secretTag.getD "")) = p.secretTag
    rw [← h.secretTag, nonEmpty_picked]
  single := h.single
  mechanism := by
    have hsent : (PolicyFormValues.fromRow url chrono (p.row id createdAt managed)).submitted.mechanism = m.asStr := by
      show ((Mechanism.fromStrOpt p.mechanism).getD .brokered).asStr = m.asStr
      rw [h.mechanismText, Mechanism.fromStrOpt_asStr, Option.getD_some]
    rw [hsent, fromStrOpt_trim_asStr]
  mechanismText := h.mechanismText
  outcome := Reads.outcome_kept h
  known := h.known
  priority := parsePriority_toString h.priority
  origins := by
    show parseOrigins url (fieldLines (some (((Origin.listFromJson url p.origins).map
      fun os => "\n".intercalate (os.map originField)).getD ""))) = .ok os
    have hos := parseOrigins_spec h.origins
    rw [h.originsJson, Origin.listFromJson_listToJson hos, Option.map_some, Option.getD_some]
    exact parseOrigins_join hos
  originsJson := h.originsJson
  named := h.named
  methods := parseMethodsField_join (parseMethodsField_ok h.methods)
  pathPrefixes := parsePrefixes_join (Reads.canonical h)
  maxTtlSeconds := parsePositive_numberField fun _ hk => parsePositive_bounds (h.maxTtlSeconds.trans (congrArg _ hk))
  maxUses := parsePositive_numberField fun _ hk => parsePositive_bounds (h.maxUses.trans (congrArg _ hk))
  notAfter := parseNotAfter_notAfterField hchrono h.notAfter

end Edit

/-- Saving the edit page unchanged: whatever form a rule was accepted from, the page made from its row is accepted again,
as the same rule of whoever saved it; and the path field gives back every canonical prefix. -/
theorem policy_form_round_trips (url : UrlHost) (chrono : Chrono) (hchrono : chrono.Documented) :
    (∀ form createdBy p, parsePolicyForm url chrono.parseDatetime form createdBy = .ok p →
      ∀ id createdAt managed editor,
        parsePolicyForm url chrono.parseDatetime
          (PolicyFormValues.fromRow url chrono (p.row id createdAt managed)).submitted editor =
            .ok { p with createdBy := editor }) ∧
      ∀ c, Canonical c → parsePrefixes (fieldLines (some (pathField c))) = .ok [c] := by
  refine ⟨?_, ?_⟩
  · intro form createdBy p h id createdAt managed editor
    obtain ⟨-, m, os, hreads⟩ := parsePolicyForm_reads h
    exact (reads_fromRow hchrono hreads id createdAt managed).accepted editor
  · intro c hc
    have hone : "\n".intercalate [pathField c] = pathField c := rfl
    rw [← hone]
    exact @parsePrefixes_join [c] (by simpa using hc)

/-! A calendar of one instant, 2027-01-02 03:04:05, and a rule until then. -/

def untilText : String := "2027-01-02T03:04:05"

def untilTime : DateTime := DateTime.ofSeconds 1798859045

def untilChrono : Chrono where
  format _ fmt := if fmt = secondsFormat then untilText else "2027-01-02T03:04"
  parseFromStr raw fmt := if raw = untilText ∧ fmt = secondsFormat then some untilTime else none

theorem untilChrono_documented : untilChrono.Documented := by
  have hminutes : ∀ raw, untilChrono.parseFromStr raw minutesFormat = none := by
    intro raw
    refine if_neg fun hc => ?_
    exact absurd hc.2 (by decide)
  have hread : ∀ raw t, untilChrono.parseDatetime raw = some t → t = untilTime := by
    intro raw t h
    rw [Chrono.parseDatetime, hminutes raw, Option.none_or] at h
    have h : (if raw = untilText ∧ secondsFormat = secondsFormat then some untilTime else none) = some t := h
    split at h
    · exact (Option.some.inj h).symm
    · cases h
  refine ⟨?_, ?_, ?_, ?_⟩
  · intro raw t h hsec
    rw [hread raw t h] at hsec
    exact absurd hsec (by decide +kernel)
  · intro raw t h
    rw [hread raw t h]
    decide +kernel
  · intro raw t h
    exact hminutes _
  · intro raw t h fmt hfmt
    rw [hread raw t h]
    rcases List.mem_cons.1 hfmt with rfl | hfmt
    · decide +kernel
    · rw [List.mem_singleton.1 hfmt]
      decide +kernel

def untilForm : PolicyForm where
  clientName := some " agent "
  secretName := some ""
  secretTag := some "prod"
  mechanism := "brokered"
  outcome := "notify-only"
  priority := some "7"
  origins := some "api.example.com\r\nAPI.example.com:8443\r\n"
  methods := some "get, POST"
  pathPrefixes := some "/reports/100%25\n/%20"
  maxTtlSeconds := some "600"
  maxUses := some ""
  notAfter := some untilText

/-- The page of this rule, saved by somebody else. -/
theorem policy_form_round_trips_until :
    ∃ p, parsePolicyForm plainUrl untilChrono.parseDatetime untilForm "alice" = .ok p ∧
      p.pathPrefixes = ["/reports/100%", "/ "] ∧ p.notAfter = some untilTime ∧
      parsePolicyForm plainUrl untilChrono.parseDatetime
        (PolicyFormValues.fromRow plainUrl untilChrono (p.row 1 (DateTime.ofSeconds 0) false)).submitted "bob" =
          .ok { p with createdBy := "bob" } := by
  have heval : (parsePolicyForm plainUrl untilChrono.parseDatetime untilForm "alice").toOption.map
      (fun p => (p.pathPrefixes, p.notAfter)) = some (["/reports/100%", "/ "], some untilTime) := by decide +kernel
  cases hp : parsePolicyForm plainUrl untilChrono.parseDatetime untilForm "alice" with
  | error e =>
      rw [hp] at heval
      cases heval
  | ok p =>
      rw [hp] at heval
      simp only [Except.toOption, Option.map_some, Option.some.injEq, Prod.mk.injEq] at heval
      refine ⟨p, rfl, heval.1, heval.2, ?_⟩
      exact (policy_form_round_trips plainUrl untilChrono untilChrono_documented).1 untilForm "alice" p hp 1
        (DateTime.ofSeconds 0) false "bob"

end Keychute.Ui
