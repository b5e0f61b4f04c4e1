import Keychute.ProxyHandler
import Keychute.PathLanguage

/-!
# What is sent upstream

* `whatwgEncodePath` : what `Url::set_path` does to a path without dot segments or backslashes;
* `Sends` : a path text that decodes, once, to the canonical path that was checked;
* `wirePath_sends`, `plainPath_sends` : both encodings of the proxy are such texts;
* `sent_is_approved` : for the handler, the path that goes upstream and into the audit log is that of the checked call.
-/

namespace Keychute.Proxy
open Keychute.Api Keychute.Db Keychute.Http Keychute.Lib

/-! ## Encoders -/

/-- A text of ASCII bytes. -/
def asciiText (bs : List UInt8) : String := String.ofList (bs.map fun b => Char.ofNat b.toNat)

theorem bytes_asciiText {bs : List UInt8} (h : ∀ b ∈ bs, b.toNat < 128) : bytes (asciiText bs) = bs := by
  rw [asciiText, bytes_ofList, List.flatMap_map]
  have hone : ∀ b ∈ bs, String.utf8EncodeChar (Char.ofNat b.toNat) = [b] := by
    intro b hb
    have hval : (Char.ofNat b.toNat).toNat = b.toNat := by
      rw [Char.ofNat, dif_pos (Or.inl (by have := h b hb; omega))]
      rfl
    rw [utf8EncodeChar_ascii (by rw [hval]; have := h b hb; omega), hval]
    simp
  rw [List.flatMap_congr hone]
  simp

/-- What the WHATWG path percent-encode set leaves alone. -/
def whatwgPathKeep (b : UInt8) : Bool :=
  32 < b && b < 127 && !([34, 35, 60, 62, 63, 94, 96, 123, 125].contains b)

def whatwgEncodePath (path : String) : String := asciiText (percentEncode whatwgPathKeep (bytes path))

theorem percentEncode_ascii {keep : UInt8 → Bool} (hkeep : ∀ b, keep b = true → b.toNat < 128) (bs : List UInt8) :
    ∀ b ∈ percentEncode keep bs, b.toNat < 128 := by
  have hdig : ∀ n : Fin 256, (upperHexDigit (n.val / 16)).toNat < 128 ∧ (upperHexDigit (n.val % 16)).toNat < 128 := by
    decide +kernel
  intro b hb
  obtain ⟨x, -, hb⟩ := List.mem_flatMap.1 hb
  split at hb
  · rename_i hx
    rw [List.mem_singleton.1 hb]
    exact hkeep x hx
  · obtain ⟨h1, h2⟩ : (upperHexDigit (x.toNat / 16)).toNat < 128 ∧ (upperHexDigit (x.toNat % 16)).toNat < 128 :=
      hdig x.toBitVec.toFin
    simp only [List.mem_cons, List.not_mem_nil, or_false] at hb
    rcases hb with rfl | rfl | rfl
    · decide
    · exact h1
    · exact h2

theorem percentEncode_eq_self {keep : UInt8 → Bool} {bs : List UInt8} (h : ∀ b ∈ bs, keep b = true) :
    percentEncode keep bs = bs := by
  induction bs with
  | nil => rfl
  | cons b bs ih =>
      rw [percentEncode_cons, if_pos (h b (List.mem_cons_self ..)), ih fun x hx => h x (List.mem_cons_of_mem _ hx)]
      rfl

/-! ## Paths that decode to what was checked -/

/-- The text `path` stands for the canonical path `c`: one decode gives `c`, the checks accept it as `c`, and a prefix
matches what it stands for exactly when it matches `c`. -/
structure Sends (c path : String) : Prop where
  decoded : percentDecode (bytes path) = bytes c
  canonical : canonicalize path = .ok c
  matched : ∀ pre c', canonicalize path = .ok c' → prefixMatches pre c' = prefixMatches pre c

/-- Bytes encoded, in front of any rest. What is kept is not an escape, and what is escaped is allowed to be. -/
theorem decodeBytes_percentEncode_append {keep : UInt8 → Bool} {bs : List UInt8}
    (hpercent : percent ∈ bs → keep percent = false) (hslash : slash ∈ bs → keep slash = true) (hbs : backslash ∉ bs)
    (rest : List UInt8) :
    decodeBytes (percentEncode keep bs ++ rest) = (bs ++ ·) <$> decodeBytes rest := by
  induction bs with
  | nil =>
      rw [percentEncode, List.flatMap_nil, List.nil_append]
      cases decodeBytes rest <;> rfl
  | cons b bs ih =>
      simp only [List.mem_cons, not_or] at hbs
      have htail := ih (fun h => hpercent (List.mem_cons_of_mem _ h)) (fun h => hslash (List.mem_cons_of_mem _ h)) hbs.2
      rw [percentEncode_cons, List.append_assoc]
      split
      · rename_i hb
        have hp : b ≠ percent := by
          rintro rfl
          rw [hpercent List.mem_cons_self] at hb
          cases hb
        rw [List.singleton_append, decodeBytes_cons hp (Ne.symm hbs.1), htail]
        cases decodeBytes rest <;> rfl
      · rename_i hb
        have hs : b ≠ slash := by
          rintro rfl
          exact hb (hslash List.mem_cons_self)
        have hesc := decodeEscape_eq_ok.2 ⟨escaped?_upperHexDigit b, hs, Ne.symm hbs.1⟩
        rw [List.cons_append, List.cons_append, List.cons_append, List.nil_append, decodeBytes, if_pos rfl, hesc]
        simp only [htail]
        cases decodeBytes rest <;> rfl

theorem decodeBytes_percentEncode {keep : UInt8 → Bool} (hpercent : keep percent = false) (hslash : keep slash = true)
    {bs : List UInt8} (hbs : backslash ∉ bs) :
    decodeBytes (percentEncode keep bs) = .ok bs := by
  have h := decodeBytes_percentEncode_append (fun _ => hpercent) (fun _ => hslash) hbs []
  rw [List.append_nil] at h
  rw [h, decodeBytes]
  simp [Functor.map, Except.map]

/-- An encoding that keeps `/` and escapes `%` stands for the path it was made from. -/
theorem sends_of_percentEncode {keep : UInt8 → Bool} (hpercent : keep percent = false) (hslash : keep slash = true)
    {c path : String} (hc : Canonical c) (hpath : bytes path = percentEncode keep (bytes c)) :
    Sends c path := by
  have hcan : canonicalize path = .ok c := by
    obtain ⟨raw, hraw⟩ := hc
    obtain ⟨-, hdec, hctl, hdot, hdbl⟩ := canonicalize_eq_ok.1 hraw
    have hhead := Canonical.checked ⟨raw, hraw⟩ |>.head
    refine canonicalize_eq_ok.2 ⟨?_, ?_, hctl, hdot, hdbl⟩
    · cases hb : bytes c with
      | nil => rw [hb] at hhead; cases hhead
      | cons b bs =>
          rw [hb] at hhead
          obtain rfl : b = slash := by simpa using hhead
          rw [hpath, hb, percentEncode_cons, if_pos hslash]
          rfl
    · rw [hpath]
      exact decodeBytes_percentEncode hpercent hslash (decodeBytes_no_backslash hdec)
  refine ⟨?_, hcan, ?_⟩
  · rw [hpath]
    exact percentDecode_percentEncode hpercent (bytes c)
  · intro pre c' h
    rw [hcan] at h
    cases h
    rfl

/-! ### The signed path -/

/-- The bytes that `UriEncode` keeps in a path. -/
def wireKeep (b : UInt8) : Bool := Sigv4.isUnreserved b || b == slash

/-- A text of unreserved characters, `/`, and escapes in upper case. -/
def WireText (path : String) : Prop :=
  ∃ parts : List (List UInt8), bytes path = parts.flatten ∧ ∀ part ∈ parts,
    (∃ b, part = [b] ∧ (Sigv4.isUnreserved b = true ∨ b = slash)) ∨
      ∃ x y, x < 16 ∧ y < 16 ∧ part = [percent, upperHexDigit x, upperHexDigit y]

theorem uriEncode_eq (s : String) : Sigv4.uriEncode s true = asciiText (percentEncode wireKeep (bytes s)) := by
  have hdig : ∀ n : Fin 256, [ '%', Sigv4.upperHex (n.val / 16), Sigv4.upperHex (n.val % 16)] =
      [percent, upperHexDigit (n.val / 16), upperHexDigit (n.val % 16)].map fun b => Char.ofNat b.toNat := by
    decide +kernel
  unfold Sigv4.uriEncode asciiText percentEncode
  rw [List.map_flatMap]
  congr 1
  refine List.flatMap_congr fun b _ => ?_
  unfold wireKeep
  rw [Bool.true_and]
  split
  · rfl
  · exact hdig b.toBitVec.toFin

theorem wireKeep_ascii (b : UInt8) (h : wireKeep b = true) : b.toNat < 128 := by
  have key : ∀ n : Fin 256, wireKeep ⟨⟨n⟩⟩ = true → n.val < 128 := by decide +kernel
  exact key b.toBitVec.toFin h

theorem bytes_wirePath {c : String} (hc : Canonical c) :
    bytes (Sigv4.wirePath c) = percentEncode wireKeep (bytes c) := by
  have hne : c.toList.isEmpty = false := by
    cases hl : c.toList with
    | nil =>
        have hhead := hc.checked.head
        rw [bytes_eq_flatMap, hl] at hhead
        cases hhead
    | cons a l => rfl
  rw [Sigv4.wirePath, hne, if_neg Bool.false_ne_true, uriEncode_eq,
    bytes_asciiText (percentEncode_ascii wireKeep_ascii (bytes c))]

theorem wirePath_sends {c : String} (hc : Canonical c) : Sends c (Sigv4.wirePath c) :=
  sends_of_percentEncode (by decide) (by decide) hc (bytes_wirePath hc)

theorem wirePath_text {c : String} (hc : Canonical c) : WireText (Sigv4.wirePath c) := by
  refine ⟨(bytes c).map fun b => if wireKeep b then [b]
    else [37, upperHexDigit (b.toNat / 16), upperHexDigit (b.toNat % 16)], ?_, ?_⟩
  · rw [bytes_wirePath hc, percentEncode, List.flatMap_def]
  · intro part hpart
    obtain ⟨b, -, rfl⟩ := List.mem_map.1 hpart
    have hb : b.toNat < 256 := b.toNat_lt
    split
    · rename_i hkeep
      refine Or.inl ⟨b, rfl, ?_⟩
      simpa [wireKeep] using hkeep
    · exact Or.inr ⟨b.toNat / 16, b.toNat % 16, by omega, by omega, rfl⟩

/-- `set_path` leaves the signed path as it is. -/
theorem whatwgEncodePath_wirePath {c : String} (hc : Canonical c) :
    whatwgEncodePath (Sigv4.wirePath c) = Sigv4.wirePath c := by
  have hkeep : ∀ n : Fin 256, wireKeep ⟨⟨n⟩⟩ = true → whatwgPathKeep ⟨⟨n⟩⟩ = true := by decide +kernel
  have hdigit : ∀ n : Fin 16, whatwgPathKeep (upperHexDigit n.val) = true := by decide +kernel
  have hall : ∀ b ∈ bytes (Sigv4.wirePath c), whatwgPathKeep b = true := by
    intro b hb
    rw [bytes_wirePath hc] at hb
    obtain ⟨x, -, hb⟩ := List.mem_flatMap.1 hb
    have hx256 : x.toNat < 256 := x.toNat_lt
    split at hb
    · rename_i hx
      rw [List.mem_singleton.1 hb]
      exact hkeep x.toBitVec.toFin hx
    · simp only [List.mem_cons, List.not_mem_nil, or_false] at hb
      rcases hb with rfl | rfl | rfl
      · decide
      · exact hdigit ⟨x.toNat / 16, by omega⟩
      · exact hdigit ⟨x.toNat % 16, by omega⟩
  rw [← bytes_inj, whatwgEncodePath, percentEncode_eq_self hall]
  apply bytes_asciiText
  intro b hb
  rw [bytes_wirePath hc] at hb
  exact percentEncode_ascii wireKeep_ascii (bytes c) b hb

/-! ### The path of the other kinds -/

/-- `replace('%', "%25")`. -/
def escapePercent (path : String) : String :=
  String.ofList (path.toList.flatMap fun c => if c = '%' then ['%', '2', '5'] else [c])

/-- What `set_path` makes of a canonical path whose `%` were escaped first. -/
def plainPath (c : String) : String := whatwgEncodePath (escapePercent c)

theorem bytes_escapePercent (s : String) :
    bytes (escapePercent s) = (bytes s).flatMap fun b => if b = percent then [percent, 50, 53] else [b] := by
  rw [escapePercent, bytes_ofList, bytes_eq_flatMap, List.flatMap_assoc, List.flatMap_assoc]
  refine List.flatMap_congr fun c _ => ?_
  by_cases hc : c = '%'
  · subst hc
    decide +kernel
  · rw [if_neg hc, List.flatMap_singleton]
    -- no byte of another character is that of `%`
    have hne : ∀ b ∈ String.utf8EncodeChar c, b ≠ percent := by
      intro b hb hbp
      by_cases hascii : c.toNat ≤ 127
      · rw [utf8EncodeChar_ascii hascii, List.mem_singleton] at hb
        have hval : c.toNat = 37 := by
          have hn : (UInt8.ofNat c.toNat).toNat = (37 : UInt8).toNat := congrArg UInt8.toNat (hb.symm.trans hbp)
          rw [UInt8.toNat_ofNat', Nat.mod_eq_of_lt (by omega)] at hn
          exact hn
        exact hc (by rw [← Char.ofNat_toNat c, hval])
      · have := utf8EncodeChar_ge hascii b hb
        rw [hbp] at this
        exact absurd this (by decide)
    rw [List.flatMap_congr fun b hb => if_neg (hne b hb)]
    simp

/-- The bytes that both steps keep. -/
def plainKeep (b : UInt8) : Bool := whatwgPathKeep b && b != percent

theorem plainKeep_ascii (b : UInt8) (h : plainKeep b = true) : b.toNat < 128 := by
  simp only [plainKeep, whatwgPathKeep, Bool.and_eq_true, decide_eq_true_eq, UInt8.lt_iff_toNat_lt] at h
  exact lt_trans h.1.1.2 (by decide)

theorem bytes_plainPath (c : String) : bytes (plainPath c) = percentEncode plainKeep (bytes c) := by
  have hbytes : percentEncode whatwgPathKeep (bytes (escapePercent c)) = percentEncode plainKeep (bytes c) := by
    rw [bytes_escapePercent, percentEncode, percentEncode, List.flatMap_assoc]
    refine List.flatMap_congr fun b _ => ?_
    by_cases hb : b = percent
    · subst hb
      decide +kernel
    · rw [if_neg hb, List.flatMap_singleton, plainKeep]
      simp [hb]
  rw [plainPath, whatwgEncodePath, hbytes, bytes_asciiText (percentEncode_ascii plainKeep_ascii (bytes c))]

theorem plainPath_sends {c : String} (hc : Canonical c) : Sends c (plainPath c) :=
  sends_of_percentEncode (by decide) (by decide) hc (bytes_plainPath c)

/-! ## The handler -/

/-- The request target of a URL: what follows the authority on the request line. -/
def Url.target (u : Url) : String :=
  match u.query with
  | some q => u.path ++ "?" ++ q
  | none => u.path

theorem admitCall_path {c : Constraints} {method rawPath : String} {call : Call}
    (h : admitCall c method rawPath = .ok call) :
    ∃ rest, proxySuffix rawPath = some rest ∧ canonicalize rest = .ok call.path := by
  unfold admitCall at h
  simp only at h
  split_ifs at h
  split at h
  · cases h
  rename_i rest hrest
  split at h
  · cases h
  rename_i path hpath
  split_ifs at h
  split at h
  · injection h with h
    refine ⟨rest, hrest, ?_⟩
    rw [← h]
    exact hpath
  · cases h

/-- An admitted call was checked under the canonical form of the caller's path, and its URL carries that path. -/
theorem admission_path {env : ProxyEnv} (henc : env.url.encodePath = whatwgEncodePath) {v : Views} {grantId : Uuid}
    {req : ProxyRequest} {a : Admitted} (h : admission env v grantId req = .ok a) :
    (∃ rest, proxySuffix req.rawPath = some rest ∧ canonicalize rest = .ok a.call.path) ∧
      Sends a.call.path a.sentUrl.path := by
  simp only [admission, bind_eq_ok, okOr_eq_ok, refuseIf_eq_ok] at h
  obtain ⟨client, -, grant, -, -, -, found, -, secret, -, -, -, call, hcall, body, -, version, -, spec, -, name, -,
    -, -, sentUrl, hurl, ha⟩ := h
  cases ha
  refine ⟨admitCall_path hcall, ?_⟩
  unfold outboundUrl at hurl
  rw [Option.map_eq_some_iff] at hurl
  obtain ⟨u, -, rfl⟩ := hurl
  simp only [henc]
  split
  · rw [whatwgEncodePath_wirePath call.canonical]
    exact wirePath_sends call.canonical
  · exact plainPath_sends call.canonical

theorem handleInner_cases {env : ProxyEnv} {v : Views} {grantId : Uuid} {req : ProxyRequest} {a : Admitted}
    (h : admission env v grantId req = .ok a) :
    (∀ opened upstream, (handleInner env v grantId req opened upstream).2 = v.use) ∨
    ∃ row, row.path = some a.sentUrl.target ∧
      ∀ opened upstream, (handleInner env v grantId req opened upstream).2.audit = v.use.audit ++ [row] := by
  by_cases hs : Spendable v.use grantId env.now
  · obtain ⟨g, -, hrun⟩ := handleInner_spent h hs
    refine Or.inr ⟨attemptRow env.now .proxyAttempt g (some a.version.id) (some a.target) none, rfl, ?_⟩
    intro opened upstream
    rw [hrun]
    rfl
  · exact Or.inl (handleInner_unspent h hs)

/-- The exchange is with the URL of the admitted call and no other. -/
theorem handleInner_congr {env : ProxyEnv} {v : Views} {grantId : Uuid} {req : ProxyRequest} {a : Admitted}
    (h : admission env v grantId req = .ok a) {upstream upstream' : Upstream}
    (hsame : ∀ m hs b, upstream m a.sentUrl hs b = upstream' m a.sentUrl hs b) (opened : Option Blob) :
    handleInner env v grantId req opened upstream = handleInner env v grantId req opened upstream' := by
  have hforward : forward upstream a = forward upstream' a := by
    funext outbound
    unfold forward
    simp only [hsame]
  simp only [handleInner, h, hforward]

/-- What is sent is what was approved. -/
theorem sent_is_approved (env : ProxyEnv) (henc : env.url.encodePath = whatwgEncodePath) :
    (∀ raw c, canonicalize raw = .ok c →
      Sends c (Sigv4.wirePath c) ∧ WireText (Sigv4.wirePath c) ∧ Sends c (plainPath c)) ∧
    ∀ v grantId req a, admission env v grantId req = .ok a →
      (∃ rest, proxySuffix req.rawPath = some rest ∧ canonicalize rest = .ok a.call.path) ∧
      Sends a.call.path a.sentUrl.path ∧
      (∀ opened upstream upstream', (∀ m hs b, upstream m a.sentUrl hs b = upstream' m a.sentUrl hs b) →
        handleInner env v grantId req opened upstream = handleInner env v grantId req opened upstream') ∧
      ∀ opened upstream, (handleInner env v grantId req opened upstream).2.audit = v.use.audit ∨
        ∃ row, row.path = some a.sentUrl.target ∧
          (handleInner env v grantId req opened upstream).2.audit = v.use.audit ++ [row] := by
  refine ⟨?_, ?_⟩
  · intro raw c h
    have hc : Canonical c := ⟨raw, h⟩
    exact ⟨wirePath_sends hc, wirePath_text hc, plainPath_sends hc⟩
  · intro v grantId req a h
    obtain ⟨hraw, hsends⟩ := admission_path henc h
    refine ⟨hraw, hsends, fun opened upstream upstream' hsame => handleInner_congr h hsame opened, ?_⟩
    intro opened upstream
    rcases handleInner_cases h with hstay | ⟨row, hpath, haudit⟩
    · exact Or.inl (congrArg Store.audit (hstay opened upstream))
    · exact Or.inr ⟨row, hpath, haudit opened upstream⟩

/-- The `url` crate on addresses that are a scheme and a host name. -/
def hostUrlLib : UrlLib := { plainUrlLib with encodePath := whatwgEncodePath }

theorem sent_is_approved_spaces :
    Sends "/a b/100%?" (plainPath "/a b/100%?") ∧ plainPath "/a b/100%?" = "/a%20b/100%25%3F" := by
  have hraw : canonicalize "/a%20b/100%25%3f" = .ok "/a b/100%?" := by decide +kernel
  exact ⟨((sent_is_approved { bucketEnv with url := hostUrlLib } rfl).1 _ _ hraw).2.2, by decide +kernel⟩

end Keychute.Proxy
