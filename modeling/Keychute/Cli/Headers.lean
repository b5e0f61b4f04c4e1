import Keychute.Lib.Segments
import Keychute.ProxyHandler

/-!
# The caller's headers, filtered twice (`cli/src/curl.rs`, `server/src/proxy.rs`)

* `parseHeader`, `readHeaders`, `forwarded` : the `-H` lines, from the command line to the request to the server;
* `HeaderValue.Names` : what it is for a `Connection` value to name a header, whatever bytes it holds;
* `mem_connectionNamed`, `mem_connectionNamed_fields` : what the server reads of these values, and what the CLI does;
* `filters_agree_iff` : when the server removes exactly what it should, and the CLI exactly what the server would.
-/

namespace Keychute.Http

/-! ## What a `Connection` value names -/

/-- White space of the protocol. -/
def owsByte (b : UInt8) : Bool := b == 32 || b == 9

/-- The comma-separated tokens of a value, trimmed, in lower case. -/
def HeaderValue.tokens (v : HeaderValue) : List (List UInt8) :=
  (v.bytes.splitOn 44).map fun t => ((t.dropWhile owsByte).rdropWhile owsByte).map lowerByte

/-- The name is a token of the value. -/
def HeaderValue.Names (v : HeaderValue) (name : HeaderName) : Prop := Keychute.bytes name.str ∈ v.tokens

instance (v : HeaderValue) (name : HeaderName) : Decidable (v.Names name) :=
  inferInstanceAs (Decidable (_ ∈ v.tokens))

theorem visibleChar_eq_comma (b : UInt8) : visibleChar b = ',' ↔ b = 44 := by
  have key : ∀ n : Fin 256, visibleChar ⟨⟨n⟩⟩ = ',' ↔ (⟨⟨n⟩⟩ : UInt8) = 44 := by decide +kernel
  exact key b.toBitVec.toFin

theorem isWhitespace_visibleChar {b : UInt8} (h : visibleByte b = true) : isWhitespace (visibleChar b) = owsByte b := by
  have key : ∀ n : Fin 256, visibleByte ⟨⟨n⟩⟩ = true → isWhitespace (visibleChar ⟨⟨n⟩⟩) = owsByte ⟨⟨n⟩⟩ := by
    decide +kernel
  exact key b.toBitVec.toFin h

theorem dropWhile_visible {bs : List UInt8} (h : ∀ b ∈ bs, visibleByte b = true) :
    (bs.map visibleChar).dropWhile isWhitespace = (bs.dropWhile owsByte).map visibleChar := by
  induction bs with
  | nil => rfl
  | cons b bs ih =>
      rw [List.forall_mem_cons] at h
      rw [List.map_cons, List.dropWhile_cons, List.dropWhile_cons, isWhitespace_visibleChar h.1]
      split
      · exact ih h.2
      · rfl

theorem trim_visible {bs : List UInt8} (h : ∀ b ∈ bs, visibleByte b = true) :
    trim (String.ofList (bs.map visibleChar)) =
      String.ofList (((bs.dropWhile owsByte).rdropWhile owsByte).map visibleChar) := by
  have hrest : ∀ b ∈ (bs.dropWhile owsByte).reverse, visibleByte b = true := by
    intro b hb
    exact h b ((List.dropWhile_suffix owsByte).subset (List.mem_reverse.1 hb))
  rw [trim, String.toList_ofList, dropWhile_visible h, List.rdropWhile, List.rdropWhile, ← List.map_reverse,
    dropWhile_visible hrest, ← List.map_reverse]

/-- What the code reads off a value that is text is what the value names. -/
theorem names_visible {v : HeaderValue} (h : v.bytes.all visibleByte = true) (name : HeaderName) :
    name.str ∈ (((String.ofList (v.bytes.map visibleChar)).toList.splitOn ',').map fun t =>
        toAsciiLowercase (trim (String.ofList t))) ↔ v.Names name := by
  have hmem : ∀ t ∈ v.bytes.splitOn 44, ∀ b ∈ t, visibleByte b = true := by
    intro t ht b hb
    exact List.all_eq_true.1 h b (Lib.mem_of_mem_splitOn ht hb)
  have hpiece : ∀ t ∈ v.bytes.splitOn 44, (toAsciiLowercase (trim (String.ofList (t.map visibleChar))) = name.str ↔
      ((t.dropWhile owsByte).rdropWhile owsByte).map lowerByte = bytes name.str) := by
    intro t ht
    have hsub : ∀ b ∈ (t.dropWhile owsByte).rdropWhile owsByte, visibleByte b = true := by
      intro b hb
      exact hmem t ht b ((List.dropWhile_suffix owsByte).subset ((List.rdropWhile_prefix owsByte _).subset hb))
    rw [← bytes_inj, bytes_toAsciiLowercase, trim_visible (hmem t ht), bytes_visible hsub]
  unfold HeaderValue.Names HeaderValue.tokens
  rw [String.toList_ofList, Lib.splitOn_map visibleChar visibleChar_eq_comma, List.map_map, List.mem_map, List.mem_map]
  constructor
  · rintro ⟨t, ht, heq⟩
    exact ⟨t, ht, (hpiece t ht).1 heq⟩
  · rintro ⟨t, ht, heq⟩
    exact ⟨t, ht, (hpiece t ht).2 heq⟩

theorem HeaderName.ne_empty (n : HeaderName) : n.str.toList.isEmpty = false := by
  have h := n.valid
  simp only [isHeaderName, Bool.and_eq_true, Bool.not_eq_true'] at h
  cases hl : n.str.toList with
  | nil =>
      rw [bytes_eq_flatMap, hl] at h
      exact absurd h.1.1 (by decide)
  | cons c cs => rfl

end Keychute.Http

namespace Keychute.Proxy
open Keychute.Api Keychute.Db Keychute.Http

/-- The values of `Connection`. -/
def connectionValues (headers : HeaderMap) : List HeaderValue := HeaderMap.getAll headers "connection"

/-- The server reads those that are text. -/
theorem mem_connectionNamed {headers : HeaderMap} {name : HeaderName} :
    name.str ∈ connectionNamed headers ↔
      ∃ v ∈ connectionValues headers, v.bytes.all visibleByte = true ∧ v.Names name := by
  unfold connectionNamed connectionValues
  rw [List.mem_filter, List.mem_flatMap]
  constructor
  · rintro ⟨⟨s, hs, hname⟩, -⟩
    obtain ⟨v, hv, htext⟩ := List.mem_filterMap.1 hs
    unfold HeaderValue.toStr at htext
    split at htext
    · rename_i hvisible
      obtain rfl := Option.some.inj htext
      exact ⟨v, hv, hvisible, (names_visible hvisible name).1 hname⟩
    · cases htext
  · rintro ⟨v, hv, hvisible, hnames⟩
    refine ⟨⟨String.ofList (v.bytes.map visibleChar), ?_, (names_visible hvisible name).2 hnames⟩, ?_⟩
    · refine List.mem_filterMap.2 ⟨v, hv, ?_⟩
      unfold HeaderValue.toStr
      rw [if_pos hvisible]
      rfl
    · rw [HeaderName.ne_empty]
      rfl

/-- The header would go upstream but for `Connection`. -/
structure Forwardable (injected : List String) (name : HeaderName) : Prop where
  strip : name.str ∉ stripList
  family : startsWith "x-forwarded-" name.str = false
  injected : name.str ∉ injected

instance (injected : List String) (name : HeaderName) : Decidable (Forwardable injected name) :=
  decidable_of_iff (name.str ∉ stripList ∧ startsWith "x-forwarded-" name.str = false ∧ name.str ∉ injected)
    ⟨fun ⟨hstrip, hfamily, hinjected⟩ => ⟨hstrip, hfamily, hinjected⟩, fun ⟨hstrip, hfamily, hinjected⟩ =>
      ⟨hstrip, hfamily, hinjected⟩⟩

/-- The header is one to remove. -/
def Removed (caller : HeaderMap) (injected : List String) (name : HeaderName) : Prop :=
  name.str ∈ stripList ∨ startsWith "x-forwarded-" name.str = true ∨ name.str ∈ injected ∨
    ∃ v ∈ connectionValues caller, v.Names name

instance (caller : HeaderMap) (injected : List String) (name : HeaderName) : Decidable (Removed caller injected name) :=
  inferInstanceAs (Decidable (_ ∨ _ ∨ _ ∨ _))

/-- Two filters of one list agree when their tests agree on its elements. -/
theorem filter_eq_filter_iff {α : Type} {p q : α → Bool} {l : List α} :
    l.filter p = l.filter q ↔ ∀ a ∈ l, p a = q a := by
  constructor
  · intro h a ha
    have hmem : a ∈ l.filter p ↔ a ∈ l.filter q := by rw [h]
    simp only [List.mem_filter, ha, true_and] at hmem
    exact Bool.eq_iff_iff.2 hmem
  · exact List.filter_congr

/-- Every name that `Connection` gives in a value that is not text, it gives in one that is text too. -/
def NamedInText (caller : HeaderMap) (injected : List String) : Prop :=
  ∀ h ∈ caller, Forwardable injected h.1 → ∀ v ∈ connectionValues caller, v.Names h.1 →
    ∃ w ∈ connectionValues caller, w.bytes.all visibleByte = true ∧ w.Names h.1

theorem buildOutboundHeaders_iff (caller : HeaderMap) (injected : List String) :
    buildOutboundHeaders caller injected = caller.filter (fun h => !decide (Removed caller injected h.1)) ↔
      NamedInText caller injected := by
  unfold buildOutboundHeaders
  rw [filter_eq_filter_iff]
  have hkept : ∀ name : HeaderName, (stripList.contains name.str || startsWith "x-forwarded-" name.str ||
      (connectionNamed caller).contains name.str || injected.contains name.str) = false ↔
      Forwardable injected name ∧ name.str ∉ connectionNamed caller := by
    intro name
    simp only [Bool.or_eq_false_iff, List.contains_eq_mem, decide_eq_false_iff_not]
    constructor
    · rintro ⟨⟨⟨hstrip, hfamily⟩, hnamed⟩, hinjected⟩
      exact ⟨⟨hstrip, hfamily, hinjected⟩, hnamed⟩
    · rintro ⟨⟨hstrip, hfamily, hinjected⟩, hnamed⟩
      exact ⟨⟨⟨hstrip, hfamily⟩, hnamed⟩, hinjected⟩
  have hleft : ∀ name : HeaderName, ¬ Removed caller injected name ↔
      Forwardable injected name ∧ ∀ v ∈ connectionValues caller, ¬ v.Names name := by
    intro name
    simp only [Removed, not_or, not_exists, not_and, Bool.not_eq_true]
    constructor
    · rintro ⟨hstrip, hfamily, hinjected, hnames⟩
      exact ⟨⟨hstrip, hfamily, hinjected⟩, hnames⟩
    · rintro ⟨⟨hstrip, hfamily, hinjected⟩, hnames⟩
      exact ⟨hstrip, hfamily, hinjected, hnames⟩
  constructor
  · intro hsame h hh hforward v hv hnames
    by_contra hno
    have hcode := (hkept h.1).2 ⟨hforward, fun hnamed => hno (mem_connectionNamed.1 hnamed)⟩
    have hspec := hsame h hh
    rw [hcode, Bool.not_false, eq_comm, Bool.not_eq_true', decide_eq_false_iff_not] at hspec
    exact ((hleft h.1).1 hspec).2 v hv hnames
  · intro htext h hh
    rw [Bool.not_inj_iff, Bool.eq_iff_iff, ← not_iff_not, Bool.not_eq_true, hkept h.1, decide_eq_true_iff, hleft h.1]
    constructor
    · rintro ⟨hforward, hnamed⟩
      refine ⟨hforward, ?_⟩
      intro v hv hnames
      exact hnamed (mem_connectionNamed.2 (htext h hh hforward v hv hnames))
    · rintro ⟨hforward, hnone⟩
      refine ⟨hforward, ?_⟩
      intro hnamed
      obtain ⟨v, hv, -, hnames⟩ := mem_connectionNamed.1 hnamed
      exact hnone v hv hnames

/-! ## After the injection -/

/-- The names that an injection sets. -/
def InjectionSpec.sets : InjectionSpec → List String
  | .header name => [toAsciiLowercase name]
  | .awsSigV4 _ => ["authorization", "x-amz-date", "x-amz-content-sha256"]
  | _ => ["authorization"]

theorem validate_sets {spec : InjectionSpec} {name : HeaderName} (h : spec.validate = .ok name)
    (hsigns : spec.signs = false) : spec.sets = [name.str] := by
  cases spec with
  | bearer =>
      cases h
      rfl
  | header text =>
      simp only [InjectionSpec.validate] at h
      split at h
      · cases h
      · rw [okOr_eq_ok] at h
        unfold HeaderName.fromStr at h
        split at h
        · cases h
          rfl
        · cases h
  | basicPassword username =>
      simp only [InjectionSpec.validate] at h
      split at h
      · cases h
      · cases h
        rfl
  | awsSigV4 scope => cases hsigns

theorem injectionHeader_name {spec : InjectionSpec} {secret : Blob} {name : HeaderName} {value : HeaderValue}
    (h : injectionHeader spec secret = .ok (name, value)) : spec.validate = .ok name ∧ spec.signs = false := by
  have hvalue : ∀ {n : HeaderName} {bs : Blob}, ((fun v => (n, v)) <$>
      okOr (HeaderValue.fromBytes bs) .badCredentialEncoding : Except ApiFailure (HeaderName × HeaderValue)) =
        .ok (name, value) → n = name := by
    intro n bs hmap
    cases hbs : HeaderValue.fromBytes bs with
    | none => rw [hbs] at hmap; cases hmap
    | some v => rw [hbs] at hmap; cases hmap; rfl
  unfold injectionHeader at h
  rw [bind_eq_ok] at h
  obtain ⟨n, hn, h⟩ := h
  cases spec with
  | awsSigV4 scope => cases h
  | bearer =>
      simp only at h
      split at h
      · cases h
      · exact ⟨by rw [hn, hvalue h], rfl⟩
  | header text =>
      simp only at h
      split at h
      · cases h
      · exact ⟨by rw [hn, hvalue h], rfl⟩
  | basicPassword username => exact ⟨by rw [hn, hvalue h], rfl⟩

/-- After the injection each name it sets has one value. -/
theorem inject_sets {env : ProxyEnv} {req : ProxyRequest} {a : Admitted} {plaintext : Blob} {outbound : HeaderMap}
    (h : inject env req a plaintext = .ok outbound) :
    ∀ name ∈ a.spec.sets, (HeaderMap.getAll outbound name).length = 1 := by
  have hplain : ∀ spec : InjectionSpec, (injectionHeader spec plaintext >>= fun header =>
      pure (HeaderMap.insert (buildOutboundHeaders req.headers [header.1.str]) header.1 header.2)) = .ok outbound →
        ∀ name ∈ spec.sets, (HeaderMap.getAll outbound name).length = 1 := by
    intro spec hrun
    obtain ⟨⟨n, v⟩, hheader, hout⟩ := bind_eq_ok.1 hrun
    obtain ⟨hvalid, hsigns⟩ := injectionHeader_name hheader
    cases hout
    rw [validate_sets hvalid hsigns, List.forall_mem_singleton, HeaderMap.getAll_insert_self (by rfl)]
    rfl
  unfold inject at h
  cases hspec : a.spec with
  | awsSigV4 scope =>
      rw [hspec] at h
      obtain ⟨signed, hsigned, hout⟩ := bind_eq_ok.1 h
      simp only [sigv4Headers, bind_eq_ok] at hsigned
      obtain ⟨_, -, _, -, auth, -, date, -, sha, -, hlist⟩ := hsigned
      cases hlist
      cases hout
      simp only [InjectionSpec.sets, List.forall_mem_cons, List.foldl_cons, List.foldl_nil]
      refine ⟨?_, ?_, ?_, fun _ hnil => absurd hnil List.not_mem_nil⟩
      · rw [HeaderMap.getAll_insert_of_ne (by decide +kernel), HeaderMap.getAll_insert_of_ne (by decide +kernel),
          HeaderMap.getAll_insert_self (by rfl)]
        rfl
      · rw [HeaderMap.getAll_insert_of_ne (by decide +kernel), HeaderMap.getAll_insert_self (by rfl)]
        rfl
      · rw [HeaderMap.getAll_insert_self (by rfl)]
        rfl
  | bearer =>
      rw [hspec] at h
      exact hplain _ h
  | header text =>
      rw [hspec] at h
      exact hplain _ h
  | basicPassword username =>
      rw [hspec] at h
      exact hplain _ h

end Keychute.Proxy

namespace Keychute.Cli
open Keychute.Http Keychute.Proxy

/-! ## The `-H` lines -/

/-- Why the lines are refused. Each is a sentence that quotes the line. -/
inductive HeaderError where
  | malformed (line : String)
  | emptyName (line : String)
  | invalidName (line : String)
  | invalidValue (line : String)
  | unremovable (line : String) (why : String)

/-- HTTP's optional whitespace. -/
def isOws (c : Char) : Bool := c == ' ' || c == '\t'

def trimOws (cs : List Char) : List Char := (cs.dropWhile isOws).rdropWhile isOws

/-- `Name: value`, or `Name;` for an empty value. -/
def splitHeader (line : List Char) : Option (List Char × Option (List Char)) :=
  match line.dropWhile (· ≠ ':') with
  | _ :: value => some (line.takeWhile (· ≠ ':'), some value)
  | [] =>
    let line := line.rdropWhile isOws
    if line.getLast? = some ';' then some (line.dropLast, none) else none

/-- A line; `none` is the removal `Name:`. -/
def parseHeader (line : String) : Except HeaderError (Option (String × String)) :=
  match splitHeader line.toList with
  | none => .error (.malformed line)
  | some (name, value) =>
    let name := String.ofList (trimOws name)
    if name = "" then .error (.emptyName line)
    else if (HeaderName.fromStr name).isNone then .error (.invalidName line)
    else if (value.map (·.dropWhile isOws)) = some [] then .ok none
    else
      let value := String.ofList ((value.map (·.dropWhile isOws)).getD [])
      if (HeaderValue.fromStr value).isNone then .error (.invalidValue line)
      else .ok (some (toAsciiLowercase name, value))

/-- Why a `Name:` removal cannot be honoured, or `none` if it can. -/
def unremovableHeader (name : String) (hasBody : Bool) : Option String :=
  if name = "host" then
    some ("the broker sets Host from the grant's approved origin — a proxied request must reach the origin a human " ++
      "approved, and cannot be sent without naming it")
  else if name = "content-length" ∧ hasBody then
    some ("Content-Length is generated from the body — by this CLI on the hop to Keychute, and by the broker on the " ++
      "hop upstream")
  else none

/-- The headers of a call, and whether the CLI's own `User-Agent` is to be left out. -/
structure ReadHeaders where
  headers : List (String × String)
  suppressUserAgent : Bool

/-- The loop over the `-H` lines. -/
def readHeaders (hasBody : Bool) : List String → Except HeaderError ReadHeaders
  | [] => .ok ⟨[], false⟩
  | line :: rest => do
    match ← parseHeader line with
    | some h =>
      let more ← readHeaders hasBody rest
      return ⟨h :: more.headers, more.suppressUserAgent⟩
    | none =>
      let name := toAsciiLowercase (trim (String.ofList (line.toList.takeWhile (· ≠ ':'))))
      match unremovableHeader name hasBody with
      | some why => .error (.unremovable line why)
      | none =>
        let more ← readHeaders hasBody rest
        return ⟨more.headers, name == "user-agent" || more.suppressUserAgent⟩

/-- Caller headers the broker will not forward, besides the `x-forwarded-` family. -/
def strippedHeaders : List String :=
  ["host", "authorization", "proxy-authorization", "cookie", "set-cookie", "forwarded", "x-real-ip",
    "x-http-method-override", "x-method-override", "x-original-url", "x-rewrite-url", "x-original-method", "connection",
    "keep-alive", "proxy-connection", "te", "trailer", "transfer-encoding", "upgrade", "content-length", "expect"]

def isStrippedHeader (name : String) : Bool :=
  let n := toAsciiLowercase name
  strippedHeaders.contains n || startsWith "x-forwarded-" n

/-- Header names nominated as hop-by-hop by a `Connection` value. -/
def connectionNominated (headers : List (String × String)) : List String :=
  ((headers.filter (·.1 == "connection")).flatMap fun h =>
    (h.2.toList.splitOn ',').map fun t => toAsciiLowercase (trim (String.ofList t))).filter (!·.toList.isEmpty)

/-- What is sent to the server of what was read. -/
def forwarded (read : ReadHeaders) : ReadHeaders :=
  let nominated := connectionNominated read.headers
  { headers := read.headers.filter fun h => !(isStrippedHeader h.1 || nominated.contains h.1)
    suppressUserAgent := read.suppressUserAgent || nominated.contains "user-agent" }

/-! ## In the request -/

/-- `RequestBuilder::header`. -/
def field (h : String × String) : Option (HeaderName × HeaderValue) := do
  let name ← HeaderName.fromStr h.1
  let value ← HeaderValue.fromStr h.2
  return (name, value)

/-- The fields as the server has them. -/
def sent (headers : List (String × String)) : HeaderMap := HeaderMap.ofFields (headers.filterMap field)

theorem field_eq_some {h : String × String} {name : HeaderName} {value : HeaderValue} (hf : field h = some (name, value)) :
    name.str = toAsciiLowercase h.1 ∧ value.bytes = bytes h.2 := by
  unfold field at hf
  rw [Option.bind_eq_bind, Option.bind_eq_some_iff] at hf
  obtain ⟨n, hn, hf⟩ := hf
  rw [Option.bind_eq_bind, Option.bind_eq_some_iff] at hf
  obtain ⟨v, hv, hf⟩ := hf
  cases hf
  unfold HeaderName.fromStr at hn
  unfold HeaderValue.fromStr HeaderValue.fromBytes at hv
  split at hn
  · cases hn
    split at hv
    · cases hv
      exact ⟨rfl, rfl⟩
    · cases hv
  · cases hn

/-- A header that has been read is one that can be sent, under the name it was read with. -/
theorem parseHeader_field {line : String} {h : String × String} (hp : parseHeader line = .ok (some h)) :
    ∃ name value, field h = some (name, value) ∧ name.str = h.1 ∧ value.bytes = bytes h.2 := by
  unfold parseHeader at hp
  split at hp
  · cases hp
  · rename_i name value _
    simp only at hp
    split at hp
    · cases hp
    · split at hp
      · cases hp
      · rename_i hname
        split at hp
        · cases hp
        · split at hp
          · cases hp
          · rename_i hvalue
            cases hp
            rw [Option.isNone_iff_eq_none, ← ne_eq, Option.ne_none_iff_exists'] at hname hvalue
            obtain ⟨n, hn⟩ := hname
            obtain ⟨v, hv⟩ := hvalue
            have hlower : HeaderName.fromStr (toAsciiLowercase (String.ofList (trimOws name))) = some n := by
              unfold HeaderName.fromStr at hn ⊢
              simpa only [toAsciiLowercase_idem] using hn
            have hfield : field (toAsciiLowercase (String.ofList (trimOws name)),
                String.ofList ((value.map (·.dropWhile isOws)).getD [])) = some (n, v) := by
              simp only [field, hlower, hv, Option.bind_eq_bind, Option.bind_some, Option.pure_def]
            obtain ⟨hstr, hbytes⟩ := field_eq_some hfield
            exact ⟨n, v, hfield, hstr.trans (toAsciiLowercase_idem _), hbytes⟩

/-- Every header read is one that can be sent. -/
def Sendable (headers : List (String × String)) : Prop :=
  ∀ h ∈ headers, ∃ name value, field h = some (name, value) ∧ name.str = h.1 ∧ value.bytes = bytes h.2

theorem readHeaders_sendable {hasBody : Bool} {lines : List String} {read : ReadHeaders}
    (h : readHeaders hasBody lines = .ok read) : Sendable read.headers := by
  induction lines generalizing read with
  | nil =>
      cases h
      intro _ hnil
      cases hnil
  | cons line rest ih =>
      rw [readHeaders, bind_eq_ok] at h
      obtain ⟨parsed, hparsed, h⟩ := h
      cases parsed with
      | some field =>
          obtain ⟨more, hmore, hread⟩ := bind_eq_ok.1 h
          cases hread
          exact List.forall_mem_cons.2 ⟨parseHeader_field hparsed, @ih more hmore⟩
      | none =>
          simp only at h
          split at h
          · cases h
          · obtain ⟨more, hmore, hread⟩ := bind_eq_ok.1 h
            cases hread
            exact @ih more hmore

/-! ## The two filters -/

theorem stripped_eq (name : HeaderName) :
    isStrippedHeader name.str = (stripList.contains name.str || startsWith "x-forwarded-" name.str) := by
  unfold isStrippedHeader
  rw [name.lower]
  rfl

/-- The name is a token of a `Connection` line whose value passes the test. -/
def NominatedBy (p : String → Bool) (headers : List (String × String)) (name : String) : Prop :=
  name ∈ connectionNominated (headers.filter fun h => p h.2)

/-- Every character is visible ASCII, a space or a tab. -/
def isText (value : String) : Bool := (bytes value).all visibleByte

theorem mem_connectionNominated {headers : List (String × String)} {name : HeaderName} :
    name.str ∈ connectionNominated headers ↔ ∃ h ∈ headers, h.1 = "connection" ∧
      name.str ∈ (h.2.toList.splitOn ',').map fun t => toAsciiLowercase (trim (String.ofList t)) := by
  unfold connectionNominated
  rw [List.mem_filter, List.mem_flatMap]
  constructor
  · rintro ⟨⟨h, hh, hname⟩, -⟩
    obtain ⟨hin, hconn⟩ := List.mem_filter.1 hh
    exact ⟨h, hin, beq_iff_eq.1 hconn, hname⟩
  · rintro ⟨h, hin, hconn, hname⟩
    refine ⟨⟨h, List.mem_filter.2 ⟨hin, beq_iff_eq.2 hconn⟩, hname⟩, ?_⟩
    rw [name.ne_empty]
    rfl

/-- A text is what `to_str` reads it as. -/
theorem ofList_visibleChar {s : String} (h : isText s = true) : String.ofList ((bytes s).map visibleChar) = s :=
  ofList_visible (List.all_eq_true.1 h)

theorem mem_sent {headers : List (String × String)} (hsend : Sendable headers) {name : HeaderName} {value : HeaderValue} :
    (name, value) ∈ sent headers ↔ ∃ h ∈ headers, h.1 = name.str ∧ bytes h.2 = value.bytes := by
  unfold sent
  rw [HeaderMap.mem_ofFields, List.mem_filterMap]
  constructor
  · rintro ⟨h, hh, hfield⟩
    obtain ⟨n, v, hfield', hstr, hbytes⟩ := hsend h hh
    rw [hfield] at hfield'
    cases hfield'
    exact ⟨h, hh, hstr.symm, hbytes.symm⟩
  · rintro ⟨h, hh, hstr, hbytes⟩
    obtain ⟨n, v, hfield, hstr', hbytes'⟩ := hsend h hh
    refine ⟨h, hh, ?_⟩
    obtain ⟨nstr, nvalid⟩ := n
    obtain ⟨vbytes, vvalid⟩ := v
    obtain ⟨nstr', nvalid'⟩ := name
    obtain ⟨vbytes', vvalid'⟩ := value
    simp only at hstr hbytes hstr' hbytes'
    subst hstr hbytes hstr' hbytes'
    exact hfield

/-- The server reads the `Connection` lines that are text, as the CLI reads them. -/
theorem mem_connectionNamed_sent {headers : List (String × String)} (hsend : Sendable headers) {name : HeaderName} :
    name.str ∈ connectionNamed (sent headers) ↔ NominatedBy isText headers name.str := by
  rw [mem_connectionNamed, NominatedBy, mem_connectionNominated]
  constructor
  · rintro ⟨v, hv, htext, hnames⟩
    obtain ⟨n, hn, hin⟩ := HeaderMap.mem_getAll.1 hv
    obtain ⟨h, hh, hstr, hbytes⟩ := (mem_sent hsend).1 hin
    have htext' : isText h.2 = true := by
      rw [isText, hbytes]
      exact htext
    refine ⟨h, List.mem_filter.2 ⟨hh, htext'⟩, hstr.trans hn, ?_⟩
    have hread := (names_visible htext name).2 hnames
    rwa [← hbytes, ofList_visibleChar htext'] at hread
  · rintro ⟨h, hh, hconn, hname⟩
    obtain ⟨hin, htext⟩ := List.mem_filter.1 hh
    obtain ⟨n, v, hfield, hstr, hbytes⟩ := hsend h hin
    have htext' : v.bytes.all visibleByte = true := by
      rw [hbytes]
      exact htext
    refine ⟨v, HeaderMap.mem_getAll.2 ⟨n, hstr.trans hconn, (mem_sent hsend).2 ⟨h, hin, hstr.symm, hbytes.symm⟩⟩, htext', ?_⟩
    apply (names_visible htext' name).1
    rwa [hbytes, ofList_visibleChar htext]

/-- Lines sorted out before they are sent. -/
theorem sent_filter {headers : List (String × String)} (hsend : Sendable headers) (p : String → Bool) :
    sent (headers.filter fun h => p h.1) = (sent headers).filter fun h => p h.1.str := by
  unfold sent
  rw [HeaderMap.filter_ofFields fun n => p n.str]
  congr 1
  induction headers with
  | nil => rfl
  | cons h headers ih =>
      rw [Sendable, List.forall_mem_cons] at hsend
      obtain ⟨⟨n, v, hfield, hstr, -⟩, hrest⟩ := hsend
      rw [List.filter_cons, List.filterMap_cons, hfield, List.filter_cons, hstr]
      cases hp : p h.1 with
      | false => exact ih hrest
      | true =>
          simp only [if_true, List.filterMap_cons, hfield]
          rw [ih hrest]

/-- Every name that a `Connection` line gives in a value that is not text, one gives in a value that is text too. -/
def NominatedInText (headers : List (String × String)) (injected : List String) : Prop :=
  ∀ h ∈ sent headers, Forwardable injected h.1 → NominatedBy (fun _ => true) headers h.1.str →
    NominatedBy isText headers h.1.str

/-- The CLI sends on what the server would have kept of the whole list, the injection apart. -/
theorem forwarded_iff {hasBody : Bool} {lines : List String} {read : ReadHeaders}
    (hread : readHeaders hasBody lines = .ok read) (injected : List String) :
    (sent (forwarded read).headers).filter (fun h => !injected.contains h.1.str) =
        buildOutboundHeaders (sent read.headers) injected ↔ NominatedInText read.headers injected := by
  have hsend := readHeaders_sendable hread
  have hall : read.headers.filter (fun _ => true) = read.headers := List.filter_true _
  have hcli : (sent (forwarded read).headers).filter (fun h => !injected.contains h.1.str) =
      (sent read.headers).filter fun h => !(isStrippedHeader h.1.str || (connectionNominated read.headers).contains h.1.str ||
        injected.contains h.1.str) := by
    rw [forwarded, sent_filter hsend fun n => !(isStrippedHeader n || (connectionNominated read.headers).contains n),
      List.filter_filter]
    congr 1
    funext h
    rw [← Bool.not_or, Bool.or_comm]
  rw [hcli, buildOutboundHeaders, filter_eq_filter_iff]
  unfold NominatedInText NominatedBy
  rw [hall]
  have hserver : ∀ name : HeaderName, name.str ∈ connectionNamed (sent read.headers) ↔
      name.str ∈ connectionNominated (read.headers.filter fun h => isText h.2) := fun name =>
    mem_connectionNamed_sent hsend
  have hsub : ∀ name : HeaderName, name.str ∈ connectionNominated (read.headers.filter fun h => isText h.2) →
      name.str ∈ connectionNominated read.headers := by
    intro name hname
    obtain ⟨h, hh, hrest⟩ := mem_connectionNominated.1 hname
    exact mem_connectionNominated.2 ⟨h, (List.mem_filter.1 hh).1, hrest⟩
  constructor
  · intro hsame h hh hforward hnominated
    have heq := hsame h hh
    rw [stripped_eq, Bool.not_inj_iff] at heq
    rw [← hserver]
    simpa [hforward.strip, hforward.family, hforward.injected, hnominated] using heq
  · intro htext h hh
    rw [stripped_eq, Bool.not_inj_iff]
    by_cases hforward : Forwardable injected h.1
    · have hiff : h.1.str ∈ connectionNominated read.headers ↔ h.1.str ∈ connectionNamed (sent read.headers) := by
        rw [hserver]
        exact ⟨htext h hh hforward, hsub h.1⟩
      simp only [List.contains_eq_mem, hiff]
    · have hother : (stripList.contains h.1.str || startsWith "x-forwarded-" h.1.str || injected.contains h.1.str) = true := by
        by_contra hno
        simp only [Bool.not_eq_true, Bool.or_eq_false_iff, List.contains_eq_mem, decide_eq_false_iff_not] at hno
        exact hforward ⟨hno.1.1, hno.1.2, hno.2⟩
      rw [Bool.or_eq_true] at hother
      rcases hother with hother | hother
      · simp only [hother, Bool.true_or]
      · simp only [hother, Bool.or_true]

/-- For every caller's headers and every injection, the server removes the headers to remove, and no other, exactly when
`Connection` names none of them only in values that are not text; after the injection each name that it sets has one
value; and of every list of lines that the CLI takes it sends on what the server would have kept, on the same
condition. -/
theorem filters_agree_iff (injected : List String) :
    (∀ caller : HeaderMap,
      buildOutboundHeaders caller injected = caller.filter (fun h => !decide (Removed caller injected h.1)) ↔
        NamedInText caller injected) ∧
    (∀ (env : ProxyEnv) (req : ProxyRequest) (a : Admitted) (plaintext : Db.Blob) (outbound : HeaderMap),
      inject env req a plaintext = .ok outbound →
        ∀ name ∈ a.spec.sets, (HeaderMap.getAll outbound name).length = 1) ∧
    ∀ (hasBody : Bool) (lines : List String) (read : ReadHeaders), readHeaders hasBody lines = .ok read →
      ((sent (forwarded read).headers).filter (fun h => !injected.contains h.1.str) =
        buildOutboundHeaders (sent read.headers) injected ↔ NominatedInText read.headers injected) :=
  ⟨fun caller => buildOutboundHeaders_iff caller injected, fun _ _ _ _ _ h => inject_sets h,
    fun _ _ _ h => forwarded_iff h injected⟩

/-! ### Lines that are text -/

def plainLines : List String := ["Connection: X-Internal", "X-Internal: 1", "Accept: */*"]

def plainRead : ReadHeaders := ⟨[("connection", "X-Internal"), ("x-internal", "1"), ("accept", "*/*")], false⟩

/-- A call under the grant of `bucketStore`, with its key sent as it is. -/
def plainAdmitted : Admitted where
  grant := ⟨4, 5, "agent", "bucket-key", "brokered", ⟨[⟨"s3.example.com", none⟩], ["PUT"], ["/bucket/"], 600, some 1⟩,
    DateTime.ofSeconds 1800000600, some 1, 0, false, none, none, none, false, DateTime.ofSeconds 1800000000⟩
  call := ⟨⟨"s3.example.com", none⟩, "PUT", "/bucket/a.txt", ⟨"/bucket/a.txt", by decide⟩⟩
  body := []
  version := ⟨3, 2, 1, ⟨[7], [8], [9], "k0"⟩, DateTime.ofSeconds 1790000000, none⟩
  spec := .bearer
  sentUrl := ⟨some "s3.example.com", none, "/bucket/a.txt", none⟩

theorem filters_agree_plain :
    buildOutboundHeaders (sent plainRead.headers) ["authorization"] =
        (sent plainRead.headers).filter (fun h => !decide (Removed (sent plainRead.headers) ["authorization"] h.1)) ∧
      (∃ outbound, inject bucketEnv noteUpload plainAdmitted (bytes "key") = .ok outbound ∧
        (HeaderMap.getAll outbound "authorization").length = 1) ∧
      (sent (forwarded plainRead).headers).filter (fun h => !([] : List String).contains h.1.str) =
        buildOutboundHeaders (sent plainRead.headers) [] := by
  obtain ⟨hserver, hinject, -⟩ := filters_agree_iff ["authorization"]
  obtain ⟨-, -, hcli⟩ := filters_agree_iff []
  have hread : readHeaders false plainLines = .ok plainRead := by
    have hsome : (readHeaders false plainLines).toOption.map (fun r => (r.headers, r.suppressUserAgent)) =
        some (plainRead.headers, plainRead.suppressUserAgent) := by decide +kernel
    cases hr : readHeaders false plainLines with
    | error e =>
        rw [hr] at hsome
        cases hsome
    | ok r =>
        rw [hr] at hsome
        have hfields := Prod.mk.inj (Option.some.inj hsome)
        obtain ⟨headers, suppress⟩ := r
        exact congrArg Except.ok (congr (congrArg ReadHeaders.mk hfields.1) hfields.2)
  refine ⟨(hserver _).2 ?_, ?_, (hcli false plainLines plainRead hread).2 ?_⟩
  · unfold NamedInText
    decide +kernel
  · cases hrun : inject bucketEnv noteUpload plainAdmitted (bytes "key") with
    | error e =>
        have hok : (inject bucketEnv noteUpload plainAdmitted (bytes "key")).toOption.isSome = true := by decide +kernel
        rw [hrun] at hok
        cases hok
    | ok outbound => exact ⟨outbound, rfl, hinject _ _ _ _ _ hrun "authorization" List.mem_cons_self⟩
  · unfold NominatedInText NominatedBy
    decide +kernel

/-! ### A nomination beside a Latin-1 byte -/

def connectionName : HeaderName := ⟨"connection", by decide +kernel⟩
def internalName : HeaderName := ⟨"x-internal", by decide +kernel⟩

/-- `Connection: X-Internal, é` and `X-Internal: 1`. -/
def latinCaller : HeaderMap :=
  [(connectionName, ⟨bytes "X-Internal, é", by decide +kernel⟩), (internalName, ⟨bytes "1", by decide +kernel⟩)]

def latinLines : List String := ["Connection: X-Internal, é", "X-Internal: 1"]

def latinRead : ReadHeaders := ⟨[("connection", "X-Internal, é"), ("x-internal", "1")], false⟩

/-- The server forwards the header that was nominated; the CLI drops it. -/
theorem nomination_lost :
    buildOutboundHeaders latinCaller ["authorization"] = [(internalName, ⟨bytes "1", by decide +kernel⟩)] ∧
      Removed latinCaller ["authorization"] internalName ∧
      (readHeaders false latinLines).toOption.map (·.headers) = some latinRead.headers ∧
      (forwarded latinRead).headers = [] ∧
      buildOutboundHeaders (sent latinRead.headers) [] ≠ [] := by
  decide +kernel

end Keychute.Cli
