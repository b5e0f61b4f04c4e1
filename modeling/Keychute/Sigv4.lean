import Keychute.Http
import Keychute.Db.Rows
import Mathlib.Data.List.Sort

/-!
# Request signing (`server/src/sigv4.rs`)

* `parseScope`, `validateAccessKeyId` : the template half of a SigV4 credential;
* `uriEncode`, `wirePath` : the path as it is sent and signed;
* `sign` : the headers of a signed request. The digest, the keyed digest and the clock's text are parameters
  (`SignLib`);
* `sign_visible` : under a template that passes its checks, what `sign` returns always makes header values.
-/

namespace Keychute.Sigv4
open Keychute.Http Keychute.Db

/-! ## The template -/

/-- Headers the signer synthesizes. -/
def synthesized : List String := ["x-amz-date", "x-amz-content-sha256", "x-amz-security-token"]

/-- S3 headers that name a second resource. -/
def strippedCallerHeaders : List String :=
  ["x-amz-copy-source", "x-amz-copy-source-range", "x-amz-copy-source-if-match", "x-amz-copy-source-if-none-match",
    "x-amz-copy-source-if-modified-since", "x-amz-copy-source-if-unmodified-since"]

def maxScopePartBytes : Nat := 64

/-- The non-secret half of a credential, as stored in the template. -/
structure Scope where
  accessKeyId : String
  region : String
  service : String

def isLowercase (b : UInt8) : Bool := 97 ≤ b && b ≤ 122
def isUppercase (b : UInt8) : Bool := 65 ≤ b && b ≤ 90
def isDigit (b : UInt8) : Bool := 48 ≤ b && b ≤ 57
def isAlphanumeric (b : UInt8) : Bool := isLowercase b || isUppercase b || isDigit b

def validateAccessKeyId (id : String) : Except String Unit :=
  if (bytes id).isEmpty || byteLen id > 128 then .error "SigV4 access key id must be 1-128 characters"
  else if !(bytes id).all fun b => isAlphanumeric b || b == 45 || b == 95 then
    .error "SigV4 access key id may contain only letters, digits, '-' and '_'"
  else .ok ()

/-- A region or service that a template may carry. -/
def scopePart (part : String) : Bool :=
  !(bytes part).isEmpty && byteLen part ≤ maxScopePartBytes &&
    (bytes part).all fun b => isLowercase b || isDigit b || b == 45

/-- Parse the stored `region/service` scope string. -/
def parseScope (scope : String) : Except String (String × String) :=
  if !scope.toList.contains '/' then .error "SigV4 scope must be 'region/service', e.g. 'us-east-1/s3'"
  else
    let region := String.ofList (scope.toList.takeWhile (· != '/'))
    let service := String.ofList ((scope.toList.dropWhile (· != '/')).drop 1)
    if !(scopePart region && scopePart service) then
      .error "SigV4 region and service must be lowercase letters, digits and '-'"
    else if service ≠ "s3" then .error "SigV4 service must be 's3'; other AWS services are not supported"
    else .ok (region, service)

/-! ## The path -/

/-- RFC 3986 unreserved. -/
def isUnreserved (b : UInt8) : Bool := isAlphanumeric b || b == 45 || b == 46 || b == 95 || b == 126

def upperHex (n : Nat) : Char := "0123456789ABCDEF".toList.getD n '0'

/-- `UriEncode`: every byte outside the unreserved set as `%XX`. -/
def uriEncode (input : String) (keepSlash : Bool) : String :=
  String.ofList ((bytes input).flatMap fun b =>
    if isUnreserved b || (keepSlash && b == 47) then [Char.ofNat b.toNat]
    else ['%', upperHex (b.toNat / 16), upperHex (b.toNat % 16)])

/-- The decoded canonical path, encoded once. -/
def wirePath (decodedPath : String) : String :=
  if decodedPath.toList.isEmpty then "/" else uriEncode decodedPath true

/-! ## The signature -/

/-- What the signer takes from other crates: `sha2`, `hmac`, and `chrono`'s `%Y%m%dT%H%M%SZ` and `%Y%m%d`, which
print digits, a sign, `T` and `Z`. -/
structure SignLib where
  sha256 : Blob → Blob
  hmac : Blob → Blob → Blob
  amzDate : DateTime → String
  day : DateTime → String
  amzDate_visible : ∀ t, Visible (amzDate t)
  day_visible : ∀ t, Visible (day t)

/-- What the signer needs to know about the outbound request. -/
structure Request where
  method : String
  host : String
  wirePath : String
  extraSignedHeaders : List (String × String)
  payload : Blob

/-- The headers to set on the outbound request. -/
structure Signed where
  authorization : String
  amzDate : String
  contentSha256 : String

/-- Collapse runs of white space and trim. -/
def canonicalHeaderValue (v : String) : String :=
  " ".intercalate (((v.toList.splitOnP isWhitespace).filter (!·.isEmpty)).map String.ofList)

/-- Adjacent fields of one name as one comma-joined line. -/
def foldHeaders : List (String × String) → List (String × String)
  | [] => []
  | (k, v) :: rest =>
    match foldHeaders rest with
    | (k', v') :: more => if k = k' then (k, v ++ "," ++ v') :: more else (k, v) :: (k', v') :: more
    | [] => [(k, v)]

/-- The fields under the signature: sorted by name, those of one name in their order, then folded. -/
def signedFields (lib : SignLib) (req : Request) (now : DateTime) : List (String × String) :=
  let headers := req.extraSignedHeaders.map (fun kv => (toAsciiLowercase kv.1, canonicalHeaderValue kv.2)) ++
    [("host", req.host), ("x-amz-content-sha256", hexEncode (lib.sha256 req.payload)), ("x-amz-date", lib.amzDate now)]
  foldHeaders (headers.insertionSort fun a b => a.1 ≤ b.1)

def credentialScope (lib : SignLib) (scope : Scope) (now : DateTime) : String :=
  lib.day now ++ "/" ++ scope.region ++ "/" ++ scope.service ++ "/aws4_request"

def sign (lib : SignLib) (scope : Scope) (secretAccessKey : Blob) (req : Request) (now : DateTime) : Signed :=
  let amzDate := lib.amzDate now
  let contentSha256 := hexEncode (lib.sha256 req.payload)
  let folded := signedFields lib req now
  let canonicalHeaders := String.join (folded.map fun kv => kv.1 ++ ":" ++ kv.2 ++ "\n")
  let signedHeaders := ";".intercalate (folded.map (·.1))
  let canonicalRequest := req.method ++ "\n" ++ req.wirePath ++ "\n" ++ "" ++ "\n" ++ canonicalHeaders ++ "\n" ++
    signedHeaders ++ "\n" ++ contentSha256
  let stringToSign := "AWS4-HMAC-SHA256\n" ++ amzDate ++ "\n" ++ credentialScope lib scope now ++ "\n" ++
    hexEncode (lib.sha256 (bytes canonicalRequest))
  let kDate := lib.hmac (bytes "AWS4" ++ secretAccessKey) (bytes (lib.day now))
  let kRegion := lib.hmac kDate (bytes scope.region)
  let kService := lib.hmac kRegion (bytes scope.service)
  let kSigning := lib.hmac kService (bytes "aws4_request")
  let signature := hexEncode (lib.hmac kSigning (bytes stringToSign))
  { authorization := "AWS4-HMAC-SHA256 Credential=" ++ scope.accessKeyId ++ "/" ++ credentialScope lib scope now ++
      ", SignedHeaders=" ++ signedHeaders ++ ", Signature=" ++ signature
    amzDate := amzDate
    contentSha256 := contentSha256 }

/-! ## What is signed makes header values -/

theorem visible_of_all {s : String} {p : UInt8 → Bool} (h : (bytes s).all p = true)
    (hp : ∀ n : Fin 256, p ⟨⟨n⟩⟩ = true → visibleByte ⟨⟨n⟩⟩ = true) : Visible s := by
  intro b hb
  exact hp b.toBitVec.toFin (List.all_eq_true.1 h b hb)

theorem validateAccessKeyId_visible {id : String} (h : validateAccessKeyId id = .ok ()) : Visible id := by
  unfold validateAccessKeyId at h
  split_ifs at h with _ hall
  rw [Bool.not_eq_true, Bool.not_eq_false'] at hall
  exact visible_of_all hall (by decide +kernel)

theorem scopePart_visible {part : String} (h : scopePart part = true) : Visible part := by
  unfold scopePart at h
  rw [Bool.and_eq_true] at h
  exact visible_of_all h.2 (by decide +kernel)

theorem parseScope_visible {scope region service : String} (h : parseScope scope = .ok (region, service)) :
    Visible region ∧ Visible service := by
  unfold parseScope at h
  simp only at h
  split_ifs at h with _ hparts
  simp only [Except.ok.injEq, Prod.mk.injEq] at h
  rw [h.1, h.2, Bool.not_eq_true, Bool.not_eq_false', Bool.and_eq_true] at hparts
  exact ⟨scopePart_visible hparts.1, scopePart_visible hparts.2⟩

theorem mem_foldHeaders {fields : List (String × String)} {k : String}
    (h : k ∈ (foldHeaders fields).map (·.1)) : k ∈ fields.map (·.1) := by
  induction fields with
  | nil => simp [foldHeaders] at h
  | cons kv rest ih =>
      obtain ⟨k₀, v₀⟩ := kv
      rw [List.map_cons, List.mem_cons]
      unfold foldHeaders at h
      split at h
      · rename_i k' v' more hrest
        rw [hrest] at ih
        split_ifs at h with hk
        · rw [List.map_cons, List.mem_cons] at h
          exact h.imp id fun h => ih (List.mem_cons_of_mem _ h)
        · rw [List.map_cons, List.mem_cons] at h
          exact h.imp id ih
      · exact Or.inl (by simpa using h)

theorem mem_signedFields {lib : SignLib} {req : Request} {now : DateTime} {k : String}
    (h : k ∈ (signedFields lib req now).map (·.1)) :
    (∃ kv ∈ req.extraSignedHeaders, k = toAsciiLowercase kv.1) ∨
      k = "host" ∨ k = "x-amz-content-sha256" ∨ k = "x-amz-date" := by
  have h := mem_foldHeaders h
  rw [((List.perm_insertionSort _ _).map _).mem_iff] at h
  simp only [List.map_append, List.map_map, List.mem_append, List.mem_map, List.map_cons, List.map_nil, List.mem_cons,
    List.not_mem_nil, or_false] at h
  exact h.imp_left fun ⟨kv, hkv, hk⟩ => ⟨kv, hkv, hk.symm⟩

/-- The three headers of a signed request are visible ASCII when the template's parts and the signed names are. -/
theorem sign_visible {lib : SignLib} {scope : Scope} {req : Request} {now : DateTime} (key : Blob)
    (hid : Visible scope.accessKeyId) (hregion : Visible scope.region) (hservice : Visible scope.service)
    (hnames : ∀ kv ∈ req.extraSignedHeaders, Visible (toAsciiLowercase kv.1)) :
    Visible (sign lib scope key req now).authorization ∧ Visible (sign lib scope key req now).amzDate ∧
      Visible (sign lib scope key req now).contentSha256 := by
  have hscope : Visible (credentialScope lib scope now) := by
    have hslash : Visible "/" := by decide +kernel
    have hend : Visible "/aws4_request" := by decide +kernel
    exact ((((lib.day_visible now).append hslash).append hregion).append hslash).append hservice |>.append hend
  have hsigned : Visible (";".intercalate ((signedFields lib req now).map (·.1))) := by
    apply Visible.intercalate (by decide +kernel)
    intro k hk
    rcases mem_signedFields hk with ⟨kv, hkv, rfl⟩ | rfl | rfl | rfl
    · exact hnames kv hkv
    all_goals decide +kernel
  refine ⟨?_, lib.amzDate_visible now, hexEncode_visible _⟩
  have halg : Visible "AWS4-HMAC-SHA256 Credential=" := by decide +kernel
  have hslash : Visible "/" := by decide +kernel
  have hh : Visible ", SignedHeaders=" := by decide +kernel
  have hs : Visible ", Signature=" := by decide +kernel
  exact (((((((halg.append hid).append hslash).append hscope).append hh).append hsigned).append hs).append
    (hexEncode_visible _))

end Keychute.Sigv4
