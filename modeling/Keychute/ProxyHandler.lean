import Keychute.Proxy
import Keychute.Sigv4
import Keychute.Api.Grants

/-!
# The proxied call (`server/src/proxy.rs`)

* `buildOutboundHeaders`, `InjectionSpec`, `injectionHeader`, `sigv4Headers` : how the caller's headers and the
  credential become the outbound request;
* `admission`, `inject`, `forward`, `handleInner` : the handler, before and after the use is accounted;
* `refusal_free_iff` : a call that is refused whatever the plaintext costs no use, except where a header that only the
  signer reads is refused after the accounting.
-/

namespace Keychute.Proxy
open Keychute.Api Keychute.Db Keychute.Http Keychute.Lib

/-! ## Headers -/

/-- Headers never forwarded from the caller. -/
def stripList : List String :=
  ["host", "authorization", "proxy-authorization", "cookie", "set-cookie", "forwarded", "x-real-ip",
    "x-http-method-override", "x-method-override", "x-original-url", "x-rewrite-url", "x-original-method", "connection",
    "keep-alive", "proxy-connection", "te", "trailer", "transfer-encoding", "upgrade", "content-length", "expect"]

/-- Hop-by-hop headers stripped from the upstream response, and the marker of Keychute's own errors. -/
def responseStrip : List String :=
  ["x-keychute-error", "connection", "keep-alive", "proxy-authenticate", "proxy-authorization", "proxy-connection", "te",
    "trailer", "transfer-encoding", "upgrade"]

def startsWith (pre s : String) : Bool := pre.toList.isPrefixOf s.toList

/-- Header names listed in the values of `Connection`. -/
def connectionNamed (headers : HeaderMap) : List String :=
  (((HeaderMap.getAll headers "connection").filterMap HeaderValue.toStr).flatMap fun v =>
    (v.toList.splitOn ',').map fun t => toAsciiLowercase (trim (String.ofList t))).filter (!·.toList.isEmpty)

/-- The caller's headers that go upstream: not on the strip list, not named by `Connection`, not set by the injection. -/
def buildOutboundHeaders (caller : HeaderMap) (injected : List String) : HeaderMap :=
  caller.filter fun h => !(stripList.contains h.1.str || startsWith "x-forwarded-" h.1.str ||
    (connectionNamed caller).contains h.1.str || injected.contains h.1.str)

def buildResponseHeaders (upstream : HeaderMap) : HeaderMap :=
  upstream.filter fun h => !(responseStrip.contains h.1.str || (connectionNamed upstream).contains h.1.str)

/-! ## The credential -/

/-- How the credential is placed into the outbound request. -/
inductive InjectionSpec where
  | bearer
  | header (name : String)
  | basicPassword (username : String)
  | awsSigV4 (scope : Sigv4.Scope)

namespace InjectionSpec

/-- The half of the injection that does not need the decrypted secret. -/
def validate : InjectionSpec → Except ApiFailure HeaderName
  | bearer => .ok authorization
  | header name =>
    let lower := toAsciiLowercase name
    if stripList.contains lower || startsWith "x-forwarded-" lower then .error .badCredentialEncoding
    else okOr (HeaderName.fromStr name) .badCredentialEncoding
  | basicPassword username =>
    if (bytes username).any fun b => b == 58 || b == 13 || b == 10 || b == 0 then .error .badCredentialEncoding
    else .ok authorization
  | awsSigV4 scope =>
    match Sigv4.validateAccessKeyId scope.accessKeyId, Sigv4.parseScope (scope.region ++ "/" ++ scope.service) with
    | .ok _, .ok _ => .ok authorization
    | _, _ => .error .badCredentialEncoding

/-- Every header name a signature sets or drops. -/
def ownedHeaders : InjectionSpec → List String
  | awsSigV4 _ => "authorization" :: Sigv4.synthesized ++ Sigv4.strippedCallerHeaders
  | _ => []

def signs : InjectionSpec → Bool
  | awsSigV4 _ => true
  | _ => false

end InjectionSpec

/-- The template of a stored row, by its kind. -/
def resolveSpec (secret : Db.SecretRow) : Except ApiFailure InjectionSpec :=
  if secret.injectionKind = "bearer" then .ok .bearer
  else if secret.injectionKind = "header" then .header <$> okOr secret.injectionHeader .badCredentialEncoding
  else if secret.injectionKind = "basic" ∨ secret.injectionKind = "basic-password" then
    .basicPassword <$> okOr (secret.injectionUsername <|> secret.injectionHeader) .badCredentialEncoding
  else if secret.injectionKind = "aws-sigv4" then
    match secret.injectionUsername, secret.injectionHeader.map Sigv4.parseScope with
    | some id, some (.ok (region, service)) => .ok (.awsSigV4 ⟨id, region, service⟩)
    | _, _ => .error .badCredentialEncoding
  else .error .badCredentialEncoding

def headerSafe (secret : Blob) : Bool := !secret.any fun b => b == 13 || b == 10 || b == 0

/-- The header of a credential that is sent as it is. -/
def injectionHeader (spec : InjectionSpec) (secret : Blob) : Except ApiFailure (HeaderName × HeaderValue) := do
  let name ← spec.validate
  let value (bs : Blob) : Except ApiFailure (HeaderName × HeaderValue) :=
    (fun v => (name, v)) <$> okOr (HeaderValue.fromBytes bs) .badCredentialEncoding
  match spec with
  | .bearer => if !headerSafe secret then .error .badCredentialEncoding else value (bytes "Bearer " ++ secret)
  | .header _ => if !headerSafe secret then .error .badCredentialEncoding else value secret
  | .basicPassword username =>
    value (bytes "Basic " ++ bytes (String.ofList (base64Encode (bytes username ++ 58 :: secret))))
  | .awsSigV4 _ => .error (.internal "aws-sigv4 has no static injection header")

/-- `url::Url`, of an upstream address. -/
structure Url where
  host : Option String
  port : Option Nat
  path : String
  query : Option String

/-- What the proxy takes from the `url` crate. An `https` address that parses has a host. -/
structure UrlLib where
  parse : String → Option Url
  encodePath : String → String
  encodeQuery : String → String
  host_of_https : ∀ rest u, parse ("https://" ++ rest) = some u → u.host.isSome = true

/-- The outbound URL from the approved origin and the canonical path. -/
def outboundUrl (lib : UrlLib) (origin canonicalPath : String) (query : Option String) (sigv4Path : Bool) : Option Url :=
  (lib.parse origin).map fun url => { url with
    path := lib.encodePath (if sigv4Path then Sigv4.wirePath canonicalPath
      else String.ofList (canonicalPath.toList.flatMap fun c => if c = '%' then ['%', '2', '5'] else [c]))
    query := query.map lib.encodeQuery }

def isAmz (name : HeaderName) : Bool := startsWith "x-amz-" name.str

/-- The `x-amz-*` headers to sign, as text. -/
def amzHeaders (outbound : HeaderMap) : Except ApiFailure (List (String × String)) :=
  (outbound.filter (isAmz ·.1)).mapM fun h =>
    (fun v => (h.1.str, v)) <$> okOr h.2.toStr (.invalidRequest "x-amz-* header is not visible ASCII")

def amzDateName : HeaderName := ⟨"x-amz-date", by decide +kernel⟩
def amzSha256Name : HeaderName := ⟨"x-amz-content-sha256", by decide +kernel⟩

/-- Sign the outbound request. -/
def sigv4Headers (lib : Sigv4.SignLib) (scope : Sigv4.Scope) (secret : Blob) (method : String) (url : Url)
    (outbound : HeaderMap) (payload : Blob) (now : DateTime) : Except ApiFailure HeaderMap := do
  let host ← okOr url.host (.internal "upstream URL has no host")
  let host := match url.port with
    | some port => host ++ ":" ++ toString port
    | none => host
  let extra ← amzHeaders outbound
  let signed := Sigv4.sign lib scope secret ⟨method, host, url.path, extra, payload⟩ now
  let auth ← okOr (HeaderValue.fromStr signed.authorization) .badCredentialEncoding
  let date ← okOr (HeaderValue.fromStr signed.amzDate) (.internal "x-amz-date")
  let sha ← okOr (HeaderValue.fromStr signed.contentSha256) (.internal "x-amz-content-sha256")
  return [(authorization, auth), (amzDateName, date), (amzSha256Name, sha)]

/-! ## The handler -/

/-- A request as the handler gets it; a body chunk that did not arrive is `none`. -/
structure ProxyRequest where
  method : Method
  rawPath : String
  query : Option String
  headers : HeaderMap
  body : List (Option Blob)

/-- What the handler reads besides the request and the store. -/
structure ProxyEnv where
  /-- `authenticate_client`. -/
  client : Except ApiFailure String
  slotFree : Bool
  maxBody : Nat
  replayWindow : Int
  url : UrlLib
  sign : Sigv4.SignLib
  /-- `now()` of the accounting transaction. -/
  now : DateTime
  /-- `Utc::now()` when the request is signed. -/
  signedAt : DateTime

/-- The store as each statement of one request finds it: other requests may commit in between. -/
structure Views where
  grant : Store
  client : Store
  secret : Store
  version : Store
  use : Store

def readBody (maxBody : Nat) : Blob → List (Option Blob) → Except ApiFailure Blob
  | buf, [] => .ok buf
  | _, none :: _ => .error (.invalidRequest "request body read failed")
  | buf, some chunk :: rest =>
    if buf.length + chunk.length > maxBody then .error .bodyTooLarge else readBody maxBody (buf ++ chunk) rest

/-- What the handler has in hand when it accounts the use. -/
structure Admitted where
  grant : GrantRow
  call : Call
  body : Blob
  version : SecretVersionRow
  spec : InjectionSpec
  sentUrl : Url

/-- `url`'s path and query, for audit. -/
def Admitted.auditedPath (a : Admitted) : String :=
  match a.sentUrl.query with
  | some q => a.sentUrl.path ++ "?" ++ q
  | none => a.sentUrl.path

def Admitted.target (a : Admitted) : AuditTarget := ⟨a.call.method, a.call.origin.toDisplay, a.auditedPath⟩

/-- Everything the handler checks before it accounts the use. -/
def admission (env : ProxyEnv) (v : Views) (grantId : Uuid) (req : ProxyRequest) : Except ApiFailure Admitted := do
  let client ← env.client
  let grant ← ownedGrant v.grant client grantId
  refuseIf (Mechanism.fromStrOpt grant.mechanism != some .brokered) .wrongMechanism
  let found ← revalidateGrant v.client v.secret grant
  let secret ← okOr found .payloadLost
  refuseIf (!env.slotFree) .tooManyStreams
  let call ← admitCall grant.constraints req.method.str req.rawPath
  let body ← readBody env.maxBody [] req.body
  let version ← okOr (getSecretVersion v.version secret.id secret.currentVersion) .payloadLost
  let spec ← resolveSpec secret
  let _ ← spec.validate
  refuseIf (spec.signs && req.query.isSome) (.invalidRequest "aws-sigv4 grants do not forward a query string")
  let sentUrl ← okOr (outboundUrl env.url call.origin.toDisplay call.path req.query spec.signs) (.internal "origin parse")
  return ⟨grant, call, body, version, spec, sentUrl⟩

/-- The outbound headers, with the credential in them. -/
def inject (env : ProxyEnv) (req : ProxyRequest) (a : Admitted) (plaintext : Blob) : Except ApiFailure HeaderMap :=
  match a.spec with
  | .awsSigV4 scope => do
    let outbound := buildOutboundHeaders req.headers a.spec.ownedHeaders
    let signed ← sigv4Headers env.sign scope plaintext a.call.method a.sentUrl outbound a.body env.signedAt
    return signed.foldl (fun m h => HeaderMap.insert m h.1 h.2) outbound
  | _ => do
    let (name, value) ← injectionHeader a.spec plaintext
    return HeaderMap.insert (buildOutboundHeaders req.headers [name.str]) name value

inductive UpstreamError where
  | timeout | unreachable

structure Response where
  status : Nat
  headers : HeaderMap

/-- The upstream exchange. -/
abbrev Upstream : Type := Method → Url → HeaderMap → Blob → Except UpstreamError Response

/-- `Cache-Control: no-store`. -/
def noStore : HeaderValue := ⟨bytes "no-store", by decide +kernel⟩

/-- Send the request and pass the response on. The completion row is written by a detached task, after the answer. -/
def forward (upstream : Upstream) (a : Admitted) (outbound : HeaderMap) : Except ApiFailure Response := do
  let method ← okOr (Method.fromStr a.call.method) (.invalidRequest "invalid HTTP method")
  match upstream method a.sentUrl outbound a.body with
  | .error .timeout => .error .upstreamTimeout
  | .error .unreachable => .error .upstreamUnreachable
  | .ok response => .ok ⟨response.status, HeaderMap.insert (buildResponseHeaders response.headers) cacheControl noStore⟩

/-- The handler: its answer, and the store after it. `opened` is what decrypting the stored version gives. -/
def handleInner (env : ProxyEnv) (v : Views) (grantId : Uuid) (req : ProxyRequest) (opened : Option Blob)
    (upstream : Upstream) : Except ApiFailure Response × Store :=
  match admission env v grantId req with
  | .error e => (.error e, v.use)
  | .ok a =>
    match (beginGrantUse grantId none (some a.version.id) .proxyAttempt env.replayWindow (some a.target) env.now).run v.use with
    | (s, .ok (.grantUse (.firstUse _))) => (do
        let plaintext ← okOr opened (.internal "decryption failed")
        let outbound ← inject env req a plaintext
        forward upstream a outbound, s)
    | (s, .ok (.grantUse .notFound)) => (.error .notFound, s)
    | (s, .ok (.grantUse .expiredOrRevoked)) => (.error .grantExpired, s)
    | (s, .ok (.grantUse .exhausted)) => (.error .grantExhausted, s)
    | (s, .ok _) => (.error (.internal "replay outcome without idempotency key"), s)
    | (s, .error _) => (.error (.internal "database error"), s)

/-! ## What can still be refused once the use is accounted -/

/-- Every header that the signer reads as text is text. -/
def AmzVisible (outbound : HeaderMap) : Prop :=
  ∀ h ∈ outbound, isAmz h.1 = true → h.2.bytes.all visibleByte = true

instance (outbound : HeaderMap) : Decidable (AmzVisible outbound) :=
  inferInstanceAs (Decidable (∀ h ∈ outbound, isAmz h.1 = true → h.2.bytes.all visibleByte = true))

theorem mapM_ok {α β : Type} {f : α → Except ApiFailure β} : ∀ {xs : List α}, (∀ x ∈ xs, ∃ y, f x = .ok y) →
    ∃ ys, xs.mapM f = .ok ys ∧ ∀ y ∈ ys, ∃ x ∈ xs, f x = .ok y
  | [], _ => ⟨[], rfl, by simp⟩
  | x :: xs, h => by
      obtain ⟨y, hy⟩ := h x (List.mem_cons_self ..)
      obtain ⟨ys, hys, hmem⟩ := mapM_ok fun z hz => h z (List.mem_cons_of_mem _ hz)
      refine ⟨y :: ys, by rw [List.mapM_cons, hy, hys]; rfl, ?_⟩
      intro z hz
      rcases List.mem_cons.1 hz with rfl | hz
      · exact ⟨x, List.mem_cons_self .., hy⟩
      · obtain ⟨w, hw, hwz⟩ := hmem z hz
        exact ⟨w, List.mem_cons_of_mem _ hw, hwz⟩

theorem mapM_error {α β : Type} {f : α → Except ApiFailure β} : ∀ {xs : List α},
    (∃ x ∈ xs, ∃ e, f x = .error e) → ∃ e, xs.mapM f = .error e
  | [], h => by simp at h
  | x :: xs, ⟨z, hz, e, he⟩ => by
      rw [List.mapM_cons]
      cases hx : f x with
      | error e' => exact ⟨e', rfl⟩
      | ok y =>
          rcases List.mem_cons.1 hz with rfl | hz
          · rw [hx] at he; cases he
          · obtain ⟨e', he'⟩ := mapM_error ⟨z, hz, e, he⟩
            exact ⟨e', by rw [he']; rfl⟩

theorem amzHeaders_ok {outbound : HeaderMap} (h : AmzVisible outbound) :
    ∃ extra, amzHeaders outbound = .ok extra ∧ ∀ kv ∈ extra, ∃ n : HeaderName, kv.1 = n.str := by
  have htext : ∀ x ∈ outbound.filter (isAmz ·.1), ∃ y, ((fun v => (x.1.str, v)) <$>
      okOr x.2.toStr (.invalidRequest "x-amz-* header is not visible ASCII") : Except ApiFailure (String × String)) = .ok y := by
    intro x hx
    rw [List.mem_filter] at hx
    obtain ⟨t, ht⟩ := Option.isSome_iff_exists.1 ((HeaderValue.toStr_isSome x.2).trans (h x hx.1 hx.2))
    exact ⟨(x.1.str, t), by rw [ht]; rfl⟩
  obtain ⟨extra, hextra, hmem⟩ := mapM_ok htext
  refine ⟨extra, hextra, ?_⟩
  intro kv hkv
  obtain ⟨x, -, hx⟩ := hmem kv hkv
  refine ⟨x.1, ?_⟩
  cases ht : x.2.toStr with
  | none => rw [ht] at hx; cases hx
  | some t => rw [ht] at hx; cases hx; rfl

theorem amzHeaders_error {outbound : HeaderMap} (h : ¬ AmzVisible outbound) : ∃ e, amzHeaders outbound = .error e := by
  unfold AmzVisible at h
  push Not at h
  obtain ⟨x, hx, hamz, hbytes⟩ := h
  refine mapM_error ⟨x, List.mem_filter.2 ⟨hx, hamz⟩, .invalidRequest "x-amz-* header is not visible ASCII", ?_⟩
  have hnone : x.2.toStr = none := by
    rw [← Option.not_isSome_iff_eq_none, HeaderValue.toStr_isSome]
    exact hbytes
  rw [hnone]
  rfl

section Sign
variable {lib : Sigv4.SignLib} {scope : Sigv4.Scope} {method : String} {url : Url} {outbound : HeaderMap}
  {payload : Blob} {now : DateTime}

/-- Under a checked template, a request whose `x-amz-*` headers are text gets signed, with any key. -/
theorem sigv4Headers_ok (key : Blob) (hhost : url.host.isSome = true) (hvis : AmzVisible outbound)
    (hid : Visible scope.accessKeyId) (hregion : Visible scope.region) (hservice : Visible scope.service) :
    ∃ hs, sigv4Headers lib scope key method url outbound payload now = .ok hs := by
  obtain ⟨host, hh⟩ := Option.isSome_iff_exists.1 hhost
  obtain ⟨extra, hextra, hnames⟩ := amzHeaders_ok hvis
  have hlower : ∀ kv ∈ extra, Visible (toAsciiLowercase kv.1) := by
    intro kv hkv
    obtain ⟨n, hn⟩ := hnames kv hkv
    rw [hn, n.lower]
    exact n.visible
  have hsigned : ∀ req : Sigv4.Request, req.extraSignedHeaders = extra → ∃ a d c,
      HeaderValue.fromStr (Sigv4.sign lib scope key req now).authorization = some a ∧
      HeaderValue.fromStr (Sigv4.sign lib scope key req now).amzDate = some d ∧
      HeaderValue.fromStr (Sigv4.sign lib scope key req now).contentSha256 = some c := by
    intro req hreq
    obtain ⟨ha, hd, hc⟩ := @Sigv4.sign_visible lib scope req now key hid hregion hservice (by rwa [hreq])
    obtain ⟨a, ha⟩ := Option.isSome_iff_exists.1 (HeaderValue.fromStr_of_visible ha)
    obtain ⟨d, hd⟩ := Option.isSome_iff_exists.1 (HeaderValue.fromStr_of_visible hd)
    obtain ⟨c, hc⟩ := Option.isSome_iff_exists.1 (HeaderValue.fromStr_of_visible hc)
    exact ⟨a, d, c, ha, hd, hc⟩
  obtain ⟨a, d, c, ha, hd, hc⟩ := hsigned ⟨method, match url.port with
    | some port => host ++ ":" ++ toString port
    | none => host, url.path, extra, payload⟩ rfl
  unfold sigv4Headers
  refine ⟨[(authorization, a), (amzDateName, d), (amzSha256Name, c)], bind_eq_ok.2 ⟨host, okOr_eq_ok.2 hh, ?_⟩⟩
  refine bind_eq_ok.2 ⟨extra, hextra, ?_⟩
  exact bind_eq_ok.2 ⟨a, okOr_eq_ok.2 ha, bind_eq_ok.2 ⟨d, okOr_eq_ok.2 hd, bind_eq_ok.2 ⟨c, okOr_eq_ok.2 hc, rfl⟩⟩⟩

theorem sigv4Headers_error (key : Blob) (hvis : ¬ AmzVisible outbound) :
    ∃ e, sigv4Headers lib scope key method url outbound payload now = .error e := by
  obtain ⟨e, he⟩ := amzHeaders_error hvis
  unfold sigv4Headers
  cases hh : url.host with
  | none => exact ⟨_, rfl⟩
  | some host => exact ⟨e, by simp only [okOr, he, bind, Except.bind]⟩

end Sign

/-- A credential that is sent as it is has a plaintext that its checked template takes: the empty one. -/
theorem injectionHeader_ok {spec : InjectionSpec} {name : HeaderName} (hspec : spec.validate = .ok name)
    (hsigns : spec.signs = false) : ∃ h, injectionHeader spec [] = .ok h := by
  have hvalue : ∀ bs : Blob, (∀ b ∈ bs, valueByte b = true) → ∃ h, ((fun v => (name, v)) <$>
      okOr (HeaderValue.fromBytes bs) .badCredentialEncoding : Except ApiFailure (HeaderName × HeaderValue)) = .ok h := by
    intro bs hbs
    obtain ⟨v, hv⟩ := Option.isSome_iff_exists.1 (HeaderValue.fromBytes_isSome hbs)
    exact ⟨(name, v), by rw [hv]; rfl⟩
  unfold injectionHeader
  rw [hspec]
  cases spec with
  | bearer =>
      have hbearer : ∀ b ∈ bytes "Bearer ", valueByte b = true := by decide +kernel
      exact hvalue (bytes "Bearer " ++ []) (by simpa using hbearer)
  | header n => exact hvalue [] (by simp)
  | basicPassword username =>
      apply hvalue
      intro b hb
      rcases List.mem_append.1 hb with hb | hb
      · have hbasic : ∀ b ∈ bytes "Basic ", valueByte b = true := by decide +kernel
        exact hbasic b hb
      · exact valueByte_of_visible (base64Encode_visible _ b hb)
  | awsSigV4 scope => cases hsigns

theorem resolveSpec_signs {secret : Db.SecretRow} {scope : Sigv4.Scope} (h : resolveSpec secret = .ok (.awsSigV4 scope)) :
    Visible scope.region ∧ Visible scope.service := by
  unfold resolveSpec at h
  split_ifs at h
  · cases h
  · cases hh : secret.injectionHeader with
    | none => rw [hh] at h; cases h
    | some n => rw [hh] at h; cases h
  · cases hu : (secret.injectionUsername <|> secret.injectionHeader) with
    | none => rw [hu] at h; cases h
    | some n => rw [hu] at h; cases h
  · split at h
    · rename_i region service _ hparse
      cases h
      rw [Option.map_eq_some_iff] at hparse
      obtain ⟨text, -, htext⟩ := hparse
      exact Sigv4.parseScope_visible htext
    · cases h

/-- What holds of a call that gets to the accounting. -/
theorem admission_ok {env : ProxyEnv} {v : Views} {grantId : Uuid} {req : ProxyRequest} {a : Admitted}
    (h : admission env v grantId req = .ok a) :
    (∃ name, a.spec.validate = .ok name) ∧ a.sentUrl.host.isSome = true ∧
      a.call.method = toAsciiUppercase req.method.str ∧
      ∀ scope, a.spec = .awsSigV4 scope → Visible scope.accessKeyId ∧ Visible scope.region ∧ Visible scope.service := by
  simp only [admission, bind_eq_ok, okOr_eq_ok, refuseIf_eq_ok] at h
  obtain ⟨client, -, grant, -, -, -, found, -, secret, -, -, -, call, hcall, body, -, version, -, spec, hspec, name, hname,
    -, -, sentUrl, hurl, ha⟩ := h
  cases ha
  refine ⟨⟨name, hname⟩, ?_, ?_, ?_⟩
  · unfold outboundUrl at hurl
    rw [Option.map_eq_some_iff] at hurl
    obtain ⟨u, hu, rfl⟩ := hurl
    unfold Origin.toDisplay at hu
    split at hu
    · rw [String.append_assoc, String.append_assoc] at hu
      exact env.url.host_of_https _ u hu
    · exact env.url.host_of_https _ u hu
  · exact admitCall_method hcall
  · rintro scope rfl
    obtain ⟨hregion, hservice⟩ := resolveSpec_signs hspec
    refine ⟨?_, hregion, hservice⟩
    simp only [InjectionSpec.validate] at hname
    split at hname
    · rename_i hid _
      exact Sigv4.validateAccessKeyId_visible hid
    · cases hname

/-- The grant has a use to give. -/
def Spendable (s : Store) (grantId : Uuid) (now : DateTime) : Prop :=
  ∃ g, s.findGrant grantId = some g ∧ g.live now = true ∧ g.usesLeft = true ∧ g.useCount ≠ i32Max

theorem handleInner_spent {env : ProxyEnv} {v : Views} {grantId : Uuid} {req : ProxyRequest} {a : Admitted}
    (h : admission env v grantId req = .ok a) (hs : Spendable v.use grantId env.now) :
    ∃ g, v.use.findGrant grantId = some g ∧ ∀ opened upstream, handleInner env v grantId req opened upstream = (do
        let plaintext ← okOr opened (.internal "decryption failed")
        let outbound ← inject env req a plaintext
        forward upstream a outbound,
      v.use.afterUse g none (some a.version.id)
        (attemptRow env.now .proxyAttempt g (some a.version.id) (some a.target) none) env.now) := by
  obtain ⟨g, hg, hlive, hleft, hmax⟩ := hs
  refine ⟨g, hg, ?_⟩
  intro opened upstream
  have hexec := exec_beginGrantUse v.use grantId none (some a.version.id) .proxyAttempt env.replayWindow (some a.target)
    env.now
  simp only [hg, hlive, hleft, hmax, Option.bind_none, Bool.not_true, Bool.false_eq_true, if_false] at hexec
  simp only [handleInner, h, Txn.run, hexec]

/-- A use that commits had one to give. -/
theorem spendable_of_use {s s' : Store} {r : Reply} {grantId : Uuid} {versionId : Option Uuid} {kind : AuditKind}
    {window : Int} {target : Option AuditTarget} {now : DateTime}
    (h : (beginGrantUse grantId none versionId kind window target now).exec s = .ok (r, s')) :
    Spendable s grantId now := by
  obtain ⟨g, hg, hlive, ⟨prior, hprior, -⟩ | ⟨-, hleft, -, -⟩⟩ := beginGrantUse_ok h
  · cases hprior
  · refine ⟨g, hg, hlive, hleft, ?_⟩
    intro hmax
    rw [exec_beginGrantUse] at h
    simp [hg, hlive, hleft, hmax] at h

theorem handleInner_unspent {env : ProxyEnv} {v : Views} {grantId : Uuid} {req : ProxyRequest} {a : Admitted}
    (h : admission env v grantId req = .ok a) (hs : ¬ Spendable v.use grantId env.now) (opened : Option Blob)
    (upstream : Upstream) : (handleInner env v grantId req opened upstream).2 = v.use := by
  simp only [handleInner, h]
  rcases Txn.run_cases (beginGrantUse grantId none (some a.version.id) .proxyAttempt env.replayWindow (some a.target)
    env.now) v.use with ⟨r, s', hexec, -⟩ | ⟨r, -, hrun⟩
  · exact absurd (spendable_of_use hexec) hs
  · rw [hrun]
    split <;> simp_all

/-! ## The cost of a refusal -/

/-- The request is refused whatever the plaintext, and whatever upstream would have answered. -/
def Refused (env : ProxyEnv) (v : Views) (grantId : Uuid) (req : ProxyRequest) : Prop :=
  ∀ plaintext upstream, ∃ e, (handleInner env v grantId req (some plaintext) upstream).1 = .error e

/-- No use of the grant was counted and no attempt was recorded. -/
def Unspent (grantId : Uuid) (s s' : Store) : Prop :=
  (s'.findGrant grantId).map (·.useCount) = (s.findGrant grantId).map (·.useCount) ∧
    s'.audit.filter (·.kind = .proxyAttempt) = s.audit.filter (·.kind = .proxyAttempt)

/-- The call gets to the signer, after the accounting, with a header that the signer cannot read as text. -/
def SignsOpaque (env : ProxyEnv) (v : Views) (grantId : Uuid) (req : ProxyRequest) : Prop :=
  ∃ a, admission env v grantId req = .ok a ∧ a.spec.signs = true ∧ Spendable v.use grantId env.now ∧
    ¬ AmzVisible (buildOutboundHeaders req.headers a.spec.ownedHeaders)

/-- An upstream that answers. -/
def upstreamOk : Upstream := fun _ _ _ _ => .ok ⟨200, []⟩

theorem forward_ok {req : ProxyRequest} {a : Admitted} (h : a.call.method = toAsciiUppercase req.method.str)
    (outbound : HeaderMap) : ∃ r, forward upstreamOk a outbound = .ok r := by
  obtain ⟨m, hm⟩ := Option.isSome_iff_exists.1 req.method.fromStr_upper
  unfold forward
  rw [h, hm]
  exact ⟨_, rfl⟩

/-- Where every header the signer reads is text, some plaintext gets through to upstream. -/
theorem inject_ok {env : ProxyEnv} {v : Views} {grantId : Uuid} {req : ProxyRequest} {a : Admitted}
    (h : admission env v grantId req = .ok a)
    (hvis : a.spec.signs = true → AmzVisible (buildOutboundHeaders req.headers a.spec.ownedHeaders)) :
    ∃ outbound, inject env req a [] = .ok outbound := by
  obtain ⟨⟨name, hname⟩, hhost, -, hscope⟩ := admission_ok h
  unfold inject
  cases hspec : a.spec with
  | awsSigV4 scope =>
      rw [hspec] at hvis
      obtain ⟨hid, hregion, hservice⟩ := hscope scope hspec
      obtain ⟨hs, hsign⟩ := sigv4Headers_ok [] hhost (hvis rfl) hid hregion hservice
      exact ⟨_, bind_eq_ok.2 ⟨hs, hsign, rfl⟩⟩
  | _ =>
      rw [hspec] at hname
      obtain ⟨h, hh⟩ := injectionHeader_ok hname rfl
      exact ⟨_, bind_eq_ok.2 ⟨h, hh, rfl⟩⟩

theorem inject_error {env : ProxyEnv} {req : ProxyRequest} {a : Admitted} (hsigns : a.spec.signs = true)
    (hvis : ¬ AmzVisible (buildOutboundHeaders req.headers a.spec.ownedHeaders)) (plaintext : Blob) :
    ∃ e, inject env req a plaintext = .error e := by
  unfold inject
  cases hspec : a.spec with
  | awsSigV4 scope =>
      rw [hspec] at hvis
      obtain ⟨e, he⟩ := @sigv4Headers_error env.sign scope a.call.method a.sentUrl _ a.body env.signedAt plaintext hvis
      exact ⟨e, by simp only [he]; rfl⟩
  | _ => rw [hspec] at hsigns; cases hsigns

theorem not_unspent_afterUse {grantId : Uuid} {s : Store} {g : GrantRow} {versionId : Option Uuid}
    {target : Option AuditTarget} {now : DateTime} :
    ¬ Unspent grantId s (s.afterUse g none versionId (attemptRow now .proxyAttempt g versionId target none) now) := by
  intro h
  have hlen := congrArg List.length h.2
  simp [Store.afterUse, attemptRow] at hlen

/-- A call that the signer refuses over such a header has already been accounted. -/
theorem refused_of_signsOpaque {env : ProxyEnv} {v : Views} {grantId : Uuid} {req : ProxyRequest}
    (h : SignsOpaque env v grantId req) : Refused env v grantId req ∧
      ∀ opened upstream, ¬ Unspent grantId v.use (handleInner env v grantId req opened upstream).2 := by
  obtain ⟨a, hadm, hsigns, hspend, hvis⟩ := h
  obtain ⟨g, -, hrun⟩ := handleInner_spent hadm hspend
  constructor
  · intro plaintext upstream
    obtain ⟨e, he⟩ := @inject_error env req a hsigns hvis plaintext
    refine ⟨e, ?_⟩
    rw [hrun]
    change (inject env req a plaintext >>= forward upstream a) = _
    rw [he]
    rfl
  · intro opened upstream hunspent
    rw [hrun] at hunspent
    exact not_unspent_afterUse hunspent

/-- A call that is refused whatever the plaintext costs nothing, unless it is refused by the signer over a header that
is not text: that check comes after the accounting. -/
theorem refusal_free_iff (env : ProxyEnv) (v : Views) (grantId : Uuid) (req : ProxyRequest) :
    (Refused env v grantId req →
      ∀ opened upstream, Unspent grantId v.use (handleInner env v grantId req opened upstream).2) ↔
    ¬ SignsOpaque env v grantId req := by
  constructor
  · intro hfree hopaque
    obtain ⟨hrefused, hspent⟩ := refused_of_signsOpaque hopaque
    exact hspent none upstreamOk (hfree hrefused none upstreamOk)
  · intro hclean hrefused opened upstream
    have hsame : (handleInner env v grantId req opened upstream).2 = v.use := by
      cases hadm : admission env v grantId req with
      | error e => simp only [handleInner, hadm]
      | ok a =>
          by_cases hspend : Spendable v.use grantId env.now
          · -- an accounted call is not refused for every plaintext
            exfalso
            obtain ⟨g, -, hrun⟩ := handleInner_spent hadm hspend
            have hvis : a.spec.signs = true → AmzVisible (buildOutboundHeaders req.headers a.spec.ownedHeaders) := by
              intro hsigns
              by_contra hvis
              exact hclean ⟨a, hadm, hsigns, hspend, hvis⟩
            obtain ⟨outbound, hout⟩ := inject_ok hadm hvis
            obtain ⟨r, hr⟩ := forward_ok (admission_ok hadm).2.2.1 outbound
            obtain ⟨e, he⟩ := hrefused [] upstreamOk
            rw [hrun] at he
            change (inject env req a [] >>= forward upstreamOk a) = _ at he
            rw [hout] at he
            cases hr.symm.trans he
          · exact handleInner_unspent hadm hspend opened upstream
    rw [hsame]
    exact ⟨rfl, rfl⟩

/-! ### A metadata header in Latin-1 -/

/-- A bucket key, brokered once to one client. -/
def bucketStore : Store := { Store.empty with
  clients := ⟨[⟨1, "agent", 0, ["brokered"], true, false⟩], List.pairwise_singleton _ _⟩
  secrets := ⟨[⟨2, "bucket-key", "", 0, "aws-sigv4", some "us-east-1/s3", some "AKIDEXAMPLE", 1, true, true, false,
    DateTime.ofSeconds 1790000000, DateTime.ofSeconds 1790000000⟩], List.pairwise_singleton _ _⟩
  versions := ⟨[⟨3, 2, 1, ⟨[7], [8], [9], "k0"⟩, DateTime.ofSeconds 1790000000, none⟩], List.pairwise_singleton _ _⟩
  grants := ⟨[⟨4, 5, "agent", "bucket-key", "brokered", ⟨[⟨"s3.example.com", none⟩], ["PUT"], ["/bucket/"], 600, some 1⟩,
    DateTime.ofSeconds 1800000600, some 1, 0, false, none, none, none, false, DateTime.ofSeconds 1800000000⟩],
    List.pairwise_singleton _ _⟩ }

/-- `https://` and a host name with no port. -/
def plainUrlLib : UrlLib where
  parse s := if startsWith "https://" s then some ⟨some (String.ofList (s.toList.drop 8)), none, "/", none⟩ else none
  encodePath s := s
  encodeQuery s := s
  host_of_https rest u h := by
    split_ifs at h
    cases h
    rfl

/-- One instant's texts; the call below is refused before anything is hashed. -/
def fixedSignLib : Sigv4.SignLib where
  sha256 _ := []
  hmac _ _ := []
  amzDate _ := "20270115T080000Z"
  day _ := "20270115"
  amzDate_visible _ := by decide +kernel
  day_visible _ := by decide +kernel

def bucketEnv : ProxyEnv where
  client := .ok "agent"
  slotFree := true
  maxBody := 1048576
  replayWindow := 300
  url := plainUrlLib
  sign := fixedSignLib
  now := DateTime.ofSeconds 1800000000
  signedAt := DateTime.ofSeconds 1800000000

/-- `x-amz-meta-note`, with one byte outside ASCII in its value. -/
def noteUpload : ProxyRequest where
  method := ⟨"PUT", by decide +kernel⟩
  rawPath := "/v1/grants/00000000-0000-0000-0000-000000000004/proxy/bucket/a.txt"
  query := none
  headers := [(⟨"x-amz-meta-note", by decide +kernel⟩, ⟨[110, 233], by decide +kernel⟩)]
  body := [some [104, 105]]

def bucketViews : Views := ⟨bucketStore, bucketStore, bucketStore, bucketStore, bucketStore⟩

theorem refusal_spends : Refused bucketEnv bucketViews 4 noteUpload ∧
    ∀ opened upstream,
      ¬ Unspent 4 bucketViews.use (handleInner bucketEnv bucketViews 4 noteUpload opened upstream).2 := by
  apply refused_of_signsOpaque
  have hsigns : (admission bucketEnv bucketViews 4 noteUpload).toOption.any (·.spec.signs) = true := by decide +kernel
  cases hadm : admission bucketEnv bucketViews 4 noteUpload with
  | error e => rw [hadm] at hsigns; cases hsigns
  | ok a =>
      rw [hadm] at hsigns
      replace hsigns : a.spec.signs = true := hsigns
      refine ⟨a, hadm, hsigns, ⟨_, rfl, by decide +kernel, by decide +kernel, by decide +kernel⟩, ?_⟩
      cases hspec : a.spec with
      | awsSigV4 scope => exact (by decide +kernel : ¬ AmzVisible (buildOutboundHeaders noteUpload.headers
          ("authorization" :: Sigv4.synthesized ++ Sigv4.strippedCallerHeaders)))
      | _ => rw [hspec] at hsigns; cases hsigns

end Keychute.Proxy
