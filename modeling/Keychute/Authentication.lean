import Keychute.Api.Grants
import Keychute.Db.Secrets
import Keychute.Http
import Keychute.Lib.Percent
import Keychute.Reconcile.Clients

/-!
# Who a bearer token is (`server/src/authn/client.rs`)

* `authenticateClient` : a static token by its digest, and else a service account that a TokenReview vouches for;
* `reconciled_rows` : the rows that start-up leaves, each a configured client's or retired;
* `authenticates_iff` : after a start-up, whatever rows it found, a token is the client that the config binds to it, and
  nobody else's.
-/

namespace Keychute.Authn
open Keychute.Api Keychute.Http Keychute.Lib Keychute.Reconcile

/-! ## The functions of `client.rs` -/

/-- `str::split_once(' ')`. -/
def splitOnceSpace (s : String) : Option (String × String) :=
  if s.toList.contains ' ' then
    some (String.ofList (s.toList.takeWhile (· != ' ')), String.ofList ((s.toList.dropWhile (· != ' ')).drop 1))
  else none

/-- The token of the first `Authorization` header; the scheme matches in any case. -/
def bearerToken (headers : HeaderMap) : Option String := do
  let header ← (headers.getAll "authorization").head?
  let value ← header.toStr
  let (scheme, token) ← splitOnceSpace value
  if !eqIgnoreAsciiCase scheme "bearer" then none
  else if trim token = "" then none
  else some (trim token)

/-- `hex::decode`, on the bytes. -/
def hexPairs : List UInt8 → Option (List UInt8)
  | [] => some []
  | [_] => none
  | h :: l :: rest => do
    let b ← escaped? h l
    let bs ← hexPairs rest
    return b :: bs

def hexDecode (s : String) : Option (List UInt8) := hexPairs (bytes s)

/-- What comes of a TokenReview call: it failed, the answer was no success or no review, or its status. -/
inductive ReviewAnswer where
  | failed (what : String)
  | refused
  | status (authenticated : Bool) (audiences : List String) (username : String)

/-- What authentication runs with; `review` is the API server, asked about a token and audiences. -/
structure AuthEnv where
  sha256 : List UInt8 → List UInt8
  tokenreviewUrl : Option String
  clients : List ClientConfig
  review : String → List String → ReviewAnswer

def getClientByTokenHash (rows : List ClientRow) (hash : String) : Option ClientRow :=
  rows.find? (·.apiTokenSha256 == some hash)

def getClientsBySaSubject (rows : List ClientRow) (subject : String) : List ClientRow :=
  rows.filter (·.saSubject == some subject)

section
variable (env : AuthEnv) (rows : List ClientRow)

/-- All audiences of the config. -/
def reviewAudiences : List String :=
  Db.sortDedup (env.clients.filterMap fun c => c.auth.serviceAccount.map (·.audience))

/-- The enabled clients of this service account, with an audience that was validated. -/
def candidates (audiences : List String) (username : String) : List ClientRow :=
  (getClientsBySaSubject rows username).filter fun r => r.enabled && r.saAudience.any audiences.contains

def tokenreviewAuthenticate (token : String) : Except ApiFailure ClientRow :=
  if env.tokenreviewUrl.isNone then .error .unauthenticated
  else if (reviewAudiences env).isEmpty then .error .unauthenticated
  else
    match env.review token (reviewAudiences env) with
    | .failed what => .error (.internal what)
    | .refused => .error .unauthenticated
    | .status authenticated audiences username =>
      if !authenticated || username == "" then .error .unauthenticated
      else
        match candidates rows audiences username with
        | [r] => .ok r
        | _ => .error .unauthenticated

/-- The digest that a token is looked up by. -/
def presentedHash (token : String) : String := hexEncode (env.sha256 (bytes token))

/-- The digests, compared in full once more. -/
def sameDigest (stored presented : String) : Bool :=
  (hexDecode (toAsciiLowercase stored)).getD [] == (hexDecode presented).getD []

def authenticateClient (headers : HeaderMap) : Except ApiFailure ClientRow :=
  match bearerToken headers with
  | none => .error .unauthenticated
  | some token =>
    match getClientByTokenHash rows (presentedHash env token) with
    | some row =>
      if sameDigest (row.apiTokenSha256.getD "") (presentedHash env token) && row.enabled then .ok row
      else .error .unauthenticated
    | none =>
      if env.tokenreviewUrl.isSome then tokenreviewAuthenticate env rows token else .error .unauthenticated

end

/-! ## The second comparison -/

theorem toAsciiLowercase_hexEncode (bs : List UInt8) : toAsciiLowercase (hexEncode bs) = hexEncode bs := by
  have hdigit : ∀ n : Fin 16, (hexDigits.getD n.val '0').toLower = hexDigits.getD n.val '0' := by decide +kernel
  unfold toAsciiLowercase hexEncode
  rw [String.toList_ofList, List.map_flatMap]
  congr 1
  apply List.flatMap_congr
  intro b _
  have hb := b.toNat_lt
  have hhigh := hdigit ⟨b.toNat / 16, by omega⟩
  have hlow := hdigit ⟨b.toNat % 16, by omega⟩
  simp only [List.map_cons, List.map_nil, hhigh, hlow]

/-- Decoding an encoding does not fail. -/
theorem hexDecode_hexEncode (bs : List UInt8) : hexDecode (hexEncode bs) = some bs := by
  have hchar : ∀ n : Fin 16, String.utf8EncodeChar (hexDigits.getD n.val '0') =
      [UInt8.ofNat (hexDigits.getD n.val '0').toNat] := by decide +kernel
  have hpair : ∀ n : Fin 256, escaped? (UInt8.ofNat (hexDigits.getD (n.val / 16) '0').toNat)
      (UInt8.ofNat (hexDigits.getD (n.val % 16) '0').toNat) = some ⟨⟨n⟩⟩ := by decide +kernel
  unfold hexDecode hexEncode
  rw [bytes_ofList]
  induction bs with
  | nil => rfl
  | cons b bs ih =>
      have hb := b.toNat_lt
      have hhigh := hchar ⟨b.toNat / 16, by omega⟩
      have hlow := hchar ⟨b.toNat % 16, by omega⟩
      have hbyte := hpair b.toBitVec.toFin
      rw [List.flatMap_cons, List.flatMap_append, List.flatMap_cons, List.flatMap_singleton, hhigh, hlow,
        List.singleton_append, List.cons_append, List.singleton_append, hexPairs, ih]
      rw [show escaped? (UInt8.ofNat (hexDigits.getD (b.toNat / 16) '0').toNat)
        (UInt8.ofNat (hexDigits.getD (b.toNat % 16) '0').toNat) = some b from hbyte]
      rfl

theorem sameDigest_self (digest : List UInt8) : sameDigest (hexEncode digest) (hexEncode digest) = true := by
  rw [sameDigest, toAsciiLowercase_hexEncode, hexDecode_hexEncode]
  exact beq_self_eq_true _

/-! ## The rows after start-up -/

/-- What start-up leaves: the indexes hold, every client has its row, and every other row is retired. -/
structure StartedUp (clients : List ClientConfig) (rows : List ClientRow) : Prop where
  indexed : Indexed rows
  apart : clients.Pairwise Apart
  rowOf : ∀ c ∈ clients, ∃ r ∈ rows, Configured c r
  clientOf : ∀ r ∈ rows, (∃ c ∈ clients, Configured c r) ∨ Retired r

/-- Reconciliation of an accepted config with any rows leads there. -/
theorem reconciled_rows {tokenreviewUrl : Option String} {config : List ClientConfig}
    (hvalid : validateClients tokenreviewUrl (normalizeClients config) = .ok ()) {rows rows' : List ClientRow}
    (hI : Indexed rows) {ids : Nat → Uuid}
    (hinj : ∀ i < (normalizeClients config).length, ∀ j < (normalizeClients config).length, ids i = ids j → i = j)
    (hids : ∀ i < (normalizeClients config).length, ∀ a ∈ rows, a.id ≠ ids i)
    (hrows : reconcileClients ids (normalizeClients config) rows = .ok rows') :
    StartedUp (normalizeClients config) rows' := by
  obtain ⟨hapart, hdigest⟩ := validateClients_ok hvalid
  obtain ⟨rows'', hok, hI', rfl⟩ := reconcileClients_eq hI hapart hdigest hinj hids
  rw [hok] at hrows
  obtain rfl := Except.ok.inj hrows
  refine ⟨hI', hapart, fun c hc => ?_, fun r hr => ?_⟩
  · by_cases hname : ∃ r ∈ rows, r.name = c.name
    · obtain ⟨r, hr, hrc⟩ := hname
      refine ⟨finalRow _ r, List.mem_append_left _ (List.mem_map_of_mem hr), ?_⟩
      rw [finalRow_of_mem hapart hc hrc]
      exact configured_setConfig (hdigest c hc) hrc
    · have hnew : (rows.map (·.name)).contains c.name = false := by
        rw [← Bool.not_eq_true, List.contains_iff_mem, List.mem_map]
        exact hname
      obtain ⟨id, hmem⟩ := @newRow_mem_added (normalizeClients config) ids _ c hc hnew
      exact ⟨newRow c id, List.mem_append_right _ hmem, configured_setConfig (hdigest c hc) rfl⟩
  · rcases List.mem_append.1 hr with hr | hr
    · obtain ⟨r₀, -, rfl⟩ := List.mem_map.1 hr
      by_cases h : ∃ c ∈ normalizeClients config, c.name = r₀.name
      · obtain ⟨c, hc, hname⟩ := h
        rw [finalRow_of_mem hapart hc hname.symm]
        exact Or.inl ⟨c, hc, configured_setConfig (hdigest c hc) hname.symm⟩
      · rw [finalRow_of_forall_ne fun c hc hname => h ⟨c, hc, hname⟩]
        exact Or.inr ⟨rfl, released_retire r₀, rfl⟩
    · obtain ⟨c, hc, id, rfl⟩ := mem_added hr
      exact Or.inl ⟨c, hc, configured_setConfig (hdigest c hc) rfl⟩

section
variable {clients : List ClientConfig} {rows : List ClientRow} {c d : ClientConfig} {r r' : ClientRow}

theorem StartedUp.row_unique (h : StartedUp clients rows) (hr : r ∈ rows) (hr' : r' ∈ rows)
    (hclash : r.clashes r' = true) : r = r' := by
  by_contra hne
  have hsymm : Std.Symm fun a b : ClientRow => a.clashes b = false := by
    refine ⟨fun a b hab => ?_⟩
    rw [ClientRow.clashes_comm]
    exact hab
  rw [h.indexed.forall hr hr' hne] at hclash
  cases hclash

theorem StartedUp.client_unique (h : StartedUp clients rows) (hc : c ∈ clients) (hd : d ∈ clients)
    (hname : c.name = d.name) : c = d := by
  by_contra hne
  have hsymm : Std.Symm Apart := ⟨fun _ _ hab => hab.symm⟩
  exact (h.apart.forall hc hd hne).name hname

/-- A client has one row, and a row one client. -/
theorem StartedUp.row_eq (h : StartedUp clients rows) (hr : r ∈ rows) (hr' : r' ∈ rows) (hc : Configured c r)
    (hc' : Configured c r') : r = r' := by
  refine h.row_unique hr hr' ?_
  rw [ClientRow.clashes, hc.name, hc'.name, beq_self_eq_true, Bool.or_true, Bool.true_or]

theorem StartedUp.client_eq (h : StartedUp clients rows) (hc : c ∈ clients) (hd : d ∈ clients) (hcr : Configured c r)
    (hdr : Configured d r) : c = d := h.client_unique hc hd (hcr.name.symm.trans hdr.name)

/-- A row with a digest is the one of the client with the digest. -/
theorem StartedUp.client_of_token (h : StartedUp clients rows) (hr : r ∈ rows) {digest : String}
    (htoken : r.apiTokenSha256 = some digest) :
    ∃ c ∈ clients, Configured c r ∧ c.auth.apiTokenSha256 = some digest := by
  rcases h.clientOf r hr with ⟨c, hc, hcr⟩ | hret
  · exact ⟨c, hc, hcr, hcr.apiTokenSha256.symm.trans htoken⟩
  · rw [hret.released.apiTokenSha256] at htoken
    cases htoken

theorem StartedUp.row_of_token (h : StartedUp clients rows) (hr : r ∈ rows) (hr' : r' ∈ rows) {digest : String}
    (htoken : r.apiTokenSha256 = some digest) (htoken' : r'.apiTokenSha256 = some digest) : r = r' := by
  refine h.row_unique hr hr' ?_
  have hshares : r.sharesCredential r' = true := ClientRow.sharesCredential_iff.2 (Or.inl ⟨digest, htoken, htoken'⟩)
  rw [ClientRow.clashes, hshares, Bool.or_true]

/-- The service account of the client is this user, for one of these audiences. -/
def Bound (c : ClientConfig) (audiences : List String) (username : String) : Prop :=
  ∃ b, c.auth.serviceAccount = some b ∧ b.subject = username ∧ b.audience ∈ audiences

theorem mem_candidates_of_configured {audiences : List String} {username : String} (hr : r ∈ rows)
    (hc : Configured c r) : r ∈ candidates rows audiences username ↔ Bound c audiences username := by
  unfold candidates getClientsBySaSubject Bound
  rw [List.mem_filter, List.mem_filter, hc.saSubject, hc.saAudience, hc.enabled]
  cases c.auth.serviceAccount with
  | none => simp
  | some b => simp [hr]

theorem StartedUp.mem_candidates (h : StartedUp clients rows) {audiences : List String} {username : String} :
    r ∈ candidates rows audiences username ↔ r ∈ rows ∧ ∃ c ∈ clients, Configured c r ∧ Bound c audiences username := by
  constructor
  · intro hr
    have hmem : r ∈ rows := List.mem_of_mem_filter (List.mem_of_mem_filter hr)
    rcases h.clientOf r hmem with ⟨c, hc, hcr⟩ | hret
    · exact ⟨hmem, c, hc, hcr, (mem_candidates_of_configured hmem hcr).1 hr⟩
    · -- a retired row has no service account
      have hsub := (List.mem_filter.1 (List.mem_of_mem_filter hr)).2
      rw [hret.released.saSubject] at hsub
      cases hsub
  · rintro ⟨hmem, c, -, hcr, hbound⟩
    exact (mem_candidates_of_configured hmem hcr).2 hbound

theorem StartedUp.nodup (h : StartedUp clients rows) : rows.Nodup := by
  refine h.indexed.imp ?_
  rintro a b hab rfl
  rw [ClientRow.clashes, beq_self_eq_true, Bool.true_or, Bool.true_or] at hab
  cases hab

/-- The candidates are one row exactly where one client is bound so. -/
theorem StartedUp.candidates_eq (h : StartedUp clients rows) {audiences : List String} {username : String} :
    candidates rows audiences username = [r] ↔ r ∈ rows ∧ ∃ c ∈ clients, Configured c r ∧ Bound c audiences username ∧
      ∀ d ∈ clients, Bound d audiences username → d = c := by
  constructor
  · intro heq
    obtain ⟨hr, c, hc, hcr, hbound⟩ := h.mem_candidates.1 (heq ▸ List.mem_singleton.2 rfl)
    refine ⟨hr, c, hc, hcr, hbound, fun d hd hdbound => ?_⟩
    obtain ⟨r', hr', hdr⟩ := h.rowOf d hd
    have hmem : r' ∈ candidates rows audiences username := h.mem_candidates.2 ⟨hr', d, hd, hdr, hdbound⟩
    rw [heq, List.mem_singleton] at hmem
    rw [hmem] at hdr
    exact h.client_eq hd hc hdr hcr
  · rintro ⟨hr, c, hc, hcr, hbound, honly⟩
    have hmem : r ∈ candidates rows audiences username := h.mem_candidates.2 ⟨hr, c, hc, hcr, hbound⟩
    have hall : ∀ r' ∈ candidates rows audiences username, r' = r := by
      intro r' hmem'
      obtain ⟨hr', d, hd, hdr, hdbound⟩ := h.mem_candidates.1 hmem'
      rw [honly d hd hdbound] at hdr
      exact h.row_eq hr' hr hdr hcr
    have hnodup : (candidates rows audiences username).Nodup := (h.nodup.filter _).filter _
    rw [List.eq_replicate_of_mem hall] at hnodup hmem ⊢
    have hle := List.nodup_replicate.1 hnodup
    have hpos := List.length_pos_of_mem hmem
    rw [List.length_replicate] at hpos
    rw [show (candidates rows audiences username).length = 1 by omega]
    rfl

end

/-! ## Who authenticates -/

section
variable {env : AuthEnv} {rows : List ClientRow} {r : ClientRow}

/-- The config gives the token's digest to the client; or to none, and the API server vouches for a service account that
is bound to this client alone. -/
def Vouched (env : AuthEnv) (token : String) (c : ClientConfig) : Prop :=
  c.auth.apiTokenSha256 = some (presentedHash env token) ∨
    (∀ d ∈ env.clients, d.auth.apiTokenSha256 ≠ some (presentedHash env token)) ∧ env.tokenreviewUrl.isSome = true ∧
      ∃ audiences username, env.review token (reviewAudiences env) = .status true audiences username ∧ username ≠ "" ∧
        Bound c audiences username ∧ ∀ d ∈ env.clients, Bound d audiences username → d = c

theorem reviewAudiences_ne_nil {c : ClientConfig} (hc : c ∈ env.clients) {b : ServiceAccountAuth}
    (hb : c.auth.serviceAccount = some b) : (reviewAudiences env).isEmpty = false := by
  have hmem : b.audience ∈ reviewAudiences env := by
    rw [reviewAudiences, Db.sortDedup, List.mem_dedup, List.mem_mergeSort, List.mem_filterMap]
    exact ⟨c, hc, by rw [hb, Option.map_some]⟩
  rw [List.isEmpty_eq_false_iff]
  exact List.ne_nil_of_mem hmem

theorem tokenreviewAuthenticate_eq_ok (h : StartedUp env.clients rows) {token : String} :
    tokenreviewAuthenticate env rows token = .ok r ↔ r ∈ rows ∧ ∃ c ∈ env.clients, Configured c r ∧
      env.tokenreviewUrl.isSome = true ∧ ∃ audiences username,
        env.review token (reviewAudiences env) = .status true audiences username ∧ username ≠ "" ∧
          Bound c audiences username ∧ ∀ d ∈ env.clients, Bound d audiences username → d = c := by
  constructor
  · intro hok
    unfold tokenreviewAuthenticate at hok
    split at hok
    · cases hok
    · rename_i hurl
      split at hok
      · cases hok
      · split at hok
        · cases hok
        · cases hok
        · rename_i authenticated audiences username hreview
          split at hok
          · cases hok
          · rename_i hnamed
            split at hok
            · rename_i r' hcand
              obtain rfl := Except.ok.inj hok
              obtain ⟨hr, c, hc, hcr, hbound, honly⟩ := h.candidates_eq.1 hcand
              simp only [Bool.or_eq_true, Bool.not_eq_true', beq_iff_eq, not_or, Bool.not_eq_false] at hnamed
              rw [Bool.not_eq_true, ← Option.not_isSome, Bool.not_eq_false'] at hurl
              exact ⟨hr, c, hc, hcr, hurl, audiences, username, hnamed.1 ▸ hreview, hnamed.2, hbound, honly⟩
            · cases hok
  · rintro ⟨hr, c, hc, hcr, hurl, audiences, username, hreview, hnamed, hbound, honly⟩
    have hcand := h.candidates_eq.2 ⟨hr, c, hc, hcr, hbound, honly⟩
    obtain ⟨b, hb, -, -⟩ := hbound
    have hnone : env.tokenreviewUrl.isNone = false := by
      rw [← Option.not_isSome, hurl]
      rfl
    have hname : (username == "") = false := beq_false_of_ne hnamed
    unfold tokenreviewAuthenticate
    simp only [hnone, reviewAudiences_ne_nil hc hb, hreview, hname, hcand, Bool.not_true, Bool.or_self,
      Bool.false_eq_true, if_false]

/-- After a start-up with an accepted config, on whatever rows there were, a request authenticates as the row of the one
client that the config and the API server give its token to, and is refused where there is none. -/
theorem authenticates_iff {config : List ClientConfig} (hclients : env.clients = normalizeClients config)
    (hvalid : validateClients env.tokenreviewUrl env.clients = .ok ()) {before : List ClientRow} (hI : Indexed before)
    {ids : Nat → Uuid} (hinj : ∀ i < env.clients.length, ∀ j < env.clients.length, ids i = ids j → i = j)
    (hids : ∀ i < env.clients.length, ∀ a ∈ before, a.id ≠ ids i)
    (hrows : reconcileClients ids env.clients before = .ok rows) (headers : HeaderMap) :
    authenticateClient env rows headers = .ok r ↔ r ∈ rows ∧ ∃ token, bearerToken headers = some token ∧
      ∃ c ∈ env.clients, Configured c r ∧ Vouched env token c := by
  have h : StartedUp env.clients rows := by
    rw [hclients] at hvalid hinj hids hrows ⊢
    exact reconciled_rows hvalid hI hinj hids hrows
  unfold authenticateClient
  cases hbearer : bearerToken headers with
  | none => simp
  | some token =>
      have hsome : ∀ P : String → Prop, (∃ t, some token = some t ∧ P t) ↔ P token := by simp
      rw [hsome]
      cases hfind : getClientByTokenHash rows (presentedHash env token) with
      | some row =>
          -- the row of the client with this digest
          have hmem := List.mem_of_find?_eq_some hfind
          have htoken : row.apiTokenSha256 = some (presentedHash env token) := by simpa using List.find?_some hfind
          obtain ⟨c, hc, hcrow, hdigest⟩ := h.client_of_token hmem htoken
          have hsame : (sameDigest (row.apiTokenSha256.getD "") (presentedHash env token) && row.enabled) = true := by
            rw [htoken, hcrow.enabled, Option.getD_some, presentedHash, sameDigest_self]
            rfl
          simp only [hfind, hsame, if_true]
          constructor
          · intro hok
            obtain rfl := Except.ok.inj hok
            exact ⟨hmem, c, hc, hcrow, Or.inl hdigest⟩
          · rintro ⟨hr, d, hd, hdr, hvouched⟩
            rcases hvouched with hdigest' | ⟨hnone, -⟩
            · rw [h.row_of_token hmem hr htoken (hdr.apiTokenSha256.trans hdigest')]
            · exact absurd hdigest (hnone c hc)
      | none =>
          -- no client has this digest
          have hnone : ∀ d ∈ env.clients, d.auth.apiTokenSha256 ≠ some (presentedHash env token) := by
            intro d hd hdigest
            obtain ⟨r', hr', hdr⟩ := h.rowOf d hd
            have hnot := List.find?_eq_none.1 hfind r' hr'
            rw [hdr.apiTokenSha256, hdigest, beq_self_eq_true] at hnot
            exact hnot rfl
          have hreview := @tokenreviewAuthenticate_eq_ok env rows r h token
          simp only [hfind]
          constructor
          · intro hok
            split at hok
            · obtain ⟨hr, c, hc, hcr, hrest⟩ := hreview.1 hok
              exact ⟨hr, c, hc, hcr, Or.inr ⟨hnone, hrest⟩⟩
            · cases hok
          · rintro ⟨hr, c, hc, hcr, hdigest | ⟨-, hurl, hrest⟩⟩
            · exact absurd hdigest (hnone c hc)
            · rw [if_pos hurl]
              exact hreview.2 ⟨hr, c, hc, hcr, hurl, hrest⟩

end

/-! ### A token that changes hands -/

/-- The SHA-256 digest of `abc`. -/
def abcDigest : List UInt8 :=
  [0xba, 0x78, 0x16, 0xbf, 0x8f, 0x01, 0xcf, 0xea, 0x41, 0x41, 0x40, 0xde, 0x5d, 0xae, 0x22, 0x23,
    0xb0, 0x03, 0x61, 0xa3, 0x96, 0x17, 0x7a, 0x9c, 0xb4, 0x10, 0xff, 0x61, 0xf2, 0x00, 0x15, 0xad]

/-- `ci` takes over the token that `old` had, spelled in capitals. -/
def takenOver : List ClientConfig :=
  [⟨"ci", .brokered, [.brokered], ⟨some " BA7816BF8F01CFEA414140DE5DAE2223B00361A396177A9CB410FF61F20015AD", none⟩, false⟩]

def oldRow : ClientRow := ⟨1, "old", 0, ["brokered"], "api-token", some (hexEncode abcDigest), none, none, true, false⟩

def ciEnv : AuthEnv where
  sha256 bs := if bs = bytes "abc" then abcDigest else []
  tokenreviewUrl := none
  clients := normalizeClients takenOver
  review _ _ := .refused

theorem authorization_valid : isHeaderName "authorization" = true := by decide +kernel

theorem abcValue_valid : (bytes "BEARER abc").all valueByte = true := by decide +kernel

def abcHeaders : HeaderMap := [(⟨"authorization", authorization_valid⟩, ⟨bytes "BEARER abc", abcValue_valid⟩)]

def ciRow : ClientRow :=
  ⟨2, "ci", 0, ["brokered"], "api-token", some (hexEncode abcDigest), none, none, true, false⟩

theorem authenticates_iff_taken_over :
    authenticateClient ciEnv [{ oldRow with enabled := false, apiTokenSha256 := none }, ciRow] abcHeaders = .ok ciRow := by
  have hvalid : validateClients none (normalizeClients takenOver) = .ok () := by decide +kernel
  have hI : Indexed [oldRow] := List.pairwise_singleton _ _
  have hrows : (reconcileClients (fun n => Fin.ofNat _ (n + 2)) (normalizeClients takenOver) [oldRow]) =
      .ok [{ oldRow with enabled := false, apiTokenSha256 := none }, ciRow] := by decide +kernel
  have hbearer : bearerToken abcHeaders = some "abc" := by decide +kernel
  have hconf : ∀ c ∈ normalizeClients takenOver, Configured c ciRow := by
    intro c hc
    obtain rfl := List.mem_singleton.1 hc
    exact ⟨rfl, rfl, rfl, rfl, by decide +kernel, rfl, rfl, rfl⟩
  obtain ⟨c, hc, hdigest⟩ : ∃ c ∈ normalizeClients takenOver,
      c.auth.apiTokenSha256 = some (presentedHash ciEnv "abc") := ⟨_, List.mem_singleton.2 rfl, by decide +kernel⟩
  exact (@authenticates_iff ciEnv _ ciRow takenOver rfl hvalid [oldRow] hI _ (by decide) (by decide) hrows abcHeaders).2
    ⟨by simp, "abc", hbearer, c, hc, hconf c hc, Or.inl hdigest⟩

end Keychute.Authn
