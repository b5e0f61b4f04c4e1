import Keychute.Forwarding
import Keychute.Lib.Delimited

/-!
# What a signature covers (`server/src/sigv4.rs`, `server/src/proxy.rs`)

* `foldHeaders_sorted`, `foldHeaders_joined` : the fields under the signature, each name once;
* `canonicalRequest`, `canonicalRequest_inj` : the text that is signed, and that it determines what it is made of;
* `stringToSign`, `signingKey`, `signature` : what the `authorization` header carries;
* `signedRequest`, `SignedRun` : the request that the signer gets in a call that is forwarded;
* `signature_covers` : it is the request that is sent.
-/

namespace Keychute.Sigv4
open Keychute.Http Keychute.Db Keychute.Lib

/-! ## The folded fields -/

/-- An insertion sort leaves elements in order that it need not move past each other. -/
theorem filter_insertionSort {α : Type} {r : α → α → Prop} [DecidableRel r] {p : α → Bool}
    (hp : ∀ a b, p a = true → p b = true → r a b) (l : List α) : (l.insertionSort r).filter p = l.filter p := by
  have hpair : (l.filter p).Pairwise r := by
    apply List.pairwise_of_forall_mem_list
    intro a ha b hb
    exact hp a b (List.mem_filter.1 ha).2 (List.mem_filter.1 hb).2
  have hsub : (l.filter p).Sublist (l.insertionSort r) := List.sublist_insertionSort hpair List.filter_sublist
  have hfilter := hsub.filter p
  rw [List.filter_filter] at hfilter
  simp only [Bool.and_self] at hfilter
  have hlen : (l.filter p).length = ((l.insertionSort r).filter p).length :=
    ((List.perm_insertionSort r l).filter p).length_eq.symm
  exact (hfilter.eq_of_length hlen).symm

/-- The values of one name, joined by commas. -/
def joined (fields : List (String × String)) (name : String) : String :=
  ",".intercalate ((fields.filter (·.1 == name)).map (·.2))

theorem foldHeaders_names {fields : List (String × String)} {name : String} :
    name ∈ (foldHeaders fields).map (·.1) ↔ name ∈ fields.map (·.1) := by
  refine ⟨mem_foldHeaders, ?_⟩
  induction fields with
  | nil => exact id
  | cons kv rest ih =>
      obtain ⟨k, v⟩ := kv
      intro h
      rw [List.map_cons, List.mem_cons] at h
      unfold foldHeaders
      split
      · rename_i k' v' more hrest
        rw [hrest] at ih
        split
        · rename_i hk
          rcases h with rfl | h
          · exact List.mem_cons_self
          · have hin := ih h
            rw [List.map_cons, List.mem_cons] at hin ⊢
            rwa [hk]
        · rcases h with rfl | h
          · exact List.mem_cons_self
          · exact List.mem_cons_of_mem _ (ih h)
      · rename_i hrest
        rw [hrest] at ih
        rcases h with rfl | h
        · exact List.mem_cons_self
        · cases ih h

theorem foldHeaders_eq_nil {fields : List (String × String)} (h : foldHeaders fields = []) : fields = [] := by
  cases fields with
  | nil => rfl
  | cons kv rest =>
      have hin : kv.1 ∈ (foldHeaders (kv :: rest)).map (·.1) := foldHeaders_names.2 (by simp)
      rw [h] at hin
      cases hin

/-- The fields are sorted by name. -/
def SortedByName (fields : List (String × String)) : Prop := fields.Pairwise fun a b => a.1 ≤ b.1

theorem lt_of_le_of_ne {a b : String} (hle : a ≤ b) (hne : a ≠ b) : a < b :=
  String.not_le.1 fun hge => hne (String.le_antisymm hle hge)

/-- After the fold each name is there once, in order. -/
theorem foldHeaders_sorted {fields : List (String × String)} (h : SortedByName fields) :
    (foldHeaders fields).Pairwise fun a b => a.1 < b.1 := by
  induction fields with
  | nil => exact .nil
  | cons kv rest ih =>
      obtain ⟨k, v⟩ := kv
      unfold SortedByName at h
      rw [List.pairwise_cons] at h
      obtain ⟨hfirst, hrest⟩ := h
      have hsorted := ih hrest
      have hle : ∀ name ∈ (foldHeaders rest).map (·.1), k ≤ name := by
        intro name hname
        obtain ⟨field, hfield, rfl⟩ := List.mem_map.1 (foldHeaders_names.1 hname)
        exact hfirst field hfield
      unfold foldHeaders
      split
      · rename_i k' v' more heq
        rw [heq] at hsorted hle
        rw [List.pairwise_cons] at hsorted
        split
        · rename_i hk
          subst hk
          exact List.pairwise_cons.2 hsorted
        · rename_i hk
          have hlt : k < k' := lt_of_le_of_ne (hle k' (by simp)) hk
          refine List.pairwise_cons.2 ⟨?_, List.pairwise_cons.2 hsorted⟩
          intro field hfield
          rcases List.mem_cons.1 hfield with rfl | hfield
          · exact hlt
          · exact String.lt_trans hlt (hsorted.1 field hfield)
      · exact List.pairwise_singleton _ _

/-- The line of a name holds its values, in their order. -/
theorem foldHeaders_joined {fields : List (String × String)} (h : SortedByName fields) :
    ∀ field ∈ foldHeaders fields, field.2 = joined fields field.1 := by
  induction fields with
  | nil =>
      intro field hfield
      cases hfield
  | cons kv rest ih =>
      obtain ⟨k, v⟩ := kv
      have hsorted := foldHeaders_sorted h
      unfold SortedByName at h
      rw [List.pairwise_cons] at h
      have hjoined := ih h.2
      have hother : ∀ name, name ≠ k → joined ((k, v) :: rest) name = joined rest name := by
        intro name hname
        rw [joined, List.filter_cons_of_neg (by simpa using hname.symm)]
        rfl
      unfold foldHeaders at hsorted ⊢
      split
      · rename_i k' v' more heq
        rw [heq] at hjoined hsorted
        split
        · rename_i hk
          subst hk
          simp only [if_true] at hsorted
          rw [List.pairwise_cons] at hsorted
          intro field hfield
          rcases List.mem_cons.1 hfield with rfl | hfield
          · have hv' := hjoined (k, v') List.mem_cons_self
            simp only at hv'
            have hsome : (rest.filter (·.1 == k)).map (·.2) ≠ [] := by
              have hin : k ∈ (foldHeaders rest).map (·.1) := by rw [heq]; exact List.mem_cons_self
              obtain ⟨a, ha, hname⟩ := List.mem_map.1 (foldHeaders_names.1 hin)
              exact List.ne_nil_of_mem (List.mem_map.2 ⟨a, List.mem_filter.2 ⟨ha, beq_iff_eq.2 hname⟩, rfl⟩)
            simp only
            rw [joined, List.filter_cons_of_pos (by simp), List.map_cons, String.intercalate_cons_of_ne_nil hsome, hv']
            rfl
          · have hne : field.1 ≠ k := by
              intro heq'
              have hlt := hsorted.1 field hfield
              simp only [heq'] at hlt
              exact String.lt_irrefl k hlt
            rw [hother field.1 hne]
            exact hjoined field (List.mem_cons_of_mem _ hfield)
        · rename_i hk
          simp only [if_neg hk] at hsorted
          rw [List.pairwise_cons] at hsorted
          intro field hfield
          rcases List.mem_cons.1 hfield with rfl | hfield
          · have hnone : (rest.filter (·.1 == k)) = [] := by
              rw [List.filter_eq_nil_iff]
              intro a ha hak
              have hin : a.1 ∈ (foldHeaders rest).map (·.1) := foldHeaders_names.2 (List.mem_map_of_mem ha)
              rw [heq] at hin
              obtain ⟨field, hfield, hname⟩ := List.mem_map.1 hin
              have hlt := hsorted.1 field hfield
              simp only [hname, beq_iff_eq.1 hak] at hlt
              exact String.lt_irrefl k hlt
            simp only
            rw [joined, List.filter_cons_of_pos (by simp), hnone]
            simp
          · have hne : field.1 ≠ k := by
              intro heq'
              have hlt := hsorted.1 field hfield
              simp only [heq'] at hlt
              exact String.lt_irrefl k hlt
            rw [hother field.1 hne]
            exact hjoined field hfield
      · rename_i hnil
        obtain rfl := foldHeaders_eq_nil hnil
        intro field hfield
        obtain rfl := List.mem_singleton.1 hfield
        simp [joined]

/-- The fields under the signature before they are sorted. -/
def unsortedFields (lib : SignLib) (req : Request) (now : DateTime) : List (String × String) :=
  req.extraSignedHeaders.map (fun kv => (toAsciiLowercase kv.1, canonicalHeaderValue kv.2)) ++
    [("host", req.host), ("x-amz-content-sha256", hexEncode (lib.sha256 req.payload)), ("x-amz-date", lib.amzDate now)]

theorem signedFields_eq (lib : SignLib) (req : Request) (now : DateTime) :
    signedFields lib req now = foldHeaders ((unsortedFields lib req now).insertionSort fun a b => a.1 ≤ b.1) := rfl

theorem sortedByName_insertionSort (fields : List (String × String)) :
    SortedByName (fields.insertionSort fun a b => a.1 ≤ b.1) := by
  have htotal : Std.Total fun a b : String × String => a.1 ≤ b.1 := ⟨fun a b => String.le_total a.1 b.1⟩
  have htrans : IsTrans (String × String) fun a b => a.1 ≤ b.1 := ⟨fun _ _ _ => String.le_trans⟩
  exact List.pairwise_insertionSort _ fields

variable (lib : SignLib) (req : Request) (now : DateTime)

theorem signedFields_sorted : (signedFields lib req now).Pairwise fun a b => a.1 < b.1 := by
  rw [signedFields_eq]
  exact foldHeaders_sorted (sortedByName_insertionSort _)

theorem signedFields_names {name : String} :
    name ∈ (signedFields lib req now).map (·.1) ↔ name ∈ (unsortedFields lib req now).map (·.1) := by
  rw [signedFields_eq, foldHeaders_names, ((List.perm_insertionSort _ _).map _).mem_iff]

theorem signedFields_joined : ∀ field ∈ signedFields lib req now, field.2 = joined (unsortedFields lib req now) field.1 := by
  intro field hfield
  rw [signedFields_eq] at hfield
  rw [foldHeaders_joined (sortedByName_insertionSort _) field hfield]
  have hkeep : ∀ a b : String × String, (a.1 == field.1) = true → (b.1 == field.1) = true → a.1 ≤ b.1 := by
    intro a b ha hb
    rw [beq_iff_eq] at ha hb
    exact ha.trans hb.symm ▸ String.le_refl a.1
  unfold joined
  rw [filter_insertionSort hkeep]

/-- Each name under the signature is there once, with its values joined in their order. -/
theorem mem_signedFields_iff {name value : String} : (name, value) ∈ signedFields lib req now ↔
    name ∈ (unsortedFields lib req now).map (·.1) ∧ value = joined (unsortedFields lib req now) name := by
  constructor
  · intro h
    exact ⟨(signedFields_names lib req now).1 (List.mem_map_of_mem h), signedFields_joined lib req now _ h⟩
  · rintro ⟨hname, rfl⟩
    obtain ⟨⟨k, v⟩, hfield, rfl⟩ := List.mem_map.1 ((signedFields_names lib req now).2 hname)
    rw [← signedFields_joined lib req now _ hfield]
    exact hfield

/-! ## The canonical request -/

def signedHeaders : String := ";".intercalate ((signedFields lib req now).map (·.1))

/-- The text whose digest is signed. -/
def canonicalRequest : String :=
  req.method ++ "\n" ++ req.wirePath ++ "\n" ++ "" ++ "\n" ++
    String.join ((signedFields lib req now).map fun kv => kv.1 ++ ":" ++ kv.2 ++ "\n") ++ "\n" ++
    signedHeaders lib req now ++ "\n" ++ hexEncode (lib.sha256 req.payload)

/-- The text under the keyed digest: it holds the digest of the canonical request. -/
def stringToSign (scope : Scope) : String :=
  "AWS4-HMAC-SHA256\n" ++ lib.amzDate now ++ "\n" ++ credentialScope lib scope now ++ "\n" ++
    hexEncode (lib.sha256 (bytes (canonicalRequest lib req now)))

/-- The key of a day, a region and a service, derived from the secret access key. -/
def signingKey (scope : Scope) (secretAccessKey : Blob) : Blob :=
  lib.hmac (lib.hmac (lib.hmac (lib.hmac (bytes "AWS4" ++ secretAccessKey) (bytes (lib.day now)))
    (bytes scope.region)) (bytes scope.service)) (bytes "aws4_request")

/-- The keyed digest that the `authorization` header carries. -/
def signature (scope : Scope) (secretAccessKey : Blob) : String :=
  hexEncode (lib.hmac (signingKey lib now scope secretAccessKey) (bytes (stringToSign lib req now scope)))

/-- The header names the fields under the signature and carries it. -/
theorem sign_authorization (scope : Scope) (key : Blob) : (sign lib scope key req now).authorization =
    "AWS4-HMAC-SHA256 Credential=" ++ scope.accessKeyId ++ "/" ++ credentialScope lib scope now ++ ", SignedHeaders=" ++
      signedHeaders lib req now ++ ", Signature=" ++ signature lib req now scope key := rfl

/-- No line break. -/
def OneLine (s : String) : Prop := '\n' ∉ s.toList

theorem OneLine.append {s t : String} (hs : OneLine s) (ht : OneLine t) : OneLine (s ++ t) := by
  unfold OneLine at hs ht ⊢
  rw [String.toList_append, List.mem_append, not_or]
  exact ⟨hs, ht⟩

theorem OneLine.intercalate {sep : String} (hsep : OneLine sep) {parts : List String}
    (hparts : ∀ p ∈ parts, OneLine p) : OneLine (sep.intercalate parts) := by
  induction parts with
  | nil => simp [OneLine]
  | cons p ps ih =>
      rw [List.forall_mem_cons] at hparts
      cases ps with
      | nil => simpa using hparts.1
      | cons q qs =>
          rw [String.intercalate_cons_of_ne_nil (by simp)]
          exact (hparts.1.append hsep).append (ih hparts.2)

theorem hexEncode_oneLine (bs : Blob) : OneLine (hexEncode bs) := by
  intro hmem
  have hplain := (hexEncode_plain bs _ hmem).2
  exact absurd hplain (by decide)

/-- The parts of a request that are lines of the canonical one, or of a line's two sides. -/
structure Lines : Prop where
  method : OneLine req.method
  path : OneLine req.wirePath
  names : ∀ field ∈ signedFields lib req now, OneLine field.1 ∧ ':' ∉ field.1.toList
  values : ∀ field ∈ signedFields lib req now, OneLine field.2

def fieldLine (field : String × String) : List Char := field.1.toList ++ ':' :: field.2.toList

def requestLines : List (List Char) :=
  [req.method.toList, req.wirePath.toList, []] ++ (signedFields lib req now).map fieldLine ++
    [[], (signedHeaders lib req now).toList, (hexEncode (lib.sha256 req.payload)).toList]

theorem intercalate_append_flatMap {α : Type} (x : α) (ls : List (List α)) {ms : List (List α)} (hms : ms ≠ []) :
    [x].intercalate (ls ++ ms) = ls.flatMap (· ++ [x]) ++ [x].intercalate ms := by
  induction ls with
  | nil => rfl
  | cons l ls ih =>
      rw [List.cons_append, List.intercalate_cons_of_ne_nil (by simp [hms]), ih]
      simp

theorem toList_join (parts : List String) : (String.join parts).toList = parts.flatMap String.toList := by
  induction parts with
  | nil => simp
  | cons p ps ih => rw [String.join_cons, String.toList_append, ih, List.flatMap_cons]

theorem toList_canonicalRequest :
    (canonicalRequest lib req now).toList = ['\n'].intercalate (requestLines lib req now) := by
  unfold canonicalRequest requestLines
  rw [intercalate_append_flatMap _ _ (by simp)]
  simp only [String.toList_append, toList_join, List.flatMap_append, List.flatMap_cons, List.flatMap_nil, List.flatMap_map,
    List.append_assoc, List.intercalate_cons_cons, List.intercalate_singleton, fieldLine]
  simp

theorem requestLines_oneLine (h : Lines lib req now) : ∀ line ∈ requestLines lib req now, '\n' ∉ line := by
  have hsigned : OneLine (signedHeaders lib req now) := by
    have hsep : OneLine ";" := by
      unfold OneLine
      decide
    apply hsep.intercalate
    intro name hname
    obtain ⟨field, hfield, rfl⟩ := List.mem_map.1 hname
    exact (h.names field hfield).1
  intro line hline
  simp only [requestLines, List.mem_append, List.mem_cons, List.mem_map, List.not_mem_nil, or_false] at hline
  rcases hline with ((rfl | rfl | rfl) | ⟨field, hfield, rfl⟩) | rfl | rfl | rfl
  · exact h.method
  · exact h.path
  · simp
  · intro hmem
    rcases List.mem_append.1 hmem with hmem | hmem
    · exact (h.names field hfield).1 hmem
    · rcases List.mem_cons.1 hmem with hcolon | hmem
      · exact absurd hcolon (by decide)
      · exact h.values field hfield hmem
  · simp
  · exact hsigned
  · exact hexEncode_oneLine _

theorem fieldLine_inj {fields fields' : List (String × String)} (h : ∀ field ∈ fields, ':' ∉ field.1.toList)
    (h' : ∀ field ∈ fields', ':' ∉ field.1.toList) (heq : fields.map fieldLine = fields'.map fieldLine) :
    fields = fields' := by
  induction fields generalizing fields' with
  | nil => exact (List.map_eq_nil_iff.1 heq.symm).symm
  | cons field fields ih =>
      cases fields' with
      | nil => cases heq
      | cons field' fields' =>
          rw [List.forall_mem_cons] at h h'
          rw [List.map_cons, List.map_cons, List.cons.injEq] at heq
          obtain ⟨hname, hvalue⟩ := Delimited.terminated ':' field.1.toList field'.1.toList h.1 h'.1 field.2.toList
            field'.2.toList trivial trivial (by simpa [fieldLine] using heq.1)
          rw [ih h.2 h'.2 heq.2, Prod.ext (String.toList_inj.1 hname) (String.toList_inj.1 hvalue)]

theorem hexEncode_inj {bs cs : Blob} (h : hexEncode bs = hexEncode cs) : bs = cs := by
  have hdigits : ∀ i j : Fin 16, hexDigits.getD i.val '0' = hexDigits.getD j.val '0' → i.val = j.val := by decide +kernel
  unfold hexEncode at h
  rw [String.ofList_inj] at h
  induction bs generalizing cs with
  | nil =>
      cases cs with
      | nil => rfl
      | cons c cs => cases h
  | cons b bs ih =>
      cases cs with
      | nil => cases h
      | cons c cs =>
          rw [List.flatMap_cons, List.flatMap_cons] at h
          simp only [List.cons_append, List.nil_append, List.cons.injEq] at h
          obtain ⟨hhigh, hlow, hrest⟩ := h
          have hb := b.toNat_lt
          have hc := c.toNat_lt
          have hdiv := hdigits ⟨b.toNat / 16, by omega⟩ ⟨c.toNat / 16, by omega⟩ hhigh
          have hmod := hdigits ⟨b.toNat % 16, by omega⟩ ⟨c.toNat % 16, by omega⟩ hlow
          have hbyte : b.toNat = c.toNat := by
            simp only at hdiv hmod
            omega
          rw [ih hrest, UInt8.toNat_inj.1 hbyte]

/-- The canonical request determines the method, the path, the fields and the payload's digest. -/
theorem canonicalRequest_inj {lib lib' : SignLib} {req req' : Request} {now now' : DateTime} (h : Lines lib req now)
    (h' : Lines lib' req' now') (heq : canonicalRequest lib req now = canonicalRequest lib' req' now') :
    req.method = req'.method ∧ req.wirePath = req'.wirePath ∧
      signedFields lib req now = signedFields lib' req' now' ∧ lib.sha256 req.payload = lib'.sha256 req'.payload := by
  have hlists := congrArg String.toList heq
  rw [toList_canonicalRequest, toList_canonicalRequest] at hlists
  have hlines : requestLines lib req now = requestLines lib' req' now' := by
    rw [← List.splitOn_intercalate '\n' (requestLines_oneLine lib req now h) (by simp [requestLines]), hlists,
      List.splitOn_intercalate '\n' (requestLines_oneLine lib' req' now' h') (by simp [requestLines])]
  unfold requestLines at hlines
  obtain ⟨hfront, hback⟩ := List.append_inj' hlines rfl
  obtain ⟨hhead, hfields⟩ := List.append_inj hfront rfl
  simp only [List.cons.injEq, String.toList_inj] at hhead hback
  refine ⟨hhead.1, hhead.2.1, ?_, hexEncode_inj hback.2.2.1⟩
  exact fieldLine_inj (fun field hf => (h.names field hf).2) (fun field hf => (h'.names field hf).2) hfields

end Keychute.Sigv4

namespace Keychute.Proxy
open Keychute.Api Keychute.Db Keychute.Http Keychute.Lib

/-! ## The request that is signed -/

/-- The host as the `Host` header carries it. -/
def Url.hostHeader (url : Url) (host : String) : String :=
  match url.port with
  | some port => host ++ ":" ++ toString port
  | none => host

/-- What `sigv4Headers` hands to the signer. -/
def signedRequest (method : String) (url : Url) (outbound : HeaderMap) (payload : Blob) :
    Except ApiFailure Sigv4.Request := do
  let host ← okOr url.host (.internal "upstream URL has no host")
  let extra ← amzHeaders outbound
  return ⟨method, url.hostHeader host, url.path, extra, payload⟩

theorem sigv4Headers_signs {lib : Sigv4.SignLib} {scope : Sigv4.Scope} {key : Blob} {method : String} {url : Url}
    {outbound : HeaderMap} {payload : Blob} {now : DateTime} {hs : HeaderMap}
    (h : sigv4Headers lib scope key method url outbound payload now = .ok hs) :
    ∃ r auth date sha, signedRequest method url outbound payload = .ok r ∧
      HeaderValue.fromStr (Sigv4.sign lib scope key r now).authorization = some auth ∧
      HeaderValue.fromStr (lib.amzDate now) = some date ∧
      HeaderValue.fromStr (hexEncode (lib.sha256 payload)) = some sha ∧
      hs = [(authorization, auth), (amzDateName, date), (amzSha256Name, sha)] := by
  simp only [sigv4Headers, bind_eq_ok, okOr_eq_ok] at h
  obtain ⟨host, hhost, extra, hextra, auth, hauth, date, hdate, sha, hsha, hlist⟩ := h
  cases hlist
  refine ⟨⟨method, url.hostHeader host, url.path, extra, payload⟩, auth, date, sha, ?_, hauth, hdate, hsha, rfl⟩
  exact bind_eq_ok.2 ⟨host, okOr_eq_ok.2 hhost, bind_eq_ok.2 ⟨extra, hextra, rfl⟩⟩

/-- The fields that are signed are the `x-amz-*` headers, as text, in the order of the map. -/
theorem amzHeaders_texts {outbound : HeaderMap} {extra : List (String × String)} (h : amzHeaders outbound = .ok extra) :
    (outbound.filter (isAmz ·.1)).map (fun f => (f.1.str, f.2.toStr)) = extra.map fun kv => (kv.1, some kv.2) := by
  unfold amzHeaders at h
  generalize outbound.filter (isAmz ·.1) = fields at h ⊢
  induction fields generalizing extra with
  | nil =>
      cases h
      rfl
  | cons field fields ih =>
      rw [List.mapM_cons] at h
      obtain ⟨kv, hkv, h⟩ := bind_eq_ok.1 h
      obtain ⟨rest, hrest, h⟩ := bind_eq_ok.1 h
      cases h
      rw [List.map_cons, List.map_cons, ih hrest]
      cases htext : field.2.toStr with
      | none =>
          rw [htext] at hkv
          cases hkv
      | some text =>
          rw [htext] at hkv
          cases hkv
          rfl

/-- The values of a name, as text. -/
def texts (headers : HeaderMap) (name : String) : List (Option String) :=
  (HeaderMap.getAll headers name).map HeaderValue.toStr

theorem texts_amz {outbound : HeaderMap} {extra : List (String × String)} (h : amzHeaders outbound = .ok extra)
    {name : String} (hname : startsWith "x-amz-" name = true) :
    texts outbound name = ((extra.filter (·.1 == name)).map (·.2)).map some := by
  have hfields := congrArg (fun l => (l.filter (·.1 == name)).map (·.2)) (amzHeaders_texts h)
  simp only [List.filter_map, List.map_map, List.filter_filter] at hfields
  have hamz : outbound.filter (fun f => f.1.str == name && isAmz f.1) = outbound.filter (·.1.str == name) := by
    apply List.filter_congr
    intro f _
    by_cases hf : f.1.str = name
    · simp [isAmz, hf, hname]
    · simp [hf]
  unfold texts HeaderMap.getAll
  rw [List.map_map, List.map_map, ← hamz]
  exact hfields

theorem amzHeaders_names {outbound : HeaderMap} {extra : List (String × String)} (h : amzHeaders outbound = .ok extra) :
    ∀ kv ∈ extra, ∃ n : HeaderName, kv.1 = n.str ∧ ∃ v, (n, v) ∈ outbound := by
  intro kv hkv
  have hin : (kv.1, some kv.2) ∈ extra.map fun kv => (kv.1, some kv.2) := List.mem_map_of_mem hkv
  rw [← amzHeaders_texts h, List.mem_map] at hin
  obtain ⟨⟨n, v⟩, hfield, heq⟩ := hin
  exact ⟨n, (congrArg Prod.fst heq).symm, v, (List.mem_filter.1 hfield).1⟩

/-- None of the injected names is left. -/
theorem getAll_buildOutboundHeaders {caller : HeaderMap} {injected : List String} {name : String} (h : name ∈ injected) :
    HeaderMap.getAll (buildOutboundHeaders caller injected) name = [] := by
  unfold HeaderMap.getAll buildOutboundHeaders
  rw [List.filter_filter, List.map_eq_nil_iff, List.filter_eq_nil_iff]
  rintro ⟨n, v⟩ -
  rw [Bool.and_eq_true, beq_iff_eq, Bool.not_eq_true']
  rintro ⟨rfl, hkept⟩
  simp [h] at hkept

/-- The values under the signature of one name: the caller's, normalized, then the signer's. -/
theorem joined_unsortedFields {lib : Sigv4.SignLib} {r : Sigv4.Request} {now : DateTime}
    (hlower : ∀ kv ∈ r.extraSignedHeaders, toAsciiLowercase kv.1 = kv.1) (name : String) :
    Sigv4.joined (Sigv4.unsortedFields lib r now) name = ",".intercalate
      (((r.extraSignedHeaders.filter (·.1 == name)).map (·.2)).map Sigv4.canonicalHeaderValue ++
        (([("host", r.host), ("x-amz-content-sha256", hexEncode (lib.sha256 r.payload)),
          ("x-amz-date", lib.amzDate now)].filter (·.1 == name)).map (·.2))) := by
  have hextra : (r.extraSignedHeaders.map fun kv => (toAsciiLowercase kv.1, Sigv4.canonicalHeaderValue kv.2)).filter
      (·.1 == name) = (r.extraSignedHeaders.filter (·.1 == name)).map fun kv =>
        (toAsciiLowercase kv.1, Sigv4.canonicalHeaderValue kv.2) := by
    rw [List.filter_map]
    congr 1
    apply List.filter_congr
    intro kv hkv
    simp only [Function.comp_apply, hlower kv hkv]
  unfold Sigv4.joined Sigv4.unsortedFields
  rw [List.filter_append, hextra, List.map_append, List.map_map, List.map_map]
  rfl

/-- A text without white space is normalized. -/
theorem canonicalHeaderValue_self {s : String} (h : s.toList.all (!isWhitespace ·) = true) :
    Sigv4.canonicalHeaderValue s = s := by
  have hsplit : s.toList.splitOnP isWhitespace = [s.toList] := by
    apply List.splitOnP_eq_singleton
    intro ch hch
    have hnot := List.all_eq_true.1 h ch hch
    simpa using hnot
  unfold Sigv4.canonicalHeaderValue
  rw [hsplit]
  by_cases hs : s.toList.isEmpty
  · have hempty : s = "" := String.toList_inj.1 (List.isEmpty_iff.1 hs)
    subst hempty
    decide
  · simp [hs]

theorem hexEncode_normal (bs : Blob) : (hexEncode bs).toList.all (!isWhitespace ·) = true := by
  have hdigits : ∀ i : Fin 16, isWhitespace (hexDigits.getD i '0') = false := by decide +kernel
  unfold hexEncode
  rw [String.toList_ofList, List.all_eq_true]
  intro ch hch
  obtain ⟨b, -, hch⟩ := List.mem_flatMap.1 hch
  have hb := b.toNat_lt
  rcases List.mem_pair.1 hch with rfl | rfl
  · rw [hdigits ⟨b.toNat / 16, by omega⟩]
    rfl
  · rw [hdigits ⟨b.toNat % 16, by omega⟩]
    rfl

/-- A normalized value is on one line. -/
theorem canonicalHeaderValue_oneLine (s : String) : Sigv4.OneLine (Sigv4.canonicalHeaderValue s) := by
  have hspace : Sigv4.OneLine " " := by
    unfold Sigv4.OneLine
    decide
  apply hspace.intercalate
  intro piece hpiece
  obtain ⟨chars, hchars, rfl⟩ := List.mem_map.1 hpiece
  unfold Sigv4.OneLine
  rw [String.toList_ofList]
  intro hmem
  have hbreak := not_of_mem_splitOnP (List.mem_filter.1 hchars).1 hmem
  exact absurd hbreak (by decide)

/-! ## A call that is signed -/

/-- What the signer relies on of other crates: `Url::set_path` as its standard has it, a host on one line, a time stamp
without white space. -/
structure PlainTexts (env : ProxyEnv) : Prop where
  encodePath : env.url.encodePath = whatwgEncodePath
  host : ∀ s u h, env.url.parse s = some u → u.host = some h → Sigv4.OneLine h
  amzDate : ∀ t, (env.sign.amzDate t).toList.all (!isWhitespace ·) = true

/-- A call of the `aws-sigv4` kind for which there is an outbound request. -/
structure SignedCall (env : ProxyEnv) (v : Views) (grantId : Uuid) (req : ProxyRequest) (plaintext : Blob)
    (scope : Sigv4.Scope) (a : Admitted) (out : HeaderMap) : Prop where
  admitted : admission env v grantId req = .ok a
  spec : a.spec = .awsSigV4 scope
  outbound : inject env req a plaintext = .ok out

/-- What the call hands to the signer. -/
def Admitted.signedRequest (a : Admitted) (req : ProxyRequest) : Except ApiFailure Sigv4.Request :=
  Proxy.signedRequest a.call.method a.sentUrl (buildOutboundHeaders req.headers a.spec.ownedHeaders) a.body

/-- What is sent is what is under the signature. -/
structure Covers (env : ProxyEnv) (scope : Sigv4.Scope) (plaintext : Blob) (a : Admitted) (out : HeaderMap)
    (r : Sigv4.Request) : Prop where
  path : r.wirePath = a.sentUrl.path ∧ a.sentUrl.path = Sigv4.wirePath a.call.path
  query : a.sentUrl.query = none
  payload : r.payload = a.body
  /-- The exchange is with the signed method, and the URL, headers and body of the call. -/
  sent : ∃ m : Method, m.str = r.method ∧ ∀ upstream upstream' : Upstream,
    upstream m a.sentUrl out a.body = upstream' m a.sentUrl out a.body → forward upstream a out = forward upstream' a out
  /-- It names the fields under the signature, and its signature is the keyed digest of the canonical request. -/
  authorization : texts out "authorization" = [some ("AWS4-HMAC-SHA256 Credential=" ++ scope.accessKeyId ++ "/" ++
    Sigv4.credentialScope env.sign scope env.signedAt ++ ", SignedHeaders=" ++
    Sigv4.signedHeaders env.sign r env.signedAt ++ ", Signature=" ++
    Sigv4.signature env.sign r env.signedAt scope plaintext)]
  date : texts out "x-amz-date" = [some (env.sign.amzDate env.signedAt)]
  hash : texts out "x-amz-content-sha256" = [some (hexEncode (env.sign.sha256 a.body))]
  sorted : (Sigv4.signedFields env.sign r env.signedAt).Pairwise fun f g => f.1 < g.1
  /-- Each `x-amz-*` header is signed once, with its normalized values in the order of the map. -/
  amz : ∀ h ∈ out, isAmz h.1 = true → ((Sigv4.signedFields env.sign r env.signedAt).map (·.1)).count h.1.str = 1 ∧
    ∃ values : List String, texts out h.1.str = values.map some ∧
      (h.1.str, ",".intercalate (values.map Sigv4.canonicalHeaderValue)) ∈ Sigv4.signedFields env.sign r env.signedAt
  dropped : ∀ name ∈ "x-amz-security-token" :: Sigv4.strippedCallerHeaders, texts out name = []

section
variable {env : ProxyEnv} {v : Views} {grantId : Uuid} {req : ProxyRequest} {plaintext : Blob} {scope : Sigv4.Scope}
  {a : Admitted} {out : HeaderMap} {r : Sigv4.Request}

theorem admission_url (henc : env.url.encodePath = whatwgEncodePath) (h : admission env v grantId req = .ok a)
    (hspec : a.spec = .awsSigV4 scope) : a.sentUrl.path = Sigv4.wirePath a.call.path ∧ a.sentUrl.query = none ∧
      ∃ s u, env.url.parse s = some u ∧ u.host = a.sentUrl.host := by
  simp only [admission, bind_eq_ok, okOr_eq_ok, refuseIf_eq_ok] at h
  obtain ⟨client, -, grant, -, -, -, found, -, secret, -, -, -, call, hcall, body, -, version, -, spec, -, name, -,
    -, hquery, sentUrl, hurl, ha⟩ := h
  cases ha
  simp only at hspec
  subst hspec
  unfold outboundUrl at hurl
  rw [Option.map_eq_some_iff] at hurl
  obtain ⟨u, hu, rfl⟩ := hurl
  simp only [InjectionSpec.signs, Bool.true_and, Option.isSome_eq_false_iff, Option.isNone_iff_eq_none] at hquery
  refine ⟨?_, ?_, _, u, hu, rfl⟩
  · simp only [henc, InjectionSpec.signs, if_true]
    exact whatwgEncodePath_wirePath call.canonical
  · simp only [hquery, Option.map_none]

/-- The headers of a signed call: the caller's, then the three that the signer makes. -/
theorem inject_signed (hcall : SignedCall env v grantId req plaintext scope a out) :
    ∃ r auth date sha, a.signedRequest req = .ok r ∧
      HeaderValue.fromStr (Sigv4.sign env.sign scope plaintext r env.signedAt).authorization = some auth ∧
      HeaderValue.fromStr (env.sign.amzDate env.signedAt) = some date ∧
      HeaderValue.fromStr (hexEncode (env.sign.sha256 a.body)) = some sha ∧
      out = HeaderMap.insert (HeaderMap.insert (HeaderMap.insert (buildOutboundHeaders req.headers a.spec.ownedHeaders)
        authorization auth) amzDateName date) amzSha256Name sha := by
  have hout := hcall.outbound
  unfold inject at hout
  rw [hcall.spec] at hout
  obtain ⟨hs, hsigned, hout⟩ := bind_eq_ok.1 hout
  cases hout
  obtain ⟨r, auth, date, sha, hr, hauth, hdate, hsha, rfl⟩ := sigv4Headers_signs hsigned
  refine ⟨r, auth, date, sha, ?_, hauth, hdate, hsha, ?_⟩
  · rw [Admitted.signedRequest, hcall.spec]
    exact hr
  · rw [hcall.spec]
    rfl

theorem signedRequest_ok (h : a.signedRequest req = .ok r) : r.method = a.call.method ∧ r.wirePath = a.sentUrl.path ∧
    r.payload = a.body ∧ (∃ host, a.sentUrl.host = some host ∧ r.host = a.sentUrl.hostHeader host) ∧
    amzHeaders (buildOutboundHeaders req.headers a.spec.ownedHeaders) = .ok r.extraSignedHeaders := by
  unfold Admitted.signedRequest signedRequest at h
  obtain ⟨host, hhost, h⟩ := bind_eq_ok.1 h
  obtain ⟨extra, hextra, h⟩ := bind_eq_ok.1 h
  cases h
  exact ⟨rfl, rfl, rfl, ⟨host, okOr_eq_ok.1 hhost, rfl⟩, hextra⟩

/-- The signed names are names of headers, in lower case. -/
theorem signedRequest_names (h : a.signedRequest req = .ok r) :
    ∀ kv ∈ r.extraSignedHeaders, ∃ n : HeaderName, kv.1 = n.str ∧ toAsciiLowercase kv.1 = kv.1 := by
  intro kv hkv
  obtain ⟨n, hn, -⟩ := amzHeaders_names (signedRequest_ok h).2.2.2.2 kv hkv
  exact ⟨n, hn, by rw [hn, n.lower]⟩

/-! ### One line each -/

theorem oneLine_of_visible {s : String} (h : Visible s) : Sigv4.OneLine s := by
  intro hmem
  exact absurd (h 10 ((@ascii_mem_bytes _ '\n' (by decide)).2 hmem)) (by decide)

theorem headerName_colon (n : HeaderName) : ':' ∉ n.str.toList := by
  intro hmem
  have h := n.valid
  simp only [isHeaderName, Bool.and_eq_true, List.all_eq_true] at h
  exact absurd (h.2 58 ((@ascii_mem_bytes _ ':' (by decide)).2 hmem)).1 (by decide)

theorem upperMethod_visible (m : Method) : Visible (toAsciiUppercase m.str) := by
  intro b hb
  rw [bytes_toAsciiUppercase, List.mem_map] at hb
  obtain ⟨b, hb, rfl⟩ := hb
  have h := m.valid
  rw [Bool.and_eq_true, List.all_eq_true] at h
  exact visibleByte_of_tchar (isTchar_upperByte (h.2 b hb))

theorem wireText_oneLine {path : String} (h : WireText path) : Sigv4.OneLine path := by
  obtain ⟨parts, hpath, hparts⟩ := h
  have hhex : ∀ x : Fin 16, upperHexDigit x.val ≠ 10 := by decide +kernel
  intro hmem
  have hbyte := (@ascii_mem_bytes path '\n' (by decide)).2 hmem
  rw [hpath, List.mem_flatten] at hbyte
  obtain ⟨part, hpart, hin⟩ := hbyte
  rcases hparts part hpart with ⟨b, rfl, hb⟩ | ⟨x, y, hx, hy, rfl⟩
  · obtain rfl := List.mem_singleton.1 hin
    rcases hb with hb | hb
    · exact absurd hb (by decide)
    · exact absurd hb (by decide)
  · simp only [List.mem_cons, List.not_mem_nil, or_false] at hin
    rcases hin with hin | hin | hin
    · exact absurd hin (by decide)
    · exact hhex ⟨x, hx⟩ hin.symm
    · exact hhex ⟨y, hy⟩ hin.symm

theorem oneLine_of_normal {s : String} (h : s.toList.all (!isWhitespace ·) = true) : Sigv4.OneLine s := by
  intro hmem
  exact absurd (List.all_eq_true.1 h _ hmem) (by decide)

theorem hostHeader_oneLine {url : Url} {host : String} (h : Sigv4.OneLine host) : Sigv4.OneLine (url.hostHeader host) := by
  unfold Url.hostHeader
  cases url.port with
  | none => exact h
  | some port =>
      have hcolon : Sigv4.OneLine ":" := by
        unfold Sigv4.OneLine
        decide
      have hport : Sigv4.OneLine (toString port) := by
        intro hmem
        have hdigit : '\n'.isDigit = true := isDigit_toDigits (n := port) (by rwa [← Nat.toList_repr])
        exact absurd hdigit (by decide)
      exact (h.append hcolon).append hport

/-- The signed request is made of lines. -/
theorem signedRequest_lines (htexts : PlainTexts env) (hcall : SignedCall env v grantId req plaintext scope a out)
    (h : a.signedRequest req = .ok r) : Sigv4.Lines env.sign r env.signedAt := by
  obtain ⟨hmethod, hpath, -, ⟨host, hhost, hheader⟩, -⟩ := signedRequest_ok h
  obtain ⟨hwire, -, s, u, hparse, hu⟩ := admission_url htexts.encodePath hcall.admitted hcall.spec
  have hnames : ∀ name ∈ (Sigv4.unsortedFields env.sign r env.signedAt).map (·.1),
      Sigv4.OneLine name ∧ ':' ∉ name.toList := by
    intro name hname
    simp only [Sigv4.unsortedFields, List.map_append, List.map_map, List.mem_append, List.mem_map, List.map_cons,
      List.map_nil, List.mem_cons, List.not_mem_nil, or_false] at hname
    rcases hname with ⟨kv, hkv, rfl⟩ | rfl | rfl | rfl
    · obtain ⟨n, hn, -⟩ := signedRequest_names h kv hkv
      simp only [Function.comp_apply, hn, n.lower]
      exact ⟨oneLine_of_visible n.visible, headerName_colon n⟩
    all_goals exact ⟨by unfold Sigv4.OneLine; decide, by decide⟩
  have hvalues : ∀ kv ∈ Sigv4.unsortedFields env.sign r env.signedAt, Sigv4.OneLine kv.2 := by
    intro kv hkv
    simp only [Sigv4.unsortedFields, List.mem_append, List.mem_map, List.mem_cons, List.not_mem_nil, or_false] at hkv
    rcases hkv with ⟨kv, -, rfl⟩ | rfl | rfl | rfl
    · exact canonicalHeaderValue_oneLine _
    · rw [hheader]
      exact hostHeader_oneLine (htexts.host s u host hparse (hu.trans hhost))
    · exact oneLine_of_normal (hexEncode_normal _)
    · exact oneLine_of_normal (htexts.amzDate _)
  have hcomma : Sigv4.OneLine "," := by
    unfold Sigv4.OneLine
    decide
  refine ⟨?_, ?_, ?_, ?_⟩
  · rw [hmethod, (admission_ok hcall.admitted).2.2.1]
    exact oneLine_of_visible (upperMethod_visible req.method)
  · rw [hpath, hwire]
    exact wireText_oneLine (wirePath_text a.call.canonical)
  · intro field hfield
    exact hnames _ ((Sigv4.signedFields_names _ _ _).1 (List.mem_map_of_mem hfield))
  · intro field hfield
    rw [Sigv4.signedFields_joined _ _ _ field hfield]
    apply hcomma.intercalate
    intro value hvalue
    obtain ⟨kv, hkv, rfl⟩ := List.mem_map.1 hvalue
    exact hvalues kv (List.mem_filter.1 hkv).1

/-! ### What goes out -/

/-- The maps that the signer's three headers have been inserted into. -/
theorem texts_signed {m : HeaderMap} {auth date sha : HeaderValue} (name : String) :
    texts (HeaderMap.insert (HeaderMap.insert (HeaderMap.insert m authorization auth) amzDateName date) amzSha256Name sha)
      name =
      if name = "x-amz-content-sha256" then [sha.toStr]
      else if name = "x-amz-date" then [date.toStr]
      else if name = "authorization" then [auth.toStr]
      else texts m name := by
  unfold texts
  split
  · rename_i h
    rw [HeaderMap.getAll_insert_self h.symm]
    rfl
  · rename_i hsha
    rw [HeaderMap.getAll_insert_of_ne (Ne.symm hsha)]
    split
    · rename_i h
      rw [HeaderMap.getAll_insert_self h.symm]
      rfl
    · rename_i hdate
      rw [HeaderMap.getAll_insert_of_ne (Ne.symm hdate)]
      split
      · rename_i h
        rw [HeaderMap.getAll_insert_self h.symm]
        rfl
      · rename_i hauth
        rw [HeaderMap.getAll_insert_of_ne (Ne.symm hauth)]

theorem ownedHeaders_signed (h : a.spec = .awsSigV4 scope) :
    a.spec.ownedHeaders = "authorization" :: Sigv4.synthesized ++ Sigv4.strippedCallerHeaders := by
  rw [h]
  rfl

/-- The fields under the signature of one `x-amz-*` name, against the values that go out. -/
theorem signed_amz (hdate : env.sign.amzDate env.signedAt = Sigv4.canonicalHeaderValue (env.sign.amzDate env.signedAt))
    (hspec : a.spec = .awsSigV4 scope) (h : a.signedRequest req = .ok r) {auth date sha : HeaderValue}
    (hdatetext : date.toStr = some (env.sign.amzDate env.signedAt))
    (hshatext : sha.toStr = some (hexEncode (env.sign.sha256 a.body)))
    {name : String} (hamz : startsWith "x-amz-" name = true)
    (hin : texts (HeaderMap.insert (HeaderMap.insert (HeaderMap.insert (buildOutboundHeaders req.headers
      a.spec.ownedHeaders) authorization auth) amzDateName date) amzSha256Name sha) name ≠ []) :
    ∃ values : List String, texts (HeaderMap.insert (HeaderMap.insert (HeaderMap.insert (buildOutboundHeaders req.headers
        a.spec.ownedHeaders) authorization auth) amzDateName date) amzSha256Name sha) name = values.map some ∧
      (name, ",".intercalate (values.map Sigv4.canonicalHeaderValue)) ∈
        Sigv4.signedFields env.sign r env.signedAt := by
  obtain ⟨-, -, hpayload, -, hextra⟩ := signedRequest_ok h
  have hlower : ∀ kv ∈ r.extraSignedHeaders, toAsciiLowercase kv.1 = kv.1 := fun kv hkv =>
    (signedRequest_names h kv hkv).elim fun _ hn => hn.2
  have hvalues := texts_amz hextra hamz
  have hcaller : name ∈ a.spec.ownedHeaders → r.extraSignedHeaders.filter (·.1 == name) = [] := by
    intro howned
    rw [texts, getAll_buildOutboundHeaders howned, List.map_nil] at hvalues
    exact List.map_eq_nil_iff.1 (List.map_eq_nil_iff.1 hvalues.symm)
  have hfields := @joined_unsortedFields env.sign r env.signedAt hlower name
  rw [texts_signed] at hin ⊢
  simp only [Sigv4.mem_signedFields_iff, hfields]
  by_cases hsha : name = "x-amz-content-sha256"
  · subst hsha
    rw [hcaller (by rw [ownedHeaders_signed hspec]; decide)]
    refine ⟨[hexEncode (env.sign.sha256 a.body)], by rw [if_pos rfl, hshatext]; rfl, ?_, ?_⟩
    · simp [Sigv4.unsortedFields]
    · simp [hpayload, canonicalHeaderValue_self (hexEncode_normal _)]
  · rw [if_neg hsha] at hin ⊢
    by_cases hdatename : name = "x-amz-date"
    · subst hdatename
      rw [hcaller (by rw [ownedHeaders_signed hspec]; decide)]
      refine ⟨[env.sign.amzDate env.signedAt], by rw [if_pos rfl, hdatetext]; rfl, ?_, ?_⟩
      · simp [Sigv4.unsortedFields]
      · simp [← hdate]
    · rw [if_neg hdatename] at hin ⊢
      have hauth : name ≠ "authorization" := by
        rintro rfl
        exact absurd hamz (by decide)
      have hhost : name ≠ "host" := by
        rintro rfl
        exact absurd hamz (by decide)
      rw [if_neg hauth] at hin ⊢
      refine ⟨(r.extraSignedHeaders.filter (·.1 == name)).map (·.2), hvalues, ?_, ?_⟩
      · -- the name is one of the caller's
        have hsome : r.extraSignedHeaders.filter (·.1 == name) ≠ [] := by
          intro hnone
          rw [hvalues, hnone] at hin
          exact hin rfl
        obtain ⟨kv, hkv⟩ := List.exists_mem_of_ne_nil _ hsome
        obtain ⟨hmem, hname⟩ := List.mem_filter.1 hkv
        rw [beq_iff_eq] at hname
        subst hname
        rw [Sigv4.unsortedFields, List.map_append, List.mem_append, List.map_map]
        exact Or.inl (List.mem_map.2 ⟨kv, hmem, hlower kv hmem⟩)
      · have htail : [("host", r.host), ("x-amz-content-sha256", hexEncode (env.sign.sha256 r.payload)),
            ("x-amz-date", env.sign.amzDate env.signedAt)].filter (·.1 == name) = [] := by
          simp [Ne.symm hhost, Ne.symm hsha, Ne.symm hdatename]
        rw [htail, List.map_nil, List.append_nil]

/-- The request that the signer gets in a call that goes out is the one that goes out. -/
theorem covers_of_signedCall (htexts : PlainTexts env) (hcall : SignedCall env v grantId req plaintext scope a out) :
    ∃ r, a.signedRequest req = .ok r ∧ Covers env scope plaintext a out r := by
  obtain ⟨r, auth, date, sha, hr, hauth, hdate, hsha, hout⟩ := inject_signed hcall
  obtain ⟨hmethod, hpath, hpayload, -, -⟩ := signedRequest_ok hr
  obtain ⟨hwire, hquery, -⟩ := admission_url htexts.encodePath hcall.admitted hcall.spec
  obtain ⟨-, -, hupper, hscope⟩ := admission_ok hcall.admitted
  obtain ⟨hid, hregion, hservice⟩ := hscope scope hcall.spec
  have hnames : ∀ kv ∈ r.extraSignedHeaders, Visible (toAsciiLowercase kv.1) := by
    intro kv hkv
    obtain ⟨n, hn, -⟩ := signedRequest_names hr kv hkv
    rw [hn, n.lower]
    exact n.visible
  obtain ⟨hauthvis, hdatevis, -⟩ := @Sigv4.sign_visible env.sign scope r env.signedAt plaintext hid hregion hservice hnames
  have hauthtext := HeaderValue.toStr_fromStr hauth hauthvis
  have hdatetext := HeaderValue.toStr_fromStr hdate hdatevis
  have hshatext := HeaderValue.toStr_fromStr hsha (hexEncode_visible _)
  have hdatenormal := (canonicalHeaderValue_self (htexts.amzDate env.signedAt)).symm
  refine ⟨r, hr, ⟨hpath, hwire⟩, hquery, hpayload, ?_, ?_, ?_, ?_, Sigv4.signedFields_sorted _ _ _, ?_, ?_⟩
  · obtain ⟨m, hm⟩ := Option.isSome_iff_exists.1 req.method.fromStr_upper
    have hstr : m.str = toAsciiUppercase req.method.str := by
      unfold Method.fromStr at hm
      split at hm
      · cases hm
        rfl
      · cases hm
    refine ⟨m, hstr.trans (hupper.symm.trans hmethod.symm), ?_⟩
    intro upstream upstream' hsame
    unfold forward
    rw [hupper, hm]
    simp only [okOr, bind, Except.bind, hsame]
  · rw [hout, texts_signed, if_neg (by decide), if_neg (by decide), if_pos rfl, hauthtext, Sigv4.sign_authorization]
  · rw [hout, texts_signed, if_neg (by decide), if_pos rfl, hdatetext]
  · rw [hout, texts_signed, if_pos rfl, hshatext]
  · intro h hin hamz
    have hsome : texts out h.1.str ≠ [] := by
      have hmem := HeaderMap.mem_getAll.2 ⟨h.1, rfl, hin⟩
      exact List.ne_nil_of_mem (List.mem_map_of_mem hmem)
    rw [hout] at hsome ⊢
    obtain ⟨values, htext, hfield⟩ := signed_amz hdatenormal hcall.spec hr hdatetext hshatext hamz hsome
    refine ⟨?_, values, htext, hfield⟩
    have hnodup : ((Sigv4.signedFields env.sign r env.signedAt).map (·.1)).Nodup := by
      rw [List.Nodup, List.pairwise_map]
      refine (Sigv4.signedFields_sorted env.sign r env.signedAt).imp ?_
      intro f g hlt heq
      rw [heq] at hlt
      exact String.lt_irrefl _ hlt
    exact List.count_eq_one_of_mem hnodup (List.mem_map_of_mem hfield)
  · intro name hname
    have howned : name ∈ a.spec.ownedHeaders := by
      rw [ownedHeaders_signed hcall.spec]
      rcases List.mem_cons.1 hname with rfl | hname
      · decide
      · exact List.mem_append_right _ hname
    have hothers : ∀ other ∈ "x-amz-security-token" :: Sigv4.strippedCallerHeaders,
        other ≠ "x-amz-content-sha256" ∧ other ≠ "x-amz-date" ∧ other ≠ "authorization" := by decide
    have hfresh := hothers name hname
    rw [hout, texts_signed, if_neg hfresh.1, if_neg hfresh.2.1, if_neg hfresh.2.2, texts,
      getAll_buildOutboundHeaders howned]
    rfl

end

/-- Whenever the `aws-sigv4` kind produces an outbound request, the signature covers that request; and two such requests
with one canonical text have the same method, path, signed fields and payload digest. -/
theorem signature_covers {env : ProxyEnv} {v : Views} {grantId : Uuid} {req : ProxyRequest} {plaintext : Blob}
    {scope : Sigv4.Scope} {a : Admitted} {out : HeaderMap} (htexts : PlainTexts env)
    (hcall : SignedCall env v grantId req plaintext scope a out) :
    ∃ r, a.signedRequest req = .ok r ∧ Covers env scope plaintext a out r ∧
      ∀ env' v' grantId' req' plaintext' scope' a' out' r', PlainTexts env' →
        SignedCall env' v' grantId' req' plaintext' scope' a' out' → a'.signedRequest req' = .ok r' →
        Sigv4.canonicalRequest env.sign r env.signedAt = Sigv4.canonicalRequest env'.sign r' env'.signedAt →
        r.method = r'.method ∧ r.wirePath = r'.wirePath ∧
          Sigv4.signedFields env.sign r env.signedAt = Sigv4.signedFields env'.sign r' env'.signedAt ∧
          env.sign.sha256 r.payload = env'.sign.sha256 r'.payload := by
  obtain ⟨r, hr, hcovers⟩ := covers_of_signedCall htexts hcall
  refine ⟨r, hr, hcovers, ?_⟩
  intro env' v' grantId' req' plaintext' scope' a' out' r' htexts' hcall' hr' heq
  exact Sigv4.canonicalRequest_inj (signedRequest_lines htexts hcall hr) (signedRequest_lines htexts' hcall' hr') heq

/-! ### A call that is signed -/

/-- The `url` crate on addresses that are a scheme and a host name. -/
def lineUrlLib : UrlLib where
  parse s := if s.toList.contains '\n' then none else hostUrlLib.parse s
  encodePath := whatwgEncodePath
  encodeQuery := hostUrlLib.encodeQuery
  host_of_https rest u h := by
    split_ifs at h
    exact hostUrlLib.host_of_https rest u h

def lineEnv : ProxyEnv := { bucketEnv with url := lineUrlLib }

theorem lineEnv_plainTexts : PlainTexts lineEnv where
  encodePath := rfl
  host s u h hparse hhost := by
    change (if s.toList.contains '\n' then none else plainUrlLib.parse s) = some u at hparse
    split_ifs at hparse with hbreak
    simp only [plainUrlLib] at hparse
    split_ifs at hparse
    cases hparse
    cases hhost
    intro hmem
    rw [String.toList_ofList] at hmem
    exact hbreak (List.contains_iff_mem.2 (List.mem_of_mem_drop hmem))
  amzDate _ := by
    change ("20270115T080000Z".toList.all (!isWhitespace ·)) = true
    decide +kernel

theorem isHeaderName_note : isHeaderName "x-amz-meta-note" = true := by decide +kernel

theorem valueByte_note : (bytes "hello  world").all valueByte = true := by decide +kernel

/-- An upload with a note. -/
def plainUpload : ProxyRequest :=
  { noteUpload with headers := [(⟨"x-amz-meta-note", isHeaderName_note⟩, ⟨bytes "hello  world", valueByte_note⟩)] }

theorem signature_covers_upload : ∃ scope a out r,
    SignedCall lineEnv bucketViews 4 plainUpload [] scope a out ∧ a.signedRequest plainUpload = .ok r ∧
      Covers lineEnv scope [] a out r := by
  have hsigns : (admission lineEnv bucketViews 4 plainUpload).toOption.any (·.spec.signs) = true := by decide +kernel
  cases hadm : admission lineEnv bucketViews 4 plainUpload with
  | error e => rw [hadm] at hsigns; cases hsigns
  | ok a =>
      rw [hadm] at hsigns
      replace hsigns : a.spec.signs = true := hsigns
      cases hspec : a.spec with
      | awsSigV4 scope =>
          have hvis : a.spec.signs = true → AmzVisible (buildOutboundHeaders plainUpload.headers a.spec.ownedHeaders) := by
            intro _
            rw [ownedHeaders_signed hspec]
            exact (by decide +kernel : AmzVisible (buildOutboundHeaders plainUpload.headers
              ("authorization" :: Sigv4.synthesized ++ Sigv4.strippedCallerHeaders)))
          obtain ⟨out, hout⟩ := inject_ok hadm hvis
          have hcall : SignedCall lineEnv bucketViews 4 plainUpload [] scope a out := ⟨hadm, hspec, hout⟩
          obtain ⟨r, hr, hcovers, -⟩ := signature_covers lineEnv_plainTexts hcall
          exact ⟨scope, a, out, r, hcall, hr, hcovers⟩
      | _ => rw [hspec] at hsigns; cases hsigns

end Keychute.Proxy
