import Keychute.Db.Store
import Mathlib.Data.List.Dedup

/-!
# Client rows from config (`server/src/db/clients.rs`, `config.rs`)

* `ClientRow.clashes`, `Indexed` : the unique indexes of `clients`, which cover disabled rows too;
* `updateWhere`, `upsert` : the statements. Postgres checks an index as each row is written, so a statement fails where
  the row it writes clashes with one of that moment;
* `normalizeClients`, `validateClients` : what `Config::normalize` and `Config::validate` do with the clients;
* `reconcileClients_total` : on an accepted config no statement fails, and the table that results is described by the
  config and the rows before, whatever the order of the clients.
-/

namespace Keychute.Reconcile
open Keychute.Db (DbError)

/-! ## Rows and indexes -/

/-- A row of `clients`, with its credentials. -/
structure ClientRow where
  id : Uuid
  name : String
  maxTier : Int
  mechanisms : List String
  authKind : String
  apiTokenSha256 : Option String
  saAudience : Option String
  saSubject : Option String
  enabled : Bool
  mayStoreSecrets : Bool
  deriving DecidableEq

namespace ClientRow

/-- The two partial indexes of migration 0002. -/
def sharesCredential (a b : ClientRow) : Bool :=
  (a.apiTokenSha256.isSome && a.apiTokenSha256 == b.apiTokenSha256) ||
    (a.saAudience.isSome && a.saSubject.isSome && a.saAudience == b.saAudience && a.saSubject == b.saSubject)

def clashes (a b : ClientRow) : Bool := a.id == b.id || a.name == b.name || a.sharesCredential b

/-- A row without a credential. -/
structure Released (r : ClientRow) : Prop where
  apiTokenSha256 : r.apiTokenSha256 = none
  saAudience : r.saAudience = none
  saSubject : r.saSubject = none

theorem sharesCredential_iff {a b : ClientRow} : a.sharesCredential b = true ↔
    (∃ h, a.apiTokenSha256 = some h ∧ b.apiTokenSha256 = some h) ∨
      ∃ u v, a.saAudience = some u ∧ a.saSubject = some v ∧ b.saAudience = some u ∧ b.saSubject = some v := by
  simp only [sharesCredential, Bool.or_eq_true, Bool.and_eq_true, Option.isSome_iff_exists, beq_iff_eq]
  constructor
  · rintro (⟨⟨h, hh⟩, heq⟩ | ⟨⟨⟨⟨u, hu⟩, v, hv⟩, hau⟩, hsu⟩)
    · exact .inl ⟨h, hh, heq ▸ hh⟩
    · exact .inr ⟨u, v, hu, hv, hau ▸ hu, hsu ▸ hv⟩
  · rintro (⟨h, ha, hb⟩ | ⟨u, v, hu, hv, hu', hv'⟩)
    · exact .inl ⟨⟨h, ha⟩, ha.trans hb.symm⟩
    · exact .inr ⟨⟨⟨⟨u, hu⟩, v, hv⟩, hu.trans hu'.symm⟩, hv.trans hv'.symm⟩

theorem sharesCredential_comm (a b : ClientRow) : a.sharesCredential b = b.sharesCredential a := by
  rw [Bool.eq_iff_iff, sharesCredential_iff, sharesCredential_iff]
  constructor
  · rintro (⟨h, ha, hb⟩ | ⟨u, v, hu, hv, hu', hv'⟩)
    · exact .inl ⟨h, hb, ha⟩
    · exact .inr ⟨u, v, hu', hv', hu, hv⟩
  · rintro (⟨h, ha, hb⟩ | ⟨u, v, hu, hv, hu', hv'⟩)
    · exact .inl ⟨h, hb, ha⟩
    · exact .inr ⟨u, v, hu', hv', hu, hv⟩

theorem clashes_comm (a b : ClientRow) : a.clashes b = b.clashes a := by
  simp only [clashes, Bool.beq_comm (a := a.id), Bool.beq_comm (a := a.name), sharesCredential_comm a b]

theorem Released.sharesCredential {a b : ClientRow} (h : b.Released) : a.sharesCredential b = false := by
  rw [← Bool.not_eq_true, sharesCredential_iff]
  rintro (⟨t, -, hb⟩ | ⟨u, v, -, -, hu, -⟩)
  · rw [h.apiTokenSha256] at hb
    cases hb
  · rw [h.saAudience] at hu
    cases hu

end ClientRow

/-- The unique indexes hold. -/
def Indexed (rows : List ClientRow) : Prop := rows.Pairwise fun a b => a.clashes b = false

/-! ## Statements -/

/-- `UPDATE clients SET .. WHERE ..`, row by row: `done` are the rows that were visited. -/
def updateEach (p : ClientRow → Bool) (f : ClientRow → ClientRow) :
    List ClientRow → List ClientRow → Except DbError (List ClientRow)
  | done, [] => .ok done
  | done, r :: rest =>
    if p r then
      if (done ++ rest).any (·.clashes (f r)) then .error .uniqueViolation else updateEach p f (done ++ [f r]) rest
    else updateEach p f (done ++ [r]) rest

def updateWhere (p : ClientRow → Bool) (f : ClientRow → ClientRow) (rows : List ClientRow) :
    Except DbError (List ClientRow) :=
  updateEach p f [] rows

/-- A row that joins the others without a clash keeps the indexes. -/
theorem Indexed.middle {xs ys : List ClientRow} {r : ClientRow} (h : Indexed (xs ++ ys))
    (hr : ∀ a ∈ xs ++ ys, a.clashes r = false) : Indexed (xs ++ r :: ys) := by
  have : (r :: (xs ++ ys)).Pairwise fun a b => a.clashes b = false := by
    refine List.Pairwise.cons (fun a ha => ?_) h
    rw [ClientRow.clashes_comm]
    exact hr a ha
  exact (List.Perm.pairwise_iff (fun {a b} hab => by rw [ClientRow.clashes_comm, hab]) List.perm_middle).2 this

/-- A statement that succeeds keeps the indexes. -/
theorem updateEach_indexed {p : ClientRow → Bool} {f : ClientRow → ClientRow} {done rest rows : List ClientRow}
    (h : updateEach p f done rest = .ok rows) (hI : Indexed (done ++ rest)) : Indexed rows := by
  induction rest generalizing done with
  | nil =>
      cases h
      simpa using hI
  | cons r rest ih =>
      rw [updateEach] at h
      split at h
      · split at h
        · cases h
        · rename_i hclash
          rw [Bool.not_eq_true, List.any_eq_false] at hclash
          have hfree : ∀ a ∈ done ++ rest, a.clashes (f r) = false := fun a ha => Bool.not_eq_true _ ▸ hclash a ha
          have hsub : Indexed (done ++ rest) := hI.sublist (List.Sublist.append_left (List.sublist_cons_self r rest) done)
          refine ih h ?_
          rw [List.append_assoc]
          exact hsub.middle hfree
      · exact ih h (by rwa [List.append_assoc])

/-- What an update leaves, if at every row the written one clashes with none of its moment. -/
theorem updateEach_ok {p : ClientRow → Bool} {f : ClientRow → ClientRow} {done rest : List ClientRow}
    (h : ∀ pre r post, rest = pre ++ r :: post → p r = true →
      ∀ a ∈ done ++ pre.map (fun r => if p r then f r else r) ++ post, a.clashes (f r) = false) :
    updateEach p f done rest = .ok (done ++ rest.map fun r => if p r then f r else r) := by
  induction rest generalizing done with
  | nil => simp [updateEach]
  | cons r rest ih =>
      rw [updateEach]
      cases hp : p r with
      | true =>
          have hfree : (done ++ rest).any (·.clashes (f r)) = false := by
            rw [List.any_eq_false]
            intro a ha
            rw [Bool.not_eq_true]
            exact h [] r rest rfl hp a (by simpa using ha)
          rw [if_pos rfl, hfree, if_neg (by decide), ih]
          · simp [hp]
          · intro pre q post hrest hq a ha
            exact h (r :: pre) q post (by rw [hrest]; rfl) hq a (by simpa [hp] using ha)
      | false =>
          rw [if_neg (by decide), ih]
          · simp [hp]
          · intro pre q post hrest hq a ha
            exact h (r :: pre) q post (by rw [hrest]; rfl) hq a (by simpa [hp] using ha)

/-! ## Config -/

structure ServiceAccountAuth where
  audience : String
  subject : String
  deriving DecidableEq

structure ClientAuthConfig where
  apiTokenSha256 : Option String
  serviceAccount : Option ServiceAccountAuth
  deriving DecidableEq

structure ClientConfig where
  name : String
  maxTier : Tier
  mechanisms : List Mechanism
  auth : ClientAuthConfig
  mayStoreSecrets : Bool
  deriving DecidableEq

/-- The digest of a token as it is compared: trimmed, in lower case. -/
def normalizeDigest (h : String) : String := toAsciiLowercase (trim h)

/-- `Config::normalize`, as far as the clients go. -/
def normalizeClients (clients : List ClientConfig) : List ClientConfig :=
  clients.map fun c => { c with auth := { c.auth with apiTokenSha256 := c.auth.apiTokenSha256.map normalizeDigest } }

/-- `u8::is_ascii_hexdigit`. -/
def isAsciiHexdigit (b : UInt8) : Bool := (48 ≤ b && b ≤ 57) || (65 ≤ b && b ≤ 70) || (97 ≤ b && b ≤ 102)

/-- `if c { bail!(..) }`. -/
def bailIf (c : Bool) (message : String) : Except String Unit := if c then .error message else .ok ()

theorem bailIf_eq_ok {c : Bool} {message : String} {u : Unit} : bailIf c message = .ok u ↔ c = false := by
  cases c <;> simp [bailIf]

/-- What `Config::validate` asks of one client. -/
def validateClient (tokenreviewUrl : Option String) (c : ClientConfig) : Except String Unit := do
  let hasToken := c.auth.apiTokenSha256.isSome
  let hasSa := c.auth.serviceAccount.isSome
  bailIf (!hasToken && !hasSa) ("client " ++ c.name ++ " has no auth binding")
  bailIf (hasToken && hasSa) ("client " ++ c.name ++
    " has two auth bindings (api_token_sha256 and service_account): configure exactly one")
  bailIf (c.auth.apiTokenSha256.any fun h => byteLen h != 64 || !(bytes h).all isAsciiHexdigit)
    ("client " ++ c.name ++ ": api_token_sha256 must be a 64-character hex SHA-256 digest (got " ++
      toString (byteLen (c.auth.apiTokenSha256.getD "")) ++ " characters)")
  bailIf c.mechanisms.isEmpty ("client " ++ c.name ++ " has no allowed mechanisms")
  bailIf (hasSa && tokenreviewUrl.isNone) ("client " ++ c.name ++
    " uses service_account auth but tokenreview_url is not set: no presented service-account token could ever be verified")
  c.mechanisms.forM fun m => bailIf (decide (m.tier > c.maxTier))
    ("client " ++ c.name ++ ": mechanism " ++ m.asStr ++ " exceeds max_tier " ++ c.maxTier.asStr)

/-- The loop that refuses a credential two clients share, with the sets of those seen. -/
def checkBindings : List ClientConfig → List String → List ServiceAccountAuth → Except String Unit
  | [], _, _ => .ok ()
  | c :: clients, tokenHashes, saBindings => do
    bailIf (c.auth.apiTokenSha256.any fun h => tokenHashes.contains (toAsciiLowercase h))
      "duplicate api_token_sha256 across clients (ambiguous binding)"
    bailIf (c.auth.serviceAccount.any saBindings.contains)
      ("duplicate service-account binding " ++ ((c.auth.serviceAccount.map (·.audience)).getD "") ++ "/" ++
        ((c.auth.serviceAccount.map (·.subject)).getD "") ++ " across clients")
    checkBindings clients (c.auth.apiTokenSha256.toList.map toAsciiLowercase ++ tokenHashes)
      (c.auth.serviceAccount.toList ++ saBindings)

/-- The checks of `Config::validate` that read the clients, in their order. -/
def validateClients (tokenreviewUrl : Option String) (clients : List ClientConfig) : Except String Unit := do
  clients.forM (validateClient tokenreviewUrl)
  bailIf ((clients.map (·.name)).dedup.length != clients.length) "duplicate client names in config"
  checkBindings clients [] []

/-! ## Reconciliation -/

/-- The columns an upsert writes. -/
def setConfig (c : ClientConfig) (r : ClientRow) : ClientRow :=
  { r with
    maxTier := c.maxTier.asInt
    mechanisms := c.mechanisms.map Mechanism.asStr
    authKind := if c.auth.apiTokenSha256.isSome then "api-token" else "service-account"
    apiTokenSha256 := c.auth.apiTokenSha256.map normalizeDigest
    saAudience := c.auth.serviceAccount.map (·.audience)
    saSubject := c.auth.serviceAccount.map (·.subject)
    mayStoreSecrets := c.mayStoreSecrets
    enabled := true }

/-- The row of a client that has none yet. -/
def newRow (c : ClientConfig) (id : Uuid) : ClientRow :=
  setConfig c ⟨id, c.name, 0, [], "", none, none, none, true, false⟩

/-- `INSERT .. ON CONFLICT (name) DO UPDATE`; `id` is the one the database draws for the row it proposes. -/
def upsert (c : ClientConfig) (id : Uuid) (rows : List ClientRow) : Except DbError (List ClientRow) :=
  if rows.any (·.name == c.name) then updateWhere (·.name == c.name) (setConfig c) rows
  else if rows.any (·.clashes (newRow c id)) then .error .uniqueViolation
  else .ok (rows ++ [newRow c id])

def upsertAll : List ClientConfig → (Nat → Uuid) → List ClientRow → Except DbError (List ClientRow)
  | [], _, rows => .ok rows
  | c :: clients, ids, rows => do
    let rows ← upsert c (ids 0) rows
    upsertAll clients (fun n => ids (n + 1)) rows

/-- A row whose name is not configured. -/
def retire (r : ClientRow) : ClientRow :=
  { r with enabled := false, apiTokenSha256 := none, saAudience := none, saSubject := none, mayStoreSecrets := false }

/-- A row that gives its credential back. -/
def release (r : ClientRow) : ClientRow := { r with apiTokenSha256 := none, saAudience := none, saSubject := none }

/-- The transaction: retire the clients that are gone, release the credentials of the others, upsert them. -/
def reconcileClients (ids : Nat → Uuid) (clients : List ClientConfig) (rows : List ClientRow) :
    Except DbError (List ClientRow) := do
  let names := clients.map (·.name)
  let rows ← updateWhere (fun r => !names.contains r.name) retire rows
  let rows ← updateWhere (fun r => names.contains r.name) release rows
  upsertAll clients ids rows

/-! ## What an accepted config promises -/

/-- A character of a text of hex digits is no white space. -/
theorem not_whitespace_of_hex {s : String} (h : (bytes s).all isAsciiHexdigit = true) :
    ∀ c ∈ s.toList, isWhitespace c = false := by
  intro c hc
  have hbytes : ∀ b ∈ String.utf8EncodeChar c, isAsciiHexdigit b = true := by
    intro b hb
    rw [bytes_eq_flatMap] at h
    exact List.all_eq_true.1 h b (List.mem_flatMap.2 ⟨c, hc, hb⟩)
  by_cases hascii : c.toNat ≤ 127
  · have key : ∀ n : Fin 128, isAsciiHexdigit (UInt8.ofNat n) = true → isWhitespace (Char.ofNat n) = false := by
      decide +kernel
    rw [utf8EncodeChar_ascii hascii] at hbytes
    have hws := key ⟨c.toNat, by omega⟩ (hbytes _ (List.mem_singleton_self _))
    rwa [Char.ofNat_toNat] at hws
  · -- a longer sequence starts with a byte above the ASCII range
    have key : ∀ n : Fin 256, 128 ≤ n.val → isAsciiHexdigit ⟨⟨n⟩⟩ = false := by decide +kernel
    obtain ⟨b, hb⟩ := List.exists_mem_of_ne_nil _ (fun hnil => String.utf8EncodeChar_ne_nil hnil)
    have hge := utf8EncodeChar_ge hascii b hb
    have hno := key b.toBitVec.toFin hge
    rw [show (⟨⟨b.toBitVec.toFin⟩⟩ : UInt8) = b from rfl, hbytes b hb] at hno
    cases hno

theorem forM_eq_ok {ε α : Type} {f : α → Except ε Unit} {l : List α} (h : l.forM f = .ok ()) :
    ∀ a ∈ l, f a = .ok () := by
  induction l with
  | nil => simp
  | cons a l ih =>
      obtain ⟨_, ha, hl⟩ := bind_eq_ok.1 h
      intro b hb
      rcases List.mem_cons.1 hb with rfl | hb
      · exact ha
      · exact ih hl b hb

/-- Two clients of an accepted config: other names, and no credential in common. -/
structure Apart (c d : ClientConfig) : Prop where
  name : c.name ≠ d.name
  token : ∀ h k, c.auth.apiTokenSha256 = some h → d.auth.apiTokenSha256 = some k →
    toAsciiLowercase h ≠ toAsciiLowercase k
  serviceAccount : ∀ b, c.auth.serviceAccount = some b → d.auth.serviceAccount ≠ some b

theorem checkBindings_ok {clients : List ClientConfig} {tokenHashes : List String}
    {saBindings : List ServiceAccountAuth} (h : checkBindings clients tokenHashes saBindings = .ok ()) :
    (∀ c ∈ clients, (∀ t, c.auth.apiTokenSha256 = some t → toAsciiLowercase t ∉ tokenHashes) ∧
      ∀ b, c.auth.serviceAccount = some b → b ∉ saBindings) ∧
    clients.Pairwise fun c d =>
      (∀ t k, c.auth.apiTokenSha256 = some t → d.auth.apiTokenSha256 = some k →
        toAsciiLowercase t ≠ toAsciiLowercase k) ∧
      ∀ b, c.auth.serviceAccount = some b → d.auth.serviceAccount ≠ some b := by
  induction clients generalizing tokenHashes saBindings with
  | nil => simp
  | cons c clients ih =>
      simp only [checkBindings, bind_eq_ok, bailIf_eq_ok] at h
      obtain ⟨_, htoken, _, hsa, hrest⟩ := h
      obtain ⟨hfree, hpair⟩ := ih hrest
      simp only [List.mem_append, not_or] at hfree
      refine ⟨?_, List.Pairwise.cons ?_ hpair⟩
      · intro d hd
        rcases List.mem_cons.1 hd with rfl | hd
        · constructor
          · intro t ht
            simpa [ht] using htoken
          · intro b hb
            simpa [hb] using hsa
        · exact ⟨fun t ht => ((hfree d hd).1 t ht).2, fun b hb => ((hfree d hd).2 b hb).2⟩
      · intro d hd
        constructor
        · intro t k ht hk heq
          exact ((hfree d hd).1 k hk).1 (by simp [ht, heq])
        · intro b hb hb'
          exact ((hfree d hd).2 b hb').1 (by simp [hb])

/-- What the accepted clients of a normalized config are to each other, and that their digests are stored unchanged. -/
theorem validateClients_ok {tokenreviewUrl : Option String} {clients : List ClientConfig}
    (h : validateClients tokenreviewUrl (normalizeClients clients) = .ok ()) :
    (normalizeClients clients).Pairwise Apart ∧
      ∀ c ∈ normalizeClients clients, c.auth.apiTokenSha256.map normalizeDigest = c.auth.apiTokenSha256 := by
  simp only [validateClients, bind_eq_ok, bailIf_eq_ok] at h
  obtain ⟨_, heach, _, hnames, hbindings⟩ := h
  have hnodup : ((normalizeClients clients).map (·.name)).Nodup := by
    have hlen : ((normalizeClients clients).map (·.name)).dedup.length =
        ((normalizeClients clients).map (·.name)).length := by
      simpa using hnames
    exact List.dedup_eq_self.1 ((List.dedup_sublist _).eq_of_length hlen)
  constructor
  · exact (List.pairwise_map.1 hnodup).and (checkBindings_ok hbindings).2 |>.imp fun hcd => ⟨hcd.1, hcd.2.1, hcd.2.2⟩
  · intro c hc
    have hvalid := forM_eq_ok heach c hc
    simp only [validateClient, bind_eq_ok, bailIf_eq_ok] at hvalid
    obtain ⟨_, -, _, -, _, hdigest, -⟩ := hvalid
    obtain ⟨c₀, -, rfl⟩ := List.mem_map.1 hc
    cases ht : c₀.auth.apiTokenSha256 with
    | none => rfl
    | some t =>
        simp only [ht, Option.map_some, Option.any_some, Bool.or_eq_false_iff, Bool.not_eq_false'] at hdigest ⊢
        rw [normalizeDigest, trim_of_no_whitespace (not_whitespace_of_hex hdigest.2), normalizeDigest,
          toAsciiLowercase_idem]

/-! ## The statements of a run -/

theorem ClientRow.clashes_eq_false {a b : ClientRow} :
    a.clashes b = false ↔ a.id ≠ b.id ∧ a.name ≠ b.name ∧ a.sharesCredential b = false := by
  simp [ClientRow.clashes, and_assoc]

/-- A row before or after `r` in an indexed table does not clash with it. -/
theorem Indexed.clashes_middle {pre post : List ClientRow} {r a : ClientRow} (h : Indexed (pre ++ r :: post))
    (ha : a ∈ pre ∨ a ∈ post) : a.clashes r = false := by
  obtain ⟨-, htail, hcross⟩ := List.pairwise_append.1 h
  rcases ha with ha | ha
  · exact hcross a ha r (List.mem_cons_self ..)
  · rw [ClientRow.clashes_comm]
    exact (List.pairwise_cons.1 htail).1 a ha

/-- An update that takes credentials away never fails. -/
theorem updateWhere_released {p : ClientRow → Bool} {f : ClientRow → ClientRow} {rows : List ClientRow}
    (hI : Indexed rows) (hf : ∀ r, (f r).id = r.id ∧ (f r).name = r.name ∧ (f r).Released) :
    updateWhere p f rows = .ok (rows.map fun r => if p r then f r else r) := by
  refine updateEach_ok fun pre r post hrows _ a ha => ?_
  rw [hrows] at hI
  have hkeys : ∃ b, (b ∈ pre ∨ b ∈ post) ∧ a.id = b.id ∧ a.name = b.name := by
    rw [List.nil_append] at ha
    rcases List.mem_append.1 ha with ha | ha
    · obtain ⟨b, hb, rfl⟩ := List.mem_map.1 ha
      refine ⟨b, .inl hb, ?_⟩
      split
      · exact ⟨(hf b).1, (hf b).2.1⟩
      · exact ⟨rfl, rfl⟩
    · exact ⟨a, .inr ha, rfl, rfl⟩
  obtain ⟨b, hb, hid, hname⟩ := hkeys
  obtain ⟨hid', hname', -⟩ := ClientRow.clashes_eq_false.1 (hI.clashes_middle hb)
  rw [ClientRow.clashes_eq_false, (hf r).1, (hf r).2.1, hid, hname]
  exact ⟨hid', hname', (hf r).2.2.sharesCredential⟩

theorem upsert_indexed {c : ClientConfig} {id : Uuid} {rows rows' : List ClientRow}
    (h : upsert c id rows = .ok rows') (hI : Indexed rows) : Indexed rows' := by
  unfold upsert at h
  split at h
  · exact updateEach_indexed h (by simpa using hI)
  · split at h
    · cases h
    · rename_i hclash
      cases h
      rw [Bool.not_eq_true, List.any_eq_false] at hclash
      have hI' : Indexed (rows ++ []) := by simpa using hI
      refine hI'.middle fun a ha => ?_
      exact Bool.not_eq_true _ ▸ hclash a (by simpa using ha)

/-- One upsert: the row of that name takes the configured columns, or a new row joins. -/
theorem upsert_ok {c : ClientConfig} {id : Uuid} {rows : List ClientRow} (hI : Indexed rows)
    (hfree : ∀ a ∈ rows, a.sharesCredential (newRow c id) = false) (hid : ∀ a ∈ rows, a.id ≠ id) :
    upsert c id rows = .ok ((rows.map fun r => if r.name == c.name then setConfig c r else r) ++
      if rows.any (·.name == c.name) then [] else [newRow c id]) := by
  unfold upsert
  cases hany : rows.any (·.name == c.name) with
  | true =>
      rw [if_pos rfl, if_pos rfl, List.append_nil]
      refine updateEach_ok fun pre r post hrows hr a ha => ?_
      have hname : r.name = c.name := eq_of_beq hr
      have hmem : a ∈ pre ∨ a ∈ post := by
        rw [List.nil_append] at ha
        rcases List.mem_append.1 ha with ha | ha
        · obtain ⟨b, hb, rfl⟩ := List.mem_map.1 ha
          have hne := (ClientRow.clashes_eq_false.1 ((hrows ▸ hI).clashes_middle (.inl hb))).2.1
          rw [if_neg (by rw [hname] at hne; simpa using hne)]
          exact .inl hb
        · exact .inr ha
      obtain ⟨hid', hname', -⟩ := ClientRow.clashes_eq_false.1 ((hrows ▸ hI).clashes_middle hmem)
      have ha' : a ∈ rows := by
        rw [hrows, List.mem_append, List.mem_cons]
        exact hmem.elim .inl fun h => .inr (.inr h)
      exact ClientRow.clashes_eq_false.2 ⟨hid', hname', hfree a ha'⟩
  | false =>
      have hnames : ∀ a ∈ rows, a.name ≠ c.name := by simpa using hany
      have hclash : rows.any (·.clashes (newRow c id)) = false := by
        rw [List.any_eq_false]
        intro a ha
        rw [Bool.not_eq_true]
        exact ClientRow.clashes_eq_false.2 ⟨hid a ha, hnames a ha, hfree a ha⟩
      rw [if_neg (by decide), hclash, if_neg (by decide), if_neg (by decide)]
      rw [List.map_congr_left fun r hr => if_neg (by simpa using hnames r hr), List.map_id']

/-! ## The upsert loop -/

/-- A row under the columns of the client with its name, if there is one. -/
def configure (clients : List ClientConfig) (r : ClientRow) : ClientRow :=
  match clients.find? (·.name == r.name) with
  | some c => setConfig c r
  | none => r

/-- The rows of the clients that had none. -/
def added : List ClientConfig → (Nat → Uuid) → List String → List ClientRow
  | [], _, _ => []
  | c :: clients, ids, names =>
    if names.contains c.name then added clients (fun n => ids (n + 1)) names
    else newRow c (ids 0) :: added clients (fun n => ids (n + 1)) names

theorem configure_cons_of_eq {c : ClientConfig} {clients : List ClientConfig} {r : ClientRow} (h : r.name = c.name) :
    configure (c :: clients) r = setConfig c r := by
  rw [configure, List.find?_cons_of_pos (by simpa using h.symm)]

theorem configure_cons_of_ne {c : ClientConfig} {clients : List ClientConfig} {r : ClientRow} (h : r.name ≠ c.name) :
    configure (c :: clients) r = configure clients r := by
  rw [configure, List.find?_cons_of_neg (by simpa using h.symm), configure]

theorem configure_of_forall_ne {clients : List ClientConfig} {r : ClientRow} (h : ∀ d ∈ clients, d.name ≠ r.name) :
    configure clients r = r := by
  rw [configure, List.find?_eq_none.2 fun d hd => by simpa using h d hd]

/-- A name that no client has does not matter. -/
theorem added_concat {clients : List ClientConfig} {ids : Nat → Uuid} {names : List String} {name : String}
    (h : ∀ d ∈ clients, d.name ≠ name) : added clients ids (names ++ [name]) = added clients ids names := by
  induction clients generalizing ids with
  | nil => rfl
  | cons d clients ih =>
      have hd : (names ++ [name]).contains d.name = names.contains d.name := by
        rw [Bool.eq_iff_iff]
        simp [h d (List.mem_cons_self ..)]
      rw [added, added, hd, ih fun e he => h e (List.mem_cons_of_mem _ he)]

theorem Apart.symm {c d : ClientConfig} (h : Apart c d) : Apart d c :=
  ⟨h.name.symm, fun k t hk ht => (h.token t k ht hk).symm, fun b hb hb' => h.serviceAccount b hb' hb⟩

theorem Apart.sharesCredential {c d : ClientConfig} (h : Apart c d)
    (hc : c.auth.apiTokenSha256.map normalizeDigest = c.auth.apiTokenSha256)
    (hd : d.auth.apiTokenSha256.map normalizeDigest = d.auth.apiTokenSha256) (r r' : ClientRow) :
    (setConfig c r).sharesCredential (setConfig d r') = false := by
  rw [← Bool.not_eq_true, ClientRow.sharesCredential_iff]
  simp only [setConfig, hc, hd]
  rintro (⟨t, ht, ht'⟩ | ⟨u, v, hu, hv, hu', hv'⟩)
  · exact h.token t t ht ht' rfl
  · obtain ⟨b, hb, rfl⟩ := Option.map_eq_some_iff.1 hu
    obtain ⟨b', hb', hau⟩ := Option.map_eq_some_iff.1 hu'
    rw [hb, Option.map_some, Option.some.injEq] at hv
    rw [hb', Option.map_some, Option.some.injEq] at hv'
    have heq : b' = b := by
      cases b; cases b'
      simp only at hau hv hv'
      rw [hau, hv', hv]
    exact h.serviceAccount b hb (heq ▸ hb')

/-- One upsert before the others: what the loop leaves, computed at once. -/
theorem upsert_step_eq {c : ClientConfig} {clients : List ClientConfig} {ids : Nat → Uuid} {rows : List ClientRow}
    (hne : ∀ d ∈ clients, d.name ≠ c.name) :
    ((rows.map fun r => if r.name == c.name then setConfig c r else r) ++
        (if rows.any (·.name == c.name) then [] else [newRow c (ids 0)])).map (configure clients) ++
      added clients (fun n => ids (n + 1)) (((rows.map fun r => if r.name == c.name then setConfig c r else r) ++
        (if rows.any (·.name == c.name) then [] else [newRow c (ids 0)])).map (·.name)) =
    rows.map (configure (c :: clients)) ++ added (c :: clients) ids (rows.map (·.name)) := by
  have hconf : (configure clients ∘ fun r => if r.name == c.name then setConfig c r else r) =
      configure (c :: clients) := by
    funext r
    rw [Function.comp_apply]
    by_cases hr : r.name = c.name
    · rw [if_pos (by simpa using hr), configure_cons_of_eq hr]
      exact configure_of_forall_ne fun d hd => hr ▸ hne d hd
    · rw [if_neg (by simpa using hr), configure_cons_of_ne hr]
  have hnames : (rows.map fun r => if r.name == c.name then setConfig c r else r).map (·.name) = rows.map (·.name) := by
    rw [List.map_map]
    refine List.map_congr_left fun r _ => ?_
    simp only [Function.comp_apply]
    split <;> rfl
  rw [List.map_append, List.map_map, List.map_append, hnames, hconf, added]
  have hany : rows.any (·.name == c.name) = (rows.map (·.name)).contains c.name := by
    rw [List.contains_eq_any_beq, List.any_map]
    congr 1
    funext r
    exact Bool.beq_comm
  rw [hany]
  cases (rows.map (·.name)).contains c.name with
  | true => simp
  | false =>
      have hnew : configure clients (newRow c (ids 0)) = newRow c (ids 0) := configure_of_forall_ne hne
      simp only [Bool.false_eq_true, if_false, List.map_cons, List.map_nil, hnew]
      rw [show (newRow c (ids 0)).name = c.name from rfl, added_concat hne, List.append_assoc]
      rfl

/-- The loop over clients that are apart from each other, on rows that hold none of their credentials. -/
theorem upsertAll_ok {clients : List ClientConfig} {ids : Nat → Uuid} {rows : List ClientRow} (hI : Indexed rows)
    (hapart : clients.Pairwise Apart)
    (hdigest : ∀ c ∈ clients, c.auth.apiTokenSha256.map normalizeDigest = c.auth.apiTokenSha256)
    (hfree : ∀ c ∈ clients, ∀ a ∈ rows, ∀ id, a.sharesCredential (newRow c id) = false)
    (hinj : ∀ i < clients.length, ∀ j < clients.length, ids i = ids j → i = j)
    (hids : ∀ i < clients.length, ∀ a ∈ rows, a.id ≠ ids i) :
    ∃ rows', upsertAll clients ids rows = .ok rows' ∧ Indexed rows' ∧
      rows' = rows.map (configure clients) ++ added clients ids (rows.map (·.name)) := by
  induction clients generalizing ids rows with
  | nil =>
      refine ⟨rows, rfl, hI, ?_⟩
      rw [added, List.append_nil]
      exact (List.map_id rows).symm
  | cons c clients ih =>
      obtain ⟨hc, hrest⟩ := List.pairwise_cons.1 hapart
      have hpos : 0 < (c :: clients).length := Nat.succ_pos _
      have hself := List.mem_cons_self (a := c) (l := clients)
      have hup := upsert_ok hI (fun a ha => hfree c hself a ha (ids 0)) (hids 0 hpos)
      generalize hrows₁ : (rows.map fun r => if r.name == c.name then setConfig c r else r) ++
        (if rows.any (·.name == c.name) then [] else [newRow c (ids 0)]) = rows₁ at hup
      -- every row of the next table is an old one, or one with the credential of `c`
      have hmem : ∀ a ∈ rows₁, (∃ r ∈ rows, a.id = r.id ∧ a.name = r.name ∧ (a = r ∨ a = setConfig c r)) ∨
          a = newRow c (ids 0) := by
        intro a ha
        rw [← hrows₁, List.mem_append] at ha
        rcases ha with ha | ha
        · obtain ⟨r, hr, rfl⟩ := List.mem_map.1 ha
          left
          split
          · exact ⟨r, hr, rfl, rfl, .inr rfl⟩
          · exact ⟨r, hr, rfl, rfl, .inl rfl⟩
        · right
          split at ha
          · cases ha
          · exact List.mem_singleton.1 ha
      have hfree₁ : ∀ d ∈ clients, ∀ a ∈ rows₁, ∀ id, a.sharesCredential (newRow d id) = false := by
        intro d hd a ha id
        have hdc : ∀ r, (setConfig c r).sharesCredential (newRow d id) = false := fun r =>
          (hc d hd).sharesCredential (hdigest c hself) (hdigest d (List.mem_cons_of_mem _ hd)) r _
        rcases hmem a ha with ⟨r, hr, -, -, rfl | rfl⟩ | rfl
        · exact hfree d (List.mem_cons_of_mem _ hd) _ hr id
        · exact hdc r
        · exact hdc _
      have hids₁ : ∀ i < clients.length, ∀ a ∈ rows₁, a.id ≠ ids (i + 1) := by
        intro i hi a ha
        rcases hmem a ha with ⟨r, hr, hid, -, -⟩ | rfl
        · rw [hid]
          exact hids (i + 1) (Nat.succ_lt_succ hi) r hr
        · exact fun h => Nat.succ_ne_zero i (hinj _ (Nat.succ_lt_succ hi) _ hpos h.symm)
      have hinj₁ : ∀ i < clients.length, ∀ j < clients.length, ids (i + 1) = ids (j + 1) → i = j := fun i hi j hj h =>
        Nat.succ.inj (hinj _ (Nat.succ_lt_succ hi) _ (Nat.succ_lt_succ hj) h)
      obtain ⟨rows', hok, hI', hrows'⟩ := ih (upsert_indexed hup hI) hrest
        (fun d hd => hdigest d (List.mem_cons_of_mem _ hd)) hfree₁ hinj₁ hids₁
      refine ⟨rows', ?_, hI', ?_⟩
      · rw [upsertAll, hup]
        exact hok
      · rw [hrows', ← hrows₁]
        exact upsert_step_eq fun d hd => (hc d hd).name.symm

/-! ## The transaction -/

/-- The row that a row becomes: configured, or retired. -/
def finalRow (clients : List ClientConfig) (r : ClientRow) : ClientRow :=
  match clients.find? (·.name == r.name) with
  | some c => setConfig c r
  | none => retire r

theorem finalRow_id (clients : List ClientConfig) (r : ClientRow) : (finalRow clients r).id = r.id := by
  unfold finalRow
  split <;> rfl

theorem finalRow_name (clients : List ClientConfig) (r : ClientRow) : (finalRow clients r).name = r.name := by
  unfold finalRow
  split <;> rfl

theorem released_retire (r : ClientRow) : (retire r).Released := ⟨rfl, rfl, rfl⟩

theorem released_release (r : ClientRow) : (release r).Released := ⟨rfl, rfl, rfl⟩

theorem contains_names {clients : List ClientConfig} {name : String} :
    (clients.map (·.name)).contains name = true ↔ ∃ c ∈ clients, c.name = name := by
  rw [List.contains_iff_mem, List.mem_map]

/-- A row after the two updates: without its credential in either case. -/
def cleared (clients : List ClientConfig) (r : ClientRow) : ClientRow :=
  if (clients.map (·.name)).contains r.name then release r else retire r

theorem cleared_id (clients : List ClientConfig) (r : ClientRow) : (cleared clients r).id = r.id := by
  unfold cleared
  split <;> rfl

theorem cleared_name (clients : List ClientConfig) (r : ClientRow) : (cleared clients r).name = r.name := by
  unfold cleared
  split <;> rfl

theorem released_cleared (clients : List ClientConfig) (r : ClientRow) : (cleared clients r).Released := by
  unfold cleared
  split
  · exact released_release r
  · exact released_retire r

theorem map_cleared (clients : List ClientConfig) (rows : List ClientRow) :
    ((rows.map fun r => if !(clients.map (·.name)).contains r.name then retire r else r).map fun r =>
      if (clients.map (·.name)).contains r.name then release r else r) = rows.map (cleared clients) := by
  rw [List.map_map]
  refine List.map_congr_left fun r _ => ?_
  have hname : (retire r).name = r.name := rfl
  cases hc : (clients.map (·.name)).contains r.name with
  | true => simp only [Function.comp_apply, cleared, hc, Bool.not_true, Bool.false_eq_true, if_false, if_true]
  | false => simp only [Function.comp_apply, cleared, hc, Bool.not_false, if_true, hname, Bool.false_eq_true, if_false]

theorem configure_cleared (clients : List ClientConfig) (r : ClientRow) :
    configure clients (cleared clients r) = finalRow clients r := by
  rw [configure, cleared_name, finalRow]
  cases hfind : clients.find? (·.name == r.name) with
  | none =>
      have hnone : (clients.map (·.name)).contains r.name = false := by
        rw [← Bool.not_eq_true, contains_names]
        rintro ⟨c, hc, hname⟩
        simpa [hname] using List.find?_eq_none.1 hfind c hc
      simp only [cleared, hnone, Bool.false_eq_true, if_false]
  | some c =>
      have hsome : (clients.map (·.name)).contains r.name = true :=
        contains_names.2 ⟨c, List.mem_of_find?_eq_some hfind, by simpa using List.find?_some hfind⟩
      simp only [cleared, hsome, if_true]
      rfl

/-- On clients that are apart no statement fails, and the table that results is this one. -/
theorem reconcileClients_eq {clients : List ClientConfig} {ids : Nat → Uuid} {rows : List ClientRow} (hI : Indexed rows)
    (hapart : clients.Pairwise Apart)
    (hdigest : ∀ c ∈ clients, c.auth.apiTokenSha256.map normalizeDigest = c.auth.apiTokenSha256)
    (hinj : ∀ i < clients.length, ∀ j < clients.length, ids i = ids j → i = j)
    (hids : ∀ i < clients.length, ∀ a ∈ rows, a.id ≠ ids i) :
    ∃ rows', reconcileClients ids clients rows = .ok rows' ∧ Indexed rows' ∧
      rows' = rows.map (finalRow clients) ++ added clients ids (rows.map (·.name)) := by
  have hretire := @updateWhere_released (fun r => !(clients.map (·.name)).contains r.name) retire rows hI
    fun r => ⟨rfl, rfl, released_retire r⟩
  generalize hrows₁ : (rows.map fun r => if !(clients.map (·.name)).contains r.name then retire r else r) = rows₁
    at hretire
  have hI₁ : Indexed rows₁ := updateEach_indexed hretire (by simpa using hI)
  have hrelease := @updateWhere_released (fun r => (clients.map (·.name)).contains r.name) release rows₁ hI₁
    fun r => ⟨rfl, rfl, released_release r⟩
  rw [← hrows₁, map_cleared] at hrelease
  have hI₂ : Indexed (rows.map (cleared clients)) := by
    refine updateEach_indexed hrelease ?_
    rw [List.nil_append, hrows₁]
    exact hI₁
  have hfree : ∀ c ∈ clients, ∀ a ∈ rows.map (cleared clients), ∀ id, a.sharesCredential (newRow c id) = false := by
    intro c _ a ha id
    obtain ⟨r, -, rfl⟩ := List.mem_map.1 ha
    rw [ClientRow.sharesCredential_comm]
    exact (released_cleared clients r).sharesCredential
  have hids₂ : ∀ i < clients.length, ∀ a ∈ rows.map (cleared clients), a.id ≠ ids i := by
    intro i hi a ha
    obtain ⟨r, hr, rfl⟩ := List.mem_map.1 ha
    rw [cleared_id]
    exact hids i hi r hr
  obtain ⟨rows', hok, hI', hrows'⟩ := upsertAll_ok hI₂ hapart hdigest hfree hinj hids₂
  rw [hrows₁] at hrelease
  refine ⟨rows', bind_eq_ok.2 ⟨rows₁, hretire, bind_eq_ok.2 ⟨_, hrelease, hok⟩⟩, hI', ?_⟩
  have hnames : (rows.map (cleared clients)).map (·.name) = rows.map (·.name) := by
    rw [List.map_map]
    exact List.map_congr_left fun r _ => cleared_name clients r
  rw [hrows', hnames, List.map_map]
  congr 1
  exact List.map_congr_left fun r _ => configure_cleared clients r

/-! ## The table that results -/

theorem mem_added {clients : List ClientConfig} {ids : Nat → Uuid} {names : List String} {a : ClientRow}
    (h : a ∈ added clients ids names) : ∃ c ∈ clients, ∃ id, a = newRow c id := by
  induction clients generalizing ids with
  | nil => cases h
  | cons c clients ih =>
      rw [added] at h
      have hrest : a ∈ added clients (fun n => ids (n + 1)) names → ∃ d ∈ c :: clients, ∃ id, a = newRow d id := by
        intro h
        obtain ⟨d, hd, hnew⟩ := ih h
        exact ⟨d, List.mem_cons_of_mem _ hd, hnew⟩
      split at h
      · exact hrest h
      · rcases List.mem_cons.1 h with rfl | h
        · exact ⟨c, List.mem_cons_self .., _, rfl⟩
        · exact hrest h

theorem newRow_mem_added {clients : List ClientConfig} {ids : Nat → Uuid} {names : List String} {c : ClientConfig}
    (hc : c ∈ clients) (hname : names.contains c.name = false) : ∃ id, newRow c id ∈ added clients ids names := by
  induction clients generalizing ids with
  | nil => cases hc
  | cons d clients ih =>
      rw [added]
      rcases List.mem_cons.1 hc with rfl | hc
      · rw [hname]
        exact ⟨ids 0, List.mem_cons_self ..⟩
      · obtain ⟨id, hid⟩ := @ih (fun n => ids (n + 1)) hc
        split
        · exact ⟨id, hid⟩
        · exact ⟨id, List.mem_cons_of_mem _ hid⟩

/-- A row with its id blanked where the database generated it in this run. -/
def anonymous (names : List String) (r : ClientRow) : ClientRow :=
  if names.contains r.name then r else { r with id := 0 }

theorem added_anonymous (clients : List ClientConfig) (ids : Nat → Uuid) (names : List String) :
    (added clients ids names).map (anonymous names) =
      (clients.filter fun c => !names.contains c.name).map fun c => newRow c 0 := by
  induction clients generalizing ids with
  | nil => rfl
  | cons c clients ih =>
      rw [added]
      cases hc : names.contains c.name with
      | true =>
          rw [if_pos rfl, ih, List.filter_cons_of_neg (by simpa using hc)]
      | false =>
          have hanon : anonymous names (newRow c (ids 0)) = newRow c 0 := by
            rw [anonymous, show (newRow c (ids 0)).name = c.name from rfl, hc]
            rfl
          rw [if_neg (by decide), List.map_cons, ih, hanon, List.filter_cons_of_pos (by simpa using hc), List.map_cons]

theorem find?_of_apart {clients : List ClientConfig} (hapart : clients.Pairwise Apart) {c : ClientConfig}
    (hc : c ∈ clients) : clients.find? (·.name == c.name) = some c := by
  induction clients with
  | nil => cases hc
  | cons d clients ih =>
      obtain ⟨hd, hrest⟩ := List.pairwise_cons.1 hapart
      rcases List.mem_cons.1 hc with rfl | hc
      · exact List.find?_cons_of_pos (by simp)
      · rw [List.find?_cons_of_neg (by simpa using (hd c hc).name)]
        exact ih hrest hc

theorem finalRow_of_mem {clients : List ClientConfig} (hapart : clients.Pairwise Apart) {c : ClientConfig} {r : ClientRow}
    (hc : c ∈ clients) (hname : r.name = c.name) : finalRow clients r = setConfig c r := by
  rw [finalRow, hname, find?_of_apart hapart hc]

theorem finalRow_of_forall_ne {clients : List ClientConfig} {r : ClientRow} (h : ∀ c ∈ clients, c.name ≠ r.name) :
    finalRow clients r = retire r := by
  rw [finalRow, List.find?_eq_none.2 fun c hc => by simpa using h c hc]

/-- The order of the clients does not matter to a row. -/
theorem finalRow_perm {clients clients' : List ClientConfig} (hapart : clients.Pairwise Apart)
    (hperm : clients'.Perm clients) (r : ClientRow) : finalRow clients' r = finalRow clients r := by
  have hapart' : clients'.Pairwise Apart := (hperm.pairwise_iff fun h => h.symm).2 hapart
  by_cases h : ∃ c ∈ clients, c.name = r.name
  · obtain ⟨c, hc, hname⟩ := h
    rw [finalRow_of_mem hapart hc hname.symm, finalRow_of_mem hapart' (hperm.mem_iff.2 hc) hname.symm]
  · have hne : ∀ c ∈ clients, c.name ≠ r.name := fun c hc hname => h ⟨c, hc, hname⟩
    rw [finalRow_of_forall_ne hne, finalRow_of_forall_ne fun c hc => hne c (hperm.mem_iff.1 hc)]

/-- What a row of the resulting table is: a configured client's, or one that was retired. -/
structure Configured (c : ClientConfig) (r : ClientRow) : Prop where
  name : r.name = c.name
  enabled : r.enabled = true
  maxTier : r.maxTier = c.maxTier.asInt
  mechanisms : r.mechanisms = c.mechanisms.map Mechanism.asStr
  apiTokenSha256 : r.apiTokenSha256 = c.auth.apiTokenSha256
  saAudience : r.saAudience = c.auth.serviceAccount.map (·.audience)
  saSubject : r.saSubject = c.auth.serviceAccount.map (·.subject)
  mayStoreSecrets : r.mayStoreSecrets = c.mayStoreSecrets

structure Retired (r : ClientRow) : Prop where
  enabled : r.enabled = false
  released : r.Released
  mayStoreSecrets : r.mayStoreSecrets = false

theorem configured_setConfig {c : ClientConfig} {r : ClientRow}
    (hdigest : c.auth.apiTokenSha256.map normalizeDigest = c.auth.apiTokenSha256) (hname : r.name = c.name) :
    Configured c (setConfig c r) := ⟨hname, rfl, rfl, rfl, hdigest, rfl, rfl, rfl⟩

/-- Reconciliation with an accepted config never fails. The configured names are the enabled rows, each with the columns
of its client; every other row is retired; rows keep their ids; and apart from the ids of new rows the table does not
depend on the order of the clients. -/
theorem reconcileClients_total {tokenreviewUrl : Option String} {config clients : List ClientConfig}
    (hclients : clients = normalizeClients config) (hvalid : validateClients tokenreviewUrl clients = .ok ())
    {rows : List ClientRow} (hI : Indexed rows) {ids : Nat → Uuid}
    (hinj : ∀ i < clients.length, ∀ j < clients.length, ids i = ids j → i = j)
    (hids : ∀ i < clients.length, ∀ a ∈ rows, a.id ≠ ids i) :
    ∃ rows', reconcileClients ids clients rows = .ok rows' ∧ Indexed rows' ∧
      (∀ c ∈ clients, ∃ r ∈ rows', Configured c r) ∧
      (∀ r ∈ rows', (∃ c ∈ clients, Configured c r) ∨
        (∀ c ∈ clients, c.name ≠ r.name) ∧ (∃ r₀ ∈ rows, r₀.name = r.name) ∧ Retired r) ∧
      (∀ r₀ ∈ rows, ∃ r ∈ rows', r.name = r₀.name ∧ r.id = r₀.id) ∧
      ∀ clients' ids', clients'.Perm clients →
        (∀ i < clients.length, ∀ j < clients.length, ids' i = ids' j → i = j) →
        (∀ i < clients.length, ∀ a ∈ rows, a.id ≠ ids' i) →
        ∃ rows'', reconcileClients ids' clients' rows = .ok rows'' ∧
          (rows''.map (anonymous (rows.map (·.name)))).Perm (rows'.map (anonymous (rows.map (·.name)))) := by
  obtain ⟨hapart, hdigest⟩ := validateClients_ok (hclients ▸ hvalid)
  rw [← hclients] at hapart hdigest
  obtain ⟨rows', hok, hI', hrows'⟩ := reconcileClients_eq hI hapart hdigest hinj hids
  refine ⟨rows', hok, hI', ?_, ?_, ?_, ?_⟩
  · intro c hc
    cases hname : (rows.map (·.name)).contains c.name with
    | true =>
        obtain ⟨r, hr, hrc⟩ := List.mem_map.1 (List.contains_iff_mem.1 hname)
        refine ⟨finalRow clients r, hrows' ▸ List.mem_append_left _ (List.mem_map_of_mem hr), ?_⟩
        rw [finalRow_of_mem hapart hc hrc]
        exact configured_setConfig (hdigest c hc) hrc
    | false =>
        obtain ⟨id, hmem⟩ := @newRow_mem_added clients ids _ c hc hname
        exact ⟨newRow c id, hrows' ▸ List.mem_append_right _ hmem, configured_setConfig (hdigest c hc) rfl⟩
  · intro r hr
    rw [hrows', List.mem_append] at hr
    rcases hr with hr | hr
    · obtain ⟨r₀, hr₀, rfl⟩ := List.mem_map.1 hr
      by_cases h : ∃ c ∈ clients, c.name = r₀.name
      · obtain ⟨c, hc, hname⟩ := h
        rw [finalRow_of_mem hapart hc hname.symm]
        exact .inl ⟨c, hc, configured_setConfig (hdigest c hc) hname.symm⟩
      · have hne : ∀ c ∈ clients, c.name ≠ r₀.name := fun c hc hname => h ⟨c, hc, hname⟩
        rw [finalRow_of_forall_ne hne]
        exact .inr ⟨hne, ⟨r₀, hr₀, rfl⟩, rfl, released_retire r₀, rfl⟩
    · obtain ⟨c, hc, id, rfl⟩ := mem_added hr
      exact .inl ⟨c, hc, configured_setConfig (hdigest c hc) rfl⟩
  · intro r₀ hr₀
    exact ⟨finalRow clients r₀, hrows' ▸ List.mem_append_left _ (List.mem_map_of_mem hr₀), finalRow_name clients r₀,
      finalRow_id clients r₀⟩
  · intro clients' ids' hperm hinj' hids'
    have hlen := hperm.length_eq
    obtain ⟨rows'', hok', -, hrows''⟩ := reconcileClients_eq hI ((hperm.pairwise_iff fun h => h.symm).2 hapart)
      (fun c hc => hdigest c (hperm.mem_iff.1 hc)) (hlen ▸ hinj') (hlen ▸ hids')
    refine ⟨rows'', hok', ?_⟩
    rw [hrows', hrows'', List.map_append, List.map_append, added_anonymous, added_anonymous,
      List.map_congr_left (fun r _ => finalRow_perm hapart hperm r)]
    exact ((hperm.filter _).map _).append_left _

/-! ### Credentials that move around -/

def sampleDigest (c : Char) : String := String.ofList (List.replicate 64 c)

def tokenRow (id : Uuid) (name : String) (digest : Char) : ClientRow :=
  ⟨id, name, 0, ["brokered"], "api-token", some (sampleDigest digest), none, none, true, false⟩

def tokenClient (name digest : String) : ClientConfig := ⟨name, .brokered, [.brokered], ⟨some digest, none⟩, false⟩

/-- Three clients before, of which `ci` and `web` exchange their tokens and `old` leaves its own to `new`. -/
def movedRows : List ClientRow := [tokenRow 1 "ci" 'a', tokenRow 2 "web" 'b', tokenRow 3 "old" 'c']

def movedClients : List ClientConfig :=
  [tokenClient "ci" (sampleDigest 'b'), tokenClient "new" (" " ++ sampleDigest 'C'), tokenClient "web" (sampleDigest 'a')]

theorem reconcileClients_total_moved : ∃ rows',
    reconcileClients (fun n => Fin.ofNat _ (n + 10)) (normalizeClients movedClients) movedRows = .ok rows' ∧
    (∀ c ∈ normalizeClients movedClients, ∃ r ∈ rows', Configured c r) ∧
    ∀ r ∈ rows', (∃ c ∈ normalizeClients movedClients, Configured c r) ∨
      (∀ c ∈ normalizeClients movedClients, c.name ≠ r.name) ∧ (∃ r₀ ∈ movedRows, r₀.name = r.name) ∧ Retired r := by
  have hvalid : validateClients none (normalizeClients movedClients) = .ok () := by decide +kernel
  have hI : Indexed movedRows := by
    unfold Indexed
    decide +kernel
  have hinj : ∀ i < 3, ∀ j < 3, Fin.ofNat (2 ^ 128) (i + 10) = Fin.ofNat (2 ^ 128) (j + 10) → i = j := by decide
  have hids : ∀ i < 3, ∀ a ∈ movedRows, a.id ≠ Fin.ofNat (2 ^ 128) (i + 10) := by decide +kernel
  obtain ⟨rows', hok, -, hconf, hrows, -⟩ := reconcileClients_total rfl hvalid hI hinj hids
  exact ⟨rows', hok, hconf, hrows⟩

end Keychute.Reconcile
