import Keychute.Reconcile.Secrets
import Keychute.Template
import Keychute.Ui.Approve

/-!
# A secret's settings, edited (`server/src/ui/mod.rs`)

* `saveSecret` : the form that stores or rotates a secret, up to its transaction;
* `editForm` : what the edit page of a secret holds; `updateSecret` : what submitting it does;
* `Written` : the rows that the UI, an approval, a deposit or an earlier edit wrote;
* `parseTagsField_join`, `formFields_validate` : the printers of the page, read back by the parsers of the handler;
* `unchanged_edit_iff` : when saving the page unchanged changes nothing.
-/

namespace Keychute.Ui
open Keychute.Api Keychute.Db Keychute.Lib
open Keychute.Crypto (AadContext)
open Keychute.Proxy (CheckedTemplate checked_of_validate parseScope_join)
open Keychute.Reconcile (mem_sortDedup tagRows exec_replaceTags_rows)

def MANAGED_SECRET : String :=
  "this secret is provisioned from Keychute's config (GitOps): change or remove it there. An edit here would be " ++
    "reverted on the next restart."

/-! ## Storing from the form -/

structure SecretForm where
  name : String
  secretValue : Option String
  description : Option String
  maxTier : Option String
  injectionKind : Option String
  injectionHeader : Option String
  injectionScope : Option String

/-- The tier of a new secret. -/
def saveTier (form : SecretForm) : Except Refusal Tier :=
  match nonEmpty form.maxTier with
  | none => .ok .brokered
  | some raw => orElse (tierFromStr raw) (badRequest "invalid max_tier")

/-- What the form asks of the store. -/
inductive SaveSecret where
  /-- A new version; the settings are unchanged. -/
  | rotate (existing : Db.SecretRow) (value : Blob)
  | create (store : StoreSecretParams)

/-- `save_secret` up to its transaction. `sealBytes` is `Keyset::seal` as it will be called there. -/
def saveSecret (sealBytes : Blob → AadContext → SealFn) (s : Store) (secretId : Uuid) (form : SecretForm) :
    Except Refusal SaveSecret := do
  let name := trim form.name
  refuseWhen (name == "") (badRequest "secret name is required")
  let value ← orElse ((form.secretValue.filter (· ≠ "")).map bytes) (badRequest "secret value is required")
  match getSecretByName s name with
  | some existing =>
    refuseWhen existing.managedByConfig (.error 409 MANAGED_SECRET)
    return .rotate existing value
  | none =>
    let maxTier ← saveTier form
    let template ← (validateInjection ((nonEmpty form.injectionKind).getD "bearer") (nonEmpty form.injectionHeader)
      (nonEmpty form.injectionScope)).mapError badRequest
    return .create {
      secretId, name
      description := (nonEmpty form.description).getD ""
      maxTier := maxTier.asInt
      injectionKind := template.1
      injectionHeader := template.2.1
      injectionUsername := template.2.2
      sealWith := sealBytes value (.secretVersion secretId 1) }

/-! ## The edit page -/

/-- A stored injection template as the secret form spells it: the kind, the header, username or access key field, and the
scope field. -/
def injectionFormFields (s : Db.SecretRow) : String × String × String :=
  let header := s.injectionHeader.getD ""
  if s.injectionKind = "header" then ("header", header, "")
  else if s.injectionKind = "basic" ∨ s.injectionKind = "basic-password" then
    ("basic", s.injectionUsername.getD header, "")
  else if s.injectionKind = "aws-sigv4" then ("aws-sigv4", s.injectionUsername.getD "", header)
  else ("bearer", "", "")

structure SecretSettingsForm where
  description : Option String
  maxTier : String
  injectionKind : String
  injectionHeader : Option String
  injectionScope : Option String
  tags : Option String
  enabled : Option String

/-- The fields of the edit page as it is rendered. A list with no option selected submits its first. -/
def editForm (row : Db.SecretRow) (tags : List String) : SecretSettingsForm :=
  let fields := injectionFormFields row
  { description := some row.description
    maxTier := ((Tier.fromInt row.maxTier).getD .brokered).asStr
    injectionKind := fields.1
    injectionHeader := some fields.2.1
    injectionScope := some fields.2.2
    tags := some (", ".intercalate tags)
    enabled := if row.enabled then some "on" else none }

/-- Cut at commas and white space, sorted, each once. -/
def parseTagsField (raw : String) : Except Refusal (List String) := do
  let tags := ((splitMethods raw.toList).map String.ofList).filter (· ≠ "")
  refuseWhen (tags.any fun t => byteLen t > 128 || t.toList.any isControl) (badRequest "invalid tag")
  return sortDedup tags

/-- The settings of a submitted edit form. -/
def parseSettings (form : SecretSettingsForm) : Except Refusal SecretSettings := do
  let maxTier ← orElse (tierFromStr (trim form.maxTier)) (badRequest "invalid max_tier")
  let template ← (validateInjection (trim form.injectionKind) (nonEmpty form.injectionHeader)
    (nonEmpty form.injectionScope)).mapError badRequest
  let tags ← parseTagsField (form.tags.getD "")
  return {
    description := trim (form.description.getD "")
    maxTier := maxTier.asInt
    injectionKind := template.1
    injectionHeader := template.2.1
    injectionUsername := template.2.2
    enabled := form.enabled.isSome
    tags := tags }

def answerSettings : Except DbError Reply → Except Refusal Unit
  | .ok (.settings .updated) => .ok ()
  | .ok (.settings .managed) => .error (.error 409 MANAGED_SECRET)
  | .ok (.settings .notFound) => .error (.error 409 "that secret was deleted while you were editing it")
  | _ => .error internalError

/-- `POST /ui/secrets/:id`; `.ok` is the redirect after an edit. -/
def updateSecret (id : Uuid) (form : SecretSettingsForm) (actor : String) (now : DateTime) (s : Store) :
    Store × Except Refusal Unit :=
  match parseSettings form with
  | .error r => (s, .error r)
  | .ok t =>
    let (s', r) := (updateSecretSettingsAudited id t actor now).run s
    (s', answerSettings r)

/-! ## Tags -/

/-- A tag as the form leaves it. -/
def TagOk (tag : String) : Prop :=
  tag ≠ "" ∧ tag.toList.all (fun ch => !(ch == ',' || isWhitespace ch)) = true ∧ byteLen tag ≤ 128 ∧
    tag.toList.any isControl = false

theorem splitMethods_append {cs : List Char} (h : cs.all (fun ch => !(ch == ',' || isWhitespace ch)) = true) (sep : Char)
    (hsep : (sep == ',' || isWhitespace sep) = true) (rest : List Char) :
    splitMethods (cs ++ sep :: rest) = cs :: splitMethods rest := by
  induction cs with
  | nil => rw [List.nil_append, splitMethods, if_pos hsep]
  | cons ch cs ih =>
      rw [List.all_cons, Bool.and_eq_true, Bool.not_eq_true'] at h
      rw [List.cons_append, splitMethods, if_neg (by rw [h.1]; exact Bool.false_ne_true), ih h.2]
      rfl

theorem splitMethods_self {cs : List Char} (h : cs.all (fun ch => !(ch == ',' || isWhitespace ch)) = true) :
    splitMethods cs = [cs] := by
  induction cs with
  | nil => rfl
  | cons ch cs ih =>
      rw [List.all_cons, Bool.and_eq_true, Bool.not_eq_true'] at h
      rw [splitMethods, if_neg (by rw [h.1]; exact Bool.false_ne_true), ih h.2]
      rfl

/-- No piece of a cut text holds a separator. -/
theorem splitMethods_pieces (cs : List Char) :
    splitMethods cs ≠ [] ∧ ∀ piece ∈ splitMethods cs, piece.all (fun ch => !(ch == ',' || isWhitespace ch)) = true := by
  induction cs with
  | nil => simp [splitMethods]
  | cons ch cs ih =>
      rw [splitMethods]
      split
      · refine ⟨List.cons_ne_nil _ _, ?_⟩
        intro piece hp
        rcases List.mem_cons.1 hp with rfl | hp
        · rfl
        · exact ih.2 piece hp
      · rename_i hch
        obtain ⟨first, rest, heq⟩ := List.exists_cons_of_ne_nil ih.1
        rw [heq] at ih ⊢
        refine ⟨List.cons_ne_nil _ _, ?_⟩
        intro piece hp
        rcases List.mem_cons.1 hp with rfl | hp
        · rw [List.all_cons, ih.2 first List.mem_cons_self, Bool.and_true, Bool.not_eq_true']
          exact Bool.eq_false_iff.2 hch
        · exact ih.2 piece (List.mem_cons_of_mem _ hp)

/-- The pieces of a tag field that are not empty. -/
def tagPieces (raw : String) : List String := ((splitMethods raw.toList).map String.ofList).filter (· ≠ "")

theorem tagPieces_join {tags : List String}
    (h : ∀ tag ∈ tags, tag ≠ "" ∧ tag.toList.all (fun ch => !(ch == ',' || isWhitespace ch)) = true) :
    tagPieces (", ".intercalate tags) = tags := by
  induction tags with
  | nil => decide +kernel
  | cons tag tags ih =>
      rw [List.forall_mem_cons] at h
      obtain ⟨⟨hne, hplain⟩, htags⟩ := h
      cases tags with
      | nil =>
          rw [String.intercalate_singleton, tagPieces, splitMethods_self hplain]
          simp [hne]
      | cons next rest =>
          have hcut : tagPieces (", ".intercalate (tag :: next :: rest)) =
              tag :: tagPieces (", ".intercalate (next :: rest)) := by
            have hlist : (", ".intercalate (tag :: next :: rest)).toList =
                tag.toList ++ ',' :: ([] ++ ' ' :: (", ".intercalate (next :: rest)).toList) := by
              rw [String.intercalate_cons_of_ne_nil (by simp), String.toList_append, String.toList_append]
              simp
            rw [tagPieces, hlist, splitMethods_append hplain ',' (by decide), splitMethods_append rfl ' ' (by decide)]
            simp [tagPieces, hne]
          rw [hcut, ih htags]

theorem tagPieces_ok {raw tag : String} (h : tag ∈ tagPieces raw)
    (hbound : (tagPieces raw).any (fun t => byteLen t > 128 || t.toList.any isControl) = false) : TagOk tag := by
  have hlim := List.any_eq_false.1 hbound tag h
  rw [tagPieces, List.mem_filter, List.mem_map] at h
  obtain ⟨⟨piece, hpiece, rfl⟩, hne⟩ := h
  simp only [Bool.or_eq_true, decide_eq_true_eq, not_or, Bool.not_eq_true] at hlim
  refine ⟨of_decide_eq_true hne, ?_, Nat.le_of_not_lt hlim.1, hlim.2⟩
  rw [String.toList_ofList]
  exact (splitMethods_pieces raw.toList).2 piece hpiece

theorem parseTagsField_ok {raw : String} {tags : List String} (h : parseTagsField raw = .ok tags) :
    ∀ tag ∈ tags, TagOk tag := by
  simp only [parseTagsField, bind_eq_ok, refuseWhen_eq_ok, exists_const] at h
  obtain ⟨hbound, h⟩ := h
  cases h
  intro tag htag
  exact tagPieces_ok (mem_sortDedup.1 htag) hbound

/-- The tags of a row, joined for the page, read back as the same set. -/
theorem parseTagsField_join {tags : List String} (h : ∀ tag ∈ tags, TagOk tag) :
    parseTagsField (", ".intercalate tags) = .ok (sortDedup tags) := by
  have hpieces := tagPieces_join fun tag htag => ⟨(h tag htag).1, (h tag htag).2.1⟩
  have hbound : (tagPieces (", ".intercalate tags)).any (fun t => byteLen t > 128 || t.toList.any isControl) = false := by
    rw [hpieces, List.any_eq_false]
    intro tag htag
    obtain ⟨-, -, hlen, hcontrol⟩ := h tag htag
    simp [hcontrol, Nat.not_lt.2 hlen]
  rw [tagPieces] at hpieces hbound
  simp only [parseTagsField, hbound]
  rw [hpieces]
  rfl

/-! ## Templates -/

/-- Printable ASCII has no white space. -/
theorem not_whitespace_of_graphic {s : String} (h : ∀ b ∈ bytes s, 33 ≤ b.toNat ∧ b.toNat ≤ 126) :
    ∀ ch ∈ s.toList, isWhitespace ch = false := by
  intro ch hch
  have hbytes : ∀ b ∈ String.utf8EncodeChar ch, 33 ≤ b.toNat ∧ b.toNat ≤ 126 := by
    intro b hb
    exact h b (by rw [bytes_eq_flatMap, List.mem_flatMap]; exact ⟨ch, hch, hb⟩)
  by_cases hascii : ch.toNat ≤ 127
  · rw [utf8EncodeChar_ascii hascii, List.forall_mem_singleton, UInt8.toNat_ofNat', Nat.mod_eq_of_lt (by omega)] at hbytes
    unfold isWhitespace
    simp only [Bool.or_eq_false_iff, Bool.and_eq_false_iff, decide_eq_false_iff_not, beq_eq_false_iff_ne]
    omega
  · obtain ⟨b, rest, hcons⟩ := List.exists_cons_of_ne_nil (String.utf8EncodeChar_ne_nil (c := ch))
    have hb : b ∈ String.utf8EncodeChar ch := by
      rw [hcons]
      exact List.mem_cons_self
    have hge := utf8EncodeChar_ge hascii b hb
    have hle := hbytes b hb
    omega

theorem trim_of_graphic {s : String} (h : ∀ b ∈ bytes s, 33 ≤ b.toNat ∧ b.toNat ≤ 126) : trim s = s :=
  trim_of_no_whitespace (not_whitespace_of_graphic h)

theorem trim_of_all {s : String} {p : UInt8 → Bool} (h : (bytes s).all p = true)
    (hp : ∀ n : Fin 256, p ⟨⟨n⟩⟩ = true → 33 ≤ n.val ∧ n.val ≤ 126) : trim s = s :=
  trim_of_graphic fun b hb => hp b.toBitVec.toFin (List.all_eq_true.1 h b hb)

theorem ne_empty_of_bytes {s : String} (h : (bytes s).isEmpty = false) : s ≠ "" := by
  rintro rfl
  exact absurd h (by decide +kernel)

theorem accessKeyId_field {id : String} (h : Sigv4.validateAccessKeyId id = .ok ()) : nonEmpty (some id) = some id := by
  unfold Sigv4.validateAccessKeyId at h
  split at h
  · cases h
  · rename_i hlen
    split at h
    · cases h
    · rename_i hall
      rw [Bool.or_eq_true, not_or, Bool.not_eq_true] at hlen
      rw [Bool.not_eq_true, Bool.not_eq_false'] at hall
      exact nonEmpty_self (trim_of_all hall (by decide +kernel)) (ne_empty_of_bytes hlen.1)

theorem scope_field {scope region service : String} (h : Sigv4.parseScope scope = .ok (region, service)) :
    nonEmpty (some scope) = some scope := by
  have hjoin := parseScope_join h
  have hparts : Sigv4.scopePart region = true ∧ Sigv4.scopePart service = true := by
    unfold Sigv4.parseScope at h
    simp only at h
    split_ifs at h with _ hparts
    simp only [Except.ok.injEq, Prod.mk.injEq] at h
    rw [h.1, h.2, Bool.not_eq_true, Bool.not_eq_false', Bool.and_eq_true] at hparts
    exact hparts
  have hbytes : ∀ part, Sigv4.scopePart part = true → ∀ b ∈ bytes part, 33 ≤ b.toNat ∧ b.toNat ≤ 126 := by
    intro part hpart b hb
    have key : ∀ n : Fin 256, (Sigv4.isLowercase ⟨⟨n⟩⟩ || Sigv4.isDigit ⟨⟨n⟩⟩ || (⟨⟨n⟩⟩ : UInt8) == 45) = true →
        33 ≤ n.val ∧ n.val ≤ 126 := by decide +kernel
    unfold Sigv4.scopePart at hpart
    rw [Bool.and_eq_true, List.all_eq_true] at hpart
    exact key b.toBitVec.toFin (hpart.2 b hb)
  refine nonEmpty_self (trim_of_graphic ?_) ?_
  · intro b hb
    rw [← hjoin, Http.bytes_append, Http.bytes_append, List.mem_append, List.mem_append] at hb
    rcases hb with (hb | hb) | hb
    · exact hbytes region hparts.1 b hb
    · revert b hb
      decide +kernel
    · exact hbytes service hparts.2 b hb
  · rintro rfl
    have hnil := congrArg bytes hjoin
    rw [Http.bytes_append, Http.bytes_append] at hnil
    have hslash : bytes "/" = [47] := by decide +kernel
    have hempty : bytes "" = [] := by decide +kernel
    rw [hslash, hempty] at hnil
    simp at hnil

/-- The row's template is in these columns. -/
structure HasTemplate (row : Db.SecretRow) (columns : String × Option String × Option String) : Prop where
  kind : row.injectionKind = columns.1
  header : row.injectionHeader = columns.2.1
  username : row.injectionUsername = columns.2.2

/-- No white space is lost when the username is read back. -/
def BasicTrimmed (columns : String × Option String × Option String) : Prop :=
  columns.1 = "basic" → ∀ u, columns.2.2 = some u → trim u = u ∧ u ≠ ""

/-- A basic template holds the field it was checked from. -/
theorem validateInjection_basic {kind u : String} {field scope : Option String}
    {columns : String × Option String × Option String} (h : validateInjection kind field scope = .ok columns)
    (hkind : columns.1 = "basic") (hu : columns.2.2 = some u) : field = some u := by
  have hname : ∀ {v : String}, (if byteLen v > maxInjectionFieldBytes then .error "basic-auth username is too long"
      else if v.toList.contains ':' || v.toList.any isControl then .error "invalid basic-auth username"
      else .ok ("basic", none, some v) : Except String _) = .ok columns → v = u := by
    intro v h
    split at h
    · cases h
    · split at h
      · cases h
      · cases h
        exact Option.some.inj hu
  unfold validateInjection at h
  split at h
  · cases h
  · split at h
    · cases h
      exact absurd hkind (by decide)
    · split at h
      · cases h
      · split at h
        · cases h
        · split at h
          · cases h
          · split at h
            · cases h
            · cases h
              exact absurd hkind (by decide : "header" ≠ "basic")
    · split at h
      · cases h
      · rw [hname h]
    · split at h
      · cases h
      · rw [hname h]
    · split at h
      · cases h
      · obtain ⟨-, -, h⟩ := bind_eq_ok.1 h
        split at h
        · cases h
        · obtain ⟨-, -, h⟩ := bind_eq_ok.1 h
          cases h
          exact absurd hkind (by decide : "aws-sigv4" ≠ "basic")
    · cases h

/-- The fields of the page pass the check again, with the same columns, but for a username that trimming changes. -/
theorem formFields_validate {columns : String × Option String × Option String} (h : CheckedTemplate columns) {row : Db.SecretRow}
    (hrow : HasTemplate row columns) :
    validateInjection (trim (injectionFormFields row).1) (nonEmpty (some (injectionFormFields row).2.1))
      (nonEmpty (some (injectionFormFields row).2.2)) = .ok columns ↔ BasicTrimmed columns := by
  have hkinds : trim "header" = "header" ∧ trim "basic" = "basic" ∧ trim "aws-sigv4" = "aws-sigv4" ∧
      trim "bearer" = "bearer" := by decide +kernel
  obtain ⟨hheader, hbasic, haws, hbearer⟩ := hkinds
  obtain ⟨hk, hh, hu⟩ := hrow
  cases h with
  | bearer =>
      have hfields : injectionFormFields row = ("bearer", "", "") := by
        rw [injectionFormFields, hk]
        rfl
      rw [hfields, hbearer, nonEmpty_empty]
      exact ⟨fun _ hb => absurd hb (by decide : "bearer" ≠ "basic"), fun _ => rfl⟩
  | header name hlen hne htoken hreserved hforwarded =>
      have hfields : injectionFormFields row = ("header", name, "") := by
        rw [injectionFormFields, hk, hh]
        rfl
      rw [hfields, hheader, nonEmpty_empty, nonEmpty_self (trim_of_all htoken (by decide +kernel)) (ne_empty_of_bytes hne)]
      refine ⟨fun _ hb => absurd hb (by decide : "header" ≠ "basic"), fun _ => ?_⟩
      simp only [validateInjection, Option.isSome_none, Bool.false_and, Bool.false_eq_true, if_false,
        if_neg (Nat.not_lt.2 hlen), hne, htoken, hreserved, hforwarded, Bool.not_true, Bool.or_self]
  | basic username hlen hcolon hcontrol =>
      have hfields : injectionFormFields row = ("basic", username, "") := by
        rw [injectionFormFields, hk, hh, hu]
        rfl
      rw [hfields, hbasic, nonEmpty_empty]
      constructor
      · rintro hok - u ⟨⟩
        cases hfield : nonEmpty (some username) with
        | none =>
            rw [hfield] at hok
            cases hok
        | some v =>
            rw [hfield] at hok
            obtain rfl : v = username := Option.some.inj (validateInjection_basic hok rfl rfl)
            exact nonEmpty_eq_some hfield
      · intro htrim
        obtain ⟨hself, hne⟩ := htrim rfl username rfl
        rw [nonEmpty_self hself hne]
        simp only [validateInjection, Option.isSome_none, Bool.false_and, Bool.false_eq_true, if_false,
          if_neg (Nat.not_lt.2 hlen), hcolon, hcontrol, Bool.or_self]
  | awsSigV4 accessKeyId scope region service hid hscope =>
      have hfields : injectionFormFields row = ("aws-sigv4", accessKeyId, scope) := by
        rw [injectionFormFields, hk, hh, hu]
        rfl
      rw [hfields, haws, accessKeyId_field hid, scope_field hscope]
      refine ⟨fun _ hb => absurd hb (by decide : "aws-sigv4" ≠ "basic"), fun _ => ?_⟩
      simp [validateInjection, hid, hscope, bind, Except.bind, pure, Except.pure]

/-! ## Who writes a row -/

/-- The columns and tags that the edit page shows. -/
def settingsOf (row : Db.SecretRow) (tags : List String) : SecretSettings where
  description := row.description
  maxTier := row.maxTier
  injectionKind := row.injectionKind
  injectionHeader := row.injectionHeader
  injectionUsername := row.injectionUsername
  enabled := row.enabled
  tags := tags

/-- The settings of a secret that has just been stored. -/
def storedSettings (p : StoreSecretParams) : SecretSettings where
  description := p.description
  maxTier := p.maxTier
  injectionKind := p.injectionKind
  injectionHeader := p.injectionHeader
  injectionUsername := p.injectionUsername
  enabled := true
  tags := []

/-- The settings are what one of the UI's writers, or a deposit, leaves in the row. -/
inductive Written : SecretSettings → Prop where
  | saved {sealBytes s secretId form p} (h : saveSecret sealBytes s secretId form = .ok (.create p)) :
      Written (storedSettings p)
  | approved {server row form mechanism w release p}
      (h : releaseEntered server row form mechanism w = .ok release) (hstore : release.store = some p) :
      Written (storedSettings p)
  | deposited {sealBytes mayStoreSecrets secretId req p}
      (h : storeInner sealBytes mayStoreSecrets secretId req = .ok p) : Written (storedSettings p)
  | edited {form t} (h : parseSettings form = .ok t) : Written t

/-- What all of them establish. -/
structure Normal (t : SecretSettings) : Prop where
  description : trim t.description = t.description
  maxTier : ∃ tier : Tier, t.maxTier = tier.asInt
  template : CheckedTemplate (t.injectionKind, t.injectionHeader, t.injectionUsername)
  username : t.injectionKind = "basic" → ∀ u, t.injectionUsername = some u → u ≠ ""
  tags : ∀ tag ∈ t.tags, TagOk tag

theorem trim_getD_nonEmpty (v : Option String) : trim ((nonEmpty v).getD "") = (nonEmpty v).getD "" := by
  cases h : nonEmpty v with
  | none => decide +kernel
  | some s => exact (nonEmpty_eq_some h).1

/-- A field that is trimmed before the check leaves a trimmed username. -/
theorem basicTrimmed_of_nonEmpty {kind : String} {field scope : Option String}
    {columns : String × Option String × Option String}
    (h : validateInjection kind (nonEmpty field) scope = .ok columns) : BasicTrimmed columns :=
  fun hkind _ hu => nonEmpty_eq_some (validateInjection_basic h hkind hu)

theorem saveSecret_create {sealBytes : Blob → AadContext → SealFn} {s : Store} {secretId : Uuid} {form : SecretForm}
    {p : StoreSecretParams} (h : saveSecret sealBytes s secretId form = .ok (.create p)) : Normal (storedSettings p) := by
  simp only [saveSecret, bind_eq_ok] at h
  obtain ⟨_, -, value, -, h⟩ := h
  split at h
  · obtain ⟨-, -, h⟩ := bind_eq_ok.1 h
    cases h
  · obtain ⟨tier, -, h⟩ := bind_eq_ok.1 h
    obtain ⟨template, htemplate, h⟩ := bind_eq_ok.1 h
    rw [mapError_eq_ok] at htemplate
    cases h
    exact ⟨trim_getD_nonEmpty _, ⟨tier, rfl⟩, checked_of_validate htemplate,
      fun hk u hu => (basicTrimmed_of_nonEmpty htemplate hk u hu).2, fun tag htag => absurd htag List.not_mem_nil⟩

theorem releaseEntered_store {server : Server} {row : AccessRequestRow} {form : ApproveForm} {mechanism : Mechanism}
    {w : Draws} {release : Release} {p : StoreSecretParams} (h : releaseEntered server row form mechanism w = .ok release)
    (hstore : release.store = some p) : Normal (storedSettings p) := by
  simp only [releaseEntered, bind_eq_ok, orElse_eq_ok] at h
  obtain ⟨value, -, h⟩ := h
  split at h
  · simp only [bind_eq_ok, mapError_eq_ok] at h
    obtain ⟨tier, -, template, htemplate, h⟩ := h
    cases h
    cases hstore
    exact ⟨trim_getD_nonEmpty _, ⟨tier, rfl⟩, checked_of_validate htemplate,
      fun hk u hu => (basicTrimmed_of_nonEmpty htemplate hk u hu).2, fun tag htag => absurd htag List.not_mem_nil⟩
  · obtain ⟨-, -, h⟩ := bind_eq_ok.1 h
    obtain ⟨sealed, -, h⟩ := bind_eq_ok.1 h
    cases h
    cases hstore

theorem storeInner_normal {sealBytes : Blob → AadContext → SealFn} {mayStoreSecrets : Bool} {secretId : Uuid}
    {req : StoreSecretRequest} {p : StoreSecretParams} (h : storeInner sealBytes mayStoreSecrets secretId req = .ok p) :
    Normal (storedSettings p) := by
  simp only [storeInner, bind_eq_ok] at h
  obtain ⟨-, -, -, -, -, -, value, -, template, htemplate, h⟩ := h
  have htemplate := mapError_eq_ok.1 htemplate
  cases h
  refine ⟨trim_trim _, ⟨_, rfl⟩, checked_of_validate htemplate, ?_, fun tag htag => absurd htag List.not_mem_nil⟩
  intro hk u hu
  have hfield := validateInjection_basic htemplate hk hu
  rw [Option.filter_eq_some_iff, Bool.not_eq_true'] at hfield
  exact ne_empty_of_bytes hfield.2

theorem parseSettings_ok {form : SecretSettingsForm} {t : SecretSettings} (h : parseSettings form = .ok t) :
    Normal t ∧ BasicTrimmed (t.injectionKind, t.injectionHeader, t.injectionUsername) := by
  simp only [parseSettings, bind_eq_ok, mapError_eq_ok] at h
  obtain ⟨tier, -, template, htemplate, tags, htags, h⟩ := h
  cases h
  have htrimmed := basicTrimmed_of_nonEmpty htemplate
  exact ⟨⟨trim_trim _, ⟨tier, rfl⟩, checked_of_validate htemplate, fun hk u hu => (htrimmed hk u hu).2,
    parseTagsField_ok htags⟩, htrimmed⟩

theorem Written.normal {t : SecretSettings} (h : Written t) : Normal t := by
  cases h with
  | saved h => exact saveSecret_create h
  | approved h hstore => exact releaseEntered_store h hstore
  | deposited h => exact storeInner_normal h
  | edited h => exact (parseSettings_ok h).1

/-! ## The page, submitted as it is -/

theorem tierFromStr_asStr (t : Tier) : tierFromStr (trim t.asStr) = some t := by
  cases t <;> decide +kernel

/-- The form of a row reads back as the row's settings, its tags sorted, exactly when trimming leaves the username. -/
theorem parseSettings_editForm {row : Db.SecretRow} {tags : List String} (h : Normal (settingsOf row tags)) :
    parseSettings (editForm row tags) = .ok { settingsOf row tags with tags := sortDedup tags } ↔
      BasicTrimmed (row.injectionKind, row.injectionHeader, row.injectionUsername) := by
  obtain ⟨tier, htier⟩ := h.maxTier
  have hvalid := @formFields_validate _ h.template row ⟨rfl, rfl, rfl⟩
  have htags := parseTagsField_join h.tags
  have hselected : (Tier.fromInt row.maxTier).getD .brokered = tier := by
    rw [show row.maxTier = tier.asInt from htier, Tier.fromInt_asInt]
    rfl
  constructor
  · intro hok
    exact (parseSettings_ok hok).2
  · intro htrimmed
    have htemplate := (@mapError_eq_ok _ _ _ badRequest _ _).2 (hvalid.2 htrimmed)
    have hparsed : parseSettings (editForm row tags) = .ok {
        description := trim row.description
        maxTier := tier.asInt
        injectionKind := row.injectionKind
        injectionHeader := row.injectionHeader
        injectionUsername := row.injectionUsername
        enabled := (if row.enabled then some "on" else none).isSome
        tags := sortDedup tags } := by
      refine bind_eq_ok.2 ⟨tier, ?_, bind_eq_ok.2 ⟨_, htemplate, bind_eq_ok.2 ⟨_, htags, rfl⟩⟩⟩
      rw [editForm, hselected, tierFromStr_asStr]
      rfl
    have hdescription : trim row.description = row.description := h.description
    have hmax : row.maxTier = tier.asInt := htier
    have henabled : (if row.enabled then some "on" else none).isSome = row.enabled := by
      cases row.enabled <;> rfl
    rw [hparsed, hdescription, henabled, settingsOf, hmax]

/-! ## In the store -/

/-- The same settings, the tags as a set. -/
structure SameSettings (t u : SecretSettings) : Prop where
  description : t.description = u.description
  maxTier : t.maxTier = u.maxTier
  injectionKind : t.injectionKind = u.injectionKind
  injectionHeader : t.injectionHeader = u.injectionHeader
  injectionUsername : t.injectionUsername = u.injectionUsername
  enabled : t.enabled = u.enabled
  tags : ∀ tag, tag ∈ t.tags ↔ tag ∈ u.tags

theorem Normal.of_same {t u : SecretSettings} (h : Normal u) (hsame : SameSettings t u) : Normal t := by
  obtain ⟨hdescription, htier, hkind, hheader, husername, -, htags⟩ := hsame
  refine ⟨?_, ?_, ?_, ?_, ?_⟩
  · rw [hdescription]
    exact h.description
  · rw [htier]
    exact h.maxTier
  · rw [hkind, hheader, husername]
    exact h.template
  · rw [hkind, husername]
    exact h.username
  · intro tag htag
    exact h.tags tag ((htags tag).1 htag)

theorem mem_tagsOf {s : Store} {id : Uuid} {tag : String} : tag ∈ s.tagsOf id ↔ ⟨id, tag⟩ ∈ s.tags.rows := by
  rw [Store.tagsOf, (List.mergeSort_perm _ _).mem_iff, List.mem_map]
  constructor
  · rintro ⟨⟨i, x⟩, hx, rfl⟩
    obtain ⟨hmem, hid⟩ := List.mem_filter.1 hx
    obtain rfl : i = id := beq_iff_eq.1 hid
    exact hmem
  · intro h
    exact ⟨⟨id, tag⟩, List.mem_filter.2 ⟨h, beq_self_eq_true id⟩, rfl⟩

theorem insertTags_total (s : Store) (secretId : Uuid) (tags : List String) :
    ∃ s', (insertTags secretId tags).exec s = .ok ((), s') := by
  induction tags generalizing s with
  | nil => exact ⟨s, rfl⟩
  | cons tag tags ih =>
      by_cases hthere : s.tags.rows.any (fun t => t.secretId == secretId && t.tag == tag) = true
      · obtain ⟨s', h⟩ := ih s
        refine ⟨s', ?_⟩
        rw [insertTags, Txn.exec_bind_eq_ok]
        exact ⟨false, s, Rel.exec_insertOnConflict_eq_ok.2 (Or.inl ⟨hthere, rfl, rfl⟩), h⟩
      · have hfresh : s.tags.Fresh ⟨secretId, tag⟩ := by
          intro t ht
          have hne := List.any_eq_false.1 (Bool.eq_false_iff.2 hthere) t ht
          rw [Bool.and_eq_true, beq_iff_eq, beq_iff_eq] at hne
          simpa [Keys.clashes, tagKeys] using hne
        obtain ⟨s', h⟩ := ih (tagRel.set s (s.tags.insert ⟨secretId, tag⟩))
        refine ⟨s', ?_⟩
        rw [insertTags, Txn.exec_bind_eq_ok]
        exact ⟨true, _, Rel.exec_insertOnConflict_eq_ok.2 (Or.inr ⟨Bool.eq_false_iff.2 hthere, hfresh, rfl, rfl⟩), h⟩

theorem replaceTags_total (s : Store) (secretId : Uuid) (tags : List String) :
    ∃ s', (replaceTags secretId tags).exec s = .ok ((), s') := by
  obtain ⟨s', h⟩ := insertTags_total (tagRel.set s (s.tags.delete (·.secretId == secretId))) secretId tags
  refine ⟨s', ?_⟩
  rw [replaceTags, Txn.exec_bind_eq_ok]
  exact ⟨_, _, Rel.exec_deleteWhere_eq_ok.2 ⟨rfl, rfl⟩, h⟩

/-- An edit of a UI-owned secret commits: its row takes the settings, its tags are those of the settings. -/
theorem updateSecretSettingsAudited_commits {s : Store} {row : Db.SecretRow} (hrow : row ∈ s.secrets.rows)
    (hui : row.managedByConfig = false) (t : SecretSettings) (actor : String) (now : DateTime) :
    ∃ s', (updateSecretSettingsAudited row.id t actor now).run s = (s', .ok (.settings .updated)) ∧
      t.apply now row ∈ s'.secrets.rows ∧ ∀ tag, tag ∈ s'.tagsOf row.id ↔ tag ∈ t.tags := by
  have hhead : (s.secrets.rows.filter (·.id == row.id)).head? = some row := by
    have hclash : ∀ a b : Db.SecretRow, (a.id == row.id) = true → (b.id == row.id) = true →
        secretKeys.clashes a b = true := by
      intro a b ha hb
      exact Keys.pair_clashes.2 (Or.inl ((beq_iff_eq.1 ha).trans (beq_iff_eq.1 hb).symm))
    rw [List.head?_filter]
    exact (Table.find?_eq_some hclash).2 ⟨hrow, beq_self_eq_true row.id⟩
  obtain ⟨s₁, htags⟩ := replaceTags_total
    (secretRel.set s (s.secrets.update (·.id == row.id) (t.apply now) (t.key_apply now))) row.id t.tags
  obtain ⟨-, hmem⟩ := exec_replaceTags_rows htags
  obtain ⟨tags, hs₁⟩ := exec_replaceTags_eq_ok htags
  have hexec : ∃ s', (updateSecretSettingsAudited row.id t actor now).exec s = .ok (.settings .updated, s') ∧
      s'.secrets = s₁.secrets ∧ s'.tags = s₁.tags := by
    let detail : Json := .obj [("max_tier", .int t.maxTier), ("previous_max_tier", .int row.maxTier),
      ("enabled", .bool t.enabled), ("previous_enabled", .bool row.enabled), ("injection_kind", .str t.injectionKind),
      ("injection_changed", .bool (row.injectionKind != t.injectionKind || row.injectionHeader != t.injectionHeader ||
        row.injectionUsername != t.injectionUsername)),
      ("tags", .arr (t.tags.map .str)), ("previous_tags", .arr ((s.tagsOf row.id).map .str))]
    let edited : AuditRow := {
      at_ := now, kind := .secretUpdated, secretName := some row.name, actor := some actor, detail := some detail }
    refine ⟨{ s₁ with audit := s₁.audit ++ [edited] }, ?_, rfl, rfl⟩
    rw [updateSecretSettingsAudited, Txn.exec_bind_eq_ok]
    refine ⟨_, _, Rel.exec_selectForUpdate_eq_ok.2 ⟨rfl, rfl⟩, ?_⟩
    simp only [hhead, hui, Bool.false_eq_true, if_false]
    rw [Txn.exec_bind_eq_ok]
    refine ⟨_, _, Txn.exec_get_eq_ok.2 ⟨rfl, rfl⟩, ?_⟩
    rw [Txn.exec_bind_eq_ok]
    refine ⟨_, _, Rel.exec_updateWhere_eq_ok.2 ⟨rfl, rfl⟩, ?_⟩
    rw [Txn.exec_bind_eq_ok]
    refine ⟨_, _, htags, ?_⟩
    rw [Txn.exec_bind_eq_ok]
    exact ⟨(), _, exec_insertAudit_eq_ok.2 rfl, rfl⟩
  obtain ⟨s', hexec, hsecrets, htag⟩ := hexec
  refine ⟨s', ?_, ?_, ?_⟩
  · rw [Txn.run, hexec]
  · rw [hsecrets, hs₁]
    have hin := Table.mem_update_of_mem (t.key_apply now) (p := (·.id == row.id)) hrow
    rwa [if_pos (beq_self_eq_true row.id)] at hin
  · intro tag
    rw [mem_tagsOf, htag]
    exact hmem tag

/-- For every UI-owned row of a store, with the settings that any of the writers left: saving its edit page unchanged is
accepted, and leaves them as they were, exactly when the template is not a basic one with white space around its
username. -/
theorem unchanged_edit_iff {s : Store} {row : Db.SecretRow} (hrow : row ∈ s.secrets.rows)
    (hui : row.managedByConfig = false) {t : SecretSettings} (hwritten : Written t)
    (hleft : SameSettings (settingsOf row (s.tagsOf row.id)) t) (actor : String) (now : DateTime) :
    (∃ s', updateSecret row.id (editForm row (s.tagsOf row.id)) actor now s = (s', .ok ()) ∧
      ∃ row' ∈ s'.secrets.rows, row'.id = row.id ∧
        SameSettings (settingsOf row' (s'.tagsOf row.id)) (settingsOf row (s.tagsOf row.id))) ↔
      (row.injectionKind = "basic" → ∀ u, row.injectionUsername = some u → trim u = u) := by
  have hnormal := hwritten.normal.of_same hleft
  constructor
  · rintro ⟨s', hupdate, row', hrow', hid, hsame⟩ hkind u hu
    unfold updateSecret at hupdate
    cases hparse : parseSettings (editForm row (s.tagsOf row.id)) with
    | error r =>
        rw [hparse] at hupdate
        cases hupdate
    | ok t' =>
        rw [hparse] at hupdate
        obtain ⟨s'', hrun, hmem, -⟩ := updateSecretSettingsAudited_commits hrow hui t' actor now
        simp only [hrun] at hupdate
        cases hupdate
        obtain rfl : row' = t'.apply now row := secret_eq_of_id hrow' hmem hid
        have htrimmed := (parseSettings_ok hparse).2
        exact (htrimmed (hsame.injectionKind.trans hkind) u (hsame.injectionUsername.trans hu)).1
  · intro htrim
    have hbasic : BasicTrimmed (row.injectionKind, row.injectionHeader, row.injectionUsername) :=
      fun hkind u hu => ⟨htrim hkind u hu, hnormal.username hkind u hu⟩
    have hparse := (parseSettings_editForm hnormal).2 hbasic
    obtain ⟨s', hrun, hmem, htags⟩ := updateSecretSettingsAudited_commits hrow hui
      { settingsOf row (s.tagsOf row.id) with tags := sortDedup (s.tagsOf row.id) } actor now
    refine ⟨s', ?_, _, hmem, rfl, rfl, rfl, rfl, rfl, rfl, rfl, ?_⟩
    · rw [updateSecret, hparse]
      simp only [hrun]
      rfl
    · intro tag
      exact (htags tag).trans mem_sortDedup

/-! ### A deposited username with a space on each side -/

/-- A basic-auth password deposited by a client, under a username. -/
def basicDeposit (username : String) : StoreSecretRequest where
  name := "db"
  value := "pw"
  encoding := .utf8
  description := ""
  maxTier := none
  injectionKind := some "basic"
  injectionHeader := some username

def basicParams (username : String) : StoreSecretParams where
  secretId := 7
  name := "db"
  description := ""
  maxTier := 0
  injectionKind := "basic"
  injectionHeader := none
  injectionUsername := some username
  sealWith := fun _ => none

def basicRow (username : String) : Db.SecretRow :=
  (basicParams username).row false false (DateTime.ofSeconds 1800000000)

def basicStore (username : String) : Store :=
  { Store.empty with secrets := ⟨[basicRow username], List.pairwise_singleton _ _⟩ }

/-- A username that passes the check is stored as it was sent. -/
theorem basicDeposit_stored {username : String} (hne : (bytes username).isEmpty = false)
    (hvalid : validateInjection "basic" (some username) none = .ok ("basic", none, some username)) :
    storeInner (fun _ _ _ => none) true 7 (basicDeposit username) = .ok (basicParams username) := by
  have hdecode : decodeValue "pw" .utf8 = .ok (bytes "pw") := by decide +kernel
  have hname : validateName (trim "db") = .ok () := by decide +kernel
  have htemplate : (validateInjection "basic" ((some username).filter fun h => !(bytes h).isEmpty) none).mapError
      ApiFailure.invalidRequest = .ok ("basic", none, some username) := by
    rw [Option.filter_some, hne, Bool.not_false, if_pos rfl, hvalid]
    rfl
  have htrim : trim "db" = "db" ∧ trim "" = "" := by decide +kernel
  have hdescription : refuseIf (decide (byteLen "" > maxDescriptionBytes)) (.requestTooLarge "description too long") =
      .ok () := by decide +kernel
  refine bind_eq_ok.2 ⟨(), rfl, bind_eq_ok.2 ⟨(), hname, bind_eq_ok.2 ⟨(), hdescription, bind_eq_ok.2
    ⟨_, hdecode, bind_eq_ok.2 ⟨_, htemplate, ?_⟩⟩⟩⟩⟩
  simp only [basicDeposit, htrim.1, htrim.2]
  rfl

theorem settingsOf_basicRow (username : String) :
    settingsOf (basicRow username) ((basicStore username).tagsOf 7) = storedSettings (basicParams username) := by
  have htags : (basicStore username).tagsOf 7 = [] := by
    simp [Store.tagsOf, basicStore, Store.empty]
  rw [htags]
  rfl

/-- The operator edits nothing, and the account that the password is sent as changes. -/
theorem unchanged_edit_renames :
    Written (settingsOf (basicRow " svc ") ((basicStore " svc ").tagsOf 7)) ∧
      ¬ ∃ s', updateSecret 7 (editForm (basicRow " svc ") ((basicStore " svc ").tagsOf 7)) "op"
          (DateTime.ofSeconds 1800000000) (basicStore " svc ") = (s', .ok ()) ∧
        ∃ row' ∈ s'.secrets.rows, row'.id = 7 ∧ SameSettings (settingsOf row' (s'.tagsOf 7))
          (settingsOf (basicRow " svc ") ((basicStore " svc ").tagsOf 7)) := by
  have hstored := @basicDeposit_stored " svc " (by decide +kernel) (by decide +kernel)
  refine ⟨by rw [settingsOf_basicRow]; exact .deposited hstored, ?_⟩
  rintro ⟨s', hupdate, row', hrow', -, hsame⟩
  have hrows : (updateSecret 7 (editForm (basicRow " svc ") ((basicStore " svc ").tagsOf 7)) "op"
      (DateTime.ofSeconds 1800000000) (basicStore " svc ")).1.secrets.rows.map (·.injectionUsername) = [some "svc"] := by
    decide +kernel
  rw [hupdate] at hrows
  have hname := List.mem_map_of_mem (f := (·.injectionUsername)) hrow'
  rw [hrows, List.mem_singleton] at hname
  exact absurd (hsame.injectionUsername.symm.trans hname) (by decide +kernel)

theorem unchanged_edit_keeps :
    Written (settingsOf (basicRow "svc") ((basicStore "svc").tagsOf 7)) ∧
      ∃ s', updateSecret 7 (editForm (basicRow "svc") ((basicStore "svc").tagsOf 7)) "op"
          (DateTime.ofSeconds 1800000000) (basicStore "svc") = (s', .ok ()) ∧
        ∃ row' ∈ s'.secrets.rows, row'.id = 7 ∧ SameSettings (settingsOf row' (s'.tagsOf 7))
          (settingsOf (basicRow "svc") ((basicStore "svc").tagsOf 7)) := by
  have hstored := @basicDeposit_stored "svc" (by decide +kernel) (by decide +kernel)
  have hwritten : Written (settingsOf (basicRow "svc") ((basicStore "svc").tagsOf 7)) := by
    rw [settingsOf_basicRow]
    exact .deposited hstored
  refine ⟨hwritten, ?_⟩
  refine (@unchanged_edit_iff (basicStore "svc") (basicRow "svc") List.mem_cons_self rfl _ hwritten
    ⟨rfl, rfl, rfl, rfl, rfl, rfl, fun _ => Iff.rfl⟩ "op" (DateTime.ofSeconds 1800000000)).2 ?_
  rintro - u ⟨⟩
  decide +kernel

end Keychute.Ui
