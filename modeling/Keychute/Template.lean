import Keychute.Api.Secrets
import Keychute.ProxyHandler

/-!
# Templates, from the check to the call (`injection.rs`, `config.rs`, `proxy.rs`)

* `InjectionConfig.resolve` : the template of a secret in the config file;
* `Accepted` : the columns of a template that passed `validateInjection`, whoever supplied it;
* `Accepted.spec` : the kinds that come out of it, with what their columns hold;
* `accepted_template_usable` : the proxy takes every such template, and a basic credential reads back as it was stored.
-/

namespace Keychute.Proxy
open Keychute.Api Keychute.Http

/-! ## Config -/

/-- Strip at most one trailing newline from a file-provided value. -/
def trimOneNewline (bs : List UInt8) : List UInt8 :=
  match bs.reverse with
  | 10 :: 13 :: rest => rest.reverse
  | 10 :: rest => rest.reverse
  | _ => bs

/-- The `injection` table of a secret in the config file. -/
structure InjectionConfig where
  kind : String
  header : Option String
  username : Option String
  usernameFile : Option String
  region : Option String
  service : Option String

/-- The username, inline or from its file. -/
def InjectionConfig.resolveUsername (readFile : String → Option (List UInt8)) (cfg : InjectionConfig) :
    Except String (Option String) :=
  match cfg.username, cfg.usernameFile with
  | some _, some _ => .error "set username or username_file, not both"
  | some u, none => .ok (some u)
  | none, some path =>
    match readFile path with
    | none => .error ("reading " ++ path)
    | some raw =>
      match fromUtf8 (trimOneNewline raw) with
      | none => .error (path ++ " is not UTF-8")
      | some u => .ok (some u)
  | none, none => .ok none

def InjectionConfig.resolveScope (cfg : InjectionConfig) : Except String (Option String) :=
  match cfg.region, cfg.service with
  | some r, some s => .ok (some (r ++ "/" ++ s))
  | none, none => .ok none
  | _, _ => .error "set both region and service, or neither"

/-- The one free-text field, with the fields that do not go with the kind refused. -/
def InjectionConfig.resolveFreeText (cfg : InjectionConfig) (username : Option String) : Except String (Option String) :=
  if cfg.kind = "header" then
    if username.isSome then .error "`username` is not valid for injection kind 'header'" else .ok cfg.header
  else if cfg.header.isSome then .error "`header` is only valid for injection kind 'header'"
  else if cfg.kind = "bearer" ∧ username.isSome then .error "`username` is not valid for injection kind 'bearer'"
  else .ok username

def InjectionConfig.resolve (readFile : String → Option (List UInt8)) (cfg : InjectionConfig) :
    Except String (String × Option String × Option String) := do
  let username ← cfg.resolveUsername readFile
  let scope ← cfg.resolveScope
  let freeText ← cfg.resolveFreeText username
  validateInjection cfg.kind freeText scope

/-! ## What passed -/

/-- The kind, header and username columns of a template that passed the check: supplied in a form or a deposit, or
resolved from config. -/
inductive Accepted : String × Option String × Option String → Prop where
  | supplied {kind header scope columns} (h : validateInjection kind header scope = .ok columns) : Accepted columns
  | config {readFile cfg columns} (h : InjectionConfig.resolve readFile cfg = .ok columns) : Accepted columns

theorem InjectionConfig.resolve_ok {readFile : String → Option (List UInt8)} {cfg : InjectionConfig}
    {columns : String × Option String × Option String} (h : cfg.resolve readFile = .ok columns) :
    ∃ header scope, validateInjection cfg.kind header scope = .ok columns := by
  simp only [InjectionConfig.resolve, bind_eq_ok] at h
  obtain ⟨username, -, scope, -, freeText, -, h⟩ := h
  exact ⟨freeText, scope, h⟩

/-- A template by its kind, with what the check established of its columns. -/
inductive CheckedTemplate : String × Option String × Option String → Prop where
  | bearer : CheckedTemplate ("bearer", none, none)
  | header (name : String) (hlen : byteLen name ≤ maxInjectionFieldBytes) (hne : (bytes name).isEmpty = false)
      (htoken : (bytes name).all isTchar = true) (hreserved : reserved.contains (toAsciiLowercase name) = false)
      (hforwarded : "x-forwarded-".toList.isPrefixOf (toAsciiLowercase name).toList = false) :
      CheckedTemplate ("header", some name, none)
  | basic (username : String) (hlen : byteLen username ≤ maxInjectionFieldBytes)
      (hcolon : username.toList.contains ':' = false) (hcontrol : username.toList.any isControl = false) :
      CheckedTemplate ("basic", none, some username)
  | awsSigV4 (accessKeyId scope region service : String) (hid : Sigv4.validateAccessKeyId accessKeyId = .ok ())
      (hscope : Sigv4.parseScope scope = .ok (region, service)) :
      CheckedTemplate ("aws-sigv4", some scope, some accessKeyId)

theorem checked_basic {username : String} {columns : String × Option String × Option String}
    (h : (if byteLen username > maxInjectionFieldBytes then .error "basic-auth username is too long"
      else if username.toList.contains ':' || username.toList.any isControl then .error "invalid basic-auth username"
      else .ok ("basic", none, some username) : Except String _) = .ok columns) : CheckedTemplate columns := by
  split at h
  · cases h
  · rename_i hlen
    split at h
    · cases h
    · rename_i hbad
      cases h
      simp only [Bool.or_eq_true, not_or, Bool.not_eq_true] at hbad
      exact .basic username (Nat.le_of_not_lt hlen) hbad.1 hbad.2

theorem checked_of_validate {kind : String} {header scope : Option String} {columns : String × Option String × Option String}
    (h : validateInjection kind header scope = .ok columns) : CheckedTemplate columns := by
  unfold validateInjection at h
  split at h
  · cases h
  · split at h
    · cases h
      exact .bearer
    · split at h
      · cases h
      · rename_i name
        split at h
        · cases h
        · rename_i hlen
          split at h
          · cases h
          · rename_i htoken
            split at h
            · cases h
            · rename_i hreserved
              cases h
              simp only [Bool.or_eq_true, not_or, Bool.not_eq_true, Bool.not_eq_false'] at htoken hreserved
              exact .header name (Nat.le_of_not_lt hlen) htoken.1 htoken.2 hreserved.1 hreserved.2
    · split at h
      · cases h
      · exact checked_basic h
    · split at h
      · cases h
      · exact checked_basic h
    · split at h
      · cases h
      · rename_i accessKeyId
        obtain ⟨⟨⟩, hid, h⟩ := bind_eq_ok.1 h
        split at h
        · cases h
        · obtain ⟨⟨region, service⟩, hscope, h⟩ := bind_eq_ok.1 h
          cases h
          exact .awsSigV4 accessKeyId _ region service hid hscope
    · cases h

theorem Accepted.checked {columns : String × Option String × Option String} (h : Accepted columns) : CheckedTemplate columns := by
  cases h with
  | supplied h => exact checked_of_validate h
  | config h =>
      obtain ⟨header, scope, h⟩ := InjectionConfig.resolve_ok h
      exact checked_of_validate h

/-! ## At the call -/

/-- The check at write time and the proxy strip the same names. -/
theorem reserved_eq : reserved = stripList := by decide +kernel

theorem isHeaderName_lower {name : String} (hlen : byteLen name ≤ maxInjectionFieldBytes)
    (hne : (bytes name).isEmpty = false) (htoken : (bytes name).all isTchar = true) :
    isHeaderName (toAsciiLowercase name) = true := by
  have hlower : ∀ n : Fin 256, isTchar ⟨⟨n⟩⟩ = true →
      (isTchar (lowerByte ⟨⟨n⟩⟩) && lowerByte (lowerByte ⟨⟨n⟩⟩) == lowerByte ⟨⟨n⟩⟩) = true := by decide +kernel
  have hlen' : byteLen (toAsciiLowercase name) ≤ 65535 := by
    have hsame : byteLen (toAsciiLowercase name) = byteLen name := by
      rw [byteLen, bytes_toAsciiLowercase, List.length_map]
      rfl
    unfold maxInjectionFieldBytes at hlen
    omega
  rw [isHeaderName, bytes_toAsciiLowercase, Bool.and_eq_true, Bool.and_eq_true]
  refine ⟨⟨?_, decide_eq_true hlen'⟩, ?_⟩
  · rw [List.isEmpty_map, hne]
    rfl
  · rw [List.all_map, List.all_eq_true]
    intro b hb
    exact hlower b.toBitVec.toFin (List.all_eq_true.1 htoken b hb)

/-- The username check leaves out what would move the boundary of the credential or end the header. -/
theorem username_safe {username : String} (hcolon : username.toList.contains ':' = false)
    (hcontrol : username.toList.any isControl = false) :
    (bytes username).any (fun b => b == 58 || b == 13 || b == 10 || b == 0) = false := by
  have hno : ∀ ch : Char, ch.toNat ≤ 127 → (ch = ':' ∨ isControl ch = true) → UInt8.ofNat ch.toNat ∉ bytes username := by
    intro ch hch hbad hmem
    rw [ascii_mem_bytes hch] at hmem
    rcases hbad with rfl | hbad
    · rw [List.contains_eq_mem, decide_eq_false_iff_not] at hcolon
      exact hcolon hmem
    · exact absurd hbad (List.any_eq_false.1 hcontrol ch hmem)
  rw [List.any_eq_false]
  intro b hb
  simp only [Bool.or_eq_true, beq_iff_eq, not_or]
  refine ⟨⟨⟨?_, ?_⟩, ?_⟩, ?_⟩
  · rintro rfl
    exact hno ':' (by decide) (Or.inl rfl) hb
  · rintro rfl
    exact hno '\r' (by decide) (Or.inr (by decide)) hb
  · rintro rfl
    exact hno '\n' (by decide) (Or.inr (by decide)) hb
  · rintro rfl
    exact hno '\x00' (by decide) (Or.inr (by decide)) hb

theorem parseScope_join {scope region service : String} (h : Sigv4.parseScope scope = .ok (region, service)) :
    region ++ "/" ++ service = scope := by
  unfold Sigv4.parseScope at h
  split at h
  · cases h
  · rename_i hslash
    simp only at h
    split at h
    · cases h
    · split at h
      · cases h
      · cases h
        rw [Bool.not_eq_true, Bool.not_eq_false', List.contains_eq_mem, decide_eq_true_eq] at hslash
        have hdrop : scope.toList.dropWhile (· != '/') = '/' :: (scope.toList.dropWhile (· != '/')).drop 1 := by
          cases hd : scope.toList.dropWhile (· != '/') with
          | nil =>
              have hall := List.dropWhile_eq_nil_iff.1 hd '/' hslash
              exact absurd hall (by decide)
          | cons ch rest =>
              have hhead := List.head_dropWhile_not (· != '/') (l := scope.toList) (by rw [hd]; exact List.cons_ne_nil _ _)
              simp only [hd, List.head_cons, bne_eq_false_iff_eq] at hhead
              rw [hhead]
              rfl
        apply String.toList_inj.1
        rw [String.toList_append, String.toList_append, String.toList_ofList, List.append_assoc,
          @String.toList_ofList ((scope.toList.dropWhile (· != '/')).drop 1)]
        change _ ++ (['/'] ++ _) = _
        calc scope.toList.takeWhile (· != '/') ++ (['/'] ++ (scope.toList.dropWhile (· != '/')).drop 1)
            = scope.toList.takeWhile (· != '/') ++ scope.toList.dropWhile (· != '/') := by
              rw [List.singleton_append, ← hdrop]
          _ = scope.toList := List.takeWhile_append_dropWhile

/-- The header that a checked template puts a credential on. -/
structure Usable (row : Db.SecretRow) (spec : InjectionSpec) (name : HeaderName) : Prop where
  resolves : resolveSpec row = .ok spec
  validates : spec.validate = .ok name
  forwarded : name ≠ authorization → name.str ∉ stripList ∧ startsWith "x-forwarded-" name.str = false
  username : ∀ u, spec = .basicPassword u → row.injectionUsername = some u ∧ 58 ∉ bytes u

theorem CheckedTemplate.usable {columns : String × Option String × Option String} (h : CheckedTemplate columns) {row : Db.SecretRow}
    (hkind : row.injectionKind = columns.1) (hheader : row.injectionHeader = columns.2.1)
    (husername : row.injectionUsername = columns.2.2) : ∃ spec name, Usable row spec name := by
  cases h with
  | bearer =>
      refine ⟨.bearer, authorization, ?_, rfl, fun hne => absurd rfl hne, ?_⟩
      · rw [resolveSpec, hkind]
        rfl
      · intro u hu
        cases hu
  | header name hlen hne htoken hreserved hforwarded =>
      have hvalid := isHeaderName_lower hlen hne htoken
      have hfree : (stripList.contains (toAsciiLowercase name) || startsWith "x-forwarded-" (toAsciiLowercase name)) =
          false := by
        rw [← reserved_eq, hreserved]
        exact hforwarded
      refine ⟨.header name, ⟨toAsciiLowercase name, hvalid⟩, ?_, ?_, ?_, ?_⟩
      · rw [resolveSpec, hkind, hheader]
        rfl
      · simp only [InjectionSpec.validate, hfree, Bool.false_eq_true, if_false, HeaderName.fromStr, dif_pos hvalid]
        rfl
      · intro _
        rw [Bool.or_eq_false_iff, List.contains_eq_mem, decide_eq_false_iff_not] at hfree
        exact hfree
      · intro u hu
        cases hu
  | basic username hlen hcolon hcontrol =>
      have hsafe := username_safe hcolon hcontrol
      refine ⟨.basicPassword username, authorization, ?_, ?_, fun hne => absurd rfl hne, ?_⟩
      · rw [resolveSpec, hkind, husername]
        rfl
      · simp only [InjectionSpec.validate, hsafe, Bool.false_eq_true, if_false]
      · intro u hu
        cases hu
        refine ⟨husername, ?_⟩
        intro hmem
        exact absurd (by simp : (58 == 58 || 58 == 13 || 58 == 10 || (58 : UInt8) == 0) = true)
          (List.any_eq_false.1 hsafe 58 hmem)
  | awsSigV4 accessKeyId scope region service hid hscope =>
      refine ⟨.awsSigV4 ⟨accessKeyId, region, service⟩, authorization, ?_, ?_, fun hne => absurd rfl hne, ?_⟩
      · rw [resolveSpec, hkind, hheader, husername]
        simp only [Option.map_some, hscope]
        rfl
      · simp only [InjectionSpec.validate, parseScope_join hscope, hid, hscope]
      · intro u hu
        cases hu

/-- The value of a basic credential, and what an upstream reads out of it. -/
theorem injectionHeader_basic {username : String} {spec : InjectionSpec} (hspec : spec = .basicPassword username)
    (hvalid : spec.validate = .ok authorization) (hcolon : 58 ∉ bytes username) (secret : Db.Blob) :
    ∃ value credential plain, injectionHeader spec secret = .ok (authorization, value) ∧
      value.bytes = bytes "Basic " ++ bytes (String.ofList credential) ∧ base64Decode credential = some plain ∧
      plain.takeWhile (· ≠ 58) = bytes username ∧ plain.dropWhile (· ≠ 58) = 58 :: secret := by
  have hbytes : ∀ b ∈ bytes "Basic " ++ bytes (String.ofList (base64Encode (bytes username ++ 58 :: secret))),
      valueByte b = true := by
    intro b hb
    rcases List.mem_append.1 hb with hb | hb
    · have hbasic : ∀ b ∈ bytes "Basic ", valueByte b = true := by decide +kernel
      exact hbasic b hb
    · exact valueByte_of_visible (base64Encode_visible _ b hb)
  have hall := List.all_eq_true.2 hbytes
  have hall58 : ∀ b ∈ bytes username, decide (b ≠ 58) = true := by
    intro b hb
    apply decide_eq_true
    rintro rfl
    exact hcolon hb
  refine ⟨⟨_, hall⟩, base64Encode (bytes username ++ 58 :: secret), bytes username ++ 58 :: secret, ?_, rfl,
    base64Decode_encode _, ?_, ?_⟩
  · unfold injectionHeader
    rw [hvalid]
    subst hspec
    simp only [bind, Except.bind, HeaderValue.fromBytes, dif_pos hall]
    rfl
  · rw [List.takeWhile_append_of_pos hall58]
    simp
  · rw [List.dropWhile_append_of_pos hall58]
    simp

/-- Every template that is accepted at write time resolves and validates at call time; the header it names is not one
that the proxy strips, but for `authorization` itself; and a basic credential splits at its first colon into the stored
username and the secret. -/
theorem accepted_template_usable {columns : String × Option String × Option String} (h : Accepted columns)
    {row : Db.SecretRow} (hkind : row.injectionKind = columns.1) (hheader : row.injectionHeader = columns.2.1)
    (husername : row.injectionUsername = columns.2.2) :
    ∃ spec name, resolveSpec row = .ok spec ∧ spec.validate = .ok name ∧
      (name = authorization ∨ name.str ∉ stripList ∧ startsWith "x-forwarded-" name.str = false) ∧
      (columns.1 = "basic" → ∃ username, row.injectionUsername = some username ∧
        ∀ secret : Db.Blob, headerSafe secret = true → ∃ value credential plain,
          injectionHeader spec secret = .ok (authorization, value) ∧
          value.bytes = bytes "Basic " ++ bytes (String.ofList credential) ∧ base64Decode credential = some plain ∧
          plain.takeWhile (· ≠ 58) = bytes username ∧ plain.dropWhile (· ≠ 58) = 58 :: secret) := by
  have hchecked := h.checked
  obtain ⟨spec, name, husable⟩ := hchecked.usable hkind hheader husername
  refine ⟨spec, name, husable.resolves, husable.validates, ?_, ?_⟩
  · by_cases hauth : name = authorization
    · exact Or.inl hauth
    · exact Or.inr (husable.forwarded hauth)
  · intro hbasic
    cases hchecked with
    | basic username hlen hcolon hcontrol =>
        have hspec : spec = .basicPassword username := by
          have hres := husable.resolves
          rw [resolveSpec, hkind, husername] at hres
          exact (Except.ok.inj hres).symm
        obtain ⟨hu, hfree⟩ := husable.username username hspec
        have hvalid : spec.validate = .ok authorization := by
          have hname := husable.validates
          subst hspec
          simp only [InjectionSpec.validate, username_safe hcolon hcontrol, Bool.false_eq_true, if_false]
        exact ⟨username, hu, fun secret _ => injectionHeader_basic hspec hvalid hfree secret⟩
    | bearer => exact absurd hbasic (by decide)
    | header => exact absurd hbasic (by decide : "header" ≠ "basic")
    | awsSigV4 => exact absurd hbasic (by decide : "aws-sigv4" ≠ "basic")

def basicConfig : InjectionConfig := ⟨"basic-password", none, none, some "/run/user", none, none⟩

/-- A secret that config provisioned with the username of a file. -/
def basicRow : Db.SecretRow where
  id := 1
  name := "registry"
  description := ""
  maxTier := 0
  injectionKind := "basic"
  injectionHeader := none
  injectionUsername := some "svc"
  currentVersion := 1
  enabled := true
  operatorVetted := true
  managedByConfig := true
  createdAt := .ofSeconds 0
  updatedAt := .ofSeconds 0

theorem accepted_template_usable_basic : ∃ spec name, resolveSpec basicRow = .ok spec ∧ spec.validate = .ok name ∧
    (name = authorization ∨ name.str ∉ stripList ∧ startsWith "x-forwarded-" name.str = false) ∧
    ("basic" = "basic" → ∃ username, basicRow.injectionUsername = some username ∧
      ∀ secret : Db.Blob, headerSafe secret = true → ∃ value credential plain,
        injectionHeader spec secret = .ok (authorization, value) ∧
        value.bytes = bytes "Basic " ++ bytes (String.ofList credential) ∧ base64Decode credential = some plain ∧
        plain.takeWhile (· ≠ 58) = bytes username ∧ plain.dropWhile (· ≠ 58) = 58 :: secret) := by
  have hok : basicConfig.resolve (fun _ => some [115, 118, 99, 10]) = .ok ("basic", none, some "svc") := by
    decide +kernel
  exact accepted_template_usable (.config hok) rfl rfl rfl

end Keychute.Proxy
