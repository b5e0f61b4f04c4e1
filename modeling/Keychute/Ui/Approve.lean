import Keychute.Api.Grants
import Keychute.Api.Secrets
import Keychute.Lifecycle
import Keychute.PolicyForms

/-!
# An operator's approval (`server/src/ui/mod.rs`)

* `ApproveForm` : the fields of the form, as text;
* `parseNarrow`, `narrowTtl`, `narrowUses` : what the operator may shrink;
* `releaseSubstitute`, `releaseStored`, `releaseEntered` : the secret that the grant is for, in each of the situations
  the form can be submitted in;
* `planApprove` : the handler up to its transaction, on the `ApproveViews` that it reads; `approve` : the whole of it;
* `Narrowed` : what an approval that was committed granted at most (`approve_narrows`).
-/

namespace Keychute.Ui
open Keychute.Api Keychute.Db Keychute.Lib
open Keychute.Crypto (Aead KeyMaterial XNonce AadContext)

/-- How the handler answers without approving: an error page, or the request's page again with a banner. -/
inductive Refusal where
  | error (status : Nat) (message : String)
  | page (status : Nat) (banner : String)
  deriving DecidableEq

def badRequest (message : String) : Refusal := .error 400 message

/-- `From<anyhow::Error>`. -/
def internalError : Refusal := .error 500 "internal error"

def orElse {α : Type} (o : Option α) (r : Refusal) : Except Refusal α :=
  match o with
  | some a => .ok a
  | none => .error r

def refuseWhen (c : Bool) (r : Refusal) : Except Refusal Unit := if c then .error r else .ok ()

theorem orElse_eq_ok {α : Type} {o : Option α} {r : Refusal} {a : α} : orElse o r = .ok a ↔ o = some a := by
  cases o <;> simp [orElse]

theorem refuseWhen_eq_ok {c : Bool} {r : Refusal} {u : Unit} : refuseWhen c r = .ok u ↔ c = false := by
  cases c <;> simp [refuseWhen]

theorem map_eq_ok {α β : Type} {f : α → β} {x : Except Refusal α} {b : β} :
    f <$> x = .ok b ↔ ∃ a, x = .ok a ∧ f a = b := by
  cases x <;> simp [Functor.map, Except.map]

/-! ## The form -/

/-- The approval form; its token is checked before anything else is read. -/
structure ApproveForm where
  secretPresent : Option String
  ttlSeconds : Option String
  maxUses : Option String
  secretValue : Option String
  substituteSecret : Option String
  storeSecret : Option String
  storeMaxTier : Option String
  injectionKind : Option String
  injectionHeader : Option String
  storeDescription : Option String

/-- `u64::MAX`. -/
def u64Max : Nat := 18446744073709551615

/-- `str::parse::<i32>`. -/
def parseI32 (s : String) : Option Int := parseSigned (-2147483648) 2147483647 s

/-- A number of the form that may only narrow what was requested. -/
def parseNarrow (input : Option String) (requested : Nat) (what : String) : Except Refusal Nat :=
  match input with
  | none => .ok requested
  | some raw => do
    let v ← orElse (parseUnsigned u64Max raw) (badRequest ("invalid " ++ what))
    refuseWhen (v == 0) (badRequest (what ++ " must be positive"))
    refuseWhen (decide (v > requested))
      (badRequest (what ++ " may only narrow the request (requested " ++ toString requested ++ ")"))
    return v

/-- The submitted marker: `Some(true)` for a page that showed a stored secret. -/
def parseSecretPresent (rendered : Option String) : Option Bool :=
  match rendered with
  | none => none
  | some s =>
    if s = "0" then some false
    else
      match s.toList with
      | '1' :: ':' :: version => (parseI32 (String.ofList version)).map fun _ => true
      | _ => none

/-- What the page says of the secret under the requested name: absent, or stored at this version. -/
def secretStateMarker (secret : Option SecretRow) : String :=
  match secret with
  | some s => "1:" ++ toString s.currentVersion
  | none => "0"

/-- The value of one entry of the substitute picker. -/
def substituteOptionValue (secret : SecretRow) : String := toString secret.currentVersion ++ ":" ++ secret.name

/-- The version and the name of a picked secret, cut at the first colon. -/
def parseSubstituteOption (raw : String) : Option (Int × String) :=
  match raw.toList.dropWhile (· != ':') with
  | [] => none
  | _ :: name => do
    let version ← parseI32 (String.ofList (raw.toList.takeWhile (· != ':')))
    if name.isEmpty then none else some (version, String.ofList name)

/-- `take_secret_value`. -/
def ApproveForm.value (form : ApproveForm) : Option Blob := (form.secretValue.filter (· ≠ "")).map bytes

def ApproveForm.substitute (form : ApproveForm) : Option String := nonEmpty form.substituteSecret

def ApproveForm.marker (form : ApproveForm) : String := (nonEmpty form.secretPresent).getD ""

/-! ## Narrowing -/

def narrowTtl (form : ApproveForm) (constraints : Constraints) : Except Refusal Nat :=
  parseNarrow (nonEmpty form.ttlSeconds) constraints.ttlSeconds "ttl_seconds"

/-- Releasing tiers are single-use whatever was requested. -/
def requestedUses (mechanism : Mechanism) (constraints : Constraints) : Option Nat :=
  if mechanism.isReleasing then some 1 else constraints.maxUses

def narrowUses (form : ApproveForm) (mechanism : Mechanism) (constraints : Constraints) :
    Except Refusal (Option Nat) :=
  match nonEmpty form.maxUses, requestedUses mechanism constraints with
  | none, base => .ok base
  | some raw, base => some <$> parseNarrow (some raw) (base.getD u64Max) "max_uses"

/-- The constraints of the grant as it will be issued. -/
def effective (constraints : Constraints) (ttl : Nat) (maxUses : Option Nat) : Constraints :=
  { constraints with ttlSeconds := ttl, maxUses := maxUses.map (min · u32Max) }

/-! ## The secret of the grant -/

/-- Drawn for one approval: ids, and a data key with its nonces. -/
structure Draws where
  grantId : Uuid
  secretId : Uuid
  versionId : Uuid
  dek : KeyMaterial
  payloadNonce : XNonce
  wrapNonce : XNonce

/-- The server: its cipher, its keys, and the URL library. -/
structure Server where
  cipher : Aead
  keyset : Crypto.Keyset
  ephemeralKek : KeyMaterial
  url : UrlHost

/-- What the grant releases. -/
structure Release where
  name : String
  secretId : Option Uuid
  store : Option StoreSecretParams
  passthrough : Option PassthroughPayload
  cap : Option DateTime

/-- The store as each read of one approval finds it: others may commit in between, and before the transaction. -/
structure ApproveViews where
  request : Store
  secret : Store
  picked : Store
  client : Store
  tags : Store
  policies : Store

/-- `SELECT * FROM policies ORDER BY created_at`. -/
def listPolicies (s : Store) : List Db.PolicyRow := s.policies.rows.mergeSort fun a b => decide (a.createdAt ≤ b.createdAt)

/-- Re-run the policy engine for a substituted secret. -/
def evaluateSubstitution (url : UrlHost) (v : ApproveViews) (row : AccessRequestRow) (chosen : Db.SecretRow)
    (mechanism : Mechanism) (constraints : Constraints) (now : DateTime) : Except Refusal Policy.Evaluation := do
  let client ← orElse (getClientByName v.client row.clientName) (badRequest "the requesting client no longer exists")
  let tags := v.tags.tagsOf chosen.id
  let requested : Policy.RequestedGrant := ⟨chosen.name, mechanism, constraints⟩
  let (pclient, psecret, prows) ←
    (policyInputs url client (some chosen) tags requested (listPolicies v.policies) now).mapError fun _ =>
      badRequest ("the policy table holds a rule that applies to that secret and cannot be read; fix it before " ++
        "releasing this secret")
  return Policy.evaluate pclient psecret tags requested prows now

def malformed : Refusal := badRequest "malformed approval form; reload the page and retry"

def SUBSTITUTE_STATE_CHANGED : String :=
  "The stored secret you picked changed while you were reviewing: it was removed, disabled, or rotated since the " ++
  "page loaded, so approving would have released a version nobody reviewed. Nothing was approved. Pick again."

def SECRET_STATE_CHANGED : String :=
  "This secret changed while you were reviewing: it was stored, removed, or rotated since the page loaded, so the " ++
  "form no longer meant what it said. Nothing was approved. Check the details below and decide again."

/-- Another stored secret in place of the one that is absent. -/
def releaseSubstitute (url : UrlHost) (v : ApproveViews) (row : AccessRequestRow) (form : ApproveForm)
    (mechanism : Mechanism) (constraints : Constraints) (now : DateTime) (raw : String) : Except Refusal Release := do
  refuseWhen (form.value.isSome || (nonEmpty form.storeSecret).isSome)
    (badRequest "choose either a stored secret or a new value to store, not both")
  let (pickedVersion, pickedName) ← orElse (parseSubstituteOption raw) malformed
  -- gone, disabled or rotated since the page was rendered
  let chosen ← orElse
    ((getSecretByName v.picked pickedName).filter fun c => c.enabled && c.currentVersion == pickedVersion)
    (.page 409 SUBSTITUTE_STATE_CHANGED)
  refuseWhen (decide (mechanism.tier.asInt > chosen.maxTier))
    (badRequest "that secret's max tier is below the tier being approved")
  let evaluation ← evaluateSubstitution url v row chosen mechanism constraints now
  match evaluation.decision with
  | .deny reason => .error (badRequest ("standing policy refuses that secret for " ++ row.clientName ++ ": " ++ reason))
  | _ =>
    refuseWhen (evaluation.policyNotAfter.any fun cap => decide (cap ≤ now))
      (badRequest ("the standing policy governing that secret has expired: any grant issued now would already be " ++
        "past its cap"))
    return ⟨chosen.name, some chosen.id, none, none, evaluation.policyNotAfter⟩

/-- The secret the client asked for. -/
def releaseStored (row : AccessRequestRow) (mechanism : Mechanism) (secret : Db.SecretRow) : Except Refusal Release := do
  refuseWhen (!secret.enabled) (badRequest "secret is disabled")
  refuseWhen (decide (mechanism.tier.asInt > secret.maxTier))
    (badRequest "requested mechanism exceeds the secret's max tier")
  return ⟨row.secretName, some secret.id, none, none, none⟩

def tierFromStr : String → Option Tier
  | "brokered" => some .brokered
  | "trusted-client" => some .trustedClient
  | "cooperating-client" => some .cooperatingClient
  | "direct" => some .direct
  | _ => none

/-- `store_max_tier`, or the tier of the mechanism. -/
def tierField (form : ApproveForm) (mechanism : Mechanism) : Except Refusal Tier :=
  match nonEmpty form.storeMaxTier with
  | none => .ok mechanism.tier
  | some raw => orElse (tierFromStr raw) (badRequest "invalid max_tier")

/-- The tier a new secret is stored at: exactly that of the mechanism. -/
def storeTier (form : ApproveForm) (mechanism : Mechanism) : Except Refusal Tier := do
  let maxTier ← tierField form mechanism
  refuseWhen (maxTier != mechanism.tier)
    (badRequest ("stored max_tier must equal the requested mechanism's tier: an approval cannot store a secret at a " ++
      "broader tier than the access it grants"))
  return maxTier

/-- The value the operator typed, stored or for this grant only. -/
def releaseEntered (server : Server) (row : AccessRequestRow) (form : ApproveForm) (mechanism : Mechanism) (w : Draws) :
    Except Refusal Release := do
  let value ← orElse form.value (badRequest ("this secret is not stored: pick a stored secret to release instead, " ++
    "or enter the value"))
  if (nonEmpty form.storeSecret).isSome then
    let maxTier ← storeTier form mechanism
    let (kind, header, username) ← (validateInjection ((nonEmpty form.injectionKind).getD "bearer")
      (nonEmpty form.injectionHeader) none).mapError badRequest
    return {
      name := row.secretName
      secretId := some w.secretId
      store := some {
        secretId := w.secretId
        name := row.secretName
        description := (nonEmpty form.storeDescription).getD ""
        maxTier := maxTier.asInt
        injectionKind := kind
        injectionHeader := header
        injectionUsername := username
        sealWith := fun kekId =>
          (do
            let kek ← server.keyset.kek kekId
            Crypto.sealWithKek server.cipher w.dek w.payloadNonce w.wrapNonce kek kekId value
              (.secretVersion w.secretId 1)).toOption }
      passthrough := none
      cap := none }
  else
    refuseWhen (mechanism == .brokered)
      (badRequest ("brokered grants need a stored secret (injection template): check \"store this secret in " ++
        "Keychute\""))
    let sealed ← (Crypto.sealWithKek server.cipher w.dek w.payloadNonce w.wrapNonce server.ephemeralKek "ephemeral" value
      (.grantPassthrough w.grantId)).mapError fun _ => internalError
    return ⟨row.secretName, none, none, some ⟨sealed.ciphertext, sealed.nonce, sealed.wrappedDek⟩, none⟩

/-! ## The handler -/

structure ApprovePlan where
  grant : GrantParams
  store : Option StoreSecretParams

/-- `policy_cap_elapsed`. -/
def policyCapElapsed (policyNotAfter : Option DateTime) (now : DateTime) : Bool :=
  policyNotAfter.any fun cap => decide (cap ≤ now)

/-- Which of the four situations this is. -/
def releaseFor (server : Server) (v : ApproveViews) (row : AccessRequestRow) (form : ApproveForm) (mechanism : Mechanism)
    (constraints : Constraints) (now : DateTime) (w : Draws) : Except Refusal Release :=
  match getSecretByName v.secret row.secretName, form.substitute with
  | none, some raw => releaseSubstitute server.url v row form mechanism constraints now raw
  | some secret, _ => releaseStored row mechanism secret
  | none, none => releaseEntered server row form mechanism w

/-- From the request's row to the parameters of its grant. -/
def planRow (server : Server) (v : ApproveViews) (row : AccessRequestRow) (form : ApproveForm) (now : DateTime)
    (w : Draws) : Except Refusal ApprovePlan := do
  refuseWhen (row.state != .pending || decide (row.expiresAt ≤ now)) (.error 409 "request is no longer pending")
  refuseWhen (policyCapElapsed row.policyNotAfter now)
    (.error 409 ("the standing policy this request matched has expired: the request is no longer approvable and " ++
      "must be re-submitted"))
  let mechanism ← orElse (Mechanism.fromStrOpt row.mechanism) internalError
  let ttl ← narrowTtl form row.constraints
  let maxUses ← narrowUses form mechanism row.constraints
  let secret := getSecretByName v.secret row.secretName
  refuseWhen (form.marker != secretStateMarker secret) (.page 409 SECRET_STATE_CHANGED)
  refuseWhen (secret.isSome && (form.value.isSome || form.substitute.isSome)) malformed
  let release ← releaseFor server v row form mechanism (effective row.constraints ttl maxUses) now w
  -- `now + Duration::seconds(ttl as i64)`, which panics out of range
  let deadline ← orElse (now.addSeconds (asI64 ttl)) internalError
  return {
    grant := {
      clientName := row.clientName
      secretName := release.name
      secretId := release.secretId
      mechanism := row.mechanism
      constraints := row.constraints
      notAfter := capDeadline (capDeadline deadline row.policyNotAfter) release.cap
      maxUses := maxUses.map saturateI32
      passthrough := release.passthrough }
    store := release.store }

/-- The handler up to its transaction. `operator` and `guard` are what the session and the form token come to. -/
def planApprove (server : Server) (operator : Except Refusal String) (guard : Except Refusal Unit) (v : ApproveViews)
    (id : Uuid) (form : ApproveForm) (now : DateTime) (w : Draws) : Except Refusal (String × ApprovePlan) := do
  let subject ← operator
  guard
  let _ ← orElse (parseSecretPresent (nonEmpty form.secretPresent)) malformed
  let row ← orElse (v.request.requests.rows.find? (·.id == id)) (.error 404 "no such request")
  let plan ← planRow server v row form now w
  return (subject, plan)

/-- The answer to the outcome of the transaction. -/
def answer : Except DbError Reply → Except Refusal Unit
  | .ok (.approve (.approved _)) => .ok ()
  | .ok (.approve .notApprovable) => .error (.error 409 "request was resolved or expired concurrently")
  | .ok (.approve .secretNameTaken) =>
    .error (.error 409 ("a secret with that name was stored while you were reviewing. Nothing was approved — reload " ++
      "the request and decide against the secret that is now stored."))
  | .ok (.approve .secretGone) =>
    .error (.error 409 ("that secret was deleted while you were reviewing. Nothing was approved — reload the request " ++
      "and decide again."))
  | _ => .error internalError

/-- `POST /ui/requests/:id/approve`; `.ok` is the redirect after an approval. The transaction runs at `txNow`, on `s`. -/
def approve (server : Server) (operator : Except Refusal String) (guard : Except Refusal Unit) (id : Uuid)
    (form : ApproveForm) (now txNow : DateTime) (w : Draws) (v : ApproveViews) (s : Store) :
    Store × Except Refusal Unit :=
  match planApprove server operator guard v id form now w with
  | .error r => (s, .error r)
  | .ok (subject, plan) =>
    let (s', r) := (approveRequest id subject w.grantId plan.grant plan.store w.versionId txNow).run s
    (s', answer r)

/-! ## What the page named -/

theorem secretStateMarker_inj {a b : SecretRow} (h : secretStateMarker (some a) = secretStateMarker (some b)) :
    a.currentVersion = b.currentVersion :=
  toString_inj ((String.append_right_inj _).1 h)

/-- A version reads back from its text. -/
theorem parseI32_toString {v : Int} (hlo : -2147483648 ≤ v) (hhi : v ≤ 2147483647) :
    parseI32 (toString v) = some v := parseSigned_toString hlo hhi

/-- An entry of the picker reads back as the version and the name it was rendered from. -/
theorem parseSubstituteOption_value {secret : SecretRow} (hlo : -2147483648 ≤ secret.currentVersion)
    (hhi : secret.currentVersion ≤ 2147483647) (hname : secret.name ≠ "") :
    parseSubstituteOption (substituteOptionValue secret) = some (secret.currentVersion, secret.name) := by
  have hcolon : ∀ c ∈ (toString secret.currentVersion).toList, (c != ':') = true := by
    intro c hc
    rw [toList_toString] at hc
    have hdigit : c = '-' ∨ c.isDigit = true := by
      split at hc
      · exact .inr (isDigit_toDigits hc)
      · obtain rfl | hc := List.mem_cons.1 hc
        · exact .inl rfl
        · exact .inr (isDigit_toDigits hc)
    rw [bne_iff_ne]
    rintro rfl
    revert hdigit
    decide
  have hlist : (substituteOptionValue secret).toList =
      (toString secret.currentVersion).toList ++ ':' :: secret.name.toList := by
    rw [substituteOptionValue, String.toList_append, String.toList_append, List.append_assoc]
    rfl
  have hdrop : (substituteOptionValue secret).toList.dropWhile (· != ':') = ':' :: secret.name.toList := by
    rw [hlist, List.dropWhile_append_of_pos hcolon]
    rfl
  have htake : (substituteOptionValue secret).toList.takeWhile (· != ':') =
      (toString secret.currentVersion).toList := by
    rw [hlist, List.takeWhile_append_of_pos hcolon]
    simp
  have hne : secret.name.toList.isEmpty = false := by
    rw [List.isEmpty_eq_false_iff]
    exact fun h => hname (by rw [← String.ofList_toList (s := secret.name), h])
  rw [parseSubstituteOption, hdrop, htake]
  simp only [String.ofList_toList, parseI32_toString hlo hhi, hne]
  rfl

/-! ## Each stage -/

theorem parseNarrow_ok {input : Option String} {requested v : Nat} {what : String}
    (h : parseNarrow input requested what = .ok v) :
    v ≤ requested ∧ (input = none → v = requested) ∧ (input ≠ none → 0 < v) := by
  cases input with
  | none =>
      cases h
      exact ⟨le_refl _, fun _ => rfl, fun hne => absurd rfl hne⟩
  | some raw =>
      simp only [parseNarrow, bind_eq_ok, orElse_eq_ok, refuseWhen_eq_ok, decide_eq_false_iff_not, beq_eq_false_iff_ne,
        exists_and_left, exists_const] at h
      obtain ⟨n, -, hpos, hle, hv⟩ := h
      cases hv
      exact ⟨by omega, nofun, fun _ => by omega⟩

/-- Releasing tiers get one use. -/
theorem narrowUses_releasing {form : ApproveForm} {mechanism : Mechanism} {constraints : Constraints}
    {uses : Option Nat} (h : narrowUses form mechanism constraints = .ok uses) (hm : mechanism.isReleasing = true) :
    uses = some 1 := by
  simp only [narrowUses, requestedUses, hm, if_true] at h
  split at h
  · cases h
    rfl
  · obtain ⟨v, hv, rfl⟩ := map_eq_ok.1 h
    obtain ⟨hle, -, hpos⟩ := parseNarrow_ok hv
    have := hpos (by simp)
    simp only [Option.getD_some] at hle
    rw [show v = 1 by omega]

/-- A brokered request that asked for a bound gets one that is no greater. -/
theorem narrowUses_brokered {form : ApproveForm} {constraints : Constraints} {uses : Option Nat} {n : Nat}
    (h : narrowUses form .brokered constraints = .ok uses) (hn : constraints.maxUses = some n) (hpos : 0 < n) :
    ∃ k, uses = some k ∧ 1 ≤ k ∧ k ≤ n := by
  simp only [narrowUses, requestedUses, Mechanism.isReleasing, bne_self_eq_false, Bool.false_eq_true, if_false, hn] at h
  split at h
  · cases h
    exact ⟨n, rfl, hpos, le_refl _⟩
  · obtain ⟨v, hv, rfl⟩ := map_eq_ok.1 h
    obtain ⟨hle, -, hpos⟩ := parseNarrow_ok hv
    exact ⟨v, rfl, hpos (by simp), hle⟩

theorem policyInputs_ok {url : UrlHost} {client : Db.ClientRow} {secret : Option Db.SecretRow} {tags : List String}
    {req : Policy.RequestedGrant} {rows : List Db.PolicyRow} {now : DateTime}
    {out : Policy.ClientRow × Option Policy.SecretRow × List Policy.PolicyRow}
    (h : policyInputs url client secret tags req rows now = .ok out) :
    out = (clientInput client, secret.map secretInput, readableRows url rows) := by
  rw [policyInputs, policyRows_eq] at h
  split at h
  · cases h
  · cases h
    rfl

/-- The engine's rows have the ids of the table's, which are unique. -/
theorem readableRows_ids (url : UrlHost) (s : Store) :
    ((readableRows url (listPolicies s)).map Policy.PolicyRow.id).Nodup := by
  have hrows : ((listPolicies s).map Db.PolicyRow.id).Nodup := by
    refine ((List.mergeSort_perm s.policies.rows _).map _).nodup_iff.2 ?_
    rw [List.Nodup, List.pairwise_map]
    refine s.policies.distinct.imp fun {a b} hab heq => ?_
    rw [Keys.single_clashes.2 heq] at hab
    cases hab
  have hsub : ((readableRows url (listPolicies s)).map Policy.PolicyRow.id).Sublist ((listPolicies s).map Db.PolicyRow.id) := by
    rw [readableRows, List.map_filterMap]
    generalize listPolicies s = rows
    induction rows with
    | nil => exact List.Sublist.slnil
    | cons r rows ih =>
        rw [List.filterMap_cons, List.map_cons]
        cases parseColumns url r with
        | none => exact ih.cons _
        | some c => exact ih.cons_cons _
  exact hrows.sublist hsub

/-- What standing policy said of the secret that was substituted, and of the row that decided. -/
structure Substituted (url : UrlHost) (v : ApproveViews) (row : AccessRequestRow) (mechanism : Mechanism)
    (constraints : Constraints) (now : DateTime) (chosen : SecretRow) (client : Db.ClientRow) (notAfter : DateTime) :
    Prop where
  found : getClientByName v.client row.clientName = some client
  notDenied : ∀ reason, (Policy.evaluate (clientInput client) (some (secretInput chosen)) (v.tags.tagsOf chosen.id)
    ⟨chosen.name, mechanism, constraints⟩ (readableRows url (listPolicies v.policies)) now).decision ≠ .deny reason
  cap : ∀ p, Policy.IsWinner (clientInput client) (v.tags.tagsOf chosen.id) ⟨chosen.name, mechanism, constraints⟩
    (readableRows url (listPolicies v.policies)) now p → ∀ t, p.notAfter = some t → notAfter ≤ t

theorem capDeadline_le_cap {deadline cap : DateTime} : capDeadline deadline (some cap) ≤ cap := min_le_right _ _

theorem releaseSubstitute_ok {url : UrlHost} {v : ApproveViews} {row : AccessRequestRow} {form : ApproveForm}
    {mechanism : Mechanism} {constraints : Constraints} {now : DateTime} {raw : String} {release : Release}
    (h : releaseSubstitute url v row form mechanism constraints now raw = .ok release) (deadline : DateTime) :
    form.value = none ∧ release.store = none ∧ release.passthrough = none ∧ ∃ chosen ∈ v.picked.secrets.rows,
      release.secretId = some chosen.id ∧ release.name = chosen.name ∧ chosen.enabled = true ∧
      mechanism.tier.asInt ≤ chosen.maxTier ∧ parseSubstituteOption raw = some (chosen.currentVersion, chosen.name) ∧
      ∃ client, Substituted url v row mechanism constraints now chosen client (capDeadline deadline release.cap) := by
  simp only [releaseSubstitute, bind_eq_ok, refuseWhen_eq_ok, orElse_eq_ok, Bool.or_eq_false_iff,
    Option.isSome_eq_false_iff, Option.isNone_iff_eq_none, exists_const, Option.filter_eq_some_iff,
    decide_eq_false_iff_not, Bool.and_eq_true, beq_iff_eq] at h
  obtain ⟨hvalue, ⟨version, name⟩, hraw, chosen, ⟨hfound, henabled, hversion⟩, htier, evaluation, heval, h⟩ := h
  simp only [evaluateSubstitution, bind_eq_ok, orElse_eq_ok, mapError_eq_ok] at heval
  obtain ⟨client, hclient, inputs, hinputs, heval⟩ := heval
  rw [policyInputs_ok hinputs] at heval
  cases heval
  have hmem : chosen ∈ v.picked.secrets.rows := List.mem_of_find?_eq_some hfound
  have hname : chosen.name = name := by simpa using List.find?_some hfound
  split at h
  · cases h
  · rename_i hdeny
    simp only [bind_eq_ok, refuseWhen_eq_ok, exists_const] at h
    obtain ⟨-, h⟩ := h
    cases h
    refine ⟨hvalue.1, rfl, rfl, chosen, hmem, rfl, rfl, henabled, by omega, ?_, client, hclient, hdeny, ?_⟩
    · rw [hraw, hversion, hname]
    · intro p hp t ht
      have hrefused : ¬ Policy.Refused (clientInput client) (some (secretInput chosen))
          (v.tags.tagsOf chosen.id) ⟨chosen.name, mechanism, constraints⟩ (readableRows url (listPolicies v.policies))
          now := by
        rw [← Policy.isDeny_iff_refused]
        rintro ⟨reason, hreason⟩
        exact hdeny reason hreason
      rw [Option.map_some, Policy.evaluate_of_winner (readableRows_ids url v.policies) hrefused hp, ht]
      exact capDeadline_le_cap

theorem releaseStored_ok {row : AccessRequestRow} {mechanism : Mechanism} {secret : SecretRow} {release : Release}
    (h : releaseStored row mechanism secret = .ok release) :
    secret.enabled = true ∧ mechanism.tier.asInt ≤ secret.maxTier ∧
      release = ⟨row.secretName, some secret.id, none, none, none⟩ := by
  simp only [releaseStored, bind_eq_ok, refuseWhen_eq_ok, exists_const, Bool.not_eq_false', decide_eq_false_iff_not] at h
  obtain ⟨henabled, htier, h⟩ := h
  cases h
  exact ⟨henabled, by omega, rfl⟩

theorem storeTier_ok {form : ApproveForm} {mechanism : Mechanism} {tier : Tier}
    (h : storeTier form mechanism = .ok tier) : tier = mechanism.tier := by
  simp only [storeTier, bind_eq_ok, refuseWhen_eq_ok, exists_const, bne_eq_false_iff_eq] at h
  obtain ⟨t, -, ht, h⟩ := h
  cases h
  exact ht

/-- A value typed for a brokered request is stored. -/
theorem releaseEntered_ok {server : Server} {row : AccessRequestRow} {form : ApproveForm} {mechanism : Mechanism}
    {w : Draws} {release : Release} (h : releaseEntered server row form mechanism w = .ok release) :
    release.name = row.secretName ∧ form.value.isSome = true ∧
      ((∃ p, release.store = some p ∧ release.passthrough = none ∧ release.secretId = some p.secretId ∧
          p.name = row.secretName ∧ p.maxTier = mechanism.tier.asInt) ∨
        release.passthrough.isSome = true ∧ mechanism ≠ .brokered) := by
  simp only [releaseEntered, bind_eq_ok, orElse_eq_ok] at h
  obtain ⟨value, hvalue, h⟩ := h
  rw [hvalue]
  split at h
  · simp only [bind_eq_ok, mapError_eq_ok] at h
    obtain ⟨tier, htier, ⟨kind, header, username⟩, -, h⟩ := h
    cases h
    exact ⟨rfl, rfl, .inl ⟨_, rfl, rfl, rfl, rfl, by rw [storeTier_ok htier]⟩⟩
  · simp only [bind_eq_ok, refuseWhen_eq_ok, mapError_eq_ok, exists_const, beq_eq_false_iff_ne] at h
    obtain ⟨hbrokered, sealed, -, h⟩ := h
    cases h
    exact ⟨rfl, rfl, .inr ⟨rfl, hbrokered⟩⟩

/-! ## The whole -/

/-- A row as `create` stores it. -/
def Requested (row : AccessRequestRow) : Prop :=
  ∃ req, validateRequest req = .ok row.constraints ∧ row.mechanism = req.mechanism.asStr

/-- `create` refuses a brokered request for no uses. -/
theorem Requested.maxUses_pos {row : AccessRequestRow} (h : Requested row) (hm : row.mechanism = Mechanism.brokered.asStr)
    {n : Nat} (hn : row.constraints.maxUses = some n) : 0 < n := by
  obtain ⟨req, hvalid, hmech⟩ := h
  have hbrokered : req.mechanism = .brokered := Mechanism.asStr_injective (hmech.symm.trans hm)
  have huses := (validateRequest_spec hvalid).2.2.2.2.2.2
  rw [hbrokered, hn] at huses
  exact validateUses_brokered huses

/-- The form says which version the page showed of a row that was read: in its marker, or in the entry that was picked. -/
inductive Named (v : ApproveViews) (form : ApproveForm) (r : SecretRow) : Prop where
  | requested (hread : r ∈ v.secret.secrets.rows) (h : form.marker = secretStateMarker (some r))
  | picked (hread : r ∈ v.picked.secrets.rows) (hmarker : form.marker = secretStateMarker none) {raw : String}
      (hraw : form.substitute = some raw) (h : parseSubstituteOption raw = some (r.currentVersion, r.name))

/-- A row that the page may have shown where the form says what it does. -/
inductive Shows (form : ApproveForm) (shown : SecretRow) : Prop where
  | requested (h : form.marker = secretStateMarker (some shown))
  | picked (hmarker : form.marker = secretStateMarker none)
      (hraw : form.substitute = some (substituteOptionValue shown)) (hname : shown.name ≠ "")
      (hlo : -2147483648 ≤ shown.currentVersion) (hhi : shown.currentVersion ≤ 2147483647)

theorem secretStateMarker_some_ne_none (r : SecretRow) : secretStateMarker (some r) ≠ secretStateMarker none := by
  intro h
  have := congrArg (fun s : String => s.toList.head?) h
  simp [secretStateMarker, String.toList_append] at this

theorem Named.version {v : ApproveViews} {form : ApproveForm} {r shown : SecretRow} (h : Named v form r)
    (hs : Shows form shown) : shown.currentVersion = r.currentVersion := by
  cases h with
  | requested _ h =>
      cases hs with
      | requested hs => exact secretStateMarker_inj (hs.symm.trans h)
      | picked hmarker => exact absurd (h.symm.trans hmarker) (secretStateMarker_some_ne_none r)
  | picked _ hmarker hraw h =>
      cases hs with
      | requested hs => exact absurd (hs.symm.trans hmarker) (secretStateMarker_some_ne_none shown)
      | picked _ hraw' hname hlo hhi =>
          rw [hraw] at hraw'
          rw [Option.some.inj hraw', parseSubstituteOption_value hlo hhi hname, Option.some.injEq, Prod.mk.injEq] at h
          exact h.1

/-- A stored secret that can serve the mechanism, at the version the page named. -/
structure Releasable (v : ApproveViews) (form : ApproveForm) (mechanism : Mechanism) (r : SecretRow) : Prop where
  enabled : r.enabled = true
  tier : mechanism.tier.asInt ≤ r.maxTier
  named : Named v form r
  version : ∀ shown, Shows form shown → shown.currentVersion = r.currentVersion

/-- The grant of an approval of `row` that read `v` and whose transaction took the store from `s` to `s'`. -/
structure Narrowed (server : Server) (v : ApproveViews) (s s' : Store) (row : AccessRequestRow) (form : ApproveForm)
    (now : DateTime) (mechanism : Mechanism) (g : GrantParams) : Prop where
  lifetime : g.notAfter.nanos ≤ now.nanos + row.constraints.ttlSeconds * 10 ^ 9
  policyCap : ∀ cap, row.policyNotAfter = some cap → g.notAfter ≤ cap
  releasing : mechanism.isReleasing = true → g.maxUses = some 1
  brokeredUses : mechanism = .brokered → ∀ n, row.constraints.maxUses = some n →
    ∃ k, g.maxUses = some k ∧ 1 ≤ k ∧ k ≤ n
  brokeredStored : mechanism = .brokered → g.passthrough = none
  /-- The secret is in the store. It was there for the transaction, and could serve the mechanism as it was read; or the
  approval of a page that named none has stored it. -/
  released : g.passthrough = none → ∃ r ∈ s'.secrets.rows, g.secretId = some r.id ∧ g.secretName = r.name ∧
    (r ∈ s.secrets.rows ∧ (∃ seen, seen.id = r.id ∧ seen.name = r.name ∧ Releasable v form mechanism seen) ∨
      r ∉ s.secrets.rows ∧ r.enabled = true ∧ mechanism.tier.asInt ≤ r.maxTier ∧
        form.marker = secretStateMarker none ∧ form.value.isSome = true)
  substituted : form.substitute.isSome = true ∨ g.secretName ≠ row.secretName → ∃ chosen ∈ v.picked.secrets.rows,
    g.secretId = some chosen.id ∧ g.secretName = chosen.name ∧ ∃ ttl uses client, narrowTtl form row.constraints = .ok ttl ∧
      narrowUses form mechanism row.constraints = .ok uses ∧
      Substituted server.url v row mechanism (effective row.constraints ttl uses) now chosen client g.notAfter

/-- What `Narrowed` says of the released secret where the row in the store is the one that was read. -/
def Serves (v : ApproveViews) (s s' : Store) (form : ApproveForm) (mechanism : Mechanism) (g : GrantParams) : Prop :=
  g.passthrough = none → ∃ r ∈ s'.secrets.rows, g.secretId = some r.id ∧ g.secretName = r.name ∧ r.enabled = true ∧
    mechanism.tier.asInt ≤ r.maxTier ∧ (r ∈ s.secrets.rows ∧ Releasable v form mechanism r ∨
      r ∉ s.secrets.rows ∧ form.marker = secretStateMarker none ∧ form.value.isSome = true)

theorem Narrowed.serves {server : Server} {v : ApproveViews} {s s' : Store} {row : AccessRequestRow}
    {form : ApproveForm} {now : DateTime} {mechanism : Mechanism} {g : GrantParams}
    (h : Narrowed server v s s' row form now mechanism g) (hsecret : v.secret.secrets = s.secrets)
    (hpicked : v.picked.secrets = s.secrets) : Serves v s s' form mechanism g := by
  intro hpass
  obtain ⟨r, hr, hid, hname, ⟨hmem, seen, hseen, -, hrel⟩ | ⟨hnew, hon, htier, hform⟩⟩ := h.released hpass
  · have hread : seen ∈ s.secrets.rows := by
      cases hrel.named with
      | requested hread => rwa [hsecret] at hread
      | picked hread => rwa [hpicked] at hread
    obtain rfl := secret_eq_of_id hread hmem hseen
    exact ⟨seen, hr, hid, hname, hrel.enabled, hrel.tier, .inl ⟨hmem, hrel⟩⟩
  · exact ⟨r, hr, hid, hname, hon, htier, .inr ⟨hnew, hform⟩⟩

/-- What the plan says of the released secret, before the transaction. -/
structure Planned (server : Server) (v : ApproveViews) (row : AccessRequestRow) (form : ApproveForm) (now : DateTime)
    (mechanism : Mechanism) (plan : ApprovePlan) : Prop where
  lifetime : plan.grant.notAfter.nanos ≤ now.nanos + row.constraints.ttlSeconds * 10 ^ 9
  policyCap : ∀ cap, row.policyNotAfter = some cap → plan.grant.notAfter ≤ cap
  uses : ∃ uses, narrowUses form mechanism row.constraints = .ok uses ∧ plan.grant.maxUses = uses.map saturateI32
  secret : (∃ r, plan.store = none ∧ plan.grant.passthrough = none ∧ plan.grant.secretId = some r.id ∧
      plan.grant.secretName = r.name ∧ r.enabled = true ∧ mechanism.tier.asInt ≤ r.maxTier ∧ Named v form r) ∨
    (∃ p, plan.store = some p ∧ plan.grant.passthrough = none ∧ plan.grant.secretId = some p.secretId ∧
      plan.grant.secretName = p.name ∧ p.maxTier = mechanism.tier.asInt ∧ form.marker = secretStateMarker none ∧
      form.value.isSome = true) ∨
    (plan.grant.passthrough.isSome = true ∧ mechanism ≠ .brokered)
  substituted : form.substitute.isSome = true ∨ plan.grant.secretName ≠ row.secretName →
    ∃ chosen ∈ v.picked.secrets.rows, plan.grant.secretId = some chosen.id ∧ plan.grant.secretName = chosen.name ∧
      ∃ ttl uses client, narrowTtl form row.constraints = .ok ttl ∧ narrowUses form mechanism row.constraints = .ok uses ∧
        Substituted server.url v row mechanism (effective row.constraints ttl uses) now chosen client plan.grant.notAfter

theorem asI64_le (n : Nat) : asI64 n ≤ n := by
  rw [asI64]
  split
  · exact le_refl _
  · omega

theorem planRow_ok {server : Server} {v : ApproveViews} {row : AccessRequestRow} {form : ApproveForm} {now : DateTime}
    {w : Draws} {plan : ApprovePlan} (h : planRow server v row form now w = .ok plan) :
    row.state = .pending ∧ (form.value = none ∨ form.substitute = none) ∧
      ((getSecretByName v.secret row.secretName).isSome = true → form.value = none ∧ form.substitute = none) ∧
      ∃ mechanism, row.mechanism = mechanism.asStr ∧ Planned server v row form now mechanism plan := by
  simp only [planRow, bind_eq_ok, refuseWhen_eq_ok, orElse_eq_ok, exists_const, Bool.or_eq_false_iff,
    bne_eq_false_iff_eq] at h
  obtain ⟨⟨hpending, -⟩, -, mechanism, hmech, ttl, httl, uses, huses, hmarker, hmalformed, release, hrelease, deadline,
    hdeadline, h⟩ := h
  cases h
  have hstored : (getSecretByName v.secret row.secretName).isSome = true →
      form.value = none ∧ form.substitute = none := by
    intro hsome
    simpa [hsome] using hmalformed
  -- the caps only lower the deadline
  have hcaps : capDeadline (capDeadline deadline row.policyNotAfter) release.cap ≤
      capDeadline deadline row.policyNotAfter := capDeadline_le _ _
  have hlife : (capDeadline (capDeadline deadline row.policyNotAfter) release.cap).nanos ≤
      now.nanos + row.constraints.ttlSeconds * 10 ^ 9 := by
    have h₁ : _ ≤ deadline.nanos := le_trans hcaps (capDeadline_le _ _)
    have h₂ := DateTime.addSeconds_nanos hdeadline
    have h₃ := asI64_le ttl
    have h₄ := (parseNarrow_ok httl).1
    rw [h₂] at h₁
    omega
  have hpolicy : ∀ cap, row.policyNotAfter = some cap →
      capDeadline (capDeadline deadline row.policyNotAfter) release.cap ≤ cap := by
    intro cap hcap
    refine le_trans hcaps ?_
    rw [hcap]
    exact capDeadline_le_cap
  unfold releaseFor at hrelease
  split at hrelease
  · -- another stored secret
    rename_i raw habsent hraw
    obtain ⟨hvalue, hstore, hpass, chosen, hmem, hid, hname, hon, htier, hparse, client, hsub⟩ :=
      releaseSubstitute_ok hrelease (capDeadline deadline row.policyNotAfter)
    rw [habsent] at hmarker
    refine ⟨hpending, .inl hvalue, hstored, mechanism, Mechanism.fromStrOpt_eq_some hmech, hlife, hpolicy,
      ⟨uses, huses, rfl⟩, .inl ⟨chosen, hstore, hpass, hid, hname, hon, htier, .picked hmem hmarker hraw hparse⟩,
      fun _ => ⟨chosen, hmem, hid, hname, ttl, uses, client, httl, huses, hsub⟩⟩
  · -- the stored secret that was asked for
    rename_i secret hfound
    obtain ⟨hon, htier, rfl⟩ := releaseStored_ok hrelease
    have hmem : secret ∈ v.secret.secrets.rows := List.mem_of_find?_eq_some hfound
    have hname : secret.name = row.secretName := by simpa using List.find?_some hfound
    obtain ⟨hvalue, hnone⟩ := hstored (by rw [hfound]; rfl)
    have hkept : ¬ (form.substitute.isSome = true ∨ row.secretName ≠ row.secretName) := by simp [hnone]
    rw [hfound] at hmarker
    exact ⟨hpending, .inl hvalue, hstored, mechanism, Mechanism.fromStrOpt_eq_some hmech,
      hlife, hpolicy, ⟨uses, huses, rfl⟩,
      .inl ⟨secret, rfl, rfl, rfl, hname.symm, hon, htier, .requested hmem hmarker⟩,
      fun hsub => absurd hsub hkept⟩
  · -- a value typed in
    rename_i habsent hnone
    obtain ⟨hname, hvalue, hkind⟩ := releaseEntered_ok hrelease
    have hkept : ¬ (form.substitute.isSome = true ∨ release.name ≠ row.secretName) := by simp [hnone, hname]
    rw [habsent] at hmarker
    refine ⟨hpending, .inr hnone, hstored, mechanism, Mechanism.fromStrOpt_eq_some hmech, hlife, hpolicy,
      ⟨uses, huses, rfl⟩, .inr ?_, fun hsub => absurd hsub hkept⟩
    obtain ⟨p, hstore, hpass, hid, hpname, htier⟩ | ⟨hpass, hbrokered⟩ := hkind
    · exact .inl ⟨p, hstore, hpass, hid, hname.trans hpname.symm, htier, hmarker, hvalue⟩
    · exact .inr ⟨hpass, hbrokered⟩

section Whole
variable {server : Server} {operator : Except Refusal String} {guard : Except Refusal Unit} {id : Uuid}
  {form : ApproveForm} {now txNow : DateTime} {w : Draws} {v : ApproveViews} {s s' : Store}

theorem planApprove_ok {subject : String} {plan : ApprovePlan}
    (h : planApprove server operator guard v id form now w = .ok (subject, plan)) :
    ∃ row ∈ v.request.requests.rows, row.id = id ∧ planRow server v row form now w = .ok plan := by
  simp only [planApprove, bind_eq_ok, orElse_eq_ok] at h
  obtain ⟨_, _, _, _, _, _, row, hrow, plan', hplan, h⟩ := h
  cases h
  exact ⟨row, List.mem_of_find?_eq_some hrow, by simpa using List.find?_some hrow, hplan⟩

/-- An approval that is reported was planned and committed. -/
theorem approve_ok (h : approve server operator guard id form now txNow w v s = (s', .ok ())) :
    ∃ subject plan, planApprove server operator guard v id form now w = .ok (subject, plan) ∧
      ∃ r, (approveRequest id subject w.grantId plan.grant plan.store w.versionId txNow).exec s = .ok (r, s') := by
  rw [approve] at h
  split at h
  · cases h
  · rename_i subject plan hplan
    refine ⟨subject, plan, hplan, ?_⟩
    obtain ⟨r, s₁, hexec, hrun⟩ | ⟨r, hexec, hrun⟩ :=
      Txn.run_cases (approveRequest id subject w.grantId plan.grant plan.store w.versionId txNow) s
    · rw [hrun] at h
      cases congrArg Prod.fst h
      exact ⟨r, hexec⟩
    · -- what rolled back is not reported as an approval
      rw [hrun] at h
      have hans : answer r = .ok () := congrArg Prod.snd h
      have hun := aborts_approveRequest.exec hexec
      revert hans hun
      cases r with
      | error e => exact fun hans _ => nomatch hans
      | ok reply =>
          cases reply with
          | approve outcome =>
              cases outcome with
              | approved g => exact fun _ hun => nomatch hun
              | _ => exact fun hans _ => nomatch hans
          | _ => exact fun hans _ => nomatch hans

theorem saturateI32_bounds {k : Nat} (h : 1 ≤ k) : 1 ≤ saturateI32 k ∧ saturateI32 k ≤ k := by
  simp only [saturateI32, i32Max]
  split <;> omega

/-- From the plan, once its transaction committed. -/
theorem Planned.narrowed {row : AccessRequestRow} {mechanism : Mechanism} {plan : ApprovePlan} {subject : String}
    {r : Reply} (h : Planned server v row form now mechanism plan) (hmech : row.mechanism = mechanism.asStr)
    (hrow : Requested row)
    (hexec : (approveRequest id subject w.grantId plan.grant plan.store w.versionId txNow).exec s = .ok (r, s')) :
    (∃ req ∈ s.requests.rows, approvable id plan.grant txNow req = true) ∧
      plan.grant.row w.grantId id txNow ∈ s'.grants.rows ∧
      Narrowed server v s s' row form now mechanism plan.grant := by
  obtain ⟨req, hreq, stored, a, detail, happrovable, -, hstored, hbacked, hfresh, hg, -, rfl⟩ := approveRequest_ok hexec
  obtain ⟨uses, huses, hmax⟩ := h.uses
  refine ⟨⟨req, hreq, happrovable⟩, Table.mem_insert_self hg, h.lifetime, h.policyCap, fun hrel => ?_,
    fun hb n hn => ?_, fun hb => ?_, fun hpass => ?_, h.substituted⟩
  · rw [hmax, narrowUses_releasing huses hrel]
    rfl
  · subst hb
    obtain ⟨k, hk, hpos, hle⟩ := narrowUses_brokered huses hn (hrow.maxUses_pos hmech hn)
    have hbounds := saturateI32_bounds hpos
    exact ⟨saturateI32 k, by rw [hmax, hk]; rfl, hbounds.1, by omega⟩
  · obtain ⟨_, _, hpass, _⟩ | ⟨_, _, hpass, _⟩ | ⟨_, hne⟩ := h.secret
    · exact hpass
    · exact hpass
    · exact absurd hb hne
  · obtain ⟨r, hstore, -, hid, hname, hon, htier, hnamed⟩ | ⟨p, hstore, -, hid, hname, htier, hmarker, hvalue⟩ |
      ⟨hsome, -⟩ := h.secret
    · -- the store's secrets are those it had, and the transaction has found the one that was read among them
      obtain ⟨found, hfound, hfid, hfname⟩ := hbacked hstore hpass
      rw [hstore, Option.map_eq_none_iff] at hstored
      subst hstored
      refine ⟨found, hfound, hfid, hfname.symm, .inl ⟨hfound, r, Option.some.inj (hid.symm.trans hfid),
        hname.symm.trans hfname.symm, hon, htier, hnamed, fun _ => hnamed.version⟩⟩
    · rw [hstore, Option.map_eq_some_iff] at hstored
      obtain ⟨⟨p', sealed⟩, rfl, rfl⟩ := hstored
      have hnew := (hfresh _ rfl).1
      refine ⟨p'.row true false txNow, Table.mem_insert_self hnew, hid, hname,
        .inr ⟨fun hold => ?_, rfl, le_of_eq htier.symm, hmarker, hvalue⟩⟩
      have hclash := hnew _ hold
      rw [Keys.pair_clashes.2 (.inl rfl)] at hclash
      cases hclash
    · rw [hpass] at hsome
      cases hsome

/-- The form gives the handler a value and a substitute, or one of them for a secret that is stored. -/
def Contradictory (v : ApproveViews) (id : Uuid) (form : ApproveForm) : Prop :=
  form.value.isSome = true ∧ form.substitute.isSome = true ∨
    ∃ row ∈ v.request.requests.rows, row.id = id ∧ (getSecretByName v.secret row.secretName).isSome = true ∧
      (form.value.isSome = true ∨ form.substitute.isSome = true)

theorem not_contradictory_of_plan {subject : String} {plan : ApprovePlan}
    (h : planApprove server operator guard v id form now w = .ok (subject, plan)) : ¬ Contradictory v id form := by
  obtain ⟨row, hrow, hid, hplanned⟩ := planApprove_ok h
  obtain ⟨-, hone, hstored, -⟩ := planRow_ok hplanned
  rintro (⟨hvalue, hsub⟩ | ⟨row', hrow', hid', hsome, hgiven⟩)
  · obtain hnone | hnone := hone
    · rw [hnone] at hvalue
      cases hvalue
    · rw [hnone] at hsub
      cases hsub
  · obtain rfl : row' = row := Table.eq_of_clash hrow' hrow (Keys.pair_clashes.2 (.inl (hid'.trans hid.symm)))
    obtain ⟨hv, hs⟩ := hstored hsome
    rw [hv, hs] at hgiven
    simp at hgiven

/-- An operator's approval only narrows: whatever the form says and others commit between its reads, a grant that is issued
stays within the request and the policies that govern it; and a form that contradicts itself or the page it claims to come
from changes nothing. -/
theorem approve_narrows (hrows : ∀ row ∈ v.request.requests.rows, row.id = id → Requested row) :
    (∀ s', approve server operator guard id form now txNow w v s = (s', .ok ()) →
      ∃ row ∈ v.request.requests.rows, row.id = id ∧ row.state = .pending ∧ ∃ mechanism subject plan,
        row.mechanism = mechanism.asStr ∧ planApprove server operator guard v id form now w = .ok (subject, plan) ∧
        (∃ req ∈ s.requests.rows, approvable id plan.grant txNow req = true) ∧
        plan.grant.row w.grantId id txNow ∈ s'.grants.rows ∧
        Narrowed server v s s' row form now mechanism plan.grant ∧
        (v.secret.secrets = s.secrets → v.picked.secrets = s.secrets → Serves v s s' form mechanism plan.grant)) ∧
    (Contradictory v id form →
      ∃ refusal, approve server operator guard id form now txNow w v s = (s, .error refusal)) := by
  constructor
  · intro s' h
    obtain ⟨subject, plan, hplan, r, hexec⟩ := approve_ok h
    obtain ⟨row, hrow, hid, hplanned⟩ := planApprove_ok hplan
    obtain ⟨hpending, -, -, mechanism, hmech, hp⟩ := planRow_ok hplanned
    obtain ⟨hstill, hgrant, hnarrowed⟩ := hp.narrowed hmech (hrows row hrow hid) hexec
    exact ⟨row, hrow, hid, hpending, mechanism, subject, plan, hmech, hplan, hstill, hgrant, hnarrowed, hnarrowed.serves⟩
  · intro hbad
    rw [approve]
    cases hplan : planApprove server operator guard v id form now w with
    | error refusal => exact ⟨refusal, rfl⟩
    | ok out => exact absurd hbad (not_contradictory_of_plan hplan)

end Whole

/-! ## One approval -/

def sampleServer : Server where
  cipher := Crypto.tagging
  keyset := Crypto.beforeRotation
  ephemeralKek := Crypto.sampleKey 9
  url := plainUrl

def sampleDraws : Draws where
  grantId := 21
  secretId := 22
  versionId := 23
  dek := Crypto.sampleKey 7
  payloadNonce := Crypto.sampleNonce 1
  wrapNonce := Crypto.sampleNonce 2

/-- A brokered request for at most five uses within an hour. -/
def sampleRequest : CreateAccessRequest where
  idempotencyKey := "k"
  secretName := "deploy"
  mechanism := .brokered
  constraints := ⟨[⟨"api.example.com", none⟩], ["GET"], ["/v1"], 3600, some 5⟩
  context := ⟨"", none⟩

def sampleRow : AccessRequestRow where
  id := 11
  clientName := "agent"
  secretName := "deploy"
  mechanism := "brokered"
  constraints := sampleRequest.constraints
  contextCiphertext := none
  contextNonce := none
  contextWrappedDek := none
  contextKekId := none
  state := .pending
  policyNotAfter := some (.ofSeconds 1800)
  denyReason := none
  resolvedBy := none
  createdAt := .ofSeconds 0
  resolvedAt := none
  expiresAt := .ofSeconds 600
  notifyOnly := false
  idemClient := "agent"
  idemKey := "k"
  idemMac := []

def sampleSecret : SecretRow where
  id := 12
  name := "deploy"
  description := ""
  maxTier := 0
  injectionKind := "bearer"
  injectionHeader := none
  injectionUsername := none
  currentVersion := 3
  enabled := true
  operatorVetted := true
  managedByConfig := false
  createdAt := .ofSeconds 0
  updatedAt := .ofSeconds 0

def sampleStore : Store :=
  { Store.empty with secrets := Table.empty.insert sampleSecret, requests := Table.empty.insert sampleRow }

/-- Nothing changes in the meantime. -/
def sampleViews : ApproveViews :=
  ⟨sampleStore, sampleStore, sampleStore, sampleStore, sampleStore, sampleStore⟩

/-- The operator leaves the lifetime alone and grants two uses. -/
def sampleForm : ApproveForm where
  secretPresent := some "1:3"
  ttlSeconds := none
  maxUses := some " 2 "
  secretValue := none
  substituteSecret := none
  storeSecret := none
  storeMaxTier := none
  injectionKind := none
  injectionHeader := none
  storeDescription := none

theorem sampleRow_requested : Requested sampleRow := ⟨sampleRequest, by decide +kernel, rfl⟩

theorem approve_narrows_two_uses : ∃ s' row mechanism subject plan,
    approve sampleServer (.ok "op") (.ok ()) 11 sampleForm (.ofSeconds 60) (.ofSeconds 61) sampleDraws sampleViews
      sampleStore = (s', .ok ()) ∧
    planApprove sampleServer (.ok "op") (.ok ()) sampleViews 11 sampleForm (.ofSeconds 60) sampleDraws =
      .ok (subject, plan) ∧
    Narrowed sampleServer sampleViews sampleStore s' row sampleForm (.ofSeconds 60) mechanism plan.grant := by
  have hrun : (approve sampleServer (.ok "op") (.ok ()) 11 sampleForm (.ofSeconds 60) (.ofSeconds 61) sampleDraws
      sampleViews sampleStore).2 = .ok () := rfl
  have hrows : ∀ row ∈ sampleViews.request.requests.rows, row.id = 11 → Requested row := by
    intro row hrow _
    obtain rfl : row = sampleRow := List.mem_singleton.1 hrow
    exact sampleRow_requested
  have happroved := Prod.ext_iff.2 ⟨rfl, hrun⟩
  obtain ⟨row, -, -, -, mechanism, subject, plan, -, hplan, -, -, hnarrowed, -⟩ := (approve_narrows hrows).1 _ happroved
  exact ⟨_, row, mechanism, subject, plan, happroved, hplan, hnarrowed⟩

end Keychute.Ui
