import Keychute.Api.Grants
import Keychute.Db.Secrets
import Keychute.PolicyForms

/-!
# The review page's warning (`server/src/ui/mod.rs`)

* `policiesActivatedByVetting` : the standing rows the page names;
* `decideStored` : a request decided on the stored rows, as `create` does; `decideIn` : with its lookups;
* `warning_covers` : a row that releases a secret without a human, and only because it is vetted, is on the list;
* `vetting_warning` : that, and what an empty list promises.
-/

namespace Keychute.Ui
open Keychute.Api Keychute.Db Keychute.Lib
open Keychute.Policy (Evaluation Decision Outcome RequestedGrant evaluate)

/-- The row's selectors name the secret, one of its tags, or any secret. -/
def selectsSecret (p : Db.PolicyRow) (secretName : String) (tags : List String) : Bool :=
  match p.secretName, p.secretTag with
  | some name, _ => name == secretName
  | none, some tag => tags.contains tag
  | none, none => true

/-- Standing rows that would begin to release this secret without a human once it is vetted, by their selectors. -/
def policiesActivatedByVetting (policies : List Db.PolicyRow) (secretName : String) (tags : List String)
    (now : DateTime) : List Db.PolicyRow :=
  ((policies.filter fun p => p.outcome == "auto-approve" || p.outcome == "notify-only").filter
    fun p => p.notAfter.all (now < ·)).filter (selectsSecret · secretName tags)

/-- The decision `create` takes on what it read. -/
def decideStored (url : UrlHost) (client : Db.ClientRow) (secret : Option Db.SecretRow) (tags : List String)
    (req : RequestedGrant) (policies : List Db.PolicyRow) (now : DateTime) : Except ApiFailure Evaluation :=
  (fun inputs => evaluate inputs.1 inputs.2.1 tags req inputs.2.2 now) <$>
    policyInputs url client secret tags req policies now

/-- The same, on what it reads in this store. -/
def decideIn (s : Store) (url : UrlHost) (client : Db.ClientRow) (req : RequestedGrant) (policies : List Db.PolicyRow)
    (now : DateTime) : Except ApiFailure Evaluation :=
  let secret := getSecretByName s req.secretName
  let tags := match secret with
    | some row => s.tagsOf row.id
    | none => []
  decideStored url client secret tags req policies now

/-- Released without a human. -/
def Silent (d : Decision) : Prop := d = .autoApprove ∨ d = .notifyOnly

theorem outcomeFromStrOpt_eq_some {s : String} {o : Outcome} (h : Outcome.fromStrOpt s = some o) : s = o.asStr := by
  unfold Outcome.fromStrOpt at h
  split_ifs at h with h1 h2 h3 h4
  all_goals
    cases h
    assumption

section
variable {url : UrlHost} {client : Db.ClientRow} {secret : Option Db.SecretRow} {tags : List String}
  {req : RequestedGrant} {policies : List Db.PolicyRow} {now : DateTime} {e : Evaluation}

theorem mem_policiesActivatedByVetting {secretName : String} {p : Db.PolicyRow} :
    p ∈ policiesActivatedByVetting policies secretName tags now ↔
      p ∈ policies ∧ (p.outcome = "auto-approve" ∨ p.outcome = "notify-only") ∧ p.notAfter.all (now < ·) = true ∧
        selectsSecret p secretName tags = true := by
  rw [policiesActivatedByVetting, List.mem_filter, List.mem_filter, List.mem_filter, Bool.or_eq_true, beq_iff_eq,
    beq_iff_eq, and_assoc, and_assoc]

theorem decideStored_eq_ok (h : decideStored url client secret tags req policies now = .ok e) :
    e = evaluate (clientInput client) (secret.map secretInput) tags req (readableRows url policies) now := by
  unfold decideStored policyInputs at h
  rw [policyRows_eq] at h
  split at h
  · cases h
  · cases h
    rfl

/-- Whether the rows can be read does not depend on the secret. -/
theorem decideStored_congr {secret' : Option Db.SecretRow}
    (h : evaluate (clientInput client) (secret.map secretInput) tags req (readableRows url policies) now =
      evaluate (clientInput client) (secret'.map secretInput) tags req (readableRows url policies) now) :
    decideStored url client secret tags req policies now = decideStored url client secret' tags req policies now := by
  unfold decideStored policyInputs
  rw [policyRows_eq]
  split
  · rfl
  · exact congrArg Except.ok h

/-- A row that applies to a request for the secret is live, and selects it. -/
theorem selects_of_applicable {r : Db.PolicyRow} (h : rowIsApplicableRaw r client.name req tags now = true) :
    r.notAfter.all (now < ·) = true ∧ selectsSecret r req.secretName tags = true := by
  unfold rowIsApplicableRaw at h
  split at h
  · cases h
  split at h
  · cases h
  rename_i hlive
  split at h
  · cases h
  refine ⟨?_, ?_⟩
  · cases ht : r.notAfter with
    | none => rfl
    | some t =>
        rw [ht, Option.any_some, decide_eq_true_eq, not_le] at hlive
        rw [Option.all_some, decide_eq_true_eq]
        exact hlive
  · unfold selectsSecret
    cases hn : r.secretName with
    | some name =>
        rw [hn] at h
        exact h
    | none =>
        cases htag : r.secretTag with
        | none => rfl
        | some tag =>
            rw [hn, htag] at h
            simpa [List.any_eq_true] using h

theorem outcome_of_parseColumns {r : Db.PolicyRow} {c : ParsedColumns} (h : parseColumns url r = some c) :
    r.outcome = c.outcome.asStr := by
  unfold parseColumns at h
  simp only [Option.bind_eq_bind, Option.bind_eq_some_iff] at h
  obtain ⟨_, -, o, ho, _, -, h⟩ := h
  split at h
  · cases h
  · rw [Option.bind_eq_some_iff] at h
    obtain ⟨_, -, heq⟩ := h
    cases heq
    exact outcomeFromStrOpt_eq_some ho

/-- A silent decision names a row on the list. -/
theorem warning_covers {secret : Option Policy.SecretRow}
    (hd : Silent (evaluate (clientInput client) secret tags req (readableRows url policies) now).decision) :
    ∃ row ∈ policiesActivatedByVetting policies req.secretName tags now,
      (evaluate (clientInput client) secret tags req (readableRows url policies) now).policyId = some row.id := by
  obtain ⟨p, ⟨hp, happ, -, -⟩, heval⟩ := Policy.evaluate_silent hd
  rw [heval] at hd ⊢
  obtain ⟨r, hr, hcols⟩ := List.mem_filterMap.1 hp
  obtain ⟨c, hc, rfl⟩ := Option.map_eq_some_iff.1 hcols
  rw [isApplicable_policyRow hc] at happ
  obtain ⟨hlive, hselects⟩ := selects_of_applicable happ
  refine ⟨r, mem_policiesActivatedByVetting.2 ⟨hr, ?_, hlive, hselects⟩, rfl⟩
  -- only a row of a silent outcome makes a silent decision
  have hout : (policyRow r c).outcome = .autoApprove ∨ (policyRow r c).outcome = .notifyOnly := by
    rcases hd with hd | hd
    · exact Or.inl ((Policy.clampedDecision_eq_iff (o := .autoApprove) (Or.inl rfl)).1 hd).1
    · exact Or.inr ((Policy.clampedDecision_eq_iff (o := .notifyOnly) (Or.inr rfl)).1 hd).1
  rw [outcome_of_parseColumns hc]
  rcases hout with hout | hout
  · exact Or.inl (congrArg Outcome.asStr hout)
  · exact Or.inr (congrArg Outcome.asStr hout)

/-- The secret, reviewed or not. -/
def reviewed (secret : Db.SecretRow) (vetted : Bool) : Db.SecretRow := { secret with operatorVetted := vetted }

/-- Where a reviewed secret is not released silently, the review made no difference to the winner's decision. -/
theorem clampedDecision_reviewed {secret : Db.SecretRow} {p : Policy.PolicyRow}
    (h : ¬ Silent (Policy.clampedDecision (some (secretInput (reviewed secret true))) req p)) :
    Policy.clampedDecision (some (secretInput (reviewed secret false))) req p =
      Policy.clampedDecision (some (secretInput (reviewed secret true))) req p := by
  have hun : Policy.clampedDecision (some (secretInput (reviewed secret false))) req p = .requireApproval := by
    apply Policy.clampedDecision_of_clamped
    rintro ⟨⟨row, hrow, hvet⟩, -⟩
    cases hrow
    cases hvet
  rw [hun]
  cases hd : Policy.clampedDecision (some (secretInput (reviewed secret true))) req p with
  | deny reason => exact absurd hd (Policy.clampedDecision_ne_deny reason)
  | requireApproval => rfl
  | notifyOnly => exact absurd (Or.inr hd) h
  | autoApprove => exact absurd (Or.inl hd) h

/-- Where a reviewed secret is not released silently, the review made no difference. -/
theorem evaluate_reviewed {client : Policy.ClientRow} {secret : Db.SecretRow} {rows : List Policy.PolicyRow}
    (h : ¬ Silent (evaluate client (some (secretInput (reviewed secret true))) tags req rows now).decision) :
    evaluate client (some (secretInput (reviewed secret false))) tags req rows now =
      evaluate client (some (secretInput (reviewed secret true))) tags req rows now := by
  have hcap : Policy.hardCap client (some (secretInput (reviewed secret false))) req =
      Policy.hardCap client (some (secretInput (reviewed secret true))) req := rfl
  unfold evaluate at h ⊢
  rw [hcap]
  cases hc : Policy.hardCap client (some (secretInput (reviewed secret true))) req with
  | some reason => rfl
  | none =>
      rw [hc] at h
      dsimp only at h ⊢
      split
      · rfl
      · rename_i hden
        rw [hden] at h
        dsimp only at h
        split
        · rename_i p hp
          rw [hp] at h
          rw [clampedDecision_reviewed h]
        · rfl

/-- An empty list: reviewing the secret changes no decision on it. -/
theorem decideStored_reviewed {secret : Db.SecretRow} (hname : req.secretName = secret.name)
    (hnil : policiesActivatedByVetting policies secret.name tags now = []) :
    decideStored url client (some (reviewed secret true)) tags req policies now =
      decideStored url client (some (reviewed secret false)) tags req policies now := by
  refine decideStored_congr (evaluate_reviewed ?_).symm
  intro hsilent
  obtain ⟨row, hrow, -⟩ := warning_covers hsilent
  rw [hname, hnil] at hrow
  cases hrow

/-- And in the store: once the secret was marked as reviewed, every request is decided as before, whatever secret it
asks for. -/
theorem decideIn_vetted {s s' : Store} {secretId : Uuid} {reviewedVersion : Int} {actor : String} {vettedAt : DateTime}
    {reply : Reply} (h : (markSecretVetted secretId reviewedVersion actor vettedAt).exec s = .ok (reply, s'))
    (hnil : ∀ row ∈ s.secrets.rows, row.id = secretId →
      policiesActivatedByVetting policies row.name (s.tagsOf secretId) now = []) :
    decideIn s' url client req policies now = decideIn s url client req policies now := by
  obtain ⟨_, -, -, hs'⟩ := markSecretVetted_ok h
  have hfind : getSecretByName s' req.secretName = (getSecretByName s req.secretName).map fun row =>
      if vettable secretId reviewedVersion row then row.vet vettedAt else row := by
    rw [getSecretByName, hs']
    exact @Table.find?_update _ _ s.secrets _ (·.name == req.secretName) _ (SecretRow.key_vet vettedAt) fun _ => rfl
  have htags : ∀ id, s'.tagsOf id = s.tagsOf id := by
    intro id
    rw [hs']
    rfl
  unfold decideIn
  rw [hfind]
  cases hsecret : getSecretByName s req.secretName with
  | none => rfl
  | some row =>
      have hrow : row ∈ s.secrets.rows := List.mem_of_find?_eq_some hsecret
      have hname : req.secretName = row.name := by
        rw [getSecretByName] at hsecret
        have hmatch := List.find?_some hsecret
        exact (beq_iff_eq.1 hmatch).symm
      simp only [Option.map_some, htags]
      cases hvet : vettable secretId reviewedVersion row with
      | false => rfl
      | true =>
          have hfields := hvet
          rw [vettable, Bool.and_eq_true, Bool.and_eq_true, beq_iff_eq, Bool.not_eq_true'] at hfields
          have hid : row.id = secretId := hfields.1.1
          have hun : reviewed row false = row := by
            rw [reviewed, ← hfields.1.2]
          have hdecide := @decideStored_reviewed url client _ _ _ _ _ hname (hnil row hrow hid)
          rw [hun, ← hid] at hdecide
          exact hdecide

/-- The page's list is a superset of what its button does: a request that would be released without a human once the
secret is reviewed, and is not before, is released by a row on the list, the one that is reported; and where the list is
empty, marking the secret as reviewed changes the decision of no request. -/
theorem vetting_warning (url : UrlHost) (policies : List Db.PolicyRow) (now : DateTime) :
    (∀ (secret : Db.SecretRow) (tags : List String) (client : Db.ClientRow) (req : RequestedGrant),
      req.secretName = secret.name → ∀ before after,
        decideStored url client (some (reviewed secret false)) tags req policies now = .ok before →
        decideStored url client (some (reviewed secret true)) tags req policies now = .ok after →
        ¬ Silent before.decision → Silent after.decision →
          (∃ row ∈ policiesActivatedByVetting policies secret.name tags now, after.policyId = some row.id) ∧
            ((policies.map (·.id)).Nodup → ∀ row ∈ policies, after.policyId = some row.id →
              row ∈ policiesActivatedByVetting policies secret.name tags now)) ∧
      ∀ (s s' : Store) (secret : Db.SecretRow), secret ∈ s.secrets.rows →
        (∃ version actor vettedAt reply, (markSecretVetted secret.id version actor vettedAt).exec s = .ok (reply, s')) →
        policiesActivatedByVetting policies secret.name (s.tagsOf secret.id) now = [] →
          ∀ client req, decideIn s' url client req policies now = decideIn s url client req policies now := by
  refine ⟨?_, ?_⟩
  · intro secret tags client req hname before after _ hafter _ hsilent
    rw [decideStored_eq_ok hafter] at hsilent ⊢
    obtain ⟨row, hrow, hid⟩ := warning_covers hsilent
    rw [hname] at hrow
    refine ⟨⟨row, hrow, hid⟩, ?_⟩
    intro hids other hother hother_id
    have hsame : row.id = other.id := Option.some.inj (hid.symm.trans hother_id)
    rw [← List.inj_on_of_nodup_map hids (mem_policiesActivatedByVetting.1 hrow).1 hother hsame]
    exact hrow
  · intro s s' secret hsecret hvet hnil client req
    obtain ⟨version, actor, vettedAt, reply, hexec⟩ := hvet
    refine decideIn_vetted hexec ?_
    intro row hrow hid
    have hsame : row = secret := by
      apply Table.eq_of_clash hrow hsecret
      rw [Keys.pair_clashes]
      exact Or.inl hid
    rw [hsame]
    exact hnil

end

/-- A deposit nobody has reviewed, a client's request for it, and a standing rule for one tag of it. -/
def depositedToken : Db.SecretRow :=
  ⟨2, "agent-token", "", 2, "bearer", none, none, 1, true, false, false, DateTime.ofSeconds 1000, DateTime.ofSeconds 1000⟩

def readerRow : Db.ClientRow := ⟨7, "agent", 2, ["cli-read"], true, true⟩

def tokenRead : RequestedGrant := ⟨"agent-token", .cliRead, ⟨[], [], [], 600, some 1⟩⟩

def tagRule : Db.PolicyRow :=
  ⟨9, none, none, some "prod", "cli-read", "notify-only", 0, .arr [], [], [], none, none, none, "operator",
    DateTime.ofSeconds 1000, false⟩

def depositStore : Store := { Store.empty with secrets := ⟨[depositedToken], List.pairwise_singleton _ _⟩ }

/-- The rule is on the list for a secret with its tag; for one without, reviewing changes nothing. -/
theorem vetting_warning_tag :
    tagRule ∈ policiesActivatedByVetting [tagRule] "agent-token" ["prod"] (DateTime.ofSeconds 2000) ∧
      ∃ s', (∃ reply, (markSecretVetted 2 1 "operator" (DateTime.ofSeconds 1500)).exec depositStore = .ok (reply, s')) ∧
        decideIn s' plainUrl readerRow tokenRead [tagRule] (DateTime.ofSeconds 2000) =
          decideIn depositStore plainUrl readerRow tokenRead [tagRule] (DateTime.ofSeconds 2000) := by
  have hspec := vetting_warning plainUrl [tagRule] (DateTime.ofSeconds 2000)
  refine ⟨?_, ?_⟩
  · have hbefore : (decideStored plainUrl readerRow (some (reviewed depositedToken false)) ["prod"] tokenRead [tagRule]
        (DateTime.ofSeconds 2000)).toOption = some ⟨.requireApproval, none, some 9⟩ := by decide +kernel
    have hafter : (decideStored plainUrl readerRow (some (reviewed depositedToken true)) ["prod"] tokenRead [tagRule]
        (DateTime.ofSeconds 2000)).toOption = some ⟨.notifyOnly, none, some 9⟩ := by decide +kernel
    have hok : ∀ {x : Except ApiFailure Evaluation} {e}, x.toOption = some e → x = .ok e := by
      intro x e h
      cases x with
      | error _ => cases h
      | ok _ =>
          cases h
          rfl
    have hnot : ¬ Silent (Evaluation.mk .requireApproval none (some 9)).decision := by
      intro h
      rcases h with h | h <;> cases h
    have h := hspec.1 depositedToken ["prod"] readerRow tokenRead rfl _ _ (hok hbefore) (hok hafter) hnot (Or.inr rfl)
    exact h.2 (by decide) tagRule (List.mem_singleton_self _) rfl
  · refine ⟨_, ⟨_, rfl⟩, ?_⟩
    exact hspec.2 depositStore _ depositedToken (List.mem_singleton_self _) ⟨1, "operator", _, _, rfl⟩
      (by decide +kernel) readerRow tokenRead

end Keychute.Ui
