import Keychute.Types
import Keychute.Paths
import Keychute.Lib.MaxBy
import Mathlib.Data.Prod.Lex
import Mathlib.Algebra.Order.Ring.Int
import Mathlib.Order.Fin.Basic
import Mathlib.Data.List.Nodup

/-!
# The policy engine (`server/src/policy`)

* `evaluate` : the decision on a requested grant, a pure function of rows the API layer maps from the database;
* `Refused`, `Candidate`, `IsWinner` : when it denies, which rows can decide otherwise, and which one does;
* `evaluate_of_refused`, `evaluate_of_winner`, `evaluate_of_no_candidate` : the three ways it ends;
* `evaluate_characterization` : the decision as an equivalence, and its independence of the order of the rows.
-/

namespace Keychute
open Keychute.Lib

/-! ## Rows and results -/

/-- Longest method token the server accepts. -/
def maxHttpMethodLen : Nat := 64

/-- `tchar` of RFC 9110. -/
def isTchar (b : UInt8) : Bool :=
  (48 ≤ b && b ≤ 57) || (65 ≤ b && b ≤ 90) || (97 ≤ b && b ≤ 122) || b == 33 || (35 ≤ b && b ≤ 39) || b == 42 ||
    b == 43 || b == 45 || b == 46 || b == 94 || b == 95 || b == 96 || b == 124 || b == 126

/-- A non-empty RFC 9110 `token` of reasonable length. -/
def isValidHttpMethod (s : String) : Bool :=
  !(bytes s).isEmpty && byteLen s ≤ maxHttpMethodLen && (bytes s).all isTchar

theorem isTchar_upperByte {b : UInt8} (h : isTchar b = true) : isTchar (upperByte b) = true := by
  have key : ∀ n : Fin 256, isTchar ⟨⟨n⟩⟩ = true → isTchar (upperByte ⟨⟨n⟩⟩) = true := by decide +kernel
  exact key b.toBitVec.toFin h

theorem isValidHttpMethod_upper {s : String} (h : isValidHttpMethod s = true) :
    isValidHttpMethod (toAsciiUppercase s) = true := by
  simp only [isValidHttpMethod, byteLen, bytes_toAsciiUppercase, Bool.and_eq_true, List.length_map, List.isEmpty_map,
    List.all_eq_true, List.mem_map, forall_exists_index, and_imp, forall_apply_eq_imp_iff₂] at h ⊢
  exact ⟨h.1, fun b hb => isTchar_upperByte (h.2 b hb)⟩

namespace Policy

inductive Outcome where
  | autoApprove | notifyOnly | requireApproval | deny
  deriving DecidableEq, Repr

namespace Outcome

def fromStrOpt (s : String) : Option Outcome :=
  if s = "auto-approve" then some autoApprove
  else if s = "notify-only" then some notifyOnly
  else if s = "require-approval" then some requireApproval
  else if s = "deny" then some deny
  else none

def asStr : Outcome → String
  | autoApprove => "auto-approve" | notifyOnly => "notify-only"
  | requireApproval => "require-approval" | deny => "deny"

/-- Restrictiveness rank for tie-breaking: higher is more restrictive. -/
def restrictiveness : Outcome → Nat
  | autoApprove => 0 | notifyOnly => 1 | requireApproval => 2 | deny => 3

theorem fromStrOpt_asStr (o : Outcome) : fromStrOpt o.asStr = some o := by cases o <;> decide

end Outcome

/-- A row of the `clients` table, as the policy engine needs it. -/
structure ClientRow where
  name : String
  enabled : Bool
  maxTier : Tier
  allowedMechanisms : List Mechanism

/-- A row of the `secrets` table, as the policy engine needs it. -/
structure SecretRow where
  name : String
  enabled : Bool
  maxTier : Tier
  operatorVetted : Bool

/-- A row of the `policies` table; an empty list or `none` is unconstrained. -/
structure PolicyRow where
  id : Uuid
  clientName : Option String
  secretName : Option String
  secretTag : Option String
  mechanism : Mechanism
  outcome : Outcome
  priority : Int
  origins : List Origin
  methods : List String
  pathPrefixes : List String
  maxTtlSeconds : Option Nat
  maxUses : Option Nat
  notAfter : Option DateTime
  deriving DecidableEq

/-- The grant a client is asking for. -/
structure RequestedGrant where
  secretName : String
  mechanism : Mechanism
  constraints : Constraints

inductive Decision where
  | deny (reason : String)
  | requireApproval
  | notifyOnly
  | autoApprove
  deriving DecidableEq, Repr

/-- The decision a winning row's outcome stands for. -/
def Outcome.decision : Outcome → Decision
  | .autoApprove => .autoApprove
  | .notifyOnly => .notifyOnly
  | .requireApproval => .requireApproval
  | .deny => .requireApproval -- unreachable in the source: deny rows never win

/-- The decision, with the identity and the expiry of the row that produced it. -/
structure Evaluation where
  decision : Decision
  policyNotAfter : Option DateTime
  policyId : Option Uuid
  deriving DecidableEq

def Evaluation.deny (reason : String) : Evaluation := ⟨.deny reason, none, none⟩

/-! ## Matching -/

/-- The row matches the client, secret and mechanism of the request and has not expired. -/
def isApplicable (p : PolicyRow) (client : ClientRow) (req : RequestedGrant) (secretTags : List String)
    (now : DateTime) : Bool :=
  if p.mechanism ≠ req.mechanism then false
  else if p.notAfter.any (· ≤ now) then false
  else if p.clientName.any (· ≠ client.name) then false
  else
    match p.secretName, p.secretTag with
    | some name, _ => name == req.secretName
    | none, some tag => secretTags.any (· == tag)
    | none, none => true

/-- Overlap rule for deny rows: every dimension intersects. Prefixes are compared ASCII-case-insensitively. -/
def scopesOverlap (p : PolicyRow) (req : Constraints) : Bool :=
  let originsOverlap := p.origins.isEmpty || req.origins.isEmpty ||
    p.origins.any fun po => req.origins.any fun ro => po.sameTarget ro
  let methodsOverlap := p.methods.isEmpty || req.methods.isEmpty ||
    p.methods.any fun pm => req.methods.any fun rm => eqIgnoreAsciiCase pm rm
  let prefixesOverlap := p.pathPrefixes.isEmpty || req.pathPrefixes.isEmpty ||
    p.pathPrefixes.any fun pp => req.pathPrefixes.any fun rp =>
      prefixMatches (toAsciiLowercase pp) (toAsciiLowercase rp) ||
        prefixMatches (toAsciiLowercase rp) (toAsciiLowercase pp)
  originsOverlap && methodsOverlap && prefixesOverlap

/-- One dimension of the subset rule: an unconstrained request only fits an unconstrained row. -/
def listSubset {α : Type} (row req : List α) (covers : α → α → Bool) : Bool :=
  if req.isEmpty then row.isEmpty
  else row.isEmpty || req.all fun r => row.any fun p => covers p r

/-- Subset rule for the other rows: the request fits within the row in every dimension. -/
def requestIsSubset (p : PolicyRow) (req : Constraints) : Bool :=
  if !listSubset p.origins req.origins Origin.sameTarget then false
  else if !listSubset p.methods req.methods eqIgnoreAsciiCase then false
  else if !listSubset p.pathPrefixes req.pathPrefixes prefixMatches then false
  else if p.maxTtlSeconds.any (req.ttlSeconds > ·) then false
  else
    match req.maxUses, p.maxUses with
    | _, none => true
    | none, some _ => false
    | some r, some m => if r > m then false else true

/-- The type of `precedence_key`. -/
abbrev PrecedenceKey : Type := ℕ ×ₗ ℕ ×ₗ ℤ ×ₗ ℕ ×ₗ DateTimeᵒᵈ ×ₗ Uuid

/-- Client-specific beats wildcard; exact secret beats tag beats wildcard; then priority, the most restrictive
outcome, the earlier expiry (no expiry sorts as latest) and the row id. -/
def precedenceKey (p : PolicyRow) : PrecedenceKey :=
  let clientSpec := if p.clientName.isSome then 1 else 0
  let secretSpec := if p.secretName.isSome then 2 else if p.secretTag.isSome then 1 else 0
  toLex (clientSpec, toLex (secretSpec, toLex (p.priority, toLex (p.outcome.restrictiveness,
    toLex (OrderDual.toDual (p.notAfter.getD DateTime.maxUtc), p.id)))))

/-! ## Evaluation -/

/-- The hard caps: why the request is denied whatever the rows say. -/
def hardCap (client : ClientRow) (secret : Option SecretRow) (req : RequestedGrant) : Option String :=
  let tier := req.mechanism.tier
  if !client.enabled then some "client is disabled"
  else if !client.allowedMechanisms.contains req.mechanism then
    some ("mechanism " ++ req.mechanism.asStr ++ " not allowed for client " ++ client.name)
  else if tier > client.maxTier then
    some ("tier " ++ tier.asStr ++ " exceeds client max tier " ++ client.maxTier.asStr)
  else
    match secret with
    | none => none
    | some s =>
      if !s.enabled then some "secret is disabled"
      else if tier > s.maxTier then
        some ("tier " ++ tier.asStr ++ " exceeds secret max tier " ++ s.maxTier.asStr)
      else none

/-- The decision a winning row gives, after the two clamps to at most `RequireApproval`: a secret that does not
exist yet or that no operator has vetted, and a brokered row that names no origin. -/
def clampedDecision (secret : Option SecretRow) (req : RequestedGrant) (p : PolicyRow) : Decision :=
  let decision := p.outcome.decision
  let unvetted := match secret with
    | none => true
    | some s => !s.operatorVetted
  let silent (d : Decision) : Bool := d == .autoApprove || d == .notifyOnly
  let decision := if unvetted && silent decision then .requireApproval else decision
  if req.mechanism == .brokered && p.origins.isEmpty && silent decision then .requireApproval else decision

/-- Evaluate a requested grant against the policy table. -/
def evaluate (client : ClientRow) (secret : Option SecretRow) (secretTags : List String) (req : RequestedGrant)
    (policies : List PolicyRow) (now : DateTime) : Evaluation :=
  match hardCap client secret req with
  | some reason => .deny reason
  | none =>
    let applicable := policies.filter (isApplicable · client req secretTags now)
    match (applicable.filter (·.outcome == .deny)).find? (scopesOverlap · req.constraints) with
    | some p => ⟨.deny ("denied by policy " ++ uuidDisplay p.id), p.notAfter, some p.id⟩
    | none =>
      match maxByKey precedenceKey
          (applicable.filter fun p => p.outcome != .deny && requestIsSubset p req.constraints) with
      | some p => ⟨clampedDecision secret req p, p.notAfter, some p.id⟩
      | none => ⟨.requireApproval, none, none⟩

/-! ## When it denies, and which row decides otherwise -/

section Spec
variable (client : ClientRow) (secret : Option SecretRow) (tags : List String) (req : RequestedGrant)
  (policies : List PolicyRow) (now : DateTime)

/-- A hard cap fails. -/
def Capped : Prop :=
  client.enabled = false ∨ req.mechanism ∉ client.allowedMechanisms ∨ client.maxTier < req.mechanism.tier ∨
    ∃ s, secret = some s ∧ (s.enabled = false ∨ s.maxTier < req.mechanism.tier)

/-- An applicable deny row that overlaps the request. -/
def Denier (p : PolicyRow) : Prop :=
  p ∈ policies ∧ isApplicable p client req tags now = true ∧ p.outcome = .deny ∧
    scopesOverlap p req.constraints = true

/-- The request is denied: by a hard cap or by a deny row. -/
def Refused : Prop := Capped client secret req ∨ ∃ p, Denier client tags req policies now p

/-- An applicable row, not a deny row, that the request is a subset of. -/
def Candidate (p : PolicyRow) : Prop :=
  p ∈ policies ∧ isApplicable p client req tags now = true ∧ p.outcome ≠ .deny ∧
    requestIsSubset p req.constraints = true

/-- The candidate whose key is strictly greatest. -/
def IsWinner (p : PolicyRow) : Prop :=
  Candidate client tags req policies now p ∧
    ∀ q, Candidate client tags req policies now q → q ≠ p → precedenceKey q < precedenceKey p

/-- An operator has vetted the secret, and the row `p` says where a brokered credential may go. -/
def Unclamped (p : PolicyRow) : Prop :=
  (∃ s, secret = some s ∧ s.operatorVetted = true) ∧ (req.mechanism = .brokered → p.origins ≠ [])

end Spec

section Eval
variable {client : ClientRow} {secret : Option SecretRow} {tags : List String} {req : RequestedGrant}
  {policies : List PolicyRow} {now : DateTime}

theorem precedenceKey_id {p q : PolicyRow} (h : precedenceKey p = precedenceKey q) : p.id = q.id := by
  simp only [precedenceKey, EmbeddingLike.apply_eq_iff_eq, Prod.mk.injEq] at h
  exact h.2.2.2.2.2

theorem id_inj_of_nodup (hids : (policies.map PolicyRow.id).Nodup) {p q : PolicyRow} (hp : p ∈ policies)
    (hq : q ∈ policies) (h : p.id = q.id) : p = q :=
  List.inj_on_of_nodup_map hids hp hq h

theorem hardCap_eq_none : hardCap client secret req = none ↔ ¬ Capped client secret req := by
  unfold hardCap Capped
  cases secret with
  | none =>
      simp only
      split_ifs with h1 h2 h3
      · simp_all
      · simp_all
      · simp_all
      · simp_all
  | some s =>
      simp only [Option.some.injEq, exists_eq_left']
      split_ifs with h1 h2 h3 h4 h5
      · simp_all
      · simp_all
      · simp_all
      · simp_all
      · simp_all
      · simp_all

theorem mem_candidates {p : PolicyRow} :
    p ∈ (policies.filter (isApplicable · client req tags now)).filter
        (fun p => p.outcome != .deny && requestIsSubset p req.constraints) ↔
      Candidate client tags req policies now p := by
  simp only [Candidate, List.mem_filter, Bool.and_eq_true, bne_iff_ne, and_assoc]

theorem findDenier_eq_none :
    ((policies.filter (isApplicable · client req tags now)).filter (·.outcome == .deny)).find?
        (scopesOverlap · req.constraints) = none ↔ ¬ ∃ p, Denier client tags req policies now p := by
  rw [List.find?_eq_none]
  simp only [List.mem_filter, beq_iff_eq, Denier]
  constructor
  · intro h ⟨p, hp, happ, hd, ho⟩
    exact h p ⟨⟨hp, happ⟩, hd⟩ ho
  · intro h p hp ho
    exact h ⟨p, hp.1.1, hp.1.2, hp.2, ho⟩

theorem evaluate_of_refused (h : Refused client secret tags req policies now) :
    ∃ reason, (evaluate client secret tags req policies now).decision = .deny reason := by
  unfold evaluate
  cases hc : hardCap client secret req with
  | some reason => exact ⟨reason, rfl⟩
  | none =>
      simp only
      split
      · exact ⟨_, rfl⟩
      · rename_i hfind
        rw [findDenier_eq_none] at hfind
        rw [hardCap_eq_none] at hc
        exact absurd h (not_or.2 ⟨hc, hfind⟩)

theorem evaluate_of_not_refused (h : ¬ Refused client secret tags req policies now) :
    evaluate client secret tags req policies now =
      match maxByKey precedenceKey ((policies.filter (isApplicable · client req tags now)).filter
          fun p => p.outcome != .deny && requestIsSubset p req.constraints) with
      | some p => ⟨clampedDecision secret req p, p.notAfter, some p.id⟩
      | none => ⟨.requireApproval, none, none⟩ := by
  obtain ⟨hcap, hden⟩ := not_or.1 h
  unfold evaluate
  rw [hardCap_eq_none.2 hcap]
  simp only
  rw [findDenier_eq_none.2 hden]

/-- Without a denial and without a candidate, a human decides. -/
theorem evaluate_of_no_candidate (h : ¬ Refused client secret tags req policies now)
    (hnone : ¬ ∃ p, Candidate client tags req policies now p) :
    evaluate client secret tags req policies now = ⟨.requireApproval, none, none⟩ := by
  rw [evaluate_of_not_refused h]
  have hnil : (policies.filter (isApplicable · client req tags now)).filter
      (fun p => p.outcome != .deny && requestIsSubset p req.constraints) = [] := by
    rw [List.eq_nil_iff_forall_not_mem]
    intro p hp
    exact hnone ⟨p, mem_candidates.1 hp⟩
  rw [hnil]
  rfl

theorem candidates_key_inj (hids : (policies.map PolicyRow.id).Nodup) {p q : PolicyRow}
    (hp : Candidate client tags req policies now p) (hq : Candidate client tags req policies now q)
    (h : precedenceKey p = precedenceKey q) : p = q :=
  id_inj_of_nodup hids hp.1 hq.1 (precedenceKey_id h)

theorem maxByKey_eq_winner (hids : (policies.map PolicyRow.id).Nodup) {p : PolicyRow} :
    maxByKey precedenceKey ((policies.filter (isApplicable · client req tags now)).filter
        fun p => p.outcome != .deny && requestIsSubset p req.constraints) = some p ↔
      IsWinner client tags req policies now p := by
  rw [maxByKey_eq_some_iff]
  · simp only [mem_candidates, IsWinner]
  · intro p hp q hq h
    exact candidates_key_inj hids (mem_candidates.1 hp) (mem_candidates.1 hq) h

/-- The winner's outcome, clamped, is the decision; its id and expiry are reported. -/
theorem evaluate_of_winner (hids : (policies.map PolicyRow.id).Nodup)
    (h : ¬ Refused client secret tags req policies now) {p : PolicyRow}
    (hp : IsWinner client tags req policies now p) :
    evaluate client secret tags req policies now = ⟨clampedDecision secret req p, p.notAfter, some p.id⟩ := by
  rw [evaluate_of_not_refused h, (maxByKey_eq_winner hids).2 hp]

theorem exists_winner (hids : (policies.map PolicyRow.id).Nodup)
    (h : ∃ p, Candidate client tags req policies now p) : ∃ p, IsWinner client tags req policies now p := by
  obtain ⟨q, hq⟩ := h
  cases hm : maxByKey precedenceKey ((policies.filter (isApplicable · client req tags now)).filter
      fun p => p.outcome != .deny && requestIsSubset p req.constraints) with
  | some p => exact ⟨p, (maxByKey_eq_winner hids).1 hm⟩
  | none =>
      rw [maxByKey_eq_none] at hm
      have := mem_candidates.2 hq
      rw [hm] at this
      cases this

theorem IsWinner.unique {p q : PolicyRow} (hp : IsWinner client tags req policies now p)
    (hq : IsWinner client tags req policies now q) : p = q := by
  by_contra hne
  exact lt_asymm (hp.2 q hq.1 (Ne.symm hne)) (hq.2 p hp.1 hne)

theorem clampedDecision_of_unclamped {p : PolicyRow} (h : Unclamped secret req p) :
    clampedDecision secret req p = p.outcome.decision := by
  obtain ⟨⟨s, rfl, hv⟩, hb⟩ := h
  have hb' : (req.mechanism == .brokered && p.origins.isEmpty) = false := by
    rw [Bool.and_eq_false_iff, beq_eq_false_iff_ne, List.isEmpty_eq_false_iff]
    exact imp_iff_not_or.1 hb
  simp [clampedDecision, hv, hb']

theorem clampedDecision_of_clamped {p : PolicyRow} (h : ¬ Unclamped secret req p) :
    clampedDecision secret req p = .requireApproval := by
  unfold clampedDecision
  by_cases hv : ∃ s, secret = some s ∧ s.operatorVetted = true
  · have hb : (req.mechanism == .brokered && p.origins.isEmpty) = true := by
      by_contra hb
      refine h ⟨hv, fun hm ho => hb ?_⟩
      simp [hm, ho]
    obtain ⟨s, rfl, hs⟩ := hv
    cases p.outcome <;> simp [Outcome.decision, hb, hs]
  · cases secret with
    | none => cases p.outcome <;> simp [Outcome.decision]
    | some s =>
        have hv' : s.operatorVetted = false := by
          by_contra hs
          exact hv ⟨s, rfl, by simpa using hs⟩
        cases p.outcome <;> simp [Outcome.decision, hv']

/-- A silent decision is the row's own, unclamped. -/
theorem clampedDecision_eq_iff {p : PolicyRow} {o : Outcome} (ho : o = .autoApprove ∨ o = .notifyOnly) :
    clampedDecision secret req p = o.decision ↔ p.outcome = o ∧ Unclamped secret req p := by
  by_cases h : Unclamped secret req p
  · rw [clampedDecision_of_unclamped h]
    rcases ho with rfl | rfl <;> cases p.outcome <;> simp [Outcome.decision, h]
  · rw [clampedDecision_of_clamped h]
    rcases ho with rfl | rfl <;> simp [Outcome.decision, h]

theorem clampedDecision_ne_deny {p : PolicyRow} (reason : String) : clampedDecision secret req p ≠ .deny reason := by
  by_cases h : Unclamped secret req p
  · rw [clampedDecision_of_unclamped h]
    cases p.outcome <;> simp [Outcome.decision]
  · rw [clampedDecision_of_clamped h]
    simp

/-- Whether the request is refused depends on the rows only as a set. -/
theorem refused_perm {policies' : List PolicyRow} (h : policies.Perm policies') :
    Refused client secret tags req policies' now ↔ Refused client secret tags req policies now := by
  simp only [Refused, Denier, h.mem_iff]

theorem isDeny_iff_refused : (∃ reason, (evaluate client secret tags req policies now).decision = .deny reason) ↔
    Refused client secret tags req policies now := by
  refine ⟨fun ⟨reason, hr⟩ => ?_, evaluate_of_refused⟩
  by_contra h
  rw [evaluate_of_not_refused h] at hr
  split at hr
  · exact clampedDecision_ne_deny reason hr
  · cases hr

/-- A decision that a winning row must have made is the winner's. -/
theorem decision_iff_winner (hids : (policies.map PolicyRow.id).Nodup)
    (h : ¬ Refused client secret tags req policies now) {d : Decision} (hd : d ≠ .requireApproval) :
    (evaluate client secret tags req policies now).decision = d ↔
      ∃ p, IsWinner client tags req policies now p ∧ clampedDecision secret req p = d := by
  by_cases hc : ∃ p, Candidate client tags req policies now p
  · obtain ⟨p, hp⟩ := exists_winner hids hc
    rw [evaluate_of_winner hids h hp]
    refine ⟨fun hd => ⟨p, hp, hd⟩, fun ⟨q, hq, hqd⟩ => ?_⟩
    rw [← hqd, hp.unique hq]
  · rw [evaluate_of_no_candidate h hc]
    refine ⟨fun hreq => absurd hreq.symm hd, fun ⟨q, hq, _⟩ => ?_⟩
    exact absurd ⟨q, hq.1⟩ hc

theorem evaluate_perm (hids : (policies.map PolicyRow.id).Nodup) {policies' : List PolicyRow}
    (hperm : policies.Perm policies') (h : ¬ Refused client secret tags req policies now) :
    evaluate client secret tags req policies' now = evaluate client secret tags req policies now := by
  have h' : ¬ Refused client secret tags req policies' now := fun hr => h ((refused_perm hperm).1 hr)
  have hp := (hperm.filter (isApplicable · client req tags now)).filter
    (fun p => p.outcome != .deny && requestIsSubset p req.constraints)
  rw [evaluate_of_not_refused h, evaluate_of_not_refused h', maxByKey_perm hp]
  intro p hp q hq heq
  exact candidates_key_inj hids (mem_candidates.1 hp) (mem_candidates.1 hq) heq

/-- A decision taken without a human was made by a candidate row, which is reported. -/
theorem evaluate_silent (h : (evaluate client secret tags req policies now).decision = .autoApprove ∨
    (evaluate client secret tags req policies now).decision = .notifyOnly) :
    ∃ p, Candidate client tags req policies now p ∧
      evaluate client secret tags req policies now = ⟨clampedDecision secret req p, p.notAfter, some p.id⟩ := by
  have hr : ¬ Refused client secret tags req policies now := by
    intro hr
    obtain ⟨reason, hd⟩ := evaluate_of_refused hr
    rw [hd] at h
    rcases h with h | h <;> cases h
  rw [evaluate_of_not_refused hr] at h ⊢
  split
  · rename_i p hp
    exact ⟨p, mem_candidates.1 (maxByKey_spec hp).1, rfl⟩
  · rename_i hp
    rw [hp] at h
    rcases h with h | h <;> cases h

end Eval

/-- What `evaluate` decides, for rows with distinct ids: it denies exactly when the request is refused; else the
winner decides, clamped, and is reported; and the order of the rows does not matter. -/
theorem evaluate_characterization (client : ClientRow) (secret : Option SecretRow) (tags : List String)
    (req : RequestedGrant) (policies : List PolicyRow) (now : DateTime)
    (hids : (policies.map PolicyRow.id).Nodup) :
    ((∃ reason, (evaluate client secret tags req policies now).decision = .deny reason) ↔
      Refused client secret tags req policies now) ∧
    (¬ Refused client secret tags req policies now →
      ((evaluate client secret tags req policies now).decision = .autoApprove ↔
        ∃ p, IsWinner client tags req policies now p ∧ p.outcome = .autoApprove ∧ Unclamped secret req p) ∧
      ((evaluate client secret tags req policies now).decision = .notifyOnly ↔
        ∃ p, IsWinner client tags req policies now p ∧ p.outcome = .notifyOnly ∧ Unclamped secret req p) ∧
      ((evaluate client secret tags req policies now).decision = .requireApproval ↔
        ¬ ∃ p, IsWinner client tags req policies now p ∧
          (p.outcome = .autoApprove ∨ p.outcome = .notifyOnly) ∧ Unclamped secret req p) ∧
      (∀ p, IsWinner client tags req policies now p →
        (evaluate client secret tags req policies now).policyId = some p.id ∧
          (evaluate client secret tags req policies now).policyNotAfter = p.notAfter) ∧
      ((∃ p, Candidate client tags req policies now p) → ∃! p, IsWinner client tags req policies now p)) ∧
    ∀ policies', policies.Perm policies' →
      ((∃ reason, (evaluate client secret tags req policies' now).decision = .deny reason) ↔
        ∃ reason, (evaluate client secret tags req policies now).decision = .deny reason) ∧
      ((¬ ∃ reason, (evaluate client secret tags req policies now).decision = .deny reason) →
        evaluate client secret tags req policies' now = evaluate client secret tags req policies now) := by
  refine ⟨isDeny_iff_refused, fun h => ?_, fun policies' hperm => ?_⟩
  · have hauto : (evaluate client secret tags req policies now).decision = .autoApprove ↔
        ∃ p, IsWinner client tags req policies now p ∧ p.outcome = .autoApprove ∧ Unclamped secret req p := by
      rw [decision_iff_winner hids h (by simp)]
      simp only [← clampedDecision_eq_iff (Or.inl rfl), Outcome.decision]
    have hnotify : (evaluate client secret tags req policies now).decision = .notifyOnly ↔
        ∃ p, IsWinner client tags req policies now p ∧ p.outcome = .notifyOnly ∧ Unclamped secret req p := by
      rw [decision_iff_winner hids h (by simp)]
      simp only [← clampedDecision_eq_iff (Or.inr rfl), Outcome.decision]
    refine ⟨hauto, hnotify, ?_, ?_, ?_⟩
    · have hdeny : ¬ ∃ reason, (evaluate client secret tags req policies now).decision = .deny reason :=
        fun hd => h (isDeny_iff_refused.1 hd)
      have hsplit : (∃ p, IsWinner client tags req policies now p ∧
          (p.outcome = .autoApprove ∨ p.outcome = .notifyOnly) ∧ Unclamped secret req p) ↔
          (evaluate client secret tags req policies now).decision = .autoApprove ∨
            (evaluate client secret tags req policies now).decision = .notifyOnly := by
        rw [hauto, hnotify, ← exists_or]
        simp only [or_and_right, and_or_left]
      rw [hsplit]
      cases hd : (evaluate client secret tags req policies now).decision with
      | deny reason => exact absurd ⟨reason, hd⟩ hdeny
      | requireApproval => simp
      | notifyOnly => simp
      | autoApprove => simp
    · intro p hp
      rw [evaluate_of_winner hids h hp]
      exact ⟨rfl, rfl⟩
    · intro hc
      obtain ⟨p, hp⟩ := exists_winner hids hc
      exact ⟨p, hp, fun q hq => hq.unique hp⟩
  · refine ⟨?_, fun hnd => ?_⟩
    · rw [isDeny_iff_refused, isDeny_iff_refused, refused_perm hperm]
    · rw [isDeny_iff_refused] at hnd
      exact evaluate_perm hids hperm hnd

/-! A client with a vetted secret, its brokered request, and the rows of a policy table for it. -/

def agentClient : ClientRow := ⟨"agent", true, .cooperatingClient, [.brokered, .cliRead]⟩

def deployKey : SecretRow := ⟨"deploy-key", true, .cooperatingClient, true⟩

def readRepos : RequestedGrant :=
  ⟨"deploy-key", .brokered, ⟨[⟨"api.example.com", none⟩], ["GET"], ["/repos/a"], 600, some 5⟩⟩

def autoRow (id : Uuid) : PolicyRow where
  id := id
  clientName := some "agent"
  secretName := some "deploy-key"
  secretTag := none
  mechanism := .brokered
  outcome := .autoApprove
  priority := 0
  origins := [⟨"api.example.com", some 443⟩]
  methods := ["get", "HEAD"]
  pathPrefixes := ["/repos/"]
  maxTtlSeconds := some 3600
  maxUses := some 10
  notAfter := some (DateTime.ofSeconds 2000000000)

theorem evaluate_characterization_tie :
    (evaluate agentClient (some deployKey) [] readRepos [autoRow 1, autoRow 2] (DateTime.ofSeconds 1800000000)) =
      ⟨.autoApprove, some (DateTime.ofSeconds 2000000000), some 2⟩ ∧
    evaluate agentClient (some deployKey) [] readRepos [autoRow 2, autoRow 1] (DateTime.ofSeconds 1800000000) =
      evaluate agentClient (some deployKey) [] readRepos [autoRow 1, autoRow 2] (DateTime.ofSeconds 1800000000) := by
  refine ⟨by decide +kernel, ?_⟩
  have h := (evaluate_characterization agentClient (some deployKey) [] readRepos [autoRow 1, autoRow 2]
    (DateTime.ofSeconds 1800000000) (by decide)).2.2 [autoRow 2, autoRow 1] (List.Perm.swap ..)
  apply h.2
  intro ⟨reason, hr⟩
  have hd : (evaluate agentClient (some deployKey) [] readRepos [autoRow 1, autoRow 2]
      (DateTime.ofSeconds 1800000000)).decision = .autoApprove := by decide +kernel
  rw [hd] at hr
  cases hr

/-! ## Restrictive rows -/

/-- `Deny < RequireApproval < NotifyOnly < AutoApprove`. -/
def Decision.openness : Decision → Nat
  | .deny _ => 0
  | .requireApproval => 1
  | .notifyOnly => 2
  | .autoApprove => 3

section Restrictive
variable {client : ClientRow} {secret : Option SecretRow} {tags : List String} {req : RequestedGrant}
  {l₁ l₂ : List PolicyRow} {now : DateTime} {p : PolicyRow}

theorem refused_insert (h : Refused client secret tags req (l₁ ++ l₂) now) :
    Refused client secret tags req (l₁ ++ p :: l₂) now := by
  rcases h with hcap | ⟨q, hq, hrest⟩
  · exact Or.inl hcap
  · refine Or.inr ⟨q, ?_, hrest⟩
    rcases List.mem_append.1 hq with hq | hq
    · exact List.mem_append_left _ hq
    · exact List.mem_append_right _ (List.mem_cons_of_mem _ hq)

theorem openness_pos (h : ¬ Refused client secret tags req l₁ now) :
    1 ≤ (evaluate client secret tags req l₁ now).decision.openness := by
  cases hd : (evaluate client secret tags req l₁ now).decision with
  | deny reason => exact absurd (isDeny_iff_refused.1 ⟨reason, hd⟩) h
  | requireApproval => exact Nat.le_refl 1
  | notifyOnly => exact Nat.le_succ 1
  | autoApprove => exact Nat.le_add_left 1 2

theorem clampedDecision_requireApproval (h : p.outcome = .requireApproval) :
    clampedDecision secret req p = .requireApproval := by
  by_cases hu : Unclamped secret req p
  · rw [clampedDecision_of_unclamped hu, h]
    rfl
  · exact clampedDecision_of_clamped hu

/-- The rows that take part in the contest. -/
def candidates (client : ClientRow) (tags : List String) (req : RequestedGrant) (policies : List PolicyRow)
    (now : DateTime) : List PolicyRow :=
  (policies.filter (isApplicable · client req tags now)).filter
    fun p => p.outcome != .deny && requestIsSubset p req.constraints

/-- One row more: a candidate in its place, or none. -/
theorem candidates_insert (client : ClientRow) (tags : List String) (req : RequestedGrant) (l₁ l₂ : List PolicyRow)
    (now : DateTime) (p : PolicyRow) :
    (∃ c₁ c₂, candidates client tags req (l₁ ++ p :: l₂) now = c₁ ++ p :: c₂ ∧
        candidates client tags req (l₁ ++ l₂) now = c₁ ++ c₂ ∧ p.outcome ≠ .deny) ∨
      candidates client tags req (l₁ ++ p :: l₂) now = candidates client tags req (l₁ ++ l₂) now := by
  simp only [candidates, List.filter_append, List.filter_cons]
  cases happ : isApplicable p client req tags now with
  | false => exact Or.inr rfl
  | true =>
      simp only [if_true, List.filter_cons]
      cases hc : (p.outcome != .deny && requestIsSubset p req.constraints) with
      | false => exact Or.inr rfl
      | true =>
          rw [Bool.and_eq_true, bne_iff_ne] at hc
          exact Or.inl ⟨_, _, rfl, rfl, hc.1⟩

/-- A row that denies or asks never widens what is decided, wherever it stands in the list. -/
theorem restrictive_row_narrows (client : ClientRow) (secret : Option SecretRow) (tags : List String)
    (req : RequestedGrant) (l₁ l₂ : List PolicyRow) (now : DateTime) (p : PolicyRow)
    (hp : p.outcome = .deny ∨ p.outcome = .requireApproval) :
    (evaluate client secret tags req (l₁ ++ p :: l₂) now).decision.openness ≤
      (evaluate client secret tags req (l₁ ++ l₂) now).decision.openness := by
  by_cases hr : Refused client secret tags req (l₁ ++ p :: l₂) now
  · obtain ⟨reason, hd⟩ := evaluate_of_refused hr
    rw [hd]
    exact Nat.zero_le _
  have hr' : ¬ Refused client secret tags req (l₁ ++ l₂) now := fun h => hr (refused_insert h)
  have hpos := openness_pos hr'
  rcases candidates_insert client tags req l₁ l₂ now p with ⟨c₁, c₂, hlong, hshort, hne⟩ | hsame
  · have hask : p.outcome = .requireApproval := hp.resolve_left hne
    rcases maxByKey_insert precedenceKey p c₁ c₂ with hwin | hlose
    · -- the new row decides, and asks
      rw [← hlong, candidates] at hwin
      rw [evaluate_of_not_refused hr, hwin]
      simp only [clampedDecision_requireApproval hask]
      exact hpos
    · rw [← hlong, ← hshort, candidates, candidates] at hlose
      rw [evaluate_of_not_refused hr, evaluate_of_not_refused hr', hlose]
  · rw [candidates, candidates] at hsame
    rw [evaluate_of_not_refused hr, evaluate_of_not_refused hr', hsame]

end Restrictive

/-- A rule that asks, above one that approves on its own. -/
def askRow : PolicyRow := { autoRow 9 with outcome := .requireApproval, priority := 5 }

theorem restrictive_row_narrows_ask :
    (evaluate agentClient (some deployKey) [] readRepos ([autoRow 1] ++ askRow :: [])
        (DateTime.ofSeconds 1800000000)).decision.openness ≤
      (evaluate agentClient (some deployKey) [] readRepos ([autoRow 1] ++ [])
        (DateTime.ofSeconds 1800000000)).decision.openness :=
  restrictive_row_narrows agentClient (some deployKey) [] readRepos [autoRow 1] [] (DateTime.ofSeconds 1800000000)
    askRow (Or.inr rfl)

end Policy
end Keychute
