import Keychute.Policy
import Keychute.Db.Rows

/-!
# Creating an access request (`server/src/api/requests.rs`)

* `ApiFailure` : the failures of the client-facing handlers;
* `validateRequest` : bounds and normalization of a request body (`validateRequest_spec`);
* `policyInputs` : store rows mapped to engine rows, failing closed on an applicable row that does not parse;
* `autoGrant`, `planCreate` : what `create` hands to the insert transaction, decided before it opens.
-/

namespace Keychute.Api

/-- How a client-facing handler fails, for the handlers modelled here. -/
inductive ApiFailure where
  | unauthenticated
  | notFound
  | invalidRequest (message : String)
  | requestTooLarge (message : String)
  | invalidPath (message : String)
  | wrongMechanism
  | idempotencyKeyReuse
  | secretExists
  | policyDenied (reason : String)
  | revalidationFailed
  | tooManyPending
  | tooManyDeposits
  | tooManyStreams
  | grantExhausted
  | grantExpired
  | payloadLost
  | bodyTooLarge
  | badCredentialEncoding
  | upstreamUnreachable
  | upstreamTimeout
  | internal (message : String)
  deriving DecidableEq, Repr

/-! ## The request body -/

/-- Client-supplied context; `structured` is the serialized value. -/
structure RequestContext where
  reason : String
  structured : Option Db.Blob

structure CreateAccessRequest where
  idempotencyKey : String
  secretName : String
  mechanism : Mechanism
  constraints : Constraints
  context : RequestContext

def maxIdemKeyBytes : Nat := 128
def maxReasonBytes : Nat := 4 * 1024
def maxStructuredBytes : Nat := 16 * 1024
def maxConstraintEntries : Nat := 32
def maxTtlSeconds : Nat := 30 * 24 * 3600
def maxUses : Nat := 2147483647

def validateIdempotencyKey (req : CreateAccessRequest) : Except ApiFailure Unit :=
  if byteLen req.idempotencyKey = 0 then .error (.invalidRequest "idempotency_key is required")
  else if byteLen req.idempotencyKey > maxIdemKeyBytes then .error (.requestTooLarge "idempotency_key too long")
  else .ok ()

/-- The methods of a request, checked and upper-cased. -/
def validateMethods : List String → Except ApiFailure (List String)
  | [] => .ok []
  | m :: ms =>
    if !isValidHttpMethod m then .error (.invalidRequest "invalid method")
    else (toAsciiUppercase m :: ·) <$> validateMethods ms

/-- The path prefixes of a request, canonicalized. -/
def validatePrefixes : List String → Except ApiFailure (List String)
  | [] => .ok []
  | p :: ps =>
    match canonicalize p with
    | .error _ => .error (.invalidRequest "invalid path prefix")
    | .ok c => (c :: ·) <$> validatePrefixes ps

/-- The `max_uses` of a request by mechanism: brokered requests also name one origin and some method. -/
def validateUses (mechanism : Mechanism) (c : Constraints) (methods : List String) :
    Except ApiFailure (Option Nat) :=
  if mechanism = .brokered then
    if c.origins.length ≠ 1 then .error (.invalidRequest "brokered requests must name exactly one origin")
    else if methods.isEmpty then .error (.invalidRequest "brokered requests must name at least one method")
    else
      match c.maxUses with
      | some 0 => .error (.invalidRequest "max_uses must be at least 1")
      | some u => if u > maxUses then .error (.invalidRequest "max_uses is too large") else .ok (some u)
      | none => .ok none
  else
    match c.maxUses with
    | none => .ok (some 1)
    | some 1 => .ok (some 1)
    | some _ => .error (.invalidRequest "releasing-tier requests may not exceed max_uses = 1")

/-- Validate a body and return the normalized constraints to store. -/
def validateRequest (req : CreateAccessRequest) : Except ApiFailure Constraints := do
  validateIdempotencyKey req
  if byteLen req.secretName = 0 || byteLen req.secretName > 256 then
    throw (.invalidRequest "invalid secret_name")
  if byteLen req.context.reason > maxReasonBytes then
    throw (.requestTooLarge "context.reason too long")
  if req.context.structured.any fun s => decide (s.length > maxStructuredBytes) then
    throw (.requestTooLarge "context.structured too large")
  let c := req.constraints
  if c.origins.length > maxConstraintEntries || c.methods.length > maxConstraintEntries ||
      c.pathPrefixes.length > maxConstraintEntries then
    throw (.requestTooLarge "too many constraint entries")
  if c.ttlSeconds < 1 || c.ttlSeconds > maxTtlSeconds then
    throw (.invalidRequest "ttl_seconds must be between 1 and 30 days")
  let methods ← validateMethods c.methods
  let prefixes ← validatePrefixes c.pathPrefixes
  let uses ← validateUses req.mechanism c methods
  return ⟨c.origins, methods, prefixes, c.ttlSeconds, uses⟩

/-- The constraints of a request that was accepted. -/
theorem validateRequest_spec {req : CreateAccessRequest} {c : Constraints} (h : validateRequest req = .ok c) :
    c.origins = req.constraints.origins ∧ validateMethods req.constraints.methods = .ok c.methods ∧
      validatePrefixes req.constraints.pathPrefixes = .ok c.pathPrefixes ∧
      c.ttlSeconds = req.constraints.ttlSeconds ∧ 1 ≤ c.ttlSeconds ∧ c.ttlSeconds ≤ maxTtlSeconds ∧
      validateUses req.mechanism req.constraints c.methods = .ok c.maxUses := by
  unfold validateRequest at h
  simp only [bind_eq_ok] at h
  obtain ⟨_, _, h⟩ := h
  split at h
  · cases h
  · split at h
    · cases h
    · split at h
      · cases h
      · split at h
        · cases h
        · split at h
          · cases h
          · rename_i httl
            simp only [bind_eq_ok] at h
            obtain ⟨methods, hm, prefixes, hp, uses, hu, hc⟩ := h
            cases hc
            simp only [Bool.or_eq_true, decide_eq_true_eq, not_or, not_lt] at httl
            exact ⟨rfl, hm, hp, rfl, httl.1, httl.2, hu⟩

/-- A brokered request is for some use, if it names a number. -/
theorem validateUses_brokered {c : Constraints} {methods : List String} {n : Nat}
    (h : validateUses .brokered c methods = .ok (some n)) : 0 < n := by
  rw [validateUses, if_pos rfl] at h
  split at h
  · cases h
  · split at h
    · cases h
    · split at h
      · cases h
      · rename_i u hu _
        split at h
        · cases h
        · cases h
          exact Nat.pos_of_ne_zero fun hz => hu (hz ▸ rfl)
      · cases h

/-! ## Policy inputs -/

/-- Would this stored row take part in the decision? Read from the columns that always parse. -/
def rowIsApplicableRaw (r : Db.PolicyRow) (clientName : String) (req : Policy.RequestedGrant)
    (secretTags : List String) (now : DateTime) : Bool :=
  if r.mechanism ≠ req.mechanism.asStr then false
  else if r.notAfter.any (· ≤ now) then false
  else if r.clientName.any (· ≠ clientName) then false
  else
    match r.secretName, r.secretTag with
    | some name, _ => name == req.secretName
    | none, some tag => secretTags.any (· == tag)
    | none, none => true

/-- The columns of a stored row that have to parse. -/
structure ParsedColumns where
  mechanism : Mechanism
  outcome : Policy.Outcome
  origins : List Origin
  pathPrefixes : List String

def parseColumns (url : UrlHost) (r : Db.PolicyRow) : Option ParsedColumns := do
  let mechanism ← Mechanism.fromStrOpt r.mechanism
  let outcome ← Policy.Outcome.fromStrOpt r.outcome
  let origins ← Origin.listFromJson url r.origins
  if !r.methods.all isValidHttpMethod then none
  let pathPrefixes ← r.pathPrefixes.mapM fun p => (canonicalize p).toOption
  return ⟨mechanism, outcome, origins, pathPrefixes⟩

/-- The engine's row for a stored row and its parsed columns. -/
def policyRow (r : Db.PolicyRow) (c : ParsedColumns) : Policy.PolicyRow where
  id := r.id
  clientName := r.clientName
  secretName := r.secretName
  secretTag := r.secretTag
  mechanism := c.mechanism
  outcome := c.outcome
  priority := r.priority
  origins := c.origins
  methods := r.methods
  pathPrefixes := c.pathPrefixes
  maxTtlSeconds := r.maxTtlSeconds.map Int.toNat
  maxUses := r.maxUses.map Int.toNat
  notAfter := r.notAfter

/-- The row loop of `policy_inputs`. -/
def policyRows (url : UrlHost) (clientName : String) (secretTags : List String) (req : Policy.RequestedGrant)
    (now : DateTime) : List Db.PolicyRow → Except ApiFailure (List Policy.PolicyRow)
  | [] => .ok []
  | r :: rows =>
    match parseColumns url r with
    | some c => (policyRow r c :: ·) <$> policyRows url clientName secretTags req now rows
    | none =>
      if rowIsApplicableRaw r clientName req secretTags now then
        .error (.policyDenied "policy set contains an unreadable rule")
      else policyRows url clientName secretTags req now rows

def clientInput (client : Db.ClientRow) : Policy.ClientRow where
  name := client.name
  enabled := client.enabled
  maxTier := (Tier.fromInt client.maxTier).getD .brokered
  allowedMechanisms := client.mechanisms.filterMap Mechanism.fromStrOpt

def secretInput (secret : Db.SecretRow) : Policy.SecretRow where
  name := secret.name
  enabled := secret.enabled
  maxTier := (Tier.fromInt secret.maxTier).getD .brokered
  operatorVetted := secret.operatorVetted

/-- Map store rows into policy-engine inputs, failing closed. -/
def policyInputs (url : UrlHost) (client : Db.ClientRow) (secret : Option Db.SecretRow) (secretTags : List String)
    (req : Policy.RequestedGrant) (rows : List Db.PolicyRow) (now : DateTime) :
    Except ApiFailure (Policy.ClientRow × Option Policy.SecretRow × List Policy.PolicyRow) :=
  (fun out => (clientInput client, secret.map secretInput, out)) <$>
    policyRows url client.name secretTags req now rows

/-! ### Failing closed -/

section Inputs
variable {url : UrlHost} {r : Db.PolicyRow}

/-- A stored row with a column that does not parse. -/
def Unreadable (url : UrlHost) (r : Db.PolicyRow) : Prop :=
  Mechanism.fromStrOpt r.mechanism = none ∨ Policy.Outcome.fromStrOpt r.outcome = none ∨
    Origin.listFromJson url r.origins = none ∨ (∃ m ∈ r.methods, isValidHttpMethod m = false) ∨
    ∃ p ∈ r.pathPrefixes, (canonicalize p).toOption = none

/-- The engine's rows for the stored rows that parse. -/
def readableRows (url : UrlHost) (rows : List Db.PolicyRow) : List Policy.PolicyRow :=
  rows.filterMap fun r => (parseColumns url r).map (policyRow r)

theorem mapM_option_eq_none {α β : Type} {f : α → Option β} {l : List α} :
    l.mapM f = none ↔ ∃ a ∈ l, f a = none := by
  induction l with
  | nil => simp
  | cons a l ih =>
      rw [List.mapM_cons]
      cases ha : f a with
      | none => simp [ha]
      | some b =>
          cases hl : l.mapM f with
          | none =>
              obtain ⟨x, hx, hf⟩ := ih.1 hl
              simp only [Option.bind_eq_bind, Option.bind_some, Option.bind_none, true_iff]
              exact ⟨x, List.mem_cons_of_mem _ hx, hf⟩
          | some bs =>
              rw [hl] at ih
              simp only [reduceCtorEq, false_iff] at ih
              simp only [Option.bind_eq_bind, Option.bind_some, Option.pure_def, reduceCtorEq, false_iff]
              rintro ⟨x, hx, hf⟩
              rcases List.mem_cons.1 hx with rfl | hx
              · rw [ha] at hf
                cases hf
              · exact ih ⟨x, hx, hf⟩

theorem parseColumns_eq_none : parseColumns url r = none ↔ Unreadable url r := by
  unfold parseColumns Unreadable
  cases Mechanism.fromStrOpt r.mechanism with
  | none => simp
  | some m =>
      cases Policy.Outcome.fromStrOpt r.outcome with
      | none => simp
      | some o =>
          cases Origin.listFromJson url r.origins with
          | none => simp
          | some os =>
              simp only [reduceCtorEq, false_or, Option.bind_eq_bind, Option.bind_some]
              by_cases hm : r.methods.all isValidHttpMethod = true
              · have hno : ¬ ∃ m ∈ r.methods, isValidHttpMethod m = false := by
                  rintro ⟨m, hmem, hbad⟩
                  rw [List.all_eq_true.1 hm m hmem] at hbad
                  cases hbad
                simp only [hm, Bool.not_true, Bool.false_eq_true, if_false, hno, false_or, ← mapM_option_eq_none]
                cases r.pathPrefixes.mapM fun p => (canonicalize p).toOption <;> simp
              · have hyes : ∃ m ∈ r.methods, isValidHttpMethod m = false := by
                  rw [List.all_eq_true] at hm
                  push Not at hm
                  obtain ⟨m, hmem, hbad⟩ := hm
                  exact ⟨m, hmem, by simpa using hbad⟩
                rw [Bool.not_eq_true] at hm
                simp only [hm, Bool.not_false, if_true, hyes, true_or, iff_true]
                rfl

/-- The two tests of applicability agree on every row that parses. -/
theorem isApplicable_policyRow {c : ParsedColumns} (h : parseColumns url r = some c) (client : Db.ClientRow)
    (req : Policy.RequestedGrant) (tags : List String) (now : DateTime) :
    Policy.isApplicable (policyRow r c) (clientInput client) req tags now =
      rowIsApplicableRaw r client.name req tags now := by
  have hmech : r.mechanism = c.mechanism.asStr := by
    unfold parseColumns at h
    cases hm : Mechanism.fromStrOpt r.mechanism with
    | none => simp [hm] at h
    | some m =>
        simp only [hm, Option.bind_eq_bind, Option.bind_some, Option.bind_eq_some_iff] at h
        obtain ⟨_, _, _, _, h⟩ := h
        split at h
        · cases h
        · rw [Option.bind_eq_some_iff] at h
          obtain ⟨_, _, heq⟩ := h
          cases heq
          exact Mechanism.fromStrOpt_eq_some hm
  unfold Policy.isApplicable rowIsApplicableRaw
  by_cases hm : (policyRow r c).mechanism = req.mechanism
  · have hraw : r.mechanism = req.mechanism.asStr := by rw [hmech, ← hm]; rfl
    rw [if_neg (not_not.2 hm), if_neg (not_not.2 hraw)]
    rfl
  · have hraw : r.mechanism ≠ req.mechanism.asStr := by
      rw [hmech]
      exact fun h => hm (Mechanism.asStr_injective h)
    rw [if_pos hm, if_pos hraw]

theorem policyRows_eq {clientName : String} {tags : List String} {req : Policy.RequestedGrant} {now : DateTime}
    (rows : List Db.PolicyRow) :
    policyRows url clientName tags req now rows =
      if rows.any fun r => rowIsApplicableRaw r clientName req tags now && (parseColumns url r).isNone then
        .error (.policyDenied "policy set contains an unreadable rule")
      else .ok (readableRows url rows) := by
  induction rows with
  | nil => rfl
  | cons r rows ih =>
      unfold policyRows
      cases hc : parseColumns url r with
      | some c =>
          have hread : readableRows url (r :: rows) = policyRow r c :: readableRows url rows := by
            simp [readableRows, hc]
          simp only [ih, List.any_cons, hc, Option.isNone_some, Bool.and_false, Bool.false_or, hread]
          split <;> rfl
      | none =>
          have hread : readableRows url (r :: rows) = readableRows url rows := by
            simp [readableRows, hc]
          simp only [ih, List.any_cons, hc, Option.isNone_none, Bool.and_true, hread]
          cases rowIsApplicableRaw r clientName req tags now with
          | true => rfl
          | false => rfl

/-- `policy_inputs` fails exactly on an unreadable row that could apply; else the engine decides on all rows that
parse, on which its own test of applicability agrees with the one on the stored columns; and an unreadable row that
could not apply makes no difference. -/
theorem policyInputs_fails_closed (url : UrlHost) (client : Db.ClientRow) (secret : Option Db.SecretRow)
    (tags : List String) (req : Policy.RequestedGrant) (rows : List Db.PolicyRow) (now : DateTime) :
    ((∃ e, policyInputs url client secret tags req rows now = .error e) ↔
        ∃ r ∈ rows, rowIsApplicableRaw r client.name req tags now = true ∧ Unreadable url r) ∧
      (∀ c s out, policyInputs url client secret tags req rows now = .ok (c, s, out) →
        Policy.evaluate c s tags req out now =
          Policy.evaluate (clientInput client) (secret.map secretInput) tags req (readableRows url rows) now) ∧
      (∀ r ∈ rows, ∀ c, parseColumns url r = some c →
        (Policy.isApplicable (policyRow r c) (clientInput client) req tags now = true ↔
          rowIsApplicableRaw r client.name req tags now = true)) ∧
      ∀ l₁ r l₂, Unreadable url r → rowIsApplicableRaw r client.name req tags now = false →
        policyInputs url client secret tags req (l₁ ++ r :: l₂) now =
          policyInputs url client secret tags req (l₁ ++ l₂) now := by
  refine ⟨?_, ?_, ?_, ?_⟩
  · have hany : (rows.any fun r => rowIsApplicableRaw r client.name req tags now && (parseColumns url r).isNone) = true ↔
        ∃ r ∈ rows, rowIsApplicableRaw r client.name req tags now = true ∧ Unreadable url r := by
      simp only [List.any_eq_true, Bool.and_eq_true, Option.isNone_iff_eq_none, parseColumns_eq_none]
    rw [← hany, policyInputs, policyRows_eq]
    split
    · rename_i h
      simp only [h, iff_true]
      exact ⟨_, rfl⟩
    · rename_i h
      simp only [h]
      refine iff_of_false ?_ (by simp)
      rintro ⟨e, he⟩
      cases he
  · intro c s out h
    rw [policyInputs, policyRows_eq] at h
    split at h
    · cases h
    · cases h
      rfl
  · intro r _ c hc
    rw [isApplicable_policyRow hc]
  · intro l₁ r l₂ hbad hnot
    have hnone := parseColumns_eq_none.2 hbad
    have hread : readableRows url (l₁ ++ r :: l₂) = readableRows url (l₁ ++ l₂) := by
      simp [readableRows, hnone]
    rw [policyInputs, policyInputs, policyRows_eq, policyRows_eq, hread]
    simp only [List.any_append, List.any_cons, hnot, Bool.false_and, Bool.false_or]

end Inputs

/-! ## The plan of `create` -/

/-- A deadline, no later than the cap if there is one. -/
def capDeadline (deadline : DateTime) : Option DateTime → DateTime
  | some cap => min deadline cap
  | none => deadline

theorem capDeadline_le (deadline : DateTime) (cap : Option DateTime) : capDeadline deadline cap ≤ deadline := by
  cases cap with
  | none => exact le_refl _
  | some cap => exact min_le_left _ _

/-- The grant `create` mints under a standing policy: only for an `AutoApprove` or `NotifyOnly` decision, with the
requested lifetime capped at the expiry of the deciding row. -/
def autoGrant (clientName : String) (secret : Option Db.SecretRow) (mechanism : Mechanism)
    (constraints : Constraints) (evaluation : Policy.Evaluation) (now : DateTime) :
    Except ApiFailure (Option Db.GrantParams) :=
  match evaluation.decision with
  | .autoApprove | .notifyOnly =>
    match secret with
    | none => .error (.internal "auto-approve decision without a stored secret")
    | some secret =>
      match now.addSeconds (asI64 constraints.ttlSeconds) with
      | none => .error (.internal "instant out of range")
      | some deadline =>
        .ok <| some {
          clientName := clientName
          secretName := secret.name
          secretId := some secret.id
          mechanism := mechanism.asStr
          constraints := constraints
          notAfter := capDeadline deadline evaluation.policyNotAfter
          maxUses := constraints.maxUses.map saturateI32
          passthrough := none }
  | _ => .ok none

/-- How the request is inserted: `RESOLVED_BY_POLICY_AUTO` marks the approvals made by policy. -/
def initialResolution (evaluation : Policy.Evaluation) (grant : Option Db.GrantParams) : Db.InitialResolution :=
  match evaluation.decision, grant with
  | .deny reason, _ => .denied reason "policy"
  | decision, some grant => .approved "policy:auto" grant (decision == .notifyOnly)
  | _, none => .pending

structure Limits where
  requestExpirySeconds : Int
  maxPendingPerClient : Int
  replayWindowSeconds : Int
  maxDepositsPerHourPerClient : Int

/-- What `Config::validate` asks of the limits. -/
structure Limits.Valid (limits : Limits) : Prop where
  requestExpiry : 0 < limits.requestExpirySeconds
  maxPending : 0 < limits.maxPendingPerClient
  replayWindow : 0 < limits.replayWindowSeconds
  maxDeposits : 0 < limits.maxDepositsPerHourPerClient

/-- What `create` hands to `insert_access_request_with_id`. -/
structure CreatePlan where
  newRow : Db.NewAccessRequest
  pendingCap : Option Int
  resolution : Db.InitialResolution
  decision : Policy.Decision

/-- The part of `create` between the idempotency lookup and the insert; `secret`, `secretTags`, `policies` and
`now` are what the database returned. -/
def planCreate (url : UrlHost) (limits : Limits) (client : Db.ClientRow) (secret : Option Db.SecretRow)
    (secretTags : List String) (policies : List Db.PolicyRow) (now : DateTime) (req : CreateAccessRequest)
    (idemMac : Db.Blob) : Except ApiFailure CreatePlan := do
  let constraints ← validateRequest req
  let requested : Policy.RequestedGrant := ⟨req.secretName, req.mechanism, constraints⟩
  let (pclient, psecret, prows) ← policyInputs url client secret secretTags requested policies now
  let evaluation := Policy.evaluate pclient psecret secretTags requested prows now
  match now.addSeconds limits.requestExpirySeconds with
  | none => throw (.internal "instant out of range")
  | some expiresAt =>
    let grant ← autoGrant client.name secret req.mechanism constraints evaluation now
    return {
      newRow := {
        clientName := client.name
        secretName := req.secretName
        mechanism := req.mechanism.asStr
        constraints := constraints
        expiresAt := expiresAt
        policyNotAfter := evaluation.policyNotAfter
        idemClient := client.name
        idemKey := req.idempotencyKey
        idemMac := idemMac }
      pendingCap := if evaluation.decision == .requireApproval then some limits.maxPendingPerClient else none
      resolution := initialResolution evaluation grant
      decision := evaluation.decision }

/-- The cap that a request is created under: only a pending one is counted. -/
def Limits.pendingCap (limits : Limits) : Db.InitialResolution → Option Int
  | .pending => some limits.maxPendingPerClient
  | _ => none

/-- A request stays pending exactly where a human has to decide. -/
theorem pendingCap_initialResolution {limits : Limits} {clientName : String} {secret : Option Db.SecretRow}
    {mechanism : Mechanism} {constraints : Constraints} {evaluation : Policy.Evaluation} {now : DateTime}
    {grant : Option Db.GrantParams}
    (h : autoGrant clientName secret mechanism constraints evaluation now = .ok grant) :
    limits.pendingCap (initialResolution evaluation grant) =
      if evaluation.decision == .requireApproval then some limits.maxPendingPerClient else none := by
  unfold autoGrant at h
  unfold initialResolution
  cases hd : evaluation.decision with
  | deny reason => rfl
  | requireApproval =>
      rw [hd] at h
      cases h
      rfl
  | _ =>
      rw [hd] at h
      simp only at h
      split at h
      · cases h
      · split at h
        · cases h
        · cases h
          rfl

/-- What a plan carries over from the request, whatever policy decided. -/
theorem planCreate_ok {url : UrlHost} {limits : Limits} {client : Db.ClientRow} {secret : Option Db.SecretRow}
    {secretTags : List String} {policies : List Db.PolicyRow} {now : DateTime} {req : CreateAccessRequest}
    {idemMac : Db.Blob} {plan : CreatePlan}
    (h : planCreate url limits client secret secretTags policies now req idemMac = .ok plan) :
    plan.newRow.clientName = client.name ∧ plan.newRow.idemClient = client.name ∧
      plan.newRow.idemKey = req.idempotencyKey ∧ plan.newRow.idemMac = idemMac ∧
      plan.pendingCap = limits.pendingCap plan.resolution := by
  simp only [planCreate, bind, Except.bind] at h
  split at h
  · cases h
  · split at h
    · cases h
    · split at h
      · cases h
      · split at h
        · cases h
        · rename_i hgrant
          cases h
          exact ⟨rfl, rfl, rfl, rfl, (pendingCap_initialResolution hgrant).symm⟩

end Keychute.Api
