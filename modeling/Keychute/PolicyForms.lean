import Keychute.Api.Requests
import Mathlib.Data.List.Forall2

/-!
# Where policy rows come from (`config.rs`, `ui/mod.rs`)

* `PolicyConfig.toNewPolicy`, `parsePolicyForm` : the two ways a policy row is written, both of which store the
  canonical form of each path prefix;
* `PolicyForm.Reads` : a form, field by field, and the row it is accepted as (`parsePolicyForm_reads`,
  `PolicyForm.Reads.accepted`);
* `Stored` : what a row written by either looks like, read back (`Stored.parseColumns_iff`);
* `prefixes_unchanged_iff` : the engine is handed the stored prefixes exactly when no prefix was written with an
  escaped `%`.
-/

namespace Keychute
open Keychute.Api

/-- Why a policy is refused, with the value the message quotes. -/
inductive PolicyError where
  | message (text : String)
  | invalidOutcome (outcome : String)
  | badOrigin (e : OriginError)
  | invalidMethod (method : String)
  | badPathPrefix (raw : String) (e : String)
  deriving DecidableEq

/-- `anyhow::Error` and `UiError` for the rule both writers share. -/
def brokeredNeedsOrigin : PolicyError :=
  .message ("a brokered auto-approve/notify-only policy must name at least one origin: " ++
    "without one it would release the credential to any host the client asks for")

/-! ## Config -/

/-- A standing policy row in the config file. -/
structure PolicyConfig where
  client : Option String
  secret : Option String
  secretTag : Option String
  mechanism : Mechanism
  outcome : String
  priority : Int
  origins : List String
  methods : List String
  pathPrefixes : List String
  maxTtlSeconds : Option Int
  maxUses : Option Int
  notAfter : Option DateTime

def parseOrigins (url : UrlHost) (raw : List String) : Except PolicyError (List Origin) :=
  raw.mapM fun o => (Origin.parse url o).mapError .badOrigin

def parseMethods (raw : List String) : Except PolicyError (List String) :=
  raw.mapM fun m => if isValidHttpMethod m then .ok (toAsciiUppercase m) else .error (.invalidMethod m)

def parsePrefixes (raw : List String) : Except PolicyError (List String) :=
  raw.mapM fun p => (canonicalize p).mapError (.badPathPrefix p)

/-- Validate and normalize into the row shape the store writes. -/
def PolicyConfig.toNewPolicy (url : UrlHost) (c : PolicyConfig) : Except PolicyError Db.NewPolicy := do
  if c.secret.isSome && c.secretTag.isSome then
    throw (.message "set at most one of secret / secret_tag")
  if !(["auto-approve", "notify-only", "require-approval", "deny"].contains c.outcome) then
    throw (.invalidOutcome c.outcome)
  let origins ← parseOrigins url c.origins
  if c.mechanism == .brokered && origins.isEmpty && (c.outcome == "auto-approve" || c.outcome == "notify-only") then
    throw brokeredNeedsOrigin
  let methods ← parseMethods c.methods
  let pathPrefixes ← parsePrefixes c.pathPrefixes
  if c.maxTtlSeconds.any (· ≤ 0) then
    throw (.message "max_ttl_seconds must be positive")
  if c.maxUses.any (· ≤ 0) then
    throw (.message "max_uses must be positive")
  return {
    clientName := c.client
    secretName := c.secret
    secretTag := c.secretTag
    mechanism := c.mechanism.asStr
    outcome := c.outcome
    priority := c.priority
    origins := Origin.listToJson origins
    methods := methods
    pathPrefixes := pathPrefixes
    maxTtlSeconds := c.maxTtlSeconds
    maxUses := c.maxUses
    notAfter := c.notAfter
    createdBy := "config" }

/-! ## The UI form -/

/-- The policy form, shared by creating and editing. -/
structure PolicyForm where
  clientName : Option String
  secretName : Option String
  secretTag : Option String
  mechanism : String
  outcome : String
  priority : Option String
  origins : Option String
  methods : Option String
  pathPrefixes : Option String
  maxTtlSeconds : Option String
  maxUses : Option String
  notAfter : Option String

/-- A field, trimmed, unless nothing is left of it. -/
def nonEmpty (v : Option String) : Option String := (v.map trim).filter (· ≠ "")

theorem nonEmpty_eq_some {v : Option String} {s : String} (h : nonEmpty v = some s) : trim s = s ∧ s ≠ "" := by
  rw [nonEmpty, Option.filter_eq_some_iff, Option.map_eq_some_iff] at h
  obtain ⟨⟨raw, -, rfl⟩, hne⟩ := h
  exact ⟨trim_trim raw, of_decide_eq_true hne⟩

theorem nonEmpty_self {s : String} (h : trim s = s) (hne : s ≠ "") : nonEmpty (some s) = some s := by
  rw [nonEmpty, Option.map_some, h, Option.filter_some, if_pos (decide_eq_true hne)]

@[simp] theorem nonEmpty_empty : nonEmpty (some "") = none := by decide +kernel

/-- The trimmed lines of a text area that are not empty. -/
def fieldLines (v : Option String) : List String := ((lines (v.getD "")).map trim).filter (· ≠ "")

/-- Cut at commas and white space. -/
def splitMethods : List Char → List (List Char)
  | [] => [[]]
  | c :: cs => if c == ',' || isWhitespace c then [] :: splitMethods cs else (splitMethods cs).modifyHead (c :: ·)

def parseMethodsField (raw : String) : Except PolicyError (List String) :=
  (((splitMethods raw.toList).map fun m => trim (String.ofList m)).filter (· ≠ "")).mapM fun m =>
    if isValidHttpMethod m then .ok (toAsciiUppercase m) else .error (.message "invalid HTTP method")

/-- An optional positive number of the form. -/
def parsePositive (lo hi : Int) (what : String) (v : Option String) : Except PolicyError (Option Int) :=
  match nonEmpty v with
  | none => .ok none
  | some raw =>
    match (parseSigned lo hi raw).filter (0 < ·) with
    | some n => .ok (some n)
    | none => .error (.message ("invalid " ++ what))

def parsePriority (v : Option String) : Except PolicyError Int :=
  match nonEmpty v with
  | none => .ok 0
  | some raw =>
    match parseSigned (-2147483648) 2147483647 raw with
    | some n => .ok n
    | none => .error (.message "invalid priority")

def parseNotAfter (parseDatetime : String → Option DateTime) (v : Option String) :
    Except PolicyError (Option DateTime) :=
  match nonEmpty v with
  | none => .ok none
  | some raw =>
    match parseDatetime raw with
    | some t => .ok (some t)
    | none => .error (.message "invalid not_after datetime")

/-- Validate a submitted policy form into a row. `parseDatetime` is `chrono`'s reading of the two formats the form
accepts. -/
def parsePolicyForm (url : UrlHost) (parseDatetime : String → Option DateTime) (form : PolicyForm)
    (createdBy : String) : Except PolicyError Db.NewPolicy := do
  let secretName := nonEmpty form.secretName
  let secretTag := nonEmpty form.secretTag
  if secretName.isSome && secretTag.isSome then
    throw (.message "set at most one of secret name / secret tag")
  let some mechanism := Mechanism.fromStrOpt (trim form.mechanism) | throw (.message "invalid mechanism")
  let outcome := trim form.outcome
  if !(["require-approval", "notify-only", "auto-approve", "deny"].contains outcome) then
    throw (.message "invalid outcome")
  let priority ← parsePriority form.priority
  let origins ← parseOrigins url (fieldLines form.origins)
  if mechanism == .brokered && origins.isEmpty && (outcome == "auto-approve" || outcome == "notify-only") then
    throw brokeredNeedsOrigin
  let methods ← parseMethodsField (form.methods.getD "")
  let pathPrefixes ← parsePrefixes (fieldLines form.pathPrefixes)
  let maxTtlSeconds ← parsePositive (-9223372036854775808) 9223372036854775807 "max_ttl_seconds" form.maxTtlSeconds
  let maxUses ← parsePositive (-2147483648) 2147483647 "max_uses" form.maxUses
  let notAfter ← parseNotAfter parseDatetime form.notAfter
  return {
    clientName := nonEmpty form.clientName
    secretName := secretName
    secretTag := secretTag
    mechanism := mechanism.asStr
    outcome := outcome
    priority := priority
    origins := Origin.listToJson origins
    methods := methods
    pathPrefixes := pathPrefixes
    maxTtlSeconds := maxTtlSeconds
    maxUses := maxUses
    notAfter := notAfter
    createdBy := createdBy }

/-! ## What is stored, and what is read back -/

theorem mapM_eq_ok {ε α β : Type} {f : α → Except ε β} {l : List α} {r : List β} (h : l.mapM f = .ok r) :
    List.Forall₂ (fun a b => f a = .ok b) l r := by
  induction l generalizing r with
  | nil => cases h; exact List.Forall₂.nil
  | cons a l ih =>
      rw [List.mapM_cons] at h
      cases ha : f a with
      | error e => rw [ha] at h; cases h
      | ok b =>
          rw [ha] at h
          cases hl : l.mapM f with
          | error e => rw [hl] at h; cases h
          | ok bs =>
              rw [hl] at h
              cases h
              exact List.Forall₂.cons ha (ih hl)

theorem exists_of_mapM_eq_ok {ε α β : Type} {f : α → Except ε β} {l : List α} {r : List β} (h : l.mapM f = .ok r)
    {b : β} (hb : b ∈ r) : ∃ a, f a = .ok b := by
  have hl := mapM_eq_ok h
  clear h
  induction hl with
  | nil => cases hb
  | cons hab hl ih =>
      rcases List.mem_cons.1 hb with rfl | hb
      · exact ⟨_, hab⟩
      · exact ih hb

theorem mapM_eq_some_self {α : Type} {f : α → Option α} {l : List α} :
    l.mapM f = some l ↔ ∀ a ∈ l, f a = some a := by
  induction l with
  | nil => simp
  | cons a l ih =>
      rw [List.mapM_cons]
      simp only [List.mem_cons, forall_eq_or_imp, ← ih]
      cases f a with
      | none => simp
      | some b => cases l.mapM f <;> simp

theorem mapError_eq_ok {ε ε' α : Type} {f : ε → ε'} {x : Except ε α} {a : α} : x.mapError f = .ok a ↔ x = .ok a := by
  cases x <;> simp [Except.mapError]

theorem parseOrigins_spec {url : UrlHost} {raw : List String} {os : List Origin}
    (h : parseOrigins url raw = .ok os) : ∀ o ∈ os, ∃ s, Origin.parse url s = .ok o := by
  intro o ho
  obtain ⟨s, hs⟩ := exists_of_mapM_eq_ok h ho
  exact ⟨s, mapError_eq_ok.1 hs⟩

theorem parsePrefixes_spec {raw stored : List String} (h : parsePrefixes raw = .ok stored) :
    List.Forall₂ (fun r c => canonicalize r = .ok c) raw stored :=
  (mapM_eq_ok h).imp fun _ _ => mapError_eq_ok.1

/-- Methods that passed the check, upper-cased, pass it again. -/
theorem upperMethods_valid {raw methods : List String} {e : String → PolicyError}
    (h : (raw.mapM fun m => if isValidHttpMethod m then Except.ok (toAsciiUppercase m) else .error (e m)) =
      .ok methods) : methods.all isValidHttpMethod = true := by
  rw [List.all_eq_true]
  intro m hm
  obtain ⟨r, hr⟩ := exists_of_mapM_eq_ok h hm
  split at hr
  · rename_i hv
    injection hr with hr
    rw [← hr]
    exact isValidHttpMethod_upper hv
  · cases hr

/-- A policy as the two writers leave it: every column but the prefixes parses back, and each prefix is the canonical
form of the one written. -/
structure Stored (url : UrlHost) (raws : List String) (p : Db.NewPolicy) : Prop where
  mechanism : ∃ m : Mechanism, p.mechanism = m.asStr
  outcome : ∃ o : Policy.Outcome, p.outcome = o.asStr
  origins : ∃ os, p.origins = Origin.listToJson os ∧ ∀ o ∈ os, ∃ s, Origin.parse url s = .ok o
  methods : p.methods.all isValidHttpMethod = true
  prefixes : List.Forall₂ (fun r c => canonicalize r = .ok c) raws p.pathPrefixes

theorem outcome_of_contains {s : String} {l : List String}
    (hl : ∀ t ∈ l, t ∈ ["auto-approve", "notify-only", "require-approval", "deny"]) (h : l.contains s = true) :
    ∃ o : Policy.Outcome, s = o.asStr := by
  have hs := hl s (by simpa using h)
  simp only [List.mem_cons, List.not_mem_nil, or_false] at hs
  rcases hs with rfl | rfl | rfl | rfl
  · exact ⟨.autoApprove, rfl⟩
  · exact ⟨.notifyOnly, rfl⟩
  · exact ⟨.requireApproval, rfl⟩
  · exact ⟨.deny, rfl⟩

theorem PolicyConfig.toNewPolicy_stored {url : UrlHost} {c : PolicyConfig} {p : Db.NewPolicy}
    (h : c.toNewPolicy url = .ok p) : Stored url c.pathPrefixes p := by
  unfold PolicyConfig.toNewPolicy at h
  simp only [bind, Except.bind, pure, Except.pure, throw, throwThe, MonadExceptOf.throw] at h
  split at h
  · cases h
  split at h
  · cases h
  rename_i hout
  split at h
  · cases h
  rename_i origins horigins
  split at h
  · cases h
  split at h
  · cases h
  rename_i methods hmethods
  split at h
  · cases h
  rename_i stored hstored
  split at h
  · cases h
  split at h
  · cases h
  injection h with h
  subst h
  refine ⟨⟨c.mechanism, rfl⟩, ?_, ⟨origins, rfl, parseOrigins_spec horigins⟩, upperMethods_valid hmethods,
    parsePrefixes_spec hstored⟩
  exact outcome_of_contains (fun t ht => ht) (by simpa only [Bool.not_eq_true', Bool.not_eq_false] using hout)

/-- Every field of `form` is read as the column of `p`. -/
structure PolicyForm.Reads (url : UrlHost) (parseDatetime : String → Option DateTime) (form : PolicyForm)
    (m : Mechanism) (os : List Origin) (p : Db.NewPolicy) : Prop where
  clientName : nonEmpty form.clientName = p.clientName
  secretName : nonEmpty form.secretName = p.secretName
  secretTag : nonEmpty form.secretTag = p.secretTag
  single : (p.secretName.isSome && p.secretTag.isSome) = false
  mechanism : Mechanism.fromStrOpt (trim form.mechanism) = some m
  mechanismText : p.mechanism = m.asStr
  outcome : trim form.outcome = p.outcome
  known : ["require-approval", "notify-only", "auto-approve", "deny"].contains p.outcome = true
  priority : parsePriority form.priority = .ok p.priority
  origins : parseOrigins url (fieldLines form.origins) = .ok os
  originsJson : p.origins = Origin.listToJson os
  named : (m == .brokered && os.isEmpty && (p.outcome == "auto-approve" || p.outcome == "notify-only")) =
    false
  methods : parseMethodsField (form.methods.getD "") = .ok p.methods
  pathPrefixes : parsePrefixes (fieldLines form.pathPrefixes) = .ok p.pathPrefixes
  maxTtlSeconds : parsePositive (-9223372036854775808) 9223372036854775807 "max_ttl_seconds" form.maxTtlSeconds =
    .ok p.maxTtlSeconds
  maxUses : parsePositive (-2147483648) 2147483647 "max_uses" form.maxUses = .ok p.maxUses
  notAfter : parseNotAfter parseDatetime form.notAfter = .ok p.notAfter

theorem parsePolicyForm_reads {url : UrlHost} {parseDatetime : String → Option DateTime} {form : PolicyForm}
    {createdBy : String} {p : Db.NewPolicy} (h : parsePolicyForm url parseDatetime form createdBy = .ok p) :
    p.createdBy = createdBy ∧ ∃ m os, form.Reads url parseDatetime m os p := by
  unfold parsePolicyForm at h
  simp only [bind, Except.bind, pure, Except.pure, throw, throwThe, MonadExceptOf.throw] at h
  split at h
  · cases h
  rename_i hsingle
  split at h
  · rename_i mechanism hmechanism
    split at h
    · cases h
    rename_i hout
    split at h
    · cases h
    rename_i priority hpriority
    split at h
    · cases h
    rename_i origins horigins
    split at h
    · cases h
    rename_i hnamed
    split at h
    · cases h
    rename_i methods hmethods
    split at h
    · cases h
    rename_i stored hstored
    split at h
    · cases h
    rename_i ttl httl
    split at h
    · cases h
    rename_i uses huses
    split at h
    · cases h
    rename_i notAfter hnotAfter
    injection h with h
    subst h
    exact ⟨rfl, mechanism, origins, {
      clientName := rfl
      secretName := rfl
      secretTag := rfl
      single := Bool.eq_false_iff.2 hsingle
      mechanism := hmechanism
      mechanismText := rfl
      outcome := rfl
      known := by simpa only [Bool.not_eq_true', Bool.not_eq_false] using hout
      priority := hpriority
      origins := horigins
      originsJson := rfl
      named := Bool.eq_false_iff.2 hnamed
      methods := hmethods
      pathPrefixes := hstored
      maxTtlSeconds := httl
      maxUses := huses
      notAfter := hnotAfter }⟩
  · cases h

/-- A form whose fields are read as the columns of `p` is accepted as `p`. -/
theorem PolicyForm.Reads.accepted {url : UrlHost} {parseDatetime : String → Option DateTime} {form : PolicyForm}
    {m : Mechanism} {os : List Origin} {p : Db.NewPolicy} (h : form.Reads url parseDatetime m os p) (createdBy : String) :
    parsePolicyForm url parseDatetime form createdBy = .ok { p with createdBy := createdBy } := by
  unfold parsePolicyForm
  simp only [h.clientName, h.secretName, h.secretTag, h.single, h.mechanism, h.outcome, h.known, h.priority, h.origins,
    h.methods, h.pathPrefixes, h.maxTtlSeconds, h.maxUses, h.notAfter, ← h.mechanismText]
  simp only [bind, Except.bind, pure, Except.pure, h.named, ← h.originsJson]
  rfl

theorem parsePolicyForm_stored {url : UrlHost} {parseDatetime : String → Option DateTime} {form : PolicyForm}
    {createdBy : String} {p : Db.NewPolicy} (h : parsePolicyForm url parseDatetime form createdBy = .ok p) :
    Stored url (fieldLines form.pathPrefixes) p := by
  obtain ⟨-, m, os, hr⟩ := parsePolicyForm_reads h
  refine ⟨⟨m, hr.mechanismText⟩, outcome_of_contains ?_ hr.known, ⟨os, hr.originsJson, ?_⟩, ?_, ?_⟩
  · decide
  · exact parseOrigins_spec hr.origins
  · exact upperMethods_valid hr.methods
  · exact parsePrefixes_spec hr.pathPrefixes

/-- Decoding the stored prefixes again changes none of them exactly when no written one escapes a `%`. -/
theorem canonicalize_stored_iff {raws stored : List String}
    (h : List.Forall₂ (fun r c => canonicalize r = .ok c) raws stored) :
    (∀ s ∈ stored, (canonicalize s).toOption = some s) ↔ ∀ raw ∈ raws, hasPercentEscape raw = false := by
  have hfix : ∀ {r c}, canonicalize r = .ok c →
      ((canonicalize c).toOption = some c ↔ hasPercentEscape r = false) := by
    intro r c hrc
    have hok : (canonicalize c).toOption = some c ↔ canonicalize c = .ok c := by
      cases canonicalize c <;> simp [Except.toOption]
    rw [hok, canonicalize_canonical_iff ⟨r, hrc⟩, percent_mem_canonicalize hrc, Bool.not_eq_true]
  induction h with
  | nil => simp
  | cons hrc hl ih => simp only [List.mem_cons, forall_eq_or_imp, hfix hrc, ih]

/-- A stored policy is read back with its own prefixes exactly when none of them was written with `%25`. -/
theorem Stored.parseColumns_iff {url : UrlHost} {raws : List String} {p : Db.NewPolicy} (h : Stored url raws p)
    (id : Uuid) (createdAt : DateTime) (managed : Bool) :
    (∃ c, parseColumns url (p.row id createdAt managed) = some c ∧ c.pathPrefixes = p.pathPrefixes) ↔
      ∀ raw ∈ raws, hasPercentEscape raw = false := by
  obtain ⟨m, hm⟩ := h.mechanism
  obtain ⟨o, ho⟩ := h.outcome
  obtain ⟨os, hos, hparse⟩ := h.origins
  have hcols : (∃ c, parseColumns url (p.row id createdAt managed) = some c ∧ c.pathPrefixes = p.pathPrefixes) ↔
      p.pathPrefixes.mapM (fun s => (canonicalize s).toOption) = some p.pathPrefixes := by
    simp only [parseColumns, Db.NewPolicy.row, hm, ho, hos, Mechanism.fromStrOpt_asStr, Policy.Outcome.fromStrOpt_asStr,
      Origin.listFromJson_listToJson hparse, h.methods, Option.bind_eq_bind, Option.bind_some]
    cases p.pathPrefixes.mapM (fun s => (canonicalize s).toOption) with
    | none => simp
    | some ps => simp
  rw [hcols, mapM_eq_some_self]
  exact canonicalize_stored_iff h.prefixes

/-- What `policy_inputs` hands over for one row: it succeeds on it and keeps its prefixes. -/
def HandedOver (url : UrlHost) (row : Db.PolicyRow) (client : Db.ClientRow) (secret : Option Db.SecretRow)
    (tags : List String) (req : Policy.RequestedGrant) (now : DateTime) : Prop :=
  ∃ out, policyInputs url client secret tags req [row] now =
    .ok (clientInput client, secret.map secretInput, [out]) ∧ out.pathPrefixes = row.pathPrefixes

theorem handedOver_iff {url : UrlHost} {row : Db.PolicyRow} {client : Db.ClientRow} {secret : Option Db.SecretRow}
    {tags : List String} {req : Policy.RequestedGrant} {now : DateTime} :
    HandedOver url row client secret tags req now ↔
      ∃ c, parseColumns url row = some c ∧ c.pathPrefixes = row.pathPrefixes := by
  unfold HandedOver policyInputs policyRows
  cases hc : parseColumns url row with
  | none =>
      simp only [policyRows]
      split <;> simp [Functor.map, Except.map]
  | some c => simp [policyRows, policyRow, Functor.map, Except.map]

/-- For every policy that config or the UI form accepts: whatever the request, the row reaches the engine with its
stored prefixes exactly when no prefix was written with an escaped `%`. -/
theorem prefixes_unchanged_iff (url : UrlHost) (id : Uuid) (createdAt : DateTime) (managed : Bool)
    (client : Db.ClientRow) (secret : Option Db.SecretRow) (tags : List String) (req : Policy.RequestedGrant)
    (now : DateTime) :
    (∀ c p, PolicyConfig.toNewPolicy url c = .ok p →
      (HandedOver url (p.row id createdAt managed) client secret tags req now ↔
        ∀ raw ∈ c.pathPrefixes, hasPercentEscape raw = false)) ∧
    ∀ parseDatetime form createdBy p, parsePolicyForm url parseDatetime form createdBy = .ok p →
      (HandedOver url (p.row id createdAt managed) client secret tags req now ↔
        ∀ raw ∈ fieldLines form.pathPrefixes, hasPercentEscape raw = false) := by
  refine ⟨?_, ?_⟩
  · intro c p hp
    rw [handedOver_iff]
    exact (PolicyConfig.toNewPolicy_stored hp).parseColumns_iff id createdAt managed
  · intro parseDatetime form createdBy p hp
    rw [handedOver_iff]
    exact (parsePolicyForm_stored hp).parseColumns_iff id createdAt managed

/-! A client, its request, and deny rules of an operator for it, one of which escapes a `%`. -/

def agentRow : Db.ClientRow := ⟨7, "agent", 2, ["brokered", "cli-read"], true, true⟩

def denyPath (raw : String) : PolicyConfig where
  client := none
  secret := some "deploy-key"
  secretTag := none
  mechanism := .brokered
  outcome := "deny"
  priority := 0
  origins := []
  methods := []
  pathPrefixes := [raw]
  maxTtlSeconds := none
  maxUses := none
  notAfter := none

def plainUrl : UrlHost := fun host => some (some host)

theorem prefixes_unchanged_plain : ∃ p, (denyPath "/admin").toNewPolicy plainUrl = .ok p ∧
    HandedOver plainUrl (p.row 1 (DateTime.ofSeconds 0) true) agentRow none [] Policy.readRepos
      (DateTime.ofSeconds 1) := by
  have hok : ((denyPath "/admin").toNewPolicy plainUrl).toOption.isSome = true := by decide +kernel
  cases hp : (denyPath "/admin").toNewPolicy plainUrl with
  | error e => rw [hp] at hok; cases hok
  | ok p =>
      refine ⟨p, rfl, ((prefixes_unchanged_iff plainUrl 1 (DateTime.ofSeconds 0) true agentRow none []
        Policy.readRepos (DateTime.ofSeconds 1)).1 (denyPath "/admin") p hp).2 ?_⟩
      simp only [denyPath, List.mem_singleton, forall_eq]
      decide

/-- The rule written `/a%2541` is stored as `/a%41` and enforced as `/aA`. -/
theorem prefixes_changed_escaped : ∃ p, (denyPath "/a%2541").toNewPolicy plainUrl = .ok p ∧
    rowIsApplicableRaw (p.row 1 (DateTime.ofSeconds 0) true) "agent" Policy.readRepos [] (DateTime.ofSeconds 1) = true ∧
    p.pathPrefixes = ["/a%41"] ∧
    (∃ out, parseColumns plainUrl (p.row 1 (DateTime.ofSeconds 0) true) = some out ∧ out.pathPrefixes = ["/aA"]) ∧
    ¬ HandedOver plainUrl (p.row 1 (DateTime.ofSeconds 0) true) agentRow none [] Policy.readRepos
      (DateTime.ofSeconds 1) := by
  have heval : ((denyPath "/a%2541").toNewPolicy plainUrl).toOption.map (fun p =>
      (rowIsApplicableRaw (p.row 1 (DateTime.ofSeconds 0) true) "agent" Policy.readRepos [] (DateTime.ofSeconds 1),
        p.pathPrefixes, (parseColumns plainUrl (p.row 1 (DateTime.ofSeconds 0) true)).map (·.pathPrefixes))) =
      some (true, ["/a%41"], some ["/aA"]) := by decide +kernel
  cases hp : (denyPath "/a%2541").toNewPolicy plainUrl with
  | error e => rw [hp] at heval; cases heval
  | ok p =>
      rw [hp] at heval
      simp only [Except.toOption, Option.map_some, Option.some.injEq, Prod.mk.injEq] at heval
      obtain ⟨happ, hpre, hcols⟩ := heval
      obtain ⟨out, hout, haA⟩ := Option.map_eq_some_iff.1 hcols
      refine ⟨p, rfl, happ, hpre, ⟨out, hout, haA⟩, ?_⟩
      rw [handedOver_iff]
      intro ⟨c, hc, hsame⟩
      rw [hout] at hc
      injection hc with hc
      rw [← hc, haA] at hsame
      have : p.pathPrefixes = ["/aA"] := hsame.symm
      rw [hpre] at this
      exact absurd this (by decide)

/-- The rule written `/100%25` is accepted, and then no request it applies to can be evaluated. -/
example : ((denyPath "/100%25").toNewPolicy plainUrl).toOption.bind (fun p =>
    match policyInputs plainUrl agentRow none [] Policy.readRepos [p.row 1 (DateTime.ofSeconds 0) true]
        (DateTime.ofSeconds 1) with
    | .error e => some e
    | .ok _ => none) = some (.policyDenied "policy set contains an unreadable rule") := by decide +kernel

end Keychute
