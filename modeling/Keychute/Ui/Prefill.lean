import Keychute.Lib.FormUrlencoded
import Keychute.PathLanguage
import Keychute.Proxy
import Keychute.Ui.PolicyValues

/-!
# A policy made from a request (`server/src/ui/mod.rs`)

* `newPolicyHref` : the link of the request page to the policy form, the request's scope in its query;
* `PolicyPrefill`, `PolicyFormValues.fromPrefill` : what the form shows for that query;
* `reads_fromPrefill` : submitted with any outcome it is accepted, as `requestRule`;
* `rule_matches_request_iff` : when the engine, handed the stored row, matches the request with it.
-/

namespace Keychute.Ui
open Keychute.Api Keychute.Lib
open Keychute.Origin (HostParsed)

/-! ## The link and its query -/

/-- `form_urlencoded`: its serializer, and the parser behind `Query`. -/
structure FormUrlencoded where
  serialize : List (String × String) → String
  parse : String → List (String × String)

/-- What was serialized is parsed back, and holds no `#`. -/
structure FormUrlencoded.Documented (form : FormUrlencoded) : Prop where
  parse_serialize : ∀ pairs, form.parse (form.serialize pairs) = pairs
  noFragment : ∀ pairs, '#' ∉ (form.serialize pairs).toList

/-- The pairs that `new_policy_href` appends. -/
def newPolicyPairs (client secret : String) (mechanism : Mechanism) (constraints : Constraints) :
    List (String × String) :=
  [("client", client), ("secret", secret), ("mechanism", mechanism.asStr)] ++
  (if constraints.origins.isEmpty then [] else [("origins", "\n".intercalate (constraints.origins.map originField))]) ++
  (if constraints.methods.isEmpty then [] else [("methods", ", ".intercalate constraints.methods)]) ++
  (if constraints.pathPrefixes.isEmpty then []
    else [("paths", "\n".intercalate (constraints.pathPrefixes.map pathField))]) ++
  [("max_ttl", toString constraints.ttlSeconds)] ++
  (match constraints.maxUses with
    | some n => [("max_uses", toString n)]
    | none => [])

/-- Link to the policy form pre-filled from a request: the rule that would have matched exactly this request. -/
def newPolicyHref (form : FormUrlencoded) (client secret : String) (mechanism : Mechanism)
    (constraints : Constraints) : String :=
  "/ui/policies?" ++ form.serialize (newPolicyPairs client secret mechanism constraints) ++ "#new-policy"

/-- The query of a link: what follows the first `?`, up to the fragment. -/
def hrefQuery (href : String) : String :=
  String.ofList (((href.toList.takeWhile (· != '#')).dropWhile (· != '?')).drop 1)

/-- Values for the policy form, from the query string. -/
structure PolicyPrefill where
  client : Option String
  secret : Option String
  mechanism : Option String
  origins : Option String
  methods : Option String
  paths : Option String
  maxTtl : Option String
  maxUses : Option String

def prefillFields : List String :=
  ["client", "secret", "mechanism", "origins", "methods", "paths", "max_ttl", "max_uses"]

/-- `Query<PolicyPrefill>`: a field given twice is refused, and what is no field is ignored. -/
def PolicyPrefill.fromPairs (pairs : List (String × String)) : Option PolicyPrefill :=
  if ((pairs.map Prod.fst).filter fun name => prefillFields.contains name).Nodup then
    some {
      client := pairs.lookup "client"
      secret := pairs.lookup "secret"
      mechanism := pairs.lookup "mechanism"
      origins := pairs.lookup "origins"
      methods := pairs.lookup "methods"
      paths := pairs.lookup "paths"
      maxTtl := pairs.lookup "max_ttl"
      maxUses := pairs.lookup "max_uses" }
  else none

/-- A field of the query as the form shows it. -/
def prefillText (v : Option String) : String := (nonEmpty v).getD ""

def PolicyFormValues.fromPrefill (p : PolicyPrefill) : PolicyFormValues where
  client := nonEmpty p.client
  secret := nonEmpty p.secret
  tag := none
  mechanism := (nonEmpty p.mechanism).bind Mechanism.fromStrOpt
  outcome := none
  priority := "0"
  origins := prefillText p.origins
  methods := prefillText p.methods
  paths := prefillText p.paths
  maxTtl := prefillText p.maxTtl
  maxUses := prefillText p.maxUses
  notAfter := ""

/-- The form of the link, submitted with an outcome and nothing else changed. -/
def submitLink (url : UrlHost) (form : FormUrlencoded) (parseDatetime : String → Option DateTime) (href : String)
    (outcome : Policy.Outcome) (createdBy : String) : Option (Except PolicyError Db.NewPolicy) :=
  (PolicyPrefill.fromPairs (form.parse (hrefQuery href))).map fun prefill =>
    parsePolicyForm url parseDatetime
      { (PolicyFormValues.fromPrefill prefill).submitted with outcome := outcome.asStr } createdBy

/-- The query of a link to the form. -/
theorem hrefQuery_link {query : String} (h : '#' ∉ query.toList) :
    hrefQuery ("/ui/policies?" ++ query ++ "#new-policy") = query := by
  have hlist : ("/ui/policies?" ++ query ++ "#new-policy").toList =
      ("/ui/policies".toList ++ '?' :: query.toList) ++ '#' :: "new-policy".toList := by
    rw [String.toList_append, String.toList_append]
    rfl
  have hpath : ∀ c ∈ "/ui/policies".toList, (c != '?') = true := List.all_eq_true.1 (by decide)
  have hfragment : ∀ c ∈ "/ui/policies".toList ++ '?' :: query.toList, (c != '#') = true := by
    intro c hc
    rw [bne_iff_ne]
    rintro rfl
    rcases List.mem_append.1 hc with hc | hc
    · have hnot := List.all_eq_true.1 (show "/ui/policies".toList.all (· != '#') = true by decide) '#' hc
      exact absurd hnot (by decide)
    · rcases List.mem_cons.1 hc with hc | hc
      · exact absurd hc (by decide)
      · exact h hc
  rw [hrefQuery, hlist, List.takeWhile_append_of_pos hfragment, List.takeWhile_cons_of_neg (by decide), List.append_nil,
    List.dropWhile_append_of_pos hpath, List.dropWhile_cons_of_neg (by decide), List.drop_one, List.tail_cons,
    String.ofList_toList]

theorem fromPairs_newPolicyPairs (client secret : String) (mechanism : Mechanism) (c : Constraints) :
    PolicyPrefill.fromPairs (newPolicyPairs client secret mechanism c) = some {
      client := some client
      secret := some secret
      mechanism := some mechanism.asStr
      origins := if c.origins.isEmpty then none else some ("\n".intercalate (c.origins.map originField))
      methods := if c.methods.isEmpty then none else some (", ".intercalate c.methods)
      paths := if c.pathPrefixes.isEmpty then none else some ("\n".intercalate (c.pathPrefixes.map pathField))
      maxTtl := some (toString c.ttlSeconds)
      maxUses := c.maxUses.map toString } := by
  unfold newPolicyPairs
  generalize "\n".intercalate (c.origins.map originField) = origins
  generalize ", ".intercalate c.methods = methods
  generalize "\n".intercalate (c.pathPrefixes.map pathField) = paths
  cases c.origins.isEmpty <;> cases c.methods.isEmpty <;> cases c.pathPrefixes.isEmpty <;> cases c.maxUses <;>
    simp [PolicyPrefill.fromPairs, prefillFields, List.lookup_cons]

/-! ## Joined fields -/

theorem head?_intercalate {α : Type} {sep : List α} {ls : List (List α)} (h : ∀ l ∈ ls, l ≠ []) :
    (sep.intercalate ls).head? = ls.head?.bind List.head? := by
  cases ls with
  | nil => rfl
  | cons a ls =>
      obtain ⟨c, cs, rfl⟩ := List.exists_cons_of_ne_nil (h a List.mem_cons_self)
      cases ls with
      | nil => rw [List.intercalate_singleton]; rfl
      | cons b ls => rw [List.intercalate_cons_cons]; rfl

theorem getLast?_intercalate {α : Type} {sep : List α} {ls : List (List α)} (h : ∀ l ∈ ls, l ≠ []) :
    (sep.intercalate ls).getLast? = ls.getLast?.bind List.getLast? := by
  induction ls with
  | nil => rfl
  | cons a ls ih =>
      rw [List.forall_mem_cons] at h
      cases ls with
      | nil => rw [List.intercalate_singleton]; rfl
      | cons b ls =>
          have hne : (b :: ls).getLast (List.cons_ne_nil b ls) ≠ [] := h.2 _ (List.getLast_mem _)
          have hlast : (b :: ls).getLast? = some ((b :: ls).getLast (List.cons_ne_nil b ls)) :=
            List.getLast?_eq_some_getLast _
          have ih := ih h.2
          rw [hlast, Option.bind_some, List.getLast?_eq_some_getLast hne] at ih
          rw [List.intercalate_cons_cons, List.append_assoc, List.getLast?_append, List.getLast?_append, ih,
            Option.some_or, Option.some_or, List.getLast?_cons_cons, hlast, Option.bind_some,
            List.getLast?_eq_some_getLast hne]

/-- Joined pieces begin and end with a character of a piece, so nothing is trimmed. -/
theorem prefillText_join (sep : String) {ls : List String}
    (h : ∀ l ∈ ls, l ≠ "" ∧ l.toList.all (fun c => !isWhitespace c) = true) :
    prefillText (if ls.isEmpty then none else some (sep.intercalate ls)) = sep.intercalate ls := by
  cases hls : ls with
  | nil =>
      rw [List.isEmpty_nil, if_pos rfl]
      rfl
  | cons first rest =>
      rw [← hls]
      have hne : ls ≠ [] := by
        rw [hls]
        simp
      have hempty : ls.isEmpty = false := by rw [hls]; rfl
      have hpieces : ∀ l ∈ ls.map String.toList, l ≠ [] ∧ ∀ c ∈ l, isWhitespace c = false := by
        intro l hl
        obtain ⟨s, hs, rfl⟩ := List.mem_map.1 hl
        refine ⟨fun hnil => (h s hs).1 (String.toList_injective hnil), fun c hc => ?_⟩
        have hplain := List.all_eq_true.1 (h s hs).2 c hc
        rwa [Bool.not_eq_true'] at hplain
      have htext : (sep.intercalate ls).toList = sep.toList.intercalate (ls.map String.toList) := String.toList_intercalate
      have hhead := @head?_intercalate _ sep.toList _ fun l hl => (hpieces l hl).1
      have hlast := @getLast?_intercalate _ sep.toList _ fun l hl => (hpieces l hl).1
      rw [← htext] at hhead hlast
      have hmap : ls.map String.toList ≠ [] := by simpa using hne
      have hfirst := hpieces _ (List.head_mem hmap)
      have hend := hpieces _ (List.getLast_mem hmap)
      rw [List.head?_eq_some_head hmap, Option.bind_some, List.head?_eq_some_head hfirst.1] at hhead
      rw [List.getLast?_eq_some_getLast hmap, Option.bind_some, List.getLast?_eq_some_getLast hend.1] at hlast
      have htrim : trim (sep.intercalate ls) = sep.intercalate ls := by
        rw [trim_eq_self_iff, List.dropWhile_eq_self_iff, List.rdropWhile_eq_self_iff]
        refine ⟨fun hl => ?_, fun hl => ?_⟩
        · rw [List.head?_eq_getElem?, List.getElem?_eq_getElem hl, Option.some.injEq] at hhead
          rw [hhead, hfirst.2 _ (List.head_mem _)]
          exact Bool.false_ne_true
        · rw [List.getLast?_eq_some_getLast hl, Option.some.injEq] at hlast
          rw [hlast, hend.2 _ (List.getLast_mem _)]
          exact Bool.false_ne_true
      have hjoined : sep.intercalate ls ≠ "" := by
        intro hnil
        rw [hnil] at hhead
        cases hhead
      rw [hempty, if_neg Bool.false_ne_true, prefillText, nonEmpty_self htrim hjoined, Option.getD_some]

/-! ## The rule -/

/-- The rule that the form writes for a request: its names trimmed, the rest as it is. -/
def requestRule (client secret : String) (mechanism : Mechanism) (c : Constraints) (outcome : Policy.Outcome)
    (createdBy : String) : Db.NewPolicy where
  clientName := nonEmpty (some client)
  secretName := nonEmpty (some secret)
  secretTag := none
  mechanism := mechanism.asStr
  outcome := outcome.asStr
  priority := 0
  origins := Origin.listToJson c.origins
  methods := c.methods
  pathPrefixes := c.pathPrefixes
  maxTtlSeconds := some c.ttlSeconds
  maxUses := c.maxUses.map Int.ofNat
  notAfter := none
  createdBy := createdBy

/-- The constraints of a request that was accepted, as far as the form reads them. -/
structure Acceptable (url : UrlHost) (mechanism : Mechanism) (c : Constraints) : Prop where
  origins : ∀ o ∈ c.origins, o.Accepted url
  named : mechanism = .brokered → c.origins ≠ []
  methods : ∀ m ∈ c.methods, isValidHttpMethod m = true ∧ toAsciiUppercase m = m
  pathPrefixes : ∀ p ∈ c.pathPrefixes, Canonical p
  ttlSeconds : 1 ≤ c.ttlSeconds ∧ c.ttlSeconds ≤ maxTtlSeconds
  maxUses : ∀ n, c.maxUses = some n → 1 ≤ n ∧ n ≤ Api.maxUses

theorem validateMethods_ok {ms ms' : List String} (h : validateMethods ms = .ok ms') :
    ∀ m ∈ ms', isValidHttpMethod m = true ∧ toAsciiUppercase m = m := by
  induction ms generalizing ms' with
  | nil =>
      cases h
      simp
  | cons m ms ih =>
      rw [validateMethods] at h
      split at h
      · cases h
      · rename_i hvalid
        rw [Bool.not_eq_true', Bool.not_eq_false] at hvalid
        cases hms : validateMethods ms with
        | error e =>
            rw [hms] at h
            cases h
        | ok rest =>
            rw [hms] at h
            cases h
            rw [List.forall_mem_cons]
            exact ⟨⟨isValidHttpMethod_upper hvalid, toAsciiUppercase_idem m⟩, ih hms⟩

theorem validatePrefixes_ok {ps ps' : List String} (h : validatePrefixes ps = .ok ps') : ∀ p ∈ ps', Canonical p := by
  induction ps generalizing ps' with
  | nil =>
      cases h
      simp
  | cons p ps ih =>
      rw [validatePrefixes] at h
      split at h
      · cases h
      · rename_i c hc
        cases hps : validatePrefixes ps with
        | error e =>
            rw [hps] at h
            cases h
        | ok rest =>
            rw [hps] at h
            cases h
            rw [List.forall_mem_cons]
            exact ⟨⟨p, hc⟩, ih hps⟩

theorem validateUses_ok {mechanism : Mechanism} {c : Constraints} {methods : List String} {uses : Option Nat}
    (h : validateUses mechanism c methods = .ok uses) :
    (mechanism = .brokered → c.origins ≠ []) ∧ ∀ n, uses = some n → 1 ≤ n ∧ n ≤ Api.maxUses := by
  unfold validateUses at h
  split at h
  · split at h
    · cases h
    · rename_i hone
      have hne : c.origins ≠ [] := by
        intro hnil
        rw [hnil] at hone
        exact hone (by decide)
      split at h
      · cases h
      · split at h
        · cases h
        · rename_i u hzero _
          split at h
          · cases h
          · rename_i hle
            cases h
            refine ⟨fun _ => hne, fun n hn => ?_⟩
            cases hn
            exact ⟨Nat.pos_of_ne_zero fun hz => hzero (hz ▸ rfl), not_lt.1 hle⟩
        · cases h
          exact ⟨fun _ => hne, fun n hn => by cases hn⟩
  · rename_i hmech
    refine ⟨fun hm => absurd hm hmech, ?_⟩
    split at h
    · cases h
      rintro n hn
      cases hn
      exact ⟨le_refl 1, by decide⟩
    · cases h
      rintro n hn
      cases hn
      exact ⟨le_refl 1, by decide⟩
    · cases h

theorem acceptable_of_validateRequest {url : UrlHost} {req : CreateAccessRequest} {c : Constraints}
    (h : validateRequest req = .ok c) (horigins : ∀ o ∈ req.constraints.origins, o.Accepted url) :
    Acceptable url req.mechanism c := by
  obtain ⟨hos, hms, hps, -, hmin, hmax, huses⟩ := validateRequest_spec h
  obtain ⟨hnamed, hbounds⟩ := validateUses_ok huses
  rw [← hos] at hnamed horigins
  exact ⟨horigins, hnamed, validateMethods_ok hms, validatePrefixes_ok hps, ⟨hmin, hmax⟩, hbounds⟩

section Rule
variable {url : UrlHost} {mechanism : Mechanism} {c : Constraints} {outcome : Policy.Outcome}

theorem prefillText_toString (n : Nat) : prefillText (some (toString n)) = numberField (some (n : Int)) := by
  have htext : nonEmpty (some (toString n)) = some (toString n) := nonEmpty_toString n
  rw [prefillText, htext]
  rfl

theorem prefillText_maxUses (uses : Option Nat) :
    prefillText (uses.map toString) = numberField (uses.map Int.ofNat) := by
  cases uses with
  | none => rfl
  | some n => exact prefillText_toString n

theorem known_asStr (outcome : Policy.Outcome) :
    trim outcome.asStr = outcome.asStr ∧
      ["require-approval", "notify-only", "auto-approve", "deny"].contains outcome.asStr = true := by
  cases outcome <;> decide +kernel

theorem originField_piece (hc : Acceptable url mechanism c) : ∀ l ∈ c.origins.map originField,
    l ≠ "" ∧ l.toList.all (fun ch => !isWhitespace ch) = true := by
  intro l hl
  obtain ⟨o, ho, rfl⟩ := List.mem_map.1 hl
  obtain ⟨hhost, hport⟩ := (hc.origins o ho).parsed
  refine ⟨?_, ?_⟩
  · intro hnil
    have hread := parse_originField hhost hport
    rw [hnil] at hread
    cases hread
  · rw [List.all_eq_true]
    intro ch hch
    rw [(originField_plain hhost hch).1]
    rfl

theorem method_not_whitespace {m : String} (h : isValidHttpMethod m = true) :
    m ≠ "" ∧ m.toList.all (fun ch => !isWhitespace ch) = true := by
  obtain ⟨hne, hall⟩ := method_piece h
  refine ⟨hne, ?_⟩
  rw [List.all_eq_true] at hall ⊢
  intro ch hch
  have hpiece := hall ch hch
  rw [Bool.not_eq_true', Bool.or_eq_false_iff] at hpiece
  rw [hpiece.2]
  rfl

theorem pathField_piece (hc : Acceptable url mechanism c) : ∀ l ∈ c.pathPrefixes.map pathField,
    l ≠ "" ∧ l.toList.all (fun ch => !isWhitespace ch) = true := by
  intro l hl
  obtain ⟨p, hp, rfl⟩ := List.mem_map.1 hl
  refine ⟨pathField_ne_empty (hc.pathPrefixes p hp), ?_⟩
  rw [List.all_eq_true]
  intro ch hch
  rw [pathField_plain ch hch]
  rfl

/-- The form of the link, with an outcome. -/
def requestForm (client secret : String) (mechanism : Mechanism) (c : Constraints) (outcome : Policy.Outcome) :
    PolicyForm where
  clientName := some ((nonEmpty (some client)).getD "")
  secretName := some ((nonEmpty (some secret)).getD "")
  secretTag := some ""
  mechanism := mechanism.asStr
  outcome := outcome.asStr
  priority := some "0"
  origins := some ("\n".intercalate (c.origins.map originField))
  methods := some (", ".intercalate c.methods)
  pathPrefixes := some ("\n".intercalate (c.pathPrefixes.map pathField))
  maxTtlSeconds := some (numberField (some (c.ttlSeconds : Int)))
  maxUses := some (numberField (c.maxUses.map Int.ofNat))
  notAfter := some ""

theorem submitted_fromPrefill (hc : Acceptable url mechanism c) (client secret : String) {prefill : PolicyPrefill}
    (hpre : PolicyPrefill.fromPairs (newPolicyPairs client secret mechanism c) = some prefill) :
    { (PolicyFormValues.fromPrefill prefill).submitted with outcome := outcome.asStr } =
      requestForm client secret mechanism c outcome := by
  rw [fromPairs_newPolicyPairs, Option.some.injEq] at hpre
  subst hpre
  have hmech : ((nonEmpty (some mechanism.asStr)).bind Mechanism.fromStrOpt).getD .brokered = mechanism := by
    cases mechanism <;> decide +kernel
  have horigins := prefillText_join "\n" (originField_piece hc)
  have hmethods := prefillText_join ", " fun m hm => method_not_whitespace (hc.methods m hm).1
  have hpaths := prefillText_join "\n" (pathField_piece hc)
  rw [List.isEmpty_map] at horigins hpaths
  unfold PolicyFormValues.fromPrefill PolicyFormValues.submitted requestForm
  simp only [hmech, horigins, hmethods, hpaths, prefillText_toString, prefillText_maxUses, Option.getD_none]

/-- It is read as the columns of the rule. -/
theorem reads_requestForm (hc : Acceptable url mechanism c) (parseDatetime : String → Option DateTime)
    (client secret createdBy : String) :
    (requestForm client secret mechanism c outcome).Reads url parseDatetime mechanism c.origins
      (requestRule client secret mechanism c outcome createdBy) where
  clientName := by
    dsimp only [requestForm, requestRule]
    rw [nonEmpty_picked]
  secretName := by
    dsimp only [requestForm, requestRule]
    rw [nonEmpty_picked]
  secretTag := nonEmpty_empty
  single := Bool.and_false _
  mechanism := fromStrOpt_trim_asStr mechanism
  mechanismText := rfl
  outcome := (known_asStr outcome).1
  known := (known_asStr outcome).2
  priority := by
    show parsePriority (some "0") = .ok 0
    decide +kernel
  origins := by
    refine parseOrigins_join fun o ho => ?_
    obtain ⟨hhost, hport⟩ := (hc.origins o ho).parsed
    exact ⟨_, parse_originField hhost hport⟩
  originsJson := rfl
  named := by
    rw [Bool.and_assoc, Bool.and_eq_false_iff, beq_eq_false_iff_ne]
    by_cases hm : mechanism = .brokered
    · rw [List.isEmpty_eq_false_iff.2 (hc.named hm), Bool.false_and]
      exact Or.inr rfl
    · exact Or.inl hm
  methods := parseMethodsField_join hc.methods
  pathPrefixes := parsePrefixes_join hc.pathPrefixes
  maxTtlSeconds := by
    refine parsePositive_numberField fun k hk => ?_
    obtain rfl := Option.some.inj hk
    obtain ⟨hmin, hmax⟩ := hc.ttlSeconds
    unfold maxTtlSeconds at hmax
    omega
  maxUses := by
    refine parsePositive_numberField fun k hk => ?_
    obtain ⟨u, hu, rfl⟩ := Option.map_eq_some_iff.1 hk
    obtain ⟨hmin, hmax⟩ := hc.maxUses u hu
    unfold Api.maxUses at hmax
    rw [Int.ofNat_eq_natCast]
    omega
  notAfter := by
    show parseNotAfter parseDatetime (some "") = .ok none
    unfold parseNotAfter
    rw [nonEmpty_empty]

/-- The form is always accepted, as the rule. -/
theorem submitLink_eq (hc : Acceptable url mechanism c) {form : FormUrlencoded} (hform : form.Documented)
    (parseDatetime : String → Option DateTime) (client secret createdBy : String) :
    submitLink url form parseDatetime (newPolicyHref form client secret mechanism c) outcome createdBy =
      some (.ok (requestRule client secret mechanism c outcome createdBy)) := by
  have hquery : form.parse (hrefQuery (newPolicyHref form client secret mechanism c)) =
      newPolicyPairs client secret mechanism c := by
    rw [newPolicyHref, hrefQuery_link (hform.noFragment _), hform.parse_serialize]
  rw [submitLink, hquery]
  cases hpre : PolicyPrefill.fromPairs (newPolicyPairs client secret mechanism c) with
  | none =>
      rw [fromPairs_newPolicyPairs] at hpre
      cases hpre
  | some prefill =>
      rw [Option.map_some, submitted_fromPrefill hc client secret hpre,
        (reads_requestForm hc parseDatetime client secret createdBy).accepted createdBy]
      simp only [requestRule]

/-! ### The rule, handed to the engine -/

theorem parseColumns_requestRule (hc : Acceptable url mechanism c) (client secret createdBy : String) (id : Uuid)
    (createdAt : DateTime) (managed : Bool) :
    parseColumns url ((requestRule client secret mechanism c outcome createdBy).row id createdAt managed) =
      (c.pathPrefixes.mapM fun p => (canonicalize p).toOption).map fun ps => ⟨mechanism, outcome, c.origins, ps⟩ := by
  have hos : ∀ o ∈ c.origins, ∃ s, Origin.parse url s = .ok o := by
    intro o ho
    obtain ⟨hhost, hport⟩ := (hc.origins o ho).parsed
    exact ⟨_, parse_originField hhost hport⟩
  have hmethods : c.methods.all isValidHttpMethod = true := List.all_eq_true.2 fun m hm => (hc.methods m hm).1
  simp only [parseColumns, Db.NewPolicy.row, requestRule, Mechanism.fromStrOpt_asStr, Policy.Outcome.fromStrOpt_asStr,
    Origin.listFromJson_listToJson hos, hmethods, Option.bind_eq_bind, Option.bind_some]
  cases c.pathPrefixes.mapM fun p => (canonicalize p).toOption with
  | none => rfl
  | some ps => rfl

theorem mem_mapM_some {α β : Type} {f : α → Option β} {l : List α} {l' : List β} (h : l.mapM f = some l') (b : β) :
    b ∈ l' ↔ ∃ a ∈ l, f a = some b := by
  induction l generalizing l' with
  | nil =>
      cases h
      simp
  | cons a l ih =>
      rw [List.mapM_cons] at h
      cases ha : f a with
      | none =>
          rw [ha] at h
          cases h
      | some x =>
          cases hl : l.mapM f with
          | none =>
              rw [ha, hl] at h
              cases h
          | some xs =>
              rw [ha, hl] at h
              cases h
              simp [ih hl, ha, eq_comm]

theorem toOption_eq_some {p d : String} : (canonicalize p).toOption = some d ↔ canonicalize p = .ok d := by
  cases canonicalize p with
  | error e => simp [Except.toOption]
  | ok s => simp [Except.toOption]

/-- The row applies to the request if the name that the form trimmed is the request's, or if nothing was left of it. -/
theorem rowIsApplicableRaw_requestRule {client secret : String} (hclient : trim client = client) {createdBy : String}
    {id : Uuid} {createdAt now : DateTime} {managed : Bool} {tags : List String} :
    rowIsApplicableRaw ((requestRule client secret mechanism c outcome createdBy).row id createdAt managed) client
        ⟨secret, mechanism, c⟩ tags now = true ↔ trim secret = secret ∨ trim secret = "" := by
  have hany : (nonEmpty (some client)).any (· ≠ client) = false := by
    rw [nonEmpty, Option.map_some, hclient, Option.filter_some]
    split <;> simp
  unfold rowIsApplicableRaw requestRule Db.NewPolicy.row
  simp only [hany, Option.any_none, Bool.false_eq_true, ne_eq, not_true_eq_false, if_false]
  rw [nonEmpty, Option.map_some, Option.filter_some]
  by_cases hempty : trim secret = ""
  · rw [hempty]
    simp
  · rw [if_pos (decide_eq_true hempty)]
    simp [hempty]

theorem listSubset_refl {α : Type} {l : List α} {covers : α → α → Bool} (h : ∀ a, covers a a = true) :
    Policy.listSubset l l covers = true := by
  unfold Policy.listSubset
  split
  · assumption
  · rw [Bool.or_eq_true, List.all_eq_true]
    exact Or.inr fun a ha => List.any_eq_true.2 ⟨a, ha, h a⟩

/-- The request is within the engine's row exactly when the row's prefixes still match the request's. -/
theorem requestIsSubset_requestRule {client secret createdBy : String} {id : Uuid} {createdAt : DateTime} {managed : Bool}
    {ps : List String} :
    Policy.requestIsSubset (policyRow ((requestRule client secret mechanism c outcome createdBy).row id createdAt managed)
        ⟨mechanism, outcome, c.origins, ps⟩) c = Policy.listSubset ps c.pathPrefixes prefixMatches := by
  have huses : (c.maxUses.map Int.ofNat).map Int.toNat = c.maxUses := by
    cases c.maxUses <;> rfl
  unfold Policy.requestIsSubset policyRow Db.NewPolicy.row requestRule
  simp only [huses]
  rw [listSubset_refl fun o => Origin.sameTarget_iff.2 ⟨rfl, rfl⟩, listSubset_refl fun m => by simp [eqIgnoreAsciiCase]]
  cases Policy.listSubset ps c.pathPrefixes prefixMatches with
  | false => rfl
  | true =>
      cases c.maxUses with
      | none => simp
      | some n => simp

/-- The engine's row for a stored rule, if its prefixes decode again. -/
theorem policyInputs_requestRule (hc : Acceptable url mechanism c) {client : Db.ClientRow} {secret createdBy : String}
    {secretRow : Option Db.SecretRow} {tags : List String} {id : Uuid} {createdAt now : DateTime} {managed : Bool}
    {ps : List String} (hps : c.pathPrefixes.mapM (fun p => (canonicalize p).toOption) = some ps)
    {rows : List Db.PolicyRow}
    (hrow : (requestRule client.name secret mechanism c outcome createdBy).row id createdAt managed ∈ rows)
    {pc : Policy.ClientRow} {psec : Option Policy.SecretRow} {outs : List Policy.PolicyRow}
    (h : policyInputs url client secretRow tags ⟨secret, mechanism, c⟩ rows now = .ok (pc, psec, outs)) :
    pc = clientInput client ∧
      policyRow ((requestRule client.name secret mechanism c outcome createdBy).row id createdAt managed)
        ⟨mechanism, outcome, c.origins, ps⟩ ∈ outs := by
  rw [policyInputs, policyRows_eq] at h
  split at h
  · cases h
  · cases h
    refine ⟨rfl, List.mem_filterMap.2 ⟨_, hrow, ?_⟩⟩
    rw [parseColumns_requestRule hc, hps]
    rfl

end Rule

/-- Stored, and handed to the engine by `policy_inputs`, the rule applies to the request, and the request is within it;
so wherever it stands among the rules it denies the request, or is a candidate for it. -/
def RuleMatches (url : UrlHost) (rule : Db.NewPolicy) (outcome : Policy.Outcome) (client : Db.ClientRow)
    (requested : Policy.RequestedGrant) : Prop :=
  ∀ id createdAt managed secret tags now, ∃ out,
    policyInputs url client secret tags requested [rule.row id createdAt managed] now =
        .ok (clientInput client, secret.map secretInput, [out]) ∧
      out.outcome = outcome ∧ Policy.isApplicable out (clientInput client) requested tags now = true ∧
      Policy.requestIsSubset out requested.constraints = true ∧
      ∀ rows pc psec outs, rule.row id createdAt managed ∈ rows →
        policyInputs url client secret tags requested rows now = .ok (pc, psec, outs) →
          (outcome = .deny → ∃ reason, (Policy.evaluate pc psec tags requested outs now).decision = .deny reason) ∧
            (outcome ≠ .deny → Policy.Candidate pc tags requested outs now out)

/-- Each prefix decodes again, and is under one that has nothing to decode. -/
def PlainlyCovered (ps : List String) : Prop :=
  ∀ p ∈ ps, (∃ d, canonicalize p = .ok d) ∧ ∃ e ∈ ps, percent ∉ bytes e ∧ prefixMatches e p = true

section Match
variable {url : UrlHost} {mechanism : Mechanism} {c : Constraints} {outcome : Policy.Outcome} {client : Db.ClientRow}
  {secret createdBy : String}

/-- The prefixes that the engine is handed cover the request's exactly when the condition holds. -/
theorem listSubset_redecoded_iff {ps ds : List String} (hps : ∀ p ∈ ps, Canonical p)
    (hds : ps.mapM (fun p => (canonicalize p).toOption) = some ds) :
    Policy.listSubset ds ps prefixMatches = true ↔ PlainlyCovered ps := by
  have hdecode : ∀ p ∈ ps, ∃ d, canonicalize p = .ok d := by
    intro p hp
    cases hd : (canonicalize p).toOption with
    | some d => exact ⟨d, toOption_eq_some.1 hd⟩
    | none =>
        rw [mapM_option_eq_none.2 ⟨p, hp, hd⟩] at hds
        cases hds
  have hmem : ∀ d, d ∈ ds ↔ ∃ r ∈ ps, canonicalize r = .ok d := by
    intro d
    simp only [mem_mapM_some hds, toOption_eq_some]
  have hcover : PlainlyCovered ps ↔ ∀ p ∈ ps, ∃ r ∈ ps, ∃ d, canonicalize r = .ok d ∧ prefixMatches d p = true := by
    rw [redecoded_cover_iff fun p hp => ⟨hps p hp, hdecode p hp⟩]
    exact ⟨fun h p hp => (h p hp).2, fun h p hp => ⟨hdecode p hp, h p hp⟩⟩
  rw [hcover]
  unfold Policy.listSubset
  cases hnil : ps with
  | nil =>
      rw [hnil] at hds
      cases hds
      simp
  | cons p rest =>
      rw [← hnil, if_neg (by simp [hnil])]
      have hne : ds.isEmpty = false := by
        obtain ⟨d, hd⟩ := hdecode p (by rw [hnil]; exact List.mem_cons_self)
        exact List.isEmpty_eq_false_iff.2 (List.ne_nil_of_mem ((hmem d).2 ⟨p, by rw [hnil]; exact List.mem_cons_self, hd⟩))
      rw [hne, Bool.false_or, List.all_eq_true]
      refine forall₂_congr fun p _ => ?_
      rw [List.any_eq_true]
      constructor
      · rintro ⟨d, hd, hdp⟩
        obtain ⟨r, hr, hrd⟩ := (hmem d).1 hd
        exact ⟨r, hr, d, hrd, hdp⟩
      · rintro ⟨r, hr, d, hrd, hdp⟩
        exact ⟨d, (hmem d).2 ⟨r, hr, hrd⟩, hdp⟩

/-- One row that parses. -/
theorem policyInputs_one {r : Db.PolicyRow} {cols : ParsedColumns} (h : parseColumns url r = some cols)
    (secretRow : Option Db.SecretRow) (tags : List String) (req : Policy.RequestedGrant) (now : DateTime) :
    policyInputs url client secretRow tags req [r] now =
      .ok (clientInput client, secretRow.map secretInput, [policyRow r cols]) := by
  unfold policyInputs policyRows
  rw [h]
  rfl

/-- One row that applies and does not parse. -/
theorem policyInputs_unreadable {r : Db.PolicyRow} (h : parseColumns url r = none) {secretRow : Option Db.SecretRow}
    {tags : List String} {req : Policy.RequestedGrant} {now : DateTime} {out : Policy.PolicyRow} :
    policyInputs url client secretRow tags req [r] now ≠ .ok (clientInput client, secretRow.map secretInput, [out]) := by
  unfold policyInputs policyRows
  rw [h]
  simp only [policyRows]
  split
  · intro heq
    cases heq
  · intro heq
    cases heq

theorem ruleMatches_iff (hc : Acceptable url mechanism c) (hclient : trim client.name = client.name) :
    RuleMatches url (requestRule client.name secret mechanism c outcome createdBy) outcome client
        ⟨secret, mechanism, c⟩ ↔
      (trim secret = secret ∨ trim secret = "") ∧ PlainlyCovered c.pathPrefixes := by
  constructor
  · intro h
    obtain ⟨out, hinputs, -, happ, hsub, -⟩ := h ⟨0, by decide⟩ (DateTime.ofSeconds 0) false none [] (DateTime.ofSeconds 0)
    have hcols := @parseColumns_requestRule _ _ _ outcome hc client.name secret createdBy ⟨0, by decide⟩
      (DateTime.ofSeconds 0) false
    cases hps : c.pathPrefixes.mapM fun p => (canonicalize p).toOption with
    | none =>
        rw [hps] at hcols
        exact absurd hinputs (policyInputs_unreadable hcols)
    | some ps =>
        rw [hps, Option.map_some] at hcols
        rw [policyInputs_one hcols] at hinputs
        obtain rfl : _ = out := (List.cons.inj (Prod.mk.inj (Prod.mk.inj (Except.ok.inj hinputs)).2).2).1
        rw [isApplicable_policyRow hcols, rowIsApplicableRaw_requestRule hclient] at happ
        rw [requestIsSubset_requestRule] at hsub
        exact ⟨happ, (listSubset_redecoded_iff hc.pathPrefixes hps).1 hsub⟩
  · rintro ⟨hname, hpaths⟩ id createdAt managed secretRow tags now
    obtain ⟨ps, hps⟩ : ∃ ps, c.pathPrefixes.mapM (fun p => (canonicalize p).toOption) = some ps := by
      cases hps : c.pathPrefixes.mapM fun p => (canonicalize p).toOption with
      | some ps => exact ⟨ps, rfl⟩
      | none =>
          obtain ⟨p, hp, hbad⟩ := mapM_option_eq_none.1 hps
          obtain ⟨d, hd⟩ := (hpaths p hp).1
          rw [toOption_eq_some.2 hd] at hbad
          cases hbad
    have hcols := @parseColumns_requestRule _ _ _ outcome hc client.name secret createdBy id createdAt managed
    rw [hps, Option.map_some] at hcols
    have happ : Policy.isApplicable _ (clientInput client) ⟨secret, mechanism, c⟩ tags now = true :=
      (isApplicable_policyRow hcols client _ tags now).trans ((rowIsApplicableRaw_requestRule hclient).2 hname)
    have hsub := (listSubset_redecoded_iff hc.pathPrefixes hps).2 hpaths
    rw [← @requestIsSubset_requestRule mechanism c outcome client.name secret createdBy id createdAt managed ps] at hsub
    refine ⟨_, policyInputs_one hcols secretRow tags _ now, rfl, happ, hsub, ?_⟩
    intro rows pc psec outs hrow hinputs
    obtain ⟨rfl, hmem⟩ := policyInputs_requestRule hc hps hrow hinputs
    refine ⟨fun hdeny => ?_, fun hne => ⟨hmem, happ, hne, hsub⟩⟩
    have hcanonical : ∀ d ∈ ps, Canonical d := by
      intro d hd
      obtain ⟨r, -, hr⟩ := (mem_mapM_some hps d).1 hd
      exact ⟨r, toOption_eq_some.1 hr⟩
    have hoverlap := scopesOverlap_of_requestIsSubset hsub hcanonical hc.pathPrefixes
    exact Policy.evaluate_of_refused (Or.inr ⟨_, hmem, happ, hdeny, hoverlap⟩)

end Match

/-- The rule made from an accepted request, with any outcome, matches that request exactly when trimming keeps the
secret's name or nothing of it, and each prefix decodes again and is under one without `%`. -/
theorem rule_matches_request_iff (url : UrlHost) (form : FormUrlencoded) (hform : form.Documented)
    (parseDatetime : String → Option DateTime) (client : Db.ClientRow) (hclient : trim client.name = client.name)
    (req : CreateAccessRequest) (c : Constraints) (hreq : validateRequest req = .ok c)
    (horigins : ∀ o ∈ req.constraints.origins, o.Accepted url) (outcome : Policy.Outcome) (createdBy : String) :
    (∃ rule, submitLink url form parseDatetime (newPolicyHref form client.name req.secretName req.mechanism c) outcome
          createdBy = some (.ok rule) ∧
        RuleMatches url rule outcome client ⟨req.secretName, req.mechanism, c⟩) ↔
      (trim req.secretName = req.secretName ∨ trim req.secretName = "") ∧ PlainlyCovered c.pathPrefixes := by
  have hc := acceptable_of_validateRequest hreq horigins
  rw [submitLink_eq hc hform, ← ruleMatches_iff hc hclient]
  constructor
  · rintro ⟨rule, hrule, hmatch⟩
    obtain rfl := Except.ok.inj (Option.some.inj hrule)
    exact hmatch
  · intro hmatch
    exact ⟨_, rfl, hmatch⟩

/-! ### Links in ASCII -/

/-- The serializer and the parser on the UTF-8 of names and values. -/
def asciiForm : FormUrlencoded where
  serialize pairs := String.ofList
    ((Lib.FormUrlencoded.serializePairs (pairs.map fun p => (bytes p.1, bytes p.2))).map Http.visibleChar)
  parse s := (Lib.FormUrlencoded.parsePairs (bytes s)).map fun p => ((fromUtf8 p.1).getD "", (fromUtf8 p.2).getD "")

theorem asciiForm_documented : asciiForm.Documented := by
  have hplain : ∀ n : Fin 256, (Lib.FormUrlencoded.plain ⟨⟨n⟩⟩ || (⟨⟨n⟩⟩ : UInt8) == 38 || (⟨⟨n⟩⟩ : UInt8) == 61) = true →
      Http.visibleByte ⟨⟨n⟩⟩ = true ∧ Http.visibleChar ⟨⟨n⟩⟩ ≠ '#' := by decide +kernel
  refine ⟨fun pairs => ?_, fun pairs hmem => ?_⟩
  · show (Lib.FormUrlencoded.parsePairs (bytes (String.ofList _))).map _ = pairs
    rw [Http.bytes_visible fun b hb => (hplain b.toBitVec.toFin (Lib.FormUrlencoded.plain_serializePairs hb)).1,
      Lib.FormUrlencoded.parsePairs_serializePairs, List.map_map]
    refine (List.map_congr_left fun p _ => ?_).trans (List.map_id _)
    show ((fromUtf8 (bytes p.1)).getD "", (fromUtf8 (bytes p.2)).getD "") = p
    rw [fromUtf8_eq_some.2 rfl, fromUtf8_eq_some.2 rfl]
    rfl
  · have hmem : '#' ∈ (String.ofList ((Lib.FormUrlencoded.serializePairs
        (pairs.map fun p => (bytes p.1, bytes p.2))).map Http.visibleChar)).toList := hmem
    rw [String.toList_ofList] at hmem
    obtain ⟨b, hb, heq⟩ := List.mem_map.1 hmem
    exact (hplain b.toBitVec.toFin (Lib.FormUrlencoded.plain_serializePairs hb)).2 heq

/-- A request for a secret, under one path. -/
def namedRequest (secret path : String) : CreateAccessRequest where
  idempotencyKey := "k1"
  secretName := secret
  mechanism := .brokered
  constraints := ⟨[⟨"api.example.com", none⟩], ["get"], [path], 600, none⟩
  context := ⟨"", none⟩

theorem namedRequest_origins (secret path : String) :
    ∀ o ∈ (namedRequest secret path).constraints.origins, o.Accepted plainUrl := by
  intro o ho
  obtain rfl := List.mem_singleton.1 ho
  exact Or.inl ⟨"api.example.com", by decide +kernel⟩

theorem rule_matches_request_plain : ∃ rule, submitLink plainUrl asciiForm (fun _ => none)
      (newPolicyHref asciiForm "agent" "deploy-key" .brokered
        ⟨[⟨"api.example.com", none⟩], ["GET"], ["/a b"], 600, none⟩) .deny "alice" = some (.ok rule) ∧
    RuleMatches plainUrl rule .deny agentRow
      ⟨"deploy-key", .brokered, ⟨[⟨"api.example.com", none⟩], ["GET"], ["/a b"], 600, none⟩⟩ := by
  refine (rule_matches_request_iff plainUrl asciiForm asciiForm_documented (fun _ => none) agentRow (by decide +kernel)
    (namedRequest "deploy-key" "/a%20b") ⟨[⟨"api.example.com", none⟩], ["GET"], ["/a b"], 600, none⟩
    (by decide +kernel) (namedRequest_origins _ _) .deny "alice").2 ⟨Or.inl (by decide +kernel), ?_⟩
  intro p hp
  obtain rfl := List.mem_singleton.1 hp
  exact ⟨⟨"/a b", by decide +kernel⟩, "/a b", hp, by decide +kernel, by decide +kernel⟩

/-- The deny rule made from a request for ` deploy-key` is one for `deploy-key`, and the request goes on to a human; the
one made from a request under `/a%41` (written `/a%2541`) is enforced for `/aA`. -/
theorem rule_misses_request :
    (∃ rule, submitLink plainUrl asciiForm (fun _ => none)
          (newPolicyHref asciiForm "agent" " deploy-key" .brokered
            ⟨[⟨"api.example.com", none⟩], ["GET"], ["/a"], 600, none⟩) .deny "alice" = some (.ok rule) ∧
        rule.secretName = some "deploy-key" ∧
        ¬ RuleMatches plainUrl rule .deny agentRow
          ⟨" deploy-key", .brokered, ⟨[⟨"api.example.com", none⟩], ["GET"], ["/a"], 600, none⟩⟩) ∧
      ∃ rule, submitLink plainUrl asciiForm (fun _ => none)
          (newPolicyHref asciiForm "agent" "deploy-key" .brokered
            ⟨[⟨"api.example.com", none⟩], ["GET"], ["/a%41"], 600, none⟩) .deny "alice" = some (.ok rule) ∧
        (parseColumns plainUrl (rule.row 1 (DateTime.ofSeconds 0) false)).map (·.pathPrefixes) = some ["/aA"] ∧
        ¬ RuleMatches plainUrl rule .deny agentRow
          ⟨"deploy-key", .brokered, ⟨[⟨"api.example.com", none⟩], ["GET"], ["/a%41"], 600, none⟩⟩ := by
  have hclient : trim agentRow.name = agentRow.name := by decide +kernel
  have hspaced := @acceptable_of_validateRequest plainUrl (namedRequest " deploy-key" "/a")
    ⟨[⟨"api.example.com", none⟩], ["GET"], ["/a"], 600, none⟩ (by decide +kernel) (namedRequest_origins _ _)
  have hescaped := @acceptable_of_validateRequest plainUrl (namedRequest "deploy-key" "/a%2541")
    ⟨[⟨"api.example.com", none⟩], ["GET"], ["/a%41"], 600, none⟩ (by decide +kernel) (namedRequest_origins _ _)
  refine ⟨⟨_, submitLink_eq hspaced asciiForm_documented _ "agent" " deploy-key" "alice", by decide +kernel, ?_⟩,
    ⟨_, submitLink_eq hescaped asciiForm_documented _ "agent" "deploy-key" "alice", by decide +kernel, ?_⟩⟩
  · intro h
    have hname := ((ruleMatches_iff hspaced hclient).1 h).1
    revert hname
    decide +kernel
  · intro h
    obtain ⟨-, e, he, hplain, -⟩ := ((ruleMatches_iff hescaped hclient).1 h).2 "/a%41" (List.mem_singleton_self _)
    obtain rfl := List.mem_singleton.1 he
    revert hplain
    decide +kernel

end Keychute.Ui
