import Keychute.Api.Requests
import Mathlib.Data.Set.Basic

/-!
# What a grant admits (`server/src/proxy.rs`, `handle_inner`)

* `Call` : a request to an origin, with a canonical path;
* `proxySuffix`, `admitCall` : the checks the proxy makes on a call before any use is accounted;
* `Constraints.scope`, `PolicyRow.scope`, `PolicyRow.denyScope` : constraints and rows as sets of calls;
* `scope_subset_of_requestIsSubset`, `scopesOverlap_of_mem` : the subset rule is inclusion of scopes, and scopes
  that meet overlap;
* `deny_complete`, `subset_sound` : what follows for a decision and for the grant minted on it.
-/

namespace Keychute
open Keychute.Api

/-- A concrete call: where it goes, its method, and its decoded path. -/
structure Call where
  origin : Origin
  method : String
  path : String
  canonical : Canonical path

/-! ## The proxy's checks -/

/-- The raw path after `/v1/grants/<id>/proxy`; the bare route is the upstream root. -/
def proxySuffix (rawPath : String) : Option String :=
  let strip (pre cs : List Char) : Option (List Char) := if pre.isPrefixOf cs then some (cs.drop pre.length) else none
  do
    let after ← strip "/v1/grants/".toList rawPath.toList
    if !after.contains '/' then none
    let suffix ← strip "proxy".toList ((after.dropWhile (· != '/')).drop 1)
    match suffix with
    | [] => some "/"
    | '/' :: _ => some (String.ofList suffix)
    | _ => none

/-- The checks of `handle_inner` on the method, the path and the origin of a proxied call. -/
def admitCall (constraints : Constraints) (method rawPath : String) : Except ApiFailure Call :=
  let method := toAsciiUppercase method
  if method = "TRACE" then
    .error (.policyDenied "TRACE is never proxied (it would reflect the injected credential)")
  else if !constraints.methods.isEmpty && !constraints.methods.any (eqIgnoreAsciiCase · method) then
    .error (.policyDenied "method not allowed by grant")
  else
    match proxySuffix rawPath with
    | none => .error (.internal "route prefix mismatch")
    | some rest =>
      match h : canonicalize rest with
      | .error e => .error (.invalidPath e)
      | .ok path =>
        if !constraints.pathPrefixes.isEmpty && !constraints.pathPrefixes.any (prefixMatches · path) then
          .error (.policyDenied "path not allowed by grant")
        else
          match constraints.origins with
          | [origin] => .ok ⟨origin, method, path, rest, h⟩
          | _ => .error (.internal "brokered grant must have exactly one origin")

/-! ## Scopes -/

/-- A list of alternatives, where the empty one is unconstrained. -/
def Matches {α β : Type} (row : List α) (covers : α → β → Bool) (x : β) : Prop :=
  row = [] ∨ ∃ a ∈ row, covers a x = true

/-- The calls some constraints leave open. -/
def Constraints.scope (c : Constraints) : Set Call :=
  { call | Matches c.origins Origin.sameTarget call.origin ∧ Matches c.methods eqIgnoreAsciiCase call.method ∧
    Matches c.pathPrefixes prefixMatches call.path }

namespace Policy

/-- The calls a row is about. -/
def PolicyRow.scope (p : PolicyRow) : Set Call :=
  { call | Matches p.origins Origin.sameTarget call.origin ∧ Matches p.methods eqIgnoreAsciiCase call.method ∧
    Matches p.pathPrefixes prefixMatches call.path }

/-- The calls a deny row covers: its paths are read without regard to ASCII case. -/
def PolicyRow.denyScope (p : PolicyRow) : Set Call :=
  { call | Matches p.origins Origin.sameTarget call.origin ∧ Matches p.methods eqIgnoreAsciiCase call.method ∧
    Matches p.pathPrefixes (fun pp c => prefixMatches (toAsciiLowercase pp) (toAsciiLowercase c)) call.path }

end Policy

open Policy

theorem Origin.sameTarget_iff {o o' : Origin} :
    o.sameTarget o' = true ↔ o.host = o'.host ∧ o.effectivePort = o'.effectivePort := by
  simp [Origin.sameTarget]

theorem Origin.sameTarget_of_common {o o' t : Origin} (h : o.sameTarget t = true) (h' : o'.sameTarget t = true) :
    o.sameTarget o' = true := by
  rw [Origin.sameTarget_iff] at h h' ⊢
  exact ⟨h.1.trans h'.1.symm, h.2.trans h'.2.symm⟩

theorem Origin.sameTarget_trans {o o' t : Origin} (h : o.sameTarget o' = true) (h' : o'.sameTarget t = true) :
    o.sameTarget t = true := by
  rw [Origin.sameTarget_iff] at h h' ⊢
  exact ⟨h.1.trans h'.1, h.2.trans h'.2⟩

/-- One dimension of the subset rule, as inclusion. -/
theorem Matches.of_listSubset {α β : Type} {row req : List α} {covers : α → α → Bool} {hits : α → β → Bool} {x : β}
    (hsub : listSubset row req covers = true) (hx : Matches req hits x)
    (htrans : ∀ a ∈ row, ∀ r ∈ req, covers a r = true → hits r x = true → hits a x = true) :
    Matches row hits x := by
  unfold listSubset at hsub
  rcases hx with rfl | ⟨r, hr, hrx⟩
  · exact Or.inl (by simpa using hsub)
  · rw [if_neg (by simpa using List.ne_nil_of_mem hr), Bool.or_eq_true, List.isEmpty_iff, List.all_eq_true] at hsub
    rcases hsub with hnil | hall
    · exact Or.inl hnil
    · obtain ⟨a, ha, har⟩ := List.any_eq_true.1 (hall r hr)
      exact Or.inr ⟨a, ha, htrans a ha r hr har hrx⟩

theorem requestIsSubset_spec {p : PolicyRow} {c : Constraints} (h : requestIsSubset p c = true) :
    listSubset p.origins c.origins Origin.sameTarget = true ∧
    listSubset p.methods c.methods eqIgnoreAsciiCase = true ∧
    listSubset p.pathPrefixes c.pathPrefixes prefixMatches = true ∧
    (∀ m, p.maxTtlSeconds = some m → c.ttlSeconds ≤ m) ∧
    (∀ m, p.maxUses = some m → ∃ u, c.maxUses = some u ∧ u ≤ m) := by
  unfold requestIsSubset at h
  split_ifs at h with h1 h2 h3 h4
  refine ⟨by simpa using h1, by simpa using h2, by simpa using h3, ?_, ?_⟩
  · intro m hm
    rw [hm] at h4
    simpa using h4
  · intro m hm
    rw [hm] at h
    cases hu : c.maxUses with
    | none => rw [hu] at h; cases h
    | some u =>
        rw [hu] at h
        refine ⟨u, rfl, ?_⟩
        simpa using h

/-- A request that is a subset of a row stays, call by call, within the row. -/
theorem scope_subset_of_requestIsSubset {p : PolicyRow} {c : Constraints} (h : requestIsSubset p c = true)
    (hp : ∀ s ∈ p.pathPrefixes, Canonical s) (hc : ∀ s ∈ c.pathPrefixes, Canonical s) : c.scope ⊆ p.scope := by
  obtain ⟨ho, hm, hpre, -⟩ := requestIsSubset_spec h
  intro call ⟨hco, hcm, hcp⟩
  refine ⟨hco.of_listSubset ho ?_, hcm.of_listSubset hm ?_, hcp.of_listSubset hpre ?_⟩
  · intro a _ r _ har hrx
    exact Origin.sameTarget_trans har hrx
  · intro a _ r _ har hrx
    exact eqIgnoreAsciiCase_trans har hrx
  · intro a ha r hr har hrx
    exact prefixMatches_trans (hp a ha) (hc r hr) call.canonical har hrx

/-- One dimension of the overlap rule: two lists that match one value. -/
theorem overlap_of_matches {α β : Type} {row req : List α} {hits hits' : α → β → Bool} {meets : α → α → Bool} {x : β}
    (hrow : Matches row hits x) (hreq : Matches req hits' x)
    (hmeet : ∀ a ∈ row, ∀ r ∈ req, hits a x = true → hits' r x = true → meets a r = true) :
    (row.isEmpty || req.isEmpty || row.any fun a => req.any fun r => meets a r) = true := by
  rcases hrow with rfl | ⟨a, ha, hax⟩
  · simp
  rcases hreq with rfl | ⟨r, hr, hrx⟩
  · simp
  rw [Bool.or_eq_true]
  refine Or.inr (List.any_eq_true.2 ⟨a, ha, List.any_eq_true.2 ⟨r, hr, hmeet a ha r hr hax hrx⟩⟩)

/-- One dimension of the two rules: what covers also meets. -/
theorem overlap_of_listSubset {α : Type} {row req : List α} {covers meets : α → α → Bool}
    (hsub : listSubset row req covers = true)
    (hmeet : ∀ a ∈ row, ∀ r ∈ req, covers a r = true → meets a r = true) :
    (row.isEmpty || req.isEmpty || row.any fun a => req.any fun r => meets a r) = true := by
  cases req with
  | nil => simp
  | cons r rest =>
      unfold listSubset at hsub
      rw [List.isEmpty_cons, if_neg Bool.false_ne_true, Bool.or_eq_true] at hsub
      rcases hsub with hnil | hall
      · simp [hnil]
      · obtain ⟨a, ha, har⟩ := List.any_eq_true.1 (List.all_eq_true.1 hall r List.mem_cons_self)
        rw [Bool.or_eq_true]
        refine Or.inr (List.any_eq_true.2 ⟨a, ha, List.any_eq_true.2 ⟨r, List.mem_cons_self, ?_⟩⟩)
        exact hmeet a ha r List.mem_cons_self har

/-- A row that a request is a subset of also overlaps it. -/
theorem scopesOverlap_of_requestIsSubset {p : PolicyRow} {c : Constraints} (h : requestIsSubset p c = true)
    (hp : ∀ s ∈ p.pathPrefixes, Canonical s) (hc : ∀ s ∈ c.pathPrefixes, Canonical s) : scopesOverlap p c = true := by
  obtain ⟨ho, hm, hpre, -⟩ := requestIsSubset_spec h
  unfold scopesOverlap
  simp only [Bool.and_eq_true]
  refine ⟨⟨overlap_of_listSubset ho ?_, overlap_of_listSubset hm ?_⟩, overlap_of_listSubset hpre ?_⟩
  · exact fun a _ r _ h => h
  · exact fun a _ r _ h => h
  · intro a ha r hr har
    rw [prefixMatches_lower (hp a ha) (hc r hr) har, Bool.true_or]

/-- A call that the request admits and the deny row covers makes the two overlap. -/
theorem scopesOverlap_of_mem {p : PolicyRow} {c : Constraints} {call : Call}
    (hp : ∀ s ∈ p.pathPrefixes, Canonical s) (hc : ∀ s ∈ c.pathPrefixes, Canonical s)
    (hreq : call ∈ c.scope) (hdeny : call ∈ p.denyScope) : scopesOverlap p c = true := by
  obtain ⟨hco, hcm, hcp⟩ := hreq
  obtain ⟨hdo, hdm, hdp⟩ := hdeny
  unfold scopesOverlap
  simp only [Bool.and_eq_true]
  refine ⟨⟨overlap_of_matches hdo hco ?_, overlap_of_matches hdm hcm ?_⟩, overlap_of_matches hdp hcp ?_⟩
  · intro a _ r _ ha hr
    exact Origin.sameTarget_of_common ha hr
  · intro a _ r _ ha hr
    exact eqIgnoreAsciiCase_trans ha (eqIgnoreAsciiCase_symm hr)
  · intro a ha r hr hax hrx
    have hlow := prefixMatches_lower (hc r hr) call.canonical hrx
    simpa using prefixMatches_lower_total (hp a ha) (hc r hr) call.canonical hax hlow

/-- A call the proxy admits is in the scope of the grant's constraints, and goes to its one origin. -/
theorem admitCall_mem_scope {c : Constraints} {method rawPath : String} {call : Call}
    (h : admitCall c method rawPath = .ok call) : call ∈ c.scope ∧ c.origins = [call.origin] := by
  unfold admitCall at h
  simp only at h
  split at h
  · cases h
  split at h
  · cases h
  rename_i hmethod
  split at h
  · cases h
  split at h
  · cases h
  split at h
  · cases h
  rename_i hpath
  split at h
  · rename_i origin horigins
    injection h with h
    rw [← h]
    refine ⟨⟨?_, ?_, ?_⟩, horigins⟩
    · refine Or.inr ⟨origin, by rw [horigins]; exact List.mem_singleton_self _, ?_⟩
      rw [Origin.sameTarget_iff]
      exact ⟨rfl, rfl⟩
    · rw [Bool.and_eq_true, not_and_or] at hmethod
      rcases hmethod with hnil | hany
      · exact Or.inl (by simpa using hnil)
      · exact Or.inr (List.any_eq_true.1 (by simpa using hany))
    · rw [Bool.and_eq_true, not_and_or] at hpath
      rcases hpath with hnil | hany
      · exact Or.inl (by simpa using hnil)
      · exact Or.inr (List.any_eq_true.1 (by simpa using hany))
  · cases h

theorem admitCall_method {c : Constraints} {method rawPath : String} {call : Call}
    (h : admitCall c method rawPath = .ok call) : call.method = toAsciiUppercase method := by
  unfold admitCall at h
  simp only at h
  split_ifs at h
  split at h
  · cases h
  split at h
  · cases h
  split_ifs at h
  split at h
  · injection h with h
    rw [← h]
  · cases h

/-! ## Decisions and the calls behind them -/

theorem autoGrant_eq_some {clientName : String} {secret : Option Db.SecretRow} {mechanism : Mechanism}
    {constraints : Constraints} {evaluation : Evaluation} {now : DateTime} {g : Db.GrantParams}
    (h : autoGrant clientName secret mechanism constraints evaluation now = .ok (some g)) :
    (evaluation.decision = .autoApprove ∨ evaluation.decision = .notifyOnly) ∧ g.constraints = constraints := by
  unfold autoGrant at h
  split at h
  · rename_i hd
    refine ⟨Or.inl hd, ?_⟩
    split at h
    · cases h
    split at h
    · cases h
    · cases h; rfl
  · rename_i hd
    refine ⟨Or.inr hd, ?_⟩
    split at h
    · cases h
    split at h
    · cases h
    · cases h; rfl
  · cases h

theorem autoGrant_of_silent {evaluation : Evaluation} {now deadline : DateTime} (clientName : String)
    (stored : Db.SecretRow) (mechanism : Mechanism) (constraints : Constraints)
    (hd : evaluation.decision = .autoApprove ∨ evaluation.decision = .notifyOnly)
    (hdl : now.addSeconds (asI64 constraints.ttlSeconds) = some deadline) :
    autoGrant clientName (some stored) mechanism constraints evaluation now = .ok (some {
      clientName := clientName
      secretName := stored.name
      secretId := some stored.id
      mechanism := mechanism.asStr
      constraints := constraints
      notAfter := capDeadline deadline evaluation.policyNotAfter
      maxUses := constraints.maxUses.map saturateI32
      passthrough := none }) := by
  unfold autoGrant
  rcases hd with hd | hd <;> rw [hd] <;> simp only [hdl]

section Deny
variable (client : ClientRow) (secret : Option SecretRow) (tags : List String) (req : RequestedGrant)
  (policies : List PolicyRow) (now : DateTime)

/-- A call that the request admits and an applicable deny row covers gets the request denied, whatever the other
rows say; so no grant minted by `create` lets the proxy admit such a call. -/
theorem deny_complete (hreq : ∀ s ∈ req.constraints.pathPrefixes, Canonical s)
    (hrows : ∀ p ∈ policies, ∀ s ∈ p.pathPrefixes, Canonical s) {p : PolicyRow} (hp : p ∈ policies)
    (hdeny : p.outcome = .deny) (happ : isApplicable p client req tags now = true) :
    (∀ call ∈ req.constraints.scope, call ∈ p.denyScope →
      ∃ reason, (evaluate client secret tags req policies now).decision = .deny reason) ∧
    ∀ clientName stored g, autoGrant clientName stored req.mechanism req.constraints
        (evaluate client secret tags req policies now) now = .ok (some g) →
      ∀ method rawPath call, admitCall g.constraints method rawPath = .ok call → call ∉ p.denyScope := by
  have hall : ∀ call ∈ req.constraints.scope, call ∈ p.denyScope →
      ∃ reason, (evaluate client secret tags req policies now).decision = .deny reason := by
    intro call hcall hcov
    apply evaluate_of_refused
    exact Or.inr ⟨p, hp, happ, hdeny, scopesOverlap_of_mem (hrows p hp) hreq hcall hcov⟩
  refine ⟨hall, ?_⟩
  intro clientName stored g hg method rawPath call hadm hcov
  obtain ⟨hd, hc⟩ := autoGrant_eq_some hg
  rw [hc] at hadm
  obtain ⟨reason, hr⟩ := hall call (admitCall_mem_scope hadm).1 hcov
  rw [hr] at hd
  rcases hd with hd | hd <;> cases hd

end Deny

/-- A deny row for one path of the API, and a call it covers whose path differs from it in case. -/
def denyAdmin : PolicyRow :=
  { autoRow 3 with outcome := .deny, clientName := none, methods := [], pathPrefixes := ["/repos/a/admin/"] }

def adminCall : Call := ⟨⟨"api.example.com", some 443⟩, "GET", "/repos/a/Admin/keys", "/repos/a/Admin/keys", by decide⟩

theorem deny_complete_admin : ∃ reason, (evaluate agentClient (some deployKey) [] readRepos [autoRow 1, denyAdmin]
    (DateTime.ofSeconds 1800000000)).decision = .deny reason := by
  have hrepos : Canonical "/repos/" := ⟨"/repos/", by decide⟩
  have hadmin : Canonical "/repos/a/admin/" := ⟨"/repos/a/admin/", by decide⟩
  have hreq : Canonical "/repos/a" := ⟨"/repos/a", by decide⟩
  refine (deny_complete agentClient (some deployKey) [] readRepos [autoRow 1, denyAdmin]
    (DateTime.ofSeconds 1800000000) ?_ ?_ (p := denyAdmin) (by simp) rfl (by decide +kernel)).1 adminCall ?_ ?_
  · simpa [readRepos] using hreq
  · simpa [autoRow, denyAdmin] using ⟨hrepos, hadmin⟩
  · exact ⟨Or.inr ⟨⟨"api.example.com", none⟩, by simp [readRepos], by decide⟩,
      Or.inr ⟨"GET", by simp [readRepos], by decide⟩, Or.inr ⟨"/repos/a", by simp [readRepos], by decide⟩⟩
  · exact ⟨Or.inr ⟨⟨"api.example.com", some 443⟩, by simp [denyAdmin, autoRow], by decide⟩, Or.inl rfl,
      Or.inr ⟨"/repos/a/admin/", by simp [denyAdmin], by decide +kernel⟩⟩

section Subset
variable (client : ClientRow) (secret : Option SecretRow) (tags : List String) (req : RequestedGrant)
  (policies : List PolicyRow) (now : DateTime)

/-- What a grant minted on the word of row `p` can do is within `p`: every call the proxy admits under it, its
lifetime and its number of uses. -/
theorem subset_sound (hids : (policies.map PolicyRow.id).Nodup)
    (hreq : ∀ s ∈ req.constraints.pathPrefixes, Canonical s)
    (hrows : ∀ p ∈ policies, ∀ s ∈ p.pathPrefixes, Canonical s) {p : PolicyRow} (hp : p ∈ policies)
    (hdec : (evaluate client secret tags req policies now).decision = .autoApprove ∨
      (evaluate client secret tags req policies now).decision = .notifyOnly)
    (hid : (evaluate client secret tags req policies now).policyId = some p.id) :
    (∀ method rawPath call, admitCall req.constraints method rawPath = .ok call →
      Matches p.origins Origin.sameTarget call.origin ∧ Matches p.methods eqIgnoreAsciiCase call.method ∧
        Matches p.pathPrefixes prefixMatches call.path) ∧
    ∀ clientName stored deadline, now.addSeconds (asI64 req.constraints.ttlSeconds) = some deadline →
      ∃ g, autoGrant clientName (some stored) req.mechanism req.constraints
          (evaluate client secret tags req policies now) now = .ok (some g) ∧
        g.constraints = req.constraints ∧ g.notAfter ≤ deadline ∧
        (∀ m, p.maxTtlSeconds = some m → req.constraints.ttlSeconds ≤ m) ∧
        (∀ t, p.notAfter = some t → g.notAfter ≤ t) ∧
        (∀ m, p.maxUses = some m → ∃ n, g.maxUses = some n ∧ n ≤ m) := by
  obtain ⟨q, hq, heval⟩ := evaluate_silent hdec
  -- the deciding row is the only one with the reported id
  obtain rfl : q = p := by
    rw [heval] at hid
    exact id_inj_of_nodup hids hq.1 hp (Option.some.inj hid)
  obtain ⟨-, -, -, httl, huses⟩ := requestIsSubset_spec hq.2.2.2
  refine ⟨?_, ?_⟩
  · intro method rawPath call hadm
    exact scope_subset_of_requestIsSubset hq.2.2.2 (hrows q hp) hreq (admitCall_mem_scope hadm).1
  · intro clientName stored deadline hdl
    have hcap : ∀ t, q.notAfter = some t → (evaluate client secret tags req policies now).policyNotAfter = some t := by
      intro t ht
      rw [heval, ← ht]
    have hgrant := autoGrant_of_silent clientName stored req.mechanism req.constraints hdec hdl
    refine ⟨_, hgrant, rfl, capDeadline_le _ _, httl, ?_, ?_⟩
    · intro t ht
      simp only [hcap t ht]
      exact min_le_right _ _
    · intro m hm
      obtain ⟨u, hu, hle⟩ := huses m hm
      refine ⟨saturateI32 u, by simp only [hu, Option.map_some], ?_⟩
      unfold saturateI32
      split <;> omega

end Subset

theorem subset_sound_repos :
    ∃ call, admitCall readRepos.constraints "get" "/v1/grants/7/proxy/repos/a/issues" = .ok call ∧
      Matches (autoRow 2).pathPrefixes prefixMatches call.path := by
  have hrepos : Canonical "/repos/" := ⟨"/repos/", by decide⟩
  have hreq : Canonical "/repos/a" := ⟨"/repos/a", by decide⟩
  have hok : (admitCall readRepos.constraints "get" "/v1/grants/7/proxy/repos/a/issues").toOption.isSome = true := by
    decide +kernel
  cases hadm : admitCall readRepos.constraints "get" "/v1/grants/7/proxy/repos/a/issues" with
  | error e => rw [hadm] at hok; cases hok
  | ok call =>
      refine ⟨call, rfl, ?_⟩
      exact ((subset_sound agentClient (some deployKey) [] readRepos [autoRow 1, autoRow 2]
        (DateTime.ofSeconds 1800000000) (by decide) (by simpa [readRepos] using hreq)
        (by simpa [autoRow] using hrepos) (p := autoRow 2) (by simp) (Or.inl (by decide +kernel))
        (by decide +kernel)).1 "get" "/v1/grants/7/proxy/repos/a/issues" call hadm).2.2

end Keychute
