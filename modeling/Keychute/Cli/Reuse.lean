import Keychute.Accounting
import Keychute.Cli.Request
import Keychute.Cli.Target
import Keychute.Forwarding
import Keychute.Incarnation
import Mathlib.Data.List.GetD

/-!
# A grant that is used again (`cli/src/curl.rs`, `check_grant_covers`)

* `info` : the server's answer about a grant; `checkGrantCovers` : what the CLI refuses on it before it reads the body;
* `constraints_run`, `useCount_nonneg` : what stays of a looked-up grant;
* `reuse_agrees` : what the CLI refuses, the server would not send for, or not to the origin of the URL, whatever
  happens in between and whatever the CLI's own clock says; what it lets pass, the proxy sends as the call that was
  named, and refuses for its method or path only as TRACE or where the path has no canonical form.
-/

namespace Keychute.Api
open Keychute.Db

/-- What `GET /v1/grants/{id}` answers. -/
structure GrantInfo where
  grantId : Uuid
  mechanism : Mechanism
  constraints : Constraints
  notAfter : DateTime
  maxUses : Option Nat
  useCount : Nat
  revoked : Bool
  serverTime : Option DateTime

/-- `v.max(0) as u32`. -/
def clampU32 (n : Int) : Nat := (max n 0).toNat

/-- The lifetime of a grant in whole seconds, rounded. -/
def GrantRow.ttlSeconds (g : GrantRow) : Nat :=
  ((max ((g.notAfter.nanos - g.createdAt.nanos).tdiv (10 ^ 6)) 0 + 500) / 1000).toNat

/-- The terms as granted; `now` is `db_now`, read after the grant. -/
def info (s : Store) (client : String) (id : Uuid) (now : DateTime) : Except ApiFailure GrantInfo := do
  let grant ← ownedGrant s client id
  let mechanism ← okOr (Mechanism.fromStrOpt grant.mechanism) (.internal "unknown grant mechanism")
  let constraints :=
    { grant.constraints with maxUses := grant.maxUses.map clampU32, ttlSeconds := GrantRow.ttlSeconds grant }
  return ⟨grant.id, mechanism, constraints, grant.notAfter, grant.maxUses.map clampU32, clampU32 grant.useCount,
    grant.revoked, some now⟩

theorem info_ok {s : Store} {client : String} {id : Uuid} {now : DateTime} {i : GrantInfo}
    (h : info s client id now = .ok i) :
    ∃ g ∈ s.grants.rows, g.id = id ∧ Mechanism.fromStrOpt g.mechanism = some i.mechanism ∧
      i.constraints.origins = g.constraints.origins ∧ i.constraints.methods = g.constraints.methods ∧
      i.constraints.pathPrefixes = g.constraints.pathPrefixes ∧ i.notAfter = g.notAfter ∧
      i.maxUses = g.maxUses.map clampU32 ∧ i.useCount = clampU32 g.useCount ∧ i.revoked = g.revoked ∧
      i.serverTime = some now := by
  simp only [info, ownedGrant, bind_eq_ok, okOr_eq_ok, refuseIf_eq_ok] at h
  obtain ⟨g, ⟨g', hg, _, -, hret⟩, m, hm, hi⟩ := h
  cases hret
  cases hi
  obtain ⟨hmem, hid⟩ := findGrant_eq_some.1 hg
  exact ⟨g, hmem, hid, hm, rfl, rfl, rfl, rfl, rfl, rfl, rfl, rfl⟩

end Keychute.Api

namespace Keychute.Cli
open Keychute.Api Keychute.Db Keychute.Lib Keychute.Proxy

/-! ## The check -/

/-- Why the CLI refuses a grant, with what the message quotes. -/
inductive Uncovered where
  | mechanism (m : Mechanism)
  | revoked
  | expired (notAfter : DateTime)
  | exhausted (useCount max : Nat)
  | origin (approved target : Origin)
  | notOneOrigin
  | method (methods : List String) (method : String)
  | path (prefixes : List String) (canonical : String)
  deriving DecidableEq

def Uncovered.code : Uncovered → Int
  | .mechanism _ | .origin _ _ | .method _ _ | .path _ _ => EXIT_CONFIG
  | .revoked | .expired _ => EXIT_TIMEOUT
  | .exhausted _ _ | .notOneOrigin => EXIT_OTHER

/-- No alternative covers it, and there is one. -/
def excludes {α β : Type} (row : List α) (covers : α → β → Bool) (x : β) : Bool := !row.isEmpty && !row.any (covers · x)

/-- The grant is judged at the server's time, or at this host's where the server does not report it. -/
def checkGrantCovers (info : GrantInfo) (localNow : DateTime) (target : Target) (method : String) :
    Except Uncovered Unit :=
  let now := info.serverTime.getD localNow
  if info.mechanism ≠ .brokered then .error (.mechanism info.mechanism)
  else if info.revoked then .error .revoked
  else if info.notAfter ≤ now then .error (.expired info.notAfter)
  else
    match info.maxUses.filter (· ≤ info.useCount) with
    | some max => .error (.exhausted info.useCount max)
    | none =>
      match info.constraints.origins with
      | [approved] =>
        if !approved.sameTarget target.origin then .error (.origin approved target.origin)
        else if excludes info.constraints.methods eqIgnoreAsciiCase method then
          .error (.method info.constraints.methods method)
        else
          match canonicalize target.path with
          | .error _ => .ok ()
          | .ok canonical =>
            if excludes info.constraints.pathPrefixes prefixMatches canonical then
              .error (.path info.constraints.pathPrefixes canonical)
            else .ok ()
      | _ => .error .notOneOrigin

/-- The path of the URL of a proxied call: the target's goes on raw. -/
def proxyPath (grantId : Uuid) (target : Target) : String :=
  "/v1/grants/" ++ uuidDisplay grantId ++ "/proxy" ++ target.path

section
variable {i : GrantInfo} {localNow : DateTime} {target : Target} {method : String}

theorem excludes_iff {α β : Type} {row : List α} {covers : α → β → Bool} {x : β} :
    excludes row covers x = true ↔ ¬ Matches row covers x := by
  unfold excludes Matches
  rw [Bool.and_eq_true, Bool.not_eq_true', Bool.not_eq_true', ← Bool.not_eq_true, ← Bool.not_eq_true, not_or,
    List.any_eq_true, List.isEmpty_iff]

/-- What a refusal rests on. -/
theorem checkGrantCovers_error {e : Uncovered} (h : checkGrantCovers i localNow target method = .error e) :
    i.mechanism ≠ .brokered ∨ i.revoked = true ∨ i.notAfter ≤ i.serverTime.getD localNow ∨
      (∃ m, i.maxUses = some m ∧ m ≤ i.useCount) ∨ (∀ o, i.constraints.origins ≠ [o]) ∨
      (∃ o, i.constraints.origins = [o] ∧ o.sameTarget target.origin = false ∧ e = .origin o target.origin) ∨
      ¬ Matches i.constraints.methods eqIgnoreAsciiCase method ∨
      ∃ p, canonicalize target.path = .ok p ∧ ¬ Matches i.constraints.pathPrefixes prefixMatches p := by
  unfold checkGrantCovers at h
  simp only at h
  split at h
  · rename_i hmech
    exact Or.inl hmech
  refine Or.inr ?_
  split at h
  · rename_i hrevoked
    exact Or.inl hrevoked
  refine Or.inr ?_
  split at h
  · rename_i hexpired
    exact Or.inl hexpired
  refine Or.inr ?_
  split at h
  · rename_i m hm
    obtain ⟨hmax, hle⟩ := Option.filter_eq_some_iff.1 hm
    exact Or.inl ⟨m, hmax, by simpa using hle⟩
  refine Or.inr ?_
  split at h
  · rename_i o ho
    refine Or.inr ?_
    split at h
    · rename_i hother
      cases h
      exact Or.inl ⟨o, ho, by simpa using hother, rfl⟩
    refine Or.inr ?_
    split at h
    · rename_i hmethod
      exact Or.inl (excludes_iff.1 hmethod)
    refine Or.inr ?_
    split at h
    · cases h
    · rename_i p hp
      split at h
      · rename_i hpath
        exact ⟨p, hp, excludes_iff.1 hpath⟩
      · cases h
  · rename_i hne
    exact Or.inl hne

/-- What is let pass. -/
theorem checkGrantCovers_ok (h : checkGrantCovers i localNow target method = .ok ()) :
    (∃ o, i.constraints.origins = [o] ∧ o.sameTarget target.origin = true) ∧
      Matches i.constraints.methods eqIgnoreAsciiCase method ∧
      ∀ p, canonicalize target.path = .ok p → Matches i.constraints.pathPrefixes prefixMatches p := by
  unfold checkGrantCovers at h
  simp only at h
  split at h
  · cases h
  split at h
  · cases h
  split at h
  · cases h
  split at h
  · cases h
  split at h
  · rename_i o ho
    split at h
    · cases h
    rename_i hsame
    split at h
    · cases h
    rename_i hmethod
    refine ⟨⟨o, ho, by simpa using hsame⟩, not_not.1 (excludes_iff.not.1 hmethod), fun p hp => ?_⟩
    rw [hp] at h
    simp only at h
    split at h
    · cases h
    · rename_i hpath
      exact not_not.1 (excludes_iff.not.1 hpath)
  · cases h

end

/-! ## The path of the route -/

/-- The path of a target is rooted: the text after the authority begins with a delimiter, and a `#` is refused. -/
theorem parseTarget_rooted {parse : UrlParser} (hparse : parse.Https) {url : UrlHost} {raw : String} {target : Target}
    (h : parseTarget parse url raw = .ok target) : target.path.toList.head? = some '/' := by
  obtain ⟨u, hu, hplain, -, hfrag, -, hpath, -⟩ := parseTarget_ok h
  have hhash := hparse.fragment raw u hu hplain hfrag
  rw [hpath, rawPathAndQuery]
  have hsuffix := afterAuthority_suffix raw.toList
  cases hrest : ((afterSeparator raw.toList).getD raw.toList).dropWhile (!isDelimiter ·) with
  | nil => rfl
  | cons c cs =>
      rw [hrest] at hsuffix
      have hne : c ≠ '#' := by
        rintro rfl
        exact hhash (hsuffix.subset (List.mem_cons_self ..))
      have hdelim : isDelimiter c = true := by
        have hnil : ((afterSeparator raw.toList).getD raw.toList).dropWhile (!isDelimiter ·) ≠ [] :=
          hrest ▸ List.cons_ne_nil c cs
        have := List.head_dropWhile_not (!isDelimiter ·) hnil
        simpa [hrest] using this
      unfold splitRest
      by_cases hq : c = '?'
      · simp [hq, orRoot]
      · have hslash : c = '/' := by
          simpa [isDelimiter, hq, hne] using hdelim
        rw [hslash]
        split <;> simp [orRoot]

theorem hexChar_ne_slash (n : Nat) : hexChar n ≠ '/' := by
  unfold hexChar
  intro h
  by_cases hn : n < 16
  · have key : ∀ k : Fin 16, "0123456789abcdef".toList.getD k '0' ≠ '/' := by decide
    exact key ⟨n, hn⟩ h
  · rw [List.getD_eq_default _ _ (by simpa using hn)] at h
    exact absurd h (by decide)

theorem slash_notMem_uuidDisplay (u : Uuid) : '/' ∉ (uuidDisplay u).toList := by
  have hdigits : '/' ∉ uuidDigits u := by
    intro h
    obtain ⟨k, -, hk⟩ := List.mem_map.1 h
    exact hexChar_ne_slash _ hk
  have htake : ∀ m n, '/' ∉ ((uuidDigits u).drop m).take n :=
    fun m n h => hdigits (List.mem_of_mem_drop (List.mem_of_mem_take h))
  simp only [uuidDisplay, String.toList_ofList, List.mem_append, List.mem_cons, not_or, and_assoc]
  exact ⟨fun h => hdigits (List.mem_of_mem_take h), by decide, htake 8 4, by decide, htake 12 4, by decide, htake 16 4,
    by decide, fun h => hdigits (List.mem_of_mem_drop h)⟩

/-- The route hands the proxy the target's path. -/
theorem proxySuffix_proxyPath (grantId : Uuid) {target : Target} (h : target.path.toList.head? = some '/') :
    proxySuffix (proxyPath grantId target) = some target.path := by
  obtain ⟨rest, hrest⟩ : ∃ rest, target.path.toList = '/' :: rest := by
    cases hp : target.path.toList with
    | nil => simp [hp] at h
    | cons c cs =>
        rw [hp, List.head?_cons, Option.some.injEq] at h
        exact ⟨cs, by rw [h]⟩
  have hid := slash_notMem_uuidDisplay grantId
  have htext : (proxyPath grantId target).toList =
      "/v1/grants/".toList ++ ((uuidDisplay grantId).toList ++ '/' :: ("proxy".toList ++ '/' :: rest)) := by
    unfold proxyPath
    simp [String.toList_append, hrest]
  have hdrop : ((uuidDisplay grantId).toList ++ '/' :: ("proxy".toList ++ '/' :: rest)).dropWhile (· != '/') =
      '/' :: ("proxy".toList ++ '/' :: rest) := by
    have hne : ∀ c ∈ (uuidDisplay grantId).toList, (c != '/') = true := by
      intro c hc
      rw [bne_iff_ne]
      rintro rfl
      exact hid hc
    rw [List.dropWhile_append_of_pos hne]
    exact List.dropWhile_cons_of_neg (by simp)
  have hpath : String.ofList ('/' :: rest) = target.path := by
    rw [← hrest, String.ofList_toList]
  unfold proxySuffix
  simp only [htext, List.prefix_append, List.isPrefixOf_iff_prefix, if_true, List.drop_left, Option.bind_eq_bind,
    Option.bind_some, hdrop, List.drop_succ_cons, List.drop_zero]
  simp [hpath]

/-! ## What stays of a looked-up grant -/

section
variable {window : Int} {s s' s₀ : Store} {c₀ t₀ t now : DateTime} {es : List StoreEvent} {op : StoreOp} {r : Reply}

/-- A commit leaves the constraints of a grant as they are. -/
theorem constraints_step (h : (op.txn window now).exec s = .ok (r, s')) {g : GrantRow} (hg : g ∈ s.grants.rows) :
    ∃ g' ∈ s'.grants.rows, g'.id = g.id ∧ g'.constraints = g.constraints := by
  cases (commit_step h).grants with
  | same _ heq => exact ⟨g, by rwa [heq], rfl, rfl⟩
  | used g₁ _ _ _ _ _ heq =>
      refine ⟨_, by rw [heq]; exact Table.mem_update.2 ⟨g, hg, rfl⟩, ?_⟩
      split <;> exact ⟨rfl, rfl⟩
  | revoked _ p heq =>
      refine ⟨_, by rw [heq]; exact Table.mem_update.2 ⟨g, hg, rfl⟩, ?_⟩
      split <;> exact ⟨rfl, rfl⟩
  | purged _ heq =>
      refine ⟨_, by rw [heq]; exact Table.mem_update.2 ⟨g, hg, rfl⟩, ?_⟩
      split <;> exact ⟨rfl, rfl⟩
  | minted _ row _ _ heq => exact ⟨g, by rw [heq]; exact Table.mem_insert_of_mem hg, rfl, rfl⟩

/-- The grant in a later state. -/
theorem constraints_run (h : StoreRun window s₀ t₀ es s t) {g₀ : GrantRow} (hg₀ : g₀ ∈ s₀.grants.rows) :
    ∃ g ∈ s.grants.rows, g₀.Evolves g ∧ g.constraints = g₀.constraints := by
  obtain ⟨g, hg, hev, -⟩ := grant_run h hg₀
  refine ⟨g, hg, hev, ?_⟩
  suffices hkept : ∃ g' ∈ s.grants.rows, g'.id = g₀.id ∧ g'.constraints = g₀.constraints by
    obtain ⟨g', hg', hid, hc⟩ := hkept
    rw [findGrant_unique hg hg' (hev.id.trans hid.symm), hc]
  clear hg hev
  induction h with
  | nil => exact ⟨g₀, hg₀, rfl, rfl⟩
  | @call es s t op now hrun hle ih =>
      obtain ⟨g₁, hg₁, hid, hc⟩ := ih
      rcases op.step_cases window now s with ⟨r, s', hexec, hstep⟩ | ⟨r, hexec, hstep⟩
      · obtain ⟨g₂, hg₂, hid', hc'⟩ := constraints_step hexec hg₁
        rw [hstep]
        exact ⟨g₂, hg₂, hid'.trans hid, hc'.trans hc⟩
      · rw [hstep]
        exact ⟨g₁, hg₁, hid, hc⟩

theorem mints_useCount {row : GrantRow} (h : op.mints now = some row) : row.useCount = 0 := by
  cases op with
  | approveRequest requestId resolvedBy grantId grant store versionId =>
      cases h
      rfl
  | resolveApprove requestId resolvedBy grant grantId =>
      cases h
      rfl
  | insertAccessRequestWithId id req pendingCap resolution context grantId =>
      obtain ⟨grant, -, rfl⟩ := Option.map_eq_some_iff.1 h
      rfl
  | _ => cases h

theorem useCount_step (h : (op.txn window now).exec s = .ok (r, s')) (hs : ∀ g ∈ s.grants.rows, 0 ≤ g.useCount) :
    ∀ g ∈ s'.grants.rows, 0 ≤ g.useCount := by
  intro g' hg'
  cases (commit_step h).grants with
  | same _ heq => exact hs g' (by rwa [heq] at hg')
  | used g₁ _ _ _ _ _ heq =>
      rw [heq] at hg'
      obtain ⟨g, hg, rfl⟩ := Table.mem_update.1 hg'
      have := hs g hg
      split
      · simp only [GrantRow.bump]
        omega
      · exact this
  | revoked _ p heq =>
      rw [heq] at hg'
      obtain ⟨g, hg, rfl⟩ := Table.mem_update.1 hg'
      split <;> exact hs g hg
  | purged _ heq =>
      rw [heq] at hg'
      obtain ⟨g, hg, rfl⟩ := Table.mem_update.1 hg'
      split <;> exact hs g hg
  | minted _ row hm _ heq =>
      rw [heq] at hg'
      rcases Table.mem_of_mem_insert hg' with hg | rfl
      · exact hs g' hg
      · exact (mints_useCount hm).ge

theorem useCount_nonneg (h : StoreRun window .empty c₀ es s t) : ∀ g ∈ s.grants.rows, 0 ≤ g.useCount := by
  induction h with
  | nil => simp [Store.empty]
  | @call es s t op now hrun hle ih =>
      rcases op.step_cases window now s with ⟨r, s', hexec, hstep⟩ | ⟨r, hexec, hstep⟩
      · rw [hstep]
        exact useCount_step hexec ih
      · rwa [hstep]

end

/-! ## What the proxy makes of it -/

/-- Nothing is sent, and no use is counted. -/
def NotSent (env : ProxyEnv) (v : Views) (grantId : Uuid) (req : ProxyRequest) : Prop :=
  ∃ e, ∀ opened upstream, handleInner env v grantId req opened upstream = (.error e, v.use)

section
variable {env : ProxyEnv} {v : Views} {grantId : Uuid} {req : ProxyRequest} {a : Admitted}

theorem admission_grant (h : admission env v grantId req = .ok a) : v.grant.findGrant grantId = some a.grant ∧
    Mechanism.fromStrOpt a.grant.mechanism = some .brokered ∧
    admitCall a.grant.constraints req.method.str req.rawPath = .ok a.call := by
  simp only [admission, ownedGrant, bind_eq_ok, okOr_eq_ok, refuseIf_eq_ok] at h
  obtain ⟨client, -, grant, ⟨g, hg, _, -, hret⟩, _, hmech, found, -, secret, -, _, -, call, hcall, body, -, version, -,
    spec, -, name, -, _, -, sentUrl, -, ha⟩ := h
  cases hret
  cases ha
  exact ⟨hg, by simpa using hmech, hcall⟩

theorem notSent_of_not_admitted (h : ∀ a, admission env v grantId req ≠ .ok a) : NotSent env v grantId req := by
  cases hadm : admission env v grantId req with
  | ok a => exact absurd hadm (h a)
  | error e => exact ⟨e, fun opened upstream => by simp only [handleInner, hadm]⟩

theorem notSent_of_not_spendable (h : ¬ Spendable v.use grantId env.now) : NotSent env v grantId req := by
  cases hadm : admission env v grantId req with
  | error e => exact ⟨e, fun opened upstream => by simp only [handleInner, hadm]⟩
  | ok a =>
      rcases Txn.run_cases (beginGrantUse grantId none (some a.version.id) .proxyAttempt env.replayWindow
        (some a.target) env.now) v.use with ⟨r, s', hexec, -⟩ | ⟨r, hexec, hrun⟩
      · exact absurd (spendable_of_use hexec) h
      · obtain rfl | rfl | rfl | rfl := beginGrantUse_error hexec
        · exact ⟨.notFound, fun opened upstream => by simp only [handleInner, hadm, hrun]⟩
        · exact ⟨.grantExpired, fun opened upstream => by simp only [handleInner, hadm, hrun]⟩
        · exact ⟨.grantExhausted, fun opened upstream => by simp only [handleInner, hadm, hrun]⟩
        · exact ⟨.internal "database error", fun opened upstream => by simp only [handleInner, hadm, hrun]⟩

theorem toLower_toUpper (c : Char) : c.toUpper.toLower = c.toLower := by
  by_cases h : c.toNat ≤ 127
  · have key : ∀ n : Fin 128, (Char.ofNat n).toUpper.toLower = (Char.ofNat n).toLower := by decide
    have := key ⟨c.toNat, by omega⟩
    rwa [Char.ofNat_toNat c] at this
  · rw [toUpper_of_gt h]

/-- The method is compared without regard to case, so its upper-casing changes nothing. -/
theorem eqIgnoreAsciiCase_upper (m method : String) :
    eqIgnoreAsciiCase m (toAsciiUppercase method) = eqIgnoreAsciiCase m method := by
  have hlower : toAsciiLowercase (toAsciiUppercase method) = toAsciiLowercase method := by
    unfold toAsciiLowercase toAsciiUppercase
    rw [String.toList_ofList, List.map_map]
    exact congrArg String.ofList (List.map_congr_left fun c _ => toLower_toUpper c)
  rw [eqIgnoreAsciiCase, eqIgnoreAsciiCase, hlower]

theorem matches_upper {row : List String} {method : String} :
    Matches row eqIgnoreAsciiCase (toAsciiUppercase method) ↔ Matches row eqIgnoreAsciiCase method := by
  simp only [Matches, eqIgnoreAsciiCase_upper]

/-- What the proxy asks of a call. -/
theorem admitCall_of_matches {c : Constraints} {method rawPath rest p : String} {o : Origin}
    (hsuffix : proxySuffix rawPath = some rest) (hpath : canonicalize rest = .ok p)
    (htrace : toAsciiUppercase method ≠ "TRACE") (horigins : c.origins = [o])
    (hmethods : Matches c.methods eqIgnoreAsciiCase method) (hprefixes : Matches c.pathPrefixes prefixMatches p) :
    ∃ call, admitCall c method rawPath = .ok call := by
  have hmethod : excludes c.methods eqIgnoreAsciiCase (toAsciiUppercase method) = false := by
    rw [← Bool.not_eq_true, excludes_iff, not_not]
    exact matches_upper.2 hmethods
  have hpath' : excludes c.pathPrefixes prefixMatches p = false := by
    rw [← Bool.not_eq_true, excludes_iff, not_not]
    exact hprefixes
  unfold excludes at hmethod hpath'
  unfold admitCall
  simp only [if_neg htrace, hmethod, hsuffix, Bool.false_eq_true, if_false]
  split
  · rename_i e he
    rw [hpath] at he
    cases he
  · rename_i p' hp'
    rw [hpath] at hp'
    cases hp'
    rw [hpath', horigins]
    exact ⟨_, rfl⟩

theorem admitCall_not_trace {c : Constraints} {method rawPath : String} {call : Keychute.Call}
    (h : admitCall c method rawPath = .ok call) : toAsciiUppercase method ≠ "TRACE" := by
  intro htrace
  simp only [admitCall, if_pos htrace] at h
  cases h

theorem slash_head_of_canonicalize {raw p : String} (h : canonicalize raw = .ok p) : raw.toList.head? = some '/' := by
  have hhead := (canonicalize_eq_ok.1 h).1
  rw [bytes_eq_flatMap] at hhead
  cases hraw : raw.toList with
  | nil => simp [hraw] at hhead
  | cons c cs =>
      rw [hraw, List.flatMap_cons] at hhead
      by_cases hc : c.toNat ≤ 127
      · rw [utf8EncodeChar_ascii hc, List.cons_append, List.head?_cons, Option.some.injEq] at hhead
        have hnat : c.toNat = '/'.toNat := by
          have := congrArg UInt8.toNat hhead
          rwa [UInt8.toNat_ofNat_of_lt' (show c.toNat < 256 by omega)] at this
        rw [List.head?_cons, Char.toNat_inj.1 hnat]
      · obtain ⟨b, bs, hb⟩ := List.exists_cons_of_ne_nil (String.utf8EncodeChar_ne_nil (c := c))
        have hge := utf8EncodeChar_ge hc b (hb ▸ List.mem_cons_self ..)
        rw [hb, List.cons_append, List.head?_cons, Option.some.injEq] at hhead
        rw [hhead] at hge
        exact absurd hge (by decide)

end

/-! ## The check beside the proxy -/

/-- A call after the look-up: its statements find the store as it was after further calls of anybody. -/
structure Later (window : Int) (s₀ : Store) (t₀ now : DateTime) (env : ProxyEnv) (v : Views) : Prop where
  grant : ∃ es t, StoreRun window s₀ t₀ es v.grant t
  use : ∃ es t, StoreRun window s₀ t₀ es v.use t
  clock : now ≤ env.now

section
variable {window : Int} {c₀ t₀ now : DateTime} {es₀ : List StoreEvent} {s₀ : Store} {client : String} {grantId : Uuid}
  {i : GrantInfo} {env : ProxyEnv} {v : Views} {target : Target} {req : ProxyRequest} {a : Admitted}

/-- The grant that the proxy looks up is the one that was looked up before. -/
theorem Later.grant_found (h : Later window s₀ t₀ now env v) {g₀ g : GrantRow} (hg₀ : g₀ ∈ s₀.grants.rows)
    (hg : v.grant.findGrant g₀.id = some g) : g₀.Evolves g ∧ g.constraints = g₀.constraints := by
  obtain ⟨es, t, hrun⟩ := h.grant
  obtain ⟨g', hg', hev, hc⟩ := constraints_run hrun hg₀
  obtain ⟨hmem, hid⟩ := findGrant_eq_some.1 hg
  rw [findGrant_unique hmem hg' (hid.trans hev.id.symm)]
  exact ⟨hev, hc⟩

/-- So is the one it uses. -/
theorem Later.spendable (h : Later window s₀ t₀ now env v) {g₀ : GrantRow} (hg₀ : g₀ ∈ s₀.grants.rows)
    (hs : Spendable v.use g₀.id env.now) : ∃ g, g₀.Evolves g ∧ g.live env.now = true ∧ g.usesLeft = true := by
  obtain ⟨es, t, hrun⟩ := h.use
  obtain ⟨g', hg', hev, -⟩ := grant_run hrun hg₀
  obtain ⟨g, hg, hlive, hleft, -⟩ := hs
  obtain ⟨hmem, hid⟩ := findGrant_eq_some.1 hg
  rw [findGrant_unique hmem hg' (hid.trans hev.id.symm)] at hlive hleft
  exact ⟨g', hev, hlive, hleft⟩

/-- What the CLI refuses, the proxy does not send, or not to the origin of the URL. -/
theorem notSent_of_error (h₀ : StoreRun window .empty c₀ es₀ s₀ t₀) (hinfo : info s₀ client grantId now = .ok i)
    (hlater : Later window s₀ t₀ now env v) (hreq : req.rawPath = proxyPath grantId target) {localNow : DateTime}
    {e : Uncovered} (h : checkGrantCovers i localNow target req.method.str = .error e) :
    NotSent env v grantId req ∨ ∃ approved, e = .origin approved target.origin ∧
      approved.sameTarget target.origin = false ∧
      ∀ a, admission env v grantId req = .ok a → a.call.origin = approved := by
  obtain ⟨g₀, hg₀, rfl, hmech, horigins, hmethods, hprefixes, hafter, hmax, hcount, hrevoked, htime⟩ := info_ok hinfo
  have hdead : g₀.live now = false → NotSent env v g₀.id req := by
    intro hd
    refine notSent_of_not_spendable fun hs => ?_
    obtain ⟨g, hev, hlive, -⟩ := hlater.spendable hg₀ hs
    rw [hev.dead hlater.clock hd] at hlive
    cases hlive
  have hcall : ∀ a, admission env v g₀.id req = .ok a →
      admitCall g₀.constraints req.method.str req.rawPath = .ok a.call := by
    intro a ha
    obtain ⟨hfind, -, hcall⟩ := admission_grant ha
    rwa [(hlater.grant_found hg₀ hfind).2] at hcall
  rcases checkGrantCovers_error h with
    hbad | hbad | hbad | ⟨m, hm, hle⟩ | hbad | ⟨o, ho, hother, rfl⟩ | hbad | ⟨p, hp, hbad⟩
  · -- another mechanism
    refine Or.inl (notSent_of_not_admitted fun a ha => hbad ?_)
    obtain ⟨hfind, hbrokered, -⟩ := admission_grant ha
    rw [(hlater.grant_found hg₀ hfind).1.mechanism, hmech] at hbrokered
    exact Option.some.inj hbrokered
  · -- revoked
    refine Or.inl (hdead ?_)
    rw [GrantRow.live_eq_false, ← hrevoked, hbad]
    rfl
  · -- expired, at the server's time
    refine Or.inl (hdead ?_)
    rw [htime, hafter, Option.getD_some] at hbad
    rw [GrantRow.live_eq_false, decide_eq_true hbad, Bool.or_true]
  · -- no use is left, and none comes back
    refine Or.inl (notSent_of_not_spendable fun hs => ?_)
    obtain ⟨g, hev, -, hleft⟩ := hlater.spendable hg₀ hs
    have hnonneg := useCount_nonneg h₀ g₀ hg₀
    have hmono := hev.useCount
    rw [hmax, Option.map_eq_some_iff] at hm
    obtain ⟨m', hm', rfl⟩ := hm
    rw [hcount, clampU32, clampU32] at hle
    rw [GrantRow.usesLeft, hev.maxUses, hm', Option.all_some, decide_eq_true_eq] at hleft
    omega
  · -- not one origin
    refine Or.inl (notSent_of_not_admitted fun a ha => ?_)
    exact hbad _ (horigins.trans (admitCall_mem_scope (hcall a ha)).2)
  · -- another origin
    refine Or.inr ⟨o, rfl, hother, fun a ha => ?_⟩
    have hone := (admitCall_mem_scope (hcall a ha)).2
    rw [← horigins, ho] at hone
    exact (List.cons.inj hone).1.symm
  · -- another method
    refine Or.inl (notSent_of_not_admitted fun a ha => hbad ?_)
    rw [hmethods, ← matches_upper, ← admitCall_method (hcall a ha)]
    exact (admitCall_mem_scope (hcall a ha)).1.2.1
  · -- another path
    refine Or.inl (notSent_of_not_admitted fun a ha => hbad ?_)
    obtain ⟨rest, hrest, hpath⟩ := admitCall_path (hcall a ha)
    rw [hreq, proxySuffix_proxyPath _ (slash_head_of_canonicalize hp)] at hrest
    cases hrest
    rw [hp] at hpath
    cases hpath
    rw [hprefixes]
    exact (admitCall_mem_scope (hcall a ha)).1.2.2

/-- What the CLI lets pass is refused for its method or path only as TRACE or as a path without a canonical form. -/
theorem admitted_of_ok (hinfo : info s₀ client grantId now = .ok i) (hlater : Later window s₀ t₀ now env v)
    (hroot : target.path.toList.head? = some '/') (hreq : req.rawPath = proxyPath grantId target) {localNow : DateTime}
    (h : checkGrantCovers i localNow target req.method.str = .ok ()) {g : GrantRow}
    (hg : v.grant.findGrant grantId = some g) :
    (∃ call, admitCall g.constraints req.method.str req.rawPath = .ok call) ↔
      toAsciiUppercase req.method.str ≠ "TRACE" ∧ ∃ p, canonicalize target.path = .ok p := by
  obtain ⟨g₀, hg₀, rfl, -, horigins, hmethods, hprefixes, -⟩ := info_ok hinfo
  rw [(hlater.grant_found hg₀ hg).2]
  have hsuffix := proxySuffix_proxyPath g₀.id hroot
  rw [← hreq] at hsuffix
  constructor
  · rintro ⟨call, hcall⟩
    obtain ⟨rest, hrest, hpath⟩ := admitCall_path hcall
    rw [hsuffix] at hrest
    cases hrest
    exact ⟨admitCall_not_trace hcall, _, hpath⟩
  · rintro ⟨htrace, p, hp⟩
    obtain ⟨⟨o, ho, -⟩, hm, hpre⟩ := checkGrantCovers_ok h
    exact admitCall_of_matches hsuffix hp htrace (horigins ▸ ho) (hmethods ▸ hm) (hprefixes ▸ hpre p hp)

/-- And it is sent as the call that was named. -/
theorem named_of_ok (hinfo : info s₀ client grantId now = .ok i) (hlater : Later window s₀ t₀ now env v)
    (hroot : target.path.toList.head? = some '/') (hreq : req.rawPath = proxyPath grantId target) {localNow : DateTime}
    (h : checkGrantCovers i localNow target req.method.str = .ok ()) (ha : admission env v grantId req = .ok a) :
    a.call.origin.sameTarget target.origin = true ∧ a.call.method = toAsciiUppercase req.method.str ∧
      canonicalize target.path = .ok a.call.path := by
  obtain ⟨g₀, hg₀, rfl, -, horigins, -⟩ := info_ok hinfo
  obtain ⟨hfind, -, hcall⟩ := admission_grant ha
  rw [(hlater.grant_found hg₀ hfind).2] at hcall
  obtain ⟨⟨o, ho, hsame⟩, -, -⟩ := checkGrantCovers_ok h
  obtain ⟨rest, hrest, hpath⟩ := admitCall_path hcall
  rw [hreq, proxySuffix_proxyPath _ hroot] at hrest
  cases hrest
  have hone := (admitCall_mem_scope hcall).2
  rw [← horigins, ho] at hone
  rw [← (List.cons.inj hone).1]
  exact ⟨hsame, admitCall_method hcall, hpath⟩

/-- A grant of an earlier run, looked up before it is used again for a URL. What the CLI then refuses, the server would
not send for, whatever anybody does in between, or it would send it to an origin that the URL does not name. What the
CLI lets pass is sent as the call that was named, and not refused for its method or path but as TRACE or where the path
has no canonical form. The clock of the CLI's host has no part in it. -/
theorem reuse_agrees (h₀ : StoreRun window .empty c₀ es₀ s₀ t₀) (hinfo : info s₀ client grantId now = .ok i)
    (hlater : Later window s₀ t₀ now env v) {parse : UrlParser} (hparse : parse.Https) {url : UrlHost} {raw : String}
    (htarget : parseTarget parse url raw = .ok target) (hreq : req.rawPath = proxyPath grantId target)
    (localNow : DateTime) :
    (∀ e, checkGrantCovers i localNow target req.method.str = .error e →
      NotSent env v grantId req ∨ ∃ approved, e = .origin approved target.origin ∧
        approved.sameTarget target.origin = false ∧
        ∀ a, admission env v grantId req = .ok a → a.call.origin = approved) ∧
    (checkGrantCovers i localNow target req.method.str = .ok () →
      (∀ a, admission env v grantId req = .ok a → a.call.origin.sameTarget target.origin = true ∧
        a.call.method = toAsciiUppercase req.method.str ∧ canonicalize target.path = .ok a.call.path) ∧
      ∀ g, v.grant.findGrant grantId = some g →
        ((∃ call, admitCall g.constraints req.method.str req.rawPath = .ok call) ↔
          toAsciiUppercase req.method.str ≠ "TRACE" ∧ ∃ p, canonicalize target.path = .ok p)) := by
  have hroot := parseTarget_rooted hparse htarget
  refine ⟨fun e he => notSent_of_error h₀ hinfo hlater hreq he, fun hok => ⟨fun a ha => ?_, fun g hg => ?_⟩⟩
  · exact named_of_ok hinfo hlater hroot hreq hok ha
  · exact admitted_of_ok hinfo hlater hroot hreq hok hg

end

/-! ### A path outside the grant -/

/-- A grant for reading repositories. -/
def repoGrant : GrantParams :=
  { deployGrant with
    mechanism := "brokered"
    constraints := ⟨[⟨"api.example.com", none⟩], ["GET"], ["/repos"], 800, some 1⟩ }

def approvedRepos : List (StoreOp × DateTime) :=
  [(.createSecretWithVersion deployKey 4 "operator", .ofSeconds 900),
    (.insertAccessRequestWithId 5 { askedRequest with mechanism := "brokered", constraints := repoGrant.constraints }
      (some 20) .pending none 0, .ofSeconds 1000),
    (.approveRequest 5 "operator" 7 repoGrant none 0, .ofSeconds 1100)]

def reposStore : Store := playEnd (StoreOp.step 60) .empty approvedRepos

def adminTarget : Target := ⟨⟨"api.example.com", none⟩, "/admin", none⟩

def adminRequest : ProxyRequest := ⟨⟨"GET", by decide +kernel⟩, proxyPath 7 adminTarget, none, [], []⟩

theorem reuse_agrees_admin :
    NotSent { bucketEnv with now := .ofSeconds 1200 } ⟨reposStore, reposStore, reposStore, reposStore, reposStore⟩ 7
      adminRequest := by
  have hrun := run_play (StoreOp.step 60) .empty (.ofSeconds 800) approvedRepos (by decide)
  have hrefused : (info reposStore "agent" 7 (.ofSeconds 1150)).toOption.any (fun i =>
      decide (checkGrantCovers i (.ofSeconds 9000) adminTarget "GET" = .error (.path ["/repos"] "/admin"))) = true := by
    decide +kernel
  have htarget : parseTarget hostParser (fun h => some (some h)) "https://api.example.com/admin" = .ok adminTarget := by
    decide +kernel
  cases hinfo : info reposStore "agent" 7 (.ofSeconds 1150) with
  | error e =>
      rw [hinfo] at hrefused
      cases hrefused
  | ok i =>
      rw [hinfo] at hrefused
      have hcheck := of_decide_eq_true hrefused
      have hlater : Later 60 reposStore (.ofSeconds 1100) (.ofSeconds 1150) { bucketEnv with now := .ofSeconds 1200 }
          ⟨reposStore, reposStore, reposStore, reposStore, reposStore⟩ :=
        ⟨⟨[], _, Run.nil⟩, ⟨[], _, Run.nil⟩, by decide⟩
      obtain hnot | ⟨o, ho, -⟩ := (@reuse_agrees 60 _ _ _ _ _ _ _ _ _ _ _ adminRequest hrun hinfo hlater hostParser
        hostParser_https _ _ htarget rfl (.ofSeconds 9000)).1 _ hcheck
      · exact hnot
      · cases ho

end Keychute.Cli
