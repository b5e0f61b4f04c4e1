import Keychute.Accounting

/-!
# The life of an access request

* `Profile` : what the store holds about one request id: its state, its grants, its created and its resolution rows;
* `Profile.Next` : the abstract machine. A request is created, pending or already resolved, and a pending one is
  resolved once;
* `profile_step` : every commit moves every request by `Next`;
* `request_lifecycle` : over every run from an empty database, a request is resolved at most once and in time, is
  approved exactly when it has its one grant, has its one created row and one resolution row when it is resolved, and
  a call that does not succeed changes nothing.
-/

namespace Keychute.Db
open Keychute.Lib

/-! ## The abstract machine -/

/-- What the store holds about one request id. `state` is `none` before the request is created. -/
structure Profile where
  state : Option RequestState
  grants : Nat
  created : Nat
  resolved : Nat
  deriving DecidableEq

namespace Profile

/-- Nothing yet. -/
def absent : Profile := ⟨none, 0, 0, 0⟩

/-- A state that is final. -/
def terminal (st : RequestState) : Bool := st != .pending

/-- One step: nothing, the creation of the request, or the resolution of a pending one. -/
inductive Next : Profile → Profile → Prop where
  | stay (p : Profile) : Next p p
  | create (p : Profile) (st : RequestState) (hp : p.state = none) (hst : st ≠ .expired) :
      Next p ⟨some st, p.grants + (if st = .approved then 1 else 0), p.created + 1,
        p.resolved + if terminal st then 1 else 0⟩
  | resolve (p : Profile) (st : RequestState) (hp : p.state = some .pending) (hst : st ≠ .pending) :
      Next p ⟨some st, p.grants + (if st = .approved then 1 else 0), p.created, p.resolved + 1⟩

/-- The counts that go with the state. -/
def Consistent (p : Profile) : Prop :=
  match p.state with
  | none => p = absent
  | some st => p = ⟨some st, if st = .approved then 1 else 0, 1, if terminal st then 1 else 0⟩

theorem Consistent.next {p q : Profile} (hp : p.Consistent) (h : Next p q) : q.Consistent := by
  cases h with
  | stay => exact hp
  | create st hnone hst =>
      rw [Consistent, hnone] at hp
      rw [show p = absent from hp]
      cases st <;> rfl
  | resolve st hpend hst =>
      rw [Consistent, hpend] at hp
      rw [show p = ⟨some .pending, 0, 1, 0⟩ from hp]
      cases st with
      | pending => exact absurd rfl hst
      | approved => rfl
      | denied => rfl
      | expired => rfl

/-- A final state stays. -/
theorem Next.terminal {p q : Profile} (h : Next p q) {st : RequestState} (hp : p.state = some st)
    (hst : st ≠ .pending) : q.state = some st := by
  cases h with
  | stay => exact hp
  | create st' hnone => rw [hp] at hnone; cases hnone
  | resolve st' hpend => rw [hp, Option.some.injEq] at hpend; exact absurd hpend hst

/-- A pending request stays pending or is resolved. -/
theorem Next.pending {p q : Profile} (h : Next p q) (hp : p.state = some .pending) :
    q.state = some .pending ∨ ∃ st, st ≠ .pending ∧ q.state = some st := by
  cases h with
  | stay => exact Or.inl hp
  | create st hnone => rw [hp] at hnone; cases hnone
  | resolve st hpend hst => exact Or.inr ⟨st, hst, rfl⟩

end Profile

/-! ## The profile of a store -/

/-- `request-created` rows of a request. -/
def isCreatedRow (id : Uuid) (a : AuditRow) : Bool := a.kind == .requestCreated && a.requestId == some id

def AuditKind.isResolution : AuditKind → Bool
  | .requestApproved | .requestDenied | .requestExpired => true
  | _ => false

/-- Resolution rows of a request. -/
def isResolutionRow (id : Uuid) (a : AuditRow) : Bool := a.kind.isResolution && a.requestId == some id

def Store.findRequest (s : Store) (id : Uuid) : Option AccessRequestRow := s.requests.rows.find? (·.id == id)

def Store.profile (s : Store) (id : Uuid) : Profile where
  state := (s.findRequest id).map (·.state)
  grants := s.grants.rows.countP (·.requestId == id)
  created := s.audit.countP (isCreatedRow id)
  resolved := s.audit.countP (isResolutionRow id)

/-- A kind of row that says nothing about the life of a request. -/
def AuditKind.quiet (k : AuditKind) : Bool := k != .requestCreated && !k.isResolution

section
variable {window : Int} {op : StoreOp} {now : DateTime} {s s' : Store} {r : Reply} {id : Uuid}

theorem findRequest_eq_some {req : AccessRequestRow} :
    s.findRequest id = some req ↔ req ∈ s.requests.rows ∧ req.id = id := by
  unfold Store.findRequest
  rw [Table.find?_eq_some]
  · simp
  · intro a b ha hb
    rw [Keys.pair_clashes]
    simp only [beq_iff_eq] at ha hb
    exact Or.inl (ha.trans hb.symm)

theorem countP_quiet {rows : List AuditRow} (h : ∀ a ∈ rows, a.kind.quiet = true) :
    rows.countP (isCreatedRow id) = 0 ∧ rows.countP (isResolutionRow id) = 0 := by
  rw [List.countP_eq_zero, List.countP_eq_zero]
  constructor
  · intro a ha hc
    have hq := h a ha
    rw [isCreatedRow, Bool.and_eq_true, beq_iff_eq] at hc
    rw [hc.1] at hq
    cases hq
  · intro a ha hc
    have hq := h a ha
    rw [isResolutionRow, Bool.and_eq_true] at hc
    rw [AuditKind.quiet, hc.1, Bool.not_true, Bool.and_false] at hq
    cases hq

/-- A commit that leaves requests alone. -/
theorem profile_quiet (hreq : (s'.findRequest id).map (·.state) = (s.findRequest id).map (·.state))
    (hgrants : s'.grants.rows.map (·.requestId) = s.grants.rows.map (·.requestId)) {rows : List AuditRow}
    (haudit : s'.audit = s.audit ++ rows) (hrows : ∀ a ∈ rows, a.kind.quiet = true) :
    (s.profile id).Next (s'.profile id) := by
  have hcount : s'.grants.rows.countP (·.requestId == id) = s.grants.rows.countP (·.requestId == id) := by
    have := congrArg (List.countP (· == id)) hgrants
    rwa [List.countP_map, List.countP_map] at this
  have hsame : s'.profile id = s.profile id := by
    obtain ⟨hc, hr⟩ := @countP_quiet id rows hrows
    simp only [Store.profile, hreq, hcount, haudit, List.countP_append, hc, hr, Nat.add_zero]
  rw [hsame]
  exact .stay _

/-- An update of grants keeps the requests they are for. -/
theorem requestIds_update {p : GrantRow → Bool} {f : GrantRow → GrantRow}
    (hf : ∀ g, grantKeys.key (f g) = grantKeys.key g) (t : Table grantKeys) : (t.update p f hf).rows.map (·.requestId) = t.rows.map (·.requestId) := by
  rw [Table.update_rows, List.map_map]
  apply List.map_congr_left
  intro g _
  rw [Function.comp_apply]
  split
  · exact congrArg Prod.snd (hf g)
  · rfl

theorem countP_insert_grant {grant : GrantParams} {grantId rid : Uuid} (h : s.grants.Fresh (grant.row grantId rid now)) :
    (s.grants.insert (grant.row grantId rid now)).rows.countP (·.requestId == id) =
      s.grants.rows.countP (·.requestId == id) + if rid = id then 1 else 0 := by
  rw [Table.insert_rows h, List.countP_append, List.countP_singleton]
  simp only [GrantParams.row, beq_iff_eq]

/-- A commit that resolves one pending request. -/
theorem profile_resolve {rid : Uuid} {st : RequestState} (hst : st ≠ .pending) {p : AccessRequestRow → Bool}
    {f : AccessRequestRow → AccessRequestRow} (hf : ∀ a, requestKeys.key (f a) = requestKeys.key a)
    (hreq : s'.requests = s.requests.update p f hf) (hfst : ∀ a, (f a).state = st)
    (hp : ∀ a, p a = true → a.id = rid ∧ a.state = .pending) (hex : ∃ a ∈ s.requests.rows, p a = true)
    (hgrants : s'.grants.rows.countP (·.requestId == id) =
      s.grants.rows.countP (·.requestId == id) + if st = .approved ∧ rid = id then 1 else 0)
    (rows : List AuditRow) (hrows : ∀ a ∈ rows, a.kind.quiet = true) {row : AuditRow}
    (haudit : s'.audit = s.audit ++ (rows ++ [row])) (hkind : row.kind.isResolution = true)
    (hrow : row.requestId = some rid) : (s.profile id).Next (s'.profile id) := by
  obtain ⟨hc, hr⟩ := @countP_quiet id rows hrows
  have hnot : row.kind ≠ .requestCreated := by
    intro heq
    rw [heq] at hkind
    cases hkind
  have hcreated : s'.audit.countP (isCreatedRow id) = s.audit.countP (isCreatedRow id) := by
    rw [haudit, List.countP_append, List.countP_append, hc, List.countP_singleton, isCreatedRow,
      beq_false_of_ne hnot]
    rfl
  have hresolved : s'.audit.countP (isResolutionRow id) =
      s.audit.countP (isResolutionRow id) + if rid = id then 1 else 0 := by
    rw [haudit, List.countP_append, List.countP_append, hr, List.countP_singleton, isResolutionRow, hkind, hrow]
    simp
  have hfind : s'.findRequest id = (s.findRequest id).map fun a => if p a then f a else a := by
    unfold Store.findRequest
    rw [hreq, Table.find?_update]
    intro a
    rw [show (f a).id = a.id from congrArg Prod.fst (hf a)]
  obtain ⟨a, ha, hpa⟩ := hex
  by_cases hid : rid = id
  · subst hid
    have hfound : s.findRequest rid = some a := findRequest_eq_some.2 ⟨ha, (hp a hpa).1⟩
    have hpend : (s.profile rid).state = some .pending := by
      rw [Store.profile, hfound]
      exact congrArg some (hp a hpa).2
    have hprof : s'.profile rid = ⟨some st, (s.profile rid).grants + (if st = .approved then 1 else 0),
        (s.profile rid).created, (s.profile rid).resolved + 1⟩ := by
      simp only [Store.profile, hfind, hfound, hgrants, hcreated, hresolved, Option.map_some, hpa, if_true, hfst,
        and_true]
    rw [hprof]
    exact .resolve _ st hpend hst
  · have hother : s'.findRequest id = s.findRequest id := by
      rw [hfind]
      cases hfound : s.findRequest id with
      | none => rfl
      | some b =>
          have hb : p b = false := by
            by_contra hne
            exact hid ((hp b (by simpa using hne)).1.symm.trans (findRequest_eq_some.1 hfound).2)
          simp [hb]
    have hprof : s'.profile id = s.profile id := by
      simp only [Store.profile, hother, hgrants, hcreated, hresolved, hid, and_false, if_false, Nat.add_zero]
    rw [hprof]
    exact .stay _

/-- A commit that creates one request, and may resolve it. -/
theorem profile_create {row : AccessRequestRow} (hst : row.state ≠ .expired) (hfresh : s.requests.Fresh row)
    (hreq : s'.requests = s.requests.insert row)
    (hgrants : s'.grants.rows.countP (·.requestId == id) =
      s.grants.rows.countP (·.requestId == id) + if row.state = .approved ∧ row.id = id then 1 else 0)
    {first : AuditRow} {rest : List AuditRow} (haudit : s'.audit = s.audit ++ first :: rest)
    (hfirst : first.kind = .requestCreated) (hfirstId : first.requestId = some row.id)
    (hrest : ∀ a ∈ rest, a.kind.isResolution = true ∧ a.requestId = some row.id)
    (hlen : rest.length = if Profile.terminal row.state then 1 else 0) : (s.profile id).Next (s'.profile id) := by
  have hfind : s'.findRequest id = (s.findRequest id).or (if row.id == id then some row else none) := by
    unfold Store.findRequest
    rw [hreq, Table.find?_insert hfresh]
  have hcreated : s'.audit.countP (isCreatedRow id) =
      s.audit.countP (isCreatedRow id) + if row.id = id then 1 else 0 := by
    have hzero : rest.countP (isCreatedRow id) = 0 := by
      rw [List.countP_eq_zero]
      intro a ha hc
      rw [isCreatedRow, Bool.and_eq_true, beq_iff_eq] at hc
      have hres := (hrest a ha).1
      rw [hc.1] at hres
      cases hres
    rw [haudit, List.countP_append, List.countP_cons, hzero, isCreatedRow, hfirst, hfirstId]
    simp
  have hresolved : s'.audit.countP (isResolutionRow id) =
      s.audit.countP (isResolutionRow id) + if row.id = id then rest.length else 0 := by
    have hfirst' : isResolutionRow id first = false := by
      rw [isResolutionRow, hfirst]
      rfl
    have hcount : rest.countP (isResolutionRow id) = if row.id = id then rest.length else 0 := by
      split
      · rename_i hid
        rw [List.countP_eq_length]
        intro a ha
        rw [isResolutionRow, (hrest a ha).1, (hrest a ha).2, hid]
        simp
      · rename_i hid
        rw [List.countP_eq_zero]
        intro a ha hc
        rw [isResolutionRow, Bool.and_eq_true, beq_iff_eq, (hrest a ha).2] at hc
        exact hid (Option.some.inj hc.2)
    rw [haudit, List.countP_append, List.countP_cons, hcount, hfirst']
    simp
  by_cases hid : row.id = id
  · subst hid
    have hnone : s.findRequest row.id = none := by
      unfold Store.findRequest
      rw [List.find?_eq_none]
      intro a ha heq
      have hc := hfresh a ha
      rw [Keys.pair_clashes.2 (Or.inl (by simpa using heq))] at hc
      cases hc
    have hprof : s'.profile row.id = ⟨some row.state,
        (s.profile row.id).grants + (if row.state = .approved then 1 else 0), (s.profile row.id).created + 1,
        (s.profile row.id).resolved + if Profile.terminal row.state then 1 else 0⟩ := by
      simp only [Store.profile, hfind, hnone, hgrants, hcreated, hresolved, hlen, Option.none_or, beq_self_eq_true,
        if_true, Option.map_some, and_true]
    rw [hprof]
    refine .create _ row.state ?_ hst
    rw [Store.profile, hnone]
    rfl
  · have hprof : s'.profile id = s.profile id := by
      simp only [Store.profile, hfind, hgrants, hcreated, hresolved, hid, and_false, if_false, Nat.add_zero,
        beq_false_of_ne hid, Bool.false_eq_true, Option.or_none]
    rw [hprof]
    exact .stay _

/-- The sweep expires every request it can, each with its row. -/
theorem profile_expire (hgrants : s'.grants = s.grants)
    (hreq : s'.requests = s.requests.update (expirable now) (AccessRequestRow.expire now) (AccessRequestRow.key_expire now))
    (haudit : s'.audit = s.audit ++
      ((s.requests.rows.filter (expirable now)).map (AccessRequestRow.expire now)).map (expiredRow now)) :
    (s.profile id).Next (s'.profile id) := by
  have hfind : s'.findRequest id = (s.findRequest id).map fun a => if expirable now a then a.expire now else a := by
    unfold Store.findRequest
    rw [hreq]
    exact Table.find?_update fun _ => rfl
  have hcreated : s'.audit.countP (isCreatedRow id) = s.audit.countP (isCreatedRow id) := by
    have hzero : (((s.requests.rows.filter (expirable now)).map (AccessRequestRow.expire now)).map
        (expiredRow now)).countP (isCreatedRow id) = 0 := by
      rw [List.countP_eq_zero]
      intro a ha
      obtain ⟨b, -, rfl⟩ := List.mem_map.1 ha
      exact Bool.false_ne_true
    rw [haudit, List.countP_append, hzero, Nat.add_zero]
  have hresolved : s'.audit.countP (isResolutionRow id) = s.audit.countP (isResolutionRow id) +
      (s.requests.rows.filter fun a => a.id == id && expirable now a).length := by
    rw [haudit, List.countP_append, List.countP_map, List.countP_map, List.countP_filter, ← List.countP_eq_length_filter]
    congr 1
  cases hfound : s.findRequest id with
  | none =>
      have hnil : s.requests.rows.filter (fun a => a.id == id && expirable now a) = [] := by
        rw [Store.findRequest, List.find?_eq_none] at hfound
        rw [List.filter_eq_nil_iff]
        intro a ha hc
        rw [Bool.and_eq_true] at hc
        exact hfound a ha hc.1
      have hprof : s'.profile id = s.profile id := by
        simp only [Store.profile, hfind, hfound, hgrants, hcreated, hresolved, hnil, List.length_nil, Nat.add_zero,
          Option.map_none]
      rw [hprof]
      exact .stay _
  | some a =>
      have hfilter := Table.filter_key_and (t := s.requests) (p := (·.id == id)) ?_ hfound (expirable now)
      · cases hexp : expirable now a with
        | false =>
            rw [hexp, if_neg Bool.false_ne_true] at hfilter
            have hprof : s'.profile id = s.profile id := by
              simp only [Store.profile, hfind, hfound, hgrants, hcreated, hresolved, hfilter, hexp, List.length_nil,
                Nat.add_zero, Option.map_some, Bool.false_eq_true, if_false]
            rw [hprof]
            exact .stay _
        | true =>
            rw [hexp, if_pos rfl] at hfilter
            have hpend : a.state = .pending := by
              rw [expirable, Bool.and_eq_true, beq_iff_eq] at hexp
              exact hexp.1
            have hprof : s'.profile id = ⟨some .expired, (s.profile id).grants + (if RequestState.expired = .approved
                then 1 else 0), (s.profile id).created, (s.profile id).resolved + 1⟩ := by
              simp only [Store.profile, hfind, hfound, hgrants, hcreated, hresolved, hfilter, hexp, Option.map_some,
                if_true, List.length_singleton, AccessRequestRow.expire, reduceCtorEq, if_false, Nat.add_zero]
            rw [hprof]
            refine .resolve _ .expired ?_ (by simp)
            rw [Store.profile, hfound]
            exact congrArg some hpend
      · intro b c hb hc
        rw [Keys.pair_clashes]
        simp only [beq_iff_eq] at hb hc
        exact Or.inl (hb.trans hc.symm)

theorem quiet_of_kind {rows : List AuditRow} {k : AuditKind} (hk : k.quiet = true) (h : ∀ a ∈ rows, a.kind = k) :
    ∀ a ∈ rows, a.kind.quiet = true := by
  intro a ha
  rw [h a ha]
  exact hk

/-- Reconciliation leaves no row about a request. -/
theorem reconcileOneSecret_audit {keyset : Keyset} {d : DesiredSecret} {secretId versionId : Uuid}
    (h : (reconcileOneSecret keyset d secretId versionId now).exec s = .ok (r, s')) :
    ∃ rows, s'.audit = s.audit ++ rows ∧ ∀ a ∈ rows, a.kind.quiet = true := by
  obtain h | ⟨row, -, -, s₁, h₁, h₂, _, rfl⟩ := reconcileOneSecret_ok h
  · obtain ⟨_, _, a, ha, _, _, rfl, rfl⟩ := provisionSecret_ok h
    exact ⟨[a], rfl, quiet_of_kind rfl (by simpa using ha)⟩
  · have hs₁ : ∃ rows, s₁.audit = s.audit ++ rows ∧ ∀ a ∈ rows, a.kind.quiet = true := by
      obtain ⟨-, h₁⟩ | ⟨-, rfl⟩ := h₁
      · obtain ⟨_, a, ha, rfl⟩ := exec_adoptSecret_eq_ok h₁
        exact ⟨[a], rfl, quiet_of_kind rfl (by simpa using ha)⟩
      · exact ⟨[], by simp, by simp⟩
    obtain ⟨rows, heq, hrows⟩ := hs₁
    obtain ⟨-, h₂⟩ | ⟨-, rfl⟩ := h₂
    · obtain ⟨_, _, _, a, _, ha, _, rfl⟩ := exec_provisionVersion_eq_ok h₂
      refine ⟨rows ++ [a], by rw [← List.append_assoc, ← heq], ?_⟩
      intro b hb
      rcases List.mem_append.1 hb with hb | hb
      · exact hrows b hb
      · rw [List.mem_singleton.1 hb, ha]
        rfl
    · exact ⟨rows, heq, hrows⟩

theorem resolvable_pending {rid : Uuid} (a : AccessRequestRow) (h : (a.id == rid && a.resolvable now) = true) :
    a.id = rid ∧ a.state = .pending := by
  simp only [AccessRequestRow.resolvable, Bool.and_eq_true, beq_iff_eq] at h
  exact ⟨h.1, h.2.1⟩

/-- The two kinds of attempt that the handlers pass. -/
def StoreOp.attempts : StoreOp → Bool
  | .beginGrantUse _ _ _ kind _ => kind == .releaseAttempt || kind == .proxyAttempt
  | _ => true

/-- Every commit moves every request by one step of the machine. -/
theorem profile_step (hop : op.attempts = true) (h : (op.txn window now).exec s = .ok (r, s')) (id : Uuid) :
    (s.profile id).Next (s'.profile id) := by
  cases op with
  | beginGrantUse grantId idemKey versionId kind target =>
      have hkind : kind.quiet = true := by
        rw [StoreOp.attempts, Bool.or_eq_true, beq_iff_eq, beq_iff_eq] at hop
        rcases hop with rfl | rfl <;> rfl
      obtain ⟨g, hg, hlive, ⟨_, _, _, rfl, rfl⟩ | ⟨hnone, hleft, rfl, rfl⟩⟩ := beginGrantUse_ok h
      · exact profile_quiet rfl rfl rfl (quiet_of_kind hkind (by simp [attemptRow]))
      · have hbump : ∀ g : GrantRow, grantKeys.key g.bump = grantKeys.key g := fun _ => rfl
        exact profile_quiet rfl (requestIds_update hbump s.grants) rfl (quiet_of_kind hkind (by simp [attemptRow]))
  | revokeGrant grantId actor =>
      obtain ⟨a, ha, rfl, rfl⟩ := revokeGrant_ok h
      exact profile_quiet rfl (requestIds_update GrantRow.key_revoke s.grants) rfl (quiet_of_kind rfl (by simpa using ha))
  | sweepPurgePassthroughs =>
      obtain ⟨⟨_, rfl⟩, rfl⟩ := sweepPurgePassthroughs_ok h
      exact profile_quiet rfl (requestIds_update GrantRow.key_purged s.grants) (List.append_nil _).symm (by simp)
  | unpinStaleGrantReads =>
      obtain ⟨⟨_, rfl⟩, rfl⟩ := unpinStaleGrantReads_ok h
      exact profile_quiet rfl rfl (List.append_nil _).symm (by simp)
  | createSecretWithVersion store versionId actor =>
      obtain ⟨_, a, ha, _, _, rfl, rfl⟩ := createSecretWithVersion_ok h
      exact profile_quiet rfl rfl rfl (quiet_of_kind rfl (by simpa using ha))
  | createSecretFromClient store versionId clientName rate =>
      obtain ⟨_, _, _, rfl, rfl⟩ := createSecretFromClient_ok h
      exact profile_quiet rfl rfl rfl (quiet_of_kind (k := .secretCreated) rfl (by simp [depositRow]))
  | markSecretVetted secretId reviewedVersion actor =>
      obtain ⟨a, ha, rfl, rfl⟩ := markSecretVetted_ok h
      exact profile_quiet rfl rfl rfl (quiet_of_kind rfl (by simpa using ha))
  | rotateSecretVersion secretId secretName actor sealAt versionId =>
      obtain ⟨_, _, _, a, _, ha, _, rfl, rfl⟩ := rotateSecretVersion_ok h
      exact profile_quiet rfl rfl rfl (quiet_of_kind rfl (by simpa using ha))
  | updateSecretSettingsAudited secretId settings actor =>
      obtain ⟨_, a, ha, rfl, rfl⟩ := updateSecretSettingsAudited_ok h
      exact profile_quiet rfl rfl rfl (quiet_of_kind rfl (by simpa using ha))
  | deleteSecretAudited secretId expectedVersion actor =>
      obtain ⟨_, _, _, audits, _, _, haudits, ⟨_, rfl⟩, rfl⟩ := deleteSecretAudited_ok h
      refine profile_quiet rfl (requestIds_update GrantRow.key_revoke s.grants) rfl ?_
      intro a ha
      rcases haudits a ha with hk | hk <;> rw [hk] <;> rfl
  | reconcileOneSecret keyset d secretId versionId =>
      obtain ⟨hr, hg, hreads, hreq⟩ := reconcileOneSecret_grants h
      obtain ⟨rows, haudit, hrows⟩ := reconcileOneSecret_audit h
      exact profile_quiet (by rw [Store.findRequest, Store.findRequest, hreq]) (by rw [hg]) haudit hrows
  | insertAccessRequestWithId id' req pendingCap resolution context grantId =>
      obtain ⟨c, gid, hfresh, hg, rfl, rfl⟩ := insertAccessRequestWithId_ok h
      have hfresh' : s.requests.Fresh (resolution.settle now (req.row id' c now)) := by
        cases resolution <;> exact hfresh
      cases resolution with
      | pending =>
          exact profile_create RequestState.noConfusion hfresh' rfl rfl rfl rfl rfl (by simp [InitialResolution.auditRows]) rfl
      | denied reason resolvedBy =>
          refine profile_create RequestState.noConfusion hfresh' rfl rfl rfl rfl rfl ?_ rfl
          intro a ha
          rw [List.mem_singleton.1 ha]
          exact ⟨rfl, rfl⟩
      | approved resolvedBy grant notifyOnly =>
          refine profile_create RequestState.noConfusion hfresh' rfl ?_ rfl rfl rfl ?_ rfl
          · refine (countP_insert_grant (hg grant rfl).2.2).trans ?_
            congr 1
            exact if_congr ⟨fun hid => ⟨rfl, hid⟩, fun hid => hid.2⟩ rfl rfl
          · intro a ha
            rw [List.mem_singleton.1 ha]
            exact ⟨rfl, rfl⟩
  | approveRequest requestId resolvedBy grantId grant store versionId =>
      obtain ⟨req, hreq, stored, a, detail, happ, ha, _, _, _, hg, rfl, rfl⟩ := approveRequest_ok h
      have hp : ∀ b, approvable requestId grant now b = true → b.id = requestId ∧ b.state = .pending := by
        intro b hb
        simp only [approvable, AccessRequestRow.resolvable, Bool.and_eq_true, beq_iff_eq] at hb
        exact ⟨hb.1.1, hb.1.2.1⟩
      have hcount := @countP_insert_grant _ _ id _ _ _ hg
      cases stored with
      | none =>
          exact profile_resolve (by simp) (AccessRequestRow.key_approve resolvedBy now) rfl (fun _ => rfl) hp
            ⟨req, hreq, happ⟩ (by simpa using hcount) [] (by simp) rfl rfl rfl
      | some p =>
          exact profile_resolve (by simp) (AccessRequestRow.key_approve resolvedBy now) rfl (fun _ => rfl) hp
            ⟨req, hreq, happ⟩ (by simpa using hcount) [a] (quiet_of_kind rfl (by simpa using ha))
            (List.append_assoc s.audit [a] _) rfl rfl
  | resolveApprove requestId resolvedBy grant grantId =>
      obtain ⟨req, hreq, hid, hres, _, hg, rfl, rfl⟩ := resolveApprove_ok h
      have hcount := @countP_insert_grant _ _ id _ _ _ hg
      exact profile_resolve (by simp) (AccessRequestRow.key_approve resolvedBy now) rfl (fun _ => rfl)
        resolvable_pending ⟨req, hreq, by simp [hid, hres]⟩ (by simpa using hcount) [] (by simp) rfl rfl rfl
  | resolveDeny requestId resolvedBy reason =>
      obtain ⟨req, hreq, hid, hres, rfl, rfl⟩ := resolveDeny_ok h
      exact profile_resolve (by simp) (AccessRequestRow.key_deny reason resolvedBy now) rfl (fun _ => rfl)
        resolvable_pending ⟨req, hreq, by simp [hid, hres]⟩ (by simp) [] (by simp) rfl rfl rfl
  | expireStale =>
      obtain ⟨⟨_, rfl⟩, rfl⟩ := expireStale_ok h
      exact profile_expire rfl rfl rfl
  | purgeRequestContext retentionSeconds =>
      obtain ⟨⟨_, rfl⟩, p, rfl⟩ := purgeRequestContext_ok h
      refine profile_quiet ?_ rfl (List.append_nil _).symm (by simp)
      have hfind := @Table.find?_update _ _ s.requests p (·.id == id) _ AccessRequestRow.key_purge fun _ => rfl
      rw [Store.findRequest, hfind, Option.map_map]
      apply Option.map_congr
      intro a _
      rw [Function.comp_apply]
      split <;> rfl

/-! ## Outcomes -/

/-- The outcomes that are a success. -/
def Reply.succeeded : Reply → Bool
  | .grantUse (.firstUse _) | .grantUse (.replay _ _ _) => true
  | .approve (.approved _) => true
  | .resolved (some _) => true
  | .insert (.created _ _) => true
  | .deposit (.created _) => true
  | .settings .updated => true
  | .deleted (.deleted _) => true
  | .version (some _) => true
  | .change _ => true
  | .flag b => b
  | .count _ => true
  | _ => false

/-- Only a success is committed. -/
theorem succeeded_of_commit (h : (op.txn window now).exec s = .ok (r, s')) : r.succeeded = true := by
  cases op with
  | beginGrantUse grantId idemKey versionId kind target =>
      obtain ⟨g, _, _, ⟨_, _, _, rfl, rfl⟩ | ⟨_, _, rfl, rfl⟩⟩ := beginGrantUse_ok h <;> rfl
  | revokeGrant grantId actor =>
      obtain ⟨_, _, rfl, rfl⟩ := revokeGrant_ok h
      rfl
  | sweepPurgePassthroughs =>
      obtain ⟨⟨_, rfl⟩, rfl⟩ := sweepPurgePassthroughs_ok h
      rfl
  | unpinStaleGrantReads =>
      obtain ⟨⟨_, rfl⟩, rfl⟩ := unpinStaleGrantReads_ok h
      rfl
  | createSecretWithVersion store versionId actor =>
      obtain ⟨_, _, _, _, _, rfl, rfl⟩ := createSecretWithVersion_ok h
      rfl
  | createSecretFromClient store versionId clientName rate =>
      obtain ⟨_, _, _, rfl, rfl⟩ := createSecretFromClient_ok h
      rfl
  | markSecretVetted secretId reviewedVersion actor =>
      obtain ⟨_, _, rfl, rfl⟩ := markSecretVetted_ok h
      rfl
  | rotateSecretVersion secretId secretName actor sealAt versionId =>
      obtain ⟨_, _, _, _, _, _, _, rfl, rfl⟩ := rotateSecretVersion_ok h
      rfl
  | updateSecretSettingsAudited secretId settings actor =>
      obtain ⟨_, _, _, rfl, rfl⟩ := updateSecretSettingsAudited_ok h
      rfl
  | deleteSecretAudited secretId expectedVersion actor =>
      obtain ⟨_, _, _, _, _, _, _, ⟨_, rfl⟩, rfl⟩ := deleteSecretAudited_ok h
      rfl
  | reconcileOneSecret keyset d secretId versionId =>
      obtain h | ⟨_, _, _, _, _, _, _, rfl⟩ := reconcileOneSecret_ok h
      · obtain ⟨_, _, _, _, _, _, rfl, rfl⟩ := provisionSecret_ok h
        rfl
      · rfl
  | insertAccessRequestWithId id req pendingCap resolution context grantId =>
      obtain ⟨_, _, _, _, rfl, rfl⟩ := insertAccessRequestWithId_ok h
      rfl
  | approveRequest requestId resolvedBy grantId grant store versionId =>
      obtain ⟨_, _, _, _, _, _, _, _, _, _, _, rfl, rfl⟩ := approveRequest_ok h
      rfl
  | resolveApprove requestId resolvedBy grant grantId =>
      obtain ⟨_, _, _, _, _, _, rfl, rfl⟩ := resolveApprove_ok h
      rfl
  | resolveDeny requestId resolvedBy reason =>
      obtain ⟨_, _, _, _, rfl, rfl⟩ := resolveDeny_ok h
      rfl
  | expireStale =>
      obtain ⟨⟨_, rfl⟩, rfl⟩ := expireStale_ok h
      rfl
  | purgeRequestContext retentionSeconds =>
      obtain ⟨⟨_, rfl⟩, _, rfl⟩ := purgeRequestContext_ok h
      rfl

/-- A reply that is not a success. -/
def Unsuccessful (r : Except DbError Reply) : Prop := r.toOption.any Reply.succeeded = false

theorem aborts_requireStoredSecret {grant : GrantParams} {gone : Except DbError Reply} (h : Unsuccessful gone) :
    (requireStoredSecret grant gone).Aborts Unsuccessful := by
  refine Txn.aborts_bind trivial fun _ => Txn.aborts_bind ?_ fun same => ?_
  · unfold sameIncarnation
    split
    · exact Txn.aborts_bind (Txn.aborts_get _) fun _ => trivial
    · trivial
  · split
    · exact h
    · trivial

theorem aborts_approveRequest {requestId grantId versionId : Uuid} {resolvedBy : String} {grant : GrantParams}
    {store : Option StoreSecretParams} :
    (approveRequest requestId resolvedBy grantId grant store versionId now).Aborts Unsuccessful := by
  refine Txn.aborts_bind (aborts_onlyIf ?_) fun _ => Txn.aborts_bind (aborts_onlyIf trivial) fun _ => ?_
  · split
    · exact aborts_requireStoredSecret rfl
    · trivial
  refine Txn.aborts_bind (requestRel.aborts_updateWhere _ _ _) fun updated => ?_
  split
  · exact rfl
  · refine Txn.aborts_bind ?_ fun _ => Txn.aborts_bind (grantRel.aborts_insertOrFail _ rfl) fun _ => trivial
    unfold storeApproved
    split
    · trivial
    · refine Txn.aborts_bind (aborts_sealNow rfl) fun sealed => ?_
      refine Txn.aborts_bind (secretRel.aborts_insertOnConflict _ _ rfl) fun inserted => ?_
      split
      · exact rfl
      · exact Txn.aborts_bind (versionRel.aborts_insertOrFail _ rfl) fun _ => trivial

theorem aborts_resolveApprove {requestId grantId : Uuid} {resolvedBy : String} {grant : GrantParams} :
    (resolveApprove requestId resolvedBy grant grantId now).Aborts Unsuccessful := by
  refine Txn.aborts_bind (aborts_onlyIf (aborts_requireStoredSecret rfl)) fun _ => ?_
  refine Txn.aborts_bind (requestRel.aborts_updateWhere _ _ _) fun updated => ?_
  split
  · exact rfl
  · exact Txn.aborts_bind (grantRel.aborts_insertOrFail _ rfl) fun _ => trivial

theorem aborts_resolveDeny {requestId : Uuid} {resolvedBy reason : String} :
    (resolveDeny requestId resolvedBy reason now).Aborts Unsuccessful := by
  refine Txn.aborts_bind (requestRel.aborts_updateWhere _ _ _) fun updated => ?_
  split
  · exact rfl
  · trivial

/-! ## Over every run -/

/-- The request a call resolves if it succeeds. -/
def StoreOp.resolves : StoreOp → Option Uuid
  | .approveRequest requestId _ _ _ _ _ => some requestId
  | .resolveApprove requestId _ _ _ => some requestId
  | .resolveDeny requestId _ _ => some requestId
  | _ => none

def Store.stateOf (s : Store) (id : Uuid) : Option RequestState := (s.findRequest id).map (·.state)

/-- What holds of all requests after the calls `es`, which left `s`. -/
structure Lived (es : List StoreEvent) (s : Store) : Prop where
  moves : ∀ e ∈ es, ∀ id, e.after.stateOf id = e.before.stateOf id ∨ e.before.stateOf id = none ∨
    (e.before.stateOf id = some .pending ∧ ∃ st, st ≠ .pending ∧ e.after.stateOf id = some st)
  settled : es.Pairwise fun e e' => ∀ id st, st ≠ .pending → e.after.stateOf id = some st → e'.after.stateOf id = some st
  granted : ∀ req ∈ s.requests.rows,
    s.grants.rows.countP (·.requestId == req.id) = if req.state = .approved then 1 else 0
  created : ∀ req ∈ s.requests.rows, s.audit.countP (isCreatedRow req.id) = 1
  resolved : ∀ req ∈ s.requests.rows,
    s.audit.countP (isResolutionRow req.id) = if req.state = .pending then 0 else 1
  in_time : ∀ e ∈ es, ∀ id, e.op.resolves = some id → ¬ Unsuccessful e.reply →
    ∃ req ∈ e.before.requests.rows, req.id = id ∧ req.state = .pending ∧ e.now < req.expiresAt
  expired : ∀ e ∈ es, e.op = .expireStale → ∀ req ∈ e.before.requests.rows, e.after.findRequest req.id ≠ some req →
    req.state = .pending ∧ req.expiresAt < e.now
  failed : ∀ e ∈ es, Unsuccessful e.reply → e.after = e.before

/-- Every call moves every request by one step of the machine. -/
theorem profile_call (window : Int) (now : DateTime) (hop : op.attempts = true) (id : Uuid) :
    (s.profile id).Next ((op.step window now s).1.profile id) := by
  rcases op.step_cases window now s with ⟨r, s', hexec, hstep⟩ | ⟨r, hexec, hstep⟩
  · rw [hstep]
    exact profile_step hop hexec id
  · rw [hstep]
    exact .stay _

/-- A resolved request stays as it is. -/
theorem settled_run {s₀ : Store} {t₀ t : DateTime} {es : List StoreEvent} (h : StoreRun window s₀ t₀ es s t)
    (hops : ∀ e ∈ es, e.op.attempts = true) {st : RequestState} (hst : st ≠ .pending) (hs₀ : s₀.stateOf id = some st) :
    s.stateOf id = some st := by
  induction h with
  | nil => exact hs₀
  | @call es s t op now hrun hle ih =>
      have hprev := ih fun e he => hops e (List.mem_append_left _ he)
      have hop : op.attempts = true := hops (callEvent (StoreOp.step window) op now s) (by simp)
      exact (profile_call window now hop id).terminal hprev hst

theorem consistent_run {t₀ t : DateTime} {es : List StoreEvent} (h : StoreRun window .empty t₀ es s t)
    (hops : ∀ e ∈ es, e.op.attempts = true) : (s.profile id).Consistent := by
  induction h with
  | nil => exact rfl
  | @call es s t op now hrun hle ih =>
      have hprev := ih fun e he => hops e (List.mem_append_left _ he)
      have hop : op.attempts = true := hops (callEvent (StoreOp.step window) op now s) (by simp)
      exact hprev.next (profile_call window now hop id)

/-- An operator's resolution succeeds only on a pending request before its deadline. -/
theorem resolves_in_time (hop : op.resolves = some id) (h : ¬ Unsuccessful (op.step window now s).2) :
    ∃ req ∈ s.requests.rows, req.id = id ∧ req.state = .pending ∧ now < req.expiresAt := by
  rcases op.step_cases window now s with ⟨r, s', hexec, hstep⟩ | ⟨r, hexec, hstep⟩
  · cases op with
    | approveRequest requestId resolvedBy grantId grant store versionId =>
        cases hop
        obtain ⟨req, hreq, _, _, _, happ, -⟩ := approveRequest_ok hexec
        simp only [approvable, AccessRequestRow.resolvable, Bool.and_eq_true, beq_iff_eq, decide_eq_true_eq] at happ
        exact ⟨req, hreq, happ.1.1, happ.1.2.1, happ.1.2.2⟩
    | resolveApprove requestId resolvedBy grant grantId =>
        cases hop
        obtain ⟨req, hreq, hid, hres, -⟩ := resolveApprove_ok hexec
        simp only [AccessRequestRow.resolvable, Bool.and_eq_true, beq_iff_eq, decide_eq_true_eq] at hres
        exact ⟨req, hreq, hid, hres.1, hres.2⟩
    | resolveDeny requestId resolvedBy reason =>
        cases hop
        obtain ⟨req, hreq, hid, hres, -⟩ := resolveDeny_ok hexec
        simp only [AccessRequestRow.resolvable, Bool.and_eq_true, beq_iff_eq, decide_eq_true_eq] at hres
        exact ⟨req, hreq, hid, hres.1, hres.2⟩
    | _ => cases hop
  · refine absurd ?_ h
    rw [hstep]
    cases op with
    | approveRequest requestId resolvedBy grantId grant store versionId => exact aborts_approveRequest.exec hexec
    | resolveApprove requestId resolvedBy grant grantId => exact aborts_resolveApprove.exec hexec
    | resolveDeny requestId resolvedBy reason => exact aborts_resolveDeny.exec hexec
    | _ => cases hop

/-- The sweep leaves alone every request that is not past its deadline. -/
theorem expireStale_only {req : AccessRequestRow} (hreq : req ∈ s.requests.rows)
    (h : (StoreOp.expireStale.step window now s).1.findRequest req.id ≠ some req) :
    req.state = .pending ∧ req.expiresAt < now := by
  rcases StoreOp.expireStale.step_cases window now s with ⟨r, s', hexec, hstep⟩ | ⟨r, hexec, hstep⟩
  · rw [hstep] at h
    obtain ⟨-, rfl⟩ := expireStale_ok hexec
    by_contra hne
    have hexp : expirable now req = false := by
      rw [← Bool.not_eq_true, expirable, Bool.and_eq_true, beq_iff_eq, decide_eq_true_eq]
      exact hne
    apply h
    refine findRequest_eq_some.2 ⟨?_, rfl⟩
    rw [Table.mem_update]
    exact ⟨req, hreq, by rw [hexp]; rfl⟩
  · rw [hstep] at h
    exact absurd (findRequest_eq_some.2 ⟨hreq, rfl⟩) h

/-- The life of every request, over every run from an empty database. -/
theorem request_lifecycle {t₀ t : DateTime} {es : List StoreEvent} (hrun : StoreRun window .empty t₀ es s t)
    (hops : ∀ e ∈ es, e.op.attempts = true) : Lived es s := by
  have hprofile : ∀ req ∈ s.requests.rows, s.profile req.id =
      ⟨some req.state, if req.state = .approved then 1 else 0, 1, if Profile.terminal req.state then 1 else 0⟩ := by
    intro req hreq
    have hstate : (s.profile req.id).state = some req.state := by
      rw [Store.profile, findRequest_eq_some.2 ⟨hreq, rfl⟩]
      rfl
    have hcons := @consistent_run _ _ req.id _ _ _ hrun hops
    rw [Profile.Consistent, hstate] at hcons
    exact hcons
  refine ⟨?_, ?_, ?_, ?_, ?_, ?_, ?_, ?_⟩
  · intro e he id
    obtain ⟨_, _, -, -, -, hcall⟩ := hrun.forall_event he
    have hnext := @profile_call e.op e.before window e.now (hops e he) id
    have hafter : (e.op.step window e.now e.before).1 = e.after := by rw [hcall]; rfl
    rw [hafter] at hnext
    cases hstate : e.before.stateOf id with
    | none => exact Or.inr (Or.inl rfl)
    | some st =>
        by_cases hst : st = .pending
        · subst hst
          rcases hnext.pending hstate with hsame | ⟨st', hst', hmove⟩
          · exact Or.inl hsame
          · exact Or.inr (Or.inr ⟨rfl, st', hst', hmove⟩)
        · exact Or.inl (hnext.terminal hstate hst)
  · refine hrun.pairwise.imp_of_mem ?_
    intro e e' he he' ⟨es', t', hsub, hrun', hle, hcall⟩ id st hst hstate
    have hbefore := settled_run hrun' (fun e₁ he₁ => hops e₁ (hsub he₁)) hst hstate
    rw [hcall]
    exact (profile_call window e'.now (hops e' he') id).terminal hbefore hst
  · intro req hreq
    exact congrArg Profile.grants (hprofile req hreq)
  · intro req hreq
    exact congrArg Profile.created (hprofile req hreq)
  · intro req hreq
    have hres := congrArg Profile.resolved (hprofile req hreq)
    rw [show s.audit.countP (isResolutionRow req.id) = (s.profile req.id).resolved from rfl, hres]
    cases req.state <;> rfl
  · intro e he id hop hsucc
    obtain ⟨_, _, -, -, -, hcall⟩ := hrun.forall_event he
    rw [hcall] at hsucc
    exact resolves_in_time hop hsucc
  · intro e he hop req hreq hne
    obtain ⟨_, _, -, -, -, hcall⟩ := hrun.forall_event he
    rw [hcall, hop] at hne
    exact expireStale_only hreq hne
  · intro e he hun
    obtain ⟨_, _, -, -, -, hcall⟩ := hrun.forall_event he
    rw [hcall] at hun ⊢
    rcases e.op.step_cases window e.now e.before with ⟨r, s', hexec, hstep⟩ | ⟨r, hexec, hstep⟩
    · rw [callEvent, hstep, Unsuccessful] at hun
      simp only [Except.toOption, Option.any_some, succeeded_of_commit hexec] at hun
      cases hun
    · rw [callEvent, hstep]

end

/-- A request for a quarter of an hour. -/
def askedRequest : NewAccessRequest where
  clientName := "agent"
  secretName := "deploy-key"
  mechanism := "release"
  constraints := ⟨[], [], [], 900, some 1⟩
  expiresAt := .ofSeconds 1900
  policyNotAfter := none
  idemClient := "agent"
  idemKey := "k"
  idemMac := []

/-- Asked, denied in time, then asked again under the same key, denied again and swept. -/
def deniedOnce : List (StoreOp × DateTime) :=
  [(.insertAccessRequestWithId 5 askedRequest (some 20) .pending none 0, .ofSeconds 1000),
    (.resolveDeny 5 "operator" "no", .ofSeconds 1100),
    (.insertAccessRequestWithId 6 askedRequest (some 20) .pending none 0, .ofSeconds 1200),
    (.resolveDeny 5 "operator" "no", .ofSeconds 1300),
    (.expireStale, .ofSeconds 2000)]

theorem request_lifecycle_denied :
    (playEnd (StoreOp.step 60) .empty deniedOnce).stateOf 5 = some .denied ∧
      Lived (play (StoreOp.step 60) .empty deniedOnce) (playEnd (StoreOp.step 60) .empty deniedOnce) := by
  have hrun := run_play (StoreOp.step 60) .empty (.ofSeconds 1000) deniedOnce (by decide)
  refine ⟨by decide +kernel, request_lifecycle hrun ?_⟩
  simp [deniedOnce, play, callEvent, StoreOp.attempts]

end Keychute.Db
