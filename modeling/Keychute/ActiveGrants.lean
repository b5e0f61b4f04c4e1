import Mathlib.Data.List.Sort
import Keychute.Accounting

/-!
# The grants page (`server/src/db/ui_ext.rs`)

* `Store.active`, `listActiveGrants` : the grants the page lists, for a revocation to act on;
* `active_iff` : a grant is listed exactly when a use of it, under some key or none, would release or would run into the
  end of its counter;
* `Store.silent` : no use releases, and none will (`silent_run`);
* `active_grants_listed` : what the list shows, and what revoking all of it leaves.
-/

namespace Keychute.Db
open Keychute.Lib

/-! ## The predicate -/

/-- `ACTIVE_GRANTS_PREDICATE`. -/
def Store.active (s : Store) (window : Int) (now : DateTime) (g : GrantRow) : Bool :=
  !g.revoked && decide (now < g.notAfter) && (g.usesLeft || s.replayOpen g.id window now)

/-- The grants listed, the newest first. -/
def listActiveGrants (s : Store) (window : Int) (now : DateTime) : List GrantRow :=
  (s.grants.rows.filter (s.active window now)).mergeSort fun a b => decide (b.createdAt ≤ a.createdAt)

/-- How many there are. -/
def countActiveGrants (s : Store) (window : Int) (now : DateTime) : Nat :=
  (s.grants.rows.filter (s.active window now)).length

/-- What a use of the grant under this key would answer. -/
def Store.useAnswer (s : Store) (grantId : Uuid) (idemKey : Option String) (versionId : Option Uuid) (kind : AuditKind)
    (window : Int) (target : Option AuditTarget) (now : DateTime) : Except DbError Reply :=
  ((beginGrantUse grantId idemKey versionId kind window target now).run s).2

section
variable {s s' : Store} {g : GrantRow} {window : Int} {now : DateTime} {versionId : Option Uuid} {kind : AuditKind}
  {target : Option AuditTarget} {idemKey : Option String}

theorem mem_listActiveGrants : g ∈ listActiveGrants s window now ↔ g ∈ s.grants.rows ∧ s.active window now g = true := by
  rw [listActiveGrants, List.mem_mergeSort, List.mem_filter]

theorem countActiveGrants_eq : countActiveGrants s window now = (listActiveGrants s window now).length := by
  rw [listActiveGrants, List.length_mergeSort, countActiveGrants]

theorem active_eq : s.active window now g = (g.live now && (g.usesLeft || s.replayOpen g.id window now)) := rfl

theorem replayOpen_iff {id : Uuid} : s.replayOpen id window now = true ↔
    ∃ key prior, s.findRead id key = some prior ∧ prior.firstReadAt.within now window = true := by
  unfold Store.replayOpen
  rw [List.any_eq_true]
  constructor
  · rintro ⟨r, hr, h⟩
    rw [Bool.and_eq_true, beq_iff_eq] at h
    exact ⟨r.idemKey, r, findRead_eq_some.2 ⟨hr, h.1, rfl⟩, h.2⟩
  · rintro ⟨key, r, hr, h⟩
    obtain ⟨hmem, hid, -⟩ := findRead_eq_some.1 hr
    exact ⟨r, hmem, by rw [hid, beq_self_eq_true, h]; rfl⟩

/-! ## What a use answers -/

/-- The answer, by what the use finds. -/
theorem useAnswer_eq (hg : g ∈ s.grants.rows) : s.useAnswer g.id idemKey versionId kind window target now =
    if !g.live now then .ok (.grantUse .expiredOrRevoked)
    else
      match idemKey.bind (s.findRead g.id) with
      | some prior =>
        if prior.firstReadAt.within now window then .ok (.grantUse (.replay g prior.secretVersionId prior.passthrough))
        else .ok (.grantUse .exhausted)
      | none =>
        if !g.usesLeft then .ok (.grantUse .exhausted)
        else if g.useCount = i32Max then .error .integerOutOfRange
        else .ok (.grantUse (.firstUse g.bump)) := by
  have hfind : s.findGrant g.id = some g := findGrant_eq_some.2 ⟨hg, rfl⟩
  rw [Store.useAnswer, Txn.run, exec_beginGrantUse]
  simp only [hfind]
  cases g.live now with
  | false => rfl
  | true =>
      cases idemKey.bind (s.findRead g.id) with
      | some prior => cases h : prior.firstReadAt.within now window <;> simp [h]
      | none =>
          cases hleft : g.usesLeft with
          | false => simp
          | true => by_cases hmax : g.useCount = i32Max <;> simp [hmax]

/-- A use of a listed grant releases under some key, or runs into the end of its counter; and no other grant answers
either. -/
theorem active_iff (hg : g ∈ s.grants.rows) (versionId : Option Uuid) (kind : AuditKind) (target : Option AuditTarget) :
    s.active window now g = true ↔
      (∃ idemKey, (s.useAnswer g.id idemKey versionId kind window target now).toOption.any Reply.released = true) ∨
        s.useAnswer g.id none versionId kind window target now = .error .integerOutOfRange := by
  rw [active_eq]
  simp only [useAnswer_eq hg]
  cases g.live now with
  | false => simp [Except.toOption, Reply.released]
  | true =>
      rw [Bool.true_and, Bool.or_eq_true, replayOpen_iff]
      constructor
      · rintro (hleft | ⟨key, prior, hprior, hw⟩)
        · -- with no key: one more use, unless the counter is at its end
          by_cases hmax : g.useCount = i32Max
          · exact Or.inr (by simp [hleft, hmax])
          · exact Or.inl ⟨none, by simp [hleft, hmax, Except.toOption, Reply.released]⟩
        · exact Or.inl ⟨some key, by simp [hprior, hw, Except.toOption, Reply.released]⟩
      · rintro (⟨idemKey, h⟩ | h)
        · cases hkey : idemKey.bind (s.findRead g.id) with
          | some prior =>
              obtain ⟨key, rfl, hprior⟩ := Option.bind_eq_some_iff.1 hkey
              rw [hkey] at h
              refine Or.inr ⟨key, prior, hprior, ?_⟩
              by_contra hw
              simp [hw, Except.toOption, Reply.released] at h
          | none =>
              rw [hkey] at h
              refine Or.inl ?_
              by_contra hleft
              rw [Bool.not_eq_true] at hleft
              simp [hleft, Except.toOption, Reply.released] at h
        · refine Or.inl ?_
          by_contra hleft
          rw [Bool.not_eq_true] at hleft
          simp [hleft] at h

/-! ## After the list was revoked -/

/-- No use of the grant releases: it is dead, or used up with no replay open. -/
def Store.silent (s : Store) (window : Int) (now : DateTime) (id : Uuid) : Bool :=
  (s.findGrant id).any fun g => !s.active window now g

theorem silent_iff {id : Uuid} : s.silent window now id = true ↔
    ∃ g, s.findGrant id = some g ∧ (g.live now = false ∨ g.usesLeft = false ∧ s.replayOpen id window now = false) := by
  unfold Store.silent
  rw [Option.any_eq_true]
  refine exists_congr fun g => and_congr_right fun hg => ?_
  obtain rfl := (findGrant_eq_some.1 hg).2
  rw [active_eq, Bool.not_eq_true', Bool.and_eq_false_iff, Bool.or_eq_false_iff]

/-- A silent grant answers one of the three refusals. -/
theorem useAnswer_of_silent {id : Uuid} (h : s.silent window now id = true) (idemKey : Option String)
    (versionId : Option Uuid) (kind : AuditKind) (target : Option AuditTarget) :
    s.useAnswer id idemKey versionId kind window target now = .ok (.grantUse .expiredOrRevoked) ∨
      s.useAnswer id idemKey versionId kind window target now = .ok (.grantUse .exhausted) := by
  obtain ⟨g, hg, hcase⟩ := silent_iff.1 h
  obtain ⟨hmem, rfl⟩ := findGrant_eq_some.1 hg
  rw [useAnswer_eq hmem]
  rcases hcase with hdead | ⟨hleft, hopen⟩
  · exact Or.inl (by rw [hdead]; rfl)
  · cases g.live now with
    | false => exact Or.inl rfl
    | true =>
        refine Or.inr ?_
        cases hkey : idemKey.bind (s.findRead g.id) with
        | none => simp [hleft]
        | some prior =>
            obtain ⟨key, rfl, hprior⟩ := Option.bind_eq_some_iff.1 hkey
            have hclosed : prior.firstReadAt.within now window = false := by
              by_contra hw
              rw [Bool.not_eq_false] at hw
              rw [replayOpen_iff.2 ⟨key, prior, hprior, hw⟩] at hopen
              cases hopen
            simp [hclosed]

theorem within_mono {t now' : DateTime} (h : now ≤ now') (hw : t.within now' window = true) :
    t.within now window = true := by
  unfold DateTime.within at hw ⊢
  rw [decide_eq_true_eq] at hw ⊢
  have hle := DateTime.le_def.1 h
  omega

/-- A replay window that has closed stays closed, as long as the grant is not used again. -/
theorem replayOpen_mono {id : Uuid} {now' : DateTime} (h : now ≤ now') (hopen : s.replayOpen id window now = false) :
    s.replayOpen id window now' = false := by
  by_contra hne
  rw [Bool.not_eq_false, replayOpen_iff] at hne
  obtain ⟨key, prior, hprior, hw⟩ := hne
  rw [replayOpen_iff.2 ⟨key, prior, hprior, within_mono h hw⟩] at hopen
  cases hopen

/-- The reads after a commit that is no first use of the grant are, for the replay window, those before it. -/
theorem replayOpen_step {op : StoreOp} {r : Reply} {id : Uuid} (h : (op.txn window now).exec s = .ok (r, s'))
    (hnot : op.usesGrant id = true → r.firstUse = false) : s'.replayOpen id window now = s.replayOpen id window now := by
  unfold Store.replayOpen
  cases hreads : (commit_step h).reads with
  | same heq => rw [heq]
  | unpinned heq =>
      rw [heq, Table.update_rows, List.any_map]
      refine congrArg (List.any s.reads.rows) (funext fun row => ?_)
      rw [Function.comp_apply]
      split <;> rfl
  | recorded g key versionId hg hop hnone heq =>
      obtain ⟨kind, target, rfl⟩ := hop
      have hid : (g.id == id) = false := by
        by_contra hne
        rw [Bool.not_eq_false] at hne
        have hfirst := hnot hne
        obtain ⟨g', -, -, ⟨prior, hprior, -⟩ | ⟨-, -, rfl, -⟩⟩ := beginGrantUse_ok h
        · rw [Option.bind_some, hnone] at hprior
          cases hprior
        · cases hfirst
      rcases Table.insert_rows_or s.reads ⟨g.id, key, versionId, g.passthroughCiphertext.isSome, now⟩ with hins | hins
      · rw [heq, hins, List.any_append]
        simp [hid]
      · rw [heq, hins]

/-- A call on a silent grant, or on any other, leaves it silent. -/
theorem silent_call {op : StoreOp} {id : Uuid} (h : s.silent window now id = true) :
    (op.step window now s).1.silent window now id = true := by
  rcases op.step_cases window now s with ⟨r, s', hexec, hstep⟩ | ⟨r, hexec, hstep⟩
  · rw [hstep]
    obtain ⟨g, hg, hcase⟩ := silent_iff.1 h
    obtain ⟨hmem, rfl⟩ := findGrant_eq_some.1 hg
    obtain ⟨g', hg', hev, hcount⟩ := grant_step hexec hmem
    refine silent_iff.2 ⟨g', findGrant_eq_some.2 ⟨hg', hev.id⟩, ?_⟩
    rcases hcase with hdead | ⟨hleft, hopen⟩
    · exact Or.inl (hev.dead (le_refl now) hdead)
    · -- used up: the call was no first use, and opened no window
      have hnot : op.usesGrant g.id = true → r.firstUse = false := by
        intro hop
        by_contra hfirst
        rw [Bool.not_eq_false] at hfirst
        have hr : (op.step window now s).2.toOption.any Reply.firstUse = true := by
          rw [hstep]
          exact hfirst
        rw [(usesLeft_of_firstUse hmem hop hr).2] at hleft
        cases hleft
      refine Or.inr ⟨?_, ?_⟩
      · have hsame : g'.useCount = g.useCount := by
          have hzero : (op.usesGrant g.id && r.firstUse) = false := by
            rw [Bool.and_eq_false_iff]
            cases hop : op.usesGrant g.id with
            | false => exact Or.inl rfl
            | true => exact Or.inr (hnot hop)
          rw [hcount, hzero]
          simp
        rw [GrantRow.usesLeft, hev.maxUses, hsame]
        exact hleft
      · rw [replayOpen_step hexec hnot]
        exact hopen
  · rw [hstep]
    exact h

theorem silent_later {id : Uuid} {now' : DateTime} (hle : now ≤ now') (h : s.silent window now id = true) :
    s.silent window now' id = true := by
  obtain ⟨g, hg, hcase⟩ := silent_iff.1 h
  refine silent_iff.2 ⟨g, hg, ?_⟩
  rcases hcase with hdead | ⟨hleft, hopen⟩
  · exact Or.inl ((GrantRow.Evolves.refl g).dead hle hdead)
  · exact Or.inr ⟨hleft, replayOpen_mono hle hopen⟩

/-- Silent grants stay silent, whatever is called. -/
theorem silent_run {s₀ : Store} {t₀ t : DateTime} {es : List StoreEvent} (hrun : StoreRun window s₀ t₀ es s t) {id : Uuid}
    (h : s₀.silent window t₀ id = true) : s.silent window t id = true := by
  induction hrun with
  | nil => exact h
  | call op now hrun hle ih => exact silent_call (silent_later hle ih)

/-- Revoking a grant that is not yet revoked commits. -/
theorem revoked_of_error {actor : String} {r : Except DbError Reply} (hg : g ∈ s.grants.rows)
    (h : (revokeGrant g.id actor now).exec s = .error r) : g.revoked = true := by
  by_contra hnot
  rw [Bool.not_eq_true] at hnot
  have hhit : g ∈ s.grants.rows.filter fun x => x.id == g.id && !x.revoked := by
    rw [List.mem_filter]
    exact ⟨hg, by rw [hnot, beq_self_eq_true]; rfl⟩
  obtain ⟨first, rest, hrows⟩ := List.exists_cons_of_ne_nil (List.ne_nil_of_mem hhit)
  unfold revokeGrant at h
  rw [Txn.exec_bind, Rel.exec_updateWhere] at h
  simp only [hrows, List.map_cons, List.head?_cons] at h
  cases h

/-- A call to revoke leaves a grant that is there silent, whether it was revoked before or not. -/
theorem silent_of_revokeGrant (hg : g ∈ s.grants.rows) (actor : String) :
    ((StoreOp.revokeGrant g.id actor).step window now s).1.silent window now g.id = true := by
  rcases StoreOp.step_cases window (.revokeGrant g.id actor) now s with ⟨r, s', hexec, hstep⟩ | ⟨r, hexec, hstep⟩
  · rw [hstep]
    obtain ⟨_, -, -, rfl⟩ := revokeGrant_ok hexec
    have hmem := Table.mem_update_of_mem (p := fun x => x.id == g.id && !x.revoked) GrantRow.key_revoke hg
    refine silent_iff.2 ⟨_, findGrant_eq_some.2 ⟨hmem, ?_⟩, Or.inl ?_⟩
    · split <;> rfl
    · split
      · rfl
      · rename_i hnot
        rw [beq_self_eq_true, Bool.true_and, Bool.not_eq_true, Bool.not_eq_false'] at hnot
        rw [GrantRow.live, hnot]
        rfl
  · rw [hstep]
    refine silent_iff.2 ⟨g, findGrant_eq_some.2 ⟨hg, rfl⟩, Or.inl ?_⟩
    rw [GrantRow.live, revoked_of_error hg hexec]
    rfl

/-- The grants that a run of calls finds, after every one of those listed at its start was revoked in it. -/
theorem silent_of_list_revoked {s₀ : Store} {t₀ t : DateTime} {es : List StoreEvent} (hrun : StoreRun window s₀ t₀ es s t)
    (hall : ∀ g ∈ listActiveGrants s₀ window t₀, ∃ e ∈ es, ∃ actor, e.op = .revokeGrant g.id actor) {g₀ : GrantRow}
    (hg₀ : g₀ ∈ s₀.grants.rows) : s.silent window t g₀.id = true := by
  cases hact : s₀.active window t₀ g₀ with
  | false =>
      refine silent_run hrun ?_
      rw [Store.silent, findGrant_eq_some.2 ⟨hg₀, rfl⟩, Option.any_some, hact]
      rfl
  | true =>
      obtain ⟨e, he, actor, hop⟩ := hall g₀ (mem_listActiveGrants.2 ⟨hg₀, hact⟩)
      obtain ⟨es₁, es₂, rfl⟩ := List.append_of_mem he
      obtain ⟨t₁, hbefore, -, hcall, hafter⟩ := hrun.split
      obtain ⟨g, hg, hev, -⟩ := grant_run hbefore hg₀
      refine silent_run hafter ?_
      rw [hcall, hop, ← hev.id]
      exact silent_of_revokeGrant hg actor

/-- The grants page, in every state: it lists a grant exactly when a use of it would release, under some key or none, or
would fail because its counter cannot count one more. And once every grant listed at some instant has been revoked,
whatever else is called meanwhile, a use of any grant that was there then is refused. -/
theorem active_grants_listed (s : Store) (window : Int) (now : DateTime) :
    (∀ g ∈ s.grants.rows, ∀ versionId kind target,
      g ∈ listActiveGrants s window now ↔
        (∃ idemKey, (s.useAnswer g.id idemKey versionId kind window target now).toOption.any Reply.released = true) ∨
          s.useAnswer g.id none versionId kind window target now = .error .integerOutOfRange) ∧
      ∀ es s' t, StoreRun window s now es s' t →
        (∀ g ∈ listActiveGrants s window now, ∃ e ∈ es, ∃ actor, e.op = .revokeGrant g.id actor) →
        ∀ g ∈ s.grants.rows, ∀ later, t ≤ later → ∀ idemKey versionId kind target,
          s'.useAnswer g.id idemKey versionId kind window target later = .ok (.grantUse .expiredOrRevoked) ∨
            s'.useAnswer g.id idemKey versionId kind window target later = .ok (.grantUse .exhausted) := by
  refine ⟨?_, ?_⟩
  · intro g hg versionId kind target
    rw [mem_listActiveGrants, active_iff hg versionId kind target]
    exact and_iff_right hg
  · intro es s' t hrun hall g hg later hle idemKey versionId kind target
    exact useAnswer_of_silent (silent_later hle (silent_of_list_revoked hrun hall hg)) idemKey versionId kind target

/-! ## The end of the counter -/

/-- One more use of a grant with no limit. -/
theorem use_unlimited (hg : g ∈ s.grants.rows) (hlive : g.live now = true) (hmax : g.maxUses = none)
    (hcount : g.useCount ≠ i32Max) (kind : AuditKind) :
    ∃ s', (StoreOp.beginGrantUse g.id none none kind none).step window now s =
        (s', .ok (.grantUse (.firstUse g.bump))) ∧ g.bump ∈ s'.grants.rows ∧ s'.reads = s.reads := by
  have hleft : g.usesLeft = true := by
    rw [GrantRow.usesLeft, hmax]
    rfl
  refine ⟨s.afterUse g none none (attemptRow now kind g none none none) now, ?_, ?_, rfl⟩
  · rw [StoreOp.step, StoreOp.txn, Txn.run, exec_beginGrantUse]
    simp [findGrant_eq_some.2 ⟨hg, rfl⟩, hlive, hleft, hcount]
  · have hmem := Table.mem_update_of_mem (p := fun x => x.id == g.id) (f := GrantRow.bump) (fun _ => rfl) hg
    rw [if_pos (beq_self_eq_true g.id)] at hmem
    exact hmem

/-- As many uses as the counter can count. -/
theorem uses_unlimited (hg : g ∈ s.grants.rows) (hlive : g.live now = true) (hmax : g.maxUses = none) (n : Nat)
    (hn : g.useCount + n ≤ i32Max) :
    ∃ es s' g', StoreRun window s now es s' now ∧ g' ∈ s'.grants.rows ∧ g'.live now = true ∧ g'.maxUses = none ∧
      g'.useCount = g.useCount + n ∧ s'.reads = s.reads := by
  induction n with
  | zero => exact ⟨[], s, g, Run.nil, hg, hlive, hmax, by simp, rfl⟩
  | succ n ih =>
      obtain ⟨es, s₁, g₁, hrun, hg₁, hlive₁, hmax₁, hcount₁, hreads₁⟩ := ih (by push_cast at hn; omega)
      have hne : g₁.useCount ≠ i32Max := by
        push_cast at hn
        omega
      obtain ⟨s', hstep, hg', hreads⟩ := @use_unlimited s₁ g₁ window now hg₁ hlive₁ hmax₁ hne .proxyAttempt
      have hcall := Run.call (.beginGrantUse g₁.id none none .proxyAttempt none) now hrun (le_refl now)
      rw [hstep] at hcall
      refine ⟨_, s', g₁.bump, hcall, hg', hlive₁, hmax₁, ?_, hreads.trans hreads₁⟩
      rw [GrantRow.bump]
      push_cast
      omega

/-- The key of an upload, and a standing rule's grant of it without a limit. -/
def uploadKey : StoreSecretParams where
  secretId := 8
  name := "upload-key"
  description := ""
  maxTier := 1
  injectionKind := "bearer"
  injectionHeader := none
  injectionUsername := none
  sealWith := fun kek => some ⟨[1], [2], [3], kek⟩

def uploads : GrantParams where
  clientName := "agent"
  secretName := "upload-key"
  secretId := some 8
  mechanism := "brokered"
  constraints := ⟨[⟨"api.example.com", none⟩], ["PUT"], [], 900, none⟩
  notAfter := .ofSeconds 1900
  maxUses := none
  passthrough := none

def uploadRequest : NewAccessRequest where
  clientName := "agent"
  secretName := "upload-key"
  mechanism := "brokered"
  constraints := ⟨[⟨"api.example.com", none⟩], ["PUT"], [], 900, none⟩
  expiresAt := .ofSeconds 4600
  policyNotAfter := none
  idemClient := "agent"
  idemKey := "k"
  idemMac := [1]

def uploadsGranted : List (StoreOp × DateTime) :=
  [(.createSecretWithVersion uploadKey 4 "operator", .ofSeconds 1000),
    (.insertAccessRequestWithId 5 uploadRequest none (.approved "policy:auto" uploads false) none 7, .ofSeconds 1000)]

/-- A grant without a limit, used 2147483647 times: it is listed, and no use of it releases any more. -/
theorem listed_at_counter_end :
    ∃ es s, StoreRun 60 .empty (.ofSeconds 1000) es s (.ofSeconds 1000) ∧
      ∃ g ∈ listActiveGrants s 60 (.ofSeconds 1000), ∀ idemKey versionId kind target,
        (s.useAnswer g.id idemKey versionId kind 60 target (.ofSeconds 1000)).toOption.any Reply.released = false := by
  have hrun := run_play (StoreOp.step 60) .empty (.ofSeconds 1000) uploadsGranted (by decide)
  have hrows : (playEnd (StoreOp.step 60) .empty uploadsGranted).grants.rows = [uploads.row 7 5 (.ofSeconds 1000)] := rfl
  have hreads : (playEnd (StoreOp.step 60) .empty uploadsGranted).reads.rows = [] := rfl
  have hg : uploads.row 7 5 (.ofSeconds 1000) ∈ (playEnd (StoreOp.step 60) .empty uploadsGranted).grants.rows := by
    rw [hrows]
    exact List.mem_singleton_self _
  obtain ⟨es, s, g, hrun', hg', hlive, hmax, hcount, hreads'⟩ :=
    @uses_unlimited _ _ 60 (.ofSeconds 1000) hg (by decide) rfl 2147483647 (by decide)
  have hleft : g.usesLeft = true := by
    rw [GrantRow.usesLeft, hmax]
    rfl
  refine ⟨_, s, hrun.trans hrun', g, mem_listActiveGrants.2 ⟨hg', ?_⟩, ?_⟩
  · rw [active_eq, hlive, hleft]
    rfl
  · intro idemKey versionId kind target
    have hnone : idemKey.bind (s.findRead g.id) = none := by
      cases idemKey with
      | none => rfl
      | some key =>
          rw [Option.bind_some, Store.findRead, hreads', hreads]
          rfl
    have hend : g.useCount = i32Max := hcount
    rw [useAnswer_eq hg', hnone]
    simp [hlive, hleft, hend, Except.toOption]

/-- The grant of two uses is listed, and refused once it was revoked. -/
theorem active_grants_listed_two :
    twoUses ∈ listActiveGrants twoUsesStart 60 (.ofSeconds 1000) ∧
      ((playEnd (StoreOp.step 60) twoUsesStart [(.revokeGrant 7 "operator", .ofSeconds 1100)]).useAnswer 7 (some "k") none
          .releaseAttempt 60 none (.ofSeconds 1200) = .ok (.grantUse .expiredOrRevoked) ∨
        (playEnd (StoreOp.step 60) twoUsesStart [(.revokeGrant 7 "operator", .ofSeconds 1100)]).useAnswer 7 (some "k") none
          .releaseAttempt 60 none (.ofSeconds 1200) = .ok (.grantUse .exhausted)) := by
  have hmem : twoUses ∈ twoUsesStart.grants.rows := Table.mem_insert_self fun a ha => by cases ha
  have hspec := active_grants_listed twoUsesStart 60 (.ofSeconds 1000)
  refine ⟨(hspec.1 twoUses hmem none .releaseAttempt none).2 (Or.inl ⟨none, ?_⟩), ?_⟩
  · rw [useAnswer_eq hmem]
    rfl
  · have hrun := run_play (StoreOp.step 60) twoUsesStart (.ofSeconds 1000) [(.revokeGrant 7 "operator", .ofSeconds 1100)]
      (by decide)
    refine hspec.2 _ _ _ hrun ?_ twoUses hmem (.ofSeconds 1200) (by decide) (some "k") none .releaseAttempt none
    intro g hg
    obtain ⟨hrow, -⟩ := mem_listActiveGrants.1 hg
    rcases Table.mem_of_mem_insert hrow with hrow | rfl
    · cases hrow
    · exact ⟨_, List.mem_singleton_self _, "operator", rfl⟩

end
end Keychute.Db
