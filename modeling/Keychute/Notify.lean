import Keychute.Db.Store

/-!
# Pushes (`server/src/notify/mod.rs`, the push of `api/requests.rs`)

The request row is the outbox. A push is owed until `push_delivered_at` is set; a request identical to one that was just
pushed is marked delivered without a push of its own.

* `Outbox`, `Outbox.act` : the rows, the tasks that wait for `push_lock`, the one that holds it, and what each of its
  statements does, with creations, resolutions and the passing of time between any two of them;
* `Outbox.Logged` : what is known of the pushes that got through, in every run;
* `Outbox.Clean` : a push is recorded within `lag` of getting through; a request is covered only if it never had a push
  of its own fail, and only by a push recorded less than the window without `lag` ago;
* `covered_of_clean` : in every run that keeps to this, whatever is covered is covered by a push that was sent;
* `covered_by_none` : a run of the code that does not.
-/

namespace Keychute.Notify
open Keychute.Lib Keychute.Db

/-- `PUSH_DEDUP_WINDOW_SECONDS`. -/
def pushDedupWindowSeconds : Int := 60

/-- `FYI_RETRY_WINDOW_HOURS`. -/
def fyiRetryWindowHours : Int := 24

/-- A row of `access_requests` with its push columns. -/
structure PushRow extends AccessRequestRow where
  pushAttempts : Int
  pushDeliveredAt : Option DateTime

abbrev pushKeys : Keys PushRow := .pair (·.id) (fun r => (r.idemClient, r.idemKey))

namespace PushRow

/-- The dedup key: client, secret, mechanism and constraints. -/
def sameKey (row r : PushRow) : Bool :=
  r.clientName == row.clientName && r.secretName == row.secretName && r.mechanism == row.mechanism &&
    r.constraints == row.constraints

def claimed (r : PushRow) : PushRow := { r with pushAttempts := r.pushAttempts + 1 }

def delivered (now : DateTime) (r : PushRow) : PushRow := { r with pushDeliveredAt := some now }

def resolved (state : RequestState) (r : PushRow) : PushRow := { r with state := state }

theorem key_claimed (r : PushRow) : pushKeys.key r.claimed = pushKeys.key r := rfl

theorem key_delivered (now : DateTime) (r : PushRow) : pushKeys.key (r.delivered now) = pushKeys.key r := rfl

theorem key_resolved (state : RequestState) (r : PushRow) : pushKeys.key (r.resolved state) = pushKeys.key r := rfl

end PushRow

/-- Another pending request with the same key had a push recorded after `since`, in nanoseconds. -/
def recentDuplicatePush (t : Table pushKeys) (row : PushRow) (since : Int) : Bool :=
  t.rows.any fun r => r.id != row.id && row.sameKey r && r.state == .pending &&
    r.pushDeliveredAt.any (since < ·.nanos) && decide (0 < r.pushAttempts)

/-- `now - Duration::seconds(PUSH_DEDUP_WINDOW_SECONDS)`. -/
def dedupSince (now : DateTime) : Int := now.nanos - pushDedupWindowSeconds * 10 ^ 9

/-- The rows `claim_for_push` bumps. -/
def claimable (id : Uuid) (now : DateTime) (r : PushRow) : Bool :=
  r.id == id && r.state == .pending && r.pushDeliveredAt.isNone && decide (now < r.expiresAt)

/-- The rows `claim_for_fyi_push` bumps. -/
def fyiClaimable (id : Uuid) (r : PushRow) : Bool := r.id == id && r.notifyOnly && r.pushDeliveredAt.isNone

/-- `list_pending_needing_push`, with `i32::MAX` for the attempts. -/
def needsPush (now : DateTime) (r : PushRow) : Bool :=
  r.state == .pending && r.pushDeliveredAt.isNone && decide (r.pushAttempts < i32Max) && decide (now < r.expiresAt)

/-- `list_notify_only_needing_push`. -/
def needsFyi (now : DateTime) (r : PushRow) : Bool :=
  r.notifyOnly && r.state == .approved && r.pushDeliveredAt.isNone && r.createdAt.within now (fyiRetryWindowHours * 3600)

/-! ## The outbox -/

/-- A push that waits for `push_lock`, with the row as it was when the push was decided on. -/
inductive Push where
  | approval (row : PushRow)
  | fyi (row : PushRow)

/-- What the holder of `push_lock` does next; the last is the `UPDATE` after a push that got through at `sentAt`. -/
inductive Flight where
  | check (row : PushRow)
  | cover (row : PushRow)
  | claim (row : PushRow)
  | claimFyi (row : PushRow)
  | send (id : Uuid)
  | mark (id : Uuid) (sentAt : DateTime)

/-- A request marked delivered without a push: which, when, and the table at that moment. -/
structure Cover where
  row : PushRow
  at_ : DateTime
  rows : List PushRow

/-- `sent` and `covered` are kept by nobody: the pushes that got through, and the requests marked without one. -/
structure Outbox where
  rows : Table pushKeys
  clock : DateTime
  waiting : List Push
  lock : Option Flight
  sent : List (Uuid × DateTime)
  covered : List Cover

inductive Action where
  | tick (now : DateTime)
  | create (row : PushRow)
  | resolve (id : Uuid) (state : RequestState)
  | sweep
  | take (i : Nat)
  | skip (i : Nat)
  | check
  | cover
  | claim
  | sent
  | delivered
  | failed
  | abandon

/-- It runs `mark_push_delivered`. -/
def Action.marks : Action → Bool
  | .cover | .delivered => true
  | _ => false

/-- The push that a new request needs at once. -/
def firstPush (row : PushRow) : List Push :=
  if row.state = .pending then [.approval row] else if row.notifyOnly then [.fyi row] else []

namespace Outbox

def mark (s : Outbox) (id : Uuid) : Table pushKeys :=
  s.rows.update (·.id == id) (PushRow.delivered s.clock) (PushRow.key_delivered s.clock)

/-- What one action does, where it can happen. -/
def act (s : Outbox) : Action → Option Outbox
  | .tick now => if s.clock ≤ now then some { s with clock := now } else none
  | .create row =>
    if s.rows.Fresh row ∧ row.pushAttempts = 0 ∧ row.pushDeliveredAt = none then
      some { s with rows := s.rows.insert row, waiting := s.waiting ++ firstPush row }
    else none
  | .resolve id state =>
    some { s with rows :=
      s.rows.update (fun r => r.id == id && r.state == .pending) (PushRow.resolved state) (PushRow.key_resolved state) }
  | .sweep =>
    some { s with waiting := s.waiting ++ (s.rows.rows.filter (needsPush s.clock)).map .approval ++
      (s.rows.rows.filter (needsFyi s.clock)).map .fyi }
  | .take i =>
    -- `push_lock`: one push at a time
    match s.lock, s.waiting[i]? with
    | none, some (.approval row) => some { s with waiting := s.waiting.eraseIdx i, lock := some (.check row) }
    | none, some (.fyi row) => some { s with waiting := s.waiting.eraseIdx i, lock := some (.claimFyi row) }
    | _, _ => none
  | .skip i => some { s with waiting := s.waiting.eraseIdx i }
  | .check =>
    match s.lock with
    | some (.check row) =>
      if recentDuplicatePush s.rows row (dedupSince s.clock) then some { s with lock := some (.cover row) }
      else some { s with lock := some (.claim row) }
    | _ => none
  | .cover =>
    match s.lock with
    | some (.cover row) =>
      some { s with rows := s.mark row.id, lock := none, covered := s.covered ++ [⟨row, s.clock, s.rows.rows⟩] }
    | _ => none
  | .claim =>
    match s.lock with
    | some (.claim row) =>
      if s.rows.rows.any (claimable row.id s.clock) then
        some { s with
          rows := s.rows.update (claimable row.id s.clock) PushRow.claimed PushRow.key_claimed
          lock := some (.send row.id) }
      else some { s with lock := none }
    | some (.claimFyi row) =>
      if s.rows.rows.any (fyiClaimable row.id) then
        some { s with
          rows := s.rows.update (fyiClaimable row.id) PushRow.claimed PushRow.key_claimed
          lock := some (.send row.id) }
      else some { s with lock := none }
    | _ => none
  | .sent =>
    -- the notifier's answer; the `UPDATE` is still to come
    match s.lock with
    | some (.send id) => some { s with lock := some (.mark id s.clock), sent := s.sent ++ [(id, s.clock)] }
    | _ => none
  | .delivered =>
    match s.lock with
    | some (.mark id _) => some { s with rows := s.mark id, lock := none }
    | _ => none
  | .failed =>
    -- an error of the notifier, or no answer in `PUSH_SEND_TIMEOUT`
    match s.lock with
    | some (.send _) => some { s with lock := none }
    | _ => none
  | .abandon =>
    -- a database error before the push or in the `UPDATE` after it, or a mechanism that does not parse
    if s.lock.isSome then some { s with lock := none } else none

end Outbox

/-- The states that the actions lead to from an empty outbox, where every action satisfies `ok`. -/
inductive Outbox.Reachable (ok : Outbox → Action → Prop) (c₀ : DateTime) : Outbox → Prop where
  | init : Reachable ok c₀ ⟨.empty, c₀, [], none, [], []⟩
  | step {s s' : Outbox} (a : Action) : Reachable ok c₀ s → s.act a = some s' → ok s a → Reachable ok c₀ s'

/-! ## The pushes that got through -/

/-- What is known of the pushes that got through: they are of the past, and a mark still to come is of one of them. -/
structure Outbox.Logged (s : Outbox) : Prop where
  past : ∀ e ∈ s.sent, e.2 ≤ s.clock
  held : ∀ id t, s.lock = some (.mark id t) → (id, t) ∈ s.sent

section Log
variable {s s' : Outbox}

/-- A step that sends nothing, and after which no mark is still to come. -/
theorem Outbox.Logged.idle (h : s.Logged) (hclock : s.clock ≤ s'.clock) (hsent : s'.sent = s.sent)
    (hheld : ∀ id t, s'.lock = some (.mark id t) → s.lock = some (.mark id t)) : s'.Logged := by
  refine ⟨fun e he => ?_, fun id t hlock => ?_⟩
  · exact (h.past e (hsent ▸ he)).trans hclock
  · rw [hsent]
    exact h.held id t (hheld id t hlock)

theorem Outbox.Logged.step (h : s.Logged) {a : Action} (hact : s.act a = some s') : s'.Logged := by
  cases a with
  | sent =>
      simp only [act] at hact
      split at hact <;> cases hact
      refine ⟨fun e he => ?_, ?_⟩
      · rcases List.mem_append.1 he with he | he
        · exact h.past e he
        · rw [List.mem_singleton.1 he]
      · rintro _ _ ⟨⟩
        exact List.mem_append_right _ (List.mem_singleton_self _)
  | tick now =>
      simp only [act] at hact
      split at hact <;> cases hact
      rename_i hle
      exact h.idle hle rfl fun _ _ hlock => hlock
  | check =>
      simp only [act] at hact
      split at hact
      · split at hact <;> cases hact <;> exact h.idle le_rfl rfl fun _ _ hlock => by cases hlock
      · cases hact
  | claim =>
      simp only [act] at hact
      split at hact
      · split at hact <;> cases hact <;> exact h.idle le_rfl rfl fun _ _ hlock => by cases hlock
      · split at hact <;> cases hact <;> exact h.idle le_rfl rfl fun _ _ hlock => by cases hlock
      · cases hact
  | take i | cover | delivered | failed | abandon =>
      simp only [act] at hact
      split at hact <;> cases hact <;> exact h.idle le_rfl rfl fun _ _ hlock => by cases hlock
  | create row =>
      simp only [act] at hact
      split at hact <;> cases hact
      exact h.idle le_rfl rfl fun _ _ hlock => hlock
  | resolve id state | sweep | skip i =>
      cases hact
      exact h.idle le_rfl rfl fun _ _ hlock => hlock

theorem logged_of_reachable {ok : Outbox → Action → Prop} {c₀ : DateTime} (hs : Outbox.Reachable ok c₀ s) :
    s.Logged := by
  induction hs with
  | init => exact ⟨by simp, fun _ _ hlock => by cases hlock⟩
  | step a _ hact _ ih => exact ih.step hact

end Log

/-! ## What covers a request -/

/-- Another request with the same key, pending at that moment, had a push that got through within the window. -/
def Cover.Backed (sent : List (Uuid × DateTime)) (c : Cover) : Prop :=
  ∃ r ∈ c.rows, r.id ≠ c.row.id ∧ c.row.sameKey r = true ∧ r.state = .pending ∧
    ∃ e ∈ sent, e.1 = r.id ∧ e.2.within c.at_ pushDedupWindowSeconds = true ∧ e.2 ≤ c.at_

instance (sent : List (Uuid × DateTime)) (c : Cover) : Decidable (c.Backed sent) :=
  inferInstanceAs (Decidable (∃ r ∈ c.rows, _))

/-- The request about to be covered never had a push attempted, and the duplicate found was recorded less than the window
without `lag` ago; the push about to be recorded got through at most `lag` nanoseconds ago. -/
def Flight.Clean (lag : Nat) (s : Outbox) : Option Flight → Prop
  | some (.cover row) =>
    (∀ r ∈ s.rows.rows, r.id = row.id → r.pushAttempts = 0) ∧
      recentDuplicatePush s.rows row (dedupSince s.clock + lag) = true
  | some (.mark _ sentAt) => s.clock.nanos ≤ sentAt.nanos + lag
  | _ => True

instance (lag : Nat) (s : Outbox) : (flight : Option Flight) → Decidable (Flight.Clean lag s flight)
  | some (.cover _) => inferInstanceAs (Decidable (_ ∧ _))
  | some (.mark _ sentAt) => inferInstanceAs (Decidable (s.clock.nanos ≤ sentAt.nanos + lag))
  | some (.check _) => isTrue trivial
  | some (.claim _) => isTrue trivial
  | some (.claimFyi _) => isTrue trivial
  | some (.send _) => isTrue trivial
  | none => isTrue trivial

/-- The statements that set `push_delivered_at` are clean. -/
def Outbox.Clean (lag : Nat) (s : Outbox) (a : Action) : Prop := a.marks = true → Flight.Clean lag s s.lock

instance (lag : Nat) (s : Outbox) (a : Action) : Decidable (s.Clean lag a) :=
  inferInstanceAs (Decidable (a.marks = true → Flight.Clean lag s s.lock))

/-- A row with an attempt and a delivery was delivered by a push of its own, at most `lag` before. -/
def PushRow.Real (lag : Nat) (sent : List (Uuid × DateTime)) (r : PushRow) : Prop :=
  ∀ t, r.pushDeliveredAt = some t → 0 < r.pushAttempts → ∃ e ∈ sent, e.1 = r.id ∧ t.nanos ≤ e.2.nanos + lag

/-- The invariant of the clean runs. -/
structure Outbox.Ok (lag : Nat) (s : Outbox) : Prop where
  real : ∀ r ∈ s.rows.rows, r.Real lag s.sent
  backed : ∀ c ∈ s.covered, c.Backed s.sent

section Steps
variable {lag : Nat} {s s' : Outbox} {sent sent' : List (Uuid × DateTime)}

theorem PushRow.Real.mono {r : PushRow} (h : r.Real lag sent) (hsub : ∀ e ∈ sent, e ∈ sent') : r.Real lag sent' := by
  intro t ht hpos
  obtain ⟨e, he, hrest⟩ := h t ht hpos
  exact ⟨e, hsub e he, hrest⟩

theorem Cover.Backed.mono {c : Cover} (h : c.Backed sent) (hsub : ∀ e ∈ sent, e ∈ sent') : c.Backed sent' := by
  obtain ⟨r, hr, hid, hkey, hst, e, he, hrest⟩ := h
  exact ⟨r, hr, hid, hkey, hst, e, hsub e he, hrest⟩

theorem real_update {t : Table pushKeys} {p : PushRow → Bool} {f : PushRow → PushRow}
    (hf : ∀ r, pushKeys.key (f r) = pushKeys.key r) (ht : ∀ r ∈ t.rows, r.Real lag sent)
    (hstep : ∀ r ∈ t.rows, p r = true → r.Real lag sent → (f r).Real lag sent) :
    ∀ r ∈ (t.update p f hf).rows, r.Real lag sent := by
  intro r' hr'
  obtain ⟨r, hr, rfl⟩ := Table.exists_of_mem_update hf hr'
  split
  · rename_i hp
    exact hstep r hr hp (ht r hr)
  · exact ht r hr

/-- A claim is for a row with no delivery. -/
theorem real_claimed {r : PushRow} (h : r.pushDeliveredAt.isNone = true) : r.claimed.Real lag sent := by
  intro t ht
  rw [show r.claimed.pushDeliveredAt = r.pushDeliveredAt from rfl] at ht
  rw [ht] at h
  cases h

/-- The duplicate that a clean covering rests on was pushed within the window: its mark is at most `lag` younger. -/
theorem backed_of_duplicate (hlog : s.Logged) (h : s.Ok lag) {row : PushRow}
    (hdup : recentDuplicatePush s.rows row (dedupSince s.clock + lag) = true) :
    Cover.Backed s.sent ⟨row, s.clock, s.rows.rows⟩ := by
  rw [recentDuplicatePush, List.any_eq_true] at hdup
  obtain ⟨r, hr, hp⟩ := hdup
  simp only [Bool.and_eq_true, bne_iff_ne, beq_iff_eq, decide_eq_true_eq] at hp
  obtain ⟨⟨⟨⟨hid, hkey⟩, hst⟩, hrecent⟩, hpos⟩ := hp
  cases ht : r.pushDeliveredAt with
  | none =>
      rw [ht] at hrecent
      cases hrecent
  | some t =>
      rw [ht] at hrecent
      have hlate : dedupSince s.clock + lag < t.nanos := of_decide_eq_true hrecent
      obtain ⟨e, he, hown, hlag⟩ := h.real r hr t ht hpos
      have hwithin : e.2.within s.clock pushDedupWindowSeconds = true := by
        unfold dedupSince at hlate
        refine decide_eq_true ?_
        change s.clock.nanos - pushDedupWindowSeconds * 10 ^ 9 < e.2.nanos
        omega
      exact ⟨r, hr, hid, hkey, hst, e, he, hown, hwithin, hlog.past e he⟩

theorem ok_cover (hlog : s.Logged) (h : s.Ok lag) (hclean : Flight.Clean lag s s.lock) (hact : s.act .cover = some s') :
    s'.Ok lag := by
  simp only [Outbox.act] at hact
  split at hact
  · rename_i row hlock
    rw [hlock] at hclean
    obtain ⟨hnone, hdup⟩ := hclean
    cases hact
    refine ⟨real_update (PushRow.key_delivered _) h.real fun r hr hp _ t _ hpos => ?_, ?_⟩
    · have hzero := hnone r hr (beq_iff_eq.1 hp)
      rw [show (r.delivered s.clock).pushAttempts = r.pushAttempts from rfl, hzero] at hpos
      exact absurd hpos (lt_irrefl 0)
    · intro c hc
      rcases List.mem_append.1 hc with hc | hc
      · exact h.backed c hc
      · rw [List.mem_singleton.1 hc]
        exact backed_of_duplicate hlog h hdup
  · cases hact

theorem ok_claim (h : s.Ok lag) (hact : s.act .claim = some s') : s'.Ok lag := by
  simp only [Outbox.act] at hact
  split at hact
  · split at hact <;> cases hact
    · refine ⟨real_update PushRow.key_claimed h.real fun r _ hp _ => real_claimed ?_, h.backed⟩
      simp only [claimable, Bool.and_eq_true] at hp
      exact hp.1.2
    · exact ⟨h.real, h.backed⟩
  · split at hact <;> cases hact
    · refine ⟨real_update PushRow.key_claimed h.real fun r _ hp _ => real_claimed ?_, h.backed⟩
      simp only [fyiClaimable, Bool.and_eq_true] at hp
      exact hp.2
    · exact ⟨h.real, h.backed⟩
  · cases hact

theorem ok_sent (h : s.Ok lag) (hact : s.act .sent = some s') : s'.Ok lag := by
  simp only [Outbox.act] at hact
  split at hact <;> cases hact
  exact ⟨fun r hr => (h.real r hr).mono fun e he => List.mem_append_left _ he,
    fun c hc => (h.backed c hc).mono fun e he => List.mem_append_left _ he⟩

/-- The mark of a push is set at most `lag` after it. -/
theorem ok_delivered (hlog : s.Logged) (h : s.Ok lag) (hclean : Flight.Clean lag s s.lock)
    (hact : s.act .delivered = some s') : s'.Ok lag := by
  simp only [Outbox.act] at hact
  split at hact
  · rename_i id sentAt hlock
    rw [hlock] at hclean
    cases hact
    refine ⟨real_update (PushRow.key_delivered _) h.real fun r _ hp _ t ht _ => ?_, h.backed⟩
    obtain rfl := Option.some.inj ht
    exact ⟨(id, sentAt), hlog.held id sentAt hlock, (beq_iff_eq.1 hp).symm, hclean⟩
  · cases hact

theorem ok_create (h : s.Ok lag) {row : PushRow} (hact : s.act (.create row) = some s') : s'.Ok lag := by
  simp only [Outbox.act] at hact
  split at hact
  · rename_i hrow
    cases hact
    refine ⟨?_, h.backed⟩
    intro r hr
    rcases Table.mem_of_mem_insert hr with hr | rfl
    · exact h.real r hr
    · intro t ht
      rw [hrow.2.2] at ht
      cases ht
  · cases hact

/-- Every clean action keeps the invariant. -/
theorem Outbox.Ok.step (hlog : s.Logged) (h : s.Ok lag) {a : Action} (hact : s.act a = some s') (hclean : s.Clean lag a) :
    s'.Ok lag := by
  cases a with
  | cover => exact ok_cover hlog h (hclean rfl) hact
  | delivered => exact ok_delivered hlog h (hclean rfl) hact
  | claim => exact ok_claim h hact
  | sent => exact ok_sent h hact
  | create row => exact ok_create h hact
  | resolve id state =>
      cases hact
      exact ⟨real_update (PushRow.key_resolved state) h.real fun r _ _ hr => hr, h.backed⟩
  | check =>
      simp only [act] at hact
      split at hact
      · split at hact <;> cases hact <;> exact ⟨h.real, h.backed⟩
      · cases hact
  | tick now | take i | failed | abandon =>
      simp only [act] at hact
      split at hact <;> cases hact <;> exact ⟨h.real, h.backed⟩
  | sweep | skip i =>
      cases hact
      exact ⟨h.real, h.backed⟩

end Steps

/-- In every run in which each push is recorded within `lag` of getting through, and a request is covered only where it
never had a push attempted and only by a duplicate recorded less than the window without `lag` ago: whatever is covered is
covered by a push that was sent. -/
theorem covered_of_clean {lag : Nat} {c₀ : DateTime} {s : Outbox} (hs : Outbox.Reachable (Outbox.Clean lag) c₀ s) :
    ∀ c ∈ s.covered, c.Backed s.sent := by
  have hok : s.Ok lag := by
    induction hs with
    | init => exact ⟨by simp, by simp⟩
    | step a hs hact hclean ih => exact ih.step (logged_of_reachable hs) hact hclean
  exact hok.backed

/-! ### Runs -/

/-- The actions, one after the other, as long as they satisfy `ok`. -/
def Outbox.acts (ok : Outbox → Action → Prop) [∀ s a, Decidable (ok s a)] (s : Outbox) : List Action → Option Outbox
  | [] => some s
  | a :: as => if ok s a then (s.act a).bind (acts ok · as) else none

theorem Outbox.Reachable.acts {ok : Outbox → Action → Prop} [∀ s a, Decidable (ok s a)] {c₀ : DateTime}
    {s s' : Outbox} (hs : Outbox.Reachable ok c₀ s) {as : List Action} (h : s.acts ok as = some s') :
    Outbox.Reachable ok c₀ s' := by
  induction as generalizing s with
  | nil =>
      cases h
      exact hs
  | cons a as ih =>
      rw [Outbox.acts] at h
      split at h
      · rename_i hok
        obtain ⟨s₁, hact, h⟩ := Option.bind_eq_some_iff.1 h
        exact ih (.step a hs hact hok) h
      · cases h

/-- A request like the others, under its own id and key. -/
def prompt (id : Uuid) (key : String) : PushRow where
  id := id
  clientName := "agent"
  secretName := "deploy-key"
  mechanism := "cli-read"
  constraints := ⟨[], [], [], 900, some 1⟩
  contextCiphertext := none
  contextNonce := none
  contextWrappedDek := none
  contextKekId := none
  state := .pending
  policyNotAfter := none
  denyReason := none
  resolvedBy := none
  createdAt := .ofSeconds 1000
  resolvedAt := none
  expiresAt := .ofSeconds 1900
  notifyOnly := false
  idemClient := "agent"
  idemKey := key
  idemMac := []
  pushAttempts := 0
  pushDeliveredAt := none

/-- A push that gets through and is recorded two seconds later, and an identical request half a minute after it. -/
def askedAgain : List Action :=
  [.create (prompt 1 "a"), .take 0, .check, .claim, .sent, .tick (.ofSeconds 1002), .delivered,
    .tick (.ofSeconds 1030), .create (prompt 2 "b"), .take 0, .check, .tick (.ofSeconds 1031), .cover]

theorem covered_of_clean_again : ∃ s, Outbox.Reachable (Outbox.Clean (5 * 10 ^ 9)) (.ofSeconds 1000) s ∧
    s.covered ≠ [] ∧ ∀ c ∈ s.covered, c.Backed s.sent := by
  have hend : (Outbox.acts (Outbox.Clean (5 * 10 ^ 9)) ⟨.empty, .ofSeconds 1000, [], none, [], []⟩ askedAgain).any
      (fun s => decide (s.covered ≠ [])) = true := by
    decide +kernel
  rw [Option.any_eq_true] at hend
  obtain ⟨s, hs, hne⟩ := hend
  have hreach := Outbox.Reachable.init.acts hs
  exact ⟨s, hreach, of_decide_eq_true hne, covered_of_clean hreach⟩

/-- Some request was covered while it was pending, and not by a push that was sent. -/
def Outbox.Uncovered (s : Outbox) : Prop :=
  ∃ c ∈ s.covered, (∃ r ∈ c.rows, r.id = c.row.id ∧ r.state = .pending) ∧ ¬ c.Backed s.sent

instance (s : Outbox) : Decidable s.Uncovered := inferInstanceAs (Decidable (∃ c ∈ s.covered, _))

theorem uncovered_of_acts {c₀ : DateTime} {as : List Action}
    (h : (Outbox.acts (fun _ _ => True) ⟨.empty, c₀, [], none, [], []⟩ as).any (fun s => decide s.Uncovered) = true) :
    ∃ s, Outbox.Reachable (fun _ _ => True) c₀ s ∧ s.Uncovered := by
  rw [Option.any_eq_true] at h
  obtain ⟨s, hs, hc⟩ := h
  exact ⟨s, Outbox.Reachable.init.acts hs, of_decide_eq_true hc⟩

/-- The first push fails; the second request's gets through; the sweep covers the first by it; the third request, past
the window of the only push there was, is covered by the first. -/
def failedFirst : List Action :=
  [.create (prompt 1 "a"), .take 0, .check, .claim, .failed,
    .tick (.ofSeconds 1005), .create (prompt 2 "b"), .take 0, .check, .claim, .sent, .delivered,
    .tick (.ofSeconds 1030), .sweep, .take 0, .check, .cover,
    .tick (.ofSeconds 1080), .create (prompt 3 "c"), .take 0, .check, .cover]

theorem covered_by_none : ∃ s, Outbox.Reachable (fun _ _ => True) (.ofSeconds 1000) s ∧ ∃ c ∈ s.covered,
    (∃ r ∈ c.rows, r.id = c.row.id ∧ r.state = .pending) ∧ ¬ c.Backed s.sent :=
  @uncovered_of_acts _ failedFirst (by decide +kernel)

/-- No push fails, and no request that was pushed is covered: the `UPDATE` of the first runs 40 s after its push. -/
def markedLate : List Action :=
  [.create (prompt 1 "a"), .take 0, .check, .claim, .sent, .tick (.ofSeconds 1040), .delivered,
    .tick (.ofSeconds 1080), .create (prompt 2 "b"), .take 0, .check, .cover]

example : (Outbox.acts (fun _ _ => True) ⟨.empty, .ofSeconds 1000, [], none, [], []⟩ markedLate).any
    (fun s => decide s.Uncovered) = true := by decide +kernel

end Keychute.Notify
