import Keychute.Lib.Timed
import Keychute.Incarnation

/-!
# The deadline check of an approval

`approve_request` and `insert_access_request_with_id` check a grant's deadline in the `UPDATE` that flips the request, so
that time spent on locks and sealing since the deadline was computed counts. The check compares with `now()`, which is
the time the transaction began: what is spent inside the transaction does not count.

* `StoreOp.deadline`, `StoreOp.ChecksDeadline` : the deadline of an approving call, and its checking `UPDATE`;
* `exists_checksDeadline` : a call that commits began before the deadline, and ran that `UPDATE`
  (`approveRequest_checksDeadline`, `insertApproved_checksDeadline`);
* `deadline_met_of_prompt` : in every run, the `UPDATE` runs before the deadline where no time has passed since the
  transaction began;
* `checked_late` : where time may pass, it runs as late as one likes;
* `deadline_missed` : a request approved after the deadline of its grant.
-/

namespace Keychute.Db
open Keychute.Lib

/-- The deadline of the grant that a call mints for a request, where it checks one. -/
def StoreOp.deadline : StoreOp → Option DateTime
  | .approveRequest _ _ _ grant _ _ => some grant.notAfter
  | .insertAccessRequestWithId _ _ _ (.approved _ grant _) _ _ => some grant.notAfter
  | _ => none

/-- The write of the deadline-checking `UPDATE`. -/
inductive StoreOp.ChecksDeadline (now : DateTime) : StoreOp → (Store → Store) → Prop where
  | approve (requestId : Uuid) (resolvedBy : String) (grantId : Uuid) (grant : GrantParams)
      (store : Option StoreSecretParams) (versionId : Uuid) (keys : List LockKey) :
      ChecksDeadline now (.approveRequest requestId resolvedBy grantId grant store versionId)
        (requestRel.updating (approvable requestId grant now) keys (AccessRequestRow.approve resolvedBy now)
          (AccessRequestRow.key_approve resolvedBy now))
  | insert (id : Uuid) (req : NewAccessRequest) (pendingCap : Option Int) (resolvedBy : String) (grant : GrantParams)
      (notifyOnly : Bool) (context : Option SealFn) (grantId : Uuid) (keys : List LockKey) :
      ChecksDeadline now
        (.insertAccessRequestWithId id req pendingCap (.approved resolvedBy grant notifyOnly) context grantId)
        (requestRel.updating (fun r => r.id == id && decide (now < grant.notAfter)) keys
          (AccessRequestRow.autoApprove resolvedBy notifyOnly now)
          (AccessRequestRow.key_autoApprove resolvedBy notifyOnly now))

theorem not_timed_abort {α : Type} {r : Except DbError Reply} {d d' : Store → Store} {c c' : DateTime}
    {ms : List (Mark Store DateTime)} {a : α} : ¬ (Txn.abort r : Tx α).Timed d c ms a d' c' :=
  fun h => h.returns (P := fun _ => False) trivial

section Approving
variable {now c c' : DateTime} {d d' : Store → Store} {ms : List (Mark Store DateTime)} {r : Reply}

/-- An operator's approval that commits began before the deadline of the grant, and its `UPDATE` checked it. -/
theorem approveRequest_checksDeadline {requestId grantId versionId : Uuid} {resolvedBy : String} {grant : GrantParams}
    {store : Option StoreSecretParams}
    (h : (approveRequest requestId resolvedBy grantId grant store versionId now).Timed d c ms r d' c') :
    now < grant.notAfter ∧ ∃ ms₁ t keys ms₂, ms = ms₁ ++
      .wrote t (requestRel.updating (approvable requestId grant now) keys (AccessRequestRow.approve resolvedBy now)
        (AccessRequestRow.key_approve resolvedBy now)) :: ms₂ := by
  obtain ⟨ms₁, _, _, _, _, rfl, -, h₁⟩ := Txn.timed_bind h
  obtain ⟨ms₂, _, _, _, _, rfl, -, h₂⟩ := Txn.timed_bind h₁
  obtain ⟨_, ms₄, updated, _, _, rfl, hupdate, hrest⟩ := Txn.timed_bind h₂
  obtain ⟨hrows, ms₃, t, keys, ms₃', rfl⟩ := Rel.timed_updateWhere hupdate
  split at hrest
  · exact absurd hrest not_timed_abort
  · rename_i row hhead
    obtain ⟨req, hreq, -⟩ := hrows row (List.mem_of_mem_head? hhead)
    rw [approvable, Bool.and_eq_true, decide_eq_true_eq] at hreq
    exact ⟨hreq.2, ms₁ ++ (ms₂ ++ ms₃), t, keys, ms₃' ++ ms₄, by simp only [List.append_assoc, List.cons_append]⟩

/-- So did an insert that approves its request by policy. -/
theorem insertApproved_checksDeadline {id grantId : Uuid} {req : NewAccessRequest} {pendingCap : Option Int}
    {resolvedBy : String} {grant : GrantParams} {notifyOnly : Bool} {context : Option SealFn}
    (h : (insertAccessRequestWithId id req pendingCap (.approved resolvedBy grant notifyOnly) context grantId now).Timed
      d c ms r d' c') :
    now < grant.notAfter ∧ ∃ ms₁ t keys ms₂, ms = ms₁ ++
      .wrote t (requestRel.updating (fun r => r.id == id && decide (now < grant.notAfter)) keys
        (AccessRequestRow.autoApprove resolvedBy notifyOnly now)
        (AccessRequestRow.key_autoApprove resolvedBy notifyOnly now)) :: ms₂ := by
  obtain ⟨ms₁, _, _, _, _, rfl, -, h₁⟩ := Txn.timed_bind h
  obtain ⟨ms₂, _, sealed, _, _, rfl, -, h₂⟩ := Txn.timed_bind h₁
  obtain ⟨ms₃, _, _, _, _, rfl, -, h₃⟩ := Txn.timed_bind h₂
  obtain ⟨ms₄, _, inserted, _, _, rfl, -, h₄⟩ := Txn.timed_bind h₃
  obtain ⟨ms₅, _, s, _, _, rfl, -, h₅⟩ := Txn.timed_bind h₄
  split at h₅
  · split at h₅
    · exact absurd h₅ not_timed_abort
    · obtain ⟨ms₆, _, _, _, _, rfl, -, h₆⟩ := Txn.timed_bind h₅
      obtain ⟨_, ms₇, _, _, _, rfl, happly, -⟩ := Txn.timed_bind h₆
      obtain ⟨_, ms₉, updated, _, _, rfl, hupdate, hrest⟩ := Txn.timed_bind happly
      obtain ⟨hrows, ms₈, t, keys, ms₈', rfl⟩ := Rel.timed_updateWhere hupdate
      split at hrest
      · exact absurd hrest not_timed_abort
      · rename_i row hhead
        obtain ⟨r', hr', -⟩ := hrows row (List.mem_of_mem_head? hhead)
        rw [Bool.and_eq_true, decide_eq_true_eq] at hr'
        refine ⟨hr'.2, ms₁ ++ (ms₂ ++ (ms₃ ++ (ms₄ ++ (ms₅ ++ (ms₆ ++ ms₈))))), t, keys, ms₈' ++ (ms₉ ++ ms₇), ?_⟩
        simp only [List.append_assoc, List.cons_append]
        rfl
  · split at h₅
    · exact absurd h₅ not_timed_abort
    · exact absurd h₅ not_timed_abort

end Approving

/-- A commit of an approving call began before the deadline, and ran the `UPDATE` that checks it. -/
theorem exists_checksDeadline {window : Int} {op : StoreOp} {now deadline c : DateTime} {d : Store → Store}
    {ms : List (Mark Store DateTime)} {r : Reply} (hop : op.deadline = some deadline)
    (h : (op.txn window now).Timed id now ms r d c) :
    now < deadline ∧ ∃ ms₁ t f ms₂, ms = ms₁ ++ .wrote t f :: ms₂ ∧ op.ChecksDeadline now f := by
  cases op with
  | approveRequest requestId resolvedBy grantId grant store versionId =>
      obtain rfl : grant.notAfter = deadline := Option.some.inj hop
      obtain ⟨hnow, ms₁, t, keys, ms₂, rfl⟩ := approveRequest_checksDeadline h
      exact ⟨hnow, ms₁, t, _, ms₂, rfl, .approve requestId resolvedBy grantId grant store versionId keys⟩
  | insertAccessRequestWithId id req pendingCap resolution context grantId =>
      cases resolution with
      | pending => cases hop
      | denied reason resolvedBy => cases hop
      | approved resolvedBy grant notifyOnly =>
          obtain rfl : grant.notAfter = deadline := Option.some.inj hop
          obtain ⟨hnow, ms₁, t, keys, ms₂, rfl⟩ := insertApproved_checksDeadline h
          exact ⟨hnow, ms₁, t, _, ms₂, rfl, .insert id req pendingCap resolvedBy grant notifyOnly context grantId keys⟩
  | _ => cases hop

section Runs
variable {window : Int} {s₀ s s' : Store} {c₀ now deadline late : DateTime} {ok : StoreOp → Prop}
  {w : World Store LockKey (Except DbError Reply) Reply DateTime StoreOp} {log : List (StoreOp × Reply)} {op : StoreOp}
  {r : Reply} {d : Store → Store} {h : Held LockKey}

/-- In every run of the store's transactions, an approving call that is about to commit began before the deadline and ran
the `UPDATE` that checks it; and the `UPDATE` ran before the deadline if no time was spent waiting until then. -/
theorem deadline_met_of_prompt (hw : World.Reachable (StoreOp.txn window) s₀ c₀ ok w)
    (hth : ⟨op, now, .pure r, d, h⟩ ∈ w.threads) (hop : op.deadline = some deadline) :
    now < deadline ∧ (∃ ms, World.Noted (StoreOp.txn window) s₀ c₀ ok w ⟨op, now, .pure r, d, h⟩ ms) ∧
      ∀ ms, World.Noted (StoreOp.txn window) s₀ c₀ ok w ⟨op, now, .pure r, d, h⟩ ms →
        (∃ ms₁ t f ms₂, ms = ms₁ ++ .wrote t f :: ms₂ ∧ op.ChecksDeadline now f) ∧
        ∀ ms₁ t f ms₂, ms = ms₁ ++ .wrote t f :: ms₂ → op.ChecksDeadline now f → (∀ m ∈ ms₁, m.Prompt) →
          t < deadline := by
  have htimed : ∀ {ms}, World.Noted (StoreOp.txn window) s₀ c₀ ok w ⟨op, now, .pure r, d, h⟩ ms →
      (op.txn window now).Timed id now ms r d w.clock := by
    intro ms hn
    have h := hn.timed [] r d w.clock (.done r d w.clock)
    rwa [List.append_nil] at h
  obtain ⟨ms, hn⟩ := exists_noted hw _ hth
  have hnow : now < deadline := (exists_checksDeadline hop (htimed hn)).1
  refine ⟨hnow, ⟨ms, hn⟩, fun ms hn => ⟨(exists_checksDeadline hop (htimed hn)).2, ?_⟩⟩
  rintro ms₁ t f ms₂ rfl - hprompt
  exact ((htimed hn).le_of_prompt hprompt).trans_lt hnow

/-- A call that approves when it runs alone also does so after a wait of any length, and checks the deadline then. -/
theorem checked_late (hw : World.Reachable (StoreOp.txn window) s₀ c₀ ok ⟨s, now, log, []⟩) (hok : ok op)
    (hop : op.deadline = some deadline) (hx : (op.txn window now).exec s = .ok (r, s')) (hlate : now ≤ late) :
    ∃ w d h ms, World.Noted (StoreOp.txn window) s₀ c₀ ok w ⟨op, now, .pure r, d, h⟩ ms ∧
      (∀ m ∈ ms, m = .waited now late ∨ ∃ f, m = .wrote late f) ∧
      ∃ ms₁ f ms₂, ms = ms₁ ++ .wrote late f :: ms₂ ∧ op.ChecksDeadline now f := by
  have hstart : World.Noted (StoreOp.txn window) s₀ c₀ ok _ _ _ := .tick (.start hw op hok) late hlate
  obtain ⟨d, h, ms, hn, -, hms⟩ := hstart.finish hx
  have htimed := hn.timed [] r d late (.done r d late)
  rw [List.append_nil] at htimed
  obtain ⟨-, ms₁, t, f, ms₂, heq, hf⟩ := exists_checksDeadline hop htimed
  have hall : ∀ m ∈ [Mark.waited now late] ++ ms, m = .waited now late ∨ ∃ f, m = .wrote late f := by
    rw [List.forall_mem_append]
    exact ⟨fun m hm => Or.inl (List.mem_singleton.1 hm), fun m hm => Or.inr (hms m hm)⟩
  rcases hall (.wrote t f) (by rw [List.nil_append] at heq; rw [heq]; simp) with hwait | ⟨f', hwrote⟩
  · cases hwait
  · cases hwrote
    exact ⟨_, d, h, _, hn, hall, ms₁, f, ms₂, heq, hf⟩

end Runs

/-- The secret, and the request for it. -/
def askedFor : List (StoreOp × DateTime) :=
  [(.createSecretWithVersion deployKey 4 "operator", .ofSeconds 900),
    (.insertAccessRequestWithId 5 askedRequest (some 20) .pending none 0, .ofSeconds 1000)]

/-- The operator's approval, begun at `begun` for a grant that ends at `dueBy`. -/
def inTime : StoreOp := .approveRequest 5 "operator" 7 deployGrant none 0

def begun : DateTime := .ofSeconds 1100

def dueBy : DateTime := .ofSeconds 1900

def tooLate : DateTime := .ofSeconds 3000

/-- The grant, where a call ends by approving. -/
def approvedId : Except (Except DbError Reply) (Reply × Store) → Option Uuid
  | .ok (.approve (.approved id), _) => some id
  | _ => none

theorem approvedId_eq_some {r : Except (Except DbError Reply) (Reply × Store)} {id : Uuid}
    (h : approvedId r = some id) : ∃ s, r = .ok (.approve (.approved id), s) := by
  unfold approvedId at h
  split at h
  · cases h
    exact ⟨_, rfl⟩
  · cases h

/-- What `askedFor` leaves. -/
def asked : Store := playEnd (StoreOp.step 60) .empty askedFor

/-- Run on it, the approval goes through. -/
theorem exec_inTime : ∃ s, (inTime.txn 60 begun).exec asked = .ok (.approve (.approved 7), s) :=
  approvedId_eq_some (by decide +kernel)

/-- The approval as it runs when the lock of the secret is had at once: the check is in time. -/
theorem deadline_met_of_prompt_inTime :
    ∃ w d h ms ms₁ t f ms₂, World.Noted (StoreOp.txn 60) asked begun (fun _ => True) w
        ⟨inTime, begun, .pure (.approve (.approved 7)), d, h⟩ ms ∧
      ms = ms₁ ++ .wrote t f :: ms₂ ∧ inTime.ChecksDeadline begun f ∧ begun < dueBy ∧ t < dueBy := by
  obtain ⟨s, hs⟩ := exec_inTime
  obtain ⟨w, d, h, ms, hn, hall, ms₁, f, ms₂, heq, hf⟩ :=
    @checked_late 60 asked asked _ begun begun dueBy begun (fun _ => True) [] inTime _ .init trivial rfl hs
      (le_refl begun)
  obtain ⟨hnow, -, hmet⟩ := @deadline_met_of_prompt 60 asked begun begun dueBy (fun _ => True) w inTime _ d h
    hn.reachable.1 hn.reachable.2 rfl
  have hprompt : ∀ m ∈ ms₁, m.Prompt := by
    intro m hm
    rcases hall m (by rw [heq]; exact List.mem_append_left _ hm) with rfl | ⟨f, rfl⟩
    · exact le_refl begun
    · trivial
  exact ⟨w, d, h, ms, ms₁, begun, f, ms₂, hn, heq, hf, hnow, (hmet ms hn).2 ms₁ begun f ms₂ heq hf hprompt⟩

/-- The same approval after a wait for the lock of the secret: its check runs past the deadline, and the request is
approved. -/
theorem deadline_missed :
    ∃ w d h ms ms₁ t f ms₂, World.Noted (StoreOp.txn 60) asked begun (fun _ => True) w
        ⟨inTime, begun, .pure (.approve (.approved 7)), d, h⟩ ms ∧
      ms = ms₁ ++ .wrote t f :: ms₂ ∧ inTime.ChecksDeadline begun f ∧ inTime.deadline = some dueBy ∧ ¬ t < dueBy := by
  obtain ⟨s, hs⟩ := exec_inTime
  obtain ⟨w, d, h, ms, hn, -, ms₁, f, ms₂, heq, hf⟩ :=
    @checked_late 60 asked asked _ begun begun dueBy tooLate (fun _ => True) [] inTime _ .init trivial rfl hs (by decide)
  exact ⟨w, d, h, ms, ms₁, tooLate, f, ms₂, hn, heq, hf, rfl, by decide⟩

end Keychute.Db
