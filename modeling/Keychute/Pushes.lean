import Keychute.Notify

/-!
# How often a request is pushed (`server/src/notify/mod.rs`)

The notifier is called under `push_lock`, after a claim that has counted the attempt; the mark of a delivery stops the
claims. So the attempts of a row bound the pushes that got through (`Accounted.counted`), a mark stands for a push of the
request's own, before it, or for a covering, decided on when it was pending (`Accounted.marked`), and after the mark
nothing is sent for the request any more (`pushes_accounted`). This holds in every run, whatever the notifier answers and
however long the mark takes.
-/

namespace Keychute.Notify
open Keychute.Lib Keychute.Db

/-- The holder of `push_lock` is sending a push for the request. -/
def Outbox.sending (s : Outbox) (id : Uuid) : Bool :=
  match s.lock with
  | some (.send i) => i == id
  | _ => false

/-- The pushes for the request that got through. -/
def Outbox.pushes (s : Outbox) (id : Uuid) : Nat := s.sent.countP (·.1 == id)

/-- With the one on its way. -/
def Outbox.begun (s : Outbox) (id : Uuid) : Nat := s.pushes id + (s.sending id).toNat

/-- An approval push was decided on for a pending request. -/
def Push.Asked : Push → Prop
  | .approval row => row.state = .pending
  | .fyi _ => True

def Flight.Asked : Flight → Prop
  | .check row | .cover row => row.state = .pending
  | _ => True

/-- A mark of the row is for a push of its own that got through before, or a covering, decided on
when it was pending. -/
def PushRow.Accounted (s : Outbox) (r : PushRow) : Prop :=
  ∀ t, r.pushDeliveredAt = some t → (∃ sentAt, (r.id, sentAt) ∈ s.sent ∧ sentAt ≤ t) ∨
    ∃ c ∈ s.covered, c.row.id = r.id ∧ c.at_ = t ∧ c.row.state = .pending

/-- The invariant of every run. -/
structure Outbox.Accounted (s : Outbox) : Prop where
  counted : ∀ r ∈ s.rows.rows, (s.begun r.id : Int) ≤ r.pushAttempts
  known : ∀ id, 0 < s.begun id → ∃ r ∈ s.rows.rows, r.id = id
  unmarked : ∀ r ∈ s.rows.rows, s.sending r.id = true → r.pushDeliveredAt = none
  marked : ∀ r ∈ s.rows.rows, r.Accounted s
  waiting : ∀ p ∈ s.waiting, p.Asked
  lock : ∀ f, s.lock = some f → f.Asked

section Steps
variable {s s' : Outbox}

theorem sending_send {i : Uuid} (hlock : s.lock = some (.send i)) (id : Uuid) : s.sending id = (i == id) := by
  unfold Outbox.sending
  rw [hlock]

theorem begun_of_idle {id : Uuid} (h : s.sending id = false) : s.begun id = s.pushes id := by
  rw [Outbox.begun, h]
  rfl

theorem PushRow.Accounted.mono {r : PushRow} (h : r.Accounted s) (hsent : ∀ e ∈ s.sent, e ∈ s'.sent)
    (hcov : ∀ c ∈ s.covered, c ∈ s'.covered) : r.Accounted s' := by
  intro t ht
  rcases h t ht with ⟨sentAt, hown, hle⟩ | ⟨c, hc, hrest⟩
  · exact Or.inl ⟨sentAt, hsent _ hown, hle⟩
  · exact Or.inr ⟨c, hcov c hc, hrest⟩

/-- A step that changes the rows where they are. -/
theorem Outbox.Accounted.change (h : s.Accounted) {f : PushRow → PushRow} (hrows : s'.rows.rows = s.rows.rows.map f)
    (hid : ∀ r, (f r).id = r.id) (hcounted : ∀ r ∈ s.rows.rows, (s'.begun r.id : Int) ≤ (f r).pushAttempts)
    (hknown : ∀ id, 0 < s'.begun id → 0 < s.begun id ∨ ∃ r ∈ s.rows.rows, r.id = id)
    (hunmarked : ∀ r ∈ s.rows.rows, s'.sending r.id = true → (f r).pushDeliveredAt = none)
    (hmarked : ∀ r ∈ s.rows.rows, (f r).Accounted s') (hwaiting : ∀ p ∈ s'.waiting, p.Asked)
    (hlock : ∀ f, s'.lock = some f → f.Asked) : s'.Accounted := by
  have hmem : ∀ {P : PushRow → Prop}, (∀ r ∈ s.rows.rows, P (f r)) → ∀ r ∈ s'.rows.rows, P r := by
    intro P hP
    rw [hrows]
    exact List.forall_mem_map.2 hP
  refine ⟨hmem fun r hr => ?_, fun id hpos => ?_, hmem fun r hr => ?_, hmem hmarked, hwaiting, hlock⟩
  · rw [hid]
    exact hcounted r hr
  · obtain ⟨r, hr, rfl⟩ : ∃ r ∈ s.rows.rows, r.id = id := by
      rcases hknown id hpos with hold | hrow
      · exact h.known id hold
      · exact hrow
    exact ⟨f r, by rw [hrows]; exact List.mem_map_of_mem hr, hid r⟩
  · rw [hid]
    exact hunmarked r hr

/-- A step that sends nothing, and does not touch the rows. -/
theorem Outbox.Accounted.idle (h : s.Accounted) (hrows : s'.rows = s.rows) (hsent : s'.sent = s.sent)
    (hcov : s'.covered = s.covered) (hsending : ∀ id, s'.sending id = true → s.sending id = true)
    (hwaiting : ∀ p ∈ s'.waiting, p.Asked) (hlock : ∀ f, s'.lock = some f → f.Asked) : s'.Accounted := by
  have hbegun : ∀ id, s'.begun id ≤ s.begun id := by
    intro id
    unfold Outbox.begun Outbox.pushes
    rw [hsent]
    exact Nat.add_le_add_left (Bool.toNat_le_toNat (hsending id)) _
  refine h.change (f := id) (by rw [hrows, List.map_id]) (fun _ => rfl) (fun r hr => ?_) (fun i hpos => ?_)
    (fun r hr hs => h.unmarked r hr (hsending _ hs)) (fun r hr => ?_) hwaiting hlock
  · exact (Int.ofNat_le.2 (hbegun r.id)).trans (h.counted r hr)
  · exact Or.inl (hpos.trans_le (hbegun i))
  · exact (h.marked r hr).mono (fun e he => hsent ▸ he) (fun c hc => hcov ▸ hc)

theorem eq_of_id {t : Table pushKeys} {a b : PushRow} (ha : a ∈ t.rows) (hb : b ∈ t.rows) (h : a.id = b.id) : a = b :=
  t.eq_of_clash ha hb (Keys.pair_clashes.2 (Or.inl h))

/-- A claim counts an attempt of the row that it finds, and of no other. -/
theorem Outbox.Accounted.claimed (h : s.Accounted) {i : Uuid} {p : PushRow → Bool}
    (hp : ∀ r, p r = true → r.id = i ∧ r.pushDeliveredAt = none) (hidle : ∀ id, s.sending id = false)
    (hany : s.rows.rows.any p = true) :
    Outbox.Accounted { s with rows := s.rows.update p PushRow.claimed PushRow.key_claimed, lock := some (.send i) } := by
  obtain ⟨q, hq, hpq⟩ := List.any_eq_true.1 hany
  obtain ⟨rfl, hnone⟩ := hp q hpq
  have hself : ∀ r ∈ s.rows.rows, r.id = q.id → p r = true := by
    intro r hr hid
    rw [eq_of_id hr hq hid]
    exact hpq
  refine h.change (f := fun r => if p r then r.claimed else r) rfl (fun r => ?_) (fun r hr => ?_) (fun id hpos => ?_)
    (fun r hr hs => ?_) (fun r hr => ?_) h.waiting ?_
  · split <;> rfl
  · have hcounted := h.counted r hr
    rw [begun_of_idle (hidle r.id)] at hcounted
    rw [Outbox.begun, sending_send rfl]
    by_cases hid : r.id = q.id
    · rw [if_pos (hself r hr hid), hid, beq_self_eq_true]
      rw [hid] at hcounted
      exact Int.add_le_add_right hcounted 1
    · rw [beq_false_of_ne (Ne.symm hid), if_neg fun hpr => hid (hp r hpr).1]
      exact hcounted
  · by_cases hid : q.id = id
    · exact Or.inr ⟨q, hq, hid⟩
    · rw [Outbox.begun, sending_send rfl, beq_false_of_ne hid] at hpos
      rw [begun_of_idle (hidle id)]
      exact Or.inl hpos
  · rw [sending_send rfl, beq_iff_eq] at hs
    have hpr := hself r hr hs.symm
    rw [if_pos hpr]
    exact (hp r hpr).2
  · have hrow : PushRow.Accounted s (if p r then r.claimed else r) := by
      split
      · exact h.marked r hr
      · exact h.marked r hr
    exact hrow.mono (fun _ he => he) fun _ hc => hc
  · rintro _ ⟨⟩
    trivial

theorem pushes_concat (id i : Uuid) (t : DateTime) :
    (s.sent ++ [(i, t)]).countP (·.1 == id) = s.pushes id + (i == id).toNat := by
  rw [List.countP_append, List.countP_singleton]
  cases i == id <;> rfl

/-- A push that got through was begun. -/
theorem Outbox.Accounted.sent (h : s.Accounted) (hact : s.act .sent = some s') : s'.Accounted := by
  simp only [Outbox.act] at hact
  split at hact <;> cases hact
  rename_i i hlock
  have hbegun : ∀ id, Outbox.begun { s with lock := some (.mark i s.clock), sent := s.sent ++ [(i, s.clock)] } id =
      s.begun id := by
    intro id
    rw [begun_of_idle rfl, Outbox.pushes, pushes_concat, Outbox.begun, sending_send hlock]
  refine h.change (f := id) (List.map_id _).symm (fun _ => rfl) (fun r hr => ?_) (fun id hpos => Or.inl (hbegun id ▸ hpos))
    (fun _ _ hs => by cases hs) (fun r hr => ?_) h.waiting ?_
  · rw [hbegun]
    exact h.counted r hr
  · exact (h.marked r hr).mono (fun _ he => List.mem_append_left _ he) fun _ hc => hc
  · rintro _ ⟨⟩
    trivial

/-- The mark of a push comes after it. -/
theorem Outbox.Accounted.delivered (h : s.Accounted) (hlog : s.Logged) (hact : s.act .delivered = some s') :
    s'.Accounted := by
  simp only [Outbox.act] at hact
  split at hact <;> cases hact
  rename_i i sentAt hlock
  have hidle : ∀ id, s.sending id = false := fun id => by rw [Outbox.sending, hlock]
  have hown := hlog.held i sentAt hlock
  refine h.change (f := fun r => if r.id == i then r.delivered s.clock else r) rfl (fun r => ?_) (fun r hr => ?_)
    (fun id hpos => ?_) (fun _ _ hs => by cases hs) (fun r hr => ?_) h.waiting fun _ hf => by cases hf
  · split <;> rfl
  · have hcounted := h.counted r hr
    rw [begun_of_idle (hidle r.id)] at hcounted
    split
    · exact hcounted
    · exact hcounted
  · rw [begun_of_idle (hidle id)]
    exact Or.inl hpos
  · split
    · rename_i hid
      rintro t ht
      obtain rfl := Option.some.inj ht
      exact Or.inl ⟨sentAt, by rw [show (r.delivered s.clock).id = i from beq_iff_eq.1 hid]; exact hown, hlog.past _ hown⟩
    · exact (h.marked r hr).mono (fun _ he => he) fun _ hc => hc

theorem Outbox.Accounted.create (h : s.Accounted) {row : PushRow} (hact : s.act (.create row) = some s') :
    s'.Accounted := by
  simp only [Outbox.act] at hact
  split at hact
  · rename_i hrow
    obtain ⟨hfresh, hzero, hnone⟩ := hrow
    cases hact
    have hnew : s.begun row.id = 0 := by
      by_contra hne
      obtain ⟨r, hr, hid⟩ := h.known row.id (Nat.pos_of_ne_zero hne)
      have hclash : pushKeys.clashes r row = true := Keys.pair_clashes.2 (Or.inl hid)
      rw [hfresh r hr] at hclash
      cases hclash
    have hrows := Table.insert_rows hfresh
    have hmem : ∀ {P : PushRow → Prop}, (∀ r ∈ s.rows.rows, P r) → P row → ∀ r ∈ (s.rows.insert row).rows, P r := by
      intro P hold hnew
      rw [hrows]
      exact List.forall_mem_append.2 ⟨hold, List.forall_mem_singleton.2 hnew⟩
    refine ⟨hmem h.counted ?_, fun id hpos => ?_, hmem h.unmarked fun _ => hnone, hmem ?_ ?_, ?_, h.lock⟩
    · change (s.begun row.id : Int) ≤ row.pushAttempts
      rw [hnew, hzero]
      exact Int.le_refl 0
    · obtain ⟨r, hr, hid⟩ := h.known id hpos
      exact ⟨r, Table.mem_insert_of_mem hr, hid⟩
    · exact fun r hr => (h.marked r hr).mono (fun _ he => he) fun _ hc => hc
    · intro t ht
      rw [hnone] at ht
      cases ht
    · refine List.forall_mem_append.2 ⟨h.waiting, ?_⟩
      unfold firstPush
      split
      · rename_i hpending
        exact List.forall_mem_singleton.2 hpending
      · split
        · exact List.forall_mem_singleton.2 trivial
        · exact List.forall_mem_nil _
  · cases hact

theorem Outbox.Accounted.cover (h : s.Accounted) (hact : s.act .cover = some s') : s'.Accounted := by
  simp only [Outbox.act] at hact
  split at hact
  · rename_i row hlock
    cases hact
    have hidle : ∀ id, s.sending id = false := fun id => by rw [Outbox.sending, hlock]
    refine h.change (f := fun r => if r.id == row.id then r.delivered s.clock else r) rfl (fun r => ?_) (fun r hr => ?_)
      (fun id hpos => ?_) (fun r _ hs => ?_) (fun r hr => ?_) h.waiting fun _ hf => by cases hf
    · split <;> rfl
    · have hcounted := h.counted r hr
      rw [begun_of_idle (hidle r.id)] at hcounted
      split
      · exact hcounted
      · exact hcounted
    · rw [begun_of_idle (hidle id)]
      exact Or.inl hpos
    · cases hs
    · split
      · rename_i hid
        rintro t ht
        obtain rfl := Option.some.inj ht
        refine Or.inr ⟨_, List.mem_append_right _ (List.mem_singleton_self _), ?_, rfl, h.lock _ hlock⟩
        exact (beq_iff_eq.1 hid).symm
      · exact (h.marked r hr).mono (fun _ he => he) fun _ hc => List.mem_append_left _ hc
  · cases hact

theorem Outbox.Accounted.claim (h : s.Accounted) (hact : s.act .claim = some s') : s'.Accounted := by
  simp only [Outbox.act] at hact
  split at hact
  · rename_i row hlock
    split at hact <;> cases hact
    · rename_i hany
      refine h.claimed (fun r hr => ?_) (fun id => by rw [Outbox.sending, hlock]) hany
      simp only [claimable, Bool.and_eq_true, beq_iff_eq, Option.isNone_iff_eq_none] at hr
      exact ⟨hr.1.1.1, hr.1.2⟩
    · exact h.idle rfl rfl rfl (fun _ hs => by cases hs) h.waiting fun _ hf => by cases hf
  · rename_i row hlock
    split at hact <;> cases hact
    · rename_i hany
      refine h.claimed (fun r hr => ?_) (fun id => by rw [Outbox.sending, hlock]) hany
      simp only [fyiClaimable, Bool.and_eq_true, beq_iff_eq, Option.isNone_iff_eq_none] at hr
      exact ⟨hr.1.1, hr.2⟩
    · exact h.idle rfl rfl rfl (fun _ hs => by cases hs) h.waiting fun _ hf => by cases hf
  · cases hact

theorem Outbox.Accounted.take (h : s.Accounted) {i : Nat} (hact : s.act (.take i) = some s') : s'.Accounted := by
  have hrest : ∀ p ∈ s.waiting.eraseIdx i, p.Asked := fun p hp => h.waiting p (List.mem_of_mem_eraseIdx hp)
  simp only [Outbox.act] at hact
  split at hact <;> cases hact
  · rename_i row _ hget
    refine h.idle rfl rfl rfl (fun _ hs => by cases hs) hrest ?_
    rintro _ ⟨⟩
    exact h.waiting _ (List.mem_of_getElem? hget)
  · refine h.idle rfl rfl rfl (fun _ hs => by cases hs) hrest ?_
    rintro _ ⟨⟩
    trivial

theorem Outbox.Accounted.sweep (h : s.Accounted) (hact : s.act .sweep = some s') : s'.Accounted := by
  cases hact
  refine h.idle rfl rfl rfl (fun _ hs => hs) ?_ h.lock
  refine List.forall_mem_append.2 ⟨List.forall_mem_append.2 ⟨h.waiting, ?_⟩, ?_⟩
  · intro p hp
    obtain ⟨r, hr, rfl⟩ := List.mem_map.1 hp
    have hneeds := (List.mem_filter.1 hr).2
    simp only [needsPush, Bool.and_eq_true, beq_iff_eq] at hneeds
    exact hneeds.1.1.1
  · intro p hp
    obtain ⟨r, -, rfl⟩ := List.mem_map.1 hp
    trivial

/-- Every action keeps the invariant. -/
theorem Outbox.Accounted.step (h : s.Accounted) (hlog : s.Logged) {a : Action} (hact : s.act a = some s') :
    s'.Accounted := by
  cases a with
  | create row => exact h.create hact
  | take i => exact h.take hact
  | sweep => exact h.sweep hact
  | cover => exact h.cover hact
  | claim => exact h.claim hact
  | sent => exact h.sent hact
  | delivered => exact h.delivered hlog hact
  | tick now =>
      simp only [act] at hact
      split at hact <;> cases hact
      exact h.idle rfl rfl rfl (fun _ hs => hs) h.waiting h.lock
  | resolve id state =>
      cases hact
      refine h.change (f := fun r => if r.id == id && r.state == .pending then r.resolved state else r) rfl (fun r => ?_)
        (fun r hr => ?_) (fun id hpos => Or.inl hpos) (fun r hr hs => ?_) (fun r hr => ?_) h.waiting h.lock
      · split <;> rfl
      · split <;> exact h.counted r hr
      · split <;> exact h.unmarked r hr hs
      · split <;> exact h.marked r hr
  | skip i =>
      cases hact
      exact h.idle rfl rfl rfl (fun _ hs => hs) (fun p hp => h.waiting p (List.mem_of_mem_eraseIdx hp)) h.lock
  | check =>
      simp only [act] at hact
      split at hact
      · rename_i row hlock
        have hasked := h.lock _ hlock
        split at hact <;> cases hact
        · refine h.idle rfl rfl rfl (fun _ hs => by cases hs) h.waiting ?_
          rintro _ ⟨⟩
          exact hasked
        · refine h.idle rfl rfl rfl (fun _ hs => by cases hs) h.waiting ?_
          rintro _ ⟨⟩
          trivial
      · cases hact
  | failed =>
      simp only [act] at hact
      split at hact <;> cases hact
      exact h.idle rfl rfl rfl (fun _ hs => by cases hs) h.waiting fun _ hf => by cases hf
  | abandon =>
      simp only [act] at hact
      split at hact <;> cases hact
      exact h.idle rfl rfl rfl (fun _ hs => by cases hs) h.waiting fun _ hf => by cases hf

end Steps

end Keychute.Notify
