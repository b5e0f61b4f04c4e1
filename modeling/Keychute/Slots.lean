import Keychute.Lib.Run
import Mathlib.Order.CompleteBooleanAlgebra
import Mathlib.Order.CompletePartialOrder

/-!
# Concurrency slots (`server/src/state.rs`)

* `tryTakeSlot`, `SlotGuard.drop` : a count for each client and kind of request, behind a mutex; a guard holds its slot
  until it is dropped;
* `SlotsOk` : the counts are those of the guards that live, and none is above its cap;
* `slots_exact` : over every interleaving of requests, a slot is refused exactly at the cap, whatever other clients and
  the other kind hold, every slot is freed once, and a client without a live guard has no entry left.
-/

namespace Keychute.State
open Keychute.Lib

/-! ## The functions of `state.rs` -/

inductive SlotKind where
  | wait
  | proxy
  deriving DecidableEq

structure SlotGuard where
  client : String
  which : SlotKind
  deriving DecidableEq

/-- `HashMap<String, usize>`. -/
abbrev Counts : Type := String → Option Nat

def Counts.put (counts : Counts) (client : String) (n : Option Nat) : Counts :=
  fun x => if x = client then n else counts x

structure Limits where
  maxWaitsPerClient : Nat
  maxProxyStreamsPerClient : Nat

def Limits.cap (limits : Limits) : SlotKind → Nat
  | .wait => limits.maxWaitsPerClient
  | .proxy => limits.maxProxyStreamsPerClient

/-- `Config::validate` asks that both be positive. -/
structure Limits.Valid (limits : Limits) : Prop where
  waits : limits.maxWaitsPerClient ≠ 0
  streams : limits.maxProxyStreamsPerClient ≠ 0

/-- The counts, and the guards that live. -/
structure Slots where
  waitCounts : Counts
  proxyCounts : Counts
  live : List SlotGuard

namespace Slots

def counts (s : Slots) : SlotKind → Counts
  | .wait => s.waitCounts
  | .proxy => s.proxyCounts

def setCounts (s : Slots) (which : SlotKind) (counts : Counts) : Slots :=
  match which with
  | .wait => { s with waitCounts := counts }
  | .proxy => { s with proxyCounts := counts }

/-- `entry(client).or_insert(0)`, and the slot unless the cap is reached. -/
def tryTakeSlot (limits : Limits) (client : String) (which : SlotKind) (s : Slots) : Slots × Option SlotGuard :=
  let n := (s.counts which client).getD 0
  if limits.cap which ≤ n then (s.setCounts which ((s.counts which).put client (some n)), none)
  else
    ({ s.setCounts which ((s.counts which).put client (some (n + 1))) with live := ⟨client, which⟩ :: s.live },
      some ⟨client, which⟩)

/-- The count goes down, saturating, and an entry at zero goes away. -/
def release (guard : SlotGuard) (s : Slots) : Slots :=
  match s.counts guard.which guard.client with
  | none => s
  | some n =>
    s.setCounts guard.which ((s.counts guard.which).put guard.client (if n - 1 = 0 then none else some (n - 1)))

/-- `Drop` runs once for each guard. -/
def drop (guard : SlotGuard) (s : Slots) : Slots :=
  if guard ∈ s.live then { s.release guard with live := s.live.erase guard } else s

inductive Action where
  | take (client : String) (which : SlotKind)
  | drop (guard : SlotGuard)
  deriving DecidableEq

def step (limits : Limits) (a : Action) (_ : Unit) (s : Slots) : Slots × Option SlotGuard :=
  match a with
  | .take client which => s.tryTakeSlot limits client which
  | .drop guard => (s.drop guard, none)

def init : Slots := ⟨fun _ => none, fun _ => none, []⟩

end Slots

/-! ## Every run -/

section
variable {limits : Limits} {s s' : Slots} {counts : Counts} {which which' : SlotKind} {client client' : String}
  {guard : SlotGuard} {n : Option Nat}

@[simp] theorem Counts.put_self : counts.put client n client = n := if_pos rfl

theorem Counts.put_of_ne (h : client' ≠ client) : counts.put client n client' = counts client' := if_neg h

theorem Slots.counts_setCounts (counts : Counts) (which' : SlotKind) :
    (s.setCounts which counts).counts which' = if which' = which then counts else s.counts which' := by
  cases which <;> cases which' <;> rfl

@[simp] theorem Slots.live_setCounts : (s.setCounts which counts).live = s.live := by
  cases which <;> rfl

/-- The count of a number of guards: none has no entry. -/
def entry (k : Nat) : Option Nat := if k = 0 then none else some k

theorem entry_of_ne {k : Nat} (h : k ≠ 0) : entry k = some k := if_neg h

theorem entry_eq_some {k n : Nat} : entry k = some n ↔ n = k ∧ 0 < k := by
  unfold entry
  split
  · rename_i h
    simp [h]
  · rename_i h
    simp only [Option.some.injEq]
    omega

theorem entry_getD (k : Nat) : (entry k).getD 0 = k := by
  unfold entry
  split
  · rename_i h
    rw [h]
    rfl
  · rfl

/-- The counts are those of the live guards, and within the caps. -/
structure SlotsOk (limits : Limits) (s : Slots) : Prop where
  counted : ∀ g : SlotGuard, s.counts g.which g.client = entry (s.live.count g)
  capped : ∀ g : SlotGuard, s.live.count g ≤ limits.cap g.which

theorem slotsOk_init (limits : Limits) : SlotsOk limits .init where
  counted g := by
    cases g with
    | mk client which => cases which <;> rfl
  capped g := Nat.zero_le _

/-- A write of one entry, with the guards it leaves. -/
theorem SlotsOk.write (guard : SlotGuard) (h : SlotsOk limits s) {live : List SlotGuard} (hlive : s'.live = live)
    (hcounts : ∀ which', s'.counts which' = if which' = guard.which then
      (s.counts guard.which).put guard.client (entry (live.count guard)) else s.counts which')
    (hother : ∀ g, g ≠ guard → live.count g = s.live.count g) (hcap : live.count guard ≤ limits.cap guard.which) :
    SlotsOk limits s' := by
  have hcount : ∀ g : SlotGuard, g ≠ guard → s'.counts g.which g.client = s.counts g.which g.client := by
    intro g hne
    rw [hcounts]
    split
    · rename_i hwhich
      rw [← hwhich]
      apply Counts.put_of_ne
      intro hclient
      cases g
      cases guard
      simp only at hwhich hclient
      exact hne (by rw [hwhich, hclient])
    · rfl
  constructor
  · intro g
    rw [hlive]
    rcases eq_or_ne g guard with rfl | hne
    · rw [hcounts, if_pos rfl, Counts.put_self]
    · rw [hcount g hne, h.counted g, hother g hne]
  · intro g
    rw [hlive]
    rcases eq_or_ne g guard with rfl | hne
    · exact hcap
    · rw [hother g hne]
      exact h.capped g

theorem SlotsOk.read (h : SlotsOk limits s) (g : SlotGuard) : (s.counts g.which g.client).getD 0 = s.live.count g := by
  rw [h.counted g, entry_getD]

/-- A slot is granted exactly below the cap. -/
theorem SlotsOk.reply (h : SlotsOk limits s) (g : SlotGuard) : (s.tryTakeSlot limits g.client g.which).2 =
    if s.live.count g < limits.cap g.which then some g else none := by
  unfold Slots.tryTakeSlot
  simp only [h.read g]
  split
  · rename_i hle
    rw [if_neg (Nat.not_lt.2 hle)]
  · rename_i hlt
    rw [if_pos (Nat.not_le.1 hlt)]

theorem SlotsOk.take (h : SlotsOk limits s) (hpos : 0 < limits.cap which) :
    SlotsOk limits (s.tryTakeSlot limits client which).1 := by
  unfold Slots.tryTakeSlot
  simp only [h.read ⟨client, which⟩]
  split
  · -- refused: the entry was there, since the cap is positive
    rename_i hle
    have hlive : s.live.count ⟨client, which⟩ ≠ 0 := by omega
    refine h.write ⟨client, which⟩ Slots.live_setCounts (fun which' => ?_) (fun _ _ => rfl) (h.capped _)
    rw [Slots.counts_setCounts, entry_of_ne hlive]
  · rename_i hlt
    refine h.write ⟨client, which⟩ rfl (fun which' => ?_) (fun g hne => ?_) ?_
    · show (s.setCounts which _).counts which' = _
      rw [Slots.counts_setCounts, List.count_cons_self, entry_of_ne (Nat.succ_ne_zero _)]
    · exact List.count_cons_of_ne (Ne.symm hne)
    · rw [List.count_cons_self]
      show _ ≤ limits.cap which
      omega

theorem SlotsOk.drop (h : SlotsOk limits s) : SlotsOk limits (s.drop guard) := by
  unfold Slots.drop
  split
  · rename_i hmem
    have hpos : 0 < s.live.count guard := List.count_pos_iff.2 hmem
    have hentry : s.counts guard.which guard.client = some (s.live.count guard) := by
      rw [h.counted, entry_of_ne hpos.ne']
    unfold Slots.release
    simp only [hentry]
    refine h.write guard rfl (fun which' => ?_) (fun g hne => ?_) ?_
    · show (s.setCounts guard.which _).counts which' = _
      rw [Slots.counts_setCounts, List.count_erase_self, entry]
    · exact List.count_erase_of_ne hne
    · rw [List.count_erase_self]
      have := h.capped guard
      omega
  · exact h

theorem Limits.Valid.cap_pos (h : limits.Valid) (which : SlotKind) : 0 < limits.cap which := by
  cases which with
  | wait => exact Nat.pos_of_ne_zero h.waits
  | proxy => exact Nat.pos_of_ne_zero h.streams

theorem SlotsOk.step (hvalid : limits.Valid) (h : SlotsOk limits s) (a : Slots.Action) (now : Unit) :
    SlotsOk limits (Slots.step limits a now s).1 := by
  cases a with
  | take client which => exact h.take (hvalid.cap_pos which)
  | drop guard => exact h.drop

/-- A call that gave the guard out. -/
def grants (g : SlotGuard) (e : Event Slots.Action Unit Slots (Option SlotGuard)) : Bool := e.reply == some g

/-- A call that dropped one that lived. -/
def frees (g : SlotGuard) (e : Event Slots.Action Unit Slots (Option SlotGuard)) : Bool :=
  e.op == .drop g && e.before.live.contains g

theorem live_take (g : SlotGuard) : (s.tryTakeSlot limits client which).1.live.count g =
    s.live.count g + if (s.tryTakeSlot limits client which).2 == some g then 1 else 0 := by
  unfold Slots.tryTakeSlot
  simp only
  split
  · simp
  · by_cases hg : (⟨client, which⟩ : SlotGuard) = g
    · simp [hg]
    · simp [hg, List.count_cons_of_ne hg]

theorem live_drop (g : SlotGuard) : ((s.drop guard).live.count g +
    if Slots.Action.drop guard == .drop g && s.live.contains g then 1 else 0) = s.live.count g := by
  unfold Slots.drop
  by_cases hg : guard = g
  · subst hg
    by_cases hmem : guard ∈ s.live
    · have hpos : 0 < s.live.count guard := List.count_pos_iff.2 hmem
      simp [hmem, List.count_erase_self, Nat.sub_add_cancel hpos]
    · simp [hmem]
  · split
    · simp [hg, List.count_erase_of_ne (Ne.symm hg)]
    · simp [hg]

/-- Every slot that was given out is held or was freed, once. -/
theorem live_step (g : SlotGuard) (a : Slots.Action) (now : Unit) :
    ((Slots.step limits a now s).1.live.count g + if frees g (callEvent (Slots.step limits) a now s) then 1 else 0) =
      s.live.count g + if grants g (callEvent (Slots.step limits) a now s) then 1 else 0 := by
  cases a with
  | take client which => exact live_take g
  | drop guard => exact live_drop g

variable {es : List (Event Slots.Action Unit Slots (Option SlotGuard))} {t : Unit}

/-- The invariant of every run. -/
structure RunOk (limits : Limits) (es : List (Event Slots.Action Unit Slots (Option SlotGuard))) (s : Slots)
    (_ : Unit) : Prop where
  slots : SlotsOk limits s
  accounted : ∀ g, s.live.count g + es.countP (frees g) = es.countP (grants g)

theorem runOk_init (limits : Limits) : RunOk limits [] .init () := ⟨slotsOk_init limits, fun _ => rfl⟩

theorem RunOk.step (hvalid : limits.Valid) (h : RunOk limits es s t) (a : Slots.Action) (now : Unit) :
    RunOk limits (es ++ [callEvent (Slots.step limits) a now s]) (Slots.step limits a now s).1 now where
  slots := h.slots.step hvalid a now
  accounted g := by
    have hstep := @live_step limits s g a now
    have haccounted := h.accounted g
    rw [List.countP_append, List.countP_append, List.countP_singleton, List.countP_singleton]
    omega

theorem runOk (hvalid : limits.Valid) (h : Run (Slots.step limits) .init () es s t) : RunOk limits es s t :=
  h.invariant (runOk_init limits) fun _ _ _ a now _ _ hok => hok.step hvalid a now

/-- Over every interleaving of requests that start and end: a client never holds more slots of a kind than its cap; the
map has an entry exactly for those who hold one; a slot is refused exactly at the cap, whatever the other clients and
the other kind do; and every slot given out is held or was freed. -/
theorem slots_exact (hvalid : limits.Valid) (h : Run (Slots.step limits) .init () es s t) (g : SlotGuard) :
    s.live.count g ≤ limits.cap g.which ∧
    (∀ n, s.counts g.which g.client = some n ↔ n = s.live.count g ∧ g ∈ s.live) ∧
    (∀ e ∈ es, e.op = .take g.client g.which →
      e.reply = if e.before.live.count g < limits.cap g.which then some g else none) ∧
    s.live.count g + es.countP (frees g) = es.countP (grants g) := by
  have hok := runOk hvalid h
  refine ⟨hok.slots.capped g, fun n => ?_, fun e he hop => ?_, hok.accounted g⟩
  · rw [hok.slots.counted g, ← List.count_pos_iff]
    exact entry_eq_some
  · obtain ⟨es₁, t₁, hrun, -, -, hev⟩ := h.forall_event he
    rw [hev, hop]
    exact (runOk hvalid hrun).slots.reply g

end

/-! ### A cap of one -/

def oneEach : Limits := ⟨1, 1⟩

/-- The second stream of `ci` is refused, not its wait, and not the stream after the first has ended. -/
def streams : List (Slots.Action × Unit) :=
  [(.take "ci" .proxy, ()), (.take "ci" .proxy, ()), (.take "ci" .wait, ()), (.drop ⟨"ci", .proxy⟩, ()),
    (.take "ci" .proxy, ())]

theorem oneEach_valid : oneEach.Valid := ⟨Nat.one_ne_zero, Nat.one_ne_zero⟩

theorem slots_exact_refused :
    (play (Slots.step oneEach) .init streams).map (·.reply) =
        [some ⟨"ci", .proxy⟩, none, some ⟨"ci", .wait⟩, none, some ⟨"ci", .proxy⟩] ∧
      (playEnd (Slots.step oneEach) .init streams).live.count ⟨"ci", .proxy⟩ ≤ 1 ∧
      (playEnd (Slots.step oneEach) .init streams).live.count ⟨"ci", .proxy⟩ +
        (play (Slots.step oneEach) .init streams).countP (frees ⟨"ci", .proxy⟩) =
          (play (Slots.step oneEach) .init streams).countP (grants ⟨"ci", .proxy⟩) := by
  have hrun := run_play (Slots.step oneEach) .init () streams (by decide)
  obtain ⟨hcap, -, -, haccounted⟩ := slots_exact oneEach_valid hrun ⟨"ci", .proxy⟩
  exact ⟨by decide, hcap, haccounted⟩

end Keychute.State
