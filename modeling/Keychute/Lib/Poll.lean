import Mathlib.Data.List.Basic
import Mathlib.Tactic.Common

/-!
# Loops that ask again

A loop asks until an answer settles it, and gives up after `max` failures in a row. `poll` is its result on the answers
so far, `failing` the failures that the answers so far end in. An answer settles the loop or it does not, so a result
comes from one answer and the ones before it (`poll_eq_some_iff`), and no later answer changes it (`poll_append`).
-/

namespace Keychute.Lib

/-- What one answer means. -/
inductive Verdict (ρ : Type) where
  | done (r : ρ)
  /-- Nothing yet, and nothing wrong. -/
  | again
  | failed (why : String)

section
variable {X ρ : Type} (max : Nat) (giveUp : String → ρ) (judge : X → Verdict ρ)

def poll : Nat → List X → Option ρ
  | _, [] => none
  | n, x :: xs =>
    match judge x with
    | .done r => some r
    | .again => poll 0 xs
    | .failed why => if max ≤ n + 1 then some (giveUp why) else poll (n + 1) xs

/-- The failures in a row at the end, where the loop still asks. -/
def failing : Nat → List X → Option Nat
  | n, [] => some n
  | n, x :: xs =>
    match judge x with
    | .done _ => none
    | .again => failing 0 xs
    | .failed _ => if max ≤ n + 1 then none else failing (n + 1) xs

variable {max giveUp judge} {n m : Nat} {x : X} {xs ys : List X} {r : ρ} {why : String}

theorem poll_done (h : judge x = .done r) : poll max giveUp judge n (x :: xs) = some r := by
  rw [poll, h]

theorem poll_again (h : judge x = .again) : poll max giveUp judge n (x :: xs) = poll max giveUp judge 0 xs := by
  rw [poll, h]

theorem poll_failed (h : judge x = .failed why) : poll max giveUp judge n (x :: xs) =
    if max ≤ n + 1 then some (giveUp why) else poll max giveUp judge (n + 1) xs := by
  rw [poll, h]

theorem failing_done (h : judge x = .done r) : failing max judge n (x :: xs) = none := by
  rw [failing, h]

theorem failing_again (h : judge x = .again) : failing max judge n (x :: xs) = failing max judge 0 xs := by
  rw [failing, h]

theorem failing_failed (h : judge x = .failed why) :
    failing max judge n (x :: xs) = if max ≤ n + 1 then none else failing max judge (n + 1) xs := by
  rw [failing, h]

/-- The loop goes on where it left off. -/
theorem poll_append (h : failing max judge n xs = some m) :
    poll max giveUp judge n (xs ++ ys) = poll max giveUp judge m ys := by
  induction xs generalizing n with
  | nil =>
      cases h
      rfl
  | cons x xs ih =>
      rw [List.cons_append]
      cases hx : judge x with
      | done r =>
          rw [failing_done hx] at h
          cases h
      | again =>
          rw [failing_again hx] at h
          rw [poll_again hx, ih h]
      | failed why =>
          rw [failing_failed hx] at h
          rw [poll_failed hx]
          split at h
          · cases h
          · rename_i hlt
            rw [if_neg hlt, ih h]

/-- A loop with a result asks no more, and one without asks on. -/
theorem poll_eq_none_iff : poll max giveUp judge n xs = none ↔ (failing max judge n xs).isSome = true := by
  induction xs generalizing n with
  | nil => simp [poll, failing]
  | cons x xs ih =>
      cases hx : judge x with
      | done r => simp [poll_done hx, failing_done hx]
      | again => rw [poll_again hx, failing_again hx, ih]
      | failed why =>
          rw [poll_failed hx, failing_failed hx]
          split
          · simp
          · exact ih

/-- A result comes from one answer: it settled the loop, or was the failure after which it gave up. -/
theorem poll_eq_some_iff : poll max giveUp judge n xs = some r ↔ ∃ pre x post m, xs = pre ++ x :: post ∧
    failing max judge n pre = some m ∧
      (judge x = .done r ∨ ∃ why, judge x = .failed why ∧ max ≤ m + 1 ∧ r = giveUp why) := by
  constructor
  · intro h
    induction xs generalizing n with
    | nil => cases h
    | cons x xs ih =>
        cases hx : judge x with
        | done r' =>
            rw [poll_done hx] at h
            obtain rfl := Option.some.inj h
            exact ⟨[], x, xs, n, rfl, rfl, Or.inl hx⟩
        | again =>
            rw [poll_again hx] at h
            obtain ⟨pre, y, post, m, rfl, hpre, hy⟩ := ih h
            exact ⟨x :: pre, y, post, m, rfl, by rw [failing_again hx, hpre], hy⟩
        | failed why =>
            rw [poll_failed hx] at h
            split at h
            · rename_i hle
              obtain rfl := Option.some.inj h
              exact ⟨[], x, xs, n, rfl, rfl, Or.inr ⟨why, hx, hle, rfl⟩⟩
            · rename_i hlt
              obtain ⟨pre, y, post, m, rfl, hpre, hy⟩ := ih h
              exact ⟨x :: pre, y, post, m, rfl, by rw [failing_failed hx, if_neg hlt, hpre], hy⟩
  · rintro ⟨pre, x, post, m, rfl, hpre, hx⟩
    rw [poll_append hpre]
    rcases hx with hx | ⟨why, hx, hle, rfl⟩
    · exact poll_done hx
    · rw [poll_failed hx, if_pos hle]

/-- A result was settled by an answer, or is what giving up leaves. -/
theorem poll_cause (h : poll max giveUp judge n xs = some r) :
    (∃ x ∈ xs, judge x = .done r) ∨ ∃ why, r = giveUp why := by
  obtain ⟨pre, x, post, m, rfl, -, hx | ⟨why, -, -, hr⟩⟩ := poll_eq_some_iff.1 h
  · exact Or.inl ⟨x, List.mem_append_right _ List.mem_cons_self, hx⟩
  · exact Or.inr ⟨why, hr⟩

/-- Where every answer settles the loop or fails, it asks at most `max` times. -/
theorem failing_length (h : failing max judge n xs = some m) (hagain : ∀ x ∈ xs, judge x ≠ .again) :
    m = n + xs.length ∧ (xs ≠ [] → m < max) := by
  induction xs generalizing n with
  | nil =>
      cases h
      exact ⟨rfl, fun hne => absurd rfl hne⟩
  | cons x xs ih =>
      rw [List.forall_mem_cons] at hagain
      cases hx : judge x with
      | done r =>
          rw [failing_done hx] at h
          cases h
      | again => exact absurd hx hagain.1
      | failed why =>
          rw [failing_failed hx] at h
          split at h
          · cases h
          · rename_i hlt
            obtain ⟨hm, hmax⟩ := ih h hagain.2
            refine ⟨by rw [hm, List.length_cons]; omega, fun _ => ?_⟩
            cases xs with
            | nil =>
                rw [hm, List.length_nil]
                omega
            | cons y ys => exact hmax (List.cons_ne_nil y ys)

end

end Keychute.Lib
