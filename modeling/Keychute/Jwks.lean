import Mathlib.Data.List.Basic
import Mathlib.Data.List.Pairwise
import Mathlib.Algebra.Order.Ring.Int
import Mathlib.Tactic.Common
import Mathlib.Tactic.Cases

/-!
# The operator's signing keys (`server/src/authn/human.rs`)

* `jwkForKid` : one lookup under the cache mutex: consult the entry of the URL, fetch if the entry says so
  (`jwkForKid_cases`: what it can do);
* `Calls` : a run of lookups on one URL, on a clock that never goes back, with the outcome of each;
* `jwks_ceilings` : no lookup of a run returns a key past the ceilings, or one that the latest document does not hold,
  and no two fetches of a run start too close to one another.
-/

namespace Keychute.Authn

/-! ## The functions of `human.rs` -/

/-- `JWKS_MIN_REFRESH`, `JWKS_MAX_AGE` and `JWKS_STALE_IF_ERROR_MAX`, in nanoseconds like every instant here. -/
def jwksMinRefresh : Nat := 10 * 10 ^ 9
def jwksMaxAge : Nat := 10 * 60 * 10 ^ 9
def jwksStaleIfErrorMax : Nat := 60 * 60 * 10 ^ 9

/-- A fetched document: keys, most of them with an id. -/
abbrev JwkSet (Jwk : Type) : Type := List (Option String × Jwk)

/-- The map that `fetch_jwks` collects: of two keys with one id the later counts, and a key without id is dropped. -/
def keyMap {Jwk : Type} (set : JwkSet Jwk) (kid : String) : Option Jwk :=
  (set.reverse.find? (·.1 == some kid)).map (·.2)

structure CachedJwks (Jwk : Type) where
  keys : String → Option Jwk
  /-- When the cached document was last successfully fetched. -/
  fetchedAt : Nat
  /-- When a fetch was last attempted, successful or not. -/
  lastAttempt : Nat

inductive CacheAction where
  | serve | refresh | rateLimited

/-- The cache-expiry decision, on `(kid_is_present, age_of_the_cached_document, time_since_last_attempt)`. -/
def cacheAction : Option (Bool × Nat × Nat) → CacheAction
  | none => .refresh
  | some (hasKid, age, attemptAge) =>
    if hasKid && decide (age < jwksMaxAge) then .serve
    else if attemptAge < jwksMinRefresh then .rateLimited
    else .refresh

/-- A lookup: the id asked for, each reading of the clock, and what a fetch would give. -/
structure JwksCall (Jwk : Type) where
  kid : String
  /-- `fetched_at.elapsed()`, of the grace. -/
  consulted : Nat
  /-- `fetched_at.elapsed()`, of the age. -/
  aged : Nat
  /-- `last_attempt.elapsed()`. -/
  attempted : Nat
  started : Nat
  /-- `Instant::now()` after the fetch. -/
  finished : Nat
  fetched : Option (JwkSet Jwk)

/-- The entry a lookup leaves, whether it fetched, and the key it returns. -/
structure JwksAnswer (Jwk : Type) where
  entry : Option (CachedJwks Jwk)
  fetches : Bool
  key : Option Jwk

variable {Jwk : Type}

/-- The entry that a first failure creates. -/
def placeholder (now : Nat) : CachedJwks Jwk := ⟨fun _ => none, now, now⟩

/-- Get the key of `kid`, refreshing the cache when the id is unknown or the document has aged. -/
def jwkForKid (entry : Option (CachedJwks Jwk)) (c : JwksCall Jwk) : JwksAnswer Jwk :=
  let staleHit := entry.bind (·.keys c.kid)
  let withinStaleGrace := (entry.map fun e => decide (c.consulted - e.fetchedAt < jwksStaleIfErrorMax)).getD false
  match cacheAction (entry.map fun e => (staleHit.isSome, c.aged - e.fetchedAt, c.attempted - e.lastAttempt)) with
  | .serve => ⟨entry, false, staleHit⟩
  | .rateLimited => ⟨entry, false, staleHit.filter fun _ => withinStaleGrace⟩
  | .refresh =>
    match c.fetched with
    | some set => ⟨some ⟨keyMap set, c.finished, c.finished⟩, true, keyMap set c.kid⟩
    | none => ⟨some { entry.getD (placeholder c.finished) with lastAttempt := c.finished }, true,
        staleHit.filter fun _ => withinStaleGrace⟩

/-- What a lookup can do. -/
theorem jwkForKid_cases (entry : Option (CachedJwks Jwk)) (c : JwksCall Jwk) :
    (∃ e, entry = some e ∧ c.aged - e.fetchedAt < jwksMaxAge ∧ jwkForKid entry c = ⟨entry, false, e.keys c.kid⟩) ∨
    (∃ e, entry = some e ∧ c.attempted - e.lastAttempt < jwksMinRefresh ∧
      jwkForKid entry c = ⟨entry, false, (e.keys c.kid).filter fun _ =>
        decide (c.consulted - e.fetchedAt < jwksStaleIfErrorMax)⟩) ∨
    ((∀ e, entry = some e → jwksMinRefresh ≤ c.attempted - e.lastAttempt) ∧
      ((∃ set, c.fetched = some set ∧
          jwkForKid entry c = ⟨some ⟨keyMap set, c.finished, c.finished⟩, true, keyMap set c.kid⟩) ∨
        (c.fetched = none ∧ entry = none ∧ jwkForKid entry c = ⟨some (placeholder c.finished), true, none⟩) ∨
        (∃ e, c.fetched = none ∧ entry = some e ∧
          jwkForKid entry c = ⟨some { e with lastAttempt := c.finished }, true, (e.keys c.kid).filter fun _ =>
            decide (c.consulted - e.fetchedAt < jwksStaleIfErrorMax)⟩))) := by
  cases entry with
  | none =>
      refine Or.inr (Or.inr ⟨fun e he => (by cases he), ?_⟩)
      cases hf : c.fetched with
      | some set => exact Or.inl ⟨set, rfl, by simp only [jwkForKid, cacheAction, Option.map_none, hf]⟩
      | none =>
          refine Or.inr (Or.inl ⟨rfl, rfl, ?_⟩)
          simp only [jwkForKid, cacheAction, Option.map_none, hf, Option.getD_none, Option.bind_none, Option.filter_none]
          rfl
  | some e =>
      by_cases hserve : ((e.keys c.kid).isSome && decide (c.aged - e.fetchedAt < jwksMaxAge)) = true
      · refine Or.inl ⟨e, rfl, of_decide_eq_true (Bool.and_eq_true_iff.1 hserve).2, ?_⟩
        simp only [jwkForKid, cacheAction, Option.map_some, Option.bind_some, hserve, if_true]
      by_cases hrate : c.attempted - e.lastAttempt < jwksMinRefresh
      · refine Or.inr (Or.inl ⟨e, rfl, hrate, ?_⟩)
        simp only [jwkForKid, cacheAction, Option.map_some, Option.bind_some, hserve, Bool.false_eq_true, if_false, hrate,
          if_true, Option.getD_some]
      · refine Or.inr (Or.inr ⟨?_, ?_⟩)
        · rintro e' he
          cases he
          exact Nat.le_of_not_lt hrate
        · cases hf : c.fetched with
          | some set =>
              refine Or.inl ⟨set, rfl, ?_⟩
              simp only [jwkForKid, cacheAction, Option.map_some, Option.bind_some, hserve, Bool.false_eq_true, if_false,
                hrate, hf]
          | none =>
              refine Or.inr (Or.inr ⟨e, rfl, rfl, ?_⟩)
              simp only [jwkForKid, cacheAction, Option.map_some, Option.bind_some, hserve, Bool.false_eq_true, if_false,
                hrate, hf, Option.getD_some]

/-! ## Runs -/

/-- A lookup that was made. -/
structure Outcome (Jwk : Type) where
  call : JwksCall Jwk
  answer : JwksAnswer Jwk

/-- The clock readings of a lookup come in order. -/
structure JwksCall.Timely (c : JwksCall Jwk) : Prop where
  aged : c.consulted ≤ c.aged
  attempted : c.aged ≤ c.attempted
  started : c.attempted ≤ c.started
  finished : c.started ≤ c.finished

/-- When a lookup gives the mutex back. -/
def Outcome.released (o : Outcome Jwk) : Nat := if o.answer.fetches then o.call.finished else o.call.attempted

/-- The lookups of a process on one URL, one after the other under the mutex: the entry and the time they lead to. -/
inductive Calls : Option (CachedJwks Jwk) → Nat → List (Outcome Jwk) → Prop where
  | nil (t : Nat) : Calls none t []
  | call {entry : Option (CachedJwks Jwk)} {t : Nat} {os : List (Outcome Jwk)} (c : JwksCall Jwk) :
      Calls entry t os → t ≤ c.consulted → c.Timely →
        Calls (jwkForKid entry c).entry (Outcome.released ⟨c, jwkForKid entry c⟩) (os ++ [⟨c, jwkForKid entry c⟩])

/-- The lookups that fetched. -/
def attempts (os : List (Outcome Jwk)) : List (Outcome Jwk) := os.filter (·.answer.fetches)

/-- The most recent fetch attempt. -/
def lastAttempt (os : List (Outcome Jwk)) : Option (Outcome Jwk) := (attempts os).getLast?

/-- The latest document that was fetched, and when. -/
def lastDocument (os : List (Outcome Jwk)) : Option (Nat × JwkSet Jwk) :=
  ((attempts os).filterMap fun o => o.call.fetched.map fun set => (o.call.finished, set)).getLast?

section History
variable {os : List (Outcome Jwk)} {o : Outcome Jwk}

theorem attempts_concat : attempts (os ++ [o]) = attempts os ++ if o.answer.fetches then [o] else [] := by
  rw [attempts, List.filter_append, List.filter_singleton]
  cases o.answer.fetches <;> rfl

theorem history_of_not_fetches (h : o.answer.fetches = false) : attempts (os ++ [o]) = attempts os ∧
    lastAttempt (os ++ [o]) = lastAttempt os ∧ lastDocument (os ++ [o]) = lastDocument os := by
  have ha : attempts (os ++ [o]) = attempts os := by rw [attempts_concat, h]; simp
  exact ⟨ha, by rw [lastAttempt, ha]; rfl, by rw [lastDocument, ha]; rfl⟩

theorem lastAttempt_of_fetches (h : o.answer.fetches = true) : lastAttempt (os ++ [o]) = some o := by
  rw [lastAttempt, attempts_concat, h]
  simp

theorem lastDocument_of_fetched (h : o.answer.fetches = true) {set : JwkSet Jwk} (hs : o.call.fetched = some set) :
    lastDocument (os ++ [o]) = some (o.call.finished, set) := by
  rw [lastDocument, attempts_concat, h]
  simp [hs]

theorem lastDocument_of_failed (hs : o.call.fetched = none) : lastDocument (os ++ [o]) = lastDocument os := by
  rw [lastDocument, lastDocument, attempts_concat]
  split <;> simp [hs]

end History

/-- What an entry says about the lookups before it. -/
structure EntryOk (os : List (Outcome Jwk)) (t : Nat) (e : CachedJwks Jwk) : Prop where
  attempt : ∃ a, lastAttempt os = some a ∧ e.lastAttempt = a.call.finished ∧
    (a.call.fetched.isSome = true → e.fetchedAt = e.lastAttempt)
  document : match lastDocument os with
    | some (f, set) => e.fetchedAt = f ∧ e.keys = keyMap set
    | none => ∀ kid, e.keys kid = none
  fetched_le : e.fetchedAt ≤ e.lastAttempt
  attempt_le : e.lastAttempt ≤ t
  started_le : ∀ a ∈ attempts os, a.call.started ≤ e.lastAttempt

/-- The entry reflects the lookups, and their fetches are spaced. -/
structure CacheOk (os : List (Outcome Jwk)) (t : Nat) (entry : Option (CachedJwks Jwk)) : Prop where
  empty : entry = none → attempts os = []
  held : ∀ e, entry = some e → EntryOk os t e
  spaced : (attempts os).Pairwise fun a b => a.call.started + jwksMinRefresh ≤ b.call.started

theorem EntryOk.mono {os os' : List (Outcome Jwk)} {t t' : Nat} {e : CachedJwks Jwk} (h : EntryOk os t e) (ht : t ≤ t')
    (ha : attempts os' = attempts os) : EntryOk os' t' e := by
  have hl : lastAttempt os' = lastAttempt os := by rw [lastAttempt, ha]; rfl
  have hd : lastDocument os' = lastDocument os := by rw [lastDocument, ha]; rfl
  exact ⟨by rw [hl]; exact h.attempt, by rw [hd]; exact h.document, h.fetched_le, Nat.le_trans h.attempt_le ht,
    by rw [ha]; exact h.started_le⟩

/-- A fetch after these lookups starts late enough. -/
theorem CacheOk.spaced_fetch {os : List (Outcome Jwk)} {t : Nat} {entry : Option (CachedJwks Jwk)} (h : CacheOk os t entry)
    {o : Outcome Jwk} (hc : o.call.Timely) (hf : o.answer.fetches = true)
    (hage : ∀ e, entry = some e → jwksMinRefresh ≤ o.call.attempted - e.lastAttempt) :
    (attempts (os ++ [o])).Pairwise fun a b => a.call.started + jwksMinRefresh ≤ b.call.started := by
  rw [attempts_concat, hf, if_pos rfl, List.pairwise_append]
  refine ⟨h.spaced, List.pairwise_singleton _ _, ?_⟩
  intro a ha b hb
  rw [List.mem_singleton.1 hb]
  cases he : entry with
  | none => rw [h.empty he] at ha; cases ha
  | some e =>
      have hpos : 0 < jwksMinRefresh := by decide
      have h1 := (h.held e he).started_le a ha
      have h2 := hage e he
      have h3 := hc.started
      omega

/-- The attempts after a fetch, with the times of their starts. -/
theorem started_le_of_fetch {os : List (Outcome Jwk)} {t : Nat} {entry : Option (CachedJwks Jwk)} (h : CacheOk os t entry)
    {o : Outcome Jwk} (hc : o.call.Timely) (ht : t ≤ o.call.consulted) (hf : o.answer.fetches = true) :
    ∀ a ∈ attempts (os ++ [o]), a.call.started ≤ o.call.finished := by
  have h1 := hc.aged
  have h2 := hc.attempted
  have h3 := hc.started
  have h4 := hc.finished
  intro a ha
  rw [attempts_concat, hf, if_pos rfl, List.mem_append, List.mem_singleton] at ha
  rcases ha with ha | rfl
  · cases he : entry with
    | none => rw [h.empty he] at ha; cases ha
    | some e =>
        have h5 := (h.held e he).started_le a ha
        have h6 := (h.held e he).attempt_le
        omega
  · exact h4

/-- One lookup keeps the entry true to the history. -/
theorem CacheOk.step {os : List (Outcome Jwk)} {t : Nat} {entry : Option (CachedJwks Jwk)} (h : CacheOk os t entry)
    {c : JwksCall Jwk} (ht : t ≤ c.consulted) (hc : c.Timely) :
    CacheOk (os ++ [⟨c, jwkForKid entry c⟩]) (Outcome.released ⟨c, jwkForKid entry c⟩) (jwkForKid entry c).entry := by
  have hrel : ∀ k, t ≤ @Outcome.released Jwk ⟨c, ⟨entry, false, k⟩⟩ := by
    intro k
    have h1 := hc.aged
    have h2 := hc.attempted
    change t ≤ c.attempted
    omega
  rcases jwkForKid_cases entry c with ⟨e, he, -, hans⟩ | ⟨e, he, -, hans⟩ | ⟨hage, hfetch⟩
  · -- served: nothing changes
    rw [hans]
    obtain ⟨ha, -, -⟩ := @history_of_not_fetches Jwk os ⟨c, ⟨entry, false, e.keys c.kid⟩⟩ rfl
    exact ⟨fun hn => by rw [ha]; exact h.empty hn, fun e' he' => (h.held e' he').mono (hrel _) ha, by rw [ha]; exact h.spaced⟩
  · rw [hans]
    obtain ⟨ha, -, -⟩ := @history_of_not_fetches Jwk os ⟨c, ⟨entry, false, _⟩⟩ rfl
    exact ⟨fun hn => by rw [ha]; exact h.empty hn, fun e' he' => (h.held e' he').mono (hrel _) ha, by rw [ha]; exact h.spaced⟩
  · rcases hfetch with ⟨set, hf, hans⟩ | ⟨hf, he, hans⟩ | ⟨e, hf, he, hans⟩
    · -- a document was fetched
      have hfetches : (jwkForKid entry c).fetches = true := by rw [hans]
      have hsome : (jwkForKid entry c).entry ≠ none := by rw [hans]; exact Option.some_ne_none _
      refine ⟨fun hn => absurd hn hsome, ?_, @CacheOk.spaced_fetch Jwk os t entry h ⟨c, _⟩ hc hfetches hage⟩
      intro e' he'
      rw [hans] at he' ⊢
      cases he'
      refine ⟨⟨⟨c, _⟩, lastAttempt_of_fetches rfl, rfl, fun _ => rfl⟩, ?_, Nat.le_refl _, Nat.le_refl _, ?_⟩
      · rw [lastDocument_of_fetched rfl hf]
        exact ⟨rfl, rfl⟩
      · exact started_le_of_fetch h hc ht rfl
    · -- the first attempt failed
      have hfetches : (jwkForKid entry c).fetches = true := by rw [hans]
      have hsome : (jwkForKid entry c).entry ≠ none := by rw [hans]; exact Option.some_ne_none _
      refine ⟨fun hn => absurd hn hsome, ?_, @CacheOk.spaced_fetch Jwk os t entry h ⟨c, _⟩ hc hfetches hage⟩
      intro e' he'
      rw [hans] at he' ⊢
      cases he'
      refine ⟨⟨⟨c, _⟩, lastAttempt_of_fetches rfl, rfl, fun _ => rfl⟩, ?_, Nat.le_refl _, Nat.le_refl _, ?_⟩
      · have hnone : lastDocument os = none := by
          rw [lastDocument, h.empty he]
          rfl
        rw [lastDocument_of_failed hf, hnone]
        exact fun _ => rfl
      · exact started_le_of_fetch h hc ht rfl
    · -- a later attempt failed: the document stays
      have hfetches : (jwkForKid entry c).fetches = true := by rw [hans]
      have hsome : (jwkForKid entry c).entry ≠ none := by rw [hans]; exact Option.some_ne_none _
      refine ⟨fun hn => absurd hn hsome, ?_, @CacheOk.spaced_fetch Jwk os t entry h ⟨c, _⟩ hc hfetches hage⟩
      intro e' he'
      rw [hans] at he' ⊢
      cases he'
      have hok := h.held e he
      refine ⟨⟨⟨c, _⟩, lastAttempt_of_fetches rfl, rfl, ?_⟩, ?_, ?_, Nat.le_refl _, ?_⟩
      · intro hsome
        rw [hf] at hsome
        cases hsome
      · rw [lastDocument_of_failed hf]
        exact hok.document
      · have h1 := hok.fetched_le
        have h2 := hok.attempt_le
        have h3 := hc.aged
        have h4 := hc.attempted
        have h5 := hc.started
        have h6 := hc.finished
        change e.fetchedAt ≤ c.finished
        omega
      · exact started_le_of_fetch h hc ht rfl

theorem CacheOk.of_calls {entry : Option (CachedJwks Jwk)} {t : Nat} {os : List (Outcome Jwk)} (h : Calls entry t os) :
    CacheOk os t entry := by
  induction h with
  | nil t => exact ⟨fun _ => rfl, fun e he => (by cases he), List.Pairwise.nil⟩
  | call c _ ht hc ih => exact ih.step ht hc

/-- A lookup of a run was made on what the lookups before it had left. -/
theorem Calls.split {entry : Option (CachedJwks Jwk)} {t : Nat} {os : List (Outcome Jwk)} (h : Calls entry t os)
    {pre post : List (Outcome Jwk)} {o : Outcome Jwk} (hos : os = pre ++ o :: post) :
    ∃ entry' t', Calls entry' t' pre ∧ t' ≤ o.call.consulted ∧ o.call.Timely ∧ o.answer = jwkForKid entry' o.call := by
  induction h generalizing post with
  | nil t => simp at hos
  | @call entry t os c hrun ht hc ih =>
      rcases List.eq_nil_or_concat post with rfl | ⟨post', o', rfl⟩
      · obtain ⟨rfl, ho⟩ := List.append_inj' hos rfl
        cases ho
        exact ⟨entry, t, hrun, ht, hc, rfl⟩
      · have hos' : os ++ [⟨c, jwkForKid entry c⟩] = (pre ++ o :: post') ++ [o'] := by
          rw [hos]
          simp
        exact ih (List.append_inj' hos' rfl).1

/-- What a lookup that returns `jwk`, after the lookups `pre`, can rely on: the latest document holds the key; unless
this lookup fetched it, the document was within the ceiling when the cache was consulted; and if it was past its age, the
most recent fetch, this lookup's or a recent one, had failed. -/
structure Served (pre : List (Outcome Jwk)) (o : Outcome Jwk) (jwk : Jwk) : Prop where
  latest : ∃ f set, lastDocument (pre ++ [o]) = some (f, set) ∧ keyMap set o.call.kid = some jwk
  ceiling : (o.answer.fetches = true ∧ o.call.fetched.isSome = true) ∨
    ∃ f set, lastDocument pre = some (f, set) ∧ keyMap set o.call.kid = some jwk ∧ f ≤ o.call.consulted ∧
      o.call.consulted - f < jwksStaleIfErrorMax ∧
      (jwksMaxAge ≤ o.call.consulted - f → ∃ a, lastAttempt (pre ++ [o]) = some a ∧ a.call.fetched = none ∧
        (a = o ∨ o.call.consulted - a.call.finished < jwksMinRefresh))

/-- The document of an entry that holds a key. -/
theorem EntryOk.holds {os : List (Outcome Jwk)} {t : Nat} {e : CachedJwks Jwk} (h : EntryOk os t e) {kid : String}
    {jwk : Jwk} (hk : e.keys kid = some jwk) :
    ∃ set, lastDocument os = some (e.fetchedAt, set) ∧ keyMap set kid = some jwk := by
  have hdoc := h.document
  split at hdoc
  · rename_i f set hd
    rw [hd, hdoc.1]
    exact ⟨set, rfl, by rw [← hdoc.2]; exact hk⟩
  · rw [hdoc kid] at hk
    cases hk

theorem served_of_cacheOk {os : List (Outcome Jwk)} {t : Nat} {entry : Option (CachedJwks Jwk)} (h : CacheOk os t entry)
    {c : JwksCall Jwk} (ht : t ≤ c.consulted) (hc : c.Timely) {jwk : Jwk} (hk : (jwkForKid entry c).key = some jwk) :
    Served os ⟨c, jwkForKid entry c⟩ jwk := by
  have hage : jwksMaxAge < jwksStaleIfErrorMax := by decide
  have hmin : jwksMinRefresh < jwksMaxAge := by decide
  have h1 := hc.aged
  have h2 := hc.attempted
  rcases jwkForKid_cases entry c with ⟨e, he, hfresh, hans⟩ | ⟨e, he, hrate, hans⟩ | ⟨-, hfetch⟩
  · -- fresh
    rw [hans] at hk ⊢
    have hok := h.held e he
    obtain ⟨set, hdoc, hset⟩ := hok.holds hk
    have hle := hok.fetched_le
    have hle' := hok.attempt_le
    refine ⟨⟨e.fetchedAt, set, ?_, hset⟩, Or.inr ⟨e.fetchedAt, set, hdoc, hset, ?_, ?_, ?_⟩⟩
    · rw [(history_of_not_fetches rfl).2.2, hdoc]
    · change e.fetchedAt ≤ c.consulted
      omega
    · change c.consulted - e.fetchedAt < jwksStaleIfErrorMax
      omega
    · intro hmax
      change jwksMaxAge ≤ c.consulted - e.fetchedAt at hmax
      omega
  · -- served although aged: the last attempt is too recent to have been the one that fetched the document
    rw [hans] at hk ⊢
    have hok := h.held e he
    obtain ⟨hkey, hgrace⟩ := Option.filter_eq_some_iff.1 hk
    obtain ⟨set, hdoc, hset⟩ := hok.holds hkey
    obtain ⟨a, hlast, hfin, hsucc⟩ := hok.attempt
    have hle := hok.fetched_le
    have hle' := hok.attempt_le
    refine ⟨⟨e.fetchedAt, set, ?_, hset⟩, Or.inr ⟨e.fetchedAt, set, hdoc, hset, ?_, of_decide_eq_true hgrace, ?_⟩⟩
    · rw [(history_of_not_fetches rfl).2.2, hdoc]
    · change e.fetchedAt ≤ c.consulted
      omega
    · intro hmax
      change jwksMaxAge ≤ c.consulted - e.fetchedAt at hmax
      refine ⟨a, by rw [(history_of_not_fetches rfl).2.1, hlast], ?_, Or.inr ?_⟩
      · cases hf : a.call.fetched with
        | none => rfl
        | some set' =>
            have := hsucc (by rw [hf]; rfl)
            omega
      · change c.consulted - a.call.finished < jwksMinRefresh
        omega
  · rcases hfetch with ⟨set, hf, hans⟩ | ⟨-, -, hans⟩ | ⟨e, hf, he, hans⟩
    · -- fetched by this lookup
      rw [hans] at hk ⊢
      exact ⟨⟨c.finished, set, lastDocument_of_fetched rfl hf, hk⟩, Or.inl ⟨rfl, by rw [hf]; rfl⟩⟩
    · rw [hans] at hk
      cases hk
    · -- this lookup's fetch failed
      rw [hans] at hk ⊢
      have hok := h.held e he
      obtain ⟨hkey, hgrace⟩ := Option.filter_eq_some_iff.1 hk
      obtain ⟨set, hdoc, hset⟩ := hok.holds hkey
      have hle := hok.fetched_le
      have hle' := hok.attempt_le
      refine ⟨⟨e.fetchedAt, set, ?_, hset⟩, Or.inr ⟨e.fetchedAt, set, hdoc, hset, ?_, of_decide_eq_true hgrace, ?_⟩⟩
      · rw [lastDocument_of_failed hf, hdoc]
      · change e.fetchedAt ≤ c.consulted
        omega
      · intro _
        exact ⟨_, lastAttempt_of_fetches rfl, hf, Or.inl rfl⟩

/-- In every run of lookups, every key that is returned is within the ceilings and in the latest document, and fetches
are spaced. -/
theorem jwks_ceilings {entry : Option (CachedJwks Jwk)} {t : Nat} {os : List (Outcome Jwk)} (h : Calls entry t os) :
    (∀ pre o post, os = pre ++ o :: post → ∀ jwk, o.answer.key = some jwk → Served pre o jwk) ∧
    (attempts os).Pairwise fun a b => a.call.started + jwksMinRefresh ≤ b.call.started := by
  refine ⟨?_, (CacheOk.of_calls h).spaced⟩
  intro pre o post hos jwk hk
  obtain ⟨entry', t', hrun, ht, hc, hans⟩ := h.split hos
  obtain ⟨c, answer⟩ := o
  obtain rfl : answer = jwkForKid entry' c := hans
  exact served_of_cacheOk (CacheOk.of_calls hrun) ht hc hk

/-- A key fetched in the first second, and served half an hour later from the aged document when a fetch fails. -/
theorem jwks_ceilings_outage : ∃ entry t os, @Calls Nat entry t os ∧ os.map (·.answer.key) = [some 7, some 7] ∧
    (attempts os).Pairwise fun a b => a.call.started + jwksMinRefresh ≤ b.call.started := by
  have hrun := Calls.call ⟨"k1", 1800 * 10 ^ 9, 1800 * 10 ^ 9, 1800 * 10 ^ 9, 1800 * 10 ^ 9, 1810 * 10 ^ 9, none⟩
    (Calls.call ⟨"k1", 0, 0, 0, 0, 10 ^ 9, some [(some "k1", 7)]⟩ (@Calls.nil Nat 0) (by decide)
      ⟨by decide, by decide, by decide, by decide⟩) (by decide) ⟨by decide, by decide, by decide, by decide⟩
  exact ⟨_, _, _, hrun, by decide, (jwks_ceilings hrun).2⟩

end Keychute.Authn
