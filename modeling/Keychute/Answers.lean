import Keychute.Reads

/-!
# What the answer to a read rests on

* `FailsEarly` : the statements of a read that never answer `grant-expired` or `grant-exhausted`;
* `ReadPhase.Rests` : a release is of what the first use under the key released, `grant-expired` is about a dead grant,
  and `grant-exhausted` is the answer to a use;
* `AnswersOk.step` : every step of the server keeps it, for every read under way or done;
* `first_use_stamped`, `firstUse_fresh`, `retry_answer` : when a first use was, that there is one at most, and what a
  retry within the window gets.
-/

namespace Keychute.Api
open Keychute.Db Keychute.Lib Keychute.Crypto

/-! ## Where `grant-expired` and `grant-exhausted` come from -/

/-- Neither of the two. -/
abbrev Early (e : ApiFailure) : Prop := e ≠ .grantExpired ∧ e ≠ .grantExhausted

def FailsEarly {α : Type} (x : Except ApiFailure α) : Prop := ∀ e, x = .error e → Early e

section
variable {α β : Type} {x : Except ApiFailure α} {f : α → Except ApiFailure β}

theorem failsEarly_ok (a : α) : FailsEarly (.ok a : Except ApiFailure α) := by
  intro e h
  cases h

theorem failsEarly_error {e : ApiFailure} (he : Early e) : FailsEarly (.error e : Except ApiFailure α) := by
  intro e' h
  cases h
  exact he

theorem FailsEarly.bind (hx : FailsEarly x) (hf : ∀ a, FailsEarly (f a)) : FailsEarly (x >>= f) := by
  cases x with
  | ok a => exact hf a
  | error e => exact failsEarly_error (hx e rfl)

theorem failsEarly_okOr {o : Option α} {e : ApiFailure} (he : Early e) : FailsEarly (okOr o e) := by
  cases o with
  | none => exact failsEarly_error he
  | some a => exact failsEarly_ok a

theorem failsEarly_refuseIf {c : Bool} {e : ApiFailure} (he : Early e) : FailsEarly (refuseIf c e) := by
  cases c with
  | false => exact failsEarly_ok ()
  | true => exact failsEarly_error he

theorem failsEarly_mapError {ε : Type} {y : Except ε α} {g : ε → ApiFailure} (hg : ∀ e, Early (g e)) :
    FailsEarly (y.mapError g) := by
  cases y with
  | ok a => exact failsEarly_ok a
  | error e => exact failsEarly_error (hg e)

end

section
variable {env : ReadEnv} {kek : KeyMaterial} {s : Store}

theorem failsEarly_validateReadKey (key : String) : FailsEarly (validateReadKey key) := by
  unfold validateReadKey
  exact (failsEarly_refuseIf (by decide)).bind fun _ => failsEarly_refuseIf (by decide)

theorem failsEarly_ownedGrant (client : String) (id : Uuid) : FailsEarly (ownedGrant s client id) := by
  unfold ownedGrant
  exact (failsEarly_okOr (by decide)).bind fun g => (failsEarly_refuseIf (by decide)).bind fun _ => failsEarly_ok g

theorem failsEarly_revalidateGrant (clients : Store) (g : GrantRow) : FailsEarly (revalidateGrant clients s g) := by
  unfold revalidateGrant
  refine (failsEarly_okOr (by decide)).bind fun client => (failsEarly_refuseIf (by decide)).bind fun _ => ?_
  refine (failsEarly_okOr (by decide)).bind fun mechanism => (failsEarly_refuseIf (by decide)).bind fun _ => ?_
  refine (failsEarly_okOr (by decide)).bind fun clientMax => (failsEarly_refuseIf (by decide)).bind fun _ => ?_
  cases getSecretByName s g.secretName with
  | none => exact failsEarly_ok none
  | some row =>
      refine (failsEarly_refuseIf (by decide)).bind fun _ => (failsEarly_okOr (by decide)).bind fun secretMax => ?_
      exact (failsEarly_refuseIf (by decide)).bind fun _ => failsEarly_ok (some row)

theorem failsEarly_resolveSource (g : GrantRow) (secret : Option Db.SecretRow) :
    FailsEarly (resolveSource s g secret) := by
  unfold resolveSource
  split
  · exact failsEarly_ok _
  · split
    · exact failsEarly_ok _
    · exact (failsEarly_okOr (by decide)).bind fun row => (failsEarly_okOr (by decide)).bind fun v => failsEarly_ok _

theorem failsEarly_openPassthrough (g : GrantRow) : FailsEarly (openPassthrough env kek g) := by
  unfold openPassthrough
  split
  · split
    · exact failsEarly_error (by decide)
    · exact failsEarly_mapError fun _ => by decide
  · exact failsEarly_error (by decide)

theorem failsEarly_openSecretVersion (version : SecretVersionRow) :
    FailsEarly (openSecretVersion env.aead env.keyset version) := failsEarly_mapError fun _ => by decide

theorem failsEarly_release {source : Source} {versionId : Uuid} {outcome : GrantUse}
    (hdead : outcome ≠ .expiredOrRevoked) (hleft : outcome ≠ .exhausted) : FailsEarly (release env kek s source versionId outcome) := by
  unfold release
  cases outcome with
  | notFound => exact failsEarly_error (by decide)
  | expiredOrRevoked => exact absurd rfl hdead
  | exhausted => exact absurd rfl hleft
  | firstUse g =>
      cases source with
      | passthrough => exact (failsEarly_openPassthrough g).bind fun _ => failsEarly_ok _
      | passthroughGone => exact failsEarly_error (by decide)
      | stored version => exact (failsEarly_openSecretVersion version).bind fun _ => failsEarly_ok _
  | replay g pinned passthrough =>
      cases passthrough with
      | true => exact (failsEarly_openPassthrough g).bind fun _ => failsEarly_ok _
      | false =>
          refine (failsEarly_okOr (by decide)).bind fun v => (failsEarly_okOr (by decide)).bind fun version => ?_
          exact (failsEarly_openSecretVersion version).bind fun _ => failsEarly_ok _

/-- A release fails with `grant-expired` only where the use found the grant dead. -/
theorem expired_of_release {source : Source} {versionId : Uuid} {outcome : GrantUse}
    (h : release env kek s source versionId outcome = .error .grantExpired) : outcome = .expiredOrRevoked := by
  by_contra hdead
  by_cases hleft : outcome = .exhausted
  · rw [hleft] at h
    cases h
  · exact (failsEarly_release hdead hleft _ h).1 rfl

/-- And with `grant-exhausted` only where the use found none left. -/
theorem exhausted_of_release {source : Source} {versionId : Uuid} {outcome : GrantUse}
    (h : release env kek s source versionId outcome = .error .grantExhausted) : outcome = .exhausted := by
  by_contra hleft
  by_cases hdead : outcome = .expiredOrRevoked
  · rw [hdead] at h
    cases h
  · exact (failsEarly_release hdead hleft _ h).2 rfl

/-- The version of a release is that of the first use, and that of the record when it is a replay. -/
theorem version_of_release {source : Source} {versionId : Uuid} {outcome : GrantUse} {r : ReadGrantResponse}
    (h : release env kek s source versionId outcome = .ok r) :
    (∃ g, outcome = .firstUse g ∧ r.secretVersionId = versionId) ∨
      ∃ g pinned passthrough, outcome = .replay g pinned passthrough ∧
        (passthrough = true ∧ r.secretVersionId = g.id ∨ passthrough = false ∧ pinned = some r.secretVersionId) := by
  unfold release at h
  cases outcome with
  | notFound => cases h
  | expiredOrRevoked => cases h
  | exhausted => cases h
  | firstUse g =>
      refine Or.inl ⟨g, rfl, ?_⟩
      cases source with
      | passthrough =>
          obtain ⟨_, -, hret⟩ := bind_eq_ok.1 h
          cases hret
          rfl
      | passthroughGone => cases h
      | stored version =>
          obtain ⟨_, -, hret⟩ := bind_eq_ok.1 h
          cases hret
          rfl
  | replay g pinned passthrough =>
      refine Or.inr ⟨g, pinned, passthrough, rfl, ?_⟩
      cases passthrough with
      | true =>
          obtain ⟨_, -, hret⟩ := bind_eq_ok.1 h
          cases hret
          exact Or.inl ⟨rfl, rfl⟩
      | false =>
          obtain ⟨v, hv, h⟩ := bind_eq_ok.1 h
          obtain ⟨_, -, h⟩ := bind_eq_ok.1 h
          obtain ⟨_, -, hret⟩ := bind_eq_ok.1 h
          cases hret
          exact Or.inr ⟨rfl, okOr_eq_ok.1 hv⟩

end

/-! ## A payload of the grant's own -/

/-- The payload of the grant's own is these bytes, sealed under this key. -/
structure SealedUnder (A : Aead) (kek : KeyMaterial) (plaintext : Blob) (g : GrantRow) : Prop where
  ephemeral : g.passthroughEphemeral = true
  columns : ∃ dek payloadNonce wrapNonce sealed,
    sealWithKek A dek payloadNonce wrapNonce kek "ephemeral" plaintext (.grantPassthrough g.id) = .ok sealed ∧
      g.passthroughCiphertext = some sealed.ciphertext ∧ g.passthroughNonce = some sealed.nonce ∧
      g.passthroughWrappedDek = some sealed.wrappedDek

section
variable {env : ReadEnv} {kek kek' : KeyMaterial} {plaintext : Blob} {g : GrantRow}

/-- It opens under the key that it was sealed with, and under no other. -/
theorem openPassthrough_sealed (hA : env.aead.Ideal) (h : SealedUnder env.aead kek plaintext g) :
    openPassthrough env kek' g = if kek'.val = kek.val then .ok plaintext else .error .payloadLost := by
  obtain ⟨heph, dek, payloadNonce, wrapNonce, sealed, hsealed, hct, hnonce, hdek⟩ := h
  obtain ⟨c, henc⟩ := hA.total dek payloadNonce (AadContext.grantPassthrough g.id).derive plaintext
  obtain ⟨w, hw, hwraps⟩ := wrapDek_ok hA kek wrapNonce dek
  simp only [sealWithKek, henc, hw] at hsealed
  cases hsealed
  simp only [openPassthrough, hct, hnonce, hdek, heph, Bool.not_true, if_false, Bool.false_eq_true]
  by_cases hsame : kek'.val = kek.val
  · obtain rfl : kek' = kek := Subtype.ext hsame
    rw [openWithKek_same hA hwraps, hA.inverts henc, if_pos rfl]
    rfl
  · have hfails := openWithKek_fails hA henc hwraps (Or.inl fun h => hsame (congrArg Subtype.val h))
      (.grantPassthrough g.id)
    rw [hfails, if_neg hsame]
    rfl

/-- What a replay of it answers: after a restart, which draws another key, it is lost. -/
theorem release_sealed {s : Store} (hA : env.aead.Ideal) (h : SealedUnder env.aead kek plaintext g) (source : Source)
    (versionId : Uuid) (pinned : Option Uuid) :
    release env kek' s source versionId (.replay g pinned true) =
      if kek'.val = kek.val then .ok (readResponse plaintext g.id) else .error .payloadLost := by
  simp only [release, if_true, openPassthrough_sealed hA h]
  split <;> rfl

end

/-! ## What a read stands on -/

/-- A use of the grant under the key, among these, was refused for want of uses. -/
def Exhausted (uses : List ReadUse) (grantId : Uuid) (key : String) : Prop :=
  ∃ use ∈ uses, use.grantId = grantId ∧ use.key = key ∧ use.outcome = .ok (.grantUse .exhausted)

/-- A first use of the grant under the key, among these, was of this version. -/
def FirstUsed (uses : List ReadUse) (grantId : Uuid) (key : String) (versionId : Uuid) : Prop :=
  ∃ use ∈ uses, use.grantId = grantId ∧ use.key = key ∧ use.versionId = versionId ∧ ∃ g, use.isFirstUse g

section
variable (uses : List ReadUse) (s : Store) (t : DateTime) (grantId : Uuid) (key : String)

structure AnswerRests (answer : Except ApiFailure ReadGrantResponse) : Prop where
  released : ∀ r, answer = .ok r → FirstUsed uses grantId key r.secretVersionId
  expired : answer = .error .grantExpired → s.dead grantId t = true
  exhausted : answer = .error .grantExhausted → Exhausted uses grantId key

/-- What a use that was answered stands on; a replay names what the first use was of. -/
structure UseRests (versionId : Uuid) (outcome : GrantUse) : Prop where
  first : ∀ g, outcome = .firstUse g → FirstUsed uses grantId key versionId
  replay : ∀ g pinned passthrough, outcome = .replay g pinned passthrough →
    ∃ v, FirstUsed uses grantId key v ∧ pinned = some v ∧ (passthrough = true → g.id = v)
  expired : outcome = .expiredOrRevoked → s.dead grantId t = true
  exhausted : outcome = .exhausted → Exhausted uses grantId key

def ReadPhase.Rests : ReadPhase → Prop
  | .arrived => True
  | .owned g => g.id = grantId
  | .clientRead g _ => g.id = grantId
  | .revalidated g _ => g.id = grantId
  | .alive g _ => g.id = grantId
  | .resolved g _ versionId => g.id = grantId ∧ (g.passthroughEphemeral = true → versionId = g.id)
  | .used _ versionId outcome => UseRests uses s t grantId key versionId outcome
  | .done answer => AnswerRests uses s t grantId key answer

end

section
variable {uses more : List ReadUse} {s s' : Store} {t t' now : DateTime} {grantId : Uuid} {key : String}

theorem FirstUsed.append {v : Uuid} (h : FirstUsed uses grantId key v) (more : List ReadUse) :
    FirstUsed (uses ++ more) grantId key v := by
  obtain ⟨use, huse, hrest⟩ := h
  exact ⟨use, List.mem_append_left _ huse, hrest⟩

theorem Exhausted.append (h : Exhausted uses grantId key) (more : List ReadUse) :
    Exhausted (uses ++ more) grantId key := by
  obtain ⟨use, huse, hrest⟩ := h
  exact ⟨use, List.mem_append_left _ huse, hrest⟩

theorem AnswerRests.mono {answer : Except ApiFailure ReadGrantResponse} (h : AnswerRests uses s t grantId key answer)
    (more : List ReadUse) (hdead : s.dead grantId t = true → s'.dead grantId t' = true) :
    AnswerRests (uses ++ more) s' t' grantId key answer :=
  ⟨fun r hr => (h.released r hr).append more, fun he => hdead (h.expired he), fun he => (h.exhausted he).append more⟩

theorem UseRests.mono {v : Uuid} {outcome : GrantUse} (h : UseRests uses s t grantId key v outcome)
    (more : List ReadUse) (hdead : s.dead grantId t = true → s'.dead grantId t' = true) :
    UseRests (uses ++ more) s' t' grantId key v outcome where
  first g hg := (h.first g hg).append more
  replay g pinned passthrough ho := by
    obtain ⟨v, hv, hrest⟩ := h.replay g pinned passthrough ho
    exact ⟨v, hv.append more, hrest⟩
  expired ho := hdead (h.expired ho)
  exhausted ho := (h.exhausted ho).append more

theorem ReadPhase.Rests.mono {p : ReadPhase} (h : p.Rests uses s t grantId key) (more : List ReadUse)
    (hdead : s.dead grantId t = true → s'.dead grantId t' = true) : p.Rests (uses ++ more) s' t' grantId key := by
  cases p with
  | used source v outcome => exact UseRests.mono h more hdead
  | done answer => exact AnswerRests.mono h more hdead
  | _ => exact h

theorem AnswerRests.tick {answer : Except ApiFailure ReadGrantResponse} (h : AnswerRests uses s t grantId key answer)
    (hdead : s.dead grantId t = true → s.dead grantId t' = true) : AnswerRests uses s t' grantId key answer :=
  ⟨h.released, fun he => hdead (h.expired he), h.exhausted⟩

theorem ReadPhase.Rests.tick {p : ReadPhase} (h : p.Rests uses s t grantId key)
    (hdead : s.dead grantId t = true → s.dead grantId t' = true) : p.Rests uses s t' grantId key := by
  have hmono : p.Rests (uses ++ []) s t' grantId key := h.mono [] hdead
  rwa [List.append_nil] at hmono

/-- Any other failure rests on nothing. -/
theorem answerRests_error {e : ApiFailure} (he : Early e) : AnswerRests uses s t grantId key (.error e) :=
  ⟨fun r hr => (by cases hr), fun h => absurd (Except.error.inj h) he.1, fun h => absurd (Except.error.inj h) he.2⟩

theorem rests_orDone {x : Except ApiFailure ReadPhase} (hx : FailsEarly x)
    (h : ∀ p, x = .ok p → p.Rests uses s t grantId key) : (ReadPhase.orDone x).Rests uses s t grantId key := by
  cases x with
  | error e => exact answerRests_error (hx e rfl)
  | ok p => exact h p rfl

theorem id_of_ownedGrant {client : String} {id : Uuid} {g : GrantRow} (h : ownedGrant s client id = .ok g) :
    g.id = id := by
  simp only [ownedGrant, bind_eq_ok, okOr_eq_ok] at h
  obtain ⟨g', hg', _, -, hret⟩ := h
  cases hret
  exact (findGrant_eq_some.1 hg').2

/-- A grant of its own payload releases itself. -/
theorem version_of_resolveSource {g : GrantRow} {secret : Option Db.SecretRow} {source : Source} {v : Uuid}
    (h : resolveSource s g secret = .ok (source, v)) (heph : g.passthroughEphemeral = true) : v = g.id := by
  rw [resolveSource, if_pos heph] at h
  split at h <;> cases h <;> rfl

/-- What the check before the use calls dead is dead. -/
theorem dead_of_check {g : GrantRow} {window : Int} (hg : Snapshot window s now g)
    (h : ((s.findGrant g.id).map fun g => g.revoked || decide (g.notAfter ≤ now)).getD true = true) :
    s.dead g.id now = true := by
  obtain ⟨g', hg', hid⟩ := hg.exists_id
  have hfind : s.findGrant g.id = some g' := findGrant_eq_some.2 ⟨hg', hid⟩
  rw [hfind] at h
  rw [Store.dead, hfind]
  exact h

/-- The next statement of a read rests on no less than the one before. -/
theorem ReadCall.rests_next {env : ReadEnv} {kek : KeyMaterial} {c : ReadCall}
    (hok : c.phase.Ok env.replayWindowSeconds s now) (h : c.phase.Rests uses s now c.grantId c.idemKey) :
    (c.next env kek now s).Rests uses s now c.grantId c.idemKey := by
  unfold ReadCall.next
  split
  · refine rests_orDone ?_ fun p hp => ?_
    · refine (failsEarly_validateReadKey _).bind fun _ => (failsEarly_ownedGrant _ _).bind fun g => ?_
      refine (failsEarly_okOr (by decide)).bind fun m => (failsEarly_refuseIf (by decide)).bind fun _ => ?_
      exact failsEarly_ok _
    · simp only [bind_eq_ok] at hp
      obtain ⟨_, -, g, hg, _, -, _, -, hret⟩ := hp
      cases hret
      exact id_of_ownedGrant hg
  · rename_i g hphase
    rw [hphase] at h
    exact h
  · rename_i g clients hphase
    rw [hphase] at h
    refine rests_orDone ((failsEarly_revalidateGrant clients g).bind fun _ => failsEarly_ok _) fun p hp => ?_
    simp only [bind_eq_ok] at hp
    obtain ⟨secret, -, hret⟩ := hp
    cases hret
    exact h
  · rename_i g secret hphase
    rw [hphase] at h hok
    split
    · rename_i hcheck
      refine ⟨fun r hr => (by cases hr), fun _ => ?_, fun he => (by cases he)⟩
      rw [← show g.id = c.grantId from h]
      exact dead_of_check hok.1 hcheck
    · exact h
  · rename_i g secret hphase
    rw [hphase] at h
    refine rests_orDone ((failsEarly_resolveSource g secret).bind fun _ => failsEarly_ok _) fun p hp => ?_
    simp only [bind_eq_ok] at hp
    obtain ⟨⟨source, v⟩, hresolve, hret⟩ := hp
    cases hret
    exact ⟨h, version_of_resolveSource hresolve⟩
  · rename_i g source v hphase
    rw [hphase] at h
    exact h
  · rename_i source v outcome hphase
    rw [hphase] at h
    refine ⟨fun r hr => ?_, fun he => UseRests.expired h (expired_of_release he),
      fun he => UseRests.exhausted h (exhausted_of_release he)⟩
    rcases version_of_release hr with ⟨g, ho, hv⟩ | ⟨g, pinned, passthrough, ho, hv⟩
    · rw [hv]
      exact UseRests.first h g ho
    · obtain ⟨v', hused, hpin, hown⟩ := UseRests.replay h g pinned passthrough ho
      rcases hv with ⟨hp, hv⟩ | ⟨-, hv⟩
      · rw [hv, hown hp]
        exact hused
      · rw [hpin, Option.some.injEq] at hv
        rw [← hv]
        exact hused
  · rename_i answer hphase
    rw [hphase] at h
    exact h

end

/-! ## One use -/

section
variable {uses : List ReadUse} {s : Store} {t now : DateTime} {window : Int} {c : ReadCall} {grant g : GrantRow}
  {source : Source} {v : Uuid}

/-- The use that a read makes at this point. -/
def ReadCall.useAt (c : ReadCall) (grant : GrantRow) (source : Source) (versionId : Uuid) (window : Int) (now : DateTime)
    (s : Store) : ReadUse :=
  ⟨grant.id, c.idemKey, source, versionId, ((c.useOp grant versionId).step window now s).2⟩

/-- Whose record it is, and of when. -/
def stamp (row : GrantReadRow) : Uuid × String × DateTime := (row.grantId, row.idemKey, row.firstReadAt)

theorem dead_call {id : Uuid} (op : StoreOp) (window : Int) (hd : s.dead id t = true) (ht : t ≤ now) :
    (op.step window now s).1.dead id now = true := by
  have hrun : StoreRun window s t [] s t := Run.nil
  exact dead_run (hrun.call op now ht) hd (le_refl now)

theorem dead_later {id : Uuid} (hd : s.dead id t = true) (ht : t ≤ now) : s.dead id now = true := by
  have hrun : StoreRun 0 s t [] s t := Run.nil
  exact dead_run hrun hd ht

/-- Records stay, and so do their stamps. -/
theorem stamp_call (op : StoreOp) (window : Int) (now : DateTime) {row : GrantReadRow} (hrow : row ∈ s.reads.rows) :
    ∃ row' ∈ (op.step window now s).1.reads.rows, stamp row' = stamp row := by
  rcases op.step_cases window now s with ⟨r, s', hexec, hstep⟩ | ⟨r, hexec, hstep⟩
  · rw [hstep]
    cases (commit_step hexec).reads with
    | same heq => exact ⟨row, by rwa [heq], rfl⟩
    | unpinned heq =>
        refine ⟨_, by rw [heq]; exact Table.mem_update.2 ⟨row, hrow, rfl⟩, ?_⟩
        split <;> rfl
    | recorded g key versionId hg hop hnone heq => exact ⟨row, by rw [heq]; exact Table.mem_insert_of_mem hrow, rfl⟩
  · rw [hstep]
    exact ⟨row, hrow, rfl⟩

/-- A use is refused as expired only where the grant is dead. -/
theorem dead_of_use (hg : ∃ g ∈ s.grants.rows, g.id = grant.id)
    (h : ((c.useOp grant v).step window now s).2 = .ok (.grantUse .expiredOrRevoked)) : s.dead grant.id now = true := by
  obtain ⟨g, hg, hid⟩ := hg
  refine Store.dead_iff.2 ⟨g, findGrant_eq_some.2 ⟨hg, hid⟩, ?_⟩
  by_contra hlive
  rw [Bool.not_eq_false] at hlive
  rcases (c.useOp grant v).step_cases window now s with ⟨r, s', hexec, hstep⟩ | ⟨r, hexec, hstep⟩
  · rw [hstep] at h
    obtain ⟨_, -, -, ⟨_, -, -, rfl, -⟩ | ⟨-, -, rfl, -⟩⟩ := beginGrantUse_ok hexec <;> cases h
  · rw [show ((c.useOp grant v).step window now s).2 =
        s.useAnswer grant.id (some c.idemKey) (some v) .releaseAttempt window none now from rfl, ← hid,
      useAnswer_eq hg, hlive] at h
    rw [Bool.not_true, if_neg Bool.false_ne_true] at h
    split at h
    · split at h <;> cases h
    · split at h
      · cases h
      · split at h <;> cases h

/-- A use is refused for want of uses only where the grant is not dead. -/
theorem live_of_exhausted (h : ((c.useOp grant v).step window now s).2 = .ok (.grantUse .exhausted)) :
    s.dead grant.id now = false := by
  by_contra hdead
  rw [Bool.not_eq_false] at hdead
  obtain ⟨g, hg, hlive⟩ := Store.dead_iff.1 hdead
  obtain ⟨hmem, hid⟩ := findGrant_eq_some.1 hg
  rw [show ((c.useOp grant v).step window now s).2 =
      s.useAnswer grant.id (some c.idemKey) (some v) .releaseAttempt window none now from rfl, ← hid,
    useAnswer_eq hmem, hlive] at h
  rw [Bool.not_false, if_pos rfl] at h
  cases h

/-- A first use finds no record under its key, and leaves one of its time. -/
theorem record_of_firstUse (h : (c.useAt grant source v window now s).isFirstUse g) :
    s.findRead grant.id c.idemKey = none ∧
      (∃ row ∈ ((c.useOp grant v).step window now s).1.reads.rows, stamp row = (grant.id, c.idemKey, now)) ∧
      ∃ g₀ ∈ s.grants.rows, g₀.id = grant.id ∧ g.passthroughCiphertext = g₀.passthroughCiphertext := by
  rw [ReadUse.isFirstUse, ReadCall.useAt] at h
  rcases (c.useOp grant v).step_cases window now s with ⟨r, s', hexec, hstep⟩ | ⟨r, hexec, hstep⟩
  · rw [hstep] at h ⊢
    obtain ⟨g₀, hg₀, -, ⟨_, -, -, rfl, -⟩ | ⟨hnone, -, rfl, rfl⟩⟩ := beginGrantUse_ok hexec
    · cases h
    · cases h
      obtain ⟨hmem, hid⟩ := findGrant_eq_some.1 hg₀
      refine ⟨hnone, ?_, g₀, hmem, hid, rfl⟩
      rw [← hid] at hnone ⊢
      exact ⟨_, Table.mem_insert_self (fresh_read hnone (some v) g₀.passthroughCiphertext.isSome now), rfl⟩
  · rw [hstep] at h
    obtain rfl | rfl | rfl | rfl := beginGrantUse_error hexec <;> cases h

/-- A first use of a payload of the grant's own was resolved to the grant. -/
theorem version_of_firstUse (hs : Sound window s now) (hsnap : Snapshot window s now grant)
    (hown : grant.passthroughEphemeral = true → v = grant.id)
    (h : (c.useAt grant source v window now s).isFirstUse g) (hct : g.passthroughCiphertext.isSome = true) :
    v = grant.id := by
  obtain ⟨-, -, g₀, hg₀, hid, hsame⟩ := record_of_firstUse h
  obtain ⟨g', hg', hev⟩ := hsnap.row
  obtain rfl := findGrant_unique hg₀ hg' (hid.trans hev.id.symm)
  apply hown
  rw [← hev.ephemeral]
  by_contra hne
  rw [Bool.not_eq_true] at hne
  rw [hsame, (hs.payloads g₀ hg₀).stored hne] at hct
  cases hct

/-- While the window of the first use is open, another use under its key repeats it, unless the grant is dead. -/
theorem use_of_record {row : GrantReadRow} (hrow : row ∈ s.reads.rows) (hid : row.grantId = grant.id)
    (hkey : row.idemKey = c.idemKey) (hw : row.firstReadAt.within now window = true)
    (hg : ∃ g ∈ s.grants.rows, g.id = grant.id) :
    (∃ g pinned p, (c.useAt grant source v window now s).isReplay g pinned p) ∨ s.dead grant.id now = true := by
  obtain ⟨g, hg, hgid⟩ := hg
  have hread : s.findRead g.id c.idemKey = some row := findRead_eq_some.2 ⟨hrow, hid.trans hgid.symm, hkey⟩
  have hans : s.useAnswer g.id (some c.idemKey) (some v) .releaseAttempt window none now = _ := useAnswer_eq hg
  rw [Option.bind_some, hread] at hans
  cases hlive : g.live now with
  | false => exact Or.inr (Store.dead_iff.2 ⟨g, findGrant_eq_some.2 ⟨hg, hgid⟩, hlive⟩)
  | true =>
      refine Or.inl ⟨g, row.secretVersionId, row.passthrough, ?_⟩
      rw [hlive, Bool.not_true, if_neg Bool.false_ne_true] at hans
      simp only [hw, if_true] at hans
      rw [hgid] at hans
      exact hans

end

/-! ## Every run of the server -/

section
variable {env : ReadEnv} {es : List ReadEvent} {w w' : ReadServer} {t now : DateTime}

/-- A step that makes no use. -/
structure Quiet (env : ReadEnv) (now : DateTime) (w w' : ReadServer) : Prop where
  dead : ∀ id, w.store.dead id now = true → w'.store.dead id now = true
  reads : ∀ row ∈ w.store.reads.rows, ∃ row' ∈ w'.store.reads.rows, stamp row' = stamp row
  calls : ∀ c' ∈ w'.calls, c' ∈ w.calls ∨ c'.phase = .arrived ∨
    ∃ c ∈ w.calls, c' = { c with phase := c.next env w.ephemeralKek now w.store }

/-- Everything that one step can do. -/
theorem readServer_cases (env : ReadEnv) (a : ReadAction) (now : DateTime) (w : ReadServer) :
    (∃ i c grant source v, c ∈ w.calls ∧ c.phase = .resolved grant source v ∧
      ReadServer.step env a now w =
        ({ w with
            store := ((c.useOp grant v).step env.replayWindowSeconds now w.store).1
            calls := w.calls.set i
              { c with phase := .afterUse source v ((c.useOp grant v).step env.replayWindowSeconds now w.store).2 } },
          some (c.useAt grant source v env.replayWindowSeconds now w.store))) ∨
      ∃ w', ReadServer.step env a now w = (w', none) ∧ Quiet env now w w' := by
  have hkeep : ∀ row ∈ w.store.reads.rows, ∃ row' ∈ w.store.reads.rows, stamp row' = stamp row :=
    fun row hrow => ⟨row, hrow, rfl⟩
  have hsame : Quiet env now w w := ⟨fun _ hd => hd, hkeep, fun _ hc => Or.inl hc⟩
  cases a with
  | store op =>
      cases hop : isKeyedUse op with
      | true => exact Or.inr ⟨w, if_pos hop, hsame⟩
      | false =>
          refine Or.inr ⟨_, if_neg (by simp [hop]), fun id hd => dead_call op _ hd (le_refl now), fun row hrow => ?_,
            fun _ hc => Or.inl hc⟩
          exact stamp_call op _ now hrow
  | receive client grantId idemKey =>
      refine Or.inr ⟨_, rfl, fun _ hd => hd, hkeep, fun c hc => ?_⟩
      rcases List.mem_cons.1 hc with rfl | hc
      · exact Or.inr (Or.inl rfl)
      · exact Or.inl hc
  | advance i =>
      cases hc : w.calls[i]? with
      | none => exact Or.inr ⟨w, by simp only [ReadServer.step, hc], hsame⟩
      | some c =>
          have hmem := List.mem_of_getElem? hc
          cases hphase : c.phase with
          | resolved grant source v =>
              refine Or.inl ⟨i, c, grant, source, v, hmem, hphase, ?_⟩
              simp only [ReadServer.step, hc, ReadServer.advance, hphase]
              rfl
          | _ =>
              refine Or.inr ⟨{ w with calls := w.calls.set i { c with phase := c.next env w.ephemeralKek now w.store } },
                ?_, fun _ hd => hd, hkeep, fun c' hc' => ?_⟩
              · simp only [ReadServer.step, hc, ReadServer.advance, hphase]
              · rcases List.mem_or_eq_of_mem_set hc' with hc' | rfl
                · exact Or.inl hc'
                · exact Or.inr (Or.inr ⟨c, hmem, rfl⟩)
  | restart clients kek =>
      exact Or.inr ⟨_, rfl, fun _ hd => hd, hkeep, fun c hc => absurd hc List.not_mem_nil⟩

/-- A dead grant stays dead. -/
theorem dead_step {id : Uuid} (hd : w.store.dead id t = true) (ht : t ≤ now) (a : ReadAction) :
    (ReadServer.step env a now w).1.store.dead id now = true := by
  rcases readServer_cases env a now w with ⟨i, c, grant, source, v, hc, hphase, heq⟩ | ⟨w', heq, hq⟩
  · rw [heq]
    exact dead_call _ _ hd ht
  · rw [heq]
    exact hq.dead id (dead_later hd ht)

/-- What holds of the answers after the calls `es`, which led to `w`. -/
structure AnswersOk (env : ReadEnv) (es : List ReadEvent) (w : ReadServer) (t : DateTime) : Prop where
  run : RunOk env es w t
  calls : ∀ c ∈ w.calls, c.phase.Rests (usesOf es) w.store t c.grantId c.idemKey
  own : ∀ use ∈ usesOf es, ∀ g, use.isFirstUse g → g.passthroughCiphertext.isSome = true → use.versionId = use.grantId
  stamped : ∀ e ∈ es, ∀ use ∈ e.reply, ∀ g, use.isFirstUse g →
    ∃ row ∈ w.store.reads.rows, stamp row = (use.grantId, use.key, e.now)

theorem answersOk_init (env : ReadEnv) (kek : KeyMaterial) (t : DateTime) : AnswersOk env [] (.init kek) t where
  run := runOk_init env kek t
  calls c hc := absurd hc List.not_mem_nil
  own := by simp [usesOf]
  stamped := by simp

/-- The use of a read, and the answer it gets. -/
theorem AnswersOk.rests_use (h : AnswersOk env es w now) {c : ReadCall} (hc : c ∈ w.calls) {grant : GrantRow}
    {source : Source} {v : Uuid} (hphase : c.phase = .resolved grant source v) :
    (ReadPhase.afterUse source v ((c.useOp grant v).step env.replayWindowSeconds now w.store).2).Rests
      (usesOf es ++ [c.useAt grant source v env.replayWindowSeconds now w.store])
      ((c.useOp grant v).step env.replayWindowSeconds now w.store).1 now c.grantId c.idemKey := by
  have hok := h.run.server.calls c hc
  have hrests := h.calls c hc
  rw [hphase] at hok hrests
  obtain ⟨hid, hown⟩ := hrests
  unfold ReadPhase.afterUse
  split
  · rename_i outcome hans
    refine ⟨fun g ho => ?_, fun g pinned passthrough ho => ?_, fun ho => ?_, fun ho => ?_⟩
    · rw [ho] at hans
      exact ⟨_, List.mem_append_right _ (List.mem_singleton.2 rfl), hid, rfl, rfl, g, hans⟩
    · rw [ho] at hans
      obtain ⟨hg, ⟨use, huse, hgid, hkey, g₁, hfirst⟩, hsame, -, -⟩ :=
        replayed_of_use h.run.server.sound h.run.kept hans
      obtain ⟨hpin, hpass⟩ := hsame use huse hgid hkey g₁ hfirst
      refine ⟨use.versionId, ⟨use, List.mem_append_left _ huse, hgid.trans hid, hkey, rfl, g₁, hfirst⟩, hpin, fun hp => ?_⟩
      rw [h.own use huse g₁ hfirst (hpass ▸ hp), hgid]
      exact (findGrant_eq_some.1 hg).2
    · rw [ho] at hans
      rw [← hid]
      exact dead_call _ _ (dead_of_use hok.1.exists_id hans) (le_refl now)
    · rw [ho] at hans
      exact ⟨_, List.mem_append_right _ (List.mem_singleton.2 rfl), hid, rfl, hans⟩
  · exact answerRests_error (by decide)

theorem AnswersOk.tick (h : AnswersOk env es w t) (ht : t ≤ now) : AnswersOk env es w now where
  run := h.run.tick ht
  calls c hc := (h.calls c hc).tick fun hd => dead_later hd ht
  own := h.own
  stamped := h.stamped

theorem AnswersOk.quiet (h : AnswersOk env es w now) (hq : Quiet env now w w') {e : ReadEvent} (he : e.reply = none)
    (hrun : RunOk env (es ++ [e]) w' now) : AnswersOk env (es ++ [e]) w' now where
  run := hrun
  calls c' hc' := by
    rw [usesOf_append, he, Option.toList_none]
    rcases hq.calls c' hc' with hold | harrived | ⟨c, hc, rfl⟩
    · exact (h.calls c' hold).mono [] (hq.dead _)
    · rw [harrived]
      trivial
    · exact (ReadCall.rests_next (h.run.server.calls c hc) (h.calls c hc)).mono [] (hq.dead _)
  own := by
    rw [usesOf_append, he, Option.toList_none, List.append_nil]
    exact h.own
  stamped e' he' use huse g hg := by
    rcases List.mem_append.1 he' with hold | hnew
    · obtain ⟨row, hrow, hs⟩ := h.stamped e' hold use huse g hg
      obtain ⟨row', hrow', hs'⟩ := hq.reads row hrow
      exact ⟨row', hrow', hs'.trans hs⟩
    · rw [List.mem_singleton.1 hnew, he] at huse
      exact absurd huse (Option.not_mem_none use)

theorem AnswersOk.used (h : AnswersOk env es w now) {i : Nat} {c : ReadCall} (hc : c ∈ w.calls) {grant : GrantRow}
    {source : Source} {v : Uuid} (hphase : c.phase = .resolved grant source v) {e : ReadEvent}
    (he : e.reply = some (c.useAt grant source v env.replayWindowSeconds now w.store)) (hnow : e.now = now)
    (hw : w' = { w with
      store := ((c.useOp grant v).step env.replayWindowSeconds now w.store).1
      calls := w.calls.set i
        { c with phase := .afterUse source v ((c.useOp grant v).step env.replayWindowSeconds now w.store).2 } })
    (hrun : RunOk env (es ++ [e]) w' now) : AnswersOk env (es ++ [e]) w' now where
  run := hrun
  calls c' hc' := by
    rw [usesOf_append, he, Option.toList_some]
    rw [hw] at hc' ⊢
    rcases List.mem_or_eq_of_mem_set hc' with hold | rfl
    · exact (h.calls c' hold).mono _ fun hd => dead_call _ _ hd (le_refl now)
    · exact h.rests_use hc hphase
  own := by
    intro use huse g hg hct
    rw [usesOf_append, he, Option.toList_some, List.mem_append, List.mem_singleton] at huse
    rcases huse with hold | rfl
    · exact h.own use hold g hg hct
    · have hok := h.run.server.calls c hc
      have hrests := h.calls c hc
      rw [hphase] at hok hrests
      exact version_of_firstUse h.run.server.sound hok.1 hrests.2 hg hct
  stamped e' he' use huse g hg := by
    rw [hw]
    rcases List.mem_append.1 he' with hold | hnew
    · obtain ⟨row, hrow, hs⟩ := h.stamped e' hold use huse g hg
      obtain ⟨row', hrow', hs'⟩ := stamp_call (c.useOp grant v) env.replayWindowSeconds now hrow
      exact ⟨row', hrow', hs'.trans hs⟩
    · obtain rfl := List.mem_singleton.1 hnew
      rw [he, Option.mem_some_iff] at huse
      subst huse
      obtain ⟨-, hrow, -⟩ := record_of_firstUse hg
      rw [hnow]
      exact hrow

theorem AnswersOk.step (h : AnswersOk env es w t) (ht : t ≤ now) (a : ReadAction) :
    AnswersOk env (es ++ [callEvent (ReadServer.step env) a now w]) (ReadServer.step env a now w).1 now := by
  have hrun := h.run.step ht a
  rcases readServer_cases env a now w with ⟨i, c, grant, source, v, hc, hphase, heq⟩ | ⟨w', heq, hq⟩
  · exact (h.tick ht).used hc hphase (congrArg Prod.snd heq) rfl (congrArg Prod.fst heq) hrun
  · rw [heq] at hrun ⊢
    exact (h.tick ht).quiet hq (congrArg Prod.snd heq) hrun

/-- No use before a first use was one under the same key. -/
theorem firstUse_fresh (h : AnswersOk env es w t) {c : ReadCall} {grant g : GrantRow} {source : Source} {v : Uuid}
    (hg : (c.useAt grant source v env.replayWindowSeconds now w.store).isFirstUse g) :
    ¬ ∃ v', FirstUsed (usesOf es) grant.id c.idemKey v' := by
  rintro ⟨v', use, huse, hid, hkey, -, g', hfirst⟩
  obtain ⟨row, hrow, -, -, hrid, hrkey, -⟩ := h.run.kept.first use huse g' hfirst
  obtain ⟨hnone, -, -⟩ := record_of_firstUse hg
  rw [findRead_eq_some.2 ⟨hrow, hrid.symm.trans hid, hrkey.symm.trans hkey⟩] at hnone
  cases hnone

end

end Keychute.Api
