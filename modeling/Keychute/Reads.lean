import Keychute.Api.Read
import Keychute.Replays

/-!
# A replay releases what its first use released

* `ReadPhase.Ok` : what a read that is under way may rely on, whatever happens beside it;
* `Kept` : every replay record is of a first use, and every first use has its record;
* `ServerOk.step` : every step of the server keeps both, and what replays need (`Sound`);
* `replay_stable` : the outcomes of the uses, over every run.
-/

namespace Keychute.Api
open Keychute.Db Keychute.Lib Keychute.Crypto

/-! ## A read under way -/

/-- A grant as it was read: the row has only evolved since, and a payload that was gone then was gone for good. -/
structure Snapshot (window : Int) (s : Store) (t : DateTime) (g : GrantRow) : Prop where
  row : ∃ g' ∈ s.grants.rows, g.Evolves g'
  gone : g.passthroughEphemeral = true → g.passthroughCiphertext = none → s.silent window t g.id = true
  stored : g.passthroughEphemeral = false → g.passthroughCiphertext = none

/-- The row that revalidation found is there for as long as the grant needs it. -/
def HoldsSecret (s : Store) (t : DateTime) (g : GrantRow) (secret : Option Db.SecretRow) : Prop :=
  ∀ row ∈ secret, s.WhileLive t g.id (s.hasRow row.id)

/-- What the source says about the grant, and the version it names. -/
structure SourceOk (s : Store) (t : DateTime) (g : GrantRow) (source : Source) (versionId : Uuid) : Prop where
  version : s.WhileLive t g.id (s.hasVersion · versionId)
  gone : source = .passthroughGone → g.passthroughEphemeral = true ∧ g.passthroughCiphertext = none

def ReadPhase.Ok (window : Int) (s : Store) (t : DateTime) : ReadPhase → Prop
  | .owned g => Snapshot window s t g
  | .clientRead g _ => Snapshot window s t g
  | .revalidated g secret => Snapshot window s t g ∧ HoldsSecret s t g secret
  | .alive g secret => Snapshot window s t g ∧ HoldsSecret s t g secret
  | .resolved g source versionId => Snapshot window s t g ∧ SourceOk s t g source versionId
  | _ => True

section
variable {window : Int} {op : StoreOp} {t now : DateTime} {s s' : Store} {r : Reply} {g : GrantRow}

theorem Snapshot.tick (h : Snapshot window s t g) (ht : t ≤ now) : Snapshot window s now g where
  row := h.row
  gone heph hct := silent_later ht (h.gone heph hct)
  stored := h.stored

theorem Snapshot.step (h : Snapshot window s now g) (hexec : (op.txn window now).exec s = .ok (r, s')) :
    Snapshot window s' now g where
  row := by
    obtain ⟨g', hg', hev⟩ := h.row
    obtain ⟨g'', hg'', hev', -⟩ := grant_step hexec hg'
    exact ⟨g'', hg'', hev.trans hev'⟩
  gone heph hct := silent_step hexec (h.gone heph hct)
  stored := h.stored

theorem Snapshot.exists_id (h : Snapshot window s t g) : ∃ g' ∈ s.grants.rows, g'.id = g.id := by
  obtain ⟨g', hg', hev⟩ := h.row
  exact ⟨g', hg', hev.id⟩

theorem ReadPhase.Ok.tick {p : ReadPhase} (h : p.Ok window s t) (ht : t ≤ now) : p.Ok window s now := by
  cases p with
  | owned g => exact Snapshot.tick h ht
  | clientRead g clients => exact Snapshot.tick h ht
  | revalidated g secret => exact ⟨h.1.tick ht, fun row hrow => (h.2 row hrow).tick ht⟩
  | alive g secret => exact ⟨h.1.tick ht, fun row hrow => (h.2 row hrow).tick ht⟩
  | resolved g source versionId => exact ⟨h.1.tick ht, h.2.version.tick ht, h.2.gone⟩
  | _ => trivial

theorem HoldsSecret.step {secret : Option Db.SecretRow} (h : HoldsSecret s now g secret)
    (hs : Snapshot window s now g) (hexec : (op.txn window now).exec s = .ok (r, s')) : HoldsSecret s' now g secret :=
  fun row hrow => (h row hrow).step hexec hs.exists_id fun _ => hasRow_step hexec

/-- What a read relies on outlasts every commit. -/
theorem ReadPhase.Ok.step {p : ReadPhase} (h : p.Ok window s now) (hexec : (op.txn window now).exec s = .ok (r, s')) :
    p.Ok window s' now := by
  cases p with
  | owned g => exact Snapshot.step h hexec
  | clientRead g clients => exact Snapshot.step h hexec
  | revalidated g secret => exact ⟨h.1.step hexec, h.2.step h.1 hexec⟩
  | alive g secret => exact ⟨h.1.step hexec, h.2.step h.1 hexec⟩
  | resolved g source versionId =>
      exact ⟨h.1.step hexec, h.2.version.step hexec h.1.exists_id fun _ => hasVersion_step hexec, h.2.gone⟩
  | _ => trivial

theorem ReadPhase.Ok.call {p : ReadPhase} (h : p.Ok window s t) (ht : t ≤ now) :
    p.Ok window (op.step window now s).1 now := by
  rcases op.step_cases window now s with ⟨r, s', hexec, hstep⟩ | ⟨r, hexec, hstep⟩
  · rw [hstep]
    exact (h.tick ht).step hexec
  · rw [hstep]
    exact h.tick ht

/-! ## The statements of a read -/

theorem ReadPhase.ok_orDone {x : Except ApiFailure ReadPhase} (h : ∀ p, x = .ok p → p.Ok window s t) :
    (ReadPhase.orDone x).Ok window s t := by
  cases x with
  | error e => trivial
  | ok p => exact h p rfl

/-- A grant of the table. -/
theorem snapshot_of_sound (hs : Sound window s t) (hg : g ∈ s.grants.rows) : Snapshot window s t g where
  row := ⟨g, hg, .refl g⟩
  gone heph hct := by
    refine ((hs.payloads g hg).own heph).resolve_left fun hpay => ?_
    rw [GrantRow.hasPayload, hct] at hpay
    cases hpay
  stored := (hs.payloads g hg).stored

theorem mem_of_ownedGrant {client : String} {id : Uuid} (h : ownedGrant s client id = .ok g) : g ∈ s.grants.rows := by
  simp only [ownedGrant, bind_eq_ok, okOr_eq_ok] at h
  obtain ⟨g', hg', _, -, hret⟩ := h
  cases hret
  exact (findGrant_eq_some.1 hg').1

/-- The row that revalidation found is of the grant's name. -/
theorem hasRow_of_revalidateGrant {clients : Store} {secret : Option Db.SecretRow}
    (h : revalidateGrant clients s g = .ok secret) : ∀ row ∈ secret, s.hasRow row.id g.secretName := by
  simp only [revalidateGrant, bind_eq_ok, okOr_eq_ok] at h
  obtain ⟨_, -, _, -, _, -, _, -, _, -, _, -, h⟩ := h
  intro row hrow
  split at h
  · cases h
    cases hrow
  · rename_i row' hfound
    simp only [bind_eq_ok] at h
    obtain ⟨_, -, _, -, _, -, hret⟩ := h
    cases hret
    obtain rfl := Option.some.inj hrow
    exact ⟨row', List.mem_of_find?_eq_some hfound, rfl, by simpa using List.find?_some hfound⟩

/-- A payload of its own names no version; a stored one names a version of the row that revalidation found. -/
theorem sourceOk_of_resolveSource {secret : Option Db.SecretRow} {source : Source} {versionId : Uuid}
    (hsnap : Snapshot window s t g) (hheld : HoldsSecret s t g secret)
    (h : resolveSource s g secret = .ok (source, versionId)) : SourceOk s t g source versionId := by
  obtain ⟨g', hg', hev⟩ := hsnap.row
  have hown : g.passthroughEphemeral = true → s.WhileLive t g.id (s.hasVersion · versionId) := by
    intro heph g'' hg'' hid hstored
    rw [findGrant_unique hg'' hg' (hid.trans hev.id.symm), hev.ephemeral, heph] at hstored
    cases hstored
  unfold resolveSource at h
  split at h
  · rename_i hct
    cases h
    refine ⟨hown ?_, nofun⟩
    by_contra heph
    rw [hsnap.stored (by simpa using heph)] at hct
    cases hct
  · rename_i hct
    split at h
    · rename_i heph
      cases h
      exact ⟨hown heph, fun _ => ⟨heph, by simpa using hct⟩⟩
    · simp only [bind_eq_ok, okOr_eq_ok] at h
      obtain ⟨row, rfl, version, hversion, hret⟩ := h
      cases hret
      refine ⟨fun g'' hg'' hid hstored hlive => ?_, nofun⟩
      have hsec := List.find?_some hversion
      rw [Bool.and_eq_true, beq_iff_eq] at hsec
      refine ⟨version, List.mem_of_find?_eq_some hversion, rfl, ?_⟩
      rw [hsec.1]
      exact hheld row rfl g'' hg'' hid hstored hlive

theorem whileLive_const {grantId : Uuid} {P : String → Prop} {name : String} (hP : P name)
    (hg : ∀ g ∈ s.grants.rows, g.id = grantId → g.secretName = name) : s.WhileLive t grantId P := by
  intro g hmem hid _ _
  rwa [hg g hmem hid]

/-- The next statement of a read finds what the rest relies on. -/
theorem ReadCall.ok_next {env : ReadEnv} {kek : KeyMaterial} {c : ReadCall} (hs : Sound window s t)
    (h : c.phase.Ok window s t) : (c.next env kek t s).Ok window s t := by
  unfold ReadCall.next
  split
  · refine ReadPhase.ok_orDone fun p hp => ?_
    simp only [bind_eq_ok] at hp
    obtain ⟨_, -, g, hg, _, -, _, -, hret⟩ := hp
    cases hret
    exact snapshot_of_sound hs (mem_of_ownedGrant hg)
  · rename_i g hphase
    rw [hphase] at h
    exact h
  · rename_i g clients hphase
    rw [hphase] at h
    refine ReadPhase.ok_orDone fun p hp => ?_
    simp only [bind_eq_ok] at hp
    obtain ⟨secret, hsecret, hret⟩ := hp
    cases hret
    obtain ⟨g', hg', hev⟩ := Snapshot.row h
    refine ⟨h, fun row hrow => whileLive_const (hasRow_of_revalidateGrant hsecret row hrow) ?_⟩
    intro g'' hg'' hid
    rw [findGrant_unique hg'' hg' (hid.trans hev.id.symm), hev.secretName]
  · rename_i g secret hphase
    rw [hphase] at h
    split
    · trivial
    · exact h
  · rename_i g secret hphase
    rw [hphase] at h
    refine ReadPhase.ok_orDone fun p hp => ?_
    simp only [bind_eq_ok] at hp
    obtain ⟨⟨source, versionId⟩, hresolve, hret⟩ := hp
    cases hret
    exact ⟨h.1, sourceOk_of_resolveSource h.1 h.2 hresolve⟩
  · rename_i hphase
    rw [hphase] at h
    exact h
  · trivial
  · trivial

end

/-! ## The server -/

abbrev ReadEvent : Type := Event ReadAction DateTime ReadServer (Option ReadUse)

abbrev ReadRun (env : ReadEnv) : ReadServer → DateTime → List ReadEvent → ReadServer → DateTime → Prop :=
  Run (ReadServer.step env)

structure ServerOk (window : Int) (w : ReadServer) (t : DateTime) : Prop where
  sound : Sound window w.store t
  calls : ∀ c ∈ w.calls, c.phase.Ok window w.store t

theorem sound_congr {window : Int} {s s' : Store} {t : DateTime} (hs : Sound window s t) (hg : s'.grants = s.grants)
    (hr : s'.reads = s.reads) (hsec : s'.secrets = s.secrets) (hv : s'.versions = s.versions) : Sound window s' t := by
  cases s
  cases s'
  simp only at hg hr hsec hv
  subst hg hr hsec hv
  exact ⟨fun g hg => ⟨(hs.payloads g hg).own, (hs.payloads g hg).stored⟩,
    fun r hr => ⟨(hs.reads r hr).grant, (hs.reads r hr).pinned, (hs.reads r hr).version⟩⟩

section
variable {env : ReadEnv} {w : ReadServer} {t now : DateTime}

theorem pins_of_not_keyed {op : StoreOp} {s : Store} (h : isKeyedUse op = false) : op.Pins s t := by
  intro grantId key versionId kind target hop
  subst hop
  cases h

theorem pins_useOp {s : Store} {c : ReadCall} {grant : GrantRow} {versionId : Uuid}
    (h : s.WhileLive t grant.id (s.hasVersion · versionId)) : (c.useOp grant versionId).Pins s t := by
  intro grantId key v kind target hop
  cases hop
  exact ⟨versionId, rfl, h⟩

theorem ReadPhase.ok_afterUse {window : Int} {s : Store} {source : Source} {versionId : Uuid}
    {r : Except DbError Reply} : (ReadPhase.afterUse source versionId r).Ok window s t := by
  unfold ReadPhase.afterUse
  split <;> trivial

theorem ServerOk.tick (h : ServerOk env.replayWindowSeconds w t) (ht : t ≤ now) :
    ServerOk env.replayWindowSeconds w now := ⟨h.sound.tick ht, fun c hc => (h.calls c hc).tick ht⟩

theorem ServerOk.advance (h : ServerOk env.replayWindowSeconds w now) {i : Nat} {c : ReadCall}
    (hc : c ∈ w.calls) : ServerOk env.replayWindowSeconds (w.advance env now i c).1 now := by
  unfold ReadServer.advance
  split
  · -- the use, which names a version that the grant still has
    rename_i grant source versionId hphase
    have hok := h.calls c hc
    rw [hphase] at hok
    refine ⟨h.sound.call (le_refl now) (pins_useOp hok.2.version), fun c' hc' => ?_⟩
    rcases List.mem_or_eq_of_mem_set hc' with hc' | rfl
    · exact (h.calls c' hc').call (le_refl now)
    · exact ReadPhase.ok_afterUse
  · refine ⟨h.sound, fun c' hc' => ?_⟩
    rcases List.mem_or_eq_of_mem_set hc' with hc' | rfl
    · exact h.calls c' hc'
    · exact ReadCall.ok_next h.sound (h.calls c hc)

theorem ServerOk.step (h : ServerOk env.replayWindowSeconds w t) (ht : t ≤ now) (a : ReadAction) :
    ServerOk env.replayWindowSeconds (ReadServer.step env a now w).1 now := by
  have hnow := h.tick ht
  cases a with
  | store op =>
      cases hop : isKeyedUse op with
      | true =>
          rw [show ReadServer.step env (.store op) now w = (w, none) from if_pos hop]
          exact hnow
      | false =>
          rw [ReadServer.step, hop, if_neg Bool.false_ne_true]
          exact ⟨hnow.sound.call (le_refl now) (pins_of_not_keyed hop), fun c hc => (hnow.calls c hc).call (le_refl now)⟩
  | receive client grantId idemKey =>
      refine ⟨hnow.sound, fun c hc => ?_⟩
      rcases List.mem_cons.1 hc with rfl | hc
      · trivial
      · exact hnow.calls c hc
  | advance i =>
      cases hc : w.calls[i]? with
      | none => simpa only [ReadServer.step, hc] using hnow
      | some c => simpa only [ReadServer.step, hc] using hnow.advance (List.mem_of_getElem? hc)
  | restart clients kek => exact ⟨sound_congr hnow.sound rfl rfl rfl rfl, fun c hc => absurd hc List.not_mem_nil⟩

/-! ## The uses so far -/

def ReadUse.isFirstUse (use : ReadUse) (g : GrantRow) : Prop := use.outcome = .ok (.grantUse (.firstUse g))

def ReadUse.isReplay (use : ReadUse) (g : GrantRow) (versionId : Option Uuid) (passthrough : Bool) : Prop :=
  use.outcome = .ok (.grantUse (.replay g versionId passthrough))

/-- The record is of this first use; its pin may be dropped. -/
def ReadUse.Records (use : ReadUse) (row : GrantReadRow) : Prop :=
  ∃ g, use.isFirstUse g ∧ use.grantId = row.grantId ∧ use.key = row.idemKey ∧
    row.passthrough = g.passthroughCiphertext.isSome ∧
    (row.secretVersionId = none ∨ row.secretVersionId = some use.versionId)

/-- The replay records are those of the first uses. -/
structure Kept (uses : List ReadUse) (s : Store) : Prop where
  recorded : ∀ row ∈ s.reads.rows, ∃ use ∈ uses, use.Records row
  first : ∀ use ∈ uses, ∀ g, use.isFirstUse g → ∃ row ∈ s.reads.rows, use.Records row

theorem ReadUse.Records.unpin {use : ReadUse} {row : GrantReadRow} (h : use.Records row) : use.Records row.unpin := by
  obtain ⟨g, hg, hid, hkey, hp, -⟩ := h
  exact ⟨g, hg, hid, hkey, hp, Or.inl rfl⟩

variable {uses : List ReadUse} {s s' : Store}

theorem Kept.congr (h : Kept uses s) (hr : s'.reads = s.reads) : Kept uses s' :=
  ⟨by rw [hr]; exact h.recorded, by rw [hr]; exact h.first⟩

/-- A use that was no first use leaves no record. -/
theorem Kept.append (h : Kept uses s) {use : ReadUse} (hnot : ∀ g, ¬ use.isFirstUse g) (hr : s'.reads = s.reads) :
    Kept (uses ++ [use]) s' := by
  refine ⟨fun row hrow => ?_, fun use' huse' g hg => ?_⟩
  · rw [hr] at hrow
    obtain ⟨use', huse', hrec⟩ := h.recorded row hrow
    exact ⟨use', List.mem_append_left _ huse', hrec⟩
  · rw [hr]
    rcases List.mem_append.1 huse' with huse' | huse'
    · exact h.first use' huse' g hg
    · rw [List.mem_singleton.1 huse'] at hg
      exact absurd hg (hnot g)

theorem Kept.insert (h : Kept uses s) {use : ReadUse} {row : GrantReadRow} (hrec : use.Records row)
    (hfresh : s.reads.Fresh row) (hr : s'.reads = s.reads.insert row) : Kept (uses ++ [use]) s' := by
  refine ⟨fun row' hrow' => ?_, fun use' huse' g hg => ?_⟩
  · rw [hr] at hrow'
    rcases Table.mem_of_mem_insert hrow' with hold | rfl
    · obtain ⟨use', huse', hrec'⟩ := h.recorded row' hold
      exact ⟨use', List.mem_append_left _ huse', hrec'⟩
    · exact ⟨use, by simp, hrec⟩
  · rw [hr]
    rcases List.mem_append.1 huse' with huse' | huse'
    · obtain ⟨row', hrow', hrec'⟩ := h.first use' huse' g hg
      exact ⟨row', Table.mem_insert_of_mem hrow', hrec'⟩
    · rw [List.mem_singleton.1 huse']
      exact ⟨row, Table.mem_insert_self hfresh, hrec⟩

theorem Kept.unpinned (h : Kept uses s) {p : GrantReadRow → Bool}
    (hr : s'.reads = s.reads.update p GrantReadRow.unpin GrantReadRow.key_unpin) : Kept uses s' := by
  have hrec : ∀ (use : ReadUse) (row : GrantReadRow), use.Records row →
      use.Records (if p row then row.unpin else row) := by
    intro use row hrec
    split
    · exact hrec.unpin
    · exact hrec
  refine ⟨fun row hrow => ?_, fun use huse g hg => ?_⟩
  · rw [hr] at hrow
    obtain ⟨row₀, hrow₀, rfl⟩ := Table.mem_update.1 hrow
    obtain ⟨use, huse, hrec₀⟩ := h.recorded row₀ hrow₀
    exact ⟨use, huse, hrec use row₀ hrec₀⟩
  · obtain ⟨row, hrow, hrec₀⟩ := h.first use huse g hg
    rw [hr]
    exact ⟨_, Table.mem_update_of_mem GrantReadRow.key_unpin hrow, hrec use row hrec₀⟩

/-- Another call of the store drops pins at most. -/
theorem Kept.call (h : Kept uses s) {op : StoreOp} (hop : isKeyedUse op = false) (window : Int) (now : DateTime) :
    Kept uses (op.step window now s).1 := by
  rcases op.step_cases window now s with ⟨r, s', hexec, hstep⟩ | ⟨r, hexec, hstep⟩
  · rw [hstep]
    cases (commit_step hexec).reads with
    | same heq => exact h.congr heq
    | unpinned heq => exact h.unpinned heq
    | recorded g key versionId hg hused hnone heq =>
        obtain ⟨kind, target, rfl⟩ := hused
        cases hop
  · rw [hstep]
    exact h

/-- The use of a read is recorded when it is the first under its key. -/
theorem Kept.use (h : Kept uses s) (window : Int) (now : DateTime) (c : ReadCall) (grant : GrantRow) (source : Source)
    (versionId : Uuid) :
    Kept (uses ++ [⟨grant.id, c.idemKey, source, versionId, ((c.useOp grant versionId).step window now s).2⟩])
      ((c.useOp grant versionId).step window now s).1 := by
  rcases (c.useOp grant versionId).step_cases window now s with ⟨r, s', hexec, hstep⟩ | ⟨r, hexec, hstep⟩
  · rw [hstep]
    obtain ⟨g, hg, -, ⟨_, -, -, rfl, rfl⟩ | ⟨hnone, -, rfl, rfl⟩⟩ := beginGrantUse_ok hexec
    · exact h.append (fun g' hfirst => nomatch hfirst) rfl
    · obtain hid := (findGrant_eq_some.1 hg).2
      rw [← hid] at hnone ⊢
      exact h.insert ⟨g.bump, rfl, rfl, rfl, rfl, Or.inr rfl⟩ (fresh_read hnone (some versionId) _ now) rfl
  · rw [hstep]
    refine h.append (fun g' hfirst => ?_) rfl
    rw [ReadUse.isFirstUse] at hfirst
    obtain rfl | rfl | rfl | rfl := beginGrantUse_error hexec <;> cases hfirst

/-! ## Every run -/

/-- What a replay of the grant under the key releases: what the first use under it recorded, and that is still there. -/
structure Replayed (earlier : List ReadUse) (s : Store) (grantId : Uuid) (key : String) (g : GrantRow)
    (versionId : Option Uuid) (passthrough : Bool) : Prop where
  grant : s.findGrant grantId = some g
  first : ∃ use ∈ earlier, use.grantId = grantId ∧ use.key = key ∧ ∃ g₁, use.isFirstUse g₁
  same : ∀ use ∈ earlier, use.grantId = grantId → use.key = key → ∀ g₁, use.isFirstUse g₁ →
    versionId = some use.versionId ∧ passthrough = g₁.passthroughCiphertext.isSome
  payload : passthrough = true → g.hasPayload = true
  version : passthrough = false → ∃ row ∈ s.versions.rows, versionId = some row.id

theorem replayed_of_use {window : Int} {c : ReadCall} {grant g : GrantRow} {id : Uuid} {v : Option Uuid} {p : Bool}
    (hs : Sound window s now) (hk : Kept uses s)
    (h : ((c.useOp grant id).step window now s).2 = .ok (.grantUse (.replay g v p))) :
    Replayed uses s grant.id c.idemKey g v p := by
  rcases (c.useOp grant id).step_cases window now s with ⟨r, s', hexec, hstep⟩ | ⟨r, hexec, hstep⟩
  · rw [hstep] at h
    obtain ⟨g', hg, hlive, ⟨prior, hprior, hw, rfl, -⟩ | ⟨-, -, rfl, -⟩⟩ := beginGrantUse_ok hexec
    · cases h
      obtain ⟨hmem, hid⟩ := findGrant_eq_some.1 hg
      obtain ⟨hrow, hgid, hkey⟩ := findRead_eq_some.1 hprior
      have hok := hs.reads prior hrow
      obtain ⟨g₀, hg₀, hid₀, hpass⟩ := hok.grant
      obtain rfl := findGrant_unique hg₀ hmem (hid₀.trans (hgid.trans hid.symm))
      -- the window is open, so the pin is still there
      obtain ⟨v, hv⟩ : ∃ v, prior.secretVersionId = some v := by
        rw [← Option.isSome_iff_exists, Option.isSome_iff_ne_none]
        intro hnone
        rw [not_within_of_olderThan (hok.pinned hnone)] at hw
        cases hw
      have hrec : ∀ use ∈ uses, use.Records prior → ∀ g₁, use.isFirstUse g₁ →
          prior.secretVersionId = some use.versionId ∧ prior.passthrough = g₁.passthroughCiphertext.isSome := by
        intro use huse hrec g₁ hfirst
        obtain ⟨g₂, hfirst₂, -, -, hp, hpin⟩ := hrec
        have hsame : g₂ = g₁ := by
          rw [ReadUse.isFirstUse, hfirst₂] at hfirst
          cases hfirst
          rfl
        subst hsame
        refine ⟨hpin.resolve_left ?_, hp⟩
        rw [hv]
        simp
      refine ⟨hg, ?_, ?_, ?_, ?_⟩
      · obtain ⟨use, huse, g₁, hfirst, huid, hukey, -⟩ := hk.recorded prior hrow
        exact ⟨use, huse, huid.trans hgid, hukey.trans hkey, g₁, hfirst⟩
      · intro use huse huid hukey g₁ hfirst
        obtain ⟨row, hrow', hrec'⟩ := hk.first use huse g₁ hfirst
        have hclash : readKeys.clashes row prior = true := by
          obtain ⟨_, _, hrid, hrkey, -⟩ := hrec'
          rw [Keys.single_clashes, ← hrid, ← hrkey, huid, hukey, hgid, hkey]
        obtain rfl := Table.eq_of_clash hrow' hrow hclash
        exact hrec use huse hrec' g₁ hfirst
      · intro hp
        refine (hs.payloads g₀ hmem).has hmem hlive (Or.inr (replayOpen_iff.2 ⟨c.idemKey, prior, ?_, hw⟩)) ?_
        · rw [hid]
          exact hprior
        · rw [← hpass, hp]
      · intro hp
        obtain ⟨row, hmemv, hrid, -⟩ := hok.version v hv g₀ hmem (hid₀) (hpass ▸ hp) hlive
        exact ⟨row, hmemv, hv.trans (congrArg some hrid.symm)⟩
    · cases h
  · rw [hstep] at h
    obtain rfl | rfl | rfl | rfl := beginGrantUse_error hexec <;> cases h

/-- A read that found the payload gone is refused. -/
theorem not_firstUse_of_gone {window : Int} {c : ReadCall} {grant : GrantRow} {source : Source} {id : Uuid}
    (hsnap : Snapshot window s now grant) (hsrc : SourceOk s now grant source id) (hgone : source = .passthroughGone)
    (g : GrantRow) : ((c.useOp grant id).step window now s).2 ≠ .ok (.grantUse (.firstUse g)) := by
  obtain ⟨heph, hct⟩ := hsrc.gone hgone
  have hsilent := hsnap.gone heph hct
  intro h
  rcases useAnswer_of_silent hsilent (some c.idemKey) (some id) .releaseAttempt none with hans | hans <;>
    · rw [show ((c.useOp grant id).step window now s).2 = _ from hans] at h
      cases h

/-- The uses that the reads have made. -/
def usesOf (es : List ReadEvent) : List ReadUse := es.filterMap (·.reply)

/-- What holds after the calls `es`, which led to `w`. -/
structure RunOk (env : ReadEnv) (es : List ReadEvent) (w : ReadServer) (t : DateTime) : Prop where
  server : ServerOk env.replayWindowSeconds w t
  kept : Kept (usesOf es) w.store
  gone : ∀ use ∈ usesOf es, use.source = .passthroughGone → ∀ g, ¬ use.isFirstUse g

theorem usesOf_append {es : List ReadEvent} {e : ReadEvent} :
    usesOf (es ++ [e]) = usesOf es ++ e.reply.toList := by
  rw [usesOf, List.filterMap_append, usesOf]
  cases h : e.reply <;> simp [h]

/-- The next statement of a read, with the uses it makes. -/
theorem RunOk.advance {es : List ReadEvent} (h : RunOk env es w now) {c : ReadCall} (hc : c ∈ w.calls) (i : Nat) :
    Kept (usesOf es ++ (w.advance env now i c).2.toList) (w.advance env now i c).1.store ∧
      ∀ use ∈ (w.advance env now i c).2, use.source = .passthroughGone → ∀ g, ¬ use.isFirstUse g := by
  unfold ReadServer.advance
  split
  · rename_i grant source versionId hphase
    have hok := h.server.calls c hc
    rw [hphase] at hok
    refine ⟨h.kept.use env.replayWindowSeconds now c grant source versionId, ?_⟩
    intro use huse hgone g
    cases huse
    exact not_firstUse_of_gone hok.1 hok.2 hgone g
  · refine ⟨?_, fun use huse => absurd huse (Option.not_mem_none use)⟩
    rw [Option.toList_none, List.append_nil]
    exact h.kept

theorem RunOk.tick {es : List ReadEvent} (h : RunOk env es w t) (ht : t ≤ now) : RunOk env es w now :=
  ⟨h.server.tick ht, h.kept, h.gone⟩

theorem runOk_init (env : ReadEnv) (kek : KeyMaterial) (t : DateTime) : RunOk env [] (.init kek) t where
  server := ⟨sound_empty _ t, fun c hc => absurd hc List.not_mem_nil⟩
  kept := ⟨by simp [ReadServer.init, Store.empty], by simp [usesOf]⟩
  gone := by simp [usesOf]

theorem RunOk.step {es : List ReadEvent} (h : RunOk env es w t) (ht : t ≤ now) (a : ReadAction) :
    RunOk env (es ++ [callEvent (ReadServer.step env) a now w]) (ReadServer.step env a now w).1 now := by
  suffices hstep : Kept (usesOf es ++ (ReadServer.step env a now w).2.toList) (ReadServer.step env a now w).1.store ∧
      ∀ use ∈ (ReadServer.step env a now w).2, use.source = .passthroughGone → ∀ g, ¬ use.isFirstUse g by
    refine ⟨h.server.step ht a, ?_, ?_⟩
    · rw [usesOf_append]
      exact hstep.1
    · intro use huse
      rw [usesOf_append, List.mem_append, Option.mem_toList] at huse
      exact huse.elim (h.gone use) (hstep.2 use)
  have hsame : ∀ s, s.reads = w.store.reads → Kept (usesOf es ++ (none : Option ReadUse).toList) s ∧
      ∀ use ∈ (none : Option ReadUse), use.source = .passthroughGone → ∀ g, ¬ use.isFirstUse g := by
    intro s hr
    rw [Option.toList_none, List.append_nil]
    exact ⟨h.kept.congr hr, fun use huse => absurd huse (Option.not_mem_none use)⟩
  cases a with
  | store op =>
      cases hop : isKeyedUse op with
      | true =>
          rw [show ReadServer.step env (.store op) now w = (w, none) from if_pos hop]
          exact hsame _ rfl
      | false =>
          rw [ReadServer.step, hop, if_neg Bool.false_ne_true]
          rw [Option.toList_none, List.append_nil]
          exact ⟨h.kept.call hop _ now, fun use huse => absurd huse (Option.not_mem_none use)⟩
  | receive client grantId idemKey => exact hsame _ rfl
  | advance i =>
      cases hc : w.calls[i]? with
      | none =>
          simp only [ReadServer.step, hc]
          exact hsame _ rfl
      | some c =>
          simp only [ReadServer.step, hc]
          exact (h.tick ht).advance (List.mem_of_getElem? hc) i
  | restart clients kek => exact hsame _ rfl

/-- Only the reads make uses. -/
theorem use_of_step {a : ReadAction} {use : ReadUse} (h : use ∈ (ReadServer.step env a now w).2) :
    ∃ i c, w.calls[i]? = some c ∧ use ∈ (w.advance env now i c).2 := by
  cases a with
  | store op =>
      cases hop : isKeyedUse op with
      | true =>
          rw [show ReadServer.step env (.store op) now w = (w, none) from if_pos hop] at h
          cases h
      | false =>
          rw [ReadServer.step, hop, if_neg Bool.false_ne_true] at h
          cases h
  | receive client grantId idemKey => cases h
  | advance i =>
      cases hc : w.calls[i]? with
      | none =>
          simp only [ReadServer.step, hc] at h
          cases h
      | some c =>
          simp only [ReadServer.step, hc] at h
          exact ⟨i, c, hc, h⟩
  | restart clients kek => cases h

theorem use_of_advance {i : Nat} {c : ReadCall} {use : ReadUse} (h : use ∈ (w.advance env now i c).2) :
    ∃ grant source versionId, use = ⟨grant.id, c.idemKey, source, versionId,
      ((c.useOp grant versionId).step env.replayWindowSeconds now w.store).2⟩ := by
  unfold ReadServer.advance at h
  split at h
  · cases h
    exact ⟨_, _, _, rfl⟩
  · cases h

theorem runOk {kek : KeyMaterial} {t₀ : DateTime} {es : List ReadEvent} (h : ReadRun env (.init kek) t₀ es w t) :
    RunOk env es w t :=
  h.invariant (runOk_init env kek t₀) fun _ _ _ a _ _ ht hok => hok.step ht a

/-- A run's replays, by the uses before them, the reads that found their payload gone, and the payloads at its end. -/
structure StableReplays (es : List ReadEvent) (w : ReadServer) (t : DateTime) : Prop where
  replays : ∀ es₁ e es₂, es = es₁ ++ e :: es₂ → ∀ use ∈ e.reply, ∀ g versionId passthrough,
    use.isReplay g versionId passthrough →
      Replayed (usesOf es₁) e.before.store use.grantId use.key g versionId passthrough
  gone : ∀ use ∈ usesOf es, use.source = .passthroughGone → ∀ g, ¬ use.isFirstUse g
  payloads : ∀ g ∈ w.store.grants.rows, ∀ t', t ≤ t' → g.passthroughEphemeral = true → g.live t' = true →
    g.usesLeft = true → g.passthroughCiphertext.isSome = true ∧ g.passthroughNonce.isSome = true ∧
      g.passthroughWrappedDek.isSome = true

/-- Over every run, a replay releases the version and the payload kind of its first use, which are still there; and a
passthrough grant that can still be used has its payload. -/
theorem replay_stable {kek : KeyMaterial} {t₀ : DateTime} {es : List ReadEvent}
    (h : ReadRun env (.init kek) t₀ es w t) : StableReplays es w t where
  replays := by
    intro es₁ e es₂ hes use huse g v p hreplay
    subst hes
    obtain ⟨t₁, hbefore, hle, hev, -⟩ := h.split
    have hok := (runOk hbefore).tick hle
    rw [hev] at huse
    obtain ⟨i, c, hc, hadvance⟩ : ∃ i c, e.before.calls[i]? = some c ∧
        use ∈ (e.before.advance env e.now i c).2 := use_of_step huse
    obtain ⟨grant, source, versionId, rfl⟩ := use_of_advance hadvance
    exact replayed_of_use hok.server.sound hok.kept hreplay
  gone := (runOk h).gone
  payloads := by
    intro g hg t' ht heph hlive hleft
    have hpay := (((runOk h).tick ht).server.sound.payloads g hg).has hg hlive (Or.inl hleft) heph
    rw [GrantRow.hasPayload, Bool.and_eq_true, Bool.and_eq_true] at hpay
    exact ⟨hpay.1.1, hpay.1.2, hpay.2⟩

end

/-- The statements of one read, up to its use. -/
def readStatements (now : DateTime) : List (ReadAction × DateTime) := List.replicate 6 (.advance 0, now)

/-- A secret stored, a grant on it, and a read. -/
def readOnce : List (ReadAction × DateTime) :=
  [(.restart (Table.empty.insert ⟨2, "agent", 2, ["cli-read"], true, false⟩) (sampleKey 3), .ofSeconds 800),
    (.store (.createSecretWithVersion deployKey 4 "operator"), .ofSeconds 900),
    (.store (.insertAccessRequestWithId 5 askedRequest (some 20) .pending none 0), .ofSeconds 1000),
    (.store (.approveRequest 5 "operator" 7 { deployGrant with mechanism := "cli-read" } none 0), .ofSeconds 1100),
    (.receive "agent" 7 "cli-1", .ofSeconds 1200)]

/-- The secret rotated, and a second read under the same key. -/
def readAgain : List (ReadAction × DateTime) :=
  [(.store (.rotateSecretVersion 3 "deploy-key" "operator" (fun _ => deployKey.sealWith) 6), .ofSeconds 1210),
    (.receive "agent" 7 "cli-1", .ofSeconds 1220)]

def readTwice : List (ReadAction × DateTime) :=
  readOnce ++ readStatements (.ofSeconds 1201) ++ readAgain ++ readStatements (.ofSeconds 1221)

def readKeys : ReadEnv := ⟨tagging, beforeRotation, 60⟩

/-- What a replay carries. -/
def ReadUse.replayed (use : ReadUse) : Option (Option Uuid × Bool) :=
  match use.outcome with
  | .ok (.grantUse (.replay _ versionId passthrough)) => some (versionId, passthrough)
  | _ => none

theorem replay_stable_rotated : ∃ es w t, StableReplays es w t ∧
    (usesOf es).map (fun use => (use.versionId, use.replayed)) = [(4, none), (6, some (some 4, false))] := by
  have hrun := run_play (ReadServer.step readKeys) (.init (sampleKey 3)) (.ofSeconds 800) readTwice (by decide)
  exact ⟨_, _, _, replay_stable hrun, by decide +kernel⟩

end Keychute.Api
