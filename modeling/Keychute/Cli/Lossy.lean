import Keychute.Answers
import Keychute.Cli.Request

/-!
# One read over a network that loses and repeats

* `Link.step` : the server, the answers under way, and what the CLI has heard. A request arrives any number of times or
  never, and so does an answer; an attempt may end in anything that is not the server's own release or refusal;
* `LinkOk.step` : every step keeps what the two ends know of each other;
* `read_exactly_once` : however the attempts of one read interleave with everything else, the grant is charged once under
  the key, and what the CLI ends with is what was charged.
-/

namespace Keychute.Cli
open Keychute.Db Keychute.Api Keychute.Lib

/-- The read that a run of the CLI is after; all its attempts are under one key. -/
structure LogicalRead where
  client : String
  grantId : Uuid
  key : String

structure Link where
  server : ReadServer
  /-- The answers to this read that the server has sent. -/
  flight : List (Except ApiFailure ReadGrantResponse)
  heard : List (Except String Exchange)

inductive LinkAction where
  | server (a : ReadAction)
  | send (i : Nat)
  /-- An answer arrives; it may arrive again. -/
  | deliver (i : Nat)
  /-- An attempt ends in something else. -/
  | fault (x : Except String Exchange)

section
variable (env : ReadEnv) (w : CliWire) (read : LogicalRead)

/-- The answer to an attempt of the read. -/
def LogicalRead.answerOf (c : ReadCall) : Option (Except ApiFailure ReadGrantResponse) :=
  match c.phase with
  | .done answer => if c.client = read.client ∧ c.grantId = read.grantId ∧ c.idemKey = read.key then some answer else none
  | _ => none

/-- Nothing that stands between the ends makes a release, or a refusal of an expired grant. -/
def isFault (x : Except String Exchange) : Bool :=
  match readAttempt w x with
  | .done (.ok _) => false
  | .done (.error f) => f.code != EXIT_TIMEOUT
  | _ => true

/-- The CLI hears no more once it has its result. -/
def Link.hear (l : Link) (x : Except String Exchange) : Link :=
  if (readGrant w l.heard).isSome then l else { l with heard := l.heard ++ [x] }

def Link.step (a : LinkAction) (now : DateTime) (l : Link) : Link × Option ReadUse :=
  match a with
  | .server a => ({ l with server := (ReadServer.step env a now l.server).1 }, (ReadServer.step env a now l.server).2)
  | .send i =>
    match (l.server.calls[i]?).bind read.answerOf with
    | some answer => ({ l with flight := l.flight ++ [answer] }, none)
    | none => (l, none)
  | .deliver i =>
    match l.flight[i]? with
    | some answer => (l.hear w (.ok (.arrived (readAnswer w.toWire answer))), none)
    | none => (l, none)
  | .fault x => (if isFault w x then l.hear w x else l, none)

/-- The server's process has drawn this key at its start. -/
def Link.init (kek : Crypto.KeyMaterial) : Link := ⟨.init kek, [], []⟩

end

abbrev LinkEvent : Type := Event LinkAction DateTime Link (Option ReadUse)

abbrev LinkRun (env : ReadEnv) (w : CliWire) (read : LogicalRead) :
    Link → DateTime → List LinkEvent → Link → DateTime → Prop :=
  Run (Link.step env w read)

/-- What the server did in it. -/
def serverEvent (e : LinkEvent) : Option ReadEvent :=
  match e.op with
  | .server a => some ⟨a, e.now, e.before.server, e.reply, e.after.server⟩
  | _ => none

def serverEvents (es : List LinkEvent) : List ReadEvent := es.filterMap serverEvent

/-! ## What the CLI makes of the server's answers -/

theorem statusCodeMessage_status (f : ApiFailure) : 400 ≤ f.statusCodeMessage.1 := by
  cases f <;> exact Nat.le_of_ble_eq_true rfl

theorem statusCodeMessage_expired {f : ApiFailure} (h : f.statusCodeMessage.2.code = "grant-expired") :
    f = .grantExpired := by
  cases f <;> first | rfl | simp [ApiFailure.statusCodeMessage] at h

section
variable {w : CliWire}

theorem readAttempt_readAnswer (hw : w.toWire.Documented) (r : ReadGrantResponse) :
    readAttempt w (.ok (.arrived (readAnswer w.toWire (.ok r)))) = .done (.ok r) := by
  simp [readAttempt, Exchange.arrived, readAnswer, isClientError, isSuccess, hw.release r]

/-- A release that the CLI reads in an answer of the server is the server's. -/
theorem readAttempt_release (hw : w.toWire.Documented) {r : ReadGrantResponse}
    {answer : Except ApiFailure ReadGrantResponse}
    (h : readAttempt w (.ok (.arrived (readAnswer w.toWire answer))) = .done (.ok r)) : answer = .ok r := by
  cases answer with
  | ok r' =>
      rw [readAttempt_readAnswer hw] at h
      cases h
      rfl
  | error f =>
      -- no error of the server is a success
      have hstatus := statusCodeMessage_status f
      obtain ⟨f', hf', -⟩ | ⟨text, -, hf'⟩ | ⟨status, text, released, hx, -, -⟩ := readAttempt_done h
      · cases hf'
      · cases hf'
      · have hnot : isSuccess f.statusCodeMessage.1 = false := by
          unfold isSuccess
          rw [Bool.and_eq_false_iff, decide_eq_false_iff_not, decide_eq_false_iff_not]
          omega
        unfold readAttempt at h
        rw [show (Exchange.arrived (readAnswer w.toWire (.error f))) =
          .answered f.statusCodeMessage.1 (w.errorText f.statusCodeMessage.2) from rfl] at h
        simp only [hnot] at h
        split at h
        · cases h
        · split at h <;> cases h

/-- An attempt settles the read, or failed. -/
theorem readAttempt_ne_again (x : Except String Exchange) : readAttempt w x ≠ .again := by
  intro h
  unfold readAttempt at h
  split at h
  · cases h
  · cases h
  · cases h
  · split at h
    · cases h
    · split at h
      · cases h
      · split at h
        · cases h
        · split at h <;> cases h

/-- The CLI takes a grant for expired only where the server says so. -/
theorem readAttempt_expired (hw : w.toWire.Documented) {f : Failure} {answer : Except ApiFailure ReadGrantResponse}
    (h : readAttempt w (.ok (.arrived (readAnswer w.toWire answer))) = .done (.error f)) (hf : f.code = EXIT_TIMEOUT) :
    answer = .error .grantExpired := by
  obtain ⟨f', hf', hrefused⟩ | ⟨text, hx, hf'⟩ | ⟨_, _, _, -, -, hf'⟩ := readAttempt_done h
  · cases hf'
    rcases hrefused with ⟨-, hcode⟩ | ⟨status, text, -, hcode⟩
    · rw [hf] at hcode
      exact absurd hcode (by decide)
    · rw [hf] at hcode
      exact absurd hcode.symm (refusalCode_cause status).2.2.1
  · cases hf'
    have hexpired := (classifyGone_code (w := w) text).2.1 hf
    cases answer with
    | ok r => cases hx
    | error g =>
        have htext : text = w.errorText g.statusCodeMessage.2 := by
          cases g <;> cases hx <;> rfl
        rw [errorCode, htext, hw.error, Option.map_some, Option.some.injEq] at hexpired
        rw [statusCodeMessage_expired hexpired]
  · cases hf'

end

/-! ## Every run -/

section
variable {env : ReadEnv} {w : CliWire} {read : LogicalRead} {es : List LinkEvent} {l : Link} {kek : Crypto.KeyMaterial}
  {t₀ t now : DateTime}

/-- What an attempt that the CLI has heard the end of ended in. -/
def HeardOf (w : CliWire) (read : LogicalRead) (uses : List ReadUse) (s : Store) (t : DateTime)
    (x : Except String Exchange) : Prop :=
  isFault w x = true ∨ ∃ answer, x = .ok (.arrived (readAnswer w.toWire answer)) ∧
    AnswerRests uses s t read.grantId read.key answer

structure LinkOk (env : ReadEnv) (w : CliWire) (read : LogicalRead) (es : List LinkEvent) (l : Link) (t : DateTime) :
    Prop where
  server : AnswersOk env (serverEvents es) l.server t
  flight : ∀ answer ∈ l.flight,
    AnswerRests (usesOf (serverEvents es)) l.server.store t read.grantId read.key answer
  heard : ∀ x ∈ l.heard, HeardOf w read (usesOf (serverEvents es)) l.server.store t x
  asked : l.heard = [] ∨ ∃ pre x, l.heard = pre ++ [x] ∧ readGrant w pre = none

theorem linkOk_init (env : ReadEnv) (w : CliWire) (read : LogicalRead) (kek : Crypto.KeyMaterial) (t : DateTime) :
    LinkOk env w read [] (.init kek) t where
  server := answersOk_init env kek t
  flight _ ha := absurd ha List.not_mem_nil
  heard _ hx := absurd hx List.not_mem_nil
  asked := Or.inl rfl

theorem HeardOf.mono {uses : List ReadUse} {s s' : Store} {x : Except String Exchange} (h : HeardOf w read uses s t x)
    (more : List ReadUse) (hdead : s.dead read.grantId t = true → s'.dead read.grantId now = true) :
    HeardOf w read (uses ++ more) s' now x := by
  rcases h with hfault | ⟨answer, hx, hrests⟩
  · exact Or.inl hfault
  · exact Or.inr ⟨answer, hx, hrests.mono more hdead⟩

theorem LinkOk.tick (h : LinkOk env w read es l t) (ht : t ≤ now) : LinkOk env w read es l now where
  server := h.server.tick ht
  flight answer ha := (h.flight answer ha).tick fun hd => dead_later hd ht
  heard x hx := by
    rcases h.heard x hx with hfault | ⟨answer, hans, hrests⟩
    · exact Or.inl hfault
    · exact Or.inr ⟨answer, hans, hrests.tick fun hd => dead_later hd ht⟩
  asked := h.asked

/-- The answer of a call that is done rests on what the server has done. -/
theorem LinkOk.rests_sent (h : LinkOk env w read es l t) {i : Nat} {answer : Except ApiFailure ReadGrantResponse}
    (hi : (l.server.calls[i]?).bind read.answerOf = some answer) :
    AnswerRests (usesOf (serverEvents es)) l.server.store t read.grantId read.key answer := by
  obtain ⟨c, hc, hans⟩ := Option.bind_eq_some_iff.1 hi
  have hrests := h.server.calls c (List.mem_of_getElem? hc)
  unfold LogicalRead.answerOf at hans
  split at hans
  · rename_i answer' hphase
    split at hans
    · rename_i hsame
      cases hans
      rw [hphase] at hrests
      obtain ⟨-, hid, hkey⟩ := hsame
      rw [← hid, ← hkey]
      exact hrests
    · cases hans
  · cases hans

/-- The CLI hears one more thing. -/
theorem LinkOk.hear (h : LinkOk env w read es l t) {x : Except String Exchange}
    (hx : HeardOf w read (usesOf (serverEvents es)) l.server.store t x) : LinkOk env w read es (l.hear w x) t := by
  unfold Link.hear
  split
  · exact h
  · rename_i hnone
    refine ⟨h.server, h.flight, fun y hy => ?_, Or.inr ⟨l.heard, x, rfl, by simpa using hnone⟩⟩
    rcases List.mem_append.1 hy with hy | hy
    · exact h.heard y hy
    · rw [List.mem_singleton.1 hy]
      exact hx

theorem serverEvents_append (e : LinkEvent) : serverEvents (es ++ [e]) = serverEvents es ++ (serverEvent e).toList := by
  rw [serverEvents, List.filterMap_append, serverEvents]
  cases h : serverEvent e <;> simp [h]

theorem LinkOk.quiet (h : LinkOk env w read es l t) {e : LinkEvent} (he : serverEvent e = none) :
    LinkOk env w read (es ++ [e]) l t := by
  have hes : serverEvents (es ++ [e]) = serverEvents es := by
    rw [serverEvents_append, he, Option.toList_none, List.append_nil]
  constructor
  · rw [hes]
    exact h.server
  · rw [hes]
    exact h.flight
  · rw [hes]
    exact h.heard
  · exact h.asked

theorem LinkOk.step (h : LinkOk env w read es l t) (ht : t ≤ now) (a : LinkAction) :
    LinkOk env w read (es ++ [callEvent (Link.step env w read) a now l]) (Link.step env w read a now l).1 now := by
  cases a with
  | server b =>
      have hes : serverEvents (es ++ [callEvent (Link.step env w read) (.server b) now l]) =
          serverEvents es ++ [callEvent (ReadServer.step env) b now l.server] := by
        rw [serverEvents_append]
        rfl
      have hdead := fun hd => @dead_step env l.server t now read.grantId hd ht b
      constructor
      · rw [hes]
        exact h.server.step ht b
      · intro answer ha
        rw [hes, usesOf_append]
        exact (h.flight answer ha).mono _ hdead
      · intro x hx
        rw [hes, usesOf_append]
        exact (h.heard x hx).mono _ hdead
      · exact h.asked
  | send i =>
      refine LinkOk.quiet ?_ rfl
      have hnow := h.tick ht
      cases hi : (l.server.calls[i]?).bind read.answerOf with
      | none =>
          simp only [Link.step, hi]
          exact hnow
      | some answer =>
          simp only [Link.step, hi]
          refine ⟨hnow.server, fun y hy => ?_, hnow.heard, hnow.asked⟩
          rcases List.mem_append.1 hy with hy | hy
          · exact hnow.flight y hy
          · rw [List.mem_singleton.1 hy]
            exact hnow.rests_sent hi
  | deliver i =>
      refine LinkOk.quiet ?_ rfl
      have hnow := h.tick ht
      cases hi : l.flight[i]? with
      | none =>
          simp only [Link.step, hi]
          exact hnow
      | some answer =>
          simp only [Link.step, hi]
          exact hnow.hear (Or.inr ⟨answer, rfl, hnow.flight answer (List.mem_of_getElem? hi)⟩)
  | fault x =>
      refine LinkOk.quiet ?_ rfl
      have hnow := h.tick ht
      show LinkOk env w read es (if isFault w x then l.hear w x else l) now
      split
      · rename_i hx
        exact hnow.hear (Or.inl hx)
      · exact hnow

theorem linkOk (h : LinkRun env w read (.init kek) t₀ es l t) : LinkOk env w read es l t :=
  h.invariant (linkOk_init env w read kek t₀) fun _ _ _ a _ _ ht hok => hok.step ht a

/-- The grant was charged for the read in this event. -/
def Charges (read : LogicalRead) (e : LinkEvent) : Prop :=
  ∃ use ∈ e.reply, use.grantId = read.grantId ∧ use.key = read.key ∧ ∃ g, use.isFirstUse g

/-- Only the server makes uses. -/
theorem use_of_link {a : LinkAction} {use : ReadUse} (h : use ∈ (Link.step env w read a now l).2) :
    ∃ b, a = .server b ∧ use ∈ (ReadServer.step env b now l.server).2 := by
  cases a with
  | server b => exact ⟨b, rfl, h⟩
  | send i => cases hi : (l.server.calls[i]?).bind read.answerOf <;> simp [Link.step, hi] at h
  | deliver i => cases hi : l.flight[i]? <;> simp [Link.step, hi] at h
  | fault x => cases h

/-- The uses of a run are those of its server. -/
theorem use_of_event (h : LinkRun env w read (.init kek) t₀ es l t) {e : LinkEvent} (he : e ∈ es) {use : ReadUse}
    (huse : use ∈ e.reply) : ∃ e' ∈ serverEvents es, use ∈ e'.reply ∧ e'.now = e.now := by
  obtain ⟨es₁, t₁, -, -, -, hcall⟩ := h.forall_event he
  obtain ⟨b, hop, -⟩ := use_of_link (show use ∈ (Link.step env w read e.op e.now e.before).2 by rwa [hcall] at huse)
  refine ⟨⟨b, e.now, e.before.server, e.reply, e.after.server⟩, List.mem_filterMap.2 ⟨e, he, ?_⟩, huse, rfl⟩
  rw [serverEvent, hop]

theorem event_of_use {use : ReadUse} (h : use ∈ usesOf (serverEvents es)) : ∃ e ∈ es, use ∈ e.reply := by
  obtain ⟨e', he', huse⟩ := List.mem_filterMap.1 h
  obtain ⟨e, he, hevent⟩ := List.mem_filterMap.1 he'
  refine ⟨e, he, ?_⟩
  unfold serverEvent at hevent
  split at hevent
  · cases hevent
    exact huse
  · cases hevent

/-- The read that made a use, and what its server had done before. -/
theorem caller_of_use {es₁ es₂ : List LinkEvent} {e : LinkEvent}
    (h : LinkRun env w read (.init kek) t₀ (es₁ ++ e :: es₂) l t) {use : ReadUse} (huse : use ∈ e.reply) :
    ∃ c ∈ e.before.server.calls, ∃ grant source v, c.phase = .resolved grant source v ∧
      use = c.useAt grant source v env.replayWindowSeconds e.now e.before.server.store ∧
        LinkOk env w read es₁ e.before e.now ∧ ∃ t₁, LinkRun env w read (.init kek) t₀ es₁ e.before t₁ := by
  obtain ⟨t₁, hbefore, hle, hcall, -⟩ := h.split
  obtain ⟨b, hop, hreply⟩ := use_of_link (show use ∈ (Link.step env w read e.op e.now e.before).2 by rwa [hcall] at huse)
  rcases readServer_cases env b e.now e.before.server with ⟨i, c, grant, source, v, hc, hphase, heq⟩ | ⟨w', heq, -⟩
  · rw [heq, Option.mem_some_iff] at hreply
    exact ⟨c, hc, grant, source, v, hphase, hreply.symm, (linkOk hbefore).tick hle, t₁, hbefore⟩
  · rw [heq] at hreply
    cases hreply

/-- What one read comes to, over the events `es` that led to `l`. -/
structure ReadOnce (env : ReadEnv) (w : CliWire) (read : LogicalRead) (es : List LinkEvent) (l : Link) (t : DateTime) :
    Prop where
  /-- The grant is charged at most once. -/
  once : ∀ es₁ e es₂, es = es₁ ++ e :: es₂ → Charges read e → ∀ e₀ ∈ es₁, ¬ Charges read e₀
  /-- A further attempt that comes to its use within the window is a replay, unless the grant is dead. -/
  retried : ∀ es₁ e es₂, es = es₁ ++ e :: es₂ → ∀ use ∈ e.reply, use.grantId = read.grantId → use.key = read.key →
    ∀ e₀ ∈ es₁, Charges read e₀ → e₀.now.within e.now env.replayWindowSeconds = true →
      (∃ g v p, use.isReplay g v p) ∨ e.before.server.store.dead read.grantId e.now = true
  /-- An attempt is refused for want of uses only after a use that was outside the window of the charge. -/
  exhausted : .error .grantExhausted ∈ l.flight → ∃ es₁ e es₂, es = es₁ ++ e :: es₂ ∧
    (∃ use ∈ e.reply, use.grantId = read.grantId ∧ use.key = read.key ∧ use.outcome = .ok (.grantUse .exhausted)) ∧
      ∀ e₀ ∈ es₁, Charges read e₀ → e₀.now.within e.now env.replayWindowSeconds = false
  /-- A replay of a payload of the grant's own answers it; after a restart, which drew another key, that it is lost. -/
  payload : env.aead.Ideal → ∀ c ∈ l.server.calls, ∀ source v g pinned,
    c.phase = .used source v (.replay g pinned true) →
      ∀ sealKek plaintext, SealedUnder env.aead sealKek plaintext g →
        c.next env l.server.ephemeralKek t l.server.store = .done
          (if l.server.ephemeralKek.val = sealKek.val then .ok (readResponse plaintext g.id) else .error .payloadLost)
  /-- What the CLI writes is of the version that the grant was charged for. -/
  released : ∀ r, readGrant w l.heard = some (.ok r) → ∃ e ∈ es, ∃ use ∈ e.reply, use.grantId = read.grantId ∧
    use.key = read.key ∧ use.versionId = r.secretVersionId ∧ ∃ g, use.isFirstUse g
  /-- Exit code 4 of the read: the grant is revoked or expired. -/
  expired : ∀ f, readGrant w l.heard = some (.error f) → f.code = EXIT_TIMEOUT →
    l.server.store.dead read.grantId t = true
  attempts : l.heard.length ≤ READ_ATTEMPTS

theorem not_done_release_of_fault {x : Except String Exchange} (hx : isFault w x = true) {r : ReadGrantResponse} :
    readAttempt w x ≠ .done (.ok r) := by
  intro h
  rw [isFault, h] at hx
  cases hx

theorem code_of_fault {x : Except String Exchange} (hx : isFault w x = true) {f : Failure}
    (h : readAttempt w x = .done (.error f)) : f.code ≠ EXIT_TIMEOUT := by
  rw [isFault, h] at hx
  simpa using hx

theorem LinkOk.released (h : LinkOk env w read es l t) (hw : w.toWire.Documented) {r : ReadGrantResponse}
    (hr : readGrant w l.heard = some (.ok r)) :
    FirstUsed (usesOf (serverEvents es)) read.grantId read.key r.secretVersionId := by
  rcases poll_cause hr with ⟨x, hx, hdone⟩ | ⟨why, hgave⟩
  · rcases h.heard x hx with hfault | ⟨answer, rfl, hrests⟩
    · exact absurd hdone (not_done_release_of_fault hfault)
    · exact hrests.released r (readAttempt_release hw hdone)
  · cases hgave

theorem LinkOk.expired (h : LinkOk env w read es l t) (hw : w.toWire.Documented) {f : Failure}
    (hr : readGrant w l.heard = some (.error f)) (hf : f.code = EXIT_TIMEOUT) :
    l.server.store.dead read.grantId t = true := by
  rcases poll_cause hr with ⟨x, hx, hdone⟩ | ⟨why, hgave⟩
  · rcases h.heard x hx with hfault | ⟨answer, rfl, hrests⟩
    · exact absurd hf (code_of_fault hfault hdone)
    · exact hrests.expired (readAttempt_expired hw hdone hf)
  · cases hgave
    exact absurd hf (show EXIT_OTHER ≠ EXIT_TIMEOUT by decide)

theorem LinkOk.attempts (h : LinkOk env w read es l t) : l.heard.length ≤ READ_ATTEMPTS := by
  rcases h.asked with hnil | ⟨pre, x, hheard, hnone⟩
  · rw [hnil]
    exact Nat.zero_le _
  · obtain ⟨m, hm⟩ := Option.isSome_iff_exists.1 (poll_eq_none_iff.1 hnone)
    obtain ⟨hlen, hlt⟩ := failing_length hm fun x _ => readAttempt_ne_again x
    rw [hheard, List.length_append, List.length_singleton]
    rcases eq_or_ne pre [] with rfl | hne
    · decide
    · have := hlt hne
      omega

/-- The window of a charge covers a later use of the read: it is a replay, or the grant is dead. -/
theorem retried_of_run {es₁ es₂ : List LinkEvent} {e e₀ : LinkEvent}
    (h : LinkRun env w read (.init kek) t₀ (es₁ ++ e :: es₂) l t) {use : ReadUse} (huse : use ∈ e.reply)
    (hid : use.grantId = read.grantId) (hkey : use.key = read.key) (he₀ : e₀ ∈ es₁) (hcharged : Charges read e₀)
    (hwindow : e₀.now.within e.now env.replayWindowSeconds = true) :
    (∃ g v p, use.isReplay g v p) ∨ e.before.server.store.dead read.grantId e.now = true := by
  obtain ⟨use₀, huse₀, hid₀, hkey₀, g₀, hfirst₀⟩ := hcharged
  obtain ⟨c, hc, grant, source, v, hphase, rfl, hok, t₁, hrun⟩ := caller_of_use h huse
  obtain ⟨e', he', huse', hnow⟩ := use_of_event hrun he₀ huse₀
  obtain ⟨row, hrow, hstamp⟩ := hok.server.stamped e' he' use₀ huse' g₀ hfirst₀
  simp only [stamp, Prod.mk.injEq] at hstamp
  obtain ⟨hrid, hrkey, hrat⟩ := hstamp
  have hsnap := hok.server.run.server.calls c hc
  rw [hphase] at hsnap
  rw [← hid]
  refine use_of_record hrow (hrid.trans (hid₀.trans hid.symm)) (hrkey.trans (hkey₀.trans hkey.symm)) ?_ hsnap.1.exists_id
  rw [hrat, hnow]
  exact hwindow

/-- A use that was refused for want of uses was made outside the window of every charge before it. -/
theorem unwindowed_of_exhausted {es₁ es₂ : List LinkEvent} {e e₀ : LinkEvent}
    (h : LinkRun env w read (.init kek) t₀ (es₁ ++ e :: es₂) l t) {use : ReadUse} (huse : use ∈ e.reply)
    (hid : use.grantId = read.grantId) (hkey : use.key = read.key) (hout : use.outcome = .ok (.grantUse .exhausted))
    (he₀ : e₀ ∈ es₁) (hcharged : Charges read e₀) : e₀.now.within e.now env.replayWindowSeconds = false := by
  by_contra hwindow
  rw [Bool.not_eq_false] at hwindow
  rcases retried_of_run h huse hid hkey he₀ hcharged hwindow with ⟨g, v, p, hreplay⟩ | hdead
  · rw [ReadUse.isReplay, hout] at hreplay
    cases hreplay
  · obtain ⟨c, -, grant, source, v, -, rfl, -⟩ := caller_of_use h huse
    have hlive : e.before.server.store.dead grant.id e.now = false := live_of_exhausted hout
    rw [← hid] at hdead
    cases hdead.symm.trans hlive

/-- Over a network that loses, repeats and delays requests and answers, with a server that may restart: one read is
charged once, its retries are replays, what the CLI writes was charged for, and an expiry it reports is one. -/
theorem read_exactly_once (hw : w.toWire.Documented) (h : LinkRun env w read (.init kek) t₀ es l t) :
    ReadOnce env w read es l t where
  once := by
    rintro es₁ e es₂ rfl ⟨use, huse, hid, hkey, g, hfirst⟩ e₀ he₀ ⟨use₀, huse₀, hid₀, hkey₀, g₀, hfirst₀⟩
    obtain ⟨c, -, grant, source, v, -, rfl, hok, t₁, hrun⟩ := caller_of_use h huse
    obtain ⟨e', he', huse', -⟩ := use_of_event hrun he₀ huse₀
    exact firstUse_fresh hok.server hfirst ⟨use₀.versionId, use₀, List.mem_filterMap.2 ⟨e', he', huse'⟩,
      hid₀.trans hid.symm, hkey₀.trans hkey.symm, rfl, g₀, hfirst₀⟩
  retried := by
    rintro es₁ e es₂ rfl use huse hid hkey e₀ he₀ hcharged hwindow
    exact retried_of_run h huse hid hkey he₀ hcharged hwindow
  exhausted hin := by
    obtain ⟨use, huse, hid, hkey, hout⟩ := ((linkOk h).flight _ hin).exhausted rfl
    obtain ⟨e, he, hreply⟩ := event_of_use huse
    obtain ⟨es₁, es₂, rfl⟩ := List.append_of_mem he
    exact ⟨es₁, e, es₂, rfl, ⟨use, hreply, hid, hkey, hout⟩,
      fun e₀ he₀ hcharged => unwindowed_of_exhausted h hreply hid hkey hout he₀ hcharged⟩
  payload hA c _ source v g pinned hphase sealKek plaintext hsealed := by
    rw [ReadCall.next, hphase]
    exact congrArg ReadPhase.done (release_sealed hA hsealed source v pinned)
  released r hr := by
    obtain ⟨use, huse, hid, hkey, hv, hfirst⟩ := (linkOk h).released hw hr
    obtain ⟨e, he, hreply⟩ := event_of_use huse
    exact ⟨e, he, use, hreply, hid, hkey, hv, hfirst⟩
  expired f hf hcode := (linkOk h).expired hw hf hcode
  attempts := (linkOk h).attempts

/-- What the server does on its own. -/
theorem run_server {s s' : ReadServer} {es' : List ReadEvent} {flight : List (Except ApiFailure ReadGrantResponse)}
    {heard : List (Except String Exchange)} (h : ReadRun env s t₀ es' s' t) :
    ∃ es, LinkRun env w read ⟨s, flight, heard⟩ t₀ es ⟨s', flight, heard⟩ t := by
  induction h with
  | nil => exact ⟨[], Run.nil⟩
  | call a now _ hle ih =>
      obtain ⟨es, hrun⟩ := ih
      exact ⟨_, hrun.call (.server a) now hle⟩

variable {l₀ : Link} {s : ReadServer} {flight : List (Except ApiFailure ReadGrantResponse)}
  {heard : List (Except String Exchange)} {i : Nat} {answer : Except ApiFailure ReadGrantResponse}

/-- The answer of a call that is done is sent. -/
theorem run_send (h : LinkRun env w read l₀ t₀ es ⟨s, flight, heard⟩ t)
    (hi : s.calls[i]?.bind read.answerOf = some answer) (ht : t ≤ now) :
    ∃ es', LinkRun env w read l₀ t₀ es' ⟨s, flight ++ [answer], heard⟩ now := by
  have hstep : (Link.step env w read (.send i) now ⟨s, flight, heard⟩).1 = ⟨s, flight ++ [answer], heard⟩ := by
    simp only [Link.step, hi]
  rw [← hstep]
  exact ⟨_, h.call (.send i) now ht⟩

/-- An answer on its way arrives at a CLI that still asks. -/
theorem run_deliver (h : LinkRun env w read l₀ t₀ es ⟨s, flight, heard⟩ t) (hi : flight[i]? = some answer)
    (hnone : readGrant w heard = none) (ht : t ≤ now) :
    ∃ es', LinkRun env w read l₀ t₀ es' ⟨s, flight, heard ++ [.ok (.arrived (readAnswer w.toWire answer))]⟩ now := by
  have hstep : (Link.step env w read (.deliver i) now ⟨s, flight, heard⟩).1 =
      ⟨s, flight, heard ++ [.ok (.arrived (readAnswer w.toWire answer))]⟩ := by
    simp only [Link.step, hi, Link.hear, hnone, Option.isSome_none, Bool.false_eq_true, if_false]
  rw [← hstep]
  exact ⟨_, h.call (.deliver i) now ht⟩

end

/-- A key file with the one key that an empty database starts from. -/
def deployKeyset : Crypto.Keyset where
  active := "k0"
  keys id := if id = "k0" then some (Crypto.sampleKey 1) else none
  active_present := rfl
  reserved := rfl

def deployEnv : ReadEnv := ⟨Crypto.tagging, deployKeyset, 60⟩

/-- The secret, sealed under that key. -/
def sealedKey : StoreSecretParams :=
  { deployKey with
    sealWith := fun kek => (Crypto.sealWithKek Crypto.tagging (Crypto.sampleKey 2) (Crypto.sampleNonce 4)
      (Crypto.sampleNonce 5) (Crypto.sampleKey 1) kek (bytes "s3cret") (.secretVersion 3 1)).toOption }

/-- Stored, granted, and a first attempt up to its use. -/
def firstAttempt : List (ReadAction × DateTime) :=
  [(.restart (Table.empty.insert ⟨2, "agent", 2, ["cli-read"], true, false⟩) (Crypto.sampleKey 3), .ofSeconds 800),
    (.store (.createSecretWithVersion sealedKey 4 "operator"), .ofSeconds 900),
    (.store (.insertAccessRequestWithId 5 askedRequest (some 20) .pending none 0), .ofSeconds 1000),
    (.store (.approveRequest 5 "operator" 7 { deployGrant with mechanism := "cli-read" } none 0), .ofSeconds 1100),
    (.receive "agent" 7 "cli-1", .ofSeconds 1200)] ++ readStatements (.ofSeconds 1201)

/-- Its answer is lost. -/
def lostAttempt : Except String Exchange := .ok (.unsent "connection reset by peer")

/-- The secret is rotated, and the second attempt is answered. -/
def secondAttempt : List (ReadAction × DateTime) :=
  readAgain ++ readStatements (.ofSeconds 1221) ++ [(.advance 0, .ofSeconds 1222)]

def deployRead : LogicalRead := ⟨"agent", 7, "cli-1"⟩

/-- The server after the first attempt, and after the second. -/
def serverBetween : ReadServer := playEnd (ReadServer.step deployEnv) (.init (Crypto.sampleKey 3)) firstAttempt

def serverAfter : ReadServer := playEnd (ReadServer.step deployEnv) serverBetween secondAttempt

theorem serverAfter_answer :
    (((serverAfter.calls[0]?.bind deployRead.answerOf).bind (·.toOption)).map fun r => (r.secret, r.secretVersionId)) =
      some ("s3cret", 4) := by decide +kernel

theorem read_exactly_once_lost : ∃ es l t, ReadOnce deployEnv plainWire deployRead es l t ∧
    ∃ r, readGrant plainWire l.heard = some (.ok r) ∧ r.secret = "s3cret" ∧ r.secretVersionId = 4 := by
  have hw : plainWire.toWire.Documented := jsonWire_documented _
  obtain ⟨es₁, hfirst⟩ := @run_server deployEnv plainWire deployRead _ _ _ _ _ [] []
    (run_play (ReadServer.step deployEnv) (.init (Crypto.sampleKey 3)) (.ofSeconds 800) firstAttempt (by decide))
  have hlost := hfirst.call (.fault lostAttempt) (.ofSeconds 1202) (by decide)
  obtain ⟨es₂, hsecond⟩ := @run_server deployEnv plainWire deployRead _ _ _ _ _ [] [lostAttempt]
    (run_play (ReadServer.step deployEnv) serverBetween (.ofSeconds 1202) secondAttempt (by decide))
  have hboth : LinkRun deployEnv plainWire deployRead (.init (Crypto.sampleKey 3)) (.ofSeconds 800) _
    ⟨serverAfter, [], [lostAttempt]⟩ (.ofSeconds 1222) := Run.trans hlost hsecond
  obtain ⟨r, hr, hvalue⟩ := Option.map_eq_some_iff.1 serverAfter_answer
  obtain ⟨answer, hanswer, hok⟩ := Option.bind_eq_some_iff.1 hr
  obtain rfl : answer = .ok r := by
    cases answer with
    | error e => cases hok
    | ok r' => exact congrArg Except.ok (Option.some.inj hok)
  obtain ⟨es₃, hsent⟩ := run_send hboth hanswer (le_refl _)
  obtain ⟨es₄, hheard⟩ := run_deliver (i := 0) hsent rfl rfl (le_refl _)
  refine ⟨_, _, _, read_exactly_once hw hheard, r, ?_, congrArg Prod.fst hvalue, congrArg Prod.snd hvalue⟩
  show readGrant plainWire [lostAttempt, .ok (.arrived (readAnswer plainWire.toWire (.ok r)))] = some (.ok r)
  have hfailed : readAttempt plainWire lostAttempt = .failed "connection reset by peer" := rfl
  rw [readGrant, poll_failed hfailed, if_neg (by decide), poll_done (readAttempt_readAnswer hw r)]

end Keychute.Cli
