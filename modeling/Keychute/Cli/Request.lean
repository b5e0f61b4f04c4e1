import Keychute.Api.Wire
import Keychute.Cli.Store
import Keychute.Lib.Poll

/-!
# One request of the CLI (`cli/src/main.rs`)

* `readAttempt`, `createAttempt`, `waitAttempt` : what one exchange with the server means: an end, or another try;
* `readGrant`, `createAccessRequest`, `waitForResolution` : the three loops, on the exchanges so far;
* `runRequest` : the run from the creation to the bytes that are written;
* `exit_codes` : what a result rests on, whatever the network does.
-/

namespace Keychute.Cli
open Keychute.Api Keychute.Lib

def EXIT_DENIED : Int := 3
def EXIT_TIMEOUT : Int := 4
def EXIT_PAYLOAD_LOST : Int := 5

/-- Attempts for the grant read, under one key. -/
def READ_ATTEMPTS : Nat := 3

/-- Attempts for the creation, under one key. -/
def CREATE_ATTEMPTS : Nat := 3

/-- Consecutive failures tolerated while waiting. -/
def MAX_WAIT_NETWORK_ERRORS : Nat := 5

/-- What comes of one request: it was not sent, its answer was not read to the end, or an answer. -/
inductive Exchange where
  | unsent (e : String)
  | unread (status : Nat) (e : String)
  | answered (status : Nat) (text : String)

/-- An answer that arrives. -/
def Exchange.arrived (r : HttpResponse) : Exchange := .answered r.status r.body

def isClientError (status : Nat) : Bool := 400 ≤ status && status < 500

def isServerError (status : Nat) : Bool := 500 ≤ status && status < 600

def isSuccess (status : Nat) : Bool := 200 ≤ status && status < 300

/-- The exit code of a definitive refusal. -/
def refusalCode (status : Nat) : Int :=
  if status = 401 then EXIT_CONFIG else if status = 403 then EXIT_DENIED else EXIT_OTHER

/-- The client's view of a request's status. -/
structure StatusResponse where
  requestId : Uuid
  state : RequestState
  grantId : Option Uuid
  denyReason : Option String
  grantedSecretName : Option String
  autoApproved : Bool

/-- The bodies that the CLI reads. -/
structure CliWire extends Wire where
  parseStatus : String → Except String StatusResponse

section
variable (w : CliWire)

/-- A human-readable message from an error body. -/
def apiErrorMessage (status : Nat) (body : String) : String :=
  match w.parseError body with
  | some e => e.message ++ " (" ++ e.code ++ ")"
  | none => "server returned " ++ w.showStatus status

/-- A 410 of the read endpoint, by its code. -/
def classifyGone (body : String) : Failure :=
  match (w.parseError body).map (·.code) with
  | some "payload-lost" => ⟨EXIT_PAYLOAD_LOST,
    "the grant's payload was lost (server restarted before the read); submit a new request for re-approval"⟩
  | some "grant-expired" => ⟨EXIT_TIMEOUT,
    "the grant has expired or was revoked before the read; submit a new request for re-approval"⟩
  | some "grant-exhausted" => ⟨EXIT_OTHER,
    "the grant has no uses remaining (the secret was already released); submit a new request if you need it again"⟩
  | _ => ⟨EXIT_OTHER, "grant is no longer usable: " ++ apiErrorMessage w 410 body⟩

/-- One attempt of the read; without a bearer token there is none. -/
def readAttempt : Except String Exchange → Verdict (Except Failure ReadGrantResponse)
  | .error m => .done (.error ⟨EXIT_CONFIG, m⟩)
  | .ok (.unsent e) => .failed e
  | .ok (.unread _ e) => .failed ("failed reading response body: " ++ e)
  | .ok (.answered status text) =>
    if status = 410 then .done (.error (classifyGone w text))
    else if isClientError status then
      .done (.error ⟨refusalCode status, "grant read failed: " ++ apiErrorMessage w status text⟩)
    else if !isSuccess status then .failed ("grant read failed: " ++ apiErrorMessage w status text)
    else
      match w.parseRelease text with
      | .ok released => .done (.ok released)
      | .error e => .failed ("unexpected read response from server: " ++ e)

/-- Exercise the grant's single logical read, under a key that is the same in every attempt. -/
def readGrant (heard : List (Except String Exchange)) : Option (Except Failure ReadGrantResponse) :=
  poll READ_ATTEMPTS
    (fun e => .error ⟨EXIT_OTHER, "grant read failed after " ++ toString READ_ATTEMPTS ++ " attempts: " ++ e⟩)
    (readAttempt w) 0 heard

/-- One attempt of the creation. -/
def createAttempt : Except String Exchange → Verdict (Except Failure StatusResponse)
  | .error m => .done (.error ⟨EXIT_CONFIG, m⟩)
  | .ok (.unsent e) => .failed e
  | .ok (.unread _ e) => .failed ("failed reading server response: " ++ e)
  | .ok (.answered status text) =>
    if isClientError status then
      .done (.error ⟨refusalCode status, "access request rejected: " ++ apiErrorMessage w status text⟩)
    else if !isSuccess status then .failed ("access request rejected: " ++ apiErrorMessage w status text)
    else
      match w.parseStatus text with
      | .ok st => .done (.ok st)
      | .error e => .failed ("unexpected create response from server: " ++ e)

/-- Create the request, under a key that is the same in every attempt. -/
def createAccessRequest (heard : List (Except String Exchange)) : Option (Except Failure StatusResponse) :=
  poll CREATE_ATTEMPTS
    (fun e => .error ⟨EXIT_OTHER, "request creation failed after " ++ toString CREATE_ATTEMPTS ++ " attempts: " ++ e⟩)
    (createAttempt w) 0 heard

/-- A long poll, and when it began. -/
structure WaitPoll where
  now : Int
  exchange : Except String Exchange

/-- One long poll: a gateway's trouble and the cap on waits are transient, as a lost answer is. -/
def waitAttempt (deadline : Int) (p : WaitPoll) : Verdict (Except Failure StatusResponse) :=
  if deadline ≤ p.now then
    .done (.error ⟨EXIT_TIMEOUT, "timed out waiting for approval (request may still be pending server-side)"⟩)
  else
    match p.exchange with
    | .error m => .done (.error ⟨EXIT_CONFIG, m⟩)
    | .ok (.unsent e) => .failed e
    | .ok (.unread _ e) => .failed ("failed reading wait response: " ++ e)
    | .ok (.answered status text) =>
      if !isSuccess status then
        if isServerError status || status == 429 then .failed (apiErrorMessage w status text)
        else .done (.error ⟨refusalCode status, "wait failed: " ++ apiErrorMessage w status text⟩)
      else
        match w.parseStatus text with
        | .ok st => if st.state = .pending then .again else .done (.ok st)
        | .error e => .failed ("unexpected wait response: " ++ e)

/-- Long-poll until the request resolves or the deadline passes. -/
def waitForResolution (deadline : Int) (heard : List WaitPoll) : Option (Except Failure StatusResponse) :=
  poll MAX_WAIT_NETWORK_ERRORS (fun e => .error ⟨EXIT_OTHER, "wait failed repeatedly: " ++ e⟩)
    (waitAttempt w deadline) 0 heard

/-- What the resolution says to do: read this grant, or give up. -/
def resolution (timeout : Nat) (st : StatusResponse) : Except Failure Uuid :=
  match st.state with
  | .approved =>
    match st.grantId with
    | some id => .ok id
    | none => .error ⟨EXIT_OTHER, "server reported approval but returned no grant id"⟩
  | .denied => .error ⟨EXIT_DENIED,
      "request denied" ++ ((st.denyReason.filter (· ≠ "")).map (": " ++ ·)).getD ""⟩
  | .expired => .error ⟨EXIT_TIMEOUT, "request expired before approval"⟩
  | .pending => .error ⟨EXIT_TIMEOUT, "timed out after " ++ toString timeout ++ "s waiting for approval"⟩

/-- All that a run of `request` hears. -/
structure Heard where
  create : List (Except String Exchange)
  wait : List WaitPoll
  read : List (Except String Exchange)

/-- `run_request`, from the creation to the bytes that are written. -/
def runRequest (timeout : Nat) (deadline : Int) (heard : Heard) : Option (Except Failure ReadGrantResponse) :=
  match createAccessRequest w heard.create with
  | none => none
  | some (.error f) => some (.error f)
  | some (.ok st) =>
    match if st.state = .pending then waitForResolution w deadline heard.wait else some (.ok st) with
    | none => none
    | some (.error f) => some (.error f)
    | some (.ok st) =>
      match resolution timeout st with
      | .error f => some (.error f)
      | .ok _ => readGrant w heard.read

end

/-! ## What settles a loop -/

section
variable {w : CliWire}

/-- The code of an error body. -/
def errorCode (w : CliWire) (text : String) : Option String := (w.parseError text).map (·.code)

theorem classifyGone_code (text : String) :
    ((classifyGone w text).code = EXIT_PAYLOAD_LOST → errorCode w text = some "payload-lost") ∧
      ((classifyGone w text).code = EXIT_TIMEOUT → errorCode w text = some "grant-expired") ∧
      (classifyGone w text).code ≠ EXIT_DENIED ∧ (classifyGone w text).code ≠ EXIT_CONFIG := by
  unfold classifyGone errorCode
  split <;> rename_i hcode
  · exact ⟨fun _ => hcode, fun h => absurd h (by decide), by decide, by decide⟩
  · exact ⟨fun h => absurd h (by decide), fun _ => hcode, by decide, by decide⟩
  · exact ⟨fun h => absurd h (by decide), fun h => absurd h (by decide), by decide, by decide⟩
  · exact ⟨fun h => absurd h (show EXIT_OTHER ≠ EXIT_PAYLOAD_LOST by decide),
      fun h => absurd h (show EXIT_OTHER ≠ EXIT_TIMEOUT by decide), show EXIT_OTHER ≠ EXIT_DENIED by decide,
      show EXIT_OTHER ≠ EXIT_CONFIG by decide⟩

theorem refusalCode_cause (status : Nat) : (refusalCode status = EXIT_CONFIG → status = 401) ∧
    (refusalCode status = EXIT_DENIED → status = 403) ∧ refusalCode status ≠ EXIT_TIMEOUT ∧
      refusalCode status ≠ EXIT_PAYLOAD_LOST := by
  unfold refusalCode
  split
  · rename_i h
    exact ⟨fun _ => h, fun h => absurd h (by decide), by decide, by decide⟩
  · split
    · rename_i h
      exact ⟨fun h => absurd h (by decide), fun _ => h, by decide, by decide⟩
    · exact ⟨fun h => absurd h (by decide), fun h => absurd h (by decide), by decide, by decide⟩

/-- No bearer token, or an answer of this status: what stops a loop beside its own verdicts. -/
def Refused (x : Except String Exchange) (code : Int) : Prop :=
  (∃ m, x = .error m) ∧ code = EXIT_CONFIG ∨ ∃ status text, x = .ok (.answered status text) ∧ code = refusalCode status

theorem readAttempt_done {x : Except String Exchange} {r : Except Failure ReadGrantResponse}
    (h : readAttempt w x = .done r) : (∃ f, r = .error f ∧ Refused x f.code) ∨
      (∃ text, x = .ok (.answered 410 text) ∧ r = .error (classifyGone w text)) ∨
      ∃ status text released, x = .ok (.answered status text) ∧ w.parseRelease text = .ok released ∧ r = .ok released := by
  unfold readAttempt at h
  split at h
  · cases h
    exact Or.inl ⟨_, rfl, Or.inl ⟨⟨_, rfl⟩, rfl⟩⟩
  · cases h
  · cases h
  · rename_i status text
    split at h
    · rename_i hgone
      cases h
      exact Or.inr (Or.inl ⟨text, by rw [hgone], rfl⟩)
    · split at h
      · cases h
        exact Or.inl ⟨_, rfl, Or.inr ⟨status, text, rfl, rfl⟩⟩
      · split at h
        · cases h
        · split at h <;> cases h
          rename_i released hparse
          exact Or.inr (Or.inr ⟨status, text, released, rfl, hparse, rfl⟩)

theorem createAttempt_done {x : Except String Exchange} {r : Except Failure StatusResponse}
    (h : createAttempt w x = .done r) : (∃ f, r = .error f ∧ Refused x f.code) ∨
      ∃ status text st, x = .ok (.answered status text) ∧ w.parseStatus text = .ok st ∧ r = .ok st := by
  unfold createAttempt at h
  split at h
  · cases h
    exact Or.inl ⟨_, rfl, Or.inl ⟨⟨_, rfl⟩, rfl⟩⟩
  · cases h
  · cases h
  · rename_i status text
    split at h
    · cases h
      exact Or.inl ⟨_, rfl, Or.inr ⟨status, text, rfl, rfl⟩⟩
    · split at h
      · cases h
      · split at h <;> cases h
        rename_i st hparse
        exact Or.inr ⟨status, text, st, rfl, hparse, rfl⟩

theorem waitAttempt_done {deadline : Int} {p : WaitPoll} {r : Except Failure StatusResponse}
    (h : waitAttempt w deadline p = .done r) :
    (∃ f, r = .error f ∧ f.code = EXIT_TIMEOUT ∧ deadline ≤ p.now) ∨ (∃ f, r = .error f ∧ Refused p.exchange f.code) ∨
      ∃ status text st, p.exchange = .ok (.answered status text) ∧ w.parseStatus text = .ok st ∧ st.state ≠ .pending ∧
        r = .ok st := by
  unfold waitAttempt at h
  split at h
  · rename_i hlate
    cases h
    exact Or.inl ⟨_, rfl, rfl, hlate⟩
  · split at h
    · rename_i m hx
      cases h
      exact Or.inr (Or.inl ⟨_, rfl, Or.inl ⟨⟨m, hx⟩, rfl⟩⟩)
    · cases h
    · cases h
    · rename_i status text hx
      split at h
      · split at h <;> cases h
        exact Or.inr (Or.inl ⟨_, rfl, Or.inr ⟨status, text, hx, rfl⟩⟩)
      · split at h
        · split at h <;> cases h
          rename_i st hparse hpending
          exact Or.inr (Or.inr ⟨status, text, st, hx, hparse, hpending, rfl⟩)
        · cases h

/-- The server's own word: an answer of this status and code in one of the three parts of the run. -/
def Heard.answered (heard : Heard) (status : Nat) (text : String) : Prop :=
  .ok (.answered status text) ∈ heard.create ∨ (∃ p ∈ heard.wait, p.exchange = .ok (.answered status text)) ∨
    .ok (.answered status text) ∈ heard.read

/-- There was no bearer token at one of the attempts. -/
def Heard.unarmed (heard : Heard) : Prop :=
  (∃ m, .error m ∈ heard.create) ∨ (∃ m, ∃ p ∈ heard.wait, p.exchange = .error m) ∨ ∃ m, .error m ∈ heard.read

/-- The run was told this status of the request. -/
def Heard.told (w : CliWire) (heard : Heard) (state : RequestState) : Prop :=
  ∃ status text st, heard.answered status text ∧ w.parseStatus text = .ok st ∧ st.state = state

/-- What each exit code but the general one rests on. -/
structure Heard.Explains (w : CliWire) (deadline : Int) (heard : Heard) (code : Int) : Prop where
  config : code = EXIT_CONFIG → heard.unarmed ∨ ∃ text, heard.answered 401 text
  denied : code = EXIT_DENIED → heard.told w .denied ∨ ∃ text, heard.answered 403 text
  timeout : code = EXIT_TIMEOUT → (∃ p ∈ heard.wait, deadline ≤ p.now) ∨ heard.told w .expired ∨
    ∃ text, .ok (.answered 410 text) ∈ heard.read ∧ errorCode w text = some "grant-expired"
  payloadLost : code = EXIT_PAYLOAD_LOST →
    ∃ text, .ok (.answered 410 text) ∈ heard.read ∧ errorCode w text = some "payload-lost"

theorem Heard.explains_other (w : CliWire) (deadline : Int) (heard : Heard) : heard.Explains w deadline EXIT_OTHER where
  config h := absurd h (by decide)
  denied h := absurd h (by decide)
  timeout h := absurd h (by decide)
  payloadLost h := absurd h (by decide)

theorem Heard.explains_refused {deadline : Int} {heard : Heard} {x : Except String Exchange} {code : Int}
    (h : Refused x code) (herror : ∀ m, x = .error m → heard.unarmed)
    (hanswered : ∀ status text, x = .ok (.answered status text) → heard.answered status text) :
    heard.Explains w deadline code := by
  rcases h with ⟨⟨m, hx⟩, rfl⟩ | ⟨status, text, hx, rfl⟩
  · exact ⟨fun _ => Or.inl (herror m hx), fun h => absurd h (by decide), fun h => absurd h (by decide),
      fun h => absurd h (by decide)⟩
  · obtain ⟨hconfig, hdenied, htimeout, hlost⟩ := refusalCode_cause status
    have hans := hanswered status text hx
    refine ⟨fun h => Or.inr ⟨text, ?_⟩, fun h => Or.inr ⟨text, ?_⟩, fun h => absurd h htimeout, fun h => absurd h hlost⟩
    · rw [← hconfig h]
      exact hans
    · rw [← hdenied h]
      exact hans

theorem createAccessRequest_cause {heard : Heard} (deadline : Int) {r : Except Failure StatusResponse}
    (h : createAccessRequest w heard.create = some r) : (∃ f, r = .error f ∧ heard.Explains w deadline f.code) ∨
      ∃ st, r = .ok st ∧ heard.told w st.state := by
  rcases poll_cause h with ⟨x, hx, hdone⟩ | ⟨why, rfl⟩
  · rcases createAttempt_done hdone with ⟨f, rfl, href⟩ | ⟨status, text, st, rfl, hparse, rfl⟩
    · refine Or.inl ⟨f, rfl, Heard.explains_refused href (fun m hm => Or.inl ⟨m, hm ▸ hx⟩) fun status text heq => ?_⟩
      exact Or.inl (heq ▸ hx)
    · exact Or.inr ⟨st, rfl, status, text, st, Or.inl hx, hparse, rfl⟩
  · exact Or.inl ⟨_, rfl, heard.explains_other w deadline⟩

theorem waitForResolution_cause {heard : Heard} {deadline : Int} {r : Except Failure StatusResponse}
    (h : waitForResolution w deadline heard.wait = some r) : (∃ f, r = .error f ∧ heard.Explains w deadline f.code) ∨
      ∃ st, r = .ok st ∧ st.state ≠ .pending ∧ heard.told w st.state := by
  rcases poll_cause h with ⟨p, hp, hdone⟩ | ⟨why, rfl⟩
  · rcases waitAttempt_done hdone with ⟨f, rfl, hcode, hlate⟩ | ⟨f, rfl, href⟩ | ⟨status, text, st, hx, hparse, hst, rfl⟩
    · refine Or.inl ⟨f, rfl, ?_⟩
      rw [hcode]
      exact ⟨fun h => absurd h (by decide), fun h => absurd h (by decide), fun _ => Or.inl ⟨p, hp, hlate⟩,
        fun h => absurd h (by decide)⟩
    · refine Or.inl ⟨f, rfl, Heard.explains_refused href (fun m hm => ?_) fun status text heq => ?_⟩
      · exact Or.inr (Or.inl ⟨m, p, hp, hm⟩)
      · exact Or.inr (Or.inl ⟨p, hp, heq⟩)
    · exact Or.inr ⟨st, rfl, hst, status, text, st, Or.inr (Or.inl ⟨p, hp, hx⟩), hparse, rfl⟩
  · exact Or.inl ⟨_, rfl, heard.explains_other w deadline⟩

theorem readGrant_cause {heard : Heard} {deadline : Int} {r : Except Failure ReadGrantResponse}
    (h : readGrant w heard.read = some r) : (∃ f, r = .error f ∧ heard.Explains w deadline f.code) ∨
      ∃ status text released, .ok (.answered status text) ∈ heard.read ∧ w.parseRelease text = .ok released ∧
        r = .ok released := by
  rcases poll_cause h with ⟨x, hx, hdone⟩ | ⟨why, rfl⟩
  · rcases readAttempt_done hdone with ⟨f, rfl, href⟩ | ⟨text, rfl, rfl⟩ | ⟨status, text, released, rfl, hparse, rfl⟩
    · refine Or.inl ⟨f, rfl, Heard.explains_refused href (fun m hm => ?_) fun status text heq => ?_⟩
      · exact Or.inr (Or.inr ⟨m, hm ▸ hx⟩)
      · exact Or.inr (Or.inr (heq ▸ hx))
    · obtain ⟨hlost, hexpired, hdenied, hconfig⟩ := classifyGone_code (w := w) text
      refine Or.inl ⟨_, rfl, fun h => absurd h hconfig, fun h => absurd h hdenied, fun h => ?_, fun h => ?_⟩
      · exact Or.inr (Or.inr ⟨text, hx, hexpired h⟩)
      · exact ⟨text, hx, hlost h⟩
    · exact Or.inr ⟨status, text, released, hx, hparse, rfl⟩
  · exact Or.inl ⟨_, rfl, heard.explains_other w deadline⟩

theorem resolution_cause {heard : Heard} {deadline : Int} {timeout : Nat} {st : StatusResponse}
    (hst : st.state ≠ .pending) (htold : heard.told w st.state) :
    (∃ f, resolution timeout st = .error f ∧ heard.Explains w deadline f.code) ∨
      ∃ id, resolution timeout st = .ok id ∧ heard.told w .approved := by
  cases hs : st.state with
  | approved =>
      rw [hs] at htold
      cases hid : st.grantId with
      | none => exact Or.inl ⟨_, by rw [resolution, hs, hid], heard.explains_other w deadline⟩
      | some id => exact Or.inr ⟨id, by rw [resolution, hs, hid], htold⟩
  | denied =>
      rw [hs] at htold
      refine Or.inl ⟨_, by rw [resolution, hs], fun h => ?_, fun _ => Or.inl htold, fun h => ?_, fun h => ?_⟩
      · exact absurd h (show EXIT_DENIED ≠ EXIT_CONFIG by decide)
      · exact absurd h (show EXIT_DENIED ≠ EXIT_TIMEOUT by decide)
      · exact absurd h (show EXIT_DENIED ≠ EXIT_PAYLOAD_LOST by decide)
  | expired =>
      rw [hs] at htold
      refine Or.inl ⟨_, by rw [resolution, hs], fun h => ?_, fun h => ?_, fun _ => Or.inr (Or.inl htold), fun h => ?_⟩
      · exact absurd h (show EXIT_TIMEOUT ≠ EXIT_CONFIG by decide)
      · exact absurd h (show EXIT_TIMEOUT ≠ EXIT_DENIED by decide)
      · exact absurd h (show EXIT_TIMEOUT ≠ EXIT_PAYLOAD_LOST by decide)
  | pending => exact absurd hs hst

/-- What a result rests on: what an exit code says, or a release after an approval. -/
def Heard.Grounds (w : CliWire) (deadline : Int) (heard : Heard) : Except Failure ReadGrantResponse → Prop
  | .ok released => heard.told w .approved ∧
      ∃ status text, .ok (.answered status text) ∈ heard.read ∧ w.parseRelease text = .ok released
  | .error f => heard.Explains w deadline f.code

/-- The status that counts is the one of the creation, unless it is still pending. -/
theorem resolved_cause {heard : Heard} {deadline : Int} {st₀ : StatusResponse} (htold₀ : heard.told w st₀.state)
    {r : Except Failure StatusResponse}
    (h : (if st₀.state = .pending then waitForResolution w deadline heard.wait else some (.ok st₀)) = some r) :
    (∃ f, r = .error f ∧ heard.Explains w deadline f.code) ∨
      ∃ st, r = .ok st ∧ st.state ≠ .pending ∧ heard.told w st.state := by
  split at h
  · exact waitForResolution_cause h
  · rename_i hst
    cases h
    exact Or.inr ⟨st₀, rfl, hst, htold₀⟩

end

/-- Whatever the network does to a run of `request`: it writes a secret only if an answer to its read is a release of it;
and each exit code of its own stands for something the server said, or for the deadline or the missing token, never for
a mere failure of the network. -/
theorem exit_codes (w : CliWire) (timeout : Nat) (deadline : Int) (heard : Heard) :
    ∀ r ∈ runRequest w timeout deadline heard, heard.Grounds w deadline r := by
  intro r hr
  rw [Option.mem_def, runRequest] at hr
  cases hcreate : createAccessRequest w heard.create with
  | none =>
      rw [hcreate] at hr
      cases hr
  | some created =>
      rw [hcreate] at hr
      rcases createAccessRequest_cause deadline hcreate with ⟨f, rfl, hexp⟩ | ⟨st₀, rfl, htold₀⟩
      · cases hr
        exact hexp
      · dsimp only at hr
        cases hresolved : (if st₀.state = .pending then waitForResolution w deadline heard.wait else some (.ok st₀)) with
        | none =>
            rw [hresolved] at hr
            cases hr
        | some resolved =>
            rw [hresolved] at hr
            rcases resolved_cause htold₀ hresolved with ⟨f, rfl, hexp⟩ | ⟨st, rfl, hst, htold⟩
            · cases hr
              exact hexp
            · dsimp only at hr
              rcases @resolution_cause w heard deadline timeout st hst htold with ⟨f, hres, hexp⟩ | ⟨id, hres, happ⟩
              · rw [hres] at hr
                cases hr
                exact hexp
              · rw [hres] at hr
                rcases readGrant_cause hr with ⟨f, rfl, hexp⟩ | ⟨status, text, released, hin, hparse, rfl⟩
                · exact hexp
                · exact ⟨happ, status, text, hin, hparse⟩

/-- The bodies as they are, and no status among them. -/
noncomputable def plainWire : CliWire where
  toWire := jsonWire fun status => toString status
  parseStatus _ := .error "missing field"

/-- A creation whose first answer is lost, and that is then denied by policy. -/
def deniedByPolicy : Heard where
  create := [.ok (.unsent "connection reset by peer"),
    .ok (.answered 403 (errorText ⟨"policy-denied", "no rule allows this"⟩))]
  wait := []
  read := []

theorem exit_codes_denied : ∃ f, runRequest plainWire 300 1000 deniedByPolicy = some (.error f) ∧ f.code = EXIT_DENIED ∧
    deniedByPolicy.Grounds plainWire 1000 (.error f) :=
  ⟨_, rfl, rfl, exit_codes plainWire 300 1000 deniedByPolicy _ rfl⟩

end Keychute.Cli
