import Keychute.Crypto
import Keychute.Lib.Base64Url
import Keychute.Lib.BigEndian
import Keychute.Lib.Delimited
import Mathlib.Data.Set.Function

/-!
# Form tokens of the UI

* `issueToken`, `verifyToken` : a token is its expiry and a MAC over the form it is for and that expiry; `none` where
  64-bit arithmetic overflows;
* `macInput_inj` : the MACed text names one form and one expiry, whatever the form state holds;
* `Deployment`, `MacSecure` : what was issued and presented under one key, and what is assumed of the MAC there;
* `csrf_tokens_single_purpose` : a token passes for the form it was issued for, for 900 seconds, and for nothing else.
-/

namespace Keychute

/-- `DateTime::timestamp`: whole seconds, rounded down. -/
def DateTime.timestamp (t : DateTime) : Int := t.nanos / 10 ^ 9

/-! ## NUL bytes and decimals -/

/-- A NUL byte comes from a NUL character. -/
theorem nul_mem_bytes {s : String} : 0 ∈ bytes s ↔ '\x00' ∈ s.toList := @ascii_mem_bytes s '\x00' (by decide)

theorem nul_notMem_toString (v : Int) : 0 ∉ bytes (toString v) := by
  rw [nul_mem_bytes, toList_toString]
  split
  · intro h
    exact absurd (isDigit_toDigits h) (by decide)
  · intro h
    rcases List.mem_cons.1 h with h | h
    · exact absurd h (by decide)
    · exact absurd (isDigit_toDigits h) (by decide)

end Keychute

namespace Keychute.Ui
open Keychute.Lib
open Keychute.Crypto (Hmac csrfLabel csrfMac idemInput csrf_ne_idem)

/-! ## 64-bit arithmetic -/

/-- The result of an `i64` operation; `none` where it overflows. -/
def checkedI64 (n : Int) : Option Int := if -i64Max - 1 ≤ n ∧ n ≤ i64Max then some n else none

/-- `i64::to_be_bytes`. -/
def i64BeBytes (n : Int) : List UInt8 := beBytes 8 (n % 2 ^ 64).toNat

/-- `i64::from_be_bytes`. -/
def i64OfBeBytes (bs : List UInt8) : Int := asI64 (ofBeBytes bs)

theorem checkedI64_of_bounds {n : Int} (hlo : -i64Max - 1 ≤ n) (hhi : n ≤ i64Max) : checkedI64 n = some n :=
  if_pos ⟨hlo, hhi⟩

theorem i64OfBeBytes_i64BeBytes {n : Int} (hlo : -i64Max - 1 ≤ n) (hhi : n ≤ i64Max) :
    i64OfBeBytes (i64BeBytes n) = n := by
  unfold i64Max at hlo hhi
  rw [i64OfBeBytes, i64BeBytes, ofBeBytes_beBytes, asI64, i64Max]
  split
  · omega
  · omega

theorem i64OfBeBytes_le {bs : List UInt8} (h : bs.length = 8) : i64OfBeBytes bs ≤ i64Max := by
  have hlt := ofBeBytes_lt bs
  rw [h] at hlt
  rw [i64OfBeBytes, asI64]
  split
  · assumption
  · unfold i64Max
    omega

theorem i64BeBytes_i64OfBeBytes {bs : List UInt8} (h : bs.length = 8) : i64BeBytes (i64OfBeBytes bs) = bs := by
  have hlt := ofBeBytes_lt bs
  rw [h] at hlt
  have hnat : (i64OfBeBytes bs % 2 ^ 64).toNat = ofBeBytes bs := by
    rw [i64OfBeBytes, asI64]
    split
    · omega
    · omega
  have hbytes := beBytes_ofBeBytes bs
  rwa [h, ← hnat] at hbytes

/-! ## Tokens -/

def CSRF_TTL_SECONDS : Int := 15 * 60

/-- What a form token is bound to. -/
structure FormBinding where
  route : String
  actionId : String
  subject : String
  formState : String
  deriving DecidableEq

def macInput (f : FormBinding) (expiryUnix : Int) : List UInt8 :=
  bytes f.route ++ [0] ++ bytes f.actionId ++ [0] ++ bytes f.subject ++ [0] ++ bytes f.formState ++ [0] ++
    bytes (toString expiryUnix)

def issueToken (hmac : Hmac) (f : FormBinding) (now : DateTime) : Option String := do
  let expiry ← checkedI64 (now.timestamp + CSRF_TTL_SECONDS)
  let mac := csrfMac hmac (macInput f expiry)
  some (String.ofList (base64UrlEncode (i64BeBytes expiry ++ mac)))

def verifyToken (hmac : Hmac) (f : FormBinding) (token : String) (now : DateTime) : Option Bool :=
  match base64UrlDecode token.toList with
  | none => some false
  | some raw =>
    if raw.length ≠ 8 + 32 then some false
    else
      let expiry := i64OfBeBytes (raw.take 8)
      let ts := now.timestamp
      if ts ≥ expiry then some false
      else do
        let left ← checkedI64 (expiry - ts)
        if left > CSRF_TTL_SECONDS then some false
        else
          let expected := csrfMac hmac (macInput f expiry)
          some (raw.drop 8 == expected)

/-! ## What is MACed -/

/-- The three fields that end at a NUL hold none. -/
def FormBinding.NulFree (f : FormBinding) : Prop := 0 ∉ bytes f.route ∧ 0 ∉ bytes f.actionId ∧ 0 ∉ bytes f.subject

instance (f : FormBinding) : Decidable f.NulFree := inferInstanceAs (Decidable (_ ∧ _))

/-- The form state may hold NULs: it stands between the third NUL and the last, and a decimal holds none. -/
theorem macInput_inj {f g : FormBinding} {e e' : Int} (hf : f.NulFree) (hg : g.NulFree)
    (h : macInput f e = macInput g e') : f = g ∧ e = e' := by
  simp only [macInput, List.append_assoc] at h
  have field : ∀ {s t : String} {r r' : List UInt8}, 0 ∉ bytes s → 0 ∉ bytes t →
      bytes s ++ ([0] ++ r) = bytes t ++ ([0] ++ r') → s = t ∧ r = r' := by
    intro s t r r' hs ht heq
    obtain ⟨hst, hr⟩ := Delimited.terminated 0 (bytes s) (bytes t) hs ht r r' trivial trivial (by simpa using heq)
    exact ⟨bytes_inj.1 hst, hr⟩
  obtain ⟨hroute, h⟩ := field hf.1 hg.1 h
  obtain ⟨hid, h⟩ := field hf.2.1 hg.2.1 h
  obtain ⟨hsubject, h⟩ := field hf.2.2 hg.2.2 h
  obtain ⟨hstate, hexpiry⟩ := append_last_inj (nul_notMem_toString e) (nul_notMem_toString e') h
  refine ⟨?_, toString_inj (bytes_inj.1 hexpiry)⟩
  cases f
  cases g
  simp_all only [FormBinding.mk.injEq, true_and]
  exact bytes_inj.1 hstate

/-! ## The two functions, by what a token holds -/

/-- The token of an expiry and a tag. -/
def tokenText (expiry : Int) (mac : List UInt8) : String :=
  String.ofList (base64UrlEncode (i64BeBytes expiry ++ mac))

/-- The expiry and the tag of a token of the right length. -/
def readToken (token : String) : Option (Int × List UInt8) :=
  match base64UrlDecode token.toList with
  | none => none
  | some raw => if raw.length = 8 + 32 then some (i64OfBeBytes (raw.take 8), raw.drop 8) else none

theorem readToken_tokenText {e : Int} {mac : List UInt8} (hlo : -i64Max - 1 ≤ e) (hhi : e ≤ i64Max)
    (hmac : mac.length = 32) : readToken (tokenText e mac) = some (e, mac) := by
  have hlen : (i64BeBytes e).length = 8 := length_beBytes 8 _
  rw [readToken, tokenText, String.toList_ofList, base64UrlDecode_encode]
  simp only [List.length_append, hlen, hmac, if_true]
  rw [List.take_left' hlen, List.drop_left' hlen, i64OfBeBytes_i64BeBytes hlo hhi]

theorem tokenText_of_readToken {token : String} {e : Int} {mac : List UInt8} (h : readToken token = some (e, mac)) :
    token = tokenText e mac ∧ e ≤ i64Max := by
  unfold readToken at h
  split at h
  · cases h
  · rename_i raw hraw
    split at h
    · rename_i hlen
      have htake : (raw.take 8).length = 8 := by
        rw [List.length_take]
        omega
      cases h
      refine ⟨?_, i64OfBeBytes_le htake⟩
      rw [tokenText, i64BeBytes_i64OfBeBytes htake, List.take_append_drop, base64UrlDecode_eq_some.1 hraw,
        String.ofList_toList]
    · cases h

theorem timestamp_le (t : DateTime) : t.timestamp ≤ 8210266876799 := by
  have hmax := t.le_max
  unfold DateTime.timestamp
  omega

theorem issueToken_eq (hmac : Hmac) (f : FormBinding) {t : DateTime} (ht : 0 ≤ t.timestamp) :
    issueToken hmac f t = some (tokenText (t.timestamp + CSRF_TTL_SECONDS)
      (csrfMac hmac (macInput f (t.timestamp + CSRF_TTL_SECONDS)))) := by
  have hle := timestamp_le t
  rw [issueToken, checkedI64_of_bounds (by unfold i64Max CSRF_TTL_SECONDS; omega)
    (by unfold i64Max CSRF_TTL_SECONDS; omega)]
  rfl

/-- The left side of the comparison is a difference of two nonnegative numbers by then. -/
theorem verifyToken_eq (hmac : Hmac) (f : FormBinding) (token : String) {t : DateTime} (ht : 0 ≤ t.timestamp) :
    verifyToken hmac f token t = some (match readToken token with
      | none => false
      | some (e, mac) => t.timestamp < e && e - t.timestamp ≤ CSRF_TTL_SECONDS && mac == csrfMac hmac (macInput f e)) := by
  unfold verifyToken readToken
  cases hraw : base64UrlDecode token.toList with
  | none => rfl
  | some raw =>
      by_cases hlen : raw.length = 8 + 32
      · have htake : (raw.take 8).length = 8 := by
          rw [List.length_take]
          omega
        have hmax := i64OfBeBytes_le htake
        simp only [hlen, ne_eq, not_true, if_false, if_true]
        by_cases hts : t.timestamp ≥ i64OfBeBytes (raw.take 8)
        · rw [if_pos hts, decide_eq_false (not_lt.2 hts)]
          rfl
        · rw [if_neg hts, checkedI64_of_bounds (by unfold i64Max; omega) (by omega), decide_eq_true (not_le.1 hts)]
          by_cases hleft : i64OfBeBytes (raw.take 8) - t.timestamp > CSRF_TTL_SECONDS
          · rw [decide_eq_false (not_le.2 hleft)]
            simp [hleft]
          · rw [decide_eq_true (not_lt.1 hleft)]
            simp [hleft]
      · simp [hlen]

theorem verifyToken_eq_true {hmac : Hmac} {f : FormBinding} {token : String} {t : DateTime} (ht : 0 ≤ t.timestamp) :
    verifyToken hmac f token t = some true ↔ ∃ e, readToken token = some (e, csrfMac hmac (macInput f e)) ∧
      t.timestamp < e ∧ e ≤ t.timestamp + CSRF_TTL_SECONDS := by
  rw [verifyToken_eq hmac f token ht]
  cases hread : readToken token with
  | none => simp
  | some p =>
      obtain ⟨e, mac⟩ := p
      simp only [Option.some.injEq, Bool.and_eq_true, decide_eq_true_eq, beq_iff_eq, Prod.mk.injEq]
      constructor
      · rintro ⟨⟨hlt, hle⟩, hmac⟩
        exact ⟨e, ⟨rfl, hmac⟩, hlt, by omega⟩
      · rintro ⟨e', ⟨rfl, hmac⟩, hlt, hle⟩
        exact ⟨⟨hlt, by omega⟩, hmac⟩

/-! ## One key's uses -/

/-- What was done under one MAC key: the forms rendered, the forms submitted, and the requests whose payload was bound
to an idempotency key. -/
structure Deployment where
  issued : Set (FormBinding × DateTime)
  presented : Set (FormBinding × String × DateTime)
  keyed : Set (String × List UInt8)

namespace Deployment

/-- The texts whose MACs the server gave away or stored. -/
def answered (d : Deployment) : Set (List UInt8) :=
  { x | (∃ f t, (f, t) ∈ d.issued ∧ x = csrfLabel ++ macInput f (t.timestamp + CSRF_TTL_SECONDS)) ∨
    ∃ client payload, (client, payload) ∈ d.keyed ∧ x = idemInput client payload }

/-- The texts whose MACs it compared a presented tag with. -/
def compared (d : Deployment) : Set (List UInt8) :=
  { x | ∃ f token t e mac, (f, token, t) ∈ d.presented ∧ readToken token = some (e, mac) ∧
    x = csrfLabel ++ macInput f e }

end Deployment

/-- The MAC over a deployment: no two texts collide, and nobody presents the tag of a text that the server did not MAC
itself. A function from all texts to 32 bytes is not injective, so the texts are those that came up. -/
structure MacSecure (hmac : Hmac) (d : Deployment) : Prop where
  length : ∀ x, (hmac x).length = 32
  injective : Set.InjOn hmac (d.answered ∪ d.compared)
  unguessed : ∀ f token t e, (f, token, t) ∈ d.presented →
    readToken token = some (e, csrfMac hmac (macInput f e)) → csrfLabel ++ macInput f e ∈ d.answered

theorem csrf_tokens_single_purpose {hmac : Hmac} {d : Deployment} (hsec : MacSecure hmac d)
    (hissued : ∀ f t, (f, t) ∈ d.issued → f.NulFree ∧ 0 ≤ t.timestamp)
    (hpresented : ∀ f token t, (f, token, t) ∈ d.presented → f.NulFree ∧ 0 ≤ t.timestamp) :
    (∀ f t₀, (f, t₀) ∈ d.issued → ∃ token, issueToken hmac f t₀ = some token ∧
      ∀ f' t, (f', token, t) ∈ d.presented →
        (verifyToken hmac f' token t = some true ↔
          f'.route = f.route ∧ f'.actionId = f.actionId ∧ f'.subject = f.subject ∧ f'.formState = f.formState ∧
          t₀.timestamp ≤ t.timestamp ∧ t.timestamp < t₀.timestamp + 900)) ∧
    (∀ f token t, (f, token, t) ∈ d.presented → verifyToken hmac f token t = some true →
      ∃ t₀, (f, t₀) ∈ d.issued ∧ issueToken hmac f t₀ = some token) ∧
    ∀ f token t, 0 ≤ t.timestamp → verifyToken hmac f token t ≠ none := by
  refine ⟨?_, ?_, ?_⟩
  · intro f t₀ hf
    obtain ⟨hnul, ht₀⟩ := hissued f t₀ hf
    have hle := timestamp_le t₀
    have hread := @readToken_tokenText (t₀.timestamp + CSRF_TTL_SECONDS)
      (csrfMac hmac (macInput f (t₀.timestamp + CSRF_TTL_SECONDS))) (by unfold i64Max CSRF_TTL_SECONDS; omega)
      (by unfold i64Max CSRF_TTL_SECONDS; omega) (hsec.length _)
    refine ⟨_, issueToken_eq hmac f ht₀, ?_⟩
    intro f' t hf'
    obtain ⟨hnul', ht⟩ := hpresented f' _ t hf'
    rw [verifyToken_eq_true ht, hread]
    constructor
    · rintro ⟨e, heq, hlt, hwin⟩
      obtain ⟨rfl, hmac⟩ := Prod.mk.inj (Option.some.inj heq)
      have htext := hsec.injective (Or.inl (Or.inl ⟨f, t₀, hf, rfl⟩)) (Or.inr ⟨f', _, t, _, _, hf', hread, rfl⟩) hmac
      obtain ⟨rfl, -⟩ := macInput_inj hnul hnul' (List.append_cancel_left htext)
      unfold CSRF_TTL_SECONDS at hlt hwin
      exact ⟨rfl, rfl, rfl, rfl, by omega, by omega⟩
    · rintro ⟨hr, hi, hs, hstate, hge, hlt⟩
      obtain rfl : f' = f := by
        cases f
        cases f'
        simp_all only
      exact ⟨_, rfl, by unfold CSRF_TTL_SECONDS; omega, by unfold CSRF_TTL_SECONDS; omega⟩
  · intro f token t hf hver
    obtain ⟨hnul, ht⟩ := hpresented f token t hf
    obtain ⟨e, hread, -, -⟩ := (verifyToken_eq_true ht).1 hver
    have hans := hsec.unguessed f token t e hf hread
    rcases hans with ⟨g, t₀, hg, htext⟩ | ⟨client, payload, -, htext⟩
    · obtain ⟨hnul₀, ht₀⟩ := hissued g t₀ hg
      obtain ⟨rfl, rfl⟩ := macInput_inj hnul hnul₀ (List.append_cancel_left htext)
      refine ⟨t₀, hg, ?_⟩
      rw [issueToken_eq hmac f ht₀, ← (tokenText_of_readToken hread).1]
    · exact absurd htext (csrf_ne_idem _ client payload)
  · intro f token t ht h
    rw [verifyToken_eq hmac f token ht] at h
    cases h

def approveForm : FormBinding := ⟨"/ui/requests/approve", "req-1", "andrew", "v1"⟩

def denyForm : FormBinding := ⟨"/ui/requests/deny", "req-1", "andrew", "v1"⟩

def formTime (n : Nat) : DateTime := .ofSeconds (1700000000 + n)

/-- HMAC-SHA256 under the key of 32 bytes 9, on the texts of the two forms. -/
def testHmac : Hmac := fun x =>
  if x = csrfLabel ++ macInput approveForm 1700000900 then
    [186, 100, 69, 36, 125, 27, 236, 70, 175, 191, 55, 199, 122, 34, 187, 9, 89, 147, 23, 67, 241, 28, 46, 20, 128, 0,
      180, 114, 105, 10, 241, 68]
  else if x = csrfLabel ++ macInput denyForm 1700000900 then
    [27, 42, 61, 91, 200, 144, 26, 86, 246, 93, 38, 108, 37, 118, 84, 222, 245, 38, 141, 154, 208, 146, 216, 255, 31, 218,
      181, 110, 2, 233, 163, 101]
  else List.replicate 32 0

def approveToken : String := "AAAAAGVT9IS6ZEUkfRvsRq-_N8d6IrsJWZMXQ_EcLhSAALRyaQrxRA"

/-- The approval form, rendered once and submitted to its own route, late, and to the other one. -/
def twoForms : Deployment where
  issued := {(approveForm, formTime 0)}
  presented := {(approveForm, approveToken, formTime 899), (approveForm, approveToken, formTime 900),
    (denyForm, approveToken, formTime 1)}
  keyed := ∅

theorem readToken_approveToken : readToken approveToken =
    some (1700000900, csrfMac testHmac (macInput approveForm 1700000900)) := by decide +kernel

theorem testHmac_secure : MacSecure testHmac twoForms := by
  have happrove : csrfLabel ++ macInput approveForm 1700000900 ∈ twoForms.answered :=
    Or.inl ⟨approveForm, formTime 0, rfl, by decide +kernel⟩
  have hread : ∀ {e mac}, readToken approveToken = some (e, mac) →
      e = 1700000900 ∧ mac = csrfMac testHmac (macInput approveForm 1700000900) := by
    intro e mac h
    rw [readToken_approveToken] at h
    cases h
    exact ⟨rfl, rfl⟩
  have hinputs : ∀ x ∈ twoForms.answered ∪ twoForms.compared,
      x = csrfLabel ++ macInput approveForm 1700000900 ∨ x = csrfLabel ++ macInput denyForm 1700000900 := by
    rintro x ((⟨f, t, hf, rfl⟩ | ⟨client, payload, hk, -⟩) | ⟨f, token, t, e, mac, hp, htok, rfl⟩)
    · cases hf
      exact Or.inl (by decide +kernel)
    · cases hk
    · rcases hp with hp | hp | hp
      all_goals
        cases hp
        obtain ⟨rfl, -⟩ := hread htok
        simp
  refine ⟨?_, ?_, ?_⟩
  · intro x
    unfold testHmac
    split
    · rfl
    · split <;> rfl
  · intro x hx y hy hxy
    rcases hinputs x hx with rfl | rfl <;> rcases hinputs y hy with rfl | rfl
    · rfl
    · exact absurd hxy (by decide +kernel)
    · exact absurd hxy (by decide +kernel)
    · rfl
  · intro f token t e hp htok
    rcases hp with hp | hp | hp
    · cases hp
      obtain ⟨rfl, -⟩ := hread htok
      exact happrove
    · cases hp
      obtain ⟨rfl, -⟩ := hread htok
      exact happrove
    · cases hp
      obtain ⟨rfl, hmac⟩ := hread htok
      exact absurd hmac (by decide +kernel)

theorem csrf_tokens_single_purpose_approve :
    issueToken testHmac approveForm (formTime 0) = some approveToken ∧
      verifyToken testHmac approveForm approveToken (formTime 899) = some true ∧
      verifyToken testHmac approveForm approveToken (formTime 900) ≠ some true ∧
      verifyToken testHmac denyForm approveToken (formTime 1) ≠ some true := by
  have hall := csrf_tokens_single_purpose testHmac_secure
    (by
      intro f t hf
      cases hf
      decide +kernel)
    (by
      intro f token t hp
      rcases hp with hp | hp | hp <;> cases hp <;> decide +kernel)
  obtain ⟨token, hissue, hver⟩ := hall.1 approveForm (formTime 0) rfl
  have htoken : issueToken testHmac approveForm (formTime 0) = some approveToken := by decide +kernel
  obtain rfl : token = approveToken := Option.some.inj (hissue.symm.trans htoken)
  refine ⟨htoken, (hver approveForm (formTime 899) (Or.inl rfl)).2 (by decide +kernel), ?_, ?_⟩
  · intro h
    exact absurd ((hver approveForm (formTime 900) (Or.inr (Or.inl rfl))).1 h) (by decide +kernel)
  · intro h
    exact absurd ((hver denyForm (formTime 1) (Or.inr (Or.inr rfl))).1 h) (by decide +kernel)

end Keychute.Ui
