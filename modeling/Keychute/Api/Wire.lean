import Keychute.Api.Error
import Keychute.Canonical
import Keychute.Crypto
import Mathlib.Logic.Function.Basic

/-!
# The bodies as `serde_json` writes them

* `errorText`, `releaseText` : the texts, each of which names its value (`errorText_inj`, `releaseText_inj`);
* `jsonWire` : writing them, and reading back what was written.
-/

namespace Keychute.Api
open Keychute.Lib

def SecretEncoding.asStr : SecretEncoding → String
  | .utf8 => "utf8"
  | .base64 => "base64"

/-- An error in its envelope. -/
def errorText (e : ApiError) : String :=
  "\x7b\"error\":\x7b\"code\":" ++ jsonString e.code ++ ",\"message\":" ++ jsonString e.message ++ "\x7d\x7d"

def releaseText (r : ReadGrantResponse) : String :=
  "\x7b\"secret\":" ++ jsonString r.secret ++ ",\"encoding\":" ++ jsonString r.encoding.asStr ++
    ",\"secret_version_id\":" ++ jsonString (uuidDisplay r.secretVersionId) ++ "\x7d"

section
variable {s s' : String}

theorem SecretEncoding.asStr_inj {e e' : SecretEncoding} (h : e.asStr = e'.asStr) : e = e' := by
  cases e <;> cases e' <;> first | rfl | exact absurd h (by decide)

/-- A string of a text that begins with it. -/
theorem jsonString_append_inj {r r' : String} (h : jsonString s ++ r = jsonString s' ++ r') : s = s' ∧ r = r' := by
  have hchars := congrArg String.toList h
  rw [String.toList_append, String.toList_append] at hchars
  obtain ⟨hs, hr⟩ := jsonString_delimited s s' trivial trivial r.toList r'.toList trivial trivial hchars
  exact ⟨hs, String.toList_inj.1 hr⟩

theorem append_cancel {r r' : String} (h : s ++ r = s ++ r') : r = r' := by
  have hchars := congrArg String.toList h
  rw [String.toList_append, String.toList_append] at hchars
  exact String.toList_inj.1 (List.append_cancel_left hchars)

end

theorem errorText_inj : Function.Injective errorText := by
  intro e e' h
  unfold errorText at h
  simp only [String.append_assoc] at h
  obtain ⟨hcode, h⟩ := jsonString_append_inj (append_cancel h)
  obtain ⟨hmessage, -⟩ := jsonString_append_inj (append_cancel h)
  cases e
  cases e'
  simp only at hcode hmessage
  rw [hcode, hmessage]

theorem releaseText_inj : Function.Injective releaseText := by
  intro r r' h
  unfold releaseText at h
  simp only [String.append_assoc] at h
  obtain ⟨hsecret, h⟩ := jsonString_append_inj (append_cancel h)
  obtain ⟨hencoding, h⟩ := jsonString_append_inj (append_cancel h)
  obtain ⟨hid, -⟩ := jsonString_append_inj (append_cancel h)
  cases r
  cases r'
  simp only at hsecret hencoding hid
  rw [hsecret, SecretEncoding.asStr_inj hencoding, uuidDisplay_injective hid]

/-- Both ends: what one has written, the other reads. -/
noncomputable def jsonWire (showStatus : Nat → String) : Wire where
  errorText := errorText
  parseError := Function.partialInv errorText
  releaseText := releaseText
  parseRelease text := (Function.partialInv releaseText text).elim (.error "invalid body") .ok
  showStatus := showStatus

theorem jsonWire_documented (showStatus : Nat → String) : (jsonWire showStatus).Documented where
  error := Function.partialInv_left errorText_inj
  release r := by
    show (Function.partialInv releaseText (releaseText r)).elim (.error "invalid body") Except.ok = .ok r
    rw [Function.partialInv_left releaseText_inj, Option.elim_some]

end Keychute.Api
