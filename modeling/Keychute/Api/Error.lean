import Keychute.Api.Secrets

/-!
# Refusals on the wire (`server/src/api/error.rs`)

A refusal becomes a status, a code and a message; the code stands in the body and in a header of its own, which marks
the answer as the server's.
-/

namespace Keychute.Api

/-- `ApiFailure`: those of the handlers, and the two that the router and the wait handler raise. -/
inductive Refusal where
  | of (f : ApiFailure)
  | methodNotAllowed
  | tooManyWaits

/-- `ApiError`, without its envelope. -/
structure ApiError where
  code : String
  message : String
  deriving DecidableEq

def ApiFailure.statusCodeMessage : ApiFailure → Nat × ApiError
  | .unauthenticated => (401, ⟨"unauthenticated", "authentication required"⟩)
  | .notFound => (404, ⟨"not-found", "not found"⟩)
  | .invalidRequest m => (400, ⟨"invalid-request", m⟩)
  | .requestTooLarge m => (400, ⟨"request-too-large", m⟩)
  | .invalidPath m => (400, ⟨"invalid-path", m⟩)
  | .wrongMechanism => (400, ⟨"wrong-mechanism", "grant mechanism does not support this endpoint"⟩)
  | .idempotencyKeyReuse =>
    (409, ⟨"idempotency-key-reuse", "idempotency key was already used with a different payload"⟩)
  | .secretExists => (409, ⟨"secret-exists", "a secret with this name already exists; rotation is operator-only"⟩)
  | .policyDenied reason => (403, ⟨"policy-denied", reason⟩)
  | .revalidationFailed => (403, ⟨"revalidation-failed", "grant is no longer usable"⟩)
  | .tooManyPending => (429, ⟨"too-many-pending", "per-client pending request cap reached"⟩)
  | .tooManyStreams => (429, ⟨"too-many-streams", "per-client concurrent proxy stream cap reached"⟩)
  | .tooManyDeposits => (429, ⟨"too-many-deposits", "per-client secret deposit rate cap reached"⟩)
  | .grantExhausted => (410, ⟨"grant-exhausted", "grant has no uses remaining"⟩)
  | .grantExpired => (410, ⟨"grant-expired", "grant is revoked or expired"⟩)
  | .payloadLost =>
    (410, ⟨"payload-lost", "the grant payload is no longer available; submit a new access request"⟩)
  | .bodyTooLarge => (413, ⟨"body-too-large", "request body exceeds the proxy limit"⟩)
  | .badCredentialEncoding =>
    (502, ⟨"bad-credential-encoding", "credential cannot be encoded for header injection"⟩)
  | .upstreamUnreachable => (502, ⟨"upstream-unreachable", "upstream request failed"⟩)
  | .upstreamTimeout => (504, ⟨"upstream-timeout", "proxy stream deadline elapsed"⟩)
  | .internal _ => (500, ⟨"internal", "internal error"⟩)

def Refusal.statusCodeMessage : Refusal → Nat × ApiError
  | .of f => f.statusCodeMessage
  | .methodNotAllowed => (405, ⟨"method-not-allowed", "method not allowed on this route"⟩)
  | .tooManyWaits => (429, ⟨"too-many-waits", "per-client concurrent wait cap reached"⟩)

/-- `serde_json`, as both ends use it for these bodies, and how a status is shown. -/
structure Wire where
  errorText : ApiError → String
  parseError : String → Option ApiError
  releaseText : ReadGrantResponse → String
  parseRelease : String → Except String ReadGrantResponse
  showStatus : Nat → String

/-- What is written is read back. -/
structure Wire.Documented (w : Wire) : Prop where
  error : ∀ e, w.parseError (w.errorText e) = some e
  release : ∀ r, w.parseRelease (w.releaseText r) = .ok r

/-- A response; `keychuteError` is the header that marks the server's own errors. -/
structure HttpResponse where
  status : Nat
  keychuteError : Option String
  body : String

def Refusal.intoResponse (w : Wire) (r : Refusal) : HttpResponse :=
  let (status, e) := r.statusCodeMessage
  ⟨status, some e.code, w.errorText e⟩

/-- The response of the read handler. -/
def readAnswer (w : Wire) : Except ApiFailure ReadGrantResponse → HttpResponse
  | .ok released => ⟨200, none, w.releaseText released⟩
  | .error f => (Refusal.of f).intoResponse w

end Keychute.Api
