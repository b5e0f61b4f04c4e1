import Keychute.Api.Secrets

/-!
# `keychute store`, and what a later read prints (`cli/src/main.rs`)

* `readBounded`, `stripTrailingNewline`, `readSecretInput` : the bounded read of the value and its one newline;
* `storeRequest` : the body that is sent;
* `writeSecret` : what a read puts on standard output;
* `credential` : the value as its user means it;
* `deposited_bytes_return` : a value is taken when its credential has 1 to 65,536 bytes, and then these bytes are sealed
  and come back.
-/

namespace Keychute.Cli
open Keychute.Db Keychute.Api Keychute.Crypto

def EXIT_OTHER : Int := 1
def EXIT_CONFIG : Int := 2

/-- `Failure`: an exit code and what is printed. -/
structure Failure where
  code : Int
  message : String
  deriving DecidableEq

def MAX_SECRET_BYTES : Nat := 64 * 1024
def HEADROOM : Nat := 3

/-- The stream a value is read from: whether it is a terminal, and all that it would yield. -/
structure Input where
  terminal : Bool
  content : Blob

/-- Read at most the cap and the headroom; input that fills both is refused. -/
def readBounded (source : Blob) : Except String Blob :=
  let buf := source.take (MAX_SECRET_BYTES + HEADROOM)
  if buf.length > MAX_SECRET_BYTES + HEADROOM - 1 then
    .error ("the secret value exceeds " ++ toString MAX_SECRET_BYTES ++ " bytes")
  else .ok buf

/-- Drop exactly one trailing newline, and say whether there was one. -/
def stripTrailingNewline (buf : Blob) : Blob × Bool :=
  if buf.getLast? ≠ some 10 then (buf, false)
  else
    let buf := buf.dropLast
    if buf.getLast? = some 13 then (buf.dropLast, true) else (buf, true)

/-- The bytes of `--value-file`, or of standard input; neither may be a terminal. -/
def readSource (source : Option String) (input : Input) : Except Failure Blob :=
  match source.filter (· != "-") with
  | some path =>
    if input.terminal then
      .error ⟨EXIT_CONFIG, "--value-file " ++ path ++ " is a terminal: reading a secret from one echoes it on screen. " ++
        "Pipe the value in, or point at a regular file"⟩
    else (readBounded input.content).mapError fun e => ⟨EXIT_CONFIG, "cannot read --value-file " ++ path ++ ": " ++ e⟩
  | none =>
    if input.terminal then
      .error ⟨EXIT_CONFIG, "refusing to read a secret from a terminal (it would be echoed on screen): pipe the value " ++
        "in, or use --value-file"⟩
    else (readBounded input.content).mapError fun e => ⟨EXIT_CONFIG, "cannot read the secret from stdin: " ++ e⟩

/-- The cap applies to the credential, so after its newline is gone. -/
def checkLength (buf : Blob) : Except Failure Blob :=
  if buf.length > MAX_SECRET_BYTES then
    .error ⟨EXIT_CONFIG, "the secret value exceeds " ++ toString MAX_SECRET_BYTES ++ " bytes"⟩
  else if buf.isEmpty then .error ⟨EXIT_CONFIG, "the secret value is empty"⟩
  else .ok buf

def readSecretInput (source : Option String) (raw : Bool) (input : Input) : Except Failure Blob := do
  let buf ← readSource source input
  checkLength (if raw then buf else (stripTrailingNewline buf).1)

def parseTier : String → Option Tier
  | "brokered" => some .brokered
  | "trusted-client" => some .trustedClient
  | "cooperating-client" => some .cooperatingClient
  | "direct" => some .direct
  | _ => none

structure StoreArgs where
  secretName : String
  valueFile : Option String
  description : String
  maxTier : String
  injectionKind : String
  injectionHeader : Option String
  raw : Bool

/-- The body that `run_store` posts. -/
def storeRequest (args : StoreArgs) (input : Input) : Except Failure StoreSecretRequest :=
  match parseTier args.maxTier with
  | none => .error ⟨EXIT_CONFIG, "unknown max-tier " ++ args.maxTier.quote⟩
  | some tier => do
    let value ← readSecretInput args.valueFile args.raw input
    return {
      name := args.secretName
      value := (encodeSecret value).1
      encoding := (encodeSecret value).2
      description := args.description
      maxTier := some tier
      injectionKind := some args.injectionKind
      injectionHeader := args.injectionHeader }

/-- What a read prints: the decoded bytes, and a newline if one is asked for or the output is a terminal. -/
def writeSecret (released : ReadGrantResponse) (forceNewline isTerminal : Bool) : Except Failure Blob :=
  match decodeSecret released.secret released.encoding with
  | none => .error ⟨EXIT_OTHER, "server sent invalid base64 payload"⟩
  | some bs => .ok (bs ++ if forceNewline || isTerminal then [10] else [])

/-! ## The credential of an input -/

/-- The input itself with `--raw`, otherwise without one trailing CRLF or LF. -/
def credential (raw : Bool) (input : Blob) : Blob :=
  if raw then input
  else if [13, 10] <:+ input then input.take (input.length - 2)
  else if [10] <:+ input then input.take (input.length - 1)
  else input

theorem suffix_singleton_iff {b : UInt8} {l : Blob} : [b] <:+ l ↔ l.getLast? = some b := by
  rw [List.getLast?_eq_some_iff]
  constructor
  · rintro ⟨t, rfl⟩
    exact ⟨t, rfl⟩
  · rintro ⟨t, rfl⟩
    exact ⟨t, rfl⟩

theorem suffix_pair_iff {a b : UInt8} {l : Blob} :
    [a, b] <:+ l ↔ l.getLast? = some b ∧ l.dropLast.getLast? = some a := by
  constructor
  · rintro ⟨t, rfl⟩
    have hsplit : t ++ [a, b] = (t ++ [a]) ++ [b] := by simp
    rw [hsplit, List.dropLast_concat]
    simp
  · rintro ⟨hb, ha⟩
    obtain ⟨t, rfl⟩ := List.getLast?_eq_some_iff.1 hb
    rw [List.dropLast_concat] at ha
    obtain ⟨u, rfl⟩ := List.getLast?_eq_some_iff.1 ha
    exact ⟨u, by simp⟩

theorem stripTrailingNewline_fst (buf : Blob) : (stripTrailingNewline buf).1 = credential false buf := by
  simp only [stripTrailingNewline, credential, suffix_pair_iff, suffix_singleton_iff, Bool.false_eq_true, if_false]
  by_cases hlf : buf.getLast? = some 10
  · by_cases hcr : buf.dropLast.getLast? = some 13
    · simp only [hlf, hcr, ne_eq, not_true_eq_false, if_false, if_true, and_self]
      rw [List.dropLast_eq_take, List.dropLast_eq_take, List.take_take, List.length_take]
      congr 1
      omega
    · simp only [hlf, hcr, ne_eq, not_true_eq_false, if_false, if_true, and_false]
      exact List.dropLast_eq_take
  · simp [hlf]

/-- At most two bytes are taken off. -/
theorem length_le_credential (raw : Bool) (input : Blob) : input.length ≤ (credential raw input).length + 2 := by
  unfold credential
  split
  · omega
  · split
    · rw [List.length_take]; omega
    · split
      · rw [List.length_take]; omega
      · omega

/-- The bounded read loses nothing that could still be a credential. -/
theorem readBounded_ok {source : Blob} (h : source.length ≤ MAX_SECRET_BYTES + 2) : readBounded source = .ok source := by
  have htake : source.take (MAX_SECRET_BYTES + HEADROOM) = source := by
    apply List.take_of_length_le
    unfold HEADROOM
    omega
  simp only [readBounded, htake]
  rw [if_neg]
  unfold HEADROOM
  omega

theorem readBounded_fails {source : Blob} (h : MAX_SECRET_BYTES + 2 < source.length) :
    ∃ e, readBounded source = .error e := by
  refine ⟨_, if_pos ?_⟩
  rw [List.length_take]
  unfold HEADROOM
  omega

theorem readSource_of_ok {input : Input} (hterm : input.terminal = false) (source : Option String)
    (h : readBounded input.content = .ok input.content) : readSource source input = .ok input.content := by
  unfold readSource
  cases source.filter (· != "-") <;> simp [hterm, h, Except.mapError]

theorem readSource_of_error {input : Input} {e : String} (source : Option String)
    (h : readBounded input.content = .error e) : ∃ f, readSource source input = .error f := by
  unfold readSource
  cases source.filter (· != "-") <;> cases input.terminal <;> simp [h, Except.mapError]

theorem checkLength_eq_ok {buf v : Blob} : checkLength buf = .ok v ↔ v = buf ∧ 1 ≤ v.length ∧ v.length ≤ MAX_SECRET_BYTES := by
  unfold checkLength
  constructor
  · intro h
    split at h
    · cases h
    · split at h
      · cases h
      · rename_i hle hne
        cases h
        exact ⟨rfl, List.length_pos_iff.2 (by simpa using hne), by omega⟩
  · rintro ⟨rfl, hpos, hle⟩
    rw [if_neg (by omega), if_neg]
    simpa using List.length_pos_iff.1 hpos

theorem normalized_eq_credential (raw : Bool) (buf : Blob) :
    (if raw = true then buf else (stripTrailingNewline buf).1) = credential raw buf := by
  cases raw with
  | false => exact stripTrailingNewline_fst buf
  | true => rfl

/-- What an input that is no terminal is read as: its credential, when that has 1 to 65,536 bytes. -/
theorem readSecretInput_eq_ok {input : Input} (hterm : input.terminal = false) {source : Option String} {raw : Bool}
    {v : Blob} : readSecretInput source raw input = .ok v ↔
      v = credential raw input.content ∧ 1 ≤ v.length ∧ v.length ≤ MAX_SECRET_BYTES := by
  by_cases hlen : input.content.length ≤ MAX_SECRET_BYTES + 2
  · simp only [readSecretInput, readSource_of_ok hterm source (readBounded_ok hlen), bind_eq_ok, Except.ok.injEq,
      exists_eq_left', normalized_eq_credential, checkLength_eq_ok]
  · -- what is too long for the bounded read is too long with its newline taken off
    obtain ⟨e, he⟩ := readBounded_fails (Nat.lt_of_not_le hlen)
    obtain ⟨f, hf⟩ := readSource_of_error source he
    have hcred := length_le_credential raw input.content
    simp only [readSecretInput, hf, bind_eq_ok, reduceCtorEq, false_and, exists_false, false_iff]
    rintro ⟨rfl, -, hle⟩
    omega

/-! ## There and back -/

theorem storeRequest_ok {args : StoreArgs} {input : Input} {tier : Tier} {v : Blob}
    (htier : parseTier args.maxTier = some tier) (hv : readSecretInput args.valueFile args.raw input = .ok v) :
    ∃ req, storeRequest args input = .ok req ∧ req.value = (encodeSecret v).1 ∧ req.encoding = (encodeSecret v).2 := by
  refine ⟨⟨args.secretName, (encodeSecret v).1, (encodeSecret v).2, args.description, some tier,
    some args.injectionKind, args.injectionHeader⟩, ?_, rfl, rfl⟩
  simp only [storeRequest, htier, hv]
  rfl

theorem writeSecret_readResponse (v : Blob) (versionId : Uuid) (forceNewline isTerminal : Bool) :
    writeSecret (readResponse v versionId) forceNewline isTerminal =
      .ok (v ++ if forceNewline || isTerminal then [10] else []) := by
  simp only [writeSecret, readResponse, decodeSecret_encodeSecret]

/-- An input is taken exactly when its credential has 1 to 65,536 bytes. Then its encoding passes the size checks of the
deposit, the credential is what is sealed, and reading it back through any rotation of keys prints it again. -/
theorem deposited_bytes_return {A : Aead} (hA : A.Ideal) {input : Input} (hterm : input.terminal = false)
    (args : StoreArgs) {tier : Tier} (htier : parseTier args.maxTier = some tier) :
    ((∃ buf, readSecretInput args.valueFile args.raw input = .ok buf) ↔
      1 ≤ (credential args.raw input.content).length ∧
        (credential args.raw input.content).length ≤ MAX_SECRET_BYTES) ∧
    (1 ≤ (credential args.raw input.content).length →
      (credential args.raw input.content).length ≤ MAX_SECRET_BYTES →
      ∃ req, storeRequest args input = .ok req ∧
        decodeValue req.value req.encoding = .ok (credential args.raw input.content) ∧
        (∀ sealBytes mayStoreSecrets secretId, req.RestValid mayStoreSecrets →
          ∃ p, storeInner sealBytes mayStoreSecrets secretId req = .ok p ∧
            p.sealWith = sealBytes (credential args.raw input.content) (.secretVersion secretId 1)) ∧
        ∀ (keyset : Crypto.Keyset) chain dek payloadNonce wrapNonce secretId versionId createdAt, Chained keyset chain →
          ∃ sealed stored plaintext,
            keyset.sealActive A dek payloadNonce wrapNonce (credential args.raw input.content)
              (.secretVersion secretId 1) = .ok sealed ∧
            rewrapChain A chain sealed = .ok stored ∧
            openSecretVersion A (lastKeyset keyset chain) ⟨versionId, secretId, 1, stored, createdAt, none⟩ =
              .ok plaintext ∧
            ∀ forceNewline isTerminal, writeSecret (readResponse plaintext versionId) forceNewline isTerminal =
              .ok (credential args.raw input.content ++ if forceNewline || isTerminal then [10] else [])) := by
  constructor
  · constructor
    · rintro ⟨buf, hbuf⟩
      obtain ⟨rfl, hpos, hle⟩ := (readSecretInput_eq_ok hterm).1 hbuf
      exact ⟨hpos, hle⟩
    · rintro ⟨hpos, hle⟩
      exact ⟨_, (readSecretInput_eq_ok hterm).2 ⟨rfl, hpos, hle⟩⟩
  · intro hpos hle
    obtain ⟨req, hreq, hvalue, hencoding⟩ := storeRequest_ok htier ((readSecretInput_eq_ok hterm).2 ⟨rfl, hpos, hle⟩)
    have hdecode : decodeValue req.value req.encoding = .ok (credential args.raw input.content) := by
      rw [hvalue, hencoding]
      exact decodeValue_encodeSecret (List.length_pos_iff.1 hpos) hle
    refine ⟨req, hreq, hdecode, fun _ _ _ hrest => storeInner_ok hrest hdecode, ?_⟩
    intro keyset chain dek payloadNonce wrapNonce secretId versionId createdAt hch
    obtain ⟨sealed, stored, _, hsealed, hstored, -, henc, -, -, -, hopen⟩ := sealed_rewrapped hA hch dek payloadNonce
      wrapNonce (credential args.raw input.content) (.secretVersion secretId 1)
    refine ⟨sealed, stored, credential args.raw input.content, hsealed, hstored, ?_,
      writeSecret_readResponse (credential args.raw input.content) versionId⟩
    rw [openSecretVersion, hopen, hA.inverts henc]
    rfl

/-- Two bytes that are no UTF-8, and the newline of the shell. -/
def binaryInput : Input := ⟨false, [255, 254, 13, 10]⟩

def binaryArgs : StoreArgs := ⟨"der-key", none, "", "brokered", "bearer", none, false⟩

theorem deposited_bytes_return_binary :
    ∃ req, storeRequest binaryArgs binaryInput = .ok req ∧ req.value = "//4=" ∧ req.encoding = .base64 ∧
      req.RestValid true ∧ decodeValue req.value req.encoding = .ok [255, 254] ∧
      ∃ sealed stored plaintext,
        beforeRotation.sealActive tagging (sampleKey 7) (sampleNonce 1) (sampleNonce 2) [255, 254] (.secretVersion 5 1) =
          .ok sealed ∧
        rewrapChain tagging [(afterRotation, sampleNonce 3)] sealed = .ok stored ∧
        openSecretVersion tagging afterRotation ⟨6, 5, 1, stored, DateTime.maxUtc, none⟩ = .ok plaintext ∧
        writeSecret (readResponse plaintext 6) false false = .ok [255, 254] := by
  have hcred : credential binaryArgs.raw binaryInput.content = [255, 254] := by decide +kernel
  have heq : storeRequest binaryArgs binaryInput =
      .ok ⟨"der-key", "//4=", .base64, "", some .brokered, some "bearer", none⟩ := by
    decide +kernel
  have htaken := (@deposited_bytes_return tagging tagging_ideal binaryInput rfl binaryArgs .brokered rfl).2
    (by decide +kernel) (by decide +kernel)
  rw [hcred] at htaken
  obtain ⟨req, hreq, hdecode, -, hread⟩ := htaken
  have hch : Chained beforeRotation [(afterRotation, sampleNonce 3)] := ⟨rfl, trivial⟩
  obtain ⟨sealed, stored, plaintext, hsealed, hstored, hopen, hwrite⟩ :=
    hread beforeRotation _ (sampleKey 7) (sampleNonce 1) (sampleNonce 2) 5 6 DateTime.maxUtc hch
  rw [heq] at hreq
  cases hreq
  refine ⟨_, heq, rfl, rfl, ⟨rfl, by decide +kernel, by decide +kernel, _, rfl⟩, hdecode, sealed, stored, plaintext,
    hsealed, hstored, hopen, hwrite false false⟩

end Keychute.Cli
