import Keychute.Http
import Keychute.Db.Rows

/-!
# Envelope encryption (`server/src/crypto/mod.rs`)

* `AadContext.derive` : the associated data of a row, rebuilt from its identity (`derive_injective`);
* `sealWithKek`, `unwrapDek`, `openWithKek`, `Keyset.sealNew`, `Keyset.openSealed`, `Keyset.rewrap` : the envelope. The
  cipher is a parameter, and what the OS draws is an argument;
* `Aead.Ideal` : decryption inverts encryption under the same key, nonce and associated data, and fails under any other;
* `idemMac`, `csrfMac` : the two uses of the keyset's MAC key, under labels of their own (`csrf_ne_idem`);
* `envelope_binding` : through any chain of key rotations a payload opens to its plaintext, and to nothing under another
  context, another key or the wrapped key of another sealing.
-/

namespace Keychute.Crypto
open Keychute.Db Keychute.Http

/-! ## Associated data -/

/-- Which row a sealed payload belongs to. -/
inductive AadContext where
  | secretVersion (secretId : Uuid) (version : Int)
  | grantPassthrough (grantId : Uuid)
  | requestContext (requestId : Uuid)
  deriving DecidableEq

def AadContext.derive : AadContext → Blob
  | secretVersion secretId version =>
    bytes ("keychute/v1/secret-version/" ++ uuidDisplay secretId ++ "/" ++ toString version)
  | grantPassthrough grantId => bytes ("keychute/v1/grant-passthrough/" ++ uuidDisplay grantId)
  | requestContext requestId => bytes ("keychute/v1/request-context/" ++ uuidDisplay requestId)

/-- The associated data names the row: two contexts with the same bytes are the same. -/
theorem AadContext.derive_injective : Function.Injective AadContext.derive := by
  -- the kinds already differ in the thirteenth character, right after the common stem
  have kinds : ∀ {s t : String}, bytes s = bytes t → s.toList[12]? = t.toList[12]? :=
    fun h => congrArg (fun u : String => u.toList[12]?) (bytes_inj.1 h)
  intro a b h
  cases a with
  | secretVersion u m =>
      cases b with
      | secretVersion v n =>
          have hs := bytes_inj.1 h
          rw [String.append_assoc, String.append_assoc, String.append_assoc, String.append_assoc,
            String.append_right_inj] at hs
          obtain ⟨huv, hmn⟩ := uuidDisplay_append_inj hs
          rw [String.append_right_inj] at hmn
          rw [huv, toString_inj hmn]
      | grantPassthrough _ => exact absurd (kinds h) (by simp [String.toList_append])
      | requestContext _ => exact absurd (kinds h) (by simp [String.toList_append])
  | grantPassthrough u =>
      cases b with
      | secretVersion _ _ => exact absurd (kinds h) (by simp [String.toList_append])
      | grantPassthrough v => rw [uuidDisplay_injective ((String.append_right_inj _).1 (bytes_inj.1 h))]
      | requestContext _ => exact absurd (kinds h) (by simp [String.toList_append])
  | requestContext u =>
      cases b with
      | secretVersion _ _ => exact absurd (kinds h) (by simp [String.toList_append])
      | grantPassthrough _ => exact absurd (kinds h) (by simp [String.toList_append])
      | requestContext v => rw [uuidDisplay_injective ((String.append_right_inj _).1 (bytes_inj.1 h))]

/-! ## The cipher -/

def KEY_LEN : Nat := 32
def NONCE_LEN : Nat := 24
def DEK_WRAP_AAD : Blob := bytes "keychute/v1/dek-wrap"

/-- A key of 32 bytes. -/
def KeyMaterial : Type := { b : Blob // b.length = KEY_LEN }

def XNonce : Type := { b : Blob // b.length = NONCE_LEN }

instance : DecidableEq KeyMaterial := inferInstanceAs (DecidableEq { b : Blob // b.length = KEY_LEN })
instance : DecidableEq XNonce := inferInstanceAs (DecidableEq { b : Blob // b.length = NONCE_LEN })

def KeyMaterial.fromSlice (b : Blob) : Option KeyMaterial := if h : b.length = KEY_LEN then some ⟨b, h⟩ else none

@[simp] theorem KeyMaterial.fromSlice_val (k : KeyMaterial) : KeyMaterial.fromSlice k.val = some k :=
  dif_pos k.property

/-- The cipher of the `chacha20poly1305` crate: key, nonce, associated data, message. -/
structure Aead where
  encrypt : KeyMaterial → XNonce → Blob → Blob → Option Blob
  decrypt : KeyMaterial → XNonce → Blob → Blob → Option Blob

/-- An ideal cipher: what it produces carries a tag, and decrypts under the same key, nonce and associated data to the
message, under any other to nothing. -/
structure Aead.Ideal (A : Aead) : Prop where
  total : ∀ k n a m, ∃ c, A.encrypt k n a m = some c
  tag : ∀ {k n a m c}, A.encrypt k n a m = some c → c ≠ []
  inverts : ∀ {k n a m c}, A.encrypt k n a m = some c → A.decrypt k n a c = some m
  rejects : ∀ {k n a m c}, A.encrypt k n a m = some c → ∀ k' n' a', (k', n', a') ≠ (k, n, a) →
    A.decrypt k' n' a' c = none

/-! ## The envelope -/

inductive CryptoError where
  | decryptFailed
  | unknownKek (kekId : String)
  deriving DecidableEq

/-- `.map_err(|_| CryptoError::DecryptFailed)?`. -/
def orFailed {α : Type} (x : Option α) : Except CryptoError α := x.elim (.error .decryptFailed) .ok

@[simp] theorem orFailed_some {α : Type} (x : α) : orFailed (some x) = .ok x := rfl
@[simp] theorem orFailed_none {α : Type} : orFailed (none : Option α) = .error .decryptFailed := rfl

section Envelope

variable (A : Aead)

/-- The wrapped blob: `wrap_nonce || wrap_ct`. -/
def wrapDek (kek : KeyMaterial) (wrapNonce : XNonce) (dek : KeyMaterial) : Except CryptoError Blob := do
  let wrapCt ← orFailed (A.encrypt kek wrapNonce DEK_WRAP_AAD dek.val)
  return wrapNonce.val ++ wrapCt

/-- Encrypt under a drawn DEK, and wrap the DEK. The DEK and the two nonces come from the OS. -/
def sealWithKek (dek : KeyMaterial) (payloadNonce wrapNonce : XNonce) (kek : KeyMaterial) (kekId : String)
    (plaintext : Blob) (aad : AadContext) : Except CryptoError Sealed := do
  let ciphertext ← orFailed (A.encrypt dek payloadNonce aad.derive plaintext)
  let wrappedDek ← wrapDek A kek wrapNonce dek
  return { ciphertext, nonce := payloadNonce.val, wrappedDek, kekId }

def unwrapDek (kek : KeyMaterial) (wrappedDek : Blob) : Except CryptoError KeyMaterial :=
  if h : NONCE_LEN < wrappedDek.length then do
    let wrapNonce : XNonce := ⟨wrappedDek.take NONCE_LEN, by simpa using Nat.le_of_lt h⟩
    let dekBytes ← orFailed (A.decrypt kek wrapNonce DEK_WRAP_AAD (wrappedDek.drop NONCE_LEN))
    orFailed (KeyMaterial.fromSlice dekBytes)
  else .error .decryptFailed

def openWithKek (kek : KeyMaterial) (ciphertext nonce wrappedDek : Blob) (aad : AadContext) :
    Except CryptoError Blob :=
  if h : nonce.length = NONCE_LEN then do
    let dek ← unwrapDek A kek wrappedDek
    orFailed (A.decrypt dek ⟨nonce, h⟩ aad.derive ciphertext)
  else .error .decryptFailed

/-- The keys of the file, without the MAC key. `from_file` checks the two facts it carries. -/
structure Keyset where
  active : String
  keys : String → Option KeyMaterial
  active_present : (keys active).isSome = true
  reserved : keys "ephemeral" = none

namespace Keyset

def kek (K : Keyset) (kekId : String) : Except CryptoError KeyMaterial :=
  (K.keys kekId).elim (.error (.unknownKek kekId)) .ok

/-- `Keyset::seal`. -/
def sealActive (K : Keyset) (dek : KeyMaterial) (payloadNonce wrapNonce : XNonce) (plaintext : Blob)
    (aad : AadContext) : Except CryptoError Sealed := do
  let kek ← K.kek K.active
  sealWithKek A dek payloadNonce wrapNonce kek K.active plaintext aad

/-- `Keyset::open`. -/
def openSealed (K : Keyset) (ciphertext nonce wrappedDek : Blob) (kekId : String) (aad : AadContext) :
    Except CryptoError Blob := do
  let kek ← K.kek kekId
  openWithKek A kek ciphertext nonce wrappedDek aad

def rewrap (K : Keyset) (wrapNonce : XNonce) (wrappedDek : Blob) (oldKekId : String) :
    Except CryptoError (Blob × String) := do
  let old ← K.kek oldKekId
  let active ← K.kek K.active
  let dek ← unwrapDek A old wrappedDek
  let blob ← wrapDek A active wrapNonce dek
  return (blob, K.active)

end Keyset

/-- A row rewrapped: the two columns `rewrap` returns are replaced. -/
def rewrapRow (K : Keyset) (wrapNonce : XNonce) (row : Sealed) : Except CryptoError Sealed := do
  let (wrappedDek, kekId) ← K.rewrap A wrapNonce row.wrappedDek row.kekId
  return { row with wrappedDek, kekId }

/-- A row rewrapped once under each keyset of a chain, each time with the nonce drawn for it. -/
def rewrapChain (chain : List (Keyset × XNonce)) (row : Sealed) : Except CryptoError Sealed :=
  chain.foldlM (fun row step => rewrapRow A step.1 step.2 row) row

/-! ## Wrapped keys -/

/-- A blob that holds `dek` wrapped under `kek`. -/
def Wraps (kek dek : KeyMaterial) (w : Blob) : Prop :=
  ∃ (n : XNonce) (c : Blob), A.encrypt kek n DEK_WRAP_AAD dek.val = some c ∧ w = n.val ++ c

variable {A}

theorem wrapDek_ok (hA : A.Ideal) (kek : KeyMaterial) (n : XNonce) (dek : KeyMaterial) :
    ∃ w, wrapDek A kek n dek = .ok w ∧ Wraps A kek dek w := by
  obtain ⟨c, hc⟩ := hA.total kek n DEK_WRAP_AAD dek.val
  refine ⟨n.val ++ c, ?_, n, c, hc, rfl⟩
  simp only [wrapDek, hc, orFailed_some]
  rfl

/-- What `unwrap_dek` does with a wrapped blob: the nonce and the ciphertext are split where they were joined. -/
theorem unwrapDek_append (hA : A.Ideal) {kek dek : KeyMaterial} {n : XNonce} {c : Blob}
    (hc : A.encrypt kek n DEK_WRAP_AAD dek.val = some c) (kek' : KeyMaterial) :
    unwrapDek A kek' (n.val ++ c) =
      (do let dekBytes ← orFailed (A.decrypt kek' n DEK_WRAP_AAD c); orFailed (KeyMaterial.fromSlice dekBytes)) := by
  have hlen : NONCE_LEN < (n.val ++ c).length := by
    have hpos := List.length_pos_iff.2 (hA.tag hc)
    rw [List.length_append, n.property]
    omega
  have htake : (n.val ++ c).take NONCE_LEN = n.val := List.take_left' n.property
  have hdrop : (n.val ++ c).drop NONCE_LEN = c := List.drop_left' n.property
  simp only [unwrapDek, dif_pos hlen, htake, hdrop]
  rfl

theorem unwrapDek_same (hA : A.Ideal) {kek dek : KeyMaterial} {w : Blob} (hw : Wraps A kek dek w) :
    unwrapDek A kek w = .ok dek := by
  obtain ⟨n, c, hc, rfl⟩ := hw
  rw [unwrapDek_append hA hc, hA.inverts hc]
  simp only [orFailed_some]
  exact congrArg orFailed (KeyMaterial.fromSlice_val dek)

theorem unwrapDek_other (hA : A.Ideal) {kek kek' dek : KeyMaterial} {w : Blob} (hw : Wraps A kek dek w)
    (hne : kek' ≠ kek) : unwrapDek A kek' w = .error .decryptFailed := by
  obtain ⟨n, c, hc, rfl⟩ := hw
  rw [unwrapDek_append hA hc, hA.rejects hc kek' n DEK_WRAP_AAD fun h => hne (congrArg Prod.fst h)]
  rfl

/-- A blob unwraps to the key it holds, if at all. -/
theorem unwrapDek_eq_ok (hA : A.Ideal) {kek kek' dek dek' : KeyMaterial} {w : Blob} (hw : Wraps A kek dek w)
    (h : unwrapDek A kek' w = .ok dek') : kek' = kek ∧ dek' = dek := by
  by_cases hk : kek' = kek
  · rw [hk, unwrapDek_same hA hw] at h
    exact ⟨hk, (Except.ok.inj h).symm⟩
  · rw [unwrapDek_other hA hw hk] at h
    cases h

/-! ## Sealing and rewrapping -/

/-- What a sealed row keeps through every rotation: the payload of its sealing, and its DEK under some key. -/
structure Carries (A : Aead) (dek : KeyMaterial) (row : Sealed) (kek : KeyMaterial) (s : Sealed) : Prop where
  ciphertext : row.ciphertext = s.ciphertext
  nonce : row.nonce = s.nonce
  wraps : Wraps A kek dek row.wrappedDek

theorem Keyset.kek_eq_ok {K : Keyset} {kekId : String} {k : KeyMaterial} :
    K.kek kekId = .ok k ↔ K.keys kekId = some k := by
  cases h : K.keys kekId <;> simp [Keyset.kek, h]

theorem Keyset.active_key (K : Keyset) : ∃ k, K.keys K.active = some k := Option.isSome_iff_exists.1 K.active_present

theorem sealActive_ok (hA : A.Ideal) (K : Keyset) (dek : KeyMaterial) (payloadNonce wrapNonce : XNonce)
    (plaintext : Blob) (a : AadContext) : ∃ s kek, K.sealActive A dek payloadNonce wrapNonce plaintext a = .ok s ∧
      K.keys K.active = some kek ∧ s.kekId = K.active ∧ Wraps A kek dek s.wrappedDek ∧
      s.nonce = payloadNonce.val ∧ A.encrypt dek payloadNonce a.derive plaintext = some s.ciphertext := by
  obtain ⟨kek, hk⟩ := K.active_key
  obtain ⟨c, hc⟩ := hA.total dek payloadNonce a.derive plaintext
  obtain ⟨w, hw, hwraps⟩ := wrapDek_ok hA kek wrapNonce dek
  refine ⟨⟨c, payloadNonce.val, w, K.active⟩, kek, ?_, hk, rfl, hwraps, rfl, hc⟩
  exact bind_eq_ok.2 ⟨kek, Keyset.kek_eq_ok.2 hk, bind_eq_ok.2 ⟨c, congrArg orFailed hc, bind_eq_ok.2 ⟨w, hw, rfl⟩⟩⟩

/-- A successful rewrap keeps the payload, and the DEK it found. -/
theorem rewrapRow_carries (hA : A.Ideal) {K : Keyset} {n : XNonce} {row row' s : Sealed} {kek dek : KeyMaterial}
    (h : rewrapRow A K n row = .ok row') (hc : Carries A dek row kek s) :
    ∃ kek', Carries A dek row' kek' s ∧ K.keys row'.kekId = some kek' := by
  simp only [rewrapRow, Keyset.rewrap, bind_eq_ok, Keyset.kek_eq_ok] at h
  obtain ⟨_, ⟨old, -, active, hactive, dek', hdek, w, hw, hr⟩, hrow⟩ := h
  cases hr; cases hrow
  obtain ⟨-, rfl⟩ := unwrapDek_eq_ok hA hc.wraps hdek
  obtain ⟨w', hw', hwraps⟩ := wrapDek_ok hA active n dek'
  rw [hw] at hw'
  cases hw'
  exact ⟨active, ⟨hc.ciphertext, hc.nonce, hwraps⟩, hactive⟩

theorem rewrapRow_ok (hA : A.Ideal) {K : Keyset} {row s : Sealed} {kek dek : KeyMaterial} (n : XNonce)
    (hc : Carries A dek row kek s) (hk : K.keys row.kekId = some kek) :
    ∃ row', rewrapRow A K n row = .ok row' ∧ row'.kekId = K.active := by
  obtain ⟨active, hactive⟩ := K.active_key
  obtain ⟨w, hw, -⟩ := wrapDek_ok hA active n dek
  refine ⟨{ row with wrappedDek := w, kekId := K.active }, ?_, rfl⟩
  have hrewrap : K.rewrap A n row.wrappedDek row.kekId = .ok (w, K.active) :=
    bind_eq_ok.2 ⟨kek, Keyset.kek_eq_ok.2 hk, bind_eq_ok.2 ⟨active, Keyset.kek_eq_ok.2 hactive,
      bind_eq_ok.2 ⟨dek, unwrapDek_same hA hc.wraps, bind_eq_ok.2 ⟨w, hw, rfl⟩⟩⟩⟩
  exact bind_eq_ok.2 ⟨_, hrewrap, rfl⟩

theorem rewrapChain_cons {K : Keyset} {n : XNonce} {chain : List (Keyset × XNonce)} {row r : Sealed} :
    rewrapChain A ((K, n) :: chain) row = .ok r ↔
      ∃ row', rewrapRow A K n row = .ok row' ∧ rewrapChain A chain row' = .ok r := by
  simp only [rewrapChain, List.foldlM_cons, bind_eq_ok]

/-- Whatever the keysets, a chain that succeeds keeps the payload and the DEK. -/
theorem rewrapChain_carries (hA : A.Ideal) {chain : List (Keyset × XNonce)} {row r s : Sealed}
    {kek dek : KeyMaterial} (h : rewrapChain A chain row = .ok r) (hc : Carries A dek row kek s) :
    ∃ kek', Carries A dek r kek' s := by
  induction chain generalizing row kek with
  | nil =>
      cases h
      exact ⟨kek, hc⟩
  | cons step chain ih =>
      obtain ⟨row', hrow, hrest⟩ := rewrapChain_cons.1 h
      obtain ⟨kek', hc', -⟩ := rewrapRow_carries hA hrow hc
      exact ih hrest hc'

/-- Each keyset still holds the key that its predecessor wrapped with. -/
def Chained : Keyset → List (Keyset × XNonce) → Prop
  | _, [] => True
  | K, (K', _) :: rest => K'.keys K.active = K.keys K.active ∧ Chained K' rest

/-- The keyset a chain ends with. -/
def lastKeyset : Keyset → List (Keyset × XNonce) → Keyset
  | K, [] => K
  | _, (K', _) :: rest => lastKeyset K' rest

/-- Along a chain of keysets every rewrap succeeds, and the last keyset holds the key of the row. -/
theorem rewrapChain_ok (hA : A.Ideal) {K : Keyset} {chain : List (Keyset × XNonce)} {row s : Sealed}
    {kek dek : KeyMaterial} (hch : Chained K chain) (hc : Carries A dek row kek s) (hk : K.keys row.kekId = some kek)
    (hid : row.kekId = K.active) : ∃ r kek', rewrapChain A chain row = .ok r ∧ Carries A dek r kek' s ∧
      (lastKeyset K chain).keys r.kekId = some kek' := by
  induction chain generalizing K row kek with
  | nil => exact ⟨row, kek, rfl, hc, hk⟩
  | cons step chain ih =>
      have hk' : step.1.keys row.kekId = some kek := by rw [hid, hch.1, ← hid, hk]
      obtain ⟨row', hrow, hid'⟩ := rewrapRow_ok hA step.2 hc hk'
      obtain ⟨kek', hc', hkek'⟩ := rewrapRow_carries hA hrow hc
      obtain ⟨r, kek'', hr, hcr, hkr⟩ := ih hch.2 hc' hkek' hid'
      exact ⟨r, kek'', rewrapChain_cons.2 ⟨row', hrow, hr⟩, hcr, hkr⟩

/-! ## Opening -/

/-- With the right key the payload is decrypted under the DEK that the blob holds. -/
theorem openWithKek_same (hA : A.Ideal) {kek dek : KeyMaterial} {n : XNonce} {c w : Blob} (hw : Wraps A kek dek w)
    (b : AadContext) : openWithKek A kek c n.val w b = orFailed (A.decrypt dek n b.derive c) := by
  simp only [openWithKek, dif_pos n.property, unwrapDek_same hA hw]
  rfl

/-- Under another key, or with a blob that holds another DEK, a payload does not open. -/
theorem openWithKek_fails (hA : A.Ideal) {kek kek' dek dek' : KeyMaterial} {n : XNonce} {aad m c w : Blob}
    (hc : A.encrypt dek n aad m = some c) (hw : Wraps A kek dek' w) (hne : kek' ≠ kek ∨ dek' ≠ dek) (b : AadContext) :
    openWithKek A kek' c n.val w b = .error .decryptFailed := by
  by_cases hk : kek' = kek
  · have hdek : dek' ≠ dek := hne.resolve_left fun h => h hk
    rw [hk, openWithKek_same hA hw, hA.rejects hc dek' n b.derive fun h => hdek (congrArg Prod.fst h)]
    rfl
  · simp only [openWithKek, dif_pos n.property, unwrapDek_other hA hw hk]
    rfl

theorem Keyset.openSealed_fails {K : Keyset} {c n w : Blob} {kekId : String} {b : AadContext}
    (h : ∀ kek, K.keys kekId = some kek → openWithKek A kek c n w b = .error .decryptFailed) :
    ∃ e, K.openSealed A c n w kekId b = .error e := by
  cases hk : K.keys kekId with
  | none => exact ⟨.unknownKek kekId, by simp only [Keyset.openSealed, Keyset.kek, hk]; rfl⟩
  | some kek =>
      refine ⟨.decryptFailed, ?_⟩
      simp only [Keyset.openSealed, Keyset.kek_eq_ok.2 hk]
      exact h kek hk

/-- A payload sealed under one keyset and rewrapped under each of a chain: every step succeeds, and opening the row under
the last keyset is decrypting the payload under its DEK. -/
theorem sealed_rewrapped (hA : A.Ideal) {K : Keyset} {chain : List (Keyset × XNonce)} (hch : Chained K chain)
    (dek : KeyMaterial) (payloadNonce wrapNonce : XNonce) (plaintext : Blob) (a : AadContext) :
    ∃ s row kek, K.sealActive A dek payloadNonce wrapNonce plaintext a = .ok s ∧ rewrapChain A chain s = .ok row ∧
      s.nonce = payloadNonce.val ∧ A.encrypt dek payloadNonce a.derive plaintext = some s.ciphertext ∧
      (∃ kek₀, Wraps A kek₀ dek s.wrappedDek) ∧ Carries A dek row kek s ∧
      (lastKeyset K chain).keys row.kekId = some kek ∧
      ∀ b, (lastKeyset K chain).openSealed A row.ciphertext row.nonce row.wrappedDek row.kekId b =
        orFailed (A.decrypt dek payloadNonce b.derive s.ciphertext) := by
  obtain ⟨s, kek₀, hs, hkek, hid, hw, hn, henc⟩ := sealActive_ok hA K dek payloadNonce wrapNonce plaintext a
  obtain ⟨row, kek, hrow, hcr, hkr⟩ := rewrapChain_ok hA hch ⟨rfl, rfl, hw⟩ (hid.symm ▸ hkek) hid
  refine ⟨s, row, kek, hs, hrow, hn, henc, ⟨kek₀, hw⟩, hcr, hkr, ?_⟩
  intro b
  rw [hcr.ciphertext, hcr.nonce, hn, ← openWithKek_same hA hcr.wraps b, Keyset.openSealed, Keyset.kek_eq_ok.2 hkr]
  rfl

/-- A payload sealed under one keyset and rewrapped under each of a chain opens under the last to its plaintext. It
does not open under another context, under another key id, or with the wrapped DEK of another sealing; and no rewrap on
the way changes its ciphertext or its nonce. -/
theorem envelope_binding (hA : A.Ideal) {K : Keyset} {chain : List (Keyset × XNonce)} (hch : Chained K chain)
    (dek : KeyMaterial) (payloadNonce wrapNonce : XNonce) (plaintext : Blob) (a : AadContext) :
    ∃ s row, K.sealActive A dek payloadNonce wrapNonce plaintext a = .ok s ∧ rewrapChain A chain s = .ok row ∧
      (lastKeyset K chain).openSealed A row.ciphertext row.nonce row.wrappedDek row.kekId a = .ok plaintext ∧
      (∀ b, b ≠ a → ∃ e, (lastKeyset K chain).openSealed A row.ciphertext row.nonce row.wrappedDek row.kekId b =
        .error e) ∧
      ((∀ i j k, (lastKeyset K chain).keys i = some k → (lastKeyset K chain).keys j = some k → i = j) →
        ∀ kekId, kekId ≠ row.kekId → ∀ b,
          ∃ e, (lastKeyset K chain).openSealed A row.ciphertext row.nonce row.wrappedDek kekId b = .error e) ∧
      (∀ (K' : Keyset) dek' payloadNonce' wrapNonce' plaintext' a' chain' s' row', dek' ≠ dek →
        K'.sealActive A dek' payloadNonce' wrapNonce' plaintext' a' = .ok s' → rewrapChain A chain' s' = .ok row' →
        ∀ (K'' : Keyset) kekId b,
          ∃ e, K''.openSealed A row.ciphertext row.nonce row'.wrappedDek kekId b = .error e) ∧
      ∀ passed mid, passed <+: chain → rewrapChain A passed s = .ok mid →
        mid.ciphertext = s.ciphertext ∧ mid.nonce = s.nonce := by
  obtain ⟨s, row, kek, hs, hrow, hn, henc, ⟨kek₀, hw⟩, hcr, hkr, hopen⟩ :=
    sealed_rewrapped hA hch dek payloadNonce wrapNonce plaintext a
  refine ⟨s, row, hs, hrow, ?_, ?_, ?_, ?_, ?_⟩
  · rw [hopen, hA.inverts henc]
    rfl
  · intro b hb
    have haad : (dek, payloadNonce, b.derive) ≠ (dek, payloadNonce, a.derive) :=
      fun h => hb (AadContext.derive_injective (congrArg (fun x => x.2.2) h))
    rw [hopen, hA.rejects henc dek payloadNonce b.derive haad]
    exact ⟨_, rfl⟩
  · intro hdistinct kekId hne b
    rw [hcr.ciphertext, hcr.nonce, hn]
    refine Keyset.openSealed_fails fun k hk => openWithKek_fails hA henc hcr.wraps (.inl ?_) b
    rintro rfl
    exact hne (hdistinct kekId row.kekId k hk hkr)
  · intro K' dek' payloadNonce' wrapNonce' plaintext' a' chain' s' row' hdek hs' hrow' K'' kekId b
    obtain ⟨s'', kek₁, hs'', -, -, hw', -⟩ := sealActive_ok hA K' dek' payloadNonce' wrapNonce' plaintext' a'
    rw [hs'] at hs''
    cases hs''
    obtain ⟨kek₂, hcr'⟩ := rewrapChain_carries hA hrow' (s := s') ⟨rfl, rfl, hw'⟩
    rw [hcr.ciphertext, hcr.nonce, hn]
    exact Keyset.openSealed_fails fun k _ => openWithKek_fails hA henc hcr'.wraps (.inr hdek) b
  · intro passed mid _ hmid
    obtain ⟨_, hcm⟩ := rewrapChain_carries hA hmid (s := s) ⟨rfl, rfl, hw⟩
    exact ⟨hcm.ciphertext, hcm.nonce⟩

end Envelope

/-! ## An ideal cipher -/

/-- What a ciphertext of `tagging` starts with: the key, the nonce and the associated data, each byte of the last
after a 1, and a 0. -/
def tagOf (k : KeyMaterial) (n : XNonce) (aad : Blob) : Blob := k.val ++ n.val ++ (aad.flatMap fun b => [1, b]) ++ [0]

/-- A cipher that writes its inputs in front of the message: no secrecy, and an exact tag. -/
def tagging : Aead where
  encrypt k n aad m := some (tagOf k n aad ++ m)
  decrypt k n aad c := if tagOf k n aad <+: c then some (c.drop (tagOf k n aad).length) else none

theorem marked_inj {a b s t : Blob} (h : (a.flatMap fun x => [1, x]) ++ 0 :: s = (b.flatMap fun x => [1, x]) ++ 0 :: t) :
    a = b := by
  induction a generalizing b with
  | nil =>
      cases b with
      | nil => rfl
      | cons y b => simp at h
  | cons x a ih =>
      cases b with
      | nil => simp at h
      | cons y b =>
          simp only [List.flatMap_cons, List.cons_append, List.nil_append, List.cons.injEq, true_and] at h
          rw [h.1, ih h.2]

theorem tagOf_inj {k k' : KeyMaterial} {n n' : XNonce} {a a' s t : Blob} (h : tagOf k' n' a' ++ t = tagOf k n a ++ s) :
    (k', n', a') = (k, n, a) := by
  simp only [tagOf, List.append_assoc, List.singleton_append] at h
  obtain ⟨hk, h⟩ := List.append_inj h (k'.property.trans k.property.symm)
  obtain ⟨hn, h⟩ := List.append_inj h (n'.property.trans n.property.symm)
  rw [Subtype.ext hk, Subtype.ext hn, marked_inj h]

theorem tagging_ideal : tagging.Ideal where
  total _ _ _ _ := ⟨_, rfl⟩
  tag := by
    intro k n a m c h
    cases h
    simp [tagOf]
  inverts := by
    intro k n a m c h
    cases h
    simp [tagging]
  rejects := by
    intro k n a m c h k' n' a' hne
    cases h
    refine if_neg fun hpre => ?_
    obtain ⟨t, ht⟩ := hpre
    exact hne (tagOf_inj ht)

def sampleKey (b : UInt8) : KeyMaterial := ⟨List.replicate KEY_LEN b, List.length_replicate⟩
def sampleNonce (b : UInt8) : XNonce := ⟨List.replicate NONCE_LEN b, List.length_replicate⟩

/-- A key file before a rotation, and the one after it, that still lists the old key. -/
def beforeRotation : Keyset where
  active := "k1"
  keys id := if id = "k1" then some (sampleKey 1) else none
  active_present := rfl
  reserved := rfl

def afterRotation : Keyset where
  active := "k2"
  keys id := if id = "k2" then some (sampleKey 2) else if id = "k1" then some (sampleKey 1) else none
  active_present := rfl
  reserved := rfl

theorem afterRotation_distinct : ∀ i j k, afterRotation.keys i = some k → afterRotation.keys j = some k → i = j := by
  intro i j k hi hj
  have hne : sampleKey 2 ≠ sampleKey 1 := by decide
  simp only [afterRotation] at hi hj
  grind

theorem envelope_binding_rotated : ∃ s row,
    beforeRotation.sealActive tagging (sampleKey 7) (sampleNonce 1) (sampleNonce 2) [104, 105] (.secretVersion 5 1) =
      .ok s ∧
    rewrapChain tagging [(afterRotation, sampleNonce 3)] s = .ok row ∧
    afterRotation.openSealed tagging row.ciphertext row.nonce row.wrappedDek row.kekId (.secretVersion 5 1) =
      .ok [104, 105] ∧
    (∃ e, afterRotation.openSealed tagging row.ciphertext row.nonce row.wrappedDek row.kekId (.secretVersion 5 (-1)) =
      .error e) ∧
    ∀ kekId, kekId ≠ row.kekId →
      ∃ e, afterRotation.openSealed tagging row.ciphertext row.nonce row.wrappedDek kekId (.secretVersion 5 1) =
        .error e := by
  have hch : Chained beforeRotation [(afterRotation, sampleNonce 3)] := ⟨rfl, trivial⟩
  obtain ⟨s, row, hs, hrow, hopen, hother, hkey, -⟩ :=
    envelope_binding tagging_ideal hch (sampleKey 7) (sampleNonce 1) (sampleNonce 2) [104, 105] (.secretVersion 5 1)
  exact ⟨s, row, hs, hrow, hopen, hother _ (by decide), fun kekId h => hkey afterRotation_distinct kekId h _⟩

/-! ## The keyset's MAC key -/

/-- HMAC-SHA256 under the MAC key of the keyset. -/
abbrev Hmac : Type := Blob → Blob

def csrfLabel : Blob := bytes "keychute/v1/csrf\x00"

def idemLabel : Blob := bytes "keychute/v1/idem-mac\x00"

def idemInput (client : String) (payloadCanonical : Blob) : Blob :=
  idemLabel ++ bytes client ++ 0 :: payloadCanonical

/-- `Keyset::idem_mac`. -/
def idemMac (hmac : Hmac) (client : String) (payloadCanonical : Blob) : Blob :=
  hmac (idemInput client payloadCanonical)

/-- `Keyset::csrf_mac`. -/
def csrfMac (hmac : Hmac) (payload : Blob) : Blob := hmac (csrfLabel ++ payload)

/-- The labels part company inside both. -/
theorem csrf_ne_idem (payload : Blob) (client : String) (payloadCanonical : Blob) :
    csrfLabel ++ payload ≠ idemInput client payloadCanonical := by
  intro h
  have htake := congrArg (List.take 13) h
  rw [idemInput, List.append_assoc, List.take_append_of_le_length (by decide +kernel),
    List.take_append_of_le_length (by decide +kernel)] at htake
  exact absurd htake (by decide +kernel)

end Keychute.Crypto
