import Mathlib.Data.List.Basic
import Mathlib.Algebra.Order.Ring.Int
import Mathlib.Tactic.Common

/-!
# Base64 in the URL alphabet, without padding

* `base64UrlEncode`, `base64UrlDecode` : the decoder refuses padding, a lone last character and nonzero bits past the
  last byte;
* `base64UrlDecode_eq_some` : so that one text stands for each list of bytes.
-/

namespace Keychute.Lib

def urlAlphabet : List Char := "ABCDEFGHIJKLMNOPQRSTUVWXYZabcdefghijklmnopqrstuvwxyz0123456789-_".toList

def urlChar (n : Nat) : Char := urlAlphabet.getD (n % 64) 'A'

def urlValue (ch : Char) : Option Nat := urlAlphabet.idxOf? ch

def base64UrlEncode : List UInt8 → List Char
  | [] => []
  | [x] => [urlChar (x.toNat / 4), urlChar (x.toNat * 16)]
  | [x, y] =>
    let n := x.toNat * 256 + y.toNat
    [urlChar (n / 1024), urlChar (n / 16), urlChar (n * 4)]
  | x :: y :: z :: rest =>
    let n := (x.toNat * 256 + y.toNat) * 256 + z.toNat
    urlChar (n / 262144) :: urlChar (n / 4096) :: urlChar (n / 64) :: urlChar n :: base64UrlEncode rest

def base64UrlDecode : List Char → Option (List UInt8)
  | [] => some []
  | [_] => none
  | [p, q] => do
    let n := (← urlValue p) * 64 + (← urlValue q)
    if n % 16 = 0 then some [UInt8.ofNat (n / 16)] else none
  | [p, q, r] => do
    let n := ((← urlValue p) * 64 + (← urlValue q)) * 64 + (← urlValue r)
    if n % 4 = 0 then some [UInt8.ofNat (n / 1024), UInt8.ofNat (n / 4)] else none
  | p :: q :: r :: s :: rest => do
    let n := (((← urlValue p) * 64 + (← urlValue q)) * 64 + (← urlValue r)) * 64 + (← urlValue s)
    let bs ← base64UrlDecode rest
    some (UInt8.ofNat (n / 65536) :: UInt8.ofNat (n / 256) :: UInt8.ofNat n :: bs)

theorem urlValue_urlChar (n : Nat) : urlValue (urlChar n) = some (n % 64) := by
  have key : ∀ i : Fin 64, urlValue (urlAlphabet.getD i 'A') = some i.val := by decide +kernel
  exact key ⟨n % 64, Nat.mod_lt _ (by decide)⟩

theorem urlChar_of_urlValue {ch : Char} {n : Nat} (h : urlValue ch = some n) : n < 64 ∧ urlChar n = ch := by
  obtain ⟨hn, hget, -⟩ := List.idxOf?_eq_some_iff.1 h
  have hlen : urlAlphabet.length = 64 := by decide +kernel
  rw [hlen] at hn
  refine ⟨hn, ?_⟩
  rw [urlChar, Nat.mod_eq_of_lt hn, List.getD_eq_getElem?_getD, List.getElem?_eq_getElem (by omega), hget]
  rfl

theorem base64UrlDecode_encode (bs : List UInt8) : base64UrlDecode (base64UrlEncode bs) = some bs := by
  have byte : ∀ {n : Nat} (x : UInt8), n % 256 = x.toNat → UInt8.ofNat n = x := by
    intro n x h
    apply UInt8.toNat_inj.1
    rw [UInt8.toNat_ofNat', h]
  fun_induction base64UrlEncode bs with
  | case1 => rfl
  | case2 x =>
      have hx := x.toNat_lt
      rw [base64UrlDecode]
      simp only [urlValue_urlChar, Option.bind_eq_bind, Option.bind_some]
      rw [if_pos (by omega), byte x (by omega)]
  | case3 x y n =>
      have hx := x.toNat_lt
      have hy := y.toNat_lt
      rw [base64UrlDecode]
      simp only [urlValue_urlChar, Option.bind_eq_bind, Option.bind_some]
      rw [if_pos (by omega), byte x (by omega), byte y (by omega)]
  | case4 x y z rest n ih =>
      have hx := x.toNat_lt
      have hy := y.toNat_lt
      have hz := z.toNat_lt
      rw [base64UrlDecode, ih]
      simp only [urlValue_urlChar, Option.bind_eq_bind, Option.bind_some]
      rw [byte x (by omega), byte y (by omega), byte z (by omega)]

theorem base64UrlEncode_of_decode {cs : List Char} {bs : List UInt8} (h : base64UrlDecode cs = some bs) :
    base64UrlEncode bs = cs := by
  have byte : ∀ n : Nat, (UInt8.ofNat n).toNat = n % 256 := fun n => UInt8.toNat_ofNat'
  -- the digits of the number decide the characters
  have char : ∀ {m n : Nat} {ch : Char}, urlValue ch = some n → m % 64 = n → urlChar m = ch := by
    intro m n ch hv hm
    obtain ⟨hn, rfl⟩ := urlChar_of_urlValue hv
    rw [urlChar, urlChar, hm, Nat.mod_eq_of_lt hn]
  induction cs using base64UrlDecode.induct generalizing bs with
  | case1 =>
      cases h
      rfl
  | case2 p => cases h
  | case3 p q =>
      simp only [base64UrlDecode, Option.bind_eq_bind, Option.bind_eq_some_iff] at h
      obtain ⟨vp, hp, vq, hq, h⟩ := h
      have hlp := (urlChar_of_urlValue hp).1
      have hlq := (urlChar_of_urlValue hq).1
      split at h
      · cases h
        rw [base64UrlEncode, byte, char hp (by omega), char hq (by omega)]
      · cases h
  | case4 p q r =>
      simp only [base64UrlDecode, Option.bind_eq_bind, Option.bind_eq_some_iff] at h
      obtain ⟨vp, hp, vq, hq, vr, hr, h⟩ := h
      have hlp := (urlChar_of_urlValue hp).1
      have hlq := (urlChar_of_urlValue hq).1
      have hlr := (urlChar_of_urlValue hr).1
      split at h
      · cases h
        simp only [base64UrlEncode, byte]
        rw [char hp (by omega), char hq (by omega), char hr (by omega)]
      · cases h
  | case5 p q r s rest ih =>
      simp only [base64UrlDecode, Option.bind_eq_bind, Option.bind_eq_some_iff] at h
      obtain ⟨vp, hp, vq, hq, vr, hr, vs, hs, rs, hrest, h⟩ := h
      have hlp := (urlChar_of_urlValue hp).1
      have hlq := (urlChar_of_urlValue hq).1
      have hlr := (urlChar_of_urlValue hr).1
      have hls := (urlChar_of_urlValue hs).1
      cases h
      simp only [base64UrlEncode, byte]
      rw [ih hrest, char hp (by omega), char hq (by omega), char hr (by omega), char hs (by omega)]

theorem base64UrlDecode_eq_some {cs : List Char} {bs : List UInt8} :
    base64UrlDecode cs = some bs ↔ base64UrlEncode bs = cs := by
  constructor
  · exact base64UrlEncode_of_decode
  · rintro rfl
    exact base64UrlDecode_encode bs

end Keychute.Lib
