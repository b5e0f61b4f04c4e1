import Mathlib.Data.List.Induction
import Mathlib.Algebra.Order.Ring.Int
import Mathlib.Tactic.Common
import Mathlib.Tactic.Ring

/-!
# Numbers as bytes, the most significant first

* `beBytes w n` : the low `w` bytes of `n`;
* `ofBeBytes` : the number that bytes spell;
* `ofBeBytes_beBytes`, `beBytes_ofBeBytes` : each inverts the other, up to the width.
-/

namespace Keychute.Lib

def beBytes : Nat → Nat → List UInt8
  | 0, _ => []
  | w + 1, n => beBytes w (n / 256) ++ [UInt8.ofNat n]

def ofBeBytes (bs : List UInt8) : Nat := bs.foldl (fun n b => 256 * n + b.toNat) 0

@[simp] theorem length_beBytes (w n : Nat) : (beBytes w n).length = w := by
  induction w generalizing n with
  | zero => rfl
  | succ w ih => simp [beBytes, ih]

theorem ofBeBytes_concat (bs : List UInt8) (b : UInt8) : ofBeBytes (bs ++ [b]) = 256 * ofBeBytes bs + b.toNat := by
  simp [ofBeBytes]

theorem ofBeBytes_beBytes (w n : Nat) : ofBeBytes (beBytes w n) = n % 256 ^ w := by
  induction w generalizing n with
  | zero => simp [beBytes, ofBeBytes, Nat.mod_one]
  | succ w ih =>
      have hbyte : (UInt8.ofNat n).toNat = n % 256 := by simp
      rw [beBytes, ofBeBytes_concat, ih, hbyte, pow_succ, mul_comm (256 ^ w), Nat.mod_mul, add_comm]

theorem ofBeBytes_lt (bs : List UInt8) : ofBeBytes bs < 256 ^ bs.length := by
  induction bs using List.reverseRecOn with
  | nil => simp [ofBeBytes]
  | append_singleton bs b ih =>
      have hb := b.toNat_lt
      rw [ofBeBytes_concat, List.length_append, List.length_singleton, pow_succ]
      omega

theorem beBytes_ofBeBytes (bs : List UInt8) : beBytes bs.length (ofBeBytes bs) = bs := by
  induction bs using List.reverseRecOn with
  | nil => rfl
  | append_singleton bs b ih =>
      have hb := b.toNat_lt
      have hdiv : ofBeBytes (bs ++ [b]) / 256 = ofBeBytes bs := by
        rw [ofBeBytes_concat]
        omega
      have hbyte : UInt8.ofNat (ofBeBytes (bs ++ [b])) = b := by
        apply UInt8.toNat_inj.1
        rw [ofBeBytes_concat, UInt8.toNat_ofNat']
        omega
      rw [List.length_append, List.length_singleton, beBytes, hdiv, ih, hbyte]

end Keychute.Lib
