import Mathlib.Algebra.Order.Ring.Nat
import Mathlib.Tactic.Ring

/-!
# Numbers as bytes, highest first
-/

namespace Lib.BigEndian

def bytes : ℕ → ℕ → List UInt8
  | 0, _ => []
  | k + 1, n => .ofNat (n / 256 ^ k) :: bytes k n

def value (b : List UInt8) : ℕ := b.foldl (fun n byte => n * 256 + byte.toNat) 0

@[simp] theorem length_bytes (k n : ℕ) : (bytes k n).length = k := by
  induction k with
  | zero => rfl
  | succ k ih => rw [bytes, List.length_cons, ih]

theorem foldl_bytes (k n m : ℕ) :
    (bytes k n).foldl (fun n byte => n * 256 + byte.toNat) m = m * 256 ^ k + n % 256 ^ k := by
  induction k generalizing m with
  | zero => simp [bytes, Nat.mod_one]
  | succ k ih =>
    have hbyte : (UInt8.ofNat (n / 256 ^ k)).toNat = n / 256 ^ k % 256 := by simp
    rw [bytes, List.foldl_cons, ih, hbyte, Nat.mod_pow_succ]
    ring

theorem value_bytes {k n : ℕ} (h : n < 256 ^ k) : value (bytes k n) = n := by
  rw [value, foldl_bytes, Nat.mod_eq_of_lt h]
  ring

@[simp] theorem value_singleton (b : UInt8) : value [b] = b.toNat := by
  simp [value]

def field (b : List UInt8) (offset size : ℕ) : ℕ := value ((b.drop offset).take size)

theorem field_here {a b : List UInt8} {size : ℕ} (ha : a.length = size) : field (a ++ b) 0 size = value a := by
  rw [field, List.drop_zero, ← ha, List.take_left]

theorem field_skip {a b : List UInt8} {skipped : ℕ} (ha : a.length = skipped) (offset size : ℕ) :
    field (a ++ b) (skipped + offset) size = field b offset size := by
  rw [field, field, ← List.drop_drop, ← ha, List.drop_left]

end Lib.BigEndian
