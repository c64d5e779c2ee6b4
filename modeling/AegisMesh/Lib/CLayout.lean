import Mathlib.Tactic.NormNum
import Mathlib.Tactic.Ring

/-!
# C structs in memory

Little-endian integers, and the natural layout of a struct. Nobody promises what the padding bytes hold.
-/

namespace Lib

/-! ## Little endian -/

def leBytes : ℕ → ℕ → List UInt8
  | 0, _ => []
  | w + 1, n => UInt8.ofNat n :: leBytes w (n / 256)

def leNat : List UInt8 → ℕ
  | [] => 0
  | b :: bs => b.toNat + 256 * leNat bs

@[simp] theorem length_leBytes (w n : ℕ) : (leBytes w n).length = w := by
  induction w generalizing n with
  | zero => rfl
  | succ w ih => simp [leBytes, ih]

theorem leNat_leBytes (w n : ℕ) : leNat (leBytes w n) = n % 256 ^ w := by
  induction w generalizing n with
  | zero => simp [leBytes, leNat, Nat.mod_one]
  | succ w ih =>
    have hbyte : (UInt8.ofNat n).toNat = n % 256 := by simp
    rw [leBytes, leNat, ih, hbyte, pow_succ', Nat.mod_mul]

theorem leNat_leBytes_of_lt {w n : ℕ} (h : n < 256 ^ w) : leNat (leBytes w n) = n := by
  rw [leNat_leBytes, Nat.mod_eq_of_lt h]

theorem leNat_lt (l : List UInt8) : leNat l < 256 ^ l.length := by
  induction l with
  | nil => simp [leNat]
  | cons b bs ih =>
    have hb := b.toNat_lt
    rw [leNat, List.length_cons, pow_succ]
    omega

theorem leNat_inj : ∀ {l l' : List UInt8}, l.length = l'.length → leNat l = leNat l' → l = l'
  | [], [], _, _ => rfl
  | b :: bs, b' :: bs', hlen, h => by
    simp only [List.length_cons, Nat.add_right_cancel_iff] at hlen
    simp only [leNat] at h
    have hb := b.toNat_lt
    have hb' := b'.toNat_lt
    have hbyte : b.toNat = b'.toNat := by omega
    have hrest : leNat bs = leNat bs' := by omega
    rw [UInt8.toNat_inj.mp hbyte, leNat_inj hlen hrest]

theorem or_high {lo w : ℕ} (h : lo < 2 ^ w) (hi : ℕ) : lo ||| hi * 2 ^ w = lo + hi * 2 ^ w := by
  rw [Nat.or_comm, ← Nat.shiftLeft_eq, ← Nat.shiftLeft_add_eq_or_of_lt h, Nat.add_comm]

/-! ## Structs -/

structure Member where
  align : ℕ
  bytes : List UInt8

def padLen (pos align : ℕ) : ℕ := (align - pos % align) % align

def padding (fill : ℕ → UInt8) (pos n : ℕ) : List UInt8 := (List.range n).map fun i => fill (pos + i)

def layOut (fill : ℕ → UInt8) : ℕ → List Member → List UInt8
  | _, [] => []
  | pos, m :: ms =>
    padding fill pos (padLen pos m.align) ++ (m.bytes ++
      layOut fill (pos + padLen pos m.align + m.bytes.length) ms)

def structBytes (fill : ℕ → UInt8) (members : List Member) : List UInt8 :=
  let body := layOut fill 0 members
  body ++ padding fill body.length (padLen body.length ((members.map Member.align).foldr max 1))

def bytesAt (l : List UInt8) (off n : ℕ) : List UInt8 := (l.drop off).take n

theorem bytesAt_append_left {x : List UInt8} (y : List UInt8) {off n : ℕ} (h : off + n ≤ x.length) :
    bytesAt (x ++ y) off n = bytesAt x off n := by
  rw [bytesAt, bytesAt, List.drop_append_of_le_length (by omega),
    List.take_append_of_le_length (by rw [List.length_drop]; omega)]

theorem bytesAt_append_right (x y : List UInt8) (off n : ℕ) :
    bytesAt (x ++ y) (x.length + off) n = bytesAt y off n := by
  rw [bytesAt, bytesAt, List.drop_append, List.drop_eq_nil_of_le (by omega), List.nil_append,
    Nat.add_sub_cancel_left]

end Lib
