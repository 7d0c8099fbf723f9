import Mathlib.Data.BitVec
import Mathlib.Data.Nat.Notation

/-!
Clocks of a fixed width: a reading is the time modulo the range, and a deadline is looked at by the sign of a
wrapped difference. That is exact as long as two readings are never half the range apart.
-/

namespace Wrapping

structure Clock (w : ℕ) where
  start : BitVec (w + 1)
  gap : ℕ → BitVec (w + 1)
  gap_lt : ∀ k, (gap k).toNat < 2 ^ w

namespace Clock

variable {w : ℕ} (c : Clock w)

def reading : ℕ → BitVec (w + 1)
  | 0 => c.start
  | k + 1 => reading k + c.gap k

def elapsed : ℕ → ℕ
  | 0 => 0
  | k + 1 => elapsed k + (c.gap k).toNat

def Late (d k : ℕ) : Prop := (c.reading k - (c.start + BitVec.ofNat (w + 1) d)).toNat < 2 ^ w

instance (d k : ℕ) : Decidable (c.Late d k) := inferInstanceAs (Decidable (_ < _))

variable {c} {d k : ℕ}

theorem reading_eq (c : Clock w) (k : ℕ) : c.reading k = c.start + BitVec.ofNat (w + 1) (c.elapsed k) := by
  induction k with
  | zero => simp [reading, elapsed]
  | succ k ih => rw [reading, elapsed, ih, BitVec.ofNat_add, BitVec.add_assoc, BitVec.ofNat_toNat, BitVec.setWidth_eq]

theorem late_iff (hd : d ≤ 2 ^ w) (h : c.elapsed k < d + 2 ^ w) : c.Late d k ↔ d ≤ c.elapsed k := by
  have hrange : 2 ^ (w + 1) = 2 * 2 ^ w := by rw [Nat.pow_succ, Nat.mul_comm]
  have hpos : 0 < 2 ^ w := Nat.two_pow_pos w
  rw [Late, reading_eq, add_sub_add_left_eq_sub, BitVec.toNat_sub, BitVec.toNat_ofNat, BitVec.toNat_ofNat, hrange,
    Nat.mod_eq_of_lt (show d < 2 * 2 ^ w by omega), Nat.mod_eq_of_lt (show c.elapsed k < 2 * 2 ^ w by omega)]
  by_cases hle : d ≤ c.elapsed k
  · have hwrap : 2 * 2 ^ w - d + c.elapsed k = 2 * 2 ^ w + (c.elapsed k - d) := by omega
    rw [hwrap, Nat.add_mod_left, Nat.mod_eq_of_lt (by omega)]
    omega
  · rw [Nat.mod_eq_of_lt (by omega)]
    omega

theorem elapsed_succ_lt (h : c.elapsed k < d) : c.elapsed (k + 1) < d + 2 ^ w := by
  have := c.gap_lt k
  rw [elapsed]
  omega

theorem late_iff_of_early (hd : 0 < d) (hdw : d ≤ 2 ^ w) (h : ∀ j, j < k → c.elapsed j < d) :
    c.Late d k ↔ d ≤ c.elapsed k := by
  apply late_iff hdw
  cases k with
  | zero =>
    rw [elapsed]
    omega
  | succ k => exact elapsed_succ_lt (h k (Nat.lt_succ_self k))

end Clock

end Wrapping
