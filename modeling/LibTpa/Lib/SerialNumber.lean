/- LibTpa/Lib/SerialNumber
   digest: Serial-number comparison of wrapping counters, read back as distances. -/

import Mathlib.Data.BitVec
import Mathlib.Tactic.Abel

/-!
A wrapping counter of `w` bits lives on a circle of `2 ^ w` values. Comparisons
of such counters look at the sign of their difference. Everything below reads
that sign, and sums and differences, as statements about the forward distance
from a base counter, where ordinary arithmetic applies.
-/

set_option autoImplicit false

namespace LibTpa.Lib.SerialNumber

variable {w : Nat}

/-- Forward distance from `base` to `a` on the circle of counters. -/
def ahead (base a : BitVec w) : Nat := (a - base).toNat

theorem ahead_lt (base a : BitVec w) : ahead base a < 2 ^ w := (a - base).isLt

@[simp] theorem ahead_self (a : BitVec w) : ahead a a = 0 := by
  simp [ahead]

theorem add_ahead (base a : BitVec w) : base + BitVec.ofNat w (ahead base a) = a := by
  simp only [ahead, BitVec.ofNat_toNat, BitVec.setWidth_eq]
  abel

theorem ahead_add_ofNat (base : BitVec w) {n : Nat} (hn : n < 2 ^ w) :
    ahead base (base + BitVec.ofNat w n) = n := by
  have h : base + BitVec.ofNat w n - base = BitVec.ofNat w n := by abel
  rw [ahead, h, BitVec.toNat_ofNat, Nat.mod_eq_of_lt hn]

theorem ahead_inj {base a b : BitVec w} (h : ahead base a = ahead base b) : a = b := by
  rw [← add_ahead base a, h, add_ahead]

theorem ahead_eq_zero {base a : BitVec w} : ahead base a = 0 ↔ a = base := by
  constructor
  · intro h
    have := add_ahead base a
    rw [h] at this
    simpa using this.symm
  · rintro rfl
    exact ahead_self a

theorem ahead_trans {a b c : BitVec w} (h : ahead a b + ahead b c < 2 ^ w) :
    ahead a c = ahead a b + ahead b c := by
  have hc : a + BitVec.ofNat w (ahead a b + ahead b c) = c := by
    rw [BitVec.ofNat_add, ← add_assoc, add_ahead, add_ahead]
  conv_lhs => rw [← hc]
  exact ahead_add_ofNat a h

theorem ahead_add {base a : BitVec w} {n : Nat} (h : ahead base a + n < 2 ^ w) :
    ahead base (a + BitVec.ofNat w n) = ahead base a + n := by
  have hn : ahead a (a + BitVec.ofNat w n) = n := ahead_add_ofNat a (by omega)
  rw [ahead_trans (by rw [hn]; exact h), hn]

theorem ahead_advance {base a : BitVec w} {n : Nat} (h : n ≤ ahead base a) :
    ahead (base + BitVec.ofNat w n) a = ahead base a - n := by
  have hlt := ahead_lt base a
  have hn : ahead base (base + BitVec.ofNat w n) = n := ahead_add_ofNat base (by omega)
  have hm : a = base + BitVec.ofNat w n + BitVec.ofNat w (ahead base a - n) := by
    rw [add_assoc, ← BitVec.ofNat_add]
    have : n + (ahead base a - n) = ahead base a := by omega
    rw [this, add_ahead]
  conv_lhs => rw [hm]
  exact ahead_add_ofNat _ (by omega)

theorem toInt_neg_iff (x : BitVec (w + 1)) : x.toInt < 0 ↔ 2 ^ w ≤ x.toNat := by
  have hx := x.isLt
  rw [BitVec.toInt_eq_toNat_cond]
  split <;> omega

theorem toInt_pos_iff (x : BitVec (w + 1)) :
    0 < x.toInt ↔ 0 < x.toNat ∧ x.toNat < 2 ^ w := by
  have hx := x.isLt
  rw [BitVec.toInt_eq_toNat_cond]
  split <;> omega

theorem toInt_sub_of_ahead {base a b : BitVec (w + 1)}
    (ha : ahead base a < 2 ^ w) (hb : ahead base b < 2 ^ w) :
    (a - b).toInt = (ahead base a : Int) - ahead base b := by
  have hsub : a - b = BitVec.ofNat (w + 1) (ahead base a) -
      BitVec.ofNat (w + 1) (ahead base b) := by
    conv_lhs => rw [← add_ahead base a, ← add_ahead base b]
    abel
  have hpow : (2 : Nat) ^ (w + 1) = 2 * 2 ^ w := by rw [Nat.pow_succ, Nat.mul_comm]
  rw [hsub, BitVec.toInt_sub, BitVec.toInt_ofNat', BitVec.toInt_ofNat',
    Int.bmod_sub_bmod, Int.sub_bmod_bmod]
  apply Int.bmod_eq_of_le
  · rw [hpow]
    omega
  · rw [hpow]
    omega

end LibTpa.Lib.SerialNumber
