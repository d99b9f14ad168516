/- LibTpa/Lib/MovingAverage
   digest: A moving average kept as a multiple of itself, with the division cut off. -/

import Mathlib.Data.Nat.Basic
import Mathlib.Tactic.Ring
import Mathlib.Tactic.Linarith

set_option autoImplicit false

namespace LibTpa.Lib.MovingAverage

/-- The sum `s` stands for the average `s / k`: one share goes out and the sample comes in. -/
def blend (k s x : Nat) : Nat := s - s / k + x

variable {k s x lo hi : Nat}

private theorem share_le : s / k ≤ s := Nat.div_le_self s k

theorem blend_int (k s x : Nat) : (blend k s x : Int) = s + (x - (s / k : Nat)) := by
  have := share_le (s := s) (k := k)
  unfold blend
  omega

theorem le_blend (hs : k * lo ≤ s) (hx : lo ≤ x) : k * lo ≤ blend k s x := by
  unfold blend
  cases k with
  | zero => omega
  | succ m =>
    have hq : lo ≤ s / (m + 1) := (Nat.le_div_iff_mul_le m.succ_pos).mpr (by linarith)
    have hdiv : (m + 1) * (s / (m + 1)) ≤ s := Nat.mul_div_le s (m + 1)
    have hrest : m * lo ≤ m * (s / (m + 1)) := Nat.mul_le_mul_left m hq
    rw [Nat.succ_mul] at hdiv ⊢
    omega

theorem blend_le (hk : 0 < k) (hs : s ≤ k * hi) (hx : x ≤ hi) : blend k s x ≤ k * hi := by
  unfold blend
  cases k with
  | zero => exact absurd hk (lt_irrefl 0)
  | succ m =>
    have hstay : s - m * hi ≤ s / (m + 1) := by
      rw [Nat.le_div_iff_mul_le m.succ_pos, Nat.sub_mul]
      have hprod : s * m ≤ (m + 1) * hi * m := Nat.mul_le_mul_right m hs
      have hcomm : m * hi * (m + 1) = (m + 1) * hi * m := by ring
      rw [hcomm, Nat.mul_succ]
      omega
    rw [Nat.succ_mul] at hs ⊢
    have := share_le (s := s) (k := m + 1)
    omega

theorem blend_between (hk : 0 < k) (hlo : k * lo ≤ s) (hhi : s ≤ k * hi) :
    k * min lo x ≤ blend k s x ∧ blend k s x ≤ k * max hi x :=
  ⟨le_blend (le_trans (Nat.mul_le_mul_left k (min_le_left lo x)) hlo) (min_le_right lo x),
    blend_le hk (le_trans hhi (Nat.mul_le_mul_left k (le_max_left hi x))) (le_max_right hi x)⟩

end LibTpa.Lib.MovingAverage
