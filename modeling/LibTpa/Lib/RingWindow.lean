/- LibTpa/Lib/RingWindow
   digest: Slots of a power-of-two ring addressed by wrapping counters. -/

import Mathlib.Data.BitVec
import Mathlib.Data.Nat.Bitwise
import Mathlib.Tactic.Abel
import LibTpa.Lib.SerialNumber

set_option autoImplicit false

namespace LibTpa.Lib.RingWindow

open LibTpa.Lib.SerialNumber

variable {w : Nat}

/-- The slot of counter `i` in a ring of `size` slots: `i & (size - 1)`. -/
def maskSlot (size : Nat) (i : BitVec w) : Nat := (i &&& (BitVec.ofNat w size - 1)).toNat

theorem maskSlot_two_pow {k : Nat} (hk : k < w) (i : BitVec w) :
    maskSlot (2 ^ k) i = i.toNat % 2 ^ k := by
  have hlt : 2 ^ k < 2 ^ w := Nat.pow_lt_pow_right (by decide) hk
  have hpos : 0 < 2 ^ k := Nat.two_pow_pos k
  have hm : (BitVec.ofNat w (2 ^ k) - 1).toNat = 2 ^ k - 1 := by
    rw [BitVec.toNat_sub, BitVec.toNat_ofNat, Nat.mod_eq_of_lt hlt]
    have h1 : (1 : BitVec w).toNat = 1 := BitVec.toNat_one (by omega)
    rw [h1, show 2 ^ w - 1 + 2 ^ k = 2 ^ w + (2 ^ k - 1) by omega, Nat.add_mod_left,
      Nat.mod_eq_of_lt (by omega)]
  rw [maskSlot, BitVec.toNat_and, hm, Nat.and_two_pow_sub_one_eq_mod]

theorem maskSlot_inj {k : Nat} (hk : k < w) {base i j : BitVec w} (hi : ahead base i < 2 ^ k)
    (hj : ahead base j < 2 ^ k) (h : maskSlot (2 ^ k) i = maskSlot (2 ^ k) j) : i = j := by
  rw [maskSlot_two_pow hk, maskSlot_two_pow hk] at h
  have hdvd : 2 ^ k ∣ 2 ^ w := Nat.pow_dvd_pow 2 hk.le
  have hmod : ∀ x : BitVec w, x.toNat % 2 ^ k = (base.toNat + ahead base x) % 2 ^ k := by
    intro x
    conv_lhs => rw [← add_ahead base x]
    rw [BitVec.toNat_add, BitVec.toNat_ofNat, Nat.mod_eq_of_lt (ahead_lt base x),
      Nat.mod_mod_of_dvd _ hdvd]
  rw [hmod i, hmod j] at h
  have hij : ahead base i % 2 ^ k = ahead base j % 2 ^ k := Nat.ModEq.add_left_cancel' base.toNat h
  rw [Nat.mod_eq_of_lt hi, Nat.mod_eq_of_lt hj] at hij
  exact ahead_inj hij

def Apart (w size : Nat) : Prop :=
  ∀ (a : BitVec w) {i j : Nat}, i < size → j < size → i ≠ j →
    maskSlot size (a + BitVec.ofNat w i) ≠ maskSlot size (a + BitVec.ofNat w j)

theorem apart_two_pow {k : Nat} (hk : k < w) : Apart w (2 ^ k) := by
  intro a i j hi hj hij he
  have hlt : 2 ^ k < 2 ^ w := Nat.pow_lt_pow_right (by decide) hk
  have hai : ahead a (a + BitVec.ofNat w i) = i := ahead_add_ofNat a (by omega)
  have haj : ahead a (a + BitVec.ofNat w j) = j := ahead_add_ofNat a (by omega)
  have heq := maskSlot_inj hk (by rw [hai]; exact hi) (by rw [haj]; exact hj) he
  exact hij (by rw [← hai, ← haj, heq])

section Window

variable {α : Type*} {cells : Nat → α} {size m n : Nat} {a : BitVec w}

/-- What `n` slots from counter `a` on hold. -/
def window (cells : Nat → α) (size : Nat) (a : BitVec w) (n : Nat) : List α :=
  (List.range n).map fun i => cells (maskSlot size (a + BitVec.ofNat w i))

def store (cells : Nat → α) (size : Nat) (a : BitVec w) : List α → Nat → α
  | [] => cells
  | x :: l => store (Function.update cells (maskSlot size a) x) size (a + 1) l

@[simp] theorem window_zero : window cells size a 0 = [] := rfl

@[simp] theorem window_length : (window cells size a n).length = n := by
  simp [window]

theorem window_add : window cells size a (m + n) =
    window cells size a m ++ window cells size (a + BitVec.ofNat w m) n := by
  unfold window
  rw [List.range_add, List.map_append, List.map_map]
  congr 1
  apply List.map_congr_left
  intro i _
  simp only [Function.comp_apply]
  rw [BitVec.ofNat_add, add_assoc]

theorem window_succ : window cells size a (n + 1) =
    window cells size a n ++ [cells (maskSlot size (a + BitVec.ofNat w n))] := by
  rw [window_add]
  simp [window]

theorem window_getElem? (i : Nat) : (window cells size a n)[i]? =
    if i < n then some (cells (maskSlot size (a + BitVec.ofNat w i))) else none := by
  unfold window
  rw [List.getElem?_map]
  split
  · rw [List.getElem?_range ‹_›]
    rfl
  · rw [List.getElem?_eq_none (by simpa using ‹¬ i < n›)]
    rfl

theorem window_take (h : m ≤ n) : (window cells size a n).take m = window cells size a m := by
  rw [← Nat.add_sub_cancel' h, window_add, List.take_left' window_length]

theorem window_drop (h : m ≤ n) :
    (window cells size a n).drop m = window cells size (a + BitVec.ofNat w m) (n - m) := by
  conv_lhs => rw [← Nat.add_sub_cancel' h, window_add, List.drop_left' window_length]

theorem window_update {j : Nat} {x : α} (h : ∀ i < n, maskSlot size (a + BitVec.ofNat w i) ≠ j) :
    window (Function.update cells j x) size a n = window cells size a n := by
  unfold window
  apply List.map_congr_left
  intro i hi
  exact Function.update_of_ne (h i (List.mem_range.mp hi)) ..

/-- Elements that fit in the ring behind a window lengthen the window. -/
theorem window_store (hap : Apart w size) (l : List α) (h : n + l.length ≤ size) :
    window (store cells size (a + BitVec.ofNat w n) l) size a (n + l.length) =
      window cells size a n ++ l := by
  induction l generalizing cells n with
  | nil => simp [store]
  | cons x l ih =>
    rw [List.length_cons] at h ⊢
    have hnext : a + BitVec.ofNat w n + 1 = a + BitVec.ofNat w (n + 1) := by
      rw [BitVec.ofNat_add, add_assoc]
      rfl
    rw [store, hnext, show n + (l.length + 1) = n + 1 + l.length by omega,
      ih (by omega), window_succ, Function.update_self, window_update, List.append_assoc,
        List.singleton_append]
    intro i hi
    exact hap a (by omega) (by omega) (by omega)

end Window

end LibTpa.Lib.RingWindow
