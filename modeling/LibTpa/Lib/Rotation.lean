/- LibTpa/Lib/Rotation
   digest: A walk over the indices below a bound that starts anywhere and wraps around. -/

import Mathlib.Data.List.Nodup
import Mathlib.Data.Nat.ModEq

set_option autoImplicit false

namespace LibTpa.Lib.Rotation

def next (n i : Nat) : Nat := if i + 1 < n then i + 1 else 0

/-- The first `k` indices from `i` on. -/
def walk (n : Nat) : Nat → Nat → List Nat
  | 0, _ => []
  | k + 1, i => i :: walk n k (next n i)

variable {n : Nat}

theorem next_lt {i : Nat} (hi : i < n) : next n i < n := by
  unfold next
  split
  · assumption
  · omega

private theorem next_eq_mod {i : Nat} (hi : i < n) : next n i = (i + 1) % n := by
  unfold next
  split
  · next h => exact (Nat.mod_eq_of_lt h).symm
  · next h =>
    have hn : i + 1 = n := by omega
    rw [hn, Nat.mod_self]

theorem walk_length (k i : Nat) : (walk n k i).length = k := by
  induction k generalizing i with
  | zero => rfl
  | succ k ih =>
    rw [walk, List.length_cons, ih]

theorem walk_getElem {k i t : Nat} (hi : i < n) (ht : t < k) :
    (walk n k i)[t]? = some ((i + t) % n) := by
  induction k generalizing i t with
  | zero => omega
  | succ k ih =>
    rw [walk]
    cases t with
    | zero =>
      rw [List.getElem?_cons_zero, Nat.add_zero, Nat.mod_eq_of_lt hi]
    | succ t =>
      rw [List.getElem?_cons_succ, ih (next_lt hi) (by omega), next_eq_mod hi, Nat.mod_add_mod]
      congr 2
      omega

theorem walk_nodup {k i : Nat} (hi : i < n) (hk : k ≤ n) : (walk n k i).Nodup := by
  rw [List.nodup_iff_getElem?_ne_getElem?]
  intro a b hab hb
  rw [walk_length] at hb
  rw [walk_getElem hi (by omega), walk_getElem hi hb]
  intro heq
  have hmod : (i + a) % n = (i + b) % n := Option.some.inj heq
  have hcong : a ≡ b [MOD n] := Nat.ModEq.add_left_cancel' i hmod
  have := Nat.ModEq.eq_of_lt_of_lt hcong (by omega) (by omega)
  omega

theorem mem_walk_full {i j : Nat} (hi : i < n) (hj : j < n) : j ∈ walk n n i := by
  refine List.mem_of_getElem? (i := (j + n - i) % n) ?_
  rw [walk_getElem hi (Nat.mod_lt _ (by omega)), Nat.add_mod_mod]
  congr 1
  rw [show i + (j + n - i) = j + n by omega, Nat.add_mod_right, Nat.mod_eq_of_lt hj]

end LibTpa.Lib.Rotation
