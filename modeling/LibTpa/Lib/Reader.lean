/- LibTpa/Lib/Reader
   digest: A reader that may step back once, and how often it reads each position. -/

import Mathlib.Data.List.Basic
import Mathlib.Data.List.Count

set_option autoImplicit false

namespace LibTpa.Lib

structure Reader (α : Type*) where
  data : List α
  pos : Nat := 0
  log : List Nat := []

namespace Reader

variable {α : Type*} {r : Reader α} {a : α} {l : List α}

def rest (r : Reader α) : List α := r.data.drop r.pos

def advance (r : Reader α) : Reader α := { r with pos := r.pos + 1, log := r.log ++ [r.pos] }

def next (r : Reader α) : Option α × Reader α :=
  match r.data[r.pos]? with
  | some a => (some a, r.advance)
  | none => (none, r)

def back (r : Reader α) : Reader α := { r with pos := r.pos - 1 }

theorem next_nil (h : r.rest = []) : r.next = (none, r) := by
  have hlen : r.data.length ≤ r.pos := List.drop_eq_nil_iff.1 h
  simp [next, List.getElem?_eq_none hlen]

theorem next_cons (h : r.rest = a :: l) : r.next = (some a, r.advance) := by
  have hget : r.data[r.pos]? = some a := by
    rw [← List.head?_drop]
    simp only [rest] at h
    simp [h]
  simp [next, hget]

theorem rest_advance (h : r.rest = a :: l) : r.advance.rest = l := by
  simp only [rest, advance] at h ⊢
  rw [← List.drop_drop, h]
  rfl

/-- No position was read more than twice, and none from the next one on. -/
structure Fresh (r : Reader α) : Prop where
  twice : ∀ q, r.log.count q ≤ 2
  ahead : ∀ q, r.pos ≤ q → r.log.count q = 0

/-- No position was read more than twice, the next one at most once, and none behind it. -/
structure Settled (r : Reader α) : Prop where
  twice : ∀ q, r.log.count q ≤ 2
  here : r.log.count r.pos ≤ 1
  ahead : ∀ q, r.pos < q → r.log.count q = 0

theorem Fresh.settled (h : Fresh r) : Settled r where
  twice := h.twice
  here := by
    have := h.ahead r.pos (Nat.le_refl _)
    omega
  ahead := fun q hq => h.ahead q (Nat.le_of_lt hq)

private theorem count_advance (q : Nat) :
    r.advance.log.count q = r.log.count q + if r.pos = q then 1 else 0 := by
  simp [advance, List.count_append, List.count_singleton]

theorem Settled.advance (h : Settled r) : Fresh r.advance where
  twice := by
    intro q
    rw [count_advance]
    split
    · rename_i hq
      have := h.here
      rw [hq] at this
      omega
    · exact h.twice q
  ahead := by
    intro q hq
    have hlt : r.pos < q := hq
    rw [count_advance, if_neg (by omega), h.ahead q hlt]

theorem Fresh.advance_back (h : Fresh r) : Settled r.advance.back where
  twice := h.settled.advance.twice
  here := by
    show r.advance.log.count r.pos ≤ 1
    have := h.ahead r.pos (Nat.le_refl _)
    rw [count_advance, if_pos rfl]
    omega
  ahead := by
    intro q hq
    have hlt : r.pos < q := hq
    exact h.settled.advance.ahead q hlt

end Reader

end LibTpa.Lib
