/- LibTpa/Lib/Stream
   digest: The segments of a stream, and the blocks its tail is cut into. -/

import Mathlib.Data.List.TakeDrop
import Mathlib.Data.List.Infix

set_option autoImplicit false

namespace LibTpa.Lib.Stream

variable {α : Type*}

/-- A property of segments, each given by its position in a stream and its
content, which every front and every back of a segment inherits. -/
structure SegPred (α : Type*) where
  holds : Nat → List α → Prop
  drop : ∀ {k : Nat} {bs : List α} (n : Nat), holds k bs → holds (k + n) (bs.drop n)
  take : ∀ {k : Nat} {bs : List α} (n : Nat), holds k bs → holds k (bs.take n)

def SegPred.any : SegPred α where
  holds := fun _ _ => True
  drop := fun _ _ => trivial
  take := fun _ _ => trivial

def SegPred.of (w : List α) : SegPred α where
  holds := fun k bs => bs <+: w.drop k
  drop := by
    intro k bs n h
    rw [← List.drop_drop]
    exact h.drop n
  take := fun n h => (List.take_prefix n _).trans h

instance [DecidableEq α] (w bs : List α) (k : Nat) : Decidable ((SegPred.of w).holds k bs) :=
  inferInstanceAs (Decidable (bs <+: w.drop k))

/-- A stream that was put together from such segments, one behind the other. -/
inductive SegPred.Builds (C : SegPred α) : List α → Prop
  | nil : C.Builds []
  | snoc {bs seg : List α} : C.Builds bs → C.holds bs.length seg → C.Builds (bs ++ seg)

theorem SegPred.Builds.front {w bs : List α} (h : (SegPred.of w).Builds bs) : bs <+: w := by
  induction h with
  | nil => exact List.nil_prefix
  | @snoc bs seg _ hseg ih =>
    obtain ⟨rest, rfl⟩ := ih
    have hrest : seg <+: (bs ++ rest).drop bs.length := hseg
    rw [List.drop_left] at hrest
    exact (List.prefix_append_right_inj bs).mpr hrest

section Blocks

variable {o i : Nat} {bs : List (List α)} {b : List α}

def blockStart (o : Nat) (bs : List (List α)) (i : Nat) : Nat := o + (bs.take i).flatten.length

@[simp] theorem blockStart_zero (o : Nat) (bs : List (List α)) : blockStart o bs 0 = o := by
  simp [blockStart]

theorem blockStart_succ (h : bs[i]? = some b) :
    blockStart o bs (i + 1) = blockStart o bs i + b.length := by
  have hb := (List.take_add_one (l := bs) (i := i)).symm
  unfold blockStart
  rw [← hb, h]
  simp [Nat.add_assoc]

theorem blockStart_of_length_le (h : bs.length ≤ i) :
    blockStart o bs i = o + bs.flatten.length := by
  rw [blockStart, List.take_of_length_le h]

theorem blockStart_mono (o : Nat) (bs : List (List α)) {j : Nat} (h : i ≤ j) :
    blockStart o bs i ≤ blockStart o bs j := by
  obtain ⟨n, rfl⟩ := Nat.exists_eq_add_of_le h
  unfold blockStart
  rw [List.take_add, List.flatten_append, List.length_append]
  omega

end Blocks

end LibTpa.Lib.Stream
