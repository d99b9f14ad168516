/- LibTpa/Lib/SpanList
   digest: Lists of non-empty half-open spans, sorted and disjoint inside a bound. -/

import Mathlib.Data.List.Basic
import Mathlib.Data.List.TakeWhile
import Mathlib.Data.List.TakeDrop
import Mathlib.Algebra.Order.Sub.Basic

/-!
Spans are read off the elements of a list by two functions, an offset and a
length. `Spans off len lo l hi` says that the spans of `l` are non-empty, follow
one another without overlap, start at `lo` or later and end at `hi` or earlier.
-/

set_option autoImplicit false

namespace LibTpa.Lib.SpanList

variable {α : Type*} {off len : α → Nat}

def Spans (off len : α → Nat) : Nat → List α → Nat → Prop
  | lo, [], hi => lo ≤ hi
  | lo, a :: l, hi => lo ≤ off a ∧ 0 < len a ∧ Spans off len (off a + len a) l hi

@[simp] theorem spans_nil {lo hi : Nat} : Spans off len lo [] hi ↔ lo ≤ hi := Iff.rfl

@[simp] theorem spans_cons {lo hi : Nat} {a : α} {l : List α} :
    Spans off len lo (a :: l) hi ↔
      lo ≤ off a ∧ 0 < len a ∧ Spans off len (off a + len a) l hi := Iff.rfl

theorem Spans.le {lo hi : Nat} {l : List α} (h : Spans off len lo l hi) : lo ≤ hi := by
  induction l generalizing lo with
  | nil => exact h
  | cons a l ih =>
    have := ih h.2.2
    have := h.1
    omega

theorem Spans.mono_lo {lo lo' hi : Nat} {l : List α} (h : Spans off len lo l hi)
    (hlo : lo' ≤ lo) : Spans off len lo' l hi := by
  cases l with
  | nil => exact le_trans hlo h
  | cons a l => exact ⟨le_trans hlo h.1, h.2⟩

theorem Spans.raise {lo lo' hi : Nat} {l : List α} (h : Spans off len lo l hi)
    (hl : ∀ a ∈ l, lo' ≤ off a) (hhi : lo' ≤ hi) : Spans off len lo' l hi := by
  cases l with
  | nil => exact hhi
  | cons a l => exact ⟨hl a (List.mem_cons_self ..), h.2⟩

theorem Spans.mono_hi {lo hi hi' : Nat} {l : List α} (h : Spans off len lo l hi)
    (hhi : hi ≤ hi') : Spans off len lo l hi' := by
  induction l generalizing lo with
  | nil => exact le_trans h hhi
  | cons a l ih => exact ⟨h.1, h.2.1, ih h.2.2⟩

theorem spans_append {lo hi : Nat} {l₁ l₂ : List α} :
    Spans off len lo (l₁ ++ l₂) hi ↔
      ∃ m, Spans off len lo l₁ m ∧ Spans off len m l₂ hi := by
  induction l₁ generalizing lo with
  | nil =>
    constructor
    · intro h
      exact ⟨lo, le_rfl, h⟩
    · rintro ⟨m, hm, h⟩
      exact h.mono_lo hm
  | cons a l ih =>
    simp only [List.cons_append, spans_cons, ih]
    constructor
    · rintro ⟨h1, h2, m, h3, h4⟩
      exact ⟨m, ⟨h1, h2, h3⟩, h4⟩
    · rintro ⟨m, ⟨h1, h2, h3⟩, h4⟩
      exact ⟨h1, h2, m, h3, h4⟩

theorem Spans.append {lo m hi : Nat} {l₁ l₂ : List α} (h₁ : Spans off len lo l₁ m)
    (h₂ : Spans off len m l₂ hi) : Spans off len lo (l₁ ++ l₂) hi :=
  spans_append.mpr ⟨m, h₁, h₂⟩

theorem Spans.mem {lo hi : Nat} {l : List α} (h : Spans off len lo l hi) {a : α} (ha : a ∈ l) :
    lo ≤ off a ∧ 0 < len a ∧ off a + len a ≤ hi := by
  induction l generalizing lo with
  | nil => cases ha
  | cons b l ih =>
    rcases List.mem_cons.mp ha with rfl | hl
    · exact ⟨h.1, h.2.1, h.2.2.le⟩
    · have := ih h.2.2 hl
      have := h.1
      omega

theorem Spans.head_le {lo hi : Nat} {a : α} {l : List α} (h : Spans off len lo (a :: l) hi)
    {b : α} (hb : b ∈ a :: l) : off a ≤ off b := by
  rcases List.mem_cons.mp hb with rfl | hl
  · exact le_rfl
  · have := (h.2.2.mem hl).1
    omega

theorem Spans.sublist {lo hi : Nat} {l l' : List α} (h : Spans off len lo l hi)
    (hl : l'.Sublist l) : Spans off len lo l' hi := by
  induction hl generalizing lo with
  | slnil => exact h
  | cons a _ ih =>
    refine (ih h.2.2).mono_lo ?_
    have := h.1
    omega
  | cons_cons a _ ih => exact ⟨h.1, h.2.1, ih h.2.2⟩

theorem Spans.pairwise {lo hi : Nat} {l : List α} (h : Spans off len lo l hi) :
    l.Pairwise fun a b => off a + len a ≤ off b := by
  induction l generalizing lo with
  | nil => exact List.Pairwise.nil
  | cons a l ih => exact List.Pairwise.cons (fun b hb => (h.2.2.mem hb).1) (ih h.2.2)

theorem Spans.last {lo hi : Nat} {l : List α} {a : α} (h : Spans off len lo (l ++ [a]) hi) :
    Spans off len lo (l ++ [a]) (off a + len a) := by
  obtain ⟨m, h1, h2⟩ := spans_append.mp h
  exact h1.append ⟨h2.1, h2.2.1, le_rfl⟩

theorem Spans.front {lo hi : Nat} {l : List α} {a : α} (h : Spans off len lo (l ++ [a]) hi) :
    Spans off len lo l (off a) := by
  obtain ⟨m, h1, h2⟩ := spans_append.mp h
  exact h1.mono_hi h2.1

theorem Spans.shift {off' : α → Nat} {lo hi d : Nat} {l : List α}
    (h : Spans off len (lo + d) l (hi + d)) (ho : ∀ a ∈ l, off a = off' a + d) :
    Spans off' len lo l hi := by
  induction l generalizing lo with
  | nil => exact Nat.le_of_add_le_add_right h
  | cons a l ih =>
    have ha := ho a (List.mem_cons_self ..)
    refine ⟨by have := h.1; omega, h.2.1, ih ?_ fun b hb => ho b (List.mem_cons_of_mem _ hb)⟩
    have h3 := h.2.2
    rw [ha] at h3
    rwa [Nat.add_right_comm]

theorem Spans.move {off' : α → Nat} {lo hi lo' hi' : Nat} {l : List α} (h : Spans off len lo l hi)
    (ho : ∀ a ∈ l, off' a + lo = off a + lo') (hhi : hi + lo' ≤ hi' + lo) :
    Spans off' len lo' l hi' := by
  induction l generalizing lo lo' with
  | nil =>
    rw [spans_nil] at h ⊢
    omega
  | cons a l ih =>
    have ha := ho a (List.mem_cons_self ..)
    refine ⟨by have := h.1; omega, h.2.1, ih h.2.2 ?_ (by omega)⟩
    intro b hb
    have := ho b (List.mem_cons_of_mem _ hb)
    omega

theorem Spans.apart {lo hi : Nat} {l : List α} (h : Spans off len lo l hi) {a b : α}
    (ha : a ∈ l) (hb : b ∈ l) (hab : a ≠ b) :
    off a + len a ≤ off b ∨ off b + len b ≤ off a := by
  induction l generalizing lo with
  | nil => cases ha
  | cons c l ih =>
    rcases List.mem_cons.mp ha with rfl | hal
    · exact .inl (h.2.2.mem ((List.mem_cons.mp hb).resolve_left (Ne.symm hab))).1
    · rcases List.mem_cons.mp hb with rfl | hbl
      · exact .inr (h.2.2.mem hal).1
      · exact ih h.2.2 hal hbl

theorem Spans.split {lo hi x : Nat} {l : List α} {p : α → Bool} (h : Spans off len lo l hi)
    (hp : ∀ a ∈ l, p a = true ↔ off a ≤ x) :
    (∀ a ∈ l.takeWhile p, off a ≤ x) ∧ (∀ a ∈ l.dropWhile p, x < off a) := by
  constructor
  · intro a ha
    exact (hp a ((List.takeWhile_sublist p).mem ha)).mp (List.mem_takeWhile_imp ha)
  · induction l generalizing lo with
    | nil => simp
    | cons b l ih =>
      rw [List.dropWhile_cons]
      split
      · exact ih h.2.2 fun a ha => hp a (List.mem_cons_of_mem _ ha)
      · rename_i hb
        have hbx : x < off b := by
          have := hp b (List.mem_cons_self ..)
          by_contra hle
          exact hb (this.mpr (by omega))
        intro a ha
        rcases List.mem_cons.mp ha with rfl | hl
        · exact hbx
        · have := (h.2.2.mem hl).1
          omega

end LibTpa.Lib.SpanList
