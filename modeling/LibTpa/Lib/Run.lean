/- LibTpa/Lib/Run
   digest: Runs of a guarded transition function, their invariants and their logs. -/

import Mathlib.Data.List.Basic
import Mathlib.Order.Basic

set_option autoImplicit false

namespace LibTpa.Lib.Run

variable {σ α : Type*}

/-- The states that `step` reaches from `s₀` by actions that `ok` admits. -/
inductive Reach (step : σ → α → σ) (ok : σ → α → Prop) (s₀ : σ) : σ → Prop
  | refl : Reach step ok s₀ s₀
  | step {s : σ} (a : α) : Reach step ok s₀ s → ok s a → Reach step ok s₀ (step s a)

/-- What holds at the start and survives every admitted action holds all along. -/
theorem Reach.invariant {step : σ → α → σ} {ok : σ → α → Prop} {s₀ s : σ} {I : σ → Prop}
    (h : Reach step ok s₀ s) (h₀ : I s₀) (hs : ∀ s a, I s → ok s a → I (step s a)) : I s := by
  induction h with
  | refl => exact h₀
  | step a _ hok ih => exact hs _ a ih hok

def exec (step : σ → α → σ) (s : σ) (l : List α) : σ := l.foldl step s

/-- Every action of the list is admitted where it is taken. -/
def Admitted (step : σ → α → σ) (ok : σ → α → Prop) : σ → List α → Prop
  | _, [] => True
  | s, a :: l => ok s a ∧ Admitted step ok (step s a) l

instance Admitted.decidable (step : σ → α → σ) (ok : σ → α → Prop) [∀ s a, Decidable (ok s a)] :
    (s : σ) → (l : List α) → Decidable (Admitted step ok s l)
  | _, [] => isTrue trivial
  | s, a :: l =>
    haveI := Admitted.decidable step ok (step s a) l
    inferInstanceAs (Decidable (ok s a ∧ Admitted step ok (step s a) l))

theorem Reach.exec {step : σ → α → σ} {ok : σ → α → Prop} {s₀ s : σ} {l : List α}
    (h : Reach step ok s₀ s) (hl : Admitted step ok s l) :
    Reach step ok s₀ (Run.exec step s l) := by
  induction l generalizing s with
  | nil => exact h
  | cons a l ih => exact ih (h.step a hl.1) hl.2

/-- Where an invariant holds two conditions are one, and either keeps it: runs meet both or none. -/
theorem admitted_iff {step : σ → α → σ} {dom good ok : σ → α → Prop} {I : σ → Prop}
    (hgood : ∀ s a, I s → dom s a → (good s a ↔ ok s a))
    (hstep : ∀ s a, I s → dom s a → ok s a → I (step s a)) {s : σ} {l : List α} (hs : I s)
    (hdom : Admitted step dom s l) :
    Admitted step good s l ↔ Admitted step ok s l := by
  induction l generalizing s with
  | nil => exact Iff.rfl
  | cons a l ih =>
    refine (and_congr_left' (hgood s a hs hdom.1)).trans (and_congr_right fun hok => ?_)
    exact ih (hstep s a hs hdom.1 hok) hdom.2

section Trace

variable {τ β : Type*}

def trace (step : σ → α → β × σ) : σ → List α → List β
  | _, [] => []
  | s, a :: l => (step s a).1 :: trace step (step s a).2 l

theorem trace_eq {step : σ → α → β × σ} {step' : τ → α → β × τ} {ok : σ → α → Prop}
    {R : σ → τ → Prop} (hstep : ∀ s t a, R s t → ok s a → (step s a).1 = (step' t a).1 ∧
    R (step s a).2 (step' t a).2)
    {s : σ} {t : τ} {l : List α} (h : R s t) (hl : Admitted (fun s a => (step s a).2) ok s l) :
    trace step s l = trace step' t l := by
  induction l generalizing s t with
  | nil => rfl
  | cons a l ih =>
    obtain ⟨hout, hrel⟩ := hstep s t a h hl.1
    rw [trace, trace, hout, ih hrel hl.2]

end Trace

section Log

variable {P : List α → α → Prop} {log : List α}

/-- Every entry obeys `P` with what was logged before it. -/
def Always (P : List α → α → Prop) (log : List α) : Prop :=
  ∀ before x after, log = before ++ x :: after → P before x

theorem Always.nil : Always P [] := by
  intro before x after h
  simp at h

theorem Always.snoc {x : α} (h : Always P log) (hx : P log x) : Always P (log ++ [x]) := by
  intro before y after heq
  rcases List.eq_nil_or_concat after with hnil | ⟨after', z, hz⟩
  · subst hnil
    obtain ⟨h1, h2⟩ := List.append_inj' heq rfl
    cases h2
    subst h1
    exact hx
  · subst hz
    rw [List.concat_eq_append, ← List.cons_append, ← List.append_assoc] at heq
    exact h before y after' (List.append_inj' heq rfl).1

end Log

end LibTpa.Lib.Run
