/- LibTpa/Lib/Rounds
   digest: Rules for computations that take a number of rounds and may have too few. -/

import Mathlib.Data.Option.Basic

set_option autoImplicit false

namespace LibTpa.Lib.Rounds

variable {α β : Type*} {G G' : Prop} {Q Q' : α → Prop} {R : β → Prop} {o : Option α} {a : α}

/-- What comes out satisfies `Q`, and where `G` holds the rounds are enough. -/
structure Returns (G : Prop) (Q : α → Prop) (o : Option α) : Prop where
  post : ∀ a, o = some a → Q a
  total : G → o.isSome = true

namespace Returns

theorem pure (h : Q a) : Returns G Q (some a) where
  post := by
    rintro b ⟨⟩
    exact h
  total := fun _ => rfl

theorem short (h : ¬ G) : Returns G Q none where
  post := by
    rintro b ⟨⟩
  total := fun hg => absurd hg h

theorem value (h : Returns G Q (some a)) : Q a := h.post a rfl

theorem not_enough (h : Returns G Q none) : ¬ G := fun hg => Bool.false_ne_true (h.total hg)

theorem imp (h : Returns G Q o) (hg : G' → G) (hq : ∀ a, Q a → Q' a) : Returns G' Q' o :=
  ⟨fun a ha => hq a (h.post a ha), fun hg' => h.total (hg hg')⟩

theorem map (h : Returns G Q o) {f : α → β} (hq : ∀ a, Q a → R (f a)) : Returns G R (o.map f) := by
  cases o with
  | none => exact .short h.not_enough
  | some a => exact .pure (hq a h.value)

theorem bind (h : Returns G Q o) {f : α → Option β} (hg : G' → G)
    (hf : ∀ a, Q a → Returns G' R (f a)) : Returns G' R (o.bind f) := by
  cases o with
  | none => exact .short fun hg' => h.not_enough (hg hg')
  | some a => exact hf a h.value

end Returns

end LibTpa.Lib.Rounds
