/- LibTpa/Lib/SpanScan
   digest: Scans over consecutive spans that share one cursor. -/

import Mathlib.Order.Basic

/-!
The spans `[S j, E j)`, `j < N`, follow one another without a gap. A scan for an
interval that ends at `Q` begins at span `f` and halts at the first one that ends at
`Q` or later, or at the bound `n` or later. The next scan begins behind the span at
which this one halted.
-/

set_option autoImplicit false

namespace LibTpa.Lib.SpanScan

structure Row (S E : Nat → Nat) (N : Nat) : Prop where
  pos : ∀ j, j < N → S j < E j
  next : ∀ j, j + 1 < N → S (j + 1) = E j

variable {S E : Nat → Nat} {N n : Nat}

theorem Row.mono (h : Row S E N) {i j : Nat} (hij : i ≤ j) (hj : j < N) : E i ≤ E j := by
  obtain ⟨k, rfl⟩ := Nat.exists_eq_add_of_le hij
  induction k with
  | zero => exact Nat.le_refl _
  | succ k ih =>
    have h1 := ih (by omega) (by omega)
    have h2 := h.next (i + k) hj
    have h3 := h.pos (i + k + 1) hj
    rw [Nat.add_assoc] at h2 h3
    omega

theorem Row.lt_of_lt (h : Row S E N) {i j : Nat} (hij : i < j) (hj : j < N) : E i ≤ S j := by
  cases j with
  | zero => omega
  | succ j =>
    rw [h.next j hj]
    exact h.mono (by omega) (by omega)

/-- A scan for an interval that ends at `Q`, from span `f` to the span `k` where it
halted. -/
structure Scan (E : Nat → Nat) (N n Q f k : Nat) : Prop where
  lo : f ≤ k
  pass : ∀ j, f ≤ j → j < k → j < N ∧ E j < n ∧ E j < Q
  halt : k < N → n ≤ E k ∨ Q ≤ E k

theorem Scan.passes {Q f k d : Nat} (h : Row S E N) (hs : Scan E N n Q f k) (hd : d < N)
    (hn : E d < n) (hq : E d < Q) : d < k := by
  by_contra hk
  have := h.mono (Nat.not_lt.mp hk) hd
  rcases hs.halt (by omega) with h1 | h1 <;> omega

theorem Scan.halts_before {Q k d : Nat} (h : Row S E N) (hs : Scan E N n Q 0 k) (hd : d < N)
    (h0 : S 0 < Q) (hq : Q ≤ S d) : k < d := by
  by_contra hk
  cases d with
  | zero => omega
  | succ d =>
    have := (hs.pass d (Nat.zero_le _) (by omega)).2.2
    rw [h.next d hd] at hq
    omega

/-- A scan halts right in front of a span exactly when the interval ends inside the span in
front of that one. -/
theorem Scan.halts_at {Q k d : Nat} (h : Row S E N) (hs : Scan E N n Q 0 k) (hd : d + 1 < N)
    (hn : E (d + 1) < n) (h0 : S 0 < Q) (hq : Q ≤ S (d + 1)) : k = d ↔ S d < Q := by
  have hlt := hs.halts_before h hd h0 hq
  constructor
  · rintro rfl
    cases k with
    | zero => exact h0
    | succ k =>
      rw [h.next k (by omega)]
      exact (hs.pass k (Nat.zero_le _) (by omega)).2.2
  · intro hlo
    by_contra hne
    have hk : k < d := by omega
    have h1 := h.lt_of_lt hk (by omega)
    have h2 := h.pos d (by omega)
    have h3 := h.mono (show d ≤ d + 1 by omega) hd
    rcases hs.halt (by omega) with h4 | h4 <;> omega

theorem Scan.second_reaches {Q f k d : Nat} (h : Row S E N) (hs : Scan E N n Q f k) (hd : d < N)
    (hf : f ≤ d) (hq : Q ≤ S d) : d ≤ k ↔ d = f := by
  constructor
  · intro hk
    by_contra hne
    cases d with
    | zero => omega
    | succ d =>
      have := (hs.pass d (by omega) (by omega)).2.2
      rw [h.next d hd] at hq
      omega
  · rintro rfl
    exact hs.lo

/-- Scans for a list of intervals `(P, Q)`, one behind the other. `M j` says that some
scan passed span `j` and its interval had begun there. -/
inductive Scans (S E : Nat → Nat) (N n : Nat) : List (Nat × Nat) → Nat → (Nat → Prop) → Prop
  | nil (f : Nat) : Scans S E N n [] f fun _ => False
  | cons {I : Nat × Nat} {l : List (Nat × Nat)} {f k : Nat} {M : Nat → Prop}
      (hs : Scan E N n I.2 f k) (hl : Scans S E N n l (k + 1) M) :
      Scans S E N n (I :: l) f fun j => (f ≤ j ∧ j < k ∧ I.1 ≤ S j) ∨ M j

theorem Scans.sound {l : List (Nat × Nat)} {f : Nat} {M : Nat → Prop} (h : Scans S E N n l f M)
    {j : Nat} (hj : M j) : j < N ∧ E j < n ∧ ∃ I ∈ l, I.1 ≤ S j ∧ E j < I.2 := by
  induction h with
  | nil => exact hj.elim
  | cons hs hl ih =>
    rcases hj with ⟨h1, h2, h3⟩ | hj
    · obtain ⟨ha, hb, hc⟩ := hs.pass j h1 h2
      exact ⟨ha, hb, _, List.mem_cons_self .., h3, hc⟩
    · obtain ⟨ha, hb, I, hI, hc⟩ := ih hj
      exact ⟨ha, hb, I, List.mem_cons_of_mem _ hI, hc⟩

def EndsBefore (S : Nat → Nat) (d : Nat) (I : Nat × Nat) : Prop :=
  ∃ i, d = i + 1 ∧ I.1 < S d ∧ S i < I.2 ∧ I.2 ≤ S d

/-- Two intervals end inside the span in front of span `d`. -/
def Crowded (S : Nat → Nat) (l : List (Nat × Nat)) (d : Nat) : Prop :=
  ∃ a ∈ l, ∃ b ∈ l, a ≠ b ∧ EndsBefore S d a ∧ EndsBefore S d b

section Passed

variable {d f k : Nat} {I J : Nat × Nat}

private theorem Scan.own (hr : Row S E N) (hs : Scan E N n I.2 f k) (hd : d < N) (hn : E d < n)
    (hc : I.1 ≤ S d ∧ E d ≤ I.2) (hf : f ≤ d) : (f ≤ d ∧ d < k ∧ I.1 ≤ S d) ↔ E d ≠ I.2 := by
  constructor
  · rintro ⟨h1, h2, -⟩
    have := (hs.pass d h1 h2).2.2
    omega
  · intro hne
    exact ⟨hf, hs.passes hr hd hn (by omega), hc.1⟩

private theorem Scan.not_front (hs : Scan E N n J.2 f k) (hc : I.1 ≤ S d ∧ E d ≤ I.2)
    (hpos : S d < E d) (hJ : J.2 ≤ I.1) : ¬ (f ≤ d ∧ d < k ∧ J.1 ≤ S d) := by
  rintro ⟨h1, h2, -⟩
  have := (hs.pass d h1 h2).2.2
  omega

private theorem not_behind (hc : I.1 ≤ S d ∧ E d ≤ I.2) (hpos : S d < E d) (hJ : I.2 ≤ J.1) :
    ¬ (f ≤ d ∧ d < k ∧ J.1 ≤ S d) := by
  rintro ⟨-, -, h3⟩
  omega

private theorem EndsBefore.not_behind (h : EndsBefore S d J) (hc : I.1 ≤ S d ∧ E d ≤ I.2)
    (hpos : S d < E d) : ¬ I.2 ≤ J.1 := by
  obtain ⟨i, -, h1, -, -⟩ := h
  omega

private theorem EndsBefore.ne (h : EndsBefore S d J) (hc : I.1 ≤ S d ∧ E d ≤ I.2)
    (hpos : S d < E d) : J ≠ I := by
  rintro rfl
  obtain ⟨i, -, -, -, h3⟩ := h
  omega

private theorem third_reaches {x y : Nat × Nat} {k₀ k₁ : Nat} (hr : Row S E N)
    (hx : Scan E N n x.2 0 k₀) (hy : Scan E N n y.2 (k₀ + 1) k₁) (h0 : S 0 < x.2)
    (hyd : y.2 ≤ S d) (hxd : x.2 ≤ S d) (hd : d < N) (hn : E d < n) :
    k₁ + 1 ≤ d ↔ ¬ ∃ i, d = i + 1 ∧ S i < x.2 := by
  have hlt := hx.halts_before hr hd h0 hxd
  have hreach := hy.second_reaches hr hd hlt hyd
  constructor
  · rintro hle ⟨i, rfl, hi⟩
    have := (hx.halts_at hr hd hn h0 hxd).mpr hi
    omega
  · intro hno
    by_contra hle
    have heq := hreach.mp (by omega)
    refine hno ⟨k₀, heq, ?_⟩
    subst heq
    exact (hx.halts_at hr hd hn h0 hxd).mp rfl

end Passed

/-- Up to three intervals in order: a span inside one of them is passed unless it ends
with it, or two of them end inside the span in front of it. -/
theorem Scans.passed_iff {l : List (Nat × Nat)} {M : Nat → Prop} (hr : Row S E N)
    (h : Scans S E N n l 0 M) (hlen : l.length ≤ 3)
    (hp : l.Pairwise fun a b => S 0 < a.2 ∧ a.1 < a.2 ∧ a.2 ≤ b.1) {d : Nat} (hd : d < N)
    (hn : E d < n) {I : Nat × Nat} (hI : I ∈ l) (hc : I.1 ≤ S d ∧ E d ≤ I.2) :
    M d ↔ E d ≠ I.2 ∧ ¬ Crowded S l d := by
  have hpos := hr.pos d hd
  cases h with
  | nil => cases hI
  | @cons x l₀ _ k₀ M₀ hx hl₀ =>
  cases hl₀ with
  | nil =>
    obtain rfl := List.mem_singleton.mp hI
    have hcr : ¬ Crowded S [I] d := by
      rintro ⟨a, ha, b, hb, hab, -⟩
      exact hab ((List.mem_singleton.mp ha).trans (List.mem_singleton.mp hb).symm)
    simp only [hx.own hr hd hn hc (Nat.zero_le _), or_false, hcr, not_false_eq_true, and_true]
  | @cons y l₁ _ k₁ M₁ hy hl₁ =>
  obtain ⟨hxl, hp'⟩ := List.pairwise_cons.mp hp
  obtain ⟨h0, hx2, hxy⟩ := hxl y (List.mem_cons_self ..)
  cases hl₁ with
  | nil =>
    have hcr : ¬ Crowded S [x, y] d := by
      rintro ⟨a, ha, b, hb, hab, hea, heb⟩
      simp only [List.mem_cons, List.not_mem_nil, or_false] at hI ha hb
      rcases hI with rfl | rfl
      · rcases ha with rfl | rfl
        · exact hea.ne hc hpos rfl
        · exact hea.not_behind hc hpos hxy
      · have hax := ha.resolve_right (hea.ne hc hpos)
        have hbx := hb.resolve_right (heb.ne hc hpos)
        exact hab (hax.trans hbx.symm)
    simp only [or_false, hcr, not_false_eq_true, and_true]
    simp only [List.mem_cons, List.not_mem_nil, or_false] at hI
    rcases hI with rfl | rfl
    · rw [hx.own hr hd hn hc (Nat.zero_le _)]
      exact or_iff_left (not_behind hc hpos hxy)
    · rw [hy.own hr hd hn hc (hx.halts_before hr hd h0 (by omega))]
      exact or_iff_right (hx.not_front hc hpos hxy)
  | @cons z l₂ _ k₂ M₂ hz hl₂ =>
  obtain rfl : l₂ = [] :=
    List.length_eq_zero_iff.mp (by simp only [List.length_cons] at hlen; omega)
  cases hl₂
  obtain ⟨-, -, hxz⟩ := hxl z (by simp)
  obtain ⟨-, hy2, hyz⟩ := (List.pairwise_cons.mp hp').1 z (by simp)
  simp only [or_false]
  have hmem : I = x ∨ I = y ∨ I = z := by simpa using hI
  rcases hmem with rfl | rfl | rfl
  · have hcr : ¬ Crowded S [I, y, z] d := by
      rintro ⟨a, ha, -, -, -, hea, -⟩
      have ha : a = I ∨ a = y ∨ a = z := by simpa using ha
      rcases ha with rfl | rfl | rfl
      · exact hea.ne hc hpos rfl
      · exact hea.not_behind hc hpos hxy
      · exact hea.not_behind hc hpos hxz
    rw [hx.own hr hd hn hc (Nat.zero_le _)]
    simp only [not_behind hc hpos hxy, not_behind hc hpos hxz, or_false, hcr, not_false_eq_true,
      and_true]
  · have hcr : ¬ Crowded S [x, I, z] d := by
      rintro ⟨a, ha, b, hb, hab, hea, heb⟩
      have front : ∀ {J : Nat × Nat}, J ∈ [x, I, z] → EndsBefore S d J → J = x := by
        intro J hJ he
        have hJ : J = x ∨ J = I ∨ J = z := by simpa using hJ
        rcases hJ with h | h | rfl
        · exact h
        · exact absurd h (he.ne hc hpos)
        · exact absurd hyz (he.not_behind hc hpos)
      exact hab ((front ha hea).trans (front hb heb).symm)
    rw [hy.own hr hd hn hc (hx.halts_before hr hd h0 (by omega))]
    simp only [hx.not_front hc hpos hxy, not_behind hc hpos hyz, or_false, false_or, hcr,
      not_false_eq_true, and_true]
  · simp only [hx.not_front hc hpos hxz, hy.not_front hc hpos hyz, false_or]
    have hreach := third_reaches hr hx hy h0 (by omega) (by omega) hd hn
    have hcr : Crowded S [x, y, I] d ↔ ∃ i, d = i + 1 ∧ S i < x.2 := by
      constructor
      · rintro ⟨a, ha, b, hb, hab, hea, heb⟩
        have ha : a = x ∨ a = y ∨ a = I := by simpa using ha
        have hb : b = x ∨ b = y ∨ b = I := by simpa using hb
        have hx : EndsBefore S d x := by
          rcases ha with rfl | rfl | h
          · exact hea
          · rcases hb with rfl | rfl | h
            · exact heb
            · exact absurd rfl hab
            · exact absurd h (heb.ne hc hpos)
          · exact absurd h (hea.ne hc hpos)
        obtain ⟨i, hi, -, h2, -⟩ := hx
        exact ⟨i, hi, h2⟩
      · rintro ⟨i, hi, h2⟩
        refine ⟨x, by simp, y, by simp, ?_, ⟨i, hi, by omega, h2, by omega⟩,
          ⟨i, hi, by omega, by omega, by omega⟩⟩
        rintro rfl
        omega
    rw [hcr, ← hreach]
    constructor
    · rintro ⟨h1, h2, h3⟩
      exact ⟨(hz.own hr hd hn hc h1).mp ⟨h1, h2, h3⟩, h1⟩
    · rintro ⟨h1, h2⟩
      exact (hz.own hr hd hn hc h2).mpr h1

end LibTpa.Lib.SpanScan
