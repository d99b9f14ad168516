/- LibTpa/Snd/Cwnd
   digest: The growth of the congestion window, in words and over the integers. -/

import LibTpa.Lib.Run
import LibTpa.Snd.Ack
import LibTpa.Sock.Init

set_option autoImplicit false

namespace LibTpa

open Lib.Run

variable {cfg : TcpCfg} {c : Cc}

structure CwndCall where
  now : Nat
  acked : U32

def cwndStep (cfg : TcpCfg) (c : Cc) (a : CwndCall) : Cc := updateCwnd cfg a.now c a.acked

structure CwndOk (cfg : TcpCfg) (c : Cc) : Prop where
  mss : 1 ≤ c.sndMss.toNat
  low : c.sndMss.toNat ≤ c.sndCwnd.toNat
  high : c.sndCwnd.toNat ≤ cfg.cwndMax.toNat

def uncommitted (c : Cc) (a : CwndCall) : Nat := c.sndCwndUncommited.toNat + a.acked.toNat

/-- What waits stays below half of a word. -/
def Accumulates (c : Cc) (a : CwndCall) : Prop := uncommitted c a < 2 ^ 31

instance Accumulates.decidable (c : Cc) (a : CwndCall) : Decidable (Accumulates c a) :=
  inferInstanceAs (Decidable (_ < _))

/-- The call commits: a round-trip time has passed, and the window was used up. -/
def Commits (c : Cc) (a : CwndCall) : Prop :=
  ¬ usSince a.now c.sndCwndTsUs < (c.srtt >>> 3).toNat ∧ c.sndCwnd.toNat ≤ uncommitted c a

instance Commits.decidable (c : Cc) (a : CwndCall) : Decidable (Commits c a) :=
  inferInstanceAs (Decidable (_ ∧ _))

/-- What a call that commits adds: everything in slow start, and in congestion
avoidance about one segment for each window. -/
def cwndGrowth (c : Cc) (a : CwndCall) : Nat :=
  if c.sndCwnd.toNat < c.sndSsthresh.toNat then uncommitted c a
  else max 1 (uncommitted c a * c.sndMss.toNat / c.sndCwnd.toNat)

structure CwndExact (cfg : TcpCfg) (c : Cc) (a : CwndCall) : Prop where
  committed : Commits c a → (cwndStep cfg c a).sndCwnd.toNat =
    max c.sndMss.toNat (min cfg.cwndMax.toNat (c.sndCwnd.toNat + cwndGrowth c a))
  grows : c.sndCwnd.toNat ≤ (cwndStep cfg c a).sndCwnd.toNat

/-- In congestion avoidance the product of the waiting bytes and the segment size fits
a word, or its low word already lifts the window to its maximum. -/
def ProductFits (cfg : TcpCfg) (c : Cc) (a : CwndCall) : Prop :=
  Commits c a → c.sndSsthresh.toNat ≤ c.sndCwnd.toNat →
    uncommitted c a * c.sndMss.toNat < 2 ^ 32 ∨
      cfg.cwndMax.toNat ≤ c.sndCwnd.toNat +
        max 1 (uncommitted c a * c.sndMss.toNat % 2 ^ 32 / c.sndCwnd.toNat)

/-- What the code adds: the product is cut to a word before it is divided. -/
def wordGrowth (c : Cc) (a : CwndCall) : Nat :=
  if c.sndCwnd.toNat < c.sndSsthresh.toNat then uncommitted c a
  else max 1 (uncommitted c a * c.sndMss.toNat % 2 ^ 32 / c.sndCwnd.toNat)

private theorem uncommitted_toNat {a : CwndCall} (ha : Accumulates c a) :
    (c.sndCwndUncommited + a.acked).toNat = uncommitted c a := by
  unfold Accumulates uncommitted at ha
  rw [BitVec.toNat_add]
  exact Nat.mod_eq_of_lt (by omega)

private theorem mss_toNat (m : U16) : (m.setWidth 32 : U32).toNat = m.toNat := by
  have := m.isLt
  rw [BitVec.toNat_setWidth]
  omega

theorem setCwnd_toNat (cfg : TcpCfg) (c : Cc) (n : U32) : (setCwnd cfg c n).sndCwnd.toNat =
    max c.sndMss.toNat (min cfg.cwndMax.toNat n.toNat) := by
  change (maxU32 (minU32 n cfg.cwndMax) (c.sndMss.setWidth 32)).toNat = _
  rw [toNat_maxU32, toNat_minU32, mss_toNat, max_comm, min_comm]

private theorem share_le {u m w : Nat} (hm : m ≤ w) : u * m / w ≤ u := by
  rcases Nat.eq_zero_or_pos w with rfl | hw
  · rw [Nat.div_zero]
    exact Nat.zero_le u
  · exact Nat.div_le_of_le_mul (by rw [Nat.mul_comm w u]; exact Nat.mul_le_mul_left u hm)

private theorem wordGrowth_le {a : CwndCall} (hlow : c.sndMss.toNat ≤ c.sndCwnd.toNat) :
    wordGrowth c a ≤ max 1 (uncommitted c a) := by
  unfold wordGrowth
  split
  · exact le_max_right ..
  · refine max_le_max le_rfl (le_trans ?_ (share_le hlow))
    exact Nat.div_le_div_right (Nat.mod_le _ _)

theorem cwndStep_cwnd {a : CwndCall} (hlow : c.sndMss.toNat ≤ c.sndCwnd.toNat)
    (hhigh : c.sndCwnd.toNat ≤ 2 ^ 30) (ha : Accumulates c a) :
    (Commits c a → (cwndStep cfg c a).sndCwnd.toNat =
      max c.sndMss.toNat (min cfg.cwndMax.toNat (c.sndCwnd.toNat + wordGrowth c a))) ∧
    (¬ Commits c a → (cwndStep cfg c a).sndCwnd = c.sndCwnd) ∧
    (cwndStep cfg c a).sndMss = c.sndMss := by
  have hu := uncommitted_toNat ha
  have hsum : c.sndCwnd.toNat + wordGrowth c a < 2 ^ 32 := by
    have hle := wordGrowth_le (a := a) hlow
    unfold Accumulates at ha
    omega
  unfold Commits cwndStep updateCwnd
  unfold wordGrowth at hsum ⊢
  dsimp only
  simp only [BitVec.lt_def, hu]
  split
  · next hearly => exact ⟨fun h => absurd hearly h.1, fun _ => rfl, rfl⟩
  next hlate =>
  split
  · next hunused => exact ⟨fun h => absurd hunused (not_lt.mpr h.2), fun _ => rfl, rfl⟩
  next hused =>
  have hcom : ¬ usSince a.now c.sndCwndTsUs < (c.srtt >>> 3).toNat ∧
      c.sndCwnd.toNat ≤ uncommitted c a := ⟨hlate, not_lt.mp hused⟩
  refine ⟨fun _ => ?_, fun h => absurd hcom h, by split <;> rfl⟩
  split
  · next hslow =>
    rw [if_pos hslow] at hsum
    rw [setCwnd_toNat, BitVec.toNat_add, hu, Nat.mod_eq_of_lt hsum]
  · next havoid =>
    rw [if_neg havoid] at hsum
    have hgrow :
      (maxU32 1 ((c.sndCwndUncommited + a.acked) * c.sndMss.setWidth 32 / c.sndCwnd)).toNat =
        max 1 (uncommitted c a * c.sndMss.toNat % 2 ^ 32 / c.sndCwnd.toNat) := by
      rw [toNat_maxU32, BitVec.toNat_udiv, BitVec.toNat_mul, hu, mss_toNat]
      rfl
    rw [setCwnd_toNat, BitVec.toNat_add, hgrow, Nat.mod_eq_of_lt hsum]

theorem CwndOk.cwnd_le (hc : CwndOk cfg c) : c.sndCwnd.toNat ≤ 2 ^ 30 :=
  hc.high.trans cfg.cwndMax_le

theorem CwndOk.step {a : CwndCall} (hc : CwndOk cfg c) (ha : Accumulates c a) :
    CwndOk cfg (cwndStep cfg c a) ∧ c.sndCwnd.toNat ≤ (cwndStep cfg c a).sndCwnd.toNat := by
  obtain ⟨hcom, hidle, hmss⟩ := cwndStep_cwnd hc.low hc.cwnd_le ha
  have h1 := hc.mss
  have h2 := hc.low
  have h3 := hc.high
  rw [← hmss] at h1 h2 hcom
  by_cases h : Commits c a
  · have hnew := hcom h
    exact ⟨⟨h1, by omega, by omega⟩, by omega⟩
  · rw [← hidle h] at h2 h3
    exact ⟨⟨h1, h2, h3⟩, by rw [hidle h]⟩

/-- A product that does not fit loses at least four windows, more than the division
and the least growth can hide. -/
private theorem wrapped_share_lt {n w : Nat} (hw : 0 < w) (hmax : w ≤ 2 ^ 30) (hn : 2 ^ 32 ≤ n) :
    max 1 (n % 2 ^ 32 / w) < max 1 (n / w) := by
  have hsplit : n % 2 ^ 32 + 4 * w ≤ n := by omega
  have hdiv : n % 2 ^ 32 / w + 4 ≤ n / w := by
    rw [← Nat.add_mul_div_right _ _ hw]
    exact Nat.div_le_div_right hsplit
  generalize n % 2 ^ 32 / w = x at hdiv ⊢
  omega

private theorem cwnd_cut {m w top x y : Nat} (hm : m ≤ w) (hw : w ≤ top) (h : x < y) :
    max m (min top (w + x)) = max m (min top (w + y)) ↔ top ≤ w + x := by omega

/-- One call is exact if and only if the product is, or the maximum hides it. -/
theorem cwndExact_iff {a : CwndCall} (hc : CwndOk cfg c) (ha : Accumulates c a) :
    CwndExact cfg c a ↔ ProductFits cfg c a := by
  obtain ⟨hcom, -, -⟩ := cwndStep_cwnd hc.low hc.cwnd_le ha
  have hgrows := (hc.step ha).2
  have hpos : 0 < c.sndCwnd.toNat := lt_of_lt_of_le hc.mss hc.low
  have hmax := hc.high.trans cfg.cwndMax_le
  have hiff : Commits c a → ((cwndStep cfg c a).sndCwnd.toNat =
      max c.sndMss.toNat (min cfg.cwndMax.toNat (c.sndCwnd.toNat + cwndGrowth c a)) ↔
        (c.sndSsthresh.toNat ≤ c.sndCwnd.toNat →
          uncommitted c a * c.sndMss.toNat < 2 ^ 32 ∨ cfg.cwndMax.toNat ≤ c.sndCwnd.toNat +
            max 1 (uncommitted c a * c.sndMss.toNat % 2 ^ 32 / c.sndCwnd.toNat))) := by
    intro h
    rw [hcom h]
    unfold wordGrowth cwndGrowth
    by_cases hslow : c.sndCwnd.toNat < c.sndSsthresh.toNat
    · rw [if_pos hslow, if_pos hslow]
      exact ⟨fun _ hle => absurd hslow (not_lt.mpr hle), fun _ => rfl⟩
    rw [if_neg hslow, if_neg hslow]
    by_cases hfits : uncommitted c a * c.sndMss.toNat < 2 ^ 32
    · rw [Nat.mod_eq_of_lt hfits]
      exact ⟨fun _ _ => .inl hfits, fun _ => rfl⟩
    · rw [cwnd_cut hc.low hc.high (wrapped_share_lt hpos hmax (not_lt.mp hfits))]
      exact ⟨fun h _ => .inr h, fun h => (h (not_lt.mp hslow)).resolve_left hfits⟩
  constructor
  · intro h hcommit
    exact (hiff hcommit).mp (h.committed hcommit)
  · intro h
    exact ⟨fun hcommit => (hiff hcommit).mpr (h hcommit), hgrows⟩

/-- For every sequence of calls: each call is exact if and only if its product fits. -/
theorem updateCwnd_exact_iff (cfg : TcpCfg) (c₀ c : Cc) (a : CwndCall) (h₀ : CwndOk cfg c₀)
    (hr : Reach (cwndStep cfg) Accumulates c₀ c) (ha : Accumulates c a) :
    CwndExact cfg c a ↔ ProductFits cfg c a := by
  have hc : CwndOk cfg c := hr.invariant h₀ fun _ _ hc ha => (hc.step ha).1
  exact cwndExact_iff hc ha

/-- A socket in congestion avoidance with a window of three million bytes and segments
of 1460. -/
def longFatPipe : Cc :=
  { (tsockInit {} 0 false).cc with sndMss := 1460, sndCwnd := 3000000, sndSsthresh := 1000000 }

def fullWindow : CwndCall := ⟨1, 3000000⟩

theorem longFatPipe_ok : CwndOk {} longFatPipe := ⟨by decide, by decide, by decide⟩

def steadyPipe : Cc := { longFatPipe with srtt := 80, sndCwnd := 2000000 }

theorem updateCwnd_exact_halves :
    let c := cwndStep {} steadyPipe ⟨1, 1000000⟩
    CwndExact {} c ⟨20, 1000000⟩ ∧ (cwndStep {} c ⟨20, 1000000⟩).sndCwnd = 2001460 := by
  have hok : CwndOk {} steadyPipe := ⟨by decide, by decide, by decide⟩
  have hreach : Reach (cwndStep {}) Accumulates steadyPipe (cwndStep {} steadyPipe ⟨1, 1000000⟩) :=
    Reach.refl.step _ (by decide)
  refine ⟨(updateCwnd_exact_iff {} _ _ _ hok hreach (by decide +kernel)).mpr ?_, by decide +kernel⟩
  intro _ _
  exact .inl (by decide +kernel)

/-- One segment should be added; the code adds 28 bytes. -/
theorem fullWindow_wraps :
    CwndOk {} longFatPipe ∧ Accumulates longFatPipe fullWindow ∧ Commits longFatPipe fullWindow ∧
      longFatPipe.sndCwnd.toNat + cwndGrowth longFatPipe fullWindow = 3001460 ∧
      (cwndStep {} longFatPipe fullWindow).sndCwnd = 3000028 ∧
      ¬ CwndExact {} longFatPipe fullWindow := by
  refine ⟨longFatPipe_ok, by decide, by decide +kernel, by decide +kernel, by decide +kernel, ?_⟩
  intro h
  have hexact := h.committed (by decide +kernel)
  revert hexact
  decide +kernel

end LibTpa
