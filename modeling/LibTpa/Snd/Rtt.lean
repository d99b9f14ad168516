/- LibTpa/Snd/Rtt
   digest: The estimate of the round-trip time, in words and over the integers. -/

import LibTpa.Lib.MovingAverage
import LibTpa.Lib.Run
import LibTpa.Snd.Ack
import LibTpa.Sock.Init

/-!
`srtt` is eight times the smoothed time and `rttvar` four times the deviation. Both are
moving averages of limited samples, so no word of the estimate ever wraps.
-/

set_option autoImplicit false

namespace LibTpa

open Lib.Run Lib.MovingAverage

/-- What `rtt_update` computes in turn: the limited sample, its distance from the average,
`srtt`, the size of the distance, the change of `rttvar`, `rttvar`, and `rto` before
`TCP_RTO_MAX` cuts it. A first sample has no distance and no change. -/
structure RttValues where
  limited : Int
  err : Int := 0
  srtt : Int
  dev : Int := 0
  change : Int := 0
  rttvar : Int
  rto : Int
  deriving DecidableEq

def rttWords (cfg : TcpCfg) (c : Cc) (rtt : U32) : RttValues :=
  let rtt := capRtt rtt
  let sum := fun srtt rttvar : U32 => (srtt >>> 3) + maxU32 cfg.tcpRtoMin rttvar
  if c.srtt ≠ 0 then
    let err := rtt - (c.srtt >>> 3)
    let srtt := c.srtt + err
    let dev := if err.toInt < 0 then capRtt (-err) else err
    let change := dev - (c.rttvar >>> 2)
    let rttvar := c.rttvar + change
    ⟨rtt.toInt, err.toInt, srtt.toNat, dev.toInt, change.toInt, rttvar.toNat,
      (sum srtt rttvar).toNat⟩
  else
    { limited := rtt.toInt
      srtt := (rtt <<< 3).toNat
      rttvar := (rtt <<< 1).toNat
      rto := (sum (rtt <<< 3) (rtt <<< 1)).toNat }

def rttExact (cfg : TcpCfg) (c : Cc) (rtt : U32) : RttValues :=
  let rtt : Int := min (rtt.toNat : Int) tcpRttMax
  let sum := fun srtt rttvar : Int => srtt / 8 + max (cfg.tcpRtoMin.toNat : Int) rttvar
  if c.srtt.toNat ≠ 0 then
    let err := rtt - c.srtt.toNat / 8
    let srtt := c.srtt.toNat + err
    let dev := if err < 0 then min (-err) tcpRttMax else err
    let change := dev - c.rttvar.toNat / 4
    let rttvar := c.rttvar.toNat + change
    ⟨rtt, err, srtt, dev, change, rttvar, sum srtt rttvar⟩
  else { limited := rtt, srtt := rtt * 8, rttvar := rtt * 2, rto := sum (rtt * 8) (rtt * 2) }

structure RttRight (cfg : TcpCfg) (c : Cc) (rtt : U32) : Prop where
  exact : rttWords cfg c rtt = rttExact cfg c rtt
  srtt : ((rttUpdate cfg c rtt).srtt.toNat : Int) = (rttWords cfg c rtt).srtt
  rttvar : ((rttUpdate cfg c rtt).rttvar.toNat : Int) = (rttWords cfg c rtt).rttvar
  rto : ((rttUpdate cfg c rtt).rto.toNat : Int) = min (rttWords cfg c rtt).rto tcpRtoMax

/-- The estimate with the limited samples since `srtt` was last zero. -/
structure RttRun where
  cc : Cc
  seen : List Nat

def Sample (rtt : U32) : Prop := rtt.toNat < 2 ^ 31

instance Sample.decidable (rtt : U32) : Decidable (Sample rtt) :=
  inferInstanceAs (Decidable (_ < _))

def limitedRtt (rtt : U32) : Nat := min rtt.toNat 400000

def rttStep (cfg : TcpCfg) (x : RttRun) (rtt : U32) : RttRun where
  cc := rttUpdate cfg x.cc rtt
  seen := if x.cc.srtt = 0 then [limitedRtt rtt] else limitedRtt rtt :: x.seen

/-- The average lies between two of the samples, so between the smallest and the
largest; the deviation and the time-out keep their limits. -/
structure RttBounds (cfg : TcpCfg) (x : RttRun) : Prop where
  low : ∃ lo ∈ x.seen, 8 * lo ≤ x.cc.srtt.toNat
  high : ∃ hi ∈ x.seen, x.cc.srtt.toNat ≤ 8 * hi
  rttvar : (x.cc.rttvar.toNat : Int) ≤ 4 * tcpRttMax
  rto_ge : cfg.tcpRtoMin.toNat ≤ x.cc.rto.toNat
  rto_le : x.cc.rto.toNat ≤ tcpRtoMax

private theorem toInt_small {a : U32} (h : a.toNat < 2 ^ 31) : a.toInt = a.toNat := by
  rw [BitVec.toInt_eq_toNat_cond]
  omega

private theorem toInt_sub_small {a b : U32} (ha : a.toNat < 2 ^ 31) (hb : b.toNat < 2 ^ 31) :
    (a - b).toInt = a.toNat - b.toNat := by
  rw [BitVec.toInt_eq_toNat_cond, BitVec.toNat_sub]
  omega

private theorem toNat_shiftRight_three (a : U32) : (a >>> 3).toNat = a.toNat / 8 := by
  rw [BitVec.toNat_ushiftRight, Nat.shiftRight_eq_div_pow]

private theorem toNat_shiftRight_two (a : U32) : (a >>> 2).toNat = a.toNat / 4 := by
  rw [BitVec.toNat_ushiftRight, Nat.shiftRight_eq_div_pow]

private theorem capRtt_toNat {a : U32} (h : a.toNat < 2 ^ 31) :
    (capRtt a).toNat = limitedRtt a := by
  have hlim : (BitVec.ofInt 32 tcpRttMax : U32).toNat = 400000 := by decide
  have hmax : tcpRttMax = 400000 := rfl
  unfold capRtt limitedRtt
  rw [toInt_small h]
  split
  · omega
  · rw [hlim]
    omega

private theorem limitedRtt_le (a : U32) : limitedRtt a ≤ 400000 := min_le_right _ _

private theorem capRtt_small {a : U32} (h : a.toNat < 2 ^ 31) : (capRtt a).toNat < 2 ^ 31 := by
  rw [capRtt_toNat h]
  exact lt_of_le_of_lt (limitedRtt_le a) (by decide)

private theorem toNat_add_sub {s a b : U32} (hs : s.toNat < 2 ^ 31) (ha : a.toNat < 2 ^ 31)
    (hb : b.toNat ≤ s.toNat) : (s + (a - b)).toNat = s.toNat - b.toNat + a.toNat := by
  rw [BitVec.toNat_add, BitVec.toNat_sub]
  omega

private theorem dev_toNat {a b : U32} (ha : a.toNat ≤ 400000) (hb : b.toNat ≤ 400000) :
    (if (a - b).toInt < 0 then capRtt (-(a - b)) else a - b).toNat =
      ((a.toNat : Int) - b.toNat).natAbs := by
  have hsub := toInt_sub_small (a := a) (b := b) (by omega) (by omega)
  split
  · next hneg =>
    rw [hsub] at hneg
    have hback : (-(a - b)).toNat = b.toNat - a.toNat := by
      rw [BitVec.toNat_neg, BitVec.toNat_sub]
      omega
    rw [capRtt_toNat (by omega)]
    unfold limitedRtt
    omega
  · next hpos =>
    rw [hsub] at hpos
    rw [BitVec.toNat_sub]
    omega

variable (cfg : TcpCfg) {c : Cc} {rtt : U32}

/-- The estimate is small enough for the next update. -/
structure RttSmall (c : Cc) : Prop where
  srtt : c.srtt.toNat ≤ 8 * 400000
  rttvar : c.rttvar.toNat ≤ 4 * 400000

def rttDev (c : Cc) (rtt : U32) : Nat := ((limitedRtt rtt : Int) - (c.srtt.toNat / 8 : Nat)).natAbs

private theorem rttDev_le (h : RttSmall c) (rtt : U32) : rttDev c rtt ≤ 400000 := by
  have h1 := h.srtt
  have h2 := limitedRtt_le rtt
  unfold rttDev
  omega

private theorem dev_rtt (h : RttSmall c) (hs : Sample rtt) :
    (if (capRtt rtt - (c.srtt >>> 3)).toInt < 0 then capRtt (-(capRtt rtt - (c.srtt >>> 3)))
      else capRtt rtt - (c.srtt >>> 3)).toNat = rttDev c rtt := by
  have h1 := h.srtt
  rw [dev_toNat, capRtt_toNat hs, toNat_shiftRight_three]
  · rfl
  · rw [capRtt_toNat hs]
    exact limitedRtt_le rtt
  · rw [toNat_shiftRight_three]
    omega

private theorem srtt_grow (h : RttSmall c) (hs : Sample rtt) :
    (c.srtt + (capRtt rtt - (c.srtt >>> 3))).toNat = blend 8 c.srtt.toNat (limitedRtt rtt) := by
  have h1 := h.srtt
  rw [toNat_add_sub (by omega) (capRtt_small hs), capRtt_toNat hs, toNat_shiftRight_three]
  · rfl
  · rw [toNat_shiftRight_three]
    omega

private theorem rttvar_grow (h : RttSmall c) {dev : U32} (hdev : dev.toNat ≤ 400000) :
    (c.rttvar + (dev - (c.rttvar >>> 2))).toNat = blend 4 c.rttvar.toNat dev.toNat := by
  have h1 := h.rttvar
  rw [toNat_add_sub (by omega) (by omega), toNat_shiftRight_two]
  · rfl
  · rw [toNat_shiftRight_two]
    omega

private theorem toNat_shiftLeft_small {a : U32} {n : Nat} (h : a.toNat * 2 ^ n < 2 ^ 32) :
    (a <<< n).toNat = a.toNat * 2 ^ n := by
  rw [BitVec.toNat_shiftLeft, Nat.shiftLeft_eq]
  exact Nat.mod_eq_of_lt h

private theorem first_toNat (hs : Sample rtt) : (capRtt rtt <<< 3).toNat = limitedRtt rtt * 8 ∧
    (capRtt rtt <<< 1).toNat = limitedRtt rtt * 2 := by
  have hcap := capRtt_toNat hs
  have hle := limitedRtt_le rtt
  constructor
  · rw [toNat_shiftLeft_small (by omega), hcap]
    rfl
  · rw [toNat_shiftLeft_small (by omega), hcap]
    rfl

private theorem rto_sum {s v : U32} (hs : s.toNat ≤ 8 * 400000) (hv : v.toNat ≤ 4 * 400000) :
    ((s >>> 3) + maxU32 cfg.tcpRtoMin v).toNat = s.toNat / 8 + max cfg.tcpRtoMin.toNat v.toNat := by
  have hmin := cfg.rtoMin_le
  rw [BitVec.toNat_add, toNat_maxU32, toNat_shiftRight_three]
  exact Nat.mod_eq_of_lt (by omega)

theorem rttUpdate_grow (h : RttSmall c) (hs : Sample rtt) (hne : c.srtt ≠ 0) :
    (rttUpdate cfg c rtt).srtt.toNat = blend 8 c.srtt.toNat (limitedRtt rtt) ∧
      (rttUpdate cfg c rtt).rttvar.toNat = blend 4 c.rttvar.toNat (rttDev c rtt) := by
  have hdev := dev_rtt h hs
  have hle := rttDev_le h rtt
  unfold rttUpdate
  dsimp only
  rw [if_pos hne]
  dsimp only
  refine ⟨srtt_grow h hs, ?_⟩
  generalize (if (capRtt rtt - (c.srtt >>> 3)).toInt < 0
    then capRtt (-(capRtt rtt - (c.srtt >>> 3)))
      else capRtt rtt - (c.srtt >>> 3)) = dev at hdev ⊢
  rw [← hdev] at hle ⊢
  exact rttvar_grow h hle

theorem rttUpdate_first (hs : Sample rtt) (h0 : c.srtt = 0) :
    (rttUpdate cfg c rtt).srtt.toNat = limitedRtt rtt * 8 ∧
      (rttUpdate cfg c rtt).rttvar.toNat = limitedRtt rtt * 2 := by
  unfold rttUpdate
  dsimp only
  rw [if_neg (not_not.mpr h0)]
  exact first_toNat hs

theorem RttSmall.grown (h : RttSmall c) (hs : Sample rtt) (hne : c.srtt ≠ 0) :
    RttSmall (rttUpdate cfg c rtt) := by
  obtain ⟨h1, h2⟩ := rttUpdate_grow cfg h hs hne
  constructor
  · rw [h1]
    exact blend_le (by decide) h.srtt (limitedRtt_le rtt)
  · rw [h2]
    exact blend_le (by decide) h.rttvar (rttDev_le h rtt)

theorem RttSmall.first (hs : Sample rtt) (h0 : c.srtt = 0) : RttSmall (rttUpdate cfg c rtt) := by
  obtain ⟨h1, h2⟩ := rttUpdate_first cfg hs h0
  have hle := limitedRtt_le rtt
  constructor
  · omega
  · omega

theorem rttUpdate_rto {cfg : TcpCfg} (h : RttSmall (rttUpdate cfg c rtt)) :
    (rttUpdate cfg c rtt).rto.toNat =
    min ((rttUpdate cfg c rtt).srtt.toNat / 8 +
      max cfg.tcpRtoMin.toNat (rttUpdate cfg c rtt).rttvar.toNat) tcpRtoMax := by
  rw [← rto_sum cfg h.srtt h.rttvar,
    show tcpRtoMax = (BitVec.ofNat 32 tcpRtoMax : U32).toNat from rfl, ← toNat_minU32]
  rfl

theorem RttSmall.rto {cfg : TcpCfg} (h : RttSmall (rttUpdate cfg c rtt)) :
    cfg.tcpRtoMin.toNat ≤ (rttUpdate cfg c rtt).rto.toNat ∧
      (rttUpdate cfg c rtt).rto.toNat ≤ tcpRtoMax := by
  have hmin := cfg.rtoMin_le
  have hmax : tcpRtoMax = 120000000 := rfl
  rw [rttUpdate_rto h]
  omega

structure RttOk (x : RttRun) : Prop where
  seen : ∀ f ∈ x.seen, f ≤ 400000
  low : x.cc.srtt ≠ 0 → ∃ lo ∈ x.seen, 8 * lo ≤ x.cc.srtt.toNat
  high : x.cc.srtt ≠ 0 → ∃ hi ∈ x.seen, x.cc.srtt.toNat ≤ 8 * hi
  rttvar : x.cc.srtt ≠ 0 → x.cc.rttvar.toNat ≤ 4 * 400000

namespace RttOk

variable {x : RttRun}

theorem small (h : RttOk x) (hne : x.cc.srtt ≠ 0) : RttSmall x.cc := by
  obtain ⟨hi, hmem, hle⟩ := h.high hne
  have := h.seen hi hmem
  exact ⟨by omega, h.rttvar hne⟩

theorem bounds (h : RttOk x) (hs : Sample rtt) : RttBounds cfg (rttStep cfg x rtt) := by
  by_cases h0 : x.cc.srtt = 0
  · have hsmall := RttSmall.first cfg hs h0
    obtain ⟨h1, h2⟩ := rttUpdate_first cfg hs h0
    have hseen : (rttStep cfg x rtt).seen = [limitedRtt rtt] := if_pos h0
    have hcc : (rttStep cfg x rtt).cc = rttUpdate cfg x.cc rtt := rfl
    refine ⟨⟨limitedRtt rtt, ?_, ?_⟩, ⟨limitedRtt rtt, ?_, ?_⟩, ?_, hsmall.rto.1, hsmall.rto.2⟩
    · rw [hseen]
      exact List.mem_singleton_self _
    · rw [hcc]
      omega
    · rw [hseen]
      exact List.mem_singleton_self _
    · rw [hcc]
      omega
    · exact Int.ofNat_le.mpr hsmall.rttvar
  · have hsmall := (h.small h0).grown cfg hs h0
    obtain ⟨h1, -⟩ := rttUpdate_grow cfg (h.small h0) hs h0
    have hseen : (rttStep cfg x rtt).seen = limitedRtt rtt :: x.seen := if_neg h0
    have hcc : (rttStep cfg x rtt).cc = rttUpdate cfg x.cc rtt := rfl
    obtain ⟨lo, hlo, hlow⟩ := h.low h0
    obtain ⟨hi, hhi, hhigh⟩ := h.high h0
    obtain ⟨hge, hle⟩ := blend_between (x := limitedRtt rtt) (by decide) hlow hhigh
    refine ⟨⟨min lo (limitedRtt rtt), ?_, ?_⟩, ⟨max hi (limitedRtt rtt), ?_, ?_⟩, ?_, hsmall.rto.1,
      hsmall.rto.2⟩
    · rw [hseen]
      rcases min_choice lo (limitedRtt rtt) with hm | hm
      · rw [hm]
        exact List.mem_cons_of_mem _ hlo
      · rw [hm]
        exact List.mem_cons_self
    · rw [hcc, h1]
      exact hge
    · rw [hseen]
      rcases max_choice hi (limitedRtt rtt) with hm | hm
      · rw [hm]
        exact List.mem_cons_of_mem _ hhi
      · rw [hm]
        exact List.mem_cons_self
    · rw [hcc, h1]
      exact hle
    · exact Int.ofNat_le.mpr hsmall.rttvar

theorem step (h : RttOk x) (hs : Sample rtt) : RttOk (rttStep cfg x rtt) := by
  have hb := h.bounds cfg hs
  refine ⟨fun f hf => ?_, fun _ => hb.low, fun _ => hb.high, fun _ => Int.ofNat_le.mp hb.rttvar⟩
  unfold rttStep at hf
  dsimp only at hf
  split at hf
  · rw [List.mem_singleton.mp hf]
    exact limitedRtt_le rtt
  · rcases List.mem_cons.mp hf with hf | hf
    · rw [hf]
      exact limitedRtt_le rtt
    · exact h.seen f hf

end RttOk

private theorem limitedRtt_int (rtt : U32) :
    (limitedRtt rtt : Int) = min (rtt.toNat : Int) tcpRttMax := by
  have hmax : tcpRttMax = 400000 := rfl
  unfold limitedRtt
  omega

private theorem first_exact (hs : Sample rtt) (h0 : c.srtt = 0) :
    rttWords cfg c rtt = rttExact cfg c rtt := by
  obtain ⟨h1, h2⟩ := first_toNat hs
  have hlim : (capRtt rtt).toInt = limitedRtt rtt := by
    rw [toInt_small (capRtt_small hs), capRtt_toNat hs]
  have hle := limitedRtt_le rtt
  have hsum := rto_sum cfg (s := capRtt rtt <<< 3) (v := capRtt rtt <<< 1) (by omega) (by omega)
  unfold rttWords rttExact
  dsimp only
  rw [if_neg (not_not.mpr h0), if_neg (by rw [h0]; decide), ← limitedRtt_int, hlim, hsum, h1, h2]
  push_cast
  rfl

private theorem grow_exact (h : RttSmall c) (hs : Sample rtt) (hne : c.srtt ≠ 0) :
    rttWords cfg c rtt = rttExact cfg c rtt := by
  have hsmall := h.grown cfg hs hne
  have hlim : (capRtt rtt).toInt = limitedRtt rtt := by
    rw [toInt_small (capRtt_small hs), capRtt_toNat hs]
  have hle := limitedRtt_le rtt
  have hs1 := h.srtt
  have hv1 := h.rttvar
  have herr : (capRtt rtt - (c.srtt >>> 3)).toInt = limitedRtt rtt - c.srtt.toNat / 8 := by
    rw [toInt_sub_small (capRtt_small hs), capRtt_toNat hs, toNat_shiftRight_three]
    · rfl
    · rw [toNat_shiftRight_three]
      omega
  have hsrtt : ((c.srtt + (capRtt rtt - (c.srtt >>> 3))).toNat : Int) =
      c.srtt.toNat + (limitedRtt rtt - c.srtt.toNat / 8) := by
    rw [srtt_grow h hs, blend_int]
    rfl
  have hdev := dev_rtt h hs
  have hdle := rttDev_le h rtt
  have hdint : (rttDev c rtt : Int) = if (limitedRtt rtt : Int) - c.srtt.toNat / 8 < 0
      then min (-((limitedRtt rtt : Int) - c.srtt.toNat / 8)) tcpRttMax
      else (limitedRtt rtt : Int) - c.srtt.toNat / 8 := by
    have hmax : tcpRttMax = 400000 := rfl
    unfold rttDev
    split <;> omega
  have hne' : c.srtt.toNat ≠ 0 := fun h => hne (BitVec.eq_of_toNat_eq h)
  unfold rttWords rttExact
  dsimp only
  rw [if_pos hne, if_pos hne', ← limitedRtt_int, ← hdint]
  generalize (if (capRtt rtt - (c.srtt >>> 3)).toInt < 0
    then capRtt (-(capRtt rtt - (c.srtt >>> 3)))
      else capRtt rtt - (c.srtt >>> 3)) = dev at hdev ⊢
  have hvar : ((c.rttvar + (dev - (c.rttvar >>> 2))).toNat : Int) =
      c.rttvar.toNat + (rttDev c rtt - c.rttvar.toNat / 4) := by
    rw [rttvar_grow h (by omega), blend_int, hdev]
    rfl
  have hchange : (dev - (c.rttvar >>> 2)).toInt = rttDev c rtt - c.rttvar.toNat / 4 := by
    rw [toInt_sub_small (by omega), hdev, toNat_shiftRight_two]
    · rfl
    · rw [toNat_shiftRight_two]
      omega
  have hb1 : (c.srtt + (capRtt rtt - (c.srtt >>> 3))).toNat ≤ 8 * 400000 := by
    rw [srtt_grow h hs]
    exact blend_le (by decide) h.srtt hle
  have hb2 : (c.rttvar + (dev - (c.rttvar >>> 2))).toNat ≤ 4 * 400000 := by
    rw [rttvar_grow h (by omega), hdev]
    exact blend_le (by decide) h.rttvar hdle
  rw [hlim, herr, hchange, toInt_small (by omega), hdev, rto_sum cfg hb1 hb2]
  push_cast
  rw [hsrtt, hvar]

private theorem words_kept (cfg : TcpCfg) (c : Cc) (rtt : U32) :
    ((rttUpdate cfg c rtt).srtt.toNat : Int) = (rttWords cfg c rtt).srtt ∧
      ((rttUpdate cfg c rtt).rttvar.toNat : Int) = (rttWords cfg c rtt).rttvar ∧
      ((rttUpdate cfg c rtt).rto.toNat : Int) = min (rttWords cfg c rtt).rto tcpRtoMax := by
  have hcut : ∀ a : U32, ((minU32 a (BitVec.ofNat 32 tcpRtoMax)).toNat : Int) =
      min (a.toNat : Int) tcpRtoMax := by
    intro a
    rw [toNat_minU32, show (BitVec.ofNat 32 tcpRtoMax : U32).toNat = tcpRtoMax from rfl]
    omega
  unfold rttUpdate rttWords
  dsimp only
  by_cases h0 : c.srtt ≠ 0
  · rw [if_pos h0, if_pos h0]
    exact ⟨rfl, rfl, hcut _⟩
  · rw [if_neg h0, if_neg h0]
    exact ⟨rfl, rfl, hcut _⟩

theorem RttOk.right {x : RttRun} (h : RttOk x) (hs : Sample rtt) : RttRight cfg x.cc rtt := by
  obtain ⟨h1, h2, h3⟩ := words_kept cfg x.cc rtt
  refine ⟨?_, h1, h2, h3⟩
  by_cases h0 : x.cc.srtt = 0
  · exact first_exact cfg hs h0
  · exact grow_exact cfg (h.small h0) hs h0

/-- For every sequence of samples, from an estimate without one: no value wraps, and after
each update the average, the deviation and the time-out lie within their limits. -/
theorem rttUpdate_in_bounds (cfg : TcpCfg) (c₀ : Cc) (h₀ : c₀.srtt = 0) (x : RttRun) (rtt : U32)
    (hr : Reach (rttStep cfg) (fun _ rtt => Sample rtt) ⟨c₀, []⟩ x) (hs : Sample rtt) :
    RttRight cfg x.cc rtt ∧ RttBounds cfg (rttStep cfg x rtt) := by
  have hok : RttOk x :=
    hr.invariant ⟨nofun, fun h => absurd h₀ h, fun h => absurd h₀ h, fun h => absurd h₀ h⟩
      fun _ _ h hs => h.step cfg hs
  exact ⟨hok.right cfg hs, hok.bounds cfg hs⟩

theorem rttUpdate_in_bounds_samples :
    let x := exec (rttStep {}) ⟨(tsockInit {} 0 false).cc, []⟩ [100000, 2000000]
    x.cc.srtt = 1100000 ∧ RttBounds {} (rttStep {} x 1) ∧
      (rttStep {} x 1).seen = [1, 400000, 100000] := by
  have hr : Reach (rttStep {}) (fun _ rtt => Sample rtt) ⟨(tsockInit {} 0 false).cc, []⟩
      (exec (rttStep {}) ⟨(tsockInit {} 0 false).cc, []⟩ [100000, 2000000]) :=
    Reach.refl.exec ⟨by decide, by decide, trivial⟩
  exact ⟨by decide +kernel, (rttUpdate_in_bounds {} _ rfl _ 1 hr (by decide)).2, by decide +kernel⟩

end LibTpa
