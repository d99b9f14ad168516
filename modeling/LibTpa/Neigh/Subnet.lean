/- LibTpa/Neigh/Subnet
   digest: The choice between a destination on the link and the IPv6 gateway. -/

import LibTpa.Neigh.Cache
import Mathlib.Tactic.SplitIfs

set_option autoImplicit false

namespace LibTpa

variable {w n i : Nat}

/-- Bit `i` of an address in network order: the bytes in turn, each from its highest bit on. -/
def netBit (a : BitVec w) (i : Nat) : Bool := a.getLsbD (8 * (i / 8) + (7 - i % 8))

def SamePrefix (n : Nat) (a b : BitVec w) : Prop := ∀ i < n, netBit a i = netBit b i

instance (n : Nat) (a b : BitVec w) : Decidable (SamePrefix n a b) :=
  inferInstanceAs (Decidable (∀ i < n, netBit a i = netBit b i))

theorem netBit_low (a : TpaIp) (hi : i < 64) : netBit (a.extractLsb' 0 64) i = netBit a i := by
  unfold netBit
  have hlt : 8 * (i / 8) + (7 - i % 8) < 64 := by omega
  simp [hlt]

theorem netBit_high (a : TpaIp) (hi : i < 64) :
    netBit (a.extractLsb' 64 64) i = netBit a (64 + i) := by
  unfold netBit
  have hlt : 8 * (i / 8) + (7 - i % 8) < 64 := by omega
  have heq : 8 * ((64 + i) / 8) + (7 - (64 + i) % 8) = 64 + (8 * (i / 8) + (7 - i % 8)) := by omega
  simp [hlt, heq]

/-- The swapped word has the bits of network order from its highest one on. -/
theorem cpuToBe64_bit (x : BitVec 64) (hi : i < 64) :
    (cpuToBe64 x).getLsbD (63 - i) = netBit x i := by
  unfold cpuToBe64 netBit
  simp only [BitVec.getLsbD_append, BitVec.getLsbD_extractLsb']
  split_ifs
  all_goals
    rw [decide_eq_true (by omega), Bool.true_and]
    congr 1
    omega

theorem eq_iff_samePrefix (a b : BitVec 64) : a = b ↔ SamePrefix 64 a b := by
  constructor
  · rintro rfl i -
    rfl
  · intro h
    apply BitVec.eq_of_getLsbD_eq
    intro j hj
    -- the position of bit `j` in network order
    have hbit := h (8 * (j / 8) + (7 - j % 8)) (by omega)
    unfold netBit at hbit
    have hback :
      8 * ((8 * (j / 8) + (7 - j % 8)) / 8) + (7 - (8 * (j / 8) + (7 - j % 8)) % 8) = j := by omega
    rw [hback] at hbit
    exact hbit

theorem sameBits_iff (a b : BitVec 64) (h0 : n ≠ 0) (hn : n ≤ 64) :
    sameBits a b n = true ↔ SamePrefix n a b := by
  unfold sameBits shiftRight64
  rw [decide_eq_true_eq, Nat.mod_eq_of_lt (by omega)]
  constructor
  · intro h i hi
    have hbit := congrArg (fun x => x.getLsbD (n - 1 - i)) h
    simp only [BitVec.getLsbD_ushiftRight] at hbit
    rw [show 64 - n + (n - 1 - i) = 63 - i by omega, cpuToBe64_bit a (by omega),
      cpuToBe64_bit b (by omega)] at hbit
    exact hbit
  · intro h
    apply BitVec.eq_of_getLsbD_eq
    intro j hj
    rw [BitVec.getLsbD_ushiftRight, BitVec.getLsbD_ushiftRight]
    by_cases hjn : j < n
    · have hbit := h (n - 1 - j) (by omega)
      rw [← cpuToBe64_bit a (by omega), ← cpuToBe64_bit b (by omega),
        show 63 - (n - 1 - j) = 64 - n + j by omega] at hbit
      exact hbit
    · rw [BitVec.getLsbD_of_ge _ _ (by omega), BitVec.getLsbD_of_ge _ _ (by omega)]

/-- A prefix of length zero compares the whole half. -/
theorem sameBits_zero (a b : BitVec 64) : sameBits a b 0 = true ↔ a = b := by
  rw [eq_iff_samePrefix, ← sameBits_iff a b (by decide) (Nat.le_refl 64)]
  rfl

theorem samePrefix_low (a b : TpaIp) (hn : n ≤ 64) :
    SamePrefix n (a.extractLsb' 0 64) (b.extractLsb' 0 64) ↔ SamePrefix n a b := by
  constructor
  · intro h i hi
    rw [← netBit_low a (by omega), ← netBit_low b (by omega)]
    exact h i hi
  · intro h i hi
    rw [netBit_low a (by omega), netBit_low b (by omega)]
    exact h i hi

theorem samePrefix_high (a b : TpaIp) (hlo : 64 < n) (hn : n ≤ 128) :
    SamePrefix n a b ↔ SamePrefix 64 a b ∧
      SamePrefix (n - 64) (a.extractLsb' 64 64) (b.extractLsb' 64 64) := by
  constructor
  · intro h
    refine ⟨fun i hi => h i (by omega), fun i hi => ?_⟩
    rw [netBit_high a (by omega), netBit_high b (by omega)]
    exact h (64 + i) (by omega)
  · rintro ⟨hl, hh⟩ i hi
    by_cases h64 : i < 64
    · exact hl i h64
    · have hbit := hh (i - 64) (by omega)
      rw [netBit_high a (by omega), netBit_high b (by omega), Nat.add_sub_cancel' (by omega)]
        at hbit
      exact hbit

theorem inSameSubnet_iff (a b : TpaIp) (h0 : n ≠ 0) (hn : n ≤ 128) :
    inSameSubnet a b n = true ↔ SamePrefix n a b := by
  unfold inSameSubnet
  split
  · next hlo =>
    rw [Bool.and_eq_true, decide_eq_true_eq, eq_iff_samePrefix, samePrefix_low a b (Nat.le_refl 64),
      sameBits_iff _ _ (by omega) (by omega), ← samePrefix_high a b hlo hn]
  · next hhi => rw [sameBits_iff _ _ h0 (by omega), samePrefix_low a b (by omega)]

/-- The IPv6 next hop is right for every pair of addresses, but for a prefix of length zero only
where the first halves agree: its shift is by the whole width. -/
theorem ipv6_nextHop_iff (a b : TpaIp) (hn : n ≤ 128) :
    ((inSameSubnet a b n = true ↔ SamePrefix n a b) ∧
      ∀ dev : NeighDev, dev.ip6 = a → dev.prefixlen = n → tpaIpIsIpv4 b = false →
        neighTargetIp dev b = if SamePrefix n a b then b else dev.gw6) ↔
      (n ≠ 0 ∨ a.extractLsb' 0 64 = b.extractLsb' 0 64) := by
  have hzero : SamePrefix 0 a b := fun i hi => absurd hi (Nat.not_lt_zero i)
  have htarget : (inSameSubnet a b n = true ↔ SamePrefix n a b) →
      ∀ dev : NeighDev, dev.ip6 = a → dev.prefixlen = n → tpaIpIsIpv4 b = false →
        neighTargetIp dev b = if SamePrefix n a b then b else dev.gw6 := by
    rintro hiff dev rfl rfl h6
    unfold neighTargetIp
    rw [h6, if_neg Bool.false_ne_true]
    exact if_congr hiff rfl rfl
  constructor
  · rintro ⟨hiff, -⟩
    by_contra hno
    rw [not_or, not_not] at hno
    obtain ⟨rfl, hne⟩ := hno
    exact hne ((sameBits_zero _ _).mp (hiff.mpr hzero))
  · intro hcond
    have hiff : inSameSubnet a b n = true ↔ SamePrefix n a b := by
      by_cases h0 : n = 0
      · subst h0
        have heq := hcond.resolve_left (not_not.mpr rfl)
        exact iff_of_true ((sameBits_zero _ _).mpr heq) hzero
      · exact inSameSubnet_iff a b h0 hn
    exact ⟨hiff, htarget hiff⟩

def linkLocalIp : TpaIp := 0x010000000000000000000000000080fe

def documentationIp : TpaIp := 0x010000000000000000000000b80d0120

theorem ipv6_nextHop_slash64 :
    (64 ≤ 128) ∧ ((inSameSubnet linkLocalIp documentationIp 64 = true ↔
        SamePrefix 64 linkLocalIp documentationIp) ∧
      ∀ dev : NeighDev, dev.ip6 = linkLocalIp → dev.prefixlen = 64 →
        tpaIpIsIpv4 documentationIp = false →
          neighTargetIp dev documentationIp =
            if SamePrefix 64 linkLocalIp documentationIp then documentationIp else dev.gw6) :=
  ⟨by decide, (ipv6_nextHop_iff linkLocalIp documentationIp (by decide)).mpr (.inl (by decide))⟩

/-- Without a configured prefix length every destination is on the link, but goes to the gateway. -/
theorem ipv6_noPrefix_gateway :
    SamePrefix 0 linkLocalIp documentationIp ∧ inSameSubnet linkLocalIp documentationIp 0 = false ∧
      tpaIpIsIpv4 documentationIp = false ∧
      ∀ gw : TpaIp,
        neighTargetIp { ip6 := linkLocalIp, prefixlen := 0, gw6 := gw } documentationIp = gw := by
  have hfar : inSameSubnet linkLocalIp documentationIp 0 = false := by decide
  have h6 : tpaIpIsIpv4 documentationIp = false := by decide
  refine ⟨by decide, hfar, h6, fun gw => ?_⟩
  simp only [neighTargetIp, h6, hfar, Bool.false_eq_true, if_false]

end LibTpa
