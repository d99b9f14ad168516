/- LibTpa/Input/Negotiation
   digest: The segment size, the window and the threshold that a handshake settles. -/

import LibTpa.Input.Frame

set_option autoImplicit false

namespace LibTpa

variable {cfg : TcpCfg} {s : St} {p : Packet}

def synOpts (p : Packet) : TcpOpts := (parseTcpOpts p).2.1

def stampsOn (s : St) (p : Packet) : Bool := s.tsock.nego.tsEnabled && (synOpts p).hasTs

def announcedMss (cfg : TcpCfg) (s : St) (p : Packet) : Nat :=
  (calcSndMss cfg s.tsock.isIpv6 (stampsOn s p) false 0).toNat

def grantedWnd (s : St) (q : Packet) : Nat :=
  if s.tsock.state = .synSent then q.wnd.toNat else q.wnd.toNat * 2 ^ s.tsock.cc.sndWscale

/-- The numbers that a handshake settles: the segment size after the options of `p`,
and the window and the threshold after `q` has established `s₁`. -/
structure HandshakeExact (cfg : TcpCfg) (s : St) (p : Packet) (s₁ : St) (q : Packet) : Prop where
  mss_pos : 1 ≤ (processTcpOptNegotiation cfg s p).1.tsock.cc.sndMss.toNat
  mss_le : (processTcpOptNegotiation cfg s p).1.tsock.cc.sndMss.toNat +
    (if stampsOn s p then 12 else 0) ≤ announcedMss cfg s p
  wnd : (tsockEstablished cfg s₁ q).tsock.cc.sndWnd.toNat = grantedWnd s₁ q
  ssthresh : (tsockEstablished cfg s₁ q).tsock.cc.sndSsthresh.toNat =
    min (2 ^ 20) (64 * grantedWnd s₁ q)

/-- The peer announces an MSS that the time stamps alone use up. -/
def TinyMss (s : St) (p : Packet) : Prop :=
  stampsOn s p = true ∧ 1 ≤ (synOpts p).mss.toNat ∧ (synOpts p).mss.toNat ≤ 12

instance TinyMss.decidable (s : St) (p : Packet) : Decidable (TinyMss s p) :=
  inferInstanceAs (Decidable (_ ∧ _))

/-- The window is below 64 MiB, or 16 KiB or more above a multiple of 64 MiB. -/
def ThresholdFits (s : St) (q : Packet) : Prop :=
  grantedWnd s q < 2 ^ 26 ∨ 2 ^ 14 ≤ grantedWnd s q % 2 ^ 26

/-! ### The segment size -/

private def ownMss (cfg : TcpCfg) (isIpv6 hasTs : Bool) : Nat :=
  if 0 < cfg.usrSndMss then cfg.usrSndMss + (if hasTs then tcpOptTsSpace else 0)
  else defaultMtu - (if isIpv6 then 40 else 20) - 20

private def peerMss (m : U16) : Nat := if m = 0 then tcpMssDefault else m.toNat

private theorem ownMss_bounds (cfg : TcpCfg) (isIpv6 hasTs : Bool) :
    1 + (if hasTs then 12 else 0) ≤ ownMss cfg isIpv6 hasTs ∧
      ownMss cfg isIpv6 hasTs < 2 ^ 16 - 12 := by
  have hle := cfg.mss_le
  unfold ownMss tcpOptTsSpace defaultMtu
  cases hasTs <;> cases isIpv6 <;> simp only [Bool.false_eq_true, if_false, if_true] <;>
    split <;> omega

private theorem peerMss_bounds (m : U16) : 1 ≤ peerMss m ∧ peerMss m < 2 ^ 16 := by
  have hlt := m.isLt
  unfold peerMss tcpMssDefault
  split
  · decide
  · next h =>
    have hne : m.toNat ≠ 0 := fun h0 => h (BitVec.eq_of_toNat_eq h0)
    omega

private theorem peerMss_le_iff (m : U16) : peerMss m ≤ 12 ↔ 1 ≤ m.toNat ∧ m.toNat ≤ 12 := by
  unfold peerMss tcpMssDefault
  split
  · next h =>
    rw [h]
    decide
  · next h =>
    have hne : m.toNat ≠ 0 := fun h0 => h (BitVec.eq_of_toNat_eq h0)
    omega

private theorem calcSndMss_announced (cfg : TcpCfg) (isIpv6 hasTs : Bool) :
    (calcSndMss cfg isIpv6 hasTs false 0).toNat = ownMss cfg isIpv6 hasTs := by
  have hlt := (ownMss_bounds cfg isIpv6 hasTs).2
  change (BitVec.ofNat 16 (ownMss cfg isIpv6 hasTs)).toNat = _
  rw [BitVec.toNat_ofNat]
  omega

private theorem calcSndMss_passive (cfg : TcpCfg) (isIpv6 hasTs : Bool) (m : U16) :
    (calcSndMss cfg isIpv6 hasTs true m).toNat = min (ownMss cfg isIpv6 hasTs) (peerMss m) := by
  have hlt := (ownMss_bounds cfg isIpv6 hasTs).2
  change (BitVec.ofNat 16 (min (ownMss cfg isIpv6 hasTs) (peerMss m))).toNat = _
  rw [BitVec.toNat_ofNat]
  omega

theorem negotiate_mss_iff (cfg : TcpCfg) (s : St) (p : Packet) :
    1 ≤ (processTcpOptNegotiation cfg s p).1.tsock.cc.sndMss.toNat ∧
      (processTcpOptNegotiation cfg s p).1.tsock.cc.sndMss.toNat +
        (if stampsOn s p then 12 else 0) ≤ announcedMss cfg s p ↔ ¬ TinyMss s p := by
  have hown := ownMss_bounds cfg s.tsock.isIpv6 (stampsOn s p)
  have hpeer := peerMss_bounds (synOpts p).mss
  have htiny := peerMss_le_iff (synOpts p).mss
  have hpassive := calcSndMss_passive cfg s.tsock.isIpv6 (stampsOn s p) (synOpts p).mss
  have hmss : (processTcpOptNegotiation cfg s p).1.tsock.cc.sndMss =
      if stampsOn s p then calcSndMss cfg s.tsock.isIpv6 (stampsOn s p) true (synOpts p).mss -
        BitVec.ofNat 16 tcpOptTsSpace
      else calcSndMss cfg s.tsock.isIpv6 (stampsOn s p) true (synOpts p).mss := rfl
  rw [hmss, announcedMss, calcSndMss_announced, TinyMss, ← htiny]
  generalize calcSndMss cfg s.tsock.isIpv6 (stampsOn s p) true (synOpts p).mss = m at hpassive
  generalize ownMss cfg s.tsock.isIpv6 (stampsOn s p) = own at hown hpassive
  generalize peerMss (synOpts p).mss = peer at hpeer hpassive htiny
  generalize stampsOn s p = on at hown ⊢
  cases on with
  | false =>
    simp only [Bool.false_eq_true, if_false, false_and, not_false_iff, iff_true] at hown ⊢
    omega
  | true =>
    simp only [if_true, true_and] at hown ⊢
    have hts : (BitVec.ofNat 16 tcpOptTsSpace).toNat = 12 := rfl
    have hm := m.isLt
    rw [BitVec.toNat_sub, hts]
    omega

/-! ### The window and the threshold -/

private theorem rttUpdate_wnd (cfg : TcpCfg) (c : Cc) (rtt : U32) :
    (rttUpdate cfg c rtt).sndWnd = c.sndWnd ∧ (rttUpdate cfg c rtt).sndSsthresh =
      c.sndSsthresh := by
  unfold rttUpdate
  dsimp only
  split <;> exact ⟨rfl, rfl⟩

private theorem tsockSetState_cc (cfg : TcpCfg) (s : St) (st : TcpState) :
    (tsockSetState cfg s st).tsock.cc = s.tsock.cc := by
  unfold tsockSetState
  dsimp only
  split <;> rfl

private def wordWnd (s : St) (q : Packet) : U32 :=
  if s.tsock.state = .synSent then q.wnd.setWidth 32 else scaledWnd q s.tsock.cc.sndWscale

private theorem tsockEstablished_wnd (cfg : TcpCfg) (s : St) (q : Packet) :
    (tsockEstablished cfg s q).tsock.cc.sndWnd = wordWnd s q ∧
      (tsockEstablished cfg s q).tsock.cc.sndSsthresh = minU32 (2 ^ 20) (wordWnd s q * 64) := by
  unfold tsockEstablished
  dsimp only
  change (tsockSetState cfg _ .established).tsock.cc.sndWnd = _ ∧
    (tsockSetState cfg _ .established).tsock.cc.sndSsthresh = _
  rw [tsockSetState_cc]
  exact rttUpdate_wnd cfg _ _

private theorem wordWnd_toNat (s : St) (q : Packet) (h : s.tsock.cc.sndWscale ≤ tcpWscaleMax) :
    (wordWnd s q).toNat = grantedWnd s q := by
  have hw := q.wnd.isLt
  have hfield : (q.wnd.setWidth 32 : U32).toNat = q.wnd.toNat := by
    rw [BitVec.toNat_setWidth]
    omega
  unfold wordWnd grantedWnd scaledWnd
  split
  · exact hfield
  · have hpow : 2 ^ s.tsock.cc.sndWscale ≤ 2 ^ 14 := Nat.pow_le_pow_right (by decide) h
    have hprod : q.wnd.toNat * 2 ^ s.tsock.cc.sndWscale ≤ q.wnd.toNat * 2 ^ 14 :=
      Nat.mul_le_mul_left _ hpow
    rw [BitVec.toNat_shiftLeft, hfield, Nat.shiftLeft_eq]
    exact Nat.mod_eq_of_lt (by omega)

/-- The product with 64 wraps at 64 MiB. -/
private theorem threshold_iff (w : U32) :
    (minU32 (2 ^ 20) (w * 64)).toNat = min (2 ^ 20) (64 * w.toNat) ↔
    w.toNat < 2 ^ 26 ∨ 2 ^ 14 ≤ w.toNat % 2 ^ 26 := by
  have hw := w.isLt
  have hmul : (w * 64).toNat = w.toNat * 64 % 2 ^ 32 := rfl
  have hcap : ((2 : U32) ^ 20).toNat = 2 ^ 20 := rfl
  rw [toNat_minU32, hmul, hcap]
  omega

theorem established_wnd_iff (cfg : TcpCfg) (s : St) (q : Packet)
    (h : s.tsock.cc.sndWscale ≤ tcpWscaleMax) :
    (tsockEstablished cfg s q).tsock.cc.sndWnd.toNat = grantedWnd s q ∧
      ((tsockEstablished cfg s q).tsock.cc.sndSsthresh.toNat = min (2 ^ 20) (64 * grantedWnd s q) ↔
        ThresholdFits s q) := by
  obtain ⟨hwnd, hthresh⟩ := tsockEstablished_wnd cfg s q
  have hexact := wordWnd_toNat s q h
  rw [hwnd, hthresh, ThresholdFits, ← hexact]
  exact ⟨rfl, threshold_iff _⟩

theorem negotiated_wscale_le (cfg : TcpCfg) (s : St) (p : Packet) :
    (processTcpOptNegotiation cfg s p).1.tsock.cc.sndWscale ≤ tcpWscaleMax := by
  have hle := (parseTcpOpts_spec p).2
  change (if s.tsock.nego.wsEnabled && (parseTcpOpts p).2.1.hasWscale
    then (parseTcpOpts p).2.1.wscale
    else 0) ≤ _
  split
  · exact hle
  · exact Nat.zero_le _

/-- The handshake settles the right numbers if and only if the peer's MSS leaves room
for the time stamps and the product behind the threshold does not wrap. `s₁` is any
socket with the window scale that the options of `p` have settled. -/
theorem handshakeExact_iff (cfg : TcpCfg) (s : St) (p : Packet) (s₁ : St) (q : Packet)
    (h : s₁.tsock.cc.sndWscale = (processTcpOptNegotiation cfg s p).1.tsock.cc.sndWscale) :
    HandshakeExact cfg s p s₁ q ↔ ¬ TinyMss s p ∧ ThresholdFits s₁ q := by
  have hmss := negotiate_mss_iff cfg s p
  have hscale : s₁.tsock.cc.sndWscale ≤ tcpWscaleMax := h ▸ negotiated_wscale_le cfg s p
  obtain ⟨hwnd, hthresh⟩ := established_wnd_iff cfg s₁ q hscale
  constructor
  · intro hex
    exact ⟨hmss.mp ⟨hex.mss_pos, hex.mss_le⟩, hthresh.mp hex.ssthresh⟩
  · rintro ⟨htiny, hfits⟩
    obtain ⟨hpos, hle⟩ := hmss.mpr htiny
    exact ⟨hpos, hle, hwnd, hthresh.mpr hfits⟩

def synReceiver : St := ⟨Worker.boot 0 {}, tsockInit {} 0 false⟩

def mssSyn (mss : Byte) : Packet :=
  { Packet.bare 0 100 0 0 { syn := true } with
    optLen := 16
    optArea := [2, 4, 0, mss, 1, 1, 8, 10, 0, 0, 0, 9, 0, 0, 0, 0] }

def wideSyn : Packet :=
  { Packet.bare 0 100 0 0 { syn := true } with optLen := 4, optArea := [1, 3, 3, 14] }

def wideReceiver : St := (passiveTsockInit {} synReceiver wideSyn).1

theorem handshakeExact_wide :
    HandshakeExact {} synReceiver wideSyn wideReceiver (.bare 1 101 1 4095 { ack := true }) ∧
      grantedWnd wideReceiver (.bare 1 101 1 4095 { ack := true }) = 4095 * 2 ^ 14 := by
  refine ⟨(handshakeExact_iff {} synReceiver wideSyn wideReceiver _ (by decide +kernel)).mpr ?_,
    by decide +kernel⟩
  exact ⟨by decide +kernel, .inl (by decide +kernel)⟩

/-- An MSS of 8 with time stamps gives segments of 65532 bytes, an MSS of 12 empty
ones; a window of 64 MiB gives the threshold zero. -/
theorem handshake_wraps :
    (processTcpOptNegotiation {} synReceiver (mssSyn 8)).1.tsock.cc.sndMss = 65532 ∧
      (processTcpOptNegotiation {} synReceiver (mssSyn 12)).1.tsock.cc.sndMss = 0 ∧
      grantedWnd wideReceiver (.bare 1 101 1 4096 { ack := true }) = 2 ^ 26 ∧
      (tsockEstablished {} wideReceiver (.bare 1 101 1 4096 { ack := true })).tsock.cc.sndSsthresh =
        0 ∧
      ¬ HandshakeExact {} synReceiver (mssSyn 8) synReceiver (.bare 1 101 1 0 { ack := true }) ∧
      ¬ HandshakeExact {} synReceiver (mssSyn 12) synReceiver (.bare 1 101 1 0 { ack := true }) ∧
      ¬ HandshakeExact {} synReceiver wideSyn wideReceiver
        (.bare 1 101 1 4096 { ack := true }) := by
  refine ⟨by decide +kernel, by decide +kernel, by decide +kernel, by decide +kernel, ?_, ?_, ?_⟩
  · intro h
    exact absurd h.mss_le (by decide +kernel)
  · intro h
    exact absurd h.mss_pos (by decide +kernel)
  · intro h
    exact absurd h.ssthresh (by decide +kernel)

end LibTpa
