/- LibTpa/Snd/Deflation
   digest: A partial ACK in fast retransmission takes from the congestion window. -/

import LibTpa.Input.Ack
import LibTpa.Snd.CcFrame
import LibTpa.Snd.Cwnd

set_option autoImplicit false

namespace LibTpa

/-- The ACK covers new data below `snd_recover`, and its echoed time stamp does not show
the retransmission to be false. -/
structure PartialAck (s : St) (p : Packet) (acked : U32) : Prop where
  stage : s.tsock.snd.retransStage = .fastRetrans
  acked : acked ≠ 0
  below : seqLt p.ack s.tsock.cc.sndRecover
  kept : ¬ (s.tsock.snd.retransTsVal ≠ 0 ∧ seqLt p.tsEcr s.tsock.snd.retransTsVal)

def deflated (cfg : TcpCfg) (c : Cc) (acked : U32) : Int :=
  max (c.sndMss.toNat : Int) (min (cfg.cwndMax.toNat : Int)
    (max (c.sndCwndOrig.toNat : Int) ((c.sndCwnd.toNat : Int) - acked.toNat)))

structure Deflates (cfg : TcpCfg) (s : St) (p : Packet) (acked : U32) : Prop where
  stays : (handleFastRetransmit cfg s p acked).tsock.snd.retransStage = .fastRetrans
  exact : ((handleFastRetransmit cfg s p acked).tsock.cc.sndCwnd.toNat : Int) =
    deflated cfg s.tsock.cc acked
  shrinks : (handleFastRetransmit cfg s p acked).tsock.cc.sndCwnd.toNat ≤ s.tsock.cc.sndCwnd.toNat

/-- The ACK covers no more than the window, or one of the limits hides the difference that
has wrapped. -/
def DeflationFits (cfg : TcpCfg) (c : Cc) (acked : U32) : Prop :=
  acked.toNat ≤ c.sndCwnd.toNat ∨
    min cfg.cwndMax.toNat (c.sndCwnd.toNat + 2 ^ 32 - acked.toNat) ≤
      max c.sndMss.toNat c.sndCwndOrig.toNat

instance (cfg : TcpCfg) (c : Cc) (acked : U32) : Decidable (DeflationFits cfg c acked) :=
  inferInstanceAs (Decidable (_ ∨ _))

/-- What fast retransmission starts from: at least one segment and the saved window. -/
def Inflated (cfg : TcpCfg) (c : Cc) : Prop :=
  c.sndMss.toNat ≤ c.sndCwnd.toNat ∧ min cfg.cwndMax.toNat c.sndCwndOrig.toNat ≤ c.sndCwnd.toNat

instance (cfg : TcpCfg) (c : Cc) : Decidable (Inflated cfg c) := inferInstanceAs (Decidable (_ ∧ _))

variable {s : St} {p : Packet} {acked : U32}

theorem PartialAck.result (cfg : TcpCfg) (h : PartialAck s p acked) :
    (handleFastRetransmit cfg s p acked).tsock.snd.retransStage = .fastRetrans ∧
      (handleFastRetransmit cfg s p acked).tsock.cc.sndCwnd =
        (setCwnd cfg s.tsock.cc
          (maxU32 s.tsock.cc.sndCwndOrig (s.tsock.cc.sndCwnd - acked))).sndCwnd := by
  have htry : tryFastRetrans cfg s p = s :=
    if_neg fun hn => absurd (hn.1.symm.trans h.stage) (by decide)
  unfold handleFastRetransmit
  rw [if_neg fun hn => hn.2 h.stage]
  dsimp only
  rw [htry, if_pos h.stage]
  unfold inFastRetrans
  dsimp only
  rw [if_neg h.acked, if_pos h.below, if_neg h.kept]
  obtain ⟨s₁, hs₁⟩ : ∃ s₁, s₁ = (s.setSnd { s.tsock.snd with retransTsVal := 0 }).setCc
    (setCwnd cfg s.tsock.cc (maxU32 s.tsock.cc.sndCwndOrig (s.tsock.cc.sndCwnd - acked))) :=
      ⟨_, rfl⟩
  rw [← hs₁]
  obtain ⟨budget, hb⟩ : ∃ b, b = if s₁.tsock.rcv.sackOk
    then minU32 s.tsock.cc.sackedBytes s.tsock.cc.sndSsthresh
    else s.tsock.cc.sndMss.setWidth 32 := ⟨_, rfl⟩
  have hkept := CcKept.tcpFastRetrans cfg s₁ budget
  rw [← hb]
  generalize tcpFastRetrans cfg s₁ budget = s₂ at hkept ⊢
  refine ⟨?_, ?_⟩
  · exact hkept.stage.trans (by rw [hs₁]; exact h.stage)
  · show s₂.tsock.cc.sndCwnd = _
    rw [hkept.cc, hs₁]
    rfl

private theorem toNat_sub_wraps (a b : U32) : (a - b).toNat =
    if b.toNat ≤ a.toNat then a.toNat - b.toNat else a.toNat + 2 ^ 32 - b.toNat := by
  have := a.isLt
  have := b.isLt
  rw [BitVec.toNat_sub]
  split <;> omega

/-- A partial ACK deflates the window if and only if it covers no more than the window, which
was inflated before. -/
theorem PartialAck.deflates_iff (cfg : TcpCfg) (h : PartialAck s p acked) :
    Deflates cfg s p acked ↔ DeflationFits cfg s.tsock.cc acked ∧ Inflated cfg s.tsock.cc := by
  obtain ⟨hstage, hcwnd⟩ := h.result cfg
  have hnew : (handleFastRetransmit cfg s p acked).tsock.cc.sndCwnd.toNat =
      max s.tsock.cc.sndMss.toNat (min cfg.cwndMax.toNat (max s.tsock.cc.sndCwndOrig.toNat
        (s.tsock.cc.sndCwnd - acked).toNat)) := by
    rw [hcwnd, setCwnd_toNat, toNat_maxU32]
  rw [toNat_sub_wraps] at hnew
  have hlt := acked.isLt
  unfold DeflationFits Inflated
  constructor
  · intro hd
    have hexact := hd.exact
    have hle := hd.shrinks
    unfold deflated at hexact
    split at hnew <;> omega
  · intro hc
    refine ⟨hstage, ?_, ?_⟩
    · unfold deflated
      split at hnew <;> omega
    · split at hnew <;> omega

/-- The socket as `tcp_rcv_ack` hands it to `handle_fast_retransmit`. -/
def ackReaches (cfg : TcpCfg) (s : St) (p : Packet) : St :=
  ackData cfg (ackFin cfg (countDupack s p) p.ack) (ackedLen s.tsock.snd p.ack)

end LibTpa
