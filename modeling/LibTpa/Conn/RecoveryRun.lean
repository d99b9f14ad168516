/- LibTpa/Conn/RecoveryRun
   digest: In every run, what a partial ACK deflates was inflated before. -/

import LibTpa.Conn.Recovery

set_option autoImplicit false

namespace LibTpa

open Lib.Run

variable {cfg : TcpCfg} {s s' : St}

/-! Events without a packet. -/

structure Eases (cfg : TcpCfg) (t t' : TcpSock) : Prop where
  inv : CwndInv cfg t → CwndInv cfg t'
  stage : t'.snd.retransStage = .fastRetrans → t.snd.retransStage = .fastRetrans

theorem Eases.of_wnds {t t' : TcpSock} (h : wnds t' = wnds t) : Eases cfg t t' :=
  ⟨fun hi => hi.of_wnds h, fun hs => (congrArg (·.2.2.2) h).symm.trans hs⟩

theorem Eases.trans {t t' t'' : TcpSock} (h : Eases cfg t t') (h' : Eases cfg t' t'') :
    Eases cfg t t'' := ⟨fun hi => h'.inv (h.inv hi), fun hs => h.stage (h'.stage hs)⟩

private theorem rto_eases (cfg : TcpCfg) (s : St) :
    Eases cfg s.tsock (tcpTimeoutRto cfg s).tsock := by
  have hstamp : ∀ s₁ : St, wnds (clearSacked (stampRtoStart s₁)).tsock = wnds s₁.tsock := by
    intro s₁
    rw [clearSacked_tsock]
    change wnds (stampRtoStart s₁).tsock = _
    unfold stampRtoStart
    split
    · split <;> rfl
    · rfl
  have hrestart : ∀ s₁ : St, wnds s₁.tsock = wnds s.tsock →
      Eases cfg s.tsock (rtoRestart s₁).tsock := by
    intro s₁ h₁
    have hmss := s₁.tsock.cc.sndMss.isLt
    refine ⟨fun h => ⟨?_, (h.of_wnds h₁).orig, fun hs => nomatch hs⟩, fun hs => nomatch hs⟩
    change (s₁.tsock.cc.sndMss.setWidth 32 : U32).toNat ≤ _
    rw [BitVec.toNat_setWidth]
    omega
  obtain ⟨s₁, hs₁⟩ : ∃ s₁, s₁ = s.setCc { s.tsock.cc with rtoShift := s.tsock.cc.rtoShift + 1 } :=
    ⟨_, rfl⟩
  have h₁ : wnds s₁.tsock = wnds s.tsock := by
    rw [hs₁]
    rfl
  unfold tcpTimeoutRto
  dsimp only
  rw [← hs₁]
  split
  · exact .of_wnds ((timedOut_closed cfg s₁ _).2.wnds.trans h₁)
  · have hnew := hrestart _ ((hstamp s₁).trans h₁)
    have hkept := CcKept.tcpRetrans cfg (rtoRestart (clearSacked (stampRtoStart s₁)))
    generalize tcpRetrans cfg (rtoRestart (clearSacked (stampRtoStart s₁))) = s₂ at hkept
    refine ⟨fun h => ?_, fun hs => hnew.stage (hkept.stage.symm.trans hs)⟩
    have hinv := (hnew.inv h).of_kept hkept
    exact hinv

/-! Runs. -/

/-- The sums of the window hold for the ACK that the event processes. -/
def WindowsFit (cfg : TcpCfg) (s : St) (e : ConnEv) : Prop :=
  ∀ p ∈ processed cfg s e, AckFits s.tsock p.ack

instance WindowsFit.decidable (cfg : TcpCfg) (s : St) (e : ConnEv) :
    Decidable (WindowsFit cfg s e) :=
  inferInstanceAs (Decidable (∀ p ∈ processed cfg s e, AckFits s.tsock p.ack))

private theorem RecoveryInv.other (h : RecoveryInv cfg s.tsock) (e : ConnEv)
    (hp : ∀ p, e ≠ .packet p) (hb : e ≠ .burstEnd) : RecoveryInv cfg (sockStep cfg s e).tsock := by
  have hst := (sockStep_sustains cfg s e hp hb).state
  have he : Eases cfg s.tsock (sockStep cfg s e).tsock := by
    rcases sockStep_coasts cfg s e hp hb with hc | ⟨s₁, hc, -, heq⟩
    · exact .of_wnds hc.wnds
    · rw [heq]
      exact (Eases.of_wnds hc.wnds).trans (rto_eases cfg s₁)
  exact ⟨he.inv h.toCwndInv, fun hs hf => h.early (hst.early hs) (he.stage hf)⟩

theorem sockStep_recovery (e : ConnEv) (h : RecoveryInv cfg s.tsock) (hfed : Fed cfg s e)
    (hfit : WindowsFit cfg s e) : RecoveryInv cfg (sockStep cfg s e).tsock := by
  have hk : Knows cfg (fun q => AckFits s.tsock q.ack) s e := by
    intro p hp q hq
    rw [(hq.header (hfed.apart p hp)).2]
    exact hfit p hp
  cases e with
  | packet p => exact (inputPacket_run cfg s p hk).recovery h
  | burstEnd => exact ((inputHead_run cfg s hk).recovery h).beside (inputPut_beside cfg _)
  | _ => exact h.other _ (by simp) (by simp)

theorem Opened.recovery (h : Opened cfg s) : RecoveryInv cfg s.tsock := by
  have hfresh : ∀ s₁ : St, s₁.tsock.cc.sndCwnd = 0 → s₁.tsock.cc.sndCwndOrig = 0 →
      s₁.tsock.snd.retransStage = .none → RecoveryInv cfg s₁.tsock := by
    intro s₁ hcwnd horig hstage
    have hne : s₁.tsock.snd.retransStage ≠ .fastRetrans := by
      rw [hstage]
      decide
    exact ⟨⟨by rw [hcwnd]; decide, by rw [horig]; decide, fun hs => absurd hs hne⟩, fun _ => hne⟩
  cases h with
  | connect w sid isIpv6 => exact hfresh _ rfl rfl rfl
  | accept w sid isIpv6 p =>
    obtain ⟨b, isn, mss, wscale, nego, ht⟩ :=
      passiveTsockInit_tsock cfg ⟨w, tsockInit cfg sid isIpv6⟩ p
    generalize (passiveTsockInit cfg ⟨w, tsockInit cfg sid isIpv6⟩ p).1 = s₁ at ht
    have hw := (xmitSyn_coasts cfg s₁ (by rw [ht]; rfl)).wnds
    rw [ht] at hw
    simp only [wnds, Prod.mk.injEq] at hw
    exact hfresh _ hw.1 hw.2.1 hw.2.2.2

theorem recovery_reach {s₀ : St} {c : Conn} (ho : Opened cfg s₀)
    (hr : Reach (connStep cfg) (fun c e => Fed cfg c.st e ∧ WindowsFit cfg c.st e)
      (Conn.start s₀) c) : RecoveryInv cfg c.st.tsock := by
  refine hr.invariant (I := fun c => RecoveryInv cfg c.st.tsock) ho.recovery fun c e h hok => ?_
  unfold connStep
  split
  · exact h
  · exact sockStep_recovery e h hok.1 hok.2

/-- In every state, a partial ACK deflates the window if and only if it covers no more
than the window, which was inflated before. In a run whose windows fit, every partial ACK
finds the window inflated. -/
theorem partialAck_deflates_iff (cfg : TcpCfg) :
    (∀ (s : St) (p : Packet) (acked : U32), PartialAck s p acked →
      (Deflates cfg s p acked ↔ DeflationFits cfg s.tsock.cc acked ∧ Inflated cfg s.tsock.cc)) ∧
    ∀ (s₀ : St) (c : Conn), Opened cfg s₀ →
      Reach (connStep cfg) (fun c e => Fed cfg c.st e ∧ WindowsFit cfg c.st e) (Conn.start s₀) c →
      ∀ (p : Packet) (o : TcpOpts) (acked : U32), AckFits c.st.tsock p.ack →
        PartialAck (ackSack (ackReaches cfg c.st p) o) p acked →
        (Deflates cfg (ackSack (ackReaches cfg c.st p) o) p acked ↔
          DeflationFits cfg (ackSack (ackReaches cfg c.st p) o).tsock.cc acked) := by
  refine ⟨fun s p acked h => h.deflates_iff cfg, fun s₀ c ho hr p o acked hfit h => ?_⟩
  have hinv := handed_wnd o (recovery_reach ho hr).toCwndInv hfit
  rw [h.deflates_iff cfg]
  exact and_iff_left (hinv.inflated h.stage)

theorem smallInit_le : (128 : U32).toNat ≤ 2 ^ 30 := by decide

theorem noText_fits : ([] : List Byte).length < 2 ^ 16 := by decide

def smallWindowCfg : TcpCfg :=
  { enableTs := false, enableSack := false, cwndInit := 128, cwndInit_le := smallInit_le }

/-- A peer that announces segments of eight bytes has sent its SYN. -/
def smallWindow : St :=
  xmitSyn smallWindowCfg (passiveTsockInit smallWindowCfg ⟨Worker.boot 8
    { allocOk := List.replicate 64 true, ethOk := List.replicate 64 true },
    tsockInit smallWindowCfg 0 false⟩
    (.parsed 0 100 0 65535 { syn := true } [2, 4, 0, 8] [] noText_fits)).1

def peerAck (id : PktId) (ack : U32) : List ConnEv :=
  [.packet (.bare id 101 ack 65535 { ack := true }), .burstEnd]

def peerAcks (id n : Nat) (ack : U32) : List ConnEv :=
  (List.range n).flatMap fun i => peerAck (id + i) ack

theorem twoWindows_fits : (List.replicate 256 (0 : Byte)).length < 2 ^ 32 := by
  rw [List.length_replicate]
  decide

/-- Two windows of data are written and the first is sent; sixteen duplicate ACKs inflate
the window, and the second is sent, too. -/
def inflatedRun : List ConnEv :=
  peerAck 1 1 ++ [.write [⟨List.replicate 256 0, twoWindows_fits, true, 0, 0, none⟩], .output] ++
    peerAcks 2 16 1 ++ [.output]

/-- The first window is acknowledged, which halves the congestion window; three duplicate
ACKs begin a second recovery with all of the second window in flight. -/
def secondRecovery : List ConnEv := inflatedRun ++ peerAck 20 129 ++ peerAcks 21 3 129

/-- One byte short of everything. -/
def almostAll : Packet := .bare 40 101 256 65535 { ack := true }

/-- The ACK of 127 bytes meets a window of 99: the difference wraps, and the window jumps
from 99 bytes to a gigabyte. -/
theorem almostAll_inflates :
    let c := exec (connStep smallWindowCfg) (Conn.start smallWindow) secondRecovery
    let s := ackReaches smallWindowCfg c.st almostAll
    Opened smallWindowCfg smallWindow ∧ PartialAck s almostAll 127 ∧ s.tsock.cc.sndCwnd = 99 ∧
      deflated smallWindowCfg s.tsock.cc 127 = 64 ∧
      (handleFastRetransmit smallWindowCfg s almostAll 127).tsock.cc.sndCwnd = 1073741824 ∧
      (exec (connStep smallWindowCfg) c (peerAck 40 256)).st.tsock.cc.sndCwnd = 1073741824 ∧
      ¬ Deflates smallWindowCfg s almostAll 127 := by
  refine ⟨.accept _ _ _ _ ⟨by decide, by decide⟩, ⟨?_, ?_, ?_, ?_⟩, ?_, ?_, ?_, ?_, ?_⟩
  all_goals try decide +kernel
  intro h
  have hle := h.shrinks
  revert hle
  decide +kernel

def firstAck : Packet := .bare 20 101 9 65535 { ack := true }

theorem partialAck_deflates_first :
    let c := exec (connStep smallWindowCfg) (Conn.start smallWindow) inflatedRun
    let s := ackReaches smallWindowCfg c.st firstAck
    s.tsock.cc.sndCwnd = 256 ∧ Deflates smallWindowCfg s firstAck 8 ∧
      (Deflates smallWindowCfg (ackSack s {}) firstAck 8 ↔
        DeflationFits smallWindowCfg (ackSack s {}).tsock.cc 8) := by
  have hopen : Opened smallWindowCfg smallWindow := .accept _ _ _ _ ⟨by decide, by decide⟩
  have hrun : Admitted (connStep smallWindowCfg)
      (fun c e => Fed smallWindowCfg c.st e ∧ WindowsFit smallWindowCfg c.st e)
      (Conn.start smallWindow) inflatedRun := by decide +kernel
  obtain ⟨hstate, hlaw⟩ := partialAck_deflates_iff smallWindowCfg
  refine ⟨by decide +kernel, (hstate _ _ _ ⟨?_, ?_, ?_, ?_⟩).mpr ⟨?_, ?_⟩,
    hlaw _ _ hopen (Reach.refl.exec hrun) firstAck {} 8 ?_ ⟨?_, ?_, ?_, ?_⟩⟩
  all_goals decide +kernel

end LibTpa
