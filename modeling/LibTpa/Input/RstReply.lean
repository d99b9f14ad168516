/- LibTpa/Input/RstReply
   digest: Which resets are answered with a reset. -/

import LibTpa.Conn.FinRun
import LibTpa.Input.Reset
import LibTpa.Output.FlagPacket

set_option autoImplicit false

namespace LibTpa

open Lib.Run

variable {cfg : TcpCfg} {s s' s'' : St} {p : Packet}

/-- The segments that processing `p` adds to what the socket has sent. -/
def repliesTo (cfg : TcpCfg) (s : St) (p : Packet) : List TxPacket :=
  (tcpRcvProcess cfg s p).tsock.emitted.drop s.tsock.emitted.length

/-- The attempt that an immediate ACK makes after a first one has failed: for want of
a packet, or at the neighbour queue, which also resolves the address. -/
def GoesAgain (s : St) : Prop :=
  s.tsock.flags.ackNow = true ∧ s.tsock.netHdrLen ≠ 0 ∧
    s.worker.oracles.allocOk.tail.headD false = true ∧
    (s.worker.oracles.allocOk.headD false = true →
      s.tsock.flags.tcp.ack = false ∧ s.worker.nrPkt < txqBufSize) ∧
    (s.worker.oracles.allocOk.headD false = false → FlagRoom s)

instance GoesAgain.decidable (s : St) : Decidable (GoesAgain s) :=
  inferInstanceAs (Decidable (_ ∧ _))

/-- The reset is answered: as a half-open connection, or with a reset that an earlier
failure has left behind and that goes out with an immediate ACK. -/
def RstAnswered (s : St) (p : Packet) : Prop :=
  HalfOpen s p ∧ (FlagGoes s ∨ GoesAgain s) ∨
    ¬ HalfOpen s p ∧ s.tsock.flags.ackNow = true ∧ s.tsock.flags.tcp.rst = true ∧ FlagGoes s

instance RstAnswered.decidable (s : St) (p : Packet) : Decidable (RstAnswered s p) :=
  inferInstanceAs (Decidable (_ ∨ _))

structure Hushed (s s' : St) : Prop where
  emitted : s'.tsock.emitted = s.tsock.emitted
  hdr : s'.tsock.netHdrLen = s.tsock.netHdrLen
  tcp : s'.tsock.flags.tcp = s.tsock.flags.tcp
  now : s'.tsock.flags.ackNow = s.tsock.flags.ackNow
  arp : s'.tsock.flags.missingArp = s.tsock.flags.missingArp
  oracles : s'.worker.oracles = s.worker.oracles
  nrPkt : s'.worker.nrPkt = s.worker.nrPkt

namespace Hushed

theorem refl (s : St) : Hushed s s := ⟨rfl, rfl, rfl, rfl, rfl, rfl, rfl⟩

theorem trans (h : Hushed s s') (h' : Hushed s' s'') : Hushed s s'' :=
  ⟨h'.emitted.trans h.emitted, h'.hdr.trans h.hdr, h'.tcp.trans h.tcp, h'.now.trans h.now,
    h'.arp.trans h.arp, h'.oracles.trans h.oracles, h'.nrPkt.trans h.nrPkt⟩

theorem goes (h : Hushed s s') : FlagGoes s' ↔ FlagGoes s := by
  rw [FlagGoes, FlagGoes, FlagRoom, FlagRoom, h.hdr, h.oracles, h.arp, h.nrPkt]

theorem setTimers (s : St) (x : Timers) : Hushed s (s.setTimers x) :=
  ⟨rfl, rfl, rfl, rfl, rfl, rfl, rfl⟩

theorem setNego (s : St) (x : Nego) : Hushed s (s.setNego x) := ⟨rfl, rfl, rfl, rfl, rfl, rfl, rfl⟩

theorem packetFree (s : St) (p : Packet) : Hushed s (packetFree s p) :=
  ⟨rfl, rfl, rfl, rfl, rfl, rfl, rfl⟩

theorem tsockSetState (cfg : TcpCfg) (s : St) (st : TcpState) :
    Hushed s (tsockSetState cfg s st) := by
  unfold LibTpa.tsockSetState
  dsimp only
  split <;> exact ⟨rfl, rfl, rfl, rfl, rfl, rfl, rfl⟩

theorem tcpRcvRst (cfg : TcpCfg) (s : St) : Hushed s (tcpRcvRst cfg s).2 := by
  unfold LibTpa.tcpRcvRst
  split
  · exact refl s
  · dsimp only
    refine trans ?_ (.tsockSetState ..)
    split <;> exact ⟨rfl, rfl, rfl, rfl, rfl, rfl, rfl⟩

end Hushed

private theorem Reached.hushed (h : Reached cfg s s') : Hushed s s' := by
  by_cases hst : s.tsock.state = .synSent
  · rw [h.opening hst]
    exact .refl s
  · obtain ⟨-, n, hn⟩ := h.synced hst
    rw [hn]
    exact (Hushed.setTimers s _).trans (.setNego _ n)

theorem tcpRcvPkt_hushed (cfg : TcpCfg) (s : St) (hr : p.flags.rst = true) :
    (HalfOpen s p → (tcpRcvPkt cfg s p).2.1 = halfOpened cfg s p) ∧
      (¬ HalfOpen s p → Hushed s (tcpRcvPkt cfg s p).2.1) := by
  have hway := tcpRcvPkt_reset cfg s hr
  generalize (tcpRcvPkt cfg s p).2.1 = s₁ at hway
  cases hway with
  | ignored hh => exact ⟨fun h => absurd h hh, fun _ => .refl s⟩
  | refused _ hh _ hs => exact ⟨fun h => absurd h hh, fun _ => hs.hushed⟩
  | halfOpen hh => exact ⟨fun _ => rfl, fun h => absurd hh h⟩
  | taken s₁ hh _ hs => exact ⟨fun h => absurd h hh, fun _ => hs.hushed.trans (.tcpRcvRst cfg s₁)⟩

private theorem process_emitted (cfg : TcpCfg) (s : St) (p : Packet) {s₁ : St}
    (h : (tcpRcvPkt cfg s { p with toRead := p.segs }).2.1 = s₁) :
    ∃ q : TxPacket, q.flags = s₁.tsock.flags.tcp ∧ (tcpRcvProcess cfg s p).tsock.emitted =
      s₁.tsock.emitted ++ (if s₁.tsock.flags.ackNow = true ∧ FlagGoes s₁ then [q] else []) := by
  unfold tcpRcvProcess
  dsimp only
  generalize tcpRcvPkt cfg s { p with toRead := p.segs } = r at h ⊢
  obtain ⟨s₂, hs₂⟩ : ∃ s₂, s₂ = if r.1 ≠ none ∨ r.2.2.len = 0 then packetFree r.2.1 r.2.2
    else r.2.1 := ⟨_, rfl⟩
  have hhush : Hushed s₁ s₂ := by
    rw [hs₂, ← h]
    split
    · exact .packetFree ..
    · exact .refl _
  rw [← hs₂]
  refine ⟨flagPacket cfg s₂ (flagSeq s₂.tsock), hhush.tcp, ?_⟩
  rw [← hhush.now, ← hhush.emitted]
  split
  · next hnow =>
    simp only [hnow, true_and]
    rw [← if_congr hhush.goes rfl rfl]
    exact xmitFlagPacketWithSeq_emitted ..
  · next hnow =>
    rw [if_neg fun hc => hnow hc.1, List.append_nil]

private theorem failed_again {t : St} (cfg : TcpCfg) (seq : U32) (hr : t.tsock.flags.tcp.rst = true)
    (hno : ¬ FlagGoes t) {s₁ : St} (h : (xmitFlagPacketWithSeq cfg t seq).2 = s₁) :
    (s₁.tsock.flags.ackNow = true ∧ FlagGoes s₁) ∧ s₁.tsock.flags.tcp.rst = true ↔ GoesAgain t := by
  have hcase := xmitFlagPacketWithSeq_cases cfg t seq
  rw [h] at hcase
  cases hcase with
  | headless hdr => exact ⟨fun hc => absurd hdr hc.1.2.1, fun hc => absurd hdr hc.2.1⟩
  | dry hdr ha =>
    have hroom : FlagRoom (packetAlloc t).2 ↔ FlagRoom t := by
      rw [FlagRoom, FlagRoom, packetAlloc_tsock, packetAlloc_worker]
    rw [FlagGoes, GoesAgain, hroom, packetAlloc_tsock, packetAlloc_worker, ha]
    simp only [Bool.false_eq_true, false_implies, true_implies, true_and, hr, and_true]
  | refused _ hdr ha hroom hs =>
    have hgoes : FlagGoes s₁ ↔ t.tsock.netHdrLen ≠ 0 ∧
        t.worker.oracles.allocOk.tail.headD false = true ∧ t.worker.nrPkt < txqBufSize := by
      rw [FlagGoes, FlagRoom, hs.hdr, hs.alloc, hs.arp, hs.room]
      simp only [Bool.false_eq_true, false_implies, true_implies, true_and]
    rw [hgoes, GoesAgain, hs.now, hs.tcp, ha, Bool.and_eq_true, Bool.not_eq_true']
    simp only [Bool.true_eq_false, false_implies, true_implies, and_true, hr]
    tauto
  | sent _ hg => exact absurd hg hno

private theorem rst_free_iff {c : Prop} [Decidable c] {q : TxPacket} {f : TcpFlags}
    (hq : q.flags = f) :
    (∀ x ∈ (if c then [q] else []), x.flags.rst = false) ↔ ¬ (c ∧ f.rst = true) := by
  subst hq
  split
  · next hc =>
    rw [List.forall_mem_singleton]
    simp only [hc, true_and, Bool.not_eq_true]
  · next hc => exact ⟨fun _ h => hc h.1, fun _ x hx => nomatch hx⟩

/-- For every socket and every reset: it is left unanswered by resets if and only if
neither of the two cases holds. -/
theorem rst_unanswered_iff (cfg : TcpCfg) (s : St) (p : Packet) (hr : p.flags.rst = true) :
    (∀ q ∈ repliesTo cfg s p, q.flags.rst = false) ↔ ¬ RstAnswered s p := by
  obtain ⟨s₁, hs₁⟩ : ∃ s₁, (tcpRcvPkt cfg s { p with toRead := p.segs }).2.1 = s₁ := ⟨_, rfl⟩
  have hpkt := tcpRcvPkt_hushed (p := { p with toRead := p.segs }) cfg s hr
  obtain ⟨q, hq, hem⟩ := process_emitted cfg s p hs₁
  rw [hs₁] at hpkt
  unfold repliesTo RstAnswered
  rw [hem]
  by_cases hh : HalfOpen s p
  · -- the first attempt is that of the half-open case
    obtain ⟨t, ht⟩ : ∃ t, t = s.setFlags
      { s.tsock.flags with tcp := { s.tsock.flags.tcp with rst := true } } := ⟨_, rfl⟩
    obtain ⟨s₂, hs₂⟩ : ∃ s₂, (xmitFlagPacketWithSeq cfg t p.ack).2 = s₂ := ⟨_, rfl⟩
    have hopen : s₁ = outputTsockEnqueue s₂ := by
      rw [hpkt.1 hh, ← hs₂, ht]
      rfl
    have hgoes : FlagGoes t ↔ FlagGoes s := by
      rw [ht]
      exact Iff.rfl
    have hrst : t.tsock.flags.tcp.rst = true := by rw [ht]; rfl
    have hfirst := xmitFlagPacketWithSeq_emitted cfg t p.ack
    have hemt : t.tsock.emitted = s.tsock.emitted := by rw [ht]; rfl
    rw [hs₂, hemt] at hfirst
    have hem₁ : s₁.tsock.emitted = s₂.tsock.emitted := by rw [hopen]; rfl
    rw [hem₁, hfirst]
    by_cases hg : FlagGoes s
    · rw [if_pos (hgoes.mpr hg), List.append_assoc, List.drop_left]
      refine ⟨fun hall => ?_, fun hno => absurd (.inl ⟨hh, .inl hg⟩) hno⟩
      have hsent := hall _ (List.mem_append_left _ (List.mem_singleton.mpr rfl))
      exact absurd (hsent.symm.trans hrst) Bool.false_ne_true
    · have hagain := failed_again cfg p.ack hrst (fun hc => hg (hgoes.mp hc)) hs₂
      have hagain' : (s₁.tsock.flags.ackNow = true ∧ FlagGoes s₁) ∧ s₁.tsock.flags.tcp.rst = true ↔
          GoesAgain s := by
        rw [hopen]
        refine hagain.trans ?_
        rw [ht]
        exact Iff.rfl
      rw [if_neg fun hc => hg (hgoes.mp hc), List.append_nil, List.drop_left,
        rst_free_iff hq, hagain']
      simp only [hh, hg, true_and, false_or, not_true_eq_false, false_and, or_false]
  · have hhush := hpkt.2 hh
    rw [hhush.emitted, List.drop_left, rst_free_iff hq, hhush.now, hhush.tcp, hhush.goes]
    simp only [hh, false_and, false_or, not_false_iff, true_and]
    tauto

def synSender : St :=
  (exec (connStep {})
    (Conn.start (tcpConnect ⟨Worker.boot 0 { allocOk := [true, true], ethOk := [true] },
    tsockInit {} 0 false⟩)) [.output]).st

def resetFor (ack : U32) : Packet := .bare 1 0 ack 0 { rst := true, ack := true }

theorem rst_unanswered_refusal :
    (resetFor 1).flags.rst = true ∧ ∀ q ∈ repliesTo {} synSender (resetFor 1),
      q.flags.rst = false :=
  ⟨rfl, (rst_unanswered_iff {} synSender (resetFor 1) rfl).mpr (by decide +kernel)⟩

/-- A reset whose ACK field is out of range gets a reset. -/
theorem synSender_answers_reset :
    synSender.tsock.state = .synSent ∧ (resetFor 77).flags.rst = true ∧
      (repliesTo {} synSender (resetFor 77)).map (fun q => (q.flags.rst, q.seq)) =
        [(true, 77)] := by
  exact ⟨by decide +kernel, rfl, by decide +kernel⟩

end LibTpa
