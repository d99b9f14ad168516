/- LibTpa/Conn/Backoff
   digest: Without news from the peer the retransmission back-off never falls. -/

import LibTpa.Conn.Moves
import LibTpa.Conn.Fsm
import LibTpa.Snd.Backoff
import LibTpa.Snd.CcFrame

/-!
`rto` and the two shifts fall only where an ACK brings news: it ends the handshake or
is ahead of `snd_una`. Everything else leaves them, raises a shift by one, or sets the
`rto` of a SYN, which no estimate has replaced yet.
-/

set_option autoImplicit false

namespace LibTpa

open Lib.Run

variable {cfg : TcpCfg} {A : Packet → Prop} {b : Bool} {s s' s'' : St} {p : Packet}

theorem SackKept.ackSack (s : St) (o : TcpOpts) : SackKept s (ackSack s o) := by
  unfold LibTpa.ackSack
  split
  · exact .refl s
  · exact .tcpRcvSack s o

def pace (c : Cc) : U32 × BitVec 8 × BitVec 8 := (c.rto, c.rtoShift, c.zeroWndProbeShift)

structure Steady (s s' : St) : Prop where
  pace : pace s'.tsock.cc = pace s.tsock.cc
  una : s'.tsock.snd.sndUna = s.tsock.snd.sndUna

namespace Steady

theorem refl (s : St) : Steady s s := ⟨rfl, rfl⟩

theorem trans (h : Steady s s') (h' : Steady s' s'') : Steady s s'' :=
  ⟨h'.pace.trans h.pace, h'.una.trans h.una⟩

theorem of_eq (hc : s'.tsock.cc = s.tsock.cc) (hx : s'.tsock.snd = s.tsock.snd) : Steady s s' :=
  ⟨by rw [hc], by rw [hx]⟩

theorem of_kept (h : CcKept s s') : Steady s s' := ⟨by rw [h.cc]; rfl, h.una⟩

theorem setCc {c : Cc} (h : LibTpa.pace c = LibTpa.pace s.tsock.cc) : Steady s (s.setCc c) :=
  ⟨h, rfl⟩

private theorem ackSack (s : St) (o : TcpOpts) : Steady s (ackSack s o) := by
  have h := SackKept.ackSack s o
  exact ⟨by rw [h.cc]; rfl, by rw [h.snd]⟩

private theorem leaveFastRetrans (cfg : TcpCfg) (s : St) (cwnd : U32) :
    Steady s (leaveFastRetrans cfg s cwnd) := ⟨rfl, rfl⟩

theorem setSnd {x : Snd} (h : x.sndUna = s.tsock.snd.sndUna) : Steady s (s.setSnd x) := ⟨rfl, h⟩

theorem timer (s : St) (expire : Nat) : Steady s (timerRtoStart s expire) := of_eq rfl rfl

private theorem enterFastRetrans (cfg : TcpCfg) (s : St) : Steady s (enterFastRetrans cfg s) := by
  have hfast : ∀ s₁ : St, Steady s s₁ → ∀ seq base budget,
      Steady s (tcpFastRetrans cfg (tcpResetRetrans s₁ seq base) budget) :=
    fun s₁ h seq base budget =>
      (h.trans (of_kept (.tcpResetRetrans s₁ seq base))).trans
        (of_kept (.tcpFastRetrans cfg _ budget))
  have hstamp : ∀ s₂ : St, Steady s s₂ → Steady s (if s₂.tsock.nego.tsOk then
      s₂.setSnd { s₂.tsock.snd with retransTsVal := usToTcpTs s₂.worker.tsUs } else s₂) := by
    intro s₂ h₂
    split
    · exact h₂.trans (setSnd rfl)
    · exact h₂
  unfold LibTpa.enterFastRetrans
  refine hstamp _ (hfast _ ?_ _ _ _)
  exact ⟨rfl, rfl⟩

private theorem inFastRetrans (cfg : TcpCfg) (s : St) (p : Packet) (acked : U32) :
    Steady s (inFastRetrans cfg s p acked) := by
  unfold LibTpa.inFastRetrans
  dsimp only
  split
  · exact setCc rfl
  split
  · split
    · exact leaveFastRetrans ..
    · have hresend : ∀ s₁ : St, Steady s s₁ → ∀ budget,
          Steady s (timerRtoStart (tcpFastRetrans cfg s₁ budget)
            (tcpFastRetrans cfg s₁ budget).tsock.cc.rto.toNat) :=
        fun s₁ h budget => (h.trans (of_kept (.tcpFastRetrans cfg s₁ budget))).trans (timer ..)
      refine hresend _ ?_ _
      exact ⟨rfl, rfl⟩
  · exact leaveFastRetrans ..

private theorem handleFastRetransmit (cfg : TcpCfg) (s : St) (p : Packet) (acked : U32) :
    Steady s (handleFastRetransmit cfg s p acked) := by
  have htry : Steady s (tryFastRetrans cfg s p) := by
    unfold tryFastRetrans
    split
    · exact enterFastRetrans cfg s
    · exact refl s
  unfold LibTpa.handleFastRetransmit
  split
  · exact refl s
  dsimp only
  split
  · exact htry.trans (inFastRetrans ..)
  · exact htry

private theorem finishRecovery (cfg : TcpCfg) (s : St) (p : Packet) (acked : Int) :
    Steady s (finishRecovery cfg s p acked) := by
  unfold LibTpa.finishRecovery
  dsimp only
  split
  · split
    · exact ⟨rfl, rfl⟩
    · exact refl s
  split
  · exact ⟨rfl, rfl⟩
  split
  · exact of_kept (CcKept.tcpRetrans cfg s)
  · exact refl s

theorem ackProgress (cfg : TcpCfg) (s : St) (p : Packet) (o : TcpOpts) (acked : Int) :
    Steady (ackData cfg s acked) (ackProgress cfg s p o acked) := by
  have hidle : ∀ s₁ : St, Steady s₁ (stopWhenIdle s₁) := by
    intro s₁
    unfold stopWhenIdle
    split
    · exact ⟨rfl, rfl⟩
    · exact refl s₁
  have hwnd : ∀ s₁ : St, Steady s₁ (updateSndWnd s₁ p) := by
    intro s₁
    unfold updateSndWnd
    dsimp only
    split
    · exact ⟨rfl, rfl⟩
    · exact refl s₁
  unfold LibTpa.ackProgress
  exact ((((ackSack _ o).trans (handleFastRetransmit cfg _ p _)).trans
    (finishRecovery cfg _ p acked)).trans (hidle _)).trans (hwnd _)

private theorem countDupack (s : St) (p : Packet) : Steady s (countDupack s p) := by
  unfold LibTpa.countDupack
  dsimp only
  split
  · split
    · exact ⟨rfl, rfl⟩
    · exact refl s
  · exact ⟨rfl, rfl⟩

private theorem ackFin (cfg : TcpCfg) (s : St) (ack : U32) : Steady s (ackFin cfg s ack) := by
  have ht := (ackFin_tsock cfg s ack).1
  exact of_eq (by rw [ht]) (by rw [ht])

theorem ackFront (cfg : TcpCfg) (s : St) (p : Packet) :
    Steady s (LibTpa.ackFin cfg (LibTpa.countDupack s p) p.ack) :=
  (countDupack s p).trans (ackFin ..)

end Steady

/-! The invariant. -/

/-- The estimate is capped, the first one stands until the handshake is over, and the
shifts have not run out. -/
structure BackoffInv (cfg : TcpCfg) (t : TcpSock) : Prop where
  rto : t.cc.rto.toNat ≤ tcpRtoMax
  early : inHandshake t.state = true → t.cc.rto.toNat ≤ tcpRtoDefault.toNat
  shift : t.state ≠ .closed → t.cc.rtoShift.toNat < 255
  probe : t.cc.zeroWndProbeShift.toNat ≤ cfg.retries

structure Climbs (c c' : Cc) : Prop where
  rto : c.rto.toNat ≤ c'.rto.toNat
  shift : c.rtoShift.toNat ≤ c'.rtoShift.toNat
  probe : c.zeroWndProbeShift.toNat ≤ c'.zeroWndProbeShift.toNat

theorem Climbs.trans {c c' c'' : Cc} (h : Climbs c c') (h' : Climbs c' c'') : Climbs c c'' :=
  ⟨h.rto.trans h'.rto, h.shift.trans h'.shift, h.probe.trans h'.probe⟩

structure Sustains (cfg : TcpCfg) (t t' : TcpSock) : Prop where
  state : Onward t.state t'.state
  inv : BackoffInv cfg t → BackoffInv cfg t'
  climbs : BackoffInv cfg t → Climbs t.cc t'.cc

namespace Sustains

variable {t t' t'' : TcpSock}

theorem of_pace (hst : Onward t.state t'.state) (h : pace t'.cc = pace t.cc) :
    Sustains cfg t t' := by
  simp only [pace, Prod.mk.injEq] at h
  obtain ⟨hr, hs, hp⟩ := h
  refine ⟨hst, fun hi => ⟨?_, fun he => ?_, fun hc => ?_, ?_⟩, fun _ => ⟨?_, ?_, ?_⟩⟩
  · rw [hr]
    exact hi.rto
  · rw [hr]
    exact hi.early (hst.early he)
  · rw [hs]
    exact hi.shift fun h0 => hc (hst.closed h0)
  · rw [hp]
    exact hi.probe
  · exact le_of_eq (by rw [hr])
  · exact le_of_eq (by rw [hs])
  · exact le_of_eq (by rw [hp])

theorem refl (t : TcpSock) : Sustains cfg t t := of_pace (.refl _) rfl

theorem trans (h : Sustains cfg t t') (h' : Sustains cfg t' t'') : Sustains cfg t t'' :=
  ⟨h.state.trans h'.state, fun hi => h'.inv (h.inv hi),
    fun hi => (h.climbs hi).trans (h'.climbs (h.inv hi))⟩

end Sustains

theorem Beside.sustains (h : Beside s s') : Sustains cfg s.tsock s'.tsock :=
  .of_pace h.state (by rw [h.cc])

/-! Acknowledged data. -/

private theorem rttUpdate_backoff (cfg : TcpCfg) (c : Cc) (rtt : U32) :
    (rttUpdate cfg c rtt).rto.toNat ≤ tcpRtoMax ∧
      (rttUpdate cfg c rtt).rtoShift = c.rtoShift ∧
      (rttUpdate cfg c rtt).zeroWndProbeShift = c.zeroWndProbeShift := by
  refine ⟨?_, ?_, ?_⟩
  · unfold rttUpdate
    dsimp only
    rw [toNat_minU32]
    exact min_le_right _ _
  all_goals
    unfold rttUpdate
    dsimp only
    split <;> rfl

private theorem updateCwnd_pace (cfg : TcpCfg) (now : Nat) (c : Cc) (acked : U32) :
    pace (updateCwnd cfg now c acked) = pace c := by
  unfold updateCwnd
  dsimp only
  split
  · rfl
  split
  · rfl
  split <;> rfl

private theorem ackSentData_pace (s : St) (acked : U32) :
    pace (ackSentData s acked).1.tsock.cc = pace s.tsock.cc := by
  rw [(CcCounted.ackSentData s acked).cc]
  rfl

private theorem BackoffInv.late {t : TcpSock} {rto : U32} {shift probe : BitVec 8}
    (hst : inHandshake t.state = false) (hp : pace t.cc = (rto, shift, probe))
    (hr : rto.toNat ≤ tcpRtoMax) (hs : t.state ≠ .closed → shift.toNat < 255)
    (hz : probe.toNat ≤ cfg.retries) : BackoffInv cfg t := by
  simp only [pace, Prod.mk.injEq] at hp
  obtain ⟨rfl, rfl, rfl⟩ := hp
  exact ⟨hr, fun he => absurd he (by rw [hst]; decide), hs, hz⟩

private theorem measured_rto (cfg : TcpCfg) (c : Cc) (rtt : U32) (h : c.rto.toNat ≤ tcpRtoMax) :
    (if rtt = 0 then c else rttUpdate cfg c rtt).rto.toNat ≤ tcpRtoMax ∧
      (if rtt = 0 then c else rttUpdate cfg c rtt).rtoShift = c.rtoShift ∧
      (if rtt = 0 then c else rttUpdate cfg c rtt).zeroWndProbeShift = c.zeroWndProbeShift := by
  split
  · exact ⟨h, rfl, rfl⟩
  · exact rttUpdate_backoff cfg c rtt

private theorem ackNewData_pace (cfg : TcpCfg) (s : St) (acked : U32)
    (h : s.tsock.cc.rto.toNat ≤ tcpRtoMax) :
    ∃ rto : U32, rto.toNat ≤ tcpRtoMax ∧ pace (ackNewData cfg s acked).tsock.cc = (rto, 0, 0) := by
  have hp := ackSentData_pace s acked
  unfold ackNewData
  dsimp only
  generalize ackSentData s acked = r at hp
  have hr : r.1.tsock.cc.rto.toNat ≤ tcpRtoMax := (congrArg (·.1.toNat) hp).trans_le h
  obtain ⟨hle, -⟩ := measured_rto cfg r.1.tsock.cc r.2 hr
  exact ⟨_, hle, updateCwnd_pace ..⟩

private theorem ackNewDataFast_pace (cfg : TcpCfg) (s : St) (acked : U32)
    (h : s.tsock.cc.rto.toNat ≤ tcpRtoMax) :
    ∃ rto : U32, rto.toNat ≤ tcpRtoMax ∧ pace (ackNewDataFast cfg s acked).tsock.cc =
      (rto, s.tsock.cc.rtoShift, s.tsock.cc.zeroWndProbeShift) := by
  have hp := ackSentData_pace s acked
  unfold ackNewDataFast
  dsimp only
  generalize ackSentData s acked = r at hp
  have hr : r.1.tsock.cc.rto.toNat ≤ tcpRtoMax := (congrArg (·.1.toNat) hp).trans_le h
  obtain ⟨hle, hs, hz⟩ := measured_rto cfg r.1.tsock.cc r.2 hr
  refine ⟨_, hle, ?_⟩
  have htimer : ∀ s₁ : St, (if r.1.tsock.snd.sndUna = r.1.tsock.snd.sndNxt then timerRtoStop s₁
      else tsockRearmTimerRto s₁).tsock.cc = s₁.tsock.cc := by
    intro s₁
    split <;> rfl
  refine (updateCwnd_pace ..).trans ?_
  rw [htimer]
  simp only [pace, Prod.mk.injEq] at hp
  exact Prod.ext rfl (Prod.ext (hs.trans hp.2.1) (hz.trans hp.2.2))

/-! Moves. -/

theorem ackState_late {a : TcpState} (x : Snd) (ack : U32) (h : inHandshake a = false) :
    inHandshake (ackState a x ack) = false := by
  unfold ackState
  split
  · cases a <;> exact h
  · exact h

private theorem acked_inv (cfg : TcpCfg) (p : Packet) (o : TcpOpts) (h : BackoffInv cfg s.tsock)
    (hs : inHandshake s.tsock.state = false) (hc : s.tsock.state ≠ .closed) :
    BackoffInv cfg (ackAccepted cfg s p o).tsock := by
  have hlate : inHandshake (ackAccepted cfg s p o).tsock.state = false := by
    rw [ackAccepted_state]
    exact ackState_late _ _ hs
  have hfront := Steady.ackFront cfg s p
  have hprog := Steady.ackProgress cfg (ackFin cfg (countDupack s p) p.ack) p o
    (ackedLen s.tsock.snd p.ack)
  rw [← ackAccepted] at hprog
  generalize ackFin cfg (countDupack s p) p.ack = s₂ at hfront hprog
  have hr : s₂.tsock.cc.rto.toNat ≤ tcpRtoMax :=
    (congrArg (·.1.toNat) hfront.pace).trans_le h.rto
  generalize ackAccepted cfg s p o = s' at hlate hprog
  unfold ackData at hprog
  split at hprog
  · obtain ⟨rto, hle, heq⟩ :=
      ackNewData_pace cfg s₂ (BitVec.ofInt 32 (ackedLen s.tsock.snd p.ack)) hr
    exact .late hlate (hprog.pace.trans heq) hle (fun _ => by decide) (Nat.zero_le _)
  · exact .late hlate (hprog.pace.trans hfront.pace) h.rto (fun _ => h.shift hc) h.probe

private theorem acked_steady (cfg : TcpCfg) (p : Packet) (o : TcpOpts)
    (h : (p.ack - s.tsock.snd.sndUna).toInt ≤ 0) : Steady s (ackAccepted cfg s p o) := by
  have hlen : ¬ 0 < ackedLen s.tsock.snd p.ack := by
    unfold ackedLen
    split <;> split <;> omega
  have hprog := Steady.ackProgress cfg (ackFin cfg (countDupack s p) p.ack) p o
    (ackedLen s.tsock.snd p.ack)
  unfold ackData at hprog
  rw [if_neg hlen, ← ackAccepted] at hprog
  exact (Steady.ackFront cfg s p).trans hprog

private theorem fast_inv (cfg : TcpCfg) (p : Packet) (h : BackoffInv cfg s.tsock)
    (hst : s.tsock.state = .established) : BackoffInv cfg (tcpRcvAckFastpath cfg s p).tsock := by
  have hstate := (TxFrame.tcpRcvAckFastpath cfg s p).state.trans hst
  have hlate : inHandshake (tcpRcvAckFastpath cfg s p).tsock.state = false := by
    rw [hstate]
    rfl
  have hsh := h.shift (by rw [hst]; decide)
  obtain ⟨rto, hle, heq⟩ := ackNewDataFast_pace cfg s (p.ack - s.tsock.snd.sndUna) h.rto
  have hpace : pace (tcpRcvAckFastpath cfg s p).tsock.cc = pace s.tsock.cc ∨
      pace (tcpRcvAckFastpath cfg s p).tsock.cc =
        (rto, s.tsock.cc.rtoShift, s.tsock.cc.zeroWndProbeShift) := by
    unfold tcpRcvAckFastpath
    dsimp only
    split
    · exact .inr heq
    · exact .inl rfl
  rcases hpace with hp | hp
  · exact .late hlate hp h.rto (fun _ => hsh) h.probe
  · exact .late hlate hp hle (fun _ => hsh) h.probe

private theorem fast_steady (cfg : TcpCfg) (p : Packet)
    (h : (p.ack - s.tsock.snd.sndUna).toInt ≤ 0) : Steady s (tcpRcvAckFastpath cfg s p) := by
  unfold tcpRcvAckFastpath
  dsimp only
  rw [if_neg (by omega)]
  exact .setCc rfl

private theorem established_cc (cfg : TcpCfg) (s : St) (p : Packet) :
    (tsockEstablished cfg s p).tsock.cc.rto.toNat ≤ tcpRtoMax ∧
      (tsockEstablished cfg s p).tsock.cc.rtoShift = 0 ∧
      (tsockEstablished cfg s p).tsock.cc.zeroWndProbeShift =
        s.tsock.cc.zeroWndProbeShift := by
  have hset : ∀ s₁ : St, (tsockEventAdd (tsockSetState cfg s₁ .established) tpaEventOut).tsock.cc =
      s₁.tsock.cc := by
    intro s₁
    unfold tsockEventAdd
    dsimp only
    rw [tsockSetState_tsock]
  unfold tsockEstablished
  dsimp only
  rw [hset]
  exact ⟨(rttUpdate_backoff cfg _ _).1, rfl, (rttUpdate_backoff cfg _ _).2.2⟩

private theorem established_inv (cfg : TcpCfg) (p : Packet)
    (h : s.tsock.cc.zeroWndProbeShift.toNat ≤ cfg.retries) :
    BackoffInv cfg (tsockEstablished cfg s p).tsock := by
  have hst := tsockEstablished_state cfg s p
  obtain ⟨hr, hs, hz⟩ := established_cc cfg s p
  generalize tsockEstablished cfg s p = s' at hst hr hs hz
  refine .late (by rw [hst]; rfl) rfl hr (fun _ => ?_) ?_
  · rw [hs]
    decide
  · rw [hz]
    exact h

private theorem active_inv (cfg : TcpCfg) (p : Packet) (h : BackoffInv cfg s.tsock) :
    BackoffInv cfg (synSentToEstablished cfg s p).1.tsock := by
  unfold synSentToEstablished
  dsimp only
  obtain ⟨r, hr⟩ : ∃ r, r = processTcpOptNegotiation cfg
    (s.setRcv { s.tsock.rcv with rcvIsn := p.seq, rcvNxt := p.seq + 1 }) p := ⟨_, rfl⟩
  have hz : r.1.tsock.cc.zeroWndProbeShift = s.tsock.cc.zeroWndProbeShift := by
    rw [hr]
    rfl
  rw [← hr]
  have hi := established_inv (s := r.1) cfg r.2 (by rw [hz]; exact h.probe)
  have hf := RcvFrame.tsockSetAckFlag cfg (tsockEstablished cfg r.1 r.2) true
  generalize tsockEstablished cfg r.1 r.2 = s₂ at hi hf
  exact (Sustains.of_pace (.of_eq hf.state) (by rw [hf.cc])).inv hi

theorem RxMove.backoff (hm : RxMove cfg A s b s') (h : BackoffInv cfg s.tsock) :
    BackoffInv cfg s'.tsock := by
  cases b with
  | false => exact hm.beside.sustains.inv h
  | true =>
  cases hm with
  | passive p =>
    have hi := established_inv (s := s) cfg p h.probe
    generalize tsockEstablished cfg s p = s₁ at hi
    exact hi
  | active p => exact active_inv cfg p h
  | acked p o _ hc _ hs hr =>
    exact acked_inv cfg p o h (by simp [inHandshake, hs, hr]) hc
  | fast p q _ _ hst => exact fast_inv cfg p h hst

/-! A packet without news. -/

/-- The packet ends the handshake, or acknowledges more than the packets before it. -/
def News (t : TcpSock) (p : Packet) : Prop :=
  p.flags.ack = true ∧ (inHandshake t.state = true ∨ 0 < (p.ack - t.snd.sndUna).toInt)

instance News.decidable (t : TcpSock) (p : Packet) : Decidable (News t p) :=
  inferInstanceAs (Decidable (_ ∧ _))

structure Stale (cfg : TcpCfg) (t t' : TcpSock) : Prop extends Sustains cfg t t' where
  una : t'.snd.sndUna = t.snd.sndUna

namespace Stale

variable {t t' t'' : TcpSock}

theorem refl (t : TcpSock) : Stale cfg t t := ⟨.refl t, rfl⟩

theorem trans (h : Stale cfg t t') (h' : Stale cfg t' t'') : Stale cfg t t'' :=
  ⟨h.toSustains.trans h'.toSustains, h'.una.trans h.una⟩

theorem of_steady (hst : Onward s.tsock.state s'.tsock.state) (h : Steady s s') :
    Stale cfg s.tsock s'.tsock := ⟨.of_pace hst h.pace, h.una⟩

theorem beside (h : Beside s s') : Stale cfg s.tsock s'.tsock := ⟨h.sustains, by rw [h.snd]⟩

end Stale

theorem RxMove.stale {t : TcpSock} (hn : ¬ News t p)
    (hm : RxMove cfg (fun q => q.flags = p.flags ∧ q.ack = p.ack) s b s')
    (h : Stale cfg t s.tsock) : Stale cfg t s'.tsock := by
  cases b with
  | false => exact h.trans (.beside hm.beside)
  | true =>
  -- an ACK that counts is not ahead, and the handshake was over before
  have hold : ∀ q : Packet, q.flags = p.flags ∧ q.ack = p.ack → p.flags.ack = true →
      (q.ack - s.tsock.snd.sndUna).toInt ≤ 0 := by
    intro q hq ha
    rw [hq.2, h.una]
    by_contra hlt
    exact hn ⟨ha, .inr (by omega)⟩
  have hlate : p.flags.ack = true → inHandshake s.tsock.state = false := by
    intro ha
    rw [Bool.eq_false_iff]
    exact fun he => hn ⟨ha, .inl (h.state.early he)⟩
  cases hm with
  | passive q hq hst ha =>
    have hl := hlate (by rw [← hq.1]; exact ha.flag)
    rw [hst] at hl
    cases hl
  | active q hq hst _ _ ha =>
    have hl := hlate (by rw [← hq.1]; exact ha)
    rw [hst] at hl
    cases hl
  | acked q o hq hc _ _ _ ha =>
    have hack : p.flags.ack = true := by rw [← hq.1]; exact ha.flag
    refine h.trans (.of_steady ⟨fun he => ?_, fun h0 => absurd h0 hc⟩
      (acked_steady cfg q o (hold q hq hack)))
    rw [ackAccepted_state, ackState_late _ _ (hlate hack)] at he
    cases he
  | fast q r hq hr hst _ _ _ ha =>
    have hack : p.flags.ack = true := by rw [← hr.1]; exact ha
    exact h.trans (.of_steady (.of_eq (TxFrame.tcpRcvAckFastpath cfg s q).state)
      (fast_steady cfg q (hold q hq hack)))

end LibTpa
