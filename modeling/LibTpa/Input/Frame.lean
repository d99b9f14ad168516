/- LibTpa/Input/Frame
   digest: What the ACK field and the flags of a segment leave of the receive half. -/

import LibTpa.Input.Process
import LibTpa.Snd.Frame

set_option autoImplicit false

namespace LibTpa

/-- The receive half is as it was, but for the window cap of a header. -/
structure KeepsRcv (s s' : St) : Prop where
  rcv : s'.tsock.rcv = s.tsock.rcv ∨ s'.tsock.rcv = s.tsock.rcv.regulate
  rx : s'.worker.rx = s.worker.rx
  eof : s'.tsock.flags.eof = s.tsock.flags.eof

theorem SndFrame.keeps {s s' : St} (h : SndFrame s s') : KeepsRcv s s' := ⟨h.rcv, h.rx, h.eof⟩

namespace KeepsRcv

variable {s s' s'' : St}

theorem refl (s : St) : KeepsRcv s s := ⟨.inl rfl, rfl, rfl⟩

theorem trans (h : KeepsRcv s s') (h' : KeepsRcv s' s'') : KeepsRcv s s'' := by
  refine ⟨?_, h'.rx.trans h.rx, h'.eof.trans h.eof⟩
  rcases h.rcv with h1 | h1 <;> rcases h'.rcv with h2 | h2 <;> rw [h2, h1]
  · exact .inl rfl
  · exact .inr rfl
  · exact .inr rfl
  · exact .inr s.tsock.rcv.regulate_regulate

theorem rxq (h : KeepsRcv s s') : s'.tsock.rcv.rxq = s.tsock.rcv.rxq := by
  rcases h.rcv with h | h <;> rw [h]
  rfl

theorem ooo (h : KeepsRcv s s') : s'.tsock.rcv.ooo = s.tsock.rcv.ooo := by
  rcases h.rcv with h | h <;> rw [h]
  rfl

theorem rcvNxt (h : KeepsRcv s s') : s'.tsock.rcv.rcvNxt = s.tsock.rcv.rcvNxt := by
  rcases h.rcv with h | h <;> rw [h]
  rfl

theorem tsockSetState (cfg : TcpCfg) (s : St) (st : TcpState) :
    KeepsRcv s (tsockSetState cfg s st) := by
  unfold LibTpa.tsockSetState
  dsimp only
  split <;> exact ⟨.inl rfl, rfl, rfl⟩

theorem tsockSetAckFlag (cfg : TcpCfg) (s : St) (b : Bool) :
    KeepsRcv s (tsockSetAckFlag cfg s b) := ⟨.inl rfl, rfl, rfl⟩

theorem tsockEstablished (cfg : TcpCfg) (s : St) (p : Packet) :
    KeepsRcv s (tsockEstablished cfg s p) := by
  unfold LibTpa.tsockEstablished
  dsimp only
  refine trans ?_ (SndFrame.tsockEventAdd _ _).keeps
  refine trans ?_ (.tsockSetState ..)
  exact ⟨.inl rfl, rfl, rfl⟩

theorem ackFin (cfg : TcpCfg) (s : St) (ack : U32) : KeepsRcv s (ackFin cfg s ack) := by
  unfold LibTpa.ackFin
  split
  · have h : KeepsRcv s (s.setFlags { s.tsock.flags with finPending := false }) :=
      ⟨.inl rfl, rfl, rfl⟩
    dsimp only
    split
    · exact h.trans (.tsockSetState ..)
    · exact h.trans (.tsockSetState ..)
    · refine trans ?_ (.tsockSetState ..)
      exact ⟨.inl rfl, rfl, rfl⟩
    · exact h
  · exact .refl s

end KeepsRcv

namespace TxFrame

theorem countDupack (s : St) (p : Packet) : TxFrame s (countDupack s p) := by
  unfold LibTpa.countDupack
  dsimp only
  split
  · split
    · exact .setCc ..
    · exact .refl s
  · exact .setCc ..

theorem ackNewData (cfg : TcpCfg) (s : St) (acked : U32) : TxFrame s (ackNewData cfg s acked) :=
  (((TxFrame.ackSentData s acked).trans (.setCc ..)).trans (.tsockRearmTimerRto _)).trans
    (.setCc ..)

theorem ackNewDataFast (cfg : TcpCfg) (s : St) (acked : U32) :
    TxFrame s (ackNewDataFast cfg s acked) := by
  unfold LibTpa.ackNewDataFast
  dsimp only
  refine trans ?_ (.setCc ..)
  split
  · exact ((TxFrame.ackSentData s acked).trans (.setCc ..)).trans (.setTimers ..)
  · exact ((TxFrame.ackSentData s acked).trans (.setCc ..)).trans (.tsockRearmTimerRto _)

theorem finishRecovery (cfg : TcpCfg) (s : St) (p : Packet) (acked : Int) :
    TxFrame s (finishRecovery cfg s p acked) := by
  unfold LibTpa.finishRecovery
  dsimp only
  split
  · split
    · exact .setCc ..
    · exact .refl s
  split
  · exact .setRetrans ..
  split
  · exact .tcpRetrans cfg s
  · exact .refl s

theorem stopWhenIdle (s : St) : TxFrame s (stopWhenIdle s) := by
  unfold LibTpa.stopWhenIdle
  split
  · exact .setTimers ..
  · exact .refl s

theorem updateSndWnd (s : St) (p : Packet) : TxFrame s (updateSndWnd s p) := by
  unfold LibTpa.updateSndWnd
  dsimp only
  split
  · exact .setCc ..
  · exact .refl s

theorem ackData (cfg : TcpCfg) (s : St) (acked : Int) : TxFrame s (ackData cfg s acked) := by
  unfold LibTpa.ackData
  split
  · exact .ackNewData ..
  · exact .refl s

theorem ackSack (s : St) (o : TcpOpts) : TxFrame s (ackSack s o) := by
  unfold LibTpa.ackSack
  split
  · exact .refl s
  · exact .tcpRcvSack s o

theorem ackProgress (cfg : TcpCfg) (s : St) (p : Packet) (o : TcpOpts) (acked : Int) :
    TxFrame s (ackProgress cfg s p o acked) := by
  have h := (TxFrame.ackData cfg s acked).trans (.ackSack _ o)
  have h := (h.trans (.handleFastRetransmit cfg _ p (BitVec.ofInt 32 acked))).trans
    (.finishRecovery cfg _ p acked)
  exact (h.trans (.stopWhenIdle _)).trans (.updateSndWnd _ p)

theorem tcpRcvAckFastpath (cfg : TcpCfg) (s : St) (p : Packet) :
    TxFrame s (tcpRcvAckFastpath cfg s p) := by
  unfold LibTpa.tcpRcvAckFastpath
  dsimp only
  refine trans ?_ (.setCc ..)
  split
  · exact .ackNewDataFast ..
  · exact .refl s

end TxFrame

namespace SndFrame

theorem tsockInitNetHdr (s : St) : SndFrame s (tsockInitNetHdr s) := by
  refine ⟨rfl, rfl, .inl rfl, ?_, .of_eq rfl rfl rfl id, .of_eq rfl rfl⟩
  unfold LibTpa.tsockInitNetHdr
  dsimp only
  split <;> rfl

theorem synReady (s : St) : SndFrame s (synReady s) :=
  (((SndFrame.setSnd ..).trans (.setCc ..)).trans (.tsockInitNetHdr _)).trans (.setTcp ..)

theorem xmitSyn (cfg : TcpCfg) (s : St) : SndFrame s (xmitSyn cfg s) := by
  have h := (SndFrame.synReady s).trans (Quiet.xmitFlagPacket cfg (LibTpa.synReady s)).frame
  have h2 : SndFrame s (retrySyn (xmitFlagPacket cfg (LibTpa.synReady s))) := by
    unfold retrySyn
    split
    · exact h.trans (.outputTsockEnqueue _)
    · exact h
  unfold LibTpa.xmitSyn
  dsimp only
  split
  · exact h2.trans (.setTimers ..)
  · exact h2

end SndFrame

def ackState (state : TcpState) (x : Snd) (ack : U32) : TcpState :=
  if finAcked x ack then
    match state with
    | .finWait1 => .finWait2
    | .closing => .timeWait
    | .lastAck => .closed
    | state => state
  else state

theorem tsockSetState_tsock (cfg : TcpCfg) (s : St) (st : TcpState) :
    (tsockSetState cfg s st).tsock = { s.tsock with
      state := st
      timers := (tsockSetState cfg s st).tsock.timers } := by
  unfold tsockSetState
  split <;> rfl

@[simp] theorem tsockSetState_state (cfg : TcpCfg) (s : St) (st : TcpState) :
    (tsockSetState cfg s st).tsock.state = st := by
  unfold tsockSetState
  dsimp only
  split <;> rfl

theorem countDupack_snd (s : St) (p : Packet) : (countDupack s p).tsock.snd = s.tsock.snd := by
  unfold countDupack
  dsimp only
  split
  · split <;> rfl
  · rfl

theorem ackFin_state (cfg : TcpCfg) (s : St) (ack : U32) :
    (ackFin cfg s ack).tsock.state = ackState s.tsock.state s.tsock.snd ack := by
  unfold ackFin ackState
  split
  · dsimp only
    have h : (s.setFlags { s.tsock.flags with finPending := false }).tsock.state = s.tsock.state :=
      rfl
    cases hs : s.tsock.state <;> simp [h, hs]
  · rfl

theorem ackAccepted_state (cfg : TcpCfg) (s : St) (p : Packet) (o : TcpOpts) :
    (ackAccepted cfg s p o).tsock.state = ackState s.tsock.state s.tsock.snd p.ack := by
  rw [ackAccepted, (TxFrame.ackProgress cfg _ p o _).state, ackFin_state, countDupack_snd,
    (TxFrame.countDupack s p).state]

theorem KeepsRcv.ackAccepted (cfg : TcpCfg) (s : St) (p : Packet) (o : TcpOpts) :
    KeepsRcv s (ackAccepted cfg s p o) := by
  unfold LibTpa.ackAccepted
  have h := (TxFrame.countDupack s p).frame.keeps.trans (.ackFin cfg _ p.ack)
  exact h.trans (TxFrame.ackProgress cfg _ p o _).frame.keeps

theorem KeepsRcv.tcpRcvAck (cfg : TcpCfg) (s : St) (p : Packet) (o : TcpOpts) :
    KeepsRcv s (tcpRcvAck cfg s p o).2 := by
  unfold LibTpa.tcpRcvAck
  split
  · exact .refl s
  split
  · exact .refl s
  · exact .refl s
  · exact .refl s
  split
  · exact .refl s
  split
  · exact .tsockSetAckFlag cfg s true
  split
  · exact (KeepsRcv.tsockEstablished cfg s p).trans ⟨.inl rfl, rfl, rfl⟩
  · dsimp only
    exact .ackAccepted cfg s p o

theorem processIncomingSeq_frame (s : St) (p : Packet) (o : TcpOpts) :
    (processIncomingSeq s p o).2 = s.setNego { s.tsock.nego with
      tsRecent := (processIncomingSeq s p o).2.tsock.nego.tsRecent
      tsRecentInSec := (processIncomingSeq s p o).2.tsock.nego.tsRecentInSec } := by
  unfold processIncomingSeq
  split
  · rfl
  split
  · rfl
  split <;> rfl

theorem processIncomingSeq_none (s : St) (p : Packet) (o : TcpOpts) :
    (processIncomingSeq s p o).1 = none ↔ validateSeq s.tsock.rcv p = none ∧
      ¬ pawsReject s p o := by
  unfold processIncomingSeq
  cases hv : validateSeq s.tsock.rcv p with
  | some e => simp
  | none =>
    by_cases hp : pawsReject s p o
    · simp [hp]
    · simp only [hp, if_false]
      split <;> simp

@[simp] theorem tsockEstablished_state (cfg : TcpCfg) (s : St) (p : Packet) :
    (tsockEstablished cfg s p).tsock.state = .established := by
  simp [tsockEstablished, tsockEventAdd]

theorem synSentToEstablished_state (cfg : TcpCfg) (s : St) (p : Packet) :
    (synSentToEstablished cfg s p).1.tsock.state = .established := by
  unfold synSentToEstablished
  dsimp only
  generalize processTcpOptNegotiation cfg _ p = r
  exact tsockEstablished_state cfg r.1 r.2

theorem tcpRcvAck_state (cfg : TcpCfg) (s : St) (p : Packet) (o : TcpOpts) :
    (tcpRcvAck cfg s p o).2.tsock.state = s.tsock.state ∨
      (s.tsock.state = .synRcvd ∧ (tcpRcvAck cfg s p o).2.tsock.state = .established) ∨
      (tcpRcvAck cfg s p o).2.tsock.state = ackState s.tsock.state s.tsock.snd p.ack := by
  unfold tcpRcvAck
  split
  · exact .inl rfl
  split
  · exact .inl rfl
  · exact .inl rfl
  · exact .inl rfl
  split
  · exact .inl rfl
  split
  · exact .inl rfl
  split
  · next h => exact .inr (.inl ⟨h, tsockEstablished_state cfg s p⟩)
  · dsimp only
    exact .inr (.inr (ackAccepted_state cfg s p o))

theorem ackState_ne (state : TcpState) (x : Snd) (ack : U32) :
    (state ≠ .listen → ackState state x ack ≠ .listen) ∧
      (state ≠ .synSent → ackState state x ack ≠ .synSent) := by
  unfold ackState
  split
  · cases state <;> simp
  · exact ⟨id, id⟩

theorem tcpRcvAck_refused (cfg : TcpCfg) (s : St) (p : Packet) (o : TcpOpts)
    (hc : s.tsock.state ≠ .closed) (hl : s.tsock.state ≠ .listen) (hs : s.tsock.state ≠ .synSent)
    (he : (tcpRcvAck cfg s p o).1 ≠ none) :
    p.flags.ack = false ∨ seqGt p.ack s.tsock.snd.sndNxt := by
  unfold tcpRcvAck at he
  split at he
  · next h => exact .inl h
  split at he
  · next h => exact absurd h hc
  · next h => exact absurd h hl
  · next h => exact absurd h hs
  split at he
  · exact absurd rfl he
  split at he
  · next h => exact .inr h
  split at he
  · exact absurd rfl he
  · exact absurd rfl he

theorem tcpRcvAck_closed (cfg : TcpCfg) (s : St) (p : Packet) (o : TcpOpts)
    (hc : s.tsock.state ≠ .closed) (hn : (tcpRcvAck cfg s p o).1 = none) :
    p.flags.ack = true ∧ ((tcpRcvAck cfg s p o).2.tsock.state = .closed ↔
      s.tsock.state = .lastAck ∧ ¬ seqLt p.ack s.tsock.snd.sndUna ∧
        finAcked s.tsock.snd p.ack) := by
  have hgt : finAcked s.tsock.snd p.ack → ¬ seqGt p.ack s.tsock.snd.sndNxt := by
    intro h
    rw [h.2]
    simp [seqGt]
  unfold tcpRcvAck at hn ⊢
  split at hn
  · cases hn
  next ha =>
  refine ⟨by simpa using ha, ?_⟩
  rw [if_neg ha]
  split at hn
  · cases hn
  · cases hn
  · cases hn
  split at hn
  · next hlt => simp [hlt, hc]
  next hlt =>
  rw [if_neg hlt]
  split at hn
  · cases hn
  next hgt' =>
  rw [if_neg hgt']
  split
  · next hsyn =>
    constructor
    · intro h
      exact absurd h (by simp [acceptTsockEnqueue])
    · rintro ⟨h, -⟩
      rw [h] at hsyn
      cases hsyn
  · dsimp only
    rw [ackAccepted_state]
    unfold ackState
    split
    · next hf =>
      cases hst : s.tsock.state <;> simp_all
    · next hf => simp [hf, hc]

theorem tsockAccept_tsock (cfg : TcpCfg) (s : St) (p : Packet) :
    (tsockAccept cfg s p).2.1.tsock = s.tsock := by
  unfold tsockAccept
  dsimp only
  split <;> rfl

theorem passiveTsockInit_tsock (cfg : TcpCfg) (s : St) (p : Packet) :
    ∃ sackOk isn mss wscale nego, (passiveTsockInit cfg s p).1.tsock = { s.tsock with
      netHdrLen := if p.isIpv6 then 54 else 34
      passiveConnection := true
      state := .synRcvd
      rcv := { s.tsock.rcv with rcvIsn := p.seq, rcvNxt := p.seq + 1, sackOk := sackOk }
      snd := { s.tsock.snd with sndIsn := isn }
      cc := { s.tsock.cc with sndMss := mss, sndWscale := wscale }
      nego := nego } := by
  unfold passiveTsockInit
  dsimp only
  generalize ht : rteRdtsc { s with tsock := { s.tsock with
    netHdrLen := if p.isIpv6 then 54 else 34
    passiveConnection := true } } = t
  have htsock := rteRdtsc_tsock { s with tsock := { s.tsock with
    netHdrLen := if p.isIpv6 then 54 else 34
    passiveConnection := true } }
  rw [ht] at htsock
  obtain ⟨tsc, w, x⟩ := t
  dsimp only at htsock
  subst htsock
  exact ⟨_, _, _, _, _, rfl⟩

end LibTpa
