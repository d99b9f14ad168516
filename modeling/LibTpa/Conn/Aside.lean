/- LibTpa/Conn/Aside
   digest: What no event but the arrival of a packet changes. -/

import LibTpa.Conn.Frame

set_option autoImplicit false

namespace LibTpa

variable {cfg : TcpCfg} {s s' s'' : St} {e : ConnEv}

/-- What was learnt from the peer, the packet that waits and the mark for release are as
before, and a closed socket stays closed. -/
structure RcvAside (s s' : St) : Prop where
  nego : s'.tsock.nego = { s.tsock.nego with
    lastAckSent := s'.tsock.nego.lastAckSent
    lastAckSentTs := s'.tsock.nego.lastAckSentTs }
  head : s'.tsock.rxMergeHead = s.tsock.rxMergeHead
  put : s'.tsock.flags.put = s.tsock.flags.put
  closed : s.tsock.state = .closed → s'.tsock.state = .closed

theorem SndFrame.aside (h : SndFrame s s') : RcvAside s s' := by
  constructor
  · rw [h.tsock]
  · rw [h.tsock]
  · rw [h.flags]
  · intro hc
    rw [h.state]
    exact hc

namespace RcvAside

theorem refl (s : St) : RcvAside s s := (SndFrame.refl s).aside

theorem trans (h : RcvAside s s') (h' : RcvAside s' s'') : RcvAside s s'' := by
  constructor
  · rw [h'.nego, h.nego]
  · exact h'.head.trans h.head
  · exact h'.put.trans h.put
  · intro hc
    exact h'.closed (h.closed hc)

theorem of_eq (hn : s'.tsock.nego = s.tsock.nego)
    (hh : s'.tsock.rxMergeHead = s.tsock.rxMergeHead)
    (hp : s'.tsock.flags.put = s.tsock.flags.put) (hst : s'.tsock.state = s.tsock.state) :
    RcvAside s s' := by
  refine ⟨?_, hh, hp, fun hc => hst.trans hc⟩
  rw [hn]

private theorem tsockSetState (cfg : TcpCfg) (s : St) (st : TcpState)
    (h : s.tsock.state = .closed → st = .closed) : RcvAside s (tsockSetState cfg s st) := by
  refine ⟨?_, ?_, ?_, fun hc => by rw [tsockSetState_state]; exact h hc⟩
  all_goals
    unfold LibTpa.tsockSetState
    dsimp only
    split <;> rfl

private theorem tsockFree (s : St) : RcvAside s (tsockFree s) := by
  obtain ⟨rcv, timers, ht⟩ := tsockFree_tsock s
  exact .of_eq (by rw [ht]) (by rw [ht]) (by rw [ht]) (by rw [ht])

private theorem closeSwitch (cfg : TcpCfg) (s : St) : RcvAside s (closeSwitch cfg s) := by
  unfold LibTpa.closeSwitch
  dsimp only
  have hset : ∀ (s₁ : St) (st : TcpState), RcvAside s s₁ → s₁.tsock.state ≠ .closed →
      RcvAside s (LibTpa.tsockSetState cfg s₁ st) :=
    fun s₁ st h hc => h.trans (.tsockSetState cfg s₁ st fun hc' => absurd hc' hc)
  split
  · next hst => exact hset s _ (.refl s) (by rw [hst]; decide)
  · next hst => exact hset s _ (.refl s) (by rw [hst]; decide)
  · next hst =>
      exact hset _ _ (.of_eq rfl rfl rfl rfl) (by change s.tsock.state ≠ _; rw [hst]; decide)
  · next hst =>
      exact hset _ _ (.of_eq rfl rfl rfl rfl) (by change s.tsock.state ≠ _; rw [hst]; decide)
  · next hst =>
      exact hset _ _ (.of_eq rfl rfl rfl rfl) (by change s.tsock.state ≠ _; rw [hst]; decide)
  · exact .refl s

private theorem closeUnread (cfg : TcpCfg) (s : St) : RcvAside s (closeUnread cfg s) :=
  (RcvAside.tsockSetState cfg s .closed fun _ => rfl).trans
    ((SndFrame.setTcp _ _).trans (Quiet.xmitFlagPacket cfg _).frame).aside

private theorem closeIfIssued (cfg : TcpCfg) (s : St) : RcvAside s (closeIfIssued cfg s) := by
  have honce : RcvAside s (closeOnce cfg s) := by
    have hmark : RcvAside s (s.setFlags { s.tsock.flags with closeProcessed := true }) :=
      .of_eq rfl rfl rfl rfl
    refine hmark.trans ?_
    unfold closeOnce
    dsimp only
    split
    · exact .closeSwitch cfg _
    · exact .closeUnread cfg _
  unfold LibTpa.closeIfIssued
  split
  · unfold tcpClose
    split
    · exact .refl s
    · dsimp only
      split
      · exact honce.trans (.tsockFree _)
      · exact honce
  · exact .refl s

private theorem tcpOutputOne (cfg : TcpCfg) (s : St) : RcvAside s (tcpOutputOne cfg s) := by
  unfold LibTpa.tcpOutputOne
  split
  · exact .refl s
  dsimp only
  have hclose := RcvAside.closeIfIssued cfg s
  generalize LibTpa.closeIfIssued cfg s = s₁ at hclose
  split
  · exact hclose
  · exact hclose.trans (SndFrame.xmitSyn cfg s₁).aside
  · exact hclose.trans (SndFrame.xmitSyn cfg s₁).aside
  · exact hclose.trans ((OutFrame.tcpXmitData cfg s₁).frame.trans (.outputFlags cfg _)).aside

private theorem timedOut (cfg : TcpCfg) (s : St) (toClose : Bool) :
    RcvAside s (timedOut cfg s toClose) := by
  have herr : RcvAside s (s.setErr (some .etimedout)) := .of_eq rfl rfl rfl rfl
  have hset := herr.trans (.tsockSetState cfg _ .closed fun _ => rfl)
  unfold LibTpa.timedOut
  dsimp only
  split
  · exact hset.trans (.tsockFree _)
  · exact hset.trans (SndFrame.tsockEventAdd _ _).aside

private theorem tcpTimeout (cfg : TcpCfg) (s : St) (k : TimerKind) :
    RcvAside s (tcpTimeout cfg s k) := by
  have hcase := tcpTimeout_cases cfg s k
  generalize LibTpa.tcpTimeout cfg s k = s' at hcase
  have h : ∀ t c, RcvAside s (s.counted t c) := fun t c => (TxFrame.counted s t c).frame.aside
  cases hcase with
  | stopped t => exact h t _
  | givenUp t c b => exact (h t c).trans (.timedOut ..)
  | resent t c =>
    exact (h t c).trans ((TxFrame.rtoResend cfg _).frame.trans (.outputTsockEnqueue _)).aside
  | waited t =>
    exact ((h t _).trans (.tsockSetState cfg _ .closed fun _ => rfl)).trans (.tsockFree _)
  | probed t t' s₁ _ hx =>
    rw [hx]
    exact (h t s.tsock.cc).trans (((SndFrame.setTcp ..).trans
      (Quiet.xmitFlagPacketWithSeq cfg _ _).frame).trans (.setTimers ..)).aside

private theorem tsockZreadv (s : St) (n : Nat) : RcvAside s (tsockZreadv s n).2 := by
  unfold LibTpa.tsockZreadv
  dsimp only
  split
  · exact .refl s
  split
  · exact .of_eq rfl rfl rfl rfl
  split
  · exact .of_eq rfl rfl rfl rfl
  · exact .of_eq rfl rfl rfl rfl

private theorem tpaClose (s : St) : RcvAside s (tpaClose s) := by
  unfold LibTpa.tpaClose
  split
  · exact .refl s
  · exact .of_eq rfl rfl rfl rfl

private theorem delayedAckTurn (cfg : TcpCfg) (s : St) : RcvAside s (delayedAckTurn cfg s) := by
  unfold LibTpa.delayedAckTurn tcpFlushDelayedAck xmitDueAck
  split
  · split
    · exact .refl s
    · dsimp only
      split
      · exact (Quiet.xmitFlagPacket cfg s).frame.aside.trans (.of_eq rfl rfl rfl rfl)
      · exact .of_eq rfl rfl rfl rfl
  · exact .refl s

private theorem outputTurn (cfg : TcpCfg) (s : St) : RcvAside s (outputTurn cfg s) := by
  unfold LibTpa.outputTurn
  split
  · have hleave : RcvAside s { s with worker := { s.worker with
        output := s.worker.output.erase s.tsock.sid } } := .of_eq rfl rfl rfl rfl
    exact hleave.trans (.tcpOutputOne cfg _)
  · exact .refl s

theorem inputAck (cfg : TcpCfg) (s : St) : RcvAside s (inputAck cfg s) := by
  unfold LibTpa.inputAck
  split
  · split
    · exact (Quiet.xmitFlagPacket cfg s).frame.aside
    · exact .of_eq rfl rfl rfl rfl
  · exact .refl s

end RcvAside

theorem sockStep_aside (cfg : TcpCfg) (s : St) (he : ∀ p, e ≠ .packet p) (hb : e ≠ .burstEnd) :
    RcvAside s (sockStep cfg s e) := by
  cases e with
  | packet p => exact absurd rfl (he p)
  | burstEnd => exact absurd rfl hb
  | write iov => exact (WriteFrame.tsockZwritev cfg s iov).frame.aside
  | read n => exact .tsockZreadv s n
  | dropOoo => exact .of_eq rfl rfl rfl rfl
  | close => exact .tpaClose s
  | output => exact .outputTurn cfg s
  | delayedAck => exact .delayedAckTurn cfg s
  | timer k => exact .tcpTimeout cfg s k
  | neighReady => exact .of_eq rfl rfl rfl rfl
  | env w => exact .of_eq rfl rfl rfl rfl

end LibTpa
