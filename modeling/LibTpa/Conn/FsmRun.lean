/- LibTpa/Conn/FsmRun
   digest: Every run of a socket follows the diagram of RFC 793. -/

import LibTpa.Conn.Fsm
import LibTpa.Conn.FinRun

set_option autoImplicit false

namespace LibTpa

open Relation Lib.Run

variable {s s' : St} {cfg : TcpCfg} {e : ConnEv} {t : TcpSock} {a b : TcpState}

/-- A change of state that a close causes: an edge of the diagram, or the reset
that the peer gets when received data is left unread. -/
inductive CloseChange (t : TcpSock) : TcpState → TcpState → Prop
  | edge {a b : TcpState} (hi : t.closeIssued = true) (hd : diagram a .close = some b) :
      CloseChange t a b
  | reset {a : TcpState} (hi : t.closeIssued = true) (hr : t.rcv.rxq ≠ []) (ha : a ≠ .closed) :
      CloseChange t a .closed

inductive Change (cfg : TcpCfg) (s : St) (e : ConnEv) : TcpState → TcpState → Prop
  | packet {a b : TcpState} (p : Packet) (h : processed cfg s e = some p)
      (hc : PktChange s.tsock p a b) : Change cfg s e a b
  | close {a b : TcpState} (he : e = .output) (hc : CloseChange s.tsock a b) : Change cfg s e a b
  | timeout {a : TcpState} (k : TimerKind) (he : e = .timer k) (ha : a ≠ .closed) :
      Change cfg s e a .closed

/-- The packets that get as far as the ACK field say there what is presumed. -/
def Presumes (cfg : TcpCfg) (s : St) (e : ConnEv) : Prop :=
  ∀ p ∈ processed cfg s e, Taken s p.rewind → Presumed s.tsock p

structure EvMoved (cfg : TcpCfg) (s : St) (e : ConnEv) (s' : St) : Prop where
  path : ReflTransGen (Change cfg s e) s.tsock.state s'.tsock.state
  inv : FsmInv s'

theorem EvMoved.same (h : FsmInv s) (hs : s'.tsock.snd = s.tsock.snd)
    (hp : s'.tsock.flags.finPending = s.tsock.flags.finPending)
    (hst : s'.tsock.state = s.tsock.state) : EvMoved cfg s e s' :=
  ⟨hst ▸ .refl, h.same hs hp hst⟩

theorem EvMoved.trans {s₁ : St} (h : EvMoved cfg s e s₁) (hs : s'.tsock.snd = s₁.tsock.snd)
    (hp : s'.tsock.flags.finPending = s₁.tsock.flags.finPending)
    (hst : s'.tsock.state = s₁.tsock.state) : EvMoved cfg s e s' :=
  ⟨hst ▸ h.path, h.inv.same hs hp hst⟩

theorem Moved.event {p : Packet} (hp : processed cfg s e = some p)
    (h : Moved s.tsock p s.tsock.state s') : EvMoved cfg s e s' :=
  ⟨ReflTransGen.mono (show PktChange s.tsock p ≤ Change cfg s e from
    fun _ _ => Change.packet p hp) _ _ h.path, h.inv⟩

theorem EvMoved.free {s₁ : St} (h : EvMoved cfg s e s₁) : EvMoved cfg s e (tsockFree s₁) := by
  obtain ⟨rcv, timers, ht⟩ := tsockFree_tsock s₁
  exact h.trans (by rw [ht]) (by rw [ht]) (by rw [ht])

theorem FsmInv.free (h : FsmInv s) :
    FsmInv (tsockFree s) ∧ (tsockFree s).tsock.state = s.tsock.state := by
  obtain ⟨rcv, timers, ht⟩ := tsockFree_tsock s
  exact ⟨h.same (by rw [ht]) (by rw [ht]) (by rw [ht]), by rw [ht]⟩

theorem FsmInv.close (cfg : TcpCfg) (h : FsmInv s) : FsmInv (tsockSetState cfg s .closed) := by
  have hst := tsockSetState_state cfg s .closed
  refine h.goto ?_ ?_ (fun _ => by rw [hst]; rfl) (by rw [hst]; decide)
  · rw [tsockSetState_tsock]
  · rw [tsockSetState_tsock]

/-! Packets. -/

theorem packet_fsm (p : Packet) (h : FsmInv s) (hf : Fed cfg s (.packet p))
    (hp : Presumes cfg s (.packet p)) :
    EvMoved cfg s (.packet p) (sockStep cfg s (.packet p)) := by
  by_cases hl : s.tsock.state = .listen
  · have hpr : processed cfg s (.packet p) = some (parseTsOptFast p) := by
      rw [processed, if_pos hl]
    rw [sockStep, inputPacket, if_pos hl]
    exact (tcpRcvProcess_moved cfg h (hf.apart _ hpr) (hp _ hpr)).event hpr
  · rw [sockStep_packet cfg p hl]
    have hcase := tcpMerge_cases cfg s (parseTsOptFast p)
    generalize tcpMerge cfg s (parseTsOptFast p) = s' at hcase
    cases hcase with
    | alone => exact .same h rfl rfl rfl
    | chained => exact .same h rfl rfl rfl
    | behind head hhead hm =>
      have hpr := processed_behind hl hhead hm
      have hmv := (tcpRcvProcess_moved cfg h (hf.apart _ hpr) (hp _ hpr)).event hpr
      exact hmv.trans rfl rfl rfl

theorem burstEnd_fsm (h : FsmInv s) (hf : Fed cfg s .burstEnd) (hp : Presumes cfg s .burstEnd) :
    EvMoved cfg s .burstEnd (sockStep cfg s .burstEnd) := by
  have hhead : EvMoved cfg s .burstEnd (inputHead cfg s) := by
    unfold inputHead
    split
    · next head hh => exact (tcpRcvProcess_moved cfg h (hf.apart _ hh) (hp _ hh)).event hh
    · exact .same h rfl rfl rfl
  have hack : EvMoved cfg s .burstEnd (inputAck cfg (inputHead cfg s)) := by
    unfold inputAck
    split
    · split
      · have hq := Quiet.xmitFlagPacket cfg (inputHead cfg s)
        exact hhead.trans hq.snd hq.frame.pending hq.frame.state
      · exact hhead.trans rfl rfl rfl
    · exact hhead
  rw [sockStep, inputEnd]
  unfold inputPut
  split
  · refine EvMoved.free ?_
    exact hack.trans rfl rfl rfl
  · exact hack

/-! Close and output. -/

theorem FsmInv.of_shut (hf : s.tsock.snd.finSent = false) (hst : s.tsock.state.shut = true) :
    FsmInv s := by
  refine ⟨fun h => ?_, fun h => by simp [hf] at h, fun _ => hst⟩
  rw [h] at hst
  cases hst

theorem closeSwitch_fsm (cfg : TcpCfg) (h : FsmInv s) : FsmInv (closeSwitch cfg s) ∧
    ((closeSwitch cfg s).tsock.state = s.tsock.state ∨
      diagram s.tsock.state .close = some (closeSwitch cfg s).tsock.state) := by
  have hgo : ∀ (s₁ : St) (st : TcpState), s.tsock.state.shut = false → st.shut = true →
      s₁.tsock.snd.finSent = s.tsock.snd.finSent → FsmInv (tsockSetState cfg s₁ st) := by
    intro s₁ st hs hst hf
    refine .of_shut ?_ (by rw [tsockSetState_state]; exact hst)
    rw [tsockSetState_tsock]
    exact hf.trans (h.early hs).1
  unfold closeSwitch
  split
  · next hs => exact ⟨hgo s _ (by rw [hs]; rfl) rfl rfl,
      .inr (by rw [hs, tsockSetState_state]; rfl)⟩
  · next hs => exact ⟨hgo s _ (by rw [hs]; rfl) rfl rfl,
      .inr (by rw [hs, tsockSetState_state]; rfl)⟩
  · next hs => exact ⟨hgo _ _ (by rw [hs]; rfl) rfl rfl,
      .inr (by rw [hs, tsockSetState_state]; rfl)⟩
  · next hs => exact ⟨hgo _ _ (by rw [hs]; rfl) rfl rfl,
      .inr (by rw [hs, tsockSetState_state]; rfl)⟩
  · next hs => exact ⟨hgo _ _ (by rw [hs]; rfl) rfl rfl,
      .inr (by rw [hs, tsockSetState_state]; rfl)⟩
  · exact ⟨h, .inl rfl⟩

theorem closeUnread_fsm (cfg : TcpCfg) (h : FsmInv s) : FsmInv (closeUnread cfg s) ∧
    (closeUnread cfg s).tsock.state = .closed := by
  have h₁ := h.close cfg
  have hst := tsockSetState_state cfg s .closed
  unfold closeUnread
  generalize tsockSetState cfg s .closed = s₁ at h₁ hst
  have hq := (Quiet.setTcp s₁ { s₁.tsock.flags.tcp with rst := true, ack := true }).trans
    (.xmitFlagPacket cfg _)
  exact ⟨h₁.same hq.snd hq.frame.pending hq.frame.state, hq.frame.state.trans hst⟩

theorem tcpClose_fsm (cfg : TcpCfg) (h : FsmInv s) (hi : s.tsock.closeIssued = true) :
    FsmInv (tcpClose cfg s) ∧
      ReflTransGen (CloseChange s.tsock) s.tsock.state (tcpClose cfg s).tsock.state := by
  have hone : FsmInv (closeOnce cfg s) ∧
      ReflTransGen (CloseChange s.tsock) s.tsock.state (closeOnce cfg s).tsock.state := by
    have h₁ : FsmInv (s.setFlags { s.tsock.flags with closeProcessed := true }) :=
      h.same rfl rfl rfl
    unfold closeOnce
    dsimp only
    split
    · obtain ⟨h₂, hst | hst⟩ := closeSwitch_fsm cfg h₁
      · exact ⟨h₂, by rw [hst]; exact .refl⟩
      · exact ⟨h₂, .single (.edge hi hst)⟩
    · next hrx =>
      obtain ⟨h₂, hst⟩ := closeUnread_fsm cfg h₁
      refine ⟨h₂, ?_⟩
      rw [hst]
      by_cases hc : s.tsock.state = .closed
      · rw [hc]
      · exact .single (.reset hi (fun hnil => hrx (List.isEmpty_iff.mpr hnil)) hc)
  unfold tcpClose
  split
  · exact ⟨h, .refl⟩
  dsimp only
  split
  · exact ⟨hone.1.free.1, by rw [hone.1.free.2]; exact hone.2⟩
  · exact hone

theorem xmitSyn_snd (cfg : TcpCfg) (s : St) : (xmitSyn cfg s).tsock.snd = { s.tsock.snd with
    sndUna := s.tsock.snd.sndIsn
    sndNxt := s.tsock.snd.sndIsn + 1
    dataSeqNxt := s.tsock.snd.sndIsn + 1 } := by
  have hq := (Quiet.xmitFlagPacket cfg (synReady s)).snd
  have hr : (retrySyn (xmitFlagPacket cfg (synReady s))).tsock.snd = (synReady s).tsock.snd := by
    rw [← hq]
    unfold retrySyn
    split <;> rfl
  unfold xmitSyn
  dsimp only
  split <;> exact hr

theorem xmitSyn_fsm (cfg : TcpCfg) (hq : s.tsock.state = .synRcvd →
      s.tsock.snd.txq.nxt = s.tsock.snd.txq.write ∧ s.tsock.snd.txq.una = s.tsock.snd.txq.write)
    (h1 : s.tsock.snd.finSent = false) (h2 : s.tsock.flags.finPending = false) :
    FsmInv (xmitSyn cfg s) := by
  have hfr := SndFrame.xmitSyn cfg s
  have hsnd := xmitSyn_snd cfg s
  refine ⟨?_, ?_, ?_⟩
  · intro hs
    obtain ⟨hall, hemp⟩ := hq (hfr.state ▸ hs)
    rw [hsnd]
    exact ⟨rfl, rfl, hall, hemp⟩
  · rw [hsnd]
    intro hf
    simp [h1] at hf
  · rw [hsnd, hfr.pending]
    rintro (hf | hf)
    · simp [h1] at hf
    · simp [h2] at hf

theorem outputFlags_fsm (cfg : TcpCfg) (h : FsmInv s) (hst : s.tsock.state ≠ .synRcvd) :
    FsmInv (outputFlags cfg s) := by
  have hreq : FsmInv (requeueOrFin s) := by
    unfold requeueOrFin
    split
    · exact h.same rfl rfl rfl
    next hall =>
    split
    · next hpend =>
      have hall : s.tsock.snd.txq.nxt = s.tsock.snd.txq.write := by
        unfold tcpTxqToSendPkts at hall
        bv_omega
      have hsh := h.shut (.inr hpend)
      unfold finReady
      dsimp only
      split <;> exact ⟨fun hs => absurd hs hst, fun _ => ⟨rfl, hall⟩, fun _ => hsh⟩
    · exact h
  unfold outputFlags
  dsimp only
  split
  · exact hreq
  · have hq := Quiet.xmitFlagPacket cfg (requeueOrFin s)
    exact hreq.same hq.snd hq.frame.pending hq.frame.state

theorem tcpOutputOne_fsm (cfg : TcpCfg) (h : FsmInv s) : FsmInv (tcpOutputOne cfg s) ∧
    ReflTransGen (CloseChange s.tsock) s.tsock.state (tcpOutputOne cfg s).tsock.state := by
  unfold tcpOutputOne
  split
  · exact ⟨h, .refl⟩
  have hc : FsmInv (closeIfIssued cfg s) ∧
      ReflTransGen (CloseChange s.tsock) s.tsock.state (closeIfIssued cfg s).tsock.state := by
    unfold closeIfIssued
    split
    · next hi => exact tcpClose_fsm cfg h hi
    · exact ⟨h, .refl⟩
  dsimp only
  generalize closeIfIssued cfg s = s₁ at hc
  obtain ⟨h₁, hpath⟩ := hc
  split
  · exact ⟨h₁, hpath⟩
  · next hs =>
    obtain ⟨h2, h3⟩ := h₁.early (by rw [hs]; rfl)
    refine ⟨xmitSyn_fsm cfg (fun hr => by simp [hs] at hr) h2 h3, ?_⟩
    rw [(SndFrame.xmitSyn cfg s₁).state]
    exact hpath
  · next hs =>
    obtain ⟨h2, h3⟩ := h₁.early (by rw [hs]; rfl)
    refine ⟨xmitSyn_fsm cfg (fun hr => ⟨(h₁.synRcvd hr).all, (h₁.synRcvd hr).empty⟩) h2 h3, ?_⟩
    rw [(SndFrame.xmitSyn cfg s₁).state]
    exact hpath
  · next hs =>
    have htx := OutFrame.tcpXmitData cfg s₁
    have h₂ := outputFlags_fsm cfg (h₁.tx htx hs) (by rw [htx.state]; exact hs)
    refine ⟨h₂, ?_⟩
    rw [(SndFrame.outputFlags cfg _).state, htx.state]
    exact hpath

/-! Timers. -/

theorem clearSacked_snd (s : St) : (clearSacked s).tsock.snd = s.tsock.snd := by
  rw [clearSacked_tsock]

theorem SynOut.tcpRetrans (cfg : TcpCfg) (h : SynOut s.tsock.snd)
    (hb : s.tsock.snd.retransDescBase = s.tsock.snd.txq.una) :
    SynOut (tcpRetrans cfg s).tsock.snd := by
  have hreg : SynOut (regulateRetrans s).tsock.snd ∧ (regulateRetrans s).tsock.snd.retransDescBase =
      (regulateRetrans s).tsock.snd.txq.una := by
    unfold regulateRetrans
    dsimp only
    split
    · exact ⟨⟨h.una, h.nxt, h.all, h.empty⟩, rfl⟩
    · exact ⟨h, hb⟩
  unfold LibTpa.tcpRetrans doTcpRetrans
  dsimp only
  obtain ⟨h₁, hb₁⟩ := hreg
  rw [TxFrame.doTcpXmitData_all]
  · exact ⟨h₁.una, h₁.nxt, h₁.all, h₁.empty⟩
  · unfold XmitCtx.peek tcpTxqPeekForWrite
    rw [hb₁, h₁.empty, BitVec.sub_self]
    exact if_pos (BitVec.le_refl _)

theorem rtoResend_fsm (cfg : TcpCfg) (h : FsmInv s) :
    FsmInv (tcpRetrans cfg (rtoRestart (clearSacked (stampRtoStart s)))) := by
  have htx := TxFrame.rtoResend cfg s
  by_cases hst : s.tsock.state = .synRcvd
  · have hso := h.synRcvd hst
    have hsnd : (clearSacked (stampRtoStart s)).tsock.snd = s.tsock.snd := by
      rw [clearSacked_snd]
      unfold stampRtoStart
      split
      · split <;> rfl
      · rfl
    generalize clearSacked (stampRtoStart s) = s₁ at hsnd htx
    rw [← hsnd] at hso
    have hso' : SynOut (tcpRetrans cfg (rtoRestart s₁)).tsock.snd :=
      SynOut.tcpRetrans cfg (s := rtoRestart s₁) ⟨hso.una, hso.nxt, hso.all, hso.empty⟩ rfl
    generalize tcpRetrans cfg (rtoRestart s₁) = s' at htx hso'
    exact h.move htx.still (fun hp => htx.frame.pending ▸ hp) (fun hs => htx.state ▸ hs)
      fun _ => hso'
  · exact h.tx htx.toOutFrame hst

theorem timedOut_fsm (cfg : TcpCfg) (b : Bool) (h : FsmInv s) :
    FsmInv (timedOut cfg s b) ∧ (timedOut cfg s b).tsock.state = .closed := by
  have h₀ : FsmInv (s.setErr (some .etimedout)) := h.same rfl rfl rfl
  have h₁ := h₀.close cfg
  have hst := tsockSetState_state cfg (s.setErr (some .etimedout)) .closed
  unfold timedOut
  dsimp only
  split
  · exact ⟨h₁.free.1, h₁.free.2.trans hst⟩
  · exact ⟨h₁.same rfl rfl rfl, hst⟩

theorem timer_fsm (k : TimerKind) (h : FsmInv s) :
    EvMoved cfg s (.timer k) (tcpTimeout cfg s k) := by
  have hcase := tcpTimeout_cases cfg s k
  generalize tcpTimeout cfg s k = s' at hcase
  have h₁ : ∀ t c, FsmInv (s.counted t c) := fun t c => h.same rfl rfl rfl
  have hclose : ∀ {s' : St}, s.tsock.state ≠ .closed → FsmInv s' → s'.tsock.state = .closed →
      EvMoved cfg s (.timer k) s' := by
    intro s' hc hi hst
    refine ⟨?_, hi⟩
    rw [hst]
    exact .single (.timeout k rfl hc)
  cases hcase with
  | stopped t => exact .same h rfl rfl rfl
  | givenUp t c b hc =>
    obtain ⟨hi, hst⟩ := timedOut_fsm cfg b (h₁ t c)
    exact hclose hc hi hst
  | resent t c =>
    have h₂ := rtoResend_fsm cfg (h₁ t c)
    have hst : _ = s.tsock.state := (TxFrame.rtoResend cfg (s.counted t c)).state
    generalize tcpRetrans cfg _ = s₁ at h₂ hst
    exact ⟨hst ▸ .refl, h₂.same rfl rfl rfl⟩
  | waited t hc =>
    obtain ⟨hi, hst⟩ := ((h₁ t s.tsock.cc).close cfg).free
    exact hclose hc hi (hst.trans (tsockSetState_state ..))
  | probed t t' s₁ _ hx =>
    have hq := (Quiet.setTcp (s.counted t s.tsock.cc) { s.tsock.flags.tcp with ack := true }).trans
      (.xmitFlagPacketWithSeq cfg _ (s.tsock.snd.sndUna - 1))
    have hs : EvMoved cfg s (.timer .keepalive) s₁ := by
      rw [hx]
      exact .same h hq.snd hq.frame.pending hq.frame.state
    exact hs.trans rfl rfl rfl

/-! Whole runs. -/

theorem tsockWriteCheck_state (h : tsockWriteCheck t = none) :
    t.state = .established ∨ t.state = .closeWait := by
  unfold tsockWriteCheck at h
  split at h
  · cases h
  split at h
  · cases h
  split at h
  · next hs => exact .inl hs
  · next hs => exact .inr hs
  · cases h
  · cases h
  · cases h

theorem tsockZwritev_refused {err : Errno} (cfg : TcpCfg) (iov : List Iovec)
    (h : tsockWriteCheck s.tsock = some err) : (tsockZwritev cfg s iov).2.tsock = s.tsock := by
  unfold tsockZwritev
  rw [h]
  unfold writeStartTsc
  split
  · exact rteRdtsc_tsock s
  · rfl

theorem write_fsm (iov : List Iovec) (h : FsmInv s) :
    EvMoved cfg s (.write iov) (tsockZwritev cfg s iov).2 := by
  have hw := WriteFrame.tsockZwritev cfg s iov
  cases hchk : tsockWriteCheck s.tsock with
  | some err =>
    have ht := tsockZwritev_refused cfg iov hchk
    exact .same h (by rw [ht]) (by rw [ht]) (by rw [ht])
  | none =>
    have hst := tsockWriteCheck_state hchk
    have hsh : s.tsock.state.shut = false ∧ s.tsock.state ≠ .synRcvd := by
      rcases hst with hst | hst <;> rw [hst] <;> exact ⟨rfl, by decide⟩
    obtain ⟨h1, h2⟩ := h.early hsh.1
    refine ⟨by rw [hw.frame.state], .of_early ?_ ?_ ?_⟩
    · rw [hw.snd]
      exact h1
    · rw [hw.frame.pending]
      exact h2
    · rw [hw.frame.state]
      exact hsh.2

theorem read_fsm (n : Nat) (h : FsmInv s) : EvMoved cfg s (.read n) (tsockZreadv s n).2 := by
  unfold tsockZreadv
  split
  · exact .same h rfl rfl rfl
  dsimp only
  split
  · exact .same h rfl rfl rfl
  split <;> exact .same h rfl rfl rfl

theorem sockStep_fsm (e : ConnEv) (h : FsmInv s) (hf : Fed cfg s e) (hp : Presumes cfg s e) :
    EvMoved cfg s e (sockStep cfg s e) := by
  cases e with
  | packet p => exact packet_fsm p h hf hp
  | burstEnd => exact burstEnd_fsm h hf hp
  | write iov => exact write_fsm iov h
  | read n => exact read_fsm n h
  | dropOoo => exact .same h rfl rfl rfl
  | close =>
    rw [sockStep]
    unfold tpaClose
    split <;> exact .same h rfl rfl rfl
  | output =>
    rw [sockStep]
    unfold outputTurn
    split
    · obtain ⟨h1, h2⟩ := tcpOutputOne_fsm (s := { s with worker := { s.worker with
        output := s.worker.output.erase s.tsock.sid } }) cfg (h.same rfl rfl rfl)
      exact ⟨ReflTransGen.mono (show CloseChange s.tsock ≤ Change cfg s .output from
        fun _ _ => Change.close rfl) _ _ h2, h1⟩
    · exact .same h rfl rfl rfl
  | delayedAck =>
    rw [sockStep]
    unfold delayedAckTurn tcpFlushDelayedAck
    split
    · split
      · exact .same h rfl rfl rfl
      · unfold xmitDueAck
        split
        · have hq := Quiet.xmitFlagPacket cfg s
          exact .same h hq.snd hq.frame.pending hq.frame.state
        · exact .same h rfl rfl rfl
    · exact .same h rfl rfl rfl
  | timer k => exact timer_fsm k h
  | neighReady => exact .same h rfl rfl rfl
  | env w => exact .same h rfl rfl rfl

/-- A socket after `tpa_listen_on`. -/
def tpaListen (cfg : TcpCfg) (w : Worker) (sid : Nat) (isIpv6 : Bool) : St :=
  ⟨w, { tsockInit cfg sid isIpv6 with state := .listen }⟩

inductive Started (cfg : TcpCfg) : St → Prop
  | opened {s : St} (h : Opened cfg s) : Started cfg s
  | listen (w : Worker) (sid : Nat) (isIpv6 : Bool) : Started cfg (tpaListen cfg w sid isIpv6)

theorem Started.fsm (h : Started cfg s) : FsmInv s := by
  cases h with
  | listen w sid isIpv6 => exact .of_early rfl rfl TcpState.noConfusion
  | opened h =>
    cases h with
    | connect w sid isIpv6 => exact .of_early rfl rfl TcpState.noConfusion
    | accept w sid isIpv6 p =>
      obtain ⟨b, isn, mss, wscale, nego, ht⟩ :=
        passiveTsockInit_tsock cfg ⟨w, tsockInit cfg sid isIpv6⟩ p
      refine xmitSyn_fsm cfg (fun _ => ?_) ?_ ?_
      all_goals rw [ht]
      · exact ⟨rfl, rfl⟩
      · rfl
      · rfl

/-- The state moves along the diagram, and CLOSED is its end. -/
structure StateLaw (cfg : TcpCfg) (s : St) (e : ConnEv) (s' : St) : Prop where
  path : ReflTransGen (Change cfg s e) s.tsock.state s'.tsock.state
  closed : s.tsock.state = .closed → s'.tsock.state = .closed

theorem Change.not_closed (h : Change cfg s e a b) : a ≠ .closed := by
  rintro rfl
  cases h with
  | packet p _ hc =>
    cases hc with
    | edge c hs hd => cases hs <;> cases hd
    | reset _ ha => exact ha rfl
  | close _ hc =>
    cases hc with
    | edge _ hd => cases hd
    | reset _ _ ha => exact ha rfl
  | timeout _ _ ha => exact ha rfl

theorem EvMoved.law (h : EvMoved cfg s e s') : StateLaw cfg s e s' := by
  refine ⟨h.path, fun hc => ?_⟩
  rcases h.path.cases_head with heq | ⟨c, hch, -⟩
  · exact heq.symm.trans hc
  · exact absurd hc hch.not_closed

/-- In every run whose packets say what is presumed, each event moves the state
of a socket along the diagram. -/
theorem states_follow_diagram (cfg : TcpCfg) (s₀ : St) (c : Conn) (hs : Started cfg s₀)
    (hr : Reach (connStep cfg) (fun c e => Fed cfg c.st e ∧ Presumes cfg c.st e) (Conn.start s₀) c)
    (e : ConnEv) (hf : Fed cfg c.st e) (hp : Presumes cfg c.st e) :
    StateLaw cfg c.st e (sockStep cfg c.st e) := by
  have hinv : FsmInv c.st := by
    refine hr.invariant (I := fun c => FsmInv c.st) hs.fsm ?_
    intro c e h hok
    unfold connStep
    split
    · exact h
    · exact (sockStep_fsm e h hok.1 hok.2).inv
  exact (sockStep_fsm e hinv hf hp).law

def greeted : St :=
  xmitSyn {} (passiveTsockInit {} ⟨Worker.boot 0 { allocOk := [true, true, true], ethOk := [true] },
    tsockInit {} 0 false⟩ (.bare 0 100 0 0 { syn := true })).1

def orderlyClose : List ConnEv :=
  handshake ++ [.close, .output, .packet (.bare 2 101 2 0 { ack := true })]

theorem states_follow_diagram_orderlyClose :
    let c := exec (connStep {}) (Conn.start greeted) orderlyClose
    c.st.tsock.state = .finWait1 ∧ (sockStep {} c.st .burstEnd).tsock.state = .finWait2 ∧
      FinOut c.st.tsock ∧ StateLaw {} c.st .burstEnd (sockStep {} c.st .burstEnd) := by
  have hs : Started {} greeted := .opened (.accept _ _ _ _ ⟨by decide, by decide⟩)
  have hadm : Admitted (connStep {}) (fun c e => Fed {} c.st e ∧ Presumes {} c.st e)
      (Conn.start greeted) orderlyClose := by
    refine ⟨⟨⟨?_, ?_⟩, ?_⟩, ⟨⟨?_, ?_⟩, ?_⟩, ⟨⟨?_, ?_⟩, ?_⟩, ⟨⟨?_, ?_⟩, ?_⟩, ⟨⟨?_, ?_⟩, ?_⟩, trivial⟩
    all_goals first | exact fun p hp _ =>
      (by decide +kernel : ∀ p ∈ processed _ _ _, Presumed _ p) p hp
                    | decide +kernel
                    | (rintro p ⟨⟩; try exact Packet.parsed_single ..)
  refine ⟨by decide +kernel, by decide +kernel, by decide +kernel, ?_⟩
  refine states_follow_diagram {} greeted _ hs (Reach.refl.exec hadm) .burstEnd ⟨?_, ?_⟩ ?_
  · rintro p ⟨⟩
  · decide +kernel
  · exact fun p hp _ => (by decide +kernel : ∀ p ∈ processed _ _ _, Presumed _ p) p hp

/-- The ACK of the handshake acknowledges the number of the SYN itself, not the
one behind it. -/
def staleAck : List ConnEv :=
  [.packet (.bare 1 101 0 0 { ack := true })]

/-- It establishes the connection all the same. -/
theorem staleAck_establishes :
    let c := exec (connStep {}) (Conn.start greeted) staleAck
    c.st.tsock.state = .synRcvd ∧ (sockStep {} c.st .burstEnd).tsock.state = .established ∧
      ¬ StateLaw {} c.st .burstEnd (sockStep {} c.st .burstEnd) := by
  refine ⟨by decide +kernel, by decide +kernel, fun hlaw => ?_⟩
  have hp : processed {} (exec (connStep {}) (Conn.start greeted) staleAck).st .burstEnd =
    some (parseTsOptFast (.bare 1 101 0 0 { ack := true })) := by decide +kernel
  have hisn : (exec (connStep {}) (Conn.start greeted) staleAck).st.tsock.snd.sndIsn = 0 := by
    decide +kernel
  have hpath := hlaw.path
  have h1 : (exec (connStep {}) (Conn.start greeted) staleAck).st.tsock.state = .synRcvd := by
    decide +kernel
  have h2 : (sockStep {} (exec (connStep {}) (Conn.start greeted) staleAck).st
    .burstEnd).tsock.state = .established := by decide +kernel
  rcases hpath.cases_head with heq | ⟨st, hch, -⟩
  · cases heq
  cases hch with
  | packet p hp' hc =>
    cases hp'
    cases hc with
    | edge c hsh hd =>
      cases hsh with
      | ackOfSyn _ h =>
        revert h
        decide
      | synAck => cases hd
      | ackOfFin => cases hd
      | fin => cases hd
    | reset hr => cases hr
  | close he => cases he
  | timeout _ he => cases he

end LibTpa
