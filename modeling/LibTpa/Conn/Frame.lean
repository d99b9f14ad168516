/- LibTpa/Conn/Frame
   digest: Which steps of a connection leave its receive half alone. -/

import LibTpa.Conn.Step
import LibTpa.Input.Frame

set_option autoImplicit false

namespace LibTpa

/-- The life of the peer's stream, as the state of a socket tells it. -/
inductive Phase
  | gone | listening | opening | flowing | ended
  deriving DecidableEq

def TcpState.phase : TcpState → Phase
  | .closed => .gone
  | .listen => .listening
  | .synSent => .opening
  | .synRcvd | .established | .finWait1 | .finWait2 => .flowing
  | .closeWait | .closing | .lastAck | .timeWait => .ended

theorem TcpState.phase_gone {st : TcpState} : st.phase = .gone ↔ st = .closed := by
  cases st <;> simp [phase]

theorem TcpState.phase_listening {st : TcpState} : st.phase = .listening ↔ st = .listen := by
  cases st <;> simp [phase]

/-- The receive queues are untouched, and the socket is in the same phase or
closed. -/
structure RcvStill (s s' : St) : Prop where
  keeps : KeepsRcv s s'
  phase : s'.tsock.state.phase = s.tsock.state.phase ∨ s'.tsock.state = .closed
  freed : s'.tsock.freed = s.tsock.freed
  head : s'.tsock.rxMergeHead = s.tsock.rxMergeHead
  isn : s'.tsock.rcv.rcvIsn = s.tsock.rcv.rcvIsn
  announces : Announces s s'

theorem SndFrame.still {s s' : St} (h : SndFrame s s') : RcvStill s s' := by
  refine ⟨h.keeps, .inl (by rw [h.state]), by rw [h.tsock], by rw [h.tsock], ?_, h.announces⟩
  rcases h.rcv with h | h <;> rw [h]
  rfl

theorem Announces.tsockSetState (cfg : TcpCfg) (s : St) (st : TcpState)
    (h : st = .listen → s.tsock.state = .listen) : Announces s (tsockSetState cfg s st) := by
  unfold LibTpa.tsockSetState
  split <;> exact .of_eq rfl rfl rfl h

theorem tsockEstablished_split (cfg : TcpCfg) (s : St) (p : Packet) :
    ∃ s₁, TxFrame s s₁ ∧ s₁.tsock.snd = { s.tsock.snd with sndUna := p.ack } ∧
      tsockEstablished cfg s p = tsockEventAdd (tsockSetState cfg s₁ .established) tpaEventOut :=
  ⟨_, (((TxFrame.setSnd s { s.tsock.snd with sndUna := p.ack } s.tsock.snd.txq.nxt
    ⟨rfl, rfl, rfl, rfl, fun h => ⟨rfl, h⟩⟩ rfl).trans (.setCc ..)).trans (.setTimers ..)).trans
      (.setTimers ..), rfl, rfl⟩

theorem Announces.tsockEstablished (cfg : TcpCfg) (s : St) (p : Packet) :
    Announces s (tsockEstablished cfg s p) := by
  obtain ⟨s₁, h, -, he⟩ := tsockEstablished_split cfg s p
  rw [he]
  exact (h.frame.announces.trans (.tsockSetState cfg s₁ .established nofun)).trans
    (SndFrame.tsockEventAdd _ _).announces

namespace RcvStill

variable {s s' s'' : St}

theorem refl (s : St) : RcvStill s s := (SndFrame.refl s).still

theorem trans (h : RcvStill s s') (h' : RcvStill s' s'') : RcvStill s s'' := by
  refine ⟨h.keeps.trans h'.keeps, ?_, h'.freed.trans h.freed, h'.head.trans h.head,
    h'.isn.trans h.isn, h.announces.trans h'.announces⟩
  rcases h'.phase with hp | hp
  · rcases h.phase with hq | hq
    · exact .inl (hp.trans hq)
    · rw [hq] at hp
      exact .inr (TcpState.phase_gone.mp hp)
  · exact .inr hp

theorem of_eq (hr : s'.tsock.rcv = s.tsock.rcv) (hx : s'.worker.rx = s.worker.rx)
    (he : s'.tsock.flags.eof = s.tsock.flags.eof) (hst : s'.tsock.state = s.tsock.state)
    (hf : s'.tsock.freed = s.tsock.freed) (hh : s'.tsock.rxMergeHead = s.tsock.rxMergeHead)
    (hn : s'.tsock.nego.rcvWscale = s.tsock.nego.rcvWscale)
    (hm : s'.tsock.emitted = s.tsock.emitted) : RcvStill s s' :=
  ⟨⟨.inl hr, hx, he⟩, .inl (by rw [hst]), hf, hh, by rw [hr],
    .of_eq hr hn hm (by rw [hst]; exact id)⟩

theorem tsockSetState (cfg : TcpCfg) (s : St) (st : TcpState)
    (h : st.phase = s.tsock.state.phase ∨ st = .closed) : RcvStill s (tsockSetState cfg s st) := by
  refine ⟨.tsockSetState cfg s st, by rw [tsockSetState_state]; exact h, ?_, ?_, ?_,
    .tsockSetState cfg s st ?_⟩
  case refine_4 =>
    rintro rfl
    exact TcpState.phase_listening.mp (h.resolve_right nofun).symm
  all_goals
    unfold LibTpa.tsockSetState
    split <;> rfl

theorem setFlags (s : St) (f : TsockFlags) (h : f.eof = s.tsock.flags.eof) :
    RcvStill s (s.setFlags f) := of_eq rfl rfl h rfl rfl rfl rfl rfl

theorem tsockSetAckFlag (cfg : TcpCfg) (s : St) (b : Bool) : RcvStill s (tsockSetAckFlag cfg s b) :=
  of_eq rfl rfl rfl rfl rfl rfl rfl rfl

theorem tsockRearmTimerKeepalive (cfg : TcpCfg) (s : St) :
    RcvStill s (tsockRearmTimerKeepalive cfg s) := of_eq rfl rfl rfl rfl rfl rfl rfl rfl

theorem tcpRcvRst (cfg : TcpCfg) (s : St) : RcvStill s (tcpRcvRst cfg s).2 := by
  unfold LibTpa.tcpRcvRst
  split
  · exact refl s
  · dsimp only
    refine trans ?_ (.tsockSetState _ _ _ (.inr rfl))
    split
    · exact of_eq rfl rfl rfl rfl rfl rfl rfl rfl
    · refine trans ?_ (SndFrame.tsockEventAdd _ _).still
      exact of_eq rfl rfl rfl rfl rfl rfl rfl rfl

theorem ackFin (cfg : TcpCfg) (s : St) (ack : U32) : RcvStill s (ackFin cfg s ack) := by
  unfold LibTpa.ackFin
  split
  · have h : RcvStill s (s.setFlags { s.tsock.flags with finPending := false }) := setFlags _ _ rfl
    dsimp only
    split
    · next hs => exact h.trans (.tsockSetState _ _ _ (.inl (by rw [hs]; rfl)))
    · next hs => exact h.trans (.tsockSetState _ _ _ (.inl (by rw [hs]; rfl)))
    · refine trans ?_ (.tsockSetState _ _ _ (.inr rfl))
      exact of_eq rfl rfl rfl rfl rfl rfl rfl rfl
    · exact h
  · exact refl s

theorem tsockEstablished (cfg : TcpCfg) (s : St) (p : Packet) (h : s.tsock.state = .synRcvd) :
    RcvStill s (tsockEstablished cfg s p) := by
  obtain ⟨s₁, hf, -, he⟩ := tsockEstablished_split cfg s p
  rw [he]
  refine trans (trans hf.frame.still (.tsockSetState _ _ _ (.inl ?_)))
    (SndFrame.tsockEventAdd _ _).still
  rw [hf.state, h]
  rfl

theorem tcpRcvAck (cfg : TcpCfg) (s : St) (p : Packet) (o : TcpOpts) :
    RcvStill s (tcpRcvAck cfg s p o).2 := by
  unfold LibTpa.tcpRcvAck
  split
  · exact refl s
  split
  · exact refl s
  · exact refl s
  · exact refl s
  split
  · exact refl s
  split
  · exact .tsockSetAckFlag cfg s true
  split
  · next hs => exact (tsockEstablished cfg s p hs).trans (of_eq rfl rfl rfl rfl rfl rfl rfl rfl)
  · dsimp only
    have h := (TxFrame.countDupack s p).frame.still.trans (.ackFin cfg _ p.ack)
    exact h.trans (TxFrame.ackProgress cfg _ p o _).frame.still

theorem sendAck (cfg : TcpCfg) (s : St) (p : Packet) : RcvStill s (sendAck cfg s p) := by
  unfold LibTpa.sendAck
  split
  · exact refl s
  · refine trans ?_ (.tsockSetAckFlag ..)
    split
    · exact of_eq rfl rfl rfl rfl rfl rfl rfl rfl
    · exact refl s

theorem sendRst (cfg : TcpCfg) (s : St) (p : Packet) : RcvStill s (sendRst cfg s p) := by
  unfold LibTpa.sendRst
  split
  · exact refl s
  · exact (SndFrame.setTcp s _).still.trans (Quiet.xmitFlagPacket cfg _).frame.still

end RcvStill

/-- A write changes the queue and the end of the written stream; the rest of the
send half stays. When a cursor has moved, the socket is queued for output. -/
structure WriteFrame (s s' : St) : Prop where
  frame : SndFrame s s'
  snd : s'.tsock.snd = { s.tsock.snd with
    txq := { s.tsock.snd.txq with
      write := s'.tsock.snd.txq.write
      descs := s'.tsock.snd.txq.descs }
    dataSeqNxt := s'.tsock.snd.dataSeqNxt }
  tsock : s'.tsock = { s.tsock with snd := s'.tsock.snd, ev := s'.tsock.ev }
  cursors : (s'.tsock.snd.txq.nxt = s.tsock.snd.txq.nxt ∧
    s'.tsock.snd.txq.write = s.tsock.snd.txq.write) ∨ s.tsock.sid ∈ s'.worker.output

theorem SndFrame.write {s s' : St} (h : SndFrame s s') (hs : s'.tsock.snd = s.tsock.snd)
    (ht : s'.tsock = { s.tsock with snd := s'.tsock.snd, ev := s'.tsock.ev }) : WriteFrame s s' :=
  ⟨h, by rw [hs], ht, .inl ⟨by rw [hs], by rw [hs]⟩⟩

namespace WriteFrame

theorem flags {s s' : St} (h : WriteFrame s s') : s'.tsock.flags = s.tsock.flags := by rw [h.tsock]

theorem refl (s : St) : WriteFrame s s := (SndFrame.refl s).write rfl rfl

theorem trans {s s' s'' : St} (h : WriteFrame s s') (h' : WriteFrame s' s'') :
    WriteFrame s s'' := by
  refine ⟨h.frame.trans h'.frame, h'.snd.trans (by rw [h.snd]),
    h'.tsock.trans (by rw [h.tsock]), ?_⟩
  have hsid : s'.tsock.sid = s.tsock.sid := by rw [h.frame.tsock]
  rcases h'.cursors with hk' | hq
  · rcases h.cursors with hk | hq
    · exact .inl ⟨hk'.1.trans hk.1, hk'.2.trans hk.2⟩
    · rw [← hsid] at hq ⊢
      exact .inr (h'.frame.own.stay hq)
  · exact .inr (hsid ▸ hq)

theorem setTx (s : St) (x : TxPool) : WriteFrame s (s.setTx x) := (SndFrame.setTx s x).write rfl rfl

theorem setDesc (s : St) (d : DescId) (v : TxDesc) : WriteFrame s (s.setDesc d v) := setTx ..

theorem counters {s s' : St} (ht : s'.tsock = s.tsock) (hw : s'.worker = { s.worker with
      tx := s'.worker.tx
      nrWriteMbuf := s'.worker.nrWriteMbuf
      mbufUsed := s'.worker.mbufUsed }) : WriteFrame s s' := by
  have hf : SndFrame s s' :=
    ⟨by rw [ht], hw.trans (by rw [hw]), .inl (by rw [ht]), by rw [ht],
      .of_eq (by rw [ht]) (by rw [ht]) (by rw [ht]) (by rw [ht]; exact id),
      .of_eq (by rw [hw]) (by rw [hw])⟩
  exact hf.write (by rw [ht]) (by rw [ht])

theorem rteRdtsc (s : St) : WriteFrame s (rteRdtsc s).2 :=
  (SndFrame.rteRdtsc s).write (by unfold LibTpa.rteRdtsc; split <;> rfl)
    (by unfold LibTpa.rteRdtsc; split <;> rfl)

theorem putDesc (s : St) (c : WriteCtx) (d : DescId) (v : Iovec) (chunk : List Byte)
    (hc : chunk.length < 2 ^ 32) (copied last : Bool) :
    WriteFrame s (putDesc s c d v chunk hc copied last).1 :=
  (WriteFrame.setDesc ..).trans ⟨.setSnd .., rfl, rfl, .inl ⟨rfl, rfl⟩⟩

theorem chunkMem (cfg : TcpCfg) (s : St) (phys : Bool) : WriteFrame s (chunkMem cfg s phys).2 := by
  unfold LibTpa.chunkMem
  split
  · exact refl s
  split
  · exact refl s
  have h : WriteFrame s (packetAlloc s).2 :=
    (SndFrame.packetAlloc s).write (by unfold packetAlloc; split <;> rfl)
      (by unfold packetAlloc; split <;> rfl)
  split
  · next heq =>
    rw [heq] at h
    exact h
  · next heq =>
    rw [heq] at h
    refine h.trans ?_
    exact .counters rfl rfl

theorem writeChunks (cfg : TcpCfg) (v : Iovec) (n : Nat) :
    ∀ (rest : List Byte) (h : rest.length < 2 ^ 32) (s : St) (c : WriteCtx),
      WriteFrame s (writeChunks cfg v n rest h s c).2.1 := by
  induction n with
  | zero =>
    intro rest h s c
    exact refl s
  | succ n ih =>
    intro rest h s c
    unfold LibTpa.writeChunks
    split
    · exact refl s
    split
    · exact refl s
    · next d tx _ =>
      have hm := (WriteFrame.setTx s tx).trans (.chunkMem cfg _ v.phys)
      split
      · next heq =>
        rw [heq] at hm
        exact hm.trans (.setTx ..)
      · next s₁ heq =>
        rw [heq] at hm
        have hp := hm.trans (.putDesc s₁ c d v (rest.take (chunkLen cfg v.phys rest.length))
          (take_chunk_lt _ h) (!v.phys) (rest.length ≤ chunkLen cfg v.phys rest.length))
        dsimp only
        split
        · exact hp
        · exact hp.trans (ih ..)

theorem writeIovs (cfg : TcpCfg) (iov : List Iovec) : ∀ (s : St) (c : WriteCtx),
    WriteFrame s (writeIovs cfg iov s c).2.1 := by
  induction iov with
  | nil =>
    intro s c
    exact refl s
  | cons v rest ih =>
    intro s c
    have h : WriteFrame s (writeOneIov cfg s v c).2.1 := by
      unfold writeOneIov
      split
      · exact refl s
      · exact .writeChunks ..
    unfold LibTpa.writeIovs
    split
    · next heq =>
      rw [heq] at h
      exact h
    · next heq =>
      rw [heq] at h
      exact h.trans (ih ..)

theorem zwriteLoop (cfg : TcpCfg) (iov rest : List Iovec) : ∀ (s : St) (c : WriteCtx),
    WriteFrame s (zwriteLoop cfg iov rest s c).2.1 := by
  induction rest with
  | nil =>
    intro s c
    exact refl s
  | cons v rest ih =>
    intro s c
    unfold LibTpa.zwriteLoop
    split
    · have h := WriteFrame.writeIovs cfg (iov.drop c.nrDesc) s { c with nrFallback := 0 }
      split
      · next heq =>
        rw [heq] at h
        exact h
      · next heq =>
        rw [heq] at h
        refine h.trans ?_
        exact .counters rfl rfl
    split
    · exact refl s
    split
    · exact refl s
    · exact ((WriteFrame.setTx ..).trans (.putDesc ..)).trans (ih ..)

theorem initWriteLatTsc (cfg : TcpCfg) (s : St) (c : WriteCtx) :
    WriteFrame s (initWriteLatTsc cfg s c) := by
  unfold LibTpa.initWriteLatTsc
  split
  · dsimp only
    split
    · exact (WriteFrame.rteRdtsc s).trans ((SndFrame.fault _).write rfl rfl)
    · exact (WriteFrame.rteRdtsc s).trans (.setDesc ..)
  · exact refl s

theorem writeCommit (s : St) (c : WriteCtx) : WriteFrame s (writeCommit s c) :=
  ⟨(SndFrame.setSnd ..).trans (.outputTsockEnqueue _), rfl, rfl,
    .inr (mem_pushIfNotExist.mpr (.inr rfl))⟩

theorem writeRevoke (s : St) (c : WriteCtx) : WriteFrame s (writeRevoke s c) := by
  have h : ∀ (l : List DescId) (s : St), WriteFrame s (l.foldl revokeDesc s) := by
    intro l
    induction l with
    | nil => exact refl
    | cons d l ih =>
      intro s
      refine trans ?_ (ih (revokeDesc s d))
      unfold revokeDesc
      split
      · exact .counters rfl rfl
      · exact .setTx ..
  exact h ..

theorem tsockZwritev (cfg : TcpCfg) (s : St) (iov : List Iovec) :
    WriteFrame s (tsockZwritev cfg s iov).2 := by
  have ht : WriteFrame s (writeStartTsc cfg s).2 := by
    unfold writeStartTsc
    split
    · exact .rteRdtsc s
    · exact refl s
  unfold LibTpa.tsockZwritev
  dsimp only
  split
  · exact ht
  have hl := fun c => ht.trans (.zwriteLoop cfg iov iov (writeStartTsc cfg s).2 c)
  split
  · next heq =>
    have h := hl ⟨(tcpTxqFreeCount s.tsock.snd.txq).toNat, 0, 0, 0, (writeStartTsc cfg s).1⟩
    rw [heq] at h
    exact (h.trans (.initWriteLatTsc ..)).trans (.writeCommit ..)
  · next s₁ c heq =>
    have h := hl ⟨(tcpTxqFreeCount s.tsock.snd.txq).toNat, 0, 0, 0, (writeStartTsc cfg s).1⟩
    rw [heq] at h
    refine (h.trans (.writeRevoke s₁ c)).trans ?_
    unfold refireOutEventIfNeeded
    split
    · exact (SndFrame.tsockEventAdd ..).write rfl rfl
    · exact refl _

end WriteFrame

namespace SndFrame

theorem outputFlags (cfg : TcpCfg) (s : St) : SndFrame s (outputFlags cfg s) := by
  have hfin : SndFrame s (finReady s) := by
    unfold finReady
    dsimp only
    split
    · refine trans ?_ (.setTimers ..)
      exact ⟨rfl, rfl, .inl rfl, rfl, .of_eq rfl rfl rfl id, .of_eq rfl rfl⟩
    · exact ⟨rfl, rfl, .inl rfl, rfl, .of_eq rfl rfl rfl id, .of_eq rfl rfl⟩
  have h : SndFrame s (requeueOrFin s) := by
    unfold requeueOrFin
    split
    · exact .outputTsockEnqueue s
    split
    · exact hfin
    · exact refl s
  unfold LibTpa.outputFlags
  dsimp only
  split
  · exact h
  · exact h.trans (Quiet.xmitFlagPacket cfg _).frame

end SndFrame

namespace TxFrame

theorem clearSacked (s : St) : TxFrame s (clearSacked s) := by
  have h : ∀ (n : Nat) (s : St) (idx : U16), TxFrame s (clearSackedLoop n s idx) := by
    intro n
    induction n with
    | zero =>
      intro s idx
      exact refl s
    | succ n ih =>
      intro s idx
      unfold clearSackedLoop
      split
      · exact refl s
      · next d _ =>
        exact (TxFrame.setDesc s d { s.desc d with sacked := false } ⟨rfl, rfl, rfl, rfl⟩).trans
          (ih ..)
  exact (h ..).trans (.setCc ..)

theorem stampRtoStart (s : St) : TxFrame s (stampRtoStart s) := by
  unfold LibTpa.stampRtoStart
  split
  · split
    · exact .setCc ..
    · exact refl s
  · exact refl s

theorem rtoRestart (s : St) : TxFrame s (rtoRestart s) :=
  ((TxFrame.setCc ..).trans (.setTimers ..)).trans (.setRetrans ..)

theorem rtoResend (cfg : TcpCfg) (s : St) : TxFrame s
    (LibTpa.tcpRetrans cfg (LibTpa.rtoRestart (LibTpa.clearSacked (LibTpa.stampRtoStart s)))) :=
  (((TxFrame.stampRtoStart s).trans (.clearSacked _)).trans (.rtoRestart _)).trans (.tcpRetrans ..)

end TxFrame

def St.counted (s : St) (t : Timers) (c : Cc) : St := (s.setTimers t).setCc c

theorem TxFrame.counted (s : St) (t : Timers) (c : Cc) : TxFrame s (s.counted t c) :=
  (TxFrame.setTimers s t).trans (.setCc ..)

inductive TimeoutCase (cfg : TcpCfg) (s : St) : TimerKind → St → Prop
  | stopped {k : TimerKind} (t : Timers) : TimeoutCase cfg s k (s.counted t s.tsock.cc)
  | givenUp {k : TimerKind} (t : Timers) (c : Cc) (b : Bool) (hc : s.tsock.state ≠ .closed) :
      TimeoutCase cfg s k (timedOut cfg (s.counted t c) b)
  | resent (t : Timers) (c : Cc) : TimeoutCase cfg s .rto
      (outputTsockEnqueue
        (tcpRetrans cfg (rtoRestart (clearSacked (stampRtoStart (s.counted t c))))))
  | waited (t : Timers) (hc : s.tsock.state ≠ .closed) : TimeoutCase cfg s .wait
      (tsockFree (tsockSetState cfg (s.counted t s.tsock.cc) .closed))
  | probed (t t' : Timers) (s₁ : St) (hst : s.tsock.state = .established)
      (hx : s₁ = (xmitFlagPacketWithSeq cfg ((s.counted t s.tsock.cc).setFlags
        { s.tsock.flags with tcp := { s.tsock.flags.tcp with ack := true } })
        (s.tsock.snd.sndUna - 1)).2) (hk : s.tsock.timers.keepalive ≠ none)
      (hs : s.tsock.timers.keepaliveShift.toNat < cfg.retries) :
      TimeoutCase cfg s .keepalive (s₁.setTimers t')

theorem tcpTimeout_cases (cfg : TcpCfg) (s : St) (k : TimerKind) :
    TimeoutCase cfg s k (tcpTimeout cfg s k) := by
  unfold tcpTimeout
  split
  · exact .stopped s.tsock.timers
  next hk =>
  dsimp only
  split
  · exact .stopped (s.tsock.timers.stop k)
  next hc =>
  cases k with
  | rto =>
    unfold tcpTimeoutRto
    dsimp only
    split
    · exact .givenUp (s := s) _ _ _ hc
    · exact .resent (s := s) _ _
  | wait => exact .waited _ hc
  | keepalive =>
    unfold tcpTimeoutKeepalive
    dsimp only
    generalize hs₁ : (s.setTimers (s.tsock.timers.stop .keepalive)).setTimers _ = s₁
    obtain ⟨t, rfl⟩ : ∃ t, s₁ = s.counted t s.tsock.cc :=
      ⟨s₁.tsock.timers, by rw [← hs₁]; rfl⟩
    split
    · exact .givenUp t s.tsock.cc false hc
    next hs =>
    split
    · next hst => exact .probed t _ _ hst rfl hk (Nat.lt_of_not_le hs)
    · exact .stopped t

namespace RcvStill

theorem tpaClose (s : St) : RcvStill s (tpaClose s) := by
  unfold LibTpa.tpaClose
  split
  · exact refl s
  · refine trans ?_ (SndFrame.outputTsockEnqueue _).still
    exact of_eq rfl rfl rfl rfl rfl rfl rfl rfl

theorem delayedAckTurn (cfg : TcpCfg) (s : St) : RcvStill s (delayedAckTurn cfg s) := by
  have hdue : RcvStill s (xmitDueAck cfg s) := by
    unfold xmitDueAck
    split
    · exact (Quiet.xmitFlagPacket cfg s).frame.still
    · exact refl s
  unfold LibTpa.delayedAckTurn tcpFlushDelayedAck
  split
  · split
    · exact refl s
    · refine hdue.trans ?_
      exact of_eq rfl rfl rfl rfl rfl rfl rfl rfl
  · exact refl s

theorem flushTcpPacket (s : St) : RcvStill s (flushTcpPacket s) :=
  ((Quiet.setTcp s _).trans (.tsockUpdateLastSndPkt _)).frame.still

theorem inputAck (cfg : TcpCfg) (s : St) : RcvStill s (inputAck cfg s) := by
  unfold LibTpa.inputAck
  split
  · split
    · exact (Quiet.xmitFlagPacket cfg s).frame.still
    · exact of_eq rfl rfl rfl rfl rfl rfl rfl rfl
  · exact refl s

end RcvStill

/-! Steps that may also release the socket. -/

theorem reclaimTxq_tsock (s : St) : (reclaimTxq s).tsock = s.tsock := by
  unfold reclaimTxq
  generalize s.tsock.snd.txq.live = l
  induction l generalizing s with
  | nil => rfl
  | cons d l ih =>
    rw [List.foldl_cons, ih]
    rfl

theorem tsockFree_tsock (s : St) : ∃ rcv timers, (tsockFree s).tsock =
    { s.tsock with rcv := rcv, timers := timers, freed := true } := by
  have h := reclaimTxq_tsock (reclaimRxq (s.setTimers
    { s.tsock.timers with rto := none, wait := none, keepalive := none }))
  unfold tsockFree
  dsimp only
  generalize reclaimTxq (reclaimRxq _) = s₂ at h ⊢
  refine ⟨(reclaimOooLoop s₂.tsock.rcv.ooo s₂.rxSt).rcv, s₂.tsock.timers, ?_⟩
  generalize hr : (reclaimOooLoop s₂.tsock.rcv.ooo s₂.rxSt).rcv = r
  change { s₂.tsock with rcv := (reclaimOooLoop s₂.tsock.rcv.ooo s₂.rxSt).rcv, freed := true } = _
  rw [hr, h]
  rfl

theorem tsockFree_freed (s : St) : (tsockFree s).tsock.freed = true := rfl

structure Released (s s' : St) : Prop where
  freed : s'.tsock.freed = true
  sent : ∃ s₁, RcvStill s s₁ ∧ s'.tsock.emitted = s₁.tsock.emitted

theorem RcvStill.free {s s₁ : St} (h : RcvStill s s₁) : Released s (tsockFree s₁) := by
  obtain ⟨rcv, timers, ht⟩ := tsockFree_tsock s₁
  exact ⟨tsockFree_freed s₁, s₁, h, by rw [ht]⟩

def StillOrFreed (s s' : St) : Prop := Released s s' ∨ RcvStill s s'

theorem RcvStill.or {s s' : St} (h : RcvStill s s') : StillOrFreed s s' := .inr h

theorem StillOrFreed.trans {s s' s'' : St} (h : RcvStill s s') (h' : StillOrFreed s' s'') :
    StillOrFreed s s'' := by
  refine h'.imp (fun hr => ⟨hr.freed, ?_⟩) h.trans
  obtain ⟨s₁, hs, he⟩ := hr.sent
  exact ⟨s₁, h.trans hs, he⟩

namespace StillOrFreed

theorem tcpClose (cfg : TcpCfg) (s : St) : RcvStill s (tcpClose cfg s) ∨
    Released s (tcpClose cfg s) ∧ (tcpClose cfg s).tsock.state = .closed := by
  have hsw : ∀ s : St, RcvStill s (closeSwitch cfg s) := by
    intro s
    unfold closeSwitch
    have hset : ∀ (s₁ : St) (st : TcpState), RcvStill s s₁ →
        (st.phase = s.tsock.state.phase ∨ st = .closed) → s₁.tsock.state = s.tsock.state →
        RcvStill s (tsockSetState cfg s₁ st) := fun s₁ st h hp he =>
      h.trans (.tsockSetState _ _ _ (by rw [he]; exact hp))
    split
    · exact hset s _ (.refl s) (.inr rfl) rfl
    · exact hset s _ (.refl s) (.inr rfl) rfl
    · next hs =>
        exact hset _ _ (.of_eq rfl rfl rfl rfl rfl rfl rfl rfl) (.inl (by rw [hs]; rfl)) rfl
    · next hs =>
        exact hset _ _ (.of_eq rfl rfl rfl rfl rfl rfl rfl rfl) (.inl (by rw [hs]; rfl)) rfl
    · next hs =>
        exact hset _ _ (.of_eq rfl rfl rfl rfl rfl rfl rfl rfl) (.inl (by rw [hs]; rfl)) rfl
    · exact .refl s
  have hun : ∀ s : St, RcvStill s (closeUnread cfg s) := by
    intro s
    exact ((RcvStill.tsockSetState cfg s .closed (.inr rfl)).trans
      (SndFrame.setTcp _ _).still).trans (Quiet.xmitFlagPacket cfg _).frame.still
  have hone : RcvStill s (closeOnce cfg s) := by
    refine RcvStill.trans (.setFlags s { s.tsock.flags with closeProcessed := true } rfl) ?_
    unfold closeOnce
    dsimp only
    split
    · exact hsw _
    · exact hun _
  unfold LibTpa.tcpClose
  split
  · exact .inl (.refl s)
  dsimp only
  split
  · next hclosed =>
    obtain ⟨rcv, timers, ht⟩ := tsockFree_tsock (closeOnce cfg s)
    exact .inr ⟨hone.free, by rw [ht]; exact hclosed⟩
  · exact .inl hone

theorem tcpOutputOne (cfg : TcpCfg) (s : St) : StillOrFreed s (tcpOutputOne cfg s) := by
  unfold LibTpa.tcpOutputOne
  split
  · exact (RcvStill.refl s).or
  · have hc : RcvStill s (closeIfIssued cfg s) ∨
        Released s (closeIfIssued cfg s) ∧ (closeIfIssued cfg s).tsock.state = .closed := by
      unfold closeIfIssued
      split
      · exact tcpClose cfg s
      · exact .inl (.refl s)
    dsimp only
    generalize closeIfIssued cfg s = s₁ at hc
    rcases hc with hc | ⟨hr, hst⟩
    · have hx : ∀ s₂, SndFrame s₁ s₂ → StillOrFreed s s₂ := fun s₂ h => (hc.trans h.still).or
      split
      · exact hc.or
      · exact hx _ (.xmitSyn cfg s₁)
      · exact hx _ (.xmitSyn cfg s₁)
      · exact hx _ ((OutFrame.tcpXmitData cfg s₁).frame.trans (.outputFlags cfg _))
    · rw [hst]
      exact .inl hr

theorem timedOut (cfg : TcpCfg) (s : St) (b : Bool) : StillOrFreed s (timedOut cfg s b) := by
  have h0 : RcvStill s (s.setErr (some .etimedout)) := .of_eq rfl rfl rfl rfl rfl rfl rfl rfl
  have h := h0.trans (.tsockSetState cfg _ .closed (.inr rfl))
  unfold LibTpa.timedOut
  dsimp only
  split
  · exact .inl h.free
  · exact (h.trans (SndFrame.tsockEventAdd _ _).still).or

theorem tcpTimeout (cfg : TcpCfg) (s : St) (k : TimerKind) :
    StillOrFreed s (tcpTimeout cfg s k) := by
  have hcase := tcpTimeout_cases cfg s k
  generalize LibTpa.tcpTimeout cfg s k = s' at hcase
  have h : ∀ t c, RcvStill s (s.counted t c) := fun t c => (TxFrame.counted s t c).frame.still
  cases hcase with
  | stopped t => exact (h t _).or
  | givenUp t c b => exact StillOrFreed.trans (h t c) (.timedOut ..)
  | resent t c =>
    exact ((h t c).trans ((TxFrame.rtoResend cfg _).frame.trans (.outputTsockEnqueue _)).still).or
  | waited t => exact .inl ((h t _).trans (.tsockSetState cfg _ .closed (.inr rfl))).free
  | probed t t' s₁ _ hx =>
    have hq :=
      (h t s.tsock.cc).trans ((SndFrame.setTcp _ { s.tsock.flags.tcp with ack := true }).trans
      (Quiet.xmitFlagPacketWithSeq cfg _ (s.tsock.snd.sndUna - 1)).frame).still
    rw [hx]
    exact (hq.trans (SndFrame.setTimers ..).still).or

theorem outputTurn (cfg : TcpCfg) (s : St) : StillOrFreed s (outputTurn cfg s) := by
  unfold LibTpa.outputTurn
  split
  · refine StillOrFreed.trans ?_ (.tcpOutputOne cfg _)
    exact .of_eq rfl rfl rfl rfl rfl rfl rfl rfl
  · exact (RcvStill.refl s).or

end StillOrFreed

end LibTpa
