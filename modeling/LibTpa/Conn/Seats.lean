/- LibTpa/Conn/Seats
   digest: The places of a socket in the queues of its worker. -/

import LibTpa.Conn.FsmRun
import LibTpa.Conn.Moves

set_option autoImplicit false

namespace LibTpa

variable {s s' s'' : St} {p : Packet} {cfg : TcpCfg} {A : Packet → Prop}

/-- In all four queues of the worker only the entry of the socket changes. -/
structure OwnSeats (s s' : St) : Prop where
  output : SameBut s.tsock.sid s.worker.output s'.worker.output
  events : SameBut s.tsock.sid s.worker.eventQueue s'.worker.eventQueue
  acks : SameBut s.tsock.sid s.worker.delayedAck s'.worker.delayedAck
  accept : SameBut s.tsock.sid s.worker.accept s'.worker.accept
  children : s'.worker.children = s.worker.children
  once : s.worker.delayedAck.Nodup → s'.worker.delayedAck.Nodup

/-- The socket is still there, and where it waits to be accepted or to send it still
waits. -/
structure Seats (s s' : St) : Prop where
  sid : s'.tsock.sid = s.tsock.sid
  freed : s'.tsock.freed = s.tsock.freed
  passive : s'.tsock.passiveConnection = s.tsock.passiveConnection
  queues : OwnSeats s s'
  waits : s.tsock.sid ∈ s.worker.accept → s.tsock.sid ∈ s'.worker.accept
  stay : s.tsock.sid ∈ s.worker.output → s.tsock.sid ∈ s'.worker.output
  put : s.tsock.flags.put = true → s'.tsock.flags.put = true

theorem OwnSeats.trans (hi : s'.tsock.sid = s.tsock.sid) (h : OwnSeats s s')
    (h' : OwnSeats s' s'') :
    OwnSeats s s'' :=
  ⟨h.output.trans (hi ▸ h'.output), h.events.trans (hi ▸ h'.events), h.acks.trans (hi ▸ h'.acks),
    h.accept.trans (hi ▸ h'.accept), h'.children.trans h.children, fun hd => h'.once (h.once hd)⟩

namespace Seats

theorem trans (h : Seats s s') (h' : Seats s' s'') : Seats s s'' :=
  ⟨h'.sid.trans h.sid, h'.freed.trans h.freed, h'.passive.trans h.passive,
    h.queues.trans h.sid h'.queues,
    fun hw => h.sid ▸ h'.waits (h.sid.symm ▸ h.waits hw),
    fun hm => h.sid ▸ h'.stay (h.sid.symm ▸ h.stay hm), fun hp => h'.put (h.put hp)⟩

theorem of_own (ho : OwnQueues s s') (hd : s'.worker.delayedAck = s.worker.delayedAck)
    (ha : s'.worker.accept = s.worker.accept) (hc : s'.worker.children = s.worker.children)
    (hi : s'.tsock.sid = s.tsock.sid) (hf : s'.tsock.freed = s.tsock.freed)
    (hp : s'.tsock.passiveConnection = s.tsock.passiveConnection)
    (hput : s.tsock.flags.put = true → s'.tsock.flags.put = true) : Seats s s' :=
  ⟨hi, hf, hp, ⟨ho.output, ho.events, hd ▸ .refl _ _, ha ▸ .refl _ _, hc, fun h => hd ▸ h⟩,
     fun h => ha ▸ h, ho.stay, hput⟩

theorem of_eq (hw : s'.worker = { s.worker with
      tx := s'.worker.tx
      rx := s'.worker.rx
      nrWriteMbuf := s'.worker.nrWriteMbuf
      mbufUsed := s'.worker.mbufUsed
      done := s'.worker.done })
    (hi : s'.tsock.sid = s.tsock.sid) (hf : s'.tsock.freed = s.tsock.freed)
    (hp : s'.tsock.passiveConnection = s.tsock.passiveConnection)
    (hput : s.tsock.flags.put = true → s'.tsock.flags.put = true) : Seats s s' :=
  .of_own (.of_eq (by rw [hw]) (by rw [hw])) (by rw [hw]) (by rw [hw]) (by rw [hw]) hi hf hp hput

theorem refl (s : St) : Seats s s := .of_eq rfl rfl rfl rfl id

end Seats

theorem SndFrame.seats (h : SndFrame s s') : Seats s s' :=
  .of_own h.own (by rw [h.worker]) (by rw [h.worker]) (by rw [h.worker]) (by rw [h.tsock])
    (by rw [h.tsock]) (by rw [h.tsock]) (by rw [h.flags]; exact id)

theorem RcvFrame.seats (h : RcvFrame s s') : Seats s s' :=
  .of_own h.own (by rw [h.worker]) (by rw [h.worker]) (by rw [h.worker]) (by rw [h.tsock])
    (by rw [h.tsock]) (by rw [h.tsock]) (by rw [h.flags]; exact id)

theorem FinFrame.seats (h : FinFrame s s') : Seats s s' :=
  .of_own h.own (by rw [h.worker]) (by rw [h.worker]) (by rw [h.worker]) (by rw [h.tsock])
    (by rw [h.tsock]) (by rw [h.tsock]) (by rw [h.flags]; exact id)

theorem Checked.seats (h : Checked s s') : Seats s s' :=
  .of_eq (by rw [h.worker]) (by rw [h.tsock]) (by rw [h.tsock]) (by rw [h.tsock])
    (by rw [h.flags]; exact id)

structure Stays (s s' : St) : Prop extends Seats s s' where
  same : s'.tsock.flags.put = s.tsock.flags.put

namespace Stays

theorem trans (h : Stays s s') (h' : Stays s' s'') : Stays s s'' :=
  ⟨h.toSeats.trans h'.toSeats, h'.same.trans h.same⟩

theorem refl (s : St) : Stays s s := ⟨.refl s, rfl⟩

theorem of_eq (hw : s'.worker = { s.worker with
      tx := s'.worker.tx
      rx := s'.worker.rx
      nrWriteMbuf := s'.worker.nrWriteMbuf
      mbufUsed := s'.worker.mbufUsed
      done := s'.worker.done })
    (hi : s'.tsock.sid = s.tsock.sid) (hf : s'.tsock.freed = s.tsock.freed)
    (hp : s'.tsock.passiveConnection = s.tsock.passiveConnection)
    (hput : s'.tsock.flags.put = s.tsock.flags.put) : Stays s s' :=
  ⟨.of_eq hw hi hf hp fun h => hput.trans h, hput⟩

end Stays

theorem SndFrame.stays (h : SndFrame s s') : Stays s s' := ⟨h.seats, by rw [h.flags]⟩

theorem Stays.tsockSetState (cfg : TcpCfg) (s : St) (st : TcpState) :
    Stays s (tsockSetState cfg s st) := by
  unfold LibTpa.tsockSetState
  split <;> exact .of_eq rfl rfl rfl rfl rfl

namespace Seats

theorem tsockSetState (cfg : TcpCfg) (s : St) (st : TcpState) : Seats s (tsockSetState cfg s st) :=
  (Stays.tsockSetState cfg s st).toSeats

theorem tcpRcvRst (cfg : TcpCfg) (s : St) : Seats s (tcpRcvRst cfg s).2 := by
  unfold LibTpa.tcpRcvRst
  split
  · exact .refl s
  have h : Seats s ((s.setErr (rstEffect s.tsock).err).setFlags { s.tsock.flags with
      put := s.tsock.flags.put || (rstEffect s.tsock).put ||
        (s.tsock.closeIssued || (rstEffect s.tsock).toClose) }) := by
    refine .of_eq rfl rfl rfl rfl fun hp => ?_
    rw [hp]
    rfl
  dsimp only
  refine trans ?_ (.tsockSetState ..)
  split
  · exact h
  · exact h.trans (SndFrame.tsockEventAdd _ _).seats

theorem tsockEstablished (cfg : TcpCfg) (s : St) (p : Packet) :
    Seats s (tsockEstablished cfg s p) := by
  obtain ⟨s₁, hf, -, he⟩ := tsockEstablished_split cfg s p
  rw [he]
  exact (hf.frame.seats.trans (.tsockSetState ..)).trans (SndFrame.tsockEventAdd _ _).seats

theorem acceptTsockEnqueue (s : St) : Seats s (acceptTsockEnqueue s) := by
  refine ⟨rfl, rfl, rfl, ⟨.refl _ _, .refl _ _, .refl _ _, ?_, rfl, id⟩, ?_, id, id⟩
  · intro j hj
    simp [LibTpa.acceptTsockEnqueue, hj]
  · intro h
    exact List.mem_append_left _ h

theorem ackFin (cfg : TcpCfg) (s : St) (ack : U32) : Seats s (ackFin cfg s ack) := by
  have h : ∀ f : TsockFlags, (s.tsock.flags.put = true → f.put = true) → Seats s (s.setFlags f) :=
    fun f hf => .of_eq rfl rfl rfl rfl hf
  unfold LibTpa.ackFin
  split
  · dsimp only
    split
    · exact (h { s.tsock.flags with finPending := false } id).trans (.tsockSetState ..)
    · exact (h { s.tsock.flags with finPending := false } id).trans (.tsockSetState ..)
    · exact (h { s.tsock.flags with finPending := false, put := true } fun _ => rfl).trans
        (.tsockSetState ..)
    · exact h _ id
  · exact .refl s

theorem ackAccepted (cfg : TcpCfg) (s : St) (p : Packet) (o : TcpOpts) :
    Seats s (ackAccepted cfg s p o) := by
  have h := (TxFrame.countDupack s p).frame.seats.trans (.ackFin cfg (countDupack s p) p.ack)
  unfold LibTpa.ackAccepted
  generalize LibTpa.ackFin cfg (countDupack s p) p.ack = s₁ at h
  have h' := (TxFrame.ackProgress cfg s₁ p o (ackedLen s.tsock.snd p.ack)).frame
  exact h.trans h'.seats

theorem rcvText (cfg : TcpCfg) (s : St) (p : Packet) : Seats s (rcvText cfg s p).2.1 := by
  have hd := (RcvFrame.tcpRcvData cfg s p).seats
  unfold LibTpa.rcvText
  split
  · split
    · next heq =>
      rw [heq] at hd
      exact hd
    · next heq =>
      rw [heq] at hd
      exact hd.trans (tcpRcvFin_frame ..).seats
  split
  · exact .refl s
  · exact (tcpRcvFin_frame ..).seats

theorem synSentToEstablished (cfg : TcpCfg) (s : St) (p : Packet) :
    Seats s (synSentToEstablished cfg s p).1 := by
  have h : Seats s (processTcpOptNegotiation cfg
      (s.setRcv { s.tsock.rcv with rcvIsn := p.seq, rcvNxt := p.seq + 1 }) p).1 := by
    exact .of_eq rfl rfl rfl rfl id
  unfold LibTpa.synSentToEstablished
  dsimp only
  generalize processTcpOptNegotiation cfg _ p = r at h
  exact (h.trans (.tsockEstablished cfg r.1 r.2)).trans (RcvFrame.tsockSetAckFlag ..).seats

theorem rcvDone (cfg : TcpCfg) (s : St) (r : Option Code × St × Packet) (h : Seats s r.2.1) :
    Seats s (
      let s := if r.1 ≠ none ∨ r.2.2.len = 0 then packetFree r.2.1 r.2.2 else r.2.1
      let s := if s.tsock.flags.ackNow then (xmitFlagPacket cfg s).2 else s
      { s with tsock := { s.tsock with rxMergeHead := none } }) := by
  have h₁ : Seats s (if r.1 ≠ none ∨ r.2.2.len = 0 then packetFree r.2.1 r.2.2 else r.2.1) := by
    split
    · refine h.trans ?_
      exact .of_eq rfl rfl rfl rfl id
    · exact h
  dsimp only
  generalize (if r.1 ≠ none ∨ r.2.2.len = 0 then packetFree r.2.1 r.2.2 else r.2.1) = s₁ at h₁
  split
  · have hq := (Quiet.xmitFlagPacket cfg s₁).frame.seats
    refine (h₁.trans hq).trans ?_
    exact .of_eq rfl rfl rfl rfl id
  · refine h₁.trans ?_
    exact .of_eq rfl rfl rfl rfl id

theorem setHead (s : St) (x : Option Packet) : Seats s (s.setHead x) :=
  .of_eq rfl rfl rfl rfl id

theorem inputAck (cfg : TcpCfg) (s : St) : Seats s (inputAck cfg s) := by
  unfold LibTpa.inputAck
  split
  · split
    · exact (Quiet.xmitFlagPacket cfg s).frame.seats
    · exact ⟨rfl, rfl, rfl, ⟨.refl _ _, .refl _ _, .pushIfNotExist _ _, .refl _ _, rfl,
        nodup_pushIfNotExist⟩, id, id, id⟩
  · exact .refl s

end Seats

theorem RxMove.seats {b : Bool} (hm : RxMove cfg A s b s') (hl : s.tsock.state ≠ .listen) :
    Seats s s' ∧ s'.tsock.state ≠ .listen := by
  cases hm with
  | checked hc => exact ⟨hc.seats, by rw [hc.state]; exact hl⟩
  | data hr => exact ⟨hr.seats, by rw [hr.state]; exact hl⟩
  | fin p =>
    refine ⟨(tcpRcvFin_frame cfg s p).seats, ?_⟩
    rw [tcpRcvFin_state]
    split
    · cases hst : s.tsock.state <;> simp_all [finState]
    · exact hl
  | rst =>
    refine ⟨.tcpRcvRst cfg s, ?_⟩
    unfold tcpRcvRst
    split
    · exact hl
    · rw [tsockSetState_state]
      decide
  | passive p =>
    have hst := tsockEstablished_state cfg s p
    refine ⟨(Seats.tsockEstablished cfg s p).trans (.acceptTsockEnqueue _), ?_⟩
    generalize tsockEstablished cfg s p = s₁ at hst
    change s₁.tsock.state ≠ _
    rw [hst]
    decide
  | active p =>
    refine ⟨.synSentToEstablished cfg s p, ?_⟩
    rw [synSentToEstablished_state]
    decide
  | acked p o =>
    refine ⟨.ackAccepted cfg s p o, ?_⟩
    rw [ackAccepted_state]
    exact (ackState_ne ..).1 hl
  | fast p =>
    have h := TxFrame.tcpRcvAckFastpath cfg s p
    exact ⟨h.frame.seats, by rw [h.state]; exact hl⟩
  | accept p hst => exact absurd hst hl
  | flags =>
    have h := (Quiet.xmitFlagPacket cfg s).frame
    exact ⟨h.seats, by rw [h.state]; exact hl⟩
  | enqueued => exact ⟨(SndFrame.outputTsockEnqueue s).seats, hl⟩
  | released p => exact ⟨.of_eq rfl rfl rfl rfl id, hl⟩
  | head x => exact ⟨.setHead s x, hl⟩

theorem RxRun.seats {ps : Option Packet} (h : RxRun cfg A ps s s') (hl : s.tsock.state ≠ .listen) :
    Seats s s' := by
  have hk : Seats s s' ∧ s'.tsock.state ≠ .listen := by
    refine h.keep (P := fun s₁ => Seats s s₁ ∧ s₁.tsock.state ≠ .listen) ?_ ?_ ⟨.refl s, hl⟩
    · intro p _ s₁ ha _
      have hf := ha.quiet.frame
      exact ⟨hf.seats, by rw [hf.state]; exact hl⟩
    · intro _ s₁ s₂ hm h₁
      exact ⟨h₁.1.trans (hm.seats h₁.2).1, (hm.seats h₁.2).2⟩
  exact hk.1

structure Left (s s' : St) : Prop where
  sid : s'.tsock.sid = s.tsock.sid
  freed : s'.tsock.freed = true
  queues : OwnSeats s s'
  gone : s.tsock.sid ∉ s'.worker.output ∧ s.tsock.sid ∉ s'.worker.delayedAck ∧
    s.tsock.sid ∉ s'.worker.eventQueue ∧ s.tsock.sid ∉ s'.worker.accept

theorem SameBut.filter (i : Nat) (q : List Nat) : SameBut i q (q.filter (· ≠ i)) := by
  intro j hj
  simp [hj]

theorem reclaimTxq_worker (s : St) : ∃ tx nrWriteMbuf mbufUsed done, (reclaimTxq s).worker =
    { s.worker with tx := tx, nrWriteMbuf := nrWriteMbuf, mbufUsed := mbufUsed, done := done } := by
  unfold reclaimTxq
  generalize s.tsock.snd.txq.live = l
  induction l generalizing s with
  | nil => exact ⟨_, _, _, _, rfl⟩
  | cons d l ih =>
    obtain ⟨tx, nr, used, done, h⟩ := ih (txDescDone s d)
    rw [List.foldl_cons, h]
    unfold txDescDone
    dsimp only
    split <;> split <;> exact ⟨_, _, _, _, rfl⟩

theorem Seats.reclaimTxq (s : St) : Seats s (reclaimTxq s) := by
  obtain ⟨tx, nr, used, done, hw⟩ := reclaimTxq_worker s
  have ht := reclaimTxq_tsock s
  exact .of_eq (by rw [hw]) (by rw [ht]) (by rw [ht]) (by rw [ht]) (by rw [ht]; exact id)

namespace Left

theorem leave (h : Seats s s') (hs : s''.tsock.sid = s'.tsock.sid) (hf : s''.tsock.freed = true)
    (hw : s''.worker = (leaveQueues s').worker) : Left s s'' := by
  have hq : OwnSeats s' s'' := by
    refine ⟨?_, ?_, ?_, ?_, ?_, ?_⟩
    all_goals rw [hw]
    · exact .filter _ _
    · exact .filter _ _
    · exact .filter _ _
    · exact .filter _ _
    · rfl
    · exact fun hd => hd.filter _
  refine ⟨hs.trans h.sid, hf, h.queues.trans h.sid hq, ?_⟩
  rw [hw]
  simp [leaveQueues, h.sid]

theorem tsockFree (s : St) : Left s (tsockFree s) := by
  have h₁ : Seats s (reclaimRxq (s.setTimers
      { s.tsock.timers with rto := none, wait := none, keepalive := none })) :=
    .of_eq rfl rfl rfl rfl id
  have h₂ := h₁.trans (.reclaimTxq _)
  unfold LibTpa.tsockFree
  dsimp only
  generalize LibTpa.reclaimTxq (reclaimRxq _) = s₂ at h₂
  have h₃ : Seats s₂ (reclaimRcvOooQueue s₂) := .of_eq rfl rfl rfl rfl id
  exact leave (h₂.trans h₃) rfl rfl rfl

end Left

/-- What one of the worker's loops has done with a socket: it is still there, or it
was released. -/
inductive Turned (R : St → St → Prop) (s s' : St) : Prop
  | stays (h : R s s')
  | left (h : Left s s')

theorem Turned.seats (h : Turned Stays s s') : Turned Seats s s' := by
  cases h with
  | stays h => exact .stays h.toSeats
  | left h => exact .left h

theorem Seats.left (h : Seats s s') (h' : Left s' s'') : Left s s'' := by
  refine ⟨h'.sid.trans h.sid, h'.freed, h.queues.trans h.sid h'.queues, ?_⟩
  rw [← h.sid]
  exact h'.gone

theorem Seats.turned (h : Seats s s') (h' : Turned Seats s' s'') : Turned Seats s s'' := by
  cases h' with
  | stays h' => exact .stays (h.trans h')
  | left h' => exact .left (h.left h')

theorem Stays.turned (h : Stays s s') (h' : Turned Stays s' s'') : Turned Stays s s'' := by
  cases h' with
  | stays h' => exact .stays (h.trans h')
  | left h' => exact .left (h.toSeats.left h')

namespace Turned

theorem inputPut (s : St) : Turned Seats s (inputPut s) := by
  unfold LibTpa.inputPut
  split
  · have h := Left.tsockFree (s.setFlags { s.tsock.flags with put := false })
    exact .left ⟨h.sid, h.freed, ⟨h.queues.output, h.queues.events, h.queues.acks,
      h.queues.accept, h.queues.children, h.queues.once⟩, h.gone⟩
  · exact .stays (.refl s)

theorem closeOnce (cfg : TcpCfg) (s : St) : Stays s (closeOnce cfg s) := by
  have h₀ : Stays s (s.setFlags { s.tsock.flags with closeProcessed := true }) :=
    .of_eq rfl rfl rfl rfl rfl
  unfold LibTpa.closeOnce
  dsimp only
  generalize s.setFlags { s.tsock.flags with closeProcessed := true } = s₁ at h₀
  refine h₀.trans ?_
  split
  · unfold closeSwitch
    have hset : ∀ (x : Snd) (f : TsockFlags) (st : TcpState), f.put = s₁.tsock.flags.put →
        Stays s₁ (tsockSetState cfg ((s₁.setSnd x).setFlags f) st) := by
      intro x f st hf
      refine Stays.trans ?_ (.tsockSetState ..)
      exact .of_eq rfl rfl rfl rfl hf
    split
    · exact .tsockSetState ..
    · exact .tsockSetState ..
    · exact hset _ _ _ rfl
    · exact hset s₁.tsock.snd _ _ rfl
    · exact hset s₁.tsock.snd _ _ rfl
    · exact .refl _
  · unfold closeUnread
    have h₂ := Stays.tsockSetState cfg s₁ .closed
    generalize tsockSetState cfg s₁ .closed = s₂ at h₂
    exact h₂.trans ((Quiet.setTcp s₂ { s₂.tsock.flags.tcp with rst := true, ack := true }).trans
      (.xmitFlagPacket cfg _)).frame.stays

theorem closeIfIssued (cfg : TcpCfg) (s : St) : Stays s (closeIfIssued cfg s) ∨
    Left s (closeIfIssued cfg s) ∧ (closeIfIssued cfg s).tsock.state = .closed := by
  unfold LibTpa.closeIfIssued
  split
  · unfold tcpClose
    split
    · exact .inl (.refl s)
    · have h := closeOnce cfg s
      dsimp only
      generalize LibTpa.closeOnce cfg s = s₁ at h
      split
      · next hc =>
        obtain ⟨rcv, timers, ht⟩ := tsockFree_tsock s₁
        refine .inr ⟨h.toSeats.left (.tsockFree s₁), ?_⟩
        rw [ht]
        exact hc
      · exact .inl h
  · exact .inl (.refl s)

theorem tcpOutputOne (cfg : TcpCfg) (s : St) : Turned Stays s (tcpOutputOne cfg s) := by
  unfold LibTpa.tcpOutputOne
  split
  · exact .stays (.refl s)
  have h := closeIfIssued cfg s
  dsimp only
  generalize LibTpa.closeIfIssued cfg s = s₁ at h
  rcases h with h | ⟨h, hc⟩
  · split
    · exact .stays h
    · exact .stays (h.trans (SndFrame.xmitSyn cfg s₁).stays)
    · exact .stays (h.trans (SndFrame.xmitSyn cfg s₁).stays)
    · have h₂ := h.trans (OutFrame.tcpXmitData cfg s₁).frame.stays
      generalize tcpXmitData cfg s₁ = s₂ at h₂
      exact .stays (h₂.trans (SndFrame.outputFlags cfg s₂).stays)
  · rw [hc]
    exact .left h

theorem timedOut (cfg : TcpCfg) (s : St) (b : Bool) : Turned Stays s (timedOut cfg s b) := by
  have h₀ : Stays s (s.setErr (some .etimedout)) := .of_eq rfl rfl rfl rfl rfl
  have h := h₀.trans (.tsockSetState cfg _ .closed)
  unfold LibTpa.timedOut
  dsimp only
  generalize tsockSetState cfg (s.setErr (some .etimedout)) .closed = s₁ at h
  split
  · exact .left (h.toSeats.left (.tsockFree s₁))
  · exact .stays (h.trans (SndFrame.tsockEventAdd s₁ _).stays)

theorem tcpTimeout (cfg : TcpCfg) (s : St) (k : TimerKind) :
    Turned Stays s (tcpTimeout cfg s k) := by
  have hcase := tcpTimeout_cases cfg s k
  generalize LibTpa.tcpTimeout cfg s k = s' at hcase
  have h : ∀ t c, Stays s (s.counted t c) := fun t c => (TxFrame.counted s t c).frame.stays
  cases hcase with
  | stopped t => exact .stays (h t _)
  | givenUp t c b => exact (h t c).turned (.timedOut ..)
  | resent t c =>
    have hr := ((h t c).trans (TxFrame.rtoResend cfg _).frame.stays)
    generalize tcpRetrans cfg _ = s₁ at hr
    exact .stays (hr.trans (SndFrame.outputTsockEnqueue s₁).stays)
  | waited t =>
    exact .left (((h t _).trans (.tsockSetState cfg _ .closed)).toSeats.left (.tsockFree _))
  | probed t t' s₁ _ hx =>
    have hq := (h t s.tsock.cc).trans ((Quiet.setTcp _ { s.tsock.flags.tcp with ack := true }).trans
      (.xmitFlagPacketWithSeq cfg _ (s.tsock.snd.sndUna - 1))).frame.stays
    rw [hx]
    exact .stays (hq.trans (SndFrame.setTimers ..).stays)

end Turned

/-! Calls of the application and the flush of the neighbour queue. -/

theorem Stays.tsockZreadv (s : St) (n : Nat) : Stays s (tsockZreadv s n).2 := by
  unfold LibTpa.tsockZreadv
  split
  · exact .refl s
  dsimp only
  split
  · exact .of_eq rfl rfl rfl rfl rfl
  split
  · refine Stays.trans ?_ (SndFrame.outputTsockEnqueue _).stays
    exact .of_eq rfl rfl rfl rfl rfl
  · exact .of_eq rfl rfl rfl rfl rfl

theorem Stays.tpaClose (s : St) : Stays s (tpaClose s) := by
  unfold LibTpa.tpaClose
  split
  · exact .refl s
  · have h : Stays s { s with tsock := { s.tsock with closeIssued := true } } :=
      .of_eq rfl rfl rfl rfl rfl
    exact h.trans (SndFrame.outputTsockEnqueue _).stays

/-! A listening socket and the sockets it opens. -/

def Worker.Queued (w : Worker) (i : Nat) : Prop :=
  i ∈ w.output ∨ i ∈ w.delayedAck ∨ i ∈ w.eventQueue ∨ i ∈ w.accept

theorem OwnSeats.queued (h : OwnSeats s s') {j : Nat} (hj : j ≠ s.tsock.sid) :
    s'.worker.Queued j ↔ s.worker.Queued j := by
  unfold Worker.Queued
  rw [h.output j hj, h.acks j hj, h.events j hj, h.accept j hj]

structure Answered (t : TcpSock) : Prop where
  state : t.state = .synRcvd
  passive : t.passiveConnection = true
  keepalive : t.timers.keepalive ≠ none → t.timers.keepaliveShift = 0
  issued : t.closeIssued = false
  empty : t.snd.txq.una = t.snd.txq.write

/-- A passive handshake is under way, and the RTO timer will end it one day. -/
structure Greeting (t : TcpSock) : Prop extends Answered t where
  rto : t.timers.rto ≠ none

structure TcpSock.AllSent (t : TcpSock) : Prop where
  data : t.snd.txq.nxt = t.snd.txq.write
  fin : t.flags.finPending = true → t.snd.finSent = true

structure Newborn (c : TcpSock) : Prop where
  freed : c.freed = false
  greeting : Greeting c
  put : c.flags.put = false
  head : c.rxMergeHead = none
  sent : c.AllSent

structure Opens (s s' : St) (c : TcpSock) : Prop where
  tsock : s'.tsock = s.tsock
  queues : ∀ j, j ≠ c.sid → (s'.worker.Queued j ↔ s.worker.Queued j)
  output : SameBut c.sid s.worker.output s'.worker.output
  accept : s'.worker.accept = s.worker.accept
  acks : s'.worker.delayedAck = s.worker.delayedAck
  children : s'.worker.children = s.worker.children ++ [c]
  granted : s.worker.oracles.sockOk.headD false = true
  slot : c.sid = s.worker.oracles.slots.headD 0
  child : Newborn c

theorem xmitSyn_timers (cfg : TcpCfg) (s : St) : ∃ rto, (xmitSyn cfg s).tsock.timers =
    { s.tsock.timers with rto := rto } ∧
      (s.tsock.cc.rtoShift = 0 ∨ s.tsock.timers.rto ≠ none → rto ≠ none) := by
  have hq := Quiet.xmitFlagPacket cfg (synReady s)
  have hr : (retrySyn (xmitFlagPacket cfg (synReady s))).tsock.cc = (synReady s).tsock.cc ∧
      (retrySyn (xmitFlagPacket cfg (synReady s))).tsock.timers = s.tsock.timers := by
    rw [← hq.cc, show s.tsock.timers = (synReady s).tsock.timers from rfl, ← hq.timers]
    unfold retrySyn
    split <;> exact ⟨rfl, rfl⟩
  unfold xmitSyn
  dsimp only
  generalize retrySyn (xmitFlagPacket cfg (synReady s)) = s₁ at hr
  split
  · refine ⟨timerStart s₁.worker.tsUs s₁.tsock.cc.rto.toNat, ?_, fun _ => Option.some_ne_none _⟩
    rw [← hr.2]
    rfl
  · next hne =>
    refine ⟨s.tsock.timers.rto, hr.2, fun h => ?_⟩
    exact h.resolve_left fun h0 => hne (by rw [hr.1]; exact h0)

theorem passiveTsockInit_worker (cfg : TcpCfg) (s : St) (p : Packet) :
    ∃ tsUs oracles, (passiveTsockInit cfg s p).1.worker =
      { s.worker with tsUs := tsUs, oracles := oracles } := by
  unfold passiveTsockInit rteRdtsc
  dsimp only
  split <;> exact ⟨_, _, rfl⟩

theorem tsockAccept_opens (cfg : TcpCfg) (s : St) (p : Packet) :
    Seats s (tsockAccept cfg s p).2.1 ∨ ∃ c, Opens s (tsockAccept cfg s p).2.1 c := by
  unfold tsockAccept
  dsimp only
  split
  · next hok =>
    generalize hw : { s.worker with oracles := { s.worker.oracles with
      sockOk := s.worker.oracles.sockOk.tail, slots := s.worker.oracles.slots.tail } } = w
    obtain ⟨b, isn, mss, wscale, nego, ht⟩ := passiveTsockInit_tsock cfg
      ⟨w, tsockInit cfg (s.worker.oracles.slots.headD 0) p.isIpv6⟩ p
    obtain ⟨tsUs, oracles, hw₁⟩ := passiveTsockInit_worker cfg
      ⟨w, tsockInit cfg (s.worker.oracles.slots.headD 0) p.isIpv6⟩ p
    generalize (passiveTsockInit cfg _ p).1 = s₁ at ht hw₁
    have hsyn := SndFrame.xmitSyn cfg s₁
    obtain ⟨rto, htm, hrto⟩ := xmitSyn_timers cfg s₁
    have hsnd := xmitSyn_snd cfg s₁
    generalize xmitSyn cfg s₁ = s₂ at hsyn htm hsnd
    have hq := hsyn.seats.queues
    have hsid : s₂.tsock.sid = s₁.tsock.sid := hsyn.seats.sid
    refine .inr ⟨s₂.tsock, rfl, ?_, ?_, ?_, ?_, ?_, hok, ?_,
      ⟨?_, ⟨⟨?_, ?_, ?_, ?_, ?_⟩, ?_⟩, ?_, ?_, ?_, ?_⟩⟩
    · intro j hj
      have hj₁ := hq.queued (j := j) (by rw [← hsid]; exact hj)
      change s₂.worker.Queued j ↔ _
      rw [hj₁, hw₁, ← hw]
      rfl
    · have ho := hq.output
      rw [← hsid, hw₁, ← hw] at ho
      exact ho
    · rw [hsyn.worker, hw₁, ← hw]
    · rw [hsyn.worker, hw₁, ← hw]
    · rw [hsyn.worker, hw₁, ← hw]
    · rw [hsid, ht]
      rfl
    · rw [hsyn.seats.freed, ht]
      rfl
    · rw [hsyn.state, ht]
    · rw [hsyn.seats.passive, ht]
    · rw [htm, ht]
      exact fun hk => absurd rfl hk
    · rw [hsyn.tsock, ht]
      rfl
    · rw [hsnd, ht]
      rfl
    · rw [htm]
      exact hrto (.inl (by rw [ht]; rfl))
    · rw [hsyn.flags, ht]
      rfl
    · rw [hsyn.tsock, ht]
      rfl
    · rw [hsnd, ht]
      rfl
    · rw [hsyn.flags, ht]
      exact fun hp => nomatch hp
  · exact .inl (.of_own (.of_eq rfl rfl) rfl rfl rfl rfl rfl rfl id)

inductive Heard (s s' : St) : Prop
  | alone (h : Seats s s')
  | opens (s₁ : St) (c : TcpSock) (ho : Opens s s₁ c) (h : Seats s₁ s')

theorem Heard.freed (h : Heard s s') : s'.tsock.freed = s.tsock.freed := by
  cases h with
  | alone h => exact h.freed
  | opens s₁ c ho h => rw [h.freed, ho.tsock]

inductive Visited (s s' : St) : Prop
  | alone (h : Turned Seats s s')
  | opens (s₁ : St) (c : TcpSock) (ho : Opens s s₁ c) (h : Turned Seats s₁ s')

theorem Heard.visited (h : Heard s s') (h' : Turned Seats s' s'') : Visited s s'' := by
  cases h with
  | alone h => exact .alone (h.turned h')
  | opens s₁ c ho h => exact .opens s₁ c ho (h.turned h')

theorem Visited.sid (h : Visited s s') : s'.tsock.sid = s.tsock.sid := by
  have hone : ∀ {s₁ : St}, Turned Seats s₁ s' → s'.tsock.sid = s₁.tsock.sid := by
    intro s₁ ht
    cases ht with
    | stays ht => exact ht.sid
    | left ht => exact ht.sid
  cases h with
  | alone h => exact hone h
  | opens s₁ c ho h => rw [hone h, ho.tsock]

theorem Visited.live (h : Visited s s') (hf : s'.tsock.freed = false) :
    s.tsock.freed = false ∧ s'.tsock.passiveConnection = s.tsock.passiveConnection := by
  have hone : ∀ {s₁ : St}, Turned Seats s₁ s' → s₁.tsock.freed = false ∧
      s'.tsock.passiveConnection = s₁.tsock.passiveConnection := by
    intro s₁ ht
    cases ht with
    | stays ht => exact ⟨ht.freed.symm.trans hf, ht.passive⟩
    | left ht =>
      rw [ht.freed] at hf
      cases hf
  cases h with
  | alone h => exact hone h
  | opens s₁ c ho h =>
    rw [← ho.tsock]
    exact hone h

theorem tcpRcvProcess_heard (cfg : TcpCfg) (s : St) (p : Packet) :
    Heard s (tcpRcvProcess cfg s p) := by
  by_cases hl : s.tsock.state = .listen
  · have hcase := tcpRcvPkt_cases cfg s { p with toRead := p.segs }
    unfold tcpRcvProcess
    generalize tcpRcvPkt cfg s { p with toRead := p.segs } = r at hcase
    have hr : Seats s r.2.1 ∨ ∃ c, Opens s r.2.1 c := by
      cases hcase with
      | stale => exact .inl (.refl s)
      | slow =>
        unfold tcpRcvSlowpath
        rw [hl]
        dsimp only
        unfold tcpRcvPktAtListen
        split
        · exact .inl (.refl s)
        split
        · exact .inl (Quiet.xmitRstForListen s _ hl).frame.seats
        split
        · exact tsockAccept_opens cfg s _
        · exact .inl (.refl s)
      | fast s₁ s₂ p₂ _ hst => exact absurd (hl.symm.trans hst) (by decide)
      | fallback s₁ s₂ p₂ e _ hst => exact absurd (hl.symm.trans hst) (by decide)
    rcases hr with hr | ⟨c, hr⟩
    · exact .alone (Seats.rcvDone cfg s r hr)
    · exact .opens r.2.1 c hr (Seats.rcvDone cfg r.2.1 r (.refl _))
  · exact .alone ((tcpRcvProcess_run (A := fun _ => True) cfg s p fun _ _ => trivial).seats hl)

theorem inputPacket_heard (cfg : TcpCfg) (s : St) (p : Packet) : Heard s (inputPacket cfg s p) := by
  by_cases hl : s.tsock.state = .listen
  · rw [inputPacket, if_pos hl]
    exact tcpRcvProcess_heard ..
  · exact .alone ((inputPacket_run (A := fun _ => True) cfg s p fun _ _ _ _ => trivial).seats hl)

theorem inputEnd_visited (cfg : TcpCfg) (s : St) : Visited s (inputEnd cfg s) := by
  have h : Turned Seats (inputHead cfg s) (inputEnd cfg s) :=
    (Seats.inputAck cfg (inputHead cfg s)).turned (.inputPut _)
  refine Heard.visited ?_ h
  unfold inputHead
  split
  · exact tcpRcvProcess_heard ..
  · exact .alone (.refl s)

end LibTpa
