/- LibTpa/Conn/Unsent
   digest: A socket with something left to send waits in the output queue. -/

import LibTpa.Conn.Moves
import LibTpa.Conn.Seats

set_option autoImplicit false

namespace LibTpa

variable {cfg : TcpCfg} {A : Packet → Prop} {s s' : St} {pend : List Nat}

/-- What is left to send has a place in the output queue or, while `tcp_output` runs,
among the sockets that it still has to visit. -/
structure Unstranded (pend : List Nat) (s : St) : Prop where
  opening : inHandshake s.tsock.state = true → s.tsock.AllSent
  queued : s.tsock.AllSent ∨ s.tsock.state = .closed ∨ s.tsock.state = .listen ∨
    s.tsock.sid ∈ s.worker.output ∨ s.tsock.sid ∈ pend

def StateMoves (a b : TcpState) : Prop :=
  b = a ∨ b = .closed ∨ (inHandshake b = false ∧ a ≠ .closed ∧ a ≠ .listen)

structure Advances (s s' : St) : Prop where
  sid : s'.tsock.sid = s.tsock.sid
  stay : s.tsock.sid ∈ s.worker.output → s.tsock.sid ∈ s'.worker.output
  sent : s.tsock.AllSent → s'.tsock.AllSent
  state : StateMoves s.tsock.state s'.tsock.state

theorem Unstranded.advance (h : Unstranded pend s) (ha : Advances s s') : Unstranded pend s' := by
  constructor
  · intro ho
    rcases ha.state with hs | hs | hs
    · rw [hs] at ho
      exact ha.sent (h.opening ho)
    · rw [hs] at ho
      cases ho
    · rw [hs.1] at ho
      cases ho
  · rw [ha.sid]
    rcases h.queued with hq | hq | hq | hq | hq
    · exact .inl (ha.sent hq)
    · rcases ha.state with hs | hs | hs
      · exact .inr (.inl (hs.trans hq))
      · exact .inr (.inl hs)
      · exact absurd hq hs.2.1
    · rcases ha.state with hs | hs | hs
      · exact .inr (.inr (.inl (hs.trans hq)))
      · exact .inr (.inl hs)
      · exact absurd hq hs.2.2
    · exact .inr (.inr (.inr (.inl (ha.stay hq))))
    · exact .inr (.inr (.inr (.inr hq)))

private theorem AllSent.same {t t' : TcpSock} (h : t.AllSent) (hs : t'.snd = t.snd)
    (hp : t'.flags.finPending = t.flags.finPending) : t'.AllSent :=
  ⟨by rw [hs]; exact h.data, by rw [hs, hp]; exact h.fin⟩

theorem Seats.advances (h : Seats s s') (hs : s'.tsock.snd = s.tsock.snd)
    (hp : s'.tsock.flags.finPending = s.tsock.flags.finPending)
    (hst : StateMoves s.tsock.state s'.tsock.state) : Advances s s' :=
  ⟨h.sid, h.stay, fun ha => AllSent.same ha hs hp, hst⟩

theorem OutFrame.advances (h : OutFrame s s') : Advances s s' := by
  refine ⟨h.frame.seats.sid, h.frame.seats.stay,
    fun ha => ⟨(h.still.all ha.data).2, ?_⟩, .inl h.state⟩
  rw [h.still.fin, h.frame.pending]
  exact ha.fin

theorem Quiet.advances (h : Quiet s s') : Advances s s' := h.outFrame.advances

private theorem finState_moves {a : TcpState} (h : a ≠ .closed) : StateMoves a (finState a) := by
  cases a <;> first | exact absurd rfl h | exact .inl rfl | exact .inr (.inr (by decide))

private theorem ackState_moves (a : TcpState) (x : Snd) (ack : U32) (hc : a ≠ .closed)
    (hl : a ≠ .listen) : StateMoves a (ackState a x ack) := by
  unfold ackState
  split
  · cases a <;> first
      | exact absurd rfl hc | exact absurd rfl hl | exact .inl rfl | exact .inr (.inr (by decide))
  · exact .inl rfl

theorem tcpRcvFin_advances (cfg : TcpCfg) (p : Packet) (hc : s.tsock.state ≠ .closed) :
    Advances s (tcpRcvFin cfg s p).2 := by
  have hf := tcpRcvFin_frame cfg s p
  have hst := tcpRcvFin_state cfg s p
  refine hf.seats.advances (by rw [hf.tsock]) (by rw [hf.flags]) ?_
  rw [hst]
  split
  · exact finState_moves hc
  · exact .inl rfl

theorem tcpRcvRst_advances (cfg : TcpCfg) (s : St) : Advances s (tcpRcvRst cfg s).2 := by
  have h := Seats.tcpRcvRst cfg s
  unfold tcpRcvRst at h ⊢
  split at h
  · next hc =>
    rw [if_pos hc]
    exact h.advances rfl rfl (.inl rfl)
  next hc =>
  rw [if_neg hc]
  refine h.advances ?_ ?_ (.inr (.inl ?_))
  · dsimp only
    split <;> rfl
  · dsimp only
    split <;> rfl
  · rw [tsockSetState_state]

private theorem tsockEstablished_send (cfg : TcpCfg) (s : St) (p : Packet) :
    (tsockEstablished cfg s p).tsock.snd = { s.tsock.snd with sndUna := p.ack } ∧
      (tsockEstablished cfg s p).tsock.flags.finPending = s.tsock.flags.finPending := by
  obtain ⟨s₁, hf, hs, he⟩ := tsockEstablished_split cfg s p
  rw [he]
  change (tsockSetState cfg s₁ .established).tsock.snd = _ ∧
    (tsockSetState cfg s₁ .established).tsock.flags.finPending = _
  exact ⟨hs, hf.frame.pending⟩

theorem tsockEstablished_advances (cfg : TcpCfg) (p : Packet)
    (hst : inHandshake s.tsock.state = true) : Advances s (tsockEstablished cfg s p) := by
  have h := Seats.tsockEstablished cfg s p
  obtain ⟨hsnd, hpend⟩ := tsockEstablished_send cfg s p
  have hst' := tsockEstablished_state cfg s p
  refine ⟨h.sid, h.stay, fun ha => ⟨?_, ?_⟩, .inr (.inr ?_)⟩
  · exact ha.data
  · exact ha.fin
  · refine ⟨rfl, ?_, ?_⟩
    all_goals
      intro he
      rw [he] at hst
      cases hst

theorem Advances.trans {s'' : St} (h : Advances s s') (h' : Advances s' s'') : Advances s s'' := by
  refine ⟨h'.sid.trans h.sid, fun hm => h.sid ▸ h'.stay (h.sid.symm ▸ h.stay hm),
    fun ha => h'.sent (h.sent ha), ?_⟩
  rcases h'.state with hs' | hs' | hs'
  · rw [hs']
    exact h.state
  · exact .inr (.inl hs')
  · rcases h.state with hs | hs | hs
    · exact .inr (.inr (hs ▸ hs'))
    · exact absurd hs hs'.2.1
    · exact .inr (.inr ⟨hs'.1, hs.2⟩)

theorem synSentToEstablished_advances (cfg : TcpCfg) (p : Packet) (hst : s.tsock.state = .synSent) :
    Advances s (synSentToEstablished cfg s p).1 := by
  have h : Advances s (processTcpOptNegotiation cfg
      (s.setRcv { s.tsock.rcv with rcvIsn := p.seq, rcvNxt := p.seq + 1 }) p).1 := by
    exact ⟨rfl, id, fun ha => AllSent.same ha rfl rfl, .inl rfl⟩
  have hst₁ : (processTcpOptNegotiation cfg
      (s.setRcv { s.tsock.rcv with rcvIsn := p.seq, rcvNxt := p.seq + 1 }) p).1.tsock.state =
        .synSent := hst
  unfold synSentToEstablished
  dsimp only
  generalize processTcpOptNegotiation cfg _ p = r at h hst₁
  have he := h.trans (tsockEstablished_advances cfg r.2 (by rw [hst₁]; rfl))
  generalize tsockEstablished cfg r.1 r.2 = s₁ at he
  exact he.trans ((RcvFrame.tsockSetAckFlag cfg s₁ true).seats.advances rfl rfl (.inl rfl))

theorem ackAccepted_advances (cfg : TcpCfg) (p : Packet) (o : TcpOpts)
    (hc : s.tsock.state ≠ .closed) (hl : s.tsock.state ≠ .listen) :
    Advances s (ackAccepted cfg s p o) := by
  obtain ⟨hstill, hpend⟩ := ackAccepted_still cfg s p o
  have h := Seats.ackAccepted cfg s p o
  have hst := ackAccepted_state cfg s p o
  refine ⟨h.sid, h.stay, fun ha => ⟨(hstill.all ha.data).2, fun hp => ?_⟩, ?_⟩
  · rw [hstill.fin]
    exact ha.fin (hpend hp)
  · rw [hst]
    exact ackState_moves _ _ _ hc hl

theorem RxMove.unstranded {b : Bool} (hm : RxMove cfg A s b s') (h : Unstranded pend s) :
    Unstranded pend s' := by
  cases hm with
  | checked hc => exact h.advance (hc.seats.advances hc.snd (by rw [hc.flags]) (.inl hc.state))
  | data hr => exact h.advance (hr.seats.advances hr.snd (by rw [hr.flags]) (.inl hr.state))
  | fin p hc => exact h.advance (tcpRcvFin_advances cfg p hc)
  | rst => exact h.advance (tcpRcvRst_advances cfg s)
  | passive p hp hst =>
    have he := tsockEstablished_advances cfg p (s := s) (by rw [hst]; rfl)
    exact h.advance (he.trans ⟨rfl, id, id, .inl rfl⟩)
  | active p hp hst => exact h.advance (synSentToEstablished_advances cfg p hst)
  | acked p o hp hc hl => exact h.advance (ackAccepted_advances cfg p o hc hl)
  | fast p q => exact h.advance (TxFrame.tcpRcvAckFastpath cfg s p).advances
  | accept p hst =>
    have ht := tsockAccept_tsock cfg s p
    refine ⟨?_, .inr (.inr (.inl (by rw [ht]; exact hst)))⟩
    rw [ht, hst]
    exact fun ho => nomatch ho
  | flags => exact h.advance (Quiet.xmitFlagPacket cfg s).advances
  | enqueued => exact h.advance ((SndFrame.outputTsockEnqueue s).seats.advances rfl rfl (.inl rfl))
  | released p => exact h.advance ⟨rfl, id, id, .inl rfl⟩
  | head x => exact h.advance ((Seats.setHead s x).advances rfl rfl (.inl rfl))

/-! The turns of a socket. -/

theorem inputPacket_unstranded (cfg : TcpCfg) (p : Packet) (h : Unstranded pend s) :
    Unstranded pend (inputPacket cfg s p) :=
  (inputPacket_run (A := fun _ => True) cfg s p fun _ _ _ _ => trivial).keep
    (fun _ _ _ ha hi => hi.advance ha.quiet.advances) (fun _ _ hm => hm.unstranded) h

theorem inputEnd_unstranded (cfg : TcpCfg) (h : Unstranded pend s) :
    (inputEnd cfg s).tsock.freed = true ∨ Unstranded pend (inputEnd cfg s) := by
  have h₁ : Unstranded pend (inputHead cfg s) :=
    (inputHead_run (A := fun _ => True) cfg s fun _ _ _ _ => trivial).keep
      (fun _ _ _ ha hi => hi.advance ha.quiet.advances) (fun _ _ hm => hm.unstranded) h
  have h₂ : Unstranded pend (inputAck cfg (inputHead cfg s)) := by
    generalize inputHead cfg s = s₁ at h₁
    unfold inputAck
    split
    · split
      · exact h₁.advance (Quiet.xmitFlagPacket cfg s₁).advances
      · exact h₁.advance ⟨rfl, id, id, .inl rfl⟩
    · exact h₁
  unfold inputEnd inputPut
  split
  · exact .inl (tsockFree_freed _)
  · exact .inr h₂

theorem outputFlags_sent (cfg : TcpCfg) (s : St) : (outputFlags cfg s).tsock.AllSent ∨
    s.tsock.sid ∈ (outputFlags cfg s).worker.output := by
  have hreq : (requeueOrFin s).tsock.sid = s.tsock.sid ∧
      ((requeueOrFin s).tsock.AllSent ∨ s.tsock.sid ∈ (requeueOrFin s).worker.output) := by
    unfold requeueOrFin
    split
    · exact ⟨rfl, .inr (mem_pushIfNotExist.mpr (.inr rfl))⟩
    next hall =>
    have hall : s.tsock.snd.txq.nxt = s.tsock.snd.txq.write := by
      unfold tcpTxqToSendPkts at hall
      bv_omega
    split
    · unfold finReady
      dsimp only
      split <;> exact ⟨rfl, .inl ⟨hall, fun _ => rfl⟩⟩
    · next hpend => exact ⟨rfl, .inl ⟨hall, fun hp => absurd hp hpend⟩⟩
  unfold outputFlags
  dsimp only
  generalize requeueOrFin s = s₁ at hreq
  obtain ⟨hsid, hreq⟩ := hreq
  split
  · exact hreq
  · have hq := (Quiet.xmitFlagPacket cfg s₁).advances
    rw [← hsid] at hreq ⊢
    exact hreq.imp hq.sent hq.stay

private theorem closeOnce_opening (cfg : TcpCfg) (s : St) :
    inHandshake (closeOnce cfg s).tsock.state = false := by
  unfold closeOnce
  dsimp only
  split
  · dsimp only [St.setFlags]
    cases s.tsock.state <;> rfl
  · unfold closeUnread
    rw [((Quiet.setTcp _ _).trans (.xmitFlagPacket cfg _)).frame.state, tsockSetState_state]
    rfl

theorem closeIfIssued_opening (cfg : TcpCfg)
    (h : inHandshake s.tsock.state = true → s.tsock.AllSent)
    (ho : inHandshake (closeIfIssued cfg s).tsock.state = true) :
    (closeIfIssued cfg s).tsock.AllSent := by
  unfold closeIfIssued at ho ⊢
  split at ho
  · next hi =>
    rw [if_pos hi]
    unfold tcpClose at ho ⊢
    split at ho
    · next hp =>
      rw [if_pos hp]
      exact h ho
    · have hc := closeOnce_opening cfg s
      dsimp only at ho
      generalize closeOnce cfg s = s₁ at ho hc
      obtain ⟨rcv, timers, ht⟩ := tsockFree_tsock s₁
      split at ho
      · rw [ht, hc] at ho
        cases ho
      · rw [hc] at ho
        cases ho
  · next hi =>
    rw [if_neg hi]
    exact h ho

theorem tcpOutputOne_unstranded (cfg : TcpCfg)
    (h : inHandshake s.tsock.state = true → s.tsock.AllSent) (hf : s.tsock.freed = false) :
    Unstranded [] (tcpOutputOne cfg s) := by
  have ho := closeIfIssued_opening cfg h
  unfold tcpOutputOne
  rw [if_neg (by simp [hf])]
  dsimp only
  generalize closeIfIssued cfg s = s₁ at ho
  have hsyn : inHandshake s₁.tsock.state = true → Unstranded [] (xmitSyn cfg s₁) := by
    intro hs
    have hsnd := xmitSyn_snd cfg s₁
    have hpend := (SndFrame.xmitSyn cfg s₁).pending
    have hall : (xmitSyn cfg s₁).tsock.AllSent := by
      constructor
      · rw [hsnd]
        exact (ho hs).data
      · rw [hsnd, hpend]
        exact (ho hs).fin
    exact ⟨fun _ => hall, .inl hall⟩
  split
  · next hc =>
    refine ⟨?_, .inr (.inl hc)⟩
    rw [hc]
    exact fun hs => nomatch hs
  · next hs => exact hsyn (by rw [hs]; rfl)
  · next hs => exact hsyn (by rw [hs]; rfl)
  · next hc hs hr =>
    have htx := (OutFrame.tcpXmitData cfg s₁).state
    generalize tcpXmitData cfg s₁ = s₂ at htx
    have hout := SndFrame.outputFlags cfg s₂
    have hsent := outputFlags_sent cfg s₂
    refine ⟨fun hop => ?_, ?_⟩
    · rw [hout.state, htx] at hop
      cases hst : s₁.tsock.state <;> simp_all [inHandshake]
    · rw [hout.seats.sid]
      exact hsent.imp_right fun hm => .inr (.inr (.inl hm))

theorem Unstranded.of_closed (hc : s.tsock.state = .closed) : Unstranded pend s := by
  refine ⟨?_, .inr (.inl hc)⟩
  rw [hc]
  exact fun hs => nomatch hs

theorem timedOut_unstranded (cfg : TcpCfg) (pend : List Nat) (s : St) (b : Bool) :
    (timedOut cfg s b).tsock.freed = true ∨ Unstranded pend (timedOut cfg s b) := by
  unfold timedOut
  dsimp only
  split
  · exact .inl (tsockFree_freed _)
  · refine .inr (.of_closed ?_)
    exact tsockSetState_state ..

theorem tcpTimeout_unstranded (cfg : TcpCfg) (k : TimerKind) (h : Unstranded pend s) :
    (tcpTimeout cfg s k).tsock.freed = true ∨ Unstranded pend (tcpTimeout cfg s k) := by
  have hcase := tcpTimeout_cases cfg s k
  generalize tcpTimeout cfg s k = s' at hcase
  have h₁ : ∀ t c, Unstranded pend (s.counted t c) :=
    fun t c => h.advance (TxFrame.counted s t c).advances
  cases hcase with
  | stopped t => exact .inr (h₁ t _)
  | givenUp t c b => exact timedOut_unstranded ..
  | resent t c =>
    have h₂ := (h₁ t c).advance (TxFrame.rtoResend cfg _).advances
    generalize tcpRetrans cfg _ = s₁ at h₂
    refine .inr (h₂.advance ?_)
    exact (SndFrame.outputTsockEnqueue s₁).seats.advances rfl rfl (.inl rfl)
  | waited t => exact .inl (tsockFree_freed _)
  | probed t t' s₁ _ hx =>
    have h₂ :=
      (h₁ t s.tsock.cc).advance ((Quiet.setTcp _ { s.tsock.flags.tcp with ack := true }).trans
      (.xmitFlagPacketWithSeq cfg _ (s.tsock.snd.sndUna - 1))).advances
    rw [hx]
    exact .inr (h₂.advance (TxFrame.setTimers ..).advances)

theorem write_unstranded (cfg : TcpCfg) (iov : List Iovec) (h : Unstranded pend s) :
    Unstranded pend (tsockZwritev cfg s iov).2 := by
  have hw := WriteFrame.tsockZwritev cfg s iov
  have hseats := hw.frame.seats
  cases hchk : tsockWriteCheck s.tsock with
  | some err =>
    have ht := tsockZwritev_refused cfg iov hchk
    exact h.advance (hseats.advances (by rw [ht]) (by rw [ht]) (.inl (by rw [ht])))
  | none =>
    have hst := tsockWriteCheck_state hchk
    have hst' := hw.frame.state
    constructor
    · rw [hst']
      rcases hst with hst | hst <;> rw [hst] <;> exact fun hs => nomatch hs
    · rw [hst', hseats.sid]
      rcases hw.cursors with hk | hq
      · refine h.queued.imp (fun ha => ⟨?_, ?_⟩) fun hq => ?_
        · rw [hk.1, hk.2]
          exact ha.data
        · rw [hw.snd, hw.flags]
          exact ha.fin
        · exact hq.imp_right fun hq => hq.imp_right fun hq => hq.imp_left hseats.stay
      · exact .inr (.inr (.inr (.inl hq)))

theorem read_unstranded (n : Nat) (h : Unstranded pend s) :
    Unstranded pend (tsockZreadv s n).2 := by
  have hseats := (Stays.tsockZreadv s n).toSeats
  refine h.advance (hseats.advances ?_ ?_ (.inl ?_))
  all_goals
    unfold tsockZreadv
    split
    · rfl
    dsimp only
    split
    · rfl
    split <;> rfl

theorem close_unstranded (h : Unstranded pend s) : Unstranded pend (tpaClose s) := by
  have hseats := (Stays.tpaClose s).toSeats
  refine h.advance (hseats.advances ?_ ?_ (.inl ?_))
  all_goals
    unfold tpaClose
    split <;> rfl

end LibTpa
