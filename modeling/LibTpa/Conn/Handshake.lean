/- LibTpa/Conn/Handshake
   digest: Where a passive socket goes when its handshake ends. -/

import LibTpa.Conn.Seats

set_option autoImplicit false

namespace LibTpa

variable {s s' s'' : St} {p : Packet} {cfg : TcpCfg}

/-- The socket is in its handshake, waits to be accepted or is about to be released. -/
def Kept (s : St) : Prop :=
  Greeting s.tsock ∨ s.tsock.sid ∈ s.worker.accept ∨ s.tsock.flags.put = true

/-- A FIN without text in SYN_RCVD does not come with an old ACK. -/
def FreshFin (s : St) (p : Packet) : Prop :=
  Taken s p.rewind → s.tsock.state = .synRcvd → p.flags.fin = true → p.len = 0 →
    ¬ seqLt p.ack s.tsock.snd.sndUna

instance (s : St) (p : Packet) : Decidable (Taken s p) :=
  decidable_of_iff (p.wid = s.worker.id ∧ (validateSeq s.tsock.rcv p = none ∧
      ¬ pawsReject s p (parseTcpOpts p).2.1) ∧ p.flags.rst = false ∧ p.flags.syn = false ∧
      p.flags.ack = true)
    ⟨fun h => ⟨h.1, ⟨h.2.1.1, h.2.1.2⟩, h.2.2.1, h.2.2.2.1, h.2.2.2.2⟩,
      fun h => ⟨h.wid, ⟨h.passed.seq, h.passed.paws⟩, h.rst, h.syn, h.ack⟩⟩

instance (s : St) (p : Packet) : Decidable (FreshFin s p) := inferInstanceAs (Decidable (_ → _))

namespace Greeting

theorem same {t t' : TcpSock} (h : Greeting t) (hst : t'.state = t.state)
    (hp : t'.passiveConnection = t.passiveConnection) (ht : t'.timers = t.timers)
    (hc : t'.closeIssued = t.closeIssued) (hq : t'.snd.txq = t.snd.txq) : Greeting t' := by
  refine ⟨⟨hst.trans h.state, hp.trans h.passive, ?_, hc.trans h.issued, ?_⟩, ?_⟩
  · rw [ht]
    exact h.keepalive
  · rw [hq]
    exact h.empty
  · rw [ht]
    exact h.rto

theorem quiet (h : Greeting s.tsock) (hq : Quiet s s') : Greeting s'.tsock :=
  h.same hq.frame.state hq.frame.seats.passive hq.timers (by rw [hq.frame.tsock]) (by rw [hq.snd])

theorem rcv (h : Greeting s.tsock) (hr : RcvFrame s s') : Greeting s'.tsock :=
  h.same hr.state (by rw [hr.tsock]) hr.timers (by rw [hr.tsock]) (by rw [hr.snd])

theorem checked (h : Greeting s.tsock) (hc : Checked s s') : Greeting s'.tsock := by
  refine ⟨⟨hc.state.trans h.state, by rw [hc.tsock]; exact h.passive, fun hk => ?_,
    by rw [hc.tsock]; exact h.issued, by rw [hc.snd]; exact h.empty⟩, ?_⟩
  · rcases hc.shift with ht | h0
    · rw [ht] at hk ⊢
      exact h.keepalive hk
    · exact h0
  · rw [hc.timers]
    exact h.rto

theorem sendAck (h : Greeting s.tsock) (cfg : TcpCfg) (p : Packet) :
    Greeting (sendAck cfg s p).tsock := by
  unfold LibTpa.sendAck
  split
  · exact h
  · dsimp only
    split
    · exact h.rcv ((RcvFrame.tsockResetQuickack s).trans (.tsockSetAckFlag ..))
    · exact h.rcv (.tsockSetAckFlag ..)

theorem tcpRcvRst (h : Greeting s.tsock) (cfg : TcpCfg) :
    (tcpRcvRst cfg s).2.tsock.flags.put = true := by
  have he : (rstEffect s.tsock).toClose = true := by
    unfold rstEffect
    rw [h.state, h.passive]
    rfl
  unfold LibTpa.tcpRcvRst
  rw [if_neg (by rw [h.state]; decide)]
  dsimp only
  rw [tsockSetState_tsock]
  dsimp only
  rw [he, Bool.or_true, if_pos rfl]
  change (_ || _ || true) = true
  rw [Bool.or_true]

theorem tcpRcvAck (h : Greeting s.tsock) (cfg : TcpCfg) (p : Packet) (o : TcpOpts) :
    (tcpRcvAck cfg s p o).2.tsock.sid ∈ (tcpRcvAck cfg s p o).2.worker.accept ∨
      Greeting (tcpRcvAck cfg s p o).2.tsock ∧ ((tcpRcvAck cfg s p o).1 = none →
        (tcpRcvAck cfg s p o).2 = s ∧ p.flags.ack = true ∧ seqLt p.ack s.tsock.snd.sndUna) := by
  have hcase := tcpRcvAck_cases cfg s p o
  generalize LibTpa.tcpRcvAck cfg s p o = r at hcase
  cases hcase with
  | unsynchronised => exact .inr ⟨h, fun hn => nomatch hn⟩
  | beyond => exact .inr ⟨h.rcv (.tsockSetAckFlag ..), fun hn => nomatch hn⟩
  | old ha hlt => exact .inr ⟨h, fun _ => ⟨rfl, ha, hlt⟩⟩
  | established => exact .inl (List.mem_append_right _ (List.mem_singleton_self _))
  | accepted _ _ _ _ _ _ hst => exact absurd h.state hst

theorem rcvText (h : Greeting s.tsock) (cfg : TcpCfg)
    (hf : p.flags.fin = true → p.len ≠ 0) : Greeting (rcvText cfg s p).2.1.tsock := by
  unfold LibTpa.rcvText
  rw [if_neg (by rw [h.state]; decide)]
  split
  · exact h
  · next hlen =>
    have hfin : p.flags.fin = false := by
      by_contra hne
      exact hlen (hf (by simpa using hne))
    unfold tcpRcvFin
    rw [hfin]
    exact h

end Greeting

namespace Kept

theorem later (h : s.tsock.sid ∈ s.worker.accept ∨ s.tsock.flags.put = true) (hs : Seats s s') :
    Kept s' := by
  refine .inr (h.imp (fun hw => ?_) hs.put)
  rw [hs.sid]
  exact hs.waits hw

theorem rcvSynchronised (h : Greeting s.tsock) (cfg : TcpCfg)
    (hf : Passed s p → p.flags.rst = false → p.flags.syn = false → p.flags.ack = true →
      p.flags.fin = true → p.len = 0 → ¬ seqLt p.ack s.tsock.snd.sndUna) :
    Kept (rcvSynchronised cfg s p).2.1 := by
  obtain ⟨s₂, hck, hcase⟩ := rcvSynchronised_cases cfg s p
  have h₂ := h.checked hck
  have ha := h₂.tcpRcvAck cfg (parseTcpOpts p).2.2 (parseTcpOpts p).2.1
  generalize LibTpa.rcvSynchronised cfg s p = r at hcase
  cases hcase with
  | refused => exact .inl (h₂.sendAck cfg _)
  | rst => exact .inr (.inr (h₂.tcpRcvRst cfg))
  | syn => exact .inl (h₂.sendAck cfg _)
  | badAck _ _ _ e s₃ heq =>
    rw [heq] at ha
    exact ha.elim (fun hm => .inr (.inl hm)) fun hg => .inl hg.1
  | closed _ _ _ s₃ heq hc =>
    rw [heq] at ha
    exact ha.elim (fun hm => .inr (.inl hm)) fun hg => .inl hg.1
  | text hpass hr hs s₃ heq =>
    rw [heq] at ha
    rcases ha with hm | ⟨hg, hold⟩
    · exact .later (.inl hm) (.rcvText cfg s₃ _)
    · obtain ⟨-, hack, hlt⟩ := hold rfl
      rw [p.parsed_flags] at hack
      rw [p.parsed_ack, hck.snd] at hlt
      refine .inl (hg.rcvText cfg fun hfin hlen => ?_)
      rw [p.parsed_flags] at hfin
      rw [p.parsed_len] at hlen
      exact hf hpass hr hs hack hfin hlen hlt

theorem tcpRcvPkt (h : Greeting s.tsock) (cfg : TcpCfg)
    (hf : Taken s p → p.flags.fin = true → p.len = 0 → ¬ seqLt p.ack s.tsock.snd.sndUna) :
    Kept (tcpRcvPkt cfg s p).2.1 := by
  have hcase := tcpRcvPkt_cases cfg s p
  generalize LibTpa.tcpRcvPkt cfg s p = r at hcase
  cases hcase with
  | stale => exact .inl h
  | slow hw =>
    have hwid : p.wid = s.worker.id := hw.resolve_right (by rw [h.state]; decide)
    unfold tcpRcvSlowpath
    rw [h.state]
    exact rcvSynchronised h cfg fun hpass hr hs ha => hf ⟨hwid, hpass, hr, hs, ha⟩
  | fast s₁ s₂ p₂ _ hst => exact absurd (h.state.symm.trans hst) (by decide)
  | fallback s₁ s₂ p₂ e _ hst => exact absurd (h.state.symm.trans hst) (by decide)

theorem tcpRcvProcess (h : Greeting s.tsock) (cfg : TcpCfg) (hf : FreshFin s p) :
    Kept (tcpRcvProcess cfg s p) := by
  have hk : Kept (LibTpa.tcpRcvPkt cfg s { p with toRead := p.segs }).2.1 :=
    tcpRcvPkt h cfg fun ht => hf ht h.state
  unfold LibTpa.tcpRcvProcess
  generalize LibTpa.tcpRcvPkt cfg s { p with toRead := p.segs } = r at hk
  have hdone := Seats.rcvDone cfg r.2.1 r (.refl _)
  rcases hk with hg | hk
  · refine .inl ?_
    dsimp only
    have h₁ : Greeting (if r.1 ≠ none ∨ r.2.2.len = 0 then packetFree r.2.1 r.2.2
        else r.2.1).tsock := by
      split
      · exact hg
      · exact hg
    generalize (if r.1 ≠ none ∨ r.2.2.len = 0 then packetFree r.2.1 r.2.2 else r.2.1) = s₁ at h₁
    split
    · exact (h₁.quiet (.xmitFlagPacket cfg s₁)).same rfl rfl rfl rfl rfl
    · exact h₁.same rfl rfl rfl rfl rfl
  · exact .later hk hdone

theorem heard (h : s.tsock.sid ∈ s.worker.accept ∨ s.tsock.flags.put = true) (hs : Heard s s') :
    Kept s' := by
  cases hs with
  | alone hs => exact .later h hs
  | opens s₁ c ho hs =>
    refine .later ?_ hs
    rw [ho.tsock, ho.accept]
    exact h

theorem inputPacket (h : Kept s) (cfg : TcpCfg)
    (hf : ∀ q ∈ processed cfg s (.packet p), FreshFin s q) : Kept (inputPacket cfg s p) := by
  rcases h with hg | hk
  · have hl : s.tsock.state ≠ .listen := by
      rw [hg.state]
      decide
    unfold LibTpa.inputPacket
    rw [if_neg hl]
    have hcase := tcpMerge_cases cfg s (parseTsOptFast p)
    generalize tcpMerge cfg s (parseTsOptFast p) = s' at hcase
    cases hcase with
    | alone => exact .inl (hg.same rfl rfl rfl rfl rfl)
    | chained => exact .inl ((hg.rcv (.tsockSetAckFlag cfg s true)).same rfl rfl rfl rfl rfl)
    | behind head hhead hm =>
      rcases tcpRcvProcess hg cfg (hf head (processed_behind hl hhead hm)) with hg' | hk'
      · exact .inl (hg'.same rfl rfl rfl rfl rfl)
      · exact .inr hk'
  · exact heard hk (inputPacket_heard cfg s p)

theorem inputEnd (h : Kept s) (cfg : TcpCfg) (hf : ∀ q ∈ processed cfg s .burstEnd, FreshFin s q) :
    (inputEnd cfg s).tsock.freed = true ∨ Kept (inputEnd cfg s) := by
  have hhead : Kept (inputHead cfg s) := by
    rcases h with hg | hk
    · unfold inputHead
      split
      · next head hh => exact tcpRcvProcess hg cfg (hf head hh)
      · exact .inl hg
    · refine heard hk ?_
      unfold inputHead
      split
      · exact tcpRcvProcess_heard ..
      · exact .alone (.refl s)
  have hack : Kept (inputAck cfg (inputHead cfg s)) := by
    generalize inputHead cfg s = s₁ at hhead
    rcases hhead with hg | hk
    · refine .inl ?_
      unfold inputAck
      split
      · split
        · exact hg.quiet (.xmitFlagPacket cfg s₁)
        · exact hg
      · exact hg
    · exact later hk (.inputAck cfg s₁)
  unfold LibTpa.inputEnd inputPut
  split
  · exact .inl (Left.tsockFree _).freed
  · exact .inr hack

end Kept

namespace Greeting

theorem tcpOutputOne (h : Greeting s.tsock) (cfg : TcpCfg) :
    Greeting (tcpOutputOne cfg s).tsock := by
  have hclose : closeIfIssued cfg s = s := by
    unfold closeIfIssued
    rw [h.issued]
    rfl
  unfold LibTpa.tcpOutputOne
  split
  · exact h
  dsimp only
  rw [hclose, h.state]
  obtain ⟨rto, ht, hrto⟩ := xmitSyn_timers cfg s
  have hfr := SndFrame.xmitSyn cfg s
  have hsnd := xmitSyn_snd cfg s
  dsimp only
  generalize xmitSyn cfg s = s₁ at ht hfr hsnd
  refine ⟨⟨hfr.state.trans h.state, hfr.seats.passive.trans h.passive, ?_, ?_, ?_⟩, ?_⟩
  · rw [ht]
    exact h.keepalive
  · rw [hfr.tsock]
    exact h.issued
  · rw [hsnd]
    exact h.empty
  · rw [ht]
    exact hrto (.inr h.rto)

theorem rtoResend (h : Answered s.tsock) (cfg : TcpCfg) :
    Greeting (tcpRetrans cfg (rtoRestart (clearSacked (stampRtoStart s)))).tsock := by
  have h₁ : Answered (clearSacked (stampRtoStart s)).tsock := by
    have hc : ∀ c : Cc, Answered { s.tsock with cc := c } :=
      fun c => ⟨h.state, h.passive, h.keepalive, h.issued, h.empty⟩
    rw [clearSacked_tsock]
    unfold stampRtoStart
    split
    · split <;> exact hc _
    · exact hc _
  generalize clearSacked (stampRtoStart s) = s₁ at h₁
  have h₂ : Greeting (rtoRestart s₁).tsock :=
    ⟨⟨h₁.state, h₁.passive, h₁.keepalive, h₁.issued, h₁.empty⟩, Option.some_ne_none _⟩
  have hbase : (rtoRestart s₁).tsock.snd.retransDescBase = (rtoRestart s₁).tsock.snd.txq.una := rfl
  generalize rtoRestart s₁ = s₂ at h₂ hbase
  have h₃ : Greeting (regulateRetrans s₂).tsock ∧ (regulateRetrans s₂).tsock.snd.retransDescBase =
      (regulateRetrans s₂).tsock.snd.txq.una := by
    unfold regulateRetrans
    dsimp only
    split
    · exact ⟨h₂.same rfl rfl rfl rfl rfl, rfl⟩
    · exact ⟨h₂, hbase⟩
  unfold tcpRetrans doTcpRetrans
  dsimp only
  generalize regulateRetrans s₂ = s₃ at h₃
  rw [TxFrame.doTcpXmitData_all]
  · exact h₃.1.same rfl rfl rfl rfl rfl
  · unfold XmitCtx.peek tcpTxqPeekForWrite
    dsimp only
    rw [h₃.2, h₃.1.empty, BitVec.sub_self]
    exact if_pos (BitVec.le_refl _)

theorem tcpTimeoutRto (h : Answered s.tsock) (cfg : TcpCfg) :
    (tcpTimeoutRto cfg s).tsock.freed = true ∨ Greeting (tcpTimeoutRto cfg s).tsock := by
  have h₁ : Answered (s.setCc { s.tsock.cc with rtoShift := s.tsock.cc.rtoShift + 1 }).tsock :=
    ⟨h.state, h.passive, h.keepalive, h.issued, h.empty⟩
  unfold LibTpa.tcpTimeoutRto
  dsimp only
  generalize s.setCc _ = s₁ at h₁ ⊢
  split
  · refine .inl ?_
    rw [h₁.state]
    unfold timedOut
    dsimp only
    rw [if_pos (by simp)]
    exact (Left.tsockFree _).freed
  · have h₂ := rtoResend h₁ cfg
    generalize tcpRetrans cfg _ = s₂ at h₂
    exact .inr h₂

theorem tcpTimeout (h : Greeting s.tsock) (hr : 0 < cfg.retries) (k : TimerKind) :
    (tcpTimeout cfg s k).tsock.freed = true ∨ Greeting (tcpTimeout cfg s k).tsock := by
  unfold LibTpa.tcpTimeout
  split
  · exact .inr h
  next hdl =>
  dsimp only
  rw [if_neg (by change s.tsock.state ≠ _; rw [h.state]; decide)]
  cases k with
  | rto =>
    have h₁ : Answered (s.setTimers (s.tsock.timers.stop .rto)).tsock :=
      ⟨h.state, h.passive, h.keepalive, h.issued, h.empty⟩
    generalize s.setTimers (s.tsock.timers.stop .rto) = s₁ at h₁
    exact tcpTimeoutRto h₁ cfg
  | wait => exact .inl (Left.tsockFree _).freed
  | keepalive =>
    have h0 : s.tsock.timers.keepaliveShift = 0 := h.keepalive hdl
    refine .inr ?_
    unfold tcpTimeoutKeepalive
    dsimp only
    rw [if_neg, if_neg]
    · exact ⟨⟨h.state, h.passive, fun hk => absurd rfl hk, h.issued, h.empty⟩, h.rto⟩
    · change s.tsock.state ≠ _
      rw [h.state]
      decide
    · change ¬ cfg.retries ≤ s.tsock.timers.keepaliveShift.toNat
      rw [h0]
      exact Nat.not_le.mpr hr

end Greeting

end LibTpa
