/- LibTpa/Conn/Control
   digest: The flags that wait to be sent, and the numbers of the segments that carry them. -/

import LibTpa.Conn.FsmRun
import LibTpa.Conn.Moves
import LibTpa.Output.FlagPacket

/-!
`xmit_flag_packet_with_seq` sends whatever flags are pending, under the number that its
caller names. A flag that could not be sent stays pending until some later call, so a
number is right only if every flag that is pending at that time belongs to it.
-/

set_option autoImplicit false

namespace LibTpa

variable {cfg : TcpCfg} {A : Packet → Prop} {s s' s'' : St} {p : Packet} {q : TxPacket} {seq : U32}

/-- A SYN has the first number and goes without RST and FIN; a FIN has the number behind
the last byte, and everything before it was sent. -/
structure Rightly (t : TcpSock) (q : TxPacket) : Prop where
  syn : q.flags.syn = true → q.seq = t.snd.sndIsn ∧ q.flags.rst = false ∧ q.flags.fin = false
  fin : q.flags.fin = true → q.seq = t.snd.dataSeqNxt ∧
    t.snd.sndNxt = t.snd.dataSeqNxt + 1 ∧ t.snd.txq.nxt = t.snd.txq.write

/-- What the pending flags and the segments in the log say about the send half. -/
structure ControlInv (s : St) : Prop where
  shut : s.tsock.snd.finSent = true ∨ s.tsock.flags.finPending = true → s.tsock.state.shut = true
  all : s.tsock.snd.finSent = true → s.tsock.snd.sndNxt = s.tsock.snd.dataSeqNxt + 1 ∧
    s.tsock.snd.txq.nxt = s.tsock.snd.txq.write
  syn : s.tsock.flags.tcp.syn = true → s.tsock.flags.tcp.rst = false ∧ s.tsock.flags.tcp.fin = false
  fin : s.tsock.flags.tcp.fin = true → s.tsock.snd.finSent = true
  sentSyn : ∀ q ∈ s.tsock.emitted, q.flags.syn = true →
    q.seq = s.tsock.snd.sndIsn ∧ q.flags.rst = false ∧ q.flags.fin = false
  sentFin : ∀ q ∈ s.tsock.emitted, q.flags.fin = true →
    q.seq = s.tsock.snd.dataSeqNxt ∧ s.tsock.snd.finSent = true

theorem ControlInv.rightly (h : ControlInv s) (hq : q ∈ s.tsock.emitted) : Rightly s.tsock q := by
  refine ⟨h.sentSyn q hq, fun hf => ?_⟩
  obtain ⟨hseq, hsent⟩ := h.sentFin q hq hf
  exact ⟨hseq, h.all hsent⟩

structure Bare (s s' : St) : Prop where
  sent : ∃ new, s'.tsock.emitted = s.tsock.emitted ++ new ∧
    ∀ q ∈ new, q.flags.syn = false ∧ q.flags.fin = false
  syn : s'.tsock.flags.tcp.syn = true → s.tsock.flags.tcp.syn = true
  fin : s'.tsock.flags.tcp.fin = true → s.tsock.flags.tcp.fin = true
  rst : s'.tsock.flags.tcp.rst = true → s.tsock.flags.tcp.rst = true

namespace Bare

theorem of_ack (he : s'.tsock.emitted = s.tsock.emitted) (a : Bool)
    (ht : s'.tsock.flags.tcp = { s.tsock.flags.tcp with ack := a }) : Bare s s' := by
  refine ⟨⟨[], by rw [he, List.append_nil], by simp⟩, ?_, ?_, ?_⟩ <;> rw [ht] <;> exact id

theorem of_eq (he : s'.tsock.emitted = s.tsock.emitted)
    (ht : s'.tsock.flags.tcp = s.tsock.flags.tcp) : Bare s s' :=
  of_ack he s.tsock.flags.tcp.ack ht

theorem enqueued {s₁ s₂ : St} {r : Option Code} (h : devPortTxqEnqueue s₁ q = (r, s₂))
    (he : s₁.tsock.emitted = s.tsock.emitted) (hf : s₁.tsock.flags.tcp = s.tsock.flags.tcp)
    (hq : q.flags.syn = false ∧ q.flags.fin = false) : Bare s s₂ := by
  unfold devPortTxqEnqueue at h
  split at h
  · cases h
    exact .of_eq he hf
  · cases h
    refine ⟨⟨[q], by rw [← he], fun q' hq' => ?_⟩, ?_, ?_, ?_⟩
    · rw [List.mem_singleton.mp hq']
      exact hq
    all_goals
      rw [← hf]
      exact id

end Bare

theorem Texts.bare (h : Texts s s') : Bare s s' := by
  obtain ⟨new, hnew, hall⟩ := h.sent
  refine ⟨⟨new, hnew, fun q hq => ?_⟩, ?_, ?_, ?_⟩
  · rw [hall q hq]
    exact ⟨rfl, rfl⟩
  all_goals
    intro hb
    rcases h.tcp with ht | ht
    · rw [← ht]
      exact hb
    · rw [ht] at hb
      cases hb

namespace ControlInv

theorem move (h : ControlInv s) (hs : SndStill s.tsock.snd s'.tsock.snd)
    (hp : s'.tsock.flags.finPending = true → s.tsock.flags.finPending = true)
    (hsh : s.tsock.state.shut = true → s'.tsock.state.shut = true) (hb : Bare s s') :
    ControlInv s' := by
  obtain ⟨new, hnew, hall⟩ := hb.sent
  constructor
  · intro hor
    exact hsh (h.shut (hor.imp (fun hf => hs.fin ▸ hf) hp))
  · intro hf
    obtain ⟨hnxt, hw⟩ := h.all (hs.fin ▸ hf)
    obtain ⟨hnxt', hw'⟩ := hs.all hw
    exact ⟨by rw [hnxt', hs.data]; exact hnxt, hw'⟩
  · intro hsyn
    obtain ⟨hr, hf⟩ := h.syn (hb.syn hsyn)
    exact ⟨Bool.eq_false_iff.mpr fun hr' => by simp [hb.rst hr'] at hr,
      Bool.eq_false_iff.mpr fun hf' => by simp [hb.fin hf'] at hf⟩
  · intro hf
    rw [hs.fin]
    exact h.fin (hb.fin hf)
  · intro q hq hsyn
    rw [hs.isn]
    rw [hnew] at hq
    rcases List.mem_append.mp hq with hq | hq
    · exact h.sentSyn q hq hsyn
    · simp [(hall q hq).1] at hsyn
  · intro q hq hf
    rw [hs.data, hs.fin]
    rw [hnew] at hq
    rcases List.mem_append.mp hq with hq | hq
    · exact h.sentFin q hq hf
    · simp [(hall q hq).2] at hf

theorem same (h : ControlInv s) (hs : s'.tsock.snd = s.tsock.snd)
    (hp : s'.tsock.flags.finPending = s.tsock.flags.finPending)
    (hst : s'.tsock.state = s.tsock.state) (hb : Bare s s') : ControlInv s' :=
  h.move (hs ▸ .refl _) (fun hf => hp ▸ hf) (fun hsh => hst ▸ hsh) hb

theorem tx (h : ControlInv s) (hf : TxFrame s s') : ControlInv s' :=
  h.move hf.still (fun hp => hf.frame.pending ▸ hp) (fun hsh => hf.state ▸ hsh) hf.texts.bare

theorem of_tsock (h : ControlInv s) (ht : s'.tsock = s.tsock) : ControlInv s' :=
  h.same (by rw [ht]) (by rw [ht]) (by rw [ht]) (.of_eq (by rw [ht]) (by rw [ht]))

theorem early (h : ControlInv s) (hst : s.tsock.state.shut = false) :
    s.tsock.snd.finSent = false ∧ s.tsock.flags.finPending = false := by
  constructor
  · apply Bool.eq_false_iff.mpr
    intro hf
    simp [h.shut (.inl hf)] at hst
  · apply Bool.eq_false_iff.mpr
    intro hf
    simp [h.shut (.inr hf)] at hst

theorem early_fin (h : ControlInv s) (hst : s.tsock.state.shut = false) :
    s.tsock.flags.tcp.fin = false := by
  apply Bool.eq_false_iff.mpr
  intro hf
  have hsent := h.fin hf
  simp [(h.early hst).1] at hsent

theorem send (h : ControlInv s) (cfg : TcpCfg) (seq : U32)
    (hsyn : s.tsock.flags.tcp.syn = true → seq = s.tsock.snd.sndIsn)
    (hfin : s.tsock.flags.tcp.fin = true → seq = s.tsock.snd.dataSeqNxt) :
    ControlInv (xmitFlagPacketWithSeq cfg s seq).2 := by
  have hq := Quiet.xmitFlagPacketWithSeq cfg s seq
  have hcase := xmitFlagPacketWithSeq_cases cfg s seq
  generalize (xmitFlagPacketWithSeq cfg s seq).2 = s' at hq hcase
  cases hcase with
  | headless =>
    refine h.same rfl rfl rfl ⟨⟨[], (List.append_nil _).symm, by simp⟩, ?_, ?_, ?_⟩
    all_goals
      intro hb
      cases hb
  | dry => exact h.of_tsock (packetAlloc_tsock s)
  | refused _ _ _ _ hr =>
    exact h.same hq.snd hq.frame.pending hq.frame.state (.of_eq hr.emitted hr.tcp)
  | sent _ _ he ht =>
    -- The log grows by one packet, with the flags that were pending.
    have hmem : ∀ q ∈ s'.tsock.emitted, q ∈ s.tsock.emitted ∨ q = flagPacket cfg s seq := by
      intro q hq
      rw [he] at hq
      simpa using hq
    constructor
    · rw [hq.snd, hq.frame.pending, hq.frame.state]
      exact h.shut
    · rw [hq.snd]
      exact h.all
    · rw [ht]
      exact fun hb => nomatch hb
    · rw [ht]
      exact fun hb => nomatch hb
    · intro q hmq hb
      rw [hq.snd]
      rcases hmem q hmq with hold | rfl
      · exact h.sentSyn q hold hb
      · exact ⟨hsyn hb, h.syn hb⟩
    · intro q hmq hb
      rw [hq.snd]
      rcases hmem q hmq with hold | rfl
      · exact h.sentFin q hold hb
      · exact ⟨hfin hb, h.fin hb⟩

theorem flags (h : ControlInv s) (cfg : TcpCfg) : ControlInv (xmitFlagPacket cfg s).2 := by
  refine h.send cfg _ (fun hb => if_pos hb) fun hb => ?_
  have hsyn : s.tsock.flags.tcp.syn = false := by
    apply Bool.eq_false_iff.mpr
    intro hs
    simp [(h.syn hs).2] at hb
  unfold flagSeq
  rw [hsyn, hb]
  rfl

theorem setRst (h : ControlInv s) (hsyn : s.tsock.flags.tcp.syn = false) (a : Bool) :
    ControlInv (s.setFlags { s.tsock.flags with
      tcp := { s.tsock.flags.tcp with rst := true, ack := a } }) := by
  refine ⟨h.shut, h.all, fun hb => ?_, h.fin, h.sentSyn, h.sentFin⟩
  have hb' : s.tsock.flags.tcp.syn = true := hb
  simp [hsyn] at hb'

theorem setState (h : ControlInv s) (cfg : TcpCfg) (st : TcpState)
    (hsh : s.tsock.state.shut = true → st.shut = true) : ControlInv (tsockSetState cfg s st) := by
  have ht := tsockSetState_tsock cfg s st
  generalize tsockSetState cfg s st = s' at ht
  refine h.move (by rw [ht]; exact .refl _) (fun hp => by rw [ht] at hp; exact hp) ?_
    (.of_eq (by rw [ht]) (by rw [ht]))
  rw [ht]
  exact hsh

theorem free (h : ControlInv s) : ControlInv (tsockFree s) := by
  obtain ⟨rcv, timers, ht⟩ := tsockFree_tsock s
  exact h.same (by rw [ht]) (by rw [ht]) (by rw [ht]) (.of_eq (by rw [ht]) (by rw [ht]))

end ControlInv

/-! Packets. -/

/-- The packet is answered with a reset on the socket's own account. -/
def Resets (s : St) (p : Packet) : Prop :=
  HalfOpen s p ∨ s.tsock.state = .closed ∧ p.wid = s.worker.id ∧ p.flags.rst = false

instance Resets.decidable (s : St) (p : Packet) : Decidable (Resets s p) :=
  inferInstanceAs (Decidable (_ ∨ _))

namespace ControlInv

private theorem rstForListen (h : ControlInv s) (p : Packet) (hst : s.tsock.state = .listen) :
    ControlInv (xmitRstForListen s p).2 := by
  have hq := Quiet.xmitRstForListen s p hst
  refine h.same hq.snd hq.frame.pending hq.frame.state ?_
  have ht := packetAlloc_tsock s
  unfold xmitRstForListen
  split
  · next s₁ heq =>
    rw [heq] at ht
    exact .of_eq (by rw [ht]) (by rw [ht])
  · next s₁ heq =>
    rw [heq] at ht
    have he : s₁.tsock.emitted = s.tsock.emitted := by rw [ht]
    have hf : s₁.tsock.flags.tcp = s.tsock.flags.tcp := by rw [ht]
    dsimp only
    split
    · next henq => exact Bare.enqueued henq he hf ⟨rfl, rfl⟩
    · next henq =>
      have hb := Bare.enqueued henq he hf ⟨rfl, rfl⟩
      exact ⟨hb.sent, hb.syn, hb.fin, hb.rst⟩

theorem answer (h : ControlInv s) (ha : Answer cfg s p s')
    (hg : Resets s p → s.tsock.flags.tcp.syn = false) : ControlInv s' := by
  cases ha with
  | halfOpen hh =>
    have hsyn := hg (.inl hh)
    have hfin := h.early_fin (by rw [hh.2.1]; rfl)
    have hsend := (h.setRst hsyn s.tsock.flags.tcp.ack).send cfg p.ack
      (fun hb => absurd hb (by simp [St.setFlags, hsyn]))
      (fun hb => absurd hb (by simp [St.setFlags, hfin]))
    exact hsend.of_tsock rfl
  | closed hst hw hr =>
    exact (h.setRst (hg (.inr ⟨hst, hw, hr⟩)) s.tsock.flags.tcp.ack).flags cfg
  | listen hst => exact h.rstForListen p hst

private theorem finned (h : ControlInv s) (cfg : TcpCfg) (p : Packet) :
    ControlInv (tcpRcvFin cfg s p).2 := by
  have hf := tcpRcvFin_frame cfg s p
  have hst := tcpRcvFin_state cfg s p
  generalize (tcpRcvFin cfg s p).2 = s' at hf hst
  have hsnd : s'.tsock.snd = s.tsock.snd := by rw [hf.tsock]
  refine h.move (hsnd ▸ .refl _) (fun hp => by rw [hf.flags] at hp; exact hp) (fun hsh => ?_)
    (.of_ack (by rw [hf.tsock]) s'.tsock.flags.tcp.ack (by rw [hf.flags]))
  rw [hst]
  split
  · exact finState_shut hsh
  · exact hsh

private theorem rst (h : ControlInv s) (cfg : TcpCfg) : ControlInv (tcpRcvRst cfg s).2 := by
  unfold tcpRcvRst
  split
  · exact h
  · dsimp only
    refine setState ?_ cfg .closed fun _ => rfl
    split <;> exact h.same rfl rfl rfl (.of_eq rfl rfl)

private theorem established (h : ControlInv s) (cfg : TcpCfg) (p : Packet)
    (hst : s.tsock.state.shut = false) : ControlInv (tsockEstablished cfg s p) := by
  obtain ⟨s₁, hf, -, he⟩ := tsockEstablished_split cfg s p
  have h₂ := (h.tx hf).setState cfg .established fun hsh => by rw [hf.state, hst] at hsh; cases hsh
  rw [he]
  generalize tsockSetState cfg s₁ .established = s₂ at h₂
  exact h₂.same rfl rfl rfl (.of_eq rfl rfl)

private theorem active (h : ControlInv s) (cfg : TcpCfg) (p : Packet)
    (hst : s.tsock.state = .synSent) : ControlInv (synSentToEstablished cfg s p).1 := by
  have h₁ : ControlInv (processTcpOptNegotiation cfg
      (s.setRcv { s.tsock.rcv with rcvIsn := p.seq, rcvNxt := p.seq + 1 }) p).1 := by
    unfold processTcpOptNegotiation
    dsimp only
    generalize parseTcpOpts p = r
    exact h.same rfl rfl rfl (.of_eq rfl rfl)
  have hst₁ : (processTcpOptNegotiation cfg
      (s.setRcv { s.tsock.rcv with rcvIsn := p.seq, rcvNxt := p.seq + 1 }) p).1.tsock.state =
        .synSent := hst
  unfold synSentToEstablished
  dsimp only
  generalize processTcpOptNegotiation cfg _ p = r at h₁ hst₁
  have h₂ := h₁.established cfg r.2 (by rw [hst₁]; rfl)
  generalize tsockEstablished cfg r.1 r.2 = s₂ at h₂
  have hf := RcvFrame.tsockSetAckFlag cfg s₂ true
  exact h₂.same rfl (by rw [hf.flags]) rfl (.of_ack rfl _ (by rw [hf.flags]))

private theorem acked (h : ControlInv s) (cfg : TcpCfg) (p : Packet) (o : TcpOpts) :
    ControlInv (ackAccepted cfg s p o) := by
  have h₁ := h.tx (.countDupack s p)
  obtain ⟨ht, hpend⟩ := ackFin_tsock cfg (countDupack s p) p.ack
  have htcp : (ackFin cfg (countDupack s p) p.ack).tsock.flags.tcp =
      (countDupack s p).tsock.flags.tcp := by
    unfold ackFin
    split
    · dsimp only
      split
      all_goals first | rw [tsockSetState_tsock] | skip
      all_goals rfl
    · rfl
  have h₂ : ControlInv (ackFin cfg (countDupack s p) p.ack) := by
    generalize ackFin cfg (countDupack s p) p.ack = s₂ at ht hpend htcp
    refine h₁.move (by rw [ht]; exact .refl _) hpend (fun hsh => ?_) (.of_eq (by rw [ht]) htcp)
    rw [ht]
    exact ackState_shut _ _ _ hsh
  rw [ackAccepted]
  exact h₂.tx (.ackProgress ..)

theorem rxMove (h : ControlInv s) {b : Bool} (hm : RxMove cfg A s b s') : ControlInv s' := by
  cases hm with
  | checked hc =>
    exact h.same hc.snd (by rw [hc.flags]) hc.state (.of_eq hc.emitted (by rw [hc.flags]))
  | data hf =>
    exact h.same hf.snd (by rw [hf.flags]) hf.state
      (.of_ack (by rw [hf.tsock]) _ (by rw [hf.flags]))
  | fin p => exact h.finned cfg p
  | rst => exact h.rst cfg
  | passive p _ hst =>
    have h₁ := h.established cfg p (by rw [hst]; rfl)
    generalize tsockEstablished cfg s p = s₁ at h₁
    exact h₁.of_tsock rfl
  | active p _ hst => exact h.active cfg p hst
  | acked p o => exact h.acked cfg p o
  | fast p => exact h.tx (.tcpRcvAckFastpath cfg s p)
  | accept p => exact h.of_tsock (tsockAccept_tsock cfg s p)
  | flags => exact h.flags cfg
  | enqueued => exact h.of_tsock rfl
  | released p => exact h.of_tsock rfl
  | head x => exact h.same rfl rfl rfl (.of_eq rfl rfl)

end ControlInv

end LibTpa
