/- LibTpa/Input/Reset
   digest: The ways of a packet with the RST bit through the stack. -/

import LibTpa.Input.Cases

set_option autoImplicit false

namespace LibTpa

variable {cfg : TcpCfg} {s s' : St} {p : Packet}

/-- A packet with an ACK that this SYN_SENT socket cannot have asked for. -/
def HalfOpen (s : St) (p : Packet) : Prop :=
  p.wid = s.worker.id ∧ s.tsock.state = .synSent ∧ p.flags.ack = true ∧
    (seqLe p.ack s.tsock.snd.sndIsn ∨ seqGt p.ack s.tsock.snd.sndNxt)

instance HalfOpen.decidable (s : St) (p : Packet) : Decidable (HalfOpen s p) :=
  inferInstanceAs (Decidable (_ ∧ _))

def halfOpened (cfg : TcpCfg) (s : St) (p : Packet) : St :=
  outputTsockEnqueue (xmitFlagPacketWithSeq cfg
    (s.setFlags { s.tsock.flags with tcp := { s.tsock.flags.tcp with rst := true } }) p.ack).2

/-- `tcp_rcv_rst` is called for the packet, on a socket that is not closed yet. -/
def ResetTaken (s : St) (p : Packet) : Prop :=
  p.wid = s.worker.id ∧ p.flags.rst = true ∧ s.tsock.state ≠ .closed ∧ s.tsock.state ≠ .listen ∧
    (s.tsock.state = .synSent → p.flags.ack = true ∧
      ¬ (seqLe p.ack s.tsock.snd.sndIsn ∨ seqGt p.ack s.tsock.snd.sndNxt)) ∧
    (s.tsock.state ≠ .synSent → validateSeq s.tsock.rcv p = none)

instance ResetTaken.decidable (s : St) (p : Packet) : Decidable (ResetTaken s p) :=
  inferInstanceAs (Decidable (_ ∧ _))

/-- The socket that a reset finds behind the checks: a synchronised one has started its
keepalive timer anew. -/
structure Reached (cfg : TcpCfg) (s s₁ : St) : Prop where
  opening : s.tsock.state = .synSent → s₁ = s
  synced : s.tsock.state ≠ .synSent → s.tsock.state ≠ .closed ∧
    ∃ n, s₁ = (tsockRearmTimerKeepalive cfg s).setNego n

inductive ResetWay (cfg : TcpCfg) (s : St) (p : Packet) : St → Prop
  | ignored (hh : ¬ HalfOpen s p) (ht : ¬ ResetTaken s p) : ResetWay cfg s p s
  | refused (s₁ : St) (hh : ¬ HalfOpen s p) (ht : ¬ ResetTaken s p) (hs : Reached cfg s s₁) :
      ResetWay cfg s p s₁
  | halfOpen (hh : HalfOpen s p) : ResetWay cfg s p (halfOpened cfg s p)
  | taken (s₁ : St) (hh : ¬ HalfOpen s p) (ht : ResetTaken s p) (hs : Reached cfg s s₁) :
      ResetWay cfg s p (tcpRcvRst cfg s₁).2

private theorem rcvSynchronised_reset (cfg : TcpCfg) (s : St) (hr : p.flags.rst = true)
    (hw : p.wid = s.worker.id) (hc : s.tsock.state ≠ .closed) (hl : s.tsock.state ≠ .listen)
    (hs : s.tsock.state ≠ .synSent) : ResetWay cfg s p (rcvSynchronised cfg s p).2.1 := by
  have hparsed : (parseTcpOpts p).2.2.flags.rst = true := by rw [p.parsed_flags]; exact hr
  have hopen : ¬ HalfOpen s p := fun h => hs h.2.1
  have hframe := processIncomingSeq_frame (tsockRearmTimerKeepalive cfg s) (parseTcpOpts p).2.2
    (parseTcpOpts p).2.1
  have hpass := passed_iff cfg s p
  unfold rcvSynchronised
  dsimp only
  generalize processIncomingSeq (tsockRearmTimerKeepalive cfg s) (parseTcpOpts p).2.2
    (parseTcpOpts p).2.1 = r at hframe hpass ⊢
  obtain ⟨e, s₁⟩ := r
  have hreached : Reached cfg s s₁ := ⟨fun h => absurd h hs, fun _ => ⟨hc, _, hframe⟩⟩
  cases e with
  | some e =>
    dsimp only [sendAck]
    rw [if_pos hparsed]
    refine .refused s₁ hopen (fun ht => ?_) hreached
    have hpaws : ¬ pawsReject s p (parseTcpOpts p).2.1 := by
      intro h
      rw [h.2.2.2] at hr
      cases hr
    exact absurd (hpass.mpr ⟨ht.2.2.2.2.2 hs, hpaws⟩) (by simp)
  | none =>
    dsimp only
    rw [if_pos hparsed]
    have hseq := (hpass.mp rfl).seq
    exact .taken s₁ hopen ⟨hw, hr, hc, hl, fun h => absurd h hs, fun _ => hseq⟩ hreached

private theorem tcpRcvSlowpath_reset (cfg : TcpCfg) (s : St) (hr : p.flags.rst = true)
    (hw : p.wid = s.worker.id ∨ s.tsock.state = .listen) :
    ResetWay cfg s p (tcpRcvSlowpath cfg s p).2.1 := by
  have hwid : s.tsock.state ≠ .listen → p.wid = s.worker.id := fun h => hw.resolve_right h
  unfold tcpRcvSlowpath
  split
  · next hst =>
    dsimp only [sendRst]
    rw [if_pos hr]
    refine .ignored (fun h => ?_) fun h => h.2.2.1 hst
    rw [h.2.1] at hst
    cases hst
  · next hst =>
    have hid := hwid (by rw [hst]; decide)
    unfold tcpRcvPktAtSynSent
    dsimp only
    split
    · next hin => exact .halfOpen ⟨hid, hst, hin⟩
    next hin =>
    have hopen : ¬ HalfOpen s p := fun h => hin h.2.2
    split
    · next hack =>
      refine .taken s hopen ⟨hid, hr, ?_, ?_, fun _ => ⟨hack, fun h => hin ⟨hack, h⟩⟩, fun h =>
        absurd hst h⟩ ⟨fun _ => rfl, fun h => absurd hst h⟩ <;> rw [hst] <;> decide
    · next hack => exact .ignored hopen fun h => hack (h.2.2.2.2.1 hst).1
  · next hst =>
    unfold tcpRcvPktAtListen
    rw [if_pos hr]
    refine .ignored (fun h => ?_) fun h => h.2.2.2.1 hst
    rw [h.2.1] at hst
    cases hst
  · next hc hs hl => exact rcvSynchronised_reset cfg s hr (hwid hl) hc hl hs

theorem tcpRcvPkt_reset (cfg : TcpCfg) (s : St) (hr : p.flags.rst = true) :
    ResetWay cfg s p (tcpRcvPkt cfg s p).2.1 := by
  have hoff : fastpathOff s.tsock p := by
    refine .inr (.inr (.inr (.inl fun hf => ?_)))
    have hrst : p.flags.clearPsh.rst = true := hr
    rw [hf] at hrst
    cases hrst
  unfold tcpRcvPkt tcpRcvPktWith
  split
  · next hstale => exact .ignored (fun h => hstale.1 h.1) fun h => hstale.1 h.1
  next hwid =>
  have hw : p.wid = s.worker.id ∨ s.tsock.state = .listen := by tauto
  split
  · unfold tcpRcvFastpath
    rw [if_pos hoff]
    exact tcpRcvSlowpath_reset cfg s hr hw
  · exact tcpRcvSlowpath_reset cfg s hr hw

end LibTpa
