/- LibTpa/Output/Frame
   digest: Segments without payload: what they carry and what they leave alone. -/

import LibTpa.Sock.Frame

set_option autoImplicit false

namespace LibTpa

def Plain (s s' : St) : Prop :=
  ∃ new, s'.tsock.emitted = s.tsock.emitted ++ new ∧ ∀ q ∈ new, q.payload = []

theorem Plain.of_eq {s s' : St} (h : s'.tsock.emitted = s.tsock.emitted) : Plain s s' :=
  ⟨[], by simp [h], by simp⟩

theorem Plain.trans {s s' s'' : St} (h : Plain s s') (h' : Plain s' s'') : Plain s s'' := by
  obtain ⟨new, hnew, hall⟩ := h
  obtain ⟨new', hnew', hall'⟩ := h'
  refine ⟨new ++ new', by rw [hnew', hnew, List.append_assoc], ?_⟩
  intro q hq
  exact (List.mem_append.mp hq).elim (hall q) (hall' q)

/-- A frame that also keeps the send queue, the windows and the timers, and sends
no data. -/
structure Quiet (s s' : St) : Prop where
  frame : SndFrame s s'
  snd : s'.tsock.snd = s.tsock.snd
  tx : s'.worker.tx = s.worker.tx
  fault : s'.worker.fault = s.worker.fault
  cc : s'.tsock.cc = s.tsock.cc
  timers : s'.tsock.timers = s.tsock.timers
  done : s'.worker.done = s.worker.done
  plain : Plain s s'

theorem Quiet.refl (s : St) : Quiet s s := ⟨.refl s, rfl, rfl, rfl, rfl, rfl, rfl, .of_eq rfl⟩

theorem Quiet.trans {s s' s'' : St} (h : Quiet s s') (h' : Quiet s' s'') : Quiet s s'' :=
  ⟨h.frame.trans h'.frame, h'.snd.trans h.snd, h'.tx.trans h.tx, h'.fault.trans h.fault,
    h'.cc.trans h.cc, h'.timers.trans h.timers, h'.done.trans h.done, h.plain.trans h'.plain⟩

theorem Quiet.packetAlloc (s : St) : Quiet s (packetAlloc s).2 := by
  refine ⟨.packetAlloc s, ?_, ?_, ?_, ?_, ?_, ?_, .of_eq ?_⟩ <;> unfold LibTpa.packetAlloc <;>
    split <;> rfl

theorem Quiet.devPortTxqEnqueue (s : St) (pkt : TxPacket) (h : Announced s.tsock pkt)
    (hp : pkt.payload = []) : Quiet s (devPortTxqEnqueue s pkt).2 := by
  have hf := SndFrame.devPortTxqEnqueue s pkt h
  unfold LibTpa.devPortTxqEnqueue at hf ⊢
  split at hf
  · next hfull =>
    rw [if_pos hfull]
    exact .refl s
  · next hfull =>
    rw [if_neg hfull]
    refine ⟨hf, rfl, ?_, ?_, rfl, rfl, ?_, [pkt], rfl, by simpa using hp⟩
    all_goals
      dsimp only
      split <;> rfl

theorem Quiet.afterPrepend (s : St) (f : TcpFlags) : Quiet s (afterPrepend s f) :=
  ⟨.afterPrepend s f, rfl, rfl, rfl, rfl, rfl, rfl, .of_eq rfl⟩

theorem Quiet.setTcp (s : St) (f : TcpFlags) :
    Quiet s (s.setFlags { s.tsock.flags with tcp := f }) := 
  ⟨.setTcp s f, rfl, rfl, rfl, rfl, rfl, rfl, .of_eq rfl⟩

theorem Quiet.tsockUpdateLastSndPkt (s : St) : Quiet s (tsockUpdateLastSndPkt s) :=
  ⟨.tsockUpdateLastSndPkt s, rfl, rfl, rfl, rfl, rfl, rfl, .of_eq rfl⟩

theorem Quiet.neighWaitEnqueue (s : St) (pkt : TxPacket) (h : Announced s.tsock pkt)
    (hp : pkt.payload = []) : Quiet s (neighWaitEnqueue s pkt).2 := by
  unfold LibTpa.neighWaitEnqueue
  dsimp only
  split
  · exact ⟨.queued h rfl rfl, rfl, rfl, rfl, rfl, rfl, rfl, [pkt], rfl, by simpa using hp⟩
  · exact ⟨⟨rfl, rfl, .inl rfl, rfl, .of_eq rfl rfl rfl id, .of_eq rfl rfl⟩, rfl, rfl, rfl, rfl,
      rfl, rfl, .of_eq rfl⟩

theorem Quiet.flagPacketEnqueue (s : St) (pkt : TxPacket) (ha : Announced s.tsock pkt)
    (hp : pkt.payload = []) : Quiet s (flagPacketEnqueue s pkt).2 := by
  unfold LibTpa.flagPacketEnqueue
  split
  · have h : Quiet s (s.setFlags { s.tsock.flags with missingArp := false }) :=
      ⟨⟨rfl, rfl, .inl rfl, rfl, .of_eq rfl rfl rfl id, .of_eq rfl rfl⟩, rfl, rfl, rfl, rfl, rfl,
        rfl, .of_eq rfl⟩
    exact h.trans (.neighWaitEnqueue _ pkt ⟨ha.told, ha.opts, ha.field, ha.view⟩ hp)
  · exact .devPortTxqEnqueue s pkt ha hp

theorem Quiet.stampAck (s : St) (seq ts : U32) : Quiet s (s.setNego
    { s.tsock.nego with lastAckSent := seq, lastAckSentTs := ts }) :=
  ⟨.stampAck s seq ts, rfl, rfl, rfl, rfl, rfl, rfl, .of_eq rfl⟩

theorem Quiet.setAck (s : St) (f : TcpFlags) (now : Bool) :
    Quiet s (s.setFlags { s.tsock.flags with tcp := f, ackNow := now }) :=
  ⟨⟨rfl, rfl, .inl rfl, rfl, .of_eq rfl rfl rfl id, .of_eq rfl rfl⟩, rfl, rfl, rfl, rfl, rfl, rfl,
    .of_eq rfl⟩

theorem Quiet.flagPacketSent (s : St) (f : TcpFlags) : Quiet s (flagPacketSent s f) := by
  unfold LibTpa.flagPacketSent
  dsimp only
  refine trans (trans ?_ (.setTcp ..)) (.tsockUpdateLastSndPkt _)
  split
  · exact (Quiet.stampAck s _ _).trans (.setAck ..)
  · exact .refl s

theorem Quiet.xmitFlagPacketWithSeq (cfg : TcpCfg) (s : St) (seq : U32) :
    Quiet s (xmitFlagPacketWithSeq cfg s seq).2 := by
  unfold LibTpa.xmitFlagPacketWithSeq
  split
  · exact .setTcp s {}
  have halloc := Quiet.packetAlloc s
  split
  · next s₁ h1 =>
    rw [h1] at halloc
    exact halloc
  · next s₁ h1 =>
    rw [h1] at halloc
    have h2 := halloc.trans (.afterPrepend s₁ s₁.tsock.flags.tcp)
    have h3 := h2.trans (.flagPacketEnqueue _ _
      (buildPacket_announced cfg s₁ seq s₁.tsock.flags.tcp [] false) rfl)
    dsimp only [prependTcpHdr] at h3 ⊢
    split
    · next s₂ heq =>
      rw [heq] at h3
      exact h3
    · next s₂ heq =>
      rw [heq] at h3
      exact h3.trans (.flagPacketSent s₂ _)

theorem Quiet.xmitFlagPacket (cfg : TcpCfg) (s : St) : Quiet s (xmitFlagPacket cfg s).2 :=
  .xmitFlagPacketWithSeq cfg s _

theorem Quiet.outputTsockEnqueue (s : St) : Quiet s (outputTsockEnqueue s) :=
  ⟨.outputTsockEnqueue s, rfl, rfl, rfl, rfl, rfl, rfl, .of_eq rfl⟩

theorem Quiet.xmitRstForListen (s : St) (p : Packet) (hst : s.tsock.state = .listen) :
    Quiet s (xmitRstForListen s p).2 := by
  unfold LibTpa.xmitRstForListen
  have halloc := Quiet.packetAlloc s
  split
  · next s₁ h1 =>
    rw [h1] at halloc
    exact halloc
  · next s₁ h1 =>
    rw [h1] at halloc
    have hid : Quiet s₁ { s₁ with tsock := { s₁.tsock with packetId := s₁.tsock.packetId + 1 } } :=
      ⟨⟨rfl, rfl, .inl rfl, rfl, .of_eq rfl rfl rfl id, .of_eq rfl rfl⟩, rfl, rfl, rfl, rfl, rfl,
        rfl, .of_eq rfl⟩
    have h2 := (halloc.trans hid).trans (.devPortTxqEnqueue _
      { seq := p.ack, ack := 0, flags := { rst := true }, wnd := 0, opts := [], payload := []
        retransmit := false, ipLen := if p.isIpv6 then 20 else 40, tsoSegsz := none
        rcvNxt := 0, rcvWnd := 0, shift := 0 }
      ⟨(fun hack => nomatch hack), .inl rfl, rfl, .inl (halloc.frame.state.trans hst)⟩ rfl)
    dsimp only
    split
    · next heq =>
      rw [heq] at h2
      exact h2
    · next heq =>
      rw [heq] at h2
      exact h2.trans (.tsockUpdateLastSndPkt _)

end LibTpa
