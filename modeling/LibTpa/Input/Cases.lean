/- LibTpa/Input/Cases
   digest: Every way a received packet can go, stated once. -/

import LibTpa.Input.Process
import LibTpa.Input.Frame

set_option autoImplicit false

namespace LibTpa

/-- The checks in front of the ACK field only touch the keepalive timer and the
recent time stamp. -/
structure Checked (s s' : St) : Prop where
  worker : s'.worker = s.worker
  tsock : s'.tsock = { s.tsock with timers := s'.tsock.timers, nego := s'.tsock.nego }
  timers : s'.tsock.timers = { s.tsock.timers with
    keepalive := s'.tsock.timers.keepalive
    keepaliveShift := s'.tsock.timers.keepaliveShift }
  nego : s'.tsock.nego = { s.tsock.nego with
    tsRecent := s'.tsock.nego.tsRecent
    tsRecentInSec := s'.tsock.nego.tsRecentInSec }
  shift : s'.tsock.timers = s.tsock.timers ∨ s'.tsock.timers.keepaliveShift = 0

namespace Checked

variable {s s' : St}

theorem state (h : Checked s s') : s'.tsock.state = s.tsock.state := by rw [h.tsock]
theorem rcv (h : Checked s s') : s'.tsock.rcv = s.tsock.rcv := by rw [h.tsock]
theorem snd (h : Checked s s') : s'.tsock.snd = s.tsock.snd := by rw [h.tsock]
theorem cc (h : Checked s s') : s'.tsock.cc = s.tsock.cc := by rw [h.tsock]
theorem emitted (h : Checked s s') : s'.tsock.emitted = s.tsock.emitted := by rw [h.tsock]
theorem flags (h : Checked s s') : s'.tsock.flags = s.tsock.flags := by rw [h.tsock]

end Checked

inductive AckCase (cfg : TcpCfg) (s : St) (p : Packet) (o : TcpOpts) : Option Code × St → Prop
  | unsynchronised (e : Code) (h : p.flags.ack = false ∨ s.tsock.state = .closed ∨
      s.tsock.state = .listen ∨ s.tsock.state = .synSent) : AckCase cfg s p o (some e, s)
  | beyond (ha : p.flags.ack = true) (hlt : ¬ seqLt p.ack s.tsock.snd.sndUna)
      (hgt : seqGt p.ack s.tsock.snd.sndNxt) :
      AckCase cfg s p o (some .errTcpInvalidAck, tsockSetAckFlag cfg s true)
  | old (ha : p.flags.ack = true) (hlt : seqLt p.ack s.tsock.snd.sndUna) :
      AckCase cfg s p o (none, s)
  | established (ha : p.flags.ack = true) (hlt : ¬ seqLt p.ack s.tsock.snd.sndUna)
      (hgt : ¬ seqGt p.ack s.tsock.snd.sndNxt) (hst : s.tsock.state = .synRcvd) :
      AckCase cfg s p o (none, acceptTsockEnqueue (tsockEstablished cfg s p))
  | accepted (ha : p.flags.ack = true) (hlt : ¬ seqLt p.ack s.tsock.snd.sndUna)
      (hgt : ¬ seqGt p.ack s.tsock.snd.sndNxt) (hc : s.tsock.state ≠ .closed)
      (hl : s.tsock.state ≠ .listen) (hs : s.tsock.state ≠ .synSent)
      (hst : s.tsock.state ≠ .synRcvd) :
      AckCase cfg s p o (none, ackAccepted cfg s p o)

theorem tcpRcvAck_cases (cfg : TcpCfg) (s : St) (p : Packet) (o : TcpOpts) :
    AckCase cfg s p o (tcpRcvAck cfg s p o) := by
  unfold tcpRcvAck
  split
  · next ha => exact .unsynchronised _ (.inl ha)
  next ha =>
  have ha : p.flags.ack = true := by simpa using ha
  split
  · next h => exact .unsynchronised _ (by simp [h])
  · next h => exact .unsynchronised _ (by simp [h])
  · next h => exact .unsynchronised _ (by simp [h])
  next hc hl hs =>
  split
  · next hlt => exact .old ha hlt
  next hlt =>
  split
  · next hgt => exact .beyond ha hlt hgt
  next hgt =>
  split
  · next hst => exact .established ha hlt hgt hst
  · next hst => exact .accepted ha hlt hgt hc hl hs hst

/-- The packet passes `process_incoming_seq`. -/
structure Passed (s : St) (p : Packet) : Prop where
  seq : validateSeq s.tsock.rcv p = none
  paws : ¬ pawsReject s p (parseTcpOpts p).2.1

/-- The ways through `tcp_rcv_pkt` on a synchronised socket; `s₂` is the socket
behind the checks. -/
inductive Synchronised (cfg : TcpCfg) (s : St) (p : Packet) (s₂ : St) :
    Option Code × St × Packet → Prop
  | refused (e : Code) (h : ¬ Passed s p) :
      Synchronised cfg s p s₂
        (some e, sendAck cfg s₂ (parseTcpOpts p).2.2, (parseTcpOpts p).2.2)
  | rst (h : Passed s p) (hr : p.flags.rst = true) :
      Synchronised cfg s p s₂
        (some (tcpRcvRst cfg s₂).1, (tcpRcvRst cfg s₂).2, (parseTcpOpts p).2.2)
  | syn (h : Passed s p) (hr : p.flags.rst = false) (hs : p.flags.syn = true) :
      Synchronised cfg s p s₂
        (some .warnInvliadSynRcvd, sendAck cfg s₂ (parseTcpOpts p).2.2, (parseTcpOpts p).2.2)
  | badAck (h : Passed s p) (hr : p.flags.rst = false) (hs : p.flags.syn = false)
    (e : Code) (s₃ : St)
      (ha : tcpRcvAck cfg s₂ (parseTcpOpts p).2.2 (parseTcpOpts p).2.1 = (some e, s₃)) :
      Synchronised cfg s p s₂ (some e, s₃, (parseTcpOpts p).2.2)
  | closed (h : Passed s p) (hr : p.flags.rst = false) (hs : p.flags.syn = false) (s₃ : St)
      (ha : tcpRcvAck cfg s₂ (parseTcpOpts p).2.2 (parseTcpOpts p).2.1 = (none, s₃))
      (hc : s₃.tsock.state = .closed) :
      Synchronised cfg s p s₂ (none, s₃, (parseTcpOpts p).2.2)
  | text (h : Passed s p) (hr : p.flags.rst = false) (hs : p.flags.syn = false) (s₃ : St)
      (ha : tcpRcvAck cfg s₂ (parseTcpOpts p).2.2 (parseTcpOpts p).2.1 = (none, s₃))
      (hc : s₃.tsock.state ≠ .closed) :
      Synchronised cfg s p s₂ (rcvText cfg s₃ (parseTcpOpts p).2.2)

theorem validateSeq_parsed (r : Rcv) (p : Packet) :
    validateSeq r (parseTcpOpts p).2.2 = validateSeq r p := by
  unfold validateSeq Packet.endSeq
  rw [p.parsed_len, p.parsed_seq]

theorem passed_iff (cfg : TcpCfg) (s : St) (p : Packet) :
    (processIncomingSeq (tsockRearmTimerKeepalive cfg s) (parseTcpOpts p).2.2
      (parseTcpOpts p).2.1).1 = none ↔ Passed s p := by
  rw [processIncomingSeq_none, validateSeq_parsed]
  have hpaws :
    pawsReject (tsockRearmTimerKeepalive cfg s) (parseTcpOpts p).2.2 (parseTcpOpts p).2.1 ↔
      pawsReject s p (parseTcpOpts p).2.1 := by
    unfold pawsReject
    rw [p.parsed_flags]
    rfl
  rw [hpaws]
  exact ⟨fun h => ⟨h.1, h.2⟩, fun h => ⟨h.1, h.2⟩⟩

theorem rcvSynchronised_ways (cfg : TcpCfg) (s : St) (p : Packet) :
    Synchronised cfg s p (processIncomingSeq (tsockRearmTimerKeepalive cfg s) (parseTcpOpts p).2.2
      (parseTcpOpts p).2.1).2 (rcvSynchronised cfg s p) := by
  have hpass := passed_iff cfg s p
  unfold rcvSynchronised
  dsimp only
  generalize processIncomingSeq (tsockRearmTimerKeepalive cfg s) (parseTcpOpts p).2.2
    (parseTcpOpts p).2.1 = r at hpass ⊢
  obtain ⟨e, s₂⟩ := r
  dsimp only at hpass
  cases e with
  | some e => exact .refused e (fun h => by simpa using hpass.mpr h)
  | none =>
    have hp := hpass.mp rfl
    dsimp only
    rw [p.parsed_flags]
    split
    · next hrst => exact .rst hp hrst
    next hrst =>
    have hrst : p.flags.rst = false := by simpa using hrst
    split
    · next hsyn => exact .syn hp hrst hsyn
    next hsyn =>
    have hsyn : p.flags.syn = false := by simpa using hsyn
    split
    · next e s₃ ha => exact .badAck hp hrst hsyn e s₃ ha
    · next s₃ ha =>
      split
      · next hc => exact .closed hp hrst hsyn s₃ ha hc
      · next hc => exact .text hp hrst hsyn s₃ ha hc

theorem rcvSynchronised_cases (cfg : TcpCfg) (s : St) (p : Packet) :
    ∃ s₂, Checked s s₂ ∧ Synchronised cfg s p s₂ (rcvSynchronised cfg s p) := by
  refine ⟨_, ?_, rcvSynchronised_ways cfg s p⟩
  rw [processIncomingSeq_frame]
  exact ⟨rfl, rfl, rfl, rfl, .inr rfl⟩

def finState : TcpState → TcpState
  | .synRcvd | .established => .closeWait
  | .finWait1 => .closing
  | .finWait2 => .timeWait
  | st => st

structure FinFrame (s s' : St) : Prop where
  tsock : s'.tsock = { s.tsock with
    state := s'.tsock.state
    flags := s'.tsock.flags
    timers := s'.tsock.timers
    nego := s'.tsock.nego
    ev := s'.tsock.ev }
  worker : s'.worker = { s.worker with eventQueue := s'.worker.eventQueue }
  nego : s'.tsock.nego = { s.tsock.nego with quickack := s'.tsock.nego.quickack }
  flags : s'.tsock.flags = { s.tsock.flags with
    tcp := { s.tsock.flags.tcp with ack := s'.tsock.flags.tcp.ack }
    ackNow := s'.tsock.flags.ackNow
    eof := s'.tsock.flags.eof }
  own : OwnQueues s s'

theorem tcpRcvFin_frame (cfg : TcpCfg) (s : St) (p : Packet) :
    FinFrame s (tcpRcvFin cfg s p).2 := by
  have hev :=
    (SndFrame.tsockEventAdd (s.setFlags { s.tsock.flags with eof := true }) tpaEventIn).own
  unfold tcpRcvFin
  split
  · exact ⟨rfl, rfl, rfl, rfl, .of_eq rfl rfl⟩
  · dsimp only [St.setFlags] at hev ⊢
    cases s.tsock.state
    all_goals first
      | exact ⟨rfl, rfl, rfl, rfl, .of_eq rfl rfl⟩
      | exact ⟨rfl, rfl, rfl, rfl, ⟨hev.output, hev.events, hev.stay⟩⟩

theorem tcpRcvFin_state (cfg : TcpCfg) (s : St) (p : Packet) :
    (tcpRcvFin cfg s p).2.tsock.state =
      if p.flags.fin then finState s.tsock.state else s.tsock.state := by
  unfold tcpRcvFin
  cases p.flags.fin with
  | false => rfl
  | true =>
    dsimp only [St.setFlags]
    cases s.tsock.state <;> rfl

inductive FirstStage (cfg : TcpCfg) (s : St) (p : Packet) : Option Code × St × Packet → Prop
  | stale (h : p.wid ≠ s.worker.id ∧ s.tsock.state ≠ .listen) :
      FirstStage cfg s p (some .warnStalePktWorkerMismatch, s, p)
  | slow (h : p.wid = s.worker.id ∨ s.tsock.state = .listen) :
      FirstStage cfg s p (tcpRcvSlowpath cfg s p)
  | fast (s₁ s₂ : St) (p₂ : Packet) (h : p.wid = s.worker.id) (hst : s.tsock.state = .established)
      (hoff : ¬ fastpathOff s.tsock p) (hc : Checked s s₁) (hd : tcpRcvData cfg s₁ p =
        (none, s₂, p₂)) :
      FirstStage cfg s p
        (none, tsockRearmTimerKeepalive cfg (tcpRcvAckFastpath cfg s₂ p₂), p₂)
  | fallback (s₁ s₂ : St) (p₂ : Packet) (e : Code) (h : p.wid = s.worker.id)
      (hst : s.tsock.state = .established) (hoff : ¬ fastpathOff s.tsock p) (hc : Checked s s₁)
      (hd : tcpRcvData cfg s₁ p = (some e, s₂, p₂)) :
      FirstStage cfg s p (tcpRcvSlowpath cfg s₂ p₂)

theorem tcpRcvPkt_cases (cfg : TcpCfg) (s : St) (p : Packet) :
    FirstStage cfg s p (tcpRcvPkt cfg s p) := by
  unfold tcpRcvPkt tcpRcvPktWith
  split
  · next h => exact .stale h
  next h =>
  have hw : p.wid = s.worker.id ∨ s.tsock.state = .listen := by tauto
  split
  · next hst =>
    have hst := hst.2
    have hwid : p.wid = s.worker.id := hw.resolve_right (by rw [hst]; decide)
    unfold tcpRcvFastpath
    by_cases hoff : fastpathOff s.tsock p
    · rw [if_pos hoff]
      exact .slow hw
    · rw [if_neg hoff]
      dsimp only
      generalize hs₁ : (if seqLe p.seq s.tsock.nego.lastAckSent then updateTsRecent s p else s) = s₁
      have hc : Checked s s₁ := by
        rw [← hs₁]
        split <;> exact ⟨rfl, rfl, rfl, rfl, .inl rfl⟩
      generalize hd : tcpRcvData cfg s₁ p = r
      obtain ⟨e, s₂, p₂⟩ := r
      cases e with
      | some e => exact .fallback s₁ s₂ p₂ e hwid hst hoff hc hd
      | none => exact .fast s₁ s₂ p₂ hwid hst hoff hc hd
  · exact .slow hw

end LibTpa
