/- LibTpa/Conn/OptRun
   digest: The options of every segment that a connection sends are read back as written. -/

import LibTpa.Conn.FinRun
import LibTpa.Conn.Moves
import LibTpa.Output.OptRoundTrip
import LibTpa.Rcv.Run

set_option autoImplicit false

namespace LibTpa

open Lib.Run

variable {cfg : TcpCfg} {A : Packet → Prop} {s s' : St} {p : Packet} {e : ConnEv}

def TxPacket.Encoded (q : TxPacket) : Prop :=
  q.opts = [] ∨ ∃ (cfg : TcpCfg) (s : St), s.tsock.rcv.FewSacks ∧
    q.opts = fillOpts cfg s (enabledOpts s.tsock q.flags)

/-- The table of SACK blocks is within its size, and so it was whenever a segment was
sent. -/
structure OptLog (s : St) : Prop where
  few : s.tsock.rcv.FewSacks
  log : ∀ q ∈ s.tsock.emitted, q.Encoded

theorem Announces.encoded (h : OptLog s) (ha : Announces s s') :
    ∀ q ∈ s'.tsock.emitted, q.Encoded := by
  obtain ⟨new, hnew, hall⟩ := ha.sent
  intro q hq
  rw [hnew] at hq
  rcases List.mem_append.mp hq with hq | hq
  · exact h.log q hq
  · refine (hall q hq).opts.imp_right ?_
    rintro ⟨cfg, s₁, hs, ho⟩
    refine ⟨cfg, s₁, ?_, ho⟩
    unfold Rcv.FewSacks
    rw [hs]
    exact h.few

namespace OptLog

theorem announce (h : OptLog s) (ha : Announces s s') : OptLog s' := by
  constructor
  · unfold Rcv.FewSacks
    rw [ha.sacks]
    exact h.few
  · exact ha.encoded h

theorem same (h : OptLog s) (hr : s'.tsock.rcv.sackBlocks = s.tsock.rcv.sackBlocks)
    (he : s'.tsock.emitted = s.tsock.emitted) : OptLog s' := by
  constructor
  · unfold Rcv.FewSacks
    rw [hr]
    exact h.few
  · rw [he]
    exact h.log

theorem data (h : OptLog s) (hf : RcvFrame s s') : OptLog s' :=
  ⟨hf.few h.few, by rw [hf.emitted]; exact h.log⟩

private theorem active (h : OptLog s) (cfg : TcpCfg) (p : Packet) :
    OptLog (synSentToEstablished cfg s p).1 := by
  unfold synSentToEstablished
  dsimp only
  generalize hr : processTcpOptNegotiation cfg
    (s.setRcv { s.tsock.rcv with rcvIsn := p.seq, rcvNxt := p.seq + 1 }) p = r
  have h₁ : OptLog r.1 := by
    refine h.same ?_ ?_ <;>
    · rw [← hr]
      rfl
  exact h₁.announce ((Announces.tsockEstablished cfg r.1 r.2).trans
    (RcvStill.tsockSetAckFlag cfg _ true).announces)

private theorem acked (h : OptLog s) (cfg : TcpCfg) (p : Packet) (o : TcpOpts) :
    OptLog (ackAccepted cfg s p o) := by
  have hstill := (TxFrame.countDupack s p).frame.still.trans (.ackFin cfg _ p.ack)
  exact h.announce (hstill.trans (TxFrame.ackProgress cfg _ p o _).frame.still).announces

theorem move (h : OptLog s) {b : Bool} (hm : RxMove cfg A s b s') : OptLog s' := by
  cases hm with
  | checked hc => exact h.same (by rw [hc.tsock]) hc.emitted
  | data hf => exact h.data hf
  | fin p =>
    have hf := tcpRcvFin_frame cfg s p
    exact h.same (by rw [hf.tsock]) (by rw [hf.tsock])
  | rst => exact h.announce (RcvStill.tcpRcvRst cfg s).announces
  | passive p =>
    have h₁ := h.announce (.tsockEstablished cfg s p)
    generalize tsockEstablished cfg s p = s₁ at h₁
    exact h₁.same rfl rfl
  | active p => exact h.active cfg p
  | acked p o => exact h.acked cfg p o
  | fast p => exact h.announce (TxFrame.tcpRcvAckFastpath cfg s p).frame.announces
  | accept p => exact h.same (by rw [tsockAccept_tsock]) (by rw [tsockAccept_tsock])
  | flags => exact h.announce (Quiet.xmitFlagPacket cfg s).frame.announces
  | enqueued => exact h.same rfl rfl
  | released p => exact h.same rfl rfl
  | head x => exact h.same rfl rfl

theorem run {ps : Option Packet} (h : OptLog s) (hr : RxRun cfg A ps s s') : OptLog s' :=
  hr.keep (fun _ _ _ ha h => h.announce ha.quiet.frame.announces) (fun _ _ hm h => h.move hm) h

end OptLog

structure OptHistory (s : St) : Prop where
  few : s.tsock.freed = false → s.tsock.rcv.FewSacks
  log : ∀ q ∈ s.tsock.emitted, q.Encoded

namespace OptLog

theorem history (h : OptLog s) : OptHistory s := ⟨fun _ => h.few, h.log⟩

theorem stillOrFreed (h : OptLog s) (hs : StillOrFreed s s') : OptHistory s' := by
  rcases hs with hr | hs
  · obtain ⟨s₁, hs, he⟩ := hr.sent
    refine ⟨fun hf => ?_, ?_⟩
    · rw [hr.freed] at hf
      cases hf
    · rw [he]
      exact hs.announces.encoded h
  · exact (h.announce hs.announces).history

private theorem reads (h : OptLog s) (n : Nat) : OptLog (tsockZreadv s n).2 := by
  obtain ⟨hrcv, -⟩ := tsockZreadv_frame s n
  refine h.same (by rw [hrcv]) ?_
  unfold tsockZreadv
  split
  · rfl
  dsimp only
  split
  · rfl
  · split <;> rfl

private theorem dropOooTail_sacks (n : Nat) : ∀ x : RxSt,
    (dropOooTail n x).rcv.sackBlocks = x.rcv.sackBlocks := by
  induction n with
  | zero =>
    intro x
    rfl
  | succ n ih =>
    intro x
    unfold dropOooTail
    split
    · exact ih x
    · rw [ih]
      rfl

private theorem dropOoo (h : OptLog s) : OptLog (s.setRxSt (tsockDropOooMbufs s.rxSt)) := by
  refine h.same ?_ rfl
  change (tsockDropOooMbufs s.rxSt).rcv.sackBlocks = _
  unfold tsockDropOooMbufs
  split
  · rfl
  · exact dropOooTail_sacks ..

private theorem burstEnd (h : OptLog s) (cfg : TcpCfg) : OptHistory (inputEnd cfg s) := by
  have hhead : OptLog (inputHead cfg s) :=
    h.run (inputHead_run (A := fun _ => True) cfg s fun _ _ _ _ => trivial)
  have hack := hhead.announce (RcvStill.inputAck cfg _).announces
  unfold inputEnd
  generalize inputAck cfg (inputHead cfg s) = s₁ at hack
  unfold inputPut
  split
  · have hput : OptLog (s₁.setFlags { s₁.tsock.flags with put := false }) := hack.same rfl rfl
    exact hput.stillOrFreed (.inl (RcvStill.refl _).free)
  · exact hack.history

theorem step (h : OptLog s) (cfg : TcpCfg) (e : ConnEv) : OptHistory (sockStep cfg s e) := by
  cases e with
  | packet p =>
    exact (h.run (inputPacket_run (A := fun _ => True) cfg s p fun _ _ _ _ => trivial)).history
  | burstEnd => exact h.burstEnd cfg
  | write iov => exact h.stillOrFreed (WriteFrame.tsockZwritev cfg s iov).frame.still.or
  | read n => exact (h.reads n).history
  | dropOoo => exact h.dropOoo.history
  | close => exact h.stillOrFreed (RcvStill.tpaClose s).or
  | output => exact h.stillOrFreed (.outputTurn cfg s)
  | delayedAck => exact h.stillOrFreed (RcvStill.delayedAckTurn cfg s).or
  | timer k => exact h.stillOrFreed (.tcpTimeout cfg s k)
  | neighReady => exact h.stillOrFreed (RcvStill.flushTcpPacket s).or
  | env w =>
    have hw : OptLog { s with worker := w } := h.same rfl rfl
    exact hw.history

end OptLog

theorem Opened.optLog (h : Opened cfg s) : OptLog s := by
  cases h with
  | connect w sid isIpv6 =>
    exact ⟨Nat.zero_le _, fun _ hq => nomatch hq⟩
  | accept w sid isIpv6 p =>
    obtain ⟨b, isn, mss, wscale, nego, ht⟩ :=
      passiveTsockInit_tsock cfg ⟨w, tsockInit cfg sid isIpv6⟩ p
    generalize (passiveTsockInit cfg ⟨w, tsockInit cfg sid isIpv6⟩ p).1 = s₁ at ht
    have h₁ : OptLog s₁ := by
      constructor
      · rw [ht]
        exact Nat.zero_le _
      · rw [ht]
        exact fun _ hq => nomatch hq
    exact h₁.announce (SndFrame.xmitSyn cfg s₁).announces

theorem optHistory_reach {c : Conn} (h : Opened cfg s)
    (hr : Reach (connStep cfg) (fun _ _ => True) (Conn.start s) c) : OptHistory c.st := by
  refine hr.invariant (I := fun c => OptHistory c.st) h.optLog.history ?_
  intro c e hc _
  cases hf : c.st.tsock.freed with
  | true =>
    rw [connStep, if_pos hf]
    exact hc
  | false =>
    rw [connStep, if_neg (by rw [hf]; exact Bool.false_ne_true)]
    exact (OptLog.mk (hc.few hf) hc.log).step cfg e

/-- The options of a segment that was sent. Those of a reset that a listening socket
answers with are empty; all others came from `fill_opts` and are read back. -/
def TxPacket.OptsReadBack (q : TxPacket) : Prop :=
  q.opts = [] ∨ ∃ (cfg : TcpCfg) (s : St), q.opts = fillOpts cfg s (enabledOpts s.tsock q.flags) ∧
    LibTpa.OptsReadBack cfg s q.flags

/-- For every socket with at most three SACK blocks, whatever was negotiated, the
options of a segment are read back as written; every state that a connection reaches
is such a socket, and every segment that it sent was sent by such a socket. -/
theorem fillOpts_round_trip (cfg : TcpCfg) :
    (∀ (s : St) (flags : TcpFlags), s.tsock.rcv.sackBlocks.length ≤ 3 → OptsReadBack cfg s flags) ∧
      ∀ (s : St) (c : Conn), Opened cfg s →
        Reach (connStep cfg) (fun _ _ => True) (Conn.start s) c →
        (c.st.tsock.freed = false → ∀ flags, OptsReadBack cfg c.st flags) ∧
          ∀ q ∈ c.st.tsock.emitted, q.OptsReadBack := by
  refine ⟨fun s flags hfew => optsReadBack cfg s flags hfew, ?_⟩
  intro s c hopen hreach
  have hist := optHistory_reach hopen hreach
  constructor
  · intro hlive flags
    exact optsReadBack cfg c.st flags (hist.few hlive)
  · intro q hq
    refine (hist.log q hq).imp_right ?_
    rintro ⟨cfg', s', hfew, hopts⟩
    exact ⟨cfg', s', hopts, optsReadBack cfg' s' q.flags hfew⟩

def offeringSyn : Packet :=
  { Packet.bare 0 100 0 0 { syn := true } with
    optLen := 20
    optArea := [2, 4, 5, 180, 4, 2, 8, 10, 0, 0, 0, 9, 0, 0, 0, 0, 1, 3, 3, 7] }

def agreed : St :=
  xmitSyn {} (passiveTsockInit {} ⟨Worker.boot 0 { allocOk := [true, true], neighOk := [true] },
    tsockInit {} 0 false⟩ offeringSyn).1

def gapText : List ConnEv :=
  handshake ++ [.packet (.oneByte 2 105 1 0 { ack := true } 7), .burstEnd]

theorem fillOpts_round_trip_gap :
    let c := exec (connStep {}) (Conn.start agreed) gapText
    c.st.tsock.freed = false ∧ c.st.tsock.rcv.sackBlocks = [⟨105, 106⟩] ∧
      c.st.tsock.emitted.map (fun q => (q.flags.syn, q.opts.length)) = [(true, 24), (false, 24)] ∧
      OptsReadBack {} c.st { ack := true } ∧ ∀ q ∈ c.st.tsock.emitted, q.OptsReadBack := by
  have hopen : Opened {} agreed := .accept _ _ _ _ ⟨by decide, by decide⟩
  have hreach : Reach (connStep {}) (fun _ _ => True) (Conn.start agreed)
      (exec (connStep {}) (Conn.start agreed) gapText) :=
    Reach.refl.exec ⟨trivial, trivial, trivial, trivial, trivial⟩
  have hlive : (exec (connStep {}) (Conn.start agreed) gapText).st.tsock.freed = false := by
    decide +kernel
  refine ⟨hlive, by decide +kernel, by decide +kernel, ?_⟩
  obtain ⟨hstate, hlog⟩ := (fillOpts_round_trip {}).2 _ _ hopen hreach
  exact ⟨hstate hlive _, hlog⟩

end LibTpa
