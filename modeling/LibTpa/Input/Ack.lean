/- LibTpa/Input/Ack
   digest: The ACK field of a segment, on the slow path and on the fast path. -/

import LibTpa.Snd.Ack

set_option autoImplicit false

namespace LibTpa

def scaledWnd (p : Packet) (wscale : Nat) : U32 := p.wnd.setWidth 32 <<< wscale

def tsockEstablished (cfg : TcpCfg) (s : St) (p : Packet) : St :=
  let s := s.setSnd { s.tsock.snd with sndUna := p.ack }
  let c := s.tsock.cc
  let wnd := if s.tsock.state = .synSent then p.wnd.setWidth 32 else scaledWnd p c.sndWscale
  let c : Cc := { c with
    sndWnd := wnd
    sndWl1 := p.seq
    sndWl2 := p.ack
    sndCwnd := cfg.cwndInit
    sndCwndUncommited := 0
    sndCwndTsUs := s.worker.tsUs
    sndSsthresh := minU32 (2 ^ 20) (wnd * 64) }
  let c : Cc := { rttUpdate cfg c (BitVec.ofNat 32 (usSince s.worker.tsUs c.initTsUs)) with
    rtoShift := 0 }
  let s := tsockRearmTimerKeepalive cfg (timerRtoStop (s.setCc c))
  tsockEventAdd (tsockSetState cfg s .established) tpaEventOut

def countDupack (s : St) (p : Packet) : St :=
  let c := s.tsock.cc
  let x := s.tsock.snd
  if p.ack = x.sndUna then
    if p.len = 0 ∧ p.wnd.setWidth 32 = c.sndWnd >>> c.sndWscale ∧ x.sndNxt ≠ x.sndUna then
      s.setCc { c with nrDupack := c.nrDupack + 1 }
    else s
  else s.setCc { c with nrDupack := 0 }

def finAcked (x : Snd) (ack : U32) : Prop := x.finSent = true ∧ ack = x.sndNxt

instance (x : Snd) (ack : U32) : Decidable (finAcked x ack) := inferInstanceAs (Decidable (_ ∧ _))

/-- The local `acked_len` of `tcp_rcv_ack`: SYN and FIN are not counted. -/
def ackedLen (x : Snd) (ack : U32) : Int :=
  (ack - x.sndUna).toInt - (if x.closedAtSynRcvd then 1 else 0) - (if finAcked x ack then 1 else 0)

def ackFin (cfg : TcpCfg) (s : St) (ack : U32) : St :=
  if finAcked s.tsock.snd ack then
    let s := s.setFlags { s.tsock.flags with finPending := false }
    match s.tsock.state with
    | .finWait1 => tsockSetState cfg s .finWait2
    | .closing => tsockSetState cfg s .timeWait
    | .lastAck => tsockSetState cfg (s.setFlags { s.tsock.flags with put := true }) .closed
    | _ => s
  else s

/-- The part of `tcp_rcv_ack` for newly acknowledged data. -/
def ackNewData (cfg : TcpCfg) (s : St) (acked : U32) : St :=
  let r := ackSentData s acked
  let c := r.1.tsock.cc
  let c : Cc := if r.2 = 0 then c else rttUpdate cfg c r.2
  let s := tsockRearmTimerRto (r.1.setCc { c with zeroWndProbeShift := 0, rtoShift := 0 })
  s.setCc (updateCwnd cfg s.worker.tsUs s.tsock.cc acked)

/-- The end of a recovery, or its next retransmission. -/
def finishRecovery (cfg : TcpCfg) (s : St) (p : Packet) (acked : Int) : St :=
  let x := s.tsock.snd
  let c := s.tsock.cc
  if x.retransStage = .none then
    if 0 < acked then s.setCc { c with sndRecover := x.sndUna - 1 } else s
  else if seqGe p.ack c.sndRecover then s.setSnd { x with retransStage := .none }
  else if x.retransStage = .rto then tcpRetrans cfg s
  else s

/-- The window update of RFC 793, page 72. -/
def updateSndWnd (s : St) (p : Packet) : St :=
  let c := s.tsock.cc
  if seqLt c.sndWl1 p.seq ∨ (p.seq = c.sndWl1 ∧ seqLe c.sndWl2 p.ack) then
    s.setCc { c with sndWl1 := p.seq, sndWl2 := p.ack, sndWnd := scaledWnd p c.sndWscale }
  else s

/-- The RTO timer stops when nothing is in flight. -/
def stopWhenIdle (s : St) : St :=
  if s.tsock.snd.sndUna = s.tsock.snd.sndNxt then timerRtoStop s else s

def ackData (cfg : TcpCfg) (s : St) (acked : Int) : St :=
  if 0 < acked then ackNewData cfg s (BitVec.ofInt 32 acked) else s

def ackSack (s : St) (o : TcpOpts) : St := if o.sackBlocks.isEmpty then s else tcpRcvSack s o

/-- `tcp_rcv_ack` from the acknowledged data on. -/
def ackProgress (cfg : TcpCfg) (s : St) (p : Packet) (o : TcpOpts) (acked : Int) : St :=
  let s := ackSack (ackData cfg s acked) o
  let s := handleFastRetransmit cfg s p (BitVec.ofInt 32 acked)
  updateSndWnd (stopWhenIdle (finishRecovery cfg s p acked)) p

/-- `tcp_rcv_ack` for an acceptable ACK on a synchronised socket. -/
def ackAccepted (cfg : TcpCfg) (s : St) (p : Packet) (o : TcpOpts) : St :=
  ackProgress cfg (ackFin cfg (countDupack s p) p.ack) p o (ackedLen s.tsock.snd p.ack)

def tcpRcvAck (cfg : TcpCfg) (s : St) (p : Packet) (o : TcpOpts) : Option Code × St :=
  if p.flags.ack = false then (some .errTcpNoAck, s)
  else
    match s.tsock.state with
    | .closed | .listen | .synSent => (some .errNotImplemented, s)
    | state =>
      if seqLt p.ack s.tsock.snd.sndUna then (none, s)
      else if seqGt p.ack s.tsock.snd.sndNxt then (some .errTcpInvalidAck,
        tsockSetAckFlag cfg s true)
      else if state = .synRcvd then (none, acceptTsockEnqueue (tsockEstablished cfg s p))
      else (none, ackAccepted cfg s p o)

/-- The part of `tcp_rcv_ack_fastpath` for newly acknowledged data. -/
def ackNewDataFast (cfg : TcpCfg) (s : St) (acked : U32) : St :=
  let r := ackSentData s acked
  let c := r.1.tsock.cc
  let c : Cc := if r.2 = 0 then c else rttUpdate cfg c r.2
  let x := r.1.tsock.snd
  let s := r.1.setCc { c with sndRecover := x.sndUna - 1, nrDupack := 0 }
  let s := if x.sndUna = x.sndNxt then timerRtoStop s else tsockRearmTimerRto s
  s.setCc (updateCwnd cfg s.worker.tsUs s.tsock.cc acked)

def tcpRcvAckFastpath (cfg : TcpCfg) (s : St) (p : Packet) : St :=
  let acked := p.ack - s.tsock.snd.sndUna
  let s := if 0 < acked.toInt then ackNewDataFast cfg s acked else s
  let c := s.tsock.cc
  s.setCc { c with sndWl1 := p.seq, sndWl2 := p.ack, sndWnd := scaledWnd p c.sndWscale }

end LibTpa
