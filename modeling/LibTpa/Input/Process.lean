/- LibTpa/Input/Process
   digest: What the stack does with one received packet, in every state. -/

import LibTpa.Input.Ack
import LibTpa.Sock.Init

set_option autoImplicit false

namespace LibTpa

def updateTsRecent (s : St) (p : Packet) : St :=
  s.setNego { s.tsock.nego with tsRecent := p.tsVal, tsRecentInSec := nowInSec s.worker }

def fastpathOff (t : TcpSock) (p : Packet) : Prop :=
  p.seq ≠ t.rcv.rcvNxt ∨ seqLt p.ack t.snd.sndUna ∨ seqGt p.ack t.snd.sndNxt ∨
    p.flags.clearPsh ≠ tcpFlagAck ∨ (p.len = 0 ∧ p.ack = t.snd.sndUna) ∨
    t.snd.retransStage ≠ .none ∨ t.rcv.rcvWnd = 0 ∨
    p.optLen ≠ tcpOptTsSpace ∨ p.hasTsOpt = false ∨ seqLt p.tsVal t.nego.tsRecent

instance (t : TcpSock) (p : Packet) : Decidable (fastpathOff t p) :=
  inferInstanceAs (Decidable (_ ∨ _))

/-- `tcp_rcv_fastpath`: whether it consumed the packet, and what it left. -/
def tcpRcvFastpath (cfg : TcpCfg) (s : St) (p : Packet) : Bool × St × Packet :=
  if fastpathOff s.tsock p then (false, s, p)
  else
    let s := if seqLe p.seq s.tsock.nego.lastAckSent then updateTsRecent s p else s
    match tcpRcvData cfg s p with
    | (some _, s, p) => (false, s, p)
    | (none, s, p) => (true, tcpRcvAckFastpath cfg s p, p)

/-- The PAWS check of `process_incoming_seq` refuses the packet. -/
def pawsReject (s : St) (p : Packet) (o : TcpOpts) : Prop :=
  o.hasTs = true ∧ seqLt o.tsVal s.tsock.nego.tsRecent ∧
    (nowInSec s.worker - s.tsock.nego.tsRecentInSec).toNat < tcpPawsIdleMax ∧ p.flags.rst = false

instance (s : St) (p : Packet) (o : TcpOpts) : Decidable (pawsReject s p o) :=
  inferInstanceAs (Decidable (_ ∧ _))

def processIncomingSeq (s : St) (p : Packet) (o : TcpOpts) : Option Code × St :=
  match validateSeq s.tsock.rcv p with
  | some e => (some e, s)
  | none =>
    if pawsReject s p o then (some .errTcpInvalidTs, s)
    else if o.hasTs ∧ seqLe p.seq s.tsock.nego.lastAckSent ∧ p.flags.rst = false then
      (none, updateTsRecent s p)
    else (none, s)

/-- What the options `o` of the peer's SYN settle. -/
def negotiate (cfg : TcpCfg) (s : St) (p : Packet) (o : TcpOpts) : St :=
  let t := s.tsock
  let hasTs := t.nego.tsEnabled && o.hasTs
  let hasWs := t.nego.wsEnabled && o.hasWscale
  let mss := calcSndMss cfg t.isIpv6 hasTs true o.mss
  { s with tsock := { t with
      nego := { t.nego with
        tsRecent := if hasTs then p.tsVal else t.nego.tsRecent
        tsRecentInSec := if hasTs then nowInSec s.worker else t.nego.tsRecentInSec
        tsOk := t.nego.tsOk || hasTs
        rcvWscale := if hasWs then tcpWscaleDefault else 0
        wsOk := t.nego.wsOk || hasWs }
      cc := { t.cc with
        sndMss := if hasTs then mss - BitVec.ofNat 16 tcpOptTsSpace else mss
        sndWscale := if hasWs then o.wscale else 0 }
      rcv := { t.rcv with sackOk := t.nego.sackEnabled && o.hasSackPerm } } }

/-- `process_tcp_opt_negotiation`, with the packet as the parse leaves it. -/
def processTcpOptNegotiation (cfg : TcpCfg) (s : St) (p : Packet) : St × Packet :=
  let r := parseTcpOpts p
  (negotiate cfg s r.2.2 r.2.1, r.2.2)

def synSentToEstablished (cfg : TcpCfg) (s : St) (p : Packet) : St × Packet :=
  let s := s.setRcv { s.tsock.rcv with rcvIsn := p.seq, rcvNxt := p.seq + 1 }
  let r := processTcpOptNegotiation cfg s p
  (tsockSetAckFlag cfg (tsockEstablished cfg r.1 r.2) true, r.2)

/-- What a RST does in a state: the code it returns, `tsock->err`, whether the
socket is marked for release, and the local `to_close`. -/
structure RstEffect where
  code : Code := .warnRstRecv
  err : Option Errno
  put : Bool := false
  toClose : Bool := false

/-- The switch of `tcp_rcv_rst`. -/
def rstEffect (t : TcpSock) : RstEffect :=
  match t.state with
  | .synSent => { code := .errConnRefused, err := some .econnrefused }
  | .synRcvd =>
    if t.passiveConnection then { err := t.err, toClose := true }
    else { code := .errConnRefused, err := some .econnrefused }
  | .established | .finWait1 | .finWait2 | .closeWait => { err := some .econnreset }
  | .closing | .lastAck => { err := t.err, put := true }
  | .timeWait => { code := .warnGotRstAtTimeWait, err := t.err, put := true }
  | _ => { err := t.err }

def tcpRcvRst (cfg : TcpCfg) (s : St) : Code × St :=
  if s.tsock.state = .closed then (.warnRstRecv, s)
  else
    let e := rstEffect s.tsock
    let quiet := s.tsock.closeIssued || e.toClose
    let f := s.tsock.flags
    let s := (s.setErr e.err).setFlags { f with put := f.put || e.put || quiet }
    let s := if quiet then s else tsockEventAdd s tpaEventErr
    (e.code, tsockSetState cfg s .closed)

def tsockInitNetHdr (s : St) : St :=
  let o := s.worker.oracles
  let f := s.tsock.flags
  { worker := { s.worker with oracles := { o with ethOk := o.ethOk.tail } }
    tsock := { s.tsock with
      netHdrLen := if s.tsock.isIpv6 then 54 else 34
      flags := if o.ethOk.headD false then f else { f with missingArp := true } } }

/-- `xmit_syn` up to the transmission. -/
def synReady (s : St) : St :=
  let x := s.tsock.snd
  let seq := x.sndIsn
  let s := s.setSnd { x with sndUna := seq, sndNxt := seq + 1, dataSeqNxt := seq + 1 }
  let s := s.setCc { s.tsock.cc with
    sndRecover := seq
    sndTs := usToTcpTs s.worker.tsUs
    initTsUs := s.worker.tsUs
    rto := tcpRtoDefault }
  let s := tsockInitNetHdr s
  let f := s.tsock.flags
  s.setFlags { f with tcp := { f.tcp with
    syn := true
    ack := f.tcp.ack || s.tsock.state = .synRcvd } }

/-- A SYN that found the dev txq full is tried again soon. -/
def retrySyn (r : Option Code × St) : St :=
  if r.1 = some .errDevTxqFull then outputTsockEnqueue r.2 else r.2

def xmitSyn (cfg : TcpCfg) (s : St) : St :=
  let s := retrySyn (xmitFlagPacket cfg (synReady s))
  if s.tsock.cc.rtoShift = 0 then timerRtoStart s s.tsock.cc.rto.toNat else s

def isnGen (s : St) : U32 × St :=
  let o := s.worker.oracles
  (o.isn.headD 0, { s with worker := { s.worker with oracles := { o with isn := o.isn.tail } } })

/-- `passive_tsock_init`, on the new socket. -/
def passiveTsockInit (cfg : TcpCfg) (s : St) (p : Packet) : St × Packet :=
  let s := { s with tsock := { s.tsock with
    netHdrLen := if p.isIpv6 then 54 else 34
    passiveConnection := true } }
  let t := rteRdtsc s
  let s := { t.2 with worker := { t.2.worker with tsUs := t.1 } }
  let s := s.setRcv { s.tsock.rcv with rcvIsn := p.seq, rcvNxt := p.seq + 1 }
  let g := isnGen s
  let s := g.2.setSnd { g.2.tsock.snd with sndIsn := g.1 }
  let r := processTcpOptNegotiation cfg s p
  (tsockSetState cfg r.1 .synRcvd, r.2)

/-- `tsock_accept`; the new socket joins the worker's children. -/
def tsockAccept (cfg : TcpCfg) (s : St) (p : Packet) : Option Code × St × Packet :=
  let o := s.worker.oracles
  let w := { s.worker with oracles := { o with sockOk := o.sockOk.tail, slots := o.slots.tail } }
  if o.sockOk.headD false then
    let child := tsockInit cfg (o.slots.headD 0) p.isIpv6
    let r := passiveTsockInit cfg ⟨w, child⟩ p
    let c := xmitSyn cfg r.1
    (none, { s with worker := { c.worker with children := c.worker.children ++ [c.tsock] } }, r.2)
  else (some .errTooManySocks, { s with worker := w }, p)

def tcpRcvPktAtListen (cfg : TcpCfg) (s : St) (p : Packet) : Option Code × St × Packet :=
  if p.flags.rst then (some .warnRstRecv, s, p)
  else if p.flags.ack then (some .warnAckAtListen, (xmitRstForListen s p).2, p)
  else if p.flags.syn then tsockAccept cfg s p
  else (some .warnInvliadPktAtListen, s, p)

def tcpRcvPktAtSynSent (cfg : TcpCfg) (s : St) (p : Packet) : Option Code × St × Packet :=
  let x := s.tsock.snd
  if p.flags.ack ∧ (seqLe p.ack x.sndIsn ∨ seqGt p.ack x.sndNxt) then
    let f := s.tsock.flags
    let s := (xmitFlagPacketWithSeq cfg (s.setFlags { f with tcp := { f.tcp with rst := true } })
      p.ack).2
    (some .warnHalfOpenDetected, outputTsockEnqueue s, p)
  else if p.flags.rst then
    if p.flags.ack then
      let r := tcpRcvRst cfg s
      (some r.1, r.2, p)
    else (some .errRstWithNoAck, s, p)
  else if p.flags.syn = false then (some .errNoSynAndRst, s, p)
  else if p.flags.ack = false then (some .simultaneousConnect, s, p)
  else if seqGt p.ack x.sndIsn then
    let r := synSentToEstablished cfg s p
    (none, r.1, r.2)
  else (some .errInvalidSynSentProcess, s, p)

def tcpRcvFin (cfg : TcpCfg) (s : St) (p : Packet) : Option Code × St :=
  if p.flags.fin = false then (none, s)
  else
    let s := s.setFlags { s.tsock.flags with eof := true }
    match s.tsock.state with
    | .closed | .listen | .synSent => (some .errInvalidStateForFin, s)
    | state =>
      let s := tsockEventAdd s tpaEventIn
      let s := match state with
        | .synRcvd | .established => tsockSetState cfg s .closeWait
        | .finWait1 => tsockSetState cfg s .closing
        | .finWait2 => tsockSetState cfg s .timeWait
        | _ => s
      (none, tsockSetAckFlag cfg s true)

/-- The exit `send_ack` of `tcp_rcv_pkt`. -/
def sendAck (cfg : TcpCfg) (s : St) (p : Packet) : St :=
  if p.flags.rst then s
  else
    let s := if p.len ≠ 0 ∧ seqLt p.seq s.tsock.rcv.rcvNxt then tsockResetQuickack s else s
    tsockSetAckFlag cfg s true

/-- The exit `send_rst` of `tcp_rcv_pkt`. -/
def sendRst (cfg : TcpCfg) (s : St) (p : Packet) : St :=
  if p.flags.rst then s
  else
    let f := s.tsock.flags
    (xmitFlagPacket cfg (s.setFlags { f with tcp := { f.tcp with rst := true } })).2

def takesData (state : TcpState) : Prop :=
  state = .established ∨ state = .finWait1 ∨ state = .finWait2

instance (state : TcpState) : Decidable (takesData state) := inferInstanceAs (Decidable (_ ∨ _))

/-- `tcp_rcv_pkt` from the segment text on. -/
def rcvText (cfg : TcpCfg) (s : St) (p : Packet) : Option Code × St × Packet :=
  if takesData s.tsock.state then
    match tcpRcvData cfg s p with
    | (some e, s, p) => (some e, s, p)
    | (none, s, p) =>
      let r := tcpRcvFin cfg s p
      (r.1, r.2, p)
  else if p.len ≠ 0 then (some .errTcpRcvInvalidState, s, p)
  else
    let r := tcpRcvFin cfg s p
    (r.1, r.2, p)

/-- `tcp_rcv_pkt` on a synchronised socket, SYN_RCVD included. -/
def rcvSynchronised (cfg : TcpCfg) (s : St) (p : Packet) : Option Code × St × Packet :=
  let s := tsockRearmTimerKeepalive cfg s
  let o := parseTcpOpts p
  let p := o.2.2
  match processIncomingSeq s p o.2.1 with
  | (some e, s) => (some e, sendAck cfg s p, p)
  | (none, s) =>
    if p.flags.rst then
      let r := tcpRcvRst cfg s
      (some r.1, r.2, p)
    else if p.flags.syn then (some .warnInvliadSynRcvd, sendAck cfg s p, p)
    else
      match tcpRcvAck cfg s p o.2.1 with
      | (some e, s) => (some e, s, p)
      | (none, s) => if s.tsock.state = .closed then (none, s, p) else rcvText cfg s p

/-- `tcp_rcv_pkt` behind the fast path. -/
def tcpRcvSlowpath (cfg : TcpCfg) (s : St) (p : Packet) : Option Code × St × Packet :=
  match s.tsock.state with
  | .closed => (some .pktRecvAfterClose, sendRst cfg s p, p)
  | .synSent => tcpRcvPktAtSynSent cfg s p
  | .listen => tcpRcvPktAtListen cfg s p
  | _ => rcvSynchronised cfg s p

/-- `tcp_rcv_pkt`, with the fast path or with one that never takes a packet. -/
def tcpRcvPktWith (cfg : TcpCfg) (fast : Bool) (s : St) (p : Packet) :
    Option Code × St × Packet :=
  if p.wid ≠ s.worker.id ∧ s.tsock.state ≠ .listen then (some .warnStalePktWorkerMismatch, s, p)
  else if fast ∧ s.tsock.state = .established then
    match tcpRcvFastpath cfg s p with
    | (true, s, p) => (none, tsockRearmTimerKeepalive cfg s, p)
    | (false, s, p) => tcpRcvSlowpath cfg s p
  else tcpRcvSlowpath cfg s p

def tcpRcvPkt (cfg : TcpCfg) (s : St) (p : Packet) : Option Code × St × Packet :=
  tcpRcvPktWith cfg true s p

def tcpRcvProcess (cfg : TcpCfg) (s : St) (p : Packet) : St :=
  let r := tcpRcvPkt cfg s { p with toRead := p.segs }
  let s := r.2.1
  let s := if r.1 ≠ none ∨ r.2.2.len = 0 then packetFree s r.2.2 else s
  let s := if s.tsock.flags.ackNow then (xmitFlagPacket cfg s).2 else s
  { s with tsock := { s.tsock with rxMergeHead := none } }

def hasTsOptOnly (p : Packet) : Bool := p.optLen = tcpOptTsSpace && p.hasTsOpt

def tcpCanMerge (cfg : TcpCfg) (head p : Packet) : Bool :=
  cfg.enableRxMerge && hasTsOptOnly p && 0 < head.len && 0 < p.len &&
    p.flags.clearPsh = tcpFlagAck && head.ack = p.ack && head.endSeq = p.seq &&
    head.tsVal = p.tsVal && head.tsEcr = p.tsEcr && head.len + p.l5Len < tsockMaxMergeSize

def tcpMerge (cfg : TcpCfg) (s : St) (p : Packet) : St :=
  match s.tsock.rxMergeHead with
  | none => { s with tsock := { s.tsock with rxMergeHead := some p } }
  | some head =>
    if head.seq = s.tsock.rcv.rcvNxt ∧ tcpCanMerge cfg head p then
      let s := tsockSetAckFlag cfg s true
      { s with tsock := { s.tsock with rxMergeHead := some (packetChain head p) } }
    else
      let s := tcpRcvProcess cfg s head
      { s with tsock := { s.tsock with rxMergeHead := some p } }

end LibTpa
