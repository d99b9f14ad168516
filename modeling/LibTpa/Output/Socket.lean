/- LibTpa/Output/Socket
   digest: Connecting, closing and releasing a socket, and its turn in the output loop. -/

import LibTpa.Input.Process
import LibTpa.Snd.Queue

set_option autoImplicit false

namespace LibTpa

def reclaimRxq (s : St) : St :=
  (s.setRx { s.worker.rx with freed := s.worker.rx.freed ++ s.tsock.rcv.rxq.map Packet.id }).setRcv
    { s.tsock.rcv with rxq := [] }

def reclaimTxq (s : St) : St := s.tsock.snd.txq.live.foldl txDescDone s

def reclaimOooLoop : List Packet → RxSt → RxSt
  | [], x => x
  | p :: rest, x => reclaimOooLoop rest ((tsockRemoveOooPkt x p rest).free p)

def reclaimRcvOooQueue (s : St) : St := s.setRxSt (reclaimOooLoop s.tsock.rcv.ooo s.rxSt)

def leaveQueues (s : St) : St :=
  let sid := s.tsock.sid
  { s with worker := { s.worker with
      output := s.worker.output.filter (· ≠ sid)
      delayedAck := s.worker.delayedAck.filter (· ≠ sid)
      eventQueue := s.worker.eventQueue.filter (· ≠ sid)
      accept := s.worker.accept.filter (· ≠ sid) } }

def tsockFree (s : St) : St :=
  let s := s.setTimers { s.tsock.timers with rto := none, wait := none, keepalive := none }
  let s := leaveQueues (reclaimRcvOooQueue (reclaimTxq (reclaimRxq s)))
  { s with tsock := { s.tsock with freed := true } }

/-- `tcp_connect` on a socket that is still closed. -/
def tcpConnect (s : St) : St :=
  let g := isnGen s
  outputTsockEnqueue { g.2 with tsock := { g.2.tsock with
    state := .synSent
    snd := { g.2.tsock.snd with sndIsn := g.1 } } }

def tpaClose (s : St) : St :=
  if s.tsock.closeIssued then s
  else outputTsockEnqueue { s with tsock := { s.tsock with closeIssued := true } }

/-- The switch of `tcp_close`. -/
def closeSwitch (cfg : TcpCfg) (s : St) : St :=
  let f := s.tsock.flags
  match s.tsock.state with
  | .listen | .synSent => tsockSetState cfg s .closed
  | .synRcvd =>
    tsockSetState cfg ((s.setSnd { s.tsock.snd with closedAtSynRcvd := true }).setFlags
      { f with finPending := true }) .finWait1
  | .established => tsockSetState cfg (s.setFlags { f with finPending := true }) .finWait1
  | .closeWait => tsockSetState cfg (s.setFlags { f with finPending := true }) .lastAck
  | _ => s

/-- The branch of `tcp_close` for a socket with unread data. -/
def closeUnread (cfg : TcpCfg) (s : St) : St :=
  let s := tsockSetState cfg s .closed
  let f := s.tsock.flags
  (xmitFlagPacket cfg (s.setFlags { f with tcp := { f.tcp with rst := true, ack := true } })).2

/-- `tcp_close` up to its exit. -/
def closeOnce (cfg : TcpCfg) (s : St) : St :=
  let s := s.setFlags { s.tsock.flags with closeProcessed := true }
  if s.tsock.rcv.rxq.isEmpty then closeSwitch cfg s else closeUnread cfg s

def tcpClose (cfg : TcpCfg) (s : St) : St :=
  if s.tsock.flags.closeProcessed then s
  else
    let s := closeOnce cfg s
    if s.tsock.state = .closed then tsockFree s else s

/-- The FIN that follows the last byte. -/
def finReady (s : St) : St :=
  let f := s.tsock.flags
  let s := (s.setSnd { s.tsock.snd with
      sndNxt := s.tsock.snd.dataSeqNxt + 1
      finSent := true }).setFlags
    { f with tcp := { f.tcp with fin := true, ack := true } }
  if s.tsock.cc.rtoShift = 0 then timerRtoStart s s.tsock.cc.rto.toNat else s

/-- Data that is left waits for the next turn; behind the last byte goes the FIN. -/
def requeueOrFin (s : St) : St :=
  if tcpTxqToSendPkts s.tsock.snd.txq ≠ 0 then outputTsockEnqueue s
  else if s.tsock.flags.finPending then finReady s
  else s

/-- `tcp_output_one` behind `tcp_xmit_data`. -/
def outputFlags (cfg : TcpCfg) (s : St) : St :=
  let s := requeueOrFin s
  if s.tsock.flags.tcp.isEmpty then s else (xmitFlagPacket cfg s).2

/-- A close that the application asked for comes first. -/
def closeIfIssued (cfg : TcpCfg) (s : St) : St := if s.tsock.closeIssued then tcpClose cfg s else s

def tcpOutputOne (cfg : TcpCfg) (s : St) : St :=
  if s.tsock.freed then s
  else
    let s := closeIfIssued cfg s
    match s.tsock.state with
    | .closed => s
    | .synSent | .synRcvd => xmitSyn cfg s
    | _ => outputFlags cfg (tcpXmitData cfg s)

def xmitDueAck (cfg : TcpCfg) (s : St) : St :=
  if s.tsock.flags.tcp.ack then (xmitFlagPacket cfg s).2 else s

/-- `tcp_flush_delayed_ack`, for this socket when it is at the front. -/
def tcpFlushDelayedAck (cfg : TcpCfg) (s : St) : St :=
  if (BitVec.ofNat 32 s.worker.tsUs - s.tsock.nego.lastAckSentTs).toNat < cfg.delayedAck then s
  else
    let s := xmitDueAck cfg s
    { s with worker := { s.worker with delayedAck := s.worker.delayedAck.erase s.tsock.sid } }

/-- `flush_tcp_packet`, when the neighbour queue lets a packet of this socket go. -/
def flushTcpPacket (s : St) : St :=
  let f := s.tsock.flags
  tsockUpdateLastSndPkt (s.setFlags { f with tcp := { f.tcp with syn := false } })

/-- The packet that waits to be merged has no successor in this burst. -/
def inputHead (cfg : TcpCfg) (s : St) : St :=
  match s.tsock.rxMergeHead with
  | some head => tcpRcvProcess cfg s head
  | none => s

/-- At the end of a burst an ACK is sent or left to `tcp_flush_delayed_ack`. -/
def inputAck (cfg : TcpCfg) (s : St) : St :=
  if s.tsock.flags.tcp.ack then
    if s.tsock.flags.ackNow then (xmitFlagPacket cfg s).2
    else { s with worker := { s.worker with
      delayedAck := pushIfNotExist s.worker.delayedAck s.tsock.sid } }
  else s

def inputPut (s : St) : St :=
  if s.tsock.flags.put then tsockFree (s.setFlags { s.tsock.flags with put := false }) else s

/-- The loop of `tcp_input` over the sockets of a burst. -/
def inputEnd (cfg : TcpCfg) (s : St) : St := inputPut (inputAck cfg (inputHead cfg s))

end LibTpa
