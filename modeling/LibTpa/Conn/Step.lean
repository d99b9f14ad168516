/- LibTpa/Conn/Step
   digest: One connection and everything that can happen to it. -/

import LibTpa.Sock.Timeout
import LibTpa.Snd.Write
import LibTpa.Rcv.Read
import LibTpa.Lib.Run

/-!
A connection is a socket with a record of what its application wrote and read.
Its steps are the calls of the stack's loops and of the application, and
whatever the rest of the worker does in between.
-/

set_option autoImplicit false

namespace LibTpa

/-- A parsed packet: one buffer that holds the whole payload. -/
def Packet.Single (p : Packet) : Prop := ∃ b, p.segs = [b] ∧ p.len = b.length

/-- What happens to a connection. `env` is the rest of the worker. -/
inductive ConnEv
  | packet (p : Packet)
  | burstEnd
  | write (iov : List Iovec)
  | read (nrIov : Nat)
  | dropOoo
  | close
  | output
  | delayedAck
  | timer (k : TimerKind)
  | neighReady
  | env (w : Worker)

/-- `tcp_input` for one packet of this socket. -/
def inputPacket (cfg : TcpCfg) (s : St) (p : Packet) : St :=
  if s.tsock.state = .listen then tcpRcvProcess cfg s (parseTsOptFast p)
  else tcpMerge cfg s (parseTsOptFast p)

/-- `tcp_output` when the socket is queued there. -/
def outputTurn (cfg : TcpCfg) (s : St) : St :=
  if s.tsock.sid ∈ s.worker.output then
    tcpOutputOne cfg { s with worker := { s.worker with
      output := s.worker.output.erase s.tsock.sid } }
  else s

/-- `tcp_flush_delayed_ack` when the socket is queued there. -/
def delayedAckTurn (cfg : TcpCfg) (s : St) : St :=
  if s.tsock.sid ∈ s.worker.delayedAck then tcpFlushDelayedAck cfg s else s

def sockStep (cfg : TcpCfg) (s : St) : ConnEv → St
  | .packet p => inputPacket cfg s p
  | .burstEnd => inputEnd cfg s
  | .write iov => (tsockZwritev cfg s iov).2
  | .read n => (tsockZreadv s n).2
  | .dropOoo => s.setRxSt (tsockDropOooMbufs s.rxSt)
  | .close => tpaClose s
  | .output => outputTurn cfg s
  | .delayedAck => delayedAckTurn cfg s
  | .timer k => tcpTimeout cfg s k
  | .neighReady => flushTcpPacket s
  | .env w => { s with worker := w }

/-- The packet that the event hands to `tcp_rcv_process`. -/
def processed (cfg : TcpCfg) (s : St) : ConnEv → Option Packet
  | .packet p =>
    if s.tsock.state = .listen then some (parseTsOptFast p)
    else s.tsock.rxMergeHead.filter fun head =>
      ¬ (head.seq = s.tsock.rcv.rcvNxt ∧ tcpCanMerge cfg head (parseTsOptFast p))
  | .burstEnd => s.tsock.rxMergeHead
  | _ => none

/-- A socket, the bytes its application wrote and read, and the sequence number
of the FIN that ended the peer's stream. -/
structure Conn where
  st : St
  wrote : List Byte
  read : List Byte
  finSeq : Option U32

def writtenBy (cfg : TcpCfg) (s : St) : ConnEv → List Byte
  | .write iov =>
    match (tsockZwritev cfg s iov).1 with
    | .ok _ => (iov.map Iovec.data).flatten
    | .error _ => []
  | _ => []

def readBy (s : St) : ConnEv → List Byte
  | .read n =>
    match (tsockZreadv s n).1 with
    | .ok bufs => bufs.flatten
    | .error _ => []
  | _ => []

/-- The record of the FIN: the packet in whose processing EOF was set. -/
def finBy (cfg : TcpCfg) (c : Conn) (e : ConnEv) : Option U32 :=
  if c.st.tsock.flags.eof = false ∧ (sockStep cfg c.st e).tsock.flags.eof = true then
    (processed cfg c.st e).map Packet.endSeq
  else c.finSeq

def connStep (cfg : TcpCfg) (c : Conn) (e : ConnEv) : Conn :=
  if c.st.tsock.freed then c
  else
    { st := sockStep cfg c.st e
      wrote := c.wrote ++ writtenBy cfg c.st e
      read := c.read ++ readBy c.st e
      finSeq := finBy cfg c e }

/-- The rest of the worker leaves the socket's own descriptors alone and keeps
the pool in order. -/
structure EnvOk (s : St) (w : Worker) : Prop where
  id : w.id = s.worker.id
  mem : ∀ d ∈ s.tsock.snd.txq.live, w.tx.mem d = s.worker.tx.mem d
  nodup : w.tx.free.Nodup
  apart : ∀ d ∈ s.tsock.snd.txq.live, d ∉ w.tx.free
  nowild : wildDesc ∉ w.tx.free

def ConnEv.Enabled (s : St) : ConnEv → Prop
  | .packet p => p.Single
  | .env w => EnvOk s w
  | _ => True

/-- A connection right after `tcp_connect`, or right after a listening socket
has answered a SYN. -/
inductive Opened (cfg : TcpCfg) : St → Prop
  | connect (w : Worker) (sid : Nat) (isIpv6 : Bool) (h : PoolOk w.tx) :
      Opened cfg (tcpConnect ⟨w, tsockInit cfg sid isIpv6⟩)
  | accept (w : Worker) (sid : Nat) (isIpv6 : Bool) (p : Packet) (h : PoolOk w.tx) :
      Opened cfg (xmitSyn cfg (passiveTsockInit cfg ⟨w, tsockInit cfg sid isIpv6⟩ p).1)

def Conn.start (s : St) : Conn := ⟨s, [], [], none⟩

end LibTpa
