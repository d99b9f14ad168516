/- LibTpa/Sock/State
   digest: Socket, worker and descriptor state, with the small helpers every path uses. -/

import LibTpa.Tcp.Packet
import LibTpa.Lib.RingWindow

/-!
A socket and its worker, as the modelled functions see them. The fields of
`struct tcp_sock` are grouped by the half of the connection that owns them, so
that a function which works on one half visibly leaves the other alone.

What the stack asks of its environment (an mbuf, a cycle count, the number of
packets the NIC takes) is read from the lists of `Oracles`; an exhausted list
refuses. Statistics, traces and addresses have no fields.
-/

set_option autoImplicit false

namespace LibTpa

open Lib.SerialNumber

abbrev DescId := Nat

/-- What a ring slot that was never written holds: its memory is not
initialised, so following the pointer is a fault. -/
def wildDesc : DescId := 0

structure SackBlock where
  start : U32
  stop : U32
  deriving DecidableEq, Repr

def SackBlock.Has (b : SackBlock) (n : U32) : Prop := ahead b.start n < ahead b.start b.stop

def SackBlock.pos (a : U32) (b : SackBlock) : Nat := ahead a b.start

def SackBlock.endPos (a : U32) (b : SackBlock) : Nat := ahead a b.start + ahead b.start b.stop

theorem SackBlock.start_eq (a : U32) (b : SackBlock) : b.start = a + BitVec.ofNat 32 (b.pos a) :=
  (add_ahead ..).symm

theorem SackBlock.stop_eq (a : U32) (b : SackBlock) :
    b.stop = a + BitVec.ofNat 32 (b.endPos a) := by
  unfold SackBlock.endPos ahead
  bv_omega

inductive RetransStage
  | none | fastRetrans | rto
  deriving DecidableEq, Repr

/-- `struct tx_desc`. The memory at `addr` is the byte list `data`; its length
is the 32-bit `len`. `memFromMbuf` also says that the descriptor owns a packet. -/
structure TxDesc where
  data : List Byte
  len_lt : data.length < 2 ^ 32
  seq : U32
  memFromMbuf : Bool
  measureLatency : Bool
  retrans : Bool
  sacked : Bool
  writeDone : Option Nat
  base : Nat
  param : Nat
  tsUs : Nat
  tscStart : Nat
  tscSubmit : Nat
  tscXmit : Nat
  deriving DecidableEq

def TxDesc.blank : TxDesc where
  data := []
  len_lt := by decide
  seq := 0
  memFromMbuf := false
  measureLatency := false
  retrans := false
  sacked := false
  writeDone := none
  base := 0
  param := 0
  tsUs := 0
  tscStart := 0
  tscSubmit := 0
  tscXmit := 0

def TxDesc.len (d : TxDesc) : U32 := BitVec.ofNat 32 d.data.length

/-- `struct tx_desc_pool`: the free stack, top first, and the memory of all
descriptors of the worker. -/
structure TxPool where
  free : List DescId
  mem : DescId → TxDesc

def TxPool.set (x : TxPool) (d : DescId) (v : TxDesc) : TxPool :=
  { x with mem := Function.update x.mem d v }

def txDescAlloc (x : TxPool) : Option (DescId × TxPool) :=
  match x.free with
  | [] => none
  | d :: rest => some (d, { x with free := rest })

def txDescFree (x : TxPool) (d : DescId) : TxPool := { x with free := d :: x.free }

theorem RingSize.apart {n : Nat} (h : RingSize n) : Lib.RingWindow.Apart 16 n := by
  rcases h with rfl | ⟨k, hk, rfl⟩
  · intro a i j hi
    omega
  · exact Lib.RingWindow.apart_two_pow (by omega)

/-- `struct tcp_txq`. The ring has a power-of-two size; size zero also passes
the assertion of `tcp_txq_init`. -/
structure TcpTxq where
  una : U16
  nxt : U16
  write : U16
  size : Nat
  size_ok : RingSize size
  descs : Nat → DescId

def TcpTxq.slot (q : TcpTxq) (i : U16) : Nat := Lib.RingWindow.maskSlot q.size i

def TcpTxq.descAt (q : TcpTxq) (i : U16) : DescId := q.descs (q.slot i)

def tcpTxqInflightPkts (q : TcpTxq) : U16 := q.nxt - q.una
def tcpTxqToSendPkts (q : TcpTxq) : U16 := q.write - q.nxt
/-- `tcp_txq_unfinished_pkts`, an `int`. -/
def tcpTxqUnfinishedPkts (q : TcpTxq) : Nat :=
  (tcpTxqInflightPkts q).toNat + (tcpTxqToSendPkts q).toNat
def tcpTxqFreeCount (q : TcpTxq) : U16 :=
  BitVec.ofNat 16 q.size - BitVec.ofNat 16 (tcpTxqUnfinishedPkts q)

def tcpTxqPeekForWrite (q : TcpTxq) (base off : U16) : Option DescId :=
  if q.write - base ≤ off then none else some (q.descAt (base + off))

def tcpTxqPeekUna (q : TcpTxq) (off : U16) : Option DescId := tcpTxqPeekForWrite q q.una off

def tcpTxqPeekUnaBeforeNxt (q : TcpTxq) (off : U16) : Option DescId :=
  if q.nxt - q.una ≤ off then none else some (q.descAt (q.una + off))

/-- `tsock->flags`, apart from `TSOCK_FLAG_FIN_SENT`, which `Snd` holds. -/
structure TsockFlags where
  tcp : TcpFlags := {}
  ackNow : Bool := false
  finPending : Bool := false
  closeProcessed : Bool := false
  eof : Bool := false
  put : Bool := false
  missingArp : Bool := false
  deriving DecidableEq

/-- The receive half of `struct tcp_sock`. The ring `rxq` is a list of at most
`rxqSize` packets, the read end first. -/
structure Rcv where
  rcvIsn : U32
  rcvNxt : U32
  rcvWnd : Nat
  rxqSize : Nat
  rxq : List Packet
  ooo : List Packet
  nrOooPkt : U16
  lastOooPkt : Option PktId
  oooStartTs : U32
  sackOk : Bool
  sackBlocks : List SackBlock

/-- The send queue half: sequence cursors, the ring, the retransmit cursor. -/
structure Snd where
  sndIsn : U32
  sndUna : U32
  sndNxt : U32
  dataSeqNxt : U32
  partialAck : U32
  txq : TcpTxq
  retransSeq : U32
  retransDescBase : U16
  retransTsVal : U32
  retransStage : RetransStage
  finSent : Bool
  closedAtSynRcvd : Bool

/-- Windows, congestion control and round-trip times of the send half. -/
structure Cc where
  sndWnd : U32
  sndWl1 : U32
  sndWl2 : U32
  sndRecover : U32
  sndCwnd : U32
  sndCwndUncommited : U32
  sndCwndOrig : U32
  sndCwndTsUs : Nat
  sndSsthresh : U32
  sndMss : U16
  sndWscale : Nat
  sackedBytes : U32
  nrDupack : U16
  rtt : U32
  srtt : U32
  rttvar : U32
  rto : U32
  rtoShift : BitVec 8
  zeroWndProbeShift : BitVec 8
  rtoStartTs : Nat
  initTsUs : Nat
  sndTs : U32

/-- The three timers of a socket, each with its deadline when active. -/
structure Timers where
  rto : Option Nat := none
  wait : Option Nat := none
  keepalive : Option Nat := none
  keepaliveShift : BitVec 8 := 0
  deriving DecidableEq

/-- Negotiated options and what acknowledgements were sent. -/
structure Nego where
  tsoEnabled : Bool
  tsEnabled : Bool
  tsOk : Bool
  wsEnabled : Bool
  wsOk : Bool
  sackEnabled : Bool
  rcvWscale : Nat
  tsRecent : U32
  tsRecentInSec : U32
  lastAckSent : U32
  lastAckSentTs : U32
  quickack : Nat

structure Events where
  events : BitVec 32 := 0
  data : Nat := 0
  lastEvents : BitVec 32 := 0
  interestedEvents : BitVec 32 := 0
  deriving DecidableEq

/-- A packet as it is put on the dev txq. The last three fields record what
`prepend_tcp_hdr` made the window field from. -/
structure TxPacket where
  seq : U32
  ack : U32
  flags : TcpFlags
  wnd : U16
  opts : List Byte
  payload : List Byte
  retransmit : Bool
  ipLen : U16
  tsoSegsz : Option U16
  rcvNxt : U32
  rcvWnd : Nat
  shift : Nat
  deriving DecidableEq

/-- `struct tcp_sock`. `freed` stands for a negative `sid`; `emitted` records
every packet of this socket that the device or the neighbour queue took. -/
structure TcpSock where
  sid : Nat
  freed : Bool
  state : TcpState
  err : Option Errno
  closeIssued : Bool
  passiveConnection : Bool
  isIpv6 : Bool
  netHdrLen : Nat
  packetId : U16
  flags : TsockFlags
  rcv : Rcv
  snd : Snd
  cc : Cc
  timers : Timers
  nego : Nego
  ev : Events
  rxMergeHead : Option Packet
  lastSndPkt : Nat
  emitted : List TxPacket

/-- What the environment decides; `slots` are the free slots `sock_alloc` finds. -/
structure Oracles where
  allocOk : List Bool := []
  neighOk : List Bool := []
  ethOk : List Bool := []
  sockOk : List Bool := []
  slots : List Nat := []
  txBurst : List Nat := []
  rdtsc : List Nat := []
  isn : List U32 := []

/-- The counters of received packets a worker keeps, and every packet freed. -/
structure RxAcct where
  nrOooMbuf : U32
  nrInProcessMbuf : U32
  freed : List PktId

/-- `struct tpa_worker`. `mbufUsed` counts the mbufs that writes hold, `done`
the completed write callbacks, `fault` a dereference of a missing descriptor. -/
structure Worker where
  id : Nat
  tsUs : Nat
  startUs : Nat
  tx : TxPool
  rx : RxAcct
  nrWriteMbuf : U32
  mbufUsed : Nat
  done : List (Nat × Nat × Nat)
  nrPkt : Nat
  output : List Nat
  delayedAck : List Nat
  eventQueue : List Nat
  accept : List Nat
  children : List TcpSock
  fault : Bool
  oracles : Oracles

/-- A socket together with its worker, the state every function works on. -/
structure St where
  worker : Worker
  tsock : TcpSock

/-! Setters of the parts. -/

namespace St

def setRcv (s : St) (r : Rcv) : St := { s with tsock := { s.tsock with rcv := r } }
def setSnd (s : St) (x : Snd) : St := { s with tsock := { s.tsock with snd := x } }
def setCc (s : St) (c : Cc) : St := { s with tsock := { s.tsock with cc := c } }
def setFlags (s : St) (f : TsockFlags) : St := { s with tsock := { s.tsock with flags := f } }
def setNego (s : St) (n : Nego) : St := { s with tsock := { s.tsock with nego := n } }
def setTimers (s : St) (t : Timers) : St := { s with tsock := { s.tsock with timers := t } }
def setTx (s : St) (x : TxPool) : St := { s with worker := { s.worker with tx := x } }
def setRx (s : St) (x : RxAcct) : St := { s with worker := { s.worker with rx := x } }
def setErr (s : St) (e : Option Errno) : St := { s with tsock := { s.tsock with err := e } }
def setDesc (s : St) (d : DescId) (v : TxDesc) : St := s.setTx (s.worker.tx.set d v)
def desc (s : St) (d : DescId) : TxDesc := s.worker.tx.mem d

end St

/-! Timers hold the absolute deadline; `timer_start` raises a zero timeout to one. -/

def timerStart (now expire : Nat) : Option Nat := some (now + max expire 1)

def tsockRearmTimerRto (s : St) : St :=
  s.setTimers { s.tsock.timers with
    rto := timerStart s.worker.tsUs (s.tsock.cc.rto <<< s.tsock.cc.rtoShift.toNat).toNat }

def timerRtoStop (s : St) : St := s.setTimers { s.tsock.timers with rto := none }

def timerRtoStart (s : St) (expire : Nat) : St :=
  s.setTimers { s.tsock.timers with rto := timerStart s.worker.tsUs expire }

def tsockRearmTimerKeepalive (cfg : TcpCfg) (s : St) : St :=
  s.setTimers { s.tsock.timers with
    keepaliveShift := 0
    keepalive := if cfg.keepalive = 0 then s.tsock.timers.keepalive
      else timerStart s.worker.tsUs cfg.keepalive }

def pushIfNotExist (q : List Nat) (sid : Nat) : List Nat := if sid ∈ q then q else q ++ [sid]

theorem mem_pushIfNotExist {q : List Nat} {i j : Nat} :
    j ∈ pushIfNotExist q i ↔ j ∈ q ∨ j = i := by
  unfold pushIfNotExist
  split
  · next hi => exact ⟨.inl, fun h => h.elim id fun h => h ▸ hi⟩
  · simp

theorem nodup_pushIfNotExist {q : List Nat} {i : Nat} (h : q.Nodup) :
    (pushIfNotExist q i).Nodup := by
  unfold pushIfNotExist
  split
  · exact h
  · next hi =>
    rw [← List.concat_eq_append]
    exact h.concat hi

def outputTsockEnqueue (s : St) : St :=
  { s with worker := { s.worker with output := pushIfNotExist s.worker.output s.tsock.sid } }

def acceptTsockEnqueue (s : St) : St :=
  { s with worker := { s.worker with accept := s.worker.accept ++ [s.tsock.sid] } }

def tpaEventIn : BitVec 32 := 0x1
def tpaEventOut : BitVec 32 := 0x4
def tpaEventErr : BitVec 32 := 0x8
def tpaEventHup : BitVec 32 := 0x10

def tsockEventAdd (s : St) (events : BitVec 32) : St :=
  let ev := { s.tsock.ev with lastEvents := events, events := s.tsock.ev.events ||| events }
  { worker := { s.worker with
      eventQueue := if ev.events &&& ev.interestedEvents = (0 : BitVec 32)
        then s.worker.eventQueue else pushIfNotExist s.worker.eventQueue s.tsock.sid }
    tsock := { s.tsock with ev := ev } }

def tsockSetState (cfg : TcpCfg) (s : St) (state : TcpState) : St :=
  let s := { s with tsock := { s.tsock with state := state } }
  if state = .timeWait ∨ state = .finWait2 then
    s.setTimers { s.tsock.timers with wait := timerStart s.worker.tsUs cfg.timeWait }
  else s

/-- `tsock_update_last_ts` for `LAST_TS_SND_PKT`, the only stamp that is read. -/
def tsockUpdateLastSndPkt (s : St) : St :=
  { s with tsock := { s.tsock with lastSndPkt := s.worker.startUs } }

def usToTcpTs (us : Nat) : U32 := BitVec.ofNat 32 (us >>> 10)

def usSince (now start : Nat) : Nat := (BitVec.ofNat 64 now - BitVec.ofNat 64 start).toNat

def nowInSec (w : Worker) : U32 := BitVec.ofNat 32 (w.tsUs / 1000000)

def tcpResetRetrans (s : St) (seq : U32) (descBase : U16) : St :=
  s.setSnd { s.tsock.snd with retransSeq := seq, retransDescBase := descBase }

def packetFree (s : St) (p : Packet) : St :=
  s.setRx { s.worker.rx with freed := s.worker.rx.freed ++ [p.id] }

def packetAlloc (s : St) : Bool × St :=
  match s.worker.oracles.allocOk with
  | [] => (false, s)
  | b :: rest =>
    (b, { s with worker := { s.worker with
            oracles := { s.worker.oracles with allocOk := rest } } })

def rteRdtsc (s : St) : Nat × St :=
  match s.worker.oracles.rdtsc with
  | [] => (0, s)
  | t :: rest =>
    (t, { s with worker := { s.worker with
            oracles := { s.worker.oracles with rdtsc := rest } } })

end LibTpa
