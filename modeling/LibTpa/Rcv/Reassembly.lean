/- LibTpa/Rcv/Reassembly
   digest: The receive queues: in-order delivery, the out-of-order queue, SACK blocks, reads. -/

import LibTpa.Sock.State

/-!
`tcp_rcv_data` and what it calls. The functions below `tcpRcvData` work on the
receive half of the socket and the worker's receive counters only.
-/

set_option autoImplicit false

namespace LibTpa

/-- `sack_merge`: the block widened by `[start, stop)`, if the two touch. -/
def sackMerge (blk : SackBlock) (start stop : U32) : Option SackBlock :=
  if seqLt stop blk.start ∨ seqGt start blk.stop then none
  else some
    { start := if seqLt start blk.start then start else blk.start
      stop := if seqGt stop blk.stop then stop else blk.stop }

def sackTryMergeBlocks (blk : SackBlock) : List SackBlock → SackBlock × List SackBlock
  | [] => (blk, [])
  | b :: rest =>
    match sackMerge blk b.start b.stop with
    | some blk' => sackTryMergeBlocks blk' rest
    | none =>
      let r := sackTryMergeBlocks blk rest
      (r.1, b :: r.2)

/-- The search loop of `sack_update`: the blocks before the first one that
merges, the merged block, the blocks after it. -/
def sackFindMerge (start stop : U32) :
    List SackBlock → Option (List SackBlock × SackBlock × List SackBlock)
  | [] => none
  | b :: rest =>
    match sackMerge b start stop with
    | some b' => some ([], b', rest)
    | none => (sackFindMerge start stop rest).map fun r => (b :: r.1, r.2.1, r.2.2)

/-- `sack_update`: the new blocks. The merged block swaps places with the first
one. -/
def sackUpdate (r : Rcv) (start : U32) (len : Nat) : List SackBlock :=
  let stop := start + BitVec.ofNat 32 len
  if r.sackOk then
    match sackFindMerge start stop r.sackBlocks with
    | some ([], b, rest) =>
      let m := sackTryMergeBlocks b rest
      m.1 :: m.2
    | some (b0 :: before, b, rest) =>
      let m := sackTryMergeBlocks b (before ++ b0 :: rest)
      m.1 :: m.2
    | none => ⟨start, stop⟩ :: r.sackBlocks.take (tcpMaxNrSackBlock - 1)
  else r.sackBlocks

def sackRegulate (r : Rcv) : Rcv :=
  { r with sackBlocks := r.sackBlocks.filter fun b => seqGt b.start r.rcvNxt }

/-- `tcp_rcv_enqueue`, without the event it raises. -/
def tcpRcvEnqueue (r : Rcv) (p : Packet) : Option Code × Rcv × Packet :=
  let p := if r.rcvWnd < p.len then tcpPacketCutTail p (p.len - r.rcvWnd) else p
  if p.len = 0 then (none, r, p)
  else if r.rxqSize ≤ r.rxq.length then (some .errTcpRxqEnqueueFail, r, p)
  else
    (none,
      { r with
        rxq := r.rxq ++ [p]
        rcvNxt := r.rcvNxt + BitVec.ofNat 32 p.len
        rcvWnd := r.rcvWnd - p.len },
      p)

/-- The receive half of a socket and the worker counters it moves. -/
structure RxSt where
  rcv : Rcv
  rx : RxAcct

def RxSt.free (x : RxSt) (p : Packet) : RxSt :=
  { x with rx := { x.rx with freed := x.rx.freed ++ [p.id] } }

/-- `tsock_remove_ooo_pkt`: `rest` is the queue without the packet. -/
def tsockRemoveOooPkt (x : RxSt) (p : Packet) (rest : List Packet) : RxSt :=
  { rcv := { x.rcv with
      ooo := rest
      nrOooPkt := x.rcv.nrOooPkt - 1
      lastOooPkt := if x.rcv.lastOooPkt = some p.id then none else x.rcv.lastOooPkt }
    rx := { x.rx with nrOooMbuf := x.rx.nrOooMbuf - BitVec.ofNat 32 p.nbSegs } }

/-- The loop of `tsock_drop_ooo_mbufs`. -/
def dropOooTail : Nat → RxSt → RxSt
  | 0, x => x
  | n + 1, x =>
    match x.rcv.ooo.getLast? with
    | none => dropOooTail n x
    | some p => dropOooTail n ((tsockRemoveOooPkt x p x.rcv.ooo.dropLast).free p)

def tsockDropOooMbufs (x : RxSt) : RxSt :=
  if x.rcv.nrOooPkt = 0 then x
  else dropOooTail (max (x.rcv.nrOooPkt.toNat / 4) 1) x

/-- The caller's view of its packet after `q`, which may be the same packet,
was changed in place. -/
def syncPkt (cur q : Packet) : Packet := if q.id = cur.id then q else cur

/-- The loop of `ooo_queue_drain` over the queue, with whether a full rxq ended
it. -/
def oooDrainLoop : List Packet → RxSt → Packet → Bool × RxSt × Packet
  | [], x, cur => (false, x, cur)
  | q :: rest, x, cur =>
    if q.seq ≠ x.rcv.rcvNxt then (false, x, cur)
    else
      match tcpRcvEnqueue x.rcv q with
      | (some _, r, q') => (true, { x with rcv := { r with ooo := q' :: rest } }, syncPkt cur q')
      | (none, r, q') =>
        oooDrainLoop rest (tsockRemoveOooPkt { x with rcv := r } q' rest) (syncPkt cur q')

def oooQueueDrain (x : RxSt) (cur : Packet) : RxSt × Packet :=
  match oooDrainLoop x.rcv.ooo x cur with
  | (true, x, cur) => (x, cur)
  | (false, x, cur) =>
    if x.rcv.nrOooPkt = 0 then
      ({ x with rcv := { sackRegulate x.rcv with lastOooPkt := none, sackBlocks := [] } }, cur)
    else ({ x with rcv := sackRegulate x.rcv }, cur)

def oooQueueInsert (cfg : TcpCfg) (x : RxSt) (pre post : List Packet) (p : Packet) :
    Option Code × RxSt × Packet :=
  let toCut := (p.endSeq - (x.rcv.rcvNxt + BitVec.ofNat 32 x.rcv.rcvWnd)).toInt
  let p := if 0 < toCut then tcpPacketCutTail p toCut.toNat else p
  if p.len = 0 then (some .errTcpRcvOooDup, x, p)
  else if p.seq ≠ x.rcv.rcvNxt ∧ cfg.rcvOooLimit ≤ x.rcv.nrOooPkt.toNat then
    (some .errTcpRcvOooLimit, x, p)
  else
    (none,
      { rcv := { x.rcv with
          ooo := pre ++ p :: post
          sackBlocks := sackUpdate x.rcv p.seq p.len
          nrOooPkt := x.rcv.nrOooPkt + 1
          lastOooPkt := some p.id }
        rx := { x.rx with nrOooMbuf := x.rx.nrOooMbuf + BitVec.ofNat 32 p.nbSegs } },
      p)

/-- The loop of `tcp_rcv_data_ooo` over the packets behind the new one: what is
left of them, and the new packet cut at the first one it does not cover. -/
def oooTrimNext (pre : List Packet) : List Packet → RxSt → Packet → List Packet × RxSt × Packet
  | [], x, p => ([], x, p)
  | next :: rest, x, p =>
    let toCut := (p.endSeq - next.seq).toInt
    if toCut ≤ 0 then (next :: rest, x, p)
    else if toCut < next.len then (next :: rest, x, tcpPacketCutTail p toCut.toNat)
    else oooTrimNext pre rest ((tsockRemoveOooPkt x next (pre ++ rest)).free next) p

/-- `tcp_rcv_data_ooo` from its last loop on. -/
def oooPlace (cfg : TcpCfg) (x : RxSt) (pre post : List Packet) (p : Packet) :
    Option Code × RxSt × Packet :=
  let r := oooTrimNext pre post x p
  oooQueueInsert cfg r.2.1 pre r.1 r.2.2

/-- What `tcp_rcv_data_ooo` does about the packet in front of the new one. -/
inductive PrevFit
  | drop
  | replace (prev : Packet)
  | keep (p : Packet)

def oooFitPrev (prev : Option Packet) (p : Packet) : PrevFit :=
  match prev with
  | none => .keep p
  | some prev =>
    if p.seq = prev.seq ∧ prev.len < p.len then .replace prev
    else
      let toCut := (prev.endSeq - p.seq).toInt
      if 0 < toCut then
        if (p.len : Int) ≤ toCut then .drop else .keep (tcpPacketCutHead p toCut.toNat)
      else .keep p

/-- The prediction of `tcp_rcv_data_ooo`: the packet continues the last one that
was queued, and that one is the last of the queue. -/
def oooPredict (r : Rcv) (p : Packet) : Bool :=
  match r.lastOooPkt, r.ooo.getLast? with
  | some i, some l => l.id = i ∧ l.endSeq = p.seq
  | _, _ => false

def tcpRcvDataOoo (cfg : TcpCfg) (tsUs : Nat) (x : RxSt) (p : Packet) :
    Option Code × RxSt × Packet :=
  let x := if x.rcv.nrOooPkt = 0
    then { x with rcv := { x.rcv with oooStartTs := BitVec.ofNat 32 tsUs } } else x
  if oooPredict x.rcv p then oooQueueInsert cfg x x.rcv.ooo [] p
  else
    let pre := x.rcv.ooo.takeWhile fun q => ¬ seqGt q.seq p.seq
    let post := x.rcv.ooo.dropWhile fun q => ¬ seqGt q.seq p.seq
    match oooFitPrev pre.getLast? p with
    | .drop => (some .errTcpRcvOooDup, x, p)
    | .replace prev =>
      let x := (tsockRemoveOooPkt x prev (pre.dropLast ++ post)).free prev
      oooPlace cfg x pre.dropLast post p
    | .keep p => oooPlace cfg x pre post p

def validateSeq (r : Rcv) (p : Packet) : Option Code :=
  if p.len = 0 ∧ p.seq = r.rcvNxt then none
  else if seqLe p.endSeq r.rcvNxt ∨ seqGe p.seq (r.rcvNxt + BitVec.ofNat 32 r.rcvWnd) then
    some .errTcpInvalidSeq
  else none

def tsockSetAckFlag (cfg : TcpCfg) (s : St) (ackNow : Bool) : St :=
  let n := s.tsock.nego
  let now := ackNow || n.quickack ≠ 0 || cfg.delayedAck = 0 ||
    s.tsock.cc.sndMss.toNat ≤ (s.tsock.rcv.rcvNxt - n.lastAckSent).toNat
  let f := s.tsock.flags
  (s.setNego { n with quickack := n.quickack - 1 }).setFlags
    { f with tcp := { f.tcp with ack := true }, ackNow := f.ackNow || now }

def tsockResetQuickack (s : St) : St :=
  s.setNego { s.tsock.nego with quickack := tsockQuickackCount }

abbrev St.rxSt (s : St) : RxSt := ⟨s.tsock.rcv, s.worker.rx⟩

def St.setRxSt (s : St) (x : RxSt) : St := (s.setRcv x.rcv).setRx x.rx

/-- Write back the receive half. A packet that reached the rxq raises
`TPA_EVENT_IN`; raising it twice is raising it once. -/
def deliver (s : St) (x : RxSt) : St :=
  if x.rcv.rxq.length = s.tsock.rcv.rxq.length then s.setRxSt x
  else tsockEventAdd (s.setRxSt x) tpaEventIn

@[simp] theorem deliver_rxSt (s : St) (x : RxSt) : (deliver s x).rxSt = x := by
  unfold deliver
  split <;> rfl

/-- The branch `ooo_rcv` of `tcp_rcv_data`. -/
def tcpRcvOoo (cfg : TcpCfg) (s : St) (p : Packet) : Option Code × St × Packet :=
  let s := tsockSetAckFlag cfg (tsockResetQuickack s) true
  let r := tcpRcvDataOoo cfg s.worker.tsUs s.rxSt p
  let d := oooQueueDrain r.2.1 r.2.2
  (r.1, deliver s d.1, d.2)

/-- The branch of `tcp_rcv_data` for a packet the rxq can take at once. -/
def tcpRcvInOrder (cfg : TcpCfg) (s : St) (p : Packet) : Option Code × St × Packet :=
  let s := tsockSetAckFlag cfg s false
  let r := tcpRcvEnqueue s.tsock.rcv p
  (r.1, deliver s ⟨r.2.1, s.worker.rx⟩, r.2.2)

/-- The packet continues `rcv_nxt` and does not reach the out-of-order queue. -/
def rcvDirect (r : Rcv) (p : Packet) : Bool :=
  p.seq = r.rcvNxt ∧ ¬ ∃ h ∈ r.ooo.head?, seqGe p.endSeq h.seq

/-- The two ways on for a packet that begins at `rcv_nxt` or behind it. -/
def rcvPlace (cfg : TcpCfg) (s : St) (p : Packet) : Option Code × St × Packet :=
  if rcvDirect s.tsock.rcv p then tcpRcvInOrder cfg s p else tcpRcvOoo cfg s p

def rcvOverlap (r : Rcv) (p : Packet) : Nat :=
  if seqLt p.seq r.rcvNxt then (r.rcvNxt - p.seq).toNat else 0

def rcvCut (r : Rcv) (p : Packet) : Packet :=
  if rcvOverlap r p = 0 then p else tcpPacketCutHead p (rcvOverlap r p)

def Packet.clear (p : Packet) : Packet := { p with len := 0, len_lt := by decide }

def tcpRcvData (cfg : TcpCfg) (s : St) (p : Packet) : Option Code × St × Packet :=
  let r := s.tsock.rcv
  if p.len = 0 then
    (none, if p.flags.fin ∧ p.seq = r.rcvNxt then s.setRcv { r with rcvNxt := r.rcvNxt + 1 } else s,
      p)
  else if p.len ≤ rcvOverlap r p then (none, s, p.clear)
  else rcvPlace cfg s (rcvCut r p)

end LibTpa
