/- LibTpa/Neigh/Wait
   digest: Packets that wait for a MAC: the ring, the workers' flush queues and the way out. -/

import LibTpa.Neigh.CacheLaw

/-!
A worker's flush queue is a list: `Worker/FlexFifoSpec` has that for the queue itself. The ring
keeps at most `NEIGH_QUEUE_LEN - 1` packets.
-/

set_option autoImplicit false

namespace LibTpa

def neighQueueLen : Nat := 1024

def neighBatchSize : Nat := 64

/-- What is read of a socket here; there are `n` workers. -/
structure NeighSock (n : Nat) where
  sid : Int
  state : TcpState
  remoteIp : TpaIp
  worker : Fin n

/-- A packet with its socket, its IP destination and its Ethernet destination; `stale` is
`PKT_FLAG_STALE_NEIGH`. `id` tells packets apart, and `due` is what was cached for the next hop
of the packet's own destination when it got its MAC. -/
structure WaitPkt where
  id : Nat
  tsock : Nat
  dstIp : TpaIp
  ethDst : Mac := 0
  stale : Bool := false
  due : Option Mac := none
  deriving DecidableEq

/-- `txq` and `freed` are the packets that were ever put on a dev txq or freed, `accepted` are
those for which `neigh_wait_enqueue` returned 0, and `txqOk` is what the txq answers. -/
structure NeighSt (n : Nat) where
  cache : NeighCache
  socks : Nat → NeighSock n
  ring : List WaitPkt := []
  flushQueue : Fin n → List WaitPkt := fun _ => []
  txq : List WaitPkt := []
  freed : List WaitPkt := []
  accepted : List Nat := []
  nextId : Nat := 0
  txqOk : List Bool := []

variable {n : Nat}

def doNeighWaitEnqueue (s : NeighSt n) (pkt : WaitPkt) : Bool × NeighSt n :=
  if s.ring.length < neighQueueLen - 1 then (true, { s with ring := s.ring ++ [pkt] })
    else (false, s)

def staleTsock (t : NeighSock n) : Bool := decide (t.sid < 0) || decide (t.state = .closed)

/-- `rte_ring_dequeue_burst` of `NEIGH_QUEUE_LEN` packets. -/
def ringDequeueBurst (s : NeighSt n) : List WaitPkt × NeighSt n :=
  (s.ring.take neighQueueLen, { s with ring := s.ring.drop neighQueueLen })

def tryDropStaleNeighRequest (s : NeighSt n) : NeighSt n :=
  let r := ringDequeueBurst s
  r.1.foldl (fun s pkt => if staleTsock (s.socks pkt.tsock) then s
    else (doNeighWaitEnqueue s pkt).2) r.2

def NeighSt.neighWaitEnqueue (s : NeighSt n) (pkt : WaitPkt) : Bool × NeighSt n :=
  let r := doNeighWaitEnqueue s pkt
  if r.1 then r else doNeighWaitEnqueue (tryDropStaleNeighRequest r.2) pkt

/-- The end of `xmit_flag_packet_with_seq` for a socket without a MAC: a new packet is queued,
or freed. -/
def xmitMissingArp (s : NeighSt n) (i : Nat) : NeighSt n :=
  let pkt : WaitPkt := { id := s.nextId, tsock := i, dstIp := (s.socks i).remoteIp }
  let r := NeighSt.neighWaitEnqueue { s with nextId := s.nextId + 1 } pkt
  if r.1 then { r.2 with accepted := r.2.accepted ++ [pkt.id] }
  else { r.2 with freed := r.2.freed ++ [pkt] }

def setFlushQueue (s : NeighSt n) (w : Fin n) (q : List WaitPkt) : Fin n → List WaitPkt :=
  fun w' => if w' = w then q else s.flushQueue w'

def flushPush (s : NeighSt n) (w : Fin n) (pkt : WaitPkt) : NeighSt n :=
  { s with flushQueue := setFlushQueue s w (s.flushQueue w ++ [pkt]) }

/-- `dev_port_txq_enqueue`, and what `neigh_flush` does with the answer. -/
def flushPacket (s : NeighSt n) (pkt : WaitPkt) : NeighSt n :=
  if pkt.stale then { s with freed := s.freed ++ [pkt] }
  else
    let ok := s.txqOk.headD true
    let s := { s with txqOk := s.txqOk.tail }
    if ok then { s with txq := s.txq ++ [pkt] } else { s with freed := s.freed ++ [pkt] }

def flushLoop (w : Fin n) : Nat → NeighSt n → NeighSt n
  | 0, s => s
  | budget + 1, s =>
    match s.flushQueue w with
    | [] => s
    | pkt :: rest =>
      flushLoop w budget (flushPacket { s with flushQueue := setFlushQueue s w rest } pkt)

def neighFlush (s : NeighSt n) (w : Fin n) : NeighSt n := flushLoop w neighBatchSize s

/-- One round of the loop of `check_neigh_wait_queue`. -/
def checkNeighWaitPacket (dev : NeighDev) (s : NeighSt n) (pkt : WaitPkt) : Option (NeighSt n) :=
  let tsock := s.socks pkt.tsock
  if staleTsock tsock then some (flushPush s tsock.worker { pkt with stale := true })
  else
    match doNeighLookup s.cache (neighTargetIp dev tsock.remoteIp) with
    | none => none
    | some (none, cache) => some (doNeighWaitEnqueue { s with cache := cache } pkt).2
    | some (some mac, cache) =>
      some (flushPush { s with cache := cache } tsock.worker
        { pkt with ethDst := mac, due := cachedMac s.cache (neighTargetIp dev pkt.dstIp) })

def checkLoop (dev : NeighDev) : List WaitPkt → NeighSt n → Option (NeighSt n)
  | [], s => some s
  | pkt :: rest, s => (checkNeighWaitPacket dev s pkt).bind (checkLoop dev rest)

def checkNeighWaitQueue (dev : NeighDev) (s : NeighSt n) : Option (NeighSt n) :=
  let r := ringDequeueBurst s
  checkLoop dev r.1 r.2

def neighInput (dev : NeighDev) (s : NeighSt n) (ip : TpaIp) (mac : Mac) : Option (NeighSt n) :=
  let entry := neighFind s.cache ip
  let cache := if entry.isSome || s.cache.acceptGarp then neighUpdate dev s.cache ip mac
    else some s.cache
  cache.bind fun cache =>
    if entry.isSome then checkNeighWaitQueue dev { s with cache := cache }
      else some { s with cache := cache }

inductive WaitEvent (n : Nat)
  | xmit (i : Nat)
  | input (ip : TpaIp) (mac : Mac)
  | update (ip : TpaIp) (mac : Mac)
  | lookup (ip : TpaIp)
  | connect (i : Nat) (ip : TpaIp) (w : Fin n)
  | move (i : Nat) (state : TcpState)
  | free (i : Nat)
  | flush (w : Fin n)

def NeighSt.setSock (s : NeighSt n) (i : Nat) (t : NeighSock n) : NeighSt n :=
  { s with socks := fun j => if j = i then t else s.socks j }

/-- One operation, without a result as long as `neigh_evict` goes on. A socket is connected in a
slot with `sid < 0` (`sock_alloc`), changes its state, and is freed (`tsock_free`). -/
def waitStep? (dev : NeighDev) (s : NeighSt n) : WaitEvent n → Option (NeighSt n)
  | .xmit i => some (xmitMissingArp s i)
  | .input ip mac => neighInput dev s ip mac
  | .update ip mac => (neighUpdate dev s.cache ip mac).map fun cache => { s with cache := cache }
  | .lookup ip => (neighLookup dev s.cache ip).map fun r => { s with cache := r.2 }
  | .connect i ip w => if (s.socks i).sid < 0 then some (s.setSock i ⟨i, .synSent, ip, w⟩) else none
  | .move i state => some (s.setSock i { s.socks i with state := state })
  | .free i => some (s.setSock i { s.socks i with sid := tsockSidFreed })
  | .flush w => some (neighFlush s w)

def waitStep (dev : NeighDev) (s : NeighSt n) (e : WaitEvent n) : NeighSt n :=
  (waitStep? dev s e).getD s

def neighBoot (cache : NeighCache) (w : Fin n) (txqOk : List Bool) : NeighSt n where
  cache := cache
  socks := fun _ => ⟨tsockSidUnallocated, .closed, 0, w⟩
  txqOk := txqOk

end LibTpa
