/- LibTpa/Snd/Write
   digest: Zero-copy writes: the fast path, the slow path, commit and rollback. -/

import LibTpa.Snd.Queue

set_option autoImplicit false

namespace LibTpa

/-- `struct tpa_iovec` of a write. `phys` says whether `iov_phys` is set. -/
structure Iovec where
  data : List Byte
  len_lt : data.length < 2 ^ 32
  phys : Bool
  base : Nat
  param : Nat
  writeDone : Option Nat

theorem Iovec.empty_fits : ([] : List Byte).length < 2 ^ 32 := by decide

structure WriteCtx where
  nrDescFree : Nat
  nrDesc : Nat
  size : U32
  nrFallback : Nat
  startTsc : Nat

def tooManyUsedMbufs (cfg : TcpCfg) (w : Worker) : Bool :=
  cfg.dropOooThreshold < (w.rx.nrOooMbuf + w.rx.nrInProcessMbuf + w.nrWriteMbuf).toNat

/-- Fill descriptor `d` with `chunk`, put it in the next slot of the ring and
count it. The last descriptor of an iov gets its callback. -/
def putDesc (s : St) (c : WriteCtx) (d : DescId) (v : Iovec) (chunk : List Byte)
    (hc : chunk.length < 2 ^ 32) (copied last : Bool) : St × WriteCtx :=
  let x := s.tsock.snd
  let desc := { s.desc d with
    data := chunk
    len_lt := hc
    seq := x.dataSeqNxt + c.size
    memFromMbuf := copied
    measureLatency := false
    retrans := false
    sacked := false
    writeDone := if last then v.writeDone else none
    base := if last then v.base else 0
    param := if last then v.param else 0 }
  let q := { x.txq with
    descs := Function.update x.txq.descs
      (x.txq.slot (x.txq.write + BitVec.ofNat 16 c.nrDesc)) d }
  ((s.setDesc d desc).setSnd { x with txq := q },
    { c with
      nrDesc := c.nrDesc + 1
      size := c.size + BitVec.ofNat 32 chunk.length
      nrFallback := if copied then c.nrFallback + 1 else c.nrFallback })

/-- The memory of the next chunk: the iov's own, or a generic mbuf, which the
used-mbuf threshold or the pool may refuse. -/
def chunkMem (cfg : TcpCfg) (s : St) (phys : Bool) : Bool × St :=
  if phys then (true, s)
  else if tooManyUsedMbufs cfg s.worker then (false, s)
  else
    match packetAlloc s with
    | (false, s) => (false, s)
    | (true, s) => (true, { s with worker := { s.worker with mbufUsed := s.worker.mbufUsed + 1 } })

def chunkLen (cfg : TcpCfg) (phys : Bool) (n : Nat) : Nat :=
  if phys then min n cfg.writeChunkSize else min (min n cfg.writeChunkSize) cfg.mbufRoom

theorem take_chunk_lt {l : List Byte} (n : Nat) (h : l.length < 2 ^ 32) :
    (l.take n).length < 2 ^ 32 := lt_of_le_of_lt (List.length_take_le' n l) h

/-- The loop of `write_one_iov` over the bytes that are left of the iov. Each
round writes at least one, so as many rounds as bytes are enough. -/
def writeChunks (cfg : TcpCfg) (v : Iovec) :
    Nat → (rest : List Byte) → rest.length < 2 ^ 32 → St → WriteCtx → Bool × St × WriteCtx
  | 0, _, _, s, c => (true, s, c)
  | n + 1, rest, h, s, c =>
    if c.nrDescFree < c.nrDesc + 1 then (false, s, c)
    else
      match txDescAlloc s.worker.tx with
      | none => (false, s, c)
      | some (d, tx) =>
        match chunkMem cfg (s.setTx tx) v.phys with
        | (false, s) => (false, s.setTx (txDescFree s.worker.tx d), c)
        | (true, s) =>
          let len := chunkLen cfg v.phys rest.length
          let r := putDesc s c d v (rest.take len) (take_chunk_lt len h) (!v.phys)
            (rest.length ≤ len)
          if rest.length ≤ len then (true, r.1, r.2)
          else writeChunks cfg v n (rest.drop len)
            (lt_of_le_of_lt (by simp) h) r.1 r.2

def writeOneIov (cfg : TcpCfg) (s : St) (v : Iovec) (c : WriteCtx) : Bool × St × WriteCtx :=
  if v.data.length = 0 then (true, s, c)
  else writeChunks cfg v v.data.length v.data v.len_lt s c

/-- The loop of `tsock_zwritev_slowpath`. -/
def writeIovs (cfg : TcpCfg) : List Iovec → St → WriteCtx → Bool × St × WriteCtx
  | [], s, c => (true, s, c)
  | v :: rest, s, c =>
    match writeOneIov cfg s v c with
    | (false, s, c) => (false, s, c)
    | (true, s, c) => writeIovs cfg rest s c

/-- `init_write_lat_tsc`: stamps the descriptor in front of the write cursor. -/
def initWriteLatTsc (cfg : TcpCfg) (s : St) (c : WriteCtx) : St :=
  if cfg.measureLatency then
    let q := s.tsock.snd.txq
    let d := q.descAt (q.write + BitVec.ofNat 16 c.nrDesc - 1)
    let t := rteRdtsc s
    if d = wildDesc then { t.2 with worker := { t.2.worker with fault := true } }
    else t.2.setDesc d { t.2.desc d with
      tscStart := c.startTsc, tscSubmit := t.1, measureLatency := true }
  else s

def writeCommit (s : St) (c : WriteCtx) : St :=
  let x := s.tsock.snd
  outputTsockEnqueue <| s.setSnd { x with
    txq := { x.txq with write := x.txq.write + BitVec.ofNat 16 c.nrDesc }
    dataSeqNxt := x.dataSeqNxt + c.size }

def revokeDesc (s : St) (d : DescId) : St :=
  let s := if (s.desc d).memFromMbuf
    then { s with worker := { s.worker with mbufUsed := s.worker.mbufUsed - 1 } } else s
  s.setTx (txDescFree s.worker.tx d)

/-- `write_revoke`, over the slots behind the write cursor. -/
def writeRevoke (s : St) (c : WriteCtx) : St :=
  let q := s.tsock.snd.txq
  (Lib.RingWindow.window q.descs q.size q.write c.nrDesc).foldl revokeDesc s

def refireOutEventIfNeeded (s : St) : St :=
  if tcpTxqUnfinishedPkts s.tsock.snd.txq = 0 then tsockEventAdd s tpaEventOut else s

/-- An iov that the fast path of `tsock_zwritev` does not take. -/
def needsSlowpath (cfg : TcpCfg) (v : Iovec) : Bool :=
  !v.phys || v.data.length = 0 || cfg.writeChunkSize < v.data.length

/-- The fast loop of `tsock_zwritev`, which goes over to the loop of the slow
path at the first iov it does not take. The slow path starts from the iov with
the number of the descriptors written so far. -/
def zwriteLoop (cfg : TcpCfg) (iov : List Iovec) : List Iovec → St → WriteCtx → Bool × St × WriteCtx
  | [], s, c => (true, s, c)
  | v :: rest, s, c =>
    if needsSlowpath cfg v then
      match writeIovs cfg (iov.drop c.nrDesc) s { c with nrFallback := 0 } with
      | (false, s, c) => (false, s, c)
      | (true, s, c) =>
        (true, { s with worker := { s.worker with
          nrWriteMbuf := s.worker.nrWriteMbuf + BitVec.ofNat 32 c.nrFallback } }, c)
    else if c.nrDescFree < c.nrDesc + 1 then (false, s, c)
    else
      match txDescAlloc s.worker.tx with
      | none => (false, s, c)
      | some (d, tx) =>
        let r := putDesc (s.setTx tx) c d v v.data v.len_lt false true
        zwriteLoop cfg iov rest r.1 r.2

def tsockWriteCheck (t : TcpSock) : Option Errno :=
  if t.closeIssued then some .ebadf
  else match t.err with
    | some e => some e
    | none =>
      match t.state with
      | .established | .closeWait => none
      | .synSent | .synRcvd => some .enotconn
      | _ => some .epipe

def writeStartTsc (cfg : TcpCfg) (s : St) : Nat × St :=
  if cfg.measureLatency then rteRdtsc s else (0, s)

def tsockZwritev (cfg : TcpCfg) (s : St) (iov : List Iovec) : Except Errno U32 × St :=
  let t := writeStartTsc cfg s
  match tsockWriteCheck s.tsock with
  | some e => (.error e, t.2)
  | none =>
    let c : WriteCtx :=
      { nrDescFree := (tcpTxqFreeCount s.tsock.snd.txq).toNat
        nrDesc := 0, size := 0, nrFallback := 0, startTsc := t.1 }
    match zwriteLoop cfg iov iov t.2 c with
    | (true, s, c) => (.ok c.size, writeCommit (initWriteLatTsc cfg s c) c)
    | (false, s, c) => (.error .eagain, refireOutEventIfNeeded (writeRevoke s c))

end LibTpa
