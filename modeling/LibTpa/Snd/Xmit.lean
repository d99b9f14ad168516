/- LibTpa/Snd/Xmit
   digest: Data segments: first transmission, retransmission and window probes. -/

import LibTpa.Output.Header

set_option autoImplicit false

namespace LibTpa

structure XmitCtx where
  seq : U32
  seqMax : U32
  budget : Int
  descOff : U16
  descBase : U16
  now : Nat

def XmitCtx.peek (c : XmitCtx) (s : St) : Option DescId :=
  tcpTxqPeekForWrite s.tsock.snd.txq c.descBase c.descOff

/-- The loop of `xmit_one_packet` over SACKed descriptors. -/
def skipSacked (s : St) : Nat → XmitCtx → Option DescId × XmitCtx
  | 0, c => (none, c)
  | n + 1, c =>
    match c.peek s with
    | none => (none, c)
    | some d =>
      if (s.desc d).sacked then
        skipSacked s n { c with
          descOff := c.descOff + 1
          seq := (s.desc d).seq + (s.desc d).len }
      else (some d, c)

/-- The packet under construction: the chained bytes, `nb_segs` of the header
packet, its retransmit flag, and the locals `size`, `budget` and `err`. -/
structure XmitAcc where
  payload : List Byte
  nbSegs : Nat
  retransmit : Bool
  size : U32
  budget : Int
  err : Option Code

/-- A segment below `snd_nxt` marks its descriptor and its packet. -/
def markRetrans (s : St) (c : XmitCtx) (a : XmitAcc) (d : DescId) : St × XmitAcc :=
  if seqLt c.seq s.tsock.snd.sndNxt then
    (s.setDesc d { s.desc d with retrans := true }, { a with retransmit := true })
  else (s, a)

/-- The length of the next piece and the budget it is taken from, which the cap
at `seq_max` sets to that length. -/
def attachLen (v : TxDesc) (c : XmitCtx) (budget : Int) : Int × Int :=
  let len := min ((v.len - (c.seq - v.seq)).toNat : Int) budget
  if seqGt (c.seq + BitVec.ofInt 32 len) c.seqMax then
    ((c.seqMax - c.seq).toInt, (c.seqMax - c.seq).toInt)
  else (len, budget)

/-- What a descriptor gets when its last byte is attached. -/
def descDone (s : St) (c : XmitCtx) (d : DescId) : St × XmitCtx :=
  let v := { s.desc d with tsUs := s.worker.tsUs }
  if !v.retrans && v.measureLatency then
    if c.now = 0 then
      let t := rteRdtsc s
      (t.2.setDesc d { v with tscXmit := t.1 }, { c with now := t.1 })
    else (s.setDesc d { v with tscXmit := c.now }, c)
  else (s.setDesc d v, c)

/-- The loop of `xmit_one_packet` that attaches pieces of descriptors. A piece
that begins behind its descriptor is a fault, as the assertion there says. -/
def attachLoop (cfg : TcpCfg) : Nat → St → XmitCtx → XmitAcc → DescId → St × XmitCtx × XmitAcc
  | 0, s, c, a, _ => (s, c, a)
  | n + 1, s, c, a, d =>
    if 0 < a.budget then
      let m := markRetrans s c a d
      if (m.1.desc d).sacked then (m.1, c, m.2)
      else
        match packetAlloc m.1 with
        | (false, s) => (s, c, { m.2 with err := some .errPktAllocFail })
        | (true, s) =>
          let v := s.desc d
          let off := c.seq - v.seq
          let l := attachLen v c a.budget
          let s := if v.len ≤ off then { s with worker := { s.worker with fault := true } } else s
          let a := { m.2 with
            payload := a.payload ++ (v.data.drop off.toNat).take l.1.toNat
            nbSegs := a.nbSegs + 1
            size := a.size + BitVec.ofInt 32 l.1
            budget := l.2 - l.1 }
          let c := { c with seq := c.seq + BitVec.ofInt 32 l.1 }
          if off + BitVec.ofInt 32 l.1 = v.len then
            let r := descDone s c d
            let c := { r.2 with descOff := r.2.descOff + 1 }
            if cfg.pktMaxChain ≤ a.nbSegs then (r.1, c, a)
            else
              match c.peek r.1 with
              | none => (r.1, c, a)
              | some d => attachLoop cfg n r.1 c a d
          else if cfg.pktMaxChain ≤ a.nbSegs then (s, c, a)
          else attachLoop cfg n s c a d
    else (s, c, a)

def tsockSndMss (t : TcpSock) : Nat := if t.nego.tsoEnabled then 65535 - 100 else t.cc.sndMss.toNat

/-- The answer of `xmit_one_packet`: zero or an error, or the size it sent. -/
inductive XmitRes
  | stop (err : Option Code)
  | sent (size : U32)

/-- The second half of `xmit_one_packet`. -/
def xmitAttached (cfg : TcpCfg) (s : St) (c : XmitCtx) (a : XmitAcc) : XmitRes × St × XmitCtx :=
  if a.size = 0 then (.stop a.err, s, c)
  else
    let r := prependTcpHdr cfg s (c.seq - a.size) tcpFlagAck a.payload a.retransmit
    match devPortTxqEnqueue r.2 r.1 with
    | (some e, s) => (.stop (some e), s, c)
    | (none, s) =>
      (.sent a.size, s.setFlags { s.tsock.flags with tcp := {} },
        { c with budget := c.budget - a.size.toNat })

def xmitOnePacket (cfg : TcpCfg) (s : St) (c : XmitCtx) : XmitRes × St × XmitCtx :=
  match skipSacked s ((s.tsock.snd.txq.write - c.descBase).toNat + 1) c with
  | (none, c) => (.stop none, s, c)
  | (some d, c) =>
    match packetAlloc s with
    | (false, s) => (.stop (some .errPktAllocFail), s, c)
    | (true, s) =>
      let a : XmitAcc :=
        { payload := [], nbSegs := 1, retransmit := false, size := 0
          budget := min c.budget (tsockSndMss s.tsock), err := none }
      let r := attachLoop cfg cfg.pktMaxChain s c a d
      xmitAttached cfg r.1 r.2.1 r.2.2

def xmitLoop (cfg : TcpCfg) : Nat → St → XmitCtx → Nat → St × XmitCtx × Nat
  | 0, s, c, size => (s, c, size)
  | n + 1, s, c, size =>
    if 0 < c.budget then
      match xmitOnePacket cfg s c with
      | (.stop _, s, c) => (s, c, size)
      | (.sent k, s, c) => xmitLoop cfg n s c (size + k.toNat)
    else (s, c, size)

def devPortTxqFreeCount (w : Worker) : Nat := txqBufSize - w.nrPkt

/-- The bookkeeping of `do_tcp_xmit_data` when something was sent. -/
def dataSent (s : St) : St :=
  let s := if s.tsock.timers.rto = none then tsockRearmTimerRto s else s
  let s := s.setNego { s.tsock.nego with
    lastAckSent := s.tsock.rcv.rcvNxt
    lastAckSentTs := BitVec.ofNat 32 s.worker.tsUs }
  tsockUpdateLastSndPkt <| s.setCc { s.tsock.cc with sndTs := usToTcpTs s.worker.tsUs }

def doTcpXmitData (cfg : TcpCfg) (s : St) (c : XmitCtx) : St × XmitCtx × Nat :=
  let r := xmitLoop cfg (min (devPortTxqFreeCount s.worker) batchSize) s c 0
  if 0 < r.2.2 then (dataSent r.1, r.2) else r

/-- The time that `tcp_zero_wnd_probe` leaves between two packets. -/
def probeSpacing (c : Cc) : Nat := (c.rto <<< c.zeroWndProbeShift.toNat).toNat

/-- The guard of `tcp_zero_wnd_probe`. -/
def ProbeEarly (s : St) : Prop :=
  usSince s.worker.tsUs s.tsock.lastSndPkt < probeSpacing s.tsock.cc

instance (s : St) : Decidable (ProbeEarly s) := inferInstanceAs (Decidable (_ < _))

def tcpZeroWndProbe (cfg : TcpCfg) (s : St) : St :=
  if ProbeEarly s then s
  else
    let f := s.tsock.flags
    let s := (xmitFlagPacketWithSeq cfg (s.setFlags { f with tcp := { f.tcp with ack := true } })
      (s.tsock.snd.sndUna - 1)).2
    let c := s.tsock.cc
    s.setCc { c with
      zeroWndProbeShift := BitVec.ofNat 8 (min (c.zeroWndProbeShift.toNat + 1) cfg.retries) }

def minWnd (c : Cc) : U32 := if c.sndWnd < c.sndCwnd then c.sndWnd else c.sndCwnd

def xmitDataCtx (t : TcpSock) : XmitCtx where
  seq := t.snd.sndNxt
  seqMax := t.snd.dataSeqNxt
  budget := (minWnd t.cc - (t.snd.sndNxt - t.snd.sndUna)).toInt
  descOff := 0
  descBase := t.snd.txq.nxt
  now := 0

def tcpXmitData (cfg : TcpCfg) (s : St) : St :=
  if minWnd s.tsock.cc = 0 then tcpZeroWndProbe cfg s
  else
    let r := doTcpXmitData cfg s (xmitDataCtx s.tsock)
    let x := r.1.tsock.snd
    if r.2.1.seq = x.sndNxt then r.1
    else r.1.setSnd { x with
      sndNxt := r.2.1.seq
      txq := { x.txq with nxt := x.txq.nxt + r.2.1.descOff } }

def doTcpRetrans (cfg : TcpCfg) (s : St) (budget : Int) : St :=
  let x := s.tsock.snd
  let r := doTcpXmitData cfg s
    { seq := x.retransSeq, seqMax := x.sndNxt, budget := budget, descOff := 0
      descBase := x.retransDescBase, now := 0 }
  tcpResetRetrans r.1 r.2.1.seq (r.2.1.descBase + r.2.1.descOff)

/-- The regulation of the retransmit cursor in `tcp_retrans`. -/
def regulateRetrans (s : St) : St :=
  let x := s.tsock.snd
  if seqLt x.retransSeq x.sndUna then tcpResetRetrans s x.sndUna x.txq.una else s

def tcpRetrans (cfg : TcpCfg) (s : St) : St :=
  let s := regulateRetrans s
  let x := s.tsock.snd
  doTcpRetrans cfg s (minWnd s.tsock.cc - (x.retransSeq - x.sndUna)).toInt

def tcpFastRetrans (cfg : TcpCfg) (s : St) (budget : U32) : St :=
  let s := regulateRetrans s
  let x := s.tsock.snd
  let budget := (budget - (x.retransSeq - x.sndUna)).toInt
  doTcpRetrans cfg s (max budget s.tsock.cc.sndMss.toNat)

end LibTpa
