/- LibTpa/Output/Header
   digest: TCP headers and options, the dev txq, and segments without payload. -/

import LibTpa.Rcv.Reassembly

set_option autoImplicit false

namespace LibTpa

def be16 (x : U16) : List Byte := [x.extractLsb' 8 8, x.extractLsb' 0 8]

def be32 (x : U32) : List Byte :=
  [x.extractLsb' 24 8, x.extractLsb' 16 8, x.extractLsb' 8 8, x.extractLsb' 0 8]

def tcpOptMssSpace : Nat := 4
def tcpOptWscaleSpace : Nat := 4
def tcpOptSackPermSpace : Nat := 4
def tcpOptSackLen (n : Nat) : Nat := 2 + 8 * n
def tcpOptSackSpace (n : Nat) : Nat := 4 + 8 * n

def calcSndMss (cfg : TcpCfg) (isIpv6 hasTs passive : Bool) (negoMss : U16) : U16 :=
  let sndMss := if 0 < cfg.usrSndMss then cfg.usrSndMss + (if hasTs then tcpOptTsSpace else 0)
    else defaultMtu - (if isIpv6 then 40 else 20) - 20
  if passive then
    BitVec.ofNat 16 (min sndMss (if negoMss = 0 then tcpMssDefault else negoMss.toNat))
  else BitVec.ofNat 16 sndMss

structure OptBits where
  ts : Bool
  mss : Bool
  wscale : Bool
  sackPerm : Bool
  sack : Bool
  deriving DecidableEq

def enabledOpts (t : TcpSock) (flags : TcpFlags) : OptBits where
  ts := if t.state = .synSent then t.nego.tsEnabled else t.nego.tsOk
  mss := flags.syn
  wscale := flags.syn && t.nego.wsEnabled
  sackPerm := flags.syn && (if t.state = .synSent then t.nego.sackEnabled else t.rcv.sackOk)
  sack := !flags.syn && !t.rcv.sackBlocks.isEmpty

def calcTcpOptLen (t : TcpSock) (flags : TcpFlags) : Nat :=
  let b := enabledOpts t flags
  (if b.ts then tcpOptTsSpace else 0) + (if b.mss then tcpOptMssSpace else 0) +
    (if b.wscale then tcpOptWscaleSpace else 0) +
    (if b.sackPerm then tcpOptSackPermSpace else 0) +
    (if b.sack then tcpOptSackSpace t.rcv.sackBlocks.length else 0)

def fillOptTs (val ecr : U32) : List Byte := [1, 1, 8, 10] ++ be32 val ++ be32 ecr

def fillUncommonOpts (cfg : TcpCfg) (t : TcpSock) (b : OptBits) : List Byte :=
  (if b.mss then [2, 4] ++ be16 (calcSndMss cfg t.isIpv6 b.ts false 0) else []) ++
  (if b.wscale then [3, 3, BitVec.ofNat 8 tcpWscaleDefault, 1] else []) ++
  (if b.sackPerm then [4, 2, 1, 1] else []) ++
  (if b.sack then
    [1, 1, 5, BitVec.ofNat 8 (tcpOptSackLen t.rcv.sackBlocks.length)] ++
      (t.rcv.sackBlocks.map fun blk => be32 blk.start ++ be32 blk.stop).flatten
  else [])

def fillOpts (cfg : TcpCfg) (s : St) (b : OptBits) : List Byte :=
  (if b.ts then fillOptTs (usToTcpTs s.worker.tsUs) 0 else []) ++
    fillUncommonOpts cfg s.tsock b

/-- The window `prepend_tcp_hdr` leaves and announces: one that is too large is
set to zero. -/
def regulatedWnd (r : Rcv) : Nat := if tcpWindowMax ≤ r.rcvWnd then 0 else r.rcvWnd

/-- The packet `prepend_tcp_hdr` builds around a payload, with the fields that
`mbuf_set_offload` derives from it. -/
def buildPacket (cfg : TcpCfg) (s : St) (seq : U32) (flags : TcpFlags) (payload : List Byte)
    (retransmit : Bool) : TxPacket :=
  let t := s.tsock
  let b := enabledOpts t flags
  let hdrLen := 20 + calcTcpOptLen t flags
  let wnd := regulatedWnd t.rcv
  let mss := if b.sack then t.cc.sndMss - BitVec.ofNat 16 (tcpOptSackSpace t.rcv.sackBlocks.length)
    else t.cc.sndMss
  { seq := seq
    ack := if flags.ack then t.rcv.rcvNxt else 0
    flags := flags
    wnd := BitVec.ofNat 16 (min (if flags.syn then wnd else wnd >>> t.nego.rcvWscale) 65535)
    opts := fillOpts cfg s b
    payload := payload
    retransmit := retransmit
    ipLen := BitVec.ofNat 16 (payload.length % 2 ^ 16 + hdrLen + (if t.isIpv6 then 0 else 20))
    tsoSegsz := if mss.toNat < payload.length then some mss else none
    rcvNxt := t.rcv.rcvNxt
    rcvWnd := wnd
    shift := if flags.syn then 0 else t.nego.rcvWscale }

def afterPrepend (s : St) (flags : TcpFlags) : St :=
  let t := s.tsock
  { s with tsock := { t with
      rcv := { t.rcv with rcvWnd := regulatedWnd t.rcv }
      flags := if flags.ack then { t.flags with ackNow := false } else t.flags
      packetId := t.packetId + 1 } }

/-- `prepend_tcp_hdr`. The headroom of a header packet, 128 bytes, holds the
largest header. -/
def prependTcpHdr (cfg : TcpCfg) (s : St) (seq : U32) (flags : TcpFlags) (payload : List Byte)
    (retransmit : Bool) : TxPacket × St :=
  (buildPacket cfg s seq flags payload retransmit, afterPrepend s flags)

/-- `dev_port_txq_flush`: the NIC takes what the next entry of `txBurst` says. -/
def devPortTxqFlush (w : Worker) : Worker :=
  let count := min (min w.nrPkt batchSize) (w.oracles.txBurst.headD 0)
  { w with
    nrPkt := w.nrPkt - count
    oracles := { w.oracles with txBurst := w.oracles.txBurst.tail } }

/-- `dev_port_txq_enqueue`; the packet itself goes to the record of the socket. -/
def devPortTxqEnqueue (s : St) (pkt : TxPacket) : Option Code × St :=
  if txqBufSize ≤ s.worker.nrPkt then (some .errDevTxqFull, s)
  else
    let w := { s.worker with nrPkt := s.worker.nrPkt + 1 }
    let w := if batchSize ≤ w.nrPkt then devPortTxqFlush w else w
    (none, { worker := w, tsock := { s.tsock with emitted := s.tsock.emitted ++ [pkt] } })

def neighWaitEnqueue (s : St) (pkt : TxPacket) : Option Code × St :=
  let w := { s.worker with oracles :=
    { s.worker.oracles with neighOk := s.worker.oracles.neighOk.tail } }
  if s.worker.oracles.neighOk.headD false then
    (none, { worker := w, tsock := { s.tsock with emitted := s.tsock.emitted ++ [pkt] } })
  else (some .errNeighEnqueue, { s with worker := w })

/-- The bookkeeping of `xmit_flag_packet_with_seq` after the packet is queued. -/
def flagPacketSent (s : St) (flags : TcpFlags) : St :=
  let s := if flags.ack then
      let f := s.tsock.flags
      (s.setNego { s.tsock.nego with
        lastAckSent := s.tsock.rcv.rcvNxt
        lastAckSentTs := BitVec.ofNat 32 s.worker.tsUs }).setFlags
          { f with tcp := { f.tcp with ack := false }, ackNow := false }
    else s
  let f := s.tsock.flags
  tsockUpdateLastSndPkt <| s.setFlags { f with tcp := { f.tcp with
    syn := f.tcp.syn && !flags.syn
    fin := f.tcp.fin && !flags.fin
    rst := f.tcp.rst && !flags.rst } }

/-- Where `xmit_flag_packet_with_seq` hands its packet to: the neighbour queue
while the peer's address is unresolved, the dev txq otherwise. -/
def flagPacketEnqueue (s : St) (pkt : TxPacket) : Option Code × St :=
  if s.tsock.flags.missingArp then
    neighWaitEnqueue (s.setFlags { s.tsock.flags with missingArp := false }) pkt
  else devPortTxqEnqueue s pkt

def xmitFlagPacketWithSeq (cfg : TcpCfg) (s : St) (seq : U32) : Option Code × St :=
  if s.tsock.netHdrLen = 0 then
    (some .errNoNetHdr, s.setFlags { s.tsock.flags with tcp := {} })
  else
    match packetAlloc s with
    | (false, s) => (some .errPktAllocFail, s)
    | (true, s) =>
      let flags := s.tsock.flags.tcp
      let r := prependTcpHdr cfg s seq flags [] false
      match flagPacketEnqueue r.2 r.1 with
      | (some e, s) => (some e, s)
      | (none, s) => (none, flagPacketSent s flags)

def flagSeq (t : TcpSock) : U32 :=
  if t.flags.tcp.syn then t.snd.sndIsn
  else if t.flags.tcp.fin then t.snd.dataSeqNxt
  else t.snd.sndNxt

def xmitFlagPacket (cfg : TcpCfg) (s : St) : Option Code × St :=
  xmitFlagPacketWithSeq cfg s (flagSeq s.tsock)

def xmitRstForListen (s : St) (p : Packet) : Option Code × St :=
  match packetAlloc s with
  | (false, s) => (some .errPktAllocFail, s)
  | (true, s) =>
    let pkt : TxPacket :=
      { seq := p.ack, ack := 0, flags := { rst := true }, wnd := 0, opts := [], payload := []
        retransmit := false, ipLen := if p.isIpv6 then 20 else 40, tsoSegsz := none
        rcvNxt := 0, rcvWnd := 0, shift := 0 }
    let s := { s with tsock := { s.tsock with packetId := s.tsock.packetId + 1 } }
    match devPortTxqEnqueue s pkt with
    | (some e, s) => (some e, s)
    | (none, s) => (none, tsockUpdateLastSndPkt s)

end LibTpa
