/- LibTpa/Port/Lookup
   digest: The sockets of a worker, and which of them a packet is for. -/

import LibTpa.Port.Alloc

set_option autoImplicit false

namespace LibTpa

def tsockSidUnallocated : Int := -1
def tsockSidFreed : Int := -2

/-- What `tsock_lookup` and `tsock_free` read of a socket. -/
structure SockSlot where
  sid : Int := tsockSidUnallocated
  state : TcpState := .closed
  localIp : TpaIp := 0
  remoteIp : TpaIp := 0
  localPort : U16 := 0
  remotePort : U16 := 0
  listenSock : Bool := false
  passiveConnection : Bool := false

def SockSlot.key (t : SockSlot) : SockKey := ⟨t.localIp, t.remoteIp, t.localPort, t.remotePort⟩

/-- What `tsock_lookup` reads of a packet; the addresses are those of `init_tpa_ip_from_pkt`,
the mark is `hash.fdir.hi` if `PKT_RX_FDIR_ID` is set. -/
structure PktAddr where
  srcIp : TpaIp
  dstIp : TpaIp
  srcPort : U16
  dstPort : U16
  isIpv6 : Bool
  mark : Option U32

def PktAddr.key (pkt : PktAddr) : SockKey := ⟨pkt.dstIp, pkt.srcIp, pkt.dstPort, pkt.srcPort⟩

structure DevCfg where
  ip4 : U32 := 0
  ip6 : TpaIp := 0
  nrWorker : Nat := 1
  nrWorkerShift : Nat := 0

/-- `tpa_ip_set_ipv4`: the words of an address are in memory order. -/
def tpaIpSetIpv4 (ip4 : U32) : TpaIp := ip4 ++ (0xffff0000 : U32) ++ (0 : BitVec 64)

def tpaIpGetIpv4 (ip : TpaIp) : U32 := ip.extractLsb' 96 32

def tpaIpIsIpv4 (ip : TpaIp) : Bool :=
  ip.extractLsb' 0 64 = (0 : BitVec 64) && ip.extractLsb' 64 32 = (0xffff0000 : U32)

def isIp6Any (ip : TpaIp) : Bool := ip = 0

/-- A worker with the slots of `sock_ctrl` and the table of listeners. -/
structure Demux where
  ports : PortSt
  listenTable : List SockEntry
  socks : Nat → SockSlot
  nrMaxSock : Nat

def errNoSock : Int := 25
def errFlowMarkInvalid : Int := 34
def warnMissingFlowMark : Int := 35
def warnStalePktTupleMismatch : Int := 73

/-- `parse_flow_mark`: a slot, which is negative if the mark is too large for an `int`, or
an error. -/
def parseFlowMark (dev : DevCfg) (pkt : PktAddr) : Int :=
  match pkt.mark with
  | none => -warnMissingFlowMark
  | some hi =>
    let wid := hi.toNat % 2 ^ dev.nrWorkerShift
    if wid ≥ dev.nrWorker then -errFlowMarkInvalid else (hi >>> dev.nrWorkerShift).toInt

def tupleMatches (dev : DevCfg) (t : SockSlot) (pkt : PktAddr) : Bool :=
  if t.state = .listen then
    if t.localPort ≠ pkt.dstPort then false
    else if pkt.isIpv6 then decide (dev.ip6 = pkt.dstIp)
    else decide (dev.ip4 = tpaIpGetIpv4 pkt.dstIp)
  else decide (t.localPort = pkt.dstPort) && decide (t.remotePort = pkt.srcPort) &&
    decide (t.localIp = pkt.dstIp) && decide (t.remoteIp = pkt.srcIp)

def tsockLookupSlowpath (x : Demux) (pkt : PktAddr) : Except Int Nat :=
  match sockTableLookup x.ports.table pkt.key with
  | none => .error (-errNoSock)
  | some i => if (x.socks i).sid < 0 then .error (-warnStalePktTupleMismatch) else .ok i

def listenKey (port : U16) : SockKey := ⟨0, 0, port, 0⟩

def listenTsockLookup (dev : DevCfg) (x : Demux) (pkt : PktAddr) : Except Int Nat :=
  match sockTableLookup x.listenTable (listenKey pkt.dstPort) with
  | none => .error (-errNoSock)
  | some i => if tupleMatches dev (x.socks i) pkt then .ok i else .error (-errNoSock)

def tsockLookup (dev : DevCfg) (x : Demux) (pkt : PktAddr) : Except Int Nat :=
  let sid := parseFlowMark dev pkt
  if 0 ≤ sid then
    if sid ≥ x.nrMaxSock then .error (-errNoSock)
    else
      let t := x.socks sid.toNat
      if !tupleMatches dev t pkt || decide (t.sid ≠ sid) then .error (-warnStalePktTupleMismatch)
      else if t.state = .listen then
        match tsockLookupSlowpath x pkt with
        | .ok child => .ok child
        | .error _ => .ok sid.toNat
      else .ok sid.toNat
  else if sid = -warnMissingFlowMark then
    match tsockLookupSlowpath x pkt with
    | .ok i => .ok i
    | .error e => if e = -errNoSock then listenTsockLookup dev x pkt else .error e
  else .error sid

def sockCreate (x : Demux) (i : Nat) : Demux :=
  { x with socks := Function.update x.socks i { sid := i } }

def tsockUnbind (x : Demux) (i : Nat) : Demux :=
  { x with ports := (portUnbind x.ports (x.socks i).key).2 }

def removePassiveSock (x : Demux) (i : Nat) : Demux :=
  match sockTableDel x.ports.table (x.socks i).key with
  | none => x
  | some table => { x with ports := { x.ports with table := table } }

def addListenSock (x : Demux) (i : Nat) (entryOk : Bool) : Demux :=
  let key := listenKey (x.socks i).localPort
  if (sockTableLookup x.listenTable key).isSome || !entryOk then x
  else { x with listenTable := x.listenTable ++ [⟨key, i, none⟩] }

def removeListenSock (x : Demux) (i : Nat) : Demux :=
  match sockTableDel x.listenTable (listenKey (x.socks i).localPort) with
  | none => x
  | some table => { x with listenTable := table }

/-- The part of `tsock_free` that gives back the port and the entry. -/
def releasePort (x : Demux) (i : Nat) : Demux :=
  let t := x.socks i
  if t.localPort ≠ 0 then
    if t.listenSock then removeListenSock { x with ports := (portFree x.ports t.localPort).2 } i
    else if t.passiveConnection then removePassiveSock x i
    else tsockUnbind x i
  else x

def tsockFreeSlot (x : Demux) (i : Nat) : Demux :=
  let x := releasePort x i
  { x with socks := Function.update x.socks i { x.socks i with sid := tsockSidFreed } }

/-- What an application asks of `tpa_connect_to`, and whether the offload and `tcp_connect`
succeed. -/
structure ConnectArgs where
  remoteIp : TpaIp
  remotePort : U16
  localPort : U16
  isIpv6 : Bool
  oracles : PortOracles := {}
  offloadOk : Bool := true
  connectOk : Bool := true

/-- The rest of `tpa_connect_to` once the socket is bound. -/
def connectFinish (x : Demux) (i : Nat) (a : ConnectArgs) : Demux :=
  if !a.offloadOk then tsockFreeSlot x i
  else if !a.connectOk then tsockFreeSlot (tsockUnbind x i) i
  else { x with socks := Function.update x.socks i { x.socks i with state := .synSent } }

def tpaConnectTo (dev : DevCfg) (range : PortRange) (x : Demux) (i : Nat) (a : ConnectArgs) :
    Option Demux :=
  let x := sockCreate x i
  let localIp := if a.isIpv6 then dev.ip6 else tpaIpSetIpv4 dev.ip4
  let key := ⟨localIp, a.remoteIp, a.localPort, a.remotePort⟩
  (portBind range { x.ports with oracles := a.oracles } key i).map fun r =>
    let x := { x with ports := r.2 }
    if r.1 = 0 then tsockFreeSlot x i
    else
      connectFinish { x with socks := Function.update x.socks i { x.socks i with
        remoteIp := a.remoteIp, localIp := localIp, remotePort := a.remotePort
        localPort := r.1 } } i a

structure ListenArgs where
  localIp : TpaIp
  port : U16
  oracles : PortOracles := {}
  sockOk : Bool := true
  entryOk : Bool := true
  offloadOk : Bool := true

def tpaListenOn (range : PortRange) (x : Demux) (i : Nat) (a : ListenArgs) : Demux :=
  if a.port = 0 then x
  else
    let r := portAlloc range { x.ports with oracles := a.oracles } a.port
    let x := { x with ports := r.2 }
    if r.1 = 0 then x
    else if !a.sockOk then { x with ports := (portFree x.ports a.port).2 }
    else
      let x := sockCreate x i
      let x := { x with socks := Function.update x.socks i { x.socks i with
        localPort := a.port, localIp := a.localIp, state := .listen, listenSock := true } }
      let x := addListenSock x i a.entryOk
      if !a.offloadOk then tsockFreeSlot x i else x

/-- `tsock_accept` with `passive_tsock_init` in slot `i`, with what `malloc` answers. -/
def tsockAcceptSlot (x : Demux) (i : Nat) (pkt : PktAddr) (entryOk : List Bool) : Demux :=
  let x := sockCreate x i
  let t : SockSlot := { x.socks i with
    localIp := pkt.dstIp, remoteIp := pkt.srcIp, localPort :=
      pkt.dstPort, remotePort := pkt.srcPort }
  let ports := { x.ports with oracles := { x.ports.oracles with entryOk := entryOk } }
  { x with
    ports := (sockTableAdd ports t.key i none).2
    socks := Function.update x.socks i { t with passiveConnection := true, state := .synRcvd } }

end LibTpa
