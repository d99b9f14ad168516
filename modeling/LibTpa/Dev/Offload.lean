/- LibTpa/Dev/Offload
   digest: Flow rules for sockets and port blocks: installed together, removed together. -/

import LibTpa.Port.Lookup

/-!
The rules of an owner hang on its list, and the name of the list says that they are still
to be destroyed. The name is allocated first, and nothing checks whether that worked.
-/

set_option autoImplicit false

namespace LibTpa

structure OffloadCfg where
  enableFlowMark : Bool := true
  enableSockOffload : Bool := false
  enablePortBlockOffload : Bool := true

/-- What the device has: its addresses, the ports of `dev.nr_port`, and whether
`tpa_cfg.nr_dpdk_port` is positive. -/
structure OffloadDev where
  cfg : DevCfg := {}
  nrPort : Nat := 1
  hasDpdkPort : Bool := true

/-- `struct offload_rule`, the fields that are set; without a queue the rule spreads. -/
structure OffloadRule where
  dstIp : TpaIp
  dstPort : U16
  dstPortMask : U16 := 0xffff
  src : Option (TpaIp × U16) := none
  mark : Option U32 := none
  queue : Option Nat
  deriving DecidableEq

/-- A rule on one device port; `id` counts what `rte_flow_create` has made. -/
structure RteFlow where
  id : Nat
  port : Nat
  rule : OffloadRule
  priority : Nat
  deriving DecidableEq

inductive OffloadName
  | sock (wid : Nat) (sid : Int)
  | portBlock (start stop : U16)
  deriving DecidableEq

structure OffloadList where
  name : Option OffloadName := none
  flows : List RteFlow := []

/-- The answers of `malloc`, `rte_flow_create` and `rte_flow_destroy`. -/
structure OffloadOracles where
  mallocOk : List Bool := []
  flowOk : List Bool := []
  destroyOk : List Bool := []

/-- One owner's list with the flows that were ever created and destroyed. -/
structure OffloadSt where
  created : List RteFlow
  destroyed : List RteFlow
  list : OffloadList
  oracles : OffloadOracles

def OffloadSt.malloc (s : OffloadSt) : Bool × OffloadSt :=
  (s.oracles.mallocOk.headD true,
    { s with oracles := { s.oracles with mallocOk := s.oracles.mallocOk.tail } })

def doOffloadCreate (s : OffloadSt) (rule : OffloadRule) (priority port : Nat) :
    Option RteFlow × OffloadSt :=
  let ok := s.oracles.flowOk.headD true
  let s := { s with oracles := { s.oracles with flowOk := s.oracles.flowOk.tail } }
  if ok then
    let flow : RteFlow := ⟨s.created.length, port, rule, priority⟩
    (some flow, { s with created := s.created ++ [flow] })
  else (none, s)

def rteFlowDestroy (s : OffloadSt) (flow : RteFlow) : Bool × OffloadSt :=
  let ok := s.oracles.destroyOk.headD true
  let s := { s with oracles := { s.oracles with destroyOk := s.oracles.destroyOk.tail } }
  (ok, if ok then { s with destroyed := s.destroyed ++ [flow] } else s)

def offloadSetName (s : OffloadSt) (name : OffloadName) : OffloadSt :=
  let m := s.malloc
  if m.1 then { m.2 with list := { m.2.list with name := some name } } else m.2

/-- The loop of `offload_destroy`, with its local `failed`. -/
def destroyLoop : List RteFlow → Bool → OffloadSt → Bool × OffloadSt
  | [], failed, s => (failed, s)
  | flow :: rest, failed, s =>
    let r := rteFlowDestroy s flow
    destroyLoop rest (failed || !r.1) { r.2 with list := { r.2.list with flows := rest } }

def offloadDestroy (s : OffloadSt) : Int × OffloadSt :=
  match s.list.name with
  | none => (-1, s)
  | some _ =>
    let r := destroyLoop s.list.flows false s
    (if r.1 then -1 else 0, { r.2 with list := { r.2.list with name := none } })

/-- The loop of `offload_create` over the device ports, up to a failure. -/
def offloadPorts (rule : OffloadRule) (priority : Nat) : List Nat → OffloadSt → Bool × OffloadSt
  | [], s => (true, s)
  | port :: rest, s =>
    let m := s.malloc
    if m.1 then
      match doOffloadCreate m.2 rule priority port with
      | (none, s) => (false, s)
      | (some flow, s) =>
        offloadPorts rule priority rest
          { s with list := { s.list with flows := s.list.flows ++ [flow] } }
    else (false, m.2)

def offloadCreate (dev : OffloadDev) (s : OffloadSt) (rule : OffloadRule) (priority : Nat) :
    Int × OffloadSt :=
  let r := offloadPorts rule priority (List.range dev.nrPort) s
  if r.1 then (0, r.2) else (-1, (offloadDestroy r.2).2)

def makeFlowMark (dev : DevCfg) (wid : Nat) (sid : Int) : U32 :=
  (BitVec.ofInt 32 sid <<< dev.nrWorkerShift) ||| BitVec.ofNat 32 wid

structure OffloadSock where
  slot : SockSlot
  wid : Nat
  listenScaling : Bool

def tsockOffloadRule (cfg : OffloadCfg) (dev : OffloadDev) (t : OffloadSock) (ipv6 : Bool) :
    OffloadRule where
  dstIp := if ipv6 then dev.cfg.ip6 else tpaIpSetIpv4 dev.cfg.ip4
  dstPort := t.slot.localPort
  src := if t.slot.state = .listen then none else some (t.slot.remoteIp, t.slot.remotePort)
  mark := if cfg.enableFlowMark then some (makeFlowMark dev.cfg t.wid t.slot.sid) else none
  queue := if t.slot.state = .listen ∧ t.listenScaling then none else some t.wid

def tsockOffloadDoCreate (cfg : OffloadCfg) (dev : OffloadDev) (s : OffloadSt) (t : OffloadSock)
    (ipv6 : Bool) : Int × OffloadSt :=
  offloadCreate dev s (tsockOffloadRule cfg dev t ipv6) (if t.slot.state = .listen then 1 else 0)

/-- The half of `tsock_offload_create` for IPv6. -/
def tsockOffloadIpv6 (cfg : OffloadCfg) (dev : OffloadDev) (s : OffloadSt) (t : OffloadSock) :
    Int × OffloadSt :=
  if isIp6Any t.slot.localIp || !tpaIpIsIpv4 t.slot.localIp then
    let r := tsockOffloadDoCreate cfg dev s t true
    if r.1 < 0 then (-1, r.2) else (0, r.2)
  else (0, s)

def tsockOffloadCreate (cfg : OffloadCfg) (dev : OffloadDev) (s : OffloadSt) (t : OffloadSock) :
    Int × OffloadSt :=
  if !dev.hasDpdkPort then (0, s)
  else if t.slot.state ≠ .listen ∧ !cfg.enableSockOffload then (0, s)
  else
    let s := offloadSetName s (.sock t.wid t.slot.sid)
    if dev.cfg.ip4 ≠ 0 ∧ (isIp6Any t.slot.localIp || tpaIpIsIpv4 t.slot.localIp) then
      let r := tsockOffloadDoCreate cfg dev s t false
      if r.1 < 0 then (-1, r.2) else tsockOffloadIpv6 cfg dev r.2 t
    else tsockOffloadIpv6 cfg dev s t

def tsockOffloadDestroy (s : OffloadSt) : OffloadSt := (offloadDestroy s).2

structure OffloadBlock where
  start : U16
  stop : U16
  portMask : U16
  wid : Nat

def htons (x : U16) : U16 := x.rotateLeft 8

def blockOffloadRule (b : OffloadBlock) (ip : TpaIp) : OffloadRule where
  dstIp := ip
  dstPort := htons b.start
  dstPortMask := htons b.portMask
  queue := some b.wid

def OffloadDev.localIps (dev : OffloadDev) : List TpaIp :=
  (if dev.cfg.ip4 ≠ 0 then [tpaIpSetIpv4 dev.cfg.ip4] else []) ++
    if isIp6Any dev.cfg.ip6 then [] else [dev.cfg.ip6]

/-- Rules that are created one after the other, up to a failure. -/
def offloadRules (dev : OffloadDev) (priority : Nat) :
    List OffloadRule → OffloadSt → Int × OffloadSt
  | [], s => (0, s)
  | rule :: rest, s =>
    let r := offloadCreate dev s rule priority
    if r.1 < 0 then (-1, r.2) else offloadRules dev priority rest r.2

def portBlockOffloadCreate (cfg : OffloadCfg) (dev : OffloadDev) (s : OffloadSt)
    (b : OffloadBlock) :
    Int × OffloadSt :=
  if !dev.hasDpdkPort then (0, s)
  else if !cfg.enablePortBlockOffload then (0, s)
  else offloadRules dev 1 (dev.localIps.map (blockOffloadRule b))
    (offloadSetName s (.portBlock b.start b.stop))

def portBlockOffloadDestroy (s : OffloadSt) : OffloadSt := (offloadDestroy s).2

end LibTpa
