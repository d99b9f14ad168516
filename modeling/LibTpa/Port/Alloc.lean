/- LibTpa/Port/Alloc
   digest: Local ports, the blocks they are taken in and the table of bound sockets. -/

import LibTpa.Tcp.Basic
import Mathlib.Logic.Function.Basic

set_option autoImplicit false

namespace LibTpa

abbrev TpaIp := BitVec 128

structure SockKey where
  localIp : TpaIp
  remoteIp : TpaIp
  localPort : U16
  remotePort : U16
  deriving DecidableEq

/-- An entry of a table of sockets; `via` records the port block through which
`port_bind` took the local port. -/
structure SockEntry where
  key : SockKey
  tsock : Nat
  via : Option Nat
  deriving DecidableEq

/-- `pac.min` and `pac.max`, inside the range that `local_port_range_set` admits. -/
structure PortRange where
  min : U16 := 41000
  max : U16 := 64000
  min_ge : 41000 ≤ min.toNat := by decide
  min_lt : min.toNat < max.toNat := by decide
  max_le : max.toNat ≤ 64000 := by decide

def defaultPortBlockSize : U16 := 64
def defaultPortBlockMask : U16 := 63
def maxPortBlockPerWorker : Nat := 1024

/-- `struct port_block`; `armed` says that its timer is active, and `ports` records the
ports that were allocated for it. -/
structure PortBlock where
  start : U16
  stop : U16
  size : U16
  refcnt : Int
  armed : Bool
  ports : List U16

/-- What the surroundings answer: whether `socket` and `bind` succeed, `malloc` for a block
and for an entry, and the offload of a block; and the cycle counter. -/
structure PortOracles where
  kernelOk : List Bool := []
  blockOk : List Bool := []
  offloadOk : List Bool := []
  entryOk : List Bool := []
  rdtsc : List Nat := []
  ebusy : Bool := false

/-- The port map with the blocks and the table of one worker. Blocks are known by their
address; `fresh` is one never used. -/
structure PortSt where
  portMap : U16 → Bool
  heap : Nat → PortBlock
  fresh : Nat
  portBlocks : List Nat
  table : List SockEntry
  oracles : PortOracles

namespace PortSt

def askKernel (s : PortSt) : Bool × PortSt :=
  (s.oracles.kernelOk.headD true,
    { s with oracles := { s.oracles with kernelOk := s.oracles.kernelOk.tail } })

def askBlock (s : PortSt) : Bool × PortSt :=
  (s.oracles.blockOk.headD true,
    { s with oracles := { s.oracles with blockOk := s.oracles.blockOk.tail } })

def askOffload (s : PortSt) : Bool × PortSt :=
  (s.oracles.offloadOk.headD true,
    { s with oracles := { s.oracles with offloadOk := s.oracles.offloadOk.tail } })

def askEntry (s : PortSt) : Bool × PortSt :=
  (s.oracles.entryOk.headD true,
    { s with oracles := { s.oracles with entryOk := s.oracles.entryOk.tail } })

def readTsc (s : PortSt) : Nat × PortSt :=
  (s.oracles.rdtsc.headD 0, { s with oracles := { s.oracles with rdtsc := s.oracles.rdtsc.tail } })

/-- `errno` matters only as far as it is `EBUSY`. -/
def setBusy (s : PortSt) (busy : Bool) : PortSt :=
  { s with oracles := { s.oracles with ebusy := busy } }

end PortSt

def doPortAlloc (s : PortSt) (port : U16) : U16 × PortSt :=
  if s.portMap port then (0, s)
  else
    let r := s.askKernel
    if r.1 then (port, { r.2 with portMap := Function.update r.2.portMap port true })
    else (0, r.2.setBusy false)

/-- The loop of `port_alloc`, with the tries that are left. -/
def portAllocLoop (range : PortRange) : Nat → U16 → PortSt → U16 × PortSt
  | 0, _, s => (0, s)
  | n + 1, port, s =>
    let r := doPortAlloc s port
    if r.1 ≠ 0 then (port, r.2)
    else portAllocLoop range n (if port + 1 = range.max then range.min else port + 1) r.2

def PortRange.count (range : PortRange) : Nat := range.max.toNat - range.min.toNat

def portAlloc (range : PortRange) (s : PortSt) (port : U16) : U16 × PortSt :=
  if port ≠ 0 then doPortAlloc s port
  else
    let r := s.readTsc
    portAllocLoop range range.count (BitVec.ofNat 16 (r.1 % range.count) + range.min) r.2

def portFree (s : PortSt) (port : U16) : Int × PortSt :=
  (if s.portMap port then 0 else -1, { s with portMap := Function.update s.portMap port false })

def PortSt.setBlock (s : PortSt) (b : Nat) (block : PortBlock) : PortSt :=
  { s with heap := Function.update s.heap b block }

def portBlockGet (s : PortSt) (b : Nat) : PortSt :=
  s.setBlock b { s.heap b with refcnt := (s.heap b).refcnt + 1, armed := false }

def portBlockPut (s : PortSt) (b : Nat) : PortSt :=
  let block := { s.heap b with refcnt := (s.heap b).refcnt - 1 }
  s.setBlock b (if block.refcnt = 0 then { block with armed := true } else block)

def workerDropPortBlock (s : PortSt) (b : Nat) : PortSt :=
  let blocks := match s.portBlocks.idxOf? b with
    | some i => s.portBlocks.set i (s.portBlocks.getLastD b)
    | none => s.portBlocks
  { s with portBlocks := blocks.dropLast }

def portBlockFree (s : PortSt) (b : Nat) : PortSt :=
  let block := s.heap b
  let s := (List.range (block.stop.toNat - block.start.toNat)).foldl
    (fun s i => (portFree s (block.start + BitVec.ofNat 16 i)).2) s
  workerDropPortBlock s b

/-- The wheel stops the timer of a block and calls `port_block_timeout`. -/
def portBlockTimeout (s : PortSt) (b : Nat) : PortSt :=
  let s := s.setBlock b { s.heap b with armed := false }
  if (s.heap b).refcnt > 0 then s else portBlockFree s b

def portBlockFind (s : PortSt) (port : U16) : Option Nat :=
  s.portBlocks.find? fun b => decide ((s.heap b).start ≤ port) && decide (port < (s.heap b).stop)

def portRangeIsFree (s : PortSt) (start size : U16) : Bool :=
  (List.range size.toNat).all fun i => !s.portMap (start + BitVec.ofNat 16 i)

/-- The loop of `do_port_block_alloc` from index `i` on: the ports it has got, and whether
all of them. -/
def allocPorts (range : PortRange) (start : U16) : Nat → Nat → PortSt → Bool × List U16 × PortSt
  | 0, _, s => (true, [], s)
  | n + 1, i, s =>
    let r := portAlloc range s (start + BitVec.ofNat 16 i)
    if r.1 = 0 then (false, [], r.2)
    else
      let rest := allocPorts range start n (i + 1) r.2
      (rest.1, r.1 :: rest.2.1, rest.2.2)

/-- The end of `do_port_block_alloc` on failure: ports go back in reverse order. -/
def freePorts (s : PortSt) (ports : List U16) : PortSt :=
  ports.reverse.foldl (fun s port => (portFree s port).2) s

def doPortBlockAlloc (range : PortRange) (s : PortSt) (start size : U16) : Option Nat × PortSt :=
  if size &&& ~~~size ≠ 0 then (none, s)
  else if !portRangeIsFree s start size then (none, s)
  else
    let m := s.askBlock
    if !m.1 then (none, m.2.setBusy false)
    else
      let r := allocPorts range start size.toNat 0 m.2
      if !r.1 then (none, freePorts r.2.2 r.2.1)
      else
        let o := (r.2.2.setBusy false).askOffload
        if !o.1 then (none, freePorts (o.2.setBusy true) r.2.1)
        else
          let block : PortBlock :=
            { start := start, stop := start + size, size := size, refcnt := 0, armed := false
              ports := r.2.1 }
          (some o.2.fresh, { o.2.setBlock o.2.fresh block with fresh := o.2.fresh + 1 })

def portBlockAllocLoop (range : PortRange) (min max : U16) :
    Nat → U16 → PortSt → Option Nat × PortSt
  | 0, _, s => (none, s)
  | n + 1, start, s =>
    let start := if max ≤ start then min else start
    let r := doPortBlockAlloc range s start defaultPortBlockSize
    if r.1.isSome || r.2.oracles.ebusy then r
    else portBlockAllocLoop range min max n (start + defaultPortBlockSize) r.2

def portBlockAlloc (range : PortRange) (s : PortSt) (port : U16) : Option Nat × PortSt :=
  if port ≠ 0 then
    doPortBlockAlloc range s (port &&& ~~~defaultPortBlockMask) defaultPortBlockSize
  else
    let min := (range.min + defaultPortBlockMask) &&& ~~~defaultPortBlockMask
    let max := range.max &&& ~~~defaultPortBlockMask
    let r := s.readTsc
    let start := (BitVec.ofNat 16 ((r.1 >>> 2) % range.count) + min) &&& ~~~defaultPortBlockMask
    portBlockAllocLoop range min max ((max.toNat - min.toNat) / defaultPortBlockSize.toNat) start
      r.2

def sockTableLookup (table : List SockEntry) (key : SockKey) : Option Nat :=
  (table.find? fun e => e.key = key).map SockEntry.tsock

def sockTableAdd (s : PortSt) (key : SockKey) (tsock : Nat) (via : Option Nat) : Bool × PortSt :=
  if (sockTableLookup s.table key).isSome then (false, s)
  else
    let m := s.askEntry
    if !m.1 then (false, m.2)
    else (true, { m.2 with table := m.2.table ++ [⟨key, tsock, via⟩] })

/-- `sock_table_del`: the first entry with the key goes. -/
def sockTableDel (table : List SockEntry) (key : SockKey) : Option (List SockEntry) :=
  if (table.find? fun e => e.key = key).isSome then some (table.eraseP fun e => e.key = key)
  else none

/-- The loop of `bind_from_port_block`, with the tries that are left. -/
def bindLoop (key : SockKey) (tsock b : Nat) : Nat → Nat → PortSt → U16 × PortSt
  | 0, _, s => (0, s)
  | n + 1, idx, s =>
    let port := (s.heap b).start + BitVec.ofNat 16 idx
    let r := sockTableAdd s { key with localPort := port } tsock (some b)
    if r.1 then (port, portBlockGet r.2 b)
    else bindLoop key tsock b n (if idx + 1 ≥ (s.heap b).size.toNat then 0 else idx + 1) r.2

def bindFromPortBlock (s : PortSt) (key : SockKey) (tsock b : Nat) : U16 × PortSt :=
  let r := s.readTsc
  let size := (s.heap b).size.toNat
  bindLoop key tsock b size ((r.1 >>> 2) % size) r.2

def workerAllocPortBlock (range : PortRange) (s : PortSt) (port : U16) : Option Nat × PortSt :=
  if s.portBlocks.length ≥ maxPortBlockPerWorker then (none, s)
  else
    match portBlockAlloc range s port with
    | (none, s) => (none, s)
    | (some b, s) => (some b, { s with portBlocks := s.portBlocks ++ [b] })

/-- The end of `port_bind_on_given_port`, with the block found or made. Without a result the
assertion that the block has the port fails. -/
def bindInBlock (s : PortSt) (key : SockKey) (tsock b : Nat) : Option (U16 × PortSt) :=
  if (s.heap b).start ≤ key.localPort ∧ key.localPort < (s.heap b).stop then
    let r := sockTableAdd s key tsock (some b)
    some (if r.1 then (key.localPort, portBlockGet r.2 b) else (0, r.2))
  else none

def portBindOnGivenPort (range : PortRange) (s : PortSt) (key : SockKey) (tsock : Nat) :
    Option (U16 × PortSt) :=
  match portBlockFind s key.localPort with
  | some b => bindInBlock s key tsock b
  | none =>
    match workerAllocPortBlock range s key.localPort with
    | (none, s) => some (0, s)
    | (some b, s) => bindInBlock s key tsock b

/-- The loop of `port_bind_on_random_port` over the blocks, with the tries that are left. -/
def bindBlocksLoop (key : SockKey) (tsock : Nat) : Nat → Nat → PortSt → U16 × PortSt
  | 0, _, s => (0, s)
  | n + 1, idx, s =>
    let r := bindFromPortBlock s key tsock (s.portBlocks.getD idx 0)
    if r.1 ≠ 0 then r
    else bindBlocksLoop key tsock n (if idx + 1 ≥ s.portBlocks.length then 0 else idx + 1) r.2

/-- Without a result the assertion fails that a new block gives a port. -/
def portBindOnRandomPort (range : PortRange) (s : PortSt) (key : SockKey) (tsock : Nat) :
    Option (U16 × PortSt) :=
  let r := if s.portBlocks.length = 0 then (0, s)
    else
      let t := s.readTsc
      bindBlocksLoop key tsock s.portBlocks.length ((t.1 >>> 2) % s.portBlocks.length) t.2
  if r.1 ≠ 0 then some r
  else
    match workerAllocPortBlock range r.2 0 with
    | (none, s) => some (0, s)
    | (some b, s) =>
      let r := bindFromPortBlock s key tsock b
      if r.1 = 0 then none else some r

/-- `port_bind`; without a result an assertion fails, which ends the program. -/
def portBind (range : PortRange) (s : PortSt) (key : SockKey) (tsock : Nat) :
    Option (U16 × PortSt) :=
  if key.localPort ≠ 0 then portBindOnGivenPort range s key tsock
  else portBindOnRandomPort range s key tsock

def portUnbind (s : PortSt) (key : SockKey) : Int × PortSt :=
  match portBlockFind s key.localPort with
  | none => (-1, s)
  | some b =>
    match sockTableDel s.table key with
    | none => (-1, s)
    | some table => (0, portBlockPut { s with table := table } b)

end LibTpa
