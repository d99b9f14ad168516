/- LibTpa/Neigh/Cache
   digest: The neighbour cache: updates, look-ups and the entry that makes room. -/

import LibTpa.Lib.KeyedList
import LibTpa.Port.Lookup

set_option autoImplicit false

namespace LibTpa

abbrev Mac := BitVec 48

def maxNeighEntry : Nat := 512

structure NeighEntry where
  ip : TpaIp
  mac : Mac
  deriving DecidableEq

structure NeighDev where
  ip4 : U32 := 0
  mask : U32 := 0
  gw4 : U32 := 0
  ip6 : TpaIp := 0
  prefixlen : Nat := 0
  gw6 : TpaIp := 0

/-- What happens to an address: a MAC is learned for it, or its entry makes room. -/
inductive NeighNote
  | learned (ip : TpaIp) (mac : Mac)
  | evicted (ip : TpaIp)
  deriving DecidableEq

/-- `struct neigh_cache`; a pointer to an entry is its index. `rands` is what `rand` is going
to return, and `notes` is what has happened so far. -/
structure NeighCache where
  entries : List NeighEntry := []
  gwNeigh : Option Nat := none
  gw6Neigh : Option Nat := none
  acceptGarp : Bool := false
  rands : List Nat := []
  notes : List NeighNote := []
  deriving DecidableEq

def neighFindLocked (c : NeighCache) (ip : TpaIp) : Option Nat :=
  Lib.KeyedList.index NeighEntry.ip c.entries ip

def neighFind (c : NeighCache) (ip : TpaIp) : Option NeighEntry :=
  Lib.KeyedList.find NeighEntry.ip c.entries ip

/-- The loop of `neigh_evict` on the values of `rand`, with the values that are left; without
a result it has not ended. -/
def neighEvict (c : NeighCache) : List Nat → Option (Nat × List Nat)
  | [] => none
  | r :: rest =>
    let idx := r % c.entries.length
    if c.gwNeigh = some idx ∨ c.gw6Neigh = some idx then neighEvict c rest else some (idx, rest)

def neighAdd (c : NeighCache) (ip : TpaIp) (mac : Mac) : Option NeighCache :=
  if c.entries.length = maxNeighEntry then
    match neighEvict c c.rands with
    | none => none
    | some (idx, rands) =>
      some { c with
        entries := c.entries.set idx ⟨ip, mac⟩
        rands := rands
        notes := c.notes ++ (c.entries[idx]?.map fun e => NeighNote.evicted e.ip).toList }
  else some { c with entries := c.entries ++ [⟨ip, mac⟩] }

/-- The pointers that `neigh_update` sets: to the entry as it was found before the update. -/
def neighSetGw (dev : NeighDev) (c : NeighCache) (ip : TpaIp) (entry : Option Nat) : NeighCache :=
  if tpaIpIsIpv4 ip then
    if tpaIpGetIpv4 ip = dev.gw4 then { c with gwNeigh := entry } else c
  else if ip = dev.gw6 then { c with gw6Neigh := entry }
  else c

def neighUpdate (dev : NeighDev) (c : NeighCache) (ip : TpaIp) (mac : Mac) : Option NeighCache :=
  if mac = 0 then some c
  else
    let entry := neighFindLocked c ip
    let c' := match entry with
      | none => neighAdd c ip mac
      | some i => some { c with entries := c.entries.set i ⟨ip, mac⟩ }
    c'.map fun c' =>
      neighSetGw dev { c' with notes := c'.notes ++ [.learned ip mac] } ip entry

def cpuToBe64 (x : BitVec 64) : BitVec 64 :=
  x.extractLsb' 0 8 ++ x.extractLsb' 8 8 ++ x.extractLsb' 16 8 ++ x.extractLsb' 24 8 ++
    x.extractLsb' 32 8 ++ x.extractLsb' 40 8 ++ x.extractLsb' 48 8 ++ x.extractLsb' 56 8

/-- A right shift of a 64-bit word by `count`. C leaves a shift by the whole width undefined; the
machine looks at the low six bits of the count. -/
def shiftRight64 (x : BitVec 64) (count : Nat) : BitVec 64 := x >>> (count % 64)

def sameBits (a b : BitVec 64) (prefixlen : Nat) : Bool :=
  decide (shiftRight64 (cpuToBe64 a) (64 - prefixlen) = shiftRight64 (cpuToBe64 b) (64 - prefixlen))

def inSameSubnet (a b : TpaIp) (prefixlen : Nat) : Bool :=
  if prefixlen > 64 then
    decide (a.extractLsb' 0 64 = b.extractLsb' 0 64) &&
      sameBits (a.extractLsb' 64 64) (b.extractLsb' 64 64) (prefixlen - 64)
  else sameBits (a.extractLsb' 0 64) (b.extractLsb' 0 64) prefixlen

def neighTargetIp (dev : NeighDev) (ip : TpaIp) : TpaIp :=
  if tpaIpIsIpv4 ip then
    if tpaIpGetIpv4 ip &&& dev.mask ≠ dev.ip4 &&& dev.mask then tpaIpSetIpv4 dev.gw4 else ip
  else if inSameSubnet dev.ip6 ip dev.prefixlen then ip
  else dev.gw6

def doNeighLookup (c : NeighCache) (ip : TpaIp) : Option (Option Mac × NeighCache) :=
  match neighFind c ip with
  | none => (neighAdd c ip 0).map fun c => (none, c)
  | some entry => some (if entry.mac = 0 then none else some entry.mac, c)

/-- `neigh_lookup`, without the solicitation that it sends. -/
def neighLookup (dev : NeighDev) (c : NeighCache) (ip : TpaIp) : Option (Option Mac × NeighCache) :=
  doNeighLookup c (neighTargetIp dev ip)

end LibTpa
