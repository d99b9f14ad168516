/- LibTpa/Worker/FlexFifo
   digest: A ring that overflows into a list is one queue of distinct nodes. -/

import LibTpa.Lib.Tailq
import LibTpa.Lib.RingWindow
import LibTpa.Tcp.Basic

/-!
A node of a `flex_fifo` is in its ring, in its list or in neither, and its word
`tqe_prev` tells which: a ring slot plus one, the address of a list link, or null.
-/

set_option autoImplicit false

namespace LibTpa

open Lib.Tailq Lib.RingWindow Lib.SerialNumber

def ringMaxSize : Nat := 2 ^ 16

/-- `struct flex_fifo` and the words of all nodes. -/
structure FlexFifo (N : Type) where
  listSize : U32
  write : U32
  read : U32
  mask : U32
  size : U32
  ring : Nat → N
  mem : Mem Unit N

/-- The addresses of list links. No object lies that low in memory. -/
structure LinkAddr (N : Type) where
  addr : Place Unit N → Nat
  high : ∀ p, ringMaxSize + 1 < addr p

variable {N : Type} [DecidableEq N] (A : LinkAddr N)

def nodeGetIdx (ff : FlexFifo N) (n : N) : Nat :=
  match ff.mem.prev n with
  | .num k => k
  | .link p => A.addr p

def nodeInRing (ff : FlexFifo N) (n : N) : Bool :=
  0 < nodeGetIdx A ff n && nodeGetIdx A ff n < ringMaxSize + 1

def nodeInList (ff : FlexFifo N) (n : N) : Bool := ringMaxSize + 1 < nodeGetIdx A ff n

def nodeInFifo (ff : FlexFifo N) (n : N) : Bool := nodeGetIdx A ff n ≠ 0

namespace FlexFifo

def setIdx (ff : FlexFifo N) (n : N) (idx : Nat) : FlexFifo N :=
  { ff with mem := ff.mem.setPrev n (.num idx) }

def slot (ff : FlexFifo N) (i : U32) : Nat := (i &&& ff.mask).toNat

end FlexFifo

def flexFifoRingCount (ff : FlexFifo N) : U32 := ff.write - ff.read

def flexFifoRingFreeSize (ff : FlexFifo N) : Int := (ff.size - flexFifoRingCount ff).toInt

def ffDoRingPush (ff : FlexFifo N) (n : N) : FlexFifo N :=
  let i := ff.slot ff.write
  let ff := { ff with ring := Function.update ff.ring i n }.setIdx n (i + 1)
  { ff with write := ff.write + 1 }

def ffRingPush (ff : FlexFifo N) (n : N) : Option (FlexFifo N) :=
  if ff.mem.first () ≠ none ∨ flexFifoRingFreeSize ff = 0 then none else some (ffDoRingPush ff n)

def ffRingPop (ff : FlexFifo N) : Option N × FlexFifo N :=
  if ff.read = ff.write then (none, ff)
  else
    let n := ff.ring (ff.slot ff.read)
    (some n, { ff with read := ff.read + 1 }.setIdx n 0)

def ffRingPeek (ff : FlexFifo N) : Option N :=
  if ff.read = ff.write then none else some (ff.ring (ff.slot ff.read))

/-- The loop of `_ff_ring_remove`. It pops no more than there is. -/
def ffRotate (n : N) : Nat → FlexFifo N → FlexFifo N
  | 0, ff => ff
  | count + 1, ff =>
    match ffRingPop ff with
    | (none, ff) => ff
    | (some curr, ff) => ffRotate n count (if curr = n then ff else ffDoRingPush ff curr)

def ffRingRemove (ff : FlexFifo N) (n : N) : Option (FlexFifo N) :=
  if nodeInRing A ff n then some (ffRotate n (flexFifoRingCount ff).toNat ff) else none

def ffListPush (ff : FlexFifo N) (n : N) : FlexFifo N :=
  { ff with mem := ff.mem.insertTail () n, listSize := ff.listSize + 1 }

def ffDoListRemove (ff : FlexFifo N) (n : N) : FlexFifo N :=
  let ff := { ff with mem := ff.mem.remove () n }.setIdx n 0
  { ff with listSize := ff.listSize - 1 }

def ffListPop (ff : FlexFifo N) : Option N × FlexFifo N :=
  match ff.mem.first () with
  | none => (none, ff)
  | some n => (some n, ffDoListRemove ff n)

def ffListPeek (ff : FlexFifo N) : Option N := ff.mem.first ()

def ffListRemove (ff : FlexFifo N) (n : N) : Option (FlexFifo N) :=
  if nodeInList A ff n then some (ffDoListRemove ff n) else none

def flexFifoPush (ff : FlexFifo N) (n : N) : FlexFifo N :=
  match ffRingPush ff n with
  | some ff => ff
  | none => ffListPush ff n

def flexFifoPushIfNotExist (ff : FlexFifo N) (n : N) : FlexFifo N :=
  if nodeInFifo A ff n then ff else flexFifoPush ff n

def flexFifoPop (ff : FlexFifo N) : Option N × FlexFifo N :=
  match ffRingPop ff with
  | (some n, ff) => (some n, ff)
  | (none, ff) => ffListPop ff

def flexFifoPeek (ff : FlexFifo N) : Option N :=
  match ffRingPeek ff with
  | some n => some n
  | none => ffListPeek ff

/-- `flex_fifo_remove`: zero or minus one, and the fifo. -/
def flexFifoRemove (ff : FlexFifo N) (n : N) : Int × FlexFifo N :=
  match ffRingRemove A ff n with
  | some ff => (0, ff)
  | none =>
    match ffListRemove A ff n with
    | some ff => (0, ff)
    | none => (-1, ff)

def flexFifoCount (ff : FlexFifo N) : U32 := flexFifoRingCount ff + ff.listSize

/-- `flex_fifo_create`, on the memory of the nodes; the ring is not cleared. -/
def flexFifoCreate (m : Mem Unit N) (ring : Nat → N) (size : U32) : Option (FlexFifo N) :=
  if size &&& (size - 1) ≠ 0 ∨ ringMaxSize < size.toNat then none
  else some
    { listSize := 0, write := 0, read := 0, mask := size - 1, size := size, ring := ring
      mem := { m with first := fun _ => none, last := fun h => .head h } }

end LibTpa
