/- LibTpa/Worker/Timer
   digest: The timer wheel as the code turns it. -/

import LibTpa.Tcp.Basic
import Mathlib.Data.Prod.Lex
import Mathlib.Logic.Function.Basic

set_option autoImplicit false

namespace LibTpa

abbrev U64 := BitVec 64

def nrSlot : U32 := 2048
def slotMask : U32 := nrSlot - 1
def gragnularity : U64 := 100 * 1000

structure Timer where
  slotIdx : U32 := 0
  active : Bool := false

/-- `struct timer_ctrl`; a slot lists its timers, known by number. -/
structure TimerCtrl where
  nextRun : U64
  lastRun : U64
  currSlotIdx : U32
  slots : U32 → List Nat

structure Wheel where
  ctrl : TimerCtrl
  timers : Nat → Timer

def timerCtrlInit (now : U64) : Wheel where
  ctrl := { nextRun := now + gragnularity, lastRun := now, currSlotIdx := 0, slots := fun _ => [] }
  timers := fun _ => {}

def Wheel.timerStop (w : Wheel) (i : Nat) : Wheel :=
  let t := w.timers i
  if t.active then
    { ctrl := { w.ctrl with
        slots := Function.update w.ctrl.slots t.slotIdx ((w.ctrl.slots t.slotIdx).erase i) }
      timers := Function.update w.timers i { t with active := false } }
  else w

/-- How many slots ahead `timer_start` puts a timer: the quotient is cut to an `int`. -/
def slotOff (c : TimerCtrl) (now expire : U64) : U32 :=
  let off := ((now + expire - c.lastRun + gragnularity - 1) / gragnularity).setWidth 32
  if off.toInt > nrSlot.toInt then nrSlot else off

def Wheel.timerStart (w : Wheel) (i : Nat) (now expire : U64) : Wheel :=
  let expire := if expire = 0 then 1 else expire
  let slotIdx := (slotOff w.ctrl now expire + w.ctrl.currSlotIdx) &&& slotMask
  if (w.timers i).active ∧ slotIdx = (w.timers i).slotIdx then w
  else
    let w := w.timerStop i
    { ctrl := { w.ctrl with
        slots := Function.update w.ctrl.slots slotIdx (w.ctrl.slots slotIdx ++ [i]) }
      timers := Function.update w.timers i { slotIdx := slotIdx, active := true } }

/-- The three assignments at the head of the loop of `timer_process`. -/
def Wheel.tick (w : Wheel) : Wheel :=
  { w with ctrl := { w.ctrl with
      lastRun := w.ctrl.lastRun + gragnularity
      nextRun := w.ctrl.nextRun + gragnularity
      currSlotIdx := w.ctrl.currSlotIdx + 1 } }

def Wheel.currSlot (w : Wheel) : List Nat := w.ctrl.slots (w.ctrl.currSlotIdx &&& slotMask)

/-! A callback is code of its own that may start and stop timers, so `timer_process` is cut
where it calls one. -/

/-- Where the worker is: outside `timer_process`, at the test of its outer loop, at the head
of its inner one, or inside a callback; with `now` and `nr_timeout`. -/
inductive WheelPc
  | idle
  | ticking (now : U64) (nrTimeout : Nat)
  | draining (now : U64) (nrTimeout : Nat)
  | callback (now : U64) (nrTimeout : Nat)
  deriving DecidableEq

inductive WheelLog
  | started (i : Nat) (now expire : Nat)
  | stopped (i : Nat)
  | fired (i : Nat) (now : Nat)
  | processed (now : Nat) (nrTimeout : Nat)

/-- `clock` is the last clock value anyone has read. -/
structure WheelSt where
  wheel : Wheel
  pc : WheelPc
  clock : Nat
  log : List WheelLog

def WheelSt.init (now : U64) : WheelSt := ⟨timerCtrlInit now, .idle, now.toNat, []⟩

inductive WheelEv
  | start (i : Nat) (now expire : U64)
  | stop (i : Nat)
  | process (now : U64)
  /-- `timer_process` goes on. -/
  | turn
  /-- The callback returns. -/
  | ret
  deriving DecidableEq

/-- `timer_process` up to its next test, or up to the call of a callback. -/
def wheelTurn (x : WheelSt) : WheelSt :=
  match x.pc with
  | .ticking now nr =>
    if x.wheel.ctrl.nextRun ≤ now then
      { x with wheel := x.wheel.tick, pc := .draining now nr }
    else { x with pc := .idle, log := x.log ++ [.processed now.toNat nr] }
  | .draining now nr =>
    match x.wheel.currSlot with
    | [] => { x with pc := .ticking now nr }
    | i :: _ =>
      { x with wheel := x.wheel.timerStop i, pc := .callback now nr
               log := x.log ++ [.fired i now.toNat] }
  | _ => x

def wheelStep (x : WheelSt) : WheelEv → WheelSt
  | .start i now expire =>
    { x with wheel := x.wheel.timerStart i now expire, clock := now.toNat
             log := x.log ++ [.started i now.toNat expire.toNat] }
  | .stop i => { x with wheel := x.wheel.timerStop i, log := x.log ++ [.stopped i] }
  | .process now => { x with pc := .ticking now 0, clock := now.toNat }
  | .turn => wheelTurn x
  | .ret =>
    match x.pc with
    | .callback now nr => { x with pc := .draining now (nr + 1) }
    | _ => x

def WheelPc.Open : WheelPc → Prop
  | .idle | .callback _ _ => True
  | .ticking _ _ | .draining _ _ => False

instance : DecidablePred WheelPc.Open
  | .idle | .callback _ _ => isTrue trivial
  | .ticking _ _ | .draining _ _ => isFalse id

/-- The schedules: timers are started and stopped outside `timer_process` and by callbacks,
the clock does not go back, and no timer is to run later than TCP asks for. -/
def WheelEv.Scheduled (x : WheelSt) : WheelEv → Prop
  | .start _ now expire => x.pc.Open ∧ x.clock ≤ now.toNat ∧ expire.toNat ≤ tcpRtoMax
  | .stop _ => x.pc.Open
  | .process now => x.pc = .idle ∧ x.clock ≤ now.toNat
  | .turn => ¬ x.pc.Open
  | .ret => x.pc.Open ∧ x.pc ≠ .idle

instance (x : WheelSt) : (e : WheelEv) → Decidable (e.Scheduled x)
  | .start _ now expire =>
    inferInstanceAs (Decidable (x.pc.Open ∧ x.clock ≤ now.toNat ∧ expire.toNat ≤ tcpRtoMax))
  | .stop _ => inferInstanceAs (Decidable x.pc.Open)
  | .process now => inferInstanceAs (Decidable (x.pc = .idle ∧ x.clock ≤ now.toNat))
  | .turn => inferInstanceAs (Decidable (¬ x.pc.Open))
  | .ret => inferInstanceAs (Decidable (x.pc.Open ∧ x.pc ≠ .idle))

def WheelPc.ahead : WheelPc → Nat
  | .idle | .ticking _ _ => 2048
  | .draining _ _ | .callback _ _ => 2047

/-- The deadline of a started timer is within one turn of the wheel, counted from
`last_run`, and the clock has not come to its end. -/
def WheelEv.Fits (x : WheelSt) : WheelEv → Prop
  | .start _ now expire => now.toNat + max expire.toNat 1 ≤
      x.wheel.ctrl.lastRun.toNat + x.pc.ahead * gragnularity.toNat
  | .process now => now.toNat + gragnularity.toNat < 2 ^ 64
  | _ => True

end LibTpa
