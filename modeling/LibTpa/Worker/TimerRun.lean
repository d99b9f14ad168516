/- LibTpa/Worker/TimerRun
   digest: Callbacks run once, in time and never early, while deadlines fit the wheel. -/

import LibTpa.Worker.Timer
import LibTpa.Lib.Run

set_option autoImplicit false

namespace LibTpa

open Lib.Run

/-! The slot arithmetic. -/

def slotAt (curr : U32) (k : Nat) : U32 := (BitVec.ofNat 32 k + curr) &&& slotMask

theorem and_slotMask (x : U32) : (x &&& slotMask).toNat = x.toNat % 2048 := by
  rw [BitVec.toNat_and, show slotMask.toNat = 2 ^ 11 - 1 from rfl, Nat.and_two_pow_sub_one_eq_mod]

theorem slotAt_toNat (curr : U32) (k : Nat) : (slotAt curr k).toNat = (curr.toNat + k) % 2048 := by
  unfold slotAt
  rw [and_slotMask, BitVec.toNat_add, BitVec.toNat_ofNat]
  omega

theorem slotAt_zero (curr : U32) : slotAt curr 0 = curr &&& slotMask := by
  apply BitVec.eq_of_toNat_eq
  rw [slotAt_toNat, and_slotMask, Nat.add_zero]

theorem slotAt_succ (curr : U32) (k : Nat) : slotAt (curr + 1) k = slotAt curr (k + 1) := by
  apply BitVec.eq_of_toNat_eq
  rw [slotAt_toNat, slotAt_toNat, BitVec.toNat_add]
  have : (1 : U32).toNat = 1 := rfl
  omega

theorem slotAt_inj (curr : U32) (lo : Nat) {k l : Nat} (hk : lo ≤ k)
    (hk' : k < lo + 2048) (hl : lo ≤ l) (hl' : l < lo + 2048) (h : slotAt curr k = slotAt curr l) :
    k = l := by
  have h := congrArg BitVec.toNat h
  rw [slotAt_toNat, slotAt_toNat] at h
  omega

theorem gragnularity_toNat : gragnularity.toNat = 100000 := rfl

theorem ticks_roundUp {d : Nat} (h0 : 0 < d) (hd : d ≤ 204800000) :
    ∃ k, k = (d + 99999) / 100000 ∧ 1 ≤ k ∧ k ≤ 2048 ∧ d ≤ k * 100000 ∧
      k * 100000 < d + 100000 := by
  obtain ⟨k, hk⟩ : ∃ k, k = (d + 99999) / 100000 := ⟨_, rfl⟩
  exact ⟨k, hk, by omega, by omega, by omega, by omega⟩

theorem deadline_toNat {now expire last g : U64} {d : Nat}
    (hd : now.toNat + expire.toNat = last.toNat + d) (h : d ≤ 204800000) (hg : g.toNat = 100000) :
    (now + expire - last + g - 1).toNat = d + 99999 := by
  have h0 : (now + expire - last).toNat = d := by
    have hlt := last.isLt
    rw [BitVec.toNat_sub, BitVec.toNat_add]
    omega
  have h1 : (now + expire - last + g).toNat = d + 100000 := by
    rw [BitVec.toNat_add, h0, hg]
    omega
  have h2 : (1 : U64).toNat = 1 := rfl
  rw [BitVec.toNat_sub, h1, h2]
  omega

/-- Where `timer_start` puts a timer whose deadline fits: at the first tick that is not early. -/
theorem slotOff_fits (c : TimerCtrl) (now expire : U64)
    (hpos : c.lastRun.toNat < now.toNat + expire.toNat)
    (hfit : now.toNat + expire.toNat ≤ c.lastRun.toNat + 2048 * gragnularity.toNat) :
    ∃ k, 1 ≤ k ∧ slotOff c now expire = BitVec.ofNat 32 k ∧
      now.toNat + expire.toNat ≤ c.lastRun.toNat + k * gragnularity.toNat ∧
      c.lastRun.toNat + k * gragnularity.toNat < now.toNat + expire.toNat + gragnularity.toNat := by
  rw [show 2048 * gragnularity.toNat = 204800000 from rfl] at hfit
  obtain ⟨d, hd⟩ := Nat.exists_eq_add_of_le hpos.le
  obtain ⟨k, hk, h1, h2, h3, h4⟩ := ticks_roundUp (d := d) (by omega) (by omega)
  have hlo : now.toNat + expire.toNat ≤ c.lastRun.toNat + k * 100000 := by omega
  have hhi : c.lastRun.toNat + k * 100000 < now.toNat + expire.toNat + 100000 := by omega
  have hsum := deadline_toNat hd (by omega) gragnularity_toNat
  have hoff : ((now + expire - c.lastRun + gragnularity - 1) / gragnularity).setWidth 32 =
      BitVec.ofNat 32 k := by
    apply BitVec.eq_of_toNat_eq
    rw [BitVec.toNat_setWidth, BitVec.toNat_udiv, hsum, gragnularity_toNat, ← hk,
      BitVec.toNat_ofNat]
  refine ⟨k, h1, ?_, hlo, hhi⟩
  unfold slotOff
  rw [hoff, if_neg]
  rw [BitVec.toInt_ofNat', Int.bmod_eq_of_le (by omega) (by omega)]
  have : nrSlot.toInt = 2048 := rfl
  omega

/-! The history of a timer. -/

/-- The start of a timer that is neither stopped, nor run, nor replaced by a later one. -/
def standing (i : Nat) : List WheelLog → Option (Nat × Nat) :=
  List.foldl (fun acc e => match e with
    | .started j now expire => if j = i then some (now, expire) else acc
    | .stopped j => if j = i then none else acc
    | .fired j _ => if j = i then none else acc
    | .processed _ _ => acc) none

/-- A callback runs for a standing start and not before its time, and a `timer_process`
that returns has left no start overdue by a tick. -/
def WheelLogged (before : List WheelLog) : WheelLog → Prop
  | .fired i now => ∃ start expire, standing i before = some (start, expire) ∧ start + expire ≤ now
  | .processed now _ => ∀ i start expire, standing i before = some (start, expire) →
      now < start + expire + gragnularity.toNat
  | _ => True

theorem standing_snoc (i : Nat) (log : List WheelLog) (e : WheelLog) :
    standing i (log ++ [e]) = match e with
      | .started j now expire => if j = i then some (now, expire) else standing i log
      | .stopped j => if j = i then none else standing i log
      | .fired j _ => if j = i then none else standing i log
      | .processed _ _ => standing i log := by
  unfold standing
  rw [List.foldl_append]
  rfl

/-! What `timer_start` and `timer_stop` do to the slots. -/

def Wheel.Sorted (w : Wheel) : Prop :=
  ∀ s i, (w.ctrl.slots s).count i = if (w.timers i).active = true ∧
    (w.timers i).slotIdx = s then 1 else 0

namespace Wheel

variable {w : Wheel} {i j : Nat}

theorem timerStop_ctrl (w : Wheel) (i : Nat) :
    (w.timerStop i).ctrl = { w.ctrl with slots := (w.timerStop i).ctrl.slots } := by
  unfold timerStop
  dsimp only
  split <;> rfl

theorem timerStop_inactive (w : Wheel) (i : Nat) : ((w.timerStop i).timers i).active = false := by
  unfold timerStop
  dsimp only
  split
  · simp
  · next h => simpa using h

theorem timerStop_other (w : Wheel) (h : j ≠ i) : (w.timerStop i).timers j = w.timers j := by
  unfold timerStop
  dsimp only
  split
  · exact Function.update_of_ne h ..
  · rfl

theorem Sorted.timerStop (h : w.Sorted) (i : Nat) : (w.timerStop i).Sorted := by
  intro s j
  have hj := h s j
  unfold Wheel.timerStop
  dsimp only
  split
  swap
  · exact hj
  next hi =>
  dsimp only
  by_cases hs : s = (w.timers i).slotIdx
  · subst hs
    rw [Function.update_self]
    by_cases hji : j = i
    · subst hji
      simp [List.count_erase_self, hj, hi]
    · simp only [List.count_erase_of_ne hji, hj, Function.update_of_ne hji]
  · rw [Function.update_of_ne hs, hj]
    by_cases hji : j = i
    · subst hji
      simp [Ne.symm hs]
    · simp only [Function.update_of_ne hji]

theorem Sorted.insert (h : w.Sorted) (hi : (w.timers i).active = false) (idx : U32) :
    Sorted { ctrl := { w.ctrl with
               slots := Function.update w.ctrl.slots idx (w.ctrl.slots idx ++ [i]) }
             timers := Function.update w.timers i { slotIdx := idx, active := true } } := by
  intro s j
  have hj := h s j
  by_cases hji : j = i
  · subst hji
    by_cases hs : s = idx
    · subst hs
      simp [hj, hi]
    · simp [Function.update_of_ne hs, hj, hi, Ne.symm hs]
  · simp only [Function.update_of_ne hji]
    by_cases hs : s = idx
    · subst hs
      simp [hj, Ne.symm hji]
    · rw [Function.update_of_ne hs, hj]

def startSlot (w : Wheel) (now expire : U64) : U32 :=
  (slotOff w.ctrl now (if expire = 0 then 1 else expire) + w.ctrl.currSlotIdx) &&& slotMask

theorem timerStart_ctrl (w : Wheel) (i : Nat) (now expire : U64) :
    (w.timerStart i now expire).ctrl =
      { w.ctrl with slots := (w.timerStart i now expire).ctrl.slots } := by
  unfold timerStart
  dsimp only
  generalize (if expire = 0 then 1 else expire) = expire'
  split
  · rfl
  · rw [timerStop_ctrl]

theorem timerStart_self (w : Wheel) (i : Nat) (now expire : U64) :
    (w.timerStart i now expire).timers i =
      { slotIdx := w.startSlot now expire, active := true } := by
  unfold timerStart startSlot
  dsimp only
  generalize (if expire = 0 then 1 else expire) = expire'
  split
  · next h =>
    rw [h.2, ← h.1]
  · exact Function.update_self ..

theorem timerStart_other (w : Wheel) (now expire : U64) (h : j ≠ i) :
    (w.timerStart i now expire).timers j = w.timers j := by
  unfold timerStart
  dsimp only
  generalize (if expire = 0 then 1 else expire) = expire'
  split
  · rfl
  · dsimp only
    rw [Function.update_of_ne h]
    exact w.timerStop_other h

theorem Sorted.timerStart (h : w.Sorted) (i : Nat) (now expire : U64) :
    (w.timerStart i now expire).Sorted := by
  unfold Wheel.timerStart
  dsimp only
  generalize (if expire = 0 then 1 else expire) = expire'
  split
  · exact h
  · exact (h.timerStop i).insert (w.timerStop_inactive i) _

end Wheel

/-- A timer in `slot` is due at the tick `k` ahead, the first one that is not early. -/
structure Placed (c : TimerCtrl) (lo : Nat) (slot : U32) (start expire : Nat) (k : Nat) : Prop where
  ge : lo ≤ k
  lt : k < lo + 2048
  slot_eq : slot = slotAt c.currSlotIdx k
  not_early : start + max expire 1 ≤ c.lastRun.toNat + k * gragnularity.toNat
  in_time : c.lastRun.toNat + k * gragnularity.toNat < start + max expire 1 + gragnularity.toNat

def WheelPc.nearest : WheelPc → Nat
  | .idle | .ticking _ _ => 1
  | .draining _ _ | .callback _ _ => 0

def WheelPc.now? : WheelPc → Option U64
  | .idle => none
  | .ticking now _ | .draining now _ | .callback now _ => some now

structure WheelInv (x : WheelSt) : Prop where
  sorted : x.wheel.Sorted
  next : x.wheel.ctrl.nextRun.toNat = x.wheel.ctrl.lastRun.toNat + gragnularity.toNat
  behind : x.wheel.ctrl.lastRun.toNat ≤ x.clock
  processing : ∀ now, x.pc.now? = some now → x.wheel.ctrl.lastRun.toNat ≤ now.toNat ∧
    now.toNat ≤ x.clock ∧ now.toNat + gragnularity.toNat < 2 ^ 64
  placed : ∀ i, (x.wheel.timers i).active = true → ∃ start expire k,
    standing i x.log = some (start, expire) ∧
      Placed x.wheel.ctrl x.pc.nearest (x.wheel.timers i).slotIdx start expire k
  quiet : ∀ i, (x.wheel.timers i).active = false → standing i x.log = none
  logged : Always WheelLogged x.log

namespace WheelInv

variable {x : WheelSt} {i : Nat}

theorem touch (h : WheelInv x) {w : Wheel} {pc : WheelPc} {clock : Nat} {e : WheelLog}
    (hs : w.Sorted) (hc : w.ctrl = { x.wheel.ctrl with slots := w.ctrl.slots })
    (hw : ∀ j, j ≠ i → w.timers j = x.wheel.timers j) (hpc : pc.nearest = x.pc.nearest)
    (hnow : pc.now? = x.pc.now?) (hclock : x.clock ≤ clock)
    (hst : ∀ j, j ≠ i → standing j (x.log ++ [e]) = standing j x.log)
    (hon : (w.timers i).active = true → ∃ start expire k,
      standing i (x.log ++ [e]) = some (start, expire) ∧
        Placed x.wheel.ctrl x.pc.nearest (w.timers i).slotIdx start expire k)
    (hoff : (w.timers i).active = false → standing i (x.log ++ [e]) = none)
    (hlog : WheelLogged x.log e) : WheelInv ⟨w, pc, clock, x.log ++ [e]⟩ := by
  have hlast : w.ctrl.lastRun = x.wheel.ctrl.lastRun := by rw [hc]
  have hplace : ∀ {slot start expire k}, Placed x.wheel.ctrl x.pc.nearest slot start expire k →
      Placed w.ctrl pc.nearest slot start expire k := by
    intro slot start expire k hk
    rw [hpc, hc]
    exact ⟨hk.ge, hk.lt, hk.slot_eq, hk.not_early, hk.in_time⟩
  refine ⟨hs, ?_, ?_, fun now hn => ?_, fun j hj => ?_, fun j hj => ?_, h.logged.snoc hlog⟩
  · rw [hc]
    exact h.next
  · rw [hlast]
    exact h.behind.trans hclock
  · obtain ⟨h1, h2, h3⟩ := h.processing now (hnow ▸ hn)
    refine ⟨?_, h2.trans hclock, h3⟩
    rwa [hlast]
  · by_cases hji : j = i
    · subst hji
      obtain ⟨start, expire, k, h1, h2⟩ := hon hj
      exact ⟨start, expire, k, h1, hplace h2⟩
    · rw [hw j hji] at hj ⊢
      obtain ⟨start, expire, k, h1, h2⟩ := h.placed j hj
      exact ⟨start, expire, k, (hst j hji).trans h1, hplace h2⟩
  · by_cases hji : j = i
    · subst hji
      exact hoff hj
    · rw [hw j hji] at hj
      exact (hst j hji).trans (h.quiet j hj)

theorem stop (h : WheelInv x) {pc : WheelPc} {e : WheelLog} (hpc : pc.nearest = x.pc.nearest)
    (hnow : pc.now? = x.pc.now?) (hst : ∀ j, j ≠ i → standing j (x.log ++ [e]) = standing j x.log)
    (hnone : standing i (x.log ++ [e]) = none) (hlog : WheelLogged x.log e) :
    WheelInv ⟨x.wheel.timerStop i, pc, x.clock, x.log ++ [e]⟩ := by
  refine h.touch (h.sorted.timerStop i) (x.wheel.timerStop_ctrl i) (fun j hj =>
    x.wheel.timerStop_other hj)
    hpc hnow le_rfl hst (fun hon => ?_) (fun _ => hnone) hlog
  rw [x.wheel.timerStop_inactive i] at hon
  cases hon

theorem expire_toNat (expire : U64) :
    (if expire = 0 then 1 else expire).toNat = max expire.toNat 1 := by
  split
  · next h0 =>
    subst h0
    rfl
  · next h0 =>
    have : expire.toNat ≠ 0 := fun h => h0 (BitVec.eq_of_toNat_eq h)
    omega

theorem start (h : WheelInv x) {now expire : U64} (hclock : x.clock ≤ now.toNat)
    (hfit : WheelEv.Fits x (.start i now expire)) :
    WheelInv (wheelStep x (.start i now expire)) := by
  have hahead : x.pc.ahead + 1 = x.pc.nearest + 2048 := by cases x.pc <;> rfl
  have hnear : x.pc.nearest ≤ 1 := by cases x.pc <;> simp [WheelPc.nearest]
  have hfit : now.toNat + max expire.toNat 1 ≤
      x.wheel.ctrl.lastRun.toNat + x.pc.ahead * gragnularity.toNat := hfit
  have hb := h.behind
  rw [← expire_toNat, gragnularity_toNat] at hfit
  obtain ⟨k, h1, hoff, hlo, hhi⟩ := slotOff_fits x.wheel.ctrl now
    (if expire = 0 then 1 else expire) (by rw [expire_toNat]; omega)
    (by rw [show 2048 * gragnularity.toNat = 204800000 from rfl]; omega)
  refine h.touch (i := i) (h.sorted.timerStart i now expire) (x.wheel.timerStart_ctrl ..)
    (fun j hj => x.wheel.timerStart_other _ _ hj) rfl rfl hclock (fun j hj => ?_) (fun _ => ?_)
    (fun hon => ?_) trivial
  · rw [standing_snoc]
    exact if_neg (Ne.symm hj)
  · rw [standing_snoc, x.wheel.timerStart_self]
    refine ⟨_, _, k, if_pos rfl, ⟨by omega, ?_, ?_, ?_, ?_⟩⟩
    · rw [gragnularity_toNat] at hhi
      omega
    · unfold Wheel.startSlot slotAt
      rw [hoff]
    · rwa [← expire_toNat]
    · rwa [← expire_toNat]
  · rw [x.wheel.timerStart_self] at hon
    cases hon

theorem tick (h : WheelInv x) {now : U64} {nr : Nat} (hpc : x.pc = .ticking now nr)
    (hle : x.wheel.ctrl.nextRun ≤ now) :
    x.wheel.tick.ctrl.lastRun.toNat = x.wheel.ctrl.lastRun.toNat + gragnularity.toNat ∧
      WheelInv { x with wheel := x.wheel.tick, pc := .draining now nr } := by
  obtain ⟨h1, h2, h3⟩ := h.processing now (by rw [hpc]; rfl)
  have hnext := h.next
  have hle : x.wheel.ctrl.nextRun.toNat ≤ now.toNat := hle
  have hlast : x.wheel.tick.ctrl.lastRun.toNat = x.wheel.ctrl.lastRun.toNat +
    gragnularity.toNat := by
    show (x.wheel.ctrl.lastRun + gragnularity).toNat = _
    rw [BitVec.toNat_add, Nat.mod_eq_of_lt (by omega)]
  have hnext' : x.wheel.tick.ctrl.nextRun.toNat = x.wheel.ctrl.nextRun.toNat +
    gragnularity.toNat := by
    show (x.wheel.ctrl.nextRun + gragnularity).toNat = _
    rw [BitVec.toNat_add, Nat.mod_eq_of_lt (by omega)]
  refine ⟨hlast, fun s i => h.sorted s i, ?_, ?_, fun now' hn => ?_, fun i hi => ?_,
    fun i hi => h.quiet i hi, h.logged⟩
  · rw [hlast, hnext', hnext]
  · rw [hlast, ← hnext]
    exact hle.trans h2
  · cases hn
    rw [hlast, ← hnext]
    exact ⟨hle, h2, h3⟩
  · obtain ⟨start, expire, k, hst, hk⟩ := h.placed i hi
    have hlo := hk.ge
    have hhi := hk.lt
    rw [hpc] at hlo hhi
    obtain ⟨l, rfl⟩ : ∃ l, k = l + 1 := ⟨k - 1, (Nat.succ_pred_eq_of_pos hlo).symm⟩
    refine ⟨start, expire, l, hst, ⟨Nat.zero_le l, Nat.lt_of_succ_lt_succ hhi, ?_, ?_, ?_⟩⟩
    · exact hk.slot_eq.trans (slotAt_succ ..).symm
    · have := hk.not_early
      rw [Nat.succ_mul] at this
      dsimp only
      omega
    · have := hk.in_time
      rw [Nat.succ_mul] at this
      dsimp only
      omega

/-- The slot is drained: what is left on the wheel is due later. -/
theorem drained (h : WheelInv x) {now : U64} {nr : Nat} (hpc : x.pc = .draining now nr)
    (hnil : x.wheel.currSlot = []) : WheelInv { x with pc := .ticking now nr } := by
  refine ⟨h.sorted, h.next, h.behind, fun now' hn => ?_, fun i hi => ?_, h.quiet, h.logged⟩
  · cases hn
    exact h.processing now (by rw [hpc]; rfl)
  · obtain ⟨start, expire, k, hst, hk⟩ := h.placed i hi
    have hhi := hk.lt
    rw [hpc] at hhi
    refine ⟨start, expire, k, hst,
      ⟨?_, Nat.lt_succ_of_lt hhi, hk.slot_eq, hk.not_early, hk.in_time⟩⟩
    by_contra hk1
    -- a timer due now would be in the slot
    have hk0 : k = 0 := by
      change ¬ 1 ≤ k at hk1
      omega
    have hcount := h.sorted (x.wheel.timers i).slotIdx i
    rw [if_pos ⟨hi, rfl⟩, hk.slot_eq, hk0, slotAt_zero] at hcount
    unfold Wheel.currSlot at hnil
    rw [hnil] at hcount
    cases hcount

theorem head_on (h : WheelInv x) {rest : List Nat} (hcons : x.wheel.currSlot = i :: rest) :
    (x.wheel.timers i).active = true ∧
      (x.wheel.timers i).slotIdx = x.wheel.ctrl.currSlotIdx &&& slotMask := by
  have hcount := h.sorted (x.wheel.ctrl.currSlotIdx &&& slotMask) i
  have hpos : 0 < (x.wheel.ctrl.slots (x.wheel.ctrl.currSlotIdx &&& slotMask)).count i := by
    apply List.count_pos_iff.mpr
    unfold Wheel.currSlot at hcons
    rw [hcons]
    exact List.mem_cons_self
  by_contra hno
  rw [if_neg hno] at hcount
  omega

theorem head_due (h : WheelInv x) {now : U64} {nr : Nat} (hpc : x.pc = .draining now nr)
    {rest : List Nat} (hcons : x.wheel.currSlot = i :: rest) :
    ∃ start expire, standing i x.log = some (start, expire) ∧ start + expire ≤ now.toNat := by
  have hon := h.head_on hcons
  obtain ⟨start, expire, k, hst, hk⟩ := h.placed i hon.1
  have hhi := hk.lt
  rw [hpc] at hhi
  have hk0 : k = 0 := by
    refine slotAt_inj x.wheel.ctrl.currSlotIdx 0 (Nat.zero_le k) hhi (Nat.le_refl 0) (by decide) ?_
    rw [← hk.slot_eq, hon.2, slotAt_zero]
  have hle := hk.not_early
  have hnow := (h.processing now (by rw [hpc]; rfl)).1
  subst hk0
  exact ⟨start, expire, hst, by omega⟩

theorem turn (h : WheelInv x) : WheelInv (wheelTurn x) := by
  unfold wheelTurn
  split
  · next now nr hpc =>
    split
    · next hle => exact (h.tick hpc hle).2
    · next hle =>
      have hlt : now.toNat < x.wheel.ctrl.nextRun.toNat := Nat.lt_of_not_le hle
      refine ⟨h.sorted, h.next, h.behind, nofun, fun i hi => ?_, fun i hi => ?_, h.logged.snoc ?_⟩
      · obtain ⟨start, expire, k, hst, hk⟩ := h.placed i hi
        rw [hpc] at hk
        exact ⟨start, expire, k, (standing_snoc ..).trans hst, hk⟩
      · exact (standing_snoc ..).trans (h.quiet i hi)
      · intro i start expire hst
        have hon : (x.wheel.timers i).active = true := by
          by_contra hoff
          rw [h.quiet i (by simpa using hoff)] at hst
          cases hst
        obtain ⟨start', expire', k, hst', hk⟩ := h.placed i hon
        rw [hst] at hst'
        cases hst'
        have h1 := hk.ge
        have h2 := hk.in_time
        have h3 := h.next
        rw [hpc] at h1
        have h4 : gragnularity.toNat ≤ k * gragnularity.toNat := Nat.le_mul_of_pos_left _ h1
        omega
  · next now nr hpc =>
    split
    · next hnil => exact h.drained hpc hnil
    · next i rest hcons =>
      refine h.stop (i := i) (by rw [hpc]; rfl) (by rw [hpc]; rfl) (fun j hj =>
        ?_) ?_ (h.head_due hpc hcons)
      · rw [standing_snoc]
        exact if_neg (Ne.symm hj)
      · rw [standing_snoc]
        exact if_pos rfl
  · exact h

theorem step (h : WheelInv x) {e : WheelEv} (hs : e.Scheduled x) (hf : e.Fits x) :
    WheelInv (wheelStep x e) := by
  cases e with
  | start i now expire => exact h.start hs.2.1 hf
  | stop i =>
    refine h.stop (i := i) rfl rfl (fun j hj => ?_) ?_ trivial
    · rw [standing_snoc]
      exact if_neg (Ne.symm hj)
    · rw [standing_snoc]
      exact if_pos rfl
  | process now =>
    refine ⟨h.sorted, h.next, h.behind.trans hs.2, fun now' hn => ?_, fun i hi => ?_,
      h.quiet, h.logged⟩
    · cases hn
      exact ⟨h.behind.trans hs.2, le_rfl, hf⟩
    · have := h.placed i hi
      rwa [hs.1] at this
  | turn => exact h.turn
  | ret =>
    rw [wheelStep]
    split
    · next now nr hpc =>
      refine ⟨h.sorted, h.next, h.behind, fun now' hn => ?_, fun i hi => ?_, h.quiet, h.logged⟩
      · exact h.processing now' (by rw [hpc]; exact hn)
      · have := h.placed i hi
        rwa [hpc] at this
    · exact h

end WheelInv

/-! `timer_process` comes to an end, if its callbacks do. -/

/-- What `timer_process` has still to do: the ticks to catch up with, then the timers of
the slot. -/
def WheelSt.work (x : WheelSt) : Nat ×ₗ Nat :=
  match x.pc with
  | .idle => toLex (0, 0)
  | .ticking now _ => toLex ((now.toNat - x.wheel.ctrl.lastRun.toNat) / gragnularity.toNat, 0)
  | .draining now _ | .callback now _ =>
    toLex ((now.toNat - x.wheel.ctrl.lastRun.toNat) / gragnularity.toNat,
      x.wheel.currSlot.length + 1)

def TurnProgress (x : WheelSt) (e : WheelEv) : Prop :=
  if e = .turn then (wheelStep x e).pc = .idle ∨ (wheelStep x e).work < x.work
  else (wheelStep x e).work ≤ x.work

theorem Wheel.timerStop_length (w : Wheel) (i : Nat) (s : U32) :
    ((w.timerStop i).ctrl.slots s).length ≤ (w.ctrl.slots s).length := by
  unfold timerStop
  dsimp only
  split
  · dsimp only
    by_cases hs : s = (w.timers i).slotIdx
    · subst hs
      rw [Function.update_self]
      exact List.length_erase_le
    · rw [Function.update_of_ne hs]
  · exact le_rfl

theorem Wheel.timerStart_length (w : Wheel) (i : Nat) (now expire : U64) {s : U32}
    (hs : s ≠ w.startSlot now expire) :
    ((w.timerStart i now expire).ctrl.slots s).length ≤ (w.ctrl.slots s).length := by
  unfold startSlot at hs
  unfold timerStart
  dsimp only
  generalize (if expire = 0 then 1 else expire) = expire' at hs
  split
  · exact le_rfl
  · dsimp only
    rw [Function.update_of_ne hs]
    exact w.timerStop_length i s

namespace WheelInv

variable {x : WheelSt} {i : Nat}

theorem turn_progress (h : WheelInv x) (hopen : ¬ x.pc.Open) :
    (wheelTurn x).pc = .idle ∨ (wheelTurn x).work < x.work := by
  unfold wheelTurn
  split
  · next now nr hpc =>
    split
    · next hle =>
      refine .inr ?_
      obtain ⟨hlast, -⟩ := h.tick hpc hle
      have hle : x.wheel.ctrl.nextRun.toNat ≤ now.toNat := hle
      have hnext := h.next
      rw [gragnularity_toNat] at hlast hnext
      simp only [WheelSt.work, hpc, Prod.Lex.toLex_lt_toLex]
      rw [hlast, gragnularity_toNat]
      omega
    · exact .inl rfl
  · next now nr hpc =>
    refine .inr ?_
    split
    · simp [WheelSt.work, hpc, Prod.Lex.toLex_lt_toLex]
    · next i rest hcons =>
      obtain ⟨hact, hidx⟩ := h.head_on hcons
      have hrest : (x.wheel.timerStop i).currSlot = rest := by
        unfold Wheel.currSlot at hcons ⊢
        unfold Wheel.timerStop
        simp only [hact, if_true, hidx, Function.update_self, hcons, List.erase_cons_head]
      have hlast : (x.wheel.timerStop i).ctrl.lastRun = x.wheel.ctrl.lastRun := by
        rw [x.wheel.timerStop_ctrl]
      simp [WheelSt.work, hpc, Prod.Lex.toLex_lt_toLex, hrest, hcons, hlast]
  · next hpc1 hpc2 =>
    exfalso
    apply hopen
    cases hpc : x.pc with
    | idle => trivial
    | callback now nr => trivial
    | ticking now nr => exact absurd hpc (hpc1 now nr)
    | draining now nr => exact absurd hpc (hpc2 now nr)

/-- Inside `timer_process` no call puts a timer into the slot that is drained. -/
theorem start_length (h : WheelInv x) {now expire : U64} {now' : U64} {nr : Nat}
    (hpc : x.pc = .callback now' nr) (hclock : x.clock ≤ now.toNat)
    (hfit : WheelEv.Fits x (.start i now expire)) :
    (x.wheel.timerStart i now expire).currSlot.length ≤ x.wheel.currSlot.length := by
  have hself := x.wheel.timerStart_self i now expire
  obtain ⟨start, expire', k, hst, hk⟩ := (h.start hclock hfit).placed i (by
    show ((x.wheel.timerStart i now expire).timers i).active = true
    rw [hself])
  change standing i (x.log ++ [.started i now.toNat expire.toNat]) = _ at hst
  rw [standing_snoc] at hst
  dsimp only at hst
  rw [if_pos rfl] at hst
  cases hst
  have hctrl := x.wheel.timerStart_ctrl i now expire
  have hslot := hk.slot_eq
  have hlt := hk.lt
  have hle := hk.not_early
  have hb := h.behind
  simp only [wheelStep, hself, hpc, WheelPc.nearest] at hslot hlt hle
  rw [hctrl] at hslot hle
  have hne : x.wheel.ctrl.currSlotIdx &&& slotMask ≠ x.wheel.startSlot now expire := by
    intro heq
    rw [← heq, ← slotAt_zero] at hslot
    have hk0 := slotAt_inj _ 0 (Nat.le_refl 0) (by decide) (Nat.zero_le k) hlt hslot
    subst hk0
    dsimp only at hle
    omega
  have hlen := x.wheel.timerStart_length i now expire hne
  unfold Wheel.currSlot
  rwa [show (x.wheel.timerStart i now expire).ctrl.currSlotIdx =
    x.wheel.ctrl.currSlotIdx by rw [hctrl]]

theorem progress (h : WheelInv x) {e : WheelEv} (hin : x.pc ≠ .idle) (hs : e.Scheduled x)
    (hf : e.Fits x) :
    TurnProgress x e := by
  unfold TurnProgress
  by_cases ht : e = .turn
  · subst ht
    exact h.turn_progress hs
  have hcb : ∃ now nr, x.pc = .callback now nr := by
    have hopen : x.pc.Open := by
      cases e with
      | start i now expire => exact hs.1
      | stop i => exact hs
      | process now => exact absurd hs.1 hin
      | turn => exact absurd rfl ht
      | ret => exact hs.1
    cases hpc : x.pc with
    | idle => exact absurd hpc hin
    | callback now nr => exact ⟨now, nr, rfl⟩
    | ticking now nr => rw [hpc] at hopen; exact hopen.elim
    | draining now nr => rw [hpc] at hopen; exact hopen.elim
  obtain ⟨now', nr, hpc⟩ := hcb
  cases e with
  | start i now expire =>
    have hlen := h.start_length hpc hs.2.1 hf
    have hlast : (x.wheel.timerStart i now expire).ctrl.lastRun = x.wheel.ctrl.lastRun := by
      rw [x.wheel.timerStart_ctrl]
    simp only [WheelSt.work, wheelStep, hpc, hlast]
    exact Prod.Lex.toLex_le_toLex.mpr (.inr ⟨rfl, Nat.add_le_add_right hlen 1⟩)
  | stop i =>
    have hctrl := x.wheel.timerStop_ctrl i
    have hlen : (x.wheel.timerStop i).currSlot.length ≤ x.wheel.currSlot.length := by
      unfold Wheel.currSlot
      rw [show (x.wheel.timerStop i).ctrl.currSlotIdx = x.wheel.ctrl.currSlotIdx by rw [hctrl]]
      exact x.wheel.timerStop_length i _
    have hlast : (x.wheel.timerStop i).ctrl.lastRun = x.wheel.ctrl.lastRun := by rw [hctrl]
    simp only [WheelSt.work, wheelStep, hpc, hlast]
    exact Prod.Lex.toLex_le_toLex.mpr (.inr ⟨rfl, Nat.add_le_add_right hlen 1⟩)
  | process now => exact absurd hs.1 hin
  | turn => exact absurd rfl ht
  | ret =>
    simp only [WheelSt.work, wheelStep, hpc]
    exact le_rfl

theorem init {now : U64} (h : now.toNat + gragnularity.toNat < 2 ^ 64) : WheelInv (.init now) := by
  refine ⟨fun s i => ?_, ?_, le_rfl, nofun, fun i hi => ?_, fun i _ => rfl, .nil⟩
  · simp [WheelSt.init, timerCtrlInit]
  · show (now + gragnularity).toNat = _
    rw [BitVec.toNat_add, Nat.mod_eq_of_lt h]
    rfl
  · cases hi

end WheelInv

/-- The law of the wheel: an active timer is in one slot and once there, exactly the
timers with a standing start are active, callbacks run once for a start, neither early
nor a tick late, and `timer_process` ends. -/
structure WheelLaw (x : WheelSt) : Prop where
  one_slot : ∀ s i, (x.wheel.ctrl.slots s).count i =
    if (x.wheel.timers i).active = true ∧ (x.wheel.timers i).slotIdx = s then 1 else 0
  active_iff : ∀ i, (x.wheel.timers i).active = true ↔ (standing i x.log).isSome
  fired : ∀ before i now after, x.log = before ++ .fired i now :: after →
    ∃ start expire, standing i before = some (start, expire) ∧ start + expire ≤ now
  processed : ∀ before now nr after, x.log = before ++ .processed now nr :: after →
    ∀ i start expire, standing i before = some (start, expire) →
      now < start + expire + gragnularity.toNat
  ends : ∀ e : WheelEv, x.pc ≠ .idle → e.Scheduled x → e.Fits x → TurnProgress x e

/-- Over every schedule whose deadlines fit the wheel, its law holds. -/
theorem timerWheel_run {now : U64} (hnow : now.toNat + gragnularity.toNat < 2 ^ 64) {x : WheelSt}
    (hx : Reach wheelStep (fun x e => e.Scheduled x ∧ e.Fits x) (.init now) x) : WheelLaw x := by
  have h : WheelInv x := hx.invariant (.init hnow) fun _ _ h ok => h.step ok.1 ok.2
  refine ⟨h.sorted, fun i => ⟨fun hi => ?_, fun hi => ?_⟩, fun before i now after hl =>
    h.logged _ _ _ hl,
    fun before now nr after hl => h.logged _ _ _ hl, fun e hin hs hf => h.progress hin hs hf⟩
  · obtain ⟨start, expire, k, hst, -⟩ := h.placed i hi
    rw [hst]
    rfl
  · by_contra hoff
    rw [h.quiet i (by simpa using hoff)] at hi
    cases hi

def oneTick : List WheelEv := [.start 0 0 1, .process 100000, .turn, .turn, .ret, .turn, .turn]

theorem timerWheel_run_oneTick :
    WheelLaw (exec wheelStep (.init 0) oneTick) ∧
      (exec wheelStep (.init 0) oneTick).log =
        [.started 0 0 1, .fired 0 100000, .processed 100000 1] := by
  refine ⟨timerWheel_run (by decide) (Reach.refl.exec (l := oneTick) ?_), rfl⟩
  refine ⟨⟨by decide, ?_⟩, ⟨by decide, ?_⟩, ⟨by decide, trivial⟩, ⟨by decide, trivial⟩,
    ⟨by decide, trivial⟩,
    ⟨by decide, trivial⟩, ⟨by decide, trivial⟩, trivial⟩
  · show _ ≤ _
    decide
  · show _ < _
    decide

/-- The wheel is 100 seconds behind when a callback starts its timer anew, for 110 seconds. -/
def lagging : List WheelEv :=
  [.start 0 0 1, .process 100000000, .turn, .turn, .start 0 100000000 110000000, .ret, .turn]

/-- The deadline is cut to one turn of the wheel, the timer lands in the slot that is
being drained, and its callback runs at once. -/
theorem lagging_fires_early :
    Admitted wheelStep (fun x e => e.Scheduled x) (.init 0) lagging ∧
      ¬ WheelLaw (exec wheelStep (.init 0) lagging) := by
  refine ⟨⟨by decide, by decide, by decide, by decide, by decide, by decide, by decide, trivial⟩,
    fun h => ?_⟩
  obtain ⟨start, expire, hst, hle⟩ := h.fired
    [.started 0 0 1, .fired 0 100000000, .started 0 100000000 110000000] 0 100000000 [] rfl
  rw [show standing 0 [.started 0 0 1, .fired 0 100000000, .started 0 100000000 110000000] =
    some (100000000, 110000000) from rfl] at hst
  cases hst
  exact absurd hle (by decide)

end LibTpa
