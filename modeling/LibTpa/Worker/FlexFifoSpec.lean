/- LibTpa/Worker/FlexFifoSpec
   digest: The operations of a flex fifo are those of a list. -/

import LibTpa.Worker.FlexFifo
import Mathlib.Data.Nat.Bitwise

set_option autoImplicit false
set_option linter.unusedSectionVars false

namespace LibTpa

open Lib.Tailq Lib.RingWindow Lib.SerialNumber

variable {N : Type} [DecidableEq N] {A : LinkAddr N} {ff ff' : FlexFifo N} {r t l : List N} {n : N}

structure FlexFifo.SizeOk (ff : FlexFifo N) : Prop where
  mask : ff.mask = ff.size - 1
  size : ff.size.toNat = 0 ∨ ∃ k ≤ 16, ff.size.toNat = 2 ^ k

namespace FlexFifo.SizeOk

theorem le (h : ff.SizeOk) : ff.size.toNat ≤ ringMaxSize := by
  rcases h.size with h | ⟨k, hk, h⟩
  · rw [h]
    exact Nat.zero_le _
  · rw [h]
    exact Nat.pow_le_pow_right (by decide) hk

theorem slot_eq (h : ff.SizeOk) (i : U32) : ff.slot i = maskSlot ff.size.toNat i := by
  rw [slot, maskSlot, h.mask, BitVec.ofNat_toNat, BitVec.setWidth_eq]

theorem slot_lt (h : ff.SizeOk) (i : U32) (hs : 0 < ff.size.toNat) : ff.slot i < ff.size.toNat := by
  rcases h.size with h0 | ⟨k, hk, h2⟩
  · omega
  · rw [h.slot_eq, h2, maskSlot_two_pow (by omega)]
    exact Nat.mod_lt _ (Nat.two_pow_pos k)

theorem slot_ne (h : ff.SizeOk) (a : U32) {i j : Nat} (hi : i < ff.size.toNat)
    (hj : j < ff.size.toNat) (hij : i ≠ j) :
    ff.slot (a + BitVec.ofNat 32 i) ≠ ff.slot (a + BitVec.ofNat 32 j) := by
  rw [h.slot_eq, h.slot_eq]
  rcases h.size with h0 | ⟨k, hk, h2⟩
  · omega
  · rw [h2] at hi hj ⊢
    exact apart_two_pow (by omega) a hi hj hij

end FlexFifo.SizeOk

/-- The ring holds the nodes of `r`, oldest first, and each knows its slot. -/
structure RingHolds (ff : FlexFifo N) (r : List N) : Prop where
  ok : ff.SizeOk
  nodup : r.Nodup
  count : ff.write = ff.read + BitVec.ofNat 32 r.length
  le : r.length ≤ ff.size.toNat
  get : ∀ i n, r[i]? = some n → ff.ring (ff.slot (ff.read + BitVec.ofNat 32 i)) = n ∧
    ff.mem.prev n = .num (ff.slot (ff.read + BitVec.ofNat 32 i) + 1)

structure RingFrame (r : List N) (ff ff' : FlexFifo N) : Prop where
  size : ff'.size = ff.size
  listSize : ff'.listSize = ff.listSize
  load : ∀ p, ff'.mem.load p = ff.mem.load p
  last : ff'.mem.last = ff.mem.last
  prev : ∀ n ∉ r, ff'.mem.prev n = ff.mem.prev n

namespace RingFrame

variable {ff'' : FlexFifo N} {r' : List N}

theorem refl (r : List N) (ff : FlexFifo N) : RingFrame r ff ff :=
  ⟨rfl, rfl, fun _ => rfl, rfl, fun _ _ => rfl⟩

theorem trans (h : RingFrame r ff ff') (h' : RingFrame r ff' ff'') : RingFrame r ff ff'' :=
  ⟨h'.size.trans h.size, h'.listSize.trans h.listSize, fun p => (h'.load p).trans (h.load p),
    h'.last.trans h.last, fun n hn => (h'.prev n hn).trans (h.prev n hn)⟩

theorem mono (h : RingFrame r ff ff') (hr : ∀ n ∈ r, n ∈ r') : RingFrame r' ff ff' :=
  ⟨h.size, h.listSize, h.load, h.last, fun n hn => h.prev n fun hm => hn (hr n hm)⟩

theorem holds (h : RingFrame r ff ff') (ht : Holds ff.mem () t) (hd : ∀ n ∈ t, n ∉ r) :
    Holds ff'.mem () t :=
  ht.congr (by rw [h.last]) (fun p _ => h.load p) fun n hn => h.prev n (hd n hn)

end RingFrame

namespace RingHolds

theorem length_lt (h : RingHolds ff r) : r.length < 2 ^ 32 := by
  have h1 := h.ok.le
  have h2 := h.le
  omega

theorem ringCount (h : RingHolds ff r) : flexFifoRingCount ff = BitVec.ofNat 32 r.length := by
  rw [flexFifoRingCount, h.count]
  bv_omega

theorem empty_iff (h : RingHolds ff r) : ff.read = ff.write ↔ r = [] := by
  have hlt := h.length_lt
  rw [← List.length_eq_zero_iff]
  constructor
  · intro he
    have hc := h.ringCount
    rw [flexFifoRingCount, he, BitVec.sub_self] at hc
    bv_omega
  · intro hz
    rw [h.count, hz]
    simp

theorem full_iff (h : RingHolds ff r) : flexFifoRingFreeSize ff = 0 ↔ r.length = ff.size.toNat := by
  have hlt := h.length_lt
  have hle := h.le
  rw [flexFifoRingFreeSize, h.ringCount]
  have hsub : ff.size - BitVec.ofNat 32 r.length = BitVec.ofNat 32 (ff.size.toNat - r.length) := by
    bv_omega
  have hsz := ff.size.isLt
  have hok := h.ok.le
  unfold ringMaxSize at hok
  rw [hsub, BitVec.toInt_ofNat', Int.bmod_eq_of_le (by omega) (by omega)]
  omega

theorem push (h : RingHolds ff r) (hlt : r.length < ff.size.toNat) (hn : n ∉ r) :
    RingHolds (ffDoRingPush ff n) (r ++ [n]) ∧ RingFrame (r ++ [n]) ff (ffDoRingPush ff n) := by
  have hslot : ∀ i, (ffDoRingPush ff n).slot i = ff.slot i := fun _ => rfl
  have hw : ff.slot ff.write = ff.slot (ff.read + BitVec.ofNat 32 r.length) := by rw [h.count]
  refine ⟨⟨⟨h.ok.mask, h.ok.size⟩, ?_, ?_, ?_, ?_⟩,
    ⟨rfl, rfl, fun p => by simp [ffDoRingPush, FlexFifo.setIdx],
    rfl, fun x hx => ?_⟩⟩
  · refine List.nodup_append.mpr ⟨h.nodup, by simp, ?_⟩
    rintro a ha b hb rfl
    rw [List.mem_singleton] at hb
    exact hn (hb ▸ ha)
  · change ff.write + 1 = ff.read + BitVec.ofNat 32 (r ++ [n]).length
    rw [h.count, List.length_append, List.length_singleton, BitVec.ofNat_add, add_assoc]
    rfl
  · change (r ++ [n]).length ≤ ff.size.toNat
    simp only [List.length_append, List.length_singleton]
    omega
  · intro i x hx
    change
      Function.update ff.ring (ff.slot ff.write) n (ff.slot (ff.read + BitVec.ofNat 32 i)) = x ∧
      (ff.mem.setPrev n (.num (ff.slot ff.write + 1))).prev x =
        .num (ff.slot (ff.read + BitVec.ofNat 32 i) + 1)
    by_cases hi : i < r.length
    · rw [List.getElem?_append_left hi] at hx
      obtain ⟨h1, h2⟩ := h.get i x hx
      have hxn : x ≠ n := by
        rintro rfl
        exact hn (List.mem_of_getElem? hx)
      have hne := h.ok.slot_ne ff.read (i := i) (j := r.length) (by omega) hlt (by omega)
      rw [hw, Function.update_of_ne hne, Mem.prev_setPrev_ne _ _ hxn]
      exact ⟨h1, h2⟩
    · rw [List.getElem?_append_right (by omega)] at hx
      have hi0 : i = r.length := by
        have := (List.getElem?_eq_some_iff.mp hx).1
        simp only [List.length_singleton] at this
        omega
      subst hi0
      simp only [Nat.sub_self, List.getElem?_cons_zero, Option.some.injEq] at hx
      subst hx
      rw [hw, Function.update_self, Mem.prev_setPrev_self]
      exact ⟨rfl, rfl⟩
  · have hxn : x ≠ n := by
      rintro rfl
      exact hx (by simp)
    exact Mem.prev_setPrev_ne _ _ hxn

theorem pop (h : RingHolds ff (n :: r)) : ∃ ff', ffRingPop ff = (some n, ff') ∧ RingHolds ff' r ∧
    RingFrame [n] ff ff' ∧ ff'.mem.prev n = .num 0 := by
  have hne : ff.read ≠ ff.write := fun he => by simpa using h.empty_iff.mp he
  obtain ⟨hring, -⟩ := h.get 0 n rfl
  rw [BitVec.add_zero] at hring
  refine ⟨{ ff with read := ff.read + 1 }.setIdx n 0, ?_, ?_, ?_, by simp [FlexFifo.setIdx]⟩
  · rw [ffRingPop, if_neg hne, hring]
  · obtain ⟨hnr, hnd⟩ := List.nodup_cons.mp h.nodup
    have hle := h.le
    have hadd : ∀ i, ff.read + 1 + BitVec.ofNat 32 i = ff.read + BitVec.ofNat 32 (i + 1) := by
      intro i
      rw [add_comm i 1, BitVec.ofNat_add, ← add_assoc]
      rfl
    refine ⟨⟨h.ok.mask, h.ok.size⟩, hnd, ?_, ?_, ?_⟩
    · change ff.write = ff.read + 1 + BitVec.ofNat 32 r.length
      rw [hadd, h.count, List.length_cons]
    · change r.length ≤ ff.size.toNat
      simp only [List.length_cons] at hle
      omega
    · intro i x hx
      have hxn : x ≠ n := by
        rintro rfl
        exact hnr (List.mem_of_getElem? hx)
      obtain ⟨h1, h2⟩ := h.get (i + 1) x (by simpa using hx)
      change ff.ring (ff.slot (ff.read + 1 + BitVec.ofNat 32 i)) = x ∧
        (ff.mem.setPrev n (.num 0)).prev x = .num (ff.slot (ff.read + 1 + BitVec.ofNat 32 i) + 1)
      rw [hadd, Mem.prev_setPrev_ne _ _ hxn]
      exact ⟨h1, h2⟩
  · refine ⟨rfl, rfl, fun p => by simp [FlexFifo.setIdx], rfl, fun x hx => ?_⟩
    exact Mem.prev_setPrev_ne _ _ (by simpa using hx)

/-- The rotation of `_ff_ring_remove`: `u` is still to come, `v` has come round. -/
theorem rotate (u : List N) : ∀ {v : List N} {ff : FlexFifo N}, RingHolds ff (u ++ v) →
    RingHolds (ffRotate n u.length ff) (v ++ u.filter (· ≠ n)) ∧
      RingFrame (u ++ v) ff (ffRotate n u.length ff) ∧
      (n ∈ u → n ∉ v → (ffRotate n u.length ff).mem.prev n = .num 0) := by
  induction u with
  | nil =>
    intro v ff h
    exact ⟨by simpa [ffRotate] using h, .refl _ _, by simp⟩
  | cons x u ih =>
    intro v ff h
    rw [List.cons_append] at h
    obtain ⟨ff₁, hpop, h1, hf1, hp1⟩ := h.pop
    obtain ⟨hx, hnd⟩ := List.nodup_cons.mp h.nodup
    rw [List.length_cons, ffRotate, hpop]
    dsimp only
    by_cases hxn : x = n
    · subst hxn
      rw [if_pos rfl]
      obtain ⟨h2, hf2, -⟩ := ih h1
      refine ⟨by simpa using h2, ?_, fun _ _ => ?_⟩
      · refine (hf1.mono fun y hy => ?_).trans (hf2.mono fun y hy => ?_)
        · rw [List.mem_singleton.mp hy]
          simp
        · exact List.mem_cons_of_mem _ hy
      · rw [hf2.prev x hx]
        exact hp1
    · rw [if_neg hxn]
      have hroom : (u ++ v).length < ff₁.size.toNat := by
        have := h.le
        rw [hf1.size]
        simp only [List.length_cons] at this
        omega
      obtain ⟨h2, hf2⟩ := h1.push hroom hx
      rw [List.append_assoc] at h2
      obtain ⟨h3, hf3, hp3⟩ := ih h2
      refine ⟨?_, ?_, fun hn hv => ?_⟩
      · simpa [hxn] using h3
      · refine ((hf1.mono fun y hy => ?_).trans (hf2.mono fun y hy => ?_)).trans
          (hf3.mono fun y hy => ?_)
        · rw [List.mem_singleton.mp hy]
          simp
        · simp only [List.mem_append, List.mem_singleton] at hy
          simp only [List.cons_append, List.mem_cons, List.mem_append]
          tauto
        · simp only [List.mem_append, List.mem_singleton] at hy
          simp only [List.cons_append, List.mem_cons, List.mem_append]
          tauto
      · refine hp3 ((List.mem_cons.mp hn).resolve_left fun he => hxn he.symm) ?_
        simp only [List.mem_append, List.mem_singleton, not_or]
        exact ⟨hv, fun he => hxn he.symm⟩

theorem congr (h : RingHolds ff r) (hm : ff' = { ff with mem := ff'.mem, listSize := ff'.listSize })
    (hp : ∀ n ∈ r, ff'.mem.prev n = ff.mem.prev n) : RingHolds ff' r := by
  have hs : ∀ i, ff'.slot i = ff.slot i := by
    intro i
    rw [FlexFifo.slot, FlexFifo.slot, hm]
  refine ⟨⟨?_, ?_⟩, h.nodup, ?_, ?_, fun i x hx => ?_⟩
  · rw [hm]
    exact h.ok.mask
  · rw [hm]
    exact h.ok.size
  · rw [hm]
    exact h.count
  · rw [hm]
    exact h.le
  · obtain ⟨h1, h2⟩ := h.get i x hx
    rw [hp x (List.mem_of_getElem? hx), hs, show ff'.read = ff.read by rw [hm],
      show ff'.ring = ff.ring by rw [hm]]
    exact ⟨h1, h2⟩

end RingHolds

/-- The fifo holds the nodes of `r` in its ring and behind them those of `t` in its
list; all other nodes have a null word. -/
structure FlexHolds (ff : FlexFifo N) (r t : List N) : Prop where
  ring : RingHolds ff r
  list : Holds ff.mem () t
  apart : ∀ n ∈ t, n ∉ r
  out : ∀ n, n ∉ r → n ∉ t → ff.mem.prev n = .num 0
  listSize : ff.listSize = BitVec.ofNat 32 t.length

namespace FlexHolds

theorem idx_ring (h : FlexHolds ff r t) (hn : n ∈ r) :
    0 < nodeGetIdx A ff n ∧ nodeGetIdx A ff n < ringMaxSize + 1 := by
  obtain ⟨i, hi⟩ := List.getElem?_of_mem hn
  obtain ⟨-, hp⟩ := h.ring.get i n hi
  have hlen : i < r.length := (List.getElem?_eq_some_iff.mp hi).1
  have hle := h.ring.le
  have hsz := h.ring.ok.le
  have hlt := h.ring.ok.slot_lt (ff.read + BitVec.ofNat 32 i) (by omega)
  rw [nodeGetIdx, hp]
  dsimp only
  omega

theorem idx_list (h : FlexHolds ff r t) (hn : n ∈ t) : ringMaxSize + 1 < nodeGetIdx A ff n := by
  obtain ⟨p, hp⟩ := h.list.prev_link hn
  rw [nodeGetIdx, hp]
  exact A.high p

theorem idx_out (h : FlexHolds ff r t) (hr : n ∉ r) (ht : n ∉ t) : nodeGetIdx A ff n = 0 := by
  rw [nodeGetIdx, h.out n hr ht]

theorem inRing_iff (h : FlexHolds ff r t) : nodeInRing A ff n = true ↔ n ∈ r := by
  simp only [nodeInRing, Bool.and_eq_true, decide_eq_true_eq]
  constructor
  · intro hi
    by_contra hr
    by_cases ht : n ∈ t
    · have := h.idx_list (A := A) ht
      omega
    · have := h.idx_out (A := A) hr ht
      omega
  · intro hr
    exact h.idx_ring hr

theorem inList_iff (h : FlexHolds ff r t) : nodeInList A ff n = true ↔ n ∈ t := by
  simp only [nodeInList, decide_eq_true_eq]
  constructor
  · intro hi
    by_contra ht
    by_cases hr : n ∈ r
    · have := h.idx_ring (A := A) hr
      omega
    · have := h.idx_out (A := A) hr ht
      omega
  · intro ht
    exact h.idx_list ht

theorem inFifo_iff (h : FlexHolds ff r t) : nodeInFifo A ff n = true ↔ n ∈ r ++ t := by
  simp only [nodeInFifo, decide_eq_true_eq, List.mem_append]
  constructor
  · intro hi
    by_contra hn
    push Not at hn
    exact hi (h.idx_out hn.1 hn.2)
  · rintro (hr | ht)
    · have := h.idx_ring (A := A) hr
      omega
    · have := h.idx_list (A := A) ht
      omega

theorem count (h : FlexHolds ff r t) : flexFifoCount ff = BitVec.ofNat 32 (r ++ t).length := by
  rw [flexFifoCount, h.ring.ringCount, h.listSize, ← BitVec.ofNat_add, List.length_append]

theorem listPush (h : FlexHolds ff r t) (hr : n ∉ r) (ht : n ∉ t) :
    FlexHolds (ffListPush ff n) r (t ++ [n]) := by
  have hp : ∀ x, x ≠ n → (ffListPush ff n).mem.prev x = ff.mem.prev x := fun x hx =>
    ff.mem.prev_insertTail_ne () hx
  refine ⟨h.ring.congr rfl fun x hx => hp x ?_, h.list.insertTail ht, ?_, ?_, ?_⟩
  · rintro rfl
    exact hr hx
  · intro x hx
    rcases List.mem_append.mp hx with hx | hx
    · exact h.apart x hx
    · rwa [List.mem_singleton.mp hx]
  · intro x hxr hxt
    simp only [List.mem_append, List.mem_singleton, not_or] at hxt
    rw [hp x hxt.2]
    exact h.out x hxr hxt.1
  · change ff.listSize + 1 = _
    rw [h.listSize, List.length_append, BitVec.ofNat_add]
    rfl

theorem push (h : FlexHolds ff r t) (hn : n ∉ r ++ t) :
    ∃ r' t', FlexHolds (flexFifoPush ff n) r' t' ∧ r' ++ t' = r ++ t ++ [n] := by
  rw [List.mem_append, not_or] at hn
  obtain ⟨hr, ht⟩ := hn
  unfold flexFifoPush ffRingPush
  split
  · next ff₁ heq =>
    split at heq
    · cases heq
    next hguard =>
    cases heq
    push Not at hguard
    obtain ⟨hempty, hfull⟩ := hguard
    have hnil : t = [] := by
      rw [h.list.first] at hempty
      exact List.head?_eq_none_iff.mp hempty
    subst hnil
    have hroom : r.length < ff.size.toNat :=
      lt_of_le_of_ne h.ring.le fun he => hfull (h.ring.full_iff.mpr he)
    obtain ⟨h1, hf⟩ := h.ring.push hroom hr
    refine ⟨r ++ [n], [], ⟨h1, hf.holds h.list (by simp), by simp, ?_, ?_⟩, by simp⟩
    · intro x hx _
      rw [hf.prev x hx]
      exact h.out x (fun hxr => hx (List.mem_append_left _ hxr)) (by simp)
    · exact h.listSize
  · exact ⟨r, t ++ [n], h.listPush hr ht, by simp⟩

theorem doListRemove (h : FlexHolds ff r t) (hn : n ∈ t) :
    FlexHolds (ffDoListRemove ff n) r (t.erase n) := by
  have hnr := h.apart n hn
  have hrem := h.list.remove hn
  have hmem : n ∉ t.erase n := fun hm => h.list.nodup.not_mem_erase hm
  have hprev : ∀ x, x ≠ n → x ∉ t → (ffDoListRemove ff n).mem.prev x = ff.mem.prev x := by
    intro x hx hxt
    exact (Mem.prev_setPrev_ne _ _ hx).trans (h.list.remove_prev hn hxt)
  refine ⟨h.ring.congr rfl fun x hx => hprev x ?_ fun hxt => h.apart x hxt hx, ?_, ?_, ?_, ?_⟩
  · rintro rfl
    exact hnr hx
  · refine hrem.congr rfl (fun p _ => ?_) fun x hx => ?_
    · exact Mem.load_setPrev ..
    · apply Mem.prev_setPrev_ne
      rintro rfl
      exact hmem hx
  · intro x hx
    exact h.apart x (List.mem_of_mem_erase hx)
  · intro x hxr hxt
    by_cases hxn : x = n
    · subst hxn
      exact Mem.prev_setPrev_self ..
    · have hxt' : x ∉ t := fun hm => hxt ((List.mem_erase_of_ne hxn).mpr hm)
      rw [hprev x hxn hxt']
      exact h.out x hxr hxt'
  · change ff.listSize - 1 = _
    have hpos := List.length_pos_of_mem hn
    rw [h.listSize, List.length_erase_of_mem hn]
    bv_omega

theorem pop (h : FlexHolds ff r t) :
    ∃ r' t', FlexHolds (flexFifoPop ff).2 r' t' ∧ r' ++ t' = (r ++ t).tail ∧
      (flexFifoPop ff).1 = (r ++ t).head? := by
  cases r with
  | cons n r =>
    obtain ⟨ff₁, hpop, h1, hf, hp⟩ := h.ring.pop
    rw [flexFifoPop, hpop]
    have hnr : n ∉ t := fun hn => h.apart n hn (by simp)
    refine ⟨r, t, ⟨h1, hf.holds h.list fun x hx hxn => ?_, fun x hx hxr => ?_,
      fun x hxr hxt => ?_, ?_⟩,
      by simp, by simp⟩
    · rw [List.mem_singleton.mp hxn] at hx
      exact hnr hx
    · exact h.apart x hx (List.mem_cons_of_mem _ hxr)
    · by_cases hxn : x = n
      · subst hxn
        exact hp
      · rw [hf.prev x (by simpa using hxn)]
        exact h.out x (by simp [hxn, hxr]) hxt
    · rw [hf.listSize]
      exact h.listSize
  | nil =>
    have hempty : ff.read = ff.write := h.ring.empty_iff.mpr rfl
    rw [flexFifoPop, ffRingPop, if_pos hempty]
    dsimp only
    rw [ffListPop, h.list.first]
    cases t with
    | nil => exact ⟨[], [], h, rfl, rfl⟩
    | cons n t =>
      refine ⟨[], t, ?_, rfl, rfl⟩
      have hr := h.doListRemove (n := n) (by simp)
      rwa [List.erase_cons_head] at hr

theorem peek (h : FlexHolds ff r t) : flexFifoPeek ff = (r ++ t).head? := by
  cases r with
  | cons n r =>
    have hne : ff.read ≠ ff.write := fun he => by simpa using h.ring.empty_iff.mp he
    obtain ⟨hring, -⟩ := h.ring.get 0 n rfl
    rw [BitVec.add_zero] at hring
    rw [flexFifoPeek, ffRingPeek, if_neg hne, hring]
    rfl
  | nil =>
    have hempty : ff.read = ff.write := h.ring.empty_iff.mpr rfl
    rw [flexFifoPeek, ffRingPeek, if_pos hempty]
    exact h.list.first

theorem remove (h : FlexHolds ff r t) :
    ∃ r' t', FlexHolds (flexFifoRemove A ff n).2 r' t' ∧ r' ++ t' = (r ++ t).erase n ∧
      (flexFifoRemove A ff n).1 = if n ∈ r ++ t then 0 else -1 := by
  unfold flexFifoRemove ffRingRemove ffListRemove
  by_cases hr : n ∈ r
  · rw [if_pos (h.inRing_iff.mpr hr), if_pos (List.mem_append_left _ hr),
      List.erase_append_left _ hr]
    have hcount : (flexFifoRingCount ff).toNat = r.length := by
      rw [h.ring.ringCount, BitVec.toNat_ofNat, Nat.mod_eq_of_lt h.ring.length_lt]
    obtain ⟨h1, hf, hp⟩ := RingHolds.rotate (n := n) r (v := []) (by simpa using h.ring)
    rw [List.append_nil] at hf
    rw [hcount]
    refine ⟨r.filter (· ≠ n), t, ⟨h1, hf.holds h.list h.apart, ?_, ?_, ?_⟩, ?_, rfl⟩
    · intro x hx hxr
      exact h.apart x hx (List.mem_of_mem_filter hxr)
    · intro x hxr hxt
      by_cases hxn : x = n
      · subst hxn
        exact hp hr (by simp)
      · have hx : x ∉ r := fun hm => hxr (List.mem_filter.mpr ⟨hm, by simpa using hxn⟩)
        exact (hf.prev x hx).trans (h.out x hx hxt)
    · rw [hf.listSize]
      exact h.listSize
    · rw [h.ring.nodup.erase_eq_filter]
      congr 1
      exact List.filter_congr fun x _ => by simp [bne, beq_eq_decide]
  · rw [if_neg (fun hc => hr (h.inRing_iff.mp hc)), List.erase_append_right _ hr]
    by_cases ht : n ∈ t
    · rw [if_pos (h.inList_iff.mpr ht), if_pos (List.mem_append_right _ ht)]
      exact ⟨r, t.erase n, h.doListRemove ht, rfl, rfl⟩
    · rw [if_neg (fun hc => ht (h.inList_iff.mp hc)), if_neg (by simp [hr, ht])]
      exact ⟨r, t, h, by rw [List.erase_of_not_mem ht], rfl⟩

end FlexHolds

inductive FifoOp (N : Type)
  | push (n : N)
  | pushIfNotExist (n : N)
  | pop
  | peek
  | remove (n : N)

inductive FifoRes (N : Type)
  | done
  | node (n : Option N)
  | code (c : Int)
  deriving DecidableEq

def flexStep (A : LinkAddr N) (ff : FlexFifo N) : FifoOp N → FifoRes N × FlexFifo N
  | .push n => (.done, flexFifoPush ff n)
  | .pushIfNotExist n => (.done, flexFifoPushIfNotExist A ff n)
  | .pop => (.node (flexFifoPop ff).1, (flexFifoPop ff).2)
  | .peek => (.node (flexFifoPeek ff), ff)
  | .remove n => (.code (flexFifoRemove A ff n).1, (flexFifoRemove A ff n).2)

def fifoStep (l : List N) : FifoOp N → FifoRes N × List N
  | .push n => (.done, l ++ [n])
  | .pushIfNotExist n => (.done, if n ∈ l then l else l ++ [n])
  | .pop => (.node l.head?, l.tail)
  | .peek => (.node l.head?, l)
  | .remove n => (.code (if n ∈ l then 0 else -1), l.erase n)

/-- Only `flex_fifo_push` asks something of its caller. -/
def FifoOp.Allowed (l : List N) : FifoOp N → Prop
  | .push n => n ∉ l
  | _ => True

def callAll {σ : Type} (step : σ → FifoOp N → FifoRes N × σ) :
    σ → List (FifoOp N) → List (FifoRes N) × σ
  | s, [] => ([], s)
  | s, o :: ops =>
    ((step s o).1 :: (callAll step (step s o).2 ops).1, (callAll step (step s o).2 ops).2)

def AllAllowed : List N → List (FifoOp N) → Prop
  | _, [] => True
  | l, o :: ops => o.Allowed l ∧ AllAllowed (fifoStep l o).2 ops

/-- The fifo `ff` is the queue `l`: its nodes in order, its membership test and its
count. -/
structure IsQueue (A : LinkAddr N) (ff : FlexFifo N) (l : List N) : Prop where
  contents : ∃ r t, FlexHolds ff r t ∧ l = r ++ t
  distinct : l.Nodup
  member : ∀ n, nodeInFifo A ff n = true ↔ n ∈ l
  count : flexFifoCount ff = BitVec.ofNat 32 l.length

theorem FlexHolds.isQueue (h : FlexHolds ff r t) : IsQueue A ff (r ++ t) := by
  refine ⟨⟨r, t, h, rfl⟩, ?_, fun n => h.inFifo_iff, h.count⟩
  refine List.nodup_append.mpr ⟨h.ring.nodup, h.list.nodup, ?_⟩
  rintro a ha b hb rfl
  exact h.apart a hb ha

theorem FlexHolds.step (h : FlexHolds ff r t) (o : FifoOp N) (ho : o.Allowed (r ++ t)) :
    ∃ r' t', FlexHolds (flexStep A ff o).2 r' t' ∧ r' ++ t' = (fifoStep (r ++ t) o).2 ∧
      (flexStep A ff o).1 = (fifoStep (r ++ t) o).1 := by
  cases o with
  | push n =>
    obtain ⟨r', t', h1, h2⟩ := h.push ho
    exact ⟨r', t', h1, h2, rfl⟩
  | pushIfNotExist n =>
    rw [flexStep, fifoStep, flexFifoPushIfNotExist]
    by_cases hn : n ∈ r ++ t
    · rw [if_pos (h.inFifo_iff.mpr hn), if_pos hn]
      exact ⟨r, t, h, rfl, rfl⟩
    · rw [if_neg (fun hc => hn (h.inFifo_iff.mp hc)), if_neg hn]
      obtain ⟨r', t', h1, h2⟩ := h.push hn
      exact ⟨r', t', h1, h2, rfl⟩
  | pop =>
    obtain ⟨r', t', h1, h2, h3⟩ := h.pop
    exact ⟨r', t', h1, h2, congrArg FifoRes.node h3⟩
  | peek => exact ⟨r, t, h, rfl, congrArg FifoRes.node h.peek⟩
  | remove n =>
    obtain ⟨r', t', h1, h2, h3⟩ := h.remove (A := A) (n := n)
    exact ⟨r', t', h1, h2, congrArg FifoRes.code h3⟩

theorem FlexHolds.run (ops : List (FifoOp N)) :
    ∀ {ff : FlexFifo N} {r t : List N}, FlexHolds ff r t →
    AllAllowed (r ++ t) ops →
    (callAll (flexStep A) ff ops).1 = (callAll fifoStep (r ++ t) ops).1 ∧
      IsQueue A (callAll (flexStep A) ff ops).2 (callAll fifoStep (r ++ t) ops).2 := by
  induction ops with
  | nil =>
    intro ff r t h _
    exact ⟨rfl, h.isQueue⟩
  | cons o ops ih =>
    intro ff r t h ho
    obtain ⟨r', t', h1, h2, h3⟩ := h.step (A := A) o ho.1
    obtain ⟨h4, h5⟩ := ih h1 (by rw [h2]; exact ho.2)
    rw [h2] at h4 h5
    exact ⟨by rw [callAll, callAll, h3, h4], h5⟩

theorem flexFifoCreate_holds (m : Mem Unit N) (ring : Nat → N) (size c : U32)
    (hm : ∀ n, m.prev n = .num 0) (hc : flexFifoCreate m ring size = some ff) :
    FlexHolds { ff with read := c, write := c } [] [] := by
  unfold flexFifoCreate at hc
  split at hc
  · cases hc
  next hsz =>
  cases hc
  push Not at hsz
  obtain ⟨hpow, hmax⟩ := hsz
  have hsize : size.toNat = 0 ∨ ∃ k ≤ 16, size.toNat = 2 ^ k := by
    by_cases h0 : size.toNat = 0
    · exact .inl h0
    · have hlt := size.isLt
      have hand : size.toNat &&& (size.toNat - 1) = 0 := by
        have := congrArg BitVec.toNat hpow
        rw [BitVec.toNat_and, show (size - 1).toNat = size.toNat - 1 by bv_omega] at this
        exact this
      obtain ⟨k, hk⟩ := (Nat.and_sub_one_eq_zero_iff_isPowerOfTwo h0).mp hand
      refine .inr ⟨k, ?_, hk⟩
      rw [hk, ringMaxSize] at hmax
      exact (Nat.pow_le_pow_iff_right (by decide)).mp hmax
  refine ⟨⟨⟨rfl, hsize⟩, List.nodup_nil, ?_, Nat.zero_le _, by simp⟩,
    ⟨List.nodup_nil, rfl, rfl⟩, by simp,
    fun n _ _ => hm n, rfl⟩
  exact (BitVec.add_zero c).symm

/-- Every list of calls on a new fifo, with the counters at any value, returns what
it returns on a plain queue and leaves what it leaves there. -/
theorem flexFifo_refines (A : LinkAddr N) (m : Mem Unit N) (ring : Nat → N) (size c : U32)
    (ff : FlexFifo N) (hm : ∀ n, m.prev n = .num 0) (hc : flexFifoCreate m ring size = some ff)
    (ops : List (FifoOp N)) (hops : AllAllowed [] ops) :
    (callAll (flexStep A) { ff with read := c, write := c } ops).1 = (callAll fifoStep [] ops).1 ∧
      IsQueue A (callAll (flexStep A) { ff with read := c, write := c } ops).2
        (callAll fifoStep [] ops).2 :=
  (flexFifoCreate_holds m ring size c hm hc).run ops hops

def overflowCalls : List (FifoOp Nat) :=
  [.push 1, .push 2, .pushIfNotExist 3, .pushIfNotExist 2, .remove 1, .push 4,
    .remove 1, .pop, .peek]

def blankNodes : Mem Unit Nat :=
  { first := fun _ => none, last := fun h => .head h, next := fun _ => none,
    prev := fun _ => .num 0 }

def twoSlots : FlexFifo Nat :=
  { listSize := 0, write := 0, read := 0, mask := 1, size := 2, ring := id, mem := blankNodes }

theorem flexFifo_refines_overflow :
    (callAll (flexStep ⟨fun _ => ringMaxSize + 2, fun _ => by decide⟩)
        { twoSlots with read := BitVec.allOnes 32, write := BitVec.allOnes 32 } overflowCalls).1 =
      [.done, .done, .done, .done, .code 0, .done, .code (-1), .node (some 2), .node (some 3)] :=
  (flexFifo_refines ⟨fun _ => ringMaxSize + 2, fun _ => by decide⟩ blankNodes id 2
    (BitVec.allOnes 32) twoSlots (fun _ => rfl) rfl overflowCalls
    (by simp [overflowCalls, AllAllowed, FifoOp.Allowed, fifoStep])).1.trans (by decide)

end LibTpa
