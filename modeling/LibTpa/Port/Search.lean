/- LibTpa/Port/Search
   digest: The search for a port block: which blocks it tries, and when it gives up. -/

import LibTpa.Lib.Rotation
import LibTpa.Port.Spec

/-!
`port_block_alloc` without a port walks over the blocks of the range, from one that the
cycle counter picks. A refused offload ends the walk through `errno`, and so does an
`EBUSY` that was there before.
-/

set_option autoImplicit false

namespace LibTpa

open Lib.Rotation

def PortRange.firstBlock (range : PortRange) : U16 :=
  (range.min + defaultPortBlockMask) &&& ~~~defaultPortBlockMask

def PortRange.blockEnd (range : PortRange) : U16 := range.max &&& ~~~defaultPortBlockMask

def PortRange.blocks (range : PortRange) : Nat :=
  (range.blockEnd.toNat - range.firstBlock.toNat) / defaultPortBlockSize.toNat

structure BlockIn (range : PortRange) (start : U16) : Prop where
  aligned : start.toNat % 64 = 0
  ge : range.min.toNat ≤ start.toNat
  le : start.toNat + 64 ≤ range.max.toNat

/-- The starts that the loop of `port_block_alloc` tries, with the state before each try. -/
def blockTries (range : PortRange) (min max : U16) : Nat → U16 → PortSt → List (U16 × PortSt)
  | 0, _, _ => []
  | n + 1, start, s =>
    let start := if max ≤ start then min else start
    let r := doPortBlockAlloc range s start defaultPortBlockSize
    (start, s) :: if r.1.isSome || r.2.oracles.ebusy then []
      else blockTries range min max n (start + defaultPortBlockSize) r.2

/-- Where the cycle counter lets the search begin. -/
def PortRange.seed (range : PortRange) (tsc : Nat) : U16 :=
  (BitVec.ofNat 16 ((tsc >>> 2) % range.count) + range.firstBlock) &&& ~~~defaultPortBlockMask

def portBlockTries (range : PortRange) (s : PortSt) : List (U16 × PortSt) :=
  blockTries range range.firstBlock range.blockEnd range.blocks (range.seed s.readTsc.1) s.readTsc.2

/-- The block is free in the map, and the surroundings grant everything that it takes. -/
def Obtainable (s : PortSt) (start : U16) : Prop :=
  portRangeIsFree s start defaultPortBlockSize = true ∧ s.oracles.blockOk.headD true = true ∧
    (∀ b ∈ s.oracles.kernelOk.take 64, b = true) ∧ s.oracles.offloadOk.headD true = true

instance (s : PortSt) (start : U16) : Decidable (Obtainable s start) :=
  inferInstanceAs (Decidable (_ ∧ _))

/-- Everything was granted but the offload. -/
def OffloadRefused (s : PortSt) (start : U16) : Prop :=
  portRangeIsFree s start defaultPortBlockSize = true ∧ s.oracles.blockOk.headD true = true ∧
    (∀ b ∈ s.oracles.kernelOk.take 64, b = true) ∧ s.oracles.offloadOk.headD true = false

instance (s : PortSt) (start : U16) : Decidable (OffloadRefused s start) :=
  inferInstanceAs (Decidable (_ ∧ _))

/-- What a search for any block should do. A search that finds none has tried every free block
of the range, each one in vain, unless an offload was refused. -/
structure SearchRight (range : PortRange) (s : PortSt) : Prop where
  result : portBlockAlloc range s 0 = ((portBlockTries range s).getLast?.map fun x =>
    doPortBlockAlloc range x.2 x.1 defaultPortBlockSize).getD (none, s.readTsc.2)
  inside : ∀ x ∈ portBlockTries range s, BlockIn range x.1
  once : ((portBlockTries range s).map Prod.fst).Nodup
  restored : ∀ x ∈ portBlockTries range s,
    (doPortBlockAlloc range x.2 x.1 defaultPortBlockSize).1 = none →
      (doPortBlockAlloc range x.2 x.1 defaultPortBlockSize).2.portMap = x.2.portMap
  complete : (portBlockAlloc range s 0).1 = none →
    (∀ x ∈ portBlockTries range s, ¬ OffloadRefused x.2 x.1) →
    ∀ start, BlockIn range start → portRangeIsFree s start defaultPortBlockSize = true →
      ∃ t, (start, t) ∈ portBlockTries range s ∧ ¬ Obtainable t start

/-! What one try does. -/

variable {range : PortRange} {s t : PortSt} {start : U16}

private theorem range_free_iff : portRangeIsFree s start defaultPortBlockSize = true ↔
    ∀ i < 64, s.portMap (start + BitVec.ofNat 16 i) = false := by
  unfold portRangeIsFree
  simp [show defaultPortBlockSize.toNat = 64 from rfl]

private theorem take_succ_all (l : List Bool) (n : Nat) : (∀ b ∈ l.take (n + 1), b = true) ↔
    l.headD true = true ∧ ∀ b ∈ l.tail.take n, b = true := by
  cases l with
  | nil => simp
  | cons b l => simp

private theorem portAlloc_asks {port : U16} (h0 : port ≠ 0) (hfree : s.portMap port = false) :
    portAlloc range s port = if s.oracles.kernelOk.headD true
      then (port, { s.askKernel.2 with portMap := Function.update s.portMap port true })
      else (0, s.askKernel.2.setBusy false) := by
  unfold portAlloc doPortAlloc
  rw [if_pos h0, if_neg (by rw [hfree]; decide)]
  rfl

private theorem allocPorts_granted (range : PortRange) (h : StartOk start) (n : Nat) :
    ∀ (i : Nat) (s : PortSt),
    i + n ≤ 64 → (∀ j, i ≤ j → j < i + n → s.portMap (start + BitVec.ofNat 16 j) = false) →
    ((allocPorts range start n i s).1 = true ↔ ∀ b ∈ s.oracles.kernelOk.take n, b = true) ∧
      ((allocPorts range start n i s).1 = false →
        (allocPorts range start n i s).2.2.oracles.ebusy = false) ∧
      (allocPorts range start n i s).2.2.oracles.offloadOk = s.oracles.offloadOk := by
  induction n with
  | zero =>
    intro i s _ _
    exact ⟨⟨fun _ => by simp, fun _ => rfl⟩, fun hf => absurd (Eq.symm hf) Bool.false_ne_true, rfl⟩
  | succ n ih =>
    intro i s hi hfree
    have h0 := h.add_ne_zero (i := i) (by omega)
    rw [take_succ_all]
    unfold allocPorts
    rw [portAlloc_asks h0 (hfree i le_rfl (by omega))]
    by_cases hk : s.oracles.kernelOk.headD true = true
    · obtain ⟨t, ht⟩ : ∃ t : PortSt, t = { s.askKernel.2 with
        portMap := Function.update s.portMap (start + BitVec.ofNat 16 i) true } := ⟨_, rfl⟩
      have hlater : ∀ j, i + 1 ≤ j → j < i + 1 + n →
          t.portMap (start + BitVec.ofNat 16 j) = false := by
        intro j h1 h2
        have hne : start + BitVec.ofNat 16 j ≠ start + BitVec.ofNat 16 i := by
          intro heq
          have h3 := h.toNat_add (i := j) (by omega)
          have h4 := h.toNat_add (i := i) (by omega)
          rw [heq] at h3
          omega
        rw [ht]
        dsimp only
        rw [Function.update_of_ne hne]
        exact hfree j (by omega) (by omega)
      obtain ⟨h1, h2, h3⟩ := ih (i + 1) t (by omega) hlater
      rw [if_pos hk, ← ht]
      rw [if_neg h0]
      have htail : t.oracles.kernelOk = s.oracles.kernelOk.tail := by rw [ht]; rfl
      have hoff : t.oracles.offloadOk = s.oracles.offloadOk := by rw [ht]; rfl
      rw [htail] at h1
      rw [hoff] at h3
      exact ⟨h1.trans ⟨fun hb => ⟨hk, hb⟩, fun hb => hb.2⟩, h2, h3⟩
    · rw [if_neg hk]
      exact ⟨⟨fun hf => absurd hf Bool.false_ne_true, fun hb => absurd hb.1 hk⟩, fun _ => rfl, rfl⟩

private theorem freePorts_oracles (ports : List U16) : ∀ s : PortSt,
    (freePorts s ports).oracles = s.oracles := by
  unfold freePorts
  generalize ports.reverse = l
  induction l with
  | nil => exact fun s => rfl
  | cons port l ih => exact fun s => ih _

inductive TryCase (s : PortSt) (start : U16) (r : Option Nat × PortSt) : Prop
  | taken (h : portRangeIsFree s start defaultPortBlockSize = false) (hr : r = (none, s))
  | refused (h : portRangeIsFree s start defaultPortBlockSize = true) (ho : ¬ Obtainable s start)
      (hn : ¬ OffloadRefused s start) (hr : r.1 = none) (hb : r.2.oracles.ebusy = false)
  | offload (h : OffloadRefused s start) (ho : ¬ Obtainable s start) (hr : r.1 = none)
      (hb : r.2.oracles.ebusy = true)
  | made (h : Obtainable s start) (hr : r.1.isSome = true)

theorem doPortBlockAlloc_try (range : PortRange) (s : PortSt) (h : StartOk start) :
    TryCase s start (doPortBlockAlloc range s start defaultPortBlockSize) := by
  unfold doPortBlockAlloc
  rw [if_neg (by decide)]
  by_cases hfree : portRangeIsFree s start defaultPortBlockSize = true
  swap
  · rw [if_pos (by simpa using hfree)]
    exact .taken (by simpa using hfree) rfl
  rw [if_neg (by simpa using hfree)]
  dsimp only
  by_cases hm : s.oracles.blockOk.headD true = true
  swap
  · rw [if_pos (by simpa [PortSt.askBlock] using hm)]
    exact .refused hfree (fun ho => hm ho.2.1) (fun hn => hm hn.2.1) rfl rfl
  rw [if_neg (by simpa [PortSt.askBlock] using hm)]
  rw [show defaultPortBlockSize.toNat = 64 from rfl]
  obtain ⟨hk, hbusy, hoff⟩ := allocPorts_granted range h 64 0 s.askBlock.2 le_rfl
    fun j _ hj => range_free_iff.mp hfree j (by omega)
  generalize allocPorts range start 64 0 s.askBlock.2 = r at hk hbusy hoff ⊢
  have hkernel : s.askBlock.2.oracles.kernelOk = s.oracles.kernelOk := rfl
  have hoffload : s.askBlock.2.oracles.offloadOk = s.oracles.offloadOk := rfl
  rw [hkernel] at hk
  rw [hoffload] at hoff
  cases hr : r.1 with
  | false =>
    rw [if_pos (by decide)]
    have hno : ¬ ∀ b ∈ s.oracles.kernelOk.take 64, b = true := by
      rw [← hk, hr]
      exact Bool.false_ne_true
    refine .refused hfree (fun ho => hno ho.2.2.1) (fun hn => hno hn.2.2.1) rfl ?_
    rw [freePorts_oracles]
    exact hbusy hr
  | true =>
    rw [if_neg (by decide)]
    have hall := hk.mp hr
    have hask : ((r.2.2.setBusy false).askOffload).1 = s.oracles.offloadOk.headD true := by
      rw [← hoff]
      rfl
    cases ho : s.oracles.offloadOk.headD true with
    | false =>
      rw [if_pos (by rw [hask, ho]; decide)]
      refine .offload ⟨hfree, hm, hall, ho⟩ (fun h => ?_) rfl ?_
      · rw [h.2.2.2] at ho
        exact Bool.false_ne_true ho.symm
      · rw [freePorts_oracles]
        rfl
    | true =>
      rw [if_neg (by rw [hask, ho]; decide)]
      exact .made ⟨hfree, hm, hall, ho⟩ rfl

/-! The order of the tries. -/

/-- The block that the loop tries when it comes to `start`. -/
def PortRange.used (range : PortRange) (start : U16) : U16 :=
  if range.blockEnd ≤ start then range.firstBlock else start

/-- A place where the loop may stand: aligned, and not in front of the first block. -/
structure Stand (range : PortRange) (start : U16) : Prop where
  aligned : start.toNat % 64 = 0
  ge : range.firstBlock.toNat ≤ start.toNat

def PortRange.slot (range : PortRange) (start : U16) : Nat :=
  if range.blockEnd ≤ start then 0 else (start.toNat - range.firstBlock.toNat) / 64

private theorem firstBlock_toNat (range : PortRange) :
    range.firstBlock.toNat % 64 = 0 ∧ range.min.toNat ≤ range.firstBlock.toNat ∧
      range.firstBlock.toNat < range.min.toNat + 64 := by
  have h1 := range.min_lt
  have h2 := range.max_le
  have hmask := and_not_mask (range.min + defaultPortBlockMask)
  have hadd : (range.min + defaultPortBlockMask).toNat = range.min.toNat + 63 := by
    rw [BitVec.toNat_add, show defaultPortBlockMask.toNat = 63 from rfl]
    exact Nat.mod_eq_of_lt (by omega)
  unfold PortRange.firstBlock
  omega

private theorem blockEnd_toNat (range : PortRange) : range.blockEnd.toNat % 64 = 0 ∧
    range.blockEnd.toNat ≤ range.max.toNat ∧ range.max.toNat < range.blockEnd.toNat + 64 := by
  have hmask := and_not_mask range.max
  unfold PortRange.blockEnd
  omega

private theorem blocks_eq (range : PortRange) :
    range.blocks = (range.blockEnd.toNat - range.firstBlock.toNat) / 64 := rfl

private theorem blockIn_iff (range : PortRange) (start : U16) : BlockIn range start ↔
    ∃ i < range.blocks, start.toNat = range.firstBlock.toNat + 64 * i := by
  obtain ⟨h1, h2, h3⟩ := firstBlock_toNat range
  obtain ⟨h4, h5, h6⟩ := blockEnd_toNat range
  rw [blocks_eq]
  constructor
  · rintro ⟨ha, hge, hle⟩
    refine ⟨(start.toNat - range.firstBlock.toNat) / 64, by omega, by omega⟩
  · rintro ⟨i, hi, heq⟩
    exact ⟨by omega, by omega, by omega⟩

namespace Stand

variable (h : Stand range start)
include h

theorem used_toNat : (range.used start).toNat = range.firstBlock.toNat + 64 * range.slot start := by
  have h1 := h.aligned
  have h2 := h.ge
  obtain ⟨h3, -, -⟩ := firstBlock_toNat range
  unfold PortRange.used PortRange.slot
  split <;> omega

variable (hn : 0 < range.blocks)
include hn

theorem slot_lt : range.slot start < range.blocks := by
  have h1 := h.aligned
  have h2 := h.ge
  obtain ⟨h3, -, -⟩ := firstBlock_toNat range
  obtain ⟨h4, -, -⟩ := blockEnd_toNat range
  rw [blocks_eq] at hn ⊢
  unfold PortRange.slot
  split
  · exact hn
  · next hlt =>
    have hlt : start.toNat < range.blockEnd.toNat := Nat.lt_of_not_le hlt
    omega

theorem used_in : BlockIn range (range.used start) :=
  (blockIn_iff range _).mpr ⟨_, h.slot_lt hn, h.used_toNat⟩

theorem used_ok : StartOk (range.used start) := by
  have hin := h.used_in hn
  have h1 := hin.ge
  have h2 := hin.le
  have h3 := range.min_ge
  have h4 := range.max_le
  exact ⟨hin.aligned, by omega, by omega⟩

theorem after : Stand range (range.used start + defaultPortBlockSize) ∧
    range.slot (range.used start + defaultPortBlockSize) =
      next range.blocks (range.slot start) := by
  have hok := h.used_ok hn
  have hadd : (range.used start + defaultPortBlockSize).toNat = (range.used start).toNat + 64 :=
    hok.toNat_add (i := 64) le_rfl
  have hused := h.used_toNat
  have hlt := h.slot_lt hn
  obtain ⟨h1, -, -⟩ := firstBlock_toNat range
  obtain ⟨h2, -, -⟩ := blockEnd_toNat range
  refine ⟨⟨by omega, by omega⟩, ?_⟩
  rw [blocks_eq] at hlt ⊢
  unfold PortRange.slot at hused hlt ⊢
  unfold Lib.Rotation.next
  by_cases hend : range.blockEnd ≤ range.used start + defaultPortBlockSize
  · rw [if_pos hend]
    have hend : range.blockEnd.toNat ≤ (range.used start + defaultPortBlockSize).toNat := hend
    rw [if_neg (by omega)]
  · rw [if_neg hend]
    have hend : (range.used start + defaultPortBlockSize).toNat < range.blockEnd.toNat :=
      Nat.lt_of_not_le hend
    rw [if_pos (by omega)]
    omega

end Stand

private theorem blockTries_walk (hn : 0 < range.blocks) (n : Nat) : ∀ (start : U16) (s : PortSt),
    Stand range start → (blockTries range range.firstBlock range.blockEnd n start s).map
      (fun x => x.1.toNat) <+: (walk range.blocks n (range.slot start)).map
        fun i => range.firstBlock.toNat + 64 * i := by
  induction n with
  | zero => exact fun start s _ => List.nil_prefix
  | succ n ih =>
    intro start s h
    unfold blockTries
    rw [show (if range.blockEnd ≤ start then range.firstBlock else start) =
      range.used start from rfl, List.map_cons, h.used_toNat]
    refine List.cons_prefix_cons.mpr ⟨rfl, ?_⟩
    split
    · exact List.nil_prefix
    · rw [← (h.after hn).2]
      exact ih _ _ (h.after hn).1

private theorem mem_blockTries (hn : 0 < range.blocks) (n : Nat) : ∀ (start : U16) (s : PortSt),
    Stand range start → ∀ x ∈ blockTries range range.firstBlock range.blockEnd n start s,
      StartOk x.1 ∧ BlockIn range x.1 := by
  induction n with
  | zero => exact fun start s _ x hx => absurd hx List.not_mem_nil
  | succ n ih =>
    intro start s h x hx
    unfold blockTries at hx
    rw [show (if range.blockEnd ≤ start then range.firstBlock else start) =
      range.used start from rfl]
      at hx
    rcases List.mem_cons.mp hx with rfl | hx
    · exact ⟨h.used_ok hn, h.used_in hn⟩
    · split at hx
      · cases hx
      · exact ih _ _ (h.after hn).1 x hx

private theorem portBlockAllocLoop_last (min max : U16) (n : Nat) : ∀ (start : U16) (s : PortSt),
    portBlockAllocLoop range min max n start s =
      ((blockTries range min max n start s).getLast?.map fun x =>
        doPortBlockAlloc range x.2 x.1 defaultPortBlockSize).getD (none, s) := by
  induction n with
  | zero => exact fun start s => rfl
  | succ n ih =>
    intro start s
    unfold portBlockAllocLoop blockTries
    dsimp only
    generalize hr : doPortBlockAlloc range s (if max ≤ start then min else start)
      defaultPortBlockSize = r
    split
    · rw [List.getLast?_singleton, Option.map_some, Option.getD_some, hr]
    · next hgo =>
      rw [ih, List.getLast?_cons]
      cases (blockTries range min max n _ r.2).getLast? with
      | some x => rfl
      | none =>
        -- the tries are used up, and this one has failed
        have hnone : r.1 = none := by
          simp only [Bool.or_eq_true, not_or, Option.not_isSome_iff_eq_none] at hgo
          exact hgo.1
        rw [Option.getD_none, Option.map_some, Option.getD_some, Option.map_none,
          Option.getD_none, hr, ← hnone]

/-- A search in vain has made all its tries, in vain, unless an offload was refused or the
first try met an old `EBUSY`. -/
private theorem blockTries_exhaust (hn : 0 < range.blocks) (n : Nat) : ∀ (start : U16) (s : PortSt),
    Stand range start →
    (portBlockAllocLoop range range.firstBlock range.blockEnd n start s).1 = none →
    (∀ x ∈ blockTries range range.firstBlock range.blockEnd n start s, ¬ OffloadRefused x.2 x.1) →
    (s.oracles.ebusy = false ∨
      portRangeIsFree s (range.used start) defaultPortBlockSize = true) →
    (blockTries range range.firstBlock range.blockEnd n start s).length = n ∧
      ∀ x ∈ blockTries range range.firstBlock range.blockEnd n start s, ¬ Obtainable x.2 x.1 := by
  induction n with
  | zero => exact fun start s _ _ _ _ => ⟨rfl, fun x hx => absurd hx List.not_mem_nil⟩
  | succ n ih =>
    intro start s h hnone hoff hbusy
    have hcase := doPortBlockAlloc_try range s (h.used_ok hn)
    obtain ⟨hstand, -⟩ := h.after hn
    unfold portBlockAllocLoop at hnone
    unfold blockTries at hoff ⊢
    dsimp only at hnone hoff ⊢
    rw [show (if range.blockEnd ≤ start then range.firstBlock else start) =
      range.used start from rfl]
      at hnone hoff ⊢
    have hfirst := hoff _ List.mem_cons_self
    generalize doPortBlockAlloc range s (range.used start) defaultPortBlockSize = r
      at hcase hnone hoff ⊢
    -- whatever fails without leaving EBUSY behind lets the walk go on
    have hgo : r.1 = none → r.2.oracles.ebusy = false → ¬ Obtainable s (range.used start) →
        (((range.used start, s) :: if r.1.isSome || r.2.oracles.ebusy then []
          else blockTries range range.firstBlock range.blockEnd n
            (range.used start + defaultPortBlockSize) r.2).length = n + 1 ∧
        ∀ x ∈ (range.used start, s) :: if r.1.isSome || r.2.oracles.ebusy then []
          else blockTries range range.firstBlock range.blockEnd n
            (range.used start + defaultPortBlockSize) r.2, ¬ Obtainable x.2 x.1) := by
      intro h1 h2 h3
      have hstop : ¬ (r.1.isSome || r.2.oracles.ebusy) = true := by
        rw [h1, h2]
        decide
      rw [if_neg hstop] at hnone hoff ⊢
      obtain ⟨h4, h5⟩ := ih _ r.2 hstand hnone
        (fun x hx => hoff x (List.mem_cons_of_mem _ hx)) (.inl h2)
      refine ⟨by rw [List.length_cons, h4], fun x hx => ?_⟩
      rcases List.mem_cons.mp hx with rfl | hx
      · exact h3
      · exact h5 x hx
    cases hcase with
    | taken ht hr =>
      have hno : ¬ Obtainable s (range.used start) := fun ho => by
        rw [ho.1] at ht
        exact Bool.false_ne_true ht.symm
      have hb : s.oracles.ebusy = false :=
        hbusy.resolve_right (by rw [ht]; exact Bool.false_ne_true)
      exact hgo (by rw [hr]) (by rw [hr]; exact hb) hno
    | refused _ ho _ hr hb => exact hgo hr hb ho
    | offload h1 => exact absurd h1 hfirst
    | made _ hr =>
      rw [if_pos (by rw [hr]; rfl)] at hnone
      rw [hnone] at hr
      cases hr

private theorem seed_stand (range : PortRange) (tsc : Nat) : Stand range (range.seed tsc) := by
  have h1 := range.min_lt
  have h2 := range.max_le
  obtain ⟨h3, h4, h5⟩ := firstBlock_toNat range
  have hcount : range.count = range.max.toNat - range.min.toNat := rfl
  have hmod : (tsc >>> 2) % range.count < range.count := Nat.mod_lt _ (by omega)
  have hadd : (BitVec.ofNat 16 ((tsc >>> 2) % range.count) + range.firstBlock).toNat =
      (tsc >>> 2) % range.count + range.firstBlock.toNat := by
    rw [BitVec.toNat_add, BitVec.toNat_ofNat]
    omega
  have hmask := and_not_mask (BitVec.ofNat 16 ((tsc >>> 2) % range.count) + range.firstBlock)
  unfold PortRange.seed
  exact ⟨by omega, by omega⟩

theorem portBlockAlloc_any (range : PortRange) (s : PortSt) : portBlockAlloc range s 0 =
    portBlockAllocLoop range range.firstBlock range.blockEnd range.blocks
      (range.seed s.readTsc.1) s.readTsc.2 := by
  unfold portBlockAlloc
  rfl

theorem portBlockAlloc_lastTry (range : PortRange) (s : PortSt) : portBlockAlloc range s 0 =
    ((portBlockTries range s).getLast?.map fun x =>
      doPortBlockAlloc range x.2 x.1 defaultPortBlockSize).getD (none, s.readTsc.2) := by
  rw [portBlockAlloc_any]
  exact portBlockAllocLoop_last ..

/-- `errno` is `EBUSY` before the call, and the first block tried is not free, so that the
try leaves `errno` as it is. -/
def BusyStop (range : PortRange) (s : PortSt) : Prop :=
  s.oracles.ebusy = true ∧
    portRangeIsFree s (range.used (range.seed s.readTsc.1)) defaultPortBlockSize = false

private theorem BusyStop.stops (h : BusyStop range s) (hn : 0 < range.blocks) :
    portBlockTries range s = [(range.used (range.seed s.readTsc.1), s.readTsc.2)] ∧
      (portBlockAlloc range s 0).1 = none := by
  obtain ⟨hb, ht⟩ := h
  have hcase := doPortBlockAlloc_try range s.readTsc.2 ((seed_stand range s.readTsc.1).used_ok hn)
  have hnot : ¬ portRangeIsFree s.readTsc.2 (range.used (range.seed s.readTsc.1))
      defaultPortBlockSize = true := fun h => Bool.false_ne_true (ht.symm.trans h)
  have hr : doPortBlockAlloc range s.readTsc.2 (range.used (range.seed s.readTsc.1))
      defaultPortBlockSize = (none, s.readTsc.2) := by
    cases hcase with
    | taken _ hr => exact hr
    | refused h _ _ _ _ => exact absurd h hnot
    | offload h _ _ _ => exact absurd h.1 hnot
    | made h _ => exact absurd h.1 hnot
  have htries : portBlockTries range s =
      [(range.used (range.seed s.readTsc.1), s.readTsc.2)] := by
    obtain ⟨n, hn'⟩ : ∃ n, range.blocks = n + 1 := ⟨range.blocks - 1, by omega⟩
    unfold portBlockTries
    rw [hn']
    unfold blockTries
    dsimp only
    rw [show (if range.blockEnd ≤ range.seed s.readTsc.1 then range.firstBlock
      else range.seed s.readTsc.1) = range.used (range.seed s.readTsc.1) from rfl, hr]
    have hstop : (Option.isSome (none : Option Nat) || s.readTsc.2.oracles.ebusy) = true := hb
    rw [if_pos hstop]
  refine ⟨htries, ?_⟩
  rw [portBlockAlloc_lastTry, htries, List.getLast?_singleton, Option.map_some,
    Option.getD_some, hr]

private theorem search_complete (h : ¬ BusyStop range s)
    (hnone : (portBlockAlloc range s 0).1 = none)
    (hoff : ∀ x ∈ portBlockTries range s, ¬ OffloadRefused x.2 x.1) (start : U16)
    (hin : BlockIn range start) :
    ∃ t, (start, t) ∈ portBlockTries range s ∧ ¬ Obtainable t start := by
  obtain ⟨i, hi, heq⟩ := (blockIn_iff range start).mp hin
  have hn : 0 < range.blocks := by omega
  have hstand := seed_stand range s.readTsc.1
  rw [portBlockAlloc_any] at hnone
  have hbusy : s.readTsc.2.oracles.ebusy = false ∨ portRangeIsFree s.readTsc.2
      (range.used (range.seed s.readTsc.1)) defaultPortBlockSize = true := by
    by_contra hno
    push Not at hno
    exact h ⟨Bool.eq_true_of_not_eq_false hno.1, Bool.eq_false_of_not_eq_true hno.2⟩
  obtain ⟨hlen, hall⟩ := blockTries_exhaust hn _ _ _ hstand hnone hoff hbusy
  have hpre := blockTries_walk hn range.blocks _ s.readTsc.2 hstand
  have hfull := hpre.eq_of_length (by rw [List.length_map, hlen, List.length_map, walk_length])
  have hmem : start.toNat ∈ (portBlockTries range s).map fun x => x.1.toNat := by
    unfold portBlockTries
    rw [hfull, heq]
    exact List.mem_map.mpr ⟨i, mem_walk_full (hstand.slot_lt hn) hi, rfl⟩
  obtain ⟨x, hx, hxs⟩ := List.mem_map.mp hmem
  have hfst : x.1 = start := BitVec.eq_of_toNat_eq hxs
  subst hfst
  exact ⟨x.2, hx, hall x hx⟩

/-- An old `EBUSY` ends the search at its first block, and another block is free. -/
def StaleBusy (range : PortRange) (s : PortSt) : Prop :=
  BusyStop range s ∧
    ∃ start, BlockIn range start ∧ portRangeIsFree s start defaultPortBlockSize = true

private theorem StaleBusy.not_complete (h : StaleBusy range s) : ¬ SearchRight range s := by
  obtain ⟨hbusy, start, hin, hfree⟩ := h
  obtain ⟨i, hi, -⟩ := (blockIn_iff range start).mp hin
  obtain ⟨htries, hnone⟩ := hbusy.stops (by omega)
  have htaken : portRangeIsFree s.readTsc.2 (range.used (range.seed s.readTsc.1))
    defaultPortBlockSize = false := hbusy.2
  intro hright
  obtain ⟨t, ht, -⟩ := hright.complete hnone (fun x hx hr => by
    rw [htries, List.mem_singleton] at hx
    subst hx
    rw [hr.1] at htaken
    cases htaken) start hin hfree
  -- the only block tried is not the free one
  rw [htries, List.mem_singleton] at ht
  have hfree' : portRangeIsFree s.readTsc.2 start defaultPortBlockSize = true := hfree
  rw [(Prod.mk.inj ht).1, htaken] at hfree'
  cases hfree'

/-- For every port map, range, cycle counter and set of answers: the search for any block
is right if and only if no old `EBUSY` meets a first block that is not free while another is. -/
theorem portBlockAlloc_complete_iff (range : PortRange) (s : PortSt) :
    SearchRight range s ↔ ¬ StaleBusy range s := by
  constructor
  · exact fun h hstale => hstale.not_complete h
  · intro h
    have hcomplete : (portBlockAlloc range s 0).1 = none →
        (∀ x ∈ portBlockTries range s, ¬ OffloadRefused x.2 x.1) →
        ∀ start, BlockIn range start → portRangeIsFree s start defaultPortBlockSize = true →
          ∃ t, (start, t) ∈ portBlockTries range s ∧ ¬ Obtainable t start :=
      fun hnone hoff start hin hfree =>
        search_complete (fun hbusy => h ⟨hbusy, start, hin, hfree⟩) hnone hoff start hin
    rcases Nat.eq_zero_or_pos range.blocks with h0 | hn
    · have hnil : portBlockTries range s = [] := by
        unfold portBlockTries
        rw [h0]
        rfl
      refine ⟨portBlockAlloc_lastTry range s, ?_, ?_, ?_, hcomplete⟩
      · rw [hnil]
        exact fun x hx => absurd hx List.not_mem_nil
      · rw [hnil]
        exact List.nodup_nil
      · rw [hnil]
        exact fun x hx => absurd hx List.not_mem_nil
    have hstand := seed_stand range s.readTsc.1
    have hmem := mem_blockTries hn range.blocks _ s.readTsc.2 hstand
    refine ⟨portBlockAlloc_lastTry range s, fun x hx => (hmem x hx).2, ?_, fun x hx hnone => ?_,
      hcomplete⟩
    · have hpre := blockTries_walk hn range.blocks _ s.readTsc.2 hstand
      have hinj : Function.Injective fun i => range.firstBlock.toNat + 64 * i := fun a b hab => by
        dsimp only at hab
        omega
      have hnd := hpre.sublist.nodup ((walk_nodup (hstand.slot_lt hn) le_rfl).map hinj)
      have hcomp : (blockTries range range.firstBlock range.blockEnd range.blocks
          (range.seed s.readTsc.1) s.readTsc.2).map (fun x => x.1.toNat) =
          ((portBlockTries range s).map Prod.fst).map BitVec.toNat := by
        rw [List.map_map]
        rfl
      rw [hcomp] at hnd
      exact hnd.of_map _
    · rcases doPortBlockAlloc_made range x.2 (hmem x hx).1 with ⟨-, -, hmap⟩ | ⟨b, -, hb, -⟩
      · exact hmap
      · rw [hnone] at hb
        cases hb

/-- Port 41024 is taken, nothing else, and `errno` is still `EBUSY` from an earlier call. -/
def oldErrno : PortSt where
  portMap := fun p => p = 41024
  heap := fun _ => ⟨0, 0, 0, 0, false, []⟩
  fresh := 0
  portBlocks := []
  table := []
  oracles := { ebusy := true }

/-- The search tries only the block at 41024, although all the others could be had. -/
theorem oldErrno_stops :
    (portBlockAlloc {} oldErrno 0).1 = none ∧ (portBlockTries {} oldErrno).map Prod.fst = [41024] ∧
      PortRange.blocks {} = 359 ∧ BlockIn {} 41088 ∧ Obtainable oldErrno 41088 ∧
      ¬ SearchRight {} oldErrno := by
  have hin : BlockIn {} 41088 := ⟨by decide, by decide, by decide⟩
  have hnone : (portBlockAlloc {} oldErrno 0).1 = none := by decide +kernel
  have htries : (portBlockTries {} oldErrno).map Prod.fst = [41024] := by decide +kernel
  refine ⟨hnone, htries, by decide, hin, by decide +kernel, fun h => ?_⟩
  have hoff : ∀ x ∈ portBlockTries {} oldErrno, ¬ OffloadRefused x.2 x.1 := by decide +kernel
  obtain ⟨t, ht, -⟩ := h.complete hnone hoff 41088 hin (by decide +kernel)
  have hmem : (41088 : U16) ∈ (portBlockTries {} oldErrno).map Prod.fst :=
    List.mem_map.mpr ⟨_, ht, rfl⟩
  revert hmem
  decide

end LibTpa
