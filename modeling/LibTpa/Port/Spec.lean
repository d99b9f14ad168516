/- LibTpa/Port/Spec
   digest: What each function of the port allocator changes. -/

import LibTpa.Port.Alloc

set_option autoImplicit false

namespace LibTpa

structure SameBlocks (s s' : PortSt) : Prop where
  heap : s'.heap = s.heap
  fresh : s'.fresh = s.fresh
  blocks : s'.portBlocks = s.portBlocks
  table : s'.table = s.table
  entryOk : s'.oracles.entryOk = s.oracles.entryOk

namespace SameBlocks

theorem refl (s : PortSt) : SameBlocks s s := ⟨rfl, rfl, rfl, rfl, rfl⟩

theorem trans {s t u : PortSt} (h : SameBlocks s t) (h' : SameBlocks t u) : SameBlocks s u :=
  ⟨h'.heap.trans h.heap, h'.fresh.trans h.fresh, h'.blocks.trans h.blocks, h'.table.trans h.table,
    h'.entryOk.trans h.entryOk⟩

end SameBlocks

structure PortsTaken (s : PortSt) (ports : List U16) (s' : PortSt) : Prop where
  same : SameBlocks s s'
  map : ∀ p, s'.portMap p = (s.portMap p || decide (p ∈ ports))
  free : ∀ p ∈ ports, s.portMap p = false

theorem PortsTaken.none {s s' : PortSt} (h : SameBlocks s s') (hm : s'.portMap = s.portMap) :
    PortsTaken s [] s' :=
  ⟨h, fun p => by simp [hm], nofun⟩

theorem doPortAlloc_spec (s : PortSt) (port : U16) (h0 : port ≠ 0) :
    ((doPortAlloc s port).1 = 0 ∧ PortsTaken s [] (doPortAlloc s port).2) ∨
      ((doPortAlloc s port).1 = port ∧ PortsTaken s [port] (doPortAlloc s port).2) := by
  unfold doPortAlloc
  split
  · exact .inl ⟨rfl, .none (.refl s) rfl⟩
  next hfree =>
  dsimp only
  split
  · refine .inr ⟨rfl, ⟨rfl, rfl, rfl, rfl, rfl⟩, fun p => ?_, fun p hp => ?_⟩
    · by_cases hp : p = port
      · subst hp
        simp
      · simp [hp, PortSt.askKernel]
    · rw [List.mem_singleton.mp hp]
      simpa using hfree
  · exact .inl ⟨rfl, .none ⟨rfl, rfl, rfl, rfl, rfl⟩ rfl⟩

def Got (s : PortSt) (r : U16 × PortSt) : Prop :=
  (r.1 = 0 ∧ PortsTaken s [] r.2) ∨ (r.1 ≠ 0 ∧ PortsTaken s [r.1] r.2)

theorem Got.of_same {s t : PortSt} {r : U16 × PortSt} (h : SameBlocks s t)
    (hm : t.portMap = s.portMap) (hr : Got t r) : Got s r := by
  have lift : ∀ {ports s'}, PortsTaken t ports s' → PortsTaken s ports s' := fun ht =>
    ⟨h.trans ht.same, fun p => by rw [ht.map p, hm], fun p hp => by rw [← hm]; exact ht.free p hp⟩
  rcases hr with ⟨h1, h2⟩ | ⟨h1, h2⟩
  · exact .inl ⟨h1, lift h2⟩
  · exact .inr ⟨h1, lift h2⟩

theorem doPortAlloc_got (s : PortSt) (port : U16) (h0 : port ≠ 0) : Got s (doPortAlloc s port) := by
  rcases doPortAlloc_spec s port h0 with ⟨h1, h2⟩ | ⟨h1, h2⟩
  · exact .inl ⟨h1, h2⟩
  · refine .inr ⟨by rw [h1]; exact h0, ?_⟩
    rw [h1]
    exact h2

theorem portAllocLoop_got (range : PortRange) (n : Nat) : ∀ (port : U16) (s : PortSt),
    range.min.toNat ≤ port.toNat → port.toNat < range.max.toNat →
    Got s (portAllocLoop range n port s) := by
  have hmin := range.min_ge
  have hmax := range.max_le
  have hlt := range.min_lt
  induction n with
  | zero =>
    intro port s _ _
    exact .inl ⟨rfl, .none (.refl s) rfl⟩
  | succ n ih =>
    intro port s h1 h2
    have h0 : port ≠ 0 := by
      intro h0
      rw [h0] at h1
      have : (0 : U16).toNat = 0 := rfl
      omega
    unfold portAllocLoop
    rcases doPortAlloc_spec s port h0 with ⟨hr, ht⟩ | ⟨hr, ht⟩
    · rw [if_neg (by rw [hr]; simp)]
      refine Got.of_same ht.same (funext fun p => by simp [ht.map p]) (ih _ _ ?_ ?_)
      · split
        · exact le_rfl
        · rw [BitVec.toNat_add]
          have : (1 : U16).toNat = 1 := rfl
          omega
      · split
        · exact hlt
        · next hne =>
          have hne' : (port + 1).toNat ≠ range.max.toNat := fun h => hne (BitVec.eq_of_toNat_eq h)
          rw [BitVec.toNat_add] at hne' ⊢
          have : (1 : U16).toNat = 1 := rfl
          omega
    · rw [if_pos (by rw [hr]; exact h0)]
      exact .inr ⟨h0, ht⟩

theorem portAlloc_got (range : PortRange) (s : PortSt) (port : U16) :
    Got s (portAlloc range s port) := by
  unfold portAlloc
  split
  · next h0 => exact doPortAlloc_got s port h0
  · have hmin := range.min_ge
    have hmax := range.max_le
    have hlt := range.min_lt
    have hmod : s.readTsc.1 % range.count < range.count :=
      Nat.mod_lt _ (by unfold PortRange.count; omega)
    have hcount : range.count = range.max.toNat - range.min.toNat := rfl
    have hport : (BitVec.ofNat 16 (s.readTsc.1 % range.count) + range.min).toNat =
        s.readTsc.1 % range.count + range.min.toNat := by
      rw [BitVec.toNat_add, BitVec.toNat_ofNat,
        Nat.mod_eq_of_lt (a := s.readTsc.1 % range.count) (by omega)]
      exact Nat.mod_eq_of_lt (by omega)
    refine Got.of_same (t := s.readTsc.2) ⟨rfl, rfl, rfl, rfl,
      rfl⟩ rfl (portAllocLoop_got range _ _ _ ?_ ?_)
    · omega
    · omega

theorem portAlloc_given (range : PortRange) (s : PortSt) {port : U16} (h0 : port ≠ 0)
    (hr : (portAlloc range s port).1 ≠ 0) : (portAlloc range s port).1 = port := by
  unfold portAlloc at hr ⊢
  rw [if_pos h0] at hr ⊢
  exact (doPortAlloc_spec s port h0).elim (fun h => absurd h.1 hr) fun h => h.1

theorem PortsTaken.cons {s t u : PortSt} {port : U16} {ports : List U16} (h : PortsTaken s [port] t)
    (h' : PortsTaken t ports u) : PortsTaken s (port :: ports) u := by
  refine ⟨h.same.trans h'.same, fun p => ?_, fun p hp => ?_⟩
  · rw [h'.map p, h.map p]
    simp [Bool.or_assoc]
  · rcases List.mem_cons.mp hp with rfl | hp
    · exact h.free p List.mem_cons_self
    · have := h'.free p hp
      rw [h.map p] at this
      exact (Bool.or_eq_false_iff.mp this).1

theorem allocPorts_taken (range : PortRange) (start : U16) (n : Nat) : ∀ (i : Nat) (s : PortSt),
    PortsTaken s (allocPorts range start n i s).2.1 (allocPorts range start n i s).2.2 := by
  induction n with
  | zero => exact fun i s => .none (.refl s) rfl
  | succ n ih =>
    intro i s
    unfold allocPorts
    rcases portAlloc_got range s (start + BitVec.ofNat 16 i) with ⟨h1, h2⟩ | ⟨h1, h2⟩
    · rw [if_pos h1]
      exact h2
    · rw [if_neg h1]
      exact h2.cons (ih (i + 1) _)

theorem allocPorts_given (range : PortRange) (start : U16) (n : Nat) : ∀ (i : Nat) (s : PortSt),
    (allocPorts range start n i s).1 = true → ∀ k, k < n → start + BitVec.ofNat 16 (i + k) ≠ 0 →
    (allocPorts range start n i s).2.1[k]? = some (start + BitVec.ofNat 16 (i + k)) := by
  induction n with
  | zero => exact fun i s _ k hk => absurd hk (Nat.not_lt_zero k)
  | succ n ih =>
    intro i s hok k hk h0
    unfold allocPorts at hok ⊢
    dsimp only at hok ⊢
    split at hok
    · cases hok
    next h1 =>
    rw [if_neg h1]
    cases k with
    | zero =>
      rw [Nat.add_zero] at h0
      simp only [List.getElem?_cons_zero, Nat.add_zero, portAlloc_given range s h0 h1]
    | succ k =>
      have := ih (i + 1) _ hok k (Nat.lt_of_succ_lt_succ hk)
      rw [Nat.add_right_comm, Nat.add_assoc] at this
      simpa using this h0

theorem allocPorts_length (range : PortRange) (start : U16) (n : Nat) : ∀ (i : Nat) (s : PortSt),
    (allocPorts range start n i s).1 = true → (allocPorts range start n i s).2.1.length = n := by
  induction n with
  | zero => exact fun i s _ => rfl
  | succ n ih =>
    intro i s hok
    unfold allocPorts at hok ⊢
    dsimp only at hok ⊢
    split at hok
    · cases hok
    next h1 =>
    rw [if_neg h1]
    simpa using ih (i + 1) _ hok

theorem foldl_portFree (ports : List U16) : ∀ s : PortSt,
    SameBlocks s (ports.foldl (fun s port => (portFree s port).2) s) ∧
      ∀ p, (ports.foldl (fun s port => (portFree s port).2) s).portMap p =
        (s.portMap p && !decide (p ∈ ports)) := by
  induction ports with
  | nil => exact fun s => ⟨.refl s, by simp⟩
  | cons port ports ih =>
    intro s
    obtain ⟨h1, h2⟩ := ih (portFree s port).2
    rw [List.foldl_cons]
    refine ⟨SameBlocks.trans (t := (portFree s port).2) ⟨rfl, rfl, rfl, rfl, rfl⟩ h1, fun p => ?_⟩
    rw [h2 p]
    by_cases hp : p = port
    · subst hp
      simp [portFree]
    · simp [portFree, hp]

theorem PortsTaken.freePorts {s t : PortSt} {ports : List U16} (h : PortsTaken s ports t) :
    SameBlocks s (freePorts t ports) ∧ (freePorts t ports).portMap = s.portMap := by
  obtain ⟨h1, h2⟩ := foldl_portFree ports.reverse t
  refine ⟨h.same.trans h1, funext fun p => ?_⟩
  rw [LibTpa.freePorts, h2 p, h.map p]
  by_cases hp : p ∈ ports
  · simp [hp, h.free p hp]
  · simp [hp]

/-- A block that starts at a multiple of its size, behind port 0, and ends inside the
port space. -/
structure StartOk (start : U16) : Prop where
  aligned : start.toNat % 64 = 0
  ge : 64 ≤ start.toNat
  lt : start.toNat + 64 < 2 ^ 16

def blockPorts (start : U16) : List U16 := (List.range 64).map fun i => start + BitVec.ofNat 16 i

namespace StartOk

variable {start : U16} (h : StartOk start)
include h

theorem toNat_add {i : Nat} (hi : i ≤ 64) :
    (start + BitVec.ofNat 16 i).toNat = start.toNat + i := by
  have := h.lt
  rw [BitVec.toNat_add, BitVec.toNat_ofNat, Nat.mod_eq_of_lt (a := i) (by omega)]
  exact Nat.mod_eq_of_lt (by omega)

theorem add_ne_zero {i : Nat} (hi : i < 64) : start + BitVec.ofNat 16 i ≠ 0 := by
  intro h0
  have h1 := h.toNat_add (i := i) (by omega)
  have h2 := h.ge
  rw [h0] at h1
  change 0 = _ at h1
  omega

theorem mem_blockPorts {p : U16} :
    p ∈ blockPorts start ↔ start.toNat ≤ p.toNat ∧ p.toNat < start.toNat + 64 := by
  unfold blockPorts
  simp only [List.mem_map, List.mem_range]
  constructor
  · rintro ⟨i, hi, rfl⟩
    rw [h.toNat_add (by omega)]
    omega
  · intro hp
    refine ⟨p.toNat - start.toNat, by omega, ?_⟩
    apply BitVec.eq_of_toNat_eq
    rw [h.toNat_add (by omega)]
    omega

theorem contains_iff {p : U16} : start ≤ p ∧ p < start + 64 ↔ p ∈ blockPorts start := by
  rw [h.mem_blockPorts, BitVec.le_def, BitVec.lt_def]
  rw [show (start + 64).toNat = start.toNat + 64 from h.toNat_add (i := 64) le_rfl]

end StartOk

theorem allocPorts_all (range : PortRange) {start : U16} (h : StartOk start) (s : PortSt)
    (hok : (allocPorts range start 64 0 s).1 = true) :
    (allocPorts range start 64 0 s).2.1 = blockPorts start := by
  apply List.ext_getElem?
  intro k
  by_cases hk : k < 64
  · rw [allocPorts_given range start 64 0 s hok k hk (by rw [Nat.zero_add]; exact h.add_ne_zero hk)]
    simp [blockPorts, hk]
  · rw [List.getElem?_eq_none (by rw [allocPorts_length range start 64 0 s hok]; omega),
      List.getElem?_eq_none (by simp [blockPorts]; omega)]

structure NewBlock (s : PortSt) (start : U16) (b : Nat) (s' : PortSt) : Prop where
  ok : StartOk start
  addr : b = s.fresh
  heap : s'.heap = Function.update s.heap b ⟨start, start + 64, 64, 0, false, blockPorts start⟩
  fresh : s'.fresh = s.fresh + 1
  blocks : s'.portBlocks = s.portBlocks
  table : s'.table = s.table
  map : ∀ p, s'.portMap p = (s.portMap p || decide (p ∈ blockPorts start))
  free : ∀ p ∈ blockPorts start, s.portMap p = false

/-- The outcome of making a block: nothing has changed, or there is a new block, at a start
that `Q` admits. -/
def Made (Q : U16 → Prop) (s : PortSt) (r : Option Nat × PortSt) : Prop :=
  (r.1 = none ∧ SameBlocks s r.2 ∧ r.2.portMap = s.portMap) ∨
    ∃ b start, r.1 = some b ∧ Q start ∧ NewBlock s start b r.2 ∧
      r.2.oracles.entryOk = s.oracles.entryOk

theorem Made.mono {Q Q' : U16 → Prop} {s : PortSt} {r : Option Nat × PortSt} (h : Made Q s r)
    (hq : ∀ start, Q start → Q' start) : Made Q' s r :=
  h.imp id fun ⟨b, start, h1, h2, h3⟩ => ⟨b, start, h1, hq start h2, h3⟩

theorem Made.of_same {Q : U16 → Prop} {s t : PortSt} {r : Option Nat × PortSt} (h : SameBlocks s t)
    (hm : t.portMap = s.portMap) (hr : Made Q t r) : Made Q s r := by
  rcases hr with ⟨h1, h2, h3⟩ | ⟨b, start, h1, hq, h2, h3⟩
  · exact .inl ⟨h1, h.trans h2, h3.trans hm⟩
  · exact .inr ⟨b, start, h1, hq, ⟨h2.ok, h2.addr.trans h.fresh, h.heap ▸ h2.heap,
      h.fresh ▸ h2.fresh,
      h2.blocks.trans h.blocks, h2.table.trans h.table, hm ▸ h2.map, hm ▸ h2.free⟩,
      h3.trans h.entryOk⟩

theorem doPortBlockAlloc_made (range : PortRange) (s : PortSt) {start : U16} (h : StartOk start) :
    Made (· = start) s (doPortBlockAlloc range s start defaultPortBlockSize) := by
  unfold doPortBlockAlloc
  rw [if_neg (by decide)]
  split
  · exact .inl ⟨rfl, .refl s, rfl⟩
  dsimp only
  split
  · exact .inl ⟨rfl, ⟨rfl, rfl, rfl, rfl, rfl⟩, rfl⟩
  rw [show defaultPortBlockSize.toNat = 64 from rfl]
  have ht := allocPorts_taken range start 64 0 s.askBlock.2
  have hall := allocPorts_all range h s.askBlock.2
  generalize allocPorts range start 64 0 s.askBlock.2 = r at *
  have hs : SameBlocks s s.askBlock.2 := ⟨rfl, rfl, rfl, rfl, rfl⟩
  split
  · obtain ⟨h1, h2⟩ := ht.freePorts
    exact .inl ⟨rfl, hs.trans h1, h2⟩
  next hok =>
  have hports : r.2.1 = blockPorts start := hall (by simpa using hok)
  have hto : PortsTaken s r.2.1 (r.2.2.setBusy false).askOffload.2 :=
    ⟨(hs.trans ht.same).trans ⟨rfl, rfl, rfl, rfl, rfl⟩, ht.map, ht.free⟩
  generalize (r.2.2.setBusy false).askOffload = o at *
  split
  · have hto' : PortsTaken s r.2.1 (o.2.setBusy true) :=
      ⟨hto.same.trans ⟨rfl, rfl, rfl, rfl, rfl⟩, hto.map, hto.free⟩
    obtain ⟨h1, h2⟩ := hto'.freePorts
    exact .inl ⟨rfl, h1, h2⟩
  · rw [hports] at hto ⊢
    refine .inr ⟨o.2.fresh, start, rfl, rfl,
      ⟨h, hto.same.fresh, ?_, ?_, hto.same.blocks, hto.same.table,
      hto.map, hto.free⟩, hto.same.entryOk⟩
    · show Function.update o.2.heap o.2.fresh _ = _
      rw [hto.same.heap]
      rfl
    · rw [hto.same.fresh]

theorem and_not_mask (x : U16) :
    (x &&& ~~~defaultPortBlockMask).toNat = x.toNat - x.toNat % 64 := by
  have hsplit : (x &&& defaultPortBlockMask) + (x &&& ~~~defaultPortBlockMask) = x := by
    rw [BitVec.add_eq_or_of_and_eq_zero]
    · ext i hi
      simp only [BitVec.getElem_or, BitVec.getElem_and, BitVec.getElem_not]
      cases x[i] <;> cases defaultPortBlockMask[i] <;> rfl
    · ext i hi
      simp only [BitVec.getElem_and, BitVec.getElem_not, BitVec.getElem_zero]
      cases x[i] <;> cases defaultPortBlockMask[i] <;> rfl
  have hlow : (x &&& defaultPortBlockMask).toNat = x.toNat % 64 := by
    rw [BitVec.toNat_and, show defaultPortBlockMask.toNat = 2 ^ 6 - 1 from rfl,
      Nat.and_two_pow_sub_one_eq_mod]
  have hle : (x &&& ~~~defaultPortBlockMask).toNat ≤ x.toNat := by
    exact Nat.and_le_left
  have hsum := congrArg BitVec.toNat hsplit
  rw [BitVec.toNat_add, hlow] at hsum
  have := x.isLt
  omega

theorem portBlockAllocLoop_made (range : PortRange) {min max : U16} (hmin : StartOk min)
    (hmax : max.toNat ≤ 64000) (n : Nat) : ∀ (start : U16) (s : PortSt), start.toNat % 64 = 0 →
      64 ≤ start.toNat → Made (fun _ => True) s (portBlockAllocLoop range min max n start s) := by
  induction n with
  | zero => exact fun start s _ _ => .inl ⟨rfl, .refl s, rfl⟩
  | succ n ih =>
    intro start s h1 h2
    unfold portBlockAllocLoop
    dsimp only
    obtain ⟨used, hused⟩ : ∃ used, used = if max ≤ start then min else start := ⟨_, rfl⟩
    have hok : StartOk used := by
      rw [hused]
      split
      · exact hmin
      · next hlt =>
        have hlt : start.toNat < max.toNat := Nat.lt_of_not_le hlt
        exact ⟨h1, h2, by omega⟩
    rw [← hused]
    have hmade := doPortBlockAlloc_made range s hok
    split
    · exact hmade.mono fun _ _ => trivial
    next hnone =>
    rcases hmade with ⟨h3, h4, h5⟩ | ⟨b, start', h3, -⟩
    · have hnext := hok.toNat_add (i := 64) le_rfl
      have h6 := hok.aligned
      exact .of_same h4 h5 (ih (used + BitVec.ofNat 16 64) _ (by rw [hnext]; omega)
        (by rw [hnext]; omega))
    · rw [h3] at hnone
      simp at hnone

/-- The ports that may be asked for: 0 for any, or one whose block is well placed. -/
def PortOk (port : U16) : Prop := port = 0 ∨ 64 ≤ port.toNat ∧ port.toNat < 65472

instance (port : U16) : Decidable (PortOk port) :=
  inferInstanceAs (Decidable (port = 0 ∨ 64 ≤ port.toNat ∧ port.toNat < 65472))

theorem PortOk.startOk {port : U16} (h : PortOk port) (h0 : port ≠ 0) :
    StartOk (port &&& ~~~defaultPortBlockMask) := by
  have h := h.resolve_left h0
  have := and_not_mask port
  exact ⟨by omega, by omega, by omega⟩

theorem portBlockAlloc_made (range : PortRange) (s : PortSt) {port : U16} (hport : PortOk port) :
    Made (fun start => port ≠ 0 → start = port &&& ~~~defaultPortBlockMask) s
      (portBlockAlloc range s port) := by
  unfold portBlockAlloc
  split
  · next h0 => exact (doPortBlockAlloc_made range s (hport.startOk h0)).mono fun _ h _ => h
  · next h0 =>
    refine Made.mono (Q := fun _ => True) ?_ fun _ _ h => absurd h h0
    have h1 := range.min_ge
    have h2 := range.max_le
    have h3 := range.min_lt
    have hadd : (range.min + defaultPortBlockMask).toNat = range.min.toNat + 63 := by
      rw [BitVec.toNat_add, show defaultPortBlockMask.toNat = 63 from rfl]
      exact Nat.mod_eq_of_lt (by omega)
    have hmin := and_not_mask (range.min + defaultPortBlockMask)
    have hmax := and_not_mask range.max
    have hmod : (s.readTsc.1 >>> 2) % range.count < range.count :=
      Nat.mod_lt _ (by unfold PortRange.count; omega)
    have hcount : range.count = range.max.toNat - range.min.toNat := rfl
    refine Made.of_same (t := s.readTsc.2) ⟨rfl, rfl, rfl, rfl, rfl⟩ rfl
      (portBlockAllocLoop_made range ⟨?_, ?_, ?_⟩ ?_ _ _ _ ?_ ?_)
    · omega
    · omega
    · omega
    · omega
    · rw [and_not_mask]
      omega
    · rw [and_not_mask, BitVec.toNat_add, BitVec.toNat_ofNat]
      omega

end LibTpa
