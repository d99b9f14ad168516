/- LibTpa/Port/Invariant
   digest: Blocks hold their ports, and their counters match the table. -/

import LibTpa.Port.Bind
import Mathlib.Data.List.Perm.Basic

set_option autoImplicit false

namespace LibTpa

def boundThrough (table : List SockEntry) (b : Nat) : Nat := table.countP fun e => e.via = some b

/-- Block `b` of the worker is as `do_port_block_alloc` has made it, and its ports are taken. -/
structure BlockInv (s : PortSt) (b : Nat) : Prop where
  old : b < s.fresh
  ok : StartOk (s.heap b).start
  stop : (s.heap b).stop = (s.heap b).start + 64
  size : (s.heap b).size = 64
  ports : (s.heap b).ports = blockPorts (s.heap b).start
  held : ∀ p ∈ blockPorts (s.heap b).start, s.portMap p = true
  refcnt : (s.heap b).refcnt = boundThrough s.table b

/-- The port map, the blocks and the table agree; `listening` are the ports that listeners
have allocated. -/
structure PortInv (s : PortSt) (listening : List U16) : Prop where
  nodup : s.portBlocks.Nodup
  block : ∀ b ∈ s.portBlocks, BlockInv s b
  starts : ∀ b ∈ s.portBlocks, ∀ c ∈ s.portBlocks, (s.heap b).start = (s.heap c).start → b = c
  listen : ∀ p ∈ listening, s.portMap p = true ∧ ∀ b ∈ s.portBlocks, p ∉ blockPorts (s.heap b).start
  keys : (s.table.map SockEntry.key).Nodup
  bound : ∀ e ∈ s.table, ∀ b, e.via = some b → b ∈ s.portBlocks ∧
    e.key.localPort ∈ blockPorts (s.heap b).start

theorem StartOk.eq_of_mem {start start' p : U16} (h : StartOk start) (h' : StartOk start')
    (hp : p ∈ blockPorts start) (hp' : p ∈ blockPorts start') : start = start' := by
  rw [h.mem_blockPorts] at hp
  rw [h'.mem_blockPorts] at hp'
  have h1 := h.aligned
  have h2 := h'.aligned
  apply BitVec.eq_of_toNat_eq
  omega

theorem BlockInv.contains_iff {s : PortSt} {b : Nat} (h : BlockInv s b) (p : U16) :
    (decide ((s.heap b).start ≤ p) && decide (p < (s.heap b).stop)) = true ↔
      p ∈ blockPorts (s.heap b).start := by
  rw [← h.ok.contains_iff, Bool.and_eq_true, decide_eq_true_iff, decide_eq_true_iff, h.stop]

namespace PortInv

variable {s s' : PortSt} {listening : List U16} {b : Nat}

theorem blocksOk (h : PortInv s listening) : BlocksOk s :=
  fun b hb => ⟨(h.block b hb).ok, (h.block b hb).size⟩

theorem disjoint (h : PortInv s listening) {c : Nat} {p : U16} (hb : b ∈ s.portBlocks)
    (hc : c ∈ s.portBlocks) (hpb : p ∈ blockPorts (s.heap b).start)
    (hpc : p ∈ blockPorts (s.heap c).start) : b = c :=
  h.starts b hb c hc ((h.block b hb).ok.eq_of_mem (h.block c hc).ok hpb hpc)

theorem find_iff (h : PortInv s listening) (p : U16) (b : Nat) :
    portBlockFind s p = some b ↔ b ∈ s.portBlocks ∧ p ∈ blockPorts (s.heap b).start := by
  unfold portBlockFind
  constructor
  · intro hf
    have hb := List.mem_of_find?_eq_some hf
    have hin := List.find?_some hf
    exact ⟨hb, ((h.block b hb).contains_iff p).mp hin⟩
  · rintro ⟨hb, hp⟩
    cases hf : s.portBlocks.find? fun b =>
        decide ((s.heap b).start ≤ p) && decide (p < (s.heap b).stop) with
    | none => exact absurd (((h.block b hb).contains_iff p).mpr hp) (List.find?_eq_none.mp hf b hb)
    | some c =>
      have hc := List.mem_of_find?_eq_some hf
      have hin := List.find?_some hf
      rw [h.disjoint hb hc hp (((h.block c hc).contains_iff p).mp hin)]

theorem unchanged (h : PortInv s listening) (hu : Unchanged s s') : PortInv s' listening := by
  obtain ⟨h1, h2, h3, h4, h5, -⟩ := hu
  constructor
  · rw [h4]
    exact h.nodup
  · intro b hb
    rw [h4] at hb
    have hi := h.block b hb
    constructor
    · rw [h3]; exact hi.old
    · rw [h2]; exact hi.ok
    · rw [h2]; exact hi.stop
    · rw [h2]; exact hi.size
    · rw [h2]; exact hi.ports
    · rw [h1, h2]; exact hi.held
    · rw [h2, h5]; exact hi.refcnt
  · rw [h4, h2]
    exact h.starts
  · rw [h1, h2, h4]
    exact h.listen
  · rw [h5]
    exact h.keys
  · rw [h5, h4, h2]
    exact h.bound

theorem asked (h : PortInv s listening) (oracles : PortOracles) :
    PortInv { s with oracles := oracles } listening := by
  refine ⟨h.nodup, fun b hb => ?_, h.starts, h.listen, h.keys, h.bound⟩
  have hi := h.block b hb
  exact ⟨hi.old, hi.ok, hi.stop, hi.size, hi.ports, hi.held, hi.refcnt⟩

theorem retable (h : PortInv s listening) {table : List SockEntry} (refcnt : Int) (armed : Bool)
    (hkeys : (table.map SockEntry.key).Nodup)
    (hbound : ∀ e ∈ table, ∀ c, e.via = some c → c ∈ s.portBlocks ∧
      e.key.localPort ∈ blockPorts (s.heap c).start)
    (hself : b ∈ s.portBlocks → refcnt = boundThrough table b)
    (hother : ∀ c, c ≠ b → boundThrough table c = boundThrough s.table c)
    (hs : s'.portMap = s.portMap) (hf : s'.fresh = s.fresh) (hb : s'.portBlocks = s.portBlocks)
    (ht : s'.table = table)
    (hh : s'.heap = Function.update s.heap b { s.heap b with refcnt := refcnt, armed := armed }) :
    PortInv s' listening := by
  have hstart : ∀ c, (s'.heap c).start = (s.heap c).start := by
    intro c
    rw [hh]
    by_cases hc : c = b
    · subst hc
      rw [Function.update_self]
    · rw [Function.update_of_ne hc]
  have hrest : ∀ c, (s'.heap c).stop = (s.heap c).stop ∧ (s'.heap c).size = (s.heap c).size ∧
      (s'.heap c).ports = (s.heap c).ports := by
    intro c
    rw [hh]
    by_cases hc : c = b
    · subst hc
      rw [Function.update_self]
      exact ⟨rfl, rfl, rfl⟩
    · rw [Function.update_of_ne hc]
      exact ⟨rfl, rfl, rfl⟩
  constructor
  · rw [hb]
    exact h.nodup
  · intro c hc
    rw [hb] at hc
    have hi := h.block c hc
    obtain ⟨h1, h2, h3⟩ := hrest c
    constructor
    · rw [hf]; exact hi.old
    · rw [hstart]; exact hi.ok
    · rw [h1, hstart]; exact hi.stop
    · rw [h2]; exact hi.size
    · rw [h3, hstart]; exact hi.ports
    · rw [hs, hstart]; exact hi.held
    · rw [hh, ht]
      by_cases hcb : c = b
      · subst hcb
        rw [Function.update_self]
        exact hself hc
      · rw [Function.update_of_ne hcb, hother c hcb]
        exact hi.refcnt
  · intro c hc d hd
    rw [hb] at hc hd
    rw [hstart, hstart]
    exact h.starts c hc d hd
  · intro p hp
    rw [hs, hb]
    refine ⟨(h.listen p hp).1, fun c hc => ?_⟩
    rw [hstart]
    exact (h.listen p hp).2 c hc
  · rw [ht]
    exact hkeys
  · intro e he c hc
    rw [ht] at he
    rw [hb, hstart]
    exact hbound e he c hc

theorem boundThrough_append (table : List SockEntry) (e : SockEntry) (b : Nat) :
    boundThrough (table ++ [e]) b = boundThrough table b + if e.via = some b then 1 else 0 := by
  unfold boundThrough
  simp [List.countP_append, List.countP_cons]

theorem keys_append {table : List SockEntry} {e : SockEntry} (h : (table.map SockEntry.key).Nodup)
    (hfree : KeyFree table e.key) : ((table ++ [e]).map SockEntry.key).Nodup := by
  rw [List.map_append, List.nodup_append]
  refine ⟨h, List.nodup_singleton _, fun k hk k' hk' => ?_⟩
  obtain ⟨x, hx, rfl⟩ := List.mem_map.mp hk
  rw [List.map_singleton, List.mem_singleton] at hk'
  rw [hk']
  exact hfree x hx

theorem added (h : PortInv s listening) {key : SockKey} {tsock : Nat} {port : U16}
    (hb : b ∈ s.portBlocks) (hport : port ∈ blockPorts (s.heap b).start)
    (ha : Added s key tsock b port s') :
    PortInv s' listening := by
  refine h.retable (b := b) _ _ (keys_append h.keys ha.free) (fun e he c hc =>
    ?_) ?_ (fun c hc => ?_) ha.map
    ha.fresh ha.blocks ha.table ha.heap
  · rcases List.mem_append.mp he with he | he
    · exact h.bound e he c hc
    · rw [List.mem_singleton] at he
      subst he
      cases hc
      exact ⟨hb, hport⟩
  · intro _
    rw [boundThrough_append, if_pos rfl, (h.block b hb).refcnt]
    rfl
  · rw [boundThrough_append, if_neg (fun heq => hc (Option.some.inj heq).symm)]
    rfl

section NewBlock

variable {start : U16} {t : PortSt} (hn : NewBlock s start b t)
include hn

theorem not_mem_of_newBlock (h : PortInv s listening) : b ∉ s.portBlocks := by
  intro hb
  have := (h.block b hb).old
  rw [hn.addr] at this
  omega

theorem newBlock_apart (h : PortInv s listening) {c : Nat} (hc : c ∈ s.portBlocks) {p : U16}
    (hp : p ∈ blockPorts (s.heap c).start) : p ∉ blockPorts start := by
  intro hp'
  have h1 := (h.block c hc).held p hp
  rw [hn.free p hp'] at h1
  cases h1

theorem blockInv_old {c : Nat} (hi : BlockInv s c) (hc : c ≠ b) : BlockInv (t.withBlock b) c := by
  have hheap := hn.heap_other hc
  constructor
  · show c < t.fresh
    rw [hn.fresh]
    exact Nat.lt_succ_of_lt hi.old
  · rw [hheap]; exact hi.ok
  · rw [hheap]; exact hi.stop
  · rw [hheap]; exact hi.size
  · rw [hheap]; exact hi.ports
  · intro p hp
    rw [hheap] at hp
    show t.portMap p = true
    rw [hn.map p, hi.held p hp]
    rfl
  · rw [hheap, hn.withBlock_table]; exact hi.refcnt

theorem blockInv_new (h : PortInv s listening) : BlockInv (t.withBlock b) b := by
  have hzero : boundThrough s.table b = 0 := by
    apply List.countP_eq_zero.mpr
    intro e he hvia
    exact h.not_mem_of_newBlock hn (h.bound e he b (by simpa using hvia)).1
  constructor
  · show b < t.fresh
    rw [hn.fresh, hn.addr]
    exact Nat.lt_succ_self _
  · rw [hn.heap_self]; exact hn.ok
  · rw [hn.heap_self]
  · rw [hn.heap_self]
  · rw [hn.heap_self]
  · intro p hp
    rw [hn.heap_self] at hp
    show t.portMap p = true
    rw [hn.map p]
    simp [hp]
  · rw [hn.heap_self, hn.withBlock_table, hzero]
    rfl

theorem newBlock_starts (h : PortInv s listening) {c d : Nat}
    (hc : c ∈ (t.withBlock b).portBlocks) (hd : d ∈ (t.withBlock b).portBlocks)
    (heq : ((t.withBlock b).heap c).start = ((t.withBlock b).heap d).start) : c = d := by
  have hfresh := h.not_mem_of_newBlock hn
  have hmem : start ∈ blockPorts start := hn.ok.mem_blockPorts.mpr ⟨le_rfl, by omega⟩
  -- an older block at the start of the new one would hold its first port
  have hold : ∀ c ∈ s.portBlocks, (s.heap c).start ≠ start := fun c hc heq =>
    h.newBlock_apart hn hc (heq.symm ▸ hmem) hmem
  rcases hn.mem_blocks.mp hc with hc' | rfl <;> rcases hn.mem_blocks.mp hd with hd' | rfl
  · rw [hn.heap_other (ne_of_mem_of_not_mem hc' hfresh),
      hn.heap_other (ne_of_mem_of_not_mem hd' hfresh)] at heq
    exact h.starts c hc' d hd' heq
  · rw [hn.heap_other (ne_of_mem_of_not_mem hc' hfresh), hn.heap_self] at heq
    exact absurd heq (hold c hc')
  · rw [hn.heap_other (ne_of_mem_of_not_mem hd' hfresh), hn.heap_self] at heq
    exact absurd heq.symm (hold d hd')
  · rfl

theorem newBlock (h : PortInv s listening) : PortInv (t.withBlock b) listening := by
  have hfresh := h.not_mem_of_newBlock hn
  constructor
  · show (t.portBlocks ++ [b]).Nodup
    rw [hn.blocks]
    refine List.nodup_append.mpr ⟨h.nodup, List.nodup_singleton b, fun c hc d hd => ?_⟩
    rw [List.mem_singleton.mp hd]
    exact ne_of_mem_of_not_mem hc hfresh
  · intro c hc
    rcases hn.mem_blocks.mp hc with hc | rfl
    · exact blockInv_old hn (h.block c hc) (ne_of_mem_of_not_mem hc hfresh)
    · exact h.blockInv_new hn
  · exact fun c hc d hd => h.newBlock_starts hn hc hd
  · intro p hp
    obtain ⟨h1, h2⟩ := h.listen p hp
    refine ⟨?_, fun c hc => ?_⟩
    · show t.portMap p = true
      rw [hn.map p, h1]
      rfl
    · rcases hn.mem_blocks.mp hc with hc | rfl
      · rw [hn.heap_other (ne_of_mem_of_not_mem hc hfresh)]
        exact h2 c hc
      · rw [hn.heap_self]
        intro hp'
        rw [hn.free p hp'] at h1
        cases h1
  · rw [hn.withBlock_table]
    exact h.keys
  · intro e he c hc
    rw [hn.withBlock_table] at he
    obtain ⟨h1, h2⟩ := h.bound e he c hc
    rw [hn.heap_other (ne_of_mem_of_not_mem h1 hfresh)]
    exact ⟨hn.mem_blocks.mpr (.inl h1), h2⟩

end NewBlock

end PortInv

end LibTpa
