/- LibTpa/Port/Run
   digest: Binding and unbinding are balanced over every run. -/

import LibTpa.Port.Release
import LibTpa.Lib.Run

set_option autoImplicit false

namespace LibTpa

open Lib.Run

structure PortRun where
  st : PortSt
  listening : List U16

inductive PortEv
  | bind (key : SockKey) (tsock : Nat) (oracles : PortOracles)
  | unbind (key : SockKey)
  | listenAlloc (port : U16) (oracles : PortOracles)
  | listenFree (port : U16)
  | expire (b : Nat)

def PortSt.asked (s : PortSt) (oracles : PortOracles) : PortSt := { s with oracles := oracles }

def portStep (range : PortRange) (x : PortRun) : PortEv → PortRun
  | .bind key tsock oracles =>
    { x with st := ((portBind range (x.st.asked oracles) key tsock).map Prod.snd).getD x.st }
  | .unbind key => { x with st := (portUnbind x.st key).2 }
  | .listenAlloc port oracles =>
    let r := portAlloc range (x.st.asked oracles) port
    ⟨r.2, if r.1 = 0 then x.listening else r.1 :: x.listening⟩
  | .listenFree port => ⟨(portFree x.st port).2, x.listening.filter (· ≠ port)⟩
  | .expire b => { x with st := portBlockTimeout x.st b }

/-- No assertion of `port_bind` fails, since that would be the end of the program; a listener
frees a port that one has allocated, and a timer runs if it is armed. -/
def PortEv.Allowed (range : PortRange) (x : PortRun) : PortEv → Prop
  | .bind key tsock oracles => (portBind range (x.st.asked oracles) key tsock).isSome = true
  | .listenFree port => port ∈ x.listening
  | .expire b => b ∈ x.st.portBlocks ∧ (x.st.heap b).armed = true
  | _ => True

/-- The port asked for lies in no block at an end of the port space, and a new block gets
its first entry. -/
def PortEv.Fits (x : PortRun) : PortEv → Prop
  | .bind key _ oracles => PortOk key.localPort ∧ ¬ EntryRefused (x.st.asked oracles) key
  | _ => True

/-- The invariant of a run of these calls alone: every entry is bound through a block, and
the timer of a block without entries is armed. -/
structure BalanceInv (x : PortRun) : Prop where
  inv : PortInv x.st x.listening
  whole : ∀ e ∈ x.st.table, e.via ≠ none
  armed : ∀ b ∈ x.st.portBlocks, (x.st.heap b).refcnt = 0 → (x.st.heap b).armed = true

namespace BalanceInv

variable {x : PortRun}

/-- The keys with a port of a new block are in no entry: the entries' blocks hold their ports. -/
theorem keys_free (h : BalanceInv x) {s : PortSt} (ht : s.table = x.st.table)
    (hm : s.portMap = x.st.portMap) {start : U16} {b : Nat} {t : PortSt} (hn : NewBlock s start b t)
    (key : SockKey) :
    ∀ p ∈ blockPorts start, KeyFree s.table { key with localPort := p } := by
  intro p hp e he heq
  rw [ht] at he
  obtain ⟨c, hc⟩ := Option.ne_none_iff_exists'.mp (h.whole e he)
  obtain ⟨h1, h2⟩ := h.inv.bound e he c hc
  have h3 := (h.inv.block c h1).held _ h2
  rw [heq] at h3
  have h4 := hn.free p hp
  rw [hm] at h4
  rw [h4] at h3
  cases h3

theorem added {s s' : PortSt} {listening : List U16} (hinv : PortInv s listening)
    (hwhole : ∀ e ∈ s.table, e.via ≠ none) {b : Nat}
    (harmed : ∀ c ∈ s.portBlocks, c ≠ b → (s.heap c).refcnt = 0 → (s.heap c).armed = true)
    {key : SockKey} {tsock : Nat} {port : U16} (hb : b ∈ s.portBlocks)
    (hport : port ∈ blockPorts (s.heap b).start) (ha : Added s key tsock b port s') :
    BalanceInv ⟨s', listening⟩ := by
  have hinv' := hinv.added hb hport ha
  refine ⟨hinv', fun e he => ?_, fun c hc h0 => ?_⟩
  · rw [ha.table] at he
    rcases List.mem_append.mp he with he | he
    · exact hwhole e he
    · rw [List.mem_singleton.mp he]
      exact Option.some_ne_none b
  · rw [ha.blocks] at hc
    rw [ha.heap] at h0 ⊢
    by_cases hcb : c = b
    · subst hcb
      rw [Function.update_self] at h0
      have := (hinv.block c hb).refcnt
      dsimp only at h0
      omega
    · rw [Function.update_of_ne hcb] at h0 ⊢
      exact harmed c hc hcb h0

theorem unchanged (h : BalanceInv x) {s' : PortSt} (hu : Unchanged x.st s') :
    BalanceInv ⟨s', x.listening⟩ :=
  ⟨h.inv.unchanged hu, hu.table ▸ h.whole, by rw [hu.blocks, hu.heap]; exact h.armed⟩

theorem bind (h : BalanceInv x) (range : PortRange) {key : SockKey} {tsock : Nat}
    {oracles : PortOracles} (hfits : (PortEv.bind key tsock oracles).Fits x) :
    ∃ r, portBind range (x.st.asked oracles) key tsock = some r ∧ BalanceInv ⟨r.2, x.listening⟩ ∧
      (r.1 = 0 ∨ KeyFree x.st.table { key with localPort := r.1 } ∧
        ∃ b, r.2.table = x.st.table ++ [⟨{ key with localPort := r.1 }, tsock, some b⟩]) := by
  have hinv : PortInv (x.st.asked oracles) x.listening := h.inv.asked oracles
  have hask : BalanceInv ⟨x.st.asked oracles, x.listening⟩ := ⟨hinv, h.whole, h.armed⟩
  have hnot : ∀ {start b t}, NewBlock (x.st.asked oracles) start b t →
      ¬ ((∀ p ∈ blockPorts start,
          KeyFree (x.st.asked oracles).table { key with localPort := p }) →
        EntryRefused (x.st.asked oracles) key) := fun hn hwhy =>
    hfits.2 (hwhy (h.keys_free (s := x.st.asked oracles) rfl rfl hn key))
  have hcase := portBind_cases range (x.st.asked oracles) key tsock hfits.1 hinv.blocksOk
    fun b hb => (hinv.find_iff _ b).mp hb
  generalize portBind range (x.st.asked oracles) key tsock = o at hcase
  cases hcase with
  | refused zero hu => exact ⟨_, rfl, hask.unchanged hu, .inl zero⟩
  | bound mem pos port ha =>
    exact ⟨_, rfl, added hinv h.whole (fun c hc _ => h.armed c hc) mem port ha,
      .inr ⟨ha.free, _, ha.table⟩⟩
  | @made r b start t hn pos port ha =>
    have htable := hn.withBlock_table
    refine ⟨r, rfl, added (hinv.newBlock hn) (htable ▸ h.whole) (fun c hc hcb => ?_)
      (hn.mem_blocks.mpr (.inr rfl)) (by rw [hn.heap_self]; exact port) ha,
      .inr ⟨htable ▸ ha.free, b, htable ▸ ha.table⟩⟩
    rw [hn.heap_other hcb]
    exact h.armed c ((hn.mem_blocks.mp hc).resolve_right hcb)
  | wasted hn zero hu why => exact absurd why (hnot hn)
  | stopped hn why => exact absurd why (hnot hn)

theorem unbind_cases (h : BalanceInv x) (key : SockKey) :
    (∃ e ∈ x.st.table, e.key = key ∧ ∃ b, e.via = some b) ∨ portUnbind x.st key = (-1, x.st) := by
  by_cases hfree : KeyFree x.st.table key
  · exact .inr (portUnbind_keyFree hfree)
  · unfold KeyFree at hfree
    push Not at hfree
    obtain ⟨e, he, hk⟩ := hfree
    exact .inl ⟨e, he, hk, Option.ne_none_iff_exists'.mp (h.whole e he)⟩

theorem unbind (h : BalanceInv x) (range : PortRange) (key : SockKey) :
    BalanceInv (portStep range x (.unbind key)) := by
  rw [portStep]
  rcases h.unbind_cases key with ⟨e, he, rfl, b, hvia⟩ | hnone
  · rw [h.inv.unbind_eq he hvia]
    refine ⟨h.inv.unbind he hvia, fun e' he' => h.whole e' (List.mem_of_mem_erase he'),
      fun c hc h0 => ?_⟩
    dsimp only [portBlockPut, PortSt.setBlock] at h0 ⊢
    by_cases hcb : c = b
    · subst hcb
      rw [Function.update_self] at h0 ⊢
      split at h0
      · next h1 => rw [if_pos h1]
      · next h1 => exact absurd h0 h1
    · rw [Function.update_of_ne hcb] at h0 ⊢
      exact h.armed c hc h0
  · rw [hnone]
    exact h

theorem expire (h : BalanceInv x) (range : PortRange) {b : Nat} (hb : b ∈ x.st.portBlocks) :
    BalanceInv (portStep range x (.expire b)) := by
  rw [portStep]
  have hinv := h.inv.timeout hb
  have hother : ∀ c ∈ x.st.portBlocks, c ≠ b →
      ((x.st.setBlock b { x.st.heap b with armed := false }).heap c).refcnt = 0 →
      ((x.st.setBlock b { x.st.heap b with armed := false }).heap c).armed = true := by
    intro c hc hcb
    dsimp only [PortSt.setBlock]
    rw [Function.update_of_ne hcb]
    exact h.armed c hc
  have hinv' := h.inv.rearm (b := b) false
  unfold portBlockTimeout at hinv ⊢
  dsimp only at hinv ⊢
  have hb' : b ∈ (x.st.setBlock b { x.st.heap b with armed := false }).portBlocks := hb
  have hwhole : ∀ e ∈ (x.st.setBlock b { x.st.heap b with armed := false }).table, e.via ≠ none :=
    h.whole
  have hblocks : (x.st.setBlock b { x.st.heap b with armed := false }).portBlocks =
    x.st.portBlocks := rfl
  generalize x.st.setBlock b { x.st.heap b with armed := false } = t at *
  split
  · next hpos =>
    rw [if_pos hpos] at hinv
    refine ⟨hinv, hwhole, fun c hc h0 => ?_⟩
    by_cases hcb : c = b
    · subst hcb
      dsimp only at h0
      omega
    · exact hother c (hblocks ▸ hc) hcb h0
  · next hle =>
    rw [if_neg hle] at hinv
    obtain ⟨h1, -, h3, h4⟩ := PortInv.free_rest t b
    refine ⟨hinv, ?_, fun c hc h0 => ?_⟩
    · rw [h3]
      exact hwhole
    · rw [h4, (workerDropPortBlock_perm t hb').mem_iff, hinv'.nodup.mem_erase_iff] at hc
      rw [h1] at h0 ⊢
      exact hother c (hblocks ▸ hc.2) hc.1 h0

theorem step (h : BalanceInv x) (range : PortRange) {e : PortEv} (hall : e.Allowed range x)
    (hfits : e.Fits x) : BalanceInv (portStep range x e) := by
  cases e with
  | bind key tsock oracles =>
    obtain ⟨r, hr, hinv, -⟩ := h.bind range hfits
    rw [portStep, hr]
    exact hinv
  | unbind key => exact h.unbind range key
  | listenAlloc port oracles =>
    have hinv := (h.inv.asked oracles).listenAlloc range port
    have hsame : SameBlocks (x.st.asked oracles) (portAlloc range (x.st.asked oracles) port).2 := by
      rcases portAlloc_got range (x.st.asked oracles) port with ⟨-, h2⟩ | ⟨-, h2⟩ <;> exact h2.same
    refine ⟨hinv, ?_, ?_⟩
    · show ∀ e ∈ (portAlloc range (x.st.asked oracles) port).2.table, _
      rw [hsame.table]
      exact h.whole
    · show ∀ b ∈ (portAlloc range (x.st.asked oracles) port).2.portBlocks,
        ((portAlloc range (x.st.asked oracles) port).2.heap b).refcnt = 0 →
        ((portAlloc range (x.st.asked oracles) port).2.heap b).armed = true
      rw [hsame.blocks, hsame.heap]
      exact h.armed
  | listenFree port => exact ⟨h.inv.listenFree hall, h.whole, h.armed⟩
  | expire b => exact h.expire range hall.1

end BalanceInv

structure PortLaw (range : PortRange) (x : PortRun) : Prop where
  /-- No assertion fails, and a socket is bound by one entry, which unbinding takes away again. -/
  bind_unbind : ∀ key tsock oracles, (PortEv.bind key tsock oracles).Fits x →
    ∃ r, portBind range (x.st.asked oracles) key tsock = some r ∧ (r.1 ≠ 0 →
      (∃ b, r.2.table = x.st.table ++ [⟨{ key with localPort := r.1 }, tsock, some b⟩]) ∧
      (portUnbind r.2 { key with localPort := r.1 }).1 = 0 ∧
      (portUnbind r.2 { key with localPort := r.1 }).2.table = x.st.table)
  /-- So is every entry, whenever it is unbound. -/
  unbind : ∀ e ∈ x.st.table, (portUnbind x.st e.key).1 = 0 ∧
    (portUnbind x.st e.key).2.table = x.st.table.erase e
  bound : ∀ e ∈ x.st.table, ∃ b ∈ x.st.portBlocks, e.via = some b
  refcnt : ∀ b ∈ x.st.portBlocks, (x.st.heap b).refcnt = boundThrough x.st.table b
  disjoint : ∀ b ∈ x.st.portBlocks, ∀ c ∈ x.st.portBlocks, ∀ port : Nat,
    (x.st.heap b).start.toNat ≤ port → port < (x.st.heap b).start.toNat + (x.st.heap b).size.toNat →
    (x.st.heap c).start.toNat ≤ port → port < (x.st.heap c).start.toNat + (x.st.heap c).size.toNat →
      b = c
  freed : ∀ b ∈ x.st.portBlocks, b ∉ (portBlockTimeout x.st b).portBlocks → (x.st.heap b).refcnt = 0
  armed : ∀ b ∈ x.st.portBlocks, (x.st.heap b).refcnt = 0 → (x.st.heap b).armed = true
  /-- A block that is freed gives back the ports allocated for it and no other. -/
  release : ∀ b ∈ x.st.portBlocks, (∀ p ∈ (x.st.heap b).ports, x.st.portMap p = true) ∧
    ∀ p, (portBlockFree x.st b).portMap p = (x.st.portMap p && !decide (p ∈ (x.st.heap b).ports))

namespace BalanceInv

variable {x : PortRun}

theorem unbind_entry (h : BalanceInv x) {e : SockEntry} (he : e ∈ x.st.table) :
    (portUnbind x.st e.key).1 = 0 ∧ (portUnbind x.st e.key).2.table = x.st.table.erase e := by
  obtain ⟨b, hvia⟩ := Option.ne_none_iff_exists'.mp (h.whole e he)
  rw [h.inv.unbind_eq he hvia]
  exact ⟨rfl, rfl⟩

theorem bind_unbind (h : BalanceInv x) (range : PortRange) {key : SockKey} {tsock : Nat}
    {oracles : PortOracles} (hfits : (PortEv.bind key tsock oracles).Fits x) :
    ∃ r, portBind range (x.st.asked oracles) key tsock = some r ∧ (r.1 ≠ 0 →
      (∃ b, r.2.table = x.st.table ++ [⟨{ key with localPort := r.1 }, tsock, some b⟩]) ∧
      (portUnbind r.2 { key with localPort := r.1 }).1 = 0 ∧
      (portUnbind r.2 { key with localPort := r.1 }).2.table = x.st.table) := by
  obtain ⟨r, hr, hinv, hout⟩ := h.bind range hfits
  refine ⟨r, hr, fun hpos => ?_⟩
  obtain ⟨hfree, b, htable⟩ := hout.resolve_left hpos
  obtain ⟨h1, h2⟩ := hinv.unbind_entry (e := ⟨{ key with localPort := r.1 }, tsock, some b⟩)
    (by rw [htable]; simp)
  refine ⟨⟨b, htable⟩, h1, h2.trans ?_⟩
  rw [htable, List.erase_append_right _ fun hm => hfree _ hm rfl]
  simp

theorem timeout_freed (h : BalanceInv x) {b : Nat} (hb : b ∈ x.st.portBlocks)
    (hgone : b ∉ (portBlockTimeout x.st b).portBlocks) : (x.st.heap b).refcnt = 0 := by
  have href := (h.inv.block b hb).refcnt
  by_contra h0
  apply hgone
  unfold portBlockTimeout
  dsimp only [PortSt.setBlock]
  rw [if_pos]
  · exact hb
  · rw [Function.update_self]
    dsimp only
    omega

theorem law (h : BalanceInv x) (range : PortRange) : PortLaw range x := by
  refine ⟨fun key tsock oracles => h.bind_unbind range, fun e he => h.unbind_entry he,
    fun e he => ?_, fun b hb => (h.inv.block b hb).refcnt, fun b hb c hc port h1 h2 h3 h4 => ?_,
    fun b hb => h.timeout_freed hb, h.armed, fun b hb => ⟨fun p hp => ?_, h.inv.free_map hb⟩⟩
  · obtain ⟨b, hvia⟩ := Option.ne_none_iff_exists'.mp (h.whole e he)
    exact ⟨b, (h.inv.bound e he b hvia).1, hvia⟩
  · have hib := h.inv.block b hb
    have hic := h.inv.block c hc
    rw [hib.size] at h2
    rw [hic.size] at h4
    have hlt := hib.ok.lt
    have h64 : (64 : U16).toNat = 64 := rfl
    have hport : (BitVec.ofNat 16 port).toNat = port := by
      exact Nat.mod_eq_of_lt (by omega)
    refine h.inv.disjoint (p := BitVec.ofNat 16 port) hb hc (hib.ok.mem_blockPorts.mpr ?_)
      (hic.ok.mem_blockPorts.mpr ?_)
    · rw [hport]; omega
    · rw [hport]; omega
  · rw [(h.inv.block b hb).ports] at hp
    exact (h.inv.block b hb).held p hp

end BalanceInv

structure PortFresh (x : PortRun) : Prop where
  blocks : x.st.portBlocks = []
  table : x.st.table = []
  listening : x.listening = []

/-- Over every run whose bindings fit, binding is balanced. -/
theorem portBinding_run (range : PortRange) {x₀ x : PortRun} (h₀ : PortFresh x₀)
    (hx : Reach (portStep range) (fun x e => e.Allowed range x ∧ e.Fits x) x₀ x) :
    PortLaw range x := by
  have hinv : BalanceInv x := by
    refine hx.invariant ⟨⟨?_, ?_, ?_, ?_, ?_, ?_⟩, ?_, ?_⟩ fun x e h ok => h.step range ok.1 ok.2
    all_goals simp [h₀.blocks, h₀.table, h₀.listening]
  exact hinv.law range

def PortRun.boot : PortRun where
  st :=
    { portMap := fun _ => false
      heap := fun _ => ⟨0, 0, 0, 0, false, []⟩
      fresh := 0
      portBlocks := []
      table := []
      oracles := {} }
  listening := []

theorem PortRun.boot_fresh : PortFresh .boot := ⟨rfl, rfl, rfl⟩

def toPeer (localPort : U16) : SockKey := ⟨1, 2, localPort, 80⟩

def bindTwo : List PortEv := [.bind (toPeer 50000) 0 {}, .bind (toPeer 0) 1 {}]

theorem portBinding_run_bindTwo :
    PortLaw {} (exec (portStep {}) .boot bindTwo) ∧
      (exec (portStep {}) .boot bindTwo).st.table.length = 2 := by
  refine ⟨portBinding_run {} PortRun.boot_fresh (Reach.refl.exec (l := bindTwo) ?_),
    by decide +kernel⟩
  refine ⟨⟨?_, ?_, ?_⟩, ⟨?_, ?_, ?_⟩, trivial⟩
  · show Option.isSome _ = true
    decide +kernel
  · decide
  · exact fun h => absurd h.2 (by decide)
  · show Option.isSome _ = true
    decide +kernel
  · decide
  · intro h
    have := h.length_le
    simp [PortSt.asked] at this

/-- There is memory for a new block and none for the entry of the socket that asked for it. -/
def bindUnentered : List PortEv := [.bind (toPeer 50000) 0 { entryOk := [false] }]

/-- Nothing is bound through the new block, and nothing has started its timer. -/
theorem unenteredBlock_not_armed :
    PortFresh .boot ∧ Admitted (portStep {}) (fun x e => e.Allowed {} x) .boot bindUnentered ∧
      ¬ PortLaw {} (exec (portStep {}) .boot bindUnentered) := by
  refine ⟨PortRun.boot_fresh, ⟨?_, trivial⟩, fun h => ?_⟩
  · show Option.isSome _ = true
    decide +kernel
  · have := h.armed 0 (by decide +kernel) (by decide +kernel)
    exact absurd this (by decide +kernel)

end LibTpa
