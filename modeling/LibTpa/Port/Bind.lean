/- LibTpa/Port/Bind
   digest: The outcomes of binding a socket to a port. -/

import LibTpa.Port.Spec

set_option autoImplicit false

namespace LibTpa

/-- Nothing but what the surroundings have answered differs; the answers about entries have
been used from the front. -/
structure Unchanged (s s' : PortSt) : Prop where
  map : s'.portMap = s.portMap
  heap : s'.heap = s.heap
  fresh : s'.fresh = s.fresh
  blocks : s'.portBlocks = s.portBlocks
  table : s'.table = s.table
  entryOk : s'.oracles.entryOk <:+ s.oracles.entryOk

namespace Unchanged

theorem refl (s : PortSt) : Unchanged s s := ⟨rfl, rfl, rfl, rfl, rfl, List.suffix_refl _⟩

theorem trans {s t u : PortSt} (h : Unchanged s t) (h' : Unchanged t u) : Unchanged s u :=
  ⟨h'.map.trans h.map, h'.heap.trans h.heap, h'.fresh.trans h.fresh, h'.blocks.trans h.blocks,
    h'.table.trans h.table, h'.entryOk.trans h.entryOk⟩

end Unchanged

def KeyFree (table : List SockEntry) (key : SockKey) : Prop := ∀ e ∈ table, e.key ≠ key

theorem keyFree_iff (table : List SockEntry) (key : SockKey) :
    KeyFree table key ↔ sockTableLookup table key = none := by
  unfold KeyFree sockTableLookup
  simp

structure Added (s : PortSt) (key : SockKey) (tsock b : Nat) (port : U16) (s' : PortSt) : Prop where
  free : KeyFree s.table { key with localPort := port }
  table : s'.table = s.table ++ [⟨{ key with localPort := port }, tsock, some b⟩]
  heap : s'.heap = Function.update s.heap b
    { s.heap b with refcnt := (s.heap b).refcnt + 1, armed := false }
  map : s'.portMap = s.portMap
  fresh : s'.fresh = s.fresh
  blocks : s'.portBlocks = s.portBlocks

theorem Added.of_unchanged {s t s' : PortSt} {key : SockKey} {tsock b : Nat} {port : U16}
    (h : Unchanged s t) (h' : Added t key tsock b port s') : Added s key tsock b port s' :=
  ⟨h.table ▸ h'.free, h.table ▸ h'.table, h.heap ▸ h'.heap, h'.map.trans h.map,
    h'.fresh.trans h.fresh,
    h'.blocks.trans h.blocks⟩

theorem sockTableAdd_cases (s : PortSt) (key : SockKey) (tsock : Nat) (via : Option Nat) :
    ((sockTableAdd s key tsock via).1 = false ∧ Unchanged s (sockTableAdd s key tsock via).2 ∧
      (KeyFree s.table key → s.oracles.entryOk =
        false :: (sockTableAdd s key tsock via).2.oracles.entryOk)) ∨
    ((sockTableAdd s key tsock via).1 = true ∧ KeyFree s.table key ∧
      ∃ oracles, (sockTableAdd s key tsock via).2 =
        { s with table := s.table ++ [⟨key, tsock, via⟩], oracles := oracles }) := by
  unfold sockTableAdd
  split
  · next hsome =>
    refine .inl ⟨rfl, .refl s, fun hfree => ?_⟩
    rw [(keyFree_iff ..).mp hfree] at hsome
    cases hsome
  · next hnone =>
    have hfree : KeyFree s.table key := (keyFree_iff ..).mpr (by simpa using hnone)
    dsimp only
    split
    · next hno =>
      refine .inl ⟨rfl, ⟨rfl, rfl, rfl, rfl, rfl, List.tail_suffix _⟩, fun _ => ?_⟩
      unfold PortSt.askEntry at hno ⊢
      cases hl : s.oracles.entryOk with
      | nil => simp [hl] at hno
      | cons ok rest =>
        rw [hl] at hno
        simpa using hno
    · exact .inr ⟨rfl, hfree, _, rfl⟩

theorem portBlockGet_added {s : PortSt} {key : SockKey} {tsock b : Nat} {port : U16}
    {oracles : PortOracles} (hfree : KeyFree s.table { key with localPort := port }) :
    Added s key tsock b port (portBlockGet { s with
      table := s.table ++ [⟨{ key with localPort := port }, tsock, some b⟩]
      oracles := oracles } b) :=
  ⟨hfree, rfl, rfl, rfl, rfl, rfl⟩

theorem bindLoop_cases {b : Nat} {start : U16} (hok : StartOk start) (key : SockKey)
    (tsock : Nat) (n : Nat) :
    ∀ (idx : Nat) (s : PortSt), idx < 64 → (s.heap b).start = start → (s.heap b).size = 64 →
    ((bindLoop key tsock b n idx s).1 = 0 ∧ Unchanged s (bindLoop key tsock b n idx s).2 ∧
      ((∀ p ∈ blockPorts start, KeyFree s.table { key with localPort := p }) →
        List.replicate n false <+: s.oracles.entryOk)) ∨
    ((bindLoop key tsock b n idx s).1 ≠ 0 ∧ (bindLoop key tsock b n idx s).1 ∈ blockPorts start ∧
      Added s key tsock b (bindLoop key tsock b n idx s).1 (bindLoop key tsock b n idx s).2) := by
  induction n with
  | zero =>
    intro idx s _ _ _
    exact .inl ⟨rfl, .refl s, fun _ => List.nil_prefix⟩
  | succ n ih =>
    intro idx s hidx hstart hsize
    have hmem : start + BitVec.ofNat 16 idx ∈ blockPorts start :=
      List.mem_map.mpr ⟨idx, List.mem_range.mpr hidx, rfl⟩
    unfold bindLoop
    rw [hstart, hsize]
    have hadd :=
      sockTableAdd_cases s { key with localPort := start + BitVec.ofNat 16 idx } tsock (some b)
    rcases hadd with ⟨hr, hun, hno⟩ | ⟨hr, hfree, oracles, hs⟩
    · rw [if_neg (by rw [hr]; exact Bool.false_ne_true)]
      generalize sockTableAdd s { key with localPort := start + BitVec.ofNat 16 idx } tsock
        (some b) = r at *
      have hnext : (if idx + 1 ≥ (64 : U16).toNat then 0 else idx + 1) < 64 := by
        have : (64 : U16).toNat = 64 := rfl
        split <;> omega
      rcases ih _ r.2 hnext (by rw [hun.heap, hstart]) (by rw [hun.heap, hsize]) with
        ⟨h1, h2, h3⟩ | ⟨h1, h2, h3⟩
      · refine .inl ⟨h1, hun.trans h2, fun hall => ?_⟩
        rw [hno (hall _ hmem), List.replicate_succ]
        exact List.cons_prefix_cons.mpr ⟨rfl, h3 (by rw [hun.table]; exact hall)⟩
      · exact .inr ⟨h1, h2, h3.of_unchanged hun⟩
    · rw [if_pos hr, hs]
      exact .inr ⟨hok.add_ne_zero hidx, hmem, portBlockGet_added hfree⟩

def BlocksOk (s : PortSt) : Prop :=
  ∀ b ∈ s.portBlocks, StartOk (s.heap b).start ∧ (s.heap b).size = 64

theorem bindFromPortBlock_cases (s : PortSt) (key : SockKey) (tsock : Nat) {b : Nat}
    (hok : StartOk (s.heap b).start) (hsize : (s.heap b).size = 64) :
    ((bindFromPortBlock s key tsock b).1 = 0 ∧ Unchanged s (bindFromPortBlock s key tsock b).2 ∧
      ((∀ p ∈ blockPorts (s.heap b).start, KeyFree s.table { key with localPort := p }) →
        List.replicate 64 false <+: s.oracles.entryOk)) ∨
    ((bindFromPortBlock s key tsock b).1 ≠ 0 ∧
      (bindFromPortBlock s key tsock b).1 ∈ blockPorts (s.heap b).start ∧
      Added s key tsock b (bindFromPortBlock s key tsock b).1
        (bindFromPortBlock s key tsock b).2) := by
  have hun : Unchanged s s.readTsc.2 := ⟨rfl, rfl, rfl, rfl, rfl, List.suffix_refl _⟩
  unfold bindFromPortBlock
  rw [hsize, show (64 : U16).toNat = 64 from rfl]
  rcases bindLoop_cases hok key tsock 64 ((s.readTsc.1 >>> 2) % 64) s.readTsc.2
    (Nat.mod_lt _ (by decide)) rfl
    hsize with ⟨h1, h2, h3⟩ | ⟨h1, h2, h3⟩
  · exact .inl ⟨h1, hun.trans h2, h3⟩
  · exact .inr ⟨h1, h2, h3.of_unchanged hun⟩

theorem bindBlocksLoop_cases (key : SockKey) (tsock : Nat) (n : Nat) : ∀ (idx : Nat) (s : PortSt),
    BlocksOk s → idx < s.portBlocks.length →
    ((bindBlocksLoop key tsock n idx s).1 = 0 ∧ Unchanged s (bindBlocksLoop key tsock n idx s).2) ∨
    ((bindBlocksLoop key tsock n idx s).1 ≠ 0 ∧ ∃ b ∈ s.portBlocks,
      (bindBlocksLoop key tsock n idx s).1 ∈ blockPorts (s.heap b).start ∧
      Added s key tsock b (bindBlocksLoop key tsock n idx s).1
        (bindBlocksLoop key tsock n idx s).2) := by
  induction n with
  | zero => exact fun idx s _ _ => .inl ⟨rfl, .refl s⟩
  | succ n ih =>
    intro idx s hok hidx
    have hb : s.portBlocks.getD idx 0 ∈ s.portBlocks := by
      rw [List.getD_eq_getElem?_getD, List.getElem?_eq_getElem hidx]
      exact List.getElem_mem hidx
    obtain ⟨h1, h2⟩ := hok _ hb
    unfold bindBlocksLoop
    rcases bindFromPortBlock_cases s key tsock h1 h2 with ⟨hr, hun, -⟩ | ⟨hr, hmem, hadd⟩
    · rw [if_neg (by rw [hr]; simp)]
      generalize bindFromPortBlock s key tsock (s.portBlocks.getD idx 0) = r at *
      have hok' : BlocksOk r.2 := by
        intro b hb
        rw [hun.heap]
        rw [hun.blocks] at hb
        exact hok b hb
      rcases ih (if idx + 1 ≥ s.portBlocks.length then 0 else idx + 1) r.2 hok' (by
        rw [hun.blocks]
        split <;> omega) with ⟨h3, h4⟩ | ⟨h3, b, hb, h4, h5⟩
      · exact .inl ⟨h3, hun.trans h4⟩
      · exact .inr ⟨h3, b, hun.blocks ▸ hb, hun.heap ▸ h4, h5.of_unchanged hun⟩
    · rw [if_pos hr]
      exact .inr ⟨hr, _, hb, hmem, hadd⟩

def PortSt.withBlock (s : PortSt) (b : Nat) : PortSt := { s with portBlocks := s.portBlocks ++ [b] }

namespace NewBlock

variable {s t : PortSt} {start : U16} {b c : Nat}

theorem heap_self (hn : NewBlock s start b t) :
    (t.withBlock b).heap b = ⟨start, start + 64, 64, 0, false, blockPorts start⟩ := by
  rw [PortSt.withBlock, hn.heap, Function.update_self]

theorem heap_other (hn : NewBlock s start b t) (hc : c ≠ b) :
    (t.withBlock b).heap c = s.heap c := by
  rw [PortSt.withBlock, hn.heap, Function.update_of_ne hc]

theorem withBlock_table (hn : NewBlock s start b t) : (t.withBlock b).table = s.table := hn.table

theorem mem_blocks (hn : NewBlock s start b t) :
    c ∈ (t.withBlock b).portBlocks ↔ c ∈ s.portBlocks ∨ c = b := by
  rw [PortSt.withBlock, hn.blocks]
  simp

end NewBlock

theorem workerAllocPortBlock_made (range : PortRange) (s : PortSt) {port : U16}
    (hport : PortOk port) :
    ((workerAllocPortBlock range s port).1 = none ∧
      Unchanged s (workerAllocPortBlock range s port).2) ∨
    ∃ b start t, workerAllocPortBlock range s port = (some b, t.withBlock b) ∧
      NewBlock s start b t ∧
      t.oracles.entryOk = s.oracles.entryOk ∧
        (port ≠ 0 → start = port &&& ~~~defaultPortBlockMask) := by
  unfold workerAllocPortBlock
  split
  · exact .inl ⟨rfl, .refl s⟩
  · have hmade := portBlockAlloc_made range s hport
    rcases hr : portBlockAlloc range s port with ⟨ob, t⟩
    rw [hr] at hmade
    rcases hmade with ⟨h1, h2, h3⟩ | ⟨b, start, h1, h2, h3, h4⟩
    · subst h1
      exact .inl ⟨rfl, h3, h2.heap, h2.fresh, h2.blocks, h2.table, by rw [h2.entryOk]⟩
    · subst h1
      exact .inr ⟨b, start, t, rfl, h3, h4, h2⟩

/-- The entry that a call needs for a block it has made itself is refused. -/
def EntryRefused (s : PortSt) (key : SockKey) : Prop :=
  if key.localPort ≠ 0 then portBlockFind s key.localPort = none ∧
    s.oracles.entryOk.headD true = false
  else List.replicate 64 false <:+: s.oracles.entryOk

/-- The outcomes of `port_bind`: nothing happens; the socket is bound in a block that is
there; it is bound in a new block; or a new block is made and the socket is not bound, because
there is no memory for its entry, and then for a random port an assertion fails. -/
inductive BindCase (s : PortSt) (key : SockKey) (tsock : Nat) : Option (U16 × PortSt) → Prop
  | refused {r : U16 × PortSt} (zero : r.1 = 0) (h : Unchanged s r.2) :
      BindCase s key tsock (some r)
  | bound {r : U16 × PortSt} {b : Nat} (mem : b ∈ s.portBlocks) (pos : r.1 ≠ 0)
      (port : r.1 ∈ blockPorts (s.heap b).start) (h : Added s key tsock b r.1 r.2) :
      BindCase s key tsock (some r)
  | made {r : U16 × PortSt} {b : Nat} {start : U16} {t : PortSt} (new : NewBlock s start b t)
      (pos : r.1 ≠ 0) (port : r.1 ∈ blockPorts start)
      (h : Added (t.withBlock b) key tsock b r.1 r.2) : BindCase s key tsock (some r)
  | wasted {r : U16 × PortSt} {b : Nat} {start : U16} {t : PortSt} (new : NewBlock s start b t)
      (zero : r.1 = 0) (h : Unchanged (t.withBlock b) r.2)
      (why : (∀ p ∈ blockPorts start, KeyFree s.table { key with localPort := p }) →
        EntryRefused s key) : BindCase s key tsock (some r)
  | stopped {b : Nat} {start : U16} {t : PortSt} (new : NewBlock s start b t)
      (why : (∀ p ∈ blockPorts start, KeyFree s.table { key with localPort := p }) →
        EntryRefused s key) : BindCase s key tsock none

theorem bindInBlock_cases (s : PortSt) (key : SockKey) (tsock b : Nat)
    (hin : (s.heap b).start ≤ key.localPort ∧ key.localPort < (s.heap b).stop) :
    ∃ r, bindInBlock s key tsock b = some r ∧
      ((r.1 = 0 ∧ Unchanged s r.2 ∧ (KeyFree s.table key → s.oracles.entryOk.headD true = false)) ∨
        (r.1 = key.localPort ∧ Added s key tsock b key.localPort r.2)) := by
  unfold bindInBlock
  rw [if_pos hin]
  refine ⟨_, rfl, ?_⟩
  rcases sockTableAdd_cases s key tsock (some b) with ⟨hr, hun, hno⟩ | ⟨hr, hfree, oracles, hs⟩
  · rw [if_neg (by rw [hr]; exact Bool.false_ne_true)]
    refine .inl ⟨rfl, hun, fun hfree => ?_⟩
    rw [hno hfree]
    rfl
  · rw [if_pos hr, hs]
    exact .inr ⟨rfl, portBlockGet_added hfree⟩

theorem portBlockFind_contains {s : PortSt} {port : U16} {b : Nat}
    (h : portBlockFind s port = some b) : (s.heap b).start ≤ port ∧ port < (s.heap b).stop := by
  simpa using List.find?_some h

theorem portBindOnGivenPort_cases (range : PortRange) (s : PortSt) (key : SockKey) (tsock : Nat)
    (hport : PortOk key.localPort) (h0 : key.localPort ≠ 0)
    (hfind : ∀ b, portBlockFind s key.localPort = some b → b ∈ s.portBlocks ∧
      key.localPort ∈ blockPorts (s.heap b).start) :
    BindCase s key tsock (portBindOnGivenPort range s key tsock) := by
  unfold portBindOnGivenPort
  cases hf : portBlockFind s key.localPort with
  | some b =>
    obtain ⟨hb, hmem⟩ := hfind b hf
    obtain ⟨r, hr, ⟨h1, h2, -⟩ | ⟨h1, h2⟩⟩ :=
      bindInBlock_cases s key tsock b (portBlockFind_contains hf)
    all_goals dsimp only; rw [hr]
    · exact .refused h1 h2
    · exact .bound hb (h1 ▸ h0) (h1 ▸ hmem) (h1 ▸ h2)
  | none =>
    rcases workerAllocPortBlock_made range s hport with
      ⟨h1, h2⟩ | ⟨b, start, t, h1, h2, hentry, h3⟩
    · rcases hr : workerAllocPortBlock range s key.localPort with ⟨ob, t⟩
      rw [hr] at h1 h2
      subst h1
      exact .refused rfl h2
    · rw [h1]
      have hmem : key.localPort ∈ blockPorts start := by
        rw [h2.ok.mem_blockPorts, h3 h0, and_not_mask]
        omega
      have hin : ((t.withBlock b).heap b).start ≤ key.localPort ∧
          key.localPort < ((t.withBlock b).heap b).stop := by
        rw [h2.heap_self]
        exact h2.ok.contains_iff.mpr hmem
      obtain ⟨r, hr, ⟨h4, h5, h6⟩ | ⟨h4, h5⟩⟩ := bindInBlock_cases (t.withBlock b) key tsock b hin
      all_goals dsimp only; rw [hr]
      · refine .wasted h2 h4 h5 fun hall => ?_
        unfold EntryRefused
        rw [if_pos h0]
        refine ⟨hf, ?_⟩
        rw [← hentry]
        exact h6 (by rw [h2.withBlock_table]; exact hall _ hmem)
      · exact .made h2 (h4 ▸ h0) (h4 ▸ hmem) (h4 ▸ h5)

theorem portBindOnRandomPort_cases (range : PortRange) (s : PortSt) (key : SockKey) (tsock : Nat)
    (h0 : key.localPort = 0) (hok : BlocksOk s) :
    BindCase s key tsock (portBindOnRandomPort range s key tsock) := by
  unfold portBindOnRandomPort
  generalize hr : (if s.portBlocks.length = 0 then ((0 : U16), s) else
    bindBlocksLoop key tsock s.portBlocks.length ((s.readTsc.1 >>> 2) % s.portBlocks.length)
      s.readTsc.2) = r
  have hcases : (r.1 = 0 ∧ Unchanged s r.2) ∨ (r.1 ≠ 0 ∧ ∃ b ∈ s.portBlocks,
      r.1 ∈ blockPorts (s.heap b).start ∧ Added s key tsock b r.1 r.2) := by
    rw [← hr]
    split
    · exact .inl ⟨rfl, .refl s⟩
    · next hne =>
      have hun : Unchanged s s.readTsc.2 := ⟨rfl, rfl, rfl, rfl, rfl, List.suffix_refl _⟩
      rcases bindBlocksLoop_cases key tsock s.portBlocks.length
        ((s.readTsc.1 >>> 2) % s.portBlocks.length)
        s.readTsc.2 hok (Nat.mod_lt _ (Nat.pos_of_ne_zero hne)) with ⟨h1, h2⟩ | ⟨h1, b, hb, h2, h3⟩
      · exact .inl ⟨h1, hun.trans h2⟩
      · exact .inr ⟨h1, b, hb, h2, h3.of_unchanged hun⟩
  rcases hcases with ⟨h1, hun⟩ | ⟨h1, b, hb, h2, h3⟩
  swap
  · rw [if_pos h1]
    exact .bound hb h1 h2 h3
  rw [if_neg (by rw [h1]; simp)]
  rcases workerAllocPortBlock_made range r.2 (show PortOk 0 from .inl rfl) with
    ⟨h2, h3⟩ | ⟨b, start, t, h2, h3, hentry, -⟩
  · rcases hw : workerAllocPortBlock range r.2 0 with ⟨ob, t⟩
    rw [hw] at h2 h3
    subst h2
    exact .refused rfl (hun.trans h3)
  rw [h2]
  have hnew : NewBlock s start b t :=
    ⟨h3.ok, h3.addr.trans hun.fresh, hun.heap ▸ h3.heap, hun.fresh ▸ h3.fresh,
      h3.blocks.trans hun.blocks,
      h3.table.trans hun.table, hun.map ▸ h3.map, hun.map ▸ h3.free⟩
  have hstart : ((t.withBlock b).heap b).start = start := by rw [hnew.heap_self]
  rcases bindFromPortBlock_cases (t.withBlock b) key tsock (b := b) (by rw [hstart]; exact hnew.ok)
    (by rw [hnew.heap_self]) with ⟨h4, h5, h6⟩ | ⟨h4, h5, h6⟩
  · dsimp only
    rw [if_pos h4]
    refine .stopped hnew fun hall => ?_
    unfold EntryRefused
    rw [if_neg (by simpa using h0)]
    have hpre := h6 (by rw [hstart, hnew.withBlock_table]; exact hall)
    rw [show (t.withBlock b).oracles.entryOk = r.2.oracles.entryOk from hentry] at hpre
    exact hpre.isInfix.trans hun.entryOk.isInfix
  · dsimp only
    rw [if_neg h4]
    exact .made hnew h4 (hstart ▸ h5) h6

theorem portBind_cases (range : PortRange) (s : PortSt) (key : SockKey) (tsock : Nat)
    (hport : PortOk key.localPort) (hok : BlocksOk s)
    (hfind : ∀ b, portBlockFind s key.localPort = some b → b ∈ s.portBlocks ∧
      key.localPort ∈ blockPorts (s.heap b).start) :
    BindCase s key tsock (portBind range s key tsock) := by
  unfold portBind
  split
  · next h0 => exact portBindOnGivenPort_cases range s key tsock hport h0 hfind
  · next h0 => exact portBindOnRandomPort_cases range s key tsock (by simpa using h0) hok

end LibTpa
