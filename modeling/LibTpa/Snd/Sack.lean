/- LibTpa/Snd/Sack
   digest: Which descriptors the SACK blocks of an ACK mark. -/

import LibTpa.Snd.Ack
import LibTpa.Snd.Stream
import LibTpa.Lib.SpanScan
import LibTpa.Sock.Init
import Mathlib.Data.List.Pairwise

/-!
`tcp_rcv_sack` sorts the blocks and walks the send queue once for all of them: each
block goes on behind the descriptor at which the one before stopped.
-/

set_option autoImplicit false

namespace LibTpa

open Lib.SerialNumber Lib.Stream Lib.SpanScan

def TxDesc.stop (v : TxDesc) : U32 := v.seq + v.len

def SackBlock.Covers (b : SackBlock) (v : TxDesc) : Prop :=
  ahead b.start v.seq + v.data.length ≤ ahead b.start b.stop

instance SackBlock.decidableCovers (b : SackBlock) (v : TxDesc) : Decidable (b.Covers v) :=
  inferInstanceAs (Decidable (_ ≤ _))

/-- One to three blocks as an ACK brings them: not empty, not below `snd_una`, and no
sequence number in two of them. -/
structure SackBlocksOk (una : U32) (l : List SackBlock) : Prop where
  some : 1 ≤ l.length
  few : l.length ≤ 3
  nonempty : ∀ b ∈ l, seqLt b.start b.stop
  above : ∀ b ∈ l, seqGe b.start una
  apart : l.Pairwise fun a b => ∀ n, ¬ (a.Has n ∧ b.Has n)

/-- The descriptor ends below `snd_nxt` and lies inside a block that ends at `snd_nxt` or
below. -/
def SackDue (nxt : U32) (l : List SackBlock) (v : TxDesc) : Prop :=
  seqLt v.stop nxt ∧ ∃ b ∈ l, seqLe b.stop nxt ∧ b.Covers v

def SackBlock.EndsIn (b : SackBlock) (nxt : U32) (w v : TxDesc) : Prop :=
  seqLe b.stop nxt ∧ seqLt b.start v.seq ∧ seqLt w.seq b.stop ∧ seqLe b.stop w.stop

def SackCrowded (s : St) (l : List SackBlock) (j : Nat) (v : TxDesc) : Prop :=
  ∃ i w, j = i + 1 ∧ s.liveDescs[i]? = some w ∧ ∃ b₀ ∈ l, ∃ b₁ ∈ l, b₀ ≠ b₁ ∧
    b₀.EndsIn s.tsock.snd.sndNxt w v ∧ b₁.EndsIn s.tsock.snd.sndNxt w v

/-- The walk misses a descriptor: one that ends where its block ends, or one behind a
descriptor in which two blocks end. -/
def SackMissed (s : St) (l : List SackBlock) : Prop :=
  ∃ j v b, s.liveDescs[j]? = some v ∧ v.sacked = false ∧ seqLt v.stop s.tsock.snd.sndNxt ∧
    b ∈ l ∧ seqLe b.stop s.tsock.snd.sndNxt ∧ b.Covers v ∧
    (v.stop = b.stop ∨ SackCrowded s l j v)

/-! ### What the walk changes -/

/-- The descriptors whose index satisfies `M` are marked, and nothing else changes in
the send queue. -/
structure Marks (s s' : St) (M : Nat → Prop) : Prop where
  snd : s'.tsock.snd = s.tsock.snd
  data : ∀ d, (s'.desc d).data = (s.desc d).data
  seq : ∀ d, (s'.desc d).seq = (s.desc d).seq
  mark : ∀ j d, s.tsock.snd.txq.live[j]? = some d →
    ((s'.desc d).sacked = true ↔ (s.desc d).sacked = true ∨ M j)

namespace Marks

variable {s s' s'' : St} {M M' : Nat → Prop}

theorem refl (s : St) : Marks s s fun _ => False :=
  ⟨rfl, fun _ => rfl, fun _ => rfl, fun _ _ _ => (or_iff_left id).symm⟩

theorem trans (h : Marks s s' M) (h' : Marks s' s'' M') : Marks s s'' fun j => M j ∨ M' j where
  snd := h'.snd.trans h.snd
  data d := (h'.data d).trans (h.data d)
  seq d := (h'.seq d).trans (h.seq d)
  mark j d hd := by
    rw [h'.mark j d (by rw [h.snd]; exact hd), h.mark j d hd, or_assoc]

theorem congr (h : Marks s s' M) (hM : ∀ j, M j ↔ M' j) : Marks s s' M' :=
  ⟨h.snd, h.data, h.seq, fun j d hd => by rw [h.mark j d hd, hM]⟩

theorem get (h : Marks s s' M) {j : Nat} {v' : TxDesc} (hv : s'.liveDescs[j]? = some v') :
    ∃ v, s.liveDescs[j]? = some v ∧ v'.seq = v.seq ∧ v'.data = v.data := by
  unfold St.liveDescs at *
  rw [h.snd, List.getElem?_map] at hv
  rw [List.getElem?_map]
  obtain ⟨d, hd, rfl⟩ := Option.map_eq_some_iff.mp hv
  exact ⟨s.desc d, by rw [hd]; rfl, h.seq d, h.data d⟩

end Marks

theorem markDescSacked_desc (s : St) (d e : DescId) :
    (markDescSacked s d).desc e = if e = d then { s.desc d with sacked := true } else s.desc e := by
  unfold markDescSacked
  dsimp only
  by_cases he : e = d
  · subst he
    rw [if_pos rfl]
    split
    · rename_i h
      conv_rhs => rw [← h]
    · exact St.desc_setDesc_self ..
  · rw [if_neg he]
    split
    · rfl
    · exact St.desc_setDesc_ne _ _ he

theorem markDescSacked_snd (s : St) (d : DescId) :
    (markDescSacked s d).tsock.snd = s.tsock.snd := by
  unfold markDescSacked
  dsimp only
  split <;> rfl

theorem markDescSacked_marks {s : St} {j : Nat} {d : DescId} (hnd : s.tsock.snd.txq.live.Nodup)
    (hd : s.tsock.snd.txq.live[j]? = some d) : Marks s (markDescSacked s d) (· = j) := by
  have hj : ∀ i e, s.tsock.snd.txq.live[i]? = some e → (e = d ↔ i = j) := by
    intro i e he
    constructor
    · rintro rfl
      obtain ⟨hi, h1⟩ := List.getElem?_eq_some_iff.mp he
      obtain ⟨hj, h2⟩ := List.getElem?_eq_some_iff.mp hd
      exact (hnd.getElem_inj_iff).mp (h1.trans h2.symm)
    · rintro rfl
      exact Option.some.inj (he.symm.trans hd)
  refine ⟨markDescSacked_snd s d, fun e => ?_, fun e => ?_, fun i e he => ?_⟩
  · rw [markDescSacked_desc]
    split
    · rename_i h
      rw [h]
    · rfl
  · rw [markDescSacked_desc]
    split
    · rename_i h
      rw [h]
    · rfl
  · rw [markDescSacked_desc, ← hj i e he]
    split
    · rename_i h
      exact ⟨fun _ => .inr h, fun _ => rfl⟩
    · rename_i h
      exact ⟨.inl, fun h' => h'.resolve_right h⟩

structure BlockScan (s : St) (b : SackBlock) (f k : Nat) : Prop where
  lo : f ≤ k
  pass : ∀ j, f ≤ j → j < k → ∃ v, s.liveDescs[j]? = some v ∧
    ¬ seqGe v.stop s.tsock.snd.sndNxt ∧ ¬ seqGe v.stop b.stop
  halt : ∀ v, s.liveDescs[k]? = some v → seqGe v.stop s.tsock.snd.sndNxt ∨ seqGe v.stop b.stop

def BlockMark (s : St) (b : SackBlock) (f k : Nat) (j : Nat) : Prop :=
  f ≤ j ∧ j < k ∧ ∃ v, s.liveDescs[j]? = some v ∧ seqGe v.seq b.start

theorem Marks.blockScan {s s' : St} {M : Nat → Prop} {b : SackBlock} {f k : Nat} (h : Marks s s' M)
    (hs : BlockScan s' b f k) : BlockScan s b f k := by
  have hstop : ∀ {v v' : TxDesc}, v'.seq = v.seq → v'.data = v.data → v'.stop = v.stop := by
    intro v v' h1 h2
    simp only [TxDesc.stop, TxDesc.len, h1, h2]
  refine ⟨hs.lo, fun j h1 h2 => ?_, fun v hv => ?_⟩
  · obtain ⟨v', hv', ha, hb⟩ := hs.pass j h1 h2
    obtain ⟨v, hv, h3, h4⟩ := h.get hv'
    rw [h.snd] at ha
    rw [hstop h3 h4] at ha hb
    exact ⟨v, hv, ha, hb⟩
  · obtain ⟨d, hd, rfl⟩ := Option.map_eq_some_iff.mp ((List.getElem?_map ..).symm.trans hv)
    have hv' : s'.liveDescs[k]? = some (s'.desc d) := by
      unfold St.liveDescs
      rw [h.snd, List.getElem?_map, hd]
      rfl
    have := hs.halt _ hv'
    rwa [h.snd, hstop (h.seq d) (h.data d)] at this

theorem tcpTxqPeekUna_live {q : TcpTxq} (h : q.Wf) {f : Nat} (hf : f < 2 ^ 16) :
    tcpTxqPeekUna q (BitVec.ofNat 16 f) = q.live[f]? := by
  unfold tcpTxqPeekUna
  rw [q.peekForWrite h (b := 0) (by simp) (Nat.zero_le _), Nat.zero_add, BitVec.toNat_ofNat,
    Nat.mod_eq_of_lt hf]

theorem sackBlockLoop_spec {s : St} (b : SackBlock) (n f : Nat) (hwf : s.tsock.snd.txq.Wf)
    (hnd : s.tsock.snd.txq.live.Nodup) (hf : f < 2 ^ 16) (hn : 0 < n)
    (hfuel : s.tsock.snd.txq.count < f + n) :
    ∃ k, (sackBlockLoop b n s (BitVec.ofNat 16 f)).2 = BitVec.ofNat 16 (k + 1) ∧
      k ≤ max f s.tsock.snd.txq.count ∧ BlockScan s b f k ∧
      Marks s (sackBlockLoop b n s (BitVec.ofNat 16 f)).1 (BlockMark s b f k) := by
  induction n generalizing s f with
  | zero => omega
  | succ n ih =>
    have hoff : BitVec.ofNat 16 f + 1 = BitVec.ofNat 16 (f + 1) := (BitVec.ofNat_add ..).symm
    -- the walk stops at the descriptor it begins with
    have here : (∀ v, s.liveDescs[f]? = some v →
          seqGe v.stop s.tsock.snd.sndNxt ∨ seqGe v.stop b.stop) →
        ∃ k, BitVec.ofNat 16 f + 1 = BitVec.ofNat 16 (k + 1) ∧
          k ≤ max f s.tsock.snd.txq.count ∧ BlockScan s b f k ∧ Marks s s (BlockMark s b f k) := by
      intro hhalt
      refine ⟨f, hoff, Nat.le_max_left .., ⟨le_rfl, fun j h1 h2 => absurd h2 (by omega), hhalt⟩,
        (Marks.refl s).congr fun j => ?_⟩
      refine ⟨False.elim, ?_⟩
      rintro ⟨h1, h2, -⟩
      omega
    simp only [sackBlockLoop, tcpTxqPeekUna_live hwf hf]
    cases hd : s.tsock.snd.txq.live[f]? with
    | none =>
      refine here fun v hv => ?_
      rw [St.liveDescs, List.getElem?_map, hd] at hv
      cases hv
    | some d =>
      have hv : s.liveDescs[f]? = some (s.desc d) := by
        rw [St.liveDescs, List.getElem?_map, hd]
        rfl
      have hlt : f < s.tsock.snd.txq.count := by
        have := (List.getElem?_eq_some_iff.mp hd).1
        rwa [TcpTxq.live_length] at this
      have hcount := hwf.count_le
      have hsize := s.tsock.snd.txq.size_ok.le
      dsimp only
      split
      · rename_i h1
        refine here fun v hv' => ?_
        rw [hv] at hv'
        cases hv'
        exact .inl h1
      rename_i h1
      split
      · rename_i h2
        refine here fun v hv' => ?_
        rw [hv] at hv'
        cases hv'
        exact .inr h2
      rename_i h2
      -- the walk goes on from a state that differs in the mark of this descriptor
      have onward : ∀ {s₁ : St} {M : Nat → Prop}, Marks s s₁ M →
          (∀ j, M j ↔ j = f ∧ seqGe (s.desc d).seq b.start) →
          ∃ k, (sackBlockLoop b n s₁ (BitVec.ofNat 16 f + 1)).2 = BitVec.ofNat 16 (k + 1) ∧
            k ≤ max f s.tsock.snd.txq.count ∧ BlockScan s b f k ∧
            Marks s (sackBlockLoop b n s₁ (BitVec.ofNat 16 f + 1)).1 (BlockMark s b f k) := by
        intro s₁ M hm hM
        have hsnd := hm.snd
        obtain ⟨k, hk, hmax, hsc, hmk⟩ := ih (s := s₁) (f + 1) (by rw [hsnd]; exact hwf)
          (by rw [hsnd]; exact hnd) (by omega) (by omega) (by rw [hsnd]; omega)
        rw [hsnd] at hmax
        rw [hoff]
        have hsc' := hm.blockScan hsc
        refine ⟨k, hk, by omega, ⟨by have := hsc.lo; omega, ?_, hsc'.halt⟩,
          (hm.trans hmk).congr ?_⟩
        · intro j h3 h4
          rcases Nat.eq_or_lt_of_le h3 with rfl | h3
          · exact ⟨_, hv, h1, h2⟩
          · exact hsc'.pass j h3 h4
        · intro j
          rw [hM]
          constructor
          · rintro (⟨rfl, hge⟩ | ⟨h3, h4, v', hv', hge⟩)
            · exact ⟨le_rfl, by have := hsc.lo; omega, _, hv, hge⟩
            · obtain ⟨v, hv₀, hs, -⟩ := hm.get hv'
              rw [hs] at hge
              exact ⟨by omega, h4, v, hv₀, hge⟩
          · rintro ⟨h3, h4, v, hv', hge⟩
            rcases Nat.eq_or_lt_of_le h3 with rfl | h3
            · rw [hv] at hv'
              cases hv'
              exact .inl ⟨rfl, hge⟩
            · obtain ⟨e, he, rfl⟩ := Option.map_eq_some_iff.mp
                ((List.getElem?_map ..).symm.trans hv')
              refine .inr ⟨h3, h4, s₁.desc e, ?_, by rw [hm.seq]; exact hge⟩
              rw [St.liveDescs, hsnd, List.getElem?_map, he]
              rfl
      split
      · rename_i h3
        exact onward (markDescSacked_marks hnd hd) fun j => by simp [h3]
      · rename_i h3
        exact onward (Marks.refl s) fun j => by simp [h3]

inductive BlockScans (s : St) : List SackBlock → Nat → (Nat → Prop) → Prop
  | nil (f : Nat) : BlockScans s [] f fun _ => False
  | cons {b : SackBlock} {l : List SackBlock} {f k : Nat} {M : Nat → Prop} (hs : BlockScan s b f k)
      (hl : BlockScans s l (k + 1) M) : BlockScans s (b :: l) f fun j => BlockMark s b f k j ∨ M j

theorem Marks.blockScans {s s' : St} {M M' : Nat → Prop} {l : List SackBlock} {f : Nat}
    (h : Marks s s' M) (hs : BlockScans s' l f M') :
    ∃ M'', BlockScans s l f M'' ∧ ∀ j, M'' j ↔ M' j := by
  induction hs with
  | nil f => exact ⟨_, .nil f, fun _ => Iff.rfl⟩
  | @cons b l f k M' hb hl ih =>
    obtain ⟨M'', hM, heq⟩ := ih
    refine ⟨_, .cons (h.blockScan hb) hM, fun j => or_congr ?_ (heq j)⟩
    refine and_congr_right fun _ => and_congr_right fun hlt => ?_
    constructor
    · rintro ⟨v, hv, hge⟩
      obtain ⟨d, hd, rfl⟩ := Option.map_eq_some_iff.mp ((List.getElem?_map ..).symm.trans hv)
      refine ⟨s'.desc d, ?_, by rw [h.seq]; exact hge⟩
      rw [St.liveDescs, h.snd, List.getElem?_map, hd]
      rfl
    · rintro ⟨v', hv', hge⟩
      obtain ⟨v, hv, hseq, -⟩ := h.get hv'
      exact ⟨v, hv, by rwa [hseq] at hge⟩

theorem sackLoop_spec {s : St} (l : List SackBlock) (f : Nat) (hwf : s.tsock.snd.txq.Wf)
    (hnd : s.tsock.snd.txq.live.Nodup) (hf : max f s.tsock.snd.txq.count + l.length < 2 ^ 16) :
    ∃ M, BlockScans s (l.filter fun b => ¬ seqGt b.stop s.tsock.snd.sndNxt) f M ∧
      Marks s (sackLoop l s (BitVec.ofNat 16 f)) M := by
  induction l generalizing s f with
  | nil => exact ⟨_, .nil f, .refl s⟩
  | cons b rest ih =>
    rw [List.length_cons] at hf
    simp only [sackLoop]
    split
    · rename_i hgt
      rw [List.filter_cons_of_neg (by simpa using hgt)]
      exact ih f hwf hnd (by omega)
    · rename_i hgt
      rw [List.filter_cons_of_pos (by simpa using hgt)]
      obtain ⟨k, hk, hmax, hsc, hm⟩ := sackBlockLoop_spec b (s.tsock.snd.txq.count + 1) f hwf hnd
        (by omega) (by omega) (by omega)
      change ∃ M, _ ∧ Marks s (sackLoop rest (sackBlockLoop b (s.tsock.snd.txq.count + 1) s _).1
        (sackBlockLoop b (s.tsock.snd.txq.count + 1) s _).2) M
      rw [hk]
      generalize (sackBlockLoop b (s.tsock.snd.txq.count + 1) s (BitVec.ofNat 16 f)).1 = s₁ at hm ⊢
      obtain ⟨M, hscs, hmk⟩ := ih (s := s₁) (k + 1) (by rw [hm.snd]; exact hwf)
        (by rw [hm.snd]; exact hnd) (by rw [hm.snd]; omega)
      rw [hm.snd] at hscs
      obtain ⟨M', hscs', heq⟩ := hm.blockScans hscs
      exact ⟨_, .cons hsc hscs', (hm.trans hmk).congr fun j => or_congr Iff.rfl (heq j).symm⟩

/-! ### Positions -/

/-- The queue seen from its begin `a`: descriptor `j` spans `[S j, S (j + 1))`, `snd_una`
lies at `u` inside the first one and `snd_nxt` at `n`. -/
structure QueueView (s : St) (a : U32) (u n : Nat) (S : Nat → Nat) (N : Nat) : Prop where
  row : Row S (fun j => S (j + 1)) N
  desc : ∀ j v, s.liveDescs[j]? = some v → j < N ∧ v.seq = a + BitVec.ofNat 32 (S j) ∧
    S (j + 1) = S j + v.data.length
  live : ∀ j, j < N → ∃ v, s.liveDescs[j]? = some v
  una : s.tsock.snd.sndUna = a + BitVec.ofNat 32 u
  nxt : s.tsock.snd.sndNxt = a + BitVec.ofNat 32 n
  zero : S 0 = 0
  first : u < S 1
  sent : u ≤ n
  small : n < 2 ^ 31
  span : ∀ j, j < N → S (j + 1) < 2 ^ 31

theorem QueueView.stop {s : St} {a : U32} {u n : Nat} {S : Nat → Nat} {N : Nat}
    (h : QueueView s a u n S N) {j : Nat} {v : TxDesc} (hv : s.liveDescs[j]? = some v) :
    v.stop = a + BitVec.ofNat 32 (S (j + 1)) := by
  obtain ⟨-, h1, h2⟩ := h.desc j v hv
  rw [TxDesc.stop, h1, h2, BitVec.ofNat_add, ← add_assoc]
  rfl

theorem SendQueueOk.view {s : St} (h : SendQueueOk s) (hne : s.liveDescs ≠ []) :
    ∃ a u n, QueueView s a u n (blockStart 0 s.blocks) s.liveDescs.length := by
  obtain ⟨a, hchain, hbase⟩ := h.chain
  have hbase := hbase hne
  have hspan := h.span
  obtain ⟨v₀, rest, hcons⟩ := List.exists_cons_of_ne_nil hne
  have hpart := h.part v₀ (by rw [hcons]; rfl)
  have hget : ∀ (j : Nat) (v : TxDesc), s.liveDescs[j]? = some v → s.blocks[j]? = some v.data := by
    intro j v hv
    rw [St.blocks, List.getElem?_map, hv]
    rfl
  have htotal : ∀ j, blockStart 0 s.blocks j ≤ (descBytes s.liveDescs).length := by
    intro j
    have := blockStart_mono 0 s.blocks (Nat.le_max_left j s.blocks.length)
    rw [blockStart_of_length_le (Nat.le_max_right j s.blocks.length), Nat.zero_add] at this
    exact this
  have h1 : blockStart 0 s.blocks 1 = v₀.data.length := by
    rw [blockStart_succ (hget 0 v₀ (by rw [hcons]; rfl)), blockStart_zero, Nat.zero_add]
  have hu : s.tsock.snd.partialAck.toNat < v₀.data.length := by
    have hlt : s.tsock.snd.partialAck.toNat < v₀.len.toNat := hpart
    have hlen : v₀.len.toNat = v₀.data.length := by
      unfold TxDesc.len
      rw [BitVec.toNat_ofNat, Nat.mod_eq_of_lt v₀.len_lt]
    omega
  have huna : s.tsock.snd.sndUna = a + BitVec.ofNat 32 s.tsock.snd.partialAck.toNat := by
    rw [BitVec.ofNat_toNat, BitVec.setWidth_eq, hbase]
  have hT := htotal 1
  have hsent := h.sent
  rw [hchain.end_eq, huna] at hsent
  refine ⟨a, s.tsock.snd.partialAck.toNat, ahead a s.tsock.snd.sndNxt, ?_⟩
  have hn : s.tsock.snd.partialAck.toNat ≤ ahead a s.tsock.snd.sndNxt ∧
      ahead a s.tsock.snd.sndNxt ≤ (descBytes s.liveDescs).length + 1 := by
    unfold ahead at *
    generalize s.tsock.snd.finSent = fin at hsent
    cases fin
    · rw [if_neg (by decide)] at hsent
      bv_omega
    · rw [if_pos rfl] at hsent
      bv_omega
  refine ⟨⟨?_, fun _ _ => rfl⟩, ?_, ?_, huna, (add_ahead ..).symm, blockStart_zero ..,
    by omega, hn.1, by omega, fun j _ => by have := htotal (j + 1); omega⟩
  · intro j hj
    have hv := List.getElem?_eq_getElem hj
    have hpos := List.length_pos_iff.mpr (hchain.get hv).2
    rw [blockStart_succ (hget j _ hv)]
    omega
  · intro j v hv
    refine ⟨(List.getElem?_eq_some_iff.mp hv).1, ?_, blockStart_succ (hget j v hv)⟩
    rw [(hchain.get hv).1, blockStart, Nat.zero_add, St.blocks, List.map_take]
  · intro j hj
    exact ⟨_, List.getElem?_eq_getElem hj⟩

section View

variable {s : St} {a : U32} {u n : Nat} {S : Nat → Nat} {N : Nat}

theorem QueueView.start_lt (h : QueueView s a u n S N) {j : Nat} (hj : j < N) : S j < S (j + 1) :=
  h.row.pos j hj

theorem QueueView.le_end (h : QueueView s a u n S N) {j : Nat} (hj : j < N) : S 1 ≤ S (j + 1) :=
  h.row.mono (i := 0) (Nat.zero_le _) hj

theorem QueueView.nodup (h : QueueView s a u n S N) : s.tsock.snd.txq.live.Nodup := by
  rw [List.nodup_iff_pairwise_ne, List.pairwise_iff_getElem]
  intro i j hi hj hij heq
  have get : ∀ {k : Nat} (hk : k < s.tsock.snd.txq.live.length),
      s.liveDescs[k]? = some (s.desc s.tsock.snd.txq.live[k]) := by
    intro k hk
    rw [St.liveDescs, List.getElem?_map, List.getElem?_eq_getElem hk]
    rfl
  obtain ⟨hiN, hsi, -⟩ := h.desc i _ (get hi)
  obtain ⟨hjN, hsj, -⟩ := h.desc j _ (get hj)
  have h1 := h.row.lt_of_lt hij hjN
  have h2 := h.start_lt hiN
  have h3 := h.start_lt hjN
  have h4 := h.span j hjN
  rw [heq, hsj] at hsi
  bv_omega

/-- The interval of a block that ends at `snd_nxt` or below. A block that ends half a
sequence space or more behind `snd_nxt` passes the test of the walk and stops it at once. -/
def SackBlock.interval (a : U32) (n : Nat) (b : SackBlock) : Nat × Nat :=
  (b.pos a, if b.endPos a ≤ n then b.endPos a else 0)

structure BlockView (a : U32) (u : Nat) (b : SackBlock) : Prop where
  lo : u ≤ b.pos a
  near : b.pos a < u + 2 ^ 31
  pos : b.pos a < b.endPos a
  far : b.endPos a < u + 2 ^ 32
  short : b.endPos a ≤ b.pos a + 2 ^ 31

theorem QueueView.block (h : QueueView s a u n S N) (hN : 0 < N) {b : SackBlock}
    (hne : seqLt b.start b.stop) (hge : seqGe b.start s.tsock.snd.sndUna) : BlockView a u b := by
  rw [h.una] at hge
  rw [seqLt_iff] at hne
  rw [seqGe_iff] at hge
  have h1 := h.first
  have h2 : S 1 < 2 ^ 31 := h.span 0 hN
  constructor
  all_goals
    simp only [SackBlock.pos, SackBlock.endPos, ahead]
    bv_omega

/-- A block that passes the test of the walk ends at `snd_nxt` or below, or so far behind
it that the comparison has wrapped; then it begins at `snd_nxt` or behind. -/
theorem QueueView.block_cases (h : QueueView s a u n S N) (hN : 0 < N) {b : SackBlock}
    (hb : BlockView a u b) (hv : ¬ seqGt b.stop s.tsock.snd.sndNxt) :
    b.endPos a ≤ n ∨ n ≤ b.pos a ∧ n + 2 ^ 31 ≤ b.endPos a := by
  have h1 := h.first
  have h2 : S 1 < 2 ^ 31 := h.span 0 hN
  have h3 := h.small
  have h4 := h.sent
  obtain ⟨hlo, hnear, hpos, hfar, hshort⟩ := hb
  rw [h.nxt, b.stop_eq a, seqGt_iff] at hv
  generalize b.endPos a = e at *
  bv_omega

theorem QueueView.stop_ge_nxt (h : QueueView s a u n S N) {j : Nat} {v : TxDesc}
    (hv : s.liveDescs[j]? = some v) : seqGe v.stop s.tsock.snd.sndNxt ↔ n ≤ S (j + 1) := by
  have h1 := h.span j (h.desc j v hv).1
  have h2 := h.small
  rw [h.stop hv, h.nxt]
  exact seqGe_add (by omega) (by omega)

theorem QueueView.stop_lt_nxt (h : QueueView s a u n S N) {j : Nat} {v : TxDesc}
    (hv : s.liveDescs[j]? = some v) : seqLt v.stop s.tsock.snd.sndNxt ↔ S (j + 1) < n := by
  have h1 := h.span j (h.desc j v hv).1
  have h2 := h.small
  rw [h.stop hv, h.nxt]
  exact seqLt_add (by omega) (by omega)

theorem QueueView.stop_ge_block (h : QueueView s a u n S N) {j : Nat} {v : TxDesc} {b : SackBlock}
    (hv : s.liveDescs[j]? = some v) (hb : BlockView a u b) (hn : S (j + 1) < n)
    (hc : b.endPos a ≤ n ∨ n ≤ b.pos a ∧ n + 2 ^ 31 ≤ b.endPos a) :
    seqGe v.stop b.stop ↔ (b.interval a n).2 ≤ S (j + 1) := by
  have h1 := h.span j (h.desc j v hv).1
  have h2 := h.small
  have h3 := h.le_end (h.desc j v hv).1
  have h4 := h.first
  rw [h.stop hv, b.stop_eq a]
  unfold SackBlock.interval
  split
  · exact seqGe_add (by omega) (by omega)
  · have hfar := hb.far
    rw [seqGe_iff]
    generalize b.endPos a = e at *
    bv_omega

theorem QueueView.scan (h : QueueView s a u n S N) {b : SackBlock} {f k : Nat}
    (hb : BlockView a u b) (hc : b.endPos a ≤ n ∨ n ≤ b.pos a ∧ n + 2 ^ 31 ≤ b.endPos a)
    (hs : BlockScan s b f k) :
    Scan (fun j => S (j + 1)) N n (b.interval a n).2 f k ∧
      ∀ j, BlockMark s b f k j ↔ f ≤ j ∧ j < k ∧ (b.interval a n).1 ≤ S j := by
  have hpass : ∀ j, f ≤ j → j < k → ∃ v, s.liveDescs[j]? = some v ∧ j < N ∧ S (j + 1) < n ∧
      S (j + 1) < (b.interval a n).2 := by
    intro j h1 h2
    obtain ⟨v, hv, h3, h4⟩ := hs.pass j h1 h2
    rw [h.stop_ge_nxt hv, Nat.not_le] at h3
    rw [h.stop_ge_block hv hb h3 hc, Nat.not_le] at h4
    exact ⟨v, hv, (h.desc j v hv).1, h3, h4⟩
  refine ⟨⟨hs.lo, fun j h1 h2 => ?_, fun hk => ?_⟩, fun j => ?_⟩
  · obtain ⟨v, -, h3⟩ := hpass j h1 h2
    exact h3
  · obtain ⟨v, hv⟩ := h.live k hk
    by_cases hn : n ≤ S (k + 1)
    · exact .inl hn
    · have := (hs.halt v hv).resolve_left (by rw [h.stop_ge_nxt hv]; exact hn)
      exact .inr ((h.stop_ge_block hv hb (by omega) hc).mp this)
  · refine and_congr_right fun h1 => and_congr_right fun h2 => ?_
    obtain ⟨v, hv, hj, h3, h4⟩ := hpass j h1 h2
    have hsmall := h.small
    have hlt := h.start_lt hj
    -- something was passed, so the comparisons of the block have not wrapped
    have hle : b.endPos a ≤ n := by
      by_contra hgt
      rw [SackBlock.interval, if_neg hgt] at h4
      exact absurd h4 (by omega)
    have hpos := hb.pos
    have hge : seqGe v.seq b.start ↔ b.pos a ≤ S j := by
      rw [(h.desc j v hv).2.1, b.start_eq a]
      exact seqGe_add (by omega) (by omega)
    constructor
    · rintro ⟨v', hv', hs'⟩
      rw [hv] at hv'
      cases hv'
      exact hge.mp hs'
    · intro hp
      exact ⟨v, hv, hge.mpr hp⟩

theorem QueueView.scans (h : QueueView s a u n S N) {l : List SackBlock} {f : Nat} {M : Nat → Prop}
    (hl : ∀ b ∈ l, BlockView a u b ∧ (b.endPos a ≤ n ∨ n ≤ b.pos a ∧ n + 2 ^ 31 ≤ b.endPos a))
    (hs : BlockScans s l f M) :
    ∃ M', Scans S (fun j => S (j + 1)) N n (l.map (SackBlock.interval a n)) f M' ∧
      ∀ j, M j ↔ M' j := by
  induction hs with
  | nil f => exact ⟨_, .nil f, fun _ => Iff.rfl⟩
  | @cons b l f k M hb hl' ih =>
    obtain ⟨M', hM, heq⟩ := ih fun b hm => hl b (List.mem_cons_of_mem _ hm)
    obtain ⟨hv, hc⟩ := hl b (List.mem_cons_self ..)
    obtain ⟨hsc, hmk⟩ := h.scan hv hc hb
    exact ⟨_, .cons hsc hM, fun j => or_congr (hmk j) (heq j)⟩

theorem QueueView.covers (h : QueueView s a u n S N) {j : Nat} {v : TxDesc} {b : SackBlock}
    (hv : s.liveDescs[j]? = some v) (hb : BlockView a u b) (hn : S (j + 1) < n)
    (hc : b.endPos a ≤ n ∨ n ≤ b.pos a ∧ n + 2 ^ 31 ≤ b.endPos a) :
    b.Covers v ↔ (b.interval a n).1 ≤ S j ∧ S (j + 1) ≤ (b.interval a n).2 := by
  obtain ⟨hj, hseq, hlen⟩ := h.desc j v hv
  have h1 := h.span j hj
  have h2 := h.small
  have h3 := h.le_end hj
  have h4 := h.first
  have h5 := h.start_lt hj
  obtain ⟨hlo, hnear, hpos, hfar, hshort⟩ := hb
  have hstart := b.start_eq a
  have hL : b.endPos a = b.pos a + ahead b.start b.stop := rfl
  have hP : b.pos a < 2 ^ 32 := ahead_lt ..
  unfold SackBlock.Covers SackBlock.interval
  have hah : ahead b.start v.seq = if b.pos a ≤ S j then S j - b.pos a
    else 2 ^ 32 + S j - b.pos a := by
    rw [hseq, hstart]
    generalize b.pos a = P at *
    unfold ahead
    split <;> bv_omega
  rw [hah]
  split <;> split <;> omega

theorem QueueView.endsIn (h : QueueView s a u n S N) {i : Nat} {w v : TxDesc} {b : SackBlock}
    (hw : s.liveDescs[i]? = some w) (hv : s.liveDescs[i + 1]? = some v) (hb : BlockView a u b)
    (hn : S (i + 1 + 1) < n) (hc : b.endPos a ≤ n ∨ n ≤ b.pos a ∧ n + 2 ^ 31 ≤ b.endPos a) :
    (seqLt b.start v.seq ∧ seqLt w.seq b.stop ∧ seqLe b.stop w.stop) ↔
      EndsBefore S (i + 1) (b.interval a n) := by
  obtain ⟨hj, hseq, -⟩ := h.desc (i + 1) v hv
  obtain ⟨hi, hseqw, -⟩ := h.desc i w hw
  have h1 := h.span (i + 1) hj
  have h2 := h.small
  have h3 := h.le_end hi
  have h4 := h.first
  have h5 := h.start_lt hj
  have h6 := h.start_lt hi
  obtain ⟨hlo, hnear, hpos, hfar, hshort⟩ := hb
  have hends : EndsBefore S (i + 1) (b.interval a n) ↔ (b.interval a n).1 < S (i + 1) ∧
      S i < (b.interval a n).2 ∧ (b.interval a n).2 ≤ S (i + 1) := by
    constructor
    · rintro ⟨i', hi', hrest⟩
      obtain rfl : i = i' := by omega
      exact hrest
    · exact fun hrest => ⟨i, rfl, hrest⟩
  rw [hends, h.stop hw, hseq, hseqw]
  unfold SackBlock.interval
  split
  · rw [b.start_eq a, b.stop_eq a]
    rw [seqLt_add (by omega) (by omega), seqLt_add (by omega) (by omega),
      seqLe_add (by omega) (by omega)]
  · refine ⟨fun hlt => ?_, fun hlt => absurd hlt.2.1 (by omega)⟩
    have := hlt.1
    rw [b.start_eq a, seqLt_add (by omega) (by omega)] at this
    omega

end View

/-! ### The blocks in order -/

section Blocks

variable {a : U32} {u : Nat} {l : List SackBlock}

private theorem BlockView.ordered {x y : SackBlock} (hx : BlockView a u x) (hy : BlockView a u y) :
    ¬ seqGt x.start y.start ↔ x.pos a ≤ y.pos a := by
  have h1 := hx.lo
  have h2 := hx.near
  have h3 := hy.lo
  have h4 := hy.near
  rw [x.start_eq a, y.start_eq a, seqGt_add (by omega) (by omega)]
  omega

private theorem BlockView.apart {x y : SackBlock} (hx : BlockView a u x) (hy : BlockView a u y)
    (hle : x.pos a ≤ y.pos a) (h : ∀ n, ¬ (x.Has n ∧ y.Has n)) : x.endPos a ≤ y.pos a := by
  by_contra hlt
  have hpx := hx.pos
  have hpy := hy.pos
  refine h y.start ⟨?_, ?_⟩
  · have h1 := x.start_eq a
    have h2 := y.start_eq a
    have hP : y.pos a < 2 ^ 32 := ahead_lt ..
    have hah : ahead x.start y.start = y.pos a - x.pos a := by
      rw [h1, h2]
      generalize x.pos a = P at *
      generalize y.pos a = P' at *
      unfold ahead
      bv_omega
    have hL : x.endPos a = x.pos a + ahead x.start x.stop := rfl
    unfold SackBlock.Has
    omega
  · have hL : y.endPos a = y.pos a + ahead y.start y.stop := rfl
    unfold SackBlock.Has
    rw [ahead_self]
    omega

theorem sortBlocks_pairwise (hv : ∀ b ∈ l, BlockView a u b)
    (hap : l.Pairwise fun x y => ∀ n, ¬ (x.Has n ∧ y.Has n)) :
    (sortBlocks l).Pairwise fun x y => x.endPos a ≤ y.pos a := by
  have hperm : (sortBlocks l).Perm l := List.perm_insertionSort ..
  have hsorted : (sortBlocks l).Pairwise fun x y => x.pos a ≤ y.pos a := by
    rw [← List.pairwise_map (f := SackBlock.pos a) (R := (· ≤ ·)), sortBlocks,
      List.map_insertionSort _ (s := (· ≤ ·)) (SackBlock.pos a) l
        fun x hx y hy => (hv x hx).ordered (hv y hy)]
    exact List.pairwise_insertionSort ..
  have hap' : (sortBlocks l).Pairwise fun x y => ∀ n, ¬ (x.Has n ∧ y.Has n) :=
    (hperm.pairwise_iff fun h n hn => h n hn.symm).mpr hap
  refine (hsorted.and hap').imp_of_mem fun hx hy h => ?_
  exact (hv _ (hperm.mem_iff.mp hx)).apart (hv _ (hperm.mem_iff.mp hy)) h.1 h.2

theorem blocksApart_of_pairwise (hv : ∀ b ∈ l, BlockView a u b)
    (hp : l.Pairwise fun x y => x.endPos a ≤ y.pos a) : blocksApart l = true := by
  induction l with
  | nil => rfl
  | cons x l ih =>
    cases l with
    | nil => rfl
    | cons y l =>
      obtain ⟨hx, hp'⟩ := List.pairwise_cons.mp hp
      have hle := hx y (List.mem_cons_self ..)
      have h1 := (hv x (List.mem_cons_self ..)).lo
      have h2 := (hv x (List.mem_cons_self ..)).pos
      have h3 := (hv y (by simp)).near
      have hlt : ¬ seqLt y.start x.stop := by
        rw [y.start_eq a, x.stop_eq a, seqLt_add (by omega) (by omega)]
        omega
      simp only [blocksApart, hlt, decide_false, Bool.not_false, Bool.true_and]
      exact ih (fun b hb => hv b (List.mem_cons_of_mem _ hb)) hp'

end Blocks

theorem seqLe_iff_not_seqGt (x y : U32) : seqLe x y ↔ ¬ seqGt x y := by
  unfold seqLe seqGt
  omega

private theorem QueueView.intervals {s : St} {a : U32} {u n : Nat} {S : Nat → Nat} {N : Nat}
    {l : List SackBlock} (h : QueueView s a u n S N) (hN : 0 < N) (hv : ∀ b ∈ l, BlockView a u b)
    (hp : l.Pairwise fun x y => x.endPos a ≤ y.pos a) :
    ((l.filter fun b => ¬ seqGt b.stop s.tsock.snd.sndNxt).map (SackBlock.interval a n)).Pairwise
      fun x y => S 0 < x.2 ∧ x.1 < x.2 ∧ x.2 ≤ y.1 := by
  rw [List.pairwise_map]
  refine (hp.filter _).imp_of_mem fun {x y} hx hy hle => ?_
  obtain ⟨hxl, hxv⟩ := List.mem_filter.mp hx
  have hview := hv x hxl
  have hnear := (hv y (List.mem_filter.mp hy).1).near
  have hsent := h.sent
  have hpos := hview.pos
  have hend : x.endPos a ≤ n := by
    rcases h.block_cases hN hview (by simpa using hxv) with hle' | ⟨-, hge⟩
    · exact hle'
    · omega
  have hint : (x.interval a n).2 = x.endPos a := if_pos hend
  rw [hint, h.zero]
  exact ⟨by omega, hpos, hle⟩

theorem SackBlocksOk.start_ne {una : U32} {l : List SackBlock} (h : SackBlocksOk una l)
    {x y : SackBlock} (hx : x ∈ l) (hy : y ∈ l) (hne : x ≠ y) : x.start ≠ y.start := by
  have pos : ∀ b ∈ l, b.Has b.start := by
    intro b hb
    have := h.nonempty b hb
    rw [seqLt_iff] at this
    unfold SackBlock.Has
    rw [ahead_self]
    unfold ahead
    bv_omega
  have hsymm : Std.Symm fun a b : SackBlock => ∀ n, ¬ (a.Has n ∧ b.Has n) :=
    ⟨fun _ _ h n hn => h n hn.symm⟩
  intro heq
  refine h.apart.forall hx hy hne x.start ⟨pos x hx, ?_⟩
  rw [heq]
  exact pos y hy

/-- What `tcp_rcv_sack` marks: only descriptors that are due, and of these all but the
ones that end with their block or stand behind a crowded descriptor. -/
theorem tcpRcvSack_spec {s : St} {a : U32} {u n : Nat} {S : Nat → Nat} {N : Nat} (o : TcpOpts)
    (h : QueueView s a u n S N) (hN : 0 < N) (hwf : s.tsock.snd.txq.Wf)
    (hb : SackBlocksOk s.tsock.snd.sndUna o.sackBlocks) :
    ∃ M, Marks s (tcpRcvSack s o) M ∧ ∀ j v, s.liveDescs[j]? = some v →
      (M j → SackDue s.tsock.snd.sndNxt o.sackBlocks v) ∧
      ∀ b ∈ o.sackBlocks, seqLe b.stop s.tsock.snd.sndNxt → seqLt v.stop s.tsock.snd.sndNxt →
        b.Covers v → (M j ↔ v.stop ≠ b.stop ∧ ¬ SackCrowded s o.sackBlocks j v) := by
  have hview : ∀ b ∈ o.sackBlocks, BlockView a u b :=
    fun b hm => h.block hN (hb.nonempty b hm) (hb.above b hm)
  have hmem : ∀ b, b ∈ sortBlocks o.sackBlocks ↔ b ∈ o.sackBlocks := fun b =>
    (List.perm_insertionSort ..).mem_iff
  have hview' : ∀ b ∈ sortBlocks o.sackBlocks, BlockView a u b :=
    fun b hm => hview b ((hmem b).mp hm)
  have hsorted := sortBlocks_pairwise hview hb.apart
  have hsort : sortSack o.sackBlocks = some (sortBlocks o.sackBlocks) :=
    if_pos (blocksApart_of_pairwise hview' hsorted)
  have hlen : (sortBlocks o.sackBlocks).length ≤ 3 := by
    rw [sortBlocks, List.length_insertionSort]
    exact hb.few
  have hcount := hwf.count_le
  have hsize := s.tsock.snd.txq.size_ok.le
  obtain ⟨M, hscans, hmarks⟩ := sackLoop_spec (sortBlocks o.sackBlocks) 0 hwf h.nodup (by omega)
  have hvalid :
    ∀ b, b ∈ (sortBlocks o.sackBlocks).filter (fun b => ¬ seqGt b.stop s.tsock.snd.sndNxt) ↔
      b ∈ o.sackBlocks ∧ seqLe b.stop s.tsock.snd.sndNxt := by
    intro b
    rw [List.mem_filter, hmem, seqLe_iff_not_seqGt, decide_eq_true_iff]
  have hcases : ∀ b ∈ (sortBlocks o.sackBlocks).filter (fun b => ¬ seqGt b.stop s.tsock.snd.sndNxt),
      BlockView a u b ∧ (b.endPos a ≤ n ∨ n ≤ b.pos a ∧ n + 2 ^ 31 ≤ b.endPos a) := by
    intro b hm
    obtain ⟨hbl, hle⟩ := (hvalid b).mp hm
    exact ⟨hview b hbl, h.block_cases hN (hview b hbl) ((seqLe_iff_not_seqGt ..).mp hle)⟩
  obtain ⟨M', hM', heq⟩ := h.scans hcases hscans
  have hpw := h.intervals hN hview' hsorted
  have hfew : (((sortBlocks o.sackBlocks).filter fun b => ¬ seqGt b.stop s.tsock.snd.sndNxt).map
      (SackBlock.interval a n)).length ≤ 3 := by
    rw [List.length_map]
    exact (List.length_filter_le ..).trans hlen
  generalize (sortBlocks o.sackBlocks).filter (fun b => ¬ seqGt b.stop s.tsock.snd.sndNxt) = V at *
  refine ⟨M, ?_, fun j v hv => ⟨fun hj => ?_, fun b hbl hle hlt hcov => ?_⟩⟩
  · rw [tcpRcvSack, hsort]
    exact hmarks
  · obtain ⟨-, hn, I, hI, h1, h2⟩ := hM'.sound ((heq j).mp hj)
    obtain ⟨b, hbV, rfl⟩ := List.mem_map.mp hI
    obtain ⟨hbl, hle⟩ := (hvalid b).mp hbV
    obtain ⟨hbv, hc⟩ := hcases b hbV
    exact ⟨(h.stop_lt_nxt hv).mpr hn, b, hbl, hle, (h.covers hv hbv hn hc).mpr ⟨h1, h2.le⟩⟩
  · have hbV := (hvalid b).mpr ⟨hbl, hle⟩
    obtain ⟨hbv, hc⟩ := hcases b hbV
    have hn := (h.stop_lt_nxt hv).mp hlt
    have hcov' := (h.covers hv hbv hn hc).mp hcov
    rw [heq, hM'.passed_iff h.row hfew hpw (h.desc j v hv).1 hn (List.mem_map_of_mem hbV) hcov']
    refine and_congr (not_congr ?_) (not_congr ⟨?_, ?_⟩)
    · have hj := (h.desc j v hv).1
      have h1 := h.start_lt hj
      have h2 := h.small
      have hend : b.endPos a ≤ n := by
        by_contra hgt
        have := hcov'.2
        rw [SackBlock.interval, if_neg hgt] at this
        omega
      have hint : (b.interval a n).2 = b.endPos a := if_pos hend
      rw [hint, h.stop hv, b.stop_eq a]
      generalize b.endPos a = e at *
      generalize S (j + 1) = E at *
      constructor
      · intro hE
        rw [hE]
      · intro hE
        bv_omega
    · rintro ⟨x, hx, y, hy, hxy, hex, hey⟩
      obtain ⟨b₀, hb₀, rfl⟩ := List.mem_map.mp hx
      obtain ⟨b₁, hb₁, rfl⟩ := List.mem_map.mp hy
      obtain ⟨i, rfl, -⟩ := id hex
      obtain ⟨w, hw⟩ := h.live i (by have := (h.desc (i + 1) v hv).1; omega)
      have ends : ∀ c ∈ V, EndsBefore S (i + 1) (c.interval a n) →
        c.EndsIn s.tsock.snd.sndNxt w v := by
        intro c hc he
        obtain ⟨hcv, hcc⟩ := hcases c hc
        exact ⟨((hvalid c).mp hc).2, (h.endsIn hw hv hcv hn hcc).mpr he⟩
      refine ⟨i, w, rfl, hw, b₀, ((hvalid b₀).mp hb₀).1, b₁, ((hvalid b₁).mp hb₁).1, ?_,
        ends b₀ hb₀ hex, ends b₁ hb₁ hey⟩
      rintro rfl
      exact hxy rfl
    · rintro ⟨i, w, rfl, hw, b₀, hb₀, b₁, hb₁, hne, he₀, he₁⟩
      have hV₀ := (hvalid b₀).mpr ⟨hb₀, he₀.1⟩
      have hV₁ := (hvalid b₁).mpr ⟨hb₁, he₁.1⟩
      have ends : ∀ c ∈ V, c.EndsIn s.tsock.snd.sndNxt w v →
        EndsBefore S (i + 1) (c.interval a n) := by
        intro c hc he
        obtain ⟨hcv, hcc⟩ := hcases c hc
        exact (h.endsIn hw hv hcv hn hcc).mp he.2
      refine ⟨_, List.mem_map_of_mem hV₀, _, List.mem_map_of_mem hV₁, ?_, ends b₀ hV₀ he₀,
        ends b₁ hV₁ he₁⟩
      intro heq
      exact hb.start_ne hb₀ hb₁ hne (ahead_inj (congrArg Prod.fst heq))

/-- `tcp_rcv_sack` marks exactly the descriptors that lie inside a block and end below
`snd_nxt`, unless it misses one. -/
theorem tcpRcvSack_marks_iff (s : St) (o : TcpOpts) (h : SendQueueOk s)
    (hb : SackBlocksOk s.tsock.snd.sndUna o.sackBlocks) :
    (∀ d ∈ s.tsock.snd.txq.live, ((tcpRcvSack s o).desc d).sacked = true ↔
      (s.desc d).sacked = true ∨ SackDue s.tsock.snd.sndNxt o.sackBlocks (s.desc d)) ↔
      ¬ SackMissed s o.sackBlocks := by
  by_cases hne : s.liveDescs = []
  · have hlive : s.tsock.snd.txq.live = [] := List.map_eq_nil_iff.mp hne
    constructor
    · rintro - ⟨j, v, b, hv, -⟩
      rw [hne] at hv
      cases hv
    · intro _ d hd
      rw [hlive] at hd
      cases hd
  obtain ⟨a, u, n, hview⟩ := h.view hne
  obtain ⟨M, hM, hspec⟩ := tcpRcvSack_spec o hview (List.length_pos_iff.mpr hne) h.wf hb
  constructor
  · rintro hall ⟨j, v, b, hv, hs, hlt, hbl, hle, hcov, hmiss⟩
    obtain ⟨d, hd, rfl⟩ := Option.map_eq_some_iff.mp ((List.getElem?_map ..).symm.trans hv)
    have hdue := (hall d (List.mem_of_getElem? hd)).mpr (.inr ⟨hlt, b, hbl, hle, hcov⟩)
    have hmark := ((hM.mark j d hd).mp hdue).resolve_left (by rw [hs]; decide)
    obtain ⟨h1, h2⟩ := ((hspec j _ hv).2 b hbl hle hlt hcov).mp hmark
    exact hmiss.elim h1 h2
  · intro hno d hd
    obtain ⟨j, hj⟩ := List.getElem?_of_mem hd
    have hv : s.liveDescs[j]? = some (s.desc d) := by
      rw [St.liveDescs, List.getElem?_map, hj]
      rfl
    rw [hM.mark j d hj]
    constructor
    · rintro (hs | hm)
      · exact .inl hs
      · exact .inr ((hspec j _ hv).1 hm)
    · rintro (hs | ⟨hlt, b, hbl, hle, hcov⟩)
      · exact .inl hs
      · by_cases hs : (s.desc d).sacked = true
        · exact .inl hs
        · refine .inr (((hspec j _ hv).2 b hbl hle hlt hcov).mpr ⟨fun he => ?_, fun hc => ?_⟩)
          · exact hno ⟨j, _, b, hv, by simpa using hs, hlt, hbl, hle, hcov, .inl he⟩
          · exact hno ⟨j, _, b, hv, by simpa using hs, hlt, hbl, hle, hcov, .inr hc⟩

theorem byteDesc_len (b : Byte) : [b].length < 2 ^ 32 := show 1 < 2 ^ 32 by decide

def byteDesc (seq : U32) (b : Byte) : TxDesc :=
  { TxDesc.blank with data := [b], len_lt := byteDesc_len b, seq := seq }

def threeSent : St where
  worker := { Worker.boot 0 {} with
    tx := { free := [], mem := fun d => byteDesc (BitVec.ofNat 32 d) 97 } }
  tsock := { tsockInit {} 0 false with
    state := .established
    snd := { (tsockInit {} 0 false).snd with
      sndUna := 1
      sndNxt := 4
      dataSeqNxt := 4
      txq := { tcpTxqInit {} with nxt := 3, write := 3, descs := fun i => i + 1 } } }

theorem threeSent_ok : SendQueueOk threeSent where
  wf := ⟨by decide, by decide⟩
  chain := ⟨1, ⟨rfl, by decide, rfl, by decide, rfl, by decide, rfl⟩, fun _ => rfl⟩
  part := by
    rintro v ⟨⟩
    decide
  empty := fun h => absurd h (by decide)
  sent := by decide
  nxt := by
    intro v hv
    have hnone : threeSent.liveDescs[(threeSent.tsock.snd.txq.nxt -
        threeSent.tsock.snd.txq.una).toNat]? = none := by decide
    rw [hnone] at hv
    cases hv
  span := by decide

theorem sackBlocksOk_singleton {una : U32} {b : SackBlock} (h : seqLt b.start b.stop)
    (h' : seqGe b.start una) : SackBlocksOk una [b] where
  some := Nat.le_refl _
  few := show 1 ≤ 3 by decide
  nonempty := by
    intro c hc
    rwa [List.mem_singleton.mp hc]
  above := by
    intro c hc
    rwa [List.mem_singleton.mp hc]
  apart := List.pairwise_singleton ..

theorem tcpRcvSack_marks_second :
    SackDue 4 [⟨2, 4⟩] (threeSent.desc 2) ∧
      ∀ d ∈ threeSent.tsock.snd.txq.live,
        ((tcpRcvSack threeSent { sackBlocks := [⟨2, 4⟩] }).desc d).sacked = true ↔
          (threeSent.desc d).sacked = true ∨ SackDue 4 [⟨2, 4⟩] (threeSent.desc d) := by
  refine ⟨⟨by decide, ⟨2, 4⟩, by decide, by decide, by decide⟩, ?_⟩
  refine (tcpRcvSack_marks_iff threeSent { sackBlocks := [⟨2, 4⟩] } threeSent_ok
    (sackBlocksOk_singleton (by decide) (by decide))).mpr ?_
  rintro ⟨j, v, b, hv, -, hlt, hb, -, hcov, hmiss⟩
  obtain rfl := List.mem_singleton.mp hb
  rcases hmiss with hstop | ⟨i, w, -, -, b₀, hb₀, b₁, hb₁, hne, -⟩
  · rw [hstop] at hlt
    exact absurd hlt (by decide)
  · exact hne ((List.mem_singleton.mp hb₀).trans (List.mem_singleton.mp hb₁).symm)

/-- A block that is exactly the second byte: its descriptor is not marked. -/
theorem exactBlock_not_marked :
    SendQueueOk threeSent ∧ SackBlocksOk threeSent.tsock.snd.sndUna [⟨2, 3⟩] ∧
      2 ∈ threeSent.tsock.snd.txq.live ∧
      SackDue threeSent.tsock.snd.sndNxt [⟨2, 3⟩] (threeSent.desc 2) ∧
      ((tcpRcvSack threeSent { sackBlocks := [⟨2, 3⟩] }).desc 2).sacked = false :=
  ⟨threeSent_ok, sackBlocksOk_singleton (by decide) (by decide), by decide,
    ⟨by decide, ⟨2, 3⟩, by decide, by decide, by decide⟩, by decide⟩

end LibTpa
