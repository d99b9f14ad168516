/- LibTpa/Rcv/SackBlocks
   digest: The SACK blocks of a receiver as islands that do not touch. -/

import LibTpa.Rcv.Reassembly
import Mathlib.Data.List.Pairwise
import Mathlib.Data.List.Perm.Basic

set_option autoImplicit false

namespace LibTpa

open Lib.SerialNumber

structure SackBlock.Fits (a : U32) (b : SackBlock) : Prop where
  pos : b.pos a < b.endPos a
  near : b.endPos a < 2 ^ 31

def SackBlock.Apart (a : U32) (x y : SackBlock) : Prop :=
  x.endPos a < y.pos a ∨ y.endPos a < x.pos a

def SackBlock.At (a : U32) (b : SackBlock) (n : Nat) : Prop := b.pos a ≤ n ∧ n < b.endPos a

theorem SackBlock.Apart.symm {a : U32} {x y : SackBlock} (h : x.Apart a y) :
    y.Apart a x := Or.symm h

variable {a : U32} {x y b m new : SackBlock} {l rest : List SackBlock}

theorem SackBlock.pos_mk {lo hi : Nat} (h : lo ≤ hi) (hh : hi < 2 ^ 32) :
    (SackBlock.mk (a + BitVec.ofNat 32 lo) (a + BitVec.ofNat 32 hi)).pos a = lo ∧
      (SackBlock.mk (a + BitVec.ofNat 32 lo) (a + BitVec.ofNat 32 hi)).endPos a = hi := by
  unfold SackBlock.pos SackBlock.endPos ahead
  constructor <;> bv_omega

structure Hull (a : U32) (x y m : SackBlock) : Prop where
  pos : m.pos a = min (x.pos a) (y.pos a)
  endPos : m.endPos a = max (x.endPos a) (y.endPos a)

theorem Hull.fits (h : Hull a x y m) (hx : x.Fits a) (hy : y.Fits a) : m.Fits a := by
  have h1 := h.pos
  have h2 := h.endPos
  have h3 := hx.pos
  have h4 := hx.near
  have h5 := hy.near
  constructor <;> omega

theorem Hull.at_iff (h : Hull a x y m) (ht : ¬ x.Apart a y) {n : Nat} :
    m.At a n ↔ x.At a n ∨ y.At a n := by
  have h1 := h.pos
  have h2 := h.endPos
  unfold SackBlock.Apart at ht
  unfold SackBlock.At
  omega

theorem Hull.apart (h : Hull a x y m) (ht : ¬ x.Apart a y) (hb : b.pos a < b.endPos a)
    (hx : b.Apart a x) (hy : b.Apart a y) : b.Apart a m := by
  have h1 := h.pos
  have h2 := h.endPos
  unfold SackBlock.Apart at *
  omega

theorem sackMerge_spec (hx : x.Fits a) (hy : y.Fits a) :
    sackMerge x y.start y.stop = none ∧ x.Apart a y ∨
      ∃ m, sackMerge x y.start y.stop = some m ∧ ¬ x.Apart a y ∧ Hull a x y m := by
  have hx1 := hx.pos
  have hx2 := hx.near
  have hy1 := hy.pos
  have hy2 := hy.near
  have hsx := x.start_eq a
  have hex := x.stop_eq a
  have hsy := y.start_eq a
  have hey := y.stop_eq a
  have hap : (seqLt y.stop x.start ∨ seqGt y.start x.stop) ↔ x.Apart a y := by
    rw [hsx, hex, hsy, hey, seqLt_add (by omega) (by omega), seqGt_add (by omega) (by omega)]
    exact or_comm
  unfold sackMerge
  by_cases h : seqLt y.stop x.start ∨ seqGt y.start x.stop
  · rw [if_pos h]
    exact .inl ⟨rfl, hap.mp h⟩
  · rw [if_neg h]
    refine .inr ⟨_, rfl, fun h' => h (hap.mpr h'), ?_⟩
    have hstart : (if seqLt y.start x.start then y.start else x.start) =
        a + BitVec.ofNat 32 (min (x.pos a) (y.pos a)) := by
      have hlt : seqLt y.start x.start ↔ y.pos a < x.pos a := by
        rw [hsx, hsy]
        exact seqLt_add (by omega) (by omega)
      by_cases hc : y.pos a < x.pos a
      · rw [if_pos (hlt.mpr hc), Nat.min_eq_right hc.le, ← hsy]
      · rw [if_neg (fun h => hc (hlt.mp h)), Nat.min_eq_left (by omega), ← hsx]
    have hstop : (if seqGt y.stop x.stop then y.stop else x.stop) =
        a + BitVec.ofNat 32 (max (x.endPos a) (y.endPos a)) := by
      have hgt : seqGt y.stop x.stop ↔ x.endPos a < y.endPos a := by
        rw [hex, hey]
        exact seqGt_add (by omega) (by omega)
      by_cases hc : x.endPos a < y.endPos a
      · rw [if_pos (hgt.mpr hc), Nat.max_eq_right hc.le, ← hey]
      · rw [if_neg (fun h => hc (hgt.mp h)), Nat.max_eq_left (by omega), ← hex]
    rw [hstart, hstop]
    have hle : min (x.pos a) (y.pos a) ≤ max (x.endPos a) (y.endPos a) := by omega
    obtain ⟨h1, h2⟩ := SackBlock.pos_mk (a := a) hle (by omega)
    exact ⟨h1, h2⟩

/-- What `sack_try_merge_blocks` makes of a block and the ones behind it. -/
structure Absorbed (a : U32) (b : SackBlock) (l : List SackBlock) (m : SackBlock)
    (rest : List SackBlock) : Prop where
  fits : m.Fits a
  sub : rest.Sublist l
  wider : ∀ n, b.At a n → m.At a n
  cover : ∀ n, m.At a n → b.At a n ∨ ∃ c ∈ l, c.At a n
  outside : ∀ d : SackBlock, d.pos a < d.endPos a → d.Apart a b →
    (∀ c ∈ l, d.Apart a c) → d.Apart a m
  apart : l.Pairwise (SackBlock.Apart a) → ∀ c ∈ rest, c.Apart a m

theorem sackTryMergeBlocks_spec (hb : b.Fits a) (hl : ∀ c ∈ l, c.Fits a) :
    Absorbed a b l (sackTryMergeBlocks b l).1 (sackTryMergeBlocks b l).2 := by
  induction l generalizing b with
  | nil =>
    exact ⟨hb, .slnil, fun _ h => h, fun _ h => .inl h, fun _ _ h _ => h, fun _ c hc => by cases hc⟩
  | cons c l ih =>
    have hc := hl c (List.mem_cons_self ..)
    have hl' : ∀ d ∈ l, d.Fits a := fun d hd => hl d (List.mem_cons_of_mem _ hd)
    rcases sackMerge_spec hb hc with ⟨he, hap⟩ | ⟨m, he, hto, hm⟩
    · have h := ih hb hl'
      simp only [sackTryMergeBlocks, he]
      refine ⟨h.fits, h.sub.cons_cons c, h.wider, fun n hn => ?_, fun d hd h1 h2 => ?_,
        fun hp d hd => ?_⟩
      · exact (h.cover n hn).imp_right fun ⟨e, hmem, hat⟩ => ⟨e, List.mem_cons_of_mem _ hmem, hat⟩
      · exact h.outside d hd h1 fun e hmem => h2 e (List.mem_cons_of_mem _ hmem)
      · obtain ⟨hp1, hp2⟩ := List.pairwise_cons.mp hp
        rcases List.mem_cons.mp hd with rfl | hd
        · exact h.outside d hc.pos hap.symm hp1
        · exact h.apart hp2 d hd
    · have h := ih (hm.fits hb hc) hl'
      simp only [sackTryMergeBlocks, he]
      refine ⟨h.fits, h.sub.cons c, fun n hn => ?_, fun n hn => ?_, fun d hd h1 h2 => ?_,
        fun hp d hd => ?_⟩
      · exact h.wider n ((hm.at_iff hto).mpr (.inl hn))
      · rcases h.cover n hn with h1 | ⟨e, hmem, hat⟩
        · exact ((hm.at_iff hto).mp h1).imp_right fun hat => ⟨c, List.mem_cons_self .., hat⟩
        · exact .inr ⟨e, List.mem_cons_of_mem _ hmem, hat⟩
      · exact h.outside d hd (hm.apart hto hd h1 (h2 c (List.mem_cons_self ..)))
          fun e hmem => h2 e (List.mem_cons_of_mem _ hmem)
      · exact h.apart (List.pairwise_cons.mp hp).2 d hd

theorem sackFindMerge_spec (hn : new.Fits a) (hl : ∀ c ∈ l, c.Fits a) :
    sackFindMerge new.start new.stop l = none ∧ (∀ c ∈ l, c.Apart a new) ∨
      ∃ before b m after, sackFindMerge new.start new.stop l = some (before, m, after) ∧
        l = before ++ b :: after ∧ (∀ c ∈ before, c.Apart a new) ∧ ¬ b.Apart a new ∧
          Hull a b new m := by
  induction l with
  | nil => exact .inl ⟨rfl, by simp⟩
  | cons c l ih =>
    simp only [sackFindMerge]
    rcases sackMerge_spec (hl c (List.mem_cons_self ..)) hn with ⟨he, hap⟩ | ⟨m, he, hto, hm⟩
    · rw [he]
      rcases ih fun d hd => hl d (List.mem_cons_of_mem _ hd) with
        ⟨h1, h2⟩ | ⟨before, b, m, after, h1, h2, h3, h4⟩
      · refine .inl ⟨by rw [h1]; rfl, fun d hd => ?_⟩
        rcases List.mem_cons.mp hd with rfl | hd
        · exact hap
        · exact h2 d hd
      · refine .inr ⟨c :: before, b, m, after, by rw [h1]; rfl, by rw [h2]; rfl, fun d hd => ?_, h4⟩
        rcases List.mem_cons.mp hd with rfl | hd
        · exact hap
        · exact h3 d hd
    · rw [he]
      exact .inr ⟨[], c, m, l, rfl, rfl, by simp, hto, hm⟩

/-- What `sack_update` makes of the blocks: the first one holds the new segment, and no
two of them touch. -/
structure Updated (a : U32) (l : List SackBlock) (new m : SackBlock) (rest : List SackBlock) :
    Prop where
  fits : m.Fits a
  wider : ∀ n, new.At a n → m.At a n
  cover : ∀ n, m.At a n → new.At a n ∨ ∃ c ∈ l, c.At a n
  old : ∀ c ∈ rest, c ∈ l
  apart : (m :: rest).Pairwise (SackBlock.Apart a)
  few : rest.length ≤ 2

private theorem Absorbed.updated {others : List SackBlock} (hm : Hull a b new m)
    (hto : ¬ b.Apart a new) (h : Absorbed a m others x rest) (hb : b ∈ l)
    (hsub : ∀ c ∈ others, c ∈ l) (hp : others.Pairwise (SackBlock.Apart a))
    (hfew : others.length ≤ 2) : Updated a l new x rest where
  fits := h.fits
  wider n hn := h.wider n ((hm.at_iff hto).mpr (.inr hn))
  cover n hn := by
    rcases h.cover n hn with h1 | ⟨c, hc, hat⟩
    · rcases (hm.at_iff hto).mp h1 with h2 | h2
      · exact .inr ⟨b, hb, h2⟩
      · exact .inl h2
    · exact .inr ⟨c, hsub c hc, hat⟩
  old c hc := hsub c (h.sub.mem hc)
  apart := List.pairwise_cons.mpr ⟨fun c hc => (h.apart hp c hc).symm, hp.sublist h.sub⟩
  few := h.sub.length_le.trans hfew

theorem sackUpdate_spec {r : Rcv} {start : U32} {len : Nat} (hok : r.sackOk = true)
    (hn : (SackBlock.mk start (start + BitVec.ofNat 32 len)).Fits a)
    (hl : ∀ c ∈ r.sackBlocks, c.Fits a) (hp : r.sackBlocks.Pairwise (SackBlock.Apart a))
    (hfew : r.sackBlocks.length ≤ 3) :
    ∃ m rest, sackUpdate r start len = m :: rest ∧
      Updated a r.sackBlocks ⟨start, start + BitVec.ofNat 32 len⟩ m rest := by
  unfold sackUpdate
  dsimp only
  rw [if_pos hok]
  rcases sackFindMerge_spec hn hl with ⟨he, hap⟩ | ⟨before, b, m, after, he, hsplit, hbef, hto, hm⟩
  · rw [he]
    refine ⟨_, _, rfl, hn, fun _ h => h, fun _ h => .inl h,
      fun c hc => List.mem_of_mem_take hc, ?_, ?_⟩
    · refine List.pairwise_cons.mpr ⟨fun c hc => (hap c (List.mem_of_mem_take hc)).symm, ?_⟩
      exact hp.sublist (List.take_sublist ..)
    · exact List.length_take_le ..
  · rw [he]
    have hmem : b ∈ r.sackBlocks := by
      rw [hsplit]
      simp
    have hmf := hm.fits (hl b hmem) hn
    cases before with
    | nil =>
      rw [List.nil_append] at hsplit
      have hsub : ∀ c ∈ after, c ∈ r.sackBlocks := fun c hc => by
        rw [hsplit]
        exact List.mem_cons_of_mem _ hc
      have habs := sackTryMergeBlocks_spec hmf fun c hc => hl c (hsub c hc)
      refine ⟨_, _, rfl, habs.updated hm hto hmem hsub ?_ ?_⟩
      · rw [hsplit] at hp
        exact (List.pairwise_cons.mp hp).2
      · rw [hsplit, List.length_cons] at hfew
        omega
    | cons b₀ before =>
      have hperm : (before ++ b₀ :: after).Perm ((b₀ :: before) ++ after) := List.perm_middle
      have hsub : ∀ c ∈ before ++ b₀ :: after, c ∈ r.sackBlocks := fun c hc => by
        rw [hsplit]
        have := hperm.mem_iff.mp hc
        simp only [List.mem_append, List.mem_cons] at this ⊢
        tauto
      have habs := sackTryMergeBlocks_spec hmf fun c hc => hl c (hsub c hc)
      refine ⟨_, _, rfl, habs.updated hm hto hmem hsub ?_ ?_⟩
      · rw [hperm.pairwise_iff fun h => SackBlock.Apart.symm h]
        rw [hsplit] at hp
        exact hp.sublist ((List.Sublist.refl _).append (List.sublist_cons_self ..))
      · rw [hsplit, List.length_append, List.length_cons, List.length_cons] at hfew
        rw [List.length_append, List.length_cons]
        omega

end LibTpa
