/- LibTpa/Rcv/Invariant
   digest: What every call of the receive path keeps true of the receive queues. -/

import LibTpa.Rcv.Read
import LibTpa.Lib.SpanList
import LibTpa.Lib.Stream

/-!
The reassembly invariant. Packets of the out-of-order queue are spans of
distances from `rcv_nxt`; `k` is the position of `rcv_nxt` in the peer's stream
and `C` what is known about the content of the segments that arrive.
-/

set_option autoImplicit false

namespace LibTpa

open Lib.SerialNumber Lib.SpanList Lib.Stream

def Rcv.off (r : Rcv) (p : Packet) : Nat := ahead r.rcvNxt p.seq

def segSum (q : List Packet) : Nat := (q.map Packet.nbSegs).sum

@[simp] theorem segSum_nil : segSum [] = 0 := rfl
@[simp] theorem segSum_cons (p : Packet) (q : List Packet) :
    segSum (p :: q) = p.nbSegs + segSum q := rfl
@[simp] theorem segSum_append (q q' : List Packet) :
    segSum (q ++ q') = segSum q + segSum q' := by simp [segSum]

/-- `share` is what the other sockets of the worker hold of `nr_ooo_mbuf`. -/
structure RcvInv (C : SegPred Byte) (share : U32) (k : Nat) (x : RxSt) : Prop where
  spans : Spans x.rcv.off Packet.len 0 x.rcv.ooo x.rcv.rcvWnd
  wnd : x.rcv.rcvWnd + rxqLen x.rcv.rxq = tsockRcvWndDefault x.rcv.rxqSize
  size : x.rcv.rxqSize ≤ 2 ^ 15
  count : x.rcv.nrOooPkt = BitVec.ofNat 16 x.rcv.ooo.length
  mbufs : x.rx.nrOooMbuf = share + BitVec.ofNat 32 (segSum x.rcv.ooo)
  last : ∀ i, x.rcv.lastOooPkt = some i → ∃ p ∈ x.rcv.ooo, p.id = i
  oooAligned : ∀ p ∈ x.rcv.ooo, p.Aligned
  rxqAligned : ∀ p ∈ x.rcv.rxq, p.Aligned
  content : ∀ p ∈ x.rcv.ooo, C.holds (k + x.rcv.off p) p.bytes

variable {C : SegPred Byte} {share : U32} {k : Nat} {x : RxSt}

theorem RcvInv.wnd_lt (h : RcvInv C share k x) : x.rcv.rcvWnd < 2 ^ 26 := by
  have h1 := h.wnd
  have h2 := h.size
  unfold tsockRcvWndDefault at h1
  omega

theorem off_endSeq {r : Rcv} {p : Packet} (h : r.off p < 2 ^ 31) :
    ahead r.rcvNxt p.endSeq = r.off p + p.len := by
  have := p.len_lt
  exact ahead_add (by unfold Rcv.off at h; omega)

theorem off_endSeq_sub {r : Rcv} {p q : Packet} (hp : r.off p < 2 ^ 30) (hq : r.off q < 2 ^ 30) :
    (p.endSeq - q.seq).toInt = (r.off p + p.len : Int) - r.off q := by
  have := p.len_lt
  have he := off_endSeq (r := r) (p := p) (by omega)
  have h1 : ahead r.rcvNxt p.endSeq < 2 ^ 31 := by omega
  have h2 : ahead r.rcvNxt q.seq < 2 ^ 31 := by unfold Rcv.off at hq; omega
  rw [toInt_sub_of_ahead (w := 31) h1 h2, he]
  rfl

theorem off_cutHead {r : Rcv} {p : Packet} {n : Nat} (h : r.off p + n < 2 ^ 32) :
    r.off (tcpPacketCutHead p n) = r.off p + n := ahead_add h

@[simp] theorem off_cutTail (r : Rcv) (p : Packet) (n : Nat) :
    r.off (tcpPacketCutTail p n) = r.off p := rfl

theorem off_advance {r r' : Rcv} {n : Nat} {p : Packet}
    (hr : r'.rcvNxt = r.rcvNxt + BitVec.ofNat 32 n) (h : n ≤ r.off p) :
    r.off p = r'.off p + n := by
  have := @ahead_advance _ r.rcvNxt p.seq n h
  unfold Rcv.off at *
  rw [hr, this]
  omega

theorem RcvInv.remove (h : RcvInv C share k x) (pre post : List Packet) (p : Packet)
    (hq : x.rcv.ooo = pre ++ p :: post) :
    RcvInv C share k (tsockRemoveOooPkt x p (pre ++ post)) := by
  have hsub : (pre ++ post).Sublist x.rcv.ooo := by
    rw [hq]
    exact (List.Sublist.refl pre).append (List.sublist_cons_self p post)
  have hcount := h.count
  have hmbufs := h.mbufs
  rw [hq] at hcount hmbufs
  simp only [List.length_append, List.length_cons, segSum_append, segSum_cons] at hcount hmbufs
  constructor
  · exact h.spans.sublist hsub
  · exact h.wnd
  · exact h.size
  · simp only [tsockRemoveOooPkt, List.length_append, hcount]
    bv_omega
  · simp only [tsockRemoveOooPkt, segSum_append, hmbufs]
    bv_omega
  · intro i hi
    simp only [tsockRemoveOooPkt] at hi
    split at hi
    · cases hi
    · rename_i hne
      obtain ⟨q, hmem, hid⟩ := h.last i hi
      rw [hq] at hmem
      have hqp : q ≠ p := by
        rintro rfl
        exact hne (by rw [hi, hid])
      refine ⟨q, ?_, hid⟩
      simpa [tsockRemoveOooPkt, hqp] using hmem
  · exact fun q hmem => h.oooAligned q (hsub.mem hmem)
  · exact h.rxqAligned
  · exact fun q hmem => h.content q (hsub.mem hmem)

theorem RcvInv.free (h : RcvInv C share k x) (p : Packet) : RcvInv C share k (x.free p) :=
  ⟨h.spans, h.wnd, h.size, h.count, h.mbufs, h.last, h.oooAligned, h.rxqAligned, h.content⟩

theorem RcvInv.insert (h : RcvInv C share k x) {pre post : List Packet} {p : Packet}
    {b : List SackBlock} (hq : x.rcv.ooo = pre ++ post)
    (hpre : Spans x.rcv.off Packet.len 0 pre (x.rcv.off p))
    (hpost : Spans x.rcv.off Packet.len (x.rcv.off p + p.len) post x.rcv.rcvWnd)
    (hlen : p.len ≠ 0) (hal : p.Aligned) (hc : C.holds (k + x.rcv.off p) p.bytes) :
    RcvInv C share k
      { rcv := { x.rcv with ooo := pre ++ p :: post, sackBlocks := b,
                            nrOooPkt := x.rcv.nrOooPkt + 1, lastOooPkt := some p.id }
        rx := { x.rx with nrOooMbuf := x.rx.nrOooMbuf + BitVec.ofNat 32 p.nbSegs } } := by
  have hcount := h.count
  have hmbufs := h.mbufs
  rw [hq] at hcount hmbufs
  have hmem : ∀ q ∈ pre ++ p :: post, q = p ∨ q ∈ x.rcv.ooo := by
    intro q
    rw [hq]
    simp only [List.mem_append, List.mem_cons]
    tauto
  constructor
  · exact hpre.append ⟨le_rfl, Nat.pos_of_ne_zero hlen, hpost⟩
  · exact h.wnd
  · exact h.size
  · simp only [List.length_append, List.length_cons, hcount]
    bv_omega
  · simp only [segSum_append, segSum_cons, hmbufs]
    bv_omega
  · rintro i ⟨⟩
    exact ⟨p, by simp, rfl⟩
  · intro q hqm
    rcases hmem q hqm with rfl | hq'
    · exact hal
    · exact h.oooAligned q hq'
  · exact h.rxqAligned
  · intro q hqm
    rcases hmem q hqm with rfl | hq'
    · exact hc
    · exact h.content q hq'

/-- A packet that continues `rcv_nxt` moves to the rxq: what is left of the
out-of-order queue comes closer by its length. -/
theorem RcvInv.accept (h : RcvInv C share k x) {p : Packet} (hw : p.len ≤ x.rcv.rcvWnd)
    (hal : p.Aligned) (hgap : ∀ q ∈ x.rcv.ooo, p.len ≤ x.rcv.off q) :
    RcvInv C share (k + p.len)
      { x with rcv := { x.rcv with
          rxq := x.rcv.rxq ++ [p]
          rcvNxt := x.rcv.rcvNxt + BitVec.ofNat 32 p.len
          rcvWnd := x.rcv.rcvWnd - p.len } } := by
  have hshift : ∀ q ∈ x.rcv.ooo, x.rcv.off q =
      Rcv.off { x.rcv with
          rxq := x.rcv.rxq ++ [p]
          rcvNxt := x.rcv.rcvNxt + BitVec.ofNat 32 p.len
          rcvWnd := x.rcv.rcvWnd - p.len } q + p.len :=
    fun q hq => off_advance rfl (hgap q hq)
  constructor
  · refine Spans.shift (d := p.len) ?_ hshift
    simp only [Nat.zero_add, Nat.sub_add_cancel hw]
    exact h.spans.raise hgap hw
  · have := h.wnd
    simp only [rxqLen_append, rxqLen_cons, rxqLen_nil]
    omega
  · exact h.size
  · exact h.count
  · exact h.mbufs
  · exact h.last
  · exact h.oooAligned
  · intro q hq
    rcases List.mem_append.mp hq with hq | hq
    · exact h.rxqAligned q hq
    · rw [List.mem_singleton.mp hq]
      exact hal
  · intro q hq
    have := h.content q hq
    rw [hshift q hq] at this
    rwa [Nat.add_assoc, Nat.add_comm p.len]

structure SameEdge (r r' : Rcv) : Prop where
  nxt : r'.rcvNxt = r.rcvNxt
  wnd : r'.rcvWnd = r.rcvWnd
  rxq : r'.rxq = r.rxq
  size : r'.rxqSize = r.rxqSize
  isn : r'.rcvIsn = r.rcvIsn

theorem SameEdge.refl (r : Rcv) : SameEdge r r := ⟨rfl, rfl, rfl, rfl, rfl⟩

theorem SameEdge.trans {r r' r'' : Rcv} (h : SameEdge r r') (h' : SameEdge r' r'') :
    SameEdge r r'' :=
  ⟨h'.nxt.trans h.nxt, h'.wnd.trans h.wnd, h'.rxq.trans h.rxq, h'.size.trans h.size,
    h'.isn.trans h.isn⟩

theorem SameEdge.off {r r' : Rcv} (h : SameEdge r r') : r'.off = r.off := by
  funext p
  simp only [Rcv.off, h.nxt]

structure Front (p p' : Packet) : Prop where
  id : p'.id = p.id
  seq : p'.seq = p.seq
  flags : p'.flags = p.flags
  len : p'.len ≤ p.len
  bytes : ∃ n, p'.bytes = p.bytes.take n
  aligned : p.Aligned → p'.Aligned

theorem Front.refl (p : Packet) : Front p p :=
  ⟨rfl, rfl, rfl, le_rfl, ⟨p.bytes.length, by simp⟩, fun h => h⟩

theorem Front.trans {p p' p'' : Packet} (h : Front p p') (h' : Front p' p'') : Front p p'' where
  id := h'.id.trans h.id
  seq := h'.seq.trans h.seq
  flags := h'.flags.trans h.flags
  len := h'.len.trans h.len
  bytes := by
    obtain ⟨n, hn⟩ := h.bytes
    obtain ⟨m, hm⟩ := h'.bytes
    exact ⟨min m n, by rw [hm, hn, List.take_take]⟩
  aligned := fun ha => h'.aligned (h.aligned ha)

theorem Front.cutTail (p : Packet) (n : Nat) : Front p (tcpPacketCutTail p n) :=
  ⟨rfl, rfl, rfl, Nat.sub_le _ _, ⟨_, cutTail_bytes p n⟩, fun h => h.cutTail n⟩

theorem Front.holds {p p' : Packet} (h : Front p p') {m : Nat} (hc : C.holds m p.bytes) :
    C.holds m p'.bytes := by
  obtain ⟨n, hn⟩ := h.bytes
  rw [hn]
  exact C.take n hc

/-- `tcp_rcv_data_ooo` behind the new packet: covered packets go, and the first
one that stays begins behind what is left of the new packet. -/
theorem oooTrimNext_spec {pre post : List Packet} {p : Packet} (h : RcvInv C share k x)
    (hq : x.rcv.ooo = pre ++ post) (hoff : x.rcv.off p ≤ x.rcv.rcvWnd)
    (hpost : Spans x.rcv.off Packet.len (x.rcv.off p) post x.rcv.rcvWnd) :
    ∃ post' x' p', oooTrimNext pre post x p = (post', x', p') ∧
      RcvInv C share k x' ∧ SameEdge x.rcv x'.rcv ∧ x'.rcv.ooo = pre ++ post' ∧
      post'.length ≤ post.length ∧ Front p p' ∧
      Spans x.rcv.off Packet.len (x.rcv.off p) post' x.rcv.rcvWnd ∧
      ∀ q ∈ post', x.rcv.off p + p'.len ≤ x.rcv.off q := by
  induction post generalizing x with
  | nil =>
    exact ⟨[], x, p, rfl, h, SameEdge.refl _, hq, le_rfl, Front.refl p, hpost, by simp⟩
  | cons next rest ih =>
    have hw := h.wnd_lt
    have hn := h.spans.mem (a := next) (by rw [hq]; simp)
    have hcut := off_endSeq_sub (r := x.rcv) (p := p) (q := next) (by omega) (by omega)
    have hle := hpost.1
    have hnext : ∀ q ∈ next :: rest, x.rcv.off next ≤ x.rcv.off q := fun q => hpost.head_le
    simp only [oooTrimNext]
    split
    · rename_i hgap
      refine ⟨_, _, _, rfl, h, SameEdge.refl _, hq, le_rfl, Front.refl p, hpost, ?_⟩
      intro q hqm
      have := hnext q hqm
      omega
    · split
      · rename_i hgap hlt
        refine ⟨_, _, _, rfl, h, SameEdge.refl _, hq, le_rfl, Front.cutTail p _, hpost, ?_⟩
        intro q hqm
        have := hnext q hqm
        rw [cutTail_len]
        omega
      · have hrest : Spans x.rcv.off Packet.len (x.rcv.off p) rest x.rcv.rcvWnd :=
          hpost.2.2.mono_lo (by omega)
        obtain ⟨post', x', p', he, h1, h2, h3, h4, h5, h6, h7⟩ :=
          ih ((h.remove pre rest next hq).free next) rfl hoff hrest
        exact ⟨post', x', p', he, h1, ⟨h2.nxt, h2.wnd, h2.rxq, h2.size, h2.isn⟩, h3,
          Nat.le_succ_of_le h4,
          h5, h6, h7⟩

/-- `ooo_queue_insert`, when what is in front ends before the packet and what is
behind begins after it. On success the packet is in the queue. -/
theorem oooQueueInsert_spec (cfg : TcpCfg) (pre post : List Packet) (p : Packet)
    (h : RcvInv C share k x) (hq : x.rcv.ooo = pre ++ post) (hoff : x.rcv.off p ≤ x.rcv.rcvWnd)
    (hpre : Spans x.rcv.off Packet.len 0 pre (x.rcv.off p))
    (hpost : Spans x.rcv.off Packet.len (x.rcv.off p) post x.rcv.rcvWnd)
    (hgap : ∀ q ∈ post, x.rcv.off p + p.len ≤ x.rcv.off q) (hal : p.Aligned)
    (hc : C.holds (k + x.rcv.off p) p.bytes) :
    ∃ e x' p', oooQueueInsert cfg x pre post p = (e, x', p') ∧
      RcvInv C share k x' ∧ SameEdge x.rcv x'.rcv ∧ Front p p' ∧
      (e = none → p'.len ≠ 0 ∧ x'.rcv.ooo = pre ++ p' :: post) ∧ (e ≠ none → x' = x) := by
  have hw := h.wnd_lt
  have hlt := p.len_lt
  have hcut : (p.endSeq - (x.rcv.rcvNxt + BitVec.ofNat 32 x.rcv.rcvWnd)).toInt =
      (x.rcv.off p + p.len : Int) - x.rcv.rcvWnd := by
    have h1 := off_endSeq (r := x.rcv) (p := p) (by omega)
    have h2 := ahead_add_ofNat x.rcv.rcvNxt (n := x.rcv.rcvWnd) (by omega)
    have h3 := @toInt_sub_of_ahead 31 x.rcv.rcvNxt p.endSeq
      (x.rcv.rcvNxt + BitVec.ofNat 32 x.rcv.rcvWnd) (by omega) (by omega)
    rw [h3, h1, h2]
    rfl
  obtain ⟨p', hp', hf, hlen⟩ : ∃ p', p' = (if 0 < (p.endSeq -
        (x.rcv.rcvNxt + BitVec.ofNat 32 x.rcv.rcvWnd)).toInt then tcpPacketCutTail p (p.endSeq -
        (x.rcv.rcvNxt + BitVec.ofNat 32 x.rcv.rcvWnd)).toInt.toNat else p) ∧ Front p p' ∧
        x.rcv.off p + p'.len ≤ x.rcv.rcvWnd := by
    refine ⟨_, rfl, ?_⟩
    split
    · refine ⟨Front.cutTail p _, ?_⟩
      rw [cutTail_len]
      omega
    · exact ⟨Front.refl p, by omega⟩
  have hoff' : x.rcv.off p' = x.rcv.off p := by simp only [Rcv.off, hf.seq]
  have hf' := hf.len
  simp only [oooQueueInsert]
  rw [← hp']
  split
  · exact ⟨_, _, _, rfl, h, SameEdge.refl _, hf, by simp, by simp⟩
  · rename_i hne
    split
    · exact ⟨_, _, _, rfl, h, SameEdge.refl _, hf, by simp, by simp⟩
    · refine ⟨_, _, _, rfl, ?_, ⟨rfl, rfl, rfl, rfl, rfl⟩, hf, fun _ => ⟨hne, rfl⟩, by simp⟩
      refine h.insert hq (by rwa [hoff']) ?_ hne (hf.aligned hal) ?_
      · rw [hoff']
        exact hpost.raise (fun q hqm => by have := hgap q hqm; omega) hlen
      · rw [hoff']
        exact hf.holds hc

/-- What `tcp_rcv_data_ooo` does about the packet in front of the new one: the
new packet is dropped, replaces it, or begins behind it. -/
theorem oooFitPrev_spec {pre post : List Packet} {p : Packet} (h : RcvInv C share k x)
    (hq : x.rcv.ooo = pre ++ post) (hoff : x.rcv.off p ≤ x.rcv.rcvWnd)
    (hpre : ∀ q ∈ pre, x.rcv.off q ≤ x.rcv.off p) (hpost : ∀ q ∈ post, x.rcv.off p < x.rcv.off q) :
    oooFitPrev pre.getLast? p = .drop ∨
    (∃ prev, oooFitPrev pre.getLast? p = .replace prev ∧ pre = pre.dropLast ++ [prev] ∧
      Spans x.rcv.off Packet.len 0 pre.dropLast (x.rcv.off p)) ∨
    ∃ p' n, oooFitPrev pre.getLast? p = .keep p' ∧
      Spans x.rcv.off Packet.len 0 pre (x.rcv.off p') ∧ x.rcv.off p' ≤ x.rcv.rcvWnd ∧
      (∀ q ∈ post, x.rcv.off p' ≤ x.rcv.off q) ∧ n ≤ p.len ∧
      (p' = p ∧ n = 0 ∨ p' = tcpPacketCutHead p n) ∧ x.rcv.off p' = x.rcv.off p + n := by
  have hw := h.wnd_lt
  rcases List.eq_nil_or_concat' pre with rfl | ⟨init, prev, rfl⟩
  · exact .inr (.inr ⟨p, 0, rfl, by simp, hoff, fun q hqm => (hpost q hqm).le, Nat.zero_le _,
      .inl ⟨rfl, rfl⟩, rfl⟩)
  have hsp := h.spans
  rw [hq] at hsp
  obtain ⟨m, hfront, hback⟩ := spans_append.mp hsp
  have hprev := hpre prev (by simp)
  have hpb := hfront.mem (a := prev) (by simp)
  have hcut := off_endSeq_sub (r := x.rcv) (p := prev) (q := p) (by omega) (by omega)
  have hmw := hback.le
  have hlp := p.len_lt
  have hbehind : ∀ q ∈ post, x.rcv.off prev + prev.len ≤ x.rcv.off q := fun q hqm =>
    le_trans hpb.2.2 (hback.mem hqm).1
  simp only [List.getLast?_append, List.getLast?_singleton, Option.some_or, oooFitPrev, hcut]
  split
  · rename_i hrep
    refine .inr (.inl ⟨prev, rfl, by simp, ?_⟩)
    have : x.rcv.off p = x.rcv.off prev := by simp only [Rcv.off, hrep.1]
    rw [List.dropLast_concat, this]
    exact hfront.front
  · split
    · rename_i hpos
      split
      · exact .inl rfl
      · rename_i hlt
        obtain ⟨n, hn⟩ : ∃ n : Nat, (x.rcv.off prev + prev.len : Int) - x.rcv.off p = n :=
          ⟨_, (Int.toNat_of_nonneg hpos.le).symm⟩
        have hoff' : x.rcv.off (tcpPacketCutHead p n) = x.rcv.off p + n := off_cutHead (by omega)
        refine .inr (.inr ⟨tcpPacketCutHead p n, n, by rw [hn]; rfl, ?_⟩)
        rw [hoff']
        refine ⟨?_, by omega, ?_, by omega, .inr rfl, rfl⟩
        · exact hfront.last.mono_hi (by omega)
        · intro q hqm
          have := hbehind q hqm
          omega
    · exact .inr (.inr ⟨p, 0, rfl, hfront.last.mono_hi (by omega), hoff,
        fun q hqm => (hpost q hqm).le, Nat.zero_le _, .inl ⟨rfl, rfl⟩, rfl⟩)

theorem oooPlace_spec (cfg : TcpCfg) {pre post : List Packet} {p : Packet}
    (h : RcvInv C share k x) (hq : x.rcv.ooo = pre ++ post) (hoff : x.rcv.off p ≤ x.rcv.rcvWnd)
    (hpre : Spans x.rcv.off Packet.len 0 pre (x.rcv.off p))
    (hpost : ∀ q ∈ post, x.rcv.off p ≤ x.rcv.off q) (hal : p.Aligned)
    (hc : C.holds (k + x.rcv.off p) p.bytes) :
    ∃ e x' p', oooPlace cfg x pre post p = (e, x', p') ∧ RcvInv C share k x' ∧
      SameEdge x.rcv x'.rcv ∧ Front p p' ∧ x'.rcv.ooo.length ≤ x.rcv.ooo.length + 1 := by
  obtain ⟨m, -, hback⟩ := spans_append.mp (hq ▸ h.spans)
  obtain ⟨post', x1, p1, ht, h1, hs, hq1, hlen, hf, hsp, hgap⟩ :=
    oooTrimNext_spec h hq hoff (hback.raise hpost hoff)
  have ho : x1.rcv.off p1 = x.rcv.off p := by rw [hs.off, Rcv.off, Rcv.off, hf.seq]
  obtain ⟨e, x', p', he, h2, hs2, hf2, hin, hout⟩ :=
    oooQueueInsert_spec cfg pre post' p1 h1 hq1 (by rw [ho, hs.wnd]; exact hoff)
      (by rw [ho, hs.off]; exact hpre) (by rw [ho, hs.off, hs.wnd]; exact hsp)
      (by rw [ho, hs.off]; exact hgap) (hf.aligned hal) (by rw [ho]; exact hf.holds hc)
  refine ⟨e, x', p', ?_, h2, hs.trans hs2, hf.trans hf2, ?_⟩
  · rw [oooPlace, ht, he]
  · rw [hq, List.length_append]
    cases e with
    | none =>
      rw [(hin rfl).2, List.length_append, List.length_cons]
      omega
    | some e =>
      rw [hout (by simp), hq1, List.length_append]
      omega

/-- What is known of a packet that begins at `b`, position `k` of the stream, or
not far behind it. -/
structure Near (C : SegPred Byte) (k : Nat) (b : U32) (p : Packet) : Prop where
  aligned : p.Aligned
  close : ahead b p.seq < 2 ^ 27
  content : C.holds (k + ahead b p.seq) p.bytes

theorem Near.front {b : U32} {p p' : Packet} (h : Near C k b p) (hf : Front p p') :
    Near C k b p' :=
  ⟨hf.aligned h.aligned, by rw [hf.seq]; exact h.close, by rw [hf.seq]; exact hf.holds h.content⟩

theorem tcpRcvDataOoo_spec (cfg : TcpCfg) (tsUs : Nat) {p : Packet} (h : RcvInv C share k x)
    (hoff : x.rcv.off p ≤ x.rcv.rcvWnd) (hal : p.Aligned)
    (hc : C.holds (k + x.rcv.off p) p.bytes) :
    ∃ e x' p', tcpRcvDataOoo cfg tsUs x p = (e, x', p') ∧ RcvInv C share k x' ∧
      SameEdge x.rcv x'.rcv ∧ Near C k x.rcv.rcvNxt p' ∧
      x'.rcv.ooo.length ≤ x.rcv.ooo.length + 1 := by
  obtain ⟨x1, hx1, h1, hs, hooo, hoff1⟩ : ∃ x1, x1 = (if x.rcv.nrOooPkt = 0
      then { x with rcv := { x.rcv with oooStartTs := BitVec.ofNat 32 tsUs } } else x) ∧
      RcvInv C share k x1 ∧ SameEdge x.rcv x1.rcv ∧ x1.rcv.ooo = x.rcv.ooo ∧
      x1.rcv.off p = x.rcv.off p := by
    refine ⟨_, rfl, ?_⟩
    split
    · exact ⟨⟨h.spans, h.wnd, h.size, h.count, h.mbufs, h.last, h.oooAligned, h.rxqAligned,
        h.content⟩, ⟨rfl, rfl, rfl, rfl, rfl⟩, rfl, rfl⟩
    · exact ⟨h, SameEdge.refl _, rfl, rfl⟩
  simp only [tcpRcvDataOoo]
  rw [← hx1, ← hooo, ← hs.nxt]
  rw [← hoff1] at hoff hc
  rw [← hs.wnd] at hoff
  clear hx1 hooo hoff1 h
  have hw := h1.wnd_lt
  have hnear : Near C k x1.rcv.rcvNxt p := ⟨hal, by unfold Rcv.off at hoff; omega, hc⟩
  split
  · -- the packet continues the last one of the queue
    rename_i hpred
    unfold oooPredict at hpred
    split at hpred
    case h_2 => cases hpred
    rename_i i l _ hl
    obtain ⟨-, hseq⟩ := of_decide_eq_true hpred
    obtain ⟨init, hinit⟩ := List.getLast?_eq_some_iff.mp hl
    have hsp := h1.spans
    rw [hinit] at hsp
    have hlb := hsp.mem (a := l) (by simp)
    have hpo : x1.rcv.off p = x1.rcv.off l + l.len := by
      rw [← off_endSeq (r := x1.rcv) (p := l) (by omega), hseq]
      rfl
    have hfront : Spans x1.rcv.off Packet.len 0 x1.rcv.ooo (x1.rcv.off p) := by
      rw [hpo, hinit]
      exact hsp.last
    obtain ⟨e, x', p', he, h2, h3, h4, h5, h6⟩ :=
      oooQueueInsert_spec cfg x1.rcv.ooo [] p h1 (by simp) hoff hfront (by simpa using hoff)
        (by simp) hal hc
    refine ⟨e, x', p', he, h2, hs.trans h3, hnear.front h4, ?_⟩
    cases e with
    | none => rw [(h5 rfl).2]; simp
    | some e => rw [h6 (by simp)]; omega
  · obtain ⟨pre, hpre⟩ : ∃ pre, pre = x1.rcv.ooo.takeWhile fun q => ¬ seqGt q.seq p.seq :=
      ⟨_, rfl⟩
    obtain ⟨post, hpost⟩ : ∃ post, post = x1.rcv.ooo.dropWhile fun q => ¬ seqGt q.seq p.seq :=
      ⟨_, rfl⟩
    have hq : x1.rcv.ooo = pre ++ post := by
      rw [hpre, hpost]
      exact (List.takeWhile_append_dropWhile ..).symm
    obtain ⟨hle, hgt⟩ := h1.spans.split (x := x1.rcv.off p)
      (p := fun q => decide ¬ seqGt q.seq p.seq) fun q hqm => by
        have hb := h1.spans.mem hqm
        unfold Rcv.off at *
        rw [decide_eq_true_iff, @seqGt_ahead x1.rcv.rcvNxt _ _ (by omega) (by omega)]
        omega
    rw [← hpre, ← hpost]
    rw [← hpre] at hle
    rw [← hpost] at hgt
    obtain ⟨m, hm, hback⟩ := spans_append.mp (hq ▸ h1.spans)
    rcases oooFitPrev_spec h1 hq hoff hle hgt with hf | ⟨prev, hf, hlast, hsp⟩ |
      ⟨p', n, hf, hsp, hoff', hbehind, hn, hp', hpn⟩
    · rw [hf]
      exact ⟨_, _, _, rfl, h1, hs, hnear, Nat.le_succ _⟩
    · rw [hf]
      have hq' : x1.rcv.ooo = pre.dropLast ++ prev :: post := by
        rw [hq]
        nth_rewrite 1 [hlast]
        simp
      obtain ⟨e, x', p', he, h2, hs2, hfr, hle'⟩ := oooPlace_spec cfg
        ((h1.remove _ _ _ hq').free prev) rfl hoff hsp (fun q hqm => (hgt q hqm).le) hal hc
      refine ⟨e, x', p', he, h2, hs.trans ⟨hs2.nxt, hs2.wnd, hs2.rxq, hs2.size, hs2.isn⟩,
        hnear.front hfr, le_trans hle' ?_⟩
      change (pre.dropLast ++ post).length + 1 ≤ _
      rw [hq']
      simp
    · rw [hf]
      have hkeep : Near C k x1.rcv.rcvNxt p' := by
        have hpo : ahead x1.rcv.rcvNxt p'.seq = x1.rcv.off p + n := hpn
        rcases hp' with ⟨rfl, rfl⟩ | rfl
        · exact hnear
        · refine ⟨hal.cutHead hn, ?_, ?_⟩
          · have := p.len_lt
            omega
          · rw [hpo, cutHead_bytes, ← Nat.add_assoc]
            exact C.drop n hc
      obtain ⟨e, x', p'', he, h2, hs2, hfr, hle'⟩ := oooPlace_spec cfg h1 hq hoff' hsp hbehind
        hkeep.aligned hkeep.content
      exact ⟨e, x', p'', he, h2, hs.trans hs2, hkeep.front hfr, hle'⟩

end LibTpa
