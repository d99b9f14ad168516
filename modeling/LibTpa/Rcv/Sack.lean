/- LibTpa/Rcv/Sack
   digest: The SACK blocks describe bytes that wait in the out-of-order queue. -/

import LibTpa.Rcv.Reject
import LibTpa.Rcv.Run
import LibTpa.Rcv.SackBlocks

/-!
Positions are distances from `rcv_nxt`. `SackedOk` holds inside `tcp_rcv_data`,
between the insertion of a packet and the end of the drain; `SackInv` holds
between calls.
-/

set_option autoImplicit false

namespace LibTpa

open Lib.SerialNumber Lib.SpanList Lib.Stream Lib.Run

/-- Each block is a part of what the queue holds, no two touch, and the first one is
around the packet that was queued last. -/
structure SackedOk (r : Rcv) : Prop where
  on : r.sackOk = true
  few : r.sackBlocks.length ≤ 3
  fits : ∀ b ∈ r.sackBlocks, b.Fits r.rcvNxt
  apart : r.sackBlocks.Pairwise (SackBlock.Apart r.rcvNxt)
  held : ∀ b ∈ r.sackBlocks, ∀ n, b.At r.rcvNxt n →
    ∃ q ∈ r.ooo, r.off q ≤ n ∧ n < r.off q + q.len
  recent : ∀ q ∈ r.ooo, r.lastOooPkt = some q.id → ∃ b, r.sackBlocks.head? = some b ∧
    b.pos r.rcvNxt ≤ r.off q ∧ r.off q + q.len ≤ b.endPos r.rcvNxt

structure SackInv (r : Rcv) : Prop extends SackedOk r where
  gap : ∀ q ∈ r.ooo, 0 < r.off q

variable {r r' : Rcv} {p : Packet} {n : Nat}

theorem SackedOk.congr (h : SackedOk r) (hok : r'.sackOk = r.sackOk) (hn : r'.rcvNxt = r.rcvNxt)
    (ho : r'.ooo = r.ooo) (hb : r'.sackBlocks = r.sackBlocks) (hl : r'.lastOooPkt = r.lastOooPkt) :
    SackedOk r' := by
  have hoff : r'.off = r.off := by
    funext q
    rw [Rcv.off, Rcv.off, hn]
  constructor
  · rw [hok]
    exact h.on
  · rw [hb]
    exact h.few
  · rw [hb, hn]
    exact h.fits
  · rw [hb, hn]
    exact h.apart
  · rw [hb, hn, ho, hoff]
    exact h.held
  · rw [hb, hn, ho, hl, hoff]
    exact h.recent

/-! ### A packet is stored -/

private theorem covers_off {q : Packet} (hp : r.off p < 2 ^ 31) (h : p.Covers q) :
    r.off q = r.off p + ahead p.seq q.seq := by
  have hl := p.len_lt
  unfold Packet.Covers at h
  exact ahead_trans (by unfold Rcv.off at hp; omega)

theorem SackedOk.stored (h : SackedOk r) (hok : r'.sackOk = r.sackOk) (hn : r'.rcvNxt = r.rcvNxt)
    (hs : Stored r.ooo r r' p) (hpos : 0 < p.len) (hoff : r.off p < 2 ^ 30)
    (hid : ∀ q ∈ r.ooo, q.id ≠ p.id) : SackedOk r' := by
  have hl := p.len_lt
  have hoff' : r'.off = r.off := by
    funext q
    rw [Rcv.off, Rcv.off, hn]
  have hnpos : (SackBlock.mk p.seq (p.seq + BitVec.ofNat 32 p.len)).pos r.rcvNxt = r.off p := rfl
  have hnend : (SackBlock.mk p.seq (p.seq + BitVec.ofNat 32 p.len)).endPos r.rcvNxt =
      r.off p + p.len := by
    unfold SackBlock.endPos
    rw [ahead_add_ofNat _ (by omega)]
    rfl
  obtain ⟨m, rest, he, hu⟩ := sackUpdate_spec h.on
    ⟨by rw [hnpos, hnend]; omega, by rw [hnend]; omega⟩ h.fits h.apart h.few
  have hat : ∀ k, r.off p ≤ k → k < r.off p + p.len →
      (SackBlock.mk p.seq (p.seq + BitVec.ofNat 32 p.len)).At r.rcvNxt k := by
    intro k h1 h2
    rw [SackBlock.At, hnpos, hnend]
    exact ⟨h1, h2⟩
  have hold : ∀ k, (∃ q ∈ r.ooo, r.off q ≤ k ∧ k < r.off q + q.len) →
      ∃ q ∈ r'.ooo, r.off q ≤ k ∧ k < r.off q + q.len := by
    rintro k ⟨q, hq, h1, h2⟩
    rcases hs.keeps q hq with hm | hc
    · exact ⟨q, hm, h1, h2⟩
    · have ho := covers_off (r := r) (by omega) hc
      unfold Packet.Covers at hc
      exact ⟨p, hs.mem, by omega, by omega⟩
  have hb : r'.sackBlocks = m :: rest := hs.blocks.trans he
  constructor
  · rw [hok]
    exact h.on
  · rw [hb, List.length_cons]
    exact Nat.succ_le_succ hu.few
  · rw [hb, hn]
    intro b hm
    rcases List.mem_cons.mp hm with rfl | hm
    · exact hu.fits
    · exact h.fits b (hu.old b hm)
  · rw [hb, hn]
    exact hu.apart
  · rw [hb, hn, hoff']
    intro b hm k hk
    rcases List.mem_cons.mp hm with rfl | hm
    · rcases hu.cover k hk with hnew | ⟨c, hc, hck⟩
      · rw [SackBlock.At, hnpos, hnend] at hnew
        exact ⟨p, hs.mem, hnew⟩
      · exact hold k (h.held c hc k hck)
    · exact hold k (h.held b (hu.old b hm) k hk)
  · rw [hb, hn, hoff', hs.last]
    intro q hm hq
    obtain rfl : q = p := (hs.only q hm).resolve_right fun ho => hid q ho (Option.some.inj hq).symm
    have h1 := hu.wider (r.off q) (hat _ le_rfl (by omega))
    have h2 := hu.wider (r.off q + q.len - 1) (hat _ (by omega) (by omega))
    unfold SackBlock.At at h1 h2
    exact ⟨m, rfl, by omega, by omega⟩

/-! ### `rcv_nxt` moves -/

/-- `rcv_nxt` has moved over `n` sequence numbers, and with them over the queued packets
in them; the next byte is missing. -/
structure Advanced (n : Nat) (r r' : Rcv) : Prop where
  on : r'.sackOk = r.sackOk
  nxt : r'.rcvNxt = r.rcvNxt + BitVec.ofNat 32 n
  left : ∀ q ∈ r'.ooo, q ∈ r.ooo ∧ n < r.off q
  gone : ∀ q ∈ r.ooo, q ∈ r'.ooo ∨ r.off q + q.len ≤ n
  last : ∀ i, r'.lastOooPkt = some i → r.lastOooPkt = some i

private theorem pos_advance {b : SackBlock} (hn : r'.rcvNxt = r.rcvNxt + BitVec.ofNat 32 n)
    (h : n < b.pos r.rcvNxt) :
    b.pos r.rcvNxt = b.pos r'.rcvNxt + n ∧ b.endPos r.rcvNxt = b.endPos r'.rcvNxt + n := by
  have := @ahead_advance _ r.rcvNxt b.start n (by unfold SackBlock.pos at h; omega)
  unfold SackBlock.pos SackBlock.endPos at *
  rw [hn]
  omega

/-- The blocks above the new `rcv_nxt` still describe the queue, and the first of them is
still around the packet that was queued last: a block that reaches below would hold the
missing byte. -/
theorem SackedOk.advance (h : SackedOk r) (ha : Advanced n r r')
    (hb : r'.sackBlocks = r.sackBlocks.filter fun b => n < b.pos r.rcvNxt) : SackInv r' := by
  have hoff : ∀ q ∈ r'.ooo, r.off q = r'.off q + n := fun q hq =>
    off_advance ha.nxt (ha.left q hq).2.le
  have hmem : ∀ b ∈ r'.sackBlocks, b ∈ r.sackBlocks ∧ n < b.pos r.rcvNxt := by
    intro b hm
    rw [hb, List.mem_filter] at hm
    exact ⟨hm.1, of_decide_eq_true hm.2⟩
  have hsub : r'.sackBlocks.Sublist r.sackBlocks := hb ▸ List.filter_sublist
  refine ⟨⟨ha.on.trans h.on, hsub.length_le.trans h.few, ?_, ?_, ?_, ?_⟩, ?_⟩
  · intro b hm
    obtain ⟨hm', hpos⟩ := hmem b hm
    obtain ⟨h1, h2⟩ := pos_advance ha.nxt hpos
    have h3 := (h.fits b hm').pos
    have h4 := (h.fits b hm').near
    constructor <;> omega
  · refine (h.apart.sublist hsub).imp_of_mem fun {b c} hbm hcm hbc => ?_
    obtain ⟨h1, h2⟩ := pos_advance ha.nxt (hmem b hbm).2
    obtain ⟨h3, h4⟩ := pos_advance ha.nxt (hmem c hcm).2
    unfold SackBlock.Apart at *
    omega
  · intro b hm k hk
    obtain ⟨hm', hpos⟩ := hmem b hm
    obtain ⟨h1, h2⟩ := pos_advance ha.nxt hpos
    unfold SackBlock.At at hk
    obtain ⟨q, hq, h3, h4⟩ := h.held b hm' (k + n) ⟨by omega, by omega⟩
    rcases ha.gone q hq with hq' | hq'
    · have := hoff q hq'
      exact ⟨q, hq', by omega, by omega⟩
    · omega
  · intro q hq hlast
    obtain ⟨b, hhead, h1, h2⟩ := h.recent q (ha.left q hq).1 (ha.last _ hlast)
    have hq' := hoff q hq
    have hgap := (ha.left q hq).2
    have hpos : n < b.pos r.rcvNxt := by
      by_contra hle
      obtain ⟨t, ht, h3, h4⟩ := h.held b (List.mem_of_mem_head? hhead) n ⟨by omega, by omega⟩
      rcases ha.gone t ht with ht' | ht'
      · have := (ha.left t ht').2
        omega
      · omega
    obtain ⟨h3, h4⟩ := pos_advance ha.nxt hpos
    refine ⟨b, ?_, by omega, by omega⟩
    obtain ⟨rest, hrest⟩ : ∃ rest, r.sackBlocks = b :: rest := by
      cases hl : r.sackBlocks with
      | nil =>
        rw [hl] at hhead
        cases hhead
      | cons c rest =>
        rw [hl] at hhead
        cases hhead
        exact ⟨rest, rfl⟩
    rw [hb, hrest, List.filter_cons_of_pos (by simpa using hpos)]
    rfl
  · intro q hq
    have h1 := hoff q hq
    have h2 := (ha.left q hq).2
    omega

theorem SackInv.above (h : SackInv r) {b : SackBlock} (hb : b ∈ r.sackBlocks) :
    ∃ q ∈ r.ooo, r.off q ≤ b.pos r.rcvNxt := by
  obtain ⟨q, hq, h1, -⟩ := h.held b hb (b.pos r.rcvNxt) ⟨le_rfl, (h.fits b hb).pos⟩
  exact ⟨q, hq, h1⟩

theorem SackInv.within (h : SackInv r) (hok : r'.sackOk = r.sackOk)
    (hn : r'.rcvNxt = r.rcvNxt + BitVec.ofNat 32 n) (ho : r'.ooo = r.ooo)
    (hb : r'.sackBlocks = r.sackBlocks) (hl : r'.lastOooPkt = r.lastOooPkt)
    (hgap : ∀ q ∈ r.ooo, n < r.off q) : SackInv r' := by
  refine h.toSackedOk.advance ⟨hok, hn, ?_, ?_, ?_⟩ ?_
  · rw [ho]
    exact fun q hq => ⟨hq, hgap q hq⟩
  · rw [ho]
    exact fun q hq => .inl hq
  · rw [hl]
    exact fun i hi => hi
  · rw [hb]
    refine (List.filter_eq_self.mpr fun b hm => ?_).symm
    obtain ⟨q, hq, hle⟩ := h.above hm
    have := hgap q hq
    exact decide_eq_true (by omega)

/-! ### The drain -/

/-- The loop of `ooo_queue_drain` while the rxq has room for the whole queue. The
induction is on the queue; each packet that moves takes one slot. -/
theorem oooDrainLoop_room (q : List Packet) {x : RxSt} (cur : Packet) (hq : x.rcv.ooo = q)
    (hsp : Spans x.rcv.off Packet.len 0 q x.rcv.rcvWnd)
    (hroom : ∀ f ∈ q.head?, f.seq = x.rcv.rcvNxt → x.rcv.rxq.length + q.length ≤ x.rcv.rxqSize) :
    ∃ x' cur' n, oooDrainLoop q x cur = (false, x', cur') ∧ Advanced n x.rcv x'.rcv ∧
      n ≤ x.rcv.rcvWnd ∧ x'.rcv.sackBlocks = x.rcv.sackBlocks := by
  induction q generalizing x cur with
  | nil =>
    refine ⟨x, cur, 0, rfl, ⟨rfl, by simp, ?_, ?_, fun i hi => hi⟩, Nat.zero_le _, rfl⟩
    · rw [hq]
      simp
    · rw [hq]
      simp
  | cons p rest ih =>
    unfold oooDrainLoop
    by_cases hseq : p.seq ≠ x.rcv.rcvNxt
    · rw [if_pos hseq]
      refine ⟨x, cur, 0, rfl, ⟨rfl, by simp, fun t ht => ⟨ht, ?_⟩, fun t ht => .inl ht,
        fun i hi => hi⟩, Nat.zero_le _, rfl⟩
      have hpos : x.rcv.off p ≠ 0 := fun hz => hseq (ahead_eq_zero.mp hz)
      rw [hq] at ht
      have := hsp.head_le ht
      omega
    rw [if_neg hseq]
    have hseq := not_not.mp hseq
    have hoff : x.rcv.off p = 0 := ahead_eq_zero.mpr hseq
    have hslots := hroom p rfl hseq
    rw [List.length_cons] at hslots
    obtain ⟨-, hlen, hrest⟩ := hsp
    have hpw := hrest.le
    rw [tcpRcvEnqueue_fit (by omega) hlen, if_neg (by omega)]
    obtain ⟨x₁, hx₁⟩ : ∃ x₁, x₁ = tsockRemoveOooPkt { x with rcv := { x.rcv with
        rxq := x.rcv.rxq ++ [p]
        rcvNxt := x.rcv.rcvNxt + BitVec.ofNat 32 p.len
        rcvWnd := x.rcv.rcvWnd - p.len } } p rest := ⟨_, rfl⟩
    have hnxt : x₁.rcv.rcvNxt = x.rcv.rcvNxt + BitVec.ofNat 32 p.len := by rw [hx₁]; rfl
    have hwnd : x₁.rcv.rcvWnd = x.rcv.rcvWnd - p.len := by rw [hx₁]; rfl
    have hooo : x₁.rcv.ooo = rest := by rw [hx₁]; rfl
    have hrxq : x₁.rcv.rxq.length = x.rcv.rxq.length + 1 := by
      rw [hx₁]
      exact List.length_append
    have hsize : x₁.rcv.rxqSize = x.rcv.rxqSize := by rw [hx₁]; rfl
    have hshift : ∀ t ∈ rest, x.rcv.off t = x₁.rcv.off t + p.len := fun t ht =>
      off_advance hnxt (by have := (hrest.mem ht).1; omega)
    have hspans : Spans x₁.rcv.off Packet.len 0 rest x₁.rcv.rcvWnd :=
      hrest.move (fun t ht => by have := hshift t ht; omega) (by omega)
    obtain ⟨x', cur', n, he, ha, hn, hb⟩ := ih (syncPkt cur p) hooo hspans fun _ _ _ => by omega
    refine ⟨x', cur', p.len + n, by rw [hx₁] at he; exact he,
      ⟨?_, ?_, fun t ht => ?_, fun t ht => ?_, fun i hi => ?_⟩,
      by omega, by rw [hb, hx₁]; rfl⟩
    · rw [ha.on, hx₁]
      rfl
    · rw [ha.nxt, hnxt, add_assoc, ← BitVec.ofNat_add]
    · obtain ⟨h1, h2⟩ := ha.left t ht
      rw [hooo] at h1
      have := hshift t h1
      refine ⟨?_, by omega⟩
      rw [hq]
      exact List.mem_cons_of_mem _ h1
    · rw [hq] at ht
      rcases List.mem_cons.mp ht with rfl | ht
      · exact .inr (by omega)
      · refine (ha.gone t (by rwa [hooo])).imp_right fun h2 => ?_
        have := hshift t ht
        omega
    · have hl := ha.last i hi
      rw [hx₁] at hl
      change (if x.rcv.lastOooPkt = some p.id then none else x.rcv.lastOooPkt) = some i at hl
      split at hl
      · cases hl
      · exact hl

variable {C : SegPred Byte} {share : U32} {k : Nat}

theorem SackedOk.drain {x : RxSt} (cur : Packet) (h : SackedOk x.rcv) (hi : RcvInv C share k x)
    (hcur : Near C k x.rcv.rcvNxt cur) (hlen : x.rcv.ooo.length < 65536)
    (hroom : ∀ f ∈ x.rcv.ooo.head?, f.seq = x.rcv.rcvNxt →
      x.rcv.rxq.length + x.rcv.ooo.length ≤ x.rcv.rxqSize) :
    SackInv (oooQueueDrain x cur).1.rcv := by
  have hw := hi.wnd_lt
  obtain ⟨x', cur', n, he, ha, hn, hb⟩ := oooDrainLoop_room _ cur rfl hi.spans hroom
  obtain ⟨f, x₁, cur₁, k', he', hi', -, -, hle⟩ :=
    oooDrainLoop_spec x.rcv.ooo cur hi rfl le_rfl (by simp) (by omega) hcur
  rw [he] at he'
  cases he'
  have hreg : x'.rcv.sackBlocks.filter (fun b => seqGt b.start x'.rcv.rcvNxt) =
      x.rcv.sackBlocks.filter fun b => n < b.pos x.rcv.rcvNxt := by
    rw [hb]
    refine List.filter_congr fun b hm => ?_
    have h1 := (h.fits b hm).pos
    have h2 := (h.fits b hm).near
    rw [decide_eq_decide, ha.nxt, b.start_eq x.rcv.rcvNxt]
    exact seqGt_add (by omega) (by omega)
  unfold oooQueueDrain
  rw [he]
  dsimp only
  split
  · rename_i hz
    have hnil : x'.rcv.ooo = [] := by
      refine List.eq_nil_of_length_eq_zero ?_
      have hc := congrArg BitVec.toNat (hi'.count.symm.trans hz)
      rw [BitVec.toNat_ofNat, Nat.mod_eq_of_lt (by omega)] at hc
      exact hc
    have hmem : ∀ q ∈ (sackRegulate x'.rcv).ooo, False := by
      intro q hq
      change q ∈ x'.rcv.ooo at hq
      rw [hnil] at hq
      cases hq
    exact ⟨⟨ha.on.trans h.on, Nat.zero_le _, by simp, List.Pairwise.nil, by simp,
      fun q hq => (hmem q hq).elim⟩,
      fun q hq => (hmem q hq).elim⟩
  · exact h.advance ⟨ha.on, ha.nxt, ha.left, ha.gone, ha.last⟩ hreg

/-! ### `tcp_rcv_data` -/

/-- A packet begins at `rcv_nxt` and reaches the queue, and the rxq may be too small for
both. -/
def DrainCramped (r : Rcv) (p : Packet) : Prop :=
  p.seq = r.rcvNxt ∧ rcvDirect r p = false ∧ r.rxqSize < r.rxq.length + r.ooo.length + 1

instance (r : Rcv) (p : Packet) : Decidable (DrainCramped r p) :=
  inferInstanceAs (Decidable (_ ∧ _ ∧ _))

theorem SackInv.tcpRcvOoo (cfg : TcpCfg) {s : St} (h : SackInv s.tsock.rcv)
    (hi : RcvInv .any share k s.rxSt)
    (hlen : s.tsock.rcv.ooo.length + 1 < 65536) (hoff : s.tsock.rcv.off p ≤ s.tsock.rcv.rcvWnd)
    (hal : p.Aligned) (hid : ∀ q ∈ s.tsock.rcv.ooo, q.id ≠ p.id)
    (hroom : p.seq = s.tsock.rcv.rcvNxt →
      s.tsock.rcv.rxq.length + s.tsock.rcv.ooo.length + 1 ≤ s.tsock.rcv.rxqSize)
    (href : ¬ RefusedAfterRemoval cfg s.tsock.rcv p) :
    SackInv (tcpRcvOoo cfg s p).2.1.tsock.rcv := by
  have hw : s.tsock.rcv.rcvWnd < 2 ^ 26 := hi.wnd_lt
  have hl := p.len_lt
  obtain ⟨e, x, p', he, hx, hedge, hnear, hle⟩ :=
    tcpRcvDataOoo_spec cfg s.worker.tsUs hi hoff hal trivial
  have hj := tcpRcvDataOoo_judged cfg s.worker.tsUs p hi.spans hi.wnd_lt
  rw [he] at hj
  have hcall : (LibTpa.tcpRcvOoo cfg s p).2.1.tsock.rcv = (oooQueueDrain x p').1.rcv := by
    unfold LibTpa.tcpRcvOoo
    rw [deliver_rcv,
      show tcpRcvDataOoo cfg (tsockSetAckFlag cfg (tsockResetQuickack s) true).worker.tsUs
        (tsockSetAckFlag cfg (tsockResetQuickack s) true).rxSt p = (e, x, p') from he]
  rw [hcall]
  have hoffx : x.rcv.off = s.tsock.rcv.off := hedge.off
  have hnx : x.rcv.rcvNxt = s.tsock.rcv.rcvNxt := hedge.nxt
  rw [← hedge.nxt] at hnear
  cases e with
  | none =>
    have hst : Stored s.tsock.rcv.ooo s.tsock.rcv x.rcv p' := hj.stored rfl
    have hpos : 0 < p'.len := (hx.spans.mem hst.mem).2.1
    have hpo : s.tsock.rcv.off p' = s.tsock.rcv.off p + ahead p.seq p'.seq :=
      covers_off (by omega) hj.part
    have hpart : p.Covers p' := hj.part
    have hfit := (hx.spans.mem hst.mem).2.2
    rw [hoffx] at hfit
    have hwx : x.rcv.rcvWnd = s.tsock.rcv.rcvWnd := hedge.wnd
    have hb : SackedOk x.rcv :=
      h.toSackedOk.stored hj.sackOk hnx hst hpos (by omega) (fun q hq => by
        rw [show p'.id = p.id from hj.id]
        exact hid q hq)
    refine hb.drain p' hx hnear
      (by change x.rcv.ooo.length ≤ s.tsock.rcv.ooo.length + 1 at hle; omega) ?_
    intro f hf hseq
    -- what was queued before lies behind the gap, so it is the new packet
    have hz : x.rcv.off f = 0 := ahead_eq_zero.mpr hseq
    have hfp : f = p' := (hst.only f (List.mem_of_mem_head? hf)).resolve_right fun ho => by
      have := h.gap f ho
      rw [hoffx] at hz
      omega
    have hp0 : s.tsock.rcv.off p = 0 := by
      rw [hfp, hoffx] at hz
      omega
    have := hroom (ahead_eq_zero.mp hp0)
    rw [hedge.rxq, hedge.size]
    change x.rcv.ooo.length ≤ s.tsock.rcv.ooo.length + 1 at hle
    change s.tsock.rcv.rxq.length + x.rcv.ooo.length ≤ s.tsock.rcv.rxqSize
    omega
  | some c =>
    have hnone : s.tsock.rcv.outgrown p = [] := by
      by_contra hne
      exact href ⟨hne, (hj.limit hne).mp (by simp)⟩
    have hooo : x.rcv.ooo = s.tsock.rcv.ooo := by
      rw [hj.left (by simp)]
      exact List.filter_eq_self.mpr (by simpa using List.filter_eq_nil_iff.mp hnone)
    have hb : SackedOk x.rcv :=
      h.toSackedOk.congr hj.sackOk hnx hooo (hj.blocks (by simp)) (hj.last (by simp) hnone)
    refine hb.drain p' hx hnear (by rw [hooo]; omega) ?_
    intro f hf hseq
    have hz : x.rcv.off f = 0 := ahead_eq_zero.mpr hseq
    have := h.gap f (hooo ▸ List.mem_of_mem_head? hf)
    rw [hoffx] at hz
    omega

private theorem enqueue_within (r : Rcv) (p : Packet) : ∃ n, n ≤ p.len ∧
    (tcpRcvEnqueue r p).2.1.sackOk = r.sackOk ∧
    (tcpRcvEnqueue r p).2.1.rcvNxt = r.rcvNxt + BitVec.ofNat 32 n ∧
    (tcpRcvEnqueue r p).2.1.ooo = r.ooo ∧ (tcpRcvEnqueue r p).2.1.sackBlocks = r.sackBlocks ∧
    (tcpRcvEnqueue r p).2.1.lastOooPkt = r.lastOooPkt := by
  unfold tcpRcvEnqueue
  dsimp only
  generalize hq : (if r.rcvWnd < p.len then tcpPacketCutTail p (p.len - r.rcvWnd) else p) = q
  have hle : q.len ≤ p.len := by
    rw [← hq]
    split
    · rw [cutTail_len]
      omega
    · exact le_rfl
  split
  · exact ⟨0, Nat.zero_le _, rfl, by simp, rfl, rfl, rfl⟩
  · split
    · exact ⟨0, Nat.zero_le _, rfl, by simp, rfl, rfl, rfl⟩
    · exact ⟨q.len, hle, rfl, rfl, rfl, rfl, rfl⟩

theorem SackInv.tcpRcvInOrder (cfg : TcpCfg) {s : St} (h : SackInv s.tsock.rcv)
    (hi : RcvInv C share k s.rxSt) (hd : rcvDirect s.tsock.rcv p) :
    SackInv (tcpRcvInOrder cfg s p).2.1.tsock.rcv := by
  obtain ⟨-, hgap⟩ := rcvDirect_gap hi hd
  obtain ⟨n, hn, h0, h1, h2, h3, h4⟩ := enqueue_within s.tsock.rcv p
  have hcall : (LibTpa.tcpRcvInOrder cfg s p).2.1.tsock.rcv =
    (tcpRcvEnqueue s.tsock.rcv p).2.1 := by
    unfold LibTpa.tcpRcvInOrder
    rw [deliver_rcv]
    rfl
  rw [hcall]
  exact h.within h0 h1 h2 h3 h4 fun q hq => lt_of_le_of_lt hn (hgap q hq)

/-- The segments after which the blocks are right. The 16-bit packet counter has room; no
queued packet begins right behind an empty FIN; the drain is not cramped; and the limit
does not refuse a segment that has removed queued ones. -/
structure SackSafe (cfg : TcpCfg) (r : Rcv) (p : Packet) : Prop where
  count : r.nrOooPkt.toNat < 65535
  fin : p.len = 0 → p.flags.fin = true → p.seq = r.rcvNxt → ∀ q ∈ r.ooo.head?, q.seq ≠ r.rcvNxt + 1
  room : p.len ≠ 0 → ¬ DrainCramped r (rcvCut r p)
  limit : p.len ≠ 0 → ¬ RefusedAfterRemoval cfg r (rcvCut r p)

@[simp] theorem rcvCut_id (r : Rcv) (p : Packet) : (rcvCut r p).id = p.id := by
  unfold rcvCut
  split <;> rfl

theorem SackInv.tcpRcvData (cfg : TcpCfg) {s : St} (h : SackInv s.tsock.rcv)
    (hi : RcvInv .any share k s.rxSt) (hlt : s.tsock.rcv.ooo.length < 65536)
    (hv : validateSeq s.tsock.rcv p = none) (hal : p.Aligned)
    (hid : ∀ q ∈ s.tsock.rcv.ooo, q.id ≠ p.id) (hs : SackSafe cfg s.tsock.rcv p) :
    SackInv (tcpRcvData cfg s p).2.1.tsock.rcv := by
  unfold LibTpa.tcpRcvData
  by_cases hlen : p.len = 0
  · rw [if_pos hlen]
    by_cases hf : p.flags.fin = true ∧ p.seq = s.tsock.rcv.rcvNxt
    · rw [if_pos hf]
      refine h.within (n := 1) rfl rfl rfl rfl rfl fun q hq => ?_
      have hgap := h.gap q hq
      have hsp : Spans s.tsock.rcv.off Packet.len 0 s.tsock.rcv.ooo s.tsock.rcv.rcvWnd := hi.spans
      have hfin := hs.fin hlen hf.1 hf.2
      cases hooo : s.tsock.rcv.ooo with
      | nil =>
        rw [hooo] at hq
        cases hq
      | cons a rest =>
        rw [hooo] at hq hsp hfin
        have hle := hsp.head_le hq
        have ha := h.gap a (by rw [hooo]; exact List.mem_cons_self ..)
        have hne : s.tsock.rcv.off a ≠ 1 := by
          intro h1
          refine hfin a rfl ?_
          have := add_ahead s.tsock.rcv.rcvNxt a.seq
          rw [show ahead s.tsock.rcv.rcvNxt a.seq = 1 from h1] at this
          exact this.symm
        omega
    · rw [if_neg hf]
      exact h
  · obtain ⟨hover, hoff⟩ := validateSeq_cut hi.wnd_lt hv hlen
    rw [if_neg hlen, if_neg (Nat.not_le.mpr hover)]
    have hcount : s.tsock.rcv.nrOooPkt.toNat = s.tsock.rcv.ooo.length := (hi.law hlt).count
    have hnr := hs.count
    unfold rcvPlace
    split
    · rename_i hd
      exact h.tcpRcvInOrder cfg hi hd
    · rename_i hd
      refine h.tcpRcvOoo cfg hi (by omega) hoff (hal.rcvCut hover.le) (by simpa using hid) ?_
        (hs.limit hlen)
      intro hseq
      by_contra hnot
      exact hs.room hlen ⟨hseq, by simpa using hd, by omega⟩

/-! ### Runs -/

structure SackLaw (r : Rcv) : Prop where
  few : r.sackBlocks.length ≤ 3
  nonempty : ∀ b ∈ r.sackBlocks, seqLt b.start b.stop
  above : ∀ b ∈ r.sackBlocks, seqGt b.start r.rcvNxt
  disjoint : r.sackBlocks.Pairwise fun b c => ∀ n, ¬ (b.Has n ∧ c.Has n)
  apart : r.sackBlocks.Pairwise fun b c => b.stop ≠ c.start ∧ c.stop ≠ b.start
  recent : ∀ q ∈ r.ooo, r.lastOooPkt = some q.id → ∃ b, r.sackBlocks.head? = some b ∧
    ∀ i < q.len, b.Has (q.seq + BitVec.ofNat 32 i)
  held : ∀ b ∈ r.sackBlocks, ∀ n, b.Has n → ∃ q ∈ r.ooo, (n - q.seq).toNat < q.len

theorem SackBlock.has_iff {a n : U32} {b : SackBlock} (h : b.Fits a) :
    b.Has n ↔ b.At a (ahead a n) := by
  have h1 := h.pos
  have h2 := h.near
  unfold SackBlock.Has SackBlock.At SackBlock.pos SackBlock.endPos ahead at *
  bv_omega

theorem SackInv.law (h : SackInv r) (hsp : Spans r.off Packet.len 0 r.ooo r.rcvWnd)
    (hw : r.rcvWnd < 2 ^ 26) : SackLaw r := by
  refine ⟨h.few, ?_, ?_, ?_, ?_, ?_, ?_⟩
  · intro b hb
    have h1 := (h.fits b hb).pos
    have h2 := (h.fits b hb).near
    rw [b.start_eq r.rcvNxt, b.stop_eq r.rcvNxt]
    exact (seqLt_add (by omega) (by omega)).mpr h1
  · intro b hb
    have h1 := (h.fits b hb).pos
    have h2 := (h.fits b hb).near
    obtain ⟨q, hq, hle⟩ := h.above hb
    have := h.gap q hq
    rw [seqGt_iff]
    unfold SackBlock.pos ahead at *
    omega
  · refine h.apart.imp_of_mem fun {b c} hb hc hbc n => ?_
    rw [SackBlock.has_iff (h.fits b hb), SackBlock.has_iff (h.fits c hc)]
    unfold SackBlock.Apart at hbc
    unfold SackBlock.At
    omega
  · refine h.apart.imp_of_mem fun {b c} hb hc hbc => ?_
    have h1 := (h.fits b hb).near
    have h2 := (h.fits c hc).near
    have h3 := (h.fits b hb).pos
    have h4 := (h.fits c hc).pos
    unfold SackBlock.Apart at hbc
    rw [b.start_eq r.rcvNxt, b.stop_eq r.rcvNxt, c.start_eq r.rcvNxt, c.stop_eq r.rcvNxt]
    constructor <;> bv_omega
  · intro q hq hlast
    obtain ⟨b, hhead, h1, h2⟩ := h.recent q hq hlast
    refine ⟨b, hhead, fun i hlt => ?_⟩
    have hq' := hsp.mem hq
    have hoff : ahead r.rcvNxt (q.seq + BitVec.ofNat 32 i) = r.off q + i :=
      ahead_add (by unfold Rcv.off at hq'; omega)
    rw [SackBlock.has_iff (h.fits b (List.mem_of_mem_head? hhead)), hoff]
    exact ⟨by omega, by omega⟩
  · intro b hb n hn
    rw [SackBlock.has_iff (h.fits b hb)] at hn
    obtain ⟨q, hq, h1, h2⟩ := h.held b hb _ hn
    refine ⟨q, hq, ?_⟩
    have hq' := hsp.mem hq
    unfold Rcv.off ahead at *
    bv_omega

/-- A segment that is processed is not in the queue yet. Nothing is dropped from the
queue. -/
def RcvAct.Reported (s : St) : RcvAct → Prop
  | .data p => RcvAct.Enabled s (.data p) ∧ ∀ q ∈ s.tsock.rcv.ooo, q.id ≠ p.id
  | .read _ => True
  | .drop => False

def RcvAct.Safe (cfg : TcpCfg) (s : St) : RcvAct → Prop
  | .data p => SackSafe cfg s.tsock.rcv p
  | _ => True

theorem tsockZreadv_blocks (s : St) (n : Nat) :
    (tsockZreadv s n).2.tsock.rcv.sackOk = s.tsock.rcv.sackOk ∧
      (tsockZreadv s n).2.tsock.rcv.rcvNxt = s.tsock.rcv.rcvNxt ∧
      (tsockZreadv s n).2.tsock.rcv.sackBlocks = s.tsock.rcv.sackBlocks ∧
      (tsockZreadv s n).2.tsock.rcv.lastOooPkt = s.tsock.rcv.lastOooPkt := by
  unfold tsockZreadv
  split
  · exact ⟨rfl, rfl, rfl, rfl⟩
  dsimp only
  split
  · exact ⟨rfl, rfl, rfl, rfl⟩
  · split <;> exact ⟨rfl, rfl, rfl, rfl⟩

structure Reporting (share : U32) (s : St) : Prop where
  counted : Counted share s
  blocks : SackInv s.tsock.rcv

theorem Reporting.step (cfg : TcpCfg) {s : St} {a : RcvAct} (h : Reporting share s)
    (hr : a.Reported s) (hs : a.Safe cfg s) : Reporting share (rcvStep cfg s a) := by
  obtain ⟨⟨⟨k, hi⟩, hlt⟩, hb⟩ := h
  cases a with
  | data p =>
    obtain ⟨hen, hid⟩ := hr
    have hsafe : SackSafe cfg s.tsock.rcv p := hs
    refine ⟨rcvStep_inv cfg s (.data p) hen ⟨hsafe.count, ?_⟩ ⟨⟨k, hi⟩, hlt⟩,
      hb.tcpRcvData cfg hi hlt hen.2.1 hen.2.2 hid hsafe⟩
    rintro ⟨-, -, -, q, hq, hseq⟩
    have hpos := hb.gap q (List.mem_of_mem_head? hq)
    have hz : s.tsock.rcv.off q = 0 := ahead_eq_zero.mpr hseq
    omega
  | read n =>
    obtain ⟨h1, h2, h3, h4⟩ := tsockZreadv_blocks s n
    have h5 := tsockZreadv_ooo s n
    refine ⟨rcvStep_inv cfg s (.read n) trivial trivial ⟨⟨k, hi⟩, hlt⟩, ?_⟩
    exact hb.within (n := 0) h1 (h2.trans (by simp)) h5 h3 h4 hb.gap
  | drop => exact hr.elim

/-- Over every run of data and reads, with a rxq of any size, the blocks that will be sent
are true, as long as each segment is safe. -/
theorem sack_truthful_run (cfg : TcpCfg) (share : U32) (s₀ s : St) (hf : RcvFresh share s₀)
    (hok : s₀.tsock.rcv.sackOk = true) (hb : s₀.tsock.rcv.sackBlocks = [])
    (hr : Reach (rcvStep cfg) (fun s a => a.Reported s ∧ a.Safe cfg s) s₀ s) :
    SackLaw s.tsock.rcv := by
  have hinit : SackInv s₀.tsock.rcv := by
    refine ⟨⟨hok, ?_, ?_, ?_, ?_, ?_⟩, ?_⟩
    all_goals simp [hb, hf.ooo]
  have h : Reporting share s := hr.invariant (I := Reporting share)
    ⟨⟨⟨0, hf.inv⟩, by rw [hf.ooo]; decide⟩, hinit⟩ fun s a h ok => h.step cfg ok.1 ok.2
  obtain ⟨⟨k, hi⟩, -⟩ := h.counted
  exact h.blocks.law hi.spans hi.wnd_lt

def sackSt (cfg : TcpCfg) : St :=
  ⟨Worker.boot 0 {}, { tsockInit cfg 0 false with
    state := .established
    rcv := { (tsockInit cfg 0 false).rcv with sackOk := true } }⟩

theorem sackSt_fresh (cfg : TcpCfg) : RcvFresh 0 (sackSt cfg) :=
  ⟨rfl, rfl, rfl, cfg.rcvQueue_ok, rfl, rfl, rfl⟩

def twoGaps : List RcvAct :=
  [.data (.oneByte 0 2 0 0 tcpFlagAck 2),
    .data (.oneByte 1 4 0 0 tcpFlagAck 4),
    .data (.oneByte 2 0 0 0 tcpFlagAck 0),
    .data (.oneByte 3 1 0 0 tcpFlagAck 1)]

theorem twoGaps_admitted : Admitted (rcvStep {}) (fun s a => a.Reported s ∧ a.Safe {} s)
    (sackSt {}) twoGaps := by
  refine ⟨⟨⟨⟨.inl rfl, ?_, Packet.parsed_aligned ..⟩, ?_⟩, ?_, ?_, ?_, ?_⟩,
    ⟨⟨⟨.inl rfl, ?_, Packet.parsed_aligned ..⟩, ?_⟩, ?_, ?_, ?_, ?_⟩,
    ⟨⟨⟨.inl rfl, ?_, Packet.parsed_aligned ..⟩, ?_⟩, ?_, ?_, ?_, ?_⟩,
    ⟨⟨⟨.inl rfl, ?_, Packet.parsed_aligned ..⟩, ?_⟩, ?_, ?_, ?_, ?_⟩, trivial⟩
  all_goals decide +kernel

theorem sack_truthful_run_twoGaps :
    SackLaw (exec (rcvStep {}) (sackSt {}) twoGaps).tsock.rcv ∧
      (exec (rcvStep {}) (sackSt {}) twoGaps).tsock.rcv.sackBlocks = [⟨4, 5⟩] :=
  ⟨sack_truthful_run {} 0 _ _ (sackSt_fresh {}) rfl rfl (Reach.refl.exec twoGaps_admitted),
    by decide +kernel⟩

/-- With a rxq of one slot that is full, the byte that closes the gap stays in the queue,
and the block around it begins at `rcv_nxt`. -/
theorem fullRxq_block_at_rcvNxt :
    RcvFresh 0 (sackSt oneSlotCfg) ∧
      Admitted (rcvStep oneSlotCfg) (fun s a => a.Reported s) (sackSt oneSlotCfg) fillOneSlot ∧
      (exec (rcvStep oneSlotCfg) (sackSt oneSlotCfg) fillOneSlot).tsock.rcv.sackBlocks = [⟨1, 3⟩] ∧
      (exec (rcvStep oneSlotCfg) (sackSt oneSlotCfg) fillOneSlot).tsock.rcv.rcvNxt = 1 ∧
      ¬ SackLaw (exec (rcvStep oneSlotCfg) (sackSt oneSlotCfg) fillOneSlot).tsock.rcv := by
  refine ⟨sackSt_fresh _, ?_, by decide +kernel, by decide +kernel, fun h => ?_⟩
  · refine ⟨⟨⟨.inl rfl, ?_, Packet.parsed_aligned ..⟩, ?_⟩,
      ⟨⟨.inl rfl, ?_, Packet.parsed_aligned ..⟩, ?_⟩,
      ⟨⟨.inl rfl, ?_, Packet.parsed_aligned ..⟩, ?_⟩, trivial⟩
    all_goals decide +kernel
  · have hab := h.above
    revert hab
    decide +kernel

end LibTpa
