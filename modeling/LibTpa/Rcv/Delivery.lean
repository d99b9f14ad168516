/- LibTpa/Rcv/Delivery
   digest: In-order delivery: what reaches the rxq continues the stream. -/

import LibTpa.Rcv.Invariant

set_option autoImplicit false

namespace LibTpa

open Lib.SerialNumber Lib.SpanList Lib.Stream

variable {C : SegPred Byte} {share : U32} {k : Nat} {x : RxSt}

def Delivered (C : SegPred Byte) : Nat → List Packet → Prop
  | _, [] => True
  | k, p :: rest => 0 < p.len ∧ C.holds k p.bytes ∧ Delivered C (k + p.len) rest

theorem Delivered.append {a b : List Packet} {k : Nat} (ha : Delivered C k a)
    (hb : Delivered C (k + rxqLen a) b) : Delivered C k (a ++ b) := by
  induction a generalizing k with
  | nil => exact hb
  | cons p rest ih =>
    refine ⟨ha.1, ha.2.1, ih ha.2.2 ?_⟩
    rwa [rxqLen_cons, ← Nat.add_assoc] at hb

/-- From `r` to `r'` the rxq has grown by the next bytes of the stream, and
`rcv_nxt` has moved by as many. -/
structure Progress (C : SegPred Byte) (k k' : Nat) (r r' : Rcv) : Prop where
  grown : ∃ new, r'.rxq = r.rxq ++ new ∧ Delivered C k new ∧ k' = k + rxqLen new
  nxt : r'.rcvNxt = r.rcvNxt + BitVec.ofNat 32 (k' - k)
  size : r'.rxqSize = r.rxqSize
  isn : r'.rcvIsn = r.rcvIsn

theorem Progress.le {k' : Nat} {r r' : Rcv} (h : Progress C k k' r r') : k ≤ k' := by
  obtain ⟨new, -, -, hk⟩ := h.grown
  omega

theorem Progress.same {r r' : Rcv} (h : SameEdge r r') : Progress C k k r r' :=
  ⟨⟨[], by simp [h.rxq], trivial, rfl⟩, by simp [h.nxt], h.size, h.isn⟩

theorem Progress.trans {k' k'' : Nat} {r r' r'' : Rcv} (h : Progress C k k' r r')
    (h' : Progress C k' k'' r' r'') : Progress C k k'' r r'' where
  grown := by
    obtain ⟨a, ha, hda, hka⟩ := h.grown
    obtain ⟨b, hb, hdb, hkb⟩ := h'.grown
    refine ⟨a ++ b, by rw [hb, ha, List.append_assoc], hda.append (hka ▸ hdb), ?_⟩
    rw [hkb, hka, rxqLen_append, Nat.add_assoc]
  nxt := by
    have h1 := h.le
    have h2 := h'.le
    rw [h'.nxt, h.nxt, add_assoc, ← BitVec.ofNat_add]
    congr 2
    omega
  size := h'.size.trans h.size
  isn := h'.isn.trans h.isn

theorem Progress.one {r : Rcv} {p : Packet} (hlen : 0 < p.len) (hc : C.holds k p.bytes) :
    Progress C k (k + p.len) r
      { r with
        rxq := r.rxq ++ [p]
        rcvNxt := r.rcvNxt + BitVec.ofNat 32 p.len
        rcvWnd := r.rcvWnd - p.len } where
  grown := ⟨[p], rfl, ⟨hlen, hc, trivial⟩, by simp⟩
  nxt := by simp
  size := rfl
  isn := rfl

theorem tcpRcvEnqueue_fit {r : Rcv} {p : Packet} (hw : p.len ≤ r.rcvWnd) (hlen : 0 < p.len) :
    tcpRcvEnqueue r p =
      if r.rxqSize ≤ r.rxq.length then (some .errTcpRxqEnqueueFail, r, p)
      else (none,
        { r with
          rxq := r.rxq ++ [p]
          rcvNxt := r.rcvNxt + BitVec.ofNat 32 p.len
          rcvWnd := r.rcvWnd - p.len },
        p) := by
  simp only [tcpRcvEnqueue, Nat.not_lt.mpr hw, if_false, Nat.pos_iff_ne_zero.mp hlen]

theorem RcvInv.near {kb : Nat} {b : U32} {q : Packet} (h : RcvInv C share k x) (hk : kb ≤ k)
    (hb : x.rcv.rcvNxt = b + BitVec.ofNat 32 (k - kb)) (hw : k - kb + x.rcv.rcvWnd < 2 ^ 27)
    (hq : q ∈ x.rcv.ooo) : Near C kb b q := by
  have hm := h.spans.mem hq
  have hoff : ahead b q.seq = (k - kb) + x.rcv.off q := by
    have hn : ahead b x.rcv.rcvNxt = k - kb := hb ▸ ahead_add_ofNat b (by omega)
    unfold Rcv.off at *
    rw [ahead_trans (b := x.rcv.rcvNxt) (by omega), hn]
  refine ⟨h.oooAligned q hq, by omega, ?_⟩
  rw [hoff, ← Nat.add_assoc, Nat.add_sub_cancel' hk]
  exact h.content q hq

theorem Near.sync {kb : Nat} {b : U32} {cur q : Packet} (h : Near C kb b cur) (hq : Near C kb b q) :
    Near C kb b (syncPkt cur q) := by
  unfold syncPkt
  split
  · exact hq
  · exact h

/-- The out-of-order queue drains into the rxq as far as it is contiguous. The
caller's packet, which may be one of those that move, stays what it was. -/
theorem oooDrainLoop_spec {kb : Nat} {b : U32} (q : List Packet) (cur : Packet)
    (h : RcvInv C share k x) (hq : x.rcv.ooo = q) (hk : kb ≤ k)
    (hb : x.rcv.rcvNxt = b + BitVec.ofNat 32 (k - kb)) (hw : k - kb + x.rcv.rcvWnd < 2 ^ 27)
    (hcur : Near C kb b cur) :
    ∃ f x' cur' k', oooDrainLoop q x cur = (f, x', cur') ∧ RcvInv C share k' x' ∧
      Progress C k k' x.rcv x'.rcv ∧ Near C kb b cur' ∧ x'.rcv.ooo.length ≤ q.length := by
  induction q generalizing x k cur with
  | nil =>
    exact ⟨_, _, _, k, rfl, h, Progress.same (SameEdge.refl _), hcur, by rw [hq]⟩
  | cons p rest ih =>
    unfold oooDrainLoop
    split
    · exact ⟨_, _, _, k, rfl, h, Progress.same (SameEdge.refl _), hcur, by rw [hq]⟩
    · rename_i hseq
      have hoff : x.rcv.off p = 0 := ahead_eq_zero.mpr (not_not.mp hseq)
      have hp : p ∈ x.rcv.ooo := by rw [hq]; simp
      have hpn := hcur.sync (h.near hk hb hw hp)
      have hsp := h.spans
      rw [hq] at hsp
      have hlen := hsp.2.1
      have hpw : p.len ≤ x.rcv.rcvWnd := by
        have := hsp.2.2.le
        omega
      rw [tcpRcvEnqueue_fit hpw hlen]
      split
      · rename_i heq
        split at heq
        · cases heq
          exact ⟨_, _, _, k, rfl, ⟨hq ▸ h.spans, h.wnd, h.size, hq ▸ h.count, hq ▸ h.mbufs,
            hq ▸ h.last, hq ▸ h.oooAligned, h.rxqAligned, hq ▸ h.content⟩,
            Progress.same ⟨rfl, rfl, rfl, rfl, rfl⟩, hpn, le_rfl⟩
        · cases heq
      · rename_i heq
        split at heq
        · cases heq
        · cases heq
          have hrest : ∀ a ∈ rest, p.len ≤ x.rcv.off a := fun a ha => by
            have := (hsp.2.2.mem ha).1
            omega
          have hc := h.content p hp
          rw [hoff] at hc
          have h1 := (h.remove [] rest p hq).accept hpw (h.oooAligned p hp) hrest
          have hb' : x.rcv.rcvNxt + BitVec.ofNat 32 p.len =
              b + BitVec.ofNat 32 (k + p.len - kb) := by
            rw [hb, add_assoc, ← BitVec.ofNat_add]
            congr 2
            omega
          have hw' : k + p.len - kb + (x.rcv.rcvWnd - p.len) < 2 ^ 27 := by omega
          obtain ⟨f, x', cur', k', he, h2, h3, h4, h5⟩ :=
            ih (syncPkt cur p) h1 rfl (by omega) hb' hw' hpn
          exact ⟨f, x', cur', k', he, h2, (Progress.one hlen hc).trans
            ⟨h3.grown, h3.nxt, h3.size, h3.isn⟩, h4, Nat.le_succ_of_le h5⟩

theorem oooQueueDrain_spec (cur : Packet) (h : RcvInv C share k x)
    (hcur : Near C k x.rcv.rcvNxt cur) :
    ∃ x' cur' k', oooQueueDrain x cur = (x', cur') ∧ RcvInv C share k' x' ∧
      Progress C k k' x.rcv x'.rcv ∧ Near C k x.rcv.rcvNxt cur' ∧
      x'.rcv.ooo.length ≤ x.rcv.ooo.length := by
  have hw := h.wnd_lt
  obtain ⟨b, x1, cur1, k', he, h1, h2, h3, h4⟩ :=
    oooDrainLoop_spec x.rcv.ooo cur h rfl le_rfl (by simp) (by omega) hcur
  unfold oooQueueDrain
  rw [he]
  cases b with
  | true => exact ⟨x1, cur1, k', rfl, h1, h2, h3, h4⟩
  | false =>
    dsimp only
    split
    · exact ⟨_, _, k', rfl, ⟨h1.spans, h1.wnd, h1.size, h1.count, h1.mbufs, by simp,
        h1.oooAligned, h1.rxqAligned, h1.content⟩, ⟨h2.grown, h2.nxt, h2.size, h2.isn⟩, h3, h4⟩
    · exact ⟨_, _, k', rfl, ⟨h1.spans, h1.wnd, h1.size, h1.count, h1.mbufs, h1.last,
        h1.oooAligned, h1.rxqAligned, h1.content⟩, ⟨h2.grown, h2.nxt, h2.size, h2.isn⟩, h3, h4⟩

/-- `tcp_rcv_enqueue` on a packet that continues `rcv_nxt` and ends before the
out-of-order queue begins. -/
theorem tcpRcvEnqueue_spec {p : Packet} (h : RcvInv C share k x) (hal : p.Aligned)
    (hc : C.holds k p.bytes) (hgap : ∀ q ∈ x.rcv.ooo, p.len ≤ x.rcv.off q) :
    ∃ e r' p' k', tcpRcvEnqueue x.rcv p = (e, r', p') ∧ RcvInv C share k' { x with rcv := r' } ∧
      Progress C k k' x.rcv r' ∧ Front p p' ∧ r'.ooo = x.rcv.ooo := by
  obtain ⟨p', hp', hf, hw⟩ : ∃ p', p' = (if x.rcv.rcvWnd < p.len
      then tcpPacketCutTail p (p.len - x.rcv.rcvWnd) else p) ∧ Front p p' ∧
      p'.len ≤ x.rcv.rcvWnd := by
    refine ⟨_, rfl, ?_⟩
    split
    · refine ⟨Front.cutTail p _, ?_⟩
      rw [cutTail_len]
      omega
    · exact ⟨Front.refl p, by omega⟩
  simp only [tcpRcvEnqueue]
  rw [← hp']
  split
  · exact ⟨_, _, _, k, rfl, h, Progress.same (SameEdge.refl _), hf, rfl⟩
  · rename_i hlen
    split
    · exact ⟨_, _, _, k, rfl, h, Progress.same (SameEdge.refl _), hf, rfl⟩
    · exact ⟨_, _, _, k + p'.len, rfl, h.accept hw (hf.aligned hal) fun q hq =>
        le_trans hf.len (hgap q hq), Progress.one (Nat.pos_of_ne_zero hlen) (hf.holds hc), hf, rfl⟩

def Arrives (C : SegPred Byte) (k : Nat) (r : Rcv) (p : Packet) : Prop :=
  C.holds (k + r.off (rcvCut r p)) (rcvCut r p).bytes

/-- A packet with payload that passed `validate_seq` has bytes at `rcv_nxt` or
behind it, and the first of them lies inside the window. -/
theorem validateSeq_cut {r : Rcv} {p : Packet} (hw : r.rcvWnd < 2 ^ 26)
    (hv : validateSeq r p = none) (hlen : p.len ≠ 0) :
    rcvOverlap r p < p.len ∧ r.off (rcvCut r p) ≤ r.rcvWnd := by
  have hl := p.len_lt
  unfold validateSeq at hv
  rw [if_neg (by tauto)] at hv
  split at hv
  · cases hv
  rename_i hin
  rw [not_or, seqLe_iff, seqGe_iff, Packet.endSeq] at hin
  obtain ⟨h1, h2⟩ := hin
  unfold rcvCut rcvOverlap
  by_cases hlt : seqLt p.seq r.rcvNxt
  · rw [if_pos hlt]
    rw [seqLt_iff] at hlt
    refine ⟨by bv_omega, ?_⟩
    rw [if_neg (by bv_omega), Rcv.off, cutHead_seq, BitVec.ofNat_toNat, BitVec.setWidth_eq,
      ahead_eq_zero.mpr (by bv_omega)]
    exact Nat.zero_le _
  · rw [if_neg hlt, if_pos rfl]
    rw [seqLt_iff] at hlt
    refine ⟨by omega, ?_⟩
    unfold Rcv.off ahead
    bv_omega

theorem Packet.Aligned.rcvCut {r : Rcv} {p : Packet} (h : p.Aligned) (hp : rcvOverlap r p ≤ p.len) :
    (rcvCut r p).Aligned := by
  unfold LibTpa.rcvCut
  split
  · exact h
  · exact h.cutHead hp

theorem rcvDirect_gap {p : Packet} (h : RcvInv C share k x) (hd : rcvDirect x.rcv p) :
    x.rcv.off p = 0 ∧ ∀ q ∈ x.rcv.ooo, p.len < x.rcv.off q := by
  have hw := h.wnd_lt
  have hl := p.len_lt
  obtain ⟨hseq, hhead⟩ := of_decide_eq_true hd
  have hz : x.rcv.off p = 0 := ahead_eq_zero.mpr hseq
  refine ⟨hz, fun q hq => ?_⟩
  have hsp := h.spans
  rcases hooo : x.rcv.ooo with _ | ⟨a, rest⟩
  · rw [hooo] at hq
    cases hq
  · have hlt : ¬ seqGe p.endSeq a.seq := fun hge => hhead ⟨a, by rw [hooo]; rfl, hge⟩
    rw [hooo] at hsp hq
    have ha := hsp.mem (a := a) (by simp)
    have hle := hsp.head_le hq
    have he := off_endSeq (r := x.rcv) (p := p) (by omega)
    unfold Rcv.off at *
    rw [@seqGe_ahead x.rcv.rcvNxt _ _ (by omega) (by omega)] at hlt
    omega

theorem deliver_rcv (s : St) (x : RxSt) : (deliver s x).tsock.rcv = x.rcv :=
  congrArg RxSt.rcv (deliver_rxSt s x)

theorem rcvPlace_spec (cfg : TcpCfg) {s : St} {p : Packet} (h : RcvInv C share k s.rxSt)
    (hoff : s.tsock.rcv.off p ≤ s.tsock.rcv.rcvWnd) (hal : p.Aligned)
    (hc : C.holds (k + s.tsock.rcv.off p) p.bytes) :
    ∃ e s' p' k', rcvPlace cfg s p = (e, s', p') ∧ RcvInv C share k' s'.rxSt ∧
      Progress C k k' s.tsock.rcv s'.tsock.rcv ∧ Near C k s.tsock.rcv.rcvNxt p' ∧
      s'.tsock.rcv.ooo.length ≤ s.tsock.rcv.ooo.length + 1 := by
  have hw : s.tsock.rcv.rcvWnd < 2 ^ 26 := h.wnd_lt
  have hnear : Near C k s.tsock.rcv.rcvNxt p := ⟨hal, by unfold Rcv.off at hoff; omega, hc⟩
  unfold rcvPlace
  split
  · rename_i hd
    obtain ⟨hz, hgap⟩ := rcvDirect_gap h hd
    rw [hz, Nat.add_zero] at hc
    obtain ⟨e, r', p', k', he, h1, h2, h3, h4⟩ :=
      tcpRcvEnqueue_spec h hal hc fun q hq => (hgap q hq).le
    refine ⟨e, deliver (tsockSetAckFlag cfg s false) ⟨r', s.worker.rx⟩, p', k', ?_, ?_, ?_,
      hnear.front h3, ?_⟩
    · unfold tcpRcvInOrder
      dsimp only
      rw [show tcpRcvEnqueue (tsockSetAckFlag cfg s false).tsock.rcv p = (e, r', p') from he]
      rfl
    · rw [deliver_rxSt]
      exact h1
    · rw [deliver_rcv]
      exact h2
    · rw [deliver_rcv, h4]
      exact Nat.le_succ _
  · obtain ⟨e, x1, p1, he, h1, hs, hn1, hl1⟩ := tcpRcvDataOoo_spec cfg s.worker.tsUs h hoff hal hc
    rw [← hs.nxt] at hn1
    obtain ⟨x2, p2, k', he2, h2, h3, hn2, hl2⟩ := oooQueueDrain_spec p1 h1 hn1
    rw [hs.nxt] at hn2
    refine ⟨e, deliver (tsockSetAckFlag cfg (tsockResetQuickack s) true) x2, p2, k', ?_, ?_, ?_,
      hn2, ?_⟩
    · unfold tcpRcvOoo
      dsimp only
      rw [show tcpRcvDataOoo cfg (tsockSetAckFlag cfg (tsockResetQuickack s) true).worker.tsUs
        (tsockSetAckFlag cfg (tsockResetQuickack s) true).rxSt p = (e, x1, p1) from he, he2]
    · rw [deliver_rxSt]
      exact h2
    · rw [deliver_rcv]
      exact (Progress.same hs).trans h3
    · rw [deliver_rcv]
      exact le_trans hl2 hl1

theorem tcpRcvData_spec (cfg : TcpCfg) {s : St} {p : Packet} (h : RcvInv C share k s.rxSt)
    (hv : validateSeq s.tsock.rcv p = none) (hlen : p.len ≠ 0) (hal : p.Aligned)
    (hc : Arrives C k s.tsock.rcv p) :
    ∃ e s' p' k', tcpRcvData cfg s p = (e, s', p') ∧ RcvInv C share k' s'.rxSt ∧
      Progress C k k' s.tsock.rcv s'.tsock.rcv ∧ Near C k s.tsock.rcv.rcvNxt p' ∧
      s'.tsock.rcv.ooo.length ≤ s.tsock.rcv.ooo.length + 1 := by
  obtain ⟨hlt, hoff⟩ := validateSeq_cut h.wnd_lt hv hlen
  unfold tcpRcvData
  rw [if_neg hlen, if_neg (Nat.not_le.mpr hlt)]
  exact rcvPlace_spec cfg h hoff (hal.rcvCut hlt.le) hc

/-- `tcp_rcv_data` on an empty packet: only an in-order FIN moves `rcv_nxt`, over
its own sequence number, which no queued packet may cover. -/
theorem tcpRcvData_empty (cfg : TcpCfg) {s : St} {p : Packet} (h : RcvInv C share k s.rxSt)
    (hlen : p.len = 0)
    (hfin : p.flags.fin → p.seq = s.tsock.rcv.rcvNxt →
      ∀ q ∈ s.tsock.rcv.ooo, q.seq ≠ s.tsock.rcv.rcvNxt) :
    ∃ s' k', tcpRcvData cfg s p = (none, s', p) ∧ RcvInv C share k' s'.rxSt ∧
      (s' = s ∧ k' = k ∨ p.flags.fin = true ∧ p.seq = s.tsock.rcv.rcvNxt ∧ k' = k + 1 ∧
        s' = s.setRcv { s.tsock.rcv with rcvNxt := s.tsock.rcv.rcvNxt + 1 }) := by
  unfold tcpRcvData
  rw [if_pos hlen]
  split
  · rename_i hf
    refine ⟨_, k + 1, rfl, ?_, .inr ⟨hf.1, hf.2, rfl, rfl⟩⟩
    have hgap : ∀ q ∈ s.tsock.rcv.ooo, 1 ≤ s.tsock.rcv.off q := fun q hq =>
      Nat.one_le_iff_ne_zero.mpr fun hz => hfin hf.1 hf.2 q hq (ahead_eq_zero.mp hz)
    have hshift : ∀ q ∈ s.tsock.rcv.ooo, s.tsock.rcv.off q =
        Rcv.off { s.tsock.rcv with rcvNxt := s.tsock.rcv.rcvNxt + 1 } q + 1 :=
      fun q hq => off_advance rfl (hgap q hq)
    refine ⟨?_, h.wnd, h.size, h.count, h.mbufs, h.last, h.oooAligned, h.rxqAligned, ?_⟩
    · exact ((h.spans.mono_hi (Nat.le_succ _)).raise hgap (by omega)).shift hshift
    · intro q hq
      have := h.content q hq
      rw [show s.rxSt.rcv.off q = _ from hshift q hq, Nat.add_comm _ 1, ← Nat.add_assoc] at this
      exact this
  · exact ⟨s, k, rfl, h, .inl ⟨rfl, rfl⟩⟩

end LibTpa
