/- LibTpa/Rcv/Reject
   digest: Which queued packets an out-of-order packet removes, and when it is refused after
   that. -/

import LibTpa.Rcv.Invariant
import LibTpa.Sock.Init
import Mathlib.Data.Set.Basic

/-!
`tcp_rcv_data_ooo` frees the queued packets that lie inside the new one before it
looks at `rcv_ooo_limit`.
-/

set_option autoImplicit false

namespace LibTpa

open Lib.SerialNumber Lib.SpanList Lib.Stream

def heldBytes (q : List Packet) : Set (U32 × Byte) :=
  { y | ∃ p ∈ q, ∃ i, p.bytes[i]? = some y.2 ∧ y.1 = p.seq + BitVec.ofNat 32 i }

def Packet.Covers (p q : Packet) : Prop := ahead p.seq q.seq + q.len ≤ p.len

/-- `q` lies inside `p` and is not all of it. -/
def Packet.Outgrows (p q : Packet) : Prop := p.Covers q ∧ q.len < p.len

instance Packet.decidableCovers (p q : Packet) : Decidable (p.Covers q) :=
  inferInstanceAs (Decidable (_ ≤ _))

instance (p q : Packet) : Decidable (p.Outgrows q) := inferInstanceAs (Decidable (_ ≤ _ ∧ _ < _))

def Rcv.outgrown (r : Rcv) (p : Packet) : List Packet := r.ooo.filter fun q => p.Outgrows q

/-- The packet removes queued ones, does not begin at `rcv_nxt`, and the limit of the
out-of-order queue is reached without them. -/
def RefusedAfterRemoval (cfg : TcpCfg) (r : Rcv) (p : Packet) : Prop :=
  r.outgrown p ≠ [] ∧ p.seq ≠ r.rcvNxt ∧
    cfg.rcvOooLimit ≤ (r.nrOooPkt - BitVec.ofNat 16 (r.outgrown p).length).toNat

instance (cfg : TcpCfg) (r : Rcv) (p : Packet) : Decidable (RefusedAfterRemoval cfg r p) :=
  inferInstanceAs (Decidable (_ ∧ _ ∧ _))

/-! ### The packets behind the new one -/

structure Removal (gone : List Packet) (x x' : RxSt) : Prop where
  edge : SameEdge x.rcv x'.rcv
  count : x'.rcv.nrOooPkt = x.rcv.nrOooPkt - BitVec.ofNat 16 gone.length
  sackOk : x'.rcv.sackOk = x.rcv.sackOk
  blocks : x'.rcv.sackBlocks = x.rcv.sackBlocks
  last : gone = [] → x'.rcv.lastOooPkt = x.rcv.lastOooPkt

theorem Removal.refl (x : RxSt) : Removal [] x x := ⟨.refl _, by simp, rfl, rfl, fun _ => rfl⟩

theorem Removal.cons {x x' : RxSt} {p : Packet} {rest gone : List Packet}
    (h : Removal gone ((tsockRemoveOooPkt x p rest).free p) x') : Removal (p :: gone) x x' where
  edge := ⟨h.edge.nxt, h.edge.wnd, h.edge.rxq, h.edge.size, h.edge.isn⟩
  count := by
    rw [h.count, List.length_cons]
    change x.rcv.nrOooPkt - 1 - _ = _
    bv_omega
  sackOk := h.sackOk
  blocks := h.blocks
  last := by rintro ⟨⟩

/-- `p'` is `p`, or `p` cut where a packet of `post` begins. -/
def CutAt (p : Packet) (post : List Packet) (p' : Packet) : Prop :=
  p' = p ∨ ∃ q ∈ post, ahead p.seq q.seq < p.len ∧
    p' = tcpPacketCutTail p (p.len - ahead p.seq q.seq)

theorem CutAt.seq {p p' : Packet} {post : List Packet} (h : CutAt p post p') : p'.seq = p.seq := by
  rcases h with rfl | ⟨q, -, -, rfl⟩ <;> rfl

theorem CutAt.le_len {p p' : Packet} {post : List Packet} {n : Nat} (h : CutAt p post p')
    (hp : n ≤ p.len) (hq : ∀ q ∈ post, n ≤ ahead p.seq q.seq) : n ≤ p'.len := by
  rcases h with rfl | ⟨q, hmem, hlt, rfl⟩
  · exact hp
  · have := hq q hmem
    rw [cutTail_len]
    omega

theorem CutAt.id {p p' : Packet} {post : List Packet} (h : CutAt p post p') : p'.id = p.id := by
  rcases h with rfl | ⟨q, -, -, rfl⟩ <;> rfl

theorem CutAt.len_le {p p' : Packet} {post : List Packet} (h : CutAt p post p') :
    p'.len ≤ p.len := by
  rcases h with rfl | ⟨q, -, -, rfl⟩
  · exact le_rfl
  · exact Nat.sub_le ..

private theorem endSeq_sub_toInt {p q : Packet} (h : ahead p.seq q.seq < 2 ^ 31) :
    (p.endSeq - q.seq).toInt = (p.len : Int) - ahead p.seq q.seq := by
  have hl := p.len_lt
  unfold Packet.endSeq ahead at *
  rw [BitVec.toInt_eq_toNat_cond]
  split <;> bv_omega

/-- The loop behind the new packet removes exactly the packets that lie inside it. The
induction keeps the next packet less than half the sequence space away: behind a
removed packet it is at most a window away. -/
theorem oooTrimNext_split {pre post : List Packet} {x : RxSt} {p : Packet} {lo : Nat}
    (hsp : Spans (fun q => ahead p.seq q.seq) Packet.len lo post (lo + 2 ^ 26))
    (hhead : ∀ f ∈ post.head?, ahead p.seq f.seq < 2 ^ 31) (hq : x.rcv.ooo = pre ++ post) :
    ∃ gone post' x' p', oooTrimNext pre post x p = (post', x', p') ∧ post = gone ++ post' ∧
      Removal gone x x' ∧ x'.rcv.ooo = pre ++ post' ∧ CutAt p post' p' ∧
      (∀ q ∈ gone, p.Covers q) ∧ ∀ q ∈ post', ¬ p.Covers q := by
  induction post generalizing x lo with
  | nil => exact ⟨[], [], x, p, rfl, rfl, .refl x, hq, .inl rfl, by simp, by simp⟩
  | cons next rest ih =>
    have hnext := hhead next rfl
    have hcut := endSeq_sub_toInt hnext
    have hlen := p.len_lt
    obtain ⟨hlo, hpos, hrest⟩ := hsp
    simp only at hlo hrest
    have hbehind : ∀ q ∈ rest, ahead p.seq next.seq + next.len ≤ ahead p.seq q.seq :=
      fun q hm => (hrest.mem hm).1
    have hkeep : p.len < ahead p.seq next.seq + next.len → ∀ q ∈ next :: rest, ¬ p.Covers q := by
      intro hlt q hm hc
      unfold Packet.Covers at hc
      rcases List.mem_cons.mp hm with rfl | hm
      · omega
      · have := hbehind q hm
        omega
    simp only [oooTrimNext]
    split
    · refine ⟨[], _, x, p, rfl, rfl, .refl x, hq, .inl rfl, by simp, hkeep (by omega)⟩
    · split
      · refine ⟨[], _, x, _, rfl, rfl, .refl x, hq, .inr ⟨next, by simp, by omega, ?_⟩, by simp,
          hkeep (by omega)⟩
        congr 1
        omega
      · obtain ⟨gone, post', x', p', he, hsplit, hrm, hooo, hc, hgone, hleft⟩ :=
          ih (x := (tsockRemoveOooPkt x next (pre ++ rest)).free next)
            (hrest.mono_hi (by omega)) (by
              intro f hf
              have := (hrest.mem (List.mem_of_mem_head? hf)).2.2
              omega) rfl
        refine ⟨next :: gone, post', x', p', he, by rw [hsplit]; rfl, .cons hrm, hooo,
          hc, ?_, hleft⟩
        intro q hm
        rcases List.mem_cons.mp hm with rfl | hm
        · unfold Packet.Covers
          omega
        · exact hgone q hm

/-! ### The limit -/

def Rcv.room (r : Rcv) (p : Packet) : Nat :=
  ahead p.seq (r.rcvNxt + BitVec.ofNat 32 r.rcvWnd)

theorem oooQueueInsert_error {cfg : TcpCfg} {x : RxSt} {pre post : List Packet} {p : Packet}
    (h : (oooQueueInsert cfg x pre post p).1 ≠ none) :
    (oooQueueInsert cfg x pre post p).2.1 = x := by
  simp only [oooQueueInsert] at h ⊢
  generalize (if 0 < (p.endSeq - (x.rcv.rcvNxt + BitVec.ofNat 32 x.rcv.rcvWnd)).toInt then
    tcpPacketCutTail p _ else p) = p' at h ⊢
  split
  · rfl
  · rename_i h0
    rw [if_neg h0] at h
    split
    · rfl
    · rename_i h1
      rw [if_neg h1] at h
      exact absurd rfl h

private theorem window_cut {r : Rcv} {p : Packet} (hnear : r.room p < 2 ^ 31) :
    (p.endSeq - (r.rcvNxt + BitVec.ofNat 32 r.rcvWnd)).toInt = (p.len : Int) - r.room p := by
  have hl := p.len_lt
  unfold Rcv.room ahead at *
  unfold Packet.endSeq
  rw [BitVec.toInt_eq_toNat_cond]
  split <;> bv_omega

theorem oooQueueInsert_refused {cfg : TcpCfg} {x : RxSt} {pre post : List Packet} {p : Packet}
    (hlen : 0 < p.len) (hroom : 0 < x.rcv.room p) (hnear : x.rcv.room p < 2 ^ 31) :
    (oooQueueInsert cfg x pre post p).1 ≠ none ↔
      p.seq ≠ x.rcv.rcvNxt ∧ cfg.rcvOooLimit ≤ x.rcv.nrOooPkt.toNat := by
  have hcut := window_cut hnear
  obtain ⟨p', hp', hseq, hpos⟩ : ∃ p', p' = (if 0 < (p.len : Int) - x.rcv.room p then
      tcpPacketCutTail p ((p.len : Int) - x.rcv.room p).toNat else p) ∧ p'.seq = p.seq ∧
        p'.len ≠ 0 := by
    refine ⟨_, rfl, ?_⟩
    split
    · refine ⟨rfl, ?_⟩
      rw [cutTail_len]
      omega
    · exact ⟨rfl, by omega⟩
  simp only [oooQueueInsert, hcut]
  rw [← hp', if_neg hpos, hseq]
  split
  · rename_i hr
    exact ⟨fun _ => hr, fun _ => by simp⟩
  · rename_i hr
    exact ⟨fun h => absurd rfl h, fun h => absurd h hr⟩

theorem oooQueueInsert_packet (cfg : TcpCfg) (x : RxSt) (pre post : List Packet) (p : Packet) :
    (oooQueueInsert cfg x pre post p).2.2.seq = p.seq ∧
      (oooQueueInsert cfg x pre post p).2.2.id = p.id ∧
      (oooQueueInsert cfg x pre post p).2.2.len ≤ p.len ∧
      ∀ n, n ≤ p.len → n ≤ x.rcv.room p → x.rcv.room p < 2 ^ 31 →
        n ≤ (oooQueueInsert cfg x pre post p).2.2.len := by
  obtain ⟨p', hp', hseq, hid, hlen, hn⟩ : ∃ p', p' = (if 0 < (p.endSeq -
        (x.rcv.rcvNxt + BitVec.ofNat 32 x.rcv.rcvWnd)).toInt then tcpPacketCutTail p (p.endSeq -
        (x.rcv.rcvNxt + BitVec.ofNat 32 x.rcv.rcvWnd)).toInt.toNat else p) ∧ p'.seq = p.seq ∧
        p'.id = p.id ∧ p'.len ≤ p.len ∧
        ∀ n, n ≤ p.len → n ≤ x.rcv.room p → x.rcv.room p < 2 ^ 31 → n ≤ p'.len := by
    refine ⟨_, rfl, ?_⟩
    split
    · refine ⟨rfl, rfl, Nat.sub_le .., fun n h1 h2 h3 => ?_⟩
      rw [window_cut h3, cutTail_len]
      omega
    · exact ⟨rfl, rfl, le_rfl, fun n h1 _ _ => h1⟩
  have hp : (oooQueueInsert cfg x pre post p).2.2 = p' := by
    simp only [oooQueueInsert]
    rw [← hp']
    split
    · rfl
    · split <;> rfl
  rw [hp]
  exact ⟨hseq, hid, hlen, hn⟩

theorem oooQueueInsert_ok {cfg : TcpCfg} {x : RxSt} {pre post : List Packet} {p : Packet}
    (h : (oooQueueInsert cfg x pre post p).1 = none) :
    ∃ n, (oooQueueInsert cfg x pre post p).2.1.rcv = { x.rcv with
      ooo := pre ++ (oooQueueInsert cfg x pre post p).2.2 :: post
      sackBlocks := sackUpdate x.rcv (oooQueueInsert cfg x pre post p).2.2.seq
        (oooQueueInsert cfg x pre post p).2.2.len
      nrOooPkt := n
      lastOooPkt := some (oooQueueInsert cfg x pre post p).2.2.id } := by
  simp only [oooQueueInsert] at h ⊢
  generalize (if 0 < (p.endSeq - (x.rcv.rcvNxt + BitVec.ofNat 32 x.rcv.rcvWnd)).toInt then
    tcpPacketCutTail p _ else p) = p' at h ⊢
  by_cases h0 : p'.len = 0
  · rw [if_pos h0] at h
    cases h
  · rw [if_neg h0] at h ⊢
    by_cases h1 : p'.seq ≠ x.rcv.rcvNxt ∧ cfg.rcvOooLimit ≤ x.rcv.nrOooPkt.toNat
    · rw [if_pos h1] at h
      cases h
    · rw [if_neg h1]
      exact ⟨_, rfl⟩

private theorem filter_split {gone post' : List Packet} {P : Packet → Prop} [DecidablePred P]
    (hg : ∀ q ∈ gone, P q) (hp : ∀ q ∈ post', ¬ P q) :
    (gone ++ post').filter (fun q => P q) = gone ∧
      (gone ++ post').filter (fun q => ¬ P q) = post' := by
  constructor
  · rw [List.filter_append, List.filter_eq_self.mpr (by simpa using hg),
      List.filter_eq_nil_iff.mpr (by simpa using hp), List.append_nil]
  · rw [List.filter_append, List.filter_eq_nil_iff.mpr (by simpa using hg),
      List.filter_eq_self.mpr (by simpa using hp), List.nil_append]

theorem sackUpdate_congr {r r' : Rcv} (hok : r'.sackOk = r.sackOk)
    (hb : r'.sackBlocks = r.sackBlocks) (start : U32) (len : Nat) :
    sackUpdate r' start len = sackUpdate r start len := by
  unfold sackUpdate
  rw [hok, hb]

/-- What comes of a packet that is placed between `pre` and `post`: `y` is what the call
returns. -/
structure OooPlaced (x : RxSt) (pre post : List Packet) (p : Packet)
    (y : Option Code × RxSt × Packet) :
    Prop where
  seq : y.2.2.seq = p.seq
  id : y.2.2.id = p.id
  len : y.2.2.len ≤ p.len
  reach : ∀ n, n ≤ p.len → (∀ q ∈ post, ¬ p.Covers q → n ≤ ahead p.seq q.seq) →
    n ≤ x.rcv.room p → x.rcv.room p < 2 ^ 31 → n ≤ y.2.2.len
  sackOk : y.2.1.rcv.sackOk = x.rcv.sackOk
  left : y.1 ≠ none → y.2.1.rcv.ooo = pre ++ post.filter fun q => ¬ p.Covers q
  blocks : y.1 ≠ none → y.2.1.rcv.sackBlocks = x.rcv.sackBlocks
  last : y.1 ≠ none → (post.filter fun q => p.Covers q) = [] →
    y.2.1.rcv.lastOooPkt = x.rcv.lastOooPkt
  stored : y.1 = none → y.2.1.rcv.ooo = pre ++ y.2.2 :: post.filter fun q => ¬ p.Covers q
  newBlocks : y.1 = none → y.2.1.rcv.sackBlocks = sackUpdate x.rcv y.2.2.seq y.2.2.len
  newLast : y.1 = none → y.2.1.rcv.lastOooPkt = some y.2.2.id

/-- A packet is in the queue; `p` was stored and the others are still there or inside it. -/
structure Stored (old : List Packet) (r r' : Rcv) (p : Packet) : Prop where
  mem : p ∈ r'.ooo
  keeps : ∀ q ∈ old, q ∈ r'.ooo ∨ p.Covers q
  only : ∀ q ∈ r'.ooo, q = p ∨ q ∈ old
  blocks : r'.sackBlocks = sackUpdate r p.seq p.len
  last : r'.lastOooPkt = some p.id

theorem OooPlaced.toStored {x : RxSt} {pre post : List Packet} {p : Packet}
    {y : Option Code × RxSt × Packet} {lo hi : Nat} (h : OooPlaced x pre post p y) (hy : y.1 = none)
    (hsp : Spans (fun q => ahead p.seq q.seq) Packet.len lo post hi)
    (hroom : ∀ q ∈ post, p.Covers q →
      ahead p.seq q.seq + q.len ≤ x.rcv.room p ∧ x.rcv.room p < 2 ^ 31) :
    Stored (pre ++ post) x.rcv y.2.1.rcv y.2.2 where
  mem := by
    rw [h.stored hy]
    simp
  keeps q hm := by
    rw [h.stored hy]
    rcases List.mem_append.mp hm with hm | hm
    · exact .inl (List.mem_append_left _ hm)
    by_cases hc : p.Covers q
    · refine .inr ?_
      unfold Packet.Covers
      rw [h.seq]
      obtain ⟨hle, hnear⟩ := hroom q hm hc
      refine h.reach _ hc (fun q' hm' hnc => ?_) hle hnear
      unfold Packet.Covers at hc hnc
      rcases hsp.apart hm hm' (fun he => hnc (he ▸ hc)) with hle | hle
      · exact hle
      · omega
    · exact .inl (List.mem_append_right _ (List.mem_cons_of_mem _ (List.mem_filter.mpr
        ⟨hm, decide_eq_true hc⟩)))
  only q hm := by
    rw [h.stored hy] at hm
    simp only [List.mem_append, List.mem_cons] at hm ⊢
    rcases hm with hm | rfl | hm
    · exact .inr (.inl hm)
    · exact .inl rfl
    · exact .inr (.inr (List.mem_of_mem_filter hm))
  blocks := h.newBlocks hy
  last := h.newLast hy

/-- From the packets behind on, and if at least `n` bytes of the packet are new, only the
limit refuses it. -/
theorem oooPlace_placed (cfg : TcpCfg) {x : RxSt} {pre post : List Packet} {p : Packet} {lo : Nat}
    (hsp : Spans (fun q => ahead p.seq q.seq) Packet.len lo post (lo + 2 ^ 26))
    (hhead : ∀ f ∈ post.head?, ahead p.seq f.seq < 2 ^ 31) (hq : x.rcv.ooo = pre ++ post) :
    OooPlaced x pre post p (oooPlace cfg x pre post p) ∧
    ∀ n, 0 < n → n ≤ p.len → (∀ q ∈ post, ¬ p.Covers q → n ≤ ahead p.seq q.seq) →
      0 < x.rcv.room p → x.rcv.room p < 2 ^ 31 →
      ((oooPlace cfg x pre post p).1 ≠ none ↔ p.seq ≠ x.rcv.rcvNxt ∧
        cfg.rcvOooLimit ≤
          (x.rcv.nrOooPkt - BitVec.ofNat 16 (post.filter fun q => p.Covers q).length).toNat) := by
  obtain ⟨gone, post', x', p', he, rfl, hrm, hooo, hcut, hgone, hleft⟩ :=
    oooTrimNext_split hsp hhead hq
  obtain ⟨hf, hf'⟩ := filter_split hgone hleft
  have hedge : x'.rcv.room p' = x.rcv.room p := by
    rw [Rcv.room, Rcv.room, hcut.seq, hrm.edge.nxt, hrm.edge.wnd]
  have hbehind : ∀ n, (∀ q ∈ gone ++ post', ¬ p.Covers q → n ≤ ahead p.seq q.seq) →
      ∀ q ∈ post', n ≤ ahead p.seq q.seq :=
    fun n hn q hm => hn q (List.mem_append_right _ hm) (hleft q hm)
  simp only [oooPlace, he]
  constructor
  · obtain ⟨hseq, hid, hlen, hreach⟩ := oooQueueInsert_packet cfg x' pre post' p'
    have herr := @oooQueueInsert_error cfg x' pre post' p'
    have hok := @oooQueueInsert_ok cfg x' pre post' p'
    generalize oooQueueInsert cfg x' pre post' p' = y at *
    constructor
    · exact hseq.trans hcut.seq
    · exact hid.trans hcut.id
    · exact hlen.trans hcut.len_le
    · intro n h1 h2 h3 h4
      exact hreach n (hcut.le_len h1 (hbehind n h2)) (by rwa [hedge]) (by rwa [hedge])
    · rw [← hrm.sackOk]
      by_cases hy : y.1 = none
      · obtain ⟨k, hk⟩ := hok hy
        rw [hk]
      · rw [herr hy]
    · intro hy
      rw [herr hy, hooo, hf']
    · intro hy
      rw [herr hy, hrm.blocks]
    · intro hy hg
      rw [hf] at hg
      rw [herr hy, hrm.last hg]
    · intro hy
      obtain ⟨k, hk⟩ := hok hy
      rw [hk, hf']
    · intro hy
      obtain ⟨k, hk⟩ := hok hy
      rw [hk]
      exact sackUpdate_congr hrm.sackOk hrm.blocks _ _
    · intro hy
      obtain ⟨k, hk⟩ := hok hy
      rw [hk]
  · intro n hn hnp hnq hroom hnear
    have hlen : n ≤ p'.len := hcut.le_len hnp (hbehind n hnq)
    rw [oooQueueInsert_refused (by omega) (by rwa [hedge]) (by rwa [hedge]), hcut.seq,
      hrm.edge.nxt, hrm.count, hf]

/-! ### The packet in front of the new one -/

private theorem ahead_later {base a b p : U32} (h : ahead base a ≤ ahead base b)
    (hlt : ahead p a + (ahead base b - ahead base a) < 2 ^ 32) :
    ahead p b = ahead p a + (ahead base b - ahead base a) := by
  unfold ahead at *
  bv_omega

private theorem not_seqGt_iff {a p : U32} :
    ¬ seqGt a p ↔ ahead p a = 0 ∨ 2 ^ 31 ≤ ahead p a := by
  rw [seqGt_iff]
  unfold ahead
  omega

private theorem spans_behind {r : Rcv} {post : List Packet} {p : Packet} {lo : Nat}
    (hsp : Spans r.off Packet.len lo post r.rcvWnd) (hw : r.rcvWnd < 2 ^ 26)
    (hhead : ∀ f ∈ post.head?, ahead p.seq f.seq < 2 ^ 31) :
    (∃ lo', Spans (fun q => ahead p.seq q.seq) Packet.len lo' post (lo' + 2 ^ 26)) ∧
      ∀ q ∈ post, (∃ f ∈ post.head?, ahead p.seq f.seq ≤ ahead p.seq q.seq) ∧
        r.room p = ahead p.seq q.seq + (r.rcvWnd - r.off q) := by
  cases post with
  | nil => exact ⟨⟨0, Nat.zero_le _⟩, by simp⟩
  | cons f rest =>
    have hlt := hhead f rfl
    have hlater : ∀ q ∈ f :: rest,
        ahead p.seq q.seq = ahead p.seq f.seq + (r.off q - r.off f) ∧ r.off f ≤ r.off q ∧
          r.off q ≤ r.rcvWnd := by
      intro q hm
      have hle := hsp.head_le hm
      have := (hsp.mem hm).2.2
      exact ⟨ahead_later hle (by unfold Rcv.off at *; omega), hle, by omega⟩
    refine ⟨⟨ahead p.seq f.seq, ?_⟩, ?_⟩
    · have hfirst : Spans r.off Packet.len (r.off f) (f :: rest) r.rcvWnd :=
        hsp.raise (fun q hm => (hlater q hm).2.1)
          (by have := (hsp.mem (List.mem_cons_self ..)).2.2; omega)
      refine hfirst.move ?_ (by omega)
      intro q hm
      obtain ⟨h1, h2, -⟩ := hlater q hm
      omega
    · intro q hm
      obtain ⟨h1, h2, h3⟩ := hlater q hm
      refine ⟨⟨f, rfl, by omega⟩, ?_⟩
      have hedge : ahead r.rcvNxt (r.rcvNxt + BitVec.ofNat 32 r.rcvWnd) = r.rcvWnd :=
        ahead_add_ofNat _ (by omega)
      have := @ahead_later r.rcvNxt q.seq (r.rcvNxt + BitVec.ofNat 32 r.rcvWnd) p.seq
        (by rw [hedge]; exact h3) (by rw [hedge]; unfold Rcv.off at *; omega)
      rwa [hedge] at this

/-- What `tcp_rcv_data_ooo` returns: an error leaves the packets that the new one does
not outgrow, and once something was removed only the limit is an error. -/
structure Judged (cfg : TcpCfg) (r : Rcv) (p : Packet) (y : Option Code × RxSt × Packet) :
    Prop where
  left : y.1 ≠ none → y.2.1.rcv.ooo = r.ooo.filter fun q => ¬ p.Outgrows q
  limit : r.outgrown p ≠ [] → (y.1 ≠ none ↔ p.seq ≠ r.rcvNxt ∧
    cfg.rcvOooLimit ≤ (r.nrOooPkt - BitVec.ofNat 16 (r.outgrown p).length).toNat)
  part : p.Covers y.2.2
  id : y.2.2.id = p.id
  sackOk : y.2.1.rcv.sackOk = r.sackOk
  blocks : y.1 ≠ none → y.2.1.rcv.sackBlocks = r.sackBlocks
  last : y.1 ≠ none → r.outgrown p = [] → y.2.1.rcv.lastOooPkt = r.lastOooPkt
  stored : y.1 = none → Stored r.ooo r y.2.1.rcv y.2.2

theorem Packet.Covers.refl (p : Packet) : p.Covers p := by
  rw [Packet.Covers, ahead_self, Nat.zero_add]

theorem Packet.Covers.trans {p q t : Packet} (h : p.Covers q) (h' : q.Covers t) : p.Covers t := by
  have hp := p.len_lt
  unfold Packet.Covers ahead at *
  bv_omega

theorem Judged.dropped {cfg : TcpCfg} {x : RxSt} {p : Packet}
    (h : ∀ q ∈ x.rcv.ooo, ¬ p.Outgrows q) :
    Judged cfg x.rcv p (some .errTcpRcvOooDup, x, p) where
  left _ := (List.filter_eq_self.mpr (by simpa using h)).symm
  limit hne := absurd (List.filter_eq_nil_iff.mpr (by simpa using h)) hne
  part := .refl p
  id := rfl
  sackOk := rfl
  blocks _ := rfl
  last _ _ := rfl
  stored := by rintro ⟨⟩

theorem OooPlaced.part {x : RxSt} {pre post : List Packet} {p p' : Packet}
    {y : Option Code × RxSt × Packet} (h : OooPlaced x pre post p' y) (hp : p.Covers p') :
    p.Covers y.2.2 := by
  refine hp.trans ?_
  rw [Packet.Covers, h.seq, ahead_self, Nat.zero_add]
  exact h.len

private theorem Judged.keep {cfg : TcpCfg} {x : RxSt} {p p' : Packet}
    {pre post : List Packet} {lo : Nat} (hq : x.rcv.ooo = pre ++ post)
    (hpost : Spans x.rcv.off Packet.len lo post x.rcv.rcvWnd) (hw : x.rcv.rcvWnd < 2 ^ 26)
    (hhead : ∀ f ∈ post.head?, ahead p'.seq f.seq < 2 ^ 31)
    (hpre : ∀ q ∈ pre, ¬ p.Outgrows q) (hsame : ∀ q ∈ post, p.Outgrows q ↔ p'.Covers q)
    (hseq : p'.seq ≠ x.rcv.rcvNxt ↔ p.seq ≠ x.rcv.rcvNxt) (hpart : p.Covers p')
    (hid : p'.id = p.id) :
    Judged cfg x.rcv p (oooPlace cfg x pre post p') := by
  obtain ⟨⟨lo', hsp⟩, hroom⟩ := spans_behind hpost hw hhead
  obtain ⟨hpl, hlim⟩ := oooPlace_placed cfg hsp hhead hq
  have hgone : x.rcv.outgrown p = post.filter fun q => p'.Covers q := by
    rw [Rcv.outgrown, hq, List.filter_append, List.filter_eq_nil_iff.mpr (by simpa using hpre),
      List.nil_append]
    exact List.filter_congr fun q hm => by simp [hsame q hm]
  have hkeep : pre.filter (fun q => ¬ p.Outgrows q) = pre :=
    List.filter_eq_self.mpr (by simpa using hpre)
  have hl := p'.len_lt
  constructor
  · intro he
    rw [hpl.left he, hq, List.filter_append, hkeep]
    exact congrArg (pre ++ ·) (List.filter_congr fun q hm => by simp [hsame q hm])
  · intro hne
    rw [hgone] at hne ⊢
    obtain ⟨q₀, hm₀⟩ := List.exists_mem_of_ne_nil _ hne
    obtain ⟨hmem, hc⟩ := List.mem_filter.mp hm₀
    have hc : p'.Covers q₀ := of_decide_eq_true hc
    have hr := (hroom q₀ hmem).2
    have hb := hsp.mem hmem
    have hb' := hpost.mem hmem
    unfold Packet.Covers at hc
    rw [← hseq]
    refine hlim (ahead p'.seq q₀.seq + q₀.len) (by omega) hc ?_ (by omega) (by omega)
    intro q hm hnc
    unfold Packet.Covers at hnc
    have hne' : q₀ ≠ q := by
      rintro rfl
      exact hnc hc
    rcases hsp.apart hmem hm hne' with hle | hle
    · exact hle
    · omega
  · exact hpl.part hpart
  · exact hpl.id.trans hid
  · exact hpl.sackOk
  · exact hpl.blocks
  · intro he hnil
    exact hpl.last he (hgone ▸ hnil)
  · intro hy
    rw [hq]
    refine hpl.toStored hy hsp fun q hm hc => ?_
    have hr := (hroom q hm).2
    have hb := hpost.mem hm
    unfold Packet.Covers at hc
    omega

private theorem Judged.replace {cfg : TcpCfg} {x : RxSt} {p prev : Packet} {pre post : List Packet}
    (hq : x.rcv.ooo = pre ++ prev :: post)
    (hsp : Spans x.rcv.off Packet.len 0 x.rcv.ooo x.rcv.rcvWnd) (hw : x.rcv.rcvWnd < 2 ^ 26)
    (hseq : p.seq = prev.seq) (hlen : prev.len < p.len) (hpre : ∀ q ∈ pre, ¬ p.Outgrows q) :
    Judged cfg x.rcv p
      (oooPlace cfg ((tsockRemoveOooPkt x prev (pre ++ post)).free prev) pre post p) := by
  have hprev := hsp.mem (a := prev) (by rw [hq]; simp)
  have hoff : x.rcv.off p = x.rcv.off prev := by rw [Rcv.off, Rcv.off, hseq]
  obtain ⟨m, -, hback⟩ := spans_append.mp (hq ▸ hsp)
  have hbehind : ∀ q ∈ post, ahead p.seq q.seq = x.rcv.off q - x.rcv.off prev ∧
      prev.len ≤ ahead p.seq q.seq ∧ x.rcv.off q + q.len ≤ x.rcv.rcvWnd := by
    intro q hm
    have hb := hback.2.2.mem hm
    have := @ahead_later x.rcv.rcvNxt p.seq q.seq p.seq (by unfold Rcv.off at *; omega)
      (by rw [ahead_self]; unfold Rcv.off at *; omega)
    rw [ahead_self, Nat.zero_add] at this
    unfold Rcv.off at *
    omega
  have hpost : Spans (fun q => ahead p.seq q.seq) Packet.len prev.len post (prev.len + 2 ^ 26) :=
    hback.2.2.move (fun q hm => by
      obtain ⟨h1, h2, h3⟩ := hbehind q hm
      omega) (by omega)
  have hhead : ∀ f ∈ post.head?, ahead p.seq f.seq < 2 ^ 31 := by
    intro f hf
    have := hbehind f (List.mem_of_mem_head? hf)
    omega
  have hrest : ((tsockRemoveOooPkt x prev (pre ++ post)).free prev).rcv.ooo = pre ++ post := rfl
  obtain ⟨hpl, hlim⟩ := oooPlace_placed cfg hpost hhead hrest
  have hout : p.Outgrows prev := ⟨by rw [Packet.Covers, hseq, ahead_self]; omega, hlen⟩
  have hsame : ∀ q ∈ post, p.Outgrows q ↔ p.Covers q := by
    intro q hm
    obtain ⟨-, h2, -⟩ := hbehind q hm
    refine ⟨fun h => h.1, fun h => ⟨h, ?_⟩⟩
    unfold Packet.Covers at h
    omega
  have hkeep : pre.filter (fun q => ¬ p.Outgrows q) = pre :=
    List.filter_eq_self.mpr (by simpa using hpre)
  have hgone : x.rcv.outgrown p = prev :: post.filter fun q => p.Covers q := by
    rw [Rcv.outgrown, hq, List.filter_append, List.filter_eq_nil_iff.mpr (by simpa using hpre),
      List.nil_append, List.filter_cons_of_pos (by simpa using hout)]
    exact congrArg (prev :: ·) (List.filter_congr fun q hm => by simp [hsame q hm])
  have hroom : Rcv.room ((tsockRemoveOooPkt x prev (pre ++ post)).free prev).rcv p =
      x.rcv.rcvWnd - x.rcv.off prev := by
    have hedge : ahead x.rcv.rcvNxt (x.rcv.rcvNxt + BitVec.ofNat 32 x.rcv.rcvWnd) = x.rcv.rcvWnd :=
      ahead_add_ofNat _ (by omega)
    have := @ahead_later x.rcv.rcvNxt p.seq (x.rcv.rcvNxt + BitVec.ofNat 32 x.rcv.rcvWnd) p.seq
      (by rw [hedge]; unfold Rcv.off at *; omega) (by rw [ahead_self, hedge]; omega)
    rw [hedge, ahead_self, Nat.zero_add] at this
    change x.rcv.room p = _
    unfold Rcv.off at *
    rw [Rcv.room, this, hoff]
  have hfresh : ∀ q ∈ post, ¬ p.Covers q → prev.len ≤ ahead p.seq q.seq :=
    fun q hm _ => (hbehind q hm).2.1
  constructor
  · intro he
    rw [hpl.left he, hq, List.filter_append, hkeep, List.filter_cons_of_neg (by simpa using hout)]
    exact congrArg (pre ++ ·) (List.filter_congr fun q hm => by simp [hsame q hm])
  · intro _
    rw [hlim prev.len hprev.2.1 hlen.le hfresh (by rw [hroom]; omega) (by rw [hroom]; omega), hgone,
      List.length_cons]
    change _ ∧ _ ≤ (x.rcv.nrOooPkt - 1 - _).toNat ↔ _
    have : ∀ k, x.rcv.nrOooPkt - 1 - BitVec.ofNat 16 k =
      x.rcv.nrOooPkt - BitVec.ofNat 16 (k + 1) := by
      intro k
      bv_omega
    rw [this]
    rfl
  · exact hpl.part (.refl p)
  · exact hpl.id
  · exact hpl.sackOk
  · exact hpl.blocks
  · intro _ hnil
    rw [hgone] at hnil
    cases hnil
  · intro hy
    have hst := hpl.toStored hy hpost fun q hm _ => by
      obtain ⟨h1, h2, h3⟩ := hbehind q hm
      omega
    have hlen' := hpl.reach prev.len hlen.le hfresh (by rw [hroom]; omega) (by rw [hroom]; omega)
    have hcov :
      (oooPlace cfg ((tsockRemoveOooPkt x prev (pre ++ post)).free prev) pre post p).2.2.Covers
        prev := by
      rw [Packet.Covers, hpl.seq, hseq, ahead_self, Nat.zero_add]
      exact hlen'
    rw [hq]
    refine ⟨hst.mem, fun q hm => ?_, fun q hm => ?_, ?_, hst.last⟩
    · rcases List.mem_append.mp hm with hm | hm
      · exact hst.keeps q (List.mem_append_left _ hm)
      · rcases List.mem_cons.mp hm with rfl | hm
        · exact .inr hcov
        · exact hst.keeps q (List.mem_append_right _ hm)
    · refine (hst.only q hm).imp_right fun hm => ?_
      rcases List.mem_append.mp hm with hm | hm
      · exact List.mem_append_left _ hm
      · exact List.mem_append_right _ (List.mem_cons_of_mem _ hm)
    · rw [hst.blocks]
      exact sackUpdate_congr rfl rfl _ _

private theorem not_outgrows_of_behind {p q : Packet} (h : ¬ seqGt q.seq p.seq)
    (hne : q.seq ≠ p.seq) : ¬ p.Outgrows q := by
  rintro ⟨hc, -⟩
  have hl := p.len_lt
  unfold Packet.Covers at hc
  rcases not_seqGt_iff.mp h with h0 | h31
  · exact hne (ahead_eq_zero.mp h0)
  · omega

private theorem prev_endSeq_sub {p prev : Packet} (h : ¬ seqGt prev.seq p.seq) :
    (prev.endSeq - p.seq).toInt = (prev.len : Int) - ahead prev.seq p.seq := by
  have hl := prev.len_lt
  have h' := not_seqGt_iff.mp h
  unfold Packet.endSeq ahead at *
  rw [BitVec.toInt_eq_toNat_cond]
  split <;> bv_omega

private structure Split (r : Rcv) (p : Packet) (pre post : List Packet) : Prop where
  ooo : r.ooo = pre ++ post
  spans : Spans r.off Packet.len 0 r.ooo r.rcvWnd
  wnd : r.rcvWnd < 2 ^ 26
  front : ∀ q ∈ pre, ¬ seqGt q.seq p.seq
  behind : ∀ f ∈ post.head?, seqGt f.seq p.seq

private theorem Split.init {r : Rcv} {p prev : Packet} {init post : List Packet}
    (h : Split r p (init ++ [prev]) post) : ∀ q ∈ init, ¬ p.Outgrows q := by
  intro q hm
  refine not_outgrows_of_behind (h.front q (by simp [hm])) fun hs => ?_
  have hsp := h.spans
  rw [h.ooo, List.append_assoc] at hsp
  have hpq := List.pairwise_append.mp hsp.pairwise
  have hlt := hpq.2.2 q hm prev (by simp)
  have hq := hsp.mem (a := q) (by simp [hm])
  have hp := hsp.mem (a := prev) (by simp)
  have hw := h.wnd
  refine h.front prev (by simp) ((seqGt_iff ..).mpr ?_)
  unfold Rcv.off ahead at *
  bv_omega

private theorem Split.tail {r : Rcv} {p prev : Packet} {init post : List Packet}
    (h : Split r p (init ++ [prev]) post) :
    Spans r.off Packet.len (r.off prev + prev.len) post r.rcvWnd ∧
      r.off prev + prev.len ≤ r.rcvWnd ∧ 0 < prev.len := by
  have hsp := h.spans
  rw [h.ooo, List.append_assoc] at hsp
  obtain ⟨m, -, h2⟩ := spans_append.mp hsp
  exact ⟨h2.2.2, h2.2.2.le, h2.2.1⟩

private theorem Split.kept {r : Rcv} {p prev : Packet} {init post : List Packet}
    (h : Split r p (init ++ [prev]) post) (hrep : ¬ (p.seq = prev.seq ∧ prev.len < p.len)) :
    ∀ q ∈ init ++ [prev], ¬ p.Outgrows q := by
  intro q hm
  rcases List.mem_append.mp hm with hm | hm
  · exact h.init q hm
  · rw [List.mem_singleton.mp hm]
    rintro ⟨hc, hlt⟩
    by_cases hs : p.seq = prev.seq
    · exact hrep ⟨hs, hlt⟩
    · exact not_outgrows_of_behind (h.front prev (by simp)) (Ne.symm hs) ⟨hc, hlt⟩

private theorem Split.inside {r : Rcv} {p prev : Packet} {init post : List Packet}
    (h : Split r p (init ++ [prev]) post) (hrep : ¬ (p.seq = prev.seq ∧ prev.len < p.len))
    (hpos : 0 < (prev.endSeq - p.seq).toInt) (hin : (p.len : Int) ≤ (prev.endSeq - p.seq).toInt) :
    ∀ q ∈ r.ooo, ¬ p.Outgrows q := by
  rw [prev_endSeq_sub (h.front prev (by simp))] at hpos hin
  obtain ⟨hsp, hle, -⟩ := h.tail
  have hw := h.wnd
  intro q hm
  rw [h.ooo] at hm
  rcases List.mem_append.mp hm with hm | hm
  · exact h.kept hrep q hm
  · rintro ⟨hc, -⟩
    have hq := hsp.mem hm
    unfold Packet.Covers Rcv.off ahead at *
    bv_omega

private theorem Split.outgrows_iff {r : Rcv} {p : Packet} {pre post : List Packet} {lo : Nat}
    (h : Split r p pre post) (hsp : Spans r.off Packet.len lo post r.rcvWnd) :
    ∀ q ∈ post, p.Outgrows q ↔ p.Covers q := by
  intro q hm
  have hhead : ∀ f ∈ post.head?, 0 < ahead p.seq f.seq ∧ ahead p.seq f.seq < 2 ^ 31 :=
    fun f hf => (seqGt_iff ..).mp (h.behind f hf)
  obtain ⟨f, hf, hle⟩ := ((spans_behind hsp h.wnd fun f hf => (hhead f hf).2).2 q hm).1
  have := (hhead f hf).1
  refine ⟨fun hg => hg.1, fun hc => ⟨hc, ?_⟩⟩
  unfold Packet.Covers at hc
  omega

/-- The new packet begins inside the one in front of it and ends behind it: it is cut
where that one ends, which moves nothing behind it in or out of it. -/
private theorem Split.cutHead {r : Rcv} {p prev : Packet} {init post : List Packet} {n : Nat}
    (h : Split r p (init ++ [prev]) post) (hrep : ¬ (p.seq = prev.seq ∧ prev.len < p.len))
    (hn : n + ahead prev.seq p.seq = prev.len) (hpos : 0 < n) (hlt : n < p.len) :
    (∀ f ∈ post.head?, ahead (tcpPacketCutHead p n).seq f.seq < 2 ^ 31) ∧
      (∀ q ∈ post, p.Covers q ↔ (tcpPacketCutHead p n).Covers q) ∧
      ((tcpPacketCutHead p n).seq ≠ r.rcvNxt ↔ p.seq ≠ r.rcvNxt) := by
  obtain ⟨hsp, hle, hprev⟩ := h.tail
  have hw := h.wnd
  have hpl := p.len_lt
  rw [cutHead_seq]
  refine ⟨?_, ?_, ?_⟩
  · intro f hf
    have hb := hsp.mem (List.mem_of_mem_head? hf)
    unfold Rcv.off ahead at *
    bv_omega
  · intro q hm
    have hb := hsp.mem hm
    unfold Packet.Covers
    rw [cutHead_seq, cutHead_len]
    unfold Rcv.off ahead at *
    bv_omega
  · refine ⟨fun _ hs => ?_, fun _ hs => ?_⟩
    · refine hrep ⟨?_, ?_⟩
      · unfold Rcv.off ahead at *
        bv_omega
      · unfold Rcv.off ahead at *
        bv_omega
    · unfold Rcv.off ahead at *
      bv_omega

private theorem covers_cutHead {p : Packet} {n : Nat} (h : n ≤ p.len) :
    p.Covers (tcpPacketCutHead p n) := by
  have hp := p.len_lt
  rw [Packet.Covers, cutHead_seq, cutHead_len]
  unfold ahead
  bv_omega

private theorem Split.judged {cfg : TcpCfg} {x : RxSt} {p : Packet} {pre post : List Packet}
    (h : Split x.rcv p pre post) :
    Judged cfg x.rcv p (match oooFitPrev pre.getLast? p with
      | .drop => (some .errTcpRcvOooDup, x, p)
      | .replace prev =>
        oooPlace cfg ((tsockRemoveOooPkt x prev (pre.dropLast ++ post)).free prev)
          pre.dropLast post p
      | .keep p => oooPlace cfg x pre post p) := by
  have hhead : ∀ f ∈ post.head?, ahead p.seq f.seq < 2 ^ 31 :=
    fun f hf => ((seqGt_iff ..).mp (h.behind f hf)).2
  rcases List.eq_nil_or_concat' pre with rfl | ⟨init, prev, rfl⟩
  · have hsp := h.spans
    rw [h.ooo, List.nil_append] at hsp
    exact Judged.keep h.ooo hsp h.wnd hhead (by simp) (h.outgrows_iff hsp) Iff.rfl (.refl p) rfl
  have hprev := h.front prev (by simp)
  have hcut := prev_endSeq_sub hprev
  obtain ⟨hsp, hle, hpos⟩ := h.tail
  simp only [List.getLast?_append, List.getLast?_singleton, Option.some_or, oooFitPrev,
    List.dropLast_concat]
  by_cases hrep : p.seq = prev.seq ∧ prev.len < p.len
  · rw [if_pos hrep]
    refine Judged.replace ?_ h.spans h.wnd hrep.1 hrep.2 h.init
    rw [h.ooo, List.append_assoc]
    rfl
  rw [if_neg hrep]
  have hpre := h.kept hrep
  by_cases hreach : 0 < (prev.endSeq - p.seq).toInt
  · rw [if_pos hreach]
    by_cases hin : (p.len : Int) ≤ (prev.endSeq - p.seq).toInt
    · rw [if_pos hin]
      exact .dropped (h.inside hrep hreach hin)
    · rw [if_neg hin]
      obtain ⟨n, hn⟩ : ∃ n : Nat, (prev.endSeq - p.seq).toInt = n :=
        ⟨_, (Int.toNat_of_nonneg hreach.le).symm⟩
      rw [hn] at hreach hin hcut ⊢
      obtain ⟨h1, h2, h3⟩ := h.cutHead (n := n) hrep (by omega) (by omega) (by omega)
      exact Judged.keep h.ooo hsp h.wnd h1 hpre
        (fun q hm => (h.outgrows_iff hsp q hm).trans (h2 q hm)) h3 (covers_cutHead (by omega)) rfl
  · rw [if_neg hreach]
    exact Judged.keep h.ooo hsp h.wnd hhead hpre (h.outgrows_iff hsp) Iff.rfl (.refl p) rfl

private theorem predict_outgrows {r : Rcv} {p : Packet}
    (hsp : Spans r.off Packet.len 0 r.ooo r.rcvWnd) (hw : r.rcvWnd < 2 ^ 26) (h : oooPredict r p) :
    ∀ q ∈ r.ooo, ¬ p.Outgrows q := by
  unfold oooPredict at h
  split at h
  case h_2 => cases h
  rename_i i l _ hl
  obtain ⟨-, hseq⟩ := of_decide_eq_true h
  obtain ⟨init, hinit⟩ := List.getLast?_eq_some_iff.mp hl
  have hlast := hsp
  rw [hinit] at hlast
  have hlb := (hlast.mem (a := l) (by simp)).2.2
  rintro q hm ⟨hc, -⟩
  have hq := hsp.mem hm
  have hql : r.off q + q.len ≤ r.off l + l.len := by
    rw [hinit] at hm
    exact (hlast.last.mem hm).2.2
  have hpl := p.len_lt
  have hll := l.len_lt
  unfold Packet.Covers at hc
  unfold Packet.endSeq Rcv.off ahead at *
  bv_omega

theorem tcpRcvDataOoo_judged (cfg : TcpCfg) (tsUs : Nat) {x : RxSt} (p : Packet)
    (hsp : Spans x.rcv.off Packet.len 0 x.rcv.ooo x.rcv.rcvWnd) (hw : x.rcv.rcvWnd < 2 ^ 26) :
    Judged cfg x.rcv p (tcpRcvDataOoo cfg tsUs x p) := by
  obtain ⟨x', hx', hrcv⟩ : ∃ x', x' = (if x.rcv.nrOooPkt = 0
      then { x with rcv := { x.rcv with oooStartTs := BitVec.ofNat 32 tsUs } } else x) ∧
      ∃ ts, x'.rcv = { x.rcv with oooStartTs := ts } := by
    refine ⟨_, rfl, ?_⟩
    split
    · exact ⟨_, rfl⟩
    · exact ⟨x.rcv.oooStartTs, rfl⟩
  obtain ⟨ts, hrcv⟩ := hrcv
  have hsp' : Spans x'.rcv.off Packet.len 0 x'.rcv.ooo x'.rcv.rcvWnd := by rwa [hrcv]
  have hw' : x'.rcv.rcvWnd < 2 ^ 26 := by rwa [hrcv]
  suffices h : Judged cfg x'.rcv p (tcpRcvDataOoo cfg tsUs x p) by
    rw [hrcv] at h
    exact ⟨h.left, h.limit, h.part, h.id, h.sackOk, h.blocks, h.last, fun hy =>
      ⟨(h.stored hy).mem, (h.stored hy).keeps, (h.stored hy).only, (h.stored hy).blocks,
        (h.stored hy).last⟩⟩
  simp only [tcpRcvDataOoo]
  rw [← hx']
  split
  · rename_i hpred
    have hq : x'.rcv.ooo = x'.rcv.ooo ++ [] := (List.append_nil _).symm
    change Judged cfg x'.rcv p (oooPlace cfg x' x'.rcv.ooo [] p)
    exact Judged.keep hq (spans_nil.mpr le_rfl) hw' (by simp) (predict_outgrows hsp' hw' hpred)
      (by simp) Iff.rfl (.refl p) rfl
  · refine Split.judged ⟨(List.takeWhile_append_dropWhile ..).symm, hsp', hw', ?_, ?_⟩
    · intro q hm
      simpa using List.mem_takeWhile_imp hm
    · intro f hf
      have := List.head?_dropWhile_not (p := fun q : Packet => decide ¬ seqGt q.seq p.seq)
        (l := x'.rcv.ooo)
      rw [Option.mem_def.mp hf] at this
      simpa using this

theorem heldBytes_lost {r : Rcv} {q : Packet} {l : List Packet}
    (hsp : Spans r.off Packet.len 0 r.ooo r.rcvWnd) (hw : r.rcvWnd < 2 ^ 26)
    (hal : ∀ p ∈ r.ooo, p.Aligned) (hq : q ∈ r.ooo) (hsub : ∀ p ∈ l, p ∈ r.ooo ∧ p ≠ q) :
    ¬ heldBytes r.ooo ⊆ heldBytes l := by
  intro h
  have hb := hsp.mem hq
  have hlen := (hal q hq).bytes_length
  have h0 : 0 < q.bytes.length := by omega
  obtain ⟨p, hp, i, hi, hs⟩ := h (a := (q.seq, q.bytes.get ⟨0, h0⟩))
    ⟨q, hq, 0, List.getElem?_eq_getElem h0, by simp⟩
  obtain ⟨hpm, hne⟩ := hsub p hp
  have hpb := hsp.mem hpm
  have hil : i < p.bytes.length := (List.getElem?_eq_some_iff.mp hi).1
  rw [(hal p hpm).bytes_length] at hil
  have hoff : r.off q = r.off p + i := by
    change q.seq = _ at hs
    unfold Rcv.off
    rw [hs]
    exact ahead_add (by unfold Rcv.off at hpb; omega)
  have := hsp.apart hpm hq hne
  omega

/-- A packet that `tcp_rcv_data_ooo` rejects costs no queued byte, except when the
limit refuses it after it has removed queued packets. -/
theorem tcpRcvDataOoo_reject_iff {C : SegPred Byte} {share : U32} {k : Nat}
    (cfg : TcpCfg) (tsUs : Nat) (x : RxSt) (p : Packet) (h : RcvInv C share k x) :
    ((tcpRcvDataOoo cfg tsUs x p).1 ≠ none →
      heldBytes x.rcv.ooo ⊆ heldBytes (tcpRcvDataOoo cfg tsUs x p).2.1.rcv.ooo) ↔
      ¬ RefusedAfterRemoval cfg x.rcv p := by
  obtain ⟨hleft, hlimit, -⟩ := tcpRcvDataOoo_judged cfg tsUs p h.spans h.wnd_lt
  constructor
  · rintro hheld ⟨hne, href⟩
    have he := (hlimit hne).mpr href
    have hlost := hheld he
    rw [hleft he] at hlost
    obtain ⟨q, hq⟩ := List.exists_mem_of_ne_nil _ hne
    obtain ⟨hmem, hout⟩ := List.mem_filter.mp hq
    refine heldBytes_lost h.spans h.wnd_lt h.oooAligned hmem (fun r hr => ?_) hlost
    obtain ⟨hr, hkept⟩ := List.mem_filter.mp hr
    refine ⟨hr, ?_⟩
    rintro rfl
    exact of_decide_eq_true hkept (of_decide_eq_true hout)
  · intro href he
    rw [hleft he]
    by_cases hne : x.rcv.outgrown p = []
    · have hall := List.filter_eq_nil_iff.mp hne
      rw [List.filter_eq_self.mpr (by simpa using hall)]
    · exact absurd ⟨hne, (hlimit hne).mp he⟩ href

def twoQueued : RxSt where
  rcv := { (tsockInit {} 0 false).rcv with
    rcvNxt := 101
    ooo := [.oneByte 1 111 1 0 { ack := true } 7, .oneByte 2 121 1 0 { ack := true } 8]
    nrOooPkt := 2 }
  rx := { nrOooMbuf := 2, nrInProcessMbuf := 0, freed := [] }

theorem twoQueued_inv : RcvInv .any 0 0 twoQueued where
  spans := ⟨by decide, by decide, by decide, by decide, spans_nil.mpr (by decide)⟩
  wnd := rfl
  size := by decide
  count := rfl
  mbufs := rfl
  last := by rintro i ⟨⟩
  oooAligned := by
    intro p hp
    rcases List.mem_cons.mp hp with rfl | hp
    · exact ⟨1, rfl⟩
    · rw [List.mem_singleton.mp hp]
      exact ⟨1, rfl⟩
  rxqAligned := by rintro p ⟨⟩
  content := fun _ _ => trivial

def gapByte : Packet := .oneByte 3 115 1 0 { ack := true } 9

theorem tcpRcvDataOoo_reject_gapByte :
    (tcpRcvDataOoo { rcvOooLimit := 1 } 0 twoQueued gapByte).1 = some .errTcpRcvOooLimit ∧
      heldBytes twoQueued.rcv.ooo ⊆
        heldBytes (tcpRcvDataOoo { rcvOooLimit := 1 } 0 twoQueued gapByte).2.1.rcv.ooo :=
  ⟨by decide, (tcpRcvDataOoo_reject_iff { rcvOooLimit := 1 } 0 twoQueued gapByte twoQueued_inv).mpr
    (by decide) (by decide)⟩

theorem wideText_fits : [(6 : Byte), 7, 8].length < 2 ^ 16 := by decide

def wideText : Packet := .parsed 3 110 1 0 { ack := true } [] [6, 7, 8] wideText_fits

/-- With the same limit the three bytes are refused after the one inside them is gone. -/
theorem wideText_loses_byte :
    RcvInv .any 0 0 twoQueued ∧
      (tcpRcvDataOoo { rcvOooLimit := 1 } 0 twoQueued wideText).1 = some .errTcpRcvOooLimit ∧
      (111, 7) ∈ heldBytes twoQueued.rcv.ooo ∧
      (111,
        7) ∉ heldBytes (tcpRcvDataOoo { rcvOooLimit := 1 } 0 twoQueued wideText).2.1.rcv.ooo := by
  refine ⟨twoQueued_inv, by decide, ⟨_, List.mem_cons_self .., 0, rfl, rfl⟩, ?_⟩
  have hooo : (tcpRcvDataOoo { rcvOooLimit := 1 } 0 twoQueued wideText).2.1.rcv.ooo =
      [.oneByte 2 121 1 0 { ack := true } 8] := by decide
  rintro ⟨p, hp, i, hi, hs⟩
  rw [List.mem_singleton.mp hp] at hi hs
  have hlt := (List.getElem?_eq_some_iff.mp hi).1
  have h0 : i = 0 := Nat.lt_one_iff.mp hlt
  rw [h0] at hs
  exact absurd hs (by decide)

end LibTpa
