/- LibTpa/Rcv/Run
   digest: The reassembly law over every run of data, reads and drops. -/

import LibTpa.Rcv.Delivery
import LibTpa.Sock.Init
import LibTpa.Lib.Run

set_option autoImplicit false

namespace LibTpa

open Lib.SerialNumber Lib.SpanList Lib.Stream Lib.Run

variable {C : SegPred Byte} {share : U32} {k : Nat} {x : RxSt}

/-! Reads and drops keep the receive invariant. -/

theorem dropOooTail_inv (n : Nat) (h : RcvInv C share k x) :
    RcvInv C share k (dropOooTail n x) := by
  induction n generalizing x with
  | zero => exact h
  | succ n ih =>
    unfold dropOooTail
    split
    · exact ih h
    · rename_i p hl
      obtain ⟨init, hinit⟩ := List.getLast?_eq_some_iff.mp hl
      have h1 := h.remove init [] p hinit
      rw [List.append_nil] at h1
      rw [hinit, List.dropLast_concat]
      exact ih (h1.free p)

theorem tsockDropOooMbufs_inv (h : RcvInv C share k x) :
    RcvInv C share k (tsockDropOooMbufs x) := by
  unfold tsockDropOooMbufs
  split
  · exact h
  · exact dropOooTail_inv _ h

theorem dropOooTail_length (n : Nat) (x : RxSt) :
    (dropOooTail n x).rcv.ooo.length ≤ x.rcv.ooo.length := by
  induction n generalizing x with
  | zero => exact le_rfl
  | succ n ih =>
    unfold dropOooTail
    split
    · exact ih x
    · refine le_trans (ih _) ?_
      change x.rcv.ooo.dropLast.length ≤ _
      simp

theorem tsockDropOooMbufs_length (x : RxSt) :
    (tsockDropOooMbufs x).rcv.ooo.length ≤ x.rcv.ooo.length := by
  unfold tsockDropOooMbufs
  split
  · exact le_rfl
  · exact dropOooTail_length ..

theorem tsockDropOooMbufs_edge (x : RxSt) : SameEdge x.rcv (tsockDropOooMbufs x).rcv := by
  have h : ∀ n x, SameEdge x.rcv (dropOooTail n x).rcv := by
    intro n
    induction n with
    | zero => exact fun x => SameEdge.refl _
    | succ n ih =>
      intro x
      unfold dropOooTail
      split
      · exact ih x
      · refine SameEdge.trans ?_ (ih _)
        exact ⟨rfl, rfl, rfl, rfl, rfl⟩
  unfold tsockDropOooMbufs
  split
  · exact SameEdge.refl _
  · exact h _ _

theorem tsockZreadv_ooo (s : St) (n : Nat) :
    (tsockZreadv s n).2.tsock.rcv.ooo = s.tsock.rcv.ooo := by
  unfold tsockZreadv
  split
  · rfl
  dsimp only
  split
  · rfl
  · split <;> rfl

theorem tsockZreadv_spec (s : St) (n : Nat) (h : RcvInv C share k s.rxSt) :
    RcvInv C share k (tsockZreadv s n).2.rxSt ∧
      ∃ out, rxqBytes s.tsock.rcv.rxq = out ++ rxqBytes (tsockZreadv s n).2.tsock.rcv.rxq ∧
        (∀ bs, (tsockZreadv s n).1 = .ok bs → bs.flatten = out) ∧
        ((∀ bs, (tsockZreadv s n).1 ≠ .ok bs) → out = []) := by
  obtain ⟨hb, ha, hl⟩ := readLoop_bytes s.tsock.rcv.rxq n h.rxqAligned
  unfold tsockZreadv
  split
  · exact ⟨h, [], rfl, by simp, by simp⟩
  dsimp only
  split
  · rename_i hz
    refine ⟨⟨h.spans, h.wnd, h.size, h.count, h.mbufs, h.last, h.oooAligned, h.rxqAligned,
      h.content⟩, [], rfl, ?_, by simp⟩
    intro bs
    split <;> simp +contextual [eq_comm]
  · have hinv : ∀ s' : St, s'.tsock.rcv = { s.tsock.rcv with
          rxq := (readLoop s.tsock.rcv.rxq n).2.1
          rcvWnd := s.tsock.rcv.rcvWnd + (readLoop s.tsock.rcv.rxq n).1.flatten.length } →
        s'.worker.rx.nrOooMbuf = s.worker.rx.nrOooMbuf → RcvInv C share k s'.rxSt := by
      intro s' hr hx
      refine ⟨?_, ?_, ?_, ?_, ?_, ?_, ?_, ?_, ?_⟩
      all_goals simp only [hr, hx]
      · exact h.spans.mono_hi (Nat.le_add_right _ _)
      · have := h.wnd
        dsimp only at this
        omega
      · exact h.size
      · exact h.count
      · exact h.mbufs
      · exact h.last
      · exact h.oooAligned
      · exact ha
      · exact h.content
    split
    · exact ⟨hinv _ rfl rfl, _, hb, by simp +contextual [eq_comm], by simp⟩
    · exact ⟨hinv _ rfl rfl, _, hb, by simp +contextual [eq_comm], by simp⟩

/-- The reassembly law of a socket. `share` is the part of `nr_ooo_mbuf` that
belongs to the other sockets of the worker. -/
structure ReassemblyLaw (share : U32) (s : St) : Prop where
  sorted : s.tsock.rcv.ooo.Pairwise fun a b => seqLt a.seq b.seq
  nonempty : ∀ p ∈ s.tsock.rcv.ooo, 0 < p.len
  disjoint : s.tsock.rcv.ooo.Pairwise fun a b =>
    a.len ≤ (b.seq - a.seq).toNat ∧ b.len ≤ (a.seq - b.seq).toNat
  window : ∀ p ∈ s.tsock.rcv.ooo, (p.seq - s.tsock.rcv.rcvNxt).toNat + p.len ≤ s.tsock.rcv.rcvWnd
  count : s.tsock.rcv.nrOooPkt.toNat = s.tsock.rcv.ooo.length
  mbufs : s.worker.rx.nrOooMbuf = share + BitVec.ofNat 32 (segSum s.tsock.rcv.ooo)
  last : ∀ i, s.tsock.rcv.lastOooPkt = some i → ∃ p ∈ s.tsock.rcv.ooo, p.id = i

theorem RcvInv.law {s : St} (h : RcvInv C share k s.rxSt) (hl : s.tsock.rcv.ooo.length < 65536) :
    ReassemblyLaw share s := by
  have hcount : s.tsock.rcv.nrOooPkt.toNat = s.tsock.rcv.ooo.length := by
    rw [show s.tsock.rcv.nrOooPkt = _ from h.count, BitVec.toNat_ofNat, Nat.mod_eq_of_lt hl]
  have hw : s.tsock.rcv.rcvWnd < 2 ^ 26 := h.wnd_lt
  have hpair : s.tsock.rcv.ooo.Pairwise fun a b =>
      s.tsock.rcv.off a + a.len ≤ s.tsock.rcv.off b := h.spans.pairwise
  have hmem : ∀ a ∈ s.tsock.rcv.ooo, 0 < a.len ∧ s.tsock.rcv.off a + a.len ≤ s.tsock.rcv.rcvWnd :=
    fun a ha => (h.spans.mem ha).2
  refine ⟨?_, fun a ha => (hmem a ha).1, ?_, fun a ha => (hmem a ha).2, hcount, h.mbufs, h.last⟩
  · refine hpair.imp_of_mem fun {a b} ha hb hab => ?_
    have h1 := hmem a ha
    have h2 := hmem b hb
    unfold Rcv.off at *
    rw [@seqLt_ahead s.tsock.rcv.rcvNxt _ _ (by omega) (by omega)]
    omega
  · refine hpair.imp_of_mem fun {a b} ha hb hab => ?_
    have h1 := hmem a ha
    have h2 := hmem b hb
    have hb' := b.len_lt
    unfold Rcv.off ahead at *
    constructor
    · bv_omega
    · bv_omega

structure RcvFresh (share : U32) (s : St) : Prop where
  rxq : s.tsock.rcv.rxq = []
  ooo : s.tsock.rcv.ooo = []
  wnd : s.tsock.rcv.rcvWnd = tsockRcvWndDefault s.tsock.rcv.rxqSize
  size : RingSize s.tsock.rcv.rxqSize
  count : s.tsock.rcv.nrOooPkt = 0
  mbufs : s.worker.rx.nrOooMbuf = share
  last : s.tsock.rcv.lastOooPkt = none

theorem RcvFresh.inv {s : St} (h : RcvFresh share s) : RcvInv C share k s.rxSt := by
  refine ⟨?_, ?_, h.size.le, ?_, ?_, ?_, ?_, ?_, ?_⟩
  all_goals simp [h.ooo, h.rxq, h.count, h.mbufs, h.last, h.wnd]

inductive RcvAct
  | data (p : Packet)
  | read (nrIov : Nat)
  | drop

def rcvStep (cfg : TcpCfg) (s : St) : RcvAct → St
  | .data p => (tcpRcvData cfg s p).2.1
  | .read n => (tsockZreadv s n).2
  | .drop => s.setRxSt (tsockDropOooMbufs s.rxSt)

/-- `tcp_rcv_data` is called in the three data states, with a packet that passed
`validate_seq`. -/
def RcvAct.Enabled (s : St) : RcvAct → Prop
  | .data p => (s.tsock.state = .established ∨ s.tsock.state = .finWait1 ∨
      s.tsock.state = .finWait2) ∧ validateSeq s.tsock.rcv p = none ∧ p.Aligned
  | _ => True

/-- The 16-bit packet counter has room, and an empty in-order FIN does not meet
an out-of-order queue that begins at `rcv_nxt`. -/
def RcvAct.Guarded (s : St) : RcvAct → Prop
  | .data p => s.tsock.rcv.nrOooPkt.toNat < 65535 ∧
      ¬ (p.len = 0 ∧ p.flags.fin = true ∧ p.seq = s.tsock.rcv.rcvNxt ∧
        ∃ q ∈ s.tsock.rcv.ooo.head?, q.seq = s.tsock.rcv.rcvNxt)
  | _ => True

theorem RcvInv.head_seq {q : Packet} (h : RcvInv C share k x) (hq : q ∈ x.rcv.ooo)
    (hs : q.seq = x.rcv.rcvNxt) : ∃ a ∈ x.rcv.ooo.head?, a.seq = x.rcv.rcvNxt := by
  have hsp := h.spans
  rcases hooo : x.rcv.ooo with _ | ⟨a, rest⟩
  · rw [hooo] at hq
    cases hq
  · rw [hooo] at hsp hq
    have hle := hsp.head_le hq
    have hz : x.rcv.off q = 0 := ahead_eq_zero.mpr hs
    exact ⟨a, rfl, ahead_eq_zero.mp (Nat.le_zero.mp (hz ▸ hle))⟩

def Counted (share : U32) (s : St) : Prop :=
  (∃ k, RcvInv SegPred.any share k s.rxSt) ∧ s.tsock.rcv.ooo.length < 65536

theorem rcvStep_inv (cfg : TcpCfg) (s : St) (a : RcvAct) (he : a.Enabled s) (hg : a.Guarded s)
    (h : Counted share s) : Counted share (rcvStep cfg s a) := by
  obtain ⟨⟨k, h⟩, hl⟩ := h
  cases a with
  | data p =>
    obtain ⟨-, hv, hal⟩ := he
    obtain ⟨hnr, hfin⟩ := hg
    by_cases hlen : p.len = 0
    · obtain ⟨s', k', hd, h', hs⟩ := tcpRcvData_empty cfg h hlen fun hf hs q hq hqs =>
        hfin ⟨hlen, hf, hs, h.head_seq hq hqs⟩
      rw [rcvStep, hd]
      refine ⟨⟨k', h'⟩, ?_⟩
      rcases hs with ⟨rfl, -⟩ | ⟨-, -, -, rfl⟩
      · exact hl
      · exact hl
    · obtain ⟨e, s', p', k', hd, h', -, -, hle⟩ := tcpRcvData_spec cfg h hv hlen hal trivial
      rw [rcvStep, hd]
      rw [show s.tsock.rcv.nrOooPkt = _ from h.count, BitVec.toNat_ofNat,
        Nat.mod_eq_of_lt hl] at hnr
      exact ⟨⟨k', h'⟩, lt_of_le_of_lt hle (Nat.succ_lt_succ hnr)⟩
  | read n =>
    refine ⟨⟨k, (tsockZreadv_spec s n h).1⟩, ?_⟩
    rw [rcvStep, tsockZreadv_ooo]
    exact hl
  | drop => exact ⟨⟨k, tsockDropOooMbufs_inv h⟩, lt_of_le_of_lt (tsockDropOooMbufs_length _) hl⟩

def oneSlotCfg : TcpCfg := { rcvQueueSize := 1, rcvQueue_ok := .inr ⟨0, by decide, rfl⟩ }

def oneSlotSt : St :=
  ⟨Worker.boot 0 {}, { tsockInit oneSlotCfg 0 false with state := .established }⟩

/-- A byte in order fills the ring, one byte behind a gap is queued, and so is
the byte that closes the gap. -/
def fillOneSlot : List RcvAct :=
  [.data (.oneByte 0 0 0 0 tcpFlagAck 0),
    .data (.oneByte 1 2 0 0 tcpFlagAck 2),
    .data (.oneByte 2 1 0 0 tcpFlagAck 1)]

def finAtOne : RcvAct := .data (.bare 3 1 0 0 { fin := true, ack := true })

theorem oneSlotSt_fresh : RcvFresh 0 oneSlotSt :=
  ⟨rfl, rfl, rfl, oneSlotCfg.rcvQueue_ok, rfl, rfl, rfl⟩

theorem fillOneSlot_admitted : Admitted (rcvStep oneSlotCfg)
    (fun s a => a.Enabled s ∧ a.Guarded s) oneSlotSt fillOneSlot :=
  ⟨⟨⟨.inl rfl, by decide +kernel, Packet.parsed_aligned ..⟩, by decide +kernel, by decide +kernel⟩,
    ⟨⟨.inl rfl, by decide +kernel, Packet.parsed_aligned ..⟩, by decide +kernel, by decide +kernel⟩,
    ⟨⟨.inl rfl, by decide +kernel, Packet.parsed_aligned ..⟩, by decide +kernel, by decide +kernel⟩,
    trivial⟩

/-- Over every guarded run of a connection the reassembly law holds. -/
theorem reassembly_run (cfg : TcpCfg) (s₀ s : St) (hf : RcvFresh share s₀)
    (hr : Reach (rcvStep cfg) (fun s a => a.Enabled s ∧ a.Guarded s) s₀ s) :
    ReassemblyLaw share s := by
  have h : Counted share s := hr.invariant (I := Counted share)
    ⟨⟨0, hf.inv⟩, by rw [hf.ooo]; decide⟩ fun s a h ok => rcvStep_inv cfg s a ok.1 ok.2 h
  obtain ⟨⟨k, h⟩, hl⟩ := h
  exact h.law hl

theorem reassembly_run_fillOneSlot :
    RcvFresh 0 oneSlotSt ∧
      ReassemblyLaw 0 (exec (rcvStep oneSlotCfg) oneSlotSt fillOneSlot) ∧
      (exec (rcvStep oneSlotCfg) oneSlotSt fillOneSlot).tsock.rcv.ooo.length = 2 :=
  ⟨oneSlotSt_fresh,
    reassembly_run oneSlotCfg _ _ oneSlotSt_fresh (Reach.refl.exec fillOneSlot_admitted),
    by decide +kernel⟩

/-- With the ring full and the gap closed, an empty FIN in order moves `rcv_nxt`
over a packet that is still queued. -/
theorem fin_passes_queued_packet :
    RcvFresh 0 oneSlotSt ∧
      Admitted (rcvStep oneSlotCfg) (fun s a => a.Enabled s) oneSlotSt (fillOneSlot ++ [finAtOne]) ∧
      ¬ ReassemblyLaw 0 (exec (rcvStep oneSlotCfg) oneSlotSt (fillOneSlot ++ [finAtOne])) := by
  refine ⟨oneSlotSt_fresh, ?_, ?_⟩
  · obtain ⟨h1, h2, h3, -⟩ := fillOneSlot_admitted
    exact ⟨h1.1, h2.1, h3.1, ⟨.inl rfl, by decide +kernel, Packet.parsed_aligned ..⟩, trivial⟩
  · intro h
    have hw := h.window
    revert hw
    decide +kernel

end LibTpa
