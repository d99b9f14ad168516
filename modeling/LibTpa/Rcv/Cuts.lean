/- LibTpa/Rcv/Cuts
   digest: Any sequence of head and tail cuts of a packet. -/

import LibTpa.Lib.Run
import LibTpa.Rcv.Iov

set_option autoImplicit false

namespace LibTpa

open Lib

inductive Cut
  | head (size : Nat)
  | tail (size : Nat)

def Cut.front : Cut → Nat
  | .head size => size
  | .tail _ => 0

def Cut.back : Cut → Nat
  | .head _ => 0
  | .tail size => size

def tcpPacketCut (p : Packet) : Cut → Packet
  | .head size => tcpPacketCutHead p size
  | .tail size => tcpPacketCutTail p size

def CutOk (p : Packet) (c : Cut) : Prop := c.front + c.back ≤ p.len

instance (p : Packet) (c : Cut) : Decidable (CutOk p c) := inferInstanceAs (Decidable (_ ≤ _))

def Packet.readable (p : Packet) : List Byte := (p.toRead.take p.nrReadSeg.toNat).flatten

/-- `nr_read_seg` counts the buffers that hold `len` bytes. -/
def Packet.Counted (p : Packet) (k : Nat) : Prop := p.nrReadSeg = k ∧ Covers p.toRead p.len k

/-- What is left of `p` when `front` bytes are off its front and `back` bytes off its back. -/
structure CutDown (p : Packet) (k front back : Nat) (q : Packet) : Prop where
  bytes : q.readable = (p.readable.take (p.len - back)).drop front
  seq : q.seq = p.seq + BitVec.ofNat 32 front
  len : q.len + (front + back) = p.len
  counted : ∃ j ≤ k, q.Counted j

variable {p q : Packet} {k front back : Nat} {c : Cut}

theorem Packet.Counted.readable (h : p.Counted k) : p.readable = p.bytes := by
  unfold Packet.readable Packet.bytes
  rw [h.1, Int.toNat_natCast]
  conv_rhs => rw [← List.take_append_drop k p.toRead, List.flatten_append]
  rw [List.take_left' h.2.bytes]

theorem Packet.Counted.cut (h : p.Counted k) (hc : CutOk p c) :
    ∃ j ≤ k, (tcpPacketCut p c).Counted j := by
  obtain ⟨hk, hcov⟩ := h
  cases c with
  | head size =>
    obtain ⟨hle, hcov', -⟩ := hcov.cutHead (show size ≤ p.len from hc)
    refine ⟨k - (cutHeadSegs p.toRead size).2, Nat.sub_le _ _, ?_, hcov'⟩
    simp only [tcpPacketCut, tcpPacketCutHead, hk]
    omega
  | tail size =>
    obtain ⟨hle, hcov', -⟩ := hcov.cutTail (Nat.sub_le p.len size)
    exact ⟨(cutTailSegs p.toRead (p.len - size)).2, hle, rfl, hcov'⟩

theorem CutDown.cut (h : CutDown p k front back q) (hc : CutOk q c) :
    CutDown p k (front + c.front) (back + c.back) (tcpPacketCut q c) := by
  obtain ⟨j, hj, hcount⟩ := h.counted
  obtain ⟨i, hi, hcount'⟩ := hcount.cut hc
  have hlen := h.len
  have hbytes := h.bytes
  rw [hcount.readable] at hbytes
  unfold CutOk at hc
  cases c with
  | head size =>
    simp only [Cut.front, Cut.back, Nat.add_zero] at hc ⊢
    refine ⟨?_, ?_, ?_, i, hi.trans hj, hcount'⟩
    · rw [hcount'.readable, tcpPacketCut, cutHead_bytes, hbytes, List.drop_drop]
    · rw [tcpPacketCut, cutHead_seq, h.seq, BitVec.ofNat_add, add_assoc]
    · rw [tcpPacketCut, cutHead_len]
      omega
  | tail size =>
    simp only [Cut.front, Cut.back, Nat.add_zero, Nat.zero_add] at hc ⊢
    refine ⟨?_, h.seq, ?_, i, hi.trans hj, hcount'⟩
    · rw [hcount'.readable, tcpPacketCut, cutTail_bytes, hbytes, List.take_drop, List.take_take]
      congr 2
      omega
    · rw [tcpPacketCut, cutTail_len]
      omega

/-- Whatever the cuts are, the bytes that are left are those behind all the head cuts and before all
the tail cuts, and `seq`, `len` and `nr_read_seg` fit them. -/
theorem packetCuts_keep_window (p : Packet) (k : Nat) (cuts : List Cut) (h : p.Counted k)
    (hcuts : Run.Admitted tcpPacketCut CutOk p cuts) :
    CutDown p k (cuts.map Cut.front).sum (cuts.map Cut.back).sum
      (Run.exec tcpPacketCut p cuts) := by
  -- the sums so far are those of the cuts that have been made
  have hrun : ∀ (cuts : List Cut) (q : Packet) (front back : Nat), CutDown p k front back q →
      Run.Admitted tcpPacketCut CutOk q cuts →
      CutDown p k (front + (cuts.map Cut.front).sum) (back + (cuts.map Cut.back).sum)
        (Run.exec tcpPacketCut q cuts) := by
    intro cuts
    induction cuts with
    | nil => exact fun q front back hq _ => hq
    | cons c cuts ih =>
      intro q front back hq hadm
      have hnext := ih _ _ _ (hq.cut hadm.1) hadm.2
      rw [Nat.add_assoc, Nat.add_assoc] at hnext
      rw [List.map_cons, List.map_cons, List.sum_cons, List.sum_cons]
      exact hnext
  have hstart : CutDown p k 0 0 p := by
    refine ⟨?_, by simp, rfl, k, Nat.le_refl k, h⟩
    rw [List.drop_zero, Nat.sub_zero, List.take_of_length_le]
    rw [h.readable]
    exact List.length_take_le ..
  have hall := hrun cuts p 0 0 hstart hcuts
  rw [Nat.zero_add, Nat.zero_add] at hall
  exact hall

theorem fourBytes_lt : 4 < 2 ^ 16 := by decide

def threeBuffers : Packet :=
  { Packet.oneByte 0 100 0 0 {} 1 with
    len := 4, len_lt := fourBytes_lt, nbSegs := 3, nrReadSeg := 3
    segs := [[1], [2, 3], [4]], toRead := [[1], [2, 3], [4]] }

theorem threeBuffers_counted : threeBuffers.Counted 3 := ⟨rfl, by decide, by decide, by decide⟩

theorem packetCuts_threeBuffers :
    threeBuffers.Counted 3 ∧
      Run.Admitted tcpPacketCut CutOk threeBuffers [.tail 2, .head 1, .tail 1] ∧
      CutDown threeBuffers 3 1 3 (Run.exec tcpPacketCut threeBuffers [.tail 2, .head 1, .tail 1]) :=
  ⟨threeBuffers_counted, by decide,
    packetCuts_keep_window threeBuffers 3 [.tail 2, .head 1, .tail 1] threeBuffers_counted
      (by decide)⟩

end LibTpa
