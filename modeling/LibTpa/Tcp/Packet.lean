/- LibTpa/Tcp/Packet
   digest: Received packets as chains of segments, and the head and tail cuts. -/

import LibTpa.Tcp.Basic
import Mathlib.Data.List.TakeDrop

/-!
A received packet is the head of an mbuf chain. Its TCP metadata lives in the
head; the payload of each buffer is the byte list of one segment. The pointers
`mbuf.next` make the chain a list, and a pointer into the chain, such as
`to_read`, is the sublist that starts there.
-/

set_option autoImplicit false

namespace LibTpa

abbrev PktId := Nat

/-- `struct packet`, as far as the receive path reads it. `segs` is the chain
from the head on, `toRead` the chain from the `to_read` pointer on, and
`optArea` the memory after the fixed TCP header: options, then anything. -/
structure Packet where
  id : PktId
  seq : U32
  ack : U32
  tsVal : U32
  tsEcr : U32
  wnd : U16
  len : Nat
  len_lt : len < 2 ^ 16
  optLen : Nat
  flags : TcpFlags
  hasTsOpt : Bool
  wid : Nat
  isIpv6 : Bool
  nbSegs : Nat
  nrReadSeg : Int
  segs : List (List Byte)
  toRead : List (List Byte)
  optArea : List Byte
  deriving DecidableEq

def Packet.parsed (id : PktId) (seq ack : U32) (wnd : U16) (flags : TcpFlags)
    (opts payload : List Byte) (h : payload.length < 2 ^ 16) : Packet where
  id := id
  seq := seq
  ack := ack
  tsVal := 0
  tsEcr := 0
  wnd := wnd
  len := payload.length
  len_lt := h
  optLen := opts.length
  flags := flags
  hasTsOpt := false
  wid := 0
  isIpv6 := false
  nbSegs := 1
  nrReadSeg := 1
  segs := [payload]
  toRead := [payload]
  optArea := opts

def Packet.bare (id : PktId) (seq ack : U32) (wnd : U16) (flags : TcpFlags) : Packet :=
  .parsed id seq ack wnd flags [] [] (by decide)

def Packet.oneByte (id : PktId) (seq ack : U32) (wnd : U16) (flags : TcpFlags) (b : Byte) :
    Packet :=
  .parsed id seq ack wnd flags [] [b] (show 1 < 2 ^ 16 by decide)

def Packet.endSeq (p : Packet) : U32 := p.seq + BitVec.ofNat 32 p.len

/-- The loop of `tcp_packet_cut_head` from `to_read` on: the remaining chain and
the number of segments that were skipped. -/
def cutHeadSegs : List (List Byte) → Nat → List (List Byte) × Nat
  | [], _ => ([], 0)
  | s :: rest, size =>
    if s.length ≤ size then
      let r := cutHeadSegs rest (size - s.length)
      (r.1, r.2 + 1)
    else (s.drop size :: rest, 0)

/-- The loop of `tcp_packet_cut_tail`, where `size` is what is kept: the chain
with its last kept segment shortened, and the number of segments kept. -/
def cutTailSegs : List (List Byte) → Nat → List (List Byte) × Nat
  | [], _ => ([], 0)
  | s :: rest, size =>
    if s.length ≤ size then
      let r := cutTailSegs rest (size - s.length)
      (s :: r.1, r.2 + 1)
    else if size = 0 then (s :: rest, 0)
    else (s.take size :: rest, 1)

def tcpPacketCutHead (p : Packet) (size : Nat) : Packet :=
  let r := cutHeadSegs p.toRead size
  { p with
    seq := p.seq + BitVec.ofNat 32 size
    len := p.len - size
    len_lt := lt_of_le_of_lt (Nat.sub_le _ _) p.len_lt
    nrReadSeg := p.nrReadSeg - r.2
    toRead := r.1 }

def tcpPacketCutTail (p : Packet) (size : Nat) : Packet :=
  let r := cutTailSegs p.toRead (p.len - size)
  { p with
    len := p.len - size
    len_lt := lt_of_le_of_lt (Nat.sub_le _ _) p.len_lt
    nrReadSeg := r.2
    toRead := r.1 }

def Packet.l5Len (p : Packet) : Nat := (p.segs.headD []).length

/-- `packet_chain`: link `p` behind the chain of `head`. The length is a
`uint16_t`. -/
def packetChain (head p : Packet) : Packet :=
  { head with
    nbSegs := head.nbSegs + 1
    len := (head.len + p.l5Len) % 2 ^ 16
    len_lt := Nat.mod_lt _ (by decide)
    nrReadSeg := head.nrReadSeg + 1
    segs := head.segs ++ p.segs }

/-- The unread payload: the first `len` bytes from `to_read` on. -/
def Packet.bytes (p : Packet) : List Byte := p.toRead.flatten.take p.len

/-- The unread payload ends on a segment boundary, so that handing out whole
segments hands out exactly the payload. -/
def Packet.Aligned (p : Packet) : Prop :=
  ∃ m, (p.toRead.take m).flatten.length = p.len

/-! Fields that a cut leaves alone. -/

@[simp] theorem cutHead_id (p : Packet) (n : Nat) : (tcpPacketCutHead p n).id = p.id := rfl
@[simp] theorem cutTail_id (p : Packet) (n : Nat) : (tcpPacketCutTail p n).id = p.id := rfl
@[simp] theorem cutHead_seq (p : Packet) (n : Nat) :
    (tcpPacketCutHead p n).seq = p.seq + BitVec.ofNat 32 n := rfl
@[simp] theorem cutTail_seq (p : Packet) (n : Nat) : (tcpPacketCutTail p n).seq = p.seq := rfl
@[simp] theorem cutHead_len (p : Packet) (n : Nat) :
    (tcpPacketCutHead p n).len = p.len - n := rfl
@[simp] theorem cutTail_len (p : Packet) (n : Nat) :
    (tcpPacketCutTail p n).len = p.len - n := rfl

theorem cutHeadSegs_flatten (segs : List (List Byte)) (size : Nat) :
    (cutHeadSegs segs size).1.flatten = segs.flatten.drop size := by
  induction segs generalizing size with
  | nil => simp [cutHeadSegs]
  | cons s rest ih =>
    simp only [cutHeadSegs]
    split
    · rename_i h
      rw [ih, List.flatten_cons, List.drop_append, List.drop_eq_nil_of_le h, List.nil_append]
    · rename_i h
      rw [List.flatten_cons, List.flatten_cons, List.drop_append_of_le_length (by omega)]

theorem cutTailSegs_flatten_take (segs : List (List Byte)) (size : Nat) :
    (cutTailSegs segs size).1.flatten.take size = segs.flatten.take size := by
  induction segs generalizing size with
  | nil => simp [cutTailSegs]
  | cons s rest ih =>
    simp only [cutTailSegs]
    split
    · rename_i h
      simp only [List.flatten_cons, List.take_append, ih]
    · split
      · rfl
      · rename_i h _
        have hl : (s.take size).length = size := by
          rw [List.length_take]
          omega
        rw [List.flatten_cons, List.flatten_cons, List.take_append_of_le_length (by omega),
          List.take_append_of_le_length (by omega), List.take_take, Nat.min_self]

theorem cutHead_bytes (p : Packet) (n : Nat) :
    (tcpPacketCutHead p n).bytes = p.bytes.drop n := by
  simp only [Packet.bytes, tcpPacketCutHead, cutHeadSegs_flatten]
  rw [List.drop_take]

theorem cutTail_bytes (p : Packet) (n : Nat) :
    (tcpPacketCutTail p n).bytes = p.bytes.take (p.len - n) := by
  simp only [Packet.bytes, tcpPacketCutTail, cutTailSegs_flatten_take]
  rw [List.take_take, Nat.min_eq_left (Nat.sub_le _ _)]

private theorem cutHeadSegs_aligned (segs : List (List Byte)) (size m len : Nat)
    (hm : (segs.take m).flatten.length = len) (hs : size ≤ len) :
    ∃ k, ((cutHeadSegs segs size).1.take k).flatten.length = len - size := by
  induction segs generalizing size m len with
  | nil =>
    refine ⟨0, ?_⟩
    simp at hm
    simp
    omega
  | cons s rest ih =>
    cases m with
    | zero =>
      refine ⟨0, ?_⟩
      simp at hm
      simp
      omega
    | succ m =>
      simp only [List.take_succ_cons, List.flatten_cons, List.length_append] at hm
      simp only [cutHeadSegs]
      split
      · rename_i h
        obtain ⟨k, hk⟩ := ih (size - s.length) m (len - s.length) (by omega) (by omega)
        exact ⟨k, by rw [hk]; omega⟩
      · refine ⟨m + 1, ?_⟩
        simp only [List.take_succ_cons, List.flatten_cons, List.length_append,
          List.length_drop]
        omega

private theorem cutTailSegs_aligned (segs : List (List Byte)) (size : Nat)
    (hs : size ≤ segs.flatten.length) :
    ((cutTailSegs segs size).1.take (cutTailSegs segs size).2).flatten.length = size := by
  induction segs generalizing size with
  | nil =>
    simp at hs
    simp [cutTailSegs, hs]
  | cons s rest ih =>
    simp only [List.flatten_cons, List.length_append] at hs
    simp only [cutTailSegs]
    split
    · have := ih (size - s.length) (by omega)
      simp only [List.take_succ_cons, List.flatten_cons, List.length_append, this]
      omega
    · split
      · simp [*]
      · simp only [List.take_succ_cons, List.take_zero, List.flatten_cons, List.flatten_nil,
          List.append_nil, List.length_take]
        omega

theorem Packet.parsed_aligned (id : PktId) (seq ack : U32) (wnd : U16) (flags : TcpFlags)
    (opts payload : List Byte) (h : payload.length < 2 ^ 16) :
    (Packet.parsed id seq ack wnd flags opts payload h).Aligned :=
  ⟨1, by simp [Packet.parsed]⟩

theorem Packet.Aligned.len_le {p : Packet} (h : p.Aligned) : p.len ≤ p.toRead.flatten.length := by
  obtain ⟨m, hm⟩ := h
  have hsplit : p.toRead.flatten = (p.toRead.take m).flatten ++ (p.toRead.drop m).flatten := by
    rw [← List.flatten_append, List.take_append_drop]
  rw [← hm, hsplit, List.length_append]
  exact Nat.le_add_right ..

theorem Packet.Aligned.bytes_length {p : Packet} (h : p.Aligned) : p.bytes.length = p.len := by
  rw [Packet.bytes, List.length_take]
  exact Nat.min_eq_left h.len_le

theorem Packet.Aligned.cutHead {p : Packet} (h : p.Aligned) {n : Nat} (hn : n ≤ p.len) :
    (tcpPacketCutHead p n).Aligned := by
  obtain ⟨m, hm⟩ := h
  exact cutHeadSegs_aligned p.toRead n m p.len hm hn

theorem Packet.Aligned.cutTail {p : Packet} (h : p.Aligned) (n : Nat) :
    (tcpPacketCutTail p n).Aligned :=
  ⟨_, cutTailSegs_aligned p.toRead (p.len - n) (le_trans (Nat.sub_le _ _) h.len_le)⟩

end LibTpa
