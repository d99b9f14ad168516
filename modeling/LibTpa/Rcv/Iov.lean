/- LibTpa/Rcv/Iov
   digest: The buffers that a zero-copy read hands out, and when they come back. -/

import LibTpa.Rcv.Read
import LibTpa.Rcv.Invariant

/-!
`tsock_zreadv` fills one iov entry per buffer of a chain; `iov_param` is the head of the
chain, whose `nr_read_seg` counts the buffers that are unread or still in the hands of
the application.
-/

set_option autoImplicit false

namespace LibTpa

/-- An entry that `pkt_to_iov_one_seg` fills: `iov_param`, the buffer of the chain that
`iov_base` points into, and the bytes there. -/
structure ReadIov where
  param : PktId
  seg : Nat
  data : List Byte
  deriving DecidableEq

def iovsFrom (id : PktId) : Nat → List (List Byte) → List ReadIov
  | _, [] => []
  | i, d :: l => ⟨id, i, d⟩ :: iovsFrom id (i + 1) l

def Packet.place (p : Packet) : Nat := p.segs.length - p.toRead.length

def Packet.iovs (p : Packet) (out : List (List Byte)) : List ReadIov := iovsFrom p.id p.place out

/-- The entries that the loop of `tsock_zreadv` fills. -/
def readIovs : List Packet → Nat → List ReadIov
  | [], _ => []
  | p :: rest, n =>
    match iovSegs p.toRead p.len n with
    | (out, _, 0, n') => p.iovs out ++ readIovs rest n'
    | (out, _, _ + 1, _) => p.iovs out

def readEnd : List Packet → Nat → List Packet
  | [], _ => []
  | p :: rest, n =>
    match iovSegs p.toRead p.len n with
    | (_, toRead, 0, n') => p.consume toRead 0 :: readEnd rest n'
    | (_, _, _ + 1, _) => []

def Packet.unread (p : Packet) : List ReadIov :=
  p.iovs (iovSegs p.toRead p.len p.toRead.length).1

def rxqUnread (q : List Packet) : List ReadIov := (q.map Packet.unread).flatten

@[simp] theorem rxqUnread_nil : rxqUnread [] = [] := rfl
@[simp] theorem rxqUnread_cons (p : Packet) (q : List Packet) :
    rxqUnread (p :: q) = p.unread ++ rxqUnread q := rfl
@[simp] theorem rxqUnread_append (q q' : List Packet) :
    rxqUnread (q ++ q') = rxqUnread q ++ rxqUnread q' := by simp [rxqUnread]

theorem iovsFrom_append (id : PktId) (i : Nat) (l l' : List (List Byte)) :
    iovsFrom id i (l ++ l') = iovsFrom id i l ++ iovsFrom id (i + l.length) l' := by
  induction l generalizing i with
  | nil => rfl
  | cons d l ih => rw [List.cons_append, iovsFrom, ih, iovsFrom, List.cons_append, List.length_cons,
      Nat.add_right_comm, Nat.add_assoc]

@[simp] theorem iovsFrom_data (id : PktId) (i : Nat) (l : List (List Byte)) :
    (iovsFrom id i l).map ReadIov.data = l := by
  induction l generalizing i with
  | nil => rfl
  | cons d l ih => rw [iovsFrom, List.map_cons, ih]

@[simp] theorem iovsFrom_param (id : PktId) (i : Nat) (l : List (List Byte)) :
    (iovsFrom id i l).map ReadIov.param = List.replicate l.length id := by
  induction l generalizing i with
  | nil => rfl
  | cons d l ih => rw [iovsFrom, List.map_cons, ih, List.length_cons, List.replicate_succ]

theorem readIovs_data (q : List Packet) (n : Nat) :
    (readIovs q n).map ReadIov.data = (readLoop q n).1 := by
  induction q generalizing n with
  | nil => rfl
  | cons p rest ih =>
    rcases he : iovSegs p.toRead p.len n with ⟨out, toRead, _ | len, n'⟩
    · simp only [readIovs, readLoop, he, List.map_append, ih, Packet.iovs, iovsFrom_data]
    · simp only [readIovs, readLoop, he, Packet.iovs, iovsFrom_data]

theorem readEnd_segs (q : List Packet) (n : Nat) : (readLoop q n).2.2 = segSum (readEnd q n) := by
  induction q generalizing n with
  | nil => rfl
  | cons p rest ih =>
    rcases he : iovSegs p.toRead p.len n with ⟨out, toRead, _ | len, n'⟩
    · simp only [readEnd, readLoop, he, segSum_cons, ih, Packet.consume]
    · simp only [readEnd, readLoop, he, segSum_nil]

/-! Chains. -/

/-- The first `k` buffers hold `len` bytes, and none of the buffers is empty. -/
structure Covers (segs : List (List Byte)) (len k : Nat) : Prop where
  bytes : (segs.take k).flatten.length = len
  le : k ≤ segs.length
  full : ∀ b ∈ segs, b ≠ []

namespace Covers

variable {segs : List (List Byte)} {b : List Byte} {len k n size : Nat}

theorem eq_zero_iff (h : Covers segs len k) : len = 0 ↔ k = 0 := by
  rw [← h.bytes]
  constructor
  · intro h0
    cases segs with
    | nil => exact Nat.le_zero.mp h.le
    | cons b rest =>
      cases k with
      | zero => rfl
      | succ k =>
        have hb := List.length_pos_of_ne_nil (h.full b (List.mem_cons_self ..))
        simp only [List.take_succ_cons, List.flatten_cons, List.length_append] at h0
        omega
  · rintro rfl
    rfl

theorem tail (h : Covers (b :: segs) len (k + 1)) : Covers segs (len - b.length) k := by
  refine ⟨?_, Nat.le_of_succ_le_succ h.le, fun c hc => h.full c (List.mem_cons_of_mem _ hc)⟩
  have hb := h.bytes
  simp only [List.take_succ_cons, List.flatten_cons, List.length_append] at hb
  omega

theorem head_le (h : Covers (b :: segs) len (k + 1)) : b.length ≤ len := by
  have hb := h.bytes
  simp only [List.take_succ_cons, List.flatten_cons, List.length_append] at hb
  omega

theorem iovSegs (h : Covers segs len k) (n : Nat) :
    iovSegs segs len n = (segs.take (min k n), segs.drop (min k n),
      ((segs.take k).drop (min k n)).flatten.length, n - min k n) := by
  induction segs generalizing len k n with
  | nil =>
    have hk := Nat.le_zero.mp h.le
    have hl := h.eq_zero_iff.mpr hk
    subst hk hl
    cases n <;> simp [LibTpa.iovSegs]
  | cons b rest ih =>
    cases n with
    | zero => simp [LibTpa.iovSegs, ← h.bytes]
    | succ n =>
      cases k with
      | zero =>
        have hl := h.eq_zero_iff.mpr rfl
        simp [LibTpa.iovSegs, hl]
      | succ k =>
        have hl : len ≠ 0 := fun h0 => absurd (h.eq_zero_iff.mp h0) (Nat.succ_ne_zero k)
        rw [LibTpa.iovSegs, if_neg hl, ih h.tail, Nat.succ_min_succ, Nat.succ_sub_succ]
        rfl

theorem drop (h : Covers segs len k) {j : Nat} (hj : j ≤ k) :
    Covers (segs.drop j) ((segs.take k).drop j).flatten.length (k - j) := by
  refine ⟨by rw [List.drop_take], ?_, fun c hc => h.full c (List.mem_of_mem_drop hc)⟩
  have hle := h.le
  rw [List.length_drop]
  omega

theorem cutHead (h : Covers segs len k) (hs : size ≤ len) :
    (cutHeadSegs segs size).2 ≤ k ∧
      Covers (cutHeadSegs segs size).1 (len - size) (k - (cutHeadSegs segs size).2) ∧
      (cutHeadSegs segs size).1.length ≤ segs.length := by
  induction segs generalizing len k size with
  | nil =>
    have hk := Nat.le_zero.mp h.le
    have hl := h.eq_zero_iff.mpr hk
    subst hk hl
    exact ⟨Nat.le_refl _, by simpa [cutHeadSegs] using h, Nat.le_refl _⟩
  | cons b rest ih =>
    have hb := List.length_pos_of_ne_nil (h.full b (List.mem_cons_self ..))
    unfold cutHeadSegs
    split
    · next hle =>
      cases k with
      | zero =>
        have hl := h.eq_zero_iff.mpr rfl
        omega
      | succ k =>
        have hhead := h.head_le
        obtain ⟨h1, h2, h3⟩ := ih h.tail (by omega : size - b.length ≤ len - b.length)
        refine ⟨Nat.succ_le_succ h1, ?_, Nat.le_succ_of_le h3⟩
        rw [Nat.succ_sub_succ]
        convert h2 using 1
        omega
    · next hlt =>
      refine ⟨Nat.zero_le _, ⟨?_, h.le, ?_⟩, Nat.le_refl _⟩
      · cases k with
        | zero =>
          have hl := h.eq_zero_iff.mpr rfl
          simp [hl]
        | succ k =>
          have hbytes := h.bytes
          simp only [List.take_succ_cons, List.flatten_cons, List.length_append] at hbytes
          simp only [Nat.sub_zero, List.take_succ_cons, List.flatten_cons, List.length_append,
            List.length_drop]
          omega
      · intro c hc
        rcases List.mem_cons.mp hc with rfl | hc
        · intro hnil
          have hlen := List.length_drop (i := size) (l := b)
          rw [hnil, List.length_nil] at hlen
          omega
        · exact h.full c (List.mem_cons_of_mem _ hc)

theorem cutTail (h : Covers segs len k) (hs : size ≤ len) :
    (cutTailSegs segs size).2 ≤ k ∧
      Covers (cutTailSegs segs size).1 size (cutTailSegs segs size).2 ∧
      (cutTailSegs segs size).1.length = segs.length := by
  induction segs generalizing len k size with
  | nil =>
    have hl := h.eq_zero_iff.mpr (Nat.le_zero.mp h.le)
    have h0 : size = 0 := by omega
    subst h0
    exact ⟨Nat.zero_le _, ⟨rfl, Nat.le_refl _, h.full⟩, rfl⟩
  | cons b rest ih =>
    have hb := List.length_pos_of_ne_nil (h.full b (List.mem_cons_self ..))
    unfold cutTailSegs
    split
    · next hle =>
      cases k with
      | zero =>
        have hl := h.eq_zero_iff.mpr rfl
        omega
      | succ k =>
        obtain ⟨h1, h2, h3⟩ := ih h.tail (by omega : size - b.length ≤ len - b.length)
        refine ⟨Nat.succ_le_succ h1, ⟨?_, Nat.succ_le_succ h2.le, ?_⟩, ?_⟩
        · rw [List.take_succ_cons, List.flatten_cons, List.length_append, h2.bytes]
          omega
        · intro c hc
          rcases List.mem_cons.mp hc with rfl | hc
          · exact h.full c (List.mem_cons_self ..)
          · exact h2.full c hc
        · rw [List.length_cons, List.length_cons, h3]
    split
    · next h0 => exact ⟨Nat.zero_le _, ⟨by simp [h0], Nat.zero_le _, h.full⟩, rfl⟩
    · next hlt h0 =>
      have hk : k ≠ 0 := fun hk => by have := h.eq_zero_iff.mpr hk; omega
      refine ⟨Nat.one_le_iff_ne_zero.mpr hk, ⟨?_, Nat.succ_le_succ (Nat.zero_le _), ?_⟩, rfl⟩
      · simp only [List.take_succ_cons, List.take_zero, List.flatten_cons, List.flatten_nil,
          List.append_nil, List.length_take]
        omega
      · intro c hc
        rcases List.mem_cons.mp hc with rfl | hc
        · intro hnil
          have hlen := List.length_take (i := size) (l := b)
          rw [hnil, List.length_nil] at hlen
          omega
        · exact h.full c (List.mem_cons_of_mem _ hc)

end Covers

/-- A packet of which `c` buffers are in the hands of the application: `nr_read_seg`
counts them and those that are unread. -/
structure Lent (c : Nat) (p : Packet) : Prop where
  counts : ∃ k : Nat, p.nrReadSeg = (c + k : Nat) ∧ c + k ≤ 256 ∧ Covers p.toRead p.len k
  inside : p.toRead.length ≤ p.segs.length

/-- A packet or a chain of the merge stage. One burst has at most 64 packets; up to 256
buffers the `int8_t` in the head counts without ambiguity. -/
inductive Merged : Packet → Prop
  | one (p : Packet) (b : List Byte) (hs : p.segs = [b]) (hb : b ≠ []) (hl : p.len = b.length)
      (hn : p.nrReadSeg = 1) : Merged p
  | chain (head p : Packet) (b : List Byte) (h : Merged head) (hs : p.segs = [b]) (hb : b ≠ [])
      (hfit : head.len + p.l5Len < tsockMaxMergeSize) (hfew : head.segs.length < 256) :
      Merged (packetChain head p)

/-- A packet that the stack may put into the rxq: `tcp_rcv_process` has set `to_read`, and
cuts may have followed. -/
inductive Readable : Packet → Prop
  | whole (p : Packet) (h : Merged p) : Readable { p with toRead := p.segs }
  | cutHead (p : Packet) (n : Nat) (h : Readable p) (hn : n ≤ p.len) :
      Readable (tcpPacketCutHead p n)
  | cutTail (p : Packet) (n : Nat) (h : Readable p) (hn : n ≤ p.len) :
      Readable (tcpPacketCutTail p n)

private theorem Merged.spec {p : Packet} (h : Merged p) : p.nrReadSeg = p.segs.length ∧
    p.segs.length ≤ 256 ∧ p.len = p.segs.flatten.length ∧ ∀ b ∈ p.segs, b ≠ [] := by
  induction h with
  | one p b hs hb hl hn =>
    rw [hs]
    refine ⟨hn, by simp, by simpa using hl, ?_⟩
    simpa using hb
  | chain head p b h hs hb hfit hfew ih =>
    obtain ⟨h1, h2, h3, h4⟩ := ih
    have hl5 : p.l5Len = b.length := by simp [Packet.l5Len, hs]
    have hsegs : (packetChain head p).segs = head.segs ++ [b] := by simp [packetChain, hs]
    rw [hsegs]
    refine ⟨?_, ?_, ?_, ?_⟩
    · simp only [packetChain, h1, List.length_append, List.length_singleton]
      rfl
    · simp only [List.length_append, List.length_singleton]
      omega
    · have hlt : head.len + p.l5Len < 2 ^ 16 := by
        unfold tsockMaxMergeSize at hfit
        omega
      simp only [packetChain, List.flatten_append, List.flatten_singleton, List.length_append]
      rw [Nat.mod_eq_of_lt hlt, hl5, h3]
    · intro c hc
      rcases List.mem_append.mp hc with hc | hc
      · exact h4 c hc
      · rw [List.mem_singleton.mp hc]
        exact hb

theorem Readable.lent {p : Packet} (h : Readable p) : Lent 0 p := by
  induction h with
  | whole p h =>
    obtain ⟨h1, h2, h3, h4⟩ := h.spec
    refine ⟨⟨p.segs.length, by simpa using h1, by simpa using h2, ?_, Nat.le_refl _, h4⟩,
      Nat.le_refl _⟩
    rw [List.take_length]
    exact h3.symm
  | cutHead p n _ hn ih =>
    obtain ⟨⟨k, h1, h2, h3⟩, hin⟩ := ih
    obtain ⟨hle, hc, hlen⟩ := h3.cutHead hn
    refine ⟨⟨k - (cutHeadSegs p.toRead n).2, ?_, by omega, hc⟩, hlen.trans hin⟩
    simp only [tcpPacketCutHead, h1]
    omega
  | cutTail p n _ hn ih =>
    obtain ⟨⟨k, h1, h2, h3⟩, hin⟩ := ih
    obtain ⟨hle, hc, hlen⟩ := h3.cutTail (Nat.sub_le p.len n)
    exact ⟨⟨(cutTailSegs p.toRead (p.len - n)).2, by simp [tcpPacketCutTail], by omega, hc⟩,
      hlen.trans_le hin⟩

namespace Lent

variable {c n len n' : Nat} {p : Packet} {out toRead : List (List Byte)}

theorem consume (h : Lent c p) (he : LibTpa.iovSegs p.toRead p.len n = (out, toRead, len, n')) :
    Lent (c + out.length) (p.consume toRead len) ∧ (p.consume toRead len).len = len ∧
      p.unread = p.iovs out ++ (p.consume toRead len).unread := by
  obtain ⟨⟨k, h1, h2, h3⟩, hin⟩ := h
  have hspec := h3.iovSegs n
  simp only [he, Prod.mk.injEq] at hspec
  obtain ⟨ho, hr, hl, hn⟩ := hspec
  have hj : min k n ≤ k := Nat.min_le_left ..
  have hle := h3.le
  have hlen : out.length = min k n := by
    rw [ho, List.length_take]
    omega
  have hdrop : Covers toRead len (k - min k n) := by
    rw [hr, hl]
    exact h3.drop hj
  have hle' : len ≤ p.len := by
    have hsplit : ((p.toRead.take k).take (min k n)).flatten.length +
        ((p.toRead.take k).drop (min k n)).flatten.length = p.len := by
      rw [← List.length_append, ← List.flatten_append, List.take_append_drop, h3.bytes]
    omega
  have hmin : min len p.len = len := Nat.min_eq_left hle'
  have hcov : Covers (p.consume toRead len).toRead (p.consume toRead len).len (k - min k n) := by
    simpa [Packet.consume, hmin] using hdrop
  have hshort : toRead.length = p.toRead.length - min k n := by rw [hr, List.length_drop]
  refine ⟨⟨⟨k - min k n, ?_, by omega, hcov⟩, ?_⟩, hmin, ?_⟩
  · simp only [Packet.consume, h1, hlen]
    omega
  · simp only [Packet.consume]
    omega
  · have hplace : (p.consume toRead len).place = p.place + out.length := by
      simp only [Packet.place, Packet.consume, hshort, hlen]
      omega
    have hall : (LibTpa.iovSegs p.toRead p.len p.toRead.length).1 = out ++
        (LibTpa.iovSegs (p.consume toRead len).toRead (p.consume toRead len).len
          (p.consume toRead len).toRead.length).1 := by
      rw [h3.iovSegs, hcov.iovSegs]
      have htr : (p.consume toRead len).toRead = toRead := rfl
      simp only [htr, Nat.min_eq_left hle, Nat.min_eq_left hdrop.le]
      rw [ho, hr, ← List.take_add]
      congr 1
      omega
    rw [Packet.unread, Packet.iovs, hall, iovsFrom_append, Packet.unread, Packet.iovs, Packet.iovs,
      hplace]
    rfl

theorem ended (h : Lent c p) (hl : p.len = 0) :
    p.nrReadSeg = c ∧ c ≤ 256 ∧ p.unread = [] := by
  obtain ⟨⟨k, h1, h2, h3⟩, -⟩ := h
  have hk := h3.eq_zero_iff.mp hl
  subst hk
  refine ⟨by simpa using h1, by simpa using h2, ?_⟩
  rw [Packet.unread, h3.iovSegs, Nat.zero_min, List.take_zero]
  rfl

theorem handsOut (h : Lent c p) (hl : p.len ≠ 0) (hn : 0 < n)
    (he : LibTpa.iovSegs p.toRead p.len n = (out, toRead, len, n')) : out.flatten.length ≠ 0 := by
  obtain ⟨⟨k, -, -, h3⟩, -⟩ := h
  have hk : k ≠ 0 := fun hk => hl (h3.eq_zero_iff.mpr hk)
  have hspec := h3.iovSegs n
  simp only [he, Prod.mk.injEq] at hspec
  obtain ⟨ho, -, -, -⟩ := hspec
  cases hp : p.toRead with
  | nil =>
    have hle := h3.le
    rw [hp] at hle
    simp at hle
    omega
  | cons b rest =>
    have hb := List.length_pos_of_ne_nil (h3.full b (by simp [hp]))
    have hj : min k n = min k n - 1 + 1 := by omega
    rw [ho, hp, hj, List.take_succ_cons, List.flatten_cons, List.length_append]
    omega

end Lent

/-! Reads. -/

def heldOf (l : List ReadIov) (id : PktId) : Nat := (l.map ReadIov.param).count id

@[simp] theorem heldOf_nil (id : PktId) : heldOf [] id = 0 := rfl
@[simp] theorem heldOf_append (l l' : List ReadIov) (id : PktId) :
    heldOf (l ++ l') id = heldOf l id + heldOf l' id := by
  simp only [heldOf, List.map_append, List.count_append]

theorem heldOf_iovs_self (p : Packet) (out : List (List Byte)) :
    heldOf (p.iovs out) p.id = out.length := by
  simp only [heldOf, Packet.iovs, iovsFrom_param, List.count_replicate_self]

theorem heldOf_iovs_of_ne {p : Packet} {id : PktId} (h : p.id ≠ id) (out : List (List Byte)) :
    heldOf (p.iovs out) id = 0 := by
  simp only [heldOf, Packet.iovs, iovsFrom_param, List.count_replicate]
  exact if_neg (by simpa using h)

/-- The packets of a queue whose buffers the application holds as `c` says. -/
structure QueueLent (c : PktId → Nat) (q : List Packet) : Prop where
  lent : ∀ p ∈ q, Lent (c p.id) p
  nonempty : ∀ p ∈ q, p.len ≠ 0
  nodup : (q.map Packet.id).Nodup

structure ReadSpec (c : PktId → Nat) (q : List Packet) (n : Nat) : Prop where
  unread : rxqUnread q = readIovs q n ++ rxqUnread (readLoop q n).2.1
  ids : q.map Packet.id = (readEnd q n).map Packet.id ++ (readLoop q n).2.1.map Packet.id
  foreign : ∀ id ∉ q.map Packet.id, heldOf (readIovs q n) id = 0
  ended : ∀ p ∈ readEnd q n, p.nrReadSeg = (c p.id + heldOf (readIovs q n) p.id : Nat) ∧
    c p.id + heldOf (readIovs q n) p.id ≤ 256 ∧ heldOf (readIovs q n) p.id ≠ 0
  rest : ∀ p ∈ (readLoop q n).2.1,
    Lent (c p.id + heldOf (readIovs q n) p.id) p ∧ p.len ≠ 0

namespace QueueLent

variable {c : PktId → Nat} {q : List Packet} {p : Packet} {n : Nat}

theorem tail (h : QueueLent c (p :: q)) : QueueLent c q :=
  ⟨fun x hx => h.lent x (List.mem_cons_of_mem _ hx),
    fun x hx => h.nonempty x (List.mem_cons_of_mem _ hx), (List.nodup_cons.mp h.nodup).2⟩

private theorem head_notMem (h : QueueLent c (p :: q)) : p.id ∉ q.map Packet.id :=
  (List.nodup_cons.mp h.nodup).1

private theorem head_ended {out toRead : List (List Byte)} {n' : Nat} (h : QueueLent c (p :: q))
    (he : LibTpa.iovSegs p.toRead p.len n = (out, toRead, 0, n')) : out.length ≠ 0 := by
  have hp := h.lent p (List.mem_cons_self ..)
  have hlen := h.nonempty p (List.mem_cons_self ..)
  intro h0
  have hn : n ≠ 0 := by
    rintro rfl
    cases hs : p.toRead <;> simp [LibTpa.iovSegs, hs] at he <;> exact hlen he.2.2.1
  have hpos := hp.handsOut hlen (Nat.pos_of_ne_zero hn) he
  rw [List.length_eq_zero_iff.mp h0] at hpos
  exact hpos rfl

private theorem readLoop_ended {out toRead : List (List Byte)} {n' : Nat}
    (h : QueueLent c (p :: q)) (he : LibTpa.iovSegs p.toRead p.len n = (out, toRead, 0, n'))
    (hspec : ReadSpec c q n') : ReadSpec c (p :: q) n := by
  have hread : readIovs (p :: q) n = p.iovs out ++ readIovs q n' := by simp only [readIovs, he]
  have hend : readEnd (p :: q) n = p.consume toRead 0 :: readEnd q n' := by
    simp only [readEnd, he]
  have hrest : (LibTpa.readLoop (p :: q) n).2.1 = (LibTpa.readLoop q n').2.1 := by
    simp only [LibTpa.readLoop, he]
  obtain ⟨hcount, hl, hun⟩ := (h.lent p (List.mem_cons_self ..)).consume he
  obtain ⟨hseg, hfew, hnone⟩ := hcount.ended hl
  have hnot := h.head_notMem
  have hself : heldOf (readIovs q n') p.id = 0 := hspec.foreign _ hnot
  have hother : ∀ x : PktId, x ∈ q.map Packet.id → heldOf (p.iovs out) x = 0 :=
    fun x hx => heldOf_iovs_of_ne (fun hid => hnot (hid ▸ hx)) out
  refine ⟨?_, ?_, ?_, ?_, ?_⟩
  · rw [rxqUnread_cons, hun, hnone, List.append_nil, hspec.unread, hread, hrest,
      List.append_assoc]
  · rw [hend, hrest, List.map_cons, List.map_cons, hspec.ids]
    rfl
  · intro id hid
    rw [List.map_cons, List.mem_cons, not_or] at hid
    rw [hread, heldOf_append, heldOf_iovs_of_ne (Ne.symm hid.1), hspec.foreign id hid.2]
  · intro x hx
    rw [hend] at hx
    rw [hread, heldOf_append]
    rcases List.mem_cons.mp hx with rfl | hx
    · have hid : (p.consume toRead 0).id = p.id := rfl
      rw [hid, hself, heldOf_iovs_self, Nat.add_zero]
      exact ⟨hseg, hfew, h.head_ended he⟩
    · have hmem : x.id ∈ q.map Packet.id := by
        rw [hspec.ids]
        exact List.mem_append_left _ (List.mem_map_of_mem hx)
      rw [hother _ hmem, Nat.zero_add]
      exact hspec.ended x hx
  · intro x hx
    rw [hrest] at hx
    have hmem : x.id ∈ q.map Packet.id := by
      rw [hspec.ids]
      exact List.mem_append_right _ (List.mem_map_of_mem hx)
    rw [hread, heldOf_append, hother _ hmem, Nat.zero_add]
    exact hspec.rest x hx

private theorem readLoop_stopped {out toRead : List (List Byte)} {len n' : Nat}
    (h : QueueLent c (p :: q))
    (he : LibTpa.iovSegs p.toRead p.len n = (out, toRead, len + 1, n')) :
    ReadSpec c (p :: q) n := by
  have hread : readIovs (p :: q) n = p.iovs out := by simp only [readIovs, he]
  have hend : readEnd (p :: q) n = [] := by simp only [readEnd, he]
  have hrest : (LibTpa.readLoop (p :: q) n).2.1 = p.consume toRead (len + 1) :: q := by
    simp only [LibTpa.readLoop, he]
  obtain ⟨hcount, hl, hun⟩ := (h.lent p (List.mem_cons_self ..)).consume he
  refine ⟨?_, ?_, ?_, ?_, ?_⟩
  · rw [rxqUnread_cons, hun, hread, hrest, List.append_assoc, rxqUnread_cons]
  · rw [hend, hrest]
    rfl
  · intro id hid
    rw [List.map_cons, List.mem_cons, not_or] at hid
    rw [hread, heldOf_iovs_of_ne (Ne.symm hid.1)]
  · intro x hx
    rw [hend] at hx
    exact absurd hx List.not_mem_nil
  · intro x hx
    rw [hrest] at hx
    rw [hread]
    rcases List.mem_cons.mp hx with rfl | hx
    · have hid : (p.consume toRead (len + 1)).id = p.id := rfl
      rw [hid, heldOf_iovs_self]
      exact ⟨hcount, by rw [hl]; exact Nat.succ_ne_zero len⟩
    · have hmem : x.id ∈ q.map Packet.id := List.mem_map_of_mem hx
      rw [heldOf_iovs_of_ne (fun hid => h.head_notMem (hid ▸ hmem)), Nat.add_zero]
      exact ⟨h.lent x (List.mem_cons_of_mem _ hx), h.nonempty x (List.mem_cons_of_mem _ hx)⟩

theorem readLoop (h : QueueLent c q) (n : Nat) : ReadSpec c q n := by
  induction q generalizing n with
  | nil => exact ⟨rfl, rfl, fun _ _ => rfl, by simp [readEnd], by simp [LibTpa.readLoop]⟩
  | cons p rest ih =>
    rcases he : LibTpa.iovSegs p.toRead p.len n with ⟨out, toRead, _ | len, n'⟩
    · exact h.readLoop_ended he (ih h.tail n')
    · exact h.readLoop_stopped he

theorem reads (h : QueueLent c q) (hq : q ≠ []) (hn : 0 < n) :
    (LibTpa.readLoop q n).1.flatten.length ≠ 0 := by
  cases q with
  | nil => exact absurd rfl hq
  | cons p rest =>
    have hp := h.lent p (List.mem_cons_self ..)
    have hlen := h.nonempty p (List.mem_cons_self ..)
    rcases he : LibTpa.iovSegs p.toRead p.len n with ⟨out, toRead, _ | len, n'⟩
    · have hpos := hp.handsOut hlen hn he
      simp only [LibTpa.readLoop, he, List.flatten_append, List.length_append]
      omega
    · simpa only [LibTpa.readLoop, he] using hp.handsOut hlen hn he

end QueueLent

end LibTpa
