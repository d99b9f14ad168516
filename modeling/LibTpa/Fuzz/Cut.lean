/- LibTpa/Fuzz/Cut
   digest: The packet fuzzer that cuts bytes off the payload of a transmitted packet. -/

import LibTpa.Cfg.Number

set_option autoImplicit false

namespace LibTpa

/-- `struct rte_mbuf` as one buffer of a chain: its memory, `data_off` and `data_len`; and whether
`tsock` of the `struct packet` around it points at a socket. -/
structure Mbuf where
  mem : Int → Byte
  off : Int
  len : U16
  tsock : Bool

def Mbuf.bytes (m : Mbuf) : List Byte :=
  (List.range m.len.toNat).map fun i : Nat => m.mem (m.off + (i : Int))

def Mbuf.adj (m : Mbuf) (k : Int) : Mbuf :=
  { m with off := m.off + k, len := m.len - BitVec.ofInt 16 k }

/-- A packet in a `dev_txq`. The header is in the first `hdrLen` bytes of `head`; the fields of it
that a cut looks at are kept apart. -/
structure TxPkt where
  head : Mbuf
  rest : List Mbuf
  pktLen : U32
  nbSegs : U16
  hdrLen : Nat
  ipv6 : Bool
  ipLen : U16
  seq : U32

def rtePktmbufAdj (p : TxPkt) (len : Nat) : TxPkt :=
  if p.head.len.toNat < len then p
  else { p with head := p.head.adj len, pktLen := p.pktLen - BitVec.ofNat 32 len }

def rtePktmbufPrepend (p : TxPkt) (len : Nat) : Option TxPkt :=
  if p.head.off < len then none
  else some { p with head := p.head.adj (-len), pktLen := p.pktLen + BitVec.ofNat 32 len }

/-- The loop of `mbuf_cut_head`: the buffer where it ends, those behind it, and how many were freed.
Without a result it runs off the chain. -/
def freeSegs : List Mbuf → Nat → Option (Mbuf × List Mbuf × Nat)
  | [], _ => none
  | m :: rest, left =>
    if m.len.toNat < left then
      (freeSegs rest (left - m.len.toNat)).map fun r => (r.1, r.2.1, r.2.2 + 1)
    else some (m.adj left, rest, 0)

/-- `mbuf_cut_head`; without a result an assertion fails. -/
def mbufCutHead (p : TxPkt) (size : Nat) : Option TxPkt :=
  if p.pktLen.toNat < size then none
  else (freeSegs (p.head :: p.rest) size).map fun r =>
    { p with
      head := r.1, rest := r.2.1, pktLen := p.pktLen - BitVec.ofNat 32 size
      nbSegs := p.nbSegs - BitVec.ofNat 16 r.2.2 }

/-- `trace_pktfuzz_cut` looks at the socket of the packet; without a result there is none. -/
def tracePktfuzzCut (p : TxPkt) : Option TxPkt := if p.head.tsock then some p else none

def cutHead (p : TxPkt) (size : Int) : Option TxPkt :=
  (tracePktfuzzCut { p with
    ipLen := p.ipLen - BitVec.ofInt 16 size, seq := p.seq + BitVec.ofInt 32 size }).bind fun p =>
  if size < (p.head.len.toNat : Int) - p.hdrLen then
    some { p with head := p.head.adj size, pktLen := p.pktLen - BitVec.ofInt 32 size }
  else
    (mbufCutHead (rtePktmbufAdj p p.hdrLen) size.toNat).bind fun q => rtePktmbufPrepend q p.hdrLen

/-- The loop of `cut_tail`, with the buffers that are kept. Without a result it runs off the
chain. -/
def keepSegs : Mbuf → List Mbuf → Int → Option (Mbuf × List Mbuf)
  | m, [], size =>
    if (m.len.toNat : Int) ≤ size then none else some ({ m with len := BitVec.ofInt 16 size }, [])
  | m, m' :: rest, size =>
    if (m.len.toNat : Int) ≤ size then
      (keepSegs m' rest (size - m.len.toNat)).map fun r => (m, r.1 :: r.2)
    else some ({ m with len := BitVec.ofInt 16 size }, [])

def cutTail (p : TxPkt) (size : Int) : Option TxPkt :=
  (tracePktfuzzCut { p with
    ipLen := p.ipLen - BitVec.ofInt 16 size, pktLen :=
      p.pktLen - BitVec.ofInt 32 size }).bind fun p =>
  let p := rtePktmbufAdj p p.hdrLen
  (keepSegs p.head p.rest p.pktLen.toInt).map fun r =>
    let q := { p with head := r.1, rest := r.2, nbSegs := BitVec.ofNat 16 (r.2.length + 1) }
    (rtePktmbufPrepend q p.hdrLen).getD q

structure FuzzCutCfg where
  random : Bool := false
  num : BitVec 32 := 0
  head : Bool := false
  tail : Bool := false

inductive CutOpt
  | rate
  | size (val : List Char)
  | head
  | tail
  | other

def parseCutSize (cut : FuzzCutCfg) (val : List Char) : Option FuzzCutCfg :=
  if val = ['r', 'a', 'n', 'd', 'o', 'm'] then some { cut with random := true }
  else (tpaParseNum val .size).map fun n => { cut with random := false, num := n.setWidth 32 }

def cutParseOpt (cut : FuzzCutCfg) : CutOpt → Option FuzzCutCfg
  | .rate => some cut
  | .size val => parseCutSize cut val
  | .head => some { cut with head := true }
  | .tail => some { cut with tail := true }
  | .other => none

def cutParse (opts : List CutOpt) : Option FuzzCutCfg :=
  (opts.foldlM cutParseOpt {}).map fun cut =>
    let cut := if cut.head = false ∧ cut.tail = false then { cut with tail := true } else cut
    if cut.random = false ∧ cut.num = 0 then { cut with num := 1 } else cut

def getCutSize (cut : FuzzCutCfg) (tsc payloadLen : Nat) : Int :=
  if cut.random then ((tsc % payloadLen / (cut.head.toNat + cut.tail.toNat) : Nat) : Int)
  else min cut.num.toInt payloadLen

/-- `do_cut` on the last packet of the queue, with the copy that `pktfuzz_packet_copy` has made of
it: the packet that is last in the queue afterwards. -/
def doCut (cut : FuzzCutCfg) (tsc payloadLen : Nat) (pkt : TxPkt) : Option TxPkt → Option TxPkt
  | none => some pkt
  | some copy =>
    let size := getCutSize cut tsc (payloadLen % 2 ^ 16)
    if size = 0 then some copy
    else (if cut.head then cutHead copy size else some copy).bind fun copy =>
      if cut.tail then cutTail copy size else some copy

def chainBytes (l : List Mbuf) : List Byte := (l.map Mbuf.bytes).flatten

def TxPkt.inner (p : TxPkt) : List Mbuf := p.head.adj p.hdrLen :: p.rest

def TxPkt.payload (p : TxPkt) : List Byte := chainBytes p.inner

/-- The bytes in front of what the length field of the IP header counts. -/
def TxPkt.skip (p : TxPkt) : Nat := if p.ipv6 then 54 else 14

structure TxPkt.Wf (p : TxPkt) : Prop where
  hdr : p.hdrLen ≤ p.head.len.toNat
  skip : p.skip ≤ p.hdrLen
  pktLen : p.pktLen.toNat = p.hdrLen + p.payload.length
  ipLen : p.ipLen.toNat + p.skip = p.hdrLen + p.payload.length

def Mbuf.Room (k : Nat) (m : Mbuf) : Prop := k ≤ m.off ∧ m.off + m.len.toNat < 2 ^ 16

structure TxPkt.Roomy (p : TxPkt) : Prop extends p.Wf where
  room : ∀ m ∈ p.inner, m.Room p.hdrLen

/-- `pktfuzz_packet_copy` has put the bytes of `p` in buffers of its own, and only the first one
knows the socket. -/
structure CopyOf (p c : TxPkt) : Prop extends c.Roomy where
  first : c.head.tsock = true
  later : ∀ m ∈ c.rest, m.tsock = false
  payload : c.payload = p.payload
  hdrLen : c.hdrLen = p.hdrLen
  ipv6 : c.ipv6 = p.ipv6
  seq : c.seq = p.seq

/-- `q` is `p` without `h` bytes at the front and `t` bytes at the back of the payload. -/
structure SubSegment (p q : TxPkt) (h t : Nat) : Prop where
  bound : h + t ≤ p.payload.length
  payload : q.payload = (p.payload.take (p.payload.length - t)).drop h
  seq : q.seq = p.seq + BitVec.ofNat 32 h
  hdrLen : q.hdrLen = p.hdrLen
  ipLen : q.ipLen.toNat + p.skip = q.hdrLen + q.payload.length
  pktLen : q.pktLen.toNat = q.hdrLen + q.payload.length
  dataLen : ((q.head :: q.rest).map fun m => m.len.toNat).sum = q.hdrLen + q.payload.length

namespace Mbuf

variable {m : Mbuf} {k j : Nat}

@[simp] theorem bytes_length (m : Mbuf) : m.bytes.length = m.len.toNat := by
  simp [bytes]

theorem adj_adj (m : Mbuf) (a b : Int) : (m.adj a).adj b = m.adj (a + b) := by
  unfold adj
  rw [BitVec.ofInt_add]
  simp only [add_assoc, Mbuf.mk.injEq, true_and, and_true]
  abel

@[simp] theorem adj_zero (m : Mbuf) : m.adj 0 = m := by
  simp [adj]

theorem adj_len (h : k ≤ m.len.toNat) : (m.adj k).len.toNat = m.len.toNat - k := by
  have hk : BitVec.ofInt 16 (k : Int) = BitVec.ofNat 16 k := BitVec.ofInt_natCast ..
  have hlt := m.len.isLt
  show (m.len - BitVec.ofInt 16 k).toNat = _
  rw [hk, BitVec.toNat_sub, BitVec.toNat_ofNat]
  omega

theorem bytes_adj (h : k ≤ m.len.toNat) : (m.adj k).bytes = m.bytes.drop k := by
  apply List.ext_getElem
  · rw [bytes_length, adj_len h, List.length_drop, bytes_length]
  · intro i _ _
    simp only [bytes, adj, List.getElem_map, List.getElem_range, List.getElem_drop]
    congr 1
    omega

theorem bytes_setLen (h : k ≤ m.len.toNat) :
    bytes { m with len := BitVec.ofInt 16 k } = m.bytes.take k := by
  have hlt := m.len.isLt
  have hk : (BitVec.ofInt 16 (k : Int)).toNat = k := by
    rw [BitVec.ofInt_natCast, BitVec.toNat_ofNat, Nat.mod_eq_of_lt (by omega)]
  unfold bytes
  rw [← List.map_take, List.take_range, Nat.min_eq_left h]
  rw [hk]

theorem Room.adj (h : m.Room k) (hj : j ≤ m.len.toNat) : (m.adj j).Room k := by
  obtain ⟨h1, h2⟩ := h
  have hoff : (m.adj j).off = m.off + j := rfl
  have hlen := adj_len hj
  unfold Room
  omega

theorem Room.prepend (h : m.Room k) :
    (m.adj (-k)).adj k = m ∧ (m.adj (-k)).len.toNat = m.len.toNat + k := by
  obtain ⟨h1, h2⟩ := h
  constructor
  · rw [adj_adj, neg_add_cancel, adj_zero]
  · have hk : BitVec.ofInt 16 (-(k : Int)) = -BitVec.ofNat 16 k := by
      rw [BitVec.ofInt_neg, BitVec.ofInt_natCast]
    show (m.len - BitVec.ofInt 16 (-k)).toNat = _
    rw [hk, sub_neg_eq_add, BitVec.toNat_add, BitVec.toNat_ofNat]
    omega

end Mbuf

@[simp] theorem chainBytes_cons (m : Mbuf) (l : List Mbuf) :
    chainBytes (m :: l) = m.bytes ++ chainBytes l := rfl

theorem chainBytes_length (l : List Mbuf) :
    (chainBytes l).length = (l.map fun m => m.len.toNat).sum := by
  induction l with
  | nil => rfl
  | cons m l ih =>
    rw [chainBytes_cons, List.length_append, ih, m.bytes_length, List.map_cons, List.sum_cons]

theorem freeSegs_spec {k : Nat} (l : List Mbuf) : ∀ left : Nat, left ≤ (chainBytes l).length →
    l ≠ [] → (∀ m ∈ l, m.Room k) → ∃ m rest n, freeSegs l left = some (m, rest, n) ∧
      chainBytes (m :: rest) = (chainBytes l).drop left ∧ ∀ x ∈ m :: rest, x.Room k := by
  induction l with
  | nil => exact fun _ _ hne => absurd rfl hne
  | cons m l ih =>
    intro left hle _ hroom
    have hl := fun x hx => hroom x (List.mem_cons_of_mem m hx)
    rw [chainBytes_cons, List.length_append, m.bytes_length] at hle
    unfold freeSegs
    split
    · next hlt =>
      have hne : l ≠ [] := by
        rintro rfl
        simp [chainBytes] at hle
        omega
      obtain ⟨m', rest, n, hfree, hbytes, hr⟩ := ih (left - m.len.toNat) (by omega) hne hl
      refine ⟨m', rest, n + 1, by rw [hfree]; rfl, ?_, hr⟩
      have hnil : m.bytes.drop left = [] := List.drop_eq_nil_of_le (by rw [m.bytes_length]; omega)
      rw [hbytes, chainBytes_cons, List.drop_append, hnil, List.nil_append, m.bytes_length]
    · next hge =>
      refine ⟨_, _, _, rfl, ?_, ?_⟩
      · rw [chainBytes_cons, chainBytes_cons, Mbuf.bytes_adj (by omega),
          List.drop_append_of_le_length (by rw [m.bytes_length]; omega)]
      · intro x hx
        rcases List.mem_cons.mp hx with rfl | hx
        · exact (hroom m (List.mem_cons_self ..)).adj (by omega)
        · exact hl x hx

theorem freeSegs_tsock {m : Mbuf} {l : List Mbuf} {left : Nat} {r : Mbuf × List Mbuf × Nat}
    (h : freeSegs (m :: l) left = some r) :
    if left ≤ m.len.toNat then r.1.tsock = m.tsock else ∃ x ∈ l, r.1.tsock = x.tsock := by
  induction l generalizing m left r with
  | nil =>
    unfold freeSegs at h
    split at h
    · cases h
    · next hge =>
      rw [if_pos (Nat.le_of_not_lt hge)]
      cases h
      rfl
  | cons m' l ih =>
    unfold freeSegs at h
    split at h
    · next hlt =>
      rw [if_neg (Nat.not_le.mpr hlt)]
      obtain ⟨r', hr', rfl⟩ := Option.map_eq_some_iff.mp h
      have hend := ih hr'
      split at hend
      · exact ⟨m', List.mem_cons_self, hend⟩
      · obtain ⟨x, hx, hxr⟩ := hend
        exact ⟨x, List.mem_cons_of_mem _ hx, hxr⟩
    · next hge =>
      rw [if_pos (Nat.le_of_not_lt hge)]
      cases h
      rfl

private theorem room_setLen {m : Mbuf} {k n : Nat} (h : m.Room k) (hn : n < m.len.toNat) :
    Mbuf.Room k { m with len := BitVec.ofInt 16 n } := by
  have hlt := m.len.isLt
  have hlen : (BitVec.ofInt 16 (n : Int)).toNat = n := by
    rw [BitVec.ofInt_natCast, BitVec.toNat_ofNat, Nat.mod_eq_of_lt (by omega)]
  obtain ⟨h1, h2⟩ := h
  refine ⟨h1, ?_⟩
  dsimp only
  omega

theorem keepSegs_spec {k : Nat} (l : List Mbuf) : ∀ (m : Mbuf) (n : Nat),
    n < (chainBytes (m :: l)).length → (∀ x ∈ m :: l, x.Room k) →
    ∃ m' rest, keepSegs m l n = some (m', rest) ∧
      chainBytes (m' :: rest) = (chainBytes (m :: l)).take n ∧ ∀ x ∈ m' :: rest, x.Room k := by
  -- the buffer in which the kept bytes end
  have hend : ∀ (m : Mbuf) (l : List Mbuf) (n : Nat), n < m.len.toNat → m.Room k →
      chainBytes [{ m with len := BitVec.ofInt 16 n }] = (chainBytes (m :: l)).take n ∧
        ∀ x ∈ [({ m with len := BitVec.ofInt 16 n } : Mbuf)], x.Room k := by
    intro m l n hlt hm
    refine ⟨?_, fun x hx => ?_⟩
    · rw [chainBytes_cons, chainBytes_cons, Mbuf.bytes_setLen (by omega),
        List.take_append_of_le_length (by rw [m.bytes_length]; omega)]
      exact List.append_nil _
    · rw [List.mem_singleton.mp hx]
      exact room_setLen hm hlt
  induction l with
  | nil =>
    intro m n hn hroom
    have hlt : n < m.len.toNat := by simpa [chainBytes] using hn
    unfold keepSegs
    rw [if_neg (by omega)]
    exact ⟨_, _, rfl, hend m [] n hlt (hroom m (List.mem_cons_self ..))⟩
  | cons m' l ih =>
    intro m n hn hroom
    rw [chainBytes_cons, List.length_append, m.bytes_length] at hn
    unfold keepSegs
    split
    · next hle =>
      have hle : m.len.toNat ≤ n := by omega
      obtain ⟨x, rest, hkeep, hbytes, hr⟩ := ih m' (n - m.len.toNat) (by omega)
        fun y hy => hroom y (List.mem_cons_of_mem m hy)
      rw [show (n : Int) - m.len.toNat = ((n - m.len.toNat : Nat) : Int) by omega, hkeep]
      refine ⟨m, x :: rest, rfl, ?_, ?_⟩
      · have hall : m.bytes.take n = m.bytes :=
          List.take_of_length_le (by rw [m.bytes_length]; exact hle)
        rw [chainBytes_cons, hbytes, chainBytes_cons m, List.take_append, m.bytes_length, hall]
      · intro y hy
        rcases List.mem_cons.mp hy with rfl | hy
        · exact hroom y (List.mem_cons_self ..)
        · exact hr y hy
    · next hlt => exact ⟨_, _, rfl, hend m _ n (by omega) (hroom m (List.mem_cons_self ..))⟩

private theorem toNat_sub_ofInt {w : Nat} {x : BitVec w} {s : Nat} (h : s ≤ x.toNat) :
    (x - BitVec.ofInt w s).toNat + s = x.toNat := by
  have hlt := x.isLt
  rw [BitVec.ofInt_natCast, BitVec.toNat_sub, BitVec.toNat_ofNat,
    Nat.mod_eq_of_lt (by omega : s < 2 ^ w),
    show 2 ^ w - s + x.toNat = 2 ^ w + (x.toNat - s) by omega, Nat.add_mod_left,
    Nat.mod_eq_of_lt (by omega)]
  omega

theorem TxPkt.Wf.payload_lt {p : TxPkt} (h : p.Wf) : p.payload.length < 2 ^ 16 := by
  have h1 := h.ipLen
  have h2 := h.skip
  have h3 := p.ipLen.isLt
  omega

theorem TxPkt.Wf.subSegment {p q : TxPkt} {h t : Nat} (hq : q.Wf) (hdr : q.hdrLen = p.hdrLen)
    (hv6 : q.ipv6 = p.ipv6) (hb : h + t ≤ p.payload.length)
    (hpay : q.payload = (p.payload.take (p.payload.length - t)).drop h)
    (hseq : q.seq = p.seq + BitVec.ofNat 32 h) : SubSegment p q h t := by
  have hskip : q.skip = p.skip := by rw [TxPkt.skip, TxPkt.skip, hv6]
  have hlen : q.payload.length =
      (q.head.len.toNat - q.hdrLen) + (q.rest.map fun m => m.len.toNat).sum := by
    rw [TxPkt.payload, chainBytes_length, TxPkt.inner, List.map_cons, List.sum_cons,
      Mbuf.adj_len hq.hdr]
  have hhdr := hq.hdr
  refine ⟨hb, hpay, hseq, hdr, hskip ▸ hq.ipLen, hq.pktLen, ?_⟩
  rw [List.map_cons, List.sum_cons]
  omega

theorem tracePktfuzzCut_eq_some {p q : TxPkt} :
    tracePktfuzzCut p = some q ↔ p.head.tsock = true ∧ p = q := by
  unfold tracePktfuzzCut
  split
  · next h => simp [h]
  · next h => simp [h]

structure HeadCut (p : TxPkt) (s : Nat) (q : TxPkt) : Prop extends q.Roomy where
  payload : q.payload = p.payload.drop s
  hdrLen : q.hdrLen = p.hdrLen
  ipv6 : q.ipv6 = p.ipv6
  seq : q.seq = p.seq + BitVec.ofNat 32 s
  tsock : if s ≤ p.head.len.toNat - p.hdrLen then q.head.tsock = p.head.tsock
    else ∃ x ∈ p.rest, q.head.tsock = x.tsock

namespace TxPkt.Roomy

variable {p q : TxPkt} {m : Mbuf} {rest : List Mbuf} {s t : Nat}

theorem replace (h : p.Roomy) (hhead : q.head = m.adj (-p.hdrLen)) (hrest : q.rest = rest)
    (hhdr : q.hdrLen = p.hdrLen) (hv6 : q.ipv6 = p.ipv6)
    (hpkt : q.pktLen = p.pktLen - BitVec.ofInt 32 s)
    (hip : q.ipLen = p.ipLen - BitVec.ofInt 16 s) (hroom : ∀ x ∈ m :: rest, x.Room p.hdrLen)
    (hlen : (chainBytes (m :: rest)).length + s = p.payload.length) :
    q.Roomy ∧ q.payload = chainBytes (m :: rest) := by
  obtain ⟨hback, hl⟩ := (hroom m (List.mem_cons_self ..)).prepend
  have hinner : q.inner = m :: rest := by rw [TxPkt.inner, hhead, hrest, hhdr, hback]
  have hskip : q.skip = p.skip := by rw [TxPkt.skip, TxPkt.skip, hv6]
  have h1 := h.ipLen
  have h2 := h.skip
  have h3 := h.pktLen
  have hpay : q.payload = chainBytes (m :: rest) := by rw [TxPkt.payload, hinner]
  refine ⟨⟨⟨?_, ?_, ?_, ?_⟩, ?_⟩, hpay⟩
  · rw [hhead, hhdr, hl]
    omega
  · rw [hskip, hhdr]
    exact h.skip
  · have hsub := toNat_sub_ofInt (x := p.pktLen) (s := s) (by omega)
    rw [hpay, hpkt, hhdr]
    omega
  · have hsub := toNat_sub_ofInt (x := p.ipLen) (s := s) (by omega)
    rw [hpay, hip, hhdr, hskip]
    omega
  · rw [hinner, hhdr]
    exact hroom

theorem cutHead (h : p.Roomy) (hsock : p.head.tsock = true) (hs : s ≤ p.payload.length) :
    ∃ q, LibTpa.cutHead p s = some q ∧ HeadCut p s q := by
  have hdr := h.hdr
  have hseq : p.seq + BitVec.ofInt 32 s = p.seq + BitVec.ofNat 32 s := by rw [BitVec.ofInt_natCast]
  unfold LibTpa.cutHead
  rw [(tracePktfuzzCut_eq_some (p := { p with ipLen := p.ipLen - BitVec.ofInt 16 s
                                              seq := p.seq + BitVec.ofInt 32 s })).mpr ⟨hsock, rfl⟩,
    Option.bind_some]
  dsimp only
  split
  · next hshort =>
    -- the header moves on inside the first buffer
    have hle : s ≤ (p.head.adj p.hdrLen).len.toNat := by
      rw [Mbuf.adj_len hdr]
      omega
    have hbytes : chainBytes ((p.head.adj p.hdrLen).adj s :: p.rest) = p.payload.drop s := by
      rw [chainBytes_cons, Mbuf.bytes_adj hle, TxPkt.payload, TxPkt.inner, chainBytes_cons,
        List.drop_append_of_le_length (by rw [Mbuf.bytes_length]; exact hle)]
    have hroom : ∀ x ∈ (p.head.adj p.hdrLen).adj s :: p.rest, x.Room p.hdrLen := by
      intro x hx
      rcases List.mem_cons.mp hx with rfl | hx
      · exact (h.room _ (List.mem_cons_self ..)).adj hle
      · exact h.room x (List.mem_cons_of_mem _ hx)
    have hmove : p.head.adj s = ((p.head.adj p.hdrLen).adj s).adj (-p.hdrLen) := by
      rw [Mbuf.adj_adj, Mbuf.adj_adj]
      congr 1
      omega
    obtain ⟨hwf, hpay⟩ := h.replace (q := { p with
        head := p.head.adj s, pktLen := p.pktLen - BitVec.ofInt 32 s
        ipLen := p.ipLen - BitVec.ofInt 16 s, seq := p.seq + BitVec.ofInt 32 s })
      hmove rfl rfl rfl rfl rfl hroom (by rw [hbytes, List.length_drop]; omega)
    refine ⟨_, rfl, hwf, hpay.trans hbytes, rfl, rfl, hseq, ?_⟩
    rw [if_pos (by omega)]
    rfl
  · have hlen := h.pktLen
    have hplen : (p.pktLen - BitVec.ofNat 32 p.hdrLen).toNat = p.payload.length := by
      have hsub := toNat_sub_ofInt (x := p.pktLen) (s := p.hdrLen) (by omega)
      rw [BitVec.ofInt_natCast] at hsub
      omega
    obtain ⟨m, rest, n, hfree, hbytes, hroom⟩ :=
      freeSegs_spec p.inner s hs (List.cons_ne_nil _ _) h.room
    have hend := freeSegs_tsock hfree
    unfold rtePktmbufAdj mbufCutHead
    rw [if_neg (Nat.not_lt.mpr hdr)]
    rw [if_neg (by rw [hplen, Int.toNat_natCast]; omega), Int.toNat_natCast,
      show p.head.adj p.hdrLen :: p.rest = p.inner from rfl, hfree, Option.map_some,
      Option.bind_some]
    unfold rtePktmbufPrepend
    rw [if_neg (not_lt.mpr (hroom m (List.mem_cons_self ..)).1)]
    have hpkt : p.pktLen - BitVec.ofNat 32 p.hdrLen - BitVec.ofNat 32 s + BitVec.ofNat 32 p.hdrLen =
        p.pktLen - BitVec.ofInt 32 s := by
      abel
    rw [Mbuf.adj_len hdr] at hend
    refine ⟨_, rfl, ?_⟩
    obtain ⟨hwf, hpay⟩ := h.replace (q := { p with
        head := m.adj (-p.hdrLen), rest := rest, nbSegs := p.nbSegs - BitVec.ofNat 16 n
        pktLen := p.pktLen - BitVec.ofNat 32 p.hdrLen - BitVec.ofNat 32 s + BitVec.ofNat 32 p.hdrLen
        ipLen := p.ipLen - BitVec.ofInt 16 s, seq := p.seq + BitVec.ofInt 32 s })
      rfl rfl rfl rfl hpkt rfl hroom (by rw [hbytes, List.length_drop]; exact Nat.sub_add_cancel hs)
    exact ⟨hwf, hpay.trans hbytes, rfl, rfl, hseq, hend⟩

theorem cutTail (h : p.Roomy) (hsock : p.head.tsock = true) (h0 : 0 < t)
    (ht : t ≤ p.payload.length) :
    ∃ q, LibTpa.cutTail p t = some q ∧ q.Roomy ∧
      q.payload = p.payload.take (p.payload.length - t) ∧ q.hdrLen = p.hdrLen ∧ q.ipv6 = p.ipv6 ∧
      q.seq = p.seq := by
  have hlen := h.pktLen
  have hlt := h.payload_lt
  have hkept : (p.pktLen - BitVec.ofInt 32 t - BitVec.ofNat 32 p.hdrLen).toInt =
      ((p.payload.length - t : Nat) : Int) := by
    have h1 := toNat_sub_ofInt (x := p.pktLen) (s := t) (by omega)
    have h2 := toNat_sub_ofInt (x := p.pktLen - BitVec.ofInt 32 t) (s := p.hdrLen) (by omega)
    rw [BitVec.ofInt_natCast 32 p.hdrLen] at h2
    rw [BitVec.toInt_eq_toNat_of_lt (by omega)]
    omega
  obtain ⟨m, rest, hkeep, hbytes, hroom⟩ :=
    keepSegs_spec p.rest (p.head.adj p.hdrLen) (p.payload.length - t)
      (show _ < p.payload.length by omega) h.room
  unfold LibTpa.cutTail
  rw [(tracePktfuzzCut_eq_some (p := { p with ipLen := p.ipLen - BitVec.ofInt 16 t
                                              pktLen := p.pktLen - BitVec.ofInt 32 t })).mpr
    ⟨hsock, rfl⟩, Option.bind_some]
  unfold rtePktmbufAdj
  dsimp only
  rw [if_neg (Nat.not_lt.mpr h.hdr)]
  rw [hkept, hkeep, Option.map_some]
  unfold rtePktmbufPrepend
  rw [if_neg (not_lt.mpr (hroom m (List.mem_cons_self ..)).1), Option.getD_some]
  have hpkt : p.pktLen - BitVec.ofInt 32 t - BitVec.ofNat 32 p.hdrLen + BitVec.ofNat 32 p.hdrLen =
      p.pktLen - BitVec.ofInt 32 t := sub_add_cancel _ _
  refine ⟨_, rfl, ?_⟩
  refine And.imp_right (fun hpay => ⟨hpay.trans hbytes, rfl, rfl, rfl⟩)
    (h.replace rfl rfl rfl rfl hpkt rfl hroom ?_)
  rw [hbytes, List.length_take]
  show min (p.payload.length - t) p.payload.length + t = p.payload.length
  omega

end TxPkt.Roomy

theorem keepSegs_off {m : Mbuf} {l : List Mbuf} {size : Int} {r : Mbuf × List Mbuf}
    (h : keepSegs m l size = some r) : r.1.off = m.off := by
  cases l with
  | nil =>
    rw [keepSegs] at h
    split at h
    · cases h
    · cases h
      rfl
  | cons m' rest =>
    rw [keepSegs] at h
    split at h
    · obtain ⟨r', -, rfl⟩ := Option.map_eq_some_iff.mp h
      rfl
    · cases h
      rfl

theorem cutTail_keepsSeq {p q : TxPkt} {size : Int} (h : cutTail p size = some q) :
    q.seq = p.seq := by
  obtain ⟨p', hp', h⟩ := Option.bind_eq_some_iff.mp h
  obtain ⟨-, rfl⟩ := tracePktfuzzCut_eq_some.mp hp'
  obtain ⟨r, -, rfl⟩ := Option.map_eq_some_iff.mp h
  unfold rtePktmbufPrepend rtePktmbufAdj
  dsimp only
  split <;> split <;> rfl

theorem TxPkt.Roomy.cutTail_pktLen {p q : TxPkt} {size : Int} (hp : p.Roomy)
    (h : LibTpa.cutTail p size = some q) :
    q.pktLen = p.pktLen - BitVec.ofInt 32 size ∧ q.hdrLen = p.hdrLen := by
  obtain ⟨p', hp', h⟩ := Option.bind_eq_some_iff.mp h
  obtain ⟨-, rfl⟩ := tracePktfuzzCut_eq_some.mp hp'
  unfold rtePktmbufAdj at h
  dsimp only at h
  rw [if_neg (Nat.not_lt.mpr hp.hdr)] at h
  obtain ⟨r, hr, rfl⟩ := Option.map_eq_some_iff.mp h
  have hoff : (p.hdrLen : Int) ≤ r.1.off := by
    rw [keepSegs_off hr]
    exact (hp.room _ (List.mem_cons_self ..)).1
  unfold rtePktmbufPrepend
  rw [if_neg (not_lt.mpr hoff), Option.getD_some]
  exact ⟨sub_add_cancel _ _, rfl⟩

/-- A cut of more than there is leaves a `pkt_len` that no payload has. -/
theorem TxPkt.Roomy.cutTail_short {p p₀ q : TxPkt} {s h t : Nat} (hp : p.Roomy)
    (hdr : p.hdrLen = p₀.hdrLen) (hs : s < 2 ^ 16) (hn : p₀.payload.length < 2 ^ 16)
    (hlt : p.payload.length < s) (hq : LibTpa.cutTail p s = some q) : ¬ SubSegment p₀ q h t := by
  intro hsub
  obtain ⟨hpkt, -⟩ := hp.cutTail_pktLen hq
  have h1 := hsub.pktLen
  have h2 := hp.pktLen
  have h3 : q.payload.length ≤ p₀.payload.length := by
    rw [hsub.payload, List.length_drop, List.length_take]
    omega
  have h4 := hsub.hdrLen
  have h5 := hp.hdr
  have h6 := p.head.len.isLt
  rw [hpkt, BitVec.ofInt_natCast, BitVec.toNat_sub, BitVec.toNat_ofNat] at h1
  omega

theorem TxPkt.Roomy.cutTail_negative {p p₀ q : TxPkt} {num : BitVec 32} {h t : Nat} (hp : p.Roomy)
    (hpay : p.payload = p₀.payload) (hdr : p.hdrLen = p₀.hdrLen) (hnum : num.toInt < 0)
    (hq : LibTpa.cutTail p num.toInt = some q) : ¬ SubSegment p₀ q h t := by
  intro hsub
  obtain ⟨hpkt, -⟩ := hp.cutTail_pktLen hq
  have h1 := hsub.pktLen
  have h2 := hp.pktLen
  have h3 : q.payload.length ≤ p.payload.length := by
    rw [hsub.payload, hpay, List.length_drop, List.length_take]
    omega
  have h4 := hsub.hdrLen
  have h5 := hp.hdr
  have h6 := p.head.len.isLt
  have h7 := hp.payload_lt
  rw [hpkt, BitVec.ofInt_toInt, BitVec.toNat_sub] at h1
  rw [BitVec.toInt_eq_toNat_cond] at hnum
  have h8 := num.isLt
  omega

theorem TxPkt.Wf.cutHead_negative {p q : TxPkt} {num : BitVec 32} (hp : p.Wf)
    (hnum : num.toInt < 0) (h : LibTpa.cutHead p num.toInt = some q) : q.seq = p.seq + num := by
  have hdr := hp.hdr
  obtain ⟨p', hp', h⟩ := Option.bind_eq_some_iff.mp h
  obtain ⟨-, rfl⟩ := tracePktfuzzCut_eq_some.mp hp'
  rw [if_pos (show num.toInt < (p.head.len.toNat : Int) - p.hdrLen by omega)] at h
  cases h
  rw [BitVec.ofInt_toInt]

theorem SubSegment.seq_ne {p q : TxPkt} {num : BitVec 32} {h t : Nat} (hsub : SubSegment p q h t)
    (hn : p.payload.length < 2 ^ 16) (hnum : num.toInt < 0) : q.seq ≠ p.seq + num := by
  intro hseq
  have heq : num = BitVec.ofNat 32 h := add_left_cancel (hseq.symm.trans hsub.seq)
  have hb := hsub.bound
  rw [heq, BitVec.toInt_eq_toNat_of_lt (by rw [BitVec.toNat_ofNat]; omega)] at hnum
  omega

theorem cutParse_spec {opts : List CutOpt} {cut : FuzzCutCfg} (h : cutParse opts = some cut) :
    (cut.head ∨ cut.tail) ∧ (cut.random ∨ cut.num ≠ 0) := by
  obtain ⟨c, -, rfl⟩ := Option.map_eq_some_iff.mp h
  have hside : ∀ c : FuzzCutCfg,
      (if c.head = false ∧ c.tail = false then { c with tail := true } else c).head ∨
      (if c.head = false ∧ c.tail = false then { c with tail := true } else c).tail := by
    rintro ⟨random, num, head, tail⟩
    cases head <;> cases tail <;> simp
  specialize hside c
  dsimp only
  generalize (if c.head = false ∧ c.tail = false then { c with tail := true } else c) = d at hside ⊢
  split
  · exact ⟨hside, Or.inr (show (1 : BitVec 32) ≠ 0 by decide)⟩
  · next hgiven =>
    refine ⟨hside, ?_⟩
    cases hr : d.random with
    | true => exact Or.inl rfl
    | false => exact Or.inr fun hnum => hgiven ⟨hr, hnum⟩

/-- The size is random, or it is positive and leaves room for the second of two cuts. -/
def FuzzCutCfg.Fits (cut : FuzzCutCfg) (n : Nat) : Prop :=
  cut.random ∨ 0 < cut.num.toInt ∧ (cut.head → cut.tail → 2 * min cut.num.toInt n ≤ n)

instance (cut : FuzzCutCfg) (n : Nat) : Decidable (cut.Fits n) :=
  inferInstanceAs (Decidable (_ ∨ _ ∧ (_ → _ → _)))

/-- The first of two cuts ends in the first buffer of the copy, where the socket is known. -/
def FuzzCutCfg.StaysInFirst (cut : FuzzCutCfg) (tsc n : Nat) (c : TxPkt) : Prop :=
  cut.head → cut.tail → getCutSize cut tsc n ≤ (c.head.len.toNat - c.hdrLen : Nat)

instance (cut : FuzzCutCfg) (tsc n : Nat) (c : TxPkt) : Decidable (cut.StaysInFirst tsc n c) :=
  inferInstanceAs (Decidable (_ → _ → _))

theorem FuzzCutCfg.Fits.getCutSize {cut : FuzzCutCfg} {n : Nat} (h : cut.Fits n) (tsc : Nat)
    (h0 : 0 < n) :
    ∃ s : Nat, LibTpa.getCutSize cut tsc n = s ∧ s ≤ n ∧ (cut.head → cut.tail → 2 * s ≤ n) := by
  unfold LibTpa.getCutSize
  split
  · have hmod := Nat.mod_lt tsc h0
    have hle := Nat.div_le_self (tsc % n) (cut.head.toNat + cut.tail.toNat)
    refine ⟨_, rfl, by omega, ?_⟩
    intro hh ht
    rw [hh, ht]
    show 2 * (tsc % n / 2) ≤ n
    omega
  · next hr =>
    obtain ⟨hpos, hboth⟩ := h.resolve_left hr
    refine ⟨(min cut.num.toInt n).toNat, by omega, by omega, ?_⟩
    intro hh ht
    have := hboth hh ht
    omega

variable {p : TxPkt} {cut : FuzzCutCfg} {copy : Option TxPkt}

theorem doCut_fits {c : TxPkt} (hp : p.Wf) (h0 : p.payload ≠ []) (hcopy : CopyOf p c) (tsc : Nat)
    (hfits : cut.Fits p.payload.length) (hfirst : cut.StaysInFirst tsc p.payload.length c) :
    ∃ q h t, doCut cut tsc p.payload.length p (some c) = some q ∧ SubSegment p q h t := by
  have hpay := hcopy.payload
  have hroomy := hcopy.toRoomy
  obtain ⟨s, hsize, hle, hboth⟩ := hfits.getCutSize tsc (List.length_pos_iff.mpr h0)
  unfold FuzzCutCfg.StaysInFirst at hfirst
  rw [hsize, Int.ofNat_le] at hfirst
  rw [← hpay] at hle hboth
  unfold doCut
  dsimp only
  rw [Nat.mod_eq_of_lt hp.payload_lt, hsize]
  rcases Nat.eq_zero_or_pos s with rfl | hs
  · refine ⟨c, 0, 0, if_pos rfl, hroomy.subSegment hcopy.hdrLen hcopy.ipv6 (Nat.zero_le _) ?_
      (hcopy.seq.trans (BitVec.add_zero _).symm)⟩
    rw [Nat.sub_zero, List.take_length, List.drop_zero, hpay]
  rw [if_neg (by omega)]
  -- what the cut at the head leaves for the one at the tail
  have hcut : ∃ q h, (if cut.head then cutHead c s else some c) = some q ∧
      HeadCut c h q ∧ h ≤ s ∧
      (cut.tail → q.head.tsock = true ∧ h + s ≤ c.payload.length) := by
    split
    · next hh =>
      obtain ⟨q, hq, hcut⟩ := hroomy.cutHead hcopy.first hle
      refine ⟨q, s, hq, hcut, le_rfl, fun ht => ?_⟩
      have hsock := hcut.tsock
      rw [if_pos (hfirst hh ht), hcopy.first] at hsock
      have := hboth hh ht
      exact ⟨hsock, by omega⟩
    · refine ⟨c, 0, rfl, ⟨hroomy, List.drop_zero.symm, rfl, rfl, (BitVec.add_zero _).symm, ?_⟩,
        Nat.zero_le _, fun _ => ⟨hcopy.first, by omega⟩⟩
      rw [if_pos (Nat.zero_le _)]
  obtain ⟨q, h, hq, hcut, h5, h6⟩ := hcut
  rw [hq, Option.bind_some]
  have hlen : q.payload.length = c.payload.length - h := by rw [hcut.payload, List.length_drop]
  split
  · next ht =>
    obtain ⟨hsock, hfit⟩ := h6 ht
    obtain ⟨r, hr, hrwf, k1, k2, k3, k4⟩ := hcut.toRoomy.cutTail hsock hs (by omega)
    refine ⟨r, h, s, hr, hrwf.subSegment (k2.trans (hcut.hdrLen.trans hcopy.hdrLen))
      (k3.trans (hcut.ipv6.trans hcopy.ipv6)) (hpay ▸ hfit) ?_
      (by rw [k4, hcut.seq, hcopy.seq])⟩
    rw [k1, hlen, hcut.payload, ← hpay, List.take_drop]
    congr 2
    omega
  · refine ⟨q, h, 0, rfl, hcut.toRoomy.subSegment (hcut.hdrLen.trans hcopy.hdrLen)
      (hcut.ipv6.trans hcopy.ipv6) (by rw [← hpay]; omega) ?_ (by rw [hcut.seq, hcopy.seq])⟩
    rw [Nat.sub_zero, List.take_length, hcut.payload, hpay]

theorem doCut_misfits {q c : TxPkt} {h t tsc : Nat} (hp : p.Wf) (hside : cut.head ∨ cut.tail)
    (hgiven : cut.random ∨ cut.num ≠ 0) (hcopy : CopyOf p c) (hfits : ¬ cut.Fits p.payload.length)
    (hq : doCut cut tsc p.payload.length p (some c) = some q) : ¬ SubSegment p q h t := by
  intro hsub
  have hpay := hcopy.payload
  obtain ⟨hrandom, hfixed⟩ := not_or.mp hfits
  have hlt := hp.payload_lt
  have hnum : cut.num.toInt ≠ 0 := fun h => hgiven.resolve_left hrandom (BitVec.toInt_inj.mp h)
  have hsize : getCutSize cut tsc p.payload.length = min cut.num.toInt p.payload.length :=
    if_neg hrandom
  unfold doCut at hq
  dsimp only at hq
  rw [Nat.mod_eq_of_lt hlt, hsize] at hq
  by_cases hneg : cut.num.toInt < 0
  · rw [min_eq_left (by omega), if_neg hnum] at hq
    by_cases hh : cut.head = true
    · -- the sequence number goes back
      rw [if_pos hh] at hq
      obtain ⟨r, hr, hq⟩ := Option.bind_eq_some_iff.mp hq
      have hrseq := hcopy.toWf.cutHead_negative hneg hr
      have hseq' : q.seq = r.seq := by
        split at hq
        · exact cutTail_keepsSeq hq
        · cases hq
          rfl
      exact hsub.seq_ne hlt hneg (by rw [hseq', hrseq, hcopy.seq])
    · -- the packet becomes longer
      rw [if_neg hh, Option.bind_some, if_pos (hside.resolve_left hh)] at hq
      exact hcopy.toRoomy.cutTail_negative hpay hcopy.hdrLen hneg hq hsub
  · -- the second cut of the same size finds too few bytes
    have hover : ¬ (cut.head → cut.tail →
        2 * min cut.num.toInt p.payload.length ≤ p.payload.length) :=
      fun hboth => hfixed ⟨by omega, hboth⟩
    push Not at hover
    obtain ⟨hh, ht, hover⟩ := hover
    have hs : min cut.num.toInt p.payload.length =
        ((min cut.num.toInt p.payload.length).toNat : Int) := by omega
    have hle : (min cut.num.toInt p.payload.length).toNat ≤ c.payload.length := by
      rw [hpay]
      omega
    rw [hs] at hq hover
    rw [hpay] at hle
    generalize (min cut.num.toInt p.payload.length).toNat = s at hq hover hle
    obtain ⟨r, hr, hcut⟩ := hcopy.toRoomy.cutHead hcopy.first (s := s) (by rw [hpay]; exact hle)
    rw [if_neg (by omega), if_pos hh, hr, Option.bind_some, if_pos ht] at hq
    refine hcut.toRoomy.cutTail_short (hcut.hdrLen.trans hcopy.hdrLen) (by omega) hlt ?_ hq hsub
    rw [hcut.payload, List.length_drop, hpay]
    omega

/-- Behind the first buffer the cut at the tail finds no socket to trace. -/
theorem doCut_leavesFirst {c : TxPkt} {tsc : Nat} (hp : p.Wf) (h0 : p.payload ≠ [])
    (hcopy : CopyOf p c) (hfits : cut.Fits p.payload.length)
    (hfirst : ¬ cut.StaysInFirst tsc p.payload.length c) :
    doCut cut tsc p.payload.length p (some c) = none := by
  unfold FuzzCutCfg.StaysInFirst at hfirst
  push Not at hfirst
  obtain ⟨hh, ht, hlong⟩ := hfirst
  obtain ⟨s, hsize, hle, -⟩ := hfits.getCutSize tsc (List.length_pos_iff.mpr h0)
  rw [hsize, Int.ofNat_lt] at hlong
  unfold doCut
  dsimp only
  rw [Nat.mod_eq_of_lt hp.payload_lt, hsize, if_neg (by omega)]
  obtain ⟨q, hq, hcut⟩ :=
    hcopy.toRoomy.cutHead hcopy.first (s := s) (by rw [hcopy.payload]; exact hle)
  have hsock := hcut.tsock
  rw [if_neg (Nat.not_le.mpr hlong)] at hsock
  obtain ⟨x, hx, hqx⟩ := hsock
  rw [if_pos hh, hq, Option.bind_some, if_pos ht, cutTail]
  have hnone : tracePktfuzzCut { q with ipLen := q.ipLen - BitVec.ofInt 16 s
                                        pktLen := q.pktLen - BitVec.ofInt 32 s } = none :=
    if_neg (by rw [hqx, hcopy.later x hx]; exact Bool.false_ne_true)
  rw [hnone, Option.bind_none]

/-- A data packet of `n` bytes: the header in a buffer of its own, in front of one that
`packet_attach_extbuf` has attached. -/
def sentPkt (n : Nat) : TxPkt where
  head := { mem := fun _ => 0, off := 74, len := 54, tsock := true }
  rest := [{ mem := fun i => BitVec.ofInt 8 i, off := 0, len := BitVec.ofNat 16 n, tsock := false }]
  pktLen := BitVec.ofNat 32 (54 + n)
  nbSegs := 2
  hdrLen := 54
  ipv6 := false
  ipLen := BitVec.ofNat 16 (40 + n)
  seq := 1000

def copiedPkt (n : Nat) : TxPkt where
  head :=
    { mem := fun i => BitVec.ofInt 8 (i - 182), off := 128, len := BitVec.ofNat 16 (54 + n)
      tsock := true }
  rest := []
  pktLen := BitVec.ofNat 32 (54 + n)
  nbSegs := 1
  hdrLen := 54
  ipv6 := false
  ipLen := BitVec.ofNat 16 (40 + n)
  seq := 1000

instance (k : Nat) (m : Mbuf) : Decidable (m.Room k) := inferInstanceAs (Decidable (_ ∧ _))

theorem sentPkt_wf_three : (sentPkt 3).Wf := ⟨by decide, by decide, by decide, by decide⟩

theorem copiedPkt_copyOf_three : CopyOf (sentPkt 3) (copiedPkt 3) where
  hdr := by decide
  skip := by decide
  pktLen := by decide
  ipLen := by decide
  room := by decide
  first := rfl
  later := by decide
  payload := by decide
  hdrLen := rfl
  ipv6 := rfl
  seq := rfl

theorem sentPkt_wf_one : (sentPkt 1).Wf := ⟨by decide, by decide, by decide, by decide⟩

theorem copiedPkt_copyOf_one : CopyOf (sentPkt 1) (copiedPkt 1) where
  hdr := by decide
  skip := by decide
  pktLen := by decide
  ipLen := by decide
  room := by decide
  first := rfl
  later := by decide
  payload := by decide
  hdrLen := rfl
  ipv6 := rfl
  seq := rfl

end LibTpa
