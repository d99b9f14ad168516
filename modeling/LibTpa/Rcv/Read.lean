/- LibTpa/Rcv/Read
   digest: Zero-copy reads of the receive queue. -/

import LibTpa.Rcv.Reassembly

set_option autoImplicit false

namespace LibTpa

/-- The loop of `pkt_to_iov` from `to_read` on: the segments handed out, the
segments left, the payload left and the iov entries left. -/
def iovSegs : List (List Byte) → Nat → Nat → List (List Byte) × List (List Byte) × Nat × Nat
  | segs, len, 0 => ([], segs, len, 0)
  | [], len, n => ([], [], len, n)
  | seg :: rest, len, n + 1 =>
    if len = 0 then ([], seg :: rest, 0, n + 1)
    else
      let r := iovSegs rest (len - seg.length) n
      (seg :: r.1, r.2)

def Packet.consume (p : Packet) (toRead : List (List Byte)) (len : Nat) : Packet :=
  { p with
    toRead := toRead
    len := min len p.len
    len_lt := lt_of_le_of_lt (Nat.min_le_right _ _) p.len_lt }

/-- The loop of `tsock_zreadv` over the rxq: the segments handed out, the queue
that is left and the mbufs of the packets that were read to their end. -/
def readLoop : List Packet → Nat → List (List Byte) × List Packet × Nat
  | [], _ => ([], [], 0)
  | p :: rest, n =>
    match iovSegs p.toRead p.len n with
    | (out, _, 0, n') =>
      let r := readLoop rest n'
      (out ++ r.1, r.2.1, p.nbSegs + r.2.2)
    | (out, toRead, len + 1, _) => (out, p.consume toRead (len + 1) :: rest, 0)

def tsockReadCheck (t : TcpSock) : Option Errno :=
  if t.closeIssued then some .ebadf
  else match t.err with
    | some e => some e
    | none => if t.state = .listen ∨ t.state = .closed then some .enotconn else none

def tsockZreadv (s : St) (nrIov : Nat) : Except Errno (List (List Byte)) × St :=
  match tsockReadCheck s.tsock with
  | some e => (.error e, s)
  | none =>
    let rcv := s.tsock.rcv
    let r := readLoop rcv.rxq nrIov
    let size := r.1.flatten.length
    let s := s.setRx { s.worker.rx with
      nrInProcessMbuf := s.worker.rx.nrInProcessMbuf + BitVec.ofNat 32 r.2.2 }
    if size = 0 then
      (if s.tsock.flags.eof then .ok [] else .error .eagain, s)
    else
      let s := s.setRcv { rcv with rxq := r.2.1, rcvWnd := rcv.rcvWnd + size }
      if rcv.rcvWnd = 0 then
        let f := s.tsock.flags
        (.ok r.1, outputTsockEnqueue (s.setFlags { f with tcp := { f.tcp with ack := true } }))
      else (.ok r.1, s)

/-! What a read hands out is the front of the queued bytes. -/

def rxqBytes (q : List Packet) : List Byte := (q.map Packet.bytes).flatten

def rxqLen (q : List Packet) : Nat := (q.map Packet.len).sum

@[simp] theorem rxqBytes_nil : rxqBytes [] = [] := rfl
@[simp] theorem rxqBytes_cons (p : Packet) (q : List Packet) :
    rxqBytes (p :: q) = p.bytes ++ rxqBytes q := rfl
@[simp] theorem rxqBytes_append (q q' : List Packet) :
    rxqBytes (q ++ q') = rxqBytes q ++ rxqBytes q' := by simp [rxqBytes]
@[simp] theorem rxqLen_nil : rxqLen [] = 0 := rfl
@[simp] theorem rxqLen_cons (p : Packet) (q : List Packet) :
    rxqLen (p :: q) = p.len + rxqLen q := rfl
@[simp] theorem rxqLen_append (q q' : List Packet) :
    rxqLen (q ++ q') = rxqLen q + rxqLen q' := by simp [rxqLen]

/-- One packet: the segments handed out and the unread rest make up its unread
payload, and the rest ends on a segment boundary again. -/
theorem iovSegs_spec (segs : List (List Byte)) (len n m : Nat)
    (hm : (segs.take m).flatten.length = len) :
    ∃ m', ((iovSegs segs len n).2.1.take m').flatten.length = (iovSegs segs len n).2.2.1 ∧
      (iovSegs segs len n).2.2.1 ≤ len ∧
      segs.flatten.take len = (iovSegs segs len n).1.flatten ++
        (iovSegs segs len n).2.1.flatten.take (iovSegs segs len n).2.2.1 := by
  induction segs generalizing len n m with
  | nil =>
    have hl : len = 0 := by simpa using hm.symm
    subst hl
    cases n <;> exact ⟨0, by simp [iovSegs]⟩
  | cons seg rest ih =>
    cases n with
    | zero => exact ⟨m, by simpa [iovSegs] using hm⟩
    | succ n =>
      by_cases h0 : len = 0
      · exact ⟨0, by simp [iovSegs, h0]⟩
      · cases m with
        | zero => exact absurd hm.symm (by simpa using h0)
        | succ m =>
          simp only [List.take_succ_cons, List.flatten_cons, List.length_append] at hm
          obtain ⟨m', h1, h2, h3⟩ := ih (len - seg.length) n m (by omega)
          refine ⟨m', ?_⟩
          simp only [iovSegs, h0, if_false]
          refine ⟨h1, by omega, ?_⟩
          rw [List.flatten_cons, List.take_append, List.take_of_length_le (by omega), h3,
            List.flatten_cons, List.append_assoc]

theorem Packet.Aligned.consume {p : Packet} (h : p.Aligned) {n : Nat}
    {out toRead : List (List Byte)} {len n' : Nat}
    (he : iovSegs p.toRead p.len n = (out, toRead, len, n')) :
    (p.consume toRead len).Aligned ∧ (p.consume toRead len).len = len ∧ len ≤ p.len ∧
      p.bytes = out.flatten ++ (p.consume toRead len).bytes := by
  obtain ⟨m, hm⟩ := h
  obtain ⟨m', h1, h2, h3⟩ := iovSegs_spec p.toRead p.len n m hm
  rw [he] at h1 h2 h3
  have hlen : min len p.len = len := Nat.min_eq_left h2
  refine ⟨⟨m', ?_⟩, hlen, h2, ?_⟩
  · simpa [Packet.consume, hlen] using h1
  · simpa [Packet.bytes, Packet.consume, hlen] using h3

theorem readLoop_bytes (q : List Packet) (n : Nat) (ha : ∀ p ∈ q, p.Aligned) :
    rxqBytes q = (readLoop q n).1.flatten ++ rxqBytes (readLoop q n).2.1 ∧
      (∀ p ∈ (readLoop q n).2.1, p.Aligned) ∧
      rxqLen q = (readLoop q n).1.flatten.length + rxqLen (readLoop q n).2.1 := by
  induction q generalizing n with
  | nil => simp [readLoop]
  | cons p rest ih =>
    have hp := ha p (List.mem_cons_self ..)
    have hrest : ∀ x ∈ rest, x.Aligned := fun x hx => ha x (List.mem_cons_of_mem _ hx)
    unfold readLoop
    split
    · rename_i out toRead n' he
      obtain ⟨-, hcl, -, hb⟩ := hp.consume he
      obtain ⟨h1, h2, h3⟩ := ih n' hrest
      have hb0 : (p.consume toRead 0).bytes = [] := by simp [Packet.bytes, hcl]
      rw [hb0, List.append_nil] at hb
      refine ⟨?_, h2, ?_⟩
      · rw [rxqBytes_cons, hb, h1, List.flatten_append, List.append_assoc]
      · rw [rxqLen_cons, ← hp.bytes_length, hb, h3, List.flatten_append, List.length_append,
          Nat.add_assoc]
    · rename_i out toRead len n' he
      obtain ⟨hal, -, -, hb⟩ := hp.consume he
      refine ⟨?_, ?_, ?_⟩
      · rw [rxqBytes_cons, hb, List.append_assoc, ← rxqBytes_cons]
      · intro x hx
        rcases List.mem_cons.mp hx with rfl | hx
        · exact hal
        · exact hrest x hx
      · rw [rxqLen_cons, ← hp.bytes_length, hb, List.length_append, hal.bytes_length,
          rxqLen_cons, Nat.add_assoc]

end LibTpa
