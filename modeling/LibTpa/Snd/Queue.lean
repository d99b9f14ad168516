/- LibTpa/Snd/Queue
   digest: The send ring as the list of its live descriptors. -/

import LibTpa.Sock.State

set_option autoImplicit false

namespace LibTpa

open Lib Lib.SerialNumber Lib.RingWindow

namespace TcpTxq

def count (q : TcpTxq) : Nat := (q.write - q.una).toNat

def live (q : TcpTxq) : List DescId := window q.descs q.size q.una q.count

/-- The cursors are in order and not further apart than the ring is long. -/
structure Wf (q : TcpTxq) : Prop where
  nxt_le : (q.nxt - q.una).toNat ≤ q.count
  count_le : q.count ≤ q.size

@[simp] theorem live_length (q : TcpTxq) : q.live.length = q.count := window_length

theorem live_getElem? (q : TcpTxq) (i : Nat) :
    q.live[i]? = if i < q.count then some (q.descAt (q.una + BitVec.ofNat 16 i)) else none :=
  window_getElem? i

theorem freeCount (q : TcpTxq) (h : q.Wf) : (tcpTxqFreeCount q).toNat = q.size - q.count := by
  have h1 := h.nxt_le
  have h2 := h.count_le
  have h3 := q.size_ok.le
  unfold tcpTxqFreeCount tcpTxqUnfinishedPkts tcpTxqInflightPkts tcpTxqToSendPkts
  unfold count at *
  bv_omega

theorem peekForWrite (q : TcpTxq) (h : q.Wf) {base off : U16} {b : Nat}
    (hb : base = q.una + BitVec.ofNat 16 b) (hle : b ≤ q.count) :
    tcpTxqPeekForWrite q base off = q.live[b + off.toNat]? := by
  have h2 := h.count_le
  have h3 := q.size_ok.le
  unfold tcpTxqPeekForWrite
  rw [live_getElem?]
  have hiff : (q.write - base ≤ off) ↔ ¬ b + off.toNat < q.count := by
    unfold count at *
    rw [BitVec.le_def]
    bv_omega
  by_cases hlt : b + off.toNat < q.count
  · rw [if_pos hlt, if_neg (by rw [hiff]; exact not_not.mpr hlt), hb, BitVec.ofNat_add, add_assoc]
    simp
  · rw [if_neg hlt, if_pos (hiff.mpr hlt)]

end TcpTxq

/-- Descriptors whose sequence numbers follow one another from `a` to `b`, none
of them empty. -/
def SeqChain : U32 → List TxDesc → U32 → Prop
  | a, [], b => a = b
  | a, d :: l, b => d.seq = a ∧ d.data ≠ [] ∧ SeqChain (a + d.len) l b

def descBytes (l : List TxDesc) : List Byte := (l.map TxDesc.data).flatten

@[simp] theorem descBytes_nil : descBytes [] = [] := rfl
@[simp] theorem descBytes_cons (d : TxDesc) (l : List TxDesc) :
    descBytes (d :: l) = d.data ++ descBytes l := rfl
@[simp] theorem descBytes_append (l l' : List TxDesc) :
    descBytes (l ++ l') = descBytes l ++ descBytes l' := by simp [descBytes]

theorem seqChain_append {a c : U32} {l l' : List TxDesc} :
    SeqChain a (l ++ l') c ↔ ∃ b, SeqChain a l b ∧ SeqChain b l' c := by
  induction l generalizing a with
  | nil => simp [SeqChain]
  | cons d l ih =>
    simp only [List.cons_append, SeqChain, ih]
    constructor
    · rintro ⟨h1, h2, b, h3, h4⟩
      exact ⟨b, ⟨h1, h2, h3⟩, h4⟩
    · rintro ⟨b, ⟨h1, h2, h3⟩, h4⟩
      exact ⟨h1, h2, b, h3, h4⟩

theorem SeqChain.end_eq {a b : U32} {l : List TxDesc} (h : SeqChain a l b) :
    b = a + BitVec.ofNat 32 (descBytes l).length := by
  induction l generalizing a with
  | nil => simpa [SeqChain, eq_comm] using h
  | cons d l ih =>
    rw [ih h.2.2, descBytes_cons, List.length_append, BitVec.ofNat_add, add_assoc]
    rfl

structure PoolOk (x : TxPool) : Prop where
  nodup : x.free.Nodup
  nowild : wildDesc ∉ x.free

def St.liveDescs (s : St) : List TxDesc := s.tsock.snd.txq.live.map s.desc

@[simp] theorem St.desc_setDesc_self (s : St) (d : DescId) (v : TxDesc) :
    (s.setDesc d v).desc d = v := Function.update_self ..

theorem St.desc_setDesc_ne (s : St) (v : TxDesc) {d e : DescId} (h : e ≠ d) :
    (s.setDesc d v).desc e = s.desc e := Function.update_of_ne h ..

/-- The send queue in order. The live descriptors span less than half the sequence
space, so that sequence numbers in the queue are ordered. -/
structure SendQueueOk (s : St) : Prop where
  wf : s.tsock.snd.txq.Wf
  chain : ∃ a, SeqChain a s.liveDescs s.tsock.snd.dataSeqNxt ∧
    (s.liveDescs ≠ [] → a + s.tsock.snd.partialAck = s.tsock.snd.sndUna)
  part : ∀ v ∈ s.liveDescs.head?, s.tsock.snd.partialAck < v.len
  empty : s.liveDescs = [] → s.tsock.snd.partialAck = 0 ∧
    (s.tsock.snd.sndUna = s.tsock.snd.dataSeqNxt ∨
      s.tsock.snd.closedAtSynRcvd = true ∧ s.tsock.snd.sndUna = s.tsock.snd.sndIsn)
  sent : ahead s.tsock.snd.sndUna s.tsock.snd.sndNxt ≤
    ahead s.tsock.snd.sndUna (s.tsock.snd.dataSeqNxt + if s.tsock.snd.finSent then 1 else 0)
  nxt : ∀ v, s.liveDescs[(s.tsock.snd.txq.nxt - s.tsock.snd.txq.una).toNat]? = some v →
    ahead v.seq s.tsock.snd.sndNxt < v.data.length
  span : (descBytes s.liveDescs).length + 1 < 2 ^ 31

end LibTpa
