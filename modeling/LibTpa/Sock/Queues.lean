/- LibTpa/Sock/Queues
   digest: The receive and the send ring of a socket as bounded first-in first-out lists. -/

import LibTpa.Lib.Run
import LibTpa.Snd.Queue

set_option autoImplicit false

namespace LibTpa

open Lib Lib.RingWindow Lib.SerialNumber

def rteMin (a b : U16) : U16 := if a < b then a else b

structure TcpRxq (α : Type) where
  unread : U16
  max : U16
  size : Nat
  size_ok : RingSize size
  objs : Nat → α

section Rxq

variable {α : Type}

def tcpRxqReadableCount (q : TcpRxq α) : U16 := q.max - q.unread

def tcpRxqFreeCount (q : TcpRxq α) : U16 := BitVec.ofNat 16 q.size - tcpRxqReadableCount q

def tcpRxqEnqueueBurst (q : TcpRxq α) (objs : Nat → α) (nrObj : U16) : U16 × TcpRxq α :=
  let nrObj := rteMin (tcpRxqFreeCount q) nrObj
  (nrObj, { q with
    objs := store q.objs q.size q.max ((List.range nrObj.toNat).map objs)
    max := q.max + nrObj })

def tcpRxqDequeueBurst (q : TcpRxq α) (nrObj : U16) : (U16 × List α) × TcpRxq α :=
  let nrObj := rteMin (tcpRxqReadableCount q) nrObj
  ((nrObj, window q.objs q.size q.unread nrObj.toNat), { q with unread := q.unread + nrObj })

def tcpRxqPeekUnread (q : TcpRxq α) (off : U16) : Option α :=
  if q.max - q.unread ≤ off then none else some (q.objs (maskSlot q.size (q.unread + off)))

def tcpRxqUpdateUnread (q : TcpRxq α) (count : U16) : TcpRxq α :=
  { q with unread := q.unread + count }

end Rxq

def tcpTxqEnqueueBulk (q : TcpTxq) (descs : Nat → DescId) (nrDesc : U16) : Bool × TcpTxq :=
  if q.size < (q.write + nrDesc - q.una).toNat then (false, q)
  else (true, { q with
    descs := store q.descs q.size q.write ((List.range nrDesc.toNat).map descs)
    write := q.write + nrDesc })

def tcpTxqPeekNxt (q : TcpTxq) (off : U16) : Option DescId := tcpTxqPeekForWrite q q.nxt off

def tcpTxqUpdateUna (q : TcpTxq) (count : U16) : TcpTxq := { q with una := q.una + count }

def tcpTxqUpdateNxt (q : TcpTxq) (count : U16) : TcpTxq := { q with nxt := q.nxt + count }

inductive QueueOut (α : Type)
  | count (n : Nat)
  | copied (n : Nat) (l : List α)
  | found (o : Option α)
  | result (ok : Bool)
  | done

inductive RxqOp (α : Type)
  | enqueueBurst (objs : Nat → α) (nrObj : U16)
  | dequeueBurst (nrObj : U16)
  | peekUnread (off : U16)
  | updateUnread (count : U16)

/-- The operations on a send ring; the base of `tcp_txq_peek_for_write` counts from `una`. -/
inductive TxqOp
  | enqueueBulk (descs : Nat → DescId) (nrDesc : U16)
  | peekUna (off : U16)
  | peekNxt (off : U16)
  | peekUnaBeforeNxt (off : U16)
  | peekForWrite (base off : U16)
  | updateUna (count : U16)
  | updateNxt (count : U16)

section Machines

variable {α : Type}

def rxqStep (q : TcpRxq α) : RxqOp α → QueueOut α × TcpRxq α
  | .enqueueBurst objs nrObj =>
    let r := tcpRxqEnqueueBurst q objs nrObj
    (.count r.1.toNat, r.2)
  | .dequeueBurst nrObj =>
    let r := tcpRxqDequeueBurst q nrObj
    (.copied r.1.1.toNat r.1.2, r.2)
  | .peekUnread off => (.found (tcpRxqPeekUnread q off), q)
  | .updateUnread count => (.done, tcpRxqUpdateUnread q count)

def txqStep (q : TcpTxq) : TxqOp → QueueOut DescId × TcpTxq
  | .enqueueBulk descs nrDesc =>
    let r := tcpTxqEnqueueBulk q descs nrDesc
    (.result r.1, r.2)
  | .peekUna off => (.found (tcpTxqPeekUna q off), q)
  | .peekNxt off => (.found (tcpTxqPeekNxt q off), q)
  | .peekUnaBeforeNxt off => (.found (tcpTxqPeekUnaBeforeNxt q off), q)
  | .peekForWrite base off => (.found (tcpTxqPeekForWrite q (q.una + base) off), q)
  | .updateUna count => (.done, tcpTxqUpdateUna q count)
  | .updateNxt count => (.done, tcpTxqUpdateNxt q count)

def rxFifoStep (cap : Nat) (l : List α) : RxqOp α → QueueOut α × List α
  | .enqueueBurst objs nrObj =>
    let n := min (cap - l.length) nrObj.toNat
    (.count n, l ++ (List.range n).map objs)
  | .dequeueBurst nrObj =>
    (.copied (min l.length nrObj.toNat) (l.take nrObj.toNat), l.drop nrObj.toNat)
  | .peekUnread off => (.found l[off.toNat]?, l)
  | .updateUnread count => (.done, l.drop count.toNat)

/-- A first-in first-out list, the first `sent` descriptors of which have been sent. -/
structure TxFifo where
  live : List DescId
  sent : Nat

/-- A send list that holds `cap` descriptors; a bulk goes in as a whole or not at all. -/
def txFifoStep (cap : Nat) (t : TxFifo) : TxqOp → QueueOut DescId × TxFifo
  | .enqueueBulk descs nrDesc =>
    if t.live.length + nrDesc.toNat ≤ cap then
      (.result true, { t with live := t.live ++ (List.range nrDesc.toNat).map descs })
    else (.result false, t)
  | .peekUna off => (.found t.live[off.toNat]?, t)
  | .peekNxt off => (.found t.live[t.sent + off.toNat]?, t)
  | .peekUnaBeforeNxt off => (.found (t.live.take t.sent)[off.toNat]?, t)
  | .peekForWrite base off => (.found t.live[base.toNat + off.toNat]?, t)
  | .updateUna count => (.done, ⟨t.live.drop count.toNat, t.sent - count.toNat⟩)
  | .updateNxt count => (.done, { t with sent := t.sent + count.toNat })

def RxqInRange (q : TcpRxq α) : RxqOp α → Prop
  | .updateUnread count => count ≤ tcpRxqReadableCount q
  | _ => True

def TxqInRange (q : TcpTxq) : TxqOp → Prop
  | .peekForWrite base _ => base ≤ q.write - q.una
  | .updateUna count => count ≤ q.write - q.una
  | .updateNxt count => count ≤ q.write - q.nxt
  | _ => True

/-- The sum of the length and a bulk does not wrap, and `una` does not pass `nxt`. -/
def TxqKept (q : TcpTxq) : TxqOp → Prop
  | .enqueueBulk _ nrDesc => q.count + nrDesc.toNat < 2 ^ 16
  | .updateUna count => count ≤ q.nxt - q.una
  | _ => True

instance TxqInRange.decidable (q : TcpTxq) : (op : TxqOp) → Decidable (TxqInRange q op)
  | .enqueueBulk .. | .peekUna _ | .peekNxt _ | .peekUnaBeforeNxt _ => .isTrue trivial
  | .peekForWrite base _ => inferInstanceAs (Decidable (base ≤ q.write - q.una))
  | .updateUna count => inferInstanceAs (Decidable (count ≤ q.write - q.una))
  | .updateNxt count => inferInstanceAs (Decidable (count ≤ q.write - q.nxt))

instance TxqKept.decidable (q : TcpTxq) : (op : TxqOp) → Decidable (TxqKept q op)
  | .enqueueBulk _ nrDesc => inferInstanceAs (Decidable (q.count + nrDesc.toNat < 2 ^ 16))
  | .updateUna count => inferInstanceAs (Decidable (count ≤ q.nxt - q.una))
  | .peekUna _ | .peekNxt _ | .peekUnaBeforeNxt _ | .peekForWrite .. | .updateNxt _ =>
    .isTrue trivial

end Machines

namespace TcpRxq

variable {α : Type} {q : TcpRxq α}

def live (q : TcpRxq α) : List α := window q.objs q.size q.unread (tcpRxqReadableCount q).toNat

def Wf (q : TcpRxq α) : Prop := (tcpRxqReadableCount q).toNat ≤ q.size

theorem live_length (q : TcpRxq α) : q.live.length = (tcpRxqReadableCount q).toNat := window_length

end TcpRxq

theorem toNat_rteMin (a b : U16) : (rteMin a b).toNat = min a.toNat b.toNat := by
  unfold rteMin
  split
  · next h =>
    rw [BitVec.lt_def] at h
    omega
  · next h =>
    rw [BitVec.lt_def] at h
    omega

private theorem toNat_sub_add {a b c : U16} (hc : c ≤ b - a) :
    (b - (a + c)).toNat = (b - a).toNat - c.toNat := by
  have h : ahead (a + BitVec.ofNat 16 c.toNat) b = ahead a b - c.toNat :=
    ahead_advance (BitVec.le_def.mp hc)
  rw [BitVec.ofNat_toNat, BitVec.setWidth_eq] at h
  exact h

section Rx

variable {α : Type} {q : TcpRxq α}

private theorem rxq_free (h : q.Wf) :
    (tcpRxqFreeCount q).toNat = q.size - (tcpRxqReadableCount q).toNat := by
  have hle := q.size_ok.le
  unfold TcpRxq.Wf at h
  unfold tcpRxqFreeCount
  bv_omega

theorem tcpRxqUpdateUnread_live (h : q.Wf) {c : U16} (hc : c ≤ tcpRxqReadableCount q) :
    (tcpRxqUpdateUnread q c).Wf ∧ (tcpRxqUpdateUnread q c).live = q.live.drop c.toNat := by
  have hadv : (q.max - (q.unread + c)).toNat = (tcpRxqReadableCount q).toNat - c.toNat :=
    toNat_sub_add hc
  unfold tcpRxqUpdateUnread TcpRxq.Wf TcpRxq.live
  constructor
  · show (q.max - (q.unread + c)).toNat ≤ q.size
    unfold TcpRxq.Wf at h
    omega
  · rw [window_drop (BitVec.le_def.mp hc), BitVec.ofNat_toNat, BitVec.setWidth_eq, ← hadv]
    rfl

theorem tcpRxqEnqueueBurst_live (h : q.Wf) (objs : Nat → α) (nrObj : U16) :
    let n := min (q.size - q.live.length) nrObj.toNat
    (tcpRxqEnqueueBurst q objs nrObj).1.toNat = n ∧ (tcpRxqEnqueueBurst q objs nrObj).2.Wf ∧
      (tcpRxqEnqueueBurst q objs nrObj).2.live = q.live ++ (List.range n).map objs := by
  have hn : (rteMin (tcpRxqFreeCount q) nrObj).toNat =
    min (q.size - q.live.length) nrObj.toNat := by
    rw [toNat_rteMin, rxq_free h, q.live_length]
  unfold tcpRxqEnqueueBurst
  generalize rteMin (tcpRxqFreeCount q) nrObj = c at hn ⊢
  rw [← hn]
  have hle := q.size_ok.le
  have hroom : (tcpRxqReadableCount q).toNat + c.toNat ≤ q.size := by
    rw [q.live_length] at hn
    unfold TcpRxq.Wf at h
    omega
  have hcount : (q.max + c - q.unread).toNat = (tcpRxqReadableCount q).toNat + c.toNat := by
    unfold tcpRxqReadableCount at *
    bv_omega
  have hmax : q.max = q.unread + BitVec.ofNat 16 (tcpRxqReadableCount q).toNat := by
    bv_omega
  refine ⟨rfl, ?_, ?_⟩
  · show (q.max + c - q.unread).toNat ≤ q.size
    rw [hcount]
    exact hroom
  · show window (store q.objs q.size q.max _) q.size q.unread (q.max + c - q.unread).toNat = _
    have hlen : ((List.range c.toNat).map objs).length = c.toNat := by simp
    have hst : window (store q.objs q.size _ _) q.size q.unread _ =
      q.live ++ (List.range c.toNat).map objs :=
      window_store q.size_ok.apart _ (by rw [hlen]; exact hroom)
    rw [← hmax, hlen] at hst
    rw [hcount, hst]

theorem tcpRxqDequeueBurst_live (h : q.Wf) (nrObj : U16) :
    (tcpRxqDequeueBurst q nrObj).1.1.toNat = min q.live.length nrObj.toNat ∧
      (tcpRxqDequeueBurst q nrObj).1.2 = q.live.take nrObj.toNat ∧
      (tcpRxqDequeueBurst q nrObj).2.Wf ∧ (tcpRxqDequeueBurst q nrObj).2.live =
        q.live.drop nrObj.toNat := by
  have hn : (rteMin (tcpRxqReadableCount q) nrObj).toNat = min q.live.length nrObj.toNat := by
    rw [toNat_rteMin, q.live_length]
  have hc : rteMin (tcpRxqReadableCount q) nrObj ≤ tcpRxqReadableCount q := by
    rw [BitVec.le_def, hn, q.live_length]
    omega
  obtain ⟨hwf, hlive⟩ := tcpRxqUpdateUnread_live h hc
  unfold tcpRxqDequeueBurst
  dsimp only
  refine ⟨hn, ?_, hwf, ?_⟩
  · rw [← window_take (BitVec.le_def.mp hc)]
    show q.live.take _ = _
    rw [hn, List.take_eq_take_iff]
    omega
  · refine hlive.trans ?_
    rw [hn, List.drop_eq_drop_iff]
    omega

theorem tcpRxqPeekUnread_live (q : TcpRxq α) (off : U16) :
    tcpRxqPeekUnread q off = q.live[off.toNat]? := by
  unfold tcpRxqPeekUnread TcpRxq.live
  rw [window_getElem?, BitVec.ofNat_toNat, BitVec.setWidth_eq]
  by_cases hlt : off.toNat < (tcpRxqReadableCount q).toNat
  · rw [if_pos hlt, if_neg]
    rw [BitVec.le_def]
    unfold tcpRxqReadableCount at hlt
    omega
  · rw [if_neg hlt, if_pos]
    rw [BitVec.le_def]
    unfold tcpRxqReadableCount at hlt
    omega

theorem rxqStep_refines (q : TcpRxq α) (l : List α) (op : RxqOp α) {size : Nat}
    (h : q.Wf ∧ q.size = size ∧ q.live = l) (hop : RxqInRange q op) :
    (rxqStep q op).1 = (rxFifoStep size l op).1 ∧ (rxqStep q op).2.Wf ∧
      (rxqStep q op).2.size = size ∧
      (rxqStep q op).2.live = (rxFifoStep size l op).2 := by
  obtain ⟨hwf, rfl, rfl⟩ := h
  cases op with
  | enqueueBurst objs nrObj =>
    obtain ⟨hn, hwf', hlive⟩ := tcpRxqEnqueueBurst_live hwf objs nrObj
    exact ⟨congrArg QueueOut.count hn, hwf', rfl, hlive⟩
  | dequeueBurst nrObj =>
    obtain ⟨hn, hl, hwf', hlive⟩ := tcpRxqDequeueBurst_live hwf nrObj
    exact ⟨congrArg₂ QueueOut.copied hn hl, hwf', rfl, hlive⟩
  | peekUnread off => exact ⟨congrArg QueueOut.found (tcpRxqPeekUnread_live q off), hwf, rfl, rfl⟩
  | updateUnread count =>
    obtain ⟨hwf', hlive⟩ := tcpRxqUpdateUnread_live hwf hop
    exact ⟨rfl, hwf', rfl, hlive⟩

end Rx

section Tx

variable {q : TcpTxq}

/-- The bulk is taken for short enough exactly when the wrapped sum is. -/
theorem tcpTxqEnqueueBulk_ok (q : TcpTxq) (descs : Nat → DescId) (n : U16) :
    (tcpTxqEnqueueBulk q descs n).1 = true ↔ (q.count + n.toNat) % 2 ^ 16 ≤ q.size := by
  have hsum : (q.write + n - q.una).toNat = (q.count + n.toNat) % 2 ^ 16 := by
    unfold TcpTxq.count
    bv_omega
  unfold tcpTxqEnqueueBulk
  split <;> simp <;> omega

theorem tcpTxqEnqueueBulk_live (h : q.Wf) (descs : Nat → DescId) {n : U16}
    (hroom : q.count + n.toNat ≤ q.size) :
    (tcpTxqEnqueueBulk q descs n).2.Wf ∧
      (tcpTxqEnqueueBulk q descs n).2.live = q.live ++ (List.range n.toNat).map descs := by
  have hle := q.size_ok.le
  have hcount : (q.write + n - q.una).toNat = q.count + n.toNat := by
    unfold TcpTxq.count at *
    bv_omega
  have hwrite : q.write = q.una + BitVec.ofNat 16 q.count := by
    bv_omega
  unfold tcpTxqEnqueueBulk
  rw [if_neg (by omega)]
  refine ⟨⟨?_, ?_⟩, ?_⟩
  · show (q.nxt - q.una).toNat ≤ (q.write + n - q.una).toNat
    have hnxt := h.nxt_le
    omega
  · show (q.write + n - q.una).toNat ≤ q.size
    omega
  · show window (store q.descs q.size q.write _) q.size q.una (q.write + n - q.una).toNat = _
    have hlen : ((List.range n.toNat).map descs).length = n.toNat := by simp
    have hst : window (store q.descs q.size _ _) q.size q.una _ =
      q.live ++ (List.range n.toNat).map descs :=
      window_store q.size_ok.apart _ (by rw [hlen]; exact hroom)
    rw [← hwrite, hlen] at hst
    rw [hcount, hst]

theorem tcpTxqUpdateUna_live (h : q.Wf) {c : U16} (hc : c ≤ q.nxt - q.una) :
    (tcpTxqUpdateUna q c).Wf ∧ (tcpTxqUpdateUna q c).live = q.live.drop c.toNat ∧
      ((tcpTxqUpdateUna q c).nxt - (tcpTxqUpdateUna q c).una).toNat =
        (q.nxt - q.una).toNat - c.toNat := by
  have hnxt := h.nxt_le
  have hcount := h.count_le
  have hle : c ≤ q.write - q.una := by
    exact hc.trans hnxt
  have hadv : (q.write - (q.una + c)).toNat = q.count - c.toNat := toNat_sub_add hle
  have hsent := toNat_sub_add hc
  refine ⟨⟨?_, ?_⟩, ?_, hsent⟩
  · show (q.nxt - (q.una + c)).toNat ≤ (q.write - (q.una + c)).toNat
    omega
  · show (q.write - (q.una + c)).toNat ≤ q.size
    omega
  · show window q.descs q.size (q.una + c) (q.write - (q.una + c)).toNat = _
    have hdrop : q.live.drop c.toNat = window q.descs q.size (q.una + BitVec.ofNat 16 c.toNat)
      (q.count - c.toNat) :=
      window_drop (BitVec.le_def.mp hle)
    rw [hadv, hdrop, BitVec.ofNat_toNat, BitVec.setWidth_eq]

private theorem txq_nxt (q : TcpTxq) : q.nxt = q.una + BitVec.ofNat 16 (q.nxt - q.una).toNat :=
  (add_ahead q.una q.nxt).symm

private theorem txq_nxt_advance {c : U16} (h : q.Wf) (hc : c ≤ q.write - q.nxt) :
    (q.nxt + c - q.una).toNat = (q.nxt - q.una).toNat + c.toNat ∧
      (q.nxt - q.una).toNat + c.toNat ≤ q.count := by
  have hnxt : ahead q.una q.nxt ≤ ahead q.una q.write := h.nxt_le
  have hleft : ahead q.nxt q.write = ahead q.una q.write - ahead q.una q.nxt := by
    have hadv := ahead_advance hnxt
    rw [add_ahead] at hadv
    exact hadv
  have hc' : c.toNat ≤ ahead q.nxt q.write := BitVec.le_def.mp hc
  have hlt := ahead_lt q.una q.write
  have hsum : ahead q.una (q.nxt + BitVec.ofNat 16 c.toNat) = ahead q.una q.nxt + c.toNat :=
    ahead_add (by omega)
  rw [BitVec.ofNat_toNat, BitVec.setWidth_eq] at hsum
  refine ⟨hsum, ?_⟩
  show ahead q.una q.nxt + c.toNat ≤ ahead q.una q.write
  omega

theorem tcpTxqPeekUnaBeforeNxt_live (h : q.Wf) (off : U16) :
    tcpTxqPeekUnaBeforeNxt q off = (q.live.take (q.nxt - q.una).toNat)[off.toNat]? := by
  have htake : q.live.take (q.nxt - q.una).toNat =
      window q.descs q.size q.una (q.nxt - q.una).toNat :=
    window_take h.nxt_le
  unfold tcpTxqPeekUnaBeforeNxt
  rw [htake, window_getElem?, BitVec.ofNat_toNat, BitVec.setWidth_eq]
  by_cases hlt : off.toNat < (q.nxt - q.una).toNat
  · rw [if_pos hlt, if_neg (by rw [BitVec.le_def]; omega)]
    rfl
  · rw [if_neg hlt, if_pos (by rw [BitVec.le_def]; omega)]

structure TxHolds (q : TcpTxq) (size : Nat) (t : TxFifo) : Prop where
  wf : q.Wf
  size : q.size = size
  live : q.live = t.live
  sent : (q.nxt - q.una).toNat = t.sent

theorem txqStep_refines (q : TcpTxq) (t : TxFifo) (op : TxqOp) {size : Nat} (h : TxHolds q size t)
    (hop : TxqInRange q op ∧ TxqKept q op) :
    (txqStep q op).1 = (txFifoStep size t op).1 ∧
      TxHolds (txqStep q op).2 size (txFifoStep size t op).2 := by
  obtain ⟨hwf, rfl, hl, hs⟩ := h
  obtain ⟨live, sent⟩ := t
  obtain rfl : q.live = live := hl
  obtain rfl : (q.nxt - q.una).toNat = sent := hs
  have hnxt := hwf.nxt_le
  cases op with
  | enqueueBulk descs n =>
    have hsum : q.count + n.toNat < 2 ^ 16 := hop.2
    have hok := tcpTxqEnqueueBulk_ok q descs n
    rw [Nat.mod_eq_of_lt hsum] at hok
    unfold txqStep txFifoStep
    dsimp only
    rw [q.live_length]
    split
    · next hroom =>
      obtain ⟨hwf', hlive⟩ := tcpTxqEnqueueBulk_live hwf descs hroom
      refine ⟨congrArg QueueOut.result (hok.mpr hroom), hwf', ?_, hlive, ?_⟩
      · unfold tcpTxqEnqueueBulk
        split <;> rfl
      · unfold tcpTxqEnqueueBulk
        split <;> rfl
    · next hroom =>
      have hno : tcpTxqEnqueueBulk q descs n = (false, q) := by
        unfold tcpTxqEnqueueBulk at hok ⊢
        split at hok
        · next hbig => rw [if_pos hbig]
        · exact absurd (hok.mp rfl) hroom
      rw [hno]
      exact ⟨rfl, hwf, rfl, rfl, rfl⟩
  | peekUna off =>
    refine ⟨congrArg QueueOut.found ?_, hwf, rfl, rfl, rfl⟩
    have hpeek : tcpTxqPeekForWrite q q.una off = q.live[0 + off.toNat]? :=
      q.peekForWrite hwf (by simp) (Nat.zero_le _)
    rw [Nat.zero_add] at hpeek
    exact hpeek
  | peekNxt off =>
    exact ⟨congrArg QueueOut.found (q.peekForWrite hwf (txq_nxt q) hnxt), hwf, rfl, rfl, rfl⟩
  | peekUnaBeforeNxt off =>
    exact ⟨congrArg QueueOut.found (tcpTxqPeekUnaBeforeNxt_live hwf off), hwf, rfl, rfl, rfl⟩
  | peekForWrite base off =>
    refine ⟨congrArg QueueOut.found ?_, hwf, rfl, rfl, rfl⟩
    exact q.peekForWrite hwf (by simp) (BitVec.le_def.mp hop.1)
  | updateUna count =>
    obtain ⟨hwf', hlive, hsent⟩ := tcpTxqUpdateUna_live hwf hop.2
    exact ⟨rfl, hwf', rfl, hlive, hsent⟩
  | updateNxt count =>
    obtain ⟨hadv, hle⟩ := txq_nxt_advance hwf hop.1
    refine ⟨rfl, ⟨?_, hwf.count_le⟩, rfl, rfl, hadv⟩
    show (q.nxt + count - q.una).toNat ≤ q.count
    rw [hadv]
    exact hle

end Tx

/-- Both rings are bounded first-in first-out lists across the wrap of their counters: the receive
ring always, and the send ring as long as `una` stays behind `nxt` and no bulk makes the 16-bit sum
of the length and its count wrap. A bulk is then judged wrongly whenever that sum wraps. -/
theorem ringQueues_refine_fifos {α : Type} (r : TcpRxq α) (rxOps : List (RxqOp α)) (q : TcpTxq)
    (ops : List TxqOp) (descs : Nat → DescId) (n : U16) (hr : r.Wf) (hwf : q.Wf) :
    (Run.Admitted (fun r op => (rxqStep r op).2) RxqInRange r rxOps →
      Run.trace rxqStep r rxOps = Run.trace (rxFifoStep r.size) r.live rxOps) ∧
    (Run.Admitted (fun q op => (txqStep q op).2) (fun q op => TxqInRange q op ∧
      TxqKept q op) q ops →
      Run.trace txqStep q ops = Run.trace (txFifoStep q.size) ⟨q.live, (q.nxt - q.una).toNat⟩ ops) ∧
    ((((tcpTxqEnqueueBulk q descs n).1 = true ↔ q.live.length + n.toNat ≤ q.size) ∧
      ((tcpTxqEnqueueBulk q descs n).1 = false → (tcpTxqEnqueueBulk q descs n).2 = q)) ↔
        q.live.length + n.toNat < 2 ^ 16) := by
  refine ⟨fun hops => ?_, fun hops => ?_, ?_⟩
  · refine Run.trace_eq (R := fun r' l => r'.Wf ∧ r'.size = r.size ∧ r'.live = l) ?_
      ⟨hr, rfl, rfl⟩ hops
    exact fun q' l op hrel hop => rxqStep_refines q' l op hrel hop
  · refine Run.trace_eq (R := fun q' t => TxHolds q' q.size t) ?_ ⟨hwf, rfl, rfl, rfl⟩ hops
    exact fun q' t op hrel hop => txqStep_refines q' t op hrel hop
  · have hkeep : (tcpTxqEnqueueBulk q descs n).1 = false → (tcpTxqEnqueueBulk q descs n).2 = q := by
      unfold tcpTxqEnqueueBulk
      split
      · exact fun _ => rfl
      · exact fun h => absurd h (by simp)
    have hok := tcpTxqEnqueueBulk_ok q descs n
    have hcount := hwf.count_le
    have hle := q.size_ok.le
    have hn := n.isLt
    rw [q.live_length, hok, and_iff_left hkeep]
    omega

theorem ringSize_two : RingSize 2 := .inr ⟨1, by decide, rfl⟩

def wrappedTxq : TcpTxq where
  una := 0xfffe
  nxt := 0xfffe
  write := 0
  size := 2
  size_ok := ringSize_two
  descs := fun i => i

theorem wrappedTxq_wf : wrappedTxq.Wf := ⟨by decide, by decide⟩

def wrappedRxq : TcpRxq Nat where
  unread := 0xffff
  max := 1
  size := 2
  size_ok := ringSize_two
  objs := fun i => i

theorem wrappedRxq_wf : wrappedRxq.Wf :=
  show (wrappedRxq.max - wrappedRxq.unread).toNat ≤ 2 by decide

theorem ringQueues_refine_wrapped :
    Run.trace rxqStep wrappedRxq [.updateUnread 1] =
      Run.trace (rxFifoStep 2) wrappedRxq.live [.updateUnread 1] ∧
      Run.trace txqStep wrappedTxq [.updateNxt 2, .updateUna 1, .enqueueBulk id 1,
        .enqueueBulk id 1, .peekNxt 0] =
        Run.trace (txFifoStep 2) ⟨wrappedTxq.live, 0⟩
          [.updateNxt 2, .updateUna 1, .enqueueBulk id 1, .enqueueBulk id 1, .peekNxt 0] :=
  have h := ringQueues_refine_fifos wrappedRxq [.updateUnread 1] wrappedTxq
    [.updateNxt 2, .updateUna 1, .enqueueBulk id 1, .enqueueBulk id 1,
      .peekNxt 0] id 1 wrappedRxq_wf wrappedTxq_wf
  ⟨h.1 ⟨show (1 : U16) ≤ tcpRxqReadableCount wrappedRxq by decide, trivial⟩, h.2.1 (by decide)⟩

/-- A bulk of 65534 descriptors is accepted by the full ring of two, which is empty afterwards. And
when `una` has passed `nxt`, a descriptor that has left the ring is peeked. -/
theorem txq_wrap_accepts :
    wrappedTxq.Wf ∧ wrappedTxq.live.length = 2 ∧ (tcpTxqEnqueueBulk wrappedTxq id 65534).1 = true ∧
      (tcpTxqEnqueueBulk wrappedTxq id 65534).2.count = 0 ∧
      (tcpTxqUpdateUna wrappedTxq 2).live = [] ∧
        tcpTxqPeekNxt (tcpTxqUpdateUna wrappedTxq 2) 0 = some 0 :=
  ⟨wrappedTxq_wf, by decide, by decide, by decide, by decide, by decide⟩

end LibTpa
