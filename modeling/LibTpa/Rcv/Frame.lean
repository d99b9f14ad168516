/- LibTpa/Rcv/Frame
   digest: What the processing of segment text leaves alone. -/

import LibTpa.Rcv.Reassembly
import LibTpa.Sock.Frame

set_option autoImplicit false

namespace LibTpa

/-! The table of SACK blocks never overflows. -/

def Rcv.FewSacks (r : Rcv) : Prop := r.sackBlocks.length ≤ tcpMaxNrSackBlock

private theorem sackTryMergeBlocks_length (l : List SackBlock) : ∀ blk,
    (sackTryMergeBlocks blk l).2.length ≤ l.length := by
  induction l with
  | nil =>
    intro blk
    exact le_rfl
  | cons b l ih =>
    intro blk
    unfold sackTryMergeBlocks
    split
    · exact (ih _).trans (Nat.le_succ _)
    · exact Nat.succ_le_succ (ih blk)

private theorem sackFindMerge_length {start stop : U32} {l before rest : List SackBlock}
    {b : SackBlock} (h : sackFindMerge start stop l = some (before, b, rest)) :
    before.length + 1 + rest.length = l.length := by
  induction l generalizing before with
  | nil => cases h
  | cons c l ih =>
    unfold sackFindMerge at h
    split at h
    · cases h
      rw [List.length_nil, List.length_cons]
      omega
    · obtain ⟨⟨before', b', rest'⟩, hr, heq⟩ := Option.map_eq_some_iff.mp h
      cases heq
      have hlen := ih hr
      rw [List.length_cons, List.length_cons, ← hlen]
      dsimp only
      omega

namespace Rcv.FewSacks

variable {r : Rcv} {x : RxSt}

private theorem update (h : r.FewSacks) (start : U32) (len : Nat) :
    (sackUpdate r start len).length ≤ tcpMaxNrSackBlock := by
  unfold FewSacks at h
  unfold sackUpdate
  dsimp only
  split
  swap
  · exact h
  split
  · next b rest hf =>
    have hlen := sackFindMerge_length hf
    have hle := sackTryMergeBlocks_length rest b
    rw [List.length_nil] at hlen
    rw [List.length_cons]
    omega
  · next b0 before b rest hf =>
    have hlen := sackFindMerge_length hf
    have hle := sackTryMergeBlocks_length (before ++ b0 :: rest) b
    rw [List.length_cons] at hlen
    rw [List.length_append, List.length_cons] at hle
    rw [List.length_cons]
    omega
  · rw [List.length_cons, List.length_take]
    unfold tcpMaxNrSackBlock
    omega

private theorem regulate (h : r.FewSacks) : (sackRegulate r).FewSacks :=
  (List.length_filter_le ..).trans h

private theorem enqueue (h : r.FewSacks) (p : Packet) : (tcpRcvEnqueue r p).2.1.FewSacks := by
  unfold tcpRcvEnqueue
  dsimp only
  generalize (if r.rcvWnd < p.len then _ else p) = q
  split
  · exact h
  split <;> exact h

private theorem drainLoop (l : List Packet) : ∀ {x : RxSt} (cur : Packet), x.rcv.FewSacks →
    (oooDrainLoop l x cur).2.1.rcv.FewSacks := by
  induction l with
  | nil =>
    intro x cur h
    exact h
  | cons q l ih =>
    intro x cur h
    have he := h.enqueue q
    unfold oooDrainLoop
    split
    · exact h
    split
    · next heq =>
      rw [heq] at he
      exact he
    · next heq =>
      rw [heq] at he
      exact ih _ he

private theorem drain (h : x.rcv.FewSacks) (cur : Packet) :
    (oooQueueDrain x cur).1.rcv.FewSacks := by
  have hd := drainLoop x.rcv.ooo cur h
  unfold oooQueueDrain
  split
  · next heq =>
    rw [heq] at hd
    exact hd
  · next heq =>
    rw [heq] at hd
    split
    · exact Nat.zero_le _
    · exact hd.regulate

private theorem insert (h : x.rcv.FewSacks) (cfg : TcpCfg) (pre post : List Packet) (p : Packet) :
    (oooQueueInsert cfg x pre post p).2.1.rcv.FewSacks := by
  unfold oooQueueInsert
  dsimp only
  generalize (if 0 < (p.endSeq - (x.rcv.rcvNxt + BitVec.ofNat 32 x.rcv.rcvWnd)).toInt then _
    else p) = q
  split
  · exact h
  split
  · exact h
  · exact h.update ..

private theorem place (cfg : TcpCfg) (pre post : List Packet) : ∀ {x : RxSt} (p : Packet),
    x.rcv.FewSacks → (oooPlace cfg x pre post p).2.1.rcv.FewSacks := by
  have htrim : ∀ {x : RxSt} (p : Packet), x.rcv.FewSacks →
      (oooTrimNext pre post x p).2.1.rcv.FewSacks := by
    induction post with
    | nil =>
      intro x p h
      exact h
    | cons next post ih =>
      intro x p h
      unfold oooTrimNext
      dsimp only
      split
      · exact h
      split
      · exact h
      · exact ih p h
  intro x p h
  exact (htrim p h).insert cfg ..

private theorem dataOoo (h : x.rcv.FewSacks) (cfg : TcpCfg) (tsUs : Nat) (p : Packet) :
    (tcpRcvDataOoo cfg tsUs x p).2.1.rcv.FewSacks := by
  unfold tcpRcvDataOoo
  dsimp only
  generalize hy : (if x.rcv.nrOooPkt = 0 then
    ({ x with rcv := { x.rcv with oooStartTs := BitVec.ofNat 32 tsUs } } : RxSt) else x) = y
  have hy : y.rcv.FewSacks := by
    rw [← hy]
    split <;> exact h
  split
  · exact hy.insert cfg ..
  split
  · exact hy
  · exact place cfg _ _ p hy
  · exact place cfg _ _ _ hy

end Rcv.FewSacks

/-- A function of the receive half ran: its own queues and counters, the wish to
acknowledge and the events may have changed. -/
structure RcvFrame (s s' : St) : Prop where
  tsock : s'.tsock = { s.tsock with
    rcv := s'.tsock.rcv
    flags := s'.tsock.flags
    nego := s'.tsock.nego
    ev := s'.tsock.ev }
  worker : s'.worker = { s.worker with
    rx := s'.worker.rx
    eventQueue := s'.worker.eventQueue }
  flags : s'.tsock.flags = { s.tsock.flags with
    tcp := { s.tsock.flags.tcp with ack := s'.tsock.flags.tcp.ack }
    ackNow := s'.tsock.flags.ackNow }
  nego : s'.tsock.nego = { s.tsock.nego with quickack := s'.tsock.nego.quickack }
  own : OwnQueues s s'
  few : s.tsock.rcv.FewSacks → s'.tsock.rcv.FewSacks

namespace RcvFrame

variable {s s' s'' : St}

theorem refl (s : St) : RcvFrame s s := ⟨rfl, rfl, rfl, rfl, .of_eq rfl rfl, id⟩

theorem trans (h : RcvFrame s s') (h' : RcvFrame s' s'') : RcvFrame s s'' :=
  ⟨h'.tsock.trans (by rw [h.tsock]), h'.worker.trans (by rw [h.worker]),
    h'.flags.trans (by rw [h.flags]), h'.nego.trans (by rw [h.nego]),
    h.own.trans (by rw [h.tsock]) h'.own, fun hf => h'.few (h.few hf)⟩

theorem state (h : RcvFrame s s') : s'.tsock.state = s.tsock.state := by rw [h.tsock]
theorem snd (h : RcvFrame s s') : s'.tsock.snd = s.tsock.snd := by rw [h.tsock]
theorem cc (h : RcvFrame s s') : s'.tsock.cc = s.tsock.cc := by rw [h.tsock]
theorem timers (h : RcvFrame s s') : s'.tsock.timers = s.tsock.timers := by rw [h.tsock]
theorem emitted (h : RcvFrame s s') : s'.tsock.emitted = s.tsock.emitted := by rw [h.tsock]
theorem freed (h : RcvFrame s s') : s'.tsock.freed = s.tsock.freed := by rw [h.tsock]
theorem wid (h : RcvFrame s s') : s'.worker.id = s.worker.id := by rw [h.worker]
theorem eof (h : RcvFrame s s') : s'.tsock.flags.eof = s.tsock.flags.eof := by rw [h.flags]

theorem setRcv (s : St) (r : Rcv) (h : s.tsock.rcv.FewSacks → r.FewSacks) :
    RcvFrame s (s.setRcv r) := ⟨rfl, rfl, rfl, rfl, .of_eq rfl rfl, h⟩

theorem tsockSetAckFlag (cfg : TcpCfg) (s : St) (b : Bool) : RcvFrame s (tsockSetAckFlag cfg s b) :=
  ⟨rfl, rfl, rfl, rfl, .of_eq rfl rfl, id⟩

theorem tsockResetQuickack (s : St) : RcvFrame s (tsockResetQuickack s) :=
  ⟨rfl, rfl, rfl, rfl, .of_eq rfl rfl, id⟩

theorem deliver (s : St) (x : RxSt) (h : s.tsock.rcv.FewSacks → x.rcv.FewSacks) :
    RcvFrame s (deliver s x) := by
  unfold LibTpa.deliver
  split
  · exact ⟨rfl, rfl, rfl, rfl, .of_eq rfl rfl, h⟩
  · have hev := (SndFrame.tsockEventAdd (s.setRxSt x) tpaEventIn).own
    exact ⟨rfl, rfl, rfl, rfl, ⟨hev.output, hev.events, hev.stay⟩, h⟩

theorem tcpRcvData (cfg : TcpCfg) (s : St) (p : Packet) : RcvFrame s (tcpRcvData cfg s p).2.1 := by
  unfold LibTpa.tcpRcvData
  dsimp only
  split
  · split
    · exact .setRcv _ _ id
    · exact refl s
  split
  · exact refl s
  unfold rcvPlace
  split
  · exact (RcvFrame.tsockSetAckFlag cfg s false).trans (.deliver _ _ fun h => h.enqueue _)
  · refine ((RcvFrame.tsockResetQuickack s).trans (.tsockSetAckFlag cfg _ true)).trans
      (.deliver _ _ fun h => ?_)
    exact (Rcv.FewSacks.dataOoo h cfg _ _).drain _

end RcvFrame

end LibTpa
