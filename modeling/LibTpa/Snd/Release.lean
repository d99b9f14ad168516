/- LibTpa/Snd/Release
   digest: Descriptors leave the send queue from its front, each one once. -/

import LibTpa.Snd.Queue
import LibTpa.Output.Frame

set_option autoImplicit false

namespace LibTpa

def TxDesc.callback (v : TxDesc) : Option (Nat × Nat × Nat) :=
  v.writeDone.map fun f => (f, v.base, v.param)

structure SameWrite (v v' : TxDesc) : Prop where
  data : v'.data = v.data
  seq : v'.seq = v.seq
  callback : v'.callback = v.callback
  mbuf : v'.memFromMbuf = v.memFromMbuf

theorem SameWrite.refl (v : TxDesc) : SameWrite v v := ⟨rfl, rfl, rfl, rfl⟩

theorem SameWrite.trans {v v' v'' : TxDesc} (h : SameWrite v v') (h' : SameWrite v' v'') :
    SameWrite v v'' :=
  ⟨h'.data.trans h.data, h'.seq.trans h.seq, h'.callback.trans h.callback, h'.mbuf.trans h.mbuf⟩

def St.callbacks (s : St) (l : List DescId) : List (Nat × Nat × Nat) :=
  l.filterMap fun d => (s.desc d).callback

/-- The first `k` descriptors of the queue were released, with their callbacks. -/
structure Releases (k : Nat) (s s' : St) : Prop where
  le : k ≤ s.tsock.snd.txq.count
  una : s'.tsock.snd.txq.una = s.tsock.snd.txq.una + BitVec.ofNat 16 k
  write : s'.tsock.snd.txq.write = s.tsock.snd.txq.write
  ring : ∀ a, s'.tsock.snd.txq.descAt a = s.tsock.snd.txq.descAt a
  size : s'.tsock.snd.txq.size = s.tsock.snd.txq.size
  free : s'.worker.tx.free = (s.tsock.snd.txq.live.take k).reverse ++ s.worker.tx.free
  done : s'.worker.done = s.worker.done ++ s.callbacks (s.tsock.snd.txq.live.take k)
  desc : ∀ d, SameWrite (s.desc d) (s'.desc d)

namespace Releases

variable {s s' s'' : St} {k m : Nat}

theorem count (h : Releases k s s') :
    s'.tsock.snd.txq.count = s.tsock.snd.txq.count - k := by
  have := h.le
  unfold TcpTxq.count at *
  rw [h.una, h.write]
  bv_omega

theorem live (h : Releases k s s') : s'.tsock.snd.txq.live = s.tsock.snd.txq.live.drop k := by
  have hle := h.le
  have hcount := h.count
  unfold TcpTxq.live
  rw [Lib.RingWindow.window_drop hle, hcount, h.una]
  unfold Lib.RingWindow.window
  exact List.map_congr_left fun i _ => h.ring _

theorem callbacks (h : Releases k s s') (l : List DescId) : s'.callbacks l = s.callbacks l := by
  unfold St.callbacks
  exact List.filterMap_congr fun d _ => (h.desc d).callback

theorem trans (h : Releases k s s') (h' : Releases m s' s'') : Releases (k + m) s s'' := by
  have hle := h.le
  have hle' := h'.le
  rw [h.count] at hle'
  have htake : s.tsock.snd.txq.live.take (k + m) =
      s.tsock.snd.txq.live.take k ++ s'.tsock.snd.txq.live.take m := by
    rw [List.take_add, h.live]
  refine ⟨by omega, ?_, h'.write.trans h.write, fun a => (h'.ring a).trans (h.ring a),
    h'.size.trans h.size, ?_, ?_, fun d => (h.desc d).trans (h'.desc d)⟩
  · rw [h'.una, h.una, BitVec.ofNat_add, add_assoc]
  · rw [h'.free, h.free, htake, List.reverse_append, List.append_assoc]
  · rw [h'.done, h.done, htake, h.callbacks, List.append_assoc]
    simp [St.callbacks]

theorem none (hu : s'.tsock.snd.txq.una = s.tsock.snd.txq.una)
    (hw : s'.tsock.snd.txq.write = s.tsock.snd.txq.write)
    (hr : ∀ a, s'.tsock.snd.txq.descAt a = s.tsock.snd.txq.descAt a)
    (hz : s'.tsock.snd.txq.size = s.tsock.snd.txq.size)
    (hf : s'.worker.tx.free = s.worker.tx.free) (hd : s'.worker.done = s.worker.done)
    (hv : ∀ d, SameWrite (s.desc d) (s'.desc d)) : Releases 0 s s' :=
  ⟨Nat.zero_le _, by simp [hu], hw, hr, hz, by simp [hf], by simp [hd, St.callbacks], hv⟩

end Releases

/-- What acknowledgement and transmission leave of the numbers of the send half;
when everything was sent, `snd_nxt` stays as well. -/
structure SndStill (x x' : Snd) : Prop where
  isn : x'.sndIsn = x.sndIsn
  data : x'.dataSeqNxt = x.dataSeqNxt
  fin : x'.finSent = x.finSent
  early : x'.closedAtSynRcvd = x.closedAtSynRcvd
  all : x.txq.nxt = x.txq.write → x'.sndNxt = x.sndNxt ∧ x'.txq.nxt = x'.txq.write

theorem SndStill.refl (x : Snd) : SndStill x x := ⟨rfl, rfl, rfl, rfl, fun h => ⟨rfl, h⟩⟩

theorem SndStill.trans {x x' x'' : Snd} (h : SndStill x x') (h' : SndStill x' x'') :
    SndStill x x'' := by
  refine ⟨h'.isn.trans h.isn, h'.data.trans h.data, h'.fin.trans h.fin, h'.early.trans h.early, ?_⟩
  intro hall
  obtain ⟨h1, h2⟩ := h.all hall
  obtain ⟨h3, h4⟩ := h'.all h2
  exact ⟨h3.trans h1, h4⟩

/-- The segments that were sent carry ACK alone, as data does. One that went out took
the flags that were pending with it. -/
structure Texts (s s' : St) : Prop where
  sent : ∃ new, s'.tsock.emitted = s.tsock.emitted ++ new ∧ ∀ q ∈ new, q.flags = tcpFlagAck
  tcp : s'.tsock.flags.tcp = s.tsock.flags.tcp ∨ s'.tsock.flags.tcp = {}

namespace Texts

variable {s s' s'' : St}

theorem of_eq (he : s'.tsock.emitted = s.tsock.emitted)
    (ht : s'.tsock.flags.tcp = s.tsock.flags.tcp) : Texts s s' :=
  ⟨⟨[], by rw [he, List.append_nil], by simp⟩, .inl ht⟩

theorem trans (h : Texts s s') (h' : Texts s' s'') : Texts s s'' := by
  obtain ⟨new, hnew, hall⟩ := h.sent
  obtain ⟨new', hnew', hall'⟩ := h'.sent
  refine ⟨⟨new ++ new', by rw [hnew', hnew, List.append_assoc], ?_⟩, ?_⟩
  · intro q hq
    exact (List.mem_append.mp hq).elim (hall q) (hall' q)
  · rcases h'.tcp with ht | ht
    · rw [ht]
      exact h.tcp
    · exact .inr ht

end Texts

structure OutFrame (s s' : St) : Prop where
  frame : SndFrame s s'
  still : SndStill s.tsock.snd s'.tsock.snd
  released : ∃ k, Releases k s s'

structure TxFrame (s s' : St) : Prop extends OutFrame s s' where
  texts : Texts s s'

theorem SndFrame.out {s s' : St} (h : SndFrame s s') (hs : s'.tsock.snd = s.tsock.snd)
    (hf : s'.worker.tx.free = s.worker.tx.free) (hd : s'.worker.done = s.worker.done)
    (hv : ∀ d, SameWrite (s.desc d) (s'.desc d)) : OutFrame s s' :=
  ⟨h, hs ▸ .refl _, 0, .none (by rw [hs]) (by rw [hs]) (fun a => by rw [hs]) (by rw [hs]) hf hd hv⟩

theorem SndFrame.idle {s s' : St} (h : SndFrame s s') (hs : s'.tsock.snd = s.tsock.snd)
    (ht : s'.worker.tx = s.worker.tx) (hd : s'.worker.done = s.worker.done) : OutFrame s s' := by
  refine h.out hs (by rw [ht]) hd fun d => ?_
  rw [St.desc, St.desc, ht]
  exact .refl _

theorem OutFrame.trans {s s' s'' : St} (h : OutFrame s s') (h' : OutFrame s' s'') :
    OutFrame s s'' := by
  obtain ⟨k, hk⟩ := h.released
  obtain ⟨m, hm⟩ := h'.released
  exact ⟨h.frame.trans h'.frame, h.still.trans h'.still, k + m, hk.trans hm⟩

theorem OutFrame.state {s s' : St} (h : OutFrame s s') : s'.tsock.state = s.tsock.state :=
  h.frame.state

theorem Quiet.outFrame {s s' : St} (h : Quiet s s') : OutFrame s s' :=
  h.frame.idle h.snd h.tx h.done

namespace TxFrame

variable {s s' s'' : St}

theorem refl (s : St) : TxFrame s s := ⟨(SndFrame.refl s).idle rfl rfl rfl, .of_eq rfl rfl⟩

theorem trans (h : TxFrame s s') (h' : TxFrame s' s'') : TxFrame s s'' :=
  ⟨h.toOutFrame.trans h'.toOutFrame, h.texts.trans h'.texts⟩

theorem state (h : TxFrame s s') : s'.tsock.state = s.tsock.state := h.frame.state

theorem setCc (s : St) (c : Cc) : TxFrame s (s.setCc c) :=
  ⟨(SndFrame.setCc s c).idle rfl rfl rfl, .of_eq rfl rfl⟩

theorem setTimers (s : St) (t : Timers) : TxFrame s (s.setTimers t) :=
  ⟨(SndFrame.setTimers s t).idle rfl rfl rfl, .of_eq rfl rfl⟩

theorem clearTcp (s : St) : TxFrame s (s.setFlags { s.tsock.flags with tcp := {} }) :=
  ⟨(SndFrame.setTcp s {}).idle rfl rfl rfl, ⟨[], (List.append_nil _).symm, by simp⟩, .inr rfl⟩

theorem stampAck (s : St) (seq ts : U32) : TxFrame s (s.setNego
    { s.tsock.nego with lastAckSent := seq, lastAckSentTs := ts }) :=
  ⟨(SndFrame.stampAck s seq ts).idle rfl rfl rfl, .of_eq rfl rfl⟩

theorem fault (s : St) : TxFrame s { s with worker := { s.worker with fault := true } } :=
  ⟨(SndFrame.fault s).idle rfl rfl rfl, .of_eq rfl rfl⟩

theorem tsockEventAdd (s : St) (e : BitVec 32) : TxFrame s (tsockEventAdd s e) :=
  ⟨(SndFrame.tsockEventAdd s e).idle rfl rfl rfl, .of_eq rfl rfl⟩

theorem tsockUpdateLastSndPkt (s : St) : TxFrame s (tsockUpdateLastSndPkt s) :=
  ⟨(SndFrame.tsockUpdateLastSndPkt s).idle rfl rfl rfl, .of_eq rfl rfl⟩

theorem afterPrepend (s : St) (f : TcpFlags) : TxFrame s (afterPrepend s f) := by
  refine ⟨(SndFrame.afterPrepend s f).idle rfl rfl rfl, .of_eq rfl ?_⟩
  simp only [LibTpa.afterPrepend]
  split <;> rfl

theorem packetAlloc (s : St) : TxFrame s (packetAlloc s).2 := by
  refine ⟨(SndFrame.packetAlloc s).idle ?_ ?_ ?_, .of_eq ?_ ?_⟩ <;> unfold LibTpa.packetAlloc <;>
    split <;> rfl

theorem devPortTxqEnqueue (s : St) (pkt : TxPacket) (h : Announced s.tsock pkt)
    (ht : pkt.flags = tcpFlagAck) : TxFrame s (devPortTxqEnqueue s pkt).2 := by
  constructor
  · refine (SndFrame.devPortTxqEnqueue s pkt h).idle ?_ ?_ ?_ <;>
      unfold LibTpa.devPortTxqEnqueue <;> split <;> try rfl
    all_goals
      dsimp only
      split <;> rfl
  · unfold LibTpa.devPortTxqEnqueue
    split
    · exact .of_eq rfl rfl
    · exact ⟨⟨[pkt], rfl, by simpa using ht⟩, .inl rfl⟩

theorem rteRdtsc (s : St) : TxFrame s (rteRdtsc s).2 := by
  refine ⟨(SndFrame.rteRdtsc s).idle ?_ ?_ ?_, .of_eq ?_ ?_⟩ <;> unfold LibTpa.rteRdtsc <;>
    split <;> rfl

theorem setDesc (s : St) (d : DescId) (v : TxDesc) (h : SameWrite (s.desc d) v) :
    TxFrame s (s.setDesc d v) := by
  refine ⟨(SndFrame.setDesc s d v).out rfl rfl rfl fun e => ?_, .of_eq rfl rfl⟩
  by_cases he : e = d
  · subst he
    rw [St.desc_setDesc_self]
    exact h
  · rw [St.desc_setDesc_ne s v he]
    exact .refl _

theorem setSnd (s : St) (x : Snd) (n : U16) (h : SndStill s.tsock.snd x)
    (ht : x.txq = { s.tsock.snd.txq with nxt := n }) : TxFrame s (s.setSnd x) := by
  refine ⟨⟨.setSnd s x, h, 0, .none ?_ ?_ (fun a => ?_) ?_ rfl rfl fun d => .refl _⟩,
    .of_eq rfl rfl⟩
  all_goals
    simp only [St.setSnd, ht]
    try rfl

theorem setRetrans (s : St) (seq : U32) (base : U16) (ts : U32) (stage : RetransStage) :
    TxFrame s (s.setSnd { s.tsock.snd with
      retransSeq := seq, retransDescBase := base, retransTsVal := ts, retransStage := stage }) :=
  .setSnd s _ s.tsock.snd.txq.nxt ⟨rfl, rfl, rfl, rfl, fun h => ⟨rfl, h⟩⟩ rfl

end TxFrame

end LibTpa
