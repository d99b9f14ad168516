/- LibTpa/Conn/FinRun
   digest: Over every run, the peer's FIN ends the stream right behind its last byte. -/

import LibTpa.Conn.Fin

set_option autoImplicit false

namespace LibTpa

open Lib.SerialNumber Lib.SpanList Lib.Stream Lib.Run

variable {C : SegPred Byte} {k : Nat} {s s' s'' : St} {p : Packet} {cfg : TcpCfg} {c : Conn}
  {e : ConnEv}

structure Unmoved (s s' : St) : Prop where
  flow : ∀ {C : SegPred Byte} {k : Nat}, Flow C k s → Flow C k s'
  ended : ∀ {f : U32}, Ended f s → Ended f s'
  eof : s'.tsock.flags.eof = s.tsock.flags.eof
  rxq : s'.tsock.rcv.rxq = s.tsock.rcv.rxq
  isn : s'.tsock.rcv.rcvIsn = s.tsock.rcv.rcvIsn

theorem RcvStill.unmoved (h : RcvStill s s') : Unmoved s s' :=
  ⟨fun hf => hf.still h, fun he => he.still h, h.keeps.eof, h.keeps.rxq, h.isn⟩

namespace Unmoved

theorem trans (h : Unmoved s s') (h' : Unmoved s' s'') : Unmoved s s'' :=
  ⟨fun hf => h'.flow (h.flow hf), fun he => h'.ended (h.ended he), h'.eof.trans h.eof,
    h'.rxq.trans h.rxq, h'.isn.trans h.isn⟩

theorem setHead (s : St) (x : Option Packet) :
    Unmoved s { s with tsock := { s.tsock with rxMergeHead := x } } :=
  ⟨fun hf => ⟨hf.eof, hf.phase, hf.inv, hf.nxt, hf.fresh⟩,
    fun he => ⟨he.eof, he.phase, he.aligned, he.nxt⟩, rfl, rfl, rfl⟩

theorem packetFree (s : St) (p : Packet) : Unmoved s (packetFree s p) := by
  refine ⟨fun hf => ⟨hf.eof, hf.phase, ?_, hf.nxt, hf.fresh⟩,
    fun he => ⟨he.eof, he.phase, he.aligned, he.nxt⟩, rfl, rfl, rfl⟩
  obtain ⟨share, hi⟩ := hf.inv
  exact ⟨share, hi.free p⟩

theorem env (s : St) (w : Worker) : Unmoved s { s with worker := w } := by
  refine ⟨fun hf => ⟨hf.eof, hf.phase, ?_, hf.nxt, hf.fresh⟩,
    fun he => ⟨he.eof, he.phase, he.aligned, he.nxt⟩, rfl, rfl, rfl⟩
  obtain ⟨share, hi⟩ := hf.inv
  refine ⟨w.rx.nrOooMbuf - BitVec.ofNat 32 (segSum s.tsock.rcv.ooo), hi.spans, hi.wnd, hi.size,
    hi.count, ?_, hi.last, hi.oooAligned, hi.rxqAligned, hi.content⟩
  exact (BitVec.sub_add_cancel ..).symm

theorem tsockDropOooMbufs (s : St) : Unmoved s (s.setRxSt (tsockDropOooMbufs s.rxSt)) := by
  have hedge := tsockDropOooMbufs_edge s.rxSt
  have hooo := tsockDropOooMbufs_length s.rxSt
  refine ⟨fun hf => ⟨hf.eof, hf.phase, ?_, fun hp => ?_, fun hp => ?_⟩,
    fun he => ⟨he.eof, he.phase, ?_, ?_⟩, rfl, hedge.rxq, hedge.isn⟩
  · obtain ⟨share, hi⟩ := hf.inv
    exact ⟨share, tsockDropOooMbufs_inv hi⟩
  · exact hedge.nxt.trans ((hf.nxt hp).trans (by rw [← hedge.isn]; rfl))
  · obtain ⟨h1, h2⟩ := hf.fresh hp
    refine ⟨h1, List.length_eq_zero_iff.mp (Nat.le_zero.mp ?_)⟩
    rw [show s.rxSt.rcv.ooo = [] from h2] at hooo
    exact hooo
  · rw [show (s.setRxSt (LibTpa.tsockDropOooMbufs s.rxSt)).tsock.rcv.rxq = _ from hedge.rxq]
    exact he.aligned
  · exact hedge.nxt.trans he.nxt

end Unmoved

theorem Outcome.after (h : Outcome C k s p s') (hu : Unmoved s' s'') : Outcome C k s p s'' := by
  cases h with
  | flow k' new h hq hd hk => exact .flow k' new (hu.flow h) (hu.rxq.trans hq) hd hk
  | fin hp h hq hf =>
    exact .fin hp (hu.ended h) (hu.rxq.trans hq) (hf.trans (by rw [hu.isn]))

theorem Unmoved.tcpRcvProcess (cfg : TcpCfg) (s : St) (p : Packet) :
    Unmoved (tcpRcvPkt cfg s { p with toRead := p.segs }).2.1 (tcpRcvProcess cfg s p) := by
  unfold LibTpa.tcpRcvProcess
  dsimp only
  generalize tcpRcvPkt cfg s { p with toRead := p.segs } = r
  generalize hs₁ : (if r.1 ≠ none ∨ r.2.2.len = 0 then LibTpa.packetFree r.2.1 r.2.2
    else r.2.1) = s₁
  have h₁ : Unmoved r.2.1 s₁ := by
    rw [← hs₁]
    split
    · exact .packetFree ..
    · exact (RcvStill.refl _).unmoved
  refine (h₁.trans ?_).trans (.setHead _ none)
  split
  · exact (Quiet.xmitFlagPacket cfg s₁).frame.still.unmoved
  · exact (RcvStill.refl _).unmoved

/-! Packets that wait to be merged. -/

def Packet.Whole (p : Packet) : Prop := p.segs.flatten.length = p.len

theorem Packet.Single.whole (h : p.Single) : p.Whole := by
  obtain ⟨b, hb, hl⟩ := h
  simp [Packet.Whole, hb, hl]

theorem Packet.Whole.aligned (h : p.Whole) : Packet.Aligned { p with toRead := p.segs } :=
  ⟨p.segs.length, by rw [List.take_length]; exact h⟩

theorem parseTsOptFast_only (p : Packet) : TsOnly p (parseTsOptFast p) := by
  unfold parseTsOptFast
  split
  · exact ⟨rfl⟩
  · exact ⟨rfl⟩

theorem Packet.Single.parsed (h : p.Single) : (parseTsOptFast p).Single := by
  rw [(parseTsOptFast_only p).eq]
  exact h

theorem Packet.Whole.chain {head : Packet} (h : head.Whole) (hp : p.Single)
    (hm : tcpCanMerge cfg head p = true) : (packetChain head p).Whole := by
  obtain ⟨b, hb, hl⟩ := hp
  unfold Packet.Whole at h
  have hsize : head.len + p.l5Len < tsockMaxMergeSize := by
    simp only [tcpCanMerge, Bool.and_eq_true, decide_eq_true_eq] at hm
    exact hm.2
  have hl5 : p.l5Len = b.length := by simp [Packet.l5Len, hb]
  have hlt : head.len + b.length < 2 ^ 16 := by
    unfold tsockMaxMergeSize at hsize
    omega
  simp only [Packet.Whole, packetChain, List.flatten_append, List.length_append, h, hb,
    List.flatten_singleton, hl5]
  rw [Nat.mod_eq_of_lt hlt]

/-! One connection. -/

def Conn.put (c : Conn) : List Byte := c.read ++ rxqBytes c.st.tsock.rcv.rxq

theorem Delivered.builds {new : List Packet} : ∀ {k : Nat} {bs : List Byte}, C.Builds bs →
    bs.length = k → Delivered C k new → (∀ q ∈ new, q.Aligned) →
    C.Builds (bs ++ rxqBytes new) ∧ (bs ++ rxqBytes new).length = k + rxqLen new := by
  induction new with
  | nil =>
    intro k bs hb hk _ _
    simpa [hk] using hb
  | cons q rest ih =>
    intro k bs hb hk hd ha
    have hlen := (ha q (by simp)).bytes_length
    have h := @ih (k + q.len) (bs ++ q.bytes) (hb.snoc (hk ▸ hd.2.1)) (by simp [hk, hlen]) hd.2.2
      (fun x hx => ha x (by simp [hx]))
    simpa [List.append_assoc, Nat.add_assoc] using h

/-- The stream of a connection before and behind the peer's FIN. -/
inductive PeerStream (C : SegPred Byte) (c : Conn) : Prop
  | flow (h : Flow C c.put.length c.st)
  | ended (f : U32) (h : Ended f c.st) (hf : c.finSeq = some f)
      (hn : f = c.st.tsock.rcv.rcvIsn + 1 + BitVec.ofNat 32 c.put.length)

structure FinInv (C : SegPred Byte) (c : Conn) : Prop where
  whole : ∀ q ∈ c.st.tsock.rxMergeHead, q.Whole
  builds : C.Builds c.put
  stream : PeerStream C c

theorem PeerStream.aligned (h : PeerStream C c) : ∀ q ∈ c.st.tsock.rcv.rxq, q.Aligned := by
  cases h with
  | flow h =>
    obtain ⟨share, hi⟩ := h.inv
    exact hi.rxqAligned
  | ended f h => exact h.aligned

theorem FinInv.unmoved (h : FinInv C c) (hu : Unmoved c.st s') (wrote : List Byte)
    (hh : ∀ q ∈ s'.tsock.rxMergeHead, q.Whole) : FinInv C ⟨s', wrote, c.read, c.finSeq⟩ := by
  have hput : Conn.put ⟨s', wrote, c.read, c.finSeq⟩ = c.put := by
    unfold Conn.put
    rw [hu.rxq]
  refine ⟨hh, hput ▸ h.builds, ?_⟩
  cases h.stream with
  | flow h =>
    refine .flow ?_
    rw [hput]
    exact hu.flow h
  | ended f h hf hn =>
    refine .ended f (hu.ended h) hf ?_
    rw [hput, hu.isn]
    exact hn

theorem FinInv.outcome (h : FinInv C c) (wrote : List Byte)
    (ho : Flow C c.put.length c.st → Outcome C c.put.length c.st p s')
    (hu : ∀ f, Ended f c.st → Unmoved c.st s') (hh : ∀ q ∈ s'.tsock.rxMergeHead, q.Whole) :
    FinInv C ⟨s', wrote, c.read, if c.st.tsock.flags.eof = false ∧ s'.tsock.flags.eof = true
      then some p.endSeq else c.finSeq⟩ := by
  cases h.stream with
  | ended f he =>
    have hsame := hu f he
    rw [if_neg (by rw [he.eof]; simp)]
    exact h.unmoved hsame wrote hh
  | flow hf =>
    cases ho hf with
    | flow k' new hf' hq hd hk =>
      have hput : Conn.put ⟨s', wrote, c.read, if c.st.tsock.flags.eof = false ∧
          s'.tsock.flags.eof = true then some p.endSeq else c.finSeq⟩ =
          c.put ++ rxqBytes new := by
        unfold Conn.put
        rw [hq, rxqBytes_append, List.append_assoc]
      obtain ⟨share, hi⟩ := hf'.inv
      obtain ⟨h1, h2⟩ := hd.builds h.builds rfl fun q hm =>
        hi.rxqAligned q (hq ▸ List.mem_append_right _ hm)
      refine ⟨hh, hput ▸ h1, .flow ?_⟩
      rw [hput, h2, ← hk]
      exact hf'
    | fin _ he hq hn =>
      have hput : ∀ fs, Conn.put ⟨s', wrote, c.read, fs⟩ = c.put := by
        intro fs
        unfold Conn.put
        rw [hq]
      rw [if_pos ⟨hf.eof, he.eof⟩]
      refine ⟨hh, hput _ ▸ h.builds, .ended _ he rfl ?_⟩
      rw [hput]
      exact hn

/-! The steps of a connection. -/

/-- What the surroundings guarantee of an event: the packet it processes is in no
queue yet and carries bytes of the peer's stream. -/
structure Arriving (C : SegPred Byte) (cfg : TcpCfg) (c : Conn) (e : ConnEv) : Prop where
  enabled : e.Enabled c.st
  apart : ∀ p ∈ processed cfg c.st e, c.st.rxSt.held p.id = 0
  content : ∀ p ∈ processed cfg c.st e, p.len ≠ 0 → c.st.tsock.state.phase = .flowing →
    validateSeq c.st.tsock.rcv p = none →
    Arrives C c.put.length c.st.tsock.rcv { p with toRead := p.segs }

/-- A FIN that is taken is empty, follows the last byte and, in SYN_RCVD, has no
old ACK. -/
def FinsInOrder (cfg : TcpCfg) (c : Conn) (e : ConnEv) : Prop :=
  ∀ p ∈ processed cfg c.st e, FinTaken c.st p → FinInOrder c.st p

theorem FinTaken.of_toRead {l : List (List Byte)} (h : FinTaken s { p with toRead := l }) :
    FinTaken s p := by
  obtain ⟨h1, h2, h3, ⟨h4, h5⟩, h6, h7, h8, h9⟩ := h
  rw [parseTcpOpts_toRead] at h5
  exact ⟨h1, h2, h3, ⟨h4, h5⟩, h6, h7, h8, h9⟩

theorem Arriving.process (ha : Arriving C cfg c e) (hf : FinsInOrder cfg c e)
    (he : processed cfg c.st e = some p) (hw : p.Whole) :
    (Flow C c.put.length c.st → Outcome C c.put.length c.st p (tcpRcvProcess cfg c.st p)) ∧
      ∀ f, Ended f c.st → Unmoved c.st (tcpRcvProcess cfg c.st p) := by
  have htail := Unmoved.tcpRcvProcess cfg c.st p
  refine ⟨fun hflow => ?_, fun f hend => (hend.tcpRcvPkt cfg).unmoved.trans htail⟩
  have ho := hflow.tcpRcvPkt cfg (p := { p with toRead := p.segs })
    ⟨hw.aligned, ha.content p he, ha.apart p he, fun hft =>
      have hord := hf p he hft.of_toRead
      ⟨hord.empty, hord.seq, hord.ack⟩⟩
  exact Outcome.after (ho.still (p := p) rfl rfl rfl (.refl _)) htail

theorem finBy_same (h : (sockStep cfg c.st e).tsock.flags.eof = c.st.tsock.flags.eof) :
    finBy cfg c e = c.finSeq := by
  unfold finBy
  rw [if_neg]
  rintro ⟨h1, h2⟩
  rw [h, h1] at h2
  cases h2

theorem finBy_processed (he : processed cfg c.st e = some p) :
    finBy cfg c e = if c.st.tsock.flags.eof = false ∧
      (sockStep cfg c.st e).tsock.flags.eof = true then some p.endSeq else c.finSeq := by
  unfold finBy
  rw [he]
  rfl

theorem FinInv.not_listen (h : FinInv C c) : c.st.tsock.state ≠ .listen := by
  intro hl
  cases h.stream with
  | flow hf => exact hf.phase.2 (by rw [hl]; rfl)
  | ended f he =>
    have hp := he.phase
    rw [hl] at hp
    rcases hp with hp | hp <;> cases hp

theorem tcpRcvProcess_head (cfg : TcpCfg) (s : St) (p : Packet) :
    (tcpRcvProcess cfg s p).tsock.rxMergeHead = none := rfl

theorem inputHead_head (cfg : TcpCfg) (s : St) : (inputHead cfg s).tsock.rxMergeHead = none := by
  unfold inputHead
  split
  · exact tcpRcvProcess_head ..
  · next hn => exact hn

theorem FinInv.packet (h : FinInv C c) (hfr : c.st.tsock.freed = false)
    (ha : Arriving C cfg c (.packet p)) (hf : FinsInOrder cfg c (.packet p)) :
    FinInv C (connStep cfg c (.packet p)) := by
  have hsingle : (parseTsOptFast p).Single := Packet.Single.parsed ha.enabled
  have hlisten := h.not_listen
  have hproc : ∀ q, processed cfg c.st (.packet p) = some q → _ := fun q hq => ha.process hf hq
  rw [connStep, if_neg (by simp [hfr])]
  simp only [readBy, List.append_nil]
  have hstep : sockStep cfg c.st (.packet p) = tcpMerge cfg c.st (parseTsOptFast p) := by
    rw [sockStep, inputPacket, if_neg hlisten]
  have hwait : ∀ s' x, Unmoved c.st s' → sockStep cfg c.st (.packet p) =
      { s' with tsock := { s'.tsock with rxMergeHead := some x } } → x.Whole →
      FinInv C ⟨sockStep cfg c.st (.packet p), c.wrote ++ writtenBy cfg c.st (.packet p), c.read,
        finBy cfg c (.packet p)⟩ := by
    intro s' x hu hs hx
    have hu' := hu.trans (.setHead s' (some x))
    rw [finBy_same (by rw [hs]; exact hu'.eof), hs]
    refine h.unmoved hu' _ ?_
    rintro q ⟨⟩
    exact hx
  cases hhead : c.st.tsock.rxMergeHead with
  | none =>
    refine hwait c.st _ (RcvStill.refl _).unmoved ?_ hsingle.whole
    rw [hstep, tcpMerge, hhead]
  | some head =>
    have hwhole := h.whole head hhead
    by_cases hm : head.seq = c.st.tsock.rcv.rcvNxt ∧ tcpCanMerge cfg head (parseTsOptFast p) = true
    · refine hwait _ _ (RcvStill.tsockSetAckFlag cfg c.st true).unmoved ?_
        (hwhole.chain hsingle hm.2)
      rw [hstep, tcpMerge, hhead]
      dsimp only
      rw [if_pos hm]
    · have hp : processed cfg c.st (.packet p) = some head := by
        rw [processed, if_neg hlisten, hhead, Option.filter_some, if_pos]
        exact decide_eq_true hm
      obtain ⟨h1, h2⟩ := hproc head hp hwhole
      have hs : sockStep cfg c.st (.packet p) = { tcpRcvProcess cfg c.st head with
          tsock := { (tcpRcvProcess cfg c.st head).tsock with
            rxMergeHead := some (parseTsOptFast p) } } := by
        rw [hstep, tcpMerge, hhead]
        dsimp only
        rw [if_neg hm]
      have hset := Unmoved.setHead (tcpRcvProcess cfg c.st head) (some (parseTsOptFast p))
      rw [finBy_processed hp, hs]
      refine h.outcome _ (fun hfl => (h1 hfl).after hset) (fun f he => (h2 f he).trans hset) ?_
      rintro q ⟨⟩
      exact hsingle.whole

theorem FinInv.burstEnd (h : FinInv C c) (hfr : c.st.tsock.freed = false)
    (ha : Arriving C cfg c .burstEnd) (hf : FinsInOrder cfg c .burstEnd) :
    (connStep cfg c .burstEnd).st.tsock.freed = true ∨ FinInv C (connStep cfg c .burstEnd) := by
  rw [connStep, if_neg (by simp [hfr])]
  simp only [readBy, List.append_nil]
  have hs : sockStep cfg c.st .burstEnd = inputPut (inputAck cfg (inputHead cfg c.st)) := rfl
  have hput : ∀ s : St, (inputPut s).tsock.freed = true ∨ inputPut s = s := by
    intro s
    unfold inputPut
    split
    · exact .inl (tsockFree_freed _)
    · exact .inr rfl
  rcases hput (inputAck cfg (inputHead cfg c.st)) with hp | hp
  · exact .inl (by rw [hs]; exact hp)
  rw [hp] at hs
  refine .inr ?_
  have hst := RcvStill.inputAck cfg (inputHead cfg c.st)
  cases hhead : c.st.tsock.rxMergeHead with
  | none =>
    have hin : inputHead cfg c.st = c.st := by rw [inputHead, hhead]
    rw [hin] at hs hst
    rw [finBy_same (by rw [hs]; exact hst.keeps.eof), hs]
    refine h.unmoved hst.unmoved _ ?_
    rw [hst.head]
    exact h.whole
  | some head =>
    have hin : inputHead cfg c.st = tcpRcvProcess cfg c.st head := by rw [inputHead, hhead]
    rw [hin] at hs hst
    have hpr : processed cfg c.st .burstEnd = some head := hhead
    obtain ⟨h1, h2⟩ := ha.process hf hpr (h.whole head hhead)
    rw [finBy_processed hpr, hs]
    refine h.outcome _ (fun hfl => (h1 hfl).after hst.unmoved)
      (fun f he => (h2 f he).trans hst.unmoved) ?_
    rw [hst.head, tcpRcvProcess_head]
    rintro q ⟨⟩

theorem tsockZreadv_front (s : St) (n : Nat) (ha : ∀ q ∈ s.tsock.rcv.rxq, q.Aligned) :
    rxqBytes s.tsock.rcv.rxq = readBy s (.read n) ++ rxqBytes (tsockZreadv s n).2.tsock.rcv.rxq ∧
      ∀ q ∈ (tsockZreadv s n).2.tsock.rcv.rxq, q.Aligned := by
  obtain ⟨hb, hal, -⟩ := readLoop_bytes s.tsock.rcv.rxq n ha
  rw [readBy]
  generalize hr : tsockZreadv s n = r
  unfold tsockZreadv at hr
  split at hr
  · subst hr
    exact ⟨rfl, ha⟩
  dsimp only at hr
  split at hr
  · subst hr
    refine ⟨?_, ha⟩
    split
    · next bufs heq =>
      split at heq <;> cases heq
      rfl
    · rfl
  · split at hr
    · subst hr
      exact ⟨hb, hal⟩
    · subst hr
      exact ⟨hb, hal⟩

theorem tsockZreadv_frame (s : St) (n : Nat) :
    (tsockZreadv s n).2.tsock.rcv = { s.tsock.rcv with
        rxq := (tsockZreadv s n).2.tsock.rcv.rxq
        rcvWnd := (tsockZreadv s n).2.tsock.rcv.rcvWnd } ∧
      (tsockZreadv s n).2.tsock.state = s.tsock.state ∧
      (tsockZreadv s n).2.tsock.flags.eof = s.tsock.flags.eof ∧
      (tsockZreadv s n).2.tsock.rxMergeHead = s.tsock.rxMergeHead := by
  unfold tsockZreadv
  split
  · exact ⟨rfl, rfl, rfl, rfl⟩
  dsimp only
  split
  · exact ⟨rfl, rfl, rfl, rfl⟩
  · split <;> exact ⟨rfl, rfl, rfl, rfl⟩

theorem FinInv.reads (h : FinInv C c) (hfr : c.st.tsock.freed = false) (n : Nat) :
    FinInv C (connStep cfg c (.read n)) := by
  obtain ⟨hbytes, hal⟩ := tsockZreadv_front c.st n h.stream.aligned
  obtain ⟨hrcv, hst, heof, hhead⟩ := tsockZreadv_frame c.st n
  rw [connStep, if_neg (by simp [hfr]), finBy_same (e := .read n) heof]
  have hput : ∀ w fs, Conn.put ⟨(tsockZreadv c.st n).2, w, c.read ++ readBy c.st (.read n), fs⟩ =
      c.put := by
    intro w fs
    unfold Conn.put
    rw [hbytes, List.append_assoc]
  have hnxt : (tsockZreadv c.st n).2.tsock.rcv.rcvNxt = c.st.tsock.rcv.rcvNxt := by rw [hrcv]
  have hisn : (tsockZreadv c.st n).2.tsock.rcv.rcvIsn = c.st.tsock.rcv.rcvIsn := by rw [hrcv]
  refine ⟨?_, hput _ _ ▸ h.builds, ?_⟩
  · intro q hq
    exact h.whole q (hhead ▸ hq)
  cases h.stream with
  | flow hf =>
    refine .flow ?_
    change Flow C (Conn.put ⟨(tsockZreadv c.st n).2, _, _, _⟩).length (tsockZreadv c.st n).2
    rw [hput]
    obtain ⟨share, hi⟩ := hf.inv
    refine ⟨heof.trans hf.eof, by rw [hst]; exact hf.phase, ⟨share, (tsockZreadv_spec c.st n hi).1⟩,
      ?_, ?_⟩
    · rw [hst, hnxt, hisn]
      exact hf.nxt
    · rw [hst, tsockZreadv_ooo]
      exact hf.fresh
  | ended f he hf hn =>
    refine .ended f ⟨heof.trans he.eof, by rw [sockStep, hst]; exact he.phase, hal,
      hnxt.trans he.nxt⟩ hf ?_
    change f = (tsockZreadv c.st n).2.tsock.rcv.rcvIsn + 1 +
      BitVec.ofNat 32 (Conn.put ⟨(tsockZreadv c.st n).2, _, _, _⟩).length
    rw [hput, hisn]
    exact hn

theorem FinInv.stillOrFreed (h : FinInv C c) (hfr : c.st.tsock.freed = false)
    (hr : readBy c.st e = []) (hs : StillOrFreed c.st (sockStep cfg c.st e)) :
    (connStep cfg c e).st.tsock.freed = true ∨ FinInv C (connStep cfg c e) := by
  rw [connStep, if_neg (by simp [hfr]), hr, List.append_nil]
  refine hs.imp (fun hf => hf.freed) fun hst => ?_
  rw [finBy_same hst.keeps.eof]
  refine h.unmoved hst.unmoved _ ?_
  rw [hst.head]
  exact h.whole

theorem connStep_fin (cfg : TcpCfg) (c : Conn) (e : ConnEv) (ha : Arriving C cfg c e)
    (hf : FinsInOrder cfg c e) (h : c.st.tsock.freed = true ∨ FinInv C c) :
    (connStep cfg c e).st.tsock.freed = true ∨ FinInv C (connStep cfg c e) := by
  cases hfr : c.st.tsock.freed with
  | true =>
    rw [connStep, if_pos hfr]
    exact .inl hfr
  | false =>
    have hinv : FinInv C c := h.resolve_left (by simp [hfr])
    have hun : ∀ s', Unmoved c.st s' → sockStep cfg c.st e = s' → readBy c.st e = [] →
        s'.tsock.rxMergeHead = c.st.tsock.rxMergeHead → FinInv C (connStep cfg c e) := by
      intro s' hu hs hr hh
      rw [connStep, if_neg (by simp [hfr]), hr, List.append_nil,
        finBy_same (by rw [hs]; exact hu.eof), hs]
      refine hinv.unmoved hu _ ?_
      rw [hh]
      exact hinv.whole
    cases e with
    | packet p => exact .inr (hinv.packet hfr ha hf)
    | burstEnd => exact hinv.burstEnd hfr ha hf
    | write iov =>
      exact hinv.stillOrFreed hfr rfl (WriteFrame.tsockZwritev cfg c.st iov).frame.still.or
    | read n => exact .inr (hinv.reads hfr n)
    | dropOoo => exact .inr (hun _ (.tsockDropOooMbufs c.st) rfl rfl rfl)
    | close => exact hinv.stillOrFreed hfr rfl (RcvStill.tpaClose c.st).or
    | output => exact hinv.stillOrFreed hfr rfl (.outputTurn cfg c.st)
    | delayedAck => exact hinv.stillOrFreed hfr rfl (RcvStill.delayedAckTurn cfg c.st).or
    | timer k => exact hinv.stillOrFreed hfr rfl (.tcpTimeout cfg c.st k)
    | neighReady => exact hinv.stillOrFreed hfr rfl (RcvStill.flushTcpPacket c.st).or
    | env w => exact .inr (hun _ (.env c.st w) rfl rfl rfl)

theorem tsockInit_fresh (cfg : TcpCfg) (w : Worker) (sid : Nat) (isIpv6 : Bool) :
    RcvFresh w.rx.nrOooMbuf ⟨w, tsockInit cfg sid isIpv6⟩ :=
  ⟨rfl, rfl, rfl, cfg.rcvQueue_ok, rfl, rfl, rfl⟩

theorem Opened.flow (h : Opened cfg s) : Flow C 0 s := by
  cases h with
  | connect w sid isIpv6 _ =>
    have hi : RcvInv C w.rx.nrOooMbuf 0 (St.rxSt ⟨w, tsockInit cfg sid isIpv6⟩) :=
      (tsockInit_fresh cfg w sid isIpv6).inv
    refine ⟨rfl, ⟨?_, ?_⟩, ⟨_, hi⟩, ?_, fun _ => ⟨rfl, rfl⟩⟩
    · rintro ⟨⟩
    · rintro ⟨⟩
    · rintro ⟨⟩
  | accept w sid isIpv6 p _ =>
    refine Flow.still ?_ (SndFrame.xmitSyn cfg _).still
    obtain ⟨b, isn, mss, wscale, nego, ht⟩ :=
      passiveTsockInit_tsock cfg ⟨w, tsockInit cfg sid isIpv6⟩ p
    have hrx := passiveTsockInit_rx cfg ⟨w, tsockInit cfg sid isIpv6⟩ p
    generalize (passiveTsockInit cfg ⟨w, tsockInit cfg sid isIpv6⟩ p).1 = s at ht hrx
    have hfresh : RcvFresh w.rx.nrOooMbuf s := by
      constructor
      all_goals first | rw [ht] | rw [hrx]
      all_goals first | rfl | exact cfg.rcvQueue_ok
    refine ⟨by rw [ht]; rfl, by rw [ht]; exact ⟨by rintro ⟨⟩, by rintro ⟨⟩⟩, ⟨_, hfresh.inv⟩,
      fun _ => ?_, fun _ => ⟨rfl, hfresh.ooo⟩⟩
    rw [ht]
    simp

theorem Opened.finInv (h : Opened cfg s) : FinInv C (Conn.start s) := by
  have hf : Flow C 0 s := h.flow
  have hq : s.tsock.rcv.rxq = [] ∧ s.tsock.rxMergeHead = none := by
    cases h with
    | connect w sid isIpv6 => exact ⟨rfl, rfl⟩
    | accept w sid isIpv6 p =>
      have hs := (SndFrame.xmitSyn cfg
        (passiveTsockInit cfg ⟨w, tsockInit cfg sid isIpv6⟩ p).1).still
      obtain ⟨b, isn, mss, wscale, nego, ht⟩ :=
        passiveTsockInit_tsock cfg ⟨w, tsockInit cfg sid isIpv6⟩ p
      rw [hs.keeps.rxq, hs.head, ht]
      exact ⟨rfl, rfl⟩
  have hput : (Conn.start s).put = [] := by
    unfold Conn.put Conn.start
    rw [hq.1]
    rfl
  refine ⟨?_, by rw [hput]; exact .nil, .flow (by rw [hput]; exact hf)⟩
  intro q hm
  rw [show (Conn.start s).st.tsock.rxMergeHead = none from hq.2] at hm
  cases hm

/-- The law of the FIN: EOF is set, or the socket left its data states because of
a FIN, only when every byte in front of the FIN was put into the rxq; and then
`rcv_nxt`, which every segment acknowledges, is behind the FIN. -/
def FinLaw (C : SegPred Byte) (cfg : TcpCfg) (c : Conn) : Prop :=
  c.st.tsock.freed = false → c.st.tsock.flags.eof = true ∨ c.st.tsock.state.phase = .ended →
    ∃ f, c.finSeq = some f ∧ f = c.st.tsock.rcv.rcvIsn + 1 + BitVec.ofNat 32 c.put.length ∧
      C.Builds c.put ∧ c.st.tsock.rcv.rcvNxt = f + 1 ∧
      ∀ seq flags payload again, flags.ack = true →
        (buildPacket cfg c.st seq flags payload again).ack = f + 1

theorem FinInv.law (h : FinInv C c) : FinLaw C cfg c := by
  intro _ hend
  cases h.stream with
  | flow hf =>
    rcases hend with he | he
    · rw [hf.eof] at he
      cases he
    · exact absurd he hf.phase.1
  | ended f he hfin hn =>
    refine ⟨f, hfin, hn, h.builds, he.nxt, fun seq flags payload again hack => ?_⟩
    rw [buildPacket]
    rw [if_pos hack, he.nxt]

instance (w : List Byte) (k : Nat) (r : Rcv) (p : Packet) : Decidable (Arrives (.of w) k r p) :=
  inferInstanceAs (Decidable ((SegPred.of w).holds _ _))

instance (s : St) (p : Packet) : Decidable (FinInOrder s p) :=
  decidable_of_iff (p.len = 0 ∧ p.seq = s.tsock.rcv.rcvNxt ∧
    (s.tsock.state = .synRcvd → ¬ seqLt p.ack s.tsock.snd.sndUna))
    ⟨fun h => ⟨h.1, h.2.1, h.2.2⟩, fun h => ⟨h.empty, h.seq, h.ack⟩⟩

theorem FinsInOrder.of_fin (h : ∀ p ∈ processed cfg c.st e, p.flags.fin = true →
    FinInOrder c.st p) :
    FinsInOrder cfg c e := fun p hp ht => h p hp ht.fin

def answered : St :=
  xmitSyn {} (passiveTsockInit {} ⟨Worker.boot 0 {}, tsockInit {} 0 false⟩
    (.bare 0 100 0 0 { syn := true })).1

theorem answered_opened : Opened {} answered := .accept _ _ _ _ ⟨by decide, by decide⟩

def handshake : List ConnEv :=
  [.packet (.bare 1 101 1 0 { ack := true }), .burstEnd]

def byteThenFin : List ConnEv :=
  [.packet (.oneByte 2 101 1 0 { ack := true } 7),
    .packet (.bare 3 102 1 0 { ack := true, fin := true }), .burstEnd]

/-- The second byte of the stream with a FIN; the first one is missing. -/
def finWithGap : List ConnEv :=
  [.packet (.oneByte 2 102 1 0 { ack := true, fin := true } 8), .burstEnd]

theorem Packet.parsed_single (id : PktId) (seq ack : U32) (wnd : U16) (flags : TcpFlags)
    (opts payload : List Byte) (h : payload.length < 2 ^ 16) :
    (Packet.parsed id seq ack wnd flags opts payload h).Single := ⟨payload, rfl, rfl⟩

/-- Over every run whose FINs are empty and in order, the law of the FIN holds. -/
theorem fin_run (cfg : TcpCfg) (s₀ : St) (c : Conn) (ho : Opened cfg s₀)
    (hr : Reach (connStep cfg) (fun c e => Arriving C cfg c e ∧ FinsInOrder cfg c e)
      (Conn.start s₀) c) : FinLaw C cfg c := by
  have h : c.st.tsock.freed = true ∨ FinInv C c :=
    hr.invariant (I := fun c => c.st.tsock.freed = true ∨ FinInv C c)
      (.inr (Opened.finInv ho)) fun c e h ok => connStep_fin cfg c e ok.1 ok.2 h
  rcases h with hf | h
  · intro hn
    rw [hf] at hn
    cases hn
  · exact h.law

theorem fin_run_byteThenFin :
    Opened {} answered ∧
      FinLaw (.of [7]) {} (exec (connStep {}) (Conn.start answered) (handshake ++ byteThenFin)) ∧
      (exec (connStep {}) (Conn.start answered) (handshake ++ byteThenFin)).st.tsock.flags.eof =
        true := by
  refine ⟨answered_opened, fin_run {} answered _ answered_opened (Reach.refl.exec ?_),
    by decide +kernel⟩
  refine ⟨⟨⟨Packet.parsed_single .., ?_, ?_⟩, .of_fin ?_⟩, ⟨⟨trivial, ?_, ?_⟩, .of_fin ?_⟩,
    ⟨⟨Packet.parsed_single .., ?_, ?_⟩, .of_fin ?_⟩,
    ⟨⟨Packet.parsed_single .., ?_, ?_⟩, .of_fin ?_⟩, ⟨⟨trivial, ?_, ?_⟩, .of_fin ?_⟩, trivial⟩
  all_goals decide +kernel

/-- A FIN with payload behind a gap: EOF is set although the byte in front of it
never came, and `rcv_nxt` stays where it was. -/
theorem finWithGap_sets_eof :
    Opened {} answered ∧
      Admitted (connStep {}) (Arriving (.of [7, 8]) {}) (Conn.start answered)
        (handshake ++ finWithGap) ∧
      ¬ FinLaw (.of [7, 8]) {}
        (exec (connStep {}) (Conn.start answered) (handshake ++ finWithGap)) := by
  refine ⟨answered_opened, ?_, fun hlaw => ?_⟩
  · refine ⟨⟨Packet.parsed_single .., ?_, ?_⟩, ⟨trivial, ?_, ?_⟩,
      ⟨Packet.parsed_single .., ?_, ?_⟩, ⟨trivial, ?_, ?_⟩, trivial⟩
    all_goals decide +kernel
  · obtain ⟨f, hf, -, -, hn, -⟩ := hlaw (by decide +kernel) (.inl (by decide +kernel))
    have hseq : (exec (connStep {}) (Conn.start answered) (handshake ++ finWithGap)).finSeq =
      some 103 := by decide +kernel
    have hnxt : (exec (connStep {}) (Conn.start answered)
      (handshake ++ finWithGap)).st.tsock.rcv.rcvNxt = 101 := by decide +kernel
    cases hf
    revert hn
    decide

/-- What the application has read of the peer's stream `w`, and what still waits for it. -/
structure ReadsInOrder (w : List Byte) (c : Conn) : Prop where
  read : c.read <+: w
  put : c.st.tsock.freed = false → c.put <+: w
  nxt : c.st.tsock.freed = false → c.st.tsock.state.phase = .flowing →
    c.st.tsock.rcv.rcvNxt = c.st.tsock.rcv.rcvIsn + 1 + BitVec.ofNat 32 c.put.length

theorem connStep_reads {w : List Byte}
    (h : c.read <+: w ∧ (c.st.tsock.freed = true ∨ FinInv (.of w) c))
    (ha : Arriving (.of w) cfg c e) (hf : FinsInOrder cfg c e) : (connStep cfg c e).read <+: w := by
  cases hfr : c.st.tsock.freed with
  | true =>
    rw [connStep, if_pos hfr]
    exact h.1
  | false =>
    have hinv := h.2.resolve_left (by simp [hfr])
    cases e with
    | read n => exact (List.prefix_append ..).trans (hinv.reads hfr n).builds.front
    | _ =>
      rw [connStep, if_neg (by simp [hfr])]
      exact (List.append_nil c.read).symm ▸ h.1

/-- Whatever a network that alters no bytes does to the segments of the peer's stream `w`, and
whatever else happens to the connection, the application reads `w` in order, without a gap or a
repetition. -/
theorem reads_follow_stream (cfg : TcpCfg) (w : List Byte) (s₀ : St) (c : Conn) (ho : Opened cfg s₀)
    (hr : Reach (connStep cfg) (fun c e => Arriving (.of w) cfg c e ∧ FinsInOrder cfg c e)
      (Conn.start s₀) c) : ReadsInOrder w c := by
  have h : c.read <+: w ∧ (c.st.tsock.freed = true ∨ FinInv (.of w) c) :=
    hr.invariant (I := fun c => c.read <+: w ∧ (c.st.tsock.freed = true ∨ FinInv (.of w) c))
      ⟨List.nil_prefix, .inr ho.finInv⟩
      fun c e h ok => ⟨connStep_reads h ok.1 ok.2, connStep_fin cfg c e ok.1 ok.2 h.2⟩
  refine ⟨h.1, fun hfr => ?_, fun hfr hph => ?_⟩
  · exact (h.2.resolve_left (by simp [hfr])).builds.front
  · cases (h.2.resolve_left (by simp [hfr])).stream with
    | flow hf => exact hf.nxt hph
    | ended f he =>
      rcases he.phase with hp | hp
      · rw [hp] at hph
        cases hph
      · rw [hp] at hph
        cases hph

theorem reads_follow_stream_firstByte :
    ReadsInOrder [7, 8] (exec (connStep {}) (Conn.start answered) (handshake ++
      [.packet (.oneByte 2 101 1 0 { ack := true } 7), .burstEnd, .read 1])) := by
  refine reads_follow_stream {} [7, 8] answered _ answered_opened (Reach.refl.exec ?_)
  refine ⟨⟨⟨Packet.parsed_single .., ?_, ?_⟩, .of_fin ?_⟩, ⟨⟨trivial, ?_, ?_⟩, .of_fin ?_⟩,
    ⟨⟨Packet.parsed_single .., ?_, ?_⟩, .of_fin ?_⟩, ⟨⟨trivial, ?_, ?_⟩, .of_fin ?_⟩,
    ⟨⟨trivial, ?_, ?_⟩, .of_fin ?_⟩, trivial⟩
  all_goals decide +kernel

end LibTpa
