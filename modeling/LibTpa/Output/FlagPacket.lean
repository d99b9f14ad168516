/- LibTpa/Output/FlagPacket
   digest: When a segment without payload leaves, and what a failed attempt leaves behind. -/

import LibTpa.Output.Frame

set_option autoImplicit false

namespace LibTpa

variable {cfg : TcpCfg} {s s' : St} {seq : U32}

/-- There is room where a flag packet is handed to: in the neighbour queue while the
address of the peer is unresolved, in the dev txq otherwise. -/
def FlagRoom (s : St) : Prop :=
  (s.tsock.flags.missingArp = true → s.worker.oracles.neighOk.headD false = true) ∧
    (s.tsock.flags.missingArp = false → s.worker.nrPkt < txqBufSize)

instance FlagRoom.decidable (s : St) : Decidable (FlagRoom s) :=
  inferInstanceAs (Decidable (_ ∧ _))

/-- `xmit_flag_packet_with_seq` gets its packet out. -/
def FlagGoes (s : St) : Prop :=
  s.tsock.netHdrLen ≠ 0 ∧ s.worker.oracles.allocOk.headD false = true ∧ FlagRoom s

instance FlagGoes.decidable (s : St) : Decidable (FlagGoes s) :=
  inferInstanceAs (Decidable (_ ∧ _))

def TcpFlags.unsent (f : TcpFlags) : TcpFlags :=
  { f with ack := false, syn := false, fin := false, rst := false }

def flagPacket (cfg : TcpCfg) (s : St) (seq : U32) : TxPacket :=
  buildPacket cfg (packetAlloc s).2 seq s.tsock.flags.tcp [] false

/-- What a failed attempt with a packet in hand leaves. -/
structure FlagRefused (s s' : St) : Prop where
  emitted : s'.tsock.emitted = s.tsock.emitted
  hdr : s'.tsock.netHdrLen = s.tsock.netHdrLen
  tcp : s'.tsock.flags.tcp = s.tsock.flags.tcp
  now : s'.tsock.flags.ackNow = (s.tsock.flags.ackNow && !s.tsock.flags.tcp.ack)
  arp : s'.tsock.flags.missingArp = false
  alloc : s'.worker.oracles.allocOk = s.worker.oracles.allocOk.tail
  room : s'.worker.nrPkt = s.worker.nrPkt

inductive FlagSend (cfg : TcpCfg) (s : St) (seq : U32) : St → Prop
  | headless (h : s.tsock.netHdrLen = 0) :
      FlagSend cfg s seq (s.setFlags { s.tsock.flags with tcp := {} })
  | dry (h : s.tsock.netHdrLen ≠ 0) (ha : s.worker.oracles.allocOk.headD false = false) :
      FlagSend cfg s seq (packetAlloc s).2
  | refused (s' : St) (h : s.tsock.netHdrLen ≠ 0) (ha : s.worker.oracles.allocOk.headD false = true)
      (hr : ¬ FlagRoom s) (hs : FlagRefused s s') : FlagSend cfg s seq s'
  | sent (s' : St) (h : FlagGoes s)
      (he : s'.tsock.emitted = s.tsock.emitted ++ [flagPacket cfg s seq])
      (ht : s'.tsock.flags.tcp = s.tsock.flags.tcp.unsent) : FlagSend cfg s seq s'

private theorem packetAlloc_fst (s : St) :
    (packetAlloc s).1 = s.worker.oracles.allocOk.headD false := by
  unfold packetAlloc
  split
  · next h => rw [h]; rfl
  · next h => rw [h]; rfl

theorem packetAlloc_tsock (s : St) : (packetAlloc s).2.tsock = s.tsock := by
  unfold packetAlloc
  split <;> rfl

theorem packetAlloc_worker (s : St) : (packetAlloc s).2.worker = { s.worker with
    oracles := { s.worker.oracles with allocOk := s.worker.oracles.allocOk.tail } } := by
  unfold packetAlloc
  split
  · next h =>
    have htail : s.worker.oracles.allocOk.tail = s.worker.oracles.allocOk := by rw [h]; rfl
    rw [htail]
  · next h =>
    rw [h]
    rfl

private theorem flagPacketSent_tcp (s : St) :
    (flagPacketSent s s.tsock.flags.tcp).tsock.flags.tcp = s.tsock.flags.tcp.unsent := by
  unfold flagPacketSent TcpFlags.unsent
  dsimp only [tsockUpdateLastSndPkt, St.setFlags, St.setNego]
  split
  · simp only [Bool.and_not_self]
  · next h => simp only [Bool.and_not_self, Bool.eq_false_iff.mpr h]

private inductive Handed (s : St) (pkt : TxPacket) : Option Code × St → Prop
  | taken (s' : St) (hr : FlagRoom s) (he : s'.tsock.emitted = s.tsock.emitted ++ [pkt])
      (ht : s'.tsock.flags.tcp = s.tsock.flags.tcp) : Handed s pkt (none, s')
  | refused (e : Code) (s' : St) (hr : ¬ FlagRoom s) (hs : s'.tsock =
        { s.tsock with flags := { s.tsock.flags with missingArp := false } })
      (ha : s'.worker.oracles.allocOk = s.worker.oracles.allocOk)
      (hn : s'.worker.nrPkt = s.worker.nrPkt) : Handed s pkt (some e, s')

private theorem flagPacketEnqueue_handed (s : St) (pkt : TxPacket) :
    Handed s pkt (flagPacketEnqueue s pkt) := by
  unfold flagPacketEnqueue
  split
  · next harp =>
    unfold neighWaitEnqueue
    dsimp only
    split
    · next h =>
      refine .taken _ ⟨fun _ => h, fun hno => ?_⟩ rfl rfl
      rw [harp] at hno
      cases hno
    · next h => exact .refused _ _ (fun hr => h (hr.1 harp)) rfl rfl rfl
  · next harp =>
    have hno : s.tsock.flags.missingArp = false := Bool.eq_false_iff.mpr harp
    unfold devPortTxqEnqueue
    split
    · next h =>
      refine .refused _ _ (fun hr => absurd (hr.2 hno) (Nat.not_lt.mpr h)) ?_ rfl rfl
      rw [← hno]
    · next h =>
      exact .taken _ ⟨fun harp' => absurd harp' harp, fun _ => Nat.lt_of_not_le h⟩ rfl rfl

theorem xmitFlagPacketWithSeq_cases (cfg : TcpCfg) (s : St) (seq : U32) :
    FlagSend cfg s seq (xmitFlagPacketWithSeq cfg s seq).2 := by
  have hfst := packetAlloc_fst s
  have ht := packetAlloc_tsock s
  have hw := packetAlloc_worker s
  unfold xmitFlagPacketWithSeq
  split
  · next h => exact .headless h
  next hdr =>
  split
  · next s₁ halloc =>
    rw [halloc] at hfst
    have hs₁ : s₁ = (packetAlloc s).2 := by rw [halloc]
    dsimp only
    rw [hs₁]
    exact .dry hdr hfst.symm
  next s₁ halloc =>
  have hpkt : buildPacket cfg s₁ seq s₁.tsock.flags.tcp [] false = flagPacket cfg s seq := by
    rw [halloc] at ht
    rw [flagPacket, halloc, ht]
  rw [halloc] at hfst ht hw
  dsimp only at hfst ht hw
  have hhand := flagPacketEnqueue_handed (afterPrepend s₁ s₁.tsock.flags.tcp) (flagPacket cfg s seq)
  have htcp : (afterPrepend s₁ s₁.tsock.flags.tcp).tsock.flags.tcp = s.tsock.flags.tcp := by
    rw [← ht]
    unfold afterPrepend
    dsimp only
    split <;> rfl
  have hroom : FlagRoom (afterPrepend s₁ s₁.tsock.flags.tcp) ↔ FlagRoom s := by
    have harp : (afterPrepend s₁ s₁.tsock.flags.tcp).tsock.flags.missingArp =
        s.tsock.flags.missingArp := by
      rw [← ht]
      unfold afterPrepend
      dsimp only
      split <;> rfl
    have hworker : (afterPrepend s₁ s₁.tsock.flags.tcp).worker = s₁.worker := rfl
    rw [FlagRoom, FlagRoom, harp, hworker, hw]
  have hnow : (afterPrepend s₁ s₁.tsock.flags.tcp).tsock.flags.ackNow =
      (s.tsock.flags.ackNow && !s.tsock.flags.tcp.ack) := by
    rw [← ht]
    unfold afterPrepend
    dsimp only
    split
    · next h => rw [h, Bool.not_true, Bool.and_false]
    · next h => rw [Bool.eq_false_iff.mpr h, Bool.not_false, Bool.and_true]
  dsimp only [prependTcpHdr]
  rw [hpkt]
  generalize flagPacketEnqueue (afterPrepend s₁ s₁.tsock.flags.tcp) (flagPacket cfg s seq) = r
    at hhand
  cases hhand with
  | taken s' hr he hk =>
    refine .sent _ ⟨hdr, hfst.symm, hroom.mp hr⟩ ?_ ?_
    · have hplain : (flagPacketSent s' s₁.tsock.flags.tcp).tsock.emitted = s'.tsock.emitted := by
        unfold flagPacketSent
        dsimp only
        split <;> rfl
      dsimp only
      rw [hplain, he, ← ht]
      rfl
    · dsimp only
      rw [ht, ← htcp, ← hk, flagPacketSent_tcp]
  | refused e s' hr hs ha hn =>
    refine .refused s' hdr hfst.symm (fun h => hr (hroom.mpr h)) ?_
    constructor
    · rw [hs, ← ht]
      rfl
    · rw [hs, ← ht]
      rfl
    · rw [hs]
      exact htcp
    · rw [hs]
      exact hnow
    · rw [hs]
    · rw [ha]
      change s₁.worker.oracles.allocOk = _
      rw [hw]
    · rw [hn]
      change s₁.worker.nrPkt = _
      rw [hw]

theorem xmitFlagPacketWithSeq_emitted (cfg : TcpCfg) (s : St) (seq : U32) :
    (xmitFlagPacketWithSeq cfg s seq).2.tsock.emitted =
      s.tsock.emitted ++ (if FlagGoes s then [flagPacket cfg s seq] else []) := by
  have hcase := xmitFlagPacketWithSeq_cases cfg s seq
  generalize (xmitFlagPacketWithSeq cfg s seq).2 = s' at hcase
  cases hcase with
  | headless h =>
    rw [if_neg fun hg => hg.1 h, List.append_nil]
    rfl
  | dry h ha =>
    have hno : ¬ FlagGoes s := by
      intro hg
      rw [hg.2.1] at ha
      cases ha
    rw [if_neg hno, List.append_nil, packetAlloc_tsock]
  | refused _ h ha hr hs => rw [if_neg fun hg => hr hg.2.2, List.append_nil, hs.emitted]
  | sent _ h he => rw [if_pos h, he]

end LibTpa
