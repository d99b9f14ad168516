/- LibTpa/Snd/Frame
   digest: Transmission and acknowledgement leave the receive half and the state alone. -/

import LibTpa.Snd.Release
import LibTpa.Snd.Ack

set_option autoImplicit false

namespace LibTpa

theorem rteRdtsc_tsock (s : St) : (rteRdtsc s).2.tsock = s.tsock := by
  unfold rteRdtsc
  split <;> rfl

namespace TxFrame

variable {s s' : St}

theorem markRetrans (s : St) (c : XmitCtx) (a : XmitAcc) (d : DescId) :
    TxFrame s (markRetrans s c a d).1 := by
  unfold LibTpa.markRetrans
  split
  · exact .setDesc s d _ ⟨rfl, rfl, rfl, rfl⟩
  · exact .refl s

theorem descDone (s : St) (c : XmitCtx) (d : DescId) : TxFrame s (descDone s c d).1 := by
  have ht : (LibTpa.rteRdtsc s).2.worker.tx = s.worker.tx := by
    unfold LibTpa.rteRdtsc
    split <;> rfl
  unfold LibTpa.descDone
  dsimp only
  split
  · split
    · refine (TxFrame.rteRdtsc s).trans (.setDesc _ _ _ ?_)
      rw [St.desc, ht]
      exact ⟨rfl, rfl, rfl, rfl⟩
    · exact .setDesc s d _ ⟨rfl, rfl, rfl, rfl⟩
  · exact .setDesc s d _ ⟨rfl, rfl, rfl, rfl⟩

theorem attachLoop (cfg : TcpCfg) (n : Nat) : ∀ (s : St) (c : XmitCtx) (a : XmitAcc) (d : DescId),
    TxFrame s (attachLoop cfg n s c a d).1 := by
  induction n with
  | zero =>
    intro s c a d
    exact .refl s
  | succ n ih =>
    intro s c a d
    unfold LibTpa.attachLoop
    split
    swap
    · exact .refl s
    dsimp only
    have hm := TxFrame.markRetrans s c a d
    split
    · exact hm
    have halloc := hm.trans (.packetAlloc _)
    split
    · next s₁ h1 =>
      rw [h1] at halloc
      exact halloc
    next s₁ h1 =>
    rw [h1] at halloc
    have hf : ∀ b : Prop, [Decidable b] →
        TxFrame s (if b then { s₁ with worker := { s₁.worker with fault := true } } else s₁) := by
      intro b _
      split
      · exact halloc.trans (.fault s₁)
      · exact halloc
    split
    · split
      · exact (hf _).trans (.descDone ..)
      · split
        · exact (hf _).trans (.descDone ..)
        · exact ((hf _).trans (.descDone ..)).trans (ih ..)
    · split
      · exact hf _
      · exact (hf _).trans (ih ..)

theorem xmitAttached (cfg : TcpCfg) (s : St) (c : XmitCtx) (a : XmitAcc) :
    TxFrame s (xmitAttached cfg s c a).2.1 := by
  unfold LibTpa.xmitAttached
  split
  · exact .refl s
  · have h := (TxFrame.afterPrepend s tcpFlagAck).trans (.devPortTxqEnqueue _ _
      (buildPacket_announced cfg s (c.seq - a.size) tcpFlagAck a.payload a.retransmit) rfl)
    dsimp only [prependTcpHdr] at h ⊢
    split
    · next heq =>
      rw [heq] at h
      exact h
    · next heq =>
      rw [heq] at h
      exact h.trans (.clearTcp _)

theorem xmitOnePacket (cfg : TcpCfg) (s : St) (c : XmitCtx) :
    TxFrame s (xmitOnePacket cfg s c).2.1 := by
  unfold LibTpa.xmitOnePacket
  split
  · exact .refl s
  · have halloc := TxFrame.packetAlloc s
    split
    · next s₁ h1 =>
      rw [h1] at halloc
      exact halloc
    · next s₁ h1 =>
      rw [h1] at halloc
      exact (halloc.trans (.attachLoop ..)).trans (.xmitAttached ..)

theorem xmitLoop (cfg : TcpCfg) (n : Nat) : ∀ (s : St) (c : XmitCtx) (size : Nat),
    TxFrame s (xmitLoop cfg n s c size).1 := by
  induction n with
  | zero =>
    intro s c size
    exact .refl s
  | succ n ih =>
    intro s c size
    unfold LibTpa.xmitLoop
    have h := TxFrame.xmitOnePacket cfg s c
    split
    · split
      · next heq =>
        rw [heq] at h
        exact h
      · next heq =>
        rw [heq] at h
        exact h.trans (ih ..)
    · exact .refl s

theorem tsockRearmTimerRto (s : St) : TxFrame s (tsockRearmTimerRto s) := .setTimers ..

theorem dataSent (s : St) : TxFrame s (dataSent s) := by
  unfold LibTpa.dataSent
  dsimp only
  split
  · exact (((TxFrame.tsockRearmTimerRto s).trans (.stampAck ..)).trans (.setCc ..)).trans
      (.tsockUpdateLastSndPkt _)
  · exact ((TxFrame.stampAck ..).trans (.setCc ..)).trans (.tsockUpdateLastSndPkt _)

theorem doTcpXmitData (cfg : TcpCfg) (s : St) (c : XmitCtx) :
    TxFrame s (doTcpXmitData cfg s c).1 := by
  unfold LibTpa.doTcpXmitData
  dsimp only
  split
  · exact (TxFrame.xmitLoop ..).trans (.dataSent _)
  · exact .xmitLoop ..

theorem doTcpXmitData_all (cfg : TcpCfg) (s : St) (c : XmitCtx) (h : c.peek s = none) :
    LibTpa.doTcpXmitData cfg s c = (s, c, 0) := by
  have hone : LibTpa.xmitOnePacket cfg s c = (.stop none, s, c) := by
    unfold LibTpa.xmitOnePacket
    rw [skipSacked, h]
  have hloop : ∀ n, LibTpa.xmitLoop cfg n s c 0 = (s, c, 0) := by
    intro n
    cases n with
    | zero => rfl
    | succ n =>
      unfold LibTpa.xmitLoop
      rw [hone]
      dsimp only
      split <;> rfl
  unfold LibTpa.doTcpXmitData
  rw [hloop]
  rfl

theorem doTcpRetrans (cfg : TcpCfg) (s : St) (budget : Int) :
    TxFrame s (doTcpRetrans cfg s budget) :=
  (TxFrame.doTcpXmitData ..).trans (.setRetrans ..)

theorem regulateRetrans (s : St) : TxFrame s (regulateRetrans s) := by
  unfold LibTpa.regulateRetrans
  dsimp only
  split
  · exact .setRetrans ..
  · exact .refl s

theorem tcpRetrans (cfg : TcpCfg) (s : St) : TxFrame s (tcpRetrans cfg s) :=
  (TxFrame.regulateRetrans s).trans (.doTcpRetrans ..)

theorem tcpFastRetrans (cfg : TcpCfg) (s : St) (budget : U32) :
    TxFrame s (tcpFastRetrans cfg s budget) :=
  (TxFrame.regulateRetrans s).trans (.doTcpRetrans ..)

end TxFrame

theorem OutFrame.tcpZeroWndProbe (cfg : TcpCfg) (s : St) : OutFrame s (tcpZeroWndProbe cfg s) := by
  unfold LibTpa.tcpZeroWndProbe
  dsimp only
  split
  · exact (TxFrame.refl s).toOutFrame
  · exact ((Quiet.setTcp s _).trans (.xmitFlagPacketWithSeq cfg _ _)).outFrame.trans
      (TxFrame.setCc ..).toOutFrame

theorem TxFrame.tcpXmitData (cfg : TcpCfg) (s : St) (hw : minWnd s.tsock.cc ≠ 0) :
    TxFrame s (tcpXmitData cfg s) := by
  unfold LibTpa.tcpXmitData
  rw [if_neg hw]
  have h := TxFrame.doTcpXmitData cfg s (xmitDataCtx s.tsock)
  dsimp only
  by_cases hall : s.tsock.snd.txq.nxt = s.tsock.snd.txq.write
  · have hp : (xmitDataCtx s.tsock).peek s = none := by
      unfold XmitCtx.peek xmitDataCtx tcpTxqPeekForWrite
      dsimp only
      rw [hall, BitVec.sub_self]
      exact if_pos (BitVec.le_refl _)
    rw [doTcpXmitData_all cfg s _ hp,
      if_pos (show (xmitDataCtx s.tsock).seq = s.tsock.snd.sndNxt from rfl)]
    exact .refl s
  · split
    · exact h
    · generalize LibTpa.doTcpXmitData cfg s (xmitDataCtx s.tsock) = r at h
      obtain ⟨k, hk⟩ := h.released
      refine ⟨⟨h.frame.trans (.setSnd ..), ⟨h.still.isn, h.still.data, h.still.fin, h.still.early,
        fun hc => absurd hc hall⟩, k, ?_⟩, h.texts.trans (.of_eq rfl rfl)⟩
      exact ⟨hk.le, hk.una, hk.write, hk.ring, hk.size, hk.free, hk.done, hk.desc⟩

theorem OutFrame.tcpXmitData (cfg : TcpCfg) (s : St) : OutFrame s (tcpXmitData cfg s) := by
  by_cases hw : minWnd s.tsock.cc = 0
  · rw [LibTpa.tcpXmitData, if_pos hw]
    exact .tcpZeroWndProbe cfg s
  · exact (TxFrame.tcpXmitData cfg s hw).toOutFrame

/-! The release of acknowledged descriptors. -/

namespace SndFrame

theorem txDescDone (s : St) (d : DescId) : SndFrame s (txDescDone s d) := by
  unfold LibTpa.txDescDone
  dsimp only
  split <;> split <;> exact ⟨rfl, rfl, .inl rfl, rfl, .of_eq rfl rfl rfl id, .of_eq rfl rfl⟩

theorem ackDesc (s : St) (v : TxDesc) (a : AckAcc) : SndFrame s (ackDesc s v a).1 := by
  unfold LibTpa.ackDesc
  dsimp only
  split
  · split
    · exact ((SndFrame.setSnd ..).trans (.setCc ..)).trans (.rteRdtsc _)
    · exact (SndFrame.setSnd ..).trans (.rteRdtsc _)
  · split
    · exact (SndFrame.setSnd ..).trans (.setCc ..)
    · exact .setSnd ..

theorem ackLoop (n : Nat) : ∀ (s : St) (acked : U32) (a : AckAcc),
    SndFrame s (ackLoop n s acked a).1 := by
  induction n with
  | zero =>
    intro s acked a
    exact .refl s
  | succ n ih =>
    intro s acked a
    unfold LibTpa.ackLoop
    split
    · exact .fault s
    · dsimp only
      split
      · exact .setSnd ..
      · split
        · exact (SndFrame.ackDesc ..).trans (.txDescDone ..)
        · exact ((SndFrame.ackDesc ..).trans (.txDescDone ..)).trans (ih ..)

end SndFrame

/-- The loop of `ack_sent_data` went from the descriptor with index `a` to the
one with index `b`; the cursors of the ring move after it. -/
structure AckRun (a b : Nat) (s s' : St) : Prop where
  le : a ≤ b
  count : b ≤ s.tsock.snd.txq.count
  snd : s'.tsock.snd = { s.tsock.snd with
    sndUna := s'.tsock.snd.sndUna
    partialAck := s'.tsock.snd.partialAck }
  free : s'.worker.tx.free = ((s.tsock.snd.txq.live.take b).drop a).reverse ++ s.worker.tx.free
  done : s'.worker.done = s.worker.done ++ s.callbacks ((s.tsock.snd.txq.live.take b).drop a)
  mem : s'.worker.tx.mem = s.worker.tx.mem
  texts : Texts s s'

namespace AckRun

variable {s s' s'' : St} {a b c : Nat}

theorem txq (h : AckRun a b s s') : s'.tsock.snd.txq = s.tsock.snd.txq := by rw [h.snd]

theorem none (hle : a ≤ s.tsock.snd.txq.count) (hs : s'.tsock.snd = { s.tsock.snd with
    sndUna := s'.tsock.snd.sndUna, partialAck := s'.tsock.snd.partialAck })
    (ht : s'.worker.tx = s.worker.tx) (hd : s'.worker.done = s.worker.done) (htx : Texts s s') :
    AckRun a a s s' := by
  have hnil : (s.tsock.snd.txq.live.take a).drop a = [] := by
    rw [List.drop_eq_nil_iff, List.length_take]
    omega
  exact ⟨le_rfl, hle, hs, by rw [hnil, ht]; rfl, by simp [hnil, hd, St.callbacks], by rw [ht], htx⟩

theorem trans (h : AckRun a b s s') (h' : AckRun b c s' s'') : AckRun a c s s'' := by
  have hq := h.txq
  have hle := h'.le
  have hsplit : (s.tsock.snd.txq.live.take c).drop a =
      (s.tsock.snd.txq.live.take b).drop a ++ (s.tsock.snd.txq.live.take c).drop b := by
    have hb : (s.tsock.snd.txq.live.take b) = (s.tsock.snd.txq.live.take c).take b := by
      rw [List.take_take, Nat.min_eq_left hle]
    rw [hb, ← List.drop_append_of_le_length, List.take_append_drop]
    rw [List.length_take, List.length_take, TcpTxq.live_length]
    have h1 := h.le
    have h2 := h.count
    omega
  have hcb : s'.callbacks = s.callbacks := by
    unfold St.callbacks St.desc
    rw [h.mem]
  refine ⟨h.le.trans h'.le, hq ▸ h'.count, h'.snd.trans (by rw [h.snd]), ?_, ?_,
    h'.mem.trans h.mem, h.texts.trans h'.texts⟩
  · rw [h'.free, h.free, hq, hsplit, List.reverse_append, List.append_assoc]
  · rw [h'.done, h.done, hq, hcb, hsplit, List.append_assoc]
    simp [St.callbacks]

end AckRun

theorem txDescDone_spec (s : St) (d : DescId) :
    (txDescDone s d).tsock = s.tsock ∧ (txDescDone s d).worker.tx = txDescFree s.worker.tx d ∧
      (txDescDone s d).worker.done = s.worker.done ++ s.callbacks [d] := by
  unfold txDescDone St.callbacks TxDesc.callback
  dsimp only
  cases hm : (s.desc d).memFromMbuf <;> cases hw : (s.desc d).writeDone <;> simp [hw]

theorem ackDesc_run (s : St) (a : AckAcc) {d : DescId}
    (h : tcpTxqPeekUna s.tsock.snd.txq a.nr = some d) :
    AckRun a.nr.toNat (a.nr.toNat + 1) s (txDescDone (ackDesc s (s.desc d) a).1 d) ∧
      (ackDesc s (s.desc d) a).2.nr = a.nr + 1 := by
  unfold tcpTxqPeekUna tcpTxqPeekForWrite at h
  split at h
  · cases h
  next hlt =>
  cases h
  have hcount : a.nr.toNat < s.tsock.snd.txq.count := by
    unfold TcpTxq.count
    exact BitVec.lt_def.mp (BitVec.not_le.mp hlt)
  have hget : (s.tsock.snd.txq.live.take (a.nr.toNat + 1)).drop a.nr.toNat =
      [s.tsock.snd.txq.descAt (s.tsock.snd.txq.una + a.nr)] := by
    have hd : s.tsock.snd.txq.live[a.nr.toNat]? =
        some (s.tsock.snd.txq.descAt (s.tsock.snd.txq.una + a.nr)) := by
      rw [TcpTxq.live_getElem?, if_pos hcount, BitVec.ofNat_toNat, BitVec.setWidth_eq]
    rw [List.take_add_one, hd, Option.toList_some, List.drop_left']
    rw [List.length_take, TcpTxq.live_length]
    omega
  generalize hdd : s.tsock.snd.txq.descAt (s.tsock.snd.txq.una + a.nr) = d at hget
  obtain ⟨r, hr⟩ : ∃ r, r = ackDesc s (s.desc d) a := ⟨_, rfl⟩
  have hkeep : r.1.tsock.snd = { s.tsock.snd with
      sndUna := r.1.tsock.snd.sndUna, partialAck := r.1.tsock.snd.partialAck } ∧
      r.1.worker.tx = s.worker.tx ∧ r.1.worker.done = s.worker.done ∧ r.2.nr = a.nr + 1 ∧
      Texts s r.1 := by
    rw [hr]
    unfold ackDesc LibTpa.rteRdtsc
    dsimp only
    split
    · split
      · split <;> exact ⟨rfl, rfl, rfl, rfl, .of_eq rfl rfl⟩
      · split <;> exact ⟨rfl, rfl, rfl, rfl, .of_eq rfl rfl⟩
    · split <;> exact ⟨rfl, rfl, rfl, rfl, .of_eq rfl rfl⟩
  rw [← hr]
  obtain ⟨h1, h2, h3, h4, h5⟩ := hkeep
  have hdesc : r.1.desc = s.desc := by
    unfold St.desc
    rw [h2]
  obtain ⟨ht, hx, hd⟩ := txDescDone_spec r.1 d
  refine ⟨⟨by omega, hcount, ?_, ?_, ?_, ?_, h5.trans (.of_eq (by rw [ht]) (by rw [ht]))⟩, h4⟩
  · rw [ht]
    exact h1
  · rw [hx, hget, txDescFree, h2]
    rfl
  · rw [hd, h3, hget, St.callbacks, St.callbacks, hdesc]
  · rw [hx, txDescFree, h2]

theorem ackLoop_run (n : Nat) : ∀ (s : St) (acked : U32) (a : AckAcc),
    a.nr.toNat ≤ s.tsock.snd.txq.count →
    AckRun a.nr.toNat (ackLoop n s acked a).2.nr.toNat s (ackLoop n s acked a).1 := by
  induction n with
  | zero =>
    intro s acked a ha
    exact .none ha rfl rfl rfl (.of_eq rfl rfl)
  | succ n ih =>
    intro s acked a ha
    unfold LibTpa.ackLoop
    split
    · exact .none ha rfl rfl rfl (.of_eq rfl rfl)
    · next d hd =>
      obtain ⟨hrun, hnr⟩ := ackDesc_run s a hd
      have hnext : (ackDesc s (s.desc d) a).2.nr.toNat = a.nr.toNat + 1 := by
        have := hrun.count
        have hlt : s.tsock.snd.txq.count < 2 ^ 16 := BitVec.isLt _
        rw [hnr]
        bv_omega
      dsimp only
      split
      · exact .none ha rfl rfl rfl (.of_eq rfl rfl)
      · split
        · rw [hnext]
          exact hrun
        · refine hrun.trans ?_
          rw [← hnext]
          refine ih _ _ _ ?_
          rw [hnext, TcpTxq.count, hrun.txq]
          exact hrun.count

namespace TxFrame

variable {s s' : St}

theorem ackSentData (s : St) (acked : U32) : TxFrame s (ackSentData s acked).1 := by
  have hf :=
    SndFrame.ackLoop ((s.tsock.snd.txq.write - s.tsock.snd.txq.una).toNat + 1) s acked ⟨0, 0, 0⟩
  have hrun :=
    ackLoop_run ((s.tsock.snd.txq.write - s.tsock.snd.txq.una).toNat + 1) s acked ⟨0, 0, 0⟩
    (Nat.zero_le _)
  unfold LibTpa.ackSentData
  dsimp only
  generalize LibTpa.ackLoop ((s.tsock.snd.txq.write - s.tsock.snd.txq.una).toNat + 1) s acked
    ⟨0, 0, 0⟩ = r at hf hrun ⊢
  have h : TxFrame s (r.1.setSnd (releaseAcked r.1.tsock.snd r.2.nr)) := by
    have hq := hrun.txq
    have hcount := hrun.count
    refine ⟨⟨hf.trans (.setSnd ..), ⟨?_, ?_, ?_, ?_, fun hall => ?_⟩, r.2.nr.toNat,
      hrun.count, ?_, ?_,
      fun a => ?_, ?_, hrun.free, hrun.done, fun d => ?_⟩, hrun.texts.trans (.of_eq rfl rfl)⟩
    · change r.1.tsock.snd.sndIsn = _
      rw [hrun.snd]
    · change r.1.tsock.snd.dataSeqNxt = _
      rw [hrun.snd]
    · change r.1.tsock.snd.finSent = _
      rw [hrun.snd]
    · change r.1.tsock.snd.closedAtSynRcvd = _
      rw [hrun.snd]
    · refine ⟨?_, ?_⟩
      · change r.1.tsock.snd.sndNxt = _
        rw [hrun.snd]
      change (if r.1.tsock.snd.txq.nxt - r.1.tsock.snd.txq.una < r.2.nr
        then r.1.tsock.snd.txq.una + r.2.nr else r.1.tsock.snd.txq.nxt) = r.1.tsock.snd.txq.write
      rw [hq, hall, if_neg]
      unfold TcpTxq.count at hcount
      bv_omega
    · change r.1.tsock.snd.txq.una + r.2.nr = _
      rw [hq]
      simp
    · change r.1.tsock.snd.txq.write = _
      rw [hq]
    · change r.1.tsock.snd.txq.descAt a = _
      rw [hq]
    · change r.1.tsock.snd.txq.size = _
      rw [hq]
    · change SameWrite (s.desc d) (r.1.desc d)
      unfold St.desc
      rw [hrun.mem]
      exact .refl _
  split
  · exact h
  · exact h.trans (.tsockEventAdd ..)

theorem leaveFastRetrans (cfg : TcpCfg) (s : St) (cwnd : U32) :
    TxFrame s (leaveFastRetrans cfg s cwnd) := (TxFrame.setCc ..).trans (.setRetrans ..)

theorem enterFastRetrans (cfg : TcpCfg) (s : St) : TxFrame s (enterFastRetrans cfg s) := by
  have hlast : ∀ s₁, TxFrame s s₁ → TxFrame s (if s₁.tsock.nego.tsOk then
      s₁.setSnd { s₁.tsock.snd with retransTsVal := usToTcpTs s₁.worker.tsUs } else s₁) := by
    intro s₁ h
    split
    · exact h.trans (.setRetrans ..)
    · exact h
  have hcursor : ∀ c : Cc, TxFrame s (tcpResetRetrans ((s.setCc c).setSnd
      { s.tsock.snd with retransStage := .fastRetrans }) s.tsock.snd.sndUna s.tsock.snd.txq.una) :=
    fun c => ((TxFrame.setCc s c).trans (.setRetrans ..)).trans (.setRetrans ..)
  exact hlast _ ((hcursor _).trans (.tcpFastRetrans cfg _ _))

theorem inFastRetrans (cfg : TcpCfg) (s : St) (p : Packet) (acked : U32) :
    TxFrame s (inFastRetrans cfg s p acked) := by
  unfold LibTpa.inFastRetrans
  dsimp only
  split
  · exact .setCc ..
  split
  · split
    · exact .leaveFastRetrans ..
    · exact (((TxFrame.setRetrans ..).trans (.setCc ..)).trans (.tcpFastRetrans ..)).trans
        (.setTimers ..)
  · exact .leaveFastRetrans ..

theorem tryFastRetrans (cfg : TcpCfg) (s : St) (p : Packet) :
    TxFrame s (tryFastRetrans cfg s p) := by
  unfold LibTpa.tryFastRetrans
  split
  · exact .enterFastRetrans cfg s
  · exact .refl s

theorem handleFastRetransmit (cfg : TcpCfg) (s : St) (p : Packet) (acked : U32) :
    TxFrame s (handleFastRetransmit cfg s p acked) := by
  unfold LibTpa.handleFastRetransmit
  split
  · exact .refl s
  · dsimp only
    split
    · exact (TxFrame.tryFastRetrans ..).trans (.inFastRetrans ..)
    · exact .tryFastRetrans ..

theorem markDescSacked (s : St) (d : DescId) : TxFrame s (markDescSacked s d) := by
  unfold LibTpa.markDescSacked
  dsimp only
  split
  · exact .refl s
  · exact (TxFrame.setCc ..).trans (.setDesc _ _ _ ⟨rfl, rfl, rfl, rfl⟩)

theorem sackBlockLoop (blk : SackBlock) (n : Nat) : ∀ (s : St) (off : U16),
    TxFrame s (sackBlockLoop blk n s off).1 := by
  induction n with
  | zero =>
    intro s off
    exact .refl s
  | succ n ih =>
    intro s off
    unfold LibTpa.sackBlockLoop
    split
    · exact .refl s
    dsimp only
    split
    · exact .refl s
    split
    · exact .refl s
    split
    · exact (TxFrame.markDescSacked ..).trans (ih ..)
    · exact ih ..

theorem sackLoop (l : List SackBlock) : ∀ (s : St) (off : U16), TxFrame s (sackLoop l s off) := by
  induction l with
  | nil =>
    intro s off
    exact .refl s
  | cons blk l ih =>
    intro s off
    unfold LibTpa.sackLoop
    split
    · exact ih ..
    · exact (TxFrame.sackBlockLoop ..).trans (ih ..)

theorem tcpRcvSack (s : St) (o : TcpOpts) : TxFrame s (tcpRcvSack s o) := by
  unfold LibTpa.tcpRcvSack
  split
  · exact .refl s
  · exact .sackLoop ..

end TxFrame

end LibTpa
