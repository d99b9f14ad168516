/- LibTpa/Snd/CcFrame
   digest: What transmission and acknowledgement leave of the congestion state. -/

import LibTpa.Snd.XmitSpec

set_option autoImplicit false

namespace LibTpa

/-- Of the congestion state only the time stamp of the last data may differ. -/
structure CcKept (s s' : St) : Prop where
  cc : s'.tsock.cc = { s.tsock.cc with sndTs := s'.tsock.cc.sndTs }
  una : s'.tsock.snd.sndUna = s.tsock.snd.sndUna
  stage : s'.tsock.snd.retransStage = s.tsock.snd.retransStage

namespace CcKept

variable {s s' s'' : St}

theorem of_eq (hc : s'.tsock.cc = s.tsock.cc) (hx : s'.tsock.snd = s.tsock.snd) : CcKept s s' :=
  ⟨by rw [hc], by rw [hx], by rw [hx]⟩

theorem refl (s : St) : CcKept s s := of_eq rfl rfl

theorem trans (h : CcKept s s') (h' : CcKept s' s'') : CcKept s s'' :=
  ⟨h'.cc.trans (by rw [h.cc]), h'.una.trans h.una, h'.stage.trans h.stage⟩

theorem packetAlloc (s : St) : CcKept s (packetAlloc s).2 := by
  have h := Quiet.packetAlloc s
  exact of_eq h.cc h.snd

private theorem marked (h : Marked s s') : CcKept s s' := of_eq (by rw [h.tsock]) (by rw [h.tsock])

private theorem xmitAttached (cfg : TcpCfg) (s : St) (c : XmitCtx) (a : XmitAcc) :
    CcKept s (xmitAttached cfg s c a).2.1 := by
  have henq : ∀ (s₁ : St) (q : TxPacket), CcKept s₁ (devPortTxqEnqueue s₁ q).2 := by
    intro s₁ q
    unfold devPortTxqEnqueue
    split <;> exact of_eq rfl rfl
  have hprep : CcKept s (afterPrepend s tcpFlagAck) := of_eq rfl rfl
  unfold LibTpa.xmitAttached
  split
  · exact refl s
  · have h :=
      hprep.trans (henq _ (buildPacket cfg s (c.seq - a.size) tcpFlagAck a.payload a.retransmit))
    dsimp only [prependTcpHdr] at h ⊢
    split
    · next heq =>
      rw [heq] at h
      exact h
    · next heq =>
      rw [heq] at h
      exact h.trans (of_eq rfl rfl)

private theorem xmitOnePacket (cfg : TcpCfg) (s : St) (c : XmitCtx) :
    CcKept s (xmitOnePacket cfg s c).2.1 := by
  unfold LibTpa.xmitOnePacket
  split
  · exact refl s
  · have halloc := packetAlloc s
    split
    · next s₁ h1 =>
      rw [h1] at halloc
      exact halloc
    · next s₁ h1 =>
      rw [h1] at halloc
      exact (halloc.trans (marked (.attachLoop ..))).trans (xmitAttached ..)

private theorem xmitLoop (cfg : TcpCfg) (n : Nat) : ∀ (s : St) (c : XmitCtx) (size : Nat),
    CcKept s (xmitLoop cfg n s c size).1 := by
  induction n with
  | zero =>
    intro s c size
    exact refl s
  | succ n ih =>
    intro s c size
    unfold LibTpa.xmitLoop
    have h := xmitOnePacket cfg s c
    split
    · split
      · next heq =>
        rw [heq] at h
        exact h
      · next heq =>
        rw [heq] at h
        exact h.trans (ih ..)
    · exact refl s

private theorem dataSent (s : St) : CcKept s (dataSent s) := by
  unfold LibTpa.dataSent
  dsimp only
  split <;> exact ⟨rfl, rfl, rfl⟩

theorem doTcpXmitData (cfg : TcpCfg) (s : St) (c : XmitCtx) :
    CcKept s (doTcpXmitData cfg s c).1 := by
  unfold LibTpa.doTcpXmitData
  dsimp only
  split
  · exact (xmitLoop ..).trans (dataSent _)
  · exact xmitLoop ..

theorem tcpResetRetrans (s : St) (seq : U32) (base : U16) : CcKept s (tcpResetRetrans s seq base) :=
  ⟨rfl, rfl, rfl⟩

theorem doTcpRetrans (cfg : TcpCfg) (s : St) (budget : Int) :
    CcKept s (doTcpRetrans cfg s budget) :=
  (doTcpXmitData ..).trans (tcpResetRetrans ..)

private theorem regulateRetrans (s : St) : CcKept s (regulateRetrans s) := by
  unfold LibTpa.regulateRetrans
  dsimp only
  split
  · exact tcpResetRetrans ..
  · exact refl s

theorem tcpRetrans (cfg : TcpCfg) (s : St) : CcKept s (tcpRetrans cfg s) :=
  (regulateRetrans s).trans (doTcpRetrans ..)

theorem tcpFastRetrans (cfg : TcpCfg) (s : St) (budget : U32) :
    CcKept s (tcpFastRetrans cfg s budget) :=
  (regulateRetrans s).trans (doTcpRetrans ..)

end CcKept

/-- Of the congestion state only the count of SACKed bytes may differ. -/
structure CcCounted (s s' : St) : Prop where
  cc : s'.tsock.cc = { s.tsock.cc with sackedBytes := s'.tsock.cc.sackedBytes }
  stage : s'.tsock.snd.retransStage = s.tsock.snd.retransStage

namespace CcCounted

variable {s s' s'' : St}

theorem refl (s : St) : CcCounted s s := ⟨rfl, rfl⟩

theorem trans (h : CcCounted s s') (h' : CcCounted s' s'') : CcCounted s s'' :=
  ⟨h'.cc.trans (by rw [h.cc]), h'.stage.trans h.stage⟩

private theorem ackDesc (s : St) (v : TxDesc) (a : AckAcc) : CcCounted s (ackDesc s v a).1 := by
  have hsacked : ∀ s₁ : St, CcCounted s s₁ → CcCounted s (if v.sacked then
      s₁.setCc { s₁.tsock.cc with sackedBytes := s₁.tsock.cc.sackedBytes - v.len } else s₁) := by
    intro s₁ h₁
    split
    · exact h₁.trans ⟨rfl, rfl⟩
    · exact h₁
  have hclock : ∀ s₁ : St, CcCounted s s₁ → CcCounted s (rteRdtsc s₁).2 := fun s₁ h₁ =>
    ⟨by rw [rteRdtsc_tsock]; exact h₁.cc, by rw [rteRdtsc_tsock]; exact h₁.stage⟩
  unfold LibTpa.ackDesc
  dsimp only
  split
  · refine hclock _ ?_
    exact hsacked _ ⟨rfl, rfl⟩
  · exact hsacked _ ⟨rfl, rfl⟩

private theorem ackLoop (n : Nat) : ∀ (s : St) (acked : U32) (a : AckAcc),
    CcCounted s (ackLoop n s acked a).1 := by
  induction n with
  | zero =>
    intro s acked a
    exact refl s
  | succ n ih =>
    intro s acked a
    unfold LibTpa.ackLoop
    split
    · exact ⟨rfl, rfl⟩
    next d _ =>
    have hdesc := ackDesc s (s.desc d) a
    have hdone : CcCounted s (txDescDone (LibTpa.ackDesc s (s.desc d) a).1 d) :=
      hdesc.trans ⟨rfl, rfl⟩
    dsimp only
    split
    · exact ⟨rfl, rfl⟩
    split
    · exact hdone
    · exact hdone.trans (ih ..)

theorem ackSentData (s : St) (acked : U32) : CcCounted s (ackSentData s acked).1 := by
  have h := ackLoop ((s.tsock.snd.txq.write - s.tsock.snd.txq.una).toNat + 1) s acked ⟨0, 0, 0⟩
  unfold LibTpa.ackSentData
  dsimp only
  generalize LibTpa.ackLoop _ s acked ⟨0, 0, 0⟩ = r at h
  split <;> exact h.trans ⟨rfl, rfl⟩

end CcCounted

structure SackKept (s s' : St) : Prop where
  cc : s'.tsock.cc = { s.tsock.cc with sackedBytes := s'.tsock.cc.sackedBytes }
  snd : s'.tsock.snd = s.tsock.snd

namespace SackKept

variable {s s' s'' : St}

theorem refl (s : St) : SackKept s s := ⟨rfl, rfl⟩

theorem trans (h : SackKept s s') (h' : SackKept s' s'') : SackKept s s'' :=
  ⟨h'.cc.trans (by rw [h.cc]), h'.snd.trans h.snd⟩

private theorem markDescSacked (s : St) (d : DescId) : SackKept s (markDescSacked s d) := by
  unfold LibTpa.markDescSacked
  dsimp only
  split
  · exact refl s
  · exact ⟨rfl, rfl⟩

private theorem sackBlockLoop (blk : SackBlock) (n : Nat) : ∀ (s : St) (off : U16),
    SackKept s (sackBlockLoop blk n s off).1 := by
  induction n with
  | zero =>
    intro s off
    exact refl s
  | succ n ih =>
    intro s off
    unfold LibTpa.sackBlockLoop
    split
    · exact refl s
    dsimp only
    split
    · exact refl s
    split
    · exact refl s
    split
    · exact (markDescSacked s _).trans (ih _ _)
    · exact ih _ _

private theorem sackLoop (l : List SackBlock) : ∀ (s : St) (off : U16),
    SackKept s (sackLoop l s off) := by
  induction l with
  | nil =>
    intro s off
    exact refl s
  | cons blk l ih =>
    intro s off
    unfold LibTpa.sackLoop
    split
    · exact ih s off
    · exact (sackBlockLoop blk _ s off).trans (ih _ _)

theorem tcpRcvSack (s : St) (o : TcpOpts) : SackKept s (tcpRcvSack s o) := by
  unfold LibTpa.tcpRcvSack
  split
  · exact refl s
  · exact sackLoop _ s 0

end SackKept

end LibTpa
