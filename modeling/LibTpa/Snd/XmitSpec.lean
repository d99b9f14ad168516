/- LibTpa/Snd/XmitSpec
   digest: Sending marks descriptors and leaves the queue and its bytes alone. -/

import LibTpa.Snd.Stream
import LibTpa.Snd.Frame

set_option autoImplicit false

namespace LibTpa

variable {s s' s'' : St}

/-- The socket is as before, and so is what its descriptors hold: they may be marked. -/
structure Marked (s s' : St) : Prop where
  keep : TxKeep s s'
  tsock : s'.tsock = s.tsock

namespace Marked

theorem refl (s : St) : Marked s s := ⟨.refl s, rfl⟩

theorem trans (h : Marked s s') (h' : Marked s' s'') : Marked s s'' :=
  ⟨h.keep.trans h'.keep, h'.tsock.trans h.tsock⟩

theorem packetAlloc (s : St) : Marked s (packetAlloc s).2 := by
  unfold LibTpa.packetAlloc
  split
  · exact refl s
  · exact ⟨.of_eq rfl rfl, rfl⟩

theorem rteRdtsc (s : St) : Marked s (rteRdtsc s).2 := by
  unfold LibTpa.rteRdtsc
  split
  · exact refl s
  · exact ⟨.of_eq rfl rfl, rfl⟩

theorem setDesc (s : St) (d : DescId) (v : TxDesc) (h : SameData (s.desc d) v) :
    Marked s (s.setDesc d v) := by
  refine ⟨⟨rfl, rfl, fun e => ?_⟩, rfl⟩
  by_cases he : e = d
  · subst he
    rw [St.desc_setDesc_self]
    exact h
  · rw [St.desc_setDesc_ne s v he]
    exact .refl _

theorem markRetrans (s : St) (c : XmitCtx) (a : XmitAcc) (d : DescId) :
    Marked s (markRetrans s c a d).1 := by
  unfold LibTpa.markRetrans
  split
  · exact setDesc s d _ ⟨rfl, rfl, rfl⟩
  · exact refl s

theorem descDone (s : St) (c : XmitCtx) (d : DescId) : Marked s (descDone s c d).1 := by
  have h : SameData (s.desc d) { s.desc d with tsUs := s.worker.tsUs } := ⟨rfl, rfl, rfl⟩
  unfold LibTpa.descDone
  dsimp only
  split
  · split
    · have ht := rteRdtsc s
      refine ht.trans (setDesc _ d _ ?_)
      have hd := ht.keep.desc d
      exact ⟨hd.data.symm, hd.seq.symm, hd.sacked.symm⟩
    · exact setDesc s d _ ⟨rfl, rfl, rfl⟩
  · exact setDesc s d _ h

theorem faultIf (h : Marked s s') (b : Prop) [Decidable b] :
    Marked s (if b then { s' with worker := { s'.worker with fault := true } } else s') := by
  split
  · exact ⟨h.keep.trans (.of_eq rfl rfl), h.tsock⟩
  · exact h

theorem attachLoop (cfg : TcpCfg) (n : Nat) : ∀ (s : St) (c : XmitCtx) (a : XmitAcc)
    (d : DescId), Marked s (LibTpa.attachLoop cfg n s c a d).1 := by
  induction n with
  | zero =>
    intro s c a d
    exact refl s
  | succ n ih =>
    intro s c a d
    unfold LibTpa.attachLoop
    split
    swap
    · exact refl s
    have hmark := markRetrans s c a d
    dsimp only
    split
    · exact hmark
    have halloc := hmark.trans (packetAlloc (LibTpa.markRetrans s c a d).1)
    split
    · next s₁ h1 =>
      rw [h1] at halloc
      exact halloc
    next s₁ h1 =>
    rw [h1] at halloc
    have hfault := halloc.faultIf ((s₁.desc d).len ≤ c.seq - (s₁.desc d).seq)
    have hdone : ∀ s₂ c₂, Marked s s₂ → Marked s (LibTpa.descDone s₂ c₂ d).1 :=
      fun s₂ c₂ h => h.trans (descDone s₂ c₂ d)
    split
    · split
      · exact hdone _ _ hfault
      · split
        · exact hdone _ _ hfault
        · exact (hdone _ _ hfault).trans (ih ..)
    · split
      · exact hfault
      · exact hfault.trans (ih ..)

end Marked

end LibTpa
