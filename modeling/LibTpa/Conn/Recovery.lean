/- LibTpa/Conn/Recovery
   digest: No ACK takes the window of a recovery below the one that was saved. -/

import LibTpa.Conn.BackoffRun
import LibTpa.Snd.Deflation

/-!
Fast retransmission saves the congestion window and raises it. Until it ends, no ACK
takes the window below the saved one, as long as the sums of the window stay within
their words.
-/

set_option autoImplicit false

namespace LibTpa

variable {cfg : TcpCfg} {s s' : St} {p : Packet} {ack : U32}

def wndWords (c : Cc) : U32 × U32 × U16 × U32 :=
  (c.sndCwnd, c.sndCwndOrig, c.sndMss, c.sndCwndUncommited)

private theorem rttUpdate_wndWords (cfg : TcpCfg) (c : Cc) (rtt : U32) :
    wndWords (rttUpdate cfg c rtt) = wndWords c := by
  unfold rttUpdate
  dsimp only
  split <;> rfl

/-! The windows. -/

/-- The windows stay below a quarter of a word, and fast retransmission is inflated. -/
structure CwndInv (cfg : TcpCfg) (t : TcpSock) : Prop where
  cwnd : t.cc.sndCwnd.toNat ≤ 2 ^ 30
  orig : t.cc.sndCwndOrig.toNat ≤ 2 ^ 30
  inflated : t.snd.retransStage = .fastRetrans → Inflated cfg t.cc

namespace CwndInv

variable {t t' : TcpSock}

theorem of_wnds (h : CwndInv cfg t) (hw : wnds t' = wnds t) : CwndInv cfg t' := by
  simp only [wnds, Prod.mk.injEq] at hw
  obtain ⟨hcwnd, horig, hmss, hstage⟩ := hw
  refine ⟨by rw [hcwnd]; exact h.cwnd, by rw [horig]; exact h.orig, fun hs => ?_⟩
  have hi := h.inflated (by rw [← hstage]; exact hs)
  unfold Inflated at hi ⊢
  rw [hcwnd, horig, hmss]
  exact hi

theorem of_set {n : U32} (ho : t.cc.sndCwndOrig.toNat ≤ 2 ^ 30)
    (hn : t.cc.sndCwnd = (setCwnd cfg t.cc n).sndCwnd)
    (hle : t.snd.retransStage = .fastRetrans → t.cc.sndCwndOrig.toNat ≤ n.toNat) :
    CwndInv cfg t := by
  have hcwnd := congrArg BitVec.toNat hn
  have hmax := cfg.cwndMax_le
  have hmss := t.cc.sndMss.isLt
  rw [setCwnd_toNat] at hcwnd
  refine ⟨by omega, ho, fun hs => ?_⟩
  have := hle hs
  exact ⟨by omega, by omega⟩

end CwndInv

/-! New data. -/

private theorem updateCwnd_wnd (cfg : TcpCfg) (now : Nat) (c : Cc) (acked : U32) :
    (updateCwnd cfg now c acked).sndCwndOrig = c.sndCwndOrig ∧
      (updateCwnd cfg now c acked).sndMss = c.sndMss ∧
      ((updateCwnd cfg now c acked).sndCwnd = c.sndCwnd ∨
        ∃ n, (updateCwnd cfg now c acked).sndCwnd = (setCwnd cfg c n).sndCwnd) := by
  unfold updateCwnd
  dsimp only
  split
  · exact ⟨rfl, rfl, .inl rfl⟩
  split
  · exact ⟨rfl, rfl, .inl rfl⟩
  split
  · exact ⟨rfl, rfl, .inr ⟨_, rfl⟩⟩
  · exact ⟨rfl, rfl, .inr ⟨_, rfl⟩⟩

private theorem updateCwnd_le (cfg : TcpCfg) (now : Nat) (c : Cc) (acked : U32)
    (h : c.sndCwnd.toNat ≤ 2 ^ 30) : (updateCwnd cfg now c acked).sndCwnd.toNat ≤ 2 ^ 30 := by
  have hmax := cfg.cwndMax_le
  have hmss := c.sndMss.isLt
  rcases (updateCwnd_wnd cfg now c acked).2.2 with hn | ⟨n, hn⟩
  · rw [hn]
    exact h
  · rw [hn, setCwnd_toNat]
    omega

private theorem measured_wndWords (cfg : TcpCfg) {r : St × U32} (h : CcCounted s r.1) :
    wndWords (if r.2 = 0 then r.1.tsock.cc else rttUpdate cfg r.1.tsock.cc r.2) =
      wndWords s.tsock.cc := by
  have hr : wndWords r.1.tsock.cc = wndWords s.tsock.cc := by
    rw [h.cc]
    rfl
  split
  · exact hr
  · exact (rttUpdate_wndWords cfg _ _).trans hr

private theorem Inflated.updateCwnd {c : Cc} {acked : U32} (h : Inflated cfg c) (now : Nat)
    (hle : c.sndCwnd.toNat ≤ 2 ^ 30)
    (hfit : c.sndCwndUncommited.toNat + acked.toNat < 2 ^ 31) :
    Inflated cfg (updateCwnd cfg now c acked) := by
  obtain ⟨horig, hmss, -⟩ := updateCwnd_wnd cfg now c acked
  have hacc : Accumulates c ⟨now, acked⟩ := hfit
  obtain ⟨hcom, hidle, -⟩ := @cwndStep_cwnd cfg c ⟨now, acked⟩ h.1 hle hacc
  unfold cwndStep at hcom hidle
  unfold Inflated at h ⊢
  rw [horig, hmss]
  by_cases hc : Commits c ⟨now, acked⟩
  · have := hcom hc
    dsimp only at this
    omega
  · have := hidle hc
    dsimp only at this
    rw [this]
    exact h

private theorem ackNewData_wnd {acked : U32} (h : CwndInv cfg s.tsock)
    (hfit : s.tsock.cc.sndCwndUncommited.toNat + acked.toNat < 2 ^ 31) :
    CwndInv cfg (ackNewData cfg s acked).tsock := by
  have hsent := CcCounted.ackSentData s acked
  unfold ackNewData
  dsimp only
  generalize ackSentData s acked = r at hsent
  obtain ⟨c₀, hc₀⟩ : ∃ c₀ : Cc, c₀ = { (if r.2 = 0 then r.1.tsock.cc else
    rttUpdate cfg r.1.tsock.cc r.2) with zeroWndProbeShift := 0, rtoShift := 0 } := ⟨_, rfl⟩
  have hsame : wndWords c₀ = wndWords s.tsock.cc := by
    rw [hc₀]
    exact measured_wndWords cfg hsent
  simp only [wndWords, Prod.mk.injEq] at hsame
  obtain ⟨hcwnd, horig, hmss, hunc⟩ := hsame
  rw [← hc₀]
  have hle : c₀.sndCwnd.toNat ≤ 2 ^ 30 := by rw [hcwnd]; exact h.cwnd
  refine ⟨updateCwnd_le cfg _ c₀ acked hle, ?_, fun hs => ?_⟩
  · change (updateCwnd cfg _ c₀ acked).sndCwndOrig.toNat ≤ _
    rw [(updateCwnd_wnd cfg _ c₀ acked).1, horig]
    exact h.orig
  · have hi := h.inflated (hsent.stage ▸ hs)
    have hi₀ : Inflated cfg c₀ := by
      unfold Inflated at hi ⊢
      rw [hcwnd, horig, hmss]
      exact hi
    exact hi₀.updateCwnd _ hle (by rw [hunc]; exact hfit)

private theorem ackedLen_le {x : Snd} (hpos : 0 < ackedLen x ack) :
    0 < (ack - x.sndUna).toInt ∧
      (BitVec.ofInt 32 (ackedLen x ack)).toNat ≤ (ack - x.sndUna).toNat := by
  have hle : ackedLen x ack ≤ (ack - x.sndUna).toInt := by
    unfold ackedLen
    split <;> split <;> omega
  have hlt := (ack - x.sndUna).isLt
  refine ⟨hpos.trans_le hle, ?_⟩
  rw [BitVec.toInt_eq_toNat_cond] at hle
  rw [BitVec.toNat_ofInt]
  split at hle <;> omega

/-! Fast retransmission. -/

theorem CwndInv.of_kept (h : CwndInv cfg s.tsock) (hk : CcKept s s') : CwndInv cfg s'.tsock :=
  h.of_wnds hk.wnds

private theorem leaveFastRetrans_wnd (cwnd : U32) (h : CwndInv cfg s.tsock) :
    CwndInv cfg (leaveFastRetrans cfg s cwnd).tsock :=
  .of_set h.orig rfl fun hs => nomatch hs

private theorem enterFastRetrans_wnd (h : CwndInv cfg s.tsock)
    (hfit : s.tsock.cc.sndCwnd.toNat +
      s.tsock.cc.nrDupack.toNat * s.tsock.cc.sndMss.toNat < 2 ^ 32) :
    CwndInv cfg (enterFastRetrans cfg s).tsock := by
  have hresend : ∀ s₁ : St, CwndInv cfg s₁.tsock → ∀ seq base budget,
      CwndInv cfg (tcpFastRetrans cfg (tcpResetRetrans s₁ seq base) budget).tsock :=
    fun s₁ h₁ seq base budget =>
      h₁.of_kept ((CcKept.tcpResetRetrans s₁ seq base).trans (.tcpFastRetrans cfg _ budget))
  have hstamp : ∀ s₂ : St, CwndInv cfg s₂.tsock → CwndInv cfg (if s₂.tsock.nego.tsOk then
      s₂.setSnd { s₂.tsock.snd with retransTsVal := usToTcpTs s₂.worker.tsUs } else s₂).tsock := by
    intro s₂ h₂
    split
    · exact h₂.of_wnds rfl
    · exact h₂
  unfold enterFastRetrans
  refine hstamp _ (hresend _ ?_ _ _ _)
  refine .of_set h.cwnd rfl fun _ => ?_
  change s.tsock.cc.sndCwnd.toNat ≤ (s.tsock.cc.sndCwnd +
    s.tsock.cc.nrDupack.setWidth 32 * s.tsock.cc.sndMss.setWidth 32).toNat
  have hmul : (s.tsock.cc.nrDupack.setWidth 32 * s.tsock.cc.sndMss.setWidth 32 : U32).toNat =
      s.tsock.cc.nrDupack.toNat * s.tsock.cc.sndMss.toNat := by
    rw [BitVec.toNat_mul, BitVec.toNat_setWidth, BitVec.toNat_setWidth,
      Nat.mod_eq_of_lt (s.tsock.cc.nrDupack.isLt.trans (by decide)),
      Nat.mod_eq_of_lt (s.tsock.cc.sndMss.isLt.trans (by decide)), Nat.mod_eq_of_lt (by omega)]
  rw [BitVec.toNat_add, hmul, Nat.mod_eq_of_lt hfit]
  exact Nat.le_add_right _ _

private theorem inFastRetrans_wnd (p : Packet) (acked : U32) (h : CwndInv cfg s.tsock) :
    CwndInv cfg (inFastRetrans cfg s p acked).tsock := by
  have horig := h.orig
  have hresend : ∀ s₁ : St, CwndInv cfg s₁.tsock → ∀ budget, CwndInv cfg (timerRtoStart
      (tcpFastRetrans cfg s₁ budget) (tcpFastRetrans cfg s₁ budget).tsock.cc.rto.toNat).tsock := by
    intro s₁ h₁ budget
    have h₂ := h₁.of_kept (CcKept.tcpFastRetrans cfg s₁ budget)
    generalize tcpFastRetrans cfg s₁ budget = s₂ at h₂
    exact h₂.of_wnds rfl
  unfold inFastRetrans
  dsimp only
  split
  · refine .of_set horig rfl fun _ => ?_
    change s.tsock.cc.sndCwndOrig.toNat ≤ _
    rw [BitVec.toNat_add, toNat_minU32]
    rw [Nat.mod_eq_of_lt (by omega)]
    exact Nat.le_add_right _ _
  split
  · split
    · exact leaveFastRetrans_wnd _ h
    · refine hresend _ ?_ _
      refine .of_set horig rfl fun _ => ?_
      change s.tsock.cc.sndCwndOrig.toNat ≤ _
      rw [toNat_maxU32]
      exact le_max_left _ _
  · exact leaveFastRetrans_wnd _ h

private theorem handleFastRetransmit_wnd (p : Packet) (acked : U32) (h : CwndInv cfg s.tsock)
    (hfit : 3 ≤ s.tsock.cc.nrDupack.toNat →
      s.tsock.cc.sndCwnd.toNat + s.tsock.cc.nrDupack.toNat * s.tsock.cc.sndMss.toNat < 2 ^ 32) :
    CwndInv cfg (handleFastRetransmit cfg s p acked).tsock := by
  unfold handleFastRetransmit
  split
  · exact h
  next hmany =>
  have htry : CwndInv cfg (tryFastRetrans cfg s p).tsock := by
    unfold tryFastRetrans
    split
    · next hn =>
      refine enterFastRetrans_wnd h (hfit ?_)
      by_contra hlt
      exact hmany ⟨by rw [BitVec.lt_def]; exact Nat.lt_of_not_le hlt, by rw [hn.1]; decide⟩
    · exact h
  dsimp only
  split
  · exact inFastRetrans_wnd p acked htry
  · exact htry

private theorem finishRecovery_wnd (p : Packet) (acked : Int) (h : CwndInv cfg s.tsock) :
    CwndInv cfg (finishRecovery cfg s p acked).tsock := by
  unfold finishRecovery
  dsimp only
  split
  · split
    · exact h.of_wnds rfl
    · exact h
  split
  · exact ⟨h.cwnd, h.orig, fun hs => nomatch hs⟩
  split
  · exact h.of_kept (.tcpRetrans cfg s)
  · exact h

/-! An ACK. -/

/-- The sums of the window stay within their words: what waits to be counted with the bytes
that the ACK covers, and the window with a segment for every duplicate ACK. -/
structure AckFits (t : TcpSock) (ack : U32) : Prop where
  commit : 0 < (ack - t.snd.sndUna).toInt →
    t.cc.sndCwndUncommited.toNat + (ack - t.snd.sndUna).toNat < 2 ^ 31
  inflate : t.cc.sndCwnd.toNat + (t.cc.nrDupack.toNat + 1) * t.cc.sndMss.toNat < 2 ^ 32

instance AckFits.decidable (t : TcpSock) (ack : U32) : Decidable (AckFits t ack) :=
  decidable_of_iff (_ ∧ _) ⟨fun h => ⟨h.1, h.2⟩, fun h => ⟨h.commit, h.inflate⟩⟩

private theorem ackFront_cc (cfg : TcpCfg) (s : St) (p : Packet) :
    (ackFin cfg (countDupack s p) p.ack).tsock.cc = (countDupack s p).tsock.cc ∧
      (ackFin cfg (countDupack s p) p.ack).tsock.snd = s.tsock.snd := by
  have ht := (ackFin_tsock cfg (countDupack s p) p.ack).1
  exact ⟨by rw [ht], by rw [ht]; exact countDupack_snd s p⟩

private theorem countDupack_cc (s : St) (p : Packet) :
    wndWords (countDupack s p).tsock.cc = wndWords s.tsock.cc ∧
      (p.ack = s.tsock.snd.sndUna →
        (countDupack s p).tsock.cc.nrDupack.toNat ≤ s.tsock.cc.nrDupack.toNat + 1) ∧
      (p.ack ≠ s.tsock.snd.sndUna → (countDupack s p).tsock.cc.nrDupack = 0) := by
  unfold countDupack
  dsimp only
  split
  · next heq =>
    refine ⟨by split <;> rfl, fun _ => ?_, fun hne => absurd heq hne⟩
    split
    · change (s.tsock.cc.nrDupack + 1).toNat ≤ _
      rw [BitVec.toNat_add]
      exact Nat.mod_le _ _
    · exact Nat.le_succ _
  · next hne => exact ⟨rfl, fun heq => absurd heq hne, fun _ => rfl⟩

private theorem ackNewData_nrDupack (cfg : TcpCfg) (s : St) (acked : U32) :
    (ackNewData cfg s acked).tsock.cc.nrDupack = s.tsock.cc.nrDupack := by
  have hsent := CcCounted.ackSentData s acked
  have hupdate : ∀ now c, (updateCwnd cfg now c acked).nrDupack = c.nrDupack := by
    intro now c
    unfold updateCwnd
    dsimp only
    split
    · rfl
    split
    · rfl
    split <;> rfl
  have hrtt : ∀ c rtt, (rttUpdate cfg c rtt).nrDupack = c.nrDupack := by
    intro c rtt
    unfold rttUpdate
    dsimp only
    split <;> rfl
  unfold ackNewData
  dsimp only
  generalize ackSentData s acked = r at hsent
  have hr : r.1.tsock.cc.nrDupack = s.tsock.cc.nrDupack := by rw [hsent.cc]
  refine (hupdate _ _).trans ?_
  change (if r.2 = 0 then r.1.tsock.cc else rttUpdate cfg r.1.tsock.cc r.2).nrDupack = _
  split
  · exact hr
  · exact (hrtt _ _).trans hr

private theorem ackReaches_wnd (h : CwndInv cfg s.tsock) (hf : AckFits s.tsock p.ack) :
    CwndInv cfg (ackReaches cfg s p).tsock := by
  obtain ⟨hcc, hsnd⟩ := ackFront_cc cfg s p
  have hwords := (countDupack_cc s p).1
  rw [← hcc] at hwords
  unfold ackReaches
  generalize ackFin cfg (countDupack s p) p.ack = s₂ at hsnd hwords
  simp only [wndWords, Prod.mk.injEq] at hwords
  obtain ⟨hcwnd, horig, hmss, hunc⟩ := hwords
  have h₂ : CwndInv cfg s₂.tsock := h.of_wnds (by rw [wnds, hcwnd, horig, hmss, hsnd]; rfl)
  unfold ackData
  split
  · next hpos =>
    obtain ⟨hnew, hle⟩ := ackedLen_le hpos
    have hsum := hf.commit hnew
    exact ackNewData_wnd h₂ (by rw [hunc]; omega)
  · exact h₂

/-- Only a duplicate ACK, which covers no data, finds a count of duplicates. -/
private theorem ackReaches_fits (cfg : TcpCfg) (hf : AckFits s.tsock p.ack)
    (hmany : 3 ≤ (ackReaches cfg s p).tsock.cc.nrDupack.toNat) :
    (ackReaches cfg s p).tsock.cc.sndCwnd.toNat + (ackReaches cfg s p).tsock.cc.nrDupack.toNat *
      (ackReaches cfg s p).tsock.cc.sndMss.toNat < 2 ^ 32 := by
  obtain ⟨hcc, -⟩ := ackFront_cc cfg s p
  obtain ⟨hwords, hdup, hnew⟩ := countDupack_cc s p
  rw [← hcc] at hwords hdup hnew
  unfold ackReaches at hmany ⊢
  generalize ackFin cfg (countDupack s p) p.ack = s₂ at hwords hdup hnew hmany ⊢
  simp only [wndWords, Prod.mk.injEq] at hwords
  obtain ⟨hcwnd, -, hmss, -⟩ := hwords
  unfold ackData at hmany ⊢
  by_cases heq : p.ack = s.tsock.snd.sndUna
  · have hlen : ¬ 0 < ackedLen s.tsock.snd p.ack := by
      intro hpos
      have := (ackedLen_le hpos).1
      rw [heq, sub_self] at this
      exact absurd this (by decide)
    rw [if_neg hlen] at hmany ⊢
    have hsum := hf.inflate
    have hmul := Nat.mul_le_mul_right s.tsock.cc.sndMss.toNat (hdup heq)
    rw [hcwnd, hmss]
    omega
  · have hzero := hnew heq
    split at hmany
    · rw [ackNewData_nrDupack, hzero] at hmany
      exact absurd hmany (by decide)
    · rw [hzero] at hmany
      exact absurd hmany (by decide)

theorem handed_wnd (o : TcpOpts) (h : CwndInv cfg s.tsock) (hf : AckFits s.tsock p.ack) :
    CwndInv cfg (ackSack (ackReaches cfg s p) o).tsock := by
  have hsack := SackKept.ackSack (ackReaches cfg s p) o
  exact (ackReaches_wnd h hf).of_wnds (by rw [wnds, hsack.cc, hsack.snd]; rfl)

private theorem ackAccepted_wnd (o : TcpOpts) (h : CwndInv cfg s.tsock)
    (hf : AckFits s.tsock p.ack) : CwndInv cfg (ackAccepted cfg s p o).tsock := by
  have hsack := SackKept.ackSack (ackReaches cfg s p) o
  have h₂ := handed_wnd o h hf
  have hfits := ackReaches_fits cfg hf
  have hacc : ackAccepted cfg s p o = updateSndWnd (stopWhenIdle (finishRecovery cfg
      (handleFastRetransmit cfg (ackSack (ackReaches cfg s p) o) p
        (BitVec.ofInt 32 (ackedLen s.tsock.snd p.ack))) p (ackedLen s.tsock.snd p.ack))) p := rfl
  rw [hacc]
  generalize ackReaches cfg s p = s₁ at hsack h₂ hfits
  generalize ackSack s₁ o = s₂ at hsack h₂
  have h₃ := finishRecovery_wnd p (ackedLen s.tsock.snd p.ack)
    (handleFastRetransmit_wnd p (BitVec.ofInt 32 (ackedLen s.tsock.snd p.ack)) h₂
      (by rw [hsack.cc]; exact hfits))
  generalize finishRecovery cfg (handleFastRetransmit cfg s₂ p _) p _ = s₃ at h₃
  have h₄ : CwndInv cfg (stopWhenIdle s₃).tsock := by
    unfold stopWhenIdle
    split
    · exact h₃.of_wnds rfl
    · exact h₃
  generalize stopWhenIdle s₃ = s₄ at h₄
  unfold updateSndWnd
  dsimp only
  split
  · exact h₄.of_wnds rfl
  · exact h₄

private theorem fastpath_wnd (p : Packet) (h : CwndInv cfg s.tsock)
    (hidle : s.tsock.snd.retransStage = .none) :
    CwndInv cfg (tcpRcvAckFastpath cfg s p).tsock ∧
      (tcpRcvAckFastpath cfg s p).tsock.snd.retransStage = .none := by
  have hnew : ∀ acked, CwndInv cfg (ackNewDataFast cfg s acked).tsock ∧
      (ackNewDataFast cfg s acked).tsock.snd.retransStage = .none := by
    intro acked
    have hsent := CcCounted.ackSentData s acked
    unfold ackNewDataFast
    dsimp only
    generalize ackSentData s acked = r at hsent
    have hw := measured_wndWords cfg hsent
    generalize (if r.2 = 0 then r.1.tsock.cc else rttUpdate cfg r.1.tsock.cc r.2) = c at hw
    simp only [wndWords, Prod.mk.injEq] at hw
    obtain ⟨s₁, hs₁⟩ : ∃ s₁, s₁ = if r.1.tsock.snd.sndUna = r.1.tsock.snd.sndNxt
      then timerRtoStop (r.1.setCc { c with sndRecover := r.1.tsock.snd.sndUna - 1, nrDupack := 0 })
      else tsockRearmTimerRto
        (r.1.setCc { c with sndRecover := r.1.tsock.snd.sndUna - 1, nrDupack := 0 }) := ⟨_, rfl⟩
    have hcc : s₁.tsock.cc = { c with sndRecover := r.1.tsock.snd.sndUna - 1, nrDupack := 0 } := by
      rw [hs₁]
      split <;> rfl
    have hstage : s₁.tsock.snd.retransStage = .none := by
      refine Eq.trans ?_ (hsent.stage.trans hidle)
      rw [hs₁]
      split <;> rfl
    rw [← hs₁]
    refine ⟨⟨updateCwnd_le cfg _ _ acked ?_, ?_, fun hs => ?_⟩, hstage⟩
    · rw [hcc]
      change c.sndCwnd.toNat ≤ _
      rw [hw.1]
      exact h.cwnd
    · change (updateCwnd cfg _ _ acked).sndCwndOrig.toNat ≤ _
      rw [(updateCwnd_wnd cfg _ _ acked).1, hcc]
      change c.sndCwndOrig.toNat ≤ _
      rw [hw.2.1]
      exact h.orig
    · change s₁.tsock.snd.retransStage = _ at hs
      rw [hstage] at hs
      cases hs
  unfold tcpRcvAckFastpath
  dsimp only
  split
  · obtain ⟨hinv, hstage⟩ := hnew (p.ack - s.tsock.snd.sndUna)
    generalize ackNewDataFast cfg s (p.ack - s.tsock.snd.sndUna) = s₁ at hinv hstage
    exact ⟨hinv.of_wnds rfl, hstage⟩
  · exact ⟨h.of_wnds rfl, hidle⟩

/-! A packet. -/

private theorem tsockEstablished_cwnd (cfg : TcpCfg) (s : St) (p : Packet) :
    (tsockEstablished cfg s p).tsock.cc.sndCwnd = cfg.cwndInit ∧
      (tsockEstablished cfg s p).tsock.cc.sndCwndOrig = s.tsock.cc.sndCwndOrig ∧
      (tsockEstablished cfg s p).tsock.snd.retransStage = s.tsock.snd.retransStage := by
  have hset : ∀ s₁ : St, ∃ timers ev, (tsockEventAdd (tsockSetState cfg s₁ .established)
      tpaEventOut).tsock = { s₁.tsock with state := .established, timers := timers, ev := ev } := by
    intro s₁
    unfold tsockEventAdd
    dsimp only
    rw [tsockSetState_tsock]
    exact ⟨_, _, rfl⟩
  unfold tsockEstablished
  dsimp only
  generalize hs₁ : tsockRearmTimerKeepalive cfg _ = s₁
  obtain ⟨timers, ev, ht⟩ := hset s₁
  rw [ht, ← hs₁]
  have hrtt := rttUpdate_wndWords cfg
  simp only [wndWords, Prod.mk.injEq] at hrtt
  exact ⟨(hrtt _ _).1, (hrtt _ _).2.1, rfl⟩

private theorem synSentToEstablished_cwnd (cfg : TcpCfg) (s : St) (p : Packet) :
    (synSentToEstablished cfg s p).1.tsock.cc.sndCwnd = cfg.cwndInit ∧
      (synSentToEstablished cfg s p).1.tsock.cc.sndCwndOrig = s.tsock.cc.sndCwndOrig ∧
      (synSentToEstablished cfg s p).1.tsock.snd.retransStage = s.tsock.snd.retransStage := by
  unfold synSentToEstablished
  dsimp only
  obtain ⟨r, hr⟩ : ∃ r, r = processTcpOptNegotiation cfg
    (s.setRcv { s.tsock.rcv with rcvIsn := p.seq, rcvNxt := p.seq + 1 }) p := ⟨_, rfl⟩
  have hold : r.1.tsock.cc.sndCwndOrig = s.tsock.cc.sndCwndOrig ∧ r.1.tsock.snd = s.tsock.snd := by
    rw [hr]
    exact ⟨rfl, rfl⟩
  rw [← hr]
  obtain ⟨hcwnd, horig, hstage⟩ := tsockEstablished_cwnd cfg r.1 r.2
  have hack := RcvFrame.tsockSetAckFlag cfg (tsockEstablished cfg r.1 r.2) true
  generalize tsockEstablished cfg r.1 r.2 = s₂ at hcwnd horig hstage hack
  rw [hack.cc, hack.snd, hcwnd, horig, hstage, hold.1, hold.2]
  exact ⟨rfl, rfl, rfl⟩

structure RecoveryInv (cfg : TcpCfg) (t : TcpSock) : Prop extends CwndInv cfg t where
  early : inHandshake t.state = true → t.snd.retransStage ≠ .fastRetrans

theorem RecoveryInv.beside (h : RecoveryInv cfg s.tsock) (hb : Beside s s') :
    RecoveryInv cfg s'.tsock := by
  refine ⟨h.of_wnds hb.wnds, fun he => ?_⟩
  rw [hb.snd]
  exact h.early (hb.state.early he)

private theorem RecoveryInv.begin (h : RecoveryInv cfg s.tsock)
    (hst : inHandshake s.tsock.state = true) (hw : s'.tsock.cc.sndCwnd = cfg.cwndInit ∧
      s'.tsock.cc.sndCwndOrig = s.tsock.cc.sndCwndOrig ∧
      s'.tsock.snd.retransStage = s.tsock.snd.retransStage) : RecoveryInv cfg s'.tsock := by
  obtain ⟨hcwnd, horig, hstage⟩ := hw
  have hne : s'.tsock.snd.retransStage ≠ .fastRetrans := by
    rw [hstage]
    exact h.early hst
  refine ⟨⟨?_, ?_, fun hs => absurd hs hne⟩, fun _ => hne⟩
  · rw [hcwnd]
    exact cfg.cwndInit_le
  · rw [horig]
    exact h.orig

private theorem AckFits.beside (h : AckFits s.tsock ack) (hb : Beside s s') :
    AckFits s'.tsock ack :=
  ⟨by rw [hb.cc, hb.snd]; exact h.commit, by rw [hb.cc]; exact h.inflate⟩

private theorem RxMove.recovery {s₀ : St}
    (hm : RxMove cfg (fun q => AckFits s₀.tsock q.ack) s true s') (hb : Beside s₀ s)
    (h : RecoveryInv cfg s.tsock) : RecoveryInv cfg s'.tsock := by
  cases hm with
  | passive p _ hst =>
    have hw := tsockEstablished_cwnd cfg s p
    generalize tsockEstablished cfg s p = s₁ at hw
    have hb : RecoveryInv cfg s₁.tsock := h.begin (by rw [hst]; rfl) hw
    exact hb
  | active p _ hst => exact h.begin (by rw [hst]; rfl) (synSentToEstablished_cwnd cfg s p)
  | acked p o hp _ _ hs hr =>
    refine ⟨ackAccepted_wnd o h.toCwndInv (AckFits.beside hp hb), fun he => ?_⟩
    have hlate : inHandshake s.tsock.state = false := by simp [inHandshake, hs, hr]
    rw [ackAccepted_state, ackState_late _ _ hlate] at he
    cases he
  | fast p _ _ _ _ _ _ hidle =>
    obtain ⟨hw, hstage⟩ := fastpath_wnd p h.toCwndInv hidle
    refine ⟨hw, fun _ => ?_⟩
    rw [hstage]
    decide

private theorem RxMoves.recovery {b : Bool}
    (hm : RxMoves cfg (fun q => AckFits s.tsock q.ack) s b s') (h : RecoveryInv cfg s.tsock) :
    RecoveryInv cfg s'.tsock := by
  induction hm with
  | refl => exact h
  | tail _ hm ih => exact ih.beside hm.beside
  | acked hms hm ih => exact hm.recovery hms.beside ih

theorem RxRun.recovery {ps : Option Packet}
    (hr : RxRun cfg (fun q => AckFits s.tsock q.ack) ps s s') (h : RecoveryInv cfg s.tsock) :
    RecoveryInv cfg s'.tsock := by
  cases hr with
  | moves hm => exact hm.recovery h
  | answered p _ ha hm => exact h.beside ((Beside.quiet ha.quiet).trans hm.beside)

end LibTpa
