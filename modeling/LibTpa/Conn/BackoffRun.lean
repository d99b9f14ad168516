/- LibTpa/Conn/BackoffRun
   digest: The intervals of a connection: exact where no bit is lost, and never falling. -/

import LibTpa.Conn.Backoff

set_option autoImplicit false

namespace LibTpa

open Lib.Run

variable {cfg : TcpCfg} {s s' : St} {e : ConnEv}

/-! Packets. -/

/-- What the event hands to `tcp_rcv_process` is a packet of its own, without news. -/
structure Quietly (cfg : TcpCfg) (s : St) (e : ConnEv) : Prop where
  apart : ∀ p ∈ processed cfg s e, s.rxSt.held p.id = 0
  stale : ∀ p ∈ processed cfg s e, ¬ News s.tsock p

instance Quietly.decidable (cfg : TcpCfg) (s : St) (e : ConnEv) : Decidable (Quietly cfg s e) :=
  decidable_of_iff ((∀ p ∈ processed cfg s e, s.rxSt.held p.id = 0) ∧
      ∀ p ∈ processed cfg s e, ¬ News s.tsock p)
    ⟨fun h => ⟨h.1, h.2⟩, fun h => ⟨h.apart, h.stale⟩⟩

private theorem Quietly.likeness (h : Quietly cfg s e) : ∃ p, ¬ News s.tsock p ∧
    Knows cfg (fun q => q.flags = p.flags ∧ q.ack = p.ack) s e := by
  cases hp : processed cfg s e with
  | none =>
    refine ⟨.bare 0 0 0 0 {}, fun hn => absurd hn.1 (by decide), fun q hq => ?_⟩
    rw [hp] at hq
    cases hq
  | some p =>
    refine ⟨p, h.stale p hp, fun q hq r hr => ?_⟩
    rw [hp] at hq
    cases hq
    exact hr.header (h.apart p hp)

private theorem RxRun.inv {ps : Option Packet} {A : Packet → Prop} (h : RxRun cfg A ps s s')
    (hi : BackoffInv cfg s.tsock) : BackoffInv cfg s'.tsock :=
  h.keep (P := fun x => BackoffInv cfg x.tsock)
    (fun _ _ _ ha => (Beside.quiet ha.quiet).sustains.inv) (fun _ _ hm => hm.backoff) hi

private theorem RxRun.stale {ps : Option Packet} {p : Packet} (hn : ¬ News s.tsock p)
    (h : RxRun cfg (fun q => q.flags = p.flags ∧ q.ack = p.ack) ps s s') :
    Stale cfg s.tsock s'.tsock :=
  h.keep (P := fun x => Stale cfg s.tsock x.tsock)
    (fun _ _ _ ha hs => hs.trans (.beside (.quiet ha.quiet)))
    (fun _ _ hm => hm.stale hn) (.refl _)

/-! What no ACK and no retransmission timeout does leaves the windows alone, too. -/

def wnds (t : TcpSock) : U32 × U32 × U16 × RetransStage :=
  (t.cc.sndCwnd, t.cc.sndCwndOrig, t.cc.sndMss, t.snd.retransStage)

theorem Beside.wnds (h : Beside s s') : wnds s'.tsock = wnds s.tsock := by
  rw [LibTpa.wnds, h.cc, h.snd]
  rfl

theorem CcKept.wnds (h : CcKept s s') : wnds s'.tsock = wnds s.tsock := by
  rw [LibTpa.wnds, h.cc, h.stage]
  rfl

structure Coasts (cfg : TcpCfg) (t t' : TcpSock) : Prop extends Sustains cfg t t' where
  wnds : wnds t' = wnds t

namespace Coasts

variable {t t' t'' : TcpSock}

theorem trans (h : Coasts cfg t t') (h' : Coasts cfg t' t'') : Coasts cfg t t'' :=
  ⟨h.toSustains.trans h'.toSustains, h'.wnds.trans h.wnds⟩

theorem same (hs : t'.state = t.state) (hp : pace t'.cc = pace t.cc)
    (hw : LibTpa.wnds t' = LibTpa.wnds t) : Coasts cfg t t' := ⟨.of_pace (.of_eq hs) hp, hw⟩

theorem refl (t : TcpSock) : Coasts cfg t t := same rfl rfl rfl

theorem beside (h : Beside s s') : Coasts cfg s.tsock s'.tsock :=
  ⟨h.sustains, h.wnds⟩

theorem quiet (h : Quiet s s') : Coasts cfg s.tsock s'.tsock := beside (.quiet h)

theorem setFlags (s : St) (f : TsockFlags) : Coasts cfg s.tsock (s.setFlags f).tsock :=
  same rfl rfl rfl

theorem setTimers (s : St) (x : Timers) : Coasts cfg s.tsock (s.setTimers x).tsock :=
  same rfl rfl rfl

theorem setState {st : TcpState} (hp : pace s'.tsock.cc = pace s.tsock.cc)
    (hw : LibTpa.wnds s'.tsock = LibTpa.wnds s.tsock) (ho : Onward s.tsock.state st) :
    Coasts cfg s.tsock (tsockSetState cfg s' st).tsock := by
  refine ⟨.of_pace (by rw [tsockSetState_state]; exact ho) ?_, ?_⟩ <;> rw [tsockSetState_tsock]
  · exact hp
  · exact hw

end Coasts

theorem inputPut_beside (cfg : TcpCfg) (s : St) : Beside s (inputPut (inputAck cfg s)) := by
  have hack : Beside s (inputAck cfg s) := by
    unfold inputAck
    split
    · split
      · exact .quiet (.xmitFlagPacket cfg s)
      · exact .of_eq rfl
    · exact .of_eq rfl
  generalize inputAck cfg s = s₁ at hack
  unfold inputPut
  split
  · have hput : Beside s (s₁.setFlags { s₁.tsock.flags with put := false }) :=
      hack.trans ⟨rfl, rfl, .refl _⟩
    exact hput.trans (.free _)
  · exact hack

/-! Close and output. -/

private theorem closeSwitch_coasts (cfg : TcpCfg) (s : St) :
    Coasts cfg s.tsock (closeSwitch cfg s).tsock := by
  unfold closeSwitch
  split
  · exact .setState rfl rfl (.toClosed _)
  · exact .setState rfl rfl (.toClosed _)
  · next hs => exact .setState rfl rfl (by rw [hs]; exact ⟨by decide, by decide⟩)
  · next hs => exact .setState rfl rfl (by rw [hs]; exact ⟨by decide, by decide⟩)
  · next hs => exact .setState rfl rfl (by rw [hs]; exact ⟨by decide, by decide⟩)
  · exact .refl _

private theorem close_coasts (cfg : TcpCfg) (s : St) :
    Coasts cfg s.tsock (closeIfIssued cfg s).tsock := by
  have honce : Coasts cfg s.tsock (closeOnce cfg s).tsock := by
    unfold closeOnce
    dsimp only
    split
    · exact (Coasts.setFlags s _).trans (closeSwitch_coasts cfg _)
    · have hset : ∀ f, Coasts cfg s.tsock (tsockSetState cfg (s.setFlags f) .closed).tsock :=
        fun f => .setState rfl rfl (.toClosed _)
      exact ((hset _).trans (.setFlags _ _)).trans (.quiet (.xmitFlagPacket cfg _))
  unfold closeIfIssued
  split
  · unfold tcpClose
    split
    · exact .refl _
    dsimp only
    split
    · exact honce.trans (.beside (.free _))
    · exact honce
  · exact .refl _

theorem xmitSyn_coasts (cfg : TcpCfg) (s : St) (hst : inHandshake s.tsock.state = true) :
    Coasts cfg s.tsock (xmitSyn cfg s).tsock := by
  have hready : Coasts cfg s.tsock (synReady s).tsock := by
    have hstate : (synReady s).tsock.state = s.tsock.state := rfl
    have hmax : tcpRtoDefault.toNat ≤ tcpRtoMax := by decide
    refine ⟨⟨.of_eq hstate, fun h => ⟨hmax, fun _ => Nat.le_refl _, h.shift, h.probe⟩,
      fun h => ?_⟩, rfl⟩
    exact ⟨h.early hst, Nat.le_refl _, Nat.le_refl _⟩
  have hsent := hready.trans (.quiet (.xmitFlagPacket cfg (synReady s)))
  have hretry : Coasts cfg s.tsock (retrySyn (xmitFlagPacket cfg (synReady s))).tsock := by
    unfold retrySyn
    split
    · exact hsent
    · exact hsent
  unfold xmitSyn
  dsimp only
  generalize retrySyn (xmitFlagPacket cfg (synReady s)) = s₁ at hretry
  split
  · exact hretry.trans (.setTimers s₁ _)
  · exact hretry

private theorem probe_coasts (cfg : TcpCfg) (s : St) :
    Coasts cfg s.tsock (tcpZeroWndProbe cfg s).tsock := by
  unfold tcpZeroWndProbe
  dsimp only
  split
  · exact .refl _
  obtain ⟨s₁, hs₁⟩ : ∃ s₁, s₁ = (xmitFlagPacketWithSeq cfg (s.setFlags { s.tsock.flags with
    tcp := { s.tsock.flags.tcp with ack := true } }) (s.tsock.snd.sndUna - 1)).2 := ⟨_, rfl⟩
  have hsent : Coasts cfg s.tsock s₁.tsock := by
    rw [hs₁]
    exact (Coasts.setFlags s _).trans (.quiet (.xmitFlagPacketWithSeq cfg _ _))
  rw [← hs₁]
  have hle := cfg.retries_le
  have hshift : (BitVec.ofNat 8 (min (s₁.tsock.cc.zeroWndProbeShift.toNat + 1) cfg.retries)).toNat =
      min (s₁.tsock.cc.zeroWndProbeShift.toNat + 1) cfg.retries := by
    rw [BitVec.toNat_ofNat]
    omega
  refine hsent.trans ⟨⟨.refl _, fun h => ⟨h.rto, h.early, h.shift, ?_⟩,
    fun h => ⟨Nat.le_refl _, Nat.le_refl _, ?_⟩⟩, rfl⟩
  · change (BitVec.ofNat 8 _).toNat ≤ _
    rw [hshift]
    exact Nat.min_le_right _ _
  · change _ ≤ (BitVec.ofNat 8 _).toNat
    have := h.probe
    omega

private theorem xmitData_coasts (cfg : TcpCfg) (s : St) :
    Coasts cfg s.tsock (tcpXmitData cfg s).tsock := by
  have hst := (OutFrame.tcpXmitData cfg s).state
  have hkept := CcKept.doTcpXmitData cfg s (xmitDataCtx s.tsock)
  have hpace := (Steady.of_kept hkept).pace
  have hprobe := probe_coasts cfg s
  unfold tcpXmitData at hst ⊢
  split
  · exact hprobe
  next hw =>
  rw [if_neg hw] at hst
  refine .same hst ?_ ?_ <;> dsimp only <;> split
  · exact hpace
  · exact hpace
  · exact hkept.wnds
  · exact hkept.wnds

private theorem outputFlags_coasts (cfg : TcpCfg) (s : St) :
    Coasts cfg s.tsock (outputFlags cfg s).tsock := by
  have hfin : Coasts cfg s.tsock (requeueOrFin s).tsock := by
    unfold requeueOrFin
    split
    · exact .refl _
    split
    · unfold finReady
      dsimp only
      split <;> exact .same rfl rfl rfl
    · exact .refl _
  unfold outputFlags
  dsimp only
  split
  · exact hfin
  · exact hfin.trans (.quiet (.xmitFlagPacket cfg _))

private theorem output_coasts (cfg : TcpCfg) (s : St) :
    Coasts cfg s.tsock (tcpOutputOne cfg s).tsock := by
  unfold tcpOutputOne
  split
  · exact .refl _
  have hclose := close_coasts cfg s
  dsimp only
  generalize closeIfIssued cfg s = s₁ at hclose
  split
  · exact hclose
  · next hs => exact hclose.trans (xmitSyn_coasts cfg s₁ (by rw [hs]; rfl))
  · next hs => exact hclose.trans (xmitSyn_coasts cfg s₁ (by rw [hs]; rfl))
  · exact (hclose.trans (xmitData_coasts cfg s₁)).trans (outputFlags_coasts cfg _)

/-! Timers. -/

theorem timedOut_closed (cfg : TcpCfg) (s : St) (b : Bool) :
    (timedOut cfg s b).tsock.state = .closed ∧ Beside s (timedOut cfg s b) := by
  have herr : Beside s (s.setErr (some .etimedout)) := ⟨rfl, rfl, .refl _⟩
  have hset := herr.setState cfg (.toClosed _)
  have hst := tsockSetState_state cfg (s.setErr (some .etimedout)) .closed
  unfold timedOut
  dsimp only
  generalize tsockSetState cfg (s.setErr (some .etimedout)) .closed = s₁ at hset hst
  split
  · have hfree := Beside.free s₁
    exact ⟨hfree.state.closed hst, hset.trans hfree⟩
  · exact ⟨hst, hset.trans ⟨rfl, rfl, .refl _⟩⟩

private theorem rtoResend_steady (cfg : TcpCfg) (s : St) :
    Steady s (tcpRetrans cfg (rtoRestart (clearSacked (stampRtoStart s)))) := by
  have hstamp : Steady s (stampRtoStart s) := by
    unfold stampRtoStart
    split
    · split
      · exact .setCc rfl
      · exact .refl s
    · exact .refl s
  have hclear : ∀ s₁ : St, Steady s₁ (clearSacked s₁) := by
    intro s₁
    have ht := clearSacked_tsock s₁
    exact ⟨by rw [ht]; rfl, by rw [ht]⟩
  have hrestart : ∀ s₁ : St, Steady s₁ (rtoRestart s₁) := fun s₁ => ⟨rfl, rfl⟩
  exact ((hstamp.trans (hclear _)).trans (hrestart _)).trans (.of_kept (.tcpRetrans cfg _))

private theorem rtoGivesUp_shift {t : TcpSock} (h : ¬ rtoGivesUp cfg t = true) :
    t.cc.rtoShift.toNat < 255 := by
  have h1 := cfg.retries_le
  have h2 := cfg.synRetries_le
  unfold rtoGivesUp at h
  rw [decide_eq_true_eq, not_le] at h
  split at h <;> omega

private theorem tcpTimeoutRto_pace (cfg : TcpCfg) (s : St) :
    pace (tcpTimeoutRto cfg s).tsock.cc =
        (s.tsock.cc.rto, s.tsock.cc.rtoShift + 1, s.tsock.cc.zeroWndProbeShift) ∧
      ((tcpTimeoutRto cfg s).tsock.state = .closed ∨
        (tcpTimeoutRto cfg s).tsock.state = s.tsock.state ∧
          (s.tsock.cc.rtoShift + 1).toNat < 255) := by
  obtain ⟨s₁, hs₁⟩ : ∃ s₁, s₁ = s.setCc { s.tsock.cc with rtoShift := s.tsock.cc.rtoShift + 1 } :=
    ⟨_, rfl⟩
  have hp : pace s₁.tsock.cc =
      (s.tsock.cc.rto, s.tsock.cc.rtoShift + 1, s.tsock.cc.zeroWndProbeShift) := by
    rw [hs₁]
    rfl
  have hst : s₁.tsock.state = s.tsock.state := by
    rw [hs₁]
    rfl
  unfold tcpTimeoutRto
  dsimp only
  rw [← hs₁, ← hp, ← hst]
  split
  · obtain ⟨hclosed, hb⟩ := timedOut_closed cfg s₁ (decide (s₁.tsock.state = .synRcvd))
    exact ⟨by rw [hb.cc], .inl hclosed⟩
  · next hgo =>
    have hsteady := rtoResend_steady cfg s₁
    have hframe := TxFrame.rtoResend cfg s₁
    refine ⟨hsteady.pace, .inr ⟨hframe.state, ?_⟩⟩
    have hlt := rtoGivesUp_shift hgo
    rw [hs₁] at hlt
    exact hlt

private theorem rto_sustains (cfg : TcpCfg) (s : St) (hc : s.tsock.state ≠ .closed) :
    Sustains cfg s.tsock (tcpTimeoutRto cfg s).tsock := by
  obtain ⟨hp, hst⟩ := tcpTimeoutRto_pace cfg s
  generalize tcpTimeoutRto cfg s = s' at hp hst
  simp only [pace, Prod.mk.injEq] at hp
  obtain ⟨hr, hs, hz⟩ := hp
  have hon : Onward s.tsock.state s'.tsock.state := by
    rcases hst with hst | ⟨hst, -⟩
    · rw [hst]
      exact .toClosed _
    · exact .of_eq hst
  refine ⟨hon, fun h => ⟨by rw [hr]; exact h.rto, fun he => ?_, fun hne => ?_,
    by rw [hz]; exact h.probe⟩,
    fun h => ⟨by rw [hr], ?_, by rw [hz]⟩⟩
  · rw [hr]
    exact h.early (hon.early he)
  · rw [hs]
    exact (hst.resolve_left hne).2
  · have := h.shift hc
    rw [hs, BitVec.toNat_add]
    change _ ≤ (_ + 1) % 2 ^ 8
    omega

private theorem keepalive_coasts (cfg : TcpCfg) (s : St) :
    Coasts cfg s.tsock (tcpTimeoutKeepalive cfg s).tsock := by
  unfold tcpTimeoutKeepalive
  dsimp only
  split
  · exact (Coasts.setTimers s _).trans (.beside (timedOut_closed cfg _ _).2)
  split
  · exact (((Coasts.setTimers s _).trans (.setFlags _ _)).trans
      (.quiet (.xmitFlagPacketWithSeq cfg _ _))).trans (.setTimers _ _)
  · exact .setTimers s _

private theorem tcpTimeout_coasts (cfg : TcpCfg) (s : St) (k : TimerKind) :
    Coasts cfg s.tsock (tcpTimeout cfg s k).tsock ∨ ∃ s₁, Coasts cfg s.tsock s₁.tsock ∧
      s₁.tsock.state ≠ .closed ∧ tcpTimeout cfg s k = tcpTimeoutRto cfg s₁ := by
  unfold tcpTimeout
  split
  · exact .inl (.refl _)
  dsimp only
  split
  · exact .inl (.setTimers s _)
  next hc =>
  have hstop : Coasts cfg s.tsock (s.setTimers (s.tsock.timers.stop k)).tsock := .setTimers s _
  generalize s.setTimers (s.tsock.timers.stop k) = s₁ at hc hstop
  cases k with
  | rto => exact .inr ⟨s₁, hstop, hc, rfl⟩
  | wait => exact .inl ((hstop.trans (.setState rfl rfl (.toClosed _))).trans (.beside (.free _)))
  | keepalive => exact .inl (hstop.trans (keepalive_coasts cfg s₁))

/-! Events. -/

private theorem read_coasts (cfg : TcpCfg) (s : St) (n : Nat) :
    Coasts cfg s.tsock (tsockZreadv s n).2.tsock := by
  unfold tsockZreadv
  split
  · exact .refl _
  dsimp only
  split
  · exact .refl _
  split <;> exact .same rfl rfl rfl

theorem sockStep_coasts (cfg : TcpCfg) (s : St) (e : ConnEv)
    (hp : ∀ p, e ≠ .packet p) (hb : e ≠ .burstEnd) :
    Coasts cfg s.tsock (sockStep cfg s e).tsock ∨ ∃ s₁, Coasts cfg s.tsock s₁.tsock ∧
      s₁.tsock.state ≠ .closed ∧ sockStep cfg s e = tcpTimeoutRto cfg s₁ := by
  cases e with
  | timer k => exact tcpTimeout_coasts cfg s k
  | packet p => exact absurd rfl (hp p)
  | burstEnd => exact absurd rfl hb
  | write iov =>
    have hw := WriteFrame.tsockZwritev cfg s iov
    refine .inl (.same hw.frame.state ?_ ?_)
    · change pace (tsockZwritev cfg s iov).2.tsock.cc = _
      rw [hw.tsock]
    · change wnds (tsockZwritev cfg s iov).2.tsock = _
      rw [wnds, hw.snd, hw.tsock]
      rfl
  | read n => exact .inl (read_coasts cfg s n)
  | dropOoo => exact .inl (.same rfl rfl rfl)
  | close =>
    rw [sockStep]
    unfold tpaClose
    split
    · exact .inl (.refl _)
    · exact .inl (.same rfl rfl rfl)
  | output =>
    rw [sockStep, outputTurn]
    split
    · exact .inl (output_coasts cfg { s with worker := { s.worker with
        output := s.worker.output.erase s.tsock.sid } })
    · exact .inl (.refl _)
  | delayedAck =>
    rw [sockStep, delayedAckTurn, tcpFlushDelayedAck]
    split
    · split
      · exact .inl (.refl _)
      · dsimp only
        unfold xmitDueAck
        split
        · exact .inl (.quiet (.xmitFlagPacket cfg s))
        · exact .inl (.refl _)
    · exact .inl (.refl _)
  | neighReady => exact .inl (.same rfl rfl rfl)
  | env w => exact .inl (.refl _)

theorem sockStep_sustains (cfg : TcpCfg) (s : St) (e : ConnEv)
    (hp : ∀ p, e ≠ .packet p) (hb : e ≠ .burstEnd) :
    Sustains cfg s.tsock (sockStep cfg s e).tsock := by
  rcases sockStep_coasts cfg s e hp hb with h | ⟨s₁, h, hc, heq⟩
  · exact h.toSustains
  · rw [heq]
    exact h.toSustains.trans (rto_sustains cfg s₁ hc)

theorem sockStep_backoff (h : BackoffInv cfg s.tsock) (e : ConnEv) :
    BackoffInv cfg (sockStep cfg s e).tsock := by
  cases e with
  | packet p => exact (inputPacket_run (A := fun _ => True) cfg s p fun _ _ _ _ => trivial).inv h
  | burstEnd =>
    exact (inputPut_beside cfg _).sustains.inv
      ((inputHead_run (A := fun _ => True) cfg s fun _ _ _ _ => trivial).inv h)
  | _ => exact (sockStep_sustains cfg s _ (by simp) (by simp)).inv h

/-- Without news nothing falls. -/
theorem sockStep_climbs (h : BackoffInv cfg s.tsock) (hq : Quietly cfg s e) :
    Climbs s.tsock.cc (sockStep cfg s e).tsock.cc := by
  obtain ⟨p, hn, hk⟩ := hq.likeness
  cases e with
  | packet q => exact ((inputPacket_run cfg s q hk).stale hn).climbs h
  | burstEnd =>
    have hs := ((inputHead_run cfg s hk).stale hn).toSustains
    exact (hs.trans (inputPut_beside cfg _).sustains).climbs h
  | _ => exact (sockStep_sustains cfg s _ (by simp) (by simp)).climbs h

/-! Runs. -/

private theorem BackoffInv.fresh {t : TcpSock} (h : pace t.cc = (0, 0, 0)) : BackoffInv cfg t := by
  simp only [pace, Prod.mk.injEq] at h
  obtain ⟨hr, hs, hp⟩ := h
  refine ⟨?_, fun _ => ?_, fun _ => ?_, ?_⟩
  · rw [hr]
    decide
  · rw [hr]
    decide
  · rw [hs]
    decide
  · rw [hp]
    exact Nat.zero_le _

theorem Opened.backoff (h : Opened cfg s) : BackoffInv cfg s.tsock := by
  cases h with
  | connect w sid isIpv6 => exact .fresh rfl
  | accept w sid isIpv6 p =>
    obtain ⟨b, isn, mss, wscale, nego, ht⟩ :=
      passiveTsockInit_tsock cfg ⟨w, tsockInit cfg sid isIpv6⟩ p
    generalize (passiveTsockInit cfg ⟨w, tsockInit cfg sid isIpv6⟩ p).1 = s₁ at ht
    have h₁ : BackoffInv cfg s₁.tsock := .fresh (by rw [ht]; rfl)
    exact (xmitSyn_coasts cfg s₁ (by rw [ht]; rfl)).inv h₁

theorem backoff_reach {s₀ : St} {c : Conn} (ho : Opened cfg s₀)
    (hr : Reach (connStep cfg) (fun _ _ => True) (Conn.start s₀) c) :
    BackoffInv cfg c.st.tsock := by
  refine hr.invariant (I := fun c => BackoffInv cfg c.st.tsock) ho.backoff fun c e h _ => ?_
  unfold connStep
  split
  · exact h
  · exact sockStep_backoff h e

theorem climbs_reach {c c' : Conn} (h : BackoffInv cfg c.st.tsock)
    (hr : Reach (connStep cfg) (fun c e => Quietly cfg c.st e) c c') :
    BackoffInv cfg c'.st.tsock ∧ Climbs c.st.tsock.cc c'.st.tsock.cc := by
  refine hr.invariant (I := fun x => BackoffInv cfg x.st.tsock ∧ Climbs c.st.tsock.cc x.st.tsock.cc)
    ⟨h, Nat.le_refl _, Nat.le_refl _, Nat.le_refl _⟩ fun x e hx hq => ?_
  unfold connStep
  split
  · exact hx
  · exact ⟨sockStep_backoff hx.1 e, hx.2.trans (sockStep_climbs hx.1 hq)⟩

/-- From `c` to a later `c'` without news in between. Where no bit is lost, the timer is armed
for no less than `rto`, and neither timeouts nor probes come at shorter intervals. -/
structure BacksOff (cfg : TcpCfg) (c c' : Conn) : Prop where
  rearm_least : RearmFits c'.st.tsock.cc → c'.st.tsock.cc.rto.toNat ≤ rearmInterval c'.st
  timeout_least : RtoContinues cfg c'.st → TimeoutFits c'.st.tsock.cc →
    c'.st.tsock.cc.rto.toNat ≤ timeoutInterval cfg c'.st
  timeouts : c'.st.tsock.state ≠ .closed → RtoContinues cfg c.st → RtoContinues cfg c'.st →
    TimeoutFits c'.st.tsock.cc → timeoutInterval cfg c.st ≤ timeoutInterval cfg c'.st
  probes : SpacingFits c'.st.tsock.cc → ∀ d, ProbesApart cfg c.st.tsock.cc d →
    ProbesApart cfg c'.st.tsock.cc d

theorem patientRetries_le : 255 ≤ 255 := Nat.le_refl _

def patientCfg : TcpCfg := { synRetries := 255, synRetries_le := patientRetries_le }

def dialing : St :=
  tcpConnect ⟨Worker.boot 0 { allocOk := [true], ethOk := [true] }, tsockInit patientCfg 0 false⟩

def unanswered (n : Nat) : List ConnEv := .output :: List.replicate n (.timer .rto)

end LibTpa
