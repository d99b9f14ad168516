/- LibTpa/Snd/Backoff
   digest: The intervals of the retransmission timer and of window probes. -/

import LibTpa.Output.FlagPacket
import LibTpa.Snd.PacketSize
import LibTpa.Sock.Timeout

/-!
The code shifts the 32-bit `rto` and caps the result afterwards, or not at all. The
interval it means is the capped product over the naturals; the two agree as long as no
bit is lost above the cap.
-/

set_option autoImplicit false

namespace LibTpa

/-- `min(TCP_RTO_MAX, rto * 2^shift)`, computed without overflow. -/
def backoff (rto : U32) (shift : Nat) : Nat := min tcpRtoMax (rto.toNat * 2 ^ shift)

def nextShift (c : Cc) : Nat := (c.rtoShift + 1).toNat

/-- The expression that `tcp_timeout_rto` hands to `timer_start`. -/
def cappedRto (c : Cc) : Nat := min tcpRtoMax (c.rto <<< nextShift c).toNat

def armedFor (now : Nat) (timer : Option Nat) : Nat := timer.getD now - now

/-- The interval that `tsock_rearm_timer_rto` arms the timer with. -/
def rearmInterval (s : St) : Nat :=
  armedFor s.worker.tsUs (tsockRearmTimerRto s).tsock.timers.rto

/-- The interval that `tcp_timeout_rto` arms the timer with. -/
def timeoutInterval (cfg : TcpCfg) (s : St) : Nat :=
  armedFor s.worker.tsUs (tcpTimeoutRto cfg s).tsock.timers.rto

/-- Less than `d` microseconds behind its last packet, no socket with these intervals sends a
window probe. -/
def ProbesApart (cfg : TcpCfg) (c : Cc) (d : Nat) : Prop :=
  ∀ s : St, s.tsock.cc = c → usSince s.worker.tsUs s.tsock.lastSndPkt < d →
    (tcpZeroWndProbe cfg s).tsock.emitted = s.tsock.emitted

def RearmExact (s : St) : Prop :=
  (tsockRearmTimerRto s).tsock.timers.rto =
    timerStart s.worker.tsUs (backoff s.tsock.cc.rto s.tsock.cc.rtoShift.toNat)

def TimeoutExact (cfg : TcpCfg) (s : St) : Prop :=
  (tcpTimeoutRto cfg s).tsock.timers.rto =
    timerStart s.worker.tsUs (backoff s.tsock.cc.rto (nextShift s.tsock.cc))

instance (s : St) : Decidable (RearmExact s) := inferInstanceAs (Decidable (_ = _))
instance (cfg : TcpCfg) (s : St) : Decidable (TimeoutExact cfg s) :=
  inferInstanceAs (Decidable (_ = _))

/-- A timeout that does not give up. -/
def RtoContinues (cfg : TcpCfg) (s : St) : Prop :=
  rtoGivesUp cfg (s.setCc { s.tsock.cc with rtoShift := s.tsock.cc.rtoShift + 1 }).tsock = false

instance (cfg : TcpCfg) (s : St) : Decidable (RtoContinues cfg s) :=
  inferInstanceAs (Decidable (_ = _))

/-- The product stays below the cap, or is the cap in its low 32 bits. -/
def RearmFits (c : Cc) : Prop :=
  c.rto.toNat * 2 ^ c.rtoShift.toNat ≤ tcpRtoMax ∨
    c.rto.toNat * 2 ^ c.rtoShift.toNat % 2 ^ 32 = tcpRtoMax

/-- The product has 32 bits, or its low 32 bits are above the cap. -/
def TimeoutFits (c : Cc) : Prop :=
  c.rto.toNat * 2 ^ nextShift c < 2 ^ 32 ∨ tcpRtoMax ≤ c.rto.toNat * 2 ^ nextShift c % 2 ^ 32

def SpacingFits (c : Cc) : Prop := c.rto.toNat * 2 ^ c.zeroWndProbeShift.toNat < 2 ^ 32

instance (c : Cc) : Decidable (RearmFits c) := inferInstanceAs (Decidable (_ ∨ _))
instance (c : Cc) : Decidable (TimeoutFits c) := inferInstanceAs (Decidable (_ ∨ _))
instance (c : Cc) : Decidable (SpacingFits c) := inferInstanceAs (Decidable (_ < _))

/-! Words and products. -/

private theorem toNat_shift (x : U32) (n : Nat) : (x <<< n).toNat = x.toNat * 2 ^ n % 2 ^ 32 := by
  rw [BitVec.toNat_shiftLeft, Nat.shiftLeft_eq]

private theorem timerStart_inj {now a b : Nat} :
    timerStart now a = timerStart now b ↔ max a 1 = max b 1 := by
  unfold timerStart
  rw [Option.some.injEq]
  omega

theorem rearmExact_iff (s : St) : RearmExact s ↔ RearmFits s.tsock.cc := by
  unfold RearmExact RearmFits backoff
  change timerStart _ (s.tsock.cc.rto <<< s.tsock.cc.rtoShift.toNat).toNat = _ ↔ _
  rw [timerStart_inj, toNat_shift]
  generalize s.tsock.cc.rto.toNat * 2 ^ s.tsock.cc.rtoShift.toNat = n
  have hmax : tcpRtoMax = 120000000 := rfl
  rw [hmax]
  omega

/-! The timer survives the retransmission. -/

private theorem devPortTxqEnqueue_timers (s : St) (pkt : TxPacket) :
    (devPortTxqEnqueue s pkt).2.tsock.timers = s.tsock.timers := by
  unfold devPortTxqEnqueue
  split <;> rfl

private theorem xmitAttached_timers (cfg : TcpCfg) (s : St) (c : XmitCtx) (a : XmitAcc) :
    (xmitAttached cfg s c a).2.1.tsock.timers = s.tsock.timers := by
  unfold xmitAttached
  split
  · rfl
  · have h := devPortTxqEnqueue_timers (afterPrepend s tcpFlagAck)
      (buildPacket cfg s (c.seq - a.size) tcpFlagAck a.payload a.retransmit)
    dsimp only [prependTcpHdr]
    split <;> next heq => rw [heq] at h; exact h

private theorem xmitOnePacket_timers (cfg : TcpCfg) (s : St) (c : XmitCtx) :
    (xmitOnePacket cfg s c).2.1.tsock.timers = s.tsock.timers := by
  unfold xmitOnePacket
  split
  · rfl
  next d c' _ =>
  have ht := (Marked.packetAlloc s).tsock
  split
  · next s₁ h1 =>
    rw [h1] at ht
    exact congrArg TcpSock.timers ht
  next s₁ h1 =>
  rw [h1] at ht
  dsimp only at ht ⊢
  have hsame := Marked.attachLoop cfg cfg.pktMaxChain s₁ c'
    { payload := [], nbSegs := 1, retransmit := false, size := 0
      budget := min c'.budget (tsockSndMss s₁.tsock), err := none } d
  generalize attachLoop cfg cfg.pktMaxChain s₁ c' _ d = r at hsame ⊢
  rw [xmitAttached_timers, hsame.tsock, ht]

private theorem xmitLoop_timers (cfg : TcpCfg) (n : Nat) : ∀ (s : St) (c : XmitCtx) (size : Nat),
    (xmitLoop cfg n s c size).1.tsock.timers = s.tsock.timers := by
  induction n with
  | zero =>
    intro s c size
    rfl
  | succ n ih =>
    intro s c size
    have h := xmitOnePacket_timers cfg s c
    unfold xmitLoop
    split
    · split
      · next heq =>
        rw [heq] at h
        exact h
      · next heq =>
        rw [heq] at h
        exact (ih ..).trans h
    · rfl

private theorem doTcpXmitData_timers (cfg : TcpCfg) (s : St) (c : XmitCtx)
    (h : s.tsock.timers.rto ≠ none) : (doTcpXmitData cfg s c).1.tsock.timers = s.tsock.timers := by
  unfold doTcpXmitData
  have hloop := xmitLoop_timers cfg (min (devPortTxqFreeCount s.worker) batchSize) s c 0
  generalize xmitLoop cfg (min (devPortTxqFreeCount s.worker) batchSize) s c 0 = r at hloop
  dsimp only
  split
  · change (dataSent r.1).tsock.timers = _
    unfold dataSent
    rw [if_neg (by rw [hloop]; exact h)]
    exact hloop
  · exact hloop

private theorem tcpRetrans_timers (cfg : TcpCfg) (s : St) (h : s.tsock.timers.rto ≠ none) :
    (tcpRetrans cfg s).tsock.timers = s.tsock.timers := by
  have hreg : (regulateRetrans s).tsock.timers = s.tsock.timers := by
    unfold regulateRetrans
    dsimp only
    split <;> rfl
  unfold tcpRetrans
  dsimp only
  generalize regulateRetrans s = s₁ at hreg
  unfold doTcpRetrans
  exact (doTcpXmitData_timers cfg s₁ _ (by rw [hreg]; exact h)).trans hreg

private theorem stampRtoStart_kept (s : St) :
    (stampRtoStart s).tsock.cc.rto = s.tsock.cc.rto ∧
      (stampRtoStart s).tsock.cc.rtoShift = s.tsock.cc.rtoShift ∧
      (stampRtoStart s).worker.tsUs = s.worker.tsUs := by
  unfold stampRtoStart
  split
  · split <;> exact ⟨rfl, rfl, rfl⟩
  · exact ⟨rfl, rfl, rfl⟩

theorem tcpTimeoutRto_timer (cfg : TcpCfg) (s : St)
    (hgo : RtoContinues cfg s) :
    (tcpTimeoutRto cfg s).tsock.timers.rto =
      timerStart s.worker.tsUs (cappedRto s.tsock.cc) := by
  unfold tcpTimeoutRto
  dsimp only
  rw [if_neg (by rw [RtoContinues] at hgo; rw [hgo]; decide)]
  obtain ⟨hrto, hshift, hnow⟩ := stampRtoStart_kept
    (s.setCc { s.tsock.cc with rtoShift := s.tsock.cc.rtoShift + 1 })
  generalize stampRtoStart _ = s₁ at hrto hshift hnow
  have ht := clearSacked_tsock s₁
  have hw := clearSacked_tsUs s₁
  generalize clearSacked s₁ = s₂ at ht hw
  have harm : (rtoRestart s₂).tsock.timers.rto = timerStart s₂.worker.tsUs
      (min tcpRtoMax (s₂.tsock.cc.rto <<< s₂.tsock.cc.rtoShift.toNat).toNat) := rfl
  have hsome : (rtoRestart s₂).tsock.timers.rto ≠ none := by
    rw [harm]
    exact Option.some_ne_none _
  change (tcpRetrans cfg (rtoRestart s₂)).tsock.timers.rto = _
  rw [tcpRetrans_timers cfg _ hsome, harm, ht, hw, hnow]
  change timerStart _ (min _ (s₁.tsock.cc.rto <<< s₁.tsock.cc.rtoShift.toNat).toNat) = _
  rw [hrto, hshift]
  rfl

theorem timeoutExact_iff (cfg : TcpCfg) (s : St)
    (hgo : RtoContinues cfg s) :
    TimeoutExact cfg s ↔ TimeoutFits s.tsock.cc := by
  unfold TimeoutExact TimeoutFits backoff
  rw [tcpTimeoutRto_timer cfg s hgo, timerStart_inj, cappedRto, toNat_shift]
  generalize s.tsock.cc.rto.toNat * 2 ^ nextShift s.tsock.cc = n
  have hmax : tcpRtoMax = 120000000 := rfl
  rw [hmax]
  omega

/-! Larger `rto` and larger shifts mean larger intervals. -/

theorem backoff_mono {rto rto' : U32} {n n' : Nat} (hr : rto.toNat ≤ rto'.toNat) (hn : n ≤ n') :
    rto.toNat * 2 ^ n ≤ rto'.toNat * 2 ^ n' :=
  Nat.mul_le_mul hr (Nat.pow_le_pow_right (by decide) hn)

theorem le_backoff {rto : U32} (h : rto.toNat ≤ tcpRtoMax) (n : Nat) :
    rto.toNat ≤ backoff rto n := by
  have : rto.toNat * 1 ≤ rto.toNat * 2 ^ n := Nat.mul_le_mul_left _ Nat.one_le_two_pow
  unfold backoff
  omega

theorem armedFor_timerStart (now d : Nat) : armedFor now (timerStart now d) = max d 1 :=
  Nat.add_sub_cancel_left ..

theorem le_rearmInterval (s : St) (hr : s.tsock.cc.rto.toNat ≤ tcpRtoMax)
    (hf : RearmFits s.tsock.cc) : s.tsock.cc.rto.toNat ≤ rearmInterval s := by
  have hle := le_backoff hr s.tsock.cc.rtoShift.toNat
  have hexact : RearmExact s := (rearmExact_iff s).mpr hf
  rw [rearmInterval, hexact, armedFor_timerStart]
  omega

theorem le_timeoutInterval (cfg : TcpCfg) (s : St) (hr : s.tsock.cc.rto.toNat ≤ tcpRtoMax)
    (hgo : RtoContinues cfg s) (hf : TimeoutFits s.tsock.cc) :
    s.tsock.cc.rto.toNat ≤ timeoutInterval cfg s := by
  have hle := le_backoff hr (nextShift s.tsock.cc)
  have hexact : TimeoutExact cfg s := (timeoutExact_iff cfg s hgo).mpr hf
  rw [timeoutInterval, hexact, armedFor_timerStart]
  omega

private theorem cappedRto_mono {c c' : Cc} (hr : c.rto.toNat ≤ c'.rto.toNat)
    (hn : nextShift c ≤ nextShift c') (hf : TimeoutFits c') : cappedRto c ≤ cappedRto c' := by
  have hle := backoff_mono hr hn
  have hmod := Nat.mod_le (c.rto.toNat * 2 ^ nextShift c) (2 ^ 32)
  unfold cappedRto
  rw [toNat_shift, toNat_shift]
  rcases hf with hlt | hcap
  · rw [Nat.mod_eq_of_lt hlt]
    omega
  · omega

theorem timeoutInterval_mono (cfg : TcpCfg) {s s' : St} (hgo : RtoContinues cfg s)
    (hgo' : RtoContinues cfg s') (hr : s.tsock.cc.rto.toNat ≤ s'.tsock.cc.rto.toNat)
    (hn : nextShift s.tsock.cc ≤ nextShift s'.tsock.cc) (hf : TimeoutFits s'.tsock.cc) :
    timeoutInterval cfg s ≤ timeoutInterval cfg s' := by
  have hle := cappedRto_mono hr hn hf
  unfold timeoutInterval
  rw [tcpTimeoutRto_timer cfg s hgo, tcpTimeoutRto_timer cfg s' hgo', armedFor_timerStart,
    armedFor_timerStart]
  omega

/-! Window probes. -/

private theorem tcpZeroWndProbe_emitted (cfg : TcpCfg) (s : St) :
    (tcpZeroWndProbe cfg s).tsock.emitted = s.tsock.emitted ↔ ProbeEarly s ∨ ¬ FlagGoes s := by
  unfold tcpZeroWndProbe
  split
  · next hearly => exact ⟨fun _ => .inl hearly, fun _ => rfl⟩
  next hdue =>
  have hsent := xmitFlagPacketWithSeq_emitted cfg (s.setFlags { s.tsock.flags with
    tcp := { s.tsock.flags.tcp with ack := true } }) (s.tsock.snd.sndUna - 1)
  have hgoes : FlagGoes (s.setFlags { s.tsock.flags with
      tcp := { s.tsock.flags.tcp with ack := true } }) ↔ FlagGoes s := Iff.rfl
  change (xmitFlagPacketWithSeq cfg _ _).2.tsock.emitted = _ ↔ _
  rw [hsent]
  by_cases hg : FlagGoes s
  · rw [if_pos (hgoes.mpr hg)]
    refine ⟨fun h => absurd (congrArg List.length h) (by simp [St.setFlags]), fun h => ?_⟩
    exact absurd hg (h.resolve_left hdue)
  · rw [if_neg (fun h => hg (hgoes.mp h)), List.append_nil]
    exact ⟨fun _ => .inr hg, fun _ => rfl⟩

private def readyToProbe (cfg : TcpCfg) (c : Cc) (now : Nat) : St where
  worker := { Worker.boot 0 { allocOk := [true] } with tsUs := now }
  tsock := { tsockInit cfg 0 false with cc := c, netHdrLen := 34, lastSndPkt := 0 }

theorem probesApart_iff (cfg : TcpCfg) (c : Cc) (d : Nat) :
    ProbesApart cfg c d ↔ d ≤ probeSpacing c := by
  constructor
  · intro h
    by_contra hlt
    have hnow : usSince (probeSpacing c) 0 = probeSpacing c := by
      have hsmall : probeSpacing c < 2 ^ 32 := BitVec.isLt _
      unfold usSince
      rw [BitVec.sub_zero, BitVec.toNat_ofNat, Nat.mod_eq_of_lt (by omega)]
    have hsilent := h (readyToProbe cfg c (probeSpacing c)) rfl (by
      change usSince (probeSpacing c) 0 < d
      omega)
    rcases (tcpZeroWndProbe_emitted cfg _).mp hsilent with hearly | hstuck
    · change usSince (probeSpacing c) 0 < probeSpacing c at hearly
      omega
    · exact hstuck ⟨by change 34 ≠ 0; decide, rfl, nofun, fun _ => by change 0 < txqBufSize; decide⟩
  · rintro h s rfl hlt
    exact (tcpZeroWndProbe_emitted cfg s).mpr (.inl (Nat.lt_of_lt_of_le hlt h))

theorem probeSpacing_mono {c c' : Cc} (hr : c.rto.toNat ≤ c'.rto.toNat)
    (hn : c.zeroWndProbeShift.toNat ≤ c'.zeroWndProbeShift.toNat) (hf : SpacingFits c') :
    probeSpacing c ≤ probeSpacing c' := by
  have hle := backoff_mono hr hn
  have hmod := Nat.mod_le (c.rto.toNat * 2 ^ c.zeroWndProbeShift.toNat) (2 ^ 32)
  unfold probeSpacing
  rw [toNat_shift, toNat_shift, Nat.mod_eq_of_lt hf]
  omega

end LibTpa
