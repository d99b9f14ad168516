/- LibTpa/Conn/ControlRun
   digest: Control segments carry the right numbers where no foreign flag is pending. -/

import LibTpa.Conn.Control

set_option autoImplicit false

namespace LibTpa

open Lib.Run

variable {cfg : TcpCfg} {s s' : St} {e : ConnEv} {seq : U32}

def CloseDue (s : St) : Prop :=
  s.tsock.closeIssued = true ∧ s.tsock.flags.closeProcessed = false

instance CloseDue.decidable (s : St) : Decidable (CloseDue s) :=
  inferInstanceAs (Decidable (_ ∧ _))

def ProbeDue (s : St) : Prop :=
  s.tsock.state ≠ .closed ∧ s.tsock.state ≠ .synSent ∧ s.tsock.state ≠ .synRcvd ∧
    minWnd s.tsock.cc = 0 ∧ ¬ ProbeEarly s

instance ProbeDue.decidable (s : St) : Decidable (ProbeDue s) :=
  inferInstanceAs (Decidable (_ ∧ _))

/-- The number of a probe, `snd_una - 1`, is that of every flag that is pending. -/
def ProbeFits (t : TcpSock) : Prop :=
  (t.flags.tcp.syn = true → t.snd.sndUna - 1 = t.snd.sndIsn) ∧
    (t.flags.tcp.fin = true → t.snd.sndUna - 1 = t.snd.dataSeqNxt)

instance ProbeFits.decidable (t : TcpSock) : Decidable (ProbeFits t) :=
  inferInstanceAs (Decidable (_ ∧ _))

/-- A close with a SYN pending sends neither a FIN nor a reset. -/
def ClosesBare (s : St) : Prop :=
  s.tsock.rcv.rxq.isEmpty = true ∧ s.tsock.state ≠ .synRcvd ∧ s.tsock.state ≠ .established ∧
    s.tsock.state ≠ .closeWait

instance ClosesBare.decidable (s : St) : Decidable (ClosesBare s) :=
  inferInstanceAs (Decidable (_ ∧ _))

/-- What is pending goes with what the turn sends: no RST with a new SYN, no SYN with the
reset or the FIN of a close, and neither SYN nor FIN with a probe of another number. -/
def OutputFits (s : St) : Prop :=
  (s.tsock.state = .synSent ∨ s.tsock.state = .synRcvd → ¬ CloseDue s →
    s.tsock.flags.tcp.rst = false) ∧
  (s.tsock.flags.tcp.syn = true → CloseDue s → ClosesBare s) ∧
  (s.tsock.flags.tcp.syn = true → s.tsock.state ≠ .closed → s.tsock.flags.finPending = false) ∧
  (ProbeDue s → ProbeFits s.tsock)

instance OutputFits.decidable (s : St) : Decidable (OutputFits s) :=
  inferInstanceAs (Decidable (_ ∧ _))

/-- The flags that are pending go with what the event sends. -/
def FlagsFit (cfg : TcpCfg) (s : St) : ConnEv → Prop
  | .packet p => ∀ q ∈ processed cfg s (.packet p), Resets s q → s.tsock.flags.tcp.syn = false
  | .burstEnd => ∀ q ∈ processed cfg s .burstEnd, Resets s q → s.tsock.flags.tcp.syn = false
  | .output => OutputFits s
  | .timer .keepalive => s.tsock.state = .established → ProbeFits s.tsock
  | _ => True

instance FlagsFit.decidable (cfg : TcpCfg) (s : St) (e : ConnEv) : Decidable (FlagsFit cfg s e) :=
  match e with
  | .packet _ | .burstEnd | .output | .timer .keepalive => by
    unfold FlagsFit
    infer_instance
  | .write _ | .read _ | .dropOoo | .close | .delayedAck | .timer .rto | .timer .wait
  | .neighReady | .env _ => isTrue trivial

namespace ControlInv

/-! Close. -/

private theorem closing {st : TcpState} (h : ControlInv s) (cfg : TcpCfg) (b : Bool)
    (hsh : st.shut = true) :
    ControlInv (tsockSetState cfg ((s.setSnd { s.tsock.snd with closedAtSynRcvd := b }).setFlags
      { s.tsock.flags with finPending := true }) st) := by
  have ht := tsockSetState_tsock cfg ((s.setSnd { s.tsock.snd with closedAtSynRcvd := b }).setFlags
    { s.tsock.flags with finPending := true }) st
  generalize tsockSetState cfg _ st = s' at ht
  rw [show s' = ⟨s'.worker, s'.tsock⟩ from rfl, ht]
  exact ⟨fun _ => hsh, h.all, h.syn, h.fin, h.sentSyn, h.sentFin⟩

theorem closeSwitch (h : ControlInv s) (cfg : TcpCfg) : ControlInv (closeSwitch cfg s) := by
  unfold LibTpa.closeSwitch
  split
  · exact h.setState cfg .closed fun _ => rfl
  · exact h.setState cfg .closed fun _ => rfl
  · exact h.closing cfg true rfl
  · exact h.closing cfg s.tsock.snd.closedAtSynRcvd rfl
  · exact h.closing cfg s.tsock.snd.closedAtSynRcvd rfl
  · exact h

theorem closeUnread (h : ControlInv s) (cfg : TcpCfg) (hsyn : s.tsock.flags.tcp.syn = false) :
    ControlInv (closeUnread cfg s) := by
  have h₁ := h.setState cfg .closed fun _ => rfl
  have ht := tsockSetState_tsock cfg s .closed
  unfold LibTpa.closeUnread
  exact (h₁.setRst (by rw [ht]; exact hsyn) true).flags cfg

end ControlInv

structure TurnFits (s : St) : Prop where
  rst : s.tsock.state = .synSent ∨ s.tsock.state = .synRcvd → s.tsock.flags.tcp.rst = false
  fin : s.tsock.flags.tcp.syn = true → s.tsock.flags.finPending = false
  probe : ProbeDue s → ProbeFits s.tsock

private theorem closeSwitch_fits (cfg : TcpCfg) (h : ControlInv s)
    (hsyn : s.tsock.flags.tcp.syn = true → ClosesBare s)
    (hfin : s.tsock.flags.tcp.syn = true → s.tsock.state ≠ .closed →
      s.tsock.flags.finPending = false) (hprobe : ProbeDue s → ProbeFits s.tsock) :
    (closeSwitch cfg s).tsock.state = .closed ∨ TurnFits (closeSwitch cfg s) := by
  have hgo : ∀ (s' : St), s'.tsock.state.shut = true → s'.tsock.flags.tcp = s.tsock.flags.tcp →
      ¬ ClosesBare s → s.tsock.state.shut = false → TurnFits s' := by
    intro s' hst htcp hno hsh
    have hs : s.tsock.flags.tcp.syn = false := Bool.eq_false_iff.mpr fun hb => hno (hsyn hb)
    refine ⟨fun hor => ?_, fun hb => ?_, fun _ => ⟨fun hb => ?_, fun hb => ?_⟩⟩
    · rcases hor with hor | hor <;> rw [hor] at hst <;> cases hst
    · simp [htcp, hs] at hb
    · simp [htcp, hs] at hb
    · simp [htcp, h.early_fin hsh] at hb
  unfold closeSwitch
  split
  · exact .inl (tsockSetState_state ..)
  · exact .inl (tsockSetState_state ..)
  · next hs =>
    refine .inr (hgo _ (by rw [tsockSetState_state]; rfl) (by rw [tsockSetState_tsock]; rfl) ?_
      (by rw [hs]; rfl))
    exact fun hb => hb.2.1 hs
  · next hs =>
    refine .inr (hgo _ (by rw [tsockSetState_state]; rfl) (by rw [tsockSetState_tsock]; rfl) ?_
      (by rw [hs]; rfl))
    exact fun hb => hb.2.2.1 hs
  · next hs =>
    refine .inr (hgo _ (by rw [tsockSetState_state]; rfl) (by rw [tsockSetState_tsock]; rfl) ?_
      (by rw [hs]; rfl))
    exact fun hb => hb.2.2.2 hs
  · next hss hsr _ _ =>
    by_cases hc : s.tsock.state = .closed
    · exact .inl hc
    · refine .inr ⟨fun hor => ?_, fun hb => hfin hb hc, hprobe⟩
      rcases hor with hor | hor
      · exact absurd hor hss
      · exact absurd hor hsr

private theorem closeOnce_fits (cfg : TcpCfg) (h : ControlInv s) (hf : OutputFits s)
    (hdue : CloseDue s) : ControlInv (closeOnce cfg s) ∧
      ((closeOnce cfg s).tsock.state = .closed ∨ TurnFits (closeOnce cfg s)) := by
  obtain ⟨-, hclose, hfin, hprobe⟩ := hf
  have h₁ : ControlInv (s.setFlags { s.tsock.flags with closeProcessed := true }) :=
    h.same rfl rfl rfl (.of_eq rfl rfl)
  unfold closeOnce
  dsimp only
  split
  · exact ⟨h₁.closeSwitch cfg, closeSwitch_fits cfg h₁ (fun hb => hclose hb hdue) hfin hprobe⟩
  · next hrx =>
    have hsyn : s.tsock.flags.tcp.syn = false :=
      Bool.eq_false_iff.mpr fun hb => hrx (hclose hb hdue).1
    refine ⟨h₁.closeUnread cfg hsyn, .inl ?_⟩
    exact (Quiet.xmitFlagPacket cfg _).frame.state.trans (tsockSetState_state ..)

private theorem closeIfIssued_fits (cfg : TcpCfg) (h : ControlInv s) (hf : OutputFits s) :
    ControlInv (closeIfIssued cfg s) ∧
      ((closeIfIssued cfg s).tsock.state = .closed ∨ TurnFits (closeIfIssued cfg s)) := by
  by_cases hdue : CloseDue s
  · obtain ⟨h₁, hor⟩ := closeOnce_fits cfg h hf hdue
    rw [closeIfIssued, if_pos hdue.1, tcpClose, if_neg (by simp [hdue.2])]
    dsimp only
    split
    · next hc =>
      refine ⟨h₁.free, .inl ?_⟩
      obtain ⟨rcv, timers, ht⟩ := tsockFree_tsock (closeOnce cfg s)
      rw [ht]
      exact hc
    · exact ⟨h₁, hor⟩
  · have hsame : closeIfIssued cfg s = s := by
      unfold closeIfIssued tcpClose
      split
      · next hi => rw [if_pos (by simpa [CloseDue, hi] using hdue)]
      · rfl
    rw [hsame]
    refine ⟨h, ?_⟩
    by_cases hc : s.tsock.state = .closed
    · exact .inl hc
    · exact .inr ⟨fun hor => hf.1 hor hdue, fun hb => hf.2.2.1 hb hc, hf.2.2.2⟩

/-! Output. -/

namespace ControlInv

private theorem synReady (h : ControlInv s) (hst : s.tsock.state.shut = false)
    (hr : s.tsock.flags.tcp.rst = false) : ControlInv (synReady s) := by
  have hsent := (h.early hst).1
  have hpend : (LibTpa.synReady s).tsock.flags.finPending = s.tsock.flags.finPending := by
    dsimp only [LibTpa.synReady, tsockInitNetHdr, St.setFlags, St.setCc, St.setSnd]
    split <;> rfl
  have htcp : ∀ a, a = (LibTpa.synReady s).tsock.flags.tcp.ack →
      (LibTpa.synReady s).tsock.flags.tcp = { s.tsock.flags.tcp with syn := true, ack := a } := by
    rintro a rfl
    dsimp only [LibTpa.synReady, tsockInitNetHdr, St.setFlags, St.setCc, St.setSnd]
    split <;> rfl
  constructor
  · rw [hpend]
    exact h.shut
  · exact fun hf => absurd (show s.tsock.snd.finSent = true from hf) (by simp [hsent])
  · rw [htcp _ rfl]
    exact fun _ => ⟨hr, h.early_fin hst⟩
  · rw [htcp _ rfl]
    exact h.fin
  · exact h.sentSyn
  · intro q hq hf
    have hs := (h.sentFin q hq hf).2
    simp [hsent] at hs

theorem xmitSyn (h : ControlInv s) (cfg : TcpCfg) (hst : s.tsock.state.shut = false)
    (hr : s.tsock.flags.tcp.rst = false) : ControlInv (xmitSyn cfg s) := by
  have h₁ := (h.synReady hst hr).flags cfg
  have h₂ : ControlInv (retrySyn (xmitFlagPacket cfg (LibTpa.synReady s))) := by
    unfold retrySyn
    split
    · exact h₁.of_tsock rfl
    · exact h₁
  unfold LibTpa.xmitSyn
  dsimp only
  split
  · exact h₂.tx (.setTimers ..)
  · exact h₂

private theorem probe (h : ControlInv s) (cfg : TcpCfg) (hf : ProbeFits s.tsock) :
    ControlInv (xmitFlagPacketWithSeq cfg (s.setFlags { s.tsock.flags with
      tcp := { s.tsock.flags.tcp with ack := true } }) (s.tsock.snd.sndUna - 1)).2 := by
  have h₁ : ControlInv (s.setFlags { s.tsock.flags with
      tcp := { s.tsock.flags.tcp with ack := true } }) := h.same rfl rfl rfl (.of_ack rfl true rfl)
  exact h₁.send cfg _ hf.1 hf.2

end ControlInv

private theorem xmitFlagPacketWithSeq_syn (cfg : TcpCfg) (s : St) (seq : U32)
    (hb : (xmitFlagPacketWithSeq cfg s seq).2.tsock.flags.tcp.syn = true) :
    s.tsock.flags.tcp.syn = true := by
  have hcase := xmitFlagPacketWithSeq_cases cfg s seq
  generalize (xmitFlagPacketWithSeq cfg s seq).2 = s' at hcase hb
  cases hcase with
  | headless => cases hb
  | dry =>
    rw [packetAlloc_tsock] at hb
    exact hb
  | refused _ _ _ _ hr =>
    rw [hr.tcp] at hb
    exact hb
  | sent _ _ _ ht =>
    rw [ht] at hb
    cases hb

private theorem tcpXmitData_control (cfg : TcpCfg) (h : ControlInv s)
    (hp : minWnd s.tsock.cc = 0 → ¬ ProbeEarly s → ProbeFits s.tsock) :
    ControlInv (tcpXmitData cfg s) ∧
      ((tcpXmitData cfg s).tsock.flags.tcp.syn = true → s.tsock.flags.tcp.syn = true) := by
  by_cases hw : minWnd s.tsock.cc = 0
  · rw [tcpXmitData, if_pos hw, tcpZeroWndProbe]
    dsimp only
    split
    · exact ⟨h, id⟩
    · next hlt =>
      have h₁ := h.probe cfg (hp hw hlt)
      have hsyn := xmitFlagPacketWithSeq_syn cfg (s.setFlags { s.tsock.flags with
        tcp := { s.tsock.flags.tcp with ack := true } }) (s.tsock.snd.sndUna - 1)
      exact ⟨h₁.tx (.setCc ..), hsyn⟩
  · have hf := TxFrame.tcpXmitData cfg s hw
    exact ⟨h.tx hf, hf.texts.bare.syn⟩

private theorem finReady_control (h : ControlInv s) (hp : s.tsock.flags.finPending = true)
    (hall : s.tsock.snd.txq.nxt = s.tsock.snd.txq.write) (hsyn : s.tsock.flags.tcp.syn = false) :
    ControlInv (finReady s) := by
  unfold finReady
  dsimp only
  split
  all_goals
    refine ⟨fun _ => h.shut (.inr hp), fun _ => ⟨rfl, hall⟩, fun hb => ?_, fun _ => rfl, h.sentSyn,
      fun q hq hf => ⟨(h.sentFin q hq hf).1, rfl⟩⟩
    have hb' : s.tsock.flags.tcp.syn = true := hb
    simp [hsyn] at hb'

private theorem outputFlags_control (cfg : TcpCfg) (h : ControlInv s)
    (hf : s.tsock.flags.tcp.syn = true → s.tsock.flags.finPending = false) :
    ControlInv (outputFlags cfg s) := by
  have hreq : ControlInv (requeueOrFin s) := by
    unfold requeueOrFin
    split
    · exact h.of_tsock rfl
    next hall =>
    split
    · next hp =>
      refine finReady_control h hp ?_ (Bool.eq_false_iff.mpr fun hb => ?_)
      · unfold tcpTxqToSendPkts at hall
        bv_omega
      · simp [hf hb] at hp
    · exact h
  unfold outputFlags
  dsimp only
  split
  · exact hreq
  · exact hreq.flags cfg

theorem tcpOutputOne_control (cfg : TcpCfg) (h : ControlInv s) (hf : OutputFits s) :
    ControlInv (tcpOutputOne cfg s) := by
  unfold tcpOutputOne
  split
  · exact h
  obtain ⟨h₁, hor⟩ := closeIfIssued_fits cfg h hf
  dsimp only
  generalize closeIfIssued cfg s = s₁ at h₁ hor
  rcases hor with hc | hfit
  · rw [hc]
    exact h₁
  split
  · exact h₁
  · next hs => exact h₁.xmitSyn cfg (by rw [hs]; rfl) (hfit.rst (.inl hs))
  · next hs => exact h₁.xmitSyn cfg (by rw [hs]; rfl) (hfit.rst (.inr hs))
  · next hc hss hsr =>
    obtain ⟨h₂, hsyn⟩ := tcpXmitData_control cfg h₁ fun hw hlt => hfit.probe ⟨hc, hss, hsr, hw, hlt⟩
    have hpend := (OutFrame.tcpXmitData cfg s₁).frame.pending
    exact outputFlags_control cfg h₂ fun hb => hpend.trans (hfit.fin (hsyn hb))

/-! Timers and the calls of the application. -/

private theorem timedOut_control (cfg : TcpCfg) (b : Bool) (h : ControlInv s) :
    ControlInv (timedOut cfg s b) := by
  have h₀ : ControlInv (s.setErr (some .etimedout)) := h.same rfl rfl rfl (.of_eq rfl rfl)
  have h₁ := h₀.setState cfg .closed fun _ => rfl
  unfold timedOut
  dsimp only
  split
  · exact h₁.free
  · exact h₁.same rfl rfl rfl (.of_eq rfl rfl)

private theorem timer_control (k : TimerKind) (h : ControlInv s) (hf : FlagsFit cfg s (.timer k)) :
    ControlInv (tcpTimeout cfg s k) := by
  have hcase := tcpTimeout_cases cfg s k
  generalize tcpTimeout cfg s k = s' at hcase
  have h₁ : ∀ t c, ControlInv (s.counted t c) := fun t c => h.tx (.counted s t c)
  cases hcase with
  | stopped t => exact h₁ t _
  | givenUp t c b => exact timedOut_control cfg b (h₁ t c)
  | resent t c =>
    have h₂ := (h₁ t c).tx (.rtoResend cfg _)
    exact h₂.of_tsock rfl
  | waited t => exact ((h₁ t _).setState cfg .closed fun _ => rfl).free
  | probed t t' s₁ hst hx =>
    have h₂ := (h₁ t s.tsock.cc).probe cfg (hf hst)
    rw [hx]
    exact h₂.tx (.setTimers ..)

private theorem write_control (cfg : TcpCfg) (iov : List Iovec) (h : ControlInv s) :
    ControlInv (tsockZwritev cfg s iov).2 := by
  have hw := WriteFrame.tsockZwritev cfg s iov
  cases hchk : tsockWriteCheck s.tsock with
  | some err => exact h.of_tsock (tsockZwritev_refused cfg iov hchk)
  | none =>
    have hsh : s.tsock.state.shut = false := by
      rcases tsockWriteCheck_state hchk with hst | hst <;> rw [hst] <;> rfl
    have hsent := (h.early hsh).1
    have hst := hw.frame.state
    generalize (tsockZwritev cfg s iov).2 = s' at hw hst
    have hfin : s'.tsock.snd.finSent = false := by
      rw [hw.snd]
      exact hsent
    have hlog : s'.tsock.emitted = s.tsock.emitted := by rw [hw.tsock]
    constructor
    · rw [hfin, hw.flags, (h.early hsh).2]
      exact fun hor => by simp at hor
    · rw [hfin]
      exact fun hf => nomatch hf
    · rw [hw.flags]
      exact h.syn
    · rw [hw.flags, h.early_fin hsh]
      exact fun hf => nomatch hf
    · rw [hlog, hw.snd]
      exact h.sentSyn
    · rw [hlog]
      intro q hq hf
      have hs := (h.sentFin q hq hf).2
      simp [hsent] at hs

private theorem read_control (n : Nat) (h : ControlInv s) : ControlInv (tsockZreadv s n).2 := by
  unfold tsockZreadv
  split
  · exact h
  dsimp only
  split
  · exact h.same rfl rfl rfl (.of_eq rfl rfl)
  split
  · exact h.same rfl rfl rfl (.of_ack rfl true rfl)
  · exact h.same rfl rfl rfl (.of_eq rfl rfl)

private theorem burstEnd_control (h : ControlInv s) (hf : FlagsFit cfg s .burstEnd) :
    ControlInv (inputEnd cfg s) := by
  have hhead : ControlInv (inputHead cfg s) :=
    (inputHead_run (A := fun _ => True) cfg s fun _ _ _ _ => trivial).keep
      (fun p hp _ ha hi => hi.answer ha (hf p hp)) (fun _ _ hm hi => hi.rxMove hm) h
  have hack : ControlInv (inputAck cfg (inputHead cfg s)) := by
    unfold inputAck
    split
    · split
      · exact hhead.flags cfg
      · exact hhead.of_tsock rfl
    · exact hhead
  unfold inputEnd
  unfold inputPut
  split
  · exact ControlInv.free (hack.same rfl rfl rfl (.of_eq rfl rfl))
  · exact hack

theorem sockStep_control (h : ControlInv s) (hf : FlagsFit cfg s e) :
    ControlInv (sockStep cfg s e) := by
  cases e with
  | packet p =>
    exact (inputPacket_run (A := fun _ => True) cfg s p fun _ _ _ _ => trivial).keep
      (fun q hq _ ha hi => hi.answer ha (hf q hq)) (fun _ _ hm hi => hi.rxMove hm) h
  | burstEnd => exact burstEnd_control h hf
  | write iov => exact write_control cfg iov h
  | read n => exact read_control n h
  | dropOoo => exact h.same rfl rfl rfl (.of_eq rfl rfl)
  | close =>
    rw [sockStep]
    unfold tpaClose
    split
    · exact h
    · exact h.same rfl rfl rfl (.of_eq rfl rfl)
  | output =>
    rw [sockStep, outputTurn]
    split
    · exact tcpOutputOne_control cfg (h.of_tsock rfl) hf
    · exact h
  | delayedAck =>
    rw [sockStep, delayedAckTurn, tcpFlushDelayedAck]
    split
    · split
      · exact h
      · unfold xmitDueAck
        split
        · exact (h.flags cfg).of_tsock rfl
        · exact h.of_tsock rfl
    · exact h
  | timer k => exact timer_control k h hf
  | neighReady =>
    exact h.same rfl rfl rfl ⟨⟨[], (List.append_nil _).symm, by simp⟩,
      (fun hb => absurd hb Bool.false_ne_true), id, id⟩
  | env w => exact h.of_tsock rfl

/-! Whole runs. -/

private theorem ControlInv.fresh (hf : s.tsock.snd.finSent = false)
    (hp : s.tsock.flags.finPending = false) (ht : s.tsock.flags.tcp = {})
    (he : s.tsock.emitted = []) : ControlInv s := by
  constructor
  · simp [hf, hp]
  · simp [hf]
  · simp [ht]
  · simp [ht]
  · simp [he]
  · simp [he]

theorem Started.control (h : Started cfg s) : ControlInv s := by
  cases h with
  | listen w sid isIpv6 => exact .fresh rfl rfl rfl rfl
  | opened h =>
    cases h with
    | connect w sid isIpv6 => exact .fresh rfl rfl rfl rfl
    | accept w sid isIpv6 p =>
      obtain ⟨b, isn, mss, wscale, nego, ht⟩ :=
        passiveTsockInit_tsock cfg ⟨w, tsockInit cfg sid isIpv6⟩ p
      generalize (passiveTsockInit cfg ⟨w, tsockInit cfg sid isIpv6⟩ p).1 = s₁ at ht
      have h₁ : ControlInv s₁ := .fresh (by rw [ht]; rfl) (by rw [ht]; rfl) (by rw [ht]; rfl)
        (by rw [ht]; rfl)
      exact h₁.xmitSyn cfg (by rw [ht]; rfl) (by rw [ht]; rfl)

theorem controlInv_reach {s₀ : St} {c : Conn} (h₀ : Started cfg s₀)
    (hc : Reach (connStep cfg) (fun c e => FlagsFit cfg c.st e) (Conn.start s₀) c) :
    ControlInv c.st := by
  refine hc.invariant (I := fun c => ControlInv c.st) h₀.control fun c e h hf => ?_
  unfold connStep
  split
  · exact h
  · exact sockStep_control h hf

/-- In every run in which the flags that are pending go with what is sent, every segment
that was sent has the number of its SYN or FIN, the SYN goes alone, and the FIN follows
the last byte. -/
theorem control_segments_right (cfg : TcpCfg) (s₀ : St) (c : Conn) (h₀ : Started cfg s₀)
    (hc : Reach (connStep cfg) (fun c e => FlagsFit cfg c.st e) (Conn.start s₀) c) :
    ∀ q ∈ c.st.tsock.emitted, Rightly c.st.tsock q :=
  fun _ hq => (controlInv_reach h₀ hc).rightly hq

theorem control_segments_right_orderlyClose :
    let c := exec (connStep {}) (Conn.start greeted) orderlyClose
    (∃ q ∈ c.st.tsock.emitted, q.flags.syn = true) ∧ FinOut c.st.tsock ∧
      ∀ q ∈ c.st.tsock.emitted, Rightly c.st.tsock q := by
  have hadm : Admitted (connStep {}) (fun c e => FlagsFit {} c.st e) (Conn.start greeted)
    orderlyClose := by decide +kernel
  have hopen : Opened {} greeted := .accept _ _ _ _ ⟨by decide, by decide⟩
  exact ⟨by decide +kernel, by decide +kernel,
    control_segments_right {} greeted _ (.opened hopen) (Reach.refl.exec hadm)⟩

/-- A connection whose first SYN gets no packet. -/
def unsentSyn : St :=
  tcpConnect ⟨Worker.boot 0 { allocOk := [false, true], ethOk := [true] }, tsockInit {} 0 false⟩

/-- The SYN fails, and a segment of an earlier connection arrives. -/
def strayAck : List ConnEv := [.output, .packet (.bare 0 5 77 0 { ack := true }), .burstEnd]

/-- The reset for the segment takes the SYN along, under the number of the reset. -/
theorem strayAck_synWithRst :
    let c := exec (connStep {}) (Conn.start unsentSyn) strayAck
    Opened {} unsentSyn ∧
      Admitted (connStep {}) (fun c e => e.Enabled c.st) (Conn.start unsentSyn) strayAck ∧
      ∃ q ∈ c.st.tsock.emitted, q.flags.syn = true ∧ q.flags.rst = true ∧
        q.seq ≠ c.st.tsock.snd.sndIsn := by
  have hone : (Packet.bare 0 5 77 0 { ack := true }).Single := by decide
  exact ⟨.connect _ _ _ ⟨by decide, by decide⟩, ⟨trivial, hone, trivial, trivial⟩,
    by decide +kernel⟩

end LibTpa
