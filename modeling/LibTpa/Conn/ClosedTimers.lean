/- LibTpa/Conn/ClosedTimers
   digest: Which sockets are closed with a timer still running. -/

import LibTpa.Conn.Aside
import LibTpa.Conn.FinRun
import LibTpa.Conn.Moves
import LibTpa.Input.Reset

set_option autoImplicit false

namespace LibTpa

open Lib.Run

variable {cfg : TcpCfg} {A : Packet → Prop} {s s' s'' : St} {p : Packet} {e : ConnEv}

def Timers.Idle (t : Timers) : Prop := t.rto = none ∧ t.wait = none ∧ t.keepalive = none

instance Timers.Idle.decidable (t : Timers) : Decidable t.Idle :=
  inferInstanceAs (Decidable (_ ∧ _))

/-- A closed socket has no active timer, unless it is released: already, or by
`TSOCK_FLAG_PUT` at the end of the burst. -/
def ClosedIdle (s : St) : Prop :=
  s.tsock.state = .closed → s.tsock.freed = false → s.tsock.flags.put = false → s.tsock.timers.Idle

/-- The reset does not mark the socket for release: the application has not closed it,
and its state leaves it to the application. -/
def RstKeeps (s : St) : Prop :=
  s.tsock.flags.put = false ∧ s.tsock.closeIssued = false ∧ (rstEffect s.tsock).put = false ∧
    (rstEffect s.tsock).toClose = false

instance RstKeeps.decidable (s : St) : Decidable (RstKeeps s) := inferInstanceAs (Decidable (_ ∧ _))

/-- No timer runs when the reset comes, and the reset itself starts none: a
synchronised socket starts its keepalive timer anew for every packet. -/
def RstIdle (cfg : TcpCfg) (s : St) : Prop :=
  s.tsock.timers.Idle ∧ (s.tsock.state ≠ .synSent → cfg.keepalive = 0)

instance RstIdle.decidable (cfg : TcpCfg) (s : St) : Decidable (RstIdle cfg s) :=
  inferInstanceAs (Decidable (_ ∧ _))

/-- The timeout that closes the connection and leaves the socket to the application. -/
def GivesUp (cfg : TcpCfg) (s : St) : TimerKind → Prop
  | .rto => rtoGivesUp cfg { s.tsock with cc :=
        { s.tsock.cc with rtoShift := s.tsock.cc.rtoShift + 1 } } = true ∧ s.tsock.state ≠ .synRcvd
  | .wait => False
  | .keepalive => cfg.retries ≤ s.tsock.timers.keepaliveShift.toNat

/-- What has to hold when the event comes: a reset or a last timeout that leaves the
closed socket to the application finds no other timer active. -/
def ClosesIdle (cfg : TcpCfg) (s : St) : ConnEv → Prop
  | .timer k => s.tsock.timers.deadline k ≠ none → s.tsock.state ≠ .closed →
      s.tsock.closeIssued = false → s.tsock.flags.put = false → GivesUp cfg s k →
      (s.tsock.timers.stop k).Idle
  | e => ∀ p ∈ processed cfg s e, ResetTaken s p → RstKeeps s → RstIdle cfg s

instance GivesUp.decidable (cfg : TcpCfg) (s : St) : (k : TimerKind) → Decidable (GivesUp cfg s k)
  | .rto => inferInstanceAs (Decidable (_ ∧ _))
  | .wait => isFalse id
  | .keepalive => inferInstanceAs (Decidable (_ ≤ _))

instance ClosesIdle.decidable (cfg : TcpCfg) (s : St) :
    (e : ConnEv) → Decidable (ClosesIdle cfg s e)
  | .timer _ => inferInstanceAs (Decidable (_ → _))
  | .packet p => inferInstanceAs (Decidable (∀ q ∈ processed cfg s (.packet p), _))
  | .burstEnd => inferInstanceAs (Decidable (∀ q ∈ processed cfg s .burstEnd, _))
  | .write _ | .read _ | .dropOoo | .close | .output | .delayedAck | .neighReady | .env _ =>
    isTrue fun _ hq => (nomatch hq)

/-! ### The processing of a packet -/

structure SameLife (s s' : St) : Prop where
  state : s'.tsock.state = s.tsock.state
  freed : s'.tsock.freed = s.tsock.freed
  put : s'.tsock.flags.put = s.tsock.flags.put
  timers : s'.tsock.timers = s.tsock.timers

theorem SameLife.iff (h : SameLife s s') : ClosedIdle s' ↔ ClosedIdle s := by
  rw [ClosedIdle, ClosedIdle, h.state, h.freed, h.put, h.timers]

theorem SameLife.refl (s : St) : SameLife s s := ⟨rfl, rfl, rfl, rfl⟩

theorem SameLife.trans (h : SameLife s s') (h' : SameLife s' s'') : SameLife s s'' :=
  ⟨h'.state.trans h.state, h'.freed.trans h.freed, h'.put.trans h.put, h'.timers.trans h.timers⟩

theorem Quiet.sameLife (h : Quiet s s') : SameLife s s' :=
  ⟨h.frame.state, by rw [h.frame.tsock], by rw [h.frame.flags], h.timers⟩

theorem ClosedIdle.of_open (h : s.tsock.state ≠ .closed) : ClosedIdle s := fun hc => absurd hc h

private theorem ackFin_put (cfg : TcpCfg) (s : St) (ack : U32) (hc : s.tsock.state ≠ .closed) :
    (ackFin cfg s ack).tsock.state = .closed → (ackFin cfg s ack).tsock.flags.put = true := by
  unfold ackFin
  split
  · dsimp only
    split
    · intro h
      cases h
    · intro h
      cases h
    · intro _
      rfl
    · intro h
      exact absurd h hc
  · intro h
    exact absurd h hc

private theorem ackAccepted_put (cfg : TcpCfg) (s : St) (p : Packet) (o : TcpOpts)
    (hc : s.tsock.state ≠ .closed) (h : (ackAccepted cfg s p o).tsock.state = .closed) :
    (ackAccepted cfg s p o).tsock.flags.put = true := by
  have hdup := (TxFrame.countDupack s p).frame.state
  have hfin := ackFin_put cfg (countDupack s p) p.ack (by rw [hdup]; exact hc)
  have hprog := (TxFrame.ackProgress cfg (ackFin cfg (countDupack s p) p.ack) p o
    (ackedLen s.tsock.snd p.ack)).frame
  rw [ackAccepted] at h ⊢
  rw [hprog.state] at h
  rw [hprog.flags]
  exact hfin h

theorem ClosedIdle.move (h : ClosedIdle s) (hA : ∀ q, A q → q.flags.rst = false)
    {b : Bool} (hm : RxMove cfg A s b s') : ClosedIdle s' := by
  cases hm with
  | checked hck hc => exact .of_open (by rw [hck.state]; exact hc)
  | data hf =>
    have hsame : SameLife s s' := ⟨hf.state, hf.freed, by rw [hf.flags], hf.timers⟩
    exact hsame.iff.mpr h
  | fin p hc =>
    refine .of_open ?_
    rw [tcpRcvFin_state]
    split
    · cases hst : s.tsock.state <;> first
        | exact absurd hst hc
        | decide
    · exact hc
  | rst p hp hr =>
    rw [hA p hp] at hr
    cases hr
  | passive p =>
    refine .of_open ?_
    change (tsockEstablished cfg s p).tsock.state ≠ .closed
    rw [tsockEstablished_state]
    decide
  | active p =>
    refine .of_open ?_
    rw [synSentToEstablished_state]
    decide
  | acked p o _ hc =>
    intro hst _ hput
    rw [ackAccepted_put cfg s p o hc hst] at hput
    cases hput
  | fast p q _ _ hst =>
    refine .of_open ?_
    rw [(TxFrame.tcpRcvAckFastpath cfg s p).state, hst]
    decide
  | accept p hst =>
    refine .of_open ?_
    rw [tsockAccept_tsock, hst]
    decide
  | flags => exact (Quiet.xmitFlagPacket cfg s).sameLife.iff.mpr h
  | enqueued => exact h
  | released p => exact h
  | head x => exact h

private theorem process_sameLife (cfg : TcpCfg) (s : St) (p : Packet) :
    SameLife (tcpRcvPkt cfg s { p with toRead := p.segs }).2.1 (tcpRcvProcess cfg s p) := by
  obtain ⟨s₁, s₂, ht, hquiet, heq⟩ := tcpRcvProcess_split cfg s p
  have h₁ : SameLife (tcpRcvPkt cfg s { p with toRead := p.segs }).2.1 s₁ :=
    ⟨by rw [ht], by rw [ht], by rw [ht], by rw [ht]⟩
  rw [heq]
  exact (h₁.trans hquiet.sameLife).trans ⟨rfl, rfl, rfl, rfl⟩

private theorem tcpRcvRst_life (cfg : TcpCfg) (s : St) (hc : s.tsock.state ≠ .closed) :
    (tcpRcvRst cfg s).2.tsock.state = .closed ∧
      (tcpRcvRst cfg s).2.tsock.freed = s.tsock.freed ∧
      ((tcpRcvRst cfg s).2.tsock.flags.put = false ↔ RstKeeps s) ∧
      (tcpRcvRst cfg s).2.tsock.timers = s.tsock.timers := by
  have hput : (s.tsock.flags.put || (rstEffect s.tsock).put ||
      (s.tsock.closeIssued || (rstEffect s.tsock).toClose)) = false ↔ RstKeeps s := by
    unfold RstKeeps
    simp only [Bool.or_eq_false_iff]
    tauto
  unfold tcpRcvRst
  rw [if_neg hc]
  dsimp only
  split
  · exact ⟨rfl, rfl, hput, rfl⟩
  · exact ⟨rfl, rfl, hput, rfl⟩

private theorem Reached.idle_iff {s₁ : St} (h : Reached cfg s s₁) :
    s₁.tsock.timers.Idle ↔ RstIdle cfg s := by
  unfold RstIdle
  by_cases hst : s.tsock.state = .synSent
  · rw [h.opening hst]
    simp only [hst, not_true_eq_false, ne_eq, false_implies, and_true]
  · obtain ⟨-, n, hn⟩ := h.synced hst
    rw [hn]
    change Timers.Idle { s.tsock.timers with
      keepaliveShift := 0
      keepalive := if cfg.keepalive = 0 then s.tsock.timers.keepalive
        else timerStart s.worker.tsUs cfg.keepalive } ↔ _
    unfold Timers.Idle
    split
    · next hk => simp only [hk, implies_true, and_true]
    · next hk =>
      refine ⟨fun hi => ?_, fun hi => absurd (hi.2 hst) hk⟩
      cases hi.2.2

private theorem Reached.same {s₁ : St} (h : Reached cfg s s₁) :
    s₁.tsock.state = s.tsock.state ∧ s₁.tsock.freed = s.tsock.freed ∧
      (RstKeeps s₁ ↔ RstKeeps s) := by
  by_cases hst : s.tsock.state = .synSent
  · rw [h.opening hst]
    exact ⟨rfl, rfl, Iff.rfl⟩
  · obtain ⟨-, n, hn⟩ := h.synced hst
    rw [hn]
    exact ⟨rfl, rfl, Iff.rfl⟩

/-- A packet leaves no closed socket with a timer if and only if it is no reset, or one
that finds no timer, or one after which the socket is released. -/
theorem process_closedIdle_iff (cfg : TcpCfg) (p : Packet) (hfr : s.tsock.freed = false)
    (h : ClosedIdle s) (hheld : s.rxSt.held p.id = 0) :
    ClosedIdle (tcpRcvProcess cfg s p) ↔ (ResetTaken s p → RstKeeps s → RstIdle cfg s) := by
  rw [(process_sameLife cfg s p).iff]
  cases hr : p.flags.rst with
  | false =>
    refine ⟨fun _ ht => ?_, fun _ => ?_⟩
    · rw [ht.2.1] at hr
      cases hr
    · have hrun := tcpRcvPkt_run (A := fun q => q.flags.rst = false) cfg s
        { p with toRead := p.segs } fun q hq => by rw [(hq.header hheld).1]; exact hr
      exact hrun.keep (fun _ _ _ ha hi => ha.quiet.sameLife.iff.mpr hi)
        (fun _ _ hm hi => hi.move (fun _ hq => hq) hm) h
  | true =>
    have hway := tcpRcvPkt_reset (p := { p with toRead := p.segs }) cfg s hr
    generalize (tcpRcvPkt cfg s { p with toRead := p.segs }).2.1 = s₁ at hway
    cases hway with
    | ignored _ ht => exact ⟨fun _ ht' => absurd ht' ht, fun _ => h⟩
    | refused _ _ ht hs =>
      refine ⟨fun _ ht' => absurd ht' ht, fun _ => ?_⟩
      by_cases hst : s.tsock.state = .synSent
      · rw [hs.opening hst]
        exact h
      · exact .of_open (by rw [hs.same.1]; exact (hs.synced hst).1)
    | halfOpen hh =>
      refine ⟨fun _ ht => absurd hh.2.2.2 (ht.2.2.2.2.1 hh.2.1).2, fun _ => .of_open ?_⟩
      have hst : (halfOpened cfg s { p with toRead := p.segs }).tsock.state = s.tsock.state :=
        (Quiet.xmitFlagPacketWithSeq cfg _ _).frame.state
      rw [hst, hh.2.1]
      decide
    | taken s₁ _ ht hs =>
      obtain ⟨hst, hfreed, hkeeps⟩ := hs.same
      obtain ⟨hclosed, hfreed', hput, htimers⟩ :=
        tcpRcvRst_life cfg s₁ (by rw [hst]; exact ht.2.2.1)
      rw [ClosedIdle, hclosed, hfreed', hfreed, hfr, hput, hkeeps, htimers, hs.idle_iff]
      exact ⟨fun hi _ => hi rfl rfl, fun hi _ _ => hi ht⟩

/-! ### The other events -/

private theorem freed_closedIdle (h : s.tsock.freed = true) : ClosedIdle s := by
  intro _ hf
  rw [h] at hf
  cases hf

private theorem timedOut_closedIdle (cfg : TcpCfg) (s : St) (toClose : Bool)
    (hfr : s.tsock.freed = false) : ClosedIdle (timedOut cfg s toClose) ↔
      (s.tsock.closeIssued = false → toClose = false → s.tsock.flags.put = false →
        s.tsock.timers.Idle) := by
  unfold timedOut
  dsimp only
  split
  · next hfree =>
    refine ⟨fun _ hi hc => ?_, fun _ => freed_closedIdle (tsockFree_freed _)⟩
    change (s.tsock.closeIssued || toClose) = true at hfree
    rw [hi, hc] at hfree
    cases hfree
  · next hkeep =>
    have hkeep' : (s.tsock.closeIssued || toClose) = false := Bool.eq_false_iff.mpr hkeep
    rw [Bool.or_eq_false_iff] at hkeep'
    exact ⟨fun h _ _ hp => h rfl hfr hp, fun h _ _ hp => h hkeep'.1 hkeep'.2 hp⟩

private theorem rto_closedIdle_iff (cfg : TcpCfg) (s : St) (hfr : s.tsock.freed = false)
    (hc : s.tsock.state ≠ .closed) : ClosedIdle (tcpTimeoutRto cfg s) ↔
      (s.tsock.closeIssued = false → s.tsock.flags.put = false → GivesUp cfg s .rto →
        s.tsock.timers.Idle) := by
  obtain ⟨s₁, hs₁⟩ : ∃ s₁, s₁ = s.setCc { s.tsock.cc with rtoShift := s.tsock.cc.rtoShift + 1 } :=
    ⟨_, rfl⟩
  have ht : s₁.tsock = { s.tsock with cc :=
      { s.tsock.cc with rtoShift := s.tsock.cc.rtoShift + 1 } } := by rw [hs₁]; rfl
  unfold tcpTimeoutRto GivesUp
  dsimp only
  rw [← hs₁, ← ht]
  split
  · next hup =>
    rw [timedOut_closedIdle cfg s₁ _ (by rw [ht]; exact hfr), ht, decide_eq_false_iff_not]
    exact ⟨fun hi hci hp hgu => hi hci hgu.2 hp, fun hi hci hts hp => hi hci hp ⟨ht ▸ hup, hts⟩⟩
  · next hup =>
    refine ⟨fun _ _ _ hgu => absurd hgu.1 hup, fun _ => .of_open ?_⟩
    have hst := ((TxFrame.rtoResend cfg s₁).frame.trans (.outputTsockEnqueue _)).state
    rw [hst, ht]
    exact hc

private theorem keepalive_closedIdle_iff (cfg : TcpCfg) (s : St) (hfr : s.tsock.freed = false)
    (hc : s.tsock.state ≠ .closed) : ClosedIdle (tcpTimeoutKeepalive cfg s) ↔
      (s.tsock.closeIssued = false → s.tsock.flags.put = false → GivesUp cfg s .keepalive →
        s.tsock.timers.Idle) := by
  obtain ⟨s₁, hs₁⟩ : ∃ s₁, s₁ = s.setTimers { s.tsock.timers with
    keepaliveShift := s.tsock.timers.keepaliveShift + 1 } := ⟨_, rfl⟩
  have hst : s₁.tsock.state = s.tsock.state := by rw [hs₁]; rfl
  unfold tcpTimeoutKeepalive GivesUp
  dsimp only
  rw [← hs₁]
  split
  · next hup =>
    rw [timedOut_closedIdle cfg s₁ _ (by rw [hs₁]; exact hfr), hs₁]
    exact ⟨fun hi hci hp _ => hi hci rfl hp, fun hi hci _ hp => hi hci hp hup⟩
  · next hup =>
    refine ⟨fun _ _ _ hgu => absurd hgu hup, fun _ => .of_open ?_⟩
    split
    · have hx := (SndFrame.setTcp s₁ { s₁.tsock.flags.tcp with ack := true }).trans
        (Quiet.xmitFlagPacketWithSeq cfg _ (s₁.tsock.snd.sndUna - 1)).frame
      exact fun hcl => hc (hst.symm.trans (hx.state.symm.trans hcl))
    · rw [hst]
      exact hc

private theorem timer_closedIdle_iff (cfg : TcpCfg) (k : TimerKind) (hfr : s.tsock.freed = false)
    (h : ClosedIdle s) : ClosedIdle (tcpTimeout cfg s k) ↔ ClosesIdle cfg s (.timer k) := by
  unfold tcpTimeout ClosesIdle
  split
  · next hoff => exact ⟨fun _ hon => absurd hoff hon, fun _ => h⟩
  next hon =>
  dsimp only
  split
  · next hc =>
    refine ⟨fun _ _ ho => absurd hc ho, fun _ _ hf' hput => ?_⟩
    have hidle := h hc hf' hput
    cases k
    · exact absurd hidle.1 hon
    · exact absurd hidle.2.1 hon
    · exact absurd hidle.2.2 hon
  next hc =>
  cases k with
  | rto =>
    have hx := rto_closedIdle_iff cfg (s.setTimers (s.tsock.timers.stop .rto)) hfr hc
    exact hx.trans ⟨fun hi _ _ => hi, fun hi => hi hon hc⟩
  | wait => exact ⟨fun _ _ _ _ _ hgu => hgu.elim, fun _ => freed_closedIdle (tsockFree_freed _)⟩
  | keepalive =>
    have hx := keepalive_closedIdle_iff cfg (s.setTimers (s.tsock.timers.stop .keepalive)) hfr hc
    exact hx.trans ⟨fun hi _ _ => hi, fun hi => hi hon hc⟩

private theorem packet_closedIdle_iff (cfg : TcpCfg) (p : Packet) (hfr : s.tsock.freed = false)
    (h : ClosedIdle s) (hfed : Fed cfg s (.packet p)) :
    ClosedIdle (inputPacket cfg s p) ↔ ClosesIdle cfg s (.packet p) := by
  have happly : ∀ q, processed cfg s (.packet p) = some q →
      (ClosedIdle (tcpRcvProcess cfg s q) ↔
        ∀ q' ∈ processed cfg s (.packet p), ResetTaken s q' → RstKeeps s → RstIdle cfg s) := by
    intro q hq
    rw [process_closedIdle_iff cfg q hfr h (hfed.apart q hq), hq]
    exact ⟨fun hi q' hq' => Option.mem_some_iff.mp hq' ▸ hi, fun hi => hi q rfl⟩
  by_cases hl : s.tsock.state = .listen
  · rw [inputPacket, if_pos hl]
    exact happly _ (by rw [processed, if_pos hl])
  · rw [inputPacket, if_neg hl]
    have hwait : ∀ s₁ x, SameLife s s₁ → processed cfg s (.packet p) = none →
        (ClosedIdle (s₁.setHead x) ↔
          ∀ q' ∈ processed cfg s (.packet p), ResetTaken s q' → RstKeeps s → RstIdle cfg s) := by
      intro s₁ x hs hnone
      have hh : ClosedIdle (s₁.setHead x) := (hs.trans ⟨rfl, rfl, rfl, rfl⟩).iff.mpr h
      rw [hnone]
      exact ⟨fun _ q' hq' => absurd hq' (Option.not_mem_none q'), fun _ => hh⟩
    have hcase := tcpMerge_cases cfg s (parseTsOptFast p)
    generalize tcpMerge cfg s (parseTsOptFast p) = s₁ at hcase
    cases hcase with
    | alone hh =>
      refine hwait s _ (.refl s) ?_
      rw [processed, if_neg hl, hh]
      rfl
    | chained head hh hm =>
      refine hwait _ _ ⟨rfl, rfl, rfl, rfl⟩ ?_
      rw [processed, if_neg hl, hh, Option.filter_some, if_neg]
      rw [decide_eq_true_iff]
      exact fun hn => hn hm
    | behind head hh hm =>
      have hsame : SameLife (tcpRcvProcess cfg s head)
        ((tcpRcvProcess cfg s head).setHead (some (parseTsOptFast p))) := ⟨rfl, rfl, rfl, rfl⟩
      exact hsame.iff.trans (happly head (processed_behind hl hh hm))

private theorem inputAck_sameLife (cfg : TcpCfg) (s : St) : SameLife s (inputAck cfg s) := by
  unfold inputAck
  split
  · split
    · exact (Quiet.xmitFlagPacket cfg s).sameLife
    · exact ⟨rfl, rfl, rfl, rfl⟩
  · exact .refl s

private theorem inputPut_closedIdle_iff (s : St) : ClosedIdle (inputPut s) ↔ ClosedIdle s := by
  unfold inputPut
  split
  · next hput =>
    refine ⟨fun _ _ _ hp => ?_, fun _ => freed_closedIdle (tsockFree_freed _)⟩
    rw [hput] at hp
    cases hp
  · exact Iff.rfl

private theorem burstEnd_closedIdle_iff (cfg : TcpCfg) (hfr : s.tsock.freed = false)
    (h : ClosedIdle s) (hfed : Fed cfg s .burstEnd) :
    ClosedIdle (inputEnd cfg s) ↔ ClosesIdle cfg s .burstEnd := by
  rw [inputEnd, inputPut_closedIdle_iff, (inputAck_sameLife cfg _).iff]
  unfold inputHead ClosesIdle processed
  have hapart := hfed.apart
  rw [processed] at hapart
  cases hh : s.tsock.rxMergeHead with
  | none => exact ⟨fun _ q hq => absurd hq (Option.not_mem_none q), fun _ => h⟩
  | some head =>
    rw [hh] at hapart
    refine (process_closedIdle_iff cfg head hfr h (hapart head rfl)).trans ?_
    exact ⟨fun hi q hq => Option.mem_some_iff.mp hq ▸ hi, fun hi => hi head rfl⟩

private theorem closeIfIssued_closed (cfg : TcpCfg) (s : St) :
    (closeIfIssued cfg s).tsock.freed = true ∨ (closeIfIssued cfg s).tsock.state ≠ .closed ∨
      closeIfIssued cfg s = s := by
  unfold closeIfIssued
  split
  · unfold tcpClose
    split
    · exact .inr (.inr rfl)
    · dsimp only
      split
      · exact .inl (tsockFree_freed _)
      · next hc => exact .inr (.inl hc)
  · exact .inr (.inr rfl)

private theorem tcpOutputOne_closedIdle (cfg : TcpCfg) (h : ClosedIdle s) :
    ClosedIdle (tcpOutputOne cfg s) := by
  unfold tcpOutputOne
  split
  · exact h
  dsimp only
  have hclose := closeIfIssued_closed cfg s
  generalize closeIfIssued cfg s = s₁ at hclose
  have hopen : ∀ {s₂ : St}, SndFrame s₁ s₂ → s₁.tsock.state ≠ .closed → ClosedIdle s₂ :=
    fun hf hc => .of_open (by rw [hf.state]; exact hc)
  split
  · next hc =>
    rcases hclose with hf | ho | he
    · exact freed_closedIdle hf
    · exact absurd hc ho
    · rw [he]
      exact h
  · next hst => exact hopen (.xmitSyn cfg s₁) (by rw [hst]; decide)
  · next hst => exact hopen (.xmitSyn cfg s₁) (by rw [hst]; decide)
  · next hc _ _ => exact hopen ((OutFrame.tcpXmitData cfg s₁).frame.trans (.outputFlags cfg _)) hc

private theorem WriteFrame.sameLife (h : WriteFrame s s') : SameLife s s' := by
  refine ⟨h.frame.state, ?_, by rw [h.flags], ?_⟩
  · rw [h.tsock]
  · rw [h.tsock]

private theorem tpaClose_sameLife (s : St) : SameLife s (tpaClose s) := by
  unfold tpaClose
  split
  · exact .refl s
  · exact ⟨rfl, rfl, rfl, rfl⟩

private theorem delayedAckTurn_sameLife (cfg : TcpCfg) (s : St) :
    SameLife s (delayedAckTurn cfg s) := by
  unfold delayedAckTurn tcpFlushDelayedAck xmitDueAck
  split
  · split
    · exact .refl s
    · split
      · exact (Quiet.xmitFlagPacket cfg s).sameLife.trans ⟨rfl, rfl, rfl, rfl⟩
      · exact ⟨rfl, rfl, rfl, rfl⟩
  · exact .refl s

private theorem tsockZreadv_sameLife (s : St) (n : Nat) : SameLife s (tsockZreadv s n).2 := by
  unfold tsockZreadv
  dsimp only
  split
  · exact .refl s
  split
  · exact ⟨rfl, rfl, rfl, rfl⟩
  split
  · exact ⟨rfl, rfl, rfl, rfl⟩
  · exact ⟨rfl, rfl, rfl, rfl⟩

/-- One event keeps the rule if and only if it does not close the socket under a
running timer. -/
theorem sockStep_closedIdle_iff (cfg : TcpCfg) (e : ConnEv) (hfr : s.tsock.freed = false)
    (h : ClosedIdle s) (hfed : Fed cfg s e) :
    ClosedIdle (sockStep cfg s e) ↔ ClosesIdle cfg s e := by
  have hkept : ∀ {s' : St}, ClosedIdle s' → processed cfg s e = none →
      (ClosedIdle s' ↔ ∀ p ∈ processed cfg s e, ResetTaken s p → RstKeeps s → RstIdle cfg s) := by
    intro s' hs' hnone
    rw [hnone]
    exact ⟨fun _ p hp => absurd hp (Option.not_mem_none p), fun _ => hs'⟩
  have hlife : ∀ {s' : St}, SameLife s s' → processed cfg s e = none → _ :=
    fun hs hnone => hkept (hs.iff.mpr h) hnone
  cases e with
  | packet p => exact packet_closedIdle_iff cfg p hfr h hfed
  | burstEnd => exact burstEnd_closedIdle_iff cfg hfr h hfed
  | timer k => exact timer_closedIdle_iff cfg k hfr h
  | write iov =>
    exact hlife (WriteFrame.tsockZwritev cfg s iov).sameLife rfl
  | read n => exact hlife (tsockZreadv_sameLife s n) rfl
  | dropOoo => exact hlife ⟨rfl, rfl, rfl, rfl⟩ rfl
  | close => exact hlife (tpaClose_sameLife s) rfl
  | output =>
    refine hkept ?_ rfl
    rw [sockStep, outputTurn]
    split
    · exact tcpOutputOne_closedIdle cfg h
    · exact h
  | delayedAck => exact hlife (delayedAckTurn_sameLife cfg s) rfl
  | neighReady => exact hlife ⟨rfl, rfl, rfl, rfl⟩ rfl
  | env w => exact hlife ⟨rfl, rfl, rfl, rfl⟩ rfl

/-! ### Whole runs -/

structure Paced where
  conn : Conn
  mid : Bool

def pacedStep (cfg : TcpCfg) (c : Paced) (e : ConnEv) : Paced :=
  ⟨connStep cfg c.conn e, match e with
    | .packet _ => true
    | .burstEnd => false
    | _ => c.mid⟩

/-- The surroundings hand in packets that the socket does not hold, and
`timer_process` does not run in the middle of a burst. -/
structure Turn (cfg : TcpCfg) (c : Paced) (e : ConnEv) : Prop where
  fed : Fed cfg c.conn.st e
  timers : ∀ k, e = .timer k → c.mid = false

def Unmarked (c : Paced) : Prop :=
  c.mid = false → c.conn.st.tsock.freed = false → c.conn.st.tsock.flags.put = false

private theorem inputEnd_unmarked (cfg : TcpCfg) (s : St)
    (h : (inputEnd cfg s).tsock.freed = false) :
    (inputEnd cfg s).tsock.flags.put = false := by
  unfold inputEnd inputPut at h ⊢
  split
  · next hput =>
    rw [if_pos hput, tsockFree_freed] at h
    cases h
  · next hput => exact Bool.eq_false_iff.mpr hput

private theorem Unmarked.step {c : Paced} (h : Unmarked c) (cfg : TcpCfg) (e : ConnEv) :
    Unmarked (pacedStep cfg c e) := by
  unfold Unmarked pacedStep connStep
  by_cases hf : c.conn.st.tsock.freed = true
  · rw [if_pos hf]
    intro _ hlive
    rw [hf] at hlive
    cases hlive
  · rw [if_neg hf]
    split
    · intro hmid
      cases hmid
    · exact fun _ => inputEnd_unmarked cfg c.conn.st
    · next hp hb =>
      intro hmid _
      exact (sockStep_aside cfg c.conn.st hp hb).put.trans (h hmid (Bool.eq_false_iff.mpr hf))

theorem Opened.unclosed {s₀ : St} (h : Opened cfg s₀) :
    s₀.tsock.state ≠ .closed ∧ s₀.tsock.flags.put = false := by
  cases h with
  | connect w sid isIpv6 =>
    constructor
    · intro hc
      cases hc
    · rfl
  | accept w sid isIpv6 p =>
    have hx := SndFrame.xmitSyn cfg (passiveTsockInit cfg ⟨w, tsockInit cfg sid isIpv6⟩ p).1
    rw [hx.state, hx.flags]
    obtain ⟨b, isn, mss, wscale, nego, ht⟩ :=
      passiveTsockInit_tsock cfg ⟨w, tsockInit cfg sid isIpv6⟩ p
    rw [ht]
    constructor
    · intro hc
      cases hc
    · rfl

/-- Over every run in which no reset and no last timeout closes a socket under a
running timer, and leaves it to the application, `timer_process` calls `tcp_timeout`
on no closed socket; and an event keeps this rule if and only if it is not one of
those. -/
theorem closed_timers_stopped (cfg : TcpCfg) (s₀ : St) (c : Paced) (ho : Opened cfg s₀)
    (hr : Reach (pacedStep cfg) (fun c e => Turn cfg c e ∧ ClosesIdle cfg c.conn.st e)
      ⟨Conn.start s₀, false⟩ c) :
    (∀ k, c.mid = false → c.conn.st.tsock.freed = false →
        c.conn.st.tsock.timers.deadline k ≠ none → c.conn.st.tsock.state ≠ .closed) ∧
      ∀ e, c.conn.st.tsock.freed = false → Turn cfg c e →
        (ClosedIdle (connStep cfg c.conn e).st ↔ ClosesIdle cfg c.conn.st e) := by
  obtain ⟨hopen, hput⟩ := ho.unclosed
  have hinv : ClosedIdle c.conn.st ∧ Unmarked c := by
    refine hr.invariant (I := fun c => ClosedIdle c.conn.st ∧ Unmarked c)
      ⟨.of_open hopen, fun _ _ => hput⟩ fun c e h hok => ⟨?_, h.2.step cfg e⟩
    unfold pacedStep connStep
    split
    · exact h.1
    · next hf =>
        exact (sockStep_closedIdle_iff cfg e (Bool.eq_false_iff.mpr hf) h.1 hok.1.fed).mpr hok.2
  constructor
  · intro k hmid hlive hon hc
    obtain ⟨hrto, hwait, hkeep⟩ := hinv.1 hc hlive (hinv.2 hmid hlive)
    cases k
    · exact hon hrto
    · exact hon hwait
    · exact hon hkeep
  · intro e hlive hturn
    rw [connStep, if_neg (Bool.eq_false_iff.mp hlive)]
    exact sockStep_closedIdle_iff cfg e hlive hinv.1 hturn.fed

instance Turn.decidable (cfg : TcpCfg) (c : Paced) : (e : ConnEv) → Decidable (Turn cfg c e)
  | .timer k => decidable_of_iff (c.mid = false)
      ⟨fun h => ⟨⟨fun _ hp => (nomatch hp), fun _ hq => (nomatch hq)⟩, fun _ _ => h⟩,
        fun h => h.timers k rfl⟩
  | .packet p => decidable_of_iff (Fed cfg c.conn.st (.packet p))
      ⟨fun h => ⟨h, fun _ hk => (nomatch hk)⟩, fun h => h.fed⟩
  | .burstEnd => decidable_of_iff (Fed cfg c.conn.st .burstEnd)
      ⟨fun h => ⟨h, fun _ hk => (nomatch hk)⟩, fun h => h.fed⟩
  | .write _ | .read _ | .dropOoo | .close | .output | .delayedAck | .neighReady | .env _ =>
    isTrue ⟨⟨fun _ hp => (nomatch hp), fun _ hq => (nomatch hq)⟩, fun _ hk => (nomatch hk)⟩

def resetWaits : List ConnEv := handshake ++ [.packet (.bare 2 101 1 0 { rst := true })]

theorem closed_timers_stopped_resetWaits :
    let c := exec (pacedStep {}) ⟨Conn.start answered, false⟩ resetWaits
    let c' := exec (pacedStep {}) ⟨Conn.start answered, false⟩ handshake
    c'.conn.st.tsock.timers.deadline .keepalive ≠ none ∧ c'.conn.st.tsock.state ≠ .closed ∧
      ¬ ClosedIdle (connStep {} c.conn .burstEnd).st := by
  have hadm' : Admitted (pacedStep {}) (fun c e => Turn {} c e ∧ ClosesIdle {} c.conn.st e)
    ⟨Conn.start answered, false⟩ handshake := by decide +kernel
  have hadm : Admitted (pacedStep {}) (fun c e => Turn {} c e ∧ ClosesIdle {} c.conn.st e)
    ⟨Conn.start answered, false⟩ resetWaits := by decide +kernel
  have hon : (exec (pacedStep {}) ⟨Conn.start answered, false⟩
    handshake).conn.st.tsock.timers.deadline .keepalive ≠ none := by decide +kernel
  obtain ⟨hopen, -⟩ := closed_timers_stopped {} _ _ answered_opened (Reach.refl.exec hadm')
  obtain ⟨-, hnext⟩ := closed_timers_stopped {} _ _ answered_opened (Reach.refl.exec hadm)
  refine ⟨hon, hopen .keepalive (by decide +kernel) (by decide +kernel) hon, fun hidle => ?_⟩
  have hcond := (hnext .burstEnd (by decide +kernel) (by decide +kernel)).mp hidle
  revert hcond
  decide +kernel

/-- An established connection is reset: the socket is closed, it is left to the
application, and its keepalive timer goes on until `timer_process` calls `tcp_timeout`. -/
theorem reset_leaves_keepalive :
    let c := exec (pacedStep {}) ⟨Conn.start answered, false⟩ (resetWaits ++ [.burstEnd])
    Opened {} answered ∧
      Admitted (pacedStep {}) (Turn {}) ⟨Conn.start answered, false⟩
        (resetWaits ++ [.burstEnd, .timer .keepalive]) ∧
      c.mid = false ∧ c.conn.st.tsock.freed = false ∧ c.conn.st.tsock.state = .closed ∧
      c.conn.st.tsock.timers.deadline .keepalive ≠ none := by
  refine ⟨answered_opened, ?_⟩
  decide +kernel

end LibTpa
