/- LibTpa/Conn/PawsRun
   digest: Over every run, how `ts_recent` moves and what old segments can do. -/

import LibTpa.Conn.ClosedTimers
import LibTpa.Conn.OptRun
import LibTpa.Conn.Paws

set_option autoImplicit false

namespace LibTpa

open Lib.Run

variable {cfg : TcpCfg} {A : Packet → Prop} {s s' s'' : St} {p q : Packet} {e : ConnEv}

/-! ### Sockets that are marked for release -/

def MarkedClosed (s : St) : Prop := s.tsock.flags.put = true → s.tsock.state = .closed

namespace MarkedClosed

private theorem unmarked (h : MarkedClosed s) (hc : s.tsock.state ≠ .closed) :
    s.tsock.flags.put = false := by
  cases hput : s.tsock.flags.put with
  | false => rfl
  | true => exact absurd (h hput) hc

private theorem of_unmarked (h : s.tsock.flags.put = false) : MarkedClosed s := by
  intro hput
  rw [h] at hput
  cases hput

private theorem of_eq (h : MarkedClosed s) (hp : s'.tsock.flags.put = s.tsock.flags.put)
    (hst : s'.tsock.state = s.tsock.state) : MarkedClosed s' := by
  unfold MarkedClosed
  rw [hp, hst]
  exact h

theorem aside (h : MarkedClosed s) (ha : RcvAside s s') : MarkedClosed s' := by
  intro hput
  rw [ha.put] at hput
  exact ha.closed (h hput)

private theorem rst (h : MarkedClosed s) (cfg : TcpCfg) : MarkedClosed (tcpRcvRst cfg s).2 := by
  unfold tcpRcvRst
  split
  · exact h
  · exact fun _ => tsockSetState_state ..

private theorem ackFin (h : MarkedClosed s) (cfg : TcpCfg) (ack : U32) :
    MarkedClosed (ackFin cfg s ack) := by
  unfold LibTpa.ackFin
  split
  · dsimp only
    split
    · next hst => exact of_unmarked (h.unmarked fun hc => nomatch hst.symm.trans hc)
    · next hst => exact of_unmarked (h.unmarked fun hc => nomatch hst.symm.trans hc)
    · exact fun _ => rfl
    · exact h
  · exact h

private theorem acked (h : MarkedClosed s) (cfg : TcpCfg) (p : Packet) (o : TcpOpts) :
    MarkedClosed (ackAccepted cfg s p o) := by
  have hdup := h.aside (TxFrame.countDupack s p).frame.aside
  have hfin := hdup.ackFin cfg p.ack
  exact hfin.aside (TxFrame.ackProgress cfg (LibTpa.ackFin cfg (countDupack s p) p.ack) p o
    (ackedLen s.tsock.snd p.ack)).frame.aside

private theorem established (h : MarkedClosed s) (cfg : TcpCfg) (p : Packet)
    (hc : s.tsock.state ≠ .closed) : MarkedClosed (tsockEstablished cfg s p) := by
  obtain ⟨s₁, hf, -, he⟩ := tsockEstablished_split cfg s p
  rw [he]
  refine of_unmarked ?_
  change (tsockSetState cfg s₁ .established).tsock.flags.put = false
  rw [show (tsockSetState cfg s₁ .established).tsock.flags = s₁.tsock.flags from rfl,
    hf.frame.flags]
  exact h.unmarked hc

private theorem active (h : MarkedClosed s) (cfg : TcpCfg) (p : Packet)
    (hst : s.tsock.state = .synSent) : MarkedClosed (synSentToEstablished cfg s p).1 := by
  unfold synSentToEstablished
  dsimp only
  obtain ⟨s₁, hs₁⟩ : ∃ s₁, s₁ = processTcpOptNegotiation cfg
    (s.setRcv { s.tsock.rcv with rcvIsn := p.seq, rcvNxt := p.seq + 1 }) p := ⟨_, rfl⟩
  have h₁ : MarkedClosed s₁.1 := by
    rw [hs₁]
    exact h.of_eq rfl rfl
  have hst₁ : s₁.1.tsock.state ≠ .closed := by
    rw [hs₁]
    change s.tsock.state ≠ .closed
    rw [hst]
    decide
  rw [← hs₁]
  have h₂ := h₁.established cfg s₁.2 hst₁
  exact h₂.of_eq rfl rfl

theorem move (h : MarkedClosed s) {b : Bool} (hm : RxMove cfg A s b s') : MarkedClosed s' := by
  cases hm with
  | checked hck => exact h.of_eq (by rw [hck.flags]) hck.state
  | data hf => exact h.of_eq (by rw [hf.flags]) hf.state
  | fin p hc =>
    refine of_unmarked ?_
    rw [(tcpRcvFin_frame cfg s p).flags]
    exact h.unmarked hc
  | rst => exact h.rst cfg
  | passive p _ hst =>
    have hest := h.established cfg p (by rw [hst]; decide)
    exact hest.of_eq rfl rfl
  | active p _ hst => exact h.active cfg p hst
  | acked p o => exact h.acked cfg p o
  | fast p => exact h.aside (TxFrame.tcpRcvAckFastpath cfg s p).frame.aside
  | accept p => exact h.of_eq (by rw [tsockAccept_tsock]) (by rw [tsockAccept_tsock])
  | flags => exact h.aside (Quiet.xmitFlagPacket cfg s).frame.aside
  | enqueued => exact h.of_eq rfl rfl
  | released p => exact h.of_eq rfl rfl
  | head x => exact h.of_eq rfl rfl

theorem run {ps : Option Packet} (h : MarkedClosed s) (hr : RxRun cfg A ps s s') :
    MarkedClosed s' :=
  hr.keep (fun _ _ _ ha hi => hi.aside ha.quiet.frame.aside) (fun _ _ hm hi => hi.move hm) h

end MarkedClosed

/-! ### Bursts -/

/-- A connection, and the segments that were merged behind the packet that waits. -/
structure Burst where
  conn : Conn
  behind : List Packet

def Merges (cfg : TcpCfg) (s : St) (p : Packet) : Prop :=
  s.tsock.state ≠ .listen ∧ ∃ head ∈ s.tsock.rxMergeHead,
    head.seq = s.tsock.rcv.rcvNxt ∧ tcpCanMerge cfg head (parseTsOptFast p) = true

instance Merges.decidable (cfg : TcpCfg) (s : St) (p : Packet) : Decidable (Merges cfg s p) :=
  inferInstanceAs (Decidable (_ ∧ _))

def Burst.behindNext (cfg : TcpCfg) (b : Burst) : ConnEv → List Packet
  | .packet p => if Merges cfg b.conn.st p then b.behind ++ [parseTsOptFast p] else []
  | .burstEnd => []
  | _ => b.behind

def burstStep (cfg : TcpCfg) (b : Burst) (e : ConnEv) : Burst :=
  ⟨connStep cfg b.conn e, b.behindNext cfg e⟩

/-- The segments that an event has processed: the packet that waited and those merged
behind it. -/
def Burst.segments (cfg : TcpCfg) (b : Burst) (e : ConnEv) : List Packet :=
  match processed cfg b.conn.st e with
  | some p => p :: b.behind
  | none => []

/-- The surroundings hand in packets that the socket does not hold, with the flags of
the packet cleared. -/
structure Unread (cfg : TcpCfg) (s : St) (e : ConnEv) : Prop where
  fed : Fed cfg s e
  cleared : ∀ p, e = .packet p → p.hasTsOpt = false

structure BurstInv (s : St) (behind : List Packet) : Prop where
  fast : ∀ p ∈ s.tsock.rxMergeHead, p.FastStamp
  noRst : ∀ q ∈ behind, q.flags.rst = false
  marked : MarkedClosed s

theorem parseTsOptFast_stamp (h : p.hasTsOpt = false) : (parseTsOptFast p).FastStamp := by
  unfold parseTsOptFast
  split
  · next hhead => exact fun _ => ⟨hhead, rfl⟩
  · intro hts
    rw [h] at hts
    cases hts

private theorem merged_noRst (h : tcpCanMerge cfg q p = true) : p.flags.rst = false := by
  simp only [tcpCanMerge, Bool.and_eq_true, decide_eq_true_eq] at h
  exact congrArg TcpFlags.rst h.1.1.1.1.1.2

private theorem inputPacket_head (cfg : TcpCfg) (s : St) (p : Packet) :
    (inputPacket cfg s p).tsock.rxMergeHead = none ∨
      (∃ head ∈ s.tsock.rxMergeHead,
        (inputPacket cfg s p).tsock.rxMergeHead = some (packetChain head (parseTsOptFast p))) ∨
      (inputPacket cfg s p).tsock.rxMergeHead = some (parseTsOptFast p) := by
  unfold inputPacket
  split
  · exact .inl (tcpRcvProcess_head ..)
  · have hcase := tcpMerge_cases cfg s (parseTsOptFast p)
    generalize tcpMerge cfg s (parseTsOptFast p) = s₁ at hcase
    cases hcase with
    | alone => exact .inr (.inr rfl)
    | chained head hh => exact .inr (.inl ⟨head, hh, rfl⟩)
    | behind => exact .inr (.inr rfl)

private theorem BurstInv.fast_packet {l : List Packet} (h : BurstInv s l) (cfg : TcpCfg)
    (hp : p.hasTsOpt = false) :
    ∀ q ∈ (inputPacket cfg s p).tsock.rxMergeHead, q.FastStamp := by
  intro q hq
  rcases inputPacket_head cfg s p with hn | ⟨head, hh, hs⟩ | hs
  · rw [hn] at hq
    cases hq
  · rw [hs] at hq
    cases hq
    exact h.fast head hh
  · rw [hs] at hq
    cases hq
    exact parseTsOptFast_stamp hp

private theorem inputPut_cases (s : St) : (inputPut s).tsock.freed = true ∨
    inputPut s = s ∧ s.tsock.flags.put = false := by
  unfold inputPut
  split
  · exact .inl (tsockFree_freed _)
  · next hput => exact .inr ⟨rfl, Bool.eq_false_iff.mpr hput⟩

private theorem BurstInv.burstEnd {l : List Packet} (h : BurstInv s l) (cfg : TcpCfg) :
    (inputEnd cfg s).tsock.freed = true ∨ BurstInv (inputEnd cfg s) [] := by
  have hrun := inputHead_run (A := fun _ => True) cfg s fun _ _ _ _ => trivial
  have hmark := (h.marked.run hrun).aside (.inputAck cfg _)
  have hhead := (RcvAside.inputAck cfg (inputHead cfg s)).head.trans (inputHead_head cfg _)
  unfold inputEnd
  generalize inputAck cfg (inputHead cfg s) = s₁ at hmark hhead ⊢
  rcases inputPut_cases s₁ with hf | ⟨hs, -⟩
  · exact .inl hf
  · rw [hs]
    refine .inr ⟨fun p hp => ?_, fun q hq => (nomatch hq), hmark⟩
    rw [hhead] at hp
    cases hp

private theorem BurstInv.step {b : Burst} (h : BurstInv b.conn.st b.behind)
    (hu : Unread cfg b.conn.st e) : (sockStep cfg b.conn.st e).tsock.freed = true ∨
      BurstInv (sockStep cfg b.conn.st e) (b.behindNext cfg e) := by
  by_cases hp : ∃ p, e = .packet p
  · obtain ⟨p, rfl⟩ := hp
    have hrun := inputPacket_run (A := fun _ => True) cfg b.conn.st p fun _ _ _ _ => trivial
    refine .inr ⟨h.fast_packet cfg (hu.cleared p rfl), fun q hq => ?_, h.marked.run hrun⟩
    unfold Burst.behindNext at hq
    dsimp only at hq
    split at hq
    · next hm =>
      obtain ⟨-, head, -, -, hmerge⟩ := hm
      rcases List.mem_append.mp hq with hq | hq
      · exact h.noRst q hq
      · rw [List.mem_singleton.mp hq]
        exact merged_noRst hmerge
    · cases hq
  by_cases hb : e = .burstEnd
  · subst hb
    exact h.burstEnd cfg
  · have ha := sockStep_aside cfg b.conn.st (fun p hp' => hp ⟨p, hp'⟩) hb
    have hnext : b.behindNext cfg e = b.behind := by
      cases e <;> first
        | rfl
        | exact absurd rfl hb
        | exact absurd ⟨_, rfl⟩ hp
    rw [hnext]
    refine .inr ⟨?_, h.noRst, h.marked.aside ha⟩
    rw [ha.head]
    exact h.fast

private theorem Opened.waits {s₀ : St} (h : Opened cfg s₀) : s₀.tsock.rxMergeHead = none := by
  cases h with
  | connect => rfl
  | accept w sid isIpv6 p =>
    rw [(SndFrame.xmitSyn cfg _).aside.head]
    obtain ⟨b, isn, mss, wscale, nego, ht⟩ :=
      passiveTsockInit_tsock cfg ⟨w, tsockInit cfg sid isIpv6⟩ p
    rw [ht]
    rfl

private theorem Opened.burstInv {s₀ : St} (h : Opened cfg s₀) : BurstInv s₀ [] := by
  refine ⟨fun p hp => ?_, fun q hq => (nomatch hq), ?_⟩
  · rw [h.waits] at hp
    cases hp
  · intro hput
    rw [h.unclosed.2] at hput
    cases hput

/-- The invariant holds in every run, whatever the segments carry. -/
theorem burstInv_reach {s₀ : St} {b : Burst} (ho : Opened cfg s₀)
    (hr : Reach (burstStep cfg) (fun b e => Unread cfg b.conn.st e) ⟨Conn.start s₀, []⟩ b) :
    b.conn.st.tsock.freed = true ∨ BurstInv b.conn.st b.behind := by
  refine hr.invariant (I := fun b => b.conn.st.tsock.freed = true ∨ BurstInv b.conn.st b.behind)
    (.inr ho.burstInv) fun b e h hu => ?_
  unfold burstStep connStep
  rcases h with hf | h
  · rw [if_pos hf]
    exact .inl hf
  · by_cases hf : b.conn.st.tsock.freed = true
    · rw [if_pos hf]
      exact .inl hf
    · rw [if_neg hf]
      exact h.step hu

/-! ### One event -/

private theorem packet_stamps {l : List Packet} (h : BurstInv s l) (hc : Connected s)
    (hfed : Fed cfg s (.packet p)) :
    SameStamp s (inputPacket cfg s p) ∨
      ∃ q ∈ processed cfg s (.packet p), Stamps s q (inputPacket cfg s p) := by
  rw [inputPacket, if_neg hc.2.1]
  have hcase := tcpMerge_cases cfg s (parseTsOptFast p)
  generalize tcpMerge cfg s (parseTsOptFast p) = s₁ at hcase
  cases hcase with
  | alone => exact .inl ⟨rfl, rfl⟩
  | chained => exact .inl ⟨rfl, rfl⟩
  | behind head hh hm =>
    have hp := processed_behind hc.2.1 hh hm
    have hst := tcpRcvProcess_stamps cfg hc (h.fast head hh) (hfed.apart head hp)
    exact .inr ⟨head, hp, hst.after ⟨rfl, rfl⟩⟩

private theorem inputPut_sameStamp (s : St) : SameStamp s (inputPut s) := by
  unfold inputPut
  split
  · obtain ⟨rcv, timers, ht⟩ := tsockFree_tsock (s.setFlags { s.tsock.flags with put := false })
    exact ⟨by rw [ht]; rfl, by rw [ht]; rfl⟩
  · exact .refl s

private theorem burstEnd_stamps {l : List Packet} (h : BurstInv s l) (hc : Connected s)
    (hfed : Fed cfg s .burstEnd) :
    SameStamp s (inputEnd cfg s) ∨
      ∃ q ∈ processed cfg s .burstEnd, Stamps s q (inputEnd cfg s) := by
  have htail : SameStamp (inputHead cfg s) (inputEnd cfg s) :=
    (RcvAside.inputAck cfg _).sameStamp.trans (inputPut_sameStamp _)
  cases hh : s.tsock.rxMergeHead with
  | none =>
    rw [show inputHead cfg s = s by rw [inputHead, hh]] at htail
    exact .inl htail
  | some head =>
    have hp : processed cfg s .burstEnd = some head := hh
    rw [show inputHead cfg s = tcpRcvProcess cfg s head by rw [inputHead, hh]] at htail
    have hst := tcpRcvProcess_stamps cfg hc (h.fast head hh) (hfed.apart head hp)
    exact .inr ⟨head, hp, hst.after htail⟩

theorem sockStep_stamps {l : List Packet} (h : BurstInv s l) (hc : Connected s)
    (hfed : Fed cfg s e) :
    SameStamp s (sockStep cfg s e) ∨ ∃ q ∈ processed cfg s e, Stamps s q (sockStep cfg s e) := by
  by_cases hp : ∃ p, e = .packet p
  · obtain ⟨p, rfl⟩ := hp
    exact packet_stamps h hc hfed
  by_cases hb : e = .burstEnd
  · subst hb
    exact burstEnd_stamps h hc hfed
  · exact .inl (sockStep_aside cfg s (fun p hp' => hp ⟨p, hp'⟩) hb).sameStamp

private theorem burstEnd_old {l : List Packet} (h : BurstInv s l) (hc : Connected s)
    (hh : s.tsock.rxMergeHead = some p) (hold : StampOld s p) : Unheard s (inputEnd cfg s) := by
  have hone : inputHead cfg s = tcpRcvProcess cfg s p := by rw [inputHead, hh]
  have hdone := tcpRcvProcess_old cfg hc (h.fast p hh) hold
  have hrun := inputHead_run (A := fun _ => True) cfg s fun _ _ _ _ => trivial
  have hmark := h.marked.run hrun
  rw [hone] at hmark
  have hack : Unheard (tcpRcvProcess cfg s p) (inputAck cfg (tcpRcvProcess cfg s p)) := by
    unfold inputAck
    split
    · split
      · exact (Quiet.xmitFlagPacket cfg _).unheard
      · exact ⟨rfl, rfl, rfl, rfl, rfl⟩
    · exact .refl _
  have hall := hdone.trans hack
  have hmark' := hmark.aside (.inputAck cfg _)
  rw [inputEnd, hone]
  generalize inputAck cfg (tcpRcvProcess cfg s p) = s₁ at hall hmark'
  -- a socket of a connection is not marked, so the end of the burst does not release it
  have hput : s₁.tsock.flags.put = false := by
    cases hput : s₁.tsock.flags.put with
    | false => rfl
    | true => exact absurd (hall.state.symm.trans (hmark' hput)) hc.1
  rw [inputPut, hput]
  exact hall

theorem sockStep_old {l : List Packet} (h : BurstInv s l) (hc : Connected s)
    (hp : processed cfg s e = some p) (hold : StampOld s p) : Unheard s (sockStep cfg s e) := by
  cases e with
  | packet q =>
    rw [processed, if_neg hc.2.1] at hp
    obtain ⟨hh, hm⟩ := Option.filter_eq_some_iff.mp hp
    have hdone := tcpRcvProcess_old cfg hc (h.fast p hh) hold
    rw [sockStep_packet cfg q hc.2.1, tcpMerge, hh]
    dsimp only
    rw [if_neg (of_decide_eq_true hm)]
    exact hdone.trans ⟨rfl, rfl, rfl, rfl, rfl⟩
  | burstEnd => exact burstEnd_old h hc hp hold
  | _ => cases hp

/-! ### Whole runs -/

/-- How one event moves `ts_recent`: not back, unless by a segment that is accepted after
`TCP_PAWS_IDLE_MAX` seconds, and not by a reset. -/
structure PawsLaw (cfg : TcpCfg) (b : Burst) (e : ConnEv) : Prop where
  forward : ¬ seqLt (burstStep cfg b e).conn.st.tsock.nego.tsRecent b.conn.st.tsock.nego.tsRecent ∨
    StampIdle b.conn.st ∧ ∃ p ∈ processed cfg b.conn.st e, Passed b.conn.st p ∧
      p.stamp = some (burstStep cfg b e).conn.st.tsock.nego.tsRecent
  rst : ∀ q ∈ b.segments cfg e, q.flags.rst = true →
    (burstStep cfg b e).conn.st.tsock.nego.tsRecent = b.conn.st.tsock.nego.tsRecent

/-- No old segment changes the stream, what was acknowledged or the state. -/
def OldRefused (cfg : TcpCfg) (b : Burst) (e : ConnEv) : Prop :=
  ∀ q ∈ b.segments cfg e, StampOld b.conn.st q → Unheard b.conn.st (burstStep cfg b e).conn.st

/-- No old segment is merged behind one that is not old. -/
def MergedAlike (cfg : TcpCfg) (b : Burst) (e : ConnEv) : Prop :=
  ∀ p ∈ processed cfg b.conn.st e, ∀ q ∈ b.behind, StampOld b.conn.st q → StampOld b.conn.st p

private theorem seqLt_irrefl (a : U32) : ¬ seqLt a a := by
  rw [seqLt_iff]
  simp

/-- In every run of a connection `ts_recent` obeys the law; and an event in which no old
segment is merged behind another lets no old segment through. -/
theorem paws_run (cfg : TcpCfg) (s₀ : St) (b : Burst) (ho : Opened cfg s₀)
    (hr : Reach (burstStep cfg) (fun b e => Unread cfg b.conn.st e) ⟨Conn.start s₀, []⟩ b)
    (e : ConnEv) (he : Unread cfg b.conn.st e) (hlive : b.conn.st.tsock.freed = false)
    (hc : Connected b.conn.st) :
    PawsLaw cfg b e ∧ (MergedAlike cfg b e → OldRefused cfg b e) := by
  have hinv : BurstInv b.conn.st b.behind := by
    rcases burstInv_reach ho hr with hf | h
    · rw [hlive] at hf
      cases hf
    · exact h
  have hstep : (burstStep cfg b e).conn.st = sockStep cfg b.conn.st e := by
    rw [burstStep, connStep, if_neg (Bool.eq_false_iff.mp hlive)]
  have hst := sockStep_stamps hinv hc he.fed
  refine ⟨⟨?_, ?_⟩, ?_⟩
  · rw [hstep]
    rcases hst with hk | ⟨p, hp, hk | ⟨hv, hr, hn⟩⟩
    · rw [hk.recent]
      exact .inl (seqLt_irrefl _)
    · rw [hk.recent]
      exact .inl (seqLt_irrefl _)
    · exact hn.imp id fun hi => ⟨hi.1, p, hp, hi.2, hv⟩
  · intro q hq hrst
    rw [hstep]
    unfold Burst.segments at hq
    rcases hst with hk | ⟨p, hp, hk | ⟨hv, hr, hn⟩⟩
    · exact hk.recent
    · exact hk.recent
    · rw [Option.mem_def.mp hp] at hq
      rcases List.mem_cons.mp hq with rfl | hq
      · rw [hr] at hrst
        cases hrst
      · rw [hinv.noRst q hq] at hrst
        cases hrst
  · intro halike q hq hold
    rw [hstep]
    unfold Burst.segments at hq
    cases hp : processed cfg b.conn.st e with
    | none =>
      rw [hp] at hq
      cases hq
    | some p =>
      rw [hp] at hq
      refine sockStep_old hinv hc hp ?_
      rcases List.mem_cons.mp hq with rfl | hq
      · exact hold
      · exact halike p hp q hq hold

instance Unread.decidable (cfg : TcpCfg) (s : St) : (e : ConnEv) → Decidable (Unread cfg s e)
  | .packet p => decidable_of_iff (Fed cfg s (.packet p) ∧ p.hasTsOpt = false)
      ⟨fun h => ⟨h.1, fun _ hp => ConnEv.packet.inj hp ▸ h.2⟩, fun h => ⟨h.fed, h.cleared p rfl⟩⟩
  | .burstEnd => decidable_of_iff (Fed cfg s .burstEnd)
      ⟨fun h => ⟨h, fun _ hp => (nomatch hp)⟩, fun h => h.fed⟩
  | .write _ | .read _ | .dropOoo | .close | .output | .delayedAck | .timer _ | .neighReady
  | .env _ =>
    isTrue ⟨⟨fun _ hp => (nomatch hp), fun _ hq => (nomatch hq)⟩, fun _ hp => (nomatch hp)⟩

instance MergedAlike.decidable (cfg : TcpCfg) (b : Burst) (e : ConnEv) :
    Decidable (MergedAlike cfg b e) :=
  inferInstanceAs (Decidable (∀ p ∈ processed cfg b.conn.st e, _))

def Packet.stampedByte (id : PktId) (seq : U32) (v b : Byte) : Packet :=
  { Packet.oneByte id seq 1 0 { ack := true } b with
    optLen := 12
    optArea := [1, 1, 8, 10, 0, 0, 0, v, 0, 0, 0, 0] }

def oldByte : List ConnEv := handshake ++ [.packet (.stampedByte 2 101 3 7)]

theorem paws_run_oldByte :
    let b := exec (burstStep {}) ⟨Conn.start agreed, []⟩ oldByte
    b.conn.st.tsock.nego.tsRecent = 9 ∧ PawsLaw {} b .burstEnd ∧
      b.segments {} .burstEnd = [parseTsOptFast (.stampedByte 2 101 3 7)] ∧
      Unheard b.conn.st (burstStep {} b .burstEnd).conn.st := by
  have hopen : Opened {} agreed := .accept _ _ _ _ ⟨by decide, by decide⟩
  have hadm : Admitted (burstStep {}) (fun b e => Unread {} b.conn.st e) ⟨Conn.start agreed, []⟩
    oldByte := by decide +kernel
  obtain ⟨hlaw, hold⟩ := paws_run {} _ _ hopen (Reach.refl.exec hadm) .burstEnd
    (by decide +kernel) (by decide +kernel) (by decide +kernel)
  have hsegs : (exec (burstStep {}) ⟨Conn.start agreed, []⟩ oldByte).segments {} .burstEnd =
    [parseTsOptFast (.stampedByte 2 101 3 7)] := by decide +kernel
  refine ⟨by decide +kernel, hlaw, hsegs, hold (by decide +kernel)
    (parseTsOptFast (.stampedByte 2 101 3 7)) ?_ (by decide +kernel)⟩
  exact List.mem_singleton.mpr rfl

/-- The handshake behind a SYN with time stamp 9, a byte without a time stamp and one with time
stamp 0 behind it. -/
def oldBehindBare : List ConnEv :=
  handshake ++ [.packet (.oneByte 2 101 1 0 { ack := true } 7), .packet (.stampedByte 3 102 0 8)]

/-- The packet that waits has no time stamp, and the field for it holds 0 as well: the
old byte is merged behind it and goes into the stream. -/
theorem oldBehindBare_taken :
    let b := exec (burstStep {}) ⟨Conn.start agreed, []⟩ oldBehindBare
    Opened {} agreed ∧
      Admitted (burstStep {}) (fun b e => Unread {} b.conn.st e) ⟨Conn.start agreed, []⟩
        (oldBehindBare ++ [.burstEnd]) ∧
      b.conn.st.tsock.freed = false ∧ Connected b.conn.st ∧
      parseTsOptFast (.stampedByte 3 102 0 8) ∈ b.segments {} .burstEnd ∧
      StampOld b.conn.st (parseTsOptFast (.stampedByte 3 102 0 8)) ∧
      b.conn.st.tsock.rcv.rcvNxt = 101 ∧
      (burstStep {} b .burstEnd).conn.st.tsock.rcv.rcvNxt = 103 ∧
      ¬ OldRefused {} b .burstEnd := by
  have hopen : Opened {} agreed := .accept _ _ _ _ ⟨by decide, by decide⟩
  have hmem : parseTsOptFast (.stampedByte 3 102 0 8) ∈
    (exec (burstStep {}) ⟨Conn.start agreed, []⟩ oldBehindBare).segments {} .burstEnd := by
    decide +kernel
  have hold : StampOld (exec (burstStep {}) ⟨Conn.start agreed, []⟩ oldBehindBare).conn.st
    (parseTsOptFast (.stampedByte 3 102 0 8)) := by decide +kernel
  refine ⟨hopen, by decide +kernel, by decide +kernel, by decide +kernel, hmem, hold,
    by decide +kernel, by decide +kernel, fun hlaw => ?_⟩
  have hnxt := (hlaw _ hmem hold).nxt
  revert hnxt
  decide +kernel

end LibTpa
