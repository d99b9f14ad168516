/- LibTpa/Conn/Moves
   digest: The processing of a packet as a chain of moves. -/

import LibTpa.Conn.Cases
import LibTpa.Input.Reset
import LibTpa.Rcv.Frame

/-!
Whatever a packet does to a socket, it does by moves from a short list, behind an
answer that some packets get at once. An invariant that survives the answers and every
move survives the packet.
-/

set_option autoImplicit false

namespace LibTpa

variable {cfg : TcpCfg} {A : Packet → Prop} {s s' : St} {p : Packet}

/-- The packet as the functions behind `tcp_rcv_pkt` see it: cut by `tcp_rcv_data`
on the fast path, and with its options parsed. -/
inductive Derived (cfg : TcpCfg) (s : St) (p : Packet) : Packet → Prop
  | self : Derived cfg s p p
  | cut (s₁ s₂ : St) (e : Option Code) (p₂ : Packet) (hc : Checked s s₁)
      (hd : tcpRcvData cfg s₁ p = (e, s₂, p₂)) : Derived cfg s p p₂
  | parsed (p₂ : Packet) (h : Derived cfg s p p₂) : Derived cfg s p (parseTcpOpts p₂).2.2

theorem Derived.header {q : Packet} (h : Derived cfg s p q) (hheld : s.rxSt.held p.id = 0) :
    q.flags = p.flags ∧ q.ack = p.ack := by
  induction h with
  | self => exact ⟨rfl, rfl⟩
  | cut s₁ s₂ e p₂ hc hd =>
    have hrx : s₁.rxSt = s.rxSt := by rw [St.rxSt, St.rxSt, hc.tsock, hc.worker]
    have hhdr : SameHdr p p₂ := by
      have hcut := tcpRcvData_hdr cfg s₁ p (by rw [hrx]; exact hheld)
      rw [hd] at hcut
      exact hcut
    exact ⟨hhdr.flags, by rw [hhdr.eq]⟩
  | parsed p₂ _ ih => exact ⟨p₂.parsed_flags.trans ih.1, p₂.parsed_ack.trans ih.2⟩

structure InFlight (t : TcpSock) (p : Packet) : Prop where
  flag : p.flags.ack = true
  una : ¬ seqLt p.ack t.snd.sndUna
  nxt : ¬ seqGt p.ack t.snd.sndNxt

/-- One move, and whether it acknowledges. The packets it looks at are among those that `A`
describes. -/
inductive RxMove (cfg : TcpCfg) (A : Packet → Prop) : St → Bool → St → Prop
  | checked {s s' : St} (h : Checked s s') (hc : s.tsock.state ≠ .closed) : RxMove cfg A s false s'
  | data {s s' : St} (h : RcvFrame s s') : RxMove cfg A s false s'
  | fin (s : St) (p : Packet) (hc : s.tsock.state ≠ .closed) :
      RxMove cfg A s false (tcpRcvFin cfg s p).2
  | rst (s : St) (p : Packet) (hp : A p) (hr : p.flags.rst = true) :
      RxMove cfg A s false (tcpRcvRst cfg s).2
  | passive (s : St) (p : Packet) (hp : A p) (hst : s.tsock.state = .synRcvd)
      (ha : InFlight s.tsock p) :
      RxMove cfg A s true (acceptTsockEnqueue (tsockEstablished cfg s p))
  | active (s : St) (p : Packet) (hp : A p) (hst : s.tsock.state = .synSent)
      (hlo : seqGt p.ack s.tsock.snd.sndIsn) (hhi : ¬ seqGt p.ack s.tsock.snd.sndNxt)
      (ha : p.flags.ack = true) : RxMove cfg A s true (synSentToEstablished cfg s p).1
  | acked (s : St) (p : Packet) (o : TcpOpts) (hp : A p) (hc : s.tsock.state ≠ .closed)
      (hl : s.tsock.state ≠ .listen) (hs : s.tsock.state ≠ .synSent)
      (hr : s.tsock.state ≠ .synRcvd) (ha : InFlight s.tsock p) :
      RxMove cfg A s true (ackAccepted cfg s p o)
  | fast (s : St) (p q : Packet) (hp : A p) (hq : A q) (hst : s.tsock.state = .established)
      (hlo : ¬ seqLt q.ack s.tsock.snd.sndUna) (hhi : ¬ seqGt q.ack s.tsock.snd.sndNxt)
      (hidle : s.tsock.snd.retransStage = .none) (ha : q.flags.ack = true) :
      RxMove cfg A s true (tcpRcvAckFastpath cfg s p)
  | accept (s : St) (p : Packet) (hst : s.tsock.state = .listen) :
      RxMove cfg A s false (tsockAccept cfg s p).2.1
  | flags (s : St) : RxMove cfg A s false (xmitFlagPacket cfg s).2
  | enqueued (s : St) : RxMove cfg A s false (outputTsockEnqueue s)
  | released (s : St) (p : Packet) : RxMove cfg A s false (packetFree s p)
  | head (s : St) (x : Option Packet) : RxMove cfg A s false (s.setHead x)

/-- Any number of moves, at most one of which acknowledges. -/
inductive RxMoves (cfg : TcpCfg) (A : Packet → Prop) (s : St) : Bool → St → Prop
  | refl : RxMoves cfg A s false s
  | tail {b : Bool} {s₁ s' : St} (h : RxMoves cfg A s b s₁) (hm : RxMove cfg A s₁ false s') :
      RxMoves cfg A s b s'
  | acked {s₁ s' : St} (h : RxMoves cfg A s false s₁) (hm : RxMove cfg A s₁ true s') :
      RxMoves cfg A s true s'

namespace RxMoves

variable {b : Bool} {s₁ : St}

theorem single (hm : RxMove cfg A s b s') : RxMoves cfg A s b s' := by
  cases b with
  | false => exact .tail .refl hm
  | true => exact .acked .refl hm

theorem before (h : RxMoves cfg A s false s₁) (h' : RxMoves cfg A s₁ b s') :
    RxMoves cfg A s b s' := by
  induction h' with
  | refl => exact h
  | tail _ hm ih => exact ih.tail hm
  | acked _ hm ih => exact ih.acked hm

theorem after (h : RxMoves cfg A s b s₁) (h' : RxMoves cfg A s₁ false s') :
    RxMoves cfg A s b s' := by
  generalize hc : false = c at h'
  induction h' with
  | refl => exact h
  | tail _ hm ih => exact (ih hc).tail hm
  | acked => cases hc

theorem keep {P : St → Prop} (h : RxMoves cfg A s b s')
    (hstep : ∀ {b : Bool} (s s' : St), RxMove cfg A s b s' → P s → P s') (h₀ : P s) : P s' := by
  induction h with
  | refl => exact h₀
  | tail _ hm ih => exact hstep _ _ hm ih
  | acked _ hm ih => exact hstep _ _ hm ih

end RxMoves

/-! What does not acknowledge leaves the send half alone. -/

structure Onward (a b : TcpState) : Prop where
  early : inHandshake b = true → inHandshake a = true
  closed : a = .closed → b = .closed

theorem Onward.refl (a : TcpState) : Onward a a := ⟨id, id⟩

theorem Onward.of_eq {a b : TcpState} (h : b = a) : Onward a b := h ▸ .refl a

theorem Onward.trans {a b c : TcpState} (h : Onward a b) (h' : Onward b c) : Onward a c :=
  ⟨fun hc => h.early (h'.early hc), fun ha => h'.closed (h.closed ha)⟩

theorem Onward.toClosed (a : TcpState) : Onward a .closed :=
  ⟨fun he => absurd he (by decide), fun _ => rfl⟩

/-- Neither the congestion state nor the send half has changed, and no handshake begins. -/
structure Beside (s s' : St) : Prop where
  cc : s'.tsock.cc = s.tsock.cc
  snd : s'.tsock.snd = s.tsock.snd
  state : Onward s.tsock.state s'.tsock.state

namespace Beside

variable {s'' : St}

theorem of_eq (h : s'.tsock = s.tsock) : Beside s s' :=
  ⟨by rw [h], by rw [h], .of_eq (by rw [h])⟩

theorem trans (h : Beside s s') (h' : Beside s' s'') : Beside s s'' :=
  ⟨h'.cc.trans h.cc, h'.snd.trans h.snd, h.state.trans h'.state⟩

theorem quiet (h : Quiet s s') : Beside s s' := ⟨h.cc, h.snd, .of_eq h.frame.state⟩

theorem setState (cfg : TcpCfg) {st : TcpState} (h : Beside s s')
    (hst : Onward s.tsock.state st) : Beside s (tsockSetState cfg s' st) := by
  have ht := tsockSetState_tsock cfg s' st
  refine ⟨by rw [ht]; exact h.cc, by rw [ht]; exact h.snd, ?_⟩
  rw [tsockSetState_state]
  exact hst

theorem free (s : St) : Beside s (tsockFree s) := by
  obtain ⟨rcv, timers, ht⟩ := tsockFree_tsock s
  exact ⟨by rw [ht], by rw [ht], .of_eq (by rw [ht])⟩

private theorem fin (cfg : TcpCfg) (p : Packet) (hc : s.tsock.state ≠ .closed) :
    Beside s (tcpRcvFin cfg s p).2 := by
  have ht := (tcpRcvFin_frame cfg s p).tsock
  refine ⟨by rw [ht], by rw [ht], ?_⟩
  rw [tcpRcvFin_state]
  split
  · refine ⟨?_, fun h0 => absurd h0 hc⟩
    cases s.tsock.state <;> decide
  · exact .refl _

private theorem rst (cfg : TcpCfg) (s : St) : Beside s (tcpRcvRst cfg s).2 := by
  unfold tcpRcvRst
  split
  · exact of_eq rfl
  dsimp only
  refine setState cfg ?_ (.toClosed _)
  split <;> exact ⟨rfl, rfl, .refl _⟩

end Beside

theorem RxMove.beside (hm : RxMove cfg A s false s') : Beside s s' := by
  cases hm with
  | checked h => exact ⟨h.cc, h.snd, .of_eq h.state⟩
  | data h => exact ⟨h.cc, h.snd, .of_eq h.state⟩
  | fin q hc => exact .fin cfg q hc
  | rst => exact .rst cfg s
  | accept q => exact .of_eq (tsockAccept_tsock cfg s q)
  | flags => exact .quiet (.xmitFlagPacket cfg s)
  | enqueued => exact .of_eq rfl
  | released => exact .of_eq rfl
  | head => exact ⟨rfl, rfl, .refl _⟩

theorem RxMoves.beside (h : RxMoves cfg A s false s') : Beside s s' := by
  generalize hc : false = c at h
  induction h with
  | refl => exact .of_eq rfl
  | tail _ hm ih => exact (ih hc).trans hm.beside
  | acked => cases hc

/-- The answers of `tcp_rcv_pkt` that carry a reset. -/
inductive Answer (cfg : TcpCfg) (s : St) (p : Packet) : St → Prop
  | halfOpen (h : HalfOpen s p) : Answer cfg s p (halfOpened cfg s p)
  | closed (hst : s.tsock.state = .closed) (hw : p.wid = s.worker.id) (hr : p.flags.rst = false) :
      Answer cfg s p (xmitFlagPacket cfg
        (s.setFlags { s.tsock.flags with tcp := { s.tsock.flags.tcp with rst := true } })).2
  | listen (hst : s.tsock.state = .listen) : Answer cfg s p (xmitRstForListen s p).2

theorem Answer.quiet (h : Answer cfg s p s') : Quiet s s' := by
  cases h with
  | halfOpen =>
    exact ((Quiet.setTcp s _).trans (.xmitFlagPacketWithSeq cfg _ p.ack)).trans
      (.outputTsockEnqueue _)
  | closed => exact (Quiet.setTcp s _).trans (.xmitFlagPacket cfg _)
  | listen hst => exact .xmitRstForListen s p hst

inductive RxRun (cfg : TcpCfg) (A : Packet → Prop) (ps : Option Packet) (s : St) : St → Prop
  | moves {b : Bool} {s' : St} (h : RxMoves cfg A s b s') : RxRun cfg A ps s s'
  | answered {s₁ s' : St} (p : Packet) (hp : p ∈ ps) (ha : Answer cfg s p s₁)
      (h : RxMoves cfg A s₁ false s') : RxRun cfg A ps s s'

namespace RxRun

variable {ps : Option Packet} {s₁ : St}

theorem tail (h : RxRun cfg A ps s s₁) (hm : RxMove cfg A s₁ false s') : RxRun cfg A ps s s' := by
  cases h with
  | moves h => exact .moves (h.tail hm)
  | answered p hp ha h => exact .answered p hp ha (h.tail hm)

theorem keep {P : St → Prop} (h : RxRun cfg A ps s s')
    (hans : ∀ p ∈ ps, ∀ s₁, Answer cfg s p s₁ → P s → P s₁)
    (hstep : ∀ {b : Bool} (s s' : St), RxMove cfg A s b s' → P s → P s') (h₀ : P s) : P s' := by
  cases h with
  | moves h => exact h.keep hstep h₀
  | answered p hp ha h => exact h.keep hstep (hans p hp _ ha h₀)

end RxRun

theorem sendAck_moves (cfg : TcpCfg) (A : Packet → Prop) (s : St) (p : Packet) :
    RxMoves cfg A s false (sendAck cfg s p) := by
  unfold sendAck
  split
  · exact .refl
  · split
    · exact .single (.data ((RcvFrame.tsockResetQuickack s).trans (.tsockSetAckFlag ..)))
    · exact .single (.data (.tsockSetAckFlag ..))

theorem tcpRcvAck_moves (cfg : TcpCfg) (s : St) (o : TcpOpts) (hp : A p) :
    ∃ b, RxMoves cfg A s b (tcpRcvAck cfg s p o).2 := by
  have hcase := tcpRcvAck_cases cfg s p o
  generalize tcpRcvAck cfg s p o = r at hcase
  cases hcase with
  | unsynchronised => exact ⟨_, .refl⟩
  | beyond => exact ⟨_, .single (.data (.tsockSetAckFlag ..))⟩
  | old => exact ⟨_, .refl⟩
  | established ha hlt hgt hst =>
    have hm : RxMove cfg A s true _ := .passive s p hp hst ⟨ha, hlt, hgt⟩
    exact ⟨_, .single hm⟩
  | accepted ha hlt hgt hc hl hs hst =>
    have hm : RxMove cfg A s true _ := .acked s p o hp hc hl hs hst ⟨ha, hlt, hgt⟩
    generalize ackAccepted cfg s p o = s' at hm
    exact ⟨_, .single hm⟩

theorem rcvText_moves (cfg : TcpCfg) (A : Packet → Prop) (p : Packet)
    (hc : s.tsock.state ≠ .closed) : RxMoves cfg A s false (rcvText cfg s p).2.1 := by
  have hd := RcvFrame.tcpRcvData cfg s p
  unfold rcvText
  split
  · split
    · next heq =>
      rw [heq] at hd
      exact .single (.data hd)
    · next s₁ p₁ heq =>
      rw [heq] at hd
      exact (RxMoves.single (.data hd)).tail (.fin s₁ p₁ (by rw [hd.state]; exact hc))
  split
  · exact .refl
  · exact .single (.fin s p hc)

theorem rcvSynchronised_moves (cfg : TcpCfg) (s : St) (p : Packet) (hp : A (parseTcpOpts p).2.2)
    (hst : s.tsock.state ≠ .closed) : ∃ b, RxMoves cfg A s b (rcvSynchronised cfg s p).2.1 := by
  obtain ⟨s₂, hck, hcase⟩ := rcvSynchronised_cases cfg s p
  have h₂ : RxMoves cfg A s false s₂ := .single (.checked hck hst)
  obtain ⟨b, ha⟩ := tcpRcvAck_moves cfg s₂ (parseTcpOpts p).2.1 hp
  generalize rcvSynchronised cfg s p = r at hcase
  cases hcase with
  | refused => exact ⟨_, h₂.before (sendAck_moves ..)⟩
  | rst _ hr => exact ⟨_, h₂.tail (.rst s₂ _ hp (by rw [p.parsed_flags]; exact hr))⟩
  | syn => exact ⟨_, h₂.before (sendAck_moves ..)⟩
  | badAck _ _ _ e s₃ heq =>
    rw [heq] at ha
    exact ⟨b, h₂.before ha⟩
  | closed _ _ _ s₃ heq =>
    rw [heq] at ha
    exact ⟨b, h₂.before ha⟩
  | text _ _ _ s₃ heq hc =>
    rw [heq] at ha
    exact ⟨b, (h₂.before ha).after (rcvText_moves cfg A _ hc)⟩

theorem tcpRcvPktAtSynSent_run (cfg : TcpCfg) (s : St) (hp : A p) (hw : p.wid = s.worker.id)
    (hst : s.tsock.state = .synSent) : RxRun cfg A (some p) s (tcpRcvPktAtSynSent cfg s p).2.1 := by
  unfold tcpRcvPktAtSynSent
  dsimp only
  split
  · next hout => exact .answered p rfl (.halfOpen ⟨hw, hst, hout⟩) .refl
  next hin =>
  split
  · split
    · next hr _ => exact .moves (.single (.rst s p hp hr))
    · exact .moves .refl
  split
  · exact .moves .refl
  split
  · exact .moves .refl
  next hack =>
  split
  · next hlo =>
    have ha : p.flags.ack = true := by simpa using hack
    exact .moves (.single (.active s p hp hst hlo (fun hhi => hin ⟨ha, .inr hhi⟩) ha))
  · exact .moves .refl

theorem sendRst_run (cfg : TcpCfg) (A : Packet → Prop) (hst : s.tsock.state = .closed)
    (hw : p.wid = s.worker.id) : RxRun cfg A (some p) s (sendRst cfg s p) := by
  unfold sendRst
  split
  · exact .moves .refl
  · next hr => exact .answered p rfl (.closed hst hw (by simpa using hr)) .refl

theorem tcpRcvPktAtListen_run (cfg : TcpCfg) (A : Packet → Prop) (p : Packet)
    (hst : s.tsock.state = .listen) : RxRun cfg A (some p) s (tcpRcvPktAtListen cfg s p).2.1 := by
  unfold tcpRcvPktAtListen
  split
  · exact .moves .refl
  split
  · exact .answered p rfl (.listen hst) .refl
  split
  · exact .moves (.single (.accept s p hst))
  · exact .moves .refl

theorem tcpRcvSlowpath_run (cfg : TcpCfg) (s : St) (p : Packet) (hp : A p)
    (hp' : A (parseTcpOpts p).2.2) (hw : p.wid = s.worker.id ∨ s.tsock.state = .listen) :
    RxRun cfg A (some p) s (tcpRcvSlowpath cfg s p).2.1 := by
  unfold tcpRcvSlowpath
  split
  · next hst => exact sendRst_run cfg A hst (hw.resolve_right (by rw [hst]; decide))
  · next hst =>
    exact tcpRcvPktAtSynSent_run cfg s hp (hw.resolve_right (by rw [hst]; decide)) hst
  · next hst => exact tcpRcvPktAtListen_run cfg A p hst
  · next hc _ _ =>
    obtain ⟨b, h⟩ := rcvSynchronised_moves cfg s p hp' hc
    exact .moves h

private theorem clearPsh_ack {f : TcpFlags} (h : f.clearPsh = tcpFlagAck) : f.ack = true :=
  congrArg TcpFlags.ack h

theorem tcpRcvPkt_run (cfg : TcpCfg) (s : St) (p : Packet) (hA : ∀ q, Derived cfg s p q → A q) :
    RxRun cfg A (some p) s (tcpRcvPkt cfg s p).2.1 := by
  have hcase := tcpRcvPkt_cases cfg s p
  generalize tcpRcvPkt cfg s p = r at hcase
  cases hcase with
  | stale => exact .moves .refl
  | slow hw => exact tcpRcvSlowpath_run cfg s p (hA _ .self) (hA _ (.parsed _ .self)) hw
  | fast s₁ s₂ p₂ _ hst hoff hck hd =>
    have hfr := RcvFrame.tcpRcvData cfg s₁ p
    have hder := Derived.cut s₁ s₂ none p₂ hck hd
    rw [hd] at hfr
    have hst₂ : s₂.tsock.state = .established := (hfr.state.trans hck.state).trans hst
    have hsnd : s₂.tsock.snd = s.tsock.snd := hfr.snd.trans hck.snd
    unfold fastpathOff at hoff
    have hm : RxMove cfg A s₂ true _ := .fast s₂ p₂ p (hA _ hder) (hA _ .self) hst₂
      (by rw [hsnd]; tauto) (by rw [hsnd]; tauto) (by rw [hsnd]; tauto) (clearPsh_ack (by tauto))
    have hst₃ := (TxFrame.tcpRcvAckFastpath cfg s₂ p₂).state
    generalize tcpRcvAckFastpath cfg s₂ p₂ = s₃ at hm hst₃
    have hck' : RxMove cfg A s₃ false (tsockRearmTimerKeepalive cfg s₃) :=
      .checked ⟨rfl, rfl, rfl, rfl, .inr rfl⟩ (by rw [hst₃, hst₂]; decide)
    refine .moves ((((RxMoves.single (.checked hck ?_)).tail (.data hfr)).acked hm).tail hck')
    rw [hst]
    decide
  | fallback s₁ s₂ p₂ e _ hst _ hck hd =>
    have hfr := RcvFrame.tcpRcvData cfg s₁ p
    have hder := Derived.cut s₁ s₂ (some e) p₂ hck hd
    rw [hd] at hfr
    have hc : s.tsock.state ≠ .closed := by rw [hst]; decide
    have hst₂ : s₂.tsock.state = .established := (hfr.state.trans hck.state).trans hst
    obtain ⟨b, hsync⟩ :=
      rcvSynchronised_moves cfg s₂ p₂ (hA _ (.parsed _ hder)) (by rw [hst₂]; decide)
    rw [tcpRcvSlowpath, hst₂]
    exact .moves (((RxMoves.single (.checked hck hc)).tail (.data hfr)).before hsync)

theorem rcvDone_run (cfg : TcpCfg) {ps : Option Packet} {r : Option Code × St × Packet}
    (h : RxRun cfg A ps s r.2.1) : RxRun cfg A ps s (
      let s := if r.1 ≠ none ∨ r.2.2.len = 0 then packetFree r.2.1 r.2.2 else r.2.1
      let s := if s.tsock.flags.ackNow then (xmitFlagPacket cfg s).2 else s
      { s with tsock := { s.tsock with rxMergeHead := none } }) := by
  have h₁ : RxRun cfg A ps s
      (if r.1 ≠ none ∨ r.2.2.len = 0 then packetFree r.2.1 r.2.2 else r.2.1) := by
    split
    · exact h.tail (.released ..)
    · exact h
  dsimp only
  generalize (if r.1 ≠ none ∨ r.2.2.len = 0 then packetFree r.2.1 r.2.2 else r.2.1) = s₁ at h₁
  split
  · exact (h₁.tail (.flags s₁)).tail (.head _ none)
  · exact h₁.tail (.head _ none)

private theorem Answer.of_rewind (h : Answer cfg s { p with toRead := p.segs } s') :
    Answer cfg s p s' := by
  cases h with
  | halfOpen h => exact .halfOpen h
  | closed hst hw hr => exact .closed hst hw hr
  | listen hst => exact .listen hst

theorem tcpRcvProcess_run (cfg : TcpCfg) (s : St) (p : Packet)
    (hA : ∀ q, Derived cfg s { p with toRead := p.segs } q → A q) :
    RxRun cfg A (some p) s (tcpRcvProcess cfg s p) := by
  refine rcvDone_run cfg ?_
  cases tcpRcvPkt_run cfg s { p with toRead := p.segs } hA with
  | moves h => exact .moves h
  | answered q hq ha h =>
    cases hq
    exact .answered p rfl ha.of_rewind h

/-- What is known of every packet that the event hands to `tcp_rcv_process`. -/
def Knows (cfg : TcpCfg) (A : Packet → Prop) (s : St) (e : ConnEv) : Prop :=
  ∀ p ∈ processed cfg s e, ∀ q, Derived cfg s { p with toRead := p.segs } q → A q

theorem inputPacket_run (cfg : TcpCfg) (s : St) (p : Packet) (hA : Knows cfg A s (.packet p)) :
    RxRun cfg A (processed cfg s (.packet p)) s (inputPacket cfg s p) := by
  unfold inputPacket
  split
  · next hl =>
    have hpr : processed cfg s (.packet p) = some (parseTsOptFast p) := by rw [processed, if_pos hl]
    rw [hpr]
    exact tcpRcvProcess_run cfg s _ (hA _ hpr)
  next hl =>
  have hcase := tcpMerge_cases cfg s (parseTsOptFast p)
  generalize tcpMerge cfg s (parseTsOptFast p) = s' at hcase
  cases hcase with
  | alone => exact .moves (.single (.head ..))
  | chained =>
    exact .moves ((RxMoves.single (.data (.tsockSetAckFlag cfg s true))).tail (.head ..))
  | behind head hh hm =>
    have hpr := processed_behind hl hh hm
    rw [hpr]
    exact (tcpRcvProcess_run cfg s head (hA head hpr)).tail (.head ..)

theorem inputHead_run (cfg : TcpCfg) (s : St) (hA : Knows cfg A s .burstEnd) :
    RxRun cfg A (processed cfg s .burstEnd) s (inputHead cfg s) := by
  unfold inputHead
  split
  · next head hh =>
    have hpr : processed cfg s .burstEnd = some head := hh
    rw [hpr]
    exact tcpRcvProcess_run cfg s head (hA head hh)
  · exact .moves .refl

end LibTpa
