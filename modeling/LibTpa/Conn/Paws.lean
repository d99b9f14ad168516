/- LibTpa/Conn/Paws
   digest: What the time stamp of a segment does, on the fast and on the slow path. -/

import LibTpa.Conn.Aside
import LibTpa.Conn.Moves
import LibTpa.Output.OptRoundTrip

set_option autoImplicit false

namespace LibTpa

variable {cfg : TcpCfg} {s s' s'' : St} {p q : Packet}

def Packet.stamp (p : Packet) : Option U32 :=
  if (parseTcpOpts p).2.1.hasTs then some (parseTcpOpts p).2.1.tsVal else none

/-- `TCP_PAWS_IDLE_MAX` seconds have passed since `ts_recent` was noted. -/
def StampIdle (s : St) : Prop :=
  tcpPawsIdleMax ≤ (nowInSec s.worker - s.tsock.nego.tsRecentInSec).toNat

instance StampIdle.decidable (s : St) : Decidable (StampIdle s) :=
  inferInstanceAs (Decidable (_ ≤ _))

/-- A segment without RST whose time stamp is older than `ts_recent`, which is not idle. -/
def StampOld (s : St) (p : Packet) : Prop :=
  p.flags.rst = false ∧ ¬ StampIdle s ∧ ∃ v ∈ p.stamp, seqLt v s.tsock.nego.tsRecent

instance StampOld.decidable (s : St) (p : Packet) : Decidable (StampOld s p) :=
  decidable_of_iff (p.flags.rst = false ∧ ¬ StampIdle s ∧
      p.stamp.any (fun v => seqLt v s.tsock.nego.tsRecent) = true) (by
    unfold StampOld
    cases p.stamp with
    | none => simp
    | some v => simp)

/-- A time stamp that `parse_ts_opt_fast` has set is the one that stands in the
options. -/
def Packet.FastStamp (p : Packet) : Prop :=
  p.hasTsOpt = true → p.optU32 0 = 0x0101080a ∧ p.tsVal = p.optU32 4

/-! ### The two parsers -/

private theorem parseOpt_stamp {o o' : TcpOpts} {p' : Packet} {off len : Nat} {kind : Byte}
    {e : Option Code} (h : parseOpt o p off kind len = .ok (o', p', e))
    (hs : o.hasTs = true → p.tsVal = o.tsVal) : o'.hasTs = true → p'.tsVal = o'.tsVal := by
  unfold parseOpt at h
  split at h
  · cases h
    exact hs
  split at h
  · cases h
    exact hs
  split at h
  · cases h
    exact fun _ => rfl
  split at h
  · cases h
    exact hs
  split at h
  · split at h
    · cases h
    split at h
    · cases h
    · cases h
      exact hs
  · cases h
    exact hs

private theorem parseOptsLoop_stamp (n : Nat) :
    ∀ (off : Nat) (o : TcpOpts) (p : Packet) (ret : Option Code),
      (o.hasTs = true → p.tsVal = o.tsVal) →
      (parseOptsLoop n off o p ret).2.1.hasTs = true →
      (parseOptsLoop n off o p ret).2.2.tsVal = (parseOptsLoop n off o p ret).2.1.tsVal := by
  induction n with
  | zero =>
    intro off o p ret hs
    exact hs
  | succ n ih =>
    intro off o p ret hs
    unfold parseOptsLoop
    split
    swap
    · exact hs
    dsimp only
    split
    · exact hs
    split
    · exact ih _ _ _ _ hs
    split
    · exact hs
    split
    · exact hs
    split
    · exact hs
    · next hp => exact ih _ _ _ _ (parseOpt_stamp hp hs)

theorem Packet.stamp_val {v : U32} (h : p.stamp = some v) : (parseTcpOpts p).2.2.tsVal = v := by
  unfold Packet.stamp at h
  split at h
  · next hts =>
    cases h
    exact parseOptsLoop_stamp _ _ _ _ _ (fun h => nomatch h) hts
  · cases h

private theorem append_inj {w w' : Nat} {a b : BitVec w} {c d : BitVec w'} (h : a ++ c = b ++ d) :
    a = b ∧ c = d := by
  have hlo := congrArg (BitVec.extractLsb' 0 w') h
  have hhi := congrArg (BitVec.extractLsb' w' w) h
  rw [BitVec.extractLsb'_append_eq_right, BitVec.extractLsb'_append_eq_right] at hlo
  rw [BitVec.extractLsb'_append_eq_left, BitVec.extractLsb'_append_eq_left] at hhi
  exact ⟨hhi, hlo⟩

theorem Packet.FastStamp.stamp (h : p.FastStamp) (hts : p.hasTsOpt = true)
    (hlen : p.optLen = tcpOptTsSpace) : p.stamp = some p.tsVal := by
  obtain ⟨hhead, hval⟩ := h hts
  have hlen : p.optLen = 12 := hlen
  obtain ⟨hnops, hkind⟩ := append_inj
    (show p.optU16 0 ++ p.optU16 2 = (0x0101 : U16) ++ (0x080a : U16) from hhead)
  obtain ⟨h0, h1⟩ := append_inj
    (show p.optByte 0 ++ p.optByte 1 = (1 : Byte) ++ (1 : Byte) from hnops)
  obtain ⟨h2, h3⟩ := append_inj
    (show p.optByte 2 ++ p.optByte 3 = (8 : Byte) ++ (10 : Byte) from hkind)
  have hopt : Parses 2 {} p (2 + 10)
      { ({} : TcpOpts) with tsVal := p.optU32 4, tsEcr := p.optU32 8, hasTs := true }
      { p with hasTsOpt := true, tsVal := p.optU32 4, tsEcr := p.optU32 8 } :=
    .option tcpOptTsKind 10 h2 h3 (by decide) (by omega) (by decide) (by decide) rfl
  have hall := ((Parses.nop (by omega) h0).trans (.nop (by omega) h1)).trans hopt
  rw [show 2 + 10 = p.optLen by omega] at hall
  unfold Packet.stamp
  rw [hall.parsed rfl, hval]
  rfl

/-! ### Where `ts_recent` moves -/

structure SameStamp (s s' : St) : Prop where
  recent : s'.tsock.nego.tsRecent = s.tsock.nego.tsRecent
  sec : s'.tsock.nego.tsRecentInSec = s.tsock.nego.tsRecentInSec

namespace SameStamp

theorem refl (s : St) : SameStamp s s := ⟨rfl, rfl⟩

theorem trans (h : SameStamp s s') (h' : SameStamp s' s'') : SameStamp s s'' :=
  ⟨h'.recent.trans h.recent, h'.sec.trans h.sec⟩

end SameStamp

theorem RcvAside.sameStamp (h : RcvAside s s') : SameStamp s s' :=
  ⟨by rw [h.nego], by rw [h.nego]⟩

theorem RcvFrame.sameStamp (h : RcvFrame s s') : SameStamp s s' :=
  ⟨by rw [h.nego], by rw [h.nego]⟩

namespace SameStamp

private theorem tsockSetState (cfg : TcpCfg) (s : St) (st : TcpState) :
    SameStamp s (tsockSetState cfg s st) := by
  unfold LibTpa.tsockSetState
  split <;> exact ⟨rfl, rfl⟩

private theorem sendAck (cfg : TcpCfg) (s : St) (p : Packet) : SameStamp s (sendAck cfg s p) := by
  unfold LibTpa.sendAck
  split
  · exact .refl s
  · split
    · exact ((RcvFrame.tsockResetQuickack s).trans (.tsockSetAckFlag ..)).sameStamp
    · exact (RcvFrame.tsockSetAckFlag ..).sameStamp

private theorem tcpRcvRst (cfg : TcpCfg) (s : St) : SameStamp s (tcpRcvRst cfg s).2 := by
  unfold LibTpa.tcpRcvRst
  split
  · exact .refl s
  · dsimp only
    refine SameStamp.trans ?_ (.tsockSetState ..)
    split <;> exact ⟨rfl, rfl⟩

private theorem ackFin (cfg : TcpCfg) (s : St) (ack : U32) : SameStamp s (ackFin cfg s ack) := by
  unfold LibTpa.ackFin
  split
  · dsimp only
    split <;> exact ⟨rfl, rfl⟩
  · exact .refl s

private theorem ackAccepted (cfg : TcpCfg) (s : St) (p : Packet) (o : TcpOpts) :
    SameStamp s (ackAccepted cfg s p o) := by
  have hdup := (TxFrame.countDupack s p).frame.aside.sameStamp
  have hfin := SameStamp.ackFin cfg (countDupack s p) p.ack
  have hprog := (TxFrame.ackProgress cfg (LibTpa.ackFin cfg (countDupack s p) p.ack) p o
    (ackedLen s.tsock.snd p.ack)).frame.aside.sameStamp
  exact (hdup.trans hfin).trans hprog

private theorem tcpRcvAck (cfg : TcpCfg) (s : St) (p : Packet) (o : TcpOpts) :
    SameStamp s (tcpRcvAck cfg s p o).2 := by
  have hcase := tcpRcvAck_cases cfg s p o
  generalize LibTpa.tcpRcvAck cfg s p o = r at hcase
  cases hcase with
  | unsynchronised => exact .refl s
  | beyond => exact (RcvFrame.tsockSetAckFlag ..).sameStamp
  | old => exact .refl s
  | established =>
    obtain ⟨s₁, hf, -, he⟩ := tsockEstablished_split cfg s p
    have hset := hf.frame.aside.sameStamp.trans (.tsockSetState cfg s₁ .established)
    rw [he]
    exact ⟨hset.recent, hset.sec⟩
  | accepted =>
    dsimp only
    exact SameStamp.ackAccepted cfg s p o

private theorem tcpRcvFin (cfg : TcpCfg) (s : St) (p : Packet) :
    SameStamp s (tcpRcvFin cfg s p).2 := by
  have hf := tcpRcvFin_frame cfg s p
  exact ⟨by rw [hf.nego], by rw [hf.nego]⟩

private theorem rcvText (cfg : TcpCfg) (s : St) (p : Packet) :
    SameStamp s (rcvText cfg s p).2.1 := by
  have hd := (RcvFrame.tcpRcvData cfg s p).sameStamp
  unfold LibTpa.rcvText
  split
  · split
    · next heq =>
      rw [heq] at hd
      exact hd
    · next heq =>
      rw [heq] at hd
      exact hd.trans (.tcpRcvFin ..)
  split
  · exact .refl s
  · exact .tcpRcvFin ..

end SameStamp

/-- What a segment may do to `ts_recent`: nothing, or replace it by its own time stamp,
which is not older unless `ts_recent` had expired. -/
inductive Stamps (s : St) (p : Packet) (s' : St) : Prop
  | kept (h : SameStamp s s')
  | noted (hv : p.stamp = some s'.tsock.nego.tsRecent) (hr : p.flags.rst = false)
      (hn : ¬ seqLt s'.tsock.nego.tsRecent s.tsock.nego.tsRecent ∨ StampIdle s ∧ Passed s p)

theorem Stamps.after (h : Stamps s p s') (h' : SameStamp s' s'') : Stamps s p s'' := by
  cases h with
  | kept hk => exact .kept (hk.trans h')
  | noted hv hr hn => exact .noted (by rw [h'.recent]; exact hv) hr (by rw [h'.recent]; exact hn)

theorem pawsReject_iff : pawsReject s p (parseTcpOpts p).2.1 ↔ StampOld s p := by
  unfold pawsReject StampOld StampIdle Packet.stamp
  split
  · next hts =>
    simp only [hts, true_and, not_le, Option.mem_some_iff, exists_eq_left']
    tauto
  · next hts => simp [hts]

private theorem checked_stamps (cfg : TcpCfg) (s : St) (p : Packet) (hok : Passed s p) :
    Stamps s p (processIncomingSeq (tsockRearmTimerKeepalive cfg s) (parseTcpOpts p).2.2
      (parseTcpOpts p).2.1).2 := by
  unfold processIncomingSeq
  split
  · exact .kept ⟨rfl, rfl⟩
  split
  · exact .kept ⟨rfl, rfl⟩
  next hpaws =>
  split
  · next hupd =>
    have hv : p.stamp = some (parseTcpOpts p).2.2.tsVal := by
      have hs : p.stamp = some (parseTcpOpts p).2.1.tsVal := by
        rw [Packet.stamp, if_pos hupd.1]
      rw [p.stamp_val hs]
      exact hs
    have hr : p.flags.rst = false := by
      rw [← p.parsed_flags]
      exact hupd.2.2
    refine .noted hv hr ?_
    by_cases hidle : StampIdle s
    · exact .inr ⟨hidle, hok⟩
    · refine .inl fun hlt => hok.paws (pawsReject_iff.mpr ⟨hr, hidle, _, hv, hlt⟩)
  · exact .kept ⟨rfl, rfl⟩

private theorem rcvSynchronised_stamps (cfg : TcpCfg) (s : St) (p : Packet) :
    Stamps s p (rcvSynchronised cfg s p).2.1 := by
  have hcase := rcvSynchronised_ways cfg s p
  have hck : ¬ Passed s p → SameStamp s (processIncomingSeq (tsockRearmTimerKeepalive cfg s)
      (parseTcpOpts p).2.2 (parseTcpOpts p).2.1).2 := by
    intro hno
    have hret := mt (passed_iff cfg s p).mp hno
    unfold processIncomingSeq at hret ⊢
    split
    · exact ⟨rfl, rfl⟩
    · next hv =>
      rw [hv] at hret
      dsimp only at hret ⊢
      split
      · exact ⟨rfl, rfl⟩
      · next hpaws =>
        rw [if_neg hpaws] at hret
        split at hret <;> exact absurd rfl hret
  have hok := checked_stamps cfg s p
  generalize (processIncomingSeq (tsockRearmTimerKeepalive cfg s) (parseTcpOpts p).2.2
    (parseTcpOpts p).2.1).2 = s₂ at hcase hck hok
  have hack := SameStamp.tcpRcvAck cfg s₂ (parseTcpOpts p).2.2 (parseTcpOpts p).2.1
  generalize rcvSynchronised cfg s p = r at hcase
  cases hcase with
  | refused e hno => exact .kept ((hck hno).trans (.sendAck ..))
  | rst hp _ => exact (hok hp).after (.tcpRcvRst ..)
  | syn hp => exact (hok hp).after (.sendAck ..)
  | badAck hp _ _ e s₃ heq =>
    rw [heq] at hack
    exact (hok hp).after hack
  | closed hp _ _ s₃ heq =>
    rw [heq] at hack
    exact (hok hp).after hack
  | text hp _ _ s₃ heq =>
    rw [heq] at hack
    exact (hok hp).after (hack.trans (.rcvText ..))

def Connected (s : St) : Prop :=
  s.tsock.state ≠ .closed ∧ s.tsock.state ≠ .listen ∧ s.tsock.state ≠ .synSent

instance Connected.decidable (s : St) : Decidable (Connected s) :=
  inferInstanceAs (Decidable (_ ∧ _))

private theorem tcpRcvSlowpath_connected (cfg : TcpCfg) (p : Packet) (h : Connected s) :
    tcpRcvSlowpath cfg s p = rcvSynchronised cfg s p := by
  obtain ⟨hc, hl, hs⟩ := h
  unfold tcpRcvSlowpath
  split
  · next hst => exact absurd hst hc
  · next hst => exact absurd hst hs
  · next hst => exact absurd hst hl
  · rfl

theorem SameArea.stamp (h : SameArea p q) : q.stamp = p.stamp := by
  unfold Packet.stamp
  rw [parseTcpOpts_area h]

theorem SameHdr.area (h : SameHdr p q) : SameArea p q := by
  constructor
  · rw [h.eq]
  · rw [h.eq]

/-- A segment that the fast path has noted, and what the slow path makes of it when
`tcp_rcv_data` has failed. -/
private theorem Stamps.again {s₁ s₂ : St} (h : Stamps s₁ q s₂)
    (hn : p.stamp = some s₁.tsock.nego.tsRecent) (hr : p.flags.rst = false)
    (hlt : ¬ seqLt s₁.tsock.nego.tsRecent s.tsock.nego.tsRecent) (hq : q.stamp = p.stamp) :
    Stamps s p s₂ := by
  cases h with
  | kept hk => exact .noted (by rw [hk.recent]; exact hn) hr (.inl (by rw [hk.recent]; exact hlt))
  | noted hv =>
    have hsame : s₂.tsock.nego.tsRecent = s₁.tsock.nego.tsRecent :=
      Option.some.inj ((hv.symm.trans hq).trans hn)
    exact .noted (by rw [hsame]; exact hn) hr (.inl (by rw [hsame]; exact hlt))

private theorem fast_stamps (hfast : p.FastStamp) (hoff : ¬ fastpathOff s.tsock p) :
    p.flags.rst = false ∧ p.stamp = some p.tsVal ∧ ¬ seqLt p.tsVal s.tsock.nego.tsRecent := by
  unfold fastpathOff at hoff
  simp only [not_or, ne_eq, not_not, Bool.not_eq_false] at hoff
  obtain ⟨-, -, -, hflags, -, -, -, hlen, hts, hlt⟩ := hoff
  refine ⟨?_, hfast.stamp hts hlen, hlt⟩
  have hrst := congrArg TcpFlags.rst hflags
  exact hrst

theorem tcpRcvPkt_stamps (cfg : TcpCfg) (hc : Connected s) (hfast : p.FastStamp)
    (hheld : s.rxSt.held p.id = 0) : Stamps s p (tcpRcvPkt cfg s p).2.1 := by
  unfold tcpRcvPkt tcpRcvPktWith
  split
  · exact .kept (.refl s)
  split
  swap
  · rw [tcpRcvSlowpath_connected cfg p hc]
    exact rcvSynchronised_stamps cfg s p
  next hst =>
  unfold tcpRcvFastpath
  by_cases hoff : fastpathOff s.tsock p
  · rw [if_pos hoff]
    dsimp only
    rw [tcpRcvSlowpath_connected cfg p hc]
    exact rcvSynchronised_stamps cfg s p
  rw [if_neg hoff]
  obtain ⟨hr, hv, hlt⟩ := fast_stamps hfast hoff
  dsimp only
  obtain ⟨s₁, hs₁⟩ : ∃ s₁, s₁ = if seqLe p.seq s.tsock.nego.lastAckSent then updateTsRecent s p
    else s := ⟨_, rfl⟩
  rw [← hs₁]
  have h₁ : SameStamp s s₁ ∨ s₁.tsock.nego.tsRecent = p.tsVal := by
    rw [hs₁]
    split
    · exact .inr rfl
    · exact .inl (.refl s)
  have hck : s₁.tsock.state = s.tsock.state ∧ s₁.rxSt = s.rxSt := by
    rw [hs₁]
    split <;> exact ⟨rfl, rfl⟩
  have hd := RcvFrame.tcpRcvData cfg s₁ p
  have hhdr := tcpRcvData_hdr cfg s₁ p (by rw [hck.2]; exact hheld)
  generalize tcpRcvData cfg s₁ p = r at hd hhdr
  obtain ⟨e, s₂, p₂⟩ := r
  have h₂ : SameStamp s s₂ ∨ s₂.tsock.nego.tsRecent = p.tsVal :=
    h₁.imp (fun h => h.trans hd.sameStamp) fun h => hd.sameStamp.recent.trans h
  cases e with
  | none =>
    have hdone : SameStamp s₂ (tsockRearmTimerKeepalive cfg (tcpRcvAckFastpath cfg s₂ p₂)) := by
      have hack := (TxFrame.tcpRcvAckFastpath cfg s₂ p₂).frame.aside.sameStamp
      exact ⟨hack.recent, hack.sec⟩
    refine Stamps.after ?_ hdone
    rcases h₂ with h₂ | h₂
    · exact .kept h₂
    · exact .noted (by rw [h₂]; exact hv) hr (.inl (by rw [h₂]; exact hlt))
  | some e =>
    have hc₂ : Connected s₂ := by
      unfold Connected
      rw [show s₂.tsock.state = s.tsock.state from hd.state.trans hck.1]
      exact hc
    have hslow := rcvSynchronised_stamps cfg s₂ p₂
    have harea : p₂.stamp = p.stamp := hhdr.area.stamp
    dsimp only
    rw [tcpRcvSlowpath_connected cfg p₂ hc₂]
    rcases h₂ with h₂ | h₂
    · cases hslow with
      | kept hk => exact .kept (h₂.trans hk)
      | noted hv₂ =>
        have hsame := Option.some.inj ((hv₂.symm.trans harea).trans hv)
        exact .noted (by rw [hsame]; exact hv) hr (.inl (by rw [hsame]; exact hlt))
    · exact hslow.again (by rw [h₂]; exact hv) hr (by rw [h₂]; exact hlt) harea

/-! ### Old segments -/

structure Unheard (s s' : St) : Prop where
  nxt : s'.tsock.rcv.rcvNxt = s.tsock.rcv.rcvNxt
  rxq : s'.tsock.rcv.rxq = s.tsock.rcv.rxq
  ooo : s'.tsock.rcv.ooo = s.tsock.rcv.ooo
  una : s'.tsock.snd.sndUna = s.tsock.snd.sndUna
  state : s'.tsock.state = s.tsock.state

namespace Unheard

theorem refl (s : St) : Unheard s s := ⟨rfl, rfl, rfl, rfl, rfl⟩

theorem trans (h : Unheard s s') (h' : Unheard s' s'') : Unheard s s'' :=
  ⟨h'.nxt.trans h.nxt, h'.rxq.trans h.rxq, h'.ooo.trans h.ooo, h'.una.trans h.una,
    h'.state.trans h.state⟩

private theorem sendAck (cfg : TcpCfg) (s : St) (p : Packet) : Unheard s (sendAck cfg s p) := by
  unfold LibTpa.sendAck
  split
  · exact .refl s
  · split <;> exact ⟨rfl, rfl, rfl, rfl, rfl⟩

end Unheard

theorem Quiet.unheard (h : Quiet s s') : Unheard s s' := by
  have hrcv : s'.tsock.rcv.rcvNxt = s.tsock.rcv.rcvNxt ∧ s'.tsock.rcv.rxq = s.tsock.rcv.rxq ∧
      s'.tsock.rcv.ooo = s.tsock.rcv.ooo := by
    rcases h.frame.rcv with hr | hr <;> rw [hr] <;> exact ⟨rfl, rfl, rfl⟩
  exact ⟨hrcv.1, hrcv.2.1, hrcv.2.2, by rw [h.snd], h.frame.state⟩

private theorem Checked.unheard (h : Checked s s') : Unheard s s' :=
  ⟨by rw [h.rcv], by rw [h.rcv], by rw [h.rcv], by rw [h.snd], h.state⟩

/-- An old segment is answered and dropped, on both paths. -/
theorem tcpRcvPkt_old (cfg : TcpCfg) (hc : Connected s) (hfast : p.FastStamp)
    (hold : StampOld s p) :
    Unheard s (tcpRcvPkt cfg s p).2.1 := by
  have hslow : Unheard s (rcvSynchronised cfg s p).2.1 := by
    obtain ⟨s₂, hck, hcase⟩ := rcvSynchronised_cases cfg s p
    have hno : ¬ Passed s p := fun hp => hp.paws (pawsReject_iff.mpr hold)
    generalize rcvSynchronised cfg s p = r at hcase
    cases hcase with
    | refused e _ => exact hck.unheard.trans (.sendAck ..)
    | rst hp => exact absurd hp hno
    | syn hp => exact absurd hp hno
    | badAck hp => exact absurd hp hno
    | closed hp => exact absurd hp hno
    | text hp => exact absurd hp hno
  rw [← tcpRcvSlowpath_connected cfg p hc] at hslow
  unfold tcpRcvPkt tcpRcvPktWith
  split
  · exact .refl s
  split
  swap
  · exact hslow
  -- the fast path leaves an old segment to the slow path
  have hoff : fastpathOff s.tsock p := by
    by_contra hon
    obtain ⟨-, hv, hlt⟩ := fast_stamps hfast hon
    obtain ⟨-, -, v, hv', hlt'⟩ := hold
    rw [Option.mem_def, hv] at hv'
    cases hv'
    exact hlt hlt'
  unfold tcpRcvFastpath
  rw [if_pos hoff]
  exact hslow

/-! ### The processing of a packet -/

private theorem stampOld_toRead (l : List (List Byte)) :
    StampOld s { p with toRead := l } ↔ StampOld s p := by
  unfold StampOld
  rw [SameArea.stamp (q := { p with toRead := l }) (p := p) ⟨rfl, rfl⟩]

theorem tcpRcvProcess_stamps (cfg : TcpCfg) (hc : Connected s) (hfast : p.FastStamp)
    (hheld : s.rxSt.held p.id = 0) : Stamps s p (tcpRcvProcess cfg s p) := by
  obtain ⟨s₁, s₂, ht, hquiet, heq⟩ := tcpRcvProcess_split cfg s p
  have hpkt := tcpRcvPkt_stamps (p := { p with toRead := p.segs }) cfg hc hfast hheld
  have h₁ : SameStamp (tcpRcvPkt cfg s { p with toRead := p.segs }).2.1 s₁ :=
    ⟨by rw [ht], by rw [ht]⟩
  have h₂ := hpkt.after (h₁.trans hquiet.frame.aside.sameStamp)
  rw [heq]
  have hstamp : Packet.stamp { p with toRead := p.segs } = p.stamp := SameArea.stamp ⟨rfl, rfl⟩
  cases h₂ with
  | kept hk => exact .kept ⟨hk.recent, hk.sec⟩
  | noted hv hr hn =>
    rw [hstamp] at hv
    refine .noted hv hr (hn.imp id fun hi => ⟨hi.1, hi.2.seq, ?_⟩)
    have hpaws := hi.2.paws
    rw [parseTcpOpts_toRead] at hpaws
    exact hpaws

theorem tcpRcvProcess_old (cfg : TcpCfg) (hc : Connected s) (hfast : p.FastStamp)
    (hold : StampOld s p) : Unheard s (tcpRcvProcess cfg s p) := by
  obtain ⟨s₁, s₂, ht, hquiet, heq⟩ := tcpRcvProcess_split cfg s p
  have hpkt := tcpRcvPkt_old (p := { p with toRead := p.segs }) cfg hc hfast
    ((stampOld_toRead p.segs).mpr hold)
  have h₁ : Unheard (tcpRcvPkt cfg s { p with toRead := p.segs }).2.1 s₁ :=
    ⟨by rw [ht], by rw [ht], by rw [ht], by rw [ht], by rw [ht]⟩
  rw [heq]
  exact ((hpkt.trans h₁).trans hquiet.unheard).trans ⟨rfl, rfl, rfl, rfl, rfl⟩

end LibTpa
