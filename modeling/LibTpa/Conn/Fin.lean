/- LibTpa/Conn/Fin
   digest: The peer's FIN and the end of its stream, over every run of a connection. -/

import LibTpa.Conn.Frame
import LibTpa.Input.Cases
import LibTpa.Input.Ownership
import LibTpa.Rcv.Run
import LibTpa.Rcv.Frame
import LibTpa.Rcv.Ownership

set_option autoImplicit false

namespace LibTpa

open Lib.SerialNumber Lib.SpanList Lib.Stream Lib.Run

variable {C : SegPred Byte} {k : Nat} {s s' : St} {p : Packet}

/-- A socket that has seen no FIN yet; `k` bytes of the stream were put into its
rxq so far. -/
structure Flow (C : SegPred Byte) (k : Nat) (s : St) : Prop where
  eof : s.tsock.flags.eof = false
  phase : s.tsock.state.phase ≠ .ended ∧ s.tsock.state.phase ≠ .listening
  inv : ∃ share, RcvInv C share k s.rxSt
  nxt : s.tsock.state.phase = .flowing →
    s.tsock.rcv.rcvNxt = s.tsock.rcv.rcvIsn + 1 + BitVec.ofNat 32 k
  fresh : s.tsock.state.phase = .opening → k = 0 ∧ s.tsock.rcv.ooo = []

/-- A socket behind the FIN with sequence number `f`. -/
structure Ended (f : U32) (s : St) : Prop where
  eof : s.tsock.flags.eof = true
  phase : s.tsock.state.phase = .ended ∨ s.tsock.state = .closed
  aligned : ∀ q ∈ s.tsock.rcv.rxq, q.Aligned
  nxt : s.tsock.rcv.rcvNxt = f + 1

theorem Rcv.regulate_eq {r : Rcv} (h : r.rcvWnd < 2 ^ 26) : r.regulate = r := by
  unfold Rcv.regulate regulatedWnd
  rw [if_neg (by unfold tcpWindowMax; omega)]

theorem RcvInv.regulate {share : U32} {x : RxSt} (h : RcvInv C share k x) :
    x.rcv.regulate = x.rcv := x.rcv.regulate_eq h.wnd_lt

theorem RcvInv.keeps {share : U32} (h : RcvInv C share k s.rxSt) (hs : KeepsRcv s s') :
    s'.tsock.rcv = s.tsock.rcv ∧ RcvInv C share k s'.rxSt := by
  have hr : s'.tsock.rcv = s.tsock.rcv := hs.rcv.elim (fun he => he) fun he => he.trans h.regulate
  refine ⟨hr, ?_⟩
  rw [St.rxSt, hr, hs.rx]
  exact h

theorem Flow.wnd_lt (h : Flow C k s) : s.tsock.rcv.rcvWnd < 2 ^ 26 := by
  obtain ⟨share, hi⟩ := h.inv
  exact hi.wnd_lt

theorem Flow.rcv_eq (h : Flow C k s) (hs : KeepsRcv s s') : s'.tsock.rcv = s.tsock.rcv := by
  obtain ⟨share, hi⟩ := h.inv
  exact (hi.keeps hs).1

theorem Flow.still (h : Flow C k s) (hs : RcvStill s s') : Flow C k s' := by
  have hr := h.rcv_eq hs.keeps
  obtain ⟨share, hi⟩ := h.inv
  have hi' := (hi.keeps hs.keeps).2
  rcases hs.phase with he | he
  · refine ⟨hs.keeps.eof.trans h.eof, by rw [he]; exact h.phase, ⟨share, hi'⟩, ?_, ?_⟩
    · rw [he, hr]
      exact h.nxt
    · rw [he, hr]
      exact h.fresh
  · refine ⟨hs.keeps.eof.trans h.eof, by rw [he]; decide, ⟨share, hi'⟩, ?_, ?_⟩
    · rw [he]
      rintro ⟨⟩
    · rw [he]
      rintro ⟨⟩

theorem Ended.still {f : U32} (h : Ended f s) (hs : RcvStill s s') : Ended f s' := by
  refine ⟨hs.keeps.eof.trans h.eof, ?_, by rw [hs.keeps.rxq]; exact h.aligned,
    hs.keeps.rcvNxt.trans h.nxt⟩
  rcases hs.phase with he | he
  · rcases h.phase with hp | hp
    · exact .inl (he.trans hp)
    · rw [hp] at he
      exact .inr (TcpState.phase_gone.mp he)
  · exact .inr he

/-- What the processing of a packet has made of the stream: it has grown, or it
has ended right behind its last byte. -/
inductive Outcome (C : SegPred Byte) (k : Nat) (s : St) (p : Packet) (s' : St) : Prop
  | flow (k' : Nat) (new : List Packet) (h : Flow C k' s')
      (hq : s'.tsock.rcv.rxq = s.tsock.rcv.rxq ++ new) (hd : Delivered C k new)
      (hk : k' = k + rxqLen new)
  | fin (hp : p.flags.fin = true) (h : Ended p.endSeq s') (hq : s'.tsock.rcv.rxq = s.tsock.rcv.rxq)
      (hf : p.endSeq = s'.tsock.rcv.rcvIsn + 1 + BitVec.ofNat 32 k)

theorem Flow.outcome (h : Flow C k s') (hq : s'.tsock.rcv.rxq = s.tsock.rcv.rxq) :
    Outcome C k s p s' := .flow k [] h (by simp [hq]) trivial rfl

theorem Flow.outcome_still (h : Flow C k s) (hs : RcvStill s s') : Outcome C k s p s' :=
  (h.still hs).outcome hs.keeps.rxq

theorem Outcome.still {s₁ s₂ : St} {q : Packet} (h : Outcome C k s₁ q s₂)
    (hq : s₁.tsock.rcv.rxq = s.tsock.rcv.rxq) (hp : q.flags = p.flags) (he : q.endSeq = p.endSeq)
    (hs : RcvStill s₂ s') : Outcome C k s p s' := by
  cases h with
  | flow k' new h hr hd hk =>
    exact .flow k' new (h.still hs) (by rw [hs.keeps.rxq, hr, hq]) hd hk
  | fin hf h hr hn =>
    rw [he] at h hn
    exact .fin (hp ▸ hf) (h.still hs) (by rw [hs.keeps.rxq, hr, hq]) (by rw [hs.isn]; exact hn)

theorem Outcome.prepend {k' : Nat} {s₁ : St} {q : Packet} {new : List Packet}
    (h : Outcome C k' s₁ q s') (hp : q.flags.fin = false)
    (hq : s₁.tsock.rcv.rxq = s.tsock.rcv.rxq ++ new) (hd : Delivered C k new)
    (hk : k' = k + rxqLen new) : Outcome C k s p s' := by
  cases h with
  | flow k'' new' h hr hd' hk' =>
    refine .flow k'' (new ++ new') h (by rw [hr, hq, List.append_assoc])
      (hd.append (hk ▸ hd')) ?_
    rw [hk', hk, rxqLen_append, Nat.add_assoc]
  | fin hf =>
    rw [hp] at hf
    cases hf

theorem Flow.tcpRcvData (cfg : TcpCfg) (h : Flow C k s) (hph : s.tsock.state.phase = .flowing)
    (hv : validateSeq s.tsock.rcv p = none) (hal : p.Aligned)
    (hc : p.len ≠ 0 → Arrives C k s.tsock.rcv p) (hfin : p.flags.fin = false) :
    ∃ k' new, Flow C k' (tcpRcvData cfg s p).2.1 ∧
      (tcpRcvData cfg s p).2.1.tsock.rcv.rxq = s.tsock.rcv.rxq ++ new ∧ Delivered C k new ∧
      k' = k + rxqLen new ∧
      (tcpRcvData cfg s p).2.1.tsock.rcv.rcvNxt = s.tsock.rcv.rcvNxt + BitVec.ofNat 32 (k' - k) ∧
      ((tcpRcvData cfg s p).1 ≠ none →
        Near C k s.tsock.rcv.rcvNxt (tcpRcvData cfg s p).2.2) := by
  have hfr := RcvFrame.tcpRcvData cfg s p
  by_cases hlen : p.len = 0
  · have he : LibTpa.tcpRcvData cfg s p = (none, s, p) := by
      unfold LibTpa.tcpRcvData
      rw [if_pos hlen, if_neg (by simp [hfin])]
    rw [he]
    exact ⟨k, [], h, by simp, trivial, rfl, by simp, by simp⟩
  · obtain ⟨share, hi⟩ := h.inv
    obtain ⟨e, s', p', k', he, h1, h2, h3, -⟩ := tcpRcvData_spec cfg hi hv hlen hal (hc hlen)
    rw [he] at hfr ⊢
    obtain ⟨new, hn, hd, hk⟩ := h2.grown
    refine ⟨k', new, ?_, hn, hd, hk, h2.nxt, fun _ => h3⟩
    have hst : s'.tsock.state = s.tsock.state := hfr.state
    refine ⟨hfr.eof.trans h.eof, by rw [hst]; exact h.phase, ⟨share, h1⟩, fun _ => ?_, fun hp => ?_⟩
    · rw [h2.nxt, h2.isn, h.nxt hph, add_assoc, ← BitVec.ofNat_add]
      congr 2
      omega
    · rw [hst, hph] at hp
      cases hp

theorem tcpRcvFin_ends (cfg : TcpCfg) (hst : takesData s.tsock.state) (hf : p.flags.fin = true) :
    (tcpRcvFin cfg s p).2.tsock.rcv = s.tsock.rcv ∧ (tcpRcvFin cfg s p).2.tsock.flags.eof = true ∧
      (tcpRcvFin cfg s p).2.tsock.state.phase = .ended := by
  have h : ∀ s₁ : St, ∀ st : TcpState, st.phase = .ended → s₁.tsock.flags.eof = true →
      (tsockSetAckFlag cfg (tsockSetState cfg s₁ st) true).tsock.rcv = s₁.tsock.rcv ∧
      (tsockSetAckFlag cfg (tsockSetState cfg s₁ st) true).tsock.flags.eof = true ∧
      (tsockSetAckFlag cfg (tsockSetState cfg s₁ st) true).tsock.state.phase = .ended := by
    intro s₁ st hp he
    unfold tsockSetState
    split
    · exact ⟨rfl, he, hp⟩
    · exact ⟨rfl, he, hp⟩
  unfold tcpRcvFin
  rw [if_neg (by simp [hf])]
  rcases hst with hst | hst | hst
  all_goals
    dsimp only [St.setFlags]
    rw [hst]
    exact h _ _ rfl rfl

theorem Flow.finTaken (cfg : TcpCfg) (h : Flow C k s) (hst : takesData s.tsock.state)
    (hf : p.flags.fin = true) (hlen : p.len = 0) (hseq : p.seq = s.tsock.rcv.rcvNxt) :
    Outcome C k s p
      (tcpRcvFin cfg (s.setRcv { s.tsock.rcv with rcvNxt := s.tsock.rcv.rcvNxt + 1 }) p).2 := by
  obtain ⟨share, hi⟩ := h.inv
  have hend : p.endSeq = s.tsock.rcv.rcvNxt := by simp [Packet.endSeq, hlen, hseq]
  have hflow : s.tsock.state.phase = .flowing := by
    rcases hst with hst | hst | hst <;> rw [hst] <;> rfl
  obtain ⟨h1, h2, h3⟩ := tcpRcvFin_ends
    (s := s.setRcv { s.tsock.rcv with rcvNxt := s.tsock.rcv.rcvNxt + 1 }) cfg hst hf
  refine .fin hf ⟨h2, .inl h3, ?_, ?_⟩ (by rw [h1]; rfl) ?_
  · rw [h1]
    exact hi.rxqAligned
  · rw [h1, hend]
    rfl
  · rw [h1, hend]
    exact h.nxt hflow

theorem rcvText_data (cfg : TcpCfg) (hid : s.rxSt.held p.id = 0) (hf : p.flags.fin = false) :
    (rcvText cfg s p).2.1 = if takesData s.tsock.state then (tcpRcvData cfg s p).2.1 else s := by
  have hfin : ∀ (s : St) (q : Packet), q.flags.fin = false → tcpRcvFin cfg s q = (none, s) := by
    intro s q hq
    unfold tcpRcvFin
    rw [if_pos hq]
  have hhdr := (tcpRcvData_hdr cfg s p hid).flags
  unfold rcvText
  split
  · generalize tcpRcvData cfg s p = r at hhdr ⊢
    obtain ⟨e, s', p'⟩ := r
    cases e with
    | some e => rfl
    | none =>
      dsimp only at hhdr ⊢
      rw [hfin s' p' (by rw [hhdr, hf])]
  · split
    · rfl
    · rw [hfin s p hf]

theorem Flow.rcvText (cfg : TcpCfg) (h : Flow C k s) (hph : s.tsock.state.phase = .flowing)
    (hv : validateSeq s.tsock.rcv p = none) (hal : p.Aligned)
    (hc : p.len ≠ 0 → Arrives C k s.tsock.rcv p) (hid : s.rxSt.held p.id = 0)
    (hfin : p.flags.fin = true → p.len = 0 ∧ p.seq = s.tsock.rcv.rcvNxt ∧ takesData s.tsock.state) :
    Outcome C k s p (rcvText cfg s p).2.1 := by
  cases hf : p.flags.fin with
  | true =>
    obtain ⟨hlen, hseq, hst⟩ := hfin hf
    unfold LibTpa.rcvText LibTpa.tcpRcvData
    rw [if_pos hst]
    rw [if_pos hlen, if_pos ⟨hf, hseq⟩]
    exact h.finTaken cfg hst hf hlen hseq
  | false =>
    rw [rcvText_data cfg hid hf]
    split
    · obtain ⟨k', new, h1, h2, h3, h4, -⟩ := h.tcpRcvData cfg hph hv hal hc hf
      exact .flow k' new h1 h2 h3 h4
    · exact h.outcome rfl

structure FinTaken (s : St) (p : Packet) : Prop where
  fin : p.flags.fin = true
  wid : p.wid = s.worker.id
  phase : s.tsock.state.phase = .flowing
  passed : Passed s p
  rst : p.flags.rst = false
  syn : p.flags.syn = false
  ack : p.flags.ack = true
  ackOk : seqLt p.ack s.tsock.snd.sndUna ∨ ¬ seqGt p.ack s.tsock.snd.sndNxt

/-- A FIN without payload that follows the last byte, and no old ACK in SYN_RCVD. -/
structure FinInOrder (s : St) (p : Packet) : Prop where
  empty : p.len = 0
  seq : p.seq = s.tsock.rcv.rcvNxt
  ack : s.tsock.state = .synRcvd → ¬ seqLt p.ack s.tsock.snd.sndUna

structure Comes (C : SegPred Byte) (k : Nat) (s : St) (p : Packet) : Prop where
  aligned : p.Aligned
  content : p.len ≠ 0 → s.tsock.state.phase = .flowing → validateSeq s.tsock.rcv p = none →
    Arrives C k s.tsock.rcv p
  apart : s.rxSt.held p.id = 0
  fin : FinTaken s p → FinInOrder s p

theorem TcpState.takesData_of_flowing {st : TcpState} (h : st.phase = .flowing)
    (hs : st ≠ .synRcvd) : takesData st := by
  cases st <;> simp_all [TcpState.phase, takesData]

theorem tcpRcvAck_taken {cfg : TcpCfg} {o : TcpOpts} (h : tcpRcvAck cfg s p o = (none, s'))
    (hsyn : s.tsock.state = .synRcvd → ¬ seqLt p.ack s.tsock.snd.sndUna) :
    s'.tsock.state ≠ .synRcvd := by
  have hcases := tcpRcvAck_cases cfg s p o
  rw [h] at hcases
  generalize hr : ((none, s') : Option Code × St) = r at hcases
  cases hcases with
  | unsynchronised => cases hr
  | beyond => cases hr
  | old ha hlt =>
    cases hr
    exact fun hs => hsyn hs hlt
  | established =>
    cases hr
    change (tsockEstablished cfg s p).tsock.state ≠ _
    rw [tsockEstablished_state]
    decide
  | accepted _ _ _ _ _ _ hst =>
    cases hr
    rw [ackAccepted_state]
    unfold ackState
    split
    · cases hs : s.tsock.state <;> simp_all
    · exact hst

theorem tcpRcvAck_flags {cfg : TcpCfg} {o : TcpOpts} (h : tcpRcvAck cfg s p o = (none, s')) :
    p.flags.ack = true ∧
      (seqLt p.ack s.tsock.snd.sndUna ∨ ¬ seqGt p.ack s.tsock.snd.sndNxt) := by
  have hcases := tcpRcvAck_cases cfg s p o
  rw [h] at hcases
  generalize hr : ((none, s') : Option Code × St) = r at hcases
  cases hcases with
  | unsynchronised => cases hr
  | beyond => cases hr
  | old ha hlt => exact ⟨ha, .inl hlt⟩
  | established ha _ hgt => exact ⟨ha, .inr hgt⟩
  | accepted ha _ hgt => exact ⟨ha, .inr hgt⟩

theorem Checked.still (h : Checked s s') : RcvStill s s' :=
  .of_eq h.rcv (by rw [h.worker]) (by rw [h.flags]) h.state (by rw [h.tsock]) (by rw [h.tsock])
    (by rw [h.nego]) h.emitted

theorem arrives_iff {r : Rcv} : Arrives C k r p ↔
    C.holds (k + ahead r.rcvNxt (p.seq + BitVec.ofNat 32 (rcvOverlap r p)))
      (p.bytes.drop (rcvOverlap r p)) := by
  unfold Arrives rcvCut Rcv.off
  split
  · next h0 => simp [h0]
  · rw [cutHead_seq, cutHead_bytes]

theorem Arrives.parsed {r : Rcv} (h : Arrives C k r p) : Arrives C k r (parseTcpOpts p).2.2 := by
  rw [arrives_iff] at *
  rw [(parseTcpOpts_spec p).1.eq]
  exact h

theorem Packet.parsed_endSeq (p : Packet) : (parseTcpOpts p).2.2.endSeq = p.endSeq := by
  unfold Packet.endSeq
  rw [p.parsed_len, p.parsed_seq]

theorem Flow.rcvSynchronised (cfg : TcpCfg) (h : Flow C k s) (hph : s.tsock.state.phase = .flowing)
    (hwid : p.wid = s.worker.id) (hp : Comes C k s p) :
    Outcome C k s p (rcvSynchronised cfg s p).2.1 := by
  obtain ⟨s₂, hck, hcase⟩ := rcvSynchronised_cases cfg s p
  have hs₂ := hck.still
  generalize LibTpa.rcvSynchronised cfg s p = r at hcase
  cases hcase with
  | refused => exact h.outcome_still (hs₂.trans (.sendAck cfg s₂ _))
  | rst => exact h.outcome_still (hs₂.trans (.tcpRcvRst cfg s₂))
  | syn => exact h.outcome_still (hs₂.trans (.sendAck cfg s₂ _))
  | badAck _ _ _ e s₃ ha =>
    have hs₃ := RcvStill.tcpRcvAck cfg s₂ (parseTcpOpts p).2.2 (parseTcpOpts p).2.1
    rw [ha] at hs₃
    exact h.outcome_still (hs₂.trans hs₃)
  | closed _ _ _ s₃ ha =>
    have hs₃ := RcvStill.tcpRcvAck cfg s₂ (parseTcpOpts p).2.2 (parseTcpOpts p).2.1
    rw [ha] at hs₃
    exact h.outcome_still (hs₂.trans hs₃)
  | text hpass hrst hsyn s₃ ha hc =>
    have hs₃ := RcvStill.tcpRcvAck cfg s₂ (parseTcpOpts p).2.2 (parseTcpOpts p).2.1
    rw [ha] at hs₃
    have hst := hs₂.trans hs₃
    have hrcv := h.rcv_eq hst.keeps
    have hph₃ : s₃.tsock.state.phase = .flowing := (hst.phase.resolve_right hc).trans hph
    have hfin : p.flags.fin = true → FinInOrder s p := by
      intro hf
      have hfl := tcpRcvAck_flags ha
      rw [p.parsed_flags, p.parsed_ack, hck.snd] at hfl
      exact hp.fin ⟨hf, hwid, hph, hpass, hrst, hsyn, hfl.1, hfl.2⟩
    refine Outcome.still (Flow.rcvText cfg (p := (parseTcpOpts p).2.2) (h.still hst) hph₃
      ?_ ?_ ?_ ?_ ?_)
      hst.keeps.rxq p.parsed_flags p.parsed_endSeq (.refl _)
    · rw [hrcv, validateSeq_parsed]
      exact hpass.seq
    · rw [(parseTcpOpts_spec p).1.eq]
      exact hp.aligned
    · rw [p.parsed_len, hrcv]
      exact fun hl => (hp.content hl hph hpass.seq).parsed
    · rw [p.parsed_id, St.rxSt, hrcv]
      exact hp.apart
    · rw [p.parsed_flags, p.parsed_len, p.parsed_seq, hrcv]
      intro hf
      have hord := hfin hf
      refine ⟨hord.empty, hord.seq, TcpState.takesData_of_flowing hph₃ (tcpRcvAck_taken ha ?_)⟩
      rw [hck.state, hck.snd, p.parsed_ack]
      exact hord.ack

theorem RcvInv.renumber {share : U32} {x : RxSt} (h : RcvInv C share k x) (ho : x.rcv.ooo = [])
    (isn nxt : U32) (b : Bool) : RcvInv C share k { x with rcv := { x.rcv with
      rcvIsn := isn, rcvNxt := nxt, sackOk := b } } := by
  refine ⟨?_, h.wnd, h.size, h.count, h.mbufs, h.last, h.oooAligned, h.rxqAligned, ?_⟩
  · simp only [ho]
    exact Nat.zero_le _
  · simp [ho]

theorem Flow.synSentToEstablished (cfg : TcpCfg) (h : Flow C k s)
    (hph : s.tsock.state.phase = .opening) : Flow C k (synSentToEstablished cfg s p).1 := by
  obtain ⟨share, hi⟩ := h.inv
  obtain ⟨rfl, hooo⟩ := h.fresh hph
  unfold LibTpa.synSentToEstablished
  dsimp only
  generalize hr : processTcpOptNegotiation cfg
    (s.setRcv { s.tsock.rcv with rcvIsn := p.seq, rcvNxt := p.seq + 1 }) p = r
  obtain ⟨b, hrcv⟩ : ∃ b, r.1.tsock.rcv = { s.tsock.rcv with
      rcvIsn := p.seq, rcvNxt := p.seq + 1, sackOk := b } := ⟨_, by rw [← hr]; rfl⟩
  have heof : r.1.tsock.flags.eof = false := by rw [← hr]; exact h.eof
  have hr₀ : RcvInv C share 0 r.1.rxSt := by
    have hrx : r.1.worker.rx = s.worker.rx := by rw [← hr]; rfl
    rw [St.rxSt, hrcv, hrx]
    exact hi.renumber hooo p.seq (p.seq + 1) b
  have hk := (KeepsRcv.tsockEstablished cfg r.1 r.2).trans (.tsockSetAckFlag cfg _ true)
  have hst : (tsockSetAckFlag cfg (tsockEstablished cfg r.1 r.2) true).tsock.state = .established :=
    tsockEstablished_state cfg r.1 r.2
  obtain ⟨h1, h2⟩ := hr₀.keeps hk
  refine ⟨hk.eof.trans heof, by rw [hst]; decide, ⟨share, h2⟩, fun _ => ?_, ?_⟩
  · rw [h1, hrcv]
    simp
  · rintro ⟨⟩

theorem Flow.tcpRcvPktAtSynSent (cfg : TcpCfg) (h : Flow C k s)
    (hph : s.tsock.state.phase = .opening) :
    Outcome C k s p (tcpRcvPktAtSynSent cfg s p).2.1 := by
  unfold LibTpa.tcpRcvPktAtSynSent
  dsimp only
  split
  · refine h.outcome_still (SndFrame.still ?_)
    exact ((SndFrame.setTcp s _).trans (Quiet.xmitFlagPacketWithSeq cfg _ _).frame).trans
      (.outputTsockEnqueue _)
  split
  · split
    · exact h.outcome_still (.tcpRcvRst cfg s)
    · exact h.outcome rfl
  split
  · exact h.outcome rfl
  split
  · exact h.outcome rfl
  split
  · exact (h.synSentToEstablished cfg hph).outcome (KeepsQueues.synSentToEstablished cfg s p).rxq
  · exact h.outcome rfl

theorem Flow.tcpRcvSlowpath (cfg : TcpCfg) (h : Flow C k s) (hwid : p.wid = s.worker.id)
    (hp : Comes C k s p) : Outcome C k s p (tcpRcvSlowpath cfg s p).2.1 := by
  have hph := h.phase
  unfold LibTpa.tcpRcvSlowpath
  split
  · exact h.outcome_still (.sendRst cfg s p)
  · next hst => exact h.tcpRcvPktAtSynSent cfg (by rw [hst]; rfl)
  · next hst =>
    rw [hst] at hph
    exact absurd rfl hph.2
  · next hc ho hl =>
    refine h.rcvSynchronised cfg ?_ hwid hp
    cases hst : s.tsock.state <;> simp_all [TcpState.phase]

theorem fastpath_valid (hw : s.tsock.rcv.rcvWnd < 2 ^ 26) (hoff : ¬ fastpathOff s.tsock p) :
    validateSeq s.tsock.rcv p = none ∧ p.flags.fin = false := by
  have hl := p.len_lt
  unfold fastpathOff at hoff
  push Not at hoff
  obtain ⟨hseq, -, -, hfl, -, -, hwnd, -⟩ := hoff
  refine ⟨?_, by simpa [TcpFlags.clearPsh, tcpFlagAck] using congrArg TcpFlags.fin hfl⟩
  unfold validateSeq Packet.endSeq
  by_cases hlen : p.len = 0
  · rw [if_pos ⟨hlen, hseq⟩]
  · rw [if_neg (fun hc => hlen hc.1), if_neg]
    rw [hseq, seqLe_iff, seqGe_iff]
    bv_omega

theorem Near.arrives {b : U32} {r : Rcv} {k' : Nat} (h : Near C k b p) (hk : k ≤ k')
    (hlt : k' - k < 2 ^ 27) (hb : r.rcvNxt = b + BitVec.ofNat 32 (k' - k)) :
    Arrives C k' r p := by
  rw [arrives_iff]
  have hc := C.drop (rcvOverlap r p) h.content
  have hclose := h.close
  have hn : ahead b r.rcvNxt = k' - k := hb ▸ ahead_add_ofNat b (by omega)
  suffices hpos : k' + ahead r.rcvNxt (p.seq + BitVec.ofNat 32 (rcvOverlap r p)) =
      k + ahead b p.seq + rcvOverlap r p by
    rw [hpos]
    exact hc
  have hcmp : seqLt p.seq r.rcvNxt ↔ ahead b p.seq < k' - k := by
    rw [@seqLt_ahead b _ _ (by omega) (by omega), hn]
  unfold rcvOverlap
  by_cases hs : seqLt p.seq r.rcvNxt
  · rw [if_pos hs]
    have hlt' := hcmp.mp hs
    unfold ahead at *
    bv_omega
  · rw [if_neg hs]
    have hge : k' - k ≤ ahead b p.seq := Nat.le_of_not_lt fun hc => hs (hcmp.mpr hc)
    have := @ahead_advance _ b p.seq (k' - k) hge
    rw [← hb] at this
    rw [show p.seq + BitVec.ofNat 32 0 = p.seq from BitVec.add_zero _, this]
    omega

theorem Flow.tcpRcvPkt (cfg : TcpCfg) (h : Flow C k s) (hp : Comes C k s p) :
    Outcome C k s p (tcpRcvPkt cfg s p).2.1 := by
  have hcase := tcpRcvPkt_cases cfg s p
  generalize LibTpa.tcpRcvPkt cfg s p = r at hcase
  cases hcase with
  | stale => exact h.outcome rfl
  | slow hw =>
    refine h.tcpRcvSlowpath cfg (hw.resolve_right fun hl => h.phase.2 ?_) hp
    rw [hl]
    rfl
  | fast s₁ s₂ p₂ hw hst hoff hck hd =>
    have hph : s.tsock.state.phase = .flowing := by rw [hst]; rfl
    obtain ⟨hv, hfin⟩ := fastpath_valid h.wnd_lt hoff
    obtain ⟨k', new, h1, h2, h3, h4, -⟩ := (h.still hck.still).tcpRcvData cfg
      (by rw [hck.state]; exact hph) (by rw [hck.rcv]; exact hv) hp.aligned
      (by rw [hck.rcv]; exact fun hl => hp.content hl hph hv) hfin
    rw [hd] at h1 h2
    rw [hck.rcv] at h2
    have hs := (TxFrame.tcpRcvAckFastpath cfg s₂ p₂).frame.still.trans
      (.tsockRearmTimerKeepalive cfg _)
    exact .flow k' new (h1.still hs) (hs.keeps.rxq.trans h2) h3 h4
  | fallback s₁ s₂ p₂ e hw hst hoff hck hd =>
    have hph : s.tsock.state.phase = .flowing := by rw [hst]; rfl
    obtain ⟨hv, hfin⟩ := fastpath_valid h.wnd_lt hoff
    have hheld : s₁.rxSt.held p.id = 0 := by
      rw [St.rxSt, hck.rcv]
      exact hp.apart
    have hfl := tcpRcvData_hdr cfg s₁ p hheld
    have howner := (tcpRcvData_owner cfg s₁ p hheld).refused
    have hfr := RcvFrame.tcpRcvData cfg s₁ p
    obtain ⟨k', new, h1, h2, h3, h4, hn, h5⟩ := (h.still hck.still).tcpRcvData cfg
      (by rw [hck.state]; exact hph) (by rw [hck.rcv]; exact hv) hp.aligned
      (by rw [hck.rcv]; exact fun hl => hp.content hl hph hv) hfin
    rw [hd] at h1 h2 hn h5 hfl hfr howner
    rw [hck.rcv] at h2 hn h5
    dsimp only at h1 h2 hn h5 hfl hfr howner
    have hfin₂ : p₂.flags.fin = false := by rw [hfl.flags]; exact hfin
    refine Outcome.prepend (h1.tcpRcvSlowpath cfg ?_ ⟨(h5 (by simp)).aligned, ?_, ?_, ?_⟩)
      hfin₂ h2 h3 h4
    · rw [hfr.wid, hck.worker, ← hw, hfl.eq]
    · intro _ hph₂ _
      obtain ⟨share, hi⟩ := h1.inv
      have hwnd : s₂.tsock.rcv.rcvWnd + rxqLen s₂.tsock.rcv.rxq =
        tsockRcvWndDefault s₂.tsock.rcv.rxqSize := hi.wnd
      have hsize : s₂.tsock.rcv.rxqSize ≤ 2 ^ 15 := hi.size
      rw [h2, rxqLen_append] at hwnd
      unfold tsockRcvWndDefault at hwnd
      exact (h5 (by simp)).arrives (by omega) (by omega) hn
    · rw [hfl.id]
      exact howner (by simp)
    · intro hf
      rw [hf.fin] at hfin₂
      cases hfin₂

/-! Behind the FIN. -/

theorem rcvText_ended (cfg : TcpCfg) (he : s.tsock.flags.eof = true)
    (hph : s.tsock.state.phase = .ended) : RcvStill s (rcvText cfg s p).2.1 := by
  have hfin : RcvStill s (tcpRcvFin cfg s p).2 := by
    unfold tcpRcvFin
    split
    · exact .refl s
    have h : RcvStill s (s.setFlags { s.tsock.flags with eof := true }) :=
      .setFlags s _ he.symm
    have h' := (h.trans (SndFrame.tsockEventAdd _ tpaEventIn).still).trans
      (.tsockSetAckFlag cfg _ true)
    cases hst : s.tsock.state <;> rw [hst] at hph <;> cases hph
    all_goals
      dsimp only [St.setFlags] at h' ⊢
      rw [hst] at h' ⊢
      exact h'
  have hdata : ¬ takesData s.tsock.state := by
    rintro (hst | hst | hst) <;> rw [hst] at hph <;> cases hph
  unfold rcvText
  rw [if_neg hdata]
  split
  · exact .refl s
  · exact hfin

theorem Ended.tcpRcvPkt {f : U32} (cfg : TcpCfg) (h : Ended f s) :
    RcvStill s (tcpRcvPkt cfg s p).2.1 := by
  have hne : s.tsock.state ≠ .established ∧ s.tsock.state ≠ .synSent ∧ s.tsock.state ≠ .listen := by
    rcases h.phase with hp | hp
    · refine ⟨?_, ?_, ?_⟩ <;> intro hst <;> rw [hst] at hp <;> cases hp
    · rw [hp]
      decide
  have hcase := tcpRcvPkt_cases cfg s p
  generalize LibTpa.tcpRcvPkt cfg s p = r at hcase
  cases hcase with
  | stale => exact .refl s
  | fast _ _ _ _ hst => exact absurd hst hne.1
  | fallback _ _ _ _ _ hst => exact absurd hst hne.1
  | slow =>
    unfold tcpRcvSlowpath
    split
    · exact .sendRst cfg s p
    · next hst => exact absurd hst hne.2.1
    · next hst => exact absurd hst hne.2.2
    next hopen _ _ =>
    obtain ⟨s₂, hck, hcase⟩ := rcvSynchronised_cases cfg s p
    have hs₂ := hck.still
    have hs₃ := hs₂.trans (.tcpRcvAck cfg s₂ (parseTcpOpts p).2.2 (parseTcpOpts p).2.1)
    generalize rcvSynchronised cfg s p = r at hcase
    cases hcase with
    | refused => exact hs₂.trans (.sendAck cfg s₂ _)
    | rst => exact hs₂.trans (.tcpRcvRst cfg s₂)
    | syn => exact hs₂.trans (.sendAck cfg s₂ _)
    | badAck _ _ _ e s₃ ha =>
      rw [ha] at hs₃
      exact hs₃
    | closed _ _ _ s₃ ha =>
      rw [ha] at hs₃
      exact hs₃
    | text _ _ _ s₃ ha hc =>
      rw [ha] at hs₃
      refine hs₃.trans (rcvText_ended cfg (hs₃.keeps.eof.trans h.eof) ?_)
      exact (hs₃.phase.resolve_right hc).trans (h.phase.resolve_right hopen)

end LibTpa
