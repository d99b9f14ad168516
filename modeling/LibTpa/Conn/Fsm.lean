/- LibTpa/Conn/Fsm
   digest: The diagram of RFC 793, and where one packet moves a socket in it. -/

import LibTpa.Conn.Cases
import LibTpa.Rcv.Frame
import Mathlib.Logic.Relation

set_option autoImplicit false

namespace LibTpa

open Relation

inductive Cause
  | passiveOpen | activeOpen | send | close
  | rcvSyn | rcvSynAck | rcvAckOfSyn | rcvAckOfFin | rcvFin | timeout
  deriving DecidableEq

/-- The connection state diagram, RFC 793, figure 6. -/
def diagram : TcpState → Cause → Option TcpState
  | .closed, .passiveOpen => some .listen
  | .closed, .activeOpen => some .synSent
  | .listen, .rcvSyn => some .synRcvd
  | .listen, .send => some .synSent
  | .listen, .close => some .closed
  | .synSent, .rcvSyn => some .synRcvd
  | .synSent, .rcvSynAck => some .established
  | .synSent, .close => some .closed
  | .synRcvd, .rcvAckOfSyn => some .established
  | .synRcvd, .close => some .finWait1
  | .established, .close => some .finWait1
  | .established, .rcvFin => some .closeWait
  | .finWait1, .rcvAckOfFin => some .finWait2
  | .finWait1, .rcvFin => some .closing
  | .finWait2, .rcvFin => some .timeWait
  | .closing, .rcvAckOfFin => some .timeWait
  | .closeWait, .close => some .lastAck
  | .lastAck, .rcvAckOfFin => some .closed
  | .timeWait, .timeout => some .closed
  | _, _ => none

/-- The FIN behind the last byte was transmitted. -/
def FinOut (t : TcpSock) : Prop :=
  ∃ q ∈ t.emitted, q.flags.fin = true ∧ q.seq = t.snd.dataSeqNxt

instance (t : TcpSock) : Decidable (FinOut t) := inferInstanceAs (Decidable (∃ q ∈ _, _))

inductive Shows (t : TcpSock) (p : Packet) : Cause → Prop
  | synAck (hs : p.flags.syn = true) (ha : p.flags.ack = true) : Shows t p .rcvSynAck
  | ackOfSyn (ha : p.flags.ack = true) (h : p.ack = t.snd.sndIsn + 1) : Shows t p .rcvAckOfSyn
  | ackOfFin (ha : p.flags.ack = true) (hf : FinOut t) (h : p.ack = t.snd.dataSeqNxt + 1) :
      Shows t p .rcvAckOfFin
  | fin (h : p.flags.fin = true) : Shows t p .rcvFin

inductive PktChange (t : TcpSock) (p : Packet) : TcpState → TcpState → Prop
  | edge {a b : TcpState} (c : Cause) (h : Shows t p c) (hd : diagram a c = some b) :
      PktChange t p a b
  | reset {a : TcpState} (hr : p.flags.rst = true) (ha : a ≠ .closed) : PktChange t p a .closed

def TcpState.shut : TcpState → Bool
  | .finWait1 | .finWait2 | .closing | .timeWait | .lastAck | .closed => true
  | _ => false

structure SynOut (x : Snd) : Prop where
  una : x.sndUna = x.sndIsn
  nxt : x.sndNxt = x.sndIsn + 1
  all : x.txq.nxt = x.txq.write
  empty : x.txq.una = x.txq.write

/-- What the state of a socket says about its send half. -/
structure FsmInv (s : St) : Prop where
  synRcvd : s.tsock.state = .synRcvd → SynOut s.tsock.snd
  fin : s.tsock.snd.finSent = true → s.tsock.snd.sndNxt = s.tsock.snd.dataSeqNxt + 1 ∧
    s.tsock.snd.txq.nxt = s.tsock.snd.txq.write
  shut : s.tsock.snd.finSent = true ∨ s.tsock.flags.finPending = true → s.tsock.state.shut = true

/-- The packet gets as far as the ACK field. -/
structure Taken (s : St) (p : Packet) : Prop where
  wid : p.wid = s.worker.id
  passed : Passed s p
  rst : p.flags.rst = false
  syn : p.flags.syn = false
  ack : p.flags.ack = true

/-- The ACK field says what the state of the socket presumes it to say: it covers
the SYN, also under a FIN, and no FIN that was never transmitted. -/
structure Presumed (t : TcpSock) (p : Packet) : Prop where
  syn : t.state = .synRcvd → p.ack ≠ t.snd.sndIsn
  fin : t.state = .synRcvd → p.flags.fin = true → p.len = 0 → ¬ seqLt p.ack t.snd.sndUna
  finAck : finAcked t.snd p.ack → FinOut t

instance (t : TcpSock) (p : Packet) : Decidable (Presumed t p) :=
  decidable_of_iff ((t.state = .synRcvd → p.ack ≠ t.snd.sndIsn) ∧
    (t.state = .synRcvd → p.flags.fin = true → p.len = 0 → ¬ seqLt p.ack t.snd.sndUna) ∧
      (finAcked t.snd p.ack → FinOut t))
    ⟨fun h => ⟨h.1, h.2.1, h.2.2⟩, fun h => ⟨h.syn, h.fin, h.finAck⟩⟩

variable {s s' : St} {p p' : Packet} {t t' : TcpSock} {a b : TcpState}

theorem PktChange.of_eq (hi : t'.snd = t.snd) (he : t'.emitted = t.emitted)
    (hf : p'.flags = p.flags) (ha : p'.ack = p.ack) (h : PktChange t' p' a b) :
    PktChange t p a b := by
  cases h with
  | reset hr hc => exact .reset (hf ▸ hr) hc
  | edge c hs hd =>
    refine .edge c ?_ hd
    cases hs with
    | synAck h1 h2 => exact .synAck (hf ▸ h1) (hf ▸ h2)
    | ackOfSyn h1 h2 => exact .ackOfSyn (hf ▸ h1) (by rw [← ha, ← hi]; exact h2)
    | ackOfFin h1 h2 h3 =>
      unfold FinOut at h2
      rw [he, hi] at h2
      exact .ackOfFin (hf ▸ h1) h2 (by rw [← ha, ← hi]; exact h3)
    | fin h => exact .fin (hf ▸ h)

namespace FsmInv

theorem move (h : FsmInv s) (hs : SndStill s.tsock.snd s'.tsock.snd)
    (hp : s'.tsock.flags.finPending = true → s.tsock.flags.finPending = true)
    (hsh : s.tsock.state.shut = true → s'.tsock.state.shut = true)
    (hsyn : s'.tsock.state = .synRcvd → SynOut s'.tsock.snd) : FsmInv s' := by
  refine ⟨hsyn, ?_, ?_⟩
  · intro hf
    obtain ⟨h1, h2⟩ := h.fin (hs.fin ▸ hf)
    obtain ⟨h3, h4⟩ := hs.all h2
    exact ⟨by rw [h3, hs.data]; exact h1, h4⟩
  · intro hor
    refine hsh (h.shut (hor.imp (fun hf => ?_) hp))
    exact hs.fin ▸ hf

theorem tx (h : FsmInv s) (hf : OutFrame s s') (hst : s.tsock.state ≠ .synRcvd) : FsmInv s' :=
  h.move hf.still (fun hp => hf.frame.pending ▸ hp) (fun hs => by rw [hf.state]; exact hs)
    fun hs => absurd (hf.state ▸ hs) hst

theorem same (h : FsmInv s) (hs : s'.tsock.snd = s.tsock.snd)
    (hp : s'.tsock.flags.finPending = s.tsock.flags.finPending)
    (hst : s'.tsock.state = s.tsock.state) : FsmInv s' :=
  h.move (hs ▸ .refl _) (fun h => hp ▸ h) (fun h => hst ▸ h)
    fun h' => by rw [hs]; exact h.synRcvd (hst ▸ h')

theorem goto (h : FsmInv s) (hs : s'.tsock.snd = s.tsock.snd)
    (hp : s'.tsock.flags.finPending = s.tsock.flags.finPending)
    (hsh : s.tsock.state.shut = true → s'.tsock.state.shut = true)
    (hst : s'.tsock.state ≠ .synRcvd) : FsmInv s' :=
  h.move (hs ▸ .refl _) (fun h => hp ▸ h) hsh fun h' => absurd h' hst

theorem early (h : FsmInv s) (hst : s.tsock.state.shut = false) :
    s.tsock.snd.finSent = false ∧ s.tsock.flags.finPending = false := by
  constructor
  · by_contra hf
    have := h.shut (.inl (by simpa using hf))
    simp [hst] at this
  · by_contra hf
    have := h.shut (.inr (by simpa using hf))
    simp [hst] at this

theorem of_early (hf : s.tsock.snd.finSent = false) (hp : s.tsock.flags.finPending = false)
    (hst : s.tsock.state ≠ .synRcvd) : FsmInv s :=
  ⟨fun h => absurd h hst, fun h => by simp [hf] at h, fun h => by simp [hf, hp] at h⟩

end FsmInv

theorem tsockEstablished_early (cfg : TcpCfg) (s : St) (p : Packet) (h : FsmInv s)
    (hst : s.tsock.state.shut = false) : FsmInv (tsockEstablished cfg s p) := by
  obtain ⟨h1, h2⟩ := h.early hst
  obtain ⟨s₁, hf, hs, he⟩ := tsockEstablished_split cfg s p
  rw [he]
  refine .of_early ?_ ?_ ?_
  · change (tsockSetState cfg s₁ .established).tsock.snd.finSent = false
    rw [tsockSetState_tsock]
    rw [hs]
    exact h1
  · change (tsockSetState cfg s₁ .established).tsock.flags.finPending = false
    rw [tsockSetState_tsock]
    rw [hf.frame.pending]
    exact h2
  · change (tsockSetState cfg s₁ .established).tsock.state ≠ _
    rw [tsockSetState_state]
    decide

theorem ackFin_tsock (cfg : TcpCfg) (s : St) (ack : U32) :
    (ackFin cfg s ack).tsock = { s.tsock with
      state := ackState s.tsock.state s.tsock.snd ack
      flags := (ackFin cfg s ack).tsock.flags
      timers := (ackFin cfg s ack).tsock.timers } ∧
      ((ackFin cfg s ack).tsock.flags.finPending = true → s.tsock.flags.finPending = true) := by
  rw [← ackFin_state cfg]
  unfold ackFin
  split
  · dsimp only
    split
    all_goals first | rw [tsockSetState_tsock] | skip
    all_goals exact ⟨rfl, fun h => nomatch h⟩
  · exact ⟨rfl, id⟩

theorem ackAccepted_still (cfg : TcpCfg) (s : St) (p : Packet) (o : TcpOpts) :
    SndStill s.tsock.snd (ackAccepted cfg s p o).tsock.snd ∧
      ((ackAccepted cfg s p o).tsock.flags.finPending = true →
        s.tsock.flags.finPending = true) := by
  obtain ⟨ht, hpend⟩ := ackFin_tsock cfg (countDupack s p) p.ack
  unfold ackAccepted
  generalize ackFin cfg (countDupack s p) p.ack = s₁ at ht hpend
  have hpr := TxFrame.ackProgress cfg s₁ p o (ackedLen s.tsock.snd p.ack)
  have hsnd : s₁.tsock.snd = s.tsock.snd := by
    rw [ht]
    exact countDupack_snd s p
  rw [(TxFrame.countDupack s p).frame.pending] at hpend
  have hstill := hpr.still
  rw [hsnd] at hstill
  exact ⟨hstill, fun hq => hpend (hpr.frame.pending ▸ hq)⟩

theorem ackState_edge (a : TcpState) (x : Snd) (ack : U32) :
    ackState a x ack = a ∨
      finAcked x ack ∧ diagram a .rcvAckOfFin = some (ackState a x ack) := by
  unfold ackState
  split
  · next hf => cases a <;> simp [diagram, hf]
  · exact .inl rfl

theorem ackState_shut (a : TcpState) (x : Snd) (ack : U32) (h : a.shut = true) :
    (ackState a x ack).shut = true := by
  unfold ackState
  split
  · cases a <;> first | rfl | cases h
  · exact h

theorem finState_edge (ha : a ≠ .synRcvd) :
    finState a = a ∨ diagram a .rcvFin = some (finState a) := by
  cases a <;> first | exact .inl rfl | exact .inr rfl | exact absurd rfl ha

theorem finState_shut (h : a.shut = true) : (finState a).shut = true := by
  cases a <;> first | rfl | cases h

structure Moved (t : TcpSock) (p : Packet) (a : TcpState) (s' : St) : Prop where
  path : ReflTransGen (PktChange t p) a s'.tsock.state
  inv : FsmInv s'

theorem Moved.same (h : FsmInv s) (hs : s'.tsock.snd = s.tsock.snd)
    (hp : s'.tsock.flags.finPending = s.tsock.flags.finPending)
    (hst : s'.tsock.state = s.tsock.state) : Moved t p s.tsock.state s' :=
  ⟨hst ▸ .refl, h.same hs hp hst⟩

theorem Moved.of_eq (hi : t'.snd = t.snd) (he : t'.emitted = t.emitted) (hf : p'.flags = p.flags)
    (ha : p'.ack = p.ack) (h : Moved t' p' a s') : Moved t p a s' :=
  ⟨ReflTransGen.mono (show PktChange t' p' ≤ PktChange t p from
    fun _ _ => PktChange.of_eq hi he hf ha) _ _ h.path, h.inv⟩

theorem SynOut.acceptable {x : Snd} {ack : U32} (h : SynOut x) (hlt : ¬ seqLt ack x.sndUna)
    (hgt : ¬ seqGt ack x.sndNxt) (hne : ack ≠ x.sndIsn) : ack = x.sndIsn + 1 := by
  rw [h.una] at hlt
  rw [h.nxt] at hgt
  unfold seqLt at hlt
  unfold seqGt at hgt
  rw [BitVec.toInt_eq_toNat_cond] at hlt hgt
  split_ifs at hlt hgt <;> bv_omega

theorem tcpRcvAck_moved (cfg : TcpCfg) (o : TcpOpts) (h : FsmInv s)
    (hp : p.flags.ack = true → Presumed s.tsock p) :
    Moved s.tsock p s.tsock.state (tcpRcvAck cfg s p o).2 ∧
      ((tcpRcvAck cfg s p o).1 = none → (tcpRcvAck cfg s p o).2.tsock.state = .synRcvd →
        p.flags.fin = true → p.len ≠ 0) := by
  have hcase := tcpRcvAck_cases cfg s p o
  generalize tcpRcvAck cfg s p o = r at hcase
  cases hcase with
  | unsynchronised => exact ⟨.same h rfl rfl rfl, fun hn => nomatch hn⟩
  | beyond => exact ⟨.same h rfl rfl rfl, fun hn => nomatch hn⟩
  | old ha hlt => exact ⟨.same h rfl rfl rfl, fun _ hst hf hl => (hp ha).fin hst hf hl hlt⟩
  | established ha hlt hgt hst =>
    have hack := (h.synRcvd hst).acceptable hlt hgt ((hp ha).syn hst)
    have hst' : (acceptTsockEnqueue (tsockEstablished cfg s p)).tsock.state = .established :=
      tsockEstablished_state cfg s p
    refine ⟨⟨?_, ?_⟩, fun _ hsyn => absurd (hst'.symm.trans hsyn) (by decide)⟩
    · rw [hst', hst]
      exact .single (.edge _ (.ackOfSyn ha hack) rfl)
    · exact (tsockEstablished_early cfg s p h (by rw [hst]; rfl)).same rfl rfl rfl
  | accepted ha hlt hgt hc hl hs hst =>
    obtain ⟨hstill, hpend⟩ := ackAccepted_still cfg s p o
    have hst' := ackAccepted_state cfg s p o
    generalize ackAccepted cfg s p o = s' at hstill hpend hst' ⊢
    have hne : ackState s.tsock.state s.tsock.snd p.ack ≠ .synRcvd := by
      rcases ackState_edge s.tsock.state s.tsock.snd p.ack with he | ⟨-, he⟩
      · rw [he]
        exact hst
      · intro heq
        rw [heq] at he
        revert he
        cases s.tsock.state <;> simp [diagram]
    refine ⟨⟨?_, ?_⟩, fun _ hsyn => absurd (hst'.symm.trans hsyn) hne⟩
    · rw [hst']
      rcases ackState_edge s.tsock.state s.tsock.snd p.ack with he | ⟨hf, he⟩
      · rw [he]
      · refine .single (.edge _ (.ackOfFin ha ((hp ha).finAck hf) ?_) he)
        rw [hf.2]
        exact (h.fin hf.1).1
    · refine h.move hstill hpend ?_ ?_
      · intro hsh
        rw [hst']
        exact ackState_shut _ _ _ hsh
      · intro hsyn
        exact absurd (hst'.symm.trans hsyn) hne

theorem tcpRcvFin_moved (cfg : TcpCfg) (h : FsmInv s) (hq : p.flags = p'.flags)
    (hne : s.tsock.state = .synRcvd → p.flags.fin = false) :
    Moved t p' s.tsock.state (tcpRcvFin cfg s p).2 := by
  have hfr := tcpRcvFin_frame cfg s p
  have hst := tcpRcvFin_state cfg s p
  have hsnd : (tcpRcvFin cfg s p).2.tsock.snd = s.tsock.snd := by rw [hfr.tsock]
  have hpend : (tcpRcvFin cfg s p).2.tsock.flags.finPending = s.tsock.flags.finPending := by
    rw [hfr.flags]
  cases hfin : p.flags.fin with
  | false =>
    rw [hfin, if_neg Bool.false_ne_true] at hst
    exact .same h hsnd hpend hst
  | true =>
    rw [hfin, if_pos rfl] at hst
    have hs : s.tsock.state ≠ .synRcvd := fun hs => by simp [hne hs] at hfin
    have hs' : finState s.tsock.state ≠ .synRcvd := by
      revert hs
      cases s.tsock.state <;> simp [finState]
    refine ⟨?_, h.goto hsnd hpend (fun hsh => hst ▸ finState_shut hsh) (hst ▸ hs')⟩
    rw [hst]
    rcases finState_edge hs with he | he
    · rw [he]
    · exact .single (.edge _ (.fin (hq ▸ hfin)) he)

theorem Moved.trans {s₁ : St} (h : Moved t p a s₁) (h' : Moved t p s₁.tsock.state s') :
    Moved t p a s' := ⟨h.path.trans h'.path, h'.inv⟩

theorem rcvText_moved (cfg : TcpCfg) (h : FsmInv s) (hid : s.rxSt.held p.id = 0)
    (hne : s.tsock.state = .synRcvd → p.flags.fin = true → p.len ≠ 0) :
    Moved t p s.tsock.state (rcvText cfg s p).2.1 := by
  unfold rcvText
  split
  · next htakes =>
    have hfr := RcvFrame.tcpRcvData cfg s p
    have hhdr := (tcpRcvData_hdr cfg s p hid).flags
    have hst : s.tsock.state ≠ .synRcvd := by
      intro hs
      rw [hs] at htakes
      revert htakes
      decide
    split
    · next heq =>
      rw [heq] at hfr
      exact .same h hfr.snd (by rw [hfr.flags]) hfr.state
    · next s₁ p₁ heq =>
      rw [heq] at hfr hhdr
      have h₁ : Moved t p s.tsock.state s₁ := .same h hfr.snd (by rw [hfr.flags]) hfr.state
      exact h₁.trans (tcpRcvFin_moved cfg h₁.inv hhdr fun hs => absurd (hfr.state ▸ hs) hst)
  split
  · exact .same h rfl rfl rfl
  · next hlen =>
    refine tcpRcvFin_moved cfg h rfl fun hs => ?_
    by_contra hf
    exact hlen (hne hs (by simpa using hf))

theorem tcpRcvRst_moved (cfg : TcpCfg) (h : FsmInv s) (hr : p.flags.rst = true) :
    Moved t p s.tsock.state (tcpRcvRst cfg s).2 := by
  unfold tcpRcvRst
  split
  · exact .same h rfl rfl rfl
  next hc =>
  have hset : ∀ s₁ : St, s₁.tsock.snd = s.tsock.snd →
      s₁.tsock.flags.finPending = s.tsock.flags.finPending →
      Moved t p s.tsock.state (tsockSetState cfg s₁ .closed) := by
    intro s₁ hs hpend
    have hst : (tsockSetState cfg s₁ .closed).tsock.state = .closed := tsockSetState_state ..
    refine ⟨hst ▸ .single (.reset hr hc), h.goto ?_ ?_ (fun _ => by rw [hst]; rfl)
      (by rw [hst]; decide)⟩
    · exact hs
    · exact hpend
  refine hset _ ?_ ?_ <;> split <;> rfl

theorem sendAck_moved (cfg : TcpCfg) (h : FsmInv s) :
    Moved t p s.tsock.state (sendAck cfg s p') := by
  unfold sendAck
  split
  · exact .same h rfl rfl rfl
  · split <;> exact .same h rfl rfl rfl

theorem KeepsRcv.held (h : KeepsRcv s s') (i : PktId) : s'.rxSt.held i = s.rxSt.held i := by
  unfold RxSt.held St.rxSt
  rw [h.rxq, h.ooo]

theorem rcvSynchronised_moved (cfg : TcpCfg) (h : FsmInv s) (hid : s.rxSt.held p.id = 0)
    (hw : p.wid = s.worker.id) (hp : Taken s p → Presumed s.tsock p) :
    Moved s.tsock p s.tsock.state (rcvSynchronised cfg s p).2.1 := by
  obtain ⟨s₂, hck, hcase⟩ := rcvSynchronised_cases cfg s p
  have h₂ : FsmInv s₂ := h.same hck.snd (by rw [hck.flags]) hck.state
  have hm : ∀ {s' : St}, Moved s₂.tsock (parseTcpOpts p).2.2 s₂.tsock.state s' →
      Moved s.tsock p s.tsock.state s' := by
    intro s' hmv
    rw [hck.state] at hmv
    exact hmv.of_eq hck.snd hck.emitted p.parsed_flags p.parsed_ack
  have hack : Passed s p → p.flags.rst = false → p.flags.syn = false →
      (parseTcpOpts p).2.2.flags.ack = true → Presumed s₂.tsock (parseTcpOpts p).2.2 := by
    intro hpass hrst hsyn ha
    rw [p.parsed_flags] at ha
    have hpr := hp ⟨hw, hpass, hrst, hsyn, ha⟩
    refine ⟨?_, ?_, ?_⟩
    · rw [hck.state, p.parsed_ack, hck.snd]
      exact hpr.syn
    · rw [hck.state, p.parsed_ack, hck.snd, p.parsed_flags, p.parsed_len]
      exact hpr.fin
    · unfold FinOut
      rw [hck.emitted, p.parsed_ack, hck.snd]
      exact hpr.finAck
  generalize rcvSynchronised cfg s p = r at hcase
  cases hcase with
  | refused => exact hm (sendAck_moved cfg h₂)
  | rst _ hr => exact hm (tcpRcvRst_moved cfg h₂ (by rw [p.parsed_flags]; exact hr))
  | syn => exact hm (sendAck_moved cfg h₂)
  | badAck hpass hr hs e s₃ ha =>
    have h₃ := (tcpRcvAck_moved cfg (parseTcpOpts p).2.1 h₂ (hack hpass hr hs)).1
    rw [ha] at h₃
    exact hm h₃
  | closed hpass hr hs s₃ ha =>
    have h₃ := (tcpRcvAck_moved cfg (parseTcpOpts p).2.1 h₂ (hack hpass hr hs)).1
    rw [ha] at h₃
    exact hm h₃
  | text hpass hr hs s₃ ha hc =>
    obtain ⟨h₃, hne⟩ := tcpRcvAck_moved cfg (parseTcpOpts p).2.1 h₂ (hack hpass hr hs)
    have hkeep := KeepsRcv.tcpRcvAck cfg s₂ (parseTcpOpts p).2.2 (parseTcpOpts p).2.1
    rw [ha] at h₃ hne hkeep
    have hheld : s₃.rxSt.held (parseTcpOpts p).2.2.id = 0 := by
      rw [hkeep.held, p.parsed_id]
      unfold St.rxSt
      rw [hck.rcv, hck.worker]
      exact hid
    exact hm (h₃.trans (rcvText_moved cfg h₃.inv hheld (hne rfl)))

theorem Moved.quiet (h : FsmInv s) (hq : Quiet s s') : Moved t p s.tsock.state s' :=
  .same h hq.snd hq.frame.pending hq.frame.state

theorem processTcpOptNegotiation_fsm (cfg : TcpCfg) (h : FsmInv s) :
    FsmInv (processTcpOptNegotiation cfg s p).1 ∧
      (processTcpOptNegotiation cfg s p).1.tsock.state = s.tsock.state := by
  exact ⟨h.same rfl rfl rfl, rfl⟩

theorem synSentToEstablished_early (cfg : TcpCfg) (h : FsmInv s)
    (hst : s.tsock.state.shut = false) : FsmInv (synSentToEstablished cfg s p).1 := by
  unfold synSentToEstablished
  dsimp only
  have h₀ : FsmInv (s.setRcv { s.tsock.rcv with rcvIsn := p.seq, rcvNxt := p.seq + 1 }) :=
    h.same rfl rfl rfl
  obtain ⟨h₁, hst₁⟩ := processTcpOptNegotiation_fsm (p := p) cfg h₀
  generalize processTcpOptNegotiation cfg _ p = r at h₁ hst₁
  exact (tsockEstablished_early cfg r.1 r.2 h₁ (by rw [hst₁]; exact hst)).same rfl rfl rfl

theorem tcpRcvPktAtSynSent_moved (cfg : TcpCfg) (h : FsmInv s) (hst : s.tsock.state = .synSent) :
    Moved s.tsock p s.tsock.state (tcpRcvPktAtSynSent cfg s p).2.1 := by
  unfold tcpRcvPktAtSynSent
  dsimp only
  split
  · have hq := (Quiet.setTcp s { s.tsock.flags.tcp with rst := true }).trans
      (Quiet.xmitFlagPacketWithSeq cfg _ p.ack)
    exact .same h hq.snd hq.frame.pending hq.frame.state
  split
  · next hr =>
    split
    · exact tcpRcvRst_moved cfg h hr
    · exact .same h rfl rfl rfl
  split
  · exact .same h rfl rfl rfl
  next hsyn =>
  split
  · exact .same h rfl rfl rfl
  next hack =>
  split
  · next hlt =>
    refine ⟨?_, synSentToEstablished_early cfg h (by rw [hst]; rfl)⟩
    rw [synSentToEstablished_state, hst]
    exact .single (.edge _ (.synAck (by simpa using hsyn) (by simpa using hack)) rfl)
  · exact .same h rfl rfl rfl

theorem tcpRcvPktAtListen_moved (cfg : TcpCfg) (h : FsmInv s) (hst : s.tsock.state = .listen) :
    Moved t p s.tsock.state (tcpRcvPktAtListen cfg s p').2.1 := by
  unfold tcpRcvPktAtListen
  split
  · exact .same h rfl rfl rfl
  split
  · exact .quiet h (.xmitRstForListen s p' hst)
  split
  · unfold tsockAccept
    dsimp only
    split <;> exact .same h rfl rfl rfl
  · exact .same h rfl rfl rfl

theorem tcpRcvSlowpath_moved (cfg : TcpCfg) (h : FsmInv s) (hid : s.rxSt.held p.id = 0)
    (hw : p.wid = s.worker.id ∨ s.tsock.state = .listen) (hp : Taken s p → Presumed s.tsock p) :
    Moved s.tsock p s.tsock.state (tcpRcvSlowpath cfg s p).2.1 := by
  unfold tcpRcvSlowpath
  split
  · unfold sendRst
    split
    · exact .same h rfl rfl rfl
    · exact .quiet h ((Quiet.setTcp s _).trans (.xmitFlagPacket cfg _))
  · next hst => exact tcpRcvPktAtSynSent_moved cfg h hst
  · next hst => exact tcpRcvPktAtListen_moved cfg h hst
  · next hl => exact rcvSynchronised_moved cfg h hid (hw.resolve_right hl) hp

/-- One packet moves a socket along edges of the diagram that the packet shows. -/
theorem tcpRcvPkt_moved (cfg : TcpCfg) (h : FsmInv s) (hid : s.rxSt.held p.id = 0)
    (hp : Taken s p → Presumed s.tsock p) :
    Moved s.tsock p s.tsock.state (tcpRcvPkt cfg s p).2.1 := by
  have hcase := tcpRcvPkt_cases cfg s p
  generalize tcpRcvPkt cfg s p = r at hcase
  cases hcase with
  | stale => exact .same h rfl rfl rfl
  | slow hw => exact tcpRcvSlowpath_moved cfg h hid hw hp
  | fast s₁ s₂ p₂ _ hst _ hck hd =>
    have hfr := RcvFrame.tcpRcvData cfg s₁ p
    rw [hd] at hfr
    have h₂ : FsmInv s₂ := h.same (hfr.snd.trans hck.snd) (by rw [hfr.flags, hck.flags])
      (hfr.state.trans hck.state)
    have htx := TxFrame.tcpRcvAckFastpath cfg s₂ p₂
    have hst₂ : s₂.tsock.state = s.tsock.state := hfr.state.trans hck.state
    have h₃ := h₂.tx htx.toOutFrame (by rw [hst₂, hst]; decide)
    have hst₃ : (tcpRcvAckFastpath cfg s₂ p₂).tsock.state = s.tsock.state :=
      htx.state.trans hst₂
    exact ⟨hst₃ ▸ .refl, h₃.same rfl rfl rfl⟩
  | fallback s₁ s₂ p₂ e hw hst hoff hck hd =>
    have hheld : s₁.rxSt.held p.id = 0 := by
      unfold St.rxSt
      rw [hck.rcv, hck.worker]
      exact hid
    have hhdr := tcpRcvData_hdr cfg s₁ p hheld
    have hown := (tcpRcvData_owner cfg s₁ p hheld).refused
    have hfr := RcvFrame.tcpRcvData cfg s₁ p
    rw [hd] at hhdr hown hfr
    dsimp only at hhdr hown hfr
    have hst₂ : s₂.tsock.state = s.tsock.state := hfr.state.trans hck.state
    have hsnd₂ : s₂.tsock.snd = s.tsock.snd := hfr.snd.trans hck.snd
    have h₂ : FsmInv s₂ := h.same hsnd₂ (by rw [hfr.flags, hck.flags]) hst₂
    have hearly := (h₂.early (by rw [hst₂, hst]; rfl)).1
    have hmv := tcpRcvSlowpath_moved (p := p₂) cfg h₂ (by rw [hhdr.id]; exact hown (by simp))
      (.inl (by rw [hhdr.eq, hfr.wid, hck.worker]; exact hw)) (fun _ =>
        ⟨fun hs => by simp [hst₂, hst] at hs, fun hs => by simp [hst₂, hst] at hs,
          fun hf => by simp [finAcked, hearly] at hf⟩)
    rw [hst₂] at hmv
    exact hmv.of_eq hsnd₂ (hfr.emitted.trans hck.emitted) hhdr.flags (by rw [hhdr.eq])

/-- `tcp_rcv_process` lets the packet be read from its start. -/
def Packet.rewind (p : Packet) : Packet := { p with toRead := p.segs }

theorem tcpRcvProcess_moved (cfg : TcpCfg) (h : FsmInv s) (hid : s.rxSt.held p.id = 0)
    (hp : Taken s p.rewind → Presumed s.tsock p) :
    Moved s.tsock p s.tsock.state (tcpRcvProcess cfg s p) := by
  have hd : PacketDone (tcpRcvPkt cfg s p.rewind).2.1 (tcpRcvProcess cfg s p) :=
    tcpRcvProcess_done cfg s p
  have hmv := tcpRcvPkt_moved (p := p.rewind) cfg h hid fun ht =>
    ⟨(hp ht).syn, (hp ht).fin, (hp ht).finAck⟩
  have hmv : Moved s.tsock p s.tsock.state (tcpRcvPkt cfg s p.rewind).2.1 :=
    Moved.of_eq (p := p) rfl rfl (show p.rewind.flags = p.flags from rfl) rfl hmv
  exact hmv.trans (.same hmv.inv hd.snd hd.pending hd.state)

end LibTpa
