/- LibTpa/Conn/Window
   digest: How the receive window moves while a packet is processed. -/

import LibTpa.Conn.Cases
import LibTpa.Conn.Fin

set_option autoImplicit false

namespace LibTpa

open Lib.SerialNumber Lib.SpanList Lib.Stream

variable {s s' s'' : St} {p : Packet} {n f m g : Nat}

def TcpState.connected (st : TcpState) : Prop := st.phase = .flowing ∨ st.phase = .ended

instance (st : TcpState) : Decidable st.connected := inferInstanceAs (Decidable (_ ∨ _))

/-- A header that was made on the way, when `rcv_nxt` had moved by `d` and the right
edge of the window by `g`. What it announces lies within the window. -/
structure SentAt (n f d g : Nat) (s : St) (q : TxPacket) : Prop where
  passed : d ≤ n
  grown : g ≤ f
  ahead : f + d ≤ n + g
  nxt : q.rcvNxt = s.tsock.rcv.rcvNxt + BitVec.ofNat 32 d
  wnd : q.rcvWnd + d = s.tsock.rcv.rcvWnd + g
  field : q.wnd = wndField q.shift q.rcvWnd
  told : q.flags.ack = true → q.ack = s.tsock.rcv.rcvNxt + BitVec.ofNat 32 d ∧
    q.wnd.toNat <<< (if q.flags.syn then 0 else s.tsock.nego.rcvWscale) + d ≤
      s.tsock.rcv.rcvWnd + f

/-- `rcv_nxt` moved over `n` sequence numbers and the right edge of the window by
`f`. Packets that were sent on the way announce a window on the way. -/
structure Slides (n f : Nat) (s s' : St) : Prop where
  nxt : s'.tsock.rcv.rcvNxt = s.tsock.rcv.rcvNxt + BitVec.ofNat 32 n
  wnd : s'.tsock.rcv.rcvWnd + n = s.tsock.rcv.rcvWnd + f
  isn : s'.tsock.rcv.rcvIsn = s.tsock.rcv.rcvIsn
  scale : s'.tsock.nego.rcvWscale = s.tsock.nego.rcvWscale
  conn : s'.tsock.state.connected → s.tsock.state.connected
  sent : ∃ new, s'.tsock.emitted = s.tsock.emitted ++ new ∧ ∀ q ∈ new, ∃ d g, SentAt n f d g s q

/-- What was sent before stays on the way when `rcv_nxt` goes on at least as far as the
right edge. -/
theorem Slides.trans (h : Slides n f s s') (h' : Slides m g s' s'') (hg : g ≤ m) :
    Slides (n + m) (f + g) s s'' := by
  obtain ⟨new, hnew, hall⟩ := h.sent
  obtain ⟨new', hnew', hall'⟩ := h'.sent
  have hw := h.wnd
  have hw' := h'.wnd
  refine ⟨?_, by omega, h'.isn.trans h.isn, h'.scale.trans h.scale, fun hc => h.conn (h'.conn hc),
    new ++ new', by rw [hnew', hnew, List.append_assoc], ?_⟩
  · rw [h'.nxt, h.nxt, BitVec.ofNat_add, add_assoc]
  intro q hq
  rcases List.mem_append.mp hq with hq | hq
  · obtain ⟨d, k, hd, hk, ha, h1, h2, h3, h4⟩ := hall q hq
    refine ⟨d, k, by omega, by omega, by omega, h1, h2, h3, fun hack => ?_⟩
    obtain ⟨h5, h6⟩ := h4 hack
    exact ⟨h5, by omega⟩
  · obtain ⟨d, k, hd, hk, ha, h1, h2, h3, h4⟩ := hall' q hq
    refine ⟨n + d, f + k, by omega, by omega, by omega, ?_, by omega, h3, fun hack => ?_⟩
    · rw [h1, h.nxt, BitVec.ofNat_add, add_assoc]
    · obtain ⟨h5, h6⟩ := h4 hack
      rw [h.scale] at h6
      refine ⟨?_, by omega⟩
      rw [h5, h.nxt, BitVec.ofNat_add, add_assoc]

theorem Slides.silent (hn : s'.tsock.rcv.rcvNxt = s.tsock.rcv.rcvNxt + BitVec.ofNat 32 n)
    (hw : s'.tsock.rcv.rcvWnd + n = s.tsock.rcv.rcvWnd + f)
    (hi : s'.tsock.rcv.rcvIsn = s.tsock.rcv.rcvIsn)
    (hs : s'.tsock.nego.rcvWscale = s.tsock.nego.rcvWscale)
    (hc : s'.tsock.state.connected → s.tsock.state.connected)
    (he : s'.tsock.emitted = s.tsock.emitted) : Slides n f s s' :=
  ⟨hn, hw, hi, hs, hc, [], by simp [he], by simp⟩

theorem Slides.of_eq (hr : s'.tsock.rcv = s.tsock.rcv)
    (hs : s'.tsock.nego.rcvWscale = s.tsock.nego.rcvWscale)
    (hc : s'.tsock.state.connected → s.tsock.state.connected)
    (he : s'.tsock.emitted = s.tsock.emitted) : Slides 0 0 s s' :=
  .silent (by simp [hr]) (by rw [hr]) (by rw [hr]) hs hc he

theorem Announces.slides (h : Announces s s') (hr : s'.tsock.rcv = s.tsock.rcv)
    (hc : s'.tsock.state.connected → s.tsock.state.connected) (hl : s.tsock.state ≠ .listen)
    (hw : s.tsock.rcv.rcvWnd < 2 ^ 26) : Slides 0 0 s s' := by
  obtain ⟨new, hnew, hall⟩ := h.sent
  refine ⟨by simp [hr], by rw [hr], by rw [hr], h.scale, hc, new, hnew, fun q hq => ⟨0, 0, ?_⟩⟩
  obtain ⟨htold, -, hfield, hview⟩ := hall q hq
  obtain ⟨h1, h2⟩ := hview.resolve_left hl
  refine ⟨le_rfl, le_rfl, le_rfl, by simpa using h1, ?_, hfield, fun hack => ?_⟩
  · exact h2 (hw.trans (by decide))
  · simpa using htold hack

/-- The unread bytes and the window fill the space of the rxq. -/
structure Conserved (r : Rcv) : Prop where
  wnd : r.rcvWnd + rxqLen r.rxq = tsockRcvWndDefault r.rxqSize
  size : r.rxqSize ≤ 2 ^ 15
  aligned : ∀ q ∈ r.rxq, q.Aligned

def TcpState.open (st : TcpState) : Prop := st.phase = .flowing ∨ st.phase = .opening

/-- A socket whose window is conserved; until a FIN or a reset its queues are in
order, and before the SYN of the peer they are empty. -/
structure WndInv (s : St) : Prop where
  conserved : Conserved s.tsock.rcv
  listens : s.tsock.state ≠ .listen
  queues : s.tsock.state.open → ∃ share, RcvInv .any share 0 s.rxSt
  fresh : s.tsock.state.phase = .opening → s.tsock.rcv.ooo = []

theorem Conserved.wnd_lt {r : Rcv} (h : Conserved r) : r.rcvWnd < 2 ^ 26 := by
  have h1 := h.wnd
  have h2 := h.size
  unfold tsockRcvWndDefault at h1
  omega

theorem RcvInv.conserved {C : SegPred Byte} {share : U32} {k : Nat} {x : RxSt}
    (h : RcvInv C share k x) : Conserved x.rcv := ⟨h.wnd, h.size, h.rxqAligned⟩

theorem RcvInv.elsewhere {share : U32} {k : Nat} {r : Rcv} {x : RxAcct}
    (h : RcvInv .any share k ⟨r, x⟩) (k' : Nat) (x' : RxAcct) :
    ∃ share', RcvInv .any share' k' ⟨r, x'⟩ := by
  refine ⟨x'.nrOooMbuf - BitVec.ofNat 32 (segSum r.ooo), h.spans, h.wnd, h.size, h.count, ?_,
    h.last, h.oooAligned, h.rxqAligned, fun _ _ => trivial⟩
  exact (BitVec.sub_add_cancel ..).symm

theorem not_open_closed : ¬ TcpState.closed.open := by
  rintro (h | h) <;> cases h

theorem WndInv.same (h : WndInv s) (hr : s'.tsock.rcv = s.tsock.rcv) (hl : s'.tsock.state ≠ .listen)
    (hst : s'.tsock.state.phase = s.tsock.state.phase ∨ ¬ s'.tsock.state.open) : WndInv s' := by
  refine ⟨by rw [hr]; exact h.conserved, hl, ?_, ?_⟩
  · intro ho
    rcases hst with hst | hst
    · obtain ⟨share, hi⟩ := h.queues (by unfold TcpState.open; rw [← hst]; exact ho)
      obtain ⟨share', hi'⟩ := hi.elsewhere 0 s'.worker.rx
      exact ⟨share', by rw [St.rxSt, hr]; exact hi'⟩
    · exact absurd ho hst
  · intro ho
    rcases hst with hst | hst
    · rw [hr]
      exact h.fresh (hst.symm.trans ho)
    · exact absurd (.inr ho) hst

theorem WndInv.kept (h : WndInv s)
    (hr : s'.tsock.rcv = s.tsock.rcv ∨ s'.tsock.rcv = s.tsock.rcv.regulate) :
    s'.tsock.rcv = s.tsock.rcv := by
  rcases hr with hr | hr
  · exact hr
  · rw [hr, Rcv.regulate_eq h.conserved.wnd_lt]

theorem WndInv.still (h : WndInv s) (hs : RcvStill s s') : WndInv s' ∧ Slides 0 0 s s' := by
  have hr := h.kept hs.keeps.rcv
  have hc : s'.tsock.state.connected → s.tsock.state.connected := by
    intro hc
    rcases hs.phase with hp | hp
    · unfold TcpState.connected
      rw [← hp]
      exact hc
    · rw [hp] at hc
      rcases hc with hc | hc <;> cases hc
  refine ⟨?_, hs.announces.slides hr hc h.listens h.conserved.wnd_lt⟩
  rcases hs.phase with hp | hp
  · refine h.same hr (fun hl => h.listens ?_) (.inl hp)
    rw [← TcpState.phase_listening, ← hp, hl]
    rfl
  · exact h.same hr (by rw [hp]; decide) (.inr (by rw [hp]; exact not_open_closed))

theorem WndInv.tcpRcvData (cfg : TcpCfg) (h : WndInv s) (hph : s.tsock.state.phase = .flowing)
    (hv : validateSeq s.tsock.rcv p = none) (hal : p.Aligned) (hlen : p.len ≠ 0) :
    ∃ n, Slides n 0 s (tcpRcvData cfg s p).2.1 ∧ WndInv (tcpRcvData cfg s p).2.1 ∧
      (tcpRcvData cfg s p).2.2.Aligned := by
  have hfr := RcvFrame.tcpRcvData cfg s p
  obtain ⟨share, hi⟩ := h.queues (.inl hph)
  obtain ⟨e, s₁, p₁, k, he, h1, h2, h3, -⟩ := tcpRcvData_spec cfg hi hv hlen hal trivial
  rw [he] at hfr ⊢
  dsimp only at hfr ⊢
  obtain ⟨new, hn, -, hk⟩ := h2.grown
  have hst : s₁.tsock.state = s.tsock.state := hfr.state
  refine ⟨rxqLen new, .silent ?_ ?_ h2.isn (by rw [hfr.tsock, hfr.nego])
    (by rw [hst]; exact fun hc => hc) hfr.emitted, ?_, h3.aligned⟩
  · rw [h2.nxt, hk, Nat.zero_add, Nat.sub_zero]
  · have hw := hi.wnd
    have hw₁ := h1.wnd
    have hs := h2.size
    dsimp only at hw hw₁ hs
    rw [hn, rxqLen_append, hs] at hw₁
    omega
  · refine ⟨h1.conserved, by rw [hst]; exact h.listens, fun _ => ?_, fun ho => ?_⟩
    · exact h1.elsewhere 0 s₁.worker.rx
    · rw [hst, hph] at ho
      cases ho

structure FinMoves (s : St) (p : Packet) : Prop where
  fin : p.flags.fin = true
  empty : p.len = 0
  seq : p.seq = s.tsock.rcv.rcvNxt

def Moves (p : Packet) (s s' : St) : Prop :=
  ∃ n f, Slides n f s s' ∧ (f = 0 ∨ f = 1 ∧ 1 ≤ n ∧ FinMoves s p) ∧ WndInv s'

theorem le_of_finMoves (h : f = 0 ∨ f = 1 ∧ 1 ≤ n ∧ FinMoves s p) : f ≤ n := by
  rcases h with rfl | ⟨rfl, hn, -⟩
  · exact Nat.zero_le _
  · exact hn

theorem WndInv.moves_still (h : WndInv s) (hs : RcvStill s s') : Moves p s s' :=
  ⟨0, 0, (h.still hs).2, .inl rfl, (h.still hs).1⟩

theorem Moves.behind {s₁ : St} {q : Packet} (h : Moves q s₁ s') (hs : Slides 0 0 s s₁)
    (hp : FinMoves s₁ q → FinMoves s p) : Moves p s s' := by
  obtain ⟨n, f, h1, h2, h3⟩ := h
  have h4 := hs.trans h1 (le_of_finMoves h2)
  rw [Nat.zero_add, Nat.zero_add] at h4
  exact ⟨n, f, h4, h2.imp (fun hf => hf) (fun hf => ⟨hf.1, hf.2.1, hp hf.2.2⟩), h3⟩

theorem TcpState.takesData_flowing {st : TcpState} (h : takesData st) : st.phase = .flowing := by
  rcases h with rfl | rfl | rfl <;> rfl

theorem finState_phase (st : TcpState) :
    (finState st).phase = st.phase ∨ ¬ (finState st).open := by
  cases st <;> simp [finState, TcpState.phase, TcpState.open]

theorem finState_connected {st : TcpState} (h : (finState st).connected) : st.connected := by
  cases st <;> simp_all [finState, TcpState.phase, TcpState.connected]

theorem finState_listen {st : TcpState} (h : st ≠ .listen) : finState st ≠ .listen := by
  cases st <;> simp_all [finState]

theorem WndInv.tcpRcvFin (cfg : TcpCfg) (h : WndInv s) (p : Packet) :
    Slides 0 0 s (tcpRcvFin cfg s p).2 ∧ WndInv (tcpRcvFin cfg s p).2 := by
  have hf := tcpRcvFin_frame cfg s p
  have hr : (LibTpa.tcpRcvFin cfg s p).2.tsock.rcv = s.tsock.rcv := by rw [hf.tsock]
  have hst := tcpRcvFin_state cfg s p
  have hsl : ((LibTpa.tcpRcvFin cfg s p).2.tsock.state.connected → s.tsock.state.connected) →
      Slides 0 0 s (LibTpa.tcpRcvFin cfg s p).2 :=
    fun hc => .of_eq hr (by rw [hf.nego]) hc (by rw [hf.tsock])
  cases hfin : p.flags.fin with
  | false =>
    rw [hfin, if_neg (by simp)] at hst
    refine ⟨hsl (by rw [hst]; exact fun hc => hc), ?_⟩
    exact h.same hr (by rw [hst]; exact h.listens) (.inl (by rw [hst]))
  | true =>
    rw [hfin, if_pos rfl] at hst
    refine ⟨hsl (by rw [hst]; exact finState_connected), ?_⟩
    exact h.same hr (by rw [hst]; exact finState_listen h.listens)
      (by rw [hst]; exact finState_phase _)

theorem WndInv.finTaken (cfg : TcpCfg) (h : WndInv s) (hst : takesData s.tsock.state)
    (hp : FinMoves s p) : Moves p s
      (LibTpa.tcpRcvFin cfg (s.setRcv { s.tsock.rcv with rcvNxt := s.tsock.rcv.rcvNxt + 1 })
        p).2 := by
  obtain ⟨s₁, hs₁⟩ : ∃ s₁, s₁ = s.setRcv { s.tsock.rcv with rcvNxt := s.tsock.rcv.rcvNxt + 1 } :=
    ⟨_, rfl⟩
  rw [← hs₁]
  have hf := tcpRcvFin_frame cfg s₁ p
  obtain ⟨-, -, hph⟩ := tcpRcvFin_ends (s := s₁) cfg (by rw [hs₁]; exact hst) hp.fin
  have hr : (LibTpa.tcpRcvFin cfg s₁ p).2.tsock.rcv =
      { s.tsock.rcv with rcvNxt := s.tsock.rcv.rcvNxt + 1 } := by
    rw [hf.tsock, hs₁]
    rfl
  refine ⟨1, 1, .silent (by rw [hr]; rfl) (by rw [hr]) (by rw [hr]) ?_ ?_ ?_,
    .inr ⟨rfl, le_rfl, hp⟩, ?_⟩
  · rw [hf.nego, hs₁]
    rfl
  · exact fun _ => .inl (TcpState.takesData_flowing hst)
  · rw [hf.tsock, hs₁]
    rfl
  · have hno : ¬ (LibTpa.tcpRcvFin cfg s₁ p).2.tsock.state.open := by
      rw [TcpState.open, hph]
      rintro (h | h) <;> cases h
    refine ⟨?_, ?_, fun ho => absurd ho hno, fun ho => absurd (.inr ho) hno⟩
    · rw [hr]
      exact ⟨h.conserved.wnd, h.conserved.size, h.conserved.aligned⟩
    · intro hl
      rw [hl] at hph
      cases hph

theorem WndInv.rcvText (cfg : TcpCfg) (h : WndInv s) (hv : validateSeq s.tsock.rcv p = none)
    (hal : p.Aligned) : Moves p s (rcvText cfg s p).2.1 := by
  unfold LibTpa.rcvText
  by_cases hst : takesData s.tsock.state
  · rw [if_pos hst]
    by_cases hlen : p.len = 0
    · by_cases hfin : p.flags.fin = true ∧ p.seq = s.tsock.rcv.rcvNxt
      · have he : LibTpa.tcpRcvData cfg s p =
            (none, s.setRcv { s.tsock.rcv with rcvNxt := s.tsock.rcv.rcvNxt + 1 }, p) := by
          unfold LibTpa.tcpRcvData
          rw [if_pos hlen, if_pos hfin]
        rw [he]
        exact h.finTaken cfg hst ⟨hfin.1, hlen, hfin.2⟩
      · have he : LibTpa.tcpRcvData cfg s p = (none, s, p) := by
          unfold LibTpa.tcpRcvData
          rw [if_pos hlen, if_neg hfin]
        rw [he]
        obtain ⟨h1, h2⟩ := h.tcpRcvFin cfg p
        exact ⟨0, 0, h1, .inl rfl, h2⟩
    · obtain ⟨n, h1, h2, -⟩ :=
        h.tcpRcvData cfg (TcpState.takesData_flowing hst) hv hal hlen
      split
      · next heq =>
        rw [heq] at h1 h2
        exact ⟨n, 0, h1, .inl rfl, h2⟩
      · next q heq =>
        rw [heq] at h1 h2
        obtain ⟨h3, h4⟩ := h2.tcpRcvFin cfg q
        exact ⟨n, 0, h1.trans h3 le_rfl, .inl rfl, h4⟩
  · rw [if_neg hst]
    split
    · exact h.moves_still (.refl s)
    · obtain ⟨h1, h2⟩ := h.tcpRcvFin cfg p
      exact ⟨0, 0, h1, .inl rfl, h2⟩

theorem WndInv.rcvSynchronised (cfg : TcpCfg) (h : WndInv s) (hal : p.Aligned) :
    Moves p s (rcvSynchronised cfg s p).2.1 := by
  obtain ⟨s₂, hck, hcase⟩ := rcvSynchronised_cases cfg s p
  have hs₂ := hck.still
  generalize LibTpa.rcvSynchronised cfg s p = r at hcase
  cases hcase with
  | refused => exact h.moves_still (hs₂.trans (.sendAck cfg s₂ _))
  | rst => exact h.moves_still (hs₂.trans (.tcpRcvRst cfg s₂))
  | syn => exact h.moves_still (hs₂.trans (.sendAck cfg s₂ _))
  | badAck _ _ _ e s₃ ha =>
    have hst := hs₂.trans (.tcpRcvAck cfg s₂ (parseTcpOpts p).2.2 (parseTcpOpts p).2.1)
    rw [ha] at hst
    exact h.moves_still hst
  | closed _ _ _ s₃ ha =>
    have hst := hs₂.trans (.tcpRcvAck cfg s₂ (parseTcpOpts p).2.2 (parseTcpOpts p).2.1)
    rw [ha] at hst
    exact h.moves_still hst
  | text hpass _ _ s₃ ha =>
    have hst := hs₂.trans (.tcpRcvAck cfg s₂ (parseTcpOpts p).2.2 (parseTcpOpts p).2.1)
    rw [ha] at hst
    obtain ⟨h1, h2⟩ := h.still hst
    have hr : s₃.tsock.rcv = s.tsock.rcv := h.kept hst.keeps.rcv
    refine Moves.behind (h1.rcvText cfg ?_ ?_) h2 ?_
    · rw [hr, validateSeq_parsed]
      exact hpass.seq
    · rw [(parseTcpOpts_spec p).1.eq]
      exact hal
    · rintro ⟨hf, hl, hs⟩
      rw [p.parsed_flags] at hf
      rw [p.parsed_len] at hl
      rw [p.parsed_seq, hr] at hs
      exact ⟨hf, hl, hs⟩

/-- What a packet has made of the window: it has moved, or a SYN-ACK has put it
behind the sequence number of the peer's SYN. -/
inductive WndOutcome (s : St) (p : Packet) (s' : St) : Prop
  | moves (h : Moves p s s')
  | opened (s₁ : St) (hs : s.tsock.state = .synSent)
      (hn : s₁.tsock.rcv.rcvNxt = s₁.tsock.rcv.rcvIsn + 1)
      (hw : s₁.tsock.rcv.rcvWnd = s.tsock.rcv.rcvWnd)
      (he : s₁.tsock.emitted = s.tsock.emitted) (h : Slides 0 0 s₁ s') (hi : WndInv s')

theorem WndOutcome.after (h : WndOutcome s p s')
    (hs : WndInv s' → WndInv s'' ∧ Slides 0 0 s' s'') : WndOutcome s p s'' := by
  cases h with
  | moves h =>
    obtain ⟨n, f, h1, h2, h3⟩ := h
    exact .moves ⟨n, f, h1.trans (hs h3).2 le_rfl, h2, (hs h3).1⟩
  | opened s₁ hst hn hw he h hi =>
    exact .opened s₁ hst hn hw he (h.trans (hs hi).2 le_rfl) (hs hi).1

theorem WndInv.synSentToEstablished (cfg : TcpCfg) (h : WndInv s) (hst : s.tsock.state = .synSent) :
    WndOutcome s p (synSentToEstablished cfg s p).1 := by
  have hph : s.tsock.state.phase = .opening := by rw [hst]; rfl
  obtain ⟨share, hi⟩ := h.queues (.inr hph)
  have hooo := h.fresh hph
  unfold LibTpa.synSentToEstablished
  dsimp only
  generalize hr : processTcpOptNegotiation cfg
    (s.setRcv { s.tsock.rcv with rcvIsn := p.seq, rcvNxt := p.seq + 1 }) p = r
  obtain ⟨b, hrcv⟩ : ∃ b, r.1.tsock.rcv = { s.tsock.rcv with
      rcvIsn := p.seq, rcvNxt := p.seq + 1, sackOk := b } := ⟨_, by rw [← hr]; rfl⟩
  have hem : r.1.tsock.emitted = s.tsock.emitted := by
    rw [← hr]
    rfl
  have hr₀ : RcvInv .any share 0 r.1.rxSt := by
    have hrx : r.1.worker.rx = s.worker.rx := by rw [← hr]; rfl
    rw [St.rxSt, hrcv, hrx]
    exact hi.renumber hooo p.seq (p.seq + 1) b
  have hk := (KeepsRcv.tsockEstablished cfg r.1 r.2).trans (.tsockSetAckFlag cfg _ true)
  have hest : (tsockSetAckFlag cfg (tsockEstablished cfg r.1 r.2) true).tsock.state =
    .established :=
    tsockEstablished_state cfg r.1 r.2
  obtain ⟨h1, h2⟩ := hr₀.keeps hk
  have hs : Announces { r.1 with tsock := { r.1.tsock with state := .established } } r.1 := by
    refine .of_eq rfl rfl rfl fun hl => ?_
    rw [← hr] at hl
    exact absurd (hst.symm.trans hl) (by decide)
  have ha := (hs.trans (.tsockEstablished cfg r.1 r.2)).trans
    (RcvStill.tsockSetAckFlag cfg _ true).announces
  have hw : r.1.tsock.rcv.rcvWnd = s.tsock.rcv.rcvWnd := by rw [hrcv]
  refine .opened { r.1 with tsock := { r.1.tsock with state := .established } } hst ?_ hw hem
    (ha.slides h1 (fun _ => .inl rfl) ?_ ?_) ⟨?_, ?_, fun _ => ⟨share, h2⟩, ?_⟩
  · rw [hrcv]
  · change TcpState.established ≠ .listen
    decide
  · change r.1.tsock.rcv.rcvWnd < 2 ^ 26
    rw [hw]
    exact h.conserved.wnd_lt
  · exact h2.conserved
  · rw [hest]
    decide
  · rintro ⟨⟩

theorem WndInv.tcpRcvPktAtSynSent (cfg : TcpCfg) (h : WndInv s) (hst : s.tsock.state = .synSent) :
    WndOutcome s p (tcpRcvPktAtSynSent cfg s p).2.1 := by
  unfold LibTpa.tcpRcvPktAtSynSent
  dsimp only
  split
  · refine .moves (h.moves_still (SndFrame.still ?_))
    exact ((SndFrame.setTcp s _).trans (Quiet.xmitFlagPacketWithSeq cfg _ _).frame).trans
      (.outputTsockEnqueue _)
  split
  · split
    · exact .moves (h.moves_still (.tcpRcvRst cfg s))
    · exact .moves (h.moves_still (.refl s))
  split
  · exact .moves (h.moves_still (.refl s))
  split
  · exact .moves (h.moves_still (.refl s))
  split
  · exact h.synSentToEstablished cfg hst
  · exact .moves (h.moves_still (.refl s))

theorem WndInv.tcpRcvSlowpath (cfg : TcpCfg) (h : WndInv s) (hal : p.Aligned) :
    WndOutcome s p (tcpRcvSlowpath cfg s p).2.1 := by
  unfold LibTpa.tcpRcvSlowpath
  split
  · exact .moves (h.moves_still (.sendRst cfg s p))
  · next hst => exact h.tcpRcvPktAtSynSent cfg hst
  · next hst => exact absurd hst h.listens
  · exact .moves (h.rcvSynchronised cfg hal)

theorem WndInv.tcpRcvPkt (cfg : TcpCfg) (h : WndInv s) (hal : p.Aligned)
    (hid : s.rxSt.held p.id = 0) : WndOutcome s p (tcpRcvPkt cfg s p).2.1 := by
  have hw := h.conserved.wnd_lt
  have hcase := tcpRcvPkt_cases cfg s p
  generalize LibTpa.tcpRcvPkt cfg s p = r at hcase
  cases hcase with
  | stale => exact .moves (h.moves_still (.refl s))
  | slow => exact h.tcpRcvSlowpath cfg hal
  | fast s₁ s₂ p₂ _ hst hoff hck hd =>
    have hs := (TxFrame.tcpRcvAckFastpath cfg s₂ p₂).frame.still.trans
      (.tsockRearmTimerKeepalive cfg _)
    obtain ⟨hv, hfin⟩ := fastpath_valid hw hoff
    obtain ⟨h1, h2⟩ := h.still hck.still
    have hdata : ∃ n, Slides n 0 s₁ s₂ ∧ WndInv s₂ := by
      by_cases hlen : p.len = 0
      · have he : LibTpa.tcpRcvData cfg s₁ p = (none, s₁, p) := by
          unfold LibTpa.tcpRcvData
          rw [if_pos hlen, if_neg (by simp [hfin])]
        rw [hd] at he
        cases he
        exact ⟨0, .of_eq rfl rfl (fun hc => hc) rfl, h1⟩
      · obtain ⟨n, h3, h4, -⟩ := h1.tcpRcvData cfg (by rw [hck.state, hst]; rfl)
          (by rw [hck.rcv]; exact hv) hal hlen
        rw [hd] at h3 h4
        exact ⟨n, h3, h4⟩
    obtain ⟨n, h3, h4⟩ := hdata
    obtain ⟨h5, h6⟩ := h4.still hs
    have h7 := (h2.trans h3 (Nat.zero_le _)).trans h6 le_rfl
    exact .moves ⟨_, 0, h7, .inl rfl, h5⟩
  | fallback s₁ s₂ p₂ e _ hst hoff hck hd =>
    obtain ⟨hv, hfin⟩ := fastpath_valid hw hoff
    have hheld : s₁.rxSt.held p.id = 0 := by
      rw [St.rxSt, hck.rcv]
      exact hid
    have hfl := (tcpRcvData_hdr cfg s₁ p hheld).flags
    have hfr := RcvFrame.tcpRcvData cfg s₁ p
    obtain ⟨h1, h2⟩ := h.still hck.still
    have hlen : p.len ≠ 0 := by
      intro hlen
      unfold LibTpa.tcpRcvData at hd
      rw [if_pos hlen] at hd
      cases hd
    obtain ⟨n, h3, h4, h5⟩ := h1.tcpRcvData cfg (by rw [hck.state, hst]; rfl)
      (by rw [hck.rcv]; exact hv) hal hlen
    rw [hd] at h3 h4 h5 hfl hfr
    have hslow : LibTpa.tcpRcvSlowpath cfg s₂ p₂ = LibTpa.rcvSynchronised cfg s₂ p₂ := by
      unfold LibTpa.tcpRcvSlowpath
      rw [hfr.state, hck.state, hst]
    rw [hslow]
    obtain ⟨m, f, h6, h7, h8⟩ := h4.rcvSynchronised cfg h5
    have hf : f = 0 := by
      refine h7.resolve_right fun hf => ?_
      have := hf.2.2.fin
      rw [hfl, hfin] at this
      cases this
    subst hf
    exact .moves ⟨_, 0, (h2.trans h3 (Nat.zero_le _)).trans h6 (Nat.zero_le _), .inl rfl, h8⟩

theorem WndInv.done (h : WndInv s) (hd : PacketDone s s') : WndInv s' ∧ Slides 0 0 s s' := by
  have hr := h.kept hd.rcv
  exact ⟨h.same hr (by rw [hd.state]; exact h.listens) (.inl (by rw [hd.state])),
    hd.announces.slides hr (by rw [hd.state]; exact fun hc => hc) h.listens h.conserved.wnd_lt⟩

theorem WndInv.tcpRcvProcess (cfg : TcpCfg) (h : WndInv s)
    (hal : Packet.Aligned { p with toRead := p.segs }) (hid : s.rxSt.held p.id = 0) :
    WndOutcome s p (tcpRcvProcess cfg s p) := by
  have ho := (h.tcpRcvPkt cfg hal hid).after fun hi => hi.done (tcpRcvProcess_done cfg s p)
  cases ho with
  | moves h =>
    obtain ⟨n, f, h1, h2, h3⟩ := h
    refine .moves ⟨n, f, h1, h2.imp (fun hf => hf) fun hf => ⟨hf.1, hf.2.1, ?_⟩, h3⟩
    exact ⟨hf.2.2.fin, hf.2.2.empty, hf.2.2.seq⟩
  | opened s₁ hs hn hw he h hi => exact .opened s₁ hs hn hw he h hi

theorem WndInv.setHead (h : WndInv s) (x : Option Packet) :
    WndInv (s.setHead x) ∧ Slides 0 0 s (s.setHead x) :=
  ⟨h.same rfl h.listens (.inl rfl), .of_eq rfl rfl (fun hc => hc) rfl⟩

end LibTpa
