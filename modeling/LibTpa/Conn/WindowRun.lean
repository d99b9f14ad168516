/- LibTpa/Conn/WindowRun
   digest: The receive window is conserved, and no announced window is taken back. -/

import LibTpa.Conn.Window
import LibTpa.Conn.FinRun

set_option autoImplicit false

namespace LibTpa

open Lib.SerialNumber Lib.Stream Lib.Run

variable {s s' : St} {p : Packet} {e : ConnEv} {cfg : TcpCfg}

inductive EvOutcome (cfg : TcpCfg) (s : St) (e : ConnEv) (s' : St) : Prop
  | freed (h : s'.tsock.freed = true)
  | slides (n f : Nat) (h : Slides n f s s')
      (hf : f = (readBy s e).length ∨ f = 1 ∧ 1 ≤ n ∧ ∃ p ∈ processed cfg s e, FinMoves s p)
      (hi : WndInv s') (hh : ∀ q ∈ s'.tsock.rxMergeHead, q.Whole)
  | opened (s₁ : St) (hs : s.tsock.state = .synSent) (hr : readBy s e = [])
      (hn : s₁.tsock.rcv.rcvNxt = s₁.tsock.rcv.rcvIsn + 1)
      (hw : s₁.tsock.rcv.rcvWnd = s.tsock.rcv.rcvWnd)
      (he : s₁.tsock.emitted = s.tsock.emitted) (h : Slides 0 0 s₁ s') (hi : WndInv s')
      (hh : ∀ q ∈ s'.tsock.rxMergeHead, q.Whole)

theorem WndOutcome.event (h : WndOutcome s p s') (hr : readBy s e = [])
    (hp : processed cfg s e = some p) (hh : ∀ q ∈ s'.tsock.rxMergeHead, q.Whole) :
    EvOutcome cfg s e s' := by
  cases h with
  | moves h =>
    obtain ⟨n, f, h1, h2, h3⟩ := h
    refine .slides n f h1 ?_ h3 hh
    exact h2.imp (fun hf => by simp [hf, hr]) fun hf => ⟨hf.1, hf.2.1, p, hp, hf.2.2⟩
  | opened s₁ hs hn hw he h hi => exact .opened s₁ hs hr hn hw he h hi hh

theorem WndInv.event_quiet (h : WndInv s' ∧ Slides 0 0 s s') (hr : readBy s e = [])
    (hh : ∀ q ∈ s'.tsock.rxMergeHead, q.Whole) : EvOutcome cfg s e s' :=
  .slides 0 0 h.2 (.inl (by rw [hr]; rfl)) h.1 hh

theorem WndInv.event_still (h : WndInv s) (hs : StillOrFreed s s') (hr : readBy s e = [])
    (hh : ∀ q ∈ s.tsock.rxMergeHead, q.Whole) : EvOutcome cfg s e s' := by
  rcases hs with hf | hs
  · exact .freed hf.freed
  · refine WndInv.event_quiet (h.still hs) hr ?_
    rw [hs.head]
    exact hh

theorem WndInv.packet (h : WndInv s) (hh : ∀ q ∈ s.tsock.rxMergeHead, q.Whole)
    (hf : Fed cfg s (.packet p)) : EvOutcome cfg s (.packet p) (sockStep cfg s (.packet p)) := by
  have hsingle : (parseTsOptFast p).Single := (hf.single p rfl).parsed
  rw [sockStep_packet cfg p h.listens]
  have hcase := tcpMerge_cases cfg s (parseTsOptFast p)
  generalize tcpMerge cfg s (parseTsOptFast p) = s' at hcase
  cases hcase with
  | alone =>
    refine WndInv.event_quiet (h.setHead _) rfl ?_
    rintro q ⟨⟩
    exact hsingle.whole
  | chained head hhead hm =>
    obtain ⟨h1, h2⟩ := h.still (.tsockSetAckFlag cfg s true)
    obtain ⟨h3, h4⟩ := h1.setHead (some (packetChain head (parseTsOptFast p)))
    refine WndInv.event_quiet ⟨h3, h2.trans h4 le_rfl⟩ rfl ?_
    rintro q ⟨⟩
    exact (hh head hhead).chain hsingle hm.2
  | behind head hhead hm =>
    have hp := processed_behind h.listens hhead hm
    have ho := (h.tcpRcvProcess cfg (hh head hhead).aligned (hf.apart head hp)).after fun hi =>
      hi.setHead (some (parseTsOptFast p))
    refine ho.event rfl hp ?_
    rintro q ⟨⟩
    exact hsingle.whole

theorem WndInv.burstEnd (h : WndInv s) (hh : ∀ q ∈ s.tsock.rxMergeHead, q.Whole)
    (hf : Fed cfg s .burstEnd) : EvOutcome cfg s .burstEnd (sockStep cfg s .burstEnd) := by
  have hcase := burstEnd_cases cfg s
  generalize sockStep cfg s .burstEnd = s' at hcase
  cases hcase with
  | freed _ hfr => exact .freed hfr
  | idle =>
    refine h.event_still (RcvStill.inputAck cfg s).or rfl hh
  | last head hhead =>
    have hst := RcvStill.inputAck cfg (LibTpa.tcpRcvProcess cfg s head)
    have ho := (h.tcpRcvProcess cfg (hh head hhead).aligned (hf.apart head hhead)).after fun hi =>
      hi.still hst
    refine ho.event rfl hhead ?_
    rw [hst.head, tcpRcvProcess_head]
    rintro q ⟨⟩

theorem tsockZreadv_wnd (s : St) (n : Nat) (h : Conserved s.tsock.rcv) :
    Conserved (tsockZreadv s n).2.tsock.rcv ∧
      (tsockZreadv s n).2.tsock.rcv.rcvWnd = s.tsock.rcv.rcvWnd + (readBy s (.read n)).length ∧
      (tsockZreadv s n).2.tsock.nego = s.tsock.nego ∧
      (tsockZreadv s n).2.tsock.emitted = s.tsock.emitted := by
  obtain ⟨-, hal, hlen⟩ := readLoop_bytes s.tsock.rcv.rxq n h.aligned
  rw [readBy]
  generalize hr : tsockZreadv s n = r
  unfold tsockZreadv at hr
  split at hr
  · subst hr
    exact ⟨h, rfl, rfl, rfl⟩
  dsimp only at hr
  split at hr
  · subst hr
    refine ⟨h, ?_, rfl, rfl⟩
    dsimp only
    split
    · next bufs heq =>
      split at heq <;> cases heq
      rfl
    · rfl
  · have hw := h.wnd
    have hc : Conserved { s.tsock.rcv with
        rxq := (readLoop s.tsock.rcv.rxq n).2.1
        rcvWnd := s.tsock.rcv.rcvWnd + (readLoop s.tsock.rcv.rxq n).1.flatten.length } := by
      refine ⟨?_, h.size, hal⟩
      dsimp only
      omega
    split at hr
    · subst hr
      exact ⟨hc, rfl, rfl, rfl⟩
    · subst hr
      exact ⟨hc, rfl, rfl, rfl⟩

theorem WndInv.reads (h : WndInv s) (hh : ∀ q ∈ s.tsock.rxMergeHead, q.Whole) (n : Nat) :
    EvOutcome cfg s (.read n) (sockStep cfg s (.read n)) := by
  obtain ⟨hrcv, hst, -, hhead⟩ := tsockZreadv_frame s n
  obtain ⟨hc, hw, hn, he⟩ := tsockZreadv_wnd s n h.conserved
  rw [sockStep]
  refine .slides 0 _ (.silent ?_ hw ?_ (by rw [hn]) (by rw [hst]; exact fun hc => hc) he) (.inl rfl)
    ⟨hc, by rw [hst]; exact h.listens, ?_, ?_⟩ (by rw [hhead]; exact hh)
  · rw [hrcv]
    simp
  · rw [hrcv]
  · intro ho
    rw [hst] at ho
    obtain ⟨share, hi⟩ := h.queues ho
    exact ⟨share, (tsockZreadv_spec s n hi).1⟩
  · rw [hst, tsockZreadv_ooo]
    exact h.fresh

theorem WndInv.dropOoo (h : WndInv s) (hh : ∀ q ∈ s.tsock.rxMergeHead, q.Whole) :
    EvOutcome cfg s .dropOoo (sockStep cfg s .dropOoo) := by
  have hedge := tsockDropOooMbufs_edge s.rxSt
  refine WndInv.event_quiet ⟨⟨?_, h.listens, ?_, ?_⟩, ?_⟩ rfl hh
  · have hc := h.conserved
    refine ⟨?_, ?_, ?_⟩
    · change (tsockDropOooMbufs s.rxSt).rcv.rcvWnd + rxqLen (tsockDropOooMbufs s.rxSt).rcv.rxq = _
      rw [hedge.wnd, hedge.rxq, hc.wnd]
      exact congrArg tsockRcvWndDefault hedge.size.symm
    · change (tsockDropOooMbufs s.rxSt).rcv.rxqSize ≤ _
      rw [hedge.size]
      exact hc.size
    · change ∀ q ∈ (tsockDropOooMbufs s.rxSt).rcv.rxq, _
      rw [hedge.rxq]
      exact hc.aligned
  · intro ho
    obtain ⟨share, hi⟩ := h.queues ho
    exact ⟨share, tsockDropOooMbufs_inv hi⟩
  · intro ho
    have hl := tsockDropOooMbufs_length s.rxSt
    rw [h.fresh ho] at hl
    exact List.eq_nil_of_length_eq_zero (Nat.le_zero.mp hl)
  · exact .silent (by rw [BitVec.add_zero]; exact hedge.nxt) hedge.wnd hedge.isn rfl (fun hc => hc)
      rfl

theorem sockStep_window (cfg : TcpCfg) (e : ConnEv) (h : WndInv s)
    (hh : ∀ q ∈ s.tsock.rxMergeHead, q.Whole) (hf : Fed cfg s e) :
    EvOutcome cfg s e (sockStep cfg s e) := by
  cases e with
  | packet p => exact h.packet hh hf
  | burstEnd => exact h.burstEnd hh hf
  | write iov => exact h.event_still (WriteFrame.tsockZwritev cfg s iov).frame.still.or rfl hh
  | read n => exact h.reads hh n
  | dropOoo => exact h.dropOoo hh
  | close => exact h.event_still (RcvStill.tpaClose s).or rfl hh
  | output => exact h.event_still (.outputTurn cfg s) rfl hh
  | delayedAck => exact h.event_still (RcvStill.delayedAckTurn cfg s).or rfl hh
  | timer k => exact h.event_still (.tcpTimeout cfg s k) rfl hh
  | neighReady => exact h.event_still (RcvStill.flushTcpPacket s).or rfl hh
  | env w =>
    refine WndInv.event_quiet ⟨h.same rfl h.listens (.inl rfl), ?_⟩ rfl hh
    exact .of_eq rfl rfl (fun hc => hc) rfl

/-! What the peer was told. -/

/-- An announced window: its place among the sequence numbers behind the peer's
SYN, and its size. -/
structure Window where
  pos : Nat
  size : Nat
  deriving DecidableEq

/-- The windows that the ACKs among `sent` announce, for a socket that has
received `taken` sequence numbers behind the SYN. -/
def windowsOf (s : St) (taken : Nat) (sent : List TxPacket) : List Window :=
  if s.tsock.state.connected then
    (sent.filter fun q => q.flags.ack).map fun q =>
      { pos := taken - (s.tsock.rcv.rcvNxt - q.ack).toNat
        size := q.wnd.toNat <<< (if q.flags.syn then 0 else s.tsock.nego.rcvWscale) }
  else []

/-- A connection with the number of sequence numbers `rcv_nxt` has passed and the
windows it has announced, both since it knows its peer. -/
structure Receiver where
  conn : Conn
  taken : Nat
  windows : List Window

def Receiver.st (c : Receiver) : St := c.conn.st

def Receiver.start (s : St) : Receiver := ⟨Conn.start s, 0, windowsOf s 0 s.tsock.emitted⟩

def takenBy (s s' : St) : Nat := (s'.tsock.rcv.rcvNxt - s.tsock.rcv.rcvNxt).toNat

def receiverStep (cfg : TcpCfg) (c : Receiver) (e : ConnEv) : Receiver :=
  let d := connStep cfg c.conn e
  let taken := if c.st.tsock.state.connected then c.taken + takenBy c.st d.st else 0
  { conn := d
    taken := taken
    windows := (if c.st.tsock.state.connected then c.windows else []) ++
      windowsOf d.st taken (d.st.tsock.emitted.drop c.st.tsock.emitted.length) }

def rightEdge (s : St) : U32 := s.tsock.rcv.rcvNxt + BitVec.ofNat 32 s.tsock.rcv.rcvWnd

/-- The window and the unread bytes make up `TSOCK_RCV_WND_DEFAULT`, and a segment
with a byte that has not arrived passes `validate_seq` when it lies inside a
window that was announced at any time. -/
structure WindowLaw (c : Receiver) : Prop where
  conserved : c.st.tsock.rcv.rcvWnd + (rxqBytes c.st.tsock.rcv.rxq).length =
    tsockRcvWndDefault c.st.tsock.rcv.rxqSize
  accepts : c.st.tsock.state.connected → ∀ w ∈ c.windows, ∀ (p : Packet) (n : Nat),
    p.seq = c.st.tsock.rcv.rcvIsn + 1 + BitVec.ofNat 32 n → p.len ≠ 0 →
    w.pos ≤ n → n + p.len ≤ w.pos + w.size → c.taken < n + p.len →
    validateSeq c.st.tsock.rcv p = none

/-- The right edge never moves back: a read moves it by what it returns, a FIN by
one, and nothing else does. -/
def EdgeLaw (cfg : TcpCfg) (s : St) (e : ConnEv) (s' : St) : Prop :=
  s.tsock.state.connected → s'.tsock.freed = false → seqLe (rightEdge s) (rightEdge s') ∧
    (rightEdge s' = rightEdge s + BitVec.ofNat 32 (readBy s e).length ∨
      rightEdge s' = rightEdge s + 1 ∧ ∃ p ∈ processed cfg s e, p.flags.fin = true)

structure ReceiverInv (c : Receiver) : Prop where
  inv : WndInv c.st
  whole : ∀ q ∈ c.st.tsock.rxMergeHead, q.Whole
  nxt : c.st.tsock.state.connected →
    c.st.tsock.rcv.rcvNxt = c.st.tsock.rcv.rcvIsn + 1 + BitVec.ofNat 32 c.taken
  windows : ∀ w ∈ c.windows, w.pos ≤ c.taken ∧ w.pos + w.size ≤ c.taken + c.st.tsock.rcv.rcvWnd

variable {c : Receiver}

theorem rxqBytes_length (q : List Packet) (h : ∀ p ∈ q, p.Aligned) :
    (rxqBytes q).length = rxqLen q := by
  induction q with
  | nil => rfl
  | cons p q ih =>
    rw [rxqBytes_cons, List.length_append, rxqLen_cons, (h p (by simp)).bytes_length,
      ih fun x hx => h x (by simp [hx])]

theorem Slides.windowsOf_le {n f t : Nat} (h : Slides n f s s') (hw : s.tsock.rcv.rcvWnd < 2 ^ 26)
    (hf : f ≤ 2 ^ 26) :
    ∀ w ∈ windowsOf s' (t + n) (s'.tsock.emitted.drop s.tsock.emitted.length),
      w.pos ≤ t + n ∧ w.pos + w.size ≤ t + n + s'.tsock.rcv.rcvWnd := by
  intro w hmem
  obtain ⟨new, hnew, hall⟩ := h.sent
  unfold windowsOf at hmem
  split at hmem
  · rw [hnew, List.drop_left, List.mem_map] at hmem
    obtain ⟨q, hq, rfl⟩ := hmem
    rw [List.mem_filter] at hq
    obtain ⟨d, g, hs⟩ := hall q hq.1
    obtain ⟨hack, hwnd⟩ := hs.told hq.2
    have hd := hs.passed
    have hwnd' := h.wnd
    have hback : (s'.tsock.rcv.rcvNxt - q.ack).toNat = n - d := by
      rw [h.nxt, hack]
      bv_omega
    dsimp only
    rw [hback, h.scale]
    omega
  · cases hmem

theorem ReceiverInv.law (h : ReceiverInv c) : WindowLaw c := by
  have hc := h.inv.conserved
  have hw := hc.wnd_lt
  refine ⟨by rw [rxqBytes_length _ hc.aligned]; exact hc.wnd, ?_⟩
  intro hcon w hmem p n hseq hlen _ hle hnew
  obtain ⟨-, h2⟩ := h.windows w hmem
  have hn := h.nxt hcon
  have hl := p.len_lt
  unfold validateSeq
  rw [if_neg (fun hz => hlen hz.1), if_neg]
  rw [Packet.endSeq, seqLe_iff, seqGe_iff, hn, hseq]
  bv_omega

theorem readBy_length_le (e : ConnEv) (h : Conserved s.tsock.rcv) :
    (readBy s e).length ≤ 2 ^ 26 := by
  cases e with
  | read n =>
    obtain ⟨hc, hw, -⟩ := tsockZreadv_wnd s n h
    have := hc.wnd_lt
    omega
  | _ => exact Nat.zero_le _

theorem EvOutcome.edge (h : EvOutcome cfg s e s') (hi : WndInv s) : EdgeLaw cfg s e s' := by
  intro hcon hfr
  have hread := readBy_length_le e hi.conserved
  have hback : ∀ k : Nat, k ≤ 2 ^ 26 → seqLe (rightEdge s) (rightEdge s + BitVec.ofNat 32 k) := by
    intro k hk
    rw [seqLe_iff]
    bv_omega
  cases h with
  | freed h =>
    rw [hfr] at h
    cases h
  | slides n f h hf =>
    have hedge : rightEdge s' = rightEdge s + BitVec.ofNat 32 f := by
      have hw := h.wnd
      unfold rightEdge
      rw [h.nxt, add_assoc, add_assoc, ← BitVec.ofNat_add, ← BitVec.ofNat_add, Nat.add_comm n, hw]
    rw [hedge]
    rcases hf with rfl | ⟨rfl, -, p, hp, hfin⟩
    · exact ⟨hback _ hread, .inl rfl⟩
    · exact ⟨hback 1 (by decide), .inr ⟨rfl, p, hp, hfin.fin⟩⟩
  | opened s₁ hs =>
    rw [hs] at hcon
    rcases hcon with hcon | hcon <;> cases hcon

theorem windowsOf_unconnected (h : ¬ s.tsock.state.connected) (t : Nat) (l : List TxPacket) :
    windowsOf s t l = [] := if_neg h

theorem ReceiverInv.slides {n f : Nat} {taken : Nat} {windows : List Window} {d : Conn}
    (hinv : ReceiverInv c) (h : Slides n f c.st d.st) (hf : f ≤ 2 ^ 26) (hi : WndInv d.st)
    (hh : ∀ q ∈ d.st.tsock.rxMergeHead, q.Whole)
    (ht : taken = if c.st.tsock.state.connected then c.taken + takenBy c.st d.st else 0)
    (hw : windows = (if c.st.tsock.state.connected then c.windows else []) ++
      windowsOf d.st taken (d.st.tsock.emitted.drop c.st.tsock.emitted.length)) :
    ReceiverInv ⟨d, taken, windows⟩ := by
  have hwnd := h.wnd
  have hlt := hinv.inv.conserved.wnd_lt
  by_cases hc : c.st.tsock.state.connected
  · have htk : taken = c.taken + n := by
      rw [ht, if_pos hc, takenBy, h.nxt]
      bv_omega
    rw [if_pos hc, htk] at hw
    refine ⟨hi, hh, fun _ => ?_, fun w hmem => ?_⟩
    · change d.st.tsock.rcv.rcvNxt = d.st.tsock.rcv.rcvIsn + 1 + BitVec.ofNat 32 taken
      rw [h.nxt, h.isn, hinv.nxt hc, htk, BitVec.ofNat_add, add_assoc]
    · change w.pos ≤ taken ∧ w.pos + w.size ≤ taken + d.st.tsock.rcv.rcvWnd
      rw [hw] at hmem
      rcases List.mem_append.mp hmem with hold | hnew
      · obtain ⟨h1, h2⟩ := hinv.windows w hold
        omega
      · rw [htk]
        exact h.windowsOf_le hlt hf w hnew
  · have hc' : ¬ d.st.tsock.state.connected := fun hc' => hc (h.conn hc')
    rw [if_neg hc, windowsOf_unconnected hc'] at hw
    refine ⟨hi, hh, fun hc'' => absurd hc'' hc', ?_⟩
    subst hw
    rintro w ⟨⟩

theorem receiverStep_inv (cfg : TcpCfg) (c : Receiver) (e : ConnEv) (hf : Fed cfg c.st e)
    (h : c.st.tsock.freed = true ∨ ReceiverInv c) :
    (receiverStep cfg c e).st.tsock.freed = true ∨ ReceiverInv (receiverStep cfg c e) := by
  cases hfr : c.st.tsock.freed with
  | true =>
    have hd : connStep cfg c.conn e = c.conn := if_pos hfr
    refine .inl ?_
    change (connStep cfg c.conn e).st.tsock.freed = true
    rw [hd]
    exact hfr
  | false =>
    have hinv : ReceiverInv c := h.resolve_left (by simp [hfr])
    have hd : (connStep cfg c.conn e).st = sockStep cfg c.st e := by
      rw [connStep, if_neg (by change ¬ c.st.tsock.freed = true; simp [hfr])]
      rfl
    have hout := sockStep_window cfg e hinv.inv hinv.whole hf
    rw [← hd] at hout
    unfold receiverStep
    dsimp only
    generalize connStep cfg c.conn e = d at hout ⊢
    cases hout with
    | freed h => exact .inl h
    | slides n f h hff hi hh =>
      refine .inr (hinv.slides h ?_ hi hh rfl rfl)
      rcases hff with rfl | hff
      · exact readBy_length_le e hinv.inv.conserved
      · omega
    | opened s₁ hs _ hn hw he h hi hh =>
      have hc : ¬ c.st.tsock.state.connected := by
        rw [hs]
        decide
      refine .inr ⟨hi, hh, fun _ => ?_, fun w hmem => ?_⟩
      · change d.st.tsock.rcv.rcvNxt = d.st.tsock.rcv.rcvIsn + 1 + BitVec.ofNat 32 _
        rw [if_neg hc, h.nxt, h.isn, hn]
      · rw [if_neg hc, if_neg hc, List.nil_append, ← he] at hmem
        rw [if_neg hc]
        have hlt := h.wnd
        have hlt' := hi.conserved.wnd_lt
        exact h.windowsOf_le (by omega) (Nat.zero_le _) w hmem

theorem Opened.wndInv (h : Opened cfg s) : WndInv s := by
  have hf : Flow .any 0 s := h.flow
  obtain ⟨share, hr⟩ := hf.inv
  refine ⟨hr.conserved, ?_, fun _ => ⟨share, hr⟩, fun ho => (hf.fresh ho).2⟩
  intro hl
  exact hf.phase.2 (by rw [hl]; rfl)

theorem Opened.slides (h : Opened cfg s) :
    ∃ s₁, s₁.tsock.emitted = [] ∧ s₁.tsock.rcv.rcvWnd < 2 ^ 26 ∧ Slides 0 0 s₁ s := by
  have hi := h.wndInv
  cases h with
  | connect w sid isIpv6 =>
    exact ⟨_, rfl, hi.conserved.wnd_lt, .of_eq rfl rfl (fun hc => hc) rfl⟩
  | accept w sid isIpv6 p =>
    obtain ⟨b, isn, mss, wscale, nego, ht⟩ :=
      passiveTsockInit_tsock cfg ⟨w, tsockInit cfg sid isIpv6⟩ p
    generalize (passiveTsockInit cfg ⟨w, tsockInit cfg sid isIpv6⟩ p).1 = s₁ at hi ht ⊢
    have hfr := SndFrame.xmitSyn cfg s₁
    have hwnd : s₁.tsock.rcv.rcvWnd < 2 ^ 26 := by
      rw [ht]
      have := cfg.rcvQueue_ok.le
      change tsockRcvWndDefault cfg.rcvQueueSize < 2 ^ 26
      unfold tsockRcvWndDefault
      omega
    have hr : (xmitSyn cfg s₁).tsock.rcv = s₁.tsock.rcv := by
      rcases hfr.rcv with hr | hr
      · exact hr
      · rw [hr, Rcv.regulate_eq hwnd]
    refine ⟨s₁, by rw [ht]; rfl, hwnd, ?_⟩
    exact hfr.announces.slides hr (by rw [hfr.state]; exact fun hc => hc)
      (by rw [ht]; exact nofun) hwnd

theorem Opened.receiver (h : Opened cfg s) : ReceiverInv (Receiver.start s) := by
  have hf : Flow .any 0 s := h.flow
  have hfin : FinInv .any (Conn.start s) := h.finInv
  refine ⟨h.wndInv, hfin.whole, ?_, ?_⟩
  · rintro (hc | hc)
    · exact hf.nxt hc
    · exact absurd hc hf.phase.1
  · obtain ⟨s₁, hem, hwnd, hsl⟩ := h.slides
    have hle := hsl.windowsOf_le (t := 0) hwnd (Nat.zero_le _)
    rw [hem] at hle
    exact hle

/-- In every state that a connection reaches, the window is conserved and keeps
what was announced, and no event moves its right edge back. -/
theorem window_run (cfg : TcpCfg) (s₀ : St) (c : Receiver) (ho : Opened cfg s₀)
    (hr : Reach (receiverStep cfg) (fun c e => Fed cfg c.st e) (Receiver.start s₀) c)
    (hfr : c.st.tsock.freed = false) :
    WindowLaw c ∧ ∀ e, Fed cfg c.st e → EdgeLaw cfg c.st e (sockStep cfg c.st e) := by
  have h : c.st.tsock.freed = true ∨ ReceiverInv c :=
    hr.invariant (I := fun c => c.st.tsock.freed = true ∨ ReceiverInv c) (.inr ho.receiver)
      fun c e h ok => receiverStep_inv cfg c e ok h
  rcases h with hf | h
  · rw [hfr] at hf
    cases hf
  · exact ⟨h.law, fun e hf => (sockStep_window cfg e h.inv h.whole hf).edge h.inv⟩

def welcomed : St :=
  xmitSyn {} (passiveTsockInit {} ⟨Worker.boot 0 { allocOk := [true], ethOk := [true] },
    tsockInit {} 0 false⟩ (.bare 0 100 0 0 { syn := true })).1

def welcomeByte : List ConnEv :=
  handshake ++ [.packet (.oneByte 2 101 1 0 { ack := true } 7), .burstEnd]

theorem window_run_welcomeByte :
    let c := exec (receiverStep {}) (Receiver.start welcomed) welcomeByte
    c.windows = [⟨0, 65535⟩] ∧ c.taken = 1 ∧ WindowLaw c ∧
      EdgeLaw {} c.st (.read 1) (sockStep {} c.st (.read 1)) := by
  have ho : Opened {} welcomed := .accept _ _ _ _ ⟨by decide, by decide⟩
  have hadm : Admitted (receiverStep {}) (fun c e => Fed {} c.st e) (Receiver.start welcomed)
      welcomeByte := by
    refine ⟨⟨?_, ?_⟩, ⟨?_, ?_⟩, ⟨?_, ?_⟩, ⟨?_, ?_⟩, trivial⟩
    · rintro p ⟨⟩
      exact Packet.parsed_single ..
    · decide +kernel
    · rintro p ⟨⟩
    · decide +kernel
    · rintro p ⟨⟩
      exact Packet.parsed_single ..
    · decide +kernel
    · rintro p ⟨⟩
    · decide +kernel
  have hr := window_run {} welcomed _ ho (Reach.refl.exec hadm) (by decide +kernel)
  refine ⟨by decide +kernel, by decide +kernel, hr.1, hr.2 (.read 1) ⟨?_, ?_⟩⟩
  · rintro p ⟨⟩
  · rintro p ⟨⟩

end LibTpa
