/- LibTpa/Conn/Reopening
   digest: When a read that opens a closed window tells the peer. -/

import LibTpa.Conn.WindowRun

/-!
`prepend_tcp_hdr` shifts the window before it writes it into a header, while
`tsock_zreadv` asks whether the unshifted one was zero. Between the two lie segments
that arrive without an answer and reads of any size.
-/

set_option autoImplicit false

namespace LibTpa

open Lib.Run

variable {s s' : St} {e : ConnEv} {cfg : TcpCfg} {q : TxPacket} {n f : Nat}

/-- `TSOCK_FLAG_ACK_NEEDED` is set and the socket is in `worker->output`. -/
def AckQueued (s : St) : Prop := s.tsock.flags.tcp.ack = true ∧ s.tsock.sid ∈ s.worker.output

instance (s : St) : Decidable (AckQueued s) := inferInstanceAs (Decidable (_ ∧ _))

/-- The last segment that the socket sent announced a window field of zero. -/
def ClosedWindow (s : St) : Prop := s.tsock.emitted.getLast?.map TxPacket.wnd = some 0

instance (s : St) : Decidable (ClosedWindow s) := inferInstanceAs (Decidable (_ = _))

theorem tsockZreadv_ackQueued {bufs : List (List Byte)}
    (hz : tsockZreadv s n = (.ok bufs, s')) (hpos : 0 < bufs.flatten.length) :
    AckQueued s' ↔ s.tsock.rcv.rcvWnd = 0 ∨ AckQueued s := by
  unfold tsockZreadv at hz
  split at hz
  · exact absurd (congrArg Prod.fst hz) (by simp)
  dsimp only at hz
  split at hz
  · split at hz
    · have hb : [] = bufs := Except.ok.inj (congrArg Prod.fst hz)
      simp [← hb] at hpos
    · exact absurd (congrArg Prod.fst hz) (by simp)
  · split at hz
    · next hw =>
      have hs : _ = s' := congrArg Prod.snd hz
      subst hs
      exact ⟨fun _ => .inl hw, fun _ => ⟨rfl, mem_pushIfNotExist.mpr (.inr rfl)⟩⟩
    · next hw =>
      have hs : _ = s' := congrArg Prod.snd hz
      subst hs
      exact ⟨fun h => .inr h, fun h => h.resolve_left hw⟩

theorem wndField_eq_zero (shift wnd : Nat) : wndField shift wnd = 0 ↔ wnd < 2 ^ shift := by
  have hzero : min (wnd >>> shift) 65535 = (0 : U16).toNat ↔ wnd >>> shift = 0 := by
    change min (wnd >>> shift) 65535 = 0 ↔ _
    omega
  unfold wndField
  rw [← BitVec.toNat_inj, BitVec.toNat_ofNat, Nat.mod_eq_of_lt (by omega), hzero,
    Nat.shiftRight_eq_div_pow, Nat.div_eq_zero_iff_lt (Nat.two_pow_pos shift)]

/-! ### The run since the last segment -/

/-- A connection, the bytes read and the sequence numbers received since the last
segment it sent. -/
structure Teller where
  conn : Conn
  read : Nat
  taken : Nat

def Teller.st (c : Teller) : St := c.conn.st

def Teller.start (s : St) : Teller := ⟨Conn.start s, 0, 0⟩

/-- How far `rcv_nxt` is from where the last header found it. -/
def takenSince (s : St) : Nat :=
  match s.tsock.emitted.getLast? with
  | some q => (s.tsock.rcv.rcvNxt - q.rcvNxt).toNat
  | none => 0

def tellerStep (cfg : TcpCfg) (c : Teller) (e : ConnEv) : Teller :=
  let d := connStep cfg c.conn e
  if d.st.tsock.emitted.length = c.st.tsock.emitted.length then
    ⟨d, c.read + (readBy c.st e).length, c.taken + takenBy c.st d.st⟩
  else ⟨d, 0, takenSince d.st⟩

variable {c : Teller} {d : Conn}

/-- The window now, from the one that the last header was made from: reads have opened
it, and what was received has used it, apart from an empty FIN. -/
structure Told (c : Teller) (q : TxPacket) : Prop where
  field : q.wnd = wndField q.shift q.rcvWnd
  wnd : ∃ fins ≤ c.taken, c.st.tsock.rcv.rcvWnd + c.taken = q.rcvWnd + c.read + fins

structure TellerInv (c : Teller) : Prop where
  inv : WndInv c.st
  whole : ∀ q ∈ c.st.tsock.rxMergeHead, q.Whole
  told : ∀ q ∈ c.st.tsock.emitted.getLast?, Told c q

theorem Slides.told_anew (h : Slides n f s d.st) (hw : s.tsock.rcv.rcvWnd < 2 ^ 26)
    (hf : f ≤ 2 ^ 26) (hlen : d.st.tsock.emitted.length ≠ s.tsock.emitted.length) :
    ∀ q ∈ d.st.tsock.emitted.getLast?, Told ⟨d, 0, takenSince d.st⟩ q := by
  intro q hq
  obtain ⟨new, hnew, hall⟩ := h.sent
  have hne : new ≠ [] := by
    rintro rfl
    exact hlen (by rw [hnew, List.append_nil])
  have hlast : new.getLast? = some q := by
    rw [hnew, List.getLast?_append_of_ne_nil _ hne] at hq
    exact hq
  obtain ⟨k, g, hs⟩ := hall q (List.mem_of_getLast? hlast)
  have hk := hs.passed
  have hwnd := h.wnd
  have hqw := hs.wnd
  have hg := hs.grown
  have ha := hs.ahead
  have htaken : takenSince d.st = n - k := by
    unfold takenSince
    rw [show d.st.tsock.emitted.getLast? = some q from hq]
    dsimp only
    rw [h.nxt, hs.nxt]
    bv_omega
  refine ⟨hs.field, f - g, ?_, ?_⟩
  · change f - g ≤ takenSince d.st
    omega
  · change d.st.tsock.rcv.rcvWnd + takenSince d.st = q.rcvWnd + 0 + (f - g)
    omega

theorem Told.silent {fins read taken : Nat} (h : Told c q) (hfins : fins ≤ taken)
    (hw : d.st.tsock.rcv.rcvWnd + taken = c.st.tsock.rcv.rcvWnd + read + fins) :
    Told ⟨d, c.read + read, c.taken + taken⟩ q := by
  obtain ⟨k, hk, hwnd⟩ := h.wnd
  refine ⟨h.field, k + fins, ?_, ?_⟩
  · change k + fins ≤ c.taken + taken
    omega
  · change d.st.tsock.rcv.rcvWnd + (c.taken + taken) = q.rcvWnd + (c.read + read) + (k + fins)
    omega

theorem Slides.takenBy (h : Slides n f s s') (hw : s.tsock.rcv.rcvWnd < 2 ^ 26)
    (hf : f ≤ 2 ^ 26) : takenBy s s' = n := by
  have hwnd := h.wnd
  unfold LibTpa.takenBy
  rw [h.nxt]
  bv_omega

theorem readBy_of_processed {p : Packet} (h : processed cfg s e = some p) : readBy s e = [] := by
  cases e with
  | read n => cases h
  | _ => rfl

theorem TellerInv.next {new : List TxPacket} {read taken : Nat} (h : TellerInv c)
    (hi : WndInv d.st) (hh : ∀ q ∈ d.st.tsock.rxMergeHead, q.Whole)
    (hnew : d.st.tsock.emitted = c.st.tsock.emitted ++ new)
    (hanew : d.st.tsock.emitted.length ≠ c.st.tsock.emitted.length →
      ∀ q ∈ d.st.tsock.emitted.getLast?, Told ⟨d, 0, takenSince d.st⟩ q)
    (hsilent : ∀ q, Told c q → Told ⟨d, c.read + read, c.taken + taken⟩ q) :
    TellerInv (if d.st.tsock.emitted.length = c.st.tsock.emitted.length then
      ⟨d, c.read + read, c.taken + taken⟩ else ⟨d, 0, takenSince d.st⟩) := by
  split
  · next hlen =>
    rw [hnew, List.length_append] at hlen
    have hnil : new = [] := List.eq_nil_of_length_eq_zero (by omega)
    rw [hnil, List.append_nil] at hnew
    refine ⟨hi, hh, fun q hq => hsilent q (h.told q ?_)⟩
    rw [← hnew]
    exact hq
  · next hlen => exact ⟨hi, hh, hanew hlen⟩

theorem tellerStep_inv (cfg : TcpCfg) (c : Teller) (e : ConnEv) (hfed : Fed cfg c.st e)
    (h : c.st.tsock.freed = true ∨ TellerInv c) :
    (tellerStep cfg c e).st.tsock.freed = true ∨ TellerInv (tellerStep cfg c e) := by
  have hst : (tellerStep cfg c e).st = (connStep cfg c.conn e).st := by
    unfold tellerStep
    dsimp only
    split <;> rfl
  cases hfr : c.st.tsock.freed with
  | true =>
    have hd : connStep cfg c.conn e = c.conn := if_pos hfr
    rw [hst, hd]
    exact .inl hfr
  | false =>
    have hinv : TellerInv c := h.resolve_left (by simp [hfr])
    have hlt := hinv.inv.conserved.wnd_lt
    have hd : (connStep cfg c.conn e).st = sockStep cfg c.st e := by
      rw [connStep, if_neg (by change ¬ c.st.tsock.freed = true; simp [hfr])]
      rfl
    have hout := sockStep_window cfg e hinv.inv hinv.whole hfed
    rw [← hd] at hout
    rw [hst]
    unfold tellerStep
    dsimp only
    generalize connStep cfg c.conn e = d at hout ⊢
    cases hout with
    | freed h => exact .inl h
    | slides n f h hf hi hh =>
      have hle : f ≤ 2 ^ 26 := by
        rcases hf with rfl | hf
        · exact readBy_length_le e hinv.inv.conserved
        · omega
      obtain ⟨new, hnew, -⟩ := h.sent
      refine .inr (hinv.next hi hh hnew (h.told_anew hlt hle) fun q hq => ?_)
      rw [h.takenBy hlt hle]
      rcases hf with rfl | ⟨rfl, hn, p, hp, -⟩
      · exact hq.silent (Nat.zero_le _) h.wnd
      · rw [readBy_of_processed hp]
        exact hq.silent hn h.wnd
    | opened s₁ hs hr hn hw he h hi hh =>
      obtain ⟨new, hnew, -⟩ := h.sent
      rw [he] at hnew
      have hwnd := h.wnd
      rw [hw] at hwnd
      refine .inr (hinv.next hi hh hnew (fun hlen => ?_) fun q hq => ?_)
      · exact h.told_anew (by rw [hw]; exact hlt) (Nat.zero_le _) (by rw [he]; exact hlen)
      · -- `rcv_nxt` is put behind the SYN of the peer, and the window is as it was
        rw [hr]
        refine hq.silent le_rfl ?_
        rw [List.length_nil]
        omega

theorem Opened.teller (h : Opened cfg s) : TellerInv (.start s) := by
  have hfin : FinInv .any (Conn.start s) := h.finInv
  refine ⟨h.wndInv, hfin.whole, fun q hq => ?_⟩
  obtain ⟨s₁, hem, -, hsl⟩ := h.slides
  obtain ⟨new, hnew, hall⟩ := hsl.sent
  rw [hem, List.nil_append] at hnew
  change s.tsock.emitted.getLast? = some q at hq
  rw [hnew] at hq
  obtain ⟨k, g, hs⟩ := hall q (List.mem_of_getLast? hq)
  have hk := hs.passed
  have hg := hs.grown
  have hqw := hs.wnd
  have hwnd := hsl.wnd
  refine ⟨hs.field, 0, le_rfl, ?_⟩
  change s.tsock.rcv.rcvWnd + 0 = q.rcvWnd + 0 + 0
  omega

/-- The header showed a window that was closed, also unshifted, and nothing was read
since. -/
def ShutSince (c : Teller) (q : TxPacket) : Prop := (q.shift = 0 ∨ q.rcvWnd = 0) ∧ c.read = 0

instance (c : Teller) (q : TxPacket) : Decidable (ShutSince c q) :=
  inferInstanceAs (Decidable (_ ∧ _))

theorem Told.closed (h : Told c q) (hz : q.wnd = 0) (hs : ShutSince c q) :
    c.st.tsock.rcv.rcvWnd = 0 := by
  obtain ⟨hsh, hread⟩ := hs
  obtain ⟨fins, hf, hw⟩ := h.wnd
  have hlt : q.rcvWnd < 2 ^ q.shift := (wndField_eq_zero ..).mp (h.field.symm.trans hz)
  have hq : q.rcvWnd = 0 := by
    rcases hsh with hsh | hsh
    · rw [hsh, Nat.pow_zero] at hlt
      omega
    · exact hsh
  omega

/-- In every state that a connection reaches, where the last segment had a window field
of zero: a read that returns bytes queues an ACK when the header was made from a closed
window and nothing was read since, or when an ACK was queued already. While nothing
arrives after that segment, no other read does. -/
theorem window_reopening_run (cfg : TcpCfg) (s₀ : St) (c : Teller) (ho : Opened cfg s₀)
    (hr : Reach (tellerStep cfg) (fun c e => Fed cfg c.st e) (.start s₀) c)
    (hfr : c.st.tsock.freed = false) (hz : ClosedWindow c.st) (q : TxPacket)
    (hq : c.st.tsock.emitted.getLast? = some q) (n : Nat) (bufs : List (List Byte)) (s' : St)
    (hread : tsockZreadv c.st n = (.ok bufs, s')) (hpos : 0 < bufs.flatten.length) :
    (ShutSince c q ∨ AckQueued c.st → AckQueued s') ∧
      (c.taken = 0 → AckQueued s' → ShutSince c q ∨ AckQueued c.st) := by
  have hinv : TellerInv c := by
    have h : c.st.tsock.freed = true ∨ TellerInv c :=
      hr.invariant (I := fun c => c.st.tsock.freed = true ∨ TellerInv c) (.inr ho.teller)
        fun c e h ok => tellerStep_inv cfg c e ok h
    exact h.resolve_left (by simp [hfr])
  have htold := hinv.told q hq
  have hzero : q.wnd = 0 := by
    unfold ClosedWindow at hz
    rw [hq] at hz
    exact Option.some.inj hz
  rw [tsockZreadv_ackQueued hread hpos]
  refine ⟨Or.imp_left (htold.closed hzero), fun hstill => Or.imp_left fun hw => ?_⟩
  obtain ⟨fins, hf, hwnd⟩ := htold.wnd
  exact ⟨.inr (by omega), by omega⟩

theorem rcvQueueOne_ok : RingSize 1 := .inr ⟨0, by decide, rfl⟩

/-- A receive queue of one packet, so a window of 1400 bytes. -/
def narrowCfg : TcpCfg := { rcvQueueSize := 1, rcvQueue_ok := rcvQueueOne_ok }

def narrowed : St :=
  xmitSyn narrowCfg (passiveTsockInit narrowCfg
    ⟨Worker.boot 0 { allocOk := [true, true], ethOk := [true, true] }, tsockInit narrowCfg 0 false⟩
    { Packet.bare 0 100 0 0 { syn := true } with optLen := 4, optArea := [3, 3, 7, 1] }).1

theorem narrowText_fits (n : Nat) (hn : n < 2 ^ 16) :
    (List.replicate n (7 : Byte)).length < 2 ^ 16 := by
  rw [List.length_replicate]
  exact hn

/-- The handshake, and 377 bytes: 1023 bytes of window are left, which a scale of 10
turns into a window field of zero. -/
def narrowText : List ConnEv :=
  handshake ++ [.packet (.parsed 2 101 1 0 { ack := true } [] (List.replicate 377 7)
    (narrowText_fits 377 (by decide))), .burstEnd]

/-- The same with as many bytes as the window has. -/
def fullText : List ConnEv :=
  handshake ++ [.packet (.parsed 2 101 1 0 { ack := true } [] (List.replicate 1400 7)
    (narrowText_fits 1400 (by decide))), .burstEnd]

theorem window_reopening_run_fullText :
    let c := exec (tellerStep narrowCfg) (.start narrowed) fullText
    c.st.tsock.state.connected ∧ c.st.tsock.nego.rcvWscale = 10 ∧ ClosedWindow c.st ∧
      AckQueued (tsockZreadv c.st 1).2 := by
  have hadm : Admitted (tellerStep narrowCfg) (fun c e => Fed narrowCfg c.st e) (.start narrowed)
      fullText := by decide +kernel
  have hlive : (exec (tellerStep narrowCfg) (.start narrowed) fullText).st.tsock.freed = false := by
    decide +kernel
  have hz : ClosedWindow (exec (tellerStep narrowCfg) (.start narrowed) fullText).st := by
    decide +kernel
  have hshut :
    ∀ q ∈ (exec (tellerStep narrowCfg) (.start narrowed) fullText).st.tsock.emitted.getLast?,
      ShutSince (exec (tellerStep narrowCfg) (.start narrowed) fullText) q := by decide +kernel
  have hok : (tsockZreadv (exec (tellerStep narrowCfg) (.start narrowed) fullText).st 1).1 =
      .ok [List.replicate 1400 7] := by decide +kernel
  have hpos : 0 < [List.replicate 1400 (7 : Byte)].flatten.length := by decide +kernel
  have hr := Reach.refl.exec hadm
  refine ⟨by decide +kernel, by decide +kernel, hz, ?_⟩
  generalize exec (tellerStep narrowCfg) (.start narrowed) fullText = c at hlive hz hshut hok hr
  obtain ⟨q, hq, -⟩ := Option.map_eq_some_iff.mp hz
  exact (window_reopening_run narrowCfg narrowed c (.accept _ _ _ _ ⟨by decide, by decide⟩) hr hlive
    hz q hq 1 _ _ (Prod.ext hok rfl) hpos).1 (.inl (hshut q hq))

/-- The last segment announced a window field of zero, the read frees 377 bytes, and
nothing will tell the peer. -/
theorem narrowText_read_silent :
    let c := exec (connStep narrowCfg) (Conn.start narrowed) narrowText
    Opened narrowCfg narrowed ∧
      Reach (connStep narrowCfg) (fun c e => e.Enabled c.st) (Conn.start narrowed) c ∧
      c.st.tsock.state.connected ∧ ClosedWindow c.st ∧
      (tsockZreadv c.st 1).1 = .ok [List.replicate 377 7] ∧ ¬ AckQueued (tsockZreadv c.st 1).2 := by
  refine ⟨.accept _ _ _ _ ⟨by decide, by decide⟩, Reach.refl.exec ?_, by decide +kernel,
    by decide +kernel, by decide +kernel, by decide +kernel⟩
  exact ⟨Packet.parsed_single .., trivial, Packet.parsed_single .., trivial, trivial⟩

end LibTpa
