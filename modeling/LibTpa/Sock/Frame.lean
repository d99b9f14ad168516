/- LibTpa/Sock/Frame
   digest: What the send half of the stack leaves alone. -/

import LibTpa.Output.Header

set_option autoImplicit false

namespace LibTpa

def Rcv.regulate (r : Rcv) : Rcv := { r with rcvWnd := regulatedWnd r }

theorem Rcv.regulate_regulate (r : Rcv) : r.regulate.regulate = r.regulate := by
  unfold Rcv.regulate regulatedWnd
  split
  · simp [tcpWindowMax]
  · simp_all

/-- The options are those that `fill_opts` writes for a socket with the SACK blocks
of `t`; the reset of a listening socket has none. -/
def Optioned (t : TcpSock) (q : TxPacket) : Prop :=
  q.opts = [] ∨ ∃ (cfg : TcpCfg) (s : St), s.tsock.rcv.sackBlocks = t.rcv.sackBlocks ∧
    q.opts = fillOpts cfg s (enabledOpts s.tsock q.flags)

def wndField (shift wnd : Nat) : U16 := BitVec.ofNat 16 (min (wnd >>> shift) 65535)

/-- What a header tells the peer: the acknowledgement is that of the socket, and
the window lies within the one of the socket. It is made from the window of the
socket, except in the reset of a listening one. -/
structure Announced (t : TcpSock) (q : TxPacket) : Prop where
  told : q.flags.ack = true → q.ack = t.rcv.rcvNxt ∧
    q.wnd.toNat <<< (if q.flags.syn then 0 else t.nego.rcvWscale) ≤ t.rcv.rcvWnd
  opts : Optioned t q
  field : q.wnd = wndField q.shift q.rcvWnd
  view : t.state = .listen ∨ q.rcvNxt = t.rcv.rcvNxt ∧
    (t.rcv.rcvWnd < tcpWindowMax → q.rcvWnd = t.rcv.rcvWnd)

structure Announces (s s' : St) : Prop where
  nxt : s'.tsock.rcv.rcvNxt = s.tsock.rcv.rcvNxt
  wnd : s'.tsock.rcv.rcvWnd ≤ s.tsock.rcv.rcvWnd
  keep : s.tsock.rcv.rcvWnd < tcpWindowMax → s'.tsock.rcv.rcvWnd = s.tsock.rcv.rcvWnd
  scale : s'.tsock.nego.rcvWscale = s.tsock.nego.rcvWscale
  sacks : s'.tsock.rcv.sackBlocks = s.tsock.rcv.sackBlocks
  listens : s'.tsock.state = .listen → s.tsock.state = .listen
  sent : ∃ new, s'.tsock.emitted = s.tsock.emitted ++ new ∧ ∀ q ∈ new, Announced s.tsock q

namespace Announces

variable {s s' s'' : St}

theorem of_eq (hr : s'.tsock.rcv = s.tsock.rcv)
    (hn : s'.tsock.nego.rcvWscale = s.tsock.nego.rcvWscale)
    (he : s'.tsock.emitted = s.tsock.emitted)
    (hl : s'.tsock.state = .listen → s.tsock.state = .listen) : Announces s s' :=
  ⟨by rw [hr], by rw [hr], fun _ => by rw [hr], hn, by rw [hr], hl, [], by simp [he], by simp⟩

theorem trans (h : Announces s s') (h' : Announces s' s'') : Announces s s'' := by
  obtain ⟨new, hnew, hall⟩ := h.sent
  obtain ⟨new', hnew', hall'⟩ := h'.sent
  have hkeep : s.tsock.rcv.rcvWnd < tcpWindowMax →
      s''.tsock.rcv.rcvWnd = s'.tsock.rcv.rcvWnd ∧ s'.tsock.rcv.rcvWnd = s.tsock.rcv.rcvWnd :=
    fun hw => ⟨h'.keep (h.wnd.trans_lt hw), h.keep hw⟩
  refine ⟨h'.nxt.trans h.nxt, h'.wnd.trans h.wnd, fun hw => (hkeep hw).1.trans (hkeep hw).2,
    h'.scale.trans h.scale, h'.sacks.trans h.sacks, fun hl => h.listens (h'.listens hl),
    new ++ new', by rw [hnew', hnew, List.append_assoc], ?_⟩
  intro q hq
  rcases List.mem_append.mp hq with hq | hq
  · exact hall q hq
  · obtain ⟨htold, hopts, hfield, hview⟩ := hall' q hq
    refine ⟨fun hack => ?_, ?_, hfield,
      hview.imp h.listens fun hv => ⟨hv.1.trans h.nxt, fun hw => ?_⟩⟩
    · obtain ⟨h1, h2⟩ := htold hack
      rw [h.scale] at h2
      exact ⟨h1.trans h.nxt, h2.trans h.wnd⟩
    · unfold Optioned at hopts
      rw [h.sacks] at hopts
      exact hopts
    · exact (hv.2 (h.wnd.trans_lt hw)).trans (hkeep hw).2

end Announces

theorem regulatedWnd_le (r : Rcv) : regulatedWnd r ≤ r.rcvWnd := by
  unfold regulatedWnd
  split
  · exact Nat.zero_le _
  · exact le_rfl

theorem regulatedWnd_eq {r : Rcv} (h : r.rcvWnd < tcpWindowMax) : regulatedWnd r = r.rcvWnd :=
  if_neg (Nat.not_le.mpr h)

theorem buildPacket_announced (cfg : TcpCfg) (s : St) (seq : U32) (flags : TcpFlags)
    (payload : List Byte) (again : Bool) :
    Announced (afterPrepend s flags).tsock (buildPacket cfg s seq flags payload again) := by
  have hfield : (buildPacket cfg s seq flags payload again).wnd =
      wndField (if flags.syn then 0 else s.tsock.nego.rcvWscale) (regulatedWnd s.tsock.rcv) := by
    unfold wndField buildPacket
    cases flags.syn <;> rfl
  refine ⟨fun hack => ?_, .inr ⟨cfg, s, rfl, rfl⟩, hfield, .inr ⟨rfl, fun _ => rfl⟩⟩
  have hfl : flags.ack = true := hack
  have hsmall : ∀ n : Nat, (BitVec.ofNat 16 (min n 65535)).toNat ≤ n := by
    intro n
    rw [BitVec.toNat_ofNat, Nat.mod_eq_of_lt (by omega)]
    exact Nat.min_le_left ..
  refine ⟨by simp [buildPacket, afterPrepend, hfl], ?_⟩
  simp only [buildPacket, afterPrepend]
  cases flags.syn with
  | true => exact hsmall _
  | false =>
    simp only [Bool.false_eq_true, if_false]
    calc _ ≤ (regulatedWnd s.tsock.rcv >>> s.tsock.nego.rcvWscale) <<< s.tsock.nego.rcvWscale := by
          rw [Nat.shiftLeft_eq, Nat.shiftLeft_eq]
          exact Nat.mul_le_mul_right _ (hsmall _)
      _ ≤ regulatedWnd s.tsock.rcv := by
          rw [Nat.shiftLeft_eq, Nat.shiftRight_eq_div_pow]
          exact Nat.div_mul_le_self ..

/-- Two states of a queue that differ at most in the entries of one socket. -/
def SameBut (i : Nat) (q q' : List Nat) : Prop := ∀ j, j ≠ i → (j ∈ q' ↔ j ∈ q)

theorem SameBut.refl (i : Nat) (q : List Nat) : SameBut i q q := fun _ _ => Iff.rfl

theorem SameBut.trans {i : Nat} {q q' q'' : List Nat} (h : SameBut i q q') (h' : SameBut i q' q'') :
    SameBut i q q'' := fun j hj => (h' j hj).trans (h j hj)

theorem SameBut.pushIfNotExist (i : Nat) (q : List Nat) : SameBut i q (pushIfNotExist q i) := by
  intro j hj
  rw [mem_pushIfNotExist]
  exact or_iff_left hj

/-- In the queues of output and of events only the entry of the socket changes, and
the socket is not taken off the output queue. -/
structure OwnQueues (s s' : St) : Prop where
  output : SameBut s.tsock.sid s.worker.output s'.worker.output
  events : SameBut s.tsock.sid s.worker.eventQueue s'.worker.eventQueue
  stay : s.tsock.sid ∈ s.worker.output → s.tsock.sid ∈ s'.worker.output

theorem OwnQueues.of_eq {s s' : St} (ho : s'.worker.output = s.worker.output)
    (he : s'.worker.eventQueue = s.worker.eventQueue) : OwnQueues s s' :=
  ⟨ho ▸ .refl _ _, he ▸ .refl _ _, fun h => ho ▸ h⟩

theorem OwnQueues.trans {s s' s'' : St} (hi : s'.tsock.sid = s.tsock.sid) (h : OwnQueues s s')
    (h' : OwnQueues s' s'') : OwnQueues s s'' :=
  ⟨h.output.trans (hi ▸ h'.output), h.events.trans (hi ▸ h'.events),
    fun hm => hi ▸ h'.stay (hi.symm ▸ h.stay hm)⟩

/-- A function of the send half ran: it may have queued packets, moved its own
cursors, windows and timers, released descriptors and raised events. -/
structure SndFrame (s s' : St) : Prop where
  tsock : s'.tsock = { s.tsock with
    netHdrLen := s'.tsock.netHdrLen
    packetId := s'.tsock.packetId
    flags := s'.tsock.flags
    rcv := s'.tsock.rcv
    snd := s'.tsock.snd
    cc := s'.tsock.cc
    timers := s'.tsock.timers
    nego := { s.tsock.nego with
      lastAckSent := s'.tsock.nego.lastAckSent
      lastAckSentTs := s'.tsock.nego.lastAckSentTs }
    ev := s'.tsock.ev
    lastSndPkt := s'.tsock.lastSndPkt
    emitted := s'.tsock.emitted }
  worker : s'.worker = { s.worker with
    tx := s'.worker.tx
    nrWriteMbuf := s'.worker.nrWriteMbuf
    mbufUsed := s'.worker.mbufUsed
    done := s'.worker.done
    nrPkt := s'.worker.nrPkt
    output := s'.worker.output
    eventQueue := s'.worker.eventQueue
    fault := s'.worker.fault
    oracles := s'.worker.oracles }
  rcv : s'.tsock.rcv = s.tsock.rcv ∨ s'.tsock.rcv = s.tsock.rcv.regulate
  flags : s'.tsock.flags = { s.tsock.flags with
    tcp := s'.tsock.flags.tcp
    ackNow := s'.tsock.flags.ackNow
    missingArp := s'.tsock.flags.missingArp }
  announces : Announces s s'
  own : OwnQueues s s'

namespace SndFrame

variable {s s' s'' : St}

theorem refl (s : St) : SndFrame s s :=
  ⟨rfl, rfl, .inl rfl, rfl, .of_eq rfl rfl rfl id, .of_eq rfl rfl⟩

theorem trans (h : SndFrame s s') (h' : SndFrame s' s'') : SndFrame s s'' := by
  refine ⟨h'.tsock.trans (by rw [h.tsock]), h'.worker.trans (by rw [h.worker]), ?_,
    h'.flags.trans (by rw [h.flags]), h.announces.trans h'.announces,
    h.own.trans (by rw [h.tsock]) h'.own⟩
  rcases h.rcv with h1 | h1 <;> rcases h'.rcv with h2 | h2 <;> rw [h2, h1]
  · exact .inl rfl
  · exact .inr rfl
  · exact .inr rfl
  · exact .inr s.tsock.rcv.regulate_regulate

theorem state (h : SndFrame s s') : s'.tsock.state = s.tsock.state := by rw [h.tsock]

theorem eof (h : SndFrame s s') : s'.tsock.flags.eof = s.tsock.flags.eof := by rw [h.flags]

theorem pending (h : SndFrame s s') :
    s'.tsock.flags.finPending = s.tsock.flags.finPending := by rw [h.flags]

theorem rx (h : SndFrame s s') : s'.worker.rx = s.worker.rx := by rw [h.worker]

theorem setSnd (s : St) (x : Snd) : SndFrame s (s.setSnd x) :=
  ⟨rfl, rfl, .inl rfl, rfl, .of_eq rfl rfl rfl id, .of_eq rfl rfl⟩
theorem setCc (s : St) (c : Cc) : SndFrame s (s.setCc c) :=
  ⟨rfl, rfl, .inl rfl, rfl, .of_eq rfl rfl rfl id, .of_eq rfl rfl⟩
theorem setTimers (s : St) (t : Timers) : SndFrame s (s.setTimers t) :=
  ⟨rfl, rfl, .inl rfl, rfl, .of_eq rfl rfl rfl id, .of_eq rfl rfl⟩

theorem stampAck (s : St) (seq ts : U32) : SndFrame s (s.setNego
    { s.tsock.nego with lastAckSent := seq, lastAckSentTs := ts }) :=
  ⟨rfl, rfl, .inl rfl, rfl, .of_eq rfl rfl rfl id, .of_eq rfl rfl⟩

theorem setTx (s : St) (x : TxPool) : SndFrame s (s.setTx x) :=
  ⟨rfl, rfl, .inl rfl, rfl, .of_eq rfl rfl rfl id, .of_eq rfl rfl⟩
theorem setDesc (s : St) (d : DescId) (v : TxDesc) : SndFrame s (s.setDesc d v) := setTx ..

theorem setTcp (s : St) (f : TcpFlags) : SndFrame s (s.setFlags { s.tsock.flags with tcp := f }) :=
  ⟨rfl, rfl, .inl rfl, rfl, .of_eq rfl rfl rfl id, .of_eq rfl rfl⟩

theorem fault (s : St) : SndFrame s { s with worker := { s.worker with fault := true } } :=
  ⟨rfl, rfl, .inl rfl, rfl, .of_eq rfl rfl rfl id, .of_eq rfl rfl⟩

theorem packetAlloc (s : St) : SndFrame s (packetAlloc s).2 := by
  unfold LibTpa.packetAlloc
  split
  · exact refl s
  · exact ⟨rfl, rfl, .inl rfl, rfl, .of_eq rfl rfl rfl id, .of_eq rfl rfl⟩

theorem rteRdtsc (s : St) : SndFrame s (rteRdtsc s).2 := by
  unfold LibTpa.rteRdtsc
  split <;> exact ⟨rfl, rfl, .inl rfl, rfl, .of_eq rfl rfl rfl id, .of_eq rfl rfl⟩

theorem outputTsockEnqueue (s : St) : SndFrame s (outputTsockEnqueue s) :=
  ⟨rfl, rfl, .inl rfl, rfl, .of_eq rfl rfl rfl id, .pushIfNotExist _ _, .refl _ _,
    fun h => mem_pushIfNotExist.mpr (.inl h)⟩

theorem tsockEventAdd (s : St) (e : BitVec 32) : SndFrame s (tsockEventAdd s e) := by
  refine ⟨rfl, rfl, .inl rfl, rfl, .of_eq rfl rfl rfl id, .refl _ _, ?_, id⟩
  unfold LibTpa.tsockEventAdd
  dsimp only
  split
  · exact .refl _ _
  · exact .pushIfNotExist _ _

theorem tsockUpdateLastSndPkt (s : St) : SndFrame s (tsockUpdateLastSndPkt s) :=
  ⟨rfl, rfl, .inl rfl, rfl, .of_eq rfl rfl rfl id, .of_eq rfl rfl⟩

theorem afterPrepend (s : St) (f : TcpFlags) : SndFrame s (afterPrepend s f) := by
  refine ⟨rfl, rfl, .inr rfl, ?_, ⟨rfl, regulatedWnd_le _, regulatedWnd_eq, rfl, rfl, id, [],
    by simp [LibTpa.afterPrepend], by simp⟩, .of_eq rfl rfl⟩
  unfold LibTpa.afterPrepend
  dsimp only
  split <;> rfl

theorem queued {s s' : St} {pkt : TxPacket} (h : Announced s.tsock pkt)
    (ht : s'.tsock = { s.tsock with emitted := s.tsock.emitted ++ [pkt] })
    (hw : s'.worker = { s.worker with nrPkt := s'.worker.nrPkt, oracles := s'.worker.oracles }) :
    SndFrame s s' := by
  refine ⟨by rw [ht], hw.trans (by rw [hw]), .inl (by rw [ht]), by rw [ht], ?_,
    .of_eq (by rw [hw]) (by rw [hw])⟩
  exact ⟨by rw [ht], by rw [ht], fun _ => by rw [ht], by rw [ht], by rw [ht], by rw [ht]; exact id,
    [pkt], by rw [ht], by simpa using h⟩

theorem devPortTxqEnqueue (s : St) (pkt : TxPacket) (h : Announced s.tsock pkt) :
    SndFrame s (devPortTxqEnqueue s pkt).2 := by
  unfold LibTpa.devPortTxqEnqueue
  split
  · exact .refl s
  · dsimp only
    split
    · exact .queued h rfl rfl
    · exact .queued h rfl rfl

end SndFrame

end LibTpa
