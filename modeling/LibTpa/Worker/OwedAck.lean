/- LibTpa/Worker/OwedAck
   digest: When an ACK that a socket owes is remembered although packets are refused. -/

import LibTpa.Output.FlagPacket
import LibTpa.Worker.DelayedAck
import LibTpa.Worker.Slots

/-!
`xmit_flag_packet` may fail, and four of its callers do not look whether it did. The ACK
flag then stays set, and unless a queue still holds the socket nobody comes back to it.
-/

set_option autoImplicit false

namespace LibTpa

open Lib.Run

variable {cfg : TcpCfg} {n n' : Stack} {i j : Nat} {s s' : St} {pend : List Nat}

def TcpState.beyondHandshake : TcpState → Bool
  | .closed | .listen | .synSent | .synRcvd => false
  | _ => true

/-- `TSOCK_FLAG_ACK_NEEDED` is set on a connected socket. -/
def TcpSock.OwesAck (t : TcpSock) : Prop := t.state.beyondHandshake = true ∧ t.flags.tcp.ack = true

instance (t : TcpSock) : Decidable t.OwesAck := inferInstanceAs (Decidable (_ ∧ _))

/-- Some queue, or the loop that runs, will come back to a socket that owes an ACK. -/
def AckKept (pend : List Nat) (s : St) : Prop :=
  s.tsock.OwesAck →
    s.tsock.sid ∈ s.worker.delayedAck ∨ s.tsock.sid ∈ s.worker.output ∨ s.tsock.sid ∈ pend

/-- Calling `xmit_flag_packet` now does not lose an ACK: there is no header yet and the
flags are dropped, the packet gets out, or a queue holds the socket. -/
def AckSafe (s : St) : Prop :=
  s.tsock.OwesAck → s.tsock.netHdrLen = 0 ∨ FlagGoes s ∨
    s.tsock.sid ∈ s.worker.delayedAck ∨ s.tsock.sid ∈ s.worker.output

instance (s : St) : Decidable (AckSafe s) := inferInstanceAs (Decidable (_ → _))

/-! ### The calls whose result is ignored -/

/-- The socket when `tcp_output_one` comes to its flags. -/
def outputTry (cfg : TcpCfg) (s : St) : St :=
  requeueOrFin (tcpXmitData cfg (closeIfIssued cfg s))

def probeTry (s : St) : St :=
  s.setFlags { s.tsock.flags with tcp := { s.tsock.flags.tcp with ack := true } }

def Probes (cfg : TcpCfg) (t : TcpSock) : Prop :=
  t.timers.keepalive ≠ none ∧ t.state = .established ∧ t.timers.keepaliveShift.toNat < cfg.retries

instance (cfg : TcpCfg) (t : TcpSock) : Decidable (Probes cfg t) :=
  inferInstanceAs (Decidable (_ ∧ _ ∧ _))

/-- The calls of the second loop of `tcp_input`, each with the socket and the worker as
they are before the call. -/
def inputTries (cfg : TcpCfg) : Stack → List Nat → List St
  | _, [] => []
  | n, i :: tsocks =>
    let s := inputHead cfg (n.sockAt i)
    (if s.tsock.flags.ackNow then [s] else []) ++ inputTries cfg (inputVisit cfg n i) tsocks

def outputTries (cfg : TcpCfg) : Stack → List Nat → List St
  | _, [] => []
  | n, i :: tsocks =>
    (if (n.socks i).freed then [] else [outputTry cfg (n.sockAt i)]) ++
      outputTries cfg (n.turn i (tcpOutputOne cfg)) tsocks

/-- The calls of `tcp_flush_delayed_ack`, which takes a socket off the queue whatever
comes of its ACK. -/
def flushTries (cfg : TcpCfg) : Nat → Stack → List St
  | 0, _ => []
  | rounds + 1, n =>
    match n.worker.delayedAck with
    | [] => []
    | i :: rest =>
      let pop (n : Stack) : Stack := { n with worker := { n.worker with delayedAck := rest } }
      if (n.socks i).freed then flushTries cfg rounds (pop n)
      else if sinceLastAck n i < cfg.delayedAck then []
      else (pop n).sockAt i :: flushTries cfg rounds (pop (n.turn i (xmitDueAck cfg)))

/-- The calls of `xmit_flag_packet` in a step whose result is ignored. -/
def StackEv.tries (cfg : TcpCfg) (n : Stack) : StackEv → List St
  | .input burst => inputTries cfg (exec (inputOne cfg) n burst) (inputTsocks burst)
  | .output =>
    outputTries cfg { n with worker := { n.worker with output := n.worker.output.drop batchSize } }
      (n.worker.output.take batchSize) ++ flushTries cfg batchSize (outputTurns cfg n)
  | .timer i .keepalive =>
    if (n.socks i).freed = false ∧ Probes cfg (n.socks i) then [probeTry (n.sockAt i)] else []
  | _ => []

/-- None of these calls loses an ACK. Every other packet may be refused. -/
def StackEv.AcksSafe (cfg : TcpCfg) (n : Stack) (e : StackEv) : Prop :=
  ∀ s ∈ e.tries cfg n, AckSafe s

instance (cfg : TcpCfg) (n : Stack) (e : StackEv) : Decidable (e.AcksSafe cfg n) :=
  inferInstanceAs (Decidable (∀ _ ∈ _, _))

/-! ### The turns of a socket -/

theorem xmitFlagPacketWithSeq_owes (cfg : TcpCfg) (seq : U32)
    (h : (xmitFlagPacketWithSeq cfg s seq).2.tsock.OwesAck) :
    s.tsock.OwesAck ∧ s.tsock.netHdrLen ≠ 0 ∧ ¬ FlagGoes s := by
  obtain ⟨hst, hack⟩ := h
  rw [(Quiet.xmitFlagPacketWithSeq cfg s seq).frame.state] at hst
  have hcase := xmitFlagPacketWithSeq_cases cfg s seq
  generalize (xmitFlagPacketWithSeq cfg s seq).2 = s' at hcase hack
  cases hcase with
  | headless => cases hack
  | dry h ha =>
    rw [packetAlloc_tsock] at hack
    refine ⟨⟨hst, hack⟩, h, fun hg => ?_⟩
    rw [hg.2.1] at ha
    cases ha
  | refused _ h ha hr hs =>
    rw [hs.tcp] at hack
    exact ⟨⟨hst, hack⟩, h, fun hg => hr hg.2.2⟩
  | sent _ h he ht =>
    rw [ht] at hack
    cases hack

theorem AckSafe.kept (h : AckSafe s) (cfg : TcpCfg) (seq : U32) :
    AckKept pend (xmitFlagPacketWithSeq cfg s seq).2 := by
  intro howes
  obtain ⟨hs, hdr, hgo⟩ := xmitFlagPacketWithSeq_owes cfg seq howes
  have hf := (Quiet.xmitFlagPacketWithSeq cfg s seq).frame
  have hd : (xmitFlagPacketWithSeq cfg s seq).2.worker.delayedAck = s.worker.delayedAck := by
    rw [hf.worker]
  rw [hf.seats.sid, hd]
  rcases ((h hs).resolve_left hdr).resolve_left hgo with hq | hq
  · exact .inl hq
  · exact .inr (.inl (hf.own.stay hq))

theorem ackKept_local : QueueLocal AckKept := by
  constructor
  · intro pend pend' s w ho hd hp h howes
    rcases h howes with hq | hq | hq
    · exact (hd hq).imp_right .inr
    · exact .inr (ho hq)
    · exact .inr (.inr (hp hq))
  · intro pend s ev h howes
    exact h howes

private theorem AckKept.of_clear (h : s.tsock.flags.tcp.ack = false) : AckKept pend s := by
  intro howes
  rw [howes.2] at h
  cases h

private theorem AckKept.of_unconnected (h : s.tsock.state.beyondHandshake = false) :
    AckKept pend s := by
  intro howes
  rw [howes.1] at h
  cases h

private theorem AckKept.same (h : AckKept pend s) (hi : s'.tsock.sid = s.tsock.sid)
    (hst : s'.tsock.state = s.tsock.state) (ha : s'.tsock.flags.tcp.ack = s.tsock.flags.tcp.ack)
    (hd : s'.worker.delayedAck = s.worker.delayedAck)
    (ho : s.tsock.sid ∈ s.worker.output → s.tsock.sid ∈ s'.worker.output) : AckKept pend s' := by
  intro howes
  rw [TcpSock.OwesAck, hst, ha] at howes
  rw [hi, hd]
  exact (h howes).imp_right fun hq => hq.imp_left ho

private theorem inputEnd_ackKept (cfg : TcpCfg)
    (hs : (inputHead cfg s).tsock.flags.ackNow = true → AckSafe (inputHead cfg s))
    (hf : (inputEnd cfg s).tsock.freed = false) : AckKept pend (inputEnd cfg s) := by
  unfold inputEnd inputPut at hf ⊢
  split at hf
  · cases hf
  next hput =>
  rw [if_neg hput]
  unfold inputAck
  split
  · split
    · next hnow => exact (hs hnow).kept cfg _
    · exact fun _ => .inl (mem_pushIfNotExist.mpr (.inr rfl))
  · next ha => exact .of_clear (Bool.eq_false_iff.mpr ha)

private theorem outputFlags_ackKept (cfg : TcpCfg) (hs : AckSafe (requeueOrFin s)) :
    AckKept pend (outputFlags cfg s) := by
  unfold outputFlags
  dsimp only
  split
  · next he =>
    refine .of_clear ?_
    unfold TcpFlags.isEmpty at he
    simp_all
  · exact hs.kept cfg _

private theorem tcpOutputOne_ackKept (cfg : TcpCfg) (hs : AckSafe (outputTry cfg s))
    (hf : s.tsock.freed = false) : AckKept pend (tcpOutputOne cfg s) := by
  unfold tcpOutputOne
  rw [if_neg (by simp [hf])]
  unfold outputTry at hs
  dsimp only
  generalize closeIfIssued cfg s = s₁ at hs
  have hsyn : inHandshake s₁.tsock.state = true → AckKept pend (xmitSyn cfg s₁) := by
    intro hst
    refine .of_unconnected ?_
    rw [(SndFrame.xmitSyn cfg s₁).state]
    cases hst' : s₁.tsock.state <;> simp_all [inHandshake, TcpState.beyondHandshake]
  split
  · next hc => exact .of_unconnected (by rw [hc]; rfl)
  · next hst => exact hsyn (by rw [hst]; rfl)
  · next hst => exact hsyn (by rw [hst]; rfl)
  · exact outputFlags_ackKept cfg hs

private theorem xmitDueAck_ackKept (cfg : TcpCfg) {rest : List Nat}
    (hs : AckSafe ⟨{ s.worker with delayedAck := rest }, s.tsock⟩) :
    AckKept pend ⟨{ (xmitDueAck cfg s).worker with delayedAck := rest },
      (xmitDueAck cfg s).tsock⟩ := by
  unfold xmitDueAck
  split
  · intro howes
    obtain ⟨hs', hdr, hgo⟩ := xmitFlagPacketWithSeq_owes cfg _ howes
    have hf := (Quiet.xmitFlagPacket cfg s).frame
    change (xmitFlagPacket cfg s).2.tsock.sid ∈ rest ∨
      (xmitFlagPacket cfg s).2.tsock.sid ∈ (xmitFlagPacket cfg s).2.worker.output ∨ _
    rw [hf.seats.sid]
    rcases ((hs hs').resolve_left hdr).resolve_left hgo with hq | hq
    · exact .inl hq
    · exact .inr (.inl (hf.own.stay hq))
  · next ha => exact .of_clear (Bool.eq_false_iff.mpr ha)

private theorem timedOut_ackKept (cfg : TcpCfg) (b : Bool)
    (hf : (timedOut cfg s b).tsock.freed = false) : AckKept pend (timedOut cfg s b) := by
  unfold timedOut at hf ⊢
  dsimp only at hf ⊢
  split at hf
  · cases hf
  · next h =>
    rw [if_neg h]
    refine .of_unconnected ?_
    change (tsockSetState cfg (s.setErr (some .etimedout)) .closed).tsock.state.beyondHandshake =
      false
    rfl

private theorem tcpTimeout_ackKept (cfg : TcpCfg) (k : TimerKind) (h : AckKept pend s)
    (hs : k = .keepalive → Probes cfg s.tsock → AckSafe (probeTry s))
    (hf : (tcpTimeout cfg s k).tsock.freed = false) : AckKept pend (tcpTimeout cfg s k) := by
  have hcase := tcpTimeout_cases cfg s k
  generalize tcpTimeout cfg s k = s' at hcase hf
  cases hcase with
  | stopped t => exact h.same rfl rfl rfl rfl id
  | givenUp t c b => exact timedOut_ackKept cfg b hf
  | resent t c =>
    generalize tcpRetrans cfg _ = s₁
    exact fun _ => .inr (.inl (mem_pushIfNotExist.mpr (.inr rfl)))
  | waited t => cases hf
  | probed t t' s₁ hst hx hk hsh =>
    have hsafe : AckSafe ((s.counted t s.tsock.cc).setFlags
      { s.tsock.flags with tcp := { s.tsock.flags.tcp with ack := true } }) :=
      hs rfl ⟨hk, hst, hsh⟩
    rw [hx]
    exact hsafe.kept cfg _

private theorem call_ackKept (cfg : TcpCfg) (c : SockCall) (h : AckKept pend s) :
    AckKept pend (sockStep cfg s c.event) := by
  cases c with
  | write iov =>
    have hw := WriteFrame.tsockZwritev cfg s iov
    change AckKept pend (tsockZwritev cfg s iov).2
    exact h.same hw.frame.seats.sid hw.frame.state (by rw [hw.flags]) (by rw [hw.frame.worker])
      hw.frame.own.stay
  | read nr =>
    change AckKept pend (tsockZreadv s nr).2
    unfold tsockZreadv
    split
    · exact h
    dsimp only
    split
    · exact h.same rfl rfl rfl rfl id
    split
    · exact fun _ => .inr (.inl (mem_pushIfNotExist.mpr (.inr rfl)))
    · exact h.same rfl rfl rfl rfl id
  | close =>
    change AckKept pend (tpaClose s)
    unfold tpaClose
    split
    · exact h
    · exact fun _ => .inr (.inl (mem_pushIfNotExist.mpr (.inr rfl)))
  | dropOoo => exact h.same rfl rfl rfl rfl id

/-! ### The loops -/

private theorem Visited.unconnected (h : Visited s s') (hc : s.worker.children = []) {c : TcpSock}
    (hm : c ∈ s'.worker.children) : AckKept pend ⟨s'.worker, c⟩ := by
  rcases h.children hc with hn | ⟨c', hn, hnew⟩
  · rw [hn] at hm
    cases hm
  · rw [hn, List.mem_singleton] at hm
    subst hm
    refine .of_unconnected ?_
    rw [hnew.greeting.state]
    rfl

namespace SlotLaw

private theorem owed_inputOnes (burst : List (Nat × Packet)) : ∀ {n : Stack} {pend : List Nat},
    SlotLaw AckKept pend n →
    SlotLaw AckKept (pend ++ burst.map Prod.fst) (exec (inputOne cfg) n burst) := by
  induction burst with
  | nil =>
    intro n pend h
    rw [List.map_nil, List.append_nil]
    exact h
  | cons r burst ih =>
    intro n pend h
    have hv := (inputPacket_heard cfg (n.sockAt r.1) r.2).visited (.stays (.refl _))
    have hturn : SlotLaw AckKept (pend ++ [r.1]) (inputOne cfg n r) := by
      refine h.visit ackKept_local hv (fun _ _ => ?_) (fun c => hv.unconnected h.children)
        fun j hj _ => List.mem_append_left _ hj
      rw [hv.sid, show (n.sockAt r.1).tsock.sid = r.1 from h.sids r.1]
      exact .inr (.inr (by simp))
    have hrest := ih hturn
    rw [List.append_assoc] at hrest
    exact hrest

private theorem owed_inputVisits (tsocks : List Nat) : ∀ {n : Stack}, SlotLaw AckKept tsocks n →
    (∀ s ∈ inputTries cfg n tsocks, AckSafe s) →
    SlotLaw AckKept [] (exec (inputVisit cfg) n tsocks) := by
  induction tsocks with
  | nil => exact fun h _ => h
  | cons i tsocks ih =>
    intro n h hs
    have hv := inputEnd_visited cfg (n.sockAt i)
    refine ih (h.visit ackKept_local hv (fun hf => ?_) (fun c => hv.unconnected h.children)
      fun j hj hji => (List.mem_cons.mp hj).resolve_left hji)
      fun s hm => hs s (List.mem_append_right _ hm)
    refine inputEnd_ackKept cfg (fun hnow => hs _ (List.mem_append_left _ ?_)) hf
    rw [if_pos hnow]
    exact List.mem_singleton_self _

private theorem owed_outputOnes (tsocks : List Nat) : ∀ {n : Stack}, SlotLaw AckKept tsocks n →
    (∀ s ∈ outputTries cfg n tsocks, AckSafe s) →
    SlotLaw AckKept [] (exec (fun n i => n.turn i (tcpOutputOne cfg)) n tsocks) := by
  induction tsocks with
  | nil => exact fun h _ => h
  | cons i tsocks ih =>
    intro n h hs
    have ht := (Turned.tcpOutputOne cfg (n.sockAt i)).seats
    refine ih (h.turned ackKept_local ht (fun hf => ?_)
      fun j hj hji => (List.mem_cons.mp hj).resolve_left hji)
      fun s hm => hs s (List.mem_append_right _ hm)
    have hlive : (n.socks i).freed = false := (Visited.live (.alone ht) hf).1
    refine tcpOutputOne_ackKept cfg (hs _ (List.mem_append_left _ ?_)) hlive
    rw [hlive]
    exact List.mem_singleton_self _

private theorem owed_pop {rest : List Nat} (h : SlotLaw AckKept [] n)
    (hq : n.worker.delayedAck = i :: rest)
    (hi : (n.socks i).freed = true ∨
      AckKept [] ⟨{ n.worker with delayedAck := rest }, n.socks i⟩) :
    SlotLaw AckKept [] { n with worker := { n.worker with delayedAck := rest } } := by
  refine ⟨h.sids, h.children, fun j hf => ?_⟩
  by_cases hji : j = i
  · subst hji
    exact hi.resolve_left (by rw [show (n.socks j).freed = false from hf]; exact Bool.false_ne_true)
  · refine ackKept_local.keep (s := n.sockAt j) .inl (fun hm => ?_) id (h.held j hf)
    change (n.socks j).sid ∈ n.worker.delayedAck at hm
    change (n.socks j).sid ∈ rest ∨ _
    rw [h.sids j] at hm ⊢
    rw [hq] at hm
    exact .inl ((List.mem_cons.mp hm).resolve_left hji)

private theorem owed_flush (rounds : Nat) : ∀ {n : Stack}, SlotLaw AckKept [] n →
    (∀ s ∈ flushTries cfg rounds n, AckSafe s) →
    SlotLaw AckKept [] (flushDelayedAck cfg rounds n) := by
  induction rounds with
  | zero => exact fun h _ => h
  | succ rounds ih =>
    intro n h hs
    unfold flushTries at hs
    unfold LibTpa.flushDelayedAck
    split
    · exact h
    next i rest hq =>
    rw [hq] at hs
    dsimp only at hs ⊢
    split
    · next hfr =>
      rw [if_pos hfr] at hs
      exact ih (h.owed_pop hq (.inl hfr)) hs
    next hfr =>
    rw [if_neg hfr] at hs
    split
    · exact h
    next hdue =>
    rw [if_neg (show ¬ sinceLastAck n i < cfg.delayedAck from hdue)] at hs
    have hfr' := QueuesOk.xmitDueAck cfg (n.sockAt i)
    have hchild : (xmitDueAck cfg (n.sockAt i)).worker.children = [] := by
      rw [hfr'.worker]
      exact h.children
    have hself : (n.turn i (xmitDueAck cfg)).socks i = (xmitDueAck cfg (n.sockAt i)).tsock := by
      unfold Stack.turn
      rw [Stack.adopt_nil (n := n.put i (xmitDueAck cfg (n.sockAt i))) hchild, Stack.put_self]
    have hacks : (n.turn i (xmitDueAck cfg)).worker.delayedAck = i :: rest := by
      change (xmitDueAck cfg (n.sockAt i)).worker.delayedAck = _
      rw [hfr'.worker]
      exact hq
    -- the entry is still there while the ACK is tried
    have hturn : SlotLaw AckKept [] (n.turn i (xmitDueAck cfg)) := by
      refine h.turned ackKept_local (.stays hfr'.seats) (fun _ _ => .inl ?_) fun j hj _ => hj
      rw [hfr'.seats.sid, show (n.sockAt i).tsock.sid = i from h.sids i, hfr'.worker]
      exact hq ▸ List.mem_cons_self ..
    refine ih (hturn.owed_pop hacks (.inr ?_)) fun s hm => hs s (List.mem_cons_of_mem _ hm)
    have hkept : AckKept [] ⟨{ (xmitDueAck cfg (n.sockAt i)).worker with delayedAck := rest },
        (xmitDueAck cfg (n.sockAt i)).tsock⟩ :=
      xmitDueAck_ackKept cfg (hs _ (List.mem_cons_self ..))
    rw [hself]
    refine ackKept_local.queues ?_ ?_ ?_ hkept <;> rfl

end SlotLaw

/-- No step whose calls are safe forgets an ACK. -/
theorem SlotLaw.ackKept_step (h : SlotLaw AckKept [] n) (e : StackEv) (he : e.AcksSafe cfg n) :
    SlotLaw AckKept [] (stackStep cfg n e) := by
  cases e with
  | input burst =>
    have h₁ : SlotLaw AckKept (burst.map Prod.fst) (exec (inputOne cfg) n burst) :=
      h.owed_inputOnes burst
    refine SlotLaw.owed_inputVisits _ ⟨h₁.sids, h₁.children, fun j hf => ?_⟩ he
    exact ackKept_local.keep .inl .inl (fun hm => inputTsocks_mem hm) (h₁.held j hf)
  | output =>
    have hdrop : SlotLaw AckKept (n.worker.output.take batchSize)
        { n with worker := { n.worker with output := n.worker.output.drop batchSize } } := by
      refine h.worker ackKept_local (fun j hj => ?_) (fun j => .inl) (fun j hj =>
        nomatch hj) h.children
      rw [← List.take_append_drop batchSize n.worker.output] at hj
      exact (List.mem_append.mp hj).symm
    exact SlotLaw.owed_flush _
      (SlotLaw.owed_outputOnes _ hdrop fun s hm => he s (List.mem_append_left _ hm))
      fun s hm => he s (List.mem_append_right _ hm)
  | timer i k =>
    refine h.ifLive ackKept_local (.tcpTimeout cfg _ k) fun hf hf' => ?_
    refine tcpTimeout_ackKept cfg k (h.held i hf) (fun hk hp => he _ ?_) hf'
    subst hk
    have hcalls : StackEv.tries cfg n (.timer i .keepalive) = [probeTry (n.sockAt i)] :=
      if_pos ⟨hf, hp⟩
    rw [hcalls]
    exact List.mem_singleton_self _
  | call i c =>
    exact h.ifLive ackKept_local (.stays (c.stays cfg _)) fun hf _ =>
      call_ackKept cfg c (h.held i hf)
  | neighReady i =>
    refine h.turned ackKept_local (.stays (.of_eq rfl rfl rfl rfl id)) (fun hf => ?_)
      fun j hj _ => hj
    exact (h.held i hf).same rfl rfl rfl rfl id
  | acceptBurst nr => exact h.acceptBurst ackKept_local nr
  | connect i isIpv6 =>
    refine h.opened ackKept_local rfl (fun j hj => ?_) rfl rfl (.of_unconnected rfl)
    exact SameBut.pushIfNotExist i n.worker.output j hj
  | listen i isIpv6 =>
    exact h.opened ackKept_local rfl (fun j _ => Iff.rfl) rfl rfl (.of_unconnected rfl)
  | eventCtrl i op m data => exact h.eventCtrl ackKept_local op m data
  | eventPoll max => exact h.eventPoll ackKept_local max
  | world => exact h.worker ackKept_local (fun _ => .inl) (fun _ => .inl) (fun _ => id) h.children

/-- A connection uses up its quick ACKs and then receives one byte more. Its
application writes, and `tcp_output` finds the pool empty. -/
def byteOwed : List StackEv :=
  [.connect 0 false, .output, .input [(0, .bare 1 100 1 1000 { syn := true, ack := true })],
    .input (quickBytes 0 10), .input [(0, .oneByte 90 131 1 1000 { ack := true } 97)],
    .call 0 (.write [.byte 98]), .output]

/-- The pool refuses the first ACK of the handshake, inside `tcp_rcv_process`, and has
nothing left for the last step. -/
def miserlyWorker : Stack := .boot {} 4
  { allocOk := [true, false] ++ List.replicate 31 true, ethOk := [true], neighOk := [true]
    txBurst := [batchSize] }

end LibTpa
