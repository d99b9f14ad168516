/- LibTpa/Worker/Unsent
   digest: Data and a FIN that were not sent yet keep their socket in the output queue. -/

import LibTpa.Worker.DelayedAck
import LibTpa.Worker.Slots
import LibTpa.Conn.Unsent

set_option autoImplicit false

namespace LibTpa

open Lib.Run

variable {cfg : TcpCfg} {n : Stack} {i j : Nat} {s s' : St} {pend : List Nat}

private theorem unstranded_local : QueueLocal Unstranded := by
  constructor
  · intro pend pend' s w ho _ hp h
    refine ⟨h.opening, h.queued.imp_right fun hq => hq.imp_right fun hq =>
      hq.imp_right fun hq => ?_⟩
    rcases hq with hq | hq
    · exact ho hq
    · exact .inr (hp hq)
  · intro pend s ev h
    exact h.advance ⟨rfl, id, fun ha => ⟨ha.data, ha.fin⟩, .inl rfl⟩

private theorem Visited.born (h : Visited s s') (hc : s.worker.children = []) {c : TcpSock}
    (hm : c ∈ s'.worker.children) : Unstranded pend ⟨s'.worker, c⟩ := by
  rcases h.children hc with hn | ⟨c', hn, hnew⟩
  · rw [hn] at hm
    cases hm
  · rw [hn, List.mem_singleton] at hm
    subst hm
    exact ⟨fun _ => hnew.sent, .inl hnew.sent⟩

namespace SlotLaw

private theorem unsent_inputOnes (burst : List (Nat × Packet)) :
    ∀ {n : Stack}, SlotLaw Unstranded [] n →
    SlotLaw Unstranded [] (exec (inputOne cfg) n burst) := by
  induction burst with
  | nil => exact fun h => h
  | cons r burst ih =>
    intro n h
    have hheard := inputPacket_heard cfg (n.sockAt r.1) r.2
    have hv := hheard.visited (.stays (.refl _))
    refine ih (h.visit unstranded_local hv (fun hf => ?_) (fun c => hv.born h.children)
      fun j hj _ => hj)
    exact inputPacket_unstranded cfg r.2 (h.held r.1 (hheard.freed.symm.trans hf))

private theorem unsent_inputVisits (tsocks : List Nat) : ∀ {n : Stack}, SlotLaw Unstranded [] n →
    SlotLaw Unstranded [] (exec (inputVisit cfg) n tsocks) := by
  induction tsocks with
  | nil => exact fun h => h
  | cons i tsocks ih =>
    intro n h
    have hv := inputEnd_visited cfg (n.sockAt i)
    refine ih (h.visit unstranded_local hv (fun hf => ?_) (fun c => hv.born h.children)
      fun j hj _ => hj)
    rcases inputEnd_unstranded cfg (h.held i (hv.live hf).1) with hfr | hu
    · rw [hf] at hfr
      cases hfr
    · exact hu

private theorem unsent_outputOnes (tsocks : List Nat) : ∀ {n : Stack}, SlotLaw Unstranded tsocks n →
    SlotLaw Unstranded [] (exec (fun n i => n.turn i (tcpOutputOne cfg)) n tsocks) := by
  induction tsocks with
  | nil => exact fun h => h
  | cons i tsocks ih =>
    intro n h
    have ht := (Turned.tcpOutputOne cfg (n.sockAt i)).seats
    refine ih (h.turned unstranded_local ht (fun hf => ?_) fun j hj hji => ?_)
    · have hlive := (Visited.live (.alone ht) hf).1
      have hu := tcpOutputOne_unstranded cfg (h.held i hlive).opening hlive
      exact ⟨hu.opening, hu.queued.imp_right fun hq => hq.imp_right fun hq => hq.imp_right fun hq =>
        hq.imp_right fun hm => nomatch hm⟩
    · exact (List.mem_cons.mp hj).resolve_left hji

private theorem unsent_flush (rounds : Nat) : ∀ {n : Stack}, SlotLaw Unstranded [] n →
    SlotLaw Unstranded [] (flushDelayedAck cfg rounds n) := by
  induction rounds with
  | zero => exact fun h => h
  | succ rounds ih =>
    intro n h
    -- the law says nothing about the queue of delayed ACKs
    have hpop : ∀ {n : Stack} {rest : List Nat}, SlotLaw Unstranded [] n →
        SlotLaw Unstranded [] { n with worker := { n.worker with delayedAck := rest } } :=
      fun h => ⟨h.sids, h.children, fun j hf => ⟨(h.held j hf).opening, (h.held j hf).queued⟩⟩
    unfold LibTpa.flushDelayedAck
    split
    · exact h
    dsimp only
    split
    · exact ih (hpop h)
    split
    · exact h
    next i rest _ hi _ =>
    have hf := QueuesOk.xmitDueAck cfg (n.sockAt i)
    refine ih (hpop (h.turned unstranded_local (.stays hf.seats) (fun _ => ?_) fun j hj _ => hj))
    have hu := h.held i (by simpa using hi)
    unfold xmitDueAck
    split
    · exact hu.advance (Quiet.xmitFlagPacket cfg _).advances
    · exact hu

private theorem unsent_call (h : SlotLaw Unstranded [] n) (c : SockCall) :
    SlotLaw Unstranded [] (LibTpa.ifLive n i fun s => sockStep cfg s c.event) := by
  refine h.ifLive unstranded_local (.stays (c.stays cfg _)) fun hf _ => ?_
  have hu := h.held i hf
  cases c with
  | write iov => exact write_unstranded cfg iov hu
  | read nr => exact read_unstranded nr hu
  | close => exact close_unstranded hu
  | dropOoo => exact hu.advance ⟨rfl, id, fun ha => ⟨ha.data, ha.fin⟩, .inl rfl⟩

theorem unstranded_step (h : SlotLaw Unstranded [] n) (e : StackEv) :
    SlotLaw Unstranded [] (stackStep cfg n e) := by
  cases e with
  | input burst => exact unsent_inputVisits _ (unsent_inputOnes burst h)
  | output =>
    refine unsent_flush _ (unsent_outputOnes _ (h.worker unstranded_local (fun j hj => ?_)
      (fun j => .inl) (fun j hj => nomatch hj) h.children))
    rw [← List.take_append_drop batchSize n.worker.output] at hj
    exact (List.mem_append.mp hj).symm
  | timer i k =>
    refine h.ifLive unstranded_local (.tcpTimeout cfg _ k) fun hf hf' => ?_
    rcases tcpTimeout_unstranded cfg k (h.held i hf) with hfr | hu
    · rw [hf'] at hfr
      cases hfr
    · exact hu
  | call i c => exact h.unsent_call c
  | neighReady i =>
    refine h.turned unstranded_local (.stays (.of_eq rfl rfl rfl rfl id))
      (fun hf => ?_) fun j hj _ => hj
    exact (h.held i hf).advance ⟨rfl, id, fun ha => ⟨ha.data, ha.fin⟩, .inl rfl⟩
  | acceptBurst nr => exact h.acceptBurst unstranded_local nr
  | connect i isIpv6 =>
    refine h.opened unstranded_local rfl (fun j hj => ?_) rfl rfl ?_
    · exact SameBut.pushIfNotExist i n.worker.output j hj
    · exact ⟨fun _ => ⟨rfl, fun hp => nomatch hp⟩, .inl ⟨rfl, fun hp => nomatch hp⟩⟩
  | listen i isIpv6 =>
    refine h.opened unstranded_local rfl (fun j _ => Iff.rfl) rfl rfl ?_
    exact ⟨fun ho => (nomatch ho), .inr (.inr (.inl rfl))⟩
  | eventCtrl i op m data => exact h.eventCtrl unstranded_local op m data
  | eventPoll max => exact h.eventPoll unstranded_local max
  | world =>
    exact h.worker unstranded_local (fun _ => .inl) (fun _ => .inl) (fun _ => id) h.children

end SlotLaw

/-- Between the steps of a worker: a connected socket with unsent data, or with a FIN that
was never handed to `xmit_flag_packet`, waits in the output queue. -/
theorem unsent_socks_queued {ok : Stack → StackEv → Prop} {nrDesc : Nat} {o : Oracles}
    (hn : Reach (stackStep cfg) ok (.boot cfg nrDesc o) n) (i : Nat)
    (hf : (n.socks i).freed = false)
    (hst : (n.socks i).state ∉ [TcpState.closed, .listen, .synSent, .synRcvd]) :
    ((n.socks i).snd.txq.nxt ≠ (n.socks i).snd.txq.write → i ∈ n.worker.output) ∧
      ((n.socks i).flags.finPending = true → (n.socks i).snd.finSent = false →
        i ∈ n.worker.output) := by
  have h : SlotLaw Unstranded [] n :=
    hn.invariant (.boot cfg nrDesc o) fun _ e h _ => h.unstranded_step e
  have hq : (n.socks i).AllSent ∨ i ∈ n.worker.output := by
    rcases (h.held i hf).queued with ha | hc | hl | hm | hm
    · exact .inl ha
    · exact absurd (show (n.socks i).state = .closed from hc) (by simp at hst; exact hst.1)
    · exact absurd (show (n.socks i).state = .listen from hl) (by simp at hst; exact hst.2.1)
    · exact .inr (h.sids i ▸ hm)
    · cases hm
  refine ⟨fun hne => hq.resolve_left fun ha => hne ha.data,
    fun hp hs => hq.resolve_left fun ha => ?_⟩
  rw [ha.fin hp] at hs
  cases hs

def stalledSend : List StackEv :=
  [.connect 0 false, .output, .input [(0, .bare 1 100 1 0 { syn := true, ack := true })],
    .call 0 (.write [.byte 97]), .output, .call 0 .close, .output]

def stalledWorker : Stack := .boot {} 4 { allocOk := List.replicate 8 true, ethOk := [true] }

theorem unsent_socks_queued_stalled :
    let n := exec (stackStep {}) stalledWorker stalledSend
    (n.socks 0).state = .finWait1 ∧ (n.socks 0).snd.txq.nxt ≠ (n.socks 0).snd.txq.write ∧
      (n.socks 0).flags.finPending = true ∧ (n.socks 0).snd.finSent = false ∧
      0 ∈ n.worker.output := by
  have hadm : Admitted (stackStep {}) (fun n e => e.Sound {} n) stalledWorker stalledSend := by
    decide +kernel
  have hlive : ((exec (stackStep {}) stalledWorker stalledSend).socks 0).freed = false := by
    decide +kernel
  have hst : ((exec (stackStep {}) stalledWorker stalledSend).socks 0).state = .finWait1 := by
    decide +kernel
  have hne : ((exec (stackStep {}) stalledWorker stalledSend).socks 0).snd.txq.nxt ≠
      ((exec (stackStep {}) stalledWorker stalledSend).socks 0).snd.txq.write := by
    decide +kernel
  have hfin : ((exec (stackStep {}) stalledWorker stalledSend).socks 0).flags.finPending = true ∧
      ((exec (stackStep {}) stalledWorker stalledSend).socks 0).snd.finSent = false := by
    decide +kernel
  have hn := Reach.refl.exec hadm
  generalize exec (stackStep {}) stalledWorker stalledSend = n at *
  have hq := unsent_socks_queued hn 0 hlive (by rw [hst]; decide)
  exact ⟨hst, hne, hfin.1, hfin.2, hq.1 hne⟩

end LibTpa
