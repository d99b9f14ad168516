/- LibTpa/Worker/LoopAccept
   digest: A passive connection is in its handshake, waits to be accepted or was accepted. -/

import LibTpa.Worker.LoopQueues
import LibTpa.Conn.Handshake

set_option autoImplicit false

namespace LibTpa

open Lib.Run

variable {cfg : TcpCfg} {n n' : Stack} {i j : Nat} {s s' : St} {pend pend' : List Nat}

/-- No passive socket is lost; those that are about to be released are still to be
visited in this burst. -/
structure AcceptLaw (pend : List Nat) (n : Stack) : Prop where
  sids : ∀ i, (n.socks i).sid = i
  children : n.worker.children = []
  held : ∀ i, (n.socks i).freed = false → (n.socks i).passiveConnection = true →
    n.accepted i = true ∨ Kept (n.sockAt i)
  put : ∀ i, (n.socks i).freed = false → (n.socks i).flags.put = true → i ∈ pend

theorem Visited.accept (h : Visited s s') (hj : j ≠ s.tsock.sid) :
    j ∈ s'.worker.accept ↔ j ∈ s.worker.accept := by
  have hone : ∀ {s₁ : St}, Turned Seats s₁ s' → s₁.tsock.sid = s.tsock.sid →
      (j ∈ s'.worker.accept ↔ j ∈ s₁.worker.accept) := by
    intro s₁ ht hs
    rw [← hs] at hj
    cases ht with
    | stays ht => exact ht.queues.accept j hj
    | left ht => exact ht.queues.accept j hj
  cases h with
  | alone h => exact hone h rfl
  | opens s₁ c ho h => rw [hone h (by rw [ho.tsock]), ho.accept]

theorem Visited.children (h : Visited s s') (hc : s.worker.children = []) :
    s'.worker.children = [] ∨ ∃ c, s'.worker.children = [c] ∧ Newborn c := by
  have hone : ∀ {s₁ : St}, Turned Seats s₁ s' → s'.worker.children = s₁.worker.children := by
    intro s₁ ht
    cases ht with
    | stays ht => exact ht.queues.children
    | left ht => exact ht.queues.children
  cases h with
  | alone h => exact .inl ((hone h).trans hc)
  | opens s₁ c ho h =>
    refine .inr ⟨c, ?_, ho.child⟩
    rw [hone h, ho.children, hc]
    rfl

def FreshFins (cfg : TcpCfg) (n : Stack) (i : Nat) (e : ConnEv) : Prop :=
  ∀ p ∈ processed cfg (n.sockAt i) e, FreshFin (n.sockAt i) p

instance (cfg : TcpCfg) (n : Stack) (i : Nat) (e : ConnEv) : Decidable (FreshFins cfg n i e) :=
  inferInstanceAs (Decidable (∀ _ ∈ _, _))

def BurstFins (cfg : TcpCfg) (n : Stack) (burst : List (Nat × Packet)) : Prop :=
  Admitted (inputOne cfg) (fun n r => FreshFins cfg n r.1 (.packet r.2)) n burst ∧
    Admitted (inputVisit cfg) (fun n i => FreshFins cfg n i .burstEnd)
      (exec (inputOne cfg) n burst) (inputTsocks burst)

instance (cfg : TcpCfg) (n : Stack) (burst : List (Nat × Packet)) :
    Decidable (BurstFins cfg n burst) :=
  inferInstanceAs (Decidable (_ ∧ _))

def StackEv.Given (n : Stack) : StackEv → Prop
  | .call _ .dropOoo => True
  | .call i _ => (n.socks i).passiveConnection = true → n.accepted i = true
  | _ => True

instance (n : Stack) : (e : StackEv) → Decidable (e.Given n)
  | .call i (.write _) | .call i (.read _) | .call i .close =>
    inferInstanceAs (Decidable ((n.socks i).passiveConnection = true → n.accepted i = true))
  | .call _ .dropOoo | .input _ | .output | .timer _ _ | .neighReady _ | .acceptBurst _
  | .connect _ _ | .listen _ _ | .eventCtrl _ _ _ _ | .eventPoll _ | .world _ _ _ _ =>
    isTrue trivial

/-- No FIN with an old ACK ends a handshake, and the sockets that wait for
`tpa_accept_burst` are still open. -/
def StackEv.Acceptable (cfg : TcpCfg) (n : Stack) : StackEv → Prop
  | .input burst => BurstFins cfg n burst
  | .acceptBurst _ => ∀ i ∈ n.worker.accept, (n.socks i).freed = false →
      (n.socks i).state = .established ∨ (n.socks i).state = .closeWait
  | _ => True

instance (cfg : TcpCfg) (n : Stack) : (e : StackEv) → Decidable (e.Acceptable cfg n)
  | .input burst => inferInstanceAs (Decidable (BurstFins cfg n burst))
  | .acceptBurst _ => inferInstanceAs (Decidable (∀ i ∈ n.worker.accept, (n.socks i).freed = false →
      (n.socks i).state = .established ∨ (n.socks i).state = .closeWait))
  | .output | .timer _ _ | .call _ _ | .neighReady _ | .connect _ _ | .listen _ _
  | .eventCtrl _ _ _ _ | .eventPoll _ | .world _ _ _ _ => isTrue trivial

namespace AcceptLaw

theorem mono (h : AcceptLaw pend n) (hp : ∀ j ∈ pend, j ∈ pend') : AcceptLaw pend' n :=
  ⟨h.sids, h.children, h.held, fun i hi hput => hp i (h.put i hi hput)⟩

theorem worker (h : AcceptLaw pend n) {w : Worker} (ha : w.accept = n.worker.accept)
    (hc : w.children = []) : AcceptLaw pend { n with worker := w } := by
  refine ⟨h.sids, hc, fun i hi hp => (h.held i hi hp).imp_right fun hk => ?_, h.put⟩
  exact hk.imp_right fun hk => hk.imp_left fun hk => ha ▸ hk

theorem visit (h : AcceptLaw pend n) (hv : Visited (n.sockAt i) s')
    (hself : s'.tsock.freed = false → Kept (n.sockAt i) → n.accepted i = true ∨ Kept s')
    (hput : s'.tsock.freed = false → s'.tsock.flags.put = true → i ∈ pend')
    (hpend : ∀ j ∈ pend, j ≠ i → j ∈ pend') : AcceptLaw pend' (n.put i s').adopt := by
  have hsid : (n.sockAt i).tsock.sid = i := h.sids i
  have hs' : s'.tsock.sid = i := hv.sid.trans hsid
  -- the law as it stands before a new socket moves in
  have hmid : (∀ j, ((n.put i s').socks j).sid = j) ∧
      (∀ j, ((n.put i s').socks j).freed = false →
        ((n.put i s').socks j).passiveConnection = true →
        n.accepted j = true ∨ Kept ⟨s'.worker, (n.put i s').socks j⟩) ∧
      ∀ j, ((n.put i s').socks j).freed = false →
        ((n.put i s').socks j).flags.put = true → j ∈ pend' := by
    refine ⟨fun j => ?_, fun j hf hp => ?_, fun j hf hp => ?_⟩
    all_goals by_cases hji : j = i
    · subst hji
      rw [Stack.put_self]
      exact hs'
    · rw [n.put_ne s' hji]
      exact h.sids j
    · subst hji
      rw [Stack.put_self] at hf hp ⊢
      obtain ⟨hf₀, hp₀⟩ := hv.live hf
      exact (h.held j hf₀ (hp₀ ▸ hp)).elim .inl (hself hf)
    · rw [n.put_ne s' hji] at hf hp ⊢
      refine (h.held j hf hp).imp_right fun hk => hk.imp_right fun hk => hk.imp_left fun hm => ?_
      have hsj := h.sids j
      change (n.socks j).sid ∈ n.worker.accept at hm
      rw [hsj] at hm ⊢
      exact (hv.accept (by rw [hsid]; exact hji)).mpr hm
    · subst hji
      rw [Stack.put_self] at hf hp
      exact hput hf hp
    · rw [n.put_ne s' hji] at hf hp
      exact hpend j (h.put j hf hp) hji
  obtain ⟨hsids, hheld, hputs⟩ := hmid
  rcases hv.children h.children with hc | ⟨c, hc, hnew⟩
  · rw [Stack.adopt_nil (n := n.put i s') hc]
    exact ⟨hsids, hc, hheld, hputs⟩
  · rw [Stack.adopt_one (n := n.put i s') hc]
    refine ⟨fun j => ?_, rfl, fun j hf hp => ?_, fun j hf hp => ?_⟩
    all_goals dsimp only [Stack.sockAt] at *
    all_goals by_cases hjc : j = c.sid
    · rw [hjc, Function.update_self]
    · rw [Function.update_of_ne hjc]
      exact hsids j
    · refine .inr (.inl ?_)
      rw [hjc, Function.update_self]
      exact hnew.greeting
    · rw [Function.update_of_ne hjc] at hf hp ⊢
      rw [Function.update_of_ne hjc]
      exact hheld j hf hp
    · rw [hjc, Function.update_self, hnew.put] at hp
      cases hp
    · rw [Function.update_of_ne hjc] at hf hp
      exact hputs j hf hp

theorem turned (h : AcceptLaw [] n) (ht : Turned Stays (n.sockAt i) s')
    (hg : Greeting (n.socks i) → n.accepted i = true ∨ s'.tsock.freed = true ∨ Greeting s'.tsock) :
    AcceptLaw [] (n.put i s').adopt := by
  refine h.visit (.alone ht.seats) (fun hf hk => ?_) (fun hf hput => ?_) fun j hj _ => hj
  · rcases hk with hg' | hk
    · rcases hg hg' with ha | hfr | hg''
      · exact .inl ha
      · rw [hf] at hfr
        cases hfr
      · exact .inr (.inl hg'')
    · cases ht with
      | stays ht => exact .inr (.later hk ht.toSeats)
      | left ht =>
        rw [ht.freed] at hf
        cases hf
  · cases ht with
    | stays ht =>
      have hf₀ : (n.socks i).freed = false := ht.freed.symm.trans hf
      exact h.put i hf₀ (ht.same.symm.trans hput)
    | left ht =>
      rw [ht.freed] at hf
      cases hf

/-! The loops. -/

theorem inputOnes (burst : List (Nat × Packet)) :
    ∀ {n : Stack} {pend : List Nat}, AcceptLaw pend n →
    Admitted (inputOne cfg) (fun n r => FreshFins cfg n r.1 (.packet r.2)) n burst →
    AcceptLaw (pend ++ burst.map Prod.fst) (exec (inputOne cfg) n burst) := by
  induction burst with
  | nil =>
    intro n pend h _
    rw [List.map_nil, List.append_nil]
    exact h
  | cons r burst ih =>
    intro n pend h hadm
    have hturn : AcceptLaw (pend ++ [r.1]) (inputOne cfg n r) := by
      refine h.visit ((inputPacket_heard cfg (n.sockAt r.1) r.2).visited (.stays (.refl _)))
        (fun _ hk => .inr (hk.inputPacket cfg hadm.1)) (fun _ _ => by simp) fun j hj _ => ?_
      exact List.mem_append_left _ hj
    have hrest := ih hturn hadm.2
    rw [List.append_assoc] at hrest
    exact hrest

theorem inputVisits (tsocks : List Nat) : ∀ {n : Stack}, AcceptLaw tsocks n →
    Admitted (inputVisit cfg) (fun n i => FreshFins cfg n i .burstEnd) n tsocks →
    AcceptLaw [] (exec (inputVisit cfg) n tsocks) := by
  induction tsocks with
  | nil => exact fun h _ => h
  | cons i tsocks ih =>
    intro n h hadm
    have hturn : AcceptLaw tsocks (inputVisit cfg n i) := by
      refine h.visit (inputEnd_visited cfg (n.sockAt i)) (fun hf hk => ?_) (fun _ hput => ?_)
        fun j hj hji => (List.mem_cons.mp hj).resolve_left hji
      · rcases hk.inputEnd cfg hadm.1 with hfr | hk'
        · rw [hf] at hfr
          cases hfr
        · exact .inr hk'
      · rw [(inputEnd_settled cfg (n.sockAt i)).put] at hput
        cases hput
    exact ih hturn hadm.2

theorem outputOnes (tsocks : List Nat) : ∀ {n : Stack}, AcceptLaw [] n →
    AcceptLaw [] (exec (fun n i => n.turn i (tcpOutputOne cfg)) n tsocks) := by
  induction tsocks with
  | nil => exact fun h => h
  | cons i tsocks ih =>
    intro n h
    refine ih (h.turned (.tcpOutputOne cfg _) fun hg => .inr (.inr ?_))
    exact Greeting.tcpOutputOne (s := n.sockAt i) hg cfg

theorem flushDelayedAck (rounds : Nat) : ∀ {n : Stack}, AcceptLaw [] n →
    AcceptLaw [] (flushDelayedAck cfg rounds n) := by
  induction rounds with
  | zero => exact fun h => h
  | succ rounds ih =>
    intro n h
    unfold LibTpa.flushDelayedAck
    split
    · exact h
    next i rest hq =>
    split
    · exact ih (h.worker rfl h.children)
    split
    · exact h
    refine ih (AcceptLaw.worker ?_ rfl rfl)
    refine h.turned (.stays (QueuesOk.xmitDueAck cfg _).stays) fun hg => .inr (.inr ?_)
    unfold xmitDueAck
    split
    · exact Greeting.quiet (s := n.sockAt i) hg (.xmitFlagPacket cfg _)
    · exact hg

theorem ifLive {f : St → St} (h : AcceptLaw [] n)
    (ht : Turned Stays (n.sockAt i) (f (n.sockAt i)))
    (hg : Greeting (n.socks i) → n.accepted i = true ∨ (f (n.sockAt i)).tsock.freed = true ∨
      Greeting (f (n.sockAt i)).tsock) : AcceptLaw [] (ifLive n i f) := by
  unfold LibTpa.ifLive
  split
  · exact h
  · exact h.turned ht hg

end AcceptLaw

theorem acceptLoop_all (socks : Nat → TcpSock) (queue : List Nat) (hs : ∀ j, (socks j).sid = j)
    (hst : ∀ j ∈ queue, (socks j).freed = false →
      (socks j).state = .established ∨ (socks j).state = .closeWait) : ∀ room,
    ∀ j ∈ queue, (socks j).freed = false →
      j ∈ (acceptLoop socks queue room).1 ∨ j ∈ (acceptLoop socks queue room).2 := by
  induction queue with
  | nil => exact fun room j hj => nomatch hj
  | cons i queue ih =>
    intro room j hj hf
    cases room with
    | zero => exact .inr hj
    | succ room =>
      specialize ih fun j hj => hst j (List.mem_cons_of_mem _ hj)
      unfold acceptLoop
      rcases List.mem_cons.mp hj with rfl | hm
      · rw [if_neg (by simp [hf]), if_neg]
        · exact .inl (by rw [hs j]; exact List.mem_cons_self ..)
        · have := hst j (List.mem_cons_self ..) hf
          tauto
      · split
        · exact ih _ j hm hf
        split
        · exact ih _ j hm hf
        · exact (ih room j hm hf).imp_left (List.mem_cons_of_mem _)

theorem inputTsocks_mem {burst : List (Nat × Packet)} (h : i ∈ burst.map Prod.fst) :
    i ∈ inputTsocks burst := by
  induction burst using List.reverseRecOn with
  | nil => cases h
  | append_singleton burst r ih =>
    unfold inputTsocks
    rw [List.foldl_append]
    change i ∈ queueInputTsock (inputTsocks burst) r.1
    unfold queueInputTsock
    rw [List.map_append, List.mem_append] at h
    rcases h with h | h
    · split
      · exact ih h
      · exact List.mem_append_left _ (ih h)
    · rw [List.map_singleton, List.mem_singleton] at h
      subst h
      split
      · next hl => exact List.mem_of_getLast? hl
      · simp

namespace AcceptLaw

theorem call (h : AcceptLaw [] n) (c : SockCall) (hg : (StackEv.call i c).Given n) :
    AcceptLaw [] (LibTpa.ifLive n i fun s => sockStep cfg s c.event) := by
  cases c with
  | write iov =>
    exact h.ifLive (.stays (WriteFrame.tsockZwritev cfg (n.sockAt i) iov).frame.stays)
      fun hgr => .inl (hg hgr.passive)
  | read nr =>
    exact h.ifLive (.stays (.tsockZreadv (n.sockAt i) nr)) fun hgr => .inl (hg hgr.passive)
  | close => exact h.ifLive (.stays (.tpaClose (n.sockAt i))) fun hgr => .inl (hg hgr.passive)
  | dropOoo =>
    refine h.ifLive (.stays (.of_eq rfl rfl rfl rfl rfl)) fun hgr => ?_
    exact .inr (.inr (hgr.same rfl rfl rfl rfl rfl))

theorem eventCtrl (h : AcceptLaw [] n) (op : EventCtrl) (m : BitVec 32) (data : Nat) :
    AcceptLaw [] (tpaEventCtrl n i op m data).2 := by
  rcases tpaEventCtrl_put n i op m data with he | ⟨-, s', hs, hev, -, he⟩
  · rw [he]
    exact h
  · rw [he]
    have hc : (n.put i s').worker.children = [] := hs.queues.children.trans h.children
    have hok : AcceptLaw [] (n.put i s').adopt := by
      refine h.turned (.stays hs) fun hg => .inr (.inr ?_)
      rw [hev]
      exact hg.same rfl rfl rfl rfl rfl
    rwa [Stack.adopt_nil hc] at hok

theorem acceptBurst (h : AcceptLaw [] n) (nr : Nat)
    (hg : (StackEv.acceptBurst nr).Acceptable cfg n) :
    AcceptLaw [] (tpaAcceptBurst n nr).2 := by
  refine ⟨h.sids, h.children, fun i hi hp => ?_, h.put⟩
  change (n.accepted i || (acceptLoop n.socks n.worker.accept nr).1.contains i) = true ∨ _
  rcases h.held i hi hp with ha | hgr | hm | hput
  · exact .inl (by rw [ha]; rfl)
  · exact .inr (.inl hgr)
  · change (n.socks i).sid ∈ n.worker.accept at hm
    rw [h.sids i] at hm
    rcases acceptLoop_all n.socks n.worker.accept h.sids hg nr i hm hi with hr | hr
    · exact .inl (by simp [hr])
    · refine .inr (.inr (.inl ?_))
      change (n.socks i).sid ∈ _
      rw [h.sids i]
      exact hr
  · exact .inr (.inr (.inr hput))

theorem opened (h : AcceptLaw [] n) (hp : s'.tsock.passiveConnection = false)
    (hs : s'.tsock.sid = i) (hput : s'.tsock.flags.put = false)
    (ha : s'.worker.accept = n.worker.accept) (hc : s'.worker.children = n.worker.children) :
    AcceptLaw [] (n.opened i s') := by
  have hself : (n.opened i s').socks i = s'.tsock := n.put_self i s'
  have hne : ∀ j, j ≠ i → (n.opened i s').socks j = n.socks j := fun j hj => n.put_ne s' hj
  refine ⟨fun j => ?_, hc.trans h.children, fun j hf hpj => ?_, fun j hf hpj => ?_⟩
  all_goals by_cases hji : j = i
  · rw [hji, hself]
    exact hs
  · rw [hne j hji]
    exact h.sids j
  · rw [hji, hself, hp] at hpj
    cases hpj
  · rw [hne j hji] at hf hpj
    change Function.update n.accepted i false j = true ∨ Kept ⟨s'.worker, (n.opened i s').socks j⟩
    rw [Function.update_of_ne hji, hne j hji]
    refine (h.held j hf hpj).imp_right fun hk => hk.imp_right fun hk => hk.imp_left fun hk => ?_
    exact ha ▸ hk
  · rw [hji, hself, hput] at hpj
    cases hpj
  · rw [hne j hji] at hf hpj
    exact h.put j hf hpj

theorem eventPoll (h : AcceptLaw [] n) (max : Int) : AcceptLaw [] (tpaEventPoll n max).2 := by
  obtain ⟨-, hev⟩ := pollLoop_keeps n.worker.eventQueue max.toNat n.socks
  have hsock : ∀ j, ∃ ev, (tpaEventPoll n max).2.socks j = { n.socks j with ev := ev } := hev
  refine ⟨fun j => ?_, h.children, fun j hf hp => ?_, fun j hf hp => ?_⟩
  all_goals obtain ⟨ev, he⟩ := hsock j
  · rw [he]
    exact h.sids j
  · rw [he] at hf hp
    refine (h.held j hf hp).imp_right fun hk => ?_
    unfold Kept Stack.sockAt
    rw [he]
    exact hk.imp_left fun hg => hg.same rfl rfl rfl rfl rfl
  · rw [he] at hf hp
    exact h.put j hf hp

theorem step (h : AcceptLaw [] n) (hr : 0 < cfg.retries) (e : StackEv) (hg : e.Given n)
    (ha : e.Acceptable cfg n) : AcceptLaw [] (stackStep cfg n e) := by
  cases e with
  | input burst =>
    have h₁ := h.inputOnes burst ha.1
    exact (h₁.mono fun j hj => inputTsocks_mem hj).inputVisits _ ha.2
  | output => exact AcceptLaw.flushDelayedAck _ (AcceptLaw.outputOnes _ (h.worker rfl h.children))
  | timer i k =>
    exact h.ifLive (.tcpTimeout cfg _ k) fun hgr =>
      .inr (Greeting.tcpTimeout (s := n.sockAt i) hgr hr k)
  | call i c => exact h.call c hg
  | neighReady i =>
    refine h.turned (.stays (.of_eq rfl rfl rfl rfl rfl)) fun hgr => ?_
    exact .inr (.inr (hgr.same rfl rfl rfl rfl rfl))
  | acceptBurst nr => exact h.acceptBurst nr ha
  | connect i isIpv6 => exact h.opened rfl rfl rfl rfl rfl
  | listen i isIpv6 => exact h.opened rfl rfl rfl rfl rfl
  | eventCtrl i op m data => exact h.eventCtrl op m data
  | eventPoll max => exact h.eventPoll max
  | world => exact h.worker rfl h.children

theorem boot (cfg : TcpCfg) (nrDesc : Nat) (o : Oracles) : AcceptLaw [] (.boot cfg nrDesc o) :=
  ⟨fun _ => rfl, rfl, fun _ hf => (nomatch hf), fun _ hf => (nomatch hf)⟩

end AcceptLaw

/-- No accepted connection is lost: a passive socket in use is in its handshake, which the
RTO timer ends, or waits in the accept queue, or was returned by `tpa_accept_burst`. -/
theorem passive_sockets_held (hr : 0 < cfg.retries) {nrDesc : Nat} {o : Oracles}
    (hn : Reach (stackStep cfg) (fun n e => e.Sound cfg n ∧ e.Given n ∧ e.Acceptable cfg n)
      (.boot cfg nrDesc o) n) (i : Nat) (hf : (n.socks i).freed = false)
    (hp : (n.socks i).passiveConnection = true) :
    ((n.socks i).state = .synRcvd ∧ (n.socks i).timers.rto ≠ none) ∨ i ∈ n.worker.accept ∨
      n.accepted i = true := by
  have h : AcceptLaw [] n :=
    hn.invariant (.boot cfg nrDesc o) fun _ e h he => h.step hr e he.2.1 he.2.2
  rcases h.held i hf hp with ha | hg | hm | hput
  · exact .inr (.inr ha)
  · exact .inl ⟨hg.state, hg.rto⟩
  · change (n.socks i).sid ∈ n.worker.accept at hm
    rw [h.sids i] at hm
    exact .inr (.inl hm)
  · cases h.put i hf hput

def serverOracles : Oracles :=
  { allocOk := List.replicate 8 true, ethOk := [true], sockOk := [true], slots := [1] }

def clientConnects : List StackEv :=
  [.listen 0 false, .input [(0, .bare 1 100 0 0 { syn := true })],
    .input [(1, .bare 2 101 1 0 { ack := true })]]

theorem passive_sockets_held_accepted :
    let n := exec (stackStep {}) (.boot {} 0 serverOracles) (clientConnects ++ [.acceptBurst 4])
    (n.socks 1).freed = false ∧ (n.socks 1).state = .established ∧ 1 ∉ n.worker.accept ∧
      n.accepted 1 = true := by
  have hadm : Admitted (stackStep {})
      (fun n e => e.Sound {} n ∧ e.Given n ∧ e.Acceptable {} n) (.boot {} 0 serverOracles)
      (clientConnects ++ [.acceptBurst 4]) := by decide +kernel
  have hst : ((exec (stackStep {}) (.boot {} 0 serverOracles)
      (clientConnects ++ [.acceptBurst 4])).socks 1).state = .established := by decide +kernel
  have hout : 1 ∉ (exec (stackStep {}) (.boot {} 0 serverOracles)
      (clientConnects ++ [.acceptBurst 4])).worker.accept := by decide +kernel
  refine ⟨by decide +kernel, hst, hout, ?_⟩
  rcases passive_sockets_held (by decide) (Reach.refl.exec hadm) 1 (by decide +kernel)
    (by decide +kernel) with ⟨hs, -⟩ | hm | ha
  · exact TcpState.noConfusion (hst.symm.trans hs)
  · exact absurd hm hout
  · exact ha

def clientResets : List StackEv :=
  clientConnects ++
    [.input [(1, .bare 3 101 1 0 { rst := true })], .acceptBurst 4]

/-- The socket is dropped from the queue, and no one will ever see or free it. -/
theorem clientResets_loses :
    ∃ n, Reach (stackStep {}) (fun n e => e.Sound {} n ∧ e.Given n) (.boot {} 0 serverOracles) n ∧
      (n.socks 1).freed = false ∧ (n.socks 1).passiveConnection = true ∧
      (n.socks 1).state = .closed ∧ 1 ∉ n.worker.accept ∧ n.accepted 1 = false ∧
      (n.socks 1).timers.rto = none ∧ (n.socks 1).timers.wait = none := by
  refine ⟨exec (stackStep {}) (.boot {} 0 serverOracles) clientResets, Reach.refl.exec ?_, ?_⟩ <;>
    decide +kernel

end LibTpa
