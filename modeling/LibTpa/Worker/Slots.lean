/- LibTpa/Worker/Slots
   digest: Laws about a socket and its places in the queues, for all sockets of a worker. -/

import LibTpa.Worker.LoopAccept

/-!
A law speaks of one socket, of its places in `worker->output` and
`worker->delayed_ack`, and of the list of sockets that the running loop still has to
visit. The turn of one socket cannot break it for another one.
-/

set_option autoImplicit false

namespace LibTpa

open Lib.Run

variable {cfg : TcpCfg} {n n' : Stack} {i j : Nat} {s s' : St} {pend pend' : List Nat}
  {P : List Nat → St → Prop}

/-- The law is not broken by other sockets, and does not look at the events. -/
structure QueueLocal (P : List Nat → St → Prop) : Prop where
  keep : ∀ {pend pend' : List Nat} {s : St} {w : Worker},
    (s.tsock.sid ∈ s.worker.output → s.tsock.sid ∈ w.output ∨ s.tsock.sid ∈ pend') →
    (s.tsock.sid ∈ s.worker.delayedAck → s.tsock.sid ∈ w.delayedAck ∨ s.tsock.sid ∈ pend') →
    (s.tsock.sid ∈ pend → s.tsock.sid ∈ pend') → P pend s → P pend' ⟨w, s.tsock⟩
  events : ∀ {pend : List Nat} {s : St} (ev : Events), P pend s →
    P pend ⟨s.worker, { s.tsock with ev := ev }⟩

theorem QueueLocal.queues (hP : QueueLocal P) {w : Worker} {t : TcpSock}
    (ho : w.output = s.worker.output) (hd : w.delayedAck = s.worker.delayedAck) (ht : t = s.tsock)
    (hp : P pend s) : P pend ⟨w, t⟩ := by
  subst ht
  refine hP.keep ?_ ?_ id hp
  · rw [ho]
    exact .inl
  · rw [hd]
    exact .inl

structure SlotLaw (P : List Nat → St → Prop) (pend : List Nat) (n : Stack) : Prop where
  sids : ∀ i, (n.socks i).sid = i
  children : n.worker.children = []
  held : ∀ i, (n.socks i).freed = false → P pend (n.sockAt i)

theorem Visited.output (h : Visited s s') (hj : j ≠ s.tsock.sid)
    (hc : ∀ c ∈ s'.worker.children, j ≠ c.sid) : j ∈ s'.worker.output ↔ j ∈ s.worker.output := by
  have hone : ∀ {s₁ : St}, Turned Seats s₁ s' → s₁.tsock.sid = s.tsock.sid →
      (j ∈ s'.worker.output ↔ j ∈ s₁.worker.output) ∧
        s'.worker.children = s₁.worker.children := by
    intro s₁ ht hs
    rw [← hs] at hj
    cases ht with
    | stays ht => exact ⟨ht.queues.output j hj, ht.queues.children⟩
    | left ht => exact ⟨ht.queues.output j hj, ht.queues.children⟩
  cases h with
  | alone h => exact (hone h rfl).1
  | opens s₁ c ho h =>
    obtain ⟨hout, hch⟩ := hone h (by rw [ho.tsock])
    rw [hout]
    refine ho.output j (hc c ?_)
    rw [hch, ho.children]
    simp

theorem Visited.acks (h : Visited s s') (hj : j ≠ s.tsock.sid) :
    j ∈ s'.worker.delayedAck ↔ j ∈ s.worker.delayedAck := by
  have hone : ∀ {s₁ : St}, Turned Seats s₁ s' → s₁.tsock.sid = s.tsock.sid →
      (j ∈ s'.worker.delayedAck ↔ j ∈ s₁.worker.delayedAck) := by
    intro s₁ ht hs
    rw [← hs] at hj
    cases ht with
    | stays ht => exact ht.queues.acks j hj
    | left ht => exact ht.queues.acks j hj
  cases h with
  | alone h => exact hone h rfl
  | opens s₁ c ho h => rw [hone h (by rw [ho.tsock]), ho.acks]

namespace SlotLaw

theorem worker (hP : QueueLocal P) (h : SlotLaw P pend n) {w : Worker}
    (ho : ∀ j, j ∈ n.worker.output → j ∈ w.output ∨ j ∈ pend')
    (hd : ∀ j, j ∈ n.worker.delayedAck → j ∈ w.delayedAck ∨ j ∈ pend')
    (hp : ∀ j ∈ pend, j ∈ pend') (hc : w.children = []) :
    SlotLaw P pend' { n with worker := w } :=
  ⟨h.sids, hc, fun j hf => hP.keep (ho _) (hd _) (hp _) (h.held j hf)⟩

theorem visit (hP : QueueLocal P) (h : SlotLaw P pend n) (hv : Visited (n.sockAt i) s')
    (hself : s'.tsock.freed = false → P pend' s')
    (hborn : ∀ c ∈ s'.worker.children, P pend' ⟨s'.worker, c⟩)
    (hpend : ∀ j ∈ pend, j ≠ i → j ∈ pend') : SlotLaw P pend' (n.put i s').adopt := by
  have hsid : (n.sockAt i).tsock.sid = i := h.sids i
  have hs' : s'.tsock.sid = i := hv.sid.trans hsid
  have hclear : ∀ {t : TcpSock}, P pend' ⟨s'.worker, t⟩ →
      P pend' ⟨{ s'.worker with children := [] }, t⟩ :=
    fun {t} hp => hP.queues (s := ⟨s'.worker, t⟩) rfl rfl rfl hp
  -- the sockets other than the one whose turn it is, unless a new one takes their slot
  have hother : ∀ j, j ≠ i → (∀ c ∈ s'.worker.children, j ≠ c.sid) → (n.socks j).freed = false →
      P pend' ⟨s'.worker, n.socks j⟩ := by
    intro j hj hc hf
    have hjs := h.sids j
    refine hP.keep (s := n.sockAt j) ?_ ?_ ?_ (h.held j hf)
    · change (n.socks j).sid ∈ n.worker.output → _
      intro hm
      rw [hjs] at hm
      left
      change (n.socks j).sid ∈ _
      rw [hjs]
      exact (hv.output (by rw [hsid]; exact hj) hc).mpr hm
    · change (n.socks j).sid ∈ n.worker.delayedAck → _
      intro hm
      rw [hjs] at hm
      left
      change (n.socks j).sid ∈ _
      rw [hjs]
      exact (hv.acks (by rw [hsid]; exact hj)).mpr hm
    · change (n.socks j).sid ∈ pend → (n.socks j).sid ∈ pend'
      rw [hjs]
      exact fun hm => hpend j hm hj
  have hsids : ∀ j, ((n.put i s').socks j).sid = j := by
    intro j
    by_cases hji : j = i
    · subst hji
      rw [Stack.put_self]
      exact hs'
    · rw [n.put_ne s' hji]
      exact h.sids j
  have hheld : ∀ j, (∀ c ∈ s'.worker.children, j ≠ c.sid) → ((n.put i s').socks j).freed = false →
      P pend' ⟨s'.worker, (n.put i s').socks j⟩ := by
    intro j hc hf
    by_cases hji : j = i
    · subst hji
      rw [Stack.put_self] at hf ⊢
      exact hself hf
    · rw [n.put_ne s' hji] at hf ⊢
      exact hother j hji hc hf
  rcases hv.children h.children with hc | ⟨c, hc, hnew⟩
  · rw [Stack.adopt_nil (n := n.put i s') hc]
    refine ⟨hsids, hc, fun j => hheld j fun c hm => ?_⟩
    rw [hc] at hm
    cases hm
  · rw [Stack.adopt_one (n := n.put i s') hc]
    refine ⟨fun j => ?_, rfl, fun j hf => ?_⟩
    all_goals dsimp only [Stack.sockAt] at *
    all_goals by_cases hjc : j = c.sid
    · rw [hjc, Function.update_self]
    · rw [Function.update_of_ne hjc]
      exact hsids j
    · rw [hjc, Function.update_self]
      exact hclear (hborn c (by rw [hc]; exact List.mem_singleton_self c))
    · rw [Function.update_of_ne hjc] at hf ⊢
      refine hclear (hheld j (fun c' hm => ?_) hf)
      rw [hc, List.mem_singleton] at hm
      rw [hm]
      exact hjc

theorem turned (hP : QueueLocal P) (h : SlotLaw P pend n) (ht : Turned Seats (n.sockAt i) s')
    (hself : s'.tsock.freed = false → P pend' s') (hpend : ∀ j ∈ pend, j ≠ i → j ∈ pend') :
    SlotLaw P pend' (n.put i s').adopt := by
  refine h.visit hP (.alone ht) hself (fun c hm => ?_) hpend
  have hc : s'.worker.children = [] := by
    cases ht with
    | stays ht => exact ht.queues.children.trans h.children
    | left ht => exact ht.queues.children.trans h.children
  rw [hc] at hm
  cases hm

theorem ifLive (hP : QueueLocal P) (h : SlotLaw P [] n) {f : St → St}
    (ht : Turned Stays (n.sockAt i) (f (n.sockAt i)))
    (hself : (n.socks i).freed = false → (f (n.sockAt i)).tsock.freed = false →
      P [] (f (n.sockAt i))) : SlotLaw P [] (ifLive n i f) := by
  unfold LibTpa.ifLive
  split
  · exact h
  · next hf => exact h.turned hP ht.seats (hself (by simpa using hf)) fun j hj _ => hj

theorem opened (hP : QueueLocal P) (h : SlotLaw P [] n) (hs : s'.tsock.sid = i)
    (ho : ∀ j, j ≠ i → (j ∈ s'.worker.output ↔ j ∈ n.worker.output))
    (hd : s'.worker.delayedAck = n.worker.delayedAck) (hc : s'.worker.children = n.worker.children)
    (hself : P [] s') : SlotLaw P [] (n.opened i s') := by
  have hput : (n.opened i s').socks i = s'.tsock := n.put_self i s'
  have hne : ∀ j, j ≠ i → (n.opened i s').socks j = n.socks j := fun j hj => n.put_ne s' hj
  refine ⟨fun j => ?_, hc.trans h.children, fun j hf => ?_⟩
  all_goals by_cases hji : j = i
  · rw [hji, hput]
    exact hs
  · rw [hne j hji]
    exact h.sids j
  · change P [] ⟨s'.worker, (n.opened i s').socks j⟩
    rw [hji, hput]
    exact hself
  · rw [hne j hji] at hf
    change P [] ⟨s'.worker, (n.opened i s').socks j⟩
    rw [hne j hji]
    refine hP.keep (s := n.sockAt j) ?_ ?_ id (h.held j hf)
    · change (n.socks j).sid ∈ n.worker.output → (n.socks j).sid ∈ s'.worker.output ∨ _
      rw [h.sids j, ho j hji]
      exact .inl
    · change (n.socks j).sid ∈ n.worker.delayedAck → (n.socks j).sid ∈ s'.worker.delayedAck ∨ _
      rw [hd]
      exact .inl

theorem eventCtrl (hP : QueueLocal P) (h : SlotLaw P [] n) (op : EventCtrl) (m : BitVec 32)
    (data : Nat) : SlotLaw P [] (tpaEventCtrl n i op m data).2 := by
  rcases tpaEventCtrl_put n i op m data with he | ⟨hlive, s', hs, hev, hw, he⟩
  · rw [he]
    exact h
  · rw [he]
    have hc : (n.put i s').worker.children = [] := hs.queues.children.trans h.children
    have hok : SlotLaw P [] (n.put i s').adopt := by
      refine h.turned hP (.stays hs.toSeats) (fun _ => ?_) fun j hj _ => hj
      have hp := hP.events s'.tsock.ev (h.held i hlive)
      have hp' : P [] ⟨s'.worker, s'.tsock⟩ := by
        rw [hw, hev]
        exact hP.queues rfl rfl rfl hp
      exact hp'
    rwa [Stack.adopt_nil hc] at hok

theorem eventPoll (hP : QueueLocal P) (h : SlotLaw P [] n) (max : Int) :
    SlotLaw P [] (tpaEventPoll n max).2 := by
  obtain ⟨-, hev⟩ := pollLoop_keeps n.worker.eventQueue max.toNat n.socks
  have hsock : ∀ j, ∃ ev, (tpaEventPoll n max).2.socks j = { n.socks j with ev := ev } := hev
  refine ⟨fun j => ?_, h.children, fun j hf => ?_⟩
  all_goals obtain ⟨ev, he⟩ := hsock j
  · rw [he]
    exact h.sids j
  · rw [he] at hf
    have hp := hP.events ev (h.held j hf)
    unfold Stack.sockAt
    rw [he]
    exact hP.queues rfl rfl rfl hp

theorem acceptBurst (hP : QueueLocal P) (h : SlotLaw P [] n) (nr : Nat) :
    SlotLaw P [] (tpaAcceptBurst n nr).2 :=
  ⟨h.sids, h.children, fun j hf => hP.queues rfl rfl rfl (h.held j hf)⟩

theorem boot (cfg : TcpCfg) (nrDesc : Nat) (o : Oracles) : SlotLaw P [] (.boot cfg nrDesc o) :=
  ⟨fun _ => rfl, rfl, fun _ hf => (nomatch hf)⟩

end SlotLaw

end LibTpa
