/- LibTpa/Worker/LoopQueues
   digest: Only sockets in use wait in the queues of a worker. -/

import LibTpa.Worker.Loop
import LibTpa.Conn.Seats

set_option autoImplicit false

namespace LibTpa

open Lib.Run

variable {cfg : TcpCfg} {n n' : Stack} {i j : Nat} {s s' : St}

/-- A socket in use knows its slot, and only such sockets are queued. -/
structure QueuesOk (n : Stack) : Prop where
  sids : ∀ i, (n.socks i).freed = false → (n.socks i).sid = i
  live : ∀ i, n.worker.Queued i → (n.socks i).freed = false
  children : n.worker.children = []

theorem Stack.adopt_nil (h : n.worker.children = []) : n.adopt = n := by
  obtain ⟨w, socks, accepted⟩ := n
  unfold Stack.adopt
  cases w
  cases h
  rfl

theorem Stack.adopt_one {c : TcpSock} (h : n.worker.children = [c]) :
    n.adopt = ⟨{ n.worker with children := [] }, Function.update n.socks c.sid c,
      Function.update n.accepted c.sid false⟩ := by
  unfold Stack.adopt
  rw [h]
  rfl

structure TurnOk (n : Stack) (i : Nat) (s' : St) (n' : Stack) : Prop where
  ok : QueuesOk n'
  self : n'.socks i = s'.tsock
  others : ∀ j, j ≠ i → (n.socks j).freed = false → n'.socks j = n.socks j

theorem TurnOk.of_queued (h : QueuesOk n) (hi : (n.socks i).freed = false)
    (hsid : s'.tsock.freed = false → s'.tsock.sid = i)
    (hself : s'.worker.Queued i → s'.tsock.freed = false)
    (hq : ∀ j, j ≠ i → s'.worker.Queued j → (n.socks j).freed = false)
    (hc : s'.worker.children = []) : TurnOk n i s' (n.put i s').adopt := by
  rw [Stack.adopt_nil hc]
  refine ⟨⟨fun j hj => ?_, fun j hj => ?_, hc⟩, Stack.put_self .., fun j hj _ => n.put_ne s' hj⟩
  · by_cases hji : j = i
    · subst hji
      rw [Stack.put_self] at hj ⊢
      exact hsid hj
    · rw [n.put_ne s' hji] at hj ⊢
      exact h.sids j hj
  · by_cases hji : j = i
    · subst hji
      rw [Stack.put_self]
      exact hself hj
    · rw [n.put_ne s' hji]
      exact hq j hji hj

namespace QueuesOk

theorem sid (h : QueuesOk n) (hi : (n.socks i).freed = false) : (n.sockAt i).tsock.sid = i :=
  h.sids i hi

theorem turned (h : QueuesOk n) (hi : (n.socks i).freed = false)
    (ht : Turned Seats (n.sockAt i) s') :
    TurnOk n i s' (n.put i s').adopt := by
  have hown : OwnSeats (n.sockAt i) s' := by
    cases ht with
    | stays ht => exact ht.queues
    | left ht => exact ht.queues
  have hsid : s'.tsock.sid = i := by
    cases ht with
    | stays ht => exact ht.sid.trans (h.sid hi)
    | left ht => exact ht.sid.trans (h.sid hi)
  refine .of_queued h hi (fun _ => hsid) (fun hq => ?_) (fun j hj hq => ?_)
    (hown.children.trans h.children)
  · cases ht with
    | stays ht => exact ht.freed.trans hi
    | left ht =>
      have hgone := ht.gone
      rw [h.sid hi] at hgone
      unfold Worker.Queued at hq
      tauto
  · exact h.live j ((hown.queued (by rw [h.sid hi]; exact hj)).mp hq)

theorem visited (h : QueuesOk n) (hi : (n.socks i).freed = false) (hs : SlotFree n)
    (hv : Visited (n.sockAt i) s') : TurnOk n i s' (n.put i s').adopt := by
  cases hv with
  | alone ht => exact h.turned hi ht
  | opens s₁ c ho ht =>
    have hfree : (n.socks c.sid).freed = true := by
      rw [ho.slot]
      exact hs ho.granted
    have hne : c.sid ≠ i := by
      intro he
      rw [he, hi] at hfree
      cases hfree
    have hsid₁ : s₁.tsock.sid = i := by
      rw [ho.tsock]
      exact h.sid hi
    have hown : OwnSeats s₁ s' := by
      cases ht with
      | stays ht => exact ht.queues
      | left ht => exact ht.queues
    have hc : (n.put i s').worker.children = [c] := by
      rw [Stack.put_worker, hown.children, ho.children]
      change n.worker.children ++ [c] = _
      rw [h.children]
      rfl
    rw [Stack.adopt_one hc]
    refine ⟨⟨fun j hj => ?_, fun j hq => ?_, rfl⟩, ?_, fun j hj hlive => ?_⟩
    · dsimp only at hj ⊢
      by_cases hjc : j = c.sid
      · rw [hjc, Function.update_self]
      rw [Function.update_of_ne hjc] at hj ⊢
      by_cases hji : j = i
      · subst hji
        rw [Stack.put_self]
        cases ht with
        | stays ht => exact ht.sid.trans hsid₁
        | left ht => exact ht.sid.trans hsid₁
      · rw [n.put_ne s' hji] at hj ⊢
        exact h.sids j hj
    · dsimp only at hq ⊢
      by_cases hjc : j = c.sid
      · rw [hjc, Function.update_self]
        exact ho.child.freed
      rw [Function.update_of_ne hjc]
      by_cases hji : j = i
      · subst hji
        rw [Stack.put_self]
        cases ht with
        | stays ht =>
          rw [ht.freed, ho.tsock]
          exact hi
        | left ht =>
          have hgone := ht.gone
          rw [hsid₁] at hgone
          unfold Worker.Queued at hq
          tauto
      · rw [n.put_ne s' hji]
        have hq₁ : s₁.worker.Queued j := (hown.queued (by rw [hsid₁]; exact hji)).mp hq
        exact h.live j ((ho.queues j hjc).mp hq₁)
    · dsimp only
      rw [Function.update_of_ne hne.symm, Stack.put_self]
    · dsimp only
      have hjc : j ≠ c.sid := by
        rintro rfl
        rw [hfree] at hlive
        cases hlive
      rw [Function.update_of_ne hjc, n.put_ne s' hj]

theorem shrink (h : QueuesOk n) (hf : ∀ j, (n'.socks j).freed = (n.socks j).freed)
    (hs : ∀ j, (n'.socks j).sid = (n.socks j).sid)
    (hq : ∀ j, n'.worker.Queued j → n.worker.Queued j) (hc : n'.worker.children = []) :
    QueuesOk n' := by
  refine ⟨fun j hj => ?_, fun j hj => ?_, hc⟩
  · rw [hs j]
    exact h.sids j (hf j ▸ hj)
  · rw [hf j]
    exact h.live j (hq j hj)

theorem create (h : QueuesOk n) (hf : s'.tsock.freed = false)
    (hs : s'.tsock.sid = i) (hq : ∀ j, j ≠ i → (s'.worker.Queued j ↔ n.worker.Queued j))
    (hc : s'.worker.children = n.worker.children) : QueuesOk (n.opened i s') := by
  have hsocks : (n.opened i s').socks = (n.put i s').socks := rfl
  refine ⟨fun j hj => ?_, fun j hj => ?_, hc.trans h.children⟩ <;> rw [hsocks] at *
  · by_cases hji : j = i
    · rw [hji, Stack.put_self]
      exact hs
    · rw [n.put_ne s' hji] at hj ⊢
      exact h.sids j hj
  · by_cases hji : j = i
    · rw [hji, Stack.put_self]
      exact hf
    · rw [n.put_ne s' hji]
      exact h.live j ((hq j hji).mp hj)

/-! The loops. -/

theorem inputOnes (burst : List (Nat × Packet)) : ∀ {n : Stack}, QueuesOk n →
    Admitted (inputOne cfg) Routed n burst →
    QueuesOk (exec (inputOne cfg) n burst) ∧
      (∀ j, (n.socks j).freed = false → ((exec (inputOne cfg) n burst).socks j).freed = false) ∧
      ∀ r ∈ burst, ((exec (inputOne cfg) n burst).socks r.1).freed = false := by
  induction burst with
  | nil => exact fun h _ => ⟨h, fun _ hj => hj, fun r hr => nomatch hr⟩
  | cons r burst ih =>
    intro n h hadm
    obtain ⟨⟨hi, hslot⟩, hrest⟩ := hadm
    have hheard := inputPacket_heard cfg (n.sockAt r.1) r.2
    have hturn : TurnOk n r.1 (inputPacket cfg (n.sockAt r.1) r.2) (inputOne cfg n r) :=
      h.visited hi hslot (hheard.visited (.stays (.refl _)))
    have hself : ((inputOne cfg n r).socks r.1).freed = false := by
      rw [hturn.self, hheard.freed]
      exact hi
    have hkeep : ∀ j, (n.socks j).freed = false → ((inputOne cfg n r).socks j).freed = false := by
      intro j hj
      by_cases hjr : j = r.1
      · rw [hjr]
        exact hself
      · rw [hturn.others j hjr hj]
        exact hj
    obtain ⟨h₁, h₂, h₃⟩ := ih hturn.ok hrest
    refine ⟨h₁, fun j hj => h₂ j (hkeep j hj), fun r' hr' => ?_⟩
    rcases List.mem_cons.mp hr' with rfl | hm
    · exact h₂ _ hself
    · exact h₃ r' hm

/-- The second loop, when it looks at no socket twice. -/
theorem inputVisits (tsocks : List Nat) : ∀ {n : Stack}, QueuesOk n → tsocks.Nodup →
    (∀ j ∈ tsocks, (n.socks j).freed = false) →
    Admitted (inputVisit cfg) (fun n _ => SlotFree n) n tsocks →
    QueuesOk (exec (inputVisit cfg) n tsocks) := by
  induction tsocks with
  | nil => exact fun h _ _ _ => h
  | cons i tsocks ih =>
    intro n h hnd hlive hadm
    obtain ⟨hslot, hrest⟩ := hadm
    have hturn : TurnOk n i (inputEnd cfg (n.sockAt i)) (inputVisit cfg n i) :=
      h.visited (hlive i (List.mem_cons_self ..)) hslot (inputEnd_visited cfg _)
    refine ih hturn.ok (List.nodup_cons.mp hnd).2 (fun j hj => ?_) hrest
    have hji : j ≠ i := by
      rintro rfl
      exact (List.nodup_cons.mp hnd).1 hj
    have hj' := hlive j (List.mem_cons_of_mem _ hj)
    rw [hturn.others j hji hj']
    exact hj'

end QueuesOk

theorem mem_queueInputTsock {tsocks : List Nat} (h : j ∈ queueInputTsock tsocks i) :
    j ∈ tsocks ∨ j = i := by
  unfold queueInputTsock at h
  split at h
  · exact .inl h
  · simpa using h

theorem mem_inputTsocks {burst : List (Nat × Packet)} (h : i ∈ inputTsocks burst) :
    ∃ r ∈ burst, r.1 = i := by
  induction burst using List.reverseRecOn with
  | nil => cases h
  | append_singleton burst r ih =>
    unfold inputTsocks at h
    rw [List.foldl_append] at h
    rcases mem_queueInputTsock h with hm | rfl
    · obtain ⟨r', hr', he⟩ := ih hm
      exact ⟨r', List.mem_append_left _ hr', he⟩
    · exact ⟨r, by simp, rfl⟩

theorem acceptLoop_rest (socks : Nat → TcpSock) (queue : List Nat) : ∀ room,
    ∀ j ∈ (acceptLoop socks queue room).2, j ∈ queue := by
  induction queue with
  | nil => exact fun room j hj => hj
  | cons i queue ih =>
    intro room j hj
    cases room with
    | zero => exact hj
    | succ room =>
      unfold acceptLoop at hj
      split at hj
      · exact List.mem_cons_of_mem _ (ih _ j hj)
      split at hj
      · exact List.mem_cons_of_mem _ (ih _ j hj)
      · exact List.mem_cons_of_mem _ (ih _ j hj)

theorem pollLoop_keeps (queue : List Nat) : ∀ (room : Nat) (socks : Nat → TcpSock),
    (∀ j ∈ (pollLoop queue room socks).2.1, j ∈ queue) ∧
      ∀ j, ∃ ev, (pollLoop queue room socks).2.2 j = { socks j with ev := ev } := by
  have hid : ∀ (socks : Nat → TcpSock) (j : Nat), ∃ ev, socks j = { socks j with ev := ev } :=
    fun socks j => ⟨(socks j).ev, rfl⟩
  induction queue with
  | nil => exact fun room socks => ⟨fun j hj => hj, hid socks⟩
  | cons i queue ih =>
    intro room socks
    cases room with
    | zero => exact ⟨fun j hj => hj, hid socks⟩
    | succ room =>
      have hmem : ∀ {room : Nat} {socks : Nat → TcpSock},
          ∀ j ∈ (pollLoop queue room socks).2.1, j ∈ i :: queue :=
        fun j hj => List.mem_cons_of_mem _ ((ih _ _).1 j hj)
      have hupd : ∀ (room : Nat) (ev : Events) (j : Nat), ∃ ev', (pollLoop queue room
          (Function.update socks i { socks i with ev := ev })).2.2 j =
            { socks j with ev := ev' } := by
        intro room ev j
        obtain ⟨ev', hev⟩ := (ih room (Function.update socks i { socks i with ev := ev })).2 j
        refine ⟨ev', hev.trans ?_⟩
        by_cases hji : j = i
        · rw [hji, Function.update_self]
        · rw [Function.update_of_ne hji]
      unfold pollLoop
      dsimp only
      split
      · exact ⟨hmem, (ih _ _).2⟩
      split
      · exact ⟨hmem, (ih _ _).2⟩
      split
      · exact ⟨hmem, hupd _ _⟩
      · exact ⟨hmem, hupd _ _⟩

theorem tpaEventCtrl_put (n : Stack) (i : Nat) (op : EventCtrl) (m : BitVec 32) (data : Nat) :
    (tpaEventCtrl n i op m data).2 = n ∨ (n.socks i).freed = false ∧
      ∃ s', Stays (n.sockAt i) s' ∧ s'.tsock = { n.socks i with ev := s'.tsock.ev } ∧
        s'.worker = { n.worker with eventQueue := s'.worker.eventQueue } ∧
        (tpaEventCtrl n i op m data).2 = n.put i s' := by
  have hset : ∀ ev : Events, Stays (n.sockAt i) ⟨n.worker, { n.socks i with ev := ev }⟩ :=
    fun ev => .of_eq rfl rfl rfl rfl rfl
  unfold tpaEventCtrl
  dsimp only
  split
  · exact .inl rfl
  next hi =>
  refine .inr ⟨by simpa using hi, ?_⟩
  split
  · exact ⟨_, hset _, rfl, rfl, rfl⟩
  split
  · exact ⟨_, hset _, rfl, rfl, rfl⟩
  · refine ⟨_, ?_, ?_, ?_, rfl⟩
    · exact (hset _).trans (SndFrame.tsockEventAdd _ _).stays
    · rfl
    · rfl

theorem SockCall.stays (cfg : TcpCfg) (s : St) (c : SockCall) :
    Stays s (sockStep cfg s c.event) := by
  cases c with
  | write iov => exact (WriteFrame.tsockZwritev cfg s iov).frame.stays
  | read nr => exact .tsockZreadv s nr
  | close => exact .tpaClose s
  | dropOoo => exact .of_eq rfl rfl rfl rfl rfl

namespace QueuesOk

theorem ifLive {f : St → St} (h : QueuesOk n) (hf : Turned Stays (n.sockAt i) (f (n.sockAt i))) :
    QueuesOk (ifLive n i f) := by
  unfold LibTpa.ifLive
  split
  · exact h
  · next hi => exact (h.turned (by simpa using hi) hf.seats).ok

theorem outputOnes (tsocks : List Nat) : ∀ {n : Stack}, QueuesOk n →
    QueuesOk (exec (fun n i => n.turn i (tcpOutputOne cfg)) n tsocks) := by
  induction tsocks with
  | nil => exact fun h => h
  | cons i tsocks ih =>
    intro n h
    refine ih ?_
    by_cases hi : (n.socks i).freed = true
    · -- a released socket has no turn
      have hsame : tcpOutputOne cfg (n.sockAt i) = n.sockAt i := by
        exact if_pos hi
      have hput : n.put i (n.sockAt i) = n := by
        unfold Stack.put Stack.sockAt
        rw [Function.update_eq_self]
      change QueuesOk (n.put i (tcpOutputOne cfg (n.sockAt i))).adopt
      rw [hsame, hput, Stack.adopt_nil h.children]
      exact h
    · exact (h.turned (by simpa using hi) (Turned.tcpOutputOne cfg _).seats).ok

theorem pop {rest : List Nat} (h : QueuesOk n) (hq : ∀ j ∈ rest, j ∈ n.worker.delayedAck) :
    QueuesOk { n with worker := { n.worker with delayedAck := rest } } := by
  refine h.shrink (fun _ => rfl) (fun _ => rfl) (fun j hj => ?_) h.children
  exact hj.imp_right fun hj => hj.imp_left (hq j)

theorem xmitDueAck (cfg : TcpCfg) (s : St) : SndFrame s (xmitDueAck cfg s) := by
  unfold LibTpa.xmitDueAck
  split
  · exact (Quiet.xmitFlagPacket cfg s).frame
  · exact .refl s

theorem flushDelayedAck (rounds : Nat) : ∀ {n : Stack}, QueuesOk n →
    QueuesOk (flushDelayedAck cfg rounds n) := by
  induction rounds with
  | zero => exact fun h => h
  | succ rounds ih =>
    intro n h
    unfold LibTpa.flushDelayedAck
    split
    · exact h
    next i rest hq =>
    have hrest : ∀ j ∈ rest, j ∈ n.worker.delayedAck := by
      intro j hj
      rw [hq]
      exact List.mem_cons_of_mem _ hj
    split
    · exact ih (h.pop hrest)
    split
    · exact h
    next hi _ =>
    have hf := xmitDueAck cfg (n.sockAt i)
    have hturn := h.turned (by simpa using hi) (.stays hf.seats)
    refine ih (hturn.ok.pop fun j hj => ?_)
    change j ∈ (LibTpa.xmitDueAck cfg (n.sockAt i)).worker.delayedAck
    rw [hf.worker]
    exact hrest j hj

theorem eventCtrl (h : QueuesOk n) (op : EventCtrl) (m : BitVec 32) (data : Nat) :
    QueuesOk (tpaEventCtrl n i op m data).2 := by
  rcases tpaEventCtrl_put n i op m data with he | ⟨hlive, s', hs, -, -, he⟩
  · rw [he]
    exact h
  · rw [he]
    have hc : (n.put i s').worker.children = [] := hs.queues.children.trans h.children
    have hok := (h.turned hlive (.stays hs.toSeats)).ok
    rwa [Stack.adopt_nil hc] at hok

theorem call (h : QueuesOk n) (c : SockCall) :
    QueuesOk (LibTpa.ifLive n i fun s => sockStep cfg s c.event) :=
  h.ifLive (.stays (c.stays cfg _))

end QueuesOk

/-- The second loop of `tcp_input` looks at no socket twice. -/
def StackEv.Once : StackEv → Prop
  | .input burst => (inputTsocks burst).Nodup
  | _ => True

instance : DecidablePred StackEv.Once
  | .input burst => inferInstanceAs (Decidable (inputTsocks burst).Nodup)
  | .output | .timer _ _ | .call _ _ | .neighReady _ | .acceptBurst _ | .connect _ _ | .listen _ _
  | .eventCtrl _ _ _ _ | .eventPoll _ | .world _ _ _ _ => isTrue trivial

theorem QueuesOk.step (h : QueuesOk n) (e : StackEv) (hs : e.Sound cfg n) (ho : e.Once) :
    QueuesOk (stackStep cfg n e) := by
  cases e with
  | input burst =>
    obtain ⟨h₁, -, hlive⟩ := h.inputOnes burst hs.1
    refine h₁.inputVisits _ ho (fun j hj => ?_) hs.2
    obtain ⟨r, hr, rfl⟩ := mem_inputTsocks hj
    exact hlive r hr
  | output =>
    refine QueuesOk.flushDelayedAck _ (QueuesOk.outputOnes _ ?_)
    refine h.shrink (fun _ => rfl) (fun _ => rfl) (fun j hj => ?_) h.children
    exact hj.imp_left List.mem_of_mem_drop
  | timer i k => exact h.ifLive (.tcpTimeout cfg _ k)
  | call i c => exact h.call c
  | neighReady i =>
    change QueuesOk (n.put i (flushTcpPacket (n.sockAt i))).adopt
    rw [Stack.adopt_nil (n := n.put i (flushTcpPacket (n.sockAt i))) h.children]
    refine h.shrink (fun j => ?_) (fun j => ?_) (fun j hj => hj) h.children
    · by_cases hji : j = i
      · rw [hji, Stack.put_self]
        rfl
      · rw [n.put_ne _ hji]
    · by_cases hji : j = i
      · rw [hji, Stack.put_self]
        rfl
      · rw [n.put_ne _ hji]
  | acceptBurst nr =>
    refine h.shrink (fun _ => rfl) (fun _ => rfl) (fun j hj => ?_) h.children
    exact hj.imp_right fun hj => hj.imp_right fun hj => hj.imp_right (acceptLoop_rest _ _ _ j)
  | connect i isIpv6 =>
    refine h.create rfl rfl (fun j hj => ?_) rfl
    have := (SndFrame.outputTsockEnqueue ⟨n.worker, tsockInit cfg i isIpv6⟩).seats.queues
    exact this.queued hj
  | listen i isIpv6 => exact h.create rfl rfl (fun j _ => Iff.rfl) rfl
  | eventCtrl i op m data => exact h.eventCtrl op m data
  | eventPoll max =>
    obtain ⟨hq, hev⟩ := pollLoop_keeps n.worker.eventQueue max.toNat n.socks
    refine h.shrink (fun j => ?_) (fun j => ?_) (fun j hj => ?_) h.children
    · obtain ⟨ev, hev⟩ := hev j
      change ((pollLoop _ _ _).2.2 j).freed = _
      rw [hev]
    · obtain ⟨ev, hev⟩ := hev j
      change ((pollLoop _ _ _).2.2 j).sid = _
      rw [hev]
    · exact hj.imp_right fun hj => hj.imp_right fun hj => hj.imp_left (hq j)
  | world => exact h.shrink (fun _ => rfl) (fun _ => rfl) (fun _ hj => hj) h.children

theorem QueuesOk.boot (cfg : TcpCfg) (nrDesc : Nat) (o : Oracles) :
    QueuesOk (.boot cfg nrDesc o) := by
  refine ⟨fun i hi => (nomatch hi), fun i hi => ?_, rfl⟩
  rcases hi with hi | hi | hi | hi <;> cases hi

/-! A socket is freed once in a burst, however often the second loop looks at it. -/

structure Settled (t : TcpSock) : Prop where
  head : t.rxMergeHead = none
  put : t.flags.put = false

theorem inputAck_tsock (cfg : TcpCfg) (s : St) :
    (inputAck cfg s).tsock.rxMergeHead = s.tsock.rxMergeHead ∧
      (inputAck cfg s).tsock.flags.put = s.tsock.flags.put := by
  unfold inputAck
  split
  · split
    · have h := (Quiet.xmitFlagPacket cfg s).frame
      exact ⟨by rw [h.tsock], by rw [h.flags]⟩
    · exact ⟨rfl, rfl⟩
  · exact ⟨rfl, rfl⟩

theorem inputEnd_settled (cfg : TcpCfg) (s : St) : Settled (inputEnd cfg s).tsock := by
  have hhead : (inputAck cfg (inputHead cfg s)).tsock.rxMergeHead = none :=
    (inputAck_tsock cfg _).1.trans (inputHead_head cfg s)
  unfold inputEnd inputPut
  split
  · obtain ⟨rcv, timers, ht⟩ := tsockFree_tsock ((inputAck cfg (inputHead cfg s)).setFlags
      { (inputAck cfg (inputHead cfg s)).tsock.flags with put := false })
    rw [ht]
    exact ⟨hhead, rfl⟩
  · next hput => exact ⟨hhead, by simpa using hput⟩

theorem Settled.not_freed (h : Settled (n.socks i)) : visitFrees cfg n i = false := by
  have hsame : inputHead cfg (n.sockAt i) = n.sockAt i := by
    unfold inputHead
    rw [show (n.sockAt i).tsock.rxMergeHead = none from h.head]
  unfold visitFrees
  rw [hsame, (inputAck_tsock cfg _).2]
  exact h.put

theorem inputVisit_settles (hc : n.worker.children = [])
    (h : i = j ∨ Settled (n.socks i)) : Settled ((inputVisit cfg n j).socks i) := by
  have hput : Settled ((n.put j (inputEnd cfg (n.sockAt j))).socks i) := by
    by_cases hij : i = j
    · rw [hij, Stack.put_self]
      exact inputEnd_settled ..
    · rw [n.put_ne _ hij]
      exact h.resolve_left hij
  have hstay : ∀ {s : St}, OwnSeats s (inputEnd cfg (n.sockAt j)) → s.worker.children = [] →
      Settled ((inputVisit cfg n j).socks i) := by
    intro s ho hs
    change Settled ((n.put j (inputEnd cfg (n.sockAt j))).adopt.socks i)
    rw [Stack.adopt_nil (n := n.put j (inputEnd cfg (n.sockAt j))) (ho.children.trans hs)]
    exact hput
  have hopen : ∀ {s : St} {c : TcpSock}, OwnSeats s (inputEnd cfg (n.sockAt j)) →
      Opens (n.sockAt j) s c → Settled ((inputVisit cfg n j).socks i) := by
    intro s c ho hoc
    have hch : (n.put j (inputEnd cfg (n.sockAt j))).worker.children = [c] := by
      rw [Stack.put_worker, ho.children, hoc.children]
      change n.worker.children ++ [c] = _
      rw [hc]
      rfl
    change Settled ((n.put j (inputEnd cfg (n.sockAt j))).adopt.socks i)
    rw [Stack.adopt_one hch]
    dsimp only
    by_cases hic : i = c.sid
    · rw [hic, Function.update_self]
      exact ⟨hoc.child.head, hoc.child.put⟩
    · rw [Function.update_of_ne hic]
      exact hput
  cases inputEnd_visited cfg (n.sockAt j) with
  | alone ht =>
    cases ht with
    | stays ht => exact hstay ht.queues hc
    | left ht => exact hstay ht.queues hc
  | opens s₁ c hoc ht =>
    cases ht with
    | stays ht => exact hopen ht.queues hoc
    | left ht => exact hopen ht.queues hoc

theorem Settled.not_mem_freedBy (tsocks : List Nat) : ∀ {n : Stack}, n.worker.children = [] →
    Settled (n.socks i) → i ∉ freedBy cfg n tsocks := by
  induction tsocks with
  | nil => exact fun _ _ h => nomatch h
  | cons j tsocks ih =>
    intro n hc h hmem
    rcases List.mem_append.mp hmem with hm | hm
    · split at hm
      · next hf =>
        rw [List.mem_singleton.mp hm] at h
        rw [h.not_freed] at hf
        cases hf
      · cases hm
    · exact ih rfl (inputVisit_settles hc (.inr h)) hm

theorem freedBy_nodup (tsocks : List Nat) : ∀ {n : Stack}, n.worker.children = [] →
    (freedBy cfg n tsocks).Nodup := by
  induction tsocks with
  | nil => exact fun _ => List.nodup_nil
  | cons i tsocks ih =>
    intro n hc
    unfold freedBy
    split
    · refine List.nodup_cons.mpr ⟨?_, ih rfl⟩
      exact Settled.not_mem_freedBy tsocks rfl (inputVisit_settles hc (.inl rfl))
    · exact ih rfl

theorem exec_inputOne_children (burst : List (Nat × Packet)) (hc : n.worker.children = []) :
    (exec (inputOne cfg) n burst).worker.children = [] := by
  cases burst using List.reverseRecOn with
  | nil => exact hc
  | append_singleton burst r =>
    unfold exec
    rw [List.foldl_append]
    rfl

/-- No released socket stays queued: as long as the bursts do not interleave the packets
of a socket with those of others, only sockets in use are in the output, delayed ACK, event
and accept queues after every step. And no burst frees a socket twice, whatever its packets. -/
theorem queued_sockets_live {nrDesc : Nat} {o : Oracles}
    (hr : Reach (stackStep cfg) (fun n e => e.Sound cfg n ∧ e.Once) (.boot cfg nrDesc o) n) :
    (∀ i, n.worker.Queued i → (n.socks i).freed = false) ∧
      ∀ burst, (tcpInputFrees cfg n burst).Nodup := by
  have h : QueuesOk n := hr.invariant (.boot cfg nrDesc o) fun _ e h he => h.step e he.1 he.2
  exact ⟨h.live, fun burst => freedBy_nodup _ (exec_inputOne_children burst h.children)⟩

def readyWorker : Stack := .boot {} 0 { allocOk := List.replicate 8 true, ethOk := [true, true] }

def twoConnections : List StackEv :=
  [.connect 0 false, .connect 1 false, .output,
    .input [(0, .bare 1 100 1 0 { syn := true, ack := true })], .call 0 .close]

def resetBurst : List StackEv :=
  [.input [(0, .oneByte 2 101 1 0 { ack := true } 97),
    (0, .bare 3 102 1 0 { rst := true }),
    (1, .bare 4 100 1 0 { syn := true, ack := true })]]

theorem queued_sockets_live_resetBurst :
    let n := exec (stackStep {}) readyWorker (twoConnections ++ resetBurst)
    (n.socks 0).freed = true ∧ ¬ n.worker.Queued 0 ∧
      ∀ burst, (tcpInputFrees {} n burst).Nodup := by
  have hadm : Admitted (stackStep {}) (fun n e => e.Sound {} n ∧ e.Once) readyWorker
      (twoConnections ++ resetBurst) := by decide +kernel
  have h := queued_sockets_live (Reach.refl.exec hadm)
  have hfree : ((exec (stackStep {}) readyWorker (twoConnections ++ resetBurst)).socks 0).freed =
    true := by decide +kernel
  exact ⟨hfree, fun hq => Bool.noConfusion (hfree.symm.trans (h.1 0 hq)), h.2⟩

/-- The dev txq is full, and a packet of the other socket comes before the RST. -/
def interleavedBurst : List StackEv :=
  [.world 0 txqBufSize 0 { allocOk := List.replicate 8 true },
    .input [(0, .oneByte 2 101 1 0 { ack := true } 97),
      (1, .bare 4 100 1 0 { syn := true, ack := true }),
      (0, .bare 3 102 1 0 { rst := true })]]

/-- The second visit queues the socket that the first one has freed. -/
theorem interleavedBurst_queues_freed :
    ∃ n, Reach (stackStep {}) (fun n e => e.Sound {} n) readyWorker n ∧
      (n.socks 0).freed = true ∧ 0 ∈ n.worker.delayedAck := by
  refine ⟨exec (stackStep {}) readyWorker (twoConnections ++ interleavedBurst),
    Reach.refl.exec ?_, ?_, ?_⟩ <;> decide +kernel

end LibTpa
