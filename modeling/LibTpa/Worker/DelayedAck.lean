/- LibTpa/Worker/DelayedAck
   digest: When tcp_flush_delayed_ack leaves an ACK behind that is due. -/

import LibTpa.Worker.LoopQueues

/-!
The scan of `tcp_flush_delayed_ack` stops at the first entry that is not due. The
queue is in the order in which sockets entered it, and a socket that sends data
moves its own `last_ack_sent_ts` while it is queued.
-/

set_option autoImplicit false

namespace LibTpa

open Lib.Run

variable {cfg : TcpCfg} {n n' : Stack} {i j : Nat} {s s' : St}

def sinceLastAck (n : Stack) (i : Nat) : Nat :=
  (BitVec.ofNat 32 n.worker.tsUs - (n.socks i).nego.lastAckSentTs).toNat

def AckOverdue (cfg : TcpCfg) (n : Stack) (i : Nat) : Prop :=
  (n.socks i).freed = false ∧ (n.socks i).flags.tcp.ack = true ∧ cfg.delayedAck ≤ sinceLastAck n i

def ScanPasses (cfg : TcpCfg) (n : Stack) (i : Nat) : Prop :=
  (n.socks i).freed = true ∨ cfg.delayedAck ≤ sinceLastAck n i

instance (cfg : TcpCfg) (n : Stack) (i : Nat) : Decidable (AckOverdue cfg n i) :=
  inferInstanceAs (Decidable (_ ∧ _ ∧ _))

instance (cfg : TcpCfg) (n : Stack) (i : Nat) : Decidable (ScanPasses cfg n i) :=
  inferInstanceAs (Decidable (_ ∨ _))

/-- Some ACK that is due stands behind a socket in use that is not due. -/
def AckBlocked (cfg : TcpCfg) (n : Stack) : Prop :=
  ∃ i j, [i, j].Sublist n.worker.delayedAck ∧ ¬ ScanPasses cfg n i ∧ AckOverdue cfg n j

theorem AckOverdue.passes (h : AckOverdue cfg n i) : ScanPasses cfg n i := .inr h.2.2

/-! ### The scan -/

/-- What the scan has left of the queue is the end of it, with the sockets as they were. -/
structure Scanned (cfg : TcpCfg) (n n' : Stack) : Prop where
  front : ∃ front, n.worker.delayedAck = front ++ n'.worker.delayedAck ∧
    ∀ j ∈ front, ScanPasses cfg n j
  socks : ∀ j ∈ n'.worker.delayedAck, n'.socks j = n.socks j
  tsUs : n'.worker.tsUs = n.worker.tsUs
  children : n'.worker.children = []

private theorem scanPasses_congr (hs : n'.socks j = n.socks j)
    (ht : n'.worker.tsUs = n.worker.tsUs) :
    ScanPasses cfg n' j ↔ ScanPasses cfg n j := by
  unfold ScanPasses sinceLastAck
  rw [hs, ht]

theorem ackOverdue_congr (hs : n'.socks j = n.socks j) (ht : n'.worker.tsUs = n.worker.tsUs) :
    AckOverdue cfg n' j ↔ AckOverdue cfg n j := by
  unfold AckOverdue sinceLastAck
  rw [hs, ht]

private theorem Scanned.cons {n₁ : Stack} {rest : List Nat} (h : Scanned cfg n₁ n')
    (hq : n.worker.delayedAck = i :: rest) (hnd : n.worker.delayedAck.Nodup)
    (hi : ScanPasses cfg n i) (hrest : n₁.worker.delayedAck = rest)
    (hs : ∀ j, j ≠ i → n₁.socks j = n.socks j) (ht : n₁.worker.tsUs = n.worker.tsUs) :
    Scanned cfg n n' := by
  obtain ⟨front, hfront, hpass⟩ := h.front
  rw [hrest] at hfront
  rw [hq, hfront, List.nodup_cons] at hnd
  have hne : ∀ j ∈ front ++ n'.worker.delayedAck, j ≠ i := by
    rintro j hj rfl
    exact hnd.1 hj
  refine ⟨⟨i :: front, by rw [hq, hfront]; rfl, fun j hj => ?_⟩, fun j hj => ?_, h.tsUs.trans ht,
    h.children⟩
  · rcases List.mem_cons.mp hj with rfl | hj
    · exact hi
    · exact (scanPasses_congr (hs j (hne j (List.mem_append_left _ hj))) ht).mp (hpass j hj)
  · rw [h.socks j hj, hs j (hne j (List.mem_append_right _ hj))]

/-- The scan, and why it ended when there were rounds left. The induction is on the
rounds; a socket stands in the queue once, so that what is sent for one entry does not
change the sockets behind it. -/
theorem flushDelayedAck_scanned (cfg : TcpCfg) (rounds : Nat) :
    ∀ {n : Stack}, n.worker.children = [] →
    n.worker.delayedAck.Nodup →
    Scanned cfg n (flushDelayedAck cfg rounds n) ∧
      (n.worker.delayedAck.length <
        (flushDelayedAck cfg rounds n).worker.delayedAck.length + rounds →
        ∀ i ∈ (flushDelayedAck cfg rounds n).worker.delayedAck.head?, ¬ ScanPasses cfg n i) := by
  have hstay : ∀ n : Stack, n.worker.children = [] → Scanned cfg n n := fun n hc =>
    ⟨⟨[], rfl, by simp⟩, fun _ _ => rfl, rfl, hc⟩
  induction rounds with
  | zero =>
    intro n hc _
    exact ⟨hstay n hc, fun h => absurd h (Nat.lt_irrefl _)⟩
  | succ rounds ih =>
    intro n hc hnd
    unfold flushDelayedAck
    cases hq : n.worker.delayedAck with
    | nil =>
      refine ⟨hstay n hc, fun _ i hi => ?_⟩
      rw [hq] at hi
      cases hi
    | cons i rest =>
      dsimp only
      have hnd' : rest.Nodup := by
        rw [hq] at hnd
        exact (List.nodup_cons.mp hnd).2
      -- the two ways to take the entry off
      have htake : ∀ n₁ : Stack, ScanPasses cfg n i → n₁.worker.delayedAck = rest →
          n₁.worker.children = [] → (∀ j, j ≠ i → n₁.socks j = n.socks j) →
          n₁.worker.tsUs = n.worker.tsUs →
          Scanned cfg n (flushDelayedAck cfg rounds n₁) ∧
            ((i :: rest).length <
                (flushDelayedAck cfg rounds n₁).worker.delayedAck.length + (rounds + 1) →
              ∀ j ∈ (flushDelayedAck cfg rounds n₁).worker.delayedAck.head?,
                ¬ ScanPasses cfg n j) := by
        intro n₁ hi hr hc₁ hs ht
        obtain ⟨h1, h2⟩ := ih (n := n₁) hc₁ (hr ▸ hnd')
        refine ⟨h1.cons hq hnd hi hr hs ht, fun hlt j hj => ?_⟩
        have hmem : j ∈ rest := by
          obtain ⟨front, hf, -⟩ := h1.front
          rw [← hr, hf]
          exact List.mem_append_right _ (List.mem_of_mem_head? hj)
        have hji : j ≠ i := by
          rintro rfl
          rw [hq] at hnd
          exact (List.nodup_cons.mp hnd).1 hmem
        rw [← scanPasses_congr (hs j hji) ht]
        refine h2 ?_ j hj
        rw [List.length_cons] at hlt
        rw [hr]
        omega
      split
      · next hf => exact htake _ (.inl hf) rfl hc (fun _ _ => rfl) rfl
      next hf =>
      split
      · next hlt =>
        refine ⟨hstay n hc, fun _ j hj => ?_⟩
        rw [hq] at hj
        cases hj
        rintro (hfr | hle)
        · exact hf hfr
        · exact absurd hlt (Nat.not_lt.mpr hle)
      · next hle =>
        have hfr := QueuesOk.xmitDueAck cfg (n.sockAt i)
        have hcs : (xmitDueAck cfg (n.sockAt i)).worker.children = [] := by
          rw [hfr.worker]
          exact hc
        have hturn : n.turn i (xmitDueAck cfg) = n.put i (xmitDueAck cfg (n.sockAt i)) :=
          Stack.adopt_nil hcs
        rw [hturn]
        refine htake _ (.inr (Nat.not_lt.mp hle)) rfl hcs (fun j hj => n.put_ne _ hj) ?_
        change (xmitDueAck cfg (n.sockAt i)).worker.tsUs = _
        rw [hfr.worker]
        rfl

/-- With rounds left, an ACK that is due stays behind exactly where one is blocked. -/
theorem flushDelayedAck_overdue_iff {rounds : Nat} (hc : n.worker.children = [])
    (hnd : n.worker.delayedAck.Nodup)
    (hlt : n.worker.delayedAck.length <
      (flushDelayedAck cfg rounds n).worker.delayedAck.length + rounds) :
    (∃ j ∈ (flushDelayedAck cfg rounds n).worker.delayedAck,
      AckOverdue cfg (flushDelayedAck cfg rounds n) j) ↔ AckBlocked cfg n := by
  obtain ⟨hscan, hhalt⟩ := flushDelayedAck_scanned cfg rounds hc hnd
  have hhead := hhalt hlt
  generalize flushDelayedAck cfg rounds n = n' at hscan hhead
  obtain ⟨front, hfront, hpass⟩ := hscan.front
  constructor
  · rintro ⟨j, hj, hdue⟩
    rw [ackOverdue_congr (hscan.socks j hj) hscan.tsUs] at hdue
    cases hq : n'.worker.delayedAck with
    | nil =>
      rw [hq] at hj
      cases hj
    | cons i rest =>
      rw [hq] at hj hhead hfront
      have hi := hhead i rfl
      have hji : j ≠ i := by
        rintro rfl
        exact hi hdue.passes
      refine ⟨i, j, ?_, hi, hdue⟩
      rw [hfront]
      refine List.Sublist.trans ?_ (List.sublist_append_right ..)
      exact (List.singleton_sublist.mpr ((List.mem_cons.mp hj).resolve_left hji)).cons_cons i
  · rintro ⟨i, j, hsub, hi, hdue⟩
    rw [hfront] at hsub
    obtain ⟨l₁, l₂, hl, h₁, h₂⟩ := List.sublist_append_iff.mp hsub
    have hmem : j ∈ n'.worker.delayedAck := by
      cases l₁ with
      | nil =>
        rw [List.nil_append] at hl
        rw [← hl] at h₂
        exact h₂.mem (by simp)
      | cons a l₁ =>
        rw [List.cons_append, List.cons.injEq] at hl
        obtain ⟨rfl, -⟩ := hl
        exact absurd (hpass i (h₁.mem (List.mem_cons_self ..))) hi
    exact ⟨j, hmem, (ackOverdue_congr (hscan.socks j hmem) hscan.tsUs).mpr hdue⟩

/-! ### Every run of a worker -/

/-- The worker when `tcp_output` calls `tcp_flush_delayed_ack`. -/
def outputTurns (cfg : TcpCfg) (n : Stack) : Stack :=
  exec (fun n i => n.turn i (tcpOutputOne cfg))
    { n with worker := { n.worker with output := n.worker.output.drop batchSize } }
    (n.worker.output.take batchSize)

structure AcksOnce (n : Stack) : Prop where
  children : n.worker.children = []
  nodup : n.worker.delayedAck.Nodup

theorem Visited.once (h : Visited s s') (hd : s.worker.delayedAck.Nodup) :
    s'.worker.delayedAck.Nodup := by
  have hone : ∀ {s₁ : St}, Turned Seats s₁ s' → s₁.worker.delayedAck.Nodup →
      s'.worker.delayedAck.Nodup := by
    intro s₁ ht hd
    cases ht with
    | stays ht => exact ht.queues.once hd
    | left ht => exact ht.queues.once hd
  cases h with
  | alone h => exact hone h hd
  | opens s₁ c ho h => exact hone h (ho.acks ▸ hd)

namespace AcksOnce

theorem turn (h : AcksOnce n) {f : St → St} (hf : Visited (n.sockAt i) (f (n.sockAt i))) :
    AcksOnce (n.turn i f) :=
  ⟨rfl, hf.once (s := n.sockAt i) h.nodup⟩

theorem turns {α : Type*} (slot : α → Nat) (f : α → St → St) (hf : ∀ a s, Visited s (f a s))
    (l : List α) : ∀ {n : Stack}, AcksOnce n →
    AcksOnce (exec (fun n a => n.turn (slot a) (f a)) n l) := by
  induction l with
  | nil => exact fun h => h
  | cons a l ih => exact fun h => ih (h.turn (hf a _))

theorem ifLive (h : AcksOnce n) {f : St → St} (hf : Turned Stays (n.sockAt i) (f (n.sockAt i))) :
    AcksOnce (ifLive n i f) := by
  unfold LibTpa.ifLive
  split
  · exact h
  · exact h.turn (.alone hf.seats)

theorem outputTurns (h : AcksOnce n) : AcksOnce (outputTurns cfg n) := by
  have h₁ :
    AcksOnce { n with worker := { n.worker with output := n.worker.output.drop batchSize } } :=
    ⟨h.children, h.nodup⟩
  exact turns (fun i => i) (fun _ => tcpOutputOne cfg)
    (fun _ s => .alone (Turned.tcpOutputOne cfg s).seats) _ h₁

theorem step (h : AcksOnce n) (e : StackEv) : AcksOnce (stackStep cfg n e) := by
  cases e with
  | input burst =>
    have h₁ : AcksOnce (exec (inputOne cfg) n burst) :=
      turns Prod.fst (fun r s => inputPacket cfg s r.2)
        (fun r s => (inputPacket_heard cfg s r.2).visited (.stays (.refl _))) burst h
    exact turns (fun i => i) (fun _ => inputEnd cfg) (fun _ s => inputEnd_visited cfg s) _ h₁
  | output =>
    have ho : AcksOnce (LibTpa.outputTurns cfg n) := h.outputTurns
    have hs := (flushDelayedAck_scanned cfg batchSize ho.children ho.nodup).1
    obtain ⟨front, hf, -⟩ := hs.front
    exact ⟨hs.children, (List.nodup_append.mp (hf ▸ ho.nodup)).2.1⟩
  | timer i k => exact h.ifLive (.tcpTimeout cfg _ k)
  | call i c => exact h.ifLive (.stays (c.stays cfg _))
  | neighReady i => exact ⟨rfl, h.nodup⟩
  | acceptBurst nr => exact ⟨h.children, h.nodup⟩
  | connect i isIpv6 => exact ⟨h.children, h.nodup⟩
  | listen i isIpv6 => exact ⟨h.children, h.nodup⟩
  | eventCtrl i op m data =>
    change AcksOnce (tpaEventCtrl n i op m data).2
    rcases tpaEventCtrl_put n i op m data with he | ⟨-, s', hs, -, -, he⟩
    · rw [he]
      exact h
    · rw [he]
      exact ⟨hs.queues.children.trans h.children, hs.queues.once h.nodup⟩
  | eventPoll max => exact ⟨h.children, h.nodup⟩
  | world => exact ⟨h.children, h.nodup⟩

theorem boot (cfg : TcpCfg) (nrDesc : Nat) (o : Oracles) : AcksOnce (.boot cfg nrDesc o) :=
  ⟨rfl, List.nodup_nil⟩

end AcksOnce

/-- Over every run of a worker: when `tcp_flush_delayed_ack` returns with rounds left, no
socket that stays queued has an ACK due, exactly if none was blocked when it was called. -/
theorem delayedAck_starvation_iff {ok : Stack → StackEv → Prop} {nrDesc : Nat} {o : Oracles}
    (hr : Reach (stackStep cfg) ok (.boot cfg nrDesc o) n)
    (hlt : (outputTurns cfg n).worker.delayedAck.length <
      (tcpOutput cfg n).worker.delayedAck.length + batchSize) :
    (∀ j ∈ (tcpOutput cfg n).worker.delayedAck, ¬ AckOverdue cfg (tcpOutput cfg n) j) ↔
      ¬ AckBlocked cfg (outputTurns cfg n) := by
  have h : AcksOnce n := hr.invariant (.boot cfg nrDesc o) fun _ e h _ => h.step e
  have ho : AcksOnce (outputTurns cfg n) := h.outputTurns
  rw [← flushDelayedAck_overdue_iff ho.children ho.nodup hlt]
  push Not
  exact Iff.rfl

theorem Iovec.byte_fits (b : Byte) : [b].length < 2 ^ 32 := show 1 < 2 ^ 32 by decide

def Iovec.byte (b : Byte) : Iovec := ⟨[b], byte_fits b, false, 0, 0, none⟩

def quickBytes (i id : Nat) : List (Nat × Packet) :=
  (List.range tsockQuickackCount).map fun k =>
    (i, .oneByte (id + k) (101 + BitVec.ofNat 32 k) 1 1000 { ack := true } 97)

def twoOwed : List StackEv :=
  [.connect 0 false, .connect 1 false, .output,
    .input [(0, .bare 1 100 1 1000 { syn := true, ack := true })],
    .input [(1, .bare 2 100 1 1000 { syn := true, ack := true })],
    .input (quickBytes 0 10), .input (quickBytes 1 50),
    .world 10000 0 0 { allocOk := List.replicate 8 true },
    .input [(0, .oneByte 90 131 1 1000 { ack := true } 97)],
    .input [(1, .oneByte 91 131 1 1000 { ack := true } 97)]]

def owingWorker : Stack :=
  .boot {} 4 { allocOk := List.replicate 80 true, ethOk := [true, true] }

theorem twoOwed_admitted :
    Admitted (stackStep {}) (fun n e => e.Sound {} n) owingWorker twoOwed := by
  decide +kernel

theorem delayedAck_starvation_twoOwed :
    let n := exec (stackStep {}) owingWorker twoOwed
    n.worker.delayedAck = [0, 1] ∧
      ∀ j ∈ (tcpOutput {} n).worker.delayedAck, ¬ AckOverdue {} (tcpOutput {} n) j := by
  have hq : (exec (stackStep {}) owingWorker twoOwed).worker.delayedAck = [0, 1] := by
    decide +kernel
  have hb : (outputTurns {} (exec (stackStep {}) owingWorker twoOwed)).worker.delayedAck = [0, 1] ∧
      ScanPasses {} (outputTurns {} (exec (stackStep {}) owingWorker twoOwed)) 0 ∧
      (outputTurns {} (exec (stackStep {}) owingWorker twoOwed)).worker.delayedAck.length <
        (tcpOutput {} (exec (stackStep {}) owingWorker twoOwed)).worker.delayedAck.length +
          batchSize := by decide +kernel
  have hr : Reach (stackStep {}) (fun n e => e.Sound {} n) owingWorker
      (exec (stackStep {}) owingWorker twoOwed) := Reach.refl.exec twoOwed_admitted
  generalize exec (stackStep {}) owingWorker twoOwed = n at hq hb hr
  refine ⟨hq, (delayedAck_starvation_iff hr hb.2.2).mpr ?_⟩
  rintro ⟨i, j, hsub, hi, -⟩
  rw [hb.1] at hsub
  have hi0 : i = 0 := by
    cases hsub with
    | cons _ h =>
      have := h.length_le
      simp at this
    | cons_cons _ h => rfl
  exact hi (hi0 ▸ hb.2.1)

/-- The first of them sends a byte in the same round of the worker: it is no longer due and
stays in front of the other one. -/
theorem sender_starves_other :
    let n := exec (stackStep {}) owingWorker (twoOwed ++ [.call 0 (.write [.byte 7])])
    Reach (stackStep {}) (fun n e => e.Sound {} n) owingWorker n ∧
      (outputTurns {} n).worker.delayedAck.length <
        (tcpOutput {} n).worker.delayedAck.length + batchSize ∧
      1 ∈ (tcpOutput {} n).worker.delayedAck ∧ AckOverdue {} (tcpOutput {} n) 1 :=
  ⟨Reach.refl.exec (by decide +kernel), by decide +kernel, by decide +kernel, by decide +kernel⟩

end LibTpa
