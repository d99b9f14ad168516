/- LibTpa/Neigh/Conserved
   digest: No waiting packet is lost, as long as none is stale when the ring is full. -/

import LibTpa.Neigh.Wait
import Mathlib.Algebra.BigOperators.Fin

set_option autoImplicit false

namespace LibTpa

open LibTpa.Lib

variable {n : Nat} {dev : NeighDev} {s s' : NeighSt n} {pkt : WaitPkt} {id : Nat}

def idCount (id : Nat) (l : List WaitPkt) : Nat := (l.map WaitPkt.id).count id

/-- In how many places a packet is: in the ring, in the flush queues, on a txq, freed. -/
def NeighSt.places (s : NeighSt n) (id : Nat) : Nat :=
  idCount id s.ring + (∑ w, idCount id (s.flushQueue w)) + idCount id s.txq + idCount id s.freed

def PacketsPlaced (s : NeighSt n) : Prop := ∀ id ∈ s.accepted, s.places id = 1

/-- A packet that finds the ring full finds no stale one in it. -/
def NoStaleWhenFull (s : NeighSt n) : WaitEvent n → Prop
  | .xmit _ => neighQueueLen - 1 ≤ s.ring.length →
    ∀ p ∈ s.ring, staleTsock (s.socks p.tsock) = false
  | _ => True

def WaitOk (dev : NeighDev) (s : NeighSt n) (e : WaitEvent n) : Prop :=
  (waitStep? dev s e).isSome = true ∧ NoStaleWhenFull s e

instance (s : NeighSt n) (e : WaitEvent n) : Decidable (NoStaleWhenFull s e) :=
  match e with
  | .xmit _ => inferInstanceAs (Decidable (_ → ∀ p ∈ s.ring, staleTsock (s.socks p.tsock) = false))
  | .input _ _ => isTrue trivial
  | .update _ _ => isTrue trivial
  | .lookup _ => isTrue trivial
  | .connect _ _ _ => isTrue trivial
  | .move _ _ => isTrue trivial
  | .free _ => isTrue trivial
  | .flush _ => isTrue trivial

instance (dev : NeighDev) (s : NeighSt n) (e : WaitEvent n) : Decidable (WaitOk dev s e) :=
  inferInstanceAs (Decidable (_ ∧ _))

theorem idCount_append (l l' : List WaitPkt) :
    idCount id (l ++ l') = idCount id l + idCount id l' := by
  unfold idCount
  rw [List.map_append, List.count_append]

theorem idCount_cons (l : List WaitPkt) :
    idCount id (pkt :: l) = idCount id l + if pkt.id = id then 1 else 0 := by
  unfold idCount
  rw [List.map_cons, List.count_cons]
  simp only [beq_iff_eq]

theorem idCount_singleton : idCount id [pkt] = if pkt.id = id then 1 else 0 := by
  rw [idCount_cons]
  exact Nat.zero_add _

private theorem idCount_setFlushQueue (id : Nat) (s : NeighSt n) (w : Fin n) (q : List WaitPkt) :
    (∑ w', idCount id (setFlushQueue s w q w')) + idCount id (s.flushQueue w) =
      (∑ w', idCount id (s.flushQueue w')) + idCount id q := by
  have hsplit : ∀ f : Fin n → Nat, ∑ w', f w' = f w + ∑ w' ∈ Finset.univ.erase w, f w' := by
    intro f
    exact (Finset.add_sum_erase _ f (Finset.mem_univ w)).symm
  have hsame : ∑ w' ∈ Finset.univ.erase w, idCount id (setFlushQueue s w q w') =
      ∑ w' ∈ Finset.univ.erase w, idCount id (s.flushQueue w') := by
    apply Finset.sum_congr rfl
    intro w' hw'
    unfold setFlushQueue
    rw [if_neg (Finset.ne_of_mem_erase hw')]
  have hhere : setFlushQueue s w q w = q := if_pos rfl
  rw [hsplit, hsame, hhere, hsplit fun w' => idCount id (s.flushQueue w')]
  omega

theorem flushPush_places (w : Fin n) :
    (flushPush s w pkt).places id = s.places id + if pkt.id = id then 1 else 0 := by
  have h := idCount_setFlushQueue id s w (s.flushQueue w ++ [pkt])
  rw [idCount_append, idCount_singleton] at h
  unfold NeighSt.places flushPush
  dsimp only
  omega

theorem doNeighWaitEnqueue_places (h : s.ring.length < neighQueueLen - 1) :
    (doNeighWaitEnqueue s pkt).2.places id = s.places id + if pkt.id = id then 1 else 0 := by
  unfold doNeighWaitEnqueue NeighSt.places
  rw [if_pos h]
  dsimp only
  rw [idCount_append, idCount_singleton]
  omega

theorem flushPacket_places (s : NeighSt n) (pkt : WaitPkt) :
    (flushPacket s pkt).places id = s.places id + if pkt.id = id then 1 else 0 := by
  unfold flushPacket NeighSt.places
  split
  · dsimp only
    rw [idCount_append, idCount_singleton]
    omega
  · dsimp only
    split
    · dsimp only
      rw [idCount_append, idCount_singleton]
      omega
    · dsimp only
      rw [idCount_append, idCount_singleton]
      omega

theorem flushLoop_places (w : Fin n) (budget : Nat) :
    ∀ s : NeighSt n, (flushLoop w budget s).places id = s.places id := by
  induction budget with
  | zero => exact fun s => rfl
  | succ budget ih =>
    intro s
    unfold flushLoop
    split
    · rfl
    · rename_i pkt rest hq
      rw [ih, flushPacket_places]
      have h := idCount_setFlushQueue id s w rest
      rw [hq, idCount_cons] at h
      unfold NeighSt.places
      dsimp only
      omega

structure WaitFrame (s s' : NeighSt n) : Prop where
  accepted : s'.accepted = s.accepted
  nextId : s'.nextId = s.nextId

theorem WaitFrame.refl (s : NeighSt n) : WaitFrame s s := ⟨rfl, rfl⟩

theorem WaitFrame.trans {s₁ s₂ s₃ : NeighSt n} (h : WaitFrame s₁ s₂) (h' : WaitFrame s₂ s₃) :
    WaitFrame s₁ s₃ :=
  ⟨h'.accepted.trans h.accepted, h'.nextId.trans h.nextId⟩

private theorem doNeighWaitEnqueue_room (h : s.ring.length < neighQueueLen - 1) :
    doNeighWaitEnqueue s pkt = (true, { s with ring := s.ring ++ [pkt] }) := if_pos h

/-- A packet of the burst is in one place again, and the ring has room for the others. -/
private theorem checkNeighWaitPacket_places (hroom : s.ring.length < neighQueueLen - 1)
    (h : checkNeighWaitPacket dev s pkt = some s') :
    (∀ id, s'.places id = s.places id + if pkt.id = id then 1 else 0) ∧
      s'.ring.length ≤ s.ring.length + 1 ∧ WaitFrame s s' := by
  unfold checkNeighWaitPacket at h
  dsimp only at h
  split at h
  · rw [← Option.some.inj h]
    exact ⟨fun id => flushPush_places _, Nat.le_succ _, ⟨rfl, rfl⟩⟩
  split at h
  · exact absurd h (Option.some_ne_none s').symm
  · rename_i cache hl
    rw [← Option.some.inj h]
    refine ⟨fun id => doNeighWaitEnqueue_places hroom, ?_⟩
    rw [doNeighWaitEnqueue_room (s := { s with cache := cache }) hroom]
    exact ⟨le_of_eq List.length_append, ⟨rfl, rfl⟩⟩
  · rw [← Option.some.inj h]
    exact ⟨fun id => flushPush_places _, Nat.le_succ _, ⟨rfl, rfl⟩⟩

private theorem checkLoop_places (pkts : List WaitPkt) : ∀ s : NeighSt n,
    s.ring.length + pkts.length ≤ neighQueueLen - 1 → checkLoop dev pkts s = some s' →
    (∀ id, s'.places id = s.places id + idCount id pkts) ∧
      s'.ring.length ≤ neighQueueLen - 1 ∧ WaitFrame s s' := by
  induction pkts with
  | nil =>
    intro s hroom h
    rw [← Option.some.inj h]
    exact ⟨fun id => rfl, hroom, .refl s⟩
  | cons pkt rest ih =>
    intro s hroom h
    rw [List.length_cons] at hroom
    obtain ⟨s₁, h1, h2⟩ := Option.bind_eq_some_iff.1 h
    obtain ⟨hp1, hr1, hf1⟩ := checkNeighWaitPacket_places (by omega) h1
    obtain ⟨hp2, hr2, hf2⟩ := ih s₁ (by omega) h2
    refine ⟨fun id => ?_, hr2, hf1.trans hf2⟩
    rw [hp2, hp1, idCount_cons]
    omega

private theorem ringDequeueBurst_all (h : s.ring.length ≤ neighQueueLen - 1) :
    ringDequeueBurst s = (s.ring, { s with ring := [] }) := by
  have hlen : s.ring.length ≤ neighQueueLen := h.trans (Nat.sub_le _ _)
  unfold ringDequeueBurst
  rw [List.take_of_length_le hlen, List.drop_of_length_le hlen]

theorem checkNeighWaitQueue_places (hcap : s.ring.length ≤ neighQueueLen - 1)
    (h : checkNeighWaitQueue dev s = some s') :
    (∀ id, s'.places id = s.places id) ∧ s'.ring.length ≤ neighQueueLen - 1 ∧ WaitFrame s s' := by
  unfold checkNeighWaitQueue at h
  rw [ringDequeueBurst_all hcap] at h
  obtain ⟨hp, hr, hf⟩ := checkLoop_places s.ring { s with ring := [] } (by simpa using hcap) h
  refine ⟨fun id => ?_, hr, ⟨hf.accepted, hf.nextId⟩⟩
  rw [hp]
  unfold NeighSt.places
  dsimp only
  rw [show idCount id [] = 0 from rfl]
  omega

private theorem requeue_live (pkts : List WaitPkt) : ∀ s : NeighSt n,
    s.ring.length + pkts.length ≤ neighQueueLen - 1 →
    (∀ p ∈ pkts, staleTsock (s.socks p.tsock) = false) →
    pkts.foldl (fun s pkt => if staleTsock (s.socks pkt.tsock) then s
      else (doNeighWaitEnqueue s pkt).2) s =
      { s with ring := s.ring ++ pkts } := by
  induction pkts with
  | nil =>
    intro s _ _
    rw [List.append_nil]
    rfl
  | cons pkt rest ih =>
    intro s hroom hlive
    rw [List.length_cons] at hroom
    rw [List.foldl_cons, hlive pkt List.mem_cons_self, if_neg Bool.false_ne_true,
      doNeighWaitEnqueue_room (by omega), ih]
    · rw [List.append_assoc]
      rfl
    · rw [List.length_append, List.length_singleton]
      omega
    · exact fun p hp => hlive p (List.mem_cons_of_mem pkt hp)

theorem tryDropStaleNeighRequest_live (hcap : s.ring.length ≤ neighQueueLen - 1)
    (hlive : ∀ p ∈ s.ring, staleTsock (s.socks p.tsock) = false) :
    tryDropStaleNeighRequest s = s := by
  unfold tryDropStaleNeighRequest
  rw [ringDequeueBurst_all hcap]
  rw [requeue_live s.ring { s with ring := [] } (by simpa using hcap) hlive]
  rfl

structure WaitInv (s : NeighSt n) : Prop where
  capacity : s.ring.length ≤ neighQueueLen - 1
  placed : ∀ id, s.places id = if id < s.nextId then 1 else 0
  accepted : ∀ id ∈ s.accepted, id < s.nextId

theorem WaitInv.packetsPlaced (h : WaitInv s) : PacketsPlaced s := by
  intro id hid
  rw [h.placed, if_pos (h.accepted id hid)]

theorem WaitInv.of_places (h : WaitInv s) (hcap : s'.ring.length ≤ neighQueueLen - 1)
    (hp : ∀ id, s'.places id = s.places id) (hf : WaitFrame s s') : WaitInv s' := by
  refine ⟨hcap, fun id => ?_, fun id hid => ?_⟩
  · rw [hp, hf.nextId]
    exact h.placed id
  · rw [hf.nextId]
    rw [hf.accepted] at hid
    exact h.accepted id hid

private theorem placed_succ (h : WaitInv s)
    (hp : ∀ id, s'.places id = s.places id + if s.nextId = id then 1 else 0)
    (hn : s'.nextId = s.nextId + 1) (id : Nat) :
    s'.places id = if id < s'.nextId then 1 else 0 := by
  rw [hp, h.placed, hn]
  split
  · split
    · omega
    · split
      · rfl
      · omega
  · split
    · rw [if_pos (by omega)]
    · rw [if_neg (by omega)]

def newPkt (s : NeighSt n) (i : Nat) : WaitPkt :=
  { id := s.nextId, tsock := i, dstIp := (s.socks i).remoteIp }

theorem xmitMissingArp_room (i : Nat) (hroom : s.ring.length < neighQueueLen - 1) :
    xmitMissingArp s i = { s with
      ring := s.ring ++ [newPkt s i]
      nextId := s.nextId + 1
      accepted := s.accepted ++ [s.nextId] } := by
  unfold xmitMissingArp NeighSt.neighWaitEnqueue
  dsimp only
  rw [doNeighWaitEnqueue_room (s := { s with nextId := s.nextId + 1 }) hroom]
  rfl

theorem xmitMissingArp_full (i : Nat) (hcap : s.ring.length = neighQueueLen - 1)
    (hlive : ∀ p ∈ s.ring, staleTsock (s.socks p.tsock) = false) :
    xmitMissingArp s i = { s with
      freed := s.freed ++ [newPkt s i]
      nextId := s.nextId + 1 } := by
  have hfull : doNeighWaitEnqueue { s with nextId := s.nextId + 1 } (newPkt s i) =
      (false, { s with nextId := s.nextId + 1 }) := if_neg (by dsimp only; omega)
  have hdrop : tryDropStaleNeighRequest { s with nextId := s.nextId + 1 } =
    { s with nextId := s.nextId + 1 } :=
    tryDropStaleNeighRequest_live (le_of_eq hcap) hlive
  have hq : NeighSt.neighWaitEnqueue { s with nextId := s.nextId + 1 } (newPkt s i) =
      (false, { s with nextId := s.nextId + 1 }) := by
    unfold NeighSt.neighWaitEnqueue
    rw [hfull]
    rw [if_neg Bool.false_ne_true, hdrop, hfull]
  unfold newPkt at hq
  unfold xmitMissingArp
  dsimp only
  rw [hq]
  rfl

theorem WaitInv.xmit (h : WaitInv s) (i : Nat) (hok : NoStaleWhenFull s (.xmit i)) :
    WaitInv (xmitMissingArp s i) := by
  have hid : (newPkt s i).id = s.nextId := rfl
  by_cases hroom : s.ring.length < neighQueueLen - 1
  · rw [xmitMissingArp_room i hroom]
    refine ⟨?_, placed_succ h (fun id => ?_) rfl, fun id hm => ?_⟩
    · rw [List.length_append, List.length_singleton]
      omega
    · unfold NeighSt.places
      dsimp only
      rw [idCount_append, idCount_singleton, hid]
      omega
    · rcases List.mem_append.1 hm with hm | hm
      · exact Nat.lt_succ_of_lt (h.accepted id hm)
      · rw [List.mem_singleton.1 hm]
        exact Nat.lt_succ_self s.nextId
  · have hlive := hok (Nat.le_of_not_lt hroom)
    rw [xmitMissingArp_full i (Nat.le_antisymm h.capacity (Nat.le_of_not_lt hroom)) hlive]
    refine ⟨h.capacity, placed_succ h (fun id => ?_) rfl,
      fun id hm => Nat.lt_succ_of_lt (h.accepted id hm)⟩
    unfold NeighSt.places
    dsimp only
    rw [idCount_append, idCount_singleton, hid]
    omega

theorem WaitInv.input (h : WaitInv s) {ip : TpaIp} {mac : Mac}
    (hs : neighInput dev s ip mac = some s') :
    WaitInv s' := by
  unfold neighInput at hs
  obtain ⟨cache, -, hcheck⟩ := Option.bind_eq_some_iff.1 hs
  split at hcheck
  · obtain ⟨hp, hr, hf⟩ :=
      checkNeighWaitQueue_places (s := { s with cache := cache }) h.capacity hcheck
    exact h.of_places hr hp ⟨hf.accepted, hf.nextId⟩
  · rw [← Option.some.inj hcheck]
    exact h.of_places h.capacity (fun id => rfl) ⟨rfl, rfl⟩

private theorem flushLoop_frame (w : Fin n) (budget : Nat) : ∀ s : NeighSt n,
    (flushLoop w budget s).ring = s.ring ∧ WaitFrame s (flushLoop w budget s) := by
  have hone : ∀ (s : NeighSt n) (pkt : WaitPkt), (flushPacket s pkt).ring = s.ring ∧
      WaitFrame s (flushPacket s pkt) := by
    intro s pkt
    unfold flushPacket
    split
    · exact ⟨rfl, rfl, rfl⟩
    · dsimp only
      split
      · exact ⟨rfl, rfl, rfl⟩
      · exact ⟨rfl, rfl, rfl⟩
  induction budget with
  | zero => exact fun s => ⟨rfl, .refl s⟩
  | succ budget ih =>
    intro s
    unfold flushLoop
    split
    · exact ⟨rfl, .refl s⟩
    · rename_i pkt rest hq
      obtain ⟨h1, h2⟩ := hone { s with flushQueue := setFlushQueue s w rest } pkt
      obtain ⟨h3, h4⟩ := ih (flushPacket { s with flushQueue := setFlushQueue s w rest } pkt)
      exact ⟨h3.trans h1, h4.accepted.trans h2.accepted, h4.nextId.trans h2.nextId⟩

theorem WaitInv.step (h : WaitInv s) (e : WaitEvent n) (hok : WaitOk dev s e) :
    WaitInv (waitStep dev s e) := by
  obtain ⟨hsome, hfull⟩ := hok
  obtain ⟨s', hs'⟩ := Option.isSome_iff_exists.1 hsome
  rw [waitStep, hs', Option.getD_some]
  have hsame : s'.places = s.places → s'.ring = s.ring → WaitFrame s s' → WaitInv s' := by
    intro hp hr hf
    exact h.of_places (hr ▸ h.capacity) (fun id => congrFun hp id) hf
  cases e with
  | xmit i =>
    rw [← Option.some.inj hs']
    exact h.xmit i hfull
  | input ip mac => exact h.input hs'
  | update ip mac =>
    obtain ⟨cache, -, rfl⟩ := Option.map_eq_some_iff.1 hs'
    exact hsame rfl rfl ⟨rfl, rfl⟩
  | lookup ip =>
    obtain ⟨r, -, rfl⟩ := Option.map_eq_some_iff.1 hs'
    exact hsame rfl rfl ⟨rfl, rfl⟩
  | connect i ip w =>
    obtain ⟨-, hset⟩ := Option.ite_none_right_eq_some.1 hs'
    rw [← Option.some.inj hset] at hsame ⊢
    exact hsame rfl rfl ⟨rfl, rfl⟩
  | move i state =>
    rw [← Option.some.inj hs']
    exact h.of_places h.capacity (fun id => rfl) ⟨rfl, rfl⟩
  | free i =>
    rw [← Option.some.inj hs']
    exact h.of_places h.capacity (fun id => rfl) ⟨rfl, rfl⟩
  | flush w =>
    rw [← Option.some.inj hs']
    obtain ⟨hr, hf⟩ := flushLoop_frame w neighBatchSize s
    exact h.of_places (hr ▸ h.capacity) (fun id => flushLoop_places w _ s) hf

private theorem WaitInv.boot (cache : NeighCache) (w : Fin n) (txqOk : List Bool) :
    WaitInv (neighBoot cache w txqOk) := by
  refine ⟨Nat.zero_le _, fun id => ?_, fun id hm => absurd hm List.not_mem_nil⟩
  have hempty : idCount id [] = 0 := rfl
  unfold NeighSt.places neighBoot
  dsimp only
  rw [hempty, Finset.sum_const_zero, if_neg (Nat.not_lt_zero id)]
  rfl

/-- In every run in which no packet finds the ring full of packets with a stale one among them,
each packet that waits or waited is in one place. -/
theorem waitingPackets_conserved (cache : NeighCache) (w : Fin n) (txqOk : List Bool)
    (h : Run.Reach (waitStep dev) (WaitOk dev) (neighBoot cache w txqOk) s) : PacketsPlaced s :=
  (h.invariant (WaitInv.boot cache w txqOk) fun _ e hinv hok => hinv.step e hok).packetsPlaced

private theorem exec_xmits (dev : NeighDev) (i k : Nat) :
    ∀ s : NeighSt n, s.ring.length + k ≤ neighQueueLen - 1 →
    Run.exec (waitStep dev) s (List.replicate k (.xmit i)) = { s with
      ring := s.ring ++ (List.range k).map fun j =>
        { id := s.nextId + j, tsock := i, dstIp := (s.socks i).remoteIp }
      nextId := s.nextId + k
      accepted := s.accepted ++ (List.range k).map (s.nextId + ·) } := by
  induction k with
  | zero =>
    intro s _
    rw [List.range_zero, List.map_nil, List.map_nil, List.append_nil, List.append_nil]
    rfl
  | succ k ih =>
    intro s hroom
    rw [List.replicate_succ', Run.exec, List.foldl_append, List.foldl_cons,
      List.foldl_nil, ← Run.exec, ih s (by omega)]
    show xmitMissingArp _ i = _
    rw [xmitMissingArp_room i (by simp; omega), List.range_succ, List.map_append, List.map_append,
      List.map_singleton, List.map_singleton, List.append_assoc, List.append_assoc]
    rfl

private theorem drop_stale (pkts : List WaitPkt) (s : NeighSt n)
    (hstale : ∀ p ∈ pkts, staleTsock (s.socks p.tsock) = true) :
    pkts.foldl (fun s pkt => if staleTsock (s.socks pkt.tsock) then s
      else (doNeighWaitEnqueue s pkt).2) s = s := by
  induction pkts with
  | nil => rfl
  | cons pkt rest ih =>
    rw [List.foldl_cons, hstale pkt List.mem_cons_self, if_pos rfl]
    exact ih fun p hp => hstale p (List.mem_cons_of_mem pkt hp)

/-- If all that waits is stale when the ring is full, it is gone. -/
theorem xmitMissingArp_drop (i : Nat) (hcap : s.ring.length = neighQueueLen - 1)
    (hstale : ∀ p ∈ s.ring, staleTsock (s.socks p.tsock) = true) :
    xmitMissingArp s i = { s with
      ring := [newPkt s i]
      nextId := s.nextId + 1
      accepted := s.accepted ++ [s.nextId] } := by
  have hfull : doNeighWaitEnqueue { s with nextId := s.nextId + 1 } (newPkt s i) =
      (false, { s with nextId := s.nextId + 1 }) := if_neg (by dsimp only; omega)
  have hdrop : tryDropStaleNeighRequest { s with nextId := s.nextId + 1 } =
      { s with ring := [], nextId := s.nextId + 1 } := by
    unfold tryDropStaleNeighRequest
    rw [ringDequeueBurst_all (s := { s with nextId := s.nextId + 1 }) (le_of_eq hcap)]
    exact drop_stale s.ring _ hstale
  have hq : NeighSt.neighWaitEnqueue { s with nextId := s.nextId + 1 } (newPkt s i) =
      (true, { s with ring := [newPkt s i], nextId := s.nextId + 1 }) := by
    unfold NeighSt.neighWaitEnqueue
    rw [hfull]
    rw [if_neg Bool.false_ne_true, hdrop]
    rfl
  unfold newPkt at hq
  unfold xmitMissingArp
  dsimp only
  rw [hq]
  rfl

def linkDev : NeighDev := { prefixlen := 6 }

def twoSocks : NeighSt 1 :=
  Run.exec (waitStep linkDev) (neighBoot {} 0 []) [.connect 0 1 0, .connect 1 2 0]

private theorem staleRun_loses (k : Nat) (hk : k = neighQueueLen - 1) :
    let s :=
  Run.exec (waitStep linkDev) twoSocks (List.replicate k (.xmit 0) ++ [.move 0 .closed, .xmit 1])
    0 ∈ s.accepted ∧ s.places 0 = 0 := by
  have hfill := exec_xmits linkDev 0 k twoSocks (by rw [hk]; decide)
  obtain ⟨t, ht⟩ : ∃ t : NeighSt 1, t =
      (Run.exec (waitStep linkDev) twoSocks (List.replicate k (.xmit 0))).setSock 0
        ⟨0, .closed, 1, 0⟩ := ⟨_, rfl⟩
  have hrun : Run.exec (waitStep linkDev) twoSocks
      (List.replicate k (.xmit 0) ++ [.move 0 .closed, .xmit 1]) = xmitMissingArp t 1 := by
    unfold Run.exec at hfill ht ⊢
    rw [List.foldl_append, ht, hfill]
    rfl
  rw [hfill] at ht
  have hring : t.ring = (List.range k).map fun j => { id := 0 + j, tsock := 0, dstIp := 1 } := by
    rw [ht]
    rfl
  have hcap : t.ring.length = neighQueueLen - 1 := by
    rw [hring, List.length_map, List.length_range, hk]
  have hstale : ∀ p ∈ t.ring, staleTsock (t.socks p.tsock) = true := by
    intro p hp
    rw [hring] at hp
    obtain ⟨j, -, rfl⟩ := List.mem_map.1 hp
    rw [ht]
    rfl
  rw [hrun, xmitMissingArp_drop 1 hcap hstale]
  constructor
  · apply List.mem_append_left
    rw [ht]
    exact List.mem_map.2 ⟨0, List.mem_range.2 (by rw [hk]; decide), rfl⟩
  · have hid : (newPkt t 1).id ≠ 0 := by
      rw [ht]
      rw [hk]
      decide
    have hflush : t.flushQueue = fun _ => [] := by rw [ht]; rfl
    have hgone : t.txq = [] ∧ t.freed = [] := by rw [ht]; exact ⟨rfl, rfl⟩
    unfold NeighSt.places
    rw [idCount_singleton, if_neg hid, hflush, hgone.1, hgone.2]
    rfl

/-- The first socket fills the ring with its requests and is closed; the request of the second
one drops them all, and none is freed. -/
theorem staleRequests_lost :
    let s :=
  Run.exec (waitStep linkDev) twoSocks (List.replicate 1023 (.xmit 0) ++ [.move 0 .closed, .xmit 1])
    0 ∈ s.accepted ∧ s.places 0 = 0 ∧ ¬ PacketsPlaced s := by
  obtain ⟨hacc, hplaces⟩ := staleRun_loses 1023 rfl
  refine ⟨hacc, hplaces, fun hall => ?_⟩
  have hone := hall 0 hacc
  rw [hplaces] at hone
  exact absurd hone (by decide)

theorem waitingPackets_conserved_answered :
    let s := Run.exec (waitStep linkDev) twoSocks
      [.lookup 1, .xmit 0, .xmit 1, .input 1 5, .move 1 .closed, .input 1 6, .flush 0]
    s.txq.length = 1 ∧ s.freed.length = 1 ∧ PacketsPlaced s := by
  refine ⟨by decide +kernel, by decide +kernel, ?_⟩
  refine waitingPackets_conserved {} 0 [] (Run.Reach.exec (Run.Reach.exec .refl ?_) ?_)
  · decide +kernel
  · decide +kernel

end LibTpa
