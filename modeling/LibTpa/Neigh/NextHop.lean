/- LibTpa/Neigh/NextHop
   digest: A packet that waited leaves for its own next hop, unless its slot has a new socket. -/

import LibTpa.Neigh.Wait

set_option autoImplicit false

namespace LibTpa

open LibTpa.Lib

variable {n : Nat} {dev : NeighDev} {s s' : NeighSt n} {pkt : WaitPkt}

/-- What `neigh_flush` put on a txq has the MAC that was cached for the next hop of its own
destination when it was resolved. -/
def OwnNextHop (s : NeighSt n) : Prop := ∀ p ∈ s.txq, p.due = some p.ethDst

instance (s : NeighSt n) : Decidable (OwnNextHop s) :=
  inferInstanceAs (Decidable (∀ p ∈ s.txq, p.due = some p.ethDst))

def SameHop (dev : NeighDev) (s : NeighSt n) (pkt : WaitPkt) : Prop :=
  staleTsock (s.socks pkt.tsock) = false →
    neighTargetIp dev (s.socks pkt.tsock).remoteIp = neighTargetIp dev pkt.dstIp

/-- The ring is only looked through when each packet in it has the next hop of its slot. -/
def SlotsMatch (dev : NeighDev) (s : NeighSt n) : WaitEvent n → Prop
  | .input ip _ => (neighFind s.cache ip).isSome = true → ∀ p ∈ s.ring, SameHop dev s p
  | _ => True

def HopOk (dev : NeighDev) (s : NeighSt n) (e : WaitEvent n) : Prop :=
  (waitStep? dev s e).isSome = true ∧ SlotsMatch dev s e

instance (dev : NeighDev) (s : NeighSt n) (e : WaitEvent n) : Decidable (SlotsMatch dev s e) :=
  match e with
  | .input ip _ => inferInstanceAs (Decidable ((neighFind s.cache ip).isSome = true → ∀ p ∈ s.ring,
      (staleTsock (s.socks p.tsock) = false →
        neighTargetIp dev (s.socks p.tsock).remoteIp = neighTargetIp dev p.dstIp)))
  | .xmit _ => isTrue trivial
  | .update _ _ => isTrue trivial
  | .lookup _ => isTrue trivial
  | .connect _ _ _ => isTrue trivial
  | .move _ _ => isTrue trivial
  | .free _ => isTrue trivial
  | .flush _ => isTrue trivial

instance (dev : NeighDev) (s : NeighSt n) (e : WaitEvent n) : Decidable (HopOk dev s e) :=
  inferInstanceAs (Decidable (_ ∧ _))

def Addressed (pkt : WaitPkt) : Prop := pkt.stale = false → pkt.due = some pkt.ethDst

structure HopInv (s : NeighSt n) : Prop where
  queued : ∀ w, ∀ p ∈ s.flushQueue w, Addressed p
  sent : OwnNextHop s

theorem HopInv.of_eq (h : HopInv s) (hq : s'.flushQueue = s.flushQueue) (ht : s'.txq = s.txq) :
    HopInv s' := by
  refine ⟨?_, ?_⟩
  · rw [hq]
    exact h.queued
  · unfold OwnNextHop
    rw [ht]
    exact h.sent

theorem HopInv.push (h : HopInv s) (w : Fin n) (hp : Addressed pkt) :
    HopInv (flushPush s w pkt) := by
  refine ⟨fun w' p hm => ?_, h.sent⟩
  have hm' : p ∈ if w' = w then s.flushQueue w ++ [pkt] else s.flushQueue w' := hm
  split at hm'
  · rcases List.mem_append.1 hm' with hm' | hm'
    · exact h.queued w p hm'
    · rw [List.mem_singleton.1 hm']
      exact hp
  · exact h.queued w' p hm'

private theorem doNeighWaitEnqueue_out (s : NeighSt n) (pkt : WaitPkt) :
    (doNeighWaitEnqueue s pkt).2.flushQueue = s.flushQueue ∧
      (doNeighWaitEnqueue s pkt).2.txq = s.txq ∧
      (doNeighWaitEnqueue s pkt).2.socks = s.socks := by
  unfold doNeighWaitEnqueue
  split
  · exact ⟨rfl, rfl, rfl⟩
  · exact ⟨rfl, rfl, rfl⟩

/-- One packet of the burst: it goes back, or it leaves for the slot's next hop. -/
theorem HopInv.check (h : HopInv s) (hsame : SameHop dev s pkt)
    (hs : checkNeighWaitPacket dev s pkt = some s') : HopInv s' ∧ s'.socks = s.socks := by
  unfold checkNeighWaitPacket at hs
  dsimp only at hs
  split at hs
  · rw [← Option.some.inj hs]
    exact ⟨h.push _ fun hst => absurd hst.symm Bool.false_ne_true, rfl⟩
  rename_i hlive
  split at hs
  · exact absurd hs (Option.some_ne_none s').symm
  · rename_i cache hl
    rw [← Option.some.inj hs]
    obtain ⟨hq, ht, hk⟩ := doNeighWaitEnqueue_out { s with cache := cache } pkt
    exact ⟨h.of_eq hq ht, hk⟩
  · rename_i mac cache hl
    rw [← Option.some.inj hs]
    have hmac : some mac = cachedMac s.cache (neighTargetIp dev pkt.dstIp) := by
      rw [← hsame (Bool.eq_false_of_not_eq_true hlive)]
      exact doNeighLookup_fst hl
    refine ⟨?_, rfl⟩
    have hcache : HopInv { s with cache := cache } := h.of_eq rfl rfl
    exact hcache.push _ fun _ => hmac.symm

private theorem HopInv.checkLoop (pkts : List WaitPkt) : ∀ s : NeighSt n, HopInv s →
    (∀ p ∈ pkts, SameHop dev s p) → checkLoop dev pkts s = some s' → HopInv s' := by
  induction pkts with
  | nil =>
    intro s h _ hs
    rw [← Option.some.inj hs]
    exact h
  | cons pkt rest ih =>
    intro s h hsame hs
    obtain ⟨s₁, h1, h2⟩ := Option.bind_eq_some_iff.1 hs
    obtain ⟨hinv, hk⟩ := h.check (hsame pkt List.mem_cons_self) h1
    refine ih s₁ hinv (fun p hp => ?_) h2
    unfold SameHop
    rw [hk]
    exact hsame p (List.mem_cons_of_mem pkt hp)

theorem HopInv.input (h : HopInv s) {ip : TpaIp} {mac : Mac}
    (hok : SlotsMatch dev s (.input ip mac)) (hs : neighInput dev s ip mac = some s') :
    HopInv s' := by
  unfold neighInput at hs
  dsimp only at hs
  obtain ⟨cache, -, hcheck⟩ := Option.bind_eq_some_iff.1 hs
  split at hcheck
  · rename_i hentry
    unfold checkNeighWaitQueue ringDequeueBurst at hcheck
    dsimp only at hcheck
    have hburst : HopInv { s with cache := cache, ring := s.ring.drop neighQueueLen } :=
      h.of_eq rfl rfl
    exact HopInv.checkLoop _ _ hburst (fun p hp => hok hentry p (List.mem_of_mem_take hp)) hcheck
  · rw [← Option.some.inj hcheck]
    exact h.of_eq rfl rfl

private theorem HopInv.flushPacket (h : HopInv s) (hp : Addressed pkt) :
    HopInv (flushPacket s pkt) := by
  unfold LibTpa.flushPacket
  split
  · exact ⟨h.queued, h.sent⟩
  rename_i hlive
  dsimp only
  split
  · refine ⟨h.queued, fun p hm => ?_⟩
    rcases List.mem_append.1 hm with hm | hm
    · exact h.sent p hm
    · rw [List.mem_singleton.1 hm]
      exact hp (Bool.eq_false_of_not_eq_true hlive)
  · exact ⟨h.queued, h.sent⟩

theorem HopInv.flushLoop (w : Fin n) (budget : Nat) :
    ∀ s : NeighSt n, HopInv s → HopInv (flushLoop w budget s) := by
  induction budget with
  | zero => exact fun s h => h
  | succ budget ih =>
    intro s h
    unfold LibTpa.flushLoop
    split
    · exact h
    rename_i pkt rest hq
    have hall := h.queued w
    rw [hq] at hall
    apply ih
    apply HopInv.flushPacket
    · refine ⟨fun w' p hm => ?_, h.sent⟩
      have hm' : p ∈ if w' = w then rest else s.flushQueue w' := hm
      split at hm'
      · exact hall p (List.mem_cons_of_mem pkt hm')
      · exact h.queued w' p hm'
    · exact hall pkt List.mem_cons_self

private theorem tryDrop_out (s : NeighSt n) :
    (tryDropStaleNeighRequest s).flushQueue = s.flushQueue ∧
      (tryDropStaleNeighRequest s).txq = s.txq := by
  have hloop : ∀ (pkts : List WaitPkt) (t : NeighSt n),
      (pkts.foldl (fun s pkt => if staleTsock (s.socks pkt.tsock) then s
        else (doNeighWaitEnqueue s pkt).2) t).flushQueue =
        t.flushQueue ∧
      (pkts.foldl (fun s pkt => if staleTsock (s.socks pkt.tsock) then s
        else (doNeighWaitEnqueue s pkt).2) t).txq =
        t.txq := by
    intro pkts
    induction pkts with
    | nil => exact fun t => ⟨rfl, rfl⟩
    | cons pkt rest ih =>
      intro t
      rw [List.foldl_cons]
      split
      · exact ih t
      · obtain ⟨hq, ht, -⟩ := doNeighWaitEnqueue_out t pkt
        obtain ⟨hq', ht'⟩ := ih (doNeighWaitEnqueue t pkt).2
        exact ⟨hq'.trans hq, ht'.trans ht⟩
  exact hloop _ _

private theorem waitEnqueue_out (s : NeighSt n) (pkt : WaitPkt) :
    (s.neighWaitEnqueue pkt).2.flushQueue = s.flushQueue ∧
      (s.neighWaitEnqueue pkt).2.txq = s.txq := by
  obtain ⟨hq, ht, -⟩ := doNeighWaitEnqueue_out s pkt
  unfold NeighSt.neighWaitEnqueue
  dsimp only
  split
  · exact ⟨hq, ht⟩
  · obtain ⟨hq1, ht1⟩ := tryDrop_out (doNeighWaitEnqueue s pkt).2
    obtain ⟨hq2, ht2, -⟩ :=
      doNeighWaitEnqueue_out (tryDropStaleNeighRequest (doNeighWaitEnqueue s pkt).2) pkt
    exact ⟨(hq2.trans hq1).trans hq, (ht2.trans ht1).trans ht⟩

theorem HopInv.xmit (h : HopInv s) (i : Nat) : HopInv (xmitMissingArp s i) := by
  obtain ⟨hq, ht⟩ := waitEnqueue_out { s with nextId := s.nextId + 1 }
    { id := s.nextId, tsock := i, dstIp := (s.socks i).remoteIp }
  unfold xmitMissingArp
  dsimp only
  split
  · exact h.of_eq hq ht
  · exact h.of_eq hq ht

theorem HopInv.step (h : HopInv s) (e : WaitEvent n) (hok : HopOk dev s e) :
    HopInv (waitStep dev s e) := by
  obtain ⟨hsome, hslots⟩ := hok
  obtain ⟨s', hs'⟩ := Option.isSome_iff_exists.1 hsome
  rw [waitStep, hs', Option.getD_some]
  cases e with
  | xmit i =>
    rw [← Option.some.inj hs']
    exact h.xmit i
  | input ip mac => exact h.input hslots hs'
  | update ip mac =>
    obtain ⟨cache, -, rfl⟩ := Option.map_eq_some_iff.1 hs'
    exact h.of_eq rfl rfl
  | lookup ip =>
    obtain ⟨r, -, rfl⟩ := Option.map_eq_some_iff.1 hs'
    exact h.of_eq rfl rfl
  | connect i ip w =>
    obtain ⟨-, hset⟩ := Option.ite_none_right_eq_some.1 hs'
    rw [← Option.some.inj hset]
    exact h.of_eq rfl rfl
  | move i state =>
    rw [← Option.some.inj hs']
    exact h.of_eq rfl rfl
  | free i =>
    rw [← Option.some.inj hs']
    exact h.of_eq rfl rfl
  | flush w =>
    rw [← Option.some.inj hs']
    exact HopInv.flushLoop w neighBatchSize s h

private theorem HopInv.boot (cache : NeighCache) (w : Fin n) (txqOk : List Bool) :
    HopInv (neighBoot cache w txqOk) :=
  ⟨fun _ _ hm => absurd hm List.not_mem_nil, fun _ hm => absurd hm List.not_mem_nil⟩

/-- In every run in which a reply finds the waiting packets of live sockets in slots with their
own next hop, a packet leaves for its own next hop. -/
theorem flushed_own_nextHop (cache : NeighCache) (w : Fin n) (txqOk : List Bool)
    (h : Run.Reach (waitStep dev) (HopOk dev) (neighBoot cache w txqOk) s) : OwnNextHop s :=
  (h.invariant (HopInv.boot cache w txqOk) fun _ e hinv hok => hinv.step e hok).sent

/-- A packet to the address 1 waits, its socket is freed, and the slot gets a connection to 2.
The reply for 2 sends the packet there, when nothing is cached for 1. -/
theorem reusedSlot_misdirects :
    let s : NeighSt 1 := Run.exec (waitStep { prefixlen := 6 }) (neighBoot {} 0 [])
      [.connect 0 1 0, .lookup 1, .xmit 0, .free 0, .connect 0 2 0, .lookup 2, .input 2 5, .flush 0]
    s.txq.map WaitPkt.dstIp = [1] ∧ s.txq.map WaitPkt.ethDst = [5] ∧ cachedMac s.cache 1 = none ∧
      cachedMac s.cache 2 = some 5 ∧ ¬ OwnNextHop s := by
  refine ⟨by decide +kernel, by decide +kernel, by decide +kernel, by decide +kernel, ?_⟩
  decide +kernel

theorem flushed_own_nextHop_two :
    let s : NeighSt 1 := Run.exec (waitStep { prefixlen := 6 }) (neighBoot {} 0 [])
      [.connect 0 1 0, .lookup 1, .xmit 0, .input 1 4, .flush 0, .free 0, .connect 0 2 0,
        .lookup 2, .xmit 0,
        .input 2 5, .flush 0]
    s.txq.map WaitPkt.ethDst = [4, 5] ∧ OwnNextHop s := by
  refine ⟨by decide +kernel, flushed_own_nextHop {} 0 [] (Run.Reach.exec .refl ?_)⟩
  decide +kernel

end LibTpa
