/- LibTpa/Worker/Event
   digest: A worker with its sockets; no wake-up is lost and none is invented. -/

import LibTpa.Sock.Init
import LibTpa.Lib.Run

set_option autoImplicit false

namespace LibTpa

open Lib.Run

/-- A worker and the slots of `sock_ctrl`. A slot in no use holds a freed socket.
`accepted` records the sockets that `tpa_accept_burst` has returned. -/
structure Stack where
  worker : Worker
  socks : Nat → TcpSock
  accepted : Nat → Bool := fun _ => false

namespace Stack

def sockAt (n : Stack) (i : Nat) : St := ⟨n.worker, n.socks i⟩

def put (n : Stack) (i : Nat) (s : St) : Stack :=
  { n with worker := s.worker, socks := Function.update n.socks i s.tsock }

@[simp] theorem put_worker (n : Stack) (i : Nat) (s : St) : (n.put i s).worker = s.worker := rfl

@[simp] theorem put_self (n : Stack) (i : Nat) (s : St) : (n.put i s).socks i = s.tsock :=
  Function.update_self ..

theorem put_ne (n : Stack) {i j : Nat} (s : St) (h : j ≠ i) : (n.put i s).socks j = n.socks j :=
  Function.update_of_ne h ..

end Stack

inductive EventCtrl
  | add | mod | del
  deriving DecidableEq

def tpaEventCtrl (n : Stack) (sid : Nat) (op : EventCtrl) (events : BitVec 32) (data : Nat) :
    Option Errno × Stack :=
  let t := n.socks sid
  if t.freed then (some .einval, n)
  else if op = .del then
    (none, n.put sid ⟨n.worker, { t with ev := { t.ev with interestedEvents := 0 } }⟩)
  else
    let s : St := ⟨n.worker, { t with ev := { t.ev with
      data := data, interestedEvents := events ||| tpaEventHup ||| tpaEventErr } }⟩
    (none, n.put sid (if s.tsock.ev.events = 0 then s else tsockEventAdd s s.tsock.ev.events))

structure EventReport where
  sid : Nat
  events : BitVec 32
  data : Nat

/-- The loop of `tpa_event_poll`, over what is left of the queue, of the room for
entries and of the sockets. -/
def pollLoop : List Nat → Nat → (Nat → TcpSock) → List EventReport × List Nat × (Nat → TcpSock)
  | [], _, socks => ([], [], socks)
  | sid :: rest, 0, socks => ([], sid :: rest, socks)
  | sid :: rest, room + 1, socks =>
    let t := socks sid
    if t.closeIssued then pollLoop rest (room + 1) socks
    else if t.freed then pollLoop rest (room + 1) socks
    else
      let report := t.ev.events &&& t.ev.interestedEvents
      let socks := Function.update socks sid
        { t with ev := { t.ev with events := t.ev.events &&& ~~~report } }
      if report = 0 then pollLoop rest (room + 1) socks
      else
        let r := pollLoop rest room socks
        (⟨sid, report, t.ev.data⟩ :: r.1, r.2)

def tpaEventPoll (n : Stack) (max : Int) : List EventReport × Stack :=
  let r := pollLoop n.worker.eventQueue max.toNat n.socks
  (r.1, { n with worker := { n.worker with eventQueue := r.2.1 }, socks := r.2.2 })

/-! What has happened, as the application sees it. -/

inductive EventLog
  | raised (sid : Nat) (bits : BitVec 32)
  | interest (sid : Nat) (mask : BitVec 32)
  | reported (r : EventReport)

def pendingBits (sid : Nat) : List EventLog → BitVec 32 :=
  List.foldl (fun acc e => match e with
    | .raised i bits => if i = sid then acc ||| bits else acc
    | .interest _ _ => acc
    | .reported r => if r.sid = sid then acc &&& ~~~r.events else acc) 0

def interestBits (sid : Nat) : List EventLog → BitVec 32 :=
  List.foldl (fun acc e => match e with
    | .interest i mask => if i = sid then mask else acc
    | _ => acc) 0

inductive EventOp
  | add (sid : Nat) (bits : BitVec 32)
  | ctrl (sid : Nat) (op : EventCtrl) (mask : BitVec 32) (data : Nat)
  | poll (max : Int)

structure EventSt where
  stack : Stack
  log : List EventLog

def ctrlMask (op : EventCtrl) (mask : BitVec 32) : BitVec 32 :=
  if op = .del then 0 else mask ||| tpaEventHup ||| tpaEventErr

def eventStep (x : EventSt) : EventOp → EventSt
  | .add sid bits =>
    ⟨x.stack.put sid (tsockEventAdd (x.stack.sockAt sid) bits), x.log ++ [.raised sid bits]⟩
  | .ctrl sid op mask data =>
    ⟨(tpaEventCtrl x.stack sid op mask data).2, x.log ++ [.interest sid (ctrlMask op mask)]⟩
  | .poll max =>
    ⟨(tpaEventPoll x.stack max).2, x.log ++ (tpaEventPoll x.stack max).1.map .reported⟩

def Live (t : TcpSock) : Prop := t.freed = false ∧ t.closeIssued = false

/-- Events are raised and watched on such sockets only. -/
def EventOp.Allowed (x : EventSt) : EventOp → Prop
  | .add sid _ => Live (x.stack.socks sid)
  | .ctrl sid _ _ _ => Live (x.stack.socks sid)
  | .poll _ => True

/-- An entry is not empty, and its bits were raised since their last report and are
of interest. -/
def EventLogged (before : List EventLog) : EventLog → Prop
  | .reported r => r.events ≠ 0 ∧
      r.events &&& (pendingBits r.sid before &&& interestBits r.sid before) = r.events
  | _ => True

/-- The law of events: the reports are right, `event.events` is what is raised and
not reported, and a live socket with such bits of interest is queued. -/
structure EventLaw (socks : Nat → TcpSock) (queue : List Nat) (log : List EventLog) : Prop where
  sids : ∀ i, Live (socks i) → (socks i).sid = i
  reports : Always EventLogged log
  pending : ∀ i, Live (socks i) → (socks i).ev.events = pendingBits i log
  interest : ∀ i, Live (socks i) → (socks i).ev.interestedEvents = interestBits i log
  queued : ∀ i, Live (socks i) →
    (socks i).ev.events &&& (socks i).ev.interestedEvents ≠ 0 → i ∈ queue

theorem pendingBits_snoc (i : Nat) (log : List EventLog) (e : EventLog) :
    pendingBits i (log ++ [e]) = match e with
      | .raised j bits => if j = i then pendingBits i log ||| bits else pendingBits i log
      | .interest _ _ => pendingBits i log
      | .reported r =>
        if r.sid = i then pendingBits i log &&& ~~~r.events else pendingBits i log := by
  unfold pendingBits
  rw [List.foldl_append]
  rfl

theorem interestBits_snoc (i : Nat) (log : List EventLog) (e : EventLog) :
    interestBits i (log ++ [e]) = match e with
      | .interest j mask => if j = i then mask else interestBits i log
      | _ => interestBits i log := by
  unfold interestBits
  rw [List.foldl_append]
  rfl

theorem reported_none_left (a b : BitVec 32) : a &&& ~~~(a &&& b) &&& b = 0 := by
  ext k hk
  cases ha : a[k] <;> cases hb : b[k] <;> simp [ha, hb]

namespace EventLaw

variable {socks socks' : Nat → TcpSock} {queue queue' : List Nat} {log : List EventLog} {i : Nat}
  {t : TcpSock}

theorem update (h : EventLaw socks queue log) {e : EventLog} (hs : Live t → t.sid = i)
    (he : Always EventLogged (log ++ [e]))
    (hp : Live t → t.ev.events = pendingBits i (log ++ [e]))
    (hi : Live t → t.ev.interestedEvents = interestBits i (log ++ [e]))
    (hother : ∀ j, j ≠ i → pendingBits j (log ++ [e]) = pendingBits j log ∧
      interestBits j (log ++ [e]) = interestBits j log)
    (hq : Live t → t.ev.events &&& t.ev.interestedEvents ≠ 0 → i ∈ queue')
    (hqo : ∀ j ∈ queue, j ≠ i → j ∈ queue') :
    EventLaw (Function.update socks i t) queue' (log ++ [e]) := by
  refine ⟨fun j hj => ?_, he, fun j hj => ?_, fun j hj => ?_, fun j hj hb => ?_⟩
  · by_cases hji : j = i
    · subst hji
      rw [Function.update_self] at hj ⊢
      exact hs hj
    · rw [Function.update_of_ne hji] at hj ⊢
      exact h.sids j hj
  · by_cases hji : j = i
    · subst hji
      rw [Function.update_self] at hj ⊢
      exact hp hj
    · rw [Function.update_of_ne hji] at hj ⊢
      rw [(hother j hji).1]
      exact h.pending j hj
  · by_cases hji : j = i
    · subst hji
      rw [Function.update_self] at hj ⊢
      exact hi hj
    · rw [Function.update_of_ne hji] at hj ⊢
      rw [(hother j hji).2]
      exact h.interest j hj
  · by_cases hji : j = i
    · subst hji
      rw [Function.update_self] at hj hb
      exact hq hj hb
    · rw [Function.update_of_ne hji] at hj hb
      exact hqo j (h.queued j hj hb) hji

theorem skip (h : EventLaw socks (i :: queue) log)
    (hi : Live (socks i) → (socks i).ev.events &&& (socks i).ev.interestedEvents = 0) :
    EventLaw socks queue log := by
  refine ⟨h.sids, h.reports, h.pending, h.interest, fun j hj hb => ?_⟩
  rcases List.mem_cons.mp (h.queued j hj hb) with rfl | hm
  · exact absurd (hi hj) hb
  · exact hm

theorem pollLoop (queue : List Nat) : ∀ (room : Nat) {socks : Nat → TcpSock} {log : List EventLog},
    EventLaw socks queue log →
    EventLaw (pollLoop queue room socks).2.2 (pollLoop queue room socks).2.1
      (log ++ (pollLoop queue room socks).1.map .reported) := by
  induction queue with
  | nil =>
    intro room socks log h
    simpa [LibTpa.pollLoop] using h
  | cons i rest ih =>
    intro room socks log h
    cases room with
    | zero => simpa [LibTpa.pollLoop] using h
    | succ room =>
      unfold LibTpa.pollLoop
      dsimp only
      split
      · next hc =>
        exact ih _ (h.skip fun hl => by simp [hl.2] at hc)
      next hc =>
      split
      · next hf =>
        exact ih _ (h.skip fun hl => by simp [hl.1] at hf)
      next hf =>
      have hlive : Live (socks i) := ⟨by simpa using hf, by simpa using hc⟩
      split
      · next h0 =>
        have hself : Function.update socks i { socks i with ev := { (socks i).ev with
            events := (socks i).ev.events &&&
              ~~~((socks i).ev.events &&& (socks i).ev.interestedEvents) } } = socks := by
          rw [h0, show ~~~(0 : BitVec 32) = BitVec.allOnes 32 from rfl, BitVec.and_allOnes]
          exact Function.update_eq_self i socks
        rw [hself]
        exact ih _ (h.skip fun _ => h0)
      · next h0 =>
        have hstep : EventLaw (Function.update socks i { socks i with ev := { (socks i).ev with
            events := (socks i).ev.events &&&
              ~~~((socks i).ev.events &&& (socks i).ev.interestedEvents) } }) rest
            (log ++ [.reported ⟨i, (socks i).ev.events &&& (socks i).ev.interestedEvents,
              (socks i).ev.data⟩]) := by
          refine h.update (fun _ => h.sids i hlive) (h.reports.snoc ?_) ?_ ?_ ?_ ?_ ?_
          · refine ⟨h0, ?_⟩
            rw [← h.pending i hlive, ← h.interest i hlive]
            exact BitVec.and_self
          · intro _
            rw [pendingBits_snoc]
            dsimp only
            rw [if_pos rfl, h.pending i hlive]
          · intro _
            rw [interestBits_snoc]
            exact h.interest i hlive
          · intro j hji
            rw [pendingBits_snoc, interestBits_snoc]
            exact ⟨if_neg (Ne.symm hji), rfl⟩
          · intro _ hb
            exact absurd (reported_none_left ..) hb
          · intro j hj hji
            exact (List.mem_cons.mp hj).resolve_left hji
        have := ih room hstep
        simpa [List.append_assoc] using this

end EventLaw

theorem tsockEventAdd_queue (s : St) (bits : BitVec 32) :
    (∀ j ∈ s.worker.eventQueue, j ∈ (tsockEventAdd s bits).worker.eventQueue) ∧
      ((tsockEventAdd s bits).tsock.ev.events &&&
          (tsockEventAdd s bits).tsock.ev.interestedEvents ≠ 0 →
        s.tsock.sid ∈ (tsockEventAdd s bits).worker.eventQueue) := by
  unfold tsockEventAdd
  dsimp only
  split
  · next h0 => exact ⟨fun _ hj => hj, fun h => absurd h0 h⟩
  · exact ⟨fun _ hj => mem_pushIfNotExist.mpr (.inl hj), fun _ => mem_pushIfNotExist.mpr (.inr rfl)⟩

namespace EventLaw

variable {n : Stack} {log : List EventLog} {sid : Nat}

theorem add (h : EventLaw n.socks n.worker.eventQueue log) (hl : Live (n.socks sid))
    (bits : BitVec 32) :
    EventLaw (n.put sid (tsockEventAdd (n.sockAt sid) bits)).socks
      (n.put sid (tsockEventAdd (n.sockAt sid) bits)).worker.eventQueue
      (log ++ [.raised sid bits]) := by
  obtain ⟨hkeep, hpush⟩ := tsockEventAdd_queue (n.sockAt sid) bits
  refine h.update (fun _ => h.sids sid hl) (h.reports.snoc trivial) (fun _ => ?_) (fun _ => ?_)
    (fun j hj => ?_) (fun _ hb => ?_) (fun j hj _ => hkeep j hj)
  · rw [pendingBits_snoc]
    dsimp only
    rw [if_pos rfl, ← h.pending sid hl]
    rfl
  · rw [interestBits_snoc]
    exact h.interest sid hl
  · rw [pendingBits_snoc, interestBits_snoc]
    exact ⟨if_neg (Ne.symm hj), rfl⟩
  · have := hpush hb
    rwa [show (n.sockAt sid).tsock.sid = sid from h.sids sid hl] at this

theorem mask (h : EventLaw n.socks n.worker.eventQueue log) (hl : Live (n.socks sid))
    {s : St} {m : BitVec 32} (hsid : s.tsock.sid = (n.socks sid).sid)
    (hev : s.tsock.ev.events = (n.socks sid).ev.events) (hm : s.tsock.ev.interestedEvents = m)
    (hq : s.tsock.ev.events &&& s.tsock.ev.interestedEvents ≠ 0 →
      s.tsock.sid ∈ s.worker.eventQueue)
    (hqo : ∀ j ∈ n.worker.eventQueue, j ∈ s.worker.eventQueue) :
    EventLaw (n.put sid s).socks (n.put sid s).worker.eventQueue (log ++ [.interest sid m]) := by
  refine h.update (fun _ => hsid.trans (h.sids sid hl)) (h.reports.snoc trivial) (fun _ => ?_)
    (fun _ => ?_) (fun j hj => ?_) (fun _ hb => ?_) (fun j hj _ => hqo j hj)
  · rw [pendingBits_snoc, hev]
    exact h.pending sid hl
  · rw [interestBits_snoc, hm]
    exact (if_pos rfl).symm
  · rw [pendingBits_snoc, interestBits_snoc]
    exact ⟨rfl, if_neg (Ne.symm hj)⟩
  · have := hq hb
    rwa [hsid, h.sids sid hl] at this

theorem ctrl (h : EventLaw n.socks n.worker.eventQueue log) (hl : Live (n.socks sid))
    (op : EventCtrl) (m : BitVec 32) (data : Nat) :
    EventLaw (tpaEventCtrl n sid op m data).2.socks
      (tpaEventCtrl n sid op m data).2.worker.eventQueue
        (log ++ [.interest sid (ctrlMask op m)]) := by
  unfold tpaEventCtrl ctrlMask
  dsimp only
  rw [if_neg (by simp [hl.1])]
  split
  · exact h.mask hl rfl rfl rfl (fun hb => absurd (BitVec.and_zero ..) hb) fun _ hj => hj
  split
  · next h0 =>
    refine h.mask hl rfl rfl rfl (fun hb => absurd ?_ hb) fun _ hj => hj
    rw [h0]
    exact BitVec.zero_and ..
  · -- what is pending already is raised once more
    exact h.mask hl rfl (BitVec.or_self ..) rfl (fun hb => (tsockEventAdd_queue _ _).2 hb)
      fun j hj => (tsockEventAdd_queue _ _).1 j hj

theorem step {x : EventSt} (h : EventLaw x.stack.socks x.stack.worker.eventQueue x.log)
    (op : EventOp) (hok : op.Allowed x) : EventLaw (eventStep x op).stack.socks
      (eventStep x op).stack.worker.eventQueue (eventStep x op).log := by
  cases op with
  | add sid bits => exact h.add hok bits
  | ctrl sid op m data => exact h.ctrl hok op m data
  | poll max => exact EventLaw.pollLoop _ _ h

end EventLaw

theorem pendingBits_stays {before after : List EventLog} {i k : Nat}
    {bits : BitVec 32} (hk : k < 32) (hbit : bits[k] = true)
    (hkeep : ∀ r, .reported r ∈ after → r.sid = i → r.events[k] = false) :
    (pendingBits i (before ++ .raised i bits :: after))[k] = true := by
  induction after using List.reverseRecOn with
  | nil =>
    rw [pendingBits_snoc]
    simp [hbit]
  | append_singleton after e ih =>
    specialize ih fun r hr => hkeep r (List.mem_append_left _ hr)
    rw [← List.cons_append, ← List.append_assoc, pendingBits_snoc]
    cases e with
    | raised j b => dsimp only; split <;> simp [ih]
    | interest j m => exact ih
    | reported r =>
      dsimp only
      split
      · next hr => simp [ih, hkeep r (by simp) hr]
      · exact ih

/-- No wake-up is lost or invented: whatever calls are made on live sockets, a socket with
a pending event of interest is queued, an entry reports bits raised since their last
report and of interest, and a raised bit stays pending until it is reported. -/
theorem events_run {n : Stack} (hsid : ∀ i, Live (n.socks i) → (n.socks i).sid = i)
    (hnew : ∀ i, Live (n.socks i) → (n.socks i).ev.events = 0 ∧ (n.socks i).ev.interestedEvents = 0)
    {x : EventSt} (hx : Reach eventStep EventOp.Allowed ⟨n, []⟩ x) :
    (∀ i, Live (x.stack.socks i) →
      (x.stack.socks i).ev.events &&& (x.stack.socks i).ev.interestedEvents ≠ 0 →
      i ∈ x.stack.worker.eventQueue) ∧
    (∀ before r after, x.log = before ++ .reported r :: after → r.events ≠ 0 ∧
      r.events &&& (pendingBits r.sid before &&& interestBits r.sid before) = r.events) ∧
    (∀ i, Live (x.stack.socks i) → (x.stack.socks i).ev.interestedEvents = interestBits i x.log) ∧
    ∀ i, Live (x.stack.socks i) → ∀ before bits after k, ∀ hk : k < 32,
      x.log = before ++ .raised i bits :: after → bits[k] = true →
      (∀ r, .reported r ∈ after → r.sid = i → r.events[k] = false) →
      (x.stack.socks i).ev.events[k] = true := by
  have hlaw : EventLaw x.stack.socks x.stack.worker.eventQueue x.log := by
    refine hx.invariant (I := fun x => EventLaw x.stack.socks x.stack.worker.eventQueue x.log) ?_
      fun _ op h hok => h.step op hok
    refine ⟨hsid, .nil, fun i hi => (hnew i hi).1, fun i hi => (hnew i hi).2,
      fun i hi hb => absurd ?_ hb⟩
    rw [(hnew i hi).1]
    exact BitVec.zero_and ..
  refine ⟨hlaw.queued, fun before r after hl => hlaw.reports _ _ _ hl, hlaw.interest,
    fun i hi before bits after k hk hlog hbit hkeep => ?_⟩
  rw [hlaw.pending i hi]
  simp only [hlog]
  exact pendingBits_stays hk hbit hkeep

def Stack.fresh : Stack := { worker := .boot 0 {}, socks := fun i => tsockInit {} i false }

def raiseThenWatch : List EventOp :=
  [.ctrl 0 .add tpaEventIn 7, .add 0 tpaEventIn, .add 1 tpaEventIn,
    .ctrl 1 .add tpaEventIn 8, .poll 1]

theorem events_run_raiseThenWatch :
    1 ∈ (exec eventStep ⟨.fresh, []⟩ raiseThenWatch).stack.worker.eventQueue := by
  refine (events_run (n := .fresh) (fun _ _ => rfl) (fun _ _ => ⟨rfl, rfl⟩)
    (Reach.refl.exec (l := raiseThenWatch) ?_)).1 1 ?_ ?_
  · exact ⟨⟨rfl, rfl⟩, ⟨rfl, rfl⟩, ⟨rfl, rfl⟩, ⟨rfl, rfl⟩, trivial, trivial⟩
  · exact ⟨rfl, rfl⟩
  · decide

end LibTpa
