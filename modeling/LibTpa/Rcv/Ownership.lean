/- LibTpa/Rcv/Ownership
   digest: Which queue holds a packet after the segment text was processed. -/

import LibTpa.Rcv.Reassembly

set_option autoImplicit false

namespace LibTpa

def Absent (id : PktId) (l : List Packet) : Prop := ∀ q ∈ l, q.id ≠ id

def occurs (id : PktId) (l : List Packet) : Nat := l.countP fun q => q.id = id

def RxSt.held (x : RxSt) (id : PktId) : Nat := occurs id x.rcv.rxq + occurs id x.rcv.ooo

/-- The queues hold the packet exactly once, or not at all if it has no bytes. -/
def RxSt.Settled (x : RxSt) (p : Packet) : Prop := x.held p.id = if p.len = 0 then 0 else 1

theorem RxSt.Settled.one {x : RxSt} {p : Packet} (hl : p.len ≠ 0) (h : x.held p.id = 1) :
    x.Settled p := by
  rw [RxSt.Settled, if_neg hl, h]

theorem occurs_append (id : PktId) (l l' : List Packet) :
    occurs id (l ++ l') = occurs id l + occurs id l' := List.countP_append ..

theorem occurs_cons_self (p : Packet) (l : List Packet) :
    occurs p.id (p :: l) = occurs p.id l + 1 := List.countP_cons_of_pos (by simp)

theorem occurs_cons_ne {id : PktId} {p : Packet} (h : p.id ≠ id) (l : List Packet) :
    occurs id (p :: l) = occurs id l := List.countP_cons_of_neg (by simpa using h)

theorem occurs_eq_zero {id : PktId} {l : List Packet} : occurs id l = 0 ↔ Absent id l := by
  simp [occurs, Absent, List.countP_eq_zero]

theorem tcpRcvEnqueue_owner (r : Rcv) (p : Packet) :
    (tcpRcvEnqueue r p).2.2.id = p.id ∧ (tcpRcvEnqueue r p).2.1.ooo = r.ooo ∧
    ((tcpRcvEnqueue r p).1 ≠ none → (tcpRcvEnqueue r p).2.2.len ≠ 0) ∧
    (tcpRcvEnqueue r p).2.1.rxq =
      if (tcpRcvEnqueue r p).1 = none ∧ (tcpRcvEnqueue r p).2.2.len ≠ 0
      then r.rxq ++ [(tcpRcvEnqueue r p).2.2] else r.rxq := by
  unfold tcpRcvEnqueue
  dsimp only
  generalize hp : (if r.rcvWnd < p.len then tcpPacketCutTail p (p.len - r.rcvWnd) else p) = p'
  have hid : p'.id = p.id := by
    rw [← hp]
    split <;> rfl
  split
  · next h => exact ⟨hid, rfl, by simp, by simp [h]⟩
  · next h =>
    split
    · exact ⟨hid, rfl, fun _ => h, by simp⟩
    · exact ⟨hid, rfl, fun _ => h, by simp [h]⟩

theorem oooDrainLoop_absent (l : List Packet) : ∀ (x : RxSt) (cur : Packet), x.rcv.ooo = l →
    Absent cur.id l → (oooDrainLoop l x cur).2.2 = cur ∧
      (oooDrainLoop l x cur).2.1.rx.freed = x.rx.freed ∧
      (oooDrainLoop l x cur).2.1.held cur.id = x.held cur.id := by
  induction l with
  | nil =>
    intro x cur _ _
    exact ⟨rfl, rfl, rfl⟩
  | cons q rest ih =>
    intro x cur hx habs
    have hq : q.id ≠ cur.id := habs q (by simp)
    have hrest : Absent cur.id rest := fun a ha => habs a (by simp [ha])
    obtain ⟨hid, hooo, -, hrxq⟩ := tcpRcvEnqueue_owner x.rcv q
    unfold oooDrainLoop
    split
    · exact ⟨rfl, rfl, rfl⟩
    split
    · next e r q' heq =>
      rw [heq] at hid hrxq
      have hq' : q'.id ≠ cur.id := fun h => hq (hid.symm.trans h)
      refine ⟨if_neg hq', rfl, ?_⟩
      have hr : r.rxq = x.rcv.rxq := by simpa using hrxq
      simp only [RxSt.held, hx, hr, occurs_cons_ne hq, occurs_cons_ne hq']
    · next r q' heq =>
      rw [heq] at hid hrxq
      have hq' : q'.id ≠ cur.id := fun h => hq (hid.symm.trans h)
      have hsync : syncPkt cur q' = cur := if_neg hq'
      obtain ⟨h1, h2, h3⟩ := ih (tsockRemoveOooPkt { x with rcv := r } q' rest) cur rfl hrest
      rw [hsync]
      refine ⟨h1, h2, h3.trans ?_⟩
      have hr : occurs cur.id r.rxq = occurs cur.id x.rcv.rxq := by
        rw [hrxq]
        split
        · rw [occurs_append, occurs_cons_ne hq']
          rfl
        · rfl
      simp only [RxSt.held, hx, occurs_cons_ne hq]
      change occurs cur.id r.rxq + occurs cur.id rest = _
      rw [hr]

/-- The drain with `cur` in the queue: it stays there, or it goes to the rxq, or
nothing is left of it. -/
theorem oooDrainLoop_present (pre post : List Packet) : ∀ (x : RxSt) (cur : Packet),
    x.rcv.ooo = pre ++ cur :: post → Absent cur.id x.rcv.rxq → Absent cur.id pre →
    Absent cur.id post → cur.len ≠ 0 →
    (oooDrainLoop (pre ++ cur :: post) x cur).2.2.id = cur.id ∧
      (oooDrainLoop (pre ++ cur :: post) x cur).2.1.rx.freed = x.rx.freed ∧
      (oooDrainLoop (pre ++ cur :: post) x cur).2.1.Settled
        (oooDrainLoop (pre ++ cur :: post) x cur).2.2 := by
  have hheld : ∀ (x : RxSt) (cur : Packet) (l : List Packet), occurs cur.id x.rcv.rxq = 0 →
      x.rcv.ooo = l ++ cur :: post → occurs cur.id l = 0 → occurs cur.id post = 0 →
      x.held cur.id = 1 := by
    intro x cur l h1 h2 h3 h4
    rw [RxSt.held, h1, h2, occurs_append, h3, occurs_cons_self, h4]
  induction pre with
  | nil =>
    intro x cur hx hrx _ hpost hlen
    obtain ⟨hid, hooo, hfull, hrxq⟩ := tcpRcvEnqueue_owner x.rcv cur
    have hrx0 := occurs_eq_zero.mpr hrx
    have hpost0 := occurs_eq_zero.mpr hpost
    rw [List.nil_append]
    unfold oooDrainLoop
    split
    · exact ⟨rfl, rfl, .one hlen (hheld x cur [] hrx0 hx rfl hpost0)⟩
    split
    · next e r q' heq =>
      rw [heq] at hid hrxq hfull
      have hsync : syncPkt cur q' = q' := if_pos hid
      rw [hsync]
      refine ⟨hid, rfl, .one (hfull (by simp)) ?_⟩
      have hr : r.rxq = x.rcv.rxq := by simpa using hrxq
      change occurs q'.id r.rxq + occurs q'.id (q' :: post) = 1
      rw [hr, occurs_cons_self, hid, hrx0, hpost0]
    · next r q' heq =>
      rw [heq] at hid hrxq
      have hsync : syncPkt cur q' = q' := if_pos hid
      obtain ⟨h1, h2, h3⟩ := oooDrainLoop_absent post
        (tsockRemoveOooPkt { x with rcv := r } q' post) q' rfl (hid ▸ hpost)
      rw [hsync, h1]
      refine ⟨hid, h2, ?_⟩
      rw [RxSt.Settled, h3]
      change occurs q'.id r.rxq + occurs q'.id post = _
      rw [hid, hpost0, hrxq]
      by_cases h0 : q'.len = 0
      · simp [h0, hrx0]
      · rw [if_pos ⟨rfl, h0⟩, if_neg h0, occurs_append, hrx0, ← hid, occurs_cons_self]
        rfl
  | cons q pre ih =>
    intro x cur hx hrx hpre hpost hlen
    have hq : q.id ≠ cur.id := hpre q (by simp)
    have hpre' : Absent cur.id pre := fun a ha => hpre a (by simp [ha])
    obtain ⟨hid, hooo, -, hrxq⟩ := tcpRcvEnqueue_owner x.rcv q
    have hrx0 := occurs_eq_zero.mpr hrx
    have hpost0 := occurs_eq_zero.mpr hpost
    have hpre0 := occurs_eq_zero.mpr hpre'
    rw [List.cons_append]
    unfold oooDrainLoop
    split
    · exact ⟨rfl, rfl, .one hlen
        (hheld x cur (q :: pre) hrx0 hx (by rw [occurs_cons_ne hq, hpre0]) hpost0)⟩
    split
    · next e r q' heq =>
      rw [heq] at hid hrxq
      have hq' : q'.id ≠ cur.id := fun h => hq (hid.symm.trans h)
      have hsync : syncPkt cur q' = cur := if_neg hq'
      rw [hsync]
      refine ⟨rfl, rfl, .one hlen ?_⟩
      have hr : r.rxq = x.rcv.rxq := by simpa using hrxq
      exact hheld _ cur (q' :: pre) (by simpa [hr] using hrx0) rfl
        (by rw [occurs_cons_ne hq', hpre0]) hpost0
    · next r q' heq =>
      rw [heq] at hid hrxq
      have hq' : q'.id ≠ cur.id := fun h => hq (hid.symm.trans h)
      have hsync : syncPkt cur q' = cur := if_neg hq'
      have hr : Absent cur.id r.rxq := by
        rw [← occurs_eq_zero, hrxq]
        split
        · rw [occurs_append, hrx0, occurs_cons_ne hq']
          rfl
        · exact hrx0
      rw [hsync]
      exact ih (tsockRemoveOooPkt { x with rcv := r } q' (pre ++ cur :: post)) cur rfl hr hpre'
        hpost hlen

theorem oooQueueDrain_held (x : RxSt) (cur : Packet) (id : PktId) :
    (oooQueueDrain x cur).1.held id = (oooDrainLoop x.rcv.ooo x cur).2.1.held id ∧
    (oooQueueDrain x cur).1.rx.freed = (oooDrainLoop x.rcv.ooo x cur).2.1.rx.freed ∧
    (oooQueueDrain x cur).2 = (oooDrainLoop x.rcv.ooo x cur).2.2 := by
  unfold oooQueueDrain
  split
  · next h =>
    rw [h]
    exact ⟨rfl, rfl, rfl⟩
  · next h =>
    rw [h]
    split <;> exact ⟨rfl, rfl, rfl⟩

theorem oooQueueInsert_owner (cfg : TcpCfg) (x : RxSt) (pre post : List Packet) (p : Packet) :
    (oooQueueInsert cfg x pre post p).2.2.id = p.id ∧
    (oooQueueInsert cfg x pre post p).2.1.rx.freed = x.rx.freed ∧
    (oooQueueInsert cfg x pre post p).2.1.rcv.rxq = x.rcv.rxq ∧
    ((oooQueueInsert cfg x pre post p).1 = none → (oooQueueInsert cfg x pre post p).2.2.len ≠ 0 ∧
      (oooQueueInsert cfg x pre post p).2.1.rcv.ooo =
        pre ++ (oooQueueInsert cfg x pre post p).2.2 :: post) ∧
    ((oooQueueInsert cfg x pre post p).1 ≠ none →
      (oooQueueInsert cfg x pre post p).2.1.rcv.ooo = x.rcv.ooo) := by
  unfold oooQueueInsert
  dsimp only
  generalize (p.endSeq - (x.rcv.rcvNxt + BitVec.ofNat 32 x.rcv.rcvWnd)).toInt = n
  generalize hp : (if 0 < n then tcpPacketCutTail p n.toNat else p) = p'
  have hid : p'.id = p.id := by
    rw [← hp]
    split <;> rfl
  split
  · exact ⟨hid, rfl, rfl, by simp, fun _ => rfl⟩
  · next h0 =>
    split
    · exact ⟨hid, rfl, rfl, by simp, fun _ => rfl⟩
    · exact ⟨hid, rfl, rfl, fun _ => ⟨h0, rfl⟩, by simp⟩

theorem oooTrimNext_owner (id : PktId) (pre post : List Packet) : ∀ (x : RxSt) (p : Packet),
    x.rcv.ooo = pre ++ post → Absent id post →
    (oooTrimNext pre post x p).2.2.id = p.id ∧
    (oooTrimNext pre post x p).2.1.rx.freed.count id = x.rx.freed.count id ∧
    (oooTrimNext pre post x p).2.1.rcv.rxq = x.rcv.rxq ∧
    (oooTrimNext pre post x p).2.1.rcv.ooo = pre ++ (oooTrimNext pre post x p).1 ∧
    Absent id (oooTrimNext pre post x p).1 := by
  induction post with
  | nil =>
    intro x p hx h
    exact ⟨rfl, rfl, rfl, hx, h⟩
  | cons next rest ih =>
    intro x p hx h
    have hrest : Absent id rest := fun a ha => h a (by simp [ha])
    unfold oooTrimNext
    dsimp only
    split
    · exact ⟨rfl, rfl, rfl, hx, h⟩
    split
    · exact ⟨rfl, rfl, rfl, hx, h⟩
    · obtain ⟨h1, h2, h3, h4, h5⟩ :=
        ih ((tsockRemoveOooPkt x next (pre ++ rest)).free next) p rfl hrest
      refine ⟨h1, h2.trans ?_, h3, h4, h5⟩
      change (x.rx.freed ++ [next.id]).count id = _
      rw [List.count_append, List.count_singleton, if_neg (by simpa using h next (by simp))]
      rfl

/-- What became of a packet after its text was processed: refused, it is in no
queue; taken, it is in one queue unless nothing is left of it. -/
structure TextOwner (x : RxSt) (p : Packet) (e : Option Code) (x' : RxSt) (p' : Packet) :
    Prop where
  id : p'.id = p.id
  freed : x'.rx.freed.count p.id = x.rx.freed.count p.id
  refused : e ≠ none → x'.held p.id = 0
  taken : e = none → x'.Settled p'

theorem absent_of_held {x : RxSt} {id : PktId} (h : x.held id = 0) :
    Absent id x.rcv.rxq ∧ Absent id x.rcv.ooo := by
  unfold RxSt.held at h
  exact ⟨occurs_eq_zero.mp (by omega), occurs_eq_zero.mp (by omega)⟩

theorem held_of_absent {x : RxSt} {id : PktId} (h : Absent id x.rcv.rxq)
    (h' : Absent id x.rcv.ooo) : x.held id = 0 := by
  rw [RxSt.held, occurs_eq_zero.mpr h, occurs_eq_zero.mpr h']

theorem insert_drain_owner (cfg : TcpCfg) {x : RxSt} {pre post : List Packet} {p : Packet}
    (hx : x.rcv.ooo = pre ++ post) (hrx : Absent p.id x.rcv.rxq) (hpre : Absent p.id pre)
    (hpost : Absent p.id post) :
    TextOwner x p (oooQueueInsert cfg x pre post p).1
      (oooQueueDrain (oooQueueInsert cfg x pre post p).2.1
        (oooQueueInsert cfg x pre post p).2.2).1
      (oooQueueDrain (oooQueueInsert cfg x pre post p).2.1
        (oooQueueInsert cfg x pre post p).2.2).2 := by
  obtain ⟨hid, hfreed, hrxq, hok, herr⟩ := oooQueueInsert_owner cfg x pre post p
  generalize oooQueueInsert cfg x pre post p = r at hid hfreed hrxq hok herr ⊢
  obtain ⟨e, x₁, p₁⟩ := r
  obtain ⟨d1, d2, d3⟩ := oooQueueDrain_held x₁ p₁ p₁.id
  have hrx₁ : Absent p₁.id x₁.rcv.rxq := by rw [hid, hrxq]; exact hrx
  cases e with
  | some e =>
    have hooo : Absent p₁.id x₁.rcv.ooo := by
      rw [hid, herr (by simp), hx]
      intro q hq
      rcases List.mem_append.mp hq with h | h
      · exact hpre q h
      · exact hpost q h
    obtain ⟨c1, c2, c3⟩ := oooDrainLoop_absent x₁.rcv.ooo x₁ p₁ rfl hooo
    refine ⟨by rw [d3, c1, hid], by rw [d2, c2, hfreed], fun _ => ?_, by simp⟩
    rw [← hid, d1, c3]
    exact held_of_absent hrx₁ hooo
  | none =>
    obtain ⟨hlen, hooo⟩ := hok rfl
    obtain ⟨c1, c2, c3⟩ := oooDrainLoop_present pre post x₁ p₁ hooo hrx₁ (hid ▸ hpre)
      (hid ▸ hpost) hlen
    rw [← hooo] at c1 c2 c3
    refine ⟨by rw [d3, c1, hid], by rw [d2, c2, hfreed], by simp, fun _ => ?_⟩
    unfold RxSt.Settled at c3 ⊢
    rw [c1] at c3
    rw [d3, c1, d1]
    exact c3

theorem TextOwner.of_start {x x₁ x' : RxSt} {p p₁ p' : Packet} {e : Option Code}
    (h : TextOwner x₁ p₁ e x' p') (hid : p₁.id = p.id)
    (hfreed : x₁.rx.freed.count p.id = x.rx.freed.count p.id) : TextOwner x p e x' p' :=
  ⟨h.id.trans hid, by rw [← hfreed, ← hid]; exact h.freed, by rw [← hid]; exact h.refused, h.taken⟩

theorem oooPlace_drain_owner (cfg : TcpCfg) {x : RxSt} {pre post : List Packet} {p : Packet}
    (hx : x.rcv.ooo = pre ++ post) (hrx : Absent p.id x.rcv.rxq) (hpre : Absent p.id pre)
    (hpost : Absent p.id post) :
    TextOwner x p (oooPlace cfg x pre post p).1
      (oooQueueDrain (oooPlace cfg x pre post p).2.1 (oooPlace cfg x pre post p).2.2).1
      (oooQueueDrain (oooPlace cfg x pre post p).2.1 (oooPlace cfg x pre post p).2.2).2 := by
  obtain ⟨h1, h2, h3, h4, h5⟩ := oooTrimNext_owner p.id pre post x p hx hpost
  unfold oooPlace
  refine (insert_drain_owner cfg h4 ?_ ?_ ?_).of_start h1 h2
  · rw [h1, h3]
    exact hrx
  · rw [h1]
    exact hpre
  · rw [h1]
    exact h5

theorem absent_sublist {id : PktId} {l l' : List Packet} (h : Absent id l) (hs : l'.Sublist l) :
    Absent id l' := fun q hq => h q (hs.subset hq)

theorem oooFitPrev_keep_id {prev : Option Packet} {p p' : Packet}
    (h : oooFitPrev prev p = .keep p') : p'.id = p.id := by
  unfold oooFitPrev at h
  split at h
  · cases h
    rfl
  split at h
  · cases h
  dsimp only at h
  split at h
  · split at h
    · cases h
    · cases h
      rfl
  · cases h
    rfl

theorem oooFitPrev_replace_mem {prev : Option Packet} {p q : Packet}
    (h : oooFitPrev prev p = .replace q) : prev = some q := by
  unfold oooFitPrev at h
  split at h
  · cases h
  split at h
  · cases h
    rfl
  dsimp only at h
  split at h
  · split at h <;> cases h
  · cases h

theorem tcpRcvDataOoo_owner (cfg : TcpCfg) (tsUs : Nat) (x : RxSt) (p : Packet)
    (h : x.held p.id = 0) :
    TextOwner x p (tcpRcvDataOoo cfg tsUs x p).1
      (oooQueueDrain (tcpRcvDataOoo cfg tsUs x p).2.1 (tcpRcvDataOoo cfg tsUs x p).2.2).1
      (oooQueueDrain (tcpRcvDataOoo cfg tsUs x p).2.1 (tcpRcvDataOoo cfg tsUs x p).2.2).2 := by
  obtain ⟨hrx, hooo⟩ := absent_of_held h
  unfold tcpRcvDataOoo
  dsimp only
  generalize hy : (if x.rcv.nrOooPkt = 0 then
    ({ x with rcv := { x.rcv with oooStartTs := BitVec.ofNat 32 tsUs } } : RxSt) else x) = y
  have hyooo : y.rcv.ooo = x.rcv.ooo := by
    rw [← hy]
    split <;> rfl
  have hyrxq : y.rcv.rxq = x.rcv.rxq := by
    rw [← hy]
    split <;> rfl
  have hyrx : y.rx = x.rx := by
    rw [← hy]
    split <;> rfl
  rw [← hyooo] at hooo
  rw [← hyrxq] at hrx
  split
  · refine (insert_drain_owner cfg (List.append_nil _).symm hrx hooo ?_).of_start rfl (by rw [hyrx])
    exact fun q hq => absurd hq (by simp)
  have hsplit : y.rcv.ooo = (y.rcv.ooo.takeWhile fun q => ¬ seqGt q.seq p.seq) ++
      y.rcv.ooo.dropWhile fun q => ¬ seqGt q.seq p.seq := (List.takeWhile_append_dropWhile ..).symm
  generalize hpre : (y.rcv.ooo.takeWhile fun q => ¬ seqGt q.seq p.seq) = pre at hsplit ⊢
  generalize hpost : (y.rcv.ooo.dropWhile fun q => ¬ seqGt q.seq p.seq) = post at hsplit ⊢
  have habs : Absent p.id pre ∧ Absent p.id post := by
    rw [hsplit] at hooo
    exact ⟨absent_sublist hooo (List.sublist_append_left ..),
      absent_sublist hooo (List.sublist_append_right ..)⟩
  split
  · -- the packet in front covers this one
    obtain ⟨d1, d2, d3⟩ := oooQueueDrain_held y p p.id
    obtain ⟨c1, c2, c3⟩ := oooDrainLoop_absent y.rcv.ooo y p rfl hooo
    refine ⟨by rw [d3, c1], by rw [d2, c2, hyrx], fun _ => ?_, by simp⟩
    rw [d1, c3]
    exact held_of_absent hrx hooo
  · next prev hfit =>
    have hmem : prev ∈ pre := List.mem_of_getLast? (oooFitPrev_replace_mem hfit)
    refine (oooPlace_drain_owner cfg
      (x := (tsockRemoveOooPkt y prev (pre.dropLast ++ post)).free prev) rfl hrx
      (absent_sublist habs.1 (List.dropLast_sublist pre)) habs.2).of_start rfl ?_
    change (y.rx.freed ++ [prev.id]).count p.id = _
    rw [List.count_append, List.count_singleton, if_neg (by simpa using habs.1 prev hmem), hyrx]
    rfl
  · next p' hfit =>
    have hid := oooFitPrev_keep_id hfit
    refine (oooPlace_drain_owner cfg hsplit ?_ ?_ ?_).of_start hid (by rw [hyrx])
    · rw [hid]
      exact hrx
    · rw [hid]
      exact habs.1
    · rw [hid]
      exact habs.2

theorem tcpRcvData_owner (cfg : TcpCfg) (s : St) (p : Packet) (h : s.rxSt.held p.id = 0) :
    TextOwner s.rxSt p (tcpRcvData cfg s p).1 (tcpRcvData cfg s p).2.1.rxSt
      (tcpRcvData cfg s p).2.2 := by
  have hempty : ∀ (s' : St) (p' : Packet), s'.tsock.rcv.rxq = s.tsock.rcv.rxq →
      s'.tsock.rcv.ooo = s.tsock.rcv.ooo → s'.worker.rx = s.worker.rx → p'.id = p.id →
      p'.len = 0 → TextOwner s.rxSt p none s'.rxSt p' := by
    intro s' p' h1 h2 h3 hid hlen
    refine ⟨hid, by rw [St.rxSt, h3], by simp, fun _ => ?_⟩
    rw [RxSt.Settled, if_pos hlen, hid, ← h]
    simp only [RxSt.held, h1, h2]
  unfold tcpRcvData
  dsimp only
  split
  · next hlen =>
    split
    · exact hempty _ p rfl rfl rfl rfl hlen
    · exact hempty _ p rfl rfl rfl rfl hlen
  split
  · exact hempty s p.clear rfl rfl rfl rfl rfl
  have hid : (rcvCut s.tsock.rcv p).id = p.id := by
    unfold rcvCut
    split <;> rfl
  generalize rcvCut s.tsock.rcv p = q at hid
  rw [← hid] at h
  suffices hq : TextOwner s.rxSt q (rcvPlace cfg s q).1 (rcvPlace cfg s q).2.1.rxSt
      (rcvPlace cfg s q).2.2 from hq.of_start hid rfl
  unfold rcvPlace
  split
  · -- in order
    obtain ⟨hrx, hooo⟩ := absent_of_held h
    unfold tcpRcvInOrder
    rw [deliver_rxSt]
    change TextOwner s.rxSt q (tcpRcvEnqueue s.tsock.rcv q).1
      ⟨(tcpRcvEnqueue s.tsock.rcv q).2.1, s.worker.rx⟩ (tcpRcvEnqueue s.tsock.rcv q).2.2
    obtain ⟨h1, h2, h3, h4⟩ := tcpRcvEnqueue_owner s.tsock.rcv q
    refine ⟨h1, rfl, fun he => ?_, fun he => ?_⟩
    · rw [if_neg (fun h => he h.1)] at h4
      simp only [RxSt.held, h2, h4]
      exact h
    · unfold RxSt.Settled
      rw [h1]
      have hooo0 := occurs_eq_zero.mpr hooo
      have hrx0 := occurs_eq_zero.mpr hrx
      by_cases h0 : (tcpRcvEnqueue s.tsock.rcv q).2.2.len = 0
      · rw [if_neg (fun h => h.2 h0)] at h4
        rw [if_pos h0]
        simp only [RxSt.held, h2, h4]
        exact h
      · rw [if_pos ⟨he, h0⟩] at h4
        rw [if_neg h0]
        simp only [RxSt.held, h2, h4, occurs_append]
        rw [hooo0, hrx0, ← h1, occurs_cons_self]
        rfl
  · unfold tcpRcvOoo
    rw [deliver_rxSt]
    exact tcpRcvDataOoo_owner cfg _ _ q h

/-! The header of a packet survives what the receive path does to it. -/

structure SameHdr (p q : Packet) : Prop where
  eq : q = { p with
    seq := q.seq, len := q.len, len_lt := q.len_lt, nrReadSeg := q.nrReadSeg, toRead := q.toRead }

namespace SameHdr

variable {p q r : Packet}

theorem refl (p : Packet) : SameHdr p p := ⟨rfl⟩

theorem symm (h : SameHdr p q) : SameHdr q p := ⟨by rw [h.eq]⟩

theorem trans (h : SameHdr p q) (h' : SameHdr q r) : SameHdr p r := ⟨by rw [h'.eq, h.eq]⟩

theorem id (h : SameHdr p q) : q.id = p.id := by rw [h.eq]

theorem flags (h : SameHdr p q) : q.flags = p.flags := by rw [h.eq]

theorem cutTail (p : Packet) (n : Nat) : SameHdr p (tcpPacketCutTail p n) := ⟨rfl⟩

theorem cutHead (p : Packet) (n : Nat) : SameHdr p (tcpPacketCutHead p n) := ⟨rfl⟩

end SameHdr

theorem tcpRcvEnqueue_hdr (r : Rcv) (p : Packet) : SameHdr p (tcpRcvEnqueue r p).2.2 := by
  unfold tcpRcvEnqueue
  dsimp only
  generalize hp : (if r.rcvWnd < p.len then tcpPacketCutTail p (p.len - r.rcvWnd) else p) = p'
  have h : SameHdr p p' := by
    rw [← hp]
    split
    · exact .cutTail ..
    · exact .refl p
  split
  · exact h
  split
  · exact h
  · exact h

def SoleOwner (cur : Packet) (l : List Packet) : Prop := ∀ q ∈ l, q.id = cur.id → SameHdr cur q

theorem Absent.sole {cur : Packet} {l : List Packet} (h : Absent cur.id l) : SoleOwner cur l :=
  fun q hq he => absurd he (h q hq)

theorem oooDrainLoop_hdr (l : List Packet) : ∀ (x : RxSt) (cur : Packet), SoleOwner cur l →
    SameHdr cur (oooDrainLoop l x cur).2.2 := by
  induction l with
  | nil =>
    intro x cur _
    exact .refl cur
  | cons q rest ih =>
    intro x cur hsole
    have henq := tcpRcvEnqueue_hdr x.rcv q
    have hsync : ∀ q', SameHdr q q' → SameHdr cur (syncPkt cur q') := by
      intro q' hq'
      unfold syncPkt
      split
      · next he => exact (hsole q (by simp) (hq'.id ▸ he)).trans hq'
      · exact .refl cur
    unfold oooDrainLoop
    split
    · exact .refl cur
    split
    · next r q' heq =>
      rw [heq] at henq
      exact hsync q' henq
    · next r q' heq =>
      rw [heq] at henq
      have h := hsync q' henq
      refine h.trans (ih _ _ fun a ha he => ?_)
      exact h.symm.trans (hsole a (by simp [ha]) (he.trans h.id))

theorem oooQueueInsert_hdr (cfg : TcpCfg) (x : RxSt) (pre post : List Packet) (p : Packet) :
    SameHdr p (oooQueueInsert cfg x pre post p).2.2 := by
  unfold oooQueueInsert
  dsimp only
  generalize (p.endSeq - (x.rcv.rcvNxt + BitVec.ofNat 32 x.rcv.rcvWnd)).toInt = n
  generalize hp : (if 0 < n then tcpPacketCutTail p n.toNat else p) = p'
  have h : SameHdr p p' := by
    rw [← hp]
    split
    · exact .cutTail ..
    · exact .refl p
  split
  · exact h
  split
  · exact h
  · exact h

theorem oooTrimNext_hdr (pre post : List Packet) : ∀ (x : RxSt) (p : Packet),
    SameHdr p (oooTrimNext pre post x p).2.2 := by
  induction post with
  | nil =>
    intro x p
    exact .refl p
  | cons next rest ih =>
    intro x p
    unfold oooTrimNext
    dsimp only
    split
    · exact .refl p
    split
    · exact .cutTail ..
    · exact ih ..

theorem oooFitPrev_keep_hdr {prev : Option Packet} {p p' : Packet}
    (h : oooFitPrev prev p = .keep p') : SameHdr p p' := by
  unfold oooFitPrev at h
  split at h
  · cases h
    exact .refl p
  split at h
  · cases h
  dsimp only at h
  split at h
  · split at h
    · cases h
    · cases h
      exact .cutHead ..
  · cases h
    exact .refl p

theorem insert_drain_hdr (cfg : TcpCfg) {x : RxSt} {pre post : List Packet} {p : Packet}
    (hx : x.rcv.ooo = pre ++ post) (hpre : Absent p.id pre) (hpost : Absent p.id post) :
    SameHdr p (oooQueueDrain (oooQueueInsert cfg x pre post p).2.1
      (oooQueueInsert cfg x pre post p).2.2).2 := by
  obtain ⟨hid, -, -, hok, herr⟩ := oooQueueInsert_owner cfg x pre post p
  have hhdr := oooQueueInsert_hdr cfg x pre post p
  generalize oooQueueInsert cfg x pre post p = r at hid hok herr hhdr ⊢
  obtain ⟨e, x₁, p₁⟩ := r
  obtain ⟨-, -, d3⟩ := oooQueueDrain_held x₁ p₁ p₁.id
  rw [d3]
  refine hhdr.trans (oooDrainLoop_hdr _ _ _ ?_)
  intro q hq he
  have hne : q ∈ pre ∨ q ∈ post → q = p₁ := by
    rw [hid] at he
    rintro (h | h)
    · exact absurd he (hpre q h)
    · exact absurd he (hpost q h)
  cases e with
  | some e =>
    rw [herr (by simp), hx, List.mem_append] at hq
    exact hne hq ▸ .refl _
  | none =>
    rw [(hok rfl).2, List.mem_append, List.mem_cons] at hq
    rcases hq with h | h | h
    · exact hne (.inl h) ▸ .refl _
    · exact h ▸ .refl _
    · exact hne (.inr h) ▸ .refl _

theorem oooPlace_drain_hdr (cfg : TcpCfg) {x : RxSt} {pre post : List Packet} {p : Packet}
    (hx : x.rcv.ooo = pre ++ post) (hpre : Absent p.id pre) (hpost : Absent p.id post) :
    SameHdr p (oooQueueDrain (oooPlace cfg x pre post p).2.1
      (oooPlace cfg x pre post p).2.2).2 := by
  obtain ⟨h1, -, -, h4, h5⟩ := oooTrimNext_owner p.id pre post x p hx hpost
  unfold oooPlace
  refine (oooTrimNext_hdr pre post x p).trans (insert_drain_hdr cfg h4 ?_ ?_)
  · rw [h1]
    exact hpre
  · rw [h1]
    exact h5

theorem tcpRcvDataOoo_hdr (cfg : TcpCfg) (tsUs : Nat) (x : RxSt) (p : Packet)
    (h : x.held p.id = 0) :
    SameHdr p (oooQueueDrain (tcpRcvDataOoo cfg tsUs x p).2.1
      (tcpRcvDataOoo cfg tsUs x p).2.2).2 := by
  obtain ⟨-, hooo⟩ := absent_of_held h
  unfold tcpRcvDataOoo
  dsimp only
  generalize hy : (if x.rcv.nrOooPkt = 0 then
    ({ x with rcv := { x.rcv with oooStartTs := BitVec.ofNat 32 tsUs } } : RxSt) else x) = y
  have hyooo : y.rcv.ooo = x.rcv.ooo := by
    rw [← hy]
    split <;> rfl
  rw [← hyooo] at hooo
  split
  · exact insert_drain_hdr cfg (List.append_nil _).symm hooo fun q hq => absurd hq (by simp)
  have hsplit : y.rcv.ooo = (y.rcv.ooo.takeWhile fun q => ¬ seqGt q.seq p.seq) ++
      y.rcv.ooo.dropWhile fun q => ¬ seqGt q.seq p.seq := (List.takeWhile_append_dropWhile ..).symm
  generalize (y.rcv.ooo.takeWhile fun q => ¬ seqGt q.seq p.seq) = pre at hsplit ⊢
  generalize (y.rcv.ooo.dropWhile fun q => ¬ seqGt q.seq p.seq) = post at hsplit ⊢
  have habs : Absent p.id pre ∧ Absent p.id post := by
    rw [hsplit] at hooo
    exact ⟨absent_sublist hooo (List.sublist_append_left ..),
      absent_sublist hooo (List.sublist_append_right ..)⟩
  split
  · rw [(oooQueueDrain_held y p p.id).2.2]
    exact oooDrainLoop_hdr _ _ _ hooo.sole
  · next prev hfit =>
    exact oooPlace_drain_hdr cfg (x := (tsockRemoveOooPkt y prev (pre.dropLast ++ post)).free prev)
      rfl (absent_sublist habs.1 (List.dropLast_sublist pre)) habs.2
  · next p' hfit =>
    have hk := oooFitPrev_keep_hdr hfit
    refine hk.trans (oooPlace_drain_hdr cfg hsplit ?_ ?_)
    · rw [hk.id]
      exact habs.1
    · rw [hk.id]
      exact habs.2

theorem tcpRcvData_hdr (cfg : TcpCfg) (s : St) (p : Packet) (h : s.rxSt.held p.id = 0) :
    SameHdr p (tcpRcvData cfg s p).2.2 := by
  unfold tcpRcvData
  dsimp only
  split
  · exact .refl p
  split
  · exact ⟨rfl⟩
  have hcut : SameHdr p (rcvCut s.tsock.rcv p) := by
    unfold rcvCut
    split
    · exact .refl p
    · exact .cutHead ..
  refine hcut.trans ?_
  rw [← hcut.id] at h
  generalize rcvCut s.tsock.rcv p = q at h
  unfold rcvPlace
  split
  · exact tcpRcvEnqueue_hdr _ q
  · exact tcpRcvDataOoo_hdr cfg _ _ q h

end LibTpa
