/- LibTpa/Rcv/IovRun
   digest: Reads, read callbacks and arrivals in any order hand out each buffer once. -/

import LibTpa.Rcv.Iov
import LibTpa.Sock.Init
import LibTpa.Lib.Run

set_option autoImplicit false

namespace LibTpa

open Lib.Run

/-- A socket and the application that reads it: `lent` are the packets that left the rxq
and whose buffers are still out, `out` the entries whose `iov_read_done` has not run.
`handed` and `arrived` record every entry filled and every packet put into the rxq. -/
structure Reading where
  st : St
  lent : List Packet
  out : List ReadIov
  handed : List ReadIov
  arrived : List Packet

def Reading.start (s : St) : Reading := ⟨s, [], [], [], []⟩

def Reading.rxq (m : Reading) : List Packet := m.st.tsock.rcv.rxq

def Reading.packets (m : Reading) : List Packet := m.lent ++ m.rxq

def Reading.freed (m : Reading) : List PktId := m.st.worker.rx.freed

inductive ReadAct where
  | arrive (p : Packet)
  | read (nrIov : Nat)
  | done (i : Nat)

def Packet.release (p : Packet) : Packet := { p with nrReadSeg := p.nrReadSeg - 1 }

def releaseSeg (id : PktId) (q : List Packet) : List Packet :=
  q.map fun p => if p.id = id then p.release else p

/-- `iov_buf_free` with the packet `id` as its parameter. The counter is an `int8_t`. -/
def iovBufFree (m : Reading) (id : PktId) : Reading :=
  let rcv := m.st.tsock.rcv
  let m := { m with
    st := m.st.setRcv { rcv with rxq := releaseSeg id rcv.rxq }
    lent := releaseSeg id m.lent }
  match m.packets.find? fun p => p.id = id with
  | none => m
  | some p =>
    if BitVec.ofInt 8 p.nrReadSeg = 0 then
      let rx := m.st.worker.rx
      { m with
        st := packetFree (m.st.setRx { rx with
          nrInProcessMbuf := rx.nrInProcessMbuf - BitVec.ofNat 32 p.nbSegs }) p
        lent := m.lent.filter fun p => p.id ≠ id }
    else m

def Reading.step (m : Reading) : ReadAct → Reading
  | .arrive p =>
    let r := (tcpRcvEnqueue m.st.tsock.rcv p).2.1
    { m with st := m.st.setRcv r, arrived := m.arrived ++ r.rxq.drop m.rxq.length }
  | .read n =>
    match tsockZreadv m.st n with
    | (.ok _, s) =>
      { m with
        st := s
        lent := m.lent ++ readEnd m.rxq n
        out := m.out ++ readIovs m.rxq n
        handed := m.handed ++ readIovs m.rxq n }
    | (.error _, s) => { m with st := s }
  | .done i =>
    match m.out[i]? with
    | none => m
    | some e => iovBufFree { m with out := m.out.eraseIdx i } e.param

/-- A packet arrives in memory that nobody uses; a read has room for one entry. -/
def ReadAct.Enabled (m : Reading) : ReadAct → Prop
  | .arrive p => Readable p ∧ p.id ∉ m.packets.map Packet.id
  | .read n => 0 < n
  | .done _ => True

/-- Who holds what: `q` is the rxq, `lent` the packets that left it, `out` the entries of
the application. -/
structure Loans (q lent : List Packet) (out : List ReadIov) : Prop where
  queue : QueueLent (heldOf out) q
  nodup : ((lent ++ q).map Packet.id).Nodup
  ended : ∀ p ∈ lent, p.nrReadSeg = heldOf out p.id ∧ heldOf out p.id ≤ 256 ∧ heldOf out p.id ≠ 0
  known : ∀ id, heldOf out id ≠ 0 → id ∈ (lent ++ q).map Packet.id

structure ReadInv (base : U32) (m : Reading) : Prop where
  live : tsockReadCheck m.st.tsock = none
  loans : Loans m.rxq m.lent m.out
  account : m.st.worker.rx.nrInProcessMbuf = base + BitVec.ofNat 32 (segSum m.lent)

theorem tsockZreadv_live {c : PktId → Nat} {s : St} {n : Nat} (hl : tsockReadCheck s.tsock = none)
    (hq : QueueLent c s.tsock.rcv.rxq) (hn : 0 < n) :
    (tsockZreadv s n).1 = (if s.tsock.rcv.rxq = [] then
      if s.tsock.flags.eof then .ok [] else .error .eagain
      else .ok ((readIovs s.tsock.rcv.rxq n).map ReadIov.data)) ∧
    (tsockZreadv s n).2.tsock.rcv.rxq = (readLoop s.tsock.rcv.rxq n).2.1 ∧
    (tsockZreadv s n).2.tsock.rcv.rcvWnd =
      s.tsock.rcv.rcvWnd + ((readIovs s.tsock.rcv.rxq n).map fun e => e.data.length).sum ∧
    (tsockZreadv s n).2.worker.rx = { s.worker.rx with
      nrInProcessMbuf := s.worker.rx.nrInProcessMbuf +
        BitVec.ofNat 32 (segSum (readEnd s.tsock.rcv.rxq n)) } ∧
    tsockReadCheck (tsockZreadv s n).2.tsock = none := by
  have hsum : ((readIovs s.tsock.rcv.rxq n).map fun e => e.data.length).sum =
      (readLoop s.tsock.rcv.rxq n).1.flatten.length := by
    rw [← readIovs_data, List.length_flatten, List.map_map]
    rfl
  rw [hsum, readIovs_data, ← readEnd_segs]
  by_cases he : s.tsock.rcv.rxq = []
  · rw [tsockZreadv, hl]
    simp only [he, if_true]
    exact ⟨rfl, he, rfl, rfl, hl⟩
  · have hpos := hq.reads he hn
    rw [tsockZreadv, hl]
    simp only [he, hpos, if_false]
    split
    · exact ⟨rfl, rfl, rfl, rfl, hl⟩
    · exact ⟨rfl, rfl, rfl, rfl, hl⟩

/-! One step. -/

theorem tcpRcvEnqueue_queued (r : Rcv) {p : Packet} (h : Readable p) :
    (tcpRcvEnqueue r p).2.1.rxq = r.rxq ∨ ∃ p', Readable p' ∧ p'.id = p.id ∧ p'.len ≠ 0 ∧
      (tcpRcvEnqueue r p).2.1.rxq = r.rxq ++ [p'] := by
  have hcut : ∃ p', Readable p' ∧ p'.id = p.id ∧
      (if r.rcvWnd < p.len then tcpPacketCutTail p (p.len - r.rcvWnd) else p) = p' := by
    split
    · exact ⟨_, h.cutTail p _ (Nat.sub_le ..), rfl, rfl⟩
    · exact ⟨p, h, rfl, rfl⟩
  obtain ⟨p', hp', hid, he⟩ := hcut
  simp only [tcpRcvEnqueue, he]
  split
  · exact .inl rfl
  · next hlen =>
    split
    · exact .inl rfl
    · exact .inr ⟨p', hp', hid, hlen, rfl⟩

private theorem nodup_concat {l : List PktId} {a : PktId} (h : l.Nodup) (ha : a ∉ l) :
    (l ++ [a]).Nodup := by
  refine List.nodup_append.mpr ⟨h, by simp, ?_⟩
  intro b hb c hc hbc
  rw [List.mem_singleton.mp hc] at hbc
  exact ha (hbc ▸ hb)

namespace Loans

variable {q lent : List Packet} {out : List ReadIov} {p : Packet} {id : PktId} {n : Nat}

theorem foreign (h : Loans q lent out) (hid : id ∉ (lent ++ q).map Packet.id) :
    heldOf out id = 0 := by
  by_contra h0
  exact hid (h.known id h0)

theorem lent_notMem (h : Loans q lent out) (hp : p ∈ lent) : p.id ∉ q.map Packet.id := by
  intro hx
  have hnd := h.nodup
  rw [List.map_append] at hnd
  exact (List.nodup_append.mp hnd).2.2 p.id (List.mem_map_of_mem hp) p.id hx rfl

theorem arrive (h : Loans q lent out) (hp : Readable p) (hlen : p.len ≠ 0)
    (hid : p.id ∉ (lent ++ q).map Packet.id) : Loans (q ++ [p]) lent out := by
  have hq : p.id ∉ q.map Packet.id := fun hx =>
    hid (by rw [List.map_append]; exact List.mem_append_right _ hx)
  refine ⟨⟨?_, ?_, ?_⟩, ?_, h.ended, ?_⟩
  · intro x hx
    rcases List.mem_append.mp hx with hx | hx
    · exact h.queue.lent x hx
    · rw [List.mem_singleton.mp hx, h.foreign hid]
      exact hp.lent
  · intro x hx
    rcases List.mem_append.mp hx with hx | hx
    · exact h.queue.nonempty x hx
    · rw [List.mem_singleton.mp hx]
      exact hlen
  · rw [List.map_append]
    exact nodup_concat h.queue.nodup hq
  · rw [← List.append_assoc, List.map_append]
    exact nodup_concat h.nodup hid
  · intro id h0
    rw [← List.append_assoc, List.map_append]
    exact List.mem_append_left _ (h.known id h0)

theorem read (h : Loans q lent out) (n : Nat) :
    Loans (readLoop q n).2.1 (lent ++ readEnd q n) (out ++ readIovs q n) := by
  have hspec := h.queue.readLoop n
  have hids : ((lent ++ readEnd q n) ++ (readLoop q n).2.1).map Packet.id =
      (lent ++ q).map Packet.id := by
    rw [List.append_assoc, List.map_append, List.map_append, List.map_append, hspec.ids]
  refine ⟨⟨?_, fun p hp => (hspec.rest p hp).2, ?_⟩, hids ▸ h.nodup, ?_, ?_⟩
  · intro p hp
    rw [heldOf_append]
    exact (hspec.rest p hp).1
  · have hnd := h.queue.nodup
    rw [hspec.ids] at hnd
    exact (List.nodup_append.mp hnd).2.1
  · intro p hp
    rw [heldOf_append]
    rcases List.mem_append.mp hp with hp | hp
    · rw [hspec.foreign p.id (h.lent_notMem hp), Nat.add_zero]
      exact h.ended p hp
    · obtain ⟨h1, h2, h3⟩ := hspec.ended p hp
      exact ⟨h1, h2, by omega⟩
  · intro id h0
    rw [heldOf_append] at h0
    rw [hids]
    by_contra hid
    have hq : id ∉ q.map Packet.id := fun hx =>
      hid (by rw [List.map_append]; exact List.mem_append_right _ hx)
    rw [h.foreign hid, hspec.foreign id hq] at h0
    exact h0 rfl

end Loans

/-! Callbacks. -/

theorem heldOf_eraseIdx {out : List ReadIov} {i : Nat} {e : ReadIov} (he : out[i]? = some e)
    (id : PktId) : heldOf out id = heldOf (out.eraseIdx i) id + if e.param = id then 1 else 0 := by
  obtain ⟨hi, rfl⟩ := List.getElem?_eq_some_iff.mp he
  have hperm := (List.getElem_cons_eraseIdx_perm hi).map ReadIov.param
  rw [heldOf, ← hperm.count_eq, List.map_cons, List.count_cons, heldOf]
  simp only [beq_iff_eq]

@[simp] theorem releaseSeg_ids (id : PktId) (q : List Packet) :
    (releaseSeg id q).map Packet.id = q.map Packet.id := by
  rw [releaseSeg, List.map_map]
  refine List.map_congr_left fun p _ => ?_
  simp only [Function.comp_apply]
  split <;> rfl

@[simp] theorem releaseSeg_segSum (id : PktId) (q : List Packet) :
    segSum (releaseSeg id q) = segSum q := by
  rw [segSum, releaseSeg, List.map_map, segSum]
  refine congrArg List.sum (List.map_congr_left fun p _ => ?_)
  simp only [Function.comp_apply]
  split <;> rfl

@[simp] theorem releaseSeg_unread (id : PktId) (q : List Packet) :
    rxqUnread (releaseSeg id q) = rxqUnread q := by
  rw [rxqUnread, releaseSeg, List.map_map, rxqUnread]
  refine congrArg List.flatten (List.map_congr_left fun p _ => ?_)
  simp only [Function.comp_apply]
  split <;> rfl

theorem mem_releaseSeg {id : PktId} {q : List Packet} {x : Packet} (hx : x ∈ releaseSeg id q) :
    ∃ p ∈ q, x.id = p.id ∧ x.len = p.len ∧ (p.id = id → x = p.release) ∧ (p.id ≠ id → x = p) := by
  obtain ⟨p, hp, rfl⟩ := List.mem_map.mp hx
  refine ⟨p, hp, ?_⟩
  split
  · next h => exact ⟨rfl, rfl, fun _ => rfl, fun hne => absurd h hne⟩
  · next h => exact ⟨rfl, rfl, fun he => absurd he h, fun _ => rfl⟩

theorem Lent.release {c : Nat} {p : Packet} (h : Lent (c + 1) p) : Lent c p.release := by
  obtain ⟨⟨k, h1, h2, h3⟩, hin⟩ := h
  refine ⟨⟨k, ?_, by omega, h3⟩, hin⟩
  simp only [Packet.release, h1]
  omega

private theorem ofInt_eq_zero {a : Nat} (h : a < 256) : BitVec.ofInt 8 a = 0 ↔ a = 0 := by
  constructor
  · intro h0
    have := congrArg BitVec.toNat h0
    simpa [BitVec.toNat_ofNat, Nat.mod_eq_of_lt h] using this
  · rintro rfl
    rfl

namespace Loans

variable {q lent : List Packet} {out : List ReadIov} {p : Packet} {e : ReadIov} {i : Nat}

private theorem held_self (he : out[i]? = some e) :
    heldOf out e.param = heldOf (out.eraseIdx i) e.param + 1 := by
  rw [heldOf_eraseIdx he, if_pos rfl]

private theorem held_other (he : out[i]? = some e) {id : PktId} (hid : id ≠ e.param) :
    heldOf out id = heldOf (out.eraseIdx i) id := by
  rw [heldOf_eraseIdx he, if_neg (Ne.symm hid), Nat.add_zero]

theorem queue_done (h : Loans q lent out) (he : out[i]? = some e) :
    QueueLent (heldOf (out.eraseIdx i)) (releaseSeg e.param q) := by
  refine ⟨?_, ?_, by rw [releaseSeg_ids]; exact h.queue.nodup⟩
  · intro x hx
    obtain ⟨p, hp, hid, -, hself, hother⟩ := mem_releaseSeg hx
    have hl := h.queue.lent p hp
    rw [hid]
    by_cases hpe : p.id = e.param
    · rw [hself hpe]
      rw [hpe, held_self he] at hl
      rw [hpe]
      exact hl.release
    · rw [hother hpe, ← held_other he hpe]
      exact hl
  · intro x hx
    obtain ⟨p, hp, -, hlen, -⟩ := mem_releaseSeg hx
    rw [hlen]
    exact h.queue.nonempty p hp

theorem ended_done (h : Loans q lent out) (he : out[i]? = some e) :
    ∀ x ∈ releaseSeg e.param lent, x.nrReadSeg = heldOf (out.eraseIdx i) x.id ∧
      heldOf (out.eraseIdx i) x.id ≤ 256 ∧
      (heldOf (out.eraseIdx i) x.id = 0 → x.id = e.param) := by
  intro x hx
  obtain ⟨p, hp, hid, -, hself, hother⟩ := mem_releaseSeg hx
  obtain ⟨h1, h2, h3⟩ := h.ended p hp
  rw [hid]
  by_cases hpe : p.id = e.param
  · rw [hpe, held_self he] at h1 h2
    rw [hself hpe, hpe]
    refine ⟨?_, by omega, fun _ => rfl⟩
    simp only [Packet.release, h1]
    omega
  · rw [held_other he hpe] at h1 h2 h3
    rw [hother hpe]
    exact ⟨h1, h2, fun h0 => absurd h0 h3⟩

private theorem ids_release (id : PktId) (q lent : List Packet) :
    (releaseSeg id lent ++ releaseSeg id q).map Packet.id = (lent ++ q).map Packet.id := by
  rw [List.map_append, releaseSeg_ids, releaseSeg_ids, List.map_append]

theorem kept (h : Loans q lent out) (he : out[i]? = some e)
    (hk : heldOf (out.eraseIdx i) e.param ≠ 0 ∨ e.param ∈ q.map Packet.id) :
    Loans (releaseSeg e.param q) (releaseSeg e.param lent) (out.eraseIdx i) := by
  refine ⟨h.queue_done he, ?_, ?_, ?_⟩
  · rw [ids_release]
    exact h.nodup
  · intro x hx
    obtain ⟨h1, h2, h3⟩ := h.ended_done he x hx
    refine ⟨h1, h2, fun h0 => ?_⟩
    have hxe := h3 h0
    rcases hk with hk | hk
    · exact hk (hxe ▸ h0)
    · obtain ⟨p, hp, hid, -⟩ := mem_releaseSeg hx
      exact h.lent_notMem hp (by rw [← hid, hxe]; exact hk)
  · intro id h0
    rw [ids_release]
    refine h.known id ?_
    rw [heldOf_eraseIdx he]
    omega

theorem gone (h : Loans q lent out) (he : out[i]? = some e)
    (h0 : heldOf (out.eraseIdx i) e.param = 0) :
    Loans (releaseSeg e.param q) ((releaseSeg e.param lent).filter fun p => p.id ≠ e.param)
      (out.eraseIdx i) := by
  have hsub : List.Sublist (((releaseSeg e.param lent).filter fun p => p.id ≠ e.param) ++
      releaseSeg e.param q) (releaseSeg e.param lent ++ releaseSeg e.param q) :=
    List.filter_sublist.append_right _
  refine ⟨h.queue_done he, ?_, ?_, ?_⟩
  · refine (hsub.map Packet.id).nodup ?_
    rw [ids_release]
    exact h.nodup
  · intro x hx
    obtain ⟨hx, hne⟩ := List.mem_filter.mp hx
    obtain ⟨h1, h2, h3⟩ := h.ended_done he x hx
    exact ⟨h1, h2, fun hz => (by simpa using hne : x.id ≠ e.param) (h3 hz)⟩
  · intro id hid
    have hne : id ≠ e.param := fun heq => hid (heq ▸ h0)
    have hknown := h.known id (by rw [heldOf_eraseIdx he]; omega)
    rw [← ids_release e.param] at hknown
    obtain ⟨x, hx, rfl⟩ := List.mem_map.mp hknown
    refine List.mem_map_of_mem ?_
    rcases List.mem_append.mp hx with hx | hx
    · exact List.mem_append_left _ (List.mem_filter.mpr ⟨hx, by simpa using hne⟩)
    · exact List.mem_append_right _ hx

/-- The packet of an entry is still there, and the `int8_t` of its head reaches zero exactly
with its last entry, once no buffer is left to read. -/
theorem packet (h : Loans q lent out) (he : out[i]? = some e) :
    ∃ p ∈ lent ++ q, p.id = e.param ∧ (BitVec.ofInt 8 p.release.nrReadSeg = 0 ↔
      heldOf (out.eraseIdx i) e.param = 0 ∧ e.param ∉ q.map Packet.id) := by
  have hheld := held_self he
  obtain ⟨p, hp, hid⟩ := List.mem_map.mp (h.known e.param (by omega))
  refine ⟨p, hp, hid, ?_⟩
  rcases List.mem_append.mp hp with hl | hq
  · obtain ⟨h1, h2, -⟩ := h.ended p hl
    rw [hid, hheld] at h1 h2
    have hn : p.release.nrReadSeg = (heldOf (out.eraseIdx i) e.param : Nat) := by
      simp only [Packet.release, h1]
      omega
    rw [hn, ofInt_eq_zero (by omega)]
    exact ⟨fun h0 => ⟨h0, hid ▸ h.lent_notMem hl⟩, fun h0 => h0.1⟩
  · obtain ⟨⟨k, h1, h2, h3⟩, -⟩ := h.queue.lent p hq
    have hk : k ≠ 0 := fun hk => h.queue.nonempty p hq (h3.eq_zero_iff.mpr hk)
    rw [hid, hheld] at h1 h2
    have hn : p.release.nrReadSeg = (heldOf (out.eraseIdx i) e.param + k : Nat) := by
      simp only [Packet.release, h1]
      omega
    rw [hn, ofInt_eq_zero (by omega)]
    constructor
    · intro h0
      omega
    · rintro ⟨-, hnot⟩
      exact absurd (hid ▸ List.mem_map_of_mem hq) hnot

end Loans

/-! Runs. -/

private theorem find_releaseSeg {q : List Packet} {p : Packet} (hnd : (q.map Packet.id).Nodup)
    (hp : p ∈ q) : (releaseSeg p.id q).find? (fun x => x.id = p.id) = some p.release := by
  induction q with
  | nil => cases hp
  | cons a rest ih =>
    obtain ⟨hnot, hnd⟩ := List.nodup_cons.mp hnd
    rw [releaseSeg, List.map_cons, List.find?_cons]
    rcases List.mem_cons.mp hp with rfl | hp
    · simp [Packet.release]
    · have hne : a.id ≠ p.id := fun heq => hnot (heq ▸ List.mem_map_of_mem hp)
      simp only [hne, if_false, decide_false]
      exact ih hnd hp

private theorem segSum_filter_ne {q : List Packet} {p : Packet} (hnd : (q.map Packet.id).Nodup)
    (hp : p ∈ q) : segSum q = p.nbSegs + segSum (q.filter fun x => x.id ≠ p.id) := by
  induction q with
  | nil => cases hp
  | cons a rest ih =>
    obtain ⟨hnot, hnd⟩ := List.nodup_cons.mp hnd
    rcases List.mem_cons.mp hp with rfl | hp
    · have hall : rest.filter (fun x => x.id ≠ p.id) = rest := by
        refine List.filter_eq_self.mpr fun x hx => ?_
        have hne : x.id ≠ p.id := fun heq => hnot (heq ▸ List.mem_map_of_mem hx)
        simpa using hne
      rw [List.filter_cons_of_neg (by simp), hall, segSum_cons]
    · have hne : a.id ≠ p.id := fun heq => hnot (heq ▸ List.mem_map_of_mem hp)
      rw [List.filter_cons_of_pos (by simpa using hne), segSum_cons, segSum_cons, ih hnd hp]
      omega

theorem iovBufFree_eq {m : Reading} {p : Packet} (hnd : (m.packets.map Packet.id).Nodup)
    (hp : p ∈ m.packets) : iovBufFree m p.id =
      if BitVec.ofInt 8 p.release.nrReadSeg = 0 then
        { m with
          st := packetFree ((m.st.setRcv { m.st.tsock.rcv with rxq := releaseSeg p.id m.rxq }).setRx
            { m.st.worker.rx with
              nrInProcessMbuf := m.st.worker.rx.nrInProcessMbuf - BitVec.ofNat 32 p.nbSegs }) p
          lent := (releaseSeg p.id m.lent).filter fun x => x.id ≠ p.id }
      else
        { m with
          st := m.st.setRcv { m.st.tsock.rcv with rxq := releaseSeg p.id m.rxq }
          lent := releaseSeg p.id m.lent } := by
  have hfind := find_releaseSeg hnd hp
  rw [Reading.packets, releaseSeg, List.map_append] at hfind
  have hfind' : (releaseSeg p.id m.lent ++ releaseSeg p.id m.st.tsock.rcv.rxq).find?
      (fun x => x.id = p.id) = some p.release := hfind
  rw [iovBufFree]
  simp only [Reading.packets, Reading.rxq, St.setRcv, hfind']
  rfl

theorem Reading.step_read {m : Reading} {n : Nat} (hl : tsockReadCheck m.st.tsock = none)
    (hq : QueueLent (heldOf m.out) m.rxq) (hn : 0 < n) :
    m.step (.read n) = { m with
      st := (tsockZreadv m.st n).2
      lent := m.lent ++ readEnd m.rxq n
      out := m.out ++ readIovs m.rxq n
      handed := m.handed ++ readIovs m.rxq n } := by
  have hret := (tsockZreadv_live hl hq hn).1
  rw [Reading.step]
  rcases hz : tsockZreadv m.st n with ⟨err | bufs, s⟩
  · -- an error means that nothing was queued
    rw [hz] at hret
    have he : m.rxq = [] := by
      by_contra he
      rw [if_neg (show ¬ m.st.tsock.rcv.rxq = [] from he)] at hret
      cases hret
    simp [he, readEnd, readIovs]
  · rfl

def Idle (q : List Packet) (out : List ReadIov) (id : PktId) : Prop :=
  heldOf out id = 0 ∧ id ∉ q.map Packet.id

theorem ReadInv.done {base : U32} {m : Reading} (h : ReadInv base m) {i : Nat} {e : ReadIov}
    (he : m.out[i]? = some e) :
    (Idle m.rxq (m.out.eraseIdx i) e.param ∧ ∃ p ∈ m.lent, p.id = e.param ∧
      m.step (.done i) = { m with
        st := packetFree
          ((m.st.setRcv { m.st.tsock.rcv with rxq := releaseSeg e.param m.rxq }).setRx
            { m.st.worker.rx with
              nrInProcessMbuf := m.st.worker.rx.nrInProcessMbuf - BitVec.ofNat 32 p.nbSegs }) p
        lent := (releaseSeg e.param m.lent).filter fun x => x.id ≠ e.param
        out := m.out.eraseIdx i }) ∨
    (¬ Idle m.rxq (m.out.eraseIdx i) e.param ∧ m.step (.done i) = { m with
        st := m.st.setRcv { m.st.tsock.rcv with rxq := releaseSeg e.param m.rxq }
        lent := releaseSeg e.param m.lent
        out := m.out.eraseIdx i }) := by
  obtain ⟨p, hp, hid, hzero⟩ := h.loans.packet he
  have hstep : m.step (.done i) = iovBufFree { m with out := m.out.eraseIdx i } p.id := by
    rw [Reading.step, he, hid]
  rw [hstep, iovBufFree_eq (m := { m with out := m.out.eraseIdx i }) h.loans.nodup hp, hid]
  by_cases h0 : BitVec.ofInt 8 p.release.nrReadSeg = 0
  · have hidle := hzero.mp h0
    have hl : p ∈ m.lent := (List.mem_append.mp hp).resolve_right fun hq =>
      hidle.2 (hid ▸ List.mem_map_of_mem hq)
    rw [if_pos h0]
    exact .inl ⟨hidle, p, hl, hid, rfl⟩
  · rw [if_neg h0]
    exact .inr ⟨fun hidle => h0 (hzero.mpr hidle), rfl⟩

private theorem account_gone {base total : U32} {lent : List Packet} {p : Packet}
    (hnd : (lent.map Packet.id).Nodup) (hp : p ∈ lent)
    (h : total = base + BitVec.ofNat 32 (segSum lent)) :
    total - BitVec.ofNat 32 p.nbSegs = base + BitVec.ofNat 32
      (segSum ((releaseSeg p.id lent).filter fun x => x.id ≠ p.id)) := by
  have hnd' : ((releaseSeg p.id lent).map Packet.id).Nodup := by
    rw [releaseSeg_ids]
    exact hnd
  have hmem : p.release ∈ releaseSeg p.id lent := List.mem_map.mpr ⟨p, hp, if_pos rfl⟩
  have hsum : segSum lent = p.nbSegs +
      segSum ((releaseSeg p.id lent).filter fun x => x.id ≠ p.id) := by
    have hcut := segSum_filter_ne hnd' hmem
    rw [releaseSeg_segSum] at hcut
    exact hcut
  rw [h, hsum, BitVec.ofNat_add, BitVec.add_comm (BitVec.ofNat 32 p.nbSegs), ← BitVec.add_assoc,
    BitVec.add_sub_cancel]

theorem ReadInv.step {base : U32} {m : Reading} (h : ReadInv base m) {a : ReadAct}
    (ha : a.Enabled m) : ReadInv base (m.step a) := by
  cases a with
  | arrive p =>
    have hcase := tcpRcvEnqueue_queued m.st.tsock.rcv ha.1
    rw [Reading.step]
    generalize (tcpRcvEnqueue m.st.tsock.rcv p).2.1 = r at hcase
    refine ⟨h.live, ?_, h.account⟩
    change Loans r.rxq m.lent m.out
    rcases hcase with hr | ⟨p', hp', hid, hlen, hr⟩
    · rw [hr]
      exact h.loans
    · rw [hr]
      exact h.loans.arrive hp' hlen (hid ▸ ha.2)
  | read n =>
    obtain ⟨-, hrxq, -, hrx, hlive⟩ := tsockZreadv_live h.live h.loans.queue ha
    rw [Reading.step_read h.live h.loans.queue ha]
    refine ⟨hlive, ?_, ?_⟩
    · change Loans (tsockZreadv m.st n).2.tsock.rcv.rxq _ _
      rw [hrxq]
      exact h.loans.read n
    · rw [hrx, segSum_append]
      simp only [h.account, BitVec.ofNat_add, BitVec.add_assoc]
      rfl
  | done i =>
    rcases he : m.out[i]? with _ | e
    · rw [Reading.step, he]
      exact h
    · rcases h.done he with ⟨hidle, p, hp, hid, hstep⟩ | ⟨hidle, hstep⟩
      · have hnd := h.loans.nodup
        rw [List.map_append] at hnd
        rw [hstep]
        refine ⟨h.live, h.loans.gone he hidle.1, ?_⟩
        rw [← hid]
        exact account_gone (List.nodup_append.mp hnd).1 hp h.account
      · rw [hstep]
        refine ⟨h.live, h.loans.kept he ?_, ?_⟩
        · by_contra hno
          rw [not_or, not_not] at hno
          exact hidle hno
        · rw [releaseSeg_segSum]
          exact h.account

/-- Every entry handed out is a buffer of a packet that was queued, in order, and the
packets that arrived are still as they were. -/
structure StreamInv (s₀ : St) (m : Reading) : Prop where
  stream : m.handed ++ rxqUnread m.rxq = rxqUnread s₀.tsock.rcv.rxq ++ rxqUnread m.arrived
  readable : ∀ p ∈ m.arrived, Readable p

theorem StreamInv.step {s₀ : St} {base : U32} {m : Reading} (hs : StreamInv s₀ m)
    (h : ReadInv base m) {a : ReadAct} (ha : a.Enabled m) : StreamInv s₀ (m.step a) := by
  cases a with
  | arrive p =>
    have hcase := tcpRcvEnqueue_queued m.st.tsock.rcv ha.1
    rw [Reading.step]
    generalize (tcpRcvEnqueue m.st.tsock.rcv p).2.1 = r at hcase
    change r.rxq = m.rxq ∨ ∃ p', Readable p' ∧ p'.id = p.id ∧ p'.len ≠ 0 ∧
      r.rxq = m.rxq ++ [p'] at hcase
    rcases hcase with hr | ⟨p', hp', -, -, hr⟩
    · have hnew : m.arrived ++ r.rxq.drop m.rxq.length = m.arrived := by
        rw [hr, List.drop_length, List.append_nil]
      refine ⟨?_, by rw [hnew]; exact hs.readable⟩
      change m.handed ++ rxqUnread r.rxq = _
      rw [hnew, hr]
      exact hs.stream
    · have hnew : m.arrived ++ r.rxq.drop m.rxq.length = m.arrived ++ [p'] := by
        rw [hr, List.drop_left]
      constructor
      · change m.handed ++ rxqUnread r.rxq = _
        rw [hnew, hr, rxqUnread_append, rxqUnread_append, ← List.append_assoc, hs.stream,
          List.append_assoc]
      · intro x hx
        rcases List.mem_append.mp (hnew ▸ hx) with hx | hx
        · exact hs.readable x hx
        · rw [List.mem_singleton.mp hx]
          exact hp'
  | read n =>
    obtain ⟨-, hrxq, -⟩ := tsockZreadv_live h.live h.loans.queue ha
    rw [Reading.step_read h.live h.loans.queue ha]
    refine ⟨?_, hs.readable⟩
    change m.handed ++ readIovs m.rxq n ++ rxqUnread (tsockZreadv m.st n).2.tsock.rcv.rxq = _
    rw [hrxq, List.append_assoc]
    change m.handed ++ (readIovs m.rxq n ++ rxqUnread (readLoop m.rxq n).2.1) = _
    rw [← (h.loans.queue.readLoop n).unread]
    exact hs.stream
  | done i =>
    rcases he : m.out[i]? with _ | e
    · rw [Reading.step, he]
      exact hs
    · rcases h.done he with ⟨-, p, -, -, hstep⟩ | ⟨-, hstep⟩
      · rw [hstep]
        refine ⟨?_, hs.readable⟩
        change m.handed ++ rxqUnread (releaseSeg e.param m.rxq) = _
        rw [releaseSeg_unread]
        exact hs.stream
      · rw [hstep]
        refine ⟨?_, hs.readable⟩
        change m.handed ++ rxqUnread (releaseSeg e.param m.rxq) = _
        rw [releaseSeg_unread]
        exact hs.stream

/-- A live socket whose rxq holds packets and chains, cut or not, none of them empty. -/
structure RxqFresh (s : St) : Prop where
  live : tsockReadCheck s.tsock = none
  readable : ∀ p ∈ s.tsock.rcv.rxq, Readable p
  nonempty : ∀ p ∈ s.tsock.rcv.rxq, p.len ≠ 0
  nodup : (s.tsock.rcv.rxq.map Packet.id).Nodup

theorem RxqFresh.readInv {s : St} (h : RxqFresh s) :
    ReadInv s.worker.rx.nrInProcessMbuf (Reading.start s) := by
  refine ⟨h.live, ⟨⟨fun p hp => (h.readable p hp).lent, h.nonempty, h.nodup⟩, h.nodup, ?_, ?_⟩, ?_⟩
  · intro p hp
    exact absurd hp List.not_mem_nil
  · intro id h0
    exact absurd rfl h0
  · exact (BitVec.add_zero _).symm

theorem StreamInv.start (s : St) : StreamInv s (Reading.start s) := by
  refine ⟨?_, fun p hp => absurd hp List.not_mem_nil⟩
  rw [show (Reading.start s).arrived = [] from rfl, rxqUnread_nil, List.append_nil]
  rfl

/-! The bytes of the entries. -/

theorem Lent.unread_bytes {c : Nat} {p : Packet} (h : Lent c p) :
    (p.unread.map ReadIov.data).flatten = p.bytes := by
  obtain ⟨⟨k, -, -, h3⟩, -⟩ := h
  have hsplit : p.toRead.flatten = (p.toRead.take k).flatten ++ (p.toRead.drop k).flatten := by
    rw [← List.flatten_append, List.take_append_drop]
  rw [Packet.unread, Packet.iovs, iovsFrom_data, h3.iovSegs, Nat.min_eq_left h3.le, Packet.bytes,
    ← h3.bytes, hsplit, List.take_left]

theorem rxqUnread_bytes {c : PktId → Nat} {q : List Packet} (h : ∀ p ∈ q, Lent (c p.id) p) :
    ((rxqUnread q).map ReadIov.data).flatten = rxqBytes q := by
  induction q with
  | nil => rfl
  | cons p rest ih =>
    rw [rxqUnread_cons, List.map_append, List.flatten_append, rxqBytes_cons,
      (h p (List.mem_cons_self ..)).unread_bytes,
      ih fun x hx => h x (List.mem_cons_of_mem _ hx)]

theorem QueueLent.mem_unread {c : PktId → Nat} {q : List Packet} (h : QueueLent c q) (id : PktId) :
    id ∈ q.map Packet.id ↔ ∃ e ∈ rxqUnread q, e.param = id := by
  have hone : ∀ p : Packet, p.unread.map ReadIov.param =
      List.replicate (LibTpa.iovSegs p.toRead p.len p.toRead.length).1.length p.id := by
    intro p
    rw [Packet.unread, Packet.iovs, iovsFrom_param]
  constructor
  · intro hid
    obtain ⟨p, hp, rfl⟩ := List.mem_map.mp hid
    obtain ⟨⟨k, -, -, h3⟩, -⟩ := h.lent p hp
    have hk : k ≠ 0 := fun hk => h.nonempty p hp (h3.eq_zero_iff.mpr hk)
    have hmem : p.id ∈ p.unread.map ReadIov.param := by
      rw [hone, h3.iovSegs, Nat.min_eq_left h3.le, List.length_take, Nat.min_eq_left h3.le]
      exact List.mem_replicate.mpr ⟨hk, rfl⟩
    obtain ⟨e, he, hpar⟩ := List.mem_map.mp hmem
    exact ⟨e, List.mem_flatten.mpr ⟨p.unread, List.mem_map_of_mem hp, he⟩, hpar⟩
  · rintro ⟨e, he, rfl⟩
    obtain ⟨l, hl, hel⟩ := List.mem_flatten.mp he
    obtain ⟨p, hp, rfl⟩ := List.mem_map.mp hl
    have hmem : e.param ∈ p.unread.map ReadIov.param := List.mem_map_of_mem hel
    rw [hone] at hmem
    rw [List.eq_of_mem_replicate hmem]
    exact List.mem_map_of_mem hp

theorem heldOf_eq_zero_iff (out : List ReadIov) (id : PktId) :
    heldOf out id = 0 ↔ ∀ e ∈ out, e.param ≠ id := by
  rw [heldOf, List.count_eq_zero, List.mem_map]
  constructor
  · intro h e he hid
    exact h ⟨e, he, hid⟩
  · rintro h ⟨e, he, hid⟩
    exact h e he hid

/-- What the next action frees: the packet of the entry whose callback runs, if that was the
last of its entries and none of its buffers is left to read. -/
def Reading.due (m : Reading) : ReadAct → List PktId
  | .done i =>
    match m.out[i]? with
    | none => []
    | some e =>
      if (∀ e' ∈ m.out.eraseIdx i, e'.param ≠ e.param) ∧
        ∀ e' ∈ rxqUnread m.rxq, e'.param ≠ e.param then [e.param] else []
  | _ => []

/-- Zero-copy reading of the rxq of `s₀` and of what arrived since. -/
structure ZeroCopy (s₀ : St) (m : Reading) : Prop where
  /-- the entries handed out and the unread buffers are the buffers that were queued -/
  buffers : m.handed ++ rxqUnread m.rxq = rxqUnread s₀.tsock.rcv.rxq ++ rxqUnread m.arrived
  bytes : (m.handed.map ReadIov.data).flatten ++ rxqBytes m.rxq =
    rxqBytes s₀.tsock.rcv.rxq ++ rxqBytes m.arrived
  /-- a read fills entries while there is something to read and returns their total length -/
  returns : ∀ n, 0 < n → m.rxq ≠ [] → ∃ bufs, (tsockZreadv m.st n).1 = .ok bufs ∧
    (m.step (.read n)).handed.map ReadIov.data = m.handed.map ReadIov.data ++ bufs ∧
    bufs.flatten.length ≠ 0 ∧
    (tsockZreadv m.st n).2.tsock.rcv.rcvWnd = m.st.tsock.rcv.rcvWnd + (bufs.map List.length).sum
  /-- otherwise it reports the end of the stream or `EAGAIN` -/
  dry : ∀ n, 0 < n → m.rxq = [] →
    (tsockZreadv m.st n).1 = if m.st.tsock.flags.eof then .ok [] else .error .eagain
  frees : ∀ a : ReadAct, a.Enabled m → (m.step a).freed = m.freed ++ m.due a
  /-- the worker counts the packets that are read to their end and still in use -/
  account : m.st.worker.rx.nrInProcessMbuf =
    s₀.worker.rx.nrInProcessMbuf + BitVec.ofNat 32 (segSum m.lent)
  inUse : ∀ p ∈ m.lent, (∃ e ∈ m.out, e.param = p.id) ∧ ∀ e ∈ rxqUnread m.rxq, e.param ≠ p.id

theorem ReadInv.frees {base : U32} {m : Reading} (h : ReadInv base m) {a : ReadAct}
    (ha : a.Enabled m) : (m.step a).freed = m.freed ++ m.due a := by
  cases a with
  | arrive p => exact (List.append_nil _).symm
  | read n =>
    obtain ⟨-, -, -, hrx, -⟩ := tsockZreadv_live h.live h.loans.queue ha
    rw [Reading.step_read h.live h.loans.queue ha, Reading.freed, hrx]
    exact (List.append_nil _).symm
  | done i =>
    rcases he : m.out[i]? with _ | e
    · rw [Reading.step, Reading.due, he]
      exact (List.append_nil _).symm
    · have hidle : Idle m.rxq (m.out.eraseIdx i) e.param ↔
          (∀ e' ∈ m.out.eraseIdx i, e'.param ≠ e.param) ∧
            ∀ e' ∈ rxqUnread m.rxq, e'.param ≠ e.param := by
        rw [Idle, heldOf_eq_zero_iff, h.loans.queue.mem_unread]
        simp only [not_exists, not_and, ne_eq]
      rw [Reading.due, he]
      dsimp only
      rcases h.done he with ⟨hi, p, -, hid, hstep⟩ | ⟨hi, hstep⟩
      · rw [if_pos (hidle.mp hi), hstep, ← hid]
        rfl
      · rw [if_neg (fun hn => hi (hidle.mpr hn)), hstep]
        exact (List.append_nil _).symm

/-- For every content of the rxq and every order of arrivals, reads and callbacks. -/
theorem zero_copy_read (s₀ : St) (h₀ : RxqFresh s₀) (m : Reading)
    (hm : Reach Reading.step (fun m a => a.Enabled m) (Reading.start s₀) m) : ZeroCopy s₀ m := by
  obtain ⟨h, hs⟩ := hm.invariant
    (I := fun m => ReadInv s₀.worker.rx.nrInProcessMbuf m ∧ StreamInv s₀ m)
    ⟨h₀.readInv, StreamInv.start s₀⟩ fun m a hI ha => ⟨hI.1.step ha, hI.2.step hI.1 ha⟩
  refine ⟨hs.stream, ?_, ?_, ?_, fun a ha => h.frees ha, h.account, ?_⟩
  · have hstream := congrArg (fun l => (l.map ReadIov.data).flatten) hs.stream
    simp only [List.map_append, List.flatten_append] at hstream
    rw [rxqUnread_bytes h.loans.queue.lent,
      rxqUnread_bytes (c := fun _ => 0) fun p hp => (h₀.readable p hp).lent,
      rxqUnread_bytes (c := fun _ => 0) fun p hp => (hs.readable p hp).lent] at hstream
    exact hstream
  · intro n hn hq
    obtain ⟨hret, -, hwnd, -⟩ := tsockZreadv_live h.live h.loans.queue hn
    refine ⟨(readIovs m.rxq n).map ReadIov.data, ?_, ?_, ?_, ?_⟩
    · rw [hret, if_neg (show ¬ m.st.tsock.rcv.rxq = [] from hq)]
      rfl
    · rw [Reading.step_read h.live h.loans.queue hn, List.map_append]
    · rw [readIovs_data]
      exact h.loans.queue.reads hq hn
    · rw [hwnd, List.map_map]
      rfl
  · intro n hn hq
    rw [(tsockZreadv_live h.live h.loans.queue hn).1, if_pos (show m.st.tsock.rcv.rxq = [] from hq)]
  · intro p hp
    constructor
    · by_contra hno
      refine (h.loans.ended p hp).2.2 ((heldOf_eq_zero_iff ..).mpr fun e he hid => hno ⟨e, he, hid⟩)
    · intro e he hid
      exact h.loans.lent_notMem hp ((h.loans.queue.mem_unread _).mpr ⟨e, he, hid⟩)

def chainOfThree : Packet :=
  tcpPacketCutHead
    { packetChain (packetChain (.oneByte 0 0 0 0 tcpFlagAck 1) (.oneByte 1 1 0 0 tcpFlagAck 2))
        (.oneByte 2 2 0 0 tcpFlagAck 3) with toRead := [[1], [2], [3]] } 1

theorem Packet.oneByte_merged (id : PktId) (seq : U32) (b : Byte) :
    Merged (.oneByte id seq 0 0 tcpFlagAck b) :=
  .one _ [b] rfl (by simp) rfl rfl

theorem chainOfThree_readable : Readable chainOfThree :=
  .cutHead _ 1 (.whole _ (.chain _ _ [3] (.chain _ _ [2] (Packet.oneByte_merged 0 0 1) rfl (by simp)
    (by decide) (by decide)) rfl (by simp) (by decide) (by decide))) (by decide)

def chainSt : St :=
  let t := tsockInit {} 0 false
  ⟨Worker.boot 0 {}, { t with state := .established, rcv := { t.rcv with rxq := [chainOfThree] } }⟩

def chainReads : List ReadAct :=
  [.read 1, .arrive (.oneByte 3 3 0 0 tcpFlagAck 4), .read 5, .done 1, .done 1, .done 0]

theorem zero_copy_read_chainReads :
    ZeroCopy chainSt (exec Reading.step (Reading.start chainSt) chainReads) ∧
      (exec Reading.step (Reading.start chainSt) chainReads).handed =
        [⟨0, 1, [2]⟩, ⟨0, 2, [3]⟩, ⟨3, 0, [4]⟩] ∧
      (exec Reading.step (Reading.start chainSt) chainReads).freed = [3, 0] ∧
      (exec Reading.step (Reading.start chainSt) chainReads).st.worker.rx.nrInProcessMbuf = 0 := by
  have hfresh : RxqFresh chainSt := by
    refine ⟨by decide +kernel, ?_, ?_, by decide +kernel⟩
    · intro p hp
      rw [List.mem_singleton.mp hp]
      exact chainOfThree_readable
    · decide +kernel
  have hrun : Admitted Reading.step (fun m a => a.Enabled m) (Reading.start chainSt) chainReads :=
    ⟨Nat.one_pos, ⟨.whole (.oneByte 3 3 0 0 tcpFlagAck 4) (Packet.oneByte_merged 3 3 4),
      by decide +kernel⟩, Nat.succ_pos 4, trivial, trivial, trivial, trivial⟩
  exact ⟨zero_copy_read chainSt hfresh _ (Reach.refl.exec hrun), by decide +kernel,
    by decide +kernel, by decide +kernel⟩

end LibTpa
