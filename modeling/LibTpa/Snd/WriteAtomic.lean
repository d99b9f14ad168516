/- LibTpa/Snd/WriteAtomic
   digest: A write takes effect as a whole or not at all. -/

import LibTpa.Snd.WriteSpec
import LibTpa.Sock.Init

set_option autoImplicit false

namespace LibTpa

open Lib.SerialNumber Lib.RingWindow

variable {s₀ s : St} {c : WriteCtx} {ds : List DescId} {bytes : List Byte}

structure Refused (s s' : St) : Prop where
  una : s'.tsock.snd.txq.una = s.tsock.snd.txq.una
  nxt : s'.tsock.snd.txq.nxt = s.tsock.snd.txq.nxt
  write : s'.tsock.snd.txq.write = s.tsock.snd.txq.write
  live : s'.tsock.snd.txq.live = s.tsock.snd.txq.live
  descs : s'.liveDescs = s.liveDescs
  dataSeqNxt : s'.tsock.snd.dataSeqNxt = s.tsock.snd.dataSeqNxt
  nrWriteMbuf : s'.worker.nrWriteMbuf = s.worker.nrWriteMbuf
  mbufUsed : s'.worker.mbufUsed = s.worker.mbufUsed
  free : s'.worker.tx.free.Perm s.worker.tx.free
  fault : s'.worker.fault = s.worker.fault

/-- An accepted write of `n` bytes has appended the descriptors `ds`, taken from
the pool, and touched no other. -/
structure Committed (s s' : St) (iov : List Iovec) (n : U32) (ds : List DescId) : Prop where
  size : n = BitVec.ofNat 32 (iovBytes iov).length
  free : s.worker.tx.free = ds ++ s'.worker.tx.free
  live : s'.tsock.snd.txq.live = s.tsock.snd.txq.live ++ ds
  chain : SeqChain s.tsock.snd.dataSeqNxt (ds.map s'.desc) s'.tsock.snd.dataSeqNxt
  bytes : descBytes (ds.map s'.desc) = iovBytes iov
  others : ∀ d, d ∉ ds → s'.desc d = s.desc d
  fresh : ∀ d ∈ ds, (s'.desc d).sacked = false
  wf : s'.tsock.snd.txq.Wf
  snd : s'.tsock.snd = { s.tsock.snd with
    dataSeqNxt := s.tsock.snd.dataSeqNxt + n
    txq := { s.tsock.snd.txq with
      write := s.tsock.snd.txq.write + BitVec.ofNat 16 ds.length
      descs := s'.tsock.snd.txq.descs } }
  tsock : s'.tsock = { s.tsock with snd := s'.tsock.snd }
  fault : s'.worker.fault = s.worker.fault

def AtomicWrite (s : St) (iov : List Iovec) (r : Except Errno U32 × St) : Prop :=
  match r.1 with
  | .error _ => Refused s r.2
  | .ok n => ∃ ds, Committed s r.2 iov n ds

theorem Wrote.start (s s' : St) (hts : s'.tsock = s.tsock)
    (hw : s'.worker = { s.worker with oracles := s'.worker.oracles }) (start : Nat) :
    Wrote s s' ⟨(tcpTxqFreeCount s.tsock.snd.txq).toNat, 0, 0, 0, start⟩ [] [] := by
  have hd : ∀ d, s'.desc d = s.desc d := fun d => by simp only [St.desc]; rw [hw]
  refine ⟨by rw [hw]; rfl, fun d _ => hd d, rfl, rfl, Nat.zero_le _, rfl, ?_, rfl, by simp,
    rfl, by rw [hts], by rw [hts], by rw [hts], ?_, ?_, rfl⟩
  · simp [SeqChain]
  · rw [hw]
  · rw [hw]
    rfl

theorem refireOutEventIfNeeded_frame (s : St) :
    (refireOutEventIfNeeded s).tsock = { s.tsock with ev := (refireOutEventIfNeeded s).tsock.ev } ∧
    (refireOutEventIfNeeded s).worker = { s.worker with
      eventQueue := (refireOutEventIfNeeded s).worker.eventQueue } := by
  unfold refireOutEventIfNeeded
  split <;> exact ⟨rfl, rfl⟩

theorem Wrote.not_live (h₀ : TxOk s₀) (h : Wrote s₀ s c ds bytes) {d : DescId}
    (hd : d ∈ s₀.tsock.snd.txq.live) : d ∉ ds := by
  have := h₀.apart d hd
  rw [h.free, List.mem_append, not_or] at this
  exact this.1

theorem Wrote.revoke (h₀ : TxOk s₀) (h : Wrote s₀ s c ds bytes) :
    Refused s₀ (refireOutEventIfNeeded (writeRevoke s c)) := by
  have hq : s.tsock.snd.txq = { s₀.tsock.snd.txq with descs := s.tsock.snd.txq.descs } :=
    congrArg Snd.txq h.snd
  have hwr : s.tsock.snd.txq.write = s₀.tsock.snd.txq.write := by rw [hq]
  have hrev : writeRevoke s c = { s with worker := { s.worker with
      tx := { s.worker.tx with free := ds.reverse ++ s.worker.tx.free }
      mbufUsed := s.worker.mbufUsed - ownedMbufs s ds } } := by
    unfold writeRevoke
    dsimp only
    rw [h.nrDesc, hwr, h.slots]
    exact revoke_spec ds s
  obtain ⟨hts, hw⟩ := refireOutEventIfNeeded_frame (writeRevoke s c)
  rw [hrev] at hts hw ⊢
  have hsnd := congrArg TcpSock.snd hts
  refine ⟨by rw [hsnd, h.snd], by rw [hsnd, h.snd], by rw [hsnd, h.snd], ?_, ?_,
    by rw [hsnd, h.snd], ?_, ?_, ?_, ?_⟩
  · rw [hsnd]
    exact h.live
  · unfold St.liveDescs
    rw [hsnd, h.live]
    refine List.map_congr_left fun d hd => ?_
    simp only [St.desc]
    rw [hw]
    exact h.mem d (h.not_live h₀ hd)
  · rw [hw, h.worker]
  · rw [hw]
    change s.worker.mbufUsed - _ = _
    rw [h.mbufs]
    omega
  · rw [hw, h.free]
    exact (List.reverse_perm ds).append_right _
  · rw [hw, h.worker]

theorem rteRdtsc_frame (s : St) : (rteRdtsc s).2.tsock = s.tsock ∧
    (rteRdtsc s).2.worker = { s.worker with oracles := (rteRdtsc s).2.worker.oracles } := by
  unfold rteRdtsc
  split <;> exact ⟨rfl, rfl⟩

theorem SeqChain.congr {f g : DescId → TxDesc} {a b : U32} (l : List DescId)
    (h : SeqChain a (l.map f) b) (hseq : ∀ d ∈ l, (g d).seq = (f d).seq)
    (hdata : ∀ d ∈ l, (g d).data = (f d).data) : SeqChain a (l.map g) b := by
  induction l generalizing a with
  | nil => exact h
  | cons d l ih =>
    simp only [List.forall_mem_cons] at hseq hdata
    refine ⟨hseq.1.trans h.1, by rw [hdata.1]; exact h.2.1, ?_⟩
    rw [show (g d).len = (f d).len by simp only [TxDesc.len, hdata.1]]
    exact ih h.2.2 hseq.2 hdata.2

def stampedDesc (s : St) (c : WriteCtx) : DescId :=
  s.tsock.snd.txq.descAt (s.tsock.snd.txq.write + BitVec.ofNat 16 c.nrDesc - 1)

structure Stamped (s s' : St) (d : DescId) : Prop where
  tsock : s'.tsock = s.tsock
  free : s'.worker.tx.free = s.worker.tx.free
  others : ∀ e, e ≠ d → s'.desc e = s.desc e
  seq : ∀ e, (s'.desc e).seq = (s.desc e).seq
  data : ∀ e, (s'.desc e).data = (s.desc e).data
  sacked : ∀ e, (s'.desc e).sacked = (s.desc e).sacked
  worker : s'.worker = { s.worker with
    tx := s'.worker.tx, oracles := s'.worker.oracles }

theorem initWriteLatTsc_spec (cfg : TcpCfg) (s : St) (c : WriteCtx)
    (hd : stampedDesc s c ≠ wildDesc) :
    Stamped s (initWriteLatTsc cfg s c) (stampedDesc s c) := by
  obtain ⟨hts, hw⟩ := rteRdtsc_frame s
  have hmem : ∀ e, (rteRdtsc s).2.desc e = s.desc e := fun e => by
    simp only [St.desc]
    rw [hw]
  unfold initWriteLatTsc
  split
  · unfold stampedDesc at hd ⊢
    rw [if_neg hd]
    generalize s.tsock.snd.txq.descAt _ = d
    have hself : ∀ (v : TxDesc) (e : DescId), ((rteRdtsc s).2.setDesc d v).desc e =
        if e = d then v else s.desc e := fun v e => by
      rw [← hmem]
      exact Function.update_apply ..
    refine ⟨hts, by rw [St.setDesc, St.setTx, TxPool.set, hw], ?_, ?_, ?_, ?_, ?_⟩
    · intro e he
      rw [hself, if_neg he]
    · intro e
      rw [hself]
      split
      · next he => rw [hmem, he]
      · rfl
    · intro e
      rw [hself]
      split
      · next he => rw [hmem, he]
      · rfl
    · intro e
      rw [hself]
      split
      · next he => rw [hmem, he]
      · rfl
    · rw [St.setDesc, St.setTx, hw]
  · exact ⟨rfl, rfl, fun _ _ => rfl, fun _ => rfl, fun _ => rfl, fun _ => rfl, rfl⟩

theorem Wrote.stampedDesc_mem (h : Wrote s₀ s c ds bytes) (hne : ds ≠ []) :
    stampedDesc s c ∈ ds := by
  have hwr : s.tsock.snd.txq.write = s₀.tsock.snd.txq.write := by rw [h.snd]
  obtain ⟨n, hn⟩ : ∃ n, ds.length = n + 1 :=
    ⟨ds.length - 1, by have := List.length_pos_iff.mpr hne; omega⟩
  have hslots := h.slots
  rw [hn, window_succ] at hslots
  unfold stampedDesc
  rw [h.nrDesc, hn, BitVec.ofNat_add, ← add_assoc, hwr, ← hslots]
  refine List.mem_append_right _ (List.mem_singleton.mpr ?_)
  simp [TcpTxq.descAt, TcpTxq.slot]

theorem Wrote.commit {iov : List Iovec} (h₀ : TxOk s₀) (h : Wrote s₀ s c ds (iovBytes iov))
    {s' : St} {d : DescId} (hst : Stamped (chargeWrite s c) s' d)
    (hd : ∀ e, e ∉ ds → s'.desc e = s.desc e) :
    Committed s₀ (writeCommit s' c) iov c.size ds := by
  have hcount : s₀.tsock.snd.txq.count + ds.length ≤ s₀.tsock.snd.txq.size := by
    have h1 := h.nrDescFree
    have h2 := h.room
    have h3 := h₀.wf.count_le
    rw [s₀.tsock.snd.txq.freeCount h₀.wf] at h1
    rw [← h.nrDesc]
    omega
  have hts : s'.tsock = s.tsock := hst.tsock
  have hsnd : (writeCommit s' c).tsock.snd = { s₀.tsock.snd with
      dataSeqNxt := s₀.tsock.snd.dataSeqNxt + c.size
      txq := { s₀.tsock.snd.txq with
        write := s₀.tsock.snd.txq.write + BitVec.ofNat 16 ds.length
        descs := s.tsock.snd.txq.descs } } := by
    obtain ⟨descs, hs⟩ : ∃ descs, s.tsock.snd = { s₀.tsock.snd with
        txq := { s₀.tsock.snd.txq with descs := descs } } := ⟨_, h.snd⟩
    unfold writeCommit outputTsockEnqueue St.setSnd
    rw [hts, hs, h.nrDesc]
  have hdescs : (writeCommit s' c).tsock.snd.txq.descs = s.tsock.snd.txq.descs := by rw [hsnd]
  have hcnt : (writeCommit s' c).tsock.snd.txq.count = s₀.tsock.snd.txq.count + ds.length := by
    have := s₀.tsock.snd.txq.size_ok.le
    rw [hsnd]
    unfold TcpTxq.count at *
    bv_omega
  refine ⟨h.size, ?_, ?_, ?_, ?_, ?_, ?_, ?_, ?_, ?_, ?_⟩
  · rw [h.free, show s.worker.tx.free = s'.worker.tx.free from hst.free.symm]
    rfl
  · have hwin : (writeCommit s' c).tsock.snd.txq.size = s.tsock.snd.txq.size := by rw [hsnd, h.snd]
    have huna : (writeCommit s' c).tsock.snd.txq.una = s₀.tsock.snd.txq.una := by rw [hsnd]
    have hold : window s.tsock.snd.txq.descs s.tsock.snd.txq.size s₀.tsock.snd.txq.una
        s₀.tsock.snd.txq.count = s₀.tsock.snd.txq.live := by
      rw [← h.live, h.snd]
      rfl
    unfold TcpTxq.live
    rw [hcnt, hdescs, hwin, huna, window_add, hold, ← TcpTxq.write_eq, h.slots]
    rfl
  · rw [hsnd]
    exact h.chain.congr ds (fun e _ => hst.seq e) (fun e _ => hst.data e)
  · rw [← h.bytes]
    unfold descBytes
    rw [List.map_map, List.map_map]
    congr 1
    exact List.map_congr_left fun e _ => hst.data e
  · intro e he
    exact (hd e he).trans (h.mem e he)
  · intro e he
    exact (hst.sacked e).trans (h.fresh e he).1
  · have h1 := h₀.wf.nxt_le
    refine ⟨?_, ?_⟩
    · rw [hcnt, hsnd]
      exact Nat.le_add_right_of_le h1
    · rw [hcnt, hsnd]
      exact hcount
  · rw [hdescs]
    exact hsnd
  · change { s'.tsock with snd := (writeCommit s' c).tsock.snd } = _
    rw [hts]
    conv_lhs => rw [h.tsock]
  · change s'.worker.fault = _
    rw [hst.worker]
    change s.worker.fault = _
    rw [h.worker]

theorem iovBytes_eq_nil {iov : List Iovec} : iovBytes iov = [] ↔ ∀ v ∈ iov, v.data = [] := by
  simp [iovBytes]

theorem zwriteLoop_empty (cfg : TcpCfg) (iov : List Iovec) (s : St) (hc : c.nrDesc = 0)
    (hf : c.nrFallback = 0) (h : iovBytes iov = []) :
    zwriteLoop cfg iov iov s c = (true, s, c) := by
  have hslow : ∀ l : List Iovec, iovBytes l = [] → writeIovs cfg l s c = (true, s, c) := by
    intro l
    induction l with
    | nil => exact fun _ => rfl
    | cons v l ih =>
      intro hl
      rw [iovBytes_eq_nil, List.forall_mem_cons, ← iovBytes_eq_nil] at hl
      unfold writeIovs writeOneIov
      rw [if_pos (by rw [hl.1]; rfl)]
      exact ih hl.2
  cases iov with
  | nil => rfl
  | cons v rest =>
    have hv : v.data = [] := iovBytes_eq_nil.mp h v (by simp)
    have hc' : { c with nrFallback := 0 } = c := by rw [← hf]
    unfold zwriteLoop
    rw [if_pos (by simp [needsSlowpath, hv]), hc', hc, List.drop_zero, hslow _ h]
    exact congrArg (fun s => (true, s, c)) (chargeWrite_zero s hf)

/-- The descriptor in front of the write cursor, with the stamps of a write that
begins in `s` and submits nothing. -/
def latStamp (s : St) : TxDesc :=
  { s.desc (s.tsock.snd.txq.descAt (s.tsock.snd.txq.write - 1)) with
    tscStart := s.worker.oracles.rdtsc.getD 0 0
    tscSubmit := s.worker.oracles.rdtsc.getD 1 0
    measureLatency := true }

/-- A write without bytes, on a socket that takes it, while latency is measured,
where the slot in front of the write cursor holds a descriptor that the stamps
change, or none. -/
def StampsForeign (cfg : TcpCfg) (s : St) (iov : List Iovec) : Prop :=
  cfg.measureLatency = true ∧ tsockWriteCheck s.tsock = none ∧ iovBytes iov = [] ∧
    (s.tsock.snd.txq.descAt (s.tsock.snd.txq.write - 1) = wildDesc ∨
      latStamp s ≠ s.desc (s.tsock.snd.txq.descAt (s.tsock.snd.txq.write - 1)))

theorem writeStartTsc_frame (cfg : TcpCfg) (s : St) : (writeStartTsc cfg s).2.tsock = s.tsock ∧
    (writeStartTsc cfg s).2.worker =
      { s.worker with oracles := (writeStartTsc cfg s).2.worker.oracles } := by
  unfold writeStartTsc
  split
  · exact rteRdtsc_frame s
  · exact ⟨rfl, rfl⟩

theorem Refused.of_oracles {s' : St} (hts : s'.tsock = s.tsock)
    (hw : s'.worker = { s.worker with oracles := s'.worker.oracles }) : Refused s s' := by
  have hd : s'.desc = s.desc := by
    funext d
    simp only [St.desc]
    rw [hw]
  refine ⟨by rw [hts], by rw [hts], by rw [hts], by rw [hts], ?_, by rw [hts],
    by rw [hw], by rw [hw],
    by rw [hw], by rw [hw]⟩
  unfold St.liveDescs
  rw [hts, hd]

theorem tsockZwritev_atomic (cfg : TcpCfg) (h₀ : TxOk s) {iov : List Iovec}
    (hne : iovBytes iov ≠ []) : AtomicWrite s iov (tsockZwritev cfg s iov) := by
  obtain ⟨hts, hw⟩ := writeStartTsc_frame cfg s
  unfold tsockZwritev
  dsimp only
  split
  · exact Refused.of_oracles hts hw
  next hcheck =>
  obtain ⟨ds, bs, s₁, hwrote, hfail, hok⟩ := zwriteLoop_spec cfg h₀ iov iov []
    (by simp) (Wrote.start s _ hts hw (writeStartTsc cfg s).1) rfl rfl
  split
  · next s₂ c₂ heq =>
    rw [heq] at hwrote hok
    dsimp only at hwrote hok
    obtain ⟨rfl, rfl⟩ := hok rfl
    have hds : ds ≠ [] := by
      rintro rfl
      exact hne hwrote.bytes.symm
    have hmem := hwrote.stampedDesc_mem hds
    have hwild : stampedDesc (chargeWrite s₁ c₂) c₂ ≠ wildDesc := by
      intro he
      refine h₀.nowild ?_
      rw [hwrote.free, ← he]
      exact List.mem_append_left _ hmem
    have hst := initWriteLatTsc_spec cfg _ _ hwild
    exact ⟨ds, hwrote.commit h₀ hst fun e he => hst.others e fun heq => he (heq ▸ hmem)⟩
  · next s₂ c₂ heq =>
    rw [heq] at hwrote hfail
    obtain rfl := hfail rfl
    exact hwrote.revoke h₀

theorem tsockZwritev_empty (cfg : TcpCfg) (s : St) {iov : List Iovec} (hb : iovBytes iov = [])
    (hcheck : tsockWriteCheck s.tsock = none) :
    ∃ c : WriteCtx, Wrote s (writeStartTsc cfg s).2 c [] (iovBytes iov) ∧ c.nrDesc = 0 ∧
      c.nrFallback = 0 ∧ c.startTsc = (writeStartTsc cfg s).1 ∧
      tsockZwritev cfg s iov =
        (.ok c.size, writeCommit (initWriteLatTsc cfg (writeStartTsc cfg s).2 c) c) := by
  obtain ⟨hts, hw⟩ := writeStartTsc_frame cfg s
  refine ⟨_, hb ▸ Wrote.start s _ hts hw (writeStartTsc cfg s).1, rfl, rfl, rfl, ?_⟩
  unfold tsockZwritev
  rw [hcheck]
  dsimp only
  rw [zwriteLoop_empty cfg iov _ rfl rfl hb]

theorem rteRdtsc_stamps (s : St) : (rteRdtsc s).1 = s.worker.oracles.rdtsc.getD 0 0 ∧
    (rteRdtsc (rteRdtsc s).2).1 = s.worker.oracles.rdtsc.getD 1 0 := by
  unfold rteRdtsc
  rcases h : s.worker.oracles.rdtsc with _ | ⟨t, _ | ⟨u, rest⟩⟩ <;> simp [h]

theorem Committed.nil_of_empty {s' : St} {iov : List Iovec} {n : U32}
    (h : Committed s s' iov n ds) (hb : iovBytes iov = []) : ds = [] := by
  cases ds with
  | nil => rfl
  | cons d ds =>
    have h1 := h.bytes
    rw [hb, List.map_cons, descBytes_cons, List.append_eq_nil_iff] at h1
    exact absurd h1.1 h.chain.2.1

theorem tsockZwritev_empty_atomic (cfg : TcpCfg) (h₀ : TxOk s) (hnf : s.worker.fault = false)
    {iov : List Iovec} (hb : iovBytes iov = []) (hcheck : tsockWriteCheck s.tsock = none) :
    AtomicWrite s iov (tsockZwritev cfg s iov) ↔ ¬ StampsForeign cfg s iov := by
  obtain ⟨c, hwrote, hnr, hfb, hstart, heq⟩ := tsockZwritev_empty cfg s hb hcheck
  obtain ⟨hts, hw⟩ := writeStartTsc_frame cfg s
  have hcharge := chargeWrite_zero (writeStartTsc cfg s).2 hfb
  rw [heq]
  by_cases hm : cfg.measureLatency = true
  swap
  · have hst : Stamped (chargeWrite (writeStartTsc cfg s).2 c)
        (initWriteLatTsc cfg (writeStartTsc cfg s).2 c) wildDesc := by
      rw [hcharge, initWriteLatTsc, if_neg hm]
      exact ⟨rfl, rfl, fun _ _ => rfl, fun _ => rfl, fun _ => rfl, fun _ => rfl, rfl⟩
    refine ⟨fun _ h => hm h.1, fun _ => ⟨[], hwrote.commit h₀ hst fun e _ => ?_⟩⟩
    rw [initWriteLatTsc, if_neg hm]
  have hstart' : writeStartTsc cfg s = rteRdtsc s := by rw [writeStartTsc, if_pos hm]
  have hslot : stampedDesc (writeStartTsc cfg s).2 c =
      s.tsock.snd.txq.descAt (s.tsock.snd.txq.write - 1) := by
    simp only [stampedDesc, hts, hnr, BitVec.ofNat_eq_ofNat, BitVec.add_zero]
  by_cases hd : stampedDesc (writeStartTsc cfg s).2 c = wildDesc
  · -- the slot in front of the cursor was never written
    refine ⟨fun ⟨ds, h⟩ => ?_, fun h => absurd ⟨hm, hcheck, hb, .inl (hslot ▸ hd)⟩ h⟩
    have hf := h.fault
    unfold stampedDesc at hd
    rw [hnf, initWriteLatTsc, if_pos hm] at hf
    rw [if_pos hd] at hf
    cases hf
  have hst := initWriteLatTsc_spec cfg _ _ hd
  have hstamp : (initWriteLatTsc cfg (writeStartTsc cfg s).2 c).desc
      (stampedDesc (writeStartTsc cfg s).2 c) = latStamp s := by
    obtain ⟨h1, h2⟩ := rteRdtsc_stamps s
    have hmem : ∀ e, (rteRdtsc (rteRdtsc s).2).2.desc e = s.desc e := fun e => by
      simp only [St.desc]
      rw [(rteRdtsc_frame _).2, (rteRdtsc_frame s).2]
    unfold stampedDesc at hd hslot ⊢
    rw [initWriteLatTsc, if_pos hm]
    rw [if_neg hd]
    refine (Function.update_self ..).trans ?_
    rw [hstart, hstart'] at *
    rw [hmem, hslot, h1, h2]
    rfl
  constructor
  · rintro ⟨ds, h⟩ ⟨-, -, -, hor⟩
    obtain rfl := h.nil_of_empty hb
    rw [← hslot] at hor
    rcases hor with h1 | h1
    · exact hd h1
    · exact h1 (hstamp.symm.trans (h.others _ (by simp)))
  · intro h
    have hst' : Stamped (chargeWrite (writeStartTsc cfg s).2 c)
        (initWriteLatTsc cfg (writeStartTsc cfg s).2 c)
        (stampedDesc (writeStartTsc cfg s).2 c) := by
      rw [hcharge]
      exact hst
    refine ⟨[], hwrote.commit h₀ hst' fun e _ => ?_⟩
    by_cases he : e = stampedDesc (writeStartTsc cfg s).2 c
    · have hsame : latStamp s = s.desc (stampedDesc (writeStartTsc cfg s).2 c) := by
        by_contra hne
        exact h ⟨hm, hcheck, hb, .inr (hslot ▸ hne)⟩
      rw [he, hstamp, hsame]
      exact (hwrote.mem _ (by simp)).symm
    · exact hst.others e he

/-- A write takes effect as a whole or not at all, unless it stamps a descriptor
that is not its own. -/
theorem tsockZwritev_atomic_iff (cfg : TcpCfg) (s : St) (iov : List Iovec) (h₀ : TxOk s)
    (hnf : s.worker.fault = false) :
    AtomicWrite s iov (tsockZwritev cfg s iov) ↔ ¬ StampsForeign cfg s iov := by
  by_cases hb : iovBytes iov = []
  · rcases hcheck : tsockWriteCheck s.tsock with _ | e
    · exact tsockZwritev_empty_atomic cfg h₀ hnf hb hcheck
    · refine ⟨fun _ h => ?_, fun _ => ?_⟩
      · rw [h.2.1] at hcheck
        cases hcheck
      · obtain ⟨hts, hw⟩ := writeStartTsc_frame cfg s
        unfold tsockZwritev
        rw [hcheck]
        exact Refused.of_oracles hts hw
  · exact ⟨fun _ h => hb h.2.2.1, fun _ => tsockZwritev_atomic cfg h₀ hb⟩

def latencyCfg : TcpCfg := { measureLatency := true }

def oneByteIov : Iovec := ⟨[7], by decide, true, 0, 0, none⟩

def emptyIov : Iovec := ⟨[], Iovec.empty_fits, true, 0, 0, none⟩

def latencySt : St :=
  (tsockZwritev latencyCfg
    ⟨Worker.boot 2 { rdtsc := [10, 11, 20, 21] },
      { tsockInit latencyCfg 0 false with state := .established }⟩ [oneByteIov]).2

theorem latencySt_txOk : TxOk latencySt :=
  ⟨⟨by decide +kernel, by decide +kernel⟩, by decide +kernel, by decide +kernel, by decide +kernel⟩

theorem latencySt_fault : latencySt.worker.fault = false := by decide +kernel

theorem tsockZwritev_atomic_iff_oneByte :
    TxOk latencySt ∧ ¬ StampsForeign latencyCfg latencySt [oneByteIov] ∧
      AtomicWrite latencySt [oneByteIov] (tsockZwritev latencyCfg latencySt [oneByteIov]) := by
  have h : ¬ StampsForeign latencyCfg latencySt [oneByteIov] := fun h => absurd h.2.2.1 (by decide)
  exact ⟨latencySt_txOk, h, (tsockZwritev_atomic_iff _ _ _ latencySt_txOk latencySt_fault).mpr h⟩

/-- A zero-length write stamps the live descriptor of the write before it. -/
theorem emptyWrite_stamps_live_desc :
    TxOk latencySt ∧
      ¬ AtomicWrite latencySt [emptyIov] (tsockZwritev latencyCfg latencySt [emptyIov]) := by
  refine ⟨latencySt_txOk, fun h => ?_⟩
  exact (tsockZwritev_empty_atomic latencyCfg latencySt_txOk latencySt_fault rfl
    (by decide +kernel)).mp h
    ⟨rfl, by decide +kernel, rfl, .inr (by decide +kernel)⟩

end LibTpa
