/- LibTpa/Snd/WriteSpec
   digest: What the loops of a write have taken from the pool and put into the ring. -/

import LibTpa.Snd.Write
import Mathlib.Data.List.Perm.Basic

set_option autoImplicit false

namespace LibTpa

open Lib.SerialNumber Lib.RingWindow

/-- The descriptors of a socket and the pool: the ring is well formed, the pool
holds no descriptor twice, no live one and no wild pointer. -/
structure TxOk (s : St) : Prop where
  wf : s.tsock.snd.txq.Wf
  nodup : s.worker.tx.free.Nodup
  apart : ∀ d ∈ s.tsock.snd.txq.live, d ∉ s.worker.tx.free
  nowild : wildDesc ∉ s.worker.tx.free

def ownedMbufs (s : St) (ds : List DescId) : Nat := ds.countP fun d => (s.desc d).memFromMbuf

/-- From `s₀` to `s` a write has taken the descriptors `ds` from the pool and
filled them with `bytes`, without moving a cursor of the ring. -/
structure Wrote (s₀ s : St) (c : WriteCtx) (ds : List DescId) (bytes : List Byte) : Prop where
  free : s₀.worker.tx.free = ds ++ s.worker.tx.free
  mem : ∀ d, d ∉ ds → s.desc d = s₀.desc d
  nrDesc : c.nrDesc = ds.length
  nrDescFree : c.nrDescFree = (tcpTxqFreeCount s₀.tsock.snd.txq).toNat
  room : c.nrDesc ≤ c.nrDescFree
  size : c.size = BitVec.ofNat 32 bytes.length
  chain : SeqChain s₀.tsock.snd.dataSeqNxt (ds.map s.desc) (s₀.tsock.snd.dataSeqNxt + c.size)
  bytes : descBytes (ds.map s.desc) = bytes
  fresh : ∀ d ∈ ds, (s.desc d).sacked = false ∧ (s.desc d).retrans = false
  slots : window s.tsock.snd.txq.descs s.tsock.snd.txq.size s₀.tsock.snd.txq.write ds.length = ds
  live : s.tsock.snd.txq.live = s₀.tsock.snd.txq.live
  snd : s.tsock.snd = { s₀.tsock.snd with
    txq := { s₀.tsock.snd.txq with descs := s.tsock.snd.txq.descs } }
  tsock : s.tsock = { s₀.tsock with snd := s.tsock.snd }
  worker : s.worker = { s₀.worker with
    tx := s.worker.tx, mbufUsed := s.worker.mbufUsed, oracles := s.worker.oracles }
  mbufs : s.worker.mbufUsed = s₀.worker.mbufUsed + ownedMbufs s ds
  fallback : c.nrFallback = ownedMbufs s ds

variable {s₀ s : St} {c : WriteCtx} {ds : List DescId} {bytes : List Byte}

theorem Wrote.congr {s' : St} (h : Wrote s₀ s c ds bytes) (htx : s'.worker.tx = s.worker.tx)
    (hts : s'.tsock = s.tsock) (hw : s'.worker = { s.worker with oracles := s'.worker.oracles }) :
    Wrote s₀ s' c ds bytes := by
  have hd : s'.desc = s.desc := by
    funext d
    simp only [St.desc, htx]
  have ho : ownedMbufs s' ds = ownedMbufs s ds := by simp only [ownedMbufs, hd]
  have hm : s'.worker.mbufUsed = s.worker.mbufUsed := by rw [hw]
  refine ⟨by rw [htx]; exact h.free, by rw [hd]; exact h.mem, h.nrDesc, h.nrDescFree,
    h.room, h.size, by rw [hd]; exact h.chain, by rw [hd]; exact h.bytes, by rw [hd]; exact h.fresh,
    by rw [hts]; exact h.slots, by rw [hts]; exact h.live, by rw [hts]; exact h.snd,
    by rw [hts]; exact h.tsock, ?_, by rw [hm, ho]; exact h.mbufs, by rw [ho]; exact h.fallback⟩
  rw [hw, h.worker]

theorem TcpTxq.write_eq (q : TcpTxq) : q.write = q.una + BitVec.ofNat 16 q.count := by
  unfold TcpTxq.count
  bv_omega

/-- Putting a descriptor into the slot behind the write cursor and its `n`
successors shows there and nowhere among the live ones. -/
theorem TcpTxq.put_window (q : TcpTxq) (n : Nat) (d : DescId) (hn : q.count + n < q.size) :
    window (Function.update q.descs (q.slot (q.write + BitVec.ofNat 16 n)) d) q.size q.write
        (n + 1) =
        window q.descs q.size q.write n ++ [d] ∧
      live { q with descs := Function.update q.descs (q.slot (q.write + BitVec.ofNat 16 n)) d } =
        q.live := by
  constructor
  · rw [window_succ, window_update]
    · congr 2
      exact Function.update_self ..
    · exact fun i hi => q.size_ok.apart q.write (by omega) (by omega) (by omega)
  · refine window_update fun i (hi : i < q.count) => ?_
    rw [TcpTxq.slot, q.write_eq, add_assoc, ← BitVec.ofNat_add]
    exact q.size_ok.apart q.una (by omega) hn (by omega)

/-- A descriptor was taken from the pool, filled with `chunk` and put into the slot
behind the descriptors of this write. -/
structure Puts (s s' : St) (c c' : WriteCtx) (d : DescId) (chunk : List Byte) (copied : Bool) :
    Prop where
  free : s.worker.tx.free = d :: s'.worker.tx.free
  other : ∀ e, e ≠ d → s'.desc e = s.desc e
  data : (s'.desc d).data = chunk
  seq : (s'.desc d).seq = s.tsock.snd.dataSeqNxt + c.size
  fresh : (s'.desc d).sacked = false ∧ (s'.desc d).retrans = false
  owned : (s'.desc d).memFromMbuf = copied
  tsock : s'.tsock = { s.tsock with snd := { s.tsock.snd with txq := { s.tsock.snd.txq with
    descs := Function.update s.tsock.snd.txq.descs
      (s.tsock.snd.txq.slot (s.tsock.snd.txq.write + BitVec.ofNat 16 c.nrDesc)) d } } }
  worker : s'.worker = { s.worker with
    tx := s'.worker.tx, mbufUsed := s'.worker.mbufUsed, oracles := s'.worker.oracles }
  mbufs : s'.worker.mbufUsed = s.worker.mbufUsed + if copied then 1 else 0
  ctx : c' = { c with
    nrDesc := c.nrDesc + 1
    size := c.size + BitVec.ofNat 32 chunk.length
    nrFallback := c.nrFallback + if copied then 1 else 0 }

theorem putDesc_puts (s₁ : St) (v : Iovec) {chunk : List Byte} (hc : chunk.length < 2 ^ 32)
    (copied last : Bool) {d : DescId} {rest : List DescId} (hfree : s.worker.tx.free = d :: rest)
    (htx : s₁.worker.tx = { s.worker.tx with free := rest }) (hts : s₁.tsock = s.tsock)
    (hw : s₁.worker = { s.worker with
      tx := s₁.worker.tx, mbufUsed := s₁.worker.mbufUsed, oracles := s₁.worker.oracles })
    (hm : s₁.worker.mbufUsed = s.worker.mbufUsed + if copied then 1 else 0) :
    Puts s (putDesc s₁ c d v chunk hc copied last).1 c (putDesc s₁ c d v chunk hc copied last).2 d
      chunk copied := by
  have hself : ∀ x, Function.update s₁.worker.tx.mem d x d = x := fun x => Function.update_self ..
  refine ⟨?_, fun e he => ?_, congrArg TxDesc.data (hself _), ?_, ?_,
    congrArg TxDesc.memFromMbuf (hself _), ?_, ?_, hm, ?_⟩
  · change _ = d :: s₁.worker.tx.free
    rw [htx, hfree]
  · change Function.update s₁.worker.tx.mem d _ e = s.worker.tx.mem e
    rw [Function.update_of_ne he, htx]
  · rw [← hts]
    exact congrArg TxDesc.seq (hself _)
  · exact ⟨congrArg TxDesc.sacked (hself _), congrArg TxDesc.retrans (hself _)⟩
  · rw [← hts]
    rfl
  · have hput : (putDesc s₁ c d v chunk hc copied last).1.worker = { s₁.worker with
        tx := (putDesc s₁ c d v chunk hc copied last).1.worker.tx } := rfl
    rw [hput, hw]
  · cases copied <;> rfl

theorem Wrote.not_mem (h₀ : TxOk s₀) (h : Wrote s₀ s c ds bytes) {d : DescId} {rest : List DescId}
    (hfree : s.worker.tx.free = d :: rest) : d ∉ ds := by
  have hnd := h₀.nodup
  rw [h.free, hfree, List.nodup_append] at hnd
  exact fun hd => hnd.2.2 d hd d (by simp) rfl

theorem Wrote.slot_free (h₀ : TxOk s₀) (h : Wrote s₀ s c ds bytes)
    (hroom : c.nrDesc + 1 ≤ c.nrDescFree) :
    s.tsock.snd.txq.count + ds.length < s.tsock.snd.txq.size := by
  have hfree := h.nrDescFree
  rw [s₀.tsock.snd.txq.freeCount h₀.wf] at hfree
  have hcount : s.tsock.snd.txq.count = s₀.tsock.snd.txq.count := by
    rw [h.snd]
    rfl
  have hsize : s.tsock.snd.txq.size = s₀.tsock.snd.txq.size := by rw [h.snd]
  have hle := h₀.wf.count_le
  have hnr := h.nrDesc
  omega

section Put

variable {s' : St} {c' : WriteCtx} {d : DescId} {chunk : List Byte} {copied : Bool}

theorem Puts.map_desc (hp : Puts s s' c c' d chunk copied) (hd : d ∉ ds) :
    ds.map s'.desc = ds.map s.desc :=
  List.map_congr_left fun e he => hp.other e fun hed => hd (hed ▸ he)

theorem Puts.ownedMbufs (hp : Puts s s' c c' d chunk copied) (hd : d ∉ ds) :
    ownedMbufs s' (ds ++ [d]) = ownedMbufs s ds + if copied then 1 else 0 := by
  unfold LibTpa.ownedMbufs
  rw [List.countP_append, List.countP_singleton, hp.owned]
  congr 1
  exact List.countP_congr fun a ha => by rw [hp.other a fun had => hd (had ▸ ha)]

theorem Puts.chain (hp : Puts s s' c c' d chunk copied) (hne : chunk ≠ []) (hd : d ∉ ds) {a : U32}
    (h : SeqChain a (ds.map s.desc) (s.tsock.snd.dataSeqNxt + c.size)) :
    SeqChain a ((ds ++ [d]).map s'.desc) (s.tsock.snd.dataSeqNxt + c'.size) := by
  rw [List.map_append, hp.map_desc hd, hp.ctx, ← add_assoc]
  refine seqChain_append.mpr ⟨_, h, hp.seq, by rw [hp.data]; exact hne, ?_⟩
  change _ + BitVec.ofNat 32 (s'.desc d).data.length = _
  rw [hp.data]

theorem Puts.ring (hp : Puts s s' c c' d chunk copied) (hn : c.nrDesc = ds.length)
    (hfree : s.tsock.snd.txq.count + ds.length < s.tsock.snd.txq.size) :
    window s'.tsock.snd.txq.descs s'.tsock.snd.txq.size s.tsock.snd.txq.write (ds.length + 1) =
        window s.tsock.snd.txq.descs s.tsock.snd.txq.size s.tsock.snd.txq.write ds.length ++ [d] ∧
      s'.tsock.snd.txq.live = s.tsock.snd.txq.live := by
  rw [hp.tsock, hn]
  exact s.tsock.snd.txq.put_window ds.length d hfree

theorem Wrote.put (h₀ : TxOk s₀) (h : Wrote s₀ s c ds bytes) (hp : Puts s s' c c' d chunk copied)
    (hroom : c.nrDesc + 1 ≤ c.nrDescFree) (hne : chunk ≠ []) :
    Wrote s₀ s' c' (ds ++ [d]) (bytes ++ chunk) := by
  have hnd := h.not_mem h₀ hp.free
  have hwr : s.tsock.snd.txq.write = s₀.tsock.snd.txq.write := by rw [h.snd]
  have hseq : s.tsock.snd.dataSeqNxt = s₀.tsock.snd.dataSeqNxt := by rw [h.snd]
  have hchain := hp.chain hne hnd (hseq ▸ h.chain)
  obtain ⟨hslots, hlive⟩ := hp.ring h.nrDesc (h.slot_free h₀ hroom)
  rw [hseq] at hchain
  refine ⟨?_, fun a ha => ?_, ?_, ?_, ?_, ?_, hchain, ?_, fun a ha => ?_, ?_,
    hlive.trans h.live, ?_,
    ?_, ?_, ?_, ?_⟩
  · rw [h.free, hp.free, List.append_assoc, List.singleton_append]
  · simp only [List.mem_append, List.mem_singleton, not_or] at ha
    rw [hp.other a ha.2, h.mem a ha.1]
  · rw [hp.ctx, List.length_append, ← h.nrDesc]
    rfl
  · rw [hp.ctx]
    exact h.nrDescFree
  · rw [hp.ctx]
    exact hroom
  · rw [hp.ctx, List.length_append, BitVec.ofNat_add, ← h.size]
  · rw [List.map_append, hp.map_desc hnd, descBytes_append, h.bytes]
    simp [hp.data]
  · by_cases had : a = d
    · rw [had]
      exact hp.fresh
    · rw [hp.other a had]
      exact h.fresh a (by simpa [had] using ha)
  · rw [← hwr, List.length_append]
    refine hslots.trans ?_
    rw [hwr, h.slots]
  · obtain ⟨descs, hs⟩ : ∃ descs, s.tsock.snd = { s₀.tsock.snd with
        txq := { s₀.tsock.snd.txq with descs := descs } } := ⟨_, h.snd⟩
    rw [hp.tsock, hs]
  · rw [hp.tsock]
    conv_lhs => rw [h.tsock]
  · rw [hp.worker]
    conv_lhs => rw [h.worker]
  · rw [hp.ownedMbufs hnd, hp.mbufs, h.mbufs, Nat.add_assoc]
  · rw [hp.ownedMbufs hnd, hp.ctx, ← h.fallback]

end Put

theorem chunkMem_spec (cfg : TcpCfg) (s : St) (phys : Bool) :
    (chunkMem cfg s phys).2.tsock = s.tsock ∧
    (chunkMem cfg s phys).2.worker = { s.worker with
      mbufUsed := (chunkMem cfg s phys).2.worker.mbufUsed
      oracles := (chunkMem cfg s phys).2.worker.oracles } ∧
    (chunkMem cfg s phys).2.worker.mbufUsed = s.worker.mbufUsed +
      if (chunkMem cfg s phys).1 ∧ !phys then 1 else 0 := by
  unfold chunkMem
  cases phys with
  | true => simp
  | false =>
    by_cases ht : tooManyUsedMbufs cfg s.worker = true
    · simp [ht]
    · unfold packetAlloc
      rcases s.worker.oracles.allocOk with _ | ⟨b, rest⟩
      · simp [ht]
      · cases b <;> simp [ht]

theorem txDescAlloc_some {x y : TxPool} {d : DescId} (h : txDescAlloc x = some (d, y)) :
    x.free = d :: y.free ∧ y = { x with free := y.free } := by
  unfold txDescAlloc at h
  split at h
  · cases h
  · next e rest hf =>
    cases h
    exact ⟨hf, rfl⟩

theorem chunkLen_pos (cfg : TcpCfg) (phys : Bool) {n : Nat} (h : 0 < n) :
    0 < chunkLen cfg phys n := by
  have h1 := cfg.chunk_pos
  have h2 := cfg.mbufRoom_ge
  unfold chunkLen
  split <;> omega

/-- A loop of the write path: it goes on from what was written, and if it
succeeds it has written the bytes `l` as well. -/
def Extends (s₀ : St) (bytes l : List Byte) (r : Bool × St × WriteCtx) : Prop :=
  ∃ ds bs, Wrote s₀ r.2.1 r.2.2 ds bs ∧ (r.1 = true → bs = bytes ++ l)

theorem writeChunks_spec (cfg : TcpCfg) (v : Iovec) (h₀ : TxOk s₀) (n : Nat) :
    ∀ (rest : List Byte) (hl : rest.length < 2 ^ 32) {s : St} {c : WriteCtx} {ds : List DescId}
      {bytes : List Byte}, Wrote s₀ s c ds bytes → rest ≠ [] → rest.length ≤ n →
      Extends s₀ bytes rest (writeChunks cfg v n rest hl s c) := by
  induction n with
  | zero =>
    intro rest hl s c ds bytes _ hne hn
    exact absurd (List.length_eq_zero_iff.mp (by omega)) hne
  | succ n ih =>
    intro rest hl s c ds bytes h hne hn
    unfold writeChunks
    split
    · exact ⟨ds, bytes, h, by simp⟩
    next hroom =>
    split
    · exact ⟨ds, bytes, h, by simp⟩
    next d tx halloc =>
    obtain ⟨hf, htx⟩ := txDescAlloc_some halloc
    obtain ⟨hts, hw, hm⟩ := chunkMem_spec cfg (s.setTx tx) v.phys
    split
    · next s₁ hmem =>
      rw [hmem] at hts hw hm
      have htx₁ : s₁.worker.tx = tx := by rw [hw]; rfl
      have hm₁ : s₁.worker.mbufUsed = s.worker.mbufUsed := by simpa [St.setTx] using hm
      have hback : txDescFree s₁.worker.tx d = s.worker.tx := by
        rw [htx₁, htx, txDescFree, ← hf]
      refine ⟨ds, bytes, h.congr hback hts ?_, by simp⟩
      rw [hback, St.setTx, hw, hm₁]
      rfl
    · next s₁ hmem =>
      rw [hmem] at hts hw hm
      have htx₁ : s₁.worker.tx = tx := by rw [hw]; rfl
      have hpos : 0 < rest.length := List.length_pos_iff.mpr hne
      have hlen := chunkLen_pos cfg v.phys hpos
      have hputs := putDesc_puts (c := c) s₁ v (take_chunk_lt (chunkLen cfg v.phys rest.length) hl)
        (!v.phys) (rest.length ≤ chunkLen cfg v.phys rest.length) hf (by rw [htx₁]; exact htx) hts
        (by rw [hw]; rfl) (by simpa [St.setTx] using hm)
      have hput := h.put h₀ hputs (by omega) (by simp [List.take_eq_nil_iff, hne]; omega)
      dsimp only
      split
      · next hle => exact ⟨_, _, hput, fun _ => by rw [List.take_of_length_le hle]⟩
      · next hgt =>
        obtain ⟨ds', bs, hw', hb⟩ := ih (rest.drop (chunkLen cfg v.phys rest.length))
          (lt_of_le_of_lt (by simp) hl) hput (by simpa using hgt) (by simp; omega)
        refine ⟨ds', bs, hw', fun hr => ?_⟩
        rw [hb hr, List.append_assoc, List.take_append_drop]

theorem writeOneIov_spec (cfg : TcpCfg) (v : Iovec) (h₀ : TxOk s₀) (h : Wrote s₀ s c ds bytes) :
    Extends s₀ bytes v.data (writeOneIov cfg s v c) := by
  unfold writeOneIov
  split
  · next h0 => exact ⟨ds, bytes, h, fun _ => by simp [List.length_eq_zero_iff.mp h0]⟩
  · next h0 =>
    exact writeChunks_spec cfg v h₀ _ v.data v.len_lt h (by simpa using h0) le_rfl

def iovBytes (iov : List Iovec) : List Byte := (iov.map Iovec.data).flatten

theorem writeIovs_spec (cfg : TcpCfg) (h₀ : TxOk s₀) (iov : List Iovec) :
    ∀ {s : St} {c : WriteCtx} {ds : List DescId} {bytes : List Byte}, Wrote s₀ s c ds bytes →
      Extends s₀ bytes (iovBytes iov) (writeIovs cfg iov s c) := by
  induction iov with
  | nil => exact fun {s c ds bytes} h => ⟨ds, bytes, h, fun _ => by simp [iovBytes]⟩
  | cons v rest ih =>
    intro s c ds bytes h
    obtain ⟨ds₁, bs₁, h₁, hb₁⟩ := writeOneIov_spec cfg v h₀ h
    unfold writeIovs
    split
    · next s₁ c₁ heq =>
      rw [heq] at h₁
      exact ⟨ds₁, bs₁, h₁, by simp⟩
    · next s₁ c₁ heq =>
      rw [heq] at h₁ hb₁
      obtain ⟨ds₂, bs₂, h₂, hb₂⟩ := ih h₁
      refine ⟨ds₂, bs₂, h₂, fun hr => ?_⟩
      rw [hb₂ hr, hb₁ rfl]
      simp [iovBytes]

def chargeWrite (s : St) (c : WriteCtx) : St :=
  { s with worker := { s.worker with
    nrWriteMbuf := s.worker.nrWriteMbuf + BitVec.ofNat 32 c.nrFallback } }

theorem chargeWrite_zero (s : St) (h : c.nrFallback = 0) : chargeWrite s c = s := by
  simp [chargeWrite, h]

/-- The loop of `tsock_zwritev`, begun after the iovs `done`, each of which took
one descriptor; the slow path therefore resumes at the right iov. -/
theorem zwriteLoop_spec (cfg : TcpCfg) (h₀ : TxOk s₀) (iov : List Iovec) (rest : List Iovec) :
    ∀ (done : List Iovec) {s : St} {c : WriteCtx} {ds : List DescId}, iov = done ++ rest →
      Wrote s₀ s c ds (iovBytes done) → c.nrDesc = done.length → c.nrFallback = 0 →
      ∃ ds' bs s₁, Wrote s₀ s₁ (zwriteLoop cfg iov rest s c).2.2 ds' bs ∧
        ((zwriteLoop cfg iov rest s c).1 = false → (zwriteLoop cfg iov rest s c).2.1 = s₁) ∧
        ((zwriteLoop cfg iov rest s c).1 = true → bs = iovBytes iov ∧
          (zwriteLoop cfg iov rest s c).2.1 =
            chargeWrite s₁ (zwriteLoop cfg iov rest s c).2.2) := by
  induction rest with
  | nil =>
    intro done s c ds hiov h hnr hfb
    refine ⟨ds, _, s, h, by simp [zwriteLoop], fun _ => ⟨by simp [hiov], ?_⟩⟩
    exact (chargeWrite_zero s hfb).symm
  | cons v rest ih =>
    intro done s c ds hiov h hnr hfb
    have hc : { c with nrFallback := 0 } = c := by rw [← hfb]
    unfold zwriteLoop
    split
    · have hdrop : iov.drop c.nrDesc = v :: rest := by rw [hiov, hnr, List.drop_left]
      obtain ⟨ds', bs, hw, hb⟩ := writeIovs_spec cfg h₀ (v :: rest) h
      rw [hdrop, hc]
      split
      · next s₁ c₁ heq =>
        rw [heq] at hw
        exact ⟨ds', bs, s₁, hw, fun _ => rfl, by simp⟩
      · next s₁ c₁ heq =>
        rw [heq] at hw hb
        refine ⟨ds', bs, s₁, hw, by simp, fun _ => ⟨?_, rfl⟩⟩
        rw [hb rfl, hiov]
        simp [iovBytes]
    next hslow =>
    split
    · exact ⟨ds, _, s, h, fun _ => rfl, by simp⟩
    next hroom =>
    split
    · exact ⟨ds, _, s, h, fun _ => rfl, by simp⟩
    next d tx halloc =>
    obtain ⟨hf, htx⟩ := txDescAlloc_some halloc
    have hne : v.data ≠ [] := by
      intro h0
      simp [needsSlowpath, h0] at hslow
    have hputs := putDesc_puts (c := c) (s.setTx tx) v v.len_lt false true hf htx rfl rfl
      (by simp [St.setTx])
    have hput := h.put h₀ hputs (by omega) hne
    have hbytes : iovBytes done ++ v.data = iovBytes (done ++ [v]) := by simp [iovBytes]
    have hnr' : c.nrDesc + 1 = (done ++ [v]).length := by simp [hnr]
    rw [hbytes] at hput
    exact ih (done ++ [v]) (by simp [hiov]) hput hnr' hfb

theorem revoke_spec (ds : List DescId) : ∀ s : St,
    ds.foldl revokeDesc s = { s with worker := { s.worker with
      tx := { s.worker.tx with free := ds.reverse ++ s.worker.tx.free }
      mbufUsed := s.worker.mbufUsed - ownedMbufs s ds } } := by
  induction ds with
  | nil => simp [ownedMbufs]
  | cons d ds ih =>
    intro s
    rw [List.foldl_cons, ih]
    have ho : ownedMbufs (revokeDesc s d) ds = ownedMbufs s ds := by
      unfold ownedMbufs revokeDesc
      split <;> rfl
    rw [ho]
    unfold revokeDesc ownedMbufs
    rw [List.countP_cons]
    split
    · simp [St.setTx, txDescFree, Nat.sub_sub, Nat.add_comm]
    · simp [St.setTx, txDescFree]

end LibTpa
