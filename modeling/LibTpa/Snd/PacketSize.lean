/- LibTpa/Snd/PacketSize
   digest: The length fields of data packets, and when the NIC is asked to segment them. -/

import LibTpa.Output.OptRoundTrip
import LibTpa.Snd.XmitSpec
import LibTpa.Conn.Step

/-!
`xmit_one_packet` takes its payload from a budget of `tsock_snd_mss` bytes.
`mbuf_set_offload` compares the payload with `snd_mss` less the space of the SACK
option. The two agree for a packet exactly when what the send queue offers it is
within that bound and its length field, which no queue can break if the NIC
segments, or if no SACK block is pending and a full segment fits the field.
-/

set_option autoImplicit false

namespace LibTpa

open Lib.Run Lib.RingWindow

structure SizeClass where
  tso : Bool
  ipv6 : Bool
  stamps : Bool
  nrSack : Nat
  mss : U16
  deriving DecidableEq

def sizeClass (t : TcpSock) : SizeClass where
  tso := t.nego.tsoEnabled
  ipv6 := t.isIpv6
  stamps := (enabledOpts t tcpFlagAck).ts
  nrSack := t.rcv.sackBlocks.length
  mss := t.cc.sndMss

namespace SizeClass

def sackSpace (z : SizeClass) : Nat := if z.nrSack = 0 then 0 else tcpOptSackSpace z.nrSack

def optLen (z : SizeClass) : Nat := (if z.stamps then tcpOptTsSpace else 0) + z.sackSpace

/-- What the length field of the IP header counts of that header: IPv6 counts none. -/
def ipHdr (z : SizeClass) : Nat := if z.ipv6 then 0 else 20

def bound (z : SizeClass) : Nat := z.mss.toNat - z.sackSpace

/-- A payload of `n` bytes stays within the length field and, if the NIC does not
segment, within the bound. -/
def Takes (z : SizeClass) (n : Nat) : Prop :=
  n + (20 + z.optLen) + z.ipHdr < 2 ^ 16 ∧ (z.tso = false → n ≤ z.bound)

instance (z : SizeClass) (n : Nat) : Decidable (z.Takes n) := inferInstanceAs (Decidable (_ ∧ _))

/-- A full segment stays within the bound and within the length field. -/
def Fits (z : SizeClass) : Prop :=
  z.tso = true ∨ (z.nrSack = 0 ∧ z.mss.toNat + (20 + z.optLen) + z.ipHdr < 2 ^ 16)

instance (z : SizeClass) : Decidable z.Fits := inferInstanceAs (Decidable (_ ∨ _))

end SizeClass

structure PacketSized (z : SizeClass) (p : TxPacket) : Prop where
  ipLen : p.ipLen.toNat = p.payload.length + (20 + p.opts.length) + z.ipHdr
  whole : z.tso = false → p.tsoSegsz = none ∧ p.payload.length ≤ z.bound
  segmented : z.tso = true → p.tsoSegsz.map BitVec.toNat =
    if z.bound < p.payload.length then some z.bound else none

/-- The packets that a call of `xmit_one_packet` puts on the dev txq. -/
def dataPackets (cfg : TcpCfg) (s : St) (c : XmitCtx) : List TxPacket :=
  (xmitOnePacket cfg s c).2.1.tsock.emitted.drop s.tsock.emitted.length

/-! The payload that the send queue offers. -/

def XmitCtx.queued (c : XmitCtx) (s : St) : List DescId :=
  window s.tsock.snd.txq.descs s.tsock.snd.txq.size (c.descBase + c.descOff)
    ((s.tsock.snd.txq.write - c.descBase).toNat - c.descOff.toNat)

/-- The bytes of the descriptors from `ctx->seq` on, up to a SACKed one, the budget or
`ctx->seq_max`. -/
def offeredFrom : XmitCtx → Int → List TxDesc → List Byte
  | _, _, [] => []
  | c, budget, v :: vs =>
    if 0 < budget ∧ v.sacked = false then
      let l := attachLen v c budget
      (v.data.drop (c.seq - v.seq).toNat).take l.1.toNat ++
        offeredFrom { c with seq := c.seq + BitVec.ofInt 32 l.1 } (l.2 - l.1) vs
    else []

def granted (s : St) : Nat := (s.worker.oracles.allocOk.takeWhile id).length

/-- What the send queue offers to a packet: at most the pieces that a chain behind the
header packet may have and the pool has packets for. -/
def offered (cfg : TcpCfg) (s : St) (c : XmitCtx) : List Byte :=
  let c := (skipSacked s ((s.tsock.snd.txq.write - c.descBase).toNat + 1) c).2
  let pieces := min (cfg.pktMaxChain - 1) (granted s - 1)
  offeredFrom c (min c.budget (tsockSndMss s.tsock)) (((c.queued s).take pieces).map s.desc)

theorem XmitCtx.queued_of_none {c : XmitCtx} {s : St} (h : c.peek s = none) : c.queued s = [] := by
  unfold XmitCtx.peek tcpTxqPeekForWrite at h
  split at h
  · next hle =>
    have hlen : (s.tsock.snd.txq.write - c.descBase).toNat - c.descOff.toNat = 0 := by
      rw [BitVec.le_def] at hle
      omega
    rw [XmitCtx.queued, hlen, window_zero]
  · cases h

theorem XmitCtx.queued_of_some {c : XmitCtx} {s : St} {d : DescId} (h : c.peek s = some d) :
    c.queued s = d :: XmitCtx.queued { c with descOff := c.descOff + 1 } s := by
  unfold XmitCtx.peek tcpTxqPeekForWrite at h
  split at h
  · cases h
  next hlt =>
  have hnext : (c.descOff + 1).toNat = c.descOff.toNat + 1 := by bv_omega
  have hlen : (s.tsock.snd.txq.write - c.descBase).toNat - c.descOff.toNat =
      1 + ((s.tsock.snd.txq.write - c.descBase).toNat - (c.descOff + 1).toNat) := by
    rw [BitVec.le_def] at hlt
    omega
  rw [XmitCtx.queued, hlen, window_add, ← Option.some.inj h]
  unfold XmitCtx.queued
  rw [add_assoc]
  simp [window, TcpTxq.descAt, TcpTxq.slot]

theorem attachLen_congr {v v' : TxDesc} (h : SameData v v') (c : XmitCtx) (b : Int) :
    attachLen v' c b = attachLen v c b := by
  unfold attachLen TxDesc.len
  rw [h.data, h.seq]

theorem offeredFrom_congr {s s' : St} (h : TxKeep s s') (ds : List DescId) :
    ∀ (c : XmitCtx) (b : Int), offeredFrom c b (ds.map s'.desc) =
      offeredFrom c b (ds.map s.desc) := by
  induction ds with
  | nil =>
    intro c b
    rfl
  | cons d ds ih =>
    intro c b
    have hd := h.desc d
    simp only [List.map_cons, offeredFrom, attachLen_congr hd, ih, hd.data, hd.seq, hd.sacked]

theorem offeredFrom_ctx {c c' : XmitCtx} (hseq : c'.seq = c.seq) (hmax : c'.seqMax = c.seqMax)
    (b : Int) (vs : List TxDesc) : offeredFrom c' b vs = offeredFrom c b vs := by
  induction vs generalizing c c' b with
  | nil => rfl
  | cons v vs ih =>
    have hlen : attachLen v c' b = attachLen v c b := by
      unfold attachLen
      rw [hseq, hmax]
    have htail : ∀ seq b', offeredFrom { c' with seq := seq } b' vs =
        offeredFrom { c with seq := seq } b' vs := by
      intro seq b'
      refine ih ?_ ?_ b'
      · rfl
      · exact hmax
    simp only [offeredFrom, hlen, hseq, htail]

theorem offeredFrom_cons (c : XmitCtx) {b : Int} (hb : 0 < b) {v : TxDesc} (hv : v.sacked = false)
    (vs : List TxDesc) : offeredFrom c b (v :: vs) =
      (v.data.drop (c.seq - v.seq).toNat).take (attachLen v c b).1.toNat ++
        offeredFrom { c with seq := c.seq + BitVec.ofInt 32 (attachLen v c b).1 }
          ((attachLen v c b).2 - (attachLen v c b).1) vs := by
  conv_lhs => unfold offeredFrom
  exact if_pos ⟨hb, hv⟩

theorem offeredFrom_sacked (c : XmitCtx) (b : Int) {v : TxDesc} (hv : v.sacked = true)
    (vs : List TxDesc) : offeredFrom c b (v :: vs) = [] := by
  unfold offeredFrom
  rw [if_neg (by simp [hv])]

theorem offeredFrom_spent (c : XmitCtx) {b : Int} (hb : b ≤ 0) (vs : List TxDesc) :
    offeredFrom c b vs = [] := by
  cases vs with
  | nil => rfl
  | cons v vs =>
    unfold offeredFrom
    rw [if_neg (by omega)]

private theorem capped_le (seq stop : U32) (n : Nat) (hlt : n < 2 ^ 31)
    (h : seqGt (seq + BitVec.ofNat 32 n) stop) : (stop - seq).toInt ≤ n := by
  have hd : seq + BitVec.ofNat 32 n - stop = BitVec.ofNat 32 n - (stop - seq) := by
    bv_omega
  rw [seqGt_iff, hd, BitVec.toNat_sub, BitVec.toNat_ofNat] at h
  generalize stop - seq = d at h ⊢
  rw [BitVec.toInt_eq_toNat_cond]
  have := d.isLt
  split <;> omega

private theorem attachLen_le (v : TxDesc) (c : XmitCtx) {b : Nat} (hb : b < 2 ^ 31) :
    ∃ rest : Nat, (attachLen v c b).2 - (attachLen v c b).1 = rest ∧
      (attachLen v c b).1.toNat + rest ≤ b := by
  unfold attachLen
  generalize (v.len - (c.seq - v.seq)).toNat = n
  have hlen : min (n : Int) b = ((min n b : Nat) : Int) := by omega
  dsimp only
  rw [hlen]
  split
  · next hgt =>
    have := capped_le c.seq c.seqMax (min n b) (by omega) hgt
    exact ⟨0, Int.sub_self _, by dsimp only; omega⟩
  · exact ⟨b - min n b, by dsimp only; omega, by dsimp only; omega⟩

theorem offeredFrom_length_le (vs : List TxDesc) : ∀ (c : XmitCtx) (b : Nat), b < 2 ^ 31 →
    (offeredFrom c b vs).length ≤ b := by
  induction vs with
  | nil =>
    intro c b _
    exact Nat.zero_le _
  | cons v vs ih =>
    intro c b hb
    unfold offeredFrom
    split
    · obtain ⟨rest, hrest, hlen⟩ := attachLen_le v c hb
      have htail := ih { c with seq := c.seq + BitVec.ofInt 32 (attachLen v c b).1 } rest (by omega)
      dsimp only
      rw [hrest, List.length_append, List.length_take]
      omega
    · exact Nat.zero_le _

private theorem attachLen_spent (v : TxDesc) (c : XmitCtx) (b : Int)
    (h : c.seq - v.seq + BitVec.ofInt 32 (attachLen v c b).1 ≠ v.len) :
    (attachLen v c b).2 - (attachLen v c b).1 = 0 := by
  unfold attachLen at h ⊢
  dsimp only at h ⊢
  split
  · exact Int.sub_self _
  next hcap =>
  rw [if_neg hcap] at h
  by_cases hle : ((v.len - (c.seq - v.seq)).toNat : Int) ≤ b
  · rw [min_eq_left hle, BitVec.ofInt_natCast, BitVec.ofNat_toNat, BitVec.setWidth_eq] at h
    exact absurd (by bv_omega) h
  · dsimp only
    rw [min_eq_right (by omega)]
    exact Int.sub_self b

/-! What the loop attaches. -/

private theorem markRetrans_payload (s : St) (c : XmitCtx) (a : XmitAcc) (d : DescId) :
    (markRetrans s c a d).2.payload = a.payload := by
  unfold markRetrans
  split <;> rfl

private theorem markRetrans_granted (s : St) (c : XmitCtx) (a : XmitAcc) (d : DescId) :
    granted (markRetrans s c a d).1 = granted s := by
  unfold markRetrans
  split <;> rfl

private theorem descDone_granted (s : St) (c : XmitCtx) (d : DescId) :
    granted (descDone s c d).1 = granted s := by
  have hclock : granted (rteRdtsc s).2 = granted s := by
    unfold rteRdtsc
    split <;> rfl
  unfold descDone
  dsimp only
  split
  · split
    · exact hclock
    · rfl
  · rfl

private theorem descDone_ctx (s : St) (c : XmitCtx) (d : DescId) :
    ∃ now, (descDone s c d).2 = { c with now := now } := by
  unfold descDone
  dsimp only
  split
  · split
    · exact ⟨_, rfl⟩
    · exact ⟨_, rfl⟩
  · exact ⟨_, rfl⟩

theorem packetAlloc_granted {s s₁ : St} {b : Bool} (h : packetAlloc s = (b, s₁)) :
    granted s = if b then granted s₁ + 1 else 0 := by
  unfold packetAlloc at h
  unfold granted
  split at h
  · next hnil =>
    cases h
    rw [hnil]
    rfl
  · next rest hcons =>
    cases h
    rw [hcons]
    cases b <;> rfl

private theorem attachLoop_spent (cfg : TcpCfg) (n : Nat) (s : St) (c : XmitCtx) (a : XmitAcc)
    (d : DescId) (h : a.budget = 0) : attachLoop cfg n s c a d = (s, c, a) := by
  cases n with
  | zero => rfl
  | succ n =>
    unfold attachLoop
    rw [if_neg (by omega)]

theorem Marked.queued {s s' : St} (h : Marked s s') (c : XmitCtx) :
    c.queued s' = c.queued s := by
  unfold XmitCtx.queued
  rw [h.tsock]

private theorem descDone_offers {s₁ s₂ : St} (h : Marked s₁ s₂) (c : XmitCtx) (d : DescId)
    (seq : U32) : let r := descDone s₂ { c with seq := seq } d
    XmitCtx.queued { r.2 with descOff := r.2.descOff + 1 } r.1 =
        XmitCtx.queued { c with descOff := c.descOff + 1 } s₁ ∧
      ∀ (b : Int) (ds : List DescId),
        offeredFrom { r.2 with descOff := r.2.descOff + 1 } b (ds.map r.1.desc) =
          offeredFrom { c with seq := seq } b (ds.map s₁.desc) := by
  intro r
  obtain ⟨now, hctx⟩ := descDone_ctx s₂ { c with seq := seq } d
  have hdone := h.trans (.descDone s₂ { c with seq := seq } d)
  refine ⟨?_, fun b ds => ?_⟩
  · rw [hdone.queued, hctx]
    rfl
  · rw [offeredFrom_congr hdone.keep]
    exact offeredFrom_ctx (by rw [hctx]) (by rw [hctx]) b _

private theorem offeredFrom_stops {s : St} {c : XmitCtx} {d : DescId} (hpeek : c.peek s = some d)
    (hd : (s.desc d).sacked = true) (b : Int) (k : Nat) :
    offeredFrom c b (((c.queued s).take k).map s.desc) = [] := by
  rw [XmitCtx.queued_of_some hpeek]
  cases k with
  | zero => rfl
  | succ k => rw [List.take_succ_cons, List.map_cons, offeredFrom_sacked c b hd]

private theorem offeredFrom_piece {s s₁ : St} {c : XmitCtx} {d : DescId} {b : Int}
    (h : Marked s s₁) (hpeek : c.peek s = some d) (hd : (s.desc d).sacked = false) (hb : 0 < b)
    (k : Nat) : offeredFrom c b (((c.queued s).take (k + 1)).map s.desc) =
      ((s₁.desc d).data.drop (c.seq - (s₁.desc d).seq).toNat).take
          (attachLen (s₁.desc d) c b).1.toNat ++
        offeredFrom { c with seq := c.seq + BitVec.ofInt 32 (attachLen (s₁.desc d) c b).1 }
          ((attachLen (s₁.desc d) c b).2 - (attachLen (s₁.desc d) c b).1)
          (((XmitCtx.queued { c with descOff := c.descOff + 1 } s₁).take k).map s₁.desc) := by
  have hd₁ : (s₁.desc d).sacked = false := (h.keep.desc d).sacked.trans hd
  have hpeek₁ : c.peek s₁ = some d := by
    rw [← hpeek]
    unfold XmitCtx.peek
    rw [h.tsock]
  rw [← offeredFrom_congr h.keep, ← h.queued, XmitCtx.queued_of_some hpeek₁, List.take_succ_cons,
    List.map_cons, offeredFrom_cons c hb hd₁]

/-- The loop attaches what the send queue offers. -/
theorem attachLoop_payload (cfg : TcpCfg) (n : Nat) : ∀ (s : St) (c : XmitCtx) (a : XmitAcc)
    (d : DescId), c.peek s = some d → a.nbSegs < cfg.pktMaxChain →
      cfg.pktMaxChain - a.nbSegs ≤ n →
      (attachLoop cfg n s c a d).2.2.payload = a.payload ++ offeredFrom c a.budget
        (((c.queued s).take (min (cfg.pktMaxChain - a.nbSegs) (granted s))).map s.desc) := by
  induction n with
  | zero =>
    intro s c a d _ hlt hn
    omega
  | succ n ih =>
    intro s c a d hpeek hlt hn
    unfold attachLoop
    split
    swap
    · next hspent =>
      rw [offeredFrom_spent c (by omega), List.append_nil]
    next hpos =>
    have hmark := Marked.markRetrans s c a d
    have hpay := markRetrans_payload s c a d
    have hgrant := markRetrans_granted s c a d
    have halloc := hmark.trans (.packetAlloc (markRetrans s c a d).1)
    dsimp only
    split
    · next hsacked =>
      rw [(hmark.keep.desc d).sacked] at hsacked
      rw [hpay, offeredFrom_stops hpeek hsacked, List.append_nil]
    next hsacked =>
    split
    · next s₁ h1 =>
      have hnone := packetAlloc_granted h1
      rw [hgrant, if_neg Bool.false_ne_true] at hnone
      rw [hnone, Nat.min_zero, List.take_zero]
      exact hpay.trans (List.append_nil _).symm
    next s₁ h1 =>
    have hone := packetAlloc_granted h1
    rw [h1] at halloc
    rw [hgrant, if_pos rfl] at hone
    rw [Bool.not_eq_true, (hmark.keep.desc d).sacked] at hsacked
    have hk : min (cfg.pktMaxChain - a.nbSegs) (granted s) =
        min (cfg.pktMaxChain - (a.nbSegs + 1)) (granted s₁) + 1 := by omega
    rw [hk, offeredFrom_piece halloc hpeek hsacked hpos, ← List.append_assoc]
    have hspent := attachLen_spent (s₁.desc d) c a.budget
    have hfault := (Marked.refl s₁).faultIf ((s₁.desc d).len ≤ c.seq - (s₁.desc d).seq)
    have hpool : granted (if (s₁.desc d).len ≤ c.seq - (s₁.desc d).seq then
        { s₁ with worker := { s₁.worker with fault := true } } else s₁) = granted s₁ := by
      split <;> rfl
    generalize (if (s₁.desc d).len ≤ c.seq - (s₁.desc d).seq then
        { s₁ with worker := { s₁.worker with fault := true } } else s₁) = s₂ at hfault hpool ⊢
    generalize attachLen (s₁.desc d) c a.budget = l at hspent ⊢
    -- with no piece left the payload ends here
    have hstop : ∀ {vs : List TxDesc} {c' : XmitCtx}, vs = [] →
        a.payload ++ ((s₁.desc d).data.drop (c.seq - (s₁.desc d).seq).toNat).take l.1.toNat =
        a.payload ++ ((s₁.desc d).data.drop (c.seq - (s₁.desc d).seq).toNat).take l.1.toNat ++
          offeredFrom c' (l.2 - l.1) vs := by
      rintro vs c' rfl
      exact (List.append_nil _).symm
    split
    · obtain ⟨hq, hrest⟩ := descDone_offers hfault c d (c.seq + BitVec.ofInt 32 l.1)
      have hleft :=
        (descDone_granted s₂ { c with seq := c.seq + BitVec.ofInt 32 l.1 } d).trans hpool
      generalize descDone s₂ { c with seq := c.seq + BitVec.ofInt 32 l.1 } d = r at hq hrest hleft ⊢
      split
      · exact hstop (by rw [show cfg.pktMaxChain - (a.nbSegs + 1) = 0 by omega]; simp)
      next hmore =>
      split
      · next hnone => exact hstop (by rw [← hq, XmitCtx.queued_of_none hnone]; simp)
      · next d' hsome =>
        refine (ih _ _ _ _ hsome (by simpa using hmore) (by dsimp only; omega)).trans ?_
        rw [hq, hleft, hrest]
    · next hpart =>
      rw [offeredFrom_spent _ (hspent hpart).le, List.append_nil]
      split
      · rfl
      · rw [attachLoop_spent _ _ _ _ _ _ (hspent hpart)]

/-! What a call puts on the dev txq. -/

private theorem devPortTxqEnqueue_emitted (s : St) (pkt : TxPacket) :
    (devPortTxqEnqueue s pkt).2.tsock.emitted = s.tsock.emitted ∨
      (devPortTxqEnqueue s pkt).2.tsock.emitted = s.tsock.emitted ++ [pkt] := by
  unfold devPortTxqEnqueue
  split
  · exact .inl rfl
  · exact .inr rfl

private theorem xmitAttached_emitted (cfg : TcpCfg) (s : St) (c : XmitCtx) (a : XmitAcc) :
    (xmitAttached cfg s c a).2.1.tsock.emitted = s.tsock.emitted ∨
      (xmitAttached cfg s c a).2.1.tsock.emitted = s.tsock.emitted ++
        [buildPacket cfg s (c.seq - a.size) tcpFlagAck a.payload a.retransmit] := by
  unfold xmitAttached
  split
  · exact .inl rfl
  · have h := devPortTxqEnqueue_emitted (afterPrepend s tcpFlagAck)
      (buildPacket cfg s (c.seq - a.size) tcpFlagAck a.payload a.retransmit)
    dsimp only [prependTcpHdr]
    split <;> next heq => rw [heq] at h; exact h

theorem tsockSndMss_lt (t : TcpSock) : tsockSndMss t < 2 ^ 31 := by
  have := t.cc.sndMss.isLt
  unfold tsockSndMss
  split <;> omega

theorem skipSacked_peek (s : St) (n : Nat) (c : XmitCtx) {d : DescId} {c' : XmitCtx}
    (h : skipSacked s n c = (some d, c')) : c'.peek s = some d := by
  induction n generalizing c with
  | zero => cases h
  | succ n ih =>
    unfold skipSacked at h
    split at h
    · cases h
    · next e hpeek =>
      split at h
      · exact ih _ h
      · cases h
        exact hpeek

private theorem attachLoop_offered (cfg : TcpCfg) {s s₁ : St} {c c' : XmitCtx} {d : DescId}
    (hskip : skipSacked s ((s.tsock.snd.txq.write - c.descBase).toNat + 1) c = (some d, c'))
    (halloc : packetAlloc s = (true, s₁)) :
    (attachLoop cfg cfg.pktMaxChain s₁ c'
      { payload := [], nbSegs := 1, retransmit := false, size := 0
        budget := min c'.budget (tsockSndMss s₁.tsock), err := none } d).2.2.payload =
      offered cfg s c := by
  have hsame := Marked.packetAlloc s
  have hgrant := packetAlloc_granted halloc
  have hpeek := skipSacked_peek s _ c hskip
  rw [halloc] at hsame
  rw [if_pos rfl] at hgrant
  have hpeek₁ : c'.peek s₁ = some d := by
    rw [← hpeek]
    unfold XmitCtx.peek
    rw [hsame.tsock]
  have hlt : 1 < cfg.pktMaxChain := cfg.chain_ge
  refine (attachLoop_payload cfg _ s₁ c' _ d hpeek₁ hlt (Nat.sub_le _ _)).trans ?_
  unfold offered
  rw [hskip]
  dsimp only
  rw [List.nil_append, offeredFrom_congr hsame.keep, hsame.queued, hsame.tsock, hgrant,
    Nat.add_sub_cancel]

/-- Every data packet is built for the socket as it was before the call, around the
payload that the send queue offered. -/
private theorem dataPackets_built (cfg : TcpCfg) (s : St) (c : XmitCtx) (p : TxPacket)
    (h : p ∈ dataPackets cfg s c) : ∃ (s' : St) (seq : U32) (retransmit : Bool),
      s'.tsock = s.tsock ∧
        p = buildPacket cfg s' seq tcpFlagAck (offered cfg s c) retransmit := by
  unfold dataPackets xmitOnePacket at h
  split at h
  · simp at h
  next d c' hskip =>
  have ht := (Marked.packetAlloc s).tsock
  split at h
  · next s₁ h1 =>
    rw [h1] at ht
    rw [ht] at h
    simp at h
  next s₁ h1 =>
  have hpay := attachLoop_offered cfg hskip h1
  rw [h1] at ht
  dsimp only at h ht
  have hsame := Marked.attachLoop cfg cfg.pktMaxChain s₁ c'
    { payload := [], nbSegs := 1, retransmit := false, size := 0
      budget := min c'.budget (tsockSndMss s₁.tsock), err := none } d
  generalize attachLoop cfg cfg.pktMaxChain s₁ c' _ d = r at h hsame hpay
  have hs : r.1.tsock = s.tsock := hsame.tsock.trans ht
  rw [← hs] at h
  rcases xmitAttached_emitted cfg r.1 r.2.1 r.2.2 with he | he
  · rw [he] at h
    simp at h
  · rw [he, List.drop_left, hpay] at h
    exact ⟨r.1, _, _, hs, List.mem_singleton.mp h⟩

theorem offered_length_le (cfg : TcpCfg) (s : St) (c : XmitCtx) :
    (offered cfg s c).length ≤ tsockSndMss s.tsock := by
  unfold offered
  dsimp only
  generalize (skipSacked s _ c).2 = c'
  generalize List.map s.desc _ = vs
  by_cases hb : min c'.budget (tsockSndMss s.tsock) ≤ 0
  · rw [offeredFrom_spent c' hb]
    exact Nat.zero_le _
  · obtain ⟨k, hk⟩ := Int.eq_ofNat_of_zero_le (by omega : 0 ≤ min c'.budget (tsockSndMss s.tsock))
    have hle : k ≤ tsockSndMss s.tsock := by omega
    rw [hk]
    exact (offeredFrom_length_le vs c' k (hle.trans_lt (tsockSndMss_lt _))).trans hle

/-! The fields of a packet with a payload. -/

private theorem enabledOpts_data (t : TcpSock) :
    (enabledOpts t tcpFlagAck).sack = !t.rcv.sackBlocks.isEmpty := by
  simp [enabledOpts, tcpFlagAck]

private theorem calcTcpOptLen_data (t : TcpSock) :
    calcTcpOptLen t tcpFlagAck = (sizeClass t).optLen := by
  unfold calcTcpOptLen SizeClass.optLen SizeClass.sackSpace sizeClass
  dsimp only
  rw [enabledOpts_data]
  cases t.rcv.sackBlocks <;> simp [enabledOpts, tcpFlagAck]

def offloadMss (t : TcpSock) : U16 :=
  if (enabledOpts t tcpFlagAck).sack then
    t.cc.sndMss - BitVec.ofNat 16 (tcpOptSackSpace t.rcv.sackBlocks.length)
  else t.cc.sndMss

private theorem offloadMss_bound (t : TcpSock) (hmss : 64 ≤ (sizeClass t).mss.toNat)
    (hfew : (sizeClass t).nrSack ≤ 3) : (offloadMss t).toNat = (sizeClass t).bound := by
  unfold offloadMss SizeClass.bound SizeClass.sackSpace
  unfold sizeClass at hmss hfew ⊢
  rw [enabledOpts_data]
  dsimp only at hmss hfew ⊢
  have := t.cc.sndMss.isLt
  cases hb : t.rcv.sackBlocks with
  | nil => simp
  | cons b l =>
    rw [hb] at hfew
    simp only [List.isEmpty_cons, Bool.not_false, if_true, List.length_cons, tcpOptSackSpace,
      BitVec.toNat_sub, BitVec.toNat_ofNat] at hfew ⊢
    rw [if_neg (by omega)]
    omega

private theorem buildPacket_sized_iff (cfg : TcpCfg) (s : St) (seq : U32) (payload : List Byte)
    (retransmit : Bool) (hmss : 64 ≤ (sizeClass s.tsock).mss.toNat)
    (hfew : (sizeClass s.tsock).nrSack ≤ 3) :
    PacketSized (sizeClass s.tsock) (buildPacket cfg s seq tcpFlagAck payload retransmit) ↔
      (sizeClass s.tsock).Takes payload.length := by
  have hopts : (buildPacket cfg s seq tcpFlagAck payload retransmit).opts.length =
      (sizeClass s.tsock).optLen :=
    (fillOpts_length cfg s tcpFlagAck).trans (calcTcpOptLen_data s.tsock)
  have hbound := offloadMss_bound s.tsock hmss hfew
  have hseg : (buildPacket cfg s seq tcpFlagAck payload retransmit).tsoSegsz =
      if (offloadMss s.tsock).toNat < payload.length then some (offloadMss s.tsock) else none := rfl
  have hip : (buildPacket cfg s seq tcpFlagAck payload retransmit).ipLen = BitVec.ofNat 16
      (payload.length % 2 ^ 16 + (20 + calcTcpOptLen s.tsock tcpFlagAck) +
        (sizeClass s.tsock).ipHdr) := rfl
  have hpay : (buildPacket cfg s seq tcpFlagAck payload retransmit).payload = payload := rfl
  constructor
  · intro h
    have hlen := h.ipLen
    have hlt := (buildPacket cfg s seq tcpFlagAck payload retransmit).ipLen.isLt
    rw [hpay, hopts] at hlen
    exact ⟨by omega, fun hoff => hpay ▸ (h.whole hoff).2⟩
  · rintro ⟨hlt, hwhole⟩
    refine ⟨?_, fun hoff => ?_, fun _ => ?_⟩
    · rw [hpay, hopts, hip, calcTcpOptLen_data, BitVec.toNat_ofNat]
      omega
    · have hle := hwhole hoff
      refine ⟨?_, hpay ▸ hle⟩
      rw [hseg, hbound, if_neg (by omega)]
    · rw [hseg, hbound, hpay]
      split
      · rw [Option.map_some, hbound]
      · rfl

/-! The law. -/

private theorem fits_takes (t : TcpSock) (hfew : (sizeClass t).nrSack ≤ 3)
    (hfits : (sizeClass t).Fits) {n : Nat} (hn : n ≤ tsockSndMss t) : (sizeClass t).Takes n := by
  have hsnd : tsockSndMss t = if (sizeClass t).tso then 65535 - 100 else (sizeClass t).mss.toNat :=
    rfl
  rw [hsnd] at hn
  generalize sizeClass t = z at *
  have hspace : z.sackSpace ≤ 28 := by
    unfold SizeClass.sackSpace tcpOptSackSpace
    split <;> omega
  have hopt : z.optLen ≤ 12 + z.sackSpace := by
    unfold SizeClass.optLen tcpOptTsSpace
    split <;> omega
  have hip : z.ipHdr ≤ 20 := by
    unfold SizeClass.ipHdr
    split <;> omega
  cases htso : z.tso with
  | true =>
    rw [htso, if_pos rfl] at hn
    exact ⟨by omega, fun h => absurd (htso.symm.trans h) (by decide)⟩
  | false =>
    rw [htso, if_neg Bool.false_ne_true] at hn
    rcases hfits with h | ⟨h0, hlt⟩
    · rw [htso] at h
      cases h
    · have hzero : z.sackSpace = 0 := if_pos h0
      exact ⟨by omega, fun _ => by unfold SizeClass.bound; omega⟩

/-- A data packet has the right sizes exactly when the class of the socket takes what the
send queue offers, and a class that a full segment fits takes whatever is offered. -/
theorem dataPackets_sized_iff (cfg : TcpCfg) (s : St) (c : XmitCtx)
    (hmss : 64 ≤ (sizeClass s.tsock).mss.toNat) (hfew : (sizeClass s.tsock).nrSack ≤ 3) :
    (∀ p ∈ dataPackets cfg s c, PacketSized (sizeClass s.tsock) p ↔
        (sizeClass s.tsock).Takes (offered cfg s c).length) ∧
      ((sizeClass s.tsock).Fits → (sizeClass s.tsock).Takes (offered cfg s c).length) := by
  refine ⟨fun p hp => ?_, fun hfits => fits_takes s.tsock hfew hfits (offered_length_le cfg s c)⟩
  obtain ⟨s', seq, retransmit, ht, rfl⟩ := dataPackets_built cfg s c p hp
  rw [← ht] at hmss hfew ⊢
  exact buildPacket_sized_iff cfg s' seq _ retransmit hmss hfew

/-! A NIC that cannot segment. -/

def noTsoCfg : TcpCfg := { enableTso := false, enableTs := false }

theorem noBytes_fit : ([] : List Byte).length < 2 ^ 16 := by decide

theorem tenBytes_fit : (List.replicate 10 (0 : Byte)).length < 2 ^ 16 := by decide

theorem hundredBytes_fit : (List.replicate 100 (0 : Byte)).length < 2 ^ 32 := by decide

def sackPeer : St :=
  xmitSyn noTsoCfg (passiveTsockInit noTsoCfg ⟨Worker.boot 8
    { allocOk := List.replicate 16 true, ethOk := List.replicate 16 true },
    tsockInit noTsoCfg 0 false⟩
    (.parsed 0 100 0 65535 { syn := true } [2, 4, 0, 100, 4, 2, 1, 1] [] noBytes_fit)).1

/-- The connection is established, ten bytes arrive out of order, and the application
writes a full segment. -/
def gapThenWrite : List ConnEv :=
  [.packet (.bare 1 101 1 65535 { ack := true }), .burstEnd,
    .packet (.parsed 2 111 1 65535 { ack := true } [] (List.replicate 10 0) tenBytes_fit),
    .burstEnd,
    .write [⟨List.replicate 100 0, hundredBytes_fit, true, 0, 0, none⟩]]

/-- The segment leaves with a SACK option of twelve bytes and a hundred bytes of payload: it
asks the NIC for segmentation, which is off. -/
theorem sackedSegment_overflows :
    let s := (exec (connStep noTsoCfg) (Conn.start sackPeer) gapThenWrite).st
    Opened noTsoCfg sackPeer ∧ sizeClass s.tsock = ⟨false, false, false, 1, 100⟩ ∧
      ∃ p ∈ dataPackets noTsoCfg s (xmitDataCtx s.tsock),
        p.payload.length = 100 ∧ p.tsoSegsz = some 88 ∧ ¬ PacketSized (sizeClass s.tsock) p := by
  have hclass : sizeClass (exec (connStep noTsoCfg) (Conn.start sackPeer) gapThenWrite).st.tsock =
      ⟨false, false, false, 1, 100⟩ := by decide +kernel
  have hpkt : ∃ p ∈ dataPackets noTsoCfg
      (exec (connStep noTsoCfg) (Conn.start sackPeer) gapThenWrite).st
      (xmitDataCtx (exec (connStep noTsoCfg) (Conn.start sackPeer) gapThenWrite).st.tsock),
      p.payload.length = 100 ∧ p.tsoSegsz = some 88 := by decide +kernel
  obtain ⟨p, hp, hlen, hseg⟩ := hpkt
  refine ⟨.accept _ _ _ _ ⟨by decide, by decide⟩, hclass, p, hp, hlen, hseg, fun h => ?_⟩
  have hnone := (h.whole rfl).1
  rw [hseg] at hnone
  cases hnone

theorem fiftyBytes_fit : (List.replicate 50 (0 : Byte)).length < 2 ^ 32 := by decide

def gapThenShortWrite : List ConnEv :=
  gapThenWrite.take 4 ++ [.write [⟨List.replicate 50 0, fiftyBytes_fit, true, 0, 0, none⟩]]

theorem dataPackets_sized_offloaded :
    (let s := (exec (connStep noTsoCfg) (Conn.start sackPeer) gapThenShortWrite).st;
      (dataPackets noTsoCfg s (xmitDataCtx s.tsock)).length = 1 ∧ ¬ (sizeClass s.tsock).Fits ∧
        ∀ p ∈ dataPackets noTsoCfg s (xmitDataCtx s.tsock), PacketSized (sizeClass s.tsock) p) ∧
      (∀ (s : St) (c : XmitCtx), sizeClass s.tsock = ⟨true, false, true, 3, 1448⟩ →
        ∀ p ∈ dataPackets noTsoCfg s c, PacketSized ⟨true, false, true, 3, 1448⟩ p) ∧
      (∀ (s : St) (c : XmitCtx), sizeClass s.tsock = ⟨false, true, true, 0, 1448⟩ →
        ∀ p ∈ dataPackets noTsoCfg s c, PacketSized ⟨false, true, true, 0, 1448⟩ p) := by
  have hclass : ∀ z : SizeClass, 64 ≤ z.mss.toNat → z.nrSack ≤ 3 → z.Fits →
    ∀ (s : St) (c : XmitCtx),
      sizeClass s.tsock = z → ∀ p ∈ dataPackets noTsoCfg s c, PacketSized z p := by
    rintro z hmss hfew hfits s c rfl p hp
    obtain ⟨hiff, htakes⟩ := dataPackets_sized_iff noTsoCfg s c hmss hfew
    exact (hiff p hp).mpr (htakes hfits)
  refine ⟨⟨by decide +kernel, by decide +kernel, fun p hp => ?_⟩,
    hclass _ (by decide) (by decide) (by decide), hclass _ (by decide) (by decide) (by decide)⟩
  exact ((dataPackets_sized_iff _ _ _ (by decide +kernel) (by decide +kernel)).1 p hp).mpr
    (by decide +kernel)

end LibTpa
