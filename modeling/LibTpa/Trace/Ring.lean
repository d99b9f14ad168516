/- LibTpa/Trace/Ring
   digest: The trace ring of a socket: what the dump loop makes of the records in it. -/

import LibTpa.Lib.RingWindow
import LibTpa.Tcp.Basic

set_option autoImplicit false

namespace LibTpa

open LibTpa.Lib RingWindow

inductive TraceType
  | data | ts | error
  | tcpRcvPkt | tcpSetState | tcpEstablished | tcpTsOpt | tcpRtt | tcpOoo |
    tcpRcvEnqueue | tcpDupack
  | tcpSndUna | tcpAckSentData | tcpUpdateCwnd | tcpUpdateTxq | tcpXmitSyn |
    tcpXmitData | tcpXmitPkt
  | tcpFastRetrans | tcpRto | tcpZwritev | tcpZreadv | tcpRelease | tcpSack | tcpDescSacked
  | pktfuzzCut
  deriving DecidableEq

abbrev TraceVal := BitVec 64

def trunc (width : Nat) (x : TraceVal) : TraceVal := (x.setWidth width).setWidth 64

structure TraceRecord where
  type : TraceType
  u8 : BitVec 8
  u16 : U16
  u32 : U32
  deriving DecidableEq

/-- `R8`, `R16`, `R32` and `R56`; the last one covers the other three. -/
inductive TraceField
  | r8 | r16 | r32 | r56

def TraceField.width : TraceField → Nat
  | .r8 => 8
  | .r16 => 16
  | .r32 => 32
  | .r56 => 56

def TraceRecord.get (r : TraceRecord) : TraceField → TraceVal
  | .r8 => r.u8.setWidth 64
  | .r16 => r.u16.setWidth 64
  | .r32 => r.u32.setWidth 64
  | .r56 => (r.u32 ++ r.u16 ++ r.u8).setWidth 64

def TraceRecord.set (r : TraceRecord) (v : TraceVal) : TraceField → TraceRecord
  | .r8 => { r with u8 := v.setWidth 8 }
  | .r16 => { r with u16 := v.setWidth 16 }
  | .r32 => { r with u32 := v.setWidth 32 }
  | .r56 =>
    { r with u8 := v.setWidth 8, u16 := (v >>> 8).setWidth 16, u32 := (v >>> 24).setWidth 32 }

/-- The fields of a record that are used, with the arguments in them. -/
abbrev TraceLayout := List (TraceField × Nat)

/-- `DECLARE_TRACE`: the widths of the arguments, the number of records, and the records. -/
structure TraceDecl where
  args : List Nat
  nrRecord : Nat
  records : List TraceLayout

def traceDecl : TraceType → Option TraceDecl
  | .data => none
  | .ts => some ⟨[64], 1, [[(.r56, 0)]]⟩
  | .error => some ⟨[32], 1, [[(.r32, 0)]]⟩
  -- seq, ack, wnd, len, flags, nr_seg
  | .tcpRcvPkt => some ⟨[32, 32, 16, 16, 8, 8], 2,
      [[(.r32, 0), (.r16, 2), (.r8, 4)], [(.r32, 1), (.r16, 3), (.r8, 5)]]⟩
  | .tcpSetState => some ⟨[32, 16], 1, [[(.r32, 0), (.r16, 1)]]⟩
  | .tcpEstablished | .tcpTsOpt | .tcpRtt =>
    some ⟨[32, 32, 32, 32], 4, [[(.r32, 0)], [(.r32, 1)], [(.r32, 2)], [(.r32, 3)]]⟩
  | .tcpOoo => some ⟨[16, 32], 1, [[(.r32, 1), (.r16, 0)]]⟩
  | .tcpRcvEnqueue => some ⟨[32, 16, 32, 16], 2, [[(.r32, 0), (.r16, 1)], [(.r32, 2), (.r16, 3)]]⟩
  -- size, nr_iov_request, nr_iov_read, rxq_readable_count
  | .tcpZreadv => some ⟨[32, 16, 8, 32], 2, [[(.r32, 0), (.r16, 1), (.r8, 2)], [(.r16, 3)]]⟩
  | .tcpDupack | .tcpSndUna | .tcpUpdateCwnd | .tcpXmitSyn | .tcpRelease =>
    some ⟨[32], 1, [[(.r32, 0)]]⟩
  | .tcpAckSentData => some ⟨[32, 16, 32, 16, 32, 16, 32], 4,
      [[(.r32, 0), (.r16, 1)], [(.r32, 2), (.r16, 3)], [(.r32, 4), (.r16, 5)], [(.r32, 6)]]⟩
  | .tcpUpdateTxq => some ⟨[16, 16], 1, [[(.r32, 0), (.r16, 1)]]⟩
  | .tcpZwritev => some ⟨[32, 16, 8, 32, 16, 8], 2,
      [[(.r32, 0), (.r16, 1), (.r8, 2)], [(.r32, 3), (.r16, 4), (.r8, 5)]]⟩
  | .tcpXmitData =>
    some ⟨[32, 16, 32, 16, 8], 2, [[(.r32, 0), (.r16, 1)], [(.r32, 2), (.r16, 3), (.r8, 4)]]⟩
  -- seq, len, tcp_hdr_len, snd_nxt, pkt_flags, snd_wnd, nr_seg, tcp_flags, ts_val
  | .tcpXmitPkt => some ⟨[32, 16, 8, 32, 16, 32, 8, 8, 32], 4,
      [[(.r32, 0), (.r16, 1), (.r8, 2)], [(.r32, 3), (.r16, 4)],
        [(.r32, 5), (.r16, 6), (.r8, 7)], [(.r32, 8)]]⟩
  | .tcpFastRetrans | .tcpRto =>
    some ⟨[32, 16, 32, 32], 3, [[(.r32, 0), (.r16, 1)], [(.r32, 2)], [(.r32, 3)]]⟩
  | .tcpSack => some ⟨[32, 16, 8], 1, [[(.r32, 0), (.r16, 1), (.r8, 2)]]⟩
  | .tcpDescSacked => some ⟨[32, 16, 32, 16], 2, [[(.r32, 0), (.r16, 1)], [(.r32, 2), (.r16, 3)]]⟩
  | .pktfuzzCut => some ⟨[32, 16], 1, [[(.r32, 0), (.r16, 1)]]⟩

/-- `struct tsock_trace`, with `mask + 1` records. -/
structure TsockTrace where
  size : Nat
  off : BitVec 64
  records : Nat → TraceRecord

structure TraceEvent where
  type : TraceType
  args : Nat → TraceVal

def TraceDecl.pass (d : TraceDecl) (args : Nat → TraceVal) (i : Nat) : TraceVal :=
  trunc (d.args.getD i 0) (args i)

/-- The fields of a record are written; those that are not keep what was there. -/
def packRecord (args : Nat → TraceVal) (fields : TraceLayout) (r : TraceRecord) : TraceRecord :=
  fields.foldl (fun r x => r.set (args x.2) x.1) r

def traceRecords (args : Nat → TraceVal) : TraceType → List TraceLayout → TsockTrace → TsockTrace
  | _, [], t => t
  | type, fields :: l, t =>
    let slot := maskSlot t.size t.off
    traceRecords args .data l { t with
      records :=
        Function.update t.records slot (packRecord args fields { t.records slot with type := type })
      off := t.off + 1 }

/-- `trace_x` on a socket whose trace is on or off, with the events that were recorded. -/
def traceCall (noWrap : Bool) (s : TsockTrace × List TraceEvent) (c : Bool × TraceEvent) :
    TsockTrace × List TraceEvent :=
  match traceDecl c.2.type with
  | none => s
  | some d =>
    if c.1 = false ∨ noWrap = true ∧
      BitVec.ofNat 64 s.1.size - 1 < s.1.off + BitVec.ofNat 64 d.nrRecord then s
    else (traceRecords (d.pass c.2.args) c.2.type d.records s.1, s.2 ++ [c.2])

/-- What `tsock_trace_alloc` and `tsock_trace_init` make of the buffer they give to a socket: the
mask is set, `off` and the records stay as the socket before has left them. -/
def tsockTraceInit (size : Nat) (t : TsockTrace) : TsockTrace := { t with size := size }

def traceCalls (noWrap : Bool) (t : TsockTrace) (calls : List (Bool × TraceEvent)) :
    TsockTrace × List TraceEvent := calls.foldl (traceCall noWrap) (t, [])

/-- The calls on a socket with an empty ring; its records may hold anything. -/
def traceRun (noWrap : Bool) (size : Nat) (records : Nat → TraceRecord)
    (calls : List (Bool × TraceEvent)) : TsockTrace × List TraceEvent :=
  traceCalls noWrap (tsockTraceInit size ⟨size, 0, records⟩) calls

def traceRecordFetch (t : TsockTrace) (iter : BitVec 64) (count : Nat) :
    Option (List TraceRecord) :=
  if t.off < iter + BitVec.ofNat 64 count then none else some (window t.records t.size iter count)

/-- The variables of `trace_dump_x` after its records are unpacked. -/
def unpackRecords (d : TraceDecl) :
    List TraceLayout → List TraceRecord → (Nat → TraceVal) → Nat → TraceVal
  | fields :: l, r :: rs, args =>
    unpackRecords d l rs (fields.foldl
      (fun args x => Function.update args x.2 (trunc (d.args.getD x.2 0) (r.get x.1))) args)
  | _, _, args => args

structure TraceReport where
  type : TraceType
  args : List TraceVal
  deriving DecidableEq

def TraceDecl.dump (d : TraceDecl) (type : TraceType) (records : List TraceRecord) : TraceReport :=
  ⟨type, (List.range d.args.length).map (unpackRecords d d.records records fun _ => 0)⟩

def dumpLoop (t : TsockTrace) : Nat → BitVec 64 → Option (List TraceReport)
  | 0, _ => none
  | fuel + 1, iter =>
    if iter < t.off then
      let type := (t.records (maskSlot t.size iter)).type
      match traceDecl type with
      | none => dumpLoop t fuel (iter + 1)
      | some d => (traceRecordFetch t iter d.nrRecord).elim (some []) fun records =>
          (dumpLoop t fuel (iter + BitVec.ofNat 64 d.nrRecord)).map (d.dump type records :: ·)
    else some []

def dumpTrace (fuel : Nat) (t : TsockTrace) : Option (List TraceReport) :=
  dumpLoop t fuel (if BitVec.ofNat 64 t.size < t.off then t.off - BitVec.ofNat 64 t.size else 0)

def TraceDecl.field (d : TraceDecl) (i : Nat) : Option TraceField :=
  (d.records.flatten.find? fun x => x.2 == i).map Prod.fst

/-- An argument, as far as its parameter and its field are wide enough. -/
def TraceDecl.stored (d : TraceDecl) (args : Nat → TraceVal) (i : Nat) : TraceVal :=
  trunc (min (d.args.getD i 0) ((d.field i).elim 0 TraceField.width)) (args i)

def TraceEvent.count (e : TraceEvent) : Nat := (traceDecl e.type).elim 0 TraceDecl.nrRecord

def TraceEvent.report (e : TraceEvent) : TraceReport :=
  ⟨e.type, (traceDecl e.type).elim [] fun d => (List.range d.args.length).map (d.stored e.args)⟩

/-- The longest suffix whose records are all among the last `size`. -/
def survivors (size : Nat) : List TraceEvent → List TraceEvent
  | [] => []
  | e :: l => if ((e :: l).map TraceEvent.count).sum ≤ size then e :: l else survivors size l

theorem toNat_trunc (w : Nat) (x : TraceVal) : (trunc w x).toNat = x.toNat % 2 ^ w := by
  rw [trunc, BitVec.toNat_setWidth, BitVec.toNat_setWidth]
  exact Nat.mod_eq_of_lt (Nat.lt_of_le_of_lt (Nat.mod_le ..) x.isLt)

theorem trunc_trunc (v w : Nat) (x : TraceVal) : trunc v (trunc w x) = trunc (min v w) x := by
  apply BitVec.eq_of_toNat_eq
  rw [toNat_trunc, toNat_trunc, toNat_trunc]
  rcases le_total v w with h | h
  · rw [Nat.mod_mod_of_dvd _ (Nat.pow_dvd_pow 2 h), min_eq_left h]
  · rw [min_eq_right h]
    exact Nat.mod_eq_of_lt (Nat.lt_of_lt_of_le (Nat.mod_lt _ (Nat.two_pow_pos w))
      (Nat.pow_le_pow_right (by decide) h))

theorem TraceRecord.get_set (r : TraceRecord) (v : TraceVal) (f : TraceField) :
    (r.set v f).get f = trunc f.width v := by
  cases f with
  | r8 => rfl
  | r16 => rfl
  | r32 => rfl
  | r56 =>
    apply BitVec.eq_of_getLsbD_eq
    intro i _
    simp only [get, set, trunc, TraceField.width, BitVec.getLsbD_setWidth, BitVec.getLsbD_append,
      BitVec.getLsbD_ushiftRight]
    grind

def packRecords (args : Nat → TraceVal) :
    TraceType → List TraceLayout → List TraceRecord → List TraceRecord
  | type, fields :: l, r :: rs =>
    packRecord args fields { r with type := type } :: packRecords args .data l rs
  | _, _, _ => []

theorem packRecords_length {args : Nat → TraceVal} {type : TraceType} {l : List TraceLayout}
    {rs : List TraceRecord} (h : rs.length = l.length) :
    (packRecords args type l rs).length = l.length := by
  induction l generalizing type rs with
  | nil => cases rs <;> rfl
  | cons fields l ih =>
    cases rs with
    | nil => cases h
    | cons r rs => exact congrArg (· + 1) (ih (Nat.succ.inj h))

theorem packRecord_type (args : Nat → TraceVal) (fields : TraceLayout) (r : TraceRecord) :
    (packRecord args fields r).type = r.type := by
  unfold packRecord
  induction fields generalizing r with
  | nil => rfl
  | cons x fields ih =>
    rw [List.foldl_cons, ih]
    cases x.1 <;> rfl

theorem packRecords_data {args : Nat → TraceVal} {l : List TraceLayout} {rs : List TraceRecord} :
    ∀ r ∈ packRecords args .data l rs, r.type = .data := by
  induction l generalizing rs with
  | nil => cases rs <;> exact nofun
  | cons fields l ih =>
    cases rs with
    | nil => exact nofun
    | cons r rs => exact List.forall_mem_cons.mpr ⟨packRecord_type .., ih⟩

theorem traceDecl_count {type : TraceType} {d : TraceDecl} (h : traceDecl type = some d) :
    d.records.length = d.nrRecord ∧ 0 < d.nrRecord ∧ d.nrRecord ≤ 4 := by
  cases type <;> cases h <;> decide

theorem dump_packRecords {type : TraceType} {d : TraceDecl} (h : traceDecl type = some d)
    (args : Nat → TraceVal) {rs : List TraceRecord} (hrs : rs.length = d.records.length) :
    d.dump type (packRecords (d.pass args) type d.records rs) =
      ⟨type, (List.range d.args.length).map (d.stored args)⟩ := by
  have hpass : ∀ v w x, trunc v (trunc w (trunc v x)) = trunc (min v w) x := by
    intro v w x
    rw [trunc_trunc, trunc_trunc, min_right_comm, min_self]
  have hstored : d.stored args = fun i => trunc (d.args.getD i 0)
      (trunc ((d.field i).elim 0 TraceField.width) (d.pass args i)) :=
    funext fun i => (hpass ..).symm
  rw [hstored]
  match rs with
  | [] => cases type <;> cases h <;> cases hrs
  | [r] =>
    cases type <;> cases h <;> first | rfl | cases hrs
    exact congrArg (fun x => TraceReport.mk .ts [trunc 64 x]) 
      (TraceRecord.get_set { r with type := .ts } (trunc 64 (args 0)) .r56)
  | [r, r₁] => cases type <;> cases h <;> first | rfl | cases hrs
  | [r, r₁, r₂] => cases type <;> cases h <;> first | rfl | cases hrs
  | [r, r₁, r₂, r₃] => cases type <;> cases h <;> first | rfl | cases hrs
  | r :: r₁ :: r₂ :: r₃ :: r₄ :: rs => cases type <;> cases h <;> cases hrs

structure Packed (e : TraceEvent) (block : List TraceRecord) : Prop where
  count : block.length = e.count
  pos : 0 < block.length
  small : block.length ≤ 4
  decl : ∃ d, traceDecl e.type = some d ∧ d.nrRecord = block.length ∧ d.dump e.type block = e.report
  types : ∃ r rs, block = r :: rs ∧ r.type = e.type ∧ ∀ x ∈ rs, x.type = .data

theorem packed_records (e : TraceEvent) {d : TraceDecl} (h : traceDecl e.type = some d)
    {rs : List TraceRecord} (hrs : rs.length = d.records.length) :
    Packed e (packRecords (d.pass e.args) e.type d.records rs) := by
  obtain ⟨hnr, hpos, hle⟩ := traceDecl_count h
  have hlen : (packRecords (d.pass e.args) e.type d.records rs).length = d.nrRecord :=
    (packRecords_length hrs).trans hnr
  refine ⟨hlen.trans (by rw [TraceEvent.count, h]; rfl), by omega, by omega,
    ⟨d, h, hlen.symm, ?_⟩, ?_⟩
  · rw [dump_packRecords h e.args hrs, TraceEvent.report, h]
    rfl
  · cases hl : d.records with
    | nil => rw [hl] at hnr; exact absurd hnr.symm (Nat.ne_of_gt hpos)
    | cons fields l =>
      rw [hl] at hrs
      cases rs with
      | nil => cases hrs
      | cons r rs => exact ⟨_, _, rfl, packRecord_type .., packRecords_data⟩

theorem traceRecords_store (args : Nat → TraceVal) (type : TraceType) (l : List TraceLayout)
    (t : TsockTrace) :
    ∃ rs : List TraceRecord, rs.length = l.length ∧ traceRecords args type l t = { t with
      records := store t.records t.size t.off (packRecords args type l rs)
      off := t.off + BitVec.ofNat 64 l.length } := by
  induction l generalizing type t with
  | nil => exact ⟨[], rfl, by rw [traceRecords, List.length_nil, BitVec.add_zero]; rfl⟩
  | cons fields l ih =>
    obtain ⟨rs, hlen, heq⟩ := ih .data { t with
      records := Function.update t.records (maskSlot t.size t.off)
        (packRecord args fields { t.records (maskSlot t.size t.off) with type := type })
      off := t.off + 1 }
    refine ⟨t.records (maskSlot t.size t.off) :: rs, congrArg (· + 1) hlen, ?_⟩
    rw [traceRecords, heq, List.length_cons, Nat.add_comm, BitVec.ofNat_add, ← BitVec.add_assoc]
    rfl

structure TraceHolds (t : TsockTrace) (log : List TraceRecord) : Prop where
  off : t.off = BitVec.ofNat 64 log.length
  window : window t.records t.size (t.off - BitVec.ofNat 64 (min t.size log.length))
    (min t.size log.length) =
    log.drop (log.length - min t.size log.length)

theorem TraceHolds.store {t : TsockTrace} {log l : List TraceRecord} (h : TraceHolds t log)
    (hap : Apart 64 t.size) (hl : l.length ≤ t.size) : TraceHolds { t with
      records := store t.records t.size t.off l
      off := t.off + BitVec.ofNat 64 l.length } (log ++ l) := by
  obtain ⟨m, hm⟩ :=
    Nat.exists_eq_add_of_le' (show l.length ≤ min t.size (log ++ l).length by simp [hl])
  have hlen : (log ++ l).length = log.length + l.length := List.length_append
  have hmn : m ≤ min t.size log.length := by omega
  obtain ⟨k, hk⟩ := Nat.exists_eq_add_of_le' hmn
  -- the last `m` records of before
  have hold : LibTpa.Lib.RingWindow.window t.records t.size (t.off - BitVec.ofNat 64 m) m =
    log.drop (log.length - m) := by
    have hdrop := congrArg (List.drop k) h.window
    rw [window_drop (by omega), List.drop_drop, show log.length - min t.size log.length + k =
      log.length - m by omega, show min t.size log.length - k = m by omega, hk, BitVec.ofNat_add,
      show t.off - (BitVec.ofNat 64 k + BitVec.ofNat 64 m) + BitVec.ofNat 64 k =
        t.off - BitVec.ofNat 64 m by abel] at hdrop
    exact hdrop
  have hnew : LibTpa.Lib.RingWindow.window
      (RingWindow.store t.records t.size (t.off - BitVec.ofNat 64 m + BitVec.ofNat 64 m) l)
      t.size (t.off - BitVec.ofNat 64 m) (m + l.length) = _ := window_store hap l (by omega)
  rw [sub_add_cancel, hold] at hnew
  refine ⟨?_, ?_⟩
  · rw [h.off, hlen, BitVec.ofNat_add]
  · rw [hm, hlen, BitVec.ofNat_add,
      show t.off + BitVec.ofNat 64 l.length - (BitVec.ofNat 64 m + BitVec.ofNat 64 l.length) =
        t.off - BitVec.ofNat 64 m by
          abel, hnew, show log.length + l.length - (m + l.length) = log.length - m by omega,
      List.drop_append_of_le_length (by omega)]

theorem survivors_of_le {size : Nat} {evs : List TraceEvent}
    (h : (evs.map TraceEvent.count).sum ≤ size) :
    survivors size evs = evs := by
  cases evs with
  | nil => rfl
  | cons e evs => exact if_pos h

theorem packed_length {evs : List TraceEvent} {blocks : List (List TraceRecord)}
    (h : List.Forall₂ Packed evs blocks) :
    blocks.flatten.length = (evs.map TraceEvent.count).sum := by
  induction h with
  | nil => rfl
  | cons hb _ ih =>
    rw [List.flatten_cons, List.length_append, hb.count, ih, List.map_cons, List.sum_cons]

theorem survivors_blocks (size : Nat) {evs : List TraceEvent} {blocks : List (List TraceRecord)}
    (h : List.Forall₂ Packed evs blocks) :
    ∃ stale blocks', (∀ r ∈ stale, r.type = .data) ∧
      List.Forall₂ Packed (survivors size evs) blocks' ∧
      blocks.flatten.drop (blocks.flatten.length - min size blocks.flatten.length) =
        stale ++ blocks'.flatten := by
  induction h with
  | nil => exact ⟨[], [], nofun, .nil, List.drop_nil⟩
  | @cons e b evs blocks hb hbs ih =>
    have hall := packed_length (hbs.cons hb)
    have hlen : (b :: blocks).flatten.length = b.length + blocks.flatten.length :=
      List.length_append
    by_cases hfit : ((e :: evs).map TraceEvent.count).sum ≤ size
    · rw [survivors_of_le hfit, hall, min_eq_right hfit, Nat.sub_self]
      exact ⟨[], b :: blocks, nofun, hbs.cons hb, rfl⟩
    · rw [show survivors size (e :: evs) = survivors size evs from if_neg hfit, List.flatten_cons]
      rw [List.flatten_cons] at hall hlen
      rcases Nat.lt_or_ge blocks.flatten.length size with hlt | hge
      · rw [survivors_of_le (by rw [← packed_length hbs]; exact hlt.le),
          List.drop_append_of_le_length (by omega)]
        obtain ⟨r, rs, rfl, -, hdata⟩ := hb.types
        obtain ⟨k, hk⟩ := Nat.exists_eq_add_of_lt (show 0 < (r :: rs ++ blocks.flatten).length -
          min size (r :: rs ++ blocks.flatten).length by omega)
        refine ⟨_, blocks, fun x hx => ?_, hbs, rfl⟩
        rw [hk, Nat.zero_add, List.drop_succ_cons] at hx
        exact hdata x (List.mem_of_mem_drop hx)
      · rw [min_eq_left hge] at ih
        rw [hlen, min_eq_left (by omega), show b.length + blocks.flatten.length - size =
          b.length + (blocks.flatten.length - size) by
            omega, List.drop_append, List.drop_eq_nil_of_le (by omega),
          Nat.add_sub_cancel_left]
        exact ih

section Dump

variable {t : TsockTrace} {iter : BitVec 64} {n : Nat}

private theorem toNat_iter (h : iter.toNat + n = t.off.toNat) {k : Nat} (hk : k ≤ n) :
    (iter + BitVec.ofNat 64 k).toNat = iter.toNat + k := by
  have hoff := t.off.isLt
  rw [BitVec.toNat_add, BitVec.toNat_ofNat]
  omega

theorem dumpLoop_stale (stale : List TraceRecord) (hdata : ∀ r ∈ stale, r.type = .data)
    {l : List TraceRecord} (hw : window t.records t.size iter (stale.length + n) = stale ++ l)
    (hoff : iter.toNat + (stale.length + n) = t.off.toNat) (fuel : Nat) :
    dumpLoop t (fuel + stale.length) iter =
      dumpLoop t fuel (iter + BitVec.ofNat 64 stale.length) := by
  induction stale generalizing iter with
  | nil => rw [List.length_nil, Nat.add_zero, BitVec.add_zero]
  | cons r stale ih =>
    rw [List.length_cons, Nat.add_right_comm] at hw hoff
    have hcons : window t.records t.size iter (stale.length + n + 1) =
      t.records (maskSlot t.size iter) ::
        window t.records t.size (iter + 1) (stale.length + n) := by
      rw [Nat.add_comm, window_add]
      simp [window]
    rw [hcons, List.cons_append, List.cons.injEq] at hw
    have hnext : (iter + 1).toNat = iter.toNat + 1 := toNat_iter hoff (Nat.le_add_left 1 _)
    have htype : traceDecl (t.records (maskSlot t.size iter)).type = none := by
      rw [hw.1, hdata r (List.mem_cons_self ..)]
      rfl
    rw [List.length_cons, ← Nat.add_assoc, dumpLoop, if_pos (BitVec.lt_def.mpr (by omega))]
    dsimp only
    rw [htype]
    dsimp only
    rw [ih (fun x hx => hdata x (List.mem_cons_of_mem _ hx)) hw.2 (by omega), Nat.add_comm,
      BitVec.ofNat_add, ← BitVec.add_assoc]
    rfl

theorem dumpLoop_events {evs : List TraceEvent} {blocks : List (List TraceRecord)}
    (h : List.Forall₂ Packed evs blocks)
    (hw : window t.records t.size iter blocks.flatten.length = blocks.flatten)
    (hoff : iter.toNat + blocks.flatten.length = t.off.toNat) {fuel : Nat}
    (hfuel : blocks.flatten.length < fuel) :
    dumpLoop t fuel iter = some (evs.map TraceEvent.report) := by
  induction h generalizing iter fuel with
  | nil =>
    have heq : t.off.toNat = iter.toNat := hoff.symm
    cases fuel with
    | zero => exact absurd hfuel (Nat.not_lt_zero _)
    | succ fuel => exact if_neg (by rw [BitVec.lt_def]; omega)
  | @cons e b evs blocks hb _ ih =>
    obtain ⟨fuel, rfl⟩ := Nat.exists_eq_add_of_lt (Nat.lt_of_le_of_lt (Nat.zero_le _) hfuel)
    obtain ⟨d, hd, hnr, hdump⟩ := hb.decl
    have hpos := hb.pos
    rw [List.flatten_cons, List.length_append] at hw hoff hfuel
    have htake := congrArg (List.take b.length) hw
    have hrest := congrArg (List.drop b.length) hw
    rw [window_take (by omega), List.take_left] at htake
    rw [window_drop (by omega), Nat.add_sub_cancel_left, List.drop_left] at hrest
    have hnext := toNat_iter hoff (Nat.le_add_right b.length _)
    have htype : (t.records (maskSlot t.size iter)).type = e.type := by
      obtain ⟨r, rs, hr, htype, -⟩ := hb.types
      have hget := congrArg (·[0]?) htake
      rw [window_getElem?, if_pos hpos, BitVec.add_zero, hr] at hget
      rw [Option.some_inj.mp hget, htype]
    rw [Nat.zero_add, dumpLoop, if_pos (BitVec.lt_def.mpr (by omega))]
    dsimp only
    rw [htype, hd]
    dsimp only
    rw [traceRecordFetch, hnr, if_neg (by rw [BitVec.lt_def, hnext]; omega), htake,
      Option.elim_some, hdump,
      ih hrest (by omega) (by omega)]
    rfl

end Dump

def RecordedIn (size : Nat) (s : TsockTrace × List TraceEvent) : Prop :=
  s.1.size = size ∧ ∃ blocks, List.Forall₂ Packed s.2 blocks ∧ TraceHolds s.1 blocks.flatten

theorem RecordedIn.traceCall {size : Nat} {s : TsockTrace × List TraceEvent} (hap : Apart 64 size)
    (hsize : 4 ≤ size) (h : RecordedIn size s) (noWrap : Bool) (c : Bool × TraceEvent) :
    RecordedIn size (LibTpa.traceCall noWrap s c) := by
  unfold LibTpa.traceCall
  split
  · exact h
  next d hd =>
  split
  · exact h
  obtain ⟨rfl, blocks, hblocks, hring⟩ := h
  obtain ⟨rs, hrs, heq⟩ := traceRecords_store (d.pass c.2.args) c.2.type d.records s.1
  have hb := packed_records c.2 hd hrs
  rw [heq, ← packRecords_length hrs]
  refine ⟨rfl, blocks ++ [_], List.rel_append hblocks (.cons hb .nil), ?_⟩
  rw [List.flatten_append, List.flatten_singleton]
  exact hring.store hap (hb.small.trans hsize)

theorem RecordedIn.foldl {size : Nat} (hap : Apart 64 size) (hsize : 4 ≤ size) (noWrap : Bool)
    (calls : List (Bool × TraceEvent)) {s : TsockTrace × List TraceEvent} (h : RecordedIn size s) :
    RecordedIn size (calls.foldl (LibTpa.traceCall noWrap) s) := by
  induction calls generalizing s with
  | nil => exact h
  | cons c calls ih => exact ih (h.traceCall hap hsize noWrap c)

theorem four_le_two_pow {k : Nat} (hk : 2 ≤ k) : 4 ≤ 2 ^ k :=
  Nat.pow_le_pow_right (n := 2) (by decide) hk

theorem traceRun_recorded {k : Nat} (hk : 2 ≤ k) (hk' : k < 64) (noWrap : Bool)
    (records : Nat → TraceRecord) (calls : List (Bool × TraceEvent)) :
    RecordedIn (2 ^ k) (traceRun noWrap (2 ^ k) records calls) := by
  have h₀ : RecordedIn (2 ^ k) (⟨2 ^ k, 0, records⟩, []) := ⟨rfl, [], .nil, rfl, by simp⟩
  exact h₀.foldl (apart_two_pow hk') (four_le_two_pow hk) noWrap calls

theorem RecordedIn.dumpTrace {k : Nat} (hk' : k < 64) {s : TsockTrace × List TraceEvent}
    (h : RecordedIn (2 ^ k) s) (hcount : (s.2.map TraceEvent.count).sum < 2 ^ 64) {fuel : Nat}
    (hfuel : 2 ^ k < fuel) :
    dumpTrace fuel s.1 = some ((survivors (2 ^ k) s.2).map TraceEvent.report) := by
  obtain ⟨hsize, blocks, hblocks, hring⟩ := h
  have hlt : 2 ^ k < 2 ^ 64 := Nat.pow_lt_pow_right (by decide) hk'
  obtain ⟨stale, blocks', hdata, hblocks', hdrop⟩ := survivors_blocks (2 ^ k) hblocks
  have hw := hring.window
  rw [hsize, hdrop] at hw
  have hlen := congrArg List.length hw
  rw [window_length, List.length_append] at hlen
  have hoff : s.1.off.toNat = blocks.flatten.length := by
    rw [hring.off, BitVec.toNat_ofNat,
      Nat.mod_eq_of_lt (by rw [packed_length hblocks]; exact hcount)]
  -- where the loop starts
  have hstart :
    (if BitVec.ofNat 64 s.1.size < s.1.off then s.1.off - BitVec.ofNat 64 s.1.size else 0) =
      s.1.off - BitVec.ofNat 64 (min (2 ^ k) blocks.flatten.length) := by
    have hnat : (BitVec.ofNat 64 (2 ^ k)).toNat = 2 ^ k := Nat.mod_eq_of_lt hlt
    rw [hsize]
    split
    · next hfull =>
      rw [BitVec.lt_def, hnat, hoff] at hfull
      rw [min_eq_left hfull.le]
    · next hfew =>
      rw [BitVec.lt_def, hnat, hoff] at hfew
      rw [min_eq_right (Nat.le_of_not_lt hfew), ← hring.off, sub_self]
  rw [LibTpa.dumpTrace, hstart]
  have hiter : (s.1.off - BitVec.ofNat 64 (min (2 ^ k) blocks.flatten.length)).toNat +
      (stale.length + blocks'.flatten.length) = s.1.off.toNat := by
    have hle : min (2 ^ k) blocks.flatten.length ≤ s.1.off.toNat := by
      rw [hoff]; exact min_le_right ..
    have hbv := s.1.off.isLt
    rw [← hlen, BitVec.toNat_sub, BitVec.toNat_ofNat]
    omega
  generalize s.1.off - BitVec.ofNat 64 (min (2 ^ k) blocks.flatten.length) = iter at *
  rw [hlen] at hw
  obtain ⟨f, rfl⟩ := Nat.exists_eq_add_of_le' (show stale.length ≤ fuel by omega)
  rw [← hsize] at hw
  rw [dumpLoop_stale stale hdata hw hiter]
  have hrest := congrArg (List.drop stale.length) hw
  rw [window_drop (Nat.le_add_right ..), List.drop_left, Nat.add_sub_cancel_left] at hrest
  exact dumpLoop_events hblocks' hrest (by rw [toNat_iter hiter (Nat.le_add_right ..)]; omega)
    (by omega)

/-- The dump reports the events whose records are all in the ring, as long as the count of the
records has not wrapped. -/
theorem dumpTrace_reports {k : Nat} (hk : 2 ≤ k) (hk' : k < 64) (noWrap : Bool)
    (records : Nat → TraceRecord) (calls : List (Bool × TraceEvent))
    (hcount : ((traceRun noWrap (2 ^ k) records calls).2.map TraceEvent.count).sum < 2 ^ 64)
    {fuel : Nat} (hfuel : 2 ^ k < fuel) :
    dumpTrace fuel (traceRun noWrap (2 ^ k) records calls).1 =
      some ((survivors (2 ^ k) (traceRun noWrap (2 ^ k) records calls).2).map TraceEvent.report) :=
  (traceRun_recorded hk hk' noWrap records calls).dumpTrace hk' hcount hfuel

def emptyRecords : Nat → TraceRecord := fun _ => ⟨.data, 0, 0, 0⟩

theorem dumpTrace_reports_last :
    dumpTrace 5 (traceRun false 4 emptyRecords
      [(true, ⟨.tcpRtt, fun i => i⟩), (true, ⟨.tcpSndUna, fun _ => 9⟩)]).1 =
      some [⟨.tcpSndUna, [9]⟩] :=
  dumpTrace_reports (k := 2) (by decide) (by decide) false emptyRecords _ (by decide) (by decide)

/-! A buffer that another socket has used. -/

theorem suffix_survivors {size : Nat} {l evs : List TraceEvent} (h : l <:+ evs)
    (hfit : (l.map TraceEvent.count).sum ≤ size) : l <:+ survivors size evs := by
  induction evs with
  | nil => exact h
  | cons e evs ih =>
    rw [survivors]
    split
    · exact h
    · next hfull =>
      rcases List.suffix_cons_iff.mp h with rfl | h
      · exact absurd hfit hfull
      · exact ih h

theorem survivors_append_cons {size : Nat} (former : List TraceEvent) {e : TraceEvent}
    {own : List TraceEvent} (hfull : size < ((e :: own).map TraceEvent.count).sum) :
    survivors size (former ++ e :: own) = survivors size own := by
  induction former with
  | nil => exact if_neg (Nat.not_le.mpr hfull)
  | cons a former ih =>
    rw [List.cons_append, survivors, if_neg, ih]
    rw [List.map_cons, List.sum_cons, List.map_append, List.sum_append]
    omega

private theorem traceCall_fst (noWrap : Bool) (t : TsockTrace) (evs : List TraceEvent)
    (c : Bool × TraceEvent) : traceCall noWrap (t, evs) c =
      ((traceCall noWrap (t, []) c).1, evs ++ (traceCall noWrap (t, []) c).2) := by
  unfold traceCall
  split
  · rw [List.append_nil]
  dsimp only
  split
  · rw [List.append_nil]
  · rfl

theorem traceCalls_from (noWrap : Bool) (calls : List (Bool × TraceEvent)) (t : TsockTrace)
    (evs : List TraceEvent) : calls.foldl (traceCall noWrap) (t, evs) =
      ((traceCalls noWrap t calls).1, evs ++ (traceCalls noWrap t calls).2) := by
  unfold traceCalls
  induction calls generalizing t evs with
  | nil => rw [List.foldl_nil, List.foldl_nil, List.append_nil]
  | cons c calls ih =>
    rcases hc : traceCall noWrap (t, []) c with ⟨t₁, evs₁⟩
    rw [List.foldl_cons, List.foldl_cons, traceCall_fst, hc, ih, ih t₁ evs₁, List.append_assoc]

/-- The dump of a buffer that was used before reports the events of its socket alone if and only
if no event of the sockets before is whole in the ring any more. -/
theorem reusedTrace_reports_iff {k : Nat} (hk : 2 ≤ k) (hk' : k < 64) (noWrap : Bool)
    (records : Nat → TraceRecord) (former own : List (Bool × TraceEvent))
    {t t' : TsockTrace} {evs evs' : List TraceEvent}
    (hformer : traceRun noWrap (2 ^ k) records former = (t, evs))
    (hown : traceCalls noWrap (tsockTraceInit (2 ^ k) t) own = (t', evs'))
    (hcount : ((evs ++ evs').map TraceEvent.count).sum < 2 ^ 64) {fuel : Nat}
    (hfuel : 2 ^ k < fuel) :
    dumpTrace fuel t' = some ((survivors (2 ^ k) evs').map TraceEvent.report) ↔
      ∀ e ∈ evs.getLast?, 2 ^ k < ((e :: evs').map TraceEvent.count).sum := by
  have hrec : RecordedIn (2 ^ k) (t', evs ++ evs') := by
    have h := traceRun_recorded hk hk' noWrap records former
    rw [hformer] at h
    have h' := h.foldl (apart_two_pow hk') (four_le_two_pow hk) noWrap own
    have hinit : tsockTraceInit (2 ^ k) t = t := by rw [tsockTraceInit, ← h.1]
    rw [hinit] at hown
    rwa [traceCalls_from, hown] at h'
  rw [hrec.dumpTrace hk' hcount hfuel, Option.some_inj]
  dsimp only
  rcases List.eq_nil_or_concat evs with rfl | ⟨l, e, rfl⟩
  · exact ⟨fun _ e he => absurd he (by simp), fun _ => rfl⟩
  rw [List.concat_eq_append, List.append_assoc, List.singleton_append, List.getLast?_append_cons,
    List.getLast?_singleton]
  constructor
  · intro heq e' he'
    obtain rfl := Option.mem_some_iff.mp he'
    by_contra hfit
    -- the last event before the socket's own survives with them
    have hsuf := suffix_survivors (l := e :: evs') (List.suffix_append l _) (Nat.le_of_not_lt hfit)
    have hown' : survivors (2 ^ k) evs' = evs' := survivors_of_le (by
      rw [List.map_cons, List.sum_cons] at hfit
      omega)
    have hlen := congrArg List.length heq
    have hle := hsuf.length_le
    rw [List.length_map, List.length_map, hown'] at hlen
    rw [List.length_cons] at hle
    omega
  · intro hall
    rw [survivors_append_cons l (hall e rfl)]

/-- The buffer of a closed socket goes to a new one, and the dump reports what the old one did. -/
theorem reusedTrace_reports_former :
    let t := (traceRun false 4 emptyRecords [(true, ⟨.tcpSndUna, fun _ => 9⟩)]).1
    let s := traceCalls false (tsockTraceInit 4 t) [(true, ⟨.tcpDupack, fun _ => 7⟩)]
    (survivors 4 s.2).map TraceEvent.report = [⟨.tcpDupack, [7]⟩] ∧
      dumpTrace 5 s.1 = some [⟨.tcpSndUna, [9]⟩, ⟨.tcpDupack, [7]⟩] := by
  decide

end LibTpa
