/- LibTpa/Output/OptRoundTrip
   digest: The parser reads back the options that a header carries. -/

import LibTpa.Output.Header
import LibTpa.Input.Options

set_option autoImplicit false

namespace LibTpa

variable {p p' p'' : Packet} {o o' o'' : TcpOpts} {off off' off'' : Nat} {l l' : List Byte}

def Packet.Holds (p : Packet) (off : Nat) (l : List Byte) : Prop :=
  ∀ i b, l[i]? = some b → p.optByte (off + i) = b

private theorem holds_append :
    p.Holds off (l ++ l') ↔ p.Holds off l ∧ p.Holds (off + l.length) l' := by
  constructor
  · intro h
    constructor
    · intro i b hb
      have hi : i < l.length := (List.getElem?_eq_some_iff.mp hb).1
      exact h i b (by rw [List.getElem?_append_left hi]; exact hb)
    · intro i b hb
      have hget := h (l.length + i) b (by
        rw [List.getElem?_append_right (by omega), Nat.add_sub_cancel_left]
        exact hb)
      rw [Nat.add_assoc]
      exact hget
  · rintro ⟨h1, h2⟩ i b hb
    by_cases hi : i < l.length
    · rw [List.getElem?_append_left hi] at hb
      exact h1 i b hb
    · rw [List.getElem?_append_right (by omega)] at hb
      have hget := h2 (i - l.length) b hb
      rw [Nat.add_assoc, Nat.add_sub_cancel' (by omega)] at hget
      exact hget

private theorem join16 (x : U16) : (x.extractLsb' 8 8 ++ x.extractLsb' 0 8 : U16) = x := by
  apply BitVec.eq_of_toNat_eq
  have hx := x.isLt
  rw [BitVec.toNat_append, ← Nat.shiftLeft_add_eq_or_of_lt (BitVec.isLt _)]
  simp only [BitVec.extractLsb'_toNat, Nat.shiftRight_eq_div_pow, Nat.shiftLeft_eq]
  omega

private theorem join32 (x : U32) : ((x.extractLsb' 24 8 ++ x.extractLsb' 16 8 : U16) ++
    (x.extractLsb' 8 8 ++ x.extractLsb' 0 8 : U16) : U32) = x := by
  apply BitVec.eq_of_toNat_eq
  have hx := x.isLt
  rw [BitVec.toNat_append, ← Nat.shiftLeft_add_eq_or_of_lt (BitVec.isLt _), BitVec.toNat_append,
    BitVec.toNat_append, ← Nat.shiftLeft_add_eq_or_of_lt (BitVec.isLt _),
    ← Nat.shiftLeft_add_eq_or_of_lt (BitVec.isLt _)]
  simp only [BitVec.extractLsb'_toNat, Nat.shiftRight_eq_div_pow, Nat.shiftLeft_eq]
  omega

private theorem optU16_be16 {x : U16} (h : p.Holds off (be16 x)) : p.optU16 off = x := by
  unfold Packet.optU16
  rw [show p.optByte off = _ from h 0 _ rfl, h 1 _ rfl]
  exact join16 x

private theorem optU32_be32 {x : U32} (h : p.Holds off (be32 x)) : p.optU32 off = x := by
  unfold Packet.optU32 Packet.optU16
  rw [show p.optByte off = _ from h 0 _ rfl, h 1 _ rfl, h 2 _ rfl, h 3 _ rfl]
  exact join32 x

private theorem optSack_blocks : ∀ (blocks : List SackBlock) (off : Nat),
    p.Holds (off + 2) (blocks.map fun blk => be32 blk.start ++ be32 blk.stop).flatten →
      p.optSack off blocks.length = blocks := by
  intro blocks
  induction blocks with
  | nil =>
    intro off _
    rfl
  | cons blk blocks ih =>
    intro off h
    rw [List.map_cons, List.flatten_cons, holds_append, holds_append] at h
    obtain ⟨⟨hstart, hstop⟩, hrest⟩ := h
    have hstop' : p.Holds (off + 6) (be32 blk.stop) := hstop
    have htail := ih (off + 8) (by rw [show off + 8 + 2 = off + 2 + 8 by omega]; exact hrest)
    unfold Packet.optSack at htail ⊢
    rw [List.length_cons, List.range_succ_eq_map, List.map_cons, List.map_map, Nat.mul_zero,
      Nat.add_zero, Nat.add_zero, optU32_be32 hstart, optU32_be32 hstop']
    refine congrArg (List.cons blk) (Eq.trans ?_ htail)
    refine List.map_congr_left fun i _ => ?_
    rw [Function.comp_apply, Nat.succ_eq_add_one,
      show off + 2 + 8 * (i + 1) = off + 8 + 2 + 8 * i by omega,
      show off + 6 + 8 * (i + 1) = off + 8 + 6 + 8 * i by omega]

/-! One option after the other. -/

/-- The parser goes from `off` to `off'` without an error, in no more rounds than bytes. -/
structure Parses (off : Nat) (o : TcpOpts) (p : Packet) (off' : Nat) (o' : TcpOpts) (p' : Packet) :
    Prop where
  le : off ≤ off'
  rounds : ∃ k, k ≤ off' - off ∧ ∀ n ret,
    parseOptsLoop (n + k) off o p ret = parseOptsLoop n off' o' p' ret

namespace Parses

theorem refl (off : Nat) (o : TcpOpts) (p : Packet) : Parses off o p off o p :=
  ⟨le_rfl, 0, Nat.zero_le _, fun _ _ => rfl⟩

theorem trans (h : Parses off o p off' o' p') (h' : Parses off' o' p' off'' o'' p'') :
    Parses off o p off'' o'' p'' := by
  obtain ⟨k, hk, hall⟩ := h.rounds
  obtain ⟨k', hk', hall'⟩ := h'.rounds
  have hle := h.le
  have hle' := h'.le
  refine ⟨hle.trans hle', k' + k, by omega, fun n ret => ?_⟩
  rw [← Nat.add_assoc, hall, hall']

theorem nop (hend : off < p.optLen) (h : p.optByte off = tcpOptNopKind) :
    Parses off o p (off + 1) o p := by
  refine ⟨Nat.le_succ _, 1, by omega, fun n ret => ?_⟩
  conv_lhs => unfold parseOptsLoop
  rw [if_pos hend, if_neg (by rw [h]; decide), if_pos h]

theorem option (kind : Byte) (len : Nat) (h : p.optByte off = kind)
    (hl : p.optByte (off + 1) = BitVec.ofNat 8 len) (hlen : 2 ≤ len ∧ len < 2 ^ 8)
    (hend : off + len ≤ p.optLen) (heol : kind ≠ tcpOptEolKind) (hnop : kind ≠ tcpOptNopKind)
    (hp : parseOpt o p off kind len = .ok (o', p', none)) : Parses off o p (off + len) o' p' := by
  refine ⟨Nat.le_add_right _ _, 1, by omega, fun n ret => ?_⟩
  have hnat : (BitVec.ofNat 8 len).toNat = len := by
    rw [BitVec.toNat_ofNat, Nat.mod_eq_of_lt hlen.2]
  conv_lhs => unfold parseOptsLoop
  rw [if_pos (by omega), h, hl, hnat, if_neg heol, if_neg hnop, if_neg (by omega),
    if_neg (by omega), hp]
  rfl

theorem parsed (h : Parses 0 {} p p.optLen o' p') (hlen : p'.optLen = p.optLen) :
    parseTcpOpts p = (none, o', p') := by
  obtain ⟨k, hk, hall⟩ := h.rounds
  have hdone : ∀ n, parseOptsLoop n p.optLen o' p' none = (none, o', p') := by
    intro n
    cases n with
    | zero => rfl
    | succ n =>
      unfold parseOptsLoop
      rw [if_neg (by omega)]
  unfold parseTcpOpts
  have hfuel := hall (p.optLen - k) none
  rw [Nat.sub_add_cancel (by omega)] at hfuel
  rw [hfuel, hdone]

end Parses

structure Reads (l : List Byte) (f : TcpOpts → TcpOpts) (g : Packet → Packet) : Prop where
  parses : ∀ off o p, p.Holds off l → off + l.length ≤ p.optLen →
    Parses off o p (off + l.length) (f o) (g p)
  only : ∀ p, TsOnly p (g p)

namespace Reads

variable {f f' : TcpOpts → TcpOpts} {g g' : Packet → Packet}

theorem nil : Reads [] id id := ⟨fun off o p _ _ => .refl off o p, TsOnly.refl⟩

theorem append (h : Reads l f g) (h' : Reads l' f' g') : Reads (l ++ l') (f' ∘ f) (g' ∘ g) := by
  refine ⟨fun off o p hold hend => ?_, fun p => (h.only p).trans (h'.only (g p))⟩
  rw [holds_append] at hold
  rw [List.length_append, ← Nat.add_assoc] at hend ⊢
  refine (h.parses off o p hold.1 (by omega)).trans (h'.parses _ _ _ ?_ ?_)
  · rw [(h.only p).eq]
    exact hold.2
  · rw [(h.only p).eq]
    exact hend

theorem bit (b : Bool) (h : Reads l f g) :
    Reads (if b then l else []) (if b then f else id) (if b then g else id) := by
  cases b with
  | true => exact h
  | false => exact nil

theorem of_parses (h : ∀ off o p, p.Holds off l → off + l.length ≤ p.optLen →
    Parses off o p (off + l.length) (f o) p) : Reads l f id := ⟨h, TsOnly.refl⟩

theorem parsed (h : Reads l f g) (hold : p.Holds 0 l) (hlen : p.optLen = l.length) :
    parseTcpOpts p = (none, f {}, g p) := by
  have hp := h.parses 0 {} p hold (by omega)
  rw [Nat.zero_add, ← hlen] at hp
  exact hp.parsed (by rw [(h.only p).eq])

end Reads

/-! The pieces that `fill_opts` writes. -/

private theorem reads_ts (val ecr : U32) : Reads (fillOptTs val ecr)
    (fun o => { o with tsVal := val, tsEcr := ecr, hasTs := true })
    fun p => { p with hasTsOpt := true, tsVal := val, tsEcr := ecr } := by
  refine ⟨fun off o p h hend => ?_, fun p => ⟨rfl⟩⟩
  have hend : off + 12 ≤ p.optLen := hend
  unfold fillOptTs at h
  rw [holds_append, holds_append] at h
  obtain ⟨⟨hhead, hval⟩, hecr⟩ := h
  refine ((Parses.nop (by omega) (hhead 0 _ rfl)).trans (.nop (by omega) (hhead 1 _ rfl))).trans ?_
  refine .option tcpOptTsKind 10 (hhead 2 _ rfl) (hhead 3 _ rfl) (by decide) (by omega) (by decide)
    (by decide) ?_
  have hval : p.optU32 (off + 1 + 1 + 2) = val := optU32_be32 hval
  have hecr : p.optU32 (off + 1 + 1 + 6) = ecr := optU32_be32 hecr
  rw [← hval, ← hecr]
  rfl

private theorem reads_mss (x : U16) : Reads ([2, 4] ++ be16 x)
    (fun o => { o with mss := x, hasMss := true }) id := by
  refine .of_parses fun off o p h hend => ?_
  rw [holds_append] at h
  refine .option tcpOptMssKind 4 (h.1 0 _ rfl) (h.1 1 _ rfl) (by decide) hend (by decide)
    (by decide) ?_
  rw [← optU16_be16 h.2]
  rfl

private theorem reads_wscale : Reads [3, 3, BitVec.ofNat 8 tcpWscaleDefault, 1]
    (fun o => { o with wscale := tcpWscaleDefault, hasWscale := true }) id := by
  refine .of_parses fun off o p h hend => ?_
  have hend : off + 4 ≤ p.optLen := hend
  have hopt : Parses off o p (off + 3)
      { o with wscale := tcpWscaleDefault, hasWscale := true } p := by
    refine .option tcpOptWscaleKind 3 (h 0 _ rfl) (h 1 _ rfl) (by decide) (by omega) (by decide)
      (by decide) ?_
    change Except.ok ({ o with wscale := min (p.optByte (off + 2)).toNat tcpWscaleMax
                               hasWscale := true }, p, none) = _
    rw [h 2 _ rfl]
    rfl
  exact hopt.trans (.nop (by omega) (h 3 _ rfl))

private theorem reads_sackPerm :
    Reads [4, 2, 1, 1] (fun o => { o with hasSackPerm := true }) id := by
  refine .of_parses fun off o p h hend => ?_
  have hend : off + 4 ≤ p.optLen := hend
  have hopt : Parses off o p (off + 2) { o with hasSackPerm := true } p :=
    .option tcpOptSackPermKind 2 (h 0 _ rfl) (h 1 _ rfl) (by decide) (by omega) (by decide)
      (by decide) rfl
  exact (hopt.trans (.nop (by omega) (h 2 _ rfl))).trans (.nop (by omega) (h 3 _ rfl))

private theorem sackBytes_length (blocks : List SackBlock) :
    (blocks.map fun blk => be32 blk.start ++ be32 blk.stop).flatten.length = 8 * blocks.length := by
  induction blocks with
  | nil => rfl
  | cons blk blocks ih =>
    have h32 : ∀ x : U32, (be32 x).length = 4 := fun _ => rfl
    rw [List.map_cons, List.flatten_cons, List.length_append, ih, List.length_append, h32, h32,
      List.length_cons]
    omega

private theorem reads_sack {blocks : List SackBlock} (hfew : blocks.length ≤ 3) :
    Reads ([1, 1, 5, BitVec.ofNat 8 (tcpOptSackLen blocks.length)] ++
      (blocks.map fun blk => be32 blk.start ++ be32 blk.stop).flatten)
      (fun o => { o with sackBlocks := blocks }) id := by
  refine .of_parses fun off o p h hend => ?_
  rw [holds_append] at h
  obtain ⟨hhead, hbody⟩ := h
  rw [List.length_append, sackBytes_length] at hend ⊢
  change off + (4 + 8 * blocks.length) ≤ p.optLen at hend
  change Parses off o p (off + (4 + 8 * blocks.length)) _ _
  refine ((Parses.nop (by omega) (hhead 0 _ rfl)).trans (.nop (by omega) (hhead 1 _ rfl))).trans ?_
  rw [show off + (4 + 8 * blocks.length) = off + 1 + 1 + (2 + 8 * blocks.length) by omega]
  refine .option tcpOptSackKind _ (hhead 2 _ rfl) (hhead 3 _ rfl) (by omega) (by omega) (by decide)
    (by decide) ?_
  have hblocks := optSack_blocks blocks (off + 1 + 1) hbody
  unfold parseOpt
  rw [if_neg (by decide), if_neg (by decide), if_neg (by decide), if_neg (by decide), if_pos rfl,
    if_neg (by unfold tcpMaxNrSackBlock; omega), if_neg (by omega),
    show (2 + 8 * blocks.length - 2) / 8 = blocks.length by omega, hblocks]

def encodedOpts (cfg : TcpCfg) (s : St) (b : OptBits) : TcpOpts where
  mss := if b.mss then calcSndMss cfg s.tsock.isIpv6 b.ts false 0 else 0
  hasMss := b.mss
  wscale := if b.wscale then tcpWscaleDefault else 0
  hasWscale := b.wscale
  tsVal := if b.ts then usToTcpTs s.worker.tsUs else 0
  tsEcr := 0
  hasTs := b.ts
  hasSackPerm := b.sackPerm
  sackBlocks := if b.sack then s.tsock.rcv.sackBlocks else []

def Packet.stamped (p : Packet) (s : St) (b : OptBits) : Packet :=
  if b.ts then { p with hasTsOpt := true, tsVal := usToTcpTs s.worker.tsUs, tsEcr := 0 } else p

private theorem bit_length (b : Bool) (l : List Byte) :
    (if b then l else []).length = if b then l.length else 0 := by
  cases b <;> rfl

theorem fillOpts_length (cfg : TcpCfg) (s : St) (flags : TcpFlags) :
    (fillOpts cfg s (enabledOpts s.tsock flags)).length = calcTcpOptLen s.tsock flags := by
  unfold fillOpts fillUncommonOpts calcTcpOptLen
  simp only [List.length_append, bit_length, sackBytes_length]
  unfold tcpOptMssSpace tcpOptWscaleSpace tcpOptSackPermSpace tcpOptSackSpace tcpOptTsSpace
  have hts : ∀ a b, (fillOptTs a b).length = 12 := fun _ _ => rfl
  have h16 : ∀ x, (be16 x).length = 2 := fun _ => rfl
  simp only [hts, h16, List.length_cons, List.length_nil, Nat.zero_add, Nat.reduceAdd]
  omega

theorem fillOpts_parsed (cfg : TcpCfg) (s : St) (b : OptBits)
    (hfew : s.tsock.rcv.sackBlocks.length ≤ 3) (h : p.Holds 0 (fillOpts cfg s b))
    (hlen : p.optLen = (fillOpts cfg s b).length) :
    parseTcpOpts p = (none, encodedOpts cfg s b, p.stamped s b) := by
  have hreads := ((reads_ts (usToTcpTs s.worker.tsUs) 0).bit b.ts).append
    (((((reads_mss (calcSndMss cfg s.tsock.isIpv6 b.ts false 0)).bit b.mss).append
      (reads_wscale.bit b.wscale)).append (reads_sackPerm.bit b.sackPerm)).append
        ((reads_sack hfew).bit b.sack))
  rw [hreads.parsed h hlen]
  obtain ⟨ts, mss, wscale, sackPerm, sack⟩ := b
  cases ts <;> cases mss <;> cases wscale <;> cases sackPerm <;> cases sack <;> rfl

/-- The round trip: `calc_tcp_opt_len` is the length of what `fill_opts` writes and
fits the header, and from a packet with these options, whatever stands behind them,
the parser gets what was encoded. -/
structure OptsReadBack (cfg : TcpCfg) (s : St) (flags : TcpFlags) : Prop where
  length : (fillOpts cfg s (enabledOpts s.tsock flags)).length = calcTcpOptLen s.tsock flags
  aligned : calcTcpOptLen s.tsock flags % 4 = 0
  short : calcTcpOptLen s.tsock flags ≤ 40
  parsed : ∀ (p : Packet) (rest : List Byte), p.optLen = calcTcpOptLen s.tsock flags →
    p.optArea = fillOpts cfg s (enabledOpts s.tsock flags) ++ rest →
    parseTcpOpts p = (none, encodedOpts cfg s (enabledOpts s.tsock flags),
      p.stamped s (enabledOpts s.tsock flags))

private theorem holds_optArea {l rest : List Byte} (h : p.optArea = l ++ rest) : p.Holds 0 l := by
  intro i b hb
  have hi : i < l.length := (List.getElem?_eq_some_iff.mp hb).1
  rw [Packet.optByte, h, Nat.zero_add, List.getD_eq_getElem?_getD, List.getElem?_append_left hi, hb]
  rfl

private theorem bit_space (b : Bool) {n : Nat} (h : n % 4 = 0) :
    (if b then n else 0) % 4 = 0 ∧ (if b then n else 0) ≤ n := by
  cases b
  · exact ⟨rfl, Nat.zero_le n⟩
  · exact ⟨h, le_rfl⟩

private theorem enabledOpts_sack (t : TcpSock) (flags : TcpFlags)
    (h : (enabledOpts t flags).sack = true) : (enabledOpts t flags).mss = false ∧
      (enabledOpts t flags).wscale = false ∧ (enabledOpts t flags).sackPerm = false := by
  have hsyn : flags.syn = false := by
    unfold enabledOpts at h
    simp only [Bool.and_eq_true, Bool.not_eq_true'] at h
    exact h.1
  unfold enabledOpts
  rw [hsyn]
  exact ⟨rfl, rfl, rfl⟩

private theorem calcTcpOptLen_bounds (t : TcpSock) (flags : TcpFlags)
    (hfew : t.rcv.sackBlocks.length ≤ 3) :
    calcTcpOptLen t flags % 4 = 0 ∧ calcTcpOptLen t flags ≤ 40 := by
  have hsack := enabledOpts_sack t flags
  unfold calcTcpOptLen
  dsimp only
  generalize enabledOpts t flags = b at hsack
  have hts := bit_space b.ts (n := tcpOptTsSpace) rfl
  -- SACK blocks leave room for the time stamps only
  cases hb : b.sack with
  | true =>
    obtain ⟨hmss, hws, hperm⟩ := hsack hb
    have hspace : tcpOptSackSpace t.rcv.sackBlocks.length = 4 + 8 * t.rcv.sackBlocks.length := by
      unfold tcpOptSackSpace
      omega
    unfold tcpOptTsSpace at *
    rw [hmss, hws, hperm, hspace]
    simp only [Bool.false_eq_true, if_false, if_true]
    omega
  | false =>
    have hmss := bit_space b.mss (n := tcpOptMssSpace) rfl
    have hws := bit_space b.wscale (n := tcpOptWscaleSpace) rfl
    have hperm := bit_space b.sackPerm (n := tcpOptSackPermSpace) rfl
    unfold tcpOptTsSpace tcpOptMssSpace tcpOptWscaleSpace tcpOptSackPermSpace at *
    simp only [Bool.false_eq_true, if_false]
    omega

theorem optsReadBack (cfg : TcpCfg) (s : St) (flags : TcpFlags)
    (hfew : s.tsock.rcv.sackBlocks.length ≤ 3) : OptsReadBack cfg s flags := by
  obtain ⟨haligned, hshort⟩ := calcTcpOptLen_bounds s.tsock flags hfew
  have hlength := fillOpts_length cfg s flags
  refine ⟨hlength, haligned, hshort, ?_⟩
  intro p rest hlen harea
  exact fillOpts_parsed cfg s _ hfew (holds_optArea harea) (hlen.trans hlength.symm)

end LibTpa
