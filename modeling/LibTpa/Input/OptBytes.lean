/- LibTpa/Input/OptBytes
   digest: Which bytes the option parser reads. -/

import LibTpa.Input.Options

set_option autoImplicit false

namespace LibTpa

variable {p q : Packet} {a : List Byte} {o o' : TcpOpts} {e : Option Code} {off len : Nat}
  {kind k c : Byte}

/-- Where the fields that the parser reads of an option end, counted from its kind byte.
A SACK option is read as far as its length says. -/
def optFieldEnd (kind : Byte) : Nat :=
  if kind = tcpOptMssKind then 4
  else if kind = tcpOptWscaleKind then 3
  else if kind = tcpOptTsKind then 10
  else 2

/-- The walk over the options comes to one that is long enough for the parser, but not
for the fields that the parser reads of it before `opt_len`. -/
def overhangsFrom : Nat → Nat → Packet → Bool
  | 0, _, _ => false
  | n + 1, off, p =>
    if off < p.optLen then
      let kind := p.optByte off
      let len := (p.optByte (off + 1)).toNat
      if kind = tcpOptEolKind then false
      else if kind = tcpOptNopKind then overhangsFrom n (off + 1) p
      else if len < 2 ∨ p.optLen < off + len then false
      else if p.optLen < off + optFieldEnd kind then true
      else if kind = tcpOptSackKind ∧ (2 + 8 * tcpMaxNrSackBlock < len ∨ (len - 2) % 8 ≠ 0) then
        false
      else overhangsFrom n (off + len) p
    else false

def Packet.overhangs (p : Packet) : Bool := overhangsFrom p.optLen 0 p

def Packet.setOptArea (p : Packet) (a : List Byte) : Packet := { p with optArea := a }

structure SameOptions (p q : Packet) : Prop where
  eq : q = p.setOptArea q.optArea
  bytes : ∀ i, i < p.optLen → q.optByte i = p.optByte i

/-- The parser returned the same code and filled the same options, and it left the same
time stamps and flags in the packet. -/
structure SameOutcome (r r' : Option Code × TcpOpts × Packet) : Prop where
  code : r'.1 = r.1
  opts : r'.2.1 = r.2.1
  stamps : r'.2.2.tsVal = r.2.2.tsVal ∧ r'.2.2.tsEcr = r.2.2.tsEcr
  flag : r'.2.2.hasTsOpt = r.2.2.hasTsOpt

/-! Without an overhang the bytes behind the options do not matter. -/

private theorem optU16_setOptArea (h : ∀ i, i < p.optLen → (p.setOptArea a).optByte i = p.optByte i)
    (ho : off + 2 ≤ p.optLen) : (p.setOptArea a).optU16 off = p.optU16 off := by
  unfold Packet.optU16
  rw [h off (by omega), h (off + 1) (by omega)]

private theorem optU32_setOptArea (h : ∀ i, i < p.optLen → (p.setOptArea a).optByte i = p.optByte i)
    (ho : off + 4 ≤ p.optLen) : (p.setOptArea a).optU32 off = p.optU32 off := by
  unfold Packet.optU32
  rw [optU16_setOptArea h (by omega), optU16_setOptArea h (by omega)]

private theorem optSack_setOptArea
    (h : ∀ i, i < p.optLen → (p.setOptArea a).optByte i = p.optByte i) (n : Nat)
    (ho : off + 2 + 8 * n ≤ p.optLen) :
    (p.setOptArea a).optSack off n = p.optSack off n := by
  apply List.map_congr_left
  intro i hi
  have hlt := List.mem_range.mp hi
  rw [optU32_setOptArea h (by omega), optU32_setOptArea h (by omega)]

private theorem parseOpt_setOptArea
    (h : ∀ i, i < p.optLen → (p.setOptArea a).optByte i = p.optByte i) (o : TcpOpts)
    (hlen : off + len ≤ p.optLen) (hl : 2 ≤ len) (hf : off + optFieldEnd kind ≤ p.optLen) :
    parseOpt o (p.setOptArea a) off kind len =
      (parseOpt o p off kind len).map fun r => (r.1, r.2.1.setOptArea a, r.2.2) := by
  unfold optFieldEnd at hf
  unfold parseOpt
  split
  · next hk =>
    rw [if_pos hk] at hf
    rw [optU16_setOptArea h (by omega)]
    rfl
  next hm =>
  rw [if_neg hm] at hf
  split
  · next hk =>
    rw [if_pos hk] at hf
    rw [h (off + 2) (by omega)]
    rfl
  next hw =>
  rw [if_neg hw] at hf
  split
  · next hk =>
    rw [if_pos hk] at hf
    rw [optU32_setOptArea h (by omega), optU32_setOptArea h (by omega)]
    rfl
  split
  · rfl
  split
  · split
    · rfl
    split
    · rfl
    · rw [optSack_setOptArea h _ (by omega)]
      rfl
  · rfl

private theorem overhangsFrom_parsed (n off : Nat) (h : TsOnly p q) :
    overhangsFrom n off q = overhangsFrom n off p := by
  induction n generalizing off with
  | zero => rfl
  | succ n ih =>
    unfold overhangsFrom
    have hb : ∀ i, q.optByte i = p.optByte i := fun i => by rw [h.eq]; rfl
    have hl : q.optLen = p.optLen := by rw [h.eq]
    dsimp only
    rw [hb, hb, hl, ih, ih]

private theorem parseOpt_sack {r : TcpOpts × Packet × Option Code}
    (h : parseOpt o p off kind len = .ok r) :
    ¬ (kind = tcpOptSackKind ∧ (2 + 8 * tcpMaxNrSackBlock < len ∨ (len - 2) % 8 ≠ 0)) := by
  rintro ⟨rfl, hbad⟩
  unfold parseOpt at h
  rw [if_neg (by decide), if_neg (by decide), if_neg (by decide), if_neg (by decide),
    if_pos rfl] at h
  split at h
  · cases h
  · rw [if_pos (hbad.resolve_left (by assumption))] at h
    cases h

private theorem parseOptsLoop_setOptArea (n : Nat) :
    ∀ (off : Nat) (o : TcpOpts) (p : Packet) (ret : Option Code),
      (∀ i, i < p.optLen → (p.setOptArea a).optByte i = p.optByte i) →
      overhangsFrom n off p = false →
      parseOptsLoop n off o (p.setOptArea a) ret =
        ((parseOptsLoop n off o p ret).1, (parseOptsLoop n off o p ret).2.1,
          (parseOptsLoop n off o p ret).2.2.setOptArea a) := by
  induction n with
  | zero =>
    intro off o p ret h ho
    rfl
  | succ n ih =>
    intro off o p ret h ho
    have hl : (p.setOptArea a).optLen = p.optLen := rfl
    unfold overhangsFrom at ho
    unfold parseOptsLoop
    rw [hl]
    by_cases hend : off < p.optLen
    swap
    · rw [if_neg hend, if_neg hend]
    rw [if_pos hend] at ho
    rw [if_pos hend, if_pos hend, h off hend]
    by_cases heol : p.optByte off = tcpOptEolKind
    · rw [if_pos heol, if_pos heol]
    rw [if_neg heol] at ho
    rw [if_neg heol, if_neg heol]
    by_cases hnop : p.optByte off = tcpOptNopKind
    · rw [if_pos hnop] at ho
      rw [if_pos hnop, if_pos hnop]
      exact ih (off + 1) o p ret h ho
    rw [if_neg hnop] at ho
    rw [if_neg hnop, if_neg hnop]
    by_cases hlast : off + 1 < p.optLen
    swap
    · -- the length byte lies behind the options; whatever it is, the option is refused
      have hcut : ∀ (len : Nat) (x y : Option Code × TcpOpts × Packet),
          (if len < 2 then x else if p.optLen < off + len then x else y) = x := by
        intro len x y
        split
        · rfl
        · rw [if_pos (by omega)]
      rw [hcut, hcut]
    rw [h (off + 1) hlast]
    generalize (p.optByte (off + 1)).toNat = len at ho ⊢
    by_cases h2 : len < 2
    · rw [if_pos h2, if_pos h2]
    rw [if_neg h2, if_neg h2]
    by_cases hle : p.optLen < off + len
    · rw [if_pos hle, if_pos hle]
    rw [if_neg (by omega)] at ho
    rw [if_neg hle, if_neg hle]
    by_cases hf : p.optLen < off + optFieldEnd (p.optByte off)
    · rw [if_pos hf] at ho
      cases ho
    rw [if_neg hf] at ho
    rw [parseOpt_setOptArea h o (by omega) (by omega) (by omega)]
    cases hp : parseOpt o p off (p.optByte off) len with
    | error e => rfl
    | ok r =>
      obtain ⟨o', p', e⟩ := r
      have hts := (parseOpt_spec hp).1
      rw [if_neg (parseOpt_sack hp), ← overhangsFrom_parsed n (off + len) hts] at ho
      refine ih (off + len) o' p' (e <|> ret) (fun i hi => ?_) ho
      rw [hts.eq] at hi ⊢
      exact h i hi

/-! With an overhang the last byte of the field shows what stands behind the options. -/

def fixedOpt (kind : Byte) : Prop :=
  kind = tcpOptMssKind ∨ kind = tcpOptWscaleKind ∨ kind = tcpOptTsKind

/-- The last byte of the field of an option, as the parser keeps it. -/
def lastFieldByte (kind : Byte) (o : TcpOpts) : Byte :=
  if kind = tcpOptMssKind then o.mss.extractLsb' 0 8
  else if kind = tcpOptWscaleKind then BitVec.ofNat 8 o.wscale
  else o.tsEcr.extractLsb' 0 8

private theorem low_append (x y : Byte) : (x ++ y : U16).extractLsb' 0 8 = y := by
  ext i hi
  have hb := BitVec.getLsbD_append (x := x) (y := y) (i := i)
  rw [if_pos hi] at hb
  rw [BitVec.getElem_extractLsb', Nat.zero_add, hb, BitVec.getLsbD_eq_getElem]

private theorem low_append_word (x y : U16) :
    (x ++ y : U32).extractLsb' 0 8 = y.extractLsb' 0 8 := by
  ext i hi
  have hb := BitVec.getLsbD_append (x := x) (y := y) (i := i)
  rw [if_pos (by omega)] at hb
  rw [BitVec.getElem_extractLsb', BitVec.getElem_extractLsb', Nat.zero_add, hb]

private theorem parseOpt_own (hk : fixedOpt kind) (hc : c.toNat ≤ tcpWscaleMax)
    (hb : p.optByte (off + (optFieldEnd kind - 1)) = c)
    (h : parseOpt o p off kind len = .ok (o', q, e)) : lastFieldByte kind o' = c := by
  rcases hk with rfl | rfl | rfl
  · cases h
    exact (low_append ..).trans hb
  · cases h
    change BitVec.ofNat 8 (min (p.optByte (off + 2)).toNat tcpWscaleMax) = c
    rw [show p.optByte (off + 2) = c from hb, Nat.min_eq_left hc, BitVec.ofNat_toNat,
      BitVec.setWidth_eq]
  · cases h
    exact ((low_append_word ..).trans (low_append ..)).trans hb

private theorem parseOpt_other (hk : fixedOpt k) (hne : kind ≠ k)
    (h : parseOpt o p off kind len = .ok (o', q, e)) : lastFieldByte k o' = lastFieldByte k o := by
  unfold parseOpt at h
  split at h
  · next hm =>
    cases h
    subst hm
    rcases hk with rfl | rfl | rfl
    · exact absurd rfl hne
    · rfl
    · rfl
  split at h
  · next hm =>
    cases h
    subst hm
    rcases hk with rfl | rfl | rfl
    · rfl
    · exact absurd rfl hne
    · rfl
  split at h
  · next hm =>
    cases h
    subst hm
    rcases hk with rfl | rfl | rfl
    · rfl
    · rfl
    · exact absurd rfl hne
  split at h
  · cases h
    rfl
  split at h
  · split at h
    · cases h
    split at h
    · cases h
    · cases h
      rfl
  · cases h
    rfl

def PaddedWith (c : Byte) (p : Packet) : Prop :=
  ∀ i, p.optLen ≤ i → i < p.optLen + 10 → p.optByte i = c

private theorem PaddedWith.parsed (h : PaddedWith c p) (ht : TsOnly p q) : PaddedWith c q := by
  rw [ht.eq]
  exact h

private theorem optFieldEnd_le (kind : Byte) : optFieldEnd kind ≤ 10 := by
  unfold optFieldEnd
  split
  · omega
  split
  · omega
  split <;> omega

private theorem parseOptsLoop_last (hk : fixedOpt k) (hc : c.toNat ≤ tcpWscaleMax) (n : Nat) :
    ∀ (off : Nat) (o : TcpOpts) (p : Packet) (ret : Option Code), PaddedWith c p →
      p.optLen < off + optFieldEnd k → lastFieldByte k o = c →
      lastFieldByte k (parseOptsLoop n off o p ret).2.1 = c := by
  induction n with
  | zero =>
    intro off o p ret _ _ hl
    exact hl
  | succ n ih =>
    intro off o p ret hp hrem hl
    unfold parseOptsLoop
    split
    swap
    · exact hl
    next hlt =>
    dsimp only
    split
    · exact hl
    split
    · exact ih _ _ _ _ hp (by omega) hl
    split
    · exact hl
    split
    · exact hl
    split
    · exact hl
    · next o' p' e he =>
      have hts := (parseOpt_spec he).1
      have hlen : p'.optLen = p.optLen := by rw [hts.eq]
      refine ih _ _ _ _ (hp.parsed hts) (by omega) ?_
      by_cases hkind : p.optByte off = k
      · rw [hkind] at he
        have hle := optFieldEnd_le k
        exact parseOpt_own hk hc (hp _ (by omega) (by omega)) he
      · exact (parseOpt_other hk hkind he).trans hl

private theorem parseOpt_ok (o : TcpOpts) (p : Packet) (off : Nat) {kind : Byte} {len : Nat}
    (h : ¬ (kind = tcpOptSackKind ∧
      (2 + 8 * tcpMaxNrSackBlock < len ∨ (len - 2) % 8 ≠ 0))) :
    ∃ r, parseOpt o p off kind len = .ok r := by
  unfold parseOpt
  split
  · exact ⟨_, rfl⟩
  split
  · exact ⟨_, rfl⟩
  split
  · exact ⟨_, rfl⟩
  split
  · exact ⟨_, rfl⟩
  split
  · next hk =>
    rw [if_neg fun hl => h ⟨hk, .inl hl⟩, if_neg fun hm => h ⟨hk, .inr hm⟩]
    exact ⟨_, rfl⟩
  · exact ⟨_, rfl⟩

private theorem fixedOpt.not_sack (h : fixedOpt kind) : ¬ (kind = tcpOptSackKind ∧
    (2 + 8 * tcpMaxNrSackBlock < len ∨ (len - 2) % 8 ≠ 0)) := by
  rintro ⟨rfl, -⟩
  rcases h with h | h | h <;> cases h

private theorem fixedOpt_of_overhang {m : Nat} (hm : off + 2 ≤ m) (h : m < off + optFieldEnd kind) :
    fixedOpt kind := by
  unfold optFieldEnd at h
  split at h
  · next hk => exact .inl hk
  split at h
  · next hk => exact .inr (.inl hk)
  split at h
  · next hk => exact .inr (.inr hk)
  · omega

private theorem overhangsFrom_reads (n : Nat) : ∀ off, overhangsFrom n off p = true →
    ∃ k, fixedOpt k ∧ ∀ (c : Byte) (q : Packet) (o : TcpOpts) (ret : Option Code),
      c.toNat ≤ tcpWscaleMax → q.optLen = p.optLen →
      (∀ i, i < p.optLen → q.optByte i = p.optByte i) → PaddedWith c q →
      lastFieldByte k (parseOptsLoop n off o q ret).2.1 = c := by
  induction n with
  | zero =>
    intro off h
    cases h
  | succ n ih =>
    intro off h
    unfold overhangsFrom at h
    split at h
    swap
    · cases h
    next hend =>
    dsimp only at h
    split at h
    · cases h
    next heol =>
    split at h
    · next hnop =>
      obtain ⟨k, hk, hall⟩ := ih (off + 1) h
      refine ⟨k, hk, fun c q o ret hc hl hb hp => ?_⟩
      unfold parseOptsLoop
      rw [hl, if_pos hend, hb off hend, if_neg heol, if_pos hnop]
      exact hall c q o ret hc hl hb hp
    next hnop =>
    split at h
    · cases h
    next hlen =>
    have hlast : off + 1 < p.optLen := by omega
    have hround : ∀ (q : Packet) (o o' : TcpOpts) (q' : Packet) (e ret : Option Code),
        q.optLen = p.optLen → (∀ i, i < p.optLen → q.optByte i = p.optByte i) →
        parseOpt o q off (p.optByte off) (p.optByte (off + 1)).toNat = .ok (o', q', e) →
        parseOptsLoop (n + 1) off o q ret =
          parseOptsLoop n (off + (p.optByte (off + 1)).toNat) o' q' (e <|> ret) := by
      intro q o o' q' e ret hl hb he
      conv_lhs => unfold parseOptsLoop
      rw [hl, if_pos hend, hb off hend, if_neg heol, if_neg hnop, hb (off + 1) hlast,
        if_neg (by omega), if_neg (by omega), he]
    split at h
    · next hover =>
      have hk := fixedOpt_of_overhang (by omega) hover
      refine ⟨p.optByte off, hk, fun c q o ret hc hl hb hp => ?_⟩
      obtain ⟨⟨o', q', e⟩, he⟩ := parseOpt_ok o q off
        (hk.not_sack : ¬ (_ ∧ (_ < (p.optByte (off + 1)).toNat ∨ _)))
      have hts := (parseOpt_spec he).1
      have hle := optFieldEnd_le (p.optByte off)
      have hl' : q'.optLen = p.optLen := by rw [hts.eq]; exact hl
      rw [hround q o o' q' e ret hl hb he]
      refine parseOptsLoop_last hk hc n _ _ _ _ (hp.parsed hts) (by omega) ?_
      exact parseOpt_own hk hc (hp _ (by omega) (by omega)) he
    split at h
    · cases h
    next hbad =>
    obtain ⟨k, hk, hall⟩ := ih _ h
    refine ⟨k, hk, fun c q o ret hc hl hb hp => ?_⟩
    obtain ⟨⟨o', q', e⟩, he⟩ := parseOpt_ok o q off hbad
    have hts := (parseOpt_spec he).1
    rw [hround q o o' q' e ret hl hb he]
    refine hall c q' o' _ hc (by rw [hts.eq]; exact hl) (fun i hi => ?_) (hp.parsed hts)
    rw [hts.eq]
    exact hb i hi

private def padded (p : Packet) (c : Byte) : Packet :=
  p.setOptArea ((List.range p.optLen).map p.optByte ++ List.replicate 10 c)

private theorem padded_same (p : Packet) (c : Byte) : SameOptions p (padded p c) := by
  refine ⟨rfl, fun i hi => ?_⟩
  change ((List.range p.optLen).map p.optByte ++ List.replicate 10 c).getD i 0 = _
  rw [List.getD_append _ _ _ _ (by simpa using hi)]
  simp [List.getD_eq_getElem?_getD, hi]

private theorem padded_with (p : Packet) (c : Byte) : PaddedWith c (padded p c) := by
  intro i h1 h2
  change ((List.range p.optLen).map p.optByte ++ List.replicate 10 c).getD i 0 = c
  change p.optLen ≤ i at h1
  change i < p.optLen + 10 at h2
  rw [List.getD_append_right _ _ _ _ (by simpa using h1)]
  rw [List.length_map, List.length_range, List.getD_replicate]
  omega

/-- The outcome of the parse depends on the option bytes alone exactly if no field of an
option hangs over their end. -/
theorem parseTcpOpts_local_iff (p : Packet) :
    (∀ q q', SameOptions p q → SameOptions p q' → SameOutcome (parseTcpOpts q) (parseTcpOpts q')) ↔
      p.overhangs = false := by
  constructor
  · intro h
    by_contra hover
    have hover : p.overhangs = true := by simpa using hover
    obtain ⟨k, -, hall⟩ := overhangsFrom_reads p.optLen 0 hover
    have hread : ∀ c : Byte, c.toNat ≤ tcpWscaleMax →
        lastFieldByte k (parseTcpOpts (padded p c)).2.1 = c := fun c hc =>
      hall c (padded p c) {} none hc rfl (padded_same p c).bytes (padded_with p c)
    have hsame := (h (padded p 0) (padded p 1) (padded_same p 0) (padded_same p 1)).opts
    have h0 := hread 0 (by decide)
    have h1 := hread 1 (by decide)
    rw [hsame, h0] at h1
    cases h1
  · intro h q q' hq hq'
    have hparse : ∀ q, SameOptions p q → parseTcpOpts q = ((parseTcpOpts p).1, (parseTcpOpts p).2.1,
        (parseTcpOpts p).2.2.setOptArea q.optArea) := by
      intro q hq
      have hb := hq.bytes
      rw [hq.eq] at hb ⊢
      exact parseOptsLoop_setOptArea p.optLen 0 {} p none hb h
    rw [hparse q hq, hparse q' hq']
    exact ⟨rfl, rfl, ⟨rfl, rfl⟩, rfl⟩

def shortMss (tail : List Byte) : Packet :=
  { Packet.bare 1 0 0 0 {} with optLen := 4, optArea := [1, 1, 2, 2] ++ tail }

/-- The MSS is read from the bytes behind the options. -/
theorem shortMss_reads_payload : SameOptions (shortMss [0, 0]) (shortMss [5, 180]) ∧
    (parseTcpOpts (shortMss [0, 0])).2.1.mss = 0 ∧
    (parseTcpOpts (shortMss [5, 180])).2.1.mss = 1460 ∧
    ¬ SameOutcome (parseTcpOpts (shortMss [0, 0])) (parseTcpOpts (shortMss [5, 180])) := by
  refine ⟨⟨rfl, by decide⟩, by decide, by decide, fun h => ?_⟩
  have hmss := congrArg TcpOpts.mss h.opts
  revert hmss
  decide

end LibTpa
