/- LibTpa/Input/Options
   digest: The options of a received segment. -/

import LibTpa.Sock.State

set_option autoImplicit false

namespace LibTpa

/-- `struct tcp_opts`; `nr_sack` is the number of `sackBlocks`. -/
structure TcpOpts where
  mss : U16 := 0
  hasMss : Bool := false
  wscale : Nat := 0
  hasWscale : Bool := false
  tsVal : U32 := 0
  tsEcr : U32 := 0
  hasTs : Bool := false
  hasSackPerm : Bool := false
  sackBlocks : List SackBlock := []
  deriving DecidableEq

def Packet.optByte (p : Packet) (off : Nat) : Byte := p.optArea.getD off 0

def Packet.optU16 (p : Packet) (off : Nat) : U16 := p.optByte off ++ p.optByte (off + 1)

def Packet.optU32 (p : Packet) (off : Nat) : U32 := p.optU16 off ++ p.optU16 (off + 2)

def Packet.optSack (p : Packet) (off n : Nat) : List SackBlock :=
  (List.range n).map fun i => ⟨p.optU32 (off + 2 + 8 * i), p.optU32 (off + 6 + 8 * i)⟩

def tcpOptEolKind : Byte := 0
def tcpOptNopKind : Byte := 1
def tcpOptMssKind : Byte := 2
def tcpOptWscaleKind : Byte := 3
def tcpOptSackPermKind : Byte := 4
def tcpOptSackKind : Byte := 5
def tcpOptTsKind : Byte := 8

/-- The option of kind `kind` and length `len` at `off`: what it adds to the
options and to the packet, or the code that ends the parse. -/
def parseOpt (o : TcpOpts) (p : Packet) (off : Nat) (kind : Byte) (len : Nat) :
    Except Code (TcpOpts × Packet × Option Code) :=
  if kind = tcpOptMssKind then .ok ({ o with mss := p.optU16 (off + 2), hasMss := true }, p, none)
  else if kind = tcpOptWscaleKind then
    .ok ({ o with wscale := min (p.optByte (off + 2)).toNat tcpWscaleMax, hasWscale := true }, p,
      none)
  else if kind = tcpOptTsKind then
    let val := p.optU32 (off + 2)
    let ecr := p.optU32 (off + 6)
    .ok ({ o with tsVal := val, tsEcr := ecr, hasTs := true },
      { p with hasTsOpt := true, tsVal := val, tsEcr := ecr }, none)
  else if kind = tcpOptSackPermKind then .ok ({ o with hasSackPerm := true }, p, none)
  else if kind = tcpOptSackKind then
    if 2 + 8 * tcpMaxNrSackBlock < len then .error .errInvalidTcpOptLen
    else if (len - 2) % 8 ≠ 0 then .error .errInvalidTcpOptLen
    else .ok ({ o with sackBlocks := p.optSack off ((len - 2) / 8) }, p, none)
  else .ok (o, p, some .errInvalidTcpOptType)

/-- The loop of `parse_tcp_opts`. Every option has a byte of its own, so
`opt_len` rounds are enough. -/
def parseOptsLoop : Nat → Nat → TcpOpts → Packet → Option Code → Option Code × TcpOpts × Packet
  | 0, _, o, p, ret => (ret, o, p)
  | n + 1, off, o, p, ret =>
    if off < p.optLen then
      let kind := p.optByte off
      let len := (p.optByte (off + 1)).toNat
      if kind = tcpOptEolKind then (none, o, p)
      else if kind = tcpOptNopKind then parseOptsLoop n (off + 1) o p ret
      else if len < 2 then (some .errInvalidTcpOptLen, o, p)
      else if p.optLen < off + len then (some .errInvalidTcpOptLen, o, p)
      else
        match parseOpt o p off kind len with
        | .error e => (some e, o, p)
        | .ok (o, p, e) => parseOptsLoop n (off + len) o p (e <|> ret)
    else (ret, o, p)

def parseTcpOpts (p : Packet) : Option Code × TcpOpts × Packet :=
  parseOptsLoop p.optLen 0 {} p none

/-- `parse_ts_opt_fast`. It reads twelve bytes whatever `opt_len` says. -/
def parseTsOptFast (p : Packet) : Packet :=
  if p.optU32 0 = 0x0101080a then
    { p with tsVal := p.optU32 4, tsEcr := p.optU32 8, hasTsOpt := true }
  else p

structure TsOnly (p q : Packet) : Prop where
  eq : q = { p with tsVal := q.tsVal, tsEcr := q.tsEcr, hasTsOpt := q.hasTsOpt }

theorem TsOnly.refl (p : Packet) : TsOnly p p := ⟨rfl⟩

theorem TsOnly.trans {p q r : Packet} (h : TsOnly p q) (h' : TsOnly q r) : TsOnly p r := by
  constructor
  rw [h'.eq, h.eq]

theorem parseOpt_spec {o o' : TcpOpts} {p p' : Packet} {off len : Nat} {kind : Byte}
    {e : Option Code} (h : parseOpt o p off kind len = .ok (o', p', e)) :
    TsOnly p p' ∧ (o.wscale ≤ tcpWscaleMax → o'.wscale ≤ tcpWscaleMax) := by
  unfold parseOpt at h
  split at h
  · cases h
    exact ⟨.refl _, id⟩
  split at h
  · cases h
    exact ⟨.refl _, fun _ => Nat.min_le_right _ _⟩
  split at h
  · cases h
    exact ⟨⟨rfl⟩, id⟩
  split at h
  · cases h
    exact ⟨.refl _, id⟩
  split at h
  · split at h
    · cases h
    split at h
    · cases h
    · cases h
      exact ⟨.refl _, id⟩
  · cases h
    exact ⟨.refl _, id⟩

theorem parseOptsLoop_spec (n : Nat) : ∀ (off : Nat) (o : TcpOpts) (p : Packet) (ret : Option Code),
    o.wscale ≤ tcpWscaleMax → TsOnly p (parseOptsLoop n off o p ret).2.2 ∧
      (parseOptsLoop n off o p ret).2.1.wscale ≤ tcpWscaleMax := by
  induction n with
  | zero =>
    intro off o p ret hw
    exact ⟨.refl p, hw⟩
  | succ n ih =>
    intro off o p ret hw
    unfold parseOptsLoop
    split
    swap
    · exact ⟨.refl p, hw⟩
    dsimp only
    split
    · exact ⟨.refl p, hw⟩
    split
    · exact ih _ _ _ _ hw
    split
    · exact ⟨.refl p, hw⟩
    split
    · exact ⟨.refl p, hw⟩
    split
    · exact ⟨.refl p, hw⟩
    · next o' p' e he =>
      obtain ⟨h1, h2⟩ := parseOpt_spec he
      obtain ⟨h3, h4⟩ := ih (off + (p.optByte (off + 1)).toNat) o' p' (e <|> ret) (h2 hw)
      exact ⟨h1.trans h3, h4⟩

theorem parseTcpOpts_spec (p : Packet) : TsOnly p (parseTcpOpts p).2.2 ∧
    (parseTcpOpts p).2.1.wscale ≤ tcpWscaleMax :=
  parseOptsLoop_spec p.optLen 0 {} p none (Nat.zero_le _)

structure SameArea (p q : Packet) : Prop where
  area : q.optArea = p.optArea
  len : q.optLen = p.optLen

inductive SameRound : Except Code (TcpOpts × Packet × Option Code) →
    Except Code (TcpOpts × Packet × Option Code) → Prop
  | error (e : Code) : SameRound (.error e) (.error e)
  | ok (o : TcpOpts) (e : Option Code) {p q : Packet} (h : SameArea p q) :
      SameRound (.ok (o, p, e)) (.ok (o, q, e))

theorem parseOpt_area {p q : Packet} (h : SameArea p q) (o : TcpOpts) (off : Nat) (kind : Byte)
    (len : Nat) : SameRound (parseOpt o p off kind len) (parseOpt o q off kind len) := by
  have h8 : ∀ i, q.optByte i = p.optByte i := fun i => by unfold Packet.optByte; rw [h.area]
  have h16 : ∀ i, q.optU16 i = p.optU16 i := fun i => by unfold Packet.optU16; rw [h8, h8]
  have h32 : ∀ i, q.optU32 i = p.optU32 i := fun i => by unfold Packet.optU32; rw [h16, h16]
  have hsack : ∀ i n, q.optSack i n = p.optSack i n := fun i n => by
    unfold Packet.optSack
    simp only [h32]
  unfold parseOpt
  simp only [h8, h16, h32, hsack]
  split
  · exact .ok _ _ h
  split
  · exact .ok _ _ h
  split
  · exact .ok _ _ ⟨h.area, h.len⟩
  split
  · exact .ok _ _ h
  split
  · split
    · exact .error _
    split
    · exact .error _
    · exact .ok _ _ h
  · exact .ok _ _ h

theorem parseOptsLoop_area (n : Nat) :
    ∀ (off : Nat) (o : TcpOpts) (p q : Packet) (ret : Option Code), SameArea p q →
      (parseOptsLoop n off o q ret).2.1 = (parseOptsLoop n off o p ret).2.1 := by
  induction n with
  | zero =>
    intro off o p q ret _
    rfl
  | succ n ih =>
    intro off o p q ret h
    have h8 : ∀ i, q.optByte i = p.optByte i := fun i => by unfold Packet.optByte; rw [h.area]
    have hround := parseOpt_area h o off (p.optByte off) (p.optByte (off + 1)).toNat
    unfold parseOptsLoop
    dsimp only
    rw [h.len, h8, h8]
    by_cases hend : off < p.optLen
    swap
    · rw [if_neg hend, if_neg hend]
    rw [if_pos hend, if_pos hend]
    by_cases heol : p.optByte off = tcpOptEolKind
    · rw [if_pos heol, if_pos heol]
    rw [if_neg heol, if_neg heol]
    by_cases hnop : p.optByte off = tcpOptNopKind
    · rw [if_pos hnop, if_pos hnop]
      exact ih _ _ _ _ _ h
    rw [if_neg hnop, if_neg hnop]
    split
    · rfl
    split
    · rfl
    generalize parseOpt o p off (p.optByte off) (p.optByte (off + 1)).toNat = r at hround ⊢
    generalize parseOpt o q off (p.optByte off) (p.optByte (off + 1)).toNat = r' at hround ⊢
    cases hround with
    | error e => rfl
    | ok o' e h' => exact ih _ _ _ _ _ h'

theorem parseTcpOpts_area {p q : Packet} (h : SameArea p q) :
    (parseTcpOpts q).2.1 = (parseTcpOpts p).2.1 := by
  unfold parseTcpOpts
  rw [h.len]
  exact parseOptsLoop_area _ _ _ _ _ _ h

theorem parseTcpOpts_toRead (p : Packet) (l : List (List Byte)) :
    (parseTcpOpts { p with toRead := l }).2.1 = (parseTcpOpts p).2.1 :=
  parseTcpOpts_area ⟨rfl, rfl⟩

namespace Packet

variable (p : Packet)

@[simp] theorem parsed_id : (parseTcpOpts p).2.2.id = p.id := by rw [(parseTcpOpts_spec p).1.eq]
@[simp] theorem parsed_len : (parseTcpOpts p).2.2.len = p.len := by rw [(parseTcpOpts_spec p).1.eq]
@[simp] theorem parsed_seq : (parseTcpOpts p).2.2.seq = p.seq := by rw [(parseTcpOpts_spec p).1.eq]
@[simp] theorem parsed_ack : (parseTcpOpts p).2.2.ack = p.ack := by rw [(parseTcpOpts_spec p).1.eq]
@[simp] theorem parsed_flags : (parseTcpOpts p).2.2.flags = p.flags := by
  rw [(parseTcpOpts_spec p).1.eq]

end Packet

end LibTpa
