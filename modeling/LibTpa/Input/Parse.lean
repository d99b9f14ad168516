/- LibTpa/Input/Parse
   digest: From a received frame to a TCP packet: offsets, lengths and what they promise. -/

import LibTpa.Conn.Step

/-!
`parse_tcp_packet` reads its lengths from three fields of the frame and keeps them
in narrow integers. The frame is the memory of its mbuf, of which the `pkt_len`
bytes from `data_off` on were received.
-/

set_option autoImplicit false

namespace LibTpa

/-- The fields of `struct rte_mbuf` that the parser reads, and the memory at
`buf_addr`. -/
structure Frame where
  buf : Nat → Byte
  dataOff : U16
  pktLen : U32
  packetType : U32
  olFlags : BitVec 64

def Frame.u16 (f : Frame) (off : Nat) : U16 := f.buf off ++ f.buf (off + 1)

def Frame.u32 (f : Frame) (off : Nat) : U32 := f.u16 off ++ f.u16 (off + 2)

inductive ParseErr
  | pktIpFrag | errPktHasIpv6Opt | errPktNotTcp | errPktInvalidLen | errBadCsumIpv4 | errBadCsumTcp
  deriving DecidableEq

/-- The checksum functions of DPDK, on the memory and the offset of an IP header. -/
structure Cksum where
  rteIpv4Cksum : (Nat → Byte) → Nat → U16
  rteIpv4UdptcpCksum : (Nat → Byte) → Nat → U16
  rteIpv6UdptcpCksum : (Nat → Byte) → Nat → U16

def rtePtypeL3Ipv4 : U32 := 0x10
def rtePtypeL3Ipv6 : U32 := 0x40
def rtePtypeL4Tcp : U32 := 0x100
def pktRxIpCksumGood : BitVec 64 := 0x80
def pktRxL4CksumGood : BitVec 64 := 0x100
def ipprotoTcp : Byte := 6
def ipFragMask : U16 := 0x3fff

def Frame.hasPtype (f : Frame) (l3 : U32) : Prop :=
  f.packetType &&& (l3 ||| rtePtypeL4Tcp) = l3 ||| rtePtypeL4Tcp

instance (f : Frame) (l3 : U32) : Decidable (f.hasPtype l3) := inferInstanceAs (Decidable (_ = _))

def ip4HdrLen (versionIhl : Byte) : Nat := (versionIhl &&& 0xf).toNat <<< 2

def verifyCsum (c : Cksum) (f : Frame) (l3Off : BitVec 8) (isIpv6 : Bool) : Option ParseErr :=
  if isIpv6 then
    if c.rteIpv6UdptcpCksum f.buf l3Off.toNat ≠ 0 then some .errBadCsumTcp else none
  else if c.rteIpv4Cksum f.buf l3Off.toNat ≠ 0 then some .errBadCsumIpv4
  else if c.rteIpv4UdptcpCksum f.buf l3Off.toNat ≠ 0 then some .errBadCsumTcp
  else none

/-- What the IP header settles: `l4_off` and the locals `csum_flags` and
`ip_payload_len`. -/
structure IpPart where
  csumFlags : BitVec 64
  ipPayloadLen : U32
  l4Off : BitVec 8
  isIpv6 : Bool

/-- The part of `parse_tcp_packet` that reads the IP header. -/
def parseIp (f : Frame) (l3Off : BitVec 8) : Except ParseErr IpPart :=
  let l3 := l3Off.toNat
  if f.hasPtype rtePtypeL3Ipv4 then
    let hdrLen := ip4HdrLen (f.buf l3)
    if f.u16 (l3 + 6) &&& ipFragMask ≠ 0 then .error .pktIpFrag
    else .ok {
      csumFlags := pktRxIpCksumGood ||| pktRxL4CksumGood
      ipPayloadLen := (f.u16 (l3 + 2)).setWidth 32 - BitVec.ofNat 32 hdrLen
      l4Off := l3Off + BitVec.ofNat 8 hdrLen
      isIpv6 := false }
  else if f.hasPtype rtePtypeL3Ipv6 then
    if f.buf (l3 + 6) ≠ ipprotoTcp then .error .errPktHasIpv6Opt
    else .ok {
      csumFlags := pktRxL4CksumGood
      ipPayloadLen := (f.u16 (l3 + 4)).setWidth 32
      l4Off := l3Off + 40
      isIpv6 := true }
  else .error .errPktNotTcp

structure Parsed where
  l2Off : BitVec 8
  l3Off : BitVec 8
  l4Off : BitVec 8
  l5Off : U16
  hdrLen : BitVec 8
  srcPort : U16
  dstPort : U16
  seq : U32
  ack : U32
  wnd : U16
  tcpFlags : Byte
  len : U16
  optLen : BitVec 8
  isIpv6 : Bool

/-- The part of `parse_tcp_packet` that reads the TCP header. -/
def parseTcpHdr (f : Frame) (l2Off l3Off : BitVec 8) (ip : IpPart) : Except ParseErr Parsed :=
  let th := ip.l4Off.toNat
  let tcpHdrLen : U16 := (f.buf (th + 12) >>> 4).setWidth 16 <<< 2
  let l5Off : U16 := ip.l4Off.setWidth 16 + tcpHdrLen
  let hdrLen : BitVec 8 := (l5Off - l2Off.setWidth 16).setWidth 8
  if f.pktLen.toNat < hdrLen.toNat then .error .errPktInvalidLen
  else .ok {
    l2Off := l2Off, l3Off := l3Off, l4Off := ip.l4Off, l5Off := l5Off, hdrLen := hdrLen
    srcPort := f.u16 th
    dstPort := f.u16 (th + 2)
    seq := f.u32 (th + 4)
    ack := f.u32 (th + 8)
    wnd := f.u16 (th + 14)
    tcpFlags := f.buf (th + 13)
    len := (ip.ipPayloadLen - tcpHdrLen.setWidth 32).setWidth 16
    optLen := (tcpHdrLen - 20).setWidth 8
    isIpv6 := ip.isIpv6 }

def parseTcpPacket (c : Cksum) (f : Frame) : Except ParseErr Parsed :=
  let l2Off : BitVec 8 := f.dataOff.setWidth 8
  let l3Off := l2Off + 14
  match parseIp f l3Off with
  | .error e => .error e
  | .ok ip =>
    let bad := if f.olFlags &&& ip.csumFlags ≠ ip.csumFlags then verifyCsum c f l3Off ip.isIpv6
      else none
    match bad with
    | some e => .error e
    | none => parseTcpHdr f l2Off l3Off ip

/-! The lengths as the fields of the frame give them, without wrap-around. -/

namespace Frame

variable (f : Frame)

def l3 : Nat := f.dataOff.toNat + 14

def ipHdrLen : Nat := if f.hasPtype rtePtypeL3Ipv4 then ip4HdrLen (f.buf f.l3) else 40

def ipPayloadLen : Int :=
  if f.hasPtype rtePtypeL3Ipv4 then (f.u16 (f.l3 + 2)).toNat - ip4HdrLen (f.buf f.l3)
  else (f.u16 (f.l3 + 4)).toNat

def l4 : Nat := f.l3 + f.ipHdrLen

def tcpHdrLen : Nat := 4 * (f.buf (f.l4 + 12) >>> 4).toNat

/-- The TCP header has its fixed part, the IP payload holds it, and the frame holds
the IP payload. -/
structure Honest : Prop where
  fixed : 20 ≤ f.tcpHdrLen
  payload : (f.tcpHdrLen : Int) ≤ f.ipPayloadLen
  room : 14 + f.ipHdrLen + f.ipPayloadLen ≤ f.pktLen.toNat

end Frame

/-- What a successful parse promises: a header of legal length, exact offsets, and
a payload inside the frame. -/
structure HeaderSound (f : Frame) (h : Parsed) : Prop where
  hdrMin : 20 ≤ f.tcpHdrLen
  hdrMax : f.tcpHdrLen ≤ 60
  optLen : h.optLen.toNat + 20 = f.tcpHdrLen
  l2Off : h.l2Off.toNat = f.dataOff.toNat
  l3Off : h.l3Off.toNat = f.l3
  l4Off : h.l4Off.toNat = f.l4
  l5Off : h.l5Off.toNat = f.l4 + f.tcpHdrLen
  hdrLen : h.hdrLen.toNat = 14 + f.ipHdrLen + f.tcpHdrLen
  len : (h.len.toNat : Int) = f.ipPayloadLen - f.tcpHdrLen
  inside : h.l5Off.toNat + h.len.toNat ≤ f.dataOff.toNat + f.pktLen.toNat

/-! ### No wrap-around -/

private theorem ip4HdrLen_le (b : Byte) : ip4HdrLen b ≤ 60 := by
  have hb : (b &&& 0xf).toNat ≤ 15 := by
    exact Nat.and_le_right
  unfold ip4HdrLen
  omega

private theorem l3Off_toNat {f : Frame} (hd : f.dataOff.toNat ≤ 128) :
    (f.dataOff.setWidth 8 + 14 : BitVec 8).toNat = f.l3 := by
  unfold Frame.l3
  bv_omega

private structure IpExact (f : Frame) (ip : IpPart) : Prop where
  l4Off : ip.l4Off.toNat = f.l4
  hdrLen : f.ipHdrLen ≤ 60
  payload : (ip.ipPayloadLen.toNat : Int) = f.ipPayloadLen % 2 ^ 32
  payloadMax : f.ipPayloadLen ≤ 65535

private theorem parseIp_exact {f : Frame} {ip : IpPart} (hd : f.dataOff.toNat ≤ 128)
    (h : parseIp f (f.dataOff.setWidth 8 + 14) = .ok ip) : IpExact f ip := by
  have hl3 := l3Off_toNat hd
  have h3 : f.l3 ≤ 142 := by
    unfold Frame.l3
    omega
  simp only [parseIp, hl3] at h
  by_cases h4 : f.hasPtype rtePtypeL3Ipv4
  · rw [if_pos h4] at h
    split at h
    · exact absurd h (by simp)
    have hk := ip4HdrLen_le (f.buf f.l3)
    have hlen : f.ipHdrLen = ip4HdrLen (f.buf f.l3) := if_pos h4
    have hpay : f.ipPayloadLen = (f.u16 (f.l3 + 2)).toNat - ip4HdrLen (f.buf f.l3) := if_pos h4
    rw [← hlen] at h hk hpay
    obtain rfl := Except.ok.inj h
    refine ⟨?_, hk, ?_, ?_⟩
    · simp only [Frame.l4]
      bv_omega
    · bv_omega
    · have := (f.u16 (f.l3 + 2)).isLt
      omega
  · rw [if_neg h4] at h
    split at h
    · split at h
      · exact absurd h (by simp)
      have hlen : f.ipHdrLen = 40 := if_neg h4
      have hpay : f.ipPayloadLen = (f.u16 (f.l3 + 4)).toNat := if_neg h4
      obtain rfl := Except.ok.inj h
      refine ⟨?_, by omega, ?_, ?_⟩
      · simp only [Frame.l4, hlen]
        bv_omega
      · bv_omega
      · have := (f.u16 (f.l3 + 4)).isLt
        omega
    · exact absurd h (by simp)

private theorem parseTcpPacket_ok {c : Cksum} {f : Frame} {h : Parsed}
    (hok : parseTcpPacket c f = .ok h) :
    ∃ ip, parseIp f (f.dataOff.setWidth 8 + 14) = .ok ip ∧
      parseTcpHdr f (f.dataOff.setWidth 8) (f.dataOff.setWidth 8 + 14) ip = .ok h := by
  simp only [parseTcpPacket] at hok
  split at hok
  · exact absurd hok (by simp)
  · rename_i ip hip
    split at hok
    · exact absurd hok (by simp)
    · exact ⟨ip, hip, hok⟩

private theorem tcpHdrLen_toNat (b : Byte) :
    ((b >>> 4).setWidth 16 <<< 2 : U16).toNat = 4 * (b >>> 4).toNat ∧ (b >>> 4).toNat ≤ 15 := by
  have hb : (b >>> 4).toNat ≤ 15 := by
    rw [BitVec.toNat_ushiftRight, Nat.shiftRight_eq_div_pow]
    have := b.isLt
    omega
  refine ⟨?_, hb⟩
  rw [BitVec.toNat_shiftLeft, BitVec.toNat_setWidth, Nat.shiftLeft_eq]
  omega

/-- With the offsets exact, the payload length is the low half of the true one. -/
private structure TcpExact (f : Frame) (h : Parsed) : Prop where
  hdrMax : f.tcpHdrLen ≤ 60
  optLen : (h.optLen.toNat : Int) = (f.tcpHdrLen - 20) % 2 ^ 8
  l2Off : h.l2Off.toNat = f.dataOff.toNat
  l3Off : h.l3Off.toNat = f.l3
  l4Off : h.l4Off.toNat = f.l4
  l5Off : h.l5Off.toNat = f.l4 + f.tcpHdrLen
  hdrLen : h.hdrLen.toNat = 14 + f.ipHdrLen + f.tcpHdrLen
  len : (h.len.toNat : Int) = (f.ipPayloadLen - f.tcpHdrLen) % 2 ^ 16
  payloadMax : f.ipPayloadLen ≤ 65535

private theorem parseTcpPacket_exact {c : Cksum} {f : Frame} {h : Parsed}
    (hd : f.dataOff.toNat ≤ 128) (hok : parseTcpPacket c f = .ok h) : TcpExact f h := by
  obtain ⟨ip, hip, hth⟩ := parseTcpPacket_ok hok
  obtain ⟨hl4, hihl, hpay, hmax⟩ := parseIp_exact hd hip
  have hl3 := l3Off_toNat hd
  have hl2 : (f.dataOff.setWidth 8 : BitVec 8).toNat = f.dataOff.toNat := by bv_omega
  have h4 : f.l4 = f.dataOff.toNat + 14 + f.ipHdrLen := rfl
  obtain ⟨htcp, h15⟩ := tcpHdrLen_toNat (f.buf (f.l4 + 12))
  have htl : 4 * (f.buf (f.l4 + 12) >>> 4).toNat = f.tcpHdrLen := rfl
  simp only [parseTcpHdr, hl4] at hth
  split at hth
  · exact absurd hth (by simp)
  obtain rfl := Except.ok.inj hth
  refine ⟨by omega, ?_, hl2, hl3, hl4, ?_, ?_, ?_, hmax⟩
  all_goals bv_omega

/-- A frame that the parser accepts is described soundly exactly when the lengths
it announces fit one another: `parse_tcp_packet` compares only the header lengths
with `pkt_len`. -/
theorem parseTcpPacket_sound_iff (c : Cksum) (f : Frame) (h : Parsed)
    (hd : f.dataOff.toNat ≤ 128) (hok : parseTcpPacket c f = .ok h) :
    HeaderSound f h ↔ f.Honest := by
  have hx := parseTcpPacket_exact hd hok
  have h4 : f.l4 = f.dataOff.toNat + 14 + f.ipHdrLen := rfl
  have hl5 := hx.l5Off
  have hlen := hx.len
  have hopt := hx.optLen
  have hhdr := hx.hdrMax
  have hpay := hx.payloadMax
  constructor
  · intro hs
    have hsl := hs.len
    have hin := hs.inside
    exact ⟨hs.hdrMin, by omega, by omega⟩
  · rintro ⟨hfix, htcp, hroom⟩
    exact ⟨hfix, hhdr, by omega, hx.l2Off, hx.l3Off, hx.l4Off, hl5, hx.hdrLen, by omega, by omega⟩

/-- What the NIC's packet type says about the fields of the frame. -/
def Frame.NicTyped (f : Frame) : Prop :=
  (f.hasPtype rtePtypeL3Ipv4 →
    f.u16 (f.dataOff.toNat + 12) = 0x0800 ∧ f.buf f.l3 >>> 4 = 4 ∧ f.buf (f.l3 + 9) = ipprotoTcp) ∧
  (f.hasPtype rtePtypeL3Ipv6 →
    f.u16 (f.dataOff.toNat + 12) = 0x86dd ∧ f.buf f.l3 >>> 4 = 6)

instance (f : Frame) : Decidable f.NicTyped := inferInstanceAs (Decidable (_ ∧ _))

/-- An IPv4 frame at `data_off` 128 whose checksums the NIC has checked: one byte of
payload behind a TCP header whose data offset byte is `off`. -/
def ipv4Frame (off : Byte) : Frame :=
  let bytes : List Byte :=
    [2, 0, 0, 0, 0, 1, 2, 0, 0, 0, 0, 2, 0x08, 0x00,
     0x45, 0, 0, 41, 0, 0, 0, 0, 64, 6, 0, 0, 10, 0, 0, 2, 10, 0, 0, 1,
     0x1f, 0x90, 0x04, 0x00, 0, 0, 0, 1, 0, 0, 0, 1, off, 0x10, 0x04, 0x00, 0, 0, 0, 0,
     0x61]
  { buf := fun n => bytes.getD (n - 128) 0
    dataOff := 128
    pktLen := 55
    packetType := 0x110
    olFlags := 0x180 }

def Cksum.good : Cksum := ⟨fun _ _ => 0, fun _ _ => 0, fun _ _ => 0⟩

theorem parseTcpPacket_sound_ipv4Frame :
    ∃ h, parseTcpPacket Cksum.good (ipv4Frame 0x50) = .ok h ∧ HeaderSound (ipv4Frame 0x50) h :=
  ⟨_, rfl, (parseTcpPacket_sound_iff Cksum.good _ _ (by decide) rfl).mpr
    ⟨by decide, by decide, by decide⟩⟩

/-- A data offset of four words passes, and the length of the options wraps to 252. -/
theorem parseTcpPacket_short_header :
    (ipv4Frame 0x40).NicTyped ∧ (ipv4Frame 0x40).dataOff.toNat ≤ 128 ∧
      ∀ c, ∃ h, parseTcpPacket c (ipv4Frame 0x40) = .ok h ∧ h.optLen = 252 ∧
        ¬ HeaderSound (ipv4Frame 0x40) h := by
  refine ⟨by decide, by decide, fun c => ⟨_, rfl, by decide, ?_⟩⟩
  intro hs
  exact absurd hs.hdrMin (by decide)

end LibTpa
