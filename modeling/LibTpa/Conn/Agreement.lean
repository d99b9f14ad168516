/- LibTpa/Conn/Agreement
   digest: Two hosts that open a connection agree on its options. -/

import LibTpa.Input.Frame
import LibTpa.Output.FlagPacket
import LibTpa.Output.OptRoundTrip
import LibTpa.Output.Socket

set_option autoImplicit false

namespace LibTpa

variable {cfg : TcpCfg} {s s' : St} {p : Packet} {o : TcpOpts} {isIpv6 : Bool}

structure Carries (q : TxPacket) (p : Packet) : Prop where
  len : p.optLen = q.opts.length
  opts : ∃ rest, p.optArea = q.opts ++ rest

structure Unsettled (cfg : TcpCfg) (isIpv6 : Bool) (t : TcpSock) : Prop where
  ts : t.nego.tsEnabled = cfg.enableTs ∧ t.nego.tsOk = false
  ws : t.nego.wsEnabled = cfg.enableWs ∧ t.nego.wsOk = false
  sack : t.nego.sackEnabled = cfg.enableSack
  ip : t.isIpv6 = isIpv6

structure Settles (cfg : TcpCfg) (isIpv6 : Bool) (o : TcpOpts) (t : TcpSock) : Prop where
  ts : t.nego.tsOk = (cfg.enableTs && o.hasTs)
  ws : t.nego.wsOk = (cfg.enableWs && o.hasWscale)
  sack : t.rcv.sackOk = (cfg.enableSack && o.hasSackPerm)
  rcvWscale : t.nego.rcvWscale = if cfg.enableWs && o.hasWscale then tcpWscaleDefault else 0
  sndWscale : t.cc.sndWscale = if cfg.enableWs && o.hasWscale then o.wscale else 0
  mss : t.cc.sndMss = calcSndMss cfg isIpv6 (cfg.enableTs && o.hasTs) true o.mss -
    if cfg.enableTs && o.hasTs then 12 else 0

theorem Unsettled.negotiate (h : Unsettled cfg isIpv6 s.tsock) :
    Settles cfg isIpv6 o (negotiate cfg s p o).tsock := by
  unfold LibTpa.negotiate
  dsimp only
  rw [h.ts.1, h.ts.2, h.ws.1, h.ws.2, h.sack, h.ip]
  refine ⟨Bool.false_or _, Bool.false_or _, rfl, rfl, rfl, ?_⟩
  dsimp only
  cases cfg.enableTs && o.hasTs
  · exact (BitVec.sub_zero _).symm
  · rfl

theorem passive_settles (cfg : TcpCfg) (w : Worker) (sid : Nat) (p : Packet) :
    Settles cfg p.isIpv6 (parseTcpOpts p).2.1
      (passiveTsockInit cfg ⟨w, tsockInit cfg sid p.isIpv6⟩ p).1.tsock := by
  have hsplit : ∃ t, Unsettled cfg p.isIpv6 t.tsock ∧
    passiveTsockInit cfg ⟨w, tsockInit cfg sid p.isIpv6⟩ p =
      (tsockSetState cfg (processTcpOptNegotiation cfg t p).1 .synRcvd,
        (processTcpOptNegotiation cfg t p).2) := by
    refine ⟨_, ?_, rfl⟩
    dsimp only [St.setSnd, St.setRcv, isnGen]
    rw [rteRdtsc_tsock]
    exact ⟨⟨rfl, rfl⟩, ⟨rfl, rfl⟩, rfl, rfl⟩
  obtain ⟨t, hun, he⟩ := hsplit
  rw [he]
  have h : Settles cfg p.isIpv6 (parseTcpOpts p).2.1 (processTcpOptNegotiation cfg t p).1.tsock :=
    hun.negotiate
  generalize (processTcpOptNegotiation cfg t p).1 = r at h
  exact ⟨h.ts, h.ws, h.sack, h.rcvWscale, h.sndWscale, h.mss⟩

private theorem rttUpdate_peer (cfg : TcpCfg) (c : Cc) (rtt : U32) :
    (rttUpdate cfg c rtt).sndMss = c.sndMss ∧ (rttUpdate cfg c rtt).sndWscale = c.sndWscale := by
  unfold rttUpdate
  dsimp only
  split <;> exact ⟨rfl, rfl⟩

theorem active_settles (h : Unsettled cfg isIpv6 s.tsock) (p : Packet) :
    Settles cfg isIpv6 (parseTcpOpts p).2.1 (synSentToEstablished cfg s p).1.tsock := by
  have hneg : Settles cfg isIpv6 (parseTcpOpts p).2.1 (processTcpOptNegotiation cfg
      (s.setRcv { s.tsock.rcv with rcvIsn := p.seq, rcvNxt := p.seq + 1 }) p).1.tsock :=
    Unsettled.negotiate ⟨h.ts, h.ws, h.sack, h.ip⟩
  unfold synSentToEstablished
  dsimp only
  generalize processTcpOptNegotiation cfg _ p = r at hneg
  refine ⟨hneg.ts, hneg.ws, hneg.sack, hneg.rcvWscale, ?_, ?_⟩
  · exact (rttUpdate_peer cfg _ _).2.trans hneg.sndWscale
  · exact (rttUpdate_peer cfg _ _).1.trans hneg.mss

def synMss (cfg : TcpCfg) (isIpv6 hasTs : Bool) : U16 := calcSndMss cfg isIpv6 hasTs false 0

private theorem mss_bounds (cfg : TcpCfg) (isIpv6 ts : Bool) :
    let mss := if 0 < cfg.usrSndMss then cfg.usrSndMss + (if ts then tcpOptTsSpace else 0)
      else defaultMtu - (if isIpv6 then 40 else 20) - 20
    (if ts then 12 else 0) < mss ∧ mss < 2 ^ 16 := by
  have hle := cfg.mss_le
  unfold tcpOptTsSpace defaultMtu
  cases isIpv6 <;> cases ts <;> simp only [Bool.false_eq_true, if_false, if_true] <;>
    split <;> omega

theorem synMss_pos (cfg : TcpCfg) (isIpv6 ts : Bool) :
    (if ts then 12 else 0) < (synMss cfg isIpv6 ts).toNat := by
  have hb := mss_bounds cfg isIpv6 ts
  unfold synMss calcSndMss
  rw [if_neg Bool.false_ne_true, BitVec.toNat_ofNat, Nat.mod_eq_of_lt hb.2]
  exact hb.1

theorem calcSndMss_le {m : U16} {ts : Bool} (hm : (if ts then 12 else 0) < m.toNat) :
    (calcSndMss cfg isIpv6 ts true m - if ts then 12 else 0).toNat + (if ts then 12
      else 0) ≤ m.toNat := by
  have hb := (mss_bounds cfg isIpv6 ts).1
  have hlt := m.isLt
  have hne : m ≠ 0 := by
    rintro rfl
    exact absurd hm (Nat.not_lt_zero _)
  unfold calcSndMss
  dsimp only at hb ⊢
  rw [if_pos rfl, if_neg hne]
  generalize (if 0 < cfg.usrSndMss then cfg.usrSndMss + _ else _) = x at hb ⊢
  cases ts <;> simp only [Bool.false_eq_true, if_false, if_true] at * <;> bv_omega

theorem Settles.mss_le {cfg' : TcpCfg} {t : TcpSock} (h : Settles cfg isIpv6 o t)
    (hm : o.mss = synMss cfg' isIpv6 o.hasTs) :
    t.cc.sndMss.toNat + (if t.nego.tsOk then 12 else 0) ≤ (synMss cfg' isIpv6 o.hasTs).toNat := by
  have hpos := synMss_pos cfg' isIpv6 o.hasTs
  rw [h.mss, h.ts, hm]
  refine calcSndMss_le (lt_of_le_of_lt ?_ hpos)
  cases cfg.enableTs <;> cases o.hasTs <;> decide

structure Offers (cfg : TcpCfg) (t : TcpSock) (o : TcpOpts) : Prop where
  ts : o.hasTs = if t.state = .synSent then t.nego.tsEnabled else t.nego.tsOk
  ws : o.hasWscale = t.nego.wsEnabled
  wscale : o.wscale = if t.nego.wsEnabled then tcpWscaleDefault else 0
  sack : o.hasSackPerm = if t.state = .synSent then t.nego.sackEnabled else t.rcv.sackOk
  mss : o.mss = synMss cfg t.isIpv6 o.hasTs

theorem syn_offers {seq : U32} (hf : SndFrame s s') (hs : s.tsock.rcv.sackBlocks = [])
    (h : Carries (flagPacket cfg (synReady s') seq) p) :
    Offers cfg s.tsock (parseTcpOpts p).2.1 := by
  have hr : SndFrame s (packetAlloc (synReady s')).2 :=
    (hf.trans (.synReady s')).trans (.packetAlloc _)
  have hsyn : (synReady s').tsock.flags.tcp.syn = true := rfl
  obtain ⟨rest, hrest⟩ := h.opts
  have hlen := h.len
  unfold flagPacket at hrest hlen
  generalize (packetAlloc (synReady s')).2 = r at hr hrest hlen
  generalize (synReady s').tsock.flags.tcp = flags at hsyn hrest hlen
  have hback := optsReadBack cfg r flags (by rw [hr.announces.sacks, hs]; decide)
  have hsack : r.tsock.rcv.sackOk = s.tsock.rcv.sackOk := by
    rcases hr.rcv with h | h
    · rw [h]
    · rw [h]
      rfl
  have ho : Offers cfg r.tsock (encodedOpts cfg r (enabledOpts r.tsock flags)) := by
    dsimp only [encodedOpts, enabledOpts]
    rw [hsyn]
    exact ⟨rfl, rfl, rfl, rfl, rfl⟩
  rw [hback.parsed p rest (hlen.trans hback.length) hrest]
  generalize encodedOpts cfg r _ = e at ho
  obtain ⟨ts, ws, wscale, sack, mss⟩ := ho
  rw [hsack] at sack
  rw [hr.tsock] at ts ws wscale sack mss
  exact ⟨ts, ws, wscale, sack, mss⟩

/-- What both ends have to make of a handshake: the same options, the scale of the window that the
other one announces, and segments within its MSS. -/
structure Agreed (a b : TcpSock) (mssA mssB : U16) : Prop where
  ts : a.nego.tsOk = b.nego.tsOk
  ws : a.nego.wsOk = b.nego.wsOk
  sack : a.rcv.sackOk = b.rcv.sackOk
  toA : b.cc.sndWscale = a.nego.rcvWscale
  toB : a.cc.sndWscale = b.nego.rcvWscale
  mssA : b.cc.sndMss.toNat + (if b.nego.tsOk then 12 else 0) ≤ mssA.toNat
  mssB : a.cc.sndMss.toNat + (if a.nego.tsOk then 12 else 0) ≤ mssB.toNat

/-- A client opens a connection: it sends `syn` in `a₁`, the server makes the socket `b` of it and
answers in `b₁` with `synAck`, and the client takes that in `a₂`. -/
theorem handshake_agrees (cfgA cfgB : TcpCfg) (wA wB : Worker) (sidA sidB : Nat) (seqA seqB : U32)
    (syn synAck : Packet) (a a₁ a₂ b b₁ : St)
    (ha : a = tcpConnect ⟨wA, tsockInit cfgA sidA syn.isIpv6⟩)
    (hb : b = (passiveTsockInit cfgB ⟨wB, tsockInit cfgB sidB syn.isIpv6⟩ syn).1)
    (ha₁ : SndFrame a a₁) (hsyn : Carries (flagPacket cfgA (synReady a₁) seqA) syn)
    (hb₁ : SndFrame b b₁) (hans : Carries (flagPacket cfgB (synReady b₁) seqB) synAck)
    (ha₂ : SndFrame a a₂) :
    Agreed (synSentToEstablished cfgA a₂ synAck).1.tsock b.tsock
      (synMss cfgA syn.isIpv6 cfgA.enableTs) (synMss cfgB syn.isIpv6 b.tsock.nego.tsOk) := by
  have hfresh : b.tsock.state = .synRcvd ∧ b.tsock.rcv.sackBlocks = [] ∧
    b.tsock.isIpv6 = syn.isIpv6 ∧
      b.tsock.nego.wsEnabled = cfgB.enableWs := by
    rw [hb, passiveTsockInit]
    dsimp only [St.setSnd, St.setRcv, isnGen]
    rw [rteRdtsc_tsock]
    exact ⟨rfl, rfl, rfl, rfl⟩
  have hB : Settles cfgB syn.isIpv6 (parseTcpOpts syn).2.1 b.tsock :=
    hb ▸ passive_settles cfgB wB sidB syn
  have hun : Unsettled cfgA syn.isIpv6 a₂.tsock := by
    rw [ha₂.tsock, ha]
    exact ⟨⟨rfl, rfl⟩, ⟨rfl, rfl⟩, rfl, rfl⟩
  have hA := active_settles hun synAck
  have oA : Offers cfgA a.tsock (parseTcpOpts syn).2.1 := syn_offers ha₁ (by rw [ha]; rfl) hsyn
  have oB : Offers cfgB b.tsock (parseTcpOpts synAck).2.1 := syn_offers hb₁ hfresh.2.1 hans
  generalize (synSentToEstablished cfgA a₂ synAck).1.tsock = c at hA
  generalize (parseTcpOpts syn).2.1 = o at hB oA
  generalize (parseTcpOpts synAck).2.1 = o' at hA oB
  have hts : o.hasTs = cfgA.enableTs := oA.ts.trans (by rw [ha]; rfl)
  have hst : b.tsock.state ≠ .synSent := by
    rw [hfresh.1]
    decide
  have hts' : o'.hasTs = b.tsock.nego.tsOk := oB.ts.trans (if_neg hst)
  have hsack : o.hasSackPerm = cfgA.enableSack := oA.sack.trans (by rw [ha]; rfl)
  have hsack' : o'.hasSackPerm = b.tsock.rcv.sackOk := oB.sack.trans (if_neg hst)
  have hws : o.hasWscale = cfgA.enableWs := oA.ws.trans (by rw [ha]; rfl)
  have hws' : o'.hasWscale = cfgB.enableWs := oB.ws.trans hfresh.2.2.2
  constructor
  · rw [hA.ts, hts', hB.ts, hts]
    cases cfgA.enableTs <;> cases cfgB.enableTs <;> rfl
  · rw [hA.ws, hB.ws, hws, hws', Bool.and_comm]
  · rw [hA.sack, hsack', hB.sack, hsack]
    cases cfgA.enableSack <;> cases cfgB.enableSack <;> rfl
  · rw [hB.sndWscale, hA.rcvWscale, oA.wscale, ← oA.ws, hws, hws']
    cases cfgA.enableWs <;> cases cfgB.enableWs <;> rfl
  · rw [hA.sndWscale, hB.rcvWscale, oB.wscale, ← oB.ws, hws, hws']
    cases cfgA.enableWs <;> cases cfgB.enableWs <;> rfl
  · exact hts ▸ hB.mss_le (oA.mss.trans (by rw [ha]; rfl))
  · exact hts' ▸ hA.mss_le (oB.mss.trans (by rw [hfresh.2.2.1]))

def TxPacket.arrived (q : TxPacket) : Packet :=
  { Packet.bare 0 q.seq q.ack q.wnd q.flags with optLen := q.opts.length, optArea := q.opts }

theorem TxPacket.carries (q : TxPacket) : Carries q q.arrived := ⟨rfl, [], (List.append_nil _).symm⟩

def caller : St := tcpConnect ⟨Worker.boot 0 {}, tsockInit {} 0 false⟩

def callerSyn : Packet := (flagPacket {} (synReady caller) 0).arrived

def unstamped : TcpCfg := { enableTs := false }

def callee : St :=
  (passiveTsockInit unstamped ⟨Worker.boot 0 {}, tsockInit unstamped 1 false⟩ callerSyn).1

theorem handshake_agrees_unstamped :
    Agreed
      (synSentToEstablished {} caller (flagPacket unstamped (synReady callee) 0).arrived).1.tsock
      callee.tsock (synMss {} false true) (synMss unstamped false callee.tsock.nego.tsOk) :=
  handshake_agrees {} unstamped _ _ 0 1 0 0 callerSyn _ caller caller caller callee callee rfl rfl
    (.refl _) (TxPacket.carries _) (.refl _) (TxPacket.carries _) (.refl _)

end LibTpa
