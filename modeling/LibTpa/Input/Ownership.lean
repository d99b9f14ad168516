/- LibTpa/Input/Ownership
   digest: Who owns a packet after tcp_rcv_process. -/

import LibTpa.Input.Cases
import LibTpa.Rcv.Frame
import LibTpa.Rcv.Ownership

set_option autoImplicit false

namespace LibTpa

structure KeepsQueues (s s' : St) : Prop where
  rxq : s'.tsock.rcv.rxq = s.tsock.rcv.rxq
  ooo : s'.tsock.rcv.ooo = s.tsock.rcv.ooo
  freed : s'.worker.rx.freed = s.worker.rx.freed

theorem KeepsRcv.queues {s s' : St} (h : KeepsRcv s s') : KeepsQueues s s' :=
  ⟨h.rxq, h.ooo, by rw [h.rx]⟩

theorem SndFrame.queues {s s' : St} (h : SndFrame s s') : KeepsQueues s s' := h.keeps.queues

namespace KeepsQueues

variable {s s' s'' : St}

theorem trans (h : KeepsQueues s s') (h' : KeepsQueues s' s'') : KeepsQueues s s'' :=
  ⟨h'.rxq.trans h.rxq, h'.ooo.trans h.ooo, h'.freed.trans h.freed⟩

theorem held (h : KeepsQueues s s') (id : PktId) : s'.rxSt.held id = s.rxSt.held id := by
  simp only [RxSt.held, h.rxq, h.ooo]

theorem tcpRcvFin (cfg : TcpCfg) (s : St) (p : Packet) : KeepsQueues s (tcpRcvFin cfg s p).2 := by
  have h := tcpRcvFin_frame cfg s p
  exact ⟨by rw [h.tsock], by rw [h.tsock], by rw [h.worker]⟩

theorem tcpRcvRst (cfg : TcpCfg) (s : St) : KeepsQueues s (tcpRcvRst cfg s).2 := by
  unfold LibTpa.tcpRcvRst
  split
  · exact ⟨rfl, rfl, rfl⟩
  dsimp only
  refine trans ?_ (KeepsRcv.tsockSetState ..).queues
  split
  · exact ⟨rfl, rfl, rfl⟩
  · exact ⟨rfl, rfl, rfl⟩

theorem sendAck (cfg : TcpCfg) (s : St) (p : Packet) : KeepsQueues s (sendAck cfg s p) := by
  unfold LibTpa.sendAck
  split
  · exact ⟨rfl, rfl, rfl⟩
  · split <;> exact ⟨rfl, rfl, rfl⟩

theorem sendRst (cfg : TcpCfg) (s : St) (p : Packet) : KeepsQueues s (sendRst cfg s p) := by
  unfold LibTpa.sendRst
  split
  · exact ⟨rfl, rfl, rfl⟩
  · exact ((SndFrame.setTcp s _).trans (Quiet.xmitFlagPacket cfg _).frame).queues

theorem processTcpOptNegotiation (cfg : TcpCfg) (s : St) (p : Packet) :
    KeepsQueues s (processTcpOptNegotiation cfg s p).1 := ⟨rfl, rfl, rfl⟩

theorem synSentToEstablished (cfg : TcpCfg) (s : St) (p : Packet) :
    KeepsQueues s (synSentToEstablished cfg s p).1 := by
  unfold LibTpa.synSentToEstablished
  have h : KeepsQueues s (s.setRcv { s.tsock.rcv with rcvIsn := p.seq, rcvNxt := p.seq + 1 }) :=
    ⟨rfl, rfl, rfl⟩
  exact ((h.trans (.processTcpOptNegotiation cfg _ p)).trans
    (KeepsRcv.tsockEstablished cfg _ _).queues).trans (KeepsRcv.tsockSetAckFlag cfg _ true).queues

end KeepsQueues

theorem Checked.queues {s s' : St} (h : Checked s s') : KeepsQueues s s' :=
  ⟨by rw [h.rcv], by rw [h.rcv], by rw [h.worker]⟩

theorem passiveTsockInit_rx (cfg : TcpCfg) (s : St) (p : Packet) :
    (passiveTsockInit cfg s p).1.worker.rx = s.worker.rx := by
  unfold passiveTsockInit
  exact (SndFrame.rteRdtsc _).rx

theorem KeepsQueues.tsockAccept (cfg : TcpCfg) (s : St) (p : Packet) :
    KeepsQueues s (tsockAccept cfg s p).2.1 := by
  unfold LibTpa.tsockAccept
  dsimp only
  split
  · refine ⟨rfl, rfl, ?_⟩
    rw [(SndFrame.xmitSyn cfg _).rx, passiveTsockInit_rx]
  · exact ⟨rfl, rfl, rfl⟩

variable {s s' : St} {p p' : Packet}

theorem KeepsQueues.owner (hk : KeepsQueues s s') (h : s.rxSt.held p.id = 0) (hid : p'.id = p.id)
    {e : Option Code} (he : e = none → p'.len = 0) : TextOwner s.rxSt p e s'.rxSt p' := by
  refine ⟨hid, by rw [St.rxSt, hk.freed], fun _ => by rw [hk.held, h], fun hn => ?_⟩
  rw [RxSt.Settled, if_pos (he hn), hid, hk.held, h]

theorem TextOwner.of_keeps {s₁ s₂ : St} {e e' : Option Code} (hk : KeepsQueues s s₁)
    (h : TextOwner s₁.rxSt p e s₂.rxSt p') (hk' : KeepsQueues s₂ s')
    (he : e = none → e' ≠ none → p'.len = 0) (he' : e ≠ none → e' ≠ none) :
    TextOwner s.rxSt p e' s'.rxSt p' := by
  have hfreed : s'.rxSt.rx.freed.count p.id = s.rxSt.rx.freed.count p.id := by
    rw [hk'.freed, h.freed, hk.freed]
  refine ⟨h.id, hfreed, fun hn => ?_, fun hn => ?_⟩
  · rw [hk'.held]
    cases e with
    | none =>
      have hs := h.taken rfl
      rw [RxSt.Settled, if_pos (he rfl hn), h.id] at hs
      exact hs
    | some e => exact h.refused (by simp)
  · have he0 : e = none := by
      by_contra hne
      exact he' hne hn
    have hs := h.taken he0
    unfold RxSt.Settled at hs ⊢
    rw [hk'.held]
    exact hs

theorem tcpRcvFin_none (cfg : TcpCfg) (s : St) (p : Packet)
    (h : s.tsock.state ≠ .closed ∧ s.tsock.state ≠ .listen ∧ s.tsock.state ≠ .synSent) :
    (tcpRcvFin cfg s p).1 = none := by
  unfold tcpRcvFin
  split
  · rfl
  · dsimp only
    have hs : (s.setFlags { s.tsock.flags with eof := true }).tsock.state = s.tsock.state := rfl
    obtain ⟨h1, h2, h3⟩ := h
    split
    · next h => exact absurd h h1
    · next h => exact absurd h h2
    · next h => exact absurd h h3
    · rfl

theorem rcvText_owner (cfg : TcpCfg) (h : s.rxSt.held p.id = 0) (hc : s.tsock.state ≠ .closed)
    (hl : s.tsock.state ≠ .listen) (hs : s.tsock.state ≠ .synSent) :
    TextOwner s.rxSt p (rcvText cfg s p).1 (rcvText cfg s p).2.1.rxSt (rcvText cfg s p).2.2 := by
  have hrefl : KeepsQueues s s := ⟨rfl, rfl, rfl⟩
  unfold rcvText
  split
  · have ho := tcpRcvData_owner cfg s p h
    have hst := (RcvFrame.tcpRcvData cfg s p).state
    split
    · next e s₁ p₁ heq =>
      rw [heq] at ho
      exact ho
    · next s₁ p₁ heq =>
      rw [heq] at ho hst
      have hfin := tcpRcvFin_none cfg s₁ p₁ ⟨hst ▸ hc, hst ▸ hl, hst ▸ hs⟩
      exact ho.of_keeps hrefl (.tcpRcvFin cfg s₁ p₁) (fun _ hn => absurd hfin hn)
        (fun hn => absurd rfl hn)
  split
  · exact hrefl.owner h rfl (by simp)
  · next hlen => exact (KeepsQueues.tcpRcvFin cfg s p).owner h rfl (fun _ => by simpa using hlen)

/-- A packet with payload that is neither freed nor queued: a SYN that opens a
connection, the SYN-ACK that completes one, the ACK of the FIN that ends one. -/
def Leaks (s : St) (p : Packet) : Prop :=
  p.len ≠ 0 ∧
  match s.tsock.state with
  | .listen =>
    p.flags.rst = false ∧ p.flags.ack = false ∧ p.flags.syn = true ∧
      s.worker.oracles.sockOk.headD false = true
  | .synSent =>
    p.wid = s.worker.id ∧ p.flags.rst = false ∧ p.flags.ack = true ∧ p.flags.syn = true ∧
      seqGt p.ack s.tsock.snd.sndIsn ∧ ¬ seqGt p.ack s.tsock.snd.sndNxt
  | .lastAck =>
    p.wid = s.worker.id ∧ p.flags.rst = false ∧ p.flags.ack = true ∧ p.flags.syn = false ∧
      validateSeq s.tsock.rcv p = none ∧ ¬ pawsReject s p (parseTcpOpts p).2.1 ∧
      ¬ seqLt p.ack s.tsock.snd.sndUna ∧ finAcked s.tsock.snd p.ack
  | _ => False

theorem leaks_toRead (s : St) (p : Packet) (l : List (List Byte)) :
    Leaks s { p with toRead := l } ↔ Leaks s p := by
  unfold Leaks
  rw [parseTcpOpts_toRead]
  rfl

structure Lost (s : St) (p : Packet) (r : Option Code × St × Packet) : Prop where
  id : r.2.2.id = p.id
  accepted : r.1 = none
  len : r.2.2.len ≠ 0
  held : r.2.1.rxSt.held p.id = 0
  freed : r.2.1.rxSt.rx.freed.count p.id = s.rxSt.rx.freed.count p.id

def OwnerUnless (leak : Prop) (s : St) (p : Packet) (r : Option Code × St × Packet) : Prop :=
  (leak → Lost s p r) ∧ (¬ leak → TextOwner s.rxSt p r.1 r.2.1.rxSt r.2.2)

theorem OwnerUnless.of_owner {leak : Prop} {r : Option Code × St × Packet} (hl : ¬ leak)
    (h : TextOwner s.rxSt p r.1 r.2.1.rxSt r.2.2) : OwnerUnless leak s p r :=
  ⟨fun hn => absurd hn hl, fun _ => h⟩

theorem KeepsQueues.ownerUnless {leak : Prop} (hk : KeepsQueues s s') (h : s.rxSt.held p.id = 0)
    (hid : p'.id = p.id) (hlen : p'.len = p.len) (hleak : leak ↔ p.len ≠ 0) :
    OwnerUnless leak s p (none, s', p') := by
  refine ⟨fun hl => ⟨hid, rfl, ?_, by rw [hk.held, h], by rw [St.rxSt, hk.freed]⟩, fun hl => ?_⟩
  · rw [hlen]
    exact hleak.mp hl
  · refine hk.owner h hid fun _ => ?_
    by_contra hne
    exact hl (hleak.mpr (hlen ▸ hne))

theorem tcpRcvPktAtListen_owner (cfg : TcpCfg) (h : s.rxSt.held p.id = 0)
    (hst : s.tsock.state = .listen) : OwnerUnless (Leaks s p) s p (tcpRcvPktAtListen cfg s p) := by
  have hrefl : KeepsQueues s s := ⟨rfl, rfl, rfl⟩
  have hleak : Leaks s p ↔ p.len ≠ 0 ∧ p.flags.rst = false ∧ p.flags.ack = false ∧
      p.flags.syn = true ∧ s.worker.oracles.sockOk.headD false = true := by
    unfold Leaks
    rw [hst]
  unfold tcpRcvPktAtListen
  split
  · next hr => exact .of_owner (fun hl => by simp [hleak, hr] at hl) (hrefl.owner h rfl (by simp))
  next hr =>
  split
  · next ha =>
    exact .of_owner (fun hl => by simp [hleak, ha] at hl)
      ((Quiet.xmitRstForListen s p hst).frame.queues.owner h rfl (by simp))
  next ha =>
  split
  swap
  · next hy => exact .of_owner (fun hl => by simp [hleak, hy] at hl) (hrefl.owner h rfl (by simp))
  next hy =>
  have hk := KeepsQueues.tsockAccept cfg s p
  have hleak' : s.worker.oracles.sockOk.headD false = true → (Leaks s p ↔ p.len ≠ 0) := fun ho => by
    rw [hleak]
    exact ⟨fun h => h.1, fun h => ⟨h, by simpa using hr, by simpa using ha, hy, ho⟩⟩
  unfold tsockAccept at hk ⊢
  dsimp only at hk ⊢
  split
  · next ho =>
    rw [if_pos ho] at hk
    exact hk.ownerUnless h p.parsed_id p.parsed_len (hleak' ho)
  · next ho =>
    rw [if_neg ho] at hk
    exact .of_owner (fun hl => ho (hleak.mp hl).2.2.2.2) (hk.owner h rfl (by simp))

theorem tcpRcvPktAtSynSent_owner (cfg : TcpCfg) (h : s.rxSt.held p.id = 0)
    (hwid : p.wid = s.worker.id) (hst : s.tsock.state = .synSent) :
    OwnerUnless (Leaks s p) s p (tcpRcvPktAtSynSent cfg s p) := by
  have hrefl : KeepsQueues s s := ⟨rfl, rfl, rfl⟩
  have hleak : Leaks s p ↔ p.len ≠ 0 ∧ p.flags.rst = false ∧ p.flags.ack = true ∧
      p.flags.syn = true ∧ seqGt p.ack s.tsock.snd.sndIsn ∧ ¬ seqGt p.ack s.tsock.snd.sndNxt := by
    unfold Leaks
    rw [hst]
    simp [hwid]
  unfold tcpRcvPktAtSynSent
  dsimp only
  split
  · next hbad =>
    refine .of_owner (fun hl => ?_) ?_
    · obtain ⟨-, -, -, -, h1, h2⟩ := hleak.mp hl
      rcases hbad.2 with h3 | h3
      · exact absurd h1 (not_lt.mpr h3)
      · exact h2 h3
    · exact ((((SndFrame.setTcp s _).trans (Quiet.xmitFlagPacketWithSeq cfg _ _).frame).trans
        (.outputTsockEnqueue _)).queues).owner h rfl (by simp)
  next hack =>
  split
  · next hr =>
    have hno : ¬ Leaks s p := fun hl => by simp [hleak, hr] at hl
    split
    · exact .of_owner hno ((KeepsQueues.tcpRcvRst cfg s).owner h rfl (by simp))
    · exact .of_owner hno (hrefl.owner h rfl (by simp))
  next hr =>
  split
  · next hy => exact .of_owner (fun hl => by simp [hleak, hy] at hl) (hrefl.owner h rfl (by simp))
  next hy =>
  split
  · next ha => exact .of_owner (fun hl => by simp [hleak, ha] at hl) (hrefl.owner h rfl (by simp))
  next ha =>
  split
  · next hgt =>
    refine (KeepsQueues.synSentToEstablished cfg s p).ownerUnless h p.parsed_id p.parsed_len ?_
    have hnx : ¬ seqGt p.ack s.tsock.snd.sndNxt := fun hg => hack ⟨by simpa using ha, .inr hg⟩
    rw [hleak]
    simp [hr, hy, ha, hgt, hnx]
  · next hgt =>
    exact .of_owner (fun hl => hgt (hleak.mp hl).2.2.2.2.1) (hrefl.owner h rfl (by simp))

private theorem passed_and (s : St) (p : Packet) : Passed s p ↔
    validateSeq s.tsock.rcv p = none ∧ ¬ pawsReject s p (parseTcpOpts p).2.1 :=
  ⟨fun h => ⟨h.seq, h.paws⟩, fun h => ⟨h.1, h.2⟩⟩

theorem rcvSynchronised_owner (cfg : TcpCfg) (h : s.rxSt.held p.id = 0)
    (hwid : s.tsock.state = .lastAck → p.wid = s.worker.id) (hc : s.tsock.state ≠ .closed)
    (hl : s.tsock.state ≠ .listen) (hs : s.tsock.state ≠ .synSent) :
    OwnerUnless (Leaks s p) s p (rcvSynchronised cfg s p) := by
  have hleak : Leaks s p ↔ p.len ≠ 0 ∧ s.tsock.state = .lastAck ∧ p.flags.rst = false ∧
      p.flags.ack = true ∧ p.flags.syn = false ∧ Passed s p ∧ ¬ seqLt p.ack s.tsock.snd.sndUna ∧
      finAcked s.tsock.snd p.ack := by
    rw [passed_and]
    unfold Leaks
    cases hst : s.tsock.state <;> simp_all [and_assoc]
  obtain ⟨s₂, hck, hcase⟩ := rcvSynchronised_cases cfg s p
  have hid := p.parsed_id
  have hk := hck.queues
  have hka := hk.trans (KeepsRcv.tcpRcvAck cfg s₂ (parseTcpOpts p).2.2 (parseTcpOpts p).2.1).queues
  have hc₂ : s₂.tsock.state ≠ .closed := by rw [hck.state]; exact hc
  have hcl := tcpRcvAck_closed cfg s₂ (parseTcpOpts p).2.2 (parseTcpOpts p).2.1 hc₂
  rw [p.parsed_flags, p.parsed_ack, hck.state, hck.snd] at hcl
  generalize rcvSynchronised cfg s p = r at hcase
  cases hcase with
  | refused e hp =>
    refine .of_owner (fun hlk => ?_) ((hk.trans (.sendAck cfg s₂ _)).owner h hid (by simp))
    exact hp (hleak.mp hlk).2.2.2.2.2.1
  | rst _ hr =>
    exact .of_owner (fun hlk => by simp [hleak, hr] at hlk)
      ((hk.trans (.tcpRcvRst cfg s₂)).owner h hid (by simp))
  | syn _ _ hy =>
    exact .of_owner (fun hlk => by simp [hleak, hy] at hlk)
      ((hk.trans (.sendAck cfg s₂ _)).owner h hid (by simp))
  | badAck _ _ _ e s₃ heq =>
    rw [heq] at hka
    refine .of_owner (fun hlk => ?_) (hka.owner h hid (by simp))
    obtain ⟨-, -, -, h1, -, -, -, h2⟩ := hleak.mp hlk
    rcases tcpRcvAck_refused cfg s₂ _ (parseTcpOpts p).2.1 hc₂ (by rw [hck.state]; exact hl)
      (by rw [hck.state]; exact hs) (by rw [heq]; simp) with h3 | h3
    · rw [p.parsed_flags, h1] at h3
      cases h3
    · rw [p.parsed_ack, hck.snd, h2.2] at h3
      simp [seqGt] at h3
  | closed hp hr hy s₃ heq hclosed =>
    rw [heq] at hka hcl
    obtain ⟨ha, hcl⟩ := hcl rfl
    obtain ⟨h1, h2, h3⟩ := hcl.mp hclosed
    refine hka.ownerUnless h hid p.parsed_len (hleak.trans ⟨fun h => h.1, fun h => ?_⟩)
    exact ⟨h, h1, hr, ha, hy, hp, h2, h3⟩
  | text _ _ _ s₃ heq hopen =>
    have hstate := tcpRcvAck_state cfg s₂ (parseTcpOpts p).2.2 (parseTcpOpts p).2.1
    rw [hck.state, hck.snd, heq] at hstate
    rw [heq] at hka hcl
    dsimp only at hstate
    obtain ⟨-, hcl⟩ := hcl rfl
    have hl₃ : s₃.tsock.state ≠ .listen ∧ s₃.tsock.state ≠ .synSent := by
      rcases hstate with h3 | ⟨-, h3⟩ | h3
      · rw [h3]
        exact ⟨hl, hs⟩
      · simp [h3]
      · rw [h3]
        exact ⟨(ackState_ne ..).1 hl, (ackState_ne ..).2 hs⟩
    refine .of_owner (fun hlk => ?_) ?_
    · obtain ⟨-, h1, -, -, -, -, h2, h3⟩ := hleak.mp hlk
      exact hopen (hcl.mpr ⟨h1, h2, h3⟩)
    · have hheld : s₃.rxSt.held (parseTcpOpts p).2.2.id = 0 := by rw [hka.held, hid, h]
      refine (rcvText_owner cfg hheld hopen hl₃.1 hl₃.2).of_start hid ?_
      rw [St.rxSt, hka.freed]

theorem tcpRcvSlowpath_owner (cfg : TcpCfg) (h : s.rxSt.held p.id = 0)
    (hwid : s.tsock.state = .synSent ∨ s.tsock.state = .lastAck → p.wid = s.worker.id) :
    OwnerUnless (Leaks s p) s p (tcpRcvSlowpath cfg s p) := by
  unfold tcpRcvSlowpath
  split
  · next hst =>
    refine .of_owner (fun hl => ?_) ((KeepsQueues.sendRst cfg s p).owner h rfl (by simp))
    simp [Leaks, hst] at hl
  · next hst => exact tcpRcvPktAtSynSent_owner cfg h (hwid (.inl hst)) hst
  · next hst => exact tcpRcvPktAtListen_owner cfg h hst
  · next hc hs hl => exact rcvSynchronised_owner cfg h (fun hst => hwid (.inr hst)) hc hl hs

theorem tcpRcvPkt_owner (cfg : TcpCfg) (h : s.rxSt.held p.id = 0) :
    OwnerUnless (Leaks s p) s p (tcpRcvPkt cfg s p) := by
  have hno : ∀ (s' : St) (p' : Packet), s'.tsock.state = .established → ¬ Leaks s' p' := by
    intro s' p' hst hl
    unfold Leaks at hl
    rw [hst] at hl
    exact hl.2
  have hcase := tcpRcvPkt_cases cfg s p
  generalize tcpRcvPkt cfg s p = r at hcase
  cases hcase with
  | stale hw =>
    refine .of_owner (fun hl => ?_) (KeepsQueues.owner ⟨rfl, rfl, rfl⟩ h rfl (by simp))
    unfold Leaks at hl
    cases hst : s.tsock.state <;> simp_all
  | slow hw =>
    refine tcpRcvSlowpath_owner cfg h fun hst => hw.resolve_right ?_
    rcases hst with hst | hst <;> rw [hst] <;> decide
  | fast s₁ s₂ p₂ _ hst _ hck hd =>
    have ho := tcpRcvData_owner cfg s₁ p (by rw [hck.queues.held, h])
    rw [hd] at ho
    refine .of_owner (hno s p hst) (ho.of_keeps hck.queues ?_ (by simp) (by simp))
    exact (TxFrame.tcpRcvAckFastpath cfg s₂ p₂).frame.queues.trans ⟨rfl, rfl, rfl⟩
  | fallback s₁ s₂ p₂ e _ hst _ hck hd =>
    -- the packet is still in no queue, and the slow path goes on with it
    have ho := tcpRcvData_owner cfg s₁ p (by rw [hck.queues.held, h])
    have hst₂ := (RcvFrame.tcpRcvData cfg s₁ p).state
    rw [hd] at ho hst₂
    rw [hck.state, hst] at hst₂
    have ho : TextOwner s.rxSt p (some e) s₂.rxSt p₂ :=
      ho.of_keeps hck.queues ⟨rfl, rfl, rfl⟩ (by simp) (by simp)
    have hheld : s₂.rxSt.held p₂.id = 0 := by rw [ho.id]; exact ho.refused (by simp)
    have hslow := tcpRcvSlowpath_owner cfg hheld (by rw [hst₂]; simp)
    exact .of_owner (hno s p hst) ((hslow.2 (hno s₂ p₂ hst₂)).of_start ho.id ho.freed)

def Fresh (s : St) (p : Packet) : Prop :=
  s.rxSt.held p.id = 0 ∧ p.id ∉ s.worker.rx.freed

/-- The packet has one owner: it was freed once and is in no queue, or it was
not freed and is in one of the two queues once. -/
def Disposed (s : St) (id : PktId) : Prop :=
  (s.worker.rx.freed.count id = 1 ∧ s.rxSt.held id = 0) ∨
    (s.worker.rx.freed.count id = 0 ∧ s.rxSt.held id = 1)

theorem tcpRcvProcess_tail (cfg : TcpCfg) (s : St) (p : Packet) (id : PktId) :
    ∃ r, r = tcpRcvPkt cfg s { p with toRead := p.segs } ∧
      (tcpRcvProcess cfg s p).rxSt.held id = r.2.1.rxSt.held id ∧
      (tcpRcvProcess cfg s p).worker.rx.freed = r.2.1.worker.rx.freed ++
        (if r.1 ≠ none ∨ r.2.2.len = 0 then [r.2.2.id] else []) := by
  refine ⟨_, rfl, ?_⟩
  unfold tcpRcvProcess
  generalize tcpRcvPkt cfg s { p with toRead := p.segs } = r
  dsimp only
  generalize hs₁ : (if r.1 ≠ none ∨ r.2.2.len = 0 then packetFree r.2.1 r.2.2 else r.2.1) = s₁
  have h1 : s₁.rxSt.held id = r.2.1.rxSt.held id ∧ s₁.worker.rx.freed = r.2.1.worker.rx.freed ++
      (if r.1 ≠ none ∨ r.2.2.len = 0 then [r.2.2.id] else []) := by
    rw [← hs₁]
    split
    · exact ⟨rfl, rfl⟩
    · exact ⟨rfl, by simp⟩
  have hk : KeepsQueues s₁ (if s₁.tsock.flags.ackNow then (xmitFlagPacket cfg s₁).2 else s₁) := by
    split
    · exact (Quiet.xmitFlagPacket cfg s₁).frame.queues
    · exact ⟨rfl, rfl, rfl⟩
  exact ⟨(hk.held id).trans h1.1, hk.freed.trans h1.2⟩

/-- `tcp_rcv_process` disposes of a packet exactly once, unless it leaks it. -/
theorem tcpRcvProcess_disposes_iff (cfg : TcpCfg) (s : St) (p : Packet) (hf : Fresh s p) :
    Disposed (tcpRcvProcess cfg s p) p.id ↔ ¬ Leaks s p := by
  obtain ⟨r, hr, hheld, hfreed⟩ := tcpRcvProcess_tail cfg s p p.id
  have ho := tcpRcvPkt_owner (p := { p with toRead := p.segs }) cfg hf.1
  rw [leaks_toRead, ← hr] at ho
  have hcount : s.worker.rx.freed.count p.id = 0 := List.count_eq_zero.mpr hf.2
  by_cases hl : Leaks s p
  · have h := ho.1 hl
    refine iff_of_false ?_ (not_not.mpr hl)
    rw [if_neg (by simp [h.accepted, h.len]), List.append_nil] at hfreed
    have h0 : r.2.1.worker.rx.freed.count p.id = 0 := h.freed.trans hcount
    have h1 : r.2.1.rxSt.held p.id = 0 := h.held
    unfold Disposed
    rw [hheld, hfreed, h0, h1]
    simp
  · have h := ho.2 hl
    refine iff_of_true ?_ hl
    have h0 : r.2.1.worker.rx.freed.count p.id = 0 := h.freed.trans hcount
    have hid : r.2.2.id = p.id := h.id
    unfold Disposed
    rw [hheld, hfreed]
    by_cases hfree : r.1 ≠ none ∨ r.2.2.len = 0
    · refine .inl ⟨?_, ?_⟩
      · rw [if_pos hfree, List.count_append, h0, hid]
        simp
      · cases he : r.1 with
        | some e => exact h.refused (by simp [he])
        | none =>
          have hlen : r.2.2.len = 0 := hfree.resolve_left (by simp [he])
          have hs := h.taken he
          rw [RxSt.Settled, if_pos hlen, hid] at hs
          exact hs
    · rw [if_neg hfree, List.append_nil]
      push Not at hfree
      refine .inr ⟨h0, ?_⟩
      have hs := h.taken hfree.1
      rw [RxSt.Settled, if_neg hfree.2, hid] at hs
      exact hs

private def sockAt (st : TcpState) (o : Oracles) : St :=
  ⟨Worker.boot 0 o, { tsockInit {} 0 false with state := st }⟩

theorem tcpRcvProcess_disposes_iff_established :
    Disposed (tcpRcvProcess {} (sockAt .established {})
      (.parsed 0 0 0 0 { ack := true } [] [7] (by decide))) 0 :=
  (tcpRcvProcess_disposes_iff {} (sockAt .established {})
    (.parsed 0 0 0 0 { ack := true } [] [7] (by decide)) ⟨rfl, by decide⟩).mpr
      (by simp [Leaks, sockAt])

/-- The payload of a SYN that a listening socket takes is neither freed nor queued. -/
theorem synPayload_not_disposed :
    ¬ Disposed (tcpRcvProcess {} (sockAt .listen { sockOk := [true] })
      (.parsed 0 0 0 0 { syn := true } [] [7] (by decide))) 0 := by
  unfold Disposed
  decide +kernel

end LibTpa
