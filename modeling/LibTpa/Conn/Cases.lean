/- LibTpa/Conn/Cases
   digest: Where the packets of a burst go before they are processed. -/

import LibTpa.Conn.Frame
import LibTpa.Input.Cases
import LibTpa.Rcv.Ownership

set_option autoImplicit false

namespace LibTpa

variable {s s' : St} {p : Packet} {cfg : TcpCfg}

def St.setHead (s : St) (x : Option Packet) : St :=
  { s with tsock := { s.tsock with rxMergeHead := x } }

/-- The surroundings hand in single buffers that the socket does not hold yet. -/
structure Fed (cfg : TcpCfg) (s : St) (e : ConnEv) : Prop where
  single : ∀ p, e = .packet p → p.Single
  apart : ∀ p ∈ processed cfg s e, s.rxSt.held p.id = 0

instance Packet.Single.decidable (p : Packet) : Decidable p.Single :=
  match h : p.segs with
  | [] => isFalse fun ⟨_, hb, _⟩ => by rw [h] at hb; cases hb
  | [b] => decidable_of_iff (p.len = b.length)
      ⟨fun hl => ⟨b, h, hl⟩, fun ⟨_, hb, hl⟩ => by rw [h] at hb; cases hb; exact hl⟩
  | _ :: _ :: _ => isFalse fun ⟨_, hb, _⟩ => by rw [h] at hb; cases hb

instance Fed.decidable (cfg : TcpCfg) (s : St) : (e : ConnEv) → Decidable (Fed cfg s e)
  | .packet p => decidable_of_iff
      (p.Single ∧ ∀ q ∈ processed cfg s (.packet p), s.rxSt.held q.id = 0)
      ⟨fun h => ⟨fun _ hp => ConnEv.packet.inj hp ▸ h.1, h.2⟩, fun h => ⟨h.single p rfl, h.apart⟩⟩
  | .burstEnd => decidable_of_iff (∀ q ∈ processed cfg s .burstEnd, s.rxSt.held q.id = 0)
      ⟨fun h => ⟨fun _ hp => (nomatch hp), h⟩, fun h => h.apart⟩
  | .write _ | .read _ | .dropOoo | .close | .output | .delayedAck | .timer _ | .neighReady
  | .env _ => isTrue ⟨fun _ hp => (nomatch hp), fun _ hq => (nomatch hq)⟩

inductive MergeCase (cfg : TcpCfg) (s : St) (p : Packet) : St → Prop
  | alone (h : s.tsock.rxMergeHead = none) : MergeCase cfg s p (s.setHead (some p))
  | chained (head : Packet) (h : s.tsock.rxMergeHead = some head)
      (hm : head.seq = s.tsock.rcv.rcvNxt ∧ tcpCanMerge cfg head p = true) :
      MergeCase cfg s p ((tsockSetAckFlag cfg s true).setHead (some (packetChain head p)))
  | behind (head : Packet) (h : s.tsock.rxMergeHead = some head)
      (hm : ¬ (head.seq = s.tsock.rcv.rcvNxt ∧ tcpCanMerge cfg head p = true)) :
      MergeCase cfg s p ((tcpRcvProcess cfg s head).setHead (some p))

theorem tcpMerge_cases (cfg : TcpCfg) (s : St) (p : Packet) :
    MergeCase cfg s p (tcpMerge cfg s p) := by
  unfold tcpMerge
  split
  · next h => exact .alone h
  · next head h =>
    split
    · next hm => exact .chained head h hm
    · next hm => exact .behind head h hm

theorem sockStep_packet (cfg : TcpCfg) (p : Packet) (hl : s.tsock.state ≠ .listen) :
    sockStep cfg s (.packet p) = tcpMerge cfg s (parseTsOptFast p) := by
  rw [sockStep, inputPacket, if_neg hl]

theorem processed_behind (hl : s.tsock.state ≠ .listen) {head : Packet}
    (h : s.tsock.rxMergeHead = some head)
    (hm : ¬ (head.seq = s.tsock.rcv.rcvNxt ∧ tcpCanMerge cfg head (parseTsOptFast p) = true)) :
    processed cfg s (.packet p) = some head := by
  rw [processed, if_neg hl, h, Option.filter_some, if_pos]
  exact decide_eq_true hm

/-- The ways through the end of a burst, for a socket that outlives it. -/
inductive BurstEndCase (cfg : TcpCfg) (s : St) : St → Prop
  | freed (s' : St) (h : s'.tsock.freed = true) : BurstEndCase cfg s s'
  | idle (h : s.tsock.rxMergeHead = none) : BurstEndCase cfg s (inputAck cfg s)
  | last (head : Packet) (h : s.tsock.rxMergeHead = some head) :
      BurstEndCase cfg s (inputAck cfg (tcpRcvProcess cfg s head))

theorem burstEnd_cases (cfg : TcpCfg) (s : St) : BurstEndCase cfg s (sockStep cfg s .burstEnd) := by
  rw [sockStep, inputEnd]
  unfold inputPut
  split
  · exact .freed _ (tsockFree_freed _)
  · unfold inputHead
    split
    · next head h => exact .last head h
    · next h => exact .idle h

structure PacketDone (s s' : St) : Prop where
  rcv : s'.tsock.rcv = s.tsock.rcv ∨ s'.tsock.rcv = s.tsock.rcv.regulate
  state : s'.tsock.state = s.tsock.state
  announces : Announces s s'
  snd : s'.tsock.snd = s.tsock.snd
  pending : s'.tsock.flags.finPending = s.tsock.flags.finPending

theorem tcpRcvProcess_split (cfg : TcpCfg) (s : St) (p : Packet) :
    ∃ s₁ s₂, s₁.tsock = (tcpRcvPkt cfg s { p with toRead := p.segs }).2.1.tsock ∧ Quiet s₁ s₂ ∧
      tcpRcvProcess cfg s p = s₂.setHead none := by
  unfold tcpRcvProcess
  dsimp only
  generalize tcpRcvPkt cfg s { p with toRead := p.segs } = r
  obtain ⟨s₁, hs₁⟩ : ∃ s₁, s₁ =
    if r.1 ≠ none ∨ r.2.2.len = 0 then packetFree r.2.1 r.2.2 else r.2.1 := ⟨_, rfl⟩
  have ht : s₁.tsock = r.2.1.tsock := by
    rw [hs₁]
    split <;> rfl
  rw [← hs₁]
  split
  · exact ⟨s₁, _, ht, .xmitFlagPacket cfg s₁, rfl⟩
  · exact ⟨s₁, s₁, ht, .refl s₁, rfl⟩

theorem tcpRcvProcess_done (cfg : TcpCfg) (s : St) (p : Packet) :
    PacketDone (tcpRcvPkt cfg s { p with toRead := p.segs }).2.1 (tcpRcvProcess cfg s p) := by
  obtain ⟨s₁, s₂, ht, hquiet, heq⟩ := tcpRcvProcess_split cfg s p
  have hq := hquiet.frame
  have ha : Announces (tcpRcvPkt cfg s { p with toRead := p.segs }).2.1 s₁ :=
    .of_eq (by rw [ht]) (by rw [ht]) (by rw [ht]) (by rw [ht]; exact id)
  rw [heq]
  exact ⟨by rw [← ht]; exact hq.rcv, by rw [← ht]; exact hq.state,
    (ha.trans hq.announces).trans (.of_eq rfl rfl rfl id),
    by rw [← ht]; exact hquiet.snd, by rw [← ht]; exact hq.pending⟩

end LibTpa
