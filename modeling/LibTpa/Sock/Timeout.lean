/- LibTpa/Sock/Timeout
   digest: The three timers of a socket. -/

import LibTpa.Output.Socket

set_option autoImplicit false

namespace LibTpa

def clearSackedLoop : Nat → St → U16 → St
  | 0, s, _ => s
  | n + 1, s, idx =>
    match tcpTxqPeekUna s.tsock.snd.txq idx with
    | none => s
    | some d => clearSackedLoop n (s.setDesc d { s.desc d with sacked := false }) (idx + 1)

def clearSacked (s : St) : St :=
  let q := s.tsock.snd.txq
  let s := clearSackedLoop ((q.write - q.una).toNat + 1) s 0
  s.setCc { s.tsock.cc with sackedBytes := 0 }

private theorem clearSackedLoop_kept (n : Nat) : ∀ (s : St) (idx : U16),
    (clearSackedLoop n s idx).tsock = s.tsock ∧
      (clearSackedLoop n s idx).worker.tsUs = s.worker.tsUs := by
  induction n with
  | zero => exact fun s idx => ⟨rfl, rfl⟩
  | succ n ih =>
    intro s idx
    unfold clearSackedLoop
    split
    · exact ⟨rfl, rfl⟩
    · exact ih _ _

theorem clearSacked_tsock (s : St) : (clearSacked s).tsock =
    { s.tsock with cc := { s.tsock.cc with sackedBytes := 0 } } := by
  unfold clearSacked
  dsimp only [St.setCc]
  rw [(clearSackedLoop_kept ..).1]

theorem clearSacked_tsUs (s : St) : (clearSacked s).worker.tsUs = s.worker.tsUs :=
  (clearSackedLoop_kept ..).2

def inHandshake (state : TcpState) : Bool := state = .synSent ∨ state = .synRcvd

def rtoGivesUp (cfg : TcpCfg) (t : TcpSock) : Bool :=
  (if inHandshake t.state then cfg.synRetries else cfg.retries) ≤ t.cc.rtoShift.toNat

/-- A connection that timed out: released at once if no one holds it. -/
def timedOut (cfg : TcpCfg) (s : St) (toClose : Bool) : St :=
  let s := tsockSetState cfg (s.setErr (some .etimedout)) .closed
  if s.tsock.closeIssued || toClose then tsockFree s else tsockEventAdd s tpaEventErr

/-- The first timeout remembers when its descriptor was sent. -/
def stampRtoStart (s : St) : St :=
  if s.tsock.cc.rtoShift = 1 then
    match tcpTxqPeekUnaBeforeNxt s.tsock.snd.txq 0 with
    | some d => s.setCc { s.tsock.cc with rtoStartTs := (s.desc d).tsUs }
    | none => s
  else s

/-- The windows, the timer and the retransmit cursor of a timeout. -/
def rtoRestart (s : St) : St :=
  let c := s.tsock.cc
  let x := s.tsock.snd
  let s := s.setCc { c with
    sndRecover := x.sndNxt
    sndSsthresh := maxU32 (c.sndCwnd / 2) (2 * c.sndMss.setWidth 32)
    sndCwnd := c.sndMss.setWidth 32 }
  let s := timerRtoStart s (min tcpRtoMax (c.rto <<< c.rtoShift.toNat).toNat)
  s.setSnd { x with
    retransStage := .rto
    retransSeq := if inHandshake s.tsock.state then x.sndUna + 1 else x.sndUna
    retransDescBase := x.txq.una }

def tcpTimeoutRto (cfg : TcpCfg) (s : St) : St :=
  let s := s.setCc { s.tsock.cc with rtoShift := s.tsock.cc.rtoShift + 1 }
  if rtoGivesUp cfg s.tsock then timedOut cfg s (s.tsock.state = .synRcvd)
  else outputTsockEnqueue (tcpRetrans cfg (rtoRestart (clearSacked (stampRtoStart s))))

def tcpTimeoutWait (cfg : TcpCfg) (s : St) : St := tsockFree (tsockSetState cfg s .closed)

def tcpTimeoutKeepalive (cfg : TcpCfg) (s : St) : St :=
  let shift := s.tsock.timers.keepaliveShift
  let s := s.setTimers { s.tsock.timers with keepaliveShift := shift + 1 }
  if cfg.retries ≤ shift.toNat then timedOut cfg s false
  else if s.tsock.state = .established then
    let f := s.tsock.flags
    let s := (xmitFlagPacketWithSeq cfg (s.setFlags { f with tcp := { f.tcp with ack := true } })
      (s.tsock.snd.sndUna - 1)).2
    s.setTimers { s.tsock.timers with keepalive := timerStart s.worker.tsUs cfg.keepalive }
  else s

inductive TimerKind
  | rto | wait | keepalive
  deriving DecidableEq

def Timers.deadline (t : Timers) : TimerKind → Option Nat
  | .rto => t.rto
  | .wait => t.wait
  | .keepalive => t.keepalive

def Timers.stop (t : Timers) : TimerKind → Timers
  | .rto => { t with rto := none }
  | .wait => { t with wait := none }
  | .keepalive => { t with keepalive := none }

/-- `tcp_timeout`, called by `timer_process` on an active timer that it stopped. -/
def tcpTimeout (cfg : TcpCfg) (s : St) (k : TimerKind) : St :=
  if s.tsock.timers.deadline k = none then s
  else
    let s := s.setTimers (s.tsock.timers.stop k)
    if s.tsock.state = .closed then s
    else match k with
      | .rto => tcpTimeoutRto cfg s
      | .wait => tcpTimeoutWait cfg s
      | .keepalive => tcpTimeoutKeepalive cfg s

end LibTpa
