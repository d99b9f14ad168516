/- LibTpa/Worker/Loop
   digest: The loops of a worker over all its sockets. -/

import LibTpa.Worker.Event
import LibTpa.Conn.FsmRun

/-!
`tcp_input`, `tcp_output`, the timers and the calls of an application, as steps of
one worker and all its sockets. A socket is named by its slot, and `worker->tsocks`
is a list of slots.
-/

set_option autoImplicit false

namespace LibTpa

open Lib.Run

namespace Stack

/-- New sockets move into the slots that `sock_alloc` found for them. -/
def adopt (n : Stack) : Stack where
  worker := { n.worker with children := [] }
  socks := n.worker.children.foldl (fun socks c => Function.update socks c.sid c) n.socks
  accepted := n.worker.children.foldl (fun acc c => Function.update acc c.sid false) n.accepted

def turn (n : Stack) (i : Nat) (f : St → St) : Stack := (n.put i (f (n.sockAt i))).adopt

def opened (n : Stack) (i : Nat) (s : St) : Stack :=
  { n.put i s with accepted := Function.update n.accepted i false }

end Stack

def queueInputTsock (tsocks : List Nat) (i : Nat) : List Nat :=
  if tsocks.getLast? = some i then tsocks else tsocks ++ [i]

/-- What a burst leaves in `worker->tsocks`. -/
def inputTsocks (burst : List (Nat × Packet)) : List Nat :=
  burst.foldl (fun tsocks r => queueInputTsock tsocks r.1) []

/-- The first loop of `tcp_input`, for one packet and the socket it was looked up for. -/
def inputOne (cfg : TcpCfg) (n : Stack) (r : Nat × Packet) : Stack :=
  n.turn r.1 fun s => inputPacket cfg s r.2

/-- The second loop of `tcp_input`, for one entry of `worker->tsocks`. -/
def inputVisit (cfg : TcpCfg) (n : Stack) (i : Nat) : Stack := n.turn i (inputEnd cfg)

/-- `tcp_input`, on the packets that were parsed and found a socket. -/
def tcpInput (cfg : TcpCfg) (n : Stack) (burst : List (Nat × Packet)) : Stack :=
  exec (inputVisit cfg) (exec (inputOne cfg) n burst) (inputTsocks burst)

/-- Whether the second loop calls `tsock_free` for this socket. -/
def visitFrees (cfg : TcpCfg) (n : Stack) (i : Nat) : Bool :=
  (inputAck cfg (inputHead cfg (n.sockAt i))).tsock.flags.put

def freedBy (cfg : TcpCfg) : Stack → List Nat → List Nat
  | _, [] => []
  | n, i :: tsocks =>
    (if visitFrees cfg n i then [i] else []) ++ freedBy cfg (inputVisit cfg n i) tsocks

def tcpInputFrees (cfg : TcpCfg) (n : Stack) (burst : List (Nat × Packet)) : List Nat :=
  freedBy cfg (exec (inputOne cfg) n burst) (inputTsocks burst)

/-- `tcp_flush_delayed_ack`, with the rounds that are left. -/
def flushDelayedAck (cfg : TcpCfg) : Nat → Stack → Stack
  | 0, n => n
  | rounds + 1, n =>
    match n.worker.delayedAck with
    | [] => n
    | i :: rest =>
      let pop (n : Stack) : Stack := { n with worker := { n.worker with delayedAck := rest } }
      if (n.socks i).freed then flushDelayedAck cfg rounds (pop n)
      else if (BitVec.ofNat 32 n.worker.tsUs - (n.socks i).nego.lastAckSentTs).toNat <
          cfg.delayedAck then n
      else flushDelayedAck cfg rounds (pop (n.turn i (xmitDueAck cfg)))

def tcpOutput (cfg : TcpCfg) (n : Stack) : Stack :=
  let tsocks := n.worker.output.take batchSize
  let n := { n with worker := { n.worker with output := n.worker.output.drop batchSize } }
  flushDelayedAck cfg batchSize (exec (fun n i => n.turn i (tcpOutputOne cfg)) n tsocks)

def acceptLoop (socks : Nat → TcpSock) : List Nat → Nat → List Nat × List Nat
  | [], _ => ([], [])
  | i :: rest, 0 => ([], i :: rest)
  | i :: rest, room + 1 =>
    if (socks i).freed then acceptLoop socks rest (room + 1)
    else if (socks i).state ≠ .established ∧ (socks i).state ≠ .closeWait then
      acceptLoop socks rest (room + 1)
    else
      let r := acceptLoop socks rest room
      ((socks i).sid :: r.1, r.2)

def tpaAcceptBurst (n : Stack) (nrSid : Nat) : List Nat × Stack :=
  let r := acceptLoop n.socks n.worker.accept nrSid
  (r.1, { n with worker := { n.worker with accept := r.2 }
                 accepted := fun i => n.accepted i || r.1.contains i })

/-- What is asked of one socket from outside the loops. -/
inductive SockCall
  | write (iov : List Iovec)
  | read (nrIov : Nat)
  | close
  | dropOoo

def SockCall.event : SockCall → ConnEv
  | .write iov => .write iov
  | .read n => .read n
  | .close => .close
  | .dropOoo => .dropOoo

/-- The steps of a worker. `world` is what happens outside it. -/
inductive StackEv
  | input (burst : List (Nat × Packet))
  | output
  | timer (i : Nat) (k : TimerKind)
  | call (i : Nat) (c : SockCall)
  | neighReady (i : Nat)
  | acceptBurst (nrSid : Nat)
  | connect (i : Nat) (isIpv6 : Bool)
  | listen (i : Nat) (isIpv6 : Bool)
  | eventCtrl (i : Nat) (op : EventCtrl) (events : BitVec 32) (data : Nat)
  | eventPoll (max : Int)
  | world (tsUs nrPkt mbufUsed : Nat) (oracles : Oracles)

/-- A socket number that is no longer in use is refused. -/
def ifLive (n : Stack) (i : Nat) (f : St → St) : Stack :=
  if (n.socks i).freed then n else n.turn i f

def stackStep (cfg : TcpCfg) (n : Stack) : StackEv → Stack
  | .input burst => tcpInput cfg n burst
  | .output => tcpOutput cfg n
  | .timer i k => ifLive n i fun s => tcpTimeout cfg s k
  | .call i c => ifLive n i fun s => sockStep cfg s c.event
  | .neighReady i => n.turn i flushTcpPacket
  | .acceptBurst nrSid => (tpaAcceptBurst n nrSid).2
  | .connect i isIpv6 => n.opened i (tcpConnect ⟨n.worker, tsockInit cfg i isIpv6⟩)
  | .listen i isIpv6 => n.opened i (tpaListen cfg n.worker i isIpv6)
  | .eventCtrl i op events data => (tpaEventCtrl n i op events data).2
  | .eventPoll max => (tpaEventPoll n max).2
  | .world tsUs nrPkt mbufUsed oracles =>
    { n with worker := { n.worker with
        tsUs := tsUs, nrPkt := nrPkt, mbufUsed := mbufUsed, oracles := oracles } }

/-- What `sock_alloc` guarantees: the slot it finds is not in use. -/
def SlotFree (n : Stack) : Prop :=
  n.worker.oracles.sockOk.headD false = true →
    (n.socks (n.worker.oracles.slots.headD 0)).freed = true

instance (n : Stack) : Decidable (SlotFree n) := inferInstanceAs (Decidable (_ → _))

/-- What `tsock_lookup` guarantees: the packet belongs to a socket in use. -/
def Routed (n : Stack) (r : Nat × Packet) : Prop := (n.socks r.1).freed = false ∧ SlotFree n

instance (n : Stack) (r : Nat × Packet) : Decidable (Routed n r) :=
  inferInstanceAs (Decidable (_ ∧ _))

def BurstSound (cfg : TcpCfg) (n : Stack) (burst : List (Nat × Packet)) : Prop :=
  Admitted (inputOne cfg) Routed n burst ∧
    Admitted (inputVisit cfg) (fun n _ => SlotFree n) (exec (inputOne cfg) n burst)
      (inputTsocks burst)

def StackEv.Sound (cfg : TcpCfg) (n : Stack) : StackEv → Prop
  | .input burst => BurstSound cfg n burst
  | .connect i _ | .listen i _ => (n.socks i).freed = true
  | _ => True

instance (cfg : TcpCfg) (n : Stack) (burst : List (Nat × Packet)) :
    Decidable (BurstSound cfg n burst) :=
  inferInstanceAs (Decidable (_ ∧ _))

instance (cfg : TcpCfg) (n : Stack) : (e : StackEv) → Decidable (e.Sound cfg n)
  | .input burst => inferInstanceAs (Decidable (BurstSound cfg n burst))
  | .connect i _ | .listen i _ => inferInstanceAs (Decidable ((n.socks i).freed = true))
  | .output | .timer _ _ | .call _ _ | .neighReady _ | .acceptBurst _ | .eventCtrl _ _ _ _
  | .eventPoll _ | .world _ _ _ _ => isTrue trivial

def Stack.boot (cfg : TcpCfg) (nrDesc : Nat) (oracles : Oracles) : Stack where
  worker := .boot nrDesc oracles
  socks := fun i => { tsockInit cfg i false with freed := true }

end LibTpa
