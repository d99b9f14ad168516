/- LibTpa/Sock/Init
   digest: Fresh workers and sockets. -/

import LibTpa.Sock.State

set_option autoImplicit false

namespace LibTpa

def tcpTxqInit (cfg : TcpCfg) : TcpTxq where
  una := 0
  nxt := 0
  write := 0
  size := cfg.sndQueueSize
  size_ok := cfg.sndQueue_ok
  descs := fun _ => wildDesc

/-- `tsock_init`: all fields are zeroed first. -/
def tsockInit (cfg : TcpCfg) (sid : Nat) (isIpv6 : Bool) : TcpSock where
  sid := sid
  freed := false
  state := .closed
  err := none
  closeIssued := false
  passiveConnection := false
  isIpv6 := isIpv6
  netHdrLen := 0
  packetId := 0
  flags := {}
  rcv :=
    { rcvIsn := 0, rcvNxt := 0
      rcvWnd := tsockRcvWndDefault cfg.rcvQueueSize
      rxqSize := cfg.rcvQueueSize
      rxq := [], ooo := [], nrOooPkt := 0, lastOooPkt := none, oooStartTs := 0
      sackOk := false, sackBlocks := [] }
  snd :=
    { sndIsn := 0, sndUna := 0, sndNxt := 0, dataSeqNxt := 0, partialAck := 0
      txq := tcpTxqInit cfg
      retransSeq := 0, retransDescBase := 0, retransTsVal := 0, retransStage := .none
      finSent := false, closedAtSynRcvd := false }
  cc :=
    { sndWnd := 0, sndWl1 := 0, sndWl2 := 0, sndRecover := 0, sndCwnd := 0
      sndCwndUncommited := 0, sndCwndOrig := 0, sndCwndTsUs := 0, sndSsthresh := 0
      sndMss := 0, sndWscale := 0, sackedBytes := 0, nrDupack := 0
      rtt := 0, srtt := 0, rttvar := 0, rto := 0, rtoShift := 0, zeroWndProbeShift := 0
      rtoStartTs := 0, initTsUs := 0, sndTs := 0 }
  timers := {}
  nego :=
    { tsoEnabled := cfg.enableTso, tsEnabled := cfg.enableTs, tsOk := false
      wsEnabled := cfg.enableWs, wsOk := false, sackEnabled := cfg.enableSack
      rcvWscale := 0, tsRecent := 0, tsRecentInSec := 0
      lastAckSent := 0, lastAckSentTs := 0, quickack := tsockQuickackCount }
  ev := {}
  rxMergeHead := none
  lastSndPkt := 0
  emitted := []

def Worker.boot (nrDesc : Nat) (oracles : Oracles) : Worker where
  id := 0
  tsUs := 0
  startUs := 0
  tx := { free := List.range' 1 nrDesc, mem := fun _ => TxDesc.blank }
  rx := { nrOooMbuf := 0, nrInProcessMbuf := 0, freed := [] }
  nrWriteMbuf := 0
  mbufUsed := 0
  done := []
  nrPkt := 0
  output := []
  delayedAck := []
  eventQueue := []
  accept := []
  children := []
  fault := false
  oracles := oracles

end LibTpa
