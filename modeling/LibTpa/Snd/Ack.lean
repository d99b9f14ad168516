/- LibTpa/Snd/Ack
   digest: Acknowledgements: released descriptors, round-trip times, SACK, recovery. -/

import LibTpa.Snd.Xmit
import LibTpa.Input.Options
import Mathlib.Data.List.Sort

set_option autoImplicit false

namespace LibTpa

def capRtt (rtt : U32) : U32 := if rtt.toInt < tcpRttMax then rtt else BitVec.ofInt 32 tcpRttMax

def maxU32 (a b : U32) : U32 := if b < a then a else b

def minU32 (a b : U32) : U32 := if a < b then a else b

@[simp] theorem toNat_maxU32 (a b : U32) : (maxU32 a b).toNat = max a.toNat b.toNat := by
  unfold maxU32
  split
  · next h => exact (max_eq_left (le_of_lt (BitVec.lt_def.mp h))).symm
  · next h => exact (max_eq_right (not_lt.mp h)).symm

@[simp] theorem toNat_minU32 (a b : U32) : (minU32 a b).toNat = min a.toNat b.toNat := by
  unfold minU32
  split
  · next h => exact (min_eq_left (le_of_lt (BitVec.lt_def.mp h))).symm
  · next h => exact (min_eq_right (not_lt.mp h)).symm

def rttUpdate (cfg : TcpCfg) (c : Cc) (rtt : U32) : Cc :=
  let rtt := capRtt rtt
  let c : Cc := { c with rtt := rtt }
  let c : Cc := if c.srtt ≠ 0 then
      let err := rtt - (c.srtt >>> 3)
      let dev := if err.toInt < 0 then capRtt (-err) else err
      { c with
        srtt := c.srtt + err
        rttvar := c.rttvar + (dev - (c.rttvar >>> 2)) }
    else { c with srtt := rtt <<< 3, rttvar := rtt <<< 1 }
  let rto := (c.srtt >>> 3) + maxU32 cfg.tcpRtoMin c.rttvar
  { c with rto := minU32 rto (BitVec.ofNat 32 tcpRtoMax) }

def txDescDone (s : St) (d : DescId) : St :=
  let v := s.desc d
  let w := if v.memFromMbuf then
      { s.worker with mbufUsed := s.worker.mbufUsed - 1, nrWriteMbuf := s.worker.nrWriteMbuf - 1 }
    else s.worker
  let w := match v.writeDone with
    | some f => { w with done := w.done ++ [(f, v.base, v.param)] }
    | none => w
  { s with worker := { w with tx := txDescFree w.tx d } }

/-- The locals `nr_acked_pkt`, `*rtt` and `now` of `ack_sent_data`. -/
structure AckAcc where
  nr : U16
  rtt : U32
  now : Nat

/-- One released descriptor of `ack_sent_data`, apart from `tx_desc_done`. -/
def ackDesc (s : St) (v : TxDesc) (a : AckAcc) : St × AckAcc :=
  let x := s.tsock.snd
  let s := s.setSnd { x with
    sndUna := x.sndUna + (v.len - x.partialAck)
    partialAck := 0 }
  let s := if v.sacked
    then s.setCc { s.tsock.cc with sackedBytes := s.tsock.cc.sackedBytes - v.len } else s
  let rtt := if a.rtt = 0 ∧ v.retrans = false
    then BitVec.ofNat 32 (usSince s.worker.tsUs v.tsUs) else a.rtt
  if v.measureLatency && a.now == 0 then
    let t := rteRdtsc s
    (t.2, ⟨a.nr + 1, rtt, t.1⟩)
  else (s, ⟨a.nr + 1, rtt, a.now⟩)

/-- The loop of `ack_sent_data`; a missing descriptor is dereferenced there. -/
def ackLoop : Nat → St → U32 → AckAcc → St × AckAcc
  | 0, s, _, a => (s, a)
  | n + 1, s, acked, a =>
    match tcpTxqPeekUna s.tsock.snd.txq a.nr with
    | none => ({ s with worker := { s.worker with fault := true } }, a)
    | some d =>
      let v := s.desc d
      let x := s.tsock.snd
      if x.partialAck + acked < v.len then
        (s.setSnd { x with
          partialAck := x.partialAck + acked
          sndUna := x.sndUna + acked }, a)
      else
        let r := ackDesc s v a
        let s := txDescDone r.1 d
        let acked := acked - (v.len - x.partialAck)
        if acked = 0 then (s, r.2) else ackLoop n s acked r.2

/-- The cursors after `nr` descriptors were released; `nxt` never falls behind. -/
def releaseAcked (x : Snd) (nr : U16) : Snd :=
  let q := x.txq
  { x with txq := { q with
    nxt := if q.nxt - q.una < nr then q.una + nr else q.nxt
    una := q.una + nr } }

def ackSentData (s : St) (acked : U32) : St × U32 :=
  let r := ackLoop ((s.tsock.snd.txq.write - s.tsock.snd.txq.una).toNat + 1) s acked ⟨0, 0, 0⟩
  let s := r.1.setSnd (releaseAcked r.1.tsock.snd r.2.nr)
  (if tcpTxqFreeCount s.tsock.snd.txq = 0 then s else tsockEventAdd s tpaEventOut, r.2.rtt)

def setCwnd (cfg : TcpCfg) (c : Cc) (cwnd : U32) : Cc :=
  { c with sndCwnd := maxU32 (minU32 cwnd cfg.cwndMax) (c.sndMss.setWidth 32) }

def updateCwnd (cfg : TcpCfg) (now : Nat) (c : Cc) (acked : U32) : Cc :=
  let c : Cc := { c with sndCwndUncommited := c.sndCwndUncommited + acked }
  if usSince now c.sndCwndTsUs < (c.srtt >>> 3).toNat then c
  else
    let c : Cc := if c.sndCwndUncommited < c.sndCwnd then c
      else if c.sndCwnd < c.sndSsthresh then setCwnd cfg c (c.sndCwnd + c.sndCwndUncommited)
      else setCwnd cfg c (c.sndCwnd +
        maxU32 1 (c.sndCwndUncommited * c.sndMss.setWidth 32 / c.sndCwnd))
    { c with sndCwndTsUs := now, sndCwndUncommited := 0 }

def leaveFastRetrans (cfg : TcpCfg) (s : St) (cwnd : U32) : St :=
  let s := s.setCc { setCwnd cfg s.tsock.cc cwnd with nrDupack := 0 }
  s.setSnd { s.tsock.snd with retransStage := .none }

def enterFastRetrans (cfg : TcpCfg) (s : St) : St :=
  let c := s.tsock.cc
  let c : Cc := { c with
    sndSsthresh := maxU32 (c.sndCwnd / 2) (2 * c.sndMss.setWidth 32)
    sndRecover := s.tsock.snd.sndNxt
    sndCwndOrig := c.sndCwnd }
  let s := s.setCc
    (setCwnd cfg c (c.sndCwnd + c.nrDupack.setWidth 32 * c.sndMss.setWidth 32))
  let x := s.tsock.snd
  let s := s.setSnd { x with retransStage := .fastRetrans }
  let s := tcpFastRetrans cfg (tcpResetRetrans s x.sndUna x.txq.una)
    (s.tsock.cc.sndMss.setWidth 32)
  if s.tsock.nego.tsOk then
    s.setSnd { s.tsock.snd with retransTsVal := usToTcpTs s.worker.tsUs }
  else s

/-- The part of `handle_fast_retransmit` for a socket in fast retransmission. -/
def inFastRetrans (cfg : TcpCfg) (s : St) (p : Packet) (acked : U32) : St :=
  let c := s.tsock.cc
  if acked = 0 then
    let sacked := if s.tsock.rcv.sackOk then c.sackedBytes
      else c.nrDupack.setWidth 32 * c.sndMss.setWidth 32
    s.setCc (setCwnd cfg c (c.sndCwndOrig + minU32 sacked c.sndCwndOrig))
  else if seqLt p.ack c.sndRecover then
    let x := s.tsock.snd
    if x.retransTsVal ≠ 0 ∧ seqLt p.tsEcr x.retransTsVal then leaveFastRetrans cfg s c.sndCwndOrig
    else
      let s := s.setSnd { x with retransTsVal := 0 }
      let s := s.setCc (setCwnd cfg c (maxU32 c.sndCwndOrig (c.sndCwnd - acked)))
      let budget := if s.tsock.rcv.sackOk then minU32 c.sackedBytes c.sndSsthresh
        else c.sndMss.setWidth 32
      let s := tcpFastRetrans cfg s budget
      timerRtoStart s s.tsock.cc.rto.toNat
  else leaveFastRetrans cfg s c.sndSsthresh

/-- A socket that is not recovering enters unless the ACK is for old data. -/
def tryFastRetrans (cfg : TcpCfg) (s : St) (p : Packet) : St :=
  if s.tsock.snd.retransStage = .none ∧ seqGt p.ack s.tsock.cc.sndRecover
    then enterFastRetrans cfg s else s

def handleFastRetransmit (cfg : TcpCfg) (s : St) (p : Packet) (acked : U32) : St :=
  if s.tsock.cc.nrDupack < 3 ∧ s.tsock.snd.retransStage ≠ .fastRetrans then s
  else
    let s := tryFastRetrans cfg s p
    if s.tsock.snd.retransStage = .fastRetrans then inFastRetrans cfg s p acked else s

/-- `qsort` with `sack_block_cmp`, on at most three blocks. -/
def sortBlocks (l : List SackBlock) : List SackBlock :=
  l.insertionSort fun a b => ¬ seqGt a.start b.start

def blocksApart : List SackBlock → Bool
  | a :: b :: l => !decide (seqLt b.start a.stop) && blocksApart (b :: l)
  | _ => true

def sortSack (l : List SackBlock) : Option (List SackBlock) :=
  if blocksApart (sortBlocks l) then some (sortBlocks l) else none

def markDescSacked (s : St) (d : DescId) : St :=
  let v := s.desc d
  if v.sacked then s
  else
    let s := s.setCc { s.tsock.cc with sackedBytes := s.tsock.cc.sackedBytes + v.len }
    s.setDesc d { v with sacked := true }

/-- The inner loop of `tcp_rcv_sack`; it leaves `desc_off` behind the
descriptor it stopped at. -/
def sackBlockLoop (blk : SackBlock) : Nat → St → U16 → St × U16
  | 0, s, off => (s, off)
  | n + 1, s, off =>
    match tcpTxqPeekUna s.tsock.snd.txq off with
    | none => (s, off + 1)
    | some d =>
      let stop := (s.desc d).seq + (s.desc d).len
      if seqGe stop s.tsock.snd.sndNxt then (s, off + 1)
      else if seqGe stop blk.stop then (s, off + 1)
      else if seqGe (s.desc d).seq blk.start then
        sackBlockLoop blk n (markDescSacked s d) (off + 1)
      else sackBlockLoop blk n s (off + 1)

def sackLoop : List SackBlock → St → U16 → St
  | [], s, _ => s
  | blk :: rest, s, off =>
    if seqGt blk.stop s.tsock.snd.sndNxt then sackLoop rest s off
    else
      let q := s.tsock.snd.txq
      let r := sackBlockLoop blk ((q.write - q.una).toNat + 1) s off
      sackLoop rest r.1 r.2

def tcpRcvSack (s : St) (o : TcpOpts) : St :=
  match sortSack o.sackBlocks with
  | none => s
  | some l => sackLoop l s 0

end LibTpa
