/- LibTpa/Tcp/Basic
   digest: Constants, states, flags, configuration and result codes of the TCP stack. -/

import LibTpa.Lib.SerialNumber

set_option autoImplicit false

namespace LibTpa

open LibTpa.Lib.SerialNumber

abbrev Byte := BitVec 8
abbrev U16 := BitVec 16
abbrev U32 := BitVec 32

/-- The eleven connection states of `tcp.h`, in the order of the C enumeration. -/
inductive TcpState
  | closed | listen | synSent | synRcvd | established | finWait1 | finWait2
  | closeWait | closing | lastAck | timeWait
  deriving DecidableEq, Repr

structure TcpFlags where
  fin : Bool := false
  syn : Bool := false
  rst : Bool := false
  psh : Bool := false
  ack : Bool := false
  urg : Bool := false
  ece : Bool := false
  cwr : Bool := false
  deriving DecidableEq, Repr

def TcpFlags.clearPsh (f : TcpFlags) : TcpFlags := { f with psh := false }

def tcpFlagAck : TcpFlags := { ack := true }

def TcpFlags.isEmpty (f : TcpFlags) : Bool := f = {}

/-- Statistics and error codes that the modelled functions return. A C return
value of zero is `none` in an `Option Code`. -/
inductive Code
  | errTcpRxqEnqueueFail | errTcpRcvOooDup | errTcpRcvOooLimit
  | errTcpNoAck | errTcpInvalidAck | errNotImplemented | errTcpInvalidSeq | errTcpInvalidTs
  | warnRstRecv | errConnRefused | warnGotRstAtTimeWait | errTooManySocks
  | warnAckAtListen | warnInvliadPktAtListen | warnHalfOpenDetected | errRstWithNoAck
  | errNoSynAndRst | simultaneousConnect | errInvalidSynSentProcess | errInvalidStateForFin
  | warnStalePktWorkerMismatch | pktRecvAfterClose | warnInvliadSynRcvd
  | errTcpRcvInvalidState | errPktAllocFail | errPktPrependHdr | errDevTxqFull
  | errNeighEnqueue | errInvalidTcpOptLen | errInvalidTcpOptType | errNoNetHdr
  deriving DecidableEq, Repr

inductive Errno
  | ebadf | eagain | enotconn | epipe | econnreset | econnrefused | etimedout | einval
  deriving DecidableEq, Repr

/-- A ring size that passes the assertion of `tcp_rxq_init` and `tcp_txq_init`
and the maximum of `tcp_cfg_specs`. -/
def RingSize (n : Nat) : Prop := n = 0 ∨ ∃ k ≤ 15, n = 2 ^ k

theorem RingSize.le {n : Nat} (h : RingSize n) : n ≤ 2 ^ 15 := by
  rcases h with rfl | ⟨k, hk, rfl⟩
  · exact Nat.zero_le _
  · exact Nat.pow_le_pow_right (by decide) hk

/-! The defaults of `tcp_cfg` keep the limits. -/

theorem rcvQueueDefault_ok : RingSize 2048 := .inr ⟨11, by decide, rfl⟩
theorem sndQueueDefault_ok : RingSize 512 := .inr ⟨9, by decide, rfl⟩
theorem cwndInitDefault_le : (16384 : U32).toNat ≤ 2 ^ 30 := by decide
theorem cwndMaxDefault_le : (1073741824 : U32).toNat ≤ 2 ^ 30 := by decide
theorem chainDefault_ge : 2 ≤ 45 := by decide
theorem chainDefault_le : 45 ≤ 45 := by decide
theorem mssDefault_le : 0 ≤ 9216 - 128 := by decide
theorem retriesDefault_le : 7 ≤ 255 := by decide
theorem chunkDefault_pos : 1 ≤ 16384 := by decide
theorem chunkDefault_lt : 16384 < 2 ^ 32 := by decide
theorem rtoMinDefault_ge : 10000 ≤ (100000 : U32).toNat := by decide
theorem rtoMinDefault_le : (100000 : U32).toNat ≤ 120000000 := by decide
theorem mbufRoomDefault_ge : 2048 ≤ 2048 := by decide

/-- The fields of `struct tcp_cfg` that the modelled functions read, with their
defaults and the limits that `tcp_cfg_specs` puts on them. `mbufRoom` is the
tailroom of a fresh generic mbuf, at least `RTE_MBUF_DEFAULT_DATAROOM`. -/
structure TcpCfg where
  enableTso : Bool := true
  enableTs : Bool := true
  enableWs : Bool := true
  enableSack : Bool := true
  enableRxMerge : Bool := true
  rcvQueueSize : Nat := 2048
  sndQueueSize : Nat := 512
  timeWait : Nat := 60000000
  keepalive : Nat := 120000000
  delayedAck : Nat := 1000
  cwndInit : U32 := 16384
  cwndMax : U32 := 1073741824
  dropOooThreshold : Nat := 0
  measureLatency : Bool := false
  usrSndMss : Nat := 0
  rcvOooLimit : Nat := 2048
  tcpRtoMin : U32 := 100000
  pktMaxChain : Nat := 45
  retries : Nat := 7
  synRetries : Nat := 7
  writeChunkSize : Nat := 16384
  mbufRoom : Nat := 2048
  rcvQueue_ok : RingSize rcvQueueSize := by exact rcvQueueDefault_ok
  sndQueue_ok : RingSize sndQueueSize := by exact sndQueueDefault_ok
  cwndInit_le : cwndInit.toNat ≤ 2 ^ 30 := by exact cwndInitDefault_le
  cwndMax_le : cwndMax.toNat ≤ 2 ^ 30 := by exact cwndMaxDefault_le
  chain_ge : 2 ≤ pktMaxChain := by exact chainDefault_ge
  chain_le : pktMaxChain ≤ 45 := by exact chainDefault_le
  mss_le : usrSndMss ≤ 9216 - 128 := by exact mssDefault_le
  retries_le : retries ≤ 255 := by exact retriesDefault_le
  synRetries_le : synRetries ≤ 255 := by exact retriesDefault_le
  chunk_pos : 1 ≤ writeChunkSize := by exact chunkDefault_pos
  chunk_lt : writeChunkSize < 2 ^ 32 := by exact chunkDefault_lt
  rtoMin_ge : 10000 ≤ tcpRtoMin.toNat := by exact rtoMinDefault_ge
  rtoMin_le : tcpRtoMin.toNat ≤ 120000000 := by exact rtoMinDefault_le
  mbufRoom_ge : 2048 ≤ mbufRoom := by exact mbufRoomDefault_ge

def batchSize : Nat := 64
def txqBufSize : Nat := 4096
def tsockQuickackCount : Nat := 30
def tsockMaxMergeSize : Nat := 1500 * 32
def tcpMaxNrSackBlock : Nat := 3
def tcpMssDefault : Nat := 536
def tcpWindowMax : Nat := 2 ^ 30
def tcpWscaleDefault : Nat := 10
def tcpWscaleMax : Nat := 14
def tcpRtoMax : Nat := 120000000
def tcpRtoDefault : U32 := 100000
def tcpRttMax : Int := 400000
def tcpPawsIdleMax : Nat := 24 * 60 * 60 * 24
def tcpOptTsSpace : Nat := 12
def defaultMtu : Nat := 1500

def tsockRcvWndDefault (size : Nat) : Nat := size * 1400

def seqLt (a b : U32) : Prop := (a - b).toInt < 0
def seqLe (a b : U32) : Prop := (a - b).toInt ≤ 0
def seqGt (a b : U32) : Prop := 0 < (a - b).toInt
def seqGe (a b : U32) : Prop := 0 ≤ (a - b).toInt

instance (a b : U32) : Decidable (seqLt a b) := inferInstanceAs (Decidable (_ < _))
instance (a b : U32) : Decidable (seqLe a b) := inferInstanceAs (Decidable (_ ≤ _))
instance (a b : U32) : Decidable (seqGt a b) := inferInstanceAs (Decidable (_ < _))
instance (a b : U32) : Decidable (seqGe a b) := inferInstanceAs (Decidable (_ ≤ _))

theorem seqLt_iff (a b : U32) : seqLt a b ↔ 2 ^ 31 ≤ (a - b).toNat :=
  toInt_neg_iff (w := 31) (a - b)

theorem seqGt_iff (a b : U32) : seqGt a b ↔ 0 < (a - b).toNat ∧ (a - b).toNat < 2 ^ 31 :=
  toInt_pos_iff (w := 31) (a - b)

theorem seqGe_iff (a b : U32) : seqGe a b ↔ (a - b).toNat < 2 ^ 31 := by
  have h := seqLt_iff a b
  unfold seqLt at h
  unfold seqGe
  omega

theorem seqLe_iff (a b : U32) : seqLe a b ↔ a = b ∨ 2 ^ 31 ≤ (a - b).toNat := by
  have h := seqGt_iff a b
  have hz : (a - b).toNat = 0 ↔ a = b := @ahead_eq_zero _ b a
  unfold seqGt at h
  unfold seqLe
  rw [← hz]
  omega

theorem seqLt_ahead {base a b : U32} (ha : ahead base a < 2 ^ 31) (hb : ahead base b < 2 ^ 31) :
    seqLt a b ↔ ahead base a < ahead base b := by
  unfold seqLt
  rw [toInt_sub_of_ahead (w := 31) ha hb]
  omega

theorem seqGt_ahead {base a b : U32} (ha : ahead base a < 2 ^ 31) (hb : ahead base b < 2 ^ 31) :
    seqGt a b ↔ ahead base b < ahead base a := by
  unfold seqGt
  rw [toInt_sub_of_ahead (w := 31) ha hb]
  omega

theorem seqGe_ahead {base a b : U32} (ha : ahead base a < 2 ^ 31) (hb : ahead base b < 2 ^ 31) :
    seqGe a b ↔ ahead base b ≤ ahead base a := by
  unfold seqGe
  rw [toInt_sub_of_ahead (w := 31) ha hb]
  omega

theorem toInt_sub_add (base : U32) {p q : Nat} (h1 : p < q + 2 ^ 31) (h2 : q < p + 2 ^ 31) :
    ((base + BitVec.ofNat 32 p) - (base + BitVec.ofNat 32 q)).toInt = (p : Int) - q := by
  have hsub : (base + BitVec.ofNat 32 p) - (base + BitVec.ofNat 32 q) =
      BitVec.ofNat 32 p - BitVec.ofNat 32 q := by bv_omega
  rw [hsub, BitVec.toInt_eq_toNat_cond, BitVec.toNat_sub, BitVec.toNat_ofNat, BitVec.toNat_ofNat]
  split <;> omega

theorem seqLt_add {base : U32} {p q : Nat} (h1 : p < q + 2 ^ 31) (h2 : q < p + 2 ^ 31) :
    seqLt (base + BitVec.ofNat 32 p) (base + BitVec.ofNat 32 q) ↔ p < q := by
  unfold seqLt
  rw [toInt_sub_add base h1 h2]
  omega

theorem seqGt_add {base : U32} {p q : Nat} (h1 : p < q + 2 ^ 31) (h2 : q < p + 2 ^ 31) :
    seqGt (base + BitVec.ofNat 32 p) (base + BitVec.ofNat 32 q) ↔ q < p := by
  unfold seqGt
  rw [toInt_sub_add base h1 h2]
  omega

theorem seqGe_add {base : U32} {p q : Nat} (h1 : p < q + 2 ^ 31) (h2 : q < p + 2 ^ 31) :
    seqGe (base + BitVec.ofNat 32 p) (base + BitVec.ofNat 32 q) ↔ q ≤ p := by
  unfold seqGe
  rw [toInt_sub_add base h1 h2]
  omega

theorem seqLe_add {base : U32} {p q : Nat} (h1 : p < q + 2 ^ 31) (h2 : q < p + 2 ^ 31) :
    seqLe (base + BitVec.ofNat 32 p) (base + BitVec.ofNat 32 q) ↔ p ≤ q := by
  unfold seqLe
  rw [toInt_sub_add base h1 h2]
  omega

end LibTpa
