import RtcMcu.Fragment.RtpBlock
import RtcMcu.Lib.Parity
import RtcMcu.Lib.Serial

/-!
# RTPSession

What the sender and the receiver sessions of `rtp_trans/rtp_session.cpp` share: the configuration
they read, the list of NACKed numbers, the FEC scratch buffer and `fec_xor_64`.

Clock readings are milliseconds as naturals. The flags and counters that only feed logs, reports
of bit rates and the floating-point loss rate are left out.
-/

namespace RtcMcu.RtpTrans

open RtcMcu.Avformat RtcMcu.Fragment RtcMcu.Parity

/-! ## Configuration -/

/-- The fields of `RTPTransConfig` the sessions decide by. -/
structure RTPTransConfig where
  maxNacklstSize : BitVec 32
  maxPacketAge : BitVec 32
  srRrInterval : BitVec 32
  sessionTimeout : BitVec 32
  minSameNackInterval : BitVec 32
  fecRtpCount : BitVec 32
  fecInterleavePackageVal : BitVec 32
  fecL : BitVec 32
  fecD : BitVec 32
  fecDL : BitVec 32
  deriving DecidableEq, Repr

/-- `FEC_RTP_COUNT`, which audio uses whatever the configuration says. -/
def FEC_RTP_COUNT : BitVec 32 := 4

/-- `set_default_config`. -/
def RTPTransConfig.default : RTPTransConfig where
  maxNacklstSize := 250
  maxPacketAge := 450
  srRrInterval := 1000
  sessionTimeout := 10000
  minSameNackInterval := 30
  fecRtpCount := FEC_RTP_COUNT
  fecInterleavePackageVal := 2
  fecL := 4
  fecD := 4
  fecDL := 4

/-! ## NACKed numbers -/

/-- `is_newer_seq`. -/
def isNewerSeq (seq preseq : Seq) : Bool := seq != preseq && seq - preseq < 0x8000#16

/-- `tNackRetransInfo`. -/
structure NackRetransInfo where
  time : Nat
  retransCount : Nat
  deriving DecidableEq, Repr

/-- `_nacks`, a `std::map` ordered by `SequenceNumberLessThan`, from the oldest number on. The
comparison orders the keys as long as they lie within half a turn of each other. -/
abbrev NackMap := List (Seq × NackRetransInfo)

/-- `SequenceNumberLessThan`. -/
def seqLess (a b : Seq) : Bool := isNewerSeq b a

/-- `insert` of a `std::map`: a key that is there keeps what it has. -/
def NackMap.insert (m : NackMap) (seq : Seq) : NackMap :=
  if m.any (·.1 == seq) then m
  else m.takeWhile (fun e => seqLess e.1 seq) ++
    (seq, { time := 0, retransCount := 0 }) :: m.dropWhile fun e => seqLess e.1 seq

/-- `erase` by key. -/
def NackMap.erase (m : NackMap) (seq : Seq) : NackMap := m.filter fun e => e.1 != seq

/-- `find`. -/
def NackMap.find (m : NackMap) (seq : Seq) : Option NackRetransInfo :=
  (m.find? fun e => e.1 == seq).map (·.2)

/-! ## The session -/

/-- The state of `RTPSession`. -/
structure RTPSession where
  ssrc : BitVec 32
  payloadType : RTPAVType
  lastseq : Seq
  extendMaxSeq : BitVec 32
  lastRtpTimestamp : BitVec 32
  lastKeepliveTs : Nat
  fracRtpSendbytes : BitVec 32
  totalRtpSendbytes : BitVec 64
  totalRtpPacketcount : BitVec 32
  fecRecoverCount : BitVec 64
  retransNackRecoverCount : BitVec 64
  isDirty : Bool
  lastNacksDirty : Nat
  closed : Bool
  /-- `_pkt_history`, the first of the three arrays that lie behind each other -/
  pktHistory : Seq → Bool
  /-- `_pkt_data`, the scratch buffer of 2048 bytes in which FEC packets are built and packets
  recovered -/
  pktData : Rtp
  nacks : NackMap

/-- `RTPSession::RTPSession`. -/
def RTPSession.new : RTPSession where
  ssrc := 0
  payloadType := RTP_AV_NULL
  lastseq := 0
  extendMaxSeq := 0
  lastRtpTimestamp := 0
  lastKeepliveTs := 0
  fracRtpSendbytes := 0
  totalRtpSendbytes := 0
  totalRtpPacketcount := 0
  fecRecoverCount := 0
  retransNackRecoverCount := 0
  isDirty := true
  lastNacksDirty := 0
  closed := false
  pktHistory := fun _ => false
  pktData := Rtp.zero
  nacks := []

/-- `isNacklistToolarge`. -/
def RTPSession.isNacklistToolarge (cfg : RTPTransConfig) (s : RTPSession) : Bool :=
  cfg.maxNacklstSize != 0 && decide (cfg.maxNacklstSize.toNat < s.nacks.length)

/-- The age test of `isNacklistTooOld`: a difference of 16-bit numbers as an `int`, then cast to
32 bits without a sign. -/
def tooOld (cfg : RTPTransConfig) (latest seq : Seq) : Bool :=
  cfg.maxPacketAge != 0 && decide (cfg.maxPacketAge < latest.setWidth 32 - seq.setWidth 32)

/-- `isNacklistTooOld`. -/
def RTPSession.isNacklistTooOld (cfg : RTPTransConfig) (s : RTPSession) : Bool :=
  match s.nacks with
  | [] => false
  | e :: _ => tooOld cfg s.lastseq e.1

/-- The head of `on_handle_rtp`: the session takes the ssrc and the payload type of the first
packet that shows them. -/
def RTPSession.adopt (s : RTPSession) (pkt : Rtp) : RTPSession :=
  let s := if s.ssrc = 0 then { s with ssrc := pkt.ssrc } else s
  if s.payloadType = RTP_AV_NULL ∧ isFec pkt.payload = false then
    { s with payloadType := pkt.payload }
  else s

/-- The two timestamps lie 20 seconds or more apart: `abs(int(a - b)) >= int(20 * time_base)`. -/
def timestampJump (timeBase a b : BitVec 32) : Bool :=
  0 < timeBase && BitVec.sle (20 * timeBase) (a - b).abs

/-! ## fec_xor_64 -/

/-- The payload of a packet of `tLen` bytes: the `t_len - sizeof(RTP_FIXED_HEADER)` bytes at
`t_pkt->data`. A length below the header's wraps around and the copy runs over everything. -/
def payloadBytes (t : Rtp) (tLen : Nat) : Except Fault (List Byte) :=
  if tLen < rtpHeaderLen then .error .outOfBounds else .ok (t.data.take (tLen - rtpHeaderLen))

/-- `fec_xor_64`: the source, padded with zeros in `_xor_tmp_data`, goes word by word into `dst`.
`dst` here is the part of `_pkt_data` from the destination on; what the last words change behind
it falls in `_xor_tmp_data`, which the next call clears. -/
def fecXor64 (src dst : List Byte) (dstLen : Nat) : List Byte :=
  let tmp := src ++ List.replicate (2048 - src.length) 0
  (List.range ((max src.length dstLen + 7) / 8)).foldl
    (fun dst j => if j < src.length then xorChunk 8 tmp dst j else dst) dst

/-- `fec_xor_64` is the xor of the source into the destination. -/
theorem fecXor64_eq (src dst : List Byte) (dstLen : Nat) :
    fecXor64 src dst dstLen = xorInto dst src := by
  have hpad : ∀ i, (src ++ List.replicate (2048 - src.length) 0).getD i 0 = src.getD i 0 := by
    intro i
    simp only [List.getD_eq_getElem?_getD, List.getElem?_append, List.getElem?_replicate]
    by_cases hi : i < src.length
    · rw [if_pos hi]
    · rw [if_neg hi, List.getElem?_eq_none (Nat.le_of_not_lt hi)]
      split <;> rfl
  have hzero : ∀ i, src.length ≤ i → src.getD i 0 = 0 := by
    intro i hi
    rw [List.getD_eq_getElem?_getD, List.getElem?_eq_none hi]
    rfl
  have hwhole := xorChunks_eq 8 (src ++ List.replicate (2048 - src.length) 0) src.length
    ((max src.length dstLen + 7) / 8) dst (fun i hi => (hpad i).trans (hzero i (by omega)))
    (fun i hi => (hpad i).trans (hzero i (by omega)))
  rw [fecXor64, hwhole, xorInto, xorInto]
  exact congrArg (fun f => dst.mapIdx f) (funext fun i => by rw [hpad i])

end RtcMcu.RtpTrans
