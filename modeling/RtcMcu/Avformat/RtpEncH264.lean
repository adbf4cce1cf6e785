import RtcMcu.Avcodec.H264
import RtcMcu.Avformat.Rtp

/-!
# RTPEncodeH264

`avformat/rtp_enc.cpp` and `avformat/rtp_enc_h264.cpp`: a NAL unit becomes the RTP packets that carry
it. A short unit is the payload of one packet; a long one is cut into fragments (FU-A), each behind an
indicator and a fragment header that together replace the unit's own first byte.

The packets of one frame lie in the blocks of `_temp_packets`, each in a block of its own, so the
model keeps how many blocks there are and how many are used, and each packet as what was written to
its block.
-/

namespace RtcMcu.Avformat

open RtcMcu.Avcodec (slice)

/-- `NALU_HEADER` and `FU_INDICATOR`, one byte each. -/
def naluHeader (f : BitVec 1) (nri : BitVec 2) (type : BitVec 5) : Byte := f ++ nri ++ type

/-- `FU_HEADER`, one byte. -/
def fuHeader (s e r : BitVec 1) (type : BitVec 5) : Byte := s ++ e ++ r ++ type

/-- `FU Indicator; Type = 28 ---> FU-A`. -/
def FU_A : BitVec 5 := 28

/-- `NALU_t`, as far as the encoder reads it again. -/
structure Nalu where
  forbiddenBit : Byte
  nalReferenceIdc : Byte
  nalUnitType : Byte
  buf : List Byte

namespace Nalu

/-- The fields of the unit at `buf`, whose first byte is `header`. -/
def read (header : Byte) (buf : List Byte) : Nalu where
  forbiddenBit := header &&& 0x80
  nalReferenceIdc := header &&& 0x60
  nalUnitType := header &&& 0x1f
  buf := buf

def len (nalu : Nalu) : Nat := nalu.buf.length

/-- What is assigned to a bit field keeps its low bits: `0x80` is 0 in a field of one bit. -/
def f (nalu : Nalu) : BitVec 1 := nalu.forbiddenBit.setWidth 1

def nri (nalu : Nalu) : BitVec 2 := (nalu.nalReferenceIdc >>> 5).setWidth 2

def type (nalu : Nalu) : BitVec 5 := nalu.nalUnitType.setWidth 5

end Nalu

/-- `RTPData`. -/
structure RTPData where
  header : Rtp
  len : BitVec 16

/-- An `RTPEncodeH264` that `init` has accepted. -/
structure RTPEncodeH264 where
  tempPackets : Nat
  nextTempPacket : Nat
  rtpDataVec : List RTPData
  seqNum : BitVec 32
  ssrc : BitVec 32
  maxRtpPacketLen : BitVec 16
  sampleRate : BitVec 32
  tempPackets_pos : 0 < tempPackets
  nextTempPacket_le : nextTempPacket ≤ tempPackets
  headerLen_lt : rtpHeaderLen < maxRtpPacketLen.toNat

namespace RTPEncodeH264

/-- `init` on a new encoder, or `none` for -1. -/
def init (ssrc sampleRate : BitVec 32) (maxRtpPacketLen initRtpPacketCount : BitVec 16) :
    Option RTPEncodeH264 :=
  if hcount : initRtpPacketCount = 0 then none
  else if hlen : maxRtpPacketLen.toNat ≤ rtpHeaderLen then none
  else some {
    tempPackets := initRtpPacketCount.toNat
    nextTempPacket := 0
    rtpDataVec := []
    seqNum := 0
    ssrc := ssrc
    maxRtpPacketLen := maxRtpPacketLen
    sampleRate := sampleRate
    tempPackets_pos := by
      have hne : initRtpPacketCount.toNat ≠ 0 := fun h => hcount (BitVec.eq_of_toNat_eq h)
      omega
    nextTempPacket_le := Nat.zero_le _
    headerLen_lt := by omega }

/-- `get_max_payload_len`. -/
def getMaxPayloadLen (enc : RTPEncodeH264) : BitVec 16 :=
  enc.maxRtpPacketLen - BitVec.ofNat 16 rtpHeaderLen - 10

/-- `get_current_packet`: the next block. There are twice as many when all are used. -/
def getCurrentPacket (enc : RTPEncodeH264) : RTPEncodeH264 :=
  { enc with
    tempPackets :=
      if enc.tempPackets ≤ enc.nextTempPacket then 2 * enc.tempPackets else enc.tempPackets
    nextTempPacket := enc.nextTempPacket + 1
    tempPackets_pos := by
      have := enc.tempPackets_pos
      split <;> omega
    nextTempPacket_le := by
      have := enc.tempPackets_pos
      have := enc.nextTempPacket_le
      split <;> omega }

/-- `((uint64_t)timestamp) * _sample_rate / 1000`, as a `uint32_t`. -/
def rtpTimestamp (enc : RTPEncodeH264) (timestamp : BitVec 32) : BitVec 32 :=
  (timestamp.setWidth 64 * enc.sampleRate.setWidth 64 / 1000).setWidth 32

/-- `build_rtp_header`. -/
def buildRtpHeader (enc : RTPEncodeH264) (timestamp : BitVec 32) (maker : Bool) :
    RtpFixedHeader × RTPEncodeH264 :=
  ({ csrcLen := 0
     extension := 0
     padding := 0
     version := 2
     payload := RTP_AV_H264
     marker := BitVec.ofBool maker
     seq := enc.seqNum.setWidth 16
     timestamp := enc.rtpTimestamp timestamp
     ssrc := enc.ssrc }, { enc with seqNum := enc.seqNum + 1 })

/-- One packet: the next block takes a header and `payload`, and joins `_rtp_data_vec`. -/
def pushPacket (enc : RTPEncodeH264) (timestamp : BitVec 32) (maker : Bool) (payload : List Byte) :
    Except Fault RTPEncodeH264 :=
  let (hdr, enc) := enc.getCurrentPacket.buildRtpHeader timestamp maker
  let writeOffset := rtpHeaderLen + payload.length
  if writeOffset ≤ enc.maxRtpPacketLen.toNat then
    let data : RTPData :=
      { header := { hdr with data := payload }, len := BitVec.ofNat 16 writeOffset }
    .ok { enc with rtpDataVec := enc.rtpDataVec ++ [data] }
  else .error .outOfBounds

/-- The packet that is the whole unit. -/
def singlePacket (enc : RTPEncodeH264) (nalu : Nalu) (timestamp : BitVec 32) (last : Bool) :
    Except Fault RTPEncodeH264 := do
  let bytes ← slice nalu.buf 1 (nalu.len - 1)
  enc.pushPacket timestamp last (naluHeader nalu.f nalu.nri nalu.type :: bytes)

/-- `packet_num`. -/
def packetNum (len max : Nat) : Nat := if len % max ≠ 0 then len / max + 1 else len / max

/-- `lastPackSize`. -/
def lastPackSize (len max : Nat) : Nat := len - (packetNum len max - 1) * max

/-- One round of the loop over the fragments. -/
def fragmentPacket (nalu : Nalu) (timestamp : BitVec 32) (last : Bool) (max : Nat)
    (enc : RTPEncodeH264) (packetIndex : Nat) : Except Fault RTPEncodeH264 := do
  let num := packetNum nalu.len max
  let lastMaker := decide (packetIndex = num - 1)
  let indicator := naluHeader nalu.f nalu.nri FU_A
  let header := fuHeader (BitVec.ofBool (packetIndex = 0)) (BitVec.ofBool lastMaker) 0 nalu.type
  let size := if packetIndex = num - 1 then lastPackSize nalu.len max - 1 else max
  let bytes ← slice nalu.buf (packetIndex * max + 1) size
  enc.pushPacket timestamp (lastMaker && last) (indicator :: header :: bytes)

/-- `nal_generate` of the unit at `buf`, whose size is that of `buf`. -/
def nalGenerate (enc : RTPEncodeH264) (buf : List Byte) (timestamp : BitVec 32) (last : Bool) :
    Except Fault RTPEncodeH264 :=
  match buf with
  | [] => .error .outOfBounds
  | header :: _ =>
    let nalu := Nalu.read header buf
    let max := enc.getMaxPayloadLen.toNat
    if nalu.len < max then enc.singlePacket nalu timestamp last
    else if max = 0 then .error .divideByZero
    else (List.range (packetNum nalu.len max)).foldlM (fragmentPacket nalu timestamp last max) enc

/-- The units of a frame, one after the other; the last one is told so. -/
def generateUnits (timestamp : BitVec 32) : RTPEncodeH264 → List (List Byte) →
    Except Fault RTPEncodeH264
  | enc, [] => .ok enc
  | enc, [nal] => enc.nalGenerate nal timestamp true
  | enc, nal :: next :: nals => do
    let enc ← enc.nalGenerate nal timestamp false
    generateUnits timestamp enc (next :: nals)

end RTPEncodeH264

end RtcMcu.Avformat
