import RtcMcu.Avcodec.Aac
import RtcMcu.Avformat.RtpEncH264

/-!
# RTPEncodeAAC

`avformat/rtp_enc.cpp` and `avformat/rtp_enc_aac.cpp`: an audio frame becomes the payload of one RTP
packet, behind an ADTS header or a LATM header. The packet is written to the first block of
`_temp_packets`.
-/

namespace RtcMcu.Avformat

open RtcMcu.Avcodec

/-- `OutputFormat`. -/
inductive OutputFormat
  | aacLatm
  | aacAdts
  deriving DecidableEq

/-- An `RTPEncodeAAC` that `init` has accepted. -/
structure RTPEncodeAAC where
  outFormat : OutputFormat
  channel : BitVec 32
  rtpDataVec : List RTPData
  seqNum : BitVec 32
  ssrc : BitVec 32
  maxRtpPacketLen : BitVec 16
  sampleRate : BitVec 32
  headerLen_lt : rtpHeaderLen < maxRtpPacketLen.toNat

namespace RTPEncodeAAC

theorem headerLen_lt_of_not_le {maxRtpPacketLen : BitVec 16}
    (h : ¬ maxRtpPacketLen.toNat ≤ rtpHeaderLen) : rtpHeaderLen < maxRtpPacketLen.toNat :=
  Nat.lt_of_not_le h

/-- `RTPEncodeAAC(out_format)` and `init`, or `none` for -1. -/
def init (outFormat : OutputFormat) (ssrc sampleRate : BitVec 32)
    (maxRtpPacketLen initRtpPacketCount : BitVec 16) : Option RTPEncodeAAC :=
  if initRtpPacketCount = 0 then none
  else if hlen : maxRtpPacketLen.toNat ≤ rtpHeaderLen then none
  else some {
    outFormat := outFormat
    channel := 2
    rtpDataVec := []
    seqNum := 0
    ssrc := ssrc
    maxRtpPacketLen := maxRtpPacketLen
    sampleRate := sampleRate
    headerLen_lt := headerLen_lt_of_not_le hlen }

/-- `set_channel`. -/
def setChannel (enc : RTPEncodeAAC) (channel : BitVec 32) : RTPEncodeAAC :=
  { enc with channel := channel }

/-- `build_rtp_header`. -/
def buildRtpHeader (enc : RTPEncodeAAC) (timestamp : BitVec 32) (maker : Bool) :
    RtpFixedHeader × RTPEncodeAAC :=
  ({ csrcLen := 0
     extension := 0
     padding := 0
     version := 2
     payload := RTP_AV_AAC
     marker := BitVec.ofBool maker
     seq := enc.seqNum.setWidth 16
     timestamp := (timestamp.setWidth 64 * enc.sampleRate.setWidth 64 / 1000).setWidth 32
     ssrc := enc.ssrc }, { enc with seqNum := enc.seqNum + 1 })

/-- `LATM_HEADER` of one unit of `len` bytes. -/
def latmHeader (len : Nat) : List Byte :=
  [0x00, 0x10, BitVec.ofNat 8 ((len &&& 0x1fe0) >>> 5), BitVec.ofNat 8 ((len &&& 0x1f) <<< 3)]

/-- The header before a payload of `len` bytes. -/
def payloadHeader (enc : RTPEncodeAAC) (len : Nat) : List Byte :=
  match enc.outFormat with
  | .aacAdts =>
    AACConfig.buildAacAdts
      { AACConfig.ofFields AACPLUS_AOT_AAC_LC (enc.channel.setWidth 8) enc.sampleRate.toNat with
        frameLength := len + adtsHeaderSize }
  | .aacLatm => latmHeader len

/-- `generate_packet`. -/
def generatePacket (enc : RTPEncodeAAC) (payload : List Byte) (timestamp : BitVec 32) :
    Except Fault RTPEncodeAAC :=
  let (hdr, enc) := enc.buildRtpHeader timestamp true
  let bytes := enc.payloadHeader payload.length ++ payload
  let writeOffset := rtpHeaderLen + bytes.length
  if writeOffset ≤ enc.maxRtpPacketLen.toNat then
    .ok { enc with
          rtpDataVec := [{ header := { hdr with data := bytes }, len := BitVec.ofNat 16 writeOffset }] }
  else .error .outOfBounds

/-- A payload that fits the packet, of a length that a frame length can say. -/
structure Payload (enc : RTPEncodeAAC) where
  bytes : List Byte
  len_pos : 1 ≤ bytes.length
  len_lt : bytes.length + adtsHeaderSize < 8192
  fits : rtpHeaderLen + (enc.payloadHeader bytes.length).length + bytes.length ≤
    enc.maxRtpPacketLen.toNat

/-! ## The packet -/

/-- What a packet with this payload is like. -/
structure Packs (enc : RTPEncodeAAC) (payload : List Byte) (data : RTPData) : Prop where
  type : data.header.payload = RTP_AV_AAC
  extension : data.header.extension = 0
  bytes : data.header.data = enc.payloadHeader payload.length ++ payload
  len : data.len.toNat = rtpHeaderLen + data.header.data.length

/-- One packet is made of a payload. -/
theorem generatePacket_packs (enc : RTPEncodeAAC) (payload : enc.Payload) (timestamp : BitVec 32) :
    ∃ enc' data, enc.generatePacket payload.bytes timestamp = .ok enc' ∧ enc'.rtpDataVec = [data] ∧
      enc.Packs payload.bytes data := by
  have hfits := payload.fits
  have hmax := enc.maxRtpPacketLen.isLt
  have hlength : rtpHeaderLen +
      (enc.payloadHeader payload.bytes.length ++ payload.bytes).length ≤
        enc.maxRtpPacketLen.toNat := by
    rw [List.length_append]
    omega
  refine ⟨_, _, if_pos hlength, rfl, rfl, rfl, rfl, ?_⟩
  exact Nat.mod_eq_of_lt (Nat.lt_of_le_of_lt hlength hmax)

end RTPEncodeAAC

end RtcMcu.Avformat
