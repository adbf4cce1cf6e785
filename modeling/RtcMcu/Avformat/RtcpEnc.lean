import RtcMcu.Avformat.Rtp

/-!
# RTCP packets are built

`avformat/rtcp_enc.cpp` and the classes of `avformat/rtcp.h` that build RTCP packets. A builder
collects what its packet carries and writes it behind the packets before it, unless the packet would
end behind the maximum length. What is written is a list of bytes; `*length` is the length of the
list.
-/

namespace RtcMcu.Avformat.Rtcp

/-! ## Constants -/

/-- `IP_PACKET_SIZE`. -/
def ipPacketSize : Nat := 1500

/-- `RTCP_CNAME_SIZE`. -/
def rtcpCnameSize : Nat := 256

/-- `kRtcpAppCode_DATA_SIZE`. -/
def kRtcpAppCodeDataSize : Nat := 32 * 4

/-- `kSendSideNackListSizeSanity`. -/
def kSendSideNackListSizeSanity : Nat := 20000

/-- `RTCPPT`. -/
abbrev RTCPPT := Byte

def PT_SR : RTCPPT := 200
def PT_RR : RTCPPT := 201
def PT_SDES : RTCPPT := 202
def PT_BYE : RTCPPT := 203
def PT_APP : RTCPPT := 204
def PT_RTPFB : RTCPPT := 205
def PT_PSFB : RTCPPT := 206

/-- `kHeaderLength`. -/
def kHeaderLength : Nat := 4

/-- `kReportBlockLength`. -/
def kReportBlockLength : Nat := 24

/-- `kCommonFbFmtLength`. -/
def kCommonFbFmtLength : Nat := 12

/-- `kMaxNumberOfReportBlocks`, `kMaxNumberOfChunks`. -/
def kMaxNumber : Nat := 0x1f

/-- `kMaxNumberOfCsrcs`. -/
def kMaxNumberOfCsrcs : Nat := 0x1f - 1

/-- `kMaxNumberOfSsrcs`. -/
def kMaxNumberOfSsrcs : Nat := 0xff

/-! ## Packet contents -/

structure RTCPPacketRR where
  senderSSRC : BitVec 32
  numberOfReportBlocks : Byte
  deriving DecidableEq, Repr

structure RTCPPacketSR where
  senderSSRC : BitVec 32
  numberOfReportBlocks : Byte
  ntpMostSignificant : BitVec 32
  ntpLeastSignificant : BitVec 32
  rtpTimestamp : BitVec 32
  senderPacketCount : BitVec 32
  senderOctetCount : BitVec 32
  deriving DecidableEq, Repr

structure RTCPPacketReportBlockItem where
  ssrc : BitVec 32
  fractionLost : Byte
  cumulativeNumOfPacketsLost : BitVec 32
  extendedHighestSequenceNumber : BitVec 32
  jitter : BitVec 32
  lastSR : BitVec 32
  delayLastSR : BitVec 32
  deriving DecidableEq, Repr

structure RTCPPacketBYE where
  senderSSRC : BitVec 32
  deriving DecidableEq, Repr

structure RTCPPacketRTPFBNACK where
  senderSSRC : BitVec 32
  mediaSSRC : BitVec 32
  deriving DecidableEq, Repr

structure RTCPPacketRTPFBNACKItem where
  packetID : Seq
  bitMask : BitVec 16
  deriving DecidableEq, Repr

/-- `RTCPPacketAPP`. `Size` is the length of `data`. -/
structure RTCPPacketAPP where
  subType : Byte
  name : BitVec 32
  data : List Byte
  deriving DecidableEq, Repr

structure RTCPPacketPSFBAPP where
  senderSSRC : BitVec 32
  mediaSSRC : BitVec 32
  deriving DecidableEq, Repr

/-- `RTCPPacketPSFBREMBItem`. `NumberOfSSRCs` is the length of `ssrcs`. -/
structure RTCPPacketPSFBREMBItem where
  bitRate : BitVec 32
  ssrcs : List (BitVec 32)
  deriving DecidableEq, Repr

/-! ## Writing -/

/-- `AssignUWord24`: the three low bytes. -/
def be24 (x : BitVec 32) : List Byte :=
  [x.extractLsb' 16 8, x.extractLsb' 8 8, x.extractLsb' 0 8]

/-- `BlockToHeaderLength`: the length in 32-bit words minus 1. -/
def blockToHeaderLength (lengthInBytes : Nat) : Except Fault Nat :=
  if 0 < lengthInBytes ∧ lengthInBytes % 4 = 0 then .ok (lengthInBytes / 4 - 1)
  else .error .assertFailed

/-- The four bytes `CreateHeader` writes. -/
def headerBytes (countOrFormat : Byte) (packetType : RTCPPT) (length : BitVec 16) : List Byte :=
  (0x80 + countOrFormat) :: packetType :: be16 length

/-- `CreateHeader`. -/
def createHeader (countOrFormat : Byte) (packetType : RTCPPT) (length : Nat) :
    Except Fault (List Byte) :=
  if length ≤ 0xffff then .ok (headerBytes countOrFormat packetType (BitVec.ofNat 16 length))
  else .error .assertFailed

/-- What `CreateSenderReport` writes behind the header. -/
def senderReportBytes (sr : RTCPPacketSR) : List Byte :=
  be32 sr.senderSSRC ++ (be32 sr.ntpMostSignificant ++ (be32 sr.ntpLeastSignificant ++
    (be32 sr.rtpTimestamp ++ (be32 sr.senderPacketCount ++ be32 sr.senderOctetCount))))

/-- One round of `CreateReportBlocks`. -/
def reportBlockBytes (block : RTCPPacketReportBlockItem) : List Byte :=
  be32 block.ssrc ++ (block.fractionLost :: (be24 block.cumulativeNumOfPacketsLost ++
    (be32 block.extendedHighestSequenceNumber ++ (be32 block.jitter ++
      (be32 block.lastSR ++ be32 block.delayLastSR)))))

/-- `CreateReportBlocks`. -/
def createReportBlocks (blocks : List RTCPPacketReportBlockItem) : List Byte :=
  blocks.flatMap reportBlockBytes

/-- `Sdes::Chunk`. -/
structure Chunk where
  ssrc : BitVec 32
  name : List Byte
  nullOctets : Nat
  deriving DecidableEq, Repr

/-- `kSdesItemType`. -/
def kSdesItemType : Byte := 1

/-- One round of the loop of `CreateSdes`. -/
def chunkBytes (chunk : Chunk) : List Byte :=
  be32 chunk.ssrc ++ (kSdesItemType :: BitVec.ofNat 8 chunk.name.length ::
    (chunk.name ++ List.replicate chunk.nullOctets 0))

/-- One round of the loop of `CreateNack`. -/
def nackItemBytes (item : RTCPPacketRTPFBNACKItem) : List Byte :=
  be16 item.packetID ++ be16 item.bitMask

/-- `ComputeMantissaAnd6bitBase2Exponent`, as (mantissa, exponent). The machine takes a shift modulo
32. -/
def computeMantissaAnd6bitBase2Exponent (inputBase10 : BitVec 32) (bitsMantissa : Nat) :
    BitVec 32 × Byte :=
  let mantissaMax : BitVec 32 := (1 <<< bitsMantissa) - 1
  let exponent := ((List.range 64).find? fun i =>
    decide (inputBase10 ≤ mantissaMax <<< (i % 32))).getD 0
  (inputBase10 >>> exponent, BitVec.ofNat 8 exponent)

/-- What `CreateRemb` writes behind the header. -/
def rembBytes (remb : RTCPPacketPSFBAPP) (item : RTCPPacketPSFBREMBItem) : List Byte :=
  let (mantissa, exp) := computeMantissaAnd6bitBase2Exponent item.bitRate 18
  be32 remb.senderSSRC ++ (be32 0 ++ (ascii "REMB" ++ (BitVec.ofNat 8 item.ssrcs.length ::
    ((exp <<< 2) + ((mantissa >>> 16) &&& 0x03).setWidth 8) :: (mantissa >>> 8).setWidth 8 ::
      mantissa.setWidth 8 :: item.ssrcs.flatMap be32)))

/-! ## Builders -/

/-- `SenderReport`. The number of blocks it will write is the number of those it has. -/
structure SenderReport where
  sr : RTCPPacketSR
  reportBlocks : List RTCPPacketReportBlockItem
  count : sr.numberOfReportBlocks = BitVec.ofNat 8 reportBlocks.length
  length_le : reportBlocks.length ≤ kMaxNumber

namespace SenderReport

/-- `SenderReport()` with the calls of its setters. -/
def new (senderSSRC ntpSec ntpFrac rtpTimestamp packetCount octetCount : BitVec 32) :
    SenderReport where
  sr :=
    { senderSSRC := senderSSRC
      numberOfReportBlocks := 0
      ntpMostSignificant := ntpSec
      ntpLeastSignificant := ntpFrac
      rtpTimestamp := rtpTimestamp
      senderPacketCount := packetCount
      senderOctetCount := octetCount }
  reportBlocks := []
  count := rfl
  length_le := Nat.zero_le _

/-- `WithReportBlock`. -/
def withReportBlock (report : SenderReport) (block : RTCPPacketReportBlockItem) : SenderReport :=
  if h : kMaxNumber ≤ report.reportBlocks.length then report
  else
    { sr :=
        { report.sr with
          numberOfReportBlocks := BitVec.ofNat 8 (report.reportBlocks ++ [block]).length }
      reportBlocks := report.reportBlocks ++ [block]
      count := rfl
      length_le := by
        rw [List.length_append, List.length_singleton]
        omega }

/-- `BlockLength`. -/
def blockLength (report : SenderReport) : Nat :=
  8 + 20 + report.reportBlocks.length * kReportBlockLength

end SenderReport

/-- `ReceiverReport`. -/
structure ReceiverReport where
  rr : RTCPPacketRR
  reportBlocks : List RTCPPacketReportBlockItem
  count : rr.numberOfReportBlocks = BitVec.ofNat 8 reportBlocks.length
  length_le : reportBlocks.length ≤ kMaxNumber

namespace ReceiverReport

/-- `ReceiverReport()` with the call of `From`. -/
def new (senderSSRC : BitVec 32) : ReceiverReport where
  rr := { senderSSRC := senderSSRC, numberOfReportBlocks := 0 }
  reportBlocks := []
  count := rfl
  length_le := Nat.zero_le _

/-- `WithReportBlock`. -/
def withReportBlock (report : ReceiverReport) (block : RTCPPacketReportBlockItem) :
    ReceiverReport :=
  if h : kMaxNumber ≤ report.reportBlocks.length then report
  else
    { rr :=
        { report.rr with
          numberOfReportBlocks := BitVec.ofNat 8 (report.reportBlocks ++ [block]).length }
      reportBlocks := report.reportBlocks ++ [block]
      count := rfl
      length_le := by
        rw [List.length_append, List.length_singleton]
        omega }

/-- `BlockLength`. -/
def blockLength (report : ReceiverReport) : Nat :=
  8 + report.reportBlocks.length * kReportBlockLength

end ReceiverReport

/-- `Sdes`. -/
structure Sdes where
  chunks : List Chunk

namespace Sdes

/-- `WithCName`. The name is followed by one to four zeros, up to a whole number of words. -/
def withCName (sdes : Sdes) (ssrc : BitVec 32) (cname : List Byte) : Except Fault Sdes :=
  if cname.length ≤ 0xff then
    if kMaxNumber ≤ sdes.chunks.length then .ok sdes
    else
      let chunk : Chunk :=
        { ssrc := ssrc, name := cname, nullOctets := 4 - (2 + cname.length) % 4 }
      .ok { chunks := sdes.chunks ++ [chunk] }
  else .error .assertFailed

/-- `BlockLength`. -/
def blockLength (sdes : Sdes) : Nat :=
  kHeaderLength + (sdes.chunks.map fun c => 6 + c.name.length + c.nullOctets).sum

end Sdes

/-- `Bye`. -/
structure Bye where
  bye : RTCPPacketBYE
  csrcs : List (BitVec 32)

namespace Bye

/-- `WithCsrc`. -/
def withCsrc (bye : Bye) (csrc : BitVec 32) : Bye :=
  if kMaxNumberOfCsrcs ≤ bye.csrcs.length then bye else { bye with csrcs := bye.csrcs ++ [csrc] }

/-- `BlockLength`. -/
def blockLength (bye : Bye) : Nat := kHeaderLength + 4 * (1 + bye.csrcs.length)

end Bye

/-- `App`. -/
structure App where
  ssrc : BitVec 32
  app : RTCPPacketAPP

namespace App

/-- `WithSubType`. -/
def withSubType (app : App) (subType : Byte) : Except Fault App :=
  if subType ≤ 0x1f then .ok { app with app := { app.app with subType := subType } }
  else .error .assertFailed

/-- `WithData`. -/
def withData (app : App) (data : List Byte) : Except Fault App :=
  if data.length ≤ kRtcpAppCodeDataSize ∧ data.length % 4 = 0 then
    .ok { app with app := { app.app with data := data } }
  else .error .assertFailed

/-- `BlockLength`. -/
def blockLength (app : App) : Nat := 12 + app.app.data.length

end App

/-- `bitmask |= (1 << shift)`. -/
def RTCPPacketRTPFBNACKItem.setBit (item : RTCPPacketRTPFBNACKItem) (shift : Nat) :
    RTCPPacketRTPFBNACKItem :=
  { item with bitMask := item.bitMask ||| (1 : BitVec 16) <<< shift }

/-- `Nack`. -/
structure Nack where
  nack : RTCPPacketRTPFBNACK
  nackFields : List RTCPPacketRTPFBNACKItem

namespace Nack

/-- `Nack()` with the calls of `From` and `To`. -/
def new (senderSSRC mediaSSRC : BitVec 32) : Nack where
  nack := { senderSSRC := senderSSRC, mediaSSRC := mediaSSRC }
  nackFields := []

/-- `static_cast<uint16_t>(nack_list[i] - pid) - 1`. -/
def shift (pid s : Seq) : Int := (s - pid).toNat - 1

/-- The two loops of `WithList`, with the item that is being filled: a number goes into it, or into a
new one when it is too far away. -/
def fields (item : RTCPPacketRTPFBNACKItem) : List Seq → List RTCPPacketRTPFBNACKItem
  | [] => [item]
  | s :: list =>
    let shift := shift item.packetID s
    if 0 ≤ shift ∧ shift ≤ 15 then fields (item.setBit shift.toNat) list
    else item :: fields { packetID := s, bitMask := 0 } list

/-- `WithList`. -/
def withList (nack : Nack) (nackList : List Seq) : Except Fault Nack :=
  if nack.nackFields = [] then
    match nackList with
    | [] => .ok nack
    | pid :: list => .ok { nack with nackFields := fields { packetID := pid, bitMask := 0 } list }
  else .error .assertFailed

/-- `BlockLength`. -/
def blockLength (nack : Nack) : Nat := kCommonFbFmtLength + 4 * nack.nackFields.length

end Nack

/-- `Remb`. -/
structure Remb where
  remb : RTCPPacketPSFBAPP
  rembItem : RTCPPacketPSFBREMBItem

namespace Remb

/-- `AppliesTo`. -/
def appliesTo (remb : Remb) (ssrc : BitVec 32) : Remb :=
  if kMaxNumberOfSsrcs ≤ remb.rembItem.ssrcs.length then remb
  else { remb with rembItem := { remb.rembItem with ssrcs := remb.rembItem.ssrcs ++ [ssrc] } }

/-- `BlockLength`. -/
def blockLength (remb : Remb) : Nat := (remb.rembItem.ssrcs.length + 5) * 4

end Remb

/-! ## Packets -/

/-- The classes that derive from `RtcpPacket`. -/
inductive Body
  | empty
  | senderReport (report : SenderReport)
  | receiverReport (report : ReceiverReport)
  | sdes (sdes : Sdes)
  | bye (bye : Bye)
  | app (app : App)
  | nack (nack : Nack)
  | remb (remb : Remb)

/-- A header and what follows it go behind `packet`, unless that would end behind `maxLength`. -/
def appendBlock (blockLength : Nat) (countOrFormat : Byte) (packetType : RTCPPT)
    (bytes packet : List Byte) (maxLength : Nat) : Except Fault (List Byte) :=
  if maxLength < packet.length + blockLength then .ok packet
  else do
    let length ← blockToHeaderLength blockLength
    let header ← createHeader countOrFormat packetType length
    .ok (packet ++ (header ++ bytes))

/-- `Create`. -/
def Body.create (packet : List Byte) (maxLength : Nat) : Body → Except Fault (List Byte)
  | .empty => .ok packet
  | .senderReport r =>
    appendBlock r.blockLength r.sr.numberOfReportBlocks PT_SR
      (senderReportBytes r.sr ++ createReportBlocks r.reportBlocks) packet maxLength
  | .receiverReport r =>
    appendBlock r.blockLength r.rr.numberOfReportBlocks PT_RR
      (be32 r.rr.senderSSRC ++ createReportBlocks r.reportBlocks) packet maxLength
  | .sdes s =>
    if s.chunks = [] then .error .assertFailed
    else
      appendBlock s.blockLength (BitVec.ofNat 8 s.chunks.length) PT_SDES
        (s.chunks.flatMap chunkBytes) packet maxLength
  -- `CreateBye` is given the length where the other packets give a count
  | .bye b =>
    appendBlock b.blockLength (BitVec.ofNat 8 (b.blockLength / 4 - 1)) PT_BYE
      (be32 b.bye.senderSSRC ++ b.csrcs.flatMap be32) packet maxLength
  | .app a =>
    appendBlock a.blockLength a.app.subType PT_APP (be32 a.ssrc ++ (be32 a.app.name ++ a.app.data))
      packet maxLength
  | .nack n =>
    if n.nackFields = [] then .error .assertFailed
    else
      appendBlock n.blockLength 1 PT_RTPFB
        (be32 n.nack.senderSSRC ++ (be32 n.nack.mediaSSRC ++ n.nackFields.flatMap nackItemBytes))
        packet maxLength
  | .remb r => appendBlock r.blockLength 15 PT_PSFB (rembBytes r.remb r.rembItem) packet maxLength

/-- `RtcpPacket`: what it carries, and the packets that were appended to it. -/
inductive RtcpPacket
  | mk (body : Body) (appendedPackets : List RtcpPacket)

namespace RtcpPacket

/-- `Append`. -/
def append : RtcpPacket → RtcpPacket → RtcpPacket
  | .mk body appended, packet => .mk body (appended ++ [packet])

mutual

/-- `CreateAndAddAppended`. -/
def createAndAddAppended (packet : List Byte) (maxLength : Nat) :
    RtcpPacket → Except Fault (List Byte)
  | .mk body appended => do
    let packet ← body.create packet maxLength
    addAppended packet maxLength appended

/-- The loop over `appended_packets_`. -/
def addAppended (packet : List Byte) (maxLength : Nat) : List RtcpPacket → Except Fault (List Byte)
  | [] => .ok packet
  | p :: ps => do
    let packet ← createAndAddAppended packet maxLength p
    addAppended packet maxLength ps

end

/-- `Build`, whose `RawPacket` asserts the length. -/
def build (p : RtcpPacket) : Except Fault (List Byte) := do
  let packet ← p.createAndAddAppended [] ipPacketSize
  if packet.length ≤ ipPacketSize then .ok packet else .error .assertFailed

end RtcpPacket

end RtcMcu.Avformat.Rtcp
