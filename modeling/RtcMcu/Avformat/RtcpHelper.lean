import RtcMcu.Avformat.RtcpDec

/-!
# RTCP::parse_rtcp_packet

`avformat/rtcp_helper.cpp`: the parser is driven over a packet, and what it finds is collected in an
`RTCPPacketInformation`.

Not modelled: the members of `RTCP` and the clock, which only feed values that nothing reads, and of
a report block the round-trip times, which are never computed (`sendTimeMS` is 0).
-/

namespace RtcMcu.Avformat.Rtcp

/-- `RTCPReportBlock`. -/
structure RTCPReportBlock where
  remoteSSRC : BitVec 32
  sourceSSRC : BitVec 32
  fractionLost : Byte
  cumulativeLost : BitVec 32
  extendedHighSeqNum : BitVec 32
  jitter : BitVec 32
  lastSR : BitVec 32
  delaySinceLastSR : BitVec 32
  deriving DecidableEq, Repr

/-- `RTCPPacketType`, the bits of `rtcpPacketTypeFlags`. -/
abbrev RTCPPacketType := BitVec 32

def kRtcpSr : RTCPPacketType := 0x0002
def kRtcpRr : RTCPPacketType := 0x0004
def kRtcpSdes : RTCPPacketType := 0x0008
def kRtcpBye : RTCPPacketType := 0x0010
def kRtcpNack : RTCPPacketType := 0x0040
def kRtcpApp : RTCPPacketType := 0x1000
def kRtcpRemb : RTCPPacketType := 0x10000

/-- `RTCPPacketInformation`. `applicationLength` is the length of `applicationData`. -/
structure RTCPPacketInformation where
  rtcpPacketTypeFlags : RTCPPacketType
  remoteSSRC : BitVec 32
  nackList : List Seq
  applicationSubType : Byte
  applicationName : BitVec 32
  applicationData : List Byte
  reportBlocks : List RTCPReportBlock
  rtt : BitVec 64
  receiverEstimatedMaxBitrate : BitVec 32
  ntpSecs : BitVec 32
  ntpFrac : BitVec 32
  rtpTimestamp : BitVec 32
  sendOctetCount : BitVec 32
  sendPacketCount : BitVec 32
  cnameInfo : List Byte
  deriving DecidableEq, Repr

namespace RTCPPacketInformation

/-- `reset`, which keeps the two counts of the sender. -/
def reset (info : RTCPPacketInformation) : RTCPPacketInformation :=
  { info with
    rtcpPacketTypeFlags := 0
    remoteSSRC := 0
    nackList := []
    applicationSubType := 0
    applicationName := 0
    applicationData := []
    reportBlocks := []
    rtt := 0
    receiverEstimatedMaxBitrate := 0
    ntpSecs := 0
    ntpFrac := 0
    rtpTimestamp := 0
    cnameInfo := List.replicate rtcpCnameSize 0 }

/-- `ResetNACKPacketIdArray`. -/
def resetNACKPacketIdArray (info : RTCPPacketInformation) : RTCPPacketInformation :=
  { info with nackList := [] }

/-- `AddNACKPacket`. -/
def addNACKPacket (info : RTCPPacketInformation) (packetID : Seq) : RTCPPacketInformation :=
  if kSendSideNackListSizeSanity ≤ info.nackList.length then info
  else { info with nackList := info.nackList ++ [packetID] }

/-- `AddReportInfo`. -/
def addReportInfo (info : RTCPPacketInformation) (block : RTCPReportBlock) :
    RTCPPacketInformation :=
  { info with rtt := 0, reportBlocks := info.reportBlocks ++ [block] }

/-- `AddApplicationData`. The length is a `uint16_t`, and the block it allocates has that length. -/
def addApplicationData (info : RTCPPacketInformation) (data : List Byte) :
    Except Fault RTCPPacketInformation :=
  let copied := data.take kRtcpAppCodeDataSize
  if info.applicationData.length + copied.length < 2 ^ 16 then
    .ok { info with applicationData := info.applicationData ++ copied }
  else .error .outOfBounds

/-- `rtcpPacketTypeFlags |= flag`. -/
def flag (info : RTCPPacketInformation) (type : RTCPPacketType) : RTCPPacketInformation :=
  { info with rtcpPacketTypeFlags := info.rtcpPacketTypeFlags ||| type }

end RTCPPacketInformation

/-- A parser, and what was collected. -/
abbrev Handled := Except Fault (RTCPParserV2 × RTCPPacketInformation)

open RTCPParserV2

/-- A loop of a handler over the items of one type, of which `collect` takes what it needs. Every
item has a byte. -/
def handleItems (type : RTCPPacketTypes)
    (collect : RTCPPacket → RTCPPacketInformation → RTCPPacketInformation) :
    Nat → RTCPParserV2 → RTCPPacketInformation → Handled
  | 0, _, _ => .error .outOfFuel
  | fuel + 1, p, info =>
    if p.packetType = type then do
      let info := collect p.packet info
      let p ← p.iterate
      handleItems type collect fuel p info
    else .ok (p, info)

/-- The block of `HandleReportBlock`. -/
def reportBlock (remoteSSRC : BitVec 32) (rb : RTCPPacketReportBlockItem) : RTCPReportBlock where
  remoteSSRC := remoteSSRC
  sourceSSRC := rb.ssrc
  fractionLost := rb.fractionLost
  cumulativeLost := rb.cumulativeNumOfPacketsLost
  extendedHighSeqNum := rb.extendedHighestSequenceNumber
  jitter := rb.jitter
  lastSR := rb.lastSR
  delaySinceLastSR := rb.delayLastSR

/-- `HandleReportBlock`. -/
def handleReportBlock (remoteSSRC : BitVec 32) (packet : RTCPPacket)
    (info : RTCPPacketInformation) : RTCPPacketInformation :=
  info.addReportInfo (reportBlock remoteSSRC packet.reportBlockItem)

/-- What `HandleSenderReceiverReport` takes from the report itself. -/
def handleReport (p : RTCPParserV2) (info : RTCPPacketInformation) : RTCPPacketInformation :=
  if p.packetType = .kSr then
    { info.flag kRtcpSr with
      remoteSSRC := p.packet.sr.senderSSRC
      ntpSecs := p.packet.sr.ntpMostSignificant
      ntpFrac := p.packet.sr.ntpLeastSignificant
      rtpTimestamp := p.packet.sr.rtpTimestamp
      sendPacketCount := p.packet.sr.senderPacketCount
      sendOctetCount := p.packet.sr.senderOctetCount }
  else { info.flag kRtcpRr with remoteSSRC := p.packet.rr.senderSSRC }

/-- `HandleSenderReceiverReport`. -/
def handleSenderReceiverReport (p : RTCPParserV2) (info : RTCPPacketInformation) : Handled := do
  let info := handleReport p info
  let p ← p.iterate
  handleItems .kReportBlockItem (handleReportBlock info.remoteSSRC) (p.data.length + 1) p info

/-- `HandleSDESChunk`: `strncpy` of the name, with zeros up to the end of the array. -/
def handleSDESChunk (packet : RTCPPacket) (info : RTCPPacketInformation) :
    RTCPPacketInformation :=
  let name := (packet.cName.cName.takeWhile (· != 0)).take (rtcpCnameSize - 1)
  { info with cnameInfo := name ++ List.replicate (rtcpCnameSize - name.length) 0 }

/-- `HandleSDES`. -/
def handleSDES (p : RTCPParserV2) (info : RTCPPacketInformation) : Handled := do
  let p ← p.iterate
  let (p, info) ← handleItems .kSdesChunk handleSDESChunk (p.data.length + 1) p info
  .ok (p, info.flag kRtcpSdes)

/-- `HandleNACKItem`. Bit `i` of the mask, from 0 on, stands for the number `i + 1` behind the
first. -/
def handleNACKItem (packet : RTCPPacket) (info : RTCPPacketInformation) :
    RTCPPacketInformation :=
  let item := packet.nackItem
  let info := info.addNACKPacket item.packetID
  let info := ((List.range 16).filter item.bitMask.getLsbD).foldl
    (fun info i => info.addNACKPacket (item.packetID + BitVec.ofNat 16 (i + 1))) info
  info.flag kRtcpNack

/-- `HandleNACK`. -/
def handleNACK (p : RTCPParserV2) (info : RTCPPacketInformation) : Handled := do
  let info := { info with remoteSSRC := p.packet.nack.senderSSRC }
  let info := info.resetNACKPacketIdArray
  let p ← p.iterate
  handleItems .kRtpfbNackItem handleNACKItem (p.data.length + 1) p info

/-- `HandleBYE`. -/
def handleBYE (p : RTCPParserV2) (info : RTCPPacketInformation) : Handled := do
  let info := { info.flag kRtcpBye with remoteSSRC := p.packet.bye.senderSSRC }
  let p ← p.iterate
  .ok (p, info)

/-- `HandleAPP`. -/
def handleAPP (p : RTCPParserV2) (info : RTCPPacketInformation) : Handled := do
  let info := { info.flag kRtcpApp with
    applicationSubType := p.packet.app.subType
    applicationName := p.packet.app.name }
  let p ← p.iterate
  .ok (p, info)

/-- `HandleAPPItem`. -/
def handleAPPItem (p : RTCPParserV2) (info : RTCPPacketInformation) : Handled := do
  let info ← info.addApplicationData p.packet.app.data
  let p ← p.iterate
  .ok (p, info)

/-- `HandlePsfbApp`. -/
def handlePsfbApp (p : RTCPParserV2) (info : RTCPPacketInformation) : Handled := do
  let p ← p.iterate
  if p.packetType = .kPsfbRemb then do
    let info := { info with remoteSSRC := p.packet.psfbApp.senderSSRC }
    let p ← p.iterate
    if p.packetType = .kPsfbRembItem then do
      let info := { info.flag kRtcpRemb with
        receiverEstimatedMaxBitrate := p.packet.rembItem.bitRate }
      let p ← p.iterate
      .ok (p, info)
    else .ok (p, info)
  else .ok (p, info)

/-- One round of the loop of `parse_rtcp_packet`. -/
def handle (p : RTCPParserV2) (info : RTCPPacketInformation) : Handled :=
  match p.packetType with
  | .kSr => handleSenderReceiverReport p info
  | .kRr => handleSenderReceiverReport p info
  | .kSdes => handleSDES p info
  | .kBye => handleBYE p info
  | .kRtpfbNack => handleNACK p info
  | .kApp => handleAPP p info
  | .kAppItem => handleAPPItem p info
  | .kPsfbApp => handlePsfbApp p info
  | _ => do
    let p ← p.iterate
    .ok (p, info)

/-- The loop of `parse_rtcp_packet`. Every round reads a byte. -/
def handleAll : Nat → RTCPParserV2 → RTCPPacketInformation → Handled
  | 0, _, _ => .error .outOfFuel
  | fuel + 1, p, info =>
    if p.packetType = .kInvalid then .ok (p, info)
    else do
      let (p, info) ← handle p info
      handleAll fuel p info

/-- `parse_rtcp_packet`. The parser is a local variable of it. -/
def parseRtcpPacket (data : List Byte) (info : RTCPPacketInformation) : Handled := do
  let p ← (RTCPParserV2.new data true).begin
  handleAll (data.length + 1) p info

end RtcMcu.Avformat.Rtcp
