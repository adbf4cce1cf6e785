import RtcMcu.Avformat.RtcpEnc

/-!
# RTCPParserV2

`avformat/rtcp_dec.cpp`: the parser that walks over a compound RTCP packet. Each call of `Iterate`
goes on by one block or one item and says what it found (`RTCPPacketTypes`); what it read is in
`Packet()`. The pointers are offsets into the packet. A difference of pointers is only compared with
numbers above 0, so that one below 0 counts as 0.
-/

namespace RtcMcu.Avformat.Rtcp

/-- `RTCPPacketTypes`. -/
inductive RTCPPacketTypes
  | kInvalid
  | kRr
  | kSr
  | kReportBlockItem
  | kSdes
  | kSdesChunk
  | kBye
  | kRtpfbNack
  | kRtpfbNackItem
  | kApp
  | kAppItem
  | kPsfbRemb
  | kPsfbRembItem
  | kPsfbApp
  deriving DecidableEq, Repr

/-- `ParseState`. -/
inductive ParseState
  | topLevel
  | reportBlockItem
  | sdesChunk
  | byeItem
  | rtpfbNackItem
  | appItem
  | psfbAppItem
  | psfbRembItem
  deriving DecidableEq, Repr

/-- `RTCPPacketSDESCName`. Of the name the characters before its end are kept. -/
structure RTCPPacketSDESCName where
  senderSSRC : BitVec 32
  cName : List Byte
  deriving DecidableEq, Repr

/-- `RTCPPacket`. It is a union in the code, where a member is read only while it is the one that was
written last. -/
structure RTCPPacket where
  rr : RTCPPacketRR
  sr : RTCPPacketSR
  reportBlockItem : RTCPPacketReportBlockItem
  cName : RTCPPacketSDESCName
  bye : RTCPPacketBYE
  nack : RTCPPacketRTPFBNACK
  nackItem : RTCPPacketRTPFBNACKItem
  app : RTCPPacketAPP
  psfbApp : RTCPPacketPSFBAPP
  rembItem : RTCPPacketPSFBREMBItem
  deriving DecidableEq, Repr

/-- What the constructor leaves unset is given as zeros; nothing reads it before it is set. -/
def RTCPPacket.unset : RTCPPacket where
  rr := ⟨0, 0⟩
  sr := ⟨0, 0, 0, 0, 0, 0, 0⟩
  reportBlockItem := ⟨0, 0, 0, 0, 0, 0, 0⟩
  cName := ⟨0, []⟩
  bye := ⟨0⟩
  nack := ⟨0, 0⟩
  nackItem := ⟨0, 0⟩
  app := ⟨0, 0, []⟩
  psfbApp := ⟨0, 0⟩
  rembItem := ⟨0, []⟩

/-- `RTCPCommonHeader`. -/
structure RTCPCommonHeader where
  v : Byte
  p : Bool
  ic : Byte
  pt : RTCPPT
  lengthInOctets : BitVec 16
  deriving DecidableEq, Repr

/-- `RTCPParseCommonHeader` at the offset `begin` of the data. -/
def parseCommonHeader (data : List Byte) (start : Nat) : Option RTCPCommonHeader :=
  if data.length - start < 4 then none
  else
    let first := byteAt data start
    let header : RTCPCommonHeader :=
      { v := first >>> 6
        p := first &&& 0x20 != 0
        ic := first &&& 0x1f
        pt := byteAt data (start + 1)
        lengthInOctets := (rdBe16 data (start + 2) + 1) * 4 }
    if header.lengthInOctets = 0 then none
    else if header.v ≠ 2 then none
    else some header

/-- `RTCPParserV2`. -/
structure RTCPParserV2 where
  data : List Byte
  reducedSizeEnable : Bool
  validPacket : Bool
  ptr : Nat
  blockEnd : Nat
  state : ParseState
  numberOfBlocks : Byte
  packetType : RTCPPacketTypes
  packet : RTCPPacket

/-- What a parse function did: whether it found something, or came to the end of the block. -/
abbrev Parsed := Except Fault (RTCPParserV2 × Bool)

namespace RTCPParserV2

/-- `Validate`. -/
def validate (data : List Byte) (reducedSizeEnable : Bool) : Bool :=
  match parseCommonHeader data 0 with
  | none => false
  | some header => reducedSizeEnable || header.pt == PT_SR || header.pt == PT_RR

/-- `RTCPParserV2()`. -/
def new (data : List Byte) (reducedSizeEnable : Bool) : RTCPParserV2 where
  data := data
  reducedSizeEnable := reducedSizeEnable
  validPacket := validate data reducedSizeEnable
  ptr := 0
  blockEnd := 0
  state := .topLevel
  numberOfBlocks := 0
  packetType := .kInvalid
  packet := .unset

/-- `LengthLeft`. -/
def lengthLeft (p : RTCPParserV2) : Nat := p.data.length - p.ptr

/-- `EndCurrentBlock`. -/
def endCurrentBlock (p : RTCPParserV2) : RTCPParserV2 := { p with ptr := p.blockEnd }

/-- What a parse function does at the end of a block. -/
def leave (p : RTCPParserV2) : Parsed :=
  .ok ({ p with state := .topLevel, ptr := p.blockEnd }, false)

/-- `_ptrRTCPBlockEnd - _ptrRTCPData`. -/
def left (p : RTCPParserV2) : Nat := p.blockEnd - p.ptr

/-! ## Reading -/

/-- `_ptrRTCPData += n`. -/
def skip (p : RTCPParserV2) (n : Nat) : RTCPParserV2 := { p with ptr := p.ptr + n }

@[simp] theorem skip_skip (p : RTCPParserV2) (m n : Nat) : (p.skip m).skip n = p.skip (m + n) := by
  simp only [skip, Nat.add_assoc]

/-- `*_ptrRTCPData++`. -/
def nextByte (p : RTCPParserV2) : Except Fault (Byte × RTCPParserV2) :=
  if p.ptr < p.data.length then .ok (byteAt p.data p.ptr, p.skip 1) else .error .outOfBounds

/-- Two bytes, put together by shifts. -/
def nextUWord16 (p : RTCPParserV2) : Except Fault (BitVec 16 × RTCPParserV2) := do
  let (a, p) ← p.nextByte
  let (b, p) ← p.nextByte
  .ok (a ++ b, p)

/-- Three bytes, put together by shifts. -/
def nextUWord24 (p : RTCPParserV2) : Except Fault (BitVec 32 × RTCPParserV2) := do
  let (a, p) ← p.nextByte
  let (b, p) ← p.nextByte
  let (c, p) ← p.nextByte
  .ok ((a ++ b ++ c).setWidth 32, p)

/-- Four bytes, put together by shifts. -/
def nextUWord32 (p : RTCPParserV2) : Except Fault (BitVec 32 × RTCPParserV2) := do
  let (a, p) ← p.nextByte
  let (b, p) ← p.nextByte
  let (c, p) ← p.nextByte
  let (d, p) ← p.nextByte
  .ok (a ++ b ++ c ++ d, p)

/-- `n` bytes that are copied; the pointer stays. -/
def peek (p : RTCPParserV2) (n : Nat) : Except Fault (List Byte) :=
  if p.ptr + n ≤ p.data.length then .ok ((p.data.drop p.ptr).take n) else .error .outOfBounds

/-! ## Reports -/

/-- `ParseRR`. A block that is too short is not skipped. -/
def parseRR (p : RTCPParserV2) : Parsed :=
  if p.left < 8 then .ok (p, false)
  else do
    let (ssrc, p) ← (p.skip 4).nextUWord32
    let rr : RTCPPacketRR := { senderSSRC := ssrc, numberOfReportBlocks := p.numberOfBlocks }
    .ok ({ p with
      packetType := .kRr
      packet := { p.packet with rr := rr }
      state := .reportBlockItem }, true)

/-- `ParseSR`. -/
def parseSR (p : RTCPParserV2) : Parsed :=
  if p.left < 28 then .ok (p.endCurrentBlock, false)
  else do
    let (ssrc, p) ← (p.skip 4).nextUWord32
    let (ntpMost, p) ← p.nextUWord32
    let (ntpLeast, p) ← p.nextUWord32
    let (rtp, p) ← p.nextUWord32
    let (packets, p) ← p.nextUWord32
    let (octets, p) ← p.nextUWord32
    let sr : RTCPPacketSR :=
      { senderSSRC := ssrc
        numberOfReportBlocks := p.numberOfBlocks
        ntpMostSignificant := ntpMost
        ntpLeastSignificant := ntpLeast
        rtpTimestamp := rtp
        senderPacketCount := packets
        senderOctetCount := octets }
    let p : RTCPParserV2 := { p with packetType := .kSr, packet := { p.packet with sr := sr } }
    if p.numberOfBlocks ≠ 0 then .ok ({ p with state := .reportBlockItem }, true)
    else .ok ({ p with state := .topLevel, ptr := p.blockEnd }, true)

/-- `ParseReportBlockItem`. -/
def parseReportBlockItem (p : RTCPParserV2) : Parsed :=
  if p.left < 24 ∨ p.numberOfBlocks = 0 then p.leave
  else do
    let (ssrc, p) ← p.nextUWord32
    let (fraction, p) ← p.nextByte
    let (cumulative, p) ← p.nextUWord24
    let (highest, p) ← p.nextUWord32
    let (jitter, p) ← p.nextUWord32
    let (lastSR, p) ← p.nextUWord32
    let (delay, p) ← p.nextUWord32
    let item : RTCPPacketReportBlockItem :=
      { ssrc := ssrc
        fractionLost := fraction
        cumulativeNumOfPacketsLost := cumulative
        extendedHighestSequenceNumber := highest
        jitter := jitter
        lastSR := lastSR
        delayLastSR := delay }
    .ok ({ p with
      packet := { p.packet with reportBlockItem := item }
      numberOfBlocks := p.numberOfBlocks - 1
      packetType := .kReportBlockItem }, true)

/-! ## Source descriptions -/

/-- `ParseSDES`. -/
def parseSDES (p : RTCPParserV2) : Parsed :=
  if p.left < 8 then p.leave
  else .ok ({ p.skip 4 with state := .sdesChunk, packetType := .kSdes }, true)

/-- A character of a name that is not refused. -/
def allowed (c : Byte) : Bool := 0x20 ≤ c && c ≤ 0x7b && c != 0x25 && c != 0x5c

/-- The loop of `ParseSDESItem`. Each round reads a byte, so the fuel is one more than the number of
bytes that are left. -/
def parseSDESItem : Nat → RTCPParserV2 → (itemOctetsRead : Nat) → (foundCName : Bool) → Parsed
  | 0, _, _, _ => .error .outOfFuel
  | fuel + 1, p, read, found =>
    if p.ptr < p.blockEnd then do
      let (tag, p) ← p.nextByte
      let read := read + 1
      -- an end tag, with zeros up to a whole word
      if tag = 0 then .ok (p.skip ((4 - read % 4) % 4), found)
      else if p.ptr < p.blockEnd then do
        let (len, p) ← p.nextByte
        let read := read + 1
        if tag = 1 then
          if p.blockEnd ≤ p.ptr + len.toNat then p.leave
          else do
            let name ← p.peek len.toNat
            if name.all allowed then
              let cName : RTCPPacketSDESCName := { p.packet.cName with cName := name }
              let p := { p with packet := { p.packet with cName := cName }, packetType := .kSdesChunk }
              parseSDESItem fuel (p.skip len.toNat) (read + len.toNat) true
            else p.leave
        else parseSDESItem fuel (p.skip len.toNat) (read + len.toNat) found
      else parseSDESItem fuel p read found
    else p.leave

/-- The loop of `ParseSDESChunk`. Each round reads a word. -/
def parseSDESChunks : Nat → RTCPParserV2 → Parsed
  | 0, _ => .error .outOfFuel
  | fuel + 1, p =>
    if p.ptr < p.blockEnd then
      if p.left < 4 then p.leave
      else do
        let (ssrc, p) ← p.nextUWord32
        let (p, found) ← parseSDESItem (p.left + 1) p 0 false
        if found then
          let cName : RTCPPacketSDESCName := { p.packet.cName with senderSSRC := ssrc }
          .ok ({ p with packet := { p.packet with cName := cName } }, true)
        else parseSDESChunks fuel p
    else p.leave

/-- `ParseSDESChunk`. -/
def parseSDESChunk (p : RTCPParserV2) : Parsed :=
  if p.numberOfBlocks = 0 then p.leave
  else
    let p := { p with numberOfBlocks := p.numberOfBlocks - 1 }
    parseSDESChunks (p.left + 1) p

/-! ## The other blocks -/

/-- `ParseBYEItem`. -/
def parseBYEItem (p : RTCPParserV2) : Parsed :=
  if p.left < 4 ∨ p.numberOfBlocks = 0 then p.leave
  else do
    let length := p.left
    let (ssrc, p) ← p.nextUWord32
    let p :=
      { p with packetType := .kBye, packet := { p.packet with bye := { senderSSRC := ssrc } } }
    let n := p.numberOfBlocks.toNat
    let p := if 4 * n ≤ length then p.skip ((n - 1) * 4) else p
    .ok ({ p with numberOfBlocks := 0 }, true)

/-- `ParseBYE`. -/
def parseBYE (p : RTCPParserV2) : Parsed := parseBYEItem { p.skip 4 with state := .byeItem }

/-- `ParseFBCommon`. -/
def parseFBCommon (p : RTCPParserV2) (header : RTCPCommonHeader) : Parsed :=
  if header.pt ≠ PT_RTPFB ∧ header.pt ≠ PT_PSFB then .error .assertFailed
  else if p.left < 12 then .ok (p.endCurrentBlock, false)
  else do
    let (sender, p) ← (p.skip 4).nextUWord32
    let (media, p) ← p.nextUWord32
    if header.pt = PT_RTPFB then
      if header.ic = 1 then
        .ok ({ p with
          packetType := .kRtpfbNack
          packet := { p.packet with nack := { senderSSRC := sender, mediaSSRC := media } }
          state := .rtpfbNackItem }, true)
      else .ok (p.endCurrentBlock, false)
    else if header.ic = 15 then
      .ok ({ p with
        packetType := .kPsfbApp
        packet := { p.packet with psfbApp := { senderSSRC := sender, mediaSSRC := media } }
        state := .psfbAppItem }, true)
    else .ok (p.endCurrentBlock, false)

/-- `ParseNACKItem`. -/
def parseNACKItem (p : RTCPParserV2) : Parsed :=
  if p.left < 4 then p.leave
  else do
    let (packetID, p) ← p.nextUWord16
    let (bitMask, p) ← p.nextUWord16
    .ok ({ p with
      packetType := .kRtpfbNackItem
      packet := { p.packet with nackItem := { packetID := packetID, bitMask := bitMask } } }, true)

/-- `ParseAPP`. -/
def parseAPP (p : RTCPParserV2) (header : RTCPCommonHeader) : Parsed :=
  if p.left < 12 then .ok (p.endCurrentBlock, false)
  else do
    let (_, p) ← (p.skip 4).nextUWord32
    let (name, p) ← p.nextUWord32
    .ok ({ p with
      packetType := .kApp
      packet := { p.packet with app := { p.packet.app with subType := header.ic, name := name } }
      state := .appItem }, true)

/-- `ParseAPPItem`. -/
def parseAPPItem (p : RTCPParserV2) : Parsed :=
  if p.left < 4 then p.leave
  else do
    let size := min p.left kRtcpAppCodeDataSize
    let data ← p.peek size
    .ok ({ p.skip size with
      packetType := .kAppItem
      packet := { p.packet with app := { p.packet.app with data := data } } }, true)

/-- The four comparisons of `ParsePsfbAppItem`, each of which reads a byte. -/
def parseName : List Byte → RTCPParserV2 → Parsed
  | [], p => .ok ({ p with packetType := .kPsfbRemb, state := .psfbRembItem }, true)
  | c :: name, p => do
    let (b, p) ← p.nextByte
    if b ≠ c then p.leave else parseName name p

/-- `ParsePsfbAppItem`. -/
def parsePsfbAppItem (p : RTCPParserV2) : Parsed :=
  if p.left < 4 then p.leave else parseName (ascii "REMB") p

/-- The loop over the sources of `ParsePsfbREMBItem`. -/
def nextSSRCs : Nat → RTCPParserV2 → Except Fault (List (BitVec 32) × RTCPParserV2)
  | 0, p => .ok ([], p)
  | n + 1, p => do
    let (ssrc, p) ← p.nextUWord32
    let (ssrcs, p) ← nextSSRCs n p
    .ok (ssrc :: ssrcs, p)

/-- `ParsePsfbREMBItem`. -/
def parsePsfbREMBItem (p : RTCPParserV2) : Parsed :=
  if p.left < 4 then p.leave
  else do
    let (number, p) ← p.nextByte
    let (a, p) ← p.nextByte
    let (b, p) ← p.nextByte
    let (c, p) ← p.nextByte
    let brExp := ((a >>> 2) &&& 0x3f).toNat
    let brMantissa : BitVec 32 := ((a &&& 0x03) ++ b ++ c).setWidth 32
    -- the machine takes a shift modulo 32
    let bitRate := brMantissa <<< (brExp % 32)
    if p.left < 4 * number.toNat then p.leave
    else do
      let (ssrcs, p) ← nextSSRCs number.toNat p
      .ok ({ p with
        packetType := .kPsfbRembItem
        packet := { p.packet with rembItem := { bitRate := bitRate, ssrcs := ssrcs } } }, true)

/-! ## Iterating -/

/-- What `IterateTopLevel` does with a block: the parse function of its type, if it has one. It
returns after a report, whatever the parse function found. -/
def parseBlock (p : RTCPParserV2) (header : RTCPCommonHeader) : Parsed :=
  if header.pt = PT_SR then do
    let (p, _) ← parseSR { p with numberOfBlocks := header.ic }
    .ok (p, true)
  else if header.pt = PT_RR then do
    let (p, _) ← parseRR { p with numberOfBlocks := header.ic }
    .ok (p, true)
  else if header.pt = PT_SDES then parseSDES { p with numberOfBlocks := header.ic }
  else if header.pt = PT_BYE then parseBYE { p with numberOfBlocks := header.ic }
  else if header.pt = PT_RTPFB ∨ header.pt = PT_PSFB then parseFBCommon p header
  else if header.pt = PT_APP then parseAPP p header
  else .ok (p.endCurrentBlock, false)

/-- `IterateTopLevel`: it goes on to the next block when it found nothing in one. Every block has a
header, so the fuel is one more than the number of bytes. -/
def iterateTopLevel : Nat → RTCPParserV2 → Except Fault RTCPParserV2
  | 0, _ => .error .outOfFuel
  | fuel + 1, p =>
    match parseCommonHeader p.data p.ptr with
    | none => .ok p
    | some header => do
      let p := { p with blockEnd := p.ptr + header.lengthInOctets.toNat }
      if p.data.length < p.blockEnd then .ok p
      else do
        let (p, found) ← p.parseBlock header
        if found then .ok p else iterateTopLevel fuel p

/-- The parse function of a state other than the top level. -/
def parseItem (p : RTCPParserV2) : ParseState → Parsed
  | .topLevel => p.leave
  | .reportBlockItem => p.parseReportBlockItem
  | .sdesChunk => p.parseSDESChunk
  | .byeItem => p.parseBYEItem
  | .rtpfbNackItem => p.parseNACKItem
  | .appItem => p.parseAPPItem
  | .psfbAppItem => p.parsePsfbAppItem
  | .psfbRembItem => p.parsePsfbREMBItem

/-- `Iterate`, which calls itself again when an item function came to the end of the block. -/
def iterateFrom : Nat → RTCPParserV2 → Except Fault RTCPParserV2
  | 0, _ => .error .outOfFuel
  | fuel + 1, p =>
    let p := { p with packetType := .kInvalid }
    if p.validPacket then
      match p.state with
      | .topLevel => iterateTopLevel (p.data.length + 1) p
      | state => do
        let (p, found) ← p.parseItem state
        if found then .ok p else iterateFrom fuel p
    else .ok p

/-- `Iterate`. An item function that finds nothing leaves the parser at the top level, so that
`Iterate` calls itself once at most. -/
def iterate (p : RTCPParserV2) : Except Fault RTCPParserV2 := iterateFrom 2 p

/-- `Begin`. -/
def begin (p : RTCPParserV2) : Except Fault RTCPParserV2 := iterate { p with ptr := 0 }

end RTCPParserV2

end RtcMcu.Avformat.Rtcp
