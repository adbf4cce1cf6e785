import RtcMcu.Avformat.SdpCodes

/-!
# SdpInfo

`avformat/sdp.cpp`: an SDP is parsed line by line into a session and its media, and the text is made
again from them when it is asked for. Strings end at the first zero byte; the strings of the model
are the bytes before it. A fault is an array that is too small for what is written into it, or a
string without an end.
-/

namespace RtcMcu.Avformat.Sdp

/-- `sdp_session_level`. -/
structure SdpSessionLevel where
  sdpVersion : BitVec 32
  id : BitVec 32
  version : BitVec 32
  startTime : BitVec 32
  endTime : BitVec 32
  ttl : BitVec 32
  user : List Byte
  srcAddr : List Byte
  srcType : List Byte
  dstAddr : List Byte
  dstType : List Byte
  name : List Byte

/-- `sdp_session_level()`. -/
def SdpSessionLevel.new : SdpSessionLevel where
  sdpVersion := 0
  id := 0
  version := 0
  startTime := 0
  endTime := 0
  ttl := 0
  user := []
  srcAddr := []
  srcType := []
  dstAddr := []
  dstType := []
  name := []

/-- `rtp_media_info`. `extraData` is the first `extra_data_len` bytes of its 2048 bytes. -/
structure RtpMediaInfo where
  channels : BitVec 32
  rate : BitVec 32
  extraData : List Byte
  destAddr : List Byte
  constantDuration : BitVec 16
  payloadType : BitVec 16
  destPort : BitVec 16
  packetizationMode : BitVec 32
  h264ProfileLevelId : BitVec 32
  rtpTransport : BitVec 32

/-- `rtp_media_info()`. -/
def RtpMediaInfo.new : RtpMediaInfo where
  channels := 0
  rate := 0
  extraData := []
  destAddr := []
  constantDuration := 1024
  payloadType := 0
  destPort := 0
  packetizationMode := 0
  h264ProfileLevelId := 0
  rtpTransport := 0

/-- The payload types `RTP_AV_H264` and `RTP_AV_AAC` as an SDP has them. -/
def H264 : BitVec 16 := 96
def AAC : BitVec 16 := 97
def MP3 : BitVec 16 := 14

/-- What `sprintf` or a copy puts into an array of `size` bytes, with the zero byte behind it. -/
def fits (size : Nat) (text : List Byte) : Except Fault (List Byte) :=
  if size ≤ text.length then .error .outOfBounds else .ok text

/-! ## Words -/

/-- `get_word`: the word behind the spaces, of which a buffer of `size` bytes takes what fits. -/
def getWord (size : Nat) (p : List Byte) : List Byte × List Byte :=
  let p := p.dropWhile isSpaceChar
  ((p.takeWhile fun c => !isspace c).take (size - 1), p.dropWhile fun c => !isspace c)

/-- `get_word_until_chars`. -/
def getWordUntilChars (size : Nat) (sep p : List Byte) : List Byte × List Byte :=
  let p := p.dropWhile isSpaceChar
  ((p.takeWhile fun c => !sep.contains c).take (size - 1), p.dropWhile fun c => !sep.contains c)

/-- `get_word_sep`. -/
def getWordSep (size : Nat) (sep p : List Byte) : List Byte × List Byte :=
  getWordUntilChars size sep (if p.head? = some 0x2f then p.tail else p)

/-- `strstart`. -/
def strstart (str pfx : List Byte) : Option (List Byte) :=
  if pfx.isPrefixOf str then some (str.drop pfx.length) else none

/-- `strcasecmp` is zero. -/
def sameCaseless (s t : List Byte) : Bool := s.map toupper == t.map toupper

/-! ## Format parameters -/

/-- `start_sequence`. -/
def startSequence : List Byte := [0, 0, 0, 1]

/-- `rtp_next_attr_and_value`, `none` at the end of the line. -/
def rtpNextAttrAndValue (valueSize : Nat) (p : List Byte) :
    Option (List Byte × List Byte × List Byte) :=
  let p := p.dropWhile isSpaceChar
  if p = [] then none
  else
    let (attr, p) := getWordSep 256 [0x3d] p
    let p := if p.head? = some 0x3d then p.tail else p
    let (value, p) := getWordSep valueSize [0x3b] p
    let p := if p.head? = some 0x3b then p.tail else p
    some (attr, value, p)

/-- The loop of `h264_parse_sprop_parameter_sets`, with what it has in `data_ptr`. Each round takes
the characters up to the next comma; `none` is -1. `fuel` is the number of characters. -/
def parseSets : Nat → List Byte → List Byte → Option (List Byte)
  | 0, data, _ => some data
  | fuel + 1, data, value =>
    if value = [] then some data
    else
      let packet := (value.takeWhile fun c => c != 0x2c).take 1023
      let value := value.drop packet.length
      let value := if value.head? = some 0x2c then value.tail else value
      match base64Decode packet with
      | some (b :: decoded) =>
        if 2048 < data.length + startSequence.length + (b :: decoded).length then none
        else parseSets fuel (data ++ startSequence ++ b :: decoded) value
      | _ => parseSets fuel data value

/-- `h264_parse_sprop_parameter_sets`. -/
def h264ParseSpropParameterSets (value : List Byte) : Option (List Byte) :=
  parseSets value.length [] value

/-- The array `extra_data` has 2048 bytes. -/
def RtpMediaInfo.setExtraData (m : RtpMediaInfo) (data : List Byte) : Except Fault RtpMediaInfo :=
  if 2048 < data.length then .error .outOfBounds else .ok { m with extraData := data }

/-- `parse_h264_sdp_line`, and whether the line is parsed on. -/
def parseH264SdpLine (m : RtpMediaInfo) (attr value : List Byte) :
    Except Fault (RtpMediaInfo × Bool) :=
  if attr = ascii "packetization-mode" then .ok ({ m with packetizationMode := atoi value }, true)
  else if attr = ascii "profile-level-id" then
    .ok (if value.length = 6 then { m with h264ProfileLevelId := atoi value } else m, true)
  else if attr = ascii "sprop-parameter-sets" then
    match h264ParseSpropParameterSets value with
    | some data => do
      let m ← m.setExtraData data
      .ok (m, true)
    | none => .ok ({ m with extraData := [] }, false)
  else .ok (m, true)

/-- `parse_aac_sdp_line`. -/
def parseAacSdpLine (m : RtpMediaInfo) (attr value : List Byte) :
    Except Fault (RtpMediaInfo × Bool) :=
  if attr = ascii "config" then do
    let m ← m.setExtraData (hexToData 1 value)
    .ok (m, true)
  else if attr = ascii "constantDuration" then
    .ok ({ m with constantDuration := (atoi value).setWidth 16 }, true)
  else .ok (m, true)

/-- The loop of `parse_fmtp`. The array of the value has 1024 bytes, whatever `value_size` is. `fuel`
is the number of characters, of which each round takes one at least. -/
def parseFmtpLoop
    (parse : RtpMediaInfo → List Byte → List Byte → Except Fault (RtpMediaInfo × Bool))
    (valueSize : Nat) : Nat → RtpMediaInfo → List Byte → Except Fault RtpMediaInfo
  | 0, m, _ => .ok m
  | fuel + 1, m, p =>
    match rtpNextAttrAndValue valueSize p with
    | none => .ok m
    | some (attr, value, p) => do
      let value ← fits 1024 value
      let (m, more) ← parse m attr value
      if more then parseFmtpLoop parse valueSize fuel m p else .ok m

/-- There is a parser for the format parameters of a medium. -/
def RtpMediaInfo.hasParser (m : RtpMediaInfo) : Bool := m.payloadType == H264 || m.payloadType == AAC

/-- `parse_fmtp` with the parser of a medium, if there is one. `value_size` is the length of the
line. -/
def parseFmtp (m : RtpMediaInfo) (p : List Byte) : Except Fault RtpMediaInfo :=
  let valueSize := p.length + 1
  let p := p.dropWhile fun c => c == 0x20
  if m.payloadType = H264 then parseFmtpLoop parseH264SdpLine valueSize p.length m p
  else if m.payloadType = AAC then parseFmtpLoop parseAacSdpLine valueSize p.length m p
  else .ok m

/-! ## Lines -/

/-- What `parse_sdp_str` works on: the session, the media, and what it reads of `SDPParseState`,
whose fields are set by the first `m=` before they matter. -/
structure ParseState where
  sdpHeader : SdpSessionLevel
  mediaInfos : List RtpMediaInfo
  seenRtpmap : Bool
  seenFmtp : Bool
  delayedFmtp : List Byte

def ParseState.new : ParseState where
  sdpHeader := .new
  mediaInfos := []
  seenRtpmap := false
  seenFmtp := false
  delayedFmtp := []

/-- The last medium is changed. -/
def ParseState.modifyLast (s : ParseState) (f : RtpMediaInfo → RtpMediaInfo) : ParseState :=
  match s.mediaInfos.getLast? with
  | some m => { s with mediaInfos := s.mediaInfos.dropLast ++ [f m] }
  | none => s

/-- The last medium is changed, which may fail. -/
def ParseState.modifyLastM (s : ParseState) (f : RtpMediaInfo → Except Fault RtpMediaInfo) :
    Except Fault ParseState :=
  match s.mediaInfos.getLast? with
  | some m => do
    let m ← f m
    .ok { s with mediaInfos := s.mediaInfos.dropLast ++ [m] }
  | none => .ok s

/-- `o=`. -/
def parseOrigin (h : SdpSessionLevel) (p : List Byte) : SdpSessionLevel :=
  let (user, p) := getWord 64 p
  let (id, p) := getWord 64 p
  let (version, p) := getWord 64 p
  let (_, p) := getWord 64 p
  let (srcType, p) := getWord 64 p
  let (srcAddr, _) := getWord 64 p
  { h with user := user, id := atoi id, version := atoi version, srcType := srcType,
           srcAddr := srcAddr }

/-- `t=`. -/
def parseTime (h : SdpSessionLevel) (p : List Byte) : SdpSessionLevel :=
  let (startTime, p) := getWord 64 p
  let (endTime, _) := getWord 64 p
  { h with startTime := atoi startTime, endTime := atoi endTime }

/-- `c=`, of the session or of the last medium. -/
def parseConnection (s : ParseState) (p : List Byte) : ParseState :=
  let (net, p) := getWord 64 p
  if net ≠ ascii "IN" then s
  else
    let (type, p) := getWord 64 p
    let s := if s.mediaInfos = [] then { s with sdpHeader := { s.sdpHeader with dstType := type } }
      else s
    if type ≠ ascii "IP4" then s
    else
      let (addr, _) := getWordSep 64 [0x2f] p
      if s.mediaInfos = [] then { s with sdpHeader := { s.sdpHeader with dstAddr := addr } }
      else s.modifyLast fun m => { m with destAddr := addr }

/-- `m=`. -/
def parseMedia (s : ParseState) (p : List Byte) : ParseState :=
  let (_, p) := getWord 64 p
  let (port, p) := getWord 64 p
  let (_, p) := getWord 64 p
  let (format, _) := getWord 64 p
  { s with
    mediaInfos := s.mediaInfos ++ [{ RtpMediaInfo.new with
      destPort := (atoi port).setWidth 16, payloadType := (atoi format).setWidth 16 }]
    seenRtpmap := false
    seenFmtp := false }

/-- The payload type a codec stands for; that of the `m=` stays where it is not known. -/
def codecPayloadType (codec : List Byte) (payloadType : BitVec 16) : BitVec 16 :=
  if sameCaseless codec (ascii "H264") then H264
  else if sameCaseless codec (ascii "mpeg4-generic") then AAC
  else payloadType

/-- The codec, the rate and the channels of `a=rtpmap:`. -/
def parseRtpmap (m : RtpMediaInfo) (p : List Byte) : RtpMediaInfo :=
  let (_, p) := getWord 64 p
  let (codec, p) := getWordSep 64 [0x2f, 0x20] p
  let (rate, p) := getWordSep 64 [0x2f] p
  let m := { m with payloadType := codecPayloadType codec m.payloadType, rate := atoi rate }
  if m.payloadType = AAC then { m with channels := atoi (getWordSep 64 [0x2f] p).1 } else m

/-- `a=`. A line of format parameters before the `rtpmap` waits for it in `delayed_fmtp`, which has
2048 bytes and no end where the line is longer. -/
def parseAttribute (s : ParseState) (buf : List Byte) : Except Fault ParseState :=
  match strstart buf (ascii "rtpmap:"), s.mediaInfos with
  | some p, _ :: _ =>
    let s := { s.modifyLast (parseRtpmap · p) with seenRtpmap := true }
    if !s.seenFmtp then .ok s
    else if s.mediaInfos.getLast?.any RtpMediaInfo.hasParser ∧ 2048 ≤ s.delayedFmtp.length then
      .error .outOfBounds
    else s.modifyLastM (parseFmtp · s.delayedFmtp)
  | rtpmap, _ =>
    match strstart (rtpmap.getD buf) (ascii "fmtp:") with
    | none => .ok s
    | some p =>
      let (_, p) := getWord 64 p
      if s.seenRtpmap ∧ s.mediaInfos ≠ [] then s.modifyLastM (parseFmtp · p)
      else .ok { s with seenFmtp := true, delayedFmtp := buf }

/-- `parse_sdp_line`. -/
def parseSdpLine (s : ParseState) (letter : Byte) (buf : List Byte) : Except Fault ParseState :=
  if letter = 0x76 then
    .ok { s with sdpHeader := { s.sdpHeader with sdpVersion := atoi (getWord 64 buf).1 } }
  else if letter = 0x6f then .ok { s with sdpHeader := parseOrigin s.sdpHeader buf }
  else if letter = 0x73 then
    .ok { s with sdpHeader := { s.sdpHeader with name := (getWordSep 64 [0x0d] buf).1 } }
  else if letter = 0x74 then .ok { s with sdpHeader := parseTime s.sdpHeader buf }
  else if letter = 0x63 then .ok (parseConnection s buf)
  else if letter = 0x6d then .ok (parseMedia s buf)
  else if letter = 0x61 then parseAttribute s buf
  else .ok s

/-- The loop of `parse_sdp_str` over what is left of a text of `total` characters. Characters more
than `len` behind the start are no content. `fuel` is the number of characters and one. -/
def parseSdpLoop (total len : Nat) : Nat → ParseState → List Byte → Except Fault ParseState
  | 0, s, _ => .ok s
  | fuel + 1, s, p =>
    match p.dropWhile isSpaceChar with
    | [] => .ok s
    | letter :: p =>
      let nextLine := (p.dropWhile fun c => c != 0x0a).tail
      if p.head? = some 0x3d then do
        let content := (p.tail.takeWhile fun c => c != 0x0a && c != 0x0d).take
          (len + 1 + p.tail.length - total)
        let s ← parseSdpLine s letter (content.take 16383)
        parseSdpLoop total len fuel s nextLine
      else parseSdpLoop total len fuel s nextLine

/-- `parse_sdp_str`. -/
def parseSdpStr (s : ParseState) (text : List Byte) (len : Nat) : Except Fault ParseState :=
  parseSdpLoop text.length len (text.length + 1) s text

/-! ## SdpInfo -/

/-- `SdpInfo`: what was parsed, the text in `_sdp_ss` and the string in `_sdp_char`. -/
structure SdpInfo where
  sdpHeader : SdpSessionLevel
  mediaInfos : List RtpMediaInfo
  sdpSs : List Byte
  sdpChar : List Byte

/-- The characters of a string before its end. -/
def cString (bytes : List Byte) : List Byte := bytes.takeWhile fun c => c != 0

/-- `load` into a new `SdpInfo`. -/
def load (sdp : List Byte) (len : Nat) : Except Fault SdpInfo :=
  if len = 0 then .ok { sdpHeader := .new, mediaInfos := [], sdpSs := [], sdpChar := [] }
  else do
    let s ← parseSdpStr .new (cString sdp) len
    .ok { sdpHeader := s.sdpHeader, mediaInfos := s.mediaInfos, sdpSs := cString sdp, sdpChar := [] }

/-! ## The text of the media -/

/-- `avc_find_startcode_internal`: how far it is to the first start code that has a byte behind it,
or to the end. The loop over four bytes at a time finds the same. -/
def findStartcodeInternal : List Byte → Nat
  | [] => 0
  | b :: p =>
    match b, p with
    | 0#8, 0#8 :: 1#8 :: _ :: _ => 0
    | _, p => findStartcodeInternal p + 1

/-- `avc_find_startcode`, which takes a zero byte before the start code along. -/
def findStartcode (p : List Byte) : Nat :=
  let out := findStartcodeInternal p
  if 0 < out ∧ out < p.length ∧ byteAt p (out - 1) = 0 then out - 1 else out

/-- The loop of `extradata2psets`: the SPS and PPS units from a start code on. `fuel` is the number
of bytes. -/
def psetsOf : Nat → List Byte → List (List Byte)
  | 0, _ => []
  | fuel + 1, r =>
    if r = [] then []
    else
      let r := (r.dropWhile fun b => b == 0).tail
      let nalType := byteAt r 0 &&& 0x1f
      let n := findStartcode r
      if nalType ≠ 7 ∧ nalType ≠ 8 then psetsOf fuel (r.drop n)
      else r.take n :: psetsOf fuel (r.drop n)

/-- The SPS and PPS units of extra data. -/
def psets (extraData : List Byte) : List (List Byte) :=
  psetsOf extraData.length (extraData.drop (findStartcode extraData))

/-- The units in base 64, with commas between them, behind what is written of them. A unit for which
there is no room leaves the string without an end. -/
def writePsets : List Byte → List (List Byte) → Except Fault (List Byte)
  | out, [] => .ok out
  | out, unit :: units =>
    let out := if out = [] then out else out ++ [0x2c]
    match base64Encode (1024 - ((ascii "; sprop-parameter-sets=").length + out.length)) unit with
    | none => .error .outOfBounds
    | some text => writePsets (out ++ text) units

/-- `profile_string` and the three bytes behind the first one of the first unit, if it has them. -/
def profileOf (units : List (List Byte)) : List Byte :=
  match units.head? with
  | some unit =>
    if 4 ≤ unit.length then ascii "; profile-level-id=" ++ dataToHex ((unit.drop 1).take 3) else []
  | none => []

/-- `extradata2psets` into the string `config`, which stays empty where there is too much data, and
has no end where there is no unit. -/
def extradata2psets (m : RtpMediaInfo) : Except Fault (List Byte) :=
  if 1024 < m.extraData.length then .ok []
  else do
    let units := psets m.extraData
    let out ← writePsets [] units
    if out = [] then .error .outOfBounds
    else fits 1024 (ascii "; sprop-parameter-sets=" ++ out ++ profileOf units)

/-- `extradata2config` into the string `config`. -/
def extradata2config (m : RtpMediaInfo) : Except Fault (List Byte) :=
  if 1024 < m.extraData.length then .ok []
  else fits 1024 (ascii "; config=" ++ dataToHex m.extraData)

/-- `%d` of a payload type, a port or a duration. -/
def formatShort (n : BitVec 16) : List Byte := formatInt (n.setWidth 32)

/-- The codec of a video medium. -/
def h264RtpmapText (m : RtpMediaInfo) : List Byte :=
  ascii "a=rtpmap:" ++ formatShort m.payloadType ++ ascii " H264/90000\r\n"

/-- The codec and the format parameters of a video medium. -/
def h264FmtpText (m : RtpMediaInfo) (config : List Byte) : List Byte :=
  ascii "a=rtpmap:" ++ formatShort m.payloadType ++ ascii " H264/90000\r\na=fmtp:" ++
    formatShort m.payloadType ++ ascii " packetization-mode=" ++ formatInt 1 ++ config ++
    ascii "\r\n"

/-- The codec of an audio medium. -/
def aacRtpmapText (m : RtpMediaInfo) : List Byte :=
  ascii "a=rtpmap:" ++ formatShort m.payloadType ++ ascii " MPEG4-GENERIC/" ++ formatInt m.rate ++
    ascii "/" ++ formatInt m.channels ++ ascii "\r\n"

/-- The format parameters of an audio medium. -/
def aacFmtpText (m : RtpMediaInfo) (config : List Byte) : List Byte :=
  ascii "a=fmtp:" ++ formatShort m.payloadType ++
    ascii " profile-level-id=1;mode=AAC-hbr;constantDuration=" ++ formatShort m.constantDuration ++
    ascii ";sizelength=13;indexlength=3;indexdeltalength=3" ++ config ++ ascii "\r\n"

/-- `sdp_write_media_attributes`. -/
def sdpWriteMediaAttributes (m : RtpMediaInfo) : Except Fault (List Byte) :=
  if m.payloadType = H264 then
    if m.extraData = [] then fits 1024 (h264RtpmapText m)
    else do
      let config ← extradata2psets m
      if config = [] then .ok [] else fits 1024 (h264FmtpText m config)
  else if m.payloadType = AAC then
    if m.extraData = [] then .ok []
    else do
      let config ← extradata2config m
      if config = [] then .ok []
      else
        let rtpmap ← fits 1024 (aacRtpmapText m)
        let fmtp ← fits 1024 (aacFmtpText m config)
        .ok (rtpmap ++ fmtp)
  else .ok []

/-- The address of the session or of a medium. -/
def addressText (destAddr destType : List Byte) (ttl : BitVec 32) : List Byte :=
  if 0 < ttl.toInt ∧ destType = ascii "IP4" then
    ascii "c=IN " ++ destType ++ ascii " " ++ destAddr ++ ascii "/" ++ formatInt ttl ++
      ascii "\r\n"
  else ascii "c=IN " ++ destType ++ ascii " " ++ destAddr ++ ascii "\r\n"

/-- `sdp_write_address`. -/
def sdpWriteAddress (destAddr destType : List Byte) (ttl : BitVec 32) : Except Fault (List Byte) :=
  if destAddr = [] then .ok [] else fits 1024 (addressText destAddr destType ttl)

/-- The version, the origin and the name of the session. -/
def originText (h : SdpSessionLevel) : List Byte :=
  ascii "v=" ++ formatInt h.sdpVersion ++ ascii "\r\no=- " ++ formatInt h.id ++ ascii " " ++
    formatInt h.version ++ ascii " IN " ++ h.srcType ++ ascii " " ++ h.srcAddr ++
    ascii "\r\ns=" ++ h.name ++ ascii "\r\n"

/-- The end of the header. -/
def toolText : List Byte :=
  ascii "t=" ++ formatInt 0 ++ ascii " " ++ formatInt 0 ++
    ascii "\r\na=tool:YouKu Media Server\r\n"

/-- `sdp_write_header`. -/
def sdpWriteHeader (h : SdpSessionLevel) : Except Fault (List Byte) := do
  let origin ← fits 1024 (originText h)
  let address ← sdpWriteAddress h.dstAddr h.dstType h.ttl
  let tool ← fits 1024 toolText
  .ok (origin ++ address ++ tool)

/-- The medium `sdp_write_media` writes for a payload type. -/
def mediaType (payloadType : BitVec 16) : List Byte :=
  if payloadType = H264 then ascii "video"
  else if payloadType = AAC then ascii "audio"
  else if payloadType = MP3 then ascii "audio"
  else ascii "application"

/-- The protocol of an `RTPTransport`. -/
def mediaTransport (rtpTransport : BitVec 32) : List Byte :=
  if rtpTransport = 2 then ascii "RTP/AVPF" else ascii "RTP/AVP"

/-- The line that starts a medium. -/
def mediaText (m : RtpMediaInfo) : List Byte :=
  ascii "m=" ++ mediaType m.payloadType ++ ascii " " ++ formatShort m.destPort ++ ascii " " ++
    mediaTransport m.rtpTransport ++ ascii " " ++ formatShort m.payloadType ++ ascii "\r\n"

/-- `sdp_write_media`. -/
def sdpWriteMedia (ttl : BitVec 32) (m : RtpMediaInfo) : Except Fault (List Byte) := do
  let media ← fits 1024 (mediaText m)
  let address ← sdpWriteAddress m.destAddr (ascii "IP4") ttl
  let attributes ← sdpWriteMediaAttributes m
  .ok (media ++ address ++ attributes)

namespace SdpInfo

/-- `generate_sdp_str`. `_sdp_char` has 4096 bytes. -/
def generateSdpStr (info : SdpInfo) : Except Fault SdpInfo := do
  let header ← sdpWriteHeader info.sdpHeader
  let text ← info.mediaInfos.foldlM
    (fun text m => (sdpWriteMedia info.sdpHeader.ttl m).map (text ++ ·)) header
  let text ← fits 4096 text
  .ok { info with sdpSs := text, sdpChar := text }

/-- `get_sdp_str`. -/
def getSdpStr (info : SdpInfo) : Except Fault (SdpInfo × List Byte) := do
  let info ← if info.sdpChar = [] ∧ info.mediaInfos ≠ [] then info.generateSdpStr else .ok info
  .ok (info, info.sdpSs)

end SdpInfo

end RtcMcu.Avformat.Sdp
