import RtcMcu.Avcodec.Aac
import RtcMcu.Avformat.Flv
import RtcMcu.Lib.Emit
import RtcMcu.MediaManager.JitterBuffer

/-!
# RTP2FLVRemuxer

`media_manager/rtp2flv_remuxer.cpp`: what one stream's packets are turned into. Audio and video go
through a jitter buffer each. Video is collected frame by frame, audio is taken packet by packet,
and the tags wait in two queues until they can be put in the order of their timestamps. The remuxer
calls `FlvCacheManager` and does not look at what it answers (`FlvCall`, `Remux`).

Not modelled: `_last_ts`, `_cur_nalu_size`, `_video_inc_req` and `_audio_inc_req`, which nothing
reads, and what is only logged.
-/

namespace RtcMcu.MediaManager

open RtcMcu.Avformat RtcMcu.Avcodec RtcMcu.Fragment

/-- A call of the remuxer on `FlvCacheManager`. -/
inductive FlvCall
  | setFlvHeader (header : List Byte) (len : Nat)
  | setFlvTag (tag : FlvTag)
  deriving DecidableEq

/-- A function of the remuxer. -/
abbrev Remux (α : Type) := Emit Fault FlvCall α

/-- What `set_sdp_char` reads of an `rtp_media_info`. -/
structure SdpMedia where
  payloadType : BitVec 16
  rate : BitVec 32
  channels : BitVec 32
  extraData : List Byte

/-- The settings of `TargetConfig`, and what the remuxer is given by other code. -/
structure RemuxerEnv where
  enableCheckBrokenFrame : Bool
  enableUseNaluSplitCode : Bool
  jitterBufferTime : BitVec 32
  muxerQueueThreshold : BitVec 32
  /-- the media `parse_sdp_str` finds -/
  parseSdp : List Byte → List SdpMedia
  /-- `(uint32_t)(ts / ((float)time_base / 1000.0))` -/
  toMs : BitVec 32 → BitVec 32 → BitVec 32
  headerData : HeaderData
  rule : TopRule
  stray : Seq
  /-- what a new block of memory holds -/
  block : List Byte
  /-- what a time base holds that the constructor does not set -/
  unsetTimeBase : BitVec 32

/-- The two queues of finished tags, and the timestamp of the last tag that was passed on. -/
structure OutQueues where
  audioOutQueue : List FlvTag
  videoOutQueue : List FlvTag
  outSyncTs : BitVec 32

/-- `Rtp2FlvTransformInfo`. Of the buffers only what is queued is kept. -/
structure Rtp2FlvTransformInfo extends OutQueues where
  flv : FLV
  flvHeader : FLVHeader
  audioBuffer : JitterBuffer
  videoBuffer : JitterBuffer
  videoFrameBuffer : List Byte
  videoFrameBufferPos : List Nat
  videoFrameTs : BitVec 32
  muxerQueueThreshold : BitVec 32
  useNaluSplitCode : Bool
  lastVideoSeq : Seq
  audioTimeBase : BitVec 32
  audioChannel : BitVec 32
  videoTimeBase : BitVec 32
  lastRtpVideoTs : BitVec 32
  lastRtpAudioTs : BitVec 32
  firstVideoTs : BitVec 32
  firstAudioTs : BitVec 32
  videoOffset : BitVec 32
  audioOffset : BitVec 32
  isCurFrameValied : Bool
  isSpsReach : Bool
  isPpsReach : Bool
  isAdtsReach : Bool
  isAudioOnly : Bool
  isCheckFrame : Bool
  avc0Buffer : List Byte
  aac0Buffer : List Byte

/-- `buffer_init(1024 * 1024)`. -/
def videoFrameBufferSize : Nat := 1024 * 1024

/-- `buffer_init(4096)`. -/
def configBufferSize : Nat := 4096

/-- `buffer_append_ptr` of `len` bytes from the memory `m`. The length is a `size_t`, so one below
zero is a large one. -/
def appendFrom (size : Nat) (queued m : List Byte) (start : Nat) (len : BitVec 64) :
    Except Fault (List Byte) :=
  if BitVec.ofNat 64 size < BitVec.ofNat 64 queued.length + len then .ok queued
  else do
    let bytes ← slice m start len.toNat
    .ok (queued ++ bytes)

/-- A byte of a packet. -/
def readByte (m : List Byte) (i : Nat) : Except Fault Byte :=
  if h : i < m.length then .ok m[i] else .error .outOfBounds

/-! ## Passing tags on -/

namespace OutQueues

/-- `set_flv_tag`, unless the tag is older than the last one or was made empty. -/
def pass (q : OutQueues) (tag : FlvTag) (valid : Bool) : OutQueues × List FlvTag :=
  if q.outSyncTs ≤ tag.timestamp ∧ valid = true then
    ({ q with outSyncTs := tag.timestamp }, [tag])
  else (q, [])

/-- `flv_get_datasize(tag->datasize) > 0`. -/
def hasData (tag : FlvTag) : Bool := decide (0 < tag.datasize)

/-- The audio tag goes before the video tag. -/
def audioFirst (audio video : FlvTag) : Bool :=
  audio.timestamp != video.timestamp &&
    decide (video.timestamp - audio.timestamp < 0x80000000)

/-- The first loop of `_set_flv_to_mm`. Each round takes a tag from a queue, so the fuel is the
number of tags. -/
def merge : Nat → OutQueues → OutQueues × List FlvTag
  | 0, q => (q, [])
  | fuel + 1, q =>
    match q.audioOutQueue, q.videoOutQueue with
    | a :: as, v :: vs =>
      let r :=
        if audioFirst a v then ({ q with audioOutQueue := as } : OutQueues).pass a true
        else ({ q with videoOutQueue := vs } : OutQueues).pass v (hasData v)
      let r' := merge fuel r.1
      (r'.1, r.2 ++ r'.2)
    | _, _ => (q, [])

/-- The loop that takes tags from a queue that spans more than the threshold. -/
def shorten (threshold : BitVec 32) (valid : FlvTag → Bool) :
    List FlvTag → BitVec 32 → List FlvTag × BitVec 32 × List FlvTag
  | [], sync => ([], sync, [])
  | t :: q, sync =>
    match q.getLast? with
    | none => ([t], sync, [])
    | some back =>
      if threshold < back.timestamp - t.timestamp then
        if sync ≤ t.timestamp ∧ valid t = true then
          let r := shorten threshold valid q t.timestamp
          (r.1, r.2.1, t :: r.2.2)
        else shorten threshold valid q sync
      else (t :: q, sync, [])

/-- The two loops of `_set_flv_to_mm` that keep the queues short. -/
def shortenBoth (threshold : BitVec 32) (q : OutQueues) : OutQueues × List FlvTag :=
  let a := shorten threshold (fun _ => true) q.audioOutQueue q.outSyncTs
  let v := shorten threshold hasData q.videoOutQueue a.2.1
  ({ audioOutQueue := a.1, videoOutQueue := v.1, outSyncTs := v.2.1 }, a.2.2 ++ v.2.2)

/-- `_set_flv_to_mm` on the queues. -/
def setFlvToMm (q : OutQueues) (threshold : BitVec 32) : OutQueues × List FlvTag :=
  let r := merge (q.audioOutQueue.length + q.videoOutQueue.length) q
  if 0 < threshold then
    let r' := r.1.shortenBoth threshold
    (r'.1, r.2 ++ r'.2)
  else r

end OutQueues

namespace Rtp2FlvTransformInfo

/-- `Rtp2FlvTransformInfo()`. -/
def new (env : RemuxerEnv) : Rtp2FlvTransformInfo where
  audioOutQueue := []
  videoOutQueue := []
  outSyncTs := 0
  flv := FLV.new env.block
  flvHeader := FLVHeader.new
  audioBuffer := JitterBuffer.new.setBufferDuration env.jitterBufferTime
  videoBuffer := JitterBuffer.new.setBufferDuration env.jitterBufferTime
  videoFrameBuffer := []
  videoFrameBufferPos := []
  videoFrameTs := 0
  muxerQueueThreshold := env.muxerQueueThreshold
  useNaluSplitCode := env.enableUseNaluSplitCode
  lastVideoSeq := 0
  audioTimeBase := env.unsetTimeBase
  audioChannel := 0
  videoTimeBase := env.unsetTimeBase
  lastRtpVideoTs := 0
  lastRtpAudioTs := 0
  firstVideoTs := 0
  firstAudioTs := 0
  videoOffset := 0
  audioOffset := 0
  isCurFrameValied := true
  isSpsReach := false
  isPpsReach := false
  isAdtsReach := false
  isAudioOnly := false
  isCheckFrame := env.enableCheckBrokenFrame
  avc0Buffer := []
  aac0Buffer := []

/-- `_set_flv_to_mm`. -/
def setFlvToMm (info : Rtp2FlvTransformInfo) : Remux Rtp2FlvTransformInfo :=
  let r := info.toOutQueues.setFlvToMm info.muxerQueueThreshold
  { calls := r.2.map .setFlvTag, result := .ok { info with toOutQueues := r.1 } }

/-! ## The header -/

/-- What was collected is enough for a header, and for tags. -/
def ready (info : Rtp2FlvTransformInfo) : Bool :=
  (info.isAudioOnly || (info.isSpsReach && info.isPpsReach)) && info.isAdtsReach

/-- `_write_header`. -/
def writeHeader (env : RemuxerEnv) (info : Rtp2FlvTransformInfo) : Remux Rtp2FlvTransformInfo :=
  if info.ready then do
    let header := info.flvHeader.build env.headerData info.avc0Buffer info.aac0Buffer
    Emit.call (.setFlvHeader header.buffer header.buffer.length)
    pure { info with flvHeader := header }
  else pure info

/-! ## Video -/

/-- `htonl` of a size is written over the split code at `pos`. -/
def writeSize (m : List Byte) (pos : Nat) (size : BitVec 32) : Except Fault (List Byte) :=
  if pos + 4 ≤ m.length then .ok (m.take pos ++ be32 size ++ m.drop (pos + 4))
  else .error .outOfBounds

/-- The loop that writes the sizes of the NAL units over their split codes. That of the last unit is
written only if there is one before it. -/
def writeSizes (m : List Byte) : Option Nat → List Nat → Except Fault (List Byte)
  | none, [] => .ok m
  | some last, [] =>
    if 0 < last then
      writeSize m last (BitVec.ofNat 32 m.length - BitVec.ofNat 32 last - 4)
    else .ok m
  | none, pos :: ps => writeSizes m (some pos) ps
  | some last, pos :: ps => do
    let m ← writeSize m last (BitVec.ofNat 32 pos - BitVec.ofNat 32 last - 4)
    writeSizes m (some pos) ps

/-- A parameter set goes into `_avc0_buffer`. -/
def appendParameterSet (info : Rtp2FlvTransformInfo) (nal : NalUnit) :
    Except Fault (List Byte) := do
  let bytes ← nal.bytes
  .ok (bufferAppend configBufferSize (bufferAppend configBufferSize info.avc0Buffer h264SplitCode)
    bytes)

/-- A NAL unit is looked at for the first parameter sets of the stream. -/
def takeParameterSet (info : Rtp2FlvTransformInfo) (nal : NalUnit) :
    Except Fault Rtp2FlvTransformInfo :=
  if nalType nal.header = NAL_SPS ∧ nal.header &&& 0x60 ≠ 0 ∧ info.isSpsReach = false then do
    let avc0 ← info.appendParameterSet nal
    .ok { info with avc0Buffer := avc0, isSpsReach := true }
  else if nalType nal.header = NAL_PPS ∧ nal.header &&& 0x60 ≠ 0 ∧ info.isPpsReach = false then do
    let avc0 ← info.appendParameterSet nal
    .ok { info with avc0Buffer := avc0, isPpsReach := true }
  else .ok info

/-- The two parameter sets were found. -/
def hasParameterSets (info : Rtp2FlvTransformInfo) : Bool := info.isSpsReach && info.isPpsReach

/-- The part of `_put_video_frame` that looks for the parameter sets. -/
def findParameterSets (env : RemuxerEnv) (info : Rtp2FlvTransformInfo) :
    Remux Rtp2FlvTransformInfo :=
  if info.hasParameterSets then pure info
  else do
    let info ← Emit.lift (scanNals info.videoFrameBuffer takeParameterSet hasParameterSets info)
    info.writeHeader env

/-- The time one turn of the RTP timestamps takes. -/
def turnMs (env : RemuxerEnv) (last timeBase : BitVec 32) : BitVec 32 :=
  env.toMs last timeBase + env.toMs (0xFFFFFFFF - last) timeBase

/-- The offset of the video timestamps grows by a turn when they step back. -/
def videoClock (env : RemuxerEnv) (info : Rtp2FlvTransformInfo) : Rtp2FlvTransformInfo :=
  let offset :=
    if info.videoFrameTs < info.lastRtpVideoTs then
      info.videoOffset + turnMs env info.lastRtpVideoTs info.videoTimeBase
    else info.videoOffset
  { info with videoOffset := offset, lastRtpVideoTs := info.videoFrameTs }

/-- The frame is broken, or no picture was found in it. -/
def frameInvalid (info : Rtp2FlvTransformInfo) (tag : FlvTag) : Bool :=
  (info.isCheckFrame && !info.isCurFrameValied) || (byteAt tag.data 0 &&& 0x0f) != 7

/-- The part of `_put_video_frame` that makes the tag. -/
def queueVideoTag (env : RemuxerEnv) (info : Rtp2FlvTransformInfo) :
    Except Fault Rtp2FlvTransformInfo :=
  if info.isSpsReach && info.isPpsReach && info.isAdtsReach then do
    let info := info.videoClock env
    let (tag, flv) ← info.flv.generateVideoTag info.videoFrameBuffer
      (env.toMs info.videoFrameTs info.videoTimeBase)
    let first := if info.firstVideoTs = 0 then tag.timestamp else info.firstVideoTs
    let tag := tag.setTimestamp (tag.timestamp - first + info.videoOffset)
    let audioOffset := if info.firstAudioTs = 0 then tag.timestamp else info.audioOffset
    let tag := if info.frameInvalid tag then tag.setDatasize 0 else tag
    .ok { info with
      flv := flv
      firstVideoTs := first
      audioOffset := audioOffset
      videoOutQueue := info.videoOutQueue ++ [tag] }
  else .ok info

/-- The end of `_put_video_frame`. -/
def endFrame (info : Rtp2FlvTransformInfo) : Rtp2FlvTransformInfo :=
  { info with
    videoFrameBuffer := []
    isCurFrameValied := true
    lastVideoSeq := 0
    videoFrameBufferPos := if info.useNaluSplitCode then info.videoFrameBufferPos else [] }

/-- The part of `_put_video_frame` that writes the sizes of the NAL units. -/
def sizeFrame (info : Rtp2FlvTransformInfo) : Except Fault Rtp2FlvTransformInfo :=
  if info.useNaluSplitCode then .ok info
  else do
    let frame ← writeSizes info.videoFrameBuffer none info.videoFrameBufferPos
    .ok { info with videoFrameBuffer := frame, videoFrameBufferPos := [] }

/-- `_put_video_frame`. -/
def putVideoFrame (env : RemuxerEnv) (info : Rtp2FlvTransformInfo) :
    Remux Rtp2FlvTransformInfo := do
  let info ← Emit.lift info.sizeFrame
  let info ← info.findParameterSets env
  let info ← Emit.lift (info.queueVideoTag env)
  pure info.endFrame

/-- `_put_video_frame` when there is something in the frame buffer. -/
def putFrameIf (env : RemuxerEnv) (cond : Bool) (info : Rtp2FlvTransformInfo) :
    Remux Rtp2FlvTransformInfo :=
  if cond && info.videoFrameBuffer != [] then info.putVideoFrame env else pure info

/-- A NAL unit starts at the end of the frame buffer. -/
def markUnit (info : Rtp2FlvTransformInfo) : Rtp2FlvTransformInfo :=
  { info with
    videoFrameBufferPos :=
      if info.useNaluSplitCode then info.videoFrameBufferPos
      else info.videoFrameBufferPos ++ [info.videoFrameBuffer.length]
    videoFrameBuffer := bufferAppend videoFrameBufferSize info.videoFrameBuffer h264SplitCode }

/-- The payload behind `offset`, of a packet of `len` bytes, goes into the frame buffer. -/
def appendPayload (info : Rtp2FlvTransformInfo) (pkt : Rtp) (len offset : Nat) :
    Except Fault Rtp2FlvTransformInfo := do
  let frame ← appendFrom videoFrameBufferSize info.videoFrameBuffer pkt.data offset
    (BitVec.ofNat 64 len - BitVec.ofNat 64 rtpHeaderLen - BitVec.ofNat 64 offset)
  .ok { info with videoFrameBuffer := frame }

/-- A packet that is a whole NAL unit. -/
def appendUnit (info : Rtp2FlvTransformInfo) (pkt : Rtp) (len offset : Nat) :
    Except Fault Rtp2FlvTransformInfo := do
  let info ← info.markUnit.appendPayload pkt len offset
  .ok { info with videoFrameTs := pkt.timestamp }

/-- A fragment is in order when its number follows that of the fragment before it. The comparison is
made in `int`, where 65535 is not followed by 0. -/
def checkFragment (info : Rtp2FlvTransformInfo) (seq : Seq) : Rtp2FlvTransformInfo :=
  if 0 < info.lastVideoSeq then
    { info with
      isCurFrameValied := info.isCurFrameValied && decide (seq.toNat = info.lastVideoSeq.toNat + 1)
      lastVideoSeq := seq }
  else info

/-- The first fragment of a NAL unit: the unit's header is made of the indicator and the fragment
header. -/
def startUnit (info : Rtp2FlvTransformInfo) (pkt : Rtp) (indicator fragment : Byte) :
    Rtp2FlvTransformInfo :=
  let info := info.markUnit
  { info with
    videoFrameTs := pkt.timestamp
    videoFrameBuffer := bufferAppend videoFrameBufferSize info.videoFrameBuffer
      [(indicator &&& 0xe0) ||| (fragment &&& 0x1f)]
    lastVideoSeq := pkt.seq }

/-- A packet that is a fragment of a NAL unit. -/
def appendFragment (info : Rtp2FlvTransformInfo) (pkt : Rtp) (len offset : Nat)
    (indicator : Byte) : Except Fault Rtp2FlvTransformInfo := do
  let fragment ← readByte pkt.data (offset + 1)
  let info := info.checkFragment pkt.seq
  let info := if fragment &&& 0x80 ≠ 0 then info.startUnit pkt indicator fragment else info
  info.appendPayload pkt len (offset + 2)

/-- The H264 branch of `_set_rtp_to_buffer`. -/
def setVideo (env : RemuxerEnv) (info : Rtp2FlvTransformInfo) (pkt : Rtp) (len offset : Nat) :
    Remux Rtp2FlvTransformInfo := do
  let indicator ← Emit.lift (readByte pkt.data offset)
  let info ← info.putFrameIf env (info.videoFrameTs != pkt.timestamp)
  let info ← Emit.lift (
    if indicator &&& 0x1f ≠ 28 then info.appendUnit pkt len offset
    else info.appendFragment pkt len offset indicator)
  info.putFrameIf env (pkt.marker == 1)

/-! ## Audio -/

/-- The first configuration of the stream. -/
def reachAdts (env : RemuxerEnv) (info : Rtp2FlvTransformInfo) (config : AACConfig) :
    Remux Rtp2FlvTransformInfo :=
  if info.isAdtsReach then pure info
  else
    writeHeader env
      { info with
        aac0Buffer := bufferAppend configBufferSize info.aac0Buffer config.buildAacSpecific
        isAdtsReach := true }

/-- The header of an audio frame: an ADTS header, or a LATM header. The result is the offset of the
payload and its length. -/
def audioHeader (env : RemuxerEnv) (info : Rtp2FlvTransformInfo) (pkt : Rtp) (len : Nat)
    (offset : BitVec 32) : Remux (Rtp2FlvTransformInfo × BitVec 32 × BitVec 32) := do
  let first ← Emit.lift (readByte pkt.data offset.toNat)
  if first = 0xff then
    let config := AACConfig.parseAdtsHeader (pkt.data.drop offset.toNat)
    let rate := BitVec.ofNat 32 config.sampleFreq
    let info ← reachAdts env
      { info with audioTimeBase := rate, audioBuffer := info.audioBuffer.setTimeBase rate } config
    pure (info, offset + BitVec.ofNat 32 adtsHeaderSize,
      BitVec.ofNat 32 config.frameLength - BitVec.ofNat 32 adtsHeaderSize)
  else
    let info ← info.reachAdts env
      (.ofFields AACPLUS_AOT_AAC_LC (info.audioChannel.setWidth 8) info.audioTimeBase.toNat)
    let offset := offset + 4
    pure (info, offset, BitVec.ofNat 32 len - BitVec.ofNat 32 rtpHeaderLen - offset)

/-- The offset of the audio timestamps grows by a turn when they step back. -/
def audioClock (env : RemuxerEnv) (info : Rtp2FlvTransformInfo) (timestamp : BitVec 32) :
    Rtp2FlvTransformInfo :=
  let offset :=
    if timestamp < info.lastRtpAudioTs then
      info.audioOffset + turnMs env info.lastRtpAudioTs info.audioTimeBase
    else info.audioOffset
  { info with audioOffset := offset, lastRtpAudioTs := timestamp }

/-- The tag is passed on at once when there is no video to wait for. -/
def passAudio (info : Rtp2FlvTransformInfo) (tag : FlvTag) : Remux Rtp2FlvTransformInfo :=
  if info.isAudioOnly then do
    Emit.call (.setFlvTag tag)
    pure info
  else pure { info with audioOutQueue := info.audioOutQueue ++ [tag] }

/-- The tag of an audio frame. -/
def audioTag (env : RemuxerEnv) (info : Rtp2FlvTransformInfo) (pkt : Rtp)
    (offset len : BitVec 32) : Remux Rtp2FlvTransformInfo :=
  if info.ready then do
    let info := info.audioClock env pkt.timestamp
    let payload ← Emit.lift (slice pkt.data offset.toNat len.toNat)
    let (tag, flv) := info.flv.generateAudioTag payload
      (env.toMs pkt.timestamp info.audioTimeBase)
    let first := if info.firstAudioTs = 0 then tag.timestamp else info.firstAudioTs
    let tag := tag.setTimestamp (tag.timestamp - first + info.audioOffset)
    let videoOffset := if info.firstVideoTs = 0 then tag.timestamp else info.videoOffset
    passAudio { info with flv := flv, firstAudioTs := first, videoOffset := videoOffset } tag
  else pure info

/-- The AAC branch of `_set_rtp_to_buffer`. An ADTS frame whose length is 0 is read again and again;
every other frame moves the offset on. -/
def setAudio (env : RemuxerEnv) (pkt : Rtp) (len : Nat) :
    Nat → Rtp2FlvTransformInfo → BitVec 32 → Remux Rtp2FlvTransformInfo
  | 0, _, _ => Emit.lift (.error .outOfFuel)
  | fuel + 1, info, offset =>
    if offset < BitVec.ofNat 32 len - BitVec.ofNat 32 rtpHeaderLen then do
      let (info, offset, payloadLen) ← info.audioHeader env pkt len offset
      let info ← info.audioTag env pkt offset payloadLen
      setAudio env pkt len fuel info (offset + payloadLen)
    else pure info

/-! ## Packets -/

/-- The header extension: its length is in its third and fourth byte. -/
def payloadOffset (pkt : Rtp) : Except Fault Nat :=
  if pkt.extension = 1 then
    if pkt.data.length < 4 then .error .outOfBounds
    else .ok (4 + (rdBe16 pkt.data 2).toNat * 4)
  else .ok 0

/-- `_set_rtp_to_buffer`. -/
def setRtpToBuffer (env : RemuxerEnv) (info : Rtp2FlvTransformInfo) (pkt : Rtp) (len : Nat) :
    Remux Rtp2FlvTransformInfo := do
  let offset ← Emit.lift (payloadOffset pkt)
  if pkt.payload = RTP_AV_H264 then info.setVideo env pkt len offset
  else if pkt.payload = RTP_AV_AAC then
    setAudio env pkt len (pkt.data.length + 1) info (BitVec.ofNat 32 offset)
  else pure info

/-- One of the two jitter buffers. -/
inductive Track
  | audio
  | video

def buffer (info : Rtp2FlvTransformInfo) : Track → JitterBuffer
  | .audio => info.audioBuffer
  | .video => info.videoBuffer

def setBuffer (info : Rtp2FlvTransformInfo) (j : JitterBuffer) : Track → Rtp2FlvTransformInfo
  | .audio => { info with audioBuffer := j }
  | .video => { info with videoBuffer := j }

/-- The loop of `set_rtp` over the packets the jitter buffer gives out. Each is taken from its queue,
so the fuel is one more than the length of the queue. -/
def drain (env : RemuxerEnv) (track : Track) :
    Nat → Rtp2FlvTransformInfo → Remux Rtp2FlvTransformInfo
  | 0, _ => Emit.lift (.error .outOfFuel)
  | fuel + 1, info => do
    let (block, j) ← Emit.lift ((info.buffer track).getRTPPacket env.rule env.stray)
    let info := info.setBuffer j track
    match block with
    | none => pure info
    | some b => do
      let info ← info.setRtpToBuffer env b.rtp b.block.rtpLen
      drain env track fuel info

/-- `JitterBuffer::SetRTPPacket` with any block: one that is not valid is skipped. -/
def setBlock (info : Rtp2FlvTransformInfo) (track : Track) (block : RTPBlock) :
    Except Fault Rtp2FlvTransformInfo :=
  if h : block.isValid = true then do
    let j ← (info.buffer track).setRTPPacket ⟨block, h⟩
    .ok (info.setBuffer j track)
  else .ok info

/-- The packet goes through the jitter buffer of its track. -/
def setTrack (env : RemuxerEnv) (info : Rtp2FlvTransformInfo) (track : Track) (pkt : Rtp)
    (len : Nat) : Remux Rtp2FlvTransformInfo := do
  let info ← Emit.lift (info.setBlock track (RTPBlock.new (some pkt) len))
  drain env track ((info.buffer track).queue.length + 1) info

/-- `set_rtp`, once the stream's record is found. -/
def setRtp (env : RemuxerEnv) (info : Rtp2FlvTransformInfo) (pkt : Rtp) (len : Nat) :
    Remux Rtp2FlvTransformInfo := do
  let info ←
    if pkt.payload = RTP_AV_H264 then info.setTrack env .video pkt len
    else if pkt.payload = RTP_AV_AAC then info.setTrack env .audio pkt len
    else pure info
  if info.isAudioOnly then pure info else info.setFlvToMm

/-! ## Session descriptions -/

/-- The parameter sets in a description. The code copies `r - r1` bytes from `r`, where `r1` is the
end of the unit: the length is below zero, so the copy runs out of every buffer. -/
def readParameterSets (extraData : List Byte) : Except Fault Unit :=
  scanCodes extraData
    (fun _ nal =>
      if nalType nal.header = NAL_SPS ∨ nalType nal.header = NAL_PPS then .error .outOfBounds
      else .ok ())
    (fun _ => false) extraData.length (findStartcode extraData 0) ()

/-- The loop of `set_sdp_char` over the media, of which there are `count`. -/
def setMedia (count : Nat) (info : Rtp2FlvTransformInfo) (media : SdpMedia) :
    Except Fault Rtp2FlvTransformInfo :=
  if media.payloadType = RTP_AV_H264.setWidth 16 then do
    readParameterSets media.extraData
    .ok { info with
      videoTimeBase := media.rate
      videoBuffer := info.videoBuffer.setTimeBase media.rate }
  else if media.payloadType = RTP_AV_AAC.setWidth 16 then
    .ok { info with
      isAudioOnly := info.isAudioOnly || count == 1
      audioTimeBase := media.rate
      audioBuffer := info.audioBuffer.setTimeBase media.rate
      audioChannel := media.channels }
  else .ok info

/-- What `set_sdp_char` resets. -/
def restart (info : Rtp2FlvTransformInfo) : Rtp2FlvTransformInfo :=
  { info with
    audioBuffer := info.audioBuffer.reset
    videoBuffer := info.videoBuffer.reset
    firstAudioTs := 0
    firstVideoTs := 0
    audioOffset := info.outSyncTs
    videoOffset := info.outSyncTs
    videoFrameBuffer := []
    audioOutQueue := []
    videoOutQueue := []
    videoFrameBufferPos := if info.useNaluSplitCode then info.videoFrameBufferPos else [] }

/-- `set_sdp_char`, once the stream's record is found. -/
def setSdpChar (env : RemuxerEnv) (info : Rtp2FlvTransformInfo) (sdp : List Byte) :
    Except Fault Rtp2FlvTransformInfo := do
  let medias := env.parseSdp sdp
  let info ← medias.foldlM (setMedia medias.length) info
  .ok info.restart

end Rtp2FlvTransformInfo

end RtcMcu.MediaManager
