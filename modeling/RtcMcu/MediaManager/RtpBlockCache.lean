import RtcMcu.Fragment.RtpBlock

/-!
# The RTP caches

`media_manager/rtp_block_cache.cpp`. `RTPCircularCache`, the cache of one media, is a deque of
blocks whose indices follow the sequence numbers, from the oldest packet kept to the newest.
`setRtp` stores a packet by one of three cases on where its number falls,

```
||---------|-------------------------|-------------------|------------------||
         front.seq                back.seq         expect_next_max
```

append and fill the gap with unset blocks, fill in a slot, or start over; a timestamp that jumps by
20 seconds starts over too. `getBySeq` reads a packet back by its number. `RTPMediaCache` has one
such cache for audio and one for video; `RtpCacheManager` has one media cache for each stream it
has an SDP of, under the low 32 bits of the stream's id.
-/

namespace RtcMcu.MediaManager

open RtcMcu.Avformat RtcMcu.Fragment

/-- The values of `StatusCode` the RTP caches answer with. -/
inductive StatusCode
  | statusSuccess
  | rtpCacheUnknownError
  | rtpCacheNoThisSeq
  | rtpCacheCircularCacheEmpty
  | rtpCacheSeqTooLarge
  | rtpCacheSeqTooSmall
  | rtpCacheSetRtpFailed
  | rtpCacheRtpInvalid
  deriving DecidableEq, Repr

/-- `seq_gt`: `left` lies after `right`, by less than half a turn. -/
def seqGt (left right : Seq) : Bool := left != right && left - right < 0x8000#16

/-- `seq_lt`: `left` lies before `right`, by less than half a turn. -/
def seqLt (left right : Seq) : Bool := left != right && right - left < 0x8000#16

/-- `RTPCircularCache`. `_av_type` and `_stream_id` are only logged and are left out. -/
structure RTPCircularCache where
  sampleRate : BitVec 32
  maxSize : BitVec 16
  ssrc : BitVec 32
  circularCache : List RTPBlock
  deriving DecidableEq, Repr

/-- `RTPCircularCache::reset`, also the state the constructor leaves. -/
def RTPCircularCache.reset : RTPCircularCache :=
  { sampleRate := 0, maxSize := 0, ssrc := 0, circularCache := [] }

/-- `RTPCircularCache::init`; the size is cut to 16 bits. -/
def RTPCircularCache.init (c : RTPCircularCache) (sampleRate maxSize : BitVec 32) :
    RTPCircularCache :=
  { c with sampleRate := sampleRate, maxSize := maxSize.setWidth 16 }

def RTPCircularCache.isInited (c : RTPCircularCache) : Bool :=
  0 < c.sampleRate && 0 < c.maxSize

/-- `clean`. -/
def RTPCircularCache.clean (c : RTPCircularCache) : RTPCircularCache :=
  { c with circularCache := [] }

/-- `_circular_cache.push_back`. -/
def RTPCircularCache.pushBack (c : RTPCircularCache) (b : RTPBlock) : RTPCircularCache :=
  { c with circularCache := c.circularCache ++ [b] }

/-- `_adjust`: the oldest blocks go until the deque fits, then unset blocks go from the front. -/
def RTPCircularCache.adjust (c : RTPCircularCache) : RTPCircularCache :=
  let fitting := c.circularCache.drop (c.circularCache.length - c.maxSize.toNat)
  { c with circularCache := fitting.dropWhile fun b => !b.isValid }

/-- `_circular_cache.front().get_seq()` on a deque that is not empty. -/
def RTPCircularCache.frontSeq (c : RTPCircularCache) : Except Fault Seq :=
  match c.circularCache.head? with
  | none => .error .outOfBounds
  | some b => b.getSeq

/-- `_circular_cache.back().get_seq()` on a deque that is not empty. -/
def RTPCircularCache.backSeq (c : RTPCircularCache) : Except Fault Seq :=
  match c.circularCache.getLast? with
  | none => .error .outOfBounds
  | some b => b.getSeq

/-- The timestamp of the newest packet and the new one differ by 20 seconds or more: the guard
`abs(int(latest - rtp)) >= int(20 * _sample_rate)`, in 32-bit arithmetic. -/
def RTPCircularCache.timestampJump (c : RTPCircularCache) (rtp : Rtp) : Bool :=
  match (c.circularCache.getLast?.map RTPBlock.get).bind (·.1) with
  | none => false
  | some latest =>
    0 < c.sampleRate && BitVec.sle (20 * c.sampleRate) (latest.timestamp - rtp.timestamp).abs

/-- `_fill_in`: a free slot takes the packet, a filled one keeps what it has. -/
def RTPCircularCache.fillIn (c : RTPCircularCache) (rtp : Rtp) (len : Nat) :
    Except Fault RTPCircularCache := do
  let frontSeq ← c.frontSeq
  let idx := (rtp.seq - frontSeq).toNat
  match c.circularCache[idx]? with
  | none => .error .assertFailed
  | some block =>
    if block.isValid then .ok c
    else .ok { c with circularCache := c.circularCache.set idx (block.set (some rtp) len) }

/-- The part of `set_rtp` after the argument checks. -/
def RTPCircularCache.store (c : RTPCircularCache) (rtp : Rtp) (len : Nat) :
    Except Fault RTPCircularCache :=
  if c.circularCache.isEmpty then .ok (c.pushBack (RTPBlock.new (some rtp) len))
  else if c.timestampJump rtp then .ok (c.clean.pushBack (RTPBlock.new (some rtp) len))
  else do
    let backSeq ← c.backSeq
    let frontSeq ← c.frontSeq
    let expectNextMax := backSeq + c.maxSize
    let seq := rtp.seq
    -- 1. push back and fill the gap: `idx` runs from `back.seq + 1` up to `seq`
    if seq ≠ backSeq ∧ seq - backSeq < c.maxSize then
      let holes := List.replicate (seq - (backSeq + 1)).toNat (RTPBlock.new none 0)
      .ok ({ c with circularCache := c.circularCache ++ holes }.pushBack
        (RTPBlock.new (some rtp) len)).adjust
    -- 2. past `expect_next_max` and before the front: start over
    else if seq - expectNextMax < frontSeq - expectNextMax then
      .ok (c.clean.pushBack (RTPBlock.new (some rtp) len))
    -- 3. inside: fill in
    else if seq - frontSeq ≤ backSeq - frontSeq then c.fillIn rtp len
    else .error .assertFailed

/-- `RTPCircularCache::set_rtp`: the cache, the return value and the `status` out-parameter.
`RTPMediaCache::set_rtp`, the only caller, never passes a null packet. -/
def RTPCircularCache.setRtp (c : RTPCircularCache) (rtp : Rtp) (len : Nat) (status : StatusCode) :
    Except Fault (RTPCircularCache × Int × StatusCode) :=
  if c.sampleRate = 0 then .ok (c, 1, status)
  else if len < rtpHeaderLen then .ok (c, -1, .rtpCacheRtpInvalid)
  else
    let c := if c.ssrc = 0 then { c with ssrc := rtp.ssrc } else c
    if rtp.ssrc ≠ c.ssrc then .ok (c, -1, .rtpCacheRtpInvalid)
    else do
      let c ← c.store rtp len
      .ok (c, 0, .statusSuccess)

/-- `RTPCircularCache::get_by_seq`: the packet (null or not), its length and the status. -/
def RTPCircularCache.getBySeq (c : RTPCircularCache) (seq : Seq) :
    Except Fault (Option Rtp × Nat × StatusCode) :=
  if c.circularCache.isEmpty then .ok (none, 0, .rtpCacheCircularCacheEmpty)
  else do
    let backSeq ← c.backSeq
    let frontSeq ← c.frontSeq
    if seqGt seq backSeq then .ok (none, 0, .rtpCacheSeqTooLarge)
    else if seqLt seq frontSeq then .ok (none, 0, .rtpCacheSeqTooSmall)
    else
      match c.circularCache[(seq - frontSeq).toNat]? with
      | none => .error .outOfBounds
      | some block =>
        if block.isValid then do
          let s ← block.getSeq
          if seq = s then .ok (block.get.1, block.get.2, .statusSuccess)
          else .error .assertFailed
        else .ok (none, 0, .rtpCacheNoThisSeq)

/-! ## RTPMediaCache -/

/-- The fields of an `rtp_media_info` the server decides by. -/
structure RtpMediaInfo where
  payloadType : RTPAVType
  rate : BitVec 32
  deriving DecidableEq, Repr

/-- The text of an SDP. -/
abbrev SdpText := List Byte

/-- `SdpInfo`, the parser of SDPs: the media infos of a text, and the text `get_sdp_str` makes again
from what was loaded. -/
structure SdpInfo where
  mediaInfos : SdpText → List RtpMediaInfo
  getSdpStr : SdpText → SdpText

/-- `RTPMediaCache`. `sdp` is the text that was loaded last. -/
structure RTPMediaCache where
  sdp : Option SdpText
  audioCache : RTPCircularCache
  videoCache : RTPCircularCache
  pushActive : Nat
  deriving DecidableEq, Repr

/-- `RTPMediaCache::RTPMediaCache`. -/
def RTPMediaCache.new : RTPMediaCache where
  sdp := none
  audioCache := RTPCircularCache.reset
  videoCache := RTPCircularCache.reset
  pushActive := 0

/-- One media of the SDP initialises its cache. -/
def RTPMediaCache.initMedia (c : RTPMediaCache) (info : RtpMediaInfo) : RTPMediaCache :=
  if info.payloadType = RTP_AV_H264 then { c with videoCache := c.videoCache.init info.rate 3000 }
  else if info.payloadType = RTP_AV_AAC ∨ info.payloadType = RTP_AV_MP3 then
    { c with audioCache := c.audioCache.init info.rate 1000 }
  else c

/-- `RTPMediaCache::set_sdp`: both caches are emptied, and those the SDP names are initialised. -/
def RTPMediaCache.setSdp (info : SdpInfo) (c : RTPMediaCache) (now : Nat) (sdp : SdpText) :
    RTPMediaCache :=
  { (info.mediaInfos sdp).foldl RTPMediaCache.initMedia
      { c with
        sdp := some sdp
        audioCache := RTPCircularCache.reset
        videoCache := RTPCircularCache.reset } with
    pushActive := now }

/-- `RTPMediaCache::set_rtp`. The caller passes `STATUS_SUCCESS` in. -/
def RTPMediaCache.setRtp (c : RTPMediaCache) (now : Nat) (rtp : Rtp) (len : Nat) :
    Except Fault (RTPMediaCache × StatusCode) :=
  if len < rtpHeaderLen then .ok (c, .rtpCacheRtpInvalid)
  else if rtp.payload = RTP_AV_MP3 ∨ rtp.payload = RTP_AV_AAC then do
    let (audio, _, status) ← c.audioCache.setRtp rtp len .statusSuccess
    .ok ({ c with
           audioCache := audio
           pushActive := if status = .statusSuccess then now else c.pushActive }, status)
  else if rtp.payload = RTP_AV_H264 then do
    let (video, _, status) ← c.videoCache.setRtp rtp len .statusSuccess
    .ok ({ c with
           videoCache := video
           pushActive := if status = .statusSuccess then now else c.pushActive }, status)
  else .ok (c, .rtpCacheSetRtpFailed)

/-- `get_video_cache` and `get_audio_cache`. -/
def RTPMediaCache.media (c : RTPMediaCache) (video : Bool) : RTPCircularCache :=
  if video then c.videoCache else c.audioCache

/-- The lookup of `RtpCacheManager::get_rtp_by_seq` in the cache of a stream: null if the media is
not initialised. -/
def RTPMediaCache.getRtpBySeq (c : RTPMediaCache) (video : Bool) (seq : Seq) :
    Except Fault (Option Rtp × Nat) :=
  if (c.media video).isInited then do
    let (rtp, len, _) ← (c.media video).getBySeq seq
    .ok (rtp, len)
  else .ok (none, 0)

/-! ## RtpCacheManager -/

/-- A `StreamId_Ext`. -/
abbrev StreamId := BitVec 128

/-- `get_32bit_stream_id`. -/
def get32bitStreamId (id : StreamId) : BitVec 32 := id.setWidth 32

/-- `RtpCacheManager::m_caches`. The FLV remuxer that is given every packet and SDP as well, and the
watchers of SDPs, are not part of it. -/
structure RtpCacheManager where
  caches : BitVec 32 → Option RTPMediaCache

def RtpCacheManager.new : RtpCacheManager := { caches := fun _ => none }

/-- The cache of an id is replaced. -/
def RtpCacheManager.put (m : RtpCacheManager) (id : BitVec 32) (c : Option RTPMediaCache) :
    RtpCacheManager := { caches := fun k => if k = id then c else m.caches k }

/-- `RtpCacheManager::set_rtp`: nothing is stored for a stream without an SDP. -/
def RtpCacheManager.setRtp (m : RtpCacheManager) (now : Nat) (id : StreamId) (rtp : Rtp)
    (len : Nat) : Except Fault RtpCacheManager :=
  match m.caches (get32bitStreamId id) with
  | none => .ok m
  | some c => do
    let (c, _) ← c.setRtp now rtp len
    .ok (m.put (get32bitStreamId id) (some c))

/-- `RtpCacheManager::set_sdp`. -/
def RtpCacheManager.setSdp (info : SdpInfo) (m : RtpCacheManager) (now : Nat) (id : StreamId)
    (sdp : SdpText) : RtpCacheManager :=
  let c := (m.caches (get32bitStreamId id)).getD RTPMediaCache.new
  m.put (get32bitStreamId id) (some (c.setSdp info now sdp))

/-- `RtpCacheManager::get_sdp`, the empty text if there is none. That it starts a pull then is left
to the relay. -/
def RtpCacheManager.getSdp (info : SdpInfo) (m : RtpCacheManager) (id : StreamId) :
    Except Fault SdpText :=
  match m.caches (get32bitStreamId id) with
  | none => .ok []
  | some c =>
    match c.sdp with
    | none => .error .assertFailed
    | some sdp => .ok (info.getSdpStr sdp)

/-- `RtpCacheManager::get_rtp_by_seq`. -/
def RtpCacheManager.getRtpBySeq (m : RtpCacheManager) (id : StreamId) (video : Bool) (seq : Seq) :
    Except Fault (Option Rtp × Nat) :=
  match m.caches (get32bitStreamId id) with
  | none => .ok (none, 0)
  | some c => c.getRtpBySeq video seq

/-- `RtpCacheManager::OnTimerImpl`: streams without data for more than 20 seconds go. -/
def RtpCacheManager.onTimer (m : RtpCacheManager) (now : Nat) : RtpCacheManager where
  caches k := (m.caches k).filter fun c => decide (now - c.pushActive ≤ 20)

end RtcMcu.MediaManager
