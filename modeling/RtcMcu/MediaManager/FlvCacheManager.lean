import Mathlib.Logic.Function.Basic
import RtcMcu.MediaManager.RtpBlockCache
import RtcMcu.MediaManager.Rtp2FlvRemuxer

/-!
# FlvCacheManager

The part of `media_manager/cache_manager.cpp` that keeps the FLV stream made of one RTP stream: the
generator of `fragment/fragment_generator.cpp` numbers the tags, and a `FLVMiniBlockCircularCache`
keeps the latest ones. Not modelled: `_last_main_tag_timestamp`, `_last_key_seq` and the clocks of
the last push and the last request.
-/

namespace RtcMcu.MediaManager

open RtcMcu.Avformat

/-- `FLVMiniBlock`: what is read of its header, and the tag in its payload. -/
structure FLVMiniBlock where
  seq : BitVec 32
  timestamp : BitVec 32
  isKey : Bool
  tag : FlvTag
  deriving DecidableEq

/-- The payload of a block. -/
def FLVMiniBlock.payload (b : FLVMiniBlock) : List Byte := b.tag.bytes

/-- `FLVMiniBlockGenerator`. -/
structure FLVMiniBlockGenerator where
  flvHeader : Option (List Byte)
  flvHeaderFlag : Byte
  mainType : Byte
  inputTagNum : BitVec 32
  lastGlobalSeq : BitVec 32

namespace FLVMiniBlockGenerator

/-- `FLVMiniBlockGenerator()`. -/
def new : FLVMiniBlockGenerator where
  flvHeader := none
  flvHeaderFlag := 0
  mainType := 0
  inputTagNum := 0
  lastGlobalSeq := 0

/-- `FragmentGenerator::set_flv_header`, which reads the flags in the fifth byte whatever the length
of the header; `none` is -1. -/
def setFlvHeader (g : FLVMiniBlockGenerator) (header : List Byte) :
    Except Fault (Option FLVMiniBlockGenerator) := do
  let flags ← readByte header 4
  let flag := flags &&& FLV_FLAG_BOTH
  let g := { g with flvHeader := some header, flvHeaderFlag := flag }
  if flag = FLV_FLAG_BOTH ∨ flag = FLV_FLAG_AUDIO then
    .ok (some { g with mainType := FLV_TAG_AUDIO })
  else if flag = FLV_FLAG_VIDEO then .ok (some { g with mainType := FLV_TAG_VIDEO })
  else .ok none

/-- `_key_type`. The frame type is in the high half of the first byte of a video tag. -/
def keyType (g : FLVMiniBlockGenerator) (tag : FlvTag) : Bool :=
  if g.flvHeaderFlag = FLV_FLAG_AUDIO then tag.type == FLV_TAG_AUDIO
  else tag.type == FLV_TAG_VIDEO && (byteAt tag.data 0 >>> 4) == FLV_KEYFRAME

/-- `_generate`. -/
def generate (g : FLVMiniBlockGenerator) (tag : FlvTag) :
    Except Fault (FLVMiniBlockGenerator × FLVMiniBlock) :=
  if (g.flvHeader.getD []).length = 0 then .error .assertFailed
  else
    let seq := g.lastGlobalSeq + 1
    .ok ({ g with lastGlobalSeq := seq },
      { seq := seq, timestamp := tag.timestamp, isKey := g.keyType tag, tag := tag })

/-- `set_flv_tag`: a tag whose timestamp is below zero as a signed number gives no block. -/
def setFlvTag (g : FLVMiniBlockGenerator) (tag : FlvTag) :
    Except Fault (FLVMiniBlockGenerator × Option FLVMiniBlock) :=
  if tag.timestamp.slt 0 then .ok (g, none)
  else do
    let g := if g.inputTagNum = 0 then { g with lastGlobalSeq := -1 } else g
    let (g, block) ← g.generate tag
    .ok ({ g with inputTagNum := g.inputTagNum + 1 }, some block)

end FLVMiniBlockGenerator

/-! ## FLVMiniBlockCircularCache -/

/-- `FLVMiniBlockCircularCache`: the header, and `_block_store` from its front. -/
structure FLVMiniBlockCircularCache where
  flvHeader : Option (List Byte)
  blockStore : List FLVMiniBlock

namespace FLVMiniBlockCircularCache

def new : FLVMiniBlockCircularCache := { flvHeader := none, blockStore := [] }

/-- `set_flv_header`: an empty header is not kept. -/
def setFlvHeader (c : FLVMiniBlockCircularCache) (header : List Byte) :
    FLVMiniBlockCircularCache :=
  if header = [] then c else { c with flvHeader := some header }

/-- `CircularCache::push`: a block that is not newer than the last one is not taken. -/
def push (c : FLVMiniBlockCircularCache) (b : FLVMiniBlock) : FLVMiniBlockCircularCache :=
  match c.blockStore.getLast? with
  | some back =>
    if b.seq ≤ back.seq then c else { c with blockStore := c.blockStore ++ [b] }
  | none => { c with blockStore := c.blockStore ++ [b] }

/-- The binary search of `get_by_seq`: the index it ends at. `fuel` is the number of blocks and
one. -/
def search (store : List FLVMiniBlock) (seq : BitVec 32) : Nat → Int → Int → Int → Int
  | 0, _, _, mid => mid
  | fuel + 1, low, high, mid =>
    if low ≤ high then
      let mid := (low + high) / 2
      match store[mid.toNat]? with
      | none => mid
      | some b =>
        if b.seq < seq then search store seq fuel (mid + 1) high mid
        else if seq < b.seq then search store seq fuel low (mid - 1) mid
        else mid
    else mid

/-- The block the search ended at, if it is the one. -/
def found (c : FLVMiniBlockCircularCache) (seq : BitVec 32) : Option FLVMiniBlock :=
  let mid := search c.blockStore seq (c.blockStore.length + 1) 0 (c.blockStore.length - 1) 0
  c.blockStore[mid.toNat]?.filter fun b => b.seq == seq

/-- `CircularCache::get_by_seq`. Where the number is not at the index it has in a store without
gaps, the store is searched. The index is an `int`; a store of `2 ^ 31` blocks is not considered. -/
def getBySeq (c : FLVMiniBlockCircularCache) (seq : BitVec 32) : Option FLVMiniBlock :=
  match c.blockStore.head?, c.blockStore.getLast? with
  | some front, some back =>
    if seq < front.seq ∨ back.seq < seq then none
    else
      match c.blockStore[(seq - front.seq).toNat]? with
      | some b => if b.seq = seq then some b else c.found seq
      | none => c.found seq
  | _, _ => none

/-- `CircularCache::get_latest_key`. -/
def getLatestKey (c : FLVMiniBlockCircularCache) : Option FLVMiniBlock :=
  c.blockStore.reverse.find? FLVMiniBlock.isKey

/-- The front of a store that ends in `back` is more than the duration, or more than a hundred blocks
for each second of it, behind. -/
def outlived (durationSec : BitVec 32) (front back : FLVMiniBlock) : Bool :=
  (durationSec * 1000).slt (back.timestamp - front.timestamp) ||
    (durationSec * 100).slt (back.seq - front.seq)

/-- The loop of `_adjust_flv_miniblock_cache_size` over one cache. -/
def adjust (durationSec : BitVec 32) : List FLVMiniBlock → List FLVMiniBlock
  | [] => []
  | front :: store =>
    if outlived durationSec front (store.getLastD front) then adjust durationSec store
    else front :: store

end FLVMiniBlockCircularCache

/-! ## The stream store -/

/-- `StreamStore`. -/
structure StreamStore where
  generator : FLVMiniBlockGenerator
  cache : FLVMiniBlockCircularCache

namespace StreamStore

/-- `StreamStore()`. -/
def new : StreamStore := { generator := .new, cache := .new }

/-- `FlvCacheManager::set_flv_header` on the store of the stream, which is made if there is none. -/
def setFlvHeader (s : Option StreamStore) (header : List Byte) : Except Fault StreamStore := do
  let s := s.getD new
  match ← s.generator.setFlvHeader header with
  | none => .error .assertFailed
  | some g => .ok { generator := g, cache := s.cache.setFlvHeader header }

/-- `FlvCacheManager::set_flv_tag` on the store of the stream. -/
def setFlvTag (s : Option StreamStore) (tag : FlvTag) : Except Fault StreamStore :=
  match s with
  | none => .error .assertFailed
  | some s => do
    let (g, block) ← s.generator.setFlvTag tag
    match block with
    | none => .ok { s with generator := g }
    | some b => .ok { generator := g, cache := s.cache.push b }

/-- A call of the remuxer. -/
def call (s : Option StreamStore) : FlvCall → Except Fault (Option StreamStore)
  | .setFlvHeader header _ => (setFlvHeader s header).map some
  | .setFlvTag tag => (setFlvTag s tag).map some

end StreamStore

/-! ## The streams -/

/-- The two maps of a server's FLV streams: `_meta_map` of the remuxer and `_stream_store_map` of the
cache manager. -/
structure FlvServer where
  metaMap : StreamId → Option Rtp2FlvTransformInfo
  storeMap : StreamId → Option StreamStore

/-- What happens to the streams of a server. -/
inductive FlvEvent
  | setRtp (id : StreamId) (pkt : Rtp) (len : Nat)
  | setSdpChar (id : StreamId) (sdp : List Byte)
  | destroyStream (id : StreamId)

/-- The stream an event is for. -/
def FlvEvent.id : FlvEvent → StreamId
  | .setRtp id _ _ => id
  | .setSdpChar id _ => id
  | .destroyStream id => id

/-- What the remuxer does in an event. -/
def Rtp2FlvTransformInfo.handle (env : RemuxerEnv) (info : Rtp2FlvTransformInfo) :
    FlvEvent → Remux Rtp2FlvTransformInfo
  | .setRtp _ pkt len => info.setRtp env pkt len
  | .setSdpChar _ sdp => Emit.lift (info.setSdpChar env sdp)
  | .destroyStream _ => pure info

namespace FlvServer

def new : FlvServer := { metaMap := fun _ => none, storeMap := fun _ => none }

/-- `_get_stream_meta_by_sid`. -/
def getStreamMeta (env : RemuxerEnv) (w : FlvServer) (id : StreamId) : Rtp2FlvTransformInfo :=
  (w.metaMap id).getD (.new env)

/-- The calls of the remuxer reach the store of the stream. -/
def deliver (w : FlvServer) (id : StreamId) (x : Remux Rtp2FlvTransformInfo) :
    Except Fault FlvServer := do
  let store ← x.calls.foldlM StreamStore.call (w.storeMap id)
  let info ← x.result
  .ok { metaMap := Function.update w.metaMap id (some info)
        storeMap := Function.update w.storeMap id store }

/-- `FlvCacheManager::destroy_stream` of one stream. It takes the remuxer's record along only where
the stream has a store. -/
def destroyStream (w : FlvServer) (id : StreamId) : FlvServer :=
  if (w.storeMap id).isSome then
    { metaMap := Function.update w.metaMap id none
      storeMap := Function.update w.storeMap id none }
  else w

def step (env : RemuxerEnv) (w : FlvServer) (e : FlvEvent) : Except Fault FlvServer :=
  match e with
  | .destroyStream id => .ok (w.destroyStream id)
  | e => w.deliver e.id ((w.getStreamMeta env e.id).handle env e)

def run (env : RemuxerEnv) (w : FlvServer) (es : List FlvEvent) : Except Fault FlvServer :=
  es.foldlM (step env) w

end FlvServer

end RtcMcu.MediaManager
