import RtcMcu.Avcodec.H264

/-!
# FLV tags and headers

`avformat/FLV.cpp` and the structures of `util/flv.h`. A tag is a record of its fields with the
bytes of its body; `FLV` makes the body in one block of memory that is never cleared, so a video tag
for which no picture was found has the first five bytes of the tag before it.
-/

namespace RtcMcu.Avformat

open RtcMcu.Avcodec

def FLV_TAG_AUDIO : Byte := 0x08
def FLV_TAG_VIDEO : Byte := 0x09
def FLV_FLAG_VIDEO : Byte := 1
def FLV_FLAG_AUDIO : Byte := 4
def FLV_FLAG_BOTH : Byte := 5
def FLV_KEYFRAME : Byte := 1

/-- `sizeof(flv_tag)`. -/
def flvTagLen : Nat := 11

/-- `flv_tag` with its body and the `pretagsize` behind it. -/
structure FlvTag where
  type : Byte
  datasize : BitVec 24
  timestamp : BitVec 32
  streamid : BitVec 24
  data : List Byte
  pretagsize : BitVec 32
  deriving DecidableEq, Repr

namespace FlvTag

/-- `flv_set_timestamp`. -/
def setTimestamp (t : FlvTag) (value : BitVec 32) : FlvTag := { t with timestamp := value }

/-- `flv_set_datasize`. -/
def setDatasize (t : FlvTag) (value : BitVec 24) : FlvTag := { t with datasize := value }

/-- The tag with this body, as `generate_audio_tag`, `generate_video_tag` and the tags of the header
are filled in. -/
def ofData (type : Byte) (timestamp : BitVec 32) (data : List Byte) : FlvTag where
  type := type
  datasize := BitVec.ofNat 24 data.length
  timestamp := timestamp
  streamid := 0
  data := data
  pretagsize := BitVec.ofNat 32 (data.length + flvTagLen)

/-- The bytes of a tag. The timestamp has its high byte behind the low three. -/
def bytes (t : FlvTag) : List Byte :=
  t.type :: t.datasize.extractLsb' 16 8 :: t.datasize.extractLsb' 8 8 ::
    t.datasize.extractLsb' 0 8 :: t.timestamp.extractLsb' 16 8 :: t.timestamp.extractLsb' 8 8 ::
    t.timestamp.extractLsb' 0 8 :: t.timestamp.extractLsb' 24 8 ::
    t.streamid.extractLsb' 16 8 :: t.streamid.extractLsb' 8 8 :: t.streamid.extractLsb' 0 8 ::
    (t.data ++ be32 t.pretagsize)

end FlvTag

/-! ## FLV -/

/-- `FLV`: the memory behind the header of `_temp_tag`, and the first timestamps, -1 while there is
none. -/
structure FLV where
  tempData : List Byte
  initialAudioTs : BitVec 32
  initialVideoTs : BitVec 32
  deriving DecidableEq, Repr

namespace FLV

/-- `FLV()`. `block` is what the new memory holds. -/
def new (block : List Byte) : FLV where
  tempData := block
  initialAudioTs := -1
  initialVideoTs := -1

/-- The memory after a tag with this body was made in it. -/
def write (f : FLV) (data : List Byte) : FLV :=
  let written := data ++ be32 (BitVec.ofNat 32 (data.length + flvTagLen))
  { f with tempData := written ++ f.tempData.drop written.length }

/-- `generate_audio_tag_data`. -/
def generateAudioTagData (payload : List Byte) : List Byte := 0xaf :: 0x01 :: payload

/-- `generate_audio_tag`. -/
def generateAudioTag (f : FLV) (payload : List Byte) (timestamp : BitVec 32) : FlvTag × FLV :=
  let initial := if f.initialAudioTs = -1 then timestamp else f.initialAudioTs
  let data := generateAudioTagData payload
  (.ofData FLV_TAG_AUDIO (timestamp - initial) data,
    { f.write data with initialAudioTs := initial })

/-- The body of a video tag so far: its first byte, once there is a picture, and the NAL units with
their sizes. -/
structure VideoData where
  frame : Option Byte
  units : List Byte

/-- One NAL unit: the parameter sets are left out. -/
def VideoData.add (v : VideoData) (nal : NalUnit) : Except Fault VideoData :=
  if nalType nal.header = NAL_SPS ∨ nalType nal.header = NAL_PPS then .ok v
  else do
    let bytes ← nal.bytes
    let first := if nalType nal.header = NAL_SLICE_IDR then 0x17 else 0x27
    .ok { frame := some (v.frame.getD first)
          units := v.units ++ be32 (BitVec.ofNat 32 bytes.length) ++ bytes }

/-- `generate_video_tag_data`, over what the block of memory held. -/
def generateVideoTagData (block payload : List Byte) : Except Fault (List Byte) := do
  let v ← scanNals payload VideoData.add (fun _ => false) { frame := none, units := [] }
  match v.frame with
  | none => .ok ((List.range 5).map (byteAt block) ++ v.units)
  | some first => .ok (first :: 0x01 :: 0x00 :: 0x00 :: 0x00 :: v.units)

/-- `generate_video_tag`. -/
def generateVideoTag (f : FLV) (payload : List Byte) (timestamp : BitVec 32) :
    Except Fault (FlvTag × FLV) := do
  let initial := if f.initialVideoTs = -1 then timestamp else f.initialVideoTs
  let data ← generateVideoTagData f.tempData payload
  .ok (.ofData FLV_TAG_VIDEO (timestamp - initial) data,
    { f.write data with initialVideoTs := initial })

end FLV

/-! ## FLVHeader -/

/-- What `FLVHeader::build` makes of the configurations. The metadata tag holds numbers in floating
point, and `generate_avc0_data` copies by lengths it may not have set, so both are parameters. -/
structure HeaderData where
  /-- the tag of `generate_metadata_tag` -/
  metadataTag : List Byte → List Byte → List Byte
  /-- `generate_avc0_data`, or `none` where it returns -1 -/
  avc0Data : List Byte → Option (List Byte)

/-- `FLVHeader`. The header is what is queued in `_buffer`, which is not emptied between two calls of
`build`. -/
structure FLVHeader where
  flvFlag : Byte
  buffer : List Byte
  deriving DecidableEq, Repr

/-- `buffer_append_ptr` on a buffer of `size` bytes: what does not fit is refused. -/
def bufferAppend (size : Nat) (queued src : List Byte) : List Byte :=
  if size < queued.length + src.length then queued else queued ++ src

theorem bufferAppend_of_le {size : Nat} {queued src : List Byte}
    (h : queued.length + src.length ≤ size) : bufferAppend size queued src = queued ++ src :=
  if_neg (Nat.not_lt.mpr h)

theorem length_bufferAppend_le {size : Nat} {queued src : List Byte} (h : queued.length ≤ size) :
    (bufferAppend size queued src).length ≤ size := by
  unfold bufferAppend
  split
  case isTrue => exact h
  case isFalse hfit =>
    rw [List.length_append]
    omega

theorem bufferAppend_ne_nil {size : Nat} {queued src : List Byte} (h : queued ≠ []) :
    bufferAppend size queued src ≠ [] := by
  unfold bufferAppend
  split
  · exact h
  · exact List.append_ne_nil_of_left_ne_nil h src

namespace FLVHeader

/-- `FLVHeader()`. -/
def new : FLVHeader := { flvFlag := 0, buffer := [] }

/-- The nine bytes of `flv_header` and the size 0 of the tag before the first one. -/
def signature (flags : Byte) : List Byte := [0x46, 0x4c, 0x56, 1, flags, 0, 0, 0, 9]

/-- The tag of a configuration, `none` where there is no configuration or no data for it. -/
def configTag (type : Byte) (data : Option (List Byte)) : List Byte :=
  (data.map fun d => (FlvTag.ofData type 0 d).bytes).getD []

def setFlag (flag : Byte) (data : Option (List Byte)) (flags : Byte) : Byte :=
  if data.isSome then flags ||| flag else flags

/-- `generate_aac0_data`, called where the configuration is not empty. -/
def aac0Data (aac : List Byte) : Option (List Byte) :=
  if aac = [] then none else some (0xaf :: 0x00 :: aac)

/-- `build`. -/
def build (d : HeaderData) (h : FLVHeader) (avc aac : List Byte) : FLVHeader :=
  let aac0 := aac0Data aac
  let avc0 := if avc = [] then none else d.avc0Data avc
  let flags := setFlag FLV_FLAG_VIDEO avc0 (setFlag FLV_FLAG_AUDIO aac0 h.flvFlag)
  { flvFlag := flags
    buffer := [signature flags, be32 0, d.metadataTag avc aac, configTag FLV_TAG_AUDIO aac0,
      configTag FLV_TAG_VIDEO avc0].foldl (bufferAppend 4096) h.buffer }

end FLVHeader

end RtcMcu.Avformat
