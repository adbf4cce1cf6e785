import RtcMcu.Fragment.FlvBlock
import RtcMcu.MediaManager.FlvCacheManager
import RtcMcu.MediaManager.PayloadBounds

/-!
# FragmentGenerator

`fragment/fragment_generator.cpp`: the tags of an FLV stream become blocks that are numbered from 0
and name the latest key block before them. The constructor leaves some members as the memory it was
given had them, and `_last_key_seq` is among these (`linked_iff`).

A header is of the length of `flv_header` at least, and a tag of the length it declares: the pointers
that are handed over have these types.
-/

namespace RtcMcu.Fragment

open RtcMcu.Avformat RtcMcu.Avcodec
open RtcMcu.MediaManager (StreamId)

def FLV_BLOCK_VERSION_2 : BitVec 32 := 2
def PAYLOAD_TYPE_FLV : Byte := 0
def KEY_FRAME_FLV_BLOCK : Byte := 1

/-- What `flv_header*` with its length points to. -/
structure InputHeader where
  bytes : List Byte
  len_ge : sizeofFlvHeader ≤ bytes.length
  len_lt : bytes.length < 2 ^ 32

/-- `flags`. -/
def InputHeader.flags (h : InputHeader) : Byte := byteAt h.bytes 4

/-- What `flv_tag*` points to. -/
structure InputTag where
  bytes : List Byte
  whole : bytes.length = tagTotalLen bytes 0

namespace InputTag

def type (t : InputTag) : Byte := byteAt t.bytes 0

/-- `flv_get_timestamp(timestamp)`. -/
def timestamp (t : InputTag) : BitVec 32 :=
  byteAt t.bytes 7 ++ byteAt t.bytes 4 ++ byteAt t.bytes 5 ++ byteAt t.bytes 6

/-- `video_info.frametype` of `data`. -/
def frametype (t : InputTag) : Byte := byteAt t.bytes 11 >>> 4

end InputTag

/-- `flv_miniblock_header` and the payload behind it. -/
structure FLVMiniBlock where
  version : BitVec 32
  streamId : StreamId
  timestamp : BitVec 32
  streamStartTsMsec : BitVec 64
  seq : BitVec 32
  lastKeySeq : BitVec 32
  payloadSize : BitVec 32
  formatType : Byte
  avType : Byte
  keyType : Byte
  payload : List Byte

/-- `FLVMiniBlockGenerator`. -/
structure FLVMiniBlockGenerator where
  mainType : Byte
  lastMainTagTimestamp : BitVec 32
  flvHeaderLen : BitVec 32
  flvHeader : Option (List Byte)
  flvHeaderFlag : Byte
  inputTagNum : BitVec 32
  streamId : StreamId
  lastSeq : BitVec 32
  lastGlobalSeq : BitVec 32
  lastKeySeq : BitVec 32
  block : Option FLVMiniBlock

/-- The members that the constructors do not set. -/
structure Unset where
  flvHeaderLen : BitVec 32
  flvHeaderFlag : Byte
  lastSeq : BitVec 32
  lastGlobalSeq : BitVec 32
  lastKeySeq : BitVec 32
  block : Option FLVMiniBlock

namespace FLVMiniBlockGenerator

/-- `FLVMiniBlockGenerator(stream_id)`, in some memory. -/
def new (mem : Unset) (streamId : StreamId) : FLVMiniBlockGenerator where
  mainType := 0
  lastMainTagTimestamp := 0
  flvHeaderLen := mem.flvHeaderLen
  flvHeader := none
  flvHeaderFlag := mem.flvHeaderFlag
  inputTagNum := 0
  streamId := streamId
  lastSeq := mem.lastSeq
  lastGlobalSeq := mem.lastGlobalSeq
  lastKeySeq := mem.lastKeySeq
  block := mem.block

/-- `set_flv_header`, with `none` for -1. The header is kept also then. -/
def setFlvHeader (g : FLVMiniBlockGenerator) (h : InputHeader) :
    FLVMiniBlockGenerator × Option (BitVec 32) :=
  let len := BitVec.ofNat 32 h.bytes.length
  let flag := h.flags &&& FLV_FLAG_BOTH
  let g := { g with flvHeaderLen := len, flvHeader := some h.bytes, flvHeaderFlag := flag }
  if flag = FLV_FLAG_BOTH ∨ flag = FLV_FLAG_AUDIO then
    ({ g with mainType := FLV_TAG_AUDIO }, some len)
  else if flag = FLV_FLAG_VIDEO then ({ g with mainType := FLV_TAG_VIDEO }, some len)
  else (g, none)

/-- `_key_type`. -/
def keyType (g : FLVMiniBlockGenerator) (t : InputTag) : Bool :=
  if g.flvHeaderFlag = FLV_FLAG_AUDIO then t.type == FLV_TAG_AUDIO
  else t.type == FLV_TAG_VIDEO && t.frametype == FLV_KEYFRAME

/-- `_init_block`. -/
def initBlock (g : FLVMiniBlockGenerator) (payload : List Byte) : FLVMiniBlock where
  version := FLV_BLOCK_VERSION_2
  streamId := g.streamId
  timestamp := 0
  streamStartTsMsec := 0
  seq := 0
  lastKeySeq := 0
  payloadSize := 0
  formatType := PAYLOAD_TYPE_FLV
  avType := 0
  keyType := 0
  payload := payload

/-- `_generate`. -/
def generate (g : FLVMiniBlockGenerator) (t : InputTag) (tagLen : BitVec 32) :
    Except Fault FLVMiniBlockGenerator :=
  if g.flvHeaderLen = 0 ∨ g.flvHeader = none then .error .assertFailed
  else
    let seq := g.lastGlobalSeq + 1
    let key := g.keyType t
    let block :=
      { g.initBlock (t.bytes.take tagLen.toNat) with
        seq := seq
        timestamp := t.timestamp
        lastKeySeq := g.lastKeySeq
        payloadSize := tagLen
        avType := t.type
        keyType := if key then KEY_FRAME_FLV_BLOCK else 0 }
    .ok { g with
          lastGlobalSeq := seq
          lastKeySeq := if key then seq else g.lastKeySeq
          block := some block }

/-- `set_flv_tag`, with `none` for -1, when no block is made. -/
def setFlvTag (g : FLVMiniBlockGenerator) (t : InputTag) :
    Except Fault (FLVMiniBlockGenerator × Option (BitVec 32)) :=
  if t.timestamp.slt 0 then .ok (g, none)
  else do
    let len := BitVec.ofNat 32 (tagTotalLen t.bytes 0)
    let first := g.inputTagNum == 0
    let g ← generate
      { g with
        lastMainTagTimestamp := if t.type = g.mainType then t.timestamp else g.lastMainTagTimestamp
        lastGlobalSeq := if first then -1 else g.lastGlobalSeq
        lastSeq := if first then -1 else g.lastSeq } t len
    .ok ({ g with inputTagNum := g.inputTagNum + 1 }, some len)

end FLVMiniBlockGenerator

/-! ## Runs of calls -/

/-- A call of the generator. -/
inductive Call
  | setFlvHeader (h : InputHeader)
  | setFlvTag (t : InputTag)

/-- A generator, and the blocks it was asked for with `get_block` after each accepted tag. -/
structure Output where
  generator : FLVMiniBlockGenerator
  blocks : List FLVMiniBlock

/-- One call. -/
def Output.step (o : Output) : Call → Except Fault Output
  | .setFlvHeader h => .ok { o with generator := (o.generator.setFlvHeader h).1 }
  | .setFlvTag t => do
    let (g, len) ← o.generator.setFlvTag t
    match len with
    | none => .ok { o with generator := g }
    | some _ => .ok { generator := g, blocks := o.blocks ++ g.block.toList }

/-- A header, and then any calls. -/
def outputOf (mem : Unset) (id : StreamId) (h : InputHeader) (calls : List Call) :
    Except Fault Output :=
  (Call.setFlvHeader h :: calls).foldlM Output.step ⟨FLVMiniBlockGenerator.new mem id, []⟩

/-! ## What a chain of blocks is -/

/-- A tag that gives a block, with the header that is in force. -/
structure Accepted where
  header : InputHeader
  tag : InputTag

/-- The accepted tags of some calls: those without a negative timestamp. -/
def accepted : InputHeader → List Call → List Accepted
  | _, [] => []
  | _, .setFlvHeader h :: calls => accepted h calls
  | h, .setFlvTag t :: calls =>
    if t.timestamp.slt 0 then accepted h calls else ⟨h, t⟩ :: accepted h calls

/-- The header says that there is only audio. -/
def InputHeader.audioOnly (h : InputHeader) : Bool := h.flags &&& FLV_FLAG_BOTH == FLV_FLAG_AUDIO

/-- A key frame of the video, or in a stream of audio only any audio. -/
def Accepted.isKey (a : Accepted) : Bool :=
  if a.header.audioOnly then a.tag.type == FLV_TAG_AUDIO
  else a.tag.type == FLV_TAG_VIDEO && a.tag.frametype == FLV_KEYFRAME

/-- The latest key tag among the first ones. -/
def latestKey (as : List Accepted) : Nat → Option Nat
  | 0 => none
  | k + 1 => if as[k]?.any Accepted.isKey then some k else latestKey as k

/-- The block of a tag as it has to be, where `v` is what stands for the first key block before there
is one. -/
structure Linked (v : BitVec 32) (as : List Accepted) (k : Nat) (a : Accepted) (b : FLVMiniBlock) :
    Prop where
  seq : b.seq = BitVec.ofNat 32 k
  payload : b.payload = a.tag.bytes
  key : b.keyType = KEY_FRAME_FLV_BLOCK ↔ a.isKey = true
  lastKey : b.lastKeySeq = ((latestKey as k).map (BitVec.ofNat 32)).getD v

/-- One accepted tag of a run gives such a block, in whatever memory the generator is made. -/
def WellLinked (id : StreamId) (h : InputHeader) (calls : List Call)
    (k : Fin (accepted h calls).length) : Prop :=
  ∃ v, ∀ mem, ∃ o b, outputOf mem id h calls = .ok o ∧
    o.blocks.length = (accepted h calls).length ∧ o.blocks[k.val]? = some b ∧
    Linked v (accepted h calls) k (accepted h calls)[k] b

/-! ## One call -/

/-- Three bytes as a `uint32_t`. -/
theorem be24At_eq (m : List Byte) (i : Nat) :
    be24At m i = (byteAt m i ++ byteAt m (i + 1) ++ byteAt m (i + 2)).setWidth 32 := by
  rw [be24At]
  refine BitVec.eq_of_getLsbD_eq fun j hj => ?_
  simp only [BitVec.getLsbD_or, BitVec.getLsbD_shiftLeft, BitVec.getLsbD_setWidth,
    BitVec.getLsbD_append, hj, decide_true, Bool.true_and]
  by_cases h8 : j < 8
  · simp [h8, Nat.lt_of_lt_of_le h8 (by decide : 8 ≤ 16)]
  · rw [BitVec.getLsbD_of_ge (byteAt m (i + 2)) j (Nat.le_of_not_lt h8)]
    by_cases h16 : j < 16
    · have hlow : j - 8 < 32 := by omega
      simp [h8, h16, hlow]
      exact fun hmid => absurd hmid (by omega)
    · have hmid : 8 ≤ j - 8 := by omega
      have hlow : j - 16 < 32 := by omega
      have hsub : j - 8 - 8 = j - 16 := by omega
      rw [BitVec.getLsbD_of_ge (byteAt m (i + 1)) (j - 8) hmid]
      simp [h8, h16, hlow, hsub]
      exact fun _ => hmid

namespace FLVMiniBlockGenerator

/-- What an accepted tag changes. -/
structure Advances (g : FLVMiniBlockGenerator) (t : InputTag) (g' : FLVMiniBlockGenerator) :
    Prop where
  mainType : g'.mainType = g.mainType
  flvHeader : g'.flvHeader = g.flvHeader
  flvHeaderLen : g'.flvHeaderLen = g.flvHeaderLen
  flvHeaderFlag : g'.flvHeaderFlag = g.flvHeaderFlag
  streamId : g'.streamId = g.streamId
  inputTagNum : g'.inputTagNum = g.inputTagNum + 1
  lastGlobalSeq : g'.lastGlobalSeq = (if g.inputTagNum == 0 then -1 else g.lastGlobalSeq) + 1
  lastKeySeq : g'.lastKeySeq = if g.keyType t then g'.lastGlobalSeq else g.lastKeySeq
  block : g'.block = some
    { version := FLV_BLOCK_VERSION_2
      streamId := g.streamId
      timestamp := t.timestamp
      streamStartTsMsec := 0
      seq := g'.lastGlobalSeq
      lastKeySeq := g.lastKeySeq
      payloadSize := BitVec.ofNat 32 t.bytes.length
      formatType := PAYLOAD_TYPE_FLV
      avType := t.type
      keyType := if g.keyType t then KEY_FRAME_FLV_BLOCK else 0
      payload := t.bytes }

/-- The length of a tag is a `uint32_t`. -/
theorem length_lt (t : InputTag) : t.bytes.length < 2 ^ 32 := by
  have hsize : (be24At t.bytes (0 + 1)).toNat < 2 ^ 24 := by
    rw [be24At_eq, BitVec.toNat_setWidth_of_le (by decide)]
    exact BitVec.isLt _
  rw [t.whole, tagTotalLen, sizeofFlvTag]
  omega

/-- With a header, a tag is refused for its timestamp only. -/
theorem setFlvTag_accepts {g : FLVMiniBlockGenerator} {t : InputTag} {header : List Byte}
    (hheader : g.flvHeader = some header) (hlen : g.flvHeaderLen ≠ 0)
    (hts : t.timestamp.slt 0 = false) :
    ∃ g', g.setFlvTag t = .ok (g', some (BitVec.ofNat 32 t.bytes.length)) ∧ g.Advances t g' := by
  have hnot : ¬ t.timestamp.slt 0 = true := by
    rw [hts]
    exact Bool.false_ne_true
  have htake : t.bytes.take (BitVec.ofNat 32 t.bytes.length).toNat = t.bytes := by
    rw [BitVec.toNat_ofNat, Nat.mod_eq_of_lt (length_lt t), List.take_length]
  have hset : ¬ (g.flvHeaderLen = 0 ∨ g.flvHeader = none) := by
    rw [hheader]
    rintro (h | h)
    · exact hlen h
    · cases h
  rw [setFlvTag, if_neg hnot, ← t.whole]
  dsimp only
  unfold generate
  dsimp only
  rw [if_neg hset, ok_bind, htake]
  exact ⟨_, rfl, rfl, rfl, rfl, rfl, rfl, rfl, rfl, rfl, rfl⟩

/-- A header is kept with its length and its flags, and the numbers go on. -/
theorem setFlvHeader_keeps (g : FLVMiniBlockGenerator) (h : InputHeader) :
    (g.setFlvHeader h).1.flvHeader = some h.bytes ∧
      (g.setFlvHeader h).1.flvHeaderLen = BitVec.ofNat 32 h.bytes.length ∧
      (g.setFlvHeader h).1.flvHeaderFlag = h.flags &&& FLV_FLAG_BOTH ∧
      (g.setFlvHeader h).1.inputTagNum = g.inputTagNum ∧
      (g.setFlvHeader h).1.lastGlobalSeq = g.lastGlobalSeq ∧
      (g.setFlvHeader h).1.lastKeySeq = g.lastKeySeq := by
  unfold setFlvHeader
  dsimp only
  split
  · exact ⟨rfl, rfl, rfl, rfl, rfl, rfl⟩
  · split
    · exact ⟨rfl, rfl, rfl, rfl, rfl, rfl⟩
    · exact ⟨rfl, rfl, rfl, rfl, rfl, rfl⟩

end FLVMiniBlockGenerator

theorem InputHeader.len_ne_zero (h : InputHeader) : BitVec.ofNat 32 h.bytes.length ≠ 0 := by
  intro hzero
  have hnat := congrArg BitVec.toNat hzero
  have hge := h.len_ge
  rw [BitVec.toNat_ofNat, Nat.mod_eq_of_lt h.len_lt] at hnat
  rw [hnat] at hge
  exact absurd hge (by decide)

/-! ## The tags of the remuxer -/

section Remuxed

variable (t : FlvTag) (hsize : t.datasize.toNat = t.data.length)

theorem be24At_bytes : be24At t.bytes 1 = t.datasize.setWidth 32 :=
  (be24At_eq t.bytes 1).trans (congrArg _ (join24 t.datasize))

theorem length_flvTag_bytes : t.bytes.length = t.data.length + sizeofFlvTag + 4 := by
  rw [FlvTag.bytes]
  simp only [List.length_cons, List.length_append, be32, List.length_nil, sizeofFlvTag]

/-- A tag that says how long its body is, as bytes. -/
def InputTag.ofFlvTag : InputTag where
  bytes := t.bytes
  whole := by
    rw [tagTotalLen, Nat.zero_add, be24At_bytes, BitVec.toNat_setWidth_of_le (by decide), hsize,
      length_flvTag_bytes]

theorem InputTag.timestamp_ofFlvTag : (InputTag.ofFlvTag t hsize).timestamp = t.timestamp :=
  join32 t.timestamp

theorem InputTag.frametype_ofFlvTag (hdata : t.data ≠ []) :
    (InputTag.ofFlvTag t hsize).frametype = byteAt t.data 0 >>> 4 := by
  obtain ⟨x, rest, hcons⟩ := List.exists_cons_of_ne_nil hdata
  have hbyte : byteAt t.bytes 11 = byteAt t.data 0 := by
    rw [FlvTag.bytes, hcons]
    rfl
  exact congrArg (fun b : Byte => b >>> 4) hbyte

/-- What the cache manager's generator has of this one. -/
def FLVMiniBlockGenerator.kept (g : FLVMiniBlockGenerator) :
    MediaManager.FLVMiniBlockGenerator where
  flvHeader := g.flvHeader
  flvHeaderFlag := g.flvHeaderFlag
  mainType := g.mainType
  inputTagNum := g.inputTagNum
  lastGlobalSeq := g.lastGlobalSeq

/-- Both take and refuse the same headers. -/
theorem FLVMiniBlockGenerator.setFlvHeader_kept (g : FLVMiniBlockGenerator) (h : InputHeader) :
    g.kept.setFlvHeader h.bytes =
      .ok ((g.setFlvHeader h).2.map fun _ => (g.setFlvHeader h).1.kept) := by
  have hread : MediaManager.readByte h.bytes 4 = .ok h.flags :=
    MediaManager.Rtp2FlvTransformInfo.readByte_of_lt
      (Nat.lt_of_lt_of_le (by decide) h.len_ge)
  rw [MediaManager.FLVMiniBlockGenerator.setFlvHeader, hread, ok_bind, setFlvHeader]
  dsimp only
  split
  · rfl
  · split <;> rfl

theorem FLVMiniBlockGenerator.keyType_kept (g : FLVMiniBlockGenerator) (hdata : t.data ≠ []) :
    g.kept.keyType t = g.keyType (InputTag.ofFlvTag t hsize) := by
  rw [keyType, InputTag.frametype_ofFlvTag t hsize hdata]
  rfl

/-- Both make the same block of a tag of the remuxer. -/
theorem FLVMiniBlockGenerator.setFlvTag_kept {g : FLVMiniBlockGenerator} {header : List Byte}
    (hheader : g.flvHeader = some header) (hne : header ≠ []) (hlen : g.flvHeaderLen ≠ 0)
    (hdata : t.data ≠ []) (hts : t.timestamp.slt 0 = false) :
    ∃ g' b b', g.setFlvTag (.ofFlvTag t hsize) = .ok (g', some (BitVec.ofNat 32 t.bytes.length)) ∧
      g'.block = some b ∧ g.kept.setFlvTag t = .ok (g'.kept, some b') ∧ b.seq = b'.seq ∧
      b.timestamp = b'.timestamp ∧ (b.keyType = KEY_FRAME_FLV_BLOCK ↔ b'.isKey = true) ∧
      b.payload = b'.payload := by
  have htime := InputTag.timestamp_ofFlvTag t hsize
  obtain ⟨g', hset, hg⟩ := setFlvTag_accepts (t := .ofFlvTag t hsize) hheader hlen
    (by rw [htime]; exact hts)
  have hlength : ¬ (g.kept.flvHeader.getD []).length = 0 := by
    intro hzero
    have hnil : (g.flvHeader.getD []) = [] := List.eq_nil_of_length_eq_zero hzero
    rw [hheader] at hnil
    exact hne hnil
  have hnot : ¬ t.timestamp.slt 0 = true := by
    rw [hts]
    exact Bool.false_ne_true
  have hkept : g'.kept =
      { g.kept with inputTagNum := g.inputTagNum + 1, lastGlobalSeq := g'.lastGlobalSeq } := by
    rw [kept, hg.flvHeader, hg.flvHeaderFlag, hg.mainType, hg.inputTagNum]
    rfl
  refine ⟨g', _, ⟨g'.lastGlobalSeq, t.timestamp, g.kept.keyType t, t⟩, hset, hg.block, ?_, rfl,
    htime, ?_, rfl⟩
  · rw [MediaManager.FLVMiniBlockGenerator.setFlvTag, if_neg hnot, hkept, hg.lastGlobalSeq]
    by_cases hnum : g.inputTagNum = 0
    · have hfirst : g.kept.inputTagNum = 0 := hnum
      rw [if_pos hfirst, if_pos (beq_iff_eq.mpr hnum)]
      dsimp only
      unfold MediaManager.FLVMiniBlockGenerator.generate
      rw [if_neg hlength]
      rfl
    · have hlater : ¬ g.kept.inputTagNum = 0 := hnum
      rw [if_neg hlater, if_neg (mt beq_iff_eq.mp hnum)]
      dsimp only
      unfold MediaManager.FLVMiniBlockGenerator.generate
      rw [if_neg hlength]
      rfl
  · dsimp only
    rw [keyType_kept t hsize g hdata]
    cases g.keyType (.ofFlvTag t hsize) <;> decide

end Remuxed

/-! ## The latest key tag -/

theorem latestKey_append (as : List Accepted) (a : Accepted) :
    ∀ k ≤ as.length, latestKey (as ++ [a]) k = latestKey as k := by
  intro k
  induction k with
  | zero => exact fun _ => rfl
  | succ k ih =>
    intro hk
    rw [latestKey, latestKey, List.getElem?_append_left hk, ih (Nat.le_of_succ_le hk)]

theorem latestKey_snoc (as : List Accepted) (a : Accepted) :
    latestKey (as ++ [a]) (as ++ [a]).length =
      if a.isKey then some as.length else latestKey as as.length := by
  rw [List.length_append, List.length_singleton, latestKey, List.getElem?_concat_length,
    latestKey_append as a _ (Nat.le_refl _)]
  rfl

theorem Linked.append {v : BitVec 32} {as : List Accepted} {k : Nat} {a a' : Accepted}
    {b : FLVMiniBlock} (hl : Linked v as k a b) (hk : k ≤ as.length) :
    Linked v (as ++ [a']) k a b :=
  ⟨hl.seq, hl.payload, hl.key, by rw [latestKey_append as a' k hk, hl.lastKey]⟩

/-! ## Runs -/

/-- What holds after some calls: the header in force, the tags that were accepted, and the blocks
that were made of them. -/
structure Follows (mem : Unset) (h : InputHeader) (as : List Accepted) (o : Output) : Prop where
  flvHeader : o.generator.flvHeader = some h.bytes
  flvHeaderLen : o.generator.flvHeaderLen = BitVec.ofNat 32 h.bytes.length
  flvHeaderFlag : o.generator.flvHeaderFlag = h.flags &&& FLV_FLAG_BOTH
  inputTagNum : o.generator.inputTagNum = BitVec.ofNat 32 as.length
  next : (if o.generator.inputTagNum == 0 then -1 else o.generator.lastGlobalSeq) + 1 =
    BitVec.ofNat 32 as.length
  lastKey : o.generator.lastKeySeq =
    ((latestKey as as.length).map (BitVec.ofNat 32)).getD mem.lastKeySeq
  length : o.blocks.length = as.length
  linked : ∀ k a b, as[k]? = some a → o.blocks[k]? = some b → Linked mem.lastKeySeq as k a b

namespace Follows

variable {mem : Unset} {id : StreamId} {h : InputHeader} {as : List Accepted} {o : Output}

theorem start : Follows mem h []
    ⟨((FLVMiniBlockGenerator.new mem id).setFlvHeader h).1, []⟩ := by
  obtain ⟨hheader, hlen, hflag, hnum, -, hkey⟩ :=
    FLVMiniBlockGenerator.setFlvHeader_keeps (FLVMiniBlockGenerator.new mem id) h
  refine ⟨hheader, hlen, hflag, hnum, ?_, hkey, rfl, fun k a b hk => by cases hk⟩
  have hfirst : (FLVMiniBlockGenerator.new mem id).inputTagNum = 0 := rfl
  dsimp only
  rw [hnum, hfirst, if_pos (by decide)]
  rfl

theorem header (hf : Follows mem h as o) (h' : InputHeader) :
    Follows mem h' as { o with generator := (o.generator.setFlvHeader h').1 } := by
  obtain ⟨hheader, hlen, hflag, hnum, hseq, hkey⟩ :=
    FLVMiniBlockGenerator.setFlvHeader_keeps o.generator h'
  refine ⟨hheader, hlen, hflag, hnum.trans hf.inputTagNum, ?_, hkey.trans hf.lastKey, hf.length,
    hf.linked⟩
  dsimp only
  rw [hnum, hseq]
  exact hf.next

/-- The generator takes the same tags for key tags. -/
theorem keyType_eq (hf : Follows mem h as o) (t : InputTag) :
    o.generator.keyType t = (Accepted.mk h t).isKey := by
  rw [FLVMiniBlockGenerator.keyType, Accepted.isKey, InputHeader.audioOnly, hf.flvHeaderFlag]
  by_cases haudio : h.flags &&& FLV_FLAG_BOTH = FLV_FLAG_AUDIO
  · rw [if_pos haudio, if_pos (beq_iff_eq.mpr haudio)]
  · rw [if_neg haudio, if_neg (mt beq_iff_eq.mp haudio)]

theorem tag (hf : Follows mem h as o) {t : InputTag} (hts : t.timestamp.slt 0 = false) :
    ∃ o', o.step (.setFlvTag t) = .ok o' ∧ Follows mem h (as ++ [⟨h, t⟩]) o' := by
  have hlen : o.generator.flvHeaderLen ≠ 0 := by
    rw [hf.flvHeaderLen]
    exact h.len_ne_zero
  obtain ⟨g, hset, hg⟩ := FLVMiniBlockGenerator.setFlvTag_accepts hf.flvHeader hlen hts
  have hseq : g.lastGlobalSeq = BitVec.ofNat 32 as.length := hg.lastGlobalSeq.trans hf.next
  have hone : BitVec.ofNat 32 as.length + 1 = BitVec.ofNat 32 (as.length + 1) :=
    (BitVec.ofNat_add _ _).symm
  have hlength : (as ++ [Accepted.mk h t]).length = as.length + 1 := List.length_append
  refine ⟨⟨g, o.blocks ++ g.block.toList⟩, ?_, ?_⟩
  · rw [Output.step, hset]
    rfl
  refine ⟨hg.flvHeader.trans hf.flvHeader, hg.flvHeaderLen.trans hf.flvHeaderLen,
    hg.flvHeaderFlag.trans hf.flvHeaderFlag, ?_, ?_, ?_, ?_, ?_⟩
  · rw [hlength]
    exact hg.inputTagNum.trans (hf.inputTagNum ▸ hone)
  · dsimp only
    rw [hlength]
    split
    · next hwrap =>
      have hzero := hg.inputTagNum.symm.trans (beq_iff_eq.mp hwrap)
      rw [hf.inputTagNum, hone] at hzero
      rw [hzero]
      rfl
    · rw [hseq, hone]
  · dsimp only
    rw [hg.lastKeySeq, hf.keyType_eq, latestKey_snoc, hseq, hf.lastKey]
    split <;> rfl
  · dsimp only
    rw [hg.block, hlength, List.length_append, hf.length]
    rfl
  · intro k a b ha hb
    rcases Nat.lt_or_ge k as.length with hk | hk
    · rw [List.getElem?_append_left hk] at ha
      rw [List.getElem?_append_left (by rw [hf.length]; exact hk)] at hb
      exact (hf.linked k a b ha hb).append (Nat.le_of_lt hk)
    · have hlt := (List.getElem?_eq_some_iff.mp ha).1
      have hk : k = as.length := by
        rw [hlength] at hlt
        exact Nat.le_antisymm (Nat.le_of_lt_succ hlt) hk
      subst hk
      rw [List.getElem?_concat_length] at ha
      rw [← hf.length, hg.block, Option.toList_some, List.getElem?_concat_length] at hb
      cases ha
      cases hb
      refine Linked.append ⟨hseq, rfl, ?_, hf.lastKey⟩ (Nat.le_refl _)
      dsimp only
      rw [hf.keyType_eq]
      cases (Accepted.mk h t).isKey <;> decide

theorem run (calls : List Call) : ∀ {h : InputHeader} {as : List Accepted} {o : Output},
    Follows mem h as o →
    ∃ o' h', calls.foldlM Output.step o = .ok o' ∧ Follows mem h' (as ++ accepted h calls) o' := by
  induction calls with
  | nil =>
    intro h as o hf
    exact ⟨o, h, rfl, by rw [accepted, List.append_nil]; exact hf⟩
  | cons c calls ih =>
    intro h as o hf
    rw [List.foldlM_cons]
    cases c with
    | setFlvHeader h' => exact ih (hf.header h')
    | setFlvTag t =>
      cases hts : t.timestamp.slt 0 with
      | true =>
        have hstep : o.step (.setFlvTag t) = .ok o := by
          rw [Output.step, FLVMiniBlockGenerator.setFlvTag, if_pos hts]
          rfl
        rw [hstep, accepted, if_pos hts]
        exact ih hf
      | false =>
        obtain ⟨o₁, hstep, hf₁⟩ := hf.tag hts
        obtain ⟨o', h', hrun, hf'⟩ := ih hf₁
        rw [List.append_assoc] at hf'
        rw [hstep, accepted, if_neg (by rw [hts]; exact Bool.false_ne_true)]
        exact ⟨o', h', hrun, hf'⟩

end Follows

/-- In any memory a run gives a block for each accepted tag, linked with what that memory had for the
latest key. -/
theorem outputOf_linked (mem : Unset) (id : StreamId) (h : InputHeader) (calls : List Call)
    (k : Fin (accepted h calls).length) :
    ∃ o b, outputOf mem id h calls = .ok o ∧ o.blocks.length = (accepted h calls).length ∧
      o.blocks[k.val]? = some b ∧
      Linked mem.lastKeySeq (accepted h calls) k (accepted h calls)[k] b := by
  obtain ⟨o, h', hrun, hf⟩ := Follows.run calls (@Follows.start mem id h)
  rw [List.nil_append] at hf
  have hk : k.val < o.blocks.length := by
    rw [hf.length]
    exact k.isLt
  exact ⟨o, o.blocks[k.val], hrun, hf.length, List.getElem?_eq_getElem hk,
    hf.linked k _ _ (List.getElem?_eq_getElem k.isLt) (List.getElem?_eq_getElem hk)⟩

section Chain

variable {id : StreamId} {h : InputHeader} {calls : List Call} {k : Fin (accepted h calls).length}

theorem wellLinked_of_key (hkey : (latestKey (accepted h calls) k).isSome) :
    WellLinked id h calls k := by
  obtain ⟨j, hj⟩ := Option.isSome_iff_exists.mp hkey
  refine ⟨0, fun mem => ?_⟩
  obtain ⟨o, b, ho, hlen, hb, hlinked⟩ := outputOf_linked mem id h calls k
  refine ⟨o, b, ho, hlen, hb, hlinked.seq, hlinked.payload, hlinked.key, ?_⟩
  rw [hlinked.lastKey, hj]
  rfl

/-- Before the first key block the number is the one that was in the memory. -/
theorem not_wellLinked (hkey : latestKey (accepted h calls) k = none) :
    ¬ WellLinked id h calls k := by
  rintro ⟨v, hv⟩
  have hmem : ∀ mem : Unset, mem.lastKeySeq = v := by
    intro mem
    obtain ⟨o, b, ho, -, hb, hlinked⟩ := hv mem
    obtain ⟨o', b', ho', -, hb', hlinked'⟩ := outputOf_linked mem id h calls k
    rw [ho] at ho'
    cases ho'
    rw [hb] at hb'
    cases hb'
    have hlast := hlinked.lastKey
    have hlast' := hlinked'.lastKey
    rw [hkey] at hlast hlast'
    exact hlast'.symm.trans hlast
  exact absurd ((hmem ⟨0, 0, 0, 0, 0, none⟩).trans (hmem ⟨0, 0, 0, 0, 1, none⟩).symm) (by decide)

end Chain

/-- A block is linked as it should be exactly if there was a key block before it. -/
theorem linked_iff (id : StreamId) (h : InputHeader) (calls : List Call)
    (k : Fin (accepted h calls).length) :
    WellLinked id h calls k ↔ (latestKey (accepted h calls) k).isSome := by
  constructor
  · intro hlinked
    cases hkey : latestKey (accepted h calls) k with
    | some j => rfl
    | none => exact absurd hlinked (not_wellLinked hkey)
  · exact wellLinked_of_key

/-- The file header of a stream with audio and video. -/
def sampleHeader : InputHeader :=
  ⟨[0x46, 0x4c, 0x56, 1, 5, 0, 0, 0, 9, 0, 0, 0, 0], by decide, by decide⟩

/-- A key frame of one byte. -/
def sampleKeyFrame : InputTag :=
  ⟨[9, 0, 0, 1, 0, 0, 0, 0, 0, 0, 0, 0x17, 0, 0, 0, 12], by decide⟩

/-- The first block of a stream that begins with a key frame. -/
theorem first_block_unlinked :
    ¬ WellLinked 0 sampleHeader [.setFlvTag sampleKeyFrame] ⟨0, by decide⟩ :=
  not_wellLinked rfl

/-- The second one names it. -/
example : latestKey
    (accepted sampleHeader [.setFlvTag sampleKeyFrame, .setFlvTag sampleKeyFrame]) 1 = some 0 := by
  decide

end RtcMcu.Fragment
