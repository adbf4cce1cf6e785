import RtcMcu.Lib.Along
import RtcMcu.MediaManager.FlvSequence

/-!
# FlvLivePlayer

`connection_manager/flv_live_player.cpp`: a player of an FLV stream over HTTP. Each time its socket
takes bytes, `OnWrite` copies the blocks behind the last one it copied into the write buffer of the
connection, from the latest key block on where it has no last one. The buffer is made with room for
512 KiB and never grows, `copy_payload_to_buffer` ignores that a block was refused, and a block that
was trimmed from the cache is waited for without end. Where neither happens, the player gets a key
block and every block behind it, and each `OnWrite` ends at the newest one.

Not modelled: the parts of `FLVHeader` that only `copy_audio_header_to_buffer` and
`copy_video_header_to_buffer` read, the HTTP request, and the clocks.
-/

namespace RtcMcu.ConnectionManager

open RtcMcu.Avformat RtcMcu.Coupling RtcMcu.MediaManager

/-! ## The player -/

/-- The size of the write buffer `OnSocketAccept` makes. Its 64 byte pieces are whole. -/
def wbSize : Nat := 512 * 1024

/-- `kBufferOveruseSize`. -/
def kBufferOveruseSize : Nat := 2 * 1024 * 1024

/-- `sizeof(flv_header)`. -/
def flvHeaderLen : Nat := 9

/-- The response header of `OnWrite`. -/
def rsp : List Byte :=
  ascii "HTTP/1.1 200 OK\r\n" ++
    ascii "Server: Youku Live Forward\r\n" ++
    ascii "Content-Type: video/x-flv\r\n" ++
    ascii "Expires: -1\r\nCache-Control: private, max-age=0\r\nPragma: no-cache\r\n" ++
    ascii "Connection: Close\r\n" ++ ascii "\r\n"

/-- `FlvLivePlayer`. -/
structure FlvLivePlayer where
  writtenHeader : Bool
  writtenFirstTag : Bool
  bufferOveruse : Bool
  latestBlockid : BitVec 32

/-- `FlvLivePlayer()`. -/
def FlvLivePlayer.new : FlvLivePlayer where
  writtenHeader := false
  writtenFirstTag := false
  bufferOveruse := false
  latestBlockid := -1

/-- The overuse part of `OnWrite`, where `len` bytes are queued. -/
def FlvLivePlayer.checkOveruse (p : FlvLivePlayer) (len : Nat) : FlvLivePlayer :=
  if kBufferOveruseSize < len then { p with bufferOveruse := true, writtenFirstTag := false }
  else if p.bufferOveruse = true ∧ len < kBufferOveruseSize / 2 then { p with bufferOveruse := false }
  else p

/-- A stream and one player of it: the store of the stream, the player and the bytes queued in the
write buffer of its connection. Three records are kept on top: the blocks that were in the cache,
and the blocks copied and the bytes appended since the player was last (re)started. -/
structure FlvSession where
  store : Option StreamStore
  player : FlvLivePlayer
  wb : List Byte
  destroyed : Bool
  pushed : List FLVMiniBlock
  copied : List FLVMiniBlock
  appended : List Byte

namespace FlvSession

/-- The stream is not there yet and the player has just connected. -/
def new : FlvSession where
  store := none
  player := .new
  wb := []
  destroyed := false
  pushed := []
  copied := []
  appended := []

/-- The cache of the stream. A stream that is not there has nothing to look up. -/
def cache (s : FlvSession) : FLVMiniBlockCircularCache :=
  match s.store with
  | some st => st.cache
  | none => .new

/-- The blocks in the cache. -/
def blocks (s : FlvSession) : List FLVMiniBlock := s.cache.blockStore

/-! ## OnWrite -/

/-- The header `get_miniblock_flv_header` finds. `uploader` is whether the stream has one. -/
def flvHeader? (s : FlvSession) (uploader : Bool) : Option (List Byte) :=
  if uploader then s.cache.flvHeader else none

/-- The header part of `OnWrite`, and whether it goes on. A header shorter than an `flv_header` is
not set, and the null pointer in its place is not appended. -/
def writeHeader (s : FlvSession) (uploader : Bool) : Except Fault (FlvSession × Bool) :=
  if s.player.writtenHeader then .ok (s, true)
  else
    match s.flvHeader? uploader with
    | none => .ok (s, false)
    | some header =>
      if wbSize < s.wb.length + rsp.length then .ok ({ s with destroyed := true }, false)
      else if header.length < flvHeaderLen then .error .assertFailed
      else
        .ok ({ s with
          wb := bufferAppend wbSize (bufferAppend wbSize s.wb rsp) header
          player := { s.player with writtenHeader := true } }, true)

/-- The bytes `copy_payload_to_buffer` copies: as many as the size in the tag says. -/
def payloadToCopy (b : FLVMiniBlock) : List Byte :=
  b.payload.take (flvTagLen + b.tag.datasize.toNat + 4)

/-- A block becomes the latest one and is copied, or refused by the buffer without notice. -/
def copyBlock (s : FlvSession) (b : FLVMiniBlock) : FlvSession :=
  let wb := bufferAppend wbSize s.wb (payloadToCopy b)
  { s with
    player := { s.player with latestBlockid := b.seq }
    wb := wb
    copied := s.copied ++ [b]
    appended := s.appended ++ wb.drop s.wb.length }

/-- Where no first tag was written the player starts at the latest key block, if there is one. -/
def copyFirst (s : FlvSession) : Option FlvSession :=
  if s.player.writtenFirstTag then some s
  else
    s.cache.getLatestKey.map fun b =>
      let s := { s with copied := [], appended := [] }.copyBlock b
      { s with player := { s.player with writtenFirstTag := true } }

/-- The loop of `OnWrite`. -/
def copyNext : Nat → FlvSession → Except Fault FlvSession
  | 0, _ => .error .outOfFuel
  | fuel + 1, s =>
    match s.cache.getBySeq (s.player.latestBlockid + 1) with
    | some b => copyNext fuel (s.copyBlock b)
    | none => .ok s

/-- `OnWrite` behind the header. -/
def writeTags (s : FlvSession) : Except Fault FlvSession :=
  let s := { s with player := s.player.checkOveruse s.wb.length }
  if s.player.bufferOveruse then .ok s
  else
    match s.copyFirst with
    | none => .ok s
    | some s => copyNext (s.blocks.length + 1) s

/-- `OnWrite`. -/
def onWrite (s : FlvSession) (uploader : Bool) : Except Fault FlvSession := do
  let (s, goesOn) ← s.writeHeader uploader
  if goesOn then s.writeTags else .ok s

/-! ## Runs -/

/-- What happens to a stream and its player. -/
inductive Event
  /-- the remuxer has a header -/
  | setFlvHeader (header : List Byte)
  /-- the remuxer has a tag, with a body as long as it says -/
  | setFlvTag (tag : FlvTag) (sized : tag.data.length = tag.datasize.toNat)
  /-- the timer trims the cache to the duration that is configured -/
  | adjust (bufferDurationSec : BitVec 32)
  /-- the socket of the player takes bytes -/
  | onWrite (uploader : Bool)
  /-- queued bytes went out -/
  | drain (bytes : Nat)

/-- A change of the store. What is new at the back of the cache is recorded. -/
def setStore (s : FlvSession) (st : StreamStore) : FlvSession :=
  { s with
    store := some st
    pushed := s.pushed ++ st.cache.blockStore.drop s.blocks.length }

def step (s : FlvSession) : Event → Except Fault FlvSession
  | .setFlvHeader header => (StreamStore.setFlvHeader s.store header).map s.setStore
  | .setFlvTag tag _ => (StreamStore.setFlvTag s.store tag).map s.setStore
  | .adjust bufferDurationSec =>
    .ok { s with store := s.store.map fun st => { st with cache := { st.cache with
      blockStore := FLVMiniBlockCircularCache.adjust bufferDurationSec st.cache.blockStore } } }
  | .onWrite uploader => if s.destroyed then .ok s else s.onWrite uploader
  | .drain bytes => .ok { s with wb := s.wb.drop bytes }

def run (s : FlvSession) (es : List Event) : Except Fault FlvSession := es.foldlM step s

end FlvSession

namespace FlvSession

/-! ## What an OnWrite has to copy -/

/-- The number of the block the player is to copy next. -/
def nextSeq (s : FlvSession) : Option (BitVec 32) :=
  if s.player.writtenFirstTag then some (s.player.latestBlockid + 1)
  else s.cache.getLatestKey.map FLVMiniBlock.seq

/-- The blocks from that one on. -/
def due (s : FlvSession) : List FLVMiniBlock :=
  match s.nextSeq with
  | some seq => s.blocks.dropWhile fun b => b.seq != seq
  | none => []

/-- `OnWrite` goes on behind the header. -/
def goesOn (s : FlvSession) (uploader : Bool) : Bool :=
  s.player.writtenHeader || (s.flvHeader? uploader).isSome

/-- What is queued behind the header part. -/
def wbBehindHeader (s : FlvSession) (uploader : Bool) : List Byte :=
  if s.player.writtenHeader then s.wb
  else
    match s.flvHeader? uploader with
    | some header => bufferAppend wbSize (bufferAppend wbSize s.wb rsp) header
    | none => s.wb

/-- An `OnWrite` that goes on has room for all it has to copy, and the next block is still cached if
the player is behind and there is a key block to be had. The index of `get_by_seq` is an `int`. -/
structure Smooth (s : FlvSession) (uploader : Bool) : Prop where
  room : (s.wbBehindHeader uploader).length +
    (s.due.flatMap FLVMiniBlock.payload).length ≤ wbSize
  notBehind : s.player.writtenFirstTag = true → s.cache.getLatestKey.isSome = true →
    ∀ last, s.blocks.getLast? = some last → last.seq = s.player.latestBlockid ∨
      ∃ b ∈ s.blocks, b.seq = s.player.latestBlockid + 1
  bounded : s.blocks.length < 2 ^ 31

/-- The condition on an event. -/
def RunsSmooth (s : FlvSession) : Event → Prop
  | .onWrite uploader => s.destroyed = false → s.goesOn uploader = true → s.Smooth uploader
  | _ => True

end FlvSession

/-! ## What a player is to get -/

/-- The blocks copied since a start are a key block and the blocks with the numbers behind it, up to
the latest one, each of them one that was cached, and their payloads are the bytes appended. -/
structure Delivered (pushed copied : List FLVMiniBlock) (appended : List Byte)
    (latest : BitVec 32) : Prop where
  key : ∃ b, copied.head? = some b ∧ b.isKey = true
  next : copied.IsChain fun b b' => b'.seq = b.seq + 1
  last : ∃ b, copied.getLast? = some b ∧ b.seq = latest
  cached : copied ⊆ pushed
  bytes : appended = copied.flatMap FLVMiniBlock.payload

namespace Delivered

variable {pushed copied : List FLVMiniBlock} {appended : List Byte} {latest : BitVec 32}
  {b : FLVMiniBlock}

theorem start (hkey : b.isKey = true) (hb : b ∈ pushed) :
    Delivered pushed [b] b.payload b.seq where
  key := ⟨b, rfl, hkey⟩
  next := List.IsChain.singleton b
  last := ⟨b, rfl, rfl⟩
  cached := List.cons_subset.mpr ⟨hb, List.nil_subset pushed⟩
  bytes := (List.flatMap_singleton FLVMiniBlock.payload b).symm

theorem copy (h : Delivered pushed copied appended latest) (hb : b ∈ pushed)
    (hseq : b.seq = latest + 1) :
    Delivered pushed (copied ++ [b]) (appended ++ b.payload) b.seq where
  key := by
    obtain ⟨first, hfirst, hkey⟩ := h.key
    refine ⟨first, ?_, hkey⟩
    rw [List.head?_append, hfirst]
    rfl
  next := by
    refine List.isChain_append.mpr ⟨h.next, List.IsChain.singleton b, ?_⟩
    intro x hx y hy
    obtain ⟨last, hlast, hlatest⟩ := h.last
    cases hlast.symm.trans (Option.mem_def.mp hx)
    cases hy
    rw [hseq, hlatest]
  last := ⟨b, List.getLast?_concat, rfl⟩
  cached := List.append_subset.mpr ⟨h.cached, List.cons_subset.mpr ⟨hb, List.nil_subset pushed⟩⟩
  bytes := by rw [h.bytes, List.flatMap_append, List.flatMap_singleton]

theorem mono (h : Delivered pushed copied appended latest) (more : List FLVMiniBlock) :
    Delivered (pushed ++ more) copied appended latest where
  key := h.key
  next := h.next
  last := h.last
  cached := List.subset_append_of_subset_left more h.cached
  bytes := h.bytes

end Delivered

namespace FlvSession

/-! ## What the player keeps -/

/-- What holds of a session as long as every `OnWrite` finds its blocks and room for them. -/
structure Steady (s : FlvSession) : Prop where
  numbered : ∀ st, s.store = some st → st.Numbered
  sized : ∀ b ∈ s.blocks, b.tag.data.length = b.tag.datasize.toNat
  cached : s.blocks ⊆ s.pushed
  room : s.wb.length ≤ wbSize
  fresh : s.player.writtenHeader = false → s.wb = []
  calm : s.player.bufferOveruse = false
  unstarted : s.player.writtenFirstTag = false → s.copied = [] ∧ s.appended = []
  delivered : s.player.writtenFirstTag = true →
    Delivered s.pushed s.copied s.appended s.player.latestBlockid

theorem new_steady : new.Steady where
  numbered := fun _ h => by cases h
  sized := fun _ h => by cases h
  cached := fun _ h => by cases h
  room := Nat.zero_le _
  fresh := fun _ => rfl
  calm := rfl
  unstarted := fun _ => ⟨rfl, rfl⟩
  delivered := fun h => by cases h

theorem Steady.consecutive {s : FlvSession} (h : s.Steady) : Consecutive s.blocks := by
  unfold blocks cache
  cases hst : s.store with
  | none => exact List.IsChain.nil
  | some st => exact (h.numbered st hst).consecutive

/-! ### The store -/

theorem blocks_of_store {s : FlvSession} {st : StreamStore} (h : s.store = some st) :
    s.blocks = st.cache.blockStore := by
  unfold blocks cache
  rw [h]

theorem getD_store_blocks (s : FlvSession) :
    (s.store.getD .new).cache.blockStore = s.blocks := by
  unfold blocks cache
  cases s.store with
  | none => rfl
  | some st => rfl

/-- A store that keeps the blocks and has some more. -/
theorem Steady.setStore {s : FlvSession} (h : s.Steady) {st : StreamStore} (hst : st.Numbered)
    {more : List FLVMiniBlock} (hmore : st.cache.blockStore = s.blocks ++ more)
    (hsized : ∀ b ∈ more, b.tag.data.length = b.tag.datasize.toNat) : (s.setStore st).Steady := by
  have hpushed : (s.setStore st).pushed = s.pushed ++ more := by
    show s.pushed ++ st.cache.blockStore.drop s.blocks.length = _
    rw [hmore, List.drop_left]
  have hblocks : (s.setStore st).blocks = s.blocks ++ more := hmore
  refine ⟨?_, ?_, ?_, h.room, h.fresh, h.calm, h.unstarted, fun hfirst => ?_⟩
  · intro st' hst'
    cases hst'
    exact hst
  · rw [hblocks]
    intro b hb
    rcases List.mem_append.mp hb with hb | hb
    · exact h.sized b hb
    · exact hsized b hb
  · rw [hblocks, hpushed]
    exact List.append_subset.mpr ⟨List.subset_append_of_subset_left more h.cached,
      List.subset_append_right s.pushed more⟩
  · rw [hpushed]
    exact (h.delivered hfirst).mono more

theorem Steady.adjust {s : FlvSession} (h : s.Steady) (durationSec : BitVec 32) :
    Ends (fun _ => True) Steady (s.step (.adjust durationSec)) := by
  cases hst : s.store with
  | none =>
    unfold step
    rw [hst]
    have hsame : { s with store := none } = s := by
      rw [← hst]
    dsimp only [Option.map_none]
    rw [hsame]
    exact h
  | some st =>
    unfold step
    rw [hst]
    have hsuffix := FLVMiniBlockCircularCache.adjust_suffix durationSec st.cache.blockStore
    have hsub : FLVMiniBlockCircularCache.adjust durationSec st.cache.blockStore ⊆ s.blocks := by
      rw [blocks_of_store hst]
      exact hsuffix.subset
    refine ⟨?_, ?_, ?_, h.room, h.fresh, h.calm, h.unstarted, h.delivered⟩
    · intro st' hst'
      cases hst'
      exact (h.numbered st hst).adjust durationSec
    · intro b hb
      exact h.sized b (hsub hb)
    · intro b hb
      exact h.cached (hsub hb)

theorem Steady.setFlvHeader {s : FlvSession} (h : s.Steady) (header : List Byte) :
    Ends (fun _ => True) Steady (s.step (.setFlvHeader header)) := by
  have hstore := StreamStore.Numbered.setFlvHeader h.numbered header
  unfold step
  dsimp only
  cases hok : StreamStore.setFlvHeader s.store header with
  | error e => trivial
  | ok st =>
    obtain ⟨hst, hsame⟩ := hstore.of_ok hok
    rw [getD_store_blocks] at hsame
    have hmore : st.cache.blockStore = s.blocks ++ [] := by rw [hsame, List.append_nil]
    exact h.setStore hst hmore fun _ hb => by cases hb

theorem Steady.setFlvTag {s : FlvSession} (h : s.Steady) (tag : FlvTag)
    (sized : tag.data.length = tag.datasize.toNat) :
    Ends (fun _ => True) Steady (s.step (.setFlvTag tag sized)) := by
  unfold step
  dsimp only
  cases hok : StreamStore.setFlvTag s.store tag with
  | error e => trivial
  | ok st' =>
    cases hst : s.store with
    | none =>
      rw [hst] at hok
      cases hok
    | some st =>
      rw [hst] at hok
      obtain ⟨hst', hblocks⟩ := (h.numbered st hst).setFlvTag hok
      rw [← blocks_of_store hst] at hblocks
      rcases hblocks with hsame | ⟨b, htag, hadd⟩
      · have hmore : st'.cache.blockStore = s.blocks ++ [] := by rw [hsame, List.append_nil]
        exact h.setStore hst' hmore fun _ hb => by cases hb
      · refine h.setStore hst' hadd fun b' hb' => ?_
        rw [List.mem_singleton.mp hb', htag]
        exact sized

/-! ### The buffer -/

/-- The bytes copied are the payload of the block where its size is that of its body. -/
theorem payloadToCopy_of_sized {b : FLVMiniBlock}
    (h : b.tag.data.length = b.tag.datasize.toNat) : payloadToCopy b = b.payload := by
  unfold payloadToCopy
  apply List.take_of_length_le
  rw [← h]
  unfold FLVMiniBlock.payload FlvTag.bytes flvTagLen be32
  simp only [List.length_cons, List.length_append, List.length_nil]
  omega

/-- A block for which there is room is copied whole. -/
theorem copyBlock_of_room {s : FlvSession} {b : FLVMiniBlock}
    (hsized : b.tag.data.length = b.tag.datasize.toNat)
    (hroom : s.wb.length + b.payload.length ≤ wbSize) :
    s.copyBlock b = { s with
      player := { s.player with latestBlockid := b.seq }
      wb := s.wb ++ b.payload
      copied := s.copied ++ [b]
      appended := s.appended ++ b.payload } := by
  unfold copyBlock
  rw [payloadToCopy_of_sized hsized, bufferAppend_of_le hroom]
  dsimp only
  rw [List.drop_left]

theorem checkOveruse_of_calm {p : FlvLivePlayer} (hcalm : p.bufferOveruse = false) {len : Nat}
    (hlen : len ≤ wbSize) : p.checkOveruse len = p := by
  have hle : len ≤ kBufferOveruseSize := Nat.le_trans hlen (by decide)
  unfold FlvLivePlayer.checkOveruse
  rw [if_neg (Nat.not_lt.mpr hle), if_neg]
  rintro ⟨hover, _⟩
  rw [hcalm] at hover
  cases hover

/-! ### OnWrite -/

/-- The next block is copied. -/
theorem Steady.copyBlock {s : FlvSession} (h : s.Steady) {b : FLVMiniBlock} (hb : b ∈ s.blocks)
    (hfirst : s.player.writtenFirstTag = true) (hseq : b.seq = s.player.latestBlockid + 1)
    (hheader : s.player.writtenHeader = true)
    (hroom : s.wb.length + b.payload.length ≤ wbSize) : (s.copyBlock b).Steady := by
  rw [copyBlock_of_room (h.sized b hb) hroom]
  refine ⟨h.numbered, h.sized, h.cached, ?_, fun hno => ?_, h.calm, fun hno => ?_, fun _ => ?_⟩
  · show (s.wb ++ b.payload).length ≤ wbSize
    rw [List.length_append]
    exact hroom
  · rw [hheader] at hno
    cases hno
  · rw [hfirst] at hno
    cases hno
  · exact (h.delivered hfirst).copy (h.cached hb) hseq

/-- The loop copies the blocks behind the latest one, whatever they are. -/
theorem copyNext_spec (post : List FLVMiniBlock) : ∀ {s : FlvSession} {pre : List FLVMiniBlock}
    {b : FLVMiniBlock} {fuel : Nat}, s.Steady → s.player.writtenFirstTag = true →
      s.player.writtenHeader = true → s.blocks = pre ++ b :: post → s.blocks.length < 2 ^ 32 →
      s.player.latestBlockid = b.seq →
      s.wb.length + (post.flatMap FLVMiniBlock.payload).length ≤ wbSize → post.length < fuel →
      ∃ s' last, copyNext fuel s = .ok s' ∧ s'.Steady ∧ s'.blocks.getLast? = some last ∧
        s'.player.latestBlockid = last.seq := by
  induction post with
  | nil =>
    intro s pre b fuel h hfirst hheader hblocks hlen hlatest hroom hfuel
    obtain ⟨fuel, rfl⟩ := Nat.exists_eq_succ_of_ne_zero (Nat.ne_zero_of_lt hfuel)
    have hlast : s.blocks.getLast? = some b := by
      rw [hblocks]
      exact List.getLast?_concat
    have hnone : s.cache.getBySeq (s.player.latestBlockid + 1) = none := by
      rw [Option.eq_none_iff_forall_ne_some]
      intro b' hfound
      obtain ⟨hmem, hseq⟩ := FLVMiniBlockCircularCache.mem_of_getBySeq hfound
      rw [hlatest] at hseq
      exact h.consecutive.next_of_last hlen hlast b' hmem hseq
    refine ⟨s, b, ?_, h, hlast, hlatest⟩
    unfold copyNext
    rw [hnone]
  | cons b' post ih =>
    intro s pre b fuel h hfirst hheader hblocks hlen hlatest hroom hfuel
    obtain ⟨fuel, rfl⟩ := Nat.exists_eq_succ_of_ne_zero (Nat.ne_zero_of_lt hfuel)
    have hconsecutive := h.consecutive
    have hseq : b'.seq = s.player.latestBlockid + 1 := by
      rw [hblocks] at hconsecutive
      rw [hlatest]
      exact hconsecutive.succ_seq
    have hmem : b' ∈ s.blocks := by
      rw [hblocks]
      simp
    have hfound : s.cache.getBySeq (s.player.latestBlockid + 1) = some b' := by
      rw [← hseq]
      exact FLVMiniBlockCircularCache.getBySeq_of_mem h.consecutive hmem
    rw [List.flatMap_cons, List.length_append] at hroom
    have hone : s.wb.length + b'.payload.length ≤ wbSize := by omega
    have hnext := h.copyBlock hmem hfirst hseq hheader hone
    unfold copyNext
    rw [hfound]
    dsimp only
    rw [copyBlock_of_room (h.sized b' hmem) hone] at hnext ⊢
    have hbehind : s.blocks = (pre ++ [b]) ++ b' :: post := by
      rw [hblocks, List.append_assoc]
      rfl
    refine ih hnext hfirst hheader hbehind hlen rfl ?_ (Nat.lt_of_succ_lt_succ hfuel)
    show (s.wb ++ b'.payload).length + _ ≤ wbSize
    rw [List.length_append]
    omega

theorem due_of_nextSeq {s : FlvSession} (h : s.Steady) {pre post : List FLVMiniBlock}
    {b : FLVMiniBlock} (hblocks : s.blocks = pre ++ b :: post) (hnext : s.nextSeq = some b.seq) :
    s.due = b :: post := by
  have hconsecutive := h.consecutive
  unfold due
  rw [hnext]
  dsimp only
  rw [hblocks] at hconsecutive ⊢
  exact hconsecutive.dropWhile_seq

/-- The player after it started at a key block. -/
theorem Steady.start {s : FlvSession} (h : s.Steady) {b : FLVMiniBlock} (hb : b ∈ s.blocks)
    (hkey : b.isKey = true) (hheader : s.player.writtenHeader = true)
    (hroom : s.wb.length + b.payload.length ≤ wbSize) :
    Steady { s with
      player := { s.player with latestBlockid := b.seq, writtenFirstTag := true }
      wb := s.wb ++ b.payload
      copied := [b]
      appended := b.payload } := by
  refine ⟨h.numbered, h.sized, h.cached, ?_, fun hno => ?_, h.calm, fun hno => ?_, fun _ => ?_⟩
  · show (s.wb ++ b.payload).length ≤ wbSize
    rw [List.length_append]
    exact hroom
  · rw [hheader] at hno
    cases hno
  · cases hno
  · exact Delivered.start hkey (h.cached hb)

/-- Behind the header `OnWrite` copies all it has to copy. -/
theorem Steady.writeTags {s : FlvSession} (h : s.Steady) (hheader : s.player.writtenHeader = true)
    (hroom : s.wb.length + (s.due.flatMap FLVMiniBlock.payload).length ≤ wbSize)
    (hbehind : s.player.writtenFirstTag = true → s.cache.getLatestKey.isSome = true →
      ∀ last, s.blocks.getLast? = some last → last.seq = s.player.latestBlockid ∨
        ∃ b ∈ s.blocks, b.seq = s.player.latestBlockid + 1)
    (hlen : s.blocks.length < 2 ^ 32) :
    ∃ s', s.writeTags = .ok s' ∧ s'.Steady ∧ (s.cache.getLatestKey.isSome = true →
      ∃ last, s'.blocks.getLast? = some last ∧ s'.player.latestBlockid = last.seq) := by
  have hcalm : ¬ s.player.bufferOveruse = true := by
    rw [h.calm]
    exact Bool.false_ne_true
  unfold FlvSession.writeTags
  rw [checkOveruse_of_calm h.calm h.room]
  dsimp only
  rw [if_neg hcalm]
  cases hfirst : s.player.writtenFirstTag with
  | false =>
    cases hkey : s.cache.getLatestKey with
    | none =>
      refine ⟨s, ?_, h, fun hsome => by cases hsome⟩
      simp only [copyFirst, hfirst, hkey]
      rfl
    | some b =>
      obtain ⟨hb, hisKey⟩ := FLVMiniBlockCircularCache.mem_of_getLatestKey hkey
      obtain ⟨pre, post, hblocks⟩ := List.append_of_mem hb
      have hnext : s.nextSeq = some b.seq := by
        simp only [nextSeq, hfirst, hkey]
        rfl
      rw [due_of_nextSeq h hblocks hnext, List.flatMap_cons, List.length_append] at hroom
      have hone : s.wb.length + b.payload.length ≤ wbSize := by omega
      have hstart := h.start hb hisKey hheader hone
      have hcopy := copyBlock_of_room (s := { s with copied := [], appended := [] })
        (h.sized b hb) hone
      have hfuel : post.length < s.blocks.length + 1 := by
        rw [blocks, hblocks]
        simp only [List.length_append, List.length_cons]
        omega
      have hbytes : (s.wb ++ b.payload).length +
          (post.flatMap FLVMiniBlock.payload).length ≤ wbSize := by
        rw [List.length_append]
        omega
      obtain ⟨s', last, hok, hsteady, hlast⟩ :=
        copyNext_spec post hstart rfl hheader hblocks hlen rfl hbytes hfuel
      refine ⟨s', ?_, hsteady, fun _ => ⟨last, hlast⟩⟩
      simp only [copyFirst, hfirst, hkey, Option.map_some, hcopy]
      exact hok
  | true =>
    have hcopyFirst : s.copyFirst = some s := by
      unfold copyFirst
      rw [if_pos hfirst]
    rw [hcopyFirst]
    dsimp only
    unfold copyNext
    cases hget : s.cache.getBySeq (s.player.latestBlockid + 1) with
    | none =>
      refine ⟨s, rfl, h, fun hsome => ?_⟩
      cases hlast : s.blocks.getLast? with
      | none =>
        rw [List.getLast?_eq_none_iff] at hlast
        obtain ⟨b, hb⟩ := Option.isSome_iff_exists.mp hsome
        have hmem := (FLVMiniBlockCircularCache.mem_of_getLatestKey hb).1
        unfold blocks at hlast
        rw [hlast] at hmem
        cases hmem
      | some last =>
        rcases hbehind hfirst hsome last hlast with hnewest | ⟨b, hb, hseq⟩
        · exact ⟨last, rfl, hnewest.symm⟩
        · have hfound := FLVMiniBlockCircularCache.getBySeq_of_mem h.consecutive hb
          rw [hseq, hget] at hfound
          cases hfound
    | some b =>
      obtain ⟨hb, hseq⟩ := FLVMiniBlockCircularCache.mem_of_getBySeq hget
      obtain ⟨pre, post, hblocks⟩ := List.append_of_mem hb
      have hnext : s.nextSeq = some b.seq := by
        rw [hseq]
        unfold nextSeq
        rw [if_pos hfirst]
      rw [due_of_nextSeq h hblocks hnext, List.flatMap_cons, List.length_append] at hroom
      have hone : s.wb.length + b.payload.length ≤ wbSize := by omega
      have hcopied := h.copyBlock hb hfirst hseq hheader hone
      dsimp only
      rw [copyBlock_of_room (h.sized b hb) hone] at hcopied ⊢
      have hfuel : post.length < s.blocks.length := by
        rw [blocks, hblocks]
        simp only [List.length_append, List.length_cons]
        omega
      have hbytes : (s.wb ++ b.payload).length +
          (post.flatMap FLVMiniBlock.payload).length ≤ wbSize := by
        rw [List.length_append]
        omega
      obtain ⟨s', last, hok, hsteady, hlast⟩ :=
        copyNext_spec post hcopied hfirst hheader hblocks hlen rfl hbytes hfuel
      exact ⟨s', hok, hsteady, fun _ => ⟨last, hlast⟩⟩

/-- What the header part leaves where `OnWrite` goes on. -/
theorem Steady.writeHeader_ok {s s₁ : FlvSession} (h : s.Steady) {uploader : Bool}
    (hok : s.writeHeader uploader = .ok (s₁, true)) :
    s.goesOn uploader = true ∧ s₁.Steady ∧ s₁.player.writtenHeader = true ∧
      s₁ = { s with
        wb := s.wbBehindHeader uploader
        player := { s.player with writtenHeader := true } } := by
  unfold writeHeader at hok
  unfold goesOn wbBehindHeader
  cases hheader : s.player.writtenHeader with
  | true =>
    rw [if_pos hheader] at hok
    cases hok
    refine ⟨rfl, h, hheader, ?_⟩
    rw [if_pos rfl, ← hheader]
  | false =>
    rw [if_neg (by rw [hheader]; exact Bool.false_ne_true)] at hok
    cases hfound : s.flvHeader? uploader with
    | none =>
      rw [hfound] at hok
      cases hok
    | some header =>
      rw [hfound] at hok
      dsimp only at hok
      split at hok
      · cases hok
      · split at hok
        · cases hok
        · cases hok
          refine ⟨rfl, ⟨h.numbered, h.sized, h.cached, ?_, fun hno => (by cases hno), h.calm,
            h.unstarted, h.delivered⟩, rfl, rfl⟩
          exact length_bufferAppend_le (length_bufferAppend_le h.room)

theorem Steady.writeHeader_stop {s s₁ : FlvSession} (h : s.Steady) {uploader : Bool}
    (hok : s.writeHeader uploader = .ok (s₁, false)) : s₁.Steady := by
  unfold writeHeader at hok
  split at hok
  · cases hok
  · split at hok
    · cases hok
      exact h
    · split at hok
      · cases hok
        exact ⟨h.numbered, h.sized, h.cached, h.room, h.fresh, h.calm, h.unstarted, h.delivered⟩
      · split at hok
        · cases hok
        · cases hok

/-- A smooth `OnWrite` that goes on ends, and at the newest block if there is a key block. -/
theorem Steady.onWrite_ok {s s₁ : FlvSession} (h : s.Steady) {uploader : Bool}
    (hsmooth : s.goesOn uploader = true → s.Smooth uploader)
    (hok : s.writeHeader uploader = .ok (s₁, true)) :
    ∃ s', s.onWrite uploader = .ok s' ∧ s'.Steady ∧ (s₁.cache.getLatestKey.isSome = true →
      ∃ last, s'.blocks.getLast? = some last ∧ s'.player.latestBlockid = last.seq) := by
  obtain ⟨hgoes, hsteady, hheader, hs₁⟩ := h.writeHeader_ok hok
  obtain ⟨hroom, hbehind, hbounded⟩ := hsmooth hgoes
  have hlen : s₁.blocks.length < 2 ^ 32 := by
    rw [hs₁]
    exact Nat.lt_trans hbounded (by decide)
  have hwrite := hsteady.writeTags hheader (by rw [hs₁]; exact hroom) (by rw [hs₁]; exact hbehind)
    hlen
  unfold FlvSession.onWrite
  rw [hok]
  exact hwrite

theorem Steady.onWrite {s : FlvSession} (h : s.Steady) {uploader : Bool}
    (hsmooth : s.goesOn uploader = true → s.Smooth uploader) :
    Ends (fun _ => True) Steady (s.onWrite uploader) := by
  cases hok : s.writeHeader uploader with
  | error e =>
    unfold FlvSession.onWrite
    rw [hok]
    trivial
  | ok r =>
    obtain ⟨s₁, goesOn⟩ := r
    cases goesOn with
    | false =>
      unfold FlvSession.onWrite
      rw [hok]
      exact h.writeHeader_stop hok
    | true =>
      obtain ⟨s', hs', hsteady, _⟩ := h.onWrite_ok hsmooth hok
      rw [hs']
      exact hsteady

/-- Smooth events keep the session steady. -/
theorem Steady.step (s : FlvSession) (e : Event) (h : s.Steady) (hsmooth : s.RunsSmooth e) :
    Ends (fun _ => True) Steady (s.step e) := by
  cases e with
  | setFlvHeader header => exact h.setFlvHeader header
  | setFlvTag tag sized => exact h.setFlvTag tag sized
  | adjust durationSec => exact h.adjust durationSec
  | onWrite uploader =>
    unfold FlvSession.step
    dsimp only
    split
    · exact h
    · rename_i hlive
      exact h.onWrite (hsmooth (eq_false_of_ne_true hlive))
  | drain bytes =>
    refine ⟨h.numbered, h.sized, h.cached, ?_, fun hno => ?_, h.calm, h.unstarted, h.delivered⟩
    · show (s.wb.drop bytes).length ≤ wbSize
      rw [List.length_drop]
      exact Nat.le_trans (Nat.sub_le _ _) h.room
    · show s.wb.drop bytes = []
      rw [h.fresh hno, List.drop_nil]

/-! ## Delivery -/

/-- Nothing was copied yet, or what was is what the player is to get. -/
def GetsWhole (s : FlvSession) : Prop :=
  s.copied = [] ∧ s.appended = [] ∨
    Delivered s.pushed s.copied s.appended s.player.latestBlockid

/-- An `OnWrite` that gets past the header and the overuse check and has a key block in the cache
ends at the newest block. -/
def ReachesNewest (s : FlvSession) (uploader : Bool) : Prop :=
  ∀ s₁, s.writeHeader uploader = .ok (s₁, true) →
    (s₁.player.checkOveruse s₁.wb.length).bufferOveruse = false →
    s₁.cache.getLatestKey.isSome = true →
    ∃ s' last, s.onWrite uploader = .ok s' ∧ s'.blocks.getLast? = some last ∧
      s'.player.latestBlockid = last.seq

/-- In a run in which each `OnWrite` has room for what it has to copy and finds the next block
cached, the player gets a key block and all blocks behind it, and each `OnWrite` reaches the newest
block. -/
theorem flv_player_delivery {es pre post : List Event} (h : Along step RunsSmooth new es)
    (hes : es = pre ++ post) {s : FlvSession} (hpre : run new pre = .ok s) :
    s.GetsWhole ∧ ∀ uploader rest, post = .onWrite uploader :: rest → s.destroyed = false →
      s.ReachesNewest uploader := by
  have hsteady : s.Steady := (h.prefix_run Steady.step hes new_steady).of_ok hpre
  refine ⟨?_, fun uploader rest hpost hlive s₁ hok _ hkey => ?_⟩
  · cases hfirst : s.player.writtenFirstTag with
    | false => exact .inl (hsteady.unstarted hfirst)
    | true => exact .inr (hsteady.delivered hfirst)
  · rw [hpost] at hes
    have hsmooth : s.RunsSmooth (.onWrite uploader) := h.at_call hes hpre
    obtain ⟨s', hs', _, hnewest⟩ := hsteady.onWrite_ok (hsmooth hlive) hok
    obtain ⟨last, hlast, hlatest⟩ := hnewest hkey
    exact ⟨s', last, hs', hlast, hlatest⟩

/-! ## A player that keeps up, and one whose next block is trimmed -/

/-- The session after these events. -/
def sessionAfter (es : List Event) : FlvSession := (run new es).toOption.getD new

theorem run_sessionAfter {es : List Event} (h : (run new es).toOption.isSome = true) :
    run new es = .ok (sessionAfter es) := by
  unfold sessionAfter
  cases hrun : run new es with
  | error e =>
    rw [hrun] at h
    cases h
  | ok s => rfl

/-- `RunsSmooth` as a computation. -/
def runsSmooth (s : FlvSession) : Event → Bool
  | .onWrite uploader =>
    decide ((s.wbBehindHeader uploader).length +
      (s.due.flatMap FLVMiniBlock.payload).length ≤ wbSize) &&
    (!s.player.writtenFirstTag || s.blocks.getLast?.all fun last =>
      last.seq == s.player.latestBlockid ||
        s.blocks.any fun b => b.seq == s.player.latestBlockid + 1) &&
    decide (s.blocks.length < 2 ^ 31)
  | _ => true

theorem runsSmooth_sound (s : FlvSession) (e : Event) (h : s.runsSmooth e = true) :
    s.RunsSmooth e := by
  cases e with
  | onWrite uploader =>
    intro _ _
    simp only [runsSmooth, Bool.and_eq_true, decide_eq_true_eq] at h
    obtain ⟨⟨hroom, hnext⟩, hbounded⟩ := h
    refine ⟨hroom, fun hfirst _ last hlast => ?_, hbounded⟩
    rw [hfirst, hlast] at hnext
    simpa using hnext
  | setFlvHeader header => trivial
  | setFlvTag tag sized => trivial
  | adjust durationSec => trivial
  | drain bytes => trivial

/-- The header of a stream of video. -/
def videoHeader : List Byte := FLVHeader.signature FLV_FLAG_VIDEO ++ be32 0

def keyFrame (timestamp : BitVec 32) : FlvTag := .ofData FLV_TAG_VIDEO timestamp [0x17, 1, 0, 0, 0]

def interFrame (timestamp : BitVec 32) : FlvTag :=
  .ofData FLV_TAG_VIDEO timestamp [0x27, 1, 0, 0, 0]

/-- A stream whose player writes once at its first key frame. -/
def firstFrames : List Event :=
  [.setFlvHeader videoHeader, .setFlvTag (keyFrame 0) rfl, .onWrite true]

/-- The player writes again behind a frame more. -/
def keepsUp : List Event := firstFrames ++ [.setFlvTag (interFrame 40) rfl, .drain 100]

/-- A minute goes by before the player writes again, and the cache is trimmed to the last minute. -/
def waitsTooLong : List Event :=
  firstFrames ++ [.setFlvTag (interFrame 500) rfl, .setFlvTag (keyFrame 61000) rfl, .adjust 60]

theorem flv_player_delivery_keepsUp :
    Along step RunsSmooth new (keepsUp ++ [.onWrite true]) ∧ (sessionAfter keepsUp).GetsWhole ∧
      (sessionAfter keepsUp).ReachesNewest true := by
  have halong : Along step RunsSmooth new (keepsUp ++ [.onWrite true]) :=
    Along.of_check runsSmooth_sound _ (by decide +kernel)
  have hrun : run new keepsUp = .ok (sessionAfter keepsUp) := run_sessionAfter (by decide +kernel)
  obtain ⟨hwhole, hnewest⟩ := flv_player_delivery halong rfl hrun
  exact ⟨halong, hwhole, hnewest true [] rfl (by decide +kernel)⟩

/-- The next block is gone, and `OnWrite` leaves the player where it is. -/
theorem player_stuck :
    ¬ ∀ (es pre post : List Event) (s : FlvSession), es = pre ++ post → run new pre = .ok s →
      s.GetsWhole ∧ ∀ uploader rest, post = .onWrite uploader :: rest → s.destroyed = false →
        s.ReachesNewest uploader := by
  intro h
  have hrun : run new waitsTooLong = .ok (sessionAfter waitsTooLong) :=
    run_sessionAfter (by decide +kernel)
  have hnewest := (h _ waitsTooLong [.onWrite true] _ rfl hrun).2 true [] rfl (by decide +kernel)
  have hheader : (sessionAfter waitsTooLong).writeHeader true =
      .ok (sessionAfter waitsTooLong, true) := by
    unfold writeHeader
    exact if_pos (by decide +kernel)
  obtain ⟨s', last, hs', hlast, hlatest⟩ := hnewest _ hheader (by decide +kernel)
    (by decide +kernel)
  have hstuck : ((sessionAfter waitsTooLong).onWrite true).toOption.map
      (fun s' => (s'.blocks.getLast?.map FLVMiniBlock.seq, s'.player.latestBlockid)) =
        some (some 2, 0) := by
    decide +kernel
  rw [hs'] at hstuck
  simp only [Except.toOption, Option.map_some, hlast, hlatest, Option.some.injEq,
    Prod.mk.injEq] at hstuck
  exact absurd (hstuck.1.symm.trans hstuck.2) (by decide)

end FlvSession

end RtcMcu.ConnectionManager
