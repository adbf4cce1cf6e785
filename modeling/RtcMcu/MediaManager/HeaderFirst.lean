import RtcMcu.MediaManager.FlvCacheManager

/-!
# The header goes before the tags

`FlvCacheManager` asserts that a stream has a header before a tag comes. The remuxer writes the
header when the last thing it waits for arrives, and makes tags whenever everything is there; a new
session description can complete the set without a header being written. In every run where that
does not happen, no assertion fails (`no_tag_before_header`).

What carries the result is `HeaderFirst`, an invariant of the remuxer's record and the stream's
store together: without a store the record is not ready for tags and has none queued.
-/

namespace RtcMcu.MediaManager

open RtcMcu.Avformat RtcMcu.Avcodec RtcMcu.Fragment RtcMcu.Coupling

/-- Any fault but a failed assertion. -/
def NoAssert (e : Fault) : Prop := e ≠ .assertFailed

theorem noAssert_outOfBounds : NoAssert .outOfBounds := fun h => by cases h

theorem ends_map_some {α : Type} {E : Fault → Prop} {P : α → Prop} {x : Except Fault α}
    (h : Ends E P x) : Ends E (fun o => ∃ a, o = some a ∧ P a) (x.map some) := by
  cases x with
  | error e => exact h
  | ok a => exact ⟨a, rfl, h⟩

/-! ## The header -/

theorem or_audio_and : ∀ f : Byte, (f ||| FLV_FLAG_AUDIO) &&& FLV_FLAG_AUDIO = FLV_FLAG_AUDIO := by
  decide

theorem or_audio_video_and : ∀ f : Byte,
    (f ||| FLV_FLAG_AUDIO ||| FLV_FLAG_VIDEO) &&& FLV_FLAG_AUDIO = FLV_FLAG_AUDIO := by
  decide

/-- Flags that name audio are those of a header with audio, with or without video. -/
theorem and_both_of_audio : ∀ f : Byte, f &&& FLV_FLAG_AUDIO = FLV_FLAG_AUDIO →
    f &&& FLV_FLAG_BOTH = FLV_FLAG_BOTH ∨ f &&& FLV_FLAG_BOTH = FLV_FLAG_AUDIO := by
  decide

/-- Nothing is written yet, or a header whose flags name audio. -/
def NamesAudio (buffer : List Byte) : Prop :=
  buffer = [] ∨ ∃ a b c d flags rest, buffer = a :: b :: c :: d :: flags :: rest ∧
    flags &&& FLV_FLAG_AUDIO = FLV_FLAG_AUDIO

/-- A header that is written names audio. -/
theorem NamesAudio.append {buffer : List Byte} (h : NamesAudio buffer) (hne : buffer ≠ [])
    (size : Nat) (src : List Byte) :
    NamesAudio (bufferAppend size buffer src) ∧ bufferAppend size buffer src ≠ [] := by
  unfold bufferAppend
  split
  · exact ⟨h, hne⟩
  · rcases h with h | ⟨a, b, c, d, flags, rest, rfl, hflags⟩
    · exact absurd h hne
    · refine ⟨.inr ⟨a, b, c, d, flags, rest ++ src, rfl, hflags⟩, ?_⟩
      intro h
      cases h

theorem NamesAudio.foldl (size : Nat) (parts : List (List Byte)) :
    ∀ {buffer : List Byte}, NamesAudio buffer → buffer ≠ [] →
      NamesAudio (parts.foldl (bufferAppend size) buffer) ∧
        parts.foldl (bufferAppend size) buffer ≠ [] := by
  induction parts with
  | nil => exact fun h hne => ⟨h, hne⟩
  | cons part parts ih =>
    intro buffer h hne
    obtain ⟨h', hne'⟩ := h.append hne size part
    exact ih h' hne'

/-- With an AAC configuration, what `build` leaves in the buffer names audio. -/
theorem build_namesAudio (d : HeaderData) {h : FLVHeader} (hh : NamesAudio h.buffer)
    (avc : List Byte) {aac : List Byte} (haac : aac ≠ []) :
    NamesAudio (h.build d avc aac).buffer ∧ (h.build d avc aac).buffer ≠ [] := by
  have hflags : ∀ (o : Option (List Byte)) (f : Byte),
      FLVHeader.setFlag FLV_FLAG_VIDEO o (f ||| FLV_FLAG_AUDIO) &&& FLV_FLAG_AUDIO =
        FLV_FLAG_AUDIO := by
    intro o f
    cases o with
    | none => exact or_audio_and f
    | some _ => exact or_audio_video_and f
  have haudio : FLVHeader.setFlag FLV_FLAG_AUDIO (FLVHeader.aac0Data aac) h.flvFlag =
      h.flvFlag ||| FLV_FLAG_AUDIO := by
    unfold FLVHeader.aac0Data
    rw [if_neg haac]
    rfl
  unfold FLVHeader.build
  dsimp only
  rw [haudio, List.foldl_cons]
  by_cases hne : h.buffer = []
  · rw [hne]
    exact NamesAudio.foldl 4096 _ (.inr ⟨_, _, _, _, _, _, rfl, hflags _ _⟩) (fun h => by cases h)
  · obtain ⟨h', hne'⟩ := hh.append hne 4096 (FLVHeader.signature (FLVHeader.setFlag FLV_FLAG_VIDEO
      (if avc = [] then none else d.avc0Data avc) (h.flvFlag ||| FLV_FLAG_AUDIO)))
    exact NamesAudio.foldl 4096 _ h' hne'

/-! ## The store -/

namespace StreamStore

/-- The generator of the store has a header. -/
def Headed (s : StreamStore) : Prop := s.generator.flvHeader.getD [] ≠ []

/-- A header that names audio is taken. -/
theorem setFlvHeader_ends (s : Option StreamStore) {header : List Byte} (hne : header ≠ [])
    (hh : NamesAudio header) : Ends NoAssert Headed (setFlvHeader s header) := by
  rcases hh with hh | ⟨a, b, c, d, flags, rest, rfl, hflags⟩
  · exact absurd hh hne
  have hread : readByte (a :: b :: c :: d :: flags :: rest) 4 = .ok flags := by
    have hlen : 4 < (a :: b :: c :: d :: flags :: rest).length := by
      simp only [List.length_cons]
      omega
    unfold readByte
    rw [dif_pos hlen]
    rfl
  unfold setFlvHeader FLVMiniBlockGenerator.setFlvHeader
  simp only [hread, ok_bind, if_pos (and_both_of_audio flags hflags)]
  exact hne

/-- A generator with a header makes a block of a tag. -/
theorem generate_ok {g : FLVMiniBlockGenerator} (h : g.flvHeader.getD [] ≠ []) (tag : FlvTag) :
    ∃ g' b, g.generate tag = .ok (g', b) ∧ g'.flvHeader = g.flvHeader := by
  have hlen : (g.flvHeader.getD []).length ≠ 0 := fun hzero => h (List.length_eq_zero_iff.mp hzero)
  unfold FLVMiniBlockGenerator.generate
  rw [if_neg hlen]
  exact ⟨_, _, rfl, rfl⟩

/-- The numbering starts over with the first tag. -/
theorem numbered_header (g : FLVMiniBlockGenerator) :
    (if g.inputTagNum = 0 then { g with lastGlobalSeq := -1 } else g).flvHeader =
      g.flvHeader := by
  split
  · rfl
  · rfl

/-- A store with a header takes every tag. -/
theorem setFlvTag_ends {s : StreamStore} (h : s.Headed) (tag : FlvTag) :
    Ends NoAssert Headed (setFlvTag (some s) tag) := by
  unfold setFlvTag FLVMiniBlockGenerator.setFlvTag
  dsimp only
  split
  · exact h
  · have hnum := numbered_header s.generator
    generalize (if s.generator.inputTagNum = 0 then
      { s.generator with lastGlobalSeq := -1 } else s.generator) = g at hnum ⊢
    have hg : g.flvHeader.getD [] ≠ [] := by
      rw [hnum]
      exact h
    obtain ⟨g', b, hgen, hheader⟩ := generate_ok hg tag
    rw [hgen]
    show g'.flvHeader.getD [] ≠ []
    rw [hheader]
    exact hg

/-- A tag needs a store with a header. -/
def HasHeader (s : Option StreamStore) : FlvCall → Prop
  | .setFlvHeader _ _ => True
  | .setFlvTag _ => ∃ st, s = some st ∧ st.Headed

/-- A call of the remuxer on a store with a header. -/
theorem callTag_ends {s : StreamStore} (h : s.Headed) (tag : FlvTag) :
    Ends NoAssert (fun s' => ∃ st, s' = some st ∧ st.Headed) (call (some s) (.setFlvTag tag)) := by
  unfold call
  exact ends_map_some (setFlvTag_ends h tag)

end StreamStore

/-! ## The invariant -/

/-- What the header depends on, and the tags that wait. -/
structure HeaderPart where
  isAudioOnly : Bool
  isSpsReach : Bool
  isPpsReach : Bool
  isAdtsReach : Bool
  aac0Buffer : List Byte
  header : List Byte
  audioOutQueue : List FlvTag
  videoOutQueue : List FlvTag

namespace Rtp2FlvTransformInfo

def headerPart (info : Rtp2FlvTransformInfo) : HeaderPart where
  isAudioOnly := info.isAudioOnly
  isSpsReach := info.isSpsReach
  isPpsReach := info.isPpsReach
  isAdtsReach := info.isAdtsReach
  aac0Buffer := info.aac0Buffer
  header := info.flvHeader.buffer
  audioOutQueue := info.audioOutQueue
  videoOutQueue := info.videoOutQueue

end Rtp2FlvTransformInfo

/-- The invariant while the remuxer collects what it needs for the header. -/
structure Collecting (p : HeaderPart) (store : Option StreamStore) : Prop where
  headed : ∀ s, store = some s → s.Headed
  header : NamesAudio p.header
  config : p.isAdtsReach = true → p.aac0Buffer ≠ []
  queues : store = none → p.audioOutQueue = [] ∧ p.videoOutQueue = []

/-- The record is ready for tags. -/
def HeaderPart.ready (p : HeaderPart) : Bool :=
  (p.isAudioOnly || (p.isSpsReach && p.isPpsReach)) && p.isAdtsReach

/-- Without a store the remuxer makes no tags. -/
structure HeaderFirst (p : HeaderPart) (store : Option StreamStore) : Prop
    extends Collecting p store where
  waits : store = none → p.ready = false

/-- A record that is ready has a store with a header. -/
theorem HeaderFirst.store {p : HeaderPart} {store : Option StreamStore} (h : HeaderFirst p store)
    (hready : p.ready = true) : ∃ s, store = some s ∧ s.Headed := by
  cases store with
  | none =>
    rw [h.waits rfl] at hready
    cases hready
  | some s => exact ⟨s, rfl, h.headed s rfl⟩

/-- A record with a store may change in what is only asked of one without. -/
theorem HeaderFirst.of_store {p : HeaderPart} {s : StreamStore} (hs : s.Headed)
    (hheader : NamesAudio p.header) (hconfig : p.isAdtsReach = true → p.aac0Buffer ≠ []) :
    HeaderFirst p (some s) where
  headed := fun _ h => Option.some.inj h ▸ hs
  header := hheader
  config := hconfig
  queues := fun h => by cases h
  waits := fun h => by cases h

/-- The program keeps the invariant, and hands a tag over only where there is a header. -/
def KeepsHeaderFirst (x : Remux Rtp2FlvTransformInfo) (store : Option StreamStore) : Prop :=
  Emit.Drives StreamStore.call StreamStore.HasHeader NoAssert x store fun i s =>
    HeaderFirst i.headerPart s

/-- A computation without calls keeps the invariant. -/
def KeptBy (x : Except Fault Rtp2FlvTransformInfo) (store : Option StreamStore) : Prop :=
  Ends NoAssert (fun i => HeaderFirst i.headerPart store) x

namespace Rtp2FlvTransformInfo

variable {env : RemuxerEnv} {info : Rtp2FlvTransformInfo} {store : Option StreamStore}

/-! ## The header is written -/

/-- Behind `_write_header` the record is not ready, or it has a store. -/
theorem writeHeader_keeps (h : Collecting info.headerPart store) :
    KeepsHeaderFirst (info.writeHeader env) store := by
  unfold writeHeader
  by_cases hready : info.ready = true
  · have hadts : info.isAdtsReach = true := (Bool.and_eq_true_iff.mp hready).2
    obtain ⟨hnames, hne⟩ :=
      build_namesAudio env.headerData h.header info.avc0Buffer (h.config hadts)
    rw [if_pos hready]
    refine Emit.Drives.bind (P := fun _ s' => ∃ s, s' = some s ∧ s.Headed) ?_ ?_
    · apply Emit.Drives.call trivial
      unfold StreamStore.call
      exact ends_map_some (StreamStore.setFlvHeader_ends store hne hnames)
    · intro _ s' hs'
      obtain ⟨s, rfl, hs⟩ := hs'
      apply Emit.Drives.pure
      exact HeaderFirst.of_store hs hnames h.config
  · rw [if_neg hready]
    apply Emit.Drives.pure
    exact { h with waits := fun _ => eq_false_of_ne_true hready }

/-- A parameter set changes nothing the invariant asks for. -/
theorem takeParameterSet_ends {info : Rtp2FlvTransformInfo} {nal : NalUnit}
    (hnal : Ends NoAssert (fun _ => True) nal.bytes) (h : Collecting info.headerPart store) :
    Ends NoAssert (fun i => Collecting i.headerPart store) (info.takeParameterSet nal) := by
  have happend : Ends NoAssert (fun _ => True) (info.appendParameterSet nal) := by
    unfold appendParameterSet
    exact Ends.bind hnal fun _ _ _ => trivial
  unfold takeParameterSet
  split
  · refine Ends.bind happend fun _ _ _ => ?_
    exact ⟨h.headed, h.header, h.config, h.queues⟩
  · split
    · refine Ends.bind happend fun _ _ _ => ?_
      exact ⟨h.headed, h.header, h.config, h.queues⟩
    · exact h

theorem findParameterSets_keeps (h : HeaderFirst info.headerPart store) :
    KeepsHeaderFirst (info.findParameterSets env) store := by
  unfold findParameterSets
  split
  · exact Emit.Drives.pure h
  · refine Emit.Drives.bind (P := fun i s => Collecting i.headerPart s) ?_ ?_
    · apply Emit.Drives.lift
      exact scanNals_ends noAssert_outOfBounds
        (fun _ _ hnal hi => takeParameterSet_ends hnal hi) info.videoFrameBuffer h.toCollecting
    · exact fun i s hi => writeHeader_keeps hi

/-! ## Video -/

theorem readByte_ends (m : List Byte) (i : Nat) :
    Ends NoAssert (fun _ => True) (readByte m i) := by
  unfold readByte
  split
  · trivial
  · exact noAssert_outOfBounds

theorem appendFrom_ends (size : Nat) (queued m : List Byte) (start : Nat) (len : BitVec 64) :
    Ends NoAssert (fun _ => True) (appendFrom size queued m start len) := by
  unfold appendFrom
  split
  · trivial
  · exact Ends.bind (slice_ends noAssert_outOfBounds _ _ _) fun _ _ _ => trivial

theorem writeSize_ends (m : List Byte) (pos : Nat) (size : BitVec 32) :
    Ends NoAssert (fun _ => True) (writeSize m pos size) := by
  unfold writeSize
  split
  · trivial
  · exact noAssert_outOfBounds

theorem writeSizes_ends (ps : List Nat) : ∀ (m : List Byte) (last : Option Nat),
    Ends NoAssert (fun _ => True) (writeSizes m last ps) := by
  induction ps with
  | nil =>
    intro m last
    cases last with
    | none => trivial
    | some last =>
      simp only [writeSizes]
      split
      · exact writeSize_ends _ _ _
      · trivial
  | cons pos ps ih =>
    intro m last
    cases last with
    | none => exact ih m (some pos)
    | some last => exact Ends.bind (writeSize_ends _ _ _) fun m' _ _ => ih m' (some pos)

theorem generateVideoTag_ends (f : FLV) (payload : List Byte) (timestamp : BitVec 32) :
    Ends NoAssert (fun _ => True) (f.generateVideoTag payload timestamp) := by
  have hscan : Ends NoAssert (fun _ => True)
      (scanNals payload FLV.VideoData.add (fun _ => false) { frame := none, units := [] }) := by
    refine scanNals_ends noAssert_outOfBounds (fun v nal hnal _ => ?_) payload trivial
    unfold FLV.VideoData.add
    split
    · trivial
    · exact Ends.bind hnal fun _ _ _ => trivial
  unfold FLV.generateVideoTag FLV.generateVideoTagData
  refine Ends.bind (P := fun _ => True) ?_ fun _ _ _ => trivial
  refine Ends.bind hscan fun v _ _ => ?_
  split
  · trivial
  · trivial

/-- A video tag is queued only where there is a header. -/
theorem queueVideoTag_keeps (h : HeaderFirst info.headerPart store) :
    KeptBy (info.queueVideoTag env) store := by
  unfold queueVideoTag
  by_cases hall : (info.isSpsReach && info.isPpsReach && info.isAdtsReach) = true
  · rw [if_pos hall]
    obtain ⟨hsets, hadts⟩ := Bool.and_eq_true_iff.mp hall
    have hready : info.headerPart.ready = true :=
      Bool.and_eq_true_iff.mpr ⟨Bool.or_eq_true_iff.mpr (.inr hsets), hadts⟩
    obtain ⟨s, rfl, hs⟩ := h.store hready
    refine Ends.bind (generateVideoTag_ends _ _ _) fun _ _ _ => ?_
    exact HeaderFirst.of_store hs h.header h.config
  · rw [if_neg hall]
    exact h

theorem sizeFrame_keeps (h : HeaderFirst info.headerPart store) : KeptBy info.sizeFrame store := by
  unfold sizeFrame
  split
  · exact h
  · exact Ends.bind (writeSizes_ends _ _ _) fun _ _ _ => h

theorem putVideoFrame_keeps (h : HeaderFirst info.headerPart store) :
    KeepsHeaderFirst (info.putVideoFrame env) store := by
  unfold putVideoFrame
  refine Emit.Drives.bind (Emit.Drives.lift (sizeFrame_keeps h)) fun i₁ s₁ h₁ => ?_
  refine Emit.Drives.bind (findParameterSets_keeps h₁) fun i₂ s₂ h₂ => ?_
  refine Emit.Drives.bind (Emit.Drives.lift (queueVideoTag_keeps h₂)) fun i₃ s₃ h₃ => ?_
  exact Emit.Drives.pure h₃

theorem putFrameIf_keeps (cond : Bool) (h : HeaderFirst info.headerPart store) :
    KeepsHeaderFirst (info.putFrameIf env cond) store := by
  unfold putFrameIf
  split
  · exact putVideoFrame_keeps h
  · exact Emit.Drives.pure h

theorem appendPayload_keeps (pkt : Rtp) (len offset : Nat)
    (h : HeaderFirst info.headerPart store) : KeptBy (info.appendPayload pkt len offset) store := by
  unfold appendPayload
  exact Ends.bind (appendFrom_ends _ _ _ _ _) fun _ _ _ => h

theorem appendUnit_keeps (pkt : Rtp) (len offset : Nat) (h : HeaderFirst info.headerPart store) :
    KeptBy (info.appendUnit pkt len offset) store := by
  unfold appendUnit
  have hmark : HeaderFirst info.markUnit.headerPart store := h
  exact Ends.bind (appendPayload_keeps pkt len offset hmark) fun _ _ h' => h'

theorem appendFragment_keeps (pkt : Rtp) (len offset : Nat) (indicator : Byte)
    (h : HeaderFirst info.headerPart store) :
    KeptBy (info.appendFragment pkt len offset indicator) store := by
  unfold appendFragment
  refine Ends.bind (readByte_ends _ _) fun fragment _ _ => ?_
  apply appendPayload_keeps
  have hcheck : (info.checkFragment pkt.seq).headerPart = info.headerPart := by
    unfold checkFragment
    split
    · rfl
    · rfl
  split
  · show HeaderFirst (info.checkFragment pkt.seq).headerPart store
    rw [hcheck]
    exact h
  · rw [hcheck]
    exact h

theorem setVideo_keeps (pkt : Rtp) (len offset : Nat) (h : HeaderFirst info.headerPart store) :
    KeepsHeaderFirst (info.setVideo env pkt len offset) store := by
  unfold setVideo
  refine Emit.Drives.bind (P := fun _ s => HeaderFirst info.headerPart s) ?_ fun indicator s hs => ?_
  · apply Emit.Drives.lift
    exact Ends.mono (readByte_ends _ _) fun _ _ _ => h
  refine Emit.Drives.bind (putFrameIf_keeps _ hs) fun i₁ s₁ h₁ => ?_
  refine Emit.Drives.bind (Emit.Drives.lift ?_) fun i₂ s₂ h₂ => putFrameIf_keeps _ h₂
  split
  · exact appendUnit_keeps pkt len offset h₁
  · exact appendFragment_keeps pkt len offset indicator h₁

/-! ## Audio -/

/-- The first configuration fits into the buffer. -/
theorem config_ne_nil (queued : List Byte) (config : AACConfig) :
    bufferAppend configBufferSize queued config.buildAacSpecific ≠ [] := by
  obtain ⟨hpos, hle⟩ := config.length_buildAacSpecific
  by_cases hq : queued = []
  · subst hq
    unfold bufferAppend
    have hfits : ¬ configBufferSize < ([] : List Byte).length + config.buildAacSpecific.length := by
      have hsize : configBufferSize = 4096 := rfl
      rw [List.length_nil, hsize]
      omega
    rw [if_neg hfits]
    exact List.ne_nil_of_length_pos hpos
  · exact bufferAppend_ne_nil hq

theorem reachAdts_keeps (config : AACConfig) (h : HeaderFirst info.headerPart store) :
    KeepsHeaderFirst (info.reachAdts env config) store := by
  unfold reachAdts
  split
  · exact Emit.Drives.pure h
  · apply writeHeader_keeps
    exact ⟨h.headed, h.header, fun _ => config_ne_nil _ _, h.queues⟩

theorem audioHeader_keeps (pkt : Rtp) (len : Nat) (offset : BitVec 32)
    (h : HeaderFirst info.headerPart store) :
    Emit.Drives StreamStore.call StreamStore.HasHeader NoAssert
      (info.audioHeader env pkt len offset) store fun r s => HeaderFirst r.1.headerPart s := by
  unfold audioHeader
  refine Emit.Drives.bind (P := fun _ s => HeaderFirst info.headerPart s) ?_ fun first s hs => ?_
  · apply Emit.Drives.lift
    exact Ends.mono (readByte_ends _ _) fun _ _ _ => h
  split
  · refine Emit.Drives.bind (P := fun i s => HeaderFirst i.headerPart s) ?_ ?_
    · exact reachAdts_keeps _ hs
    · exact fun _ _ h' => Emit.Drives.pure h'
  · refine Emit.Drives.bind (reachAdts_keeps _ hs) ?_
    exact fun _ _ h' => Emit.Drives.pure h'

/-- A tag is passed on, or queued, on a store with a header. -/
theorem passAudio_keeps {s : StreamStore} (hs : s.Headed) (tag : FlvTag)
    (hheader : NamesAudio info.flvHeader.buffer)
    (hconfig : info.isAdtsReach = true → info.aac0Buffer ≠ []) :
    KeepsHeaderFirst (info.passAudio tag) (some s) := by
  unfold passAudio
  split
  · refine Emit.Drives.bind (P := fun _ s' => ∃ st, s' = some st ∧ st.Headed) ?_ ?_
    · exact Emit.Drives.call ⟨s, rfl, hs⟩ (StreamStore.callTag_ends hs tag)
    · intro _ s' hs'
      obtain ⟨st, rfl, hst⟩ := hs'
      exact Emit.Drives.pure (HeaderFirst.of_store hst hheader hconfig)
  · exact Emit.Drives.pure (HeaderFirst.of_store hs hheader hconfig)

theorem audioTag_keeps (pkt : Rtp) (offset len : BitVec 32)
    (h : HeaderFirst info.headerPart store) :
    KeepsHeaderFirst (info.audioTag env pkt offset len) store := by
  unfold audioTag
  by_cases hready : info.ready = true
  · rw [if_pos hready]
    obtain ⟨s, rfl, hs⟩ := h.store hready
    refine Emit.Drives.bind (P := fun _ s' => s' = some s) ?_ fun payload s' hs' => ?_
    · apply Emit.Drives.lift
      exact Ends.mono (slice_ends noAssert_outOfBounds _ _ _) fun _ _ _ => rfl
    · subst hs'
      exact passAudio_keeps hs _ h.header h.config
  · rw [if_neg hready]
    exact Emit.Drives.pure h

theorem noAssert_outOfFuel : NoAssert .outOfFuel := fun h => by cases h

theorem setAudio_keeps (pkt : Rtp) (len fuel : Nat) :
    ∀ {info : Rtp2FlvTransformInfo} {store : Option StreamStore} (offset : BitVec 32),
      HeaderFirst info.headerPart store →
      KeepsHeaderFirst (setAudio env pkt len fuel info offset) store := by
  induction fuel with
  | zero => exact fun _ _ => Emit.Drives.lift noAssert_outOfFuel
  | succ fuel ih =>
    intro info store offset h
    unfold setAudio
    split
    · refine Emit.Drives.bind (audioHeader_keeps pkt len offset h) fun r s hr => ?_
      obtain ⟨i, offset', payloadLen⟩ := r
      refine Emit.Drives.bind (audioTag_keeps pkt offset' payloadLen hr) fun i' s' h' => ?_
      exact ih (offset' + payloadLen) h'
    · exact Emit.Drives.pure h

/-! ## Packets -/

theorem setRtpToBuffer_keeps (pkt : Rtp) (len : Nat) (h : HeaderFirst info.headerPart store) :
    KeepsHeaderFirst (info.setRtpToBuffer env pkt len) store := by
  unfold setRtpToBuffer
  refine Emit.Drives.bind (P := fun _ s => HeaderFirst info.headerPart s) ?_ fun offset s hs => ?_
  · apply Emit.Drives.lift
    unfold payloadOffset
    split
    · split
      · exact noAssert_outOfBounds
      · exact h
    · exact h
  split
  · exact setVideo_keeps pkt len offset hs
  · split
    · exact setAudio_keeps pkt len _ _ hs
    · exact Emit.Drives.pure hs

theorem noAssert_divideByZero : NoAssert .divideByZero := fun h => by cases h

theorem setRTPPacket_ends (j : JitterBuffer) (b : ValidBlock) :
    Ends NoAssert (fun _ => True) (j.setRTPPacket b) := by
  unfold JitterBuffer.setRTPPacket
  split
  · trivial
  · split
    · trivial
    · split
      · trivial
      · unfold JitterBuffer.setNext JitterBuffer.dropLate
        dsimp only
        split
        · split
          · exact noAssert_divideByZero
          · split
            · trivial
            · trivial
        · split
          · trivial
          · trivial

theorem getRTPPacket_ends (j : JitterBuffer) (rule : TopRule) (stray : Seq) :
    Ends NoAssert (fun _ => True) (j.getRTPPacket rule stray) := by
  have htake : Ends NoAssert (fun _ => True) (j.takeOut rule stray) := by
    have hkeeps : ∀ top, Ends NoAssert (fun _ => True) (j.keeps top) := by
      intro top
      unfold JitterBuffer.keeps
      split
      · trivial
      · split
        · exact noAssert_divideByZero
        · trivial
    unfold JitterBuffer.takeOut
    split
    · trivial
    · rename_i top _
      have htop := hkeeps top
      split
      · rename_i e he
        rw [he] at htop
        exact htop
      · trivial
      · trivial
  have hsend : Ends NoAssert (fun _ => True) (j.send rule stray) := by
    unfold JitterBuffer.send
    split
    · trivial
    · cases hr : j.takeOut rule stray with
      | error e =>
        rw [hr] at htake
        exact htake
      | ok r => trivial
  unfold JitterBuffer.getRTPPacket
  cases hr : j.send rule stray with
  | error e =>
    rw [hr] at hsend
    exact hsend
  | ok r => trivial

theorem headerPart_setBuffer (i : Rtp2FlvTransformInfo) (j : JitterBuffer) (track : Track) :
    (i.setBuffer j track).headerPart = i.headerPart := by
  cases track with
  | audio => rfl
  | video => rfl

theorem drain_keeps (track : Track) (fuel : Nat) :
    ∀ {info : Rtp2FlvTransformInfo} {store : Option StreamStore},
      HeaderFirst info.headerPart store →
      KeepsHeaderFirst (drain env track fuel info) store := by
  induction fuel with
  | zero => exact fun _ => Emit.Drives.lift noAssert_outOfFuel
  | succ fuel ih =>
    intro info store h
    unfold drain
    refine Emit.Drives.bind (P := fun _ s => HeaderFirst info.headerPart s) ?_ fun r s hs => ?_
    · apply Emit.Drives.lift
      exact Ends.mono (getRTPPacket_ends _ _ _) fun _ _ _ => h
    obtain ⟨block, j⟩ := r
    have hj : HeaderFirst (info.setBuffer j track).headerPart s := by
      rw [headerPart_setBuffer]
      exact hs
    cases block with
    | none => exact Emit.Drives.pure hj
    | some b => exact Emit.Drives.bind (setRtpToBuffer_keeps _ _ hj) fun i s' h' => ih h'

theorem setBlock_keeps (track : Track) (block : RTPBlock) (h : HeaderFirst info.headerPart store) :
    KeptBy (info.setBlock track block) store := by
  unfold setBlock
  split
  · refine Ends.bind (setRTPPacket_ends _ _) fun j _ _ => ?_
    show HeaderFirst (info.setBuffer j track).headerPart store
    rw [headerPart_setBuffer]
    exact h
  · exact h

theorem setTrack_keeps (track : Track) (pkt : Rtp) (len : Nat)
    (h : HeaderFirst info.headerPart store) :
    KeepsHeaderFirst (info.setTrack env track pkt len) store := by
  unfold setTrack
  refine Emit.Drives.bind (Emit.Drives.lift (setBlock_keeps track _ h)) fun i s hi => ?_
  exact drain_keeps track _ hi

/-- Without a store there is nothing to pass on. -/
theorem setFlvToMm_keeps (h : HeaderFirst info.headerPart store) :
    KeepsHeaderFirst info.setFlvToMm store := by
  unfold setFlvToMm
  cases store with
  | none =>
    obtain ⟨haudio, hvideo⟩ := h.queues rfl
    have hnothing : info.toOutQueues.setFlvToMm info.muxerQueueThreshold =
        (info.toOutQueues, []) := by
      obtain ⟨⟨as, vs, sync⟩, _⟩ := info
      have has : as = [] := haudio
      have hvs : vs = [] := hvideo
      subst has hvs
      unfold OutQueues.setFlvToMm
      dsimp only
      split
      · rfl
      · rfl
    rw [hnothing]
    exact Emit.Drives.pure h
  | some s =>
    refine Emit.Drives.calls (P := fun s' => ∃ st, s' = some st ∧ st.Headed) ?_ ?_
      ⟨s, rfl, h.headed s rfl⟩ ?_
    · intro s' k hk hs'
      obtain ⟨tag, -, rfl⟩ := List.mem_map.mp hk
      exact hs'
    · intro s' k hk hs'
      obtain ⟨tag, -, rfl⟩ := List.mem_map.mp hk
      obtain ⟨st, rfl, hst⟩ := hs'
      exact StreamStore.callTag_ends hst tag
    · intro s' hs'
      obtain ⟨st, rfl, hst⟩ := hs'
      exact HeaderFirst.of_store hst h.header h.config

theorem setRtp_keeps (pkt : Rtp) (len : Nat) (h : HeaderFirst info.headerPart store) :
    KeepsHeaderFirst (info.setRtp env pkt len) store := by
  have hend : ∀ (i : Rtp2FlvTransformInfo) s, HeaderFirst i.headerPart s →
      KeepsHeaderFirst (if i.isAudioOnly = true then pure i else i.setFlvToMm) s := by
    intro i s hi
    split
    · exact Emit.Drives.pure hi
    · exact setFlvToMm_keeps hi
  unfold setRtp
  dsimp only
  split
  · exact Emit.Drives.bind (setTrack_keeps .video pkt len h) hend
  · split
    · exact Emit.Drives.bind (setTrack_keeps .audio pkt len h) hend
    · exact Emit.Drives.bind (Emit.Drives.pure h) hend

/-! ## Session descriptions -/

/-- The description names an AAC stream and nothing else. -/
def loneAac : List SdpMedia → Bool
  | [m] => m.payloadType == RTP_AV_AAC.setWidth 16
  | _ => false

theorem readParameterSets_ends (extraData : List Byte) :
    Ends NoAssert (fun _ => True) (readParameterSets extraData) := by
  refine scanCodes_ends noAssert_outOfBounds (fun _ nal _ _ => ?_) _ _ _ trivial
  split
  · exact noAssert_outOfBounds
  · trivial

/-- One medium: the record turns to audio only where it is the only one. -/
theorem setMedia_keeps {count : Nat} {media : SdpMedia}
    (hlone : info.isAdtsReach = true → store = none →
      ¬ (count = 1 ∧ media.payloadType = RTP_AV_AAC.setWidth 16))
    (h : HeaderFirst info.headerPart store) :
    Ends NoAssert (fun i => HeaderFirst i.headerPart store ∧ i.isAdtsReach = info.isAdtsReach)
      (setMedia count info media) := by
  unfold setMedia
  split
  · refine Ends.bind (readParameterSets_ends _) fun _ _ _ => ?_
    exact ⟨h, rfl⟩
  · split
    · rename_i haac
      refine ⟨⟨⟨h.headed, h.header, h.config, h.queues⟩, fun hnone => ?_⟩, rfl⟩
      have hwaits : ((info.isAudioOnly || (info.isSpsReach && info.isPpsReach)) &&
          info.isAdtsReach) = false := h.waits hnone
      show ((info.isAudioOnly || count == 1 || (info.isSpsReach && info.isPpsReach)) &&
          info.isAdtsReach) = false
      cases hadts : info.isAdtsReach with
      | false => exact Bool.and_false _
      | true =>
        have hcount : (count == 1) = false :=
          beq_eq_false_iff_ne.mpr fun hc => hlone hadts hnone ⟨hc, haac⟩
        rw [hadts] at hwaits
        rw [hcount, Bool.or_false]
        exact hwaits
    · exact ⟨h, rfl⟩

theorem setSdpChar_keeps (sdp : List Byte)
    (hlone : info.isAdtsReach = true → store = none → loneAac (env.parseSdp sdp) = false)
    (h : HeaderFirst info.headerPart store) : KeptBy (info.setSdpChar env sdp) store := by
  unfold setSdpChar
  refine Ends.bind
    (P := fun i => HeaderFirst i.headerPart store ∧ i.isAdtsReach = info.isAdtsReach) ?_
    fun i _ hi => ?_
  · refine Ends.foldlM _ (fun i m hm hi => ?_) ⟨h, rfl⟩
    have hnot : i.isAdtsReach = true → store = none →
        ¬ ((env.parseSdp sdp).length = 1 ∧ m.payloadType = RTP_AV_AAC.setWidth 16) := by
      rintro hadts hnone ⟨hcount, haac⟩
      have hno := hlone (hi.2 ▸ hadts) hnone
      obtain ⟨m', hm'⟩ := List.length_eq_one_iff.mp hcount
      rw [hm'] at hm hno
      rw [List.mem_singleton] at hm
      subst hm
      have hne : (m.payloadType == RTP_AV_AAC.setWidth 16) = false := hno
      rw [haac, beq_self_eq_true] at hne
      cases hne
    exact Ends.mono (setMedia_keeps hnot hi.1) fun i' _ hi' => ⟨hi'.1, hi'.2.trans hi.2⟩
  · exact ⟨⟨hi.1.headed, hi.1.header, hi.1.config, fun _ => ⟨rfl, rfl⟩⟩, hi.1.waits⟩

/-- A record that was just made. -/
theorem new_headerFirst (env : RemuxerEnv) : HeaderFirst (new env).headerPart none where
  headed := fun _ h => by cases h
  header := .inl rfl
  config := fun h => by cases h
  queues := fun _ => ⟨rfl, rfl⟩
  waits := fun _ => rfl

end Rtp2FlvTransformInfo

/-! ## Whole runs -/

namespace FlvServer

/-- Every stream of the server. A stream without a record has no store. -/
structure Headed (env : RemuxerEnv) (w : FlvServer) : Prop where
  first : ∀ id, HeaderFirst (w.getStreamMeta env id).headerPart (w.storeMap id)

/-- A description of AAC alone comes while an AAC configuration was reached and there is no store,
so that no header was written. -/
def turnsAudioOnly (env : RemuxerEnv) (w : FlvServer) : FlvEvent → Bool
  | .setSdpChar id sdp =>
    (w.getStreamMeta env id).isAdtsReach && (w.storeMap id).isNone &&
      Rtp2FlvTransformInfo.loneAac (env.parseSdp sdp)
  | _ => false

/-- Every tag the remuxer hands over in an event comes to a store with a header. -/
def TagsMeetHeader (env : RemuxerEnv) (w : FlvServer) (e : FlvEvent) : Prop :=
  ∀ pre tag post, ((w.getStreamMeta env e.id).handle env e).calls = pre ++ .setFlvTag tag :: post →
    ∀ store, pre.foldlM StreamStore.call (w.storeMap e.id) = .ok store →
      ∃ s, store = some s ∧ s.generator.flvHeader.getD [] ≠ []

variable {env : RemuxerEnv} {w : FlvServer}

/-- What the remuxer does in an event keeps the invariant of the stream. -/
theorem handle_keeps {e : FlvEvent} (h : w.Headed env) (hturn : w.turnsAudioOnly env e = false) :
    KeepsHeaderFirst ((w.getStreamMeta env e.id).handle env e) (w.storeMap e.id) := by
  cases e with
  | setRtp id pkt len => exact Rtp2FlvTransformInfo.setRtp_keeps pkt len (h.first id)
  | setSdpChar id sdp =>
    apply Emit.Drives.lift
    refine Rtp2FlvTransformInfo.setSdpChar_keeps sdp (fun hadts hnone => ?_) (h.first id)
    have hadts' : (w.getStreamMeta env id).isAdtsReach = true := hadts
    have hnone' : w.storeMap id = none := hnone
    simp only [turnsAudioOnly, hadts', hnone'] at hturn
    exact hturn
  | destroyStream id => exact Emit.Drives.pure (h.first id)

theorem getStreamMeta_update (m : StreamId → Option StreamStore) (id : StreamId)
    (info : Option Rtp2FlvTransformInfo) (id' : StreamId) :
    getStreamMeta env { metaMap := Function.update w.metaMap id info, storeMap := m } id' =
      if id' = id then info.getD (.new env) else w.getStreamMeta env id' := by
  unfold getStreamMeta
  by_cases hid : id' = id
  · subst hid
    rw [if_pos rfl]
    exact congrArg (Option.getD · _) (Function.update_self ..)
  · rw [if_neg hid]
    exact congrArg (Option.getD · _) (Function.update_of_ne hid ..)

/-- One stream changes. -/
theorem Headed.update (h : w.Headed env) {id : StreamId} {info : Option Rtp2FlvTransformInfo}
    {store : Option StreamStore}
    (hid : HeaderFirst (info.getD (.new env)).headerPart store) :
    Headed env { metaMap := Function.update w.metaMap id info
                 storeMap := Function.update w.storeMap id store } where
  first := by
    intro id'
    rw [getStreamMeta_update]
    by_cases hne : id' = id
    · subst hne
      rw [if_pos rfl]
      show HeaderFirst _ (Function.update w.storeMap id' store id')
      rw [Function.update_self]
      exact hid
    · rw [if_neg hne]
      show HeaderFirst _ (Function.update w.storeMap id store id')
      rw [Function.update_of_ne hne]
      exact h.first id'

theorem Headed.step {e : FlvEvent} (h : w.Headed env) (hturn : w.turnsAudioOnly env e = false) :
    Ends NoAssert (Headed env) (w.step env e) := by
  have hdeliver : Ends NoAssert (Headed env)
      (w.deliver e.id ((w.getStreamMeta env e.id).handle env e)) := by
    refine Ends.bind (handle_keeps h hturn).2 fun store _ hstore => ?_
    refine Ends.bind hstore fun info _ hinfo => ?_
    exact h.update hinfo
  cases e with
  | setRtp id pkt len => exact hdeliver
  | setSdpChar id sdp => exact hdeliver
  | destroyStream id =>
    show Headed env (w.destroyStream id)
    unfold destroyStream
    split
    · exact h.update (Rtp2FlvTransformInfo.new_headerFirst env)
    · exact h

theorem tagsMeetHeader {e : FlvEvent} (h : w.Headed env) (hturn : w.turnsAudioOnly env e = false) :
    w.TagsMeetHeader env e :=
  fun _ _ _ hcalls _ hstore => (handle_keeps h hturn).1.at_call hcalls hstore

theorem new_headed (env : RemuxerEnv) : Headed env new where
  first := fun _ => Rtp2FlvTransformInfo.new_headerFirst env

end FlvServer

/-- No tag comes before the header, and no assertion fails, in every run in which no description of
AAC alone comes for a stream that has reached its AAC configuration and has no store yet. -/
theorem no_tag_before_header (env : RemuxerEnv) (es : List FlvEvent)
    (h : Along (FlvServer.step env) (fun w e => w.turnsAudioOnly env e = false) FlvServer.new es) :
    FlvServer.new.run env es ≠ .error .assertFailed ∧
      ∀ pre e post w, es = pre ++ e :: post → FlvServer.new.run env pre = .ok w →
        w.TagsMeetHeader env e := by
  have hstep : ∀ (w : FlvServer) e, w.Headed env → w.turnsAudioOnly env e = false →
      Ends NoAssert (FlvServer.Headed env) (w.step env e) := fun _ _ hw he => hw.step he
  refine ⟨fun herror => ?_, fun pre e post w hes hpre => ?_⟩
  · have hrun := h.run hstep (FlvServer.new_headed env)
    unfold FlvServer.run at herror
    rw [herror] at hrun
    exact hrun rfl
  · have hw := (h.prefix_run hstep hes (FlvServer.new_headed env)).of_ok hpre
    exact FlvServer.tagsMeetHeader hw (h.at_call hes hpre)

/-! ## A stream of audio, and a stream that turns to audio -/

/-- `AMF_EncodeNamedNumber` of the double with these bits. -/
def namedNumber (name : String) (bits : BitVec 64) : List Byte :=
  be16 (BitVec.ofNat 16 name.length) ++ ascii name ++
    0 :: (be32 (bits.extractLsb' 32 32) ++ be32 (bits.extractLsb' 0 32))

/-- A string of AMF with its length. -/
def amfString (text : String) : List Byte := be16 (BitVec.ofNat 16 text.length) ++ ascii text

/-- `generate_metadata_tag` for stereo of 44100 Hz without video, whose width and height are -1. -/
def stereoMetadataTag : List Byte :=
  (FlvTag.ofData 0x12 0
    (2 :: amfString "onMetaData" ++ 8 :: be32 14 ++
      namedNumber "duration" 0 ++ namedNumber "fileSize" 0 ++
      namedNumber "width" 0xbff0000000000000 ++ namedNumber "height" 0xbff0000000000000 ++
      amfString "videocodecid" ++ 2 :: amfString "avc1" ++
      namedNumber "videodatarate" 0x407f400000000000 ++
      namedNumber "framerate" 0x402e000000000000 ++
      namedNumber "audiocodecid" 0x4030000000000000 ++
      namedNumber "audiodatarate" 0x4050000000000000 ++
      namedNumber "audiosamplerate" 0x40e5888000000000 ++
      namedNumber "audiosamplesize" 0x4030000000000000 ++
      amfString "stereo" ++ [1, 1] ++ amfString "encoder" ++ 2 :: amfString "LiveStreamSDK 0.1" ++
      [0, 0, 9])).bytes

/-- A description of one AAC stream. -/
def audioSdp : List Byte :=
  ascii "v=0\r\nm=audio 0 RTP/AVP 97\r\na=rtpmap:97 mpeg4-generic/44100/2\r\n"

/-- A description of an H264 stream and an AAC stream. -/
def videoAudioSdp : List Byte :=
  ascii ("v=0\r\nm=video 0 RTP/AVP 96\r\na=rtpmap:96 H264/90000\r\n" ++
    "m=audio 0 RTP/AVP 97\r\na=rtpmap:97 mpeg4-generic/44100/2\r\n")

def aacMedia : SdpMedia :=
  { payloadType := RTP_AV_AAC.setWidth 16, rate := 44100, channels := 2, extraData := [] }

def h264Media : SdpMedia :=
  { payloadType := RTP_AV_H264.setWidth 16, rate := 90000, channels := 0, extraData := [] }

/-- The settings of a server that reads the two descriptions. -/
def stereoEnv : RemuxerEnv where
  enableCheckBrokenFrame := true
  enableUseNaluSplitCode := true
  jitterBufferTime := 50
  muxerQueueThreshold := 0
  parseSdp sdp :=
    if sdp = audioSdp then [aacMedia]
    else if sdp = videoAudioSdp then [h264Media, aacMedia]
    else []
  toMs ts timeBase := ts / (timeBase / 1000)
  headerData := { metadataTag := fun _ _ => stereoMetadataTag, avc0Data := fun _ => none }
  rule := .firstOldest
  stray := 0
  block := []
  unsetTimeBase := 0

/-- An AAC packet with a LATM header. -/
def latmPacket (seq : Seq) : Rtp :=
  { Rtp.zero with payload := RTP_AV_AAC, seq := seq, data := [0, 16, 0, 16, 0x21, 0x10] }

def latmEvent (seq : Seq) : FlvEvent := .setRtp 7 (latmPacket seq) 18

/-- A stream of audio alone, destroyed and published again. -/
def audioTwice : List FlvEvent :=
  [.setSdpChar 7 audioSdp, latmEvent 1, latmEvent 2, .destroyStream 7, .setSdpChar 7 audioSdp,
    latmEvent 1]

theorem no_tag_before_header_audio_twice :
    Along (FlvServer.step stereoEnv) (fun w e => w.turnsAudioOnly stereoEnv e = false)
      FlvServer.new audioTwice ∧
    FlvServer.new.run stereoEnv audioTwice ≠ .error .assertFailed ∧
      ∀ pre e post w, audioTwice = pre ++ e :: post →
        FlvServer.new.run stereoEnv pre = .ok w → w.TagsMeetHeader stereoEnv e :=
  have h : Along (FlvServer.step stereoEnv) (fun w e => w.turnsAudioOnly stereoEnv e = false)
      FlvServer.new audioTwice :=
    Along.of_check (p := fun w e => !w.turnsAudioOnly stereoEnv e)
      (fun _ _ he => by rwa [Bool.not_eq_true'] at he) audioTwice (by decide +kernel)
  ⟨h, no_tag_before_header stereoEnv audioTwice h⟩

/-- A stream of video and audio whose audio comes first is published again with audio alone. -/
def turnsToAudio : List FlvEvent :=
  [.setSdpChar 7 videoAudioSdp, latmEvent 1, .setSdpChar 7 audioSdp, latmEvent 2]

/-- The assertion of `set_flv_tag` fails. -/
theorem tag_without_store :
    FlvServer.new.run stereoEnv turnsToAudio = .error .assertFailed := by
  have hfails : (match FlvServer.new.run stereoEnv turnsToAudio with
      | .ok _ => none
      | .error e => some e) = some .assertFailed := by
    decide +kernel
  cases hrun : FlvServer.new.run stereoEnv turnsToAudio with
  | ok w =>
    rw [hrun] at hfails
    cases hfails
  | error e =>
    rw [hrun] at hfails
    cases hfails
    rfl

end RtcMcu.MediaManager
