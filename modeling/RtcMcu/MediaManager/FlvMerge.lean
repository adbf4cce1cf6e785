import RtcMcu.Lib.Merge
import RtcMcu.MediaManager.Rtp2FlvRemuxer

/-!
# The order of audio and video tags

With a threshold of 0 the tags are passed on in the merge of the two queues by their timestamps, the
video tag first where two are equal, whatever the order in which audio and video come
(`flv_merge_confluent`). The code compares the heads of the queues modulo `2 ^ 32` and a tag with the
last one passed on as plain numbers; below `2 ^ 31` both are the order of the timestamps.
-/

namespace RtcMcu.MediaManager

open RtcMcu.Avformat

/-- The video tag goes first. -/
def videoFirst (video audio : FlvTag) : Bool := decide (video.timestamp ≤ audio.timestamp)

namespace OutQueues

/-- Tags in the order of their timestamps. -/
def Ascending (tags : List FlvTag) : Prop := tags.Pairwise fun t t' => t.timestamp ≤ t'.timestamp

/-- The queues, with the tags still to come, are in order and not below the last tag passed on. -/
structure InOrder (q : OutQueues) (audios videos : List FlvTag) : Prop where
  audio : Ascending (q.audioOutQueue ++ audios)
  video : Ascending (q.videoOutQueue ++ videos)
  audio_range : ∀ t ∈ q.audioOutQueue ++ audios,
    q.outSyncTs ≤ t.timestamp ∧ t.timestamp < 0x80000000
  video_range : ∀ t ∈ q.videoOutQueue ++ videos,
    q.outSyncTs ≤ t.timestamp ∧ t.timestamp < 0x80000000
  data : ∀ t ∈ q.videoOutQueue ++ videos, hasData t = true

/-- Below `2 ^ 31` the comparison of the heads is that of the numbers. -/
theorem audioFirst_eq {a v : FlvTag} (ha : a.timestamp < 0x80000000)
    (hv : v.timestamp < 0x80000000) : audioFirst a v = !videoFirst v a := by
  rw [BitVec.lt_def] at ha hv
  have ha' : a.timestamp.toNat < 2147483648 := ha
  have hv' : v.timestamp.toNat < 2147483648 := hv
  unfold audioFirst videoFirst
  by_cases hle : v.timestamp ≤ a.timestamp
  · rw [decide_eq_true hle]
    by_cases heq : a.timestamp = v.timestamp
    · rw [heq]
      simp
    · have hnot : ¬ v.timestamp - a.timestamp < 0x80000000 := by
        rw [BitVec.le_def] at hle
        rw [BitVec.lt_def, BitVec.toNat_sub]
        have hne : a.timestamp.toNat ≠ v.timestamp.toNat := fun h => heq (BitVec.eq_of_toNat_eq h)
        show ¬ (2 ^ 32 - a.timestamp.toNat + v.timestamp.toNat) % 2 ^ 32 < 2147483648
        omega
      rw [decide_eq_false hnot, Bool.and_false]
      rfl
  · have hlt : v.timestamp - a.timestamp < 0x80000000 := by
      rw [BitVec.le_def] at hle
      rw [BitVec.lt_def, BitVec.toNat_sub]
      show (2 ^ 32 - a.timestamp.toNat + v.timestamp.toNat) % 2 ^ 32 < 2147483648
      omega
    have hne : a.timestamp ≠ v.timestamp := by
      intro h
      rw [h] at hle
      exact hle (BitVec.le_refl _)
    rw [decide_eq_true hlt, decide_eq_false hle, bne_iff_ne.mpr hne]
    rfl

section Round

variable {a v : FlvTag} {as vs audios videos : List FlvTag} {sync : BitVec 32}

/-- The audio head is passed on when the video head is later. -/
theorem InOrder.takeAudio (h : InOrder ⟨a :: as, v :: vs, sync⟩ audios videos)
    (hfirst : videoFirst v a = false) :
    pass ⟨as, v :: vs, sync⟩ a true = (⟨as, v :: vs, a.timestamp⟩, [a]) ∧
      InOrder ⟨as, v :: vs, a.timestamp⟩ audios videos := by
  have hle : a.timestamp ≤ v.timestamp := by
    have hnot := of_decide_eq_false hfirst
    rw [BitVec.le_def] at hnot ⊢
    omega
  obtain ⟨hahead, hatail⟩ := List.pairwise_cons.mp h.audio
  obtain ⟨hvhead, -⟩ := List.pairwise_cons.mp h.video
  refine ⟨?_, ⟨hatail, h.video, fun t ht => ?_, fun t ht => ?_, h.data⟩⟩
  · unfold pass
    exact if_pos ⟨(h.audio_range a List.mem_cons_self).1, rfl⟩
  · exact ⟨hahead t ht, (h.audio_range t (List.mem_cons_of_mem a ht)).2⟩
  · refine ⟨?_, (h.video_range t ht).2⟩
    rcases List.mem_cons.mp ht with rfl | ht
    · exact hle
    · exact BitVec.le_trans hle (hvhead t ht)

/-- The video head is passed on when the audio head is not earlier. -/
theorem InOrder.takeVideo (h : InOrder ⟨a :: as, v :: vs, sync⟩ audios videos)
    (hfirst : videoFirst v a = true) :
    pass ⟨a :: as, vs, sync⟩ v (hasData v) = (⟨a :: as, vs, v.timestamp⟩, [v]) ∧
      InOrder ⟨a :: as, vs, v.timestamp⟩ audios videos := by
  have hle : v.timestamp ≤ a.timestamp := of_decide_eq_true hfirst
  obtain ⟨hahead, -⟩ := List.pairwise_cons.mp h.audio
  obtain ⟨hvhead, hvtail⟩ := List.pairwise_cons.mp h.video
  refine ⟨?_, ⟨h.audio, hvtail, fun t ht => ?_, fun t ht => ?_, fun t ht => ?_⟩⟩
  · unfold pass
    exact if_pos ⟨(h.video_range v List.mem_cons_self).1, h.data v List.mem_cons_self⟩
  · refine ⟨?_, (h.audio_range t ht).2⟩
    rcases List.mem_cons.mp ht with rfl | ht
    · exact hle
    · exact BitVec.le_trans hle (hahead t ht)
  · exact ⟨hvhead t ht, (h.video_range t (List.mem_cons_of_mem v ht)).2⟩
  · exact h.data t (List.mem_cons_of_mem v ht)

end Round

/-- The loop passes on what the merge of the queues takes and leaves what it leaves. -/
theorem merge_eq_cut (fuel : Nat) {as vs audios videos : List FlvTag} {sync : BitVec 32}
    (h : InOrder ⟨as, vs, sync⟩ audios videos) (hfuel : as.length + vs.length ≤ fuel) :
    ∃ sync', merge fuel ⟨as, vs, sync⟩ =
        (⟨(Merge.cut videoFirst vs as).2.2, (Merge.cut videoFirst vs as).2.1, sync'⟩,
          (Merge.cut videoFirst vs as).1) ∧
      InOrder ⟨(Merge.cut videoFirst vs as).2.2, (Merge.cut videoFirst vs as).2.1, sync'⟩
        audios videos := by
  induction fuel generalizing as vs sync with
  | zero =>
    obtain rfl : as = [] := List.length_eq_zero_iff.mp (by omega)
    obtain rfl : vs = [] := List.length_eq_zero_iff.mp (by omega)
    rw [Merge.cut_nil_left]
    exact ⟨sync, rfl, h⟩
  | succ fuel ih =>
    cases vs with
    | nil =>
      rw [Merge.cut_nil_left]
      cases as with
      | nil => exact ⟨sync, rfl, h⟩
      | cons a as => exact ⟨sync, rfl, h⟩
    | cons v vs =>
      cases as with
      | nil =>
        rw [Merge.cut_nil_right]
        exact ⟨sync, rfl, h⟩
      | cons a as =>
        have ha : a.timestamp < 0x80000000 := (h.audio_range a List.mem_cons_self).2
        have hv : v.timestamp < 0x80000000 := (h.video_range v List.mem_cons_self).2
        rw [List.length_cons, List.length_cons] at hfuel
        simp only [merge, audioFirst_eq ha hv]
        cases hfirst : videoFirst v a with
        | true =>
          obtain ⟨hpass, hnext⟩ := h.takeVideo hfirst
          obtain ⟨sync', hmerge, hord⟩ := ih hnext (by rw [List.length_cons]; omega)
          rw [Merge.cut_left _ hfirst]
          simp only [Bool.not_true, Bool.false_eq_true, if_false, hpass, hmerge]
          exact ⟨sync', rfl, hord⟩
        | false =>
          obtain ⟨hpass, hnext⟩ := h.takeAudio hfirst
          obtain ⟨sync', hmerge, hord⟩ := ih hnext (by rw [List.length_cons]; omega)
          rw [Merge.cut_right _ hfirst]
          simp only [Bool.not_false, if_true, hpass, hmerge]
          exact ⟨sync', rfl, hord⟩

end OutQueues

/-! ## Interleavings -/

/-- A tag is appended to one of the queues. -/
inductive Appended
  | audio (tag : FlvTag)
  | video (tag : FlvTag)

/-- The audio tags of an interleaving. -/
def audios : List Appended → List FlvTag
  | [] => []
  | .audio t :: es => t :: audios es
  | .video _ :: es => audios es

/-- The video tags of an interleaving. -/
def videos : List Appended → List FlvTag
  | [] => []
  | .audio _ :: es => videos es
  | .video t :: es => t :: videos es

namespace Rtp2FlvTransformInfo

def append (info : Rtp2FlvTransformInfo) : Appended → Rtp2FlvTransformInfo
  | .audio t => { info with audioOutQueue := info.audioOutQueue ++ [t] }
  | .video t => { info with videoOutQueue := info.videoOutQueue ++ [t] }

/-- The tags are appended one by one, with a call of `_set_flv_to_mm` behind each. -/
def feed (info : Rtp2FlvTransformInfo) : List Appended → Remux Rtp2FlvTransformInfo
  | [] => pure info
  | e :: es => do
    let info ← (info.append e).setFlvToMm
    info.feed es

/-- Appending moves a tag from those to come into its queue. -/
theorem append_inOrder {info : Rtp2FlvTransformInfo} (e : Appended) {es : List Appended}
    (h : info.toOutQueues.InOrder (audios (e :: es)) (videos (e :: es))) :
    (info.append e).toOutQueues.InOrder (audios es) (videos es) := by
  obtain ⟨haudio, hvideo, harange, hvrange, hdata⟩ := h
  cases e with
  | audio t =>
    rw [audios, List.append_cons] at haudio harange
    exact ⟨haudio, hvideo, harange, hvrange, hdata⟩
  | video t =>
    rw [videos, List.append_cons] at hvideo hvrange hdata
    exact ⟨haudio, hvideo, harange, hvrange, hdata⟩

/-- `_set_flv_to_mm` with a threshold of 0. -/
theorem setFlvToMm_eq_cut {info : Rtp2FlvTransformInfo} {audios videos : List FlvTag}
    (hzero : info.muxerQueueThreshold = 0) (h : info.toOutQueues.InOrder audios videos) :
    ∃ info', info.setFlvToMm =
        { calls := (Merge.cut videoFirst info.videoOutQueue info.audioOutQueue).1.map .setFlvTag
          result := .ok info' } ∧
      info'.videoOutQueue = (Merge.cut videoFirst info.videoOutQueue info.audioOutQueue).2.1 ∧
      info'.audioOutQueue = (Merge.cut videoFirst info.videoOutQueue info.audioOutQueue).2.2 ∧
      info'.muxerQueueThreshold = 0 ∧ info'.toOutQueues.InOrder audios videos := by
  obtain ⟨sync', hmerge, hord⟩ := OutQueues.merge_eq_cut _ h (Nat.le_refl _)
  unfold setFlvToMm OutQueues.setFlvToMm
  rw [hzero, if_neg (by decide)]
  dsimp only
  rw [hmerge]
  exact ⟨_, rfl, rfl, rfl, rfl, hord⟩

/-- An interleaving from any queues: what was queued is merged with what comes. -/
theorem feed_eq_cut (es : List Appended) {info : Rtp2FlvTransformInfo}
    (hzero : info.muxerQueueThreshold = 0)
    (h : info.toOutQueues.InOrder (audios es) (videos es))
    (hdry : info.videoOutQueue = [] ∨ info.audioOutQueue = []) :
    ∃ info', info.feed es =
        { calls := (Merge.cut videoFirst (info.videoOutQueue ++ videos es)
            (info.audioOutQueue ++ audios es)).1.map .setFlvTag
          result := .ok info' } ∧
      info'.videoOutQueue = (Merge.cut videoFirst (info.videoOutQueue ++ videos es)
        (info.audioOutQueue ++ audios es)).2.1 ∧
      info'.audioOutQueue = (Merge.cut videoFirst (info.videoOutQueue ++ videos es)
        (info.audioOutQueue ++ audios es)).2.2 := by
  induction es generalizing info with
  | nil =>
    refine ⟨info, ?_⟩
    simp only [audios, videos, List.append_nil]
    rcases hdry with hv | ha
    · rw [hv, Merge.cut_nil_left]
      exact ⟨rfl, rfl, rfl⟩
    · rw [ha, Merge.cut_nil_right]
      exact ⟨rfl, rfl, rfl⟩
  | cons e es ih =>
    have happ := append_inOrder e h
    have hzero' : (info.append e).muxerQueueThreshold = 0 := by
      cases e with
      | audio t => exact hzero
      | video t => exact hzero
    obtain ⟨info₁, hset, hv₁, ha₁, hzero₁, hord₁⟩ := setFlvToMm_eq_cut hzero' happ
    have hdry₁ : info₁.videoOutQueue = [] ∨ info₁.audioOutQueue = [] := by
      rw [hv₁, ha₁]
      exact Merge.cut_dry _ _ _
    obtain ⟨info₂, hfeed, hv₂, ha₂⟩ := ih hzero₁ hord₁ hdry₁
    have hqueues : (info.append e).videoOutQueue ++ videos es =
          info.videoOutQueue ++ videos (e :: es) ∧
        (info.append e).audioOutQueue ++ audios es =
          info.audioOutQueue ++ audios (e :: es) := by
      cases e with
      | audio t => exact ⟨rfl, (List.append_cons _ _ _).symm⟩
      | video t => exact ⟨(List.append_cons _ _ _).symm, rfl⟩
    have hcut := Merge.cut_append videoFirst (info.append e).videoOutQueue
      (info.append e).audioOutQueue (videos es) (audios es)
    rw [hqueues.1, hqueues.2, ← hv₁, ← ha₁] at hcut
    refine ⟨info₂, ?_, ?_, ?_⟩
    · show ((info.append e).setFlvToMm).bind (fun i => i.feed es) = _
      simp only [Emit.bind, hset, hfeed, hcut, List.map_append]
    · rw [hv₂, hcut]
    · rw [ha₂, hcut]

end Rtp2FlvTransformInfo

/-- With a threshold of 0, the tags passed on depend on the audio tags and the video tags alone, not
on how they are interleaved: they are the merge by timestamps, the video tag first where two are
equal, up to where one queue runs dry; the rest of the merge is what is queued. -/
theorem flv_merge_confluent (info : Rtp2FlvTransformInfo) (hzero : info.muxerQueueThreshold = 0)
    (hempty : info.audioOutQueue = [] ∧ info.videoOutQueue = []) (es : List Appended)
    (haudio : OutQueues.Ascending (audios es)) (hvideo : OutQueues.Ascending (videos es))
    (hrange : ∀ t ∈ audios es ++ videos es,
      info.outSyncTs ≤ t.timestamp ∧ t.timestamp < 0x80000000)
    (hdata : ∀ t ∈ videos es, 0 < t.datasize) :
    ∃ info', info.feed es =
        { calls := (Merge.cut videoFirst (videos es) (audios es)).1.map .setFlvTag
          result := .ok info' } ∧
      (Merge.cut videoFirst (videos es) (audios es)).1 ++
          (info'.videoOutQueue ++ info'.audioOutQueue) =
        List.merge (videos es) (audios es) videoFirst ∧
      (info'.videoOutQueue = [] ∨ info'.audioOutQueue = []) := by
  obtain ⟨ha, hv⟩ := hempty
  have hord : info.toOutQueues.InOrder (audios es) (videos es) := by
    refine ⟨?_, ?_, ?_, ?_, ?_⟩
    · rw [ha]
      exact haudio
    · rw [hv]
      exact hvideo
    · rw [ha]
      exact fun t ht => hrange t (List.mem_append_left _ ht)
    · rw [hv]
      exact fun t ht => hrange t (List.mem_append_right _ ht)
    · rw [hv]
      exact fun t ht => decide_eq_true (hdata t ht)
  obtain ⟨info', hfeed, hv', ha'⟩ := Rtp2FlvTransformInfo.feed_eq_cut es hzero hord (.inl hv)
  rw [hv, ha, List.nil_append, List.nil_append] at hfeed hv' ha'
  refine ⟨info', hfeed, ?_, ?_⟩
  · rw [hv', ha']
    exact Merge.cut_merge _ _ _
  · rw [hv', ha']
    exact Merge.cut_dry _ _ _

/-- A stream with nothing queued, and settings that do nothing. -/
def mergeEnv : RemuxerEnv where
  enableCheckBrokenFrame := true
  enableUseNaluSplitCode := true
  jitterBufferTime := 50
  muxerQueueThreshold := 0
  parseSdp _ := []
  toMs ts timeBase := ts / (timeBase / 1000)
  headerData := { metadataTag := fun _ _ => [], avc0Data := fun _ => none }
  rule := .firstOldest
  stray := 0
  block := []
  unsetTimeBase := 0

/-- Two audio tags and two video tags, the second of each with one timestamp. -/
def twoAndTwo : List Appended :=
  [.audio (.ofData FLV_TAG_AUDIO 10 [0xaf, 1]), .audio (.ofData FLV_TAG_AUDIO 40 [0xaf, 1]),
    .video (.ofData FLV_TAG_VIDEO 20 [0x17, 1]), .video (.ofData FLV_TAG_VIDEO 40 [0x27, 1])]

theorem flv_merge_confluent_two_and_two :
    ∃ info', (Rtp2FlvTransformInfo.new mergeEnv).feed twoAndTwo =
        { calls := (Merge.cut videoFirst (videos twoAndTwo) (audios twoAndTwo)).1.map .setFlvTag
          result := .ok info' } ∧
      (Merge.cut videoFirst (videos twoAndTwo) (audios twoAndTwo)).1 ++
          (info'.videoOutQueue ++ info'.audioOutQueue) =
        List.merge (videos twoAndTwo) (audios twoAndTwo) videoFirst ∧
      (info'.videoOutQueue = [] ∨ info'.audioOutQueue = []) :=
  flv_merge_confluent (Rtp2FlvTransformInfo.new mergeEnv) rfl ⟨rfl, rfl⟩ twoAndTwo
    (by unfold OutQueues.Ascending; decide) (by unfold OutQueues.Ascending; decide) (by decide)
    (by decide)

end RtcMcu.MediaManager
