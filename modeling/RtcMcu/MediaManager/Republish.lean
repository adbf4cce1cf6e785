import RtcMcu.MediaManager.HeaderFirst

/-!
# Publishing a stream again

`set_sdp_char` resets a part of the stream's record. Two histories of one stream that end with the
same description, and agree in what is not reset, give the same tags from then on
(`republish_clean`).

Some of what is not reset never shows: the header and the configurations, the bytes of the last tag
behind the first five, two of the fields of the jitter buffers, and, where broken frames are not
checked, the state of the check. Records that differ in these alone are `Alike`, and every function
of the remuxer keeps them so and makes the same tags of them.
-/

namespace RtcMcu.MediaManager

open RtcMcu.Avformat RtcMcu.Avcodec RtcMcu.Fragment RtcMcu.Coupling

/-! ## Jitter buffers -/

namespace JitterBuffer

/-- The buffer with another longest wait and another time of the last packet given out. -/
def hide (j : JitterBuffer) (maxBufferTime outTime : BitVec 32) : JitterBuffer :=
  { j with
    maxBufferTime := maxBufferTime
    lastOutBlock := { j.lastOutBlock with rtpTime := outTime } }

/-- Two buffers with the duration of the settings that give out the same packets. -/
def Alike (duration : BitVec 32) (j k : JitterBuffer) : Prop :=
  j.bufferDuration = duration ∧ ∃ maxBufferTime outTime, k = j.hide maxBufferTime outTime

variable {duration : BitVec 32} {j k : JitterBuffer}

theorem Alike.setFirst (h : Alike duration j k) (b : ValidBlock) :
    Alike duration (j.setFirst b) (k.setFirst b) := by
  obtain ⟨hd, m, t, rfl⟩ := h
  have htoo : (j.hide m t).tooLate b = j.tooLate b := rfl
  unfold JitterBuffer.setFirst
  rw [htoo]
  split
  · exact ⟨hd, m, t, rfl⟩
  · exact ⟨hd, m, t, rfl⟩

theorem Alike.noteLost (h : Alike duration j k) (b : ValidBlock) :
    Alike duration (j.noteLost b) (k.noteLost b) := by
  obtain ⟨hd, m, t, rfl⟩ := h
  have hlast : (j.hide m t).lastQueueBlock = j.lastQueueBlock := rfl
  unfold JitterBuffer.noteLost
  rw [hlast]
  split
  · exact ⟨hd, m, t, rfl⟩
  · exact ⟨hd, m, t, rfl⟩

/-- What a late packet leaves is one of the fields that do not show. -/
theorem Alike.dropLate (h : Alike duration j k) (b : ValidBlock) :
    Coupled (fun _ => True) (Alike duration) (j.dropLate b) (k.dropLate b) := by
  obtain ⟨hd, m, t, rfl⟩ := h
  have hbase : (j.hide m t).timeBase = j.timeBase := rfl
  unfold JitterBuffer.dropLate
  rw [hbase]
  refine Coupled.ite (fun _ => coupled_error trivial) fun _ => ?_
  dsimp only
  split
  · split
    · exact ⟨hd, _, t, rfl⟩
    · exact ⟨hd, m, t, rfl⟩
  · split
    · exact ⟨hd, _, t, rfl⟩
    · exact ⟨hd, m, t, rfl⟩

theorem Alike.pushNext (h : Alike duration j k) (b : ValidBlock) :
    Alike duration (j.pushNext b) (k.pushNext b) := by
  obtain ⟨hd, m, t, rfl⟩ := h
  have hlost : (j.hide m t).lostQueue = j.lostQueue := rfl
  unfold JitterBuffer.pushNext
  rw [hlost]
  dsimp only
  split
  · exact ⟨hd, m, t, rfl⟩
  · split
    · split
      · exact ⟨hd, m, t, rfl⟩
      · exact ⟨hd, m, t, rfl⟩
    · exact ⟨hd, m, t, rfl⟩

theorem Alike.setNext (h : Alike duration j k) (b : ValidBlock) :
    Coupled (fun _ => True) (Alike duration) (j.setNext b) (k.setNext b) := by
  have hlost := h.noteLost b
  unfold JitterBuffer.setNext
  dsimp only
  generalize j.noteLost b = j' at hlost ⊢
  generalize k.noteLost b = k' at hlost ⊢
  obtain ⟨hd, m, t, rfl⟩ := hlost
  refine Coupled.ite (fun _ => Alike.dropLate ⟨hd, m, t, rfl⟩ b) fun _ => ?_
  refine Coupled.ite (fun _ => ?_) fun _ => ?_
  · obtain ⟨hd', m', t', hk⟩ := Alike.pushNext ⟨hd, m, t, rfl⟩ b
    refine ⟨hd', m', t', ?_⟩
    rw [hk]
    rfl
  · exact ⟨hd, m, t, rfl⟩

theorem Alike.setRTPPacket (h : Alike duration j k) (b : ValidBlock) :
    Coupled (fun _ => True) (Alike duration) (j.setRTPPacket b) (k.setRTPPacket b) := by
  obtain ⟨hd, m, t, rfl⟩ := h
  have hstate : (j.hide m t).state = j.state := rfl
  unfold JitterBuffer.setRTPPacket
  refine Coupled.ite (fun _ => ⟨hd, m, t, rfl⟩) fun _ => ?_
  rw [hstate]
  split
  · exact Alike.setFirst ⟨hd, m, t, rfl⟩ b
  · refine Coupled.ite (fun _ => ?_) fun _ => Alike.setNext ⟨hd, m, t, rfl⟩ b
    have hreset : Alike duration { j.reset with lastOutBlock := .reset }
        { (j.hide m t).reset with lastOutBlock := .reset } := ⟨hd, m, 0, rfl⟩
    exact hreset.setFirst b

theorem Alike.noteOut (h : Alike duration j k) (b : Option ValidBlock) :
    Alike duration (j.noteOut b) (k.noteOut b) := by
  obtain ⟨hd, m, t, rfl⟩ := h
  cases b with
  | none => exact ⟨hd, m, t, rfl⟩
  | some b => exact ⟨hd, m, b.timestamp, rfl⟩

theorem Alike.advance (h : Alike duration j k) (stray : Seq) :
    Alike duration (j.advance stray) (k.advance stray) := by
  obtain ⟨hd, m, t, rfl⟩ := h
  have hout : (j.hide m t).lastOutBlock.seq = j.lastOutBlock.seq := rfl
  have hjitter : (j.hide m t).jitterBlock = j.jitterBlock := rfl
  have hlost : (j.hide m t).lostQueue = j.lostQueue := rfl
  unfold JitterBuffer.advance
  rw [hout, hjitter, hlost]
  split
  · split
    · exact ⟨hd, m, t, rfl⟩
    · exact ⟨hd, m, t, rfl⟩
  · exact ⟨hd, m, t, rfl⟩

theorem Alike.reset (h : Alike duration j k) : Alike duration j.reset k.reset := by
  obtain ⟨hd, m, t, rfl⟩ := h
  exact ⟨hd, m, t, rfl⟩

theorem Alike.takeOut (h : Alike duration j k) (rule : TopRule) (stray : Seq) :
    Coupled (fun _ => True) (fun r s => r.1 = s.1 ∧ Alike duration r.2 s.2)
      (j.takeOut rule stray) (k.takeOut rule stray) := by
  obtain ⟨hd, m, t, rfl⟩ := h
  have hqueue : (j.hide m t).queue = j.queue := rfl
  have hkeeps : ∀ top, (j.hide m t).keeps top = j.keeps top := fun _ => rfl
  unfold JitterBuffer.takeOut
  rw [hqueue]
  split
  · exact ⟨rfl, hd, m, t, rfl⟩
  · rename_i top _
    rw [hkeeps]
    split
    · exact coupled_error trivial
    · exact ⟨rfl, hd, m, t, rfl⟩
    · refine ⟨rfl, ?_⟩
      apply Alike.advance
      apply Alike.noteOut
      exact ⟨hd, m, t, rfl⟩

theorem Alike.getRTPPacket (h : Alike duration j k) (rule : TopRule) (stray : Seq) :
    Coupled (fun _ => True) (fun r s => r.1 = s.1 ∧ Alike duration r.2 s.2)
      (j.getRTPPacket rule stray) (k.getRTPPacket rule stray) := by
  have hsend : Coupled (fun _ => True) (fun r s => r.1 = s.1 ∧ Alike duration r.2 s.2)
      (j.send rule stray) (k.send rule stray) := by
    have htake := h.takeOut rule stray
    obtain ⟨hd, m, t, rfl⟩ := h
    have hstate : (j.hide m t).state = j.state := rfl
    unfold JitterBuffer.send
    rw [hstate]
    split
    · exact ⟨rfl, hd, m, t, rfl⟩
    · refine Coupled.map htake fun r s hrs => ⟨hrs.1, ?_⟩
      obtain ⟨-, hd', m', t', hs⟩ := hrs
      rw [hs]
      exact ⟨hd', m', t', rfl⟩
  unfold JitterBuffer.getRTPPacket
  refine Coupled.map hsend fun r s hrs => ⟨hrs.1, ?_⟩
  have hover : s.2.overfull = r.2.overfull := by
    obtain ⟨-, -, m', t', hs⟩ := hrs
    rw [hs]
    rfl
  show Alike duration (if r.2.overfull = true then r.2.reset else r.2)
    (if s.2.overfull = true then s.2.reset else s.2)
  rw [hover]
  split
  · exact hrs.2.reset
  · exact hrs.2

end JitterBuffer

/-! ## Records -/

/-- The fields that show in part: the memory of the last tag, and the state of the check. -/
structure Shown where
  tempData : List Byte
  lastVideoSeq : Seq
  isCurFrameValied : Bool

/-- Two records show the same: the first five bytes of the last tag, and the state of the check where
broken frames are checked. -/
structure Shown.Fits (check : Bool) (a b : Shown) : Prop where
  five : ∀ n < 5, byteAt b.tempData n = byteAt a.tempData n
  lastVideoSeq : check = true → b.lastVideoSeq = a.lastVideoSeq
  valied : check = true → b.isCurFrameValied = a.isCurFrameValied

/-- The fields of a record that need not agree. -/
structure Hidden where
  flvHeader : FLVHeader
  avc0Buffer : List Byte
  aac0Buffer : List Byte
  audioMaxTime : BitVec 32
  audioOutTime : BitVec 32
  videoMaxTime : BitVec 32
  videoOutTime : BitVec 32
  shown : Shown

/-- What the constructor copies of the settings, and the positions, which the split code mode does
not use. -/
structure Settings where
  muxerQueueThreshold : BitVec 32
  useNaluSplitCode : Bool
  isCheckFrame : Bool
  audioDuration : BitVec 32
  videoDuration : BitVec 32
  videoFrameBufferPos : List Nat

/-- The settings in every record of a server. -/
structure Settings.Of (env : RemuxerEnv) (s : Settings) : Prop where
  threshold : s.muxerQueueThreshold = env.muxerQueueThreshold
  split : s.useNaluSplitCode = env.enableUseNaluSplitCode
  check : s.isCheckFrame = env.enableCheckBrokenFrame
  audioDuration : s.audioDuration = env.jitterBufferTime
  videoDuration : s.videoDuration = env.jitterBufferTime
  pos : s.useNaluSplitCode = true → s.videoFrameBufferPos = []

/-- The tag of a call. -/
def FlvCall.tag : FlvCall → Option FlvTag
  | .setFlvHeader _ _ => none
  | .setFlvTag tag => some tag

namespace Rtp2FlvTransformInfo

/-- The record with other hidden fields. -/
def hide (info : Rtp2FlvTransformInfo) (h : Hidden) : Rtp2FlvTransformInfo :=
  { info with
    flv := { info.flv with tempData := h.shown.tempData }
    flvHeader := h.flvHeader
    avc0Buffer := h.avc0Buffer
    aac0Buffer := h.aac0Buffer
    lastVideoSeq := h.shown.lastVideoSeq
    isCurFrameValied := h.shown.isCurFrameValied
    audioBuffer := info.audioBuffer.hide h.audioMaxTime h.audioOutTime
    videoBuffer := info.videoBuffer.hide h.videoMaxTime h.videoOutTime }

def shown (info : Rtp2FlvTransformInfo) : Shown where
  tempData := info.flv.tempData
  lastVideoSeq := info.lastVideoSeq
  isCurFrameValied := info.isCurFrameValied

def settings (info : Rtp2FlvTransformInfo) : Settings where
  muxerQueueThreshold := info.muxerQueueThreshold
  useNaluSplitCode := info.useNaluSplitCode
  isCheckFrame := info.isCheckFrame
  audioDuration := info.audioBuffer.bufferDuration
  videoDuration := info.videoBuffer.bufferDuration
  videoFrameBufferPos := info.videoFrameBufferPos

/-- Two records of one server that give the same tags. -/
def Alike (env : RemuxerEnv) (i j : Rtp2FlvTransformInfo) : Prop :=
  i.settings.Of env ∧ ∃ h : Hidden, i.shown.Fits i.isCheckFrame h.shown ∧ j = i.hide h

/-- Two programs of the remuxer make the same tags and end with records that do. -/
abbrev SameTags (env : RemuxerEnv) (x y : Remux Rtp2FlvTransformInfo) : Prop :=
  Emit.Agrees FlvCall.tag (Alike env) x y

/-- Two computations without calls end with records that make the same tags. -/
abbrev SameEnd (env : RemuxerEnv) (x y : Except Fault Rtp2FlvTransformInfo) : Prop :=
  Coupled (fun _ => True) (Alike env) x y

variable {env : RemuxerEnv} {i j : Rtp2FlvTransformInfo}

theorem SameTags.ite {c : Prop} [Decidable c] {x x' y y' : Remux Rtp2FlvTransformInfo}
    (h : c → SameTags env x y) (h' : ¬ c → SameTags env x' y') :
    SameTags env (if c then x else x') (if c then y else y') := by
  by_cases hc : c
  · rw [if_pos hc, if_pos hc]
    exact h hc
  · rw [if_neg hc, if_neg hc]
    exact h' hc

/-! ### Video -/

theorem Alike.writeHeader (h : Alike env i j) :
    SameTags env (i.writeHeader env) (j.writeHeader env) := by
  obtain ⟨hs, hid, hf, rfl⟩ := h
  unfold Rtp2FlvTransformInfo.writeHeader
  refine SameTags.ite (fun _ => ?_) fun _ => Emit.Agrees.pure ⟨hs, hid, hf, rfl⟩
  refine Emit.Agrees.bind (R := fun _ _ => True) (Emit.Agrees.call rfl trivial) fun _ _ _ => ?_
  apply Emit.Agrees.pure
  let header := hid.flvHeader.build env.headerData hid.avc0Buffer hid.aac0Buffer
  exact ⟨hs, { hid with flvHeader := header }, hf, rfl⟩

theorem Alike.takeParameterSet (h : Alike env i j) (nal : NalUnit) :
    SameEnd env (i.takeParameterSet nal) (j.takeParameterSet nal) := by
  obtain ⟨hs, hid, hf, rfl⟩ := h
  have happend : Coupled (fun _ => True) (fun _ _ => True) (i.appendParameterSet nal)
      ((i.hide hid).appendParameterSet nal) :=
    Coupled.bind (Coupled.same nal.bytes) fun _ _ _ => trivial
  unfold Rtp2FlvTransformInfo.takeParameterSet
  refine Coupled.ite (fun _ => ?_) fun _ => ?_
  · refine Coupled.bind happend fun a b _ => ?_
    exact ⟨hs, { hid with avc0Buffer := b }, hf, rfl⟩
  · refine Coupled.ite (fun _ => ?_) fun _ => ⟨hs, hid, hf, rfl⟩
    refine Coupled.bind happend fun a b _ => ?_
    exact ⟨hs, { hid with avc0Buffer := b }, hf, rfl⟩

theorem Alike.findParameterSets (h : Alike env i j) :
    SameTags env (i.findParameterSets env) (j.findParameterSets env) := by
  have hsets : ∀ {i j}, Alike env i j → i.hasParameterSets = j.hasParameterSets := by
    rintro i _ ⟨-, _, -, rfl⟩
    rfl
  have hframe : j.videoFrameBuffer = i.videoFrameBuffer := by
    obtain ⟨-, _, -, rfl⟩ := h
    rfl
  unfold Rtp2FlvTransformInfo.findParameterSets
  rw [← hsets h, hframe]
  refine SameTags.ite (fun _ => Emit.Agrees.pure h) fun _ => ?_
  refine Emit.Agrees.bind (R := Alike env) ?_ fun _ _ h' => h'.writeHeader
  apply Emit.Agrees.lift
  exact scanNals_coupled (fun _ _ nal h' => h'.takeParameterSet nal) (fun _ _ h' => hsets h') _ h

end Rtp2FlvTransformInfo

/-! ### Tags -/

/-- The first five bytes of two blocks of memory. -/
def SameFive (m m' : List Byte) : Prop := ∀ n < 5, byteAt m' n = byteAt m n

/-- A tag that is made overwrites the first five bytes. -/
theorem sameFive_write {data : List Byte} (hlen : 1 ≤ data.length) (f g : FLV) :
    SameFive (f.write data).tempData (g.write data).tempData := by
  intro n hn
  have hin : n < (data ++ be32 (BitVec.ofNat 32 (data.length + flvTagLen))).length := by
    rw [List.length_append]
    have h4 : (be32 (BitVec.ofNat 32 (data.length + flvTagLen))).length = 4 := rfl
    omega
  show byteAt (_ ++ _) n = byteAt (_ ++ _) n
  unfold byteAt
  rw [List.getD_eq_getElem?_getD, List.getD_eq_getElem?_getD, List.getElem?_append_left hin,
    List.getElem?_append_left hin]

theorem generateAudioTag_temp (f : FLV) (temp payload : List Byte) (timestamp : BitVec 32) :
    ∃ temp', SameFive (f.generateAudioTag payload timestamp).2.tempData temp' ∧
      ({ f with tempData := temp } : FLV).generateAudioTag payload timestamp =
        ((f.generateAudioTag payload timestamp).1,
          { (f.generateAudioTag payload timestamp).2 with tempData := temp' }) := by
  have hlen : 1 ≤ (FLV.generateAudioTagData payload).length := Nat.succ_pos _
  exact ⟨_, sameFive_write hlen f { f with tempData := temp }, rfl⟩

theorem length_generateVideoTagData (block payload : List Byte) :
    Ends (fun _ => True) (fun data => 1 ≤ data.length)
      (FLV.generateVideoTagData block payload) := by
  unfold FLV.generateVideoTagData
  refine Ends.bind (P := fun _ => True) ?_ fun v _ _ => ?_
  · cases scanNals payload FLV.VideoData.add (fun _ => false) { frame := none, units := [] } with
    | ok v => trivial
    | error e => trivial
  · split
    · rw [ends_ok, List.length_append, List.length_map, List.length_range]
      omega
    · exact Nat.succ_pos _

theorem generateVideoTagData_temp {block temp : List Byte} (h : SameFive block temp)
    (payload : List Byte) :
    FLV.generateVideoTagData temp payload = FLV.generateVideoTagData block payload := by
  have hfive : (List.range 5).map (byteAt temp) = (List.range 5).map (byteAt block) :=
    List.map_congr_left fun n hn => h n (List.mem_range.mp hn)
  unfold FLV.generateVideoTagData
  rw [hfive]

theorem generateVideoTag_temp (f : FLV) {temp : List Byte} (h : SameFive f.tempData temp)
    (payload : List Byte) (timestamp : BitVec 32) :
    Coupled (fun _ => True)
      (fun r r' => r'.1 = r.1 ∧
        ∃ temp', SameFive r.2.tempData temp' ∧ r'.2 = { r.2 with tempData := temp' })
      (f.generateVideoTag payload timestamp)
      (({ f with tempData := temp } : FLV).generateVideoTag payload timestamp) := by
  have hlen := length_generateVideoTagData f.tempData payload
  have hdata := generateVideoTagData_temp h payload
  unfold FLV.generateVideoTag
  dsimp only
  rw [hdata]
  refine Coupled.bind (Ends.coupled hlen) fun data _ hd => ?_
  obtain ⟨rfl, hpos⟩ := hd
  exact ⟨rfl, _, sameFive_write hpos f { f with tempData := temp }, rfl⟩

namespace Rtp2FlvTransformInfo

variable {env : RemuxerEnv} {i j : Rtp2FlvTransformInfo}

/-- Whether the frame is broken shows only where that is checked. -/
theorem frameInvalid_hide {h : Hidden} (hf : i.shown.Fits i.isCheckFrame h.shown) (tag : FlvTag) :
    (i.hide h).frameInvalid tag = i.frameInvalid tag := by
  show ((i.isCheckFrame && !h.shown.isCurFrameValied) || _) = (_ || _)
  cases hcheck : i.isCheckFrame with
  | false => rfl
  | true =>
    rw [hf.valied hcheck]
    rfl

theorem Alike.queueVideoTag (h : Alike env i j) :
    SameEnd env (i.queueVideoTag env) (j.queueVideoTag env) := by
  obtain ⟨hs, hid, hf, rfl⟩ := h
  unfold Rtp2FlvTransformInfo.queueVideoTag
  refine Coupled.ite (fun _ => ?_) fun _ => ⟨hs, hid, hf, rfl⟩
  refine Coupled.bind (generateVideoTag_temp i.flv hf.five _ _) fun r r' hr => ?_
  obtain ⟨tag, flv⟩ := r
  obtain ⟨tag', flv'⟩ := r'
  obtain ⟨rfl, temp, htemp, hflv⟩ := hr
  dsimp only at hflv
  subst hflv
  have hinvalid : ∀ t, ((i.hide hid).videoClock env).frameInvalid t =
      (i.videoClock env).frameInvalid t := frameInvalid_hide hf
  dsimp only
  rw [hinvalid]
  exact ⟨hs, { hid with shown := { hid.shown with tempData := temp } },
    ⟨htemp, hf.lastVideoSeq, hf.valied⟩, rfl⟩

theorem Alike.sizeFrame (h : Alike env i j) : SameEnd env i.sizeFrame j.sizeFrame := by
  obtain ⟨hs, hid, hf, rfl⟩ := h
  unfold Rtp2FlvTransformInfo.sizeFrame
  refine Coupled.ite (fun _ => ⟨hs, hid, hf, rfl⟩) fun _ => ?_
  refine Coupled.bind (Coupled.same _) fun a b hab => ?_
  subst hab
  refine ⟨?_, hid, hf, rfl⟩
  exact ⟨hs.threshold, hs.split, hs.check, hs.audioDuration, hs.videoDuration, fun _ => rfl⟩

theorem Alike.endFrame (h : Alike env i j) : Alike env i.endFrame j.endFrame := by
  obtain ⟨hs, hid, hf, rfl⟩ := h
  refine ⟨⟨hs.threshold, hs.split, hs.check, hs.audioDuration, hs.videoDuration, ?_⟩,
    { hid with shown := { hid.shown with lastVideoSeq := 0, isCurFrameValied := true } },
    ⟨hf.five, fun _ => rfl, fun _ => rfl⟩, rfl⟩
  intro hsplit
  have hcode : i.useNaluSplitCode = true := hsplit
  exact (if_pos hcode).trans (hs.pos hsplit)

theorem Alike.putVideoFrame (h : Alike env i j) :
    SameTags env (i.putVideoFrame env) (j.putVideoFrame env) := by
  unfold Rtp2FlvTransformInfo.putVideoFrame
  refine Emit.Agrees.bind (Emit.Agrees.lift h.sizeFrame) fun _ _ h₁ => ?_
  refine Emit.Agrees.bind h₁.findParameterSets fun _ _ h₂ => ?_
  refine Emit.Agrees.bind (Emit.Agrees.lift h₂.queueVideoTag) fun _ _ h₃ => ?_
  exact Emit.Agrees.pure h₃.endFrame

theorem Alike.putFrameIf (h : Alike env i j) (cond : Bool) :
    SameTags env (i.putFrameIf env cond) (j.putFrameIf env cond) := by
  have hframe : j.videoFrameBuffer = i.videoFrameBuffer := by
    obtain ⟨-, _, -, rfl⟩ := h
    rfl
  unfold Rtp2FlvTransformInfo.putFrameIf
  rw [hframe]
  exact SameTags.ite (fun _ => h.putVideoFrame) fun _ => Emit.Agrees.pure h

theorem Alike.markUnit (h : Alike env i j) : Alike env i.markUnit j.markUnit := by
  obtain ⟨hs, hid, hf, rfl⟩ := h
  refine ⟨⟨hs.threshold, hs.split, hs.check, hs.audioDuration, hs.videoDuration, ?_⟩, hid, hf, rfl⟩
  intro hsplit
  have hcode : i.useNaluSplitCode = true := hsplit
  exact (if_pos hcode).trans (hs.pos hsplit)

theorem Alike.appendPayload (h : Alike env i j) (pkt : Rtp) (len offset : Nat) :
    SameEnd env (i.appendPayload pkt len offset) (j.appendPayload pkt len offset) := by
  obtain ⟨hs, hid, hf, rfl⟩ := h
  unfold Rtp2FlvTransformInfo.appendPayload
  refine Coupled.bind (Coupled.same _) fun a b hab => ?_
  subst hab
  exact ⟨hs, hid, hf, rfl⟩

theorem Alike.appendUnit (h : Alike env i j) (pkt : Rtp) (len offset : Nat) :
    SameEnd env (i.appendUnit pkt len offset) (j.appendUnit pkt len offset) := by
  unfold Rtp2FlvTransformInfo.appendUnit
  refine Coupled.bind (h.markUnit.appendPayload pkt len offset) fun a b hab => ?_
  obtain ⟨hs, hid, hf, rfl⟩ := hab
  exact ⟨hs, hid, hf, rfl⟩

/-- The check shows only where broken frames are checked. -/
theorem Alike.checkFragment (h : Alike env i j) (seq : Seq) :
    Alike env (i.checkFragment seq) (j.checkFragment seq) := by
  obtain ⟨hs, hid, hf, rfl⟩ := h
  unfold Rtp2FlvTransformInfo.checkFragment
  by_cases hcheck : i.isCheckFrame = true
  · have hseq : (i.hide hid).lastVideoSeq = i.lastVideoSeq := hf.lastVideoSeq hcheck
    have hvalied : (i.hide hid).isCurFrameValied = i.isCurFrameValied := hf.valied hcheck
    rw [hseq, hvalied]
    split
    · let valied := i.isCurFrameValied && decide (seq.toNat = i.lastVideoSeq.toNat + 1)
      exact ⟨hs, { hid with shown :=
        { hid.shown with lastVideoSeq := seq, isCurFrameValied := valied } },
        ⟨hf.five, fun _ => rfl, fun _ => rfl⟩, rfl⟩
    · exact ⟨hs, hid, hf, rfl⟩
  · have hfits : ∀ a b : Shown, SameFive a.tempData b.tempData → a.Fits i.isCheckFrame b :=
      fun a b hfive => ⟨hfive, fun h => absurd h hcheck, fun h => absurd h hcheck⟩
    let valied := hid.shown.isCurFrameValied && decide (seq.toNat = hid.shown.lastVideoSeq.toNat + 1)
    let hid' := { hid with shown :=
      { hid.shown with lastVideoSeq := seq, isCurFrameValied := valied } }
    split
    · split
      · exact ⟨hs, hid', hfits _ _ hf.five, rfl⟩
      · exact ⟨hs, hid, hfits _ _ hf.five, rfl⟩
    · split
      · exact ⟨hs, hid', hfits _ _ hf.five, rfl⟩
      · exact ⟨hs, hid, hf, rfl⟩

theorem Alike.startUnit (h : Alike env i j) (pkt : Rtp) (indicator fragment : Byte) :
    Alike env (i.startUnit pkt indicator fragment) (j.startUnit pkt indicator fragment) := by
  have hmark := h.markUnit
  unfold Rtp2FlvTransformInfo.startUnit
  generalize i.markUnit = i' at hmark ⊢
  generalize j.markUnit = j' at hmark ⊢
  obtain ⟨hs, hid, hf, rfl⟩ := hmark
  exact ⟨hs, { hid with shown := { hid.shown with lastVideoSeq := pkt.seq } },
    ⟨hf.five, fun _ => rfl, hf.valied⟩, rfl⟩

theorem Alike.appendFragment (h : Alike env i j) (pkt : Rtp) (len offset : Nat)
    (indicator : Byte) :
    SameEnd env (i.appendFragment pkt len offset indicator)
      (j.appendFragment pkt len offset indicator) := by
  unfold Rtp2FlvTransformInfo.appendFragment
  refine Coupled.bind (Coupled.same _) fun fragment b hab => ?_
  subst hab
  have hcheck := h.checkFragment pkt.seq
  apply Alike.appendPayload
  split
  · exact hcheck.startUnit pkt indicator fragment
  · exact hcheck

theorem Alike.setVideo (h : Alike env i j) (pkt : Rtp) (len offset : Nat) :
    SameTags env (i.setVideo env pkt len offset) (j.setVideo env pkt len offset) := by
  have hts : j.videoFrameTs = i.videoFrameTs := by
    obtain ⟨-, _, -, rfl⟩ := h
    rfl
  unfold Rtp2FlvTransformInfo.setVideo
  rw [hts]
  refine Emit.Agrees.bind (Emit.Agrees.lift (Coupled.same _)) fun indicator b hab => ?_
  subst hab
  refine Emit.Agrees.bind (h.putFrameIf _) fun _ _ h₁ => ?_
  refine Emit.Agrees.bind (R := Alike env) (Emit.Agrees.lift ?_) fun _ _ h₂ => h₂.putFrameIf _
  refine Coupled.ite (fun _ => h₁.appendUnit pkt len offset) fun _ => ?_
  exact h₁.appendFragment pkt len offset indicator

/-! ### Audio -/

theorem Alike.reachAdts (h : Alike env i j) (config : AACConfig) :
    SameTags env (i.reachAdts env config) (j.reachAdts env config) := by
  obtain ⟨hs, hid, hf, rfl⟩ := h
  unfold Rtp2FlvTransformInfo.reachAdts
  refine SameTags.ite (fun _ => Emit.Agrees.pure ⟨hs, hid, hf, rfl⟩) fun _ => ?_
  apply Alike.writeHeader
  let aac0 := bufferAppend configBufferSize hid.aac0Buffer config.buildAacSpecific
  exact ⟨hs, { hid with aac0Buffer := aac0 }, hf, rfl⟩

theorem Alike.audioHeader (h : Alike env i j) (pkt : Rtp) (len : Nat) (offset : BitVec 32) :
    Emit.Agrees FlvCall.tag (fun r r' => Alike env r.1 r'.1 ∧ r.2 = r'.2)
      (i.audioHeader env pkt len offset) (j.audioHeader env pkt len offset) := by
  obtain ⟨hs, hid, hf, rfl⟩ := h
  unfold Rtp2FlvTransformInfo.audioHeader
  refine Emit.Agrees.bind (Emit.Agrees.lift (Coupled.same _)) fun first b hab => ?_
  subst hab
  split
  · refine Emit.Agrees.bind (R := Alike env) ?_ fun _ _ h' => Emit.Agrees.pure ⟨h', rfl⟩
    apply Alike.reachAdts
    exact ⟨⟨hs.threshold, hs.split, hs.check, hs.audioDuration, hs.videoDuration, hs.pos⟩,
      hid, hf, rfl⟩
  · refine Emit.Agrees.bind (R := Alike env) ?_ fun _ _ h' => Emit.Agrees.pure ⟨h', rfl⟩
    exact Alike.reachAdts ⟨hs, hid, hf, rfl⟩ _

theorem Alike.passAudio (h : Alike env i j) (tag : FlvTag) :
    SameTags env (i.passAudio tag) (j.passAudio tag) := by
  obtain ⟨hs, hid, hf, rfl⟩ := h
  unfold Rtp2FlvTransformInfo.passAudio
  refine SameTags.ite (fun _ => ?_) fun _ => Emit.Agrees.pure ⟨hs, hid, hf, rfl⟩
  refine Emit.Agrees.bind (R := fun _ _ => True) (Emit.Agrees.call rfl trivial) fun _ _ _ => ?_
  exact Emit.Agrees.pure ⟨hs, hid, hf, rfl⟩

theorem Alike.audioTag (h : Alike env i j) (pkt : Rtp) (offset len : BitVec 32) :
    SameTags env (i.audioTag env pkt offset len) (j.audioTag env pkt offset len) := by
  obtain ⟨hs, hid, hf, rfl⟩ := h
  unfold Rtp2FlvTransformInfo.audioTag
  refine SameTags.ite (fun _ => ?_) fun _ => Emit.Agrees.pure ⟨hs, hid, hf, rfl⟩
  refine Emit.Agrees.bind (Emit.Agrees.lift (Coupled.same _)) fun payload b hab => ?_
  subst hab
  obtain ⟨temp, htemp, htag⟩ := generateAudioTag_temp i.flv hid.shown.tempData payload
    (env.toMs pkt.timestamp i.audioTimeBase)
  have htag' : ((i.hide hid).audioClock env pkt.timestamp).flv.generateAudioTag payload
      (env.toMs pkt.timestamp ((i.hide hid).audioClock env pkt.timestamp).audioTimeBase) = _ := htag
  dsimp only
  rw [htag']
  apply Alike.passAudio
  exact ⟨hs, { hid with shown := { hid.shown with tempData := temp } },
    ⟨htemp, hf.lastVideoSeq, hf.valied⟩, rfl⟩

theorem alike_setAudio (pkt : Rtp) (len fuel : Nat) :
    ∀ {i j : Rtp2FlvTransformInfo} (offset : BitVec 32), Alike env i j →
      SameTags env (setAudio env pkt len fuel i offset) (setAudio env pkt len fuel j offset) := by
  induction fuel with
  | zero => exact fun _ _ => Emit.Agrees.lift (coupled_error trivial)
  | succ fuel ih =>
    intro i j offset h
    unfold setAudio
    refine SameTags.ite (fun _ => ?_) fun _ => Emit.Agrees.pure h
    refine Emit.Agrees.bind (h.audioHeader pkt len offset) fun r r' hr => ?_
    obtain ⟨i', offset', payloadLen⟩ := r
    obtain ⟨j', rest⟩ := r'
    obtain ⟨h', hrest⟩ := hr
    dsimp only at h' hrest
    subst hrest
    exact Emit.Agrees.bind (h'.audioTag pkt offset' payloadLen) fun _ _ h'' => ih _ h''

/-! ### Packets -/

theorem Alike.setRtpToBuffer (h : Alike env i j) (pkt : Rtp) (len : Nat) :
    SameTags env (i.setRtpToBuffer env pkt len) (j.setRtpToBuffer env pkt len) := by
  unfold Rtp2FlvTransformInfo.setRtpToBuffer
  refine Emit.Agrees.bind (Emit.Agrees.lift (Coupled.same _)) fun offset b hab => ?_
  subst hab
  refine SameTags.ite (fun _ => h.setVideo pkt len offset) fun _ => ?_
  refine SameTags.ite (fun _ => ?_) fun _ => Emit.Agrees.pure h
  exact alike_setAudio pkt len _ _ h

theorem Alike.buffer (h : Alike env i j) (track : Track) :
    JitterBuffer.Alike env.jitterBufferTime (i.buffer track) (j.buffer track) := by
  obtain ⟨hs, hid, hf, rfl⟩ := h
  cases track with
  | audio => exact ⟨hs.audioDuration, hid.audioMaxTime, hid.audioOutTime, rfl⟩
  | video => exact ⟨hs.videoDuration, hid.videoMaxTime, hid.videoOutTime, rfl⟩

theorem Alike.setBuffer (h : Alike env i j) (track : Track) {a b : JitterBuffer}
    (hab : JitterBuffer.Alike env.jitterBufferTime a b) :
    Alike env (i.setBuffer a track) (j.setBuffer b track) := by
  obtain ⟨hs, hid, hf, rfl⟩ := h
  obtain ⟨hd, m, t, rfl⟩ := hab
  cases track with
  | audio =>
    exact ⟨⟨hs.threshold, hs.split, hs.check, hd, hs.videoDuration, hs.pos⟩,
      { hid with audioMaxTime := m, audioOutTime := t }, hf, rfl⟩
  | video =>
    exact ⟨⟨hs.threshold, hs.split, hs.check, hs.audioDuration, hd, hs.pos⟩,
      { hid with videoMaxTime := m, videoOutTime := t }, hf, rfl⟩

theorem alike_drain (track : Track) (fuel : Nat) :
    ∀ {i j : Rtp2FlvTransformInfo}, Alike env i j →
      SameTags env (drain env track fuel i) (drain env track fuel j) := by
  induction fuel with
  | zero => exact fun _ => Emit.Agrees.lift (coupled_error trivial)
  | succ fuel ih =>
    intro i j h
    unfold drain
    refine Emit.Agrees.bind
      (Emit.Agrees.lift ((h.buffer track).getRTPPacket env.rule env.stray)) fun r r' hr => ?_
    obtain ⟨block, a⟩ := r
    obtain ⟨block', b⟩ := r'
    obtain ⟨hblock, hab⟩ := hr
    dsimp only at hblock hab
    subst hblock
    have hset := h.setBuffer track hab
    cases block with
    | none => exact Emit.Agrees.pure hset
    | some b => exact Emit.Agrees.bind (hset.setRtpToBuffer _ _) fun _ _ h' => ih h'

theorem Alike.setBlock (h : Alike env i j) (track : Track) (block : RTPBlock) :
    SameEnd env (i.setBlock track block) (j.setBlock track block) := by
  unfold Rtp2FlvTransformInfo.setBlock
  split
  · refine Coupled.bind ((h.buffer track).setRTPPacket _) fun a b hab => ?_
    exact h.setBuffer track hab
  · exact h

theorem Alike.setTrack (h : Alike env i j) (track : Track) (pkt : Rtp) (len : Nat) :
    SameTags env (i.setTrack env track pkt len) (j.setTrack env track pkt len) := by
  unfold Rtp2FlvTransformInfo.setTrack
  refine Emit.Agrees.bind (Emit.Agrees.lift (h.setBlock track _)) fun i' j' h' => ?_
  have hqueue : (j'.buffer track).queue = (i'.buffer track).queue := by
    obtain ⟨-, m, t, hj⟩ := h'.buffer track
    rw [hj]
    rfl
  rw [hqueue]
  exact alike_drain track _ h'

theorem Alike.setFlvToMm (h : Alike env i j) : SameTags env i.setFlvToMm j.setFlvToMm := by
  obtain ⟨hs, hid, hf, rfl⟩ := h
  exact ⟨rfl, hs, hid, hf, rfl⟩

theorem Alike.setRtp (h : Alike env i j) (pkt : Rtp) (len : Nat) :
    SameTags env (i.setRtp env pkt len) (j.setRtp env pkt len) := by
  have hend : ∀ (i j : Rtp2FlvTransformInfo), Alike env i j →
      SameTags env (if i.isAudioOnly = true then pure i else i.setFlvToMm)
        (if j.isAudioOnly = true then pure j else j.setFlvToMm) := by
    intro i j h
    have honly : j.isAudioOnly = i.isAudioOnly := by
      obtain ⟨-, _, -, rfl⟩ := h
      rfl
    rw [honly]
    exact SameTags.ite (fun _ => Emit.Agrees.pure h) fun _ => h.setFlvToMm
  unfold Rtp2FlvTransformInfo.setRtp
  dsimp only
  refine SameTags.ite (fun _ => Emit.Agrees.bind (h.setTrack .video pkt len) hend) fun _ => ?_
  refine SameTags.ite (fun _ => Emit.Agrees.bind (h.setTrack .audio pkt len) hend) fun _ => ?_
  exact Emit.Agrees.bind (Emit.Agrees.pure h) hend

/-! ### Session descriptions -/

theorem Alike.setMedia (h : Alike env i j) (count : Nat) (media : SdpMedia) :
    SameEnd env (setMedia count i media) (setMedia count j media) := by
  obtain ⟨hs, hid, hf, rfl⟩ := h
  unfold Rtp2FlvTransformInfo.setMedia
  refine Coupled.ite (fun _ => ?_) fun _ => ?_
  · refine Coupled.bind (Coupled.same _) fun _ _ _ => ?_
    exact ⟨hs, hid, hf, rfl⟩
  · refine Coupled.ite (fun _ => ?_) fun _ => ⟨hs, hid, hf, rfl⟩
    exact ⟨hs, hid, hf, rfl⟩

theorem Alike.setSdpChar (h : Alike env i j) (sdp : List Byte) :
    SameEnd env (i.setSdpChar env sdp) (j.setSdpChar env sdp) := by
  unfold Rtp2FlvTransformInfo.setSdpChar
  refine Coupled.bind (Coupled.foldlM _ (fun _ _ m _ h' => h'.setMedia _ m) h) fun i' j' h' => ?_
  obtain ⟨hs, hid, hf, rfl⟩ := h'
  refine ⟨⟨hs.threshold, hs.split, hs.check, hs.audioDuration, hs.videoDuration, ?_⟩, hid, hf, rfl⟩
  intro hsplit
  have hcode : i'.useNaluSplitCode = true := hsplit
  exact (if_pos hcode).trans (hs.pos hsplit)

end Rtp2FlvTransformInfo

/-! ## Histories -/

/-- What comes for a stream while it is not destroyed. -/
inductive StreamInput
  | rtp (pkt : Rtp) (len : Nat)
  | sdp (text : List Byte)

namespace Rtp2FlvTransformInfo

def takeInput (env : RemuxerEnv) (info : Rtp2FlvTransformInfo) :
    StreamInput → Remux Rtp2FlvTransformInfo
  | .rtp pkt len => info.setRtp env pkt len
  | .sdp text => Emit.lift (info.setSdpChar env text)

def takeInputs (env : RemuxerEnv) :
    List StreamInput → Rtp2FlvTransformInfo → Remux Rtp2FlvTransformInfo
  | [], info => pure info
  | x :: xs, info => do
    let info ← info.takeInput env x
    takeInputs env xs info

variable {env : RemuxerEnv} {i j : Rtp2FlvTransformInfo}

theorem Alike.takeInputs (xs : List StreamInput) :
    ∀ {i j : Rtp2FlvTransformInfo}, Alike env i j →
      SameTags env (takeInputs env xs i) (takeInputs env xs j) := by
  induction xs with
  | nil => exact fun h => Emit.Agrees.pure h
  | cons x xs ih =>
    intro i j h
    refine Emit.Agrees.bind (R := Alike env) ?_ fun _ _ h' => ih h'
    cases x with
    | rtp pkt len => exact h.setRtp pkt len
    | sdp text => exact Emit.Agrees.lift (h.setSdpChar text)

/-- The hidden fields of a record. -/
def hiddenPart (info : Rtp2FlvTransformInfo) : Hidden where
  flvHeader := info.flvHeader
  avc0Buffer := info.avc0Buffer
  aac0Buffer := info.aac0Buffer
  audioMaxTime := info.audioBuffer.maxBufferTime
  audioOutTime := info.audioBuffer.lastOutBlock.rtpTime
  videoMaxTime := info.videoBuffer.maxBufferTime
  videoOutTime := info.videoBuffer.lastOutBlock.rtpTime
  shown := info.shown

theorem alike_refl (h : i.settings.Of env) : Alike env i i :=
  ⟨h, i.hiddenPart, ⟨fun _ _ => rfl, fun _ => rfl, fun _ => rfl⟩, rfl⟩

theorem settings_new (env : RemuxerEnv) : (new env).settings.Of env :=
  ⟨rfl, rfl, rfl, rfl, rfl, fun _ => rfl⟩

/-- The settings in a record of the stream, whatever came before. -/
theorem settings_of_inputs {xs : List StreamInput}
    (h : (takeInputs env xs (new env)).result = .ok i) : i.settings.Of env := by
  have hsame := (Alike.takeInputs xs (alike_refl (settings_new env))).2
  rw [h] at hsame
  exact hsame.1

/-! ### What a description does not reset -/

/-- What no description resets. -/
structure Kept where
  initialAudioTs : BitVec 32
  initialVideoTs : BitVec 32
  audioOutSeq : Seq
  videoOutSeq : Seq
  videoFrameTs : BitVec 32
  lastRtpVideoTs : BitVec 32
  lastRtpAudioTs : BitVec 32
  isSpsReach : Bool
  isPpsReach : Bool
  isAdtsReach : Bool
  deriving DecidableEq

def kept (info : Rtp2FlvTransformInfo) : Kept where
  initialAudioTs := info.flv.initialAudioTs
  initialVideoTs := info.flv.initialVideoTs
  audioOutSeq := info.audioBuffer.lastOutBlock.seq
  videoOutSeq := info.videoBuffer.lastOutBlock.seq
  videoFrameTs := info.videoFrameTs
  lastRtpVideoTs := info.lastRtpVideoTs
  lastRtpAudioTs := info.lastRtpAudioTs
  isSpsReach := info.isSpsReach
  isPpsReach := info.isPpsReach
  isAdtsReach := info.isAdtsReach

/-- Two records agree in what a description of these media does not reset or set. -/
structure SameLeftover (count : Nat) (medias : List SdpMedia) (i j : Rtp2FlvTransformInfo) :
    Prop where
  kept : i.kept = j.kept
  fits : i.shown.Fits i.isCheckFrame j.shown
  audioOnly : (count = 1 → ∀ m ∈ medias, m.payloadType ≠ RTP_AV_AAC.setWidth 16) →
    i.isAudioOnly = j.isAudioOnly
  video : (∀ m ∈ medias, m.payloadType ≠ RTP_AV_H264.setWidth 16) →
    i.videoTimeBase = j.videoTimeBase ∧ i.videoBuffer.timeBase = j.videoBuffer.timeBase
  audio : (∀ m ∈ medias, m.payloadType ≠ RTP_AV_AAC.setWidth 16) →
    i.audioTimeBase = j.audioTimeBase ∧ i.audioBuffer.timeBase = j.audioBuffer.timeBase ∧
      i.audioChannel = j.audioChannel

/-- Two records of one server that agree in the last timestamp passed on, and in what a description
leaves. -/
structure Rejoin (env : RemuxerEnv) (count : Nat) (medias : List SdpMedia)
    (i j : Rtp2FlvTransformInfo) : Prop where
  leftover : SameLeftover count medias i j
  outSyncTs : i.outSyncTs = j.outSyncTs
  settings : i.settings.Of env
  settings' : j.settings.Of env

/-- One medium, and the media that are left. -/
theorem Rejoin.setMedia {count : Nat} {media : SdpMedia} {medias : List SdpMedia}
    (h : Rejoin env count (media :: medias) i j) :
    Coupled (fun _ => True) (Rejoin env count medias) (setMedia count i media)
      (setMedia count j media) := by
  obtain ⟨⟨hkept, hfits, honly, hvideo, haudio⟩, hsync, hs, hs'⟩ := h
  have hcons : ∀ {t : BitVec 16}, media.payloadType ≠ t → (∀ m ∈ medias, m.payloadType ≠ t) →
      ∀ m ∈ media :: medias, m.payloadType ≠ t := by
    intro t ht hall m hm
    rcases List.mem_cons.mp hm with rfl | hm
    · exact ht
    · exact hall m hm
  unfold Rtp2FlvTransformInfo.setMedia
  refine Coupled.ite (fun h264 => ?_) fun hno264 => ?_
  · have hnoaac : media.payloadType ≠ RTP_AV_AAC.setWidth 16 := by
      rw [h264]
      decide
    refine Coupled.bind (Coupled.same _) fun _ _ _ => ?_
    exact ⟨⟨hkept, hfits, fun hall => honly fun hc => hcons hnoaac (hall hc),
      fun _ => ⟨rfl, rfl⟩, fun hall => haudio (hcons hnoaac hall)⟩, hsync, hs, hs'⟩
  · refine Coupled.ite (fun haac => ?_) fun hnoaac => ?_
    · refine ⟨⟨hkept, hfits, fun _ => ?_, fun hall => hvideo (hcons hno264 hall),
        fun _ => ⟨rfl, rfl, rfl⟩⟩, hsync, hs, hs'⟩
      show (i.isAudioOnly || count == 1) = (j.isAudioOnly || count == 1)
      by_cases hcount : count = 1
      · rw [beq_iff_eq.mpr hcount, Bool.or_true, Bool.or_true]
      · rw [honly fun hc => absurd hc hcount]
    · exact ⟨⟨hkept, hfits, fun hall => honly fun hc => hcons hnoaac (hall hc),
        fun hall => hvideo (hcons hno264 hall), fun hall => haudio (hcons hnoaac hall)⟩,
        hsync, hs, hs'⟩

theorem Rejoin.setMedias {count : Nat} (medias : List SdpMedia) :
    ∀ {i j : Rtp2FlvTransformInfo}, Rejoin env count medias i j →
      Coupled (fun _ => True) (Rejoin env count [])
        (medias.foldlM (Rtp2FlvTransformInfo.setMedia count) i)
        (medias.foldlM (Rtp2FlvTransformInfo.setMedia count) j) := by
  induction medias with
  | nil => exact fun h => h
  | cons media medias ih =>
    intro i j h
    rw [List.foldlM_cons, List.foldlM_cons]
    exact Coupled.bind h.setMedia fun _ _ h' => ih h'

/-- What is left is reset, or does not show. -/
theorem Rejoin.restart {count : Nat} (h : Rejoin env count [] i j) :
    Alike env i.restart j.restart := by
  obtain ⟨⟨hkept, hfits, honly, hvideo, haudio⟩, hsync, hs, hs'⟩ := h
  have hnone : ∀ {t : BitVec 16}, ∀ m ∈ ([] : List SdpMedia), m.payloadType ≠ t := by
    intro t m hm
    cases hm
  have honly' := honly fun _ => hnone
  obtain ⟨hv₁, hv₂⟩ := hvideo hnone
  obtain ⟨ha₁, ha₂, ha₃⟩ := haudio hnone
  simp only [Rtp2FlvTransformInfo.kept, Kept.mk.injEq] at hkept
  obtain ⟨hk₁, hk₂, hk₃, hk₄, hk₅, hk₆, hk₇, hk₈, hk₉, hk₁₀⟩ := hkept
  have hpos : ∀ {k : Rtp2FlvTransformInfo}, k.settings.Of env →
      (if k.useNaluSplitCode = true then k.videoFrameBufferPos else []) = [] := by
    intro k hk
    split
    · exact hk.pos (by assumption)
    · rfl
  have hcode : i.useNaluSplitCode = j.useNaluSplitCode := hs.split.trans hs'.split.symm
  have hposi : (if j.useNaluSplitCode = true then i.videoFrameBufferPos else []) = [] := by
    rw [← hcode]
    exact hpos hs
  have hcheck : i.isCheckFrame = j.isCheckFrame := hs.check.trans hs'.check.symm
  have hthreshold : i.muxerQueueThreshold = j.muxerQueueThreshold :=
    hs.threshold.trans hs'.threshold.symm
  have had : i.audioBuffer.bufferDuration = j.audioBuffer.bufferDuration :=
    hs.audioDuration.trans hs'.audioDuration.symm
  have hvd : i.videoBuffer.bufferDuration = j.videoBuffer.bufferDuration :=
    hs.videoDuration.trans hs'.videoDuration.symm
  refine ⟨⟨hs.threshold, hs.split, hs.check, hs.audioDuration, hs.videoDuration, fun _ => hpos hs⟩,
    j.hiddenPart, hfits, ?_⟩
  simp only [Rtp2FlvTransformInfo.restart, hide, hiddenPart, Rtp2FlvTransformInfo.shown,
    JitterBuffer.hide, JitterBuffer.reset, hposi, hpos hs', hsync, honly', hv₁, hv₂, ha₁, ha₂,
    ha₃, hk₁, hk₂, hk₃, hk₄, hk₅, hk₆, hk₇, hk₈, hk₉, hk₁₀, hcode, hcheck, hthreshold, had, hvd]

/-- The same description, and whatever comes behind it. -/
theorem Rejoin.inputs {sdp : List Byte}
    (h : Rejoin env (env.parseSdp sdp).length (env.parseSdp sdp) i j) (xs : List StreamInput) :
    SameTags env (takeInputs env (.sdp sdp :: xs) i) (takeInputs env (.sdp sdp :: xs) j) := by
  refine Emit.Agrees.bind (R := Alike env) (Emit.Agrees.lift ?_) fun _ _ h' => h'.takeInputs xs
  exact Coupled.bind (Rejoin.setMedias _ h) fun _ _ h' => h'.restart

end Rtp2FlvTransformInfo

/-- Two histories of a stream that end with one description and the same last timestamp, and agree
in what the description leaves, give the same tags from then on, and end alike. -/
theorem republish_clean (env : RemuxerEnv) (before before' : List StreamInput) (sdp : List Byte)
    (i j : Rtp2FlvTransformInfo)
    (hi : (Rtp2FlvTransformInfo.takeInputs env before (.new env)).result = .ok i)
    (hj : (Rtp2FlvTransformInfo.takeInputs env before' (.new env)).result = .ok j)
    (hsync : i.outSyncTs = j.outSyncTs)
    (hleft : Rtp2FlvTransformInfo.SameLeftover (env.parseSdp sdp).length (env.parseSdp sdp) i j)
    (xs : List StreamInput) :
    (i.takeInputs env (.sdp sdp :: xs)).calls.filterMap FlvCall.tag =
        (j.takeInputs env (.sdp sdp :: xs)).calls.filterMap FlvCall.tag ∧
      (i.takeInputs env (.sdp sdp :: xs)).result.map (fun _ => ()) =
        (j.takeInputs env (.sdp sdp :: xs)).result.map (fun _ => ()) := by
  have hrejoin : Rtp2FlvTransformInfo.Rejoin env (env.parseSdp sdp).length (env.parseSdp sdp) i j :=
    ⟨hleft, hsync, Rtp2FlvTransformInfo.settings_of_inputs hi,
      Rtp2FlvTransformInfo.settings_of_inputs hj⟩
  obtain ⟨hcalls, hresult⟩ := hrejoin.inputs xs
  refine ⟨hcalls, ?_⟩
  cases hx : (i.takeInputs env (.sdp sdp :: xs)).result with
  | ok i' =>
    rw [hx] at hresult
    obtain ⟨j', hj', -⟩ := hresult.of_ok rfl
    rw [hj']
    rfl
  | error e =>
    cases hy : (j.takeInputs env (.sdp sdp :: xs)).result with
    | ok j' =>
      rw [hx, hy] at hresult
      exact hresult.elim
    | error e' =>
      rw [hx, hy] at hresult
      rw [hresult.1]

/-! ## Histories of a stream of audio -/

/-- How a history ends. -/
def after (xs : List StreamInput) : Except Fault Rtp2FlvTransformInfo :=
  (Rtp2FlvTransformInfo.takeInputs stereoEnv xs (.new stereoEnv)).result

/-- The record a history leaves. -/
def recordAfter (xs : List StreamInput) : Rtp2FlvTransformInfo :=
  (after xs).toOption.getD (.new stereoEnv)

theorem after_eq {xs : List StreamInput} (h : (after xs).isOk = true) :
    (Rtp2FlvTransformInfo.takeInputs stereoEnv xs (.new stereoEnv)).result =
      .ok (recordAfter xs) := by
  show after xs = .ok ((after xs).toOption.getD _)
  cases hx : after xs with
  | ok i => rfl
  | error e =>
    rw [hx] at h
    cases h

/-- Two packets of audio. -/
def twoPackets : List StreamInput :=
  [.sdp audioSdp, .rtp (latmPacket 1) 18, .rtp (latmPacket 2) 18]

/-- The second of them alone. -/
def secondPacket : List StreamInput := [.sdp audioSdp, .rtp (latmPacket 2) 18]

theorem republish_clean_second_packet :
    (Rtp2FlvTransformInfo.takeInputs stereoEnv twoPackets (.new stereoEnv)).result =
        .ok (recordAfter twoPackets) ∧
      (Rtp2FlvTransformInfo.takeInputs stereoEnv secondPacket (.new stereoEnv)).result =
        .ok (recordAfter secondPacket) ∧
      ((recordAfter twoPackets).takeInputs stereoEnv
          [.sdp audioSdp, .rtp (latmPacket 3) 18]).calls.filterMap FlvCall.tag =
        ((recordAfter secondPacket).takeInputs stereoEnv
          [.sdp audioSdp, .rtp (latmPacket 3) 18]).calls.filterMap FlvCall.tag :=
  have htwo := after_eq (by decide +kernel)
  have hsecond := @after_eq secondPacket (by decide +kernel)
  have hleft : Rtp2FlvTransformInfo.SameLeftover (stereoEnv.parseSdp audioSdp).length
      (stereoEnv.parseSdp audioSdp) (recordAfter twoPackets) (recordAfter secondPacket) :=
    ⟨by decide +kernel, ⟨by decide +kernel, fun _ => by decide +kernel, fun _ => by decide +kernel⟩,
      fun _ => by decide +kernel, fun _ => by decide +kernel, fun _ => by decide +kernel⟩
  ⟨htwo, hsecond,
    (republish_clean stereoEnv twoPackets secondPacket audioSdp _ _ htwo hsecond
      (by decide +kernel) hleft [.rtp (latmPacket 3) 18]).1⟩

/-- A packet numbered below the last one of the publication before is dropped. -/
theorem old_number_drops_packet :
    ¬ ∀ (env : RemuxerEnv) (before before' : List StreamInput) (sdp : List Byte)
      (i j : Rtp2FlvTransformInfo),
      (Rtp2FlvTransformInfo.takeInputs env before (.new env)).result = .ok i →
      (Rtp2FlvTransformInfo.takeInputs env before' (.new env)).result = .ok j →
      i.outSyncTs = j.outSyncTs →
      ∀ packets : List (Rtp × Nat),
        (i.takeInputs env (.sdp sdp :: packets.map fun p => .rtp p.1 p.2)).calls.filterMap
            FlvCall.tag =
          (j.takeInputs env (.sdp sdp :: packets.map fun p => .rtp p.1 p.2)).calls.filterMap
            FlvCall.tag := by
  intro hclaim
  have htags := hclaim stereoEnv [] [.sdp audioSdp, .rtp (latmPacket 5) 18] audioSdp _ _
    (after_eq (by decide +kernel)) (after_eq (by decide +kernel)) (by decide +kernel)
    [(latmPacket 3, 18)]
  have hlength := congrArg List.length htags
  revert hlength
  decide +kernel

end RtcMcu.MediaManager
