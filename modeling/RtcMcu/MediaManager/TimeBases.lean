import RtcMcu.Avformat.Sdp
import RtcMcu.MediaManager.JitterOrder
import RtcMcu.MediaManager.PayloadBounds
import RtcMcu.MediaManager.Republish

/-!
# The divisors of the jitter buffers

A jitter buffer divides by `_time_base / 1000`, in two places that are reached when packets are
missing. It looks at `_time_base` itself only when a packet is put in. The time base comes from the
clock rate of a description or from the sampling frequency of an ADTS header; `no_division_by_zero`
says which of them make every division safe.

The division by `_time_base` itself, in the log of a packet that comes too late for an empty buffer,
stands behind the test of `SetRTPPacket` that it is not 0.
-/

namespace RtcMcu.MediaManager

open RtcMcu.Coupling
open RtcMcu.Avformat RtcMcu.Avcodec RtcMcu.Fragment

/-- A fault other than a division by zero. -/
def NoDivide (e : Fault) : Prop := e ≠ .divideByZero

theorem noDivide_outOfBounds : NoDivide .outOfBounds := fun h => by cases h

theorem noDivide_outOfFuel : NoDivide .outOfFuel := fun h => by cases h

/-! ## One jitter buffer -/

namespace JitterBuffer

/-- The time base can be divided by, or no packet gets as far as a division; the packets satisfy
`ok`. -/
structure Timed (ok : Rtp → Prop) (j : JitterBuffer) : Prop where
  base : 1000 ≤ j.timeBase.toNat ∨ j.timeBase = 0 ∧ j.state = .init
  packets : ∀ b ∈ j.queue, ok b.rtp

variable {ok : Rtp → Prop} {j : JitterBuffer}

theorem Timed.setFirst (h : j.Timed ok) (hbase : 1000 ≤ j.timeBase.toNat) {b : ValidBlock}
    (hb : ok b.rtp) : (j.setFirst b).Timed ok := by
  obtain ⟨htb, -, hq⟩ := j.setFirst_spec b
  refine ⟨.inl (htb ▸ hbase), ?_⟩
  rcases hq with hq | ⟨hq, -⟩
  · rw [hq]
    exact h.packets
  · rw [hq]
    intro c hc
    rcases List.mem_append.mp hc with hc | hc
    · exact h.packets c hc
    · exact List.mem_singleton.mp hc ▸ hb

theorem Timed.setRTPPacket (h : j.Timed ok) {b : ValidBlock} (hb : ok b.rtp) :
    Ends NoDivide (Timed ok) (j.setRTPPacket b) := by
  unfold JitterBuffer.setRTPPacket
  by_cases hzero : j.timeBase = 0
  case pos =>
    rw [if_pos hzero]
    exact h
  case neg =>
    rw [if_neg hzero]
    have hbase : 1000 ≤ j.timeBase.toNat := by
      rcases h.base with hbase | ⟨hbase, -⟩
      · exact hbase
      · exact absurd hbase hzero
    cases hst : j.state with
    | init => exact h.setFirst hbase hb
    | sending =>
      dsimp only
      split
      · have hreset : ({ j.reset with lastOutBlock := .reset } : JitterBuffer).Timed ok :=
          ⟨.inl hbase, fun c hc => by cases hc⟩
        exact hreset.setFirst hbase hb
      · obtain ⟨j', hj, htb, -, -, hq⟩ := setNext_spec b (div_thousand_ne_zero hbase)
        rw [hj]
        refine ⟨.inl (htb ▸ hbase), fun c hc => ?_⟩
        rcases hq with hq | ⟨hq, -⟩
        · exact h.packets c (hq ▸ hc)
        · rw [hq] at hc
          rcases List.mem_append.mp hc with hc | hc
          · exact h.packets c hc
          · exact List.mem_singleton.mp hc ▸ hb

/-- A reset buffer is safe with every time base that is 0 or large. -/
theorem timed_reset (hbase : j.timeBase = 0 ∨ 1000 ≤ j.timeBase.toNat) : j.reset.Timed ok where
  base := by
    rcases hbase with hbase | hbase
    · exact .inr ⟨hbase, rfl⟩
    · exact .inl hbase
  packets := fun c hc => by cases hc

theorem Timed.base_or (h : j.Timed ok) : j.timeBase = 0 ∨ 1000 ≤ j.timeBase.toNat := by
  rcases h.base with hbase | ⟨hbase, -⟩
  · exact .inr hbase
  · exact .inl hbase

theorem Timed.getRTPPacket (h : j.Timed ok) (rule : TopRule) (stray : Seq) :
    Ends NoDivide (fun r => r.2.Timed ok ∧ ∀ b, r.1 = some b → ok b.rtp)
      (j.getRTPPacket rule stray) := by
  have hsend : ∃ r j', j.send rule stray = .ok (r, j') ∧ j'.Timed ok ∧
      ∀ b, r = some b → ok b.rtp := by
    cases hst : j.state with
    | init =>
      refine ⟨none, j, ?_, h, fun b hb => by cases hb⟩
      rw [send, hst]
    | sending =>
      have hbase : 1000 ≤ j.timeBase.toNat := by
        rcases h.base with hbase | ⟨-, hinit⟩
        · exact hbase
        · rw [hst] at hinit
          cases hinit
      obtain ⟨r, j', hr, hsent⟩ := send_spec rule stray (div_thousand_ne_zero hbase)
      refine ⟨r, j', hr, ⟨.inl (hsent.timeBase ▸ hbase), ?_⟩, ?_⟩
      · exact fun c hc => h.packets c (hsent.queue c hc)
      · exact fun b hb => h.packets b (hsent.given b hb).1
  obtain ⟨r, j', hr, hj', hok⟩ := hsend
  unfold JitterBuffer.getRTPPacket
  rw [hr]
  refine ⟨?_, hok⟩
  dsimp only
  split
  · exact timed_reset hj'.base_or
  · exact hj'

end JitterBuffer

/-! ## The time base of an ADTS header -/

/-- A sampling frequency is 0, for an index that stands for none, or large. -/
theorem sampleFreq_large (h : List Byte) (hne : (AACConfig.parseAdtsHeader h).sampleFreq ≠ 0) :
    1000 ≤ (BitVec.ofNat 32 (AACConfig.parseAdtsHeader h).sampleFreq).toNat := by
  have htable : ∀ i : BitVec 4, aacGetSamplingFrequencyByIndex i.toNat = 0 ∨
      7350 ≤ aacGetSamplingFrequencyByIndex i.toNat ∧
        aacGetSamplingFrequencyByIndex i.toNat ≤ 96000 := by decide
  have hindex := htable ((byteAt h 2).extractLsb' 2 4)
  unfold AACConfig.parseAdtsHeader at hne ⊢
  dsimp only at hne ⊢
  generalize aacGetSamplingFrequencyByIndex _ = freq at hindex hne ⊢
  rw [BitVec.toNat_ofNat]
  split at hne
  case isTrue hle =>
    rw [if_pos hle]
    omega
  case isFalse hle =>
    rw [if_neg hle]
    omega

namespace Rtp2FlvTransformInfo

/-- Reading an AAC payload from `offset` on, the loop comes to a frame at this place. -/
inductive FrameAt (data : List Byte) (offset : BitVec 32) : BitVec 32 → Prop
  | first : FrameAt data offset offset
  | next {o : BitVec 32} (h : FrameAt data offset o) (hlt : o.toNat < data.length)
      (hsync : byteAt data o.toNat = 0xff) :
      FrameAt data offset (o + BitVec.ofNat 32 (adtsLength data o.toNat))

/-- Every ADTS header the loop comes to has a sampling frequency. -/
def Rated (pkt : Rtp) : Prop :=
  pkt.payload = RTP_AV_AAC → ∀ offset, payloadOffset pkt = .ok offset →
    ∀ o, FrameAt pkt.data (BitVec.ofNat 32 offset) o → o.toNat < pkt.data.length →
      byteAt pkt.data o.toNat = 0xff →
      (AACConfig.parseAdtsHeader (pkt.data.drop o.toNat)).sampleFreq ≠ 0

/-- Both jitter buffers are safe. -/
structure Timed (info : Rtp2FlvTransformInfo) : Prop where
  audio : info.audioBuffer.Timed Rated
  video : info.videoBuffer.Timed Rated

/-- The jitter buffers are left as they are, and there is no division by zero. -/
def KeepsBuffers (info : Rtp2FlvTransformInfo) (x : Except Fault Rtp2FlvTransformInfo) : Prop :=
  Ends NoDivide (fun i => i.audioBuffer = info.audioBuffer ∧ i.videoBuffer = info.videoBuffer) x

variable {env : RemuxerEnv} {info : Rtp2FlvTransformInfo}

theorem KeepsBuffers.refl (info : Rtp2FlvTransformInfo) : KeepsBuffers info (.ok info) :=
  ⟨rfl, rfl⟩

theorem KeepsBuffers.bind {x : Except Fault Rtp2FlvTransformInfo}
    {f : Rtp2FlvTransformInfo → Except Fault Rtp2FlvTransformInfo} (hx : KeepsBuffers info x)
    (hf : ∀ i, KeepsBuffers i (f i)) : KeepsBuffers info (x >>= f) := by
  refine Ends.bind hx fun i _ hi => ?_
  exact Ends.mono (hf i) fun i' _ hi' => ⟨hi'.1.trans hi.1, hi'.2.trans hi.2⟩

theorem KeepsBuffers.timed {x : Except Fault Rtp2FlvTransformInfo} (hx : KeepsBuffers info x)
    (h : info.Timed) : Ends NoDivide Timed x :=
  Ends.mono hx fun _ _ hi => ⟨hi.1 ▸ h.audio, hi.2 ▸ h.video⟩

/-! ### Video -/

theorem writeHeader_buffers (info : Rtp2FlvTransformInfo) :
    KeepsBuffers info (info.writeHeader env).result := by
  unfold writeHeader
  split
  · exact ⟨rfl, rfl⟩
  · exact ⟨rfl, rfl⟩

theorem takeParameterSet_buffers (info : Rtp2FlvTransformInfo) (nal : NalUnit)
    (hnal : Ends NoDivide (fun _ => True) nal.bytes) :
    KeepsBuffers info (info.takeParameterSet nal) := by
  have happend : Ends NoDivide (fun _ => True) (info.appendParameterSet nal) := by
    unfold appendParameterSet
    exact Ends.bind hnal fun _ _ _ => trivial
  unfold takeParameterSet
  split
  · exact Ends.bind happend fun _ _ _ => ⟨rfl, rfl⟩
  · split
    · exact Ends.bind happend fun _ _ _ => ⟨rfl, rfl⟩
    · exact KeepsBuffers.refl info

theorem findParameterSets_buffers (info : Rtp2FlvTransformInfo) :
    KeepsBuffers info (info.findParameterSets env).result := by
  unfold findParameterSets
  split
  · exact KeepsBuffers.refl info
  · simp only [Emit.result_bind, Emit.result_lift]
    refine KeepsBuffers.bind ?_ fun i => writeHeader_buffers i
    refine scanNals_ends noDivide_outOfBounds (fun i nal hnal hi => ?_) _ ⟨rfl, rfl⟩
    exact Ends.mono (takeParameterSet_buffers i nal hnal) fun i' _ hi' =>
      ⟨hi'.1.trans hi.1, hi'.2.trans hi.2⟩

theorem generateVideoTag_noDivide (f : FLV) (payload : List Byte) (timestamp : BitVec 32) :
    Ends NoDivide (fun _ => True) (f.generateVideoTag payload timestamp) := by
  unfold FLV.generateVideoTag FLV.generateVideoTagData
  dsimp only
  refine Ends.bind (P := fun _ => True) ?_ fun _ _ _ => trivial
  refine Ends.bind (P := fun _ => True) ?_ fun v _ _ => ?_
  · refine scanNals_ends noDivide_outOfBounds (fun v nal hnal _ => ?_) _ trivial
    unfold FLV.VideoData.add
    split
    · trivial
    · exact Ends.bind hnal fun _ _ _ => trivial
  · cases v.frame with
    | none => trivial
    | some first => trivial

theorem queueVideoTag_buffers (info : Rtp2FlvTransformInfo) :
    KeepsBuffers info (info.queueVideoTag env) := by
  unfold queueVideoTag
  split
  · exact Ends.bind (generateVideoTag_noDivide _ _ _) fun _ _ _ => ⟨rfl, rfl⟩
  · exact KeepsBuffers.refl info

theorem writeSize_noDivide (m : List Byte) (pos : Nat) (size : BitVec 32) :
    Ends NoDivide (fun _ => True) (writeSize m pos size) := by
  unfold writeSize
  split
  · trivial
  · exact noDivide_outOfBounds

theorem writeSizes_noDivide (ps : List Nat) : ∀ (m : List Byte) (last : Option Nat),
    Ends NoDivide (fun _ => True) (writeSizes m last ps) := by
  induction ps with
  | nil =>
    intro m last
    cases last with
    | none => trivial
    | some last =>
      unfold writeSizes
      split
      · exact writeSize_noDivide _ _ _
      · trivial
  | cons pos ps ih =>
    intro m last
    cases last with
    | none => exact ih m (some pos)
    | some last => exact Ends.bind (writeSize_noDivide _ _ _) fun m' _ _ => ih m' (some pos)

theorem sizeFrame_buffers (info : Rtp2FlvTransformInfo) : KeepsBuffers info info.sizeFrame := by
  unfold sizeFrame
  split
  · exact KeepsBuffers.refl info
  · exact Ends.bind (writeSizes_noDivide _ _ _) fun _ _ _ => ⟨rfl, rfl⟩

theorem putFrameIf_buffers (cond : Bool) (info : Rtp2FlvTransformInfo) :
    KeepsBuffers info (info.putFrameIf env cond).result := by
  unfold putFrameIf
  split
  · unfold putVideoFrame
    simp only [Emit.result_bind, Emit.result_lift, Emit.result_pure]
    refine (sizeFrame_buffers info).bind fun i => ?_
    refine (findParameterSets_buffers i).bind fun i => ?_
    exact (queueVideoTag_buffers i).bind fun i => ⟨rfl, rfl⟩
  · exact KeepsBuffers.refl info

theorem readByte_noDivide (m : List Byte) (i : Nat) :
    Ends NoDivide (fun _ => True) (readByte m i) := by
  unfold readByte
  split
  · trivial
  · exact noDivide_outOfBounds

theorem appendPayload_buffers (info : Rtp2FlvTransformInfo) (pkt : Rtp) (len offset : Nat) :
    KeepsBuffers info (info.appendPayload pkt len offset) := by
  unfold appendPayload
  refine Ends.bind (P := fun _ => True) ?_ fun _ _ _ => ⟨rfl, rfl⟩
  unfold appendFrom
  split
  · trivial
  · exact Ends.bind (slice_ends noDivide_outOfBounds _ _ _) fun _ _ _ => trivial

theorem checkFragment_buffers (info : Rtp2FlvTransformInfo) (seq : Seq) :
    (info.checkFragment seq).audioBuffer = info.audioBuffer ∧
      (info.checkFragment seq).videoBuffer = info.videoBuffer := by
  unfold checkFragment
  split
  · exact ⟨rfl, rfl⟩
  · exact ⟨rfl, rfl⟩

theorem appendUnit_buffers (info : Rtp2FlvTransformInfo) (pkt : Rtp) (len offset : Nat) :
    KeepsBuffers info (info.appendUnit pkt len offset) := by
  unfold appendUnit
  refine Ends.bind (appendPayload_buffers info.markUnit pkt len offset) fun i _ hi => ?_
  exact hi

theorem appendFragment_buffers (info : Rtp2FlvTransformInfo) (pkt : Rtp) (len offset : Nat)
    (indicator : Byte) : KeepsBuffers info (info.appendFragment pkt len offset indicator) := by
  obtain ⟨haudio, hvideo⟩ := info.checkFragment_buffers pkt.seq
  unfold appendFragment
  refine Ends.bind (readByte_noDivide _ _) fun fragment _ _ => ?_
  dsimp only
  split
  · exact Ends.mono (appendPayload_buffers _ pkt len (offset + 2)) fun i _ hi =>
      ⟨hi.1.trans haudio, hi.2.trans hvideo⟩
  · exact Ends.mono (appendPayload_buffers _ pkt len (offset + 2)) fun i _ hi =>
      ⟨hi.1.trans haudio, hi.2.trans hvideo⟩

theorem setVideo_buffers (info : Rtp2FlvTransformInfo) (pkt : Rtp) (len offset : Nat) :
    KeepsBuffers info (info.setVideo env pkt len offset).result := by
  unfold setVideo
  simp only [Emit.result_bind, Emit.result_lift]
  refine Ends.bind (readByte_noDivide _ _) fun indicator _ _ => ?_
  refine (putFrameIf_buffers _ info).bind fun i => ?_
  refine KeepsBuffers.bind ?_ fun i => putFrameIf_buffers _ i
  split
  · exact appendUnit_buffers i pkt len offset
  · exact appendFragment_buffers i pkt len offset indicator

/-! ### Audio -/

theorem reachAdts_buffers (info : Rtp2FlvTransformInfo) (config : AACConfig) :
    KeepsBuffers info (info.reachAdts env config).result := by
  unfold reachAdts
  split
  · exact KeepsBuffers.refl info
  · exact Ends.mono (writeHeader_buffers _) fun i _ hi => hi

theorem passAudio_buffers (info : Rtp2FlvTransformInfo) (tag : FlvTag) :
    KeepsBuffers info (info.passAudio tag).result := by
  unfold passAudio
  split
  · exact ⟨rfl, rfl⟩
  · exact ⟨rfl, rfl⟩

theorem audioTag_buffers (info : Rtp2FlvTransformInfo) (pkt : Rtp) (offset len : BitVec 32) :
    KeepsBuffers info (info.audioTag env pkt offset len).result := by
  unfold audioTag
  split
  · simp only [Emit.result_bind, Emit.result_lift]
    refine Ends.bind (slice_ends noDivide_outOfBounds _ _ _) fun payload _ _ => ?_
    exact Ends.mono (passAudio_buffers _ _) fun i _ hi => hi
  · exact KeepsBuffers.refl info

/-- The header of a frame: that of an ADTS frame gives the audio buffer its time base. Behind a LATM
header the packet ends. -/
theorem audioHeader_timed (h : info.Timed) {pkt : Rtp} {len : Nat} {offset : BitVec 32}
    (hrated : offset.toNat < pkt.data.length → byteAt pkt.data offset.toNat = 0xff →
      (AACConfig.parseAdtsHeader (pkt.data.drop offset.toNat)).sampleFreq ≠ 0) :
    Ends NoDivide (fun r : Rtp2FlvTransformInfo × BitVec 32 × BitVec 32 => r.1.Timed ∧
        (offset.toNat < pkt.data.length ∧ byteAt pkt.data offset.toNat = 0xff ∧
            r.2.1 + r.2.2 = offset + BitVec.ofNat 32 (adtsLength pkt.data offset.toNat) ∨
          r.2.1 + r.2.2 = BitVec.ofNat 32 len - BitVec.ofNat 32 rtpHeaderLen))
      (info.audioHeader env pkt len offset).result := by
  unfold audioHeader
  simp only [Emit.result_bind, Emit.result_lift]
  by_cases hlt : offset.toNat < pkt.data.length
  case neg =>
    rw [readByte, dif_neg hlt]
    exact noDivide_outOfBounds
  case pos =>
    rw [readByte_of_lt hlt, ok_bind]
    split
    case isTrue hsync =>
      have hlarge := sampleFreq_large _ (hrated hlt hsync)
      simp only [Emit.result_bind]
      refine Ends.bind (reachAdts_buffers _ _) fun i _ hi => ?_
      have haudio : i.audioBuffer.Timed Rated := by
        rw [hi.1]
        exact ⟨.inl hlarge, h.audio.packets⟩
      refine ⟨⟨haudio, hi.2 ▸ h.video⟩, .inl ⟨hlt, hsync, ?_⟩⟩
      show offset + BitVec.ofNat 32 adtsHeaderSize +
        (BitVec.ofNat 32 (adtsLength pkt.data offset.toNat) - BitVec.ofNat 32 adtsHeaderSize) = _
      rw [BitVec.add_assoc, BitVec.add_comm (BitVec.ofNat 32 adtsHeaderSize), BitVec.sub_add_cancel]
    case isFalse =>
      simp only [Emit.result_bind]
      refine Ends.bind (reachAdts_buffers _ _) fun i _ hi => ?_
      refine ⟨⟨hi.1 ▸ h.audio, hi.2 ▸ h.video⟩, .inr ?_⟩
      show offset + 4 + (BitVec.ofNat 32 len - BitVec.ofNat 32 rtpHeaderLen - (offset + 4)) = _
      rw [BitVec.add_comm, BitVec.sub_add_cancel]

theorem setAudio_timed {pkt : Rtp} {len : Nat} {start : BitVec 32}
    (hrated : ∀ o, FrameAt pkt.data start o → o.toNat < pkt.data.length →
      byteAt pkt.data o.toNat = 0xff →
      (AACConfig.parseAdtsHeader (pkt.data.drop o.toNat)).sampleFreq ≠ 0) (fuel : Nat) :
    ∀ {info : Rtp2FlvTransformInfo} {offset : BitVec 32}, info.Timed →
      (FrameAt pkt.data start offset ∨
        offset = BitVec.ofNat 32 len - BitVec.ofNat 32 rtpHeaderLen) →
      Ends NoDivide Timed (setAudio env pkt len fuel info offset).result := by
  induction fuel with
  | zero => exact fun _ _ => noDivide_outOfFuel
  | succ fuel ih =>
    intro info offset h hat
    unfold setAudio
    split
    case isFalse => exact h
    case isTrue hlt =>
      rcases hat with hat | hend
      case inr =>
        rw [hend] at hlt
        exact absurd hlt (BitVec.lt_irrefl _)
      case inl =>
        simp only [Emit.result_bind]
        refine Ends.bind (audioHeader_timed h (hrated offset hat)) fun r _ hr => ?_
        obtain ⟨i, offset', size⟩ := r
        refine Ends.bind ((audioTag_buffers i pkt offset' size).timed hr.1) fun i' _ hi' => ?_
        apply ih hi'
        rcases hr.2 with ⟨hlt', hsync, hnext⟩ | hnext
        · exact .inl (hnext ▸ hat.next hlt' hsync)
        · exact .inr hnext

/-! ### Packets -/

theorem payloadOffset_noDivide (pkt : Rtp) : Ends NoDivide (fun _ => True) (payloadOffset pkt) := by
  unfold payloadOffset
  split
  · split
    · exact noDivide_outOfBounds
    · trivial
  · trivial

theorem setRtpToBuffer_timed (h : info.Timed) {pkt : Rtp} (hpkt : Rated pkt) (len : Nat) :
    Ends NoDivide Timed (info.setRtpToBuffer env pkt len).result := by
  unfold setRtpToBuffer
  simp only [Emit.result_bind, Emit.result_lift]
  refine Ends.bind (payloadOffset_noDivide pkt) fun offset hoffset _ => ?_
  split
  · exact (setVideo_buffers info pkt len offset).timed h
  · split
    case isTrue hpayload =>
      exact setAudio_timed (hpkt hpayload offset hoffset) _ h (.inl .first)
    case isFalse => exact h

theorem Timed.buffer (h : info.Timed) (track : Track) : (info.buffer track).Timed Rated := by
  cases track with
  | audio => exact h.audio
  | video => exact h.video

theorem Timed.setBuffer (h : info.Timed) {j : JitterBuffer} (hj : j.Timed Rated)
    (track : Track) : (info.setBuffer j track).Timed := by
  cases track with
  | audio => exact ⟨hj, h.video⟩
  | video => exact ⟨h.audio, hj⟩

theorem drain_timed (track : Track) (fuel : Nat) :
    ∀ {info : Rtp2FlvTransformInfo}, info.Timed →
      Ends NoDivide Timed (drain env track fuel info).result := by
  induction fuel with
  | zero => exact fun _ => noDivide_outOfFuel
  | succ fuel ih =>
    intro info h
    unfold drain
    simp only [Emit.result_bind, Emit.result_lift]
    refine Ends.bind ((h.buffer track).getRTPPacket _ _) fun r _ hr => ?_
    obtain ⟨block, j⟩ := r
    have hi := h.setBuffer hr.1 track
    cases block with
    | none => exact hi
    | some b =>
      simp only [Emit.result_bind]
      exact Ends.bind (setRtpToBuffer_timed hi (hr.2 b rfl) _) fun i _ hi' => ih hi'

theorem setTrack_timed (h : info.Timed) (track : Track) {pkt : Rtp} {len : Nat}
    (hpkt : Rated (pkt.copy len)) : Ends NoDivide Timed (info.setTrack env track pkt len).result := by
  unfold setTrack setBlock
  simp only [Emit.result_bind, Emit.result_lift]
  refine Ends.bind ?_ fun i _ hi => drain_timed track _ hi
  split
  case isFalse => exact h
  case isTrue hvalid =>
    have hrtp : ValidBlock.rtp ⟨RTPBlock.new (some pkt) len, hvalid⟩ = pkt.copy len := by
      unfold ValidBlock.rtp
      unfold RTPBlock.new RTPBlock.set at hvalid ⊢
      dsimp only at hvalid ⊢
      split at hvalid
      case isTrue => cases hvalid
      case isFalse hfits =>
        simp only [if_neg hfits, Option.get_some]
    refine Ends.bind ((h.buffer track).setRTPPacket (hrtp ▸ hpkt)) fun j _ hj => ?_
    exact h.setBuffer hj track

theorem setFlvToMm_buffers (info : Rtp2FlvTransformInfo) :
    KeepsBuffers info info.setFlvToMm.result := ⟨rfl, rfl⟩

theorem setRtp_timed (h : info.Timed) {pkt : Rtp} {len : Nat} (hpkt : Rated (pkt.copy len)) :
    Ends NoDivide Timed (info.setRtp env pkt len).result := by
  have hend : ∀ i : Rtp2FlvTransformInfo, i.Timed →
      Ends NoDivide Timed (if i.isAudioOnly = true then pure i else i.setFlvToMm : Remux _).result := by
    intro i hi
    split
    · exact hi
    · exact (setFlvToMm_buffers i).timed hi
  unfold setRtp
  dsimp only
  split
  · simp only [Emit.result_bind]
    exact Ends.bind (setTrack_timed h .video hpkt) fun i _ hi => hend i hi
  · split
    · simp only [Emit.result_bind]
      exact Ends.bind (setTrack_timed h .audio hpkt) fun i _ hi => hend i hi
    · simp only [Emit.result_bind]
      exact hend info h

/-! ### Session descriptions -/

/-- The clock rate of a medium can be divided by, or is 0. -/
def RatedMedia (media : SdpMedia) : Prop :=
  media.payloadType = RTP_AV_H264.setWidth 16 ∨ media.payloadType = RTP_AV_AAC.setWidth 16 →
    media.rate = 0 ∨ 1000 ≤ media.rate.toNat

/-- What the two time bases are while a description is read. -/
structure Based (info : Rtp2FlvTransformInfo) : Prop where
  audio : info.audioBuffer.timeBase = 0 ∨ 1000 ≤ info.audioBuffer.timeBase.toNat
  video : info.videoBuffer.timeBase = 0 ∨ 1000 ≤ info.videoBuffer.timeBase.toNat

theorem readParameterSets_noDivide (extraData : List Byte) :
    Ends NoDivide (fun _ => True) (readParameterSets extraData) := by
  unfold readParameterSets
  refine scanCodes_ends noDivide_outOfBounds (fun _ nal _ _ => ?_) _ _ _ trivial
  split
  · exact noDivide_outOfBounds
  · trivial

theorem setMedia_based {count : Nat} {media : SdpMedia} (h : info.Based)
    (hmedia : RatedMedia media) : Ends NoDivide Based (setMedia count info media) := by
  unfold setMedia
  split
  case isTrue hvideo =>
    exact Ends.bind (readParameterSets_noDivide _) fun _ _ _ => ⟨h.audio, hmedia (.inl hvideo)⟩
  case isFalse =>
    split
    case isTrue haudio => exact ⟨hmedia (.inr haudio), h.video⟩
    case isFalse => exact h

/-- A description ends with both buffers reset. -/
theorem setSdpChar_timed (h : info.Timed) {sdp : List Byte}
    (hmedias : ∀ m ∈ env.parseSdp sdp, RatedMedia m) :
    Ends NoDivide Timed (info.setSdpChar env sdp) := by
  unfold setSdpChar
  refine Ends.bind (P := Based) ?_ fun i _ hi => ?_
  · exact Ends.foldlM _ (fun i m hm hi => setMedia_based hi (hmedias m hm))
      ⟨h.audio.base_or, h.video.base_or⟩
  · exact ⟨JitterBuffer.timed_reset hi.audio, JitterBuffer.timed_reset hi.video⟩

/-! ### Runs -/

/-- The clock rates of a description are 0 or at least 1000, and so are the sampling frequencies of
the ADTS headers that are read of a packet, except 0. -/
def RatedInput (env : RemuxerEnv) : StreamInput → Prop
  | .rtp pkt len => Rated (pkt.copy len)
  | .sdp text => ∀ m ∈ env.parseSdp text, RatedMedia m

theorem takeInputs_timed (xs : List StreamInput) :
    ∀ {info : Rtp2FlvTransformInfo}, info.Timed → (∀ x ∈ xs, RatedInput env x) →
      Ends NoDivide Timed (takeInputs env xs info).result := by
  induction xs with
  | nil => exact fun h _ => h
  | cons x xs ih =>
    intro info h hxs
    unfold takeInputs
    simp only [Emit.result_bind]
    have hx := hxs x List.mem_cons_self
    refine Ends.bind (P := Timed) ?_ fun i _ hi =>
      ih hi fun y hy => hxs y (List.mem_cons_of_mem x hy)
    cases x with
    | rtp pkt len => exact setRtp_timed h hx
    | sdp text => exact setSdpChar_timed h hx

theorem new_timed (env : RemuxerEnv) : (new env).Timed where
  audio := ⟨.inr ⟨rfl, rfl⟩, fun b hb => by cases hb⟩
  video := ⟨.inr ⟨rfl, rfl⟩, fun b hb => by cases hb⟩

/-- No run over descriptions whose clock rates are 0 or at least 1000, and packets whose ADTS headers
name a sampling frequency, divides by zero. -/
theorem no_division_by_zero (env : RemuxerEnv) (xs : List StreamInput)
    (h : ∀ x ∈ xs, RatedInput env x) :
    (takeInputs env xs (new env)).result ≠ .error .divideByZero := by
  have hends := takeInputs_timed xs (new_timed env) h
  intro herror
  rw [herror] at hends
  exact hends rfl

/-! ### Two runs -/

/-- What `parse_sdp_str` finds in a description. -/
def sdpMedias (text : List Byte) : List SdpMedia :=
  match Sdp.parseSdpStr .new (Sdp.cString text) text.length with
  | .error _ => []
  | .ok s => s.mediaInfos.map fun m =>
    { payloadType := m.payloadType, rate := m.rate, channels := m.channels
      extraData := m.extraData }

def serverEnv : RemuxerEnv := { frameEnv with parseSdp := sdpMedias }

/-- An ADTS frame of eight bytes, at 44100 Hz. -/
def adtsPacket : Rtp := aacPacket [0xff, 0xf1, 0x50, 0x80, 0x01, 0x1f, 0xfc, 1]

def ratedRun : List StreamInput :=
  [.sdp (ascii "m=audio 0 RTP/AVP 97\r\na=rtpmap:97 mpeg4-generic/44100/2\r\n"), .rtp adtsPacket 20]

theorem adtsPacket_rated : Rated (adtsPacket.copy 20) := by
  intro _ offset hoffset o hat hlt hsync
  cases hoffset
  have hplace : o = 0 ∨ o = 8 := by
    clear hlt hsync
    induction hat with
    | first => exact .inl rfl
    | next _ hlt _ ih =>
      rcases ih with rfl | rfl
      · exact .inr (by decide)
      · exact absurd hlt (by decide)
  rcases hplace with rfl | rfl
  · decide
  · exact absurd hlt (by decide)

theorem no_division_by_zero_audio :
    (∀ x ∈ ratedRun, RatedInput serverEnv x) ∧
      (takeInputs serverEnv ratedRun (new serverEnv)).result ≠ .error .divideByZero := by
  have hmedias : ((sdpMedias (ascii
      "m=audio 0 RTP/AVP 97\r\na=rtpmap:97 mpeg4-generic/44100/2\r\n")).all
      fun m => decide (1000 ≤ m.rate.toNat)) = true := by decide +kernel
  have hrated : ∀ x ∈ ratedRun, RatedInput serverEnv x := by
    intro x hx
    rcases List.mem_cons.mp hx with rfl | hx
    · exact fun m hm _ => .inr (of_decide_eq_true (List.all_eq_true.mp hmedias m hm))
    · cases List.mem_singleton.mp hx
      exact adtsPacket_rated
  exact ⟨hrated, no_division_by_zero serverEnv ratedRun hrated⟩

/-- A clock rate of 500, and a number that is missing. -/
def slowClock : List StreamInput :=
  [.sdp (ascii "m=video 0 RTP/AVP 96\r\na=rtpmap:96 H264/500\r\n"),
    .rtp { h264Packet [0x41, 1] with seq := 1 } 14,
    .rtp { h264Packet [0x41, 1] with seq := 3 } 14]

theorem slow_clock_divides_by_zero :
    ¬ ∀ (env : RemuxerEnv) (xs : List StreamInput),
      (takeInputs env xs (new env)).result ≠ .error .divideByZero := by
  intro hclaim
  have hends : (match (takeInputs serverEnv slowClock (new serverEnv)).result with
      | .ok _ => none
      | .error e => some e) = some .divideByZero := by
    decide +kernel
  have hno := hclaim serverEnv slowClock
  cases hrun : (takeInputs serverEnv slowClock (new serverEnv)).result with
  | ok info =>
    rw [hrun] at hends
    cases hends
  | error e =>
    rw [hrun] at hends hno
    cases hends
    exact hno rfl

end Rtp2FlvTransformInfo

end RtcMcu.MediaManager
