import RtcMcu.Avformat.RtpEncAac
import RtcMcu.MediaManager.PayloadBounds

/-!
# An audio frame through RTP

The packet that `RTPEncodeAAC` makes of an audio frame, read by `_set_rtp_to_buffer`. Behind a LATM
header the payload is the rest of the packet. Behind an ADTS header its length is read from the
header, and of that the low eleven bits were written (`aac_round_trip_iff`).
-/

namespace RtcMcu.MediaManager

open RtcMcu.Avformat RtcMcu.Avcodec

/-- The tag that is passed on. -/
def FlvCall.tag? : FlvCall → Option FlvTag
  | .setFlvHeader _ _ => none
  | .setFlvTag tag => some tag

namespace Rtp2FlvTransformInfo

variable {env : RemuxerEnv} {info info' : Rtp2FlvTransformInfo} {pkt : Rtp} {len : Nat}

/-- The program ends, and it makes these tags: it passes them on or queues them. -/
def Makes (info : Rtp2FlvTransformInfo) (x : Remux Rtp2FlvTransformInfo) (tags : List FlvTag)
    (info' : Rtp2FlvTransformInfo) : Prop :=
  x.result = .ok info' ∧ ∃ queued, info'.audioOutQueue = info.audioOutQueue ++ queued ∧
    x.calls.filterMap FlvCall.tag? ++ queued = tags

/-- `_set_rtp_to_buffer` passes exactly these payloads to `generate_audio_tag`, each of which makes a
tag of its payload. -/
def PassesPayloads (env : RemuxerEnv) (info : Rtp2FlvTransformInfo) (pkt : Rtp) (len : Nat)
    (payloads : List (List Byte)) : Prop :=
  ∃ tags info', info.Makes (info.setRtpToBuffer env pkt len) tags info' ∧
    tags.map FlvTag.data = payloads.map FLV.generateAudioTagData

/-- The packet made of a payload gives it back. -/
def RoundTrips (env : RemuxerEnv) (info : Rtp2FlvTransformInfo) (enc : RTPEncodeAAC)
    (payload : enc.Payload) (timestamp : BitVec 32) : Prop :=
  ∃ enc' data, enc.generatePacket payload.bytes timestamp = .ok enc' ∧ enc'.rtpDataVec = [data] ∧
    info.PassesPayloads env data.header data.len.toNat [payload.bytes]

/-! ## What makes no tag -/

/-- The program makes no tag. -/
structure Quiet (info : Rtp2FlvTransformInfo) (x : Remux Rtp2FlvTransformInfo) : Prop where
  calls : x.calls.filterMap FlvCall.tag? = []
  queue : ∀ info', x.result = .ok info' → info'.audioOutQueue = info.audioOutQueue

theorem Quiet.pure (info : Rtp2FlvTransformInfo) : info.Quiet (Pure.pure info) :=
  ⟨rfl, fun info' h => by cases h; rfl⟩

theorem writeHeader_quiet (env : RemuxerEnv) (info : Rtp2FlvTransformInfo) :
    info.Quiet (info.writeHeader env) := by
  unfold writeHeader
  split
  · exact ⟨rfl, fun info' h => by cases h; rfl⟩
  · exact Quiet.pure info

theorem reachAdts_quiet (env : RemuxerEnv) (info : Rtp2FlvTransformInfo) (config : AACConfig) :
    info.Quiet (info.reachAdts env config) := by
  unfold reachAdts
  split
  · exact Quiet.pure info
  · obtain ⟨hcalls, hqueue⟩ := writeHeader_quiet env
      { info with
        aac0Buffer := bufferAppend configBufferSize info.aac0Buffer config.buildAacSpecific
        isAdtsReach := true }
    exact ⟨hcalls, hqueue⟩

theorem Quiet.bind_pure {α : Type} {x : Remux Rtp2FlvTransformInfo} (h : info.Quiet x)
    (f : Rtp2FlvTransformInfo → α) :
    (x >>= fun i => Pure.pure (f i)).calls.filterMap FlvCall.tag? = [] ∧
      ∀ r, (x >>= fun i => Pure.pure (f i)).result = .ok r →
        ∃ i, r = f i ∧ i.audioOutQueue = info.audioOutQueue := by
  cases hx : x.result with
  | error e =>
    rw [Emit.calls_bind_error hx, Emit.result_bind, hx]
    exact ⟨h.calls, fun r hr => by cases hr⟩
  | ok i =>
    rw [Emit.calls_bind_ok hx, Emit.result_bind, hx]
    refine ⟨?_, fun r hr => ?_⟩
    · show (x.calls ++ []).filterMap FlvCall.tag? = []
      rw [List.append_nil, h.calls]
    · cases hr
      exact ⟨i, rfl, h.queue i hx⟩

/-- The header of a frame makes none. -/
theorem audioHeader_quiet (env : RemuxerEnv) (info : Rtp2FlvTransformInfo) (pkt : Rtp) (len : Nat)
    (offset : BitVec 32) :
    (info.audioHeader env pkt len offset).calls.filterMap FlvCall.tag? = [] ∧
      ∀ r, (info.audioHeader env pkt len offset).result = .ok r →
        r.1.audioOutQueue = info.audioOutQueue := by
  have hkept : ∀ {x : Remux Rtp2FlvTransformInfo} {o s : BitVec 32}, info.Quiet x →
      (x >>= fun i => Pure.pure (i, o, s)).calls.filterMap FlvCall.tag? = [] ∧
        ∀ r, (x >>= fun i => Pure.pure (i, o, s)).result = .ok r →
          r.1.audioOutQueue = info.audioOutQueue := by
    intro x o s hx
    obtain ⟨hcalls, hqueue⟩ := hx.bind_pure fun i => (i, o, s)
    refine ⟨hcalls, fun r hr => ?_⟩
    obtain ⟨i, rfl, hi⟩ := hqueue r hr
    exact hi
  unfold audioHeader
  cases readByte pkt.data offset.toNat with
  | error e => exact ⟨rfl, fun r h => by cases h⟩
  | ok first =>
    rw [Emit.lift_ok_bind]
    split
    · obtain ⟨hcalls, hqueue⟩ := reachAdts_quiet env _ _
      exact hkept ⟨hcalls, hqueue⟩
    · exact hkept (reachAdts_quiet env info _)

/-! ## The tag of a frame -/

theorem passAudio_makes (info : Rtp2FlvTransformInfo) (tag : FlvTag) :
    ∃ i, info.Makes (info.passAudio tag) [tag] i := by
  unfold passAudio
  split
  · exact ⟨_, rfl, [], (List.append_nil _).symm, rfl⟩
  · exact ⟨_, rfl, [tag], rfl, rfl⟩

/-- Where tags are made, a frame makes one of its payload. -/
theorem audioTag_makes {offset size : BitVec 32} {payload : List Byte} (hready : info.ready = true)
    (hslice : slice pkt.data offset.toNat size.toNat = .ok payload) :
    ∃ tag i, info.Makes (info.audioTag env pkt offset size) [tag] i ∧
      tag.data = FLV.generateAudioTagData payload := by
  unfold audioTag
  rw [if_pos hready, hslice, Emit.lift_ok_bind]
  obtain ⟨i, hmakes⟩ := passAudio_makes _ _
  exact ⟨_, i, hmakes, rfl⟩

/-- Where none are made, nothing happens. -/
theorem audioTag_of_not_ready {offset size : BitVec 32} (hready : info.ready = false) :
    info.audioTag env pkt offset size = pure info := by
  unfold audioTag
  rw [if_neg (by rw [hready]; exact Bool.false_ne_true)]

/-- A tag is made of a payload inside the packet. -/
theorem slice_of_audioTag {offset size : BitVec 32} (hready : info.ready = true)
    (h : (info.audioTag env pkt offset size).result = .ok info') :
    ∃ payload, slice pkt.data offset.toNat size.toNat = .ok payload := by
  unfold audioTag at h
  rw [if_pos hready] at h
  cases hslice : slice pkt.data offset.toNat size.toNat with
  | ok payload => exact ⟨payload, rfl⟩
  | error e =>
    rw [hslice] at h
    cases h

/-- A tag that was made went to the queue or was passed on; without tags nothing happened. -/
theorem audioTag_queue {offset size : BitVec 32}
    (h : (info.audioTag env pkt offset size).result = .ok info') :
    ∃ queued, info'.audioOutQueue = info.audioOutQueue ++ queued ∧
      (info.ready = false → queued = [] ∧ (info.audioTag env pkt offset size).calls = []) := by
  cases hready : info.ready with
  | false =>
    rw [audioTag_of_not_ready hready] at h ⊢
    cases h
    exact ⟨[], (List.append_nil _).symm, fun _ => ⟨rfl, rfl⟩⟩
  | true =>
    obtain ⟨payload, hslice⟩ := slice_of_audioTag hready h
    obtain ⟨tag, i, ⟨hresult, queued, hqueue, -⟩, -⟩ := @audioTag_makes env _ _ _ _ _ hready hslice
    cases h.symm.trans hresult
    exact ⟨queued, hqueue, fun hnot => nomatch hnot⟩

/-! ## The loop -/

/-- After a header what a tag waits for is there, if the stream has tags at all. -/
theorem audioHeader_ready {offset : BitVec 32} {r : Rtp2FlvTransformInfo × BitVec 32 × BitVec 32}
    (h : (info.audioHeader env pkt len offset).result = .ok r) :
    r.1.ready = info.wantsAudio ∧ r.1.wantsAudio = info.wantsAudio := by
  have hlt : offset.toNat < pkt.data.length := by
    unfold audioHeader at h
    rw [Emit.result_bind, Emit.result_lift] at h
    obtain ⟨first, hfirst, -⟩ := bind_eq_ok.mp h
    exact (readByte_eq_ok hfirst).1
  have hready : ∀ i : Rtp2FlvTransformInfo, i.isAdtsReach = true → i.ready = i.wantsAudio := by
    intro i hadts
    rw [ready, hadts, Bool.and_true, wantsAudio]
  by_cases hsync : byteAt pkt.data offset.toNat = 0xff
  · obtain ⟨i, hresult, hadts, hwants⟩ := audioHeader_adts env info len hlt hsync
    cases h.symm.trans hresult
    exact ⟨(hready i hadts).trans hwants, hwants⟩
  · obtain ⟨i, hresult, hadts, hwants⟩ := audioHeader_latm env info len hlt hsync
    cases h.symm.trans hresult
    exact ⟨(hready i hadts).trans hwants, hwants⟩

/-- A round of the loop that ends without a fault. -/
theorem setAudio_round {fuel : Nat} {offset : BitVec 32}
    (hlt : offset < BitVec.ofNat 32 len - BitVec.ofNat 32 rtpHeaderLen)
    (h : (setAudio env pkt len (fuel + 1) info offset).result = .ok info') :
    ∃ r i, (info.audioHeader env pkt len offset).result = .ok r ∧
      (r.1.audioTag env pkt r.2.1 r.2.2).result = .ok i ∧
      (setAudio env pkt len fuel i (r.2.1 + r.2.2)).result = .ok info' ∧
      (setAudio env pkt len (fuel + 1) info offset).calls =
        (info.audioHeader env pkt len offset).calls ++
          ((r.1.audioTag env pkt r.2.1 r.2.2).calls ++
            (setAudio env pkt len fuel i (r.2.1 + r.2.2)).calls) := by
  have hround : setAudio env pkt len (fuel + 1) info offset =
      (info.audioHeader env pkt len offset >>= fun r =>
        r.1.audioTag env pkt r.2.1 r.2.2 >>= fun i =>
          setAudio env pkt len fuel i (r.2.1 + r.2.2)) := by
    conv_lhs => unfold setAudio
    exact if_pos hlt
  rw [hround] at h ⊢
  rw [Emit.result_bind] at h
  obtain ⟨r, hheader, h⟩ := bind_eq_ok.mp h
  rw [Emit.result_bind] at h
  obtain ⟨i, htag, h⟩ := bind_eq_ok.mp h
  refine ⟨r, i, hheader, htag, h, ?_⟩
  rw [Emit.calls_bind_ok hheader, Emit.calls_bind_ok htag]

/-- The queue only grows, and where no tags are made none is queued or passed on. -/
theorem setAudio_queue (fuel : Nat) : ∀ {info info' : Rtp2FlvTransformInfo} {offset : BitVec 32},
    (setAudio env pkt len fuel info offset).result = .ok info' →
    ∃ queued, info'.audioOutQueue = info.audioOutQueue ++ queued ∧
      (info.wantsAudio = false → queued = [] ∧
        (setAudio env pkt len fuel info offset).calls.filterMap FlvCall.tag? = []) := by
  induction fuel with
  | zero =>
    intro info info' offset h
    cases h
  | succ fuel ih =>
    intro info info' offset h
    by_cases hlt : offset < BitVec.ofNat 32 len - BitVec.ofNat 32 rtpHeaderLen
    · obtain ⟨r, i, hheader, htag, hrest, hcalls⟩ := setAudio_round hlt h
      obtain ⟨hquiet, hkept⟩ := audioHeader_quiet env info pkt len offset
      obtain ⟨hready, hwants⟩ := audioHeader_ready hheader
      obtain ⟨queued, hqueued, htagNone⟩ := audioTag_queue htag
      obtain ⟨later, hlater, hrestNone⟩ := ih hrest
      refine ⟨queued ++ later, ?_, fun hnone => ?_⟩
      · rw [hlater, hqueued, hkept r hheader, List.append_assoc]
      · obtain ⟨hqueuedNil, htagCalls⟩ := htagNone (hready.trans hnone)
        obtain ⟨hlaterNil, hrestCalls⟩ :=
          hrestNone ((audioTag_wantsAudio htag).trans (hwants.trans hnone))
        rw [hcalls, htagCalls, List.nil_append, List.filterMap_append, hquiet, hrestCalls,
          hqueuedNil, hlaterNil]
        exact ⟨rfl, rfl⟩
    · unfold setAudio at h ⊢
      rw [if_neg hlt] at h ⊢
      cases h
      exact ⟨[], (List.append_nil _).symm, fun _ => ⟨rfl, rfl⟩⟩

/-- Among the tags there is one of the first frame. -/
theorem exists_first_tag {fuel : Nat} {offset : BitVec 32} {tags : List FlvTag}
    {r : Rtp2FlvTransformInfo × BitVec 32 × BitVec 32}
    (hlt : offset < BitVec.ofNat 32 len - BitVec.ofNat 32 rtpHeaderLen)
    (hwants : info.wantsAudio = true)
    (hheader : (info.audioHeader env pkt len offset).result = .ok r)
    (h : info.Makes (setAudio env pkt len (fuel + 1) info offset) tags info') :
    ∃ payload, slice pkt.data r.2.1.toNat r.2.2.toNat = .ok payload ∧
      ∃ tag ∈ tags, tag.data = FLV.generateAudioTagData payload := by
  obtain ⟨hresult, queued, hqueued, htags⟩ := h
  obtain ⟨r', i, hheader', htag, hrest, hcalls⟩ := setAudio_round hlt hresult
  cases hheader.symm.trans hheader'
  have hready := (audioHeader_ready hheader).1.trans hwants
  obtain ⟨payload, hslice⟩ := slice_of_audioTag hready htag
  obtain ⟨tag, i', ⟨hresult', here, hhere, hmade⟩, hdata⟩ :=
    @audioTag_makes env _ _ _ _ _ hready hslice
  cases htag.symm.trans hresult'
  obtain ⟨later, hlater, -⟩ := setAudio_queue fuel hrest
  have hkept := (audioHeader_quiet env info pkt len offset).2 r hheader
  have hall : queued = here ++ later := by
    rw [hlater, hhere, hkept, List.append_assoc] at hqueued
    exact (List.append_cancel_left hqueued).symm
  refine ⟨payload, hslice, tag, ?_, hdata⟩
  have hmem : tag ∈ (r.1.audioTag env pkt r.2.1 r.2.2).calls.filterMap FlvCall.tag? ++ here := by
    rw [hmade]
    exact List.mem_singleton_self tag
  rw [← htags, hcalls, hall, List.filterMap_append, List.filterMap_append]
  rcases List.mem_append.mp hmem with hpassed | hqueue
  · exact List.mem_append_left _ (List.mem_append_right _ (List.mem_append_left _ hpassed))
  · exact List.mem_append_right _ (List.mem_append_left _ hqueue)

/-- When the first frame is the last, its tag is the only one. -/
theorem setAudio_makes {fuel : Nat} {offset : BitVec 32} {payload : List Byte}
    {r : Rtp2FlvTransformInfo × BitVec 32 × BitVec 32}
    (hlt : offset < BitVec.ofNat 32 len - BitVec.ofNat 32 rtpHeaderLen)
    (hwants : info.wantsAudio = true)
    (hheader : (info.audioHeader env pkt len offset).result = .ok r)
    (hslice : slice pkt.data r.2.1.toNat r.2.2.toNat = .ok payload)
    (hend : ¬ r.2.1 + r.2.2 < BitVec.ofNat 32 len - BitVec.ofNat 32 rtpHeaderLen) :
    ∃ tag i, info.Makes (setAudio env pkt len (fuel + 2) info offset) [tag] i ∧
      tag.data = FLV.generateAudioTagData payload := by
  have hready := (audioHeader_ready hheader).1.trans hwants
  obtain ⟨hquiet, hkept⟩ := audioHeader_quiet env info pkt len offset
  obtain ⟨tag, i, ⟨hresult, queued, hqueued, hmade⟩, hdata⟩ :=
    @audioTag_makes env _ _ _ _ _ hready hslice
  have hrest : setAudio env pkt len (fuel + 1) i (r.2.1 + r.2.2) = pure i := by
    unfold setAudio
    rw [if_neg hend]
  have hrun : (setAudio env pkt len (fuel + 2) info offset).result = .ok i := by
    rw [setAudio_succ hlt hheader, hresult, ok_bind, hrest]
    rfl
  obtain ⟨r', i', hheader', htag', -, hcalls⟩ := setAudio_round hlt hrun
  cases hheader.symm.trans hheader'
  cases hresult.symm.trans htag'
  refine ⟨tag, i, ⟨hrun, queued, ?_, ?_⟩, hdata⟩
  · rw [hqueued, hkept r hheader]
  · rw [hcalls, hrest, List.filterMap_append, List.filterMap_append, hquiet, List.nil_append]
    show _ ++ [] ++ queued = [tag]
    rw [List.append_nil, hmade]

/-! ## The packet of a payload -/

section Packed

variable {enc : RTPEncodeAAC} {payload : List Byte} {data : RTPData}
  (hpacks : enc.Packs payload data)
include hpacks

/-- The packet is read by the loop, from its first byte on. -/
theorem passesPayloads_packed (payloads : List (List Byte)) :
    info.PassesPayloads env data.header data.len.toNat payloads ↔
      ∃ tags info', info.Makes
        (setAudio env data.header data.len.toNat (data.header.data.length + 1) info 0) tags info' ∧
          tags.map FlvTag.data = payloads.map FLV.generateAudioTagData := by
  have hoffset : payloadOffset data.header = .ok (0 : BitVec 32).toNat := by
    rw [payloadOffset, hpacks.extension, if_neg (by decide)]
    rfl
  rw [PassesPayloads, setRtpToBuffer_aac env info data.len.toNat hpacks.type hoffset]

theorem length_packed : data.header.data.length =
    (enc.payloadHeader payload.length).length + payload.length := by
  rw [hpacks.bytes, List.length_append]

/-- What stands behind the header is the payload. -/
theorem slice_packed : slice data.header.data (enc.payloadHeader payload.length).length
    payload.length = .ok payload := by
  rw [slice, if_pos (Nat.le_of_eq (length_packed hpacks).symm), hpacks.bytes, List.drop_left,
    List.take_length]

/-- The first round of the loop ends it, and its tag is that of the payload. -/
theorem passes_of_header {r : Rtp2FlvTransformInfo × BitVec 32 × BitVec 32}
    (hne : 1 ≤ payload.length) (hwants : info.wantsAudio = true)
    (hheader : (info.audioHeader env data.header data.len.toNat 0).result = .ok r)
    (hoffset : r.2.1.toNat = (enc.payloadHeader payload.length).length)
    (hsize : r.2.2.toNat = payload.length) :
    info.PassesPayloads env data.header data.len.toNat [payload] := by
  have hlength := length_packed hpacks
  have hsmall := data.len.isLt
  have hlt := (offset_lt_iff hpacks.len hsmall (0 : BitVec 32)).mpr
    (Nat.lt_of_lt_of_le hne (hlength ▸ Nat.le_add_left _ _))
  have hend : ¬ r.2.1 + r.2.2 < BitVec.ofNat 32 data.len.toNat - BitVec.ofNat 32 rtpHeaderLen := by
    rw [offset_lt_iff hpacks.len hsmall, BitVec.toNat_add, hoffset, hsize]
    have hpacked := hpacks.len
    omega
  have hslice := slice_packed hpacks
  rw [← hoffset, ← hsize] at hslice
  obtain ⟨fuel, hfuel⟩ : ∃ fuel, data.header.data.length + 1 = fuel + 2 :=
    ⟨data.header.data.length - 1, by omega⟩
  obtain ⟨tag, i, hmakes, hdata⟩ := @setAudio_makes _ _ _ _ fuel _ _ _ hlt hwants hheader hslice hend
  rw [passesPayloads_packed hpacks, hfuel]
  exact ⟨[tag], i, hmakes, by rw [List.map_singleton, List.map_singleton, hdata]⟩

/-- Behind a LATM header stands the rest of the packet. -/
theorem passes_latm (hne : 1 ≤ payload.length) (hwants : info.wantsAudio = true)
    (hformat : enc.outFormat = .aacLatm) :
    info.PassesPayloads env data.header data.len.toNat [payload] := by
  have hheaderLen : (enc.payloadHeader payload.length).length = 4 := by
    rw [RTPEncodeAAC.payloadHeader, hformat]
    rfl
  have hlength := length_packed hpacks
  have hlen := hpacks.len
  have hsmall := data.len.isLt
  have hlt : (0 : BitVec 32).toNat < data.header.data.length := by
    rw [hlength]
    exact Nat.lt_of_lt_of_le hne (Nat.le_add_left _ _)
  have hsync : byteAt data.header.data (0 : BitVec 32).toNat ≠ 0xff := by
    rw [hpacks.bytes, RTPEncodeAAC.payloadHeader, hformat]
    exact (by decide : (0x00 : Byte) ≠ 0xff)
  obtain ⟨i, hresult, -, -⟩ := audioHeader_latm env info data.len.toNat hlt hsync
  refine passes_of_header hpacks hne hwants hresult (hheaderLen ▸ rfl) ?_
  dsimp only
  rw [rtpHeaderLen] at *
  have hfour : (4 : BitVec 32).toNat = 4 := rfl
  have hzero : (0 : BitVec 32).toNat = 0 := rfl
  simp only [BitVec.toNat_sub, BitVec.toNat_add, BitVec.toNat_ofNat, hfour, hzero]
  omega

/-- Of the length in an ADTS header the low eleven bits are read. -/
theorem audioHeader_packed (info : Rtp2FlvTransformInfo) (hformat : enc.outFormat = .aacAdts) :
    ∃ i, (info.audioHeader env data.header data.len.toNat 0).result =
      .ok (i, BitVec.ofNat 32 adtsHeaderSize,
        BitVec.ofNat 32 ((payload.length + adtsHeaderSize) % 2 ^ 11) -
          BitVec.ofNat 32 adtsHeaderSize) := by
  have hbytes := hpacks.bytes
  rw [RTPEncodeAAC.payloadHeader, hformat] at hbytes
  have hlt : (0 : BitVec 32).toNat < data.header.data.length := by
    rw [hbytes, List.length_append, AACConfig.length_buildAacAdts]
    exact Nat.lt_of_lt_of_le (by decide) (Nat.le_add_right _ _)
  have hsync : byteAt data.header.data (0 : BitVec 32).toNat = 0xff := by
    rw [hbytes]
    rfl
  obtain ⟨i, hresult, -, -⟩ := audioHeader_adts env info data.len.toNat hlt hsync
  refine ⟨i, ?_⟩
  rw [hresult, adtsLength, hbytes]
  show Except.ok (i, 0 + BitVec.ofNat 32 adtsHeaderSize,
    BitVec.ofNat 32 (AACConfig.parseAdtsHeader (AACConfig.buildAacAdts _ ++ payload)).frameLength -
      BitVec.ofNat 32 adtsHeaderSize) = _
  have hzero : (0 : BitVec 32) + BitVec.ofNat 32 adtsHeaderSize = BitVec.ofNat 32 adtsHeaderSize :=
    BitVec.zero_add _
  rw [AACConfig.frameLength_buildAacAdts, hzero]

/-- Behind an ADTS header the payload is read as it was, if its length is. -/
theorem passes_adts_iff (hne : 1 ≤ payload.length) (hmax : payload.length + adtsHeaderSize < 8192)
    (hwants : info.wantsAudio = true) (hformat : enc.outFormat = .aacAdts) :
    info.PassesPayloads env data.header data.len.toNat [payload] ↔
      payload.length + adtsHeaderSize < 2048 := by
  have hheaderLen : (enc.payloadHeader payload.length).length = adtsHeaderSize := by
    rw [RTPEncodeAAC.payloadHeader, hformat]
    rfl
  obtain ⟨i, hresult⟩ := @audioHeader_packed env _ _ _ hpacks info hformat
  have hlength := length_packed hpacks
  constructor
  · intro hpasses
    obtain ⟨tags, info', hmakes, htags⟩ := (passesPayloads_packed hpacks _).mp hpasses
    have hlt := (offset_lt_iff hpacks.len data.len.isLt (0 : BitVec 32)).mpr
      (Nat.lt_of_lt_of_le hne (hlength ▸ Nat.le_add_left _ _))
    obtain ⟨first, hslice, tag, htag, hdata⟩ := exists_first_tag hlt hwants hresult hmakes
    have hsame : tag.data = FLV.generateAudioTagData payload := by
      have hmem := List.mem_map_of_mem (f := FlvTag.data) htag
      rw [htags, List.map_singleton] at hmem
      exact List.mem_singleton.mp hmem
    rw [hdata] at hsame
    cases hsame
    have hsize := length_of_slice hslice
    rw [adtsHeaderSize] at *
    simp only [BitVec.toNat_sub, BitVec.toNat_ofNat] at hsize
    omega
  · intro hsmall
    refine passes_of_header hpacks hne hwants hresult (by rw [hheaderLen]; rfl) ?_
    dsimp only
    rw [adtsHeaderSize] at *
    simp only [BitVec.toNat_sub, BitVec.toNat_ofNat]
    omega

end Packed

/-! ## Round trips -/

section Payloads

variable {enc : RTPEncodeAAC} {payload : enc.Payload} {timestamp : BitVec 32}

/-- Without tags no payload is passed. -/
theorem wantsAudio_of_roundTrips (h : info.RoundTrips env enc payload timestamp) :
    info.wantsAudio = true := by
  obtain ⟨enc', data, hgenerate, hvec, hpasses⟩ := h
  obtain ⟨enc'', data', hgenerate', hvec', hpacks⟩ := enc.generatePacket_packs payload timestamp
  cases hgenerate.symm.trans hgenerate'
  cases hvec.symm.trans hvec'
  obtain ⟨tags, info', ⟨hresult, queued, hqueued, htags⟩, hdata⟩ :=
    (passesPayloads_packed hpacks _).mp hpasses
  cases hwants : info.wantsAudio with
  | true => rfl
  | false =>
    obtain ⟨queued', hqueued', hnone⟩ := setAudio_queue _ hresult
    obtain ⟨hnil, hcalls⟩ := hnone hwants
    cases List.append_cancel_left (hqueued.symm.trans hqueued')
    rw [hcalls, hnil] at htags
    rw [← htags] at hdata
    cases hdata

/-- A frame length of more than eleven bits is not read back. -/
theorem not_roundTrips_of_long (hformat : enc.outFormat = .aacAdts)
    (hlong : 2048 ≤ payload.bytes.length + adtsHeaderSize) :
    ¬ info.RoundTrips env enc payload timestamp := by
  intro h
  have hwants := wantsAudio_of_roundTrips h
  obtain ⟨enc', data, hgenerate, hvec, hpasses⟩ := h
  obtain ⟨enc'', data', hgenerate', hvec', hpacks⟩ := enc.generatePacket_packs payload timestamp
  cases hgenerate.symm.trans hgenerate'
  cases hvec.symm.trans hvec'
  have hshort :=
    (passes_adts_iff hpacks payload.len_pos payload.len_lt hwants hformat).mp hpasses
  exact absurd hshort (Nat.not_lt.mpr hlong)

theorem roundTrips_of_short (hwants : info.wantsAudio = true)
    (hshort : enc.outFormat = .aacLatm ∨ payload.bytes.length + adtsHeaderSize < 2048) :
    info.RoundTrips env enc payload timestamp := by
  obtain ⟨enc', data, hgenerate, hvec, hpacks⟩ := enc.generatePacket_packs payload timestamp
  refine ⟨enc', data, hgenerate, hvec, ?_⟩
  cases hformat : enc.outFormat with
  | aacLatm => exact passes_latm hpacks payload.len_pos hwants hformat
  | aacAdts =>
    refine (passes_adts_iff hpacks payload.len_pos payload.len_lt hwants hformat).mpr ?_
    rcases hshort with hlatm | hshort
    · rw [hformat] at hlatm
      cases hlatm
    · exact hshort

end Payloads

/-- In a stream that has audio tags, a payload comes back behind a LATM header, and behind an ADTS
header exactly if the frame is shorter than 2048 bytes. -/
theorem aac_round_trip_iff (env : RemuxerEnv) (info : Rtp2FlvTransformInfo) (enc : RTPEncodeAAC)
    (payload : enc.Payload) (timestamp : BitVec 32) :
    info.RoundTrips env enc payload timestamp ↔
      info.wantsAudio = true ∧
        (enc.outFormat = .aacLatm ∨ payload.bytes.length + adtsHeaderSize < 2048) := by
  constructor
  · intro h
    refine ⟨wantsAudio_of_roundTrips h, ?_⟩
    cases hformat : enc.outFormat with
    | aacLatm => exact Or.inl rfl
    | aacAdts =>
      refine Or.inr (Nat.lt_of_not_le fun hlong => ?_)
      exact not_roundTrips_of_long hformat hlong h
  · rintro ⟨hwants, hshort⟩
    exact roundTrips_of_short hwants hshort

/-- An encoder of ADTS frames at 44100 Hz, with packets of at most 4096 bytes. -/
def adtsEncoder : RTPEncodeAAC where
  outFormat := .aacAdts
  channel := 2
  rtpDataVec := []
  seqNum := 0
  ssrc := 1
  maxRtpPacketLen := 4096
  sampleRate := 44100
  headerLen_lt := by decide

/-- Its frame length is 2048. -/
def longPayload : adtsEncoder.Payload where
  bytes := List.replicate 2041 0
  len_pos := by
    rw [List.length_replicate]
    decide
  len_lt := by
    rw [List.length_replicate]
    decide
  fits := by
    rw [List.length_replicate]
    decide

theorem long_payload_lost :
    ¬ RoundTrips frameEnv { new frameEnv with isAudioOnly := true } adtsEncoder longPayload 0 := by
  have hlength : longPayload.bytes.length = 2041 := List.length_replicate
  refine not_roundTrips_of_long rfl ?_
  rw [hlength]
  exact (by decide : 2048 ≤ 2041 + adtsHeaderSize)

end Rtp2FlvTransformInfo

end RtcMcu.MediaManager
