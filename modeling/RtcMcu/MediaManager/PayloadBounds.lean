import RtcMcu.MediaManager.H264RoundTrip

/-!
# What `_set_rtp_to_buffer` reads of a packet

An AAC packet is read frame by frame, and a frame says in its header where the next one starts. The
loop ends and stays inside the packet exactly for the packets that are `Framed`
(`aac_payload_iff_framed`): a length below that of the header leads back, a length of 0 to the same
frame again.

Of an H264 packet the byte behind the header extension is read, and the one behind that when it
announces a fragment. The code tests neither against the length of the packet
(`h264_reads_inside_iff`).
-/

namespace RtcMcu.MediaManager.Rtp2FlvTransformInfo

open RtcMcu.Avformat RtcMcu.Avcodec

variable {env : RemuxerEnv} {info : Rtp2FlvTransformInfo} {pkt : Rtp} {len : Nat}

/-! ## AAC packets -/

/-- The frame length in the ADTS header at `offset`. -/
def adtsLength (data : List Byte) (offset : Nat) : Nat :=
  (AACConfig.parseAdtsHeader (data.drop offset)).frameLength

/-- What a tag waits for besides the audio configuration, which every frame brings. -/
def wantsAudio (info : Rtp2FlvTransformInfo) : Bool :=
  info.isAudioOnly || (info.isSpsReach && info.isPpsReach)

/-- The frames from `offset` on lead to the end of the payload. Where tags are made, each frame also
has to lie inside the payload behind its header. -/
inductive Framed (tags : Bool) (data : List Byte) : Nat → Prop
  | done {offset : Nat} (hend : data.length ≤ offset) : Framed tags data offset
  | adts {offset : Nat} (hlt : offset < data.length) (hsync : byteAt data offset = 0xff)
      (hpos : 0 < adtsLength data offset)
      (hinside : tags = true →
        adtsHeaderSize ≤ adtsLength data offset ∧ offset + adtsLength data offset ≤ data.length)
      (hrest : Framed tags data (offset + adtsLength data offset)) : Framed tags data offset
  | latm {offset : Nat} (hlt : offset < data.length) (hsync : byteAt data offset ≠ 0xff)
      (hinside : tags = true → offset + 4 ≤ data.length) : Framed tags data offset

theorem adtsLength_lt (data : List Byte) (offset : Nat) : adtsLength data offset < 2 ^ 13 := by
  unfold adtsLength AACConfig.parseAdtsHeader
  exact BitVec.isLt _

/-- A frame cannot start where the length in its header is 0. -/
theorem Framed.adtsLength_pos {tags : Bool} {data : List Byte} {offset : Nat}
    (h : Framed tags data offset) (hlt : offset < data.length)
    (hsync : byteAt data offset = 0xff) : 0 < adtsLength data offset := by
  cases h with
  | done hend => omega
  | adts _ _ hpos _ _ => exact hpos
  | latm _ hne _ => exact absurd hsync hne

/-! ### One frame -/

theorem reachAdts_result (env : RemuxerEnv) (info : Rtp2FlvTransformInfo) (config : AACConfig) :
    ∃ info', (info.reachAdts env config).result = .ok info' ∧ info'.isAdtsReach = true ∧
      info'.wantsAudio = info.wantsAudio := by
  unfold reachAdts
  split
  case isTrue hreach => exact ⟨info, rfl, hreach, rfl⟩
  case isFalse =>
    unfold writeHeader
    split
    · exact ⟨_, rfl, rfl, rfl⟩
    · exact ⟨_, rfl, rfl, rfl⟩

theorem readByte_of_lt {m : List Byte} {i : Nat} (h : i < m.length) :
    readByte m i = .ok (byteAt m i) := by
  simp only [readByte, dif_pos h, byteAt, List.getD_eq_getElem?_getD, List.getElem?_eq_getElem h,
    Option.getD_some]

/-- Behind an ADTS header stands the rest of the frame. -/
theorem audioHeader_adts (env : RemuxerEnv) (info : Rtp2FlvTransformInfo) (len : Nat)
    {offset : BitVec 32} (hlt : offset.toNat < pkt.data.length)
    (hsync : byteAt pkt.data offset.toNat = 0xff) :
    ∃ info', (info.audioHeader env pkt len offset).result =
        .ok (info', offset + BitVec.ofNat 32 adtsHeaderSize,
          BitVec.ofNat 32 (adtsLength pkt.data offset.toNat) - BitVec.ofNat 32 adtsHeaderSize) ∧
      info'.isAdtsReach = true ∧ info'.wantsAudio = info.wantsAudio := by
  have hread := readByte_of_lt hlt
  rw [hsync] at hread
  unfold audioHeader
  simp only [Emit.result_bind, Emit.result_lift, hread, ok_bind, if_true]
  unfold adtsLength
  generalize AACConfig.parseAdtsHeader (pkt.data.drop offset.toNat) = config
  obtain ⟨info', hreach, hadts, hwants⟩ := reachAdts_result env
    { info with
      audioTimeBase := BitVec.ofNat 32 config.sampleFreq
      audioBuffer := info.audioBuffer.setTimeBase (BitVec.ofNat 32 config.sampleFreq) } config
  refine ⟨info', ?_, hadts, hwants⟩
  rw [hreach]
  rfl

/-- Behind a LATM header stands the rest of the packet. -/
theorem audioHeader_latm (env : RemuxerEnv) (info : Rtp2FlvTransformInfo) (len : Nat)
    {offset : BitVec 32} (hlt : offset.toNat < pkt.data.length)
    (hsync : byteAt pkt.data offset.toNat ≠ 0xff) :
    ∃ info', (info.audioHeader env pkt len offset).result =
        .ok (info', offset + 4,
          BitVec.ofNat 32 len - BitVec.ofNat 32 rtpHeaderLen - (offset + 4)) ∧
      info'.isAdtsReach = true ∧ info'.wantsAudio = info.wantsAudio := by
  unfold audioHeader
  simp only [Emit.result_bind, Emit.result_lift, readByte_of_lt hlt, ok_bind, if_neg hsync]
  obtain ⟨info', hreach, hadts, hwants⟩ := reachAdts_result env info
    (.ofFields AACPLUS_AOT_AAC_LC (info.audioChannel.setWidth 8) info.audioTimeBase.toNat)
  refine ⟨info', ?_, hadts, hwants⟩
  rw [hreach]
  rfl

theorem passAudio_result (tag : FlvTag) :
    ∃ info', (info.passAudio tag).result = .ok info' ∧ info'.wantsAudio = info.wantsAudio := by
  unfold passAudio
  split
  · exact ⟨info, rfl, rfl⟩
  · exact ⟨_, rfl, rfl⟩

/-- A tag is made of a frame when one is wanted, and then the frame has to lie inside the packet. -/
theorem audioTag_result_iff (env : RemuxerEnv) (pkt : Rtp) {offset size : BitVec 32}
    (hadts : info.isAdtsReach = true) :
    (∃ info', (info.audioTag env pkt offset size).result = .ok info') ↔
      (info.wantsAudio = true → offset.toNat + size.toNat ≤ pkt.data.length) := by
  have hready : info.ready = info.wantsAudio := by
    rw [ready, hadts, Bool.and_true, wantsAudio]
  unfold audioTag
  rw [hready]
  by_cases hwants : info.wantsAudio = true
  case neg =>
    rw [if_neg hwants]
    exact iff_of_true ⟨info, rfl⟩ fun h => absurd h hwants
  case pos =>
    rw [if_pos hwants]
    by_cases hfit : offset.toNat + size.toNat ≤ pkt.data.length
    case pos =>
      refine iff_of_true ?_ fun _ => hfit
      simp only [Emit.result_bind, Emit.result_lift, slice, if_pos hfit, ok_bind]
      obtain ⟨info', h, -⟩ := passAudio_result _
      exact ⟨info', h⟩
    case neg =>
      refine iff_of_false ?_ fun h => hfit (h hwants)
      simp only [Emit.result_bind, Emit.result_lift, slice, if_neg hfit]
      rintro ⟨info', h⟩
      cases h

/-- A tag changes nothing of what the next one waits for. -/
theorem audioTag_wantsAudio {offset size : BitVec 32} {info' : Rtp2FlvTransformInfo}
    (h : (info.audioTag env pkt offset size).result = .ok info') :
    info'.wantsAudio = info.wantsAudio := by
  unfold audioTag at h
  split at h
  case isTrue =>
    simp only [Emit.result_bind, Emit.result_lift] at h
    obtain ⟨payload, -, h⟩ := bind_eq_ok.mp h
    obtain ⟨i, hpass, hwants⟩ := passAudio_result _
    cases hpass.symm.trans h
    exact hwants
  case isFalse =>
    cases h
    rfl

/-- A round of the loop: the header, the tag, and the next frame. -/
theorem setAudio_succ {fuel : Nat} {offset offset' size : BitVec 32}
    {info' : Rtp2FlvTransformInfo}
    (hlt : offset < BitVec.ofNat 32 len - BitVec.ofNat 32 rtpHeaderLen)
    (hheader : (info.audioHeader env pkt len offset).result = .ok (info', offset', size)) :
    (setAudio env pkt len (fuel + 1) info offset).result =
      (info'.audioTag env pkt offset' size).result >>= fun i =>
        (setAudio env pkt len fuel i (offset' + size)).result := by
  conv_lhs => unfold setAudio
  rw [if_pos hlt]
  simp only [Emit.result_bind, hheader, ok_bind]

/-! ### The loop -/

section Loop

variable (hlen : len = rtpHeaderLen + pkt.data.length) (hmax : len < 2 ^ 16)

include hlen hmax

theorem offset_lt_iff (offset : BitVec 32) :
    offset < BitVec.ofNat 32 len - BitVec.ofNat 32 rtpHeaderLen ↔
      offset.toNat < pkt.data.length := by
  have hsub : (BitVec.ofNat 32 len - BitVec.ofNat 32 rtpHeaderLen).toNat = pkt.data.length := by
    rw [rtpHeaderLen] at *
    simp only [BitVec.toNat_sub, BitVec.toNat_ofNat]
    omega
  rw [BitVec.lt_def, hsub]

/-- Where a frame of a positive length ends. -/
theorem adts_next {offset : BitVec 32} {size : Nat} (hlt : offset.toNat < pkt.data.length)
    (hsize : size < 2 ^ 13) :
    (offset + BitVec.ofNat 32 adtsHeaderSize +
      (BitVec.ofNat 32 size - BitVec.ofNat 32 adtsHeaderSize)).toNat = offset.toNat + size := by
  rw [rtpHeaderLen] at hlen
  rw [adtsHeaderSize]
  simp only [BitVec.toNat_add, BitVec.toNat_sub, BitVec.toNat_ofNat]
  omega

/-- The payload of an ADTS frame lies inside the packet when the frame does. -/
theorem adts_inside_iff {offset : BitVec 32} {size : Nat} (hlt : offset.toNat < pkt.data.length)
    (hsize : size < 2 ^ 13) :
    (offset + BitVec.ofNat 32 adtsHeaderSize).toNat +
        (BitVec.ofNat 32 size - BitVec.ofNat 32 adtsHeaderSize).toNat ≤ pkt.data.length ↔
      adtsHeaderSize ≤ size ∧ offset.toNat + size ≤ pkt.data.length := by
  rw [rtpHeaderLen] at hlen
  rw [adtsHeaderSize]
  simp only [BitVec.toNat_add, BitVec.toNat_sub, BitVec.toNat_ofNat]
  omega

/-- The payload behind a LATM header lies inside the packet when the header does. -/
theorem latm_inside_iff {offset : BitVec 32} (hlt : offset.toNat < pkt.data.length) :
    (offset + 4).toNat +
        (BitVec.ofNat 32 len - BitVec.ofNat 32 rtpHeaderLen - (offset + 4)).toNat ≤
          pkt.data.length ↔
      offset.toNat + 4 ≤ pkt.data.length := by
  rw [rtpHeaderLen] at *
  have hfour : (4 : BitVec 32).toNat = 4 := rfl
  simp only [BitVec.toNat_add, BitVec.toNat_sub, BitVec.toNat_ofNat, hfour]
  omega

/-- The rest of the packet ends at its end. -/
theorem latm_next {offset : BitVec 32} :
    (offset + 4 + (BitVec.ofNat 32 len - BitVec.ofNat 32 rtpHeaderLen - (offset + 4))).toNat =
      pkt.data.length := by
  rw [rtpHeaderLen] at *
  have hcancel : offset + 4 + (BitVec.ofNat 32 len - BitVec.ofNat 32 12 - (offset + 4)) =
      BitVec.ofNat 32 len - BitVec.ofNat 32 12 := by
    rw [BitVec.add_comm, BitVec.sub_add_cancel]
  rw [hcancel]
  simp only [BitVec.toNat_sub, BitVec.toNat_ofNat]
  omega

/-- A round of the loop that makes no fault is the header, and the loop from the next frame on. -/
theorem setAudio_end {fuel : Nat} {offset : BitVec 32} (hend : pkt.data.length ≤ offset.toNat) :
    (setAudio env pkt len (fuel + 1) info offset).result = .ok info := by
  unfold setAudio
  have hnot : ¬ offset < BitVec.ofNat 32 len - BitVec.ofNat 32 rtpHeaderLen := by
    rw [offset_lt_iff hlen hmax]
    omega
  rw [if_neg hnot]
  rfl

/-- Over frames that lead to the end, the loop ends without a fault. -/
theorem setAudio_of_framed {n : Nat} (h : Framed info.wantsAudio pkt.data n) :
    ∀ {info' : Rtp2FlvTransformInfo} {offset : BitVec 32} {fuel : Nat},
      info'.wantsAudio = info.wantsAudio → offset.toNat = n → pkt.data.length - n < fuel →
      ∃ info'', (setAudio env pkt len fuel info' offset).result = .ok info'' := by
  induction h with
  | done hend =>
    intro info' offset fuel _ hn hfuel
    obtain ⟨fuel, rfl⟩ := Nat.exists_eq_succ_of_ne_zero (Nat.ne_of_gt (Nat.zero_lt_of_lt hfuel))
    exact ⟨info', setAudio_end hlen hmax (hn ▸ hend)⟩
  | adts hlt hsync hpos hinside _ ih =>
    intro info' offset fuel hwants hn hfuel
    subst hn
    obtain ⟨fuel, rfl⟩ := Nat.exists_eq_succ_of_ne_zero (Nat.ne_of_gt (Nat.zero_lt_of_lt hfuel))
    obtain ⟨i, hheader, hadts, hkeep⟩ :=
      audioHeader_adts env info' len hlt hsync
    have hsize := adtsLength_lt pkt.data offset.toNat
    obtain ⟨i', htag⟩ := (audioTag_result_iff env pkt hadts).mpr fun hw =>
      (adts_inside_iff hlen hmax hlt hsize).mpr (hinside (by rwa [← hwants, ← hkeep]))
    have hfuel' : pkt.data.length - (offset.toNat + adtsLength pkt.data offset.toNat) < fuel := by
      omega
    obtain ⟨i'', hrest⟩ := ih ((audioTag_wantsAudio htag).trans (hkeep.trans hwants))
      (adts_next hlen hmax hlt hsize) hfuel'
    refine ⟨i'', ?_⟩
    rw [setAudio_succ ((offset_lt_iff hlen hmax offset).mpr hlt) hheader, htag, ok_bind, hrest]
  | latm hlt hsync hinside =>
    intro info' offset fuel hwants hn hfuel
    subst hn
    obtain ⟨fuel, rfl⟩ := Nat.exists_eq_succ_of_ne_zero (Nat.ne_of_gt (Nat.zero_lt_of_lt hfuel))
    obtain ⟨fuel, rfl⟩ : ∃ n, fuel = n + 1 := ⟨fuel - 1, by omega⟩
    obtain ⟨i, hheader, hadts, hkeep⟩ :=
      audioHeader_latm env info' len hlt hsync
    obtain ⟨i', htag⟩ := (audioTag_result_iff env pkt hadts).mpr fun hw =>
      (latm_inside_iff hlen hmax hlt).mpr (hinside (by rwa [← hwants, ← hkeep]))
    refine ⟨i', ?_⟩
    rw [setAudio_succ ((offset_lt_iff hlen hmax offset).mpr hlt) hheader, htag, ok_bind,
      setAudio_end hlen hmax (Nat.le_of_eq (latm_next hlen hmax).symm)]

/-- A loop that ends without a fault went over frames that lead to the end. -/
theorem framed_of_setAudio {fuel : Nat} :
    ∀ {info info' : Rtp2FlvTransformInfo} {offset : BitVec 32},
      (setAudio env pkt len fuel info offset).result = .ok info' →
      Framed info.wantsAudio pkt.data offset.toNat := by
  induction fuel with
  | zero =>
    intro info info' offset h
    cases h
  | succ fuel ih =>
    intro info info' offset h
    rcases Nat.lt_or_ge offset.toNat pkt.data.length with hlt | hend
    case inr => exact .done hend
    have hlt' := (offset_lt_iff hlen hmax offset).mpr hlt
    by_cases hsync : byteAt pkt.data offset.toNat = 0xff
    case pos =>
      obtain ⟨i, hheader, hadts, hkeep⟩ :=
        audioHeader_adts env info len hlt hsync
      have hsize := adtsLength_lt pkt.data offset.toNat
      rw [setAudio_succ hlt' hheader] at h
      obtain ⟨i', htag, h⟩ := bind_eq_ok.mp h
      have hrest := ih h
      rw [adts_next hlen hmax hlt hsize, audioTag_wantsAudio htag, hkeep] at hrest
      have hinside : info.wantsAudio = true → adtsHeaderSize ≤ adtsLength pkt.data offset.toNat ∧
          offset.toNat + adtsLength pkt.data offset.toNat ≤ pkt.data.length := fun hw =>
        (adts_inside_iff hlen hmax hlt hsize).mp
          ((audioTag_result_iff env pkt hadts).mp ⟨i', htag⟩ (hkeep.trans hw))
      -- a frame of length 0 is read again, and the rest of the run says that it has a length
      have hpos : 0 < adtsLength pkt.data offset.toNat := by
        by_contra hzero
        rw [Nat.eq_zero_of_not_pos hzero, Nat.add_zero] at hrest
        exact hzero (hrest.adtsLength_pos hlt hsync)
      exact .adts hlt hsync hpos hinside hrest
    case neg =>
      obtain ⟨i, hheader, hadts, hkeep⟩ :=
        audioHeader_latm env info len hlt hsync
      rw [setAudio_succ hlt' hheader] at h
      obtain ⟨i', htag, -⟩ := bind_eq_ok.mp h
      exact .latm hlt hsync fun hw => (latm_inside_iff hlen hmax hlt).mp
        ((audioTag_result_iff env pkt hadts).mp ⟨i', htag⟩ (hkeep.trans hw))

end Loop

/-- An AAC packet goes through the loop. -/
theorem setRtpToBuffer_aac (env : RemuxerEnv) (info : Rtp2FlvTransformInfo) (len : Nat)
    {offset : BitVec 32} (hpayload : pkt.payload = RTP_AV_AAC)
    (hoffset : payloadOffset pkt = .ok offset.toNat) :
    info.setRtpToBuffer env pkt len = setAudio env pkt len (pkt.data.length + 1) info offset := by
  have hne : ¬ RTP_AV_AAC = RTP_AV_H264 := by decide
  unfold setRtpToBuffer
  rw [hoffset, hpayload]
  show (if RTP_AV_AAC = RTP_AV_H264 then info.setVideo env pkt len offset.toNat
    else if RTP_AV_AAC = RTP_AV_AAC then
      setAudio env pkt len (pkt.data.length + 1) info (BitVec.ofNat 32 offset.toNat)
    else pure info) = _
  rw [if_neg hne, if_pos rfl, BitVec.ofNat_toNat, BitVec.setWidth_eq]

/-- The loop over an AAC payload ends, and every payload it makes a tag of lies inside the packet,
exactly when the frames lead to the end; the rounds `_set_rtp_to_buffer` is modelled with are then
enough, and otherwise no number of rounds is. -/
theorem aac_payload_iff_framed (env : RemuxerEnv) (info : Rtp2FlvTransformInfo) (pkt : Rtp)
    (len : Nat) (offset : BitVec 32) (hpayload : pkt.payload = RTP_AV_AAC)
    (hlen : len = rtpHeaderLen + pkt.data.length) (hmax : len ≤ 2048) :
    ((∃ fuel info', (setAudio env pkt len fuel info offset).result = .ok info') ↔
        Framed info.wantsAudio pkt.data offset.toNat) ∧
      (payloadOffset pkt = .ok offset.toNat →
        ((∃ info', (info.setRtpToBuffer env pkt len).result = .ok info') ↔
          Framed info.wantsAudio pkt.data offset.toNat)) := by
  have hsmall : len < 2 ^ 16 := Nat.lt_of_le_of_lt hmax (by decide)
  have hends : Framed info.wantsAudio pkt.data offset.toNat →
      ∃ info', (setAudio env pkt len (pkt.data.length + 1) info offset).result = .ok info' :=
    fun h => setAudio_of_framed hlen hsmall h rfl rfl (by omega)
  have hframed : ∀ fuel info', (setAudio env pkt len fuel info offset).result = .ok info' →
      Framed info.wantsAudio pkt.data offset.toNat :=
    fun _ _ h => framed_of_setAudio hlen hsmall h
  refine ⟨⟨fun ⟨fuel, info', h⟩ => hframed fuel info' h, fun h => ⟨_, hends h⟩⟩, fun hoffset => ?_⟩
  rw [setRtpToBuffer_aac env info len hpayload hoffset]
  exact ⟨fun ⟨info', h⟩ => hframed _ info' h, hends⟩

/-- An AAC packet with this payload. -/
def aacPacket (data : List Byte) : Rtp := { Rtp.zero with payload := RTP_AV_AAC, data := data }

/-- Two ADTS frames of eight bytes, and a LATM frame. -/
def framesPacket : Rtp :=
  aacPacket [0xff, 0xf1, 0x50, 0x80, 0x01, 0x1f, 0xfc, 1, 0xff, 0xf1, 0x50, 0x80, 0x01, 0x1f, 0xfc, 2,
    0, 0, 0, 0, 3]

theorem framesPacket_framed : Framed true framesPacket.data 0 := by
  refine .adts (by decide) (by decide) (by decide) (fun _ => by decide) ?_
  refine .adts (by decide) (by decide) (by decide) (fun _ => by decide) ?_
  exact .latm (by decide) (by decide) fun _ => by decide

theorem aac_payload_iff_framed_three_frames :
    let info := { new frameEnv with isAudioOnly := true }
    framesPacket.payload = RTP_AV_AAC ∧ 33 = rtpHeaderLen + framesPacket.data.length ∧
      33 ≤ 2048 ∧ payloadOffset framesPacket = .ok (0 : BitVec 32).toNat ∧
      (∃ fuel info', (setAudio frameEnv framesPacket 33 fuel info 0).result = .ok info') ∧
      ∃ info', (info.setRtpToBuffer frameEnv framesPacket 33).result = .ok info' := by
  intro info
  have h := aac_payload_iff_framed frameEnv info framesPacket 33 0 rfl rfl (by decide)
  exact ⟨rfl, rfl, by decide, rfl, h.1.mpr framesPacket_framed, (h.2 rfl).mpr framesPacket_framed⟩

/-- The header of a frame with length 0. -/
def emptyFramePacket : Rtp := aacPacket [0xff, 0xf1, 0x50, 0x80, 0x00, 0x1f, 0xfc]

/-- It is read again in every round. -/
theorem empty_frame_repeats :
    ¬ ∀ (env : RemuxerEnv) (info : Rtp2FlvTransformInfo) (pkt : Rtp) (len : Nat)
      (offset : BitVec 32), pkt.payload = RTP_AV_AAC → len = rtpHeaderLen + pkt.data.length →
      len ≤ 2048 →
      ∃ fuel info', (setAudio env pkt len fuel info offset).result = .ok info' := by
  intro hclaim
  obtain ⟨fuel, info', h⟩ :=
    hclaim frameEnv (new frameEnv) emptyFramePacket 19 0 rfl rfl (by decide)
  have hframed := framed_of_setAudio rfl (by decide) h
  exact absurd (hframed.adtsLength_pos (by decide) (by decide)) (by decide)

/-! ## H264 packets -/

/-- Where the payload starts behind the header extension. -/
def extensionLen (pkt : Rtp) : Nat :=
  if pkt.extension = 1 then 4 + (rdBe16 pkt.data 2).toNat * 4 else 0

/-- The payload has a first byte, and a second one if the first announces a fragment. -/
def PayloadInside (pkt : Rtp) : Prop :=
  extensionLen pkt < pkt.data.length ∧
    (byteAt pkt.data (extensionLen pkt) &&& 0x1f = 28 → extensionLen pkt + 1 < pkt.data.length)

instance (pkt : Rtp) : Decidable (PayloadInside pkt) := inferInstanceAs (Decidable (_ ∧ _))

/-- The length passed to `buffer_append_ptr` with what lies behind `offset`. -/
def payloadLength (len offset : Nat) : BitVec 64 :=
  BitVec.ofNat 64 len - BitVec.ofNat 64 rtpHeaderLen - BitVec.ofNat 64 offset

/-- Every read of `_set_rtp_to_buffer` is inside the packet, and what is appended is the rest of
it. -/
def ReadsInside (pkt : Rtp) (len : Nat) : Prop :=
  ∃ offset indicator, payloadOffset pkt = .ok offset ∧ readByte pkt.data offset = .ok indicator ∧
    if indicator &&& 0x1f ≠ 28 then
      offset + (payloadLength len offset).toNat = pkt.data.length
    else
      (∃ fragment, readByte pkt.data (offset + 1) = .ok fragment) ∧
        offset + 2 + (payloadLength len (offset + 2)).toNat = pkt.data.length

/-- The frame buffer with what lies behind `offset`. -/
def appendRest (info : Rtp2FlvTransformInfo) (pkt : Rtp) (offset : Nat) : Rtp2FlvTransformInfo :=
  { info with
    videoFrameBuffer :=
      bufferAppend videoFrameBufferSize info.videoFrameBuffer (pkt.data.drop offset) }

/-- What a packet adds to the frame when nothing is read outside it. -/
def takeVideo (info : Rtp2FlvTransformInfo) (pkt : Rtp) (offset : Nat) : Rtp2FlvTransformInfo :=
  let indicator := byteAt pkt.data offset
  if indicator &&& 0x1f ≠ 28 then
    { info.markUnit.appendRest pkt offset with videoFrameTs := pkt.timestamp }
  else
    let fragment := byteAt pkt.data (offset + 1)
    let info := info.checkFragment pkt.seq
    let info := if fragment &&& 0x80 ≠ 0 then info.startUnit pkt indicator fragment else info
    info.appendRest pkt (offset + 2)

theorem payloadOffset_of_inside (h : PayloadInside pkt) :
    payloadOffset pkt = .ok (extensionLen pkt) := by
  have hlt := h.1
  unfold extensionLen at hlt ⊢
  unfold payloadOffset
  by_cases hext : pkt.extension = 1
  case pos =>
    rw [if_pos hext] at hlt ⊢
    rw [if_pos hext, if_neg (by omega)]
  case neg => rw [if_neg hext, if_neg hext]

theorem payloadOffset_eq {offset : Nat} (h : payloadOffset pkt = .ok offset) :
    offset = extensionLen pkt := by
  unfold payloadOffset at h
  unfold extensionLen
  split at h
  case isTrue hext =>
    rw [if_pos hext]
    split at h
    · cases h
    · cases h
      rfl
  case isFalse hext =>
    rw [if_neg hext]
    cases h
    rfl

theorem readByte_eq_ok {m : List Byte} {i : Nat} {b : Byte} (h : readByte m i = .ok b) :
    i < m.length ∧ b = byteAt m i := by
  by_cases hlt : i < m.length
  · rw [readByte_of_lt hlt] at h
    cases h
    exact ⟨hlt, rfl⟩
  · rw [readByte, dif_neg hlt] at h
    cases h

theorem payloadLength_toNat (offset : Nat) (hlen : len = rtpHeaderLen + pkt.data.length)
    (hmax : len ≤ 2048) (hoffset : offset ≤ pkt.data.length) :
    (payloadLength len offset).toNat = pkt.data.length - offset := by
  rw [payloadLength]
  rw [rtpHeaderLen] at *
  simp only [BitVec.toNat_sub, BitVec.toNat_ofNat]
  omega

theorem readsInside_iff (hlen : len = rtpHeaderLen + pkt.data.length) (hmax : len ≤ 2048) :
    ReadsInside pkt len ↔ PayloadInside pkt := by
  constructor
  · rintro ⟨offset, indicator, hoffset, hread, hrest⟩
    obtain ⟨hlt, rfl⟩ := readByte_eq_ok hread
    cases payloadOffset_eq hoffset
    refine ⟨hlt, fun htype => ?_⟩
    rw [if_neg (not_not.mpr htype)] at hrest
    obtain ⟨⟨fragment, hfragment⟩, -⟩ := hrest
    exact (readByte_eq_ok hfragment).1
  · intro h
    refine ⟨_, _, payloadOffset_of_inside h, readByte_of_lt h.1, ?_⟩
    by_cases htype : byteAt pkt.data (extensionLen pkt) &&& 0x1f = 28
    case pos =>
      have hsecond := h.2 htype
      rw [if_neg (not_not.mpr htype)]
      refine ⟨⟨_, readByte_of_lt hsecond⟩, ?_⟩
      rw [payloadLength_toNat _ hlen hmax (by omega)]
      omega
    case neg =>
      have hfirst := h.1
      rw [if_pos htype, payloadLength_toNat _ hlen hmax (by omega)]
      omega

/-! ### Appending -/

theorem appendPayload_eq (info : Rtp2FlvTransformInfo) (pkt : Rtp) (len offset : Nat) :
    info.appendPayload pkt len offset =
      (appendFrom videoFrameBufferSize info.videoFrameBuffer pkt.data offset
        (payloadLength len offset)).map fun frame => { info with videoFrameBuffer := frame } := by
  unfold appendPayload payloadLength
  cases appendFrom videoFrameBufferSize info.videoFrameBuffer pkt.data offset _ with
  | error e => rfl
  | ok frame => rfl

/-- The rest of the packet is appended, or refused when the buffer has no room for it. -/
theorem appendPayload_rest {offset : Nat} (hlen : len = rtpHeaderLen + pkt.data.length)
    (hmax : len ≤ 2048) (hoffset : offset ≤ pkt.data.length)
    (hroom : info.videoFrameBuffer.length ≤ videoFrameBufferSize) :
    info.appendPayload pkt len offset = .ok (info.appendRest pkt offset) := by
  have hsize : videoFrameBufferSize = 1048576 := rfl
  by_cases hfit : info.videoFrameBuffer.length + (pkt.data.drop offset).length ≤
      videoFrameBufferSize
  case pos =>
    rw [appendPayload_ok info hlen (by omega) hoffset hfit, appendRest, bufferAppend_of_le hfit]
  case neg =>
    rw [List.length_drop] at hfit
    have hrest := payloadLength_toNat offset hlen hmax hoffset
    have hover : BitVec.ofNat 64 videoFrameBufferSize <
        BitVec.ofNat 64 info.videoFrameBuffer.length + payloadLength len offset := by
      rw [BitVec.lt_def, BitVec.toNat_add, hrest]
      rw [rtpHeaderLen] at hlen
      simp only [BitVec.toNat_ofNat]
      omega
    have hlong : videoFrameBufferSize <
        info.videoFrameBuffer.length + (pkt.data.drop offset).length := by
      rw [List.length_drop]
      omega
    rw [appendPayload_eq, appendFrom, if_pos hover, appendRest, bufferAppend, if_pos hlong]
    rfl

theorem markUnit_room (hroom : info.videoFrameBuffer.length ≤ videoFrameBufferSize) :
    info.markUnit.videoFrameBuffer.length ≤ videoFrameBufferSize := length_bufferAppend_le hroom

theorem checkFragment_videoFrameBuffer (info : Rtp2FlvTransformInfo) (seq : Seq) :
    (info.checkFragment seq).videoFrameBuffer = info.videoFrameBuffer := by
  unfold checkFragment
  split
  · rfl
  · rfl

/-- The two kinds of packets are taken as `takeVideo` says. -/
theorem append_eq_takeVideo {offset : Nat} (hlen : len = rtpHeaderLen + pkt.data.length)
    (hmax : len ≤ 2048) (hfirst : offset < pkt.data.length)
    (hsecond : byteAt pkt.data offset &&& 0x1f = 28 → offset + 1 < pkt.data.length)
    (hroom : info.videoFrameBuffer.length ≤ videoFrameBufferSize) :
    (if byteAt pkt.data offset &&& 0x1f ≠ 28 then info.appendUnit pkt len offset
      else info.appendFragment pkt len offset (byteAt pkt.data offset)) =
      .ok (info.takeVideo pkt offset) := by
  unfold takeVideo
  by_cases htype : byteAt pkt.data offset &&& 0x1f = 28
  case pos =>
    have hlt := hsecond htype
    rw [if_neg (not_not.mpr htype), appendFragment, readByte_of_lt hlt, ok_bind]
    dsimp only
    rw [if_neg (not_not.mpr htype)]
    apply appendPayload_rest hlen hmax (by omega)
    rw [← checkFragment_videoFrameBuffer info pkt.seq] at hroom
    split
    · exact length_bufferAppend_le (markUnit_room hroom)
    · exact hroom
  case neg =>
    rw [if_pos htype, appendUnit,
      appendPayload_rest hlen hmax (Nat.le_of_lt hfirst) (markUnit_room hroom), ok_bind]
    dsimp only
    rw [if_pos htype]

/-- Every frame that was put leaves the frame buffer empty. -/
theorem putVideoFrame_videoFrameBuffer {info' : Rtp2FlvTransformInfo}
    (h : (info.putVideoFrame env).result = .ok info') : info'.videoFrameBuffer = [] := by
  unfold putVideoFrame at h
  simp only [Emit.result_bind, Emit.result_lift, Emit.result_pure] at h
  obtain ⟨a, -, h⟩ := bind_eq_ok.mp h
  obtain ⟨b, -, h⟩ := bind_eq_ok.mp h
  obtain ⟨c, -, h⟩ := bind_eq_ok.mp h
  cases h
  rfl

/-- `_put_video_frame` leaves room for the next packet. -/
theorem putFrameIf_room {cond : Bool} {info' : Rtp2FlvTransformInfo}
    (hroom : info.videoFrameBuffer.length ≤ videoFrameBufferSize)
    (h : (info.putFrameIf env cond).result = .ok info') :
    info'.videoFrameBuffer.length ≤ videoFrameBufferSize := by
  unfold putFrameIf at h
  split at h
  · rw [putVideoFrame_videoFrameBuffer h]
    exact Nat.zero_le _
  · cases h
    exact hroom

/-- A packet read inside its bounds: the frame before it is put, its payload is appended, and its own
frame is put if it is the last packet of it. -/
theorem setRtpToBuffer_inside (hpayload : pkt.payload = RTP_AV_H264)
    (hlen : len = rtpHeaderLen + pkt.data.length) (hmax : len ≤ 2048) (h : PayloadInside pkt)
    (hroom : info.videoFrameBuffer.length ≤ videoFrameBufferSize) :
    info.setRtpToBuffer env pkt len =
      (info.putFrameIf env (info.videoFrameTs != pkt.timestamp) >>= fun info =>
        (info.takeVideo pkt (extensionLen pkt)).putFrameIf env (pkt.marker == 1)) := by
  unfold setRtpToBuffer
  rw [payloadOffset_of_inside h]
  show (if pkt.payload = RTP_AV_H264 then info.setVideo env pkt len (extensionLen pkt)
    else if pkt.payload = RTP_AV_AAC then
      setAudio env pkt len (pkt.data.length + 1) info (BitVec.ofNat 32 (extensionLen pkt))
    else pure info) = _
  rw [if_pos hpayload, setVideo, readByte_of_lt h.1, Emit.lift_ok_bind]
  apply Emit.bind_congr_ok
  intro i hi
  rw [append_eq_takeVideo hlen hmax h.1 h.2 (putFrameIf_room hroom hi), Emit.lift_ok_bind]

/-- A packet whose payload lacks a byte that is read, at the start of a frame. -/
theorem setRtpToBuffer_outside (hpayload : pkt.payload = RTP_AV_H264) (h : ¬ PayloadInside pkt)
    (hempty : info.videoFrameBuffer = []) :
    (info.setRtpToBuffer env pkt len).result = .error .outOfBounds := by
  have hkeep : info.putFrameIf env (info.videoFrameTs != pkt.timestamp) = pure info := by
    rw [putFrameIf, hempty, bne_self_eq_false, Bool.and_false]
    rfl
  unfold setRtpToBuffer
  cases hoffset : payloadOffset pkt with
  | error e =>
    unfold payloadOffset at hoffset
    split at hoffset
    · split at hoffset
      · cases hoffset
        rfl
      · cases hoffset
    · cases hoffset
  | ok offset =>
    cases payloadOffset_eq hoffset
    show (if pkt.payload = RTP_AV_H264 then info.setVideo env pkt len (extensionLen pkt)
      else if pkt.payload = RTP_AV_AAC then
        setAudio env pkt len (pkt.data.length + 1) info (BitVec.ofNat 32 (extensionLen pkt))
      else pure info).result = _
    rw [if_pos hpayload, setVideo]
    by_cases hfirst : extensionLen pkt < pkt.data.length
    case neg =>
      rw [readByte, dif_neg hfirst]
      rfl
    case pos =>
      have htype : byteAt pkt.data (extensionLen pkt) &&& 0x1f = 28 ∧
          ¬ extensionLen pkt + 1 < pkt.data.length := by
        by_contra hnot
        exact h ⟨hfirst, fun htype => by_contra fun hlt => hnot ⟨htype, hlt⟩⟩
      have hfragment : info.appendFragment pkt len (extensionLen pkt)
          (byteAt pkt.data (extensionLen pkt)) = .error .outOfBounds := by
        rw [appendFragment, readByte, dif_neg htype.2]
        rfl
      simp only [Emit.result_bind, Emit.result_lift, readByte_of_lt hfirst, ok_bind, hkeep,
        Emit.result_pure, if_neg (not_not.mpr htype.1), hfragment]
      rfl

/-- `_set_rtp_to_buffer` reads an H264 packet inside its bounds, and appends the rest of it and no
more, exactly if the payload has a first byte, and a second one when the first announces a fragment.
Where it lacks one, the code reads outside the packet. -/
theorem h264_reads_inside_iff (pkt : Rtp) (len : Nat) (hpayload : pkt.payload = RTP_AV_H264)
    (hlen : len = rtpHeaderLen + pkt.data.length) (hmax : len ≤ 2048) :
    (ReadsInside pkt len ↔ PayloadInside pkt) ∧
      (PayloadInside pkt → ∀ (env : RemuxerEnv) (info : Rtp2FlvTransformInfo),
        info.videoFrameBuffer.length ≤ videoFrameBufferSize →
        info.setRtpToBuffer env pkt len =
          (info.putFrameIf env (info.videoFrameTs != pkt.timestamp) >>= fun info =>
            (info.takeVideo pkt (extensionLen pkt)).putFrameIf env (pkt.marker == 1))) ∧
      (¬ PayloadInside pkt → ∀ (env : RemuxerEnv) (info : Rtp2FlvTransformInfo),
        info.videoFrameBuffer = [] →
        (info.setRtpToBuffer env pkt len).result = .error .outOfBounds) :=
  ⟨readsInside_iff hlen hmax, fun h _ _ hroom => setRtpToBuffer_inside hpayload hlen hmax h hroom,
    fun h _ _ hempty => setRtpToBuffer_outside hpayload h hempty⟩

/-- An H264 packet with this payload. -/
def h264Packet (data : List Byte) : Rtp := { Rtp.zero with payload := RTP_AV_H264, data := data }

theorem h264_reads_inside_fragment :
    let pkt := h264Packet [0x7c, 0x85, 1, 2]
    pkt.payload = RTP_AV_H264 ∧ 16 = rtpHeaderLen + pkt.data.length ∧ 16 ≤ 2048 ∧
      ReadsInside pkt 16 ∧
      (new frameEnv).videoFrameBuffer.length ≤ videoFrameBufferSize ∧
      (new frameEnv).setRtpToBuffer frameEnv pkt 16 =
        ((new frameEnv).putFrameIf frameEnv ((new frameEnv).videoFrameTs != pkt.timestamp) >>=
          fun info => (info.takeVideo pkt (extensionLen pkt)).putFrameIf frameEnv
            (pkt.marker == 1)) := by
  intro pkt
  have hinside : PayloadInside pkt := ⟨by decide, fun _ => by decide⟩
  have h := h264_reads_inside_iff pkt 16 rfl rfl (by decide)
  exact ⟨rfl, rfl, by decide, h.1.mpr hinside, Nat.zero_le _,
    h.2.1 hinside frameEnv (new frameEnv) (Nat.zero_le _)⟩

/-- A fragment without a fragment header is read outside the packet. -/
theorem fragment_reads_outside :
    ¬ ∀ (pkt : Rtp) (len : Nat), pkt.payload = RTP_AV_H264 →
      len = rtpHeaderLen + pkt.data.length → len ≤ 2048 → ReadsInside pkt len := by
  intro hclaim
  have h := hclaim (h264Packet [0x7c]) 13 rfl rfl (by decide)
  exact absurd ((readsInside_iff rfl (by decide)).mp h).2 (by decide)

end RtcMcu.MediaManager.Rtp2FlvTransformInfo
