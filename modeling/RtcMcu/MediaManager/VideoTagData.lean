import RtcMcu.MediaManager.FrameUnits

/-!
# The body of a video tag

What `generate_video_tag_data` makes of a frame that `_set_rtp_to_buffer` collected: the NAL units
that are not parameter sets, each behind its size (`generateVideoTagData_layout`). The body and the
header of its tag go into one block of a megabyte, while a frame alone may have a megabyte:
`tag_data_iff` says when there is room for the tag of a frame whose units are found again.
-/

namespace RtcMcu.MediaManager.Rtp2FlvTransformInfo

open RtcMcu.Avformat RtcMcu.Avcodec RtcMcu.Coupling

/-! ## The units that packets carry -/

/-- The last unit grows. -/
def growLast (units : List (List Byte)) (bytes : List Byte) : List (List Byte) :=
  units.dropLast ++ [units.getLastD [] ++ bytes]

/-- The units of a frame with one packet more: the packet is a unit, begins one or carries on the
last one. -/
def takeUnit (units : List (List Byte)) (pkt : Rtp) : List (List Byte) :=
  let offset := extensionLen pkt
  let indicator := byteAt pkt.data offset
  if indicator &&& 0x1f ≠ 28 then units ++ [pkt.data.drop offset]
  else
    let fragment := byteAt pkt.data (offset + 1)
    let bytes := pkt.data.drop (offset + 2)
    if fragment &&& 0x80 ≠ 0 then
      units ++ [((indicator &&& 0xe0) ||| (fragment &&& 0x1f)) :: bytes]
    else growLast units bytes

/-- The units of a frame. -/
def nalUnits (pkts : List Rtp) : List (List Byte) := pkts.foldl takeUnit []

/-- The packet does not carry on a unit whose beginning is missing. -/
def StartsUnit (pkt : Rtp) : Prop :=
  byteAt pkt.data (extensionLen pkt) &&& 0x1f = 28 →
    byteAt pkt.data (extensionLen pkt + 1) &&& 0x80 ≠ 0

instance (pkt : Rtp) : Decidable (StartsUnit pkt) := inferInstanceAs (Decidable (_ → _))

/-- The frame buffer holds what these packets brought. -/
inductive Built : Rtp2FlvTransformInfo → List Rtp → Prop
  | empty {info : Rtp2FlvTransformInfo} (hbuffer : info.videoFrameBuffer = [])
      (hpos : info.useNaluSplitCode = false → info.videoFrameBufferPos = []) : Built info []
  | packet {info : Rtp2FlvTransformInfo} {pkts : List Rtp} {pkt : Rtp} (h : Built info pkts)
      (hinside : PayloadInside pkt) :
      Built (info.takeVideo pkt (extensionLen pkt)) (pkts ++ [pkt])

theorem nalUnits_append (pkts : List Rtp) (pkt : Rtp) :
    nalUnits (pkts ++ [pkt]) = takeUnit (nalUnits pkts) pkt := by
  rw [nalUnits, List.foldl_append]
  rfl

/-! ## Packets into the frame buffer -/

variable {info : Rtp2FlvTransformInfo} {units : List (List Byte)} {pkts : List Rtp} {pkt : Rtp}

theorem coded_unit (units : List (List Byte)) (u : List Byte) :
    coded (units ++ [u]) = coded units ++ (h264SplitCode ++ u) := by
  rw [coded_append]
  show coded units ++ (h264SplitCode ++ u ++ []) = _
  rw [List.append_nil]

theorem growLast_concat (us : List (List Byte)) (u bytes : List Byte) :
    growLast (us ++ [u]) bytes = us ++ [u ++ bytes] := by
  rw [growLast, List.dropLast_concat, List.getLastD_concat]

theorem coded_growLast (hne : units ≠ []) (bytes : List Byte) :
    coded (growLast units bytes) = coded units ++ bytes := by
  obtain ⟨us, u, rfl⟩ := List.eq_nil_or_concat' units |>.resolve_left hne
  rw [growLast_concat, coded_unit, coded_unit,
    List.append_assoc, List.append_assoc]

theorem positions_unit (units : List (List Byte)) (u : List Byte) :
    positions 0 (units ++ [u]) = positions 0 units ++ [(coded units).length] := by
  rw [positions_append, Nat.zero_add]
  rfl

theorem positions_growLast (hne : units ≠ []) (bytes : List Byte) :
    positions 0 (growLast units bytes) = positions 0 units := by
  obtain ⟨us, u, rfl⟩ := List.eq_nil_or_concat' units |>.resolve_left hne
  rw [growLast_concat, positions_unit, positions_unit]

/-- No unit is lost or empty. -/
theorem takeUnit_ne_nil (hne : ∀ u ∈ units, u ≠ []) (hinside : PayloadInside pkt)
    (hstart : units = [] → StartsUnit pkt) : ∀ u ∈ takeUnit units pkt, u ≠ [] := by
  intro u hu
  unfold takeUnit at hu
  dsimp only at hu
  split at hu
  case isTrue =>
    rcases List.mem_append.mp hu with hu | hu
    · exact hne u hu
    · rw [List.mem_singleton.mp hu]
      intro hnil
      have hle := List.drop_eq_nil_iff.mp hnil
      exact absurd hinside.1 (Nat.not_lt.mpr hle)
  case isFalse htype =>
    split at hu
    case isTrue =>
      rcases List.mem_append.mp hu with hu | hu
      · exact hne u hu
      · rw [List.mem_singleton.mp hu]
        exact List.cons_ne_nil _ _
    case isFalse hinner =>
      have hsome : units ≠ [] := fun hnil => hinner (hstart hnil (not_not.mp htype))
      obtain ⟨us, v, rfl⟩ := List.eq_nil_or_concat' units |>.resolve_left hsome
      rw [growLast_concat] at hu
      rcases List.mem_append.mp hu with hu | hu
      · exact hne u (List.mem_append_left _ hu)
      · rw [List.mem_singleton.mp hu]
        exact List.append_ne_nil_of_left_ne_nil
          (hne v (List.mem_append_right _ List.mem_cons_self)) _

theorem bufferAppend_append {size : Nat} {queued a b : List Byte}
    (h : queued.length + (a.length + b.length) ≤ size) :
    bufferAppend size (bufferAppend size queued a) b = bufferAppend size queued (a ++ b) := by
  have hfirst : bufferAppend size queued a = queued ++ a := bufferAppend_of_le (by omega)
  have hsecond : bufferAppend size (queued ++ a) b = queued ++ a ++ b := by
    apply bufferAppend_of_le
    rw [List.length_append]
    omega
  have hboth : bufferAppend size queued (a ++ b) = queued ++ (a ++ b) := by
    apply bufferAppend_of_le
    rw [List.length_append]
    exact h
  rw [hfirst, hsecond, hboth, List.append_assoc]

/-- A split code and a unit behind it. -/
theorem Laid.unit (h : info.Laid units) {u : List Byte}
    (hroom : (coded (units ++ [u])).length ≤ videoFrameBufferSize) {info' : Rtp2FlvTransformInfo}
    (hbuffer : info'.videoFrameBuffer = bufferAppend videoFrameBufferSize
      (bufferAppend videoFrameBufferSize info.videoFrameBuffer h264SplitCode) u)
    (hpos : info'.useNaluSplitCode = false →
      info'.videoFrameBufferPos = info.videoFrameBufferPos ++ [info.videoFrameBuffer.length])
    (hmode : info'.useNaluSplitCode = info.useNaluSplitCode) : info'.Laid (units ++ [u]) := by
  rw [coded_unit, List.length_append, List.length_append] at hroom
  constructor
  · have hcode : (coded units).length + (h264SplitCode ++ u).length ≤ videoFrameBufferSize := by
      rw [List.length_append]
      exact hroom
    rw [hbuffer, h.buffer, bufferAppend_append hroom, bufferAppend_of_le hcode, coded_unit]
  · intro hoff
    rw [hpos hoff, h.pos (hmode ▸ hoff), h.buffer, positions_unit]

/-- The bytes of a fragment behind the last unit. -/
theorem Laid.grow (h : info.Laid units) (hne : units ≠ []) {bytes : List Byte}
    (hroom : (coded (growLast units bytes)).length ≤ videoFrameBufferSize)
    {info' : Rtp2FlvTransformInfo}
    (hbuffer : info'.videoFrameBuffer =
      bufferAppend videoFrameBufferSize info.videoFrameBuffer bytes)
    (hpos : info'.videoFrameBufferPos = info.videoFrameBufferPos)
    (hmode : info'.useNaluSplitCode = info.useNaluSplitCode) :
    info'.Laid (growLast units bytes) := by
  rw [coded_growLast hne, List.length_append] at hroom
  constructor
  · rw [hbuffer, h.buffer, bufferAppend_of_le hroom, coded_growLast hne]
  · intro hoff
    rw [hpos, h.pos (hmode ▸ hoff), positions_growLast hne]

theorem checkFragment_frame (info : Rtp2FlvTransformInfo) (seq : Seq) :
    (info.checkFragment seq).videoFrameBufferPos = info.videoFrameBufferPos ∧
      (info.checkFragment seq).useNaluSplitCode = info.useNaluSplitCode := by
  unfold checkFragment
  split
  · exact ⟨rfl, rfl⟩
  · exact ⟨rfl, rfl⟩

/-- A packet of the frame. -/
theorem Laid.takeVideo (h : info.Laid units) (hstart : units = [] → StartsUnit pkt)
    (hroom : (coded (takeUnit units pkt)).length ≤ videoFrameBufferSize) :
    (info.takeVideo pkt (extensionLen pkt)).Laid (takeUnit units pkt) := by
  obtain ⟨hpos, hmode⟩ := checkFragment_frame info pkt.seq
  have hbuffer := checkFragment_videoFrameBuffer info pkt.seq
  unfold Rtp2FlvTransformInfo.takeVideo
  unfold takeUnit at hroom ⊢
  dsimp only at hroom ⊢
  by_cases htype : byteAt pkt.data (extensionLen pkt) &&& 0x1f = 28
  case neg =>
    rw [if_pos htype] at hroom ⊢
    rw [if_pos htype]
    refine h.unit hroom rfl (fun hoff => ?_) rfl
    have hoff' : info.useNaluSplitCode = false := hoff
    show (if info.useNaluSplitCode then _ else _) = _
    rw [hoff', if_neg Bool.false_ne_true]
  case pos =>
    rw [if_neg (not_not.mpr htype)] at hroom ⊢
    rw [if_neg (not_not.mpr htype)]
    by_cases hfirst : byteAt pkt.data (extensionLen pkt + 1) &&& 0x80 = 0
    case pos =>
      have hne : units ≠ [] := fun hnil => hstart hnil htype hfirst
      rw [if_neg (not_not.mpr hfirst)] at hroom ⊢
      rw [if_neg (not_not.mpr hfirst)]
      refine h.grow hne hroom ?_ hpos hmode
      rw [← hbuffer]
      rfl
    case neg =>
      rw [if_pos hfirst] at hroom ⊢
      rw [if_pos hfirst]
      refine h.unit hroom ?_ (fun hoff => ?_) hmode
      · rw [coded_unit, List.length_append, List.length_append, List.length_cons, ← h.buffer]
          at hroom
        have hmark : bufferAppend videoFrameBufferSize info.videoFrameBuffer h264SplitCode =
            info.videoFrameBuffer ++ h264SplitCode := bufferAppend_of_le (by omega)
        show bufferAppend _ (bufferAppend _ (bufferAppend _ (info.checkFragment pkt.seq).videoFrameBuffer
          _) _) _ = _
        rw [hbuffer, bufferAppend_append]
        · rfl
        · rw [hmark, List.length_append, List.length_singleton]
          omega
      · have hoff' : (info.checkFragment pkt.seq).useNaluSplitCode = false := hoff
        show (if (info.checkFragment pkt.seq).useNaluSplitCode then _ else _) = _
        rw [hoff', if_neg Bool.false_ne_true, hpos, hbuffer]

theorem takeUnit_ne (units : List (List Byte)) (pkt : Rtp) : takeUnit units pkt ≠ [] := by
  unfold takeUnit
  dsimp only
  split
  · exact List.append_ne_nil_of_right_ne_nil _ (List.cons_ne_nil _ _)
  · split
    · exact List.append_ne_nil_of_right_ne_nil _ (List.cons_ne_nil _ _)
    · exact List.append_ne_nil_of_right_ne_nil _ (List.cons_ne_nil _ _)

theorem nalUnits_eq_nil (h : nalUnits pkts = []) : pkts = [] := by
  rcases List.eq_nil_or_concat' pkts with hnil | ⟨front, last, rfl⟩
  · exact hnil
  · rw [nalUnits_append] at h
    exact absurd h (takeUnit_ne _ _)

/-- The frame grows with each packet. -/
theorem length_coded_takeUnit (units : List (List Byte)) (pkt : Rtp) :
    (coded units).length ≤ (coded (takeUnit units pkt)).length := by
  unfold takeUnit
  dsimp only
  split
  · rw [coded_append, List.length_append]
    exact Nat.le_add_right _ _
  · split
    · rw [coded_append, List.length_append]
      exact Nat.le_add_right _ _
    · by_cases hnil : units = []
      · rw [hnil]
        exact Nat.zero_le _
      · rw [coded_growLast hnil, List.length_append]
        exact Nat.le_add_right _ _

/-- Packets that begin with the beginning of a unit, and fit, are laid out as their units. -/
theorem Built.laid (h : Built info pkts) (hstart : ∀ pkt, pkts.head? = some pkt → StartsUnit pkt)
    (hroom : (coded (nalUnits pkts)).length ≤ videoFrameBufferSize) :
    info.Laid (nalUnits pkts) ∧ ∀ u ∈ nalUnits pkts, u ≠ [] := by
  induction h with
  | empty hbuffer hpos => exact ⟨⟨hbuffer, hpos⟩, fun u hu => absurd hu List.not_mem_nil⟩
  | @packet info pkts pkt h hinside ih =>
    have hbefore : ∀ p, pkts.head? = some p → StartsUnit p := by
      intro p hp
      apply hstart p
      rw [List.head?_append, hp, Option.some_or]
    have hfirst : nalUnits pkts = [] → StartsUnit pkt := by
      intro hnil
      apply hstart pkt
      rw [nalUnits_eq_nil hnil]
      rfl
    rw [nalUnits_append] at hroom ⊢
    obtain ⟨hlaid, hne⟩ := ih hbefore (Nat.le_trans (length_coded_takeUnit _ _) hroom)
    exact ⟨hlaid.takeVideo hfirst hroom, takeUnit_ne_nil hne hinside hfirst⟩

/-- After `_put_video_frame` the frame buffer is empty. -/
theorem built_of_put {env : RemuxerEnv} {info' : Rtp2FlvTransformInfo}
    (h : (info.putVideoFrame env).result = .ok info') : Built info' [] := by
  unfold putVideoFrame at h
  simp only [Emit.result_bind, Emit.result_lift, Emit.result_pure] at h
  obtain ⟨a, -, h⟩ := bind_eq_ok.mp h
  obtain ⟨b, -, h⟩ := bind_eq_ok.mp h
  obtain ⟨c, -, h⟩ := bind_eq_ok.mp h
  cases h
  refine .empty rfl fun hmode => ?_
  have hmode' : c.useNaluSplitCode = false := hmode
  show (if c.useNaluSplitCode then _ else _) = _
  rw [hmode', if_neg Bool.false_ne_true]

theorem Built.room (h : Built info pkts) :
    info.videoFrameBuffer.length ≤ videoFrameBufferSize := by
  induction h with
  | empty hbuffer hpos =>
    rw [hbuffer]
    exact Nat.zero_le _
  | @packet info pkts pkt h hinside ih =>
    have hcheck := ih
    rw [← checkFragment_videoFrameBuffer info pkt.seq] at hcheck
    unfold Rtp2FlvTransformInfo.takeVideo
    dsimp only
    split
    · exact length_bufferAppend_le (markUnit_room ih)
    · split
      · exact length_bufferAppend_le (length_bufferAppend_le (markUnit_room hcheck))
      · exact length_bufferAppend_le hcheck

theorem built_putFrameIf {env : RemuxerEnv} {cond : Bool} {info' : Rtp2FlvTransformInfo}
    (hbuilt : Built info pkts) (h : (info.putFrameIf env cond).result = .ok info') :
    Built info' pkts ∨ Built info' [] := by
  unfold putFrameIf at h
  split at h
  · exact .inr (built_of_put h)
  · cases h
    exact .inl hbuilt

/-- Whatever `_set_rtp_to_buffer` makes of an H264 packet, the frame buffer holds what some packets
brought. -/
theorem built_setRtpToBuffer {env : RemuxerEnv} {len : Nat} {info' : Rtp2FlvTransformInfo}
    (hbuilt : Built info pkts) (hpayload : pkt.payload = RTP_AV_H264)
    (hlen : len = rtpHeaderLen + pkt.data.length) (hmax : len ≤ 2048) (hinside : PayloadInside pkt)
    (h : (info.setRtpToBuffer env pkt len).result = .ok info') :
    Built info' (pkts ++ [pkt]) ∨ Built info' [pkt] ∨ Built info' [] := by
  rw [setRtpToBuffer_inside hpayload hlen hmax hinside hbuilt.room, Emit.result_bind] at h
  obtain ⟨i, hi, h⟩ := bind_eq_ok.mp h
  rcases built_putFrameIf hbuilt hi with hsame | hnew
  · rcases built_putFrameIf (hsame.packet hinside) h with hkept | hput
    · exact .inl hkept
    · exact .inr (.inr hput)
  · rcases built_putFrameIf (hnew.packet hinside) h with hkept | hput
    · exact .inr (.inl hkept)
    · exact .inr (.inr hput)

/-! ## The body -/

/-- The size of `_temp_tag`. -/
def tempTagSize : Nat := 1024 * 1024

/-- The body is made without a read outside the frame and within `_temp_tag`, and behind its five
bytes are the units that are not parameter sets, each behind its size. -/
def TagDataRight (block frame : List Byte) (units : List (List Byte)) : Prop :=
  ∃ data, FLV.generateVideoTagData block frame = .ok data ∧ data.drop 5 = sized (pictures units) ∧
    flvTagLen + data.length ≤ tempTagSize

/-- Over its units, the body gets the pictures. -/
theorem visitUnits_add (units : List (List Byte)) (v : FLV.VideoData) :
    ∃ frame, visitUnits FLV.VideoData.add (fun _ => false) units v =
      .ok { frame := frame, units := v.units ++ sized (pictures units) } := by
  induction units generalizing v with
  | nil => exact ⟨v.frame, by rw [visitUnits, pictures, List.filter_nil, sized, List.flatMap_nil,
      List.append_nil]⟩
  | cons u us ih =>
    have hset : (nalType (NalUnit.ofBytes u).header = NAL_SPS ∨
        nalType (NalUnit.ofBytes u).header = NAL_PPS) ↔ isParameterSet (u.headD 0) = true := by
      unfold isParameterSet
      rw [Bool.or_eq_true, beq_iff_eq, beq_iff_eq]
      rfl
    rw [visitUnits, FLV.VideoData.add]
    simp only [hset]
    by_cases hp : isParameterSet (u.headD 0) = true
    case pos =>
      have hpictures : pictures (u :: us) = pictures us := by
        simp only [pictures, List.filter_cons, hp, Bool.not_true, Bool.false_eq_true, if_false]
      rw [if_pos hp, ok_bind, if_neg Bool.false_ne_true, hpictures]
      exact ih v
    case neg =>
      have hpictures : pictures (u :: us) = u :: pictures us := by
        simp only [pictures, List.filter_cons, hp, Bool.not_false, if_true]
      obtain ⟨frame, hrest⟩ := ih
        { frame := some (v.frame.getD
            (if nalType (NalUnit.ofBytes u).header = NAL_SLICE_IDR then 0x17 else 0x27))
          units := v.units ++ be32 (BitVec.ofNat 32 u.length) ++ u }
      refine ⟨frame, ?_⟩
      rw [if_neg hp, hpictures]
      have hsized : sized (u :: pictures us) =
          be32 (BitVec.ofNat 32 u.length) ++ u ++ sized (pictures us) := rfl
      rw [hsized, ← List.append_assoc, ← List.append_assoc]
      exact hrest

/-- The body of a frame whose units are found again. -/
theorem generateVideoTagData_layout {mode : Bool} (hdelimited : Delimited mode units)
    (hne : ∀ u ∈ units, u ≠ []) (hlen : (coded units).length < 2 ^ 32) (block : List Byte) :
    ∃ header, FLV.generateVideoTagData block (layout mode units) =
      .ok (header ++ sized (pictures units)) ∧ header.length = 5 := by
  obtain ⟨frame, hvisit⟩ := visitUnits_add units { frame := none, units := [] }
  unfold FLV.generateVideoTagData
  rw [scanNals_layout hdelimited hne hlen, hvisit, ok_bind]
  cases frame with
  | none => exact ⟨(List.range 5).map (byteAt block), rfl, by rw [List.length_map, List.length_range]⟩
  | some first => exact ⟨[first, 0x01, 0x00, 0x00, 0x00], rfl, rfl⟩

/-- Of a frame that was built from any packets in either mode, the body is right exactly if there is
room for the tag, provided that the units are found again: the first packet begins a unit, the units
fit into the frame buffer, and none has a start code in it or, behind sizes, the first size is not
taken for a split code. -/
theorem tag_data_iff (block : List Byte) (info : Rtp2FlvTransformInfo) (pkts : List Rtp)
    (hbuilt : Built info pkts) (hstart : ∀ pkt, pkts.head? = some pkt → StartsUnit pkt)
    (hroom : (coded (nalUnits pkts)).length ≤ videoFrameBufferSize)
    (hdelimited : Delimited info.useNaluSplitCode (nalUnits pkts)) :
    ∃ out, info.sizeFrame = .ok out ∧
      (TagDataRight block out.videoFrameBuffer (nalUnits pkts) ↔
        flvTagLen + 5 + (sized (pictures (nalUnits pkts))).length ≤ tempTagSize) := by
  have hsize : videoFrameBufferSize = 1048576 := rfl
  obtain ⟨hlaid, hne⟩ := hbuilt.laid hstart hroom
  obtain ⟨header, hdata, hfive⟩ := generateVideoTagData_layout hdelimited hne (by omega) block
  refine ⟨_, sizeFrame_laid hlaid, ?_⟩
  have hlength : (header ++ sized (pictures (nalUnits pkts))).length =
      5 + (sized (pictures (nalUnits pkts))).length := by
    rw [List.length_append, hfive]
  constructor
  · rintro ⟨data, hok, -, hfits⟩
    cases hdata.symm.trans hok
    omega
  · intro hfits
    refine ⟨_, hdata, ?_, by omega⟩
    rw [← hfive, List.drop_left]

/-- A unit of two bytes, and a fragmented one behind it. -/
def framePackets : List Rtp :=
  [h264Packet [0x41, 2], h264Packet [0x7c, 0x85, 1], h264Packet [0x7c, 0x45, 2]]

theorem framePackets_built : Built ((new frameEnv).takeFragments framePackets) framePackets := by
  have hempty : Built (new frameEnv) [] := .empty rfl fun _ => rfl
  have hunit := hempty.packet (show PayloadInside (h264Packet [0x41, 2]) by decide)
  have hstart := hunit.packet (show PayloadInside (h264Packet [0x7c, 0x85, 1]) by decide)
  exact hstart.packet (show PayloadInside (h264Packet [0x7c, 0x45, 2]) by decide)

theorem tag_data_iff_fragments :
    ∃ out, ((new frameEnv).takeFragments framePackets).sizeFrame = .ok out ∧
      TagDataRight [] out.videoFrameBuffer [[0x41, 2], [0x65, 1, 2]] := by
  obtain ⟨out, hout, hiff⟩ := tag_data_iff [] _ framePackets framePackets_built
    (fun pkt hpkt => by
      cases hpkt
      decide) (by decide) (by decide)
  exact ⟨out, hout, hiff.mpr (by decide)⟩

/-- Two units, the first of one byte, in the mode without split codes: the body has one unit of seven
bytes. -/
theorem short_first_unit_swallows :
    ¬ ∀ (block : List Byte) (info : Rtp2FlvTransformInfo) (pkts : List Rtp), Built info pkts →
      ∃ out, info.sizeFrame = .ok out ∧ TagDataRight block out.videoFrameBuffer (nalUnits pkts) := by
  intro hclaim
  have hempty : Built (new frameEnv) [] := .empty rfl fun _ => rfl
  have hfirst := hempty.packet (show PayloadInside (h264Packet [0x41]) by decide)
  have hbuilt := hfirst.packet (show PayloadInside (h264Packet [0x41, 2]) by decide)
  obtain ⟨out, hout, data, hdata, hdrop, -⟩ := hclaim [] _ _ hbuilt
  have hframe : out.videoFrameBuffer = [0, 0, 0, 1, 0x41, 0, 0, 0, 2, 0x41, 2] := by
    cases hout
    rfl
  have hbody : FLV.generateVideoTagData [] out.videoFrameBuffer =
      .ok [0x27, 1, 0, 0, 0, 0, 0, 0, 7, 0x41, 0, 0, 0, 2, 0x41, 2] := by
    rw [hframe]
    rfl
  cases hbody.symm.trans hdata
  exact absurd hdrop (by decide)

end RtcMcu.MediaManager.Rtp2FlvTransformInfo
