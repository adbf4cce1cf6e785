import RtcMcu.Avformat.H264Pieces
import RtcMcu.MediaManager.Rtp2FlvRemuxer

/-!
# A frame through RTP

The packets that `RTPEncodeH264` makes of a frame, read by `_set_rtp_to_buffer`. Each packet adds what
its payload carries to the frame buffer (`setRtpToBuffer_piece`); before the last packet nothing
leaves the buffer (`collect`), and the last one, whose marker is set, finds the whole frame there
(`h264_round_trip`).
-/

namespace RtcMcu.MediaManager.Rtp2FlvTransformInfo

open RtcMcu.Avformat RtcMcu.Avcodec

variable (env : RemuxerEnv) {info : Rtp2FlvTransformInfo} {timestamp : BitVec 32}

/-- The frame buffer holds `frame`, of packets with this timestamp. -/
structure Holds (info : Rtp2FlvTransformInfo) (timestamp : BitVec 32) (frame : List Byte) :
    Prop where
  buffer : info.videoFrameBuffer = frame
  videoFrameTs : frame ≠ [] → info.videoFrameTs = timestamp

/-! ## Appending -/

/-- What of the packet lies behind `offset` goes into the frame buffer, when there is room. -/
theorem appendPayload_ok (info : Rtp2FlvTransformInfo) {pkt : Rtp} {len offset : Nat}
    (hlen : len = rtpHeaderLen + pkt.data.length) (hsmall : len < 2 ^ 16)
    (hoffset : offset ≤ pkt.data.length)
    (hfit : info.videoFrameBuffer.length + (pkt.data.drop offset).length ≤ videoFrameBufferSize) :
    info.appendPayload pkt len offset =
      .ok { info with videoFrameBuffer := info.videoFrameBuffer ++ pkt.data.drop offset } := by
  have hsize : videoFrameBufferSize = 1048576 := rfl
  rw [List.length_drop] at hfit
  have hrest : (BitVec.ofNat 64 len - BitVec.ofNat 64 rtpHeaderLen - BitVec.ofNat 64 offset).toNat =
      pkt.data.length - offset := by
    rw [rtpHeaderLen] at *
    simp only [BitVec.toNat_sub, BitVec.toNat_ofNat]
    omega
  have hnot : ¬ BitVec.ofNat 64 videoFrameBufferSize <
      BitVec.ofNat 64 info.videoFrameBuffer.length +
        (BitVec.ofNat 64 len - BitVec.ofNat 64 rtpHeaderLen - BitVec.ofNat 64 offset) := by
    rw [BitVec.lt_def, BitVec.toNat_add, hrest]
    simp only [BitVec.toNat_ofNat]
    omega
  have hslice : slice pkt.data offset (pkt.data.length - offset) = .ok (pkt.data.drop offset) := by
    rw [slice, if_pos (by omega), ← List.length_drop, List.take_length]
  rw [appendPayload, appendFrom, if_neg hnot, hrest, hslice]
  rfl

/-- A packet that is a whole unit. -/
theorem appendUnit_holds {pkt : Rtp} {len : Nat} {frame : List Byte}
    (hinfo : info.Holds timestamp frame) (hts : pkt.timestamp = timestamp)
    (hlen : len = rtpHeaderLen + pkt.data.length) (hsmall : len < 2 ^ 16)
    (hfit : frame.length + (h264SplitCode ++ pkt.data).length ≤ videoFrameBufferSize) :
    ∃ info', info.appendUnit pkt len 0 = .ok info' ∧
      info'.Holds timestamp (frame ++ (h264SplitCode ++ pkt.data)) := by
  obtain ⟨hbuffer, -⟩ := hinfo
  rw [List.length_append] at hfit
  have hmark : info.markUnit.videoFrameBuffer = frame ++ h264SplitCode := by
    rw [markUnit, hbuffer]
    exact bufferAppend_of_le (by omega)
  have happend := appendPayload_ok info.markUnit hlen hsmall (Nat.zero_le _)
    (by rw [hmark, List.length_append, List.drop_zero]; omega)
  rw [List.drop_zero, hmark] at happend
  refine ⟨{ info.markUnit with
    videoFrameBuffer := frame ++ h264SplitCode ++ pkt.data
    videoFrameTs := pkt.timestamp }, ?_, ?_, fun _ => hts⟩
  · rw [appendUnit, happend]
    rfl
  · exact List.append_assoc _ _ _

/-- A packet that is a fragment. One that does not start a unit comes after one that does. -/
theorem appendFragment_holds {pkt : Rtp} {len : Nat} {frame bytes : List Byte}
    {indicator fragment : Byte} (hinfo : info.Holds timestamp frame)
    (hdata : pkt.data = indicator :: fragment :: bytes) (htype : indicator &&& 0x1f = 28)
    (hts : pkt.timestamp = timestamp) (hlen : len = rtpHeaderLen + pkt.data.length)
    (hsmall : len < 2 ^ 16) (hstart : frame = [] → starts pkt.data = true)
    (hfit : frame.length + (unwrap pkt.data).length ≤ videoFrameBufferSize) :
    ∃ info', info.appendFragment pkt len 0 indicator = .ok info' ∧
      info'.Holds timestamp (frame ++ unwrap pkt.data) := by
  obtain ⟨hbuffer, hfirst⟩ := hinfo
  have hread : readByte pkt.data (0 + 1) = .ok fragment := by
    rw [hdata]
    rfl
  have hdrop : pkt.data.drop (0 + 2) = bytes := by
    rw [hdata]
    rfl
  have htwo : 0 + 2 ≤ pkt.data.length := by
    rw [hdata, List.length_cons, List.length_cons]
    omega
  have hchecked : (info.checkFragment pkt.seq).videoFrameBuffer = frame ∧
      (info.checkFragment pkt.seq).videoFrameTs = info.videoFrameTs := by
    rw [checkFragment]
    split
    · exact ⟨hbuffer, rfl⟩
    · exact ⟨hbuffer, rfl⟩
  obtain ⟨hbuffer', hts'⟩ := hchecked
  have hunwrap : unwrap pkt.data =
      (if fragment &&& 0x80 ≠ 0 then
        h264SplitCode ++ [(indicator &&& 0xe0) ||| (fragment &&& 0x1f)] else []) ++ bytes := by
    rw [hdata, unwrap, if_neg (not_not.mpr htype)]
  rw [hunwrap] at hfit ⊢
  rw [appendFragment, hread, ok_bind]
  dsimp only
  by_cases hs : fragment &&& 0x80 ≠ 0
  case pos =>
    rw [if_pos hs] at hfit ⊢
    rw [if_pos hs]
    simp only [List.length_append, List.length_singleton] at hfit
    have hmark : (info.checkFragment pkt.seq).markUnit.videoFrameBuffer =
        frame ++ h264SplitCode := by
      rw [markUnit, hbuffer']
      exact bufferAppend_of_le (by omega)
    have hunit : ((info.checkFragment pkt.seq).startUnit pkt indicator fragment).videoFrameBuffer =
        frame ++ h264SplitCode ++ [(indicator &&& 0xe0) ||| (fragment &&& 0x1f)] := by
      rw [startUnit]
      dsimp only
      rw [hmark]
      apply bufferAppend_of_le
      rw [List.length_append, List.length_singleton]
      omega
    have happend := appendPayload_ok
      ((info.checkFragment pkt.seq).startUnit pkt indicator fragment) hlen hsmall htwo
      (by
        rw [hunit, hdrop, List.length_append, List.length_append, List.length_singleton]
        omega)
    rw [happend, hunit, hdrop]
    refine ⟨_, rfl, ?_, fun _ => hts⟩
    simp only [List.append_assoc]
  case neg =>
    rw [if_neg hs] at hfit ⊢
    rw [if_neg hs]
    have happend := appendPayload_ok (info.checkFragment pkt.seq) hlen hsmall htwo
      (by rw [hbuffer', hdrop]; exact hfit)
    rw [happend, hbuffer', hdrop]
    refine ⟨_, rfl, rfl, fun _ => ?_⟩
    show (info.checkFragment pkt.seq).videoFrameTs = timestamp
    rw [hts']
    apply hfirst
    intro hnil
    have hstarts := hstart hnil
    rw [hdata, starts] at hstarts
    simp only [Bool.or_eq_true, bne_iff_ne, htype] at hstarts
    rcases hstarts with h | h
    · exact h rfl
    · exact hs h

/-! ## Packets -/

/-- A packet with the timestamp of the frame adds what its payload carries, and ends the frame if its
marker is set. -/
theorem setRtpToBuffer_piece {data : RTPData} {frame : List Byte} (hframed : data.Framed timestamp)
    (hread : readable data.piece.payload = true) (hinfo : info.Holds timestamp frame)
    (hstart : frame = [] → starts data.piece.payload = true)
    (hfit : frame.length + (unwrap data.piece.payload).length ≤ videoFrameBufferSize) :
    ∃ info' : Rtp2FlvTransformInfo, info'.Holds timestamp (frame ++ unwrap data.piece.payload) ∧
      info.setRtpToBuffer env data.header data.len.toNat =
        info'.putFrameIf env data.piece.marker := by
  obtain ⟨hpayload, hext, hts, hlen⟩ := hframed
  have hsmall := data.len.isLt
  change readable data.header.data = true at hread
  change frame = [] → starts data.header.data = true at hstart
  change frame.length + (unwrap data.header.data).length ≤ _ at hfit
  have hoffset : payloadOffset data.header = .ok 0 := by
    rw [payloadOffset, hext]
    rfl
  have hkeep : info.putFrameIf env (info.videoFrameTs != data.header.timestamp) = pure info := by
    rw [putFrameIf, hinfo.buffer]
    by_cases hne : frame = []
    · rw [hne, bne_self_eq_false, Bool.and_false]
      rfl
    · rw [hinfo.videoFrameTs hne, hts, bne_self_eq_false, Bool.false_and]
      rfl
  obtain ⟨indicator, rest, hdata⟩ : ∃ indicator rest, data.header.data = indicator :: rest := by
    apply List.exists_cons_of_ne_nil
    intro hnil
    rw [hnil] at hread
    cases hread
  have hindicator : readByte data.header.data 0 = .ok indicator := by
    rw [hdata]
    rfl
  have happended : ∃ info' : Rtp2FlvTransformInfo,
      (if indicator &&& 0x1f ≠ 28 then info.appendUnit data.header data.len.toNat 0
        else info.appendFragment data.header data.len.toNat 0 indicator) = .ok info' ∧
        info'.Holds timestamp (frame ++ unwrap data.header.data) := by
    by_cases htype : indicator &&& 0x1f ≠ 28
    case pos =>
      have hunwrap : unwrap data.header.data = h264SplitCode ++ data.header.data := by
        rw [hdata]
        exact if_pos htype
      rw [if_pos htype, hunwrap]
      rw [hunwrap] at hfit
      exact appendUnit_holds hinfo hts hlen hsmall hfit
    case neg =>
      have htype' : indicator &&& 0x1f = 28 := not_not.mp htype
      rw [if_neg htype]
      cases rest with
      | nil =>
        rw [hdata, readable] at hread
        simp only [htype', bne_self_eq_false, Bool.or_self] at hread
        cases hread
      | cons fragment bytes =>
        exact appendFragment_holds hinfo hdata htype' hts hlen hsmall hstart hfit
  obtain ⟨info', happend, hinfo'⟩ := happended
  refine ⟨info', hinfo', ?_⟩
  have hmarker : (data.header.marker == 1) = data.piece.marker := rfl
  rw [setRtpToBuffer, hoffset]
  change (if data.header.payload = RTP_AV_H264 then
    info.setVideo env data.header data.len.toNat 0 else _) = _
  rw [if_pos hpayload, setVideo, hindicator]
  change (info.putFrameIf env _ >>= _) = _
  rw [hkeep]
  change (Emit.lift (ite _ _ _) >>= _) = _
  rw [happend, hmarker]
  rfl

/-- The packets of a frame, without the last, are collected: nothing leaves the buffer. -/
theorem collect {frame : List Byte} (sent : List RTPData) (hframed : ∀ d ∈ sent, d.Framed timestamp)
    (hread : ∀ d ∈ sent, readable d.piece.payload = true)
    (hmarker : ∀ d ∈ sent, d.piece.marker = false) (hinfo : info.Holds timestamp frame)
    (hstart : frame = [] → ∀ d ∈ sent.head?, starts d.piece.payload = true)
    (hfit : frame.length + (sent.flatMap fun d => unwrap d.piece.payload).length ≤
      videoFrameBufferSize) :
    ∃ info' : Rtp2FlvTransformInfo,
      info'.Holds timestamp (frame ++ sent.flatMap fun d => unwrap d.piece.payload) ∧
      sent.foldlM (fun (info : Rtp2FlvTransformInfo) d =>
        info.setRtpToBuffer env d.header d.len.toNat) info = pure info' := by
  induction sent generalizing info frame with
  | nil =>
    refine ⟨info, ?_, rfl⟩
    rwa [List.flatMap_nil, List.append_nil]
  | cons d sent ih =>
    rw [List.flatMap_cons, List.length_append] at hfit
    have hstart' : frame = [] → starts d.piece.payload = true := fun hnil => hstart hnil d rfl
    obtain ⟨info₁, hinfo₁, hstep⟩ := setRtpToBuffer_piece env
      (hframed d List.mem_cons_self) (hread d List.mem_cons_self) hinfo hstart' (by omega)
    have hkeep : info₁.putFrameIf env d.piece.marker = pure info₁ := by
      rw [hmarker d List.mem_cons_self]
      rfl
    -- from its first packet on the frame is not empty, so that no later packet has to start a unit
    have hne : frame ++ unwrap d.piece.payload ≠ [] := by
      intro hnil
      obtain ⟨hframe, hunwrap⟩ := List.append_eq_nil_iff.mp hnil
      exact unwrap_ne_nil (hstart' hframe) hunwrap
    obtain ⟨info₂, hinfo₂, hrest⟩ :=
      ih (fun e he => hframed e (List.mem_cons_of_mem d he))
        (fun e he => hread e (List.mem_cons_of_mem d he))
        (fun e he => hmarker e (List.mem_cons_of_mem d he)) hinfo₁
        (fun hnil => absurd hnil hne) (by rw [List.length_append]; omega)
    refine ⟨info₂, ?_, ?_⟩
    · rwa [List.flatMap_cons, ← List.append_assoc]
    · rw [List.foldlM_cons, hstep, hkeep]
      exact hrest

/-- The packets made of a frame rebuild it. The encoder makes packets of every list of units; only the
last of them has the marker. The packets before it are collected, and when it is read, the buffer that
`_put_video_frame` takes holds each unit behind a start code. -/
theorem h264_round_trip {enc : RTPEncodeH264} {nals : List (List Byte)}
    (hmax : 23 ≤ enc.maxRtpPacketLen.toNat) (hne : nals ≠ []) (hnals : ∀ nal ∈ nals, Carried nal)
    (hfit : (nals.flatMap (h264SplitCode ++ ·)).length ≤ videoFrameBufferSize)
    (hempty : info.videoFrameBuffer = []) :
    ∃ enc' front last, ∃ info₁ info₂ : Rtp2FlvTransformInfo,
      RTPEncodeH264.generateUnits timestamp enc nals = .ok enc' ∧
      enc'.rtpDataVec = enc.rtpDataVec ++ (front ++ [last]) ∧
      (∀ d ∈ front, d.header.marker = 0) ∧ last.header.marker = 1 ∧
      front.foldlM (fun (info : Rtp2FlvTransformInfo) d =>
        info.setRtpToBuffer env d.header d.len.toNat) info = pure info₁ ∧
      info₁.setRtpToBuffer env last.header last.len.toNat = info₂.putVideoFrame env ∧
      info₂.videoFrameBuffer = nals.flatMap (h264SplitCode ++ ·) := by
  obtain ⟨enc', hgenerate, -, -, sent, hvec, hpieces, hframed⟩ :=
    RTPEncodeH264.generateUnits_sends timestamp hmax
      fun nal hnal => (hnals nal hnal).ne_nil
  have hroom := RTPEncodeH264.getMaxPayloadLen_toNat hmax
  have hpos : 0 < enc.getMaxPayloadLen.toNat := by omega
  obtain ⟨frontPieces, lastPiece, hsplit, hfrontMarker, hlastMarker⟩ :=
    framePieces_marker hpos hne fun nal hnal => (hnals nal hnal).ne_nil
  obtain ⟨hread, hstart⟩ := framePieces_readable hpos hnals
  have hbytes := framePieces_flatMap hpos hnals
  rw [← hpieces] at hread hstart hbytes
  rw [List.flatMap_map] at hbytes
  obtain ⟨front, lasts, rfl, hfront, hlasts⟩ := List.map_eq_append_iff.mp (hpieces.trans hsplit)
  obtain ⟨last, rfl, hlast⟩ := List.map_eq_singleton_iff.mp hlasts
  have hmarkers : ∀ d ∈ front, d.piece.marker = false := fun d hd =>
    hfrontMarker d.piece (hfront ▸ List.mem_map_of_mem hd)
  have hmarker : last.piece.marker = true := hlast ▸ hlastMarker
  have hreads : ∀ d ∈ front ++ [last], readable d.piece.payload = true := fun d hd =>
    hread d.piece (List.mem_map_of_mem hd)
  have hstarts : ∀ d ∈ (front ++ [last]).head?, starts d.piece.payload = true := by
    intro d hd
    apply hstart d.piece
    rw [List.head?_map, hd]
    rfl
  rw [← hbytes, List.flatMap_append, List.flatMap_singleton, List.length_append] at hfit
  obtain ⟨info₁, hinfo₁, hcollect⟩ := collect env front
    (fun d hd => hframed d (List.mem_append_left _ hd))
    (fun d hd => hreads d (List.mem_append_left _ hd)) hmarkers
    (⟨hempty, fun h => absurd rfl h⟩ : info.Holds (enc.rtpTimestamp timestamp) [])
    (fun _ d hd => hstarts d (by rw [List.head?_append, hd]; rfl))
    (by rw [List.length_nil]; omega)
  rw [List.nil_append] at hinfo₁
  have hstartLast : (front.flatMap fun d => unwrap d.piece.payload) = [] →
      starts last.piece.payload = true := by
    intro hnil
    apply hstarts
    cases front with
    | nil => rfl
    | cons d front =>
      rw [List.flatMap_cons] at hnil
      have hd := hstarts d rfl
      exact absurd (List.append_eq_nil_iff.mp hnil).1 (unwrap_ne_nil hd)
  obtain ⟨info₂, hinfo₂, hput⟩ := setRtpToBuffer_piece env
    (hframed last (List.mem_append_right _ List.mem_cons_self))
    (hreads last (List.mem_append_right _ List.mem_cons_self)) hinfo₁ hstartLast hfit
  have hframe : info₂.videoFrameBuffer = nals.flatMap (h264SplitCode ++ ·) := by
    rw [hinfo₂.buffer, ← hbytes, List.flatMap_append, List.flatMap_singleton]
  have hfull : info₂.videoFrameBuffer ≠ [] := by
    rw [hframe]
    obtain ⟨nal, nals, rfl⟩ := List.exists_cons_of_ne_nil hne
    rw [List.flatMap_cons]
    exact List.cons_ne_nil _ _
  refine ⟨enc', front, last, info₁, info₂, hgenerate, hvec, ?_, ?_, hcollect, ?_, hframe⟩
  · intro d hd
    have hfalse := hmarkers d hd
    have hall : ∀ b : BitVec 1, (b == 1) = false → b = 0 := by decide
    exact hall _ hfalse
  · exact beq_iff_eq.mp hmarker
  · rw [hput, hmarker, putFrameIf, Bool.true_and, if_pos (bne_iff_ne.mpr hfull)]

/-- The shortest packets that carry a unit, from the last 16-bit number on. -/
def oneByteEncoder : RTPEncodeH264 :=
  { (RTPEncodeH264.init 7 90000 23 1).get rfl with seqNum := 0xFFFF }

def frameEnv : RemuxerEnv where
  enableCheckBrokenFrame := true
  enableUseNaluSplitCode := false
  jitterBufferTime := 50
  muxerQueueThreshold := 0
  parseSdp _ := []
  toMs ts timeBase := ts / (timeBase / 1000)
  headerData := { metadataTag := fun _ _ => [], avc0Data := fun _ => none }
  rule := .firstOldest
  stray := 0
  block := []
  unsetTimeBase := 0

/-- Two units, each in fragments of one byte; the last fragment of each is empty. -/
theorem h264_round_trip_one_byte :
    ∃ enc' front last, ∃ info₁ info₂ : Rtp2FlvTransformInfo,
      RTPEncodeH264.generateUnits 40 oneByteEncoder [[0x67, 1], [0x65, 1, 2, 3]] = .ok enc' ∧
      enc'.rtpDataVec = oneByteEncoder.rtpDataVec ++ (front ++ [last]) ∧
      (∀ d ∈ front, d.header.marker = 0) ∧ last.header.marker = 1 ∧
      front.foldlM (fun (info : Rtp2FlvTransformInfo) d =>
        info.setRtpToBuffer frameEnv d.header d.len.toNat) (new frameEnv) = pure info₁ ∧
      info₁.setRtpToBuffer frameEnv last.header last.len.toNat = info₂.putVideoFrame frameEnv ∧
      info₂.videoFrameBuffer = [[0x67, 1], [0x65, 1, 2, 3]].flatMap (h264SplitCode ++ ·) := by
  apply h264_round_trip frameEnv (by decide) (by decide) _ (by decide) rfl
  intro nal hnal
  simp only [List.mem_cons, List.not_mem_nil, or_false] at hnal
  rcases hnal with rfl | rfl
  · exact ⟨by decide, by decide, by decide, by decide⟩
  · exact ⟨by decide, by decide, by decide, by decide⟩

end RtcMcu.MediaManager.Rtp2FlvTransformInfo
