import Mathlib.Data.List.Range
import RtcMcu.MediaManager.PayloadBounds

/-!
# The check of a fragmented frame

`is_cur_frame_valied` is meant to tell whether the fragments of a frame came without a gap. What it
comes to (`takeFragments_valied`): a frame that starts with number 0 is not checked at all, because
the code takes 0 for "no fragment before", and of every other frame the numbers have to count up as
integers, so that a frame with the numbers 65535 and 0 in it fails. `frame_check_iff` says for which
frames the flag is right.
-/

namespace RtcMcu.MediaManager.Rtp2FlvTransformInfo

open RtcMcu.Avformat RtcMcu.Avcodec

/-! ## Frames -/

/-- A frame that was sent as fragments of one NAL unit, with consecutive numbers. -/
structure FuFrame where
  start : Seq
  timestamp : BitVec 32
  count : Nat
  packet : Nat → Rtp
  payload : ∀ i < count, (packet i).payload = RTP_AV_H264
  inside : ∀ i < count, PayloadInside (packet i)
  fits : ∀ i < count, rtpHeaderLen + (packet i).data.length ≤ 2048
  isFragment : ∀ i < count, byteAt (packet i).data (extensionLen (packet i)) &&& 0x1f = 28
  starts : ∀ i < count, byteAt (packet i).data (extensionLen (packet i) + 1) &&& 0x80 ≠ 0 ↔ i = 0
  seq : ∀ i < count, (packet i).seq = start + BitVec.ofNat 16 i
  sameTimestamp : ∀ i < count, (packet i).timestamp = timestamp
  /-- only the last packet of the frame may have the marker -/
  marker : ∀ i, i + 1 < count → (packet i).marker = 0

namespace FuFrame

/-- These fragments arrive, in order and from the first one on. -/
structure Receives (frame : FuFrame) (received : List Nat) : Prop where
  sorted : received.Pairwise (· < ·)
  first : ∃ rest, received = 0 :: rest
  sent : ∀ i ∈ received, i < frame.count

/-- A fragment before one that arrives is missing. -/
def Missing (received : List Nat) : Prop := ∃ i, i ∉ received ∧ ∃ j ∈ received, i < j

/-- The numbers of the fragments that arrive. -/
def numbers (frame : FuFrame) (received : List Nat) : List Seq :=
  received.map fun i => (frame.packet i).seq

end FuFrame

/-- Every number is, as an integer, one more than the one before. -/
def CountsUp (seqs : List Seq) : Prop := seqs.IsChain fun a b => b.toNat = a.toNat + 1

instance (seqs : List Seq) : Decidable (CountsUp seqs) := by
  unfold CountsUp
  infer_instance

/-- What nothing was put in yet, or the fragment before, lets the frame start with this number. -/
def StartsClean (info : Rtp2FlvTransformInfo) (start : Seq) : Prop :=
  info.isCurFrameValied = true ∧
    (info.lastVideoSeq = 0 ∨ start.toNat = info.lastVideoSeq.toNat + 1)

/-- After `_put_video_frame` the next frame starts clean. -/
theorem startsClean_of_put {env : RemuxerEnv} {info info' : Rtp2FlvTransformInfo}
    (h : (info.putVideoFrame env).result = .ok info') (start : Seq) : info'.StartsClean start := by
  unfold putVideoFrame at h
  simp only [Emit.result_bind, Emit.result_lift, Emit.result_pure] at h
  obtain ⟨a, -, h⟩ := bind_eq_ok.mp h
  obtain ⟨b, -, h⟩ := bind_eq_ok.mp h
  obtain ⟨c, -, h⟩ := bind_eq_ok.mp h
  cases h
  exact ⟨rfl, .inl rfl⟩

/-- The frame buffer after these packets. -/
def takeFragments (info : Rtp2FlvTransformInfo) (pkts : List Rtp) : Rtp2FlvTransformInfo :=
  pkts.foldl (fun info pkt => info.takeVideo pkt (extensionLen pkt)) info

/-! ## One fragment -/

variable {info : Rtp2FlvTransformInfo} {pkt : Rtp}

theorem checkFragment_of_zero (h : info.lastVideoSeq = 0) (seq : Seq) :
    info.checkFragment seq = info := by
  rw [checkFragment, h, if_neg (by decide)]

theorem checkFragment_of_ne (h : info.lastVideoSeq ≠ 0) (seq : Seq) :
    info.checkFragment seq =
      { info with
        isCurFrameValied :=
          info.isCurFrameValied && decide (seq.toNat = info.lastVideoSeq.toNat + 1)
        lastVideoSeq := seq } := by
  rw [checkFragment, if_pos]
  rw [BitVec.lt_def]
  have hne : info.lastVideoSeq.toNat ≠ 0 := fun h0 => h (BitVec.eq_of_toNat_eq h0)
  exact Nat.pos_of_ne_zero hne

/-- A fragment that does not start a unit is checked, and its payload appended. -/
theorem takeVideo_inner (htype : byteAt pkt.data (extensionLen pkt) &&& 0x1f = 28)
    (hinner : byteAt pkt.data (extensionLen pkt + 1) &&& 0x80 = 0) :
    info.takeVideo pkt (extensionLen pkt) =
      (info.checkFragment pkt.seq).appendRest pkt (extensionLen pkt + 2) := by
  rw [takeVideo, if_neg (not_not.mpr htype)]
  dsimp only
  rw [if_neg (not_not.mpr hinner)]

theorem takeVideo_first (htype : byteAt pkt.data (extensionLen pkt) &&& 0x1f = 28)
    (hstart : byteAt pkt.data (extensionLen pkt + 1) &&& 0x80 ≠ 0) :
    info.takeVideo pkt (extensionLen pkt) =
      ((info.checkFragment pkt.seq).startUnit pkt (byteAt pkt.data (extensionLen pkt))
        (byteAt pkt.data (extensionLen pkt + 1))).appendRest pkt (extensionLen pkt + 2) := by
  rw [takeVideo, if_neg (not_not.mpr htype)]
  dsimp only
  rw [if_pos hstart]

/-- The first fragment: its number is the one the next is compared with. -/
theorem takeVideo_first_checks (info : Rtp2FlvTransformInfo)
    (htype : byteAt pkt.data (extensionLen pkt) &&& 0x1f = 28)
    (hstart : byteAt pkt.data (extensionLen pkt + 1) &&& 0x80 ≠ 0) :
    (info.takeVideo pkt (extensionLen pkt)).lastVideoSeq = pkt.seq ∧
      (info.takeVideo pkt (extensionLen pkt)).videoFrameTs = pkt.timestamp ∧
      ((info.takeVideo pkt (extensionLen pkt)).isCurFrameValied = true ↔
        info.StartsClean pkt.seq) := by
  rw [takeVideo_first htype hstart]
  refine ⟨rfl, rfl, ?_⟩
  show (info.checkFragment pkt.seq).isCurFrameValied = true ↔ _
  unfold StartsClean
  by_cases hlast : info.lastVideoSeq = 0
  case pos =>
    rw [checkFragment_of_zero hlast]
    exact ⟨fun h => ⟨h, .inl hlast⟩, fun h => h.1⟩
  case neg =>
    rw [checkFragment_of_ne hlast]
    simp only [Bool.and_eq_true, decide_eq_true_eq, hlast, false_or]

/-! ## The fragments behind the first -/

/-- The packets are fragments that do not start a unit. -/
def Inner (pkts : List Rtp) : Prop :=
  ∀ pkt ∈ pkts, byteAt pkt.data (extensionLen pkt) &&& 0x1f = 28 ∧
    byteAt pkt.data (extensionLen pkt + 1) &&& 0x80 = 0

/-- Behind number 0 nothing is checked. -/
theorem takeFragments_unchecked {pkts : List Rtp} (hinner : Inner pkts)
    (hlast : info.lastVideoSeq = 0) :
    (info.takeFragments pkts).isCurFrameValied = info.isCurFrameValied := by
  induction pkts generalizing info with
  | nil => rfl
  | cons pkt pkts ih =>
    obtain ⟨htype, hnot⟩ := hinner pkt List.mem_cons_self
    have hstep : info.takeVideo pkt (extensionLen pkt) =
        info.appendRest pkt (extensionLen pkt + 2) := by
      rw [takeVideo_inner htype hnot, checkFragment_of_zero hlast]
    have hinner' : Inner pkts := fun p hp => hinner p (List.mem_cons_of_mem pkt hp)
    have hlast' : (info.appendRest pkt (extensionLen pkt + 2)).lastVideoSeq = 0 := hlast
    rw [takeFragments, List.foldl_cons, hstep]
    exact ih hinner' hlast'

/-- Behind another number the flag stays set as long as the numbers count up. -/
theorem takeFragments_checked {pkts : List Rtp} (hinner : Inner pkts)
    (hlast : info.lastVideoSeq ≠ 0) :
    (info.takeFragments pkts).isCurFrameValied = true ↔
      info.isCurFrameValied = true ∧ CountsUp (info.lastVideoSeq :: pkts.map (·.seq)) := by
  induction pkts generalizing info with
  | nil => exact ⟨fun h => ⟨h, List.IsChain.singleton _⟩, fun h => h.1⟩
  | cons pkt pkts ih =>
    obtain ⟨htype, hnot⟩ := hinner pkt List.mem_cons_self
    have hinner' : Inner pkts := fun p hp => hinner p (List.mem_cons_of_mem pkt hp)
    have hstep : info.takeVideo pkt (extensionLen pkt) =
        (info.checkFragment pkt.seq).appendRest pkt (extensionLen pkt + 2) :=
      takeVideo_inner htype hnot
    rw [takeFragments, List.foldl_cons, hstep, checkFragment_of_ne hlast, List.map_cons, CountsUp,
      List.isChain_cons_cons]
    generalize hnext : appendRest _ pkt (extensionLen pkt + 2) = next
    have hseq : next.lastVideoSeq = pkt.seq := by
      rw [← hnext]
      rfl
    have hvalid : next.isCurFrameValied =
        (info.isCurFrameValied && decide (pkt.seq.toNat = info.lastVideoSeq.toNat + 1)) := by
      rw [← hnext]
      rfl
    change (next.takeFragments pkts).isCurFrameValied = true ↔ _
    by_cases hzero : pkt.seq = 0
    case pos =>
      -- 0 is no integer's successor: the flag falls, and nothing sets it again
      have hno : ¬ pkt.seq.toNat = info.lastVideoSeq.toNat + 1 := by
        rw [hzero]
        exact fun h => Nat.succ_ne_zero _ h.symm
      rw [takeFragments_unchecked hinner' (hseq.trans hzero), hvalid, decide_eq_false hno,
        Bool.and_false]
      exact iff_of_false Bool.false_ne_true fun h => hno h.2.1
    case neg =>
      rw [ih hinner' (by rw [hseq]; exact hzero), hseq, hvalid, Bool.and_eq_true,
        decide_eq_true_eq, and_assoc]
      rfl

/-- What the flag comes to behind a frame's fragments. -/
theorem takeFragments_valied (info : Rtp2FlvTransformInfo) {first : Rtp} {rest : List Rtp}
    (htype : byteAt first.data (extensionLen first) &&& 0x1f = 28)
    (hstart : byteAt first.data (extensionLen first + 1) &&& 0x80 ≠ 0) (hinner : Inner rest) :
    (info.takeFragments (first :: rest)).isCurFrameValied = true ↔
      info.StartsClean first.seq ∧
        (first.seq = 0 ∨ CountsUp (first.seq :: rest.map (·.seq))) := by
  obtain ⟨hseq, -, hclean⟩ := takeVideo_first_checks info htype hstart
  rw [takeFragments, List.foldl_cons]
  change ((info.takeVideo first (extensionLen first)).takeFragments rest).isCurFrameValied = true ↔
    _
  by_cases hzero : first.seq = 0
  case pos =>
    rw [takeFragments_unchecked hinner (hseq.trans hzero), hclean]
    exact ⟨fun h => ⟨h, .inl hzero⟩, fun h => h.1⟩
  case neg =>
    rw [takeFragments_checked hinner (by rw [hseq]; exact hzero), hclean, hseq]
    simp only [hzero, false_or]

/-! ## When the frame is put -/

/-- The frame buffer is not empty and has the timestamp of the frame. -/
structure Filling (info : Rtp2FlvTransformInfo) (timestamp : BitVec 32) : Prop where
  videoFrameTs : info.videoFrameTs = timestamp
  nonempty : info.videoFrameBuffer ≠ []
  room : info.videoFrameBuffer.length ≤ videoFrameBufferSize

variable {timestamp : BitVec 32}

theorem Filling.appendRest (h : info.Filling timestamp) (pkt : Rtp) (offset : Nat) :
    (info.appendRest pkt offset).Filling timestamp :=
  ⟨h.videoFrameTs, bufferAppend_ne_nil h.nonempty, length_bufferAppend_le h.room⟩

theorem Filling.checkFragment (h : info.Filling timestamp) (seq : Seq) :
    (info.checkFragment seq).Filling timestamp := by
  unfold Rtp2FlvTransformInfo.checkFragment
  split
  · exact ⟨h.videoFrameTs, h.nonempty, h.room⟩
  · exact h

/-- The first fragment of a unit, on an empty buffer. -/
theorem filling_first (hempty : info.videoFrameBuffer = [])
    (htype : byteAt pkt.data (extensionLen pkt) &&& 0x1f = 28)
    (hstart : byteAt pkt.data (extensionLen pkt + 1) &&& 0x80 ≠ 0) :
    (info.takeVideo pkt (extensionLen pkt)).Filling pkt.timestamp := by
  rw [takeVideo_first htype hstart]
  have hmark : (info.checkFragment pkt.seq).markUnit.videoFrameBuffer = h264SplitCode := by
    rw [markUnit, checkFragment_videoFrameBuffer, hempty]
    rfl
  apply Filling.appendRest
  refine ⟨rfl, ?_, ?_⟩
  · show bufferAppend _ (info.checkFragment pkt.seq).markUnit.videoFrameBuffer _ ≠ []
    rw [hmark]
    exact bufferAppend_ne_nil (List.cons_ne_nil _ _)
  · show (bufferAppend _ (info.checkFragment pkt.seq).markUnit.videoFrameBuffer _).length ≤ _
    rw [hmark]
    exact length_bufferAppend_le (by decide)

theorem Filling.takeInner (h : info.Filling timestamp)
    (htype : byteAt pkt.data (extensionLen pkt) &&& 0x1f = 28)
    (hinner : byteAt pkt.data (extensionLen pkt + 1) &&& 0x80 = 0) :
    (info.takeVideo pkt (extensionLen pkt)).Filling timestamp := by
  rw [takeVideo_inner htype hinner]
  exact (h.checkFragment pkt.seq).appendRest pkt _

theorem Filling.takeFragments {pkts : List Rtp} (hinner : Inner pkts)
    (h : info.Filling timestamp) : (info.takeFragments pkts).Filling timestamp := by
  induction pkts generalizing info with
  | nil => exact h
  | cons pkt pkts ih =>
    obtain ⟨htype, hnot⟩ := hinner pkt List.mem_cons_self
    exact ih (fun p hp => hinner p (List.mem_cons_of_mem pkt hp)) (h.takeInner htype hnot)

variable {env : RemuxerEnv} {len : Nat}

/-- A packet with the timestamp of the frame, or the first packet of one, puts no frame before it. -/
theorem setRtpToBuffer_same (env : RemuxerEnv) (hpayload : pkt.payload = RTP_AV_H264)
    (hlen : len = rtpHeaderLen + pkt.data.length) (hmax : len ≤ 2048) (hinside : PayloadInside pkt)
    (hroom : info.videoFrameBuffer.length ≤ videoFrameBufferSize)
    (hsame : info.videoFrameBuffer = [] ∨ info.videoFrameTs = pkt.timestamp) :
    info.setRtpToBuffer env pkt len =
      (info.takeVideo pkt (extensionLen pkt)).putFrameIf env (pkt.marker == 1) := by
  have hkeep : info.putFrameIf env (info.videoFrameTs != pkt.timestamp) = pure info := by
    rw [putFrameIf]
    rcases hsame with hempty | hts
    · rw [hempty, bne_self_eq_false, Bool.and_false]
      rfl
    · rw [hts, bne_self_eq_false, Bool.false_and]
      rfl
  rw [setRtpToBuffer_inside hpayload hlen hmax hinside hroom, hkeep]
  rfl

/-- The first packet of another frame puts the one in the buffer. -/
theorem Filling.setRtpToBuffer_other (h : info.Filling timestamp)
    (hpayload : pkt.payload = RTP_AV_H264) (hlen : len = rtpHeaderLen + pkt.data.length)
    (hmax : len ≤ 2048) (hinside : PayloadInside pkt) (hother : pkt.timestamp ≠ timestamp) :
    info.setRtpToBuffer env pkt len =
      (info.putVideoFrame env >>= fun info =>
        (info.takeVideo pkt (extensionLen pkt)).putFrameIf env (pkt.marker == 1)) := by
  have hput : info.putFrameIf env (info.videoFrameTs != pkt.timestamp) = info.putVideoFrame env := by
    rw [putFrameIf, h.videoFrameTs, bne_iff_ne.mpr hother.symm, Bool.true_and,
      if_pos (bne_iff_ne.mpr h.nonempty)]
  rw [setRtpToBuffer_inside hpayload hlen hmax hinside h.room, hput]

namespace FuFrame

variable (frame : FuFrame)

theorem mem_count {received : List Nat} (h : frame.Receives received) : 0 < frame.count := by
  obtain ⟨rest, rfl⟩ := h.first
  exact h.sent 0 List.mem_cons_self

/-- The fragments behind the first one do not start a unit. -/
theorem inner {rest : List Nat} (h : frame.Receives (0 :: rest)) :
    Inner (rest.map frame.packet) := by
  intro pkt hpkt
  obtain ⟨i, hi, rfl⟩ := List.mem_map.mp hpkt
  have hlt := h.sent i (List.mem_cons_of_mem 0 hi)
  have hpos : 0 < i := List.rel_of_pairwise_cons h.sorted hi
  refine ⟨frame.isFragment i hlt, by_contra fun hstart => ?_⟩
  exact Nat.ne_of_gt hpos ((frame.starts i hlt).mp hstart)

/-- The fragments that arrive are in the buffer when the frame is put. -/
theorem filling {received : List Nat} (h : frame.Receives received)
    (hempty : info.videoFrameBuffer = []) :
    (info.takeFragments (received.map frame.packet)).Filling frame.timestamp := by
  have hpos := frame.mem_count h
  obtain ⟨rest, rfl⟩ := h.first
  have hfirst := filling_first hempty (frame.isFragment 0 hpos)
    ((frame.starts 0 hpos).mpr rfl)
  rw [frame.sameTimestamp 0 hpos] at hfirst
  show ((info.takeVideo (frame.packet 0) _).takeFragments (rest.map frame.packet)).Filling _
  exact hfirst.takeFragments (frame.inner h)

/-- A part of what arrives that ends earlier. -/
theorem Receives.front {frame : FuFrame} {front : List Nat} {last : Nat}
    (h : frame.Receives (front ++ [last])) (hne : front ≠ []) : frame.Receives front := by
  obtain ⟨rest, hrest⟩ := h.first
  obtain ⟨i, front, rfl⟩ := List.exists_cons_of_ne_nil hne
  cases hrest
  exact ⟨(List.pairwise_append.mp h.sorted).1, ⟨front, rfl⟩,
    fun j hj => h.sent j (List.mem_append_left _ hj)⟩

/-- Every fragment that arrives is put into the buffer, and only the last of the frame can put it. -/
theorem setRtpToBuffer_last (env : RemuxerEnv) {front : List Nat} {last : Nat} (h : frame.Receives (front ++ [last]))
    (hempty : info.videoFrameBuffer = []) :
    (info.takeFragments (front.map frame.packet)).setRtpToBuffer env (frame.packet last)
        (frame.packet last).len =
      (info.takeFragments ((front ++ [last]).map frame.packet)).putFrameIf env
        ((frame.packet last).marker == 1) := by
  have hlt := h.sent last (List.mem_append_right _ List.mem_cons_self)
  have hstate : (info.takeFragments (front.map frame.packet)).videoFrameBuffer.length ≤
        videoFrameBufferSize ∧
      ((info.takeFragments (front.map frame.packet)).videoFrameBuffer = [] ∨
        (info.takeFragments (front.map frame.packet)).videoFrameTs =
          (frame.packet last).timestamp) := by
    by_cases hnil : front = []
    case pos =>
      subst hnil
      refine ⟨?_, .inl hempty⟩
      show info.videoFrameBuffer.length ≤ _
      rw [hempty]
      exact Nat.zero_le _
    case neg =>
      have hfilling := frame.filling (h.front hnil) hempty
      refine ⟨hfilling.room, .inr ?_⟩
      rw [frame.sameTimestamp last hlt]
      exact hfilling.videoFrameTs
  have hlen : (frame.packet last).len = rtpHeaderLen + (frame.packet last).data.length := rfl
  have hstep := setRtpToBuffer_same env (frame.payload last hlt) hlen (frame.fits last hlt) (frame.inside last hlt) hstate.1 hstate.2
  rw [hstep, List.map_append, takeFragments, takeFragments, List.foldl_append]
  rfl

/-- The fragments before the last that arrives are collected: nothing is put. -/
theorem foldlM_front {front : List Nat} {last : Nat} (h : frame.Receives (front ++ [last]))
    (hempty : info.videoFrameBuffer = []) :
    (front.map frame.packet).foldlM (fun (info : Rtp2FlvTransformInfo) pkt =>
        info.setRtpToBuffer env pkt pkt.len) info =
      pure (info.takeFragments (front.map frame.packet)) := by
  induction front using List.reverseRecOn generalizing last with
  | nil => rfl
  | append_singleton front i ih =>
    have hfront : frame.Receives (front ++ [i]) := h.front (by simp)
    have hlt : i < last :=
      (List.pairwise_append.mp h.sorted).2.2 i (by simp) last List.mem_cons_self
    have hlast := h.sent last (List.mem_append_right _ List.mem_cons_self)
    rw [List.map_append, List.foldlM_append, ih hfront, pure_bind]
    have hstep := frame.setRtpToBuffer_last env hfront hempty
    rw [frame.marker i (by omega), show ((0 : BitVec 1) == 1) = false from rfl, putFrameIf,
      Bool.false_and, if_neg Bool.false_ne_true, List.map_append] at hstep
    rw [List.map_cons, List.map_nil, List.foldlM_cons, hstep, pure_bind]
    rfl

/-! ## The flag -/

variable {frame}

theorem numbers_eq {received : List Nat} (h : ∀ i ∈ received, i < frame.count) :
    frame.numbers received = received.map fun i => frame.start + BitVec.ofNat 16 i :=
  List.map_congr_left fun i hi => frame.seq i (h i hi)

/-- What the flag comes to when the frame is put. -/
theorem valied_iff (info : Rtp2FlvTransformInfo) {received : List Nat} (h : frame.Receives received) :
    (info.takeFragments (received.map frame.packet)).isCurFrameValied = true ↔
      info.StartsClean frame.start ∧
        (frame.start = 0 ∨ CountsUp (frame.numbers received)) := by
  have hpos := frame.mem_count h
  obtain ⟨rest, rfl⟩ := h.first
  have hseq : (frame.packet 0).seq = frame.start := by
    rw [frame.seq 0 hpos]
    exact BitVec.add_zero _
  have hvalied := takeFragments_valied info (frame.isFragment 0 hpos)
    ((frame.starts 0 hpos).mpr rfl) (frame.inner h)
  rw [hseq, List.map_map] at hvalied
  rw [numbers, List.map_cons, List.map_cons, hseq]
  exact hvalied

/-- The numbers of a whole frame count up when they do not pass 65535. -/
theorem countsUp_range (hpos : 0 < frame.count) :
    CountsUp (frame.numbers (List.range frame.count)) ↔
      frame.start.toNat + frame.count ≤ 2 ^ 16 := by
  have hstart := frame.start.isLt
  rw [numbers_eq fun i hi => List.mem_range.mp hi, CountsUp, List.isChain_map, List.isChain_range]
  simp only [BitVec.toNat_add, BitVec.toNat_ofNat]
  constructor
  · intro h
    by_contra hwrap
    have hlast := h (2 ^ 16 - 1 - frame.start.toNat) (by omega)
    omega
  · intro h i hi
    omega

/-- Within one turn, numbers that count up are those of fragments without a gap. -/
theorem mem_of_countsUp {start : Seq} {a : Nat} {l : List Nat}
    (hsorted : (a :: l).Pairwise (· < ·)) (hturn : ∀ i ∈ a :: l, i < 2 ^ 16)
    (hup : CountsUp ((a :: l).map fun i => start + BitVec.ofNat 16 i)) :
    ∀ j ∈ a :: l, ∀ i, a ≤ i → i ≤ j → i ∈ a :: l := by
  induction l generalizing a with
  | nil =>
    intro j hj i hai hij
    rw [List.mem_singleton] at hj ⊢
    omega
  | cons b l ih =>
    intro j hj i hai hij
    rw [List.map_cons, List.map_cons, CountsUp, List.isChain_cons_cons] at hup
    obtain ⟨hstep, hrest⟩ := hup
    have hab : a < b := List.rel_of_pairwise_cons hsorted List.mem_cons_self
    have hb : b < 2 ^ 16 := hturn b (List.mem_cons_of_mem a List.mem_cons_self)
    have hnext : b = a + 1 := by
      simp only [BitVec.toNat_add, BitVec.toNat_ofNat] at hstep
      omega
    rcases List.mem_cons.mp hj with rfl | hj
    case inl =>
      have hi : i = j := by omega
      exact hi ▸ List.mem_cons_self
    case inr =>
      by_cases hi : i = a
      case pos => exact hi ▸ List.mem_cons_self
      case neg =>
        apply List.mem_cons_of_mem
        exact ih (List.Pairwise.of_cons hsorted) (fun i hi => hturn i (List.mem_cons_of_mem a hi))
          hrest j hj i (by omega) hij

/-- In a frame of at most 65536 fragments the numbers do not count up over a gap. -/
theorem not_countsUp_of_missing {received : List Nat} (h : frame.Receives received)
    (hcount : frame.count ≤ 2 ^ 16) (hmissing : Missing received) :
    ¬ CountsUp (frame.numbers received) := by
  intro hup
  rw [numbers_eq h.sent] at hup
  obtain ⟨i, hi, j, hj, hij⟩ := hmissing
  obtain ⟨rest, rfl⟩ := h.first
  have hturn : ∀ i ∈ 0 :: rest, i < 2 ^ 16 := fun i hi => Nat.lt_of_lt_of_le (h.sent i hi) hcount
  exact hi (mem_of_countsUp h.sorted hturn hup j hj i (Nat.zero_le i) (Nat.le_of_lt hij))

/-- The flag tells, when the frame is put, whether the frame came whole or with a gap. -/
def FlagRight (frame : FuFrame) (info : Rtp2FlvTransformInfo) (received : List Nat) : Prop :=
  (received = List.range frame.count →
    (info.takeFragments (received.map frame.packet)).isCurFrameValied = true) ∧
  (Missing received →
    (info.takeFragments (received.map frame.packet)).isCurFrameValied = false)

/-- A whole frame starts clean, and starts with 0 or ends before its numbers wrap. One with a gap
does not start clean, or it starts with another number than 0 and the numbers do not count up. -/
def Checkable (frame : FuFrame) (info : Rtp2FlvTransformInfo) (received : List Nat) : Prop :=
  (received = List.range frame.count → info.StartsClean frame.start ∧
    (frame.start = 0 ∨ frame.start.toNat + frame.count ≤ 2 ^ 16)) ∧
  (Missing received → ¬ info.StartsClean frame.start ∨
    (frame.start ≠ 0 ∧ ¬ CountsUp (frame.numbers received)))

theorem flagRight_iff {received : List Nat} (h : frame.Receives received) :
    FlagRight frame info received ↔ Checkable frame info received := by
  have hvalied := valied_iff info h
  apply and_congr
  · apply forall_congr'
    intro hwhole
    rw [hvalied, hwhole, countsUp_range (frame.mem_count h)]
  · apply forall_congr'
    intro _
    rw [← Bool.not_eq_true, hvalied, not_and_or, not_or]

end FuFrame

/-- The fragments of a frame that arrive are collected without a call of `_put_video_frame`. The last
of them has it called if it has the marker, and otherwise the first packet of another frame does; it
finds the frame in the state `takeFragments` gives. There the flag is right exactly if the frame is
`Checkable`; a gap among at most 65536 fragments is then seen unless the frame starts with 0. -/
theorem frame_check_iff (env : RemuxerEnv) (info : Rtp2FlvTransformInfo) (frame : FuFrame)
    (front : List Nat) (last : Nat) (h : frame.Receives (front ++ [last]))
    (hempty : info.videoFrameBuffer = []) :
    let put := info.takeFragments ((front ++ [last]).map frame.packet)
    (front.map frame.packet).foldlM (fun (info : Rtp2FlvTransformInfo) pkt =>
        info.setRtpToBuffer env pkt pkt.len) info =
      pure (info.takeFragments (front.map frame.packet)) ∧
    (info.takeFragments (front.map frame.packet)).setRtpToBuffer env (frame.packet last)
        (frame.packet last).len =
      (if (frame.packet last).marker = 1 then put.putVideoFrame env else pure put) ∧
    (∀ next : Rtp, next.payload = RTP_AV_H264 → next.len ≤ 2048 → PayloadInside next →
      next.timestamp ≠ frame.timestamp →
      put.setRtpToBuffer env next next.len =
        (put.putVideoFrame env >>= fun info =>
          (info.takeVideo next (extensionLen next)).putFrameIf env (next.marker == 1))) ∧
    (FuFrame.FlagRight frame info (front ++ [last]) ↔
      FuFrame.Checkable frame info (front ++ [last])) ∧
    (frame.count ≤ 2 ^ 16 → FuFrame.Missing (front ++ [last]) →
      ¬ CountsUp (frame.numbers (front ++ [last]))) := by
  have hput := frame.filling h hempty
  refine ⟨frame.foldlM_front h hempty, ?_, fun next hpayload hfits hinside hother => ?_,
    FuFrame.flagRight_iff h, FuFrame.not_countsUp_of_missing h⟩
  · rw [frame.setRtpToBuffer_last _ h hempty, putFrameIf, bne_iff_ne.mpr hput.nonempty,
      Bool.and_true]
    simp only [beq_iff_eq]
  · exact hput.setRtpToBuffer_other hpayload rfl hfits hinside hother

/-- Fragments of one byte, with consecutive numbers from `start` on. -/
def oneByteFragment (start : Seq) (count i : Nat) : Rtp :=
  { h264Packet [0x7c, if i = 0 then 0x85 else 0x05, 1] with
    seq := start + BitVec.ofNat 16 i
    marker := if i + 1 = count then 1 else 0 }

def oneByteFrame (start : Seq) (count : Nat) : FuFrame where
  start := start
  timestamp := 0
  count := count
  packet := oneByteFragment start count
  payload _ _ := rfl
  inside i _ := ⟨(by decide : 0 < 3), fun _ => (by decide : 1 < 3)⟩
  fits _ _ := (by decide : 15 ≤ 2048)
  isFragment _ _ := (by decide : (0x7c : Byte) &&& 0x1f = 28)
  starts i _ := by
    show (if i = 0 then (0x85 : Byte) else 0x05) &&& 0x80 ≠ 0 ↔ i = 0
    by_cases h : i = 0
    · rw [if_pos h]
      exact iff_of_true (by decide) h
    · rw [if_neg h]
      exact iff_of_false (by decide) h
  seq _ _ := rfl
  sameTimestamp _ _ := rfl
  marker i h := if_neg (Nat.ne_of_lt h)

/-- The third of four fragments is missing. -/
theorem gap_receives : (oneByteFrame 7 4).Receives ([0, 1] ++ [3]) :=
  ⟨by decide, ⟨[1, 3], rfl⟩, by
    show ∀ i ∈ [0, 1, 3], i < 4
    decide⟩

theorem frame_check_iff_gap :
    (oneByteFrame 7 4).Receives ([0, 1] ++ [3]) ∧ (new frameEnv).videoFrameBuffer = [] ∧
      FuFrame.FlagRight (oneByteFrame 7 4) (new frameEnv) ([0, 1] ++ [3]) ∧
      ¬ CountsUp ((oneByteFrame 7 4).numbers ([0, 1] ++ [3])) := by
  obtain ⟨-, -, -, hright, hgap⟩ := frame_check_iff frameEnv (new frameEnv) (oneByteFrame 7 4)
    [0, 1] 3 gap_receives rfl
  have hmissing : FuFrame.Missing ([0, 1] ++ [3]) := ⟨2, by decide, 3, by decide, by decide⟩
  have hup := hgap (by decide : 4 ≤ 2 ^ 16) hmissing
  refine ⟨gap_receives, rfl, hright.mpr ⟨fun hwhole => ?_, fun _ => .inr ⟨?_, hup⟩⟩, hup⟩
  · exact absurd hwhole (by decide : [0, 1, 3] ≠ List.range 4)
  · exact (by decide : (7 : Seq) ≠ 0)

/-- A whole frame with the numbers 65535 and 0 counts as broken. -/
theorem wrapped_frame_broken :
    ¬ ∀ (info : Rtp2FlvTransformInfo) (frame : FuFrame) (received : List Nat),
      frame.Receives received → info.videoFrameBuffer = [] → info.StartsClean frame.start →
      FuFrame.FlagRight frame info received := by
  intro hclaim
  have hreceives : (oneByteFrame 65535 2).Receives [0, 1] :=
    ⟨by decide, ⟨[1], rfl⟩, by
      show ∀ i ∈ [0, 1], i < 2
      decide⟩
  have hright := hclaim (new frameEnv) (oneByteFrame 65535 2) [0, 1] hreceives rfl
    ⟨rfl, .inl rfl⟩
  have hvalied := (FuFrame.valied_iff _ hreceives).mp (hright.1 rfl)
  have hup : CountsUp [65535, 0] := by
    rcases hvalied.2 with hzero | hup
    · exact absurd hzero (by decide : (65535 : Seq) ≠ 0)
    · exact hup
  exact absurd hup (by decide)

end RtcMcu.MediaManager.Rtp2FlvTransformInfo
