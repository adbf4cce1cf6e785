import RtcMcu.Avcodec.NalUnits
import RtcMcu.MediaManager.FrameCheck

/-!
# The frame buffer and its NAL units

What `_set_rtp_to_buffer` collects is a list of NAL units (`nalUnits`), each behind a split code in
the frame buffer (`Laid`). `_put_video_frame` hands the frame on as it is or, in the mode without
split codes, with the sizes written over them (`layout`). Whoever reads the frame tells the two apart
by its first four bytes, and a first unit of one byte has the size that looks like a split code:
`Separable` and `Delimited` say when the units are found again. `modes_agree` and `tag_data_iff` say
what follows for the tags.
-/

namespace RtcMcu.MediaManager.Rtp2FlvTransformInfo

open RtcMcu.Avformat RtcMcu.Avcodec RtcMcu.Coupling

/-! ## Layout -/

/-- Where the split codes are in `coded units` that is laid out from `p` on. -/
def positions (p : Nat) : List (List Byte) → List Nat
  | [] => []
  | u :: us => p :: positions (p + 4 + u.length) us

/-- The frame that `_put_video_frame` hands on. -/
def layout (useNaluSplitCode : Bool) (units : List (List Byte)) : List Byte :=
  if useNaluSplitCode = true ∨ units.length ≤ 1 then coded units else sized units

/-- The units are laid out in the frame buffer. -/
structure Laid (info : Rtp2FlvTransformInfo) (units : List (List Byte)) : Prop where
  buffer : info.videoFrameBuffer = coded units
  pos : info.useNaluSplitCode = false → info.videoFrameBufferPos = positions 0 units

theorem coded_append (us vs : List (List Byte)) : coded (us ++ vs) = coded us ++ coded vs :=
  List.flatMap_append

theorem length_coded_cons (u : List Byte) (us : List (List Byte)) :
    (coded (u :: us)).length = 4 + u.length + (coded us).length := by
  rw [coded, List.flatMap_cons, List.length_append, List.length_append]
  rfl

theorem length_sized (units : List (List Byte)) : (sized units).length = (coded units).length := by
  induction units with
  | nil => rfl
  | cons u us ih =>
    rw [length_coded_cons, ← ih, sized, List.flatMap_cons, List.length_append, List.length_append]
    rfl

theorem positions_append (us vs : List (List Byte)) (p : Nat) :
    positions p (us ++ vs) = positions p us ++ positions (p + (coded us).length) vs := by
  induction us generalizing p with
  | nil => rfl
  | cons u us ih =>
    rw [List.cons_append, positions, ih, positions, List.cons_append, length_coded_cons]
    congr 3
    omega

/-- The size that is written is the one of the unit between two split codes. -/
theorem size_between (start n : Nat) :
    BitVec.ofNat 32 (start + 4 + n) - BitVec.ofNat 32 start - 4 = BitVec.ofNat 32 n := by
  have hsum : BitVec.ofNat 32 (start + 4 + n) = BitVec.ofNat 32 n + 4 + BitVec.ofNat 32 start := by
    rw [show start + 4 + n = n + 4 + start by omega, BitVec.ofNat_add, BitVec.ofNat_add]
    rfl
  rw [hsum, BitVec.add_sub_cancel, BitVec.add_sub_cancel]

/-- A split code at a known place is written over. -/
theorem writeSize_coded (pre rest : List Byte) (size : BitVec 32) :
    writeSize (pre ++ (h264SplitCode ++ rest)) pre.length size = .ok (pre ++ (be32 size ++ rest)) := by
  have hfour : h264SplitCode.length = 4 := rfl
  have hdrop : (pre ++ (h264SplitCode ++ rest)).drop (pre.length + 4) = rest := by
    rw [← List.drop_drop, List.drop_left, ← hfour, List.drop_left]
  rw [writeSize, if_pos, List.take_left, hdrop, List.append_assoc]
  rw [List.length_append, List.length_append, hfour]
  omega

/-- The positions turn the split codes into sizes, from the second unit of a frame on. -/
theorem writeSizes_some (us : List (List Byte)) :
    ∀ (pre u : List Byte), 0 < pre.length ∨ us ≠ [] →
      writeSizes (pre ++ coded (u :: us)) (some pre.length)
          (positions (pre.length + 4 + u.length) us) = .ok (pre ++ sized (u :: us)) := by
  induction us with
  | nil =>
    intro pre u hpos
    have hlast : 0 < pre.length := hpos.resolve_right (fun h => h rfl)
    have hcoded : coded [u] = h264SplitCode ++ (u ++ []) := rfl
    have hend : (pre ++ coded [u]).length = pre.length + 4 + u.length := by
      rw [List.length_append, length_coded_cons, coded, List.flatMap_nil, List.length_nil]
      omega
    rw [positions, writeSizes, if_pos hlast, hend, size_between, hcoded, writeSize_coded]
    rfl
  | cons v vs ih =>
    intro pre u _
    have hcoded : coded (u :: v :: vs) = h264SplitCode ++ (u ++ coded (v :: vs)) := rfl
    have hsized : sized (u :: v :: vs) =
        be32 (BitVec.ofNat 32 u.length) ++ u ++ sized (v :: vs) := rfl
    have hfour : (be32 (BitVec.ofNat 32 u.length)).length = 4 := rfl
    have hplace : pre.length + 4 + u.length =
        (pre ++ (be32 (BitVec.ofNat 32 u.length) ++ u)).length := by
      rw [List.length_append, List.length_append, hfour]
      omega
    rw [positions, writeSizes, size_between, hcoded, writeSize_coded, ok_bind]
    have hrest := ih (pre ++ (be32 (BitVec.ofNat 32 u.length) ++ u)) v
      (.inl (by rw [← hplace]; omega))
    rw [← hplace, List.append_assoc, List.append_assoc, List.append_assoc] at hrest
    rw [hrest, hsized, List.append_assoc]

/-- The sizes are written if there is more than one unit. -/
theorem writeSizes_coded (units : List (List Byte)) :
    writeSizes (coded units) none (positions 0 units) = .ok (layout false units) := by
  match units with
  | [] => rfl
  | [u] => rfl
  | u :: v :: vs =>
    have h := writeSizes_some (v :: vs) [] u (.inr (List.cons_ne_nil v vs))
    rw [layout, if_neg]
    · exact h
    · rintro (h | h)
      · cases h
      · exact absurd h (by simp only [List.length_cons]; omega)

variable {info : Rtp2FlvTransformInfo} {units : List (List Byte)}

/-- What `_put_video_frame` makes of the frame buffer. -/
theorem sizeFrame_laid (h : info.Laid units) :
    info.sizeFrame = .ok { info with
      videoFrameBuffer := layout info.useNaluSplitCode units
      videoFrameBufferPos := if info.useNaluSplitCode then info.videoFrameBufferPos else [] } := by
  have hbuffer := h.buffer
  unfold sizeFrame
  cases hmode : info.useNaluSplitCode with
  | true => rw [if_pos rfl, if_pos rfl, layout, if_pos (.inl rfl), ← hbuffer, ← hmode]
  | false =>
    rw [if_neg Bool.false_ne_true, if_neg Bool.false_ne_true, hbuffer, h.pos hmode,
      writeSizes_coded, ok_bind, ← hmode]

/-! ## Which units are found -/

/-- The sizes of these units are not taken for split codes, or are the same. -/
def Separable (units : List (List Byte)) : Prop :=
  units.length ≤ 1 ∨ (units.headD []).length ≠ 1 ∨ ∀ u ∈ units, u.length = 1

/-- The units are found again in the frame that is handed on. -/
def Delimited (useNaluSplitCode : Bool) (units : List (List Byte)) : Prop :=
  if useNaluSplitCode = true ∨ units.length ≤ 1 then ∀ u ∈ units, ¬ [0, 0, 1] <:+: u
  else Separable units

instance (units : List (List Byte)) : Decidable (Separable units) :=
  inferInstanceAs (Decidable (_ ∨ _))

instance (mode : Bool) (units : List (List Byte)) : Decidable (Delimited mode units) :=
  inferInstanceAs (Decidable (ite _ _ _))

/-- Units of one byte have the split code for their size. -/
theorem sized_eq_coded (h : ∀ u ∈ units, u.length = 1) : sized units = coded units := by
  unfold sized coded
  apply List.flatMap_congr
  intro u hu
  rw [h u hu]
  rfl

section Scan

variable {σ : Type} {f : σ → NalUnit → Except Fault σ} {stop : σ → Bool}

theorem scanNals_coded (h : ∀ u ∈ units, Uncoded u) (s : σ) :
    scanNals (coded units) f stop s = visitUnits f stop units s := by
  by_cases hnil : units = []
  case pos =>
    rw [hnil]
    rfl
  case neg => rw [scanNals_codes (startsWithCode_coded hnil), codeUnits_coded h]

theorem scanNals_sized (h : ∀ u ∈ units, Sizable u) (hfirst : (units.headD []).length ≠ 1) (s : σ) :
    scanNals (sized units) f stop s = visitUnits f stop units s := by
  cases units with
  | nil => rfl
  | cons u us =>
    have hno : ¬ startsWithCode (sized (u :: us)) = true := by
      rw [startsWithCode_sized us (h u List.mem_cons_self).length_lt, decide_eq_true_iff]
      exact hfirst
    rw [scanNals, if_neg hno]
    apply scanSizes_sized (u :: us) h []
    rw [length_sized]
    exact length_coded (u :: us)

theorem sizable_of_coded (hne : ∀ u ∈ units, u ≠ []) (hlen : (coded units).length < 2 ^ 32) :
    ∀ u ∈ units, Sizable u := by
  intro u hu
  refine ⟨hne u hu, Nat.lt_of_le_of_lt ?_ hlen⟩
  obtain ⟨us, vs, rfl⟩ := List.append_of_mem hu
  rw [coded_append, List.length_append, length_coded_cons]
  omega

theorem uncoded_of_length_one (h : ∀ u ∈ units, u.length = 1) : ∀ u ∈ units, Uncoded u := by
  intro u hu
  have hone := h u hu
  refine ⟨fun hnil => ?_, fun hcode => ?_⟩
  · rw [hnil] at hone
    cases hone
  · have hle := hcode.length_le
    rw [hone] at hle
    exact absurd hle (by decide)

/-- Whoever walks the frame that is handed on visits the units. -/
theorem scanNals_layout {mode : Bool} (h : Delimited mode units) (hne : ∀ u ∈ units, u ≠ [])
    (hlen : (coded units).length < 2 ^ 32) (s : σ) :
    scanNals (layout mode units) f stop s = visitUnits f stop units s := by
  unfold Delimited at h
  unfold layout
  split at h
  case isTrue hcodes =>
    rw [if_pos hcodes]
    exact scanNals_coded (fun u hu => ⟨hne u hu, h u hu⟩) s
  case isFalse hcodes =>
    rw [if_neg hcodes]
    rcases h with hfew | hfirst | hall
    · exact absurd (.inr hfew) hcodes
    · exact scanNals_sized (sizable_of_coded hne hlen) hfirst s
    · rw [sized_eq_coded hall]
      exact scanNals_coded (uncoded_of_length_one hall) s

end Scan

/-! ## The two modes -/

/-- A NAL unit of the claim: no start code in it, no zero at its ends. -/
structure Clean (u : List Byte) : Prop extends Uncoded u where
  head_ne : u.head? ≠ some 0
  last_ne : u.getLast? ≠ some 0

/-- The stream with these units in its frame buffer, in one of the modes. -/
def withFrame (info : Rtp2FlvTransformInfo) (useNaluSplitCode : Bool) (units : List (List Byte)) :
    Rtp2FlvTransformInfo :=
  { info with
    useNaluSplitCode := useNaluSplitCode
    videoFrameBuffer := coded units
    videoFrameBufferPos := if useNaluSplitCode then [] else positions 0 units }

theorem withFrame_laid (info : Rtp2FlvTransformInfo) (mode : Bool) (units : List (List Byte)) :
    (info.withFrame mode units).Laid units := by
  refine ⟨rfl, fun hmode => ?_⟩
  have hmode' : mode = false := hmode
  rw [withFrame, hmode']
  rfl

/-- The stream in the mode with split codes, where it stands in the other one. -/
def inSplitMode (info : Rtp2FlvTransformInfo) : Rtp2FlvTransformInfo :=
  { info with useNaluSplitCode := true }

/-- The two modes hand on the same units, and are else alike. -/
structure SameUnits (units : List (List Byte)) (on off : Rtp2FlvTransformInfo) : Prop where
  rest : on = { off.inSplitMode with videoFrameBuffer := coded units }
  mode : off.useNaluSplitCode = false
  buffer : off.videoFrameBuffer = layout false units
  pos : off.videoFrameBufferPos = []

variable {env : RemuxerEnv} {on off : Rtp2FlvTransformInfo}

theorem SameUnits.writeHeader (h : SameUnits units on off) :
    Emit.Agrees some (SameUnits units) (on.writeHeader env) (off.writeHeader env) := by
  obtain ⟨rfl, hmode, hbuffer, hpos⟩ := h
  unfold Rtp2FlvTransformInfo.writeHeader
  show Emit.Agrees some _ (if off.ready = true then _ else _) (if off.ready = true then _ else _)
  split
  · refine Emit.Agrees.bind (R := fun _ _ => True) (Emit.Agrees.call rfl trivial) fun _ _ _ => ?_
    exact Emit.Agrees.pure ⟨rfl, hmode, hbuffer, hpos⟩
  · exact Emit.Agrees.pure ⟨rfl, hmode, hbuffer, hpos⟩

theorem SameUnits.takeParameterSet (h : SameUnits units on off) (nal : NalUnit) :
    Coupled (fun _ => True) (SameUnits units) (on.takeParameterSet nal)
      (off.takeParameterSet nal) := by
  obtain ⟨rfl, hmode, hbuffer, hpos⟩ := h
  have happend := Coupled.same (off.appendParameterSet nal)
  unfold Rtp2FlvTransformInfo.takeParameterSet
  refine Coupled.ite (fun _ => ?_) fun _ => ?_
  · refine Coupled.bind happend fun a b hab => ?_
    rw [hab]
    exact ⟨rfl, hmode, hbuffer, hpos⟩
  · refine Coupled.ite (fun _ => ?_) fun _ => ⟨rfl, hmode, hbuffer, hpos⟩
    refine Coupled.bind happend fun a b hab => ?_
    rw [hab]
    exact ⟨rfl, hmode, hbuffer, hpos⟩

/-- The parameter sets found are the same. -/
theorem SameUnits.findParameterSets (h : SameUnits units on off)
    (hon : ∀ u ∈ units, Uncoded u) (hoff : Delimited false units)
    (hlen : (coded units).length < 2 ^ 32) :
    Emit.Agrees some (SameUnits units) (on.findParameterSets env) (off.findParameterSets env) := by
  have hsets : ∀ {i j}, SameUnits units i j → i.hasParameterSets = j.hasParameterSets := by
    rintro i j ⟨rfl, -, -, -⟩
    rfl
  have hbuffer : on.videoFrameBuffer = coded units := by
    rw [h.rest]
  have hne : ∀ u ∈ units, u ≠ [] := fun u hu => (hon u hu).ne_nil
  unfold Rtp2FlvTransformInfo.findParameterSets
  rw [hsets h, hbuffer, h.buffer, scanNals_coded hon, scanNals_layout hoff hne hlen]
  split
  · exact Emit.Agrees.pure h
  · refine Emit.Agrees.bind (R := SameUnits units) ?_ fun _ _ h' => h'.writeHeader
    apply Emit.Agrees.lift
    exact visitUnits_coupled (fun _ _ nal h' => h'.takeParameterSet nal) (fun _ _ h' => hsets h')
      units h

/-- The tag queued is the same. -/
theorem SameUnits.queueVideoTag (h : SameUnits units on off)
    (hon : ∀ u ∈ units, Uncoded u) (hoff : Delimited false units)
    (hlen : (coded units).length < 2 ^ 32) :
    Coupled (fun _ => True) (SameUnits units) (on.queueVideoTag env) (off.queueVideoTag env) := by
  have hne : ∀ u ∈ units, u ≠ [] := fun u hu => (hon u hu).ne_nil
  have hdata : ∀ block, FLV.generateVideoTagData block (coded units) =
      FLV.generateVideoTagData block off.videoFrameBuffer := by
    intro block
    unfold FLV.generateVideoTagData
    rw [h.buffer, scanNals_coded hon, scanNals_layout hoff hne hlen]
  have htag : ∀ ts, off.flv.generateVideoTag (coded units) ts =
      off.flv.generateVideoTag off.videoFrameBuffer ts := by
    intro ts
    unfold FLV.generateVideoTag
    rw [hdata]
  obtain ⟨rfl, hmode, hbuffer, hpos⟩ := h
  unfold Rtp2FlvTransformInfo.queueVideoTag
  refine Coupled.ite (fun _ => ?_) fun _ => ⟨rfl, hmode, hbuffer, hpos⟩
  refine Coupled.bind (R := Eq) ?_ fun r r' hr => ?_
  · show Coupled _ Eq (off.flv.generateVideoTag (coded units) _) _
    rw [htag]
    exact Coupled.same _
  · rw [hr]
    exact ⟨rfl, hmode, hbuffer, hpos⟩

/-- A frame of clean units, of any number and any lengths, makes the same calls and the same tag and
finds the same parameter sets in both modes, if its first unit has more than one byte, or there is
only one unit, or all have one byte. -/
theorem modes_agree (env : RemuxerEnv) (info : Rtp2FlvTransformInfo) (units : List (List Byte))
    (hclean : ∀ u ∈ units, Clean u) (hroom : (coded units).length ≤ videoFrameBufferSize)
    (hseparable : Separable units) :
    Emit.Agrees some (fun on off => on = off.inSplitMode)
      ((info.withFrame true units).putVideoFrame env)
      ((info.withFrame false units).putVideoFrame env) := by
  have hsize : videoFrameBufferSize = 1048576 := rfl
  have hlen : (coded units).length < 2 ^ 32 := by omega
  have hon : ∀ u ∈ units, Uncoded u := fun u hu => (hclean u hu).toUncoded
  have hoff : Delimited false units := by
    unfold Delimited
    split
    · exact fun u hu => (hon u hu).no_code
    · exact hseparable
  unfold putVideoFrame
  rw [sizeFrame_laid (withFrame_laid info true units),
    sizeFrame_laid (withFrame_laid info false units), Emit.lift_ok_bind, Emit.lift_ok_bind]
  refine Emit.Agrees.bind (R := SameUnits units) ?_ fun a b hab => ?_
  · exact SameUnits.findParameterSets ⟨rfl, rfl, rfl, rfl⟩ hon hoff hlen
  refine Emit.Agrees.bind (R := SameUnits units) ?_ fun a b hab => ?_
  · exact Emit.Agrees.lift (hab.queueVideoTag hon hoff hlen)
  · obtain ⟨rfl, hmode, -, hpos⟩ := hab
    apply Emit.Agrees.pure
    unfold endFrame inSplitMode
    simp only [hmode, hpos, ite_self]

/-- A stream whose configurations have been reached. -/
def readyStream : Rtp2FlvTransformInfo :=
  { new frameEnv with isSpsReach := true, isPpsReach := true, isAdtsReach := true }

theorem modes_agree_two_units :
    Emit.Agrees some (fun on off => on = off.inSplitMode)
      ((readyStream.withFrame true [[0x41, 2], [0x41]]).putVideoFrame frameEnv)
      ((readyStream.withFrame false [[0x41, 2], [0x41]]).putVideoFrame frameEnv) := by
  have hclean : ∀ u ∈ [[0x41, 2], [0x41]], Clean u := by
    intro u hu
    rcases List.mem_cons.mp hu with rfl | hu
    · exact ⟨⟨by decide, by decide⟩, by decide, by decide⟩
    · cases List.mem_singleton.mp hu
      exact ⟨⟨by decide, by decide⟩, by decide, by decide⟩
  exact modes_agree frameEnv readyStream _ hclean (by decide) (.inr (.inl (by decide)))

/-- The bytes of the tags that are queued. -/
def queuedData (info : Rtp2FlvTransformInfo) : List (List Byte) := info.videoOutQueue.map (·.data)

/-- A first unit of one byte: its size is taken for a split code, and the unit behind it, with its
size, for the rest of it. -/
theorem short_first_unit_differs :
    ¬ ∀ (env : RemuxerEnv) (info : Rtp2FlvTransformInfo) (units : List (List Byte)),
      (∀ u ∈ units, Clean u) → (coded units).length ≤ videoFrameBufferSize →
      Emit.Agrees some (fun on off => on = off.inSplitMode)
        ((info.withFrame true units).putVideoFrame env)
        ((info.withFrame false units).putVideoFrame env) := by
  intro hclaim
  have hclean : ∀ u ∈ [[0x41], [0x41, 2]], Clean u := by
    intro u hu
    rcases List.mem_cons.mp hu with rfl | hu
    · exact ⟨⟨by decide, by decide⟩, by decide, by decide⟩
    · cases List.mem_singleton.mp hu
      exact ⟨⟨by decide, by decide⟩, by decide, by decide⟩
  obtain ⟨-, hresult⟩ := hclaim frameEnv readyStream [[0x41], [0x41, 2]] hclean (by decide)
  have hon : (((readyStream.withFrame true [[0x41], [0x41, 2]]).putVideoFrame
      frameEnv).result.map queuedData) =
        .ok [[0x27, 1, 0, 0, 0, 0, 0, 0, 1, 0x41, 0, 0, 0, 2, 0x41, 2]] := by rfl
  have hoff : (((readyStream.withFrame false [[0x41], [0x41, 2]]).putVideoFrame
      frameEnv).result.map queuedData) =
        .ok [[0x27, 1, 0, 0, 0, 0, 0, 0, 7, 0x41, 0, 0, 0, 2, 0x41, 2]] := by rfl
  have hqueued : ∀ a b : Rtp2FlvTransformInfo, a = b.inSplitMode → queuedData a = queuedData b := by
    rintro a b rfl
    rfl
  have hsame := Coupled.map (S := Eq) hresult hqueued
  rw [hon, hoff, coupled_ok] at hsame
  exact absurd hsame (by decide)

end RtcMcu.MediaManager.Rtp2FlvTransformInfo
