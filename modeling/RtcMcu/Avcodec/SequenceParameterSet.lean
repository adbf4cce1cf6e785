import RtcMcu.Avformat.Rtp
import RtcMcu.Lib.BitCode

/-!
# Sequence parameter sets

`BitVector` and `CH264ConfigParser::ParseSPS` of `avcodec/h264.cpp`, from which the metadata of an
FLV stream take the size of the picture. `SequenceParameterSet` is what an encoder writes, field by
field, as far as the parser reads; whatever it writes, the parser finds the size and the timing in
it (`parse_sequence_parameter_set`).

Scaling lists are left out of what is written: their deltas have signs, and the parser takes them
without. So are the bytes that keep a start code out of the bits, which the parser does not remove.
The parser's own fields that nothing reads are left out.
-/

namespace RtcMcu.Avcodec

open RtcMcu.Avformat RtcMcu.BitCode

/-! ## BitVector -/

/-- `BitVector` over whole bytes: `fBaseBitOffset` is 0 and `fTotNumBits` that of the bytes. -/
structure BitVector where
  bytes : List Byte
  curBitIndex : Nat

namespace BitVector

def totNumBits (bv : BitVector) : Nat := 8 * bv.bytes.length

def numBitsRemaining (bv : BitVector) : Nat := bv.totNumBits - bv.curBitIndex

/-- What is still to be read. -/
def rest (bv : BitVector) : List Bool := (stream bv.bytes).drop bv.curBitIndex

/-- A parser over a `BitVector`. -/
abbrev Parser := StateT BitVector (Except Fault)

/-- `get1Bit`. -/
def get1Bit : Parser Bool := fun bv =>
  if bv.totNumBits ≤ bv.curBitIndex then .ok (false, bv)
  else
    .ok ((byteAt bv.bytes (bv.curBitIndex / 8)).getLsbD (7 - bv.curBitIndex % 8),
      { bv with curBitIndex := bv.curBitIndex + 1 })

/-- `skipBits`. -/
def skipBits (numBits : Nat) : Parser Unit := fun bv =>
  if bv.numBitsRemaining < numBits then .ok ((), { bv with curBitIndex := bv.totNumBits })
  else .ok ((), { bv with curBitIndex := bv.curBitIndex + numBits })

/-- `getBits`. `shiftBits` copies what is left of the bits to the front of a word; the bits behind
them are shifted out or masked away, unless all 32 are missing, when a mask is shifted by 32. -/
def getBits (numBits : Nat) : Parser (BitVec 32) := fun bv =>
  if numBits = 0 then .ok (0, bv)
  else
    let numBits := min numBits 32
    let overflowingBits := numBits - bv.numBitsRemaining
    let taken := numBits - overflowingBits
    if overflowingBits = 32 then .error .outOfBounds
    else
      .ok (BitVec.ofNat 32 (value (bv.rest.take taken)) <<< overflowingBits,
        { bv with curBitIndex := bv.curBitIndex + taken })

/-- The loop of `get_expGolomb`: the zeros, but for one that is the last bit of all. Each round
reads a bit. -/
def leadingZeros : Nat → Parser Nat
  | 0 => pure 0
  | fuel + 1 => do
    let bit ← get1Bit
    let bv ← get
    if bit = false ∧ bv.curBitIndex < bv.totNumBits then
      let zeros ← leadingZeros fuel
      pure (zeros + 1)
    else pure 0

/-- `get_expGolomb`. The number of zeros doubles `codeStart`, a word. -/
def getExpGolomb : Parser (BitVec 32) := do
  let bv ← get
  let numLeadingZeroBits ← leadingZeros (bv.numBitsRemaining + 1)
  let suffix ← getBits numLeadingZeroBits
  pure (((1 : BitVec 32) <<< numLeadingZeroBits) - 1 + suffix)

/-! ### What a parser reads -/

section Reading

theorem length_rest (bv : BitVector) : bv.rest.length = bv.numBitsRemaining := by
  rw [rest, List.length_drop, length_stream]
  rfl

theorem rest_advance (bv : BitVector) (n : Nat) :
    rest { bv with curBitIndex := bv.curBitIndex + n } = bv.rest.drop n := by
  rw [rest, rest, List.drop_drop]

/-- As many bits are left as are still to be read. -/
theorem remaining_of_rest {bv : BitVector} {bs t : List Bool} (h : bv.rest = bs ++ t) :
    bv.numBitsRemaining = bs.length + t.length := by
  rw [← length_rest, h, List.length_append]

theorem reads_get1Bit (b : Bool) : Reads rest get1Bit [b] b := by
  intro bv t h
  have hremaining := remaining_of_rest h
  rw [List.length_singleton] at hremaining
  have hlt : bv.curBitIndex < bv.totNumBits := by
    rw [numBitsRemaining] at hremaining
    omega
  refine ⟨{ bv with curBitIndex := bv.curBitIndex + 1 }, ?_, by rw [rest_advance, h]; rfl⟩
  have hbit : bv.rest[0]? = some b := by rw [h]; rfl
  rw [rest, List.getElem?_drop, Nat.add_zero, getElem?_stream hlt] at hbit
  rw [get1Bit, if_neg (Nat.not_le.mpr hlt)]
  congr 2
  exact Option.some.inj hbit

theorem reads_skipBits (bs : List Bool) : Reads rest (skipBits bs.length) bs () := by
  intro bv t h
  have hremaining := remaining_of_rest h
  refine ⟨{ bv with curBitIndex := bv.curBitIndex + bs.length }, ?_, ?_⟩
  · rw [skipBits, if_neg (by omega)]
  · rw [rest_advance, h, List.drop_left]

theorem reads_getBits {n : Nat} (hn : n ≤ 32) (x : Nat) :
    Reads rest (getBits n) (bits n x) (BitVec.ofNat 32 (x % 2 ^ n)) := by
  intro bv t h
  have hremaining := remaining_of_rest h
  rw [length_bits] at hremaining
  refine ⟨{ bv with curBitIndex := bv.curBitIndex + n }, ?_, ?_⟩
  · rw [getBits]
    by_cases hzero : n = 0
    · subst hzero
      rw [if_pos rfl, Nat.pow_zero, Nat.mod_one]
      rfl
    · have hover : n - bv.numBitsRemaining = 0 := by omega
      rw [if_neg hzero, Nat.min_eq_left hn]
      dsimp only
      rw [hover, if_neg (by decide), Nat.sub_zero, h, List.take_left' (length_bits n x), value_bits,
        BitVec.shiftLeft_zero]
  · rw [rest_advance, h, List.drop_left' (length_bits n x)]

/-- The zeros in front of a one. -/
theorem reads_leadingZeros (k : Nat) : ∀ {fuel : Nat}, k < fuel →
    Reads rest (leadingZeros fuel) (List.replicate k false ++ [true]) k := by
  induction k with
  | zero =>
    intro fuel hfuel
    obtain ⟨fuel, rfl⟩ := Nat.exists_eq_add_one.mpr hfuel
    intro bv t h
    obtain ⟨bv', hbit, ht⟩ := reads_get1Bit true bv t h
    refine ⟨bv', ?_, ht⟩
    show (get1Bit bv >>= _) = _
    rw [hbit]
    rfl
  | succ k ih =>
    intro fuel hfuel
    obtain ⟨fuel, rfl⟩ := Nat.exists_eq_add_one.mpr (Nat.zero_lt_of_lt hfuel)
    intro bv t h
    rw [List.replicate_succ, List.cons_append, List.cons_append] at h
    obtain ⟨bv', hbit, hrest⟩ := reads_get1Bit false bv _ h
    obtain ⟨bv'', hzeros, ht⟩ := ih (Nat.lt_of_succ_lt_succ hfuel) bv' t hrest
    refine ⟨bv'', ?_, ht⟩
    have hmore : bv'.curBitIndex < bv'.totNumBits := by
      have hremaining := remaining_of_rest hrest
      rw [List.length_append, List.length_singleton, numBitsRemaining] at hremaining
      omega
    show (get1Bit bv >>= _) = _
    rw [hbit]
    show (if false = false ∧ bv'.curBitIndex < bv'.totNumBits then _ else _ : Parser Nat) bv' = _
    rw [if_pos ⟨rfl, hmore⟩]
    show (leadingZeros fuel bv' >>= _) = _
    rw [hzeros]
    rfl

/-- A number in the exponential Golomb code, up to the greatest that a word has room for. -/
theorem reads_getExpGolomb {v : Nat} (hv : v < 2 ^ 32 - 1) :
    Reads rest getExpGolomb (expGolomb v) (BitVec.ofNat 32 v) := by
  intro bv t h
  have hk : (v + 1).log2 < 32 := (Nat.log2_lt (Nat.succ_ne_zero v)).mpr (by omega)
  have hremaining := remaining_of_rest h
  have hcode : expGolomb v =
      (List.replicate (v + 1).log2 false ++ [true]) ++ bits (v + 1).log2 (v + 1) := by
    rw [expGolomb, List.append_assoc]
    rfl
  rw [hcode, List.append_assoc] at h
  have hfuel : (v + 1).log2 < bv.numBitsRemaining + 1 := by
    rw [expGolomb, List.length_append, List.length_replicate] at hremaining
    omega
  obtain ⟨bv', hzeros, hrest⟩ := reads_leadingZeros (v + 1).log2 hfuel bv _ h
  obtain ⟨bv'', hbits, ht⟩ := reads_getBits (Nat.le_of_lt hk) (v + 1) bv' t hrest
  refine ⟨bv'', ?_, ht⟩
  show (leadingZeros (bv.numBitsRemaining + 1) bv >>= _) = _
  rw [hzeros]
  show (getBits (v + 1).log2 bv' >>= _) = _
  rw [hbits]
  show Except.ok _ = Except.ok _
  congr 2
  have hvalue := expGolomb_value v
  rw [value_bits] at hvalue
  have hpos := Nat.two_pow_pos (v + 1).log2
  have hpow : 2 ^ (v + 1).log2 < 2 ^ 32 := Nat.pow_lt_pow_right (by decide) hk
  apply BitVec.eq_of_toNat_eq
  have hone : (1 : BitVec 32).toNat = 1 := rfl
  have hlow := Nat.mod_lt (v + 1) hpos
  rw [BitVec.toNat_add, BitVec.toNat_sub, BitVec.toNat_shiftLeft, Nat.shiftLeft_eq, hone,
    Nat.one_mul, BitVec.toNat_ofNat, BitVec.toNat_ofNat]
  omega

end Reading

end BitVector

/-! ## CH264ConfigParser -/

open BitVector

/-- `CH264ConfigParser`: the fields that can be asked for. -/
structure CH264ConfigParser where
  width : BitVec 32
  height : BitVec 32
  numUnitsInTick : BitVec 32
  timeScale : BitVec 32
  deriving DecidableEq, Repr

namespace CH264ConfigParser

/-- `CH264ConfigParser()`. -/
def new : CH264ConfigParser where
  width := -1
  height := -1
  numUnitsInTick := 30
  timeScale := 1

/-- The profiles with the fields of the high ones. -/
def highProfiles : List (BitVec 32) := [100, 110, 122, 244, 44, 83, 86, 118, 128]

/-- The loop over one scaling list. -/
def scalingList : Nat → BitVec 32 → BitVec 32 → Parser Unit
  | 0, _, _ => pure ()
  | n + 1, lastScale, nextScale =>
    if nextScale ≠ 0 then do
      let deltaScale ← getExpGolomb
      let nextScale := (lastScale + deltaScale + 256) % 256
      scalingList n (if nextScale = 0 then lastScale else nextScale) nextScale
    else scalingList n lastScale nextScale

/-- A flag, and what is there if it is set. -/
def ifPresent (m : Parser Unit) : Parser Unit := do
  let present ← get1Bit
  onlyIf present m

/-- What is read and not used. -/
def unused {α : Type} (m : Parser α) : Parser Unit := do
  let _ ← m
  pure ()

/-- The loop over the scaling lists, of which the first six are short. -/
def scalingMatrix (count : Nat) : Nat → Parser Unit
  | 0 => pure ()
  | n + 1 => do
    -- seq_scaling_list_present_flag
    ifPresent (scalingList (if count - (n + 1) < 6 then 16 else 64) 8 8)
    scalingMatrix count n

/-- The fields of the high profiles. -/
def parseHighProfile : Parser Unit := do
  let chromaFormatIdc ← getExpGolomb
  onlyIf (chromaFormatIdc = 3) (unused get1Bit)
  unused getExpGolomb
  unused getExpGolomb
  skipBits 1
  let count := if chromaFormatIdc ≠ 3 then 8 else 12
  -- seq_scaling_matrix_present_flag
  ifPresent (scalingMatrix count count)

/-- The fields of `pic_order_cnt_type` 1. -/
def parseOrderCycle : Parser Unit := do
  skipBits 1
  unused getExpGolomb
  unused getExpGolomb
  let numRefFrames ← getExpGolomb
  times numRefFrames.toNat (unused getExpGolomb)

/-- The order of pictures: nothing follows types above 1. -/
def parsePicOrderCnt : Parser Unit := do
  let picOrderCntType ← getExpGolomb
  if picOrderCntType = 0 then unused getExpGolomb
  else onlyIf (picOrderCntType = 1) parseOrderCycle

/-- The frame and the cropping. -/
def parseFrame : Parser Unit := do
  let frameMbsOnlyFlag ← get1Bit
  onlyIf (¬ frameMbsOnlyFlag) (skipBits 1)
  skipBits 1
  -- frame_cropping_flag
  ifPresent (times 4 (unused getExpGolomb))

def parseAspectRatio : Parser Unit := do
  let aspectRatioIdc ← getBits 8
  onlyIf (aspectRatioIdc = 255) (skipBits 32)

def parseVideoSignal : Parser Unit := do
  skipBits 4
  -- colour_description_present_flag
  ifPresent (skipBits 24)

/-- `analyze_vui_parameters`, before the timing: the aspect ratio, the overscan, the video signal
and the place of the chroma samples. -/
def skipVuiParameters : Parser Unit := do
  ifPresent parseAspectRatio
  ifPresent (skipBits 1)
  ifPresent parseVideoSignal
  ifPresent (times 2 (unused getExpGolomb))

/-- `analyze_vui_parameters`. -/
def analyzeVuiParameters (p : CH264ConfigParser) : Parser CH264ConfigParser := do
  skipVuiParameters
  let timingInfoPresentFlag ← get1Bit
  if timingInfoPresentFlag then do
    let numUnitsInTick ← getBits 32
    let timeScale ← getBits 32
    unused get1Bit
    pure { p with numUnitsInTick := numUnitsInTick, timeScale := timeScale }
  else pure p

/-- The size of the picture and what follows it. -/
def parsePicture (p : CH264ConfigParser) : Parser CH264ConfigParser := do
  let picWidthInMbsMinus1 ← getExpGolomb
  let picHeightInMapUnitsMinus1 ← getExpGolomb
  parseFrame
  let p := { p with
    width := (picWidthInMbsMinus1 + 1) * 16
    height := (picHeightInMapUnitsMinus1 + 1) * 16 }
  let vuiParametersPresentFlag ← get1Bit
  if vuiParametersPresentFlag then analyzeVuiParameters p else pure p

/-- The fields of `ParseSPS` in their order. -/
def parseFields (p : CH264ConfigParser) : Parser CH264ConfigParser := do
  skipBits 8
  let profileIdc ← getBits 8
  unused (getBits 8)
  unused (getBits 8)
  unused getExpGolomb
  onlyIf (profileIdc ∈ highProfiles) parseHighProfile
  unused getExpGolomb
  parsePicOrderCnt
  unused getExpGolomb
  unused get1Bit
  parsePicture p

/-- `ParseSPS`, which copies the bytes into an array of 1000. -/
def parseSPS (p : CH264ConfigParser) (buffer : List Byte) : Except Fault CH264ConfigParser :=
  if 1000 < buffer.length then .error .outOfBounds
  else do
    let (p, _) ← parseFields p { bytes := buffer, curBitIndex := 0 }
    .ok p

end CH264ConfigParser

/-! ## What an encoder writes -/

/-- A number with a code. -/
abbrev Ue := Fin (2 ^ 32 - 1)

def Ue.code (v : Ue) : List Bool := expGolomb v.val

/-- The code of what may be missing: a flag in front. -/
def optional {α : Type} (code : α → List Bool) : Option α → List Bool
  | none => [false]
  | some a => true :: code a

/-- The fields of the high profiles. With `scalingMatrix` a matrix is announced, and all its lists
are left to the decoder. -/
structure HighProfile where
  chromaFormat : Ue
  separateColourPlane : Bool
  bitDepthLuma : Ue
  bitDepthChroma : Ue
  transformBypass : Bool
  scalingMatrix : Bool

def HighProfile.code (h : HighProfile) : List Bool :=
  h.chromaFormat.code ++ (if h.chromaFormat.val = 3 then [h.separateColourPlane] else []) ++
    h.bitDepthLuma.code ++ h.bitDepthChroma.code ++ [h.transformBypass] ++
    optional (fun _ => List.replicate (if h.chromaFormat.val ≠ 3 then 8 else 12) false)
      (if h.scalingMatrix then some () else none)

/-- The order of pictures, by its type. -/
inductive PicOrderCnt
  | lsb (log2MaxLsb : Ue)
  | cycle (deltaAlwaysZero : Bool) (nonRef topToBottom : Ue) (refFrames : List Ue)
      (few : refFrames.length < 2 ^ 32 - 1)
  | output (type : Ue) (above : 1 < type.val)

def PicOrderCnt.code : PicOrderCnt → List Bool
  | lsb log2MaxLsb => Ue.code ⟨0, by decide⟩ ++ log2MaxLsb.code
  | cycle deltaAlwaysZero nonRef topToBottom refFrames few =>
    Ue.code ⟨1, by decide⟩ ++ [deltaAlwaysZero] ++ nonRef.code ++ topToBottom.code ++
      Ue.code ⟨refFrames.length, few⟩ ++ refFrames.flatMap Ue.code
  | output type _ => type.code

/-- The timing: `num_units_in_tick`, `time_scale` and whether the frame rate is fixed. -/
structure Timing where
  numUnitsInTick : BitVec 32
  timeScale : BitVec 32
  fixedFrameRate : Bool

def Timing.code (t : Timing) : List Bool :=
  bits 32 t.numUnitsInTick.toNat ++ bits 32 t.timeScale.toNat ++ [t.fixedFrameRate]

/-- The usability information, up to the timing. The size of a sample is given with the aspect ratio
255. -/
structure Vui where
  aspectRatio : Option (Byte × BitVec 32)
  overscanAppropriate : Option Bool
  videoSignal : Option (BitVec 4 × Option (BitVec 24))
  chromaLoc : Option (Ue × Ue)
  timing : Option Timing

def Vui.code (v : Vui) : List Bool :=
  optional (fun a => bits 8 a.1.toNat ++ if a.1 = 255 then bits 32 a.2.toNat else [])
      v.aspectRatio ++
    optional (fun b => [b]) v.overscanAppropriate ++
    optional (fun a => bits 4 a.1.toNat ++ optional (fun c => bits 24 c.toNat) a.2) v.videoSignal ++
    optional (fun a => a.1.code ++ a.2.code) v.chromaLoc ++
    optional Timing.code v.timing

/-- A sequence parameter set, up to the usability information. -/
structure SequenceParameterSet where
  header : Byte
  profileIdc : Byte
  constraintSet : Byte
  levelIdc : Byte
  id : Ue
  high : HighProfile
  log2MaxFrameNum : Ue
  picOrderCnt : PicOrderCnt
  maxNumRefFrames : Ue
  gapsInFrameNumAllowed : Bool
  picWidthInMbsMinus1 : Ue
  picHeightInMapUnitsMinus1 : Ue
  frameMbsOnly : Bool
  mbAdaptive : Bool
  direct8x8Inference : Bool
  cropping : Option (Ue × Ue × Ue × Ue)
  vui : Option Vui

namespace SequenceParameterSet

def code (s : SequenceParameterSet) : List Bool :=
  bits 8 s.header.toNat ++ bits 8 s.profileIdc.toNat ++ bits 8 s.constraintSet.toNat ++
    bits 8 s.levelIdc.toNat ++ s.id.code ++
    (if s.profileIdc.setWidth 32 ∈ CH264ConfigParser.highProfiles then s.high.code else []) ++
    s.log2MaxFrameNum.code ++ s.picOrderCnt.code ++ s.maxNumRefFrames.code ++
    [s.gapsInFrameNumAllowed] ++ s.picWidthInMbsMinus1.code ++ s.picHeightInMapUnitsMinus1.code ++
    ([s.frameMbsOnly] ++ (if ¬ s.frameMbsOnly then [s.mbAdaptive] else []) ++
      [s.direct8x8Inference] ++
      optional (fun c => c.1.code ++ c.2.1.code ++ c.2.2.1.code ++ c.2.2.2.code) s.cropping) ++
    optional Vui.code s.vui

/-- The timing, if there is one. -/
def timing (s : SequenceParameterSet) : Option Timing := s.vui.bind (·.timing)

end SequenceParameterSet

/-! ## The parser reads what is written -/

namespace CH264ConfigParser

theorem reads_unused {α : Type} {m : Parser α} {bs : List Bool} {a : α} (h : Reads rest m bs a) :
    Reads rest (unused m) bs () := h.map

theorem reads_code (v : Ue) : Reads rest getExpGolomb v.code (BitVec.ofNat 32 v.val) :=
  reads_getExpGolomb v.isLt

theorem reads_absent (m : Parser Unit) : Reads rest (ifPresent m) [false] () := by
  have hno : Reads rest (onlyIf (false = true) m) [] () := Reads.pure ()
  exact (reads_get1Bit false).bind hno

theorem reads_optional {α : Type} {m : Parser Unit} {code : α → List Bool} (o : Option α)
    (h : ∀ a, Reads rest m (code a) ()) : Reads rest (ifPresent m) (optional code o) () := by
  cases o with
  | none => exact reads_absent m
  | some a => exact (reads_get1Bit true).bind (Reads.onlyIf fun _ => h a)

/-- Flags that are not set. -/
theorem reads_scalingMatrix (count n : Nat) :
    Reads rest (scalingMatrix count n) (List.replicate n false) () := by
  induction n with
  | zero => exact Reads.pure ()
  | succ n ih => exact (reads_absent _).bind ih

/-- A code tells the numbers below `2 ^ 32`. -/
theorem ofNat_eq_iff {v n : Nat} (hv : v < 2 ^ 32) (hn : n < 2 ^ 32) :
    BitVec.ofNat 32 v = BitVec.ofNat 32 n ↔ v = n := by
  rw [← BitVec.toNat_inj, BitVec.toNat_ofNat, BitVec.toNat_ofNat, Nat.mod_eq_of_lt hv,
    Nat.mod_eq_of_lt hn]

theorem reads_highProfile (h : HighProfile) : Reads rest parseHighProfile h.code () := by
  have hthree : (BitVec.ofNat 32 h.chromaFormat.val = 3) ↔ h.chromaFormat.val = 3 :=
    ofNat_eq_iff (Nat.lt_of_lt_of_le h.chromaFormat.isLt (by decide)) (by decide)
  have hplane : Reads rest (onlyIf (BitVec.ofNat 32 h.chromaFormat.val = 3) (unused get1Bit))
      (if h.chromaFormat.val = 3 then [h.separateColourPlane] else []) () := by
    have hread : Reads rest (onlyIf (BitVec.ofNat 32 h.chromaFormat.val = 3) (unused get1Bit))
        (if BitVec.ofNat 32 h.chromaFormat.val = 3 then [h.separateColourPlane] else []) () :=
      Reads.onlyIf fun _ => reads_unused (reads_get1Bit _)
    simpa only [hthree] using hread
  have hmatrix := reads_optional (if h.scalingMatrix then some () else none) fun _ =>
    reads_scalingMatrix (if BitVec.ofNat 32 h.chromaFormat.val ≠ 3 then 8 else 12)
      (if BitVec.ofNat 32 h.chromaFormat.val ≠ 3 then 8 else 12)
  refine ((reads_code h.chromaFormat).bind (hplane.bind
    ((reads_unused (reads_code h.bitDepthLuma)).bind
      ((reads_unused (reads_code h.bitDepthChroma)).bind
        ((reads_skipBits [h.transformBypass]).bind hmatrix))))).of_eq ?_
  simp only [HighProfile.code, hthree, ne_eq, List.append_assoc]

theorem reads_orderCycle (deltaAlwaysZero : Bool) (nonRef topToBottom : Ue) (refFrames : List Ue)
    (few : refFrames.length < 2 ^ 32 - 1) :
    Reads rest parseOrderCycle
      ([deltaAlwaysZero] ++ (nonRef.code ++ (topToBottom.code ++
        (Ue.code ⟨refFrames.length, few⟩ ++ refFrames.flatMap Ue.code)))) () := by
  have hlen : (BitVec.ofNat 32 refFrames.length).toNat = refFrames.length := by
    rw [BitVec.toNat_ofNat]
    omega
  have hcycle : Reads rest
      (times (BitVec.ofNat 32 refFrames.length).toNat (unused getExpGolomb))
      (refFrames.flatMap Ue.code) () := by
    rw [hlen]
    exact Reads.times refFrames fun v _ => reads_unused (reads_code v)
  exact (reads_skipBits [deltaAlwaysZero]).bind ((reads_unused (reads_code nonRef)).bind
    ((reads_unused (reads_code topToBottom)).bind
      ((reads_code ⟨refFrames.length, few⟩).bind hcycle)))

theorem reads_picOrderCnt (order : PicOrderCnt) : Reads rest parsePicOrderCnt order.code () := by
  cases order with
  | lsb log2MaxLsb =>
    exact (reads_code ⟨0, by decide⟩).bind (reads_unused (reads_code log2MaxLsb))
  | cycle deltaAlwaysZero nonRef topToBottom refFrames few =>
    have hcycle := reads_orderCycle deltaAlwaysZero nonRef topToBottom refFrames few
    have hnext : ∀ bs, Reads rest parseOrderCycle bs () → Reads rest
        (if BitVec.ofNat 32 1 = 0 then unused getExpGolomb
          else onlyIf (BitVec.ofNat 32 1 = 1) parseOrderCycle) bs () := by
      intro bs h
      rw [if_neg (by decide), onlyIf, if_pos (by decide)]
      exact h
    refine ((reads_code ⟨1, by decide⟩).bind (hnext _ hcycle)).of_eq ?_
    simp only [PicOrderCnt.code, List.append_assoc]
  | output type above =>
    have hlt : type.val < 2 ^ 32 := Nat.lt_of_lt_of_le type.isLt (by decide)
    have hzero : ¬ BitVec.ofNat 32 type.val = 0 := fun h => by
      have hval := (ofNat_eq_iff hlt (by decide : 0 < 2 ^ 32)).mp h
      omega
    have hone : ¬ BitVec.ofNat 32 type.val = 1 := fun h => by
      have hval := (ofNat_eq_iff hlt (by decide : 1 < 2 ^ 32)).mp h
      omega
    have hnothing : Reads rest
        (if BitVec.ofNat 32 type.val = 0 then unused getExpGolomb
          else onlyIf (BitVec.ofNat 32 type.val = 1) parseOrderCycle) [] () := by
      rw [if_neg hzero, onlyIf, if_neg hone]
      exact Reads.pure ()
    exact ((reads_code type).bind hnothing).of_eq (List.append_nil _).symm

theorem reads_frame (s : SequenceParameterSet) :
    Reads rest parseFrame
      ([s.frameMbsOnly] ++ ((if ¬ s.frameMbsOnly then [s.mbAdaptive] else []) ++
        ([s.direct8x8Inference] ++
          optional (fun c => c.1.code ++ c.2.1.code ++ c.2.2.1.code ++ c.2.2.2.code)
            s.cropping))) () := by
  have hcropping : Reads rest (ifPresent (times 4 (unused getExpGolomb)))
      (optional (fun c : Ue × Ue × Ue × Ue =>
        c.1.code ++ c.2.1.code ++ c.2.2.1.code ++ c.2.2.2.code) s.cropping) () := by
    refine reads_optional s.cropping fun c => ?_
    refine (Reads.times [c.1, c.2.1, c.2.2.1, c.2.2.2] fun v _ =>
      reads_unused (reads_code v)).of_eq ?_
    simp only [List.flatMap_cons, List.flatMap_nil, List.append_nil, List.append_assoc]
  exact (reads_get1Bit s.frameMbsOnly).bind ((Reads.onlyIf fun _ =>
    reads_skipBits [s.mbAdaptive]).bind ((reads_skipBits [s.direct8x8Inference]).bind hcropping))

/-- What is read of as many bits as a number has. -/
theorem reads_word {n : Nat} (hn : n ≤ 32) (x : BitVec n) :
    Reads rest (getBits n) (bits n x.toNat) (x.setWidth 32) := by
  have hread := reads_getBits hn x.toNat
  rw [Nat.mod_eq_of_lt x.isLt, BitVec.ofNat_toNat] at hread
  exact hread

theorem reads_skipWord (n : Nat) (x : Nat) : Reads rest (skipBits n) (bits n x) () := by
  have hread := reads_skipBits (bits n x)
  rw [length_bits] at hread
  exact hread

theorem setWidth_eq_iff {x : Byte} : x.setWidth 32 = 255 ↔ x = 255 := by
  rw [← BitVec.toNat_inj, ← BitVec.toNat_inj, BitVec.toNat_setWidth,
    Nat.mod_eq_of_lt (Nat.lt_trans x.isLt (by decide))]
  rfl

theorem reads_skipVui (v : Vui) :
    Reads rest skipVuiParameters
      (optional (fun a => bits 8 a.1.toNat ++ if a.1 = 255 then bits 32 a.2.toNat else [])
          v.aspectRatio ++
        (optional (fun b => [b]) v.overscanAppropriate ++
          (optional (fun a => bits 4 a.1.toNat ++ optional (fun c => bits 24 c.toNat) a.2)
              v.videoSignal ++
            optional (fun a => a.1.code ++ a.2.code) v.chromaLoc))) () := by
  have haspect : ∀ a : Byte × BitVec 32, Reads rest parseAspectRatio
      (bits 8 a.1.toNat ++ if a.1 = 255 then bits 32 a.2.toNat else []) () := by
    intro a
    have hsize : Reads rest (onlyIf (a.1.setWidth 32 = 255) (skipBits 32))
        (if a.1 = 255 then bits 32 a.2.toNat else []) () :=
      (Reads.onlyIf fun _ => reads_skipWord 32 a.2.toNat).of_eq (by simp only [setWidth_eq_iff])
    exact (reads_word (by decide) a.1).bind hsize
  have hsignal : ∀ a : BitVec 4 × Option (BitVec 24), Reads rest parseVideoSignal
      (bits 4 a.1.toNat ++ optional (fun c => bits 24 c.toNat) a.2) () := fun a =>
    (reads_skipWord 4 a.1.toNat).bind (reads_optional a.2 fun c => reads_skipWord 24 c.toNat)
  have hchroma : ∀ a : Ue × Ue, Reads rest (times 2 (unused getExpGolomb)) (a.1.code ++ a.2.code)
      () := by
    intro a
    refine (Reads.times [a.1, a.2] fun v _ => reads_unused (reads_code v)).of_eq ?_
    simp only [List.flatMap_cons, List.flatMap_nil, List.append_nil]
  exact (reads_optional v.aspectRatio haspect).bind
    ((reads_optional v.overscanAppropriate fun b => reads_skipBits [b]).bind
      ((reads_optional v.videoSignal hsignal).bind (reads_optional v.chromaLoc hchroma)))

/-- The timing that is found, or the one the parser had. -/
def withTiming (p : CH264ConfigParser) : Option Timing → CH264ConfigParser
  | none => p
  | some t => { p with numUnitsInTick := t.numUnitsInTick, timeScale := t.timeScale }

theorem reads_vui (p : CH264ConfigParser) (v : Vui) :
    Reads rest (analyzeVuiParameters p) v.code (p.withTiming v.timing) := by
  have htiming : Reads rest (do
      let timingInfoPresentFlag ← get1Bit
      if timingInfoPresentFlag then do
        let numUnitsInTick ← getBits 32
        let timeScale ← getBits 32
        unused get1Bit
        pure { p with numUnitsInTick := numUnitsInTick, timeScale := timeScale }
      else pure p) (optional Timing.code v.timing) (p.withTiming v.timing) := by
    cases v.timing with
    | none => exact (reads_get1Bit false).bind (Reads.pure p)
    | some t =>
      have hunits := reads_word (Nat.le_refl 32) t.numUnitsInTick
      have hscale := reads_word (Nat.le_refl 32) t.timeScale
      rw [BitVec.setWidth_eq] at hunits hscale
      let q : CH264ConfigParser :=
        { p with numUnitsInTick := t.numUnitsInTick, timeScale := t.timeScale }
      have hfixed : Reads rest (do
          unused get1Bit
          pure q) ([t.fixedFrameRate] ++ []) q :=
        (reads_unused (reads_get1Bit t.fixedFrameRate)).bind (Reads.pure q)
      refine (reads_get1Bit true).bind ((hunits.bind (hscale.bind hfixed)).of_eq ?_)
      simp only [List.append_assoc, List.append_nil]
  refine ((reads_skipVui v).bind htiming).of_eq ?_
  simp only [Vui.code, List.append_assoc]

/-- What is known of a parameter set. -/
def ofSps (p : CH264ConfigParser) (s : SequenceParameterSet) : CH264ConfigParser :=
  { p with
    width := BitVec.ofNat 32 ((s.picWidthInMbsMinus1.val + 1) * 16)
    height := BitVec.ofNat 32 ((s.picHeightInMapUnitsMinus1.val + 1) * 16) }.withTiming s.timing

theorem reads_picture (p : CH264ConfigParser) (s : SequenceParameterSet) :
    Reads rest (parsePicture p)
      (s.picWidthInMbsMinus1.code ++ (s.picHeightInMapUnitsMinus1.code ++
        (([s.frameMbsOnly] ++ ((if ¬ s.frameMbsOnly then [s.mbAdaptive] else []) ++
          ([s.direct8x8Inference] ++
            optional (fun c => c.1.code ++ c.2.1.code ++ c.2.2.1.code ++ c.2.2.2.code)
              s.cropping))) ++ optional Vui.code s.vui))) (p.ofSps s) := by
  have hsize : ∀ v : Ue, (BitVec.ofNat 32 v.val + 1) * 16 = BitVec.ofNat 32 ((v.val + 1) * 16) := by
    intro v
    rw [BitVec.ofNat_mul, BitVec.ofNat_add]
    rfl
  have hvui : ∀ p : CH264ConfigParser, Reads rest (do
      let vuiParametersPresentFlag ← get1Bit
      if vuiParametersPresentFlag then analyzeVuiParameters p else pure p)
      (optional Vui.code s.vui) (p.withTiming s.timing) := by
    intro p
    rw [SequenceParameterSet.timing]
    cases s.vui with
    | none => exact (reads_get1Bit false).bind (Reads.pure p)
    | some v => exact (reads_get1Bit true).bind (reads_vui p v)
  rw [ofSps, ← hsize, ← hsize]
  exact (reads_code s.picWidthInMbsMinus1).bind ((reads_code s.picHeightInMapUnitsMinus1).bind
    ((reads_frame s).bind (hvui _)))

theorem reads_fields (p : CH264ConfigParser) (s : SequenceParameterSet) :
    Reads rest (parseFields p) s.code (p.ofSps s) := by
  have hhigh : Reads rest (onlyIf (s.profileIdc.setWidth 32 ∈ highProfiles) parseHighProfile)
      (if s.profileIdc.setWidth 32 ∈ highProfiles then s.high.code else []) () :=
    Reads.onlyIf fun _ => reads_highProfile s.high
  refine ((reads_skipWord 8 s.header.toNat).bind ((reads_word (by decide) s.profileIdc).bind
    ((reads_unused (reads_word (by decide) s.constraintSet)).bind
      ((reads_unused (reads_word (by decide) s.levelIdc)).bind
        ((reads_unused (reads_code s.id)).bind (hhigh.bind
          ((reads_unused (reads_code s.log2MaxFrameNum)).bind
            ((reads_picOrderCnt s.picOrderCnt).bind
              ((reads_unused (reads_code s.maxNumRefFrames)).bind
                ((reads_unused (reads_get1Bit s.gapsInFrameNumAllowed)).bind
                  (reads_picture p s))))))))))).of_eq ?_
  simp only [SequenceParameterSet.code, List.append_assoc]

end CH264ConfigParser

/-- Whatever fields a sequence parameter set has, and whatever bits follow them, the parser finds
the size in whole macroblocks and the timing that is written. -/
theorem parse_sequence_parameter_set (p : CH264ConfigParser) (s : SequenceParameterSet)
    {nal : List Byte} {trailing : List Bool} (hnal : stream nal = s.code ++ trailing)
    (hlength : nal.length ≤ 1000) : p.parseSPS nal = .ok (p.ofSps s) := by
  obtain ⟨bv, hparse, -⟩ :=
    CH264ConfigParser.reads_fields p s { bytes := nal, curBitIndex := 0 } trailing hnal
  rw [CH264ConfigParser.parseSPS, if_neg (Nat.not_lt.mpr hlength), hparse]
  rfl

/-- 1920 by 1080 in the high profile, cropped at the bottom, with 25 frames of two fields. -/
def fullHd : SequenceParameterSet where
  header := 0x67
  profileIdc := 100
  constraintSet := 0
  levelIdc := 40
  id := ⟨0, by decide⟩
  high :=
    { chromaFormat := ⟨1, by decide⟩
      separateColourPlane := false
      bitDepthLuma := ⟨0, by decide⟩
      bitDepthChroma := ⟨0, by decide⟩
      transformBypass := false
      scalingMatrix := false }
  log2MaxFrameNum := ⟨0, by decide⟩
  picOrderCnt := .lsb ⟨2, by decide⟩
  maxNumRefFrames := ⟨4, by decide⟩
  gapsInFrameNumAllowed := false
  picWidthInMbsMinus1 := ⟨119, by decide⟩
  picHeightInMapUnitsMinus1 := ⟨67, by decide⟩
  frameMbsOnly := true
  mbAdaptive := false
  direct8x8Inference := true
  cropping := some (⟨0, by decide⟩, ⟨0, by decide⟩, ⟨0, by decide⟩, ⟨4, by decide⟩)
  vui := none

def fullHdBytes : List Byte :=
  [0x67, 0x64, 0, 0x28, 0xac, 0xd9, 0x40, 0x78, 2, 0x27, 0xe5, 0x40]

theorem parse_sequence_parameter_set_full_hd :
    CH264ConfigParser.new.parseSPS fullHdBytes =
      .ok { CH264ConfigParser.new with width := 1920, height := 1088 } := by
  have hnal : stream fullHdBytes =
      fullHd.code ++ [true, false, false, false, false, false, false] := by decide +kernel
  exact parse_sequence_parameter_set .new fullHd hnal (by decide)

end RtcMcu.Avcodec
