import RtcMcu.Avformat.Rtp

/-!
# AAC configurations

The parts of `avcodec/aac.cpp` the remuxer uses: the ADTS header and the two forms of the
AudioSpecificConfig.
-/

namespace RtcMcu.Avcodec

open RtcMcu.Avformat (byteAt)

/-- `samplingFrequencyTable`. -/
def samplingFrequencyTable : List Nat :=
  [96000, 88200, 64000, 48000, 44100, 32000, 24000, 22050, 16000, 12000, 11025, 8000, 7350, 0, 0, 0]

/-- `mpeg4audio_channels`. -/
def mpeg4audioChannels : List Nat := [0, 1, 2, 3, 4, 5, 6, 8]

/-- `aac_get_samplingFrequencyIndex`: the first entry that is not above the rate. -/
def aacGetSamplingFrequencyIndex (samplerate : Nat) : Nat :=
  samplingFrequencyTable.findIdx (· ≤ samplerate)

/-- `aac_get_samplingFrequency_by_index`. -/
def aacGetSamplingFrequencyByIndex (i : Nat) : Nat := samplingFrequencyTable.getD i 0

/-- `aac_get_channel_by_index`, 15 for a number that is not in the table. The source goes on over
eight bytes behind the table; they are taken not to hold the number. -/
def aacGetChannelByIndex (ch : Nat) : Nat :=
  if ch ∈ mpeg4audioChannels then mpeg4audioChannels.idxOf ch else 15

def AACPLUS_AOT_AAC_LC : Byte := 2

/-- `ADTS_HEADER_SIZE`. -/
def adtsHeaderSize : Nat := 7

/-- `AACConfig`. -/
structure AACConfig where
  isSbr : Bool
  audioObject : Byte
  sampleFreq : Nat
  channelConfig : Byte
  frameLength : Nat

namespace AACConfig

/-- `AACConfig()` with the fields the setters give it. -/
def ofFields (audioObjectType : Byte) (channels : Byte) (samplingFrequency : Nat) : AACConfig where
  isSbr := false
  audioObject := audioObjectType
  sampleFreq := samplingFrequency
  channelConfig := channels
  frameLength := 0

/-- `parse_adts_header`: the bits of the first seven bytes. A rate of 24000 or less is doubled, and
one channel then counts as two. -/
def parseAdtsHeader (h : List Byte) : AACConfig :=
  let profile := (byteAt h 2).extractLsb' 6 2
  let freq := aacGetSamplingFrequencyByIndex ((byteAt h 2).extractLsb' 2 4).toNat
  let channel : BitVec 3 := (byteAt h 2).extractLsb' 0 1 ++ (byteAt h 3).extractLsb' 6 2
  let length : BitVec 13 :=
    (byteAt h 3).extractLsb' 0 2 ++ byteAt h 4 ++ (byteAt h 5).extractLsb' 5 3
  { isSbr := decide (freq ≤ 24000)
    audioObject := profile.setWidth 8
    sampleFreq := if freq ≤ 24000 then freq * 2 else freq
    channelConfig := if freq ≤ 24000 ∧ channel = 1 then 2 else channel.setWidth 8
    frameLength := length.toNat }

/-- `build_aac_specific`. -/
def buildAacSpecific (c : AACConfig) : List Byte :=
  if c.isSbr then
    let low := aacGetSamplingFrequencyIndex (c.sampleFreq / 2)
    let ch := aacGetChannelByIndex (if c.channelConfig = 2 then 1 else c.channelConfig.toNat)
    let high := aacGetSamplingFrequencyIndex c.sampleFreq
    [BitVec.ofNat 8 (2 <<< 3 ||| low >>> 1), BitVec.ofNat 8 (low <<< 7 ||| ch <<< 3),
      BitVec.ofNat 8 (0x2b7 >>> 3), BitVec.ofNat 8 ((0x2b7 <<< 5 &&& 0xe0) ||| 5),
      BitVec.ofNat 8 (1 <<< 7 ||| high <<< 3 ||| 0x548 >>> 8), BitVec.ofNat 8 (0x548 &&& 0xff),
      BitVec.ofNat 8 (1 <<< 7)]
  else
    let rate := aacGetSamplingFrequencyIndex c.sampleFreq
    let ch := aacGetChannelByIndex c.channelConfig.toNat
    let object := if 2 < c.audioObject.toNat then 2 else c.audioObject.toNat <<< 3
    [BitVec.ofNat 8 (0x10 ||| object ||| (rate >>> 1 &&& 0x07)),
      BitVec.ofNat 8 ((rate &&& 0x01) <<< 7 ||| (ch &&& 0x0f) <<< 3)]

/-- A configuration is never empty, and at most `MAX_EXTRADATA_SIZE` long. -/
theorem length_buildAacSpecific (c : AACConfig) :
    0 < c.buildAacSpecific.length ∧ c.buildAacSpecific.length ≤ 7 := by
  unfold buildAacSpecific
  split
  · exact ⟨(by decide : 0 < 7), (by decide : 7 ≤ 7)⟩
  · exact ⟨(by decide : 0 < 2), (by decide : 2 ≤ 7)⟩

/-- `build_aac_adts`. Of the frame length the fourth byte takes what is left of its nine low bits
eleven bits up. -/
def buildAacAdts (c : AACConfig) : List Byte :=
  let index := aacGetSamplingFrequencyIndex (if c.isSbr then c.sampleFreq / 2 else c.sampleFreq)
  let channel := if c.isSbr then 1 else c.channelConfig.toNat
  [BitVec.ofNat 8 (0xfff >>> 4 &&& 0xff),
    BitVec.ofNat 8 ((0xfff &&& 0x0f) <<< 4 ||| 0x1),
    BitVec.ofNat 8 (0x01 <<< 6 ||| (index &&& 0x0f) <<< 2 ||| (channel &&& 0x07) >>> 2),
    BitVec.ofNat 8 ((channel &&& 0x07) <<< 6 ||| (c.frameLength &&& 0x01ff) >>> 11),
    BitVec.ofNat 8 (c.frameLength >>> 3 &&& 0xff),
    BitVec.ofNat 8 ((c.frameLength &&& 0x07) <<< 5 ||| (0x7ff >>> 6 &&& 0x1f)),
    BitVec.ofNat 8 ((0x7ff &&& 0x3f) <<< 2)]

theorem length_buildAacAdts (c : AACConfig) : c.buildAacAdts.length = adtsHeaderSize := rfl

/-- The low bits of the fourth byte are not those of the frame length. -/
theorem adts_high (channel length : Nat) :
    (BitVec.ofNat 8 ((channel &&& 0x07) <<< 6 ||| (length &&& 0x01ff) >>> 11)).extractLsb' 0 2 =
      (0 : BitVec 2) := by
  have hnone : (length &&& 0x01ff) >>> 11 = 0 := by
    rw [Nat.shiftRight_eq_div_pow]
    exact Nat.div_eq_of_lt (Nat.lt_of_le_of_lt Nat.and_le_right (by decide))
  have hchannel : channel &&& 0x07 < 8 := Nat.lt_of_le_of_lt Nat.and_le_right (by decide)
  rw [hnone, Nat.or_zero]
  generalize channel &&& 0x07 = k at hchannel
  have hall : ∀ k < 8, (BitVec.ofNat 8 (k <<< 6)).extractLsb' 0 2 = (0 : BitVec 2) := by decide
  exact hall k hchannel

/-- The high bits of the sixth byte are the low ones of the frame length. -/
theorem adts_low (length : Nat) :
    ((BitVec.ofNat 8 ((length &&& 0x07) <<< 5 ||| (0x7ff >>> 6 &&& 0x1f))).extractLsb' 5 3).toNat =
      length % 8 := by
  have hlow : length &&& 0x07 = length % 8 := Nat.and_two_pow_sub_one_eq_mod length 3
  have hlt : length % 8 < 8 := Nat.mod_lt _ (by decide)
  rw [hlow]
  generalize length % 8 = k at hlt
  have hall : ∀ k < 8,
      ((BitVec.ofNat 8 (k <<< 5 ||| (0x7ff >>> 6 &&& 0x1f))).extractLsb' 5 3).toNat = k := by decide
  exact hall k hlt

/-- What is read of the frame length are its low eleven bits. -/
theorem frameLength_buildAacAdts (c : AACConfig) (payload : List Byte) :
    (parseAdtsHeader (c.buildAacAdts ++ payload)).frameLength = c.frameLength % 2 ^ 11 := by
  have hmiddle : (BitVec.ofNat 8 (c.frameLength >>> 3 &&& 0xff)).toNat = c.frameLength / 8 % 256 := by
    rw [BitVec.toNat_ofNat, Nat.and_two_pow_sub_one_eq_mod _ 8, Nat.shiftRight_eq_div_pow]
    exact Nat.mod_mod _ _
  have hlow := adts_low c.frameLength
  have hlt : c.frameLength % 8 < 2 ^ 3 := Nat.mod_lt _ (by decide)
  let channel := if c.isSbr then 1 else c.channelConfig.toNat
  have hread : (parseAdtsHeader (c.buildAacAdts ++ payload)).frameLength =
      ((BitVec.ofNat 8 ((channel &&& 0x07) <<< 6 ||| (c.frameLength &&& 0x01ff) >>> 11)).extractLsb'
          0 2 ++ BitVec.ofNat 8 (c.frameLength >>> 3 &&& 0xff) ++
        (BitVec.ofNat 8 ((c.frameLength &&& 0x07) <<< 5 ||| (0x7ff >>> 6 &&& 0x1f))).extractLsb'
          5 3).toNat := rfl
  rw [hread, adts_high, BitVec.toNat_append, BitVec.toNat_append, hlow, hmiddle,
    ← Nat.shiftLeft_add_eq_or_of_lt hlt, Nat.shiftLeft_eq]
  show (0 ||| c.frameLength / 8 % 256) * 2 ^ 3 + c.frameLength % 8 = _
  rw [Nat.zero_or]
  omega

end AACConfig

end RtcMcu.Avcodec
