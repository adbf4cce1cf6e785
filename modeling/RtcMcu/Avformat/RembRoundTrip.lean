import RtcMcu.Avformat.NackRoundTrip

/-!
# The bitrate of a REMB through the wire

A REMB carries its bitrate as a mantissa of 18 bits and an exponent. `CreateRemb` takes the least
exponent for which the bitrate is no larger than the shifted greatest mantissa, and what is shifted
out is lost: the receiver has the bitrate rounded down (`remb_bitrate_iff`). From `0xffffc001` on no
exponent is found, because the shifted mantissas lose bits at the top. Then the exponent stays 0 and
all but the low 18 bits are lost.
-/

namespace RtcMcu.Avformat.Rtcp

/-! ## The encoder's mantissa and exponent -/

/-- The exponent that goes out with a bitrate. -/
def rembExponent (bitRate : BitVec 32) : Nat :=
  (computeMantissaAnd6bitBase2Exponent bitRate 18).2.toNat

/-- What is made of the bitrate: the mantissa, cut to 18 bits and shifted back. -/
def rembValue (bitRate : BitVec 32) : BitVec 32 :=
  ((bitRate >>> rembExponent bitRate) &&& 0x3ffff) <<< rembExponent bitRate

/-- What a receiver may be told of a bitrate. -/
structure RoundedDown (bitRate value : BitVec 32) : Prop where
  le : value.toNat ≤ bitRate.toNat
  near : bitRate.toNat - value.toNat < 2 ^ rembExponent bitRate
  exact : bitRate.toNat < 2 ^ 18 → value = bitRate

/-- The loop over the exponents. -/
theorem compute_eq {bitRate : BitVec 32} {e : Nat} (he : e < 64)
    (h : ((List.range 64).find? fun i =>
      decide (bitRate ≤ ((1 : BitVec 32) <<< 18 - 1) <<< (i % 32))).getD 0 = e) :
    computeMantissaAnd6bitBase2Exponent bitRate 18 = (bitRate >>> e, BitVec.ofNat 8 e) ∧
      rembExponent bitRate = e := by
  have hpair : computeMantissaAnd6bitBase2Exponent bitRate 18 =
      (bitRate >>> e, BitVec.ofNat 8 e) := by
    rw [← h]
    rfl
  refine ⟨hpair, ?_⟩
  rw [rembExponent, hpair]
  exact Nat.mod_eq_of_lt (by omega)

/-- Up to exponent 14 the greatest mantissa is shifted without loss. -/
theorem mantissaMax_shift : ∀ i < 15,
    (((1 : BitVec 32) <<< 18 - 1) <<< (i % 32)).toNat = (2 ^ 18 - 1) * 2 ^ i := by decide

/-- No shifted mantissa is larger than that of exponent 14. -/
theorem mantissaMax_le : ∀ i < 64,
    ((1 : BitVec 32) <<< 18 - 1) <<< (i % 32) ≤ 0xffffc000#32 := by decide

/-- A bitrate with an exponent: the mantissa has 18 bits. -/
theorem exponent_fits {bitRate : BitVec 32} (h : bitRate ≤ 0xffffc000#32) :
    ∃ e, e < 15 ∧ rembExponent bitRate = e ∧
      computeMantissaAnd6bitBase2Exponent bitRate 18 = (bitRate >>> e, BitVec.ofNat 8 e) ∧
      bitRate.toNat ≤ (2 ^ 18 - 1) * 2 ^ e ∧ (bitRate.toNat < 2 ^ 18 → e = 0) := by
  have hlast : decide (bitRate ≤ ((1 : BitVec 32) <<< 18 - 1) <<< (14 % 32)) = true :=
    decide_eq_true h
  cases hfind : (List.range 64).find? fun i =>
      decide (bitRate ≤ ((1 : BitVec 32) <<< 18 - 1) <<< (i % 32)) with
  | none =>
    have hnot := List.find?_range_eq_none.mp hfind 14 (by decide)
    rw [hlast] at hnot
    cases hnot
  | some e =>
    obtain ⟨hle, -, hfirst⟩ := List.find?_range_eq_some.mp hfind
    have he : e < 15 := by
      by_contra hge
      have hnot := hfirst 14 (by omega)
      rw [hlast] at hnot
      cases hnot
    have hbound : bitRate.toNat ≤ (((1 : BitVec 32) <<< 18 - 1) <<< (e % 32)).toNat :=
      of_decide_eq_true hle
    rw [mantissaMax_shift e he] at hbound
    obtain ⟨hpair, hexp⟩ := compute_eq (show e < 64 by omega) (congrArg (Option.getD · 0) hfind)
    refine ⟨e, he, hexp, hpair, hbound, fun hsmall => ?_⟩
    by_contra hpos
    have hnot := hfirst 0 (Nat.pos_of_ne_zero hpos)
    have hzero : decide (bitRate ≤ ((1 : BitVec 32) <<< 18 - 1) <<< (0 % 32)) = true := by
      refine decide_eq_true ?_
      show bitRate.toNat ≤ 2 ^ 18 - 1
      omega
    rw [hzero] at hnot
    cases hnot

/-- A bitrate without one. -/
theorem exponent_missing {bitRate : BitVec 32} (h : ¬ bitRate ≤ 0xffffc000#32) :
    rembExponent bitRate = 0 ∧
      computeMantissaAnd6bitBase2Exponent bitRate 18 = (bitRate >>> 0, BitVec.ofNat 8 0) := by
  have hnone : ((List.range 64).find? fun i =>
      decide (bitRate ≤ ((1 : BitVec 32) <<< 18 - 1) <<< (i % 32))) = none := by
    refine List.find?_range_eq_none.mpr fun i hi => ?_
    have hgreat : ¬ bitRate ≤ ((1 : BitVec 32) <<< 18 - 1) <<< (i % 32) :=
      fun hle => h (BitVec.le_trans hle (mantissaMax_le i hi))
    rw [decide_eq_false hgreat]
    rfl
  obtain ⟨hpair, hexp⟩ := compute_eq (by decide) (congrArg (Option.getD · 0) hnone)
  exact ⟨hexp, hpair⟩

theorem toNat_mask18 (x : BitVec 32) : (x &&& 0x3ffff).toNat = x.toNat % 2 ^ 18 :=
  Nat.and_two_pow_sub_one_eq_mod x.toNat 18

/-- The value is the bitrate rounded down if the bitrate has an exponent. -/
theorem roundedDown_iff (bitRate : BitVec 32) :
    RoundedDown bitRate (rembValue bitRate) ↔ bitRate ≤ 0xffffc000#32 := by
  constructor
  · intro hround
    by_contra hgreat
    obtain ⟨hexp, -⟩ := exponent_missing hgreat
    have hnear := hround.near
    have hvalue : (rembValue bitRate).toNat = bitRate.toNat % 2 ^ 18 := by
      rw [rembValue, hexp, BitVec.shiftLeft_zero, toNat_mask18]
      rfl
    rw [hvalue, hexp] at hnear
    have hlow : ¬ bitRate.toNat ≤ 0xffffc000 := hgreat
    omega
  · intro h
    obtain ⟨e, he, hexp, -, hbound, hzero⟩ := exponent_fits h
    have hmantissa : bitRate.toNat / 2 ^ e < 2 ^ 18 := by
      have hdiv := Nat.div_le_div_right (c := 2 ^ e) hbound
      rw [Nat.mul_div_cancel _ (Nat.two_pow_pos e)] at hdiv
      omega
    have hvalue : (rembValue bitRate).toNat = bitRate.toNat / 2 ^ e * 2 ^ e := by
      have hback : bitRate.toNat / 2 ^ e * 2 ^ e < 2 ^ 32 :=
        Nat.lt_of_le_of_lt (Nat.div_mul_le_self _ _) bitRate.isLt
      rw [rembValue, hexp, BitVec.toNat_shiftLeft, toNat_mask18, BitVec.toNat_ushiftRight,
        Nat.shiftRight_eq_div_pow, Nat.mod_eq_of_lt hmantissa, Nat.shiftLeft_eq,
        Nat.mod_eq_of_lt hback]
    refine ⟨?_, ?_, fun hsmall => ?_⟩
    · rw [hvalue]
      exact Nat.div_mul_le_self _ _
    · rw [hvalue, hexp]
      have hsplit := Nat.div_add_mod bitRate.toNat (2 ^ e)
      have hrest := Nat.mod_lt bitRate.toNat (Nat.two_pow_pos e)
      rw [Nat.mul_comm] at hsplit
      omega
    · apply BitVec.eq_of_toNat_eq
      rw [hvalue, hzero hsmall, Nat.pow_zero, Nat.div_one, Nat.mul_one]

/-! ## The wire -/

/-- The byte that holds the exponent and the top of the mantissa. -/
theorem exponentByte : ∀ (e : Fin 64) (t : Fin 4),
    ((BitVec.ofNat 8 e.val <<< 2) + BitVec.ofNat 8 t.val) >>> 2 &&& 0x3f = BitVec.ofNat 8 e.val ∧
      ((BitVec.ofNat 8 e.val <<< 2) + BitVec.ofNat 8 t.val) &&& 0x03 = BitVec.ofNat 8 t.val := by
  decide +kernel

/-- The three pieces of the mantissa. -/
theorem join18 (m : BitVec 32) :
    ((((m >>> 16) &&& 3).setWidth 8 : BitVec 8) ++ ((m >>> 8).setWidth 8 : BitVec 8) ++
      (m.setWidth 8 : BitVec 8)).setWidth 32 = m &&& 0x3ffff := by
  have htop : m.toNat >>> 16 &&& 3 = m.toNat / 2 ^ 16 % 2 ^ 2 := by
    rw [Nat.shiftRight_eq_div_pow]
    exact Nat.and_two_pow_sub_one_eq_mod _ 2
  have hthree : BitVec.toNat (3 : BitVec 32) = 3 := rfl
  apply BitVec.eq_of_toNat_eq
  rw [toNat_mask18, BitVec.toNat_setWidth, BitVec.toNat_append, BitVec.toNat_append,
    ← Nat.shiftLeft_add_eq_or_of_lt (BitVec.isLt _),
    ← Nat.shiftLeft_add_eq_or_of_lt (BitVec.isLt _)]
  simp only [BitVec.toNat_setWidth, BitVec.toNat_and, BitVec.toNat_ushiftRight, Nat.shiftLeft_eq]
  rw [hthree, htop, Nat.shiftRight_eq_div_pow]
  omega

/-- What `ParsePsfbREMBItem` makes of the three bytes is the value. -/
theorem rembValue_read (bitRate : BitVec 32) :
    ∃ a b c : Byte, (∀ remb ssrcs, rembBytes remb { bitRate := bitRate, ssrcs := ssrcs } =
        be32 remb.senderSSRC ++ (be32 0 ++ (ascii "REMB" ++ (BitVec.ofNat 8 ssrcs.length ::
          a :: b :: c :: ssrcs.flatMap be32)))) ∧
      ((a &&& 0x03) ++ b ++ c).setWidth 32 <<< (((a >>> 2) &&& 0x3f).toNat % 32) =
        rembValue bitRate := by
  obtain ⟨e, he, hexp, hpair⟩ : ∃ e, e < 15 ∧ rembExponent bitRate = e ∧
      computeMantissaAnd6bitBase2Exponent bitRate 18 = (bitRate >>> e, BitVec.ofNat 8 e) := by
    by_cases h : bitRate ≤ 0xffffc000#32
    · obtain ⟨e, he, hexp, hpair, -⟩ := exponent_fits h
      exact ⟨e, he, hexp, hpair⟩
    · obtain ⟨hexp, hpair⟩ := exponent_missing h
      exact ⟨0, by decide, hexp, hpair⟩
  refine ⟨(BitVec.ofNat 8 e <<< 2) + ((bitRate >>> e >>> 16) &&& 0x03).setWidth 8,
    (bitRate >>> e >>> 8).setWidth 8, (bitRate >>> e).setWidth 8, fun remb ssrcs => ?_, ?_⟩
  · rw [rembBytes, hpair]
  · have htop : ((bitRate >>> e >>> 16) &&& 0x03).toNat < 4 := by
      refine Nat.lt_of_le_of_lt (Nat.and_le_right) ?_
      decide
    have hbyte := exponentByte ⟨e, by omega⟩ ⟨_, htop⟩
    have hset : BitVec.ofNat 8 ((bitRate >>> e >>> 16) &&& 0x03).toNat =
        ((bitRate >>> e >>> 16) &&& 0x03).setWidth 8 := BitVec.ofNat_toNat _ _
    dsimp only at hbyte
    rw [hset] at hbyte
    have hlow : (BitVec.ofNat 8 e).toNat % 32 = e := by
      rw [BitVec.toNat_ofNat]
      omega
    rw [hbyte.1, hbyte.2, hlow, join18, rembValue, hexp]

/-! ## Parsing -/

namespace RTCPParserV2

variable {p : RTCPParserV2} {t : List Byte}

/-- The head of an application's feedback. -/
theorem parseFBCommon_app {header : RTCPCommonHeader} {bytes : List Byte}
    {senderSSRC mediaSSRC : BitVec 32} (hbytes : bytes.length = 4)
    (h : p.rest = bytes ++ (be32 senderSSRC ++ (be32 mediaSSRC ++ t))) (hleft : 12 ≤ p.left)
    (htype : header.pt = PT_PSFB) (hformat : header.ic = 15) :
    parseFBCommon p header = .ok ({ p.skip 12 with
      packetType := .kPsfbApp
      packet := { p.packet with psfbApp := { senderSSRC := senderSSRC, mediaSSRC := mediaSSRC } }
      state := .psfbAppItem }, true) := by
  have hsender := rest_skip _ h hbytes
  have hmedia : ((p.skip 4).skip 4).rest = be32 mediaSSRC ++ t := rest_skip _ hsender rfl
  have htypes : ¬ (header.pt ≠ PT_RTPFB ∧ header.pt ≠ PT_PSFB) := fun hne => hne.2 htype
  have hother : ¬ header.pt = PT_RTPFB := by
    rw [htype]
    decide
  rw [parseFBCommon, if_neg htypes, if_neg (Nat.not_lt.mpr hleft), nextUWord32_be32 hsender,
    ok_bind]
  dsimp only
  rw [nextUWord32_be32 hmedia, ok_bind]
  dsimp only
  rw [if_neg hother, if_pos hformat, skip_skip, skip_skip]
  rfl

/-- The name is there. -/
theorem parseName_append {name : List Byte} (h : p.rest = name ++ t) :
    parseName name p = .ok ({ p.skip name.length with
      packetType := .kPsfbRemb, state := .psfbRembItem }, true) := by
  induction name generalizing p with
  | nil => rfl
  | cons c name ih =>
    have hrest : (p.skip 1).rest = name ++ t := rest_skip_cons h
    rw [parseName, nextByte_cons h, ok_bind]
    dsimp only
    rw [if_neg (not_not_intro rfl), ih hrest, skip_skip, List.length_cons, Nat.add_comm]

/-- The sources are read. -/
theorem nextSSRCs_flatMap {ssrcs : List (BitVec 32)} (h : p.rest = ssrcs.flatMap be32 ++ t) :
    nextSSRCs ssrcs.length p = .ok (ssrcs, p.skip (4 * ssrcs.length)) := by
  induction ssrcs generalizing p with
  | nil => rfl
  | cons ssrc ssrcs ih =>
    rw [List.flatMap_cons, List.append_assoc] at h
    have hrest : (p.skip 4).rest = ssrcs.flatMap be32 ++ t := rest_skip_be32 h
    rw [List.length_cons, nextSSRCs, nextUWord32_be32 h, ok_bind]
    dsimp only
    rw [ih hrest, ok_bind, skip_skip, Nat.mul_succ, Nat.add_comm]

theorem length_flatMap_be32 (ssrcs : List (BitVec 32)) :
    (ssrcs.flatMap be32).length = 4 * ssrcs.length := by
  induction ssrcs with
  | nil => rfl
  | cons ssrc ssrcs ih =>
    rw [List.flatMap_cons, List.length_append, ih, List.length_cons, Nat.mul_succ, Nat.add_comm]
    rfl

/-- The item of a REMB. -/
theorem parsePsfbREMBItem_item {a b c : Byte} {ssrcs : List (BitVec 32)}
    (hcount : ssrcs.length ≤ 255)
    (h : p.rest = BitVec.ofNat 8 ssrcs.length :: a :: b :: c :: (ssrcs.flatMap be32 ++ t))
    (hleft : 4 + 4 * ssrcs.length ≤ p.left) :
    parsePsfbREMBItem p = .ok ({ p.skip (4 + 4 * ssrcs.length) with
      packetType := .kPsfbRembItem
      packet := { p.packet with rembItem :=
        { bitRate := ((a &&& 0x03) ++ b ++ c).setWidth 32 <<<
            (((a >>> 2) &&& 0x3f).toNat % 32)
          ssrcs := ssrcs } } }, true) := by
  have hnumber : (BitVec.ofNat 8 ssrcs.length).toNat = ssrcs.length :=
    Nat.mod_eq_of_lt (Nat.lt_succ_of_le hcount)
  have h₁ : (p.skip 1).rest = a :: b :: c :: (ssrcs.flatMap be32 ++ t) := rest_skip_cons h
  have h₂ : ((p.skip 1).skip 1).rest = b :: c :: (ssrcs.flatMap be32 ++ t) := rest_skip_cons h₁
  have h₃ : (((p.skip 1).skip 1).skip 1).rest = c :: (ssrcs.flatMap be32 ++ t) :=
    rest_skip_cons h₂
  have h₄ : ((((p.skip 1).skip 1).skip 1).skip 1).rest = ssrcs.flatMap be32 ++ t :=
    rest_skip_cons h₃
  have hend : ¬ ((((p.skip 1).skip 1).skip 1).skip 1).left < 4 * ssrcs.length := by
    show ¬ p.blockEnd - (p.ptr + 1 + 1 + 1 + 1) < 4 * ssrcs.length
    have hleft' : 4 + 4 * ssrcs.length ≤ p.blockEnd - p.ptr := hleft
    omega
  rw [parsePsfbREMBItem, if_neg (by omega), nextByte_cons h, ok_bind]
  dsimp only
  rw [nextByte_cons h₁, ok_bind]
  dsimp only
  rw [nextByte_cons h₂, ok_bind]
  dsimp only
  rw [nextByte_cons h₃, ok_bind]
  dsimp only
  have hsum : 1 + (1 + (1 + (1 + 4 * ssrcs.length))) = 4 + 4 * ssrcs.length := by omega
  rw [hnumber, if_neg hend, nextSSRCs_flatMap h₄, ok_bind, skip_skip, skip_skip, skip_skip,
    skip_skip, hsum]
  rfl

end RTCPParserV2

open RTCPParserV2

/-- The packet of a REMB with these sources. -/
def rembPacket (remb : RTCPPacketPSFBAPP) (item : RTCPPacketPSFBREMBItem) : List Byte :=
  headerBytes 15 PT_PSFB (BitVec.ofNat 16 (item.ssrcs.length + 4)) ++ rembBytes remb item

theorem length_rembPacket (remb : RTCPPacketPSFBAPP) (item : RTCPPacketPSFBREMBItem) :
    (rembPacket remb item).length = 4 * (item.ssrcs.length + 4 + 1) := by
  obtain ⟨a, b, c, hbytes, -⟩ := rembValue_read item.bitRate
  rw [rembPacket, hbytes]
  simp only [List.length_append, List.length_cons, length_flatMap_be32]
  show 4 + (4 + (4 + (4 + _))) = _
  omega

/-- The packet a REMB is built as. -/
theorem build_remb {remb : Remb} (hcount : remb.rembItem.ssrcs.length ≤ 255) :
    (RtcpPacket.mk (.remb remb) []).build = .ok (rembPacket remb.remb remb.rembItem) := by
  have hlength := length_rembPacket remb.remb remb.rembItem
  have hblock : remb.blockLength = 4 * (remb.rembItem.ssrcs.length + 4 + 1) := by
    rw [Remb.blockLength]
    omega
  have hsize : ipPacketSize = 1500 := rfl
  have hcreate : Body.create [] ipPacketSize (.remb remb) =
      .ok (rembPacket remb.remb remb.rembItem) := by
    rw [Body.create, hblock]
    exact appendBlock_ok (by rw [List.length_nil]; omega) (by omega)
  rw [RtcpPacket.build, RtcpPacket.createAndAddAppended, hcreate]
  exact if_pos (by omega)

/-- The parser stands in the last block of a packet, before these bytes. -/
structure Stands (data : List Byte) (state : ParseState) (bytes : List Byte) (p : RTCPParserV2) :
    Prop where
  data_eq : p.data = data
  valid : p.validPacket = true
  state : p.state = state
  blockEnd : p.blockEnd = data.length
  rest : p.rest = bytes

section Stands

variable {data t : List Byte} {p : RTCPParserV2}

theorem Stands.left {state : ParseState} {bytes : List Byte} (h : Stands data state bytes p) :
    p.left = bytes.length := by
  rw [← h.rest, length_rest, h.data_eq, ← h.blockEnd]
  rfl

/-- `Iterate` finds the name. -/
theorem iterate_rembName (h : Stands data .psfbAppItem (ascii "REMB" ++ t) p) :
    ∃ q, p.iterate = .ok q ∧ q.packetType = .kPsfbRemb ∧ q.packet = p.packet ∧
      Stands data .psfbRembItem t q := by
  have hleft : ¬ left { p with packetType := .kInvalid } < 4 := by
    show ¬ p.left < 4
    rw [h.left, List.length_append]
    exact Nat.not_lt.mpr (Nat.le_add_right 4 _)
  have hname := parseName_append (p := { p with packetType := .kInvalid }) h.rest
  have hitem : parseItem { p with packetType := .kInvalid } .psfbAppItem = _ :=
    (if_neg hleft).trans hname
  have hrest : (p.skip 4).rest = t := rest_skip _ h.rest rfl
  exact ⟨_, iterate_item h.valid h.state (by decide) hitem, rfl, rfl, h.data_eq, h.valid, rfl,
    h.blockEnd, hrest⟩

/-- `Iterate` finds the item. -/
theorem iterate_rembItem {a b c : Byte} {ssrcs : List (BitVec 32)} (hcount : ssrcs.length ≤ 255)
    (h : Stands data .psfbRembItem
      (BitVec.ofNat 8 ssrcs.length :: a :: b :: c :: ssrcs.flatMap be32) p) :
    ∃ q, p.iterate = .ok q ∧ q.packetType = .kPsfbRembItem ∧
      q.packet.rembItem.bitRate =
        ((a &&& 0x03) ++ b ++ c).setWidth 32 <<< (((a >>> 2) &&& 0x3f).toNat % 32) ∧
      Stands data .psfbRembItem [] q := by
  have hlength : p.left = 4 + 4 * ssrcs.length := by
    rw [h.left]
    simp only [List.length_cons, length_flatMap_be32]
    omega
  have hrest : rest { p with packetType := .kInvalid } =
      BitVec.ofNat 8 ssrcs.length :: a :: b :: c :: (ssrcs.flatMap be32 ++ []) := by
    rw [List.append_nil]
    exact h.rest
  have hitem : parseItem { p with packetType := .kInvalid } .psfbRembItem = _ :=
    parsePsfbREMBItem_item hcount hrest (Nat.le_of_eq hlength.symm)
  refine ⟨_, iterate_item h.valid h.state (by decide) hitem, rfl, rfl, h.data_eq, h.valid, h.state,
    h.blockEnd, ?_⟩
  refine List.drop_eq_nil_of_le ?_
  show p.data.length ≤ p.ptr + (4 + 4 * ssrcs.length)
  have hblock := h.blockEnd
  rw [← h.data_eq] at hblock
  have hleft : p.blockEnd - p.ptr = 4 + 4 * ssrcs.length := hlength
  omega

/-- `Iterate` finds the end of the packet. -/
theorem iterate_rembEnd (h : Stands data .psfbRembItem [] p) :
    ∃ q, p.iterate = .ok q ∧ q.packetType = .kInvalid := by
  have hleave : parseItem { p with packetType := .kInvalid } .psfbRembItem =
      leave { p with packetType := .kInvalid } := by
    apply if_pos
    show p.left < 4
    rw [h.left]
    decide
  have hend : p.blockEnd = p.data.length := h.blockEnd.trans (congrArg List.length h.data_eq.symm)
  exact ⟨_, iterate_leave_end h.valid h.state (by decide) hend hleave, rfl⟩

end Stands

/-- The parser begins with the REMB and stands before its name. -/
theorem begin_remb {data bytes : List Byte} {senderSSRC : BitVec 32} {words : Nat}
    (hpacket : data = headerBytes 15 PT_PSFB (BitVec.ofNat 16 words) ++
      (be32 senderSSRC ++ (be32 0 ++ bytes)))
    (hlength : data.length = 4 * (words + 1)) (hwords : 2 ≤ words) (hshort : words < 16383) :
    ∃ p, (RTCPParserV2.new data true).begin = .ok p ∧ p.packetType = .kPsfbApp ∧
      Stands data .psfbAppItem bytes p := by
  have hrest : rest { new data true with
      validPacket := true, blockEnd := 0 + 4 * (words + 1) } = _ := hpacket
  have hleft : 12 ≤ 0 + 4 * (words + 1) - 0 := by omega
  have hpsfb : (blockHeader 15 PT_PSFB words).pt = PT_PSFB := rfl
  have hparse := parseFBCommon_app rfl hrest hleft hpsfb rfl
  refine ⟨_, begin_block hpacket (by decide) (by omega) (Nat.le_of_eq hlength.symm) hparse, rfl,
    rfl, rfl, rfl, ?_, ?_⟩
  · show 0 + 4 * (words + 1) = data.length
    omega
  · have hskip := rest_skip _ (rest_skip _ (rest_skip _ hrest rfl) rfl) rfl
    rw [skip_skip, skip_skip] at hskip
    exact hskip

/-- A REMB is parsed to the value of its bitrate. -/
theorem parseRtcpPacket_remb (remb : RTCPPacketPSFBAPP) {item : RTCPPacketPSFBREMBItem}
    (hcount : item.ssrcs.length ≤ 255) (info : RTCPPacketInformation) :
    ∃ q info', parseRtcpPacket (rembPacket remb item) info = .ok (q, info') ∧
      info'.receiverEstimatedMaxBitrate = rembValue item.bitRate := by
  have hlength := length_rembPacket remb item
  obtain ⟨a, b, c, hbytes, hvalue⟩ := rembValue_read item.bitRate
  have hpacket : rembPacket remb item =
      headerBytes 15 PT_PSFB (BitVec.ofNat 16 (item.ssrcs.length + 4)) ++
        (be32 remb.senderSSRC ++ (be32 0 ++ (ascii "REMB" ++
          (BitVec.ofNat 8 item.ssrcs.length :: a :: b :: c :: item.ssrcs.flatMap be32)))) :=
    congrArg _ (hbytes remb item.ssrcs)
  obtain ⟨p, hbegin, htype, hstands⟩ := begin_remb hpacket hlength (by omega) (by omega)
  obtain ⟨p₁, hname, htype₁, -, hstands₁⟩ := iterate_rembName hstands
  obtain ⟨p₂, hitem, htype₂, hrate, hstands₂⟩ := iterate_rembItem hcount hstands₁
  obtain ⟨q, hend, hinvalid⟩ := iterate_rembEnd hstands₂
  have hhandle : handle p info = .ok (q, { RTCPPacketInformation.flag
      { info with remoteSSRC := p₁.packet.psfbApp.senderSSRC } kRtcpRemb with
        receiverEstimatedMaxBitrate := p₂.packet.rembItem.bitRate }) := by
    rw [handle, htype]
    dsimp only
    rw [handlePsfbApp, hname, ok_bind, if_pos htype₁]
    dsimp only
    rw [hitem, ok_bind, if_pos htype₂]
    rw [hend, ok_bind]
  obtain ⟨n, hn⟩ := Nat.exists_eq_add_one.mpr (show 0 < (rembPacket remb item).length by omega)
  refine ⟨q, { RTCPPacketInformation.flag
    { info with remoteSSRC := p₁.packet.psfbApp.senderSSRC } kRtcpRemb with
      receiverEstimatedMaxBitrate := p₂.packet.rembItem.bitRate }, ?_, hrate.trans hvalue⟩
  rw [parseRtcpPacket, hbegin, ok_bind, handleAll, if_neg (by rw [htype]; decide), hhandle, ok_bind]
  dsimp only
  rw [hn]
  exact handleAll_end hinvalid

/-! ## The round trip -/

/-- `AppliesTo` keeps the rest, and there are at most 255 sources. -/
theorem appliesTo_foldl (ssrcs : List (BitVec 32)) (remb : Remb)
    (h : remb.rembItem.ssrcs.length ≤ 255) :
    (ssrcs.foldl Remb.appliesTo remb).rembItem.bitRate = remb.rembItem.bitRate ∧
      (ssrcs.foldl Remb.appliesTo remb).rembItem.ssrcs.length ≤ 255 := by
  induction ssrcs generalizing remb with
  | nil => exact ⟨rfl, h⟩
  | cons ssrc ssrcs ih =>
    have hstep : (remb.appliesTo ssrc).rembItem.bitRate = remb.rembItem.bitRate ∧
        (remb.appliesTo ssrc).rembItem.ssrcs.length ≤ 255 := by
      rw [Remb.appliesTo]
      by_cases hfull : kMaxNumberOfSsrcs ≤ remb.rembItem.ssrcs.length
      · rw [if_pos hfull]
        exact ⟨rfl, h⟩
      · rw [if_neg hfull]
        refine ⟨rfl, ?_⟩
        have hmax : kMaxNumberOfSsrcs = 255 := rfl
        show (remb.rembItem.ssrcs ++ [ssrc]).length ≤ 255
        rw [List.length_append, List.length_singleton]
        omega
    obtain ⟨hrate, hcount⟩ := ih (remb.appliesTo ssrc) hstep.2
    exact ⟨hrate.trans hstep.1, hcount⟩

/-- A REMB of any sender and sources is built and parsed, and the bitrate that is reported is the
true one rounded down, if that is at most `0xffffc000`, and in no other case. -/
theorem remb_bitrate_iff (senderSSRC mediaSSRC bitRate : BitVec 32) (ssrcs : List (BitVec 32))
    (info : RTCPPacketInformation) :
    ∃ packet p info',
      (RtcpPacket.mk (.remb (ssrcs.foldl Remb.appliesTo
        ⟨⟨senderSSRC, mediaSSRC⟩, ⟨bitRate, []⟩⟩)) []).build = .ok packet ∧
      parseRtcpPacket packet info = .ok (p, info') ∧
      (RoundedDown bitRate info'.receiverEstimatedMaxBitrate ↔ bitRate ≤ 0xffffc000#32) := by
  obtain ⟨hrate, hcount⟩ := appliesTo_foldl ssrcs ⟨⟨senderSSRC, mediaSSRC⟩, ⟨bitRate, []⟩⟩
    (Nat.zero_le 255)
  obtain ⟨p, info', hparse, hvalue⟩ := parseRtcpPacket_remb
    (ssrcs.foldl Remb.appliesTo ⟨⟨senderSSRC, mediaSSRC⟩, ⟨bitRate, []⟩⟩).remb hcount info
  rw [hrate] at hvalue
  refine ⟨_, p, info', build_remb hcount, hparse, ?_⟩
  rw [hvalue]
  exact roundedDown_iff bitRate

/-- The greatest bitrate comes back as its low 18 bits. -/
theorem remb_bitrate_lost :
    ∃ packet p info', (RtcpPacket.mk (.remb ⟨⟨1, 0⟩, ⟨0xffffffff, [7]⟩⟩) []).build = .ok packet ∧
      parseRtcpPacket packet ⟨0, 0, [], 0, 0, [], [], 0, 0, 0, 0, 0, 0, 0, []⟩ = .ok (p, info') ∧
      info'.receiverEstimatedMaxBitrate = 0x3ffff ∧
      ¬ RoundedDown 0xffffffff info'.receiverEstimatedMaxBitrate := by
  have hcount : (RTCPPacketPSFBREMBItem.mk 0xffffffff [7]).ssrcs.length ≤ 255 := by decide
  obtain ⟨p, info', hparse, hvalue⟩ := parseRtcpPacket_remb ⟨1, 0⟩ hcount
    ⟨0, 0, [], 0, 0, [], [], 0, 0, 0, 0, 0, 0, 0, []⟩
  have hlow : rembValue 0xffffffff = 0x3ffff := by
    rw [rembValue, (exponent_missing (by decide)).1]
    rfl
  have hreported : info'.receiverEstimatedMaxBitrate = 0x3ffff := hvalue.trans hlow
  refine ⟨_, p, info', build_remb hcount, hparse, hreported, fun hround => ?_⟩
  have hexp : rembExponent 0xffffffff = 0 := (exponent_missing (by decide)).1
  have hnear := hround.near
  rw [hreported, hexp] at hnear
  exact absurd hnear (by decide)

end RtcMcu.Avformat.Rtcp
