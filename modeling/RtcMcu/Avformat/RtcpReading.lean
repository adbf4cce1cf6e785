import RtcMcu.Avformat.RtcpHelper

/-!
# Reading what was built

How the parser reads the pieces that the builders write: integers, headers, and blocks of items. The
position of the parser is what is left to read (`RTCPParserV2.rest`), so that a lemma about a piece
says what is found when that piece comes next.
-/

namespace RtcMcu.Avformat.Rtcp

/-- A block that fits is written behind the packet. -/
theorem appendBlock_ok {words : Nat} {count : Byte} {type : RTCPPT} {bytes packet : List Byte}
    {maxLength : Nat} (hfit : packet.length + 4 * (words + 1) ≤ maxLength)
    (hwords : words ≤ 0xffff) :
    appendBlock (4 * (words + 1)) count type bytes packet maxLength =
      .ok (packet ++ (headerBytes count type (BitVec.ofNat 16 words) ++ bytes)) := by
  have hlength : blockToHeaderLength (4 * (words + 1)) = .ok words := by
    rw [blockToHeaderLength, if_pos (by omega)]
    congr 1
    omega
  rw [appendBlock, if_neg (Nat.not_lt.mpr hfit), hlength, ok_bind, createHeader, if_pos hwords,
    ok_bind]

namespace RTCPParserV2

variable {p p' : RTCPParserV2} {t : List Byte}

/-- What is left to read. -/
def rest (p : RTCPParserV2) : List Byte := p.data.drop p.ptr

theorem length_rest (p : RTCPParserV2) : p.rest.length = p.data.length - p.ptr := List.length_drop

theorem rest_skip (bytes : List Byte) {n : Nat} (h : p.rest = bytes ++ t) (hn : bytes.length = n) :
    (p.skip n).rest = t := by
  have hdrop : (p.skip n).rest = p.rest.drop n := by
    rw [rest, rest, List.drop_drop]
    rfl
  rw [hdrop, h, ← hn, List.drop_left]

theorem rest_skip_cons {b : Byte} (h : p.rest = b :: t) : (p.skip 1).rest = t :=
  rest_skip [b] h rfl

theorem rest_skip_be24 {x : BitVec 32} (h : p.rest = be24 x ++ t) : (p.skip 3).rest = t :=
  rest_skip _ h rfl

theorem rest_skip_be32 {x : BitVec 32} (h : p.rest = be32 x ++ t) : (p.skip 4).rest = t :=
  rest_skip _ h rfl

theorem byteAt_of_drop {data : List Byte} {i : Nat} {b : Byte} (h : data.drop i = b :: t) :
    i < data.length ∧ byteAt data i = b := by
  have hlt : i < data.length := by
    by_contra hge
    rw [List.drop_eq_nil_of_le (Nat.le_of_not_lt hge)] at h
    cases h
  refine ⟨hlt, ?_⟩
  rw [List.drop_eq_getElem_cons hlt] at h
  rw [byteAt, List.getD_eq_getElem?_getD, List.getElem?_eq_getElem hlt, Option.getD_some]
  exact (List.cons.inj h).1

/-! ## Integers -/

theorem nextByte_cons {b : Byte} (h : p.rest = b :: t) : p.nextByte = .ok (b, p.skip 1) := by
  obtain ⟨hlt, hbyte⟩ := byteAt_of_drop h
  rw [nextByte, if_pos hlt, hbyte]

theorem nextUWord16_be16 {x : BitVec 16} (h : p.rest = be16 x ++ t) :
    p.nextUWord16 = .ok (x, p.skip 2) := by
  have h₁ : (p.skip 1).rest = x.extractLsb' 0 8 :: t := rest_skip_cons h
  rw [nextUWord16, nextByte_cons h, ok_bind]
  dsimp only
  rw [nextByte_cons h₁, ok_bind, join16, skip_skip]

theorem nextUWord24_be24 {x : BitVec 32} (hx : x.toNat < 2 ^ 24) (h : p.rest = be24 x ++ t) :
    p.nextUWord24 = .ok (x, p.skip 3) := by
  have h₁ : (p.skip 1).rest = x.extractLsb' 8 8 :: x.extractLsb' 0 8 :: t :=
    rest_skip_cons h
  have h₂ : ((p.skip 1).skip 1).rest = x.extractLsb' 0 8 :: t := rest_skip_cons h₁
  have hjoin : (x.extractLsb' 16 8 ++ x.extractLsb' 8 8 ++ x.extractLsb' 0 8).setWidth 32 = x := by
    rw [BitVec.extractLsb'_append_extractLsb'_eq_extractLsb' (by decide),
      BitVec.extractLsb'_append_extractLsb'_eq_extractLsb' (by decide)]
    apply BitVec.eq_of_toNat_eq
    simp only [BitVec.toNat_setWidth, BitVec.extractLsb'_toNat, Nat.shiftRight_zero]
    omega
  rw [nextUWord24, nextByte_cons h, ok_bind]
  dsimp only
  rw [nextByte_cons h₁, ok_bind]
  dsimp only
  rw [nextByte_cons h₂, ok_bind, hjoin, skip_skip, skip_skip]

theorem nextUWord32_be32 {x : BitVec 32} (h : p.rest = be32 x ++ t) :
    p.nextUWord32 = .ok (x, p.skip 4) := by
  have h₁ : (p.skip 1).rest =
      x.extractLsb' 16 8 :: x.extractLsb' 8 8 :: x.extractLsb' 0 8 :: t :=
    rest_skip_cons h
  have h₂ : ((p.skip 1).skip 1).rest = x.extractLsb' 8 8 :: x.extractLsb' 0 8 :: t :=
    rest_skip_cons h₁
  have h₃ : (((p.skip 1).skip 1).skip 1).rest = x.extractLsb' 0 8 :: t :=
    rest_skip_cons h₂
  rw [nextUWord32, nextByte_cons h, ok_bind]
  dsimp only
  rw [nextByte_cons h₁, ok_bind]
  dsimp only
  rw [nextByte_cons h₂, ok_bind]
  dsimp only
  rw [nextByte_cons h₃, ok_bind, join32, skip_skip, skip_skip, skip_skip]

theorem peek_append {bytes : List Byte} {n : Nat} (h : p.rest = bytes ++ t)
    (hn : bytes.length = n) (ht : 0 < t.length) : p.peek n = .ok bytes := by
  have hlength := congrArg List.length h
  rw [length_rest, List.length_append] at hlength
  have hdrop : p.data.drop p.ptr = bytes ++ t := h
  rw [peek, if_pos (by omega), hdrop, ← hn, List.take_left]

/-! ## Headers -/

/-- The header of a block of `words + 1` words. -/
def blockHeader (count : Byte) (type : RTCPPT) (words : Nat) : RTCPCommonHeader where
  v := 2
  p := false
  ic := count
  pt := type
  lengthInOctets := BitVec.ofNat 16 (4 * (words + 1))

/-- The header that was written is the header that is read. -/
theorem parseCommonHeader_headerBytes {data : List Byte} {start words : Nat} {count : Byte}
    {type : RTCPPT} (h : data.drop start = headerBytes count type (BitVec.ofNat 16 words) ++ t)
    (hcount : count.toNat < 32) (hwords : 4 * (words + 1) < 2 ^ 16) :
    parseCommonHeader data start = some (blockHeader count type words) := by
  have hfirst : ∀ c : Byte, c.toNat < 32 →
      (0x80 + c) >>> 6 = 2 ∧ ((0x80 + c) &&& 0x20 != 0) = false ∧ (0x80 + c) &&& 0x1f = c := by
    decide +kernel
  obtain ⟨hv, hp, hic⟩ := hfirst count hcount
  have hlength := congrArg List.length h
  have hfour : (headerBytes count type (BitVec.ofNat 16 words) ++ t).length = 4 + t.length := by
    rw [List.length_append]
    rfl
  rw [List.length_drop, hfour] at hlength
  have hdrop : ∀ (bytes : List Byte) {rest : List Byte} {i : Nat}, data.drop i = bytes ++ rest →
      data.drop (i + bytes.length) = rest := by
    intro bytes rest i hi
    rw [← List.drop_drop, hi, List.drop_left]
  have h₁ : data.drop (start + 1) = type :: (be16 (BitVec.ofNat 16 words) ++ t) :=
    hdrop [_] h
  have h₂ : data.drop (start + 2) = be16 (BitVec.ofNat 16 words) ++ t := hdrop [_] h₁
  have h₃ : data.drop (start + 3) = (BitVec.ofNat 16 words).extractLsb' 0 8 :: t :=
    hdrop [_] h₂
  have hlen : rdBe16 data (start + 2) = BitVec.ofNat 16 words := by
    rw [rdBe16, (byteAt_of_drop h₂).2, (byteAt_of_drop h₃).2, join16]
  have hoctets : (BitVec.ofNat 16 words + 1) * 4 = BitVec.ofNat 16 (4 * (words + 1)) := by
    apply BitVec.eq_of_toNat_eq
    have hone : (1 : BitVec 16).toNat = 1 := rfl
    have hfour : (4 : BitVec 16).toNat = 4 := rfl
    rw [BitVec.toNat_mul, BitVec.toNat_add, BitVec.toNat_ofNat, BitVec.toNat_ofNat, hone, hfour]
    omega
  have hpos : ¬ BitVec.ofNat 16 (4 * (words + 1)) = 0 := by
    intro hzero
    have hnat : 4 * (words + 1) % 2 ^ 16 = 0 := congrArg BitVec.toNat hzero
    omega
  rw [parseCommonHeader, if_neg (by omega)]
  simp only [(byteAt_of_drop h).2, (byteAt_of_drop h₁).2, hlen, hoctets, hv, hp, hic, if_neg hpos,
    ne_eq, not_true_eq_false, if_false, blockHeader]

/-- Behind the last block there is no header. -/
theorem parseCommonHeader_end {data : List Byte} {start : Nat} (h : data.length ≤ start) :
    parseCommonHeader data start = none :=
  if_pos (by omega)

/-! ## Iterating -/

/-- At the end of the packet nothing is found. -/
theorem iterateTopLevel_end {fuel : Nat} (h : p.data.length ≤ p.ptr) :
    iterateTopLevel (fuel + 1) p = .ok p := by
  rw [iterateTopLevel, parseCommonHeader_end h]

/-- A block in which something is found. -/
theorem iterateTopLevel_block {fuel words : Nat} {count : Byte} {type : RTCPPT}
    (h : p.rest = headerBytes count type (BitVec.ofNat 16 words) ++ t) (hcount : count.toNat < 32)
    (hwords : 4 * (words + 1) < 2 ^ 16) (hfit : 4 * (words + 1) ≤ p.rest.length)
    (hparse : parseBlock { p with blockEnd := p.ptr + 4 * (words + 1) }
      (blockHeader count type words) = .ok (p', true)) :
    iterateTopLevel (fuel + 1) p = .ok p' := by
  rw [length_rest] at hfit
  have hoctets : (BitVec.ofNat 16 (4 * (words + 1))).toNat = 4 * (words + 1) :=
    Nat.mod_eq_of_lt hwords
  rw [iterateTopLevel, parseCommonHeader_headerBytes h hcount hwords]
  dsimp only [blockHeader] at hparse ⊢
  rw [hoctets, if_neg (by omega), hparse]
  rfl

/-- `Iterate` at the top level. -/
theorem iterateFrom_topLevel {fuel : Nat} (hvalid : p.validPacket = true)
    (hstate : p.state = .topLevel) :
    iterateFrom (fuel + 1) p =
      iterateTopLevel (p.data.length + 1) { p with packetType := .kInvalid } := by
  rw [iterateFrom]
  simp only [hvalid, hstate, if_true]

/-- `Begin` when something is found in the first block. -/
theorem begin_block {data : List Byte} {words : Nat} {count : Byte} {type : RTCPPT}
    (h : data = headerBytes count type (BitVec.ofNat 16 words) ++ t) (hcount : count.toNat < 32)
    (hwords : 4 * (words + 1) < 2 ^ 16) (hfit : 4 * (words + 1) ≤ data.length)
    (hparse : parseBlock
        { new data true with validPacket := true, blockEnd := 0 + 4 * (words + 1) }
      (blockHeader count type words) = .ok (p', true)) :
    (new data true).begin = .ok p' := by
  have hvalid : validate data true = true := by
    have hdrop : data.drop 0 = headerBytes count type (BitVec.ofNat 16 words) ++ t := h
    rw [validate, parseCommonHeader_headerBytes hdrop hcount hwords]
    rfl
  rw [begin, iterate, iterateFrom_topLevel hvalid rfl]
  have hrest : (new data true).rest = headerBytes count type (BitVec.ofNat 16 words) ++ t := h
  refine iterateTopLevel_block hrest hcount hwords hfit ?_
  rw [← hparse, new, hvalid]

/-- `Iterate` when an item is found. -/
theorem iterate_item {state : ParseState} (hvalid : p.validPacket = true)
    (hstate : p.state = state) (hitem : state ≠ .topLevel)
    (h : parseItem { p with packetType := .kInvalid } state = .ok (p', true)) :
    p.iterate = .ok p' := by
  subst hstate
  rw [iterate, iterateFrom]
  dsimp only
  rw [if_pos hvalid]
  split
  · next heq => exact absurd heq hitem
  · rw [h]
    rfl

/-- `Iterate` when the items of a block are at an end. -/
theorem iterate_leave {state : ParseState} (hvalid : p.validPacket = true)
    (hstate : p.state = state) (hitem : state ≠ .topLevel)
    (h : parseItem { p with packetType := .kInvalid } state =
      leave { p with packetType := .kInvalid }) :
    p.iterate = iterateTopLevel (p.data.length + 1)
      { p with packetType := .kInvalid, state := .topLevel, ptr := p.blockEnd } := by
  subst hstate
  rw [iterate, iterateFrom]
  dsimp only
  rw [if_pos hvalid]
  split
  · next heq => exact absurd heq hitem
  · rw [h, leave, ok_bind]
    dsimp only
    rw [if_neg Bool.false_ne_true]
    exact iterateFrom_topLevel hvalid rfl

/-- `Iterate` when the items of the last block are at an end. -/
theorem iterate_leave_end {state : ParseState} (hvalid : p.validPacket = true)
    (hstate : p.state = state) (hitem : state ≠ .topLevel) (hend : p.blockEnd = p.data.length)
    (h : parseItem { p with packetType := .kInvalid } state =
      leave { p with packetType := .kInvalid }) :
    p.iterate =
      .ok { p with packetType := .kInvalid, state := .topLevel, ptr := p.blockEnd } := by
  rw [iterate_leave hvalid hstate hitem h]
  exact iterateTopLevel_end (Nat.le_of_eq hend.symm)

end RTCPParserV2

/-! ## Loops over items -/

theorem handleAll_end {fuel : Nat} {p : RTCPParserV2} {info : RTCPPacketInformation}
    (h : p.packetType = .kInvalid) : handleAll (fuel + 1) p info = .ok (p, info) := by
  rw [handleAll, if_pos h]

section Items

variable {α : Type} {type : RTCPPacketTypes}
  {collect : RTCPPacket → RTCPPacketInformation → RTCPPacketInformation}

/-- Where a parser is after a call of `Iterate` with the items still to come: it has found the first
of them, or it is past the last one. -/
def Found (type : RTCPPacketTypes) (holds : α → RTCPPacket → Prop)
    (before : List α → RTCPParserV2 → Prop) (past : RTCPParserV2 → Prop) :
    List α → RTCPParserV2 → Prop
  | [], p => p.packetType ≠ type ∧ past p
  | a :: as, p => p.packetType = type ∧ holds a p.packet ∧ before as p

theorem Found.data_eq {holds : α → RTCPPacket → Prop} {before : List α → RTCPParserV2 → Prop}
    {past : RTCPParserV2 → Prop} {data : List Byte} {as : List α} {p : RTCPParserV2}
    (h : Found type holds before past as p) (hbefore : ∀ as p, before as p → p.data = data)
    (hpast : ∀ p, past p → p.data = data) : p.data = data := by
  cases as with
  | nil => exact hpast p h.2
  | cons a as => exact hbefore as p h.2.2

/-- A loop over the items takes each of them, in order. -/
theorem handleItems_all {holds : α → RTCPPacket → Prop} {before : List α → RTCPParserV2 → Prop}
    {past : RTCPParserV2 → Prop}
    {add : α → RTCPPacketInformation → RTCPPacketInformation}
    (hiterate : ∀ as p, before as p → ∃ p', p.iterate = .ok p' ∧ Found type holds before past as p')
    (hcollect : ∀ a packet info, holds a packet → collect packet info = add a info)
    {fuel : Nat} {as : List α} {p : RTCPParserV2} (hfuel : as.length < fuel)
    (hp : Found type holds before past as p) (info : RTCPPacketInformation) :
    ∃ p', handleItems type collect fuel p info = .ok (p', as.foldl (fun i a => add a i) info) ∧
      past p' := by
  induction as generalizing fuel p info with
  | nil =>
    obtain ⟨fuel, rfl⟩ := Nat.exists_eq_add_one.mpr hfuel
    refine ⟨p, ?_, hp.2⟩
    rw [handleItems, if_neg hp.1]
    rfl
  | cons a as ih =>
    obtain ⟨fuel, rfl⟩ := Nat.exists_eq_add_one.mpr (Nat.zero_lt_of_lt hfuel)
    obtain ⟨htype, hholds, hbefore⟩ := hp
    obtain ⟨q, hq, hfound⟩ := hiterate as p hbefore
    obtain ⟨p', hrun, hpast⟩ := ih (Nat.lt_of_succ_lt_succ hfuel) hfound (add a info)
    refine ⟨p', ?_, hpast⟩
    rw [handleItems, if_pos htype]
    dsimp only
    rw [hcollect a p.packet info hholds, hq, ok_bind, hrun]
    rfl

end Items

end RtcMcu.Avformat.Rtcp
