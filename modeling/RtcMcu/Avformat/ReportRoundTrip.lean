import RtcMcu.Avformat.RtcpReading
import Mathlib.Data.List.TakeWhile
import Mathlib.Tactic.Common

/-!
# A report with a name through RTCP

A sender or receiver report with an `Sdes` behind it: what is built is parsed to the same report,
blocks and name, and the parser ends at the end of the compound packet (`report_round_trip`). The
loops over the report blocks and over the chunks are both instances of `handleItems_all`.
-/

namespace RtcMcu.Avformat.Rtcp

/-! ## What is built -/

/-- A report of either kind. -/
inductive Report
  | sender (report : SenderReport)
  | receiver (report : ReceiverReport)

namespace Report

def body : Report → Body
  | sender r => .senderReport r
  | receiver r => .receiverReport r

def blocks : Report → List RTCPPacketReportBlockItem
  | sender r => r.reportBlocks
  | receiver r => r.reportBlocks

def senderSSRC : Report → BitVec 32
  | sender r => r.sr.senderSSRC
  | receiver r => r.rr.senderSSRC

def type : Report → RTCPPT
  | sender _ => PT_SR
  | receiver _ => PT_RR

/-- What stands between the header and the blocks. -/
def head : Report → List Byte
  | sender r => senderReportBytes r.sr
  | receiver r => be32 r.rr.senderSSRC

/-- The length of `head` in words. -/
def headWords : Report → Nat
  | sender _ => 6
  | receiver _ => 1

/-- The length that is written into the header. -/
def words (r : Report) : Nat := r.headWords + 6 * r.blocks.length

def bytes (r : Report) : List Byte :=
  headerBytes (BitVec.ofNat 8 r.blocks.length) r.type (BitVec.ofNat 16 r.words) ++
    (r.head ++ createReportBlocks r.blocks)

theorem length_blocks (r : Report) : r.blocks.length ≤ 31 := by
  cases r with
  | sender r => exact r.length_le
  | receiver r => exact r.length_le

theorem length_head (r : Report) : r.head.length = 4 * r.headWords := by
  cases r <;> rfl

theorem words_le (r : Report) : r.words ≤ 192 := by
  have hblocks := r.length_blocks
  have hhead : r.headWords ≤ 6 := by
    cases r
    · exact Nat.le_refl 6
    · exact Nat.le_of_ble_eq_true rfl
  rw [words]
  omega

theorem count_lt (r : Report) : (BitVec.ofNat 8 r.blocks.length).toNat < 32 := by
  have hblocks := r.length_blocks
  rw [BitVec.toNat_ofNat]
  omega

end Report

theorem length_createReportBlocks (blocks : List RTCPPacketReportBlockItem) :
    (createReportBlocks blocks).length = 24 * blocks.length := by
  induction blocks with
  | nil => rfl
  | cons block blocks ih =>
    have hcons : createReportBlocks (block :: blocks) =
        reportBlockBytes block ++ createReportBlocks blocks := List.flatMap_cons
    rw [hcons, List.length_append, ih, List.length_cons, Nat.mul_succ, Nat.add_comm]
    rfl

theorem Report.length_bytes (r : Report) : r.bytes.length = 4 * (r.words + 1) := by
  simp only [bytes, List.length_append, length_createReportBlocks, length_head, words]
  show 4 + _ = _
  omega

/-- A report is built as its bytes. -/
theorem create_report (r : Report) : r.body.create [] ipPacketSize = .ok r.bytes := by
  have hfit : ([] : List Byte).length + 4 * (r.words + 1) ≤ ipPacketSize := by
    have hwords := r.words_le
    rw [List.length_nil]
    show _ ≤ 1500
    omega
  have hwords : r.words ≤ 0xffff := by
    have hle := r.words_le
    omega
  cases r with
  | sender r =>
    have hblock : r.blockLength = 4 * ((Report.sender r).words + 1) := by
      show 28 + r.reportBlocks.length * 24 = 4 * (6 + 6 * r.reportBlocks.length + 1)
      omega
    show appendBlock r.blockLength r.sr.numberOfReportBlocks PT_SR _ _ _ = _
    rw [hblock, r.count]
    exact appendBlock_ok hfit hwords
  | receiver r =>
    have hblock : r.blockLength = 4 * ((Report.receiver r).words + 1) := by
      show 8 + r.reportBlocks.length * 24 = 4 * (1 + 6 * r.reportBlocks.length + 1)
      omega
    show appendBlock r.blockLength r.rr.numberOfReportBlocks PT_RR _ _ _ = _
    rw [hblock, r.count]
    exact appendBlock_ok hfit hwords

/-- The chunk of a name. -/
def cnameChunk (ssrc : BitVec 32) (cname : List Byte) : Chunk where
  ssrc := ssrc
  name := cname
  nullOctets := 4 - (2 + cname.length) % 4

/-- A chunk that the parser accepts. -/
structure Chunk.WellFormed (chunk : Chunk) : Prop where
  nullOctets : chunk.nullOctets = 4 - (2 + chunk.name.length) % 4
  length_name : chunk.name.length ≤ 255
  allowed : chunk.name.all RTCPParserV2.allowed = true

/-- The length of a chunk in words. -/
def Chunk.words (chunk : Chunk) : Nat := (6 + chunk.name.length + chunk.nullOctets) / 4

theorem length_chunkBytes (chunk : Chunk) :
    (chunkBytes chunk).length = 6 + chunk.name.length + chunk.nullOctets := by
  simp only [chunkBytes, List.length_append, List.length_cons, List.length_replicate]
  show 4 + _ = _
  omega

theorem Chunk.WellFormed.length_eq {chunk : Chunk} (h : chunk.WellFormed) :
    6 + chunk.name.length + chunk.nullOctets = 4 * chunk.words := by
  rw [Chunk.words, h.nullOctets]
  omega

theorem Chunk.WellFormed.words_le {chunk : Chunk} (h : chunk.WellFormed) : chunk.words ≤ 66 := by
  have hname := h.length_name
  rw [Chunk.words, h.nullOctets]
  omega

def sdesBytes (chunk : Chunk) : List Byte :=
  headerBytes 1 PT_SDES (BitVec.ofNat 16 chunk.words) ++ chunkBytes chunk

theorem length_sdesBytes {chunk : Chunk} (h : chunk.WellFormed) :
    (sdesBytes chunk).length = 4 * (chunk.words + 1) := by
  rw [sdesBytes, List.length_append, length_chunkBytes, h.length_eq]
  show 4 + _ = _
  omega

/-- A chunk is written behind a packet. -/
theorem create_sdes {chunk : Chunk} {packet : List Byte} (h : chunk.WellFormed)
    (hfit : packet.length + 4 * (chunk.words + 1) ≤ ipPacketSize) :
    Body.create packet ipPacketSize (.sdes ⟨[chunk]⟩) = .ok (packet ++ sdesBytes chunk) := by
  have hwords := h.words_le
  have hblock : Sdes.blockLength ⟨[chunk]⟩ = 4 * (chunk.words + 1) := by
    have hlength := h.length_eq
    show 4 + (6 + chunk.name.length + chunk.nullOctets + 0) = _
    omega
  rw [Body.create, if_neg (List.cons_ne_nil _ _), hblock, List.flatMap_singleton]
  exact appendBlock_ok hfit (by omega)

/-- A report with a name behind it is built as the one behind the other. -/
theorem build_report (r : Report) {chunk : Chunk} (h : chunk.WellFormed) :
    ((RtcpPacket.mk r.body []).append (.mk (.sdes ⟨[chunk]⟩) [])).build =
      .ok (r.bytes ++ sdesBytes chunk) := by
  have hreport := r.length_bytes
  have hsdes := length_sdesBytes h
  have hwords := r.words_le
  have hchunk := h.words_le
  have hfit : r.bytes.length + 4 * (chunk.words + 1) ≤ ipPacketSize := by
    show _ ≤ 1500
    omega
  have happended : RtcpPacket.addAppended r.bytes ipPacketSize [.mk (.sdes ⟨[chunk]⟩) []] =
      .ok (r.bytes ++ sdesBytes chunk) := by
    rw [RtcpPacket.addAppended, RtcpPacket.createAndAddAppended, create_sdes h hfit]
    rfl
  rw [RtcpPacket.append, List.nil_append, RtcpPacket.build, RtcpPacket.createAndAddAppended,
    create_report, ok_bind, happended, ok_bind, if_pos]
  rw [List.length_append, hsdes]
  exact hfit

/-! ## The source description is parsed -/

namespace RTCPParserV2

variable {p : RTCPParserV2} {t : List Byte}

/-- What is left of the packet and of the block, when the block ends at or before the packet. -/
theorem lt_blockEnd_of_left (h : 0 < p.left) : p.ptr < p.blockEnd := by
  rw [left] at h
  omega

/-- The end tag, which stands for one to four zeros. -/
theorem parseSDESItem_end {fuel read k : Nat} {found : Bool} (hk : k + 1 = 4 - read % 4)
    (h : p.rest = List.replicate (k + 1) 0 ++ t) (hleft : k + 1 ≤ p.left) :
    parseSDESItem (fuel + 1) p read found = .ok (p.skip (k + 1), found) := by
  have hpad : (4 - (read + 1) % 4) % 4 = k := by omega
  rw [List.replicate_succ, List.cons_append] at h
  rw [parseSDESItem, if_pos (lt_blockEnd_of_left (by omega)), nextByte_cons h, ok_bind]
  dsimp only
  rw [if_pos rfl, hpad, skip_skip, Nat.add_comm 1 k]

/-- A name that is found. -/
def named (p : RTCPParserV2) (name : List Byte) : RTCPParserV2 :=
  { p with
    packet := { p.packet with cName := { p.packet.cName with cName := name } }
    packetType := .kSdesChunk }

/-- The item of a name, with the end tag behind it. -/
theorem parseSDESItem_name {fuel k : Nat} {name : List Byte} (hname : name.all allowed = true)
    (hlength : name.length ≤ 255) (hk : k + 1 = 4 - (2 + name.length) % 4)
    (h : p.rest = kSdesItemType :: BitVec.ofNat 8 name.length ::
      (name ++ (List.replicate (k + 1) 0 ++ t)))
    (hleft : 2 + name.length + (k + 1) ≤ p.left) :
    parseSDESItem (fuel + 2) p 0 false =
      .ok ((p.named name).skip (2 + name.length + (k + 1)), true) := by
  have hlen : (BitVec.ofNat 8 name.length).toNat = name.length := by
    rw [BitVec.toNat_ofNat]
    omega
  have htag : kSdesItemType = 1 := rfl
  have hlen_rest : (p.skip 1).rest = BitVec.ofNat 8 name.length ::
      (name ++ (List.replicate (k + 1) 0 ++ t)) := rest_skip_cons h
  have hname_rest : ((p.skip 1).skip 1).rest = name ++ (List.replicate (k + 1) 0 ++ t) :=
    rest_skip_cons hlen_rest
  have hend_rest : (((p.skip 1).skip 1).skip name.length).rest = List.replicate (k + 1) 0 ++ t :=
    rest_skip _ hname_rest rfl
  have hpeek : ((p.skip 1).skip 1).peek name.length = .ok name := by
    apply peek_append hname_rest rfl
    rw [List.length_append, List.length_replicate]
    omega
  rw [left] at hleft
  have hlt : (p.skip 1).ptr < (p.skip 1).blockEnd := by
    show p.ptr + 1 < p.blockEnd
    omega
  have hfits : ¬ ((p.skip 1).skip 1).blockEnd ≤ ((p.skip 1).skip 1).ptr + name.length := by
    show ¬ p.blockEnd ≤ p.ptr + 1 + 1 + name.length
    omega
  have hend : parseSDESItem (fuel + 1)
      ((((p.skip 1).skip 1).named name).skip name.length) (0 + 1 + 1 + name.length) true =
        .ok (((((p.skip 1).skip 1).named name).skip name.length).skip (k + 1), true) := by
    apply parseSDESItem_end
    · omega
    · exact hend_rest
    · show k + 1 ≤ p.blockEnd - (p.ptr + 1 + 1 + name.length)
      omega
  rw [parseSDESItem, if_pos (by omega), nextByte_cons h, ok_bind]
  dsimp only
  rw [if_neg (by decide), if_pos hlt, nextByte_cons hlen_rest, ok_bind]
  dsimp only
  rw [hlen, if_pos htag, if_neg hfits, hpeek, ok_bind, if_pos hname]
  refine hend.trans ?_
  rw [skip_skip]
  simp only [named, skip]
  congr 3
  omega

/-- A chunk that is found. -/
def chunkFound (p : RTCPParserV2) (chunk : Chunk) : RTCPParserV2 :=
  { p with
    packet := { p.packet with cName := { senderSSRC := chunk.ssrc, cName := chunk.name } }
    packetType := .kSdesChunk }

/-- The next chunk is found. -/
theorem parseSDESChunk_chunk {chunk : Chunk} (hchunk : chunk.WellFormed)
    (h : p.rest = chunkBytes chunk ++ t) (hleft : (chunkBytes chunk).length ≤ p.left)
    (hnumber : p.numberOfBlocks ≠ 0) :
    parseSDESChunk p =
      .ok (({ p with numberOfBlocks := p.numberOfBlocks - 1 } : RTCPParserV2).chunkFound chunk
        |>.skip (chunkBytes chunk).length, true) := by
  have hzeros := hchunk.nullOctets
  obtain ⟨k, hk⟩ : ∃ k, chunk.nullOctets = k + 1 := Nat.exists_eq_add_one.mpr (by omega)
  have hbytes := length_chunkBytes chunk
  rw [hbytes, left] at hleft
  have hassoc : chunkBytes chunk ++ t = be32 chunk.ssrc ++ (kSdesItemType ::
      BitVec.ofNat 8 chunk.name.length :: (chunk.name ++ (List.replicate (k + 1) 0 ++ t))) := by
    rw [chunkBytes, hk]
    simp only [List.append_assoc, List.cons_append]
  let q : RTCPParserV2 := { p with numberOfBlocks := p.numberOfBlocks - 1 }
  have hq : q.rest = be32 chunk.ssrc ++ (kSdesItemType ::
      BitVec.ofNat 8 chunk.name.length :: (chunk.name ++ (List.replicate (k + 1) 0 ++ t))) :=
    h.trans hassoc
  have hname : (q.skip 4).rest = kSdesItemType :: BitVec.ofNat 8 chunk.name.length ::
      (chunk.name ++ (List.replicate (k + 1) 0 ++ t)) := rest_skip_be32 hq
  obtain ⟨n, hn⟩ : ∃ n, (q.skip 4).left + 1 = n + 2 := by
    refine ⟨(q.skip 4).left - 1, ?_⟩
    show p.blockEnd - (p.ptr + 4) + 1 = p.blockEnd - (p.ptr + 4) - 1 + 2
    omega
  have hroom : 2 + chunk.name.length + (k + 1) ≤ (q.skip 4).left := by
    show _ ≤ p.blockEnd - (p.ptr + 4)
    omega
  have hitem : parseSDESItem (n + 2) (q.skip 4) 0 false =
      .ok (((q.skip 4).named chunk.name).skip (2 + chunk.name.length + (k + 1)), true) :=
    parseSDESItem_name hchunk.allowed hchunk.length_name (hk.symm.trans hzeros) hname hroom
  have hstart : q.ptr < q.blockEnd := by
    show p.ptr < p.blockEnd
    omega
  have hfour : ¬ q.left < 4 := by
    show ¬ p.blockEnd - p.ptr < 4
    omega
  rw [parseSDESChunk, if_neg hnumber]
  show parseSDESChunks (q.left + 1) q = _
  rw [parseSDESChunks, if_pos hstart, if_neg hfour, nextUWord32_be32 hq, ok_bind]
  dsimp only
  rw [hn, hitem, ok_bind]
  dsimp only
  rw [if_pos rfl, hbytes, hk]
  simp only [named, chunkFound, skip, q]
  congr 3
  omega

/-- The count of the items to come, when one of them is taken. -/
theorem ofNat_succ_sub_one (n : Nat) : BitVec.ofNat 8 (n + 1) - 1 = BitVec.ofNat 8 n := by
  rw [← BitVec.ofNat_add_ofNat]
  exact BitVec.add_sub_cancel _ _

theorem ofNat_succ_ne_zero {n : Nat} (h : n + 1 ≤ 31) : BitVec.ofNat 8 (n + 1) ≠ 0 := by
  intro hzero
  have hnat : (n + 1) % 2 ^ 8 = 0 := congrArg BitVec.toNat hzero
  omega

/-- The parser stands before the chunks of a source description, which are the end of the packet. -/
structure BeforeChunks (data : List Byte) (chunks : List Chunk) (p : RTCPParserV2) : Prop where
  data_eq : p.data = data
  valid : p.validPacket = true
  state : p.state = .sdesChunk
  blockEnd : p.blockEnd = data.length
  numberOfBlocks : p.numberOfBlocks = BitVec.ofNat 8 chunks.length
  few : chunks.length ≤ 31
  rest : p.rest = chunks.flatMap chunkBytes
  wellFormed : ∀ chunk ∈ chunks, chunk.WellFormed

/-- The parser has come to the end of the packet. -/
structure AtEnd (data : List Byte) (p : RTCPParserV2) : Prop where
  packetType : p.packetType = .kInvalid
  data_eq : p.data = data
  ptr : p.ptr = data.length

/-- What a chunk leaves in the packet. -/
def HoldsChunk (chunk : Chunk) (packet : RTCPPacket) : Prop :=
  packet.cName = { senderSSRC := chunk.ssrc, cName := chunk.name }

/-- `Iterate` finds the next chunk, or the end of the packet. -/
theorem iterate_chunks {data : List Byte} (chunks : List Chunk) (p : RTCPParserV2)
    (h : BeforeChunks data chunks p) :
    ∃ p', p.iterate = .ok p' ∧
      Found .kSdesChunk HoldsChunk (BeforeChunks data) (AtEnd data) chunks p' := by
  obtain ⟨rfl, hvalid, hstate, hend, hnumber, hfew, hrest, hwell⟩ := h
  have hitem : ParseState.sdesChunk ≠ .topLevel := by decide
  cases chunks with
  | nil =>
    have hleave : parseItem { p with packetType := .kInvalid } .sdesChunk =
        leave { p with packetType := .kInvalid } := if_pos hnumber
    exact ⟨_, iterate_leave_end hvalid hstate hitem hend hleave, nofun, rfl, rfl, hend⟩
  | cons chunk chunks =>
    rw [List.length_cons] at hnumber hfew
    rw [List.flatMap_cons] at hrest
    have hlength := congrArg List.length hrest
    rw [length_rest, List.length_append] at hlength
    have hroom : (chunkBytes chunk).length ≤ left { p with packetType := .kInvalid } := by
      show _ ≤ p.blockEnd - p.ptr
      omega
    have hsome : p.numberOfBlocks ≠ 0 := hnumber ▸ ofNat_succ_ne_zero hfew
    have hless : p.numberOfBlocks - 1 = BitVec.ofNat 8 chunks.length := by
      rw [hnumber, ofNat_succ_sub_one]
    have hrest' : rest { p with packetType := .kInvalid } =
        chunkBytes chunk ++ chunks.flatMap chunkBytes := hrest
    have hfound := parseSDESChunk_chunk (hwell chunk List.mem_cons_self) hrest' hroom hsome
    refine ⟨_, iterate_item hvalid hstate hitem hfound, rfl, rfl, rfl, hvalid, hstate, hend, hless,
      by omega, rest_skip _ hrest rfl, ?_⟩
    intro c hc
    exact hwell c (List.mem_cons_of_mem _ hc)

/-- The header of a source description. -/
theorem parseBlock_sdes {header : RTCPCommonHeader} (htype : header.pt = PT_SDES)
    (hleft : 8 ≤ p.left) :
    parseBlock p header = .ok ({ p.skip 4 with
      numberOfBlocks := header.ic, state := .sdesChunk, packetType := .kSdes }, true) := by
  have hsr : ¬ header.pt = PT_SR := by
    rw [htype]
    decide
  have hrr : ¬ header.pt = PT_RR := by
    rw [htype]
    decide
  rw [parseBlock, if_neg hsr, if_neg hrr, if_pos htype, parseSDES]
  exact if_neg (Nat.not_lt.mpr hleft)

/-! ## The report is parsed -/

/-- The next report block is found. -/
theorem parseReportBlockItem_block {block : RTCPPacketReportBlockItem}
    (hlost : block.cumulativeNumOfPacketsLost.toNat < 2 ^ 24)
    (h : p.rest = reportBlockBytes block ++ t) (hleft : 24 ≤ p.left)
    (hnumber : p.numberOfBlocks ≠ 0) :
    parseReportBlockItem p = .ok ({ p.skip 24 with
      packet := { p.packet with reportBlockItem := block }
      numberOfBlocks := p.numberOfBlocks - 1
      packetType := .kReportBlockItem }, true) := by
  have hblock : reportBlockBytes block ++ t = be32 block.ssrc ++ (block.fractionLost ::
      (be24 block.cumulativeNumOfPacketsLost ++ (be32 block.extendedHighestSequenceNumber ++
        (be32 block.jitter ++ (be32 block.lastSR ++ (be32 block.delayLastSR ++ t)))))) := by
    simp only [reportBlockBytes, List.append_assoc, List.cons_append]
  have hssrc := h.trans hblock
  have hfraction := rest_skip_be32 hssrc
  have hcumulative := rest_skip_cons hfraction
  have hhighest := rest_skip_be24 hcumulative
  have hjitter := rest_skip_be32 hhighest
  have hlastSR := rest_skip_be32 hjitter
  have hdelay := rest_skip_be32 hlastSR
  have hgo : ¬ (p.left < 24 ∨ p.numberOfBlocks = 0) := by
    rintro (hlt | hzero)
    · exact Nat.not_lt.mpr hleft hlt
    · exact hnumber hzero
  rw [parseReportBlockItem, if_neg hgo, nextUWord32_be32 hssrc, ok_bind]
  dsimp only
  rw [nextByte_cons hfraction, ok_bind]
  dsimp only
  rw [nextUWord24_be24 hlost hcumulative, ok_bind]
  dsimp only
  rw [nextUWord32_be32 hhighest, ok_bind]
  dsimp only
  rw [nextUWord32_be32 hjitter, ok_bind]
  dsimp only
  rw [nextUWord32_be32 hlastSR, ok_bind]
  dsimp only
  rw [nextUWord32_be32 hdelay, ok_bind]
  rfl

/-- The parser stands before the blocks of a report, with a source description behind them. Behind a
sender report without blocks it is at the top level already. -/
structure BeforeBlocks (data : List Byte) (chunk : Chunk) (blocks : List RTCPPacketReportBlockItem)
    (p : RTCPParserV2) : Prop where
  data_eq : p.data = data
  valid : p.validPacket = true
  place : p.state = .reportBlockItem ∧ p.numberOfBlocks = BitVec.ofNat 8 blocks.length ∨
    p.state = .topLevel ∧ blocks = []
  blockEnd : p.blockEnd + (sdesBytes chunk).length = data.length
  few : blocks.length ≤ 31
  rest : p.rest = createReportBlocks blocks ++ sdesBytes chunk
  lost : ∀ block ∈ blocks, block.cumulativeNumOfPacketsLost.toNat < 2 ^ 24

/-- The parser has found the source description. -/
def AtSdes (data : List Byte) (chunk : Chunk) (p : RTCPParserV2) : Prop :=
  p.packetType = .kSdes ∧ BeforeChunks data [chunk] p

theorem ptr_add_length {p : RTCPParserV2} {bytes : List Byte} (h : p.rest = bytes)
    (hpos : 0 < bytes.length) : p.ptr + bytes.length = p.data.length := by
  have hlength := congrArg List.length h
  rw [length_rest] at hlength
  omega

/-- Behind the blocks the source description is found. -/
theorem iterateTopLevel_sdes {fuel : Nat} {chunk : Chunk} (hchunk : chunk.WellFormed)
    (hvalid : p.validPacket = true) (hrest : p.rest = sdesBytes chunk) :
    ∃ p', iterateTopLevel (fuel + 1) p = .ok p' ∧ AtSdes p.data chunk p' := by
  have hlength := length_sdesBytes hchunk
  have hwords := hchunk.words_le
  have hbytes : chunk.words ≥ 1 := by
    have heq := hchunk.length_eq
    omega
  have hend := ptr_add_length hrest (by omega)
  rw [hlength] at hend
  let q : RTCPParserV2 := { p with blockEnd := p.ptr + 4 * (chunk.words + 1) }
  have hleft : 8 ≤ q.left := by
    show 8 ≤ p.ptr + 4 * (chunk.words + 1) - p.ptr
    omega
  have hparse : parseBlock q (blockHeader 1 PT_SDES chunk.words) = _ := parseBlock_sdes rfl hleft
  have hfit : 4 * (chunk.words + 1) ≤ p.rest.length := by
    rw [hrest]
    exact Nat.le_of_eq hlength.symm
  refine ⟨_, iterateTopLevel_block hrest (by decide) (by omega) hfit hparse, rfl, ?_⟩
  refine ⟨rfl, hvalid, rfl, hend, rfl, Nat.le_of_ble_eq_true rfl, ?_, ?_⟩
  · rw [List.flatMap_singleton]
    exact rest_skip _ hrest rfl
  · intro c hc
    rw [List.mem_singleton.mp hc]
    exact hchunk

/-- `Iterate` finds the next report block, or the source description. -/
theorem iterate_blocks {data : List Byte} {chunk : Chunk} (hchunk : chunk.WellFormed)
    (blocks : List RTCPPacketReportBlockItem) (p : RTCPParserV2)
    (h : BeforeBlocks data chunk blocks p) :
    ∃ p', p.iterate = .ok p' ∧
      Found .kReportBlockItem (fun block packet => packet.reportBlockItem = block)
        (BeforeBlocks data chunk) (AtSdes data chunk) blocks p' := by
  obtain ⟨rfl, hvalid, hplace, hend, hfew, hrest, hlost⟩ := h
  have hsdes := length_sdesBytes hchunk
  have hitem : ParseState.reportBlockItem ≠ .topLevel := by decide
  cases blocks with
  | nil =>
    have hbytes : p.rest = sdesBytes chunk := hrest
    have hptr : p.ptr = p.blockEnd := by
      have hsum := ptr_add_length hbytes (by omega)
      omega
    let q : RTCPParserV2 :=
      { p with packetType := .kInvalid, state := .topLevel, ptr := p.blockEnd }
    have hq : q.rest = sdesBytes chunk := by
      show p.data.drop p.blockEnd = _
      rw [← hptr]
      exact hbytes
    obtain ⟨p', hrun, htype, hbefore⟩ :
        ∃ p', iterateTopLevel (p.data.length + 1) q = .ok p' ∧ AtSdes p.data chunk p' :=
      iterateTopLevel_sdes hchunk hvalid hq
    refine ⟨p', ?_, by rw [htype]; decide, htype, hbefore⟩
    rcases hplace with ⟨hstate, hnumber⟩ | ⟨hstate, -⟩
    · rw [iterate_leave hvalid hstate hitem (if_pos (.inr hnumber))]
      exact hrun
    · have hsame : { p with packetType := .kInvalid } = q := by
        simp only [q, ← hptr, ← hstate]
      rw [iterate, iterateFrom_topLevel hvalid hstate, hsame]
      exact hrun
  | cons block blocks =>
    obtain ⟨hstate, hnumber⟩ := hplace.resolve_right fun h => List.cons_ne_nil _ _ h.2
    rw [List.length_cons] at hnumber hfew
    have hcons : createReportBlocks (block :: blocks) ++ sdesBytes chunk =
        reportBlockBytes block ++ (createReportBlocks blocks ++ sdesBytes chunk) :=
      List.append_assoc _ _ _
    have hroom : 24 ≤ left { p with packetType := .kInvalid } := by
      have hptr := ptr_add_length hrest (by
        rw [List.length_append]
        omega)
      rw [List.length_append, length_createReportBlocks, List.length_cons] at hptr
      show 24 ≤ p.blockEnd - p.ptr
      omega
    have hsome : p.numberOfBlocks ≠ 0 := hnumber ▸ ofNat_succ_ne_zero hfew
    have hless : p.numberOfBlocks - 1 = BitVec.ofNat 8 blocks.length := by
      rw [hnumber, ofNat_succ_sub_one]
    have hrest' := hrest.trans hcons
    have hfound : parseItem { p with packetType := .kInvalid } .reportBlockItem = _ :=
      parseReportBlockItem_block (hlost block List.mem_cons_self) hrest' hroom hsome
    refine ⟨_, iterate_item hvalid hstate hitem hfound, rfl, rfl, rfl, hvalid, .inl ⟨hstate, hless⟩,
      hend, by omega, rest_skip _ hrest' rfl, ?_⟩
    intro b hb
    exact hlost b (List.mem_cons_of_mem _ hb)

/-- The head of a sender report. Without blocks the block is left at once. -/
theorem parseSR_sender {sr : RTCPPacketSR} {bytes : List Byte} (hbytes : bytes.length = 4)
    (h : p.rest = bytes ++ (senderReportBytes sr ++ t)) (hleft : 28 ≤ p.left)
    (hcount : sr.numberOfReportBlocks = p.numberOfBlocks) :
    parseSR p =
      let q : RTCPParserV2 :=
        { p.skip 28 with packetType := .kSr, packet := { p.packet with sr := sr } }
      if p.numberOfBlocks ≠ 0 then .ok ({ q with state := .reportBlockItem }, true)
      else .ok ({ q with state := .topLevel, ptr := p.blockEnd }, true) := by
  have hhead : senderReportBytes sr ++ t = be32 sr.senderSSRC ++ (be32 sr.ntpMostSignificant ++
      (be32 sr.ntpLeastSignificant ++ (be32 sr.rtpTimestamp ++ (be32 sr.senderPacketCount ++
        (be32 sr.senderOctetCount ++ t))))) := by
    simp only [senderReportBytes, List.append_assoc]
  rw [hhead] at h
  have hssrc := rest_skip _ h hbytes
  have hmost := rest_skip_be32 hssrc
  have hleast := rest_skip_be32 hmost
  have hrtp := rest_skip_be32 hleast
  have hpackets := rest_skip_be32 hrtp
  have hoctets := rest_skip_be32 hpackets
  rw [parseSR, if_neg (Nat.not_lt.mpr hleft), nextUWord32_be32 hssrc, ok_bind]
  dsimp only
  rw [nextUWord32_be32 hmost, ok_bind]
  dsimp only
  rw [nextUWord32_be32 hleast, ok_bind]
  dsimp only
  rw [nextUWord32_be32 hrtp, ok_bind]
  dsimp only
  rw [nextUWord32_be32 hpackets, ok_bind]
  dsimp only
  have hsr : { sr with numberOfReportBlocks := p.numberOfBlocks } = sr := by
    rw [← hcount]
  rw [nextUWord32_be32 hoctets, ok_bind]
  dsimp only [skip]
  rw [hsr]
  rfl

/-- The head of a receiver report. -/
theorem parseRR_receiver {rr : RTCPPacketRR} {bytes : List Byte} (hbytes : bytes.length = 4)
    (h : p.rest = bytes ++ (be32 rr.senderSSRC ++ t)) (hleft : 8 ≤ p.left)
    (hcount : rr.numberOfReportBlocks = p.numberOfBlocks) :
    parseRR p = .ok ({ p.skip 8 with
      packetType := .kRr
      packet := { p.packet with rr := rr }
      state := .reportBlockItem }, true) := by
  have hssrc := rest_skip _ h hbytes
  rw [parseRR, if_neg (Nat.not_lt.mpr hleft), nextUWord32_be32 hssrc, ok_bind]
  dsimp only [skip]
  rw [← hcount]

/-- The parser has found the head of the report. -/
def FoundReport : Report → RTCPParserV2 → Prop
  | .sender r, p => p.packetType = .kSr ∧ p.packet.sr = r.sr
  | .receiver r, p => p.packetType = .kRr ∧ p.packet.rr = r.rr

/-- The head of a report, at the front of a block. -/
theorem parseBlock_report (r : Report) (header : RTCPCommonHeader) {bytes : List Byte}
    (hbytes : bytes.length = 4) (htype : header.pt = r.type)
    (hcount : header.ic = BitVec.ofNat 8 r.blocks.length)
    (h : p.rest = bytes ++ (r.head ++ (createReportBlocks r.blocks ++ t)))
    (hend : p.blockEnd = p.ptr + 4 * (r.words + 1)) :
    ∃ p', parseBlock p header = .ok (p', true) ∧ FoundReport r p' ∧ p'.data = p.data ∧
      p'.validPacket = p.validPacket ∧ p'.blockEnd = p.blockEnd ∧
      p'.rest = createReportBlocks r.blocks ++ t ∧
      (p'.state = .reportBlockItem ∧ p'.numberOfBlocks = BitVec.ofNat 8 r.blocks.length ∨
        p'.state = .topLevel ∧ r.blocks = []) := by
  have hfew := r.length_blocks
  have hleft : 4 * (r.words + 1) ≤ left { p with numberOfBlocks := header.ic } := by
    show _ ≤ p.blockEnd - p.ptr
    omega
  have hskip : (p.skip (4 + 4 * r.headWords)).rest = createReportBlocks r.blocks ++ t := by
    have hhead := rest_skip _ (rest_skip _ h hbytes) r.length_head
    rw [skip_skip] at hhead
    exact hhead
  cases r with
  | sender r =>
    have hpt : header.pt = PT_SR := htype
    have hic : r.sr.numberOfReportBlocks = header.ic := r.count.trans hcount.symm
    have hroom : 28 ≤ left { p with numberOfBlocks := header.ic } := by
      refine Nat.le_trans ?_ hleft
      show 28 ≤ 4 * (6 + 6 * _ + 1)
      omega
    have hparse := parseSR_sender hbytes (p := { p with numberOfBlocks := header.ic }) h hroom hic
    rw [parseBlock, if_pos hpt, hparse]
    dsimp only
    by_cases hzero : header.ic = 0
    · have hnone : r.reportBlocks = [] := by
        by_contra hne
        obtain ⟨block, blocks, hcons⟩ := List.exists_cons_of_ne_nil hne
        have hlen : (Report.sender r).blocks.length = blocks.length + 1 :=
          congrArg List.length hcons
        rw [hlen] at hcount hfew
        exact ofNat_succ_ne_zero hfew (hcount.symm.trans hzero)
      have hptr : p.blockEnd = p.ptr + 28 := by
        have hwords : (Report.sender r).words = 6 + 6 * r.reportBlocks.length := rfl
        rw [hend, hwords, hnone]
        rfl
      rw [if_neg (not_not.mpr hzero)]
      refine ⟨_, rfl, ⟨rfl, rfl⟩, rfl, rfl, rfl, ?_, .inr ⟨rfl, hnone⟩⟩
      show p.data.drop p.blockEnd = _
      rw [hptr]
      exact hskip
    · rw [if_pos hzero]
      exact ⟨_, rfl, ⟨rfl, rfl⟩, rfl, rfl, rfl, hskip, .inl ⟨rfl, hcount⟩⟩
  | receiver r =>
    have hpt : header.pt = PT_RR := htype
    have hsr : ¬ header.pt = PT_SR := by
      rw [hpt]
      decide
    have hic : r.rr.numberOfReportBlocks = header.ic := r.count.trans hcount.symm
    have hroom : 8 ≤ left { p with numberOfBlocks := header.ic } := by
      refine Nat.le_trans ?_ hleft
      show 8 ≤ 4 * (1 + 6 * _ + 1)
      omega
    have hparse := parseRR_receiver hbytes (p := { p with numberOfBlocks := header.ic }) h hroom hic
    rw [parseBlock, if_neg hsr, if_pos hpt, hparse]
    exact ⟨_, rfl, ⟨rfl, rfl⟩, rfl, rfl, rfl, hskip, .inl ⟨rfl, hcount⟩⟩

/-- The parser begins with the report and stands before its blocks. -/
theorem begin_report (r : Report) {chunk : Chunk}
    (hlost : ∀ block ∈ r.blocks, block.cumulativeNumOfPacketsLost.toNat < 2 ^ 24) :
    ∃ p, (RTCPParserV2.new (r.bytes ++ sdesBytes chunk) true).begin = .ok p ∧ FoundReport r p ∧
      BeforeBlocks (r.bytes ++ sdesBytes chunk) chunk r.blocks p := by
  have hlength := r.length_bytes
  have hwords := r.words_le
  have hdata : r.bytes ++ sdesBytes chunk =
      headerBytes (BitVec.ofNat 8 r.blocks.length) r.type (BitVec.ofNat 16 r.words) ++
        (r.head ++ (createReportBlocks r.blocks ++ sdesBytes chunk)) := by
    simp only [Report.bytes, List.append_assoc]
  let q : RTCPParserV2 := { new (r.bytes ++ sdesBytes chunk) true with
    validPacket := true, blockEnd := 0 + 4 * (r.words + 1) }
  have hq : q.rest = headerBytes (BitVec.ofNat 8 r.blocks.length) r.type (BitVec.ofNat 16 r.words) ++
      (r.head ++ (createReportBlocks r.blocks ++ sdesBytes chunk)) := hdata
  obtain ⟨p, hparse, hfound, hpdata, hvalid, hend, hrest, hplace⟩ :=
    parseBlock_report r (blockHeader (BitVec.ofNat 8 r.blocks.length) r.type r.words) rfl rfl rfl hq
      rfl
  have hfit : 4 * (r.words + 1) ≤ (r.bytes ++ sdesBytes chunk).length := by
    rw [List.length_append]
    omega
  refine ⟨p, begin_block hdata r.count_lt (by omega) hfit hparse, hfound, hpdata, hvalid, hplace, ?_,
    r.length_blocks, hrest, hlost⟩
  rw [hend, List.length_append, hlength]
  show 0 + _ + _ = _
  omega

end RTCPParserV2

open RTCPParserV2

/-! ## What is collected -/

/-- What is taken from the head of a report. -/
def addReport (report : Report) (info : RTCPPacketInformation) : RTCPPacketInformation :=
  match report with
  | .sender r =>
    { info.flag kRtcpSr with
      remoteSSRC := r.sr.senderSSRC
      ntpSecs := r.sr.ntpMostSignificant
      ntpFrac := r.sr.ntpLeastSignificant
      rtpTimestamp := r.sr.rtpTimestamp
      sendPacketCount := r.sr.senderPacketCount
      sendOctetCount := r.sr.senderOctetCount }
  | .receiver r => { info.flag kRtcpRr with remoteSSRC := r.rr.senderSSRC }

theorem handle_report {r : Report} {p : RTCPParserV2} (h : FoundReport r p)
    (info : RTCPPacketInformation) :
    p.packetType ≠ .kInvalid ∧ handle p info = handleSenderReceiverReport p info ∧
      handleReport p info = addReport r info := by
  cases r with
  | sender r =>
    obtain ⟨htype, hsr⟩ := h
    refine ⟨by rw [htype]; decide, by rw [handle, htype], ?_⟩
    rw [handleReport, if_pos htype, hsr]
    rfl
  | receiver r =>
    obtain ⟨htype, hrr⟩ := h
    refine ⟨by rw [htype]; decide, by rw [handle, htype], ?_⟩
    rw [handleReport, htype, if_neg (by decide), hrr]
    rfl

theorem remoteSSRC_addReport (r : Report) (info : RTCPPacketInformation) :
    (addReport r info).remoteSSRC = r.senderSSRC := by
  cases r <;> rfl

theorem reportBlocks_addReport (r : Report) (info : RTCPPacketInformation) :
    (addReport r info).reportBlocks = info.reportBlocks := by
  cases r <;> rfl

/-- What is taken from a chunk. -/
def addName (name : List Byte) (info : RTCPPacketInformation) : RTCPPacketInformation :=
  handleSDESChunk { RTCPPacket.unset with cName := { senderSSRC := 0, cName := name } } info

/-- A name of allowed characters has no zero in it, and it fits. -/
theorem cnameInfo_addName {name : List Byte} (hname : name.all allowed = true)
    (hlength : name.length ≤ 255) (info : RTCPPacketInformation) :
    (addName name info).cnameInfo = name ++ List.replicate (rtcpCnameSize - name.length) 0 := by
  have hnonzero : name.takeWhile (· != 0) = name := by
    rw [List.takeWhile_eq_self_iff]
    intro c hc
    have hallowed := List.all_eq_true.mp hname c hc
    rw [bne_iff_ne]
    rintro rfl
    revert hallowed
    decide
  have htake : name.take (rtcpCnameSize - 1) = name := List.take_of_length_le hlength
  show (name.takeWhile (· != 0)).take _ ++ _ = _
  rw [hnonzero, htake]

/-- The report blocks are added in their order, and the rest is kept. -/
theorem addReportInfo_foldl (blocks : List RTCPPacketReportBlockItem) (ssrc : BitVec 32)
    (info : RTCPPacketInformation) :
    blocks.foldl (fun i block => i.addReportInfo (reportBlock ssrc block)) info =
      { info with
        rtt := if blocks = [] then info.rtt else 0
        reportBlocks := info.reportBlocks ++ blocks.map (reportBlock ssrc) } := by
  induction blocks generalizing info with
  | nil =>
    rw [List.foldl_nil, List.map_nil, List.append_nil]
    rfl
  | cons block blocks ih =>
    rw [List.foldl_cons, ih, List.map_cons, if_neg (List.cons_ne_nil _ _)]
    simp only [RTCPPacketInformation.addReportInfo, ite_self, List.append_assoc,
      List.singleton_append]

/-! ## The round trip -/

/-- The blocks of the report are collected, and the source description is found. -/
theorem handleSenderReceiverReport_report {data : List Byte} {chunk : Chunk}
    (hchunk : chunk.WellFormed) {r : Report} {p : RTCPParserV2} (hfound : FoundReport r p)
    (hbefore : BeforeBlocks data chunk r.blocks p) (info : RTCPPacketInformation) :
    ∃ q, handleSenderReceiverReport p info = .ok (q, r.blocks.foldl
        (fun i block => i.addReportInfo (reportBlock r.senderSSRC block)) (addReport r info)) ∧
      AtSdes data chunk q := by
  obtain ⟨q, hq, hnext⟩ := iterate_blocks hchunk r.blocks p hbefore
  have hdata : q.data = data := hnext.data_eq (fun _ _ h => h.data_eq) fun _ h => h.2.data_eq
  have hmany : r.blocks.length < q.data.length + 1 := by
    have hlength := congrArg List.length hbefore.rest
    rw [length_rest, hbefore.data_eq, List.length_append, length_createReportBlocks] at hlength
    rw [hdata]
    omega
  have hcollect : ∀ (block : RTCPPacketReportBlockItem) (packet : RTCPPacket)
      (i : RTCPPacketInformation), packet.reportBlockItem = block →
        handleReportBlock r.senderSSRC packet i =
          i.addReportInfo (reportBlock r.senderSSRC block) := by
    rintro _ packet i rfl
    rfl
  obtain ⟨q', hrun, hpast⟩ :=
    handleItems_all (iterate_blocks hchunk) hcollect hmany hnext (addReport r info)
  refine ⟨q', ?_, hpast⟩
  obtain ⟨-, -, hreport⟩ := handle_report hfound info
  rw [handleSenderReceiverReport, hreport, hq, ok_bind, remoteSSRC_addReport]
  exact hrun

/-- The name is collected, and the packet is at its end. -/
theorem handleSDES_name {data : List Byte} {chunk : Chunk} {p : RTCPParserV2}
    (h : BeforeChunks data [chunk] p) (info : RTCPPacketInformation) :
    ∃ q, handleSDES p info = .ok (q, (addName chunk.name info).flag kRtcpSdes) ∧
      AtEnd data q := by
  obtain ⟨q, hq, hnext⟩ := iterate_chunks [chunk] p h
  have hmany : [chunk].length < q.data.length + 1 := by
    have hdata : q.data = data := hnext.data_eq (fun _ _ h => h.data_eq) fun _ h => h.data_eq
    have hlength := congrArg List.length h.rest
    rw [length_rest, h.data_eq, List.flatMap_singleton, length_chunkBytes] at hlength
    rw [hdata, List.length_singleton]
    omega
  have hcollect : ∀ (chunk : Chunk) (packet : RTCPPacket) (i : RTCPPacketInformation),
      HoldsChunk chunk packet → handleSDESChunk packet i = addName chunk.name i := by
    intro chunk packet i h
    rw [handleSDESChunk, h]
    rfl
  obtain ⟨q', hrun, hpast⟩ := handleItems_all iterate_chunks hcollect hmany hnext info
  refine ⟨q', ?_, hpast⟩
  rw [handleSDES, hq, ok_bind, hrun]
  rfl

/-- What a report with a name behind it is parsed to. -/
theorem parseRtcpPacket_report (r : Report) {chunk : Chunk} (hchunk : chunk.WellFormed)
    (hlost : ∀ block ∈ r.blocks, block.cumulativeNumOfPacketsLost.toNat < 2 ^ 24)
    (info : RTCPPacketInformation) :
    ∃ p, parseRtcpPacket (r.bytes ++ sdesBytes chunk) info =
        .ok (p, (addName chunk.name (r.blocks.foldl
          (fun i block => i.addReportInfo (reportBlock r.senderSSRC block))
            (addReport r info))).flag kRtcpSdes) ∧
      AtEnd (r.bytes ++ sdesBytes chunk) p := by
  obtain ⟨p, hbegin, hfound, hbefore⟩ := begin_report r hlost
  obtain ⟨q, hreport, htype, hchunks⟩ := handleSenderReceiverReport_report hchunk hfound hbefore info
  obtain ⟨q', hsdes, hend⟩ := handleSDES_name hchunks (r.blocks.foldl
    (fun i block => i.addReportInfo (reportBlock r.senderSSRC block)) (addReport r info))
  obtain ⟨hvalid, hhandle, -⟩ := handle_report hfound info
  refine ⟨q', ?_, hend⟩
  obtain ⟨n, hn⟩ : ∃ n, (r.bytes ++ sdesBytes chunk).length = n + 2 := by
    refine ⟨(r.bytes ++ sdesBytes chunk).length - 2, ?_⟩
    rw [List.length_append, r.length_bytes]
    omega
  rw [parseRtcpPacket, hbegin, ok_bind, hn, handleAll, if_neg hvalid, hhandle, hreport, ok_bind]
  dsimp only
  rw [handleAll, htype, if_neg (by decide), handle, htype]
  dsimp only
  rw [hsdes, ok_bind]
  exact handleAll_end hend.packetType

/-- A report of either kind, with any blocks and any name that the parser allows, comes out as it went
in, and the packet is read to its end. -/
theorem report_round_trip (report : Report) (ssrc : BitVec 32) {cname : List Byte}
    (info : RTCPPacketInformation)
    (hlost : ∀ block ∈ report.blocks, block.cumulativeNumOfPacketsLost.toNat < 2 ^ 24)
    (hcname : cname.all allowed = true) (hlength : cname.length ≤ 255) :
    ∃ sdes packet p info', Sdes.withCName ⟨[]⟩ ssrc cname = .ok sdes ∧
      ((RtcpPacket.mk report.body []).append (.mk (.sdes sdes) [])).build = .ok packet ∧
      parseRtcpPacket packet info = .ok (p, info') ∧ p.ptr = packet.length ∧
      info'.remoteSSRC = report.senderSSRC ∧
      info'.reportBlocks = info.reportBlocks ++ report.blocks.map (reportBlock report.senderSSRC) ∧
      info'.cnameInfo = cname ++ List.replicate (rtcpCnameSize - cname.length) 0 ∧
      ∀ r, report = .sender r →
        info'.ntpSecs = r.sr.ntpMostSignificant ∧ info'.ntpFrac = r.sr.ntpLeastSignificant ∧
        info'.rtpTimestamp = r.sr.rtpTimestamp ∧
        info'.sendPacketCount = r.sr.senderPacketCount ∧
        info'.sendOctetCount = r.sr.senderOctetCount := by
  have hchunk : (cnameChunk ssrc cname).WellFormed := ⟨rfl, hlength, hcname⟩
  have hsdes : Sdes.withCName ⟨[]⟩ ssrc cname = .ok ⟨[cnameChunk ssrc cname]⟩ := by
    rw [Sdes.withCName, if_pos hlength]
    rfl
  obtain ⟨p, hparse, hend⟩ := parseRtcpPacket_report report hchunk hlost info
  rw [addReportInfo_foldl] at hparse
  refine ⟨_, _, p, _, hsdes, build_report report hchunk, hparse, hend.ptr,
    remoteSSRC_addReport report info, ?_, cnameInfo_addName hcname hlength info, ?_⟩
  · show (addReport report info).reportBlocks ++ _ = _
    rw [reportBlocks_addReport]
  · rintro r rfl
    exact ⟨rfl, rfl, rfl, rfl, rfl⟩

/-- A sender report with a block, and a name of three characters. -/
theorem report_round_trip_one_block :
    let r := (SenderReport.new 1 2 3 4 5 6).withReportBlock ⟨7, 8, 0xFFFFFF, 9, 10, 11, 12⟩
    ∃ sdes packet p info', Sdes.withCName ⟨[]⟩ 1 (ascii "mcu") = .ok sdes ∧
      ((RtcpPacket.mk (.senderReport r) []).append (.mk (.sdes sdes) [])).build = .ok packet ∧
      parseRtcpPacket packet ⟨0, 0, [], 0, 0, [], [], 0, 0, 0, 0, 0, 0, 0, []⟩ = .ok (p, info') ∧
      p.ptr = packet.length ∧ info'.remoteSSRC = 1 ∧
      info'.reportBlocks = [⟨1, 7, 8, 0xFFFFFF, 9, 10, 11, 12⟩] ∧
      info'.cnameInfo = ascii "mcu" ++ List.replicate 253 0 ∧ info'.ntpFrac = 3 := by
  obtain ⟨sdes, packet, p, info', hsdes, hbuild, hparse, hptr, hssrc, hblocks, hname, hsender⟩ :=
    report_round_trip (.sender
        ((SenderReport.new 1 2 3 4 5 6).withReportBlock ⟨7, 8, 0xFFFFFF, 9, 10, 11, 12⟩)) 1
      ⟨0, 0, [], 0, 0, [], [], 0, 0, 0, 0, 0, 0, 0, []⟩ (by decide)
      (show (ascii "mcu").all allowed = true by decide) (by decide)
  exact ⟨sdes, packet, p, info', hsdes, hbuild, hparse, hptr, hssrc, hblocks, hname,
    (hsender _ rfl).2.1⟩

end RtcMcu.Avformat.Rtcp
