import RtcMcu.Avformat.RtcpReading
import Mathlib.Tactic.Common

/-!
# A list of lost packets through RTCP

`Nack::WithList` puts a list of sequence numbers into items of a number and a mask of the sixteen
numbers behind it, and `HandleNACKItem` takes the numbers out again. What the items stand for
(`itemSeqs`) is the list as a set, and as a list when each number follows the one before it by at most
half of the circle (`fields_mem`, `fields_ascending`). `nack_round_trip` is the way from the list to
the list over the bytes of the packet.
-/

namespace RtcMcu.Avformat.Rtcp

/-- The numbers an item stands for, in the order in which they are taken out. -/
def itemSeqs (item : RTCPPacketRTPFBNACKItem) : List Seq :=
  item.packetID :: ((List.range 16).filter item.bitMask.getLsbD).map
    fun i => item.packetID + BitVec.ofNat 16 (i + 1)

/-- Each number follows the one before it, by at most half of the circle. -/
def Ascending (list : List Seq) : Prop :=
  list.IsChain fun a b => 1 ≤ (b - a).toNat ∧ (b - a).toNat ≤ 2 ^ 15

/-! ## What the items stand for -/

section Fields

variable {item : RTCPPacketRTPFBNACKItem} {s x : Seq}

/-- A set bit behind all others comes last. -/
theorem filter_range_or {q : Nat → Bool} {k : Nat} (hq : ∀ i, q i = true → i < k) (n : Nat) :
    (List.range n).filter (fun i => q i || decide (i = k)) =
      (List.range n).filter q ++ if k < n then [k] else [] := by
  induction n with
  | zero => rfl
  | succ n ih =>
    rw [List.range_succ, List.filter_append, List.filter_append, ih]
    rcases Nat.lt_trichotomy n k with hlt | rfl | hgt
    · have hne : decide (n = k) = false := decide_eq_false (Nat.ne_of_lt hlt)
      rw [if_neg (by omega), if_neg (by omega), List.append_nil, List.append_nil]
      simp only [List.filter_cons, List.filter_nil, hne, Bool.or_false]
    · have hfalse : q n = false := by
        by_contra htrue
        exact Nat.lt_irrefl n (hq n (Bool.of_not_eq_false htrue))
      rw [if_neg (Nat.lt_irrefl n), if_pos (Nat.lt_succ_self n), List.append_nil]
      simp only [List.filter_cons, List.filter_nil, hfalse, Bool.false_or, decide_true, if_true,
        Bool.false_eq_true, if_false, List.append_nil]
    · have hfalse : q n = false := by
        by_contra htrue
        exact absurd (hq n (Bool.of_not_eq_false htrue)) (by omega)
      have hne : decide (n = k) = false := decide_eq_false (Nat.ne_of_gt hgt)
      rw [if_pos hgt, if_pos (by omega)]
      simp only [List.filter_cons, List.filter_nil, hfalse, hne, Bool.or_self, Bool.false_eq_true,
        if_false, List.append_nil]

theorem getLsbD_setBit (item : RTCPPacketRTPFBNACKItem) {k i : Nat} (hi : i < 16) :
    (item.setBit k).bitMask.getLsbD i = (item.bitMask.getLsbD i || decide (i = k)) := by
  have hbit : (1#16 <<< k).getLsbD i = decide (i = k) := by
    rw [BitVec.getLsbD_shiftLeft, BitVec.getLsbD_one]
    by_cases hk : i = k
    · subst hk
      simp only [hi, Nat.lt_irrefl, Nat.sub_self, decide_true, decide_false, Bool.not_false,
        Bool.and_self, Nat.zero_lt_succ]
    · simp only [hk, hi, decide_true, decide_false, Bool.true_and]
      by_cases hlt : i < k
      · simp only [hlt, decide_true, Bool.not_true, Bool.false_and]
      · have hne : ¬ i - k = 0 := by omega
        simp only [hlt, decide_false, Bool.not_false, hne, Bool.and_false]
  rw [RTCPPacketRTPFBNACKItem.setBit, BitVec.getLsbD_or]
  exact congrArg _ hbit

/-- The number that is at a distance from 1 to 16 is the one its bit stands for. -/
theorem shift_spec (h : 0 ≤ Nack.shift item.packetID s) :
    item.packetID + BitVec.ofNat 16 ((Nack.shift item.packetID s).toNat + 1) = s := by
  have hdist : (Nack.shift item.packetID s).toNat + 1 = (s - item.packetID).toNat := by
    rw [Nack.shift] at h ⊢
    omega
  rw [hdist, BitVec.ofNat_toNat, BitVec.setWidth_eq, BitVec.add_comm, BitVec.sub_add_cancel]

/-- A number goes into an item behind those that are in it, when it is farther away than they are. -/
theorem itemSeqs_setBit (hlow : 0 ≤ Nack.shift item.packetID s) (hhigh : Nack.shift item.packetID s ≤ 15)
    (hbelow : ∀ i, item.bitMask.getLsbD i = true → i < (Nack.shift item.packetID s).toNat) :
    itemSeqs (item.setBit (Nack.shift item.packetID s).toNat) = itemSeqs item ++ [s] := by
  have hfilter : (List.range 16).filter
        (item.setBit (Nack.shift item.packetID s).toNat).bitMask.getLsbD =
      (List.range 16).filter item.bitMask.getLsbD ++ [(Nack.shift item.packetID s).toNat] := by
    have hor := filter_range_or hbelow 16
    rw [if_pos (by omega)] at hor
    rw [← hor]
    apply List.filter_congr
    intro i hi
    exact getLsbD_setBit item (List.mem_range.mp hi)
  rw [itemSeqs, hfilter, List.map_append, List.map_singleton]
  show _ :: (_ ++ [item.packetID + _]) = _
  rw [shift_spec hlow]
  rfl

theorem itemSeqs_new (s : Seq) : itemSeqs { packetID := s, bitMask := 0 } = [s] := by
  have hnone : (List.range 16).filter (0 : BitVec 16).getLsbD = [] := by decide
  rw [itemSeqs, hnone]
  rfl

theorem mem_itemSeqs :
    x ∈ itemSeqs item ↔ x = item.packetID ∨
      ∃ i < 16, item.bitMask.getLsbD i = true ∧ item.packetID + BitVec.ofNat 16 (i + 1) = x := by
  rw [itemSeqs, List.mem_cons, List.mem_map]
  constructor
  · rintro (h | ⟨i, hi, rfl⟩)
    · exact .inl h
    · obtain ⟨hrange, hbit⟩ := List.mem_filter.mp hi
      exact .inr ⟨i, List.mem_range.mp hrange, hbit, rfl⟩
  · rintro (h | ⟨i, hi, hbit, rfl⟩)
    · exact .inl h
    · exact .inr ⟨i, List.mem_filter.mpr ⟨List.mem_range.mpr hi, hbit⟩, rfl⟩

theorem mem_itemSeqs_setBit (hlow : 0 ≤ Nack.shift item.packetID s)
    (hhigh : Nack.shift item.packetID s ≤ 15) :
    x ∈ itemSeqs (item.setBit (Nack.shift item.packetID s).toNat) ↔
      x ∈ itemSeqs item ∨ x = s := by
  have hlt : (Nack.shift item.packetID s).toNat < 16 := by omega
  rw [mem_itemSeqs, mem_itemSeqs]
  constructor
  · rintro (h | ⟨i, hi, hbit, rfl⟩)
    · exact .inl (.inl h)
    · rw [getLsbD_setBit _ hi, Bool.or_eq_true, decide_eq_true_iff] at hbit
      rcases hbit with hbit | rfl
      · exact .inl (.inr ⟨i, hi, hbit, rfl⟩)
      · exact .inr (shift_spec hlow)
  · rintro ((h | ⟨i, hi, hbit, rfl⟩) | rfl)
    · exact .inl h
    · refine .inr ⟨i, hi, ?_, rfl⟩
      rw [getLsbD_setBit _ hi, hbit, Bool.true_or]
    · refine .inr ⟨_, hlt, ?_, shift_spec hlow⟩
      rw [getLsbD_setBit _ hlt, decide_eq_true rfl, Bool.or_true]

theorem fields_ne_nil (list : List Seq) (item : RTCPPacketRTPFBNACKItem) :
    Nack.fields item list ≠ [] := by
  induction list generalizing item with
  | nil => exact List.cons_ne_nil _ _
  | cons s list ih =>
    rw [Nack.fields]
    split
    · exact ih _
    · exact List.cons_ne_nil _ _

/-- As a set, the items stand for the numbers of the list and what the first item stood for. -/
theorem fields_mem (list : List Seq) (item : RTCPPacketRTPFBNACKItem) :
    x ∈ (Nack.fields item list).flatMap itemSeqs ↔ x ∈ itemSeqs item ∨ x ∈ list := by
  induction list generalizing item with
  | nil =>
    rw [Nack.fields, List.flatMap_singleton]
    exact ⟨.inl, fun h => h.resolve_right List.not_mem_nil⟩
  | cons s list ih =>
    rw [Nack.fields, List.mem_cons]
    split
    · next hnear => rw [ih, mem_itemSeqs_setBit hnear.1 hnear.2, or_assoc]
    · rw [List.flatMap_cons, List.mem_append, ih, itemSeqs_new, List.mem_singleton]

/-- The items stand for the list itself when it ascends. `last` is the last number of the first item,
and the numbers of that item are not behind it. -/
theorem fields_ascending (list : List Seq) (item : RTCPPacketRTPFBNACKItem) (last : Seq)
    (hlist : Ascending (last :: list)) (hlast : (last - item.packetID).toNat ≤ 16)
    (hbelow : ∀ i, item.bitMask.getLsbD i = true → i < (last - item.packetID).toNat) :
    (Nack.fields item list).flatMap itemSeqs = itemSeqs item ++ list := by
  induction list generalizing item last with
  | nil => rw [Nack.fields, List.flatMap_singleton, List.append_nil]
  | cons s list ih =>
    obtain ⟨⟨hpos, hhalf⟩, hrest⟩ := List.isChain_cons_cons.mp hlist
    -- at most 16 and half of the circle do not go around it
    have hdist : (s - item.packetID).toNat = (last - item.packetID).toNat + (s - last).toNat := by
      have hs := s.isLt
      have hl := last.isLt
      have hp := item.packetID.isLt
      rw [BitVec.toNat_sub] at hlast hhalf ⊢
      rw [BitVec.toNat_sub, BitVec.toNat_sub]
      omega
    have hshift : (Nack.shift item.packetID s).toNat + 1 = (s - item.packetID).toNat := by
      rw [Nack.shift]
      omega
    rw [Nack.fields]
    split
    · next hnear =>
      have hfar : ∀ i, item.bitMask.getLsbD i = true →
          i < (Nack.shift item.packetID s).toNat := by
        intro i hi
        have := hbelow i hi
        omega
      have hnext : (s - (item.setBit (Nack.shift item.packetID s).toNat).packetID).toNat ≤ 16 := by
        show (s - item.packetID).toNat ≤ 16
        omega
      rw [ih _ s hrest hnext ?_, itemSeqs_setBit hnear.1 hnear.2 hfar, List.append_assoc]
      · rfl
      · intro i hi
        show i < (s - item.packetID).toNat
        by_cases hi16 : i < 16
        · rw [getLsbD_setBit _ hi16, Bool.or_eq_true, decide_eq_true_iff] at hi
          rcases hi with hi | rfl
          · have := hfar i hi
            omega
          · omega
        · rw [BitVec.getLsbD_of_ge _ _ (by omega)] at hi
          cases hi
    · rw [List.flatMap_cons, ih { packetID := s, bitMask := 0 } s hrest, itemSeqs_new]
      · rfl
      · show (s - s).toNat ≤ 16
        rw [BitVec.sub_self]
        exact Nat.zero_le _
      · intro i hi
        change (0#16).getLsbD i = true at hi
        rw [BitVec.getLsbD_zero] at hi
        cases hi

end Fields

/-! ## What is collected -/

/-- An item is taken as the numbers it stands for. -/
def addItem (item : RTCPPacketRTPFBNACKItem) (info : RTCPPacketInformation) :
    RTCPPacketInformation :=
  ((itemSeqs item).foldl RTCPPacketInformation.addNACKPacket info).flag kRtcpNack

theorem handleNACKItem_eq (packet : RTCPPacket) (info : RTCPPacketInformation) :
    handleNACKItem packet info = addItem packet.nackItem info := by
  rw [addItem, itemSeqs, List.foldl_cons, List.foldl_map]
  rfl

/-- Numbers that do not fill the list are all kept. -/
theorem addNACKPacket_foldl {list : List Seq} {info : RTCPPacketInformation}
    (h : info.nackList.length + list.length ≤ kSendSideNackListSizeSanity) :
    (list.foldl RTCPPacketInformation.addNACKPacket info).nackList = info.nackList ++ list := by
  induction list generalizing info with
  | nil => rw [List.foldl_nil, List.append_nil]
  | cons s list ih =>
    rw [List.length_cons] at h
    have hadd : (info.addNACKPacket s).nackList = info.nackList ++ [s] := by
      rw [RTCPPacketInformation.addNACKPacket, if_neg (by omega)]
    rw [List.foldl_cons, ih, hadd, List.append_assoc]
    · rfl
    · rw [hadd, List.length_append, List.length_singleton]
      omega

theorem addItem_foldl {items : List RTCPPacketRTPFBNACKItem} {info : RTCPPacketInformation}
    (h : info.nackList.length + (items.flatMap itemSeqs).length ≤ kSendSideNackListSizeSanity) :
    (items.foldl (fun info item => addItem item info) info).nackList =
      info.nackList ++ items.flatMap itemSeqs := by
  induction items generalizing info with
  | nil => rw [List.foldl_nil, List.flatMap_nil, List.append_nil]
  | cons item items ih =>
    rw [List.flatMap_cons, List.length_append] at h
    have hadd : (addItem item info).nackList = info.nackList ++ itemSeqs item :=
      addNACKPacket_foldl (by omega)
    rw [List.foldl_cons, ih, hadd, List.flatMap_cons, List.append_assoc]
    rw [hadd, List.length_append]
    omega

/-- An item stands for 17 numbers at most. -/
theorem length_flatMap_itemSeqs (items : List RTCPPacketRTPFBNACKItem) :
    (items.flatMap itemSeqs).length ≤ 17 * items.length := by
  induction items with
  | nil => exact Nat.le_refl 0
  | cons item items ih =>
    have hfilter : ((List.range 16).filter item.bitMask.getLsbD).length ≤ 16 :=
      Nat.le_trans (List.length_filter_le _ _) (Nat.le_of_eq List.length_range)
    have hitem : (itemSeqs item).length ≤ 17 := by
      rw [itemSeqs, List.length_cons, List.length_map]
      omega
    rw [List.flatMap_cons, List.length_append, List.length_cons]
    omega

/-! ## Parsing -/

open RTCPParserV2

/-- The parser stands before the items of the NACK, which are the end of the packet. -/
structure BeforeItems (data : List Byte) (items : List RTCPPacketRTPFBNACKItem) (p : RTCPParserV2) :
    Prop where
  data_eq : p.data = data
  valid : p.validPacket = true
  state : p.state = .rtpfbNackItem
  blockEnd : p.blockEnd = data.length
  rest : p.rest = items.flatMap nackItemBytes

theorem length_nackItems (items : List RTCPPacketRTPFBNACKItem) :
    (items.flatMap nackItemBytes).length = 4 * items.length := by
  induction items with
  | nil => rfl
  | cons item items ih =>
    rw [List.flatMap_cons, List.length_append, ih, List.length_cons, Nat.mul_succ, Nat.add_comm]
    rfl

/-- `Iterate` finds the next item, or the end of the packet. -/
theorem iterate_nackItems {data : List Byte} (items : List RTCPPacketRTPFBNACKItem)
    (p : RTCPParserV2) (h : BeforeItems data items p) :
    ∃ p', p.iterate = .ok p' ∧
      Found .kRtpfbNackItem (fun item packet => packet.nackItem = item) (BeforeItems data)
        (fun p => p.packetType = .kInvalid ∧ p.data = data) items p' := by
  obtain ⟨rfl, hvalid, hstate, hend, hrest⟩ := h
  have hlength := congrArg List.length hrest
  rw [length_rest, length_nackItems] at hlength
  have hitem : ParseState.rtpfbNackItem ≠ .topLevel := by decide
  cases items with
  | nil =>
    have hleave : parseItem { p with packetType := .kInvalid } .rtpfbNackItem =
        leave { p with packetType := .kInvalid } := by
      apply if_pos
      show p.blockEnd - p.ptr < 4
      rw [List.length_nil] at hlength
      omega
    exact ⟨_, iterate_leave_end hvalid hstate hitem hend hleave, nofun, rfl, rfl⟩
  | cons item items =>
    rw [List.length_cons] at hlength
    rw [List.flatMap_cons, nackItemBytes, List.append_assoc] at hrest
    have hrest₂ : (p.skip 2).rest = be16 item.bitMask ++ items.flatMap nackItemBytes :=
      rest_skip _ hrest rfl
    have hfound : parseItem { p with packetType := .kInvalid } .rtpfbNackItem =
        .ok ({ p.skip 4 with
          packetType := .kRtpfbNackItem
          packet := { p.packet with nackItem := item } }, true) := by
      show parseNACKItem _ = _
      have hleft : ¬ left { p with packetType := .kInvalid } < 4 := by
        show ¬ p.blockEnd - p.ptr < 4
        omega
      have hfirst : nextUWord16 { p with packetType := .kInvalid } =
          .ok (item.packetID, skip { p with packetType := .kInvalid } 2) := nextUWord16_be16 hrest
      have hsecond : nextUWord16 (skip { p with packetType := .kInvalid } 2) =
          .ok (item.bitMask, (skip { p with packetType := .kInvalid } 2).skip 2) :=
        nextUWord16_be16 hrest₂
      rw [parseNACKItem, if_neg hleft, hfirst, ok_bind]
      dsimp only
      rw [hsecond]
      rfl
    refine ⟨_, iterate_item hvalid hstate hitem hfound, rfl, rfl, rfl, hvalid, hstate, hend, ?_⟩
    have hskip := rest_skip _ hrest₂ rfl
    rw [skip_skip] at hskip
    exact hskip

/-- A NACK with these items. -/
def nackBytes (nack : RTCPPacketRTPFBNACK) (items : List RTCPPacketRTPFBNACKItem) : List Byte :=
  headerBytes 1 PT_RTPFB (BitVec.ofNat 16 (items.length + 2)) ++
    (be32 nack.senderSSRC ++ (be32 nack.mediaSSRC ++ items.flatMap nackItemBytes))

theorem length_nackBytes (nack : RTCPPacketRTPFBNACK) (items : List RTCPPacketRTPFBNACKItem) :
    (nackBytes nack items).length = 4 * (items.length + 2 + 1) := by
  simp only [nackBytes, List.length_append, length_nackItems]
  show 4 + (4 + (4 + _)) = _
  omega

/-- The packet a NACK is built as. -/
theorem build_nack {nack : Nack} (hne : nack.nackFields ≠ [])
    (hfit : nack.blockLength ≤ ipPacketSize) :
    (RtcpPacket.mk (.nack nack) []).build = .ok (nackBytes nack.nack nack.nackFields) := by
  have hlength := length_nackBytes nack.nack nack.nackFields
  have hblock : nack.blockLength = 4 * (nack.nackFields.length + 2 + 1) := by
    show 12 + 4 * nack.nackFields.length = _
    omega
  rw [hblock] at hfit
  have hsize : ipPacketSize = 1500 := rfl
  have hcreate : Body.create [] ipPacketSize (.nack nack) =
      .ok (nackBytes nack.nack nack.nackFields) := by
    rw [Body.create, if_neg hne, hblock]
    exact appendBlock_ok (by rw [List.length_nil]; omega) (by omega)
  rw [RtcpPacket.build, RtcpPacket.createAndAddAppended, hcreate]
  exact if_pos (by omega)

/-- The head of a NACK. -/
theorem parseFBCommon_nack {p : RTCPParserV2} (header : RTCPCommonHeader) {bytes t : List Byte}
    {senderSSRC mediaSSRC : BitVec 32} (hbytes : bytes.length = 4)
    (h : p.rest = bytes ++ (be32 senderSSRC ++ (be32 mediaSSRC ++ t))) (hleft : 12 ≤ p.left)
    (htype : header.pt = PT_RTPFB) (hformat : header.ic = 1) :
    parseFBCommon p header = .ok ({ p.skip 12 with
      packetType := .kRtpfbNack
      packet := { p.packet with nack := { senderSSRC := senderSSRC, mediaSSRC := mediaSSRC } }
      state := .rtpfbNackItem }, true) := by
  have hsender := rest_skip _ h hbytes
  have hmedia : ((p.skip 4).skip 4).rest = be32 mediaSSRC ++ t := rest_skip _ hsender rfl
  have htypes : ¬ (header.pt ≠ PT_RTPFB ∧ header.pt ≠ PT_PSFB) := fun hne => hne.1 htype
  rw [parseFBCommon, if_neg htypes, if_neg (Nat.not_lt.mpr hleft), nextUWord32_be32 hsender,
    ok_bind]
  dsimp only
  rw [nextUWord32_be32 hmedia, ok_bind]
  dsimp only
  rw [if_pos htype, if_pos hformat, skip_skip, skip_skip]
  rfl

/-- The parser begins with the NACK and stands before its items. -/
theorem begin_nack (nack : RTCPPacketRTPFBNACK) {items : List RTCPPacketRTPFBNACKItem}
    (hitems : items.length < 16380) :
    ∃ p, (RTCPParserV2.new (nackBytes nack items) true).begin = .ok p ∧
      p.packetType = .kRtpfbNack ∧ BeforeItems (nackBytes nack items) items p := by
  have hlength := length_nackBytes nack items
  have hrest : rest { new (nackBytes nack items) true with
      validPacket := true, blockEnd := 0 + 4 * (items.length + 2 + 1) } =
      headerBytes 1 PT_RTPFB (BitVec.ofNat 16 (items.length + 2)) ++
        (be32 nack.senderSSRC ++ (be32 nack.mediaSSRC ++ items.flatMap nackItemBytes)) := rfl
  have hleft : 12 ≤ 0 + 4 * (items.length + 2 + 1) - 0 := by omega
  have hparse := parseFBCommon_nack (blockHeader 1 PT_RTPFB (items.length + 2)) rfl hrest hleft
    rfl rfl
  refine ⟨_, begin_block rfl (by decide) (by omega) (Nat.le_of_eq hlength.symm) hparse, rfl, rfl,
    rfl, rfl, ?_, ?_⟩
  · show 0 + 4 * (items.length + 2 + 1) = (nackBytes nack items).length
    omega
  · have hskip := rest_skip _ (rest_skip _ (rest_skip _ hrest rfl) rfl) rfl
    rw [skip_skip, skip_skip] at hskip
    exact hskip

/-- What a NACK with these items is parsed to. -/
theorem parseRtcpPacket_nack {packet : List Byte} {items : List RTCPPacketRTPFBNACKItem}
    {p : RTCPParserV2} (info : RTCPPacketInformation) (hpacket : 0 < packet.length)
    (hbegin : (RTCPParserV2.new packet true).begin = .ok p) (htype : p.packetType = .kRtpfbNack)
    (hbefore : BeforeItems packet items p) :
    ∃ q, parseRtcpPacket packet info = .ok (q, items.foldl (fun info item => addItem item info)
      { info with remoteSSRC := p.packet.nack.senderSSRC, nackList := [] }) := by
  obtain ⟨q, hiterate, hfound⟩ := iterate_nackItems items p hbefore
  have hdata : q.data = packet := hfound.data_eq (fun _ _ h => h.data_eq) fun _ h => h.2
  have hlength := congrArg List.length hbefore.rest
  rw [length_rest, length_nackItems, hbefore.data_eq] at hlength
  have hmany : items.length < q.data.length + 1 := by
    rw [hdata]
    omega
  have hcollect : ∀ (item : RTCPPacketRTPFBNACKItem) (packet : RTCPPacket)
      (info : RTCPPacketInformation), packet.nackItem = item →
        handleNACKItem packet info = addItem item info := by
    intro item packet info h
    rw [handleNACKItem_eq, h]
  obtain ⟨r, hitems, hinvalid, -⟩ := handleItems_all iterate_nackItems hcollect hmany hfound
    { info with remoteSSRC := p.packet.nack.senderSSRC, nackList := [] }
  refine ⟨r, ?_⟩
  have hhandle : handle p info = .ok (r, items.foldl (fun info item => addItem item info)
      { info with remoteSSRC := p.packet.nack.senderSSRC, nackList := [] }) := by
    rw [handle, htype]
    show (p.iterate >>= _) = _
    rw [hiterate]
    exact hitems
  obtain ⟨n, hn⟩ := Nat.exists_eq_add_one.mpr hpacket
  rw [parseRtcpPacket, hbegin, ok_bind, handleAll, if_neg (by rw [htype]; decide), hhandle, ok_bind]
  dsimp only
  rw [hn]
  exact handleAll_end hinvalid

/-- The list that was put into a NACK comes out of it: as a set, and in its order if it ascends. The
list of the receiver has room for every packet. -/
theorem nack_round_trip {nackList : List Seq} {senderSSRC mediaSSRC : BitVec 32} {nack : Nack}
    (info : RTCPPacketInformation) (hne : nackList ≠ [])
    (hlist : (Nack.new senderSSRC mediaSSRC).withList nackList = .ok nack)
    (hfit : nack.blockLength ≤ ipPacketSize) :
    ∃ packet p info', (RtcpPacket.mk (.nack nack) []).build = .ok packet ∧
      parseRtcpPacket packet info = .ok (p, info') ∧
      (∀ s, s ∈ info'.nackList ↔ s ∈ nackList) ∧
      (Ascending nackList → info'.nackList = nackList) := by
  obtain ⟨pid, list, rfl⟩ := List.exists_cons_of_ne_nil hne
  have hfields : nack.nackFields = Nack.fields { packetID := pid, bitMask := 0 } list :=
    congrArg Nack.nackFields (Except.ok.inj hlist).symm
  have hfew : 12 + 4 * nack.nackFields.length ≤ 1500 := hfit
  have hbuild := build_nack (hfields ▸ fields_ne_nil list _) hfit
  obtain ⟨p, hbegin, htype, hbefore⟩ := begin_nack nack.nack
    (show nack.nackFields.length < 16380 by omega)
  have hpos : 0 < (nackBytes nack.nack nack.nackFields).length := by
    rw [length_nackBytes]
    omega
  obtain ⟨q, hparse⟩ := parseRtcpPacket_nack info hpos hbegin htype hbefore
  have hroom : 0 + (nack.nackFields.flatMap itemSeqs).length ≤ kSendSideNackListSizeSanity := by
    have hlen := length_flatMap_itemSeqs nack.nackFields
    have hlimit : kSendSideNackListSizeSanity = 20000 := rfl
    omega
  have hall : (nack.nackFields.foldl (fun info item => addItem item info)
      { info with remoteSSRC := p.packet.nack.senderSSRC, nackList := [] }).nackList =
        [] ++ nack.nackFields.flatMap itemSeqs := addItem_foldl hroom
  rw [List.nil_append] at hall
  refine ⟨_, q, _, hbuild, hparse, ?_, ?_⟩
  · intro s
    rw [hall, hfields, fields_mem, itemSeqs_new, List.mem_singleton, List.mem_cons]
  · intro hascending
    have hnone : ∀ i, (0#16).getLsbD i = true → i < (pid - pid).toNat := by
      intro i hi
      rw [BitVec.getLsbD_zero] at hi
      cases hi
    have hself : (pid - pid).toNat ≤ 16 := by
      rw [BitVec.sub_self]
      exact Nat.zero_le _
    rw [hall, hfields, fields_ascending list _ pid hascending hself hnone, itemSeqs_new]
    rfl

/-- Numbers across the wrap, 16 and 17 behind the first, and one that comes twice. -/
theorem nack_round_trip_across_wrap :
    ∃ packet p info', (RtcpPacket.mk (.nack
        { nack := ⟨1, 2⟩, nackFields := [⟨0xFFF8, 0x8001⟩, ⟨9, 0⟩, ⟨9, 0⟩] }) []).build =
          .ok packet ∧
      parseRtcpPacket packet
        ⟨0, 0, [], 0, 0, [], [], 0, 0, 0, 0, 0, 0, 0, []⟩ = .ok (p, info') ∧
      (∀ s, s ∈ info'.nackList ↔ s ∈ ([0xFFF8, 0xFFF9, 8, 9, 9] : List Seq)) ∧
      (Ascending [0xFFF8, 0xFFF9, 8, 9, 9] → info'.nackList = [0xFFF8, 0xFFF9, 8, 9, 9]) :=
  nack_round_trip _ (List.cons_ne_nil _ _)
    (rfl : (Nack.new 1 2).withList [0xFFF8, 0xFFF9, 8, 9, 9] = _) (by decide)

end RtcMcu.Avformat.Rtcp
