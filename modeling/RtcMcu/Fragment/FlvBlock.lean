import RtcMcu.Avcodec.NalUnits
import RtcMcu.Avformat.Flv

/-!
# FLVHeader

`fragment/flv_block.cpp`: the header of an FLV stream, a file header with the tags of the
configurations behind it, is split into one for players that take audio only and one for those that
take video only. For each the tags are gone over twice, once to count and once to copy. Neither pass
looks at how much of the header is left: a tag is read as long as it begins inside it
(`splits_iff`).

The warning about a size that does not match is left out, but the size is read.
-/

namespace RtcMcu.Fragment

open RtcMcu.Avformat RtcMcu.Avcodec

def FLV_TAG_SCRIPT : Byte := 0x12

/-- `sizeof(flv_header)`. -/
def sizeofFlvHeader : Nat := 9

/-- `sizeof(flv_tag)`. -/
def sizeofFlvTag : Nat := 11

/-! ## Reading a tag -/

/-- Some bytes of a block of memory. -/
def readMem (m : List Byte) (pos len : Nat) : Except Fault (List Byte) :=
  if pos + len ≤ m.length then .ok ((m.drop pos).take len) else .error .outOfBounds

/-- The value of three bytes. -/
def be24At (m : List Byte) (i : Nat) : BitVec 32 :=
  (byteAt m i).setWidth 32 <<< 16 ||| (byteAt m (i + 1)).setWidth 32 <<< 8 |||
    (byteAt m (i + 2)).setWidth 32

/-- `flv_get_datasize`. -/
def flvGetDatasize (m : List Byte) (pos : Nat) : Except Fault (BitVec 32) := do
  let _ ← readMem m pos 3
  .ok (be24At m pos)

/-- `flv_get_pretagsize`. -/
def flvGetPretagsize (m : List Byte) (pos : Nat) : Except Fault (BitVec 32) := do
  let _ ← readMem m pos 4
  .ok (rdBe32 m pos)

/-- `tag->type`. -/
def tagType (m : List Byte) (pos : Nat) : Except Fault Byte := do
  let _ ← readMem m pos 1
  .ok (byteAt m pos)

/-- `tag_total_len` of the tag at a position. -/
def tagTotalLen (m : List Byte) (pos : Nat) : Nat :=
  (be24At m (pos + 1)).toNat + sizeofFlvTag + 4

/-! ## The two passes -/

/-- The tags that are kept of the audio and of the video. -/
def kept (type : Byte) (t : Byte) : Bool := t == type || t == FLV_TAG_SCRIPT

/-- The counting pass. A tag that would take the counters out of their types reaches past the end of
the header and was read there before. -/
def countTags (type : Byte) (header : List Byte) (limit : Int) :
    Nat → Nat → Nat → Except Fault Nat
  | 0, _, _ => .error .outOfFuel
  | fuel + 1, parsed, copied =>
    if (parsed : Int) < limit then do
      let size ← flvGetDatasize header (parsed + 1)
      let _ ← flvGetPretagsize header (parsed + size.toNat + sizeofFlvTag)
      let t ← tagType header parsed
      let total := size.toNat + sizeofFlvTag + 4
      countTags type header limit fuel (parsed + total) (if kept type t then copied + total else copied)
    else .ok copied

/-- What the copying pass has made so far. -/
structure Copied where
  out : List Byte
  configTag : Option (List Byte)

/-- The copying pass, to a block of `room` bytes. -/
def copyTags (type : Byte) (header : List Byte) (limit : Int) (room : Nat) :
    Nat → Nat → Copied → Except Fault Copied
  | 0, _, _ => .error .outOfFuel
  | fuel + 1, parsed, c =>
    if (parsed : Int) < limit then do
      let size ← flvGetDatasize header (parsed + 1)
      let t ← tagType header parsed
      let total := size.toNat + sizeofFlvTag + 4
      if kept type t then do
        let tag ← readMem header parsed total
        if room < c.out.length + total then .error .outOfBounds
        else
          copyTags type header limit room fuel (parsed + total)
            { out := c.out ++ tag
              configTag := if t = type then c.configTag.or (some tag) else c.configTag }
      else copyTags type header limit room fuel (parsed + total) c
    else .ok c

/-- The header of one kind, its length as it was counted, and the first tag of the kind. -/
structure KindHeader where
  header : List Byte
  headerLen : Nat
  configTag : Option (List Byte)

/-- What `generate_audio_header` and `generate_video_header` have in common. -/
def generateKindHeader (type mask : Byte) (limit : Int) (header : List Byte)
    (configTag : Option (List Byte)) : Except Fault KindHeader := do
  let fuel := header.length + 1
  let copied ← countTags type header limit fuel (sizeofFlvHeader + 4) (sizeofFlvHeader + 4)
  let first ← readMem header 0 (sizeofFlvHeader + 4)
  let c ← copyTags type header limit copied fuel (sizeofFlvHeader + 4)
    { out := first, configTag := configTag }
  .ok { header := c.out.modify 4 (· &&& mask), headerLen := copied, configTag := c.configTag }

/-- `FLVHeader`. -/
structure FlvBlock.FLVHeader where
  header : List Byte
  audioConfigTag : Option (List Byte)
  audioHeader : List Byte
  audioHeaderLen : Nat
  videoConfigTag : Option (List Byte)
  videoHeader : List Byte
  videoHeaderLen : Nat

namespace FlvBlock.FLVHeader

/-- `FLVHeader(stream_id)`. -/
def new : FLVHeader where
  header := []
  audioConfigTag := none
  audioHeader := []
  audioHeaderLen := 0
  videoConfigTag := none
  videoHeader := []
  videoHeaderLen := 0

/-- `generate_audio_header`, with counters of type `int`. -/
def generateAudioHeader (s : FLVHeader) : Except Fault FLVHeader :=
  if s.header.length < sizeofFlvHeader then .ok s
  else do
    let k ← generateKindHeader FLV_TAG_AUDIO FLV_FLAG_AUDIO (int32 s.header.length) s.header
      s.audioConfigTag
    .ok { s with
          audioConfigTag := k.configTag
          audioHeader := k.header
          audioHeaderLen := k.headerLen }

/-- `generate_video_header`, with counters of type `uint32_t`, and with the type of a video tag as
the mask of the flags. -/
def generateVideoHeader (s : FLVHeader) : Except Fault FLVHeader :=
  if s.header.length < sizeofFlvHeader then .ok s
  else do
    let k ← generateKindHeader FLV_TAG_VIDEO FLV_TAG_VIDEO s.header.length s.header
      s.videoConfigTag
    .ok { s with
          videoConfigTag := k.configTag
          videoHeader := k.header
          videoHeaderLen := k.headerLen }

/-- `set_flv_header`, and the constructor that is given a header. -/
def setFlvHeader (s : FLVHeader) (header : List Byte) : Except Fault FLVHeader :=
  if header.length < sizeofFlvHeader then .ok s
  else do
    let s ← generateAudioHeader { s with header := header }
    s.generateVideoHeader

end FlvBlock.FLVHeader

/-! ## The tags of a header -/

/-- The whole tags at the front of some bytes, and what is left behind them. -/
def splitTags (bytes : List Byte) : List (List Byte) × List Byte :=
  if tagTotalLen bytes 0 ≤ bytes.length then
    (bytes.take (tagTotalLen bytes 0) :: (splitTags (bytes.drop (tagTotalLen bytes 0))).1,
      (splitTags (bytes.drop (tagTotalLen bytes 0))).2)
  else ([], bytes)
termination_by bytes.length
decreasing_by
  all_goals
    rename_i hle
    rw [List.length_drop]
    unfold tagTotalLen sizeofFlvTag at hle ⊢
    omega

/-- The tags of a header, behind the file header and the four bytes after it. -/
def tagsOf (header : List Byte) : List (List Byte) :=
  (splitTags (header.drop (sizeofFlvHeader + 4))).1

/-- The tags of one kind and the script tags. -/
def keptTags (type : Byte) (tags : List (List Byte)) : List (List Byte) :=
  tags.filter fun tag => kept type (byteAt tag 0)

/-- What a header of one kind is to be: the first 13 bytes, in the flags only those of the kind, and
the tags of the kind and the script tags. -/
def kindHeader (type mask : Byte) (header : List Byte) : List Byte :=
  (header.take (sizeofFlvHeader + 4)).modify 4 (· &&& mask) ++
    (keptTags type (tagsOf header)).flatten

/-! ## Reading inside the header -/

theorem readMem_of_le {m : List Byte} {pos len : Nat} (h : pos + len ≤ m.length) :
    readMem m pos len = .ok ((m.drop pos).take len) := if_pos h

theorem readMem_of_lt {m : List Byte} {pos len : Nat} (h : m.length < pos + len) :
    readMem m pos len = .error .outOfBounds := if_neg (Nat.not_le.mpr h)

theorem tagTotalLen_drop (m : List Byte) (pos : Nat) :
    tagTotalLen (m.drop pos) 0 = tagTotalLen m pos := by
  rw [tagTotalLen, tagTotalLen, be24At, be24At]
  simp only [byteAt_drop, Nat.zero_add, Nat.add_assoc]

theorem splitTags_whole {bytes : List Byte} (h : tagTotalLen bytes 0 ≤ bytes.length) :
    splitTags bytes =
      (bytes.take (tagTotalLen bytes 0) :: (splitTags (bytes.drop (tagTotalLen bytes 0))).1,
        (splitTags (bytes.drop (tagTotalLen bytes 0))).2) := by
  rw [splitTags, if_pos h]

theorem splitTags_cut {bytes : List Byte} (h : bytes.length < tagTotalLen bytes 0) :
    splitTags bytes = ([], bytes) := by
  rw [splitTags, if_neg (Nat.not_le.mpr h)]

/-- A tag has at least its own head and the size behind it. -/
theorem tagTotalLen_pos (m : List Byte) (pos : Nat) : 15 ≤ tagTotalLen m pos := by
  unfold tagTotalLen sizeofFlvTag
  omega

/-- A whole tag is read. -/
theorem readTag {header : List Byte} {parsed : Nat}
    (h : parsed + tagTotalLen header parsed ≤ header.length) :
    flvGetDatasize header (parsed + 1) = .ok (be24At header (parsed + 1)) ∧
      flvGetPretagsize header (parsed + (be24At header (parsed + 1)).toNat + sizeofFlvTag) =
        .ok (rdBe32 header (parsed + (be24At header (parsed + 1)).toNat + sizeofFlvTag)) ∧
      tagType header parsed = .ok (byteAt header parsed) := by
  unfold tagTotalLen sizeofFlvTag at h
  refine ⟨?_, ?_, ?_⟩
  · rw [flvGetDatasize, readMem_of_le (by omega), ok_bind]
  · rw [flvGetPretagsize, readMem_of_le (by unfold sizeofFlvTag; omega), ok_bind]
  · rw [tagType, readMem_of_le (by omega), ok_bind]

/-- Of a tag that is cut off, its size or the size behind it is read past the end. -/
theorem readTag_cut {header : List Byte} {parsed : Nat}
    (h : header.length < parsed + tagTotalLen header parsed) {α : Type}
    (f : BitVec 32 → BitVec 32 → Except Fault α) :
    (do
      let size ← flvGetDatasize header (parsed + 1)
      let pre ← flvGetPretagsize header (parsed + size.toNat + sizeofFlvTag)
      f size pre) = .error .outOfBounds := by
  unfold tagTotalLen sizeofFlvTag at h
  rw [flvGetDatasize]
  by_cases hsize : header.length < parsed + 1 + 3
  · rw [readMem_of_lt hsize]
    rfl
  · rw [readMem_of_le (Nat.le_of_not_lt hsize), ok_bind, ok_bind, flvGetPretagsize,
      readMem_of_lt (by unfold sizeofFlvTag; omega)]
    rfl

/-- The passes keep a tag by the type at its front. -/
theorem keptTags_cons {type : Byte} {header : List Byte} {parsed : Nat} (rest : List (List Byte)) :
    keptTags type (((header.drop parsed).take (tagTotalLen header parsed)) :: rest) =
      if kept type (byteAt header parsed) then
        (header.drop parsed).take (tagTotalLen header parsed) :: keptTags type rest
      else keptTags type rest := by
  have hfront : byteAt ((header.drop parsed).take (tagTotalLen header parsed)) 0 =
      byteAt header parsed := by
    have hpos := tagTotalLen_pos header parsed
    have htake : byteAt ((header.drop parsed).take (tagTotalLen header parsed)) 0 =
        byteAt (header.drop parsed) 0 := by
      unfold byteAt
      rw [List.getD_eq_getElem?_getD, List.getD_eq_getElem?_getD,
        List.getElem?_take_of_lt (by omega)]
    rw [htake, byteAt_drop, Nat.add_zero]
  rw [keptTags, List.filter_cons, hfront]
  rfl

/-- The tags from a position on begin with the one there. -/
theorem splitTags_at {header : List Byte} {parsed : Nat}
    (h : parsed + tagTotalLen header parsed ≤ header.length) :
    splitTags (header.drop parsed) =
      ((header.drop parsed).take (tagTotalLen header parsed) ::
          (splitTags (header.drop (parsed + tagTotalLen header parsed))).1,
        (splitTags (header.drop (parsed + tagTotalLen header parsed))).2) := by
  have hwhole : tagTotalLen (header.drop parsed) 0 ≤ (header.drop parsed).length := by
    rw [tagTotalLen_drop, List.length_drop]
    omega
  rw [splitTags_whole hwhole, tagTotalLen_drop, List.drop_drop]

theorem splitTags_end (header : List Byte) :
    splitTags (header.drop header.length) = ([], []) := by
  rw [List.drop_length]
  exact splitTags_cut (Nat.lt_of_lt_of_le (by decide) (tagTotalLen_pos [] 0))

/-! ## The passes -/

/-- The counting pass counts the tags that are kept, if nothing is left behind the last tag. -/
theorem countTags_eq (type : Byte) (header : List Byte) :
    ∀ (fuel : Nat) {parsed copied : Nat}, parsed ≤ header.length → header.length - parsed < fuel →
      countTags type header header.length fuel parsed copied =
        if (splitTags (header.drop parsed)).2 = [] then
          .ok (copied + (keptTags type (splitTags (header.drop parsed)).1).flatten.length)
        else .error .outOfBounds := by
  intro fuel
  induction fuel with
  | zero => exact fun _ hfuel => absurd hfuel (Nat.not_lt_zero _)
  | succ fuel ih =>
    intro parsed copied hparsed hfuel
    rw [countTags]
    by_cases hmore : parsed < header.length
    · rw [if_pos (Int.ofNat_lt.mpr hmore)]
      by_cases hwhole : parsed + tagTotalLen header parsed ≤ header.length
      · obtain ⟨hsize, hpre, htype⟩ := readTag hwhole
        have hpos := tagTotalLen_pos header parsed
        have htotal : (be24At header (parsed + 1)).toNat + sizeofFlvTag + 4 =
            tagTotalLen header parsed := rfl
        have hlength : ((header.drop parsed).take (tagTotalLen header parsed)).length =
            tagTotalLen header parsed := by
          rw [List.length_take, List.length_drop]
          omega
        rw [hsize, ok_bind, hpre, ok_bind, htype, ok_bind]
        dsimp only
        rw [htotal, ih hwhole (by omega), splitTags_at hwhole, keptTags_cons]
        dsimp only
        split
        · refine congrArg Except.ok ?_
          split
          · rw [List.flatten_cons, List.length_append, hlength, Nat.add_assoc]
          · rfl
        · rfl
      · have hcut := Nat.lt_of_not_le hwhole
        have hrest : splitTags (header.drop parsed) = ([], header.drop parsed) := by
          refine splitTags_cut ?_
          rw [tagTotalLen_drop, List.length_drop]
          omega
        have hne : header.drop parsed ≠ [] := by
          rw [Ne, List.drop_eq_nil_iff]
          omega
        rw [hrest, if_neg hne]
        exact readTag_cut hcut _
    · have hend : parsed = header.length := Nat.le_antisymm hparsed (Nat.le_of_not_lt hmore)
      have hnot : ¬ (parsed : Int) < header.length := fun hlt => hmore (Int.ofNat_lt.mp hlt)
      rw [if_neg hnot, hend, splitTags_end, if_pos rfl]
      rfl

/-- The copying pass copies them, if there is room for what was counted. -/
theorem copyTags_eq (type : Byte) (header : List Byte) (room : Nat) :
    ∀ (fuel : Nat) {parsed : Nat} {c : Copied}, parsed ≤ header.length →
      header.length - parsed < fuel → (splitTags (header.drop parsed)).2 = [] →
      c.out.length + (keptTags type (splitTags (header.drop parsed)).1).flatten.length ≤ room →
      ∃ tag, copyTags type header header.length room fuel parsed c =
        .ok { out := c.out ++ (keptTags type (splitTags (header.drop parsed)).1).flatten
              configTag := tag } := by
  intro fuel
  induction fuel with
  | zero => exact fun _ hfuel => absurd hfuel (Nat.not_lt_zero _)
  | succ fuel ih =>
    intro parsed c hparsed hfuel hall hroom
    rw [copyTags]
    by_cases hmore : parsed < header.length
    · rw [if_pos (Int.ofNat_lt.mpr hmore)]
      by_cases hwhole : parsed + tagTotalLen header parsed ≤ header.length
      · obtain ⟨hsize, -, htype⟩ := readTag hwhole
        have hpos := tagTotalLen_pos header parsed
        have htotal : (be24At header (parsed + 1)).toNat + sizeofFlvTag + 4 =
            tagTotalLen header parsed := rfl
        have hlength : ((header.drop parsed).take (tagTotalLen header parsed)).length =
            tagTotalLen header parsed := by
          rw [List.length_take, List.length_drop]
          omega
        rw [splitTags_at hwhole] at hall hroom ⊢
        rw [keptTags_cons] at hroom ⊢
        rw [hsize, ok_bind, htype, ok_bind]
        dsimp only at hall ⊢
        rw [htotal]
        by_cases hkept : kept type (byteAt header parsed) = true
        · rw [if_pos hkept, List.flatten_cons, List.length_append, hlength] at hroom
          have hfits : ¬ room < c.out.length + tagTotalLen header parsed := by omega
          rw [if_pos hkept, if_pos hkept, readMem_of_le hwhole, ok_bind, if_neg hfits,
            List.flatten_cons, ← List.append_assoc]
          refine ih hwhole (by omega) hall ?_
          dsimp only
          rw [List.length_append, hlength]
          omega
        · rw [if_neg hkept] at hroom
          rw [if_neg hkept, if_neg hkept]
          exact ih hwhole (by omega) hall hroom
      · have hrest : splitTags (header.drop parsed) = ([], header.drop parsed) := by
          refine splitTags_cut ?_
          rw [tagTotalLen_drop, List.length_drop]
          omega
        rw [hrest] at hall
        have hnil := List.drop_eq_nil_iff.mp hall
        omega
    · have hend : parsed = header.length := Nat.le_antisymm hparsed (Nat.le_of_not_lt hmore)
      have hnot : ¬ (parsed : Int) < header.length := fun hlt => hmore (Int.ofNat_lt.mp hlt)
      rw [if_neg hnot, hend, splitTags_end]
      exact ⟨c.configTag, by rw [keptTags, List.filter_nil, List.flatten_nil, List.append_nil]⟩

/-- The flags stand in the first 13 bytes. -/
theorem modify_append {a : List Byte} (h : 4 < a.length) (b : List Byte) (f : Byte → Byte) :
    (a ++ b).modify 4 f = a.modify 4 f ++ b := by
  rw [List.modify_eq_take_drop, List.modify_eq_take_drop, List.take_append_of_le_length (by omega),
    List.drop_append_of_le_length (by omega)]
  have hne : a.drop 4 ≠ [] := by
    rw [Ne, List.drop_eq_nil_iff]
    omega
  obtain ⟨x, l, hdrop⟩ := List.exists_cons_of_ne_nil hne
  rw [hdrop, List.cons_append, List.modifyHead_cons, List.modifyHead_cons, List.append_assoc,
    List.cons_append]

/-! ## The split -/

/-- The header of one kind is made inside the header, whole, and as long as it was counted. -/
def SplitsKind (type mask : Byte) (limit : Int) (header : List Byte)
    (configTag : Option (List Byte)) : Prop :=
  ∃ k, generateKindHeader type mask limit header configTag = .ok k ∧
    k.header = kindHeader type mask header ∧ k.headerLen = k.header.length

/-- Less than the first 13 bytes. -/
theorem generateKindHeader_short {type mask : Byte} {limit : Int} {header : List Byte}
    {configTag : Option (List Byte)} (hlimit : limit ≤ header.length)
    (hshort : header.length < sizeofFlvHeader + 4) :
    generateKindHeader type mask limit header configTag = .error .outOfBounds := by
  have hnot : ¬ ((sizeofFlvHeader + 4 : Nat) : Int) < limit := by omega
  rw [generateKindHeader, countTags, if_neg hnot, ok_bind, readMem_of_lt (by omega)]
  rfl

section Long

variable {type mask : Byte} {header : List Byte} {configTag : Option (List Byte)}
  (hlong : sizeofFlvHeader + 4 ≤ header.length)
include hlong

theorem readFirst : readMem header 0 (sizeofFlvHeader + 4) =
    .ok (header.take (sizeofFlvHeader + 4)) := by
  rw [readMem_of_le (by omega), List.drop_zero]

theorem length_first : (header.take (sizeofFlvHeader + 4)).length = sizeofFlvHeader + 4 := by
  rw [List.length_take]
  omega

theorem length_kindHeader : (kindHeader type mask header).length =
    sizeofFlvHeader + 4 + (keptTags type (tagsOf header)).flatten.length := by
  rw [kindHeader, List.length_append, List.length_modify, length_first hlong]

/-- Both passes go over all bytes. -/
theorem splitsKind_iff : SplitsKind type mask header.length header configTag ↔
    (splitTags (header.drop (sizeofFlvHeader + 4))).2 = [] := by
  have hcount : countTags type header header.length (header.length + 1) (sizeofFlvHeader + 4)
      (sizeofFlvHeader + 4) = _ := countTags_eq type header (header.length + 1) hlong (by omega)
  constructor
  · rintro ⟨k, hk, -⟩
    rw [generateKindHeader, hcount] at hk
    split at hk
    · assumption
    · cases hk
  · intro hall
    rw [if_pos hall] at hcount
    have hfirst := length_first hlong
    obtain ⟨tag, hcopy⟩ := copyTags_eq type header
      (sizeofFlvHeader + 4 + (keptTags type (tagsOf header)).flatten.length) (header.length + 1)
      (c := { out := header.take (sizeofFlvHeader + 4), configTag := configTag }) hlong (by omega)
      hall (by dsimp only; rw [hfirst]; exact Nat.le_refl _)
    have hflags : 4 < (header.take (sizeofFlvHeader + 4)).length := by
      rw [hfirst]
      decide
    refine ⟨⟨kindHeader type mask header, (kindHeader type mask header).length, tag⟩, ?_, rfl, rfl⟩
    rw [generateKindHeader, hcount, ok_bind, readFirst hlong, ok_bind]
    rw [tagsOf] at hcopy
    rw [hcopy, ok_bind]
    dsimp only
    rw [modify_append hflags, length_kindHeader hlong]
    rfl

/-- Neither pass goes over any. -/
theorem splitsKind_none {limit : Int} (hlimit : limit ≤ (sizeofFlvHeader + 4 : Nat)) :
    SplitsKind type mask limit header configTag ↔ (keptTags type (tagsOf header)).flatten = [] := by
  have hnot : ¬ ((sizeofFlvHeader + 4 : Nat) : Int) < limit := Int.not_lt.mpr hlimit
  have hgenerate : generateKindHeader type mask limit header configTag =
      .ok ⟨(header.take (sizeofFlvHeader + 4)).modify 4 (· &&& mask), sizeofFlvHeader + 4,
        configTag⟩ := by
    rw [generateKindHeader, countTags, if_neg hnot, ok_bind, readFirst hlong, ok_bind, copyTags,
      if_neg hnot, ok_bind]
  constructor
  · rintro ⟨k, hk, hheader, -⟩
    rw [hgenerate] at hk
    cases hk
    have hlength := congrArg List.length hheader
    rw [length_kindHeader hlong, List.length_modify, length_first hlong] at hlength
    exact List.eq_nil_of_length_eq_zero (by omega)
  · intro hnone
    refine ⟨_, hgenerate, ?_, ?_⟩
    · rw [kindHeader, hnone, List.append_nil]
    · rw [List.length_modify, length_first hlong]

end Long

/-- A header that is handed over: a file header with what follows it, of a length that is a
`uint32_t`. -/
structure HeaderBlob where
  bytes : List Byte
  len_ge : sizeofFlvHeader ≤ bytes.length
  len_lt : bytes.length < 2 ^ 32

/-- `set_flv_header` reads only inside the header, and makes both headers as they should be. -/
def Splits (s : FlvBlock.FLVHeader) (blob : HeaderBlob) : Prop :=
  ∃ s', s.setFlvHeader blob.bytes = .ok s' ∧
    s'.audioHeader = kindHeader FLV_TAG_AUDIO FLV_FLAG_AUDIO blob.bytes ∧
    s'.audioHeaderLen = s'.audioHeader.length ∧
    s'.videoHeader = kindHeader FLV_TAG_VIDEO FLV_TAG_VIDEO blob.bytes ∧
    s'.videoHeaderLen = s'.videoHeader.length

/-- The header goes as far as its first 13 bytes, whole tags fill it up behind them, and where its
length is no `int` no audio and no script tag is among them. -/
def Tiled (blob : HeaderBlob) : Prop :=
  sizeofFlvHeader + 4 ≤ blob.bytes.length ∧
    (splitTags (blob.bytes.drop (sizeofFlvHeader + 4))).2 = [] ∧
    (2 ^ 31 ≤ blob.bytes.length → keptTags FLV_TAG_AUDIO (tagsOf blob.bytes) = [])

/-- The two kinds are made one after the other. -/
theorem splits_iff_kinds (s : FlvBlock.FLVHeader) (blob : HeaderBlob) :
    Splits s blob ↔
      SplitsKind FLV_TAG_AUDIO FLV_FLAG_AUDIO (int32 blob.bytes.length) blob.bytes
          s.audioConfigTag ∧
        SplitsKind FLV_TAG_VIDEO FLV_TAG_VIDEO blob.bytes.length blob.bytes s.videoConfigTag := by
  have hlen : ¬ blob.bytes.length < sizeofFlvHeader := Nat.not_lt.mpr blob.len_ge
  have hset : s.setFlvHeader blob.bytes = (do
      let a ← generateKindHeader FLV_TAG_AUDIO FLV_FLAG_AUDIO (int32 blob.bytes.length) blob.bytes
        s.audioConfigTag
      let v ← generateKindHeader FLV_TAG_VIDEO FLV_TAG_VIDEO blob.bytes.length blob.bytes
        s.videoConfigTag
      .ok ⟨blob.bytes, a.configTag, a.header, a.headerLen, v.configTag, v.header,
        v.headerLen⟩) := by
    rw [FlvBlock.FLVHeader.setFlvHeader, if_neg hlen, FlvBlock.FLVHeader.generateAudioHeader,
      if_neg hlen]
    cases generateKindHeader FLV_TAG_AUDIO FLV_FLAG_AUDIO (int32 blob.bytes.length) blob.bytes
      s.audioConfigTag with
    | error e => rfl
    | ok a =>
      rw [ok_bind, ok_bind, ok_bind, FlvBlock.FLVHeader.generateVideoHeader, if_neg hlen]
  rw [Splits, hset]
  constructor
  · rintro ⟨s', hs', haudio, haudioLen, hvideo, hvideoLen⟩
    obtain ⟨a, ha, hs'⟩ := bind_eq_ok.mp hs'
    obtain ⟨v, hv, hs'⟩ := bind_eq_ok.mp hs'
    cases hs'
    exact ⟨⟨a, ha, haudio, haudioLen⟩, v, hv, hvideo, hvideoLen⟩
  · rintro ⟨⟨a, ha, haudio, haudioLen⟩, v, hv, hvideo, hvideoLen⟩
    rw [ha, ok_bind, hv, ok_bind]
    exact ⟨_, rfl, haudio, haudioLen, hvideo, hvideoLen⟩

/-- Whole tags are not empty. -/
theorem ne_nil_of_mem_splitTags {tag : List Byte} (bytes : List Byte)
    (h : tag ∈ (splitTags bytes).1) : tag ≠ [] := by
  induction bytes using splitTags.induct with
  | case1 bytes hle ih =>
    rw [splitTags_whole hle] at h
    rcases List.mem_cons.mp h with rfl | hrest
    · have hpos := tagTotalLen_pos bytes 0
      rw [Ne, List.take_eq_nil_iff]
      rintro (hnone | rfl)
      · omega
      · exact absurd hle (by rw [List.length_nil]; omega)
    · exact ih hrest
  | case2 bytes hnot =>
    rw [splitTags_cut (Nat.lt_of_not_le hnot)] at h
    cases h

/-- So the kept ones have bytes if there are any. -/
theorem keptTags_flatten_eq_nil {type : Byte} {header : List Byte} :
    (keptTags type (tagsOf header)).flatten = [] ↔ keptTags type (tagsOf header) = [] := by
  constructor
  · intro hflat
    refine List.eq_nil_iff_forall_not_mem.mpr fun tag htag => ?_
    exact ne_nil_of_mem_splitTags _ (List.mem_filter.mp htag).1
      (List.flatten_eq_nil_iff.mp hflat tag htag)
  · intro hnone
    rw [hnone]
    rfl

/-- A header is split as it should be exactly if whole tags fill it up. -/
theorem splits_iff (s : FlvBlock.FLVHeader) (blob : HeaderBlob) : Splits s blob ↔ Tiled blob := by
  rw [splits_iff_kinds, Tiled]
  by_cases hlong : sizeofFlvHeader + 4 ≤ blob.bytes.length
  · rw [splitsKind_iff hlong]
    by_cases hint : blob.bytes.length < 2 ^ 31
    · have hlimit : int32 blob.bytes.length = blob.bytes.length :=
        int32_of_lt (by omega) (by omega)
      rw [hlimit, splitsKind_iff hlong]
      exact ⟨fun h => ⟨hlong, h.2, fun hge => absurd hint (Nat.not_lt.mpr hge)⟩,
        fun h => ⟨h.2.1, h.2.1⟩⟩
    · have hlimit : int32 blob.bytes.length ≤ (sizeofFlvHeader + 4 : Nat) := by
        have hlt := blob.len_lt
        rw [int32, Int.bmod_def]
        omega
      rw [splitsKind_none hlong hlimit, keptTags_flatten_eq_nil]
      exact ⟨fun h => ⟨hlong, h.2, fun _ => h.1⟩, fun h => ⟨h.2.2 (Nat.le_of_not_lt hint), h.2.1⟩⟩
  · refine iff_of_false ?_ fun h => hlong h.1
    rintro ⟨-, k, hk, -⟩
    rw [generateKindHeader_short (Int.le_refl _) (Nat.lt_of_not_le hlong)] at hk
    cases hk

/-- Nine bytes are a file header, and thirteen are read. -/
theorem nine_bytes_overread :
    ¬ Splits FlvBlock.FLVHeader.new
      ⟨[0x46, 0x4c, 0x56, 1, 5, 0, 0, 0, 9], by decide, by decide⟩ := by
  rw [splits_iff_kinds]
  rintro ⟨-, k, hk, -⟩
  rw [generateKindHeader_short (Int.le_refl _) (by decide)] at hk
  cases hk

/-- The last tag says it has a byte of data, and there is none. -/
example : (splitTags [9, 0, 0, 1, 0, 0, 0, 0, 0, 0, 0, 0, 0, 0, 11]).2 ≠ [] := by
  rw [splitTags_cut (by decide)]
  exact List.cons_ne_nil _ _

end RtcMcu.Fragment
