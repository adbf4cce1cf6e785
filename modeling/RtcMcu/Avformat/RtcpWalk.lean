import RtcMcu.Avformat.RtcpHelper
import RtcMcu.Avformat.RtcpItems
import RtcMcu.Lib.Coupling

/-!
# The walk over a packet

`RTCPParserV2` from `Begin` on, until `Iterate` reports `kInvalid`: every read lies inside the packet
and every call that finds something moves the parser on (`iterate_walk`), so that the walk ends. The
blocks that it accepts are those that the headers alone lead to (`walk_eq`). The length of a block is
computed in 16 bits, so that a block may be accepted that declares more than there is
(`rtcp_walk_iff`).
-/

namespace RtcMcu.Avformat.Rtcp

/-- The length that the header at an offset declares: `4 * (length field + 1)`. -/
def declaredLength (data : List Byte) (start : Nat) : Nat := 4 * ((rdBe16 data (start + 2)).toNat + 1)

namespace RTCPParserV2

/-! ## The blocks that are accepted -/

/-- The blocks that one run of the loop of `IterateTopLevel` accepts: their beginnings. It has the
recursion of `iterateTopLevel`. -/
def acceptedTopLevel : Nat → RTCPParserV2 → List Nat
  | 0, _ => []
  | fuel + 1, p =>
    match parseCommonHeader p.data p.ptr with
    | none => []
    | some header =>
      let q := { p with blockEnd := p.ptr + header.lengthInOctets.toNat }
      if p.data.length < q.blockEnd then []
      else
        p.ptr :: match q.parseBlock header with
          | .ok (q, false) => acceptedTopLevel fuel q
          | _ => []

/-- The blocks that one call of `Iterate` accepts. -/
def accepted (p : RTCPParserV2) : List Nat :=
  let p := { p with packetType := .kInvalid }
  if p.validPacket then
    match p.state with
    | .topLevel => acceptedTopLevel (p.data.length + 1) p
    | state =>
      match p.parseItem state with
      | .ok (q, false) => acceptedTopLevel (q.data.length + 1) { q with packetType := .kInvalid }
      | _ => []
  else []

/-- `Iterate` is called until it reports `kInvalid`. The result is what was accepted. -/
def walkFrom : Nat → RTCPParserV2 → Except Fault (List Nat)
  | 0, _ => .error .outOfFuel
  | fuel + 1, p => do
    let q ← p.iterate
    if q.packetType = .kInvalid then .ok p.accepted
    else do
      let rest ← walkFrom fuel q
      .ok (p.accepted ++ rest)

/-- The walk over a packet. `Begin` sets the pointer to the first byte and calls `Iterate`; every call
after it has read a byte more. -/
def walk (data : List Byte) : Except Fault (List Nat) := walkFrom (data.length + 1) (new data true)

/-! ## Blocks -/

/-- The block is a report that is too short for what stands before its items. The parser ends at
it. -/
def shortReport (header : RTCPCommonHeader) : Bool :=
  (header.pt == PT_SR && decide (header.lengthInOctets.toNat < 28)) ||
    (header.pt == PT_RR && decide (header.lengthInOctets.toNat < 8))

/-- What the parse function of a block does: it finds something and moves on, it goes to the end of
the block, or it finds nothing in a short report. -/
inductive BlockEnds (p : RTCPParserV2) (header : RTCPCommonHeader) : RTCPParserV2 × Bool → Prop
  | found {q : RTCPParserV2} (within : Within p q) (long : shortReport header = false)
      (type : q.packetType ≠ .kInvalid) (moved : p.ptr < q.ptr)
      (state : q.state = .topLevel → q.ptr = p.blockEnd) : BlockEnds p header (q, true)
  | left {q : RTCPParserV2} (within : Within p q) (long : shortReport header = false)
      (type : q.packetType = p.packetType) (state : q.state = .topLevel) (ptr : q.ptr = p.blockEnd) :
      BlockEnds p header (q, false)
  | short {q : RTCPParserV2} (short : shortReport header = true) (type : q.packetType = .kInvalid) :
      BlockEnds p header (q, true)

variable {p : RTCPParserV2} {header : RTCPCommonHeader}

theorem left_eq (hend : p.blockEnd = p.ptr + header.lengthInOctets.toNat) :
    p.left = header.lengthInOctets.toNat := by
  rw [left, hend]
  omega

theorem parseSR_ends (hinside : p.blockEnd ≤ p.data.length)
    (hend : p.blockEnd = p.ptr + header.lengthInOctets.toNat) (hpt : header.pt = PT_SR)
    (htype : p.packetType = .kInvalid) :
    ∃ q found, p.parseSR = .ok (q, found) ∧ BlockEnds p header (q, true) := by
  have hleft := left_eq hend
  rw [parseSR, hleft]
  split
  · next h =>
    refine ⟨_, _, rfl, .short ?_ htype⟩
    rw [shortReport, hpt, decide_eq_true h]
    rfl
  · next h =>
    have hlong : shortReport header = false := by
      rw [shortReport, hpt, decide_eq_false h]
      rfl
    obtain ⟨a, ha⟩ := nextUWord32_ok (p := p.skip 4) (show p.ptr + 4 + 4 ≤ p.data.length by omega)
    obtain ⟨b, hb⟩ := nextUWord32_ok (p := (p.skip 4).skip 4)
      (show p.ptr + 4 + 4 + 4 ≤ p.data.length by omega)
    obtain ⟨c, hc⟩ := nextUWord32_ok (p := ((p.skip 4).skip 4).skip 4)
      (show p.ptr + 4 + 4 + 4 + 4 ≤ p.data.length by omega)
    obtain ⟨d, hd⟩ := nextUWord32_ok (p := (((p.skip 4).skip 4).skip 4).skip 4)
      (show p.ptr + 4 + 4 + 4 + 4 + 4 ≤ p.data.length by omega)
    obtain ⟨e, he⟩ := nextUWord32_ok (p := ((((p.skip 4).skip 4).skip 4).skip 4).skip 4)
      (show p.ptr + 4 + 4 + 4 + 4 + 4 + 4 ≤ p.data.length by omega)
    obtain ⟨f, hf⟩ := nextUWord32_ok (p := (((((p.skip 4).skip 4).skip 4).skip 4).skip 4).skip 4)
      (show p.ptr + 4 + 4 + 4 + 4 + 4 + 4 + 4 ≤ p.data.length by omega)
    simp only [ha, hb, hc, hd, he, hf, ok_bind]
    simp only [skip_skip, Nat.reduceAdd]
    split
    · exact ⟨_, _, rfl, .found ⟨rfl, rfl, rfl⟩ hlong (fun h => by cases h)
        (Nat.lt_add_of_pos_right (Nat.succ_pos 27)) (fun h => by cases h)⟩
    · exact ⟨_, _, rfl, .found ⟨rfl, rfl, rfl⟩ hlong (fun h => by cases h)
        (show p.ptr < p.blockEnd by omega) (fun _ => rfl)⟩

theorem parseRR_ends (hinside : p.blockEnd ≤ p.data.length)
    (hend : p.blockEnd = p.ptr + header.lengthInOctets.toNat) (hpt : header.pt = PT_RR)
    (htype : p.packetType = .kInvalid) :
    ∃ q found, p.parseRR = .ok (q, found) ∧ BlockEnds p header (q, true) := by
  have hleft := left_eq hend
  rw [parseRR, hleft]
  split
  · next h =>
    refine ⟨_, _, rfl, .short ?_ htype⟩
    rw [shortReport, hpt, decide_eq_true h]
    rfl
  · next h =>
    have hlong : shortReport header = false := by
      rw [shortReport, hpt, decide_eq_false h]
      rfl
    obtain ⟨a, ha⟩ := nextUWord32_ok (p := p.skip 4) (show p.ptr + 4 + 4 ≤ p.data.length by omega)
    rw [ha, ok_bind]
    exact ⟨_, _, rfl, .found ⟨rfl, rfl, rfl⟩ hlong (fun h => by cases h)
      (show p.ptr < p.ptr + 4 + 4 by omega) (fun h => by cases h)⟩

theorem parseSDES_ends (hlong : shortReport header = false) :
    ∃ r, p.parseSDES = .ok r ∧ BlockEnds p header r := by
  rw [parseSDES]
  split
  · exact ⟨_, rfl, .left ⟨rfl, rfl, rfl⟩ hlong rfl rfl rfl⟩
  · exact ⟨_, rfl, .found ⟨rfl, rfl, rfl⟩ hlong (fun h => by cases h)
      (show p.ptr < p.ptr + 4 by omega) (fun h => by cases h)⟩

theorem parseBYE_ends (hinside : p.blockEnd ≤ p.data.length) (hlong : shortReport header = false) :
    ∃ r, p.parseBYE = .ok r ∧ BlockEnds p header r := by
  obtain ⟨r, hr, hends⟩ := parseBYEItem_ends (p := { p.skip 4 with state := .byeItem }) hinside
    (fun h => by cases h)
  have htype := @parseBYEItem_left { p.skip 4 with state := .byeItem }
  refine ⟨r, hr, ?_⟩
  cases hends with
  | found within state type _ moved =>
    have hmoved : p.ptr + 4 < _ := moved
    exact .found ⟨within.data, within.validPacket, within.blockEnd⟩ hlong type (by omega)
      (fun h => absurd h state)
  | left within state ptr =>
    exact .left ⟨within.data, within.validPacket, within.blockEnd⟩ hlong (htype hr) state ptr

theorem parseFBCommon_ends (hinside : p.blockEnd ≤ p.data.length) (htop : p.state = .topLevel)
    (hlong : shortReport header = false) (hpt : header.pt = PT_RTPFB ∨ header.pt = PT_PSFB) :
    ∃ r, p.parseFBCommon header = .ok r ∧ BlockEnds p header r := by
  have hassert : ¬ (header.pt ≠ PT_RTPFB ∧ header.pt ≠ PT_PSFB) := by
    rintro ⟨hrtpfb, hpsfb⟩
    exact hpt.elim hrtpfb hpsfb
  rw [parseFBCommon, if_neg hassert]
  split
  · exact ⟨_, rfl, .left ⟨rfl, rfl, rfl⟩ hlong rfl htop rfl⟩
  · next h =>
    have hroom : ¬ p.blockEnd - p.ptr < 12 := h
    obtain ⟨a, ha⟩ := nextUWord32_ok (p := p.skip 4) (show p.ptr + 4 + 4 ≤ p.data.length by omega)
    obtain ⟨b, hb⟩ := nextUWord32_ok (p := (p.skip 4).skip 4)
      (show p.ptr + 4 + 4 + 4 ≤ p.data.length by omega)
    have hmoved : p.ptr < p.ptr + 4 + 4 + 4 := by omega
    simp only [ha, hb, ok_bind]
    split
    · split
      · exact ⟨_, rfl, .found ⟨rfl, rfl, rfl⟩ hlong (fun h => by cases h) hmoved
          (fun h => by cases h)⟩
      · exact ⟨_, rfl, .left ⟨rfl, rfl, rfl⟩ hlong rfl htop rfl⟩
    · split
      · exact ⟨_, rfl, .found ⟨rfl, rfl, rfl⟩ hlong (fun h => by cases h) hmoved
          (fun h => by cases h)⟩
      · exact ⟨_, rfl, .left ⟨rfl, rfl, rfl⟩ hlong rfl htop rfl⟩

theorem parseAPP_ends (hinside : p.blockEnd ≤ p.data.length) (htop : p.state = .topLevel)
    (hlong : shortReport header = false) :
    ∃ r, p.parseAPP header = .ok r ∧ BlockEnds p header r := by
  rw [parseAPP]
  split
  · exact ⟨_, rfl, .left ⟨rfl, rfl, rfl⟩ hlong rfl htop rfl⟩
  · next h =>
    have hroom : ¬ p.blockEnd - p.ptr < 12 := h
    obtain ⟨a, ha⟩ := nextUWord32_ok (p := p.skip 4) (show p.ptr + 4 + 4 ≤ p.data.length by omega)
    obtain ⟨b, hb⟩ := nextUWord32_ok (p := (p.skip 4).skip 4)
      (show p.ptr + 4 + 4 + 4 ≤ p.data.length by omega)
    simp only [ha, hb, ok_bind]
    exact ⟨_, rfl, .found ⟨rfl, rfl, rfl⟩ hlong (fun h => by cases h)
      (show p.ptr < p.ptr + 4 + 4 + 4 by omega) (fun h => by cases h)⟩

/-- Inside the packet every parse function of a block ends. -/
theorem parseBlock_ends (hinside : p.blockEnd ≤ p.data.length)
    (hend : p.blockEnd = p.ptr + header.lengthInOctets.toNat) (htop : p.state = .topLevel)
    (htype : p.packetType = .kInvalid) :
    ∃ r, p.parseBlock header = .ok r ∧ BlockEnds p header r := by
  have hkeep : ∀ {r : RTCPParserV2 × Bool} {n : Byte},
      BlockEnds { p with numberOfBlocks := n } header r → BlockEnds p header r := by
    intro r n h
    cases h with
    | found within long type moved state =>
      exact .found ⟨within.data, within.validPacket, within.blockEnd⟩ long type moved state
    | left within long type state ptr =>
      exact .left ⟨within.data, within.validPacket, within.blockEnd⟩ long type state ptr
    | short short type => exact .short short type
  rw [parseBlock]
  by_cases hsr : header.pt = PT_SR
  · rw [if_pos hsr]
    obtain ⟨q, found, hq, hends⟩ := parseSR_ends (p := { p with numberOfBlocks := header.ic })
      hinside hend hsr htype
    rw [hq, ok_bind]
    exact ⟨_, rfl, hkeep hends⟩
  rw [if_neg hsr]
  by_cases hrr : header.pt = PT_RR
  · rw [if_pos hrr]
    obtain ⟨q, found, hq, hends⟩ := parseRR_ends (p := { p with numberOfBlocks := header.ic })
      hinside hend hrr htype
    rw [hq, ok_bind]
    exact ⟨_, rfl, hkeep hends⟩
  rw [if_neg hrr]
  have hlong : shortReport header = false := by
    rw [shortReport, beq_eq_false_iff_ne.mpr hsr, beq_eq_false_iff_ne.mpr hrr]
    rfl
  split
  · obtain ⟨r, hr, hends⟩ := parseSDES_ends (p := { p with numberOfBlocks := header.ic }) hlong
    exact ⟨r, hr, hkeep hends⟩
  · split
    · obtain ⟨r, hr, hends⟩ := parseBYE_ends (p := { p with numberOfBlocks := header.ic })
        hinside hlong
      exact ⟨r, hr, hkeep hends⟩
    · split
      · next hfb => exact parseFBCommon_ends hinside htop hlong hfb
      · split
        · exact parseAPP_ends hinside htop hlong
        · exact ⟨_, rfl, .left ⟨rfl, rfl, rfl⟩ hlong rfl htop rfl⟩

/-! ## The headers alone -/

theorem parseCommonHeader_some {data : List Byte} {start : Nat}
    (h : parseCommonHeader data start = some header) :
    start + 4 ≤ data.length ∧ header.lengthInOctets = (rdBe16 data (start + 2) + 1) * 4 ∧
      0 < header.lengthInOctets.toNat := by
  unfold parseCommonHeader at h
  split at h
  · cases h
  · next hfour =>
    dsimp only at h
    split at h
    · cases h
    · next hzero =>
      split at h
      · cases h
      · cases h
        refine ⟨by omega, rfl, Nat.pos_of_ne_zero fun hnat => hzero ?_⟩
        exact BitVec.eq_of_toNat_eq hnat

/-- The blocks from an offset on that the headers lead to: each is followed by the next where the
length that was computed for it ends. -/
def blocksFrom (data : List Byte) (start : Nat) : List Nat :=
  match _h : parseCommonHeader data start with
  | none => []
  | some header =>
    if data.length < start + header.lengthInOctets.toNat then []
    else
      start :: if shortReport header then []
        else blocksFrom data (start + header.lengthInOctets.toNat)
termination_by data.length - start
decreasing_by
  have hpos := (parseCommonHeader_some _h).2.2
  omega

theorem blocksFrom_none {data : List Byte} {start : Nat} (h : parseCommonHeader data start = none) :
    blocksFrom data start = [] := by
  rw [blocksFrom]
  split
  · rfl
  · next hsome =>
    rw [h] at hsome
    cases hsome

theorem blocksFrom_some {data : List Byte} {start : Nat}
    (h : parseCommonHeader data start = some header) :
    blocksFrom data start =
      if data.length < start + header.lengthInOctets.toNat then []
      else
        start :: if shortReport header then []
          else blocksFrom data (start + header.lengthInOctets.toNat) := by
  conv_lhs => rw [blocksFrom]
  split
  · next hnone =>
    rw [h] at hnone
    cases hnone
  · next hsome =>
    rw [h] at hsome
    cases hsome
    rfl

/-! ## One call -/

/-- How far the parser is: where it stands, but not behind the block it is in. -/
def position (p : RTCPParserV2) : Nat :=
  if p.state = .topLevel then p.ptr else min p.ptr p.blockEnd

/-- Where the next block begins. -/
def nextBlock (p : RTCPParserV2) : Nat := if p.state = .topLevel then p.ptr else p.blockEnd

/-- The parser is inside the packet. -/
def Inside (p : RTCPParserV2) : Prop := p.nextBlock ≤ p.data.length

/-- What a call that starts at `position` with the blocks from `start` on before it does: it finds
something and moves on, or there is nothing left. -/
inductive CallEnds (data : List Byte) (position start : Nat) (accepted : List Nat) :
    RTCPParserV2 → Prop
  | found {q : RTCPParserV2} (data_eq : q.data = data) (valid : q.validPacket = true)
      (type : q.packetType ≠ .kInvalid) (inside : q.Inside) (moved : position < q.position)
      (blocks : accepted ++ blocksFrom data q.nextBlock = blocksFrom data start) :
      CallEnds data position start accepted q
  | done {q : RTCPParserV2} (type : q.packetType = .kInvalid)
      (blocks : accepted = blocksFrom data start) : CallEnds data position start accepted q

theorem position_le (h : p.Inside) : p.position ≤ p.data.length := by
  unfold Inside nextBlock at h
  unfold position
  split at h
  · next htop => rwa [if_pos htop]
  · next htop =>
    rw [if_neg htop]
    omega

theorem iterateTopLevel_ends (fuel : Nat) : ∀ {p : RTCPParserV2}, p.state = .topLevel →
    p.packetType = .kInvalid → p.validPacket = true → p.data.length - p.ptr < fuel →
    ∃ q, iterateTopLevel fuel p = .ok q ∧
      CallEnds p.data p.ptr p.ptr (acceptedTopLevel fuel p) q := by
  induction fuel with
  | zero => exact fun _ _ _ hfuel => absurd hfuel (Nat.not_lt_zero _)
  | succ fuel ih =>
    intro p htop htype hvalid hfuel
    rw [iterateTopLevel, acceptedTopLevel]
    cases hheader : parseCommonHeader p.data p.ptr with
    | none => exact ⟨p, rfl, .done htype (blocksFrom_none hheader).symm⟩
    | some header =>
      obtain ⟨-, -, hpos⟩ := parseCommonHeader_some hheader
      have hblocks := blocksFrom_some hheader
      dsimp only
      by_cases hbad : p.data.length < p.ptr + header.lengthInOctets.toNat
      · rw [if_pos hbad] at hblocks ⊢
        rw [if_pos hbad]
        exact ⟨_, rfl, .done htype hblocks.symm⟩
      · rw [if_neg hbad] at hblocks ⊢
        rw [if_neg hbad]
        obtain ⟨r, hr, hends⟩ := parseBlock_ends
          (p := { p with blockEnd := p.ptr + header.lengthInOctets.toNat })
          (Nat.le_of_not_lt hbad) rfl htop htype
        rw [hr, ok_bind]
        cases hends with
        | @found q within long type moved state =>
          rw [long] at hblocks
          have hmoved : p.ptr < q.ptr := moved
          have hend : q.blockEnd = p.ptr + header.lengthInOctets.toNat := within.blockEnd
          have hnext : q.nextBlock = p.ptr + header.lengthInOctets.toNat := by
            unfold nextBlock
            split
            · next htop' => exact state htop'
            · exact hend
          have hposition : p.ptr < q.position := by
            unfold position
            split
            · exact hmoved
            · omega
          have hinside : q.Inside := by
            rw [Inside, hnext, within.data]
            exact Nat.le_of_not_lt hbad
          refine ⟨q, rfl, .found within.data (within.validPacket.trans hvalid) type hinside hposition ?_⟩
          rw [hblocks, hnext]
          rfl
        | @left q within long type state ptr =>
          rw [long] at hblocks
          have hptr : q.ptr = p.ptr + header.lengthInOctets.toNat := ptr
          have hdata : q.data = p.data := within.data
          have hvalid' : q.validPacket = true := within.validPacket.trans hvalid
          obtain ⟨r, hr, hrest⟩ := ih state (type.trans htype) hvalid'
            (by rw [hdata, hptr]; omega)
          rw [hdata, hptr] at hrest
          refine ⟨r, hr, ?_⟩
          cases hrest with
          | found data_eq valid type inside moved blocks =>
            refine .found data_eq valid type inside (by omega) ?_
            rw [hblocks]
            exact congrArg (p.ptr :: ·) blocks
          | done type blocks =>
            refine .done type ?_
            rw [hblocks]
            exact congrArg (p.ptr :: ·) blocks
        | short short type =>
          rw [short] at hblocks
          exact ⟨_, rfl, .done type hblocks.symm⟩

/-- At the top level `Iterate` goes on to the next block. -/
theorem iterateFrom_top (fuel : Nat) (hvalid : p.validPacket = true) (htop : p.state = .topLevel) :
    iterateFrom (fuel + 1) p =
      iterateTopLevel (p.data.length + 1) { p with packetType := .kInvalid } := by
  obtain ⟨data, reduced, valid, ptr, blockEnd, state, number, type, packet⟩ := p
  cases hvalid
  cases htop
  rfl

/-- In a block it calls the item function, and itself again if that finds nothing. -/
theorem iterateFrom_item (fuel : Nat) (hvalid : p.validPacket = true) (htop : p.state ≠ .topLevel) :
    iterateFrom (fuel + 1) p =
      (parseItem { p with packetType := .kInvalid } p.state >>= fun r =>
        if r.2 = true then .ok r.1 else iterateFrom fuel r.1) := by
  obtain ⟨data, reduced, valid, ptr, blockEnd, state, number, type, packet⟩ := p
  cases hvalid
  cases state with
  | topLevel => exact absurd rfl htop
  | _ => rfl

theorem accepted_top (hvalid : p.validPacket = true) (htop : p.state = .topLevel) :
    p.accepted = acceptedTopLevel (p.data.length + 1) { p with packetType := .kInvalid } := by
  obtain ⟨data, reduced, valid, ptr, blockEnd, state, number, type, packet⟩ := p
  cases hvalid
  cases htop
  rfl

theorem accepted_item (hvalid : p.validPacket = true) (htop : p.state ≠ .topLevel)
    {q : RTCPParserV2} {found : Bool}
    (hitem : parseItem { p with packetType := .kInvalid } p.state = .ok (q, found)) :
    p.accepted = if found = true then []
      else acceptedTopLevel (q.data.length + 1) { q with packetType := .kInvalid } := by
  have haccepted : p.accepted = match parseItem { p with packetType := .kInvalid } p.state with
      | .ok (q, false) => acceptedTopLevel (q.data.length + 1) { q with packetType := .kInvalid }
      | _ => [] := by
    obtain ⟨data, reduced, valid, ptr, blockEnd, state, number, type, packet⟩ := p
    cases hvalid
    cases state with
    | topLevel => exact absurd rfl htop
    | _ => rfl
  rw [haccepted, hitem]
  cases found with
  | true => rfl
  | false => rfl

/-- A call from inside the packet stays there, and accepts what the headers lead to. -/
theorem iterate_walk (hinside : p.Inside) (hvalid : p.validPacket = true) :
    ∃ q, p.iterate = .ok q ∧ CallEnds p.data p.position p.nextBlock p.accepted q := by
  unfold Inside at hinside
  rw [iterate]
  by_cases htop : p.state = .topLevel
  · have hposition : p.position = p.ptr := if_pos htop
    have hnext : p.nextBlock = p.ptr := if_pos htop
    rw [hposition, hnext, iterateFrom_top 1 hvalid htop, accepted_top hvalid htop]
    exact iterateTopLevel_ends (p.data.length + 1) (p := { p with packetType := .kInvalid }) htop rfl
      hvalid (Nat.lt_succ_of_le (Nat.sub_le _ _))
  · have hnext : p.nextBlock = p.blockEnd := if_neg htop
    have hposition : p.position = min p.ptr p.blockEnd := if_neg htop
    rw [hnext] at hinside ⊢
    rw [hposition, iterateFrom_item 1 hvalid htop]
    obtain ⟨r, hr, hends⟩ := parseItem_ends (p := { p with packetType := .kInvalid }) hinside htop
    have hitem : parseItem { p with packetType := .kInvalid } p.state = .ok r := hr
    rw [hitem, ok_bind]
    cases hends with
    | @found q within state type before moved =>
      have hnext' : q.nextBlock = p.blockEnd := (if_neg state).trans within.blockEnd
      have hmoved : p.ptr < min q.ptr q.blockEnd := by
        have hend : q.blockEnd = p.blockEnd := within.blockEnd
        have hptr : p.ptr < q.ptr := moved
        have hbefore : p.ptr < p.blockEnd := before
        omega
      refine ⟨q, rfl, .found within.data (within.validPacket.trans hvalid) type ?_ ?_ ?_⟩
      · rw [Inside, hnext', within.data]
        exact hinside
      · rw [position, if_neg state]
        exact Nat.lt_of_le_of_lt (Nat.min_le_left _ _) hmoved
      · rw [accepted_item hvalid htop hitem, hnext']
        rfl
    | @left q within state ptr =>
      have hptr : q.ptr = p.blockEnd := ptr
      have hdata : q.data = p.data := within.data
      have hvalid' : q.validPacket = true := within.validPacket.trans hvalid
      have hagain : iterateFrom 1 q =
          iterateTopLevel (q.data.length + 1) { q with packetType := .kInvalid } :=
        iterateFrom_top 0 hvalid' state
      obtain ⟨r, hr, hrest⟩ := iterateTopLevel_ends (q.data.length + 1)
        (p := { q with packetType := .kInvalid }) state rfl hvalid'
        (Nat.lt_succ_of_le (Nat.sub_le _ _))
      refine ⟨r, hagain.trans hr, ?_⟩
      rw [accepted_item hvalid htop hitem]
      dsimp only at hrest
      rw [hdata, hptr] at hrest
      cases hrest with
      | found data_eq valid type inside moved blocks =>
        refine .found data_eq valid type inside ?_ ?_
        · exact Nat.lt_of_le_of_lt (Nat.min_le_right _ _) moved
        · rw [if_neg Bool.false_ne_true, hdata, hptr]
          exact blocks
      | done type blocks =>
        refine .done type ?_
        rw [if_neg Bool.false_ne_true, hdata, hptr]
        exact blocks

/-! ## The whole walk -/

theorem walkFrom_eq (fuel : Nat) : ∀ {p : RTCPParserV2}, p.Inside → p.validPacket = true →
    p.data.length - p.position < fuel → walkFrom fuel p = .ok (blocksFrom p.data p.nextBlock) := by
  induction fuel with
  | zero => exact fun _ _ hfuel => absurd hfuel (Nat.not_lt_zero _)
  | succ fuel ih =>
    intro p hinside hvalid hfuel
    obtain ⟨q, hq, hends⟩ := iterate_walk hinside hvalid
    rw [walkFrom, hq, ok_bind]
    cases hends with
    | found data_eq valid type inside moved blocks =>
      have hle := position_le inside
      have hrest := ih inside valid (by rw [data_eq] at hle ⊢; omega)
      rw [data_eq] at hrest
      rw [if_neg type, hrest, ok_bind, blocks]
    | done type blocks => rw [if_pos type, blocks]

theorem iterate_invalid (hvalid : p.validPacket = false) :
    p.iterate = .ok { p with packetType := .kInvalid } ∧ p.accepted = [] := by
  obtain ⟨data, reduced, valid, ptr, blockEnd, state, number, type, packet⟩ := p
  cases hvalid
  exact ⟨rfl, rfl⟩

/-- The walk ends without a fault, and it accepts the blocks that the headers lead to. -/
theorem walk_eq (data : List Byte) : walk data = .ok (blocksFrom data 0) := by
  cases hheader : parseCommonHeader data 0 with
  | none =>
    have hvalid : (new data true).validPacket = false := by
      rw [new]
      dsimp only
      rw [validate, hheader]
    obtain ⟨hcall, haccepted⟩ := iterate_invalid hvalid
    rw [walk, walkFrom, hcall, ok_bind, haccepted, blocksFrom_none hheader]
    rfl
  | some header =>
    have hvalid : (new data true).validPacket = true := by
      rw [new]
      dsimp only
      rw [validate, hheader]
      rfl
    exact walkFrom_eq (data.length + 1) (p := new data true) (Nat.zero_le _) hvalid
      (Nat.lt_succ_of_le (Nat.sub_le _ _))

/-! ## The handlers -/

/-- What `Begin` and then `Iterate` lead to, while something is found. -/
inductive Reached (data : List Byte) : RTCPParserV2 → Prop
  | begin {p : RTCPParserV2} (h : (new data true).begin = .ok p) : Reached data p
  | iterate {p q : RTCPParserV2} (hp : Reached data p) (type : p.packetType ≠ .kInvalid)
      (h : p.iterate = .ok q) : Reached data q

/-- A parser that found something is inside the packet. -/
theorem Reached.inside {data : List Byte} {p : RTCPParserV2} (h : Reached data p) :
    p.packetType ≠ .kInvalid → p.data = data ∧ p.validPacket = true ∧ p.Inside := by
  have hcall : ∀ {p q : RTCPParserV2}, p.data = data → p.validPacket = true → p.Inside →
      p.iterate = .ok q → q.packetType ≠ .kInvalid →
        q.data = data ∧ q.validPacket = true ∧ q.Inside := by
    intro p q hdata hvalid hinside hq htype
    obtain ⟨q', hq', hends⟩ := iterate_walk hinside hvalid
    cases hq.symm.trans hq'
    cases hends with
    | found data_eq valid type inside moved blocks => exact ⟨data_eq.trans hdata, valid, inside⟩
    | done type blocks => exact absurd type htype
  induction h with
  | @begin p h =>
    intro htype
    cases hvalid : (new data true).validPacket with
    | true => exact hcall rfl hvalid (Nat.zero_le _) h htype
    | false =>
      cases h.symm.trans (iterate_invalid hvalid).1
      exact absurd rfl htype
  | iterate hp type h ih =>
    obtain ⟨hdata, hvalid, hinside⟩ := ih type
    exact hcall hdata hvalid hinside h

end RTCPParserV2

open RTCPParserV2 RtcMcu.Coupling

/-- A fault of `AddApplicationData`, on the data of an item that was found. -/
def ApplicationFault (data : List Byte) (e : Fault) : Prop :=
  ∃ p info, Reached data p ∧ p.packetType = .kAppItem ∧
    RTCPPacketInformation.addApplicationData info p.packet.app.data = .error e

/-- The parser went on from a position, or found nothing. -/
structure Ahead (data : List Byte) (n : Nat) (p : RTCPParserV2) : Prop where
  reached : Reached data p
  moved : p.packetType ≠ .kInvalid → n < p.position

/-- A handler went on from a position. -/
def HandledAhead (data : List Byte) (n : Nat) (x : Handled) : Prop :=
  Ends (ApplicationFault data) (fun r => Ahead data n r.1) x

section Handlers

variable {data : List Byte} {n : Nat} {p : RTCPParserV2} {info : RTCPPacketInformation}

theorem Ahead.mono {m : Nat} (h : Ahead data n p) (hle : m ≤ n) : Ahead data m p :=
  ⟨h.reached, fun htype => Nat.lt_of_le_of_lt hle (h.moved htype)⟩

/-- `Iterate`, and what is done with its result. -/
theorem Ahead.next {f : RTCPParserV2 → Handled} {m : Nat} (h : Ahead data n p)
    (htype : p.packetType ≠ .kInvalid)
    (hf : ∀ q, Ahead data p.position q → HandledAhead data m (f q)) :
    HandledAhead data m (p.iterate >>= f) := by
  obtain ⟨hdata, hvalid, hinside⟩ := h.reached.inside htype
  obtain ⟨q, hq, hends⟩ := iterate_walk hinside hvalid
  rw [hq]
  refine hf q ⟨h.reached.iterate htype hq, fun htype' => ?_⟩
  cases hends with
  | found data_eq valid type inside moved blocks => exact moved
  | done type blocks => exact absurd type htype'

/-- The rounds of a loop that are left suffice. -/
structure Enough (data : List Byte) (p : RTCPParserV2) (fuel : Nat) : Prop where
  pos : 0 < fuel
  found : p.packetType ≠ .kInvalid → data.length + 2 ≤ p.position + fuel

theorem Ahead.enough (h : Ahead data n p) : Enough data p (data.length + 1) := by
  refine ⟨Nat.succ_pos _, fun htype => ?_⟩
  have hmoved := h.moved htype
  omega

/-- A round moves on. -/
theorem Enough.next {q : RTCPParserV2} {fuel : Nat} (h : Enough data p (fuel + 1))
    (hp : Ahead data n p) (htype : p.packetType ≠ .kInvalid) (hq : Ahead data p.position q) :
    Enough data q fuel := by
  obtain ⟨hdata, -, hinside⟩ := hp.reached.inside htype
  have hfound := h.found htype
  have hposition := position_le hinside
  rw [hdata] at hposition
  refine ⟨by omega, fun htype' => ?_⟩
  have hmoved := hq.moved htype'
  omega

theorem handleItems_ahead {type : RTCPPacketTypes} (hvalid : type ≠ .kInvalid)
    (collect : RTCPPacket → RTCPPacketInformation → RTCPPacketInformation) (fuel : Nat) :
    ∀ {p : RTCPParserV2} {info : RTCPPacketInformation}, Ahead data n p → Enough data p fuel →
      HandledAhead data n (handleItems type collect fuel p info) := by
  induction fuel with
  | zero => exact fun _ henough => absurd henough.pos (Nat.lt_irrefl 0)
  | succ fuel ih =>
    intro p info h henough
    rw [handleItems]
    split
    · next htype =>
      have hfound : p.packetType ≠ .kInvalid := by rwa [htype]
      refine h.next hfound fun q hq => ?_
      exact ih (hq.mono (Nat.le_of_lt (h.moved hfound))) (henough.next h hfound hq)
    · exact h

/-- The loop of a handler, behind the call that looks for the first item. -/
theorem Ahead.items {type : RTCPPacketTypes} (h : Ahead data n p) (htype : type ≠ .kInvalid)
    (collect : RTCPPacket → RTCPPacketInformation → RTCPPacketInformation) :
    HandledAhead data n (handleItems type collect (p.data.length + 1) p info) := by
  by_cases hfound : p.packetType = .kInvalid
  · refine handleItems_ahead htype collect _ h ⟨Nat.succ_pos _, fun h => absurd hfound h⟩
  · rw [(h.reached.inside hfound).1]
    exact handleItems_ahead htype collect _ h h.enough

/-- A handler reads on. -/
theorem handle_ahead (h : Ahead data n p) (htype : p.packetType ≠ .kInvalid) :
    HandledAhead data p.position (handle p info) := by
  have honce : ∀ info, HandledAhead data p.position (p.iterate >>= fun q => .ok (q, info)) :=
    fun info => h.next htype fun q hq => hq
  have hreport : HandledAhead data p.position (handleSenderReceiverReport p info) :=
    h.next htype fun q hq => hq.items (by simp) _
  unfold handle
  split
  · exact hreport
  · exact hreport
  · refine h.next htype fun q hq => ?_
    exact Ends.bind (hq.items (by simp) handleSDESChunk) fun r _ hr => hr
  · exact honce _
  · exact h.next htype fun q hq => hq.items (by simp) _
  · exact honce _
  · next happ =>
    cases hadd : info.addApplicationData p.packet.app.data with
    | error e =>
      rw [handleAPPItem, hadd]
      exact ⟨p, info, h.reached, happ, hadd⟩
    | ok info' =>
      rw [handleAPPItem, hadd]
      exact honce info'
  · refine h.next htype fun q hq => ?_
    dsimp only
    split
    · next hremb =>
      have hq' : q.packetType ≠ .kInvalid := by
        simp [hremb]
      have hmoved := Nat.le_of_lt (hq.moved hq')
      refine hq.next hq' fun r hr => ?_
      split
      · next hitem =>
        have hr' : r.packetType ≠ .kInvalid := by
          simp [hitem]
        refine hr.next hr' fun s hs => hs.mono ?_
        exact Nat.le_trans hmoved (Nat.le_of_lt (hr.moved hr'))
      · exact hr.mono hmoved
    · exact hq
  · exact honce _

/-- The loop of `parse_rtcp_packet` ends where nothing is found any more. -/
theorem handleAll_ends (fuel : Nat) : ∀ {p : RTCPParserV2} {info : RTCPPacketInformation},
    Ahead data n p → Enough data p fuel →
      Ends (ApplicationFault data) (fun r => Reached data r.1 ∧ r.1.packetType = .kInvalid)
        (handleAll fuel p info) := by
  induction fuel with
  | zero => exact fun _ henough => absurd henough.pos (Nat.lt_irrefl 0)
  | succ fuel ih =>
    intro p info h henough
    rw [handleAll]
    split
    · next hdone => exact ⟨h.reached, hdone⟩
    · next hfound =>
      refine Ends.bind (handle_ahead h hfound) fun r _ hr => ?_
      exact ih (hr.mono (Nat.le_of_lt (h.moved hfound))) (henough.next h hfound hr)

end Handlers

/-- `parse_rtcp_packet` goes on until nothing is found any more. It reads inside the packet; what may
fail is the copy of application data, whose length is kept in 16 bits. -/
theorem parseRtcpPacket_ends (data : List Byte) (info : RTCPPacketInformation) :
    Ends (ApplicationFault data) (fun r => Reached data r.1 ∧ r.1.packetType = .kInvalid)
      (parseRtcpPacket data info) := by
  have hbegin : ∃ p, (new data true).begin = .ok p ∧ Ahead data 0 p := by
    cases hvalid : (new data true).validPacket with
    | false =>
      have hcall := (iterate_invalid hvalid).1
      exact ⟨_, hcall, .begin hcall, fun h => absurd rfl h⟩
    | true =>
      obtain ⟨p, hp, hends⟩ := iterate_walk (p := new data true) (Nat.zero_le _) hvalid
      refine ⟨p, hp, .begin hp, fun htype => ?_⟩
      cases hends with
      | found data_eq valid type inside moved blocks => exact moved
      | done type blocks => exact absurd type htype
  obtain ⟨p, hp, hahead⟩ := hbegin
  rw [parseRtcpPacket, hp]
  exact handleAll_ends (data.length + 1) hahead hahead.enough

/-! ## The declared lengths -/

/-- The blocks that the headers lead to were accepted with the lengths computed for them. -/
theorem mem_blocksFrom {data : List Byte} {s : Nat} (start : Nat) (h : s ∈ blocksFrom data start) :
    ∃ header, parseCommonHeader data s = some header ∧
      s + header.lengthInOctets.toNat ≤ data.length := by
  induction start using blocksFrom.induct data with
  | case1 start hnone =>
    rw [blocksFrom_none hnone] at h
    cases h
  | case2 start header hsome hbad =>
    rw [blocksFrom_some hsome, if_pos hbad] at h
    cases h
  | case3 start header hsome hroom ih =>
    rw [blocksFrom_some hsome, if_neg hroom] at h
    rcases List.mem_cons.mp h with rfl | hlater
    · exact ⟨header, hsome, Nat.le_of_not_lt hroom⟩
    · cases hshort : shortReport header with
      | true =>
        rw [hshort, if_pos rfl] at hlater
        cases hlater
      | false =>
        rw [hshort, if_neg Bool.false_ne_true] at hlater
        exact ih hlater

/-- Sixteen bits hold the length that a length field below `0x4000` declares; that of `0x3fff` is
refused. -/
theorem lengthInOctets_eq {data : List Byte} {s : Nat} {header : RTCPCommonHeader}
    (h : parseCommonHeader data s = some header) (hsmall : (rdBe16 data (s + 2)).toNat < 0x4000) :
    header.lengthInOctets.toNat = declaredLength data s := by
  obtain ⟨-, hlength, hpos⟩ := parseCommonHeader_some h
  have hword : header.lengthInOctets.toNat =
      ((rdBe16 data (s + 2)).toNat + 1) % 2 ^ 16 * 4 % 2 ^ 16 := by
    rw [hlength]
    rfl
  unfold declaredLength
  omega

/-- A block of the walk has the bytes that its header declares. -/
def Fits (data : List Byte) (s : Nat) : Prop := s + declaredLength data s ≤ data.length

/-- Every block that the headers lead to whose length field is `0x4000` or more, so that sixteen bits
do not hold the length, has the bytes that it declares. -/
def LongBlocksFit (data : List Byte) : Prop :=
  ∀ s ∈ blocksFrom data 0, 0x4000 ≤ (rdBe16 data (s + 2)).toNat → Fits data s

/-- In a packet of less than `0x10004` bytes no block may have such a field. -/
theorem longBlocksFit_iff {data : List Byte} (h : data.length < 0x10004) :
    LongBlocksFit data ↔ ∀ s ∈ blocksFrom data 0, (rdBe16 data (s + 2)).toNat < 0x4000 := by
  constructor
  · intro hfit s hs
    by_contra hlong
    have hroom := hfit s hs (Nat.le_of_not_lt hlong)
    unfold Fits declaredLength at hroom
    omega
  · exact fun hsmall s hs hlong => absurd (hsmall s hs) (Nat.not_lt_of_le hlong)

/-- `parse_rtcp_packet` calls the parser until nothing is found. The walk that it so makes reads inside
the packet and ends, and the blocks that are accepted on it have the bytes that they declare. -/
def ParsesWell (data : List Byte) : Prop :=
  (∀ info, Ends (ApplicationFault data) (fun r => Reached data r.1 ∧ r.1.packetType = .kInvalid)
    (parseRtcpPacket data info)) ∧
    ∃ starts, walk data = .ok starts ∧ ∀ s ∈ starts, Fits data s

/-- The walk ends and reads inside the packet whatever the packet is. Of the lengths only those fail
that sixteen bits do not hold. -/
theorem rtcp_walk_iff (data : List Byte) : ParsesWell data ↔ LongBlocksFit data := by
  constructor
  · rintro ⟨-, starts, hwalk, hfits⟩ s hs -
    cases hwalk.symm.trans (walk_eq data)
    exact hfits s hs
  · intro hlong
    refine ⟨parseRtcpPacket_ends data, _, walk_eq data, fun s hs => ?_⟩
    by_cases hsmall : (rdBe16 data (s + 2)).toNat < 0x4000
    · obtain ⟨header, hheader, hroom⟩ := mem_blocksFrom 0 hs
      rw [Fits, ← lengthInOctets_eq hheader hsmall]
      exact hroom
    · exact hlong s hs (Nat.le_of_not_lt hsmall)

/-- A header of four bytes whose field declares 65540 is accepted as a packet. -/
theorem wrapped_length_accepted : ¬ ParsesWell [0x80, 0xcc, 0x40, 0x00] := by
  rintro ⟨-, starts, hwalk, hfits⟩
  cases hwalk.symm.trans (walk_eq _)
  have hheader : parseCommonHeader [0x80, 0xcc, 0x40, 0x00] 0 =
      some ⟨2, false, 0, PT_APP, 4⟩ := by decide
  have hmem : 0 ∈ blocksFrom [0x80, 0xcc, 0x40, 0x00] 0 := by
    rw [blocksFrom_some hheader]
    exact List.mem_cons_self
  have hlong : ¬ 0 + declaredLength [0x80, 0xcc, 0x40, 0x00] 0 ≤ 4 := by decide
  exact hlong (hfits 0 hmem)

end RtcMcu.Avformat.Rtcp
