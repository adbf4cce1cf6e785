import RtcMcu.Avformat.RtcpDec

/-!
# The items of a block

The parse functions of `RTCPParserV2` below the top level. As long as the block lies inside the packet,
each reads inside it, and either finds an item and moves on or goes to the end of the block
(`ItemEnds`, `parseItem_ends`). The zeros behind a source description may lead over the end of the
block, not the reads.
-/

namespace RtcMcu.Avformat.Rtcp.RTCPParserV2

/-! ## Reading inside the packet -/

variable {p : RTCPParserV2}

theorem nextByte_ok (h : p.ptr + 1 ≤ p.data.length) : ∃ b, p.nextByte = .ok (b, p.skip 1) :=
  ⟨_, if_pos h⟩

theorem nextUWord16_ok (h : p.ptr + 2 ≤ p.data.length) : ∃ w, p.nextUWord16 = .ok (w, p.skip 2) := by
  obtain ⟨a, ha⟩ := nextByte_ok (p := p) (by omega)
  obtain ⟨b, hb⟩ := nextByte_ok (p := p.skip 1) (show p.ptr + 1 + 1 ≤ p.data.length by omega)
  rw [nextUWord16, ha, ok_bind]
  dsimp only
  rw [hb, ok_bind]
  exact ⟨_, rfl⟩

theorem nextUWord24_ok (h : p.ptr + 3 ≤ p.data.length) : ∃ w, p.nextUWord24 = .ok (w, p.skip 3) := by
  obtain ⟨a, ha⟩ := nextByte_ok (p := p) (by omega)
  obtain ⟨b, hb⟩ := nextByte_ok (p := p.skip 1) (show p.ptr + 1 + 1 ≤ p.data.length by omega)
  obtain ⟨c, hc⟩ := nextByte_ok (p := (p.skip 1).skip 1)
    (show p.ptr + 1 + 1 + 1 ≤ p.data.length by omega)
  rw [nextUWord24, ha, ok_bind]
  dsimp only
  rw [hb, ok_bind]
  dsimp only
  rw [hc, ok_bind]
  exact ⟨_, rfl⟩

theorem nextUWord32_ok (h : p.ptr + 4 ≤ p.data.length) : ∃ w, p.nextUWord32 = .ok (w, p.skip 4) := by
  obtain ⟨a, ha⟩ := nextByte_ok (p := p) (by omega)
  obtain ⟨b, hb⟩ := nextByte_ok (p := p.skip 1) (show p.ptr + 1 + 1 ≤ p.data.length by omega)
  obtain ⟨c, hc⟩ := nextByte_ok (p := (p.skip 1).skip 1)
    (show p.ptr + 1 + 1 + 1 ≤ p.data.length by omega)
  obtain ⟨d, hd⟩ := nextByte_ok (p := ((p.skip 1).skip 1).skip 1)
    (show p.ptr + 1 + 1 + 1 + 1 ≤ p.data.length by omega)
  rw [nextUWord32, ha, ok_bind]
  dsimp only
  rw [hb, ok_bind]
  dsimp only
  rw [hc, ok_bind]
  dsimp only
  rw [hd, ok_bind]
  exact ⟨_, rfl⟩

theorem peek_ok {n : Nat} (h : p.ptr + n ≤ p.data.length) : ∃ bytes, p.peek n = .ok bytes :=
  ⟨_, if_pos h⟩

theorem nextSSRCs_ok (n : Nat) : ∀ {p : RTCPParserV2}, p.ptr + 4 * n ≤ p.data.length →
    ∃ ssrcs, nextSSRCs n p = .ok (ssrcs, p.skip (4 * n)) := by
  induction n with
  | zero => exact fun _ => ⟨[], rfl⟩
  | succ n ih =>
    intro p h
    obtain ⟨w, hw⟩ := nextUWord32_ok (p := p) (by omega)
    obtain ⟨ssrcs, hrest⟩ := ih (p := p.skip 4) (show p.ptr + 4 + 4 * n ≤ p.data.length by omega)
    have hskip : (p.skip 4).skip (4 * n) = p.skip (4 * (n + 1)) := by
      rw [skip, skip, skip]
      dsimp only
      congr 1
      omega
    rw [nextSSRCs, hw, ok_bind]
    dsimp only
    rw [hrest, ok_bind, hskip]
    exact ⟨_, rfl⟩

/-! ## Items -/

/-- What the parser keeps inside a block. -/
structure Within (p q : RTCPParserV2) : Prop where
  data : q.data = p.data
  validPacket : q.validPacket = p.validPacket
  blockEnd : q.blockEnd = p.blockEnd

/-- What a parse function of an item does: it finds one and moves on, or goes to the end of the
block. -/
inductive ItemEnds (p : RTCPParserV2) : RTCPParserV2 × Bool → Prop
  | found {q : RTCPParserV2} (within : Within p q) (state : q.state ≠ .topLevel)
      (type : q.packetType ≠ .kInvalid) (before : p.ptr < p.blockEnd) (moved : p.ptr < q.ptr) :
      ItemEnds p (q, true)
  | left {q : RTCPParserV2} (within : Within p q) (state : q.state = .topLevel)
      (ptr : q.ptr = p.blockEnd) : ItemEnds p (q, false)

theorem leave_ends {p q : RTCPParserV2} (h : Within p q) : ∃ r, q.leave = .ok r ∧ ItemEnds p r :=
  ⟨_, rfl, .left ⟨h.data, h.validPacket, h.blockEnd⟩ rfl h.blockEnd⟩

theorem Within.refl (p : RTCPParserV2) : Within p p := ⟨rfl, rfl, rfl⟩

theorem parseBYEItem_left {q : RTCPParserV2} (h : p.parseBYEItem = .ok (q, false)) :
    q.packetType = p.packetType := by
  rw [parseBYEItem] at h
  split at h
  · cases h
    rfl
  · obtain ⟨r, -, h⟩ := bind_eq_ok.mp h
    cases h

/-- The comparisons with a name. -/
theorem parseName_ends {q : RTCPParserV2} (name : List Byte) (hbefore : p.ptr < p.blockEnd)
    (hmoved : p.ptr < q.ptr ∨ p.ptr = q.ptr ∧ name ≠ []) (hq : Within p q)
    (hfit : q.ptr + name.length ≤ p.data.length) :
    ∃ r, parseName name q = .ok r ∧ ItemEnds p r := by
  induction name generalizing q with
  | nil =>
    rcases hmoved with hmoved | ⟨-, hne⟩
    · exact ⟨_, rfl, .found ⟨hq.data, hq.validPacket, hq.blockEnd⟩ (fun h => by cases h)
        (fun h => by cases h) hbefore hmoved⟩
    · exact absurd rfl hne
  | cons c name ih =>
    rw [List.length_cons] at hfit
    obtain ⟨b, hb⟩ := nextByte_ok (p := q) (by rw [hq.data]; omega)
    have hskip : Within p (q.skip 1) := ⟨hq.data, hq.validPacket, hq.blockEnd⟩
    rw [parseName, hb, ok_bind]
    dsimp only
    split
    · exact leave_ends hskip
    · refine ih (Or.inl ?_) hskip ?_
      · show p.ptr < q.ptr + 1
        omega
      · show q.ptr + 1 + name.length ≤ _
        omega

section Items

variable (hinside : p.blockEnd ≤ p.data.length)
include hinside

theorem parseReportBlockItem_ends (hstate : p.state ≠ .topLevel) :
    ∃ r, p.parseReportBlockItem = .ok r ∧ ItemEnds p r := by
  rw [parseReportBlockItem]
  split
  · exact leave_ends (.refl p)
  · next h =>
    have hleft : p.ptr + 24 ≤ p.data.length := by
      unfold left at h
      omega
    have hbefore : p.ptr < p.blockEnd := by
      unfold left at h
      omega
    obtain ⟨a, ha⟩ := nextUWord32_ok (p := p) (by omega)
    obtain ⟨b, hb⟩ := nextByte_ok (p := p.skip 4) (show p.ptr + 4 + 1 ≤ p.data.length by omega)
    obtain ⟨c, hc⟩ := nextUWord24_ok (p := (p.skip 4).skip 1)
      (show p.ptr + 4 + 1 + 3 ≤ p.data.length by omega)
    obtain ⟨d, hd⟩ := nextUWord32_ok (p := ((p.skip 4).skip 1).skip 3)
      (show p.ptr + 4 + 1 + 3 + 4 ≤ p.data.length by omega)
    obtain ⟨e, he⟩ := nextUWord32_ok (p := (((p.skip 4).skip 1).skip 3).skip 4)
      (show p.ptr + 4 + 1 + 3 + 4 + 4 ≤ p.data.length by omega)
    obtain ⟨f, hf⟩ := nextUWord32_ok (p := ((((p.skip 4).skip 1).skip 3).skip 4).skip 4)
      (show p.ptr + 4 + 1 + 3 + 4 + 4 + 4 ≤ p.data.length by omega)
    obtain ⟨g, hg⟩ := nextUWord32_ok (p := (((((p.skip 4).skip 1).skip 3).skip 4).skip 4).skip 4)
      (show p.ptr + 4 + 1 + 3 + 4 + 4 + 4 + 4 ≤ p.data.length by omega)
    simp only [ha, hb, hc, hd, he, hf, hg, ok_bind]
    simp only [skip_skip, Nat.reduceAdd]
    exact ⟨_, rfl, .found ⟨rfl, rfl, rfl⟩ hstate (fun h => by cases h) hbefore
      (Nat.lt_add_of_pos_right (Nat.succ_pos 23))⟩

theorem parseNACKItem_ends (hstate : p.state ≠ .topLevel) :
    ∃ r, p.parseNACKItem = .ok r ∧ ItemEnds p r := by
  rw [parseNACKItem]
  split
  · exact leave_ends (.refl p)
  · next h =>
    have hbefore : p.ptr < p.blockEnd := by
      unfold left at h
      omega
    have hleft : p.ptr + 4 ≤ p.data.length := by
      unfold left at h
      omega
    obtain ⟨a, ha⟩ := nextUWord16_ok (p := p) (by omega)
    obtain ⟨b, hb⟩ := nextUWord16_ok (p := p.skip 2) (show p.ptr + 2 + 2 ≤ p.data.length by omega)
    simp only [ha, hb, ok_bind]
    exact ⟨_, rfl, .found ⟨rfl, rfl, rfl⟩ hstate (fun h => by cases h) hbefore
      (show p.ptr < p.ptr + 2 + 2 by omega)⟩

theorem parseAPPItem_ends (hstate : p.state ≠ .topLevel) :
    ∃ r, p.parseAPPItem = .ok r ∧ ItemEnds p r := by
  rw [parseAPPItem]
  split
  · exact leave_ends (.refl p)
  · next h =>
    have hsize : 0 < kRtcpAppCodeDataSize := by decide
    have hbefore : p.ptr < p.blockEnd := by
      unfold left at h
      omega
    have hpos : 0 < min p.left kRtcpAppCodeDataSize := by omega
    have hleft : p.ptr + min p.left kRtcpAppCodeDataSize ≤ p.data.length := by
      have hmin := Nat.min_le_left p.left kRtcpAppCodeDataSize
      unfold left at hmin ⊢
      omega
    obtain ⟨bytes, hbytes⟩ := peek_ok hleft
    dsimp only
    rw [hbytes, ok_bind]
    exact ⟨_, rfl, .found ⟨rfl, rfl, rfl⟩ hstate (fun h => by cases h) hbefore
      (Nat.lt_add_of_pos_right hpos)⟩

theorem parseBYEItem_ends (hstate : p.state ≠ .topLevel) :
    ∃ r, p.parseBYEItem = .ok r ∧ ItemEnds p r := by
  rw [parseBYEItem]
  split
  · exact leave_ends (.refl p)
  · next h =>
    have hbefore : p.ptr < p.blockEnd := by
      unfold left at h
      omega
    have hleft : p.ptr + 4 ≤ p.data.length := by
      unfold left at h
      omega
    obtain ⟨a, ha⟩ := nextUWord32_ok hleft
    dsimp only
    rw [ha, ok_bind]
    dsimp only
    split
    · refine ⟨_, rfl, .found ⟨rfl, rfl, rfl⟩ hstate (fun h => by cases h) hbefore ?_⟩
      show p.ptr < p.ptr + 4 + (p.numberOfBlocks.toNat - 1) * 4
      omega
    · refine ⟨_, rfl, .found ⟨rfl, rfl, rfl⟩ hstate (fun h => by cases h) hbefore ?_⟩
      show p.ptr < p.ptr + 4
      omega

theorem parsePsfbAppItem_ends : ∃ r, p.parsePsfbAppItem = .ok r ∧ ItemEnds p r := by
  rw [parsePsfbAppItem]
  split
  · exact leave_ends (.refl p)
  · next h =>
    have hlength : (ascii "REMB").length = 4 := by decide
    have hname : ascii "REMB" ≠ [] := by decide
    unfold left at h
    refine parseName_ends (ascii "REMB") (by omega) (Or.inr ⟨rfl, hname⟩) (.refl p) ?_
    rw [hlength]
    omega

theorem parsePsfbREMBItem_ends (hstate : p.state ≠ .topLevel) :
    ∃ r, p.parsePsfbREMBItem = .ok r ∧ ItemEnds p r := by
  rw [parsePsfbREMBItem]
  split
  · exact leave_ends (.refl p)
  · next h =>
    have hbefore : p.ptr < p.blockEnd := by
      unfold left at h
      omega
    have hleft : p.ptr + 4 ≤ p.data.length := by
      unfold left at h
      omega
    obtain ⟨n, hn⟩ := nextByte_ok (p := p) (by omega)
    obtain ⟨a, ha⟩ := nextByte_ok (p := p.skip 1) (show p.ptr + 1 + 1 ≤ p.data.length by omega)
    obtain ⟨b, hb⟩ := nextByte_ok (p := (p.skip 1).skip 1)
      (show p.ptr + 1 + 1 + 1 ≤ p.data.length by omega)
    obtain ⟨c, hc⟩ := nextByte_ok (p := ((p.skip 1).skip 1).skip 1)
      (show p.ptr + 1 + 1 + 1 + 1 ≤ p.data.length by omega)
    simp only [hn, ha, hb, hc, ok_bind]
    split
    · exact leave_ends ⟨rfl, rfl, rfl⟩
    · next hroom =>
      have hroom' : ¬ p.blockEnd - (p.ptr + 1 + 1 + 1 + 1) < 4 * n.toNat := hroom
      obtain ⟨ssrcs, hssrcs⟩ := nextSSRCs_ok n.toNat (p := (((p.skip 1).skip 1).skip 1).skip 1)
        (show p.ptr + 1 + 1 + 1 + 1 + 4 * n.toNat ≤ p.data.length by omega)
      rw [hssrcs, ok_bind]
      exact ⟨_, rfl, .found ⟨rfl, rfl, rfl⟩ hstate (fun h => by cases h) hbefore
        (show p.ptr < p.ptr + 1 + 1 + 1 + 1 + 4 * n.toNat by omega)⟩

end Items

/-! ### Source descriptions -/

theorem Within.trans {p q r : RTCPParserV2} (h : Within p q) (h' : Within q r) : Within p r :=
  ⟨h'.data.trans h.data, h'.validPacket.trans h.validPacket, h'.blockEnd.trans h.blockEnd⟩

/-- What the loop of `ParseSDESItem` does: with a name it moved on, without one it stands behind the
item or at the end of the block. -/
structure SdesEnds (p : RTCPParserV2) (r : RTCPParserV2 × Bool) : Prop where
  within : Within p r.1
  found : r.2 = true → r.1.state ≠ .topLevel ∧ r.1.packetType ≠ .kInvalid ∧ p.ptr < p.blockEnd ∧
    p.ptr < r.1.ptr
  missed : r.2 = false → min p.ptr p.blockEnd ≤ r.1.ptr ∧
    (r.1.ptr < p.blockEnd → r.1.state ≠ .topLevel)

theorem SdesEnds.after {p q : RTCPParserV2} {r : RTCPParserV2 × Bool} (hr : SdesEnds q r)
    (h : Within p q) (hbefore : p.ptr < p.blockEnd) (hmoved : p.ptr < q.ptr) : SdesEnds p r := by
  refine ⟨h.trans hr.within, fun hfound => ?_, fun hmissed => ?_⟩
  · obtain ⟨hstate, htype, -, hptr⟩ := hr.found hfound
    exact ⟨hstate, htype, hbefore, Nat.lt_trans hmoved hptr⟩
  · obtain ⟨hptr, hstate⟩ := hr.missed hmissed
    rw [h.blockEnd] at hptr hstate
    exact ⟨by omega, hstate⟩

theorem leave_sdesEnds {p q : RTCPParserV2} (h : Within p q) :
    ∃ r, q.leave = .ok r ∧ SdesEnds p r := by
  refine ⟨_, rfl, ⟨h.data, h.validPacket, h.blockEnd⟩, (fun hfound => nomatch hfound), fun _ => ?_⟩
  have hend : q.blockEnd = p.blockEnd := h.blockEnd
  exact ⟨show min p.ptr p.blockEnd ≤ q.blockEnd by omega,
    fun hlt => absurd hlt (show ¬ q.blockEnd < p.blockEnd by omega)⟩

theorem parseSDESItem_ends (fuel : Nat) : ∀ {p : RTCPParserV2} (read : Nat) (found : Bool),
    p.blockEnd ≤ p.data.length → (p.ptr < p.blockEnd → p.state ≠ .topLevel) → p.left < fuel →
    (found = true → p.packetType ≠ .kInvalid) →
    ∃ r, parseSDESItem fuel p read found = .ok r ∧ SdesEnds p r := by
  induction fuel with
  | zero => exact fun _ _ _ _ hfuel => absurd hfuel (Nat.not_lt_zero _)
  | succ fuel ih =>
    intro p read found hinside hstate hfuel htype
    rw [parseSDESItem]
    by_cases hbefore : p.ptr < p.blockEnd
    · have hleft : p.blockEnd - p.ptr < fuel + 1 := hfuel
      obtain ⟨tag, htag⟩ := nextByte_ok (p := p) (by omega)
      rw [if_pos hbefore, htag, ok_bind]
      dsimp only
      by_cases hend : tag = 0
      · rw [if_pos hend]
        refine ⟨_, rfl, ⟨rfl, rfl, rfl⟩, fun hfound => ?_, fun _ => ?_⟩
        · refine ⟨hstate hbefore, htype hfound, hbefore, ?_⟩
          show p.ptr < p.ptr + 1 + (4 - (read + 1) % 4) % 4
          omega
        · refine ⟨?_, fun _ => hstate hbefore⟩
          show min p.ptr p.blockEnd ≤ p.ptr + 1 + (4 - (read + 1) % 4) % 4
          omega
      · rw [if_neg hend]
        by_cases hnext : (p.skip 1).ptr < (p.skip 1).blockEnd
        · have hnext' : p.ptr + 1 < p.blockEnd := hnext
          obtain ⟨len, hlen⟩ := nextByte_ok (p := p.skip 1)
            (show p.ptr + 1 + 1 ≤ p.data.length by omega)
          rw [if_pos hnext, hlen, ok_bind]
          dsimp only
          by_cases hname : tag = 1
          · rw [if_pos hname]
            split
            · exact leave_sdesEnds ⟨rfl, rfl, rfl⟩
            · next hroom =>
              have hroom' : ¬ p.blockEnd ≤ p.ptr + 1 + 1 + len.toNat := hroom
              obtain ⟨name, hpeek⟩ := peek_ok (p := (p.skip 1).skip 1) (n := len.toNat)
                (show p.ptr + 1 + 1 + len.toNat ≤ p.data.length by omega)
              rw [hpeek, ok_bind]
              split
              · obtain ⟨r, hr, hends⟩ := ih
                  (p := ({ (p.skip 1).skip 1 with
                    packet := { p.packet with cName := { p.packet.cName with cName := name } }
                    packetType := .kSdesChunk }).skip len.toNat)
                  (read + 1 + 1 + len.toNat) true hinside
                  (fun _ => hstate hbefore)
                  (by show p.blockEnd - (p.ptr + 1 + 1 + len.toNat) < fuel; omega)
                  (fun _ h => by cases h)
                refine ⟨r, hr, hends.after ⟨rfl, rfl, rfl⟩ hbefore ?_⟩
                show p.ptr < p.ptr + 1 + 1 + len.toNat
                omega
              · exact leave_sdesEnds ⟨rfl, rfl, rfl⟩
          · rw [if_neg hname]
            obtain ⟨r, hr, hends⟩ := ih (p := ((p.skip 1).skip 1).skip len.toNat)
              (read + 1 + 1 + len.toNat) found hinside
              (fun _ => hstate hbefore)
              (show p.blockEnd - (p.ptr + 1 + 1 + len.toNat) < fuel by omega) htype
            refine ⟨r, hr, hends.after ⟨rfl, rfl, rfl⟩ hbefore ?_⟩
            show p.ptr < p.ptr + 1 + 1 + len.toNat
            omega
        · rw [if_neg hnext]
          obtain ⟨r, hr, hends⟩ := ih (p := p.skip 1) (read + 1) found hinside
            (fun _ => hstate hbefore) (show p.blockEnd - (p.ptr + 1) < fuel by omega) htype
          refine ⟨r, hr, hends.after ⟨rfl, rfl, rfl⟩ hbefore ?_⟩
          show p.ptr < p.ptr + 1
          omega
    · rw [if_neg hbefore]
      exact leave_sdesEnds (.refl p)

theorem ItemEnds.after {p q : RTCPParserV2} {r : RTCPParserV2 × Bool} (hr : ItemEnds q r)
    (h : Within p q) (hbefore : p.ptr < p.blockEnd) (hmoved : p.ptr ≤ q.ptr) : ItemEnds p r := by
  cases hr with
  | found within state type _ moved =>
    exact .found (h.trans within) state type hbefore (Nat.lt_of_le_of_lt hmoved moved)
  | left within state ptr => exact .left (h.trans within) state (ptr.trans h.blockEnd)

theorem parseSDESChunks_ends (fuel : Nat) : ∀ {p : RTCPParserV2}, p.blockEnd ≤ p.data.length →
    (p.ptr < p.blockEnd → p.state ≠ .topLevel) → p.left < fuel →
    ∃ r, parseSDESChunks fuel p = .ok r ∧ ItemEnds p r := by
  induction fuel with
  | zero => exact fun _ _ hfuel => absurd hfuel (Nat.not_lt_zero _)
  | succ fuel ih =>
    intro p hinside hstate hfuel
    rw [parseSDESChunks]
    by_cases hbefore : p.ptr < p.blockEnd
    · rw [if_pos hbefore]
      split
      · exact leave_ends (.refl p)
      · next hfour =>
        have hfour' : ¬ p.blockEnd - p.ptr < 4 := hfour
        have hfuel' : p.blockEnd - p.ptr < fuel + 1 := hfuel
        obtain ⟨ssrc, hssrc⟩ := nextUWord32_ok (p := p) (by omega)
        obtain ⟨⟨q, found⟩, hitem, hends⟩ := parseSDESItem_ends ((p.skip 4).left + 1)
          (p := p.skip 4) 0 false hinside (fun _ => hstate hbefore)
          (Nat.lt_succ_self _) (fun h => by cases h)
        rw [hssrc, ok_bind]
        dsimp only
        rw [hitem, ok_bind]
        dsimp only
        have hwithin : Within p q := ⟨hends.within.data, hends.within.validPacket, hends.within.blockEnd⟩
        cases found with
        | true =>
          obtain ⟨hstate', htype, -, hptr⟩ := hends.found rfl
          have hptr' : p.ptr + 4 < q.ptr := hptr
          exact ⟨_, rfl, .found ⟨hwithin.data, hwithin.validPacket, hwithin.blockEnd⟩ hstate' htype
            hbefore (show p.ptr < q.ptr by omega)⟩
        | false =>
          obtain ⟨hptr, hstate'⟩ := hends.missed rfl
          have hptr' : min (p.ptr + 4) p.blockEnd ≤ q.ptr := hptr
          have hend : q.blockEnd = p.blockEnd := hwithin.blockEnd
          obtain ⟨r, hr, hrest⟩ := ih (p := q) (by rw [hend, hwithin.data]; exact hinside)
            (by rw [hend]; exact hstate') (by unfold left; omega)
          exact ⟨r, hr, hrest.after hwithin hbefore (by omega)⟩
    · rw [if_neg hbefore]
      exact leave_ends (.refl p)

theorem parseSDESChunk_ends (hinside : p.blockEnd ≤ p.data.length) (hstate : p.state ≠ .topLevel) :
    ∃ r, p.parseSDESChunk = .ok r ∧ ItemEnds p r := by
  rw [parseSDESChunk]
  split
  · exact leave_ends (.refl p)
  · obtain ⟨r, hr, hends⟩ := parseSDESChunks_ends
      (left { p with numberOfBlocks := p.numberOfBlocks - 1 } + 1)
      (p := { p with numberOfBlocks := p.numberOfBlocks - 1 }) hinside (fun _ => hstate)
      (Nat.lt_succ_self _)
    refine ⟨r, hr, ?_⟩
    cases hends with
    | found within state type before moved =>
      exact .found ⟨within.data, within.validPacket, within.blockEnd⟩ state type before moved
    | left within state ptr =>
      exact .left ⟨within.data, within.validPacket, within.blockEnd⟩ state ptr

/-- Inside a block every item function ends. -/
theorem parseItem_ends (hinside : p.blockEnd ≤ p.data.length) (hstate : p.state ≠ .topLevel) :
    ∃ r, p.parseItem p.state = .ok r ∧ ItemEnds p r := by
  cases h : p.state with
  | topLevel => exact absurd h hstate
  | reportBlockItem => exact parseReportBlockItem_ends hinside hstate
  | sdesChunk => exact parseSDESChunk_ends hinside hstate
  | byeItem => exact parseBYEItem_ends hinside hstate
  | rtpfbNackItem => exact parseNACKItem_ends hinside hstate
  | appItem => exact parseAPPItem_ends hinside hstate
  | psfbAppItem => exact parsePsfbAppItem_ends hinside
  | psfbRembItem => exact parsePsfbREMBItem_ends hinside hstate

end RtcMcu.Avformat.Rtcp.RTCPParserV2
