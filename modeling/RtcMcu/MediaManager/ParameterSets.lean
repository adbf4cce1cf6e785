import RtcMcu.Avcodec.NalUnits
import RtcMcu.Avformat.Sdp
import RtcMcu.MediaManager.Rtp2FlvRemuxer

/-!
# The parameter sets of a description

`set_sdp_char` walks the NAL units of an H264 medium and means to feed each parameter set to the
remuxer as a packet of its own. It copies `r - r1` bytes, where `r` is the start of the unit and `r1`
its end: the count is below zero, so the first parameter set runs out of every buffer
(`parameter_sets_fed_iff`).
-/

namespace RtcMcu.MediaManager.Rtp2FlvTransformInfo

open RtcMcu.Avformat RtcMcu.Avcodec

/-- `uint8_t data[2048]` of `set_sdp_char`. -/
def setBufferSize : Nat := 2048

/-- `memcpy` of `count` bytes from `start` on, behind the header of a packet in `data`. -/
def copySet (m : List Byte) (start : Nat) (count : BitVec 64) : Except Fault (List Byte) :=
  if rtpHeaderLen + count.toNat ≤ setBufferSize then slice m start count.toNat
  else .error .outOfBounds

/-- The loop of `set_sdp_char` over a medium's NAL units, with the payloads of the packets it has fed.
The test before the copy never ends it: `r1` is the end or a start code before it, and
`r + (r - r1)` is at most `r`. -/
def feedLoop (m : List Byte) : Nat → Nat → List (List Byte) → Except Fault (List (List Byte))
  | 0, _, _ => .error .outOfFuel
  | fuel + 1, r, fed =>
    if r < m.length then do
      let start := behindZeros m r
      let next := findStartcode m start
      let header ← readByte m start
      if isParameterSet header then
        if m.length < next ∨ (m.length : Int) < start + ((start : Int) - next) then .ok fed
        else do
          let bytes ← copySet m start (BitVec.ofNat 64 start - BitVec.ofNat 64 next)
          feedLoop m fuel next (fed ++ [bytes])
      else feedLoop m fuel next fed
    else .ok fed

/-- The packets fed of an `extra_data`. -/
def feedParameterSets (extraData : List Byte) : Except Fault (List (List Byte)) :=
  feedLoop extraData (extraData.length + 1) (findStartcode extraData 0) []

/-! ## What the loop comes to -/

/-- What `readParameterSets` does with a unit, whatever the loop carries along. -/
def refuseSet {σ : Type} (s : σ) (nal : NalUnit) : Except Fault σ :=
  if nalType nal.header = NAL_SPS ∨ nalType nal.header = NAL_PPS then .error .outOfBounds else .ok s

theorem refuseSet_eq {σ : Type} (s : σ) (nal : NalUnit) :
    refuseSet s nal = if isParameterSet nal.header then .error .outOfBounds else .ok s := by
  unfold refuseSet isParameterSet
  simp only [Bool.or_eq_true, beq_iff_eq]

/-- A count below zero does not fit the buffer. -/
theorem copySet_negative {m : List Byte} {start next : Nat} (hlt : start < next)
    (hnext : next < 2 ^ 32) :
    copySet m start (BitVec.ofNat 64 start - BitVec.ofNat 64 next) = .error .outOfBounds := by
  have hcount : (BitVec.ofNat 64 start - BitVec.ofNat 64 next).toNat = 2 ^ 64 + start - next := by
    simp only [BitVec.toNat_sub, BitVec.toNat_ofNat]
    omega
  rw [copySet, hcount, if_neg]
  have hbuffer : setBufferSize = 2048 := rfl
  omega

/-- A parameter set is not empty: of an empty unit the first byte of the next start code is read. -/
theorem lt_findStartcode {m : List Byte} {start : Nat} (hlt : start < m.length)
    (hset : isParameterSet (byteAt m start) = true) : start < findStartcode m start := by
  rw [findStartcode_eq (Nat.le_of_lt hlt)]
  by_contra hle
  have hnil : (cutUnit (m.drop start)).1 = [] := List.eq_nil_of_length_eq_zero (by omega)
  have hheader := congrArg NalUnit.header (unit_at hlt)
  have hzero : byteAt m start = 0 := by
    rw [hnil] at hheader
    exact hheader
  rw [hzero] at hset
  exact absurd hset (by decide)

/-- The loop refuses the first parameter set, and feeds nothing. -/
theorem feedLoop_eq {m : List Byte} (hlen : m.length < 2 ^ 32) (fuel : Nat) :
    ∀ (r : Nat) (fed : List (List Byte)), m.drop r = [] ∨ startsCode (m.drop r) = true →
      m.length - r ≤ fuel →
      feedLoop m (fuel + 1) r fed = scanCodes m refuseSet (fun _ => false) fuel r fed := by
  induction fuel with
  | zero =>
    intro r fed _ hfuel
    rw [feedLoop, if_neg (by omega)]
    rfl
  | succ fuel ih =>
    intro r fed hat hfuel
    rw [feedLoop, scanCodes]
    by_cases hlt : r < m.length
    case neg => rw [if_neg hlt, if_neg hlt]
    case pos =>
      have hne : m.drop r ≠ [] := by
        intro hnil
        have hle := List.drop_eq_nil_iff.mp hnil
        omega
      have hcode := hat.resolve_left hne
      have hstart : behindZeros m r < m.length := by
        have hbehind := behindZeros_lt hcode
        rw [List.length_drop] at hbehind
        rw [behindZeros_eq]
        omega
      have hmore : r < behindZeros m r := by
        unfold behindZeros
        omega
      have hnext := findStartcode_eq (Nat.le_of_lt hstart)
      have hread : readByte m (behindZeros m r) = .ok (byteAt m (behindZeros m r)) := by
        simp only [readByte, dif_pos hstart, byteAt, List.getD_eq_getElem?_getD,
          List.getElem?_eq_getElem hstart, Option.getD_some]
      rw [if_pos hlt, if_pos hlt]
      dsimp only
      rw [hread, ok_bind, refuseSet_eq]
      dsimp only
      have hfirst := firstCode_findStartcode (Nat.le_of_lt hstart)
      by_cases hset : isParameterSet (byteAt m (behindZeros m r)) = true
      case pos =>
        have hbelow := lt_findStartcode hstart hset
        have hupper := hfirst.upper
        rw [if_pos hset, if_pos hset, if_neg (by omega),
          copySet_negative hbelow (Nat.lt_of_le_of_lt hupper hlen)]
        rfl
      case neg =>
        have hdrop : m.drop (findStartcode m (behindZeros m r)) =
            (cutUnit (m.drop (behindZeros m r))).2 := by
          rw [hnext, ← List.drop_drop, drop_cutUnit]
        rw [if_neg hset, if_neg hset, ok_bind, if_neg Bool.false_ne_true]
        apply ih _ fed (hdrop ▸ cutUnit_rest _)
        rw [hnext]
        omega

/-- Over its units, the scan ends at the first parameter set. -/
theorem visitUnits_refuseSet {σ : Type} (units : List (List Byte)) (s : σ) :
    visitUnits refuseSet (fun _ => false) units s =
      if parameterSets units = [] then .ok s else .error .outOfBounds := by
  induction units with
  | nil => rfl
  | cons u us ih =>
    rw [visitUnits, refuseSet_eq]
    have hheader : (NalUnit.ofBytes u).header = u.headD 0 := rfl
    rw [hheader]
    by_cases hset : isParameterSet (u.headD 0) = true
    case pos =>
      have hne : parameterSets (u :: us) ≠ [] := by
        simp only [parameterSets, List.filter_cons, if_pos hset]
        exact List.cons_ne_nil _ _
      rw [if_pos hset, if_neg hne]
      rfl
    case neg =>
      have hsets : parameterSets (u :: us) = parameterSets us := by
        simp only [parameterSets, List.filter_cons, if_neg hset]
      rw [if_neg hset, hsets, ok_bind, if_neg Bool.false_ne_true, ih]

/-- The loop feeds nothing, and gets through only where there is nothing to feed. -/
theorem feedParameterSets_eq {m : List Byte} (hlen : m.length < 2 ^ 32) :
    feedParameterSets m =
      if parameterSets (codeUnits m) = [] then .ok [] else .error .outOfBounds := by
  have hdrop : m.drop (findStartcode m 0) = (cutUnit m).2 := by
    rw [findStartcode_eq (Nat.zero_le _), List.drop_zero, Nat.zero_add, drop_cutUnit]
  rw [feedParameterSets, feedLoop_eq hlen m.length _ [] (hdrop ▸ cutUnit_rest m) (Nat.sub_le _ _),
    scanCodes_codeUnits, visitUnits_refuseSet]

/-- `readParameterSets` is the loop without what it feeds. -/
theorem readParameterSets_eq {m : List Byte} (hlen : m.length < 2 ^ 32) :
    readParameterSets m = (feedParameterSets m).map fun _ => () := by
  have hread : readParameterSets m =
      scanCodes m refuseSet (fun _ => false) m.length (findStartcode m 0) () := rfl
  rw [hread, scanCodes_codeUnits, visitUnits_refuseSet, feedParameterSets_eq hlen]
  split
  · rfl
  · rfl

/-! ## The claim on descriptions -/

/-- Of NAL units behind start codes, the loop of `set_sdp_char` feeds exactly the parameter sets, and
the description is taken, if and only if there is no parameter set among them. -/
theorem parameter_sets_fed_iff (nals : List (List Byte)) (hnals : ∀ nal ∈ nals, Uncoded nal)
    (hlen : (coded nals).length ≤ setBufferSize) :
    (feedParameterSets (coded nals) = .ok (parameterSets nals) ↔ parameterSets nals = []) ∧
      ∀ (count : Nat) (info : Rtp2FlvTransformInfo) (media : SdpMedia),
        media.payloadType = RTP_AV_H264.setWidth 16 → media.extraData = coded nals →
        ((∃ info', setMedia count info media = .ok info') ↔ parameterSets nals = []) := by
  have hbuffer : setBufferSize = 2048 := rfl
  have hsmall : (coded nals).length < 2 ^ 32 := by omega
  have hfeed := feedParameterSets_eq hsmall
  rw [codeUnits_coded hnals] at hfeed
  refine ⟨?_, fun count info media htype hextra => ?_⟩
  · rw [hfeed]
    by_cases hnone : parameterSets nals = []
    case pos =>
      rw [if_pos hnone, hnone]
      exact iff_of_true rfl rfl
    case neg =>
      rw [if_neg hnone]
      exact iff_of_false (fun h => by cases h) hnone
  · rw [setMedia, if_pos htype, hextra, readParameterSets_eq hsmall, hfeed]
    by_cases hnone : parameterSets nals = []
    case pos =>
      rw [if_pos hnone]
      exact iff_of_true ⟨_, rfl⟩ hnone
    case neg =>
      rw [if_neg hnone]
      refine iff_of_false ?_ hnone
      rintro ⟨info', h⟩
      cases h

/-- An access unit delimiter and a supplemental unit. -/
def otherUnits : List (List Byte) := [[0x09, 0xf0], [0x06, 5, 1, 2]]

theorem otherUnits_uncoded : ∀ nal ∈ otherUnits, Uncoded nal := by
  intro nal hnal
  rcases List.mem_cons.mp hnal with rfl | hnal
  · exact ⟨by decide, by decide⟩
  · cases List.mem_singleton.mp hnal
    exact ⟨by decide, by decide⟩

theorem parameter_sets_fed_iff_none :
    (∀ nal ∈ otherUnits, Uncoded nal) ∧ (coded otherUnits).length ≤ setBufferSize ∧
      feedParameterSets (coded otherUnits) = .ok (parameterSets otherUnits) :=
  ⟨otherUnits_uncoded, by decide,
    (parameter_sets_fed_iff otherUnits otherUnits_uncoded (by decide)).1.mpr (by decide)⟩

/-- The one parameter set that `sprop-parameter-sets=Z0I=` gives is copied with a count below
zero. -/
theorem parameter_set_not_fed :
    Sdp.h264ParseSpropParameterSets (ascii "Z0I=") = some (coded [[0x67, 0x42]]) ∧
      ¬ ∀ nals : List (List Byte), (∀ nal ∈ nals, Uncoded nal) →
        (coded nals).length ≤ setBufferSize →
        feedParameterSets (coded nals) = .ok (parameterSets nals) := by
  refine ⟨by decide, fun hclaim => ?_⟩
  have huncoded : ∀ nal ∈ [[0x67, 0x42]], Uncoded nal := by
    intro nal hnal
    cases List.mem_singleton.mp hnal
    exact ⟨by decide, by decide⟩
  have hfed := hclaim [[0x67, 0x42]] huncoded (by decide)
  rw [feedParameterSets_eq (by decide), codeUnits_coded huncoded, if_neg (by decide)] at hfed
  cases hfed

end RtcMcu.MediaManager.Rtp2FlvTransformInfo
