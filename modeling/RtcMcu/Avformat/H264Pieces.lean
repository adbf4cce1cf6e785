import RtcMcu.Avformat.RtpEncH264
import Mathlib.Tactic.Common

/-!
# The pieces of a NAL unit

What `nal_generate` puts on the wire, said without the encoder: the payloads that carry a unit, in
order, and whether each ends the frame (`unitPieces`, `framePieces`). The encoder sends exactly these
(`generateUnits_sends`), and read as a receiver reads them they add up to the unit behind a start code
(`unitPieces_flatMap`).
-/

namespace RtcMcu.Avformat

open RtcMcu.Avcodec (slice h264SplitCode)
open RTPEncodeH264 (packetNum lastPackSize)

/-- What a packet tells of a unit: whether it ends the frame, and its payload. -/
structure Piece where
  marker : Bool
  payload : List Byte

/-- The piece a packet carries. -/
def RTPData.piece (data : RTPData) : Piece where
  marker := data.header.marker == 1
  payload := data.header.data

/-- The fragment `i` of `num`. -/
def fragmentPiece (nalu : Nalu) (last : Bool) (max num i : Nat) : Piece where
  marker := decide (i = num - 1) && last
  payload :=
    naluHeader nalu.f nalu.nri FU_A ::
      fuHeader (BitVec.ofBool (i = 0)) (BitVec.ofBool (decide (i = num - 1))) 0 nalu.type ::
        (nalu.buf.drop (i * max + 1)).take max

/-- The pieces of one unit, each with at most `max` of its bytes. -/
def unitPieces (max : Nat) (nal : List Byte) (last : Bool) : List Piece :=
  match nal with
  | [] => []
  | header :: bytes =>
    let nalu := Nalu.read header nal
    if nal.length < max then
      [{ marker := last, payload := naluHeader nalu.f nalu.nri nalu.type :: bytes }]
    else
      let num := packetNum nal.length max
      (List.range num).map (fragmentPiece nalu last max num)

/-- The pieces of a frame. -/
def framePieces (max : Nat) : List (List Byte) → List Piece
  | [] => []
  | [nal] => unitPieces max nal true
  | nal :: next :: nals => unitPieces max nal false ++ framePieces max (next :: nals)

/-! ## How many fragments -/

theorem packetNum_pos {len max : Nat} (hmax : 0 < max) (hlen : max ≤ len) :
    0 < packetNum len max := by
  have hdiv : 0 < len / max := Nat.div_pos hlen hmax
  rw [packetNum]
  split <;> omega

/-- All fragments but the last are full, and the last is not empty before its first byte is left
out. -/
theorem packetNum_spec {len max : Nat} (hmax : 0 < max) (hlen : max ≤ len) :
    (packetNum len max - 1) * max < len ∧ len ≤ packetNum len max * max := by
  have hdiv : 0 < len / max := Nat.div_pos hlen hmax
  have hmod : max * (len / max) + len % max = len := Nat.div_add_mod len max
  have hlt : len % max < max := Nat.mod_lt _ hmax
  rw [packetNum]
  split
  case isTrue h =>
    rw [Nat.add_sub_cancel, Nat.add_mul, Nat.one_mul, Nat.mul_comm (len / max)]
    omega
  case isFalse h =>
    rw [Nat.sub_mul, Nat.one_mul, Nat.mul_comm (len / max)]
    omega

/-- The bytes the loop copies into fragment `i` are the next `max` bytes, or those that are left. -/
theorem slice_fragment {buf : List Byte} {max i : Nat} (hmax : 0 < max) (hlen : max ≤ buf.length)
    (hi : i < packetNum buf.length max) :
    slice buf (i * max + 1)
        (if i = packetNum buf.length max - 1 then lastPackSize buf.length max - 1 else max) =
      .ok ((buf.drop (i * max + 1)).take max) := by
  obtain ⟨hlow, hhigh⟩ := packetNum_spec hmax hlen
  rw [slice]
  split
  case isTrue h =>
    have hsize : lastPackSize buf.length max - 1 = buf.length - (i * max + 1) := by
      rw [lastPackSize, h]
      omega
    have hrest : buf.length - (i * max + 1) ≤ max := by
      have hnum : packetNum buf.length max = i + 1 := by omega
      rw [hnum, Nat.add_mul, Nat.one_mul] at hhigh
      omega
    have hi' : i * max < buf.length := by rwa [h]
    rw [hsize, if_pos (by omega)]
    have htake : (buf.drop (i * max + 1)).length = buf.length - (i * max + 1) :=
      List.length_drop
    rw [List.take_of_length_le (by omega), List.take_of_length_le (by omega)]
  case isFalse h =>
    have hnext : (i + 1) * max ≤ (packetNum buf.length max - 1) * max :=
      Nat.mul_le_mul_right max (by omega)
    rw [Nat.add_mul, Nat.one_mul] at hnext
    rw [if_pos (by omega)]

/-! ## The encoder sends the pieces -/

/-- A packet as `build_rtp_header` and the end of the loop make it. -/
structure RTPData.Framed (timestamp : BitVec 32) (data : RTPData) : Prop where
  payload : data.header.payload = RTP_AV_H264
  extension : data.header.extension = 0
  timestamp : data.header.timestamp = timestamp
  len : data.len.toNat = rtpHeaderLen + data.header.data.length

namespace RTPEncodeH264

/-- The encoder went from `enc` to `enc'` by sending the pieces. -/
structure Sends (enc : RTPEncodeH264) (timestamp : BitVec 32) (pieces : List Piece)
    (enc' : RTPEncodeH264) : Prop where
  maxRtpPacketLen : enc'.maxRtpPacketLen = enc.maxRtpPacketLen
  sampleRate : enc'.sampleRate = enc.sampleRate
  packets : ∃ sent, enc'.rtpDataVec = enc.rtpDataVec ++ sent ∧ sent.map RTPData.piece = pieces ∧
    ∀ data ∈ sent, data.Framed (enc.rtpTimestamp timestamp)

variable {enc enc₁ enc₂ : RTPEncodeH264} {timestamp : BitVec 32}

theorem Sends.refl : enc.Sends timestamp [] enc := by
  refine ⟨rfl, rfl, [], ?_, rfl, ?_⟩
  · rw [List.append_nil]
  · intro data h
    cases h

theorem Sends.append {pieces₁ pieces₂ : List Piece} (h₁ : enc.Sends timestamp pieces₁ enc₁)
    (h₂ : enc₁.Sends timestamp pieces₂ enc₂) :
    enc.Sends timestamp (pieces₁ ++ pieces₂) enc₂ := by
  obtain ⟨hlen₁, hrate₁, sent₁, hvec₁, hpieces₁, hframed₁⟩ := h₁
  obtain ⟨hlen₂, hrate₂, sent₂, hvec₂, hpieces₂, hframed₂⟩ := h₂
  have hts : enc₁.rtpTimestamp timestamp = enc.rtpTimestamp timestamp := by
    rw [rtpTimestamp, rtpTimestamp, hrate₁]
  refine ⟨hlen₂.trans hlen₁, hrate₂.trans hrate₁, sent₁ ++ sent₂, ?_, ?_, ?_⟩
  · rw [hvec₂, hvec₁, List.append_assoc]
  · rw [List.map_append, hpieces₁, hpieces₂]
  · intro data hdata
    rcases List.mem_append.mp hdata with h | h
    · exact hframed₁ data h
    · rw [← hts]
      exact hframed₂ data h

/-- A packet that fits its block is sent. -/
theorem pushPacket_sends {maker : Bool} {payload : List Byte}
    (hfit : rtpHeaderLen + payload.length ≤ enc.maxRtpPacketLen.toNat) :
    ∃ enc', enc.pushPacket timestamp maker payload = .ok enc' ∧
      enc.Sends timestamp [{ marker := maker, payload := payload }] enc' := by
  refine ⟨_, if_pos hfit, rfl, rfl, [_], rfl, ?_, ?_⟩
  · cases maker <;> rfl
  · intro data hdata
    rw [List.mem_singleton] at hdata
    subst hdata
    refine ⟨rfl, rfl, rfl, ?_⟩
    have hlt : rtpHeaderLen + payload.length < 2 ^ 16 :=
      Nat.lt_of_le_of_lt hfit enc.maxRtpPacketLen.isLt
    exact Nat.mod_eq_of_lt hlt

/-- A loop whose every round sends a piece sends them all. -/
theorem foldlM_sends {f : RTPEncodeH264 → Nat → Except Fault RTPEncodeH264} {piece : Nat → Piece}
    {maxLen : BitVec 16} (l : List Nat)
    (h : ∀ i ∈ l, ∀ e : RTPEncodeH264, e.maxRtpPacketLen = maxLen →
      ∃ e', f e i = .ok e' ∧ e.Sends timestamp [piece i] e')
    (hmax : enc.maxRtpPacketLen = maxLen) :
    ∃ enc', l.foldlM f enc = .ok enc' ∧ enc.Sends timestamp (l.map piece) enc' := by
  induction l generalizing enc with
  | nil => exact ⟨enc, rfl, Sends.refl⟩
  | cons i l ih =>
    obtain ⟨enc₁, hstep, hsends₁⟩ := h i List.mem_cons_self enc hmax
    obtain ⟨enc₂, hrest, hsends₂⟩ :=
      ih (fun j hj => h j (List.mem_cons_of_mem i hj)) (hsends₁.maxRtpPacketLen.trans hmax)
    refine ⟨enc₂, ?_, hsends₁.append hsends₂⟩
    rw [List.foldlM_cons, hstep, ok_bind, hrest]

/-- From 23 bytes a packet on, a packet has room for a header, ten more bytes and a byte of the
unit. -/
theorem getMaxPayloadLen_toNat (hmax : 23 ≤ enc.maxRtpPacketLen.toNat) :
    enc.getMaxPayloadLen.toNat + 22 = enc.maxRtpPacketLen.toNat := by
  have hlt := enc.maxRtpPacketLen.isLt
  rw [getMaxPayloadLen, rtpHeaderLen, BitVec.toNat_sub, BitVec.toNat_sub]
  simp only [BitVec.toNat_ofNat, BitVec.reduceToNat]
  omega

/-- A short unit is the payload of one packet. -/
theorem singlePacket_eq (enc : RTPEncodeH264) (timestamp : BitVec 32) (header : Byte)
    (bytes : List Byte) (last : Bool) :
    enc.singlePacket (Nalu.read header (header :: bytes)) timestamp last =
      enc.pushPacket timestamp last
        (naluHeader (Nalu.read header (header :: bytes)).f (Nalu.read header (header :: bytes)).nri
          (Nalu.read header (header :: bytes)).type :: bytes) := by
  have hslice : slice (header :: bytes) 1 ((header :: bytes).length - 1) = .ok bytes := by
    rw [slice, if_pos (by rw [List.length_cons]; omega)]
    simp only [List.drop_succ_cons, List.drop_zero, List.length_cons, Nat.add_sub_cancel,
      List.take_length]
  show (slice (header :: bytes) 1 ((header :: bytes).length - 1) >>= _) = _
  rw [hslice, ok_bind]

/-- `nal_generate` sends the pieces of the unit. -/
theorem nalGenerate_sends {nal : List Byte} {last : Bool}
    (hmax : 23 ≤ enc.maxRtpPacketLen.toNat) (hnal : nal ≠ []) :
    ∃ enc', enc.nalGenerate nal timestamp last = .ok enc' ∧
      enc.Sends timestamp (unitPieces enc.getMaxPayloadLen.toNat nal last) enc' := by
  have hroom := getMaxPayloadLen_toNat hmax
  obtain ⟨header, bytes, rfl⟩ := List.exists_cons_of_ne_nil hnal
  simp only [nalGenerate, unitPieces]
  by_cases hshort : (header :: bytes).length < enc.getMaxPayloadLen.toNat
  case pos =>
    rw [if_pos hshort, if_pos (show (Nalu.read header (header :: bytes)).len < _ from hshort),
      singlePacket_eq]
    apply pushPacket_sends
    rw [List.length_cons] at hshort ⊢
    rw [rtpHeaderLen]
    omega
  case neg =>
    have hlen : enc.getMaxPayloadLen.toNat ≤ (header :: bytes).length := Nat.le_of_not_lt hshort
    rw [if_neg hshort, if_neg (show ¬(Nalu.read header (header :: bytes)).len < _ from hshort),
      if_neg (by omega)]
    refine foldlM_sends _ (fun i hi e he => ?_) (rfl : enc.maxRtpPacketLen = _)
    have hi' : i < packetNum (header :: bytes).length enc.getMaxPayloadLen.toNat :=
      List.mem_range.mp hi
    have hpush : fragmentPacket (Nalu.read header (header :: bytes)) timestamp last
        enc.getMaxPayloadLen.toNat e i =
        e.pushPacket timestamp
          (fragmentPiece (Nalu.read header (header :: bytes)) last enc.getMaxPayloadLen.toNat
            (packetNum (header :: bytes).length enc.getMaxPayloadLen.toNat) i).marker
          (fragmentPiece (Nalu.read header (header :: bytes)) last enc.getMaxPayloadLen.toNat
            (packetNum (header :: bytes).length enc.getMaxPayloadLen.toNat) i).payload := by
      show (slice (header :: bytes) _ _ >>= _) = _
      have hslice := slice_fragment (by omega) hlen hi'
      exact (congrArg (· >>= _) hslice).trans rfl
    rw [hpush]
    apply pushPacket_sends
    simp only [fragmentPiece, List.length_cons, List.length_take]
    rw [he, rtpHeaderLen]
    omega

variable (timestamp) in
/-- The units of a frame are sent as the pieces of the frame. -/
theorem generateUnits_sends {nals : List (List Byte)} (hmax : 23 ≤ enc.maxRtpPacketLen.toNat)
    (hnals : ∀ nal ∈ nals, nal ≠ []) :
    ∃ enc', generateUnits timestamp enc nals = .ok enc' ∧
      enc.Sends timestamp (framePieces enc.getMaxPayloadLen.toNat nals) enc' := by
  induction nals generalizing enc with
  | nil => exact ⟨enc, rfl, Sends.refl⟩
  | cons nal nals ih =>
    cases nals with
    | nil => exact nalGenerate_sends hmax (hnals nal List.mem_cons_self)
    | cons next nals =>
      obtain ⟨enc₁, hfirst, hsends₁⟩ : ∃ enc', enc.nalGenerate nal timestamp false = .ok enc' ∧
          enc.Sends timestamp (unitPieces enc.getMaxPayloadLen.toNat nal false) enc' :=
        nalGenerate_sends hmax (hnals nal List.mem_cons_self)
      have hlen := hsends₁.maxRtpPacketLen
      obtain ⟨enc₂, hrest, hsends₂⟩ :=
        ih (show 23 ≤ enc₁.maxRtpPacketLen.toNat by rwa [hlen]) fun n hn =>
          hnals n (List.mem_cons_of_mem nal hn)
      have hpayload : enc₁.getMaxPayloadLen = enc.getMaxPayloadLen := by
        rw [getMaxPayloadLen, getMaxPayloadLen, hlen]
      rw [hpayload] at hsends₂
      refine ⟨enc₂, ?_, hsends₁.append hsends₂⟩
      rw [generateUnits, hfirst, ok_bind, hrest]

end RTPEncodeH264

/-! ## Reading the pieces -/

/-- The payload starts a unit: it is not a fragment, or it is a first one. -/
def starts : List Byte → Bool
  | [] => false
  | indicator :: rest =>
    indicator &&& 0x1f != 28 ||
      match rest with
      | [] => false
      | fragment :: _ => fragment &&& 0x80 != 0

/-- A fragment has its fragment header. -/
def readable : List Byte → Bool
  | [] => false
  | indicator :: rest => indicator &&& 0x1f != 28 || rest != []

/-- What a payload adds to a frame whose units stand behind start codes. -/
def unwrap : List Byte → List Byte
  | [] => []
  | indicator :: rest =>
    if indicator &&& 0x1f ≠ 28 then h264SplitCode ++ indicator :: rest
    else
      match rest with
      | [] => []
      | fragment :: bytes =>
        (if fragment &&& 0x80 ≠ 0 then
          h264SplitCode ++ [(indicator &&& 0xe0) ||| (fragment &&& 0x1f)] else []) ++ bytes

theorem unwrap_ne_nil {payload : List Byte} (h : starts payload = true) : unwrap payload ≠ [] := by
  rcases payload with _ | ⟨indicator, _ | ⟨fragment, bytes⟩⟩
  · cases h
  · have hunit : indicator &&& 0x1f ≠ 28 := by
      simpa only [starts, Bool.or_false, bne_iff_ne] using h
    rw [unwrap, if_pos hunit]
    exact List.cons_ne_nil _ _
  · rw [unwrap]
    split
    · exact List.cons_ne_nil _ _
    · next hunit =>
      have hstart : fragment &&& 0x80 ≠ 0 := by
        simpa only [starts, Bool.or_eq_true, bne_iff_ne, hunit, false_or] using h
      rw [if_pos hstart]
      exact List.cons_ne_nil _ _

/-- A unit that RTP carries as it is: its forbidden bit is 0 and its type is one of a single unit. -/
structure Carried (nal : List Byte) : Prop where
  ne_nil : nal ≠ []
  forbidden : byteAt nal 0 &&& 0x80 = 0
  type_pos : 1 ≤ (byteAt nal 0 &&& 0x1f).toNat
  type_le : (byteAt nal 0 &&& 0x1f).toNat ≤ 23

section Headers

variable {header : Byte} {bytes : List Byte}

/-- The header that is put together from the fields of a unit's header is that header. -/
theorem naluHeader_read (h : header &&& 0x80 = 0) (buf : List Byte) :
    naluHeader (Nalu.read header buf).f (Nalu.read header buf).nri (Nalu.read header buf).type =
      header := by
  have hall : ∀ b : Byte, b &&& 0x80 = 0 →
      naluHeader (Nalu.read b []).f (Nalu.read b []).nri (Nalu.read b []).type = b := by
    decide +kernel
  exact hall header h

theorem naluHeader_fragment (nalu : Nalu) :
    naluHeader nalu.f nalu.nri FU_A &&& 0x1f = 28 := by
  have hall : ∀ (f : BitVec 1) (nri : BitVec 2), naluHeader f nri FU_A &&& 0x1f = 28 := by
    decide +kernel
  exact hall _ _

theorem fuHeader_start (s : Bool) (e : BitVec 1) (type : BitVec 5) :
    fuHeader (BitVec.ofBool s) e 0 type &&& 0x80 ≠ 0 ↔ s = true := by
  have hall : ∀ (s : Bool) (e : BitVec 1) (type : BitVec 5),
      fuHeader (BitVec.ofBool s) e 0 type &&& 0x80 ≠ 0 ↔ s = true := by
    decide +kernel
  exact hall s e type

/-- The unit's header comes back from an indicator and a fragment header. -/
theorem header_rebuilt (h : header &&& 0x80 = 0) (buf : List Byte) (s e : BitVec 1) :
    (naluHeader (Nalu.read header buf).f (Nalu.read header buf).nri FU_A &&& 0xe0) |||
      (fuHeader s e 0 (Nalu.read header buf).type &&& 0x1f) = header := by
  have hall : ∀ b : Byte, b &&& 0x80 = 0 → ∀ s e : BitVec 1,
      (naluHeader (Nalu.read b []).f (Nalu.read b []).nri FU_A &&& 0xe0) |||
        (fuHeader s e 0 (Nalu.read b []).type &&& 0x1f) = b := by
    decide +kernel
  exact hall header h s e

end Headers

section Unit

variable {nal : List Byte} {max : Nat} (last : Bool)

/-- The first `n` fragments add up to the unit's header and the first `n * max` bytes behind it. -/
theorem fragments_flatMap {header : Byte} (h : header &&& 0x80 = 0) (num n : Nat) :
    (List.range n).flatMap
        (fun i => unwrap (fragmentPiece (Nalu.read header nal) last max num i).payload) =
      (if n = 0 then [] else h264SplitCode ++ [header]) ++ (nal.drop 1).take (n * max) := by
  induction n with
  | zero => simp only [List.range_zero, List.flatMap_nil, if_true, Nat.zero_mul, List.take_zero,
      List.append_nil]
  | succ n ih =>
    have hpiece : unwrap (fragmentPiece (Nalu.read header nal) last max num n).payload =
        (if n = 0 then h264SplitCode ++ [header] else []) ++ (nal.drop (n * max + 1)).take max := by
      rw [fragmentPiece, unwrap, if_neg (not_not.mpr (naluHeader_fragment _)), header_rebuilt h]
      congr 1
      by_cases hn : n = 0
      · rw [if_pos hn, if_pos ((fuHeader_start _ _ _).mpr (decide_eq_true hn))]
      · rw [if_neg hn, if_neg fun hs => hn (of_decide_eq_true ((fuHeader_start _ _ _).mp hs))]
    have htake : (nal.drop 1).take ((n + 1) * max) =
        (nal.drop 1).take (n * max) ++ (nal.drop (n * max + 1)).take max := by
      rw [Nat.add_mul, Nat.one_mul, List.take_add, List.drop_drop, Nat.add_comm 1]
    rw [List.range_succ, List.flatMap_append, ih, List.flatMap_singleton, hpiece, htake,
      if_neg (Nat.succ_ne_zero n)]
    by_cases hn : n = 0
    · subst hn
      simp only [if_true, List.nil_append, Nat.zero_mul, List.take_zero]
    · simp only [if_neg hn, List.nil_append, List.append_assoc]

/-- The pieces of a unit add up to the unit behind a start code. -/
theorem unitPieces_flatMap (hmax : 0 < max) (h : Carried nal) :
    (unitPieces max nal last).flatMap (fun p => unwrap p.payload) = h264SplitCode ++ nal := by
  obtain ⟨hne, hforbidden, -, htype⟩ := h
  obtain ⟨header, bytes, rfl⟩ := List.exists_cons_of_ne_nil hne
  rw [byteAt_cons_zero] at hforbidden htype
  rw [unitPieces]
  by_cases hshort : (header :: bytes).length < max
  · have hunit : header &&& 0x1f ≠ 28 := fun heq => absurd (heq ▸ htype) (by decide)
    simp only [if_pos hshort, List.flatMap_singleton, naluHeader_read hforbidden, unwrap,
      if_pos hunit]
  · have hlen : max ≤ (header :: bytes).length := Nat.le_of_not_lt hshort
    have hpos := packetNum_pos hmax hlen
    obtain ⟨-, hhigh⟩ := packetNum_spec hmax hlen
    have hall : bytes.length ≤ packetNum (header :: bytes).length max * max := by
      rw [List.length_cons] at hhigh ⊢
      omega
    simp only [if_neg hshort, List.flatMap_map]
    rw [fragments_flatMap last hforbidden, if_neg (by omega), List.drop_succ_cons, List.drop_zero,
      List.take_of_length_le hall, List.append_assoc]
    rfl

/-- A unit's pieces can be read, and the first of them starts the unit. -/
theorem unitPieces_readable (hmax : 0 < max) (h : Carried nal) :
    (∀ p ∈ unitPieces max nal last, readable p.payload = true) ∧
      ∀ p ∈ (unitPieces max nal last).head?, starts p.payload = true := by
  obtain ⟨hne, hforbidden, -, htype⟩ := h
  obtain ⟨header, bytes, rfl⟩ := List.exists_cons_of_ne_nil hne
  rw [byteAt_cons_zero] at hforbidden htype
  rw [unitPieces]
  by_cases hshort : (header :: bytes).length < max
  · have hunit : header &&& 0x1f ≠ 28 := fun heq => absurd (heq ▸ htype) (by decide)
    simp only [if_pos hshort, naluHeader_read hforbidden, List.mem_singleton, List.head?_cons,
      Option.mem_some_iff, forall_eq, forall_eq', readable, starts, bne_iff_ne, ne_eq, hunit,
      not_false_eq_true, Bool.or_eq_true, true_or, and_self]
  · have hpos := packetNum_pos hmax (Nat.le_of_not_lt hshort)
    simp only [if_neg hshort]
    constructor
    · intro p hp
      obtain ⟨i, -, rfl⟩ := List.mem_map.mp hp
      simp only [fragmentPiece, readable, Bool.or_eq_true, bne_iff_ne, ne_eq, reduceCtorEq,
        not_false_eq_true, or_true]
    · intro p hp
      rw [List.head?_map, List.head?_range, if_neg (by omega)] at hp
      cases hp
      simp only [fragmentPiece, starts, Bool.or_eq_true, bne_iff_ne]
      exact .inr ((fuHeader_start _ _ _).mpr (decide_eq_true trivial))

/-- Only the last piece of a unit may have the marker. -/
theorem unitPieces_marker (hmax : 0 < max) (hne : nal ≠ []) :
    ∃ front p, unitPieces max nal last = front ++ [p] ∧ (∀ q ∈ front, q.marker = false) ∧
      p.marker = last := by
  obtain ⟨header, bytes, rfl⟩ := List.exists_cons_of_ne_nil hne
  rw [unitPieces]
  by_cases hshort : (header :: bytes).length < max
  · simp only [if_pos hshort]
    exact ⟨[], _, rfl, fun q hq => absurd hq List.not_mem_nil, rfl⟩
  · have hpos := packetNum_pos hmax (Nat.le_of_not_lt hshort)
    obtain ⟨n, hn⟩ := Nat.exists_eq_add_one.mpr hpos
    simp only [if_neg hshort, hn, List.range_succ, List.map_append, List.map_cons, List.map_nil]
    refine ⟨_, _, rfl, ?_, ?_⟩
    · intro q hq
      obtain ⟨i, hi, rfl⟩ := List.mem_map.mp hq
      have hlt : i ≠ n + 1 - 1 := by
        have := List.mem_range.mp hi
        omega
      simp only [fragmentPiece, hlt, decide_false, Bool.false_and]
    · simp only [fragmentPiece, Nat.add_sub_cancel, decide_true, Bool.true_and]

end Unit

/-! ## Reading a frame -/

section Frame

variable {nals : List (List Byte)} {max : Nat}

theorem framePieces_flatMap (hmax : 0 < max) (h : ∀ nal ∈ nals, Carried nal) :
    (framePieces max nals).flatMap (fun p => unwrap p.payload) =
      nals.flatMap (h264SplitCode ++ ·) := by
  induction nals with
  | nil => rfl
  | cons nal nals ih =>
    have hnal := h nal List.mem_cons_self
    cases nals with
    | nil =>
      rw [framePieces, unitPieces_flatMap true hmax hnal, List.flatMap_singleton]
    | cons next nals =>
      rw [framePieces, List.flatMap_append, unitPieces_flatMap false hmax hnal,
        ih fun n hn => h n (List.mem_cons_of_mem nal hn)]
      rfl

theorem framePieces_readable (hmax : 0 < max) (h : ∀ nal ∈ nals, Carried nal) :
    (∀ p ∈ framePieces max nals, readable p.payload = true) ∧
      ∀ p ∈ (framePieces max nals).head?, starts p.payload = true := by
  induction nals with
  | nil =>
    constructor
    · intro p hp
      cases hp
    · intro p hp
      cases hp
  | cons nal nals ih =>
    have hnal := h nal List.mem_cons_self
    cases nals with
    | nil => exact unitPieces_readable true hmax hnal
    | cons next nals =>
      obtain ⟨hread, hstart⟩ := unitPieces_readable false hmax hnal
      obtain ⟨hrest, -⟩ := ih fun n hn => h n (List.mem_cons_of_mem nal hn)
      obtain ⟨front, p, heq, -, -⟩ := unitPieces_marker false hmax hnal.ne_nil
      rw [framePieces]
      constructor
      · intro q hq
        rcases List.mem_append.mp hq with hq | hq
        · exact hread q hq
        · exact hrest q hq
      · intro q hq
        apply hstart
        rw [heq] at hq ⊢
        cases front with
        | nil => exact hq
        | cons f front => exact hq

/-- Exactly the last piece of a frame has the marker. -/
theorem framePieces_marker (hmax : 0 < max) (hne : nals ≠ []) (h : ∀ nal ∈ nals, nal ≠ []) :
    ∃ front p, framePieces max nals = front ++ [p] ∧ (∀ q ∈ front, q.marker = false) ∧
      p.marker = true := by
  induction nals with
  | nil => exact absurd rfl hne
  | cons nal nals ih =>
    have hnal := h nal List.mem_cons_self
    cases nals with
    | nil => exact unitPieces_marker true hmax hnal
    | cons next nals =>
      obtain ⟨front, p, hunit, hfront, hp⟩ := unitPieces_marker false hmax hnal
      obtain ⟨front', p', hrest, hfront', hp'⟩ :=
        ih (List.cons_ne_nil _ _) fun n hn => h n (List.mem_cons_of_mem nal hn)
      refine ⟨front ++ [p] ++ front', p', ?_, ?_, hp'⟩
      · rw [framePieces, hunit, hrest, ← List.append_assoc]
      · intro q hq
        rcases List.mem_append.mp hq with hq | hq
        · rcases List.mem_append.mp hq with hq | hq
          · exact hfront q hq
          · rw [List.mem_singleton.mp hq]
            exact hp
        · exact hfront' q hq

end Frame

end RtcMcu.Avformat
