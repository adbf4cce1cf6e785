import RtcMcu.Avformat.SdpText
import RtcMcu.Lib.Along

/-!
# The arrays of an SDP

A text is parsed line by line, and made again from what was parsed. The arrays of the parser are large
enough as long as every value of a line of format parameters has less than 1024 characters
(`parseFmtp_isOk`): then what is decoded of it fits, too. When the arrays of the generator are large
enough is said in `SdpInfo.Fits`. `sdp_arrays_iff` puts both together.
-/

namespace RtcMcu.Avformat.Sdp

open RtcMcu.Coupling

/-! ## Decoding -/

theorem hexValue_lt {c : Byte} {d : Nat} (h : hexValue c = some d) : d < 16 := by
  have hall : ∀ c : Byte, ((hexValue c).all fun d => decide (d < 16)) = true := by decide +kernel
  have hc := hall c
  rw [h] at hc
  exact of_decide_eq_true hc

/-- Two characters make a byte. Where one was read before, the next makes one with it. -/
theorem length_hexToData (s : List Byte) : ∀ {v : Nat},
    (v = 1 → 2 * (hexToData v s).length ≤ s.length) ∧
      (16 ≤ v → 2 * (hexToData v s).length ≤ s.length + 1) := by
  induction s with
  | nil => exact fun {_} => ⟨fun _ => Nat.le_refl 0, fun _ => Nat.zero_le _⟩
  | cons c s ih =>
    intro v
    have hone := (@ih 1).1 rfl
    have hsame := @ih v
    rw [hexToData, List.length_cons]
    split
    · exact ⟨fun h => Nat.le_succ_of_le (hsame.1 h), fun h => Nat.le_succ_of_le (hsame.2 h)⟩
    · split
      · exact ⟨fun _ => Nat.zero_le _, fun _ => Nat.zero_le _⟩
      · next d hd =>
        have hlt := hexValue_lt hd
        have hnext := (@ih (v * 16 + d)).2
        dsimp only
        split
        · rw [List.length_cons]
          constructor
          · intro hv
            omega
          · intro hv
            omega
        · refine ⟨fun hv => hnext (by omega), fun hv => ?_⟩
          have hle := hnext (by omega)
          omega

theorem base64DecStep_cases (last : List Byte) (c : Byte) :
    (∃ n, c ≠ 0 ∧ base64DecStep last c = .ok n) ∨ base64DecStep last c = .error (some last) ∨
      base64DecStep last c = .error none := by
  rw [base64DecStep]
  split
  · next h =>
    refine .inl ⟨_, ?_, rfl⟩
    rintro rfl
    exact absurd h (by decide)
  · split
    · exact .inr (.inl rfl)
    · exact .inr (.inr rfl)

/-- Four characters make three bytes; the first of them that is none leaves one less than there were
before it. -/
theorem base64DecQuad_length (c₀ c₁ c₂ c₃ : Byte) :
    (∃ bytes, base64DecQuad c₀ c₁ c₂ c₃ = .ok bytes ∧ bytes.length = 3 ∧ c₀ ≠ 0 ∧ c₁ ≠ 0 ∧ c₂ ≠ 0 ∧
      c₃ ≠ 0) ∨
    (∃ decoded, base64DecQuad c₀ c₁ c₂ c₃ = .error (some decoded) ∧ decoded.length ≤ 2 ∧
      (c₂ = 0 → decoded.length ≤ 1) ∧ (c₀ = 0 ∨ c₁ = 0 → decoded = [])) ∨
    base64DecQuad c₀ c₁ c₂ c₃ = .error none := by
  rw [base64DecQuad]
  rcases base64DecStep_cases [] c₀ with ⟨v₀, h₀, hstep⟩ | hstep | hstep
  · rw [hstep, ok_bind]
    rcases base64DecStep_cases [] c₁ with ⟨v₁, h₁, hstep⟩ | hstep | hstep
    · rw [hstep, ok_bind]
      dsimp only
      rcases base64DecStep_cases [BitVec.ofNat 8 ((v₀ * 64 + v₁) / 2 ^ 4)] c₂ with
        ⟨v₂, h₂, hstep⟩ | hstep | hstep
      · rw [hstep, ok_bind]
        rcases base64DecStep_cases [BitVec.ofNat 8 (((v₀ * 64 + v₁) * 64 + v₂) / 2 ^ 10),
            BitVec.ofNat 8 (((v₀ * 64 + v₁) * 64 + v₂) * 4 / 2 ^ 4)] c₃ with
          ⟨v₃, h₃, hstep⟩ | hstep | hstep
        · rw [hstep, ok_bind]
          exact .inl ⟨_, rfl, rfl, h₀, h₁, h₂, h₃⟩
        · rw [hstep]
          exact .inr (.inl ⟨_, rfl, Nat.le_refl 2, fun h => absurd h h₂, fun h =>
            absurd h (not_or.mpr ⟨h₀, h₁⟩)⟩)
        · rw [hstep]
          exact .inr (.inr rfl)
      · rw [hstep]
        exact .inr (.inl ⟨_, rfl, Nat.le_succ 1, fun _ => Nat.le_refl 1, fun h =>
          absurd h (not_or.mpr ⟨h₀, h₁⟩)⟩)
      · rw [hstep]
        exact .inr (.inr rfl)
    · rw [hstep]
      exact .inr (.inl ⟨[], rfl, Nat.zero_le 2, fun _ => Nat.zero_le 1, fun _ => rfl⟩)
    · rw [hstep]
      exact .inr (.inr rfl)
  · rw [hstep]
    exact .inr (.inl ⟨[], rfl, Nat.zero_le 2, fun _ => Nat.zero_le 1, fun _ => rfl⟩)
  · rw [hstep]
    exact .inr (.inr rfl)

theorem byteAt_of_le {m : List Byte} {i : Nat} (h : m.length ≤ i) : byteAt m i = 0 := by
  rw [byteAt, List.getD_eq_getElem?_getD, List.getElem?_eq_none h]
  rfl

theorem short_length {s : List Byte}
    (h : ∀ c₀ c₁ c₂ c₃ rest, s = c₀ :: c₁ :: c₂ :: c₃ :: rest → False) : s.length ≤ 3 := by
  match s, h with
  | [], _ => exact Nat.zero_le 3
  | [_], _ => exact Nat.succ_le_succ (Nat.zero_le 2)
  | [_, _], _ => exact Nat.le_succ 2
  | [_, _, _], _ => exact Nat.le_refl 3
  | c₀ :: c₁ :: c₂ :: c₃ :: rest, h => exact absurd rfl (h c₀ c₁ c₂ c₃ rest)

/-- Three bytes for four characters at most. In an array of 1024 bytes for a string of less characters
there is always room for the next four. -/
theorem length_base64Decode (s : List Byte) {decoded : List Byte}
    (h : base64Decode s = some decoded) : 4 * decoded.length ≤ 3 * s.length := by
  fun_induction base64Decode s generalizing decoded with
  | case1 c₀ c₁ c₂ c₃ rest bytes hquad ih =>
    obtain ⟨decoded, hrest, rfl⟩ := Option.map_eq_some_iff.mp h
    have hle := ih hrest
    have hthree : bytes.length = 3 := by
      rcases base64DecQuad_length c₀ c₁ c₂ c₃ with ⟨b, hb, hlength, -⟩ | ⟨d, hd, -⟩ | hnone
      · cases hquad.symm.trans hb
        exact hlength
      · cases hquad.symm.trans hd
      · cases hquad.symm.trans hnone
    simp only [List.length_append, List.length_cons]
    omega
  | case2 c₀ c₁ c₂ c₃ rest last hquad =>
    subst h
    rcases base64DecQuad_length c₀ c₁ c₂ c₃ with ⟨b, hb, -⟩ | ⟨d, hd, hlength, -⟩ | hnone
    · cases hquad.symm.trans hb
    · cases hquad.symm.trans hd
      simp only [List.length_cons]
      omega
    · cases hquad.symm.trans hnone
  | case3 short hshort bytes hquad =>
    have hzero : byteAt short 3 = 0 := byteAt_of_le (short_length hshort)
    rcases base64DecQuad_length (byteAt short 0) (byteAt short 1) (byteAt short 2) (byteAt short 3) with
      ⟨b, -, -, -, -, -, hne⟩ | ⟨d, hd, -⟩ | hnone
    · exact absurd hzero hne
    · cases hquad.symm.trans hd
    · cases hquad.symm.trans hnone
  | case4 short hshort last hquad =>
    subst h
    have hlength := short_length hshort
    rcases base64DecQuad_length (byteAt short 0) (byteAt short 1) (byteAt short 2) (byteAt short 3) with
      ⟨b, hb, -⟩ | ⟨d, hd, htwo, hone, hnil⟩ | hnone
    · cases hquad.symm.trans hb
    · cases hquad.symm.trans hd
      by_cases hle : short.length ≤ 1
      · have hzero : byteAt short 1 = 0 := byteAt_of_le hle
        rw [hnil (.inr hzero)]
        exact Nat.zero_le _
      · by_cases hle : short.length ≤ 2
        · have hzero : byteAt short 2 = 0 := byteAt_of_le hle
          have hle' := hone hzero
          omega
        · omega
    · cases hquad.symm.trans hnone

/-! ## Extra data -/

/-- What is left of a value behind its first piece and the comma. -/
theorem length_behind_comma (value : List Byte) :
    let packet := value.takeWhile fun c => c != 0x2c
    let rest := value.drop packet.length
    let rest := if rest.head? = some 0x2c then rest.tail else rest
    packet.length + rest.length ≤ value.length ∧
      (rest ≠ [] → packet.length + rest.length + 1 ≤ value.length) := by
  have hsplit := List.takeWhile_append_dropWhile (p := fun c : Byte => c != 0x2c) (l := value)
  have hhead := List.head?_dropWhile_not (fun c : Byte => c != 0x2c) value
  generalize (value.takeWhile fun c => c != 0x2c) = packet at hsplit
  generalize (value.dropWhile fun c => c != 0x2c) = rest at hsplit hhead
  subst hsplit
  dsimp only
  rw [List.drop_left, List.length_append]
  cases rest with
  | nil => exact ⟨Nat.le_refl _, fun h => absurd rfl h⟩
  | cons c rest =>
    have hc : c = 0x2c := by simpa using hhead
    rw [if_pos (show (c :: rest).head? = some 0x2c from congrArg some hc), List.tail_cons,
      List.length_cons]
    exact ⟨by omega, fun _ => by omega⟩

/-- The parameter sets of a value of less than 1024 characters fit: they take the most room where a
character and a comma stand for each two characters of base 64, five bytes for three. -/
theorem parseSets_fits (fuel : Nat) : ∀ {data value : List Byte}, 3 * data.length ≤ 5 * 1024 →
    (value ≠ [] → 3 * data.length + 5 * (value.length + 1) ≤ 5 * 1024) →
    ∃ r, parseSets fuel data value = some r ∧ 3 * r.length ≤ 5 * 1024 := by
  induction fuel with
  | zero => exact fun hdata _ => ⟨_, rfl, hdata⟩
  | succ fuel ih =>
    intro data value hdata hvalue
    rw [parseSets]
    by_cases hnil : value = []
    · rw [if_pos hnil]
      exact ⟨data, rfl, hdata⟩
    · rw [if_neg hnil]
      have hroom := hvalue hnil
      have hcut : ((value.takeWhile fun c => c != 0x2c).take 1023) =
          value.takeWhile fun c => c != 0x2c := by
        refine List.take_of_length_le ?_
        have hle : (value.takeWhile fun c => c != 0x2c).length ≤ value.length :=
          (List.takeWhile_prefix _).length_le
        omega
      obtain ⟨hle, hlt⟩ := length_behind_comma value
      dsimp only at hle hlt ⊢
      rw [hcut]
      generalize (value.takeWhile fun c => c != 0x2c) = packet at hle hlt ⊢
      generalize (if (value.drop packet.length).head? = some 0x2c then
        (value.drop packet.length).tail else value.drop packet.length) = rest at hle hlt ⊢
      have hpos := List.length_pos_iff.mpr hnil
      have hlater : ∀ n, 3 * n ≤ 5 * (packet.length + 1) → 3 * (data.length + n) ≤ 5 * 1024 ∧
          (rest ≠ [] → 3 * (data.length + n) + 5 * (rest.length + 1) ≤ 5 * 1024) := by
        refine fun n hn => ⟨by omega, fun hne => ?_⟩
        have hmore := hlt hne
        omega
      split
      · next b decoded hdecode =>
        have hdecoded := length_base64Decode packet hdecode
        have hstart : startSequence.length = 4 := rfl
        have hthird : 3 * (4 + (b :: decoded).length) ≤ 5 * (packet.length + 1) := by
          rw [List.length_cons] at hdecoded ⊢
          rcases Nat.lt_or_ge packet.length 3 with hshort | hlong
          · have hone : decoded.length = 0 := by omega
            omega
          · omega
        obtain ⟨hdata', hvalue'⟩ := hlater _ hthird
        have hlength : (data ++ startSequence ++ b :: decoded).length =
            data.length + (4 + (b :: decoded).length) := by
          rw [List.length_append, List.length_append, hstart, Nat.add_assoc]
        rw [if_neg (by rw [hstart]; omega)]
        refine ih ?_ ?_
        · rwa [hlength]
        · rwa [hlength]
      · exact ih hdata (hlater 0 (Nat.zero_le _)).2

theorem h264ParseSpropParameterSets_fits {value : List Byte} (h : value.length < 1024) :
    ∃ data, h264ParseSpropParameterSets value = some data ∧ data.length ≤ 2048 := by
  obtain ⟨data, hdata, hle⟩ := @parseSets_fits value.length [] value (Nat.zero_le _)
    fun _ => by rw [List.length_nil]; omega
  exact ⟨data, hdata, by omega⟩

/-! ## Format parameters -/

theorem setExtraData_ok (m : RtpMediaInfo) {data : List Byte} (h : data.length ≤ 2048) :
    m.setExtraData data = .ok { m with extraData := data } := if_neg (Nat.not_lt.mpr h)

/-- A parser of a format parameter goes on, and leaves the address of the medium as it is. -/
def GoesOn (m : RtpMediaInfo) (r : Except Fault (RtpMediaInfo × Bool)) : Prop :=
  ∃ m', r = .ok (m', true) ∧ m'.destAddr = m.destAddr

theorem parseH264SdpLine_goesOn (m : RtpMediaInfo) (attr : List Byte) {value : List Byte}
    (h : value.length < 1024) : GoesOn m (parseH264SdpLine m attr value) := by
  obtain ⟨data, hdata, hle⟩ := h264ParseSpropParameterSets_fits h
  rw [parseH264SdpLine, hdata]
  dsimp only
  rw [setExtraData_ok m hle]
  split
  · exact ⟨_, rfl, rfl⟩
  · split
    · refine ⟨_, rfl, ?_⟩
      split
      · rfl
      · rfl
    · split
      · exact ⟨_, rfl, rfl⟩
      · exact ⟨_, rfl, rfl⟩

theorem parseAacSdpLine_goesOn (m : RtpMediaInfo) (attr : List Byte) {value : List Byte}
    (h : value.length < 1024) : GoesOn m (parseAacSdpLine m attr value) := by
  have hle := (length_hexToData value).1 rfl
  rw [parseAacSdpLine, setExtraData_ok m (by omega)]
  split
  · exact ⟨_, rfl, rfl⟩
  · split
    · exact ⟨_, rfl, rfl⟩
    · exact ⟨_, rfl, rfl⟩

/-- The values of a line of format parameters. -/
def fmtpValues (valueSize : Nat) : Nat → List Byte → List (List Byte)
  | 0, _ => []
  | fuel + 1, p =>
    match rtpNextAttrAndValue valueSize p with
    | none => []
    | some (_, value, p) => value :: fmtpValues valueSize fuel p

/-- Every value of a line of format parameters has less than 1024 characters. -/
def FmtpFits (p : List Byte) : Prop :=
  let line := p.dropWhile fun c => c == 0x20
  ∀ value ∈ fmtpValues (p.length + 1) line.length line, value.length < 1024

theorem parseFmtpLoop_exactly
    {parse : RtpMediaInfo → List Byte → List Byte → Except Fault (RtpMediaInfo × Bool)}
    (hparse : ∀ m attr value, value.length < 1024 → GoesOn m (parse m attr value)) (valueSize : Nat)
    (fuel : Nat) : ∀ {m : RtpMediaInfo} {p : List Byte},
      Exactly (∀ value ∈ fmtpValues valueSize fuel p, value.length < 1024)
        (fun m' => m'.destAddr = m.destAddr) (parseFmtpLoop parse valueSize fuel m p) := by
  induction fuel with
  | zero => exact fun {m _} => .ok (fun _ h => nomatch h) (Eq.refl m.destAddr)
  | succ fuel ih =>
    intro m p
    rw [parseFmtpLoop, fmtpValues]
    cases rtpNextAttrAndValue valueSize p with
    | none => exact .ok (fun _ h => nomatch h) (Eq.refl m.destAddr)
    | some next =>
      obtain ⟨attr, value, p⟩ := next
      dsimp only
      rw [List.forall_mem_cons]
      by_cases hfits : value.length < 1024
      · obtain ⟨m', hm', haddr⟩ := hparse m attr value hfits
        rw [fits_of_lt hfits, ok_bind, hm', ok_bind]
        have hrest := (ih (m := m') (p := p)).congr (iff_of_eq (true_and _)).symm
        exact (hrest.congr (and_congr_left fun _ => iff_of_true trivial hfits)).mono
          fun _ h => h.trans haddr
      · have hfault : fits 1024 value = .error .outOfBounds := if_pos (Nat.le_of_not_lt hfits)
        rw [hfault, error_bind]
        exact fun h => hfits h.1

/-- A line is parsed exactly if there is no parser for it, or its values fit. -/
theorem parseFmtp_exactly (m : RtpMediaInfo) (p : List Byte) :
    Exactly (m.hasParser = true → FmtpFits p) (fun m' => m'.destAddr = m.destAddr)
      (parseFmtp m p) := by
  rw [parseFmtp, RtpMediaInfo.hasParser]
  split
  · next hvideo =>
    refine (parseFmtpLoop_exactly (fun m attr value => parseH264SdpLine_goesOn m attr) _ _).congr ?_
    simp only [hvideo, beq_self_eq_true, Bool.true_or, true_imp_iff]
    rfl
  · next hvideo =>
    split
    · next haudio =>
      refine (parseFmtpLoop_exactly (fun m attr value => parseAacSdpLine_goesOn m attr) _ _).congr ?_
      simp only [haudio, beq_self_eq_true, Bool.or_true, true_imp_iff]
      rfl
    · next haudio =>
      refine .ok (fun h => ?_) rfl
      rw [beq_eq_false_iff_ne.mpr hvideo, beq_eq_false_iff_ne.mpr haudio] at h
      cases h

/-! ## Attributes -/

/-- The strings that are kept are words. -/
structure ParseState.Short (s : ParseState) : Prop where
  header : s.sdpHeader.Short
  media : ∀ m ∈ s.mediaInfos, m.destAddr.length ≤ 63

theorem modifyLast_getLast? (s : ParseState) (f : RtpMediaInfo → RtpMediaInfo) :
    (s.modifyLast f).mediaInfos.getLast? = s.mediaInfos.getLast?.map f := by
  rw [ParseState.modifyLast]
  split
  · next m hm => rw [hm, List.getLast?_concat, Option.map_some]
  · next hnone => rw [hnone, Option.map_none]

theorem ParseState.Short.concat {s : ParseState} (h : s.Short) {m : RtpMediaInfo}
    (hm : m.destAddr.length ≤ 63) :
    ParseState.Short { s with mediaInfos := s.mediaInfos.dropLast ++ [m] } := by
  refine ⟨h.header, fun m' hm' => ?_⟩
  rcases List.mem_append.mp hm' with hm' | hm'
  · exact h.media m' (List.dropLast_subset _ hm')
  · exact List.mem_singleton.mp hm' ▸ hm

theorem ParseState.Short.modifyLast {s : ParseState} (h : s.Short) {f : RtpMediaInfo → RtpMediaInfo}
    (hf : ∀ m, m.destAddr.length ≤ 63 → (f m).destAddr.length ≤ 63) : (s.modifyLast f).Short := by
  rw [ParseState.modifyLast]
  split
  · next m hm => exact h.concat (hf m (h.media m (List.mem_of_getLast? hm)))
  · exact h

theorem modifyLastM_exactly (s : ParseState) {P : RtpMediaInfo → Prop}
    {f : RtpMediaInfo → Except Fault RtpMediaInfo}
    (hf : ∀ m, Exactly (P m) (fun m' => m'.destAddr = m.destAddr) (f m)) :
    Exactly (∀ m, s.mediaInfos.getLast? = some m → P m) (fun s' => s.Short → s'.Short)
      (s.modifyLastM f) := by
  rw [ParseState.modifyLastM]
  cases hlast : s.mediaInfos.getLast? with
  | none => exact .ok (fun m hm => nomatch hm) id
  | some m =>
    have hsame : (∀ m', some m = some m' → P m') ↔ P m :=
      ⟨fun h => h m rfl, fun h m' hm' => Option.some.inj hm' ▸ h⟩
    dsimp only
    have hm := hf m
    cases hfm : f m with
    | error e =>
      rw [hfm] at hm
      exact fun h => hm (hsame.mp h)
    | ok m' =>
      rw [hfm] at hm
      refine ⟨hsame.mpr hm.1, fun hs => hs.concat ?_⟩
      rw [hm.2]
      exact hs.media m (List.mem_of_getLast? hlast)

/-- What an attribute hands to `parse_fmtp` fits: the line that waited for an `rtpmap`, which has an
array of 2048 bytes, or the line itself. -/
structure AttributeFits (s : ParseState) (buf : List Byte) : Prop where
  delayed : ∀ p, strstart buf (ascii "rtpmap:") = some p → ∀ m, s.mediaInfos.getLast? = some m →
    s.seenFmtp = true → (parseRtpmap m p).hasParser = true →
      s.delayedFmtp.length < 2048 ∧ FmtpFits s.delayedFmtp
  direct : strstart buf (ascii "rtpmap:") = none → ∀ p, strstart buf (ascii "fmtp:") = some p →
    s.seenRtpmap = true → ∀ m, s.mediaInfos.getLast? = some m → m.hasParser = true →
      FmtpFits (getWord 64 p).2

theorem parseRtpmap_destAddr (m : RtpMediaInfo) (p : List Byte) :
    (parseRtpmap m p).destAddr = m.destAddr := by
  rw [parseRtpmap]
  dsimp only
  split
  · rfl
  · rfl

theorem parseAttribute_exactly (s : ParseState) (buf : List Byte) :
    Exactly (AttributeFits s buf) (fun s' => s.Short → s'.Short) (parseAttribute s buf) := by
  rw [parseAttribute]
  split
  · next p m₀ ms hrtpmap hmedia =>
    obtain ⟨m, hm⟩ : ∃ m, s.mediaInfos.getLast? = some m := by
      rw [hmedia]
      exact ⟨_, List.getLast?_cons⟩
    have hshort : s.Short → (s.modifyLast (parseRtpmap · p)).Short := fun h =>
      h.modifyLast fun m hm => by rwa [parseRtpmap_destAddr]
    have hlast : (s.modifyLast (parseRtpmap · p)).mediaInfos.getLast? = some (parseRtpmap m p) := by
      rw [modifyLast_getLast?, hm, Option.map_some]
    have hkept : (s.modifyLast (parseRtpmap · p)).delayedFmtp = s.delayedFmtp ∧
        (s.modifyLast (parseRtpmap · p)).seenFmtp = s.seenFmtp := by
      rw [ParseState.modifyLast, hm]
      exact ⟨rfl, rfl⟩
    have hfits : AttributeFits s buf ↔ (s.seenFmtp = true → (parseRtpmap m p).hasParser = true →
        s.delayedFmtp.length < 2048 ∧ FmtpFits s.delayedFmtp) := by
      refine ⟨fun h => h.delayed p hrtpmap m hm, fun h => ⟨fun p' hp' m' hm' => ?_, fun hnone => ?_⟩⟩
      · cases hrtpmap.symm.trans hp'
        cases hm.symm.trans hm'
        exact h
      · cases hrtpmap.symm.trans hnone
    dsimp only
    rw [hkept.1, hkept.2, hlast, Option.any_some]
    cases hseen : s.seenFmtp with
    | false =>
      refine .ok (hfits.mpr fun h => ?_) fun hs => ⟨(hshort hs).header, (hshort hs).media⟩
      rw [hseen] at h
      cases h
    | true =>
      rw [if_neg (by decide)]
      split
      · next hlong => exact fun h => absurd hlong.2 (Nat.not_le_of_lt (hfits.mp h hseen hlong.1).1)
      · next hroom =>
        refine ((modifyLastM_exactly _ fun m => parseFmtp_exactly m s.delayedFmtp).congr ?_).mono
          fun s' h hs => h ⟨(hshort hs).header, (hshort hs).media⟩
        rw [hfits]
        constructor
        · intro h _ hparser
          refine ⟨Nat.lt_of_not_le fun hlong => hroom ⟨hparser, hlong⟩, h _ hlast hparser⟩
        · intro h m' hm' hparser
          cases hlast.symm.trans hm'
          exact (h hseen hparser).2
  · next rtpmap hother =>
    have hnone : s.mediaInfos ≠ [] → strstart buf (ascii "rtpmap:") = none := by
      intro hne
      obtain ⟨m, ms, hms⟩ := List.exists_cons_of_ne_nil hne
      cases hrtpmap : strstart buf (ascii "rtpmap:") with
      | none => rfl
      | some p => exact (hother p m ms hrtpmap hms).elim
    have hmedia : ∀ {m}, s.mediaInfos.getLast? = some m → s.mediaInfos ≠ [] := by
      intro m hm hnil
      rw [hnil] at hm
      cases hm
    have hdelayed : ∀ p, strstart buf (ascii "rtpmap:") = some p → ∀ m,
        s.mediaInfos.getLast? ≠ some m := by
      intro p hp m hm
      cases hp.symm.trans (hnone (hmedia hm))
    split
    · next hfmtp =>
      refine .ok ⟨fun p hp m hm => absurd hm (hdelayed p hp m), fun hrtpmap p hp => ?_⟩ id
      rw [hrtpmap, Option.getD_none, hp] at hfmtp
      cases hfmtp
    · next p hfmtp =>
      dsimp only
      split
      · next hseen =>
        have hrtpmap := hnone hseen.2
        rw [hrtpmap, Option.getD_none] at hfmtp
        refine (modifyLastM_exactly s fun m => parseFmtp_exactly m (getWord 64 p).2).congr ?_
        constructor
        · refine fun h => ⟨fun p' hp' m hm => absurd hm (hdelayed p' hp' m), fun _ p' hp' _ => ?_⟩
          cases hfmtp.symm.trans hp'
          exact h
        · exact fun h => h.direct hrtpmap p hfmtp hseen.1
      · next hseen =>
        refine .ok ⟨fun p hp m hm => absurd hm (hdelayed p hp m), fun _ p' _ hrtpmap m hm => ?_⟩
          fun hs => ⟨hs.header, hs.media⟩
        exact absurd ⟨hrtpmap, hmedia hm⟩ hseen

/-! ## Lines -/

theorem length_getWord (size : Nat) (p : List Byte) : (getWord size p).1.length ≤ size - 1 :=
  List.length_take_le _ _

theorem length_getWordSep (size : Nat) (sep p : List Byte) :
    (getWordSep size sep p).1.length ≤ size - 1 := List.length_take_le _ _

theorem parseOrigin_short {h : SdpSessionLevel} (hshort : h.Short) (p : List Byte) :
    (parseOrigin h p).Short :=
  ⟨length_getWord 64 _, length_getWord 64 _, hshort.dstType, hshort.dstAddr, hshort.name⟩

theorem parseConnection_short {s : ParseState} (h : s.Short) (p : List Byte) :
    (parseConnection s p).Short := by
  have htype := length_getWord 64 (getWord 64 p).2
  have haddr := length_getWordSep 64 [0x2f] (getWord 64 (getWord 64 p).2).2
  rw [parseConnection]
  dsimp only
  generalize (getWord 64 (getWord 64 p).2).1 = type at htype ⊢
  generalize (getWordSep 64 [0x2f] (getWord 64 (getWord 64 p).2).2).1 = addr at haddr ⊢
  obtain ⟨⟨hsrcType, hsrcAddr, hdstType, hdstAddr, hname⟩, hmedia⟩ := h
  split
  · exact ⟨⟨hsrcType, hsrcAddr, hdstType, hdstAddr, hname⟩, hmedia⟩
  · by_cases hnil : s.mediaInfos = []
    · simp only [if_pos hnil]
      split
      · exact ⟨⟨hsrcType, hsrcAddr, htype, hdstAddr, hname⟩, hmedia⟩
      · exact ⟨⟨hsrcType, hsrcAddr, htype, haddr, hname⟩, hmedia⟩
    · simp only [if_neg hnil]
      split
      · exact ⟨⟨hsrcType, hsrcAddr, hdstType, hdstAddr, hname⟩, hmedia⟩
      · exact ParseState.Short.modifyLast ⟨⟨hsrcType, hsrcAddr, hdstType, hdstAddr, hname⟩, hmedia⟩
          fun _ _ => haddr

theorem parseMedia_short {s : ParseState} (h : s.Short) (p : List Byte) : (parseMedia s p).Short := by
  refine ⟨h.header, fun m hm => ?_⟩
  rcases List.mem_append.mp hm with hm | hm
  · exact h.media m hm
  · rw [List.mem_singleton.mp hm]
    exact Nat.zero_le 63

/-- A line of a text: its letter and its content. -/
abbrev Line : Type := Byte × List Byte

/-- What a line hands to `parse_fmtp` fits. -/
def LineFits (s : ParseState) (l : Line) : Prop := l.1 = 0x61 → AttributeFits s l.2

theorem parseSdpLine_exactly (s : ParseState) (l : Line) :
    Exactly (LineFits s l) (fun s' => s.Short → s'.Short) (parseSdpLine s l.1 l.2) := by
  obtain ⟨letter, buf⟩ := l
  by_cases ha : letter = 0x61
  · subst ha
    exact (parseAttribute_exactly s buf).congr ⟨fun h _ => h, fun h => h rfl⟩
  · have hfits : LineFits s (letter, buf) := fun h => absurd h ha
    rw [parseSdpLine]
    dsimp only
    split
    · exact .ok hfits fun h => ⟨⟨h.header.srcType, h.header.srcAddr, h.header.dstType,
        h.header.dstAddr, h.header.name⟩, h.media⟩
    · split
      · exact .ok hfits fun h => ⟨parseOrigin_short h.header buf, h.media⟩
      · split
        · exact .ok hfits fun h => ⟨⟨h.header.srcType, h.header.srcAddr, h.header.dstType,
            h.header.dstAddr, length_getWordSep 64 _ _⟩, h.media⟩
        · split
          · exact .ok hfits fun h => ⟨⟨h.header.srcType, h.header.srcAddr, h.header.dstType,
              h.header.dstAddr, h.header.name⟩, h.media⟩
          · split
            · exact .ok hfits fun h => parseConnection_short h buf
            · split
              · exact .ok hfits fun h => parseMedia_short h buf
              · exact .ok hfits id

/-- The lines of what is left of a text. -/
def linesOf (total len : Nat) : Nat → List Byte → List Line
  | 0, _ => []
  | fuel + 1, p =>
    match p.dropWhile isSpaceChar with
    | [] => []
    | letter :: p =>
      let nextLine := (p.dropWhile fun c => c != 0x0a).tail
      if p.head? = some 0x3d then
        let content := (p.tail.takeWhile fun c => c != 0x0a && c != 0x0d).take
          (len + 1 + p.tail.length - total)
        (letter, content.take 16383) :: linesOf total len fuel nextLine
      else linesOf total len fuel nextLine

theorem parseSdpLoop_eq (total len fuel : Nat) : ∀ {s : ParseState} {p : List Byte},
    parseSdpLoop total len fuel s p =
      (linesOf total len fuel p).foldlM (fun s l => parseSdpLine s l.1 l.2) s := by
  induction fuel with
  | zero => exact fun {_ _} => rfl
  | succ fuel ih =>
    intro s p
    rw [parseSdpLoop, linesOf]
    cases p.dropWhile isSpaceChar with
    | nil => rfl
    | cons letter p =>
      dsimp only
      split
      · rw [List.foldlM_cons]
        exact congrArg _ (funext fun _ => ih)
      · exact ih

/-- What the lines of a text hand to `parse_fmtp` fits. -/
def TextFits (text : List Byte) (len : Nat) : Prop :=
  Along (fun s l => parseSdpLine s l.1 l.2) LineFits .new
    (linesOf text.length len (text.length + 1) text)

theorem new_short : ParseState.new.Short :=
  ⟨⟨Nat.zero_le _, Nat.zero_le _, Nat.zero_le _, Nat.zero_le _, Nat.zero_le _⟩, fun _ hm => nomatch hm⟩

/-- A text is parsed exactly if its lines fit. -/
theorem parseSdpStr_exactly (text : List Byte) (len : Nat) :
    Exactly (TextFits text len) ParseState.Short (parseSdpStr .new text len) := by
  rw [parseSdpStr, parseSdpLoop_eq]
  exact (Along.exactly parseSdpLine_exactly _).mono fun s h => h new_short

/-! ## The arrays -/

/-- A text that is put to the server is parsed, and made again when it is asked for, inside the
arrays. -/
def Handles (text : List Byte) (len : Nat) : Prop :=
  ∃ info r, load text len = .ok info ∧ info.getSdpStr = .ok r

/-- The values of the format lines of a text fit into the arrays of the parser, and what is made of
its session and its media fits into those of the generator. -/
structure HandledFits (text : List Byte) (len : Nat) : Prop where
  parsed : len ≠ 0 → TextFits (cString text) len
  generated : ∀ info, load text len = .ok info → info.mediaInfos ≠ [] → info.Fits

/-- What is loaded has short strings, and no text was made of it. -/
theorem load_exactly (text : List Byte) (len : Nat) :
    Exactly (len ≠ 0 → TextFits (cString text) len) (fun info => info.Short ∧ info.sdpChar = [])
      (load text len) := by
  rw [load]
  split
  · next hzero =>
    exact .ok (fun h => absurd hzero h) ⟨⟨new_short.header, fun _ hm => nomatch hm⟩, rfl⟩
  · next hlen =>
    have hparse := parseSdpStr_exactly (cString text) len
    cases h : parseSdpStr .new (cString text) len with
    | error e =>
      rw [h] at hparse
      exact fun hfits => hparse (hfits hlen)
    | ok s =>
      rw [h] at hparse
      exact ⟨fun _ => hparse.1, ⟨hparse.2.header, hparse.2.media⟩, rfl⟩

/-- A text is handled inside the arrays exactly if they are large enough. -/
theorem sdp_arrays_iff (text : List Byte) (len : Nat) : Handles text len ↔ HandledFits text len := by
  have hload := load_exactly text len
  constructor
  · rintro ⟨info, r, hinfo, hr⟩
    obtain ⟨hshort, hchar⟩ := hload.of_ok hinfo
    refine ⟨hload.isOk.mp ⟨info, hinfo⟩, fun info' hinfo' => ?_⟩
    cases hinfo.symm.trans hinfo'
    exact (SdpInfo.getSdpStr_isOk hshort).mp ⟨r, hr⟩ hchar
  · rintro ⟨hparsed, hgenerated⟩
    obtain ⟨info, hinfo⟩ := hload.isOk.mpr hparsed
    obtain ⟨hshort, -⟩ := hload.of_ok hinfo
    obtain ⟨r, hr⟩ := (SdpInfo.getSdpStr_isOk hshort).mpr fun _ => hgenerated info hinfo
    exact ⟨info, r, hinfo, hr⟩

/-- A configuration of 1024 characters. -/
def longConfig : List Byte :=
  ascii "m=audio 0 RTP/AVP 97\r\na=rtpmap:97 mpeg4-generic/44100/2\r\na=fmtp:97 config=" ++
    List.replicate 1024 0x30

theorem long_config_overflows : ¬ Handles longConfig 1200 := by
  have hload : (match load longConfig 1200 with
      | .ok _ => false
      | .error _ => true) = true := by
    decide +kernel
  rintro ⟨info, r, hinfo, -⟩
  rw [hinfo] at hload
  cases hload

end RtcMcu.Avformat.Sdp
