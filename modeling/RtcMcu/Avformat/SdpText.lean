import RtcMcu.Avformat.Sdp

/-!
# The text of an SDP

What `generate_sdp_str` makes of a session and its media, whatever its length (`SdpInfo.text`). It goes
through arrays of fixed sizes; `generateSdpStr_eq_ok` says when they are large enough. The header always
fits. What does not are the format parameters of a medium and the text as a whole.
-/

namespace RtcMcu.Avformat.Sdp

/-! ## Arrays -/

theorem fits_eq_ok {size : Nat} {text r : List Byte} :
    fits size text = .ok r ↔ text.length < size ∧ r = text := by
  rw [fits]
  split
  · next h => exact iff_of_false (fun hok => nomatch hok) fun hlt => absurd hlt.1 (Nat.not_lt.mpr h)
  · next h =>
    constructor
    · intro hok
      cases hok
      exact ⟨Nat.lt_of_not_le h, rfl⟩
    · rintro ⟨-, rfl⟩
      rfl

theorem fits_of_lt {size : Nat} {text : List Byte} (h : text.length < size) :
    fits size text = .ok text := fits_eq_ok.mpr ⟨h, rfl⟩

/-! ## Numbers -/

theorem length_decimalDigits (fuel n : Nat) : (decimalDigits fuel n).length ≤ fuel := by
  induction fuel generalizing n with
  | zero => exact Nat.le_refl 0
  | succ fuel ih =>
    have hrest := ih (n / 10)
    rw [decimalDigits, List.length_append, List.length_singleton]
    split
    · exact Nat.succ_le_succ (Nat.zero_le _)
    · exact Nat.succ_le_succ hrest

theorem length_formatInt (n : BitVec 32) : (formatInt n).length ≤ 11 := by
  have hdigits := length_decimalDigits 10 n.toInt.natAbs
  rw [formatInt]
  split
  · rw [List.length_cons]
    omega
  · omega

theorem length_formatShort (n : BitVec 16) : (formatShort n).length ≤ 11 := length_formatInt _

/-! ## Parameter sets -/

/-- What `extradata2psets` writes of the units, behind what is written. -/
def joinPsets : List Byte → List (List Byte) → List Byte
  | out, [] => out
  | out, unit :: units =>
    joinPsets ((if out = [] then out else out ++ [0x2c]) ++ base64Text unit) units

/-- The string that `extradata2psets` makes of the units. -/
def psetsText (units : List (List Byte)) : List Byte :=
  ascii "; sprop-parameter-sets=" ++ joinPsets [] units ++ profileOf units

theorem length_le_joinPsets (units : List (List Byte)) (out : List Byte) :
    out.length ≤ (joinPsets out units).length := by
  induction units generalizing out with
  | nil => exact Nat.le_refl _
  | cons unit units ih =>
    refine Nat.le_trans ?_ (ih _)
    rw [List.length_append]
    split
    · exact Nat.le_add_right _ _
    · rw [List.length_append]
      omega

/-- There is room for a unit exactly if the text with it fits. -/
theorem writePsets_eq_ok (units : List (List Byte)) {out r : List Byte} :
    writePsets out units = .ok r ↔
      (units = [] ∨ (ascii "; sprop-parameter-sets=").length + (joinPsets out units).length < 1024) ∧
        r = joinPsets out units := by
  induction units generalizing out with
  | nil =>
    rw [writePsets, joinPsets]
    exact ⟨fun h => ⟨.inl rfl, (Except.ok.inj h).symm⟩, fun h => congrArg _ h.2.symm⟩
  | cons unit units ih =>
    have hle := length_le_joinPsets units
      ((if out = [] then out else out ++ [0x2c]) ++ base64Text unit)
    rw [writePsets, joinPsets]
    generalize (if out = [] then out else out ++ [0x2c]) = sep at hle ⊢
    rw [List.length_append, length_base64Text] at hle
    rw [base64Encode, base64Size]
    by_cases hroom :
        1024 - ((ascii "; sprop-parameter-sets=").length + sep.length) < (unit.length + 2) / 3 * 4 + 1
    · rw [if_pos hroom]
      refine iff_of_false (fun h => nomatch h) ?_
      rintro ⟨h | h, -⟩
      · cases h
      · omega
    · rw [if_neg hroom]
      dsimp only
      rw [ih]
      refine and_congr_left fun _ => ⟨fun h => .inr ?_, fun h => .inr ?_⟩
      · rcases h with rfl | h
        · rw [joinPsets, List.length_append, length_base64Text]
          omega
        · exact h
      · rcases h with h | h
        · cases h
        · exact h

/-- Every unit is a byte of its type at least. -/
theorem findStartcode_pos {b : Byte} (p : List Byte) (hb : b ≠ 0) : 0 < findStartcode (b :: p) := by
  have hinternal : findStartcodeInternal (b :: p) = findStartcodeInternal p + 1 := by
    rw [findStartcodeInternal]
    rintro q r rfl -
    exact hb rfl
  rw [findStartcode, hinternal]
  split
  · next h =>
    cases hp : findStartcodeInternal p with
    | zero =>
      have hzero := h.2.2
      rw [hp] at hzero
      exact absurd hzero hb
    | succ n => exact Nat.succ_pos n
  · exact Nat.succ_pos _

theorem psetsOf_ne_nil (fuel : Nat) : ∀ {r unit : List Byte}, unit ∈ psetsOf fuel r → unit ≠ [] := by
  induction fuel with
  | zero => exact fun h => nomatch h
  | succ fuel ih =>
    intro r unit h
    rw [psetsOf] at h
    split at h
    · cases h
    · dsimp only at h
      generalize (r.dropWhile fun b => b == 0).tail = r at h
      split at h
      · exact ih h
      · next htype =>
        rcases List.mem_cons.mp h with rfl | h
        · cases r with
          | nil => exact absurd ⟨by decide, by decide⟩ htype
          | cons b r =>
            have hb : b ≠ 0 := by
              rintro rfl
              have hzero : byteAt (0 :: r) 0 &&& 0x1f = 0 := by
                rw [byteAt_cons_zero]
                decide
              exact htype ⟨by rw [hzero]; decide, by rw [hzero]; decide⟩
            obtain ⟨n, hn⟩ := Nat.exists_eq_succ_of_ne_zero (Nat.ne_of_gt (findStartcode_pos r hb))
            rw [hn]
            exact fun h => nomatch h
        · exact ih h

theorem joinPsets_eq_nil {units : List (List Byte)} (h : ∀ unit ∈ units, unit ≠ []) :
    joinPsets [] units = [] ↔ units = [] := by
  cases units with
  | nil => exact iff_of_true rfl rfl
  | cons unit units =>
    refine iff_of_false (fun hnil => ?_) (fun h => nomatch h)
    have hle := length_le_joinPsets units (([] : List Byte) ++ base64Text unit)
    have hpos := List.length_pos_iff.mpr (h unit List.mem_cons_self)
    rw [joinPsets, if_pos rfl] at hnil
    rw [hnil, List.length_append, length_base64Text, List.length_nil] at hle
    omega

theorem length_joinPsets_behind (units : List (List Byte)) : ∀ {out : List Byte}, out ≠ [] →
    (joinPsets out units).length =
      out.length + (units.map fun unit => (unit.length + 2) / 3 * 4 + 1).sum := by
  induction units with
  | nil => exact fun _ => rfl
  | cons unit units ih =>
    intro out hout
    rw [joinPsets, if_neg hout, ih (by simp [hout]), List.map_cons, List.sum_cons]
    simp only [List.length_append, List.length_singleton, length_base64Text]
    omega

/-- The length of the units in base 64 with the commas between them. -/
theorem length_joinPsets {units : List (List Byte)} (hunits : units ≠ [])
    (hne : ∀ unit ∈ units, unit ≠ []) :
    (joinPsets [] units).length + 1 =
      (units.map fun unit => (unit.length + 2) / 3 * 4 + 1).sum := by
  obtain ⟨unit, units, rfl⟩ := List.exists_cons_of_ne_nil hunits
  have hpos := List.length_pos_iff.mpr (hne unit List.mem_cons_self)
  have htext : base64Text unit ≠ [] := by
    rw [← List.length_pos_iff, length_base64Text]
    omega
  rw [joinPsets, if_pos rfl, List.nil_append, length_joinPsets_behind units htext, List.map_cons,
    List.sum_cons, length_base64Text]
  omega

/-! ## Format parameters -/

/-- The string `config` of a medium. -/
def configText (m : RtpMediaInfo) : List Byte :=
  if 1024 < m.extraData.length then []
  else if m.payloadType = H264 then psetsText (psets m.extraData)
  else ascii "; config=" ++ dataToHex m.extraData

theorem extradata2psets_eq_ok {m : RtpMediaInfo} (hvideo : m.payloadType = H264) {r : List Byte} :
    extradata2psets m = .ok r ↔
      (m.extraData.length ≤ 1024 → psets m.extraData ≠ []) ∧ (configText m).length < 1024 ∧
        r = configText m := by
  rw [extradata2psets, configText]
  by_cases hlong : 1024 < m.extraData.length
  · rw [if_pos hlong, if_pos hlong]
    constructor
    · intro h
      cases h
      exact ⟨fun hle => absurd hle (Nat.not_le.mpr hlong), Nat.succ_pos _, rfl⟩
    · rintro ⟨-, -, rfl⟩
      rfl
  · have hnil := @joinPsets_eq_nil (psets m.extraData) fun unit h => psetsOf_ne_nil _ h
    rw [if_neg hlong, if_neg hlong, if_pos hvideo, bind_eq_ok]
    dsimp only [psetsText]
    constructor
    · rintro ⟨out, hout, hr⟩
      obtain ⟨-, rfl⟩ := (writePsets_eq_ok _).mp hout
      split at hr
      · cases hr
      · next hne =>
        obtain ⟨hlt, rfl⟩ := fits_eq_ok.mp hr
        exact ⟨fun _ h => hne (hnil.mpr h), hlt, rfl⟩
    · rintro ⟨hne, hlt, rfl⟩
      have hlt' := hlt
      rw [List.length_append, List.length_append] at hlt'
      refine ⟨_, (writePsets_eq_ok _).mpr ⟨.inr (by omega), rfl⟩, ?_⟩
      rw [if_neg fun h => hne (Nat.le_of_not_lt hlong) (hnil.mp h)]
      exact fits_of_lt hlt

theorem extradata2config_eq_ok {m : RtpMediaInfo} (haudio : m.payloadType ≠ H264) {r : List Byte} :
    extradata2config m = .ok r ↔ (configText m).length < 1024 ∧ r = configText m := by
  rw [extradata2config, configText]
  split
  · constructor
    · intro h
      cases h
      exact ⟨Nat.succ_pos _, rfl⟩
    · rintro ⟨-, rfl⟩
      rfl
  · exact fits_eq_ok

/-- The format parameters that are written for a medium. -/
def fmtpText (m : RtpMediaInfo) : List Byte :=
  if m.extraData = [] ∨ configText m = [] then []
  else if m.payloadType = H264 then h264FmtpText m (configText m)
  else if m.payloadType = AAC then aacFmtpText m (configText m)
  else []

/-- The attributes that are written for a medium. -/
def attributesText (m : RtpMediaInfo) : List Byte :=
  if m.payloadType = H264 ∧ m.extraData = [] then h264RtpmapText m
  else if m.payloadType = AAC ∧ fmtpText m ≠ [] then aacRtpmapText m ++ fmtpText m
  else fmtpText m

/-- The format parameters of a medium fit into the arrays that they are written through, and have an
end. -/
structure MediumFits (m : RtpMediaInfo) : Prop where
  units : m.payloadType = H264 → m.extraData ≠ [] → m.extraData.length ≤ 1024 →
    psets m.extraData ≠ []
  fmtp : (fmtpText m).length < 1024

theorem length_config_le (m : RtpMediaInfo) (config : List Byte) :
    config.length ≤ (h264FmtpText m config).length ∧
      config.length ≤ (aacFmtpText m config).length := by
  rw [h264FmtpText, aacFmtpText]
  simp only [List.length_append]
  omega

/-- The lines that name a codec are short. -/
theorem rtpmapText_fits (m : RtpMediaInfo) :
    (h264RtpmapText m).length < 1024 ∧ (aacRtpmapText m).length < 1024 := by
  have htype := length_formatShort m.payloadType
  have hrate := length_formatInt m.rate
  have hchannels := length_formatInt m.channels
  have hrtpmap : (ascii "a=rtpmap:").length = 9 := by decide
  have hvideo : (ascii " H264/90000\r\n").length = 13 := by decide
  have haudio : (ascii " MPEG4-GENERIC/").length = 15 := by decide
  have hslash : (ascii "/").length = 1 := by decide
  have hline : (ascii "\r\n").length = 2 := by decide
  rw [h264RtpmapText, aacRtpmapText]
  simp only [List.length_append, hrtpmap, hvideo, haudio, hslash, hline]
  omega

/-- What is done with the string `config`. -/
theorem writeConfig_eq_ok {x : Except Fault (List Byte)} {config r : List Byte} {A : Prop}
    (write : List Byte → Except Fault (List Byte))
    (hx : ∀ c, x = .ok c ↔ A ∧ config.length < 1024 ∧ c = config)
    (hwrite : write config = .ok r → config.length < 1024) :
    (x >>= fun c => if c = [] then .ok [] else write c) = .ok r ↔
      A ∧ if config = [] then r = [] else write config = .ok r := by
  rw [bind_eq_ok]
  constructor
  · rintro ⟨c, hc, hr⟩
    obtain ⟨hA, -, rfl⟩ := (hx c).mp hc
    refine ⟨hA, ?_⟩
    split at hr
    · next hnil =>
      cases hr
      rw [if_pos hnil]
    · next hne => rwa [if_neg hne]
  · rintro ⟨hA, hr⟩
    split at hr
    · next hnil =>
      refine ⟨config, (hx _).mpr ⟨hA, ?_, rfl⟩, ?_⟩
      · rw [hnil]
        exact Nat.succ_pos _
      · rw [if_pos hnil, hr]
    · next hne =>
      refine ⟨config, (hx _).mpr ⟨hA, hwrite hr, rfl⟩, ?_⟩
      rwa [if_neg hne]

theorem fmtpText_h264 {m : RtpMediaInfo} (hvideo : m.payloadType = H264) (hsome : m.extraData ≠ []) :
    fmtpText m = if configText m = [] then [] else h264FmtpText m (configText m) := by
  rw [fmtpText]
  simp only [hsome, false_or, if_pos hvideo]

theorem fmtpText_aac {m : RtpMediaInfo} (haudio : m.payloadType = AAC) (hsome : m.extraData ≠ []) :
    fmtpText m = if configText m = [] then [] else aacFmtpText m (configText m) := by
  have hvideo : m.payloadType ≠ H264 := by
    rw [haudio]
    decide
  rw [fmtpText]
  simp only [hsome, false_or, if_neg hvideo, if_pos haudio]

/-- Two characters for each byte of the extra data of an audio medium, and 117 others without those
of the duration. -/
theorem length_fmtpText_aac {m : RtpMediaInfo} (haudio : m.payloadType = AAC)
    (hsome : m.extraData ≠ []) (hlong : m.extraData.length ≤ 1024) :
    (fmtpText m).length = 2 * m.extraData.length + (formatShort m.constantDuration).length + 117 := by
  have hvideo : m.payloadType ≠ H264 := by
    rw [haudio]
    decide
  have hconfig : configText m = ascii "; config=" ++ dataToHex m.extraData := by
    rw [configText, if_neg (Nat.not_lt.mpr hlong), if_neg hvideo]
  have hname : (ascii "; config=").length = 9 := by decide
  have hne : configText m ≠ [] := by
    intro hnil
    have hlength := congrArg List.length (hconfig.symm.trans hnil)
    rw [List.length_append, hname, List.length_nil] at hlength
    omega
  have hfmtp : (ascii "a=fmtp:").length = 7 := by decide
  have htype : (formatShort AAC).length = 2 := by decide
  have hmode : (ascii " profile-level-id=1;mode=AAC-hbr;constantDuration=").length = 50 := by
    decide +kernel
  have hsizes : (ascii ";sizelength=13;indexlength=3;indexdeltalength=3").length = 47 := by
    decide +kernel
  have hline : (ascii "\r\n").length = 2 := by decide
  rw [fmtpText_aac haudio hsome, if_neg hne, aacFmtpText, hconfig, haudio]
  simp only [List.length_append, length_dataToHex, hname, hfmtp, htype, hmode, hsizes, hline]
  omega

/-- Four characters for each three bytes of a unit and one between units, those of the profile, and
79 others. -/
theorem length_fmtpText_h264 {m : RtpMediaInfo} (hvideo : m.payloadType = H264)
    (hsome : m.extraData ≠ []) (hlong : m.extraData.length ≤ 1024) (hunits : psets m.extraData ≠ []) :
    (fmtpText m).length + 1 =
      ((psets m.extraData).map fun unit => (unit.length + 2) / 3 * 4 + 1).sum +
        (profileOf (psets m.extraData)).length + 79 := by
  have hconfig : configText m = psetsText (psets m.extraData) := by
    rw [configText, if_neg (Nat.not_lt.mpr hlong), if_pos hvideo]
  have hname : (ascii "; sprop-parameter-sets=").length = 23 := by decide
  have hne : configText m ≠ [] := by
    intro hnil
    have hlength := congrArg List.length (hconfig.symm.trans hnil)
    rw [psetsText, List.length_append, List.length_append, hname, List.length_nil] at hlength
    omega
  have hjoined := length_joinPsets hunits fun unit h => psetsOf_ne_nil _ h
  have hrtpmap : (ascii "a=rtpmap:").length = 9 := by decide
  have htype : (formatShort H264).length = 2 := by decide
  have hfmtp : (ascii " H264/90000\r\na=fmtp:").length = 20 := by decide
  have hmode : (ascii " packetization-mode=").length = 20 := by decide
  have hone : (formatInt 1).length = 1 := by decide
  have hline : (ascii "\r\n").length = 2 := by decide
  rw [fmtpText_h264 hvideo hsome, if_neg hne, h264FmtpText, hconfig, hvideo, psetsText]
  simp only [List.length_append, hname, hrtpmap, htype, hfmtp, hmode, hone, hline]
  omega

/-- An audio medium fits as long as its extra data has about 450 bytes. -/
theorem mediumFits_aac {m : RtpMediaInfo} (haudio : m.payloadType = AAC) (hsome : m.extraData ≠ [])
    (hlong : m.extraData.length ≤ 1024) :
    MediumFits m ↔ 2 * m.extraData.length + (formatShort m.constantDuration).length ≤ 906 := by
  have hvideo : m.payloadType ≠ H264 := by
    rw [haudio]
    decide
  have hlength := length_fmtpText_aac haudio hsome hlong
  constructor
  · intro h
    have hfmtp := h.fmtp
    omega
  · exact fun h => ⟨fun h => absurd h hvideo, by omega⟩

/-- A video medium fits as long as it has a parameter set, and its parameter sets have about 900
characters in base 64. -/
theorem mediumFits_h264 {m : RtpMediaInfo} (hvideo : m.payloadType = H264) (hsome : m.extraData ≠ [])
    (hlong : m.extraData.length ≤ 1024) :
    MediumFits m ↔ psets m.extraData ≠ [] ∧
      ((psets m.extraData).map fun unit => (unit.length + 2) / 3 * 4 + 1).sum +
        (profileOf (psets m.extraData)).length ≤ 945 := by
  constructor
  · intro h
    have hunits := h.units hvideo hsome hlong
    have hlength := length_fmtpText_h264 hvideo hsome hlong hunits
    have hfmtp := h.fmtp
    exact ⟨hunits, by omega⟩
  · rintro ⟨hunits, hle⟩
    have hlength := length_fmtpText_h264 hvideo hsome hlong hunits
    exact ⟨fun _ _ _ => hunits, by omega⟩

theorem h264Attributes_eq_ok {m : RtpMediaInfo} (hvideo : m.payloadType = H264)
    (hsome : m.extraData ≠ []) {r : List Byte} :
    sdpWriteMediaAttributes m = .ok r ↔
      (m.extraData.length ≤ 1024 → psets m.extraData ≠ []) ∧ (fmtpText m).length < 1024 ∧
        r = fmtpText m := by
  have hlength := (length_config_le m (configText m)).1
  rw [sdpWriteMediaAttributes, if_pos hvideo, if_neg hsome,
    writeConfig_eq_ok (fun c => fits 1024 (h264FmtpText m c)) (fun c => extradata2psets_eq_ok hvideo)
      fun h => Nat.lt_of_le_of_lt hlength (fits_eq_ok.mp h).1,
    fmtpText_h264 hvideo hsome]
  refine and_congr_right fun _ => ?_
  split
  · exact ⟨fun h => ⟨Nat.succ_pos _, h⟩, fun h => h.2⟩
  · exact fits_eq_ok

theorem aacAttributes_eq_ok {m : RtpMediaInfo} (haudio : m.payloadType = AAC)
    (hsome : m.extraData ≠ []) {r : List Byte} :
    sdpWriteMediaAttributes m = .ok r ↔
      (fmtpText m).length < 1024 ∧
        r = if fmtpText m = [] then [] else aacRtpmapText m ++ fmtpText m := by
  have hlength := (length_config_le m (configText m)).2
  have hvideo : m.payloadType ≠ H264 := by
    rw [haudio]
    decide
  let write : List Byte → Except Fault (List Byte) := fun config => do
    let rtpmap ← fits 1024 (aacRtpmapText m)
    let fmtp ← fits 1024 (aacFmtpText m config)
    .ok (rtpmap ++ fmtp)
  have hwrite : write (configText m) = .ok r ↔
      (aacFmtpText m (configText m)).length < 1024 ∧
        r = aacRtpmapText m ++ aacFmtpText m (configText m) := by
    dsimp only [write]
    rw [fits_of_lt (rtpmapText_fits m).2, ok_bind, bind_eq_ok]
    constructor
    · rintro ⟨fmtp, hfmtp, hr⟩
      obtain ⟨hlt, rfl⟩ := fits_eq_ok.mp hfmtp
      exact ⟨hlt, (Except.ok.inj hr).symm⟩
    · rintro ⟨hlt, rfl⟩
      exact ⟨_, fits_of_lt hlt, rfl⟩
  rw [sdpWriteMediaAttributes, if_neg hvideo, if_pos haudio, if_neg hsome,
    writeConfig_eq_ok write
      (fun c => (extradata2config_eq_ok hvideo).trans (iff_of_eq (true_and _)).symm)
      fun h => Nat.lt_of_le_of_lt hlength (hwrite.mp h).1,
    true_and, fmtpText_aac haudio hsome]
  by_cases hconfig : configText m = []
  · rw [if_pos hconfig, if_pos hconfig, if_pos rfl]
    exact ⟨fun h => ⟨Nat.succ_pos _, h⟩, fun h => h.2⟩
  · have hne : aacFmtpText m (configText m) ≠ [] := by
      intro h
      rw [h, List.length_nil, Nat.le_zero, List.length_eq_zero_iff] at hlength
      exact hconfig hlength
    rw [if_neg hconfig, if_neg hconfig, if_neg hne]
    exact hwrite

/-- The attributes are written exactly if the format parameters fit. -/
theorem sdpWriteMediaAttributes_eq_ok {m : RtpMediaInfo} {r : List Byte} :
    sdpWriteMediaAttributes m = .ok r ↔ MediumFits m ∧ r = attributesText m := by
  have hempty : ([] : List Byte).length < 1024 := Nat.succ_pos _
  rw [attributesText]
  by_cases hnone : m.extraData = []
  · have hfmtp : fmtpText m = [] := if_pos (.inl hnone)
    have hfits : MediumFits m := ⟨fun _ h => absurd hnone h, by rwa [hfmtp]⟩
    by_cases hvideo : m.payloadType = H264
    · rw [sdpWriteMediaAttributes, if_pos hvideo, if_pos hnone, if_pos ⟨hvideo, hnone⟩, fits_eq_ok]
      exact and_congr_left fun _ => iff_of_true (rtpmapText_fits m).1 hfits
    · have hwrite : sdpWriteMediaAttributes m = .ok [] := by
        rw [sdpWriteMediaAttributes, if_neg hvideo, if_pos hnone, ite_self]
      rw [hwrite, if_neg fun h => hvideo h.1, if_neg fun h => h.2 hfmtp, hfmtp]
      exact ⟨fun h => ⟨hfits, (Except.ok.inj h).symm⟩, fun h => congrArg _ h.2.symm⟩
  · rw [if_neg fun h => hnone h.2]
    by_cases hvideo : m.payloadType = H264
    · have hother : m.payloadType ≠ AAC := by
        rw [hvideo]
        decide
      rw [h264Attributes_eq_ok hvideo hnone, if_neg fun h => hother h.1, ← and_assoc]
      refine and_congr_left fun _ => ⟨fun h => ⟨fun _ _ => h.1, h.2⟩, fun h => ?_⟩
      exact ⟨h.units hvideo hnone, h.fmtp⟩
    · have hunits : MediumFits m ↔ (fmtpText m).length < 1024 :=
        ⟨fun h => h.fmtp, fun h => ⟨fun h => absurd h hvideo, h⟩⟩
      rw [hunits]
      by_cases haudio : m.payloadType = AAC
      · rw [aacAttributes_eq_ok haudio hnone]
        refine and_congr_right fun _ => ?_
        by_cases hfmtp : fmtpText m = []
        · rw [if_pos hfmtp, if_neg fun h => h.2 hfmtp, hfmtp]
        · rw [if_neg hfmtp, if_pos ⟨haudio, hfmtp⟩]
      · have hfmtp : fmtpText m = [] := by
          rw [fmtpText, if_neg hvideo, if_neg haudio, ite_self]
        have hwrite : sdpWriteMediaAttributes m = .ok [] := by
          rw [sdpWriteMediaAttributes, if_neg hvideo, if_neg haudio]
        rw [hwrite, if_neg fun h => haudio h.1, hfmtp]
        exact ⟨fun h => ⟨hempty, (Except.ok.inj h).symm⟩, fun h => congrArg _ h.2.symm⟩

/-! ## The header -/

/-- The strings of a session are words, which come out of arrays of 64 bytes. -/
structure SdpSessionLevel.Short (h : SdpSessionLevel) : Prop where
  srcType : h.srcType.length ≤ 63
  srcAddr : h.srcAddr.length ≤ 63
  dstType : h.dstType.length ≤ 63
  dstAddr : h.dstAddr.length ≤ 63
  name : h.name.length ≤ 63

/-- The address that is written, if there is one. -/
def addressPart (destAddr destType : List Byte) (ttl : BitVec 32) : List Byte :=
  if destAddr = [] then [] else addressText destAddr destType ttl

def headerText (h : SdpSessionLevel) : List Byte :=
  originText h ++ addressPart h.dstAddr h.dstType h.ttl ++ toolText

theorem sdpWriteAddress_eq {destAddr destType : List Byte} (haddr : destAddr.length ≤ 63)
    (htype : destType.length ≤ 63) (ttl : BitVec 32) :
    sdpWriteAddress destAddr destType ttl = .ok (addressPart destAddr destType ttl) := by
  have httl := length_formatInt ttl
  have hcIn : (ascii "c=IN ").length = 5 := by decide
  have hspace : (ascii " ").length = 1 := by decide
  have hslash : (ascii "/").length = 1 := by decide
  have hline : (ascii "\r\n").length = 2 := by decide
  rw [sdpWriteAddress, addressPart]
  split
  · rfl
  · refine fits_of_lt ?_
    rw [addressText]
    split
    · simp only [List.length_append, hcIn, hspace, hslash, hline]
      omega
    · simp only [List.length_append, hcIn, hspace, hline]
      omega

/-- The header of a session with short strings always fits. -/
theorem sdpWriteHeader_eq {h : SdpSessionLevel} (hshort : h.Short) :
    sdpWriteHeader h = .ok (headerText h) := by
  have hversion := length_formatInt h.sdpVersion
  have hid := length_formatInt h.id
  have hidVersion := length_formatInt h.version
  have hzero := length_formatInt 0
  have hv : (ascii "v=").length = 2 := by decide
  have ho : (ascii "\r\no=- ").length = 6 := by decide
  have hspace : (ascii " ").length = 1 := by decide
  have hIn : (ascii " IN ").length = 4 := by decide
  have hs : (ascii "\r\ns=").length = 4 := by decide
  have hline : (ascii "\r\n").length = 2 := by decide
  have ht : (ascii "t=").length = 2 := by decide
  have htool : (ascii "\r\na=tool:YouKu Media Server\r\n").length = 29 := by decide
  have horigin : (originText h).length < 1024 := by
    obtain ⟨hsrcType, hsrcAddr, -, -, hname⟩ := hshort
    rw [originText]
    simp only [List.length_append, hv, ho, hspace, hIn, hs, hline]
    omega
  have hend : toolText.length < 1024 := by
    rw [toolText]
    simp only [List.length_append, hspace, ht, htool]
    omega
  rw [sdpWriteHeader, fits_of_lt horigin, ok_bind, sdpWriteAddress_eq hshort.dstAddr hshort.dstType,
    ok_bind, fits_of_lt hend, ok_bind]
  rfl

/-! ## The media -/

/-- The text of a medium. -/
def mediumText (ttl : BitVec 32) (m : RtpMediaInfo) : List Byte :=
  mediaText m ++ addressPart m.destAddr (ascii "IP4") ttl ++ attributesText m

theorem mediaText_fits (m : RtpMediaInfo) : (mediaText m).length < 1024 := by
  have hport := length_formatShort m.destPort
  have htype := length_formatShort m.payloadType
  have hmedia : (mediaType m.payloadType).length ≤ 11 := by
    rw [mediaType]
    split
    · decide
    · split
      · decide
      · split
        · decide
        · decide
  have htransport : (mediaTransport m.rtpTransport).length ≤ 8 := by
    rw [mediaTransport]
    split
    · decide
    · decide
  have hm : (ascii "m=").length = 2 := by decide
  have hspace : (ascii " ").length = 1 := by decide
  have hline : (ascii "\r\n").length = 2 := by decide
  rw [mediaText]
  simp only [List.length_append, hm, hspace, hline]
  omega

theorem sdpWriteMedia_eq_ok {ttl : BitVec 32} {m : RtpMediaInfo} (haddr : m.destAddr.length ≤ 63)
    {r : List Byte} :
    sdpWriteMedia ttl m = .ok r ↔ MediumFits m ∧ r = mediumText ttl m := by
  have hip4 : (ascii "IP4").length ≤ 63 := by decide
  rw [sdpWriteMedia, fits_of_lt (mediaText_fits m), ok_bind, sdpWriteAddress_eq haddr hip4, ok_bind,
    bind_eq_ok]
  constructor
  · rintro ⟨attributes, hwrite, hr⟩
    obtain ⟨hfits, rfl⟩ := sdpWriteMediaAttributes_eq_ok.mp hwrite
    exact ⟨hfits, (Except.ok.inj hr).symm⟩
  · rintro ⟨hfits, rfl⟩
    exact ⟨_, sdpWriteMediaAttributes_eq_ok.mpr ⟨hfits, rfl⟩, rfl⟩

/-- The loop over the media. -/
theorem foldlM_sdpWriteMedia {ttl : BitVec 32} (ms : List RtpMediaInfo)
    (haddr : ∀ m ∈ ms, m.destAddr.length ≤ 63) : ∀ {text r : List Byte},
    ms.foldlM (fun text m => (sdpWriteMedia ttl m).map (text ++ ·)) text = .ok r ↔
      (∀ m ∈ ms, MediumFits m) ∧ r = text ++ ms.flatMap (mediumText ttl) := by
  induction ms with
  | nil =>
    intro text r
    rw [List.flatMap_nil, List.append_nil]
    exact ⟨fun h => ⟨fun m hm => (List.not_mem_nil hm).elim, (Except.ok.inj h).symm⟩,
      fun h => congrArg _ h.2.symm⟩
  | cons m ms ih =>
    intro text r
    have hrest := @ih fun m' hm' => haddr m' (List.mem_cons_of_mem m hm')
    have hone := @sdpWriteMedia_eq_ok ttl m (haddr m List.mem_cons_self)
    rw [List.foldlM_cons, bind_eq_ok, List.flatMap_cons, List.forall_mem_cons, and_assoc,
      ← List.append_assoc]
    constructor
    · rintro ⟨text', hwrite, hr⟩
      cases hm : sdpWriteMedia ttl m with
      | error e =>
        rw [hm] at hwrite
        cases hwrite
      | ok written =>
        obtain ⟨hfits, rfl⟩ := hone.mp hm
        rw [hm] at hwrite
        cases hwrite
        exact ⟨hfits, hrest.mp hr⟩
    · rintro ⟨hfits, hr⟩
      refine ⟨text ++ mediumText ttl m, ?_, hrest.mpr hr⟩
      rw [hone.mpr ⟨hfits, rfl⟩]
      rfl

/-! ## The whole text -/

namespace SdpInfo

/-- What `generate_sdp_str` makes, whatever its length. -/
def text (info : SdpInfo) : List Byte :=
  headerText info.sdpHeader ++ info.mediaInfos.flatMap (mediumText info.sdpHeader.ttl)

/-- The strings that were parsed are words. -/
structure Short (info : SdpInfo) : Prop where
  header : info.sdpHeader.Short
  media : ∀ m ∈ info.mediaInfos, m.destAddr.length ≤ 63

/-- The text and the format parameters of the media fit into the arrays that they are written
through. -/
structure Fits (info : SdpInfo) : Prop where
  media : ∀ m ∈ info.mediaInfos, MediumFits m
  text : info.text.length < 4096

variable {info : SdpInfo}

theorem generateSdpStr_eq_ok (hshort : info.Short) {r : SdpInfo} :
    info.generateSdpStr = .ok r ↔
      info.Fits ∧ r = { info with sdpSs := info.text, sdpChar := info.text } := by
  rw [generateSdpStr, sdpWriteHeader_eq hshort.header, ok_bind, bind_eq_ok]
  constructor
  · rintro ⟨written, hmedia, hr⟩
    obtain ⟨hfits, rfl⟩ := (foldlM_sdpWriteMedia _ hshort.media).mp hmedia
    obtain ⟨copied, hcopy, hr⟩ := bind_eq_ok.mp hr
    obtain ⟨hlt, rfl⟩ := fits_eq_ok.mp hcopy
    exact ⟨⟨hfits, hlt⟩, (Except.ok.inj hr).symm⟩
  · rintro ⟨hfits, rfl⟩
    refine ⟨_, (foldlM_sdpWriteMedia _ hshort.media).mpr ⟨hfits.media, rfl⟩, ?_⟩
    rw [show headerText info.sdpHeader ++ _ = info.text from rfl, fits_of_lt hfits.text]
    rfl

/-- A text is asked for: it is made exactly if there are media and none was made before. -/
theorem getSdpStr_isOk (hshort : info.Short) :
    (∃ r, info.getSdpStr = .ok r) ↔ (info.sdpChar = [] → info.mediaInfos ≠ [] → info.Fits) := by
  rw [getSdpStr]
  by_cases h : info.sdpChar = [] ∧ info.mediaInfos ≠ []
  · rw [if_pos h]
    constructor
    · rintro ⟨r, hr⟩ - -
      obtain ⟨info', hgenerate, -⟩ := bind_eq_ok.mp hr
      exact ((generateSdpStr_eq_ok hshort).mp hgenerate).1
    · intro hfits
      rw [(generateSdpStr_eq_ok hshort).mpr ⟨hfits h.1 h.2, rfl⟩]
      exact ⟨_, rfl⟩
  · rw [if_neg h]
    exact iff_of_true ⟨_, rfl⟩ fun hchar hmedia => absurd ⟨hchar, hmedia⟩ h

end SdpInfo

end RtcMcu.Avformat.Sdp
