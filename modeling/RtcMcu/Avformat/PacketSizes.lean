import RtcMcu.Avformat.H264Pieces

/-!
# The packets of a NAL unit and the length they may have

`init` takes every packet length above that of the header. `get_max_payload_len` leaves 10 bytes
more than the header free, in a `uint16_t`: from 13 to 21 bytes the difference wraps around to more
than 65000, and at 22 it is zero and `nal_generate` divides by it. So a unit is sent in packets of
the length asked for from 23 bytes on, and below 22 as long as it fits one packet with its header
(`nal_generate_fits_iff`).
-/

namespace RtcMcu.Avformat.RTPEncodeH264

open RtcMcu.Avcodec (slice)

/-! ## What a call adds -/

/-- The encoder went from `enc` to `enc'` by adding packets of the length it may send at most. -/
structure Adds (enc enc' : RTPEncodeH264) : Prop where
  maxRtpPacketLen : enc'.maxRtpPacketLen = enc.maxRtpPacketLen
  packets : ∃ sent, enc'.rtpDataVec = enc.rtpDataVec ++ sent ∧ ∀ data ∈ sent,
    data.len.toNat = rtpHeaderLen + data.header.data.length ∧
      data.len.toNat ≤ enc.maxRtpPacketLen.toNat

variable {enc enc₁ enc₂ enc' : RTPEncodeH264} {timestamp : BitVec 32}

theorem Adds.refl (enc : RTPEncodeH264) : enc.Adds enc :=
  ⟨rfl, [], (List.append_nil _).symm, nofun⟩

theorem Adds.trans (h₁ : enc.Adds enc₁) (h₂ : enc₁.Adds enc₂) : enc.Adds enc₂ := by
  obtain ⟨hlen₁, sent₁, hvec₁, hfit₁⟩ := h₁
  obtain ⟨hlen₂, sent₂, hvec₂, hfit₂⟩ := h₂
  refine ⟨hlen₂.trans hlen₁, sent₁ ++ sent₂, ?_, fun data hdata => ?_⟩
  · rw [hvec₂, hvec₁, List.append_assoc]
  · rcases List.mem_append.mp hdata with h | h
    · exact hfit₁ data h
    · rw [← hlen₁]
      exact hfit₂ data h

/-- A packet is sent only if it fits its block. -/
theorem pushPacket_adds {maker : Bool} {payload : List Byte}
    (h : enc.pushPacket timestamp maker payload = .ok enc') :
    enc.Adds enc' ∧ rtpHeaderLen + payload.length ≤ enc.maxRtpPacketLen.toNat := by
  by_cases hfit : rtpHeaderLen + payload.length ≤ enc.maxRtpPacketLen.toNat
  · have hsent := (if_pos hfit).symm.trans h
    cases hsent
    have hlt : rtpHeaderLen + payload.length < 2 ^ 16 :=
      Nat.lt_of_le_of_lt hfit enc.maxRtpPacketLen.isLt
    have hlen : (BitVec.ofNat 16 (rtpHeaderLen + payload.length)).toNat =
        rtpHeaderLen + payload.length := Nat.mod_eq_of_lt hlt
    refine ⟨⟨rfl, [_], rfl, fun data hdata => ?_⟩, hfit⟩
    rw [List.mem_singleton.mp hdata]
    exact ⟨hlen, Nat.le_trans (Nat.le_of_eq hlen) hfit⟩
  · cases (if_neg hfit).symm.trans h

theorem fragmentPacket_adds {nalu : Nalu} {last : Bool} {max i : Nat}
    (h : fragmentPacket nalu timestamp last max enc i = .ok enc') : enc.Adds enc' := by
  obtain ⟨bytes, -, hpush⟩ := bind_eq_ok.mp h
  exact (pushPacket_adds hpush).1

theorem foldlM_adds {f : RTPEncodeH264 → Nat → Except Fault RTPEncodeH264}
    (hf : ∀ e e' i, f e i = .ok e' → e.Adds e') (l : List Nat) (h : l.foldlM f enc = .ok enc') :
    enc.Adds enc' := by
  induction l generalizing enc with
  | nil =>
    cases h
    exact Adds.refl _
  | cons i l ih =>
    rw [List.foldlM_cons] at h
    obtain ⟨enc₁, hstep, hrest⟩ := bind_eq_ok.mp h
    exact (hf enc enc₁ i hstep).trans (ih hrest)

/-- Whatever `nal_generate` sends fits. -/
theorem nalGenerate_adds {nal : List Byte} {last : Bool}
    (h : enc.nalGenerate nal timestamp last = .ok enc') : enc.Adds enc' := by
  cases nal with
  | nil => cases h
  | cons header bytes =>
    simp only [nalGenerate] at h
    split at h
    · rw [singlePacket_eq] at h
      exact (pushPacket_adds h).1
    · split at h
      · cases h
      · exact foldlM_adds (fun e e' i he => fragmentPacket_adds he) _ h

/-! ## The payload size -/

/-- Below 22 bytes a packet, the size of the payload wraps around. -/
theorem getMaxPayloadLen_wraps (h : enc.maxRtpPacketLen.toNat < 22) :
    enc.getMaxPayloadLen.toNat = 2 ^ 16 + enc.maxRtpPacketLen.toNat - 22 := by
  rw [getMaxPayloadLen, rtpHeaderLen, BitVec.toNat_sub, BitVec.toNat_sub]
  simp only [BitVec.toNat_ofNat, BitVec.reduceToNat]
  omega

theorem getMaxPayloadLen_zero (h : enc.maxRtpPacketLen.toNat = 22) :
    enc.getMaxPayloadLen.toNat = 0 := by
  rw [getMaxPayloadLen, rtpHeaderLen, BitVec.toNat_sub, BitVec.toNat_sub, h]
  rfl

/-- A unit cut into fragments of the wrapped size: already the first does not fit. -/
theorem fragments_overflow {nal : List Byte} {last : Bool} (hmax : enc.maxRtpPacketLen.toNat < 22)
    {header : Byte} (hlen : enc.getMaxPayloadLen.toNat ≤ nal.length) :
    (List.range (packetNum nal.length enc.getMaxPayloadLen.toNat)).foldlM
      (fragmentPacket (Nalu.read header nal) timestamp last enc.getMaxPayloadLen.toNat) enc ≠
        .ok enc' := by
  intro h
  have hwraps := getMaxPayloadLen_wraps hmax
  have hheader := enc.headerLen_lt
  rw [rtpHeaderLen] at hheader
  have hnum : 0 < packetNum nal.length enc.getMaxPayloadLen.toNat := packetNum_pos (by omega) hlen
  have hslice := slice_fragment (show 0 < enc.getMaxPayloadLen.toNat by omega) hlen hnum
  obtain ⟨n, hn⟩ := Nat.exists_eq_add_one.mpr hnum
  rw [hn, List.range_succ_eq_map, List.foldlM_cons] at h
  obtain ⟨enc₁, hfirst, -⟩ := bind_eq_ok.mp h
  obtain ⟨bytes, hbytes, hpush⟩ := bind_eq_ok.mp hfirst
  have hbytes' := (Except.ok.inj (hslice.symm.trans hbytes)).symm
  have hfit := (pushPacket_adds hpush).2
  rw [List.length_cons, List.length_cons, hbytes', List.length_take, List.length_drop,
    rtpHeaderLen] at hfit
  omega

/-! ## When a unit is sent -/

/-- `nal_generate` comes to an end for a unit, and every packet it adds has at most the length that
`init` was given. -/
def SendsWithin (enc : RTPEncodeH264) (nal : List Byte) (timestamp : BitVec 32) (last : Bool) :
    Prop :=
  ∃ enc' sent, enc.nalGenerate nal timestamp last = .ok enc' ∧
    enc'.rtpDataVec = enc.rtpDataVec ++ sent ∧ ∀ data ∈ sent,
      data.len.toNat = rtpHeaderLen + data.header.data.length ∧
        data.len.toNat ≤ enc.maxRtpPacketLen.toNat

theorem sendsWithin_iff {nal : List Byte} {last : Bool} :
    enc.SendsWithin nal timestamp last ↔ ∃ enc', enc.nalGenerate nal timestamp last = .ok enc' := by
  constructor
  · rintro ⟨enc', -, h, -, -⟩
    exact ⟨enc', h⟩
  · rintro ⟨enc', h⟩
    obtain ⟨sent, hvec, hfit⟩ := (nalGenerate_adds h).packets
    exact ⟨enc', sent, h, hvec, hfit⟩

/-- A unit of at least one byte is sent in packets of the length asked for if that length is 23 or
more, or below 22 and long enough for the whole unit behind a header. -/
theorem nal_generate_fits_iff (enc : RTPEncodeH264) (nal : List Byte) (timestamp : BitVec 32)
    (last : Bool) (hnal : nal ≠ []) :
    enc.SendsWithin nal timestamp last ↔
      23 ≤ enc.maxRtpPacketLen.toNat ∨
        (enc.maxRtpPacketLen.toNat < 22 ∧
          rtpHeaderLen + nal.length ≤ enc.maxRtpPacketLen.toNat) := by
  rw [sendsWithin_iff]
  rcases Nat.lt_trichotomy enc.maxRtpPacketLen.toNat 22 with hmax | hmax | hmax
  · have hwraps := getMaxPayloadLen_wraps hmax
    have hheader := enc.headerLen_lt
    rw [or_iff_right (by omega), and_iff_right hmax]
    obtain ⟨header, bytes, rfl⟩ := List.exists_cons_of_ne_nil hnal
    by_cases hshort : (Nalu.read header (header :: bytes)).len < enc.getMaxPayloadLen.toNat
    · have hcall : enc.nalGenerate (header :: bytes) timestamp last =
          enc.singlePacket (Nalu.read header (header :: bytes)) timestamp last := if_pos hshort
      rw [hcall, singlePacket_eq]
      constructor
      · rintro ⟨enc', h⟩
        exact (pushPacket_adds h).2
      · exact fun h => ⟨_, if_pos h⟩
    · have hcall : enc.nalGenerate (header :: bytes) timestamp last = _ :=
        (if_neg hshort).trans (if_neg (by omega))
      rw [hcall]
      have hlen : enc.getMaxPayloadLen.toNat ≤ (header :: bytes).length := Nat.le_of_not_lt hshort
      apply iff_of_false
      · rintro ⟨enc', h⟩
        exact fragments_overflow hmax hlen h
      · intro h
        rw [rtpHeaderLen] at h hheader
        omega
  · have hzero := getMaxPayloadLen_zero hmax
    obtain ⟨header, bytes, rfl⟩ := List.exists_cons_of_ne_nil hnal
    have hcall : enc.nalGenerate (header :: bytes) timestamp last = .error .divideByZero := by
      simp only [nalGenerate, hzero, Nat.not_lt_zero, if_false, if_true]
    rw [hcall]
    apply iff_of_false
    · rintro ⟨enc', h⟩
      cases h
    · omega
  · obtain ⟨enc', h, -⟩ := @nalGenerate_sends _ timestamp _ last hmax hnal
    exact iff_of_true ⟨enc', h⟩ (.inl hmax)

/-- A unit of three bytes in packets of at most 15. -/
theorem nal_generate_fits_small :
    ((init 1 90000 15 1).get rfl).SendsWithin [0x65, 1, 2] 0 true :=
  (nal_generate_fits_iff ((init 1 90000 15 1).get rfl) [0x65, 1, 2] 0 true
    (List.cons_ne_nil _ _)).mpr (.inr ⟨by decide, by decide⟩)

/-- An encoder for packets of 22 bytes is accepted, and divides by zero. -/
theorem packets_of_22_bytes_divide_by_zero :
    ∃ enc, init 1 90000 22 1 = some enc ∧
      enc.nalGenerate [0x65, 1, 2] 0 true = .error .divideByZero ∧
      ¬ enc.SendsWithin [0x65, 1, 2] 0 true := by
  refine ⟨_, rfl, rfl, ?_⟩
  rw [sendsWithin_iff]
  rintro ⟨enc', h⟩
  cases h

end RtcMcu.Avformat.RTPEncodeH264
