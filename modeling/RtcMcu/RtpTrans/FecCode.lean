import RtcMcu.RtpTrans.RtpSenderSession
import RtcMcu.RtpTrans.RtpReceiverSession

/-!
# FEC packets as a code

Both kinds of FEC sum up the same fields of a group of packets, and both recoveries sum up the
fields of the packets that came, from the FEC packet's on. Here the two loops are brought to the
parities of `Lib.Parity`, field by field and byte by byte, and it is said when the end of a recovery
gives back a packet.
-/

namespace RtcMcu.RtpTrans

open RtcMcu.Avformat RtcMcu.Fragment RtcMcu.Parity

/-! ## The sender's sum -/

/-- The bytes of a whole packet behind its header. -/
theorem payloadBytes_len (p : Rtp) : payloadBytes p p.len = .ok p.data := by
  have hle : ¬ p.len < rtpHeaderLen := by
    simp only [Rtp.len]
    omega
  have hlen : p.len - rtpHeaderLen = p.data.length := by
    simp only [Rtp.len]
    omega
  rw [payloadBytes, if_neg hle, hlen, List.take_length]

/-- A whole packet added. -/
def FecSum.plus (ssrc : BitVec 32) (acc : FecSum) (p : Rtp) : FecSum :=
  if acc.isFirst then
    { isFirst := false
      payload := p.payload
      timestamp := p.timestamp
      length := BitVec.ofNat 16 p.len
      mark := p.marker
      rtpTimestamp := p.timestamp
      ssrc := ssrc
      rtpPktLen := p.len
      fecData := copyOver acc.fecData p.data }
  else
    { acc with
      payload := acc.payload ^^^ p.payload
      timestamp := acc.timestamp ^^^ p.timestamp
      length := acc.length ^^^ BitVec.ofNat 16 p.len
      mark := acc.mark ^^^ p.marker
      rtpPktLen := max acc.rtpPktLen p.len
      fecData := xorInto acc.fecData p.data }

theorem FecSum.add_len (ssrc : BitVec 32) (acc : FecSum) (p : Rtp) :
    acc.add ssrc p p.len = .ok (acc.plus ssrc p) := by
  rw [FecSum.add, payloadBytes_len, ok_bind, FecSum.plus]
  cases acc.isFirst with
  | true => rfl
  | false => simp only [Bool.false_eq_true, ↓reduceIte, fecXor64_eq]

/-- The sum is that of the packets `ps`: every field is their parity. -/
structure FecSum.Sums (room : Nat) (acc : FecSum) (ps : List Rtp) : Prop where
  isFirst : acc.isFirst = ps.isEmpty
  payload : acc.payload = parity (fun p : Rtp => p.payload) ps
  timestamp : acc.timestamp = parity (fun p : Rtp => p.timestamp) ps
  length : acc.length = parity (fun p => BitVec.ofNat 16 p.len) ps
  mark : acc.mark = parity (fun p : Rtp => p.marker) ps
  room_eq : acc.fecData.length = room
  fecData : ∀ i, i < room → acc.fecData.getD i 0 = parity (fun p => p.data.getD i 0) ps
  len_le : ∀ p ∈ ps, p.len ≤ acc.rtpPktLen
  le_len : ∀ b, (∀ p ∈ ps, p.len ≤ b) → acc.rtpPktLen ≤ b

theorem FecSum.start_sums (room : Nat) : (FecSum.start room).Sums room [] where
  isFirst := rfl
  payload := rfl
  timestamp := rfl
  length := rfl
  mark := rfl
  room_eq := List.length_replicate
  fecData i hi := by
    rw [FecSum.start, List.getD_eq_getElem?_getD, List.getElem?_replicate, if_pos hi]
    rfl
  len_le := by
    intro p hp
    cases hp
  le_len := fun b _ => Nat.zero_le b

/-- Adding a packet to the sum adds it to the list: copying the first is adding it to zero. -/
theorem FecSum.plus_sums {room : Nat} {acc : FecSum} {ps : List Rtp} (h : acc.Sums room ps)
    (ssrc : BitVec 32) (p : Rtp) : (acc.plus ssrc p).Sums room (ps ++ [p]) := by
  cases hps : ps with
  | nil =>
    subst hps
    have hfirst : acc.isFirst = true := h.isFirst
    have hzeros : acc.fecData = List.replicate room 0 := by
      refine ext_getD (by rw [h.room_eq, List.length_replicate]) fun i hi => ?_
      rw [h.room_eq] at hi
      rw [h.fecData i hi, List.getD_eq_getElem?_getD, List.getElem?_replicate, if_pos hi]
      rfl
    have hplus : (acc.plus ssrc p).fecData = xorInto (List.replicate room 0) p.data := by
      rw [FecSum.plus, if_pos hfirst, hzeros]
      exact copyOver_zeros room p.data
    refine ⟨?_, ?_, ?_, ?_, ?_, ?_, ?_, ?_, ?_⟩
    · rw [FecSum.plus, if_pos hfirst]
      rfl
    · rw [FecSum.plus, if_pos hfirst]
      exact BitVec.xor_zero.symm
    · rw [FecSum.plus, if_pos hfirst]
      exact BitVec.xor_zero.symm
    · rw [FecSum.plus, if_pos hfirst]
      exact BitVec.xor_zero.symm
    · rw [FecSum.plus, if_pos hfirst]
      exact BitVec.xor_zero.symm
    · rw [hplus, length_xorInto, List.length_replicate]
    · intro i hi
      rw [hplus, getD_xorInto (by rwa [List.length_replicate]), List.getD_eq_getElem?_getD,
        List.getElem?_replicate, if_pos hi]
      exact BitVec.zero_xor.trans BitVec.xor_zero.symm
    · intro q hq
      exact Nat.le_of_eq (by rw [List.mem_singleton.mp hq, FecSum.plus, if_pos hfirst])
    · intro b hb
      rw [FecSum.plus, if_pos hfirst]
      exact hb p (List.mem_singleton.mpr rfl)
  | cons q qs =>
    have hfirst : ¬ acc.isFirst = true := by
      rw [h.isFirst, hps]
      exact Bool.false_ne_true
    rw [← hps]
    have hone : ∀ {w : Nat} (f : Rtp → BitVec w), parity f (ps ++ [p]) = parity f ps ^^^ f p := by
      intro w f
      rw [parity_append, parity_cons, parity_nil]
      exact congrArg _ BitVec.xor_zero
    rw [FecSum.plus, if_neg hfirst]
    refine ⟨?_, ?_, ?_, ?_, ?_, ?_, ?_, ?_, ?_⟩
    · rw [hps]
      exact Bool.eq_false_iff.mpr hfirst
    · rw [hone, h.payload]
    · rw [hone, h.timestamp]
    · rw [hone, h.length]
    · rw [hone, h.mark]
    · rw [length_xorInto, h.room_eq]
    · intro i hi
      rw [hone, getD_xorInto (by rwa [h.room_eq]), h.fecData i hi]
    · intro r hr
      rcases List.mem_append.mp hr with hr | hr
      · exact Nat.le_trans (h.len_le r hr) (Nat.le_max_left _ _)
      · rw [List.mem_singleton.mp hr]
        exact Nat.le_max_right _ _
    · intro b hb
      refine Nat.max_le.mpr ⟨h.le_len b fun r hr => hb r (List.mem_append_left _ hr), ?_⟩
      exact hb p (List.mem_append_right _ (List.mem_singleton.mpr rfl))

/-- The sum of a list of packets. -/
theorem FecSum.foldl_plus_sums (ssrc : BitVec 32) {room : Nat} (qs : List Rtp) {acc : FecSum}
    {ps : List Rtp} (h : acc.Sums room ps) :
    (qs.foldl (FecSum.plus ssrc) acc).Sums room (ps ++ qs) := by
  induction qs generalizing acc ps with
  | nil => rwa [List.append_nil]
  | cons q qs ih =>
    rw [List.foldl_cons, show ps ++ q :: qs = (ps ++ [q]) ++ qs by
      rw [List.append_assoc, List.singleton_append]]
    exact ih (FecSum.plus_sums h ssrc q)

/-- The data of the FEC packet, copied over zeros, is at each place the parity of the data: past
the longest packet both are zero. -/
theorem FecSum.Sums.target {room : Nat} {acc : FecSum} {ps : List Rtp} (h : acc.Sums room ps)
    (hroom : acc.rtpPktLen - rtpHeaderLen ≤ room) {n i : Nat} (hi : i < n) :
    (copyOver (List.replicate n 0) (acc.fecData.take (acc.rtpPktLen - rtpHeaderLen))).getD i 0 =
      parity (fun p => p.data.getD i 0) ps := by
  have hzeros : (List.replicate n (0 : Byte)).getD i 0 = 0 := by
    rw [List.getD_eq_getElem?_getD, List.getElem?_replicate, if_pos hi]
    rfl
  rw [copyOver_zeros, getD_xorInto (by rwa [List.length_replicate]), hzeros]
  refine BitVec.zero_xor.trans ?_
  by_cases hlen : i < acc.rtpPktLen - rtpHeaderLen
  · rw [← h.fecData i (Nat.lt_of_lt_of_le hlen hroom), List.getD_eq_getElem?_getD,
      List.getD_eq_getElem?_getD, List.getElem?_take_of_lt hlen]
  · rw [List.getD_eq_getElem?_getD, List.getElem?_eq_none (by rw [List.length_take]; omega)]
    refine (parity_eq_zero fun p hp => ?_).symm
    have hp' := h.len_le p hp
    rw [List.getD_eq_getElem?_getD, List.getElem?_eq_none (by simp only [Rtp.len] at hp'; omega)]
    rfl

/-! ## The receiver's sum -/

/-- A whole packet xored out. -/
def Recovering.plus (acc : Recovering) (p : Rtp) : Recovering :=
  { acc with
    csrcLen := acc.csrcLen ^^^ p.csrcLen
    extension := acc.extension ^^^ p.extension
    padding := acc.padding ^^^ p.padding
    marker := acc.marker ^^^ p.marker
    payload := acc.payload ^^^ p.payload
    length := acc.length ^^^ BitVec.ofNat 16 p.len
    timestamp := acc.timestamp ^^^ p.timestamp
    target := xorInto acc.target p.data }

theorem Recovering.add_some (acc : Recovering) (p : Rtp) :
    acc.add (some p) p.len = .ok (acc.plus p) := by
  simp only [Recovering.add, payloadBytes_len, ok_bind, fecXor64_eq, Recovering.plus]

/-- The sum is that of the packets `ps` over `base`. -/
structure Recovering.Sums (base acc : Recovering) (ps : List Rtp) : Prop where
  csrcLen : acc.csrcLen = base.csrcLen ^^^ parity (fun p : Rtp => p.csrcLen) ps
  extension : acc.extension = base.extension ^^^ parity (fun p : Rtp => p.extension) ps
  padding : acc.padding = base.padding ^^^ parity (fun p : Rtp => p.padding) ps
  marker : acc.marker = base.marker ^^^ parity (fun p : Rtp => p.marker) ps
  payload : acc.payload = base.payload ^^^ parity (fun p : Rtp => p.payload) ps
  length : acc.length = base.length ^^^ parity (fun p => BitVec.ofNat 16 p.len) ps
  timestamp : acc.timestamp = base.timestamp ^^^ parity (fun p : Rtp => p.timestamp) ps
  target_length : acc.target.length = base.target.length
  target : ∀ i, i < base.target.length →
    acc.target.getD i 0 = base.target.getD i 0 ^^^ parity (fun p => p.data.getD i 0) ps

theorem Recovering.sums_nil (base : Recovering) : base.Sums base [] where
  csrcLen := BitVec.xor_zero.symm
  extension := BitVec.xor_zero.symm
  padding := BitVec.xor_zero.symm
  marker := BitVec.xor_zero.symm
  payload := BitVec.xor_zero.symm
  length := BitVec.xor_zero.symm
  timestamp := BitVec.xor_zero.symm
  target_length := rfl
  target _ _ := BitVec.xor_zero.symm

/-- A first packet xored out, and then the others. -/
theorem Recovering.Sums.cons {base acc : Recovering} {p : Rtp} {ps : List Rtp}
    (h : (base.plus p).Sums acc ps) : base.Sums acc (p :: ps) where
  csrcLen := h.csrcLen.trans (BitVec.xor_assoc _ _ _)
  extension := h.extension.trans (BitVec.xor_assoc _ _ _)
  padding := h.padding.trans (BitVec.xor_assoc _ _ _)
  marker := h.marker.trans (BitVec.xor_assoc _ _ _)
  payload := h.payload.trans (BitVec.xor_assoc _ _ _)
  length := h.length.trans (BitVec.xor_assoc _ _ _)
  timestamp := h.timestamp.trans (BitVec.xor_assoc _ _ _)
  target_length := h.target_length.trans (length_xorInto _ _)
  target i hi := by
    rw [h.target i (by simpa only [Recovering.plus, length_xorInto] using hi), parity_cons,
      ← BitVec.xor_assoc]
    exact congrArg (· ^^^ _) (getD_xorInto hi)

/-- The loop over the members when the cache has those of `present`. -/
theorem Recovering.addAll_sums {get : Bool → Seq → Except Fault (Option Rtp × Nat)} {video : Bool}
    (pkts : Seq → Rtp) (present : Seq → Bool) (members : List Seq)
    (hget : ∀ t ∈ members, get video t =
      .ok (if present t then (some (pkts t), (pkts t).len) else (none, 0)))
    (base : Recovering) :
    ∃ acc, Recovering.addAll get video base members = .ok acc ∧
      base.Sums acc ((members.filter present).map pkts) ∧
      acc.error = base.error + (members.filter fun t => !present t).length := by
  induction members generalizing base with
  | nil => exact ⟨base, rfl, base.sums_nil, rfl⟩
  | cons t ts ih =>
    have hts := fun u hu => hget u (List.mem_cons_of_mem t hu)
    have hstep : Recovering.addAll get video base (t :: ts) =
        (do let acc ← base.add (if present t then some (pkts t) else none)
              (if present t then (pkts t).len else 0)
            Recovering.addAll get video acc ts) := by
      rw [Recovering.addAll, List.foldlM_cons, hget t List.mem_cons_self]
      cases present t <;> rfl
    rw [hstep]
    cases hp : present t with
    | true =>
      obtain ⟨acc, hacc, hsums, herr⟩ := ih hts (base.plus (pkts t))
      refine ⟨acc, ?_, ?_, ?_⟩
      · simp only [↓reduceIte, Recovering.add_some, ok_bind, hacc]
      · rw [List.filter_cons_of_pos hp, List.map_cons]
        exact hsums.cons
      · rw [herr, List.filter_cons_of_neg (by simp [hp])]
        rfl
    | false =>
      obtain ⟨acc, hacc, hsums, herr⟩ := ih hts { base with error := base.error + 1 }
      refine ⟨acc, ?_, ?_, ?_⟩
      · simp only [Bool.false_eq_true, ↓reduceIte, Recovering.add, ok_bind, hacc]
      · rw [List.filter_cons_of_neg (by simp [hp])]
        exact ⟨hsums.csrcLen, hsums.extension, hsums.padding, hsums.marker, hsums.payload,
          hsums.length, hsums.timestamp, hsums.target_length, hsums.target⟩
      · rw [herr, List.filter_cons_of_pos (by simp [hp]), List.length_cons]
        show base.error + 1 + _ = _
        omega

/-! ## The end of a recovery -/

/-- The session recovers the packet `m`: a packet of its length lies in `_pkt_data`, equal to it
but for the ssrc, which is the session's. -/
def Recovers (r : RTPRecvSession × Option Nat) (ssrc : BitVec 32) (m : Rtp) : Prop :=
  r.2 = some m.len ∧ r.1.pktData.copy m.len = m.setSsrc ssrc

/-- The sums are the fields of `m`. -/
structure Recovering.Is (acc : Recovering) (m : Rtp) : Prop where
  csrcLen : acc.csrcLen = m.csrcLen
  extension : acc.extension = m.extension
  padding : acc.padding = m.padding
  marker : acc.marker = m.marker
  payload : acc.payload = m.payload
  length : acc.length = BitVec.ofNat 16 m.len
  timestamp : acc.timestamp = m.timestamp
  version : m.version = 2
  target : ∀ i, i < m.data.length → acc.target.getD i 0 = m.data.getD i 0

/-- A recovery with at most one member missing gives back `m` exactly when the sums are the fields
of `m`. -/
theorem finishRecovery_iff (s : RTPRecvSession) {acc : Recovering} {m : Rtp}
    (herr : acc.error < 2) (hpt : m.payload ≠ 0) (hlen : m.len < 2 ^ 16)
    (htarget : m.data.length ≤ acc.target.length) :
    Recovers (s.finishRecovery m.seq acc) s.ssrc m ↔ acc.Is m := by
  have htoNat : (BitVec.ofNat 16 m.len).toNat = m.len := Nat.mod_eq_of_lt hlen
  have hcopy : m.len - rtpHeaderLen = m.data.length := by
    simp only [Rtp.len]
    omega
  have hpos : 0 < m.len := by
    simp only [Rtp.len, rtpHeaderLen]
    omega
  by_cases hdone : acc.error < 2 ∧ 0 < acc.length ∧ 0 < acc.payload
  · simp only [Recovers, RTPRecvSession.finishRecovery, if_pos hdone, Recovering.packet, ↓reduceIte,
      Rtp.copy, Rtp.setSsrc, hcopy, Option.some.injEq, Rtp.mk.injEq, RtpFixedHeader.mk.injEq]
    constructor
    · rintro ⟨hl, ⟨hcsrc, hext, hpad, hver, hpay, hmark, -, hts, -⟩, hdata⟩
      refine ⟨hcsrc, hext, hpad, hmark, hpay, ?_, hts, hver.symm, fun i hi => ?_⟩
      · rw [← hl, BitVec.ofNat_toNat, BitVec.setWidth_eq]
      · rw [← hdata, List.getD_eq_getElem?_getD, List.getD_eq_getElem?_getD,
          List.getElem?_take_of_lt hi]
    · intro h
      refine ⟨by rw [h.length, htoNat], ⟨h.csrcLen, h.extension, h.padding, h.version.symm,
        h.payload, h.marker, trivial, h.timestamp, trivial⟩, ?_⟩
      have hlenTake : (acc.target.take m.data.length).length = m.data.length := by
        rw [List.length_take]
        omega
      refine ext_getD hlenTake fun i hi => ?_
      rw [hlenTake] at hi
      rw [← h.target i hi, List.getD_eq_getElem?_getD, List.getD_eq_getElem?_getD,
        List.getElem?_take_of_lt hi]
  · simp only [Recovers, RTPRecvSession.finishRecovery, if_neg hdone]
    constructor
    · rintro ⟨h, -⟩
      cases h
    · intro h
      refine absurd ⟨herr, ?_, ?_⟩ hdone
      · rw [h.length, BitVec.lt_def, htoNat]
        exact hpos
      · rw [h.payload, BitVec.lt_def]
        exact Nat.pos_of_ne_zero fun hzero => hpt (BitVec.eq_of_toNat_eq hzero)

/-- A packet of H264 video with one data byte, for the instances of the results on groups. -/
def videoPacket (seq : Seq) (csrcLen : BitVec 4) : Rtp :=
  { Rtp.zero with
    csrcLen := csrcLen
    version := 2
    payload := RTP_AV_H264
    seq := seq
    data := [seq.setWidth 8] }

theorem videoPacket_len (seq : Seq) (csrcLen : BitVec 4) : (videoPacket seq csrcLen).len = 13 := rfl

/-- The cache of a sender that has every packet. -/
def fullCache (pkts : Seq → Rtp) : GetRtp := fun _ t => .ok (some (pkts t), (pkts t).len)

end RtcMcu.RtpTrans
