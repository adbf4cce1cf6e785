import RtcMcu.RtpTrans.FecCode

/-!
# Row and column FEC

The F_FEC packet names its group by `M` and `N`, of eight bits each, and the receiver derives the
members from them; the sender leaves the csrc count, the extension and the padding of the members
out of the sum, the receiver takes them from the members that came. So the FEC packet gives the
missing member back exactly when the derived group lacks only that member, the left out fields sum
to zero over it, and the others have the same sum over both groups (`FFecGroup.Recoverable`). For a
geometry that fits the eight bits the two groups are one (`FFecGroup.derived_eq_members`).
-/

namespace RtcMcu.RtpTrans

open RtcMcu.Avformat RtcMcu.Fragment RtcMcu.Parity

/-! ## The two groups -/

/-- The numbers the sender sums up. -/
def FFecGroup.members (g : FFecGroup) : List Seq := (List.range g.count.toNat).map g.member

/-- The numbers the receiver derives from `M`, `N` and the base. -/
def FFecGroup.derived (g : FFecGroup) : List Seq :=
  fFecMembers (FFecHeader.mk 0 0 0 3 0 0 0 0 g.seqBase g.m g.n)

/-- The condition under which the FEC packet of the group gives back the member `m`, when all others
of the sender's group have come. -/
structure FFecGroup.Recoverable (g : FFecGroup) (pkts : Seq → Rtp) (m : Seq) : Prop where
  only_missing : (g.derived.filter fun t => !decide (t ∈ g.members ∧ t ≠ m)) = [m]
  csrcLen : parity (fun t => (pkts t).csrcLen) g.derived = 0
  extension : parity (fun t => (pkts t).extension) g.derived = 0
  padding : parity (fun t => (pkts t).padding) g.derived = 0
  version : (pkts m).version = 2
  marker : parity (fun t => (pkts t).marker) g.members = parity (fun t => (pkts t).marker) g.derived
  payload : parity (fun t => (pkts t).payload) g.members =
    parity (fun t => (pkts t).payload) g.derived
  length : parity (fun t => BitVec.ofNat 16 (pkts t).len) g.members =
    parity (fun t => BitVec.ofNat 16 (pkts t).len) g.derived
  timestamp : parity (fun t => (pkts t).timestamp) g.members =
    parity (fun t => (pkts t).timestamp) g.derived
  data : ∀ i, i < (pkts m).data.length → parity (fun t => (pkts t).data.getD i 0) g.members =
    parity (fun t => (pkts t).data.getD i 0) g.derived

/-! ## The sender's packet -/

section Group

variable {g : FFecGroup} {pkts : Seq → Rtp} {acc : FecSum}

/-- The header of the FEC packet as it goes out. -/
def FFecGroup.header (g : FFecGroup) (acc : FecSum) : FFecHeader :=
  FFecHeader.mk 0 0 0 3 acc.payload acc.mark acc.length acc.timestamp g.seqBase g.m g.n

/-- What the receiver has of the FEC packet: the header and as much data as the longest member. -/
theorem FFecGroup.packet_data (g : FFecGroup) {acc : FecSum} (hlen : rtpHeaderLen ≤ acc.rtpPktLen) :
    ((g.packet acc).copy (acc.rtpPktLen + fFecHeaderLen)).data =
      (g.header acc).bytes ++ acc.fecData.take (acc.rtpPktLen - rtpHeaderLen) := by
  have hcut : acc.rtpPktLen + fFecHeaderLen - rtpHeaderLen =
      (acc.rtpPktLen - rtpHeaderLen) + 20 := by
    simp only [fFecHeaderLen]
    omega
  simp only [Rtp.copy, hcut]
  rfl

/-! ## The receiver -/

/-- Where the receiver's sum over the FEC packet starts. -/
def FecSum.base (acc : FecSum) : Recovering where
  csrcLen := 0
  extension := 0
  padding := 0
  marker := acc.mark
  payload := acc.payload
  length := acc.length
  timestamp := acc.timestamp
  target := copyOver (List.replicate (2048 - rtpHeaderLen) 0)
    (acc.fecData.take (acc.rtpPktLen - rtpHeaderLen))
  error := 0

theorem FecSum.base_target_length (acc : FecSum) :
    acc.base.target.length = 2048 - rtpHeaderLen := by
  rw [FecSum.base, copyOver_zeros, length_xorInto, List.length_replicate]

end Group

/-! ## Geometries that fit eight bits -/

/-- For one group on both sides the condition is that the flags the sender leaves out sum to zero,
and that the version is 2. -/
theorem FFecGroup.recoverable_iff_flags {g : FFecGroup} (heq : g.derived = g.members)
    (hnodup : g.members.Nodup) {pkts : Seq → Rtp} {m : Seq} (hm : m ∈ g.members) :
    g.Recoverable pkts m ↔ parity (fun t => (pkts t).csrcLen) g.members = 0 ∧
      parity (fun t => (pkts t).extension) g.members = 0 ∧
      parity (fun t => (pkts t).padding) g.members = 0 ∧ (pkts m).version = 2 := by
  constructor
  · intro h
    rw [← heq]
    exact ⟨h.csrcLen, h.extension, h.padding, h.version⟩
  · rintro ⟨hcsrc, hext, hpad, hver⟩
    rw [← heq] at hcsrc hext hpad
    refine ⟨?_, hcsrc, hext, hpad, hver, ?_, ?_, ?_, ?_, fun i _ => ?_⟩
    · rw [heq]
      have honly : (g.members.filter fun t => !decide (t ∈ g.members ∧ t ≠ m)) =
          g.members.filter (· == m) := by
        refine List.filter_congr fun t ht => ?_
        by_cases htm : t = m
        · simp [htm]
        · simp [htm, ht]
      rw [honly, List.filter_beq, List.count_eq_one_of_mem hnodup hm]
      rfl
    all_goals rw [heq]

/-- The numbers of `n` members that lie `step` apart, without a whole turn, are different. -/
theorem nodup_steps (base : Seq) (n step : Nat) (hstep : 0 < step) (hturn : n * step ≤ 2 ^ 16) :
    ((List.range n).map fun i => base + BitVec.ofNat 16 (i * step)).Nodup := by
  refine List.Nodup.map_on ?_ List.nodup_range
  intro i hi j hj heq
  have hlt : ∀ k, k < n → k * step < 2 ^ 16 := fun k hk =>
    Nat.lt_of_lt_of_le (Nat.mul_lt_mul_of_pos_right hk hstep) hturn
  have hofs := congrArg BitVec.toNat ((BitVec.add_right_inj base).mp heq)
  rw [BitVec.toNat_ofNat, BitVec.toNat_ofNat, Nat.mod_eq_of_lt (hlt i (List.mem_range.mp hi)),
    Nat.mod_eq_of_lt (hlt j (List.mem_range.mp hj))] at hofs
  exact Nat.eq_of_mul_eq_mul_right hstep hofs

/-- The sender's group as numbers a distance apart. -/
theorem FFecGroup.members_eq (g : FFecGroup) : g.members =
    (List.range g.count.toNat).map fun i => g.seqBase + BitVec.ofNat 16 (i * g.interleave.toNat) := by
  refine List.map_congr_left fun i _ => ?_
  rw [FFecGroup.member, BitVec.ofNat_mul, BitVec.ofNat_toNat, BitVec.setWidth_eq]

/-- A row of at most 255, or a column of at most 255 rows less than 255 apart: the receiver derives
the sender's group, and its numbers are different. -/
theorem FFecGroup.derived_eq_members {cfg : RTPTransConfig} (seq : Seq) (row : Bool)
    (hrow : row = true → 1 < cfg.fecL.toNat ∧ cfg.fecL.toNat ≤ 255)
    (hcol : row = false → cfg.fecDL.toNat ≤ 255 ∧ 0 < cfg.fecD.toNat ∧ cfg.fecD.toNat < 255) :
    (FFecGroup.of cfg seq row).derived = (FFecGroup.of cfg seq row).members ∧
      (FFecGroup.of cfg seq row).members.Nodup := by
  rw [FFecGroup.members_eq]
  cases row with
  | true =>
    obtain ⟨-, hl⟩ := hrow rfl
    have hcount : (cfg.fecL.setWidth 16).toNat = cfg.fecL.toNat := by
      rw [BitVec.toNat_setWidth, Nat.mod_eq_of_lt (by omega)]
    have hm : (cfg.fecL.setWidth 8).toNat = cfg.fecL.toNat := by
      rw [BitVec.toNat_setWidth, Nat.mod_eq_of_lt (by omega)]
    simp only [FFecGroup.derived, fFecMembers, fFecStep, FFecGroup.of, ↓reduceIte, hcount, hm,
      BitVec.ofNat_eq_ofNat, BitVec.toNat_ofNat, Nat.zero_mod, Nat.lt_irrefl, false_and]
    exact ⟨trivial, nodup_steps _ _ 1 (by decide) (by omega)⟩
  | false =>
    obtain ⟨hdl, hd, hd'⟩ := hcol rfl
    have hcount : (cfg.fecDL.setWidth 16).toNat = cfg.fecDL.toNat := by
      rw [BitVec.toNat_setWidth, Nat.mod_eq_of_lt (by omega)]
    have hm : (cfg.fecDL.setWidth 8).toNat = cfg.fecDL.toNat := by
      rw [BitVec.toNat_setWidth, Nat.mod_eq_of_lt (by omega)]
    have hstep : (cfg.fecD.setWidth 16).toNat = cfg.fecD.toNat := by
      rw [BitVec.toNat_setWidth, Nat.mod_eq_of_lt (by omega)]
    have hn : (cfg.fecD.setWidth 8).toNat = cfg.fecD.toNat := by
      rw [BitVec.toNat_setWidth, Nat.mod_eq_of_lt (by omega)]
    simp only [FFecGroup.derived, fFecMembers, fFecStep, FFecGroup.of, Bool.false_eq_true, ↓reduceIte,
      hcount, hm, hstep, hn, hd, hd', and_self]
    refine ⟨trivial, nodup_steps _ _ _ hd ?_⟩
    exact Nat.le_trans (Nat.mul_le_mul hdl (Nat.le_of_lt hd')) (by decide)

/-! ## The round trip -/

end RtcMcu.RtpTrans
