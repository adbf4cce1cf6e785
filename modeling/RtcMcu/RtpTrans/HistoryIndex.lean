import Mathlib.Data.List.Basic
import RtcMcu.RtpTrans.Reentry

/-!
# The look into the history

`_recover_with_fec` and `_recover_with_f_fec` go through the numbers of a FEC packet's group, count
those that `_pkt_history` has, and keep the last one it has not. Both loops are here as they stand,
with the indices they read. The array has an element for each of the 65536 numbers. The row/column
loop cuts its index to 16 bits, the mask loop does not, and it reads the history for each of the 24
bits, whether the mask has the bit or not.
-/

namespace RtcMcu.RtpTrans

open RtcMcu.Avformat

/-! ## The two loops -/

/-- `pkts_present`, `pkts_needed` and `pkt_to_recover`, which nothing sets at first. `reads` are
the indices at which `_pkt_history` was read. -/
structure GroupScan where
  pktsPresent : BitVec 16
  pktsNeeded : BitVec 16
  pktToRecover : Option Seq
  reads : List Nat
  deriving DecidableEq, Repr

/-- The packet that `if (pkts_present == pkts_needed)` goes on with. -/
def GroupScan.choice (scan : GroupScan) : Option Seq :=
  if scan.pktsPresent = scan.pktsNeeded then scan.pktToRecover else none

/-- One round of `_recover_with_fec`. -/
def RTPRecvSession.maskRound (s : RTPRecvSession) (fec : FecHeader) (scan : GroupScan) (i : Nat) :
    GroupScan :=
  let index := i + fec.snBase.toNat
  let needed := fec.mask.getLsbD i
  { pktsPresent := if s.historyAt index && needed then scan.pktsPresent + 1 else scan.pktsPresent
    pktsNeeded := if needed then scan.pktsNeeded + 1 else scan.pktsNeeded
    pktToRecover :=
      if !s.historyAt index && needed then some (BitVec.ofNat 16 index) else scan.pktToRecover
    reads := scan.reads ++ [index, index] }

/-- The loop of `_recover_with_fec`. -/
def RTPRecvSession.maskScan (s : RTPRecvSession) (fec : FecHeader) : GroupScan :=
  (List.range 24).foldl (s.maskRound fec)
    { pktsPresent := 0, pktsNeeded := -1, pktToRecover := none, reads := [] }

/-- One round of `_recover_with_f_fec`. -/
def RTPRecvSession.fFecRound (s : RTPRecvSession) (fec : FFecHeader) (scan : GroupScan) (i : Nat) :
    GroupScan :=
  let neededPacketSeq := BitVec.ofNat 16 (i * fFecStep fec + fec.snBase.toNat)
  { scan with
    pktsPresent :=
      if s.historyAt neededPacketSeq.toNat then scan.pktsPresent + 1 else scan.pktsPresent
    pktToRecover :=
      if s.historyAt neededPacketSeq.toNat then scan.pktToRecover else some neededPacketSeq
    reads := scan.reads ++ [neededPacketSeq.toNat] }

/-- The loop of `_recover_with_f_fec`. -/
def RTPRecvSession.fFecScan (s : RTPRecvSession) (fec : FFecHeader) : GroupScan :=
  (List.range fec.m.toNat).foldl (s.fFecRound fec)
    { pktsPresent := 0, pktsNeeded := fec.m.setWidth 16 - 1, pktToRecover := none, reads := [] }

/-- The loop that is run for a FEC packet. A row/column packet without both flags is not looked
at. -/
def RTPRecvSession.groupScan (s : RTPRecvSession) (fec : Rtp) : GroupScan :=
  if fec.payload = RTP_AV_FEC then s.maskScan (FecHeader.read fec.data)
  else if (FFecHeader.read fec.data).msk = 3 then s.fFecScan (FFecHeader.read fec.data)
  else { pktsPresent := 0, pktsNeeded := -1, pktToRecover := none, reads := [] }

/-- The numbers a mask stands for. -/
def fecMembers (fec : FecHeader) : List Seq :=
  ((List.range 24).filter fec.mask.getLsbD).map fun i => fec.snBase + BitVec.ofNat 16 i

/-- The numbers a FEC packet protects. -/
def fecGroup (fec : Rtp) : List Seq :=
  if fec.payload = RTP_AV_FEC then fecMembers (FecHeader.read fec.data)
  else if (FFecHeader.read fec.data).msk = 3 then fFecMembers (FFecHeader.read fec.data)
  else []

/-- The numbers of a group that were not received. -/
def RTPRecvSession.notReceived (s : RTPRecvSession) (fec : Rtp) : List Seq :=
  (fecGroup fec).filter fun seq => !s.pktHistory seq

/-- The look into the history stays inside the array, and where one number of the group was not
received it is the one to be recovered. -/
structure RTPRecvSession.LooksRight (s : RTPRecvSession) (fec : Rtp) : Prop where
  inside : ∀ index ∈ (s.groupScan fec).reads, index < 65536
  chosen : ∀ seq, s.notReceived fec = [seq] → (s.groupScan fec).choice = some seq

/-! ## What the loops count -/

section Counting

variable {α : Type} (here : α → Bool) (number : α → Seq)

/-- A loop that counts the members that are here and keeps the last one that is not. -/
def countRound (acc : BitVec 16 × Option Seq) (a : α) : BitVec 16 × Option Seq :=
  if here a then (acc.1 + 1, acc.2) else (acc.1, some (number a))

theorem foldl_countRound (l : List α) (acc : BitVec 16 × Option Seq) :
    l.foldl (countRound here number) acc =
      (acc.1 + BitVec.ofNat 16 (l.countP here),
        ((l.filter fun a => !here a).map number).getLast?.or acc.2) := by
  induction l generalizing acc with
  | nil => simp
  | cons a l ih =>
    rw [List.foldl_cons, ih, countRound]
    by_cases ha : here a = true
    · rw [if_pos ha, List.countP_cons_of_pos ha, List.filter_cons_of_neg (by simp [ha])]
      refine Prod.ext ?_ rfl
      dsimp only
      rw [BitVec.add_assoc, Nat.add_comm (l.countP here), BitVec.ofNat_add]
      rfl
    · rw [if_neg ha, List.countP_cons_of_neg ha, List.filter_cons_of_pos (by simp [ha])]
      refine Prod.ext rfl ?_
      rw [List.map_cons, List.getLast?_cons]
      cases (List.map number (l.filter fun a => !here a)).getLast? <;> rfl

/-- The count is one short exactly if one member is missing, which is then the one kept. -/
theorem choice_of_counts (l : List α) (hl : l.length < 65536) :
    (if BitVec.ofNat 16 (l.countP here) = BitVec.ofNat 16 l.length - 1 then
        ((l.filter fun a => !here a).map number).getLast? else none) =
      match (l.filter fun a => !here a).map number with
      | [seq] => some seq
      | _ => none := by
  have hsplit := List.length_eq_countP_add_countP here (l := l)
  simp only [decide_not, Bool.decide_eq_true] at hsplit
  rw [List.countP_eq_length_filter (p := fun a => !here a)] at hsplit
  have hiff : BitVec.ofNat 16 (l.countP here) = BitVec.ofNat 16 l.length - 1 ↔
      (l.filter fun a => !here a).length = 1 := by
    have hone : (1 : BitVec 16).toNat = 1 := rfl
    rw [← BitVec.toNat_inj]
    simp only [BitVec.toNat_sub, BitVec.toNat_ofNat, hone]
    omega
  generalize l.filter (fun a => !here a) = missing at *
  rcases missing with _ | ⟨a, _ | ⟨b, missing⟩⟩
  · simp
  · rw [if_pos (hiff.mpr rfl)]
    rfl
  · rw [if_neg (fun h => by simpa using hiff.mp h)]
    rfl

end Counting

variable (s : RTPRecvSession)

/-- The number a bit of the mask stands for. -/
def fecNumber (fec : FecHeader) (i : Nat) : Seq := fec.snBase + BitVec.ofNat 16 i

/-- The number of a round of the row/column loop. -/
def fFecNumber (fec : FFecHeader) (i : Nat) : Seq :=
  fec.snBase + BitVec.ofNat 16 (i * fFecStep fec)

theorem ofNat_fecIndex (fec : FecHeader) (i : Nat) :
    BitVec.ofNat 16 (i + fec.snBase.toNat) = fecNumber fec i := by
  rw [BitVec.ofNat_add, BitVec.ofNat_toNat, BitVec.setWidth_eq, BitVec.add_comm]
  rfl

theorem ofNat_fFecIndex (fec : FFecHeader) (i : Nat) :
    BitVec.ofNat 16 (i * fFecStep fec + fec.snBase.toNat) = fFecNumber fec i := by
  rw [BitVec.ofNat_add, BitVec.ofNat_toNat, BitVec.setWidth_eq, BitVec.add_comm]
  rfl

/-- An index that was cut to 16 bits reads the history. -/
theorem RTPRecvSession.historyAt_toNat (seq : Seq) : s.historyAt seq.toNat = s.pktHistory seq := by
  rw [RTPRecvSession.historyAt, if_pos seq.isLt, BitVec.ofNat_toNat, BitVec.setWidth_eq]

theorem foldl_maskRound (fec : FecHeader) (l : List Nat) (scan : GroupScan) :
    l.foldl (s.maskRound fec) scan =
      let counted := (l.filter fec.mask.getLsbD).foldl
        (countRound (fun i => s.historyAt (i + fec.snBase.toNat)) (fecNumber fec))
        (scan.pktsPresent, scan.pktToRecover)
      { pktsPresent := counted.1
        pktsNeeded := scan.pktsNeeded + BitVec.ofNat 16 (l.filter fec.mask.getLsbD).length
        pktToRecover := counted.2
        reads := scan.reads ++ l.flatMap fun i => [i + fec.snBase.toNat, i + fec.snBase.toNat] } := by
  induction l generalizing scan with
  | nil => simp
  | cons i l ih =>
    rw [List.foldl_cons, ih]
    by_cases hneeded : fec.mask.getLsbD i = true
    · rw [List.filter_cons_of_pos hneeded, List.foldl_cons, List.length_cons]
      by_cases hhere : s.historyAt (i + fec.snBase.toNat) = true
      · simp [RTPRecvSession.maskRound, countRound, hneeded, hhere, BitVec.ofNat_add,
          BitVec.add_assoc, BitVec.add_comm]
      · simp [RTPRecvSession.maskRound, countRound, hneeded, hhere, BitVec.ofNat_add,
          ← ofNat_fecIndex, BitVec.add_assoc, BitVec.add_comm]
    · rw [List.filter_cons_of_neg hneeded]
      simp [RTPRecvSession.maskRound, hneeded]

theorem foldl_fFecRound (fec : FFecHeader) (l : List Nat) (scan : GroupScan) :
    l.foldl (s.fFecRound fec) scan =
      let counted := l.foldl
        (countRound (fun i => s.pktHistory (fFecNumber fec i)) (fFecNumber fec))
        (scan.pktsPresent, scan.pktToRecover)
      { pktsPresent := counted.1
        pktsNeeded := scan.pktsNeeded
        pktToRecover := counted.2
        reads := scan.reads ++ l.map fun i => (fFecNumber fec i).toNat } := by
  induction l generalizing scan with
  | nil => simp
  | cons i l ih =>
    rw [List.foldl_cons, ih, List.foldl_cons]
    by_cases hhere : s.pktHistory (fFecNumber fec i) = true
    · simp [RTPRecvSession.fFecRound, countRound, ofNat_fFecIndex,
        RTPRecvSession.historyAt_toNat, hhere]
    · simp [RTPRecvSession.fFecRound, countRound, ofNat_fFecIndex,
        RTPRecvSession.historyAt_toNat, hhere]

/-! ## What they choose -/

/-- The mask loop chooses as its counters say: the one member whose index reads as not received. -/
theorem RTPRecvSession.choice_maskScan (fec : FecHeader) :
    (s.maskScan fec).choice =
      match (((List.range 24).filter fec.mask.getLsbD).filter fun i =>
        !s.historyAt (i + fec.snBase.toNat)).map (fecNumber fec) with
      | [seq] => some seq
      | _ => none := by
  rw [RTPRecvSession.maskScan, foldl_maskRound, GroupScan.choice]
  dsimp only
  rw [foldl_countRound]
  dsimp only
  have hzero : ∀ x : BitVec 16, 0 + x = x := BitVec.zero_add
  have hneg : ∀ x : BitVec 16, -1 + x = x - 1 := fun x =>
    (BitVec.add_comm (-1) x).trans (BitVec.sub_eq_add_neg x 1).symm
  rw [Option.or_none, hzero, hneg]
  refine choice_of_counts _ _ _ (Nat.lt_of_le_of_lt (List.length_filter_le _ _) ?_)
  rw [List.length_range]
  decide

/-- The row/column loop chooses the one member that was not received. -/
theorem RTPRecvSession.choice_fFecScan (fec : FFecHeader) :
    (s.fFecScan fec).choice =
      match (fFecMembers fec).filter fun seq => !s.pktHistory seq with
      | [seq] => some seq
      | _ => none := by
  have hlen : (List.range fec.m.toNat).length < 65536 := by
    rw [List.length_range]
    omega
  have hm : fec.m.setWidth 16 = BitVec.ofNat 16 (List.range fec.m.toNat).length := by
    rw [List.length_range, ← BitVec.ofNat_toNat]
  rw [RTPRecvSession.fFecScan, foldl_fFecRound, GroupScan.choice]
  dsimp only
  rw [foldl_countRound]
  dsimp only
  have hzero : ∀ x : BitVec 16, 0 + x = x := BitVec.zero_add
  rw [Option.or_none, hzero, hm, choice_of_counts _ _ _ hlen, fFecMembers,
    List.filter_map]
  rfl

/-- `tryRecover` tries the packet the loops choose, and no other. -/
theorem RTPRecvSession.choice_groupScan (fec : Rtp) :
    (s.groupScan fec).choice =
      match s.missing fec with
      | [seq] => some seq
      | _ => none := by
  unfold RTPRecvSession.groupScan RTPRecvSession.missing
  by_cases hfec : fec.payload = RTP_AV_FEC
  · rw [if_pos hfec, if_pos hfec, RTPRecvSession.choice_maskScan]
    have hnumber : fecNumber (FecHeader.read fec.data) =
        fun i => BitVec.ofNat 16 i + (FecHeader.read fec.data).snBase :=
      funext fun i => BitVec.add_comm _ _
    rw [hnumber]
  · rw [if_neg hfec, if_neg hfec]
    by_cases hmsk : (FFecHeader.read fec.data).msk = 3
    · rw [if_pos hmsk, if_pos hmsk, RTPRecvSession.choice_fFecScan]
    · rw [if_neg hmsk, if_neg hmsk]
      rfl

/-- What is chosen is what an attempt with the FEC packet recovers. -/
theorem RTPRecvSession.tryRecover_choice {get : GetRtp} {ref : PktRef} {len : Nat} {seq : Seq}
    (h : (s.groupScan (s.deref ref)).choice = some seq) :
    s.tryRecover get ref len = (do
      let (s, length) ← s.recoverOne get seq ref len
      .ok (s, Attempt.of length)) := by
  rw [RTPRecvSession.choice_groupScan] at h
  apply RTPRecvSession.tryRecover_one
  rcases hmissing : s.missing (s.deref ref) with _ | ⟨x, _ | ⟨y, l⟩⟩
  · rw [hmissing] at h
    cases h
  · rw [hmissing] at h
    rw [Option.some.inj h]
  · rw [hmissing] at h
    cases h

/-- Where no index passes the end of the array, the numbers that read as missing are those that
were not received. -/
theorem RTPRecvSession.missing_eq_notReceived {fec : Rtp}
    (h : fec.payload = RTP_AV_FEC → (FecHeader.read fec.data).snBase.toNat ≤ 65512) :
    s.missing fec = s.notReceived fec := by
  unfold RTPRecvSession.missing RTPRecvSession.notReceived fecGroup
  by_cases hfec : fec.payload = RTP_AV_FEC
  · rw [if_pos hfec, if_pos hfec, fecMembers, List.filter_map]
    have hread : ∀ i ∈ (List.range 24).filter (FecHeader.read fec.data).mask.getLsbD,
        s.historyAt (i + (FecHeader.read fec.data).snBase.toNat) =
          s.pktHistory ((FecHeader.read fec.data).snBase + BitVec.ofNat 16 i) := by
      intro i hi
      have hlt := List.mem_range.mp (List.mem_of_mem_filter hi)
      have hbase := h hfec
      rw [RTPRecvSession.historyAt, if_pos (by omega), ofNat_fecIndex]
      rfl
    rw [List.map_congr_left fun i _ => BitVec.add_comm (BitVec.ofNat 16 i) _]
    congr 1
    apply List.filter_congr
    intro i hi
    rw [hread i hi]
    rfl
  · rw [if_neg hfec, if_neg hfec]
    by_cases hmsk : (FFecHeader.read fec.data).msk = 3
    · rw [if_pos hmsk, if_pos hmsk]
    · rw [if_neg hmsk, if_neg hmsk]
      rfl

/-! ## Where they read -/

theorem RTPRecvSession.reads_maskScan (fec : FecHeader) :
    (s.maskScan fec).reads =
      (List.range 24).flatMap fun i => [i + fec.snBase.toNat, i + fec.snBase.toNat] := by
  rw [RTPRecvSession.maskScan, foldl_maskRound]
  rfl

theorem RTPRecvSession.reads_fFecScan (fec : FFecHeader) :
    (s.fFecScan fec).reads =
      (List.range fec.m.toNat).map fun i => (fFecNumber fec i).toNat := by
  rw [RTPRecvSession.fFecScan, foldl_fFecRound]
  rfl

/-- All reads are inside the array exactly if the last of the 24 bits of a mask is. -/
theorem RTPRecvSession.reads_inside_iff (fec : Rtp) :
    (∀ index ∈ (s.groupScan fec).reads, index < 65536) ↔
      (fec.payload = RTP_AV_FEC → (FecHeader.read fec.data).snBase.toNat ≤ 65512) := by
  unfold RTPRecvSession.groupScan
  by_cases hfec : fec.payload = RTP_AV_FEC
  · rw [if_pos hfec, RTPRecvSession.reads_maskScan]
    constructor
    · intro h _
      have hlast := h (23 + (FecHeader.read fec.data).snBase.toNat)
        (List.mem_flatMap.mpr ⟨23, List.mem_range.mpr (by decide), List.mem_cons_self⟩)
      omega
    · intro h index hindex
      obtain ⟨i, hi, hmem⟩ := List.mem_flatMap.mp hindex
      have hlt := List.mem_range.mp hi
      have hbase := h hfec
      simp only [List.mem_cons, List.not_mem_nil, or_false, or_self] at hmem
      omega
  · rw [if_neg hfec]
    refine ⟨fun _ h => absurd h hfec, fun _ index hindex => ?_⟩
    by_cases hmsk : (FFecHeader.read fec.data).msk = 3
    · rw [if_pos hmsk, RTPRecvSession.reads_fFecScan] at hindex
      obtain ⟨i, -, rfl⟩ := List.mem_map.mp hindex
      exact BitVec.isLt _
    · rw [if_neg hmsk] at hindex
      cases hindex

/-- The look into the history is right exactly if the FEC packet is a row/column packet, or a mask
packet whose 24 bits end before the wrap. -/
theorem RTPRecvSession.history_index_iff (fec : Rtp) :
    s.LooksRight fec ↔
      (fec.payload = RTP_AV_FEC → (FecHeader.read fec.data).snBase.toNat ≤ 65512) := by
  rw [← s.reads_inside_iff fec]
  refine ⟨fun h => h.inside, fun h => ⟨h, ?_⟩⟩
  intro seq hseq
  rw [RTPRecvSession.choice_groupScan,
    s.missing_eq_notReceived ((s.reads_inside_iff fec).mp h), hseq]

/-- A mask packet for the numbers 65535 and 0. -/
def straddlingFec : Rtp :=
  { Rtp.zero with
    payload := RTP_AV_FEC
    data := FecHeader.bytes
      { snBase := 65535, lengthRecovery := 0, payload := 0, e := 0, mask := 3, timestamp := 0 } }

/-- A session that received 65535, and tried to recover a packet before. -/
def beforeWrap : RTPRecvSession :=
  { RTPRecvSession.new with
    pktHistory := fun seq => seq == 65535
    pktData := { Rtp.zero with version := 2, data := [] } }

/-- The number 0 alone is missing. Bit 1 of the mask looks at the byte behind the array, where the
first byte of the packet recovered before lies, and nothing is chosen. -/
theorem history_index_straddling :
    beforeWrap.notReceived straddlingFec = [0] ∧
      (beforeWrap.groupScan straddlingFec).choice = none ∧
      ¬ beforeWrap.LooksRight straddlingFec := by
  refine ⟨by decide +kernel, by decide +kernel, ?_⟩
  intro h
  exact absurd (h.inside 65536 (by decide +kernel)) (by decide)

end RtcMcu.RtpTrans
