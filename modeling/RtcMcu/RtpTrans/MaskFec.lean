import Mathlib.Data.List.Sort
import RtcMcu.RtpTrans.FecCode

/-!
# Mask FEC gives back a lost packet

The FEC packet that `_on_handle_rtp_fec` builds over a group of packets, with all but one of them,
makes `_recover_packet` rebuild the missing one. The sender sets one bit of the mask for each member
and sums the first header bytes next to the fields; the receiver walks the 24 bits of the mask. Both
walks meet the same members, and everything else is the parity of `FecCode`.
-/

namespace RtcMcu.RtpTrans

open RtcMcu.Avformat RtcMcu.Fragment RtcMcu.Parity

/-! ## The members of a group -/

/-- The numbers of a mask-FEC group. -/
def MaskGroup.members (g : MaskGroup) : List Seq := (List.range g.n).map g.member

/-- A group the 24 bits of the mask can hold. -/
structure MaskGroup.Fits (g : MaskGroup) : Prop where
  n_pos : 1 ≤ g.n
  k_pos : 1 ≤ g.k
  span : (g.n - 1) * g.k < 24

theorem MaskGroup.Fits.offset_lt {g : MaskGroup} (h : g.Fits) {i : Nat} (hi : i < g.n) :
    i * g.k < 24 :=
  Nat.lt_of_le_of_lt (Nat.mul_le_mul_right _ (Nat.le_sub_one_of_lt hi)) h.span

/-- Different members have different numbers, across the wrap as well. -/
theorem MaskGroup.Fits.member_inj {g : MaskGroup} (h : g.Fits) {i j : Nat} (hi : i < g.n)
    (hj : j < g.n) (heq : g.member i = g.member j) : i = j := by
  have hofs : BitVec.ofNat 16 (i * g.k) = BitVec.ofNat 16 (j * g.k) := by
    simpa only [MaskGroup.member, BitVec.add_right_inj] using heq
  have hi' := h.offset_lt hi
  have hj' := h.offset_lt hj
  have hmul : i * g.k = j * g.k := by
    have := congrArg BitVec.toNat hofs
    simpa only [BitVec.toNat_ofNat, Nat.mod_eq_of_lt (show i * g.k < 2 ^ 16 by omega),
      Nat.mod_eq_of_lt (show j * g.k < 2 ^ 16 by omega)] using this
  exact Nat.eq_of_mul_eq_mul_right h.k_pos hmul

theorem MaskGroup.Fits.members_nodup {g : MaskGroup} (h : g.Fits) : g.members.Nodup := by
  refine List.Nodup.map_on ?_ List.nodup_range
  intro i hi j hj heq
  exact h.member_inj (List.mem_range.mp hi) (List.mem_range.mp hj) heq

/-! ## The sender's mask and flags -/

/-- A whole packet added. -/
def MaskSum.plus (ssrc : BitVec 32) (acc : MaskSum) (bit : Nat) (p : Rtp) : MaskSum where
  sum := acc.sum.plus ssrc p
  flags := if acc.sum.isFirst then p.byte0 else acc.flags ^^^ p.byte0
  mask := acc.mask ||| 1#32 <<< (bit % 32)

/-- The sum of the first `c` members: the fields, the flags and one bit of the mask for each. -/
structure MaskSum.Sums (k : Nat) (pkts : Nat → Rtp) (acc : MaskSum) (c : Nat) : Prop where
  sum : acc.sum.Sums (2048 - rtpHeaderLen - fecHeaderLen - fecExtendHeaderLen)
    ((List.range c).map pkts)
  flags : acc.flags = parity (fun i => (pkts i).byte0) (List.range c)
  mask : ∀ j, j < 24 → (acc.mask.getLsbD j = true ↔ ∃ i, i < c ∧ i * k = j)

/-- The sender's loop over the members, as far as it has come. -/
theorem MaskSum.foldl_plus_sums (ssrc : BitVec 32) {g : MaskGroup} (hg : g.Fits)
    (pkts : Nat → Rtp) (c : Nat) (hc : c ≤ g.n) :
    ((List.range c).foldl (fun acc i => MaskSum.plus ssrc acc (i * g.k) (pkts i))
      MaskSum.start).Sums g.k pkts c := by
  induction c with
  | zero =>
    refine ⟨FecSum.start_sums _, rfl, fun j _ => ⟨fun h => ?_, fun ⟨i, hi, _⟩ => ?_⟩⟩
    · have hzero : (0 : BitVec 32).getLsbD j = false := BitVec.getLsbD_zero
      exact absurd (hzero.symm.trans h) Bool.false_ne_true
    · exact absurd hi (Nat.not_lt_zero i)
  | succ c ih =>
    have h := ih (by omega)
    rw [List.range_succ, List.foldl_append, List.foldl_cons, List.foldl_nil]
    generalize (List.range c).foldl (fun acc i => MaskSum.plus ssrc acc (i * g.k) (pkts i))
      MaskSum.start = acc at h
    refine ⟨?_, ?_, fun j hj => ?_⟩
    · rw [List.range_succ, List.map_append]
      exact FecSum.plus_sums h.sum ssrc (pkts c)
    · rw [List.range_succ, parity_append, parity_cons, parity_nil, ← h.flags]
      rw [MaskSum.plus]
      cases hfirst : acc.sum.isFirst with
      | true =>
        have hzero : acc.flags = 0 := by
          have hempty := h.sum.isFirst
          rw [hfirst, Eq.comm, List.isEmpty_iff, List.map_eq_nil_iff] at hempty
          rw [h.flags, hempty]
          rfl
        rw [hzero]
        exact (BitVec.zero_xor.trans BitVec.xor_zero).symm
      | false => exact congrArg (acc.flags ^^^ ·) BitVec.xor_zero.symm
    · have hck := hg.offset_lt (show c < g.n by omega)
      have hbit : (1#32 <<< (c * g.k % 32)).getLsbD j = true ↔ c * g.k = j := by
        rw [Nat.mod_eq_of_lt (by omega), BitVec.getLsbD_shiftLeft, BitVec.getLsbD_one]
        simp only [Bool.and_eq_true, Bool.not_eq_true', decide_eq_true_eq, decide_eq_false_iff_not]
        omega
      rw [MaskSum.plus, BitVec.getLsbD_or, Bool.or_eq_true, h.mask j hj, hbit]
      constructor
      · rintro (⟨i, hi, hik⟩ | hcj)
        · exact ⟨i, by omega, hik⟩
        · exact ⟨c, by omega, hcj⟩
      · rintro ⟨i, hi, hik⟩
        by_cases hic : i < c
        · exact .inl ⟨i, hic, hik⟩
        · have hieq : i = c := by omega
          exact .inr (by rw [← hieq]; exact hik)

/-- The receiver's walk over the mask meets the members in their order. -/
theorem MaskSum.Sums.filter_mask {g : MaskGroup} (hg : g.Fits) {pkts : Nat → Rtp} {acc : MaskSum}
    (h : acc.Sums g.k pkts g.n) :
    (List.range 24).filter (acc.mask.setWidth 24).getLsbD = (List.range g.n).map (· * g.k) := by
  have hleft : ((List.range 24).filter (acc.mask.setWidth 24).getLsbD).Pairwise (· < ·) :=
    List.pairwise_lt_range.filter _
  have hright : ((List.range g.n).map (· * g.k)).Pairwise (· < ·) := by
    refine List.pairwise_map.mpr (List.pairwise_lt_range.imp fun hlt => ?_)
    exact Nat.mul_lt_mul_of_pos_right hlt hg.k_pos
  have hperm : ((List.range 24).filter (acc.mask.setWidth 24).getLsbD).Perm
      ((List.range g.n).map (· * g.k)) := by
    refine (List.perm_ext_iff_of_nodup (hleft.imp Nat.ne_of_lt) (hright.imp Nat.ne_of_lt)).mpr ?_
    intro j
    simp only [List.mem_filter, List.mem_map, List.mem_range]
    constructor
    · rintro ⟨hj, hbit⟩
      rw [BitVec.getLsbD_setWidth, Bool.and_eq_true, h.mask j hj] at hbit
      exact hbit.2
    · rintro ⟨i, hi, rfl⟩
      have hlt := hg.offset_lt hi
      refine ⟨hlt, ?_⟩
      rw [BitVec.getLsbD_setWidth, Bool.and_eq_true, h.mask _ hlt]
      exact ⟨decide_eq_true hlt, i, hi, rfl⟩
  exact hperm.eq_of_pairwise (fun _ _ _ _ hab hba => absurd hab (Nat.lt_asymm hba)) hleft hright

/-! ## The FEC packet -/

section RoundTrip

variable {g : MaskGroup} {pkts : Seq → Rtp} {acc : MaskSum}

/-- The loop finds every member in the cache and sums them all up. -/
theorem MaskGroup.sum_eq {get : GetRtp} {video : Bool}
    (hget : ∀ t ∈ g.members, get video t = .ok (some (pkts t), (pkts t).len)) (ssrc : BitVec 32) :
    g.sum get video ssrc = .ok ((List.range g.n).foldl
      (fun acc i => MaskSum.plus ssrc acc (i * g.k) (pkts (g.member i))) MaskSum.start) := by
  refine foldlM_ok (List.range g.n) ?_ MaskSum.start
  intro i hi acc
  rw [hget (g.member i) (List.mem_map_of_mem hi)]
  show MaskSum.add ssrc acc (i * g.k) (pkts (g.member i)) (pkts (g.member i)).len = _
  rw [MaskSum.add, FecSum.add_len]
  rfl

/-- The header of the FEC packet as it goes out. -/
def MaskGroup.fecHeader (g : MaskGroup) (acc : MaskSum) : FecHeader :=
  FecHeader.mk g.seqBase acc.sum.length acc.sum.payload 1 (acc.mask.setWidth 24) acc.sum.timestamp

/-- The extension byte of the FEC packet as it goes out. -/
def MaskSum.ext (acc : MaskSum) : FecExtendHeader :=
  { FecExtendHeader.read acc.flags with marker := acc.sum.mark }

/-- What the receiver has of the FEC packet: the header, the extension byte, and as much data as
the longest member has. -/
theorem MaskGroup.packet_data (g : MaskGroup) {acc : MaskSum}
    (hlen : rtpHeaderLen ≤ acc.sum.rtpPktLen) :
    ((g.packet acc).copy acc.len).data = (g.fecHeader acc).bytes ++
      acc.ext.byte :: acc.sum.fecData.take (acc.sum.rtpPktLen - rtpHeaderLen) := by
  have hcut : acc.len - rtpHeaderLen = (acc.sum.rtpPktLen - rtpHeaderLen) + 13 := by
    simp only [MaskSum.len, fecHeaderLen, fecExtendHeaderLen]
    omega
  simp only [Rtp.copy, hcut]
  rfl

/-- The members' numbers as the receiver's walk over the mask names them. -/
theorem MaskSum.Sums.walk (hg : g.Fits) (h : acc.Sums g.k (fun i => pkts (g.member i)) g.n) :
    ((List.range 24).filter (acc.mask.setWidth 24).getLsbD).map
      (fun i => g.seqBase + BitVec.ofNat 16 i) = g.members := by
  rw [h.filter_mask hg, List.map_map]
  rfl

/-- The fields of the first byte come through the xor of the first bytes. -/
theorem MaskSum.Sums.ext_fields (h : acc.Sums g.k (fun i => pkts (g.member i)) g.n) :
    acc.ext.csrcLen = parity (fun t => (pkts t).csrcLen) g.members ∧
      acc.ext.extension = parity (fun t => (pkts t).extension) g.members ∧
      acc.ext.padding = parity (fun t => (pkts t).padding) g.members := by
  simp only [MaskSum.ext, FecExtendHeader.read, h.flags, extractLsb'_parity, MaskGroup.members,
    parity_map, RtpFixedHeader.byte0_csrcLen, RtpFixedHeader.byte0_extension,
    RtpFixedHeader.byte0_padding, and_self]

/-- The sums of the receiver, over the FEC packet and all members but `m`, are the fields of `m`. -/
theorem MaskSum.Sums.recovers (hg : g.Fits)
    (h : acc.Sums g.k (fun i => pkts (g.member i)) g.n) {m : Seq} (hm : m ∈ g.members)
    {ssrcs : Seq → BitVec 32} {base res : Recovering}
    (hres : base.Sums res
      ((g.members.filter (· ≠ m)).map fun t => (pkts t).setSsrc (ssrcs t)))
    (hbase : base.csrcLen = acc.ext.csrcLen ∧ base.extension = acc.ext.extension ∧
      base.padding = acc.ext.padding ∧ base.marker = acc.sum.mark ∧
      base.payload = acc.sum.payload ∧ base.length = acc.sum.length ∧
      base.timestamp = acc.sum.timestamp)
    (htarget : base.target.length = 2048 - rtpHeaderLen ∧ ∀ i, i < 2048 - rtpHeaderLen →
      base.target.getD i 0 = parity (fun t => (pkts t).data.getD i 0) g.members)
    (hdata : (pkts m).data.length ≤ 2048 - rtpHeaderLen) :
    res.Is { pkts m with version := 2 } := by
  have hmembers : (List.range g.n).map (fun i => pkts (g.member i)) = g.members.map pkts := by
    rw [MaskGroup.members, List.map_map]
    rfl
  have hsum := h.sum
  rw [hmembers] at hsum
  obtain ⟨hcsrc, hext, hpad⟩ := h.ext_fields
  have hmiss : ∀ {w : Nat} (f : Rtp → BitVec w),
      (∀ t : Seq, f ((pkts t).setSsrc (ssrcs t)) = f (pkts t)) →
      parity (fun t => f (pkts t)) g.members ^^^
        parity f ((g.members.filter (· ≠ m)).map fun t => (pkts t).setSsrc (ssrcs t)) =
          f (pkts m) := by
    intro w f hf
    rw [parity_map]
    simp only [hf]
    exact parity_filter_ne (fun t => f (pkts t)) hg.members_nodup hm
  refine ⟨?_, ?_, ?_, ?_, ?_, ?_, ?_, rfl, fun i hi => ?_⟩
  · rw [hres.csrcLen, hbase.1, hcsrc]
    exact hmiss (fun p => p.csrcLen) fun _ => rfl
  · rw [hres.extension, hbase.2.1, hext]
    exact hmiss (fun p => p.extension) fun _ => rfl
  · rw [hres.padding, hbase.2.2.1, hpad]
    exact hmiss (fun p => p.padding) fun _ => rfl
  · rw [hres.marker, hbase.2.2.2.1, hsum.mark, parity_map]
    exact hmiss (fun p => p.marker) fun _ => rfl
  · rw [hres.payload, hbase.2.2.2.2.1, hsum.payload, parity_map]
    exact hmiss (fun p => p.payload) fun _ => rfl
  · rw [hres.length, hbase.2.2.2.2.2.1, hsum.length, parity_map]
    exact hmiss (fun p => BitVec.ofNat 16 p.len) fun _ => rfl
  · rw [hres.timestamp, hbase.2.2.2.2.2.2, hsum.timestamp, parity_map]
    exact hmiss (fun p => p.timestamp) fun _ => rfl
  · have hi' : i < 2048 - rtpHeaderLen := Nat.lt_of_lt_of_le hi hdata
    rw [hres.target i (by rw [htarget.1]; exact hi'), htarget.2 i hi']
    exact hmiss (fun p => p.data.getD i 0) fun _ => rfl

/-- The sender's round for the group sends exactly one FEC packet. -/
theorem sendMaskFec_sends {get : GetRtp} (ss : RTPSendSession) (hg : g.Fits)
    (hget : ∀ t ∈ g.members, get (ss.payloadType == RTP_AV_H264) t =
      .ok (some (pkts t), (pkts t).len)) :
    ∃ (acc : MaskSum) (ss' : RTPSendSession),
      acc.Sums g.k (fun i => pkts (g.member i)) g.n ∧
      ss.sendMaskFec get g = .ok (ss', [(g.packet acc, acc.len)]) := by
  have hsums := MaskSum.foldl_plus_sums ss.ssrc hg (fun i => pkts (g.member i)) g.n
    (Nat.le_refl _)
  have hsum := MaskGroup.sum_eq hget ss.ssrc
  generalize (List.range g.n).foldl
    (fun acc i => MaskSum.plus ss.ssrc acc (i * g.k) (pkts (g.member i))) MaskSum.start = acc
    at hsums hsum
  have hnotFirst : acc.sum.isFirst = false := by
    rw [hsums.sum.isFirst, List.isEmpty_eq_false_iff, Ne, List.map_eq_nil_iff, List.range_eq_nil]
    exact Nat.ne_of_gt hg.n_pos
  refine ⟨acc, { ss with
    pktData := g.packet acc
    totalRtpSendbytes := ss.totalRtpSendbytes + BitVec.ofNat 64 acc.len }, hsums, ?_⟩
  rw [RTPSendSession.sendMaskFec, hsum, ok_bind]
  simp only [hnotFirst, Bool.false_eq_true, ↓reduceIte]

/-- Where the receiver's sum over the FEC packet starts. -/
def MaskSum.base (acc : MaskSum) : Recovering where
  csrcLen := acc.ext.csrcLen
  extension := acc.ext.extension
  padding := acc.ext.padding
  marker := acc.ext.marker
  payload := acc.sum.payload
  length := acc.sum.length
  timestamp := acc.sum.timestamp
  target := copyOver (List.replicate (2048 - rtpHeaderLen) 0)
    (acc.sum.fecData.take (acc.sum.rtpPktLen - rtpHeaderLen))
  error := 0

theorem MaskSum.base_target_length (acc : MaskSum) :
    acc.base.target.length = 2048 - rtpHeaderLen := by
  rw [MaskSum.base, copyOver_zeros, length_xorInto, List.length_replicate]

/-- `_recover_packet` on the FEC packet is the sum from its fields on, over the group's members. -/
theorem recoverPacket_eq (hg : g.Fits) (h : acc.Sums g.k (fun i => pkts (g.member i)) g.n)
    (hhead : rtpHeaderLen ≤ acc.sum.rtpPktLen)
    (hmax : acc.sum.rtpPktLen + fecHeaderLen + fecExtendHeaderLen ≤ 2048) (m : Seq)
    (s : RTPRecvSession) (get : Bool → Seq → Except Fault (Option Rtp × Nat)) :
    s.recoverPacket get m (.ext ((g.packet acc).copy acc.len)) acc.len = (do
      let res ← Recovering.addAll get (s.payloadType == RTP_AV_H264) acc.base g.members
      .ok ((s.clearPktData m).finishRecovery m res)) := by
  have hcut : acc.len - (rtpHeaderLen + fecHeaderLen + fecExtendHeaderLen) =
      acc.sum.rtpPktLen - rtpHeaderLen := by
    simp only [MaskSum.len]
    omega
  have hcopy : copyFecData (acc.sum.fecData.take (acc.sum.rtpPktLen - rtpHeaderLen)) acc.len
      (rtpHeaderLen + fecHeaderLen + fecExtendHeaderLen) = .ok acc.base.target := by
    rw [copyFecData, hcut, List.take_take, Nat.min_self, if_neg]
    · rfl
    · simp only [MaskSum.len, rtpHeaderLen, fecHeaderLen, fecExtendHeaderLen] at hmax hhead ⊢
      omega
  have hbyte : byteAt ((g.fecHeader acc).bytes ++ acc.ext.byte ::
      acc.sum.fecData.take (acc.sum.rtpPktLen - rtpHeaderLen)) fecHeaderLen = acc.ext.byte := rfl
  have hdrop : ((g.fecHeader acc).bytes ++ acc.ext.byte ::
      acc.sum.fecData.take (acc.sum.rtpPktLen - rtpHeaderLen)).drop
        (fecHeaderLen + fecExtendHeaderLen) =
      acc.sum.fecData.take (acc.sum.rtpPktLen - rtpHeaderLen) := rfl
  have hwalk : ((List.range 24).filter (g.fecHeader acc).mask.getLsbD).map
      (fun i => (g.fecHeader acc).snBase + BitVec.ofNat 16 i) = g.members := h.walk hg
  simp only [RTPRecvSession.recoverPacket, RTPRecvSession.deref_ext, g.packet_data hhead,
    FecHeader.read_bytes, hbyte, hdrop, hcopy, ok_bind, FecExtendHeader.read_byte, hwalk]
  rfl

/-- The FEC packet of a group, with all members but `m`, gives `m` back. -/
theorem recoverPacket_mask (hg : g.Fits)
    (h : acc.Sums g.k (fun i => pkts (g.member i)) g.n)
    (hfit : ∀ t ∈ g.members, (pkts t).len + fecHeaderLen + fecExtendHeaderLen ≤ 2048)
    {m : Seq} (hm : m ∈ g.members) (hseq : (pkts m).seq = m) (hpt : (pkts m).payload ≠ 0)
    (s : RTPRecvSession) {get : Bool → Seq → Except Fault (Option Rtp × Nat)}
    {ssrcs : Seq → BitVec 32}
    (hget : ∀ t ∈ g.members, get (s.payloadType == RTP_AV_H264) t =
      .ok (if t ≠ m then (some ((pkts t).setSsrc (ssrcs t)), (pkts t).len) else (none, 0))) :
    ∃ s', s.recoverPacket get m (.ext ((g.packet acc).copy acc.len)) acc.len =
        .ok (s', some (pkts m).len) ∧
      s'.pktData.copy (pkts m).len = { pkts m with version := 2, ssrc := s.ssrc } := by
  have hmembers : (List.range g.n).map (fun i => pkts (g.member i)) = g.members.map pkts := by
    rw [MaskGroup.members, List.map_map]
    rfl
  have hsum := h.sum
  rw [hmembers] at hsum
  have hmlen : (pkts m).len ≤ acc.sum.rtpPktLen := hsum.len_le _ (List.mem_map_of_mem hm)
  have hhead : rtpHeaderLen ≤ acc.sum.rtpPktLen :=
    Nat.le_trans (by simp only [Rtp.len]; omega) hmlen
  have hmfit := hfit m hm
  have hmax : acc.sum.rtpPktLen ≤ 2048 - fecHeaderLen - fecExtendHeaderLen := by
    refine hsum.le_len _ fun p hp => ?_
    obtain ⟨t, ht, rfl⟩ := List.mem_map.mp hp
    have htfit := hfit t ht
    omega
  have hpresent : ∀ t ∈ g.members, get (s.payloadType == RTP_AV_H264) t =
      .ok (if decide (t ≠ m) then
        ((some ((pkts t).setSsrc (ssrcs t)), ((pkts t).setSsrc (ssrcs t)).len) :
          Option Rtp × Nat) else (none, 0)) := by
    intro t ht
    rw [hget t ht]
    simp only [decide_eq_true_eq]
    rfl
  obtain ⟨res, hres, hsums, herr⟩ := Recovering.addAll_sums
    (fun t => (pkts t).setSsrc (ssrcs t)) (fun t => decide (t ≠ m)) g.members hpresent acc.base
  have hone : res.error < 2 := by
    have hcount : (g.members.filter fun t => !decide (t ≠ m)).length ≤ 1 := by
      rw [← List.countP_eq_length_filter]
      refine Nat.le_trans (Nat.le_of_eq ?_) (List.nodup_iff_count_le_one.mp hg.members_nodup m)
      exact List.countP_congr fun t _ => by simp
    have hzero : acc.base.error = 0 := rfl
    omega
  have hdata : (pkts m).data.length ≤ 2048 - rtpHeaderLen := by
    simp only [Rtp.len] at hmfit
    omega
  have htarget : ∀ i, i < 2048 - rtpHeaderLen →
      acc.base.target.getD i 0 = parity (fun t => (pkts t).data.getD i 0) g.members :=
    fun i hi => (hsum.target (by omega) hi).trans (parity_map _ _ _)
  have his : res.Is { pkts m with version := 2 } := h.recovers hg hm hsums
    ⟨rfl, rfl, rfl, rfl, rfl, rfl, rfl⟩ ⟨acc.base_target_length, htarget⟩ hdata
  have hlt : ({ pkts m with version := 2 } : Rtp).len < 2 ^ 16 := by
    show (pkts m).len < 2 ^ 16
    omega
  have hroom : ({ pkts m with version := 2 } : Rtp).data.length ≤ res.target.length := by
    rw [hsums.target_length, acc.base_target_length]
    exact hdata
  obtain ⟨hlen, hpkt⟩ := (finishRecovery_iff (s.clearPktData m) (m := { pkts m with version := 2 })
    hone hpt hlt hroom).mpr his
  have hseq' : ({ pkts m with version := 2 } : Rtp).seq = m := hseq
  rw [hseq'] at hlen hpkt
  refine ⟨((s.clearPktData m).finishRecovery m res).1, ?_, hpkt⟩
  rw [recoverPacket_eq hg h hhead (by omega), hres, ok_bind]
  exact congrArg Except.ok (Prod.ext rfl hlen)

/-- A round keeps the ssrc and the payload type of the session. -/
theorem sendMaskFec_keeps {get : GetRtp} {ss ss' : RTPSendSession} {sent : List Sent}
    (h : ss.sendMaskFec get g = .ok (ss', sent)) :
    ss'.ssrc = ss.ssrc ∧ ss'.payloadType = ss.payloadType := by
  obtain ⟨acc, -, h⟩ := bind_eq_ok.mp h
  split at h <;> cases h <;> exact ⟨rfl, rfl⟩

/-- What a round sends depends on nothing else of the session. -/
theorem sendMaskFec_congr {get : GetRtp} {ss ss' tt : RTPSendSession} {sent : List Sent}
    (hssrc : tt.ssrc = ss.ssrc) (hpt : tt.payloadType = ss.payloadType)
    (h : ss.sendMaskFec get g = .ok (ss', sent)) :
    ∃ tt', tt.sendMaskFec get g = .ok (tt', sent) := by
  obtain ⟨acc, hacc, h⟩ := bind_eq_ok.mp h
  rw [RTPSendSession.sendMaskFec, hssrc, hpt, hacc, ok_bind]
  split at h
  · next hfirst =>
    cases h
    exact ⟨_, if_pos hfirst⟩
  · next hfirst =>
    cases h
    exact ⟨_, if_neg hfirst⟩

/-- The rounds send what the round of each of their groups sends. -/
theorem mem_sendMaskFecs {get : GetRtp} {ss ss' : RTPSendSession} {sent : List Sent}
    (hround : ss.sendMaskFec get g = .ok (ss', sent)) (gs : List MaskGroup) (hg : g ∈ gs)
    {tt tt' : RTPSendSession} (hssrc : tt.ssrc = ss.ssrc) (hpt : tt.payloadType = ss.payloadType)
    {all : List Sent} (h : tt.sendMaskFecs get gs = .ok (tt', all)) : ∀ x ∈ sent, x ∈ all := by
  induction gs generalizing tt all with
  | nil => cases hg
  | cons g₀ gs ih =>
    obtain ⟨⟨tt₁, sent₁⟩, h₁, h⟩ := bind_eq_ok.mp h
    obtain ⟨⟨tt₂, sent₂⟩, h₂, h⟩ := bind_eq_ok.mp h
    cases h
    intro x hx
    rcases List.mem_cons.mp hg with rfl | hg
    · obtain ⟨tt₃, h₃⟩ := sendMaskFec_congr hssrc hpt hround
      rw [h₁] at h₃
      cases h₃
      exact List.mem_append_left _ hx
    · obtain ⟨hssrc₁, hpt₁⟩ := sendMaskFec_keeps h₁
      exact List.mem_append_right _ (ih hg (hssrc₁.trans hssrc) (hpt₁.trans hpt) h₂ x hx)

/-- The groups that `_on_handle_rtp_fec` builds FEC packets over when `pkt` goes out. -/
def completedGroups (cfg : RTPTransConfig) (pkt : Rtp) : List MaskGroup :=
  let n := maskFecCount cfg pkt
  let k := cfg.fecInterleavePackageVal
  if n ≠ 0 ∧ 0 < k ∧ 0 < pkt.seq ∧ pkt.seq.setWidth 32 % (k * n) = 0 then maskGroups n k pkt.seq
  else []

/-- `_on_handle_rtp_fec` sends what the round of each completed group sends. -/
theorem mem_onHandleRtpFec {cfg : RTPTransConfig} {get : GetRtp} {ss ss' : RTPSendSession}
    {sent : List Sent} (hround : ss.sendMaskFec get g = .ok (ss', sent)) {pkt : Rtp}
    (hg : g ∈ completedGroups cfg pkt) {tt : RTPSendSession} {all : List Sent}
    (h : ss.onHandleRtpFec cfg get pkt = .ok (tt, all)) : ∀ x ∈ sent, x ∈ all := by
  simp only [completedGroups] at hg
  split at hg
  · next hcond =>
    obtain ⟨hn, hk, hseq, hmod⟩ := hcond
    simp only [RTPSendSession.onHandleRtpFec, if_neg hn, if_pos hk, if_pos hseq, if_pos hmod] at h
    split at h
    · cases h
    · exact mem_sendMaskFecs hround _ hg rfl rfl h
  · cases hg

/-- For a group of packets anywhere in the sequence space that the mask can hold, the session
sends one FEC packet, and that packet with all members but `m` makes `_recover_packet` return a
packet of the length of `m` that equals `m` in every field and byte; the version is 2 and the ssrc
the session's. -/
theorem mask_fec_round_trip (cfg : RTPTransConfig) (ss : RTPSendSession) (getS : GetRtp)
    (g : MaskGroup) (hg : g.Fits) (pkts : Seq → Rtp)
    (hfit : ∀ t ∈ g.members, (pkts t).len + fecHeaderLen + fecExtendHeaderLen ≤ 2048)
    (hgetS : ∀ t ∈ g.members, getS (ss.payloadType == RTP_AV_H264) t =
      .ok (some (pkts t), (pkts t).len))
    (m : Seq) (hm : m ∈ g.members) (hseq : (pkts m).seq = m) (hpt : (pkts m).payload ≠ 0)
    (s : RTPRecvSession) (getR : Bool → Seq → Except Fault (Option Rtp × Nat))
    (ssrcs : Seq → BitVec 32)
    (hgetR : ∀ t ∈ g.members, getR (s.payloadType == RTP_AV_H264) t =
      .ok (if t ≠ m then (some ((pkts t).setSsrc (ssrcs t)), (pkts t).len) else (none, 0))) :
    ∃ (ss' : RTPSendSession) (fec : Rtp) (len : Nat),
      ss.sendMaskFec getS g = .ok (ss', [(fec, len)]) ∧ len ≤ 2048 ∧
      (∀ pkt tt sent, g ∈ completedGroups cfg pkt →
        ss.onHandleRtpFec cfg getS pkt = .ok (tt, sent) → (fec, len) ∈ sent) ∧
      ∃ s', s.recoverPacket getR m (.ext (fec.copy len)) len = .ok (s', some (pkts m).len) ∧
        s'.pktData.copy (pkts m).len = { pkts m with version := 2, ssrc := s.ssrc } := by
  obtain ⟨acc, ss', hsums, hsend⟩ := sendMaskFec_sends ss hg hgetS
  refine ⟨ss', g.packet acc, acc.len, hsend, ?_, ?_,
    recoverPacket_mask hg hsums hfit hm hseq hpt s hgetR⟩
  · have hmax : acc.sum.rtpPktLen ≤ 2048 - fecHeaderLen - fecExtendHeaderLen := by
      refine hsums.sum.le_len _ fun p hp => ?_
      obtain ⟨i, hi, rfl⟩ := List.mem_map.mp hp
      have hi' := hfit _ (List.mem_map_of_mem hi)
      omega
    simp only [MaskSum.len]
    simp only [fecHeaderLen, fecExtendHeaderLen] at hmax ⊢
    omega
  · intro pkt tt sent hgroup hok
    exact mem_onHandleRtpFec hsend hgroup hok _ (List.mem_singleton.mpr rfl)

/-- Two packets around the wrap, two apart, of which the second is lost. -/
theorem mask_fec_round_trip_at_wrap :
    ∃ (ss' : RTPSendSession) (fec : Rtp) (len : Nat),
      RTPSendSession.new.sendMaskFec (fullCache fun t => videoPacket t 3) ⟨65535, 2, 2⟩ =
        .ok (ss', [(fec, len)]) ∧ len ≤ 2048 ∧
      (∀ pkt tt sent, (⟨65535, 2, 2⟩ : MaskGroup) ∈ completedGroups RTPTransConfig.default pkt →
        RTPSendSession.new.onHandleRtpFec RTPTransConfig.default
          (fullCache fun t => videoPacket t 3) pkt = .ok (tt, sent) → (fec, len) ∈ sent) ∧
      ∃ s', RTPRecvSession.new.recoverPacket (fun _ t => .ok (if t ≠ 1 then
            (some ((videoPacket t 3).setSsrc 9), (videoPacket t 3).len) else (none, 0))) 1
          (.ext (fec.copy len)) len = .ok (s', some (videoPacket 1 3).len) ∧
        s'.pktData.copy (videoPacket 1 3).len = { videoPacket 1 3 with version := 2, ssrc := 0 } :=
  mask_fec_round_trip RTPTransConfig.default RTPSendSession.new (fullCache fun t => videoPacket t 3)
    ⟨65535, 2, 2⟩ ⟨by decide, by decide, by decide⟩ (fun t => videoPacket t 3)
    (fun t _ => by rw [videoPacket_len]; decide) (fun _ _ => rfl) 1 (by decide) rfl (by decide)
    RTPRecvSession.new _ (fun _ => 9) (fun _ _ => rfl)

end RoundTrip

end RtcMcu.RtpTrans
