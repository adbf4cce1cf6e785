import RtcMcu.ConnectionManager.ConnectionTable
import RtcMcu.RtpTrans.CacheView
import RtcMcu.RtpTrans.MaskFec

/-!
# Recovery and the order of arrival

A mask-FEC packet that comes before some of its group waits in `_pending_fec`, and each media packet
tries it again. A media packet that is not older than the FEC packet discards it first, and so does
one that begins a new turn. The sender numbers the FEC packet `seq_base + n - 1`, as if the group
were consecutive: the last member of a group has that number, and members of an interleaved group
lie past it. So whether the missing member comes back depends on the order
(`recovered_iff_order`).
-/

namespace RtcMcu.RtpTrans

open RtcMcu.Avformat RtcMcu.Fragment RtcMcu.Serial

/-! ## The numbers of a group -/

/-- The numbers from the first member to the last. -/
def MaskGroup.InSpan (g : MaskGroup) (t : Seq) : Prop := ahead g.seqBase t ≤ (g.n - 1) * g.k

/-- The FEC packet as the receiver has it. -/
def MaskGroup.fecPacket (g : MaskGroup) (acc : MaskSum) : Rtp := (g.packet acc).copy acc.len

section Numbers

variable {g : MaskGroup} {acc : MaskSum}

theorem MaskGroup.Fits.ahead_member (hg : g.Fits) {i : Nat} (hi : i < g.n) :
    ahead g.seqBase (g.member i) = i * g.k := by
  have hlt := hg.offset_lt hi
  exact ahead_add_ofNat g.seqBase (by omega)

theorem MaskGroup.Fits.inSpan (hg : g.Fits) {t : Seq} (ht : t ∈ g.members) : g.InSpan t := by
  obtain ⟨i, hi, rfl⟩ := List.mem_map.mp ht
  have hi := List.mem_range.mp hi
  rw [MaskGroup.InSpan, hg.ahead_member hi]
  exact Nat.mul_le_mul_right _ (Nat.le_sub_one_of_lt hi)

/-- The FEC packet is numbered as if the members were consecutive. -/
theorem MaskGroup.Fits.ahead_fecPacket (hg : g.Fits) (acc : MaskSum) :
    ahead g.seqBase (g.fecPacket acc).seq = g.n - 1 := by
  have hspan := hg.span
  have hn := hg.n_pos
  have hle : g.n - 1 ≤ (g.n - 1) * g.k := Nat.le_mul_of_pos_right _ hg.k_pos
  have hseq : (g.fecPacket acc).seq = g.seqBase + BitVec.ofNat 16 (g.n - 1) := by
    show g.seqBase + BitVec.ofNat 16 g.n - 1#16 = _
    have hcount : BitVec.ofNat 16 g.n = BitVec.ofNat 16 (g.n - 1) + 1#16 := by
      rw [← BitVec.ofNat_add, Nat.sub_add_cancel hn]
    rw [hcount, ← BitVec.add_assoc, BitVec.add_sub_cancel]
  rw [hseq]
  exact ahead_add_ofNat g.seqBase (by omega)

theorem MaskGroup.Fits.fecPacket_inSpan (hg : g.Fits) (acc : MaskSum) :
    g.InSpan (g.fecPacket acc).seq := by
  rw [MaskGroup.InSpan, hg.ahead_fecPacket acc]
  exact Nat.le_mul_of_pos_right _ hg.k_pos

/-- A media packet overtakes the FEC packet when it lies as far ahead. -/
theorem MaskGroup.Fits.overtakes_iff (hg : g.Fits) {t : Seq} (ht : t ∈ g.members) :
    t - (g.fecPacket acc).seq < 0x8000#16 ↔ g.n - 1 ≤ ahead g.seqBase t := by
  have hspan := hg.span
  have hle := hg.inSpan ht
  rw [MaskGroup.InSpan] at hle
  have hfec := hg.ahead_fecPacket acc
  have hn : g.n - 1 ≤ (g.n - 1) * g.k := Nat.le_mul_of_pos_right _ hg.k_pos
  show ahead (g.fecPacket acc).seq t < 2 ^ 15 ↔ _
  rcases Nat.lt_or_ge (ahead g.seqBase t) (g.n - 1) with hlt | hge
  · rw [ahead_sub_of_lt (by rw [hfec]; exact hlt), hfec]
    omega
  · rw [ahead_sub (by rw [hfec]; exact hge), hfec]
    omega

end Numbers

/-! ## A group on its way -/

/-- The FEC packet has the ssrc of the sender's session. -/
theorem MaskSum.foldl_plus_ssrc (ssrc : BitVec 32) (k : Nat) (pkts : Nat → Rtp) (is : List Nat)
    {acc : MaskSum} (h : acc.sum.isFirst = true ∨ acc.sum.ssrc = ssrc) :
    (is.foldl (fun acc i => MaskSum.plus ssrc acc (i * k) (pkts i)) acc).sum.isFirst = true ∨
      (is.foldl (fun acc i => MaskSum.plus ssrc acc (i * k) (pkts i)) acc).sum.ssrc = ssrc := by
  induction is generalizing acc with
  | nil => exact h
  | cons i is ih =>
    refine ih (Or.inr ?_)
    show (acc.sum.plus ssrc (pkts i)).ssrc = ssrc
    rw [FecSum.plus]
    split
    · rfl
    · next hfirst => exact h.resolve_left hfirst

/-- A mask-FEC group that does not straddle the wrap: the packets of its numbers as the sender finds
them with `get` and sums them up in `acc`, and the member that is lost. The receiver gets them with
the ssrc `ssrc`. -/
structure Flight where
  group : MaskGroup
  payload : RTPAVType
  ssrc : BitVec 32
  pkts : Seq → Rtp
  get : GetRtp
  acc : MaskSum
  lost : Seq
  fits : group.Fits
  straight : group.seqBase.toNat + (group.n - 1) * group.k < 2 ^ 16
  held : ∀ t ∈ group.members, get (payload == RTP_AV_H264) t = .ok (some (pkts t), (pkts t).len)
  summed : group.sum get (payload == RTP_AV_H264) ssrc = .ok acc
  number : ∀ t ∈ group.members, (pkts t).seq = t
  kind : ∀ t ∈ group.members, (pkts t).payload = payload
  room : ∀ t ∈ group.members, (pkts t).len + fecHeaderLen + fecExtendHeaderLen ≤ 2048
  media : isFec payload = false
  known : payload ≠ RTP_AV_NULL
  lost_mem : lost ∈ group.members

namespace Flight

variable (f : Flight)

/-- A member as the receiver gets it. -/
def received (t : Seq) : Rtp := (f.pkts t).setSsrc f.ssrc

/-- The lost member as the receiver makes it again. -/
def again : Rtp := { f.pkts f.lost with version := 2, ssrc := f.ssrc }

/-- The FEC packet as the receiver gets it. -/
def fec : Rtp := f.group.fecPacket f.acc

theorem isFec_fec : isFec f.fec.payload = true := rfl

/-- The members that are not among the numbers. -/
def missing (seen : List Seq) : List Seq := f.group.members.filter fun t => !seen.contains t

theorem missing_eq (seen : List Seq) :
    f.missing seen = f.group.members.filter fun t => !decide (t ∈ seen) :=
  List.filter_congr fun _ _ => congrArg (!·) (List.contains_eq_mem _ _)

theorem sums : f.acc.Sums f.group.k (fun i => f.pkts (f.group.member i)) f.group.n := by
  have hacc := (MaskGroup.sum_eq f.held f.ssrc).symm.trans f.summed
  rw [← Except.ok.inj hacc]
  exact MaskSum.foldl_plus_sums f.ssrc f.fits _ f.group.n (Nat.le_refl _)

theorem not_isFirst : f.acc.sum.isFirst = false := by
  rw [f.sums.sum.isFirst, List.isEmpty_eq_false_iff, Ne, List.map_eq_nil_iff, List.range_eq_nil]
  exact Nat.ne_of_gt f.fits.n_pos

theorem fec_ssrc : f.fec.ssrc = f.ssrc := by
  have hacc := (MaskGroup.sum_eq f.held f.ssrc).symm.trans f.summed
  have hstart : MaskSum.start.sum.isFirst = true ∨ MaskSum.start.sum.ssrc = f.ssrc := Or.inl rfl
  have hstamped := MaskSum.foldl_plus_ssrc f.ssrc f.group.k
    (fun i => f.pkts (f.group.member i)) (List.range f.group.n) hstart
  rw [Except.ok.inj hacc, f.not_isFirst] at hstamped
  exact hstamped.resolve_left Bool.false_ne_true

/-- The sender's round for the group sends the FEC packet. -/
theorem sent (ss : RTPSendSession) (hssrc : ss.ssrc = f.ssrc)
    (hpayload : ss.payloadType = f.payload) :
    ∃ ss', ss.sendMaskFec f.get f.group = .ok (ss', [(f.group.packet f.acc, f.acc.len)]) := by
  rw [RTPSendSession.sendMaskFec, hssrc, hpayload, f.summed, ok_bind]
  refine ⟨_, if_neg ?_⟩
  rw [f.not_isFirst]
  exact Bool.false_ne_true

theorem toNat_eq {t : Seq} (ht : f.group.InSpan t) :
    t.toNat = f.group.seqBase.toNat + ahead f.group.seqBase t := by
  have hstraight := f.straight
  rw [MaskGroup.InSpan] at ht
  have hcases := ahead_cases f.group.seqBase t
  have hturn := t.isLt
  split at hcases <;> omega

/-- The length of the FEC packet is what the sender gives for it. -/
theorem len_fec :
    f.fec.len = f.acc.len ∧ rtpHeaderLen ≤ f.acc.sum.rtpPktLen ∧ f.acc.len ≤ maxRtpLen := by
  have hsum := f.sums.sum
  have hlost : (f.pkts f.lost).len ≤ f.acc.sum.rtpPktLen := by
    obtain ⟨i, hi, heq⟩ := List.mem_map.mp f.lost_mem
    rw [← heq]
    exact hsum.len_le _ (List.mem_map_of_mem hi)
  have hhead : rtpHeaderLen ≤ f.acc.sum.rtpPktLen :=
    Nat.le_trans (by simp only [Rtp.len]; omega) hlost
  have hmax : f.acc.sum.rtpPktLen ≤ 2048 - fecHeaderLen - fecExtendHeaderLen := by
    refine hsum.le_len _ fun p hp => ?_
    obtain ⟨i, hi, rfl⟩ := List.mem_map.mp hp
    have hfit := f.room _ (List.mem_map_of_mem hi)
    omega
  have hroom := hsum.room_eq
  refine ⟨?_, hhead, ?_⟩
  · rw [Rtp.len, fec, MaskGroup.fecPacket, f.group.packet_data hhead, List.length_append,
      FecHeader.bytes_length, List.length_cons, List.length_take, hroom]
    simp only [MaskSum.len, rtpHeaderLen, fecHeaderLen, fecExtendHeaderLen] at hmax hhead ⊢
    omega
  · simp only [MaskSum.len, maxRtpLen, fecHeaderLen, fecExtendHeaderLen] at hmax ⊢
    omega

/-- The FEC packet where it waits. -/
def block : RTPBlock := RTPBlock.new (some f.fec) f.acc.len

theorem block_get : f.block.get = (some f.fec, f.acc.len) := by
  obtain ⟨hlen, -, hmax⟩ := f.len_fec
  rw [block, ← hlen, RTPBlock.new_fits (by rw [hlen]; exact hmax), RTPBlock.get_holding]

/-- The FEC packet lacks the members that are not marked. -/
theorem missing_fec (s : RTPRecvSession) :
    s.missing f.fec = f.group.members.filter fun t => !s.pktHistory t := by
  have hread : FecHeader.read f.fec.data = f.group.fecHeader f.acc := by
    rw [fec, MaskGroup.fecPacket, f.group.packet_data f.len_fec.2.1, FecHeader.read_bytes]
  have hstraight := f.straight
  have hmark : ∀ i ∈ List.range f.group.n,
      s.historyAt (i * f.group.k + f.group.seqBase.toNat) = s.pktHistory (f.group.member i) := by
    intro i hi
    have hle : i * f.group.k ≤ (f.group.n - 1) * f.group.k :=
      Nat.mul_le_mul_right _ (Nat.le_sub_one_of_lt (List.mem_range.mp hi))
    rw [RTPRecvSession.historyAt, if_pos (by omega), BitVec.ofNat_add, BitVec.ofNat_toNat,
      BitVec.setWidth_eq, BitVec.add_comm]
    rfl
  unfold RTPRecvSession.missing
  rw [if_pos (show f.fec.payload = RTP_AV_FEC from rfl), hread]
  show ((((List.range 24).filter (f.acc.mask.setWidth 24).getLsbD).filter fun i =>
    !s.historyAt (i + f.group.seqBase.toNat)).map fun i =>
      BitVec.ofNat 16 i + f.group.seqBase) = _
  rw [f.sums.filter_mask f.fits, List.filter_map, List.map_map, MaskGroup.members,
    List.filter_map]
  have hfilter : (List.range f.group.n).filter
      ((fun i => !s.historyAt (i + f.group.seqBase.toNat)) ∘ (· * f.group.k)) =
        (List.range f.group.n).filter ((fun t => !s.pktHistory t) ∘ f.group.member) :=
    List.filter_congr fun i hi => congrArg (!·) (hmark i hi)
  rw [hfilter]
  exact List.map_congr_left fun i _ => BitVec.add_comm _ _

/-- No number of the group begins a new turn behind another of it. -/
theorem not_beginsTurn {t u : Seq} (ht : f.group.InSpan t) (hu : f.group.InSpan u) :
    ¬ BeginsTurn t u := by
  rintro ⟨hlow, hhigh⟩
  have hlow : u.toNat < 50 := hlow
  have hhigh : 65500 < t.toNat := hhigh
  have hspan := f.fits.span
  have htle := f.toNat_eq ht
  have hule := f.toNat_eq hu
  rw [MaskGroup.InSpan] at ht hu
  omega

/-- Where the group begins a new turn its members are newer than what came before. -/
theorem newer_of_beginsTurn {last t u : Seq} (ht : f.group.InSpan t) (hu : f.group.InSpan u)
    (h : BeginsTurn last u) : newer t last = true := by
  obtain ⟨hlow, hhigh⟩ := h
  have hlow : u.toNat < 50 := hlow
  have hhigh : 65500 < last.toNat := hhigh
  have hspan := f.fits.span
  have htle := f.toNat_eq ht
  have hule := f.toNat_eq hu
  have hcases := ahead_cases last t
  rw [MaskGroup.InSpan] at ht hu
  rw [if_neg (by omega)] at hcases
  refine newer_iff.mpr ⟨fun heq => ?_, by omega⟩
  have hsame := congrArg BitVec.toNat heq
  omega

/-- The FEC packet that waits stays when `t` comes: `t` does not overtake it, and where nothing of
the group came before, `t` begins no turn. -/
def Stays (lastseq : Seq) (seen : List Seq) (t : Seq) : Prop :=
  ahead f.group.seqBase t < f.group.n - 1 ∧ (seen = [] → ¬ BeginsTurn lastseq t)

instance (lastseq : Seq) (seen : List Seq) (t : Seq) : Decidable (f.Stays lastseq seen t) :=
  inferInstanceAs (Decidable (_ ∧ _))

end Flight

/-! ## Part of a group received -/

/-- What has come so far: the numbers `seen`, and the FEC packet where it waits. `lastseq` is
`_lastseq` at the start, and `before` what `recv_rtp` had been given then. -/
structure Gathered {σ : Type} (f : Flight) (v : HostView σ) (lastseq : Seq) (before : List Sent)
    (seen : List Seq) (waits : Bool) (st : σ) (s : RTPRecvSession) : Prop where
  ready : v.ready st
  cached : ∀ t ∈ f.group.members, v.cached st t = if t ∈ seen then some (f.received t) else none
  handed : v.handed st = before
  history : ∀ t ∈ f.group.members, s.pktHistory t = decide (t ∈ seen)
  queue : s.pendingFec = if waits then [f.block] else []
  ssrc : s.ssrc = 0 ∨ s.ssrc = f.ssrc
  payload : s.payloadType = f.payload ∨
    s.payloadType = RTP_AV_NULL ∧ seen = [] ∧ 1 < f.group.n
  start : seen = [] → s.lastseq = lastseq ∧ ∀ t ∈ f.group.members, t ∉ s.hisNacks
  turn : seen ≠ [] → ∀ t, f.group.InSpan t → ¬ BeginsTurn s.lastseq t

section Steps

variable {σ : Type} {host : StreamHost σ} {f : Flight} {v : HostView σ} {lastseq : Seq}
  {before : List Sent} {seen : List Seq} {waits : Bool} {st : σ} {s : RTPRecvSession} {t : Seq}

/-- The packet begins a new turn only where nothing of the group came before. -/
theorem Gathered.beginsTurn (h : Gathered f v lastseq before seen waits st s)
    (ht : f.group.InSpan t) : BeginsTurn s.lastseq t ↔ seen = [] ∧ BeginsTurn lastseq t := by
  by_cases hseen : seen = []
  · rw [(h.start hseen).1]
    exact (and_iff_right hseen).symm
  · exact iff_of_false (h.turn hseen t ht) fun hboth => hseen hboth.1

/-- What the packet meets. -/
theorem Gathered.met (h : Gathered f v lastseq before seen waits st s) (pkt : Rtp)
    (hspan : f.group.InSpan pkt.seq) (hssrc : pkt.ssrc = f.ssrc) :
    (∀ t ∈ f.group.members, (s.met pkt).pktHistory t = decide (t ∈ seen)) ∧
      (s.met pkt).pendingFec =
        (if waits = true ∧ (seen = [] → ¬ BeginsTurn lastseq pkt.seq) then [f.block] else []) ∧
      (s.met pkt).ssrc = f.ssrc := by
  refine ⟨?_, ?_, ?_⟩
  · intro t ht
    by_cases hturn : BeginsTurn s.lastseq pkt.seq
    · obtain ⟨rfl, -⟩ := (h.beginsTurn hspan).mp hturn
      rw [(met_begins hturn).2]
      rfl
    · rw [(met_goes_on hturn).2]
      exact h.history t ht
  · by_cases hturn : BeginsTurn s.lastseq pkt.seq
    · obtain ⟨hseen, hbegins⟩ := (h.beginsTurn hspan).mp hturn
      rw [(met_begins hturn).1, if_neg fun hboth => hboth.2 hseen hbegins]
    · have hgoes : seen = [] → ¬ BeginsTurn lastseq pkt.seq := fun hseen hbegins =>
        hturn ((h.beginsTurn hspan).mpr ⟨hseen, hbegins⟩)
      rw [(met_goes_on hturn).1, h.queue]
      exact if_congr (and_iff_left hgoes).symm rfl rfl
  · rw [met_ssrc]
    split
    · exact hssrc
    · next hne => exact h.ssrc.resolve_left hne

/-- What is received with the last member that is not lost, or the FEC packet. -/
structure Flight.Complete (f : Flight) (v : HostView σ) (seen : List Seq) (st : σ)
    (s : RTPRecvSession) : Prop where
  cached : ∀ t ∈ f.group.members, v.cached st t = if t ∈ seen then some (f.received t) else none
  history : ∀ t ∈ f.group.members, s.pktHistory t = decide (t ∈ seen)
  ssrc : s.ssrc = f.ssrc
  payload : s.payloadType = f.payload
  missing : f.missing seen = [f.lost]

theorem Flight.Complete.missing_fec (h : f.Complete v seen st s) : s.missing f.fec = [f.lost] := by
  rw [f.missing_fec, ← h.missing, f.missing_eq]
  exact List.filter_congr fun t ht => congrArg (!·) (h.history t ht)

theorem Flight.mem_seen_iff (hmissing : f.missing seen = [f.lost]) (ht : t ∈ f.group.members) :
    t ∈ seen ↔ t ≠ f.lost := by
  have hmem : t ∈ f.missing seen ↔ t ∉ seen := by
    simp only [Flight.missing_eq, List.mem_filter, ht, true_and, Bool.not_eq_true',
      decide_eq_false_iff_not]
  rw [hmissing, List.mem_singleton] at hmem
  rw [Ne, hmem, Classical.not_not]

/-- With all but one the FEC packet gives the lost member back. -/
theorem Flight.Complete.recovers (hhost : host.Remembers (f.payload == RTP_AV_H264)
      f.group.members v) (h : f.Complete v seen st s) (hst : v.ready st)
    (haccepts : v.accepts f.again) :
    ∃ s₂, s.tryRecover (host.getRtpBySeq st) (.ext f.fec) f.acc.len =
        .ok (s₂, .recovered f.again.len) ∧
      s₂.pktData.copy f.again.len = f.again ∧ s₂.pendingFec = s.pendingFec ∧
      Storable (f.payload == RTP_AV_H264) f.group.members v (v.cached st) s₂.pktData
        f.again.len := by
  have hlost := f.lost_mem
  have hget : ∀ t ∈ f.group.members,
      host.getRtpBySeq st (s.payloadType == RTP_AV_H264) t =
        .ok (if t ≠ f.lost then (some ((f.pkts t).setSsrc f.ssrc), (f.pkts t).len)
          else (none, 0)) := by
    intro t ht
    rw [h.payload, hhost.get st hst t ht, h.cached t ht]
    have hseen := Flight.mem_seen_iff h.missing ht
    by_cases hne : t ≠ f.lost
    · rw [if_pos (hseen.mpr hne), if_pos hne]
      rfl
    · rw [if_neg (mt hseen.mp hne), if_neg hne]
      rfl
  have hknown : (f.pkts f.lost).payload ≠ 0 := by
    rw [f.kind _ hlost]
    exact f.known
  obtain ⟨s₂, hrecover, hcopy⟩ := recoverPacket_mask f.fits f.sums f.room hlost
    (f.number _ hlost) hknown s hget
  rw [h.ssrc] at hcopy
  have htry : s.tryRecover (host.getRtpBySeq st) (.ext f.fec) f.acc.len =
      .ok (s₂, .recovered f.again.len) := by
    rw [RTPRecvSession.tryRecover_one h.missing_fec]
    have hone : s.recoverOne (host.getRtpBySeq st) f.lost (.ext f.fec) f.acc.len =
        .ok (s₂, some f.again.len) := hrecover
    rw [hone, ok_bind]
    rfl
  have hagain : s₂.pktData.copy f.again.len = f.again := hcopy
  have hseq : s₂.pktData.seq = f.lost :=
    (congrArg (fun p : Rtp => p.seq) hagain).trans (f.number _ hlost)
  have hpayload : s₂.pktData.payload = f.payload :=
    (congrArg (fun p : Rtp => p.payload) hagain).trans (f.kind _ hlost)
  refine ⟨s₂, htry, hagain, RTPRecvSession.tryRecover_pendingFec htry, ?_⟩
  refine ⟨?_, ?_, ?_, ?_, ?_, ?_, ?_, ?_⟩
  · rw [hseq]
    exact hlost
  · rw [hpayload]
    exact f.media
  · rw [hpayload]
  · rw [hagain]
    exact haccepts
  · show rtpHeaderLen ≤ (f.pkts f.lost).len
    simp only [Rtp.len]
    omega
  · have hroom := f.room _ hlost
    show (f.pkts f.lost).len ≤ maxRtpLen
    simp only [maxRtpLen]
    omega
  · have hdata := congrArg Rtp.len hagain
    simp only [Rtp.len, Rtp.copy, List.length_take] at hdata ⊢
    omega
  · rw [hseq, h.cached _ hlost,
      if_neg (mt (Flight.mem_seen_iff h.missing hlost).mp fun hne => hne rfl)]

/-- The FEC packet comes last. -/
theorem Gathered.fec_recovers (hhost : host.Remembers (f.payload == RTP_AV_H264)
      f.group.members v) (h : Gathered f v lastseq before seen false st s) (env : RecvEnv)
    (fuel : Nat) (haccepts : v.accepts f.again) (hmissing : f.missing seen = [f.lost]) :
    ∃ st' s', onRecvRtp host env (fuel + 3) st s (.ext f.fec) f.acc.len = .ok (st', s') ∧
      v.handed st' = before ++ [(f.again, f.again.len)] := by
  have hspan := f.fits.fecPacket_inSpan f.acc
  obtain ⟨hhistory, hqueue, hssrc⟩ := h.met f.fec hspan f.fec_ssrc
  have hpayload : (s.met f.fec).payloadType = f.payload := by
    rw [met_payloadType, if_neg fun hboth => Bool.noConfusion (f.isFec_fec.symm.trans hboth.2)]
    refine h.payload.resolve_right ?_
    rintro ⟨-, rfl, hn⟩
    have hall : f.missing [] = f.group.members := by
      rw [Flight.missing, List.filter_eq_self]
      exact fun t _ => rfl
    have hlen : f.group.members.length = 1 := congrArg List.length (hall.symm.trans hmissing)
    rw [MaskGroup.members, List.length_map, List.length_range] at hlen
    omega
  have hcomplete : f.Complete v seen st (s.met f.fec) :=
    ⟨h.cached, hhistory, hssrc, hpayload, hmissing⟩
  obtain ⟨s₂, htry, hagain, hsame, hown⟩ := hcomplete.recovers hhost h.ready haccepts
  have hempty : s₂.pendingFec = [] := by
    rw [hsame, hqueue, if_neg fun hboth => Bool.false_ne_true hboth.1]
  obtain ⟨st', s', hcall, hhanded⟩ :=
    onRecvRtp_fec_recovers hhost env fuel h.ready f.isFec_fec htry ⟨hempty, hown⟩
  refine ⟨st', s', hcall, ?_⟩
  rw [hhanded, hagain, h.handed]

/-- The FEC packet comes while several members lack. -/
theorem Gathered.fec_waits (h : Gathered f v lastseq before seen false st s) (host : StreamHost σ)
    (env : RecvEnv) (fuel : Nat) (hmissing : (f.missing seen).length ≠ 1) :
    ∃ s', onRecvRtp host env (fuel + 2) st s (.ext f.fec) f.acc.len = .ok (st, s') ∧
      Gathered f v lastseq before seen true st s' := by
  have hspan := f.fits.fecPacket_inSpan f.acc
  obtain ⟨hhistory, hqueue, hssrc⟩ := h.met f.fec hspan f.fec_ssrc
  obtain ⟨hlastseq, hnacks⟩ := met_same s f.fec
  have hlack : ((s.met f.fec).missing ((s.met f.fec).deref (.ext f.fec))).length ≠ 1 := by
    rw [RTPRecvSession.deref_ext, f.missing_fec,
      List.filter_congr fun t ht => congrArg (!·) (hhistory t ht), ← f.missing_eq]
    exact hmissing
  have hfec : ((s.met f.fec).deref (.ext f.fec)).payload = RTP_AV_FEC := rfl
  have htry := RTPRecvSession.tryRecover_notYet (host.getRtpBySeq st) f.acc.len hfec hlack
  refine ⟨_, onRecvRtp_fec_waits host env fuel st f.isFec_fec htry, h.ready, h.cached, h.handed,
    hhistory, ?_, Or.inr hssrc, ?_, ?_, ?_⟩
  · rw [hqueue, if_neg fun hboth => Bool.false_ne_true hboth.1]
    rfl
  · show (s.met f.fec).payloadType = _ ∨ (s.met f.fec).payloadType = _ ∧ _
    rw [met_payloadType, if_neg fun hboth => Bool.noConfusion (f.isFec_fec.symm.trans hboth.2)]
    exact h.payload
  · intro hseen
    show (s.met f.fec).lastseq = _ ∧ ∀ t ∈ f.group.members, t ∉ (s.met f.fec).hisNacks
    rw [hlastseq, hnacks]
    exact h.start hseen
  · intro hseen
    show ∀ t, f.group.InSpan t → ¬ BeginsTurn (s.met f.fec).lastseq t
    rw [hlastseq]
    exact h.turn hseen

/-- What a member meets once it is marked. -/
theorem Gathered.arrived (h : Gathered f v lastseq before seen waits st s)
    (ht : t ∈ f.group.members) :
    (∀ u ∈ f.group.members, (s.arrived (f.received t)).pktHistory u = decide (u ∈ t :: seen)) ∧
      (s.arrived (f.received t)).pendingFec =
        (if waits = true ∧ (seen = [] → ¬ BeginsTurn lastseq t) then [f.block] else []) ∧
      (s.arrived (f.received t)).ssrc = f.ssrc ∧
      (s.arrived (f.received t)).payloadType = f.payload := by
  have hseq : (f.received t).seq = t := f.number t ht
  have hkind : (f.received t).payload = f.payload := f.kind t ht
  obtain ⟨hhistory, hqueue, hssrc⟩ := h.met (f.received t)
    (by rw [hseq]; exact f.fits.inSpan ht) rfl
  rw [hseq] at hqueue
  refine ⟨fun u hu => ?_, hqueue, hssrc, ?_⟩
  · show (u == (f.received t).seq || (s.met (f.received t)).pktHistory u) = _
    rw [hseq, hhistory u hu, decide_eq_decide.mpr List.mem_cons, Bool.decide_or]
    rfl
  · show (s.met (f.received t)).payloadType = _
    rw [met_payloadType, hkind]
    split
    · rfl
    · next hnot =>
      exact h.payload.resolve_right fun hnull => hnot ⟨hnull.1, f.media⟩

/-- The walk over the queue for a member with which nothing is recovered. -/
theorem Gathered.scan (h : Gathered f v lastseq before seen waits st s)
    (ht : t ∈ f.group.members)
    (hmissing : waits = true → f.Stays lastseq seen t → (f.missing (t :: seen)).length ≠ 1)
    (parent : Parent σ) (st₁ : σ) :
    (s.arrived (f.received t)).scanPending parent (f.received t).seq st₁ []
        (s.arrived (f.received t)).pendingFec =
      .ok (st₁, { s.arrived (f.received t) with
        pendingFec := if waits && decide (f.Stays lastseq seen t) then [f.block] else [] },
        false) := by
  obtain ⟨hhistory, hqueue, -, -⟩ := h.arrived ht
  have hseq : (f.received t).seq = t := f.number t ht
  rw [hseq]
  by_cases hkept : waits = true ∧ (seen = [] → ¬ BeginsTurn lastseq t)
  · obtain ⟨rfl, hgoes⟩ := hkept
    rw [hqueue, if_pos ⟨rfl, hgoes⟩, RTPRecvSession.scanPending, f.block_get]
    dsimp only
    have hovertakes : t - f.fec.seq < 0x8000#16 ↔
        f.group.n - 1 ≤ ahead f.group.seqBase t := f.fits.overtakes_iff ht
    by_cases hstays : f.Stays lastseq seen t
    · have hlack : ((s.arrived (f.received t)).missing
          ((s.arrived (f.received t)).deref (.ext f.fec))).length ≠ 1 := by
        rw [RTPRecvSession.deref_ext, f.missing_fec,
          List.filter_congr fun u hu => congrArg (!·) (hhistory u hu), ← f.missing_eq]
        exact hmissing rfl hstays
      rw [if_neg (mt hovertakes.mp (Nat.not_le_of_lt hstays.1)),
        RTPRecvSession.tryRecover_notYet _ _ rfl hlack, ok_bind, decide_eq_true hstays]
      rfl
    · have hpast : f.group.n - 1 ≤ ahead f.group.seqBase t :=
        Nat.le_of_not_lt fun hlt => hstays ⟨hlt, hgoes⟩
      rw [if_pos (hovertakes.mpr hpast), decide_eq_false hstays]
      rfl
  · have hdrop : (waits && decide (f.Stays lastseq seen t)) = false := by
      rw [Bool.and_eq_false_iff, decide_eq_false_iff_not, ← Bool.not_eq_true]
      by_cases hwaits : waits = true
      · exact Or.inr fun hstays => hkept ⟨hwaits, hstays.2⟩
      · exact Or.inl hwaits
    rw [hqueue, if_neg hkept, hdrop]
    rfl

/-- A member can be stored. -/
theorem Gathered.storable (h : Gathered f v lastseq before seen waits st s)
    (ht : t ∈ f.group.members) (hnew : t ∉ seen) (haccepts : v.accepts (f.received t)) :
    Storable (f.payload == RTP_AV_H264) f.group.members v (v.cached st) (f.received t)
      (f.received t).len := by
  have hseq : (f.received t).seq = t := f.number t ht
  have hkind : (f.received t).payload = f.payload := f.kind t ht
  have hroom := f.room t ht
  refine ⟨?_, ?_, ?_, ?_, ?_, ?_, ?_, ?_⟩
  · rw [hseq]
    exact ht
  · rw [hkind]
    exact f.media
  · rw [hkind]
  · rw [Rtp.copy_len]
    exact haccepts
  · simp only [Rtp.len]
    omega
  · show (f.pkts t).len ≤ maxRtpLen
    simp only [maxRtpLen]
    omega
  · exact Nat.le_refl _
  · rw [hseq, h.cached t ht, if_neg hnew]

theorem received_cons (t u : Seq) :
    (if u = t then some (f.received t) else if u ∈ seen then some (f.received u) else none) =
      if u ∈ t :: seen then some (f.received u) else none := by
  by_cases hut : u = t
  · rw [if_pos hut, if_pos (hut ▸ List.mem_cons_self), hut]
  · rw [if_neg hut]
    exact if_congr (List.mem_cons.trans (or_iff_right hut)).symm rfl rfl

/-- A member with which nothing is recovered. -/
theorem Gathered.media (hhost : host.Remembers (f.payload == RTP_AV_H264) f.group.members v)
    (h : Gathered f v lastseq before seen waits st s) (env : RecvEnv) (fuel : Nat)
    (ht : t ∈ f.group.members) (hnew : t ∉ seen) (haccepts : v.accepts (f.received t))
    (hmissing : waits = true → f.Stays lastseq seen t → (f.missing (t :: seen)).length ≠ 1) :
    ∃ st' s', onRecvRtp host env (fuel + 2) st s (.ext (f.received t)) (f.received t).len =
        .ok (st', s') ∧
      Gathered f v lastseq before (t :: seen) (waits && decide (f.Stays lastseq seen t)) st'
        s' := by
  obtain ⟨hhistory, -, hssrc, hpayload⟩ := h.arrived ht
  have hseq : (f.received t).seq = t := f.number t ht
  have href : s.deref (.ext (f.received t)) = f.received t := rfl
  obtain ⟨s₂, hs₂⟩ : ∃ s₂ : RTPRecvSession, s₂ = { s.arrived (f.received t) with
      pendingFec := if waits && decide (f.Stays lastseq seen t) then [f.block] else [] } := ⟨_, rfl⟩
  have hscan := h.scan ht hmissing (host.parent env (fuel + 1))
  rw [← hs₂] at hscan
  have hdata : s₂.pktData = s.pktData := by
    rw [hs₂]
    exact arrived_pktData s (f.received t)
  obtain ⟨st', ssrc, hcall, hready, hhanded, hcached⟩ :=
    onRecvRtp_quiet hhost env fuel h.ready href (h.storable ht hnew haccepts) hdata hscan
  have hsame := onHandleRtpNack_sameFec s₂ env (f.received t) (f.received t).len
  refine ⟨st', _, hcall, hready, ?_, hhanded.trans h.handed, ?_, ?_, ?_, ?_, ?_, fun _ => ?_⟩
  · intro u hu
    rw [hcached u hu, hseq, Rtp.copy_len, h.cached u hu]
    exact received_cons t u
  · intro u hu
    refine (congrFun hsame.pktHistory u).trans ?_
    rw [hs₂]
    exact hhistory u hu
  · refine hsame.pendingFec.trans ?_
    rw [hs₂]
  · refine Or.inr (hsame.ssrc.trans ?_)
    rw [hs₂]
    exact hssrc
  · refine Or.inl (hsame.payloadType.trans ?_)
    rw [hs₂]
    exact hpayload
  · exact fun hnil => absurd hnil (List.cons_ne_nil _ _)
  · have hmet := met_same s (f.received t)
    have hlast : s₂.lastseq = s.lastseq := by
      rw [hs₂]
      exact hmet.1
    have hnacks : s₂.hisNacks = s.hisNacks := by
      rw [hs₂]
      exact hmet.2
    show ∀ u, f.group.InSpan u → ¬ BeginsTurn (s₂.onHandleRtpNack env (f.received t) _).lastseq u
    intro u hu
    have hin := f.fits.inSpan ht
    rcases onHandleRtpNack_lastseq s₂ env (f.received t) (f.received t).len with hnew | ⟨hold, hwhy⟩
    · rw [hnew, hseq]
      exact f.not_beginsTurn hin hu
    · rw [hold, hlast]
      by_cases hseen : seen = []
      · intro hturn
        rw [hnacks, hlast, hseq] at hwhy
        rcases hwhy with hdup | hnot
        · exact (h.start hseen).2 t ht hdup
        · exact Bool.false_ne_true (hnot.symm.trans (f.newer_of_beginsTurn hin hu hturn))
      · exact h.turn hseen u hu

/-- A member that comes last, with the FEC packet waiting. -/
theorem Gathered.media_recovers (hhost : host.Remembers (f.payload == RTP_AV_H264)
      f.group.members v) (h : Gathered f v lastseq before seen true st s) (env : RecvEnv)
    (fuel : Nat) (ht : t ∈ f.group.members) (hnew : t ∉ seen)
    (haccepts : v.accepts (f.received t)) (hagain : v.accepts f.again)
    (hstays : f.Stays lastseq seen t) (hmissing : f.missing (t :: seen) = [f.lost]) :
    ∃ st' s', onRecvRtp host env (fuel + 3) st s (.ext (f.received t)) (f.received t).len =
        .ok (st', s') ∧
      v.handed st' = before ++ [(f.again, f.again.len)] := by
  obtain ⟨hhistory, hqueue, hssrc, hpayload⟩ := h.arrived ht
  have hseq : (f.received t).seq = t := f.number t ht
  rw [if_pos ⟨rfl, hstays.2⟩] at hqueue
  have hlate : ¬ (f.received t).seq - f.fec.seq < 0x8000#16 := by
    rw [hseq]
    exact mt (f.fits.overtakes_iff ht).mp (Nat.not_le_of_lt hstays.1)
  have htry : ∀ st₁, v.ready st₁ →
      (∀ u ∈ f.group.members, v.cached st₁ u = if u = (f.received t).seq then
        some ((f.received t).copy (f.received t).len) else v.cached st u) →
      ∃ s₂, (s.arrived (f.received t)).tryRecover (host.getRtpBySeq st₁) (.ext f.fec) f.acc.len =
          .ok (s₂, .recovered f.again.len) ∧ s₂.pktData.copy f.again.len = f.again ∧
        Storable (f.payload == RTP_AV_H264) f.group.members v (v.cached st₁) s₂.pktData
          f.again.len := by
    intro st₁ hready hcached
    have hcomplete : f.Complete v (t :: seen) st₁ (s.arrived (f.received t)) := by
      refine ⟨fun u hu => ?_, hhistory, hssrc, hpayload, hmissing⟩
      rw [hcached u hu, hseq, Rtp.copy_len, h.cached u hu]
      exact received_cons t u
    obtain ⟨s₂, htry, hdata, -, hown⟩ := hcomplete.recovers hhost hready hagain
    exact ⟨s₂, htry, hdata, hown⟩
  obtain ⟨st', s', hcall, hhanded⟩ := onRecvRtp_recovers hhost env fuel h.ready
    (h.storable ht hnew haccepts) hqueue f.block_get hlate htry
  exact ⟨st', s', hcall, by rw [hhanded, h.handed]⟩

end Steps

/-! ## Orders of arrival -/

/-- An order of arrival: the members but the lost one, those before the FEC packet and those behind
it, each with what the call depends on. -/
structure Order (f : Flight) where
  before : List (RecvEnv × Seq)
  env : RecvEnv
  after : List (RecvEnv × Seq)
  perm : ((before ++ after).map (·.2)).Perm (f.group.members.erase f.lost)

/-- The arrival of a member. -/
def Flight.arrival (f : Flight) (e : RecvEnv × Seq) : Arrival :=
  { env := e.1, pkt := f.received e.2, len := (f.received e.2).len }

def Order.arrivals {f : Flight} (o : Order f) : List Arrival :=
  o.before.map f.arrival ++
    { env := o.env, pkt := f.fec, len := f.acc.len } :: o.after.map f.arrival

/-- No member that comes behind the FEC packet is as far ahead as the FEC packet's number, and where
none of the group came before it, the first one behind it begins no turn. -/
def Flight.Timely (f : Flight) (lastseq : Seq) (seen : List Seq) (after : List (RecvEnv × Seq)) :
    Prop :=
  (∀ e ∈ after, ahead f.group.seqBase e.2 < f.group.n - 1) ∧
    (seen = [] → ∀ e ∈ after.head?, ¬ BeginsTurn lastseq e.2)

def Order.Timely {f : Flight} (o : Order f) (lastseq : Seq) : Prop :=
  f.Timely lastseq (o.before.map (·.2)) o.after

/-- Different members, none of them among the numbers. -/
structure Flight.Fresh (f : Flight) (seen : List Seq) (es : List (RecvEnv × Seq)) : Prop where
  mem : ∀ e ∈ es, e.2 ∈ f.group.members
  nodup : (es.map (·.2)).Nodup
  new : ∀ e ∈ es, e.2 ∉ seen

section Runs

variable {σ : Type} {host : StreamHost σ} {f : Flight} {v : HostView σ} {lastseq : Seq}
  {before : List Sent} {seen : List Seq} {st : σ} {s : RTPRecvSession}
  {e : RecvEnv × Seq} {es : List (RecvEnv × Seq)}

theorem Flight.Fresh.tail (h : f.Fresh seen (e :: es)) : f.Fresh (e.2 :: seen) es where
  mem e' he' := h.mem e' (List.mem_cons_of_mem _ he')
  nodup := (List.nodup_cons.mp h.nodup).2
  new e' he' := by
    rintro (hmem : e'.2 ∈ e.2 :: seen)
    rcases List.mem_cons.mp hmem with heq | hmem
    · have hin : e'.2 ∈ es.map (·.2) := List.mem_map_of_mem he'
      rw [heq] at hin
      exact (List.nodup_cons.mp h.nodup).1 hin
    · exact h.new e' (List.mem_cons_of_mem _ he') hmem

theorem receiveAll_cons {a : Arrival} {arrivals : List Arrival} {fuel : Nat} {st' : σ}
    {s' : RTPRecvSession} (h : onRecvRtp host a.env fuel st s (.ext a.pkt) a.len = .ok (st', s')) :
    receiveAll host fuel st s (a :: arrivals) = receiveAll host fuel st' s' arrivals := by
  rw [receiveAll, List.foldlM_cons, h, ok_bind]
  rfl

theorem receiveAll_append {first rest : List Arrival} {fuel : Nat} {st' : σ}
    {s' : RTPRecvSession} (h : receiveAll host fuel st s first = .ok (st', s')) :
    receiveAll host fuel st s (first ++ rest) = receiveAll host fuel st' s' rest := by
  rw [receiveAll, List.foldlM_append]
  exact (congrArg (· >>= _) h).trans (ok_bind _ _)

/-- Members come while no FEC packet waits: nothing is recovered. -/
theorem Gathered.run (hhost : host.Remembers (f.payload == RTP_AV_H264) f.group.members v)
    (haccepts : ∀ t ∈ f.group.members, v.accepts (f.received t)) (fuel : Nat)
    (h : Gathered f v lastseq before seen false st s) (hes : f.Fresh seen es) :
    ∃ st' s', receiveAll host (fuel + 3) st s (es.map f.arrival) = .ok (st', s') ∧
      Gathered f v lastseq before ((es.map (·.2)).reverse ++ seen) false st' s' := by
  induction es generalizing seen st s with
  | nil => exact ⟨st, s, rfl, h⟩
  | cons e es ih =>
    have hmem := hes.mem e List.mem_cons_self
    obtain ⟨st₁, s₁, hcall, hnext⟩ := h.media hhost e.1 (fuel + 1) hmem
      (hes.new e List.mem_cons_self) (haccepts _ hmem) fun hwaits => Bool.noConfusion hwaits
    obtain ⟨st', s', hrun, hend⟩ := ih hnext hes.tail
    refine ⟨st', s', (receiveAll_cons hcall).trans hrun, ?_⟩
    rw [List.map_cons, List.reverse_cons, List.append_assoc]
    exact hend

/-- Only the lost member lacks. -/
theorem Flight.missing_eq_lost (hlost : f.lost ∉ seen)
    (hall : ∀ t ∈ f.group.members, t ≠ f.lost → t ∈ seen) : f.missing seen = [f.lost] := by
  have honly : f.missing seen = f.group.members.filter (· == f.lost) := by
    rw [f.missing_eq]
    refine List.filter_congr fun t ht => ?_
    by_cases heq : t = f.lost
    · rw [heq, decide_eq_false hlost, beq_self_eq_true]
      rfl
    · rw [decide_eq_true (hall t ht heq), beq_eq_false_iff_ne.mpr heq]
      rfl
  rw [honly, List.filter_beq, List.count_eq_one_of_mem f.fits.members_nodup f.lost_mem]
  rfl

/-- The lost member is not the only one that lacks. -/
theorem Flight.missing_length_ne (hlost : f.lost ∉ seen) {t : Seq} (ht : t ∈ f.group.members)
    (hne : t ≠ f.lost) (hnew : t ∉ seen) : (f.missing seen).length ≠ 1 := by
  intro hone
  obtain ⟨u, hu⟩ := List.length_eq_one_iff.mp hone
  have hmem : ∀ t ∈ f.group.members, t ∉ seen → t = u := by
    intro t ht hnew
    have hin : t ∈ f.missing seen := by
      rw [f.missing_eq]
      exact List.mem_filter.mpr ⟨ht, by rw [decide_eq_false hnew]; rfl⟩
    rw [hu, List.mem_singleton] at hin
    exact hin
  exact hne ((hmem t ht hnew).trans (hmem f.lost f.lost_mem hlost).symm)

theorem Flight.timely_cons (hstays : f.Stays lastseq seen e.2) :
    f.Timely lastseq seen (e :: es) ↔ f.Timely lastseq (e.2 :: seen) es := by
  constructor
  · exact fun h => ⟨fun e' he' => h.1 e' (List.mem_cons_of_mem _ he'),
      fun hnil => absurd hnil (List.cons_ne_nil _ _)⟩
  · intro h
    refine ⟨fun e' he' => ?_, fun hseen e' he' => ?_⟩
    · rcases List.mem_cons.mp he' with rfl | he'
      · exact hstays.1
      · exact h.1 e' he'
    · cases he'
      exact hstays.2 hseen

/-- The members that are left come while the FEC packet waits. -/
theorem Gathered.rest (hhost : host.Remembers (f.payload == RTP_AV_H264) f.group.members v)
    (haccepts : ∀ t ∈ f.group.members, v.accepts (f.received t)) (hagain : v.accepts f.again)
    (fuel : Nat) (h : Gathered f v lastseq before seen true st s) (hes : f.Fresh seen es)
    (hne : es ≠ []) (hlost : f.lost ∉ es.map (·.2) ++ seen)
    (hall : ∀ t ∈ f.group.members, t ≠ f.lost → t ∈ es.map (·.2) ++ seen) :
    ∃ st' s', receiveAll host (fuel + 3) st s (es.map f.arrival) = .ok (st', s') ∧
      (f.Timely lastseq seen es → v.handed st' = before ++ [(f.again, f.again.len)]) ∧
      (¬ f.Timely lastseq seen es → v.handed st' = before) := by
  induction es generalizing seen st s with
  | nil => exact absurd rfl hne
  | cons e es ih =>
    have hmem := hes.mem e List.mem_cons_self
    have hnew := hes.new e List.mem_cons_self
    have hlost' : f.lost ∉ es.map (·.2) ++ e.2 :: seen := by
      rw [List.mem_append, List.mem_cons]
      rw [List.mem_append, List.map_cons, List.mem_cons] at hlost
      exact fun hin => hlost (by tauto)
    have hall' : ∀ t ∈ f.group.members, t ≠ f.lost → t ∈ es.map (·.2) ++ e.2 :: seen := by
      intro t ht hne
      have hin := hall t ht hne
      rw [List.mem_append, List.mem_cons]
      rw [List.mem_append, List.map_cons, List.mem_cons] at hin
      tauto
    have hhead : f.Timely lastseq seen (e :: es) → f.Stays lastseq seen e.2 := fun h =>
      ⟨h.1 e List.mem_cons_self, fun hseen => h.2 hseen e rfl⟩
    by_cases hstays : f.Stays lastseq seen e.2
    · cases hes' : es with
      | nil =>
        subst hes'
        obtain ⟨st', s', hcall, hhanded⟩ := h.media_recovers hhost e.1 fuel hmem hnew
          (haccepts _ hmem) hagain hstays (Flight.missing_eq_lost hlost' hall')
        refine ⟨st', s', receiveAll_cons hcall, fun _ => hhanded, fun hnot => absurd ?_ hnot⟩
        refine (Flight.timely_cons hstays).mpr ⟨fun e' he' => absurd he' List.not_mem_nil, ?_⟩
        exact fun hnil => absurd hnil (List.cons_ne_nil _ _)
      | cons e' es' =>
        have hnext' := hes.tail.new e' (hes' ▸ List.mem_cons_self)
        have hmem' := hes.mem e' (List.mem_cons_of_mem _ (hes' ▸ List.mem_cons_self))
        have hother : e'.2 ≠ f.lost := by
          intro heq
          refine hlost' (List.mem_append_left _ ?_)
          rw [← heq, hes']
          exact List.mem_cons_self
        have hlost₂ : f.lost ∉ e.2 :: seen := fun hin => hlost' (List.mem_append_right _ hin)
        obtain ⟨st₁, s₁, hcall, hnext⟩ := h.media hhost e.1 (fuel + 1) hmem hnew (haccepts _ hmem)
          fun _ _ => Flight.missing_length_ne hlost₂ hmem' hother hnext'
        rw [decide_eq_true hstays] at hnext
        have hmore : es ≠ [] := hes' ▸ List.cons_ne_nil _ _
        obtain ⟨st', s', hrun, hback⟩ := ih hnext hes.tail hmore hlost' hall'
        rw [← hes', Flight.timely_cons hstays]
        exact ⟨st', s', (receiveAll_cons hcall).trans hrun, hback⟩
    · obtain ⟨st₁, s₁, hcall, hnext⟩ := h.media hhost e.1 (fuel + 1) hmem hnew (haccepts _ hmem)
        fun _ hgoes => absurd hgoes hstays
      rw [decide_eq_false hstays] at hnext
      obtain ⟨st', s', hrun, hend⟩ := hnext.run hhost haccepts fuel hes.tail
      exact ⟨st', s', (receiveAll_cons hcall).trans hrun, fun h => absurd (hhead h) hstays,
        fun _ => hend.handed⟩

/-- A session and a host that know nothing of the group. The session is one of its media, or, where
the group has a second member, one that got no packet so far. -/
structure Flight.Unheard (f : Flight) (v : HostView σ) (st : σ) (s : RTPRecvSession) : Prop where
  ready : v.ready st
  cached : ∀ t ∈ f.group.members, v.cached st t = none
  history : ∀ t ∈ f.group.members, s.pktHistory t = false
  hisNacks : ∀ t ∈ f.group.members, t ∉ s.hisNacks
  queue : s.pendingFec = []
  ssrc : s.ssrc = 0 ∨ s.ssrc = f.ssrc
  payload : s.payloadType = f.payload ∨ s.payloadType = RTP_AV_NULL ∧ 1 < f.group.n

theorem Flight.Unheard.gathered (h : f.Unheard v st s) :
    Gathered f v s.lastseq (v.handed st) [] false st s where
  ready := h.ready
  cached := h.cached
  handed := rfl
  history := h.history
  queue := h.queue
  ssrc := h.ssrc
  payload := h.payload.imp_right fun hnull => ⟨hnull.1, rfl, hnull.2⟩
  start _ := ⟨rfl, h.hisNacks⟩
  turn hne := absurd rfl hne

theorem Order.mem_iff (o : Order f) {t : Seq} :
    t ∈ (o.before ++ o.after).map (·.2) ↔ t ≠ f.lost ∧ t ∈ f.group.members :=
  o.perm.mem_iff.trans f.fits.members_nodup.mem_erase_iff

theorem Order.nodup (o : Order f) : ((o.before ++ o.after).map (·.2)).Nodup :=
  o.perm.nodup_iff.mpr (f.fits.members_nodup.erase _)

/-- The members before the FEC packet. -/
theorem Order.fresh_before (o : Order f) : f.Fresh [] o.before where
  mem e he := (o.mem_iff.mp (List.mem_map_of_mem (List.mem_append_left _ he))).2
  nodup := by
    have hnodup := o.nodup
    rw [List.map_append] at hnodup
    exact hnodup.of_append_left
  new _ _ := List.not_mem_nil

/-- The members behind the FEC packet. -/
theorem Order.fresh_after (o : Order f) : f.Fresh ((o.before.map (·.2)).reverse ++ []) o.after where
  mem e he := (o.mem_iff.mp (List.mem_map_of_mem (List.mem_append_right _ he))).2
  nodup := by
    have hnodup := o.nodup
    rw [List.map_append] at hnodup
    exact hnodup.of_append_right
  new e he hin := by
    have hnodup := o.nodup
    rw [List.map_append] at hnodup
    rw [List.append_nil, List.mem_reverse] at hin
    exact List.disjoint_of_nodup_append hnodup hin (List.mem_map_of_mem he)

theorem Order.mem_seen_iff (o : Order f) {t : Seq} :
    t ∈ o.after.map (·.2) ++ ((o.before.map (·.2)).reverse ++ []) ↔
      t ≠ f.lost ∧ t ∈ f.group.members := by
  rw [← o.mem_iff, List.map_append, List.append_nil, List.mem_append, List.mem_append,
    List.mem_reverse]
  exact or_comm

/-- What a whole order does. -/
theorem Order.receives (hhost : host.Remembers (f.payload == RTP_AV_H264) f.group.members v)
    (haccepts : ∀ t ∈ f.group.members, v.accepts (f.received t)) (hagain : v.accepts f.again)
    (hstart : f.Unheard v st s) (o : Order f) (fuel : Nat) :
    ∃ st' s', receiveAll host (fuel + 3) st s o.arrivals = .ok (st', s') ∧
      (o.Timely s.lastseq → v.handed st' = v.handed st ++ [(f.again, f.again.len)]) ∧
      (¬ o.Timely s.lastseq → v.handed st' = v.handed st) := by
  obtain ⟨st₁, s₁, hrun, hgathered⟩ := hstart.gathered.run hhost haccepts fuel o.fresh_before
  have hlost : f.lost ∉ o.after.map (·.2) ++ ((o.before.map (·.2)).reverse ++ []) :=
    fun hin => (o.mem_seen_iff.mp hin).1 rfl
  have htimely : o.Timely s.lastseq ↔
      f.Timely s.lastseq ((o.before.map (·.2)).reverse ++ []) o.after := by
    rw [Order.Timely, Flight.Timely, Flight.Timely, List.append_nil, List.reverse_eq_nil_iff]
  by_cases hafter : o.after = []
  · rw [hafter] at hlost htimely
    have hall : ∀ t ∈ f.group.members, t ≠ f.lost → t ∈ (o.before.map (·.2)).reverse ++ [] := by
      intro t ht hne
      have hin := o.mem_seen_iff.mpr ⟨hne, ht⟩
      rw [hafter] at hin
      exact hin
    obtain ⟨st', s', hcall, hhanded⟩ := hgathered.fec_recovers hhost o.env fuel hagain
      (Flight.missing_eq_lost hlost hall)
    refine ⟨st', s', ?_, fun _ => hhanded, fun hnot => absurd (htimely.mpr ?_) hnot⟩
    · rw [Order.arrivals, receiveAll_append hrun, hafter]
      exact receiveAll_cons hcall
    · exact ⟨fun e he => absurd he List.not_mem_nil, fun _ e he => by cases he⟩
  · obtain ⟨e, he⟩ := List.exists_mem_of_ne_nil _ hafter
    have hother := o.mem_iff.mp (List.mem_map_of_mem (List.mem_append_right o.before he))
    have hlack := Flight.missing_length_ne
      (fun hin => hlost (List.mem_append_right _ hin)) hother.2 hother.1 (o.fresh_after.new e he)
    obtain ⟨s₂, hcall, hwaits⟩ := hgathered.fec_waits host o.env (fuel + 1) hlack
    obtain ⟨st', s', hrest, hback⟩ := hwaits.rest hhost haccepts hagain fuel o.fresh_after hafter
      hlost fun t ht hne => o.mem_seen_iff.mpr ⟨hne, ht⟩
    rw [← htimely] at hback
    refine ⟨st', s', ?_, hback⟩
    rw [Order.arrivals, receiveAll_append hrun, receiveAll_cons hcall]
    exact hrest

/-- Out of time nothing is recovered. -/
theorem Order.not_recovers (hhost : host.Remembers (f.payload == RTP_AV_H264) f.group.members v)
    (haccepts : ∀ t ∈ f.group.members, v.accepts (f.received t)) (hagain : v.accepts f.again)
    (hstart : f.Unheard v st s) (o : Order f) (fuel : Nat) (hlate : ¬ o.Timely s.lastseq) :
    ¬ ∃ st' s', receiveAll host (fuel + 3) st s o.arrivals = .ok (st', s') ∧
      v.handed st' = v.handed st ++ [(f.again, f.again.len)] := by
  rintro ⟨st', s', hrun, hhanded⟩
  obtain ⟨st₁, s₁, hrun₁, -, hsame⟩ := o.receives hhost haccepts hagain hstart fuel
  rw [hrun] at hrun₁
  cases hrun₁
  rw [hsame hlate] at hhanded
  have hlength := congrArg List.length hhanded
  rw [List.length_append, List.length_singleton] at hlength
  omega

/-- The missing member is recovered and handed to `recv_rtp` once exactly in the timely orders. -/
theorem recovered_iff_order (hhost : host.Remembers (f.payload == RTP_AV_H264) f.group.members v)
    (haccepts : ∀ t ∈ f.group.members, v.accepts (f.received t)) (hagain : v.accepts f.again)
    (hstart : f.Unheard v st s) (o : Order f) {fuel : Nat} (hfuel : 3 ≤ fuel) :
    (∃ st' s', receiveAll host fuel st s o.arrivals = .ok (st', s') ∧
      v.handed st' = v.handed st ++ [(f.again, f.again.len)]) ↔ o.Timely s.lastseq := by
  obtain ⟨fuel, rfl⟩ : ∃ k, fuel = k + 3 := ⟨fuel - 3, by omega⟩
  constructor
  · intro hrecovered
    by_contra hlate
    exact o.not_recovers hhost haccepts hagain hstart fuel hlate hrecovered
  · intro htimely
    obtain ⟨st', s', hrun, hhanded, -⟩ := o.receives hhost haccepts hagain hstart fuel
    exact ⟨st', s', hrun, hhanded htimely⟩

end Runs

/-! ### Two orders -/

section Pair

open RtcMcu.MediaManager RtcMcu.ConnectionManager

/-- A video packet of one byte. -/
def videoOne (t : Seq) : Rtp :=
  { Rtp.zero with version := 2, payload := RTP_AV_H264, seq := t, ssrc := 7, data := [1] }

def pairGroup : MaskGroup := { seqBase := 100, n := 2, k := 1 }

theorem pairGroup_held : ∀ t ∈ pairGroup.members,
    (fun _ t => .ok (some (videoOne t), (videoOne t).len) : GetRtp) true t =
      .ok (some (videoOne t), (videoOne t).len) := fun _ _ => rfl

/-- The packets 100 and 101, of which the first is lost. -/
def pair : Flight where
  group := pairGroup
  payload := RTP_AV_H264
  ssrc := 7
  pkts := videoOne
  get := fun _ t => .ok (some (videoOne t), (videoOne t).len)
  acc := (List.range pairGroup.n).foldl (fun acc i => MaskSum.plus 7 acc (i * pairGroup.k)
    (videoOne (pairGroup.member i))) MaskSum.start
  lost := 100
  fits := ⟨by decide, by decide, by decide⟩
  straight := by decide
  held := pairGroup_held
  summed := MaskGroup.sum_eq pairGroup_held 7
  number := fun _ _ => rfl
  kind := fun _ _ => rfl
  room := fun t _ => show 13 + fecHeaderLen + fecExtendHeaderLen ≤ 2048 by decide
  media := rfl
  known := by decide
  lost_mem := by decide

/-- A cache with the packet 99. -/
def oneBefore : RTPCircularCache where
  sampleRate := 90000
  maxSize := 3000
  ssrc := 7
  circularCache := [RTPBlock.holding (videoOne 99)]

/-- A server with this cache for the stream. -/
def streaming : Server :=
  { Server.new with
    rtpCache := { caches := fun _ => some { RTPMediaCache.new with videoCache := oneBefore } } }

def pairView : HostView Server := serverView 5 true 7 [0] pairGroup.members

theorem len_videoOne (t : Seq) : (videoOne t).len ≤ maxRtpLen :=
  show 13 ≤ 2048 by decide

def oneWindow : SlotWindow 3000 :=
  SlotWindow.single (videoOne 99) (len_videoOne 99) (by decide)

theorem oneBefore_represents : Represents oneBefore (some oneWindow) := ⟨rfl, rfl⟩

theorem ahead_pair : ∀ t ∈ pairGroup.members, 0 < ahead 99 t ∧ ahead 99 t < 3000 := by
  intro t ht
  have hmem : t ∈ [(100 : Seq), 101] := ht
  rcases List.mem_cons.mp hmem with rfl | hmem
  · decide
  · rw [List.mem_singleton.mp hmem]
    decide

theorem oneBefore_holds : oneBefore.Holds 7 [0] pairGroup.members where
  serves := ⟨by decide, Or.inr rfl⟩
  near := by
    intro a ha b hb
    rw [List.mem_singleton.mp ha, List.mem_singleton.mp hb]
    decide
  window := ⟨3000, oneWindow, oneBefore_represents, by decide,
    ⟨99, videoOne 99, rfl, fun t ht => (ahead_pair t ht).2⟩, videoOne 99, rfl,
    List.mem_singleton.mpr rfl⟩

theorem oneBefore_found : ∀ t ∈ pairGroup.members, oneBefore.found t = none := by
  intro t ht
  obtain ⟨hpos, hnear⟩ := ahead_pair t ht
  have hslot : oneWindow.slot 99 = some (videoOne 99) := rfl
  rw [found_near oneBefore_represents (by decide) hslot hnear]
  show ([some (videoOne 99)][ahead 99 t]?).join = none
  rw [List.getElem?_eq_none (by rw [List.length_singleton]; exact hpos)]
  rfl

theorem streaming_members : streaming.members 5 = [] := rfl

theorem streaming_caches : streaming.rtpCache.caches (get32bitStreamId 5) =
    some { RTPMediaCache.new with videoCache := oneBefore } := rfl

theorem pair_unheard : pair.Unheard pairView streaming RTPRecvSession.new where
  ready := by
    refine ⟨⟨_, streaming_caches, oneBefore_holds⟩, ?_⟩
    rw [streaming_members]
    exact fun c hc => absurd hc List.not_mem_nil
  cached t ht := (foundIn_eq streaming_caches true t).trans (oneBefore_found t ht)
  history := fun _ _ => rfl
  hisNacks := fun _ _ => List.not_mem_nil
  queue := rfl
  ssrc := Or.inl rfl
  payload := Or.inr ⟨rfl, by decide⟩

theorem pair_accepts : ∀ t ∈ pair.group.members, pairView.accepts (pair.received t) :=
  fun _ _ => ⟨rfl, List.mem_singleton.mpr rfl, Or.inl rfl⟩

theorem pair_accepts_again : pairView.accepts pair.again :=
  ⟨rfl, List.mem_singleton.mpr rfl, Or.inl rfl⟩

def atStart : RecvEnv :=
  { cfg := RTPTransConfig.default, audioTimeBase := 0, videoTimeBase := 90000, now := 1000 }

/-- The FEC packet comes last. -/
def fecLast : Order pair where
  before := [(atStart, 101)]
  env := atStart
  after := []
  perm := by decide

/-- The FEC packet comes first. -/
def fecFirst : Order pair where
  before := []
  env := atStart
  after := [(atStart, 101)]
  perm := by decide

theorem recovered_iff_order_last : ∃ st' s',
    receiveAll (Server.host firstSecond 1 5) 3 streaming RTPRecvSession.new fecLast.arrivals =
      .ok (st', s') ∧
    pairView.handed st' = pairView.handed streaming ++ [(pair.again, pair.again.len)] :=
  (recovered_iff_order (server_remembers firstSecond 1 5 true 7 [0] pairGroup.members) pair_accepts
    pair_accepts_again pair_unheard fecLast (Nat.le_refl 3)).mpr
      ⟨fun _ he => absurd he List.not_mem_nil, fun _ _ he => by cases he⟩

theorem fec_first_lost : ¬ ∃ st' s',
    receiveAll (Server.host firstSecond 1 5) 3 streaming RTPRecvSession.new fecFirst.arrivals =
      .ok (st', s') ∧
    pairView.handed st' = pairView.handed streaming ++ [(pair.again, pair.again.len)] :=
  fecFirst.not_recovers (server_remembers firstSecond 1 5 true 7 [0] pairGroup.members) pair_accepts
    pair_accepts_again pair_unheard 0 fun h => absurd (h.1 _ List.mem_cons_self) (by decide)

end Pair

end RtcMcu.RtpTrans
