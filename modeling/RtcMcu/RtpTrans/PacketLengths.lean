import RtcMcu.Lib.Coupling
import RtcMcu.RtpTrans.FecCode
import RtcMcu.RtpTrans.Reentry

/-!
# Lengths of FEC packets and of recovered packets

A FEC packet is as long as the longest packet it protects, and its headers. The length of a recovered
packet is the xor of the length in the FEC packet and the lengths of the packets found in the cache,
whatever those are.
-/

namespace RtcMcu.RtpTrans

open RtcMcu.Avformat RtcMcu.Fragment RtcMcu.Coupling RtcMcu.Parity

/-! ## The longest packet of a group -/

/-- A maximum that a loop keeps: it is bounded if it was and all that is met is. -/
theorem foldlM_le_iff {α β : Type} {f : β → α → Except Fault β} {P : β → Prop} {m : β → Nat}
    {Q : α → Prop} {b : Nat} (l : List α)
    (hstep : ∀ acc a acc', P acc → f acc a = .ok acc' →
      P acc' ∧ (m acc' ≤ b ↔ m acc ≤ b ∧ Q a)) {acc res : β} (hacc : P acc)
    (h : l.foldlM f acc = .ok res) : m res ≤ b ↔ m acc ≤ b ∧ ∀ a ∈ l, Q a := by
  induction l generalizing acc with
  | nil =>
    cases h
    simp only [List.not_mem_nil, false_implies, implies_true, and_true]
  | cons a l ih =>
    rw [List.foldlM_cons] at h
    obtain ⟨acc', hfirst, hrest⟩ := bind_eq_ok.mp h
    obtain ⟨hacc', hle⟩ := hstep acc a acc' hacc hfirst
    rw [ih hacc' hrest, hle, List.forall_mem_cons, and_assoc]

/-- The longest packet so far; none before the first. -/
def FecSum.Begun (acc : FecSum) : Prop := acc.isFirst = true → acc.rtpPktLen = 0

theorem FecSum.add_le_iff {ssrc : BitVec 32} {acc acc' : FecSum} {t : Rtp} {tLen b : Nat}
    (hacc : acc.Begun) (h : acc.add ssrc t tLen = .ok acc') :
    acc'.Begun ∧ (acc'.rtpPktLen ≤ b ↔ acc.rtpPktLen ≤ b ∧ tLen ≤ b) := by
  obtain ⟨data, -, h⟩ := bind_eq_ok.mp h
  by_cases hfirst : acc.isFirst = true
  · rw [if_pos hfirst] at h
    cases h
    rw [hacc hfirst]
    refine ⟨fun h => ?_, ?_⟩
    · cases h
    · exact ⟨fun hle => ⟨Nat.zero_le b, hle⟩, fun hle => hle.2⟩
  · rw [if_neg hfirst] at h
    cases h
    exact ⟨fun h => absurd h hfirst, Nat.max_le⟩

theorem FFecGroup.sum_le_iff {g : FFecGroup} {get : GetRtp} {video : Bool} {ssrc : BitVec 32}
    {sum : FecSum} (h : g.sum get video ssrc = .ok sum) (b : Nat) :
    sum.rtpPktLen ≤ b ↔ ∀ i ∈ List.range g.count.toNat, ∀ t len,
      get video (g.member i) = .ok (some t, len) → len ≤ b := by
  refine (foldlM_le_iff (P := FecSum.Begun) (m := FecSum.rtpPktLen) _ ?_ (fun _ => rfl) h).trans
    (and_iff_right (Nat.zero_le b))
  intro acc i acc' hacc hadd
  obtain ⟨⟨t, tLen⟩, hget, hadd⟩ := bind_eq_ok.mp hadd
  rw [hget]
  cases t with
  | none =>
    cases hadd
    refine ⟨hacc, fun hle => ⟨hle, fun t len h => ?_⟩, fun hle => hle.1⟩
    cases h
  | some t =>
    obtain ⟨hacc', hle⟩ := FecSum.add_le_iff (b := b) hacc hadd
    refine ⟨hacc', hle.trans (and_congr_right fun _ => ⟨fun hle t' len h => ?_, fun h => h t tLen rfl⟩)⟩
    cases h
    exact hle

theorem MaskGroup.sum_le_iff {g : MaskGroup} {get : GetRtp} {video : Bool} {ssrc : BitVec 32}
    {acc : MaskSum} (h : g.sum get video ssrc = .ok acc) (b : Nat) :
    acc.sum.rtpPktLen ≤ b ↔ ∀ i ∈ List.range g.n, ∀ t len,
      get video (g.member i) = .ok (some t, len) → len ≤ b := by
  refine (foldlM_le_iff (P := fun acc => acc.sum.Begun) (m := fun acc => acc.sum.rtpPktLen) _ ?_
    (fun _ => rfl) h).trans (and_iff_right (Nat.zero_le b))
  intro acc i acc' hacc hadd
  obtain ⟨⟨t, tLen⟩, hget, hadd⟩ := bind_eq_ok.mp hadd
  rw [hget]
  cases t with
  | none =>
    cases hadd
    refine ⟨hacc, fun hle => ⟨hle, fun t len h => ?_⟩, fun hle => hle.1⟩
    cases h
  | some t =>
    obtain ⟨sum, hsum, hadd⟩ := bind_eq_ok.mp hadd
    cases hadd
    obtain ⟨hacc', hle⟩ := FecSum.add_le_iff (b := b) hacc hsum
    refine ⟨hacc', hle.trans (and_congr_right fun _ => ⟨fun hle t' len h => ?_, fun h => h t tLen rfl⟩)⟩
    cases h
    exact hle

/-- A mask group whose sum is still empty had no packet in the cache. -/
theorem MaskGroup.sum_isFirst {g : MaskGroup} {get : GetRtp} {video : Bool} {ssrc : BitVec 32}
    {acc : MaskSum} (h : g.sum get video ssrc = .ok acc) (hfirst : acc.sum.isFirst = true) :
    acc.sum.rtpPktLen = 0 := by
  have hbegun : Ends (fun _ => True) (fun acc : MaskSum => acc.sum.Begun) (g.sum get video ssrc) := by
    refine Ends.foldlM _ (fun acc i _ hacc => ?_) (fun _ => rfl)
    cases hget : get video (g.member i) with
    | error e => trivial
    | ok found =>
      obtain ⟨t, tLen⟩ := found
      rw [ok_bind]
      cases t with
      | none => exact hacc
      | some t =>
        dsimp only
        cases hadd : acc.add ssrc (i * g.k) t tLen with
        | error e => trivial
        | ok acc' =>
          obtain ⟨sum, hsum, hadd⟩ := bind_eq_ok.mp hadd
          cases hadd
          exact (FecSum.add_le_iff (b := 0) hacc hsum).1
  exact hbegun.of_ok h hfirst

/-! ## FEC packets -/

/-- The groups a packet completes: their numbers, and what a FEC packet adds to the longest packet. -/
def fecGroups (cfg : RTPTransConfig) (pkt : Rtp) : List (List Seq × Nat) :=
  let n := maskFecCount cfg pkt
  let k := cfg.fecInterleavePackageVal
  if n = 0 then []
  else if 0 < k then
    if 0 < pkt.seq ∧ pkt.seq.setWidth 32 % (k * n) = 0 then
      (maskGroups n k pkt.seq).map fun g =>
        ((List.range g.n).map g.member, fecHeaderLen + fecExtendHeaderLen)
    else []
  else if 1 < cfg.fecL ∧ 1 < cfg.fecDL ∧ 0 < cfg.fecD ∧ 0 < pkt.seq then
    let rFec := pkt.seq.setWidth 32 % cfg.fecL
    let cFec := (pkt.seq.setWidth 32 - 1) % cfg.fecD
    if rFec = 0 ∨ cFec = 0 then
      let g := FFecGroup.of cfg pkt.seq (rFec == 0)
      [((List.range g.count.toNat).map g.member, fFecHeaderLen)]
    else []
  else []

/-- The packets found in the cache are no longer than `b`. -/
def FoundWithin (get : GetRtp) (video : Bool) (b : Nat) (members : List Seq) : Prop :=
  ∀ seq ∈ members, ∀ t len, get video seq = .ok (some t, len) → len ≤ b

theorem foundWithin_map {get : GetRtp} {video : Bool} {b n : Nat} {member : Nat → Seq} :
    FoundWithin get video b ((List.range n).map member) ↔
      ∀ i ∈ List.range n, ∀ t len, get video (member i) = .ok (some t, len) → len ≤ b := by
  unfold FoundWithin
  rw [List.forall_mem_map]

theorem RTPSendSession.sendMaskFec_le_iff {get : GetRtp} {s s' : RTPSendSession} {g : MaskGroup}
    {sent : List Sent} (h : s.sendMaskFec get g = .ok (s', sent)) (b : Nat) :
    s'.payloadType = s.payloadType ∧
      ((∀ e ∈ sent, e.2 ≤ b + (fecHeaderLen + fecExtendHeaderLen)) ↔
        FoundWithin get (s.payloadType == RTP_AV_H264) b ((List.range g.n).map g.member)) := by
  obtain ⟨acc, hsum, h⟩ := bind_eq_ok.mp h
  rw [foundWithin_map, ← MaskGroup.sum_le_iff hsum b]
  split at h
  · rename_i hfirst
    cases h
    rw [MaskGroup.sum_isFirst hsum hfirst]
    refine ⟨rfl, fun _ => Nat.zero_le b, fun _ e he => ?_⟩
    cases he
  · cases h
    refine ⟨rfl, ?_⟩
    rw [List.forall_mem_singleton, MaskSum.len]
    omega

theorem RTPSendSession.sendMaskFecs_le_iff {get : GetRtp} (gs : List MaskGroup)
    {s s' : RTPSendSession} {sent : List Sent} (h : s.sendMaskFecs get gs = .ok (s', sent))
    (b : Nat) :
    (∀ e ∈ sent, e.2 ≤ b + (fecHeaderLen + fecExtendHeaderLen)) ↔
      ∀ g ∈ gs, FoundWithin get (s.payloadType == RTP_AV_H264) b
        ((List.range g.n).map g.member) := by
  induction gs generalizing s sent with
  | nil =>
    cases h
    simp only [List.not_mem_nil, false_implies, implies_true]
  | cons g gs ih =>
    obtain ⟨⟨s₁, first⟩, hfirst, h⟩ := bind_eq_ok.mp h
    obtain ⟨⟨s₂, rest⟩, hrest, h⟩ := bind_eq_ok.mp h
    cases h
    obtain ⟨htype, hle⟩ := RTPSendSession.sendMaskFec_le_iff hfirst b
    have hle' := ih hrest
    rw [htype] at hle'
    rw [List.forall_mem_append, List.forall_mem_cons, hle, hle']

/-- A packet's FEC packets are no longer than `b` exactly if the packets they protect are, by what a
FEC packet adds, shorter. -/
theorem RTPSendSession.onHandleRtpFec_le_iff {cfg : RTPTransConfig} {get : GetRtp}
    {s s' : RTPSendSession} {pkt : Rtp} {sent : List Sent}
    (h : s.onHandleRtpFec cfg get pkt = .ok (s', sent)) {b : Nat} (hb : fFecHeaderLen ≤ b) :
    (∀ e ∈ sent, e.2 ≤ b) ↔ ∀ e ∈ fecGroups cfg pkt,
      FoundWithin get (s.payloadType == RTP_AV_H264) (b - e.2) e.1 := by
  have hnone : ∀ {e : Sent}, e ∈ ([] : List Sent) → e.2 ≤ b := fun he => absurd he List.not_mem_nil
  have hempty : ∀ e ∈ ([] : List (List Seq × Nat)),
      FoundWithin get (s.payloadType == RTP_AV_H264) (b - e.2) e.1 :=
    fun e he => absurd he List.not_mem_nil
  simp only [fFecHeaderLen] at hb
  unfold RTPSendSession.onHandleRtpFec at h
  unfold fecGroups
  dsimp only at h ⊢
  by_cases hn : maskFecCount cfg pkt = 0
  · rw [if_pos hn] at h ⊢
    cases h
    exact ⟨fun _ => hempty, fun _ _ => hnone⟩
  rw [if_neg hn] at h ⊢
  by_cases hk : 0 < cfg.fecInterleavePackageVal
  · rw [if_pos hk] at h ⊢
    by_cases hseq : 0 < pkt.seq
    · rw [if_pos hseq] at h
      by_cases hzero : cfg.fecInterleavePackageVal * maskFecCount cfg pkt = 0
      · rw [if_pos hzero] at h
        cases h
      rw [if_neg hzero] at h
      by_cases hmod : pkt.seq.setWidth 32 % (cfg.fecInterleavePackageVal * maskFecCount cfg pkt) = 0
      · rw [if_pos hmod] at h
        rw [if_pos ⟨hseq, hmod⟩, List.forall_mem_map]
        have hle := RTPSendSession.sendMaskFecs_le_iff _ h (b - (fecHeaderLen + fecExtendHeaderLen))
        rw [Nat.sub_add_cancel (by simp only [fecHeaderLen, fecExtendHeaderLen]; omega)] at hle
        exact hle
      · rw [if_neg hmod] at h
        rw [if_neg (fun hc => hmod hc.2)]
        cases h
        exact ⟨fun _ => hempty, fun _ _ => hnone⟩
    · rw [if_neg hseq] at h
      rw [if_neg (fun hc => hseq hc.1)]
      cases h
      exact ⟨fun _ => hempty, fun _ _ => hnone⟩
  · rw [if_neg hk] at h ⊢
    unfold RTPSendSession.onHandleRtpFFec at h
    dsimp only at h
    by_cases hcfg : 1 < cfg.fecL ∧ 1 < cfg.fecDL ∧ 0 < cfg.fecD ∧ 0 < pkt.seq
    · rw [if_pos hcfg] at h ⊢
      by_cases hrow : pkt.seq.setWidth 32 % cfg.fecL = 0 ∨ (pkt.seq.setWidth 32 - 1) % cfg.fecD = 0
      · rw [if_pos hrow] at h ⊢
        obtain ⟨sum, hsum, h⟩ := bind_eq_ok.mp h
        cases h
        rw [List.forall_mem_singleton, List.forall_mem_singleton, foundWithin_map,
          ← FFecGroup.sum_le_iff hsum (b - fFecHeaderLen)]
        simp only [fFecHeaderLen]
        omega
      · rw [if_neg hrow] at h ⊢
        cases h
        exact ⟨fun _ => hempty, fun _ _ => hnone⟩
    · rw [if_neg hcfg] at h ⊢
      cases h
      exact ⟨fun _ => hempty, fun _ _ => hnone⟩

/-- The packets protected by the FEC packets that go with `pkt` to a player are no longer than `b`,
less what a FEC packet adds. -/
def RTPSendTrans.FecWithin (get : GetRtp) (t : RTPSendTrans) (pkt : Rtp) (b : Nat) : Prop :=
  let s := t.sessionsMap[pkt.ssrc]?.getD RTPSendSession.new
  t.isAlive = false ∨ pkt.ssrc = 0 ∨ s.closed = true ∨
    ∀ e ∈ fecGroups t.config pkt,
      FoundWithin get ((s.toRTPSession.adopt pkt).payloadType == RTP_AV_H264) (b - e.2) e.1

theorem RTPSendTrans.onHandleRtp_le_iff {get : GetRtp} {now : Nat} {t t' : RTPSendTrans} {pkt : Rtp}
    {len : Nat} {sent : List Sent} (h : t.onHandleRtp get now pkt len = .ok (t', sent)) {b : Nat}
    (hb : fFecHeaderLen ≤ b) : (∀ e ∈ sent, e.2 ≤ b) ↔ t.FecWithin get pkt b := by
  have hnone : ∀ e ∈ ([] : List Sent), e.2 ≤ b := fun e he => absurd he List.not_mem_nil
  unfold RTPSendTrans.onHandleRtp at h
  unfold RTPSendTrans.FecWithin
  dsimp only at h ⊢
  by_cases halive : t.isAlive = false ∨ pkt.ssrc = 0
  · rw [if_pos halive] at h
    cases h
    rcases halive with halive | hssrc
    · exact ⟨fun _ => Or.inl halive, fun _ => hnone⟩
    · exact ⟨fun _ => Or.inr (Or.inl hssrc), fun _ => hnone⟩
  rw [if_neg halive] at h
  obtain ⟨halive, hssrc⟩ := not_or.mp halive
  revert h
  generalize t.sessionsMap[pkt.ssrc]?.getD RTPSendSession.new = s
  intro h
  by_cases hclosed : s.closed = true
  · rw [if_pos hclosed] at h
    cases h
    exact ⟨fun _ => Or.inr (Or.inr (Or.inl hclosed)), fun _ => hnone⟩
  · rw [if_neg hclosed] at h
    obtain ⟨⟨s₁, sent₁⟩, hsession, h⟩ := bind_eq_ok.mp h
    cases h
    obtain ⟨⟨s₂, sent₂⟩, hfec, hsession⟩ := bind_eq_ok.mp hsession
    cases hsession
    rw [or_iff_right halive, or_iff_right hssrc, or_iff_right hclosed]
    exact RTPSendSession.onHandleRtpFec_le_iff hfec hb

/-! ## Recovered packets -/

/-- The xor of the lengths of the packets found in the cache. -/
def xorLengths (get : GetRtp) (video : Bool) (members : List Seq) : BitVec 16 :=
  parity (fun seq => match get video seq with
    | .ok (some _, len) => BitVec.ofNat 16 len
    | _ => 0) members

theorem Recovering.add_length {acc acc' : Recovering} {t : Option Rtp} {tLen : Nat}
    (h : acc.add t tLen = .ok acc') :
    acc'.length = acc.length ^^^ (if t.isSome then BitVec.ofNat 16 tLen else 0) := by
  cases t with
  | none =>
    cases h
    exact BitVec.xor_zero.symm
  | some t =>
    obtain ⟨data, -, h⟩ := bind_eq_ok.mp h
    cases h
    rfl

theorem Recovering.addAll_length {get : GetRtp} {video : Bool} (members : List Seq)
    {acc acc' : Recovering} (h : Recovering.addAll get video acc members = .ok acc') :
    acc'.length = acc.length ^^^ xorLengths get video members := by
  induction members generalizing acc with
  | nil =>
    cases h
    exact BitVec.xor_zero.symm
  | cons seq members ih =>
    rw [Recovering.addAll, List.foldlM_cons] at h
    obtain ⟨acc₁, hfirst, hrest⟩ := bind_eq_ok.mp h
    obtain ⟨⟨t, tLen⟩, hget, hadd⟩ := bind_eq_ok.mp hfirst
    rw [ih hrest, Recovering.add_length hadd, xorLengths, xorLengths, parity_cons, hget,
      BitVec.xor_assoc]
    cases t <;> rfl

/-- The length a FEC packet gives the packet `seq`: its own with the lengths in the cache. -/
def RTPRecvSession.recoveredLength (get : GetRtp) (s : RTPRecvSession) (seq : Seq) (ref : PktRef) :
    BitVec 16 :=
  let video := s.payloadType == RTP_AV_H264
  let data := ((s.clearPktData seq).deref ref).data
  if (s.deref ref).payload = RTP_AV_FEC then
    let fec := FecHeader.read data
    fec.lengthRecovery ^^^ xorLengths get video
      (((List.range 24).filter fec.mask.getLsbD).map fun i => fec.snBase + BitVec.ofNat 16 i)
  else
    let fec := FFecHeader.read data
    fec.lengthRecovery ^^^ xorLengths get video (if fec.msk = 3 then fFecMembers fec else [])

theorem RTPRecvSession.finishRecovery_length {s s' : RTPRecvSession} {seq : Seq} {acc : Recovering}
    {length : Nat} (h : s.finishRecovery seq acc = (s', some length)) :
    length = acc.length.toNat := by
  unfold RTPRecvSession.finishRecovery at h
  split at h
  · cases h
    rfl
  · cases h

theorem RTPRecvSession.recoverOne_length {get : GetRtp} {s s' : RTPRecvSession} {seq : Seq}
    {ref : PktRef} {len length : Nat} (h : s.recoverOne get seq ref len = .ok (s', some length)) :
    length = (s.recoveredLength get seq ref).toNat := by
  unfold RTPRecvSession.recoverOne at h
  unfold RTPRecvSession.recoveredLength
  split at h
  · rename_i hfec
    rw [if_pos hfec]
    obtain ⟨target, -, h⟩ := bind_eq_ok.mp h
    obtain ⟨acc, hacc, h⟩ := bind_eq_ok.mp h
    rw [RTPRecvSession.finishRecovery_length (Except.ok.inj h), Recovering.addAll_length _ hacc]
    rfl
  · rename_i hfec
    rw [if_neg hfec]
    obtain ⟨target, -, h⟩ := bind_eq_ok.mp h
    obtain ⟨acc, hacc, h⟩ := bind_eq_ok.mp h
    rw [RTPRecvSession.finishRecovery_length (Except.ok.inj h), Recovering.addAll_length _ hacc]
    rfl

end RtcMcu.RtpTrans
