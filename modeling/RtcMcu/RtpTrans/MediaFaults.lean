import RtcMcu.RtpTrans.Reentry
import RtcMcu.MediaManager.RtpBlockCache

/-!
# Faults of the media path

Which faults the caches and the sessions of players can run into by themselves: a null or a stray
access, an assertion, a division by zero. None of them touches the table of connections, so that
whatever holds of the table's own faults need not look into these functions again.
-/

namespace RtcMcu.RtpTrans

open RtcMcu.Avformat RtcMcu.Fragment RtcMcu.MediaManager RtcMcu.Coupling

/-- The faults of the caches and of the sessions of players. None of them is a loop without end. -/
structure MediaFaults (E : Fault → Prop) : Prop where
  outOfBounds : E .outOfBounds
  assertFailed : E .assertFailed
  nullDeref : E .nullDeref
  divideByZero : E .divideByZero

variable {E : Fault → Prop}

/-! ## The caches -/

theorem getSeq_ends (hE : MediaFaults E) (b : RTPBlock) : Ends E (fun _ => True) b.getSeq := by
  unfold RTPBlock.getSeq
  cases b.rtpHeader with
  | none => exact hE.nullDeref
  | some p => trivial

theorem frontSeq_ends (hE : MediaFaults E) (c : RTPCircularCache) :
    Ends E (fun _ => True) c.frontSeq := by
  unfold RTPCircularCache.frontSeq
  cases c.circularCache.head? with
  | none => exact hE.outOfBounds
  | some b => exact getSeq_ends hE b

theorem backSeq_ends (hE : MediaFaults E) (c : RTPCircularCache) :
    Ends E (fun _ => True) c.backSeq := by
  unfold RTPCircularCache.backSeq
  cases c.circularCache.getLast? with
  | none => exact hE.outOfBounds
  | some b => exact getSeq_ends hE b

theorem fillIn_ends (hE : MediaFaults E) (c : RTPCircularCache) (rtp : Rtp) (len : Nat) :
    Ends E (fun _ => True) (c.fillIn rtp len) := by
  refine Ends.bind (frontSeq_ends hE c) fun front _ _ => ?_
  dsimp only
  cases c.circularCache[(rtp.seq - front).toNat]? with
  | none => exact hE.assertFailed
  | some block =>
    dsimp only
    split <;> trivial

theorem store_ends (hE : MediaFaults E) (c : RTPCircularCache) (rtp : Rtp) (len : Nat) :
    Ends E (fun _ => True) (c.store rtp len) := by
  unfold RTPCircularCache.store
  split
  · trivial
  · split
    · trivial
    · refine Ends.bind (backSeq_ends hE c) fun back _ _ => ?_
      refine Ends.bind (frontSeq_ends hE c) fun front _ _ => ?_
      dsimp only
      split
      · trivial
      · split
        · trivial
        · split
          · exact fillIn_ends hE c rtp len
          · exact hE.assertFailed

theorem circularSetRtp_ends (hE : MediaFaults E) (c : RTPCircularCache) (rtp : Rtp) (len : Nat)
    (status : StatusCode) : Ends E (fun _ => True) (c.setRtp rtp len status) := by
  unfold RTPCircularCache.setRtp
  split
  · trivial
  · split
    · trivial
    · dsimp only
      generalize (if c.ssrc = 0 then { c with ssrc := rtp.ssrc } else c) = c
      split
      · trivial
      · exact Ends.bind (store_ends hE c rtp len) fun c' _ _ => trivial

theorem mediaSetRtp_ends (hE : MediaFaults E) (c : RTPMediaCache) (now : Nat) (rtp : Rtp)
    (len : Nat) : Ends E (fun _ => True) (c.setRtp now rtp len) := by
  unfold RTPMediaCache.setRtp
  split
  · trivial
  · split
    · exact Ends.bind (circularSetRtp_ends hE _ rtp len _) fun r _ _ => trivial
    · split
      · exact Ends.bind (circularSetRtp_ends hE _ rtp len _) fun r _ _ => trivial
      · trivial

theorem managerSetRtp_ends (hE : MediaFaults E) (m : RtpCacheManager) (now : Nat) (id : StreamId)
    (rtp : Rtp) (len : Nat) : Ends E (fun _ => True) (m.setRtp now id rtp len) := by
  unfold RtpCacheManager.setRtp
  cases m.caches (get32bitStreamId id) with
  | none => trivial
  | some c => exact Ends.bind (mediaSetRtp_ends hE c now rtp len) fun r _ _ => trivial

theorem getBySeq_ends (hE : MediaFaults E) (c : RTPCircularCache) (seq : Seq) :
    Ends E (fun _ => True) (c.getBySeq seq) := by
  unfold RTPCircularCache.getBySeq
  split
  · trivial
  · refine Ends.bind (backSeq_ends hE c) fun back _ _ => ?_
    refine Ends.bind (frontSeq_ends hE c) fun front _ _ => ?_
    split
    · trivial
    · split
      · trivial
      · cases c.circularCache[(seq - front).toNat]? with
        | none => exact hE.outOfBounds
        | some block =>
          dsimp only
          split
          · refine Ends.bind (getSeq_ends hE block) fun s _ _ => ?_
            split
            · trivial
            · exact hE.assertFailed
          · trivial

theorem managerGetRtpBySeq_ends (hE : MediaFaults E) (m : RtpCacheManager) (id : StreamId)
    (video : Bool) (seq : Seq) : Ends E (fun _ => True) (m.getRtpBySeq id video seq) := by
  unfold RtpCacheManager.getRtpBySeq
  cases m.caches (get32bitStreamId id) with
  | none => trivial
  | some c =>
    dsimp only
    unfold RTPMediaCache.getRtpBySeq
    split
    · exact Ends.bind (getBySeq_ends hE _ seq) fun r _ _ => trivial
    · trivial

theorem managerGetSdp_ends (hE : MediaFaults E) (info : SdpInfo) (m : RtpCacheManager)
    (id : StreamId) : Ends E (fun _ => True) (m.getSdp info id) := by
  unfold RtpCacheManager.getSdp
  cases m.caches (get32bitStreamId id) with
  | none => trivial
  | some c =>
    cases hsdp : c.sdp with
    | none =>
      simp only [hsdp]
      exact hE.assertFailed
    | some sdp =>
      simp only [hsdp]
      trivial

/-! ## The sessions of a player -/

section Sender

variable {get : GetRtp} (hget : ∀ video seq, Ends E (fun _ => True) (get video seq))

theorem FecSum.add_ends (hE : MediaFaults E) (ssrc : BitVec 32) (acc : FecSum) (t : Rtp)
    (tLen : Nat) : Ends E (fun _ => True) (acc.add ssrc t tLen) := by
  refine Ends.bind (payloadBytes_ends hE.outOfBounds t tLen) fun data _ _ => ?_
  cases acc.isFirst <;> trivial

include hget in
theorem FFecGroup.sum_ends (hE : MediaFaults E) (g : FFecGroup) (video : Bool) (ssrc : BitVec 32) :
    Ends E (fun _ => True) (g.sum get video ssrc) := by
  refine Ends.foldlM _ (fun acc i _ _ => ?_) trivial
  refine Ends.bind (hget video (g.member i)) fun r _ _ => ?_
  obtain ⟨t, tLen⟩ := r
  cases t with
  | none => trivial
  | some t => exact acc.add_ends hE ssrc t tLen

include hget in
theorem MaskGroup.sum_ends (hE : MediaFaults E) (g : MaskGroup) (video : Bool) (ssrc : BitVec 32) :
    Ends E (fun _ => True) (g.sum get video ssrc) := by
  refine Ends.foldlM _ (fun acc i _ _ => ?_) trivial
  refine Ends.bind (hget video (g.member i)) fun r _ _ => ?_
  obtain ⟨t, tLen⟩ := r
  cases t with
  | none => trivial
  | some t => exact Ends.bind (acc.sum.add_ends hE ssrc t tLen) fun sum _ _ => trivial

include hget in
theorem RTPSendSession.sendMaskFecs_ends (hE : MediaFaults E) (s : RTPSendSession)
    (gs : List MaskGroup) : Ends E (fun _ => True) (s.sendMaskFecs get gs) := by
  induction gs generalizing s with
  | nil => trivial
  | cons g gs ih =>
    have hone : Ends E (fun _ => True) (s.sendMaskFec get g) := by
      refine Ends.bind (g.sum_ends hget hE _ _) fun acc _ _ => ?_
      cases acc.sum.isFirst <;> trivial
    refine Ends.bind hone fun r _ _ => ?_
    exact Ends.bind (ih r.1) fun r' _ _ => trivial

include hget in
theorem RTPSendSession.onHandleRtpFec_ends (hE : MediaFaults E) (cfg : RTPTransConfig)
    (s : RTPSendSession) (pkt : Rtp) :
    Ends E (fun _ => True) (s.onHandleRtpFec cfg get pkt) := by
  have hffec : Ends E (fun _ => True) (s.onHandleRtpFFec cfg get pkt) := by
    unfold RTPSendSession.onHandleRtpFFec
    split
    · dsimp only
      split
      · exact Ends.bind (FFecGroup.sum_ends hget hE _ _ _) fun sum _ _ => trivial
      · trivial
    · trivial
  unfold RTPSendSession.onHandleRtpFec
  dsimp only
  split
  · trivial
  · split
    · split
      · split
        · exact hE.divideByZero
        · split
          · exact s.sendMaskFecs_ends hget hE _
          · trivial
      · trivial
    · exact hffec

include hget in
theorem RTPSendTrans.onHandleRtp_ends (hE : MediaFaults E) (now : Nat) (t : RTPSendTrans)
    (pkt : Rtp) (len : Nat) :
    Ends E (fun _ => True) (RTPSendTrans.onHandleRtp get now t pkt len) := by
  unfold RTPSendTrans.onHandleRtp
  split
  · trivial
  · dsimp only
    split
    · trivial
    · refine Ends.bind (P := fun _ => True) ?_ fun r _ _ => trivial
      exact Ends.bind (RTPSendSession.onHandleRtpFec_ends hget hE _ _ pkt) fun r _ _ => trivial

include hget in
theorem RTPSendSession.onNackList_ends (t : RTPSendTrans) (now : Nat)
    (rttMs : BitVec 32) (s : RTPSendSession) (nacks : List Seq) :
    Ends E (fun _ => True) (RTPSendSession.onNackList t get now rttMs s nacks) := by
  induction nacks generalizing s with
  | nil => trivial
  | cons seq rest ih =>
    rw [RTPSendSession.onNackList]
    split
    · exact ih s
    · refine Ends.bind (hget _ seq) fun r _ _ => ?_
      obtain ⟨packet, packetLen⟩ := r
      cases packet with
      | none => exact ih s
      | some packet =>
        dsimp only
        split
        · exact ih s
        · split
          · exact Ends.bind (ih _) fun r _ _ => trivial
          · exact ih _

include hget in
theorem RTPSendTrans.onHandleRtcp_ends (rttMs : BitVec 32) (t : RTPSendTrans)
    (info : RTCPPacketInformation) (now : Nat) :
    Ends E (fun _ => True) (RTPSendTrans.onHandleRtcp get rttMs t info now) := by
  unfold RTPSendTrans.onHandleRtcp
  split
  · trivial
  · dsimp only
    split
    · trivial
    · refine Ends.bind (P := fun _ => True) ?_ fun r _ _ => trivial
      unfold RTPSendSession.onHandleRtcp
      dsimp only
      split
      · exact Ends.bind (RTPSendSession.onNackList_ends hget t now rttMs _ _) fun r _ _ => trivial
      · trivial

end Sender

end RtcMcu.RtpTrans
