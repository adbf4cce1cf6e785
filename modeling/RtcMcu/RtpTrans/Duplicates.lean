import RtcMcu.RtpTrans.NackOrder

/-!
# Duplicates

`_on_handle_rtp_nack` drops a packet whose number is in `_his_nacks`, so a duplicate changes nothing
as long as its number has not been aged out. `isHisNacklistTooOld` subtracts without a wrap: the
first packet past the wrap ages out every number before it, however close, and a duplicate of one of
these counts as a new packet. With no packet from past the wrap in between, a duplicate that is at
most `max_packet_age` numbers old is invisible (`duplicate_invisible`).
-/

namespace RtcMcu.RtpTrans

open RtcMcu.Avformat RtcMcu.Serial

/-! ## What the claim is about -/

/-- The statistics of two sessions agree. -/
structure SameStatistics (s s' : TimedSession) : Prop where
  nacks : s'.nacks = s.nacks
  lastseq : s'.lastseq = s.lastseq
  extendMaxSeq : s'.extendMaxSeq = s.extendMaxSeq
  totalRtpPacketcount : s'.totalRtpPacketcount = s.totalRtpPacketcount
  retransNackRecoverCount : s'.retransNackRecoverCount = s.retransNackRecoverCount
  fracRtpSendbytes : s'.fracRtpSendbytes = s.fracRtpSendbytes
  totalRtpSendbytes : s'.totalRtpSendbytes = s.totalRtpSendbytes

/-- The timestamp of a packet jumps. -/
def SessionOp.jumps (s : TimedSession) : SessionOp → Bool
  | .media audio video _ pkt _ =>
    timestampJump (mediaTimeBase audio video pkt) pkt.timestamp s.lastRtpTimestamp
  | _ => false

/-- The number lies at most `max_packet_age` behind the latest one, and no timestamp jumps. -/
structure Recent (cfg : TimerConfig) (seq : Seq) (s : TimedSession) (op : SessionOp) : Prop where
  age : ahead seq s.lastseq ≤ cfg.maxPacketAge.toNat
  steady : op.jumps s = false

/-- A packet that is newer has no smaller number: it does not come from past the wrap. -/
def SessionOp.SameTurn (seq : Seq) : SessionOp → Prop
  | .media _ _ _ pkt _ => newer pkt.seq seq = true → seq ≤ pkt.seq
  | _ => True

/-! ## A number that stays in `_his_nacks` -/

section Stays

variable {cfg : TimerConfig} {s : RTPRecvSession} {env : RecvEnv} {pkt : Rtp} {seq : Seq}

theorem started_hisNacks (env : RecvEnv)
    (h : timestampJump (mediaTimeBase env.audioTimeBase env.videoTimeBase pkt) pkt.timestamp
      s.lastRtpTimestamp = false) : (s.started env pkt).hisNacks = s.hisNacks := by
  rw [RTPRecvSession.started, startNack_go h]

/-- What follows a number that is not dropped is not dropped either. -/
theorem mem_dropWhile_of_after {p : Seq → Bool} {front rest : List Seq} {first : Seq}
    (hfirst : p first = false) (h : seq ∈ rest) : seq ∈ (front ++ first :: rest).dropWhile p := by
  induction front with
  | nil =>
    rw [List.nil_append, List.dropWhile_cons, hfirst]
    exact List.mem_cons_of_mem first h
  | cons k front ih =>
    rw [List.cons_append, List.dropWhile_cons]
    split
    · exact ih
    · exact List.mem_cons_of_mem k (List.mem_append_right front (List.mem_cons_of_mem first h))

/-- A number that is late, or not past the wrap and not too far ahead, ages out none that is newer
or close. -/
theorem mem_evictHisNacks_of_close {cfg : RTPTransConfig} {his : List Seq} {x : Seq}
    (hage : cfg.maxPacketAge.toNat < 2 ^ 31) (hin : seq ∈ his)
    (hclose : newer x seq = true → seq ≤ x ∧ ahead seq x ≤ cfg.maxPacketAge.toNat) :
    seq ∈ evictHisNacks cfg x (insertHisNack his x) := by
  by_cases hnewer : newer x seq = true
  · obtain ⟨hle, hahead⟩ := hclose hnewer
    refine mem_dropWhile_of_not (mem_insertHisNack.mpr (.inr hin)) (Bool.eq_false_iff.mpr ?_)
    rw [Ne, tooOld_iff hage]
    have hle' : seq.toNat ≤ x.toNat := hle
    have hcases := ahead_cases seq x
    rw [if_pos hle'] at hcases
    omega
  · refine mem_dropWhile_of_after (tooOld_self cfg x) (mem_dropWhile_of_not hin ?_)
    rw [seqLess_eq]
    exact Bool.eq_false_iff.mpr hnewer

/-- A packet after which the latest number is still close keeps the number in `_his_nacks`. -/
theorem mem_hisNacks_media (env : RecvEnv) (henv : env.cfg = cfg.toRTPTransConfig) (len : Nat)
    (hage : cfg.maxPacketAge.toNat < 2 ^ 15) (hin : seq ∈ s.hisNacks)
    (hsteady : timestampJump (mediaTimeBase env.audioTimeBase env.videoTimeBase pkt) pkt.timestamp
      s.lastRtpTimestamp = false)
    (hturn : newer pkt.seq seq = true → seq ≤ pkt.seq)
    (hafter : ahead seq (s.onHandleRtpNack env pkt len).lastseq ≤ cfg.maxPacketAge.toNat) :
    seq ∈ (s.onHandleRtpNack env pkt len).hisNacks := by
  have hhis := started_hisNacks env hsteady
  by_cases hdup : pkt.seq ∈ (s.started env pkt).hisNacks
  · rw [onHandleRtpNack_duplicate hdup, hhis]
    exact hin
  · obtain ⟨hhis', -, hlast⟩ := onHandleRtpNack_nacks len hdup
    rw [hlast] at hafter
    rw [hhis', henv, hhis]
    refine mem_evictHisNacks_of_close (by omega) hin fun hnewer => ⟨hturn hnewer, ?_⟩
    -- the packet becomes the latest one, or lies between the number and the latest one
    rw [RTPRecvSession.lastseqWith, isNewerSeq_eq] at hafter
    split at hafter
    · exact hafter
    · next hnot =>
      have hclose := (newer_iff.mp hnewer).2
      have hlate : ahead pkt.seq (s.started env pkt).lastseq ≤ 2 ^ 15 := by
        by_cases heq : pkt.seq = (s.started env pkt).lastseq
        · rw [heq, ahead_self]
          exact Nat.zero_le _
        · have hfar : ¬ ahead (s.started env pkt).lastseq pkt.seq < 2 ^ 15 := fun hlt =>
            hnot (newer_iff.mpr ⟨heq, hlt⟩)
          have hcomm := ahead_comm (Ne.symm heq)
          omega
      rw [ahead_trans (a := seq) (b := pkt.seq) (by omega)] at hafter
      omega

end Stays

/-! ## Runs -/

section Runs

variable {cfg : TimerConfig} {front back : Nat} {s : TimedSession} {seq : Seq}

theorem mem_hisNacks_step (hage : cfg.maxPacketAge.toNat < 2 ^ 15) {op : SessionOp}
    (hin : seq ∈ s.hisNacks) (hsteady : op.jumps s = false) (hturn : op.SameTurn seq)
    (hafter : ahead seq (s.step cfg op).lastseq ≤ cfg.maxPacketAge.toNat) :
    seq ∈ (s.step cfg op).hisNacks := by
  cases op with
  | media audio video now pkt len =>
    exact mem_hisNacks_media
      { cfg := cfg.toRTPTransConfig, audioTimeBase := audio, videoTimeBase := video, now := now }
      rfl len hage hin hsteady hturn hafter
  | arrive x =>
    show seq ∈ (s.toRTPRecvSession.clearAtWrap x).hisNacks
    rw [(clearAtWrap_same s.toRTPRecvSession x).hisNacks]
    exact hin
  | wrap x =>
    show seq ∈ (s.toRTPRecvSession.clearAtWrap x).hisNacks
    rw [(clearAtWrap_same s.toRTPRecvSession x).hisNacks]
    exact hin
  | mark x => exact hin
  | recovered x => exact hin
  | timer now skip =>
    have hhis : (s.step cfg (.timer now skip)).hisNacks = s.hisNacks :=
      (processNacks_nacks cfg now skip s).2.1
    rw [hhis]
    exact hin
  | other r => exact hin

/-- A number stays in `_his_nacks` while it is recent and no packet comes from past the wrap. -/
theorem mem_hisNacks_run (hage : cfg.maxPacketAge.toNat < 2 ^ 15) {mid : List SessionOp}
    {last : SessionOp} (hin : seq ∈ s.hisNacks)
    (hrecent : Each (TimedSession.step cfg) (Recent cfg seq) s (mid ++ [last]))
    (hturn : ∀ op ∈ mid, op.SameTurn seq) : seq ∈ (s.run cfg mid).hisNacks := by
  induction mid generalizing s with
  | nil => exact hin
  | cons op mid ih =>
    have hafter : ahead seq (s.step cfg op).lastseq ≤ cfg.maxPacketAge.toNat := by
      have hrest := hrecent.2
      cases mid with
      | nil => exact hrest.1.age
      | cons next mid => exact hrest.1.age
    exact ih (mem_hisNacks_step hage hin hrecent.1.steady (hturn op List.mem_cons_self) hafter)
      hrecent.2 fun op' hop' => hturn op' (List.mem_cons_of_mem op hop')

/-- A packet whose number is in `_his_nacks` changes no statistics, unless `_lastseq` is 0 and the
number is not. -/
theorem sameStatistics_of_mem (cfg : TimerConfig) (audio video : BitVec 32) (now : Nat) (pkt : Rtp) (len : Nat)
    (hin : pkt.seq ∈ s.hisNacks)
    (hsteady : (SessionOp.media audio video now pkt len).jumps s = false)
    (hzero : s.lastseq = 0 → pkt.seq = 0) :
    SameStatistics s (s.step cfg (.media audio video now pkt len)) := by
  have hgo : s.toRTPRecvSession.started
      { cfg := cfg.toRTPTransConfig, audioTimeBase := audio, videoTimeBase := video, now := now }
      pkt = { s.toRTPRecvSession with lastRtpTimestamp := pkt.timestamp } := by
    have hsame : (if s.lastseq = 0 then pkt.seq else s.lastseq) = s.lastseq := by
      split
      · next hlast => rw [hzero hlast, hlast]
      · rfl
    refine (startNack_go hsteady).trans ?_
    rw [hsame]
  have hstep : s.step cfg (.media audio video now pkt len) =
      { s with lastRtpTimestamp := pkt.timestamp } := by
    rw [TimedSession.step, onHandleRtpNack_duplicate (by rw [hgo]; exact hin), hgo]
  rw [hstep]
  exact ⟨rfl, rfl, rfl, rfl, rfl, rfl, rfl⟩

/-- The packet is in `_his_nacks` once it was handled. -/
theorem mem_hisNacks_self (s : TimedSession) (audio video : BitVec 32) (now : Nat) (pkt : Rtp)
    (len : Nat) : pkt.seq ∈ (s.step cfg (.media audio video now pkt len)).hisNacks := by
  show pkt.seq ∈ (s.toRTPRecvSession.onHandleRtpNack
    { cfg := cfg.toRTPTransConfig, audioTimeBase := audio, videoTimeBase := video, now := now }
    pkt len).hisNacks
  by_cases hdup : pkt.seq ∈ (s.toRTPRecvSession.started
      { cfg := cfg.toRTPTransConfig, audioTimeBase := audio, videoTimeBase := video, now := now }
      pkt).hisNacks
  · rw [onHandleRtpNack_duplicate hdup]
    exact hdup
  · rw [(onHandleRtpNack_nacks len hdup).1]
    exact mem_evictHisNacks _ _ _

/-- In every run of near packets, a packet whose number was handled at most `max_packet_age` numbers
ago changes no statistics, if no packet from past the wrap was handled since. -/
theorem duplicate_invisible (cfg : TimerConfig) (front back : Nat) (hturn : back + front < 2 ^ 15)
    (hage : cfg.maxPacketAge.toNat ≤ back) (before since : List SessionOp)
    (audio video audio' video' : BitVec 32) (now now' : Nat) (pkt pkt' : Rtp) (len len' : Nat)
    (hseq : pkt'.seq = pkt.seq)
    (hnear : Each (TimedSession.step cfg) (fun s op => op.Near front back s) TimedSession.new
      (before ++ .media audio video now pkt len :: since ++
        [.media audio' video' now' pkt' len']))
    (hrecent : Each (TimedSession.step cfg) (Recent cfg pkt.seq)
      (TimedSession.new.run cfg (before ++ [.media audio video now pkt len]))
      (since ++ [.media audio' video' now' pkt' len']))
    (hsince : ∀ op ∈ since, op.SameTurn pkt.seq) :
    SameStatistics
      (TimedSession.new.run cfg (before ++ .media audio video now pkt len :: since))
      (TimedSession.new.run cfg (before ++ .media audio video now pkt len :: since ++
        [.media audio' video' now' pkt' len'])) := by
  have hsplit : TimedSession.new.run cfg (before ++ .media audio video now pkt len :: since) =
      (TimedSession.new.run cfg (before ++ [.media audio video now pkt len])).run cfg since := by
    rw [← TimedSession.run_append, List.append_assoc, List.singleton_append]
  have hin : pkt.seq ∈ (TimedSession.new.run cfg
      (before ++ .media audio video now pkt len :: since)).hisNacks := by
    rw [hsplit]
    refine mem_hisNacks_run (by omega) ?_ hrecent hsince
    rw [TimedSession.run_append]
    exact mem_hisNacks_self _ audio video now pkt len
  have hlast : (SessionOp.media audio' video' now' pkt' len').Near front back
      (TimedSession.new.run cfg (before ++ .media audio video now pkt len :: since)) :=
    (Each.append_iff.mp hnear).2.1
  have hdup : Recent cfg pkt.seq
      (TimedSession.new.run cfg (before ++ .media audio video now pkt len :: since))
      (.media audio' video' now' pkt' len') := hsplit ▸ (Each.append_iff.mp hrecent).2.1
  have hstep := sameStatistics_of_mem cfg audio' video' now' pkt' len' (hseq ▸ hin)
    hdup.steady fun hzero => ?_
  · rw [TimedSession.run_append cfg _ (before ++ _)]
    exact hstep
  · rcases hlast with hnil | hjump | hfront
    · rw [hnil] at hin
      cases hin
    · have hsteady : timestampJump (mediaTimeBase audio' video' pkt') pkt'.timestamp _ = false :=
        hdup.steady
      rw [hsteady] at hjump
      cases hjump
    · have hahead := hfront.2 hzero
      have hbehind := hdup.age
      rw [hzero, ← hseq] at hbehind
      by_contra hne
      have hcomm := ahead_comm (Ne.symm hne)
      omega

/-- A gap and the packet before it again. -/
theorem duplicate_invisible_after_gap :
    SameStatistics
      (TimedSession.new.run TimerConfig.default
        ([] ++ SessionOp.videoAt 10 :: [SessionOp.videoAt 13]))
      (TimedSession.new.run TimerConfig.default
        ([] ++ SessionOp.videoAt 10 :: [SessionOp.videoAt 13] ++ [SessionOp.videoAt 10])) :=
  duplicate_invisible TimerConfig.default 1000 450 (by decide) (by decide) [] [SessionOp.videoAt 13]
    0 90000 0 90000 0 0 _ _ 100 100 rfl
    ⟨.inl rfl, .inr (.inr ⟨.inl (by decide), by decide⟩),
      .inr (.inr ⟨.inr (by decide), by decide⟩), trivial⟩
    ⟨⟨by decide, by decide⟩, ⟨by decide, by decide⟩, trivial⟩
    fun op hop => by
      cases List.mem_singleton.mp hop
      exact fun _ => by decide

/-- The packets 65535, 0 and 1, and 65535 again: it is two numbers old, and it counts once more. -/
theorem duplicate_visible_past_wrap :
    Each (TimedSession.step TimerConfig.default) (Recent TimerConfig.default 65535)
        (TimedSession.new.run TimerConfig.default [SessionOp.videoAt 65535])
        [SessionOp.videoAt 0, SessionOp.videoAt 1, SessionOp.videoAt 65535] ∧
      ¬ SameStatistics
        (TimedSession.new.run TimerConfig.default
          [SessionOp.videoAt 65535, SessionOp.videoAt 0, SessionOp.videoAt 1])
        (TimedSession.new.run TimerConfig.default
          [SessionOp.videoAt 65535, SessionOp.videoAt 0, SessionOp.videoAt 1,
            SessionOp.videoAt 65535]) := by
  refine ⟨⟨⟨by decide, by decide⟩, ⟨by decide, by decide⟩, ⟨by decide, by decide⟩, trivial⟩,
    fun h => ?_⟩
  exact absurd h.totalRtpPacketcount (by decide)

end Runs

end RtcMcu.RtpTrans
