import RtcMcu.Lib.HalfTurn
import RtcMcu.RtpTrans.NackTimer
import RtcMcu.RtpTrans.PacketAge

/-!
# The NACK sets

`_nacks` and `_his_nacks` are a `std::map` and a `std::set` under `SequenceNumberLessThan`, ordered
lists here. Their keys follow the laws of `Lib.HalfTurn`, and one media packet changes them in three
parts: the head, which may clear them (`startNack_go`, `startNack_jump`), the insertion into
`_his_nacks`, and what is left of `_nacks` and `_lastseq` (`accountRtp_nacks`).
-/

namespace RtcMcu.RtpTrans

open RtcMcu.Avformat RtcMcu.Serial

/-! ## The sets as ordered lists -/

/-- The keys of the map. -/
def NackMap.keys (m : NackMap) : List Seq := m.map (·.1)

theorem isNewerSeq_eq (seq preseq : Seq) : isNewerSeq seq preseq = newer seq preseq := by
  rw [isNewerSeq, newer]
  exact congrArg (seq != preseq && ·) (decide_eq_decide.mpr BitVec.lt_def)

theorem seqLess_eq (a b : Seq) : seqLess a b = newer b a := isNewerSeq_eq b a

theorem insertHisNack_eq (his : List Seq) (seq : Seq) :
    insertHisNack his seq = insertKey his seq := by
  have hless : (fun k => seqLess k seq) = fun k => newer seq k := funext fun k => seqLess_eq k seq
  show his.takeWhile (fun k => seqLess k seq) ++ seq :: his.dropWhile (fun k => seqLess k seq) = _
  rw [hless, insertKey]

theorem mem_keys {m : NackMap} {seq : Seq} : seq ∈ m.keys ↔ m.any (·.1 == seq) = true := by
  rw [NackMap.keys, List.mem_map, List.any_eq_true]
  exact exists_congr fun e => and_congr_right fun _ => beq_iff_eq.symm

/-- Insertion into the map is insertion of the key, unless it is there. -/
theorem keys_insert (m : NackMap) (seq : Seq) :
    (m.insert seq).keys = if seq ∈ m.keys then m.keys else insertKey m.keys seq := by
  rw [NackMap.insert]
  by_cases hin : seq ∈ m.keys
  · rw [if_pos (mem_keys.mp hin), if_pos hin]
  · have hless : (fun e : Seq × NackRetransInfo => seqLess e.1 seq) =
        (fun k => newer seq k) ∘ (·.1) := funext fun e => seqLess_eq e.1 seq
    rw [if_neg fun h => hin (mem_keys.mpr h), if_neg hin, NackMap.keys, NackMap.keys, hless,
      List.map_append, List.map_cons, insertKey, List.takeWhile_map, List.dropWhile_map]

theorem mem_keys_insert {m : NackMap} {seq k : Seq} :
    k ∈ (m.insert seq).keys ↔ k = seq ∨ k ∈ m.keys := by
  rw [keys_insert]
  split
  · next hin => exact ⟨.inr, fun h => h.elim (fun heq => heq ▸ hin) id⟩
  · exact mem_insertKey

theorem keys_erase (m : NackMap) (seq : Seq) : (m.erase seq).keys = m.keys.filter (· != seq) := by
  rw [NackMap.erase, NackMap.keys, NackMap.keys, List.filter_map]
  rfl

theorem keys_drop (m : NackMap) (n : Nat) : NackMap.keys (m.drop n) = m.keys.drop n :=
  List.map_drop

/-- What the two loops at the end of `_on_handle_rtp_nack` leave. -/
theorem keys_evictNacks (cfg : RTPTransConfig) (lastseq : Seq) (m : NackMap) :
    ∃ n, (evictNacks cfg lastseq m).keys = (m.keys.drop n).dropWhile (tooOld cfg lastseq) := by
  have hmap : ∀ l : NackMap, NackMap.keys (l.dropWhile fun e => tooOld cfg lastseq e.1) =
      l.keys.dropWhile (tooOld cfg lastseq) := by
    intro l
    rw [NackMap.keys, NackMap.keys, List.dropWhile_map]
    rfl
  rw [evictNacks]
  by_cases hzero : cfg.maxNacklstSize = 0
  · refine ⟨0, ?_⟩
    rw [if_pos hzero]
    exact hmap m
  · refine ⟨m.length - cfg.maxNacklstSize.toNat, ?_⟩
    rw [if_neg hzero, ← keys_drop]
    exact hmap _

/-- What is not too old for an ordered set lies within `max_packet_age`. -/
theorem behind_dropWhile_tooOld {cfg : RTPTransConfig} {d : Nat} {latest : Seq} {keys : List Seq}
    (hon : cfg.maxPacketAge ≠ 0) (hage : cfg.maxPacketAge.toNat < 2 ^ 31) (hord : Ordered keys)
    (hb : Behind d latest keys) (hd : d < 2 ^ 15) :
    Behind cfg.maxPacketAge.toNat latest (keys.dropWhile (tooOld cfg latest)) := by
  have hmem : ∀ k ∈ keys.dropWhile (tooOld cfg latest), k ∈ keys := fun k hk =>
    (List.dropWhile_sublist _).mem hk
  cases hdrop : keys.dropWhile (tooOld cfg latest) with
  | nil => exact fun k hk => absurd hk List.not_mem_nil
  | cons first rest =>
    have hfirst : ahead first latest ≤ cfg.maxPacketAge.toNat := by
      have hhead := List.head?_dropWhile_not (tooOld cfg latest) keys
      rw [hdrop] at hhead
      have hnot : ¬ tooOld cfg latest first = true := Bool.eq_false_iff.mp hhead
      rw [tooOld_iff hage, not_and] at hnot
      have hyoung := hnot hon
      have hcases := ahead_cases first latest
      split at hcases <;> omega
    have hord' : Ordered (first :: rest) := hdrop ▸ hord.sublist (List.dropWhile_sublist _)
    intro k hk
    rcases hord'.head_le hk with rfl | hnewer
    · exact hfirst
    · have hlt := hb.lt_of_newer hd (hmem first (hdrop ▸ List.mem_cons_self)) hnewer
        (hmem k (hdrop ▸ hk))
      omega

section Within

variable {cfg : RTPTransConfig} {d : Nat} {latest seq : Seq} {keys : List Seq} {m : NackMap}

theorem insert_within (h : OrderedWithin d latest m.keys) (hd : d < 2 ^ 15)
    (hseq : ahead seq latest ≤ d) : OrderedWithin d latest (m.insert seq).keys := by
  rw [keys_insert]
  split
  · exact h
  · next hnew => exact h.insertKey hd (by decide) hseq hnew

theorem erase_within (h : OrderedWithin d latest m.keys) (seq : Seq) :
    OrderedWithin d latest (m.erase seq).keys := by
  rw [keys_erase]
  exact h.sublist List.filter_sublist

/-- Ageing leaves what lies within `max_packet_age`. -/
theorem dropWhile_within (h : OrderedWithin d latest keys) (hd : d < 2 ^ 15)
    (hon : cfg.maxPacketAge ≠ 0) (hage : cfg.maxPacketAge.toNat < 2 ^ 31) :
    OrderedWithin cfg.maxPacketAge.toNat latest (keys.dropWhile (tooOld cfg latest)) :=
  ⟨h.ordered.sublist (List.dropWhile_sublist _),
    behind_dropWhile_tooOld hon hage h.ordered h.behind hd⟩

theorem evictNacks_within (h : OrderedWithin d latest m.keys) (hd : d < 2 ^ 15)
    (hon : cfg.maxPacketAge ≠ 0) (hage : cfg.maxPacketAge.toNat < 2 ^ 31) :
    OrderedWithin cfg.maxPacketAge.toNat latest (evictNacks cfg latest m).keys := by
  obtain ⟨n, hkeys⟩ := keys_evictNacks cfg latest m
  rw [hkeys]
  exact dropWhile_within (h.sublist (List.drop_sublist n _)) hd hon hage

end Within

/-- Collecting the numbers that are due changes no key. -/
theorem keys_collect (cfg : TimerConfig) (now : Nat) (skip : Seq → Bool) (m : NackMap) :
    (NackMap.collect cfg now skip m).1.keys = m.keys := by
  induction m with
  | nil => rfl
  | cons e rest ih =>
    obtain ⟨seq, info⟩ := e
    simp only [NackMap.collect]
    split <;> exact congrArg (seq :: ·) ih

/-- The timer takes entries from the front of `_nacks` and leaves the other set alone. -/
theorem processNacks_nacks (cfg : TimerConfig) (now : Nat) (skip : Seq → Bool) (s : TimedSession) :
    (∃ n, (s.processNacks cfg now skip).1.nacks.keys = s.nacks.keys.drop n) ∧
      (s.processNacks cfg now skip).1.hisNacks = s.hisNacks ∧
      (s.processNacks cfg now skip).1.lastseq = s.lastseq ∧
      (s.processNacks cfg now skip).1.extendMaxSeq = s.extendMaxSeq := by
  unfold TimedSession.processNacks
  split
  · split
    · exact ⟨⟨0, rfl⟩, rfl, rfl, rfl⟩
    · dsimp only
      refine ⟨?_, rfl, ?_⟩
      · rw [keys_collect, RTPSession.trimNacks]
        split
        · exact ⟨_, keys_drop _ _⟩
        · exact ⟨0, rfl⟩
      · rw [RTPSession.trimNacks]
        split <;> exact ⟨rfl, rfl⟩
  · exact ⟨⟨0, rfl⟩, rfl, rfl, rfl⟩

/-- A number is not too old for itself. -/
theorem tooOld_self (cfg : RTPTransConfig) (seq : Seq) : tooOld cfg seq seq = false := by
  have hnot : ¬ cfg.maxPacketAge < 0#32 := fun h => Nat.not_lt_zero _ (BitVec.lt_def.mp h)
  rw [tooOld, BitVec.sub_self, decide_eq_false hnot, Bool.and_false]

theorem mem_insertHisNack {his : List Seq} {seq k : Seq} :
    k ∈ insertHisNack his seq ↔ k = seq ∨ k ∈ his := by
  rw [insertHisNack_eq]
  exact mem_insertKey

theorem mem_evictHisNacks (cfg : RTPTransConfig) (his : List Seq) (seq : Seq) :
    seq ∈ evictHisNacks cfg seq (insertHisNack his seq) :=
  mem_dropWhile_of_not (mem_insertHisNack.mpr (.inl rfl)) (tooOld_self cfg seq)

/-! ## What a media packet leaves -/

/-- The numbers of the gap that go on the list. -/
def RTPRecvSession.missedBefore (s : RTPRecvSession) (seq : Seq) : List Seq :=
  (gapNumbers s.lastseq seq).filter fun i => !s.pktHistory i

/-- `_nacks` once the packet is accounted for, before anything is erased from its front. -/
def RTPRecvSession.nacksWith (cfg : RTPTransConfig) (s : RTPRecvSession) (seq : Seq) : NackMap :=
  if cfg.maxNacklstSize = 0 then s.nacks
  else if isNewerSeq seq s.lastseq then s.nackGap seq
  else s.nacks.erase seq

/-- `_lastseq` once the packet is accounted for. -/
def RTPRecvSession.lastseqWith (s : RTPRecvSession) (seq : Seq) : Seq :=
  if isNewerSeq seq s.lastseq then seq else s.lastseq

/-- The clock rate `_on_handle_rtp_nack` takes. -/
def mediaTimeBase (audioTimeBase videoTimeBase : BitVec 32) (pkt : Rtp) : BitVec 32 :=
  if pkt.payload = RTP_AV_AAC then audioTimeBase else videoTimeBase

/-- A number less than half a turn ahead becomes the latest one. -/
theorem lastseqWith_of_front {s : RTPRecvSession} {seq : Seq} (h : ahead s.lastseq seq < 2 ^ 15) :
    s.lastseqWith seq = seq := by
  unfold RTPRecvSession.lastseqWith
  by_cases heq : seq = s.lastseq
  · rw [heq, ite_self]
  · rw [isNewerSeq_eq, if_pos (newer_iff.mpr ⟨heq, h⟩)]

/-- A number less than half a turn behind does not. -/
theorem not_newer_of_back {seq latest : Seq} (h : ahead seq latest < 2 ^ 15) :
    newer seq latest = false := by
  by_contra hnewer
  obtain ⟨hne, hlt⟩ := newer_iff.mp (Bool.not_eq_false _ ▸ hnewer)
  have hback := ahead_comm (Ne.symm hne)
  omega

theorem lastseqWith_of_back {s : RTPRecvSession} {seq : Seq} (h : ahead seq s.lastseq < 2 ^ 15) :
    s.lastseqWith seq = s.lastseq := by
  rw [RTPRecvSession.lastseqWith, isNewerSeq_eq, not_newer_of_back h]
  rfl

/-- The numbers of a gap lie between its ends. -/
theorem ahead_of_mem_gapNumbers {lastseq seq i : Seq} (h : i ∈ gapNumbers lastseq seq) :
    0 < ahead lastseq i ∧ ahead lastseq i < ahead lastseq seq := by
  obtain ⟨j, hj, rfl⟩ := List.mem_map.mp h
  have hlt : j < ahead lastseq seq - 1 := List.mem_range.mp hj
  have hturn := ahead_lt lastseq seq
  have hsum : lastseq + 1 + BitVec.ofNat 16 j = lastseq + BitVec.ofNat 16 (j + 1) := by
    rw [BitVec.add_assoc]
    refine congrArg (lastseq + ·) (BitVec.eq_of_toNat_eq ?_)
    rw [BitVec.toNat_add, BitVec.toNat_ofNat, BitVec.toNat_ofNat]
    show (1 + j % 2 ^ 16) % 2 ^ 16 = (j + 1) % 2 ^ 16
    omega
  rw [hsum, ahead_add_ofNat lastseq (by omega)]
  omega

/-- Without a timestamp jump the head sets a `_lastseq` that is 0. -/
theorem startNack_go {timeBase : BitVec 32} {s : RTPRecvSession} {pkt : Rtp}
    (h : timestampJump timeBase pkt.timestamp s.lastRtpTimestamp = false) :
    s.startNack timeBase pkt =
      { s with
        lastseq := if s.lastseq = 0 then pkt.seq else s.lastseq
        lastRtpTimestamp := pkt.timestamp } := by
  unfold RTPRecvSession.startNack
  by_cases hzero : s.lastseq = 0
  · simp only [if_pos hzero, h, Bool.false_eq_true, if_false]
  · simp only [if_neg hzero, h, Bool.false_eq_true, if_false]

/-- A timestamp jump clears the sets. -/
theorem startNack_jump {timeBase : BitVec 32} {s : RTPRecvSession} {pkt : Rtp}
    (h : timestampJump timeBase pkt.timestamp s.lastRtpTimestamp = true) :
    s.startNack timeBase pkt =
      { s with
        hisNacks := []
        nacks := []
        extendMaxSeq := if s.lastseq ≠ 0 ∧ pkt.seq < s.lastseq then s.extendMaxSeq + 1#32 <<< 16
          else s.extendMaxSeq
        lastseq := pkt.seq
        lastRtpTimestamp := pkt.timestamp } := by
  unfold RTPRecvSession.startNack
  by_cases hzero : s.lastseq = 0
  · have hirrefl : ¬ pkt.seq < pkt.seq := BitVec.lt_irrefl pkt.seq
    simp only [if_pos hzero, h, if_true, if_neg hirrefl]
    rw [if_neg fun hboth => hboth.1 hzero]
  · have hboth : (s.lastseq ≠ 0 ∧ pkt.seq < s.lastseq) = (pkt.seq < s.lastseq) :=
      propext (and_iff_right hzero)
    simp only [if_neg hzero, h, if_true, hboth]

/-- What `_on_handle_rtp_nack` leaves for a number that is no duplicate. -/
theorem accountRtp_nacks (env : RecvEnv) (s : RTPRecvSession) (seq : Seq) (len : Nat) :
    (s.accountRtp env seq len).nacks =
        evictNacks env.cfg (s.lastseqWith seq) (s.nacksWith env.cfg seq) ∧
      (s.accountRtp env seq len).lastseq = s.lastseqWith seq ∧
      (s.accountRtp env seq len).hisNacks = s.hisNacks := by
  unfold RTPRecvSession.accountRtp RTPRecvSession.lastseqWith RTPRecvSession.nacksWith
  by_cases hlist : env.cfg.maxNacklstSize = 0
  · have hoff : (env.cfg.maxNacklstSize != 0) = false := bne_eq_false_iff_eq.mpr hlist
    simp only [hoff, if_pos hlist, Bool.false_and, if_false, Bool.false_eq_true]
    cases isNewerSeq seq s.lastseq <;> exact ⟨rfl, rfl, rfl⟩
  · have hon : (env.cfg.maxNacklstSize != 0) = true := bne_iff_ne.mpr hlist
    simp only [hon, if_neg hlist, Bool.true_and, if_true]
    cases isNewerSeq seq s.lastseq
    · simp only [Bool.not_false, Bool.true_and, if_false, Bool.false_eq_true]
      split <;> exact ⟨rfl, rfl, rfl⟩
    · exact ⟨rfl, rfl, rfl⟩

/-- `_extend_max_seq` after a number that is no duplicate. -/
theorem accountRtp_extendMaxSeq (env : RecvEnv) (s : RTPRecvSession) (seq : Seq) (len : Nat) :
    (s.accountRtp env seq len).extendMaxSeq =
      ((if isNewerSeq seq s.lastseq = true ∧ seq < s.lastseq then s.extendMaxSeq + 1#32 <<< 16
        else s.extendMaxSeq) &&& 0xffff0000#32) ||| (s.lastseqWith seq).setWidth 32 := by
  unfold RTPRecvSession.accountRtp RTPRecvSession.lastseqWith
  cases isNewerSeq seq s.lastseq
  · simp only [Bool.false_eq_true, if_false, false_and]
    split <;> split <;> rfl
  · simp only [Bool.not_true, Bool.and_false, Bool.false_and, Bool.false_eq_true, if_false, if_true,
      true_and]
    split <;> rfl

section Call

variable {env : RecvEnv} {s : RTPRecvSession} {pkt : Rtp} {len : Nat}

/-- The session after the head of `_on_handle_rtp_nack`. -/
def RTPRecvSession.started (env : RecvEnv) (s : RTPRecvSession) (pkt : Rtp) : RTPRecvSession :=
  s.startNack (mediaTimeBase env.audioTimeBase env.videoTimeBase pkt) pkt

/-- A number that is in `_his_nacks` changes nothing more. -/
theorem onHandleRtpNack_duplicate (h : pkt.seq ∈ (s.started env pkt).hisNacks) :
    s.onHandleRtpNack env pkt len = s.started env pkt :=
  if_pos (List.contains_iff_mem.mpr h)

/-- Any other goes into `_his_nacks` and is accounted for. -/
theorem onHandleRtpNack_new (h : pkt.seq ∉ (s.started env pkt).hisNacks) :
    s.onHandleRtpNack env pkt len =
      { s.started env pkt with
        hisNacks := evictHisNacks env.cfg pkt.seq
          (insertHisNack (s.started env pkt).hisNacks pkt.seq) }.accountRtp env pkt.seq len :=
  if_neg fun hin => h (List.contains_iff_mem.mp hin)

/-- The NACKs after the call for a new number. -/
theorem onHandleRtpNack_nacks (len : Nat) (h : pkt.seq ∉ (s.started env pkt).hisNacks) :
    (s.onHandleRtpNack env pkt len).hisNacks =
        evictHisNacks env.cfg pkt.seq (insertHisNack (s.started env pkt).hisNacks pkt.seq) ∧
      (s.onHandleRtpNack env pkt len).nacks =
        evictNacks env.cfg ((s.started env pkt).lastseqWith pkt.seq)
          ((s.started env pkt).nacksWith env.cfg pkt.seq) ∧
      (s.onHandleRtpNack env pkt len).lastseq = (s.started env pkt).lastseqWith pkt.seq := by
  rw [onHandleRtpNack_new h]
  obtain ⟨hnacks, hlast, hhis⟩ := accountRtp_nacks env
    { s.started env pkt with
      hisNacks := evictHisNacks env.cfg pkt.seq
        (insertHisNack (s.started env pkt).hisNacks pkt.seq) } pkt.seq len
  exact ⟨hhis, hnacks, hlast⟩

theorem onHandleRtpNack_extendMaxSeq (len : Nat) (h : pkt.seq ∉ (s.started env pkt).hisNacks) :
    (s.onHandleRtpNack env pkt len).extendMaxSeq =
      ((if isNewerSeq pkt.seq (s.started env pkt).lastseq = true ∧
            pkt.seq < (s.started env pkt).lastseq then
          (s.started env pkt).extendMaxSeq + 1#32 <<< 16
        else (s.started env pkt).extendMaxSeq) &&& 0xffff0000#32) |||
        ((s.started env pkt).lastseqWith pkt.seq).setWidth 32 := by
  rw [onHandleRtpNack_new h]
  exact accountRtp_extendMaxSeq env _ pkt.seq len

/-- What `_on_handle_rtp_fec` goes by. -/
structure SameFecState (s s' : RTPRecvSession) : Prop where
  ssrc : s'.ssrc = s.ssrc
  payloadType : s'.payloadType = s.payloadType
  pktHistory : s'.pktHistory = s.pktHistory
  pktData : s'.pktData = s.pktData
  pendingFec : s'.pendingFec = s.pendingFec

theorem SameFecState.trans {s s₁ s' : RTPRecvSession} (h : SameFecState s s₁)
    (h' : SameFecState s₁ s') : SameFecState s s' :=
  ⟨h'.ssrc.trans h.ssrc, h'.payloadType.trans h.payloadType, h'.pktHistory.trans h.pktHistory,
    h'.pktData.trans h.pktData, h'.pendingFec.trans h.pendingFec⟩

theorem started_sameFec (s : RTPRecvSession) (env : RecvEnv) (pkt : Rtp) :
    SameFecState s (s.started env pkt) := by
  cases hjump : timestampJump (mediaTimeBase env.audioTimeBase env.videoTimeBase pkt)
      pkt.timestamp s.lastRtpTimestamp with
  | true =>
    rw [RTPRecvSession.started, startNack_jump hjump]
    exact ⟨rfl, rfl, rfl, rfl, rfl⟩
  | false =>
    rw [RTPRecvSession.started, startNack_go hjump]
    exact ⟨rfl, rfl, rfl, rfl, rfl⟩

theorem accountRtp_sameFec (env : RecvEnv) (s : RTPRecvSession) (seq : Seq) (len : Nat) :
    SameFecState s (s.accountRtp env seq len) := by
  unfold RTPRecvSession.accountRtp
  dsimp only
  split <;> split <;> split <;> exact ⟨rfl, rfl, rfl, rfl, rfl⟩

/-- `_on_handle_rtp_nack` leaves it alone. -/
theorem onHandleRtpNack_sameFec (s : RTPRecvSession) (env : RecvEnv) (pkt : Rtp) (len : Nat) :
    SameFecState s (s.onHandleRtpNack env pkt len) := by
  have hstart := started_sameFec s env pkt
  by_cases hdup : pkt.seq ∈ (s.started env pkt).hisNacks
  · rw [onHandleRtpNack_duplicate hdup]
    exact hstart
  · rw [onHandleRtpNack_new hdup]
    refine SameFecState.trans ?_ (accountRtp_sameFec env _ pkt.seq len)
    exact ⟨hstart.ssrc, hstart.payloadType, hstart.pktHistory, hstart.pktData, hstart.pendingFec⟩

end Call

end RtcMcu.RtpTrans
