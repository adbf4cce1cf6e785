import RtcMcu.RtpTrans.Duplicates

/-!
# The extended highest sequence number

`_extend_max_seq` counts the turns of the highest number in its upper half. Here every media packet
carries the index it counts, without a wrap, so that the true turns are those of the highest index;
the session sees the index modulo `2 ^ 16`.

`_lastseq` is 0 before the first packet, and also when the highest number is 0. A late packet that
arrives then is taken for the highest one, and the next packet in order counts a turn that was not
made. In every run of near packets in which that does not happen the upper half counts the turns
(`extended_highest`).
-/

namespace RtcMcu.RtpTrans

open RtcMcu.Avformat RtcMcu.Serial

/-! ## The indices -/

/-- The first and the highest index of the packets so far. -/
structure Indices where
  first : Nat
  highest : Nat

/-- The turns of the highest index since the first packet, and its number. -/
def Indices.extended (i : Indices) : Nat :=
  2 ^ 16 * (i.highest / 2 ^ 16 - i.first / 2 ^ 16) + i.highest % 2 ^ 16

/-- The indices after a step; `n` is the index of its packet. -/
def Indices.after (i : Option Indices) (n : Nat) : SessionOp → Option Indices
  | .media .. => some
    { first := (i.map Indices.first).getD n
      highest := max ((i.map Indices.highest).getD n) n }
  | _ => i

/-- A session with the indices of the packets it was given. -/
structure Numbered where
  session : TimedSession
  indices : Option Indices

def Numbered.new : Numbered := { session := TimedSession.new, indices := none }

def Numbered.step (cfg : TimerConfig) (t : Numbered) (e : SessionOp × Nat) : Numbered where
  session := t.session.step cfg e.1
  indices := Indices.after t.indices e.2 e.1

def Numbered.run (cfg : TimerConfig) (t : Numbered) (es : List (SessionOp × Nat)) : Numbered :=
  es.foldl (Numbered.step cfg) t

/-- The number of a packet is its index modulo `2 ^ 16`. After the first one, packets are reordered
by less than half a turn and no timestamp jumps. -/
def Reordered (t : Numbered) : SessionOp × Nat → Prop
  | (.media audio video now pkt len, n) =>
    pkt.seq = BitVec.ofNat 16 n ∧ ∀ i, t.indices = some i →
      n < i.highest + 2 ^ 15 ∧ i.highest < n + 2 ^ 15 ∧
        (SessionOp.media audio video now pkt len).jumps t.session = false
  | _ => True

/-- `_extend_max_seq` is the extended number of the highest index, and while that fits it never
decreases. -/
structure CountsTurns (cfg : TimerConfig) (es : List (SessionOp × Nat)) : Prop where
  extended : ∀ i, (Numbered.new.run cfg es).indices = some i →
    (Numbered.new.run cfg es).session.extendMaxSeq = BitVec.ofNat 32 i.extended
  grows : ∀ before after, es = before ++ after →
    ∀ i, (Numbered.new.run cfg es).indices = some i → i.extended < 2 ^ 32 →
      (Numbered.new.run cfg before).session.extendMaxSeq ≤
        (Numbered.new.run cfg es).session.extendMaxSeq

/-! ## The two halves -/

/-- Putting a number in the lower half leaves the upper half. -/
theorem replaceLow_eq (x : BitVec 32) (v : Seq) :
    (x &&& 0xffff0000#32) ||| v.setWidth 32 = x.extractLsb' 16 16 ++ v := by
  have hmask : ∀ i : Fin 32, (0xffff0000#32).getLsbD i = decide (16 ≤ i.val) := by decide
  refine BitVec.eq_of_getLsbD_eq fun i hi => ?_
  rw [BitVec.getLsbD_or, BitVec.getLsbD_and, hmask ⟨i, hi⟩, BitVec.getLsbD_setWidth,
    BitVec.getLsbD_append, BitVec.getLsbD_extractLsb']
  by_cases hlow : i < 16
  · have hnot : ¬ 16 ≤ i := Nat.not_le.mpr hlow
    simp [hlow, hnot, hi]
  · have hle : 16 ≤ i := Nat.le_of_not_lt hlow
    have hsum : 16 + (i - 16) = i := by omega
    have hlt : i - 16 < 16 := by omega
    simp [hlow, hle, hsum, hlt]

theorem toNat_replaceLow (x : BitVec 32) (v : Seq) :
    ((x &&& 0xffff0000#32) ||| v.setWidth 32).toNat = x.toNat / 2 ^ 16 * 2 ^ 16 + v.toNat := by
  have hx := x.isLt
  rw [replaceLow_eq, BitVec.toNat_append, BitVec.extractLsb'_toNat,
    ← Nat.shiftLeft_add_eq_or_of_lt v.isLt, Nat.shiftLeft_eq, Nat.shiftRight_eq_div_pow]
  omega

theorem replaceLow_ofNat (turns low n : Nat) (hlow : low < 2 ^ 16) :
    (BitVec.ofNat 32 (2 ^ 16 * turns + low) &&& 0xffff0000#32) |||
      (BitVec.ofNat 16 n).setWidth 32 = BitVec.ofNat 32 (2 ^ 16 * turns + n % 2 ^ 16) := by
  refine BitVec.eq_of_toNat_eq ?_
  rw [toNat_replaceLow, BitVec.toNat_ofNat, BitVec.toNat_ofNat, BitVec.toNat_ofNat]
  omega

theorem addTurn_ofNat (turns low : Nat) :
    BitVec.ofNat 32 (2 ^ 16 * turns + low) + 1#32 <<< 16 =
      BitVec.ofNat 32 (2 ^ 16 * (turns + 1) + low) := by
  have hturn : 1#32 <<< 16 = BitVec.ofNat 32 (2 ^ 16) := by decide
  rw [hturn, ← BitVec.ofNat_add]
  exact congrArg (BitVec.ofNat 32) (by omega)

/-! ## A step -/

section Step

variable {cfg : TimerConfig} {front back : Nat} {s : RTPRecvSession} {env : RecvEnv} {pkt : Rtp}
  {i : Indices} {n : Nat}

/-- What the session knows of the indices. -/
structure Knows (i : Indices) (s : RTPRecvSession) : Prop where
  some : s.hisNacks ≠ []
  lastseq : s.lastseq = BitVec.ofNat 16 i.highest
  extended : s.extendMaxSeq = BitVec.ofNat 32 i.extended
  le : i.first ≤ i.highest

/-- After a packet `_his_nacks` is not empty. -/
theorem hisNacks_ne_nil (s : RTPRecvSession) (env : RecvEnv) (pkt : Rtp) (len : Nat) :
    (s.onHandleRtpNack env pkt len).hisNacks ≠ [] := by
  by_cases hdup : pkt.seq ∈ (s.started env pkt).hisNacks
  · rw [onHandleRtpNack_duplicate hdup]
    exact List.ne_nil_of_mem hdup
  · rw [(onHandleRtpNack_nacks len hdup).1]
    exact List.ne_nil_of_mem (mem_evictHisNacks _ _ _)

/-- The first packet, also one whose timestamp jumps from 0. -/
theorem knows_first (h : NacksWithin back s) (hhis : s.hisNacks = []) (hzero : s.extendMaxSeq = 0)
    (hseq : pkt.seq = BitVec.ofNat 16 n) (len : Nat) :
    Knows { first := n, highest := n } (s.onHandleRtpNack env pkt len) := by
  have hlast : s.lastseq = 0 := (h.unset hhis).2
  have hstart : (s.started env pkt).hisNacks = [] ∧ (s.started env pkt).lastseq = pkt.seq ∧
      (s.started env pkt).extendMaxSeq = 0 := by
    cases hjump : timestampJump (mediaTimeBase env.audioTimeBase env.videoTimeBase pkt)
        pkt.timestamp s.lastRtpTimestamp with
    | true =>
      rw [RTPRecvSession.started, startNack_jump hjump]
      refine ⟨rfl, rfl, (if_neg fun hboth => hboth.1 hlast).trans hzero⟩
    | false =>
      rw [RTPRecvSession.started, startNack_go hjump]
      exact ⟨hhis, if_pos hlast, hzero⟩
  obtain ⟨hnil, hself, hext⟩ := hstart
  have hnew : pkt.seq ∉ (s.started env pkt).hisNacks := by
    rw [hnil]
    exact List.not_mem_nil
  have hwith := lastseqWith_self hself
  refine ⟨hisNacks_ne_nil s env pkt len, ?_, ?_, Nat.le_refl n⟩
  · rw [(onHandleRtpNack_nacks len hnew).2.2, hwith, hseq]
  · rw [onHandleRtpNack_extendMaxSeq len hnew, hwith, hself, isNewerSeq_eq, newer_irrefl, hext, hseq,
      if_neg fun hboth => Bool.false_ne_true hboth.1]
    have hturn := replaceLow_ofNat 0 0 n (by decide)
    rw [Indices.extended, Nat.sub_self]
    exact hturn

/-- A late packet, or the highest one again. -/
theorem knows_late (env : RecvEnv) (hk : Knows i s)
    (hsteady : timestampJump (mediaTimeBase env.audioTimeBase env.videoTimeBase pkt) pkt.timestamp
      s.lastRtpTimestamp = false)
    (hseq : pkt.seq = BitVec.ofNat 16 n) (hle : n ≤ i.highest) (hlate : i.highest < n + 2 ^ 15)
    (hzero : s.lastseq = 0 → n = i.highest) (len : Nat) :
    Knows i (s.onHandleRtpNack env pkt len) := by
  have hlast : (s.started env pkt).lastseq = BitVec.ofNat 16 i.highest := by
    rw [RTPRecvSession.started, startNack_go hsteady]
    show (if s.lastseq = 0 then pkt.seq else s.lastseq) = _
    split
    · next h => rw [hseq, hzero h]
    · exact hk.lastseq
  have hext : (s.started env pkt).extendMaxSeq = BitVec.ofNat 32 i.extended := by
    rw [RTPRecvSession.started, startNack_go hsteady]
    exact hk.extended
  by_cases hdup : pkt.seq ∈ (s.started env pkt).hisNacks
  · rw [onHandleRtpNack_duplicate hdup]
    exact ⟨List.ne_nil_of_mem hdup, hlast, hext, hk.le⟩
  · have hback : ahead pkt.seq (s.started env pkt).lastseq < 2 ^ 15 := by
      rw [hlast, hseq, ahead_ofNat hle (by omega)]
      omega
    have hwith := lastseqWith_of_back hback
    refine ⟨hisNacks_ne_nil s env pkt len, ?_, ?_, hk.le⟩
    · rw [(onHandleRtpNack_nacks len hdup).2.2, hwith, hlast]
    · rw [onHandleRtpNack_extendMaxSeq len hdup, hwith, isNewerSeq_eq, not_newer_of_back hback,
        if_neg fun hboth => Bool.false_ne_true hboth.1, hext, hlast]
      exact replaceLow_ofNat _ _ i.highest (Nat.mod_lt _ (by decide))

/-- A packet that becomes the highest one. -/
theorem knows_ahead (env : RecvEnv) (hk : Knows i s) (h : NacksWithin back s) (hback : back < 2 ^ 15)
    (hsteady : timestampJump (mediaTimeBase env.audioTimeBase env.videoTimeBase pkt) pkt.timestamp
      s.lastRtpTimestamp = false)
    (hseq : pkt.seq = BitVec.ofNat 16 n) (hlt : i.highest < n) (hfront : n < i.highest + 2 ^ 15)
    (len : Nat) : Knows { i with highest := n } (s.onHandleRtpNack env pkt len) := by
  have hahead : ahead s.lastseq pkt.seq = n - i.highest := by
    rw [hk.lastseq, hseq, ahead_ofNat (Nat.le_of_lt hlt) (by omega)]
  have hne : s.lastseq ≠ pkt.seq := fun heq => by
    rw [heq, ahead_self] at hahead
    omega
  have hnew : pkt.seq ∉ (s.started env pkt).hisNacks := by
    rw [started_hisNacks env hsteady]
    intro hin
    have hbehind := h.hisNacks.behind pkt.seq hin
    have hcomm := ahead_comm hne
    omega
  have hext : (s.started env pkt).extendMaxSeq = BitVec.ofNat 32 i.extended := by
    rw [RTPRecvSession.started, startNack_go hsteady]
    exact hk.extended
  have hlast : (s.started env pkt).lastseq = if s.lastseq = 0 then pkt.seq else s.lastseq := by
    rw [RTPRecvSession.started, startNack_go hsteady]
  have hwith : (s.started env pkt).lastseqWith pkt.seq = pkt.seq := by
    refine lastseqWith_of_front ?_
    rw [hlast]
    split
    · rw [ahead_self]
      decide
    · omega
  have hmod : s.lastseq.toNat = i.highest % 2 ^ 16 := by rw [hk.lastseq, BitVec.toNat_ofNat]
  have hmod' : pkt.seq.toNat = n % 2 ^ 16 := by rw [hseq, BitVec.toNat_ofNat]
  have hle := hk.le
  refine ⟨hisNacks_ne_nil s env pkt len, ?_, ?_, by show i.first ≤ n; omega⟩
  · rw [(onHandleRtpNack_nacks len hnew).2.2, hwith, hseq]
  · -- the turn ends exactly when the number is smaller than the highest one before it
    have hturns : (if isNewerSeq pkt.seq (s.started env pkt).lastseq = true ∧
          pkt.seq < (s.started env pkt).lastseq then
          (s.started env pkt).extendMaxSeq + 1#32 <<< 16 else (s.started env pkt).extendMaxSeq) =
        BitVec.ofNat 32 (2 ^ 16 * (n / 2 ^ 16 - i.first / 2 ^ 16) + i.highest % 2 ^ 16) := by
      rw [hext, hlast, Indices.extended]
      by_cases hzero : s.lastseq = 0
      · rw [if_pos hzero, if_neg fun hboth => BitVec.lt_irrefl _ hboth.2]
        rw [hzero] at hmod
        have hsame : n / 2 ^ 16 = i.highest / 2 ^ 16 := by
          have hz : (0 : Seq).toNat = 0 := rfl
          omega
        rw [hsame]
      · have hnewer : isNewerSeq pkt.seq s.lastseq = true := by
          rw [isNewerSeq_eq]
          exact newer_iff.mpr ⟨fun heq => hne heq.symm, by omega⟩
        rw [if_neg hzero]
        by_cases hwrap : pkt.seq < s.lastseq
        · rw [if_pos ⟨hnewer, hwrap⟩]
          rw [BitVec.lt_def, hmod, hmod'] at hwrap
          have hnext : n / 2 ^ 16 - i.first / 2 ^ 16 =
              i.highest / 2 ^ 16 - i.first / 2 ^ 16 + 1 := by omega
          rw [addTurn_ofNat, hnext]
        · rw [if_neg fun hboth => hwrap hboth.2]
          rw [BitVec.lt_def, hmod, hmod'] at hwrap
          have hsame : n / 2 ^ 16 = i.highest / 2 ^ 16 := by omega
          rw [hsame]
    rw [onHandleRtpNack_extendMaxSeq len hnew, hturns, hwith, hseq]
    exact replaceLow_ofNat _ _ n (Nat.mod_lt _ (by decide))

end Step

/-! ## Runs -/

section Runs

variable {cfg : TimerConfig} {front back : Nat} {t : Numbered}

/-- The sets are in order, and the session knows the indices. -/
structure Counting (back : Nat) (t : Numbered) : Prop where
  within : NacksWithin back t.session.toRTPRecvSession
  unset : t.indices = none → t.session.hisNacks = [] ∧ t.session.extendMaxSeq = 0
  knows : ∀ i, t.indices = some i → Knows i t.session.toRTPRecvSession

theorem Counting.new (back : Nat) : Counting back Numbered.new :=
  ⟨NacksWithin.new back, fun _ => ⟨rfl, rfl⟩, nofun⟩

/-- From a highest number 0 a near packet is not late. -/
theorem eq_highest_of_near {s : RTPRecvSession} {seq : Seq} {i : Indices} {n : Nat}
    (hk : Knows i s) (hseq : seq = BitVec.ofNat 16 n) (hle : n ≤ i.highest)
    (hlate : i.highest < n + 2 ^ 15) (hfront : front < 2 ^ 15)
    (hnear : NearLatest front back s.lastseq seq) (hzero : s.lastseq = 0) : n = i.highest := by
  have hahead := hnear.2 hzero
  have hback : ahead seq 0 = i.highest - n := by
    rw [← hzero, hk.lastseq, hseq, ahead_ofNat hle (by omega)]
  by_cases hself : seq = 0
  · rw [hself, ahead_self] at hback
    omega
  · have hcomm := ahead_comm (Ne.symm hself)
    omega

/-- A media packet. -/
theorem counting_media (h : Counting back t) (audio video : BitVec 32) (now : Nat) (pkt : Rtp)
    (len n : Nat) (hturn : back + front < 2 ^ 15)
    (hnear : (SessionOp.media audio video now pkt len).Near front back t.session)
    (hindex : Reordered t (.media audio video now pkt len, n)) :
    ∀ i, (t.step cfg (.media audio video now pkt len, n)).indices = some i →
      Knows i (t.step cfg (.media audio video now pkt len, n)).session.toRTPRecvSession := by
  intro i hi
  obtain ⟨hseq, hreorder⟩ := hindex
  let env : RecvEnv :=
    { cfg := cfg.toRTPTransConfig, audioTimeBase := audio, videoTimeBase := video, now := now }
  cases hold : t.indices with
  | none =>
    obtain ⟨hhis, hzero⟩ := h.unset hold
    have hself : i = { first := n, highest := n } := by
      have hafter := Option.some.inj hi
      rw [hold] at hafter
      rw [← hafter]
      exact congrArg (Indices.mk n) (Nat.max_self n)
    rw [hself]
    exact knows_first h.within hhis hzero hseq len
  | some j =>
    have hk := h.knows j hold
    obtain ⟨hfront, hlate, hsteady⟩ := hreorder j hold
    have hself : i = { first := j.first, highest := max j.highest n } := by
      have hafter := Option.some.inj hi
      rw [hold] at hafter
      exact hafter.symm
    have hlatest : NearLatest front back t.session.lastseq pkt.seq := by
      rcases hnear with hnil | hjump | hlatest
      · exact absurd hnil hk.some
      · rw [show timestampJump (mediaTimeBase audio video pkt) pkt.timestamp
          t.session.lastRtpTimestamp = false from hsteady] at hjump
        cases hjump
      · exact hlatest
    rw [hself]
    rcases Nat.lt_or_ge j.highest n with hlt | hle
    · rw [Nat.max_eq_right (Nat.le_of_lt hlt)]
      exact knows_ahead env hk h.within (by omega) hsteady hseq hlt hfront len
    · rw [Nat.max_eq_left hle]
      exact knows_late env hk hsteady hseq hle hlate
        (eq_highest_of_near hk hseq hle hlate (by omega) hlatest) len

/-- A step that is no media packet. -/
theorem counting_other {s' : TimedSession} (h : Counting back t)
    (hwithin : NacksWithin back s'.toRTPRecvSession) (hhis : s'.hisNacks = t.session.hisNacks)
    (hlast : s'.lastseq = t.session.lastseq) (hext : s'.extendMaxSeq = t.session.extendMaxSeq) :
    Counting back { session := s', indices := t.indices } := by
  refine ⟨hwithin, fun hnone => ?_, fun i hi => ?_⟩
  · obtain ⟨hnil, hzero⟩ := h.unset hnone
    exact ⟨hhis.trans hnil, hext.trans hzero⟩
  · have hk := h.knows i hi
    exact ⟨fun hnil => hk.some (hhis.symm.trans hnil), hlast.trans hk.lastseq,
      hext.trans hk.extended, hk.le⟩

/-- A step that leaves the sets and the latest number. -/
theorem counting_same {s' : TimedSession} (h : Counting back t)
    (hsame : SameNackState t.session.toRTPRecvSession s'.toRTPRecvSession) :
    Counting back { session := s', indices := t.indices } :=
  counting_other h (h.within.same hsame) hsame.hisNacks hsame.lastseq hsame.extendMaxSeq

theorem counting_step (hturn : back + front < 2 ^ 15) (hon : cfg.maxPacketAge ≠ 0)
    (hage : cfg.maxPacketAge.toNat ≤ back) (h : Counting back t) (e : SessionOp × Nat)
    (he : Reordered t e ∧ e.1.Near front back t.session) : Counting back (t.step cfg e) := by
  obtain ⟨op, n⟩ := e
  obtain ⟨hindex, hnear⟩ := he
  have hwithin := step_within hturn hon hage h.within op hnear
  cases op with
  | media audio video now pkt len =>
    exact ⟨hwithin, nofun, counting_media h audio video now pkt len n hturn hnear hindex⟩
  | arrive seq =>
    exact counting_same h ((clearAtWrap_same t.session.toRTPRecvSession seq).mark seq)
  | wrap seq => exact counting_same h (clearAtWrap_same t.session.toRTPRecvSession seq)
  | mark seq => exact counting_same h ⟨rfl, rfl, rfl, rfl⟩
  | recovered seq => exact counting_other h hwithin rfl rfl rfl
  | timer now skip =>
    obtain ⟨-, hhis, hlast, hext⟩ := processNacks_nacks cfg now skip t.session
    exact counting_other h hwithin hhis hlast hext
  | other r => exact counting_same h ⟨rfl, rfl, rfl, rfl⟩

theorem Numbered.run_append (cfg : TimerConfig) (t : Numbered) (es es' : List (SessionOp × Nat)) :
    t.run cfg (es ++ es') = (t.run cfg es).run cfg es' := List.foldl_append

/-- The first index stays, and the highest one grows. -/
theorem indices_run (cfg : TimerConfig) (es : List (SessionOp × Nat)) {j : Indices}
    (hj : t.indices = some j) :
    ∃ i, (t.run cfg es).indices = some i ∧ i.first = j.first ∧ j.highest ≤ i.highest := by
  induction es generalizing t j with
  | nil => exact ⟨j, hj, rfl, Nat.le_refl _⟩
  | cons e es ih =>
    obtain ⟨op, n⟩ := e
    have hstep : ∃ k, (t.step cfg (op, n)).indices = some k ∧ k.first = j.first ∧
        j.highest ≤ k.highest := by
      show ∃ k, Indices.after t.indices n op = some k ∧ k.first = j.first ∧ j.highest ≤ k.highest
      rw [hj]
      cases op with
      | media audio video now pkt len => exact ⟨_, rfl, rfl, Nat.le_max_left _ _⟩
      | arrive seq => exact ⟨j, rfl, rfl, Nat.le_refl _⟩
      | wrap seq => exact ⟨j, rfl, rfl, Nat.le_refl _⟩
      | mark seq => exact ⟨j, rfl, rfl, Nat.le_refl _⟩
      | recovered seq => exact ⟨j, rfl, rfl, Nat.le_refl _⟩
      | timer now skip => exact ⟨j, rfl, rfl, Nat.le_refl _⟩
      | other r => exact ⟨j, rfl, rfl, Nat.le_refl _⟩
    obtain ⟨k, hk, hfirst, hle⟩ := hstep
    obtain ⟨i, hi, hfirst', hle'⟩ := ih hk
    exact ⟨i, hi, hfirst'.trans hfirst, Nat.le_trans hle hle'⟩

/-- In every run of near packets that are reordered by less than half a turn, with no timestamp
jump, `_extend_max_seq` counts the turns of the highest number. -/
theorem extended_highest (cfg : TimerConfig) (front back : Nat) (hturn : back + front < 2 ^ 15)
    (hon : cfg.maxPacketAge ≠ 0) (hage : cfg.maxPacketAge.toNat ≤ back)
    (es : List (SessionOp × Nat))
    (hes : Each (Numbered.step cfg)
      (fun t e => Reordered t e ∧ e.1.Near front back t.session) Numbered.new es) :
    CountsTurns cfg es := by
  have hrun : ∀ ks, Each (Numbered.step cfg)
      (fun t e => Reordered t e ∧ e.1.Near front back t.session) Numbered.new ks →
      Counting back (Numbered.new.run cfg ks) := fun ks hks =>
    hks.invariant (fun t e h he => counting_step hturn hon hage h e he) (Counting.new back)
  refine ⟨fun i hi => ((hrun es hes).knows i hi).extended, fun before after hsplit i hi hfits => ?_⟩
  have hend := ((hrun es hes).knows i hi).extended
  have hbefore := hrun before (Each.append_iff.mp (hsplit ▸ hes)).1
  cases hj : (Numbered.new.run cfg before).indices with
  | none =>
    rw [(hbefore.unset hj).2]
    exact BitVec.le_def.mpr (Nat.zero_le _)
  | some j =>
    obtain ⟨i', hi', hfirst, hle⟩ := indices_run cfg after hj
    rw [← Numbered.run_append, ← hsplit, hi] at hi'
    cases Option.some.inj hi'
    have hstart := (hbefore.knows j hj).extended
    have hjle := (hbefore.knows j hj).le
    have hgrow : j.extended ≤ i.extended := by
      rw [Indices.extended, Indices.extended, hfirst]
      omega
    rw [hend, hstart, BitVec.le_def, BitVec.toNat_ofNat, BitVec.toNat_ofNat,
      Nat.mod_eq_of_lt hfits, Nat.mod_eq_of_lt (Nat.lt_of_le_of_lt hgrow hfits)]
    exact hgrow

/-- A wrap with a packet missing, which arrives late. -/
theorem extended_highest_past_wrap :
    CountsTurns TimerConfig.default
      [(SessionOp.videoAt 65534, 65534), (SessionOp.videoAt 1, 65537),
        (SessionOp.videoAt 65535, 65535)] := by
  refine extended_highest TimerConfig.default 1000 450 (by decide) (by decide) (by decide) _
    ⟨⟨⟨by decide, nofun⟩, .inl rfl⟩, ⟨⟨by decide, fun i hi => ?_⟩, ?_⟩,
      ⟨⟨by decide, fun i hi => ?_⟩, ?_⟩, trivial⟩
  · cases Option.some.inj hi
    exact ⟨by decide, by decide, by decide⟩
  · exact .inr (.inr ⟨.inl (by decide), by decide⟩)
  · cases Option.some.inj hi
    exact ⟨by decide, by decide, by decide⟩
  · exact .inr (.inr ⟨.inr (by decide), by decide⟩)

/-- The packets 65535, 0 and, one number late, 65534: the highest number is 0 on the second turn,
and the session holds 65534 on the second turn. -/
theorem not_counts_turns_at_zero :
    Each (Numbered.step TimerConfig.default) Reordered Numbered.new
        [(SessionOp.videoAt 65535, 65535), (SessionOp.videoAt 0, 65536),
          (SessionOp.videoAt 65534, 65534)] ∧
      ¬ CountsTurns TimerConfig.default
        [(SessionOp.videoAt 65535, 65535), (SessionOp.videoAt 0, 65536),
          (SessionOp.videoAt 65534, 65534)] := by
  refine ⟨⟨⟨by decide, nofun⟩, ⟨by decide, fun i hi => ?_⟩, ⟨by decide, fun i hi => ?_⟩, trivial⟩,
    fun h => ?_⟩
  · cases Option.some.inj hi
    exact ⟨by decide, by decide, by decide⟩
  · cases Option.some.inj hi
    exact ⟨by decide, by decide, by decide⟩
  · exact absurd (h.extended ⟨65535, 65536⟩ rfl) (by decide)

end Runs

end RtcMcu.RtpTrans
