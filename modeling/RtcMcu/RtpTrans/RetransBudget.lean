import RtcMcu.Lib.Along
import RtcMcu.RtpTrans.NackAccount

/-!
# The retransmission budget

A player's session sends a packet again when a NACK asks for it, at most 5, 7 or 9 times and not
more often than the round trip allows. It keeps the count in `_nacks`, and each packet that is sent
takes entries from the front of `_nacks`: those that are too old, and so many that no more than
`max_nacklst_size` stay. An entry that is too old cannot be asked for again before its number comes
round. One that is dropped because there are too many can, and so can those that a jump of the
timestamp clears: its count starts again from 0.

`calls` notes every call of `SendNackRtp`, with the index of its packet: the number counted without
a wrap, up to the highest number sent. In every run in which no entry goes that may be asked for
again the calls keep to the budget (`retransmissions_budgeted`).
-/

namespace RtcMcu.RtpTrans

open RtcMcu.Avformat RtcMcu.Serial RtcMcu.Coupling

/-! ## The ledger -/

/-- A call of `SendNackRtp`: the index of the packet, the time, the round trip time, and what
`SendNackRtp` finds in the cache. -/
structure SendCall where
  index : Int
  now : Nat
  rttMs : BitVec 32
  found : Except Fault (Option Rtp × Nat)

/-- A session, the last reading of the clock, the index of `_lastseq`, and the calls so far. -/
structure SendLedger where
  session : RTPSendSession
  clock : Nat
  highest : Int
  calls : List SendCall

def SendLedger.new : SendLedger :=
  { session := RTPSendSession.new, clock := 0, highest := 0, calls := [] }

/-- The index of the number that follows one with a known index: the nearest one. -/
def nextIndex (index : Int) (seq next : Seq) : Int :=
  if ahead seq next ≤ 2 ^ 15 then index + ahead seq next else index - ahead next seq

/-- The index of a number that is not newer than `_lastseq`. -/
def SendLedger.indexOf (l : SendLedger) (seq : Seq) : Int :=
  l.highest - ahead seq l.session.lastseq

/-- `on_handle_rtp` of a packet that is sent, and `on_handle_rtcp` of a report, with the cache
(`get`) and the time bases of the moment. -/
inductive SendOp
  | rtp (get : GetRtp) (timeBase : BitVec 32) (now : Nat) (pkt : Rtp) (len : Nat)
  | rtcp (get : GetRtp) (audioTimeBase videoTimeBase rttMs : BitVec 32) (now : Nat)
      (info : RTCPPacketInformation)

def SendLedger.step (t : RTPSendTrans) (l : SendLedger) : SendOp → Except Fault SendLedger
  | .rtp get timeBase now pkt len => do
    let (s, _) ← l.session.onHandleRtp t.config get timeBase pkt len
    .ok { session := s
          clock := now
          highest := nextIndex l.highest l.session.lastseq s.lastseq
          calls := l.calls }
  | .rtcp get audio video rttMs now info => do
    let (s, again) ← l.session.onHandleRtcp (t.setTimeBase audio video) get rttMs info now
    .ok { session := s
          clock := now
          highest := l.highest
          calls := l.calls ++ again.map fun seq =>
            { index := l.indexOf seq
              now := now
              rttMs := rttMs
              found := get (l.session.payloadType == RTP_AV_H264) seq } }

def SendLedger.run (t : RTPSendTrans) (l : SendLedger) (ops : List SendOp) :
    Except Fault SendLedger := ops.foldlM (SendLedger.step t) l

/-- `b` comes long enough after `a`: by more than two thirds of the round trip time and by more than
`min_same_nack_interval`. -/
def Spaced (cfg : RTPTransConfig) (a b : SendCall) : Prop :=
  2 * b.rttMs.toNat < 3 * (b.now - a.now) ∧ cfg.minSameNackInterval.toNat < b.now - a.now

/-- A call finds its packet in the cache, comes after fewer calls for the same index than the class
of the packet allows, and comes long enough after each of them. -/
structure WithinBudget (cfg : RTPTransConfig) (before : List SendCall) (c : SendCall) : Prop where
  cached : ∃ packet len, c.found = .ok (some packet, len) ∧
    (before.filter fun b => b.index == c.index).length < maxRetransCount packet len
  spaced : ∀ b ∈ before, b.index = c.index → Spaced cfg b c

/-- Every call is within the budget. -/
def Budgeted (cfg : RTPTransConfig) (calls : List SendCall) : Prop :=
  ∀ before c after, calls = before ++ c :: after → WithinBudget cfg before c

/-- The clock does not run backwards, and the round trip time is less than half of what its 32 bits
hold. A packet that is sent leaves no more than `max_nacklst_size` entries that are not too old, and
its timestamp jumps only if no packet within `max_packet_age` was sent again. -/
def SendOp.Keeps (t : RTPSendTrans) (l : SendLedger) : SendOp → Prop
  | .rtp _ timeBase now pkt _ =>
    l.clock ≤ now ∧
    (isFec pkt.payload = true ∨
      if timestampJump timeBase l.session.lastRtpTimestamp pkt.timestamp then
        ∀ c ∈ l.calls, c.index + t.config.maxPacketAge.toNat <
          nextIndex l.highest l.session.lastseq pkt.seq
      else
        t.config.maxNacklstSize = 0 ∨
          (l.session.nacks.filter fun e => !tooOld t.config
            (if isNewerSeq l.session.lastseq pkt.seq then l.session.lastseq else pkt.seq)
            e.1).length ≤ t.config.maxNacklstSize.toNat)
  | .rtcp _ _ _ rttMs now _ => l.clock ≤ now ∧ rttMs.toNat < 2 ^ 31

instance (t : RTPSendTrans) (l : SendLedger) : (op : SendOp) → Decidable (op.Keeps t l)
  | .rtp _ _ _ _ _ => inferInstanceAs (Decidable (_ ∧ (_ ∨ ite _ _ _)))
  | .rtcp _ _ _ _ _ _ => inferInstanceAs (Decidable (_ ∧ _))

/-! ## What a packet that is sent leaves -/

section Sent

variable {cfg : RTPTransConfig} {get : GetRtp} {s s' : RTPSendSession} {sent : List Sent}

/-- Nothing that the NACKs depend on changes. -/
structure SameNacks (s s' : RTPSession) : Prop where
  nacks : s'.nacks = s.nacks
  lastseq : s'.lastseq = s.lastseq
  lastRtpTimestamp : s'.lastRtpTimestamp = s.lastRtpTimestamp

theorem SameNacks.refl (s : RTPSession) : SameNacks s s := ⟨rfl, rfl, rfl⟩

theorem SameNacks.trans {s s₁ s' : RTPSession} (h : SameNacks s s₁) (h' : SameNacks s₁ s') :
    SameNacks s s' :=
  ⟨h'.nacks.trans h.nacks, h'.lastseq.trans h.lastseq,
    h'.lastRtpTimestamp.trans h.lastRtpTimestamp⟩

theorem sendMaskFec_sameNacks {g : MaskGroup} (h : s.sendMaskFec get g = .ok (s', sent)) :
    SameNacks s.toRTPSession s'.toRTPSession := by
  obtain ⟨acc, -, h⟩ := bind_eq_ok.mp h
  split at h
  · cases h
    exact ⟨rfl, rfl, rfl⟩
  · cases h
    exact ⟨rfl, rfl, rfl⟩

theorem sendMaskFecs_sameNacks {gs : List MaskGroup}
    (h : s.sendMaskFecs get gs = .ok (s', sent)) :
    SameNacks s.toRTPSession s'.toRTPSession := by
  induction gs generalizing s sent with
  | nil =>
    cases h
    exact SameNacks.refl _
  | cons g gs ih =>
    obtain ⟨⟨s₁, first⟩, hfirst, h⟩ := bind_eq_ok.mp h
    obtain ⟨⟨s₂, rest⟩, hrest, h⟩ := bind_eq_ok.mp h
    cases h
    exact (sendMaskFec_sameNacks hfirst).trans (ih hrest)

theorem onHandleRtpFFec_sameNacks {pkt : Rtp} (h : s.onHandleRtpFFec cfg get pkt = .ok (s', sent)) :
    SameNacks s.toRTPSession s'.toRTPSession := by
  unfold RTPSendSession.onHandleRtpFFec at h
  dsimp only at h
  split at h
  · split at h
    · obtain ⟨sum, -, h⟩ := bind_eq_ok.mp h
      cases h
      exact ⟨rfl, rfl, rfl⟩
    · cases h
      exact SameNacks.refl _
  · cases h
    exact SameNacks.refl _

theorem onHandleRtpFec_sameNacks {pkt : Rtp} (h : s.onHandleRtpFec cfg get pkt = .ok (s', sent)) :
    SameNacks s.toRTPSession s'.toRTPSession := by
  unfold RTPSendSession.onHandleRtpFec at h
  dsimp only at h
  split at h
  · cases h
    exact SameNacks.refl _
  split at h
  · split at h
    · split at h
      · cases h
      split at h
      · exact sendMaskFecs_sameNacks h
      · cases h
        exact SameNacks.refl _
    · cases h
      exact SameNacks.refl _
  · exact onHandleRtpFFec_sameNacks h

theorem adopt_sameNacks (s : RTPSession) (pkt : Rtp) : SameNacks s (s.adopt pkt) := by
  unfold RTPSession.adopt
  dsimp only
  split <;> split <;> exact ⟨rfl, rfl, rfl⟩

/-- `on_handle_rtp` is `_on_handle_rtp_nack`, as far as the NACKs go. -/
theorem onHandleRtp_nacks {timeBase : BitVec 32} {pkt : Rtp} {len : Nat}
    (h : s.onHandleRtp cfg get timeBase pkt len = .ok (s', sent)) :
    ∃ s₁ : RTPSendSession, SameNacks s.toRTPSession s₁.toRTPSession ∧
      s' = if isFec pkt.payload then s₁ else s₁.onHandleRtpNack cfg timeBase pkt len := by
  obtain ⟨⟨s₁, sent₁⟩, hfec, h⟩ := bind_eq_ok.mp h
  cases h
  exact ⟨s₁, (adopt_sameNacks s.toRTPSession pkt).trans (onHandleRtpFec_sameNacks hfec), rfl⟩

/-- The loop at the end of `_on_handle_rtp_nack`, if what is not too old fits. -/
theorem evictWhile_of_fits {latest : Seq} {m : NackMap}
    (h : cfg.maxNacklstSize = 0 ∨
      (m.filter fun e => !tooOld cfg latest e.1).length ≤ cfg.maxNacklstSize.toNat)
    (hkept : ∀ e ∈ m.dropWhile (fun e => tooOld cfg latest e.1), tooOld cfg latest e.1 = false) :
    evictWhile cfg latest m = m.dropWhile fun e => tooOld cfg latest e.1 := by
  induction m with
  | nil => rfl
  | cons e m ih =>
    rw [evictWhile]
    cases hold : tooOld cfg latest e.1 with
    | true =>
      rw [List.dropWhile_cons, if_pos hold] at hkept
      rw [List.filter_cons, hold, Bool.not_true, if_neg Bool.false_ne_true] at h
      rw [Bool.or_true, if_pos rfl, List.dropWhile_cons, if_pos hold]
      exact ih h hkept
    | false =>
      have hnot : ¬ tooOld cfg latest e.1 = true := Bool.eq_false_iff.mp hold
      rw [List.dropWhile_cons, if_neg hnot] at hkept
      rw [List.dropWhile_cons, if_neg hnot]
      have hall : (e :: m).filter (fun e => !tooOld cfg latest e.1) = e :: m := by
        refine List.filter_eq_self.mpr fun k hk => ?_
        rw [hkept k hk]
        rfl
      have hsmall : (cfg.maxNacklstSize != 0 &&
          decide (cfg.maxNacklstSize.toNat < (e :: m).length)) = false := by
        rcases h with hzero | hfits
        · rw [hzero]
          rfl
        · rw [hall] at hfits
          rw [decide_eq_false (Nat.not_lt.mpr hfits), Bool.and_false]
      rw [hsmall, Bool.or_false, if_neg Bool.false_ne_true]

end Sent

/-! ## The entries that are not too old -/

section Window

variable {cfg : RTPTransConfig} {latest next seq : Seq} {m : NackMap}

theorem not_tooOld_iff (hon : cfg.maxPacketAge ≠ 0) (hage : cfg.maxPacketAge.toNat < 2 ^ 15) :
    tooOld cfg latest seq = false ↔
      seq ≤ latest ∧ latest.toNat - seq.toNat ≤ cfg.maxPacketAge.toNat := by
  rw [← Bool.not_eq_true, tooOld_iff (by omega), not_and, BitVec.le_def]
  constructor
  · intro h
    have hneither := h hon
    omega
  · rintro ⟨hle, hnear⟩ -
    omega

theorem ahead_of_le (h : seq ≤ latest) : ahead seq latest = latest.toNat - seq.toNat := by
  rw [ahead_cases, if_pos (BitVec.le_def.mp h)]

/-- The entries stand in order, at most `max_packet_age` below the latest number. -/
structure InAge (cfg : RTPTransConfig) (latest : Seq) (m : NackMap) : Prop where
  within : OrderedWithin cfg.maxPacketAge.toNat latest m.keys
  noWrap : ∀ k ∈ m.keys, k ≤ latest

theorem InAge.insert (h : InAge cfg latest m) (hon : cfg.maxPacketAge ≠ 0)
    (hage : cfg.maxPacketAge.toNat < 2 ^ 15) (hseq : tooOld cfg latest seq = false) :
    InAge cfg latest (m.insert seq) := by
  obtain ⟨hle, hnear⟩ := (not_tooOld_iff hon hage).mp hseq
  refine ⟨insert_within h.within hage (ahead_of_le hle ▸ hnear), fun k hk => ?_⟩
  rw [keys_insert] at hk
  split at hk
  · exact h.noWrap k hk
  · rcases mem_insertKey.mp hk with rfl | hk
    · exact hle
    · exact h.noWrap k hk

/-- An entry that is not too old for a number ahead shows that this one lies on the same turn. -/
theorem InAge.le_of_not_tooOld (h : InAge cfg latest m) (hon : cfg.maxPacketAge ≠ 0)
    (hage : cfg.maxPacketAge.toNat < 2 ^ 15) (hmove : ahead latest next ≤ 2 ^ 15)
    (hin : seq ∈ m.keys) (hseq : tooOld cfg next seq = false) : latest ≤ next := by
  obtain ⟨hle, -⟩ := (not_tooOld_iff hon hage).mp hseq
  have hold := h.within.behind seq hin
  have hno := h.noWrap seq hin
  rw [ahead_of_le hno] at hold
  rw [BitVec.le_def] at hle hno ⊢
  by_contra hwrap
  rw [ahead_cases, if_neg hwrap] at hmove
  omega

/-- Ageing by a number ahead leaves what is not too old for it. -/
theorem InAge.evict (h : InAge cfg latest m) (hon : cfg.maxPacketAge ≠ 0)
    (hage : cfg.maxPacketAge.toNat < 2 ^ 15) (hmove : ahead latest next ≤ 2 ^ 15) :
    InAge cfg next (m.dropWhile fun e => tooOld cfg next e.1) := by
  have hsub : (m.dropWhile fun e => tooOld cfg next e.1).Sublist m := List.dropWhile_sublist _
  have hord : Ordered (NackMap.keys (m.dropWhile fun e => tooOld cfg next e.1)) :=
    h.within.ordered.sublist (keys_sublist hsub)
  have hall : ∀ k ∈ NackMap.keys (m.dropWhile fun e => tooOld cfg next e.1),
      k ≤ next ∧ next.toNat - k.toNat ≤ cfg.maxPacketAge.toNat := by
    cases hdrop : m.dropWhile (fun e => tooOld cfg next e.1) with
    | nil => exact fun k hk => absurd hk List.not_mem_nil
    | cons first rest =>
      have hfirst : tooOld cfg next first.1 = false := by
        have hhead := List.head?_dropWhile_not (fun e : Seq × NackRetransInfo =>
          tooOld cfg next e.1) m
        rw [hdrop] at hhead
        exact hhead
      rw [hdrop] at hord hsub
      have hkeys : ∀ k ∈ NackMap.keys (first :: rest), k ∈ m.keys := fun k hk =>
        (keys_sublist hsub).mem hk
      have hin : first.1 ∈ m.keys := hkeys first.1 List.mem_cons_self
      have hle := h.le_of_not_tooOld hon hage hmove hin hfirst
      obtain ⟨hlow, hnear⟩ := (not_tooOld_iff hon hage).mp hfirst
      intro k hk
      rcases hord.head_le hk with rfl | hnewer
      · exact ⟨hlow, hnear⟩
      · -- what is newer than the first one lies between it and the latest one
        have hlt := h.within.behind.lt_of_newer hage hin hnewer (hkeys k hk)
        have hk' := h.noWrap k (hkeys k hk)
        rw [ahead_of_le hk', ahead_of_le (h.noWrap first.1 hin)] at hlt
        rw [BitVec.le_def] at hle hk' ⊢
        omega
  refine ⟨⟨hord, fun k hk => ?_⟩, fun k hk => (hall k hk).1⟩
  rw [ahead_of_le (hall k hk).1]
  exact (hall k hk).2

end Window

/-! ## Entries and calls -/

/-- The calls for an index. -/
def callsFor (calls : List SendCall) (index : Int) : List SendCall :=
  calls.filter fun c => c.index == index

/-- An entry counts the calls and has the time of the last one. -/
structure EntryBooked (calls : List SendCall) (info : NackRetransInfo) : Prop where
  counts : info.retransCount = calls.length
  last : ∀ c ∈ calls, c.now ≤ info.time

/-- The entries agree with the calls, and what has no entry but could be asked for has no call. -/
structure SendBooked (cfg : RTPTransConfig) (m : NackMap) (latest : Seq) (highest : Int)
    (calls : List SendCall) : Prop where
  window : InAge cfg latest m
  past : ∀ c ∈ calls, c.index ≤ highest
  entries : ∀ e ∈ m, EntryBooked (callsFor calls (highest - ahead e.1 latest)) e.2
  unlisted : ∀ seq, tooOld cfg latest seq = false → seq ∉ m.keys →
    ∀ c ∈ calls, c.index ≠ highest - ahead seq latest
  budget : Budgeted cfg calls

section Booked

variable {cfg : RTPTransConfig} {latest next seq : Seq} {m : NackMap} {highest : Int}
  {calls : List SendCall} {c : SendCall}

theorem callsFor_eq_nil {index : Int} (h : ∀ c ∈ calls, c.index ≠ index) :
    callsFor calls index = [] :=
  List.filter_eq_nil_iff.mpr fun c hc => by
    rw [beq_iff_eq]
    exact h c hc

theorem Budgeted.nil (cfg : RTPTransConfig) : Budgeted cfg [] := by
  intro before c after h
  exact absurd h.symm (List.append_ne_nil_of_right_ne_nil before (List.cons_ne_nil c after))

theorem Budgeted.append (h : Budgeted cfg calls) (hc : WithinBudget cfg calls c) :
    Budgeted cfg (calls ++ [c]) := by
  intro before c' after heq
  rcases List.eq_nil_or_concat after with rfl | ⟨after', last, rfl⟩
  · obtain ⟨rfl, hlast⟩ := List.append_inj' heq rfl
    cases hlast
    exact hc
  · have hassoc : calls ++ [c] = (before ++ c' :: after') ++ [last] := by
      rw [heq, List.concat_eq_append, List.append_assoc, List.cons_append]
    obtain ⟨hcalls, -⟩ := List.append_inj' hassoc rfl
    exact h before c' after' hcalls

/-- Entries that are in their place start with no call. -/
theorem SendBooked.insert (h : SendBooked cfg m latest highest calls) (hon : cfg.maxPacketAge ≠ 0)
    (hage : cfg.maxPacketAge.toNat < 2 ^ 15) (hseq : tooOld cfg latest seq = false) :
    SendBooked cfg (m.insert seq) latest highest calls := by
  refine ⟨h.window.insert hon hage hseq, h.past, fun e he => ?_,
    fun seq' hseq' hnew => h.unlisted seq' hseq' fun hin => hnew (mem_keys_insert.mpr (.inr hin)), h.budget⟩
  rcases mem_insert he with hold | ⟨hnew, rfl⟩
  · exact h.entries e hold
  · rw [callsFor_eq_nil (h.unlisted seq hseq hnew)]
    exact ⟨rfl, fun c hc => absurd hc List.not_mem_nil⟩

theorem keys_retransmitted (m : NackMap) (seq : Seq) (now : Nat) :
    (m.retransmitted seq now).keys = m.keys := by
  rw [NackMap.retransmitted, NackMap.keys, NackMap.keys, List.map_map]
  refine List.map_congr_left fun e _ => ?_
  show (if e.1 = seq then _ else e).1 = e.1
  split
  · next heq => exact heq.symm
  · rfl

theorem callsFor_append (calls : List SendCall) (c : SendCall) (index : Int) :
    callsFor (calls ++ [c]) index = callsFor calls index ++ if c.index = index then [c] else [] := by
  rw [callsFor, List.filter_append, List.filter_singleton]
  by_cases heq : c.index = index
  · rw [if_pos heq, beq_iff_eq.mpr heq]
    rfl
  · rw [if_neg heq, beq_eq_false_iff_ne.mpr heq]
    rfl

/-- One more call. -/
theorem SendBooked.retransmit (h : SendBooked cfg m latest highest calls)
    (hnodup : m.keys.Nodup) {info : NackRetransInfo} (hin : (seq, info) ∈ m)
    (hindex : c.index = highest - ahead seq latest) (hbudget : WithinBudget cfg calls c)
    (htime : info.time ≤ c.now) :
    SendBooked cfg (m.retransmitted seq c.now) latest highest (calls ++ [c]) := by
  have hkeys := keys_retransmitted m seq c.now
  refine ⟨⟨hkeys ▸ h.window.within, hkeys ▸ h.window.noWrap⟩, fun b hb => ?_, fun e he => ?_,
    fun seq' hseq' hnew b hb => ?_, h.budget.append hbudget⟩
  · rcases List.mem_append.mp hb with hb | hb
    · exact h.past b hb
    · rw [List.mem_singleton.mp hb, hindex]
      omega
  · obtain ⟨old, hold, rfl⟩ := List.mem_map.mp he
    have hentry := h.entries old hold
    rw [callsFor_append]
    by_cases hsame : old.1 = seq
    · obtain ⟨key, info'⟩ := old
      dsimp only at hsame
      subst hsame
      have hinfo := entry_unique hnodup hold hin
      subst hinfo
      rw [if_pos rfl, if_pos hindex]
      refine ⟨?_, fun b hb => ?_⟩
      · rw [List.length_append, List.length_singleton, ← hentry.counts]
      · rcases List.mem_append.mp hb with hb | hb
        · exact Nat.le_trans (hentry.last b hb) htime
        · exact Nat.le_of_eq (congrArg SendCall.now (List.mem_singleton.mp hb))
    · have hother : c.index ≠ highest - ahead old.1 latest := by
        intro heq
        have hahead : ahead old.1 latest = ahead seq latest := by omega
        exact hsame (ahead_left_inj.mp hahead)
      rw [if_neg hsame, if_neg hother, List.append_nil]
      exact hentry
  · rw [hkeys] at hnew
    rcases List.mem_append.mp hb with hb | hb
    · exact h.unlisted seq' hseq' hnew b hb
    · rw [List.mem_singleton.mp hb, hindex]
      intro heq
      have hahead : ahead seq latest = ahead seq' latest := by omega
      rw [ahead_left_inj] at hahead
      exact hnew (hahead ▸ mem_keys_of_mem hin)

/-- The latest number moves ahead. -/
theorem SendBooked.move (h : SendBooked cfg m latest highest calls) (hon : cfg.maxPacketAge ≠ 0)
    (hage : cfg.maxPacketAge.toNat < 2 ^ 15) (hmove : ahead latest next ≤ 2 ^ 15) :
    SendBooked cfg (m.dropWhile fun e => tooOld cfg next e.1) next (nextIndex highest latest next)
      calls := by
  have hindex : nextIndex highest latest next = highest + ahead latest next := if_pos hmove
  have hmoved := ahead_cases latest next
  have hlatest := latest.isLt
  have hwindow := h.window.evict hon hage hmove
  rw [hindex]
  refine ⟨hwindow, fun c hc => ?_, fun e he => ?_, fun seq hseq hnew c hc => ?_, h.budget⟩
  · have hpast := h.past c hc
    omega
  · have hold : e ∈ m := (List.dropWhile_sublist _).mem he
    have hlow := hwindow.noWrap e.1 (mem_keys_of_mem he)
    have hnear := hwindow.within.behind e.1 (mem_keys_of_mem he)
    have hyoung : tooOld cfg next e.1 = false :=
      (not_tooOld_iff hon hage).mpr ⟨hlow, ahead_of_le hlow ▸ hnear⟩
    have hle := h.window.le_of_not_tooOld hon hage hmove (mem_keys_of_mem hold) hyoung
    have hno := h.window.noWrap e.1 (mem_keys_of_mem hold)
    have hsame : highest + ahead latest next - ahead e.1 next = highest - ahead e.1 latest := by
      rw [ahead_of_le hlow, ahead_of_le hno, ahead_of_le hle]
      rw [BitVec.le_def] at hle hno
      omega
    rw [hsame]
    exact h.entries e hold
  · obtain ⟨hlow, hnear⟩ := (not_tooOld_iff hon hage).mp hseq
    have hpast := h.past c hc
    rw [ahead_of_le hlow]
    by_cases hturn : latest ≤ next ∧ seq ≤ latest
    · -- the number could be asked for before, and had no entry then
      obtain ⟨hle, hno⟩ := hturn
      have hyoung : tooOld cfg latest seq = false := by
        refine (not_tooOld_iff hon hage).mpr ⟨hno, ?_⟩
        rw [BitVec.le_def] at hle
        omega
      have hbefore := h.unlisted seq hyoung (fun hin => ?_) c hc
      · rw [ahead_of_le hno] at hbefore
        rw [ahead_of_le hle]
        rw [BitVec.le_def] at hle hno hlow
        omega
      · obtain ⟨e, he, rfl⟩ := List.mem_map.mp hin
        exact hnew (mem_keys_of_mem (mem_dropWhile_of_not he hseq))
    · -- the number lies past the highest index
      rw [BitVec.le_def, BitVec.le_def] at hturn
      rw [BitVec.le_def] at hlow
      split at hmoved <;> omega

/-- A jump that leaves every call behind. -/
theorem SendBooked.jump (h : SendBooked cfg m latest highest calls) (hon : cfg.maxPacketAge ≠ 0)
    (hage : cfg.maxPacketAge.toNat < 2 ^ 15)
    (hbehind : ∀ c ∈ calls, c.index + cfg.maxPacketAge.toNat < nextIndex highest latest next) :
    SendBooked cfg [] next (nextIndex highest latest next) calls := by
  refine ⟨⟨OrderedWithin.nil _ _, fun k hk => absurd hk List.not_mem_nil⟩, fun c hc => ?_,
    fun e he => absurd he List.not_mem_nil, fun seq hseq _ c hc => ?_, h.budget⟩
  · have hlt := hbehind c hc
    omega
  · obtain ⟨hlow, hnear⟩ := (not_tooOld_iff hon hage).mp hseq
    have hlt := hbehind c hc
    rw [ahead_of_le hlow]
    omega

end Booked

/-! ## A list of NACKs -/

section Nacks

variable {t : RTPSendTrans} {m : NackMap} {seq : Seq}

theorem find_of_mem (hnodup : m.keys.Nodup) {info : NackRetransInfo} (hin : (seq, info) ∈ m) :
    m.find seq = some info := by
  have hsome : (m.find? fun e => e.1 == seq).isSome = true :=
    List.find?_isSome.mpr ⟨(seq, info), hin, beq_self_eq_true seq⟩
  obtain ⟨⟨key, info'⟩, hfound⟩ := Option.isSome_iff_exists.mp hsome
  have hkey : key = seq := beq_iff_eq.mp
    (List.find?_some (p := fun e : Seq × NackRetransInfo => e.1 == seq) hfound)
  subst hkey
  rw [NackMap.find, hfound, entry_unique hnodup hin (List.mem_of_find?_eq_some hfound)]
  rfl

/-- The interval of the code is that of the claim as long as the round trip time does not
overflow. -/
theorem spaced_of_interval {cfg : RTPTransConfig} {a b : SendCall} {time : Nat}
    (hrtt : b.rttMs.toNat < 2 ^ 31) (hlate : a.now ≤ time)
    (h : max (b.rttMs * 2 / 3).toNat cfg.minSameNackInterval.toNat < b.now - time) :
    Spaced cfg a b := by
  have hthird : (b.rttMs * 2 / 3).toNat = b.rttMs.toNat * 2 / 3 := by
    rw [BitVec.toNat_udiv, BitVec.toNat_mul]
    show b.rttMs.toNat * 2 % 2 ^ 32 / 3 = _
    rw [Nat.mod_eq_of_lt (by omega)]
  rw [hthird] at h
  refine ⟨?_, ?_⟩ <;> omega

/-- The call of `SendNackRtp` for a number. -/
def sendCall (get : GetRtp) (video : Bool) (rttMs : BitVec 32) (now : Nat) (highest : Int)
    (latest seq : Seq) : SendCall where
  index := highest - ahead seq latest
  now := now
  rttMs := rttMs
  found := get video seq

/-- The loop over the NACKs keeps the entries and the calls in step. -/
theorem onNackList_booked (get : GetRtp) (now : Nat) {rttMs : BitVec 32}
    (hrtt : rttMs.toNat < 2 ^ 31) (hon : t.config.maxPacketAge ≠ 0)
    (hage : t.config.maxPacketAge.toNat < 2 ^ 15) {highest : Int} (list : List Seq)
    {s s' : RTPSendSession} {again : List Seq} {calls : List SendCall}
    (h : SendBooked t.config s.nacks s.lastseq highest calls)
    (hloop : RTPSendSession.onNackList t get now rttMs s list = .ok (s', again)) :
    s'.lastseq = s.lastseq ∧ SendBooked t.config s'.nacks s.lastseq highest
      (calls ++ again.map
        (sendCall get (s.payloadType == RTP_AV_H264) rttMs now highest s.lastseq)) := by
  induction list generalizing s s' again calls with
  | nil =>
    cases hloop
    rw [List.map_nil, List.append_nil]
    exact ⟨rfl, h⟩
  | cons seq list ih =>
    rw [RTPSendSession.onNackList] at hloop
    split at hloop
    · exact ih h hloop
    next hyoung =>
    have hseq : tooOld t.config s.lastseq seq = false := Bool.eq_false_iff.mpr hyoung
    obtain ⟨⟨packet, len⟩, hget, hloop⟩ := bind_eq_ok.mp hloop
    cases packet with
    | none => exact ih h hloop
    | some packet =>
      dsimp only at hloop
      split at hloop
      · exact ih h hloop
      have hinsert := h.insert hon hage hseq
      have hnodup := hinsert.window.within.ordered.nodup
      have hself : seq ∈ (s.nacks.insert seq).keys := mem_keys_insert.mpr (.inl rfl)
      obtain ⟨⟨key, info⟩, hin, hkey⟩ := List.mem_map.mp hself
      dsimp only at hkey
      subst hkey
      rw [find_of_mem hnodup hin, Option.getD_some] at hloop
      split at hloop
      · next hallowed =>
        obtain ⟨⟨s₁, rest⟩, hrest, hloop⟩ := bind_eq_ok.mp hloop
        cases hloop
        have hentry := hinsert.entries _ hin
        have hcall : SendBooked t.config ((s.nacks.insert key).retransmitted key now) s.lastseq
            highest (calls ++ [sendCall get (s.payloadType == RTP_AV_H264) rttMs now highest
              s.lastseq key]) := by
          refine hinsert.retransmit (c := sendCall get (s.payloadType == RTP_AV_H264) rttMs now
            highest s.lastseq key) hnodup hin rfl ⟨⟨packet, len, hget, ?_⟩, fun b hb hsame => ?_⟩ ?_
          · exact hentry.counts ▸ hallowed.1
          · exact spaced_of_interval hrtt (hentry.last b (List.mem_filter.mpr
              ⟨hb, beq_iff_eq.mpr hsame⟩)) hallowed.2
          · have hlate := hallowed.2
            show info.time ≤ now
            omega
        have hih := ih (s := { s with
          nacks := (s.nacks.insert key).retransmitted key now }) hcall hrest
        rw [List.append_assoc, List.singleton_append] at hih
        exact hih
      · exact ih (s := { s with nacks := s.nacks.insert key }) hinsert hloop

end Nacks

/-! ## Runs -/

section Runs

variable {t : RTPSendTrans} {l l' : SendLedger}

/-- The entries of the session agree with the calls. -/
def SendLedger.Booked (t : RTPSendTrans) (l : SendLedger) : Prop :=
  SendBooked t.config l.session.nacks l.session.lastseq l.highest l.calls

theorem SendLedger.booked_new (t : RTPSendTrans) : SendLedger.new.Booked t :=
  ⟨⟨OrderedWithin.nil _ _, fun _ hk => absurd hk List.not_mem_nil⟩,
    fun _ hc => absurd hc List.not_mem_nil, fun _ he => absurd he List.not_mem_nil,
    fun _ _ _ _ hc => absurd hc List.not_mem_nil, Budgeted.nil t.config⟩

/-- A number that is no older leads at most half a turn ahead. -/
theorem ahead_le_of_not_newer {latest seq : Seq} (h : isNewerSeq latest seq = false) :
    ahead latest seq ≤ 2 ^ 15 := by
  rw [isNewerSeq_eq] at h
  by_cases heq : latest = seq
  · rw [heq, ahead_self]
    exact Nat.zero_le _
  · have hfar : ¬ ahead seq latest < 2 ^ 15 := fun hlt =>
      Bool.eq_false_iff.mp h (newer_iff.mpr ⟨heq, hlt⟩)
    have hcomm := ahead_comm (Ne.symm heq)
    omega

theorem nextIndex_self (index : Int) (seq : Seq) : nextIndex index seq seq = index := by
  rw [nextIndex, ahead_self, if_pos (by decide)]
  exact Int.add_zero index

/-- A media packet that is sent. -/
theorem booked_sent (hon : t.config.maxPacketAge ≠ 0) (hage : t.config.maxPacketAge.toNat < 2 ^ 15)
    {s : RTPSendSession} {highest : Int} {calls : List SendCall} {timeBase : BitVec 32} {pkt : Rtp}
    (len : Nat) (h : SendBooked t.config s.nacks s.lastseq highest calls)
    (hkeeps : if timestampJump timeBase s.lastRtpTimestamp pkt.timestamp then
        ∀ c ∈ calls, c.index + t.config.maxPacketAge.toNat < nextIndex highest s.lastseq pkt.seq
      else t.config.maxNacklstSize = 0 ∨ (s.nacks.filter fun e => !tooOld t.config
        (if isNewerSeq s.lastseq pkt.seq then s.lastseq else pkt.seq) e.1).length ≤
          t.config.maxNacklstSize.toNat) :
    SendBooked t.config (s.onHandleRtpNack t.config timeBase pkt len).nacks
      (s.onHandleRtpNack t.config timeBase pkt len).lastseq
      (nextIndex highest s.lastseq (s.onHandleRtpNack t.config timeBase pkt len).lastseq) calls := by
  unfold RTPSendSession.onHandleRtpNack
  dsimp only
  cases hjump : timestampJump timeBase s.lastRtpTimestamp pkt.timestamp with
  | true =>
    rw [if_pos hjump] at hkeeps
    simp only [if_true]
    exact h.jump hon hage hkeeps
  | false =>
    rw [hjump, if_neg Bool.false_ne_true] at hkeeps
    simp only [Bool.false_eq_true, if_false]
    have hmove : ahead s.lastseq
        (if isNewerSeq s.lastseq pkt.seq then s.lastseq else pkt.seq) ≤ 2 ^ 15 := by
      cases hnewer : isNewerSeq s.lastseq pkt.seq with
      | true =>
        rw [if_pos rfl, ahead_self]
        exact Nat.zero_le _
      | false =>
        rw [if_neg Bool.false_ne_true]
        exact ahead_le_of_not_newer hnewer
    have hmoved := h.move hon hage hmove
    rw [evictWhile_of_fits hkeeps fun e he => ?_]
    · exact hmoved
    · have hlow := hmoved.window.noWrap e.1 (mem_keys_of_mem he)
      have hnear := hmoved.window.within.behind e.1 (mem_keys_of_mem he)
      exact (not_tooOld_iff hon hage).mpr ⟨hlow, ahead_of_le hlow ▸ hnear⟩

theorem sendBooked_step (hon : t.config.maxPacketAge ≠ 0) (hage : t.config.maxPacketAge.toNat < 2 ^ 15)
    (h : l.Booked t) {op : SendOp} (hkeeps : op.Keeps t l) (hstep : l.step t op = .ok l') :
    l'.Booked t := by
  cases op with
  | rtp get timeBase now pkt len =>
    obtain ⟨⟨s, sent⟩, hrtp, hstep⟩ := bind_eq_ok.mp hstep
    cases hstep
    obtain ⟨s₁, hsame, rfl⟩ := onHandleRtp_nacks hrtp
    have h₁ : SendBooked t.config s₁.nacks s₁.lastseq l.highest l.calls := by
      rw [hsame.nacks, hsame.lastseq]
      exact h
    show SendBooked t.config _ _ (nextIndex l.highest l.session.lastseq _) l.calls
    rw [← hsame.lastseq]
    cases hfec : isFec pkt.payload with
    | true =>
      rw [if_pos rfl, nextIndex_self]
      exact h₁
    | false =>
      rw [if_neg Bool.false_ne_true]
      have hmedia := hkeeps.2.resolve_left fun htrue => by
        rw [hfec] at htrue
        cases htrue
      refine booked_sent hon hage len h₁ ?_
      rw [hsame.nacks, hsame.lastseq, hsame.lastRtpTimestamp]
      exact hmedia
  | rtcp get audio video rttMs now info =>
    obtain ⟨⟨s, again⟩, hrtcp, hstep⟩ := bind_eq_ok.mp hstep
    cases hstep
    unfold RTPSendSession.onHandleRtcp at hrtcp
    dsimp only at hrtcp
    split at hrtcp
    · obtain ⟨⟨s₁, again₁⟩, hloop, hrtcp⟩ := bind_eq_ok.mp hrtcp
      cases hrtcp
      obtain ⟨hlast, hbooked⟩ := onNackList_booked (t := t.setTimeBase audio video) get now
        hkeeps.2 hon hage info.nackList (s := { l.session with
          ssrc := if l.session.ssrc = 0 then info.remoteSSRC else l.session.ssrc }) h hloop
      show SendBooked t.config s₁.nacks s₁.lastseq l.highest _
      rw [hlast]
      exact hbooked
    · cases hrtcp
      show SendBooked t.config l.session.nacks l.session.lastseq l.highest (l.calls ++ [])
      rw [List.append_nil]
      exact h

/-- In every run in which no entry goes that may be asked for again, the calls keep to the
budget. -/
theorem retransmissions_budgeted (t : RTPSendTrans) (hon : t.config.maxPacketAge ≠ 0)
    (hage : t.config.maxPacketAge.toNat < 2 ^ 15) (ops : List SendOp)
    (hops : Along (SendLedger.step t) (fun l op => op.Keeps t l) SendLedger.new ops)
    {l : SendLedger} (hrun : SendLedger.new.run t ops = .ok l) : Budgeted t.config l.calls := by
  have hends : Ends (fun _ => True) (fun l : SendLedger => l.Booked t)
      (SendLedger.new.run t ops) := by
    refine hops.run (fun l op h hkeeps => ?_) (SendLedger.booked_new t)
    cases hstep : l.step t op with
    | error e => trivial
    | ok l' => exact sendBooked_step hon hage h hkeeps hstep
  exact (hends.of_ok hrun).budget

/-- A player's connection whose sessions keep two entries. -/
def smallTrans : RTPSendTrans :=
  RTPTrans.new { RTPTransConfig.default with maxNacklstSize := 2 } 0

/-- A cache that holds a video packet for every number. -/
def fullCacheOf : GetRtp := fun _ seq =>
  .ok (some { Rtp.zero with payload := RTP_AV_H264, seq := seq }, 100)

/-- A video packet is sent. -/
def SendOp.send (now : Nat) (seq : Seq) : SendOp :=
  .rtp fullCacheOf 90000 now { Rtp.zero with payload := RTP_AV_H264, seq := seq } 100

/-- A NACK arrives. -/
def SendOp.nack (now : Nat) (list : List Seq) : SendOp :=
  .rtcp fullCacheOf 0 90000 20 now
    { remoteSSRC := 1
      sr := false
      nack := true
      bye := false
      ntpSecs := 0
      ntpFrac := 0
      rtpTimestamp := 0
      nackList := list }

/-- One number three times, the second time too early. -/
def repeatedNacks : List SendOp :=
  [.send 1000 501, .nack 1010 [100], .nack 1020 [100, 600], .send 1030 502, .nack 1050 [100]]

theorem retransmissions_budgeted_repeated :
    Budgeted smallTrans.config [sendCall fullCacheOf true 20 1010 501 501 100,
      sendCall fullCacheOf true 20 1050 502 502 100] :=
  retransmissions_budgeted smallTrans (by decide) (by decide) repeatedNacks
    (Along.of_check (p := fun l op => decide (op.Keeps smallTrans l))
      (fun _ _ h => of_decide_eq_true h) repeatedNacks (by decide +kernel)) rfl

/-- One number, then two others, which push it out of `_nacks`, and the first one again. -/
def floodedNacks : List SendOp :=
  [.send 1000 501, .nack 1000 [100], .nack 1000 [101, 102], .send 1001 502, .nack 1001 [100]]

/-- The entry of number 100 is forgotten, and the packet is sent again after a millisecond. -/
theorem not_budgeted_flooded :
    ∃ l, SendLedger.new.run smallTrans floodedNacks = .ok l ∧
      ¬ Budgeted smallTrans.config l.calls := by
  refine ⟨_, rfl, fun h => ?_⟩
  have hspaced := (h [sendCall fullCacheOf true 20 1000 501 501 100,
    sendCall fullCacheOf true 20 1000 501 501 101, sendCall fullCacheOf true 20 1000 501 501 102]
    (sendCall fullCacheOf true 20 1001 502 502 100) [] rfl).spaced
    (sendCall fullCacheOf true 20 1000 501 501 100) List.mem_cons_self (by decide)
  exact absurd hspaced.2 (by decide)

end Runs

end RtcMcu.RtpTrans
