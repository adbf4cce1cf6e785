import RtcMcu.Lib.Each
import RtcMcu.RtpTrans.NackSets

/-!
# Accounting for NACKs

Each entry of `_nacks` counts how often its number was asked for. The timer raises the count while
it collects the numbers that are due, and only then looks whether the list became dirty too long ago
and breaks off before `_send_rtcp`. So a number may be counted that was not asked for.

A `Ledger` notes beside the session the times of the messages that contain a number, from the
creation of its entry on. In every run in which no tick breaks off with a list the entries agree
with the ledger (`nacks_accounted`).
-/

namespace RtcMcu.RtpTrans

open RtcMcu.Avformat RtcMcu.Serial

/-! ## The ledger -/

/-- A session, the last reading of the clock, and for each number the times of the NACKs with it
that were sent since its entry was created. -/
structure Ledger where
  session : TimedSession
  clock : Nat
  sent : Seq → List Nat

def Ledger.new : Ledger := { session := TimedSession.new, clock := 0, sent := fun _ => [] }

/-- The NACK a step passes to `_send_rtcp`. -/
def TimedSession.sends (cfg : TimerConfig) (s : TimedSession) : SessionOp → Option (List Seq)
  | .timer now skip => (s.processNacks cfg now skip).2
  | _ => none

/-- The reading of the clock in a step. -/
def SessionOp.now : SessionOp → Option Nat
  | .media _ _ now _ _ => some now
  | .timer now _ => some now
  | _ => none

/-- A step. A number that had no entry before it has nothing noted after it. -/
def Ledger.step (cfg : TimerConfig) (t : Ledger) (op : SessionOp) : Ledger where
  session := t.session.step cfg op
  clock := op.now.getD t.clock
  sent := fun seq =>
    if t.session.nacks.keys.contains seq then
      if ((t.session.sends cfg op).getD []).contains seq then t.sent seq ++ [op.now.getD t.clock]
      else t.sent seq
    else []

def Ledger.run (cfg : TimerConfig) (t : Ledger) (ops : List SessionOp) : Ledger :=
  ops.foldl (Ledger.step cfg) t

/-- The clock does not run backwards, and a tick finds the ssrc set. -/
structure Clocked (t : Ledger) (op : SessionOp) : Prop where
  forward : ∀ now, op.now = some now → t.clock ≤ now
  ssrc : ∀ now skip, op = .timer now skip → t.session.ssrc ≠ 0

/-- Each entry counts the NACKs noted for its number: at most 30, each more than
`min_same_nack_interval` after the one before. -/
structure Accounted (cfg : TimerConfig) (t : Ledger) : Prop where
  counts : ∀ e ∈ t.session.nacks, e.2.retransCount = (t.sent e.1).length
  atMost : ∀ e ∈ t.session.nacks, (t.sent e.1).length ≤ 30
  spaced : ∀ e ∈ t.session.nacks,
    (t.sent e.1).Pairwise fun a b => cfg.minSameNackInterval.toNat < b - a

/-- The timer goes through `_nacks`. -/
def TimedSession.isNackTime (cfg : TimerConfig) (now : Nat) (s : TimedSession) : Prop :=
  0 < cfg.maxNacklstSize ∧
    (s.lastProcessNackts = 0 ∨ cfg.nackInterval.toNat < now - s.lastProcessNackts)

/-- An entry goes on the list. -/
def NackRetransInfo.isCollected (cfg : TimerConfig) (now : Nat) (skip : Bool)
    (info : NackRetransInfo) : Bool :=
  info.isDue cfg now && !info.isSkipped skip

/-- A tick does not break off with a list: its clock is set, and if it collects a number then
`_nacks` is too large, or never was dirty, or became so at most `min_same_nack_interval` ago. -/
def SessionOp.Sends (cfg : TimerConfig) (s : TimedSession) : SessionOp → Prop
  | .timer now skip =>
    s.isNackTime cfg now → (∃ e ∈ s.nacks, e.2.isCollected cfg now (skip e.1) = true) →
      0 < now ∧ (s.isNacklistToolarge cfg.toRTPTransConfig = true ∨ s.lastNacksDirty = 0 ∨
        now - s.lastNacksDirty ≤ cfg.minSameNackInterval.toNat)
  | _ => True

/-! ## Entries of the map -/

/-- An entry that was never asked for. -/
def NackRetransInfo.fresh : NackRetransInfo := { time := 0, retransCount := 0 }

section Entries

variable {m : NackMap} {e : Seq × NackRetransInfo}

theorem mem_insert {x : Seq} (h : e ∈ m.insert x) :
    e ∈ m ∨ x ∉ m.keys ∧ e = (x, NackRetransInfo.fresh) := by
  rw [NackMap.insert] at h
  split at h
  · exact .inl h
  · next hnew =>
    rcases List.mem_append.mp h with h | h
    · exact .inl ((List.takeWhile_sublist _).mem h)
    rcases List.mem_cons.mp h with rfl | h
    · exact .inr ⟨fun hin => hnew (mem_keys.mp hin), rfl⟩
    · exact .inl ((List.dropWhile_sublist _).mem h)

theorem mem_foldl_insert {xs : List Seq} (h : e ∈ xs.foldl NackMap.insert m) :
    e ∈ m ∨ e.1 ∉ m.keys ∧ e.2 = NackRetransInfo.fresh := by
  induction xs generalizing m with
  | nil => exact .inl h
  | cons x xs ih =>
    rcases ih h with hin | ⟨hnew, hfresh⟩
    · rcases mem_insert hin with hin | ⟨hnew, rfl⟩
      · exact .inl hin
      · exact .inr ⟨hnew, rfl⟩
    · exact .inr ⟨fun hk => hnew (mem_keys_insert.mpr (.inr hk)), hfresh⟩

theorem keys_sublist {m' : NackMap} (h : m'.Sublist m) : m'.keys.Sublist m.keys :=
  h.map Prod.fst

theorem evictNacks_sublist (cfg : RTPTransConfig) (lastseq : Seq) (m : NackMap) :
    (evictNacks cfg lastseq m).Sublist m := by
  rw [evictNacks]
  refine (List.dropWhile_sublist _).trans ?_
  split
  · exact List.Sublist.refl m
  · exact List.drop_sublist _ m

/-- After a media packet an entry is one that was there before, or new. -/
theorem mem_nacks_media {env : RecvEnv} {s : RTPRecvSession} {pkt : Rtp} {len : Nat}
    (h : e ∈ (s.onHandleRtpNack env pkt len).nacks) :
    e ∈ s.nacks ∨ e.1 ∉ s.nacks.keys ∧ e.2 = NackRetransInfo.fresh := by
  have hstart : (s.started env pkt).nacks = s.nacks ∨
      (s.started env pkt).nacks = [] ∧ (s.started env pkt).lastseq = pkt.seq := by
    cases hjump : timestampJump (mediaTimeBase env.audioTimeBase env.videoTimeBase pkt)
        pkt.timestamp s.lastRtpTimestamp with
    | true =>
      rw [RTPRecvSession.started, startNack_jump hjump]
      exact .inr ⟨rfl, rfl⟩
    | false =>
      rw [RTPRecvSession.started, startNack_go hjump]
      exact .inl rfl
  by_cases hdup : pkt.seq ∈ (s.started env pkt).hisNacks
  · rw [onHandleRtpNack_duplicate hdup] at h
    rcases hstart with hsame | ⟨hnil, -⟩
    · exact .inl (hsame ▸ h)
    · rw [hnil] at h
      cases h
  · rw [(onHandleRtpNack_nacks len hdup).2.1] at h
    have hwith := (evictNacks_sublist _ _ _).mem h
    have herase : e ∈ (s.started env pkt).nacks.erase pkt.seq → e ∈ (s.started env pkt).nacks :=
      fun hin => List.mem_of_mem_filter hin
    rw [RTPRecvSession.nacksWith] at hwith
    rcases hstart with hsame | ⟨hnil, hlast⟩
    · rw [hsame] at hwith herase
      split at hwith
      · exact .inl hwith
      split at hwith
      · rw [RTPRecvSession.nackGap, hsame] at hwith
        exact mem_foldl_insert hwith
      · exact .inl (herase hwith)
    · -- the jump leaves no gap to fill
      rw [hlast, isNewerSeq_eq, newer_irrefl, hnil, if_neg Bool.false_ne_true] at hwith
      split at hwith <;> cases hwith

/-! ## Keys occur once -/

theorem nodup_insert (x : Seq) (h : m.keys.Nodup) : (m.insert x).keys.Nodup := by
  rw [keys_insert]
  split
  · exact h
  · next hnew =>
    have hperm : (insertKey m.keys x).Perm (x :: m.keys) := by
      have hsplit := List.takeWhile_append_dropWhile (p := fun k => newer x k) (l := m.keys)
      refine List.perm_middle.trans ?_
      rw [hsplit]
    exact hperm.nodup_iff.mpr (List.nodup_cons.mpr ⟨hnew, h⟩)

theorem nodup_foldl_insert (xs : List Seq) (h : m.keys.Nodup) :
    (NackMap.keys (xs.foldl NackMap.insert m)).Nodup := by
  induction xs generalizing m with
  | nil => exact h
  | cons x xs ih => exact ih (nodup_insert x h)

theorem nodup_media {s : RTPRecvSession} (env : RecvEnv) (pkt : Rtp) (len : Nat)
    (h : s.nacks.keys.Nodup) : (s.onHandleRtpNack env pkt len).nacks.keys.Nodup := by
  have hstart : (s.started env pkt).nacks.keys.Nodup := by
    cases hjump : timestampJump (mediaTimeBase env.audioTimeBase env.videoTimeBase pkt)
        pkt.timestamp s.lastRtpTimestamp with
    | true =>
      rw [RTPRecvSession.started, startNack_jump hjump]
      exact List.nodup_nil
    | false =>
      rw [RTPRecvSession.started, startNack_go hjump]
      exact h
  by_cases hdup : pkt.seq ∈ (s.started env pkt).hisNacks
  · rw [onHandleRtpNack_duplicate hdup]
    exact hstart
  · rw [(onHandleRtpNack_nacks len hdup).2.1]
    refine (keys_sublist (evictNacks_sublist _ _ _)).nodup ?_
    rw [RTPRecvSession.nacksWith]
    split
    · exact hstart
    split
    · exact nodup_foldl_insert _ hstart
    · show ((s.started env pkt).nacks.erase pkt.seq).keys.Nodup
      rw [keys_erase]
      exact List.filter_sublist.nodup hstart

end Entries

/-! ## The timer -/

section Timer

variable {cfg : TimerConfig} {now : Nat} {m : NackMap}

/-- What collecting does to one entry. -/
def NackRetransInfo.collected (cfg : TimerConfig) (now : Nat) (skip : Bool)
    (info : NackRetransInfo) : NackRetransInfo :=
  if info.isCollected cfg now skip then { time := now, retransCount := info.retransCount + 1 }
  else info

theorem collect_eq (cfg : TimerConfig) (now : Nat) (skip : Seq → Bool) (m : NackMap) :
    NackMap.collect cfg now skip m =
      (m.map fun e => (e.1, e.2.collected cfg now (skip e.1)),
        (m.filter fun e => e.2.isCollected cfg now (skip e.1)).map (·.1)) := by
  induction m with
  | nil => rfl
  | cons e m ih =>
    obtain ⟨seq, info⟩ := e
    rw [NackMap.collect, ih, List.map_cons, List.filter_cons]
    cases hcollected : info.isCollected cfg now (skip seq) with
    | true =>
      rw [NackRetransInfo.isCollected] at hcollected
      simp only [hcollected, NackRetransInfo.collected, NackRetransInfo.isCollected, if_true,
        List.map_cons]
    | false =>
      rw [NackRetransInfo.isCollected] at hcollected
      simp only [hcollected, NackRetransInfo.collected, NackRetransInfo.isCollected, if_false,
        Bool.false_eq_true]

/-- Keys that occur once have one entry. -/
theorem entry_unique (h : m.keys.Nodup) {seq : Seq} {info info' : NackRetransInfo}
    (hin : (seq, info) ∈ m) (hin' : (seq, info') ∈ m) : info = info' := by
  induction m with
  | nil => cases hin
  | cons e m ih =>
    obtain ⟨hnew, hrest⟩ := List.nodup_cons.mp h
    have habsent : ∀ i, (e.1, i) ∉ m := fun i hi => hnew (List.mem_map.mpr ⟨_, hi, rfl⟩)
    rcases List.mem_cons.mp hin with rfl | hrec
    · rcases List.mem_cons.mp hin' with heq | hrec'
      · exact congrArg Prod.snd heq.symm
      · exact absurd hrec' (habsent info')
    · rcases List.mem_cons.mp hin' with rfl | hrec'
      · exact absurd hrec (habsent info)
      · exact ih hrest hrec hrec'

/-- A number is on the list exactly if its entry is collected. -/
theorem mem_collect_iff (cfg : TimerConfig) (now : Nat) (skip : Seq → Bool) (h : m.keys.Nodup) {seq : Seq} {info : NackRetransInfo}
    (hin : (seq, info) ∈ m) :
    seq ∈ (NackMap.collect cfg now skip m).2 ↔ info.isCollected cfg now (skip seq) = true := by
  rw [collect_eq, List.mem_map]
  constructor
  · rintro ⟨⟨seq', info'⟩, hmem, rfl⟩
    obtain ⟨hmem, hcollected⟩ := List.mem_filter.mp hmem
    rwa [entry_unique h hin hmem]
  · exact fun hcollected => ⟨(seq, info), List.mem_filter.mpr ⟨hin, hcollected⟩, rfl⟩

/-- What a tick that goes through `_nacks` leaves of them, and what it sends. -/
theorem processNacks_run (skip : Seq → Bool) {s : TimedSession} (htime : s.isNackTime cfg now) (hany : s.nacks ≠ []) :
    let trimmed := s.toRTPSession.trimNacks cfg.toRTPTransConfig now
    let list := (NackMap.collect cfg now skip trimmed.nacks).2
    (s.processNacks cfg now skip).1.nacks = (NackMap.collect cfg now skip trimmed.nacks).1 ∧
      (s.processNacks cfg now skip).2 =
        if s.ssrc ≠ 0 ∧ list ≠ [] ∧
            ({ trimmed with isDirty := false } : RTPSession).heldBack cfg.toRTPTransConfig now = false
        then some list else none := by
  have hfull : s.nacks.isEmpty = false := by
    cases hnacks : s.nacks with
    | nil => exact absurd hnacks hany
    | cons e m => rfl
  have hssrc : (s.toRTPSession.trimNacks cfg.toRTPTransConfig now).ssrc = s.ssrc := by
    rw [RTPSession.trimNacks]
    split <;> rfl
  unfold TimedSession.isNackTime at htime
  unfold TimedSession.processNacks
  rw [if_pos htime, hfull, if_neg Bool.false_ne_true]
  refine ⟨rfl, ?_⟩
  dsimp only
  rw [hssrc]
  rfl

/-- Any other tick leaves `_nacks` alone and sends nothing. -/
theorem processNacks_idle (skip : Seq → Bool) {s : TimedSession}
    (h : ¬ s.isNackTime cfg now ∨ s.nacks = []) :
    (s.processNacks cfg now skip).1.nacks = s.nacks ∧ (s.processNacks cfg now skip).2 = none := by
  unfold TimedSession.isNackTime at h
  unfold TimedSession.processNacks
  by_cases htime : 0 < cfg.maxNacklstSize ∧
      (s.lastProcessNackts = 0 ∨ cfg.nackInterval.toNat < now - s.lastProcessNackts)
  · have hnil := h.resolve_left fun hnot => hnot htime
    have hempty : s.nacks.isEmpty = true := List.isEmpty_iff.mpr hnil
    rw [if_pos htime, if_pos hempty]
    exact ⟨rfl, rfl⟩
  · rw [if_neg htime]
    exact ⟨rfl, rfl⟩

theorem trimNacks_sublist (cfg : RTPTransConfig) (now : Nat) (s : RTPSession) :
    (s.trimNacks cfg now).nacks.Sublist s.nacks := by
  rw [RTPSession.trimNacks]
  split
  · exact List.drop_sublist _ _
  · exact List.Sublist.refl _

/-- A list that became dirty lately, or now, is not held back. -/
theorem not_heldBack {cfg : RTPTransConfig} {s : RTPSession}
    (h : s.isNacklistToolarge cfg = true ∨ s.lastNacksDirty = 0 ∨
      now - s.lastNacksDirty ≤ cfg.minSameNackInterval.toNat) :
    ({ s.trimNacks cfg now with isDirty := false } : RTPSession).heldBack cfg now = false := by
  rw [RTPSession.heldBack, RTPSession.trimNacks]
  by_cases hlarge : s.isNacklistToolarge cfg = true
  · simp only [if_pos hlarge, Nat.sub_self, Nat.not_lt_zero, decide_false, Bool.and_false]
  · simp only [if_neg hlarge]
    rcases h with hlarge' | hzero | hlate
    · exact absurd hlarge' hlarge
    · simp only [hzero, Nat.lt_irrefl, decide_false, Bool.and_false, Bool.false_and]
    · simp only [Nat.not_lt.mpr hlate, decide_false, Bool.and_false]

end Timer

/-! ## Runs -/

section Runs

variable {cfg : TimerConfig} {t : Ledger}

/-- An entry agrees with the times noted for its number. -/
structure EntryAccounted (cfg : TimerConfig) (info : NackRetransInfo) (times : List Nat) : Prop where
  counts : info.retransCount = times.length
  atMost : info.retransCount ≤ maxNackCount
  spaced : times.Pairwise fun a b => cfg.minSameNackInterval.toNat < b - a
  last : ∀ a ∈ times, 0 < a ∧ a ≤ info.time

theorem EntryAccounted.fresh (cfg : TimerConfig) : EntryAccounted cfg NackRetransInfo.fresh [] :=
  ⟨rfl, Nat.zero_le _, List.Pairwise.nil, fun _ ha => absurd ha List.not_mem_nil⟩

/-- One more NACK for an entry that was due. -/
theorem EntryAccounted.collected {info : NackRetransInfo} {times : List Nat} {now : Nat}
    {skip : Bool} (h : EntryAccounted cfg info times) (hnow : 0 < now)
    (hcollected : info.isCollected cfg now skip = true) :
    EntryAccounted cfg (info.collected cfg now skip) (times ++ [now]) := by
  rw [NackRetransInfo.collected, if_pos hcollected]
  obtain ⟨hdue, -⟩ := Bool.and_eq_true_iff.mp hcollected
  obtain ⟨hlate, hfew⟩ := Bool.and_eq_true_iff.mp hdue
  rw [Bool.or_eq_true, beq_iff_eq, decide_eq_true_eq] at hlate
  have hfew' := of_decide_eq_true hfew
  have hbefore : ∀ a ∈ times, cfg.minSameNackInterval.toNat < now - a := by
    intro a ha
    obtain ⟨hpos, hle⟩ := h.last a ha
    omega
  refine ⟨?_, hfew', ?_, fun a ha => ?_⟩
  · rw [List.length_append, List.length_singleton, h.counts]
  · refine List.pairwise_append.mpr ⟨h.spaced, List.pairwise_singleton _ _, fun a ha b hb => ?_⟩
    rw [List.mem_singleton.mp hb]
    exact hbefore a ha
  · rcases List.mem_append.mp ha with ha | ha
    · have hfar := hbefore a ha
      exact ⟨(h.last a ha).1, by show a ≤ now; omega⟩
    · rw [List.mem_singleton.mp ha]
      exact ⟨hnow, Nat.le_refl now⟩

/-- Every key occurs once, and its entry agrees with the ledger. -/
structure Booked (cfg : TimerConfig) (t : Ledger) : Prop where
  nodup : t.session.nacks.keys.Nodup
  entries : ∀ e ∈ t.session.nacks, EntryAccounted cfg e.2 (t.sent e.1)

theorem Booked.new (cfg : TimerConfig) : Booked cfg Ledger.new :=
  ⟨List.nodup_nil, fun _ he => absurd he List.not_mem_nil⟩

theorem mem_keys_of_mem {m : NackMap} {e : Seq × NackRetransInfo} (h : e ∈ m) : e.1 ∈ m.keys :=
  List.mem_map.mpr ⟨e, h, rfl⟩

/-- A step that sends no NACK and whose entries were there before or are new. -/
theorem booked_of_silent (h : Booked cfg t) (op : SessionOp)
    (hsilent : t.session.sends cfg op = none)
    (hnodup : (t.step cfg op).session.nacks.keys.Nodup)
    (hnacks : ∀ e ∈ (t.step cfg op).session.nacks,
      e ∈ t.session.nacks ∨ e.1 ∉ t.session.nacks.keys ∧ e.2 = NackRetransInfo.fresh) :
    Booked cfg (t.step cfg op) := by
  refine ⟨hnodup, fun e he => ?_⟩
  have hsent : (t.step cfg op).sent e.1 =
      if t.session.nacks.keys.contains e.1 then t.sent e.1 else [] := by
    show (if t.session.nacks.keys.contains e.1 then
      if ((t.session.sends cfg op).getD []).contains e.1 then _ else _ else _) = _
    rw [hsilent, Option.getD_none, List.contains_nil, if_neg Bool.false_ne_true]
  rw [hsent]
  rcases hnacks e he with hold | ⟨hnew, hfresh⟩
  · rw [if_pos (List.contains_iff_mem.mpr (mem_keys_of_mem hold))]
    exact h.entries e hold
  · rw [if_neg fun hin => hnew (List.contains_iff_mem.mp hin), hfresh]
    exact EntryAccounted.fresh cfg

/-- A tick. -/
theorem booked_timer (h : Booked cfg t) (now : Nat) (skip : Seq → Bool) (hssrc : t.session.ssrc ≠ 0)
    (hsends : (SessionOp.timer now skip).Sends cfg t.session) :
    Booked cfg (t.step cfg (.timer now skip)) := by
  by_cases hidle : ¬ t.session.isNackTime cfg now ∨ t.session.nacks = []
  · obtain ⟨hsame, hnone⟩ := processNacks_idle skip hidle
    refine booked_of_silent h _ hnone ?_ fun e he => .inl ?_
    · show (t.session.processNacks cfg now skip).1.nacks.keys.Nodup
      rw [hsame]
      exact h.nodup
    · exact hsame ▸ he
  · rw [not_or, not_not] at hidle
    obtain ⟨htime, hany⟩ := hidle
    obtain ⟨hnacks, hsent⟩ := processNacks_run skip htime hany
    have htrim := trimNacks_sublist cfg.toRTPTransConfig now t.session.toRTPSession
    have hnodup : (t.session.toRTPSession.trimNacks cfg.toRTPTransConfig now).nacks.keys.Nodup :=
      (keys_sublist htrim).nodup h.nodup
    refine ⟨?_, fun e he => ?_⟩
    · show (t.session.processNacks cfg now skip).1.nacks.keys.Nodup
      rw [hnacks, keys_collect]
      exact hnodup
    have he' : e ∈ (t.session.processNacks cfg now skip).1.nacks := he
    rw [hnacks, collect_eq] at he'
    obtain ⟨old, hold, rfl⟩ := List.mem_map.mp he'
    have hin := htrim.mem hold
    have haccount := h.entries old hin
    have hlisted := mem_collect_iff cfg now skip hnodup hold
    show EntryAccounted cfg (old.2.collected cfg now (skip old.1))
      (if t.session.nacks.keys.contains old.1 then
        if (((t.session.processNacks cfg now skip).2).getD []).contains old.1 then _ else _ else _)
    rw [if_pos (List.contains_iff_mem.mpr (mem_keys_of_mem hin))]
    cases hcollected : old.2.isCollected cfg now (skip old.1) with
    | true =>
      obtain ⟨hnow, hready⟩ := hsends htime ⟨old, hin, hcollected⟩
      have hlist := hlisted.mpr hcollected
      rw [if_pos ⟨hssrc, List.ne_nil_of_mem hlist, not_heldBack hready⟩] at hsent
      rw [hsent, Option.getD_some, if_pos (List.contains_iff_mem.mpr hlist)]
      exact haccount.collected hnow hcollected
    | false =>
      have hnot : old.1 ∉ ((t.session.processNacks cfg now skip).2).getD [] := by
        rw [hsent]
        split
        · intro hmem
          rw [hlisted.mp hmem] at hcollected
          cases hcollected
        · exact List.not_mem_nil
      rw [if_neg fun hmem => hnot (List.contains_iff_mem.mp hmem), NackRetransInfo.collected, if_neg (Bool.eq_false_iff.mp hcollected)]
      exact haccount

/-- A step that leaves `_nacks`. -/
theorem booked_of_same (h : Booked cfg t) (op : SessionOp) (hsilent : t.session.sends cfg op = none)
    (hsame : (t.step cfg op).session.nacks = t.session.nacks) : Booked cfg (t.step cfg op) :=
  booked_of_silent h op hsilent (hsame ▸ h.nodup) fun _ he => .inl (hsame ▸ he)

theorem booked_step (h : Booked cfg t) (op : SessionOp)
    (hop : Clocked t op ∧ op.Sends cfg t.session) : Booked cfg (t.step cfg op) := by
  cases op with
  | media audio video now pkt len =>
    exact booked_of_silent h _ rfl (nodup_media _ pkt len h.nodup) fun _ he => mem_nacks_media he
  | arrive seq => exact booked_of_same h _ rfl (clearAtWrap_same t.session.toRTPRecvSession seq).nacks
  | wrap seq => exact booked_of_same h _ rfl (clearAtWrap_same t.session.toRTPRecvSession seq).nacks
  | mark seq => exact booked_of_same h _ rfl rfl
  | recovered seq =>
    refine booked_of_silent h _ rfl ?_ fun e he => .inl (List.mem_of_mem_filter he)
    show (t.session.nacks.erase seq).keys.Nodup
    rw [keys_erase]
    exact List.filter_sublist.nodup h.nodup
  | timer now skip => exact booked_timer h now skip (hop.1.ssrc now skip rfl) hop.2
  | other r => exact booked_of_same h _ rfl rfl

/-- In every run with a clock that does not run backwards and an ssrc that is set, in which no tick
breaks off with a list, the entries of `_nacks` count the NACKs that were sent. -/
theorem nacks_accounted (cfg : TimerConfig) (ops : List SessionOp)
    (hops : Each (Ledger.step cfg) (fun t op => Clocked t op ∧ op.Sends cfg t.session)
      Ledger.new ops) : Accounted cfg (Ledger.new.run cfg ops) := by
  have hbooked : Booked cfg (Ledger.new.run cfg ops) :=
    hops.invariant (fun _ op h hop => booked_step h op hop) (Booked.new cfg)
  refine ⟨fun e he => (hbooked.entries e he).counts, fun e he => ?_,
    fun e he => (hbooked.entries e he).spaced⟩
  have hentry := hbooked.entries e he
  exact hentry.counts ▸ hentry.atMost

/-- The session takes the ssrc 1. -/
def SessionOp.takeSsrc : SessionOp := .other { RTPRecvSession.new.rest with ssrc := 1 }

/-- A gap, then two ticks while the list is dirty. -/
def promptTicks : List SessionOp :=
  [.takeSsrc, .videoNow 1000 1, .videoNow 1000 3, .timer 1010 fun _ => false,
    .videoNow 1030 4, .timer 1041 fun _ => false]

/-- The same, but the second tick comes 41 milliseconds after the last packet. -/
def lateTicks : List SessionOp :=
  [.takeSsrc, .videoNow 1000 1, .videoNow 1000 3, .timer 1010 fun _ => false,
    .timer 1041 fun _ => false]

theorem clocked_media {now : Nat} {seq : Seq} (h : t.clock ≤ now) :
    Clocked t (.videoNow now seq) :=
  ⟨fun _ hnow => Option.some.inj hnow ▸ h, nofun⟩

theorem clocked_timer {now : Nat} {skip : Seq → Bool} (h : t.clock ≤ now)
    (hssrc : t.session.ssrc ≠ 0) : Clocked t (.timer now skip) :=
  ⟨fun _ hnow => Option.some.inj hnow ▸ h, fun _ _ _ => hssrc⟩

theorem nacks_accounted_prompt :
    Accounted TimerConfig.default (Ledger.new.run TimerConfig.default promptTicks) :=
  nacks_accounted TimerConfig.default promptTicks
    ⟨⟨⟨nofun, nofun⟩, trivial⟩, ⟨clocked_media (by decide), trivial⟩,
      ⟨clocked_media (by decide), trivial⟩,
      ⟨clocked_timer (by decide) (by decide), fun _ _ => by decide⟩,
      ⟨clocked_media (by decide), trivial⟩,
      ⟨clocked_timer (by decide) (by decide), fun _ _ => by decide⟩, trivial⟩

/-- The second tick counts number 2 and breaks off: two are counted and one was sent. -/
theorem not_accounted_late :
    Each (Ledger.step TimerConfig.default) Clocked Ledger.new lateTicks ∧
      ¬ Accounted TimerConfig.default (Ledger.new.run TimerConfig.default lateTicks) := by
  refine ⟨⟨⟨nofun, nofun⟩, clocked_media (by decide), clocked_media (by decide),
    clocked_timer (by decide) (by decide), clocked_timer (by decide) (by decide), trivial⟩,
    fun h => ?_⟩
  have hcounts := h.counts (2, { time := 1041, retransCount := 2 }) (by decide)
  exact absurd hcounts (by decide)

end Runs

end RtcMcu.RtpTrans
