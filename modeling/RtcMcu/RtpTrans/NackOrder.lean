import RtcMcu.Lib.Each
import RtcMcu.RtpTrans.NackSets

/-!
# The order of the NACK sets

`SequenceNumberLessThan` orders the keys of `_nacks` and `_his_nacks` only as long as these lie
within half a turn. `accesses` lists every lookup, insertion and erasure a step makes, with the keys
that are present and the key that is used.

A packet may lie up to half a turn ahead of the newest one and another up to half a turn behind it,
and the late one is put into `_his_nacks` before anything is aged out. The keys stay within half a
turn if no packet lies more than `front` numbers ahead or `back` numbers behind and the two sum up
to less than half a turn (`nack_sets_ordered`). The lists of the model behave as the `std::set` and
the `std::map` do while that holds; past it the order of the tree decides, which is left open.
-/

namespace RtcMcu.RtpTrans

open RtcMcu.Avformat RtcMcu.Serial

/-! ## Accesses -/

/-- One access to a set: the keys that are present and the key that is used. -/
structure Access where
  keys : List Seq
  key : Seq
  deriving DecidableEq

/-- `erase(begin())`, `n` times. -/
def beginErasures : Nat → List Seq → List Access
  | 0, _ => []
  | _ + 1, [] => []
  | n + 1, key :: keys => ⟨key :: keys, key⟩ :: beginErasures n keys

/-- `insert`, one number after the other. -/
def insertions : NackMap → List Seq → List Access
  | _, [] => []
  | m, seq :: seqs => ⟨m.keys, seq⟩ :: insertions (m.insert seq) seqs

/-- `_his_nacks` in `_on_handle_rtp_nack`: `find`, and for a new number `insert` and the ageing. -/
def RTPRecvSession.hisAccesses (cfg : RTPTransConfig) (s : RTPRecvSession) (seq : Seq) :
    List Access :=
  if s.hisNacks.contains seq then [⟨s.hisNacks, seq⟩]
  else
    let inserted := insertHisNack s.hisNacks seq
    ⟨s.hisNacks, seq⟩ :: ⟨s.hisNacks, seq⟩ ::
      beginErasures (inserted.length - (evictHisNacks cfg seq inserted).length) inserted

/-- `_nacks` in `_on_handle_rtp_nack`: the gap is inserted, or the number is looked up and what is
found erased, and the front is trimmed. -/
def RTPRecvSession.nackAccesses (cfg : RTPTransConfig) (s : RTPRecvSession) (seq : Seq) :
    List Access :=
  let before := s.nacksWith cfg seq
  (if cfg.maxNacklstSize = 0 then []
    else if isNewerSeq seq s.lastseq then insertions s.nacks (s.missedBefore seq)
    else [⟨s.nacks.keys, seq⟩]) ++
  beginErasures (before.length - (evictNacks cfg (s.lastseqWith seq) before).length) before.keys

/-- The accesses a step makes. -/
def TimedSession.accesses (cfg : TimerConfig) (s : TimedSession) : SessionOp → List Access
  | .media audio video _ pkt _ =>
    let s := s.toRTPRecvSession.startNack (mediaTimeBase audio video pkt) pkt
    s.hisAccesses cfg.toRTPTransConfig pkt.seq ++
      if s.hisNacks.contains pkt.seq then [] else s.nackAccesses cfg.toRTPTransConfig pkt.seq
  | .recovered seq => [⟨s.nacks.keys, seq⟩]
  | .timer now skip =>
    beginErasures (s.nacks.length - (s.processNacks cfg now skip).1.nacks.length) s.nacks.keys
  | _ => []

/-- The keys present and the key used lie within half a turn, `SequenceNumberLessThan` is a strict
weak order on them, and `begin()` is the oldest. -/
structure Access.Sound (a : Access) : Prop where
  halfTurn : HalfTurn (a.key :: a.keys)
  irrefl : ∀ x ∈ a.key :: a.keys, seqLess x x = false
  trans : ∀ x ∈ a.key :: a.keys, ∀ y ∈ a.key :: a.keys, ∀ z ∈ a.key :: a.keys,
    seqLess x y = true → seqLess y z = true → seqLess x z = true
  total : ∀ x ∈ a.key :: a.keys, ∀ y ∈ a.key :: a.keys, x ≠ y →
    seqLess x y = true ∨ seqLess y x = true
  oldest : ∀ first rest, a.keys = first :: rest → ∀ x ∈ rest, seqLess first x = true

theorem Access.sound_of_ordered {a : Access} (hturn : HalfTurn (a.key :: a.keys))
    (hord : Ordered a.keys) : a.Sound := by
  refine ⟨hturn, fun x _ => (seqLess_eq x x).trans (newer_irrefl x), ?_, ?_, ?_⟩
  · intro x hx y hy z hz hxy hyz
    rw [seqLess_eq] at hxy hyz ⊢
    exact hturn.newer_trans hx hy hz hxy hyz
  · intro x hx y hy hne
    rw [seqLess_eq, seqLess_eq]
    exact hturn.newer_total hx hy hne
  · intro first rest hkeys x hx
    rw [hkeys] at hord
    rw [seqLess_eq]
    exact List.rel_of_pairwise_cons hord hx

/-! ## Sets in order -/

section Sets

variable {d : Nat} {latest seq : Seq} {keys : List Seq} {m : NackMap}

theorem sound_of_within (h : OrderedWithin d latest keys) (hd : d < 2 ^ 15)
    (hseq : ahead seq latest ≤ d) : Access.Sound ⟨keys, seq⟩ :=
  Access.sound_of_ordered (h.halfTurn hd (by decide) hseq) h.ordered

/-- Each of the numbers put in finds the keys in order and leaves them so. -/
theorem insertions_within (h : OrderedWithin d latest m.keys) (hd : d < 2 ^ 15) {seqs : List Seq}
    (hseqs : Behind d latest seqs) :
    (∀ a ∈ insertions m seqs, a.Sound) ∧
      OrderedWithin d latest (NackMap.keys (seqs.foldl NackMap.insert m)) := by
  induction seqs generalizing m with
  | nil => exact ⟨fun a ha => absurd ha List.not_mem_nil, h⟩
  | cons seq seqs ih =>
    have hseq : ahead seq latest ≤ d := hseqs seq List.mem_cons_self
    obtain ⟨hsound, hkeys⟩ := ih (insert_within h hd hseq)
      (hseqs.mono (Nat.le_refl d) fun k hk => List.mem_cons_of_mem seq hk)
    refine ⟨fun a ha => ?_, hkeys⟩
    rcases List.mem_cons.mp ha with rfl | ha
    · exact sound_of_within h hd hseq
    · exact hsound a ha

theorem beginErasures_sound (h : OrderedWithin d latest keys) (hd : d < 2 ^ 15) (n : Nat) :
    ∀ a ∈ beginErasures n keys, a.Sound := by
  induction keys generalizing n with
  | nil =>
    intro a ha
    cases n <;> cases ha
  | cons key keys ih =>
    cases n with
    | zero => exact fun a ha => absurd ha List.not_mem_nil
    | succ n =>
      intro a ha
      rcases List.mem_cons.mp ha with rfl | ha
      · exact sound_of_within h hd (h.behind key List.mem_cons_self)
      · exact ih (h.sublist (List.sublist_cons_self key keys)) n a ha

end Sets

/-! ## Packets near the latest one -/

/-- A number lies at most `front` ahead of the latest one or `back` behind it. From 0 the session
takes any number for the latest one, so there only those ahead count. -/
def NearLatest (front back : Nat) (lastseq seq : Seq) : Prop :=
  (ahead lastseq seq ≤ front ∨ ahead seq lastseq ≤ back) ∧ (lastseq = 0 → ahead 0 seq ≤ front)

/-- The number of a packet is near, unless it is the first, also after a timestamp jump. -/
def SessionOp.Near (front back : Nat) (s : TimedSession) : SessionOp → Prop
  | .media audio video _ pkt _ =>
    s.hisNacks = [] ∨
      timestampJump (mediaTimeBase audio video pkt) pkt.timestamp s.lastRtpTimestamp = true ∨
      NearLatest front back s.lastseq pkt.seq
  | .recovered seq => s.hisNacks = [] ∨ ahead s.lastseq seq ≤ front ∨ ahead seq s.lastseq ≤ back
  | _ => True

/-- The sets are in order, and a session without history has seen no packet. -/
structure NacksWithin (back : Nat) (s : RTPRecvSession) : Prop where
  hisNacks : OrderedWithin back s.lastseq s.hisNacks
  nacks : OrderedWithin back s.lastseq s.nacks.keys
  unset : s.hisNacks = [] → s.nacks = [] ∧ s.lastseq = 0

/-- What the head of `_on_handle_rtp_nack` gives for a near number. -/
structure Started (front back : Nat) (s : RTPRecvSession) (seq : Seq) : Prop where
  hisNacks : OrderedWithin (back + front) (s.lastseqWith seq) s.hisNacks
  nacks : OrderedWithin (back + front) (s.lastseqWith seq) s.nacks.keys
  behind : ahead seq (s.lastseqWith seq) ≤ back + front
  late : s.lastseqWith seq ≠ seq → Behind back (s.lastseqWith seq) (seq :: s.hisNacks)
  gap : newer seq s.lastseq = true → ahead s.lastseq seq ≤ front
  duplicate : seq ∈ s.hisNacks → NacksWithin back s

section Head

variable {front back : Nat} {s : RTPRecvSession} {seq : Seq}

theorem lastseqWith_self (h : s.lastseq = seq) : s.lastseqWith seq = seq := by
  refine lastseqWith_of_front ?_
  rw [h, ahead_self]
  decide

/-- Empty sets and the number itself as the latest one. -/
theorem Started.fresh (hhis : s.hisNacks = []) (hnacks : s.nacks = []) (hlast : s.lastseq = seq) :
    Started front back s seq where
  hisNacks := hhis ▸ OrderedWithin.nil _ _
  nacks := hnacks ▸ OrderedWithin.nil _ _
  behind := by rw [lastseqWith_self hlast, ahead_self]; exact Nat.zero_le _
  late := fun hne => absurd (lastseqWith_self hlast) hne
  gap := fun hnewer => by rw [hlast, newer_irrefl] at hnewer; cases hnewer
  duplicate := fun hin => by rw [hhis] at hin; cases hin

/-- What lies behind the latest number lies behind one that is ahead of it. -/
theorem within_of_front {latest : Seq} {keys : List Seq} (h : OrderedWithin back latest keys)
    (hseq : ahead latest seq ≤ front) (hturn : back + front < 2 ^ 15) :
    OrderedWithin (back + front) seq keys := by
  refine ⟨h.ordered, fun k hk => ?_⟩
  have hbehind := h.behind k hk
  rw [ahead_trans (a := k) (b := latest) (c := seq) (by omega)]
  omega

/-- A number ahead of the latest one. -/
theorem Started.of_front (h : NacksWithin back s) (hseq : ahead s.lastseq seq ≤ front)
    (hturn : back + front < 2 ^ 15) : Started front back s seq := by
  have hlast : s.lastseqWith seq = seq := lastseqWith_of_front (by omega)
  refine ⟨?_, ?_, ?_, fun hne => absurd hlast hne, fun _ => hseq, fun _ => h⟩
  · rw [hlast]
    exact within_of_front h.hisNacks hseq hturn
  · rw [hlast]
    exact within_of_front h.nacks hseq hturn
  · rw [hlast, ahead_self]
    exact Nat.zero_le _

/-- A number behind the latest one. -/
theorem Started.of_back (h : NacksWithin back s) (hseq : ahead seq s.lastseq ≤ back)
    (hturn : back + front < 2 ^ 15) : Started front back s seq := by
  have hlast : s.lastseqWith seq = s.lastseq := lastseqWith_of_back (by omega)
  refine ⟨?_, ?_, ?_, fun _ => ?_, fun hnewer => ?_, fun _ => h⟩
  · rw [hlast]
    exact h.hisNacks.mono (Nat.le_add_right back front)
  · rw [hlast]
    exact h.nacks.mono (Nat.le_add_right back front)
  · rw [hlast]
    omega
  · rw [hlast]
    exact fun k hk => (List.mem_cons.mp hk).elim (fun heq => heq ▸ hseq) (h.hisNacks.behind k)
  · rw [not_newer_of_back (by omega)] at hnewer
    cases hnewer

/-- The head of `_on_handle_rtp_nack` for a near number. -/
theorem started_of_near (h : NacksWithin back s) (timeBase : BitVec 32) (pkt : Rtp)
    (hnear : s.hisNacks = [] ∨ timestampJump timeBase pkt.timestamp s.lastRtpTimestamp = true ∨
      NearLatest front back s.lastseq pkt.seq) (hturn : back + front < 2 ^ 15) :
    Started front back (s.startNack timeBase pkt) pkt.seq := by
  cases hjump : timestampJump timeBase pkt.timestamp s.lastRtpTimestamp with
  | true =>
    rw [startNack_jump hjump]
    exact Started.fresh rfl rfl rfl
  | false =>
    rw [startNack_go hjump]
    by_cases hempty : s.hisNacks = []
    · obtain ⟨hnacks, hzero⟩ := h.unset hempty
      exact Started.fresh hempty hnacks (if_pos hzero)
    rcases hnear with hnil | htrue | ⟨hnear, hzero⟩
    · exact absurd hnil hempty
    · rw [hjump] at htrue
      cases htrue
    by_cases hlast : s.lastseq = 0
    · -- the number is taken for the latest one, from a genuine 0
      have hfront := hzero hlast
      have hself : ({ s with
          lastseq := if s.lastseq = 0 then pkt.seq else s.lastseq
          lastRtpTimestamp := pkt.timestamp } : RTPRecvSession).lastseqWith pkt.seq = pkt.seq :=
        lastseqWith_self (if_pos hlast)
      refine ⟨?_, ?_, ?_, fun hne => absurd hself hne, fun hnewer => ?_, fun hin => ?_⟩
      · rw [hself]
        exact within_of_front (hlast ▸ h.hisNacks) hfront hturn
      · rw [hself]
        exact within_of_front (hlast ▸ h.nacks) hfront hturn
      · rw [hself, ahead_self]
        exact Nat.zero_le _
      · rw [if_pos hlast, newer_irrefl] at hnewer
        cases hnewer
      · have hback : ahead pkt.seq 0 ≤ back := hlast ▸ h.hisNacks.behind pkt.seq hin
        have hseq : pkt.seq = 0 := by
          by_contra hne
          have hcomm := ahead_comm (Ne.symm hne)
          omega
        have hsame : (if s.lastseq = 0 then pkt.seq else s.lastseq) = s.lastseq := by
          rw [if_pos hlast, hseq, hlast]
        rw [hsame]
        exact ⟨h.hisNacks, h.nacks, h.unset⟩
    · have hsame : (if s.lastseq = 0 then pkt.seq else s.lastseq) = s.lastseq := if_neg hlast
      have h' : NacksWithin back
          { s with lastseq := s.lastseq, lastRtpTimestamp := pkt.timestamp } :=
        ⟨h.hisNacks, h.nacks, h.unset⟩
      rw [hsame]
      rcases hnear with hfront | hback
      · exact Started.of_front h' hfront hturn
      · exact Started.of_back h' hback hturn

end Head

/-! ## A step -/

section Step

variable {cfg : TimerConfig} {front back : Nat} {s : RTPRecvSession} {seq : Seq}

namespace Started

/-- The new number goes in its place. -/
theorem insertHisNack (h : Started front back s seq) (hturn : back + front < 2 ^ 15)
    (hnew : seq ∉ s.hisNacks) :
    OrderedWithin (back + front) (s.lastseqWith seq) (insertHisNack s.hisNacks seq) := by
  rw [insertHisNack_eq]
  exact h.hisNacks.insertKey hturn (by decide) h.behind hnew

/-- Ageing by the new number: what is left lies `max_packet_age` behind it, or the number is late
and nothing lay farther behind. -/
theorem evictHisNacks (h : Started front back s seq) (hturn : back + front < 2 ^ 15)
    (hon : cfg.maxPacketAge ≠ 0) (hage : cfg.maxPacketAge.toNat ≤ back) (hnew : seq ∉ s.hisNacks) :
    OrderedWithin back (s.lastseqWith seq) (evictHisNacks cfg.toRTPTransConfig seq
      (RtpTrans.insertHisNack s.hisNacks seq)) := by
  have hinsert := h.insertHisNack hturn hnew
  by_cases hlast : s.lastseqWith seq = seq
  · rw [hlast] at hinsert ⊢
    exact (dropWhile_within hinsert hturn hon (by omega)).mono hage
  · refine ⟨hinsert.ordered.sublist (List.dropWhile_sublist _), fun k hk => h.late hlast k ?_⟩
    exact List.mem_cons.mpr (mem_insertHisNack.mp ((List.dropWhile_sublist _).mem hk))

theorem hisAccesses (h : Started front back s seq) (hturn : back + front < 2 ^ 15) :
    ∀ a ∈ s.hisAccesses cfg.toRTPTransConfig seq, a.Sound := by
  intro a ha
  have hfind : Access.Sound ⟨s.hisNacks, seq⟩ := sound_of_within h.hisNacks hturn h.behind
  rw [RTPRecvSession.hisAccesses] at ha
  split at ha
  · cases List.mem_singleton.mp ha
    exact hfind
  · next hin =>
    have hnew : seq ∉ s.hisNacks := fun hmem => hin (List.contains_iff_mem.mpr hmem)
    rcases List.mem_cons.mp ha with rfl | ha
    · exact hfind
    rcases List.mem_cons.mp ha with rfl | ha
    · exact hfind
    · exact beginErasures_sound (h.insertHisNack hturn hnew) hturn _ a ha

/-- The numbers of the gap lie behind the new one. -/
theorem missedBefore (h : Started front back s seq) (hnewer : newer seq s.lastseq = true) :
    Behind (back + front) seq (s.missedBefore seq) := by
  intro i hi
  have hgap := ahead_of_mem_gapNumbers (List.mem_of_mem_filter hi)
  have hle := h.gap hnewer
  rw [ahead_sub (Nat.le_of_lt hgap.2)]
  omega

theorem nacksWith (h : Started front back s seq) (hturn : back + front < 2 ^ 15) :
    OrderedWithin (back + front) (s.lastseqWith seq) (s.nacksWith cfg.toRTPTransConfig seq).keys := by
  rw [RTPRecvSession.nacksWith]
  split
  · exact h.nacks
  split
  · next hnewer =>
    rw [isNewerSeq_eq] at hnewer
    have hlast : s.lastseqWith seq = seq := by
      rw [RTPRecvSession.lastseqWith, isNewerSeq_eq, if_pos hnewer]
    have hnacks := h.nacks
    rw [hlast] at hnacks ⊢
    exact (insertions_within hnacks hturn (h.missedBefore hnewer)).2
  · exact erase_within h.nacks seq

theorem nackAccesses (h : Started front back s seq) (hturn : back + front < 2 ^ 15) :
    ∀ a ∈ s.nackAccesses cfg.toRTPTransConfig seq, a.Sound := by
  intro a ha
  rcases List.mem_append.mp ha with ha | ha
  · split at ha
    · cases ha
    split at ha
    · next hnewer =>
      rw [isNewerSeq_eq] at hnewer
      have hlast : s.lastseqWith seq = seq := by
        rw [RTPRecvSession.lastseqWith, isNewerSeq_eq, if_pos hnewer]
      exact (insertions_within (hlast ▸ h.nacks) hturn (h.missedBefore hnewer)).1 a ha
    · cases List.mem_singleton.mp ha
      exact sound_of_within h.nacks hturn h.behind
  · exact beginErasures_sound (h.nacksWith hturn) hturn _ a ha

end Started

/-- A near media packet leaves the sets in order. -/
theorem media_within {env : RecvEnv} {pkt : Rtp} (len : Nat)
    (hstart : Started front back (s.started env pkt) pkt.seq) (hturn : back + front < 2 ^ 15)
    (henv : env.cfg = cfg.toRTPTransConfig) (hon : cfg.maxPacketAge ≠ 0)
    (hage : cfg.maxPacketAge.toNat ≤ back) :
    NacksWithin back (s.onHandleRtpNack env pkt len) := by
  by_cases hin : pkt.seq ∈ (s.started env pkt).hisNacks
  · rw [onHandleRtpNack_duplicate hin]
    exact hstart.duplicate hin
  · obtain ⟨hhis, hnacks, hlast⟩ := onHandleRtpNack_nacks len hin
    rw [henv] at hhis hnacks
    refine ⟨?_, ?_, fun hnil => ?_⟩
    · rw [hlast, hhis]
      exact hstart.evictHisNacks hturn hon hage hin
    · rw [hlast, hnacks]
      exact (evictNacks_within (hstart.nacksWith hturn) hturn hon (by omega)).mono hage
    · have hmem := mem_evictHisNacks cfg.toRTPTransConfig (s.started env pkt).hisNacks pkt.seq
      rw [← hhis, hnil] at hmem
      cases hmem

end Step

/-! ## Runs -/

section Runs

variable {cfg : TimerConfig} {front back : Nat} {s : TimedSession}

theorem NacksWithin.new (back : Nat) : NacksWithin back TimedSession.new.toRTPRecvSession :=
  ⟨OrderedWithin.nil _ _, OrderedWithin.nil _ _, fun _ => ⟨rfl, rfl⟩⟩

/-- A step that leaves the sets and the latest number. -/
theorem NacksWithin.same {s s' : RTPRecvSession} (h : NacksWithin back s) (hsame : SameNackState s s') :
    NacksWithin back s' := by
  refine ⟨?_, ?_, ?_⟩
  · rw [hsame.lastseq, hsame.hisNacks]
    exact h.hisNacks
  · rw [hsame.lastseq, hsame.nacks]
    exact h.nacks
  · rw [hsame.lastseq, hsame.hisNacks, hsame.nacks]
    exact h.unset

theorem eq_nil_of_keys {m : NackMap} (h : m.keys = []) : m = [] := List.map_eq_nil_iff.mp h

/-- One step with a near number keeps the order. -/
theorem step_within (hturn : back + front < 2 ^ 15) (hon : cfg.maxPacketAge ≠ 0)
    (hage : cfg.maxPacketAge.toNat ≤ back) (h : NacksWithin back s.toRTPRecvSession)
    (op : SessionOp) (hnear : op.Near front back s) :
    NacksWithin back (s.step cfg op).toRTPRecvSession := by
  cases op with
  | media audio video now pkt len =>
    exact media_within len (started_of_near h (mediaTimeBase audio video pkt) pkt hnear hturn)
      hturn rfl hon hage
  | arrive seq => exact h.same ((clearAtWrap_same s.toRTPRecvSession seq).mark seq)
  | wrap seq => exact h.same (clearAtWrap_same s.toRTPRecvSession seq)
  | mark seq => exact h.same ⟨rfl, rfl, rfl, rfl⟩
  | recovered seq =>
    refine ⟨h.hisNacks, erase_within h.nacks seq, fun hnil => ?_⟩
    obtain ⟨hnacks, hlast⟩ := h.unset hnil
    refine ⟨?_, hlast⟩
    show s.nacks.erase seq = []
    rw [hnacks]
    rfl
  | timer now skip =>
    obtain ⟨⟨n, hkeys⟩, hhis, hlast, -⟩ := processNacks_nacks cfg now skip s
    refine ⟨?_, ?_, fun hnil => ?_⟩
    · show OrderedWithin back (s.processNacks cfg now skip).1.lastseq _
      rw [hlast, show (s.step cfg (.timer now skip)).hisNacks = s.hisNacks from hhis]
      exact h.hisNacks
    · show OrderedWithin back (s.processNacks cfg now skip).1.lastseq
        (s.processNacks cfg now skip).1.nacks.keys
      rw [hlast, hkeys]
      exact h.nacks.sublist (List.drop_sublist n _)
    · obtain ⟨hnacks, hzero⟩ := h.unset (hhis.symm.trans hnil)
      refine ⟨eq_nil_of_keys ?_, hlast.trans hzero⟩
      rw [hnacks] at hkeys
      exact hkeys.trans List.drop_nil
  | other r => exact h.same ⟨rfl, rfl, rfl, rfl⟩

/-- One step with a near number finds the sets in order at each access. -/
theorem accesses_sound (hturn : back + front < 2 ^ 15) (h : NacksWithin back s.toRTPRecvSession)
    (op : SessionOp) (hnear : op.Near front back s) : ∀ a ∈ s.accesses cfg op, a.Sound := by
  intro a ha
  cases op with
  | media audio video now pkt len =>
    have hstart := started_of_near h (mediaTimeBase audio video pkt) pkt hnear hturn
    rcases List.mem_append.mp ha with ha | ha
    · exact hstart.hisAccesses hturn a ha
    · split at ha
      · cases ha
      · exact hstart.nackAccesses hturn a ha
  | recovered seq =>
    cases List.mem_singleton.mp ha
    rcases hnear with hnil | hfront | hback
    · rw [(h.unset hnil).1]
      exact sound_of_within (OrderedWithin.nil 0 seq) (by decide) (Nat.le_of_eq (ahead_self seq))
    · exact sound_of_within (within_of_front h.nacks hfront hturn) hturn (by
        rw [ahead_self]
        exact Nat.zero_le _)
    · exact sound_of_within h.nacks (by omega) hback
  | timer now skip => exact beginErasures_sound h.nacks (by omega) _ a ha
  | arrive seq => cases ha
  | wrap seq => cases ha
  | mark seq => cases ha
  | other r => cases ha

/-- In every run whose packets lie at most `front` numbers ahead of the latest one or `back` behind
it, where the two sum up to less than half a turn, every access finds the keys within half a turn
and in order. -/
theorem nack_sets_ordered (cfg : TimerConfig) (front back : Nat) (hturn : back + front < 2 ^ 15)
    (hon : cfg.maxPacketAge ≠ 0) (hage : cfg.maxPacketAge.toNat ≤ back) (ops : List SessionOp)
    (hnear : Each (TimedSession.step cfg) (fun s op => op.Near front back s) TimedSession.new ops) :
    Each (TimedSession.step cfg) (fun s op => ∀ a ∈ s.accesses cfg op, a.Sound)
      TimedSession.new ops :=
  hnear.imp (I := fun s => NacksWithin back s.toRTPRecvSession)
    (fun _ op h hop => step_within hturn hon hage h op hop)
    (fun _ op h hop => accesses_sound hturn h op hop) (NacksWithin.new back)

/-- A gap, then a late packet. -/
theorem nack_sets_ordered_near :
    Each (TimedSession.step TimerConfig.default) (fun s op => ∀ a ∈
        s.accesses TimerConfig.default op, a.Sound) TimedSession.new
      [SessionOp.videoAt 10, SessionOp.videoAt 13, SessionOp.videoAt 12] :=
  nack_sets_ordered TimerConfig.default 1000 450 (by decide) (by decide) (by decide) _
    ⟨.inl rfl, .inr (.inr ⟨.inl (by decide), by decide⟩),
      .inr (.inr ⟨.inr (by decide), by decide⟩), trivial⟩

/-- The packets 30000, 10 and 35000: the second is late by less than half a turn, the third ahead
of the first by less than half a turn, and it meets a set that holds both. -/
theorem nack_sets_not_ordered_far :
    ¬ Each (TimedSession.step TimerConfig.default) (fun s op => ∀ a ∈
        s.accesses TimerConfig.default op, a.Sound) TimedSession.new
      [SessionOp.videoAt 30000, SessionOp.videoAt 10, SessionOp.videoAt 35000] := by
  intro h
  have hsound : Access.Sound ⟨[10, 30000], 35000⟩ := h.2.2.1 _ (List.mem_append_left _ (by decide))
  have hnewer := hsound.trans 10 (by decide) 30000 (by decide) 35000 (by decide) (by decide)
    (by decide)
  exact absurd hnewer (by decide)

end Runs

end RtcMcu.RtpTrans
