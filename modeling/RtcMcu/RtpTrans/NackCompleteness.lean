import RtcMcu.RtpTrans.ExtendedSeq

/-!
# What is NACKed

A packet that becomes the highest one puts the numbers it skips into `_nacks`, those that are not
marked in `_pkt_history`. The history has one bit for each of the `2 ^ 16` numbers and is cleared when
a number below 50 follows a `_lastseq` above 65500; a number marked a turn ago and not cleared since
counts as received. Nothing is skipped at all from a `_lastseq` of 0, which is taken for unset.

`Receipts` notes the indices of what arrived, of what was received or recovered, and of what was
marked since the history was cleared. In every run in which the history is right about the numbers
that are skipped, these are NACKed, and what was received is not (`nacks_complete`). It is right if
what it holds at any time comes from one turn (`gapKnown_of_oneTurn`).
-/

namespace RtcMcu.RtpTrans

open RtcMcu.Avformat RtcMcu.Serial

/-! ## What was received -/

/-- A session with the indices of its packets: those that arrived or were recovered, those accounted
for or recovered, and those marked since the history was cleared. -/
structure Receipts extends Numbered where
  arrived : List Nat
  received : List Nat
  held : List Nat

def Receipts.new : Receipts := { Numbered.new with arrived := [], received := [], held := [] }

/-- What is marked since the history was cleared. -/
def Receipts.heldAfter (r : Receipts) : SessionOp × Nat → List Nat
  | (.arrive seq, n) => n :: if BeginsTurn r.session.lastseq seq then [] else r.held
  | (.wrap seq, _) => if BeginsTurn r.session.lastseq seq then [] else r.held
  | (.mark _, n) => n :: r.held
  | (.recovered _, n) => n :: r.held
  | _ => r.held

def Receipts.step (cfg : TimerConfig) (r : Receipts) (e : SessionOp × Nat) : Receipts where
  toNumbered := r.toNumbered.step cfg e
  arrived :=
    match e.1 with
    | .media .. => e.2 :: r.arrived
    | .arrive _ => e.2 :: r.arrived
    | .recovered _ => e.2 :: r.arrived
    | _ => r.arrived
  received :=
    match e.1 with
    | .media .. => e.2 :: r.received
    | .recovered _ => e.2 :: r.received
    | _ => r.received
  held := r.heldAfter e

/-- The number is marked. -/
def Receipts.Holds (r : Receipts) (seq : Seq) : Prop := ∃ g ∈ r.held, BitVec.ofNat 16 g = seq

/-- The number of the media packet a step is about. -/
def SessionOp.number : SessionOp → Option Seq
  | .media _ _ _ pkt _ => some pkt.seq
  | .arrive seq => some seq
  | .mark seq => some seq
  | .recovered seq => some seq
  | _ => none

/-- The number of a packet is its index modulo `2 ^ 16`, and packets are reordered by less than half
a turn. -/
structure Receipts.Indexed (r : Receipts) (e : SessionOp × Nat) : Prop where
  reordered : Reordered r.toNumbered e
  number : ∀ seq, e.1.number = some seq → seq = BitVec.ofNat 16 e.2
  near : ∀ seq, e.1.number = some seq → ∀ i, r.indices = some i → e.2 < i.highest + 2 ^ 15
  first : ∀ seq, e.1.number = some seq → r.indices = none → ∀ g ∈ r.received, g < e.2 + 2 ^ 15

/-- Of the numbers a packet skips, those that did not arrive are not marked, and those that were
received are. From 0 only numbers that arrived are skipped. -/
def Receipts.GapKnown (r : Receipts) : SessionOp × Nat → Prop
  | (.media .., n) => ∀ i, r.indices = some i → ∀ x, i.highest < x → x < n →
    if r.session.lastseq = 0 then x ∈ r.arrived
    else (x ∉ r.arrived → ¬ r.Holds (BitVec.ofNat 16 x)) ∧
      (x ∈ r.received → r.Holds (BitVec.ofNat 16 x))
  | _ => True

/-- After a packet that becomes the highest one, `_nacks` is what the limits leave of the old list and
numbers that were skipped, all that did not arrive among them; and nothing received within the last
`2 ^ 16` numbers is in `_nacks`. -/
structure NacksComplete (cfg : TimerConfig) (r : Receipts) (e : SessionOp × Nat) : Prop where
  missing : cfg.maxNacklstSize ≠ 0 → ∀ i j, r.indices = some i →
    (r.step cfg e).indices = some j → i.highest < j.highest →
    ∃ before : NackMap, Ordered before.keys ∧
      (∀ k ∈ before.keys, k ∈ r.session.nacks.keys ∨
        ∃ x, i.highest < x ∧ x < j.highest ∧ k = BitVec.ofNat 16 x) ∧
      (∀ x, i.highest < x → x < j.highest → x ∉ r.arrived → BitVec.ofNat 16 x ∈ before.keys) ∧
      (r.step cfg e).session.nacks =
        evictNacks cfg.toRTPTransConfig (r.step cfg e).session.lastseq before
  received : ∀ j, (r.step cfg e).indices = some j → ∀ g ∈ (r.step cfg e).received,
    j.highest < g + 2 ^ 16 → BitVec.ofNat 16 g ∉ (r.step cfg e).session.nacks.keys

/-! ## One media packet -/

section Packet

variable {cfg : TimerConfig} {front back : Nat} {s : RTPRecvSession} {env : RecvEnv} {pkt : Rtp}

/-- The list with the numbers of a gap put in. -/
theorem mem_keys_nackGap {seq k : Seq} :
    k ∈ (s.nackGap seq).keys ↔ k ∈ s.missedBefore seq ∨ k ∈ s.nacks.keys := by
  have hfold : ∀ (seqs : List Seq) (m : NackMap),
      k ∈ NackMap.keys (seqs.foldl NackMap.insert m) ↔ k ∈ seqs ∨ k ∈ m.keys := by
    intro seqs
    induction seqs with
    | nil => exact fun m => ⟨.inr, fun h => h.resolve_left List.not_mem_nil⟩
    | cons x seqs ih =>
      intro m
      rw [List.foldl_cons, ih, mem_keys_insert, List.mem_cons, ← or_assoc, or_comm (a := k ∈ seqs)]
  exact hfold _ s.nacks

theorem mem_of_evictNacks {cfg : RTPTransConfig} {latest k : Seq} {m : NackMap}
    (h : k ∈ (evictNacks cfg latest m).keys) : k ∈ m.keys := by
  obtain ⟨n, hkeys⟩ := keys_evictNacks cfg latest m
  rw [hkeys] at h
  exact List.mem_of_mem_drop ((List.dropWhile_sublist _).mem h)

theorem mem_of_evictHisNacks {cfg : RTPTransConfig} {his : List Seq} {seq k : Seq}
    (h : k ∈ evictHisNacks cfg seq (insertHisNack his seq)) : k = seq ∨ k ∈ his :=
  mem_insertHisNack.mp ((List.dropWhile_sublist _).mem h)

/-- The numbers of a gap, by their indices. -/
theorem mem_gapNumbers_iff {h n : Nat} (hlt : h < n) (hturn : n - h < 2 ^ 16) {k : Seq} :
    k ∈ gapNumbers (BitVec.ofNat 16 h) (BitVec.ofNat 16 n) ↔
      ∃ x, h < x ∧ x < n ∧ k = BitVec.ofNat 16 x := by
  have hlen : (BitVec.ofNat 16 n - BitVec.ofNat 16 h).toNat = n - h :=
    ahead_ofNat (Nat.le_of_lt hlt) hturn
  have hnext : ∀ j, BitVec.ofNat 16 h + 1 + BitVec.ofNat 16 j = BitVec.ofNat 16 (h + 1 + j) := by
    intro j
    rw [BitVec.ofNat_add, BitVec.ofNat_add]
    rfl
  rw [gapNumbers, hlen, List.mem_map]
  constructor
  · rintro ⟨j, hj, rfl⟩
    have hj := List.mem_range.mp hj
    exact ⟨h + 1 + j, by omega, by omega, hnext j⟩
  · rintro ⟨x, hx, hxn, rfl⟩
    refine ⟨x - h - 1, List.mem_range.mpr (by omega), ?_⟩
    rw [hnext]
    exact congrArg (BitVec.ofNat 16) (by omega)

/-- The first packet finds empty sets, also if its timestamp jumps from 0. -/
theorem started_first (env : RecvEnv) (pkt : Rtp) (h : NacksWithin back s) (hhis : s.hisNacks = []) :
    (s.started env pkt).hisNacks = [] ∧ (s.started env pkt).nacks = [] ∧
      (s.started env pkt).lastseq = pkt.seq := by
  obtain ⟨hnacks, hlast⟩ := h.unset hhis
  cases hjump : timestampJump (mediaTimeBase env.audioTimeBase env.videoTimeBase pkt)
      pkt.timestamp s.lastRtpTimestamp with
  | true =>
    rw [RTPRecvSession.started, startNack_jump hjump]
    exact ⟨rfl, rfl, rfl⟩
  | false =>
    rw [RTPRecvSession.started, startNack_go hjump]
    exact ⟨hhis, hnacks, if_pos hlast⟩

/-- The head of `_on_handle_rtp_nack` for a steady timestamp. -/
theorem started_steady
    (h : timestampJump (mediaTimeBase env.audioTimeBase env.videoTimeBase pkt) pkt.timestamp
      s.lastRtpTimestamp = false) :
    s.started env pkt =
      { s with
        lastseq := if s.lastseq = 0 then pkt.seq else s.lastseq
        lastRtpTimestamp := pkt.timestamp } := startNack_go h

/-- `_nacks` before anything is erased from its front: the gap goes in, unless `_lastseq` is 0. -/
theorem nacksWith_started (hlist : cfg.maxNacklstSize ≠ 0)
    (hsteady : timestampJump (mediaTimeBase env.audioTimeBase env.videoTimeBase pkt) pkt.timestamp
      s.lastRtpTimestamp = false) :
    (s.started env pkt).nacksWith cfg.toRTPTransConfig pkt.seq =
      if s.lastseq ≠ 0 ∧ newer pkt.seq s.lastseq = true then s.nackGap pkt.seq
      else s.nacks.erase pkt.seq := by
  have hstart := started_steady hsteady
  rw [RTPRecvSession.nacksWith, if_neg hlist, isNewerSeq_eq]
  by_cases hzero : s.lastseq = 0
  · have hself : (s.started env pkt).lastseq = pkt.seq := by
      rw [hstart]
      exact if_pos hzero
    have hnacks : (s.started env pkt).nacks = s.nacks := by rw [hstart]
    rw [hself, newer_irrefl, hnacks, if_neg Bool.false_ne_true, if_neg fun hboth => hboth.1 hzero]
  · have hsame : s.started env pkt = { s with lastRtpTimestamp := pkt.timestamp } := by
      rw [hstart, if_neg hzero]
    rw [hsame]
    by_cases hnewer : newer pkt.seq s.lastseq = true
    · rw [if_pos hnewer, if_pos ⟨hzero, hnewer⟩]
      rfl
    · rw [if_neg hnewer, if_neg fun hboth => hnewer hboth.2]

/-- What is NACKed after a packet: an old number or one of the gap, and not its own. -/
theorem mem_nacks_steady (henv : env.cfg = cfg.toRTPTransConfig) (len : Nat)
    (hsteady : timestampJump (mediaTimeBase env.audioTimeBase env.videoTimeBase pkt) pkt.timestamp
      s.lastRtpTimestamp = false)
    (h : NacksWithin back s) (hback : back < 2 ^ 15) (hoff : cfg.maxNacklstSize = 0 → s.nacks = [])
    (hapart : ∀ k ∈ s.hisNacks, k ∉ s.nacks.keys) {k : Seq}
    (hk : k ∈ (s.onHandleRtpNack env pkt len).nacks.keys) :
    k ≠ pkt.seq ∧ (k ∈ s.nacks.keys ∨ s.lastseq ≠ 0 ∧ newer pkt.seq s.lastseq = true ∧
      k ∈ s.missedBefore pkt.seq) := by
  have hstart := started_steady hsteady
  by_cases hdup : pkt.seq ∈ (s.started env pkt).hisNacks
  · rw [onHandleRtpNack_duplicate hdup, hstart] at hk
    rw [hstart] at hdup
    exact ⟨fun heq => hapart _ hdup (heq ▸ hk), .inl hk⟩
  · rw [(onHandleRtpNack_nacks len hdup).2.1, henv] at hk
    have hk := mem_of_evictNacks hk
    by_cases hlist : cfg.maxNacklstSize = 0
    · rw [RTPRecvSession.nacksWith, if_pos hlist, hstart] at hk
      have hnone : k ∈ s.nacks.keys := hk
      rw [hoff hlist] at hnone
      cases hnone
    rw [nacksWith_started hlist hsteady] at hk
    split at hk
    · next hfront =>
      obtain ⟨hzero, hnewer⟩ := hfront
      rcases mem_keys_nackGap.mp hk with hgap | hold
      · refine ⟨fun heq => ?_, .inr ⟨hzero, hnewer, hgap⟩⟩
        have hbetween := ahead_of_mem_gapNumbers (List.mem_of_mem_filter hgap)
        rw [heq] at hbetween
        omega
      · refine ⟨fun heq => ?_, .inl hold⟩
        have hbehind := h.nacks.behind k hold
        rw [heq] at hbehind
        rw [not_newer_of_back (by omega)] at hnewer
        cases hnewer
    · rw [keys_erase, List.mem_filter, bne_iff_ne] at hk
      exact ⟨hk.2, .inl hk.1⟩

/-- What is in the other set after a packet. -/
theorem mem_hisNacks_steady (len : Nat)
    (hsteady : timestampJump (mediaTimeBase env.audioTimeBase env.videoTimeBase pkt) pkt.timestamp
      s.lastRtpTimestamp = false) {k : Seq}
    (hk : k ∈ (s.onHandleRtpNack env pkt len).hisNacks) : k = pkt.seq ∨ k ∈ s.hisNacks := by
  have hhis := started_hisNacks env hsteady
  by_cases hdup : pkt.seq ∈ (s.started env pkt).hisNacks
  · rw [onHandleRtpNack_duplicate hdup, hhis] at hk
    exact .inr hk
  · rw [(onHandleRtpNack_nacks len hdup).1, hhis] at hk
    exact mem_of_evictHisNacks hk

/-- Without a list nothing is NACKed. -/
theorem nacks_eq_nil_steady (henv : env.cfg = cfg.toRTPTransConfig) (len : Nat)
    (hsteady : timestampJump (mediaTimeBase env.audioTimeBase env.videoTimeBase pkt) pkt.timestamp
      s.lastRtpTimestamp = false)
    (hlist : cfg.maxNacklstSize = 0) (hnacks : s.nacks = []) :
    (s.onHandleRtpNack env pkt len).nacks = [] := by
  have hstart := started_steady hsteady
  by_cases hdup : pkt.seq ∈ (s.started env pkt).hisNacks
  · rw [onHandleRtpNack_duplicate hdup, hstart]
    exact hnacks
  · rw [(onHandleRtpNack_nacks len hdup).2.1, henv, RTPRecvSession.nacksWith, if_pos hlist, hstart]
    refine eq_nil_of_keys (List.eq_nil_iff_forall_not_mem.mpr fun k hk => ?_)
    have hin := mem_of_evictNacks hk
    rw [show ({ s with
      lastseq := if s.lastseq = 0 then pkt.seq else s.lastseq
      lastRtpTimestamp := pkt.timestamp } : RTPRecvSession).nacks = [] from hnacks] at hin
    cases hin

/-- After the first packet nothing is NACKed. -/
theorem nacks_first (env : RecvEnv) (pkt : Rtp) (len : Nat) (h : NacksWithin back s)
    (hhis : s.hisNacks = []) : (s.onHandleRtpNack env pkt len).nacks = [] := by
  obtain ⟨hnil, hnacks, hlast⟩ := started_first env pkt h hhis
  have hnew : pkt.seq ∉ (s.started env pkt).hisNacks := by
    rw [hnil]
    exact List.not_mem_nil
  have hwith : (s.started env pkt).nacksWith env.cfg pkt.seq = [] := by
    rw [RTPRecvSession.nacksWith, hlast, isNewerSeq_eq, newer_irrefl, hnacks,
      if_neg Bool.false_ne_true]
    exact ite_self _
  rw [(onHandleRtpNack_nacks len hnew).2.1, hwith]
  refine eq_nil_of_keys (List.eq_nil_iff_forall_not_mem.mpr fun k hk => ?_)
  cases mem_of_evictNacks hk

end Packet

/-! ## Runs -/

section Runs

variable {cfg : TimerConfig} {front back : Nat} {r : Receipts}

/-- The history is what is held, no number is in both sets, and what was received is not NACKed. -/
structure Tracking (cfg : TimerConfig) (back : Nat) (r : Receipts) : Prop where
  counting : Counting back r.toNumbered
  history : ∀ seq, r.session.pktHistory seq = true ↔ r.Holds seq
  apart : ∀ k ∈ r.session.hisNacks, k ∉ r.session.nacks.keys
  off : cfg.maxNacklstSize = 0 → r.session.nacks = []
  near : ∀ j, r.indices = some j → ∀ g ∈ r.received, g < j.highest + 2 ^ 15
  received : ∀ j, r.indices = some j → ∀ g ∈ r.received, j.highest < g + 2 ^ 16 →
    BitVec.ofNat 16 g ∉ r.session.nacks.keys

theorem Tracking.new (cfg : TimerConfig) (back : Nat) : Tracking cfg back Receipts.new where
  counting := Counting.new back
  history seq := iff_of_false Bool.false_ne_true fun h => by
    obtain ⟨g, hg, -⟩ := h
    cases hg
  apart k hk := by cases hk
  off _ := rfl
  near j hj := by cases hj
  received j hj := by cases hj

/-- A step that puts nothing in the sets. -/
theorem tracking_quiet (h : Tracking cfg back r) (e : SessionOp × Nat)
    (hcount : Counting back (r.step cfg e).toNumbered)
    (hindices : (r.step cfg e).indices = r.indices)
    (hhis : (r.step cfg e).session.hisNacks = r.session.hisNacks)
    (hnacks : ∀ k ∈ (r.step cfg e).session.nacks.keys, k ∈ r.session.nacks.keys)
    (hhistory : ∀ seq, (r.step cfg e).session.pktHistory seq = true ↔ (r.step cfg e).Holds seq)
    (hreceived : ∀ g ∈ (r.step cfg e).received, g ∈ r.received ∨
      BitVec.ofNat 16 g ∉ (r.step cfg e).session.nacks.keys ∧
        ∀ j, r.indices = some j → g < j.highest + 2 ^ 15) :
    Tracking cfg back (r.step cfg e) := by
  refine ⟨hcount, hhistory, ?_, ?_, ?_, ?_⟩
  · intro k hk hin
    rw [hhis] at hk
    exact h.apart k hk (hnacks k hin)
  · intro hlist
    refine eq_nil_of_keys (List.eq_nil_iff_forall_not_mem.mpr fun k hk => ?_)
    have hold := hnacks k hk
    rw [h.off hlist] at hold
    cases hold
  · intro j hj g hg
    rw [hindices] at hj
    rcases hreceived g hg with hold | ⟨-, hnear⟩
    · exact h.near j hj g hold
    · exact hnear j hj
  · intro j hj g hg hcycle hin
    rw [hindices] at hj
    rcases hreceived g hg with hold | ⟨hnot, -⟩
    · exact h.received j hj g hold hcycle (hnacks _ hin)
    · exact hnot hin

/-- The history once a number is marked. -/
theorem holds_mark {history : Seq → Bool} {held : List Nat} {n : Nat} {seq : Seq}
    (hseq : seq = BitVec.ofNat 16 n)
    (h : ∀ t, history t = true ↔ ∃ g ∈ held, BitVec.ofNat 16 g = t) (t : Seq) :
    (t == seq || history t) = true ↔ ∃ g ∈ n :: held, BitVec.ofNat 16 g = t := by
  rw [Bool.or_eq_true, beq_iff_eq, h t, hseq]
  constructor
  · rintro (rfl | ⟨g, hg, rfl⟩)
    · exact ⟨n, List.mem_cons_self, rfl⟩
    · exact ⟨g, List.mem_cons_of_mem n hg, rfl⟩
  · rintro ⟨g, hg, rfl⟩
    rcases List.mem_cons.mp hg with rfl | hg
    · exact .inl rfl
    · exact .inr ⟨g, hg, rfl⟩

/-- The history once it is cleared, if it is. -/
theorem holds_clear (h : ∀ t, r.session.pktHistory t = true ↔ r.Holds t) (seq t : Seq) :
    (r.session.clearAtWrap seq).pktHistory t = true ↔
      ∃ g ∈ (if BeginsTurn r.session.lastseq seq then [] else r.held), BitVec.ofNat 16 g = t := by
  rw [clearAtWrap_pktHistory, h t]
  by_cases hturn : BeginsTurn r.session.lastseq seq
  · rw [if_pos hturn]
    refine iff_of_false (fun hboth => hboth.1 hturn) fun hsome => ?_
    obtain ⟨g, hg, -⟩ := hsome
    cases hg
  · rw [if_neg hturn, and_iff_right hturn]
    rfl

/-- The timer keeps the history. -/
theorem processNacks_pktHistory (cfg : TimerConfig) (now : Nat) (skip : Seq → Bool)
    (s : TimedSession) : (s.processNacks cfg now skip).1.pktHistory = s.pktHistory := by
  unfold TimedSession.processNacks
  split
  · split
    · rfl
    · dsimp only
      rw [RTPSession.trimNacks]
      split <;> rfl
  · rfl

/-- A number that is not behind is newer only if its index is higher. -/
theorem highest_lt_of_newer {i : Indices} {s : RTPRecvSession} {seq : Seq} {n : Nat}
    (hk : Knows i s) (hseq : seq = BitVec.ofNat 16 n) (hlate : i.highest < n + 2 ^ 15)
    (hnewer : newer seq s.lastseq = true) : i.highest < n := by
  by_contra hle
  have hback : ahead seq s.lastseq = i.highest - n := by
    rw [hk.lastseq, hseq, ahead_ofNat (by omega) (by omega)]
  rw [not_newer_of_back (by omega)] at hnewer
  cases hnewer

/-- A media packet after the first one. -/
theorem tracking_media (h : Tracking cfg back r) (audio video : BitVec 32) (now : Nat) (pkt : Rtp)
    (len n : Nat) (hback : back < 2 ^ 15) {i : Indices} (hi : r.indices = some i)
    (hcount : Counting back (r.step cfg (.media audio video now pkt len, n)).toNumbered)
    (hindexed : r.Indexed (.media audio video now pkt len, n))
    (hgap : r.GapKnown (.media audio video now pkt len, n)) :
    Tracking cfg back (r.step cfg (.media audio video now pkt len, n)) := by
  obtain ⟨hseq, hreorder⟩ := hindexed.reordered
  obtain ⟨hfront, hlate, hsteady⟩ := hreorder i hi
  have hk := h.counting.knows i hi
  have hwithin := h.counting.within
  let env : RecvEnv :=
    { cfg := cfg.toRTPTransConfig, audioTimeBase := audio, videoTimeBase := video, now := now }
  have hsteady : timestampJump (mediaTimeBase env.audioTimeBase env.videoTimeBase pkt) pkt.timestamp
      r.session.lastRtpTimestamp = false := hsteady
  have hmem : ∀ {k : Seq}, k ∈ (r.session.onHandleRtpNack env pkt len).nacks.keys →
      k ≠ pkt.seq ∧ (k ∈ r.session.nacks.keys ∨ r.session.lastseq ≠ 0 ∧
        newer pkt.seq r.session.lastseq = true ∧ k ∈ r.session.missedBefore pkt.seq) :=
    fun hin => mem_nacks_steady rfl len hsteady hwithin hback h.off h.apart hin
  have hindices : (r.step cfg (.media audio video now pkt len, n)).indices =
      some { first := i.first, highest := max i.highest n } := by
    show some (Indices.mk ((r.indices.map Indices.first).getD n)
      (max ((r.indices.map Indices.highest).getD n) n)) = _
    rw [hi]
    rfl
  refine ⟨hcount, fun seq => ?_, ?_, ?_, ?_, ?_⟩
  · show (r.session.onHandleRtpNack env pkt len).pktHistory seq = true ↔ r.Holds seq
    rw [(onHandleRtpNack_sameFec r.session.toRTPRecvSession _ pkt len).pktHistory]
    exact h.history seq
  · intro k hhis hin
    obtain ⟨hne, hcases⟩ := hmem hin
    have hold := (mem_hisNacks_steady len hsteady hhis).resolve_left hne
    rcases hcases with hnacks | ⟨-, hnewer, hmissed⟩
    · exact h.apart k hold hnacks
    · -- a number of the gap lies ahead of all that was in the set
      have hbetween := ahead_of_mem_gapNumbers (List.mem_of_mem_filter hmissed)
      have hbehind := hwithin.hisNacks.behind k hold
      have hahead := (newer_iff.mp hnewer).2
      have hcomm := ahead_comm (a := r.session.lastseq) (b := k) fun heq => by
        rw [heq, ahead_self] at hbetween
        omega
      omega
  · exact fun hlist => nacks_eq_nil_steady rfl len hsteady hlist (h.off hlist)
  · intro j hj g hg
    rw [hindices] at hj
    cases Option.some.inj hj
    show g < max i.highest n + 2 ^ 15
    rcases List.mem_cons.mp hg with rfl | hg
    · omega
    · have hnear := h.near i hi g hg
      omega
  · intro j hj g hg hcycle hin
    rw [hindices] at hj
    cases Option.some.inj hj
    have hcycle : max i.highest n < g + 2 ^ 16 := hcycle
    obtain ⟨hne, hcases⟩ := hmem hin
    rcases List.mem_cons.mp hg with rfl | hg
    · exact hne hseq.symm
    rcases hcases with hnacks | ⟨hzero, hnewer, hmissed⟩
    · exact h.received i hi g hg (by omega) hnacks
    · have hlt := highest_lt_of_newer hk hseq hlate hnewer
      have hnear := h.near i hi g hg
      obtain ⟨hgapped, hmarked⟩ := List.mem_filter.mp hmissed
      rw [hk.lastseq, hseq, mem_gapNumbers_iff hlt (by omega)] at hgapped
      obtain ⟨x, hx, hxn, hsame⟩ := hgapped
      have hself : g = x := by
        have hmod := congrArg BitVec.toNat hsame
        rw [BitVec.toNat_ofNat, BitVec.toNat_ofNat] at hmod
        omega
      have hknown := hgap i hi x hx hxn
      rw [if_neg hzero] at hknown
      have hheld := (h.history _).mpr (hknown.2 (hself ▸ hg))
      rw [hsame, hheld] at hmarked
      cases hmarked

/-- The first media packet. -/
theorem tracking_first (h : Tracking cfg back r) (audio video : BitVec 32) (now : Nat) (pkt : Rtp)
    (len n : Nat) (hnone : r.indices = none)
    (hcount : Counting back (r.step cfg (.media audio video now pkt len, n)).toNumbered)
    (hindexed : r.Indexed (.media audio video now pkt len, n)) :
    Tracking cfg back (r.step cfg (.media audio video now pkt len, n)) := by
  have hhis := (h.counting.unset hnone).1
  have hnacks : (r.step cfg (.media audio video now pkt len, n)).session.nacks = [] :=
    nacks_first _ pkt len h.counting.within hhis
  have hnot : ∀ k, k ∉ (r.step cfg (.media audio video now pkt len, n)).session.nacks.keys := by
    intro k hk
    rw [hnacks] at hk
    cases hk
  have hindices : (r.step cfg (.media audio video now pkt len, n)).indices =
      some { first := n, highest := max n n } := by
    show some (Indices.mk ((r.indices.map Indices.first).getD n)
      (max ((r.indices.map Indices.highest).getD n) n)) = _
    rw [hnone]
    rfl
  refine ⟨hcount, fun seq => ?_, fun k _ => hnot k, fun _ => hnacks, ?_, ?_⟩
  · show (r.session.onHandleRtpNack _ pkt len).pktHistory seq = true ↔ r.Holds seq
    rw [(onHandleRtpNack_sameFec r.session.toRTPRecvSession _ pkt len).pktHistory]
    exact h.history seq
  · intro j hj g hg
    rw [hindices] at hj
    cases Option.some.inj hj
    show g < max n n + 2 ^ 15
    rcases List.mem_cons.mp hg with rfl | hg
    · omega
    · have hfirst := hindexed.first pkt.seq rfl hnone g hg
      omega
  · exact fun _ _ g _ _ => hnot _

/-- One step keeps track. -/
theorem tracking_step (hturn : back + front < 2 ^ 15) (hon : cfg.maxPacketAge ≠ 0)
    (hage : cfg.maxPacketAge.toNat ≤ back) (h : Tracking cfg back r) (e : SessionOp × Nat)
    (hindexed : r.Indexed e) (hnear : e.1.Near front back r.session) (hgap : r.GapKnown e) :
    Tracking cfg back (r.step cfg e) := by
  have hcount : Counting back (r.step cfg e).toNumbered :=
    counting_step hturn hon hage h.counting e ⟨hindexed.reordered, hnear⟩
  obtain ⟨op, n⟩ := e
  cases op with
  | media audio video now pkt len =>
    cases hi : r.indices with
    | none => exact tracking_first h audio video now pkt len n hi hcount hindexed
    | some i => exact tracking_media h audio video now pkt len n (by omega) hi hcount hindexed hgap
  | arrive seq =>
    have hsame := clearAtWrap_same r.session.toRTPRecvSession seq
    refine tracking_quiet h _ hcount rfl hsame.hisNacks (fun k hk => ?_)
      (holds_mark (hindexed.number seq rfl) (holds_clear h.history seq)) fun g hg => .inl hg
    rw [← hsame.nacks]
    exact hk
  | wrap seq =>
    have hsame := clearAtWrap_same r.session.toRTPRecvSession seq
    refine tracking_quiet h _ hcount rfl hsame.hisNacks (fun k hk => ?_)
      (holds_clear h.history seq) fun g hg => .inl hg
    rw [← hsame.nacks]
    exact hk
  | mark seq =>
    exact tracking_quiet h _ hcount rfl rfl (fun k hk => hk)
      (holds_mark (hindexed.number seq rfl) h.history) fun g hg => .inl hg
  | recovered seq =>
    have hseq : seq = BitVec.ofNat 16 n := hindexed.number seq rfl
    have herase : ∀ k ∈ (r.session.nacks.erase seq).keys, k ∈ r.session.nacks.keys ∧ k ≠ seq := by
      intro k hk
      rw [keys_erase, List.mem_filter, bne_iff_ne] at hk
      exact hk
    refine tracking_quiet h _ hcount rfl rfl (fun k hk => (herase k hk).1)
      (holds_mark hseq h.history) fun g hg => ?_
    rcases List.mem_cons.mp hg with rfl | hg
    · exact .inr ⟨fun hin => (herase _ hin).2 hseq.symm, hindexed.near seq rfl⟩
    · exact .inl hg
  | timer now skip =>
    obtain ⟨⟨m, hkeys⟩, hhis, -, -⟩ := processNacks_nacks cfg now skip r.session
    refine tracking_quiet h _ hcount rfl hhis (fun k hk => ?_) (fun t => ?_) fun g hg => .inl hg
    · have hk : k ∈ (r.session.processNacks cfg now skip).1.nacks.keys := hk
      rw [hkeys] at hk
      exact List.mem_of_mem_drop hk
    · show (r.session.processNacks cfg now skip).1.pktHistory t = true ↔ r.Holds t
      rw [processNacks_pktHistory]
      exact h.history t
  | other rest =>
    exact tracking_quiet h _ hcount rfl rfl (fun k hk => hk) h.history fun g hg => .inl hg

/-- A packet ahead of the highest one is newer, and was not handled before. -/
theorem newer_of_highest_lt {i : Indices} {s : RTPRecvSession} {seq : Seq} {n : Nat}
    (h : NacksWithin back s) (hback : back < 2 ^ 15) (hk : Knows i s)
    (hseq : seq = BitVec.ofNat 16 n) (hlt : i.highest < n) (hfront : n < i.highest + 2 ^ 15) :
    newer seq s.lastseq = true ∧ seq ∉ s.hisNacks := by
  have hahead : ahead s.lastseq seq = n - i.highest := by
    rw [hk.lastseq, hseq, ahead_ofNat (Nat.le_of_lt hlt) (by omega)]
  have hne : s.lastseq ≠ seq := fun heq => by
    rw [heq, ahead_self] at hahead
    omega
  refine ⟨newer_iff.mpr ⟨hne.symm, by omega⟩, fun hin => ?_⟩
  have hbehind := h.hisNacks.behind seq hin
  have hcomm := ahead_comm hne
  omega

/-- What a packet that becomes the highest one puts in the list. -/
theorem missing_media (h : Tracking cfg back r) (audio video : BitVec 32) (now : Nat) (pkt : Rtp)
    (len n : Nat) (hturn : back + front < 2 ^ 15) (hlist : cfg.maxNacklstSize ≠ 0) {i : Indices}
    (hi : r.indices = some i) (hlt : i.highest < n)
    (hindexed : r.Indexed (.media audio video now pkt len, n))
    (hnear : (SessionOp.media audio video now pkt len).Near front back r.session)
    (hgap : r.GapKnown (.media audio video now pkt len, n)) :
    ∃ before : NackMap, Ordered before.keys ∧
      (∀ k ∈ before.keys, k ∈ r.session.nacks.keys ∨
        ∃ x, i.highest < x ∧ x < n ∧ k = BitVec.ofNat 16 x) ∧
      (∀ x, i.highest < x → x < n → x ∉ r.arrived → BitVec.ofNat 16 x ∈ before.keys) ∧
      (r.step cfg (.media audio video now pkt len, n)).session.nacks =
        evictNacks cfg.toRTPTransConfig
          (r.step cfg (.media audio video now pkt len, n)).session.lastseq before := by
  obtain ⟨hseq, hreorder⟩ := hindexed.reordered
  obtain ⟨hfront, hlate, hsteady⟩ := hreorder i hi
  have hk := h.counting.knows i hi
  have hwithin := h.counting.within
  let env : RecvEnv :=
    { cfg := cfg.toRTPTransConfig, audioTimeBase := audio, videoTimeBase := video, now := now }
  have hsteady : timestampJump (mediaTimeBase env.audioTimeBase env.videoTimeBase pkt) pkt.timestamp
      r.session.lastRtpTimestamp = false := hsteady
  obtain ⟨hnewer, hfresh⟩ := newer_of_highest_lt hwithin (by omega) hk hseq hlt hfront
  have hnew : pkt.seq ∉ (r.session.started env pkt).hisNacks := by
    rw [started_hisNacks env hsteady]
    exact hfresh
  obtain ⟨-, hnacks, hlast⟩ := onHandleRtpNack_nacks len hnew
  have hstart : Started front back (r.session.started env pkt) pkt.seq :=
    started_of_near hwithin (mediaTimeBase audio video pkt) pkt hnear hturn
  have hgapped : ∀ k, k ∈ gapNumbers r.session.lastseq pkt.seq ↔
      ∃ x, i.highest < x ∧ x < n ∧ k = BitVec.ofNat 16 x := by
    intro k
    rw [hk.lastseq, hseq]
    exact mem_gapNumbers_iff hlt (by omega)
  refine ⟨(r.session.started env pkt).nacksWith cfg.toRTPTransConfig pkt.seq,
    (hstart.nacksWith hturn).ordered, ?_, ?_, ?_⟩
  · intro k hin
    rw [nacksWith_started hlist hsteady] at hin
    split at hin
    · rcases mem_keys_nackGap.mp hin with hmissed | hold
      · exact .inr ((hgapped k).mp (List.mem_of_mem_filter hmissed))
      · exact .inl hold
    · rw [keys_erase] at hin
      exact .inl (List.mem_of_mem_filter hin)
  · intro x hx hxn hnot
    have hknown := hgap i hi x hx hxn
    split at hknown
    · exact absurd hknown hnot
    · next hzero =>
      rw [nacksWith_started hlist hsteady, if_pos ⟨hzero, hnewer⟩]
      have hunmarked : r.session.pktHistory (BitVec.ofNat 16 x) = false :=
        Bool.eq_false_iff.mpr fun hmarked => hknown.1 hnot ((h.history _).mp hmarked)
      refine mem_keys_nackGap.mpr (.inl (List.mem_filter.mpr ⟨(hgapped _).mpr ⟨x, hx, hxn, rfl⟩, ?_⟩))
      rw [hunmarked]
      rfl
  · show (r.session.onHandleRtpNack env pkt len).nacks =
      evictNacks cfg.toRTPTransConfig (r.session.onHandleRtpNack env pkt len).lastseq _
    rw [hnacks, hlast]

/-- What each step of such a run gives. -/
theorem complete_of_tracking (hturn : back + front < 2 ^ 15) (hon : cfg.maxPacketAge ≠ 0)
    (hage : cfg.maxPacketAge.toNat ≤ back) (h : Tracking cfg back r) (e : SessionOp × Nat)
    (hindexed : r.Indexed e) (hnear : e.1.Near front back r.session) (hgap : r.GapKnown e) :
    NacksComplete cfg r e := by
  refine ⟨?_, (tracking_step hturn hon hage h e hindexed hnear hgap).received⟩
  obtain ⟨op, n⟩ := e
  intro hlist i j hi hj hlt
  have hquiet : (r.step cfg (op, n)).indices = r.indices → False := by
    intro hsame
    rw [hsame, hi] at hj
    cases Option.some.inj hj
    omega
  cases op with
  | media audio video now pkt len =>
    have hself : j = { first := i.first, highest := max i.highest n } := by
      have hafter : some (Indices.mk ((r.indices.map Indices.first).getD n)
        (max ((r.indices.map Indices.highest).getD n) n)) = some j := hj
      rw [hi] at hafter
      exact (Option.some.inj hafter).symm
    have hless : i.highest < n := by
      rw [hself] at hlt
      have hlt : i.highest < max i.highest n := hlt
      omega
    rw [hself]
    show ∃ before : NackMap, Ordered before.keys ∧ (∀ k ∈ before.keys, _ ∨
      ∃ x, i.highest < x ∧ x < max i.highest n ∧ _) ∧ (∀ x, i.highest < x → x < max i.highest n → _) ∧ _
    rw [Nat.max_eq_right (Nat.le_of_lt hless)]
    exact missing_media h audio video now pkt len n hturn hlist hi hless hindexed hnear hgap
  | arrive seq => exact (hquiet rfl).elim
  | wrap seq => exact (hquiet rfl).elim
  | mark seq => exact (hquiet rfl).elim
  | recovered seq => exact (hquiet rfl).elim
  | timer now skip => exact (hquiet rfl).elim
  | other rest => exact (hquiet rfl).elim

/-- In every run of near packets, reordered by less than half a turn and with no timestamp jump, in
which the history is right about the numbers that are skipped, every skipped number that did not
arrive is NACKed, and no number that was received. -/
theorem nacks_complete (cfg : TimerConfig) (front back : Nat) (hturn : back + front < 2 ^ 15)
    (hon : cfg.maxPacketAge ≠ 0) (hage : cfg.maxPacketAge.toNat ≤ back)
    (es : List (SessionOp × Nat))
    (hes : Each (Receipts.step cfg)
      (fun r e => r.Indexed e ∧ e.1.Near front back r.session ∧ r.GapKnown e) Receipts.new es) :
    Each (Receipts.step cfg) (NacksComplete cfg) Receipts.new es :=
  hes.imp
    (fun _ e h he => tracking_step hturn hon hage h e he.1 he.2.1 he.2.2)
    (fun _ e h he => complete_of_tracking hturn hon hage h e he.1 he.2.1 he.2.2)
    (Tracking.new cfg back)

/-- A media packet: it is marked and accounted for. -/
def packetAt (n : Nat) : List (SessionOp × Nat) :=
  [(.arrive (BitVec.ofNat 16 n), n), (SessionOp.videoAt (BitVec.ofNat 16 n), n)]

/-- The two steps of a packet near the highest one. -/
theorem indexed_of_mem_packetAt {n : Nat} {e : SessionOp × Nat} (he : e ∈ packetAt n)
    (h : match r.indices with
      | none => r.received = []
      | some i => n < i.highest + 2 ^ 15 ∧ i.highest < n + 2 ^ 15 ∧ e.1.jumps r.session = false) :
    r.Indexed e := by
  have hnear : ∀ i, r.indices = some i →
      n < i.highest + 2 ^ 15 ∧ i.highest < n + 2 ^ 15 ∧ e.1.jumps r.session = false := by
    intro i hi
    rw [hi] at h
    exact h
  have hfirst : r.indices = none → ∀ g ∈ r.received, g < n + 2 ^ 15 := by
    intro hnone g hg
    rw [hnone] at h
    rw [h] at hg
    cases hg
  rcases List.mem_cons.mp he with rfl | he
  · exact ⟨trivial, fun seq hseq => (Option.some.inj hseq).symm, fun _ _ i hi => (hnear i hi).1,
      fun _ _ => hfirst⟩
  · cases List.mem_singleton.mp he
    exact ⟨⟨rfl, hnear⟩, fun seq hseq => (Option.some.inj hseq).symm,
      fun _ _ i hi => (hnear i hi).1, fun _ _ => hfirst⟩

/-- A wrap with two packets missing. -/
theorem nacks_complete_past_wrap :
    Each (Receipts.step TimerConfig.default) (NacksComplete TimerConfig.default) Receipts.new
      (packetAt 65534 ++ packetAt 65537) := by
  have harrive : ∀ n, (SessionOp.arrive (BitVec.ofNat 16 n), n) ∈ packetAt n := fun n => .head _
  have hvideo : ∀ n, (SessionOp.videoAt (BitVec.ofNat 16 n), n) ∈ packetAt n := fun n =>
    .tail _ (.head _)
  refine nacks_complete TimerConfig.default 1000 450 (by decide) (by decide) (by decide) _
    ⟨⟨indexed_of_mem_packetAt (harrive 65534) rfl, trivial, trivial⟩,
      ⟨indexed_of_mem_packetAt (hvideo 65534) rfl, .inl rfl, fun i hi => ?_⟩,
      ⟨indexed_of_mem_packetAt (harrive 65537) ⟨by decide, by decide, by decide⟩, trivial, trivial⟩,
      ⟨indexed_of_mem_packetAt (hvideo 65537) ⟨by decide, by decide, by decide⟩,
        .inr (.inr ⟨.inl (by decide), by decide⟩), fun i hi x hx hxn => ?_⟩, trivial⟩
  · cases hi
  · cases Option.some.inj hi
    have hx : 65534 < x := hx
    rw [if_neg (by decide)]
    refine ⟨fun _ hheld => ?_, fun hin => ?_⟩
    · obtain ⟨g, hg, hsame⟩ := hheld
      have hg : g ∈ [65537] := hg
      have hmod := congrArg BitVec.toNat hsame
      rw [List.mem_singleton.mp hg, BitVec.toNat_ofNat, BitVec.toNat_ofNat] at hmod
      omega
    · have hin : x ∈ [65534] := hin
      have hself := List.mem_singleton.mp hin
      omega

/-- What is not too old stays in a list that is not too large. -/
theorem mem_evictNacks (cfg : RTPTransConfig) (latest : Seq) {k : Seq} {m : NackMap} (hk : k ∈ m.keys)
    (hyoung : tooOld cfg latest k = false) (hlen : m.length ≤ cfg.maxNacklstSize.toNat) :
    k ∈ (evictNacks cfg latest m).keys := by
  obtain ⟨e, he, rfl⟩ := List.mem_map.mp hk
  have hall : (if cfg.maxNacklstSize = 0 then m
      else m.drop (m.length - cfg.maxNacklstSize.toNat)) = m := by
    rw [Nat.sub_eq_zero_of_le hlen, List.drop_zero, ite_self]
  rw [evictNacks, hall]
  exact List.mem_map.mpr ⟨e, mem_dropWhile_of_not he hyoung, rfl⟩

/-- The packets 65535, 0 and 3: the numbers 1 and 2 are skipped and not NACKed. -/
theorem not_complete_from_zero :
    Each (Receipts.step TimerConfig.default)
        (fun r e => r.Indexed e ∧ e.1.Near 1000 450 r.session) Receipts.new
        (packetAt 65535 ++ packetAt 65536 ++ packetAt 65539) ∧
      ¬ Each (Receipts.step TimerConfig.default) (NacksComplete TimerConfig.default) Receipts.new
        (packetAt 65535 ++ packetAt 65536 ++ packetAt 65539) := by
  have harrive : ∀ n, (SessionOp.arrive (BitVec.ofNat 16 n), n) ∈ packetAt n := fun n => .head _
  have hvideo : ∀ n, (SessionOp.videoAt (BitVec.ofNat 16 n), n) ∈ packetAt n := fun n =>
    .tail _ (.head _)
  refine ⟨⟨⟨indexed_of_mem_packetAt (harrive 65535) rfl, trivial⟩,
    ⟨indexed_of_mem_packetAt (hvideo 65535) rfl, .inl rfl⟩,
    ⟨indexed_of_mem_packetAt (harrive 65536) ⟨by decide, by decide, by decide⟩, trivial⟩,
    ⟨indexed_of_mem_packetAt (hvideo 65536) ⟨by decide, by decide, by decide⟩,
      .inr (.inr ⟨.inl (by decide), by decide⟩)⟩,
    ⟨indexed_of_mem_packetAt (harrive 65539) ⟨by decide, by decide, by decide⟩, trivial⟩,
    ⟨indexed_of_mem_packetAt (hvideo 65539) ⟨by decide, by decide, by decide⟩,
      .inr (.inr ⟨.inl (by decide), by decide⟩)⟩, trivial⟩, fun h => ?_⟩
  obtain ⟨before, hord, hkeys, hmissing, hnacks⟩ := h.2.2.2.2.2.1.missing (by decide)
    ⟨65535, 65536⟩ ⟨65535, 65539⟩ rfl rfl (by decide)
  have hin : (1 : Seq) ∈ before.keys :=
    hmissing 65537 (by decide) (by decide) (by decide)
  have hsub : before.keys ⊆ [1, 2] := by
    intro k hk
    rcases hkeys k hk with hold | ⟨x, hx, hxn, rfl⟩
    · cases hold
    · have hx : 65536 < x := hx
      have hxn : x < 65539 := hxn
      obtain rfl | rfl : x = 65537 ∨ x = 65538 := by omega
      · decide
      · decide
  have hlen : before.length ≤ 2 := by
    have hle := List.Nodup.length_le_of_subset hord.nodup hsub
    rwa [NackMap.keys, List.length_map] at hle
  have hstays := mem_evictNacks RTPTransConfig.default 3 hin (by decide)
    (Nat.le_trans hlen (by decide))
  have hempty : (evictNacks RTPTransConfig.default 3 before).keys = [] :=
    congrArg NackMap.keys hnacks.symm
  rw [hempty] at hstays
  cases hstays

end Runs

/-! ## One turn at a time -/

section OneTurn

variable {cfg : TimerConfig} {front back : Nat} {r : Receipts}

/-- The step accounts for a media packet. -/
def SessionOp.IsMedia : SessionOp → Prop
  | .media .. => True
  | _ => False

/-- What the history holds comes from one turn, and nothing but what arrived; it is not cleared of a
number that was received ahead of the highest one. A media packet is marked before it is accounted
for, and from 0 it skips only numbers that arrived. -/
structure Receipts.OneTurn (r : Receipts) (e : SessionOp × Nat) : Prop where
  turn : ∀ g ∈ r.heldAfter e, ∀ g' ∈ r.heldAfter e, g / 2 ^ 16 = g' / 2 ^ 16
  arrived : ∀ seq, e.1 = .mark seq → e.2 ∈ r.arrived
  kept : ∀ g ∈ r.received, (∀ i, r.indices = some i → i.highest < g) → g ∈ r.heldAfter e
  marked : e.1.IsMedia → e.2 ∈ r.held
  zero : e.1.IsMedia → r.session.lastseq = 0 → ∀ i, r.indices = some i →
    ∀ x, i.highest < x → x < e.2 → x ∈ r.arrived

/-- The history holds one turn of what arrived, near the highest number. -/
structure HoldsTurn (r : Receipts) : Prop where
  turn : ∀ g ∈ r.held, ∀ g' ∈ r.held, g / 2 ^ 16 = g' / 2 ^ 16
  arrived : ∀ g ∈ r.held, g ∈ r.arrived
  kept : ∀ g ∈ r.received, (∀ i, r.indices = some i → i.highest < g) → g ∈ r.held
  near : ∀ g ∈ r.held, ∀ i, r.indices = some i →
    g < i.highest + 2 ^ 15 ∨ g / 2 ^ 16 = i.highest / 2 ^ 16

theorem HoldsTurn.new : HoldsTurn Receipts.new where
  turn g hg := by cases hg
  arrived g hg := by cases hg
  kept g hg := by cases hg
  near g hg := by cases hg

/-- The history is then right about what a packet skips. -/
theorem HoldsTurn.gapKnown (h : HoldsTurn r) (e : SessionOp × Nat) (hindexed : r.Indexed e)
    (hturn : r.OneTurn e) : r.GapKnown e := by
  obtain ⟨op, n⟩ := e
  cases op with
  | media audio video now pkt len =>
    intro i hi x hx hxn
    have hfront := hindexed.near pkt.seq rfl i hi
    have hself := hturn.marked trivial
    split
    · next hzero => exact hturn.zero trivial hzero i hi x hx hxn
    · refine ⟨fun hnot hheld => ?_, fun hin => ?_⟩
      · -- a mark of the same number is of the same index: it is on the turn of the packet, and not
        -- half a turn ahead of the highest number
        obtain ⟨g, hg, hsame⟩ := hheld
        have hmod := congrArg BitVec.toNat hsame
        rw [BitVec.toNat_ofNat, BitVec.toNat_ofNat] at hmod
        have hpacket := h.turn g hg n hself
        have hnear := h.near g hg i hi
        have hx : i.highest < x := hx
        have hxn : x < n := hxn
        have hg' : g = x := by omega
        exact hnot (hg' ▸ h.arrived g hg)
      · refine ⟨x, h.kept x hin fun j hj => ?_, rfl⟩
        rw [hi] at hj
        cases Option.some.inj hj
        exact hx
  | arrive seq => trivial
  | wrap seq => trivial
  | mark seq => trivial
  | recovered seq => trivial
  | timer now skip => trivial
  | other rest => trivial

/-- What is held after a step was held before, or is the packet of the step. -/
theorem mem_heldAfter (cfg : TimerConfig) {e : SessionOp × Nat} (hturn : r.OneTurn e) {g : Nat}
    (hg : g ∈ r.heldAfter e) :
    g ∈ r.held ∨ g = e.2 ∧ (∃ seq, e.1.number = some seq) ∧ e.2 ∈ (r.step cfg e).arrived := by
  obtain ⟨op, n⟩ := e
  have hold : ∀ seq, g ∈ (if BeginsTurn r.session.lastseq seq then [] else r.held) →
      g ∈ r.held := by
    intro seq hin
    split at hin
    · cases hin
    · exact hin
  cases op with
  | media audio video now pkt len => exact .inl hg
  | arrive seq =>
    rcases List.mem_cons.mp hg with rfl | hg
    · exact .inr ⟨rfl, ⟨seq, rfl⟩, List.mem_cons_self⟩
    · exact .inl (hold seq hg)
  | wrap seq => exact .inl (hold seq hg)
  | mark seq =>
    rcases List.mem_cons.mp hg with rfl | hg
    · exact .inr ⟨rfl, ⟨seq, rfl⟩, hturn.arrived seq rfl⟩
    · exact .inl hg
  | recovered seq =>
    rcases List.mem_cons.mp hg with rfl | hg
    · exact .inr ⟨rfl, ⟨seq, rfl⟩, List.mem_cons_self⟩
    · exact .inl hg
  | timer now skip => exact .inl hg
  | other rest => exact .inl hg

theorem mem_arrived_step (cfg : TimerConfig) (e : SessionOp × Nat) {g : Nat} (hg : g ∈ r.arrived) :
    g ∈ (r.step cfg e).arrived := by
  obtain ⟨op, n⟩ := e
  cases op <;> first | exact hg | exact List.mem_cons_of_mem n hg

/-- A step that leaves the highest number. -/
theorem holdsTurn_quiet (h : HoldsTurn r) (e : SessionOp × Nat) (hindexed : r.Indexed e)
    (hturn : r.OneTurn e) (hindices : (r.step cfg e).indices = r.indices)
    (hreceived : ∀ g ∈ (r.step cfg e).received, g ∈ r.received ∨ g ∈ r.heldAfter e) :
    HoldsTurn (r.step cfg e) := by
  refine ⟨hturn.turn, fun g hg => ?_, fun g hg hhigh => ?_, fun g hg i hi => ?_⟩
  · rcases mem_heldAfter cfg hturn hg with hold | ⟨rfl, -, harrived⟩
    · exact mem_arrived_step cfg e (h.arrived g hold)
    · exact harrived
  · rw [hindices] at hhigh
    exact (hreceived g hg).elim (fun hold => hturn.kept g hold hhigh) id
  · rw [hindices] at hi
    rcases mem_heldAfter cfg hturn hg with hold | ⟨rfl, ⟨seq, hseq⟩, -⟩
    · exact h.near g hold i hi
    · exact .inl (hindexed.near seq hseq i hi)

/-- A media packet, whose turn the history holds. -/
theorem holdsTurn_media (h : HoldsTurn r) (audio video : BitVec 32) (now : Nat) (pkt : Rtp)
    (len n : Nat) (hturn : r.OneTurn (.media audio video now pkt len, n)) :
    HoldsTurn (r.step cfg (.media audio video now pkt len, n)) := by
  have hself := hturn.marked trivial
  have hindices : (r.step cfg (.media audio video now pkt len, n)).indices =
      some { first := (r.indices.map Indices.first).getD n
             highest := max ((r.indices.map Indices.highest).getD n) n } := rfl
  refine ⟨h.turn, fun g hg => List.mem_cons_of_mem n (h.arrived g hg), fun g hg hhigh => ?_,
    fun g hg j hj => ?_⟩
  · have hmax : max ((r.indices.map Indices.highest).getD n) n < g := hhigh _ hindices
    rcases List.mem_cons.mp hg with rfl | hg
    · omega
    · refine h.kept g hg fun i hi => ?_
      rw [hi] at hmax
      have hmax : max i.highest n < g := hmax
      omega
  · rw [hindices] at hj
    cases Option.some.inj hj
    have hpacket := h.turn g hg n hself
    show g < max ((r.indices.map Indices.highest).getD n) n + 2 ^ 15 ∨
      g / 2 ^ 16 = max ((r.indices.map Indices.highest).getD n) n / 2 ^ 16
    cases hi : r.indices with
    | none => exact .inr (hpacket.trans (congrArg (· / 2 ^ 16) (Nat.max_self n).symm))
    | some i =>
      show g < max i.highest n + 2 ^ 15 ∨ g / 2 ^ 16 = max i.highest n / 2 ^ 16
      rcases Nat.le_total n i.highest with hle | hle
      · rw [Nat.max_eq_left hle]
        exact h.near g hg i hi
      · rw [Nat.max_eq_right hle]
        exact .inr hpacket

theorem holdsTurn_step (h : HoldsTurn r) (e : SessionOp × Nat) (hindexed : r.Indexed e)
    (hturn : r.OneTurn e) : HoldsTurn (r.step cfg e) := by
  obtain ⟨op, n⟩ := e
  cases op with
  | media audio video now pkt len => exact holdsTurn_media h audio video now pkt len n hturn
  | arrive seq => exact holdsTurn_quiet h _ hindexed hturn rfl fun g hg => .inl hg
  | wrap seq => exact holdsTurn_quiet h _ hindexed hturn rfl fun g hg => .inl hg
  | mark seq => exact holdsTurn_quiet h _ hindexed hturn rfl fun g hg => .inl hg
  | recovered seq =>
    refine holdsTurn_quiet h _ hindexed hturn rfl fun g hg => ?_
    rcases List.mem_cons.mp hg with rfl | hg
    · exact .inr List.mem_cons_self
    · exact .inl hg
  | timer now skip => exact holdsTurn_quiet h _ hindexed hturn rfl fun g hg => .inl hg
  | other rest => exact holdsTurn_quiet h _ hindexed hturn rfl fun g hg => .inl hg

/-- A run in which the history holds one turn at a time, over any number of turns, knows what it
skips. -/
theorem gapKnown_of_oneTurn (cfg : TimerConfig) (es : List (SessionOp × Nat))
    (hes : Each (Receipts.step cfg) (fun r e => r.Indexed e ∧ r.OneTurn e) Receipts.new es) :
    Each (Receipts.step cfg) Receipts.GapKnown Receipts.new es :=
  hes.imp (fun _ e h he => holdsTurn_step h e he.1 he.2) (fun _ e h he => h.gapKnown e he.1 he.2)
    HoldsTurn.new

end OneTurn

end RtcMcu.RtpTrans
