import Mathlib.Data.List.Range
import RtcMcu.Lib.Serial
import RtcMcu.RtpTrans.MaskFec

/-!
# Which packets mask FEC covers

A session sends an unbounded stream in order, and `_on_handle_rtp_fec` sends its FEC packets over the
blocks behind it. A packet of the stream is named by its index, which counts on where its number
wraps. What a FEC packet sums up is read off its `sn_base`: the members of that group which the cache
still holds.
-/

namespace RtcMcu.RtpTrans

open RtcMcu.Avformat RtcMcu.Fragment RtcMcu.Parity RtcMcu.Serial

/-! ## The stream -/

/-- Consecutive media packets of one kind; the first one sent is that of index 1. -/
structure MediaStream where
  payload : RTPAVType
  packet : Nat → Rtp
  numbered : ∀ i, (packet i).seq = BitVec.ofNat 16 i
  payload_eq : ∀ i, (packet i).payload = payload

namespace MediaStream

variable (m : MediaStream) (cfg : RTPTransConfig) (held : Nat → Nat → Bool)

/-- The last packet with the number `t` when packet `e` goes out; 0 if there is none. -/
def latest (e : Nat) (t : Seq) : Nat := e - ahead t (BitVec.ofNat 16 e)

/-- Packet `i` can be had from the cache when packet `e` goes out. -/
def has (e i : Nat) : Bool := 0 < i && held e i

/-- `get_rtp_by_ssrc_seq` when packet `e` goes out: the last packet of that number, if the cache
still holds it. -/
def cache (e : Nat) : GetRtp := fun _ t =>
  if has held e (latest e t) then .ok (some (m.packet (latest e t)), (m.packet (latest e t)).len)
  else .ok (none, 0)

/-- The session sends the packets 1 to `count`. The FEC packets it sends are listed with the index
of the packet they follow. -/
def run (timeBase : BitVec 32) (s : RTPSendSession) :
    Nat → Except Fault (RTPSendSession × List (Nat × Rtp))
  | 0 => .ok (s, [])
  | count + 1 => do
    let (s, fecs) ← run timeBase s count
    let p := m.packet (count + 1)
    let (s, sent) ← s.onHandleRtp cfg (m.cache held (count + 1)) timeBase p p.len
    .ok (s, fecs ++ sent.map fun x => (count + 1, x.1))

/-- `fec_rtp_count` for the stream. -/
def fecCount : BitVec 32 := maskFecCount cfg (m.packet 0)

/-- The length of a block, `fec_interleave_package_val * fec_rtp_count` as the code computes it. -/
def blockLen : Nat := (cfg.fecInterleavePackageVal * m.fecCount cfg).toNat

/-- What the loop over a group sums up when packet `e` goes out. -/
def groupXored (e : Nat) (g : MaskGroup) : List Nat :=
  ((List.range g.n).map fun i => latest e (g.member i)).filter (has held e)

/-- The packets that are xored into a FEC packet sent after packet `e`. -/
def xored (e : Nat) (fec : Rtp) : List Nat :=
  groupXored held e
    { seqBase := (FecHeader.read fec.data).snBase
      n := (m.fecCount cfg).toNat
      k := cfg.fecInterleavePackageVal.toNat }

/-- The numbers that a FEC packet denotes with `sn_base` and the mask. -/
def denoted (fec : Rtp) : List Seq :=
  let h := FecHeader.read fec.data
  ((List.range 24).filter h.mask.getLsbD).map fun i => h.snBase + BitVec.ofNat 16 i

/-- Once `count` packets are sent, every FEC packet denotes what is xored into it, and every packet
of a complete block is xored into the FEC packets once. -/
def Protected (timeBase : BitVec 32) (s : RTPSendSession) (count : Nat) : Prop :=
  ∃ s' fecs, m.run cfg held timeBase s count = .ok (s', fecs) ∧
    (∀ x ∈ fecs, ∀ t, t ∈ denoted x.2 ↔
      t ∈ (m.xored cfg held x.1 x.2).map (BitVec.ofNat 16)) ∧
    ∀ p, 0 < p → p ≤ m.blockLen cfg * (count / m.blockLen cfg) →
      (fecs.flatMap fun x => m.xored cfg held x.1 x.2).count p = 1

/-! ## The sum over the packets that are found -/

/-- The sum over those of the first `c` members that are found. -/
structure FoundSums (k : Nat) (found : Nat → Bool) (pkts : Nat → Rtp) (acc : MaskSum) (c : Nat) :
    Prop where
  sum : acc.sum.Sums (2048 - rtpHeaderLen - fecHeaderLen - fecExtendHeaderLen)
    (((List.range c).filter found).map pkts)
  mask : ∀ j, j < 24 → (acc.mask.getLsbD j = true ↔ ∃ i, i < c ∧ found i = true ∧ i * k % 32 = j)

theorem foundSums_foldl (ssrc : BitVec 32) (k : Nat) (found : Nat → Bool) (pkts : Nat → Rtp)
    (c : Nat) :
    FoundSums k found pkts
      ((List.range c).foldl (fun acc i =>
        if found i then MaskSum.plus ssrc acc (i * k) (pkts i) else acc) MaskSum.start) c := by
  induction c with
  | zero =>
    refine ⟨FecSum.start_sums _, fun j _ => ⟨fun h => ?_, fun ⟨i, hi, _⟩ => ?_⟩⟩
    · have hzero : (0 : BitVec 32).getLsbD j = false := BitVec.getLsbD_zero
      exact absurd (hzero.symm.trans h) Bool.false_ne_true
    · exact absurd hi (Nat.not_lt_zero i)
  | succ c ih =>
    rw [List.range_succ, List.foldl_append, List.foldl_cons, List.foldl_nil]
    generalize (List.range c).foldl (fun acc i =>
      if found i then MaskSum.plus ssrc acc (i * k) (pkts i) else acc) MaskSum.start = acc at ih
    by_cases hfound : found c = true
    · rw [if_pos hfound]
      refine ⟨?_, fun j hj => ?_⟩
      · rw [List.range_succ, List.filter_append, List.filter_cons_of_pos hfound, List.filter_nil,
          List.map_append]
        exact FecSum.plus_sums ih.sum ssrc (pkts c)
      · have hbit : (1#32 <<< (c * k % 32)).getLsbD j = true ↔ c * k % 32 = j := by
          have hlt : c * k % 32 < 32 := Nat.mod_lt _ (by decide)
          rw [BitVec.getLsbD_shiftLeft, BitVec.getLsbD_one]
          simp only [Bool.and_eq_true, Bool.not_eq_true', decide_eq_true_eq,
            decide_eq_false_iff_not]
          omega
        rw [MaskSum.plus, BitVec.getLsbD_or, Bool.or_eq_true, ih.mask j hj, hbit]
        constructor
        · rintro (⟨i, hi, hik⟩ | hcj)
          · exact ⟨i, Nat.lt_succ_of_lt hi, hik⟩
          · exact ⟨c, Nat.lt_succ_self c, hfound, hcj⟩
        · rintro ⟨i, hi, hif, hik⟩
          rcases Nat.lt_succ_iff_lt_or_eq.mp hi with hlt | rfl
          · exact .inl ⟨i, hlt, hif, hik⟩
          · exact .inr hik
    · rw [if_neg hfound]
      refine ⟨?_, fun j hj => ?_⟩
      · rw [List.range_succ, List.filter_append, List.filter_cons_of_neg hfound, List.filter_nil,
          List.append_nil]
        exact ih.sum
      · rw [ih.mask j hj]
        constructor
        · rintro ⟨i, hi, hik⟩
          exact ⟨i, Nat.lt_succ_of_lt hi, hik⟩
        · rintro ⟨i, hi, hif, hik⟩
          rcases Nat.lt_succ_iff_lt_or_eq.mp hi with hlt | rfl
          · exact ⟨i, hlt, hif, hik⟩
          · exact absurd hif hfound

/-- A FEC packet of a group, over the members that are found when packet `e` goes out. -/
def Emits (e : Nat) (g : MaskGroup) (fec : Rtp) : Prop :=
  ∃ acc, FoundSums g.k (fun i => has held e (latest e (g.member i)))
    (fun i => m.packet (latest e (g.member i))) acc g.n ∧ fec = g.packet acc

/-- The round of a group sends a FEC packet if any member is found. -/
theorem sendMaskFec_cache (s : RTPSendSession) (e : Nat) (g : MaskGroup) :
    ∃ s' sent, s.sendMaskFec (m.cache held e) g = .ok (s', sent) ∧
      List.Forall₂ (fun g x => m.Emits held e g x.1)
        ([g].filter fun g => groupXored held e g ≠ []) sent := by
  have hsums := foundSums_foldl s.ssrc g.k (fun i => has held e (latest e (g.member i)))
    (fun i => m.packet (latest e (g.member i))) g.n
  have hsum : g.sum (m.cache held e) (s.payloadType == RTP_AV_H264) s.ssrc =
      .ok ((List.range g.n).foldl (fun acc i =>
        if has held e (latest e (g.member i)) then
          MaskSum.plus s.ssrc acc (i * g.k) (m.packet (latest e (g.member i)))
        else acc) MaskSum.start) := by
    refine foldlM_ok (List.range g.n) ?_ MaskSum.start
    intro i _ acc
    rw [cache]
    split
    · rw [ok_bind]
      show MaskSum.add s.ssrc acc (i * g.k) _ _ = _
      rw [MaskSum.add, FecSum.add_len]
      rfl
    · rfl
  generalize (List.range g.n).foldl (fun acc i =>
    if has held e (latest e (g.member i)) then
      MaskSum.plus s.ssrc acc (i * g.k) (m.packet (latest e (g.member i)))
    else acc) MaskSum.start = acc at hsums hsum
  have hempty : acc.sum.isFirst = true ↔ groupXored held e g = [] := by
    rw [hsums.sum.isFirst, List.isEmpty_iff, List.map_eq_nil_iff, groupXored, List.filter_map,
      List.map_eq_nil_iff]
    rfl
  rw [RTPSendSession.sendMaskFec, hsum, ok_bind]
  cases hfirst : acc.sum.isFirst with
  | true =>
    simp only [if_true]
    refine ⟨_, _, rfl, ?_⟩
    rw [List.filter_cons_of_neg (by simpa using hempty.mp hfirst)]
    exact .nil
  | false =>
    simp only [Bool.false_eq_true, if_false]
    refine ⟨_, _, rfl, ?_⟩
    have hne : groupXored held e g ≠ [] := fun h => by
      rw [hempty.mpr h] at hfirst
      cases hfirst
    rw [List.filter_cons_of_pos (by simpa using hne)]
    exact .cons ⟨acc, hsums, rfl⟩ .nil

/-- The rounds send one FEC packet for each group of which a member is found. -/
theorem sendMaskFecs_cache (e : Nat) (gs : List MaskGroup) (s : RTPSendSession) :
    ∃ s' sent, s.sendMaskFecs (m.cache held e) gs = .ok (s', sent) ∧
      List.Forall₂ (fun g x => m.Emits held e g x.1)
        (gs.filter fun g => groupXored held e g ≠ []) sent := by
  induction gs generalizing s with
  | nil => exact ⟨s, [], rfl, .nil⟩
  | cons g gs ih =>
    obtain ⟨s₁, sent₁, h₁, hsent₁⟩ := m.sendMaskFec_cache held s e g
    obtain ⟨s₂, sent₂, h₂, hsent₂⟩ := ih s₁
    simp only [RTPSendSession.sendMaskFecs, h₁, h₂, ok_bind]
    refine ⟨s₂, _, rfl, ?_⟩
    rw [← List.singleton_append, List.filter_append]
    exact List.rel_append hsent₁ hsent₂

/-! ## The run -/

variable (hn : m.fecCount cfg ≠ 0) (hk : 0 < cfg.fecInterleavePackageVal)

theorem maskFecCount_eq (e : Nat) : maskFecCount cfg (m.packet e) = m.fecCount cfg := by
  rw [fecCount, maskFecCount, maskFecCount, m.payload_eq, m.payload_eq]

/-- The groups that packet `e` completes and of which a member is found. -/
def foundGroups (e : Nat) : List MaskGroup :=
  (completedGroups cfg (m.packet e)).filter fun g => groupXored held e g ≠ []

include hn hk

theorem completedGroups_packet (e : Nat) :
    completedGroups cfg (m.packet e) =
      if 0 < (m.packet e).seq ∧ (m.packet e).seq.setWidth 32 %
          (cfg.fecInterleavePackageVal * m.fecCount cfg) = 0 then
        maskGroups (m.fecCount cfg) cfg.fecInterleavePackageVal (m.packet e).seq
      else [] := by
  simp only [completedGroups, m.maskFecCount_eq, hn, hk, ne_eq, not_false_eq_true, true_and]

/-- `_on_handle_rtp_fec` sends the FEC packets of the groups that the packet completes. -/
theorem onHandleRtpFec_cache (hB : m.blockLen cfg ≠ 0) (s : RTPSendSession) (e : Nat) :
    ∃ s' sent, s.onHandleRtpFec cfg (m.cache held e) (m.packet e) = .ok (s', sent) ∧
      List.Forall₂ (fun g x => m.Emits held e g x.1) (m.foundGroups cfg held e) sent := by
  have hprod : cfg.fecInterleavePackageVal * m.fecCount cfg ≠ 0 := by
    intro hzero
    apply hB
    rw [blockLen, hzero]
    rfl
  rw [foundGroups, m.completedGroups_packet cfg hn hk]
  simp only [RTPSendSession.onHandleRtpFec, m.maskFecCount_eq, if_neg hn, if_pos hk,
    if_neg hprod]
  by_cases hpos : 0 < (m.packet e).seq
  · rw [if_pos hpos]
    by_cases hmod : (m.packet e).seq.setWidth 32 %
        (cfg.fecInterleavePackageVal * m.fecCount cfg) = 0
    · rw [if_pos hmod, if_pos ⟨hpos, hmod⟩]
      exact m.sendMaskFecs_cache held e _ s
    · rw [if_neg hmod, if_neg fun h => hmod h.2]
      exact ⟨s, [], rfl, .nil⟩
  · rw [if_neg hpos, if_neg fun h => hpos h.1]
    exact ⟨s, [], rfl, .nil⟩

theorem onHandleRtp_cache (hB : m.blockLen cfg ≠ 0) (timeBase : BitVec 32) (s : RTPSendSession)
    (e len : Nat) :
    ∃ s' sent, s.onHandleRtp cfg (m.cache held e) timeBase (m.packet e) len = .ok (s', sent) ∧
      List.Forall₂ (fun g x => m.Emits held e g x.1) (m.foundGroups cfg held e) sent := by
  obtain ⟨s', sent, hrun, hsent⟩ := m.onHandleRtpFec_cache cfg held hn hk hB
    { s with toRTPSession := s.toRTPSession.adopt (m.packet e) } e
  simp only [RTPSendSession.onHandleRtp, hrun, ok_bind]
  exact ⟨_, sent, rfl, hsent⟩

/-- A run sends the FEC packets of the groups that its packets complete. -/
theorem run_emits (hB : m.blockLen cfg ≠ 0) (timeBase : BitVec 32) (s : RTPSendSession)
    (count : Nat) :
    ∃ s' fecs, m.run cfg held timeBase s count = .ok (s', fecs) ∧
      List.Forall₂ (fun eg x => x.1 = eg.1 ∧ m.Emits held eg.1 eg.2 x.2)
        ((List.range' 1 count).flatMap fun e => (m.foundGroups cfg held e).map (Prod.mk e))
        fecs := by
  induction count with
  | zero => exact ⟨s, [], rfl, .nil⟩
  | succ count ih =>
    obtain ⟨s₁, fecs, h₁, hfecs⟩ := ih
    obtain ⟨s₂, sent, h₂, hsent⟩ :=
      m.onHandleRtp_cache cfg held hn hk hB timeBase s₁ (count + 1) (m.packet (count + 1)).len
    simp only [run, h₁, h₂, ok_bind]
    refine ⟨s₂, _, rfl, ?_⟩
    rw [List.range'_concat, List.flatMap_append, List.flatMap_singleton, Nat.one_mul,
      Nat.add_comm 1 count]
    apply List.rel_append hfecs
    rw [List.forall₂_map_left_iff, List.forall₂_map_right_iff]
    exact hsent.imp fun g x hx => ⟨rfl, hx⟩

omit hn hk

/-- A FEC packet is the sum of the packets that are xored into it. -/
theorem Emits.sums {e : Nat} {g : MaskGroup} {fec : Rtp} (h : m.Emits held e g fec) :
    ∃ acc : MaskSum, fec = g.packet acc ∧
      acc.sum.Sums (2048 - rtpHeaderLen - fecHeaderLen - fecExtendHeaderLen)
        ((groupXored held e g).map m.packet) := by
  obtain ⟨acc, hacc, rfl⟩ := h
  refine ⟨acc, rfl, ?_⟩
  rw [groupXored, List.filter_map, List.map_map]
  exact hacc.sum

/-- The header of a FEC packet. -/
theorem Emits.header {e : Nat} {g : MaskGroup} {fec : Rtp} (h : m.Emits held e g fec) :
    (FecHeader.read fec.data).snBase = g.seqBase ∧
      ∀ j, j < 24 → ((FecHeader.read fec.data).mask.getLsbD j = true ↔
        ∃ i, i < g.n ∧ has held e (latest e (g.member i)) = true ∧ i * g.k % 32 = j) := by
  obtain ⟨acc, hacc, rfl⟩ := h
  have hread : FecHeader.read (g.packet acc).data =
      FecHeader.mk g.seqBase acc.sum.length acc.sum.payload 1 (acc.mask.setWidth 24)
        acc.sum.timestamp := FecHeader.read_bytes _ _
  rw [hread]
  refine ⟨rfl, fun j hj => ?_⟩
  rw [← hacc.mask j hj]
  change (acc.mask.setWidth 24).getLsbD j = true ↔ _
  rw [BitVec.getLsbD_setWidth, decide_eq_true hj, Bool.true_and]

/-! ## What the FEC packets of a run cover -/

/-- What is xored into the FEC packets that follow packet `e`. -/
def covered (e : Nat) : List Nat :=
  (completedGroups cfg (m.packet e)).flatMap (groupXored held e)

/-- What leaves nothing behind may be left out. -/
theorem flatMap_filter_ne_nil {α β : Type} [DecidableEq β] (l : List α) (f : α → List β) :
    (l.filter fun a => f a ≠ []).flatMap f = l.flatMap f := by
  induction l with
  | nil => rfl
  | cons a l ih =>
    by_cases ha : f a = []
    · rw [List.filter_cons_of_neg (by simpa using ha), List.flatMap_cons, ha, ih]
      rfl
    · rw [List.filter_cons_of_pos (by simpa using ha), List.flatMap_cons, List.flatMap_cons, ih]

/-- Every number below `n * k` is `j + i * k` for one `j` below `k` and one `i` below `n`. -/
theorem interleaved_perm (n k : Nat) :
    ((List.range k).flatMap fun j => (List.range n).map fun i => j + i * k).Perm
      (List.range (n * k)) := by
  have hmod : ∀ {j i : Nat}, j < k → (j + i * k) % k = j := by
    intro j i hj
    rw [Nat.add_mul_mod_self_right, Nat.mod_eq_of_lt hj]
  have hdiv : ∀ {j i : Nat}, j < k → (j + i * k) / k = i := by
    intro j i hj
    rw [Nat.add_mul_div_right _ _ (Nat.lt_of_le_of_lt (Nat.zero_le j) hj), Nat.div_eq_of_lt hj,
      Nat.zero_add]
  apply (List.perm_ext_iff_of_nodup ?_ List.nodup_range).mpr
  · intro x
    simp only [List.mem_flatMap, List.mem_map, List.mem_range]
    constructor
    · rintro ⟨j, hj, i, hi, rfl⟩
      have hle : (i + 1) * k ≤ n * k := Nat.mul_le_mul_right k hi
      rw [Nat.succ_mul] at hle
      omega
    · intro hx
      have hk : 0 < k := by
        rcases Nat.eq_zero_or_pos k with rfl | hk
        · rw [Nat.mul_zero] at hx
          exact absurd hx (Nat.not_lt_zero x)
        · exact hk
      refine ⟨x % k, Nat.mod_lt x hk, x / k, Nat.div_lt_of_lt_mul (by rwa [Nat.mul_comm k n]), ?_⟩
      rw [Nat.mul_comm, Nat.mod_add_div]
  · apply List.nodup_flatMap.mpr
    constructor
    · intro j hj
      refine List.Nodup.map_on ?_ List.nodup_range
      intro i _ i' _ heq
      rw [← hdiv (i := i) (List.mem_range.mp hj), heq, hdiv (List.mem_range.mp hj)]
    · refine List.nodup_range.pairwise_of_forall_ne ?_
      intro j hj j' hj' hne
      refine List.disjoint_left.mpr ?_
      intro x hx hx'
      obtain ⟨i, -, rfl⟩ := List.mem_map.mp hx
      obtain ⟨i', -, heq⟩ := List.mem_map.mp hx'
      apply hne
      rw [← hmod (i := i) (List.mem_range.mp hj), ← heq, hmod (List.mem_range.mp hj')]

theorem xored_of_emits {e : Nat} {g : MaskGroup} {fec : Rtp} (h : m.Emits held e g fec)
    (hn' : g.n = (m.fecCount cfg).toNat) (hk' : g.k = cfg.fecInterleavePackageVal.toNat) :
    m.xored cfg held e fec = groupXored held e g := by
  rw [xored, h.header.1, ← hn', ← hk']

include hn hk

/-- The groups have the configured count and interleaving. -/
theorem mem_completedGroups {e : Nat} {g : MaskGroup}
    (hg : g ∈ completedGroups cfg (m.packet e)) :
    g.n = (m.fecCount cfg).toNat ∧ g.k = cfg.fecInterleavePackageVal.toNat := by
  rw [m.completedGroups_packet cfg hn hk] at hg
  split at hg
  · obtain ⟨j, -, rfl⟩ := List.mem_map.mp hg
    exact ⟨rfl, rfl⟩
  · cases hg

/-- What is xored into the FEC packets of a run, packet by packet. -/
theorem run_covers {timeBase : BitVec 32} {s s' : RTPSendSession} {count : Nat}
    {fecs : List (Nat × Rtp)} (hB : m.blockLen cfg ≠ 0)
    (hrun : m.run cfg held timeBase s count = .ok (s', fecs)) :
    (fecs.flatMap fun x => m.xored cfg held x.1 x.2) =
      (List.range' 1 count).flatMap (m.covered cfg held) := by
  obtain ⟨s₁, fecs₁, hrun₁, hemits⟩ := m.run_emits cfg held hn hk hB timeBase s count
  rw [hrun] at hrun₁
  cases hrun₁
  have hgroups : ∀ eg ∈ (List.range' 1 count).flatMap fun e =>
      (m.foundGroups cfg held e).map (Prod.mk e), eg.2.n = (m.fecCount cfg).toNat ∧
        eg.2.k = cfg.fecInterleavePackageVal.toNat := by
    intro eg heg
    obtain ⟨e, -, heg⟩ := List.mem_flatMap.mp heg
    obtain ⟨g, hg, rfl⟩ := List.mem_map.mp heg
    exact m.mem_completedGroups cfg hn hk (List.mem_of_mem_filter hg)
  have hflat : ∀ {pairs : List (Nat × MaskGroup)} {fecs : List (Nat × Rtp)},
      List.Forall₂ (fun eg x => x.1 = eg.1 ∧ m.Emits held eg.1 eg.2 x.2) pairs fecs →
      (∀ eg ∈ pairs, eg.2.n = (m.fecCount cfg).toNat ∧
        eg.2.k = cfg.fecInterleavePackageVal.toNat) →
      (fecs.flatMap fun x => m.xored cfg held x.1 x.2) =
        pairs.flatMap fun eg => groupXored held eg.1 eg.2 := by
    intro pairs fecs h
    induction h with
    | nil => exact fun _ => rfl
    | @cons eg x pairs fecs hx _ ih =>
      intro hall
      obtain ⟨hn', hk'⟩ := hall eg List.mem_cons_self
      rw [List.flatMap_cons, List.flatMap_cons, ih fun eg heg => hall eg (List.mem_cons_of_mem _ heg),
        hx.1, m.xored_of_emits cfg held hx.2 hn' hk']
  rw [hflat hemits hgroups, List.flatMap_assoc]
  refine List.flatMap_congr fun e _ => ?_
  rw [List.flatMap_map, covered]
  exact flatMap_filter_ne_nil _ _

omit hn hk

/-! ## Blocks -/

/-- Packet `e` ends a block: its number is a multiple of the block's length, and not 0. -/
def EndsBlock (e : Nat) : Prop := 0 < e % 2 ^ 16 ∧ e % 2 ^ 16 % m.blockLen cfg = 0

/-- `seq_base` of the first group when packet `e` ends a block. -/
def blockBase (e : Nat) : Seq := BitVec.ofNat 16 e - BitVec.ofNat 16 (m.blockLen cfg) + 1

theorem latest_ofNat {e i : Nat} (hi : i ≤ e) (hnear : e - i < 2 ^ 16) :
    latest e (BitVec.ofNat 16 i) = i := by
  have hahead : ahead (BitVec.ofNat 16 i) (BitVec.ofNat 16 e) = e - i := by
    rw [ahead, BitVec.toNat_sub, BitVec.toNat_ofNat, BitVec.toNat_ofNat]
    omega
  rw [latest, hahead]
  omega

/-- The last packet of a number has the number. -/
theorem ofNat_latest {e : Nat} {t : Seq} (h : 0 < latest e t) :
    BitVec.ofNat 16 (latest e t) = t := by
  have hlt := ahead_lt t (BitVec.ofNat 16 e)
  rw [latest] at h ⊢
  apply BitVec.eq_of_toNat_eq
  rw [BitVec.toNat_ofNat]
  rw [ahead, BitVec.toNat_sub, BitVec.toNat_ofNat] at h hlt ⊢
  have ht := t.isLt
  omega

theorem blockBase_add {e x : Nat} (hB : m.blockLen cfg ≤ e) :
    m.blockBase cfg e + BitVec.ofNat 16 x = BitVec.ofNat 16 (e - m.blockLen cfg + 1 + x) := by
  apply BitVec.eq_of_toNat_eq
  have hone : (1 : BitVec 16).toNat = 1 := rfl
  rw [blockBase, BitVec.toNat_add, BitVec.toNat_add, BitVec.toNat_sub, BitVec.toNat_ofNat,
    BitVec.toNat_ofNat, BitVec.toNat_ofNat, BitVec.toNat_ofNat, hone]
  omega

/-- The packets of the block that `e` ends. -/
theorem latest_blockBase {e x : Nat} (hB : m.blockLen cfg ≤ e) (hsmall : m.blockLen cfg < 2 ^ 16)
    (hx : x < m.blockLen cfg) :
    latest e (m.blockBase cfg e + BitVec.ofNat 16 x) = e - m.blockLen cfg + 1 + x := by
  rw [m.blockBase_add cfg hB]
  exact latest_ofNat (by omega) (by omega)

theorem EndsBlock.le {e : Nat} (h : m.EndsBlock cfg e) : m.blockLen cfg ≤ e := by
  have hle := Nat.le_of_dvd h.1 (Nat.dvd_of_mod_eq_zero h.2)
  have hmod := Nat.mod_le e (2 ^ 16)
  omega

theorem EndsBlock.small {e : Nat} (h : m.EndsBlock cfg e) : m.blockLen cfg < 2 ^ 16 := by
  have hle := Nat.le_of_dvd h.1 (Nat.dvd_of_mod_eq_zero h.2)
  have hmod := Nat.mod_lt e (show 2 ^ 16 > 0 by decide)
  omega

section Covered

include hn hk

/-- The groups of a packet that ends a block. -/
theorem completedGroups_eq {e : Nat} (h : m.EndsBlock cfg e) :
    completedGroups cfg (m.packet e) =
      (List.range cfg.fecInterleavePackageVal.toNat).map fun j =>
        { seqBase := m.blockBase cfg e + BitVec.ofNat 16 j
          n := (m.fecCount cfg).toNat
          k := cfg.fecInterleavePackageVal.toNat } := by
  have hprod : (m.fecCount cfg * cfg.fecInterleavePackageVal).setWidth 16 =
      BitVec.ofNat 16 (m.blockLen cfg) := by
    rw [BitVec.mul_comm, blockLen, BitVec.ofNat_toNat]
  rw [m.completedGroups_packet cfg hn hk, if_pos, maskGroups, m.numbered, hprod]
  · rfl
  · rw [m.numbered]
    constructor
    · rw [BitVec.lt_def, BitVec.toNat_ofNat]
      exact h.1
    · apply BitVec.eq_of_toNat_eq
      rw [BitVec.toNat_umod, BitVec.toNat_setWidth, BitVec.toNat_ofNat,
        Nat.mod_eq_of_lt (Nat.lt_trans (Nat.mod_lt e (by decide)) (by decide))]
      exact h.2

theorem completedGroups_nil {e : Nat} (h : ¬ m.EndsBlock cfg e) :
    completedGroups cfg (m.packet e) = [] := by
  rw [m.completedGroups_packet cfg hn hk, if_neg]
  rintro ⟨hpos, hmod⟩
  apply h
  rw [m.numbered] at hpos hmod
  rw [BitVec.lt_def, BitVec.toNat_ofNat] at hpos
  have hmod' := congrArg BitVec.toNat hmod
  rw [BitVec.toNat_umod, BitVec.toNat_setWidth, BitVec.toNat_ofNat,
    Nat.mod_eq_of_lt (Nat.lt_trans (Nat.mod_lt e (by decide)) (by decide))] at hmod'
  exact ⟨hpos, hmod'⟩

/-- What is covered when a block ends: the group members together are `n * k` consecutive numbers. -/
theorem covered_perm {e : Nat} (h : m.EndsBlock cfg e) :
    (m.covered cfg held e).Perm
      (((List.range ((m.fecCount cfg).toNat * cfg.fecInterleavePackageVal.toNat)).map fun x =>
        latest e (m.blockBase cfg e + BitVec.ofNat 16 x)).filter (has held e)) := by
  have hperm := ((interleaved_perm (m.fecCount cfg).toNat
    cfg.fecInterleavePackageVal.toNat).map fun x =>
      latest e (m.blockBase cfg e + BitVec.ofNat 16 x)).filter (has held e)
  refine List.Perm.trans (List.Perm.of_eq ?_) hperm
  rw [covered, m.completedGroups_eq cfg hn hk h, List.flatMap_map, List.map_flatMap,
    List.filter_flatMap]
  refine List.flatMap_congr fun j _ => ?_
  rw [groupXored, List.map_map]
  congr 1
  refine List.map_congr_left fun i _ => ?_
  rw [Function.comp_apply, MaskGroup.member, BitVec.ofNat_add, BitVec.add_assoc]

theorem covered_nil {e : Nat} (h : ¬ m.EndsBlock cfg e) : m.covered cfg held e = [] := by
  rw [covered, m.completedGroups_nil cfg hn hk h]
  rfl

theorem mem_covered {e p : Nat} : p ∈ m.covered cfg held e ↔
    m.EndsBlock cfg e ∧ has held e p = true ∧
      ∃ x, x < (m.fecCount cfg).toNat * cfg.fecInterleavePackageVal.toNat ∧
        latest e (m.blockBase cfg e + BitVec.ofNat 16 x) = p := by
  by_cases h : m.EndsBlock cfg e
  · rw [(m.covered_perm cfg held hn hk h).mem_iff]
    simp only [List.mem_filter, List.mem_map, List.mem_range, h, true_and]
    exact and_comm
  · rw [m.covered_nil cfg held hn hk h]
    exact ⟨fun hp => absurd hp List.not_mem_nil, fun hp => absurd hp.1 h⟩

/-- Where the product wraps, the members go around the numbers more than once. -/
theorem two_le_count {e p : Nat} (hp : p ∈ m.covered cfg held e)
    (hlong : 2 ^ 17 ≤ (m.fecCount cfg).toNat * cfg.fecInterleavePackageVal.toNat) :
    2 ≤ (m.covered cfg held e).count p := by
  obtain ⟨h, hhas, x, hx, rfl⟩ := (m.mem_covered cfg held hn hk).mp hp
  have hwrap : ∀ y, BitVec.ofNat 16 (y + 2 ^ 16) = BitVec.ofNat 16 y := by
    intro y
    apply BitVec.eq_of_toNat_eq
    rw [BitVec.toNat_ofNat, BitVec.toNat_ofNat, Nat.add_mod_right]
  obtain ⟨y, z, hyz, hz, hy, hz'⟩ : ∃ y z, y < z ∧
      z < (m.fecCount cfg).toNat * cfg.fecInterleavePackageVal.toNat ∧
      BitVec.ofNat 16 y = BitVec.ofNat 16 x ∧ BitVec.ofNat 16 z = BitVec.ofNat 16 x := by
    by_cases hlt : x < 2 ^ 16
    · exact ⟨x, x + 2 ^ 16, by omega, by omega, rfl, hwrap x⟩
    · refine ⟨x - 2 ^ 16, x, by omega, hx, ?_, rfl⟩
      rw [← hwrap (x - 2 ^ 16), Nat.sub_add_cancel (Nat.le_of_not_lt hlt)]
  rw [(m.covered_perm cfg held hn hk h).count_eq, List.count_filter hhas]
  obtain ⟨l, hperm, hsub⟩ : [y, z].Subperm
      (List.range ((m.fecCount cfg).toNat * cfg.fecInterleavePackageVal.toNat)) := by
    apply List.subperm_of_subset
    · simpa using Nat.ne_of_lt hyz
    · intro a ha
      rw [List.mem_range]
      rcases List.mem_pair.mp ha with rfl | rfl
      · exact Nat.lt_trans hyz hz
      · exact hz
  have hcount := (hsub.map fun x => latest e (m.blockBase cfg e + BitVec.ofNat 16 x)).count_le
    (latest e (m.blockBase cfg e + BitVec.ofNat 16 x))
  rw [(hperm.map _).count_eq, List.map_cons, List.map_singleton, hy, hz', List.count_cons_self,
    List.count_singleton_self] at hcount
  exact hcount

end Covered

/-! ## The packets that are protected -/

/-- The mask holds every bit of a group, so that it denotes what the group sums up. -/
theorem Emits.mem_denoted {e : Nat} {g : MaskGroup} {fec : Rtp} (h : m.Emits held e g fec)
    (hfit : (g.n - 1) * g.k < 24) (t : Seq) :
    t ∈ denoted fec ↔ t ∈ (groupXored held e g).map (BitVec.ofNat 16) := by
  obtain ⟨hbase, hmask⟩ := h.header
  have hbit : ∀ {i : Nat}, i < g.n → i * g.k < 24 := fun hi =>
    Nat.lt_of_le_of_lt (Nat.mul_le_mul_right _ (Nat.le_sub_one_of_lt hi)) hfit
  have hnumber : ∀ {i : Nat}, has held e (latest e (g.member i)) = true →
      BitVec.ofNat 16 (latest e (g.member i)) = g.member i := by
    intro i hi
    rw [has, Bool.and_eq_true, decide_eq_true_eq] at hi
    exact ofNat_latest hi.1
  simp only [denoted, groupXored, List.mem_map, List.mem_filter, List.mem_range, hbase]
  constructor
  · rintro ⟨j, ⟨hj, hset⟩, rfl⟩
    obtain ⟨i, hi, hfound, hij⟩ := (hmask j hj).mp hset
    have hlt := hbit hi
    rw [Nat.mod_eq_of_lt (by omega)] at hij
    refine ⟨_, ⟨⟨i, hi, rfl⟩, hfound⟩, ?_⟩
    rw [hnumber hfound, MaskGroup.member, hij]
  · rintro ⟨p, ⟨⟨i, hi, rfl⟩, hfound⟩, rfl⟩
    have hlt := hbit hi
    refine ⟨i * g.k, ⟨hlt, (hmask _ hlt).mpr ⟨i, hi, hfound, Nat.mod_eq_of_lt (by omega)⟩⟩, ?_⟩
    rw [hnumber hfound]
    rfl

/-- The block length as the code computes it is that of the groups, unless the product wraps. -/
theorem blockLen_eq
    (h : (m.fecCount cfg).toNat * cfg.fecInterleavePackageVal.toNat < 2 ^ 32) :
    m.blockLen cfg = (m.fecCount cfg).toNat * cfg.fecInterleavePackageVal.toNat := by
  rw [blockLen, BitVec.toNat_mul, Nat.mul_comm, Nat.mod_eq_of_lt h]

/-- A block of 2¹⁶ packets and more has no end: no number is a positive multiple of its length. -/
theorem endsBlock_iff {e : Nat} (he : e < 2 ^ 16 + m.blockLen cfg) :
    m.EndsBlock cfg e ↔ 0 < e ∧ e < 2 ^ 16 ∧ e % m.blockLen cfg = 0 := by
  rw [EndsBlock]
  by_cases hlt : e < 2 ^ 16
  · rw [Nat.mod_eq_of_lt hlt]
    constructor
    · exact fun h => ⟨h.1, hlt, h.2⟩
    · exact fun h => ⟨h.1, h.2.2⟩
  · constructor
    · rintro ⟨hpos, hmod⟩
      have hle := Nat.le_of_dvd hpos (Nat.dvd_of_mod_eq_zero hmod)
      have hrest : e % 2 ^ 16 < m.blockLen cfg ∨ 2 ^ 16 ≤ m.blockLen cfg := by omega
      have hturn := Nat.mod_lt e (show 2 ^ 16 > 0 by decide)
      omega
    · exact fun h => absurd h.2.1 hlt

/-- The block of packet `p`, as the multiple of the block length that ends it. -/
def blockEnd (p : Nat) : Nat := m.blockLen cfg * ((p - 1) / m.blockLen cfg + 1)

theorem blockEnd_bounds {p : Nat} (hp : 0 < p) (hB : m.blockLen cfg ≠ 0) :
    p ≤ m.blockEnd cfg p ∧ m.blockEnd cfg p < p + m.blockLen cfg := by
  have hdiv := Nat.div_add_mod (p - 1) (m.blockLen cfg)
  have hmod := Nat.mod_lt (p - 1) (Nat.pos_of_ne_zero hB)
  rw [blockEnd, Nat.mul_succ]
  omega

/-- Of two multiples within one block length there is only one. -/
theorem eq_of_multiples {a b B : Nat} (ha : a % B = 0) (hb : b % B = 0) (hab : a < b + B)
    (hba : b < a + B) : a = b := by
  obtain ⟨c, rfl⟩ := Nat.dvd_of_mod_eq_zero ha
  obtain ⟨d, rfl⟩ := Nat.dvd_of_mod_eq_zero hb
  rw [← Nat.mul_succ] at hab hba
  have hcd := Nat.lt_of_mul_lt_mul_left hab
  have hdc := Nat.lt_of_mul_lt_mul_left hba
  rw [show c = d by omega]

theorem blockEnd_le {p count : Nat} (hp : 0 < p)
    (hle : p ≤ m.blockLen cfg * (count / m.blockLen cfg)) :
    m.blockEnd cfg p ≤ m.blockLen cfg * (count / m.blockLen cfg) := by
  rw [blockEnd]
  apply Nat.mul_le_mul_left
  have hlt : p - 1 < m.blockLen cfg * (count / m.blockLen cfg) := by omega
  exact Nat.div_lt_of_lt_mul hlt

theorem forall₂_mem {α β : Type} {R : α → β → Prop} {l : List α} {l' : List β}
    (h : List.Forall₂ R l l') : (∀ a ∈ l, ∃ b ∈ l', R a b) ∧ ∀ b ∈ l', ∃ a ∈ l, R a b := by
  induction h with
  | nil => exact ⟨fun a ha => absurd ha List.not_mem_nil, fun b hb => absurd hb List.not_mem_nil⟩
  | @cons a b l l' hab _ ih =>
    constructor
    · intro x hx
      rcases List.mem_cons.mp hx with rfl | hx
      · exact ⟨b, List.mem_cons_self, hab⟩
      · obtain ⟨y, hy, hxy⟩ := ih.1 x hx
        exact ⟨y, List.mem_cons_of_mem _ hy, hxy⟩
    · intro y hy
      rcases List.mem_cons.mp hy with rfl | hy
      · exact ⟨a, List.mem_cons_self, hab⟩
      · obtain ⟨x, hx, hxy⟩ := ih.2 y hy
        exact ⟨x, List.mem_cons_of_mem _ hx, hxy⟩

include hn hk

/-- The FEC packets of a run and the groups they are over. -/
theorem mem_run {timeBase : BitVec 32} {s s' : RTPSendSession} {count : Nat}
    {fecs : List (Nat × Rtp)} (hB : m.blockLen cfg ≠ 0)
    (hrun : m.run cfg held timeBase s count = .ok (s', fecs)) :
    (∀ x ∈ fecs, ∃ g ∈ completedGroups cfg (m.packet x.1), x.1 ≤ count ∧
      m.Emits held x.1 g x.2) ∧
    ∀ e g, 0 < e → e ≤ count → g ∈ completedGroups cfg (m.packet e) → groupXored held e g ≠ [] →
      ∃ x ∈ fecs, x.1 = e ∧ m.Emits held e g x.2 := by
  obtain ⟨s₁, fecs₁, hrun₁, hemits⟩ := m.run_emits cfg held hn hk hB timeBase s count
  rw [hrun] at hrun₁
  cases hrun₁
  obtain ⟨hleft, hright⟩ := forall₂_mem hemits
  constructor
  · intro x hx
    obtain ⟨eg, heg, he, hemit⟩ := hright x hx
    obtain ⟨e, hmem, heg⟩ := List.mem_flatMap.mp heg
    obtain ⟨g, hg, rfl⟩ := List.mem_map.mp heg
    rw [List.mem_range'_1] at hmem
    rw [he]
    exact ⟨g, List.mem_of_mem_filter hg, by omega, hemit⟩
  · intro e g hpos hle hg hne
    apply hleft (e, g)
    refine List.mem_flatMap.mpr ⟨e, List.mem_range'_1.mpr ⟨hpos, by omega⟩, ?_⟩
    exact List.mem_map_of_mem (List.mem_filter.mpr ⟨hg, by simpa using hne⟩)

/-- Without a product the modulus is 0 and the first packet faults. -/
theorem run_faults (hB : m.blockLen cfg = 0) (timeBase : BitVec 32) (s : RTPSendSession)
    (count : Nat) : m.run cfg held timeBase s (count + 1) = .error .divideByZero := by
  have hprod : cfg.fecInterleavePackageVal * m.fecCount cfg = 0 :=
    BitVec.eq_of_toNat_eq hB
  induction count with
  | zero =>
    have hpos : 0 < (m.packet (0 + 1)).seq := by
      rw [m.numbered]
      decide
    simp only [run, ok_bind, RTPSendSession.onHandleRtp, RTPSendSession.onHandleRtpFec,
      m.maskFecCount_eq, if_neg hn, if_pos hk, if_pos hpos, hprod, if_true, error_bind]
  | succ count ih => rw [run, ih, error_bind]

section Block

variable (hsmall : (m.fecCount cfg).toNat * cfg.fecInterleavePackageVal.toNat < 2 ^ 32)
include hsmall

/-- What is covered when a block ends is what the cache still holds of the block. -/
theorem mem_covered_block {e p : Nat} : p ∈ m.covered cfg held e ↔
    m.EndsBlock cfg e ∧ has held e p = true ∧ e < p + m.blockLen cfg ∧ p ≤ e := by
  rw [m.mem_covered cfg held hn hk, ← m.blockLen_eq cfg hsmall]
  refine and_congr_right fun h => and_congr_right fun _ => ?_
  have hle := h.le
  constructor
  · rintro ⟨x, hx, rfl⟩
    rw [m.latest_blockBase cfg hle h.small hx]
    omega
  · rintro ⟨hlow, hhigh⟩
    refine ⟨p + m.blockLen cfg - 1 - e, by omega, ?_⟩
    rw [m.latest_blockBase cfg hle h.small (by omega)]
    omega

theorem covered_nodup (e : Nat) : (m.covered cfg held e).Nodup := by
  by_cases h : m.EndsBlock cfg e
  · rw [(m.covered_perm cfg held hn hk h).nodup_iff, ← m.blockLen_eq cfg hsmall]
    apply List.Nodup.filter
    refine List.Nodup.map_on ?_ List.nodup_range
    intro x hx y hy heq
    rw [List.mem_range] at hx hy
    rw [m.latest_blockBase cfg h.le h.small hx, m.latest_blockBase cfg h.le h.small hy] at heq
    omega
  · rw [m.covered_nil cfg held hn hk h]
    exact List.nodup_nil

end Block

/-- When the code protects a run: no block is complete yet, or the mask is wide enough for the
groups, the complete blocks end before the numbers wrap, and the cache still holds each packet when
its block ends. -/
def Protects (count : Nat) : Prop :=
  count = 0 ∨ count < m.blockLen cfg ∨
    (((m.fecCount cfg).toNat - 1) * cfg.fecInterleavePackageVal.toNat < 24 ∧
      m.blockLen cfg * (count / m.blockLen cfg) < 2 ^ 16 ∧
      ∀ p, 0 < p → p ≤ m.blockLen cfg * (count / m.blockLen cfg) →
        held (m.blockEnd cfg p) p = true)

section Protected

variable {timeBase : BitVec 32} {s : RTPSendSession} {count : Nat}

/-- A protected packet is covered once, and not twice by the FEC packets behind one block. -/
theorem Protected.covered (h : m.Protected cfg held timeBase s count) (hB : m.blockLen cfg ≠ 0)
    {p : Nat} (hp : 0 < p) (hle : p ≤ m.blockLen cfg * (count / m.blockLen cfg)) :
    ∃ e, 0 < e ∧ e ≤ count ∧ p ∈ m.covered cfg held e ∧ (m.covered cfg held e).count p ≤ 1 := by
  obtain ⟨s', fecs, hrun, -, hcov⟩ := h
  have hone := hcov p hp hle
  rw [m.run_covers cfg held hn hk hB hrun] at hone
  have hmem : p ∈ (List.range' 1 count).flatMap (m.covered cfg held) :=
    List.count_pos_iff.mp (by rw [hone]; exact Nat.one_pos)
  obtain ⟨e, he, hpe⟩ := List.mem_flatMap.mp hmem
  obtain ⟨l, l', hl⟩ := List.append_of_mem he
  rw [hl, List.flatMap_append, List.flatMap_cons, List.count_append, List.count_append] at hone
  rw [List.mem_range'_1] at he
  exact ⟨e, by omega, by omega, hpe, by omega⟩

/-- A group whose last member lies beyond the mask is not denoted. -/
theorem fits_of_protected (h : m.Protected cfg held timeBase s count)
    (hB : m.blockLen cfg ≠ 0)
    (hsmall : (m.fecCount cfg).toNat * cfg.fecInterleavePackageVal.toNat < 2 ^ 32)
    (hle : m.blockLen cfg ≤ count) :
    ((m.fecCount cfg).toNat - 1) * cfg.fecInterleavePackageVal.toNat < 24 := by
  apply Nat.lt_of_not_le
  intro hwide
  have hlen := m.blockLen_eq cfg hsmall
  have hN : 0 < (m.fecCount cfg).toNat := Nat.pos_of_ne_zero fun hzero =>
    hn (BitVec.eq_of_toNat_eq hzero)
  have hK : 0 < cfg.fecInterleavePackageVal.toNat := hk
  generalize hNd : (m.fecCount cfg).toNat = N at hwide hN hlen
  generalize hKd : cfg.fecInterleavePackageVal.toNat = K at hwide hK hlen
  have hmul : N * K = (N - 1) * K + K := by
    rw [← Nat.succ_mul, Nat.succ_eq_add_one, Nat.sub_add_cancel hN]
  have hfirst : m.blockLen cfg * 1 ≤ m.blockLen cfg * (count / m.blockLen cfg) :=
    Nat.mul_le_mul_left _ ((Nat.one_le_div_iff (Nat.pos_of_ne_zero hB)).mpr hle)
  obtain ⟨e, hpos, hecount, hpe, -⟩ := h.covered m cfg held hn hk hB
    (p := 1 + (N - 1) * K) (by omega) (by omega)
  obtain ⟨hends, hhas, hlow, hhigh⟩ := (m.mem_covered_block cfg held hn hk hsmall).mp hpe
  have heB : e = m.blockLen cfg := by
    have hsmallB := hends.small
    have hmod := ((m.endsBlock_iff cfg (by omega)).mp hends).2.2
    exact eq_of_multiples hmod (Nat.mod_self _) (by omega) (by omega)
  obtain ⟨g, hg, hpg⟩ := List.mem_flatMap.mp hpe
  obtain ⟨s', fecs, hrun, hden, -⟩ := h
  obtain ⟨x, hx, hxe, hemit⟩ := (m.mem_run cfg held hn hk hB hrun).2 e g hpos hecount hg
    (List.ne_nil_of_mem hpg)
  have hnk := m.mem_completedGroups cfg hn hk hg
  have hdenoted : BitVec.ofNat 16 (1 + (N - 1) * K) ∈ denoted x.2 := by
    rw [hden x hx, hxe, m.xored_of_emits cfg held hemit hnk.1 hnk.2]
    exact List.mem_map_of_mem hpg
  obtain ⟨b, hb, heq⟩ := List.mem_map.mp hdenoted
  have hb24 : b < 24 := List.mem_range.mp (List.mem_of_mem_filter hb)
  rw [m.completedGroups_eq cfg hn hk hends] at hg
  obtain ⟨j, hj, rfl⟩ := List.mem_map.mp hg
  obtain ⟨hpmem, -⟩ := List.mem_filter.mp hpg
  obtain ⟨i, hi, hmember⟩ := List.mem_map.mp hpmem
  rw [List.mem_range] at hi hj
  dsimp only at hi
  rw [hNd] at hi
  rw [hKd] at hj
  have hij : (i + 1) * K ≤ N * K := Nat.mul_le_mul_right K hi
  rw [Nat.succ_mul] at hij
  rw [MaskGroup.member, BitVec.add_assoc, ← BitVec.ofNat_add] at hmember
  dsimp only at hmember
  rw [hKd, m.latest_blockBase cfg hends.le hends.small (by omega)] at hmember
  have hj0 : j = 0 := by
    rcases Nat.lt_or_ge i (N - 1) with hlt | hge
    · have hiK : (i + 1) * K ≤ (N - 1) * K := Nat.mul_le_mul_right K hlt
      rw [Nat.succ_mul] at hiK
      omega
    · have hiK : (N - 1) * K ≤ i * K := Nat.mul_le_mul_right K hge
      omega
  rw [hemit.header.1] at heq
  dsimp only at heq
  rw [BitVec.add_assoc, ← BitVec.ofNat_add, m.blockBase_add cfg hends.le, hj0] at heq
  have hnat := congrArg BitVec.toNat heq
  rw [BitVec.toNat_ofNat, BitVec.toNat_ofNat] at hnat
  have hsmallB := hends.small
  omega

/-- A product that wraps covers packets more than once. -/
theorem product_lt_of_protected (h : m.Protected cfg held timeBase s count)
    (hB : m.blockLen cfg ≠ 0) (hle : m.blockLen cfg ≤ count) :
    (m.fecCount cfg).toNat * cfg.fecInterleavePackageVal.toNat < 2 ^ 32 := by
  apply Nat.lt_of_not_le
  intro hlong
  have hfirst : m.blockLen cfg * 1 ≤ m.blockLen cfg * (count / m.blockLen cfg) :=
    Nat.mul_le_mul_left _ ((Nat.one_le_div_iff (Nat.pos_of_ne_zero hB)).mpr hle)
  obtain ⟨e, -, -, hpe, hcount⟩ := h.covered m cfg held hn hk hB (p := 1) Nat.one_pos (by omega)
  have htwice := m.two_le_count cfg held hn hk hpe (Nat.le_trans (by decide) hlong)
  omega

/-- No FEC packet covers the packet whose number is 0. -/
theorem end_lt_of_protected (h : m.Protected cfg held timeBase s count)
    (hB : m.blockLen cfg ≠ 0)
    (hsmall : (m.fecCount cfg).toNat * cfg.fecInterleavePackageVal.toNat < 2 ^ 32) :
    m.blockLen cfg * (count / m.blockLen cfg) < 2 ^ 16 := by
  apply Nat.lt_of_not_le
  intro hlong
  obtain ⟨e, -, -, hpe, -⟩ := h.covered m cfg held hn hk hB (p := 2 ^ 16) (by decide) hlong
  obtain ⟨hends, -, hlow, hhigh⟩ := (m.mem_covered_block cfg held hn hk hsmall).mp hpe
  have hlt := ((m.endsBlock_iff cfg hlow).mp hends).2.1
  omega

/-- What is covered was held when its block ended. -/
theorem held_of_protected (h : m.Protected cfg held timeBase s count)
    (hB : m.blockLen cfg ≠ 0)
    (hsmall : (m.fecCount cfg).toNat * cfg.fecInterleavePackageVal.toNat < 2 ^ 32)
    {p : Nat} (hp : 0 < p) (hle : p ≤ m.blockLen cfg * (count / m.blockLen cfg)) :
    held (m.blockEnd cfg p) p = true := by
  have hend := m.end_lt_of_protected cfg held hn hk h hB hsmall
  obtain ⟨e, -, -, hpe, -⟩ := h.covered m cfg held hn hk hB hp hle
  obtain ⟨hends, hhas, hlow, hhigh⟩ := (m.mem_covered_block cfg held hn hk hsmall).mp hpe
  have hmod := ((m.endsBlock_iff cfg (by omega)).mp hends).2.2
  obtain ⟨hbelow, habove⟩ := m.blockEnd_bounds cfg hp hB
  have he : e = m.blockEnd cfg p :=
    eq_of_multiples hmod (Nat.mul_mod_right _ _) (by omega) (by omega)
  rw [has, Bool.and_eq_true] at hhas
  rw [← he]
  exact hhas.2

/-- Before a block is complete nothing is sent. -/
theorem protected_of_short (hB : m.blockLen cfg ≠ 0) (hshort : count < m.blockLen cfg) :
    m.Protected cfg held timeBase s count := by
  obtain ⟨s', fecs, hrun, -⟩ := m.run_emits cfg held hn hk hB timeBase s count
  refine ⟨s', fecs, hrun, ?_, ?_⟩
  · intro x hx
    obtain ⟨g, hg, hle, -⟩ := (m.mem_run cfg held hn hk hB hrun).1 x hx
    have hnot : ¬ m.EndsBlock cfg x.1 := fun h => by
      have := h.le
      omega
    rw [m.completedGroups_nil cfg hn hk hnot] at hg
    cases hg
  · intro p hp hle
    rw [Nat.div_eq_of_lt hshort] at hle
    omega

/-- With a mask that is wide enough, before the numbers wrap and with a cache that holds a block,
every packet of a complete block is covered once. -/
theorem protected_of_fits (hB : m.blockLen cfg ≠ 0)
    (hfit : ((m.fecCount cfg).toNat - 1) * cfg.fecInterleavePackageVal.toNat < 24)
    (hsmall : (m.fecCount cfg).toNat * cfg.fecInterleavePackageVal.toNat < 2 ^ 32)
    (hend : m.blockLen cfg * (count / m.blockLen cfg) < 2 ^ 16)
    (hheld : ∀ p, 0 < p → p ≤ m.blockLen cfg * (count / m.blockLen cfg) →
      held (m.blockEnd cfg p) p = true) :
    m.Protected cfg held timeBase s count := by
  obtain ⟨s', fecs, hrun, -⟩ := m.run_emits cfg held hn hk hB timeBase s count
  have hcount := Nat.div_add_mod count (m.blockLen cfg)
  have hrest := Nat.mod_lt count (Nat.pos_of_ne_zero hB)
  refine ⟨s', fecs, hrun, ?_, ?_⟩
  · intro x hx t
    obtain ⟨g, hg, -, hemit⟩ := (m.mem_run cfg held hn hk hB hrun).1 x hx
    have hnk := m.mem_completedGroups cfg hn hk hg
    rw [m.xored_of_emits cfg held hemit hnk.1 hnk.2]
    exact hemit.mem_denoted m held (by rw [hnk.1, hnk.2]; exact hfit) t
  · intro p hp hle
    rw [m.run_covers cfg held hn hk hB hrun]
    have hends : ∀ {e}, e ≤ count → (m.EndsBlock cfg e ↔ 0 < e ∧ e < 2 ^ 16 ∧
        e % m.blockLen cfg = 0) := fun he => m.endsBlock_iff cfg (by omega)
    apply List.count_eq_one_of_mem
    · apply List.nodup_flatMap.mpr
      refine ⟨fun e _ => m.covered_nodup cfg held hn hk hsmall e, ?_⟩
      refine (List.nodup_range').pairwise_of_forall_ne ?_
      intro e he e' he' hne
      refine List.disjoint_left.mpr ?_
      intro q hq hq'
      rw [List.mem_range'_1] at he he'
      obtain ⟨hblock, -, hlow, hhigh⟩ := (m.mem_covered_block cfg held hn hk hsmall).mp hq
      obtain ⟨hblock', -, hlow', hhigh'⟩ := (m.mem_covered_block cfg held hn hk hsmall).mp hq'
      have hmod := ((hends (by omega)).mp hblock).2.2
      have hmod' := ((hends (by omega)).mp hblock').2.2
      exact hne (eq_of_multiples hmod hmod' (by omega) (by omega))
    · obtain ⟨hbelow, habove⟩ := m.blockEnd_bounds cfg hp hB
      have hblockEnd := m.blockEnd_le cfg hp hle
      refine List.mem_flatMap.mpr ⟨m.blockEnd cfg p, List.mem_range'_1.mpr (by omega), ?_⟩
      refine (m.mem_covered_block cfg held hn hk hsmall).mpr ⟨?_, ?_, habove, hbelow⟩
      · exact (hends (by omega)).mpr ⟨by omega, by omega, Nat.mul_mod_right _ _⟩
      · rw [has, Bool.and_eq_true, decide_eq_true_eq]
        exact ⟨hp, hheld p hp hle⟩

end Protected

/-- A group the mask can hold has a product that does not wrap. -/
theorem product_lt_of_fits
    (hfit : ((m.fecCount cfg).toNat - 1) * cfg.fecInterleavePackageVal.toNat < 24) :
    (m.fecCount cfg).toNat * cfg.fecInterleavePackageVal.toNat < 2 ^ 32 := by
  have hN : 0 < (m.fecCount cfg).toNat := Nat.pos_of_ne_zero fun hzero =>
    hn (BitVec.eq_of_toNat_eq hzero)
  have hK : 0 < cfg.fecInterleavePackageVal.toNat := hk
  have hKlt := cfg.fecInterleavePackageVal.isLt
  generalize (m.fecCount cfg).toNat = N at hfit hN
  generalize cfg.fecInterleavePackageVal.toNat = K at hfit hK hKlt
  have hmul : N * K = (N - 1) * K + K := by
    rw [← Nat.succ_mul, Nat.succ_eq_add_one, Nat.sub_add_cancel hN]
  rcases Nat.eq_or_lt_of_le hN with hone | hmore
  · rw [← hone, Nat.one_mul]
    exact hKlt
  · have hle : 1 * K ≤ (N - 1) * K := Nat.mul_le_mul_right K (by omega)
    omega

/-- A run is protected by its mask-FEC packets if and only if `Protects` holds: whatever the
configuration, no run is once the block around the first wrap is complete. -/
theorem protected_iff (timeBase : BitVec 32) (s : RTPSendSession) (count : Nat) :
    m.Protected cfg held timeBase s count ↔ m.Protects cfg held count := by
  constructor
  · intro h
    rcases Nat.eq_zero_or_pos count with hzero | hpos
    · exact .inl hzero
    have hB : m.blockLen cfg ≠ 0 := by
      intro hB
      obtain ⟨s', fecs, hrun, -⟩ := h
      rw [← Nat.sub_add_cancel hpos, m.run_faults cfg held hn hk hB] at hrun
      cases hrun
    rcases Nat.lt_or_ge count (m.blockLen cfg) with hshort | hle
    · exact .inr (.inl hshort)
    have hsmall := m.product_lt_of_protected cfg held hn hk h hB hle
    exact .inr (.inr ⟨m.fits_of_protected cfg held hn hk h hB hsmall hle,
      m.end_lt_of_protected cfg held hn hk h hB hsmall,
      fun p hp hple => m.held_of_protected cfg held hn hk h hB hsmall hp hple⟩)
  · rintro (rfl | hshort | ⟨hfit, hend, hheld⟩)
    · refine ⟨s, [], rfl, fun x hx => absurd hx List.not_mem_nil, fun p hp hle => ?_⟩
      rw [Nat.zero_div, Nat.mul_zero] at hle
      omega
    · exact m.protected_of_short cfg held hn hk (by omega) hshort
    · have hsmall := m.product_lt_of_fits cfg hn hk hfit
      have hB : m.blockLen cfg ≠ 0 := by
        rw [m.blockLen_eq cfg hsmall]
        apply Nat.mul_ne_zero
        · exact fun hzero => hn (BitVec.eq_of_toNat_eq hzero)
        · exact Nat.ne_of_gt hk
      exact m.protected_of_fits cfg held hn hk hB hfit hsmall hend hheld

omit hn hk

/-- A video stream of small packets. -/
def video : MediaStream where
  payload := RTP_AV_H264
  packet i := videoPacket (BitVec.ofNat 16 i) 3
  numbered _ := rfl
  payload_eq _ := rfl

/-- Blocks of eight packets, of which twelve are complete. -/
theorem protected_hundred :
    video.Protected RTPTransConfig.default (fun _ _ => true) 90000 RTPSendSession.new 100 :=
  (video.protected_iff RTPTransConfig.default (fun _ _ => true) (by decide) (by decide) 90000
    RTPSendSession.new 100).mpr (.inr (.inr ⟨by decide, by decide, fun _ _ _ => rfl⟩))

/-- Once packet 65536, which has the number 0, is sent, it belongs to a complete block and no FEC
packet covers it. -/
theorem not_protected_at_wrap :
    ¬ video.Protected RTPTransConfig.default (fun _ _ => true) 90000 RTPSendSession.new 65536 := by
  intro h
  exact absurd (video.end_lt_of_protected RTPTransConfig.default _ (by decide) (by decide) h
    (by decide) (by decide)) (by decide)

end MediaStream

end RtcMcu.RtpTrans
