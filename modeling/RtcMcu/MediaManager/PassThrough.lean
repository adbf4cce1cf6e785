import RtcMcu.MediaManager.JitterOrder

/-!
# Streams without loss through a jitter buffer

A stream whose packets come in order goes through a buffer that is drained behind each packet: the
three cursors all stand on the packet that was put in last. What is lost is a packet with number 0
where the buffer is new, or starts over: `_last_out_block` is reset to number 0, and the packet is
taken for one that was given out already (`in_order_iff`).
-/

namespace RtcMcu.MediaManager

open RtcMcu.Serial (ahead newer newer_iff newer_irrefl)

namespace JitterBuffer

/-- A new buffer with its settings. -/
def fresh (timeBase duration : BitVec 32) : JitterBuffer :=
  (JitterBuffer.new.setBufferDuration duration).setTimeBase timeBase

/-- The loop that takes packets out until there is none. Each is taken from the queue, so the fuel is
one more than its length. -/
def drain (rule : TopRule) (stray : Seq) :
    Nat → JitterBuffer → Except Fault (List ValidBlock × JitterBuffer)
  | 0, _ => .error .outOfFuel
  | fuel + 1, j => do
    let (block, j) ← j.getRTPPacket rule stray
    match block with
    | none => .ok ([], j)
    | some b => do
      let (rest, j) ← drain rule stray fuel j
      .ok (b :: rest, j)

/-- A packet is put in, and what can be given out is taken out. -/
def feed (j : JitterBuffer) (rule : TopRule) (stray : Seq) (b : ValidBlock) :
    Except Fault (List ValidBlock × JitterBuffer) := do
  let j ← j.setRTPPacket b
  j.drain rule stray (j.queue.length + 1)

/-- What is given out behind each packet of a stream. -/
def feedAll (rule : TopRule) (stray : Seq) :
    List ValidBlock → JitterBuffer → Except Fault (List (List ValidBlock))
  | [], _ => .ok []
  | b :: bs, j => do
    let (out, j) ← j.feed rule stray b
    let outs ← feedAll rule stray bs j
    .ok (out :: outs)

/-- The timestamps of two packets lie so far apart that the buffer starts over. The product is one of
32 bits. -/
def jumps (timeBase : BitVec 32) (a b : ValidBlock) : Bool :=
  (20 * timeBase).sle (b.timestamp - a.timestamp).abs

/-! ## One packet -/

/-- One packet waits, and nothing is missing before it. -/
structure Waiting (timeBase : BitVec 32) (j : JitterBuffer) (b : ValidBlock) (out : Seq) : Prop where
  state : j.state = .sending
  timeBase_eq : j.timeBase = timeBase
  queue : j.queue = [b]
  lost : j.lostQueue = []
  jitter : j.jitterBlock = .update b
  newest : j.lastQueueBlock = .update b
  out : j.lastOutBlock.seq = out

/-- All packets were given out, this one last. -/
structure Passed (timeBase : BitVec 32) (j : JitterBuffer) (b : ValidBlock) : Prop where
  state : j.state = .sending
  timeBase_eq : j.timeBase = timeBase
  queue : j.queue = []
  lost : j.lostQueue = []
  jitter : j.jitterBlock = .update b
  newest : j.lastQueueBlock = .update b
  out : j.lastOutBlock = .update b

variable {timeBase : BitVec 32} {j : JitterBuffer} {a b : ValidBlock} {out : Seq}
  {rule : TopRule} {stray : Seq}

theorem updateLatest_reset (b : ValidBlock) :
    JitterBlockInfo.reset.updateLatest b = .update b := by
  have hzero : (JitterBlockInfo.reset.seq == 0) = true := rfl
  rw [JitterBlockInfo.updateLatest, hzero, Bool.or_true, if_pos rfl]

/-- The first packet of an empty buffer. -/
theorem waiting_setFirst (htb : j.timeBase = timeBase) (hqueue : j.queue = [])
    (hlost : j.lostQueue = []) (hnewest : j.lastQueueBlock = .reset) (hout : j.lastOutBlock.seq = 0)
    (b : ValidBlock) : Waiting timeBase (j.setFirst b) b 0 := by
  have hlate : j.tooLate b = false := by
    rw [tooLate, hout]
    rfl
  rw [setFirst, hlate, if_neg Bool.false_ne_true]
  refine ⟨rfl, htb, ?_, hlost, rfl, ?_, hout⟩
  · show j.queue ++ [b] = [b]
    rw [hqueue, List.nil_append]
  · show j.lastQueueBlock.updateLatest b = _
    rw [hnewest, updateLatest_reset]

/-- The packet behind the one given out last is the next one, and nothing is passed over. -/
theorem Passed.setNext (h : Passed timeBase j a) (hnext : b.seq = a.seq + 1) :
    ∃ j', j.setNext b = .ok j' ∧ Waiting timeBase j' b a.seq := by
  have hahead : ahead a.seq b.seq = 1 := by
    rw [hnext]
    exact Serial.ahead_add_ofNat a.seq (show 1 < 2 ^ 16 by decide)
  have hnewer : jitterIsNewerSeq b.seq a.seq = true := by
    refine newer_iff.mpr ⟨fun heq => ?_, by rw [hahead]; decide⟩
    rw [heq, Serial.ahead_self] at hahead
    cases hahead
  have hnewest : j.lastQueueBlock.seq = a.seq := by
    rw [h.newest]
    rfl
  -- the numbers passed over are none: the first one is the packet's own
  have hnote : j.noteLost b = j := by
    rw [noteLost, hnewest, if_pos hnewer, hahead, lostFill, ← hnext, h.lost,
      if_neg (by rw [jitterIsNewerSeq, newer_irrefl]; exact Bool.false_ne_true), ← h.lost]
  have hlate : j.tooLate b = false := by
    have hold : jitterIsNewerSeq a.seq b.seq = false := by
      apply Bool.eq_false_iff.mpr
      intro hback
      have hlt := (newer_iff.mp hback).2
      have hne : a.seq ≠ b.seq := (newer_iff.mp hback).1
      rw [Serial.ahead_comm hne, hahead] at hlt
      exact absurd hlt (by decide)
    have hout : j.lastOutBlock.seq = a.seq := by
      rw [h.out]
      rfl
    rw [tooLate, hout, hold, Bool.and_false]
  have hjitter : j.jitterBlock.seq + 1 = b.seq := by
    rw [h.jitter, hnext]
    rfl
  have hpush : j.pushNext b = { j with queue := j.queue ++ [b], jitterBlock := .update b } := by
    rw [pushNext, if_pos h.lost]
  rw [JitterBuffer.setNext, hnote, hlate, if_neg Bool.false_ne_true, if_pos hjitter, hpush]
  refine ⟨_, rfl, h.state, h.timeBase_eq, ?_, h.lost, rfl, ?_, ?_⟩
  · show j.queue ++ [b] = [b]
    rw [h.queue, List.nil_append]
  · show j.lastQueueBlock.updateLatest b = _
    rw [JitterBlockInfo.updateLatest, hnewest, hnewer, Bool.true_or, if_pos rfl]
  · show j.lastOutBlock.seq = _
    rw [h.out]
    rfl

/-- `SetRTPPacket` with the next packet of the stream. -/
theorem Passed.setRTPPacket (h : Passed timeBase j a) (hbase : timeBase ≠ 0)
    (hnext : b.seq = a.seq + 1) :
    ∃ j', j.setRTPPacket b = .ok j' ∧
      Waiting timeBase j' b (if jumps timeBase a b then 0 else a.seq) := by
  have hjump : j.timeJump b = jumps timeBase a b := by
    rw [timeJump, h.timeBase_eq, h.newest]
    rfl
  rw [JitterBuffer.setRTPPacket, h.timeBase_eq, if_neg hbase, h.state]
  dsimp only
  rw [hjump]
  cases jumps timeBase a b with
  | true =>
    let started : JitterBuffer := { j.reset with lastOutBlock := .reset }
    have hbase' : started.timeBase = timeBase := h.timeBase_eq
    exact ⟨_, rfl, waiting_setFirst hbase' rfl rfl rfl rfl b⟩
  | false => exact h.setNext hnext

/-- With one packet in the queue, that one is on top. -/
theorem top_singleton (rule : TopRule) (b : ValidBlock) : rule.top [b] = some b := by
  obtain ⟨t, ht⟩ := Option.isSome_iff_exists.mp (rule.top_isSome (List.cons_ne_nil b []))
  rw [ht, List.mem_singleton.mp (rule.mem_of_top ht)]

/-- Nothing is on top of an empty queue. -/
theorem top_nil (rule : TopRule) : rule.top [] = none := by
  cases htop : rule.top [] with
  | none => rfl
  | some t => exact absurd (rule.mem_of_top htop) List.not_mem_nil

/-- With nothing lost and the cursor on the newest packet, the bookkeeping behind the popping changes
nothing. -/
theorem forget_advance_idle (hlost : j.lostQueue = []) (hcursor : j.jitterBlock = j.lastQueueBlock)
    (stray : Seq) : (j.advance stray).forget = j := by
  have hadvance : j.advance stray = j := by
    unfold advance
    split
    · exact congrArg (fun cursor => { j with jitterBlock := cursor }) hcursor.symm
    · rfl
  rw [hadvance, forget, hlost]
  show { j with lostQueue := [], jitterBlock := j.jitterBlock } = j
  rw [← hlost]

/-- The packet is given out, unless it has the number given out last; then it is deleted. -/
theorem Waiting.getRTPPacket (h : Waiting timeBase j b out) (rule : TopRule) (stray : Seq) :
    ∃ j', j.getRTPPacket rule stray = .ok (if b.seq = out then none else some b, j') ∧
      j'.state = .sending ∧ j'.queue = [] ∧ j'.lostQueue = [] ∧
      (b.seq ≠ out → Passed timeBase j' b) := by
  have hkeeps : j.keeps b = .ok false := by
    rw [keeps, h.jitter, h.newest, if_pos rfl]
  have hcursor : j.jitterBlock = j.lastQueueBlock := h.jitter.trans h.newest.symm
  have hpop : popNew rule out 1 [b] = (if b.seq = out then none else some b, []) := by
    unfold popNew
    rw [top_singleton]
    dsimp only
    rw [List.erase_cons_head]
    split
    · rfl
    · rfl
  have hsend : j.send rule stray =
      .ok (if b.seq = out then none else some b,
        ((({ j with queue := [] } : JitterBuffer).noteOut
          (if b.seq = out then none else some b)).advance stray).forget) := by
    unfold send takeOut
    rw [h.state, h.queue, top_singleton]
    dsimp only
    rw [hkeeps, h.out]
    show Except.ok _ = _
    rw [List.length_singleton, hpop]
  rw [JitterBuffer.getRTPPacket, hsend]
  by_cases hsame : b.seq = out
  case pos =>
    have hidle : ((({ j with queue := [] } : JitterBuffer).noteOut none).advance stray).forget =
        { j with queue := [] } :=
      forget_advance_idle (j := { j with queue := [] }) h.lost hcursor stray
    rw [if_pos hsame, hidle]
    exact ⟨_, rfl, h.state, rfl, h.lost, fun hne => absurd hsame hne⟩
  case neg =>
    have hidle : ((({ j with queue := [] } : JitterBuffer).noteOut (some b)).advance
        stray).forget = { j with queue := [], lastOutBlock := .update b } :=
      forget_advance_idle (j := { j with queue := [], lastOutBlock := .update b }) h.lost hcursor
        stray
    rw [if_neg hsame, hidle]
    exact ⟨_, rfl, h.state, rfl, h.lost,
      fun _ => ⟨h.state, h.timeBase_eq, rfl, h.lost, h.jitter, h.newest, rfl⟩⟩

/-- From an empty queue nothing is given out, and nothing changes. -/
theorem getRTPPacket_empty (hstate : j.state = .sending) (hqueue : j.queue = [])
    (hlost : j.lostQueue = []) (rule : TopRule) (stray : Seq) :
    j.getRTPPacket rule stray = .ok (none, j) := by
  have hforget : j.forget = j := by
    rw [forget, hlost]
    show { j with lostQueue := [], jitterBlock := j.jitterBlock } = j
    rw [← hlost]
  have hsend : j.send rule stray = .ok (none, j) := by
    unfold send takeOut
    rw [hstate, hqueue, top_nil]
    show Except.ok (none, j.forget) = _
    rw [hforget]
  have hfew : j.overfull = false := by
    rw [overfull, hqueue]
    rfl
  rw [JitterBuffer.getRTPPacket, hsend]
  show Except.ok (none, if j.overfull = true then j.reset else j) = _
  rw [hfew, if_neg Bool.false_ne_true]

/-- The drain behind one packet. -/
theorem Waiting.drain (h : Waiting timeBase j b out) (rule : TopRule) (stray : Seq) :
    ∃ j', j.drain rule stray (j.queue.length + 1) =
        .ok (if b.seq = out then [] else [b], j') ∧
      (b.seq ≠ out → Passed timeBase j' b) := by
  obtain ⟨j', hget, hstate, hqueue, hlost, hpassed⟩ := h.getRTPPacket rule stray
  refine ⟨j', ?_, hpassed⟩
  rw [h.queue, List.length_singleton, JitterBuffer.drain, hget, ok_bind]
  by_cases hsame : b.seq = out
  case pos =>
    rw [if_pos hsame, if_pos hsame]
  case neg =>
    rw [if_neg hsame, if_neg hsame]
    dsimp only
    rw [JitterBuffer.drain, getRTPPacket_empty hstate hqueue hlost]
    rfl

/-! ## Streams -/

/-- The numbers follow each other. -/
def Consecutive (pkts : List ValidBlock) : Prop := pkts.IsChain fun a b => b.seq = a.seq + 1

/-- The timestamps step by less than twenty seconds. -/
def Steady (timeBase : BitVec 32) (pkts : List ValidBlock) : Prop :=
  pkts.IsChain fun a b => (b.timestamp - a.timestamp).toInt.natAbs < 20 * timeBase.toNat

/-- The buffer does not start over with a packet of number 0. -/
def ZeroKept (timeBase : BitVec 32) (pkts : List ValidBlock) : Prop :=
  pkts.IsChain fun a b => b.seq = 0 → jumps timeBase a b = false

/-- Lists of what is given out agree exactly where the first ones do and the rest does. -/
theorem feedAll_cons_iff {bs : List ValidBlock} {j' : JitterBuffer} {taken : List ValidBlock}
    (hfeed : j.feed rule stray b = .ok (taken, j')) :
    feedAll rule stray (b :: bs) j = .ok ((b :: bs).map fun b => [b]) ↔
      taken = [b] ∧ feedAll rule stray bs j' = .ok (bs.map fun b => [b]) := by
  rw [feedAll, hfeed, ok_bind, List.map_cons]
  dsimp only
  rw [bind_eq_ok]
  constructor
  · rintro ⟨outs, houts, heq⟩
    cases heq
    exact ⟨rfl, houts⟩
  · rintro ⟨rfl, houts⟩
    exact ⟨_, houts, rfl⟩

/-- A packet that is put in goes through at once exactly if its number is not the one given out
last, and the rest of the stream goes on from there. -/
theorem Waiting.feedAll_iff {bs : List ValidBlock} {j₀ : JitterBuffer}
    (hset : j₀.setRTPPacket b = .ok j) (h : Waiting timeBase j b out)
    {rest : Prop} (hrest : ∀ j', Passed timeBase j' b →
      (feedAll rule stray bs j' = .ok (bs.map fun b => [b]) ↔ rest)) :
    feedAll rule stray (b :: bs) j₀ = .ok ((b :: bs).map fun b => [b]) ↔ b.seq ≠ out ∧ rest := by
  obtain ⟨j', hdrain, hpassed⟩ := h.drain rule stray
  have hfeed : j₀.feed rule stray b = .ok (if b.seq = out then [] else [b], j') := by
    rw [feed, hset, ok_bind, hdrain]
  rw [feedAll_cons_iff hfeed]
  by_cases hsame : b.seq = out
  case pos =>
    rw [if_pos hsame]
    exact iff_of_false (fun h => by cases h.1) fun h => h.1 hsame
  case neg =>
    rw [if_neg hsame, hrest j' (hpassed hsame)]
    exact and_congr_left' (iff_of_true rfl hsame)

theorem Passed.feedAll_iff (hbase : timeBase ≠ 0) (bs : List ValidBlock) :
    ∀ {j : JitterBuffer} {a : ValidBlock}, Passed timeBase j a → Consecutive (a :: bs) →
      (feedAll rule stray bs j = .ok (bs.map fun b => [b]) ↔ ZeroKept timeBase (a :: bs)) := by
  induction bs with
  | nil =>
    intro j a _ _
    exact iff_of_true rfl (List.IsChain.singleton a)
  | cons b bs ih =>
    intro j a h hseq
    obtain ⟨hnext, hseq'⟩ := List.isChain_cons_cons.mp hseq
    obtain ⟨j', hset, hwaiting⟩ := h.setRTPPacket hbase hnext
    have hkept : ZeroKept timeBase (a :: b :: bs) ↔
        (b.seq = 0 → jumps timeBase a b = false) ∧ ZeroKept timeBase (b :: bs) :=
      List.isChain_cons_cons
    rw [hwaiting.feedAll_iff hset fun j'' hpassed => ih hpassed hseq', hkept]
    refine and_congr_left' ?_
    cases jumps timeBase a b with
    | true => exact ⟨fun hne hzero => absurd hzero hne, fun h hzero => by cases h hzero⟩
    | false =>
      refine iff_of_true (fun hsame => ?_) fun _ => rfl
      rw [if_neg Bool.false_ne_true, hnext] at hsame
      have hone : (1 : Seq) = 0 := BitVec.add_right_eq_self.mp hsame
      cases hone

/-- A time base of which twenty seconds fit into 31 bits: a steady stream never starts the buffer
over. -/
theorem Steady.zeroKept {pkts : List ValidBlock} (h : Steady timeBase pkts)
    (hbase : 20 * timeBase.toNat < 2 ^ 31) : ZeroKept timeBase pkts := by
  refine h.imp fun a b hstep _ => ?_
  have htwenty : (20 * timeBase).toInt = 20 * (timeBase.toNat : Int) := by
    have hnat : (20 * timeBase).toNat = 20 * timeBase.toNat := by
      rw [BitVec.toNat_mul]
      exact Nat.mod_eq_of_lt (Nat.lt_of_lt_of_le hbase (by decide))
    rw [BitVec.toInt_eq_toNat_of_lt (by rw [hnat]; omega), hnat]
    rfl
  have habs : (b.timestamp - a.timestamp).abs.toInt ≤
      ((b.timestamp - a.timestamp).toInt.natAbs : Int) := by
    rw [BitVec.toInt_abs_eq_natAbs]
    split
    · have hmin : (BitVec.intMin 32).toInt = -2147483648 := rfl
      omega
    · exact Int.le_refl _
  rw [jumps, BitVec.sle_eq_decide, decide_eq_false_iff_not, htwenty]
  omega

end JitterBuffer

open JitterBuffer

/-- A stream of consecutive packets with steady timestamps comes out packet for packet exactly if its
first packet does not have number 0 and no packet with number 0 starts the buffer over; the latter
needs a time base whose twenty seconds do not fit into 31 bits. -/
theorem in_order_iff (rule : TopRule) (stray : Seq) (timeBase duration : BitVec 32)
    (hbase : 1000 ≤ timeBase.toNat) (pkts : List ValidBlock) (hseq : Consecutive pkts)
    (hsteady : Steady timeBase pkts) :
    (feedAll rule stray pkts (fresh timeBase duration) = .ok (pkts.map fun b => [b]) ↔
      (∀ b, pkts.head? = some b → b.seq ≠ 0) ∧ ZeroKept timeBase pkts) ∧
    (20 * timeBase.toNat < 2 ^ 31 →
      (feedAll rule stray pkts (fresh timeBase duration) = .ok (pkts.map fun b => [b]) ↔
        ∀ b, pkts.head? = some b → b.seq ≠ 0)) := by
  have hne : timeBase ≠ 0 := by
    rintro rfl
    exact absurd hbase (by decide)
  have hexact : feedAll rule stray pkts (fresh timeBase duration) = .ok (pkts.map fun b => [b]) ↔
      (∀ b, pkts.head? = some b → b.seq ≠ 0) ∧ ZeroKept timeBase pkts := by
    cases pkts with
    | nil =>
      refine iff_of_true rfl ⟨fun b hb => ?_, List.IsChain.nil⟩
      cases hb
    | cons b bs =>
      have hset : (fresh timeBase duration).setRTPPacket b =
          .ok ((fresh timeBase duration).setFirst b) := by
        have hbase' : ¬ (fresh timeBase duration).timeBase = 0 := hne
        rw [setRTPPacket, if_neg hbase']
        rfl
      have hwaiting := waiting_setFirst (j := fresh timeBase duration) rfl rfl rfl rfl rfl b
      rw [hwaiting.feedAll_iff hset fun j' hpassed => hpassed.feedAll_iff hne bs hseq]
      refine and_congr_left' ⟨fun h c hc => ?_, fun h => h b rfl⟩
      cases hc
      exact h
  refine ⟨hexact, fun hfits => ?_⟩
  rw [hexact]
  exact and_iff_left (hsteady.zeroKept hfits)

/-- Three packets across the wrap. -/
def wrappingStream : List ValidBlock :=
  [jitterPacket 65535 0, jitterPacket 0 3000, jitterPacket 1 6000]

theorem in_order_iff_wrap :
    1000 ≤ (90000 : BitVec 32).toNat ∧ Consecutive wrappingStream ∧ Steady 90000 wrappingStream ∧
      feedAll .firstOldest 0 wrappingStream (fresh 90000 50) =
        .ok (wrappingStream.map fun b => [b]) := by
  have hseq : Consecutive wrappingStream := by
    unfold Consecutive wrappingStream
    decide
  have hsteady : Steady 90000 wrappingStream := by
    unfold Steady wrappingStream
    decide
  refine ⟨by decide, hseq, hsteady, ?_⟩
  refine ((in_order_iff .firstOldest 0 90000 50 (by decide) wrappingStream hseq hsteady).2
    (by decide)).mpr fun b hb => ?_
  cases hb
  decide

/-- A stream that starts with number 0 loses its first packet. -/
theorem zero_first_lost :
    ¬ ∀ (rule : TopRule) (stray : Seq) (timeBase duration : BitVec 32) (pkts : List ValidBlock),
      1000 ≤ timeBase.toNat → Consecutive pkts → Steady timeBase pkts →
      feedAll rule stray pkts (fresh timeBase duration) = .ok (pkts.map fun b => [b]) := by
  intro hclaim
  have hlost : feedAll .firstOldest 0 [jitterPacket 0 0] (fresh 90000 50) = .ok [[]] := by rfl
  have hpassed := hclaim .firstOldest 0 90000 50 [jitterPacket 0 0] (by decide)
    (List.IsChain.singleton _) (List.IsChain.singleton _)
  rw [hlost] at hpassed
  cases hpassed

end RtcMcu.MediaManager
