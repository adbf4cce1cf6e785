import RtcMcu.Fragment.RtpBlock
import RtcMcu.Lib.Serial

/-!
# JitterBuffer

`media_manager/jitter_buffer.cpp`: a queue of packets ordered by sequence number, the set of the
numbers that were passed over, and three cursors. A packet is given out when nothing before it is
missing, or when the newest packet is `_buffer_duration` ahead of it.

The queue is a `std::priority_queue`, whose order is the serial order of 16-bit numbers. What is on
top is settled only as far as that order is one on the numbers in the queue (`TopRule`).
-/

namespace RtcMcu.MediaManager

open RtcMcu.Serial (ahead newer not_newer_of_le)
open RtcMcu.Avformat (Rtp)
open RtcMcu.Fragment

/-- `jitter_is_newer_seq`. -/
def jitterIsNewerSeq (seq preseq : Seq) : Bool := newer seq preseq

/-! ## The packets -/

/-- An `RTPBlock*` for which `is_valid` holds. -/
structure ValidBlock where
  block : RTPBlock
  valid : block.isValid = true
  deriving DecidableEq

namespace ValidBlock

theorem header_isSome (b : ValidBlock) : b.block.rtpHeader.isSome = true := by
  have h := b.valid
  unfold RTPBlock.isValid at h
  exact (Bool.and_eq_true_iff.mp h).2

def rtp (b : ValidBlock) : Rtp := b.block.rtpHeader.get b.header_isSome

/-- `RTPBlock::get_seq` of a valid block. -/
def seq (b : ValidBlock) : Seq := b.rtp.seq

/-- `RTPBlock::get_timestamp` of a valid block. -/
def timestamp (b : ValidBlock) : BitVec 32 := b.rtp.timestamp

/-- The block of a whole packet. -/
def holding (p : Rtp) : ValidBlock := ⟨RTPBlock.holding p, RTPBlock.isValid_holding p⟩

end ValidBlock

/-- The numbers lie within half a turn of the circle. -/
def HalfRange (seqs : List Seq) : Prop := ∃ base, ∀ s ∈ seqs, ahead base s < 2 ^ 15

/-- Which packet `_queue.top()` is. The comparison `cmp` orders the queue while its numbers lie
within half a turn, and then no packet is older than the top; which of two packets with one number
comes first is left to the heap. -/
structure TopRule where
  top : List ValidBlock → Option ValidBlock
  mem_of_top : ∀ {q b}, top q = some b → b ∈ q
  top_isSome : ∀ {q}, q ≠ [] → (top q).isSome = true
  oldest : ∀ {q b}, HalfRange (q.map ValidBlock.seq) → top q = some b →
    ∀ c ∈ q, jitterIsNewerSeq b.seq c.seq = false

/-- Of numbers within half a turn, one is the oldest. -/
theorem HalfRange.exists_oldest {q : List ValidBlock} (h : HalfRange (q.map ValidBlock.seq))
    (hq : q ≠ []) : ∃ b ∈ q, ∀ c ∈ q, jitterIsNewerSeq b.seq c.seq = false := by
  obtain ⟨base, hbase⟩ := h
  have hmin : ∃ b ∈ q, ∀ c ∈ q, ahead base b.seq ≤ ahead base c.seq := by
    clear hbase
    induction q with
    | nil => exact absurd rfl hq
    | cons a q ih =>
      by_cases hnil : q = []
      · subst hnil
        refine ⟨a, List.mem_cons_self, fun c hc => ?_⟩
        cases List.mem_singleton.mp hc
        exact Nat.le_refl _
      obtain ⟨b, hb, hle⟩ := ih hnil
      rcases Nat.le_total (ahead base a.seq) (ahead base b.seq) with hab | hab
      · refine ⟨a, List.mem_cons_self, fun c hc => ?_⟩
        rcases List.mem_cons.mp hc with rfl | hc
        · exact Nat.le_refl _
        · exact Nat.le_trans hab (hle c hc)
      · refine ⟨b, List.mem_cons_of_mem a hb, fun c hc => ?_⟩
        rcases List.mem_cons.mp hc with rfl | hc
        · exact hab
        · exact hle c hc
  obtain ⟨b, hb, hle⟩ := hmin
  exact ⟨b, hb, fun c hc => not_newer_of_le (hbase _ (List.mem_map_of_mem hc)) (hle c hc)⟩

/-- The rule that takes, of the packets that none is older than, the one pushed first. -/
def TopRule.firstOldest : TopRule where
  top q := (q.find? fun b => q.all fun c => !jitterIsNewerSeq b.seq c.seq).or q.head?
  mem_of_top := by
    intro q b h
    rcases Option.or_eq_some_iff.mp h with h | ⟨-, h⟩
    · exact List.mem_of_find?_eq_some h
    · exact List.mem_of_head? h
  top_isSome := by
    intro q h
    obtain ⟨b, q, rfl⟩ := List.exists_cons_of_ne_nil h
    rw [Option.isSome_or, List.head?_cons, Option.isSome_some, Bool.or_true]
  oldest := by
    intro q b hhalf h c hc
    obtain ⟨m, hm, hold⟩ := hhalf.exists_oldest (List.ne_nil_of_mem hc)
    rcases Option.or_eq_some_iff.mp h with h | ⟨h, -⟩
    · have hall : (q.all fun c => !jitterIsNewerSeq b.seq c.seq) = true := by
        have hsome := List.find?_some h
        exact hsome
      have hnot := List.all_eq_true.mp hall c hc
      rwa [Bool.not_eq_true'] at hnot
    · have hnone := List.find?_eq_none.mp h m hm
      refine absurd (List.all_eq_true.mpr fun x hx => ?_) hnone
      rw [hold x hx]
      rfl

/-! ## The cursors -/

/-- `JitterBlockInfo`. -/
structure JitterBlockInfo where
  rtpTime : BitVec 32
  seq : Seq
  deriving DecidableEq, Repr

namespace JitterBlockInfo

/-- `JitterBlockInfo::reset`, also the constructor. -/
def reset : JitterBlockInfo := { rtpTime := 0, seq := 0 }

/-- `JitterBlockInfo::update` with a block. -/
def update (b : ValidBlock) : JitterBlockInfo := { rtpTime := b.timestamp, seq := b.seq }

/-- `JitterBlockInfo::updateLatest`, which takes number 0 for a cursor that was not set. -/
def updateLatest (i : JitterBlockInfo) (b : ValidBlock) : JitterBlockInfo :=
  if jitterIsNewerSeq b.seq i.seq || i.seq == 0 then update b else i

end JitterBlockInfo

/-- `BUFFER_STATE`. `DISPOSED` is entered by the destructor only. -/
inductive BufferState
  | init
  | sending
  deriving DecidableEq, Repr

/-- `JitterBuffer`. `_lost_queue` is listed from its `begin()`. -/
structure JitterBuffer where
  queue : List ValidBlock
  lostQueue : List Seq
  state : BufferState
  jitterBlock : JitterBlockInfo
  lastQueueBlock : JitterBlockInfo
  lastOutBlock : JitterBlockInfo
  bufferDuration : BitVec 32
  timeBase : BitVec 32
  maxBufferTime : BitVec 32

/-- `BUFFER_THRESHOLD`. -/
def bufferThreshold : Nat := 5000

/-! ## The lost set -/

/-- `_lost_queue.insert`, in the order of `SequenceNumberLessThan`. -/
def lostInsert (s : Seq) : List Seq → List Seq
  | [] => [s]
  | l :: ls =>
    if jitterIsNewerSeq l s then s :: l :: ls
    else if jitterIsNewerSeq s l then l :: lostInsert s ls
    else l :: ls

/-- `_lost_queue.erase`: the element equivalent to the number goes. -/
def lostErase (s : Seq) : List Seq → List Seq
  | [] => []
  | l :: ls =>
    if jitterIsNewerSeq l s then l :: ls
    else if jitterIsNewerSeq s l then l :: lostErase s ls
    else ls

/-- The loop that puts the numbers from `i` up to `seq` into the lost set; `fuel` counts the numbers
that are left. -/
def lostFill (seq : Seq) : Nat → Seq → List Seq → List Seq
  | 0, _, lost => lost
  | fuel + 1, i, lost =>
    if jitterIsNewerSeq seq i then lostFill seq fuel (i + 1) (lostInsert i lost) else lost

namespace JitterBuffer

/-- `JitterBuffer()`. -/
def new : JitterBuffer where
  queue := []
  lostQueue := []
  state := .init
  jitterBlock := .reset
  lastQueueBlock := .reset
  lastOutBlock := .reset
  bufferDuration := 0
  timeBase := 0
  maxBufferTime := 0

/-- `setBufferDuration`. -/
def setBufferDuration (j : JitterBuffer) (duration : BitVec 32) : JitterBuffer :=
  { j with bufferDuration := duration }

/-- `setTimeBase`. -/
def setTimeBase (j : JitterBuffer) (timeBase : BitVec 32) : JitterBuffer :=
  { j with timeBase := timeBase }

/-- `_reset`. `_last_out_block` is left as it is. -/
def reset (j : JitterBuffer) : JitterBuffer :=
  { j with
    queue := []
    lostQueue := []
    jitterBlock := .reset
    lastQueueBlock := .reset
    state := .init }

/-! ## SetRTPPacket -/

/-- The packet is older than the last one that was given out; number 0 stands for none. -/
def tooLate (j : JitterBuffer) (b : ValidBlock) : Bool :=
  decide (0 < j.lastOutBlock.seq) && jitterIsNewerSeq j.lastOutBlock.seq b.seq

/-- The branch of `SetRTPPacket` for `INIT`. -/
def setFirst (j : JitterBuffer) (b : ValidBlock) : JitterBuffer :=
  if j.tooLate b then j
  else
    { j with
      queue := j.queue ++ [b]
      jitterBlock := .update b
      state := .sending
      lastQueueBlock := j.lastQueueBlock.updateLatest b }

/-- The timestamp lies twenty seconds or more from the newest one. -/
def timeJump (j : JitterBuffer) (b : ValidBlock) : Bool :=
  (20 * j.timeBase).sle (b.timestamp - j.lastQueueBlock.rtpTime).abs

/-- The numbers passed over by a packet newer than the newest one. -/
def noteLost (j : JitterBuffer) (b : ValidBlock) : JitterBuffer :=
  if jitterIsNewerSeq b.seq j.lastQueueBlock.seq then
    { j with
      lostQueue := lostFill b.seq (ahead j.lastQueueBlock.seq b.seq) (j.lastQueueBlock.seq + 1)
        j.lostQueue }
  else j

/-- What a late packet leaves: the time it would have had to be kept. -/
def dropLate (j : JitterBuffer) (b : ValidBlock) : Except Fault JitterBuffer :=
  if j.timeBase / 1000 = 0 then .error .divideByZero
  else
    let bufferTime := (j.lastQueueBlock.rtpTime - b.timestamp) / (j.timeBase / 1000)
    if j.jitterBlock ≠ j.lastOutBlock ∧ j.maxBufferTime < bufferTime then
      .ok { j with maxBufferTime := bufferTime }
    else .ok j

/-- The packet right behind the contiguous ones. -/
def pushNext (j : JitterBuffer) (b : ValidBlock) : JitterBuffer :=
  let j' := { j with queue := j.queue ++ [b] }
  if j.lostQueue = [] then { j' with jitterBlock := .update b }
  else
    let lost := lostErase b.seq j.lostQueue
    if lost.length < j.lostQueue.length then
      match lost with
      | [] => { j' with lostQueue := lost, jitterBlock := j.lastQueueBlock }
      | l :: _ => { j' with lostQueue := lost, jitterBlock := { j.jitterBlock with seq := l - 1 } }
    else j'

/-- A packet that is neither late nor next. -/
def pushOther (j : JitterBuffer) (b : ValidBlock) : JitterBuffer :=
  { j with queue := j.queue ++ [b], lostQueue := lostErase b.seq j.lostQueue }

/-- `_last_queue_block->updateLatest`, the last step of the branch for `SENDING`. -/
def noteLatest (j : JitterBuffer) (b : ValidBlock) : JitterBuffer :=
  { j with lastQueueBlock := j.lastQueueBlock.updateLatest b }

/-- The branch of `SetRTPPacket` for `SENDING`, behind the test of the timestamp. A late packet was
deleted, and `updateLatest` of a null block does nothing. -/
def setNext (j : JitterBuffer) (b : ValidBlock) : Except Fault JitterBuffer :=
  let j := j.noteLost b
  if j.tooLate b then j.dropLate b
  else if j.jitterBlock.seq + 1 = b.seq then .ok ((j.pushNext b).noteLatest b)
  else .ok ((j.pushOther b).noteLatest b)

/-- `SetRTPPacket` with a valid block. After a jump of the timestamp the buffer starts over, with
`_last_out_block` reset as well, and the packet is the first one. -/
def setRTPPacket (j : JitterBuffer) (b : ValidBlock) : Except Fault JitterBuffer :=
  if j.timeBase = 0 then .ok j
  else
    match j.state with
    | .init => .ok (j.setFirst b)
    | .sending =>
      if j.timeJump b then .ok (({ j.reset with lastOutBlock := .reset } : JitterBuffer).setFirst b)
      else j.setNext b

/-! ## GetRTPPacket -/

/-- The top of the queue is kept: something before the newest packet is missing, and the newest
packet is not yet `_buffer_duration` ahead of the top. -/
def keeps (j : JitterBuffer) (top : ValidBlock) : Except Fault Bool :=
  if j.jitterBlock = j.lastQueueBlock then .ok false
  else if j.timeBase / 1000 = 0 then .error .divideByZero
  else
    .ok (decide ((j.lastQueueBlock.rtpTime - top.timestamp) / (j.timeBase / 1000)
      < j.bufferDuration))

/-- The packets with the number that was given out last are deleted, up to the first other one.
`fuel` is the length of the queue. -/
def popNew (rule : TopRule) (out : Seq) : Nat → List ValidBlock →
    Option ValidBlock × List ValidBlock
  | 0, q => (none, q)
  | fuel + 1, q =>
    match rule.top q with
    | none => (none, q)
    | some b => if b.seq = out then popNew rule out fuel (q.erase b) else (some b, q.erase b)

/-- `_last_out_block` follows the packet that is given out. -/
def noteOut (j : JitterBuffer) : Option ValidBlock → JitterBuffer
  | none => j
  | some b => { j with lastOutBlock := .update b }

/-- The cursor of the contiguous packets moves on when it is reached. `stray` is what
`*(_lost_queue.begin())` reads where the set is empty. -/
def advance (j : JitterBuffer) (stray : Seq) : JitterBuffer :=
  if j.lastOutBlock.seq = j.jitterBlock.seq then
    if j.lostQueue = [] then { j with jitterBlock := j.lastQueueBlock }
    else
      let lost := lostErase j.lastOutBlock.seq j.lostQueue
      { j with lostQueue := lost, jitterBlock := { j.jitterBlock with seq := lost.headD stray } }
  else j

/-- The loop that forgets the lost numbers older than the last packet given out. -/
def forgetLost (out : Seq) (newest : JitterBlockInfo) :
    List Seq → JitterBlockInfo → List Seq × JitterBlockInfo
  | [], jitter => ([], jitter)
  | l :: ls, jitter =>
    if jitterIsNewerSeq out l then
      forgetLost out newest ls
        (match ls with
          | [] => newest
          | l' :: _ => { jitter with seq := l' })
    else (l :: ls, jitter)

def forget (j : JitterBuffer) : JitterBuffer :=
  let r := forgetLost j.lastOutBlock.seq j.lastQueueBlock j.lostQueue j.jitterBlock
  { j with lostQueue := r.1, jitterBlock := r.2 }

/-- The round of the first loop of `GetRTPPacket`, which ends in a `break`. -/
def takeOut (j : JitterBuffer) (rule : TopRule) (stray : Seq) :
    Except Fault (Option ValidBlock × JitterBuffer) :=
  match rule.top j.queue with
  | none => .ok (none, j)
  | some top =>
    match j.keeps top with
    | .error e => .error e
    | .ok true => .ok (none, j)
    | .ok false =>
      let r := popNew rule j.lastOutBlock.seq j.queue.length j.queue
      .ok (r.1, (({ j with queue := r.2 } : JitterBuffer).noteOut r.1).advance stray)

/-- The queue has grown beyond what the buffer keeps. -/
def overfull (j : JitterBuffer) : Bool := decide (bufferThreshold < j.queue.length)

/-- `GetRTPPacket`, before the test of the size. -/
def send (j : JitterBuffer) (rule : TopRule) (stray : Seq) :
    Except Fault (Option ValidBlock × JitterBuffer) :=
  match j.state with
  | .init => .ok (none, j)
  | .sending => (j.takeOut rule stray).map fun r => (r.1, r.2.forget)

/-- `GetRTPPacket`. -/
def getRTPPacket (j : JitterBuffer) (rule : TopRule) (stray : Seq) :
    Except Fault (Option ValidBlock × JitterBuffer) :=
  (j.send rule stray).map fun r => (r.1, if r.2.overfull then r.2.reset else r.2)

end JitterBuffer

end RtcMcu.MediaManager
