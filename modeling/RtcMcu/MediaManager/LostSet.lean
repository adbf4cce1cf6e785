import RtcMcu.Lib.HalfTurn
import RtcMcu.MediaManager.JitterOrder

/-!
# The lost set of a jitter buffer

`_lost_queue` is meant to hold the numbers that were passed over and have not come yet: none that
was received, and none that is not older than the newest packet. What keeps it so is that
`_last_queue_block` is the newest packet of all received (`Sound`), for what is put into the set lies
behind it. `updateLatest` takes number 0 for a cursor that was not set, and then lets an older packet
set the cursor back: `lost_set_sound` is about the runs in which this does not happen.
-/

namespace RtcMcu.MediaManager

open RtcMcu.Serial (ahead newer newer_iff_ahead)
open RtcMcu.Coupling

/-! ## The lost set as a sorted list -/

section Lost

variable {base s x : Seq} {lost : List Seq}

/-- The numbers stand in the order of their distances from `base`, which are below half a turn. -/
structure Sorted (base : Seq) (lost : List Seq) : Prop where
  sorted : lost.Pairwise fun a b => ahead base a < ahead base b
  range : ∀ l ∈ lost, ahead base l < 2 ^ 15

theorem Sorted.sublist {lost' : List Seq} (h : Sorted base lost) (hsub : lost'.Sublist lost) :
    Sorted base lost' :=
  ⟨h.sorted.sublist hsub, fun l hl => h.range l (hsub.mem hl)⟩

theorem Sorted.of_cons {l : Seq} (h : Sorted base (l :: lost)) :
    (∀ x ∈ lost, ahead base l < ahead base x) ∧ Sorted base lost :=
  ⟨(List.pairwise_cons.mp h.sorted).1, h.sublist (List.sublist_cons_self l lost)⟩

/-- Two numbers of the half turn are newer as they are farther from `base`. -/
theorem jitterIsNewerSeq_iff {a b : Seq} (ha : ahead base a < 2 ^ 15) (hb : ahead base b < 2 ^ 15) :
    jitterIsNewerSeq b a = true ↔ ahead base a < ahead base b := newer_iff_ahead ha hb

theorem lostErase_sublist (s : Seq) (lost : List Seq) : (lostErase s lost).Sublist lost := by
  induction lost with
  | nil => exact List.Sublist.refl _
  | cons l ls ih =>
    unfold lostErase
    split
    · exact List.Sublist.refl _
    · split
      · exact ih.cons_cons l
      · exact List.sublist_cons_self l ls

/-- What is erased is gone. -/
theorem not_mem_lostErase (h : Sorted base lost) (hs : ahead base s < 2 ^ 15) :
    s ∉ lostErase s lost := by
  induction lost with
  | nil => exact List.not_mem_nil
  | cons l ls ih =>
    obtain ⟨hbehind, hrest⟩ := h.of_cons
    have hl := h.range l List.mem_cons_self
    have hnewer := jitterIsNewerSeq_iff hs hl
    have holder := jitterIsNewerSeq_iff hl hs
    unfold lostErase
    intro hmem
    split at hmem
    case isTrue hbefore =>
      rw [hnewer] at hbefore
      rcases List.mem_cons.mp hmem with rfl | hmem
      · exact Nat.lt_irrefl _ hbefore
      · have hlt := hbehind s hmem
        omega
    case isFalse hbefore =>
      rw [hnewer] at hbefore
      split at hmem
      case isTrue hafter =>
        rw [holder] at hafter
        rcases List.mem_cons.mp hmem with rfl | hmem
        · exact Nat.lt_irrefl _ hafter
        · exact ih hrest hmem
      case isFalse hafter =>
        rw [holder] at hafter
        have hlt := hbehind s hmem
        omega

/-- A number that is not there is not erased. -/
theorem lostErase_of_not_mem (h : Sorted base lost) (hs : ahead base s < 2 ^ 15) (hno : s ∉ lost) :
    lostErase s lost = lost := by
  induction lost with
  | nil => rfl
  | cons l ls ih =>
    have hl := h.range l List.mem_cons_self
    have hne : ahead base s ≠ ahead base l := fun heq =>
      hno (Serial.ahead_inj.mp heq ▸ List.mem_cons_self)
    have hnewer := jitterIsNewerSeq_iff hs hl
    have holder := jitterIsNewerSeq_iff hl hs
    unfold lostErase
    split
    case isTrue => rfl
    case isFalse hbefore =>
      rw [hnewer] at hbefore
      rw [if_pos (holder.mpr (by omega)),
        ih h.of_cons.2 fun hmem => hno (List.mem_cons_of_mem l hmem)]

/-- A number behind all others is put at the end. -/
theorem lostInsert_of_last (h : Sorted base lost) (hs : ahead base s < 2 ^ 15)
    (hlast : ∀ l ∈ lost, ahead base l < ahead base s) : lostInsert s lost = lost ++ [s] := by
  induction lost with
  | nil => rfl
  | cons l ls ih =>
    have hl := h.range l List.mem_cons_self
    have hlt := hlast l List.mem_cons_self
    have hbefore : ¬ jitterIsNewerSeq l s = true := by
      rw [jitterIsNewerSeq_iff hs hl]
      omega
    rw [lostInsert, if_neg hbefore, if_pos ((jitterIsNewerSeq_iff hl hs).mpr hlt),
      ih h.of_cons.2 fun x hx => hlast x (List.mem_cons_of_mem l hx)]
    rfl

theorem Sorted.append (h : Sorted base lost) (hs : ahead base s < 2 ^ 15)
    (hlast : ∀ l ∈ lost, ahead base l < ahead base s) : Sorted base (lost ++ [s]) := by
  refine ⟨List.pairwise_append.mpr ⟨h.sorted, List.pairwise_singleton _ _, ?_⟩, fun l hl => ?_⟩
  · intro a ha c hc
    rw [List.mem_singleton.mp hc]
    exact hlast a ha
  · rcases List.mem_append.mp hl with hl | hl
    · exact h.range l hl
    · rw [List.mem_singleton.mp hl]
      exact hs

/-- What the loop of `SetRTPPacket` puts into the set lies before the packet, and not before the
number it starts with. -/
theorem lostFill_spec {seq : Seq} (hseq : ahead base seq < 2 ^ 15) (fuel : Nat) :
    ∀ {i : Seq} {lost : List Seq}, Sorted base lost → (∀ l ∈ lost, ahead base l < ahead base i) →
      ahead base i ≤ ahead base seq →
      Sorted base (lostFill seq fuel i lost) ∧
        ∀ x ∈ lostFill seq fuel i lost, x ∈ lost ∨
          ahead base i ≤ ahead base x ∧ ahead base x < ahead base seq := by
  induction fuel with
  | zero => exact fun h _ _ => ⟨h, fun x hx => .inl hx⟩
  | succ fuel ih =>
    intro i lost h hlast hle
    have hi : ahead base i < 2 ^ 15 := by omega
    unfold lostFill
    split
    case isFalse => exact ⟨h, fun x hx => .inl hx⟩
    case isTrue hlt =>
      rw [jitterIsNewerSeq_iff hi hseq] at hlt
      have hnext : ahead base (i + 1) = ahead base i + 1 := by
        have hone : ahead i (i + 1) = 1 := Serial.ahead_add_ofNat i (show 1 < 2 ^ 16 by decide)
        rw [Serial.ahead_trans (a := base) (b := i) (by rw [hone]; omega), hone]
      rw [lostInsert_of_last h hi hlast]
      have hlast' : ∀ l ∈ lost ++ [i], ahead base l < ahead base (i + 1) := by
        intro l hl
        rcases List.mem_append.mp hl with hl | hl
        · have hold := hlast l hl
          omega
        · rw [List.mem_singleton.mp hl]
          omega
      obtain ⟨hsorted, hmem⟩ := ih (h.append hi hlast) hlast' (by omega)
      refine ⟨hsorted, fun x hx => ?_⟩
      rcases hmem x hx with hx | ⟨hlow, hhigh⟩
      · rcases List.mem_append.mp hx with hx | hx
        · exact .inl hx
        · rw [List.mem_singleton.mp hx]
          exact .inr ⟨Nat.le_refl _, hlt⟩
      · exact .inr ⟨by omega, hhigh⟩

/-- The front that is dropped ends before the first number that is not older. -/
theorem Sorted.le_of_mem_dropWhile (h : Sorted base lost) (hs : ahead base s < 2 ^ 15)
    (hx : x ∈ lost.dropWhile fun l => jitterIsNewerSeq s l) : ahead base s ≤ ahead base x := by
  induction lost with
  | nil => exact absurd hx List.not_mem_nil
  | cons l ls ih =>
    obtain ⟨hbehind, hrest⟩ := h.of_cons
    rw [List.dropWhile_cons] at hx
    split at hx
    case isTrue => exact ih hrest hx
    case isFalse hnot =>
      rw [jitterIsNewerSeq_iff (h.range l List.mem_cons_self) hs] at hnot
      rcases List.mem_cons.mp hx with rfl | hx
      · omega
      · have hlt := hbehind x hx
        omega

/-- The loop of `GetRTPPacket` drops the front of the set. -/
theorem forgetLost_fst (out : Seq) (newest : JitterBlockInfo) (lost : List Seq) :
    ∀ jitter, (JitterBuffer.forgetLost out newest lost jitter).1 =
      lost.dropWhile fun l => jitterIsNewerSeq out l := by
  induction lost with
  | nil => exact fun _ => rfl
  | cons l ls ih =>
    intro jitter
    rw [JitterBuffer.forgetLost.eq_def, List.dropWhile_cons]
    dsimp only
    split
    · exact ih _
    · rfl

end Lost

/-! ## Runs -/

/-- A jitter buffer with the numbers it has received since the last reset. -/
structure Reception where
  buffer : JitterBuffer
  received : List Seq

namespace Reception

/-- A new buffer. -/
def start (timeBase duration : BitVec 32) : Reception where
  buffer := (JitterBuffer.new.setBufferDuration duration).setTimeBase timeBase
  received := []

/-- `SetRTPPacket` starts the buffer over with the packet. -/
def startsOver (d : Reception) (b : ValidBlock) : Bool :=
  d.buffer.timeBase != 0 && d.buffer.state == .sending && d.buffer.timeJump b

/-- What a call of `GetRTPPacket` leaves. -/
def taken (d : Reception) (j : JitterBuffer) : Reception :=
  if j.overfull then { buffer := j.reset, received := [] } else { d with buffer := j }

def step (d : Reception) : JitterCall → Except Fault Reception
  | .set b => (d.buffer.setRTPPacket b).map fun j =>
      { buffer := j, received := if d.startsOver b then [b.seq] else b.seq :: d.received }
  | .get rule stray => (d.buffer.send rule stray).map fun r => d.taken r.2
  | .reset => .ok { buffer := d.buffer.reset, received := [] }

def run (d : Reception) (calls : List JitterCall) : Except Fault Reception := calls.foldlM step d

/-- The buffer of a run is the one `GetRTPPacket` leaves. -/
theorem step_get_buffer (d : Reception) (rule : TopRule) (stray : Seq) :
    (d.step (.get rule stray)).map buffer = (d.buffer.getRTPPacket rule stray).map Prod.snd := by
  simp only [step, JitterBuffer.getRTPPacket]
  cases d.buffer.send rule stray with
  | error e => rfl
  | ok r =>
    simp only [Except.map, taken]
    split <;> rfl

/-- The lost set is what it is meant to be: nothing in it was received or is queued, everything in it
is older than the newest packet, and `GetRTPPacket` does not read `*(_lost_queue.begin())` of an
empty set: what it leaves before the test of the size does not depend on what is read there. -/
structure LostSound (d : Reception) : Prop where
  missing : ∀ l ∈ d.buffer.lostQueue, l ∉ d.received ∧ ∀ q ∈ d.buffer.queue, q.seq ≠ l
  older : ∀ l ∈ d.buffer.lostQueue, jitterIsNewerSeq d.buffer.lastQueueBlock.seq l = true
  begins : ∀ rule stray stray', d.buffer.send rule stray = d.buffer.send rule stray'

/-- While the newest packet has number 0, a packet that is taken is not older, unless it starts the
buffer over. -/
def LatestGuarded (d : Reception) : JitterCall → Prop
  | .set b => d.buffer.state = .sending → d.startsOver b = false →
      d.buffer.lastQueueBlock.seq = 0 → d.buffer.tooLate b = false → jitterIsNewerSeq 0 b.seq = false
  | _ => True

/-- The numbers received count from `base` within half a turn, `_last_queue_block` is the newest of
them, and the lost set lies between the packet given out last and the newest. -/
structure Sound (base : Seq) (d : Reception) : Prop where
  timed : d.buffer.state = .sending → d.buffer.timeBase ≠ 0
  range : ∀ s ∈ d.received, ahead base s < 2 ^ 15
  queued : ∀ q ∈ d.buffer.queue, q.seq ∈ d.received
  idle : d.buffer.state = .init →
    d.buffer.queue = [] ∧ d.buffer.lostQueue = [] ∧ d.buffer.lastQueueBlock = .reset ∧
    (d.buffer.timeBase ≠ 0 → ∀ s ∈ d.received,
      d.buffer.lastOutBlock.seq ≠ 0 ∧ ahead base s < ahead base d.buffer.lastOutBlock.seq)
  newest : d.buffer.state = .sending → d.buffer.lastQueueBlock.seq ∈ d.received ∧
    ∀ s ∈ d.received, ahead base s ≤ ahead base d.buffer.lastQueueBlock.seq
  sorted : Sorted base d.buffer.lostQueue
  fresh : ∀ l ∈ d.buffer.lostQueue, l ∉ d.received
  older : ∀ l ∈ d.buffer.lostQueue, ahead base l < ahead base d.buffer.lastQueueBlock.seq
  out : d.buffer.lastOutBlock.seq ≠ 0 → ahead base d.buffer.lastOutBlock.seq < 2 ^ 15 ∧
    (d.buffer.state = .sending →
      ahead base d.buffer.lastOutBlock.seq ≤ ahead base d.buffer.lastQueueBlock.seq) ∧
    ∀ l ∈ d.buffer.lostQueue, ahead base d.buffer.lastOutBlock.seq < ahead base l

variable {base : Seq} {d : Reception} {b : ValidBlock}

/-! ## A packet is put in -/

/-- A buffer that was reset. -/
theorem sound_empty {j : JitterBuffer} (hstate : j.state = .init) (hqueue : j.queue = [])
    (hlost : j.lostQueue = []) (hnewest : j.lastQueueBlock = .reset)
    (hout : j.lastOutBlock.seq ≠ 0 → ahead base j.lastOutBlock.seq < 2 ^ 15) :
    Sound base { buffer := j, received := [] } := by
  have hnot : j.state ≠ .sending := by
    rw [hstate]
    decide
  have hnone : ∀ l, l ∉ j.lostQueue := fun l => by
    rw [hlost]
    exact List.not_mem_nil
  have hsorted : Sorted base j.lostQueue := by
    rw [hlost]
    exact ⟨List.Pairwise.nil, fun l hl => absurd hl List.not_mem_nil⟩
  exact
    { timed := fun hsending => absurd hsending hnot
      range := fun s hs => absurd hs List.not_mem_nil
      queued := fun q hq => absurd (hqueue ▸ hq : q ∈ []) List.not_mem_nil
      idle := fun _ => ⟨hqueue, hlost, hnewest, fun _ s hs => absurd hs List.not_mem_nil⟩
      newest := fun hsending => absurd hsending hnot
      sorted := hsorted
      fresh := fun l _ => List.not_mem_nil
      older := fun l hl => absurd hl (hnone l)
      out := fun hne =>
        ⟨hout hne, fun hsending => absurd hsending hnot, fun l hl => absurd hl (hnone l)⟩ }

/-- A late packet lies before the one given out last. -/
theorem Sound.tooLate_iff (h : Sound base d) (hb : ahead base b.seq < 2 ^ 15) :
    d.buffer.tooLate b = true ↔ d.buffer.lastOutBlock.seq ≠ 0 ∧
      ahead base b.seq < ahead base d.buffer.lastOutBlock.seq := by
  have hpos : 0 < d.buffer.lastOutBlock.seq ↔ d.buffer.lastOutBlock.seq ≠ 0 := by
    rw [BitVec.lt_def, Ne, ← BitVec.toNat_inj]
    exact Nat.pos_iff_ne_zero
  rw [JitterBuffer.tooLate, Bool.and_eq_true, decide_eq_true_iff, hpos]
  refine and_congr_right fun hne => ?_
  exact jitterIsNewerSeq_iff hb (h.out hne).1

/-- The first packet. -/
theorem Sound.setFirst (h : Sound base d) (hidle : d.buffer.state = .init)
    (hbase : d.buffer.timeBase ≠ 0) (hb : ahead base b.seq < 2 ^ 15) :
    Sound base { buffer := d.buffer.setFirst b, received := b.seq :: d.received } := by
  obtain ⟨hqueue, hlost, hnewest, hdropped⟩ := h.idle hidle
  have hrange : ∀ s ∈ b.seq :: d.received, ahead base s < 2 ^ 15 := by
    intro s hs
    rcases List.mem_cons.mp hs with rfl | hs
    · exact hb
    · exact h.range s hs
  have hlate := h.tooLate_iff hb
  have hnot : d.buffer.state ≠ .sending := by
    rw [hidle]
    decide
  have hnone : ∀ l, l ∉ d.buffer.lostQueue := fun l => by
    rw [hlost]
    exact List.not_mem_nil
  unfold JitterBuffer.setFirst
  by_cases htoo : d.buffer.tooLate b = true
  case pos =>
    rw [if_pos htoo]
    obtain ⟨hne, hbefore⟩ := hlate.mp htoo
    exact
      { timed := fun hsending => absurd hsending hnot
        range := hrange
        queued := fun q hq => List.mem_cons_of_mem _ (h.queued q hq)
        idle := fun _ => ⟨hqueue, hlost, hnewest, fun _ s hs => by
          rcases List.mem_cons.mp hs with rfl | hs
          · exact ⟨hne, hbefore⟩
          · exact hdropped hbase s hs⟩
        newest := fun hsending => absurd hsending hnot
        sorted := h.sorted
        fresh := fun l hl => absurd hl (hnone l)
        older := h.older
        out := h.out }
  case neg =>
    rw [if_neg htoo]
    have hlatest : d.buffer.lastQueueBlock.updateLatest b = .update b := by
      have hzero : (JitterBlockInfo.reset.seq == 0) = true := rfl
      rw [hnewest, JitterBlockInfo.updateLatest, hzero, Bool.or_true, if_pos rfl]
    have hbehind : d.buffer.lastOutBlock.seq ≠ 0 →
        ahead base d.buffer.lastOutBlock.seq ≤ ahead base b.seq := fun hne =>
      Nat.le_of_not_lt fun hbefore => htoo (hlate.mpr ⟨hne, hbefore⟩)
    rw [hlatest]
    exact
      { timed := fun _ => hbase
        range := hrange
        queued := fun q hq => by
          have hq' : q ∈ d.buffer.queue ++ [b] := hq
          rw [hqueue, List.nil_append] at hq'
          rw [List.mem_singleton.mp hq']
          exact List.mem_cons_self
        idle := fun hinit => by cases hinit
        newest := fun _ => ⟨List.mem_cons_self, fun s hs => by
          rcases List.mem_cons.mp hs with rfl | hs
          · exact Nat.le_refl _
          · obtain ⟨hne, hbefore⟩ := hdropped hbase s hs
            exact Nat.le_trans (Nat.le_of_lt hbefore) (hbehind hne)⟩
        sorted := h.sorted
        fresh := fun l hl => absurd hl (hnone l)
        older := fun l hl => absurd hl (hnone l)
        out := fun hne => ⟨(h.out hne).1, fun _ => hbehind hne, (h.out hne).2.2⟩ }

/-- The numbers a packet passes over lie between the newest packet and it. -/
theorem Sound.noteLost (h : Sound base d) (hsending : d.buffer.state = .sending)
    (hb : ahead base b.seq < 2 ^ 15) :
    Sorted base (d.buffer.noteLost b).lostQueue ∧
      ∀ l ∈ (d.buffer.noteLost b).lostQueue, l ∈ d.buffer.lostQueue ∨
        ahead base d.buffer.lastQueueBlock.seq < ahead base l ∧
          ahead base l < ahead base b.seq := by
  have hnewest := h.range _ (h.newest hsending).1
  unfold JitterBuffer.noteLost
  split
  case isFalse => exact ⟨h.sorted, fun l hl => .inl hl⟩
  case isTrue hnewer =>
    rw [jitterIsNewerSeq_iff hnewest hb] at hnewer
    have hone : ahead d.buffer.lastQueueBlock.seq (d.buffer.lastQueueBlock.seq + 1) = 1 :=
      Serial.ahead_add_ofNat _ (show 1 < 2 ^ 16 by decide)
    have hnext : ahead base (d.buffer.lastQueueBlock.seq + 1) =
        ahead base d.buffer.lastQueueBlock.seq + 1 := by
      rw [Serial.ahead_trans (a := base) (b := d.buffer.lastQueueBlock.seq)
        (by rw [hone]; omega), hone]
    have hbefore : ∀ l ∈ d.buffer.lostQueue,
        ahead base l < ahead base (d.buffer.lastQueueBlock.seq + 1) := by
      intro l hl
      have hlt := h.older l hl
      omega
    obtain ⟨hsorted, hmem⟩ := lostFill_spec hb (ahead d.buffer.lastQueueBlock.seq b.seq)
      h.sorted hbefore (by omega)
    refine ⟨hsorted, fun l hl => (hmem l hl).imp_right fun hbetween => ?_⟩
    exact ⟨by omega, hbetween.2⟩

/-- The packet goes out of the lost set, whichever way it is pushed. -/
theorem pushed_lostQueue {j : JitterBuffer} (hsorted : Sorted base j.lostQueue)
    (hb : ahead base b.seq < 2 ^ 15) :
    ((j.pushNext b).lostQueue.Sublist j.lostQueue ∧ b.seq ∉ (j.pushNext b).lostQueue) ∧
      (j.pushOther b).lostQueue.Sublist j.lostQueue ∧ b.seq ∉ (j.pushOther b).lostQueue := by
  have hsub := lostErase_sublist b.seq j.lostQueue
  have hgone := not_mem_lostErase hsorted hb
  refine ⟨?_, hsub, hgone⟩
  unfold JitterBuffer.pushNext
  dsimp only
  split
  case isTrue hnil =>
    rw [hnil]
    exact ⟨List.Sublist.refl _, List.not_mem_nil⟩
  case isFalse =>
    split
    case isTrue =>
      split
      · exact ⟨hsub, hgone⟩
      · exact ⟨hsub, hgone⟩
    case isFalse hlen =>
      have hsame := hsub.eq_of_length_le (Nat.le_of_not_lt hlen)
      rw [hsame] at hgone
      exact ⟨List.Sublist.refl _, hgone⟩

/-- What a packet that is pushed leaves, apart from the cursor of the contiguous ones. -/
structure Pushed (j : JitterBuffer) (b : ValidBlock) (j' : JitterBuffer) : Prop where
  timeBase : j'.timeBase = j.timeBase
  state : j'.state = j.state
  queue : j'.queue = j.queue ++ [b]
  lastOut : j'.lastOutBlock = j.lastOutBlock
  newest : j'.lastQueueBlock = j.lastQueueBlock.updateLatest b

/-- A packet that is taken. -/
theorem Sound.pushed (h : Sound base d) (hsending : d.buffer.state = .sending)
    (hb : ahead base b.seq < 2 ^ 15)
    (hguard : d.buffer.lastQueueBlock.seq = 0 → jitterIsNewerSeq 0 b.seq = false)
    {j' : JitterBuffer} (hpushed : Pushed d.buffer b j')
    (hlost : j'.lostQueue.Sublist (d.buffer.noteLost b).lostQueue) (hgone : b.seq ∉ j'.lostQueue) :
    Sound base { buffer := j', received := b.seq :: d.received } := by
  obtain ⟨hnewest, hmax⟩ := h.newest hsending
  have hlatest := h.range _ hnewest
  obtain ⟨hsorted, hmem⟩ := h.noteLost hsending hb
  -- the cursor of the newest packet never moves back
  have hcursor : j'.lastQueueBlock.seq ∈ b.seq :: d.received ∧
      ahead base d.buffer.lastQueueBlock.seq ≤ ahead base j'.lastQueueBlock.seq ∧
      ahead base b.seq ≤ ahead base j'.lastQueueBlock.seq := by
    rw [hpushed.newest, JitterBlockInfo.updateLatest]
    split
    case isTrue hupdate =>
      refine ⟨List.mem_cons_self, ?_, Nat.le_refl _⟩
      show _ ≤ ahead base b.seq
      rcases Bool.or_eq_true_iff.mp hupdate with hnewer | hzero
      · rw [jitterIsNewerSeq_iff hlatest hb] at hnewer
        exact Nat.le_of_lt hnewer
      · have hzero' := eq_of_beq hzero
        have hnot := hguard hzero'
        rw [← hzero', Bool.eq_false_iff, Ne, jitterIsNewerSeq_iff hb hlatest] at hnot
        exact Nat.le_of_not_lt hnot
    case isFalse hkeep =>
      have hnot := (Bool.or_eq_false_iff.mp (Bool.eq_false_iff.mpr hkeep)).1
      rw [Bool.eq_false_iff, Ne, jitterIsNewerSeq_iff hlatest hb] at hnot
      exact ⟨List.mem_cons_of_mem _ hnewest, Nat.le_refl _, Nat.le_of_not_lt hnot⟩
  obtain ⟨hin, hforward, hreaches⟩ := hcursor
  exact
    { timed := fun _ => by
        show j'.timeBase ≠ 0
        rw [hpushed.timeBase]
        exact h.timed hsending
      range := fun s hs => by
        rcases List.mem_cons.mp hs with rfl | hs
        · exact hb
        · exact h.range s hs
      queued := fun q hq => by
        have hq' : q ∈ d.buffer.queue ++ [b] := hpushed.queue ▸ hq
        rcases List.mem_append.mp hq' with hq' | hq'
        · exact List.mem_cons_of_mem _ (h.queued q hq')
        · rw [List.mem_singleton.mp hq']
          exact List.mem_cons_self
      idle := fun hinit => by
        have hinit' : j'.state = .init := hinit
        rw [hpushed.state, hsending] at hinit'
        cases hinit'
      newest := fun _ => ⟨hin, fun s hs => by
        rcases List.mem_cons.mp hs with rfl | hs
        · exact hreaches
        · exact Nat.le_trans (hmax s hs) hforward⟩
      sorted := hsorted.sublist hlost
      fresh := fun l hl => by
        intro hreceived
        rcases List.mem_cons.mp hreceived with rfl | hreceived
        · exact hgone hl
        · rcases hmem l (hlost.mem hl) with hold | ⟨hbehind, -⟩
          · exact h.fresh l hold hreceived
          · have hle := hmax l hreceived
            omega
      older := fun l hl => by
        show ahead base l < ahead base j'.lastQueueBlock.seq
        rcases hmem l (hlost.mem hl) with hold | ⟨-, hbefore⟩
        · have hlt := h.older l hold
          omega
        · omega
      out := fun hne => by
        have hne' : d.buffer.lastOutBlock.seq ≠ 0 := hpushed.lastOut ▸ hne
        obtain ⟨hrange, hle, hlostOut⟩ := h.out hne'
        have hle' := hle hsending
        show ahead base j'.lastOutBlock.seq < 2 ^ 15 ∧ _
        rw [hpushed.lastOut]
        refine ⟨hrange, fun _ => Nat.le_trans hle' hforward, fun l hl => ?_⟩
        rcases hmem l (hlost.mem hl) with hold | ⟨hbehind, -⟩
        · exact hlostOut l hold
        · omega }

/-- A packet that is late: it was not passed over since. -/
theorem Sound.late (h : Sound base d) (hsending : d.buffer.state = .sending)
    (hb : ahead base b.seq < 2 ^ 15) (hlate : d.buffer.tooLate b = true) :
    Sound base { buffer := d.buffer, received := b.seq :: d.received } ∧
      d.buffer.noteLost b = d.buffer := by
  obtain ⟨hnewest, hmax⟩ := h.newest hsending
  obtain ⟨hne, hbefore⟩ := (h.tooLate_iff hb).mp hlate
  obtain ⟨-, hle, hlostOut⟩ := h.out hne
  have hle' := hle hsending
  have hold : ¬ jitterIsNewerSeq b.seq d.buffer.lastQueueBlock.seq = true := by
    rw [jitterIsNewerSeq_iff (h.range _ hnewest) hb]
    omega
  refine ⟨?_, by rw [JitterBuffer.noteLost, if_neg hold]⟩
  exact
    { timed := h.timed
      range := fun s hs => by
        rcases List.mem_cons.mp hs with rfl | hs
        · exact hb
        · exact h.range s hs
      queued := fun q hq => List.mem_cons_of_mem _ (h.queued q hq)
      idle := fun hinit => by
        have hinit' : d.buffer.state = .init := hinit
        rw [hsending] at hinit'
        cases hinit'
      newest := fun _ => ⟨List.mem_cons_of_mem _ hnewest, fun s hs => by
        rcases List.mem_cons.mp hs with rfl | hs
        · show ahead base b.seq ≤ ahead base d.buffer.lastQueueBlock.seq
          omega
        · exact hmax s hs⟩
      sorted := h.sorted
      fresh := fun l hl hreceived => by
        rcases List.mem_cons.mp hreceived with rfl | hreceived
        · have hlt := hlostOut b.seq hl
          omega
        · exact h.fresh l hl hreceived
      older := h.older
      out := h.out }

/-- A packet for a buffer that has no time base yet. -/
theorem Sound.untimed (h : Sound base d) (hbase : d.buffer.timeBase = 0)
    (hb : ahead base b.seq < 2 ^ 15) :
    Sound base { buffer := d.buffer, received := b.seq :: d.received } := by
  have hinit : d.buffer.state = .init := by
    cases hstate : d.buffer.state with
    | init => rfl
    | sending => exact absurd hbase (h.timed hstate)
  have hnot : d.buffer.state ≠ .sending := by
    rw [hinit]
    decide
  obtain ⟨hqueue, hlost, hnewest, -⟩ := h.idle hinit
  have hnone : ∀ l, l ∉ d.buffer.lostQueue := fun l => by
    rw [hlost]
    exact List.not_mem_nil
  exact
    { timed := h.timed
      range := fun s hs => by
        rcases List.mem_cons.mp hs with rfl | hs
        · exact hb
        · exact h.range s hs
      queued := fun q hq => List.mem_cons_of_mem _ (h.queued q hq)
      idle := fun _ => ⟨hqueue, hlost, hnewest, fun hne => absurd hbase hne⟩
      newest := fun hsending => absurd hsending hnot
      sorted := h.sorted
      fresh := fun l hl => absurd hl (hnone l)
      older := h.older
      out := h.out }

theorem noteLost_others (j : JitterBuffer) (b : ValidBlock) :
    (j.noteLost b).lastQueueBlock = j.lastQueueBlock := by
  unfold JitterBuffer.noteLost
  split
  · rfl
  · rfl

theorem pushNext_newest (j : JitterBuffer) (b : ValidBlock) :
    (j.pushNext b).lastQueueBlock = j.lastQueueBlock := by
  unfold JitterBuffer.pushNext
  dsimp only
  split
  · rfl
  · split
    · split
      · rfl
      · rfl
    · rfl

/-- A packet behind the first one. -/
theorem Sound.setNext (h : Sound base d) (hsending : d.buffer.state = .sending)
    (hb : ahead base b.seq < 2 ^ 15)
    (hguard : d.buffer.lastQueueBlock.seq = 0 → d.buffer.tooLate b = false →
      jitterIsNewerSeq 0 b.seq = false) :
    Ends (fun _ => True) (fun j => Sound base { buffer := j, received := b.seq :: d.received })
      (d.buffer.setNext b) := by
  obtain ⟨htime, hstate, hout, hqueue⟩ := d.buffer.noteLost_keeps b
  have hcursor := noteLost_others d.buffer b
  have hlate : (d.buffer.noteLost b).tooLate b = d.buffer.tooLate b := by
    simp only [JitterBuffer.tooLate, hout]
  unfold JitterBuffer.setNext
  dsimp only
  rw [hlate]
  by_cases htoo : d.buffer.tooLate b = true
  case pos =>
    obtain ⟨hsound, hsame⟩ := h.late hsending hb htoo
    rw [if_pos htoo, hsame]
    unfold JitterBuffer.dropLate
    split
    · trivial
    · dsimp only
      split
      · exact ⟨hsound.timed, hsound.range, hsound.queued, hsound.idle, hsound.newest, hsound.sorted,
          hsound.fresh, hsound.older, hsound.out⟩
      · exact hsound
  case neg =>
    have hnot := Bool.eq_false_iff.mpr htoo
    obtain ⟨hsorted, -⟩ := h.noteLost hsending hb
    obtain ⟨⟨hnext, hnextGone⟩, hother, hotherGone⟩ := pushed_lostQueue hsorted hb
    have hguard' := fun hzero => hguard hzero hnot
    rw [if_neg htoo]
    split
    · obtain ⟨htime', hstate', hout', hqueue'⟩ := (d.buffer.noteLost b).pushNext_queues b
      refine h.pushed hsending hb hguard'
        ⟨htime'.trans htime, hstate'.trans hstate, ?_, hout'.trans hout, ?_⟩ hnext hnextGone
      · exact hqueue'.trans (by rw [hqueue])
      · show ((d.buffer.noteLost b).pushNext b).lastQueueBlock.updateLatest b = _
        rw [pushNext_newest, hcursor]
    · refine h.pushed hsending hb hguard' ⟨htime, hstate, ?_, hout, ?_⟩ hother hotherGone
      · show (d.buffer.noteLost b).queue ++ [b] = _
        rw [hqueue]
      · show (d.buffer.noteLost b).lastQueueBlock.updateLatest b = _
        rw [hcursor]

/-! ## A packet is taken out -/

/-- The part of `GetRTPPacket` behind the popping. What it needs is that the packet given out last is
the one before, or was received. -/
theorem Sound.forget (h : Sound base d) (hsending : d.buffer.state = .sending) {j' : JitterBuffer}
    (htime : j'.timeBase = d.buffer.timeBase) (hstate : j'.state = .sending) (hqueue : ∀ q ∈ j'.queue, q ∈ d.buffer.queue)
    (hlost : j'.lostQueue.Sublist d.buffer.lostQueue)
    (hnewest : j'.lastQueueBlock = d.buffer.lastQueueBlock)
    (hout : j'.lastOutBlock = d.buffer.lastOutBlock ∨ j'.lastOutBlock.seq ∈ d.received) :
    Sound base { d with buffer := j'.forget } := by
  have hfst : j'.forget.lostQueue =
      j'.lostQueue.dropWhile fun l => jitterIsNewerSeq j'.lastOutBlock.seq l :=
    forgetLost_fst _ _ _ _
  have hfront : j'.forget.lostQueue.Sublist j'.lostQueue :=
    hfst ▸ List.dropWhile_sublist _
  have hsub := hfront.trans hlost
  have hmax := (h.newest hsending).2
  have hsorted := h.sorted.sublist hlost
  exact
    { timed := fun _ => by
        show j'.timeBase ≠ 0
        rw [htime]
        exact h.timed hsending
      range := h.range
      queued := fun q hq => h.queued q (hqueue q hq)
      idle := fun hinit => by
        have hinit' : j'.state = .init := hinit
        rw [hstate] at hinit'
        cases hinit'
      newest := fun _ => by
        show j'.lastQueueBlock.seq ∈ _ ∧ ∀ s ∈ _, _ ≤ ahead base j'.lastQueueBlock.seq
        rw [hnewest]
        exact h.newest hsending
      sorted := h.sorted.sublist hsub
      fresh := fun l hl => h.fresh l (hsub.mem hl)
      older := fun l hl => by
        show ahead base l < ahead base j'.lastQueueBlock.seq
        rw [hnewest]
        exact h.older l (hsub.mem hl)
      out := fun hne => by
        have hne' : j'.lastOutBlock.seq ≠ 0 := hne
        show ahead base j'.lastOutBlock.seq < 2 ^ 15 ∧
          (_ → ahead base j'.lastOutBlock.seq ≤ ahead base j'.lastQueueBlock.seq) ∧
          ∀ l ∈ j'.forget.lostQueue, ahead base j'.lastOutBlock.seq < ahead base l
        rw [hnewest]
        rcases hout with hsame | hreceived
        · rw [hsame] at hne' ⊢
          obtain ⟨hrange, hle, hlostOut⟩ := h.out hne'
          exact ⟨hrange, fun _ => hle hsending, fun l hl => hlostOut l (hsub.mem hl)⟩
        · have hrange := h.range _ hreceived
          refine ⟨hrange, fun _ => hmax _ hreceived, fun l hl => ?_⟩
          have hle := hsorted.le_of_mem_dropWhile hrange (hfst ▸ hl)
          have hdiff : ahead base j'.lastOutBlock.seq ≠ ahead base l := fun heq =>
            h.fresh l (hsub.mem hl) (Serial.ahead_inj.mp heq ▸ hreceived)
          omega }

/-- What the popping of `GetRTPPacket` leaves. -/
def popped (j : JitterBuffer) (rule : TopRule) : JitterBuffer :=
  let r := JitterBuffer.popNew rule j.lastOutBlock.seq j.queue.length j.queue
  ({ j with queue := r.2 } : JitterBuffer).noteOut r.1

theorem noteOut_others (j : JitterBuffer) (r : Option ValidBlock) :
    (j.noteOut r).timeBase = j.timeBase ∧ (j.noteOut r).state = j.state ∧ (j.noteOut r).queue = j.queue ∧
      (j.noteOut r).lostQueue = j.lostQueue ∧ (j.noteOut r).lastQueueBlock = j.lastQueueBlock := by
  cases r with
  | none => exact ⟨rfl, rfl, rfl, rfl, rfl⟩
  | some b => exact ⟨rfl, rfl, rfl, rfl, rfl⟩

/-- Behind the popping, the packet given out last is one that was queued. -/
theorem popped_spec {j : JitterBuffer} {rule : TopRule} {top : ValidBlock}
    (htop : rule.top j.queue = some top) :
    (popped j rule).timeBase = j.timeBase ∧ (popped j rule).state = j.state ∧
      (∀ q ∈ (popped j rule).queue, q ∈ j.queue) ∧ (popped j rule).lostQueue = j.lostQueue ∧
      (popped j rule).lastQueueBlock = j.lastQueueBlock ∧
      ∃ q ∈ j.queue, q.seq = (popped j rule).lastOutBlock.seq := by
  obtain ⟨-, hsub, hsome⟩ :=
    JitterBuffer.popNew_spec rule j.lastOutBlock.seq j.queue.length j.queue
  have hmem := rule.mem_of_top htop
  have hnone : (JitterBuffer.popNew rule j.lastOutBlock.seq j.queue.length j.queue).1 = none →
      top.seq = j.lastOutBlock.seq := by
    intro hpop
    cases hlen : j.queue.length with
    | zero =>
      rw [List.eq_nil_of_length_eq_zero hlen] at hmem
      exact absurd hmem List.not_mem_nil
    | succ n =>
      rw [hlen, JitterBuffer.popNew, htop] at hpop
      dsimp only at hpop
      split at hpop
      case isTrue hsame => exact hsame
      case isFalse => cases hpop
  unfold popped
  dsimp only
  generalize JitterBuffer.popNew rule j.lastOutBlock.seq j.queue.length j.queue = r
    at hsub hsome hnone ⊢
  obtain ⟨htime, hstate, hqueue, hlost, hnewest⟩ :=
    noteOut_others ({ j with queue := r.2 } : JitterBuffer) r.1
  refine ⟨htime, hstate, fun q hq => ?_, hlost, hnewest, ?_⟩
  · rw [hqueue] at hq
    exact hsub q hq
  cases hr : r.1 with
  | none => exact ⟨top, hmem, hnone hr⟩
  | some b => exact ⟨b, (hsome b hr).1, rfl⟩

/-- The cursor moves on without a look behind the end of the lost set: the packet given out last is
not in it. -/
theorem advance_stray {j : JitterBuffer} (hsorted : Sorted base j.lostQueue)
    (hout : ahead base j.lastOutBlock.seq < 2 ^ 15) (hno : j.lastOutBlock.seq ∉ j.lostQueue)
    (stray stray' : Seq) : j.advance stray = j.advance stray' := by
  unfold JitterBuffer.advance
  split
  case isFalse => rfl
  case isTrue =>
    split
    case isTrue => rfl
    case isFalse hne =>
      rw [lostErase_of_not_mem hsorted hout hno]
      obtain ⟨l, ls, hl⟩ := List.exists_cons_of_ne_nil hne
      rw [hl]
      rfl

theorem advance_others (j : JitterBuffer) (stray : Seq) :
    (j.advance stray).timeBase = j.timeBase ∧ (j.advance stray).state = j.state ∧
      (j.advance stray).queue = j.queue ∧
      (j.advance stray).lostQueue.Sublist j.lostQueue ∧
      (j.advance stray).lastQueueBlock = j.lastQueueBlock ∧
      (j.advance stray).lastOutBlock = j.lastOutBlock := by
  unfold JitterBuffer.advance
  split
  · split
    · exact ⟨rfl, rfl, rfl, List.Sublist.refl _, rfl, rfl⟩
    · exact ⟨rfl, rfl, rfl, lostErase_sublist _ _, rfl, rfl⟩
  · exact ⟨rfl, rfl, rfl, List.Sublist.refl _, rfl, rfl⟩

/-- `GetRTPPacket` in a buffer that is sound. -/
theorem Sound.takeOut (h : Sound base d) (hsending : d.buffer.state = .sending) (rule : TopRule)
    (stray : Seq) :
    Ends (fun _ => True) (fun r => Sound base { d with buffer := r.2.forget })
        (d.buffer.takeOut rule stray) ∧
      ∀ stray', d.buffer.takeOut rule stray = d.buffer.takeOut rule stray' := by
  have hidle : Sound base { d with buffer := d.buffer.forget } :=
    h.forget hsending rfl hsending (fun q hq => hq) (List.Sublist.refl _) rfl (.inl rfl)
  unfold JitterBuffer.takeOut
  cases htop : rule.top d.buffer.queue with
  | none => exact ⟨hidle, fun _ => rfl⟩
  | some top =>
    dsimp only
    cases d.buffer.keeps top with
    | error e => exact ⟨trivial, fun _ => rfl⟩
    | ok keep =>
      cases keep with
      | true => exact ⟨hidle, fun _ => rfl⟩
      | false =>
        obtain ⟨htime, hstate, hqueue, hlost, hnewest, q, hq, hseq⟩ := popped_spec htop
        have hreceived : (popped d.buffer rule).lastOutBlock.seq ∈ d.received :=
          hseq ▸ h.queued q hq
        have hsorted : Sorted base (popped d.buffer rule).lostQueue := hlost ▸ h.sorted
        have hno : (popped d.buffer rule).lastOutBlock.seq ∉ (popped d.buffer rule).lostQueue :=
          fun hmem => h.fresh _ (hlost ▸ hmem) hreceived
        obtain ⟨htime', hstate', hqueue', hlost', hnewest', hout'⟩ :=
          advance_others (popped d.buffer rule) stray
        have hlostSub : ((popped d.buffer rule).advance stray).lostQueue.Sublist
            d.buffer.lostQueue := by
          rw [← hlost]
          exact hlost'
        refine ⟨?_, fun stray' => ?_⟩
        · refine h.forget hsending ?_ ?_ ?_ hlostSub ?_ (.inr ?_)
          · exact htime'.trans htime
          · exact hstate'.trans (hstate.trans hsending)
          · exact fun q' hq' => hqueue q' (hqueue' ▸ hq')
          · exact hnewest'.trans hnewest
          · exact hout' ▸ hreceived
        · have hsame := advance_stray hsorted (h.range _ hreceived) hno stray stray'
          exact congrArg (fun j => Except.ok (_, j)) hsame

/-- `GetRTPPacket`, before the test of the size. -/
theorem Sound.send (h : Sound base d) (rule : TopRule) (stray : Seq) :
    Ends (fun _ => True) (fun r => Sound base { d with buffer := r.2 })
        (d.buffer.send rule stray) ∧
      ∀ stray', d.buffer.send rule stray = d.buffer.send rule stray' := by
  unfold JitterBuffer.send
  cases hstate : d.buffer.state with
  | init => exact ⟨h, fun _ => rfl⟩
  | sending =>
    dsimp only
    obtain ⟨hends, hsame⟩ := h.takeOut hstate rule stray
    refine ⟨?_, fun stray' => by rw [hsame stray']⟩
    cases htake : d.buffer.takeOut rule stray with
    | error e => trivial
    | ok r => exact hends.of_ok htake

/-- The queue may be given up for its size. -/
theorem Sound.taken {j : JitterBuffer} (h : Sound base { d with buffer := j }) :
    Sound base (d.taken j) := by
  unfold Reception.taken
  split
  · exact sound_empty rfl rfl rfl rfl fun hne => (h.out hne).1
  · exact h

/-! ## The run -/

/-- A call whose packet is in range keeps the buffer sound. -/
theorem Sound.step (h : Sound base d) {call : JitterCall} (hguard : d.LatestGuarded call)
    (hrange : ∀ b ∈ putIn [call], ahead base b.seq < 2 ^ 15) :
    Ends (fun _ => True) (Sound base) (d.step call) := by
  cases call with
  | reset => exact sound_empty rfl rfl rfl rfl fun hne => (h.out hne).1
  | get rule stray =>
    obtain ⟨hends, -⟩ := h.send rule stray
    simp only [Reception.step]
    cases hsend : d.buffer.send rule stray with
    | error e => trivial
    | ok r => exact (hends.of_ok hsend).taken
  | set b =>
    have hb := hrange b List.mem_cons_self
    simp only [Reception.step, JitterBuffer.setRTPPacket]
    by_cases hbase : d.buffer.timeBase = 0
    case pos =>
      have hover : d.startsOver b = false := by
        rw [startsOver, hbase]
        rfl
      rw [if_pos hbase]
      simp only [Except.map, hover, Bool.false_eq_true, if_false]
      exact h.untimed hbase hb
    case neg =>
      rw [if_neg hbase]
      cases hstate : d.buffer.state with
      | init =>
        have hover : d.startsOver b = false := by
          rw [startsOver, hstate, Bool.and_assoc]
          exact Bool.and_false _
        simp only [Except.map, hover, Bool.false_eq_true, if_false]
        exact h.setFirst hstate hbase hb
      | sending =>
        have hover : d.startsOver b = d.buffer.timeJump b := by
          rw [startsOver, hstate, bne_iff_ne.mpr hbase]
          rfl
        cases hjump : d.buffer.timeJump b with
        | true =>
          have hcleared : Sound base
              { buffer := { d.buffer.reset with lastOutBlock := .reset }, received := [] } :=
            sound_empty rfl rfl rfl rfl fun hne => absurd rfl hne
          simp only [Except.map, hover, hjump, if_true]
          exact hcleared.setFirst rfl hbase hb
        | false =>
          have hnext := h.setNext hstate hb
            fun hzero hlate => hguard hstate (hover.trans hjump) hzero hlate
          simp only [hover, hjump, Bool.false_eq_true, if_false]
          cases hset : d.buffer.setNext b with
          | error e => trivial
          | ok j => exact hnext.of_ok hset

/-- A run whose packets are in range keeps the buffer sound. -/
theorem Sound.run (calls : List JitterCall) :
    ∀ {d : Reception}, Sound base d → Along Reception.step LatestGuarded d calls →
      (∀ b ∈ putIn calls, ahead base b.seq < 2 ^ 15) →
      Ends (fun _ => True) (Sound base) (d.run calls) := by
  induction calls with
  | nil => exact fun h _ _ => h
  | cons call calls ih =>
    intro d h hguard hrange
    rw [Delivery.putIn_cons] at hrange
    have hfirst := h.step hguard.1 fun b hb => hrange b (List.mem_append_left _ hb)
    refine Ends.bind hfirst fun d' hstep h' => ?_
    exact ih h' (hguard.2 d' hstep) fun b hb => hrange b (List.mem_append_right _ hb)

theorem start_sound (timeBase duration : BitVec 32) : Sound base (start timeBase duration) :=
  sound_empty rfl rfl rfl rfl fun hne => absurd rfl hne

/-- What soundness says of the lost set. -/
theorem Sound.lostSound (h : Sound base d) : d.LostSound where
  missing := fun l hl =>
    ⟨h.fresh l hl, fun q hq heq => h.fresh l hl (heq ▸ h.queued q hq)⟩
  older := fun l hl => by
    have hlt := h.older l hl
    have hsending : d.buffer.state = .sending := by
      cases hstate : d.buffer.state with
      | sending => rfl
      | init =>
        rw [(h.idle hstate).2.1] at hl
        exact absurd hl List.not_mem_nil
    have hnewest := h.range _ (h.newest hsending).1
    exact (jitterIsNewerSeq_iff (h.sorted.range l hl) hnewest).mpr hlt
  begins := fun rule stray => (h.send rule stray).2

end Reception

/-- In a run whose packets lie within half a turn the lost set is what it is meant to be, as long as
no packet older than number 0 is taken while number 0 is the newest. -/
theorem lost_set_sound (timeBase duration : BitVec 32) (calls : List JitterCall)
    (hhalf : HalfRange ((putIn calls).map ValidBlock.seq))
    (hguard : Along Reception.step Reception.LatestGuarded (Reception.start timeBase duration)
      calls) :
    ∀ d, (Reception.start timeBase duration).run calls = .ok d → d.LostSound := by
  obtain ⟨base, hbase⟩ := hhalf
  intro d hrun
  have hsound := Reception.Sound.run calls (Reception.start_sound timeBase duration) hguard
    fun b hb => hbase b.seq (List.mem_map_of_mem hb)
  exact (hsound.of_ok hrun).lostSound

/-! ## Two runs -/

theorem HalfRange.of_all (base : Seq) {seqs : List Seq}
    (h : seqs.all (fun s => decide (ahead base s < 2 ^ 15)) = true) : HalfRange seqs :=
  ⟨base, fun s hs => of_decide_eq_true (List.all_eq_true.mp h s hs)⟩

namespace Reception

/-- `LatestGuarded` as a computation. -/
def latestGuards (d : Reception) : JitterCall → Bool
  | .set b => d.buffer.state != .sending || d.startsOver b || d.buffer.lastQueueBlock.seq != 0 ||
      d.buffer.tooLate b || !jitterIsNewerSeq 0 b.seq
  | _ => true

theorem latestGuarded_of_guards (d : Reception) (call : JitterCall)
    (h : d.latestGuards call = true) : d.LatestGuarded call := by
  cases call with
  | set b =>
    intro hstate hover hzero hlate
    rw [latestGuards, hstate, hover, hzero, hlate] at h
    exact (Bool.not_eq_true' _).mp h
  | get rule stray => trivial
  | reset => trivial

end Reception

/-- Number 65535, a gap behind it that is filled, and two packets given out. -/
def gapFilled : List JitterCall :=
  [.set (jitterPacket 65535 0), .set (jitterPacket 2 0), .set (jitterPacket 0 0),
    .get .firstOldest 0, .get .firstOldest 0]

theorem lost_set_sound_gap_filled :
    HalfRange ((putIn gapFilled).map ValidBlock.seq) ∧
    Along Reception.step Reception.LatestGuarded (Reception.start 90000 100) gapFilled ∧
    ∀ d, (Reception.start 90000 100).run gapFilled = .ok d → d.LostSound :=
  have hhalf : HalfRange ((putIn gapFilled).map ValidBlock.seq) :=
    HalfRange.of_all 65535 (by decide +kernel)
  have hguard :
      Along Reception.step Reception.LatestGuarded (Reception.start 90000 100) gapFilled :=
    Along.of_check Reception.latestGuarded_of_guards gapFilled (by decide +kernel)
  ⟨hhalf, hguard, lost_set_sound 90000 100 gapFilled hhalf hguard⟩

/-- Number 0 comes before 65535. -/
def olderAfterZero : List JitterCall :=
  [.set (jitterPacket 65534 0), .set (jitterPacket 0 0), .set (jitterPacket 65535 0),
    .set (jitterPacket 1 0)]

/-- The older packet sets the cursor back, and packet 1 passes over the number 0 that is queued. -/
theorem queued_number_lost :
    ¬ ∀ (timeBase duration : BitVec 32) (calls : List JitterCall),
      HalfRange ((putIn calls).map ValidBlock.seq) →
      ∀ d, (Reception.start timeBase duration).run calls = .ok d → d.LostSound := by
  intro hclaim
  have hhalf : HalfRange ((putIn olderAfterZero).map ValidBlock.seq) :=
    HalfRange.of_all 65534 (by decide +kernel)
  have hlost : ((Reception.start 90000 100).run olderAfterZero).toOption.any
      (fun d => d.buffer.lostQueue.contains 0 && d.received.contains 0) = true := by
    decide +kernel
  cases hrun : (Reception.start 90000 100).run olderAfterZero with
  | error e =>
    rw [hrun] at hlost
    cases hlost
  | ok d =>
    rw [hrun] at hlost
    obtain ⟨hmem, hreceived⟩ := Bool.and_eq_true_iff.mp hlost
    have hsound := hclaim 90000 100 olderAfterZero hhalf d hrun
    exact (hsound.missing 0 (List.contains_iff_mem.mp hmem)).1
      (List.contains_iff_mem.mp hreceived)

end RtcMcu.MediaManager
