import Mathlib.Data.List.Chain
import RtcMcu.Lib.Along
import RtcMcu.MediaManager.JitterBuffer

/-!
# The order of the packets a jitter buffer gives out

Between two resets the numbers given out increase, as long as no packet older than number 0 is put
in while number 0 was given out last (`jitter_order`). The buffer compares a packet with the last
one given out only if that one's number is not 0, which it takes for "none was given out".

What carries the result is one fact about the queue: nothing in it is older than the packet given
out last (`Delivery.Ordered`). The lost set and the other two cursors decide when a packet is given
out, not which.
-/

namespace RtcMcu.MediaManager

open RtcMcu.Serial (ahead newer newer_iff ahead_lt_of_not_newer)
open RtcMcu.Avformat (Rtp)

/-! ## Runs -/

/-- A call on a jitter buffer, with what the heap and the end iterator of the lost set give in a
call of `GetRTPPacket`. -/
inductive JitterCall
  | set (b : ValidBlock)
  | get (rule : TopRule) (stray : Seq)
  | reset

/-- A jitter buffer with the packets it gave out: those since the last reset, the latest first, and
those of each stretch between two resets before that. -/
structure Delivery where
  buffer : JitterBuffer
  given : List ValidBlock
  earlier : List (List ValidBlock)

namespace Delivery

/-- A new buffer. -/
def start (timeBase duration : BitVec 32) : Delivery where
  buffer := (JitterBuffer.new.setBufferDuration duration).setTimeBase timeBase
  given := []
  earlier := []

/-- The packets given out, by stretches between two resets. -/
def stretches (d : Delivery) : List (List ValidBlock) := d.given :: d.earlier

/-- `SetRTPPacket` starts the buffer over with the packet. -/
def startsOver (d : Delivery) (b : ValidBlock) : Bool :=
  d.buffer.timeBase != 0 && d.buffer.state == .sending && d.buffer.timeJump b

/-- The stretch ends with a reset. -/
def endStretch (d : Delivery) (buffer : JitterBuffer) : Delivery :=
  { buffer := buffer, given := [], earlier := d.given :: d.earlier }

/-- What a call of `GetRTPPacket` comes to, once the packet is taken. -/
def giveOut (d : Delivery) (r : Option ValidBlock × JitterBuffer) : Delivery :=
  let d' := { d with buffer := r.2, given := r.1.toList ++ d.given }
  if r.2.overfull then d'.endStretch r.2.reset else d'

def step (d : Delivery) : JitterCall → Except Fault Delivery
  | .set b => (d.buffer.setRTPPacket b).map fun j =>
      if d.startsOver b then d.endStretch j else { d with buffer := j }
  | .get rule stray => (d.buffer.send rule stray).map d.giveOut
  | .reset => .ok (d.endStretch d.buffer.reset)

def run (d : Delivery) (calls : List JitterCall) : Except Fault Delivery := calls.foldlM step d

/-- The buffer of a run is the one `GetRTPPacket` leaves. -/
theorem step_get_buffer (d : Delivery) (rule : TopRule) (stray : Seq) :
    (d.step (.get rule stray)).map buffer = (d.buffer.getRTPPacket rule stray).map Prod.snd := by
  simp only [step, JitterBuffer.getRTPPacket]
  cases d.buffer.send rule stray with
  | error e => rfl
  | ok r =>
    simp only [Except.map, giveOut, endStretch]
    split <;> rfl

end Delivery

/-- The packets put in. -/
def putIn : List JitterCall → List ValidBlock
  | [] => []
  | .set b :: calls => b :: putIn calls
  | _ :: calls => putIn calls

/-! ## The conditions on a call -/

namespace Delivery

/-- The numbers that are live when a packet is put in: its own, those in the queue and the last one
given out. -/
def live (d : Delivery) (b : ValidBlock) : List Seq :=
  b.seq :: (d.given.head?.toList ++ d.buffer.queue).map ValidBlock.seq

/-- A packet that does not start the buffer over keeps the live numbers within half a turn. -/
def InHalf (d : Delivery) : JitterCall → Prop
  | .set b => d.startsOver b = false → HalfRange (d.live b)
  | _ => True

/-- While number 0 is the last one given out, a packet that does not start the buffer over is not
older. -/
def ZeroGuarded (d : Delivery) : JitterCall → Prop
  | .set b => d.startsOver b = false →
      ∀ x ∈ d.given.head?, x.seq = 0 → jitterIsNewerSeq x.seq b.seq = false
  | _ => True

/-! ## The invariant -/

/-- The numbers increase, the latest packet first. -/
def Increasing (given : List ValidBlock) : Prop :=
  given.IsChain fun later b => jitterIsNewerSeq later.seq b.seq = true

/-- A buffer in order. -/
structure Ordered (timeBase : BitVec 32) (d : Delivery) : Prop where
  timeBase_eq : d.buffer.timeBase = timeBase
  idle : d.buffer.state = .init → d.buffer.queue = [] ∧ d.given = []
  half : HalfRange (d.buffer.queue.map ValidBlock.seq)
  /-- nothing in the queue is older than the packet given out last -/
  behind : ∀ x, d.given.head? = some x →
    d.buffer.lastOutBlock.seq = x.seq ∧ ∀ q ∈ d.buffer.queue, ahead x.seq q.seq < 2 ^ 15
  increasing : ∀ g ∈ d.stretches, Increasing g

end Delivery

/-- A part of the numbers is within half a turn as well. -/
theorem HalfRange.subset {l l' : List Seq} (h : HalfRange l) (hsub : ∀ s ∈ l', s ∈ l) :
    HalfRange l' := by
  obtain ⟨base, hbase⟩ := h
  exact ⟨base, fun s hs => hbase s (hsub s hs)⟩

/-- Of two live numbers, the one that is not older is ahead of the other. -/
theorem HalfRange.ahead_lt {l : List Seq} (h : HalfRange l) {a b : Seq} (ha : a ∈ l) (hb : b ∈ l)
    (hab : jitterIsNewerSeq a b = false) : ahead a b < 2 ^ 15 := by
  obtain ⟨base, hbase⟩ := h
  exact ahead_lt_of_not_newer (hbase a ha) (hbase b hb) hab

/-! ## What the calls do to the queue -/

namespace JitterBuffer

/-- A time base of a thousand ticks in a second or more can be divided by. -/
theorem div_thousand_ne_zero {timeBase : BitVec 32} (h : 1000 ≤ timeBase.toNat) :
    timeBase / 1000 ≠ 0 := by
  intro h0
  have hquot := congrArg BitVec.toNat h0
  rw [BitVec.toNat_udiv] at hquot
  have hpos : 0 < timeBase.toNat / 1000 := Nat.div_pos h (by decide)
  exact absurd hquot (Nat.ne_of_gt hpos)

theorem noteLost_keeps (j : JitterBuffer) (b : ValidBlock) :
    (j.noteLost b).timeBase = j.timeBase ∧ (j.noteLost b).state = j.state ∧
      (j.noteLost b).lastOutBlock = j.lastOutBlock ∧ (j.noteLost b).queue = j.queue := by
  unfold noteLost
  split
  · exact ⟨rfl, rfl, rfl, rfl⟩
  · exact ⟨rfl, rfl, rfl, rfl⟩

theorem dropLate_keeps {j : JitterBuffer} (b : ValidBlock) (hbase : j.timeBase / 1000 ≠ 0) :
    ∃ j', j.dropLate b = .ok j' ∧ j'.timeBase = j.timeBase ∧ j'.state = j.state ∧
      j'.lastOutBlock = j.lastOutBlock ∧ j'.queue = j.queue := by
  simp only [dropLate, if_neg hbase]
  split
  · exact ⟨_, rfl, rfl, rfl, rfl, rfl⟩
  · exact ⟨_, rfl, rfl, rfl, rfl, rfl⟩

theorem pushNext_queues (j : JitterBuffer) (b : ValidBlock) :
    (j.pushNext b).timeBase = j.timeBase ∧ (j.pushNext b).state = j.state ∧
      (j.pushNext b).lastOutBlock = j.lastOutBlock ∧ (j.pushNext b).queue = j.queue ++ [b] := by
  unfold pushNext
  dsimp only
  split
  · exact ⟨rfl, rfl, rfl, rfl⟩
  · split
    · split
      · exact ⟨rfl, rfl, rfl, rfl⟩
      · exact ⟨rfl, rfl, rfl, rfl⟩
    · exact ⟨rfl, rfl, rfl, rfl⟩

/-- `SetRTPPacket` behind the test of the timestamp either drops the packet or appends it; it
appends a packet only if that is not late. -/
theorem setNext_spec {j : JitterBuffer} (b : ValidBlock) (hbase : j.timeBase / 1000 ≠ 0) :
    ∃ j', j.setNext b = .ok j' ∧ j'.timeBase = j.timeBase ∧ j'.state = j.state ∧
      j'.lastOutBlock = j.lastOutBlock ∧
      (j'.queue = j.queue ∨ j'.queue = j.queue ++ [b] ∧ j.tooLate b = false) := by
  obtain ⟨htb, hst, hout, hq⟩ := j.noteLost_keeps b
  have hlate : (j.noteLost b).tooLate b = j.tooLate b := by
    simp only [tooLate, hout]
  unfold setNext
  simp only [hlate]
  generalize j.noteLost b = n at htb hst hout hq ⊢
  rw [← htb] at hbase
  cases hl : j.tooLate b with
  | true =>
    obtain ⟨j', hj, htb', hst', hout', hq'⟩ := dropLate_keeps b hbase
    rw [if_pos rfl]
    exact ⟨j', hj, htb'.trans htb, hst'.trans hst, hout'.trans hout, .inl (hq'.trans hq)⟩
  | false =>
    rw [if_neg (by decide)]
    split
    · obtain ⟨htb', hst', hout', hq'⟩ := n.pushNext_queues b
      refine ⟨_, rfl, htb'.trans htb, hst'.trans hst, hout'.trans hout, .inr ⟨?_, rfl⟩⟩
      exact hq'.trans (by rw [hq])
    · refine ⟨_, rfl, htb, hst, hout, .inr ⟨?_, rfl⟩⟩
      show n.queue ++ [b] = j.queue ++ [b]
      rw [hq]

/-- The first packet of a buffer is dropped if it is late and queued otherwise. -/
theorem setFirst_spec (j : JitterBuffer) (b : ValidBlock) :
    (j.setFirst b).timeBase = j.timeBase ∧ (j.setFirst b).lastOutBlock = j.lastOutBlock ∧
      (j.setFirst b = j ∨
        (j.setFirst b).queue = j.queue ++ [b] ∧ (j.setFirst b).state = .sending) := by
  unfold setFirst
  split
  · exact ⟨rfl, rfl, .inl rfl⟩
  · exact ⟨rfl, rfl, .inr ⟨rfl, rfl⟩⟩

/-- What is popped: the rest of the queue with it is part of the queue, its number is another than
the last one, and nothing older stays behind. -/
theorem popNew_spec (rule : TopRule) (out : Seq) (fuel : Nat) (q : List ValidBlock) :
    (∀ b, (popNew rule out fuel q).1.toList.count b + (popNew rule out fuel q).2.count b ≤
        q.count b) ∧
      (∀ b ∈ (popNew rule out fuel q).2, b ∈ q) ∧
      ∀ b, (popNew rule out fuel q).1 = some b → b ∈ q ∧ b.seq ≠ out ∧
        (HalfRange (q.map ValidBlock.seq) →
          ∀ c ∈ (popNew rule out fuel q).2, jitterIsNewerSeq b.seq c.seq = false) := by
  induction fuel generalizing q with
  | zero => exact ⟨fun b => by simp [popNew], fun b h => h, fun b h => by cases h⟩
  | succ fuel ih =>
    unfold popNew
    cases htop : rule.top q with
    | none => exact ⟨fun b => by simp, fun b h => h, fun b h => by cases h⟩
    | some t =>
      have hmem : t ∈ q := rule.mem_of_top htop
      have herase : ∀ c ∈ q.erase t, c ∈ q := fun c hc => List.mem_of_mem_erase hc
      dsimp only
      split
      · obtain ⟨hcount, hsub, hsome⟩ := ih (q.erase t)
        refine ⟨fun b => ?_, fun b hb => herase b (hsub b hb), fun b hb => ?_⟩
        · refine Nat.le_trans (hcount b) ?_
          exact List.erase_sublist.count_le b
        · obtain ⟨hbq, hne, hold⟩ := hsome b hb
          refine ⟨herase b hbq, hne, fun hhalf => hold (hhalf.subset ?_)⟩
          intro s hs
          obtain ⟨c, hc, rfl⟩ := List.mem_map.mp hs
          exact List.mem_map_of_mem (herase c hc)
      · rename_i hne
        refine ⟨fun b => ?_, herase, fun b hb => ?_⟩
        · show [t].count b + (q.erase t).count b ≤ q.count b
          by_cases htb : t = b
          · subst htb
            have hpos : 0 < q.count t := List.count_pos_iff.mpr hmem
            rw [List.count_erase_self, List.count_singleton_self]
            omega
          · rw [List.count_erase_of_ne (fun h => htb h.symm),
              List.count_eq_zero_of_not_mem (by simpa using fun h => htb h.symm)]
            omega
        · cases hb
          exact ⟨hmem, hne, fun hhalf c hc => rule.oldest hhalf htop c (herase c hc)⟩

/-- The part of `GetRTPPacket` behind the popping leaves the queue and the packet given out last. -/
theorem forget_advance (j : JitterBuffer) (stray : Seq) :
    (j.advance stray).forget.queue = j.queue ∧
      (j.advance stray).forget.lastOutBlock = j.lastOutBlock ∧
      (j.advance stray).forget.timeBase = j.timeBase ∧
      (j.advance stray).forget.state = j.state := by
  unfold forget advance
  split
  · split
    · exact ⟨rfl, rfl, rfl, rfl⟩
    · exact ⟨rfl, rfl, rfl, rfl⟩
  · exact ⟨rfl, rfl, rfl, rfl⟩

/-- What `GetRTPPacket` did before the test of the size, giving out `r`. -/
structure Sent (j : JitterBuffer) (r : Option ValidBlock) (j' : JitterBuffer) : Prop where
  timeBase : j'.timeBase = j.timeBase
  state : j'.state = j.state
  count : ∀ b, r.toList.count b + j'.queue.count b ≤ j.queue.count b
  queue : ∀ b ∈ j'.queue, b ∈ j.queue
  nothing : r = none → j'.lastOutBlock = j.lastOutBlock
  given : ∀ b, r = some b → b ∈ j.queue ∧ b.seq ≠ j.lastOutBlock.seq ∧
    j'.lastOutBlock.seq = b.seq ∧
    (HalfRange (j.queue.map ValidBlock.seq) →
      ∀ c ∈ j'.queue, jitterIsNewerSeq b.seq c.seq = false)

/-- Nothing but the lost set and its cursor changes. -/
theorem Sent.idle {j j' : JitterBuffer} (htb : j'.timeBase = j.timeBase)
    (hst : j'.state = j.state) (hout : j'.lastOutBlock = j.lastOutBlock)
    (hq : j'.queue = j.queue) : Sent j none j' where
  timeBase := htb
  state := hst
  count := fun b => by simp [hq]
  queue := fun b hb => hq ▸ hb
  nothing := fun _ => hout
  given := fun b hb => by cases hb

theorem takeOut_spec {j : JitterBuffer} (rule : TopRule) (stray : Seq)
    (hbase : j.timeBase / 1000 ≠ 0) :
    ∃ r j', j.takeOut rule stray = .ok (r, j') ∧ Sent j r j'.forget := by
  unfold takeOut
  cases htop : rule.top j.queue with
  | none => exact ⟨_, _, rfl, .idle rfl rfl rfl rfl⟩
  | some top =>
    have hkeeps : ∃ k, j.keeps top = .ok k := by
      unfold keeps
      rw [if_neg hbase]
      split
      · exact ⟨_, rfl⟩
      · exact ⟨_, rfl⟩
    obtain ⟨k, hk⟩ := hkeeps
    dsimp only
    rw [hk]
    cases k with
    | true => exact ⟨_, _, rfl, .idle rfl rfl rfl rfl⟩
    | false =>
      dsimp only
      refine ⟨_, _, rfl, ?_⟩
      obtain ⟨hcount, hsub, hsome⟩ :=
        popNew_spec rule j.lastOutBlock.seq j.queue.length j.queue
      generalize popNew rule j.lastOutBlock.seq j.queue.length j.queue = r at hcount hsub hsome ⊢
      obtain ⟨r, q⟩ := r
      obtain ⟨hq, hout, htb, hst⟩ :=
        forget_advance (({ j with queue := q } : JitterBuffer).noteOut r) stray
      cases r with
      | none =>
        exact { timeBase := htb
                state := hst
                count := fun b => hq ▸ hcount b
                queue := fun b hb => by
                  rw [hq] at hb
                  exact hsub b hb
                nothing := fun _ => hout
                given := fun b hb => by cases hb }
      | some t =>
        refine { timeBase := htb
                 state := hst
                 count := fun b => hq ▸ hcount b
                 queue := fun b hb => by
                   rw [hq] at hb
                   exact hsub b hb
                 nothing := fun h => by cases h
                 given := fun b hb => ?_ }
        cases hb
        obtain ⟨hmem, hne, hold⟩ := hsome t rfl
        refine ⟨hmem, hne, ?_, fun hhalf c hc => ?_⟩
        · rw [hout]
          rfl
        · rw [hq] at hc
          exact hold hhalf c hc

theorem send_spec {j : JitterBuffer} (rule : TopRule) (stray : Seq)
    (hbase : j.timeBase / 1000 ≠ 0) :
    ∃ r j', j.send rule stray = .ok (r, j') ∧ Sent j r j' := by
  unfold send
  cases j.state with
  | init => exact ⟨_, _, rfl, .idle rfl rfl rfl rfl⟩
  | sending =>
    obtain ⟨r, j', hr, hsent⟩ := takeOut_spec rule stray hbase
    rw [hr]
    exact ⟨r, j'.forget, rfl, hsent⟩

end JitterBuffer

/-! ## One call -/

namespace Delivery

/-- How often a packet was given out or is still queued. -/
def held (d : Delivery) (b : ValidBlock) : Nat :=
  d.stretches.flatten.count b + d.buffer.queue.count b

variable {timeBase : BitVec 32} {d : Delivery}

/-- A reset ends the stretch and empties the queue. -/
theorem Ordered.endStretch (h : d.Ordered timeBase) {j : JitterBuffer}
    (htb : j.timeBase = timeBase) (hidle : j.state = .init → j.queue = [])
    (hhalf : HalfRange (j.queue.map ValidBlock.seq)) : (d.endStretch j).Ordered timeBase where
  timeBase_eq := htb
  idle := fun hst => ⟨hidle hst, rfl⟩
  half := hhalf
  behind := fun x hx => by cases hx
  increasing := fun g hg => by
    rcases List.mem_cons.mp hg with rfl | hg
    · exact List.IsChain.nil
    · exact h.increasing g hg

theorem endStretch_held (d : Delivery) (j : JitterBuffer) (b : ValidBlock) :
    (d.endStretch j).held b = d.stretches.flatten.count b + j.queue.count b := rfl

/-- No number is on both sides of half a turn when there is at most one. -/
theorem halfRange_one (s : Seq) : HalfRange [s] :=
  ⟨s, fun t ht => by
    rw [List.mem_singleton.mp ht, Serial.ahead_self]
    decide⟩

/-- The buffer that starts over with a packet holds that packet. -/
theorem Ordered.startOver (h : d.Ordered timeBase) (b : ValidBlock) :
    let j : JitterBuffer :=
      ({ d.buffer.reset with lastOutBlock := .reset } : JitterBuffer).setFirst b
    (d.endStretch j).Ordered timeBase ∧
      ∀ c, (d.endStretch j).held c ≤ d.held c + [b].count c := by
  intro j
  have hj : j.queue = [b] ∧ j.state = .sending ∧ j.timeBase = d.buffer.timeBase := by
    have hlate : JitterBuffer.tooLate { d.buffer.reset with lastOutBlock := .reset } b = false := rfl
    simp only [j, JitterBuffer.setFirst, hlate, Bool.false_eq_true, if_false]
    exact ⟨rfl, trivial, rfl⟩
  obtain ⟨hq, hst, htb⟩ := hj
  refine ⟨h.endStretch (htb.trans h.timeBase_eq) (fun hinit => ?_) ?_, fun c => ?_⟩
  · rw [hst] at hinit
    cases hinit
  · rw [hq]
    exact halfRange_one b.seq
  · rw [endStretch_held, hq]
    unfold held
    omega

/-- A packet that is not late is not older than the last one given out. -/
theorem Ordered.ahead_of_accepted (h : d.Ordered timeBase) {b : ValidBlock}
    (hhalf : HalfRange (d.live b))
    (hzero : ∀ x ∈ d.given.head?, x.seq = 0 → jitterIsNewerSeq x.seq b.seq = false)
    (hlate : d.buffer.tooLate b = false)
    {x : ValidBlock} (hx : d.given.head? = some x) : ahead x.seq b.seq < 2 ^ 15 := by
  have hnot : jitterIsNewerSeq x.seq b.seq = false := by
    by_cases h0 : x.seq = 0
    · exact hzero x hx h0
    · have hpos : decide (0 < d.buffer.lastOutBlock.seq) = true := by
        rw [(h.behind x hx).1, decide_eq_true_eq]
        exact BitVec.lt_def.mpr (Nat.pos_of_ne_zero fun h => h0 (BitVec.eq_of_toNat_eq h))
      unfold JitterBuffer.tooLate at hlate
      rw [hpos, Bool.true_and, (h.behind x hx).1] at hlate
      exact hlate
  refine hhalf.ahead_lt ?_ ?_ hnot
  · simp [live, hx]
  · exact List.mem_cons_self

/-- A packet that does not start the buffer over. -/
theorem Ordered.setNext (h : d.Ordered timeBase) (hbase : timeBase / 1000 ≠ 0) {b : ValidBlock}
    (hhalf : HalfRange (d.live b))
    (hzero : ∀ x ∈ d.given.head?, x.seq = 0 → jitterIsNewerSeq x.seq b.seq = false)
    (hst : d.buffer.state = .sending) :
    ∃ j, d.buffer.setNext b = .ok j ∧ ({ d with buffer := j } : Delivery).Ordered timeBase ∧
      ∀ c, ({ d with buffer := j } : Delivery).held c ≤ d.held c + [b].count c := by
  rw [← h.timeBase_eq] at hbase
  obtain ⟨j, hj, htb, hst', hout, hq⟩ := JitterBuffer.setNext_spec b hbase
  have hidle : j.state = .init → j.queue = [] ∧ d.given = [] := by
    intro hinit
    rw [hst', hst] at hinit
    cases hinit
  refine ⟨j, hj, ?_, fun c => ?_⟩
  · rcases hq with hq | ⟨hq, hlate⟩
    · exact { timeBase_eq := htb.trans h.timeBase_eq
              idle := hidle
              half := hq ▸ h.half
              behind := fun x hx => by
                show j.lastOutBlock.seq = x.seq ∧ ∀ q ∈ j.queue, ahead x.seq q.seq < 2 ^ 15
                rw [hout, hq]
                exact h.behind x hx
              increasing := h.increasing }
    · refine { timeBase_eq := htb.trans h.timeBase_eq
               idle := hidle
               half := hhalf.subset ?_
               behind := fun x hx => ?_
               increasing := h.increasing }
      · show ∀ s ∈ j.queue.map ValidBlock.seq, s ∈ d.live b
        rw [hq]
        simp only [live, List.map_append, List.map_cons, List.map_nil, List.mem_append,
          List.mem_cons, List.not_mem_nil, or_false]
        rintro s (hs | hs)
        · exact .inr (.inr hs)
        · exact .inl hs
      · show j.lastOutBlock.seq = x.seq ∧ ∀ q ∈ j.queue, ahead x.seq q.seq < 2 ^ 15
        rw [hout, hq]
        refine ⟨(h.behind x hx).1, fun q hmem => ?_⟩
        rcases List.mem_append.mp hmem with hmem | hmem
        · exact (h.behind x hx).2 q hmem
        · rw [List.mem_singleton.mp hmem]
          exact h.ahead_of_accepted hhalf hzero hlate hx
  · show d.stretches.flatten.count c + j.queue.count c ≤ d.held c + [b].count c
    unfold held
    rcases hq with hq | ⟨hq, -⟩
    · rw [hq]
      omega
    · rw [hq, List.count_append]
      omega

/-- What `GetRTPPacket` gives out is newer than what it gave out before, and nothing older stays. -/
theorem Ordered.sent (h : d.Ordered timeBase) {r : Option ValidBlock} {j : JitterBuffer}
    (hs : JitterBuffer.Sent d.buffer r j) :
    ({ d with buffer := j, given := r.toList ++ d.given } : Delivery).Ordered timeBase := by
  have hidle : j.state = .init → j.queue = [] ∧ r.toList ++ d.given = [] := by
    intro hinit
    obtain ⟨hq, hgiven⟩ := h.idle (hs.state.symm.trans hinit)
    refine ⟨List.eq_nil_iff_forall_not_mem.mpr fun b hb => ?_, ?_⟩
    · have hmem := hs.queue b hb
      rw [hq] at hmem
      cases hmem
    · cases r with
      | none => exact hgiven
      | some b =>
        have hmem := (hs.given b rfl).1
        rw [hq] at hmem
        cases hmem
  have hhalf : HalfRange (j.queue.map ValidBlock.seq) := h.half.subset fun s hmem => by
    obtain ⟨b, hb, rfl⟩ := List.mem_map.mp hmem
    exact List.mem_map_of_mem (hs.queue b hb)
  cases r with
  | none =>
    refine { timeBase_eq := hs.timeBase.trans h.timeBase_eq, idle := hidle, half := hhalf
             behind := fun x hx => ?_, increasing := h.increasing }
    show j.lastOutBlock.seq = x.seq ∧ ∀ q ∈ j.queue, ahead x.seq q.seq < 2 ^ 15
    rw [hs.nothing rfl]
    exact ⟨(h.behind x hx).1, fun q hq => (h.behind x hx).2 q (hs.queue q hq)⟩
  | some b =>
    obtain ⟨hmem, hne, hout, hold⟩ := hs.given b rfl
    refine { timeBase_eq := hs.timeBase.trans h.timeBase_eq, idle := hidle, half := hhalf
             behind := fun x hx => ?_, increasing := fun g hg => ?_ }
    · cases hx
      refine ⟨hout, fun q hq => ?_⟩
      exact h.half.ahead_lt (List.mem_map_of_mem hmem) (List.mem_map_of_mem (hs.queue q hq))
        (hold h.half q hq)
    · rcases List.mem_cons.mp hg with rfl | hg
      · show Increasing (b :: d.given)
        refine List.isChain_cons.mpr ⟨fun x hx => ?_, h.increasing _ List.mem_cons_self⟩
        obtain ⟨hlast, hahead⟩ := h.behind x hx
        rw [hlast] at hne
        exact newer_iff.mpr ⟨hne, hahead b hmem⟩
      · exact h.increasing g (List.mem_cons_of_mem _ hg)

theorem Ordered.giveOut (h : d.Ordered timeBase) {r : Option ValidBlock} {j : JitterBuffer}
    (hs : JitterBuffer.Sent d.buffer r j) :
    (d.giveOut (r, j)).Ordered timeBase ∧ ∀ c, (d.giveOut (r, j)).held c ≤ d.held c := by
  have hsent := h.sent hs
  have hheld : ∀ c, ({ d with buffer := j, given := r.toList ++ d.given } : Delivery).held c ≤
      d.held c := by
    intro c
    have hcount := hs.count c
    simp only [held, stretches, List.flatten_cons, List.count_append]
    omega
  unfold Delivery.giveOut
  dsimp only
  split
  · refine ⟨hsent.endStretch (hs.timeBase.trans h.timeBase_eq) (fun _ => rfl) ⟨0, ?_⟩, fun c => ?_⟩
    · intro s hmem
      cases hmem
    · refine Nat.le_trans ?_ (hheld c)
      exact Nat.add_le_add_left (Nat.zero_le _) _
  · exact ⟨hsent, hheld⟩

/-- The first packet of a buffer in order. -/
theorem Ordered.setFirst (h : d.Ordered timeBase) {b : ValidBlock} (hst : d.buffer.state = .init) :
    ({ d with buffer := d.buffer.setFirst b } : Delivery).Ordered timeBase ∧
      ∀ c, ({ d with buffer := d.buffer.setFirst b } : Delivery).held c ≤ d.held c + [b].count c := by
  obtain ⟨hq, hgiven⟩ := h.idle hst
  obtain ⟨htb, -, hfirst⟩ := d.buffer.setFirst_spec b
  refine ⟨?_, fun c => ?_⟩
  · rcases hfirst with hfirst | ⟨hfq, hfst⟩
    · rw [hfirst]
      exact h
    · refine { timeBase_eq := htb.trans h.timeBase_eq, idle := fun hinit => ?_, half := ?_
               behind := fun x hx => ?_, increasing := h.increasing }
      · rw [hfst] at hinit
        cases hinit
      · rw [hfq, hq]
        exact halfRange_one b.seq
      · rw [hgiven] at hx
        cases hx
  · show d.stretches.flatten.count c + (d.buffer.setFirst b).queue.count c ≤ d.held c + [b].count c
    unfold held
    rcases hfirst with hfirst | ⟨hfq, -⟩
    · rw [hfirst]
      omega
    · rw [hfq, List.count_append]
      omega

/-- One call on a buffer in order ends and keeps the order; what it adds is what is put in. -/
theorem Ordered.step (h : d.Ordered timeBase) (hbase : timeBase / 1000 ≠ 0) {c : JitterCall}
    (hhalf : d.InHalf c) (hzero : d.ZeroGuarded c) :
    ∃ d', d.step c = .ok d' ∧ d'.Ordered timeBase ∧
      ∀ b, d'.held b ≤ d.held b + (putIn [c]).count b := by
  have htb0 : d.buffer.timeBase ≠ 0 := by
    rw [h.timeBase_eq]
    intro h0
    rw [h0] at hbase
    exact hbase rfl
  cases c with
  | set b =>
    simp only [Delivery.step, JitterBuffer.setRTPPacket, if_neg htb0]
    cases hst : d.buffer.state with
    | init =>
      have hno : d.startsOver b = false := by
        simp [startsOver, hst]
      obtain ⟨hord, hheld⟩ := h.setFirst (b := b) hst
      simp only [Except.map, hno, Bool.false_eq_true, if_false]
      exact ⟨_, rfl, hord, hheld⟩
    | sending =>
      cases hjump : d.buffer.timeJump b with
      | true =>
        have hover : d.startsOver b = true := by
          rw [startsOver, hst, hjump, bne_iff_ne.mpr htb0]
          rfl
        obtain ⟨hord, hheld⟩ := h.startOver b
        simp only [Except.map, hover, if_true]
        exact ⟨_, rfl, hord, hheld⟩
      | false =>
        have hno : d.startsOver b = false := by
          simp [startsOver, hjump]
        obtain ⟨j, hj, hord, hheld⟩ := h.setNext hbase (hhalf hno) (hzero hno) hst
        simp only [Bool.false_eq_true, if_false, hj, Except.map, hno]
        exact ⟨_, rfl, hord, hheld⟩
  | get rule stray =>
    obtain ⟨r, j, hr, hs⟩ := JitterBuffer.send_spec rule stray (h.timeBase_eq ▸ hbase)
    obtain ⟨hord, hheld⟩ := h.giveOut hs
    simp only [Delivery.step, hr, Except.map]
    exact ⟨_, rfl, hord, hheld⟩
  | reset =>
    refine ⟨_, rfl, h.endStretch h.timeBase_eq (fun _ => rfl) ⟨0, ?_⟩, fun b => ?_⟩
    · intro s hmem
      cases hmem
    · exact Nat.add_le_add (Nat.add_le_add_left (Nat.zero_le _) _) (Nat.zero_le _)

/-! ## Whole runs -/

theorem putIn_cons (c : JitterCall) (calls : List JitterCall) :
    putIn (c :: calls) = putIn [c] ++ putIn calls := by
  cases c <;> rfl

/-- A run under the two conditions ends in order. -/
theorem Ordered.run (hbase : timeBase / 1000 ≠ 0) (calls : List JitterCall) :
    ∀ {d : Delivery}, d.Ordered timeBase → Along Delivery.step InHalf d calls →
      Along Delivery.step ZeroGuarded d calls →
      ∃ d', d.run calls = .ok d' ∧ d'.Ordered timeBase ∧
        ∀ b, d'.held b ≤ d.held b + (putIn calls).count b := by
  induction calls with
  | nil => exact fun h _ _ => ⟨_, rfl, h, fun b => Nat.le_add_right _ _⟩
  | cons c calls ih =>
    intro d h hhalf hzero
    obtain ⟨d₁, hstep, hord, hheld⟩ := h.step hbase hhalf.1 hzero.1
    obtain ⟨d₂, hrun, hord₂, hheld₂⟩ := ih hord (hhalf.2 d₁ hstep) (hzero.2 d₁ hstep)
    refine ⟨d₂, ?_, hord₂, fun b => ?_⟩
    · unfold Delivery.run at hrun ⊢
      rw [List.foldlM_cons, hstep, ok_bind]
      exact hrun
    · have h₁ := hheld b
      have h₂ := hheld₂ b
      rw [putIn_cons, List.count_append]
      omega

theorem start_ordered (timeBase duration : BitVec 32) :
    (start timeBase duration).Ordered timeBase where
  timeBase_eq := rfl
  idle := fun _ => ⟨rfl, rfl⟩
  half := ⟨0, fun s hs => by cases hs⟩
  behind := fun x hx => by cases hx
  increasing := fun g hg => by
    rw [List.mem_singleton.mp hg]
    exact List.IsChain.nil

end Delivery

/-- Between two resets a jitter buffer gives the packets out in increasing order, each of them put
in and each as often as it was put in at most, in every run in which no packet older than number 0
is put in while number 0 is the last one given out. -/
theorem jitter_order (timeBase duration : BitVec 32) (hbase : 1000 ≤ timeBase.toNat)
    (calls : List JitterCall)
    (hhalf : Along Delivery.step Delivery.InHalf (Delivery.start timeBase duration) calls)
    (hzero : Along Delivery.step Delivery.ZeroGuarded (Delivery.start timeBase duration) calls) :
    ∃ d, (Delivery.start timeBase duration).run calls = .ok d ∧
      (∀ g ∈ d.stretches, Delivery.Increasing g) ∧
      ∀ b, d.stretches.flatten.count b ≤ (putIn calls).count b := by
  have hquot : timeBase / 1000 ≠ 0 := JitterBuffer.div_thousand_ne_zero hbase
  obtain ⟨d, hrun, hord, hheld⟩ :=
    Delivery.Ordered.run hquot calls (Delivery.start_ordered timeBase duration) hhalf hzero
  refine ⟨d, hrun, hord.increasing, fun b => ?_⟩
  refine Nat.le_trans (Nat.le_add_right _ _) (Nat.le_trans (hheld b) ?_)
  exact Nat.le_of_eq (Nat.zero_add _)

/-! ## Two runs across the wrap -/

namespace Delivery

/-- The live numbers lie within the half turn from `base` on. -/
def inHalfFrom (base : Seq) (d : Delivery) : JitterCall → Bool
  | .set b => (d.live b).all fun s => decide (ahead base s < 2 ^ 15)
  | _ => true

theorem inHalf_of_from (base : Seq) (d : Delivery) (c : JitterCall)
    (h : d.inHalfFrom base c = true) : d.InHalf c := by
  cases c with
  | set b => exact fun _ => ⟨base, fun s hs => of_decide_eq_true (List.all_eq_true.mp h s hs)⟩
  | get rule stray => trivial
  | reset => trivial

/-- `ZeroGuarded` of every packet, whether it starts the buffer over or not. -/
def zeroGuards (d : Delivery) : JitterCall → Bool
  | .set b => d.given.head?.all fun x => x.seq != 0 || !jitterIsNewerSeq x.seq b.seq
  | _ => true

theorem zeroGuarded_of_guards (d : Delivery) (c : JitterCall) (h : d.zeroGuards c = true) :
    d.ZeroGuarded c := by
  cases c with
  | set b =>
    intro _ x hx hzero
    have hall : (x.seq != 0 || !jitterIsNewerSeq x.seq b.seq) = true := by
      have h' : d.given.head?.all (fun x => x.seq != 0 || !jitterIsNewerSeq x.seq b.seq) = true := h
      rw [Option.mem_def.mp hx] at h'
      exact h'
    rw [hzero] at hall ⊢
    simpa using hall
  | get rule stray => trivial
  | reset => trivial

end Delivery

/-- A video packet with a sequence number and a timestamp. -/
def jitterPacket (seq : Seq) (timestamp : BitVec 32) : ValidBlock :=
  .holding { Rtp.zero with seq := seq, timestamp := timestamp, data := [] }

/-- Number 65535 is given out, 1 comes before 0, and all three are given out. -/
def acrossWrap : List JitterCall :=
  [.set (jitterPacket 65535 0), .get .firstOldest 0, .set (jitterPacket 1 0),
    .set (jitterPacket 0 0), .get .firstOldest 0, .get .firstOldest 0]

theorem jitter_order_across_wrap :
    1000 ≤ (90000 : BitVec 32).toNat ∧
    Along Delivery.step Delivery.InHalf (Delivery.start 90000 100) acrossWrap ∧
    Along Delivery.step Delivery.ZeroGuarded (Delivery.start 90000 100) acrossWrap ∧
    ∃ d, (Delivery.start 90000 100).run acrossWrap = .ok d ∧
      (∀ g ∈ d.stretches, Delivery.Increasing g) ∧
      ∀ b, d.stretches.flatten.count b ≤ (putIn acrossWrap).count b :=
  have hhalf : Along Delivery.step Delivery.InHalf (Delivery.start 90000 100) acrossWrap :=
    Along.of_check (Delivery.inHalf_of_from 65535) acrossWrap (by decide +kernel)
  have hzero : Along Delivery.step Delivery.ZeroGuarded (Delivery.start 90000 100) acrossWrap :=
    Along.of_check Delivery.zeroGuarded_of_guards acrossWrap (by decide +kernel)
  ⟨by decide, hhalf, hzero, jitter_order 90000 100 (by decide) acrossWrap hhalf hzero⟩

/-- Numbers 65535 and 0 are given out, and then the late packet 65534 comes. -/
def lateAfterZero : List JitterCall :=
  [.set (jitterPacket 65535 0), .get .firstOldest 0, .set (jitterPacket 0 0), .get .firstOldest 0,
    .set (jitterPacket 65534 0), .get .firstOldest 0]

/-- The late packet is given out behind number 0. -/
theorem late_packet_after_zero :
    ¬ ∀ timeBase duration : BitVec 32, 1000 ≤ timeBase.toNat → ∀ calls,
      Along Delivery.step Delivery.InHalf (Delivery.start timeBase duration) calls →
      ∀ d, (Delivery.start timeBase duration).run calls = .ok d →
        ∀ g ∈ d.stretches, Delivery.Increasing g := by
  intro hclaim
  have hhalf : Along Delivery.step Delivery.InHalf (Delivery.start 90000 0) lateAfterZero :=
    Along.of_check (Delivery.inHalf_of_from 65534) lateAfterZero (by decide +kernel)
  have hgiven : ((Delivery.start 90000 0).run lateAfterZero).toOption.any
      (fun d => d.given.map ValidBlock.seq == [65534, 0, 65535]) = true := by
    decide +kernel
  cases hrun : (Delivery.start 90000 0).run lateAfterZero with
  | error e =>
    rw [hrun] at hgiven
    cases hgiven
  | ok d =>
    rw [hrun] at hgiven
    have hseqs : d.given.map ValidBlock.seq = [65534, 0, 65535] := eq_of_beq hgiven
    have hinc := hclaim 90000 0 (by decide) lateAfterZero hhalf d hrun d.given List.mem_cons_self
    have hchain : (d.given.map ValidBlock.seq).IsChain
        (fun later s => jitterIsNewerSeq later s = true) :=
      (List.isChain_map ValidBlock.seq).mpr hinc
    rw [hseqs] at hchain
    have hnewer : jitterIsNewerSeq 65534 0 = true := (List.isChain_cons.mp hchain).1 0 rfl
    exact absurd hnewer (by decide)

end RtcMcu.MediaManager
