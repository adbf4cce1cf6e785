import Mathlib.Data.List.Induction
import RtcMcu.RtpTrans.RtpSession

/-!
# update_packet_lost_rate

`rtp_trans/rtp_sender_trans.cpp`: once a second the round trip time and the loss of the player's
sessions are smoothed, and from them the trans decides whether video is to be dropped. Dropping
begins with one bad value and ends when the network has been good for more than five seconds, which
`_network_recover_ts` measures; 0 says that nothing is measured.

The sessions are given by what they answer. Clock readings are the `uint64_t` of the code.
-/

namespace RtcMcu.RtpTrans

/-- What `get_video_session` or `get_audio_session` found, and what the session answers. -/
structure SessionSample where
  isLive : Bool
  rttMs : BitVec 32
  isPacketLostRateValid : Bool
  fracLostPacketCount : Byte
  deriving DecidableEq, Repr

/-- A call of `update_packet_lost_rate`: its argument, what `TimeInMilliseconds` gives during it, and
the two sessions. -/
structure UpdateCall where
  now : BitVec 64
  clock : BitVec 64
  videoSession : Option SessionSample
  audioSession : Option SessionSample
  deriving DecidableEq, Repr

/-- The fields of `RTPSendTrans` besides those of `RTPTrans`. -/
structure PacketLostRate where
  lastUpdatePacketLostRate : BitVec 64
  fracPacketLostRate : BitVec 32
  rttMs : BitVec 32
  dropVideo : Bool
  networkRecoverTs : BitVec 64
  deriving DecidableEq, Repr

namespace PacketLostRate

/-- `RTPSendTrans::RTPSendTrans`. -/
def new : PacketLostRate where
  lastUpdatePacketLostRate := 0
  fracPacketLostRate := 0
  rttMs := 0
  dropVideo := false
  networkRecoverTs := 0

/-- `(uint32_t)-1`: no session has given a value. -/
def noSample : BitVec 32 := -1

/-- One session gives `rtt` and `lost` where they are still missing. -/
def sampled (session : Option SessionSample) (rtt lost : BitVec 32) : BitVec 32 × BitVec 32 :=
  match session with
  | none => (rtt, lost)
  | some session =>
    if session.isLive then
      (if rtt = noSample then session.rttMs else rtt,
        if lost = noSample && session.isPacketLostRateValid then
          session.fracLostPacketCount.setWidth 32 else lost)
    else (rtt, lost)

/-- `rtt` and `lost`: from the video session, and what it does not have from the audio session. -/
def samples (call : UpdateCall) : BitVec 32 × BitVec 32 :=
  let (rtt, lost) := sampled call.videoSession noSample noSample
  if rtt = noSample ∨ lost = noSample then sampled call.audioSession rtt lost else (rtt, lost)

/-- The two values are smoothed. -/
def smooth (s : PacketLostRate) (rtt lost : BitVec 32) : PacketLostRate :=
  { s with
    rttMs := if rtt ≠ noSample then (s.rttMs + rtt) / 2 else s.rttMs
    fracPacketLostRate :=
      if lost ≠ noSample then (s.fracPacketLostRate + lost) / 2 else s.fracPacketLostRate }

/-- `_frac_packet_lost_rate * 100 / 255`, the smoothed loss in percent. -/
def lostPercent (s : PacketLostRate) : BitVec 32 := s.fracPacketLostRate * 100 / 255

/-- Video is dropped from here on. -/
def overLimit (s : PacketLostRate) : Bool := 40 < s.lostPercent || 800 < s.rttMs

/-- The network has not recovered. -/
def notRecovered (s : PacketLostRate) : Bool := 30 < s.lostPercent || 500 < s.rttMs

/-- The decision, with the smoothed values at hand. -/
def decideDrop (s : PacketLostRate) (clock : BitVec 64) : PacketLostRate :=
  if s.dropVideo then
    if s.notRecovered then { s with networkRecoverTs := 0 }
    else if s.networkRecoverTs = 0 then { s with networkRecoverTs := clock }
    else if 5000 < clock - s.networkRecoverTs then { s with dropVideo := false }
    else s
  else { s with dropVideo := s.overLimit, networkRecoverTs := 0 }

/-- More than a second has passed since the last evaluation. -/
def due (s : PacketLostRate) (now : BitVec 64) : Bool :=
  s.lastUpdatePacketLostRate = 0 || 1000 < now - s.lastUpdatePacketLostRate

/-- What an evaluation goes on with. -/
def evaluated (s : PacketLostRate) (call : UpdateCall) : PacketLostRate :=
  { s with lastUpdatePacketLostRate := call.now }.smooth (samples call).1 (samples call).2

/-- `update_packet_lost_rate`. -/
def updatePacketLostRate (s : PacketLostRate) (call : UpdateCall) : PacketLostRate :=
  if s.due call.now then (s.evaluated call).decideDrop call.clock else s

/-! ## Runs -/

def run (s : PacketLostRate) (calls : List UpdateCall) : PacketLostRate :=
  calls.foldl updatePacketLostRate s

/-- An evaluation: the clock, and the values it decided by. -/
structure Evaluation where
  clock : BitVec 64
  lostPercent : BitVec 32
  rttMs : BitVec 32
  deriving DecidableEq, Repr

/-- The network was good at an evaluation. -/
def Evaluation.Good (e : Evaluation) : Prop := e.lostPercent ≤ 30 ∧ e.rttMs ≤ 500

/-- The evaluation that a call makes. -/
def evaluationOf (s : PacketLostRate) (call : UpdateCall) : List Evaluation :=
  if s.due call.now then
    [{ clock := call.clock
       lostPercent := (s.evaluated call).lostPercent
       rttMs := (s.evaluated call).rttMs }]
  else []

/-- The evaluations of a run. -/
def evaluations (s : PacketLostRate) : List UpdateCall → List Evaluation
  | [] => []
  | call :: calls => s.evaluationOf call ++ evaluations (s.updatePacketLostRate call) calls

/-- The clock does not go back. -/
def ClockRuns (calls : List UpdateCall) : Prop := calls.Pairwise fun a b => a.clock ≤ b.clock

theorem run_append (s : PacketLostRate) (calls : List UpdateCall) (call : UpdateCall) :
    s.run (calls ++ [call]) = (s.run calls).updatePacketLostRate call := by
  rw [run, List.foldl_append]
  rfl

theorem evaluations_append (s : PacketLostRate) (calls : List UpdateCall) (call : UpdateCall) :
    s.evaluations (calls ++ [call]) = s.evaluations calls ++ (s.run calls).evaluationOf call := by
  induction calls generalizing s with
  | nil => exact List.append_nil _
  | cons first calls ih =>
    rw [List.cons_append, evaluations, evaluations, ih, List.append_assoc]
    rfl

/-- An evaluation was made by a call of the run. -/
theorem clock_of_mem_evaluations {s : PacketLostRate} {calls : List UpdateCall} {e : Evaluation}
    (he : e ∈ s.evaluations calls) : ∃ call ∈ calls, call.clock = e.clock := by
  induction calls generalizing s with
  | nil => cases he
  | cons call calls ih =>
    rcases List.mem_append.mp he with he | he
    · rw [evaluationOf] at he
      split at he
      · rw [List.mem_singleton] at he
        exact ⟨call, List.mem_cons_self, by rw [he]⟩
      · cases he
    · obtain ⟨c, hc, heq⟩ := ih he
      exact ⟨c, List.mem_cons_of_mem _ hc, heq⟩

/-! ## The recovery timer -/

/-- The run of good evaluations up to now began at the clock reading `since`. -/
def GoodSince (evaluations : List Evaluation) (since : BitVec 64) : Prop :=
  ∃ older first recent, evaluations = older ++ first :: recent ∧ first.clock = since ∧
    ∀ e ∈ first :: recent, e.Good

/-- While video is dropped, a timer that runs began with the good evaluations that go on. -/
def TimerSound (s : PacketLostRate) (evaluations : List Evaluation) : Prop :=
  s.dropVideo = true → s.networkRecoverTs ≠ 0 → GoodSince evaluations s.networkRecoverTs

theorem GoodSince.append {evaluations : List Evaluation} {since : BitVec 64} {e : Evaluation}
    (h : GoodSince evaluations since) (he : e.Good) : GoodSince (evaluations ++ [e]) since := by
  obtain ⟨older, first, recent, rfl, hclock, hgood⟩ := h
  refine ⟨older, first, recent ++ [e], List.append_assoc _ _ _, hclock, ?_⟩
  intro x hx
  rw [← List.cons_append] at hx
  rcases List.mem_append.mp hx with hx | hx
  · exact hgood x hx
  · rw [List.mem_singleton.mp hx]
    exact he

theorem good_of_recovered {s : PacketLostRate} (clock : BitVec 64)
    (h : ¬ s.notRecovered = true) :
    Evaluation.Good { clock := clock, lostPercent := s.lostPercent, rttMs := s.rttMs } := by
  rw [notRecovered, Bool.or_eq_true, decide_eq_true_iff, decide_eq_true_iff, not_or] at h
  exact ⟨BitVec.not_lt.mp h.1, BitVec.not_lt.mp h.2⟩

/-- The four ends of an evaluation. -/
theorem decideDrop_cases (s : PacketLostRate) (clock : BitVec 64) :
    (s.dropVideo = false ∧
      s.decideDrop clock = { s with dropVideo := s.overLimit, networkRecoverTs := 0 }) ∨
    (s.dropVideo = true ∧ s.notRecovered = true ∧
      s.decideDrop clock = { s with networkRecoverTs := 0 }) ∨
    (s.dropVideo = true ∧ ¬ s.notRecovered = true ∧ s.networkRecoverTs = 0 ∧
      s.decideDrop clock = { s with networkRecoverTs := clock }) ∨
    (s.dropVideo = true ∧ ¬ s.notRecovered = true ∧ s.networkRecoverTs ≠ 0 ∧
      s.decideDrop clock =
        { s with dropVideo := !decide (5000 < clock - s.networkRecoverTs) }) := by
  rw [decideDrop]
  by_cases hdrop : s.dropVideo = true
  · rw [if_pos hdrop]
    refine .inr ?_
    by_cases hbad : s.notRecovered = true
    · rw [if_pos hbad]
      exact .inl ⟨hdrop, hbad, rfl⟩
    · rw [if_neg hbad]
      refine .inr ?_
      by_cases hts : s.networkRecoverTs = 0
      · rw [if_pos hts]
        exact .inl ⟨hdrop, hbad, hts, rfl⟩
      · rw [if_neg hts]
        refine .inr ⟨hdrop, hbad, hts, ?_⟩
        by_cases hlong : 5000 < clock - s.networkRecoverTs
        · rw [if_pos hlong, decide_eq_true hlong]
          rfl
        · rw [if_neg hlong, decide_eq_false hlong, Bool.not_false, ← hdrop]
  · rw [if_neg hdrop]
    exact .inl ⟨Bool.of_not_eq_true hdrop, rfl⟩

/-- A call keeps the timer sound. -/
theorem TimerSound.step {s : PacketLostRate} {evaluations : List Evaluation}
    (h : TimerSound s evaluations) (call : UpdateCall) :
    TimerSound (s.updatePacketLostRate call) (evaluations ++ s.evaluationOf call) := by
  rw [updatePacketLostRate, evaluationOf]
  split
  · next hdue =>
    have hrecover : (s.evaluated call).networkRecoverTs = s.networkRecoverTs := rfl
    intro hdrop hts
    rcases (s.evaluated call).decideDrop_cases call.clock with
      ⟨-, heq⟩ | ⟨-, -, heq⟩ | ⟨-, hgood, -, heq⟩ | ⟨hdropped, hgood, hrunning, heq⟩
    · rw [heq] at hts
      exact absurd rfl hts
    · rw [heq] at hts
      exact absurd rfl hts
    · rw [heq]
      refine ⟨evaluations, _, [], rfl, rfl, ?_⟩
      intro e he
      rw [List.mem_singleton.mp he]
      exact good_of_recovered call.clock hgood
    · rw [heq]
      exact (h hdropped hrunning).append (good_of_recovered call.clock hgood)
  · rw [List.append_nil]
    exact h

theorem timerSound_run (calls : List UpdateCall) :
    TimerSound (new.run calls) (new.evaluations calls) := by
  induction calls using List.reverseRecOn with
  | nil => exact fun hdrop => Bool.noConfusion hdrop
  | append_singleton calls call ih =>
    rw [run_append, evaluations_append]
    exact ih.step call

/-! ## The two changes -/

/-- Dropping begins with a value above its upper limit. -/
theorem overLimit_of_begin {s : PacketLostRate} {call : UpdateCall} (hold : s.dropVideo = false)
    (hnew : (s.updatePacketLostRate call).dropVideo = true) :
    40 < (s.updatePacketLostRate call).lostPercent ∨
      800 < (s.updatePacketLostRate call).rttMs := by
  rw [updatePacketLostRate] at hnew ⊢
  split at hnew
  · next hdue =>
    rw [if_pos hdue]
    rcases (s.evaluated call).decideDrop_cases call.clock with
      ⟨-, heq⟩ | ⟨hdropped, -, -⟩ | ⟨hdropped, -, -, -⟩ | ⟨hdropped, -, -, -⟩
    · rw [heq] at hnew ⊢
      change (s.evaluated call).overLimit = true at hnew
      rw [overLimit, Bool.or_eq_true, decide_eq_true_iff, decide_eq_true_iff] at hnew
      exact hnew
    all_goals
      have hsame : (s.evaluated call).dropVideo = s.dropVideo := rfl
      rw [hsame, hold] at hdropped
      cases hdropped
  · rw [hold] at hnew
    cases hnew

/-- Dropping ends when the timer has run for more than five seconds. -/
theorem goodSince_of_end {s : PacketLostRate} {evaluations : List Evaluation} {call : UpdateCall}
    (h : TimerSound s evaluations) (hold : s.dropVideo = true)
    (hnew : (s.updatePacketLostRate call).dropVideo = false) :
    GoodSince evaluations s.networkRecoverTs ∧
      GoodSince (evaluations ++ s.evaluationOf call) s.networkRecoverTs ∧
      5000 < call.clock - s.networkRecoverTs := by
  rw [updatePacketLostRate] at hnew
  rw [evaluationOf]
  have hsame : (s.evaluated call).dropVideo = s.dropVideo := rfl
  split at hnew
  · next hdue =>
    rw [if_pos hdue]
    rcases (s.evaluated call).decideDrop_cases call.clock with
      ⟨hnot, -⟩ | ⟨-, -, heq⟩ | ⟨-, -, -, heq⟩ | ⟨-, hgood, hrunning, heq⟩
    · rw [hsame, hold] at hnot
      cases hnot
    · rw [heq] at hnew
      exact absurd (hnew.symm.trans hold) Bool.false_ne_true
    · rw [heq] at hnew
      exact absurd (hnew.symm.trans hold) Bool.false_ne_true
    · rw [heq] at hnew
      change (!decide (5000 < call.clock - s.networkRecoverTs)) = false at hnew
      rw [Bool.not_eq_false', decide_eq_true_iff] at hnew
      have hsince := h hold hrunning
      exact ⟨hsince, hsince.append (good_of_recovered call.clock hgood), hnew⟩
  · exact absurd (hnew.symm.trans hold) Bool.false_ne_true

/-- Dropping begins only with an evaluation above one of the upper limits, and ends only when every
evaluation for more than five seconds was at or below both of the lower ones. -/
theorem drop_video_hysteresis (calls : List UpdateCall) (call : UpdateCall)
    (hclock : ClockRuns (calls ++ [call])) :
    let s := new.run calls
    let s' := new.run (calls ++ [call])
    (s.dropVideo = false → s'.dropVideo = true → 40 < s'.lostPercent ∨ 800 < s'.rttMs) ∧
    (s.dropVideo = true → s'.dropVideo = false →
      ∃ older first recent, new.evaluations (calls ++ [call]) = older ++ first :: recent ∧
        (∀ e ∈ first :: recent, e.Good) ∧
        5000 < call.clock.toNat - first.clock.toNat) := by
  dsimp only
  rw [run_append, evaluations_append]
  refine ⟨overLimit_of_begin, fun hold hnew => ?_⟩
  obtain ⟨hsince, hgood, hlong⟩ := goodSince_of_end (timerSound_run calls) hold hnew
  obtain ⟨_, begun, _, hbefore, hbegun, -⟩ := hsince
  have hmem : begun ∈ new.evaluations calls := by
    rw [hbefore]
    exact List.mem_append_right _ List.mem_cons_self
  obtain ⟨c, hc, hcall⟩ := clock_of_mem_evaluations hmem
  have hle : (new.run calls).networkRecoverTs ≤ call.clock := by
    rw [← hbegun, ← hcall]
    exact (List.pairwise_append.mp hclock).2.2 c hc call List.mem_cons_self
  obtain ⟨older, first, recent, hsplit, hfirst, hall⟩ := hgood
  refine ⟨older, first, recent, hsplit, hall, ?_⟩
  rw [hfirst, ← BitVec.toNat_sub_of_le hle]
  exact hlong

/-- A round trip of two seconds starts the dropping, and two good evaluations end it. -/
theorem drop_video_hysteresis_two_seconds :
    let sample := fun rtt => some (SessionSample.mk true rtt false 0)
    let calls : List UpdateCall :=
      [⟨1, 1, sample 2000, none⟩, ⟨1002, 1002, sample 0, none⟩]
    let call : UpdateCall := ⟨6003, 6003, sample 0, none⟩
    (new.run calls).dropVideo = true ∧ (new.run (calls ++ [call])).dropVideo = false ∧
      ∃ older first recent, new.evaluations (calls ++ [call]) = older ++ first :: recent ∧
        (∀ e ∈ first :: recent, e.Good) ∧
        5000 < call.clock.toNat - first.clock.toNat := by
  refine ⟨by decide, by decide, ?_⟩
  have hclock : ClockRuns ([⟨1, 1, some ⟨true, 2000, false, 0⟩, none⟩,
      ⟨1002, 1002, some ⟨true, 0, false, 0⟩, none⟩] ++
        [⟨6003, 6003, some ⟨true, 0, false, 0⟩, none⟩]) := by
    unfold ClockRuns
    decide
  exact (drop_video_hysteresis _ _ hclock).2 (by decide) (by decide)

end PacketLostRate

end RtcMcu.RtpTrans
