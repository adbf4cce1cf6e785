import RtcMcu.RtpTrans.RtpTrans

/-!
# The loss a receiver session reports

`RTPRecvSession::on_handle_rtcp` takes the number of packets the uploader says it sent, subtracts
the number the session counted, and keeps the difference as `_total_lost_packet_count`, which
`on_timer` puts into the next receiver report. Both numbers are `uint32_t`. The comparison that
follows only guards the floating-point loss rate, which is left out here together with
`_sr_history`, which feeds it.
-/

namespace RtcMcu.RtpTrans

open RtcMcu.Avformat

/-- A receiver session with what a sender report leaves in it. -/
structure ReportingSession extends RTPRecvSession where
  totalLostPacketCount : BitVec 32
  lastProcessSrts : Nat

def ReportingSession.new : ReportingSession :=
  { RTPRecvSession.new with totalLostPacketCount := 0, lastProcessSrts := 0 }

/-- `RTPRecvSession::on_handle_rtcp`; `sendPacketCount` is that of the sender report. -/
def ReportingSession.onHandleRtcp (s : ReportingSession) (info : RTCPPacketInformation)
    (sendPacketCount : BitVec 32) (now : Nat) : ReportingSession :=
  let s : ReportingSession := { s with ssrc := if s.ssrc = 0 then info.remoteSSRC else s.ssrc }
  let s :=
    if info.sr then
      { s with
        lastProcessSrts := now
        totalLostPacketCount := sendPacketCount - s.totalRtpPacketcount }
    else s
  { s with toRTPSession := s.toRTPSession.onHandleRtcp info now }

/-- What the session is called with. -/
inductive ReportEvent
  | rtp (env : RecvEnv) (pkt : Rtp) (len : Nat)
  | rtcp (info : RTCPPacketInformation) (sendPacketCount : BitVec 32) (now : Nat)

section Run

variable {σ : Type} (parent : Parent σ) (fuel : Nat)

/-- One call, with the state its parent is in. -/
def ReportingSession.handle (c : σ × ReportingSession) :
    ReportEvent → Except Fault (σ × ReportingSession)
  | .rtp env pkt len => do
    let (st, s) ← c.2.toRTPRecvSession.onHandleRtp parent env fuel c.1 (.ext pkt) len
    .ok (st, { c.2 with toRTPRecvSession := s })
  | .rtcp info sendPacketCount now => .ok (c.1, c.2.onHandleRtcp info sendPacketCount now)

/-- A run of calls on a new session. -/
def ReportingSession.run (st : σ) (events : List ReportEvent) :
    Except Fault (σ × ReportingSession) :=
  events.foldlM (ReportingSession.handle parent fuel) (st, ReportingSession.new)

/-- `P` holds of the session and the packet count at each sender report of a run. -/
def AtSenderReports (st : σ) (events : List ReportEvent)
    (P : ReportingSession → RTCPPacketInformation → BitVec 32 → Nat → Prop) : Prop :=
  ∀ (before after : List ReportEvent) (info : RTCPPacketInformation) (sendPacketCount : BitVec 32)
    (now : Nat) (st' : σ) (s : ReportingSession),
    events = before ++ .rtcp info sendPacketCount now :: after → info.sr = true →
    ReportingSession.run parent fuel st before = .ok (st', s) → P s info sendPacketCount now

/-- Every sender report leaves a count of lost packets, no more than were sent. -/
def ReportsLoss (st : σ) (events : List ReportEvent) : Prop :=
  AtSenderReports parent fuel st events fun s info sendPacketCount now =>
    (s.onHandleRtcp info sendPacketCount now).totalLostPacketCount ≤ sendPacketCount

/-- No sender report comes when the session has counted more packets than it says were sent. -/
def CountedNoMore (st : σ) (events : List ReportEvent) : Prop :=
  AtSenderReports parent fuel st events fun s _ sendPacketCount _ =>
    s.totalRtpPacketcount ≤ sendPacketCount

end Run

/-! ## The difference -/

/-- A difference of unsigned numbers is at most the first exactly if nothing is borrowed. -/
theorem sub_le_self_iff {w : Nat} (x y : BitVec w) : x - y ≤ x ↔ y ≤ x := by
  have hx := x.isLt
  have hy := y.isLt
  rw [BitVec.le_def, BitVec.le_def, BitVec.toNat_sub]
  by_cases hle : y.toNat ≤ x.toNat
  · have hsum : 2 ^ w - y.toNat + x.toNat = (x.toNat - y.toNat) + 2 ^ w := by omega
    rw [hsum, Nat.add_mod_right, Nat.mod_eq_of_lt (by omega)]
    omega
  · rw [Nat.mod_eq_of_lt (by omega)]
    omega

/-- After a sender report the loss is what was sent less what was counted. -/
theorem totalLost_onHandleRtcp (s : ReportingSession) {info : RTCPPacketInformation}
    (hsr : info.sr = true) (sendPacketCount : BitVec 32) (now : Nat) :
    (s.onHandleRtcp info sendPacketCount now).totalLostPacketCount =
      sendPacketCount - s.totalRtpPacketcount := by
  simp only [ReportingSession.onHandleRtcp, hsr, ↓reduceIte]

/-- In every run of packets and reports, every sender report leaves a valid count exactly if none
comes when more packets were counted than it says were sent. -/
theorem reports_loss_iff {σ : Type} (parent : Parent σ) (fuel : Nat) (st : σ)
    (events : List ReportEvent) :
    ReportsLoss parent fuel st events ↔ CountedNoMore parent fuel st events := by
  constructor
  · intro h before after info count now st' s hevents hsr hrun
    have hle : (s.onHandleRtcp info count now).totalLostPacketCount ≤ count :=
      h before after info count now st' s hevents hsr hrun
    rw [totalLost_onHandleRtcp s hsr] at hle
    exact (sub_le_self_iff _ _).mp hle
  · intro h before after info count now st' s hevents hsr hrun
    have hle : s.totalRtpPacketcount ≤ count :=
      h before after info count now st' s hevents hsr hrun
    show (s.onHandleRtcp info count now).totalLostPacketCount ≤ count
    rw [totalLost_onHandleRtcp s hsr]
    exact (sub_le_self_iff _ _).mpr hle

/-- A parent whose cache is empty. -/
def bareParent : Parent Unit where
  getRtpBySsrcSeq _ _ _ := .ok (none, 0)
  recvRtp st s _ := .ok (st, s)

/-- One media packet, counted. -/
def onePacket : ReportEvent :=
  .rtp { cfg := RTPTransConfig.default, audioTimeBase := 0, videoTimeBase := 90000, now := 1 }
    { Rtp.zero with payload := RTP_AV_H264, seq := 7, ssrc := 5 } 13

/-- A sender report. -/
def senderReport : RTCPPacketInformation where
  remoteSSRC := 5
  sr := true
  nack := false
  bye := false
  ntpSecs := 1
  ntpFrac := 0
  rtpTimestamp := 0
  nackList := []

/-- A report of no packets that arrives behind the first packet leaves a loss of `2 ^ 32 - 1`. -/
theorem loss_wraps :
    ∃ s, ReportingSession.run bareParent 2 () [onePacket] = .ok ((), s) ∧
      s.totalRtpPacketcount = 1 ∧
      (s.onHandleRtcp senderReport 0 2).totalLostPacketCount = 0xffffffff ∧
      ¬ ReportsLoss bareParent 2 () [onePacket, .rtcp senderReport 0 2] := by
  refine ⟨_, rfl, by decide, by decide, fun h => ?_⟩
  have hle := h [onePacket] [] senderReport 0 2 () _ rfl rfl rfl
  exact absurd hle (by decide)

end RtcMcu.RtpTrans
