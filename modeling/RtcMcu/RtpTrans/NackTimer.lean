import RtcMcu.RtpTrans.RtpTrans

/-!
# The NACK timer of a receiver session

The first part of `RTPRecvSession::on_timer`: the numbers of `_nacks` that are due go into one NACK.
A number is due if it was never asked for, or not within `min_same_nack_interval`, and if it was
asked for less than 30 times; from the tenth time on a coin decides whether it is left out, so it
is asked for half as often. The receiver report, the REMB and the bit rate that follow are left out.

`SessionOp` are the steps by which a session changes what its NACKs depend on. Every call of
`on_handle_rtp` is a run of such steps (`onHandleRtp_steps`), whatever it recovers on the way.
-/

namespace RtcMcu.RtpTrans

open RtcMcu.Avformat RtcMcu.Fragment

/-! ## on_timer -/

/-- The configuration with the field that only the timer reads. -/
structure TimerConfig extends RTPTransConfig where
  nackInterval : BitVec 32
  deriving DecidableEq, Repr

/-- `set_default_config`. -/
def TimerConfig.default : TimerConfig := { RTPTransConfig.default with nackInterval := 10 }

/-- A receiver session with `_last_process_nackts`. -/
structure TimedSession extends RTPRecvSession where
  lastProcessNackts : Nat

def TimedSession.new : TimedSession := { RTPRecvSession.new with lastProcessNackts := 0 }

/-- `max_retrans_count` of the timer. -/
def maxNackCount : Nat := 30

/-- An entry is due: it was not asked for lately, and not too often. -/
def NackRetransInfo.isDue (cfg : TimerConfig) (now : Nat) (info : NackRetransInfo) : Bool :=
  (info.time == 0 || decide (cfg.minSameNackInterval.toNat < now - info.time)) &&
    decide (info.retransCount < maxNackCount)

/-- The entry is left out this time: `rand() % 2`, from ten on. -/
def NackRetransInfo.isSkipped (skip : Bool) (info : NackRetransInfo) : Bool :=
  decide (10 ≤ info.retransCount) && skip

/-- The loop that fills `retrans_nack`. `skip` is the coin thrown for a number. -/
def NackMap.collect (cfg : TimerConfig) (now : Nat) (skip : Seq → Bool) :
    NackMap → NackMap × List Seq
  | [] => ([], [])
  | (seq, info) :: rest =>
    let (m, list) := NackMap.collect cfg now skip rest
    if info.isDue cfg now && !info.isSkipped (skip seq) then
      ((seq, { time := now, retransCount := info.retransCount + 1 }) :: m, seq :: list)
    else ((seq, info) :: m, list)

/-- `while (isNacklistToolarge())`, where each round calls `_set_nacks_array_dirty`. -/
def RTPSession.trimNacks (cfg : RTPTransConfig) (now : Nat) (s : RTPSession) : RTPSession :=
  if s.isNacklistToolarge cfg then
    { s with
      nacks := s.nacks.drop (s.nacks.length - cfg.maxNacklstSize.toNat)
      isDirty := true
      lastNacksDirty := now }
  else s

/-- The condition under which `on_timer` breaks off before `_send_rtcp`. -/
def RTPSession.heldBack (cfg : RTPTransConfig) (now : Nat) (s : RTPSession) : Bool :=
  !s.isDirty && decide (0 < s.lastNacksDirty) &&
    decide (cfg.minSameNackInterval.toNat < now - s.lastNacksDirty)

/-- The NACKs of `on_timer`: the session, and the list of the NACK that is passed to `_send_rtcp`. -/
def TimedSession.processNacks (cfg : TimerConfig) (now : Nat) (skip : Seq → Bool)
    (s : TimedSession) : TimedSession × Option (List Seq) :=
  if 0 < cfg.maxNacklstSize ∧
      (s.lastProcessNackts = 0 ∨ cfg.nackInterval.toNat < now - s.lastProcessNackts) then
    if s.nacks.isEmpty then ({ s with lastProcessNackts := now }, none)
    else
      let trimmed := s.toRTPSession.trimNacks cfg.toRTPTransConfig now
      let (nacks, list) := NackMap.collect cfg now skip trimmed.nacks
      let session := { trimmed with nacks := nacks, isDirty := false }
      ({ s with toRTPSession := session, lastProcessNackts := now },
        if session.ssrc ≠ 0 ∧ list ≠ [] ∧
            session.heldBack cfg.toRTPTransConfig now = false then some list
        else none)
  else (s, none)

/-! ## The steps of a session -/

/-- What a session holds besides its NACKs and `_pkt_history`: nothing of it is read by
`_on_handle_rtp_nack`, and nothing by the timer but `_ssrc`. -/
structure SessionRest where
  ssrc : BitVec 32
  payloadType : RTPAVType
  lastKeepliveTs : Nat
  fracRtpSendbytes : BitVec 32
  fecRecoverCount : BitVec 64
  closed : Bool
  pktData : Rtp
  pendingFec : List RTPBlock

/-- What a session holds besides its NACKs and the history. -/
def RTPRecvSession.rest (s : RTPRecvSession) : SessionRest where
  ssrc := s.ssrc
  payloadType := s.payloadType
  lastKeepliveTs := s.lastKeepliveTs
  fracRtpSendbytes := s.fracRtpSendbytes
  fecRecoverCount := s.fecRecoverCount
  closed := s.closed
  pktData := s.pktData
  pendingFec := s.pendingFec

/-- The session with all that is not its NACKs or the history replaced. -/
def RTPRecvSession.withRest (s : RTPRecvSession) (r : SessionRest) : RTPRecvSession :=
  { s with
    ssrc := r.ssrc
    payloadType := r.payloadType
    lastKeepliveTs := r.lastKeepliveTs
    fracRtpSendbytes := r.fracRtpSendbytes
    fecRecoverCount := r.fecRecoverCount
    closed := r.closed
    pktData := r.pktData
    pendingFec := r.pendingFec }

/-- A step: the arrival of a media packet, which is marked, or of a FEC packet, where a new turn may
begin with either; `_on_handle_rtp_nack` of a media packet; a number that is marked once more; one
that was recovered, which is erased and marked; the timer; or anything that leaves the NACKs and the
history alone. -/
inductive SessionOp
  | arrive (seq : Seq)
  | wrap (seq : Seq)
  | media (audioTimeBase videoTimeBase : BitVec 32) (now : Nat) (pkt : Rtp) (len : Nat)
  | mark (seq : Seq)
  | recovered (seq : Seq)
  | timer (now : Nat) (skip : Seq → Bool)
  | other (r : SessionRest)

/-- The step of a video packet with this number at a time. -/
def SessionOp.videoNow (now : Nat) (seq : Seq) : SessionOp :=
  .media 0 90000 now { Rtp.zero with payload := RTP_AV_H264, seq := seq } 100

/-- The same, with a clock that stands still. -/
def SessionOp.videoAt (seq : Seq) : SessionOp := .videoNow 0 seq

/-- The session after a step. -/
def TimedSession.step (cfg : TimerConfig) (s : TimedSession) : SessionOp → TimedSession
  | .media audio video now pkt len =>
    { s with
      toRTPRecvSession := s.toRTPRecvSession.onHandleRtpNack
        { cfg := cfg.toRTPTransConfig, audioTimeBase := audio, videoTimeBase := video, now := now }
        pkt len }
  | .arrive seq => { s with toRTPRecvSession := (s.toRTPRecvSession.clearAtWrap seq).mark seq }
  | .wrap seq => { s with toRTPRecvSession := s.toRTPRecvSession.clearAtWrap seq }
  | .mark seq => { s with toRTPRecvSession := s.toRTPRecvSession.mark seq }
  | .recovered seq =>
    { s with toRTPRecvSession := { s with nacks := s.nacks.erase seq }.toRTPRecvSession.mark seq }
  | .timer now skip => (s.processNacks cfg now skip).1
  | .other r => { s with toRTPRecvSession := s.toRTPRecvSession.withRest r }

/-- What `_on_handle_rtp_nack` keeps of the packets: all but the history. -/
structure SameNackState (s s' : RTPRecvSession) : Prop where
  nacks : s'.nacks = s.nacks
  hisNacks : s'.hisNacks = s.hisNacks
  lastseq : s'.lastseq = s.lastseq
  extendMaxSeq : s'.extendMaxSeq = s.extendMaxSeq

/-- The history is cleared for a packet. -/
def BeginsTurn (lastseq seq : Seq) : Prop := seq < 50 ∧ 65500 < lastseq

instance (lastseq seq : Seq) : Decidable (BeginsTurn lastseq seq) :=
  inferInstanceAs (Decidable (_ ∧ _))

theorem clearAtWrap_of_beginsTurn {s : RTPRecvSession} {seq : Seq} (h : BeginsTurn s.lastseq seq) :
    s.clearAtWrap seq = { s with pktHistory := fun _ => false, pendingFec := [] } := if_pos h

theorem clearAtWrap_of_not {s : RTPRecvSession} {seq : Seq} (h : ¬ BeginsTurn s.lastseq seq) :
    s.clearAtWrap seq = s := if_neg h

theorem clearAtWrap_same (s : RTPRecvSession) (seq : Seq) :
    SameNackState s (s.clearAtWrap seq) := by
  unfold RTPRecvSession.clearAtWrap
  split <;> exact ⟨rfl, rfl, rfl, rfl⟩

theorem clearAtWrap_pktHistory (s : RTPRecvSession) (seq t : Seq) :
    (s.clearAtWrap seq).pktHistory t = true ↔
      ¬ BeginsTurn s.lastseq seq ∧ s.pktHistory t = true := by
  by_cases hturn : BeginsTurn s.lastseq seq
  · rw [clearAtWrap_of_beginsTurn hturn]
    exact iff_of_false Bool.false_ne_true fun hboth => hboth.1 hturn
  · rw [clearAtWrap_of_not hturn]
    exact (and_iff_right hturn).symm

/-- Marking a number touches only the history. -/
theorem SameNackState.mark {s s' : RTPRecvSession} (h : SameNackState s s') (seq : Seq) :
    SameNackState s (s'.mark seq) := ⟨h.nacks, h.hisNacks, h.lastseq, h.extendMaxSeq⟩

/-- The session after a run of steps. -/
def TimedSession.run (cfg : TimerConfig) (s : TimedSession) (ops : List SessionOp) : TimedSession :=
  ops.foldl (TimedSession.step cfg) s

theorem TimedSession.run_append (cfg : TimerConfig) (s : TimedSession) (ops ops' : List SessionOp) :
    s.run cfg (ops ++ ops') = (s.run cfg ops).run cfg ops' := List.foldl_append

end RtcMcu.RtpTrans
