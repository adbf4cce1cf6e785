import RtcMcu.RtpTrans.RtpReceiverSession
import RtcMcu.RtpTrans.RtpSenderSession

/-!
# RTPTrans

`rtp_trans/rtp_trans.cpp`, `rtp_receiver_trans.cpp` and `rtp_sender_trans.cpp`: the sessions of one
connection, one for each ssrc. A connection that uploads has receiver sessions, a player sender
sessions.

A packet a receiver session recovers goes to `recv_rtp`, which calls `RTPTransManager::OnRecvRtp`
for the session's own connection. The recovered packet carries the ssrc of its session, under which
the trans has that session, so the call ends in the session it came from: `onRecvRtp` below. What
else it reaches is `StreamHost`.

What the sessions' timers send, and the round trip time and loss rates that the reports give, are
left out; the one place the code decides by the round trip time takes it as a parameter.
-/

namespace RtcMcu.RtpTrans

open RtcMcu.Avformat Std

/-! ## The packets a session recovers -/

/-- What `OnRecvRtp` reaches besides the session: the cache and the players of the connection's
stream. `forwardRtp` gives the packet back as it leaves it, with the ssrc of the last player.
`recovered` does nothing in the server; it notes what `recv_rtp` is given. -/
structure StreamHost (σ : Type) where
  getRtpBySeq : σ → Bool → Seq → Except Fault (Option Rtp × Nat)
  setRtp : σ → Rtp → Nat → Except Fault σ
  forwardRtp : σ → Rtp → Nat → Except Fault (σ × Rtp)
  recovered : σ → RTPRecvSession → Nat → σ

/-- `ForwardRtp` writes the ssrc into the packet it is given. -/
def RTPRecvSession.writeBack (s : RTPRecvSession) (ref : PktRef) (rtp : Rtp) : RTPRecvSession :=
  match ref with
  | .ext _ => s
  | .own => { s with pktData := rtp }

/-- The first part of `OnRecvRtp`: a media packet is stored. -/
def StreamHost.storeMedia {σ : Type} (host : StreamHost σ) (st : σ) (rtp : Rtp) (len : Nat) :
    Except Fault σ :=
  if isFec rtp.payload then .ok st else host.setRtp st rtp len

/-- `RTPTransManager::OnRecvRtp` in the session that handles the packet. -/
def onRecvRtp {σ : Type} (host : StreamHost σ) (env : RecvEnv) :
    Nat → σ → RTPRecvSession → PktRef → Nat → Except Fault (σ × RTPRecvSession)
  | 0, _, _, _, _ => .error .outOfFuel
  | fuel + 1, st, s, ref, len => do
    let fec := isFec (s.deref ref).payload
    let st ← host.storeMedia st (s.deref ref) len
    let (st, s) ← s.onHandleRtp
      { getRtpBySsrcSeq := host.getRtpBySeq
        recvRtp := fun st s len =>
          onRecvRtp host env fuel (host.recovered st s len) s .own len } env fuel st ref len
    if fec then .ok (st, s)
    else do
      let (st, rtp) ← host.forwardRtp st (s.deref ref) len
      .ok (st, s.writeBack ref rtp)

/-- `_parent` of a session: `recv_rtp` ends in `OnRecvRtp`. -/
def StreamHost.parent {σ : Type} (host : StreamHost σ) (env : RecvEnv) (fuel : Nat) :
    Parent σ where
  getRtpBySsrcSeq := host.getRtpBySeq
  recvRtp st s len := onRecvRtp host env fuel (host.recovered st s len) s .own len

/-! ## RTPTrans -/

/-- `RTPTrans` with sessions of one class. -/
structure RTPTrans (S : Type) where
  config : RTPTransConfig
  isAlive : Bool
  lastKeepliveTs : Nat
  audioTimeBase : BitVec 32
  videoTimeBase : BitVec 32
  sessionsMap : TreeMap (BitVec 32) S

abbrev RTPRecvTrans := RTPTrans RTPRecvSession

abbrev RTPSendTrans := RTPTrans RTPSendSession

/-- `RTPTrans::RTPTrans`. -/
def RTPTrans.new {S : Type} (config : RTPTransConfig) (now : Nat) : RTPTrans S where
  config := config
  isAlive := true
  lastKeepliveTs := now
  audioTimeBase := 0
  videoTimeBase := 0
  sessionsMap := ∅

def RTPTrans.setTimeBase {S : Type} (t : RTPTrans S) (audioTimeBase videoTimeBase : BitVec 32) :
    RTPTrans S :=
  { t with audioTimeBase := audioTimeBase, videoTimeBase := videoTimeBase }

/-- `_video_time_base`, for AAC `_audio_time_base`. -/
def RTPTrans.timeBase {S : Type} (t : RTPTrans S) (payload : RTPAVType) : BitVec 32 :=
  if payload = RTP_AV_AAC then t.audioTimeBase else t.videoTimeBase

/-- `is_live`, the same for both classes of sessions. It sets a `_last_keeplive_ts` that is 0. -/
def RTPSession.isLive (cfg : RTPTransConfig) (now : Nat) (s : RTPSession) : RTPSession × Bool :=
  if s.closed then (s, false)
  else
    let s := if s.lastKeepliveTs = 0 then { s with lastKeepliveTs := now } else s
    (s, decide (now - s.lastKeepliveTs ≤ cfg.sessionTimeout.toNat))

/-- `on_timer` asks the sessions in turn, up to the first that is alive. -/
def RTPTrans.sessionsAlive {S : Type} (isLive : S → S × Bool) (t : RTPTrans S) :
    RTPTrans S × Bool :=
  t.sessionsMap.toList.foldl
    (fun (t, alive) (ssrc, s) =>
      if alive then (t, true)
      else ({ t with sessionsMap := t.sessionsMap.insert ssrc (isLive s).1 }, (isLive s).2))
    (t, false)

/-- `RTPTrans::on_timer`. -/
def RTPTrans.onTimer {S : Type} (isLive : S → S × Bool) (now : Nat) (t : RTPTrans S) :
    RTPTrans S :=
  if t.sessionsMap.isEmpty then
    if t.config.sessionTimeout.toNat < now - t.lastKeepliveTs then { t with isAlive := false }
    else t
  else
    let (t, alive) := t.sessionsAlive isLive
    { t with isAlive := alive }

/-! ## RTPRecvTrans -/

/-- `RTPRecvTrans::on_handle_rtp`. -/
def RTPRecvTrans.onHandleRtp {σ : Type} (host : StreamHost σ) (fuel now : Nat) (st : σ)
    (t : RTPRecvTrans) (pkt : Rtp) (len : Nat) : Except Fault (σ × RTPRecvTrans) :=
  if t.isAlive = false ∨ pkt.ssrc = 0 then .ok (st, t)
  else
    let s := t.sessionsMap[pkt.ssrc]?.getD RTPRecvSession.new
    if s.closed then .ok (st, t)
    else do
      let env : RecvEnv :=
        { cfg := t.config
          audioTimeBase := t.audioTimeBase
          videoTimeBase := t.videoTimeBase
          now := now }
      let (st, s) ← s.onHandleRtp (host.parent env fuel) env fuel st (.ext pkt) len
      .ok (st, { t with sessionsMap := t.sessionsMap.insert pkt.ssrc s, lastKeepliveTs := now })

/-! ## RTCP -/

/-- The fields of `RTCPPacketInformation` that are read here. The flags are those of
`rtcpPacketTypeFlags`. -/
structure RTCPPacketInformation where
  remoteSSRC : BitVec 32
  sr : Bool
  nack : Bool
  bye : Bool
  ntpSecs : BitVec 32
  ntpFrac : BitVec 32
  rtpTimestamp : BitVec 32
  nackList : List Seq

/-- `RTPSession::on_handle_rtcp`. -/
def RTPSession.onHandleRtcp (s : RTPSession) (info : RTCPPacketInformation) (now : Nat) :
    RTPSession :=
  { s with
    ssrc := if s.ssrc = 0 then info.remoteSSRC else s.ssrc
    closed := s.closed || info.bye
    lastKeepliveTs := now }

/-- `RTPRecvTrans::on_handle_rtcp`. What a sender report changes are counters for the loss rate. -/
def RTPRecvTrans.onHandleRtcp (t : RTPRecvTrans) (info : RTCPPacketInformation) (now : Nat) :
    RTPRecvTrans :=
  if info.remoteSSRC = 0 ∨ t.isAlive = false then t
  else
    let s := t.sessionsMap[info.remoteSSRC]?.getD RTPRecvSession.new
    if s.closed then t
    else
      { t with
        sessionsMap := t.sessionsMap.insert info.remoteSSRC
          { s with toRTPSession := s.toRTPSession.onHandleRtcp info now }
        lastKeepliveTs := now }

/-- `RTPTrans::get_av_type`. -/
def RTPTrans.getAvType {S : Type} (session : S → RTPSession) (t : RTPTrans S) (ssrc : BitVec 32) :
    RTPAVType :=
  match t.sessionsMap.toList.find? fun e => (session e.2).ssrc == ssrc with
  | none => RTP_AV_NULL
  | some e => (session e.2).payloadType

/-! ## RTPSendTrans -/

/-- `RTPSendTrans::on_handle_rtp` and the FEC packets it sends. -/
def RTPSendTrans.onHandleRtp (get : GetRtp) (now : Nat) (t : RTPSendTrans) (pkt : Rtp) (len : Nat) :
    Except Fault (RTPSendTrans × List Sent) :=
  if t.isAlive = false ∨ pkt.ssrc = 0 then .ok (t, [])
  else
    let s := t.sessionsMap[pkt.ssrc]?.getD RTPSendSession.new
    if s.closed then .ok (t, [])
    else do
      let (s, sent) ← s.onHandleRtp t.config get (t.timeBase pkt.payload) pkt len
      .ok ({ t with
             sessionsMap := t.sessionsMap.insert pkt.ssrc s
             lastKeepliveTs := now }, sent)

/-- How often a packet is sent again at most: a video packet that belongs to a key frame, by its
byte 18, another video packet, anything else. -/
def maxRetransCount (packet : Rtp) (packetLen : Nat) : Nat :=
  if packet.payload = RTP_AV_H264 then
    if 18 < packetLen ∧ (byteAt packet.data (18 - rtpHeaderLen)).msb then 7 else 5
  else 9

/-- `_nacks[seqNum]` with one more retransmission. -/
def NackMap.retransmitted (m : NackMap) (seq : Seq) (now : Nat) : NackMap :=
  m.map fun e => if e.1 = seq then (seq, { time := now, retransCount := e.2.retransCount + 1 }) else e

/-- The loop over `nackList`: the session, and the numbers for which `SendNackRtp` is called. `rttMs`
is the round trip time of the trans. -/
def RTPSendSession.onNackList (t : RTPSendTrans) (get : GetRtp) (now : Nat) (rttMs : BitVec 32) :
    RTPSendSession → List Seq → Except Fault (RTPSendSession × List Seq)
  | s, [] => .ok (s, [])
  | s, seqNum :: rest => do
    if tooOld t.config s.lastseq seqNum then RTPSendSession.onNackList t get now rttMs s rest
    else
      let (packet, packetLen) ← get (s.payloadType == RTP_AV_H264) seqNum
      match packet with
      | none => RTPSendSession.onNackList t get now rttMs s rest
      | some packet =>
        if timestampJump (t.timeBase packet.payload) s.lastRtpTimestamp packet.timestamp then
          RTPSendSession.onNackList t get now rttMs s rest
        else
          let interval := max (rttMs * 2 / 3).toNat t.config.minSameNackInterval.toNat
          let nacks := s.nacks.insert seqNum
          let info := (nacks.find seqNum).getD { time := 0, retransCount := 0 }
          if info.retransCount < maxRetransCount packet packetLen ∧
              interval < now - info.time then do
            let (s, again) ← RTPSendSession.onNackList t get now rttMs
              { s with nacks := nacks.retransmitted seqNum now } rest
            .ok (s, seqNum :: again)
          else RTPSendSession.onNackList t get now rttMs { s with nacks := nacks } rest

/-- `RTPSendSession::on_handle_rtcp`. -/
def RTPSendSession.onHandleRtcp (t : RTPSendTrans) (get : GetRtp) (rttMs : BitVec 32)
    (s : RTPSendSession) (info : RTCPPacketInformation) (now : Nat) :
    Except Fault (RTPSendSession × List Seq) := do
  let s : RTPSendSession := { s with ssrc := if s.ssrc = 0 then info.remoteSSRC else s.ssrc }
  let (s, again) ←
    if info.nack ∧ t.config.maxNacklstSize ≠ 0 then
      RTPSendSession.onNackList t get now rttMs s info.nackList
    else .ok (s, [])
  .ok ({ s with toRTPSession := s.toRTPSession.onHandleRtcp info now }, again)

/-- `RTPSendTrans::on_handle_rtcp`: the trans, and the packets to send again, for the video cache or
the audio cache. -/
def RTPSendTrans.onHandleRtcp (get : GetRtp) (rttMs : BitVec 32) (t : RTPSendTrans)
    (info : RTCPPacketInformation) (now : Nat) :
    Except Fault (RTPSendTrans × List (Bool × Seq)) :=
  if info.remoteSSRC = 0 ∨ t.isAlive = false then .ok (t, [])
  else
    let s := t.sessionsMap[info.remoteSSRC]?.getD RTPSendSession.new
    if s.closed then .ok (t, [])
    else do
      let (s, again) ← s.onHandleRtcp t get rttMs info now
      .ok ({ t with
             sessionsMap := t.sessionsMap.insert info.remoteSSRC s
             lastKeepliveTs := now },
           again.map fun seq => (s.payloadType == RTP_AV_H264, seq))

/-- A sender report. -/
structure SenderReport where
  ssrc : BitVec 32
  ntpSecs : BitVec 32
  ntpFrac : BitVec 32
  rtpTimestamp : BitVec 32
  octetCount : BitVec 32
  packetCount : BitVec 32
  deriving DecidableEq, Repr

/-- `send_sr` with the times of the uploader's report: the session, and the report if one is due. -/
def RTPSendSession.sendSr (cfg : RTPTransConfig) (now : Nat) (ntpSecs ntpFrac rtp : BitVec 32)
    (s : RTPSendSession) : RTPSendSession × Option SenderReport :=
  if (s.lastProcessSrts = 0 ∨ cfg.srRrInterval.toNat < now - s.lastProcessSrts) ∧
      (0 < ntpSecs ∨ 0 < ntpFrac) then
    ({ s with lastProcessSrts := now },
      if s.ssrc = 0 then none
      else some
        { ssrc := s.ssrc
          ntpSecs := ntpSecs
          ntpFrac := ntpFrac
          rtpTimestamp := rtp
          octetCount := s.totalRtpSendbytes.setWidth 32
          packetCount := s.totalRtpPacketcount })
  else (s, none)

/-- `RTPSendTrans::on_uploader_ntp`. -/
def RTPSendTrans.onUploaderNtp (now : Nat) (type : RTPAVType) (ntpSecs ntpFrac rtp : BitVec 32)
    (t : RTPSendTrans) : RTPSendTrans × List SenderReport :=
  t.sessionsMap.toList.foldl
    (fun (t, sent) (ssrc, s) =>
      if s.payloadType = type then
        let (s, sr) := s.sendSr t.config now ntpSecs ntpFrac rtp
        ({ t with sessionsMap := t.sessionsMap.insert ssrc s }, sent ++ sr.toList)
      else (t, sent))
    (t, [])

end RtcMcu.RtpTrans
