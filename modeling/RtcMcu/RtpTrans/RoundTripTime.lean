import RtcMcu.Lib.SmallestFirst
import RtcMcu.RtpTrans.LossReport
import RtcMcu.RtpTrans.RepairLink
import RtcMcu.Avformat.ReportRoundTrip

/-!
# The round trip time of a link

A sender session writes down when it sent each of its reports, in `_ntps`, under the time the report
carries. A receiver session answers with the time of the last report that came and how long ago that
was, and the sender session takes `_rtt_ms` from the answer: the time since the report was sent,
less the time the receiver held it.

Here the two sessions are at the ends of a link that loses, repeats and reorders datagrams, and
their clocks have nothing to do with each other. The link notes when each datagram was sent and
which report an answer is about; the code knows only the bytes.

Not modelled: the loss rate, a floating-point number, from which the fraction of a receiver report
comes, and what a receiver report says about losses.
-/

namespace RtcMcu.RtpTrans

open RtcMcu.Avformat RtcMcu.ConnectionManager Std

/-! ## Reports -/

/-- `RTP_CNAME`. -/
def RTP_CNAME : List Byte := ascii "laifeng.com"

/-- A report with the name behind it, as `SendRtcp` builds it into the room of its buffer. -/
def buildReport (body : Rtcp.Body) (ssrc : BitVec 32) : Except Fault (List Byte) := do
  let sdes ← Rtcp.Sdes.withCName ⟨[]⟩ ssrc RTP_CNAME
  ((Rtcp.RtcpPacket.mk body []).append (.mk (.sdes sdes) [])).createAndAddAppended []
    (2048 - packetHeadLen)

/-- What `send_sr` sends. -/
def SenderReport.build (report : SenderReport) : Except Fault (List Byte) :=
  buildReport (.senderReport (Rtcp.SenderReport.new report.ssrc report.ntpSecs report.ntpFrac
    report.rtpTimestamp report.packetCount report.octetCount)) report.ssrc

/-! ## The sender session -/

/-- `_ntps`: when each report was sent, by the low word of its time in milliseconds. -/
abbrev NtpTable := TreeMap (BitVec 32) Int

/-- `_ntps.rbegin()->first - _ntps.begin()->first > 60000`. -/
def NtpTable.farApart (ntps : NtpTable) : Bool :=
  match ntps.minKey?, ntps.maxKey? with
  | some first, some last => decide (60000 < (last - first).toNat)
  | _, _ => false

/-- The room `send_sr` makes: the smallest keys go until ten are left, and then all of them if the
first and the last lie more than a minute apart. -/
def NtpTable.trim (ntps : NtpTable) : NtpTable :=
  let ntps := dropSmallest (ntps.size - 10) ntps
  if NtpTable.farApart ntps then ∅ else ntps

/-- A sender session with what it measures the round trip time by. -/
structure ClockedSendSession extends RTPSendSession where
  ntps : NtpTable
  rttMs : BitVec 32

/-- The condition of `send_sr`. -/
def RTPSendSession.srDue (cfg : RTPTransConfig) (now : Nat) (ntpSecs ntpFrac : BitVec 32)
    (s : RTPSendSession) : Bool :=
  (s.lastProcessSrts = 0 ∨ cfg.srRrInterval.toNat < now - s.lastProcessSrts) ∧
    (0 < ntpSecs ∨ 0 < ntpFrac)

/-- `_rtt_ms` by one block: nothing if the report is not known. -/
def NtpTable.blockRtt (ntps : NtpTable) (ntpNow : Int) (block : Rtcp.RTCPReportBlock) : BitVec 32 :=
  let delayRrMs := block.delaySinceLastSR >>> 16
  match ntps[block.lastSR]? with
  | none => 0
  | some sent =>
    let timeUsed := ntpNow - sent
    if delayRrMs.toNat < timeUsed ∧ 0 < block.lastSR then
      BitVec.ofInt 32 (timeUsed - delayRrMs.toNat)
    else 0

namespace ClockedSendSession

/-- `on_uploader_ntp`, which is `send_sr` with the new time. -/
def onUploaderNtp (cfg : RTPTransConfig) (ntpToMs : BitVec 32 → BitVec 32 → Int) (now : Nat)
    (ntpNow : Int) (ntpSecs ntpFrac rtp : BitVec 32) (s : ClockedSendSession) :
    ClockedSendSession × Option SenderReport :=
  if s.toRTPSendSession.srDue cfg now ntpSecs ntpFrac then
    let (session, report) := s.toRTPSendSession.sendSr cfg now ntpSecs ntpFrac rtp
    ({ s with
       toRTPSendSession := session
       ntps := (NtpTable.trim s.ntps).insert (BitVec.ofInt 32 (ntpToMs ntpSecs ntpFrac)) ntpNow },
      report)
  else (s, none)

/-- `on_handle_rtcp`: the largest of the times the blocks give. -/
def onHandleRtcp (t : RTPSendTrans) (get : GetRtp) (transRttMs : BitVec 32) (ntpNow : Int)
    (s : ClockedSendSession) (info : Rtcp.RTCPPacketInformation) (now : Nat) :
    Except Fault (ClockedSendSession × List Seq) := do
  let (session, again) ←
    s.toRTPSendSession.onHandleRtcp t get transRttMs (sessionInfo info) now
  let s := { s with toRTPSendSession := session }
  let s :=
    if info.rtcpPacketTypeFlags &&& Rtcp.kRtcpRr ≠ 0 then
      { s with
        rttMs := info.reportBlocks.foldl
          (fun maxRtt block =>
            let rtt := NtpTable.blockRtt s.ntps ntpNow block
            if maxRtt < rtt then rtt else maxRtt) 0 }
    else s
  .ok (s, again)

end ClockedSendSession

/-! ## The receiver session -/

/-- A receiver session with what its reports say of the sender's. -/
structure ClockedRecvSession extends ReportingSession where
  lastSenderReport : BitVec 64
  lastProcessRrts : Nat

namespace ClockedRecvSession

/-- `on_handle_rtcp`. -/
def onHandleRtcp (ntpToMs : BitVec 32 → BitVec 32 → Int) (s : ClockedRecvSession)
    (info : Rtcp.RTCPPacketInformation) (now : Nat) : ClockedRecvSession where
  toReportingSession :=
    s.toReportingSession.onHandleRtcp (sessionInfo info) info.sendPacketCount now
  lastSenderReport :=
    if (sessionInfo info).sr then BitVec.ofInt 64 (ntpToMs info.ntpSecs info.ntpFrac)
    else s.lastSenderReport
  lastProcessRrts := s.lastProcessRrts

/-- The report block of `on_timer`. The delay is in milliseconds, shifted into the upper half of a
word. -/
def reportBlock (now : Nat) (fractionLost : Byte) (s : ClockedRecvSession) :
    Rtcp.RTCPPacketReportBlockItem where
  ssrc := s.ssrc
  fractionLost := fractionLost
  cumulativeNumOfPacketsLost := s.totalLostPacketCount
  extendedHighestSequenceNumber := s.extendMaxSeq
  jitter := 0
  lastSR := s.lastSenderReport.setWidth 32
  delayLastSR := BitVec.ofInt 32 (now - s.lastProcessSrts) <<< 16

/-- The part of `on_timer` that sends receiver reports. -/
def processRr (cfg : RTPTransConfig) (now : Nat) (fractionLost : Byte) (s : ClockedRecvSession) :
    Except Fault (ClockedRecvSession × Option (List Byte)) :=
  if s.lastProcessRrts = 0 ∨ cfg.srRrInterval.toNat < now - s.lastProcessRrts then
    let report := (Rtcp.ReceiverReport.new s.ssrc).withReportBlock (s.reportBlock now fractionLost)
    let s' := { s with lastProcessRrts := now }
    if s.ssrc = 0 then .ok (s', none)
    else do
      let rtcp ← buildReport (.receiverReport report) s.ssrc
      .ok (s', some rtcp)
  else .ok (s, none)

end ClockedRecvSession

/-! ## The link -/

/-- What stays the same: the configurations, the ssrc of the stream, and what the clocks show at
time 0. -/
structure ReportSetup where
  trans : RTPSendTrans
  receiver : RTPTransConfig
  ntpToMs : BitVec 32 → BitVec 32 → Int
  ssrc : BitVec 32
  ssrc_ne : ssrc ≠ 0
  senderClock : Nat
  senderNtp : Int
  receiverClock : Nat

/-- A sender report that was sent: its key in `_ntps`, when, and the packet. -/
structure SentReport where
  key : BitVec 32
  time : Nat
  rtcp : List Byte
  deriving DecidableEq

/-- The report that came last to the receiver, and when. -/
structure Heard where
  report : SentReport
  time : Nat
  deriving DecidableEq

/-- A receiver report that was sent. -/
structure SentAnswer where
  heard : Option Heard
  time : Nat
  rtcp : List Byte
  deriving DecidableEq

/-- The two sessions, and what was sent, the last first. -/
structure ReportLink where
  time : Nat
  sender : ClockedSendSession
  receiver : ClockedRecvSession
  heard : Option Heard
  reports : List SentReport
  answers : List SentAnswer

/-- Time passes; packets of the stream are counted; the uploader's time comes; a sender report
arrives; the receiver's timer runs; a receiver report arrives. -/
inductive ReportOp
  | wait (ms : Nat)
  | media (sendbytes : BitVec 64) (sent counted extendMaxSeq : BitVec 32)
  | uploaderNtp (ntpSecs ntpFrac rtp : BitVec 32)
  | reportArrives (used : Rtcp.RTCPPacketInformation) (report : SentReport)
  | timer (fractionLost : Byte)
  | answerArrives (used : Rtcp.RTCPPacketInformation) (get : GetRtp) (transRttMs : BitVec 32)
      (answer : SentAnswer)

namespace ReportLink

/-- Both sessions know the ssrc. -/
def new (setup : ReportSetup) : ReportLink where
  time := 0
  sender :=
    { RTPSendSession.new with
      ssrc := setup.ssrc
      ntps := ∅
      rttMs := 0 }
  receiver :=
    { ReportingSession.new with
      ssrc := setup.ssrc
      lastSenderReport := 0
      lastProcessRrts := 0 }
  heard := none
  reports := []
  answers := []

def media (sendbytes : BitVec 64) (sent counted extendMaxSeq : BitVec 32) (l : ReportLink) :
    ReportLink :=
  { l with
    sender :=
      { l.sender with
        totalRtpSendbytes := sendbytes
        totalRtpPacketcount := sent }
    receiver :=
      { l.receiver with
        totalRtpPacketcount := counted
        extendMaxSeq := extendMaxSeq } }

def uploaderNtp (setup : ReportSetup) (ntpSecs ntpFrac rtp : BitVec 32) (l : ReportLink) :
    Except Fault ReportLink :=
  let (sender, report) := l.sender.onUploaderNtp setup.trans.config setup.ntpToMs
    (setup.senderClock + l.time) (setup.senderNtp + l.time) ntpSecs ntpFrac rtp
  match report with
  | none => .ok { l with sender := sender }
  | some report => do
    let rtcp ← report.build
    let key := BitVec.ofInt 32 (setup.ntpToMs ntpSecs ntpFrac)
    .ok { l with
      sender := sender
      reports := { key := key, time := l.time, rtcp := rtcp } :: l.reports }

def reportArrives (setup : ReportSetup) (used : Rtcp.RTCPPacketInformation) (report : SentReport)
    (l : ReportLink) : Except Fault ReportLink := do
  let (_, info) ← Rtcp.parseRtcpPacket report.rtcp used.reset
  .ok { l with
    receiver := l.receiver.onHandleRtcp setup.ntpToMs info (setup.receiverClock + l.time)
    heard := some { report := report, time := l.time } }

def timer (setup : ReportSetup) (fractionLost : Byte) (l : ReportLink) : Except Fault ReportLink :=
  do
  let (receiver, rtcp) ← l.receiver.processRr setup.receiver (setup.receiverClock + l.time)
    fractionLost
  match rtcp with
  | none => .ok { l with receiver := receiver }
  | some rtcp =>
    .ok { l with
      receiver := receiver
      answers := { heard := l.heard, time := l.time, rtcp := rtcp } :: l.answers }

def answerArrives (setup : ReportSetup) (used : Rtcp.RTCPPacketInformation) (get : GetRtp)
    (transRttMs : BitVec 32) (answer : SentAnswer) (l : ReportLink) : Except Fault ReportLink := do
  let (_, info) ← Rtcp.parseRtcpPacket answer.rtcp used.reset
  let (sender, _) ← l.sender.onHandleRtcp setup.trans get transRttMs (setup.senderNtp + l.time)
    info (setup.senderClock + l.time)
  .ok { l with sender := sender }

def step (setup : ReportSetup) (l : ReportLink) : ReportOp → Except Fault ReportLink
  | .wait ms => .ok { l with time := l.time + ms }
  | .media sendbytes sent counted extendMaxSeq =>
    .ok (l.media sendbytes sent counted extendMaxSeq)
  | .uploaderNtp ntpSecs ntpFrac rtp => l.uploaderNtp setup ntpSecs ntpFrac rtp
  | .reportArrives used report => l.reportArrives setup used report
  | .timer fractionLost => l.timer setup fractionLost
  | .answerArrives used get transRttMs answer => l.answerArrives setup used get transRttMs answer

def run (setup : ReportSetup) (ops : List ReportOp) : Except Fault ReportLink :=
  ops.foldlM (step setup) (new setup)

end ReportLink

/-- What arrives was sent. -/
def ReportOp.Sound (l : ReportLink) : ReportOp → Prop
  | .reportArrives _ report => report ∈ l.reports
  | .answerArrives _ _ _ answer => answer ∈ l.answers
  | _ => True

/-! ## Reports through RTCP -/

section Wire

open Rtcp

theorem wellFormed_cnameChunk (ssrc : BitVec 32) : (cnameChunk ssrc RTP_CNAME).WellFormed where
  nullOctets := rfl
  length_name := show RTP_CNAME.length ≤ 255 by decide
  allowed := show RTP_CNAME.all RTCPParserV2.allowed = true by decide

/-- A report with any blocks has room. -/
theorem buildReport_ok (r : Report) (ssrc : BitVec 32) :
    buildReport r.body ssrc = .ok (r.bytes ++ sdesBytes (cnameChunk ssrc RTP_CNAME)) := by
  have hchunk := wellFormed_cnameChunk ssrc
  have hwords := r.words_le
  have hbytes := r.length_bytes
  have hchunkWords := hchunk.words_le
  have hlength := hchunk.length_eq
  have hroom : 2048 - packetHeadLen = 2024 := rfl
  have hname : Sdes.withCName ⟨[]⟩ ssrc RTP_CNAME = .ok ⟨[cnameChunk ssrc RTP_CNAME]⟩ := rfl
  have hblock : ∀ words, r.words = words →
      appendBlock (4 * (words + 1)) (BitVec.ofNat 8 r.blocks.length) r.type
        (r.head ++ createReportBlocks r.blocks) [] (2048 - packetHeadLen) = .ok r.bytes := by
    rintro _ rfl
    exact appendBlock_ok (by rw [List.length_nil]; omega) (by omega)
  have hreport : r.body.create [] (2048 - packetHeadLen) = .ok r.bytes := by
    cases r with
    | sender r =>
      have hlen : r.blockLength = 4 * ((Report.sender r).words + 1) := by
        show 28 + r.reportBlocks.length * 24 = 4 * (6 + 6 * r.reportBlocks.length + 1)
        omega
      show appendBlock r.blockLength r.sr.numberOfReportBlocks PT_SR _ _ _ = _
      rw [hlen, r.count]
      exact hblock _ rfl
    | receiver r =>
      have hlen : r.blockLength = 4 * ((Report.receiver r).words + 1) := by
        show 8 + r.reportBlocks.length * 24 = 4 * (1 + 6 * r.reportBlocks.length + 1)
        omega
      show appendBlock r.blockLength r.rr.numberOfReportBlocks PT_RR _ _ _ = _
      rw [hlen, r.count]
      exact hblock _ rfl
  have hsdes : Body.create r.bytes (2048 - packetHeadLen) (.sdes ⟨[cnameChunk ssrc RTP_CNAME]⟩) =
      .ok (r.bytes ++ sdesBytes (cnameChunk ssrc RTP_CNAME)) := by
    have hlen : Sdes.blockLength ⟨[cnameChunk ssrc RTP_CNAME]⟩ =
        4 * ((cnameChunk ssrc RTP_CNAME).words + 1) := by
      show 4 + (6 + _ + _ + 0) = _
      omega
    rw [Body.create, if_neg (List.cons_ne_nil _ _), hlen, List.flatMap_singleton]
    exact appendBlock_ok (by omega) (by omega)
  rw [buildReport, hname, ok_bind, RtcpPacket.append, List.nil_append,
    RtcpPacket.createAndAddAppended, hreport, ok_bind, RtcpPacket.addAppended,
    RtcpPacket.createAndAddAppended, hsdes]
  rfl

/-- What comes out of a report, whatever the information was used for before. -/
theorem parse_report (r : Report) (ssrc : BitVec 32)
    (hlost : ∀ block ∈ r.blocks, block.cumulativeNumOfPacketsLost.toNat < 2 ^ 24)
    (used : Rtcp.RTCPPacketInformation) :
    ∃ p info, parseRtcpPacket (r.bytes ++ sdesBytes (cnameChunk ssrc RTP_CNAME)) used.reset =
        .ok (p, info) ∧
      info.rtcpPacketTypeFlags = (addReport r used.reset).rtcpPacketTypeFlags ||| kRtcpSdes ∧
      info.ntpSecs = (addReport r used.reset).ntpSecs ∧
      info.ntpFrac = (addReport r used.reset).ntpFrac ∧
      info.reportBlocks = r.blocks.map (Rtcp.reportBlock r.senderSSRC) := by
  obtain ⟨p, hparse, -⟩ :=
    parseRtcpPacket_report r (wellFormed_cnameChunk ssrc) hlost used.reset
  rw [addReportInfo_foldl] at hparse
  refine ⟨p, _, hparse, rfl, rfl, rfl, ?_⟩
  show (addReport r used.reset).reportBlocks ++ _ = _
  rw [reportBlocks_addReport]
  exact List.nil_append _

/-- A sender report gives its time. -/
theorem parse_senderReport (report : SenderReport) :
    ∃ rtcp, report.build = .ok rtcp ∧ ∀ used : Rtcp.RTCPPacketInformation, ∃ p info,
      parseRtcpPacket rtcp used.reset = .ok (p, info) ∧ (sessionInfo info).sr = true ∧
      info.ntpSecs = report.ntpSecs ∧ info.ntpFrac = report.ntpFrac := by
  let r : Report := .sender (Rtcp.SenderReport.new report.ssrc report.ntpSecs report.ntpFrac
    report.rtpTimestamp report.packetCount report.octetCount)
  refine ⟨_, buildReport_ok r report.ssrc, fun used => ?_⟩
  obtain ⟨p, info, hparse, hflags, hsecs, hfrac, -⟩ := parse_report r report.ssrc nofun used
  refine ⟨p, info, hparse, ?_, hsecs, hfrac⟩
  have htype : info.rtcpPacketTypeFlags = 0 ||| kRtcpSr ||| kRtcpSdes := hflags
  show (info.rtcpPacketTypeFlags &&& kRtcpSr != 0) = true
  rw [htype]
  decide

/-- Three bytes are written of the loss. -/
theorem be24_low (x : BitVec 32) : be24 (BitVec.ofNat 32 (x.toNat % 2 ^ 24)) = be24 x := by
  have hbyte : ∀ i, i ≤ 16 → (BitVec.ofNat 32 (x.toNat % 2 ^ 24)).extractLsb' i 8 =
      x.extractLsb' i 8 := by
    intro i hi
    refine BitVec.eq_of_getLsbD_eq fun j hj => ?_
    rw [BitVec.getLsbD_extractLsb', BitVec.getLsbD_extractLsb', BitVec.getLsbD_ofNat,
      Nat.testBit_mod_two_pow, BitVec.testBit_toNat]
    have hlow : i + j < 24 := by omega
    have hword : i + j < 32 := by omega
    simp only [hj, hlow, hword, decide_true, Bool.true_and]
  rw [be24, be24, hbyte 16 (Nat.le_refl _), hbyte 8 (by decide), hbyte 0 (by decide)]

/-- A receiver report gives the time of the last sender report, and the delay. -/
theorem parse_receiverReport (ssrc : BitVec 32) (block : RTCPPacketReportBlockItem) :
    ∃ rtcp, buildReport (.receiverReport ((ReceiverReport.new ssrc).withReportBlock block)) ssrc =
        .ok rtcp ∧
      ∀ used : Rtcp.RTCPPacketInformation, ∃ p info b,
        parseRtcpPacket rtcp used.reset = .ok (p, info) ∧ (sessionInfo info).nack = false ∧
        info.rtcpPacketTypeFlags &&& kRtcpRr ≠ 0 ∧ info.reportBlocks = [b] ∧
        b.lastSR = block.lastSR ∧ b.delaySinceLastSR = block.delayLastSR := by
  let low : RTCPPacketReportBlockItem :=
    { block with
      cumulativeNumOfPacketsLost :=
        BitVec.ofNat 32 (block.cumulativeNumOfPacketsLost.toNat % 2 ^ 24) }
  let r : Report := .receiver ((ReceiverReport.new ssrc).withReportBlock block)
  let r' : Report := .receiver ((ReceiverReport.new ssrc).withReportBlock low)
  have hbytes : r'.bytes = r.bytes := by
    have hblock : reportBlockBytes low = reportBlockBytes block := by
      rw [reportBlockBytes, be24_low]
      rfl
    show headerBytes _ _ _ ++ (_ ++ (reportBlockBytes low ++ [])) = _
    rw [hblock]
    rfl
  refine ⟨_, buildReport_ok r ssrc, fun used => ?_⟩
  have hlost : ∀ b ∈ r'.blocks, b.cumulativeNumOfPacketsLost.toNat < 2 ^ 24 := by
    intro b hb
    rw [List.mem_singleton.mp (show b ∈ [low] from hb)]
    show (BitVec.ofNat 32 (block.cumulativeNumOfPacketsLost.toNat % 2 ^ 24)).toNat < 2 ^ 24
    rw [BitVec.toNat_ofNat]
    omega
  obtain ⟨p, info, hparse, hflags, -, -, hblocks⟩ := parse_report r' ssrc hlost used
  rw [hbytes] at hparse
  have htype : info.rtcpPacketTypeFlags = 0 ||| kRtcpRr ||| kRtcpSdes := hflags
  refine ⟨p, info, _, hparse, ?_, ?_, hblocks, rfl, rfl⟩
  · show (info.rtcpPacketTypeFlags &&& kRtcpNack != 0) = false
    rw [htype]
    decide
  · rw [htype]
    decide

end Wire

/-! ## Words -/

theorem setWidth_ofInt (x : Int) : (BitVec.ofInt 64 x).setWidth 32 = BitVec.ofInt 32 x := by
  apply BitVec.eq_of_toNat_eq
  rw [BitVec.toNat_setWidth, BitVec.toNat_ofInt, BitVec.toNat_ofInt]
  omega

/-- A difference goes through the upper half of a word and back: 16 bits of it are left. -/
theorem delay_back {now last : Nat} (h : last ≤ now) :
    ((BitVec.ofInt 32 (now - last) <<< 16) >>> 16).toNat = (now - last) % 65536 := by
  rw [← Int.ofNat_sub h, BitVec.toNat_ushiftRight, BitVec.toNat_shiftLeft, BitVec.toNat_ofInt,
    Nat.shiftLeft_eq, Nat.shiftRight_eq_div_pow]
  omega

/-! ## What the link keeps -/

/-- The packet of a sender report gives its key. -/
def SentReport.Carries (setup : ReportSetup) (report : SentReport) : Prop :=
  ∀ used : Rtcp.RTCPPacketInformation, ∃ p info,
    Rtcp.parseRtcpPacket report.rtcp used.reset = .ok (p, info) ∧ (sessionInfo info).sr = true ∧
    BitVec.ofInt 32 (setup.ntpToMs info.ntpSecs info.ntpFrac) = report.key

/-- What a block says of the last report that came. The delay is the low half of a word. -/
def Heard.Says (now : Nat) (lastSR delay : BitVec 32) : Option Heard → Prop
  | none => lastSR = 0
  | some heard =>
    lastSR = heard.report.key ∧ (delay >>> 16).toNat = (now - heard.time) % 65536

/-- The packet of a receiver report gives one block, which says what was heard. -/
def SentAnswer.Carries (answer : SentAnswer) : Prop :=
  ∀ used : Rtcp.RTCPPacketInformation, ∃ p info block,
    Rtcp.parseRtcpPacket answer.rtcp used.reset = .ok (p, info) ∧
    (sessionInfo info).nack = false ∧ info.rtcpPacketTypeFlags &&& Rtcp.kRtcpRr ≠ 0 ∧
    info.reportBlocks = [block] ∧
    Heard.Says answer.time block.lastSR block.delaySinceLastSR answer.heard

/-- A report that was sent, arrived, and then it is now. -/
structure Heard.Past (reports : List SentReport) (now : Nat) (heard : Heard) : Prop where
  mem : heard.report ∈ reports
  sent : heard.report.time ≤ heard.time
  arrived : heard.time ≤ now

/-- What the receiver session holds of the last report that came. -/
def ClockedRecvSession.Holds (setup : ReportSetup) (s : ClockedRecvSession) :
    Option Heard → Prop
  | none => s.lastSenderReport = 0
  | some heard => s.lastSenderReport.setWidth 32 = heard.report.key ∧
      s.lastProcessSrts = setup.receiverClock + heard.time

/-- What was sent lies in the past and its packets are what they are for; the sessions hold what
they sent and heard. -/
structure Timed (setup : ReportSetup) (l : ReportLink) : Prop where
  ssrc_ne : l.sender.ssrc ≠ 0
  ntps : ∀ k v, l.sender.ntps[k]? = some v →
    ∃ report ∈ l.reports, report.key = k ∧ v = setup.senderNtp + report.time
  reports : ∀ report ∈ l.reports, report.time ≤ l.time ∧ report.Carries setup
  holds : l.receiver.Holds setup l.heard
  heard : ∀ heard ∈ l.heard, heard.Past l.reports l.time
  answers : ∀ answer ∈ l.answers, answer.time ≤ l.time ∧ answer.Carries ∧
    ∀ heard ∈ answer.heard, heard.Past l.reports answer.time

namespace Timed

variable {setup : ReportSetup} {l : ReportLink}

theorem new (setup : ReportSetup) : Timed setup (ReportLink.new setup) where
  ssrc_ne := setup.ssrc_ne
  ntps k v h := by
    rw [show (ReportLink.new setup).sender.ntps[k]? = none from TreeMap.getElem?_emptyc] at h
    cases h
  reports _ h := absurd h List.not_mem_nil
  holds := rfl
  heard _ h := by cases h
  answers _ h := absurd h List.not_mem_nil

theorem wait (h : Timed setup l) (ms : Nat) : Timed setup { l with time := l.time + ms } where
  ssrc_ne := h.ssrc_ne
  ntps := h.ntps
  reports report hr :=
    ⟨Nat.le_trans (h.reports report hr).1 (Nat.le_add_right _ _), (h.reports report hr).2⟩
  holds := h.holds
  heard heard hh :=
    { h.heard heard hh with
      arrived := Nat.le_trans (h.heard heard hh).arrived (Nat.le_add_right _ _) }
  answers answer ha :=
    ⟨Nat.le_trans (h.answers answer ha).1 (Nat.le_add_right _ _), (h.answers answer ha).2⟩

theorem media (h : Timed setup l) (sendbytes : BitVec 64) (sent counted ext : BitVec 32) :
    Timed setup (l.media sendbytes sent counted ext) where
  ssrc_ne := h.ssrc_ne
  ntps := h.ntps
  reports := h.reports
  holds := by
    have hholds := h.holds
    show ClockedRecvSession.Holds setup _ l.heard
    cases hheard : l.heard <;> rw [hheard] at hholds <;> exact hholds
  heard := h.heard
  answers := h.answers

theorem getElem?_trim {ntps : NtpTable} {k : BitVec 32} {v : Int}
    (h : (NtpTable.trim ntps)[k]? = some v) : ntps[k]? = some v := by
  rw [NtpTable.trim] at h
  split at h
  · rw [TreeMap.getElem?_emptyc] at h
    cases h
  · exact getElem?_of_dropSmallest _ h

theorem sendSr_due {cfg : RTPTransConfig} {now : Nat} {ntpSecs ntpFrac : BitVec 32}
    {s : RTPSendSession} (hdue : s.srDue cfg now ntpSecs ntpFrac = true) (hssrc : s.ssrc ≠ 0)
    (rtp : BitVec 32) :
    s.sendSr cfg now ntpSecs ntpFrac rtp =
      ({ s with lastProcessSrts := now },
        some
          { ssrc := s.ssrc
            ntpSecs := ntpSecs
            ntpFrac := ntpFrac
            rtpTimestamp := rtp
            octetCount := s.totalRtpSendbytes.setWidth 32
            packetCount := s.totalRtpPacketcount }) := by
  rw [RTPSendSession.srDue, decide_eq_true_eq] at hdue
  rw [RTPSendSession.sendSr, if_pos hdue, if_neg hssrc]

/-- The time of the uploader comes: nothing changes, or a report is sent. -/
theorem uploaderNtp_cases (setup : ReportSetup) (hssrc : l.sender.ssrc ≠ 0)
    (ntpSecs ntpFrac rtp : BitVec 32) :
    l.uploaderNtp setup ntpSecs ntpFrac rtp = .ok l ∨
    ∃ session rtcp, session.ssrc = l.sender.ssrc ∧
      SentReport.Carries setup
        ⟨BitVec.ofInt 32 (setup.ntpToMs ntpSecs ntpFrac), l.time, rtcp⟩ ∧
      l.uploaderNtp setup ntpSecs ntpFrac rtp = .ok
        { l with
          sender :=
            { l.sender with
              toRTPSendSession := session
              ntps := (NtpTable.trim l.sender.ntps).insert
                (BitVec.ofInt 32 (setup.ntpToMs ntpSecs ntpFrac)) (setup.senderNtp + l.time) }
          reports := ⟨BitVec.ofInt 32 (setup.ntpToMs ntpSecs ntpFrac), l.time, rtcp⟩ ::
            l.reports } := by
  rw [ReportLink.uploaderNtp, ClockedSendSession.onUploaderNtp]
  by_cases hdue : l.sender.srDue setup.trans.config (setup.senderClock + l.time) ntpSecs ntpFrac
  · right
    rw [if_pos hdue, sendSr_due hdue hssrc]
    obtain ⟨rtcp, hbuild, hparse⟩ := parse_senderReport
      { ssrc := l.sender.ssrc
        ntpSecs := ntpSecs
        ntpFrac := ntpFrac
        rtpTimestamp := rtp
        octetCount := l.sender.totalRtpSendbytes.setWidth 32
        packetCount := l.sender.totalRtpPacketcount }
    refine ⟨{ l.sender.toRTPSendSession with lastProcessSrts := setup.senderClock + l.time }, rtcp,
      rfl, fun used => ?_, ?_⟩
    · obtain ⟨p, info, hok, hsr, hsecs, hfrac⟩ := hparse used
      exact ⟨p, info, hok, hsr, by rw [hsecs, hfrac]⟩
    · dsimp only
      rw [hbuild]
      rfl
  · left
    rw [if_neg hdue]

theorem uploaderNtp (h : Timed setup l) (ntpSecs ntpFrac rtp : BitVec 32) :
    ∃ l', l.uploaderNtp setup ntpSecs ntpFrac rtp = .ok l' ∧ Timed setup l' := by
  rcases uploaderNtp_cases setup h.ssrc_ne ntpSecs ntpFrac rtp with
    hnone | ⟨session, rtcp, hssrc, hcarries, hsome⟩
  · exact ⟨l, hnone, h⟩
  · refine ⟨_, hsome, ?_⟩
    constructor
    case ssrc_ne =>
      show session.ssrc ≠ 0
      rw [hssrc]
      exact h.ssrc_ne
    case ntps =>
      intro k v hk
      rw [TreeMap.getElem?_insert] at hk
      split at hk
      · rename_i heq
        rw [LawfulEqOrd.compare_eq_iff_eq] at heq
        exact ⟨_, List.mem_cons_self, heq, (Option.some.inj hk).symm⟩
      · obtain ⟨report, hmem, hkey, hv⟩ := h.ntps k v (getElem?_trim hk)
        exact ⟨report, List.mem_cons_of_mem _ hmem, hkey, hv⟩
    case reports =>
      intro report hmem
      rcases List.mem_cons.mp hmem with rfl | hmem
      · exact ⟨Nat.le_refl _, hcarries⟩
      · exact h.reports report hmem
    case holds => exact h.holds
    case heard =>
      intro heard hh
      have hpast := h.heard heard hh
      exact { hpast with mem := List.mem_cons_of_mem _ hpast.mem }
    case answers =>
      intro answer ha
      obtain ⟨htime, hsaid, hheard⟩ := h.answers answer ha
      refine ⟨htime, hsaid, fun heard hh => ?_⟩
      exact { hheard heard hh with mem := List.mem_cons_of_mem _ (hheard heard hh).mem }

theorem reportArrives (h : Timed setup l) (used : Rtcp.RTCPPacketInformation)
    {report : SentReport} (hmem : report ∈ l.reports) :
    ∃ l', l.reportArrives setup used report = .ok l' ∧ Timed setup l' := by
  obtain ⟨hsent, hcarries⟩ := h.reports report hmem
  obtain ⟨p, info, hparse, hsr, hkey⟩ := hcarries used
  refine ⟨_, by rw [ReportLink.reportArrives, hparse]; rfl, ?_⟩
  constructor
  case ssrc_ne => exact h.ssrc_ne
  case ntps => exact h.ntps
  case reports => exact h.reports
  case holds =>
    constructor
    · show (if (sessionInfo info).sr = true then _ else _ : BitVec 64).setWidth 32 = _
      rw [if_pos hsr, ← hkey]
      exact setWidth_ofInt _
    · show (ReportingSession.onHandleRtcp _ _ _ _).lastProcessSrts = _
      simp only [ReportingSession.onHandleRtcp, hsr, ↓reduceIte]
  case heard =>
    intro heard hh
    cases hh
    exact ⟨hmem, hsent, Nat.le_refl _⟩
  case answers => exact h.answers

/-- What the next receiver report says is what was heard. -/
theorem nextBlock (h : Timed setup l) (fractionLost : Byte) :
    Heard.Says l.time
      (l.receiver.reportBlock (setup.receiverClock + l.time) fractionLost).lastSR
      (l.receiver.reportBlock (setup.receiverClock + l.time) fractionLost).delayLastSR
      l.heard := by
  have hholds := h.holds
  cases hheard : l.heard with
  | none =>
    rw [hheard] at hholds
    show l.receiver.lastSenderReport.setWidth 32 = 0
    rw [hholds]
    rfl
  | some heard =>
    rw [hheard] at hholds
    obtain ⟨hkey, hsrts⟩ := hholds
    have harrived := (h.heard heard hheard).arrived
    refine ⟨hkey, ?_⟩
    show ((BitVec.ofInt 32 (↑(setup.receiverClock + l.time) - ↑l.receiver.lastProcessSrts) <<< 16)
      >>> 16).toNat = _
    rw [hsrts, delay_back (Nat.add_le_add_left harrived _), Nat.add_sub_add_left]

/-- The receiver's timer runs: it is not time yet, or the ssrc is not known, or a report is sent. -/
theorem timer (h : Timed setup l) (fractionLost : Byte) :
    ∃ l', l.timer setup fractionLost = .ok l' ∧ Timed setup l' := by
  rw [ReportLink.timer, ClockedRecvSession.processRr]
  by_cases hdue : l.receiver.lastProcessRrts = 0 ∨
      setup.receiver.srRrInterval.toNat <
        setup.receiverClock + l.time - l.receiver.lastProcessRrts
  · rw [if_pos hdue]
    have hholds : ClockedRecvSession.Holds setup
        { l.receiver with lastProcessRrts := setup.receiverClock + l.time } l.heard := by
      have hholds := h.holds
      cases hheard : l.heard <;> rw [hheard] at hholds <;> exact hholds
    by_cases hssrc : l.receiver.ssrc = 0
    · rw [if_pos hssrc]
      exact ⟨_, rfl, h.ssrc_ne, h.ntps, h.reports, hholds, h.heard, h.answers⟩
    · obtain ⟨rtcp, hbuild, hparse⟩ := parse_receiverReport l.receiver.ssrc
        (l.receiver.reportBlock (setup.receiverClock + l.time) fractionLost)
      rw [if_neg hssrc, hbuild]
      refine ⟨_, rfl, h.ssrc_ne, h.ntps, h.reports, hholds, h.heard, ?_⟩
      intro answer ha
      rcases List.mem_cons.mp ha with rfl | ha
      · refine ⟨Nat.le_refl _, fun used => ?_, h.heard⟩
        obtain ⟨p, info, block, hok, hnack, hrr, hblocks, hlast, hdelay⟩ := hparse used
        refine ⟨p, info, block, hok, hnack, hrr, hblocks, ?_⟩
        rw [hlast, hdelay]
        exact h.nextBlock fractionLost
      · exact h.answers answer ha
  · rw [if_neg hdue]
    exact ⟨_, rfl, h⟩

/-- A NACK aside, a message only wakes the session. -/
theorem onHandleRtcp_wakes (t : RTPSendTrans) (get : GetRtp) (rttMs : BitVec 32)
    (s : RTPSendSession) {info : RTCPPacketInformation} (hnack : info.nack = false) (now : Nat) :
    ∃ session, s.onHandleRtcp t get rttMs info now = .ok (session, []) ∧
      (s.ssrc ≠ 0 → session.ssrc = s.ssrc) := by
  have hno : ¬ (info.nack ∧ t.config.maxNacklstSize ≠ 0) := by
    rw [hnack]
    exact fun h => absurd h.1 Bool.false_ne_true
  refine ⟨_, by rw [RTPSendSession.onHandleRtcp, if_neg hno]; rfl, fun hssrc => ?_⟩
  show (if _ = (0 : BitVec 32) then _ else _) = _
  dsimp only
  rw [if_neg hssrc, if_neg hssrc]

/-- A receiver report arrives, with one block. -/
theorem answerArrives_eq (setup : ReportSetup) (hssrc : l.sender.ssrc ≠ 0)
    (used : Rtcp.RTCPPacketInformation) (get : GetRtp) (transRttMs : BitVec 32)
    {answer : SentAnswer} (hcarries : answer.Carries) :
    ∃ session block, session.ssrc = l.sender.ssrc ∧
      Heard.Says answer.time block.lastSR block.delaySinceLastSR answer.heard ∧
      l.answerArrives setup used get transRttMs answer = .ok
        { l with
          sender :=
            { l.sender with
              toRTPSendSession := session
              rttMs := NtpTable.blockRtt l.sender.ntps (setup.senderNtp + l.time) block } } := by
  obtain ⟨p, info, block, hparse, hnack, hrr, hblocks, hsaid⟩ := hcarries used
  obtain ⟨session, hsession, hkept⟩ := onHandleRtcp_wakes setup.trans get transRttMs
    l.sender.toRTPSendSession hnack (setup.senderClock + l.time)
  refine ⟨session, block, hkept hssrc, hsaid, ?_⟩
  rw [ReportLink.answerArrives, hparse, ok_bind]
  dsimp only
  rw [ClockedSendSession.onHandleRtcp, hsession, ok_bind]
  dsimp only
  rw [if_pos hrr, hblocks, List.foldl_cons, List.foldl_nil]
  have hmax : ∀ rtt : BitVec 32, (if 0 < rtt then rtt else 0) = rtt := by
    intro rtt
    split
    · rfl
    · rename_i hle
      exact (BitVec.le_antisymm (BitVec.not_lt.mp hle) (BitVec.le_def.mpr (Nat.zero_le _))).symm
  rw [hmax]
  rfl

theorem answerArrives (h : Timed setup l) (used : Rtcp.RTCPPacketInformation) (get : GetRtp)
    (transRttMs : BitVec 32) {answer : SentAnswer} (hmem : answer ∈ l.answers) :
    ∃ l', l.answerArrives setup used get transRttMs answer = .ok l' ∧ Timed setup l' := by
  obtain ⟨-, hcarries, -⟩ := h.answers answer hmem
  obtain ⟨session, block, hssrc, -, hok⟩ :=
    answerArrives_eq setup h.ssrc_ne used get transRttMs hcarries
  refine ⟨_, hok, ?_, h.ntps, h.reports, h.holds, h.heard, h.answers⟩
  show session.ssrc ≠ 0
  rw [hssrc]
  exact h.ssrc_ne

theorem step (h : Timed setup l) {op : ReportOp} (hsound : op.Sound l) :
    ∃ l', l.step setup op = .ok l' ∧ Timed setup l' := by
  cases op with
  | wait ms => exact ⟨_, rfl, h.wait ms⟩
  | media sendbytes sent counted ext => exact ⟨_, rfl, h.media sendbytes sent counted ext⟩
  | uploaderNtp ntpSecs ntpFrac rtp => exact h.uploaderNtp ntpSecs ntpFrac rtp
  | reportArrives used report => exact h.reportArrives used hsound
  | timer fractionLost => exact h.timer fractionLost
  | answerArrives used get transRttMs answer => exact h.answerArrives used get transRttMs hsound

end Timed

/-! ## Which reports are known -/

/-- The keys of the reports ascend, and of ten reports in a row the last is at most a minute behind
the first. -/
def Regular (reports : List SentReport) : Prop :=
  ∀ i j r r', reports[i]? = some r → reports[j]? = some r' → i < j →
    r'.key < r.key ∧ (j < i + 10 → (r.key - r'.key).toNat ≤ 60000)

theorem Regular.tail {report : SentReport} {reports : List SentReport}
    (h : Regular (report :: reports)) : Regular reports := by
  intro i j r r' hi hj hlt
  obtain ⟨hkey, hspan⟩ := h (i + 1) (j + 1) r r' hi hj (Nat.succ_lt_succ hlt)
  exact ⟨hkey, fun hnear => hspan (by omega)⟩

/-- `_ntps` holds the last eleven reports. -/
def Kept (l : ReportLink) : Prop :=
  Regular l.reports → Holds l.sender.ntps ((l.reports.take 11).map (·.key))

/-- The last ten reports stay. -/
theorem trim_holds {ntps : NtpTable} {reports : List SentReport} (hspaced : Regular reports)
    (h : Holds ntps ((reports.take 11).map (·.key))) :
    Holds (NtpTable.trim ntps) ((reports.take 10).map (·.key)) := by
  have hdrop := h.dropSmallest (ntps.size - 10)
  rw [h.size_eq, List.length_map, List.length_take, ← List.map_take, List.take_take] at hdrop
  have hten : (reports.take (min (min 11 reports.length -
      (min 11 reports.length - 10)) 11)) = reports.take 10 := by
    rcases Nat.lt_or_ge reports.length 10 with hfew | hmany
    · rw [List.take_of_length_le (Nat.le_of_lt hfew), List.take_of_length_le (by omega)]
    · congr 1
      omega
  rw [hten] at hdrop
  have hnear : NtpTable.farApart (dropSmallest (ntps.size - 10) ntps) = false := by
    rw [h.size_eq, List.length_map, List.length_take, NtpTable.farApart, hdrop.minKey?,
      hdrop.maxKey?, List.getLast?_map, List.head?_map]
    cases hlast : (reports.take 10).getLast? with
    | none => rfl
    | some last =>
      cases hfirst : (reports.take 10).head? with
      | none => rfl
      | some first =>
        refine decide_eq_false (Nat.not_lt.mpr ?_)
        rw [List.getLast?_eq_getElem?] at hlast
        rw [List.head?_eq_getElem?] at hfirst
        have hlt := (List.getElem?_eq_some_iff.mp hlast).1
        have hten := List.length_take_le 10 reports
        rw [List.getElem?_take_of_lt (by omega)] at hlast hfirst
        rcases Nat.eq_zero_or_pos ((reports.take 10).length - 1) with hone | hmore
        · rw [hone, hfirst] at hlast
          cases hlast
          rw [BitVec.sub_self]
          exact Nat.zero_le _
        · exact (hspaced 0 _ first last hfirst hlast hmore).2 (by omega)
  show Holds (if NtpTable.farApart _ = true then _ else _) _
  rw [hnear, if_neg Bool.false_ne_true, h.size_eq, List.length_map, List.length_take]
  exact hdrop

theorem Kept.of_eq {l l' : ReportLink} (h : Kept l) (hsender : l'.sender = l.sender)
    (hreports : l'.reports = l.reports) : Kept l' := by
  rw [Kept, hsender, hreports]
  exact h

/-- The timer leaves the sender's side alone. -/
theorem timer_frame {setup : ReportSetup} {l l' : ReportLink} {fractionLost : Byte}
    (hstep : l.timer setup fractionLost = .ok l') :
    l'.sender = l.sender ∧ l'.reports = l.reports := by
  rw [ReportLink.timer] at hstep
  obtain ⟨⟨receiver, rtcp⟩, -, hrest⟩ := bind_eq_ok.mp hstep
  cases rtcp with
  | none =>
    cases hrest
    exact ⟨rfl, rfl⟩
  | some rtcp =>
    cases hrest
    exact ⟨rfl, rfl⟩

theorem Kept.step {setup : ReportSetup} {l l' : ReportLink} {op : ReportOp} (h : Kept l)
    (htimed : Timed setup l) (hsound : op.Sound l) (hstep : l.step setup op = .ok l') :
    Kept l' := by
  cases op with
  | wait ms =>
    cases hstep
    exact h
  | media sendbytes sent counted ext =>
    cases hstep
    exact h
  | uploaderNtp ntpSecs ntpFrac rtp =>
    rcases Timed.uploaderNtp_cases setup htimed.ssrc_ne ntpSecs ntpFrac rtp with
      hnone | ⟨session, rtcp, -, -, hsome⟩
    · cases hnone.symm.trans hstep
      exact h
    · cases hsome.symm.trans hstep
      intro hspaced
      have hbelow : ∀ key ∈ (l.reports.take 10).map (·.key),
          compare key (BitVec.ofInt 32 (setup.ntpToMs ntpSecs ntpFrac)) = .lt := by
        intro key hkey
        obtain ⟨r, hr, rfl⟩ := List.mem_map.mp hkey
        obtain ⟨i, hi⟩ := List.mem_iff_getElem?.mp (List.mem_of_mem_take hr)
        have hlt := (hspaced 0 (i + 1) _ r rfl hi (Nat.succ_pos i)).1
        exact compareOfLessAndEq_eq_lt.mpr hlt
      exact (trim_holds hspaced.tail (h hspaced.tail)).insert hbelow _
  | reportArrives used report =>
    obtain ⟨p, info, hparse, -, -⟩ := (htimed.reports report hsound).2 used
    rw [ReportLink.step, ReportLink.reportArrives, hparse] at hstep
    cases hstep
    exact h
  | timer fractionLost =>
    obtain ⟨hsender, hreports⟩ := timer_frame hstep
    exact h.of_eq hsender hreports
  | answerArrives used get transRttMs answer =>
    obtain ⟨session, block, -, -, hok⟩ := Timed.answerArrives_eq setup htimed.ssrc_ne used
      get transRttMs (htimed.answers answer hsound).2.1
    cases hok.symm.trans hstep
    exact h

/-! ## The time that is measured -/

/-- Both ways, and of the time in between the whole multiples of 65536 ms, which the delay in the
answer has no room for. -/
def measured (heard : Heard) (answer : SentAnswer) (now : Nat) : Nat :=
  (heard.time - heard.report.time) + (now - answer.time) +
    (answer.time - heard.time) / 65536 * 65536

/-- A report that is not known gives no time. -/
theorem blockRtt_unknown {ntps : NtpTable} {ntpNow : Int} {block : Rtcp.RTCPReportBlock}
    (h : ntps[block.lastSR]? = none) : NtpTable.blockRtt ntps ntpNow block = 0 := by
  rw [NtpTable.blockRtt, h]

theorem blockRtt_zero (ntps : NtpTable) (ntpNow : Int) {block : Rtcp.RTCPReportBlock}
    (h : block.lastSR = 0) : NtpTable.blockRtt ntps ntpNow block = 0 := by
  rw [NtpTable.blockRtt]
  dsimp only
  cases ntps[block.lastSR]? with
  | none => rfl
  | some sent =>
    dsimp only
    rw [if_neg]
    rintro ⟨-, hpos⟩
    rw [h] at hpos
    exact BitVec.lt_irrefl _ hpos

/-- The time of a report that is known. -/
theorem blockRtt_known {ntps : NtpTable} {start : Int} {now : Nat} {block : Rtcp.RTCPReportBlock}
    {heard : Heard} {answer : SentAnswer}
    (hsaid : Heard.Says answer.time block.lastSR block.delaySinceLastSR (some heard))
    (hknown : ntps[heard.report.key]? = some (start + heard.report.time))
    (hkey : heard.report.key ≠ 0) (hsent : heard.report.time ≤ heard.time)
    (harrived : heard.time ≤ answer.time) (hback : answer.time ≤ now) :
    NtpTable.blockRtt ntps (start + now) block = BitVec.ofNat 32 (measured heard answer now) := by
  obtain ⟨hlast, hdelay⟩ := hsaid
  have hpos : 0 < block.lastSR := by
    rw [hlast, BitVec.lt_def]
    exact Nat.pos_of_ne_zero fun hzero => hkey (BitVec.eq_of_toNat_eq hzero)
  have hused : start + (now : Int) - (start + heard.report.time) =
      ((now - heard.report.time : Nat) : Int) := by omega
  rw [NtpTable.blockRtt, hlast, hknown]
  dsimp only
  rw [hdelay, hused, ← hlast, measured]
  split
  · rename_i hlt
    rw [← Int.ofNat_sub (by omega), BitVec.ofInt_natCast]
    congr 1
    omega
  · rename_i hnot
    have hle : now - heard.report.time ≤ (answer.time - heard.time) % 65536 := by
      by_contra hgt
      exact hnot ⟨by omega, hpos⟩
    have hzero : (heard.time - heard.report.time) + (now - answer.time) +
        (answer.time - heard.time) / 65536 * 65536 = 0 := by omega
    rw [hzero]
    rfl

/-- Runs keep what the link keeps. -/
theorem Timed.run {setup : ReportSetup} {ops : List ReportOp}
    (hsound : Along (ReportLink.step setup) ReportOp.Sound (ReportLink.new setup) ops) :
    ∃ l, ReportLink.run setup ops = .ok l ∧ Timed setup l ∧ Kept l := by
  have hkept : Kept (ReportLink.new setup) := fun _ => Holds.empty
  have htimed := Timed.new setup
  rw [ReportLink.run]
  generalize ReportLink.new setup = l at hsound hkept htimed
  induction ops generalizing l with
  | nil => exact ⟨l, rfl, htimed, hkept⟩
  | cons op ops ih =>
    obtain ⟨hop, hrest⟩ := hsound
    obtain ⟨l', hstep, htimed'⟩ := htimed.step hop
    obtain ⟨l'', hrun, hfinal⟩ :=
      ih l' (hrest l' hstep) (hkept.step htimed hop hstep) htimed'
    exact ⟨l'', by rw [List.foldlM_cons, hstep]; exact hrun, hfinal⟩

/-- Over a link that loses, repeats and reorders reports, an answer that arrives gives no time, or
the time its report and it took to come and go, whatever the clocks show, as long as no two reports
have one time; and it gives the time if it is about one of the last eleven reports and their times
ascend slowly. Of the time between the two, multiples of 65536 ms are counted in. -/
theorem round_trip_time (setup : ReportSetup) {ops : List ReportOp}
    (hsound : Along (ReportLink.step setup) ReportOp.Sound (ReportLink.new setup) ops) :
    ∃ l, ReportLink.run setup ops = .ok l ∧ ∀ answer ∈ l.answers, ∀ used get transRttMs,
      ∃ l', l.step setup (.answerArrives used get transRttMs answer) = .ok l' ∧
        (answer.heard = none → l'.sender.rttMs = 0) ∧
        ∀ heard, answer.heard = some heard →
          heard.report.time ≤ heard.time ∧ heard.time ≤ answer.time ∧ answer.time ≤ l.time ∧
          (heard.report.key ≠ 0 →
            (∀ report ∈ l.reports, report.key = heard.report.key → report = heard.report) →
            (l'.sender.rttMs = 0 ∨
              l'.sender.rttMs = BitVec.ofNat 32 (measured heard answer l.time)) ∧
            (Regular l.reports → heard.report ∈ l.reports.take 11 →
              l'.sender.rttMs = BitVec.ofNat 32 (measured heard answer l.time))) := by
  obtain ⟨l, hrun, htimed, hkept⟩ := Timed.run hsound
  refine ⟨l, hrun, fun answer hmem used get transRttMs => ?_⟩
  obtain ⟨hback, hcarries, hpast⟩ := htimed.answers answer hmem
  obtain ⟨session, block, -, hsaid, hok⟩ :=
    Timed.answerArrives_eq setup htimed.ssrc_ne used get transRttMs hcarries
  refine ⟨_, hok, fun hnone => ?_, fun heard hheard => ?_⟩
  · rw [hnone] at hsaid
    exact blockRtt_zero _ _ hsaid
  · rw [hheard] at hsaid
    obtain ⟨hreport, hsent, harrived⟩ := hpast heard hheard
    refine ⟨hsent, harrived, hback, fun hkey hown => ?_⟩
    have hknown : ∀ v, l.sender.ntps[heard.report.key]? = some v →
        NtpTable.blockRtt l.sender.ntps (setup.senderNtp + l.time) block =
          BitVec.ofNat 32 (measured heard answer l.time) := by
      intro v hv
      obtain ⟨report, hmem, hsame, rfl⟩ := htimed.ntps _ v hv
      rw [hown report hmem hsame] at hv
      exact blockRtt_known hsaid hv hkey hsent harrived hback
    constructor
    · cases hfind : l.sender.ntps[heard.report.key]? with
      | none => exact .inl (blockRtt_unknown (hsaid.1 ▸ hfind))
      | some v => exact .inr (hknown v hfind)
    · intro hregular hrecent
      have hholds := (hkept hregular).mem_iff heard.report.key
      have hin : heard.report.key ∈ l.sender.ntps :=
        hholds.mpr (List.mem_map_of_mem hrecent)
      exact hknown _ (TreeMap.getElem?_eq_some_getElem hin)

instance (l : ReportLink) : (op : ReportOp) → Decidable (op.Sound l)
  | .wait _ => .isTrue trivial
  | .media .. => .isTrue trivial
  | .uploaderNtp .. => .isTrue trivial
  | .reportArrives _ report => inferInstanceAs (Decidable (report ∈ l.reports))
  | .timer _ => .isTrue trivial
  | .answerArrives _ _ _ answer => inferInstanceAs (Decidable (answer ∈ l.answers))

/-- Clocks that show different times. -/
def shortReports : ReportSetup where
  trans := RTPTrans.new RTPTransConfig.default 0
  receiver := RTPTransConfig.default
  ntpToMs secs frac := 1000 * secs.toNat + (frac.toNat * 1000 + 2 ^ 31) / 2 ^ 32
  ssrc := 7
  ssrc_ne := by decide
  senderClock := 5000
  senderNtp := 3900000000000
  receiverClock := 1

/-- A report of the first second. -/
def shortReport : SentReport where
  key := 1000
  time := 0
  rtcp := ((SenderReport.mk 7 1 0 90000 0 0).build.toOption).getD []

/-- The answer to it, 70 seconds behind its arrival. -/
def shortAnswer : SentAnswer where
  heard := some ⟨shortReport, 40⟩
  time := 70040
  rtcp := (buildReport (.receiverReport ((Rtcp.ReceiverReport.new 7).withReportBlock
    ⟨7, 0, 0, 0, 0, 1000, 70000 <<< 16⟩)) 7).toOption.getD []

/-- Parsed before. -/
def freshInfo : Rtcp.RTCPPacketInformation :=
  ⟨0, 0, [], 0, 0, [], [], 0, 0, 0, 0, 0, 0, 0, []⟩

/-- The report takes 40 ms, and the answer 30. -/
def shortExchange : List ReportOp :=
  [.uploaderNtp 1 0 90000, .wait 40, .reportArrives freshInfo shortReport, .wait 70000, .timer 0,
    .wait 30]

/-- The way there and back takes 70 ms, and 65536 ms of the 70 seconds in between are counted in. -/
theorem round_trip_time_short :
    ∃ l l', ReportLink.run shortReports shortExchange = .ok l ∧
      l.step shortReports (.answerArrives freshInfo (fun _ _ => .ok (none, 0)) 0 shortAnswer) =
        .ok l' ∧
      l'.sender.rttMs = 70 + 65536 := by
  have hsound : alongCheck (ReportLink.step shortReports) (fun l op => decide (op.Sound l))
      (ReportLink.new shortReports) shortExchange = true := by decide +kernel
  have hfinal : (ReportLink.run shortReports shortExchange).map
      (fun l => (l.time, l.reports, l.answers)) = .ok (70070, [shortReport], [shortAnswer]) := by
    decide +kernel
  obtain ⟨l, hrun, hall⟩ := round_trip_time shortReports
    (Along.of_check (fun _ _ h => of_decide_eq_true h) shortExchange hsound)
  rw [hrun] at hfinal
  obtain ⟨htime, hreports, hanswers⟩ : l.time = 70070 ∧ l.reports = [shortReport] ∧
      l.answers = [shortAnswer] := by
    have htuple := Except.ok.inj hfinal
    exact ⟨congrArg (·.1) htuple, congrArg (·.2.1) htuple, congrArg (·.2.2) htuple⟩
  obtain ⟨l', hstep, -, hmeasured⟩ := hall shortAnswer (hanswers ▸ List.mem_singleton_self _)
    freshInfo (fun _ _ => .ok (none, 0)) 0
  obtain ⟨-, -, -, hexact⟩ := hmeasured ⟨shortReport, 40⟩ rfl
  have hown : ∀ report ∈ l.reports, report.key = shortReport.key → report = shortReport :=
    fun report hmem _ => List.mem_singleton.mp (hreports ▸ hmem)
  have hregular : Regular l.reports := by
    intro i j r r' hi hj hlt
    rw [hreports] at hj
    have hfew := (List.getElem?_eq_some_iff.mp hj).1
    rw [List.length_singleton] at hfew
    omega
  have hrtt := (hexact (by decide) hown).2 hregular (hreports ▸ List.mem_cons_self)
  rw [htime] at hrtt
  exact ⟨l, l', hrun, hstep, hrtt⟩

end RtcMcu.RtpTrans
