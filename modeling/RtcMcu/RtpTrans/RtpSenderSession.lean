import RtcMcu.RtpTrans.RtpSession

/-!
# RTPSendSession

`rtp_trans/rtp_sender_session.cpp`: the session of one player and one ssrc. For each packet sent to
the player it may build FEC packets over packets of the cache: mask FEC when interleaving is
configured, row and column FEC otherwise.

The packets of the cache come from `_parent->get_rtp_by_ssrc_seq`, a function here. It leaves the
caller's `status_code` as it was, so that after it the test for `STATUS_SUCCESS` is always met.
-/

namespace RtcMcu.RtpTrans

open RtcMcu.Avformat RtcMcu.Fragment RtcMcu.Parity

/-- `get_rtp_by_ssrc_seq`: the video cache or the audio cache, a number, and the packet found with
its length. -/
abbrev GetRtp := Bool → Seq → Except Fault (Option Rtp × Nat)

/-- A packet handed to `send_fec` and its length. -/
abbrev Sent := Rtp × Nat

/-- `RTPSendSession`. The sender reports it remembers, for the round trip time, are left out. -/
structure RTPSendSession extends RTPSession where
  lastProcessSrts : Nat

def RTPSendSession.new : RTPSendSession := { RTPSession.new with lastProcessSrts := 0 }

/-! ## Summing up the packets of a group -/

/-- The running xor of the fields that both kinds of FEC protect. The first packet is copied, the
others are xored in; `rtpTimestamp` and `ssrc` are those of the FEC packet's own RTP header. -/
structure FecSum where
  isFirst : Bool
  payload : RTPAVType
  timestamp : BitVec 32
  length : BitVec 16
  mark : BitVec 1
  rtpTimestamp : BitVec 32
  ssrc : BitVec 32
  rtpPktLen : Nat
  fecData : List Byte

/-- Nothing summed up, `room` bytes of `_pkt_data` left for the data, all zero. -/
def FecSum.start (room : Nat) : FecSum where
  isFirst := true
  payload := 0
  timestamp := 0
  length := 0
  mark := 0
  rtpTimestamp := 0
  ssrc := 0
  rtpPktLen := 0
  fecData := List.replicate room 0

/-- One packet of the group. -/
def FecSum.add (ssrc : BitVec 32) (acc : FecSum) (t : Rtp) (tLen : Nat) : Except Fault FecSum := do
  let data ← payloadBytes t tLen
  if acc.isFirst then
    .ok { isFirst := false
          payload := t.payload
          timestamp := t.timestamp
          length := BitVec.ofNat 16 tLen
          mark := t.marker
          rtpTimestamp := t.timestamp
          ssrc := ssrc
          rtpPktLen := tLen
          fecData := copyOver acc.fecData data }
  else
    .ok { acc with
          payload := acc.payload ^^^ t.payload
          timestamp := acc.timestamp ^^^ t.timestamp
          length := acc.length ^^^ BitVec.ofNat 16 tLen
          mark := acc.mark ^^^ t.marker
          rtpPktLen := max acc.rtpPktLen tLen
          fecData := fecXor64 data acc.fecData (2048 - rtpHeaderLen) }

/-! ## Row and column FEC -/

/-- The geometry of a row or column group: `seq_base`, `fec_interleave`, `fec_count`, `M`, `N`. -/
structure FFecGroup where
  seqBase : Seq
  interleave : BitVec 16
  count : BitVec 16
  m : BitVec 8
  n : BitVec 8

/-- The group that the packet `seq` completes: a row if its number is a multiple of `fec_l`, else
a column. -/
def FFecGroup.of (cfg : RTPTransConfig) (seq : Seq) (row : Bool) : FFecGroup :=
  if row then
    { seqBase := seq - (cfg.fecL - 1).setWidth 16
      interleave := 1
      count := cfg.fecL.setWidth 16
      m := cfg.fecL.setWidth 8
      n := 0 }
  else
    { seqBase := seq - (cfg.fecD * (cfg.fecDL - 1)).setWidth 16
      interleave := cfg.fecD.setWidth 16
      count := cfg.fecDL.setWidth 16
      m := cfg.fecDL.setWidth 8
      n := cfg.fecD.setWidth 8 }

/-- The number of member `i`. -/
def FFecGroup.member (g : FFecGroup) (i : Nat) : Seq := g.seqBase + BitVec.ofNat 16 i * g.interleave

/-- The loop over the members. -/
def FFecGroup.sum (g : FFecGroup) (get : GetRtp) (video : Bool) (ssrc : BitVec 32) :
    Except Fault FecSum :=
  (List.range g.count.toNat).foldlM (fun acc i => do
    let (t, tLen) ← get video (g.member i)
    match t with
    | some t => acc.add ssrc t tLen
    | none => .ok acc) (FecSum.start (2048 - rtpHeaderLen - fFecHeaderLen))

/-- `_pkt_data` once the loop is done. -/
def FFecGroup.packet (g : FFecGroup) (sum : FecSum) : Rtp where
  csrcLen := 0
  extension := 0
  padding := 0
  version := 2
  payload := RTP_AV_F_FEC
  marker := 1
  seq := g.seqBase + g.interleave * (g.count - 1)
  timestamp := sum.rtpTimestamp
  ssrc := sum.ssrc
  data := (FFecHeader.mk 0 0 0 3 sum.payload sum.mark sum.length sum.timestamp g.seqBase g.m g.n).bytes
    ++ sum.fecData

/-- `_on_handle_rtp_f_fec`. The FEC packet goes out even if no member was found. -/
def RTPSendSession.onHandleRtpFFec (cfg : RTPTransConfig) (get : GetRtp) (s : RTPSendSession)
    (pkt : Rtp) : Except Fault (RTPSendSession × List Sent) :=
  if 1 < cfg.fecL ∧ 1 < cfg.fecDL ∧ 0 < cfg.fecD ∧ 0 < pkt.seq then
    let rFec := pkt.seq.setWidth 32 % cfg.fecL
    let cFec := (pkt.seq.setWidth 32 - 1) % cfg.fecD
    if rFec = 0 ∨ cFec = 0 then do
      let g := FFecGroup.of cfg pkt.seq (rFec == 0)
      let sum ← g.sum get (s.payloadType == RTP_AV_H264) s.ssrc
      let len := sum.rtpPktLen + fFecHeaderLen
      .ok ({ s with
             pktData := g.packet sum
             totalRtpSendbytes := s.totalRtpSendbytes + BitVec.ofNat 64 len },
        [(g.packet sum, len)])
    else .ok (s, [])
  else .ok (s, [])

/-! ## Mask FEC -/

/-- The sum of a mask-FEC group, with the xor of the first header bytes and the mask. -/
structure MaskSum where
  sum : FecSum
  flags : Byte
  mask : BitVec 32

def MaskSum.start : MaskSum where
  sum := FecSum.start (2048 - rtpHeaderLen - fecHeaderLen - fecExtendHeaderLen)
  flags := 0
  mask := 0

/-- One packet of the group, at bit `bit` of the mask. A shift by 32 or more counts modulo 32. -/
def MaskSum.add (ssrc : BitVec 32) (acc : MaskSum) (bit : Nat) (t : Rtp) (tLen : Nat) :
    Except Fault MaskSum := do
  let sum ← acc.sum.add ssrc t tLen
  .ok { sum := sum
        flags := if acc.sum.isFirst then t.byte0 else acc.flags ^^^ t.byte0
        mask := acc.mask ||| 1#32 <<< (bit % 32) }

/-- A mask-FEC group: `n` packets from `seqBase` on, `k` apart. -/
structure MaskGroup where
  seqBase : Seq
  n : Nat
  k : Nat

/-- The number of member `i`. -/
def MaskGroup.member (g : MaskGroup) (i : Nat) : Seq := g.seqBase + BitVec.ofNat 16 (i * g.k)

/-- The loop over the members. -/
def MaskGroup.sum (g : MaskGroup) (get : GetRtp) (video : Bool) (ssrc : BitVec 32) :
    Except Fault MaskSum :=
  (List.range g.n).foldlM (fun acc i => do
    let (t, tLen) ← get video (g.member i)
    match t with
    | some t => acc.add ssrc (i * g.k) t tLen
    | none => .ok acc) MaskSum.start

/-- `_pkt_data` once the loop is done. Its own number is `seq_base + fec_rtp_count - 1`. -/
def MaskGroup.packet (g : MaskGroup) (acc : MaskSum) : Rtp where
  csrcLen := 0
  extension := 0
  padding := 0
  version := 2
  payload := RTP_AV_FEC
  marker := 1
  seq := g.seqBase + BitVec.ofNat 16 g.n - 1
  timestamp := acc.sum.rtpTimestamp
  ssrc := acc.sum.ssrc
  data := (FecHeader.mk g.seqBase acc.sum.length acc.sum.payload 1 (acc.mask.setWidth 24)
      acc.sum.timestamp).bytes ++
    { FecExtendHeader.read acc.flags with marker := acc.sum.mark }.byte :: acc.sum.fecData

/-- The length of the packet that goes out. -/
def MaskSum.len (acc : MaskSum) : Nat := acc.sum.rtpPktLen + fecHeaderLen + fecExtendHeaderLen

/-- One round of the loop over the interleaved groups. -/
def RTPSendSession.sendMaskFec (get : GetRtp) (s : RTPSendSession) (g : MaskGroup) :
    Except Fault (RTPSendSession × List Sent) := do
  let acc ← g.sum get (s.payloadType == RTP_AV_H264) s.ssrc
  let s := { s with pktData := g.packet acc }
  if acc.sum.isFirst then .ok (s, [])
  else .ok ({ s with totalRtpSendbytes := s.totalRtpSendbytes + BitVec.ofNat 64 acc.len },
    [(g.packet acc, acc.len)])

/-- The rounds, one for each of the groups. -/
def RTPSendSession.sendMaskFecs (get : GetRtp) (s : RTPSendSession) :
    List MaskGroup → Except Fault (RTPSendSession × List Sent)
  | [] => .ok (s, [])
  | g :: gs => do
    let (s, sent) ← s.sendMaskFec get g
    let (s, rest) ← s.sendMaskFecs get gs
    .ok (s, sent ++ rest)

/-- The groups that the packet `seq` completes. -/
def maskGroups (n k : BitVec 32) (seq : Seq) : List MaskGroup :=
  (List.range k.toNat).map fun j =>
    { seqBase := seq - (n * k).setWidth 16 + 1 + BitVec.ofNat 16 j, n := n.toNat, k := k.toNat }

/-- `fec_rtp_count`: the number of packets in a group, which for AAC is fixed. -/
def maskFecCount (cfg : RTPTransConfig) (pkt : Rtp) : BitVec 32 :=
  if pkt.payload = RTP_AV_AAC then FEC_RTP_COUNT else cfg.fecRtpCount

/-- `_on_handle_rtp_fec`. `drop_video_rtp_packet` is switched off and returns false. -/
def RTPSendSession.onHandleRtpFec (cfg : RTPTransConfig) (get : GetRtp) (s : RTPSendSession)
    (pkt : Rtp) : Except Fault (RTPSendSession × List Sent) :=
  let n := maskFecCount cfg pkt
  let k := cfg.fecInterleavePackageVal
  if n = 0 then .ok (s, [])
  else if 0 < k then
    if 0 < pkt.seq then
      if k * n = 0 then .error .divideByZero
      else if pkt.seq.setWidth 32 % (k * n) = 0 then s.sendMaskFecs get (maskGroups n k pkt.seq)
      else .ok (s, [])
    else .ok (s, [])
  else s.onHandleRtpFFec cfg get pkt

/-! ## NACK -/

/-- `while (isNacklistToolarge() || isNacklistTooOld()) _nacks.erase(_nacks.begin())`. -/
def evictWhile (cfg : RTPTransConfig) (lastseq : Seq) : NackMap → NackMap
  | [] => []
  | e :: m =>
    if (cfg.maxNacklstSize != 0 && decide (cfg.maxNacklstSize.toNat < (e :: m).length)) ||
      tooOld cfg lastseq e.1
    then evictWhile cfg lastseq m else e :: m

/-- `_on_handle_rtp_nack`; `timeBase` is the video time base, for AAC the audio one. -/
def RTPSendSession.onHandleRtpNack (cfg : RTPTransConfig) (timeBase : BitVec 32)
    (s : RTPSendSession) (pkt : Rtp) (len : Nat) : RTPSendSession :=
  let s := { s with lastseq := if isNewerSeq s.lastseq pkt.seq then s.lastseq else pkt.seq }
  let s := if timestampJump timeBase s.lastRtpTimestamp pkt.timestamp
    then { s with nacks := [], lastseq := pkt.seq } else s
  { s with
    lastRtpTimestamp := pkt.timestamp
    fracRtpSendbytes := s.fracRtpSendbytes + BitVec.ofNat 32 len
    totalRtpSendbytes := s.totalRtpSendbytes + BitVec.ofNat 64 len
    totalRtpPacketcount := s.totalRtpPacketcount + 1
    nacks := evictWhile cfg s.lastseq s.nacks }

/-- `RTPSession::on_handle_rtp` of a sender session. -/
def RTPSendSession.onHandleRtp (cfg : RTPTransConfig) (get : GetRtp) (timeBase : BitVec 32)
    (s : RTPSendSession) (pkt : Rtp) (len : Nat) : Except Fault (RTPSendSession × List Sent) := do
  let s : RTPSendSession := { s with toRTPSession := s.toRTPSession.adopt pkt }
  let (s, sent) ← s.onHandleRtpFec cfg get pkt
  .ok (if isFec pkt.payload then s else s.onHandleRtpNack cfg timeBase pkt len, sent)

end RtcMcu.RtpTrans
