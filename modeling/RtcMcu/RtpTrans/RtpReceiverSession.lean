import RtcMcu.RtpTrans.RtpSession

/-!
# RTPRecvSession

`rtp_trans/rtp_receiver_session.cpp`: the session of one uploader and one ssrc. It marks what it
received, recovers a missing packet when a FEC packet lacks only that one, keeps the FEC packets
that cannot be used yet, and lists the numbers to ask for again.

A recovered packet lies in `_pkt_data`, and `recv_rtp` hands out a pointer to it. The model keeps
the pointer (`PktRef`) and reads through it where the code does, so that a buffer overwritten in
between shows. What the session reaches through `_parent` is `Parent`, over any state `σ`.
-/

namespace RtcMcu.RtpTrans

open RtcMcu.Avformat RtcMcu.Fragment RtcMcu.Parity

/-- `RTPRecvSession`. The history of sender reports only feeds the loss rate and is left out. -/
structure RTPRecvSession extends RTPSession where
  hisNacks : List Seq
  pendingFec : List RTPBlock

def RTPRecvSession.new : RTPRecvSession := { RTPSession.new with hisNacks := [], pendingFec := [] }

/-- An `RTP_FIXED_HEADER*`: memory the session does not write, or its own `_pkt_data`. -/
inductive PktRef
  | ext (pkt : Rtp)
  | own

/-- The packet a pointer points to. -/
def RTPRecvSession.deref (s : RTPRecvSession) : PktRef → Rtp
  | .ext pkt => pkt
  | .own => s.pktData

@[simp] theorem RTPRecvSession.deref_ext (s : RTPRecvSession) (pkt : Rtp) :
    s.deref (.ext pkt) = pkt := rfl

@[simp] theorem RTPRecvSession.deref_own (s : RTPRecvSession) : s.deref .own = s.pktData := rfl

/-- What the session reaches through `_parent`. `recvRtp` is given the length of the packet in the
session's `_pkt_data`, and the session itself, which it may enter again. -/
structure Parent (σ : Type) where
  getRtpBySsrcSeq : σ → Bool → Seq → Except Fault (Option Rtp × Nat)
  recvRtp : σ → RTPRecvSession → Nat → Except Fault (σ × RTPRecvSession)

/-- What a call of the session depends on besides its state. -/
structure RecvEnv where
  cfg : RTPTransConfig
  audioTimeBase : BitVec 32
  videoTimeBase : BitVec 32
  now : Nat

/-! ## The history -/

/-- `_pkt_history[i]`. An index past the array reads `_pkt_data`, which lies behind it. -/
def RTPRecvSession.historyAt (s : RTPRecvSession) (i : Nat) : Bool :=
  if i < 65536 then s.pktHistory (BitVec.ofNat 16 i) else byteAt s.pktData.bytes (i - 65536) != 0

/-- `_pkt_history[seq] = true`. -/
def RTPRecvSession.mark (s : RTPRecvSession) (seq : Seq) : RTPRecvSession :=
  { s with pktHistory := fun t => t == seq || s.pktHistory t }

/-- The start of a new turn: the history and the pending FEC packets go when a number just past
the wrap follows one just before it. -/
def RTPRecvSession.clearAtWrap (s : RTPRecvSession) (seq : Seq) : RTPRecvSession :=
  if seq < 50 ∧ 65500 < s.lastseq then { s with pktHistory := fun _ => false, pendingFec := [] }
  else s

/-! ## Recovering one packet -/

/-- The fields of the packet being recovered. -/
structure Recovering where
  csrcLen : BitVec 4
  extension : BitVec 1
  padding : BitVec 1
  marker : BitVec 1
  payload : RTPAVType
  length : BitVec 16
  timestamp : BitVec 32
  target : List Byte
  error : Nat

/-- One member of the group: xored out, or counted as an error when the cache has it not. -/
def Recovering.add (acc : Recovering) (t : Option Rtp) (tLen : Nat) : Except Fault Recovering :=
  match t with
  | none => .ok { acc with error := acc.error + 1 }
  | some t => do
    let data ← payloadBytes t tLen
    .ok { acc with
          csrcLen := acc.csrcLen ^^^ t.csrcLen
          extension := acc.extension ^^^ t.extension
          padding := acc.padding ^^^ t.padding
          marker := acc.marker ^^^ t.marker
          payload := acc.payload ^^^ t.payload
          length := acc.length ^^^ BitVec.ofNat 16 tLen
          timestamp := acc.timestamp ^^^ t.timestamp
          target := fecXor64 data acc.target (2048 - rtpHeaderLen) }

/-- The loop over the members. -/
def Recovering.addAll (get : Bool → Seq → Except Fault (Option Rtp × Nat)) (video : Bool)
    (acc : Recovering) (members : List Seq) : Except Fault Recovering :=
  members.foldlM (fun acc seq => do
    let (t, tLen) ← get video seq
    acc.add t tLen) acc

/-- The packet as it stands in `_pkt_data` after the loop. -/
def Recovering.packet (acc : Recovering) (seq : Seq) (ssrc : BitVec 32) (done : Bool) : Rtp where
  csrcLen := acc.csrcLen
  extension := acc.extension
  padding := acc.padding
  version := 2
  payload := if done then acc.payload else 0
  marker := acc.marker
  seq := seq
  timestamp := if done then acc.timestamp else 0
  ssrc := ssrc
  data := acc.target

/-- `memcpy(target_data, fec data, len - headers)` on the cleared `_pkt_data`. A length below the
headers' wraps around. What runs over the end falls in `_xor_tmp_data`, of 2048 bytes, and past that
on the fields behind it. -/
def copyFecData (data : List Byte) (len headers : Nat) : Except Fault (List Byte) :=
  if len < headers ∨ 2048 - rtpHeaderLen + 2048 < len - headers then .error .outOfBounds
  else .ok (copyOver (List.replicate (2048 - rtpHeaderLen) 0) (data.take (len - headers)))

/-- The end of `_recover_packet` and of `_f_recover_packet`: the packet counts as recovered if at
most one member was missing and its length and payload type are not zero. -/
def RTPRecvSession.finishRecovery (s : RTPRecvSession) (seq : Seq) (acc : Recovering) :
    RTPRecvSession × Option Nat :=
  if acc.error < 2 ∧ 0 < acc.length ∧ 0 < acc.payload then
    ({ s with
       pktData := acc.packet seq s.ssrc true
       fecRecoverCount := s.fecRecoverCount + 1
       nacks := s.nacks.erase seq }, some acc.length.toNat)
  else ({ s with pktData := acc.packet seq s.ssrc false }, none)

/-- `memset(_pkt_data, 0, 2048)` and the header fields set at once. -/
def RTPRecvSession.clearPktData (s : RTPRecvSession) (seq : Seq) : RTPRecvSession :=
  { s with pktData := { Rtp.zero with version := 2, seq := seq, ssrc := s.ssrc } }

/-- `_recover_packet`: the session, whose `_pkt_data` holds the result, and the result's length
if there is one. The buffer is cleared before the FEC packet is read. -/
def RTPRecvSession.recoverPacket (get : Bool → Seq → Except Fault (Option Rtp × Nat))
    (s : RTPRecvSession) (seq : Seq) (ref : PktRef) (len : Nat) :
    Except Fault (RTPRecvSession × Option Nat) := do
  let s := s.clearPktData seq
  let pkt := s.deref ref
  let fec := FecHeader.read pkt.data
  let ext := FecExtendHeader.read (byteAt pkt.data fecHeaderLen)
  let target ← copyFecData (pkt.data.drop (fecHeaderLen + fecExtendHeaderLen)) len
    (rtpHeaderLen + fecHeaderLen + fecExtendHeaderLen)
  let acc ← Recovering.addAll get (s.payloadType == RTP_AV_H264)
    { csrcLen := ext.csrcLen
      extension := ext.extension
      padding := ext.padding
      marker := ext.marker
      payload := fec.payload
      length := fec.lengthRecovery
      timestamp := fec.timestamp
      target := target
      error := 0 }
    (((List.range 24).filter fec.mask.getLsbD).map fun i => fec.snBase + BitVec.ofNat 16 i)
  .ok (s.finishRecovery seq acc)

/-- The distance of the members of a row or column group: `N` unless that is 0 or 255. -/
def fFecStep (fec : FFecHeader) : Nat :=
  if 0 < fec.n.toNat ∧ fec.n.toNat < 255 then fec.n.toNat else 1

/-- The numbers of a row or column group. -/
def fFecMembers (fec : FFecHeader) : List Seq :=
  (List.range fec.m.toNat).map fun i => fec.snBase + BitVec.ofNat 16 (i * fFecStep fec)

/-- `_f_recover_packet`. The flags of the first byte come from the RTP header of the FEC packet. -/
def RTPRecvSession.fRecoverPacket (get : Bool → Seq → Except Fault (Option Rtp × Nat))
    (s : RTPRecvSession) (seq : Seq) (ref : PktRef) (len : Nat) :
    Except Fault (RTPRecvSession × Option Nat) := do
  let s := s.clearPktData seq
  let pkt := s.deref ref
  let fec := FFecHeader.read pkt.data
  let target ← copyFecData (pkt.data.drop fFecHeaderLen) len (rtpHeaderLen + fFecHeaderLen)
  let acc ← Recovering.addAll get (s.payloadType == RTP_AV_H264)
    { csrcLen := pkt.csrcLen
      extension := pkt.extension
      padding := pkt.padding
      marker := fec.marker
      payload := fec.payload
      length := fec.lengthRecovery
      timestamp := fec.timestamp
      target := target
      error := 0 }
    (if fec.msk = 3 then fFecMembers fec else [])
  .ok (s.finishRecovery seq acc)

/-! ## Deciding whether a FEC packet can be used -/

/-- What an attempt with a FEC packet gives: nothing yet, nothing ever because the whole group is
there, or a packet of that length in `_pkt_data`. -/
inductive Attempt
  | notYet
  | useless
  | recovered (length : Nat)
  deriving DecidableEq, Repr

def Attempt.of : Option Nat → Attempt
  | none => .notYet
  | some length => .recovered length

/-- `_recover_with_fec`. The sum `i + sn_base` that indexes the history is not cut to 16 bits. -/
def RTPRecvSession.recoverWithFec (get : Bool → Seq → Except Fault (Option Rtp × Nat))
    (s : RTPRecvSession) (ref : PktRef) (len : Nat) :
    Except Fault (RTPRecvSession × Attempt) := do
  let fec := FecHeader.read (s.deref ref).data
  let needed := (List.range 24).filter fec.mask.getLsbD
  let missing := needed.filter fun i => !s.historyAt (i + fec.snBase.toNat)
  match missing with
  | [i] => do
    let (s, length) ← s.recoverPacket get (BitVec.ofNat 16 i + fec.snBase) ref len
    .ok (s, Attempt.of length)
  | _ => .ok (s, .notYet)

/-- `_recover_with_f_fec`. Only here does a group that is complete give a length, `fec_l`. -/
def RTPRecvSession.recoverWithFFec (get : Bool → Seq → Except Fault (Option Rtp × Nat))
    (s : RTPRecvSession) (ref : PktRef) (len : Nat) :
    Except Fault (RTPRecvSession × Attempt) := do
  let fec := FFecHeader.read (s.deref ref).data
  if fec.msk = 3 then
    let missing := (fFecMembers fec).filter fun seq => !s.pktHistory seq
    match missing with
    | [seq] => do
      let (s, length) ← s.fRecoverPacket get seq ref len
      .ok (s, Attempt.of length)
    | [] => .ok (s, if fec.m = 0 then .notYet else .useless)
    | _ => .ok (s, .notYet)
  else .ok (s, .notYet)

/-- The attempt with a FEC packet of either kind. -/
def RTPRecvSession.tryRecover (get : Bool → Seq → Except Fault (Option Rtp × Nat))
    (s : RTPRecvSession) (ref : PktRef) (len : Nat) :
    Except Fault (RTPRecvSession × Attempt) :=
  if (s.deref ref).payload = RTP_AV_FEC then s.recoverWithFec get ref len
  else s.recoverWithFFec get ref len

/-- The numbers of a FEC packet's group that are not marked, those it would recover. -/
def RTPRecvSession.missing (s : RTPRecvSession) (fec : Rtp) : List Seq :=
  if fec.payload = RTP_AV_FEC then
    let h := FecHeader.read fec.data
    (((List.range 24).filter h.mask.getLsbD).filter fun i =>
      !s.historyAt (i + h.snBase.toNat)).map fun i => BitVec.ofNat 16 i + h.snBase
  else
    let h := FFecHeader.read fec.data
    if h.msk = 3 then (fFecMembers h).filter fun seq => !s.pktHistory seq else []

/-- A media packet `seq` sets off no recovery: every pending FEC packet it has not overtaken lacks
none or several numbers. -/
def RTPRecvSession.quiet (s : RTPRecvSession) (seq : Seq) : Bool :=
  s.pendingFec.all fun block =>
    match block.get with
    | (some fec, _) => decide (seq - fec.seq < 0x8000#16) || (s.missing fec).length != 1
    | (none, _) => true

/-! ## _on_handle_rtp_fec -/

section Handle

variable {σ : Type} (parent : Parent σ)

/-- A recovered packet is marked and handed to `recv_rtp`. -/
def RTPRecvSession.handOver (st : σ) (s : RTPRecvSession) (length : Nat) :
    Except Fault (σ × RTPRecvSession) :=
  parent.recvRtp st (s.mark s.pktData.seq) length

/-- The walk over `_pending_fec` for a media packet `seq`: a FEC packet the media packet has
overtaken is discarded, one that recovers a packet goes and ends the walk, one whose group is
complete is discarded, the others stay. A block that holds nothing is never passed: the walk does
not end. `kept` are the blocks walked over. -/
def RTPRecvSession.scanPending (seq : Seq) (st : σ) (s : RTPRecvSession) (kept : List RTPBlock) :
    List RTPBlock → Except Fault (σ × RTPRecvSession × Bool)
  | [] => .ok (st, { s with pendingFec := kept }, false)
  | block :: rest =>
    match block.get with
    | (some fec, len) =>
      if seq - fec.seq < 0x8000#16 then RTPRecvSession.scanPending seq st s kept rest
      else do
        let (s, attempt) ← s.tryRecover (parent.getRtpBySsrcSeq st) (.ext fec) len
        match attempt with
        | .recovered length => do
          let (st, s) ← RTPRecvSession.handOver parent st
            { s with pendingFec := kept ++ rest } length
          .ok (st, s, true)
        | .useless => RTPRecvSession.scanPending seq st s kept rest
        | .notYet => RTPRecvSession.scanPending seq st s (kept ++ [block]) rest
    | (none, _) => .error .outOfFuel

/-- The loop `while (pkt)`: it goes on with the packet just recovered, and with the length of the
packet it began with. -/
def RTPRecvSession.fecLoop : Nat → σ → RTPRecvSession → PktRef → Nat →
    Except Fault (σ × RTPRecvSession)
  | 0, _, _, _, _ => .error .outOfFuel
  | fuel + 1, st, s, ref, len =>
    if isFec (s.deref ref).payload then do
      let (s, attempt) ← s.tryRecover (parent.getRtpBySsrcSeq st) ref len
      match attempt with
      | .recovered length => do
        let (st, s) ← RTPRecvSession.handOver parent st s length
        RTPRecvSession.fecLoop fuel st s .own len
      | _ => .ok (st, { s with
          pendingFec := s.pendingFec ++ [RTPBlock.new (some (s.deref ref)) len] })
    else do
      let seq := (s.deref ref).seq
      let s := s.mark seq
      let (st, s, again) ← RTPRecvSession.scanPending parent seq st s [] s.pendingFec
      if again then RTPRecvSession.fecLoop fuel st s .own len else .ok (st, s)

/-- `_on_handle_rtp_fec`. -/
def RTPRecvSession.onHandleRtpFec (fuel : Nat) (st : σ) (s : RTPRecvSession) (ref : PktRef)
    (len : Nat) : Except Fault (σ × RTPRecvSession) :=
  RTPRecvSession.fecLoop parent fuel st (s.clearAtWrap (s.deref ref).seq) ref len

end Handle

/-! ## _on_handle_rtp_nack -/

/-- `isHisNacklistTooOld` and the erasures it makes. -/
def evictHisNacks (cfg : RTPTransConfig) (seq : Seq) (his : List Seq) : List Seq :=
  his.dropWhile fun first => tooOld cfg seq first

/-- `_his_nacks.insert(seq)`, a `std::set` ordered by `SequenceNumberLessThan`. -/
def insertHisNack (his : List Seq) (seq : Seq) : List Seq :=
  his.takeWhile (seqLess · seq) ++ seq :: his.dropWhile (seqLess · seq)

/-- The numbers from `lastseq + 1` up to `seq`, without `seq`: the loop over `uint16_t i` while
`is_newer_seq(seq, i)`, which may wrap. -/
def gapNumbers (lastseq seq : Seq) : List Seq :=
  (List.range ((seq - lastseq).toNat - 1)).map fun j => lastseq + 1 + BitVec.ofNat 16 j

/-- The numbers of a gap that were not received go on the list. -/
def RTPRecvSession.nackGap (s : RTPRecvSession) (seq : Seq) : NackMap :=
  ((gapNumbers s.lastseq seq).filter fun i => !s.pktHistory i).foldl NackMap.insert s.nacks

/-- The head of `_on_handle_rtp_nack`: an unset `_lastseq`, which is 0, is set, and a timestamp
that jumps clears the lists. -/
def RTPRecvSession.startNack (timeBase : BitVec 32) (s : RTPRecvSession) (pkt : Rtp) :
    RTPRecvSession :=
  let s := if s.lastseq = 0 then { s with lastseq := pkt.seq } else s
  let s := if timestampJump timeBase pkt.timestamp s.lastRtpTimestamp then
      { s with
        hisNacks := []
        nacks := []
        extendMaxSeq := if pkt.seq < s.lastseq then s.extendMaxSeq + 1#32 <<< 16
          else s.extendMaxSeq
        lastseq := pkt.seq }
    else s
  { s with lastRtpTimestamp := pkt.timestamp }

/-- The two loops at the end, over `isNacklistToolarge` and over `isNacklistTooOld`. -/
def evictNacks (cfg : RTPTransConfig) (lastseq : Seq) (m : NackMap) : NackMap :=
  let fitting := if cfg.maxNacklstSize = 0 then m else m.drop (m.length - cfg.maxNacklstSize.toNat)
  fitting.dropWhile fun e => tooOld cfg lastseq e.1

/-- The part of `_on_handle_rtp_nack` for a packet that is no duplicate. -/
def RTPRecvSession.accountRtp (env : RecvEnv) (s : RTPRecvSession) (seq : Seq) (len : Nat) :
    RTPRecvSession :=
  let inOrder := isNewerSeq seq s.lastseq
  let listing := env.cfg.maxNacklstSize != 0
  let retrans := listing && !inOrder && (s.nacks.find seq).any fun e => 0 < e.time
  let s :=
    if listing then
      if inOrder then
        { s with nacks := s.nackGap seq, isDirty := true, lastNacksDirty := env.now }
      else { s with nacks := s.nacks.erase seq }
    else s
  let s :=
    if retrans then { s with retransNackRecoverCount := s.retransNackRecoverCount + 1 }
    else { s with totalRtpPacketcount := s.totalRtpPacketcount + 1 }
  let s :=
    if inOrder then
      { s with
        extendMaxSeq := if seq < s.lastseq then s.extendMaxSeq + 1#32 <<< 16 else s.extendMaxSeq
        lastseq := seq }
    else s
  { s with
    extendMaxSeq := (s.extendMaxSeq &&& 0xffff0000#32) ||| s.lastseq.setWidth 32
    nacks := evictNacks env.cfg s.lastseq s.nacks
    lastKeepliveTs := env.now
    fracRtpSendbytes := s.fracRtpSendbytes + BitVec.ofNat 32 len
    totalRtpSendbytes := s.totalRtpSendbytes + BitVec.ofNat 64 len }

/-- `_on_handle_rtp_nack`. -/
def RTPRecvSession.onHandleRtpNack (env : RecvEnv) (s : RTPRecvSession) (pkt : Rtp) (len : Nat) :
    RTPRecvSession :=
  let timeBase := if pkt.payload = RTP_AV_AAC then env.audioTimeBase else env.videoTimeBase
  let s := s.startNack timeBase pkt
  if s.hisNacks.contains pkt.seq then s
  else
    let s := { s with hisNacks := evictHisNacks env.cfg pkt.seq (insertHisNack s.hisNacks pkt.seq) }
    s.accountRtp env pkt.seq len

/-- `RTPSession::on_handle_rtp` of a receiver session. The payload type is read again after
`_on_handle_rtp_fec`. -/
def RTPRecvSession.onHandleRtp {σ : Type} (parent : Parent σ) (env : RecvEnv) (fuel : Nat) (st : σ)
    (s : RTPRecvSession) (ref : PktRef) (len : Nat) : Except Fault (σ × RTPRecvSession) := do
  let s : RTPRecvSession := { s with toRTPSession := s.toRTPSession.adopt (s.deref ref) }
  let (st, s) ← RTPRecvSession.onHandleRtpFec parent fuel st s ref len
  if isFec (s.deref ref).payload then .ok (st, s)
  else .ok (st, s.onHandleRtpNack env (s.deref ref) len)

end RtcMcu.RtpTrans
