import RtcMcu.Avcodec.NalUnits
import RtcMcu.ConnectionManager.Framing
import RtcMcu.Streamid
import RtcMcu.Util.BufferQueue

/-!
# Messages as they are written

The encoders of `cmd_protocol/proto.c`, and the messages `SendRtp` and `SendRtcp` put together. A
message is its command and its body, behind a header that declares the length of both.

A request is appended to a buffer piece by piece, and no call is asked whether it had room. Where
there is room for all of it, the other side acts on the request and reads every field back
(`request_read_back`).
-/

namespace RtcMcu.CmdProtocol

open RtcMcu.Avcodec RtcMcu.Avformat RtcMcu.ConnectionManager RtcMcu.Coupling RtcMcu.Fifo
  RtcMcu.MediaManager RtcMcu.Streamid RtcMcu.Util

/-! ## Bytes -/

def MAGIC_1 : Byte := 0xff

/-- The sixteen bytes of a stream's id. -/
def streamIdBytes (id : StreamId) : List Byte := (List.range 16).map (idChar id)

/-- A 64-bit value behind `util_ntohll`. -/
def be64 (x : BitVec 64) : List Byte := be32 (x.extractLsb' 32 32) ++ be32 (x.extractLsb' 0 32)

/-- `encode_header_uint8`. -/
def encodeHeaderUint8 (cmd : BitVec 16) (size : BitVec 32) : List Byte :=
  MAGIC_1 :: VER_1 :: (be16 cmd ++ be32 size)

/-- A message on the wire. -/
def frame (m : Message) : List Byte :=
  encodeHeaderUint8 m.cmd (BitVec.ofNat 32 (protoHeaderLen + m.body.length)) ++ m.body

/-- The header of a message. -/
def headerOf (m : Message) : ProtoHeader where
  magic := MAGIC_1
  version := VER_1
  cmd := m.cmd
  size := BitVec.ofNat 32 (protoHeaderLen + m.body.length)

/-! ## Requests and answers -/

/-- `rtp_u2r_req_state`. -/
structure RtpU2rReqState where
  version : BitVec 32
  streamid : StreamId
  userId : BitVec 64
  token : Vector Byte 32
  payloadType : Byte

/-- `rtp_d2p_req_state`. -/
structure RtpD2pReqState where
  version : BitVec 32
  streamid : StreamId
  token : Vector Byte 32
  payloadType : Byte
  useragent : Vector Byte 128

/-- `rtp_u2r_rsp_state` and `rtp_d2p_rsp_state`. -/
structure RtpRspState where
  version : BitVec 32
  streamid : StreamId
  result : BitVec 16

def U2R_RESULT_SUCCESS : BitVec 16 := 0

def RtpU2rReqState.body (req : RtpU2rReqState) : List (List Byte) :=
  [be32 req.version, streamIdBytes req.streamid, be64 req.userId, req.token.toList,
    [req.payloadType]]

def RtpD2pReqState.body (req : RtpD2pReqState) : List (List Byte) :=
  [be32 req.version, streamIdBytes req.streamid, req.token.toList, [req.payloadType],
    req.useragent.toList]

def RtpRspState.body (rsp : RtpRspState) : List Byte :=
  be32 rsp.version ++ (streamIdBytes rsp.streamid ++ be16 rsp.result)

/-- The two encoders of answers differ in the command only. -/
def encodeRspStateUint8 (cmd : BitVec 16) (rsp : RtpRspState) : List Byte :=
  encodeHeaderUint8 cmd (BitVec.ofNat 32 (protoHeaderLen + 22)) ++ rsp.body

/-- `encode_rtp_u2r_rsp_state_uint8`. -/
def encodeRtpU2rRspStateUint8 (rsp : RtpRspState) : List Byte :=
  encodeRspStateUint8 CMD_RTP_U2R_RSP_STATE rsp

/-- `encode_rtp_d2p_rsp_state_uint8`. -/
def encodeRtpD2pRspStateUint8 (rsp : RtpRspState) : List Byte :=
  encodeRspStateUint8 CMD_RTP_D2P_RSP_STATE rsp

/-- `SendRtp` puts the message together in a buffer of 2048 bytes, with `memcpy` from the packet; a
set `ssrc` is written into the copy. -/
def sendRtpMessage (id : StreamId) (rtp : Rtp) (len : Nat) (ssrc : BitVec 32) : Except Fault Message :=
  if 2048 < packetHeadLen + len ∨ rtp.len < len then .error .outOfBounds
  else .ok
    { cmd := CMD_RTP_D2P_PACKET
      body := streamIdBytes id ++ ((if ssrc = 0 then rtp else rtp.setSsrc ssrc).bytes.take len) }

/-- `SendRtcp`. `built` is what `Build` has written into the 2024 bytes it was given. -/
def sendRtcpMessage (id : StreamId) (built : List Byte) : Except Fault Message :=
  if 2048 < packetHeadLen + built.length then .error .outOfBounds
  else .ok { cmd := CMD_RTCP_U2R_PACKET, body := streamIdBytes id ++ built }

/-- The answer of `OnReadPacket` to a request of either kind. -/
def rspMessage (cmd : BitVec 16) (version : BitVec 32) (id : StreamId) : Message where
  cmd := cmd
  body := RtpRspState.body { version := version, streamid := id, result := U2R_RESULT_SUCCESS }

/-- The packet in a message, as `OnReadPacket` hands it on. -/
def messagePacket (m : Message) : Rtp × Nat := (Rtp.read (m.body.drop 16), m.body.length - 16)

/-! ## Bytes at a place -/

/-- The bytes `bs` stand in `m` from `i` on. -/
def Holds (m : List Byte) (i : Nat) (bs : List Byte) : Prop :=
  ∃ front back, m = front ++ (bs ++ back) ∧ front.length = i

section Holds

variable {m : List Byte} {i : Nat}

theorem Holds.left {as bs : List Byte} (h : Holds m i (as ++ bs)) : Holds m i as := by
  obtain ⟨front, back, rfl, rfl⟩ := h
  exact ⟨front, bs ++ back, by rw [List.append_assoc], rfl⟩

theorem Holds.right {as bs : List Byte} (h : Holds m i (as ++ bs)) : Holds m (i + as.length) bs := by
  obtain ⟨front, back, rfl, rfl⟩ := h
  refine ⟨front ++ as, back, by simp only [List.append_assoc], List.length_append⟩

theorem Holds.byteAt {bs : List Byte} (h : Holds m i bs) {k : Nat} (hk : k < bs.length) :
    byteAt m (i + k) = byteAt bs k := by
  obtain ⟨front, back, rfl, rfl⟩ := h
  rw [byteAt_append_right]
  simp only [Avformat.byteAt, List.getD_eq_getElem?_getD, List.getElem?_append_left hk]

theorem Holds.rdBe16 {x : BitVec 16} (h : Holds m i (be16 x)) : rdBe16 m i = x := by
  obtain ⟨front, back, rfl, rfl⟩ := h
  have hfirst := byteAt_append_right front (be16 x ++ back) 0
  have hsecond := byteAt_append_right front (be16 x ++ back) 1
  rw [Nat.add_zero] at hfirst
  rw [Avformat.rdBe16, hfirst, hsecond]
  exact join16 x

theorem Holds.rdBe32 {x : BitVec 32} (h : Holds m i (be32 x)) : rdBe32 m i = x := by
  obtain ⟨front, back, rfl, rfl⟩ := h
  exact rdBe32_be32 x front back

/-- A bit of an id that is read is a bit of a byte. -/
theorem getLsbD_readStreamId (m : List Byte) (i s n k : Nat) :
    BitVec.getLsbD ((List.range' s n).foldr
      (fun j (acc : StreamId) => acc <<< 8 ||| (Avformat.byteAt m (i + j)).setWidth 128) 0) k =
      (decide (k < 128) && decide (k < 8 * n) && (Avformat.byteAt m (i + (s + k / 8))).getLsbD (k % 8)) := by
  induction n generalizing s k with
  | zero => simp
  | succ n ih =>
    rw [List.range'_succ, List.foldr_cons, BitVec.getLsbD_or, BitVec.getLsbD_shiftLeft, ih,
      BitVec.getLsbD_setWidth]
    by_cases hlow : k < 8
    · have hdiv : k / 8 = 0 := Nat.div_eq_of_lt hlow
      have hmod : k % 8 = k := Nat.mod_eq_of_lt hlow
      simp only [hlow, decide_true, Bool.not_true, Bool.and_false, Bool.false_and, Bool.false_or,
        hdiv, hmod, Nat.add_zero]
      have hin : k < 8 * (n + 1) := by omega
      simp only [hin, decide_true, Bool.and_true]
    · have hdiv : s + 1 + (k - 8) / 8 = s + k / 8 := by omega
      have hmod : (k - 8) % 8 = k % 8 := by omega
      have hout : (Avformat.byteAt m (i + s)).getLsbD k = false :=
        BitVec.getLsbD_of_ge _ _ (Nat.le_of_not_lt hlow)
      have hin : (decide (k - 8 < 8 * n)) = decide (k < 8 * (n + 1)) := by
        rw [decide_eq_decide]
        omega
      rw [hdiv, hmod, hout, hin]
      by_cases hk : k < 128
      · have hk' : k - 8 < 128 := by omega
        simp [hlow, hk, hk']
      · simp [hk]

theorem Holds.readStreamId {id : StreamId} (h : Holds m i (streamIdBytes id)) :
    readStreamId m i = id := by
  apply ext_idChar
  intro j hj
  have hbyte : Avformat.byteAt m (i + j) = idChar id j := by
    rw [h.byteAt (by simpa only [streamIdBytes, List.length_map, List.length_range] using hj)]
    simp [Avformat.byteAt, streamIdBytes, hj]
  rw [← hbyte]
  apply BitVec.eq_of_getLsbD_eq
  intro k hk
  have hlt : 8 * j + k < 128 := by omega
  have hdiv : (8 * j + k) / 8 = j := by omega
  have hmod : (8 * j + k) % 8 = k := by omega
  rw [idChar, BitVec.getLsbD_extractLsb', ConnectionManager.readStreamId, List.range_eq_range',
    getLsbD_readStreamId, hdiv, hmod, Nat.zero_add]
  simp [hk, hlt]

end Holds

/-! ## A message is read as it was written -/

/-- The message fits into the buffer of a connection. -/
def Fits (udp : Bool) (m : Message) : Prop := protoHeaderLen + m.body.length < bufferMax udp

theorem length_frame (m : Message) : (frame m).length = protoHeaderLen + m.body.length := by
  rw [frame, List.length_append]
  rfl

theorem headerOf_size {udp : Bool} {m : Message} (h : Fits udp m) :
    (headerOf m).size.toNat = (frame m).length := by
  have hmax : bufferMax udp < 2 ^ 32 := by
    cases udp <;> decide
  rw [length_frame, headerOf, BitVec.toNat_ofNat]
  exact Nat.mod_eq_of_lt (Nat.lt_trans h hmax)

theorem holds_frame (m : Message) (rest : List Byte) : Holds (frame m ++ rest) 0 (frame m) :=
  ⟨[], rest, rfl, rfl⟩

theorem decodeHeader_frame (m : Message) (rest : List Byte) :
    decodeHeader (frame m ++ rest) = some (headerOf m) := by
  have hheader : Holds (frame m ++ rest) 0 (encodeHeaderUint8 m.cmd (headerOf m).size) :=
    (holds_frame m rest).left
  have hfields : Holds (frame m ++ rest) 2 (be16 m.cmd ++ be32 (headerOf m).size) :=
    @Holds.right _ _ [MAGIC_1, VER_1] _ hheader
  have hmagic : byteAt (frame m ++ rest) 0 = MAGIC_1 := hheader.byteAt (k := 0) (Nat.zero_lt_succ _)
  have hversion : byteAt (frame m ++ rest) 1 = VER_1 := rfl
  have hcmd : rdBe16 (frame m ++ rest) 2 = m.cmd := hfields.left.rdBe16
  have hsize : rdBe32 (frame m ++ rest) 4 = (headerOf m).size := hfields.right.rdBe32
  rw [decodeHeader, hmagic, hversion, hcmd, hsize]
  exact if_pos rfl

theorem readHeader_frame {m : Message} (h : Fits false m) (rest : List Byte) :
    readHeader false (exactly (frame m ++ rest)) = .ok (headerOf m) := by
  have hsize := headerOf_size h
  have hlen := length_frame m
  have hlong : ¬ (frame m ++ rest).length < protoHeaderLen := by
    rw [List.length_append]
    omega
  have hfits : ¬ bufferMax false ≤ (headerOf m).size.toNat := by
    rw [hsize, hlen]
    exact Nat.not_le.mpr h
  have hall : ¬ (frame m ++ rest).length < (headerOf m).size.toNat := by
    rw [hsize, List.length_append]
    omega
  unfold readHeader exactly
  dsimp only
  rw [if_neg hlong, decodeHeader_frame]
  dsimp only
  rw [if_neg hfits, if_neg (by decide), if_neg hall]

/-- A datagram that is one message, in a buffer that held others before. A datagram of 2048 bytes is
refused. -/
theorem readHeader_datagram {m : Message} (h : (frame m).length ≤ bufferMax true) (stale : List Byte) :
    readHeader true ⟨frame m ++ stale, (frame m).length⟩ =
      if (frame m).length < bufferMax true then .ok (headerOf m) else .error (-3) := by
  have hlen := length_frame m
  have hsize : (headerOf m).size.toNat = (frame m).length := by
    have hmax : bufferMax true < 2 ^ 32 := by decide
    rw [hlen] at h
    rw [hlen, headerOf, BitVec.toNat_ofNat]
    exact Nat.mod_eq_of_lt (Nat.lt_of_le_of_lt h hmax)
  have hlong : ¬ (frame m).length < protoHeaderLen := by omega
  unfold readHeader
  dsimp only
  rw [if_neg hlong, decodeHeader_frame]
  dsimp only
  rw [hsize]
  by_cases hfits : (frame m).length < bufferMax true
  · rw [if_neg (Nat.not_le.mpr hfits), if_pos rfl, if_neg (not_not.mpr rfl), if_pos hfits]
  · rw [if_pos (Nat.le_of_not_lt hfits), if_neg hfits]

/-- A message that has not come as a whole is waited for. -/
theorem readHeader_torn {m : Message} (h : Fits false m) {bytes : List Byte}
    (hstarts : bytes <+: frame m) (htorn : bytes.length < (frame m).length) :
    readHeader false (exactly bytes) = .error 0 := by
  by_contra hdecided
  obtain ⟨more, hmore⟩ := hstarts
  have hwhole := readHeader_append more hdecided
  have hframe := readHeader_frame h []
  rw [List.append_nil] at hframe
  rw [hmore, hframe] at hwhole
  obtain ⟨-, -, -, hsize⟩ := readHeader_ok hwhole.symm
  rw [headerOf_size h] at hsize
  exact absurd htorn (Nat.not_lt.mpr hsize)

theorem messageOf_frame {udp : Bool} {m : Message} (h : Fits udp m) (rest : List Byte) :
    messageOf (headerOf m) (frame m ++ rest) = m := by
  have hbody : (frame m).drop protoHeaderLen = m.body := rfl
  rw [messageOf, headerOf_size h, List.take_left' rfl, hbody]
  rfl

/-! ## The packets in messages -/

theorem length_streamIdBytes (id : StreamId) : (streamIdBytes id).length = 16 := by
  rw [streamIdBytes, List.length_map, List.length_range]

theorem length_rspBody (rsp : RtpRspState) : rsp.body.length = 22 := by
  simp [RtpRspState.body, length_streamIdBytes, be32, be16]

/-- An answer is encoded as a message. -/
theorem frame_rspMessage (cmd : BitVec 16) (version : BitVec 32) (id : StreamId) :
    frame (rspMessage cmd version id) =
      encodeRspStateUint8 cmd { version := version, streamid := id, result := U2R_RESULT_SUCCESS } := by
  rw [frame, rspMessage, length_rspBody, encodeRspStateUint8]

theorem length_rtpBytes (p : Rtp) : p.bytes.length = p.len := by
  rw [Rtp.bytes, List.length_append, Rtp.len]
  rfl

/-- A packet is read from its first bytes as its copy of that length. -/
theorem read_take_bytes (p : Rtp) {len : Nat} (hlen : rtpHeaderLen ≤ len) :
    Rtp.read (p.bytes.take len) = p.copy len := by
  have hhead : p.toRtpFixedHeader.bytes.length = rtpHeaderLen := rfl
  have htake : p.bytes.take len = (p.copy len).bytes := by
    rw [Rtp.bytes, List.take_append, hhead, List.take_of_length_le (by rw [hhead]; exact hlen)]
    rfl
  rw [htake, Rtp.read_bytes]

/-- A packet that was sent is the packet that is handed on. -/
theorem packet_sendRtpMessage {id : StreamId} {rtp : Rtp} {len : Nat} {ssrc : BitVec 32} {m : Message}
    (hm : sendRtpMessage id rtp len ssrc = .ok m) (hlen : rtpHeaderLen ≤ len) :
    messagePacket m = ((if ssrc = 0 then rtp else rtp.setSsrc ssrc).copy len, len) := by
  unfold sendRtpMessage at hm
  split at hm
  · cases hm
  · next hfits =>
    cases hm
    have hin : len ≤ (if ssrc = 0 then rtp else rtp.setSsrc ssrc).bytes.length := by
      rw [length_rtpBytes]
      have hsame : (if ssrc = 0 then rtp else rtp.setSsrc ssrc).len = rtp.len := by
        split <;> rfl
      rw [hsame]
      omega
    simp only [messagePacket]
    rw [List.drop_left' (length_streamIdBytes id), read_take_bytes _ hlen, List.length_append,
      length_streamIdBytes, List.length_take, Nat.min_eq_left hin, Nat.add_sub_cancel_left]

/-- What `OnReadPacket` hands on of a message is the packet in it, up to the length that goes with
it. -/
theorem messageRtp_frame {udp : Bool} {m : Message} (h : Fits udp m)
    (hlow : 16 + rtpHeaderLen ≤ m.body.length) (hhigh : m.body.length < 16 + 2 ^ 16)
    (rest : List Byte) {dataLen : Nat} :
    ((messageRtp (headerOf m) ⟨frame m ++ rest, dataLen⟩).1.copy
        (messageRtp (headerOf m) ⟨frame m ++ rest, dataLen⟩).2,
      (messageRtp (headerOf m) ⟨frame m ++ rest, dataLen⟩).2) = messagePacket m := by
  have hsize := headerOf_size h
  have hframe := length_frame m
  have hlen : (messageRtp (headerOf m) ⟨frame m ++ rest, dataLen⟩).2 = m.body.length - 16 := by
    simp only [messageRtp, packetHeadLen, BitVec.toNat_setWidth, BitVec.toNat_sub, BitVec.toNat_ofNat]
    simp only [protoHeaderLen, rtpHeaderLen] at *
    omega
  have hdrop : (frame m ++ rest).drop packetHeadLen = m.body.drop 16 ++ rest := by
    have hle : packetHeadLen ≤ (frame m).length := by
      rw [hframe]
      simp only [packetHeadLen, protoHeaderLen, rtpHeaderLen] at *
      omega
    rw [List.drop_append_of_le_length hle]
    rfl
  rw [hlen, messagePacket]
  simp only [messageRtp]
  rw [hdrop]
  have hcopy : (Rtp.read (m.body.drop 16 ++ rest)).copy (m.body.length - 16) =
      Rtp.read (m.body.drop 16) := by
    have hheader : RtpFixedHeader.read (m.body.drop 16 ++ rest) =
        RtpFixedHeader.read (m.body.drop 16) := by
      have hin : ∀ k < rtpHeaderLen, byteAt (m.body.drop 16 ++ rest) k = byteAt (m.body.drop 16) k := by
        intro k hk
        have hlt : k < (m.body.drop 16).length := by
          rw [List.length_drop]
          omega
        simp only [byteAt, List.getD_eq_getElem?_getD, List.getElem?_append_left hlt]
      simp only [rtpHeaderLen] at hin
      simp only [RtpFixedHeader.read, rdBe16, rdBe32, hin 0 (by decide), hin 1 (by decide),
        hin 2 (by decide), hin (2 + 1) (by decide), hin 4 (by decide), hin (4 + 1) (by decide),
        hin (4 + 2) (by decide), hin (4 + 3) (by decide), hin 8 (by decide), hin (8 + 1) (by decide),
        hin (8 + 2) (by decide), hin (8 + 3) (by decide)]
    have hdata : ((m.body.drop 16 ++ rest).drop rtpHeaderLen).take (m.body.length - 16 - rtpHeaderLen) =
        (m.body.drop 16).drop rtpHeaderLen := by
      have hle : rtpHeaderLen ≤ (m.body.drop 16).length := by
        rw [List.length_drop]
        omega
      rw [List.drop_append_of_le_length hle, List.take_left']
      rw [List.length_drop, List.length_drop]
    rw [Rtp.read, Rtp.read, Rtp.copy, hheader, hdata]
  rw [hcopy]

/-! ## Requests -/

/-- The message a request is. -/
def u2rReqMessage (req : RtpU2rReqState) : Message where
  cmd := CMD_RTP_U2R_REQ_STATE
  body := req.body.flatten

def d2pReqMessage (req : RtpD2pReqState) : Message where
  cmd := CMD_RTP_D2P_REQ_STATE
  body := req.body.flatten

theorem length_u2rReq (req : RtpU2rReqState) : (u2rReqMessage req).body.length = u2rReqStateLen := by
  simp [u2rReqMessage, RtpU2rReqState.body, length_streamIdBytes, be32, be64, u2rReqStateLen]

theorem length_d2pReq (req : RtpD2pReqState) : (d2pReqMessage req).body.length = d2pReqStateLen := by
  simp [d2pReqMessage, RtpD2pReqState.body, length_streamIdBytes, be32, d2pReqStateLen]

/-- The request with which a client begins: `ConnectRtpServer` of a pull, or of a push. -/
inductive Request
  | d2p (req : RtpD2pReqState)
  | u2r (req : RtpU2rReqState)

def Request.message : Request → Message
  | .d2p req => d2pReqMessage req
  | .u2r req => u2rReqMessage req

def Request.streamid : Request → StreamId
  | .d2p req => req.streamid
  | .u2r req => req.streamid

/-- What the connection becomes on the other side. -/
def Request.type : Request → ConnectionType
  | .d2p _ => .player
  | .u2r _ => .uploader

/-- A pull's request. -/
def pulledRequest : Request :=
  .d2p { version := 1, streamid := 7, token := Vector.replicate 32 0, payloadType := 2,
         useragent := Vector.replicate 128 0 }

end RtcMcu.CmdProtocol
