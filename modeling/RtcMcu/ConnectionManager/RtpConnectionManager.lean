import RtcMcu.RtpTrans.RtpTransManager

/-!
# RtpConnectionManager

`connection_manager/RtpConnectionManager.cpp` and the messages of `cmd_protocol/proto.c` it reads:
`OnReadPacket` takes one message from a connection's buffer and acts on its command. Around it stand
the events the server reacts to: connections that come and go, bytes that arrive, timers, and the
HTTP requests for SDPs.
-/

namespace RtcMcu.ConnectionManager

open RtcMcu.Avformat RtcMcu.MediaManager RtcMcu.RtpTrans Std

/-! ## Messages -/

/-- The memory at `buffer_data_ptr` up to the end of the allocation, and `buffer_data_len`. -/
structure ReadBuffer where
  mem : List Byte
  dataLen : Nat
  deriving DecidableEq, Repr

/-- `buffer_max` of a connection's buffer. -/
def bufferMax (udp : Bool) : Nat := if udp then 2 * 1024 else 5 * 1024 * 1024

/-- `proto_header`. -/
structure ProtoHeader where
  magic : Byte
  version : Byte
  cmd : BitVec 16
  size : BitVec 32
  deriving DecidableEq, Repr

def protoHeaderLen : Nat := 8

def VER_1 : Byte := 1
def VER_2 : Byte := 2
def VER_3 : Byte := 3
def MAGIC_2 : Byte := 0xf0
def MAGIC_3 : Byte := 0x0f

/-- `decode_header`. -/
def decodeHeader (m : List Byte) : Option ProtoHeader :=
  let h : ProtoHeader :=
    { magic := byteAt m 0, version := byteAt m 1, cmd := rdBe16 m 2, size := rdBe32 m 4 }
  if h.version = VER_1 then some h
  else if h.version = VER_2 ∧ h.magic = MAGIC_2 then some h
  else if h.version = VER_3 ∧ h.magic = MAGIC_3 then some h
  else none

def CMD_RTP_U2R_REQ_STATE : BitVec 16 := 500
def CMD_RTP_U2R_RSP_STATE : BitVec 16 := 501
def CMD_RTP_U2R_PACKET : BitVec 16 := 502
def CMD_RTCP_U2R_PACKET : BitVec 16 := 503
def CMD_RTP_D2P_REQ_STATE : BitVec 16 := 600
def CMD_RTP_D2P_RSP_STATE : BitVec 16 := 601
def CMD_RTP_D2P_PACKET : BitVec 16 := 602
def CMD_RTCP_D2P_PACKET : BitVec 16 := 603

/-- `sizeof(rtp_u2r_req_state)`. -/
def u2rReqStateLen : Nat := 61

/-- `sizeof(rtp_d2p_req_state)`. -/
def d2pReqStateLen : Nat := 181

/-- Sixteen bytes as a `StreamId_Ext`, on a little-endian machine. -/
def readStreamId (m : List Byte) (i : Nat) : StreamId :=
  (List.range 16).foldr (fun j acc => acc <<< 8 ||| (byteAt m (i + j)).setWidth 128) 0

/-- `decode_rtp_u2r_req_state`, of which only the stream is used. The request begins with its
version, four bytes. -/
def decodeU2rReqState (h : ProtoHeader) (buf : ReadBuffer) : Except Fault (Option StreamId) :=
  if buf.dataLen < protoHeaderLen then .error .assertFailed
  else if buf.dataLen < protoHeaderLen + u2rReqStateLen ∨
      h.size.toNat < protoHeaderLen + u2rReqStateLen then .ok none
  else .ok (some (readStreamId buf.mem (protoHeaderLen + 4)))

/-- `decode_rtp_d2p_req_state`, which asserts that the whole request has come. -/
def decodeD2pReqState (h : ProtoHeader) (buf : ReadBuffer) : Except Fault (Option StreamId) :=
  if buf.dataLen < protoHeaderLen + d2pReqStateLen then .error .assertFailed
  else if h.size.toNat < protoHeaderLen + d2pReqStateLen then .ok none
  else .ok (some (readStreamId buf.mem (protoHeaderLen + 4)))

/-! ## OnReadPacket -/

/-- What `OnReadPacket` finds before it looks at the command: a return value, or a header. -/
def readHeader (udp : Bool) (buf : ReadBuffer) : Except Int ProtoHeader :=
  if buf.dataLen < protoHeaderLen then .error (if udp then -1 else 0)
  else
    match decodeHeader buf.mem with
    | none => .error (-2)
    | some h =>
      if bufferMax udp ≤ h.size.toNat then .error (-3)
      else if udp then if buf.dataLen ≠ h.size.toNat then .error (-4) else .ok h
      else if buf.dataLen < h.size.toNat then .error 0
      else .ok h

/-- The packet in a message, and its length as it is passed to `OnRecvRtp`, cut to 16 bits. -/
def messageRtp (h : ProtoHeader) (buf : ReadBuffer) : Rtp × Nat :=
  (Rtp.read (buf.mem.drop packetHeadLen),
    ((h.size - BitVec.ofNat 32 packetHeadLen).setWidth 16).toNat)

/-- The RTCP bytes in a message. -/
def messageRtcp (h : ProtoHeader) (buf : ReadBuffer) : Except Fault (List Byte) :=
  let len := (h.size - BitVec.ofNat 32 packetHeadLen).toNat
  if buf.mem.length < packetHeadLen + len then .error .outOfBounds
  else .ok ((buf.mem.drop packetHeadLen).take len)

/-- A REQ_STATE message once it is decoded: the connection changes to the stream, its trans is
opened, the request is answered. `failed` is the value returned if it could not be decoded. -/
def Server.onReqState (env : ServerEnv) (w : Server) (c : Addr) (config : RTPTransConfig)
    (id : Option StreamId) (failed : Int) : Except Fault (Server × Int) :=
  match id with
  | none => .ok (w, failed)
  | some id => do
    let con ← w.connection c
    let w ← (w.setConnection c { con with streamid := id }).openTrans env c config
    .ok (w.emit [.response c id], 1)

/-- The command of a message. -/
def Server.onCommand (env : ServerEnv) (w : Server) (c : Addr) (h : ProtoHeader)
    (buf : ReadBuffer) : Except Fault (Server × Int) := do
  let con ← w.connection c
  if h.cmd = CMD_RTP_U2R_REQ_STATE then do
    let w := w.setConnection c { con with type := .uploader }
    let id ← decodeU2rReqState h buf
    w.onReqState env c env.uploaderConfig id (-5)
  else if h.cmd = CMD_RTP_D2P_REQ_STATE then do
    let w := w.setConnection c { con with type := .player }
    let id ← decodeD2pReqState h buf
    w.onReqState env c env.playerConfig id (-1)
  else if h.cmd = CMD_RTP_D2P_RSP_STATE ∨ h.cmd = CMD_RTP_U2R_RSP_STATE then .ok (w, 1)
  else if h.cmd = CMD_RTP_D2P_PACKET ∨ h.cmd = CMD_RTP_U2R_PACKET then
    if con.type = .unknown then .ok (w, -5)
    else if buf.mem.length < packetHeadLen + rtpHeaderLen then .error .outOfBounds
    else do
      let (rtp, len) := messageRtp h buf
      let w ← w.onRecvRtp env c rtp len
      .ok (w, 1)
  else if h.cmd = CMD_RTCP_U2R_PACKET ∨ h.cmd = CMD_RTCP_D2P_PACKET then
    if con.type = .unknown then .ok (w, -5)
    else do
      let rtcp ← messageRtcp h buf
      let w ← w.onRecvRtcp env c rtcp
      .ok (w, 1)
  else .ok (w, -6)

/-- `OnReadPacket`: 1 if a message was taken from the buffer, 0 if it is not complete yet, negative
if the connection is to be destroyed. -/
def Server.onReadPacket (env : ServerEnv) (w : Server) (c : Addr) (buf : ReadBuffer) :
    Except Fault (Server × Int) := do
  let con ← w.connection c
  match readHeader con.udp buf with
  | .error ret => .ok (w, ret)
  | .ok h => w.onCommand env c h buf

/-- The REQ_STATE that `OnReadPacket` would act on: what the connection becomes, and the stream. -/
def requestOf (udp : Bool) (buf : ReadBuffer) : Option (ConnectionType × StreamId) :=
  match readHeader udp buf with
  | .error _ => none
  | .ok h =>
    if h.cmd = CMD_RTP_U2R_REQ_STATE then
      match decodeU2rReqState h buf with
      | .ok (some id) => some (.uploader, id)
      | _ => none
    else if h.cmd = CMD_RTP_D2P_REQ_STATE then
      match decodeD2pReqState h buf with
      | .ok (some id) => some (.player, id)
      | _ => none
    else none

/-! ## Events -/

/-- What the server reacts to. `packet` is one turn of the loop of `OnSocketDataImpl` or of `OnRead`;
`closed` a connection that is destroyed because reading or writing failed, or because its pull was
stopped; `pull` the end of a pull's download, when `ConnectRtpServer` makes a connection. -/
inductive Event
  | accept (c : Addr) (udp : Bool)
  | packet (c : Addr) (buf : ReadBuffer)
  | closed (c : Addr)
  | pull (c : Addr) (id : StreamId)
  | putSdp (id : StreamId) (sdp : SdpText)
  | downloadSdp (req : Nat) (id : StreamId)
  | requestClosed (req : Nat) (id : StreamId)
  | tcpTimer
  | transTimer
  | cacheTimer

/-- `CreateConnection`, or the first packet of a UDP address. -/
def Server.accept (w : Server) (c : Addr) (con : RtpConnection) : Server :=
  { w.setConnection c con with allocated := w.allocated.insert c }

/-- `ConnectRtpServer` of a pull: the server itself asks for the stream and plays its uploader. -/
def Server.pull (env : ServerEnv) (w : Server) (c : Addr) (id : StreamId) : Except Fault Server :=
  (w.accept c { RtpConnection.new false env.time with
    streamid := id, type := .uploader, relayPull := true }).openTrans env c env.relayConfig

/-- `HttpDownloadSdpHander`: the SDP is sent, or the request waits for it. -/
def Server.downloadSdp (env : ServerEnv) (w : Server) (req : Nat) (id : StreamId) :
    Except Fault Server := do
  let sdp ← w.rtpCache.getSdp env.sdpInfo id
  if sdp.isEmpty then
    .ok { w with
          sdpRequests := w.sdpRequests.alter (get32bitStreamId id) fun requests =>
            some ((requests.getD ∅).insert req id) }
  else .ok (w.emit [.sdp req id sdp])

/-- `OnHttpConnectionClosed`. -/
def Server.requestClosed (w : Server) (req : Nat) (id : StreamId) : Server :=
  { w with
    sdpRequests := w.sdpRequests.alter (get32bitStreamId id) fun requests =>
      (requests.map (·.erase req)).filter fun rest => !rest.isEmpty }

/-- `RtpTcpManager::OnTimerImpl`: a connection that has not asked for a stream within 5 seconds is
destroyed. The manager's `m_connections` holds, for the timer, the connections of unknown type. -/
def Server.tcpTimer (env : ServerEnv) (w : Server) : Except Fault Server :=
  ((w.connections.toList.filter fun (_, con) =>
    !con.udp && con.type == .unknown && decide (5 < env.time - con.createTime)).map (·.1)).foldlM
      Server.destroy w

/-- The reaction to an event. An event of a connection that is not there cannot occur; nor can a
connection be made at an address that was given to one before. -/
def Server.step (env : ServerEnv) (w : Server) : Event → Except Fault Server
  | .accept c udp =>
    if w.allocated.contains c then .ok w else .ok (w.accept c (RtpConnection.new udp env.time))
  | .packet c buf =>
    if w.connections.contains c then do
      let (w, ret) ← w.onReadPacket env c buf
      if ret < 0 then w.destroy c else .ok w
    else .ok w
  | .closed c => if w.connections.contains c then w.destroy c else .ok w
  | .pull c id => if w.allocated.contains c then .ok w else w.pull env c id
  | .putSdp id sdp => w.setSdp env id sdp
  | .downloadSdp req id => w.downloadSdp env req id
  | .requestClosed req id => .ok (w.requestClosed req id)
  | .tcpTimer => w.tcpTimer env
  | .transTimer => w.onTimer env
  | .cacheTimer => .ok { w with rtpCache := w.rtpCache.onTimer env.time }

/-- A run: the events that happen, each with what the environment gives for it. -/
def Server.run (w : Server) (events : List (ServerEnv × Event)) : Except Fault Server :=
  events.foldlM (fun w e => w.step e.1 e.2) w

end RtcMcu.ConnectionManager
