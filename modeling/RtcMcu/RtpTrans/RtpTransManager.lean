import RtcMcu.ConnectionManager.RtpConnection

/-!
# RTPTransManager

`rtp_trans/rtp_trans_manager.cpp`: opening and closing a connection's trans, what is done with a
packet that comes, `ForwardRtp` and `ForwardRtcp`, SDPs, and the timer. The groups of connections and
the RTP caches are found under the low 32 bits of a stream's id.

`RelayManager::StartPullRtp` and `StopPushRtp` are left out. A pull only begins a download, whose
end is an event of its own, and pushing is switched off.
-/

namespace RtcMcu.ConnectionManager

open RtcMcu.Avformat RtcMcu.MediaManager RtcMcu.RtpTrans Std

/-! ## Sending -/

/-- `sizeof(proto_header) + STREAM_ID_LEN`, what stands before a packet in a message. -/
def packetHeadLen : Nat := 8 + 16

/-- `SendRtp`: the message is put together in a buffer of 2048 bytes. A set `ssrc` is written into
the copy. -/
def Server.sendRtp (w : Server) (purpose : Purpose) (c : Addr) (rtp : Rtp) (len : Nat)
    (ssrc : BitVec 32) : Except Fault Server :=
  if 2048 < packetHeadLen + len then .error .outOfBounds
  else .ok (w.emit [.rtp purpose c (if ssrc = 0 then rtp else rtp.setSsrc ssrc) len])

/-- The packets of a list, one after the other. -/
def Server.sendFecs (w : Server) (c : Addr) (sent : List Sent) : Except Fault Server :=
  sent.foldlM (fun w (rtp, len) => w.sendRtp .fec c rtp len 0) w

/-- `c->trans->on_handle_rtp` of a player. -/
def Server.sendTransOnHandleRtp (env : ServerEnv) (w : Server) (c : Addr) (con : RtpConnection)
    (t : RTPSendTrans) (rtp : Rtp) (len : Nat) : Except Fault Server := do
  let (t, sent) ← t.onHandleRtp (w.rtpCache.getRtpBySeq con.streamid) env.now rtp len
  (w.setTrans c con (.send t)).sendFecs c sent

/-- One player of `ForwardRtp`. The ssrc is written into the packet itself. -/
def Server.forwardTo (env : ServerEnv) (w : Server) (rtp : Rtp) (len : Nat) (c : Addr) :
    Except Fault (Server × Rtp) := do
  let con ← w.connection c
  if con.isPlayer then do
    let rtp := rtp.setSsrc (if rtp.payload = RTP_AV_H264 then con.videoSsrc else con.audioSsrc)
    let w ← w.sendRtp .forward c rtp len 0
    match con.trans with
    | none => .error .nullDeref
    | some (.recv _) => .error .wrongClass
    | some (.send t) => do
      let w ← w.sendTransOnHandleRtp env c con t rtp len
      .ok (w, rtp)
  else .ok (w, rtp)

/-- `ForwardRtp`, and the packet as it leaves it. -/
def Server.forwardRtp (env : ServerEnv) (w : Server) (id : StreamId) (rtp : Rtp) (len : Nat) :
    Except Fault (Server × Rtp) :=
  (w.members id).foldlM (fun (w, rtp) c => w.forwardTo env rtp len c) (w, rtp)

/-- One player of `ForwardRtcp`, which casts its trans unseen. -/
def Server.forwardSrTo (env : ServerEnv) (type : RTPAVType) (info : RTCPPacketInformation)
    (w : Server) (c : Addr) : Except Fault Server := do
  let con ← w.connection c
  if con.isPlayer then
    match con.trans with
    | none => .error .nullDeref
    | some (.recv _) => .error .wrongClass
    | some (.send t) =>
      let (t, sent) := t.onUploaderNtp env.now type info.ntpSecs info.ntpFrac info.rtpTimestamp
      .ok ((w.setTrans c con (.send t)).emit (sent.map (.senderReport c)))
  else .ok w

/-- `ForwardRtcp`. -/
def Server.forwardRtcp (env : ServerEnv) (w : Server) (id : StreamId) (type : RTPAVType)
    (info : RTCPPacketInformation) : Except Fault Server :=
  (w.members id).foldlM (Server.forwardSrTo env type info) w

/-- `SendNackRtp`: only a player reached by UDP is sent packets again. -/
def Server.sendNackRtp (w : Server) (c : Addr) (con : RtpConnection) (video : Bool) (seq : Seq) :
    Except Fault Server :=
  if con.udp && con.isPlayer then do
    let (rtp, len) ← w.rtpCache.getRtpBySeq con.streamid video seq
    match rtp with
    | none => .error .nullDeref
    | some rtp =>
      w.sendRtp .retransmit c rtp len (if video then con.videoSsrc else con.audioSsrc)
  else .ok w

/-! ## Receiving -/

/-- `m_rtp_cache->set_rtp`. -/
def Server.setRtp (env : ServerEnv) (w : Server) (id : StreamId) (rtp : Rtp) (len : Nat) :
    Except Fault Server := do
  let cache ← w.rtpCache.setRtp env.time id rtp len
  .ok { w with rtpCache := cache }

/-- What the receiver sessions of `c` reach while they handle a packet. -/
def Server.host (env : ServerEnv) (c : Addr) (id : StreamId) : StreamHost Server where
  getRtpBySeq w := w.rtpCache.getRtpBySeq id
  setRtp w := w.setRtp env id
  forwardRtp w := w.forwardRtp env id
  recovered w s len := w.emit
    [.recovered c s.pktData len ((s.clearAtWrap s.pktData.seq).quiet s.pktData.seq)]

/-- `c->trans->on_handle_rtp`. While a receiver trans works it is not looked at through `c`:
`ForwardRtp` reaches the trans of players only. -/
def Server.transOnHandleRtp (env : ServerEnv) (w : Server) (c : Addr) (con : RtpConnection)
    (rtp : Rtp) (len : Nat) : Except Fault Server :=
  match con.trans with
  | none => .error .nullDeref
  | some (.recv t) => do
    let (w, t) ← t.onHandleRtp (Server.host env c con.streamid) env.fuel env.now w rtp len
    .ok (w.setTrans c con (.recv t))
  | some (.send t) => w.sendTransOnHandleRtp env c con t rtp len

/-- The first part of `OnRecvRtp`: a media packet is stored. -/
def Server.storeMedia (env : ServerEnv) (w : Server) (id : StreamId) (rtp : Rtp) (len : Nat) :
    Except Fault Server :=
  if isFec rtp.payload then .ok w else w.setRtp env id rtp len

/-- The last part of `OnRecvRtp`: a media packet goes to the players. -/
def Server.forwardMedia (env : ServerEnv) (w : Server) (id : StreamId) (rtp : Rtp) (len : Nat) :
    Except Fault Server :=
  if isFec rtp.payload then .ok w
  else do
    let (w, _) ← w.forwardRtp env id rtp len
    .ok w

/-- `OnRecvRtp`. -/
def Server.onRecvRtp (env : ServerEnv) (w : Server) (c : Addr) (rtp : Rtp) (len : Nat) :
    Except Fault Server := do
  let con ← w.connection c
  let w ← w.storeMedia env con.streamid rtp len
  let w ← w.transOnHandleRtp env c con rtp len
  w.forwardMedia env con.streamid rtp len

/-- `c->trans->on_handle_rtcp`. -/
def Server.transOnHandleRtcp (env : ServerEnv) (w : Server) (c : Addr) (con : RtpConnection)
    (info : RTCPPacketInformation) : Except Fault Server :=
  match con.trans with
  | none => .error .nullDeref
  | some (.recv t) => .ok (w.setTrans c con (.recv (t.onHandleRtcp info env.now)))
  | some (.send t) => do
    let (t, again) ← t.onHandleRtcp (w.rtpCache.getRtpBySeq con.streamid) env.rttMs info env.now
    again.foldlM (fun w (video, seq) => w.sendNackRtp c con video seq)
      (w.setTrans c con (.send t))

/-- `get_av_type` of a trans of either class. -/
def AnyTrans.getAvType (t : AnyTrans) (ssrc : BitVec 32) : RTPAVType :=
  match t with
  | .recv t => t.getAvType (·.toRTPSession) ssrc
  | .send t => t.getAvType (·.toRTPSession) ssrc

/-- `OnRecvRtcp`: a sender report of an uploader goes on to the players. -/
def Server.onRecvRtcp (env : ServerEnv) (w : Server) (c : Addr) (rtcp : List Byte) :
    Except Fault Server := do
  let con ← w.connection c
  let info := env.parseRtcp rtcp
  let w ← w.transOnHandleRtcp env c con info
  if con.isPlayer then .ok w
  else if info.sr then do
    let con ← w.connection c
    match con.trans with
    | none => .error .nullDeref
    | some t =>
      let type := t.getAvType info.remoteSSRC
      if type = RTP_AV_NULL then .ok w else w.forwardRtcp env con.streamid type info
  else .ok w

/-! ## SDPs -/

/-- The clock rates an SDP gives for AAC and for H264, 0 where it gives none. -/
def timeBases (infos : List RtpMediaInfo) : BitVec 32 × BitVec 32 :=
  infos.foldl
    (fun (audio, video) info =>
      if info.payloadType = RTP_AV_H264 then (audio, info.rate)
      else if info.payloadType = RTP_AV_AAC then (info.rate, video)
      else (audio, video))
    (0, 0)

def AnyTrans.setTimeBase (t : AnyTrans) (audio video : BitVec 32) : AnyTrans :=
  match t with
  | .recv t => .recv (t.setTimeBase audio video)
  | .send t => .send (t.setTimeBase audio video)

/-- One member of the group in `set_sdp_char`. -/
def Server.setTimeBaseOf (audio video : BitVec 32) (w : Server) (c : Addr) :
    Except Fault Server := do
  let con ← w.connection c
  match con.trans with
  | none => .error .nullDeref
  | some t => .ok (w.setTrans c con (t.setTimeBase audio video))

/-- `RtpSdpHttpHandler::OnSdp`: the requests that wait for the stream are answered. -/
def Server.onSdp (w : Server) (id : StreamId) (sdp : SdpText) : Server :=
  match w.sdpRequests[get32bitStreamId id]? with
  | none => w
  | some requests =>
    { w with sdpRequests := w.sdpRequests.erase (get32bitStreamId id) }.emit
      (requests.toList.map fun (req, wanted) => .sdp req wanted sdp)

/-- `set_sdp_char`. -/
def Server.setSdp (env : ServerEnv) (w : Server) (id : StreamId) (sdp : SdpText) :
    Except Fault Server :=
  let w := { w with rtpCache := w.rtpCache.setSdp env.sdpInfo env.time id sdp }
  let w := w.onSdp id sdp
  let (audio, video) := timeBases (env.sdpInfo.mediaInfos sdp)
  (w.members id).foldlM (Server.setTimeBaseOf audio video) w

/-! ## Opening and closing -/

/-- `_close_trans`, and `c->trans` is null afterwards. The group is that of the stream `c` is on
now. -/
def Server.closeTrans (w : Server) (c : Addr) (con : RtpConnection) : Server :=
  match con.trans with
  | none => w
  | some _ =>
    { w with
      streamGroups := w.streamGroups.alter (get32bitStreamId con.streamid) fun group =>
        (group.map (·.erase c)).filter fun rest => !rest.isEmpty }

/-- `RtpConnection::Destroy`. -/
def Server.destroy (w : Server) (c : Addr) : Except Fault Server := do
  let con ← w.connection c
  let w := w.closeTrans c con
  .ok { w with connections := w.connections.erase c }

/-- The loop of `_open_trans` that destroys the uploaders of a stream. If a connection that is
destroyed leaves the group, the iterator that stands on it is no longer valid. -/
def Server.destroyUploaders (id : StreamId) : Server → List Addr → Except Fault Server
  | w, [] => .ok w
  | w, c :: rest => do
    let con ← w.connection c
    if con.isUploader then do
      let w ← w.destroy c
      if (w.members id).contains c then Server.destroyUploaders id w rest
      else .error .staleIterator
    else Server.destroyUploaders id w rest

/-- `HasUploader`. -/
def Server.hasUploader (w : Server) (id : StreamId) : Bool :=
  (w.members id).any fun c => (w.connections[c]?).any (·.isUploader)

/-- `c` has a new trans and joins the group of its stream. -/
def Server.join (w : Server) (c : Addr) (con : RtpConnection) (t : AnyTrans) : Server :=
  { w.setTrans c con t with
    streamGroups := w.streamGroups.alter (get32bitStreamId con.streamid) fun group =>
      some ((group.getD ∅).insert c) }

/-- `_open_trans` of a player. -/
def Server.openPlayer (env : ServerEnv) (w : Server) (c : Addr) (config : RTPTransConfig) :
    Except Fault Server := do
  let con ← w.connection c
  let sdp ← w.rtpCache.getSdp env.sdpInfo con.streamid
  let (audio, video) := timeBases (env.sdpInfo.mediaInfos sdp)
  let t : RTPSendTrans := (RTPTrans.new config env.now).setTimeBase audio video
  let con := { con with
    audioSsrc := if con.audioSsrc = 0 then env.audioRand else con.audioSsrc
    videoSsrc := if con.videoSsrc = 0 then env.videoRand else con.videoSsrc }
  .ok (w.join c con (.send t))

/-- `_open_trans` of an uploader: the uploaders the stream has are destroyed first. -/
def Server.openUploader (env : ServerEnv) (w : Server) (c : Addr) (config : RTPTransConfig) :
    Except Fault Server := do
  let con ← w.connection c
  let w ← Server.destroyUploaders con.streamid w (w.members con.streamid)
  let con ← w.connection c
  .ok (w.join c con (.recv (RTPTrans.new config env.now)))

/-- `_open_trans`. -/
def Server.openTrans (env : ServerEnv) (w : Server) (c : Addr) (config : RTPTransConfig) :
    Except Fault Server := do
  let con ← w.connection c
  if con.isPlayer then w.openPlayer env c config else w.openUploader env c config

/-! ## The timer -/

/-- `on_timer` and `is_alive` of a trans. -/
def AnyTrans.onTimer (now : Nat) (t : AnyTrans) : AnyTrans × Bool :=
  match t with
  | .recv t =>
    let t := t.onTimer (fun s =>
      let (session, alive) := s.toRTPSession.isLive t.config now
      ({ s with toRTPSession := session }, alive)) now
    (.recv t, t.isAlive)
  | .send t =>
    let t := t.onTimer (fun s =>
      let (session, alive) := s.toRTPSession.isLive t.config now
      ({ s with toRTPSession := session }, alive)) now
    (.send t, t.isAlive)

/-- One connection of `OnTimerImpl`, with the set of those that are not alive. -/
def Server.timerOf (env : ServerEnv) : Server × TreeSet Addr → Addr →
    Except Fault (Server × TreeSet Addr)
  | (w, trash), c => do
    let con ← w.connection c
    match con.trans with
    | none => .error .nullDeref
    | some t =>
      let (t, alive) := t.onTimer env.now
      .ok (w.setTrans c con t, if alive then trash else trash.insert c)

/-- `OnTimerImpl`. -/
def Server.onTimer (env : ServerEnv) (w : Server) : Except Fault Server := do
  let members := w.streamGroups.toList.flatMap fun e => e.2.toList
  let (w, trash) ← members.foldlM (Server.timerOf env) (w, ∅)
  trash.toList.foldlM Server.destroy w

end RtcMcu.ConnectionManager
