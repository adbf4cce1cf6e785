import RtcMcu.MediaManager.RtpBlockCache
import RtcMcu.RtpTrans.RtpTrans

/-!
# RtpConnection and the state of the server

`connection_manager/RtpConnection.cpp` and what the singletons of the server hold: the connections,
the groups of `RTPTransManager`, the RTP caches, the SDP requests that wait. A pointer to a
connection is its address, an `Addr`; a `std::set` of pointers is ordered by it.

`RtpConnection::Destroy` never frees a connection, so that no address is given twice. A connection
that was destroyed is no longer in `connections`, and what follows a pointer to it faults.

What the server sends stands in `outputs`, in order.
-/

namespace RtcMcu.ConnectionManager

open RtcMcu.Avformat RtcMcu.MediaManager RtcMcu.RtpTrans Std

/-- The address of a connection. -/
abbrev Addr := Nat

/-! ## RtpConnection -/

/-- `enConnectionType`. -/
inductive ConnectionType
  | unknown
  | player
  | uploader
  deriving DecidableEq, Repr

/-- `RtpConnection::trans` when it is not null. -/
inductive AnyTrans
  | recv (t : RTPRecvTrans)
  | send (t : RTPSendTrans)

/-- `RtpConnection`. Its socket, its buffers and its counters are not part of the model. -/
structure RtpConnection where
  udp : Bool
  relayPull : Bool
  type : ConnectionType
  streamid : StreamId
  trans : Option AnyTrans
  audioSsrc : BitVec 32
  videoSsrc : BitVec 32
  createTime : Nat

/-- `RtpConnection::RtpConnection`, all zero, and what `CreateConnection` or `OnRead` sets. -/
def RtpConnection.new (udp : Bool) (time : Nat) : RtpConnection where
  udp := udp
  relayPull := false
  type := .unknown
  streamid := 0
  trans := none
  audioSsrc := 0
  videoSsrc := 0
  createTime := time

def RtpConnection.isPlayer (c : RtpConnection) : Bool := c.type == .player

def RtpConnection.isUploader (c : RtpConnection) : Bool := c.type == .uploader

/-! ## The server -/

/-- Why `SendRtp` is called: `ForwardRtp`, `_send_fec`, `SendNackRtp`. -/
inductive Purpose
  | forward
  | fec
  | retransmit
  deriving DecidableEq, Repr

/-- What the server does that others see: a packet sent to a connection, a sender report, the answer
to a request for a stream, an SDP given to an HTTP request for a stream. `recovered` is no output:
it notes a packet that a receiver session of `c` recovered and gave to `recv_rtp`; `quiet` says that
no FEC packet is left with which the session would try another recovery for that packet. -/
inductive Output
  | rtp (purpose : Purpose) (dest : Addr) (rtp : Rtp) (len : Nat)
  | senderReport (dest : Addr) (sr : SenderReport)
  | response (dest : Addr) (streamid : StreamId)
  | sdp (req : Nat) (streamid : StreamId) (text : SdpText)
  | recovered (c : Addr) (rtp : Rtp) (len : Nat) (quiet : Bool)
  deriving DecidableEq, Repr

/-- The state of the server. `allocated` are the addresses ever given to a connection. A request of
`sdpRequests` comes with the stream of its URI. -/
structure Server where
  connections : TreeMap Addr RtpConnection
  allocated : TreeSet Addr
  streamGroups : TreeMap (BitVec 32) (TreeSet Addr)
  rtpCache : RtpCacheManager
  sdpRequests : TreeMap (BitVec 32) (TreeMap Nat StreamId)
  outputs : List Output

def Server.new : Server where
  connections := ∅
  allocated := ∅
  streamGroups := ∅
  rtpCache := RtpCacheManager.new
  sdpRequests := ∅
  outputs := []

/-- What the server does not compute itself: its configuration, the parsers of SDPs and of RTCP
packets, and, for one event, the clocks in milliseconds and in seconds, the first values of `rand()`
that are not 0, the round trip time of the connection, and how deep recoveries may nest. -/
structure ServerEnv where
  uploaderConfig : RTPTransConfig
  playerConfig : RTPTransConfig
  relayConfig : RTPTransConfig
  sdpInfo : SdpInfo
  parseRtcp : List Byte → RTCPPacketInformation
  now : Nat
  time : Nat
  audioRand : BitVec 32
  videoRand : BitVec 32
  rttMs : BitVec 32
  fuel : Nat

/-- The connection a pointer points to. -/
def Server.connection (w : Server) (c : Addr) : Except Fault RtpConnection :=
  match w.connections[c]? with
  | none => .error .usedAfterDestroy
  | some con => .ok con

/-- A connection changes. -/
def Server.setConnection (w : Server) (c : Addr) (con : RtpConnection) : Server :=
  { w with connections := w.connections.insert c con }

/-- `c->trans = trans`, or a change of the object `c->trans` points to. -/
def Server.setTrans (w : Server) (c : Addr) (con : RtpConnection) (t : AnyTrans) : Server :=
  w.setConnection c { con with trans := some t }

/-- Something is sent. -/
def Server.emit (w : Server) (out : List Output) : Server := { w with outputs := w.outputs ++ out }

/-- The members of a group, in the order of their addresses. -/
def Server.group (w : Server) (key : BitVec 32) : List Addr :=
  match w.streamGroups[key]? with
  | none => []
  | some group => group.toList

/-- The members of a stream's group. -/
def Server.members (w : Server) (id : StreamId) : List Addr := w.group (get32bitStreamId id)

/-! ### Reading back -/

section Fields

variable (w : Server) (c : Addr) (con : RtpConnection) (out : List Output)

@[simp] theorem Server.setConnection_streamGroups :
    (w.setConnection c con).streamGroups = w.streamGroups := rfl

@[simp] theorem Server.setConnection_rtpCache : (w.setConnection c con).rtpCache = w.rtpCache := rfl

@[simp] theorem Server.setConnection_outputs : (w.setConnection c con).outputs = w.outputs := rfl

@[simp] theorem Server.setConnection_allocated :
    (w.setConnection c con).allocated = w.allocated := rfl

@[simp] theorem Server.setConnection_sdpRequests :
    (w.setConnection c con).sdpRequests = w.sdpRequests := rfl

@[simp] theorem Server.emit_connections : (w.emit out).connections = w.connections := rfl

@[simp] theorem Server.emit_allocated : (w.emit out).allocated = w.allocated := rfl

@[simp] theorem Server.emit_streamGroups : (w.emit out).streamGroups = w.streamGroups := rfl

@[simp] theorem Server.emit_rtpCache : (w.emit out).rtpCache = w.rtpCache := rfl

@[simp] theorem Server.emit_sdpRequests : (w.emit out).sdpRequests = w.sdpRequests := rfl

@[simp] theorem Server.emit_outputs : (w.emit out).outputs = w.outputs ++ out := rfl

theorem Server.getElem?_setConnection (a : Addr) :
    (w.setConnection c con).connections[a]? = if c = a then some con else w.connections[a]? := by
  simp only [Server.setConnection, TreeMap.getElem?_insert, Nat.compare_eq_eq]

/-- A pointer is followed to a live connection. -/
theorem Server.connection_eq_ok {w : Server} {c : Addr} {con : RtpConnection} :
    w.connection c = .ok con ↔ w.connections[c]? = some con := by
  rw [Server.connection]
  cases w.connections[c]? with
  | none =>
    constructor <;> intro h <;> cases h
  | some con' =>
    constructor
    · intro h
      rw [Except.ok.inj h]
    · intro h
      rw [Option.some.inj h]

end Fields

/-- A group is the set that stands under its key, or empty. -/
theorem Server.mem_group {w : Server} {key : BitVec 32} {c : Addr} :
    c ∈ w.group key ↔ ∃ group, w.streamGroups[key]? = some group ∧ c ∈ group := by
  rw [Server.group]
  cases w.streamGroups[key]? with
  | none =>
    constructor
    · intro h
      cases h
    · rintro ⟨_, h, _⟩
      cases h
  | some group =>
    constructor
    · intro h
      exact ⟨group, rfl, TreeSet.mem_toList.mp h⟩
    · rintro ⟨_, h, hc⟩
      cases h
      exact TreeSet.mem_toList.mpr hc

end RtcMcu.ConnectionManager
