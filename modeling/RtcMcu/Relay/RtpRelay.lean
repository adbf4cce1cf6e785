import RtcMcu.Base
import RtcMcu.MediaManager.RtpBlockCache

/-!
# Pulling streams

`relay/RtpRelay.cpp`: `RtpPullTcpManager` keeps one `RtpPullClient` for each stream it pulls. A client
asks for the SDP over HTTP, then connects to the RTP server; on an error or when its connection is
closed it starts again, at once or by a task it posts to `TaskManger`.

Clients, HTTP connections and RTP connections go by their addresses, which are not used again. To run
a method of a client that was deleted is a fault. What is not here: the name of the next node, which
is fixed, and the bytes that go over the connections.
-/

namespace RtcMcu.Relay

open RtcMcu.MediaManager

/-- How an event of the relay can go wrong. -/
inductive PullFault
  /-- a method runs on a client that was deleted -/
  | deletedClient
  /-- a group of connections is iterated after it was modified -/
  | staleIterator
  deriving DecidableEq, Repr

/-- `RtpPullClient`. The times are in seconds. -/
structure RtpPullClient where
  streamid : StreamId
  httpCon : Option Nat
  rtpConnection : Option Nat
  lastRetryTime : BitVec 32
  retryDelay : BitVec 32
  startTime : BitVec 32
  deriving DecidableEq, Repr

/-- A connection of the manager. -/
structure PullConnection where
  streamid : StreamId
  isUploader : Bool
  deriving DecidableEq, Repr

/-- The manager and what it works with: `new` and `delete`, the connections it made and those of them
that are open, libevent's HTTP requests in flight, each with its connection and the client its
callback gets, and the tasks of `TaskManger`, each with the time in milliseconds when it is due and
the client whose `GetNextNode` it runs. -/
structure RtpPullTcpManager where
  clients : List (StreamId × Nat)
  heap : Nat → Option RtpPullClient
  connections : Nat → Option PullConnection
  opened : List Nat
  requests : List (Nat × Nat)
  tasks : List (Nat × Nat)
  nextAddr : Nat

def RtpPullTcpManager.new : RtpPullTcpManager where
  clients := []
  heap := fun _ => none
  connections := fun _ => none
  opened := []
  requests := []
  tasks := []
  nextAddr := 0

/-- What the world answers during an event: the time in milliseconds, how many times in a row
`evhttp_make_request` fails for a client, `HasPlayer` of both managers, the reply with the SDP and what
`set_sdp_str` makes of it, `socket` and `connect`, and whether another uploader is on the stream. -/
structure PullEnv where
  now : Nat
  failedRequests : Nat → Nat
  hasPlayer : StreamId → Bool
  httpcode : Nat
  content : List Byte
  setSdpStr : Int
  fdSock : Int
  connected : Bool
  otherUploader : Bool

/-- `time(NULL)`. -/
def PullEnv.time (env : PullEnv) : Nat := env.now / 1000

namespace RtpPullTcpManager

variable (env : PullEnv)

/-- The client a method runs on. -/
def client (w : RtpPullTcpManager) (c : Nat) : Except PullFault RtpPullClient :=
  match w.heap c with
  | none => .error .deletedClient
  | some cl => .ok cl

/-- A client's members are assigned. -/
def setClient (w : RtpPullTcpManager) (c : Nat) (cl : Option RtpPullClient) : RtpPullTcpManager :=
  { w with heap := fun a => if a = c then cl else w.heap a }

/-- `evhttp_connection_free`: the requests on the connection are dropped, and their callbacks with
them. -/
def freeHttp (w : RtpPullTcpManager) (con : Option Nat) : RtpPullTcpManager :=
  { w with requests := w.requests.filter fun r => some r.1 ≠ con }

/-- `GetNextNode`, and `GetSdp` up to `evhttp_make_request`. -/
def requestSdp (w : RtpPullTcpManager) (c : Nat) (made : Bool) :
    Except PullFault RtpPullTcpManager := do
  let cl ← w.client c
  let w := w.freeHttp cl.httpCon
  let con := w.nextAddr
  let w := w.setClient c
    (some { cl with lastRetryTime := BitVec.ofNat 32 env.time, httpCon := some con })
  .ok { w with
        nextAddr := con + 1
        requests := if made then w.requests ++ [(con, c)] else w.requests }

/-- The delay of the next retry. -/
def nextDelay (retryDelay : BitVec 32) : BitVec 32 :=
  let delay := retryDelay * 2
  if delay ≤ 0 then 1 else if 8 < delay then 8 else delay

/-- `Start`. The next try is made at once or posted; `PostTask` takes the delay for milliseconds. -/
def startWith (getNextNode : RtpPullTcpManager → Except PullFault RtpPullTcpManager)
    (w : RtpPullTcpManager) (c : Nat) : Except PullFault RtpPullTcpManager := do
  let cl ← w.client c
  if cl.lastRetryTime = 0 ∨ (30 : Int) < (env.time : Int) - cl.lastRetryTime.toNat then
    getNextNode (w.setClient c (some { cl with rtpConnection := none, retryDelay := 0 }))
  else
    let delay := nextDelay cl.retryDelay
    let w := w.setClient c (some { cl with rtpConnection := none, retryDelay := delay })
    .ok { w with tasks := w.tasks ++ [(env.now + delay.toNat, c)] }

/-- `GetNextNode` with `GetSdp`. As long as the request fails, `OnError` starts again. -/
def getNextNode (c : Nat) : Nat → RtpPullTcpManager → Except PullFault RtpPullTcpManager
  | 0, w => w.requestSdp env c true
  | failed + 1, w => do
    let w ← w.requestSdp env c false
    startWith env (getNextNode c failed) w c

/-- `Start`; `OnError` does nothing else. -/
def start (w : RtpPullTcpManager) (c : Nat) : Except PullFault RtpPullTcpManager :=
  startWith env (getNextNode env c (env.failedRequests c)) w c

/-- The client of a stream. -/
def find (w : RtpPullTcpManager) (id : StreamId) : Option Nat :=
  (w.clients.find? fun e => e.1 = id).map (·.2)

/-- `RtpConnection::Destroy` with `RtpPullTcpManager::OnConnectionClosed`: the client of the stream the
connection is on starts again. -/
def destroyConnection (w : RtpPullTcpManager) (con : Nat) :
    Except PullFault RtpPullTcpManager :=
  match w.connections con with
  | none => .ok w
  | some k =>
    let w : RtpPullTcpManager := { w with opened := w.opened.filter (· ≠ con) }
    match w.find k.streamid with
    | none => .ok w
    | some c => w.start env c

/-- `new RtpPullClient` and `m_clients[streamid] = client`. -/
def addClient (w : RtpPullTcpManager) (id : StreamId) : RtpPullTcpManager :=
  { w.setClient w.nextAddr (some
      { streamid := id
        httpCon := none
        rtpConnection := none
        lastRetryTime := 0
        retryDelay := 0
        startTime := BitVec.ofNat 32 env.time }) with
    nextAddr := w.nextAddr + 1
    clients := w.clients ++ [(id, w.nextAddr)] }

/-- `StartPull`. -/
def startPull (w : RtpPullTcpManager) (id : StreamId) : Except PullFault RtpPullTcpManager :=
  match w.find id with
  | some _ => .ok w
  | none => (w.addClient env id).start env w.nextAddr

/-- `StopPull` with `~RtpPullClient`. -/
def stopPull (w : RtpPullTcpManager) (id : StreamId) : Except PullFault RtpPullTcpManager :=
  match w.find id with
  | none => .ok w
  | some c => do
    let cl ← w.client c
    let w : RtpPullTcpManager := { w with clients := w.clients.filter fun e => e.1 ≠ id }
    let w := (w.freeHttp cl.httpCon).setClient c none
    match cl.rtpConnection with
    | none => .ok w
    | some con => w.destroyConnection env con

/-- `IsUseless`. -/
def isUseless (cl : RtpPullClient) : Bool :=
  !env.hasPlayer cl.streamid && decide ((10 : Int) < (env.time : Int) - cl.startTime.toNat)

/-- The loop of `OnPullTimerImpl` that collects the trash. -/
def trash (w : RtpPullTcpManager) : Except PullFault (List Nat) :=
  w.clients.foldlM
    (fun trash e => do
      let cl ← w.client e.2
      .ok (if isUseless env cl then trash ++ [e.2] else trash))
    []

/-- `OnPullTimerImpl`. -/
def onPullTimer (w : RtpPullTcpManager) : Except PullFault RtpPullTcpManager := do
  let trash ← w.trash env
  trash.foldlM
    (fun w c => do
      let cl ← w.client c
      w.stopPull env cl.streamid)
    w

/-- The loop of `_open_trans` that destroys the uploaders of the stream: after the first one the
iterator stands on a connection that has left the group. -/
def openTrans (w : RtpPullTcpManager) (con : Nat) (id : StreamId) :
    Except PullFault RtpPullTcpManager :=
  let uploaders := w.opened.filter fun a => a ≠ con ∧
    (w.connections a).any fun k =>
      k.isUploader ∧ get32bitStreamId k.streamid = get32bitStreamId id
  match uploaders with
  | [] => if env.otherUploader then .error .staleIterator else .ok w
  | old :: _ => do
    let _ ← w.destroyConnection env old
    .error .staleIterator

/-- `CreateConnection`, for the stream of a client. -/
def createConnection (w : RtpPullTcpManager) (id : StreamId) : RtpPullTcpManager :=
  { w with
    nextAddr := w.nextAddr + 1
    connections := fun a =>
      if a = w.nextAddr then some { streamid := id, isUploader := true } else w.connections a
    opened := w.opened ++ [w.nextAddr] }

/-- `ConnectRtpServer`. -/
def connectRtpServer (w : RtpPullTcpManager) (c : Nat) : Except PullFault RtpPullTcpManager := do
  let cl ← w.client c
  if env.fdSock < 0 then w.start env c
  else if env.connected = false then w.start env c
  else
    ((w.createConnection cl.streamid).setClient c
      (some { cl with rtpConnection := some w.nextAddr })).openTrans env w.nextAddr cl.streamid

/-- `OnSdpImpl`. -/
def onSdp (w : RtpPullTcpManager) (c : Nat) : Except PullFault RtpPullTcpManager := do
  let _ ← w.client c
  if env.httpcode = 200 ∧ env.content ≠ [] ∧ 0 ≤ env.setSdpStr then w.connectRtpServer env c
  else w.start env c

/-- What can happen to the relay. -/
inductive Event
  | startPull (id : StreamId)
  | stopPull (id : StreamId)
  | pullTimer
  /-- a connection is destroyed: by its socket, by a timer, or by another uploader -/
  | closed (con : Nat)
  /-- the peer of a connection asks for another stream, to upload it or to play it -/
  | reqState (con : Nat) (id : StreamId) (uploader : Bool)
  /-- an SDP request is completed -/
  | sdp (i : Nat)
  /-- a posted task is run -/
  | task (i : Nat)

/-- The reaction to an event. An event of a connection, a request or a task that is not there cannot
occur, nor can a task run before it is due. -/
def step (w : RtpPullTcpManager) : Event → Except PullFault RtpPullTcpManager
  | .startPull id => w.startPull env id
  | .stopPull id => w.stopPull env id
  | .pullTimer => w.onPullTimer env
  | .closed con => if con ∈ w.opened then w.destroyConnection env con else .ok w
  | .reqState con id uploader =>
    .ok { w with
          connections := fun a =>
            if a = con then
              (w.connections a).map fun _ => { streamid := id, isUploader := uploader }
            else w.connections a }
  | .sdp i =>
    match w.requests[i]? with
    | none => .ok w
    | some (_, c) => { w with requests := w.requests.eraseIdx i }.onSdp env c
  | .task i =>
    match w.tasks[i]? with
    | none => .ok w
    | some (due, c) =>
      if due ≤ env.now then
        getNextNode env c (env.failedRequests c) { w with tasks := w.tasks.eraseIdx i }
      else .ok w

/-- A run. -/
def run (w : RtpPullTcpManager) (events : List (PullEnv × Event)) :
    Except PullFault RtpPullTcpManager :=
  events.foldlM (fun w e => w.step e.1 e.2) w

end RtpPullTcpManager

end RtcMcu.Relay
