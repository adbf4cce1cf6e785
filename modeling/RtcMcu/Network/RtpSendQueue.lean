import RtcMcu.CmdProtocol.Proto
import RtcMcu.Lib.SlotPool

/-!
# RTPSendQueue

`network/rtp_send_queue.cpp`, and how `RtpUdpServerManager` sends: `SendUdpData` queues a datagram in
a slot, `OnWrite` sends what is queued. A slot is used again for later datagrams, with the bytes of
the last one still in it.

What is sent is what was queued, each datagram to its own address with its own bytes, and is one
message to the server that receives it, unless it has 2048 bytes: those the sender accepts and the
receiver closes the connection for (`udp_link_messages`).
-/

namespace RtcMcu.Network

open RtcMcu.Avformat RtcMcu.CmdProtocol RtcMcu.ConnectionManager RtcMcu.SlotPool

/-! ## The queue -/

def MAX_RTP_UDP_BUFFER_SIZE : Nat := 2 * 1024

/-- `RTPSendQueueSlot`. -/
structure RTPSendQueueSlot where
  netIp : BitVec 32
  netPort : BitVec 16
  data : Vector Byte MAX_RTP_UDP_BUFFER_SIZE
  len : Nat

/-- A datagram, and where `sendto` sends it. -/
structure Datagram where
  netIp : BitVec 32
  netPort : BitVec 16
  data : List Byte

/-- `add` writes a slot: `memcpy` leaves what is behind the new bytes. -/
def RTPSendQueueSlot.write (d : Datagram) (old : RTPSendQueueSlot) : RTPSendQueueSlot where
  netIp := d.netIp
  netPort := d.netPort
  data := Vector.ofFn fun i => d.data.getD i (old.data.get i)
  len := d.data.length

/-- What `send` passes to `sendto`. -/
def RTPSendQueueSlot.datagram (slot : RTPSendQueueSlot) : Datagram where
  netIp := slot.netIp
  netPort := slot.netPort
  data := slot.data.toList.take slot.len

/-- `RTPSendQueue`: `_send_queue` and `_free_slot_list` hold the addresses of slots. -/
abbrev RTPSendQueue := Pool RTPSendQueueSlot

/-- `add`. `fresh` is `new`. -/
def RTPSendQueue.add (fresh : List Nat → Nat) (q : RTPSendQueue) (d : Datagram) : RTPSendQueue × Int :=
  if MAX_RTP_UDP_BUFFER_SIZE < d.data.length ∨ d.data.length ≤ 0 then (q, -1)
  else (q.push fresh (RTPSendQueueSlot.write d), 0)

/-- `send`: what is passed to `sendto`, whose result is not looked at. `RecycleSlot` deletes a slot if
there are more than 10000 free ones. -/
def RTPSendQueue.send (q : RTPSendQueue) : List Datagram × RTPSendQueue :=
  let (slots, q) := q.drain 10000
  (slots.map RTPSendQueueSlot.datagram, q)

/-- A slot holds the datagram that was written. -/
theorem datagram_write {d : Datagram} (h : d.data.length ≤ MAX_RTP_UDP_BUFFER_SIZE)
    (old : RTPSendQueueSlot) : (RTPSendQueueSlot.write d old).datagram = d := by
  obtain ⟨netIp, netPort, data⟩ := d
  simp only [RTPSendQueueSlot.write, RTPSendQueueSlot.datagram, Datagram.mk.injEq, true_and]
  apply List.ext_getElem
  · rw [List.length_take, Vector.length_toList]
    exact Nat.min_eq_left h
  · intro i hi hdata
    rw [List.getElem_take, Vector.getElem_toList, Vector.getElem_ofFn, List.getD_eq_getElem?_getD,
      List.getElem?_eq_getElem hdata, Option.getD_some]

/-! ## Sending -/

/-- A call of `SendUdpData`: where the connection's peer is, and the message. -/
structure UdpCall where
  netIp : BitVec 32
  netPort : BitVec 16
  message : Message

def UdpCall.datagram (call : UdpCall) : Datagram where
  netIp := call.netIp
  netPort := call.netPort
  data := frame call.message

/-- The sending half of `RtpUdpServerManager`: `m_send_queue`, `m_ev_socket.w_enabled`, what was
passed to `sendto`, and the calls of `SendUdpData`. -/
structure UdpSender where
  queue : RTPSendQueue
  wEnabled : Bool
  wire : List Datagram
  sent : List UdpCall

/-- At the start no slot is in use; memory holds anything. -/
def UdpSender.new (mem : Nat → RTPSendQueueSlot) : UdpSender where
  queue := { mem := mem, queued := [], free := [] }
  wEnabled := true
  wire := []
  sent := []

/-- `SendData` to a UDP connection, and `OnWrite`. -/
inductive UdpEvent
  | send (call : UdpCall)
  | writable

def UdpSender.step (fresh : List Nat → Nat) (s : UdpSender) : UdpEvent → UdpSender
  | .send call =>
    { s with
      queue := (s.queue.add fresh call.datagram).1
      wEnabled := true
      sent := s.sent ++ [call] }
  | .writable =>
    if s.wEnabled then
      let (sent, queue) := s.queue.send
      { s with queue := queue, wEnabled := false, wire := s.wire ++ sent }
    else s

def UdpSender.run (fresh : List Nat → Nat) (events : List UdpEvent) (s : UdpSender) : UdpSender :=
  events.foldl (UdpSender.step fresh) s

/-- The calls that are queued: a message is never empty, so only long ones are refused. -/
def queuedCalls (sent : List UdpCall) : List UdpCall :=
  sent.filter fun call => decide ((frame call.message).length ≤ MAX_RTP_UDP_BUFFER_SIZE)

/-- The wire and the queue hold the datagrams that were queued, in slots of their own. -/
structure UdpSender.Whole (s : UdpSender) : Prop where
  distinct : s.queue.Distinct
  free : s.queue.free.length ≤ 10001
  written : s.wire ++ s.queue.contents.map RTPSendQueueSlot.datagram =
    (queuedCalls s.sent).map UdpCall.datagram
  enabled : s.queue.contents ≠ [] → s.wEnabled = true

theorem queuedCalls_one (call : UdpCall) : queuedCalls [call] =
    if call.datagram.data.length ≤ MAX_RTP_UDP_BUFFER_SIZE then [call] else [] := by
  simp only [queuedCalls, List.filter_cons, List.filter_nil, decide_eq_true_eq]
  rfl

theorem add_contents {fresh : List Nat → Nat} (hfresh : ∀ used, fresh used ∉ used) {q : RTPSendQueue}
    (h : q.Distinct) (call : UdpCall) :
    (q.add fresh call.datagram).1.Distinct ∧
      (q.add fresh call.datagram).1.free.length ≤ q.free.length ∧
      (q.add fresh call.datagram).1.contents.map RTPSendQueueSlot.datagram =
        q.contents.map RTPSendQueueSlot.datagram ++ (queuedCalls [call]).map UdpCall.datagram := by
  have hpos : ¬ call.datagram.data.length ≤ 0 := by
    rw [UdpCall.datagram, length_frame]
    simp only [protoHeaderLen]
    omega
  have hone := queuedCalls_one call
  by_cases hlong : MAX_RTP_UDP_BUFFER_SIZE < call.datagram.data.length
  · rw [if_neg (Nat.not_le.mpr hlong)] at hone
    rw [RTPSendQueue.add, if_pos (.inl hlong), hone]
    exact ⟨h, Nat.le_refl _, (List.append_nil _).symm⟩
  · have hroom := Nat.le_of_not_lt hlong
    rw [if_pos hroom] at hone
    rw [RTPSendQueue.add, if_neg (not_or.mpr ⟨hlong, hpos⟩), hone]
    refine ⟨Pool.push_distinct hfresh _ h, Pool.push_free _, ?_⟩
    rw [Pool.contents_push hfresh _ h, List.map_append, List.map_singleton, datagram_write hroom]
    rfl

/-- One event. -/
theorem UdpSender.step_whole {fresh : List Nat → Nat} (hfresh : ∀ used, fresh used ∉ used)
    {s : UdpSender} (h : s.Whole) (e : UdpEvent) : (s.step fresh e).Whole := by
  cases e with
  | send call =>
    obtain ⟨hdistinct, hfree, hcontents⟩ := add_contents hfresh h.distinct call
    refine ⟨hdistinct, Nat.le_trans hfree h.free, ?_, fun _ => rfl⟩
    have hsent : queuedCalls (s.sent ++ [call]) = queuedCalls s.sent ++ queuedCalls [call] :=
      List.filter_append _ _
    rw [UdpSender.step]
    dsimp only
    rw [hcontents, hsent, List.map_append, ← h.written, List.append_assoc]
  | writable =>
    rw [UdpSender.step]
    split
    · obtain ⟨hitems, hempty, hdistinct, hfree⟩ := Pool.contents_drain h.distinct h.free
      refine ⟨hdistinct, hfree, ?_, fun hne => absurd hempty hne⟩
      show (s.wire ++ (s.queue.drain 10000).1.map RTPSendQueueSlot.datagram) ++
        (s.queue.drain 10000).2.contents.map RTPSendQueueSlot.datagram = _
      rw [hitems, hempty, List.map_nil, List.append_nil, h.written]
    · exact h

theorem UdpSender.run_whole {fresh : List Nat → Nat} (hfresh : ∀ used, fresh used ∉ used)
    (events : List UdpEvent) {s : UdpSender} (h : s.Whole) : (s.run fresh events).Whole := by
  induction events generalizing s with
  | nil => exact h
  | cons e events ih => exact ih (s.step_whole hfresh h e)

theorem new_whole (mem : Nat → RTPSendQueueSlot) : (UdpSender.new mem).Whole :=
  ⟨List.nodup_nil, Nat.zero_le _, rfl, fun hne => absurd rfl hne⟩

/-- What a server does with a datagram that comes, in a buffer that held others: the message, or what
`OnReadPacket` returns. -/
def receiveDatagram (d : Datagram) (stale : List Byte) : Except Int Message :=
  (readHeader true ⟨d.data ++ stale, d.data.length⟩).map (messageOf · (d.data ++ stale))

/-- However calls of `SendData` and turns of the socket follow each other: what was sent and what is
queued are the messages of at most 2048 bytes, in order, each for its own peer, although slots are
used again; at most 10001 free slots are kept; what is queued waits for the socket; and a datagram
that was sent is received as its message, or closes the connection if it has 2048 bytes. -/
theorem udp_link_messages {fresh : List Nat → Nat} (hfresh : ∀ used, fresh used ∉ used)
    (mem : Nat → RTPSendQueueSlot) (events : List UdpEvent) {s : UdpSender}
    (hrun : (UdpSender.new mem).run fresh events = s) :
    s.wire ++ s.queue.contents.map RTPSendQueueSlot.datagram =
        (queuedCalls s.sent).map UdpCall.datagram ∧
      s.queue.free.length ≤ 10001 ∧
      (s.queue.contents ≠ [] → s.wEnabled = true) ∧
      ∀ d ∈ s.wire, ∃ call ∈ s.sent, d = call.datagram ∧ ∀ stale, receiveDatagram d stale =
        if d.data.length < MAX_RTP_UDP_BUFFER_SIZE then .ok call.message else .error (-3) := by
  have h := UdpSender.run_whole hfresh events (new_whole mem)
  rw [hrun] at h
  refine ⟨h.written, h.free, h.enabled, fun d hd => ?_⟩
  have hcall : d ∈ (queuedCalls s.sent).map UdpCall.datagram := by
    rw [← h.written]
    exact List.mem_append_left _ hd
  obtain ⟨call, hqueued, rfl⟩ := List.mem_map.mp hcall
  obtain ⟨hsent, hshort⟩ := List.mem_filter.mp hqueued
  refine ⟨call, hsent, rfl, fun stale => ?_⟩
  have hlen : (frame call.message).length ≤ bufferMax true := of_decide_eq_true hshort
  rw [receiveDatagram]
  show (readHeader true ⟨frame call.message ++ stale, (frame call.message).length⟩).map
    (messageOf · (frame call.message ++ stale)) = _
  rw [readHeader_datagram hlen]
  by_cases hfits : (frame call.message).length < bufferMax true
  · have hmessage : Fits true call.message := by
      rw [Fits, ← length_frame]
      exact hfits
    rw [if_pos hfits]
    refine Eq.trans ?_ (if_pos hfits).symm
    exact congrArg Except.ok (messageOf_frame hmessage stale)
  · rw [if_neg hfits]
    exact (if_neg hfits).symm

/-- A heap that gives out the address behind those in use. -/
def nextSlot (used : List Nat) : Nat := used.foldr Nat.max 0 + 1

theorem nextSlot_fresh (used : List Nat) : nextSlot used ∉ used := by
  have hmax : ∀ slot ∈ used, slot ≤ used.foldr Nat.max 0 := by
    induction used with
    | nil => exact fun slot hslot => absurd hslot List.not_mem_nil
    | cons first used ih =>
      intro slot hslot
      rcases List.mem_cons.mp hslot with rfl | hrest
      · exact Nat.le_max_left _ _
      · exact Nat.le_trans (ih slot hrest) (Nat.le_max_right _ _)
  intro hmem
  exact absurd (hmax _ hmem) (Nat.not_le.mpr (Nat.lt_succ_self _))

def emptySlot : RTPSendQueueSlot := ⟨0, 0, Vector.replicate _ 0, 0⟩

/-- Two answers to two peers; the slot of the first is used again for the second. -/
def twoAnswers : List UdpEvent :=
  [.send ⟨1, 80, rspMessage CMD_RTP_U2R_RSP_STATE 1 7⟩, .writable,
    .send ⟨2, 81, rspMessage CMD_RTP_D2P_RSP_STATE 1 7⟩, .writable]

theorem udp_link_messages_two : ∃ s, (UdpSender.new fun _ => emptySlot).run nextSlot twoAnswers = s ∧
    s.wire ++ s.queue.contents.map RTPSendQueueSlot.datagram =
        (queuedCalls s.sent).map UdpCall.datagram ∧
      s.queue.free.length ≤ 10001 ∧
      (s.queue.contents ≠ [] → s.wEnabled = true) ∧
      ∀ d ∈ s.wire, ∃ call ∈ s.sent, d = call.datagram ∧ ∀ stale, receiveDatagram d stale =
        if d.data.length < MAX_RTP_UDP_BUFFER_SIZE then .ok call.message else .error (-3) :=
  ⟨_, rfl, udp_link_messages nextSlot_fresh (fun _ => emptySlot) twoAnswers rfl⟩

end RtcMcu.Network
