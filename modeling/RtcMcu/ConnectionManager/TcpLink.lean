import RtcMcu.CmdProtocol.Proto

/-!
# A TCP connection between two servers

One side calls `SendData`, which appends a message to the connection's buffer `wb`, or drops it when
the buffer is full: nobody looks at what `buffer_expand_capacity` and `buffer_append_ptr` return. The
socket takes bytes of the buffer when it can, in `OnSocketDataImpl`, as many as it likes. The other
side reads them in pieces of any size and calls `OnReadPacket`.

The bytes on the wire and those still in the buffer are always whole messages, one after the other
(`TcpSender.step_written`), and what the other side dispatches is the messages that were not dropped,
in their order, none torn, none twice (`tcp_link_in_order`).
-/

namespace RtcMcu.ConnectionManager

open RtcMcu.Avformat RtcMcu.CmdProtocol RtcMcu.Coupling RtcMcu.Fifo RtcMcu.MediaManager RtcMcu.RtpTrans
  RtcMcu.Util Std

/-! ## Writing -/

/-- What a call of `write` does: it takes up to `n` bytes, or would block, or fails. -/
inductive Written
  | wrote (n : Nat)
  | again
  | failed

/-- The loop of `buffer_write_fd_max`, with `left` bytes before `end`: the buffer, what was written,
and whether `write` failed. A socket that was asked as often as there are answers takes no more. -/
def writeLoop (b : Buffer) (left : Nat) : List Written → Buffer × List Byte × Bool
  | [] => (b, [], false)
  | .again :: _ => (b, [], false)
  | .failed :: _ => (b, [], decide (0 < left))
  | .wrote n :: answers =>
    if left = 0 ∨ n = 0 then (b, [], false)
    else
      let rest := writeLoop (b.eat (min n left)).1 (left - min n left) answers
      (rest.1, b.data.take (min n left) ++ rest.2.1, rest.2.2)

/-- `buffer_write_fd`. -/
def writeFd (b : Buffer) (answers : List Written) : Buffer × List Byte × Bool :=
  writeLoop b (min (1024 * 1024) b.dataLen) answers

/-- The sending half of a TCP connection: `wb`, `ev_socket.w_enabled`, the bytes the socket has taken,
and the messages `SendData` was called with, each with the backlog it found. -/
structure TcpSender where
  live : Bool
  wb : Buffer
  wEnabled : Bool
  wire : List Byte
  sent : List (Message × Nat)

/-- `CreateConnection`. -/
def TcpSender.new : TcpSender where
  live := true
  wb := Buffer.init 2048 (bufferMax false)
  wEnabled := true
  wire := []
  sent := []

section Alloc

variable (alloc : Nat → Bool)

/-- `SendData` to a TCP connection, of which `wb` is left. -/
def sendData (wb : Buffer) (data : List Byte) : Except BufferFault Buffer :=
  if data = [] then .ok wb
  else do
    let (wb, _) ← wb.bufferExpandCapacity alloc data.length
    let (wb, _) ← wb.appendPtr data
    .ok wb

/-- A message is sent. -/
def TcpSender.send (s : TcpSender) (m : Message) : Except BufferFault TcpSender := do
  let wb ← sendData alloc s.wb (frame m)
  .ok { s with wb := wb, wEnabled := true, sent := s.sent ++ [(m, s.wb.dataLen)] }

/-- `buffer_append` of a request that a client has just connected to send. -/
def TcpSender.append (s : TcpSender) (m : Message) : Except BufferFault TcpSender := do
  let (wb, _) ← s.wb.appendPtr (frame m)
  .ok { s with wb := wb, sent := s.sent ++ [(m, s.wb.dataLen)] }

/-- The second half of `OnSocketDataImpl`. The event comes only if writing is enabled. -/
def TcpSender.writable (s : TcpSender) (answers : List Written) : TcpSender :=
  if s.wb.dataLen = 0 then { s with wEnabled := false }
  else
    let (wb, bytes, failed) := writeFd s.wb answers
    if failed then { s with live := false, wb := wb, wire := s.wire ++ bytes }
    else
      { s with
        wb := wb.tryAdjust
        wEnabled := decide (wb.tryAdjust.dataLen ≠ 0)
        wire := s.wire ++ bytes }

/-- What happens to the sending half. -/
inductive SendEvent
  | send (m : Message)
  | writable (answers : List Written)
  | closed

def TcpSender.step (s : TcpSender) : SendEvent → Except BufferFault TcpSender
  | .send m => if s.live then s.send alloc m else .ok s
  | .writable answers => .ok (if s.live && s.wEnabled then s.writable answers else s)
  | .closed => .ok { s with live := false }

end Alloc

/-- The messages that found room: with them the backlog stays below what a buffer may hold. -/
def accepted (sent : List (Message × Nat)) : List Message :=
  (sent.filter fun s => decide (s.2 + (frame s.1).length < bufferMax false)).map (·.1)

/-! ### The write buffer -/

/-- A write buffer: it has not grown to the size it may not reach. -/
structure WriteBuffer (alloc : Nat → Bool) (b : Buffer) : Prop where
  max : b.max = bufferMax false
  size : b.size < bufferMax false
  alloc : alloc b.size = true

theorem max_expandCapacity {alloc : Nat → Bool} {b b' : Buffer} {cap : Nat} {ret : Int}
    (h : b.bufferExpandCapacity alloc cap = .ok (b', ret)) : b'.max = b.max := by
  unfold Buffer.bufferExpandCapacity at h
  split at h
  · cases h
    rfl
  · split at h
    · cases h
      rfl
    · split at h
      · cases h
        rfl
      · obtain ⟨⟨b₁, ret₁⟩, hexpand, h⟩ := bind_eq_ok.mp h
        have hmax : b₁.max = b.max := by
          unfold Buffer.expand at hexpand
          split at hexpand
          · cases hexpand
            rfl
          · split at hexpand
            · split at hexpand
              · cases hexpand
                rfl
              · cases hexpand
            · cases hexpand
              rfl
        dsimp only at h
        split at h
        · cases h
          exact hmax
        · cases h
          exact hmax

theorem max_appendPtr {b b' : Buffer} {src : List Byte} {ret : Int}
    (h : b.appendPtr src = .ok (b', ret)) : b'.max = b.max := by
  unfold Buffer.appendPtr at h
  split at h
  · cases h
    rfl
  · dsimp only at h
    by_cases hcap : b.capacity < src.length
    · simp only [if_pos hcap] at h
      split at h
      · cases h
        rfl
      · cases h
    · simp only [if_neg hcap] at h
      split at h
      · cases h
        rfl
      · cases h

/-- Room is made below the size a buffer may not reach. -/
theorem size_expandCapacity {alloc : Nat → Bool} {b b' : Buffer} {cap : Nat} {ret : Int}
    (hsize : b.size < 2 ^ 62) (hcap : cap < 2 ^ 62) (hmax : b.size < b.max)
    (h : b.bufferExpandCapacity alloc cap = .ok (b', ret)) :
    b'.size < b.max ∧ (b.dataLen + cap < b.max → ret = 0) ∧ (b.max ≤ b.dataLen + cap → b' = b) := by
  have hlen := b.dataLen_le_size
  have hstop : b.stop ≤ b.size := b.stop_le
  rw [Buffer.bufferExpandCapacity, addSize_of_lt (by omega)] at h
  split at h
  · cases h
    exact ⟨hmax, fun _ => rfl, fun _ => rfl⟩
  · split at h
    · next hfull =>
      cases h
      exact ⟨hmax, fun hlt => absurd hlt (Nat.not_lt.mpr hfull), fun _ => rfl⟩
    · next hroom =>
      split at h
      · cases h
        rw [Buffer.size_adjust]
        exact ⟨hmax, fun _ => rfl, fun hle => absurd hle hroom⟩
      · next hgrow =>
        rw [Buffer.expand, if_neg hroom, if_pos (Nat.lt_of_not_le hgrow)] at h
        split at h
        · rw [ok_bind] at h
          dsimp only at h
          rw [if_neg (by decide)] at h
          cases h
          rw [Buffer.size_adjust, Buffer.size_realloc _ (by omega)]
          exact ⟨Nat.lt_of_not_le hroom, fun _ => rfl, fun hle => absurd hle hroom⟩
        · cases h

/-- `SendData` appends all bytes or none, by the backlog it finds. -/
theorem sendData_spec {alloc : Nat → Bool} (halloc : ∀ n, alloc n = true → n < 2 ^ 63)
    {wb wb' : Buffer} (hwb : WriteBuffer alloc wb) {data : List Byte} (hdata : data.length < 2 ^ 62)
    (h : sendData alloc wb data = .ok wb') :
    WriteBuffer alloc wb' ∧
      wb'.data = if wb.dataLen + data.length < bufferMax false then wb.data ++ data else wb.data := by
  have hbound : bufferMax false < 2 ^ 62 := by decide
  have hsize := hwb.size
  have hmax := hwb.max
  unfold sendData at h
  split at h
  · next hempty =>
    cases h
    rw [hempty, List.append_nil, ite_self]
    exact ⟨hwb, rfl⟩
  · obtain ⟨⟨b₁, ret₁⟩, hexpand, h⟩ := bind_eq_ok.mp h
    obtain ⟨⟨b₂, ret₂⟩, happend, h⟩ := bind_eq_ok.mp h
    cases h
    have hallows := (wb.expandCapacity_allows (halloc _ hwb.alloc) hwb.alloc hdata).of_ok hexpand
    obtain ⟨hsize₁, hmade, hfull⟩ :=
      size_expandCapacity (by omega) hdata (by rw [hmax]; exact hsize) hexpand
    have hmax₁ := max_expandCapacity hexpand
    rw [hmax] at hsize₁ hmade hfull hmax₁
    obtain ⟨b₂', ret₂', happend', hsize₂, hallows₂⟩ := b₁.appendPtr_allows data (by omega) hdata
    cases happend.symm.trans happend'
    refine ⟨⟨(max_appendPtr happend).trans hmax₁, ?_, ?_⟩, ?_⟩
    · rw [hsize₂]
      exact hsize₁
    · rw [hsize₂]
      exact hallows.1
    · split
      · next hroom =>
        have hzero : ret₁ = 0 := hmade hroom
        rw [hzero] at hexpand
        obtain ⟨-, b₃, happend₃, hdata₃⟩ :=
          Buffer.append_after_expand halloc hwb.alloc hdata hexpand (rfl : data.length = _)
        cases happend.symm.trans happend₃
        exact hdata₃
      · next hover =>
        cases hfull (Nat.le_of_not_lt hover)
        rcases hallows₂ with ⟨hfits, -, -, -⟩ | ⟨-, -, hsame⟩
        · simp only [Buffer.queue_items, Buffer.queue_bound, wb.length_data] at hfits
          omega
        · exact congrArg Queue.items hsame

/-! ### What the socket takes -/

theorem dataLen_eat (b : Buffer) (n : Nat) : (b.eat n).1.dataLen = b.dataLen - n := by
  rw [← Buffer.length_data, Buffer.data_eat, List.length_drop, Buffer.length_data]

/-- The socket takes bytes from the front of the buffer. -/
theorem writeLoop_spec (answers : List Written) {b : Buffer} {left : Nat} (hleft : left ≤ b.dataLen) :
    (writeLoop b left answers).2.1 ++ (writeLoop b left answers).1.data = b.data ∧
      (writeLoop b left answers).1.size = b.size ∧ (writeLoop b left answers).1.max = b.max := by
  induction answers generalizing b left with
  | nil => exact ⟨rfl, rfl, rfl⟩
  | cons answer answers ih =>
    cases answer with
    | again => exact ⟨rfl, rfl, rfl⟩
    | failed => exact ⟨rfl, rfl, rfl⟩
    | wrote n =>
      rw [writeLoop]
      split
      · exact ⟨rfl, rfl, rfl⟩
      · have hrest : left - min n left ≤ (b.eat (min n left)).1.dataLen := by
          rw [dataLen_eat]
          omega
        obtain ⟨hdata, hsize, hmax⟩ := ih hrest
        refine ⟨?_, hsize, hmax⟩
        dsimp only
        rw [List.append_assoc, hdata, Buffer.data_eat, List.take_append_drop]

theorem max_tryAdjust (b : Buffer) : b.tryAdjust.max = b.max := by
  unfold Buffer.tryAdjust
  split
  · rfl
  · split <;> rfl

theorem WriteBuffer.of_same {alloc : Nat → Bool} {b b' : Buffer} (h : WriteBuffer alloc b)
    (hsize : b'.size = b.size) (hmax : b'.max = b.max) : WriteBuffer alloc b' :=
  ⟨hmax.trans h.max, by rw [hsize]; exact h.size, by rw [hsize]; exact h.alloc⟩

/-! ### Whole messages -/

/-- The wire and the buffer hold the accepted messages, and a buffer that holds something waits for
the socket. -/
structure TcpSender.Whole (alloc : Nat → Bool) (s : TcpSender) : Prop where
  buffer : WriteBuffer alloc s.wb
  written : s.wire ++ s.wb.data = (accepted s.sent).flatMap frame
  enabled : s.live = true → s.wb.data ≠ [] → s.wEnabled = true

theorem accepted_snoc (sent : List (Message × Nat)) (m : Message) (backlog : Nat) :
    accepted (sent ++ [(m, backlog)]) =
      if backlog + (frame m).length < bufferMax false then accepted sent ++ [m] else accepted sent := by
  simp only [accepted, List.filter_append, List.map_append, List.filter_cons, List.filter_nil,
    decide_eq_true_eq]
  split
  · rfl
  · exact List.append_nil _

section Kept

variable {alloc : Nat → Bool} {s s' : TcpSender}

/-- The buffer changed by what was accepted. -/
theorem TcpSender.Whole.sent (h : s.Whole alloc) {wb : Buffer} {m : Message}
    (hdata : wb.data = if s.wb.dataLen + (frame m).length < bufferMax false then s.wb.data ++ frame m
      else s.wb.data) :
    s.wire ++ wb.data = (accepted (s.sent ++ [(m, s.wb.dataLen)])).flatMap frame := by
  rw [accepted_snoc, hdata]
  split
  · rw [← List.append_assoc, h.written, List.flatMap_append, List.flatMap_singleton]
  · exact h.written

theorem send_whole (halloc : ∀ n, alloc n = true → n < 2 ^ 63) (h : s.Whole alloc) {m : Message}
    (hm : Fits false m) (hs' : s.send alloc m = .ok s') : s'.Whole alloc := by
  obtain ⟨wb, hwb, hs'⟩ := bind_eq_ok.mp hs'
  cases hs'
  have hlen : (frame m).length < 2 ^ 62 := by
    have hbound : bufferMax false < 2 ^ 62 := by decide
    rw [length_frame]
    exact Nat.lt_trans hm hbound
  obtain ⟨hbuffer, hdata⟩ := sendData_spec halloc h.buffer hlen hwb
  exact ⟨hbuffer, h.sent hdata, fun _ _ => rfl⟩

theorem writable_whole (h : s.Whole alloc) (answers : List Written) :
    (s.writable answers).Whole alloc := by
  unfold TcpSender.writable
  by_cases hempty : s.wb.dataLen = 0
  · rw [if_pos hempty]
    refine ⟨h.buffer, h.written, fun _ hdata => ?_⟩
    rw [← Buffer.length_data, List.length_eq_zero_iff] at hempty
    exact absurd hempty hdata
  · rw [if_neg hempty]
    have hspec := writeLoop_spec answers (Nat.min_le_right (1024 * 1024) s.wb.dataLen)
    rw [← writeFd] at hspec
    obtain ⟨hdata, hsize, hmax⟩ := hspec
    have hwritten : (s.wire ++ (writeFd s.wb answers).2.1) ++ (writeFd s.wb answers).1.data =
        (accepted s.sent).flatMap frame := by
      rw [List.append_assoc, hdata, h.written]
    dsimp only
    split
    · refine ⟨h.buffer.of_same hsize hmax, hwritten, fun hlive => ?_⟩
      cases hlive
    · have hqueue := (writeFd s.wb answers).1.queue_tryAdjust
      have hsame : (writeFd s.wb answers).1.tryAdjust.data = (writeFd s.wb answers).1.data :=
        congrArg Queue.items hqueue
      have hsameSize : (writeFd s.wb answers).1.tryAdjust.size = (writeFd s.wb answers).1.size :=
        congrArg Queue.bound hqueue
      refine ⟨h.buffer.of_same (hsameSize.trans hsize) ((max_tryAdjust _).trans hmax), ?_, fun _ hne => ?_⟩
      · dsimp only
        rw [hsame, hwritten]
      · refine decide_eq_true fun hzero => hne ?_
        rw [← Buffer.length_data] at hzero
        exact List.eq_nil_of_length_eq_zero hzero

/-- One event leaves whole messages on the wire and in the buffer. -/
theorem TcpSender.step_whole (halloc : ∀ n, alloc n = true → n < 2 ^ 63) (h : s.Whole alloc)
    {e : SendEvent} (he : ∀ m, e = .send m → Fits false m) (hs' : s.step alloc e = .ok s') :
    s'.Whole alloc := by
  cases e with
  | send m =>
    rw [TcpSender.step] at hs'
    split at hs'
    · exact send_whole halloc h (he m rfl) hs'
    · cases hs'
      exact h
  | writable answers =>
    cases hs'
    split
    · exact writable_whole h answers
    · exact h
  | closed =>
    cases hs'
    exact ⟨h.buffer, h.written, fun hlive => absurd hlive Bool.false_ne_true⟩

end Kept

/-! ## Reading -/

/-- The messages are taken by a connection of this type, one after the other. -/
def Heard : ConnectionType → List Message → Prop
  | _, [] => True
  | type, m :: ms => Fits false m ∧ (commandReturns type (headerOf m)).1 = 1 ∧
      Heard (commandReturns type (headerOf m)).2 ms

theorem turn_frame {type : ConnectionType} {m : Message} (hm : Fits false m)
    (hret : (commandReturns type (headerOf m)).1 = 1) (rest : List Byte) (dispatched : List Message)
    (ret : Int) : (⟨type, frame m ++ rest, dispatched, ret⟩ : Reading).turn =
      ⟨(commandReturns type (headerOf m)).2, rest, dispatched ++ [m], 1⟩ := by
  unfold Reading.turn
  dsimp only
  rw [readHeader_frame hm rest]
  dsimp only
  rw [if_pos hret, hret, messageOf_frame hm, headerOf_size hm, List.drop_left' rfl]

theorem turn_torn (type : ConnectionType) {bytes : List Byte}
    (hread : readHeader false (exactly bytes) = .error 0) (dispatched : List Message) (ret : Int) :
    (⟨type, bytes, dispatched, ret⟩ : Reading).turn = ⟨type, bytes, dispatched, 0⟩ := by
  unfold Reading.turn
  dsimp only
  rw [hread]

/-- The first bytes of a frame and more, or less than a frame. -/
theorem prefix_frame {m : Message} {more bytes : List Byte} (h : bytes <+: frame m ++ more) :
    (bytes <+: frame m ∧ bytes.length < (frame m).length) ∨
      ∃ rest, bytes = frame m ++ rest ∧ rest <+: more := by
  by_cases hshort : bytes.length < (frame m).length
  · exact .inl ⟨List.prefix_of_prefix_length_le h (List.prefix_append _ _) (Nat.le_of_lt hshort),
      hshort⟩
  · have hwhole := List.prefix_of_prefix_length_le (List.prefix_append _ _) h (Nat.le_of_not_lt hshort)
    obtain ⟨rest, rfl⟩ := hwhole
    exact .inr ⟨rest, rfl, (List.prefix_append_right_inj _).mp h⟩

theorem readHeader_nil : readHeader false (exactly []) = .error 0 := rfl

/-- Reading the first bytes of some messages dispatches those that are complete, and waits. -/
theorem reading_frames (ms : List Message) {type : ConnectionType} (hms : Heard type ms)
    {bytes : List Byte} (hbytes : bytes <+: ms.flatMap frame) (dispatched : List Message) (ret : Int) :
    ∃ n type' rest, Reading.Finishes ⟨type, bytes, dispatched, ret⟩
        ⟨type', rest, dispatched ++ ms.take n, 0⟩ ∧
      (bytes = ms.flatMap frame → ms.take n = ms) := by
  induction ms generalizing type bytes dispatched ret with
  | nil =>
    cases List.prefix_nil.mp hbytes
    refine ⟨0, type, [], ?_, fun _ => rfl⟩
    have hturn := turn_torn type readHeader_nil dispatched ret
    rw [List.take_nil, List.append_nil, ← hturn]
    exact Reading.Finishes.last (by rw [hturn]; exact Int.zero_ne_one)
  | cons m ms ih =>
    obtain ⟨hm, hret, hrest⟩ := hms
    rw [List.flatMap_cons] at hbytes ⊢
    rcases prefix_frame hbytes with ⟨hstarts, hshort⟩ | ⟨rest, rfl, hmore⟩
    · refine ⟨0, type, bytes, ?_, fun hall => ?_⟩
      · have hturn := turn_torn type (readHeader_torn hm hstarts hshort) dispatched ret
        rw [List.take_zero, List.append_nil, ← hturn]
        exact Reading.Finishes.last (by rw [hturn]; exact Int.zero_ne_one)
      · rw [hall, List.length_append] at hshort
        omega
    · obtain ⟨n, type', left, hfinishes, hall⟩ := ih hrest hmore (dispatched ++ [m]) 1
      have hturn := turn_frame hm hret rest dispatched ret
      refine ⟨n + 1, type', left, ?_, fun hwhole => ?_⟩
      · refine Reading.Finishes.next (by rw [hturn]) ?_
        rw [hturn, List.take_succ_cons, List.append_cons dispatched m (ms.take n)]
        exact hfinishes
      · rw [List.take_succ_cons, hall (List.append_cancel_left hwhole)]

/-- No message of them declares size 0. -/
theorem taken_frames (ms : List Message) {type : ConnectionType} (hms : Heard type ms)
    {bytes : List Byte} (hbytes : bytes <+: ms.flatMap frame) {head : ProtoHeader}
    (htaken : Taken type bytes head) : head.size.toNat ≠ 0 := by
  induction ms generalizing type bytes with
  | nil =>
    cases List.prefix_nil.mp hbytes
    cases htaken with
    | first hread => cases readHeader_nil.symm.trans hread
    | later hread => cases readHeader_nil.symm.trans hread
  | cons m ms ih =>
    obtain ⟨hm, -, hrest⟩ := hms
    rw [List.flatMap_cons] at hbytes
    rcases prefix_frame hbytes with ⟨hstarts, hshort⟩ | ⟨rest, rfl, hmore⟩
    · have htorn := readHeader_torn hm hstarts hshort
      cases htaken with
      | first hread => cases htorn.symm.trans hread
      | later hread => cases htorn.symm.trans hread
    · have hwhole := readHeader_frame hm rest
      cases htaken with
      | first hread =>
        cases hwhole.symm.trans hread
        rw [headerOf_size hm, length_frame]
        simp only [protoHeaderLen]
        omega
      | later hread _ hlater =>
        cases hwhole.symm.trans hread
        rw [headerOf_size hm, List.drop_left' rfl] at hlater
        exact ih hrest hmore hlater

/-! ## Both sides -/

/-- What a server sends on a connection: the calls of `SendRtp` and `SendRtcp`, and the answers of
`OnReadPacket`. -/
inductive Outgoing
  | rtp (id : StreamId) (rtp : Rtp) (len : Nat) (ssrc : BitVec 32)
  | rtcp (id : StreamId) (built : List Byte)
  | u2rRsp (version : BitVec 32) (id : StreamId)
  | d2pRsp (version : BitVec 32) (id : StreamId)

def Outgoing.message : Outgoing → Except Fault Message
  | .rtp id pkt len ssrc => sendRtpMessage id pkt len ssrc
  | .rtcp id built => sendRtcpMessage id built
  | .u2rRsp version id => .ok (rspMessage CMD_RTP_U2R_RSP_STATE version id)
  | .d2pRsp version id => .ok (rspMessage CMD_RTP_D2P_RSP_STATE version id)

/-- A connection with the server on its other side. -/
structure Link where
  sender : TcpSender
  receiver : TcpStream

/-- What happens on either side: `read` gives up to `n` of the bytes that are in flight. -/
inductive LinkEvent
  | send (out : Outgoing)
  | writable (answers : List Written)
  | closed
  | read (envs : Nat → ServerEnv) (waiting n : Nat)
  | other (env : ServerEnv) (e : Event)

section Link

variable (alloc : Nat → Bool) (c : Addr)

/-- A new connection; a client appends its request. -/
def TcpSender.start : Option Request → Option TcpSender
  | none => some TcpSender.new
  | some req => (TcpSender.new.append req.message).toOption

/-- The connection is made. -/
def Link.connect (w : Server) (req : Option Request) : Option Link :=
  (TcpSender.start req).map fun sender => { sender := sender, receiver := TcpStream.accepted w }

/-- An event of the sending side; `none` if it ends with a fault. -/
def Link.sends (l : Link) (e : SendEvent) : Option Link :=
  (l.sender.step alloc e).toOption.map fun sender => { l with sender := sender }

/-- An event of the receiving side. -/
def Link.receives (l : Link) (e : TcpEvent) : Option Link :=
  (l.receiver.step c e).toOption.map fun receiver => { l with receiver := receiver }

/-- An event on either side. -/
def Link.step (l : Link) : LinkEvent → Option Link
  | .send out => do
    let m ← out.message.toOption
    l.sends alloc (.send m)
  | .writable answers => l.sends alloc (.writable answers)
  | .closed => l.sends alloc .closed
  | .read envs waiting n =>
    l.receives c (.read envs waiting ((l.sender.wire.drop l.receiver.received.length).take n))
  | .other env e => l.receives c (.other env e)

def Link.run (events : List LinkEvent) (l : Link) : Option Link := events.foldlM (Link.step alloc c) l

end Link

/-! ### What is sent is taken -/

/-- The type of a connection that has taken some messages. -/
def typeAfter : ConnectionType → List Message → ConnectionType
  | type, [] => type
  | type, m :: ms => typeAfter (commandReturns type (headerOf m)).2 ms

theorem heard_snoc (ms : List Message) {type : ConnectionType} (hms : Heard type ms) {m : Message}
    (hm : Fits false m) (hret : (commandReturns (typeAfter type ms) (headerOf m)).1 = 1) :
    Heard type (ms ++ [m]) ∧
      typeAfter type (ms ++ [m]) = (commandReturns (typeAfter type ms) (headerOf m)).2 := by
  induction ms generalizing type with
  | nil => exact ⟨⟨hm, hret, trivial⟩, rfl⟩
  | cons first ms ih =>
    obtain ⟨hfirst, hone, hrest⟩ := hms
    obtain ⟨hheard, htype⟩ := ih hrest hret
    exact ⟨⟨hfirst, hone, hheard⟩, htype⟩

/-- A message that a connection of a known type takes, and stays of that type. -/
def Carried (m : Message) : Prop :=
  Fits false m ∧ ∀ type : ConnectionType, type ≠ .unknown →
    commandReturns type (headerOf m) = (1, type)

theorem outgoing_carried {out : Outgoing} {m : Message} (hm : out.message = .ok m) : Carried m := by
  have hbound : 2048 < bufferMax false := by decide
  cases out with
  | rtp id pkt len ssrc =>
    rw [Outgoing.message, sendRtpMessage] at hm
    split at hm
    · cases hm
    · next hfits =>
      cases hm
      refine ⟨?_, ?_⟩
      · have htake := List.length_take_le len (if ssrc = 0 then pkt else pkt.setSsrc ssrc).bytes
        rw [Fits, List.length_append, length_streamIdBytes]
        simp only [packetHeadLen, protoHeaderLen] at hfits ⊢
        omega
      · intro type htype
        cases type with
        | unknown => exact absurd rfl htype
        | player => rfl
        | uploader => rfl
  | rtcp id built =>
    rw [Outgoing.message, sendRtcpMessage] at hm
    split at hm
    · cases hm
    · next hfits =>
      cases hm
      refine ⟨?_, ?_⟩
      · rw [Fits, List.length_append, length_streamIdBytes]
        simp only [packetHeadLen, protoHeaderLen] at hfits ⊢
        omega
      · intro type htype
        cases type with
        | unknown => exact absurd rfl htype
        | player => rfl
        | uploader => rfl
  | u2rRsp version id =>
    cases hm
    refine ⟨?_, fun type _ => rfl⟩
    rw [Fits, rspMessage, length_rspBody]
    decide
  | d2pRsp version id =>
    cases hm
    refine ⟨?_, fun type _ => rfl⟩
    rw [Fits, rspMessage, length_rspBody]
    decide

/-- A request is taken by any connection, and makes its type known. -/
theorem request_heard (req : Request) (type : ConnectionType) :
    Heard type [req.message] ∧ typeAfter type [req.message] ≠ .unknown ∧
      (frame req.message).length ≤ 2048 := by
  cases req with
  | d2p req =>
    have hlen := length_d2pReq req
    have hfits : Fits false (d2pReqMessage req) := by
      rw [Fits, hlen]
      decide
    have hsize := headerOf_size hfits
    rw [length_frame, hlen] at hsize
    have hreturns : commandReturns type (headerOf (d2pReqMessage req)) = (1, .player) := by
      have hcmd : (headerOf (d2pReqMessage req)).cmd = CMD_RTP_D2P_REQ_STATE := rfl
      rw [commandReturns, hcmd, if_neg (by decide), if_pos rfl, hsize]
      rfl
    refine ⟨⟨hfits, ?_, trivial⟩, ?_, ?_⟩
    · rw [Request.message, hreturns]
    · rw [Request.message, typeAfter, typeAfter, hreturns]
      decide
    · rw [Request.message, length_frame, hlen]
      decide
  | u2r req =>
    have hlen := length_u2rReq req
    have hfits : Fits false (u2rReqMessage req) := by
      rw [Fits, hlen]
      decide
    have hsize := headerOf_size hfits
    rw [length_frame, hlen] at hsize
    have hreturns : commandReturns type (headerOf (u2rReqMessage req)) = (1, .uploader) := by
      have hcmd : (headerOf (u2rReqMessage req)).cmd = CMD_RTP_U2R_REQ_STATE := rfl
      rw [commandReturns, hcmd, if_pos rfl, hsize]
      rfl
    refine ⟨⟨hfits, ?_, trivial⟩, ?_, ?_⟩
    · rw [Request.message, hreturns]
    · rw [Request.message, typeAfter, typeAfter, hreturns]
      decide
    · rw [Request.message, length_frame, hlen]
      decide

/-! ### In order -/

/-- What is received is a piece of what is on the wire, and has been read up to its last message. -/
structure Link.InOrder (alloc : Nat → Bool) (c : Addr) (type : ConnectionType) (l : Link) : Prop where
  sender : l.sender.Whole alloc
  heard : Heard type (accepted l.sender.sent)
  known : typeAfter type (accepted l.sender.sent) ≠ .unknown
  received : l.receiver.received <+: l.sender.wire
  framed : Framed c type l.receiver

/-- A read takes bytes that are there. -/
theorem step_reads {c : Addr} {s s' : TcpStream} {envs : Nat → ServerEnv} {waiting : Nat}
    {incoming : List Byte} (hs' : s.step c (.read envs waiting incoming) = .ok s') :
    ∃ bytes, s'.received = s.received ++ bytes ∧ bytes <+: incoming := by
  rw [TcpStream.step] at hs'
  split at hs'
  · unfold TcpStream.onSocketData at hs'
    cases hread : s.rb.readFdMax MAX_LEN_PER_READ waiting incoming with
    | none =>
      rw [hread] at hs'
      obtain ⟨w, -, hs'⟩ := bind_eq_ok.mp hs'
      cases hs'
      exact ⟨[], (List.append_nil _).symm, List.nil_prefix⟩
    | some got =>
      rw [hread] at hs'
      obtain ⟨r, -, hs'⟩ := bind_eq_ok.mp hs'
      obtain ⟨w, -, hs'⟩ := bind_eq_ok.mp hs'
      cases hs'
      refine ⟨got.2, rfl, ?_⟩
      unfold Buffer.readFdMax at hread
      split at hread
      · cases hread
      · dsimp only at hread
        split at hread
        · cases hread
        · cases hread
          exact List.take_prefix _ _
  · cases hs'
    exact ⟨[], (List.append_nil _).symm, List.nil_prefix⟩

/-- Another event reads nothing. -/
theorem step_other_received {c : Addr} {s s' : TcpStream} {env : ServerEnv} {e : Event}
    (hs' : s.step c (.other env e) = .ok s') : s'.received = s.received := by
  rw [TcpStream.step] at hs'
  split at hs'
  · cases hs'
    rfl
  · obtain ⟨w, -, hs'⟩ := bind_eq_ok.mp hs'
    cases hs'
    rfl

theorem toOption_eq_some {ε α : Type} {x : Except ε α} {a : α} (h : x.toOption = some a) : x = .ok a := by
  cases x with
  | error e => cases h
  | ok a' =>
    cases h
    rfl

/-- The wire only grows. -/
theorem step_wire {alloc : Nat → Bool} {s s' : TcpSender} {e : SendEvent}
    (hs' : s.step alloc e = .ok s') : s.wire <+: s'.wire := by
  cases e with
  | send m =>
    rw [TcpSender.step] at hs'
    split at hs'
    · obtain ⟨wb, -, hs'⟩ := bind_eq_ok.mp hs'
      cases hs'
      exact List.prefix_refl _
    · cases hs'
      exact List.prefix_refl _
  | writable answers =>
    cases hs'
    split
    · unfold TcpSender.writable
      split
      · exact List.prefix_refl _
      · dsimp only
        split
        · exact List.prefix_append _ _
        · exact List.prefix_append _ _
    · exact List.prefix_refl _
  | closed =>
    cases hs'
    exact List.prefix_refl _

section InOrder

variable {alloc : Nat → Bool} {c : Addr} {type : ConnectionType} {l l' : Link}

/-- All that is received is the beginning of the accepted messages. -/
theorem Link.InOrder.frames (h : l.InOrder alloc c type) :
    l.receiver.received <+: (accepted l.sender.sent).flatMap frame := by
  rw [← h.sender.written]
  exact h.received.trans (List.prefix_append _ _)

/-- What was accepted grows with a message that is taken. -/
theorem sent_heard {s s' : TcpSender} {m : Message} (hm : Carried m)
    (hheard : Heard type (accepted s.sent)) (hknown : typeAfter type (accepted s.sent) ≠ .unknown)
    (hs' : s.step alloc (.send m) = .ok s') :
    Heard type (accepted s'.sent) ∧ typeAfter type (accepted s'.sent) ≠ .unknown := by
  rw [TcpSender.step] at hs'
  split at hs'
  · obtain ⟨wb, -, hs'⟩ := bind_eq_ok.mp hs'
    cases hs'
    dsimp only
    rw [accepted_snoc]
    split
    · have hreturns := hm.2 _ hknown
      obtain ⟨hall, htype⟩ := heard_snoc _ hheard hm.1 (by rw [hreturns])
      refine ⟨hall, ?_⟩
      rw [htype, hreturns]
      exact hknown
    · exact ⟨hheard, hknown⟩
  · cases hs'
    exact ⟨hheard, hknown⟩

/-- An event of the sending side that sends nothing. -/
theorem step_sent {s s' : TcpSender} {e : SendEvent} (he : ∀ m, e ≠ .send m)
    (hs' : s.step alloc e = .ok s') : s'.sent = s.sent := by
  cases e with
  | send m => exact absurd rfl (he m)
  | writable answers =>
    cases hs'
    split
    · unfold TcpSender.writable
      split
      · rfl
      · dsimp only
        split <;> rfl
    · rfl
  | closed =>
    cases hs'
    rfl

/-- The sending side moves on. -/
theorem Link.InOrder.sends (halloc : ∀ n, alloc n = true → n < 2 ^ 63) (h : l.InOrder alloc c type)
    {e : SendEvent} (he : ∀ m, e = .send m → Carried m) (hl' : l.sends alloc e = some l') :
    l'.InOrder alloc c type := by
  obtain ⟨s, hs, rfl⟩ := Option.map_eq_some_iff.mp hl'
  have hs := toOption_eq_some hs
  have hwhole := TcpSender.step_whole halloc h.sender (fun m hm => (he m hm).1) hs
  have hwire := h.received.trans (step_wire hs)
  by_cases hsend : ∃ m, e = .send m
  · obtain ⟨m, rfl⟩ := hsend
    obtain ⟨hheard, hknown⟩ := sent_heard (he m rfl) h.heard h.known hs
    exact ⟨hwhole, hheard, hknown, hwire, h.framed⟩
  · have hsame := step_sent (fun m hm => hsend ⟨m, hm⟩) hs
    refine ⟨hwhole, ?_, ?_, hwire, h.framed⟩
    · dsimp only
      rw [hsame]
      exact h.heard
    · dsimp only
      rw [hsame]
      exact h.known

/-- The receiving side moves on, and reads what is there. -/
theorem Link.InOrder.receives (h : l.InOrder alloc c type) {e : TcpEvent}
    (hl' : l.receives c e = some l')
    (hreceived : ∀ r, l.receiver.step c e = .ok r → r.received <+: l.sender.wire) :
    l'.InOrder alloc c type := by
  obtain ⟨r, hr, rfl⟩ := Option.map_eq_some_iff.mp hl'
  have hr := toOption_eq_some hr
  refine ⟨h.sender, h.heard, h.known, hreceived r hr,
    step_framed h.framed hr fun head htaken => taken_frames _ h.heard ?_ htaken⟩
  rw [← h.sender.written]
  exact (hreceived r hr).trans (List.prefix_append _ _)

/-- Any event on either side. -/
theorem Link.step_inOrder (halloc : ∀ n, alloc n = true → n < 2 ^ 63) (h : l.InOrder alloc c type)
    {e : LinkEvent} (hl' : l.step alloc c e = some l') : l'.InOrder alloc c type := by
  cases e with
  | send out =>
    obtain ⟨m, hm, hl'⟩ := Option.bind_eq_some_iff.mp hl'
    refine h.sends halloc ?_ hl'
    rintro _ ⟨⟩
    exact outgoing_carried (toOption_eq_some hm)
  | writable answers =>
    refine h.sends halloc ?_ hl'
    rintro _ ⟨⟩
  | closed =>
    refine h.sends halloc ?_ hl'
    rintro _ ⟨⟩
  | read envs waiting n =>
    refine h.receives hl' fun r hr => ?_
    obtain ⟨bytes, hbytes, hthere⟩ := step_reads hr
    obtain ⟨flight, hflight⟩ := h.received
    rw [hbytes, ← hflight, List.prefix_append_right_inj]
    rw [← hflight, List.drop_left' rfl] at hthere
    exact hthere.trans (List.take_prefix _ _)
  | other env e =>
    refine h.receives hl' fun r hr => ?_
    rw [step_other_received hr]
    exact h.received

theorem Link.run_inOrder (halloc : ∀ n, alloc n = true → n < 2 ^ 63) (events : List LinkEvent)
    (h : l.InOrder alloc c type) (hl' : l.run alloc c events = some l') : l'.InOrder alloc c type := by
  induction events generalizing l with
  | nil =>
    cases hl'
    exact h
  | cons e events ih =>
    rw [Link.run, List.foldlM_cons] at hl'
    obtain ⟨l₁, hstep, hrun⟩ := Option.bind_eq_some_iff.mp hl'
    exact ih (Link.step_inOrder halloc h hstep) hrun

end InOrder

/-! ### The connection is made -/

theorem size_new : TcpSender.new.wb.size = 2048 := by
  rw [TcpSender.new, Buffer.size, Buffer.init, List.length_replicate]

theorem data_new : TcpSender.new.wb.data = [] := by
  rw [TcpSender.new, Buffer.data, Buffer.init, List.take_zero, List.drop_nil]

theorem new_whole {alloc : Nat → Bool} (hstart : alloc 2048 = true) : TcpSender.new.Whole alloc := by
  refine ⟨⟨rfl, ?_, ?_⟩, ?_, fun _ hdata => absurd data_new hdata⟩
  · rw [size_new]
    decide
  · rw [size_new]
    exact hstart
  · rw [data_new]
    rfl

/-- A request finds room in the new buffer. -/
theorem append_whole {alloc : Nat → Bool} (hstart : alloc 2048 = true) {m : Message}
    (hm : (frame m).length ≤ 2048) {s : TcpSender} (hs : TcpSender.new.append m = .ok s) :
    s.Whole alloc ∧ accepted s.sent = [m] ∧ s.wire = [] := by
  obtain ⟨⟨wb, ret⟩, hwb, hs⟩ := bind_eq_ok.mp hs
  cases hs
  have hnew := new_whole hstart
  obtain ⟨wb', ret', hwb', hsame, hallows⟩ := TcpSender.new.wb.appendPtr_allows (frame m)
    (by rw [size_new]; decide) (Nat.lt_of_le_of_lt hm (by decide))
  cases hwb.symm.trans hwb'
  have hroom : 0 + (frame m).length < bufferMax false := by
    rw [Nat.zero_add]
    exact Nat.lt_of_le_of_lt hm (by decide)
  have hsent : accepted [(m, 0)] = [m] := by
    have hsnoc := accepted_snoc [] m 0
    rwa [if_pos hroom] at hsnoc
  have hdata : wb.data = frame m := by
    rcases hallows with ⟨-, -, hitems, -⟩ | ⟨hfull, -, -⟩
    · rwa [Buffer.queue_items, Buffer.queue_items, data_new, List.nil_append] at hitems
    · rw [Buffer.queue_bound, Buffer.queue_items, data_new, size_new, List.length_nil] at hfull
      omega
  refine ⟨⟨hnew.buffer.of_same hsame (max_appendPtr hwb), ?_, fun _ _ => rfl⟩, hsent, rfl⟩
  show [] ++ wb.data = (accepted [(m, 0)]).flatMap frame
  rw [hsent, hdata, List.flatMap_singleton, List.nil_append]

theorem accepted_framed {c : Addr} {w : Server} {con : RtpConnection}
    (hc : w.connections[c]? = some con) (hudp : con.udp = false) :
    Framed c con.type (TcpStream.accepted w) := by
  refine ⟨⟨con.type, [], [], 0⟩, ?_, reads_of_connection hc hudp, fun _ => rfl⟩
  have hturn := turn_torn con.type readHeader_nil [] 0
  show Reading.Finishes ⟨con.type, [], [], 0⟩ _
  nth_rewrite 2 [← hturn]
  exact Reading.Finishes.last (by rw [hturn]; exact Int.zero_ne_one)

theorem connect_inOrder {alloc : Nat → Bool} (hstart : alloc 2048 = true) {c : Addr} {w : Server}
    {con : RtpConnection} (hc : w.connections[c]? = some con) (hudp : con.udp = false)
    {req : Option Request} (htype : con.type = .unknown → req.isSome = true) {l : Link}
    (hl : Link.connect w req = some l) : l.InOrder alloc c con.type := by
  obtain ⟨s, hs, rfl⟩ := Option.map_eq_some_iff.mp hl
  cases req with
  | none =>
    have hknown : con.type ≠ .unknown := fun hunknown => Bool.false_ne_true (htype hunknown)
    cases hs
    exact ⟨new_whole hstart, trivial, hknown, List.nil_prefix, accepted_framed hc hudp⟩
  | some req =>
    obtain ⟨hheard, hknown, hlen⟩ := request_heard req con.type
    obtain ⟨hwhole, hsent, hwire⟩ := append_whole hstart hlen (toOption_eq_some hs)
    refine ⟨hwhole, ?_, ?_, List.nil_prefix, accepted_framed hc hudp⟩
    · rw [hsent]
      exact hheard
    · rw [hsent]
      exact hknown

/-- Whatever is sent, however much the socket takes at a time, in whatever pieces it is read, and
whatever else happens to the server that reads: what it has dispatched is the first of the messages
that found room in the buffer, in their order, each as it was sent; once the wire and the buffer are
empty it is all of them. No message is refused, and a buffer that holds something waits for the
socket. -/
theorem tcp_link_in_order {alloc : Nat → Bool} (halloc : ∀ n, alloc n = true → n < 2 ^ 63)
    (hstart : alloc 2048 = true) {c : Addr} {w : Server} {con : RtpConnection}
    (hc : w.connections[c]? = some con) (hudp : con.udp = false) {req : Option Request}
    (htype : con.type = .unknown → req.isSome = true) {l₀ l : Link}
    (hconnect : Link.connect w req = some l₀) {events : List LinkEvent}
    (hrun : l₀.run alloc c events = some l) :
    (∃ n, l.receiver.dispatched = (accepted l.sender.sent).take n) ∧
      (l.receiver.received = l.sender.wire → l.sender.wb.data = [] →
        l.receiver.dispatched = accepted l.sender.sent) ∧
      l.receiver.ret = 0 ∧
      (l.sender.live = true → l.sender.wb.data ≠ [] → l.sender.wEnabled = true) := by
  have h := Link.run_inOrder halloc events (connect_inOrder hstart hc hudp htype hconnect) hrun
  obtain ⟨cur, hfinishes, hreads, -⟩ := h.framed
  obtain ⟨n, type', rest, hframes, hall⟩ := reading_frames _ h.heard h.frames [] 0
  have hsame := hfinishes.unique hframes
  have hdispatched : l.receiver.dispatched = (accepted l.sender.sent).take n := by
    rw [hreads.dispatched, hsame, List.nil_append]
  refine ⟨⟨n, hdispatched⟩, fun hread hempty => ?_, ?_, h.sender.enabled⟩
  · rw [hdispatched, hall]
    rw [hread, ← h.sender.written, hempty, List.append_nil]
  · rw [hreads.ret, hsame]

/-- A pull's request and a packet with RTCP, written and read in pieces. -/
def pulledEvents : List LinkEvent :=
  [.writable [.wrote 100, .again], .read (fun _ => firstSecond) 100 60, .send (.rtcp 7 [1, 2, 3]),
    .writable [.wrote 1000], .read (fun _ => firstSecond) 500 500]

theorem tcp_link_in_order_pull : ∃ l₀ l,
    Link.connect (Server.new.accept 1 (RtpConnection.new false 0)) (some pulledRequest) = some l₀ ∧
      l₀.run Buffer.heap 1 pulledEvents = some l ∧
      (∃ n, l.receiver.dispatched = (accepted l.sender.sent).take n) ∧
      (l.receiver.received = l.sender.wire → l.sender.wb.data = [] →
        l.receiver.dispatched = accepted l.sender.sent) ∧
      l.receiver.ret = 0 ∧
      (l.sender.live = true → l.sender.wb.data ≠ [] → l.sender.wEnabled = true) := by
  have hc : (Server.new.accept 1 (RtpConnection.new false 0)).connections[(1 : Addr)]? =
      some (RtpConnection.new false 0) := setConnection_self _ _ _
  have hcheck : ((Link.connect (Server.new.accept 1 (RtpConnection.new false 0))
      (some pulledRequest)).bind (Link.run Buffer.heap 1 pulledEvents)).isSome = true := by
    decide +kernel
  obtain ⟨l, hl⟩ := Option.isSome_iff_exists.mp hcheck
  obtain ⟨l₀, hl₀, hrun⟩ := Option.bind_eq_some_iff.mp hl
  exact ⟨l₀, l, hl₀, hrun, tcp_link_in_order (fun n hn => of_decide_eq_true hn) (by decide) hc rfl
    (fun _ => rfl) hl₀ hrun⟩

end RtcMcu.ConnectionManager
