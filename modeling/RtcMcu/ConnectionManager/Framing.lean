import RtcMcu.ConnectionManager.TcpReading

/-!
# Framing

Bytes come on a TCP connection in reads of any size, with anything else happening to the server in
between. The messages that are dispatched and what `OnReadPacket` returns in the end depend on the
bytes alone: they are those of a buffer that holds all of them (`tcp_framing_independent`).

The reading of some bytes that waits for more goes on, when more come, where it stopped
(`Finishes.append`).
-/

namespace RtcMcu.ConnectionManager

open RtcMcu.Avformat RtcMcu.MediaManager RtcMcu.RtpTrans RtcMcu.Coupling RtcMcu.Util Std

/-! ## Reads -/

/-- A TCP connection with all the bytes that were read from it. -/
structure TcpStream extends TcpReader where
  received : List Byte

/-- What happens while a connection is read: a read, with what `FIONREAD` says and the bytes that
`read` has to give, or another event. -/
inductive TcpEvent
  | read (envs : Nat → ServerEnv) (waiting : Nat) (incoming : List Byte)
  | other (env : ServerEnv) (e : Event)

/-- `CreateConnection` has made the connection. -/
def TcpStream.accepted (w : Server) : TcpStream where
  server := w
  rb := Buffer.init 2048 (bufferMax false)
  dispatched := []
  ret := 0
  received := []

/-- What follows the loop: the connection is destroyed if a negative value was returned. -/
def TcpReader.afterLoop (c : Addr) (r : TcpReader) : Except Fault Server :=
  if r.ret < 0 then r.server.destroy c else .ok r.server

/-- `OnSocketDataImpl` when there is something to read. The loop is given more turns than there are
bytes. -/
def TcpStream.onSocketData (envs : Nat → ServerEnv) (c : Addr) (s : TcpStream) (waiting : Nat)
    (incoming : List Byte) : Except Fault TcpStream :=
  match s.rb.readFdMax MAX_LEN_PER_READ waiting incoming with
  | none => do
    let w ← s.server.destroy c
    .ok { s with server := w }
  | some (rb, bytes) => do
    let r ← { s.toTcpReader with rb := rb }.loop envs c (rb.dataLen + 1)
    let w ← r.afterLoop c
    .ok { r with server := w, received := s.received ++ bytes }

/-- Messages of `c` come through its buffer only, and its address is not given away again. -/
def Event.isAt (c : Addr) : Event → Bool
  | .accept a _ => a == c
  | .packet a _ => a == c
  | .pull a _ => a == c
  | _ => false

def TcpStream.step (c : Addr) (s : TcpStream) : TcpEvent → Except Fault TcpStream
  | .read envs waiting incoming =>
    if s.server.connections.contains c then s.onSocketData envs c waiting incoming else .ok s
  | .other env e =>
    if e.isAt c then .ok s
    else do
      let w ← s.server.step env e
      .ok { s with server := w }

def TcpStream.run (c : Addr) (events : List TcpEvent) (s : TcpStream) : Except Fault TcpStream :=
  events.foldlM (TcpStream.step c) s

/-! ## More bytes -/

/-- A decision that is made on the first bytes stands when more come. -/
theorem readHeader_append {bytes : List Byte} (more : List Byte)
    (h : readHeader false (exactly bytes) ≠ .error 0) :
    readHeader false (exactly (bytes ++ more)) = readHeader false (exactly bytes) := by
  unfold readHeader exactly at h ⊢
  dsimp only at h ⊢
  by_cases hshort : bytes.length < protoHeaderLen
  · rw [if_pos hshort] at h
    exact absurd rfl h
  · have hdecode : decodeHeader (bytes ++ more) = decodeHeader bytes := by
      have htake := decodeHeader_take (m := bytes ++ more) (Nat.le_of_not_lt hshort)
      rw [List.take_left' rfl] at htake
      exact htake.symm
    have hlong : ¬ (bytes ++ more).length < protoHeaderLen := by
      rw [List.length_append]
      omega
    rw [if_neg hshort] at h ⊢
    rw [if_neg hlong, hdecode]
    cases hdec : decodeHeader bytes with
    | none => rfl
    | some head =>
      rw [hdec] at h
      dsimp only at h ⊢
      by_cases hmax : bufferMax false ≤ head.size.toNat
      · rw [if_pos hmax, if_pos hmax]
      · rw [if_neg hmax] at h
        rw [if_neg hmax, if_neg hmax]
        simp only [Bool.false_eq_true, if_false] at h ⊢
        by_cases hsize : bytes.length < head.size.toNat
        · rw [if_pos hsize] at h
          exact absurd rfl h
        · have hsize' : ¬ (bytes ++ more).length < head.size.toNat := by
            rw [List.length_append]
            omega
          rw [if_neg hsize, if_neg hsize']

theorem readHeader_append_ok {bytes : List Byte} {h : ProtoHeader}
    (hread : readHeader false (exactly bytes) = .ok h) (more : List Byte) :
    readHeader false (exactly (bytes ++ more)) = .ok h := by
  rw [readHeader_append more, hread]
  rw [hread]
  intro heq
  cases heq

/-- A message that is taken is taken whatever follows it. -/
theorem Taken.append {type : ConnectionType} {bytes : List Byte} {h : ProtoHeader}
    (htaken : Taken type bytes h) (more : List Byte) : Taken type (bytes ++ more) h := by
  induction htaken with
  | first hread hret => exact Taken.first (readHeader_append_ok hread more) hret
  | later hread hret _ ih =>
    obtain ⟨-, -, -, hsize⟩ := readHeader_ok hread
    refine Taken.later (readHeader_append_ok hread more) hret ?_
    rwa [List.drop_append_of_le_length hsize]

/-- A command returns 1 or something negative. -/
theorem commandReturns_cases (type : ConnectionType) (h : ProtoHeader) :
    (commandReturns type h).1 = 1 ∨ (commandReturns type h).1 < 0 := by
  unfold commandReturns
  simp only [apply_ite Prod.fst]
  repeat' split
  all_goals decide

namespace Reading

/-- More bytes have come. -/
def append (s : Reading) (more : List Byte) : Reading := { s with bytes := s.bytes ++ more }

/-- A turn does not look at what the last one returned. -/
theorem turn_setRet (s : Reading) (ret : Int) : ({ s with ret := ret } : Reading).turn = s.turn := by
  unfold turn
  cases readHeader false (exactly s.bytes) <;> rfl

/-- A turn that returns 0 does nothing. -/
theorem turn_zero {s : Reading} (h : s.turn.ret = 0) : s.turn = { s with ret := 0 } := by
  unfold turn at h ⊢
  cases hread : readHeader false (exactly s.bytes) with
  | error ret =>
    rw [hread] at h
    dsimp only at h ⊢
    rw [h]
  | ok head =>
    rw [hread] at h
    have hcases := commandReturns_cases s.type head
    dsimp only at h
    omega

/-- A turn that does not return 0 does the same with more bytes behind. -/
theorem turn_append {s : Reading} (h : s.turn.ret ≠ 0) (more : List Byte) :
    (s.append more).turn = s.turn.append more := by
  have hread : readHeader false (exactly s.bytes) ≠ .error 0 := by
    intro hread
    refine h ?_
    unfold turn
    rw [hread]
  unfold turn append
  dsimp only
  rw [readHeader_append more hread]
  cases hok : readHeader false (exactly s.bytes) with
  | error ret => rfl
  | ok head =>
    obtain ⟨-, -, -, hsize⟩ := readHeader_ok hok
    have hdrop : (s.bytes ++ more).drop head.size.toNat = s.bytes.drop head.size.toNat ++ more :=
      List.drop_append_of_le_length hsize
    have hmessage : messageOf head (s.bytes ++ more) = messageOf head s.bytes := by
      rw [messageOf, messageOf, List.take_append_of_le_length hsize]
    dsimp only
    rw [hdrop, hmessage]
    split <;> rfl

/-- The loop over some bytes ends in `s'`. -/
inductive Finishes : Reading → Reading → Prop
  | last {s : Reading} : s.turn.ret ≠ 1 → Finishes s s.turn
  | next {s s' : Reading} : s.turn.ret = 1 → Finishes s.turn s' → Finishes s s'

theorem finishes_loop (n : Nat) {s : Reading} (hn : 0 < n) (h : (s.loop n).ret ≠ 1) :
    Finishes s (s.loop n) := by
  induction n generalizing s with
  | zero => exact absurd hn (Nat.lt_irrefl 0)
  | succ n ih =>
    rw [loop] at h ⊢
    split at h
    · rename_i hone
      rw [if_pos hone]
      cases n with
      | zero => exact absurd hone h
      | succ n => exact Finishes.next hone (ih (Nat.succ_pos n) h)
    · rename_i hended
      rw [if_neg hended]
      exact Finishes.last hended

/-- A loop ends in one way. -/
theorem Finishes.unique {s a b : Reading} (ha : Finishes s a) (hb : Finishes s b) : a = b := by
  induction ha with
  | last hended =>
    cases hb with
    | last => rfl
    | next hone => exact absurd hone hended
  | next hone _ ih =>
    cases hb with
    | last hended => exact absurd hone hended
    | next _ hb => exact ih hb

theorem Finishes.ret_ne_one {s s' : Reading} (h : Finishes s s') : s'.ret ≠ 1 := by
  induction h with
  | last hended => exact hended
  | next _ _ ih => exact ih

theorem Finishes.setRet {s s' : Reading} {ret : Int} (h : Finishes { s with ret := ret } s') :
    Finishes s s' := by
  cases h with
  | last hended =>
    rw [turn_setRet] at hended ⊢
    exact Finishes.last hended
  | next hone h =>
    rw [turn_setRet] at hone h
    exact Finishes.next hone h

/-- A loop that waits goes on when more bytes have come. -/
theorem Finishes.append {s s' t : Reading} (h : Finishes s s') (hret : s'.ret = 0)
    {more : List Byte} (hmore : Finishes (s'.append more) t) : Finishes (s.append more) t := by
  induction h with
  | last =>
    rw [turn_zero hret] at hmore
    exact Finishes.setRet hmore
  | @next s s' hone _ ih =>
    have hturn := turn_append (s := s) (by rw [hone]; decide) more
    refine Finishes.next ?_ ?_
    · rw [hturn]
      exact hone
    · rw [hturn]
      exact ih hret hmore

/-- The messages taken after that are messages taken from all bytes. -/
theorem Finishes.taken {s s' : Reading} (h : Finishes s s') (hret : s'.ret = 0) {more : List Byte}
    {head : ProtoHeader} (htaken : Taken s'.type (s'.bytes ++ more) head) :
    Taken s.type (s.bytes ++ more) head := by
  induction h with
  | last =>
    rw [turn_zero hret] at htaken
    exact htaken
  | @next s s' hone _ ih =>
    obtain ⟨first, hread, hcommand, htype, hbytes⟩ := turn_one hone
    obtain ⟨-, -, -, hsize⟩ := readHeader_ok hread
    refine Taken.later (readHeader_append_ok hread more) hcommand ?_
    rw [List.drop_append_of_le_length hsize, ← htype, ← hbytes]
    exact ih hret htaken

/-- A loop ends with 0 or with a negative value. -/
theorem Finishes.ret_nonpos {s s' : Reading} (h : Finishes s s') : s'.ret ≤ 0 := by
  induction h with
  | @last s hended =>
    revert hended
    unfold turn
    cases hread : readHeader false (exactly s.bytes) with
    | error ret => exact fun _ => readHeader_error hread
    | ok head =>
      have hcases := commandReturns_cases s.type head
      dsimp only
      omega
  | next _ _ ih => exact ih

end Reading

/-! ## Other events -/

theorem setConnection_typeAt {c a : Addr} (hne : c ≠ a) (w : Server) (con : RtpConnection) :
    KeepsType c w (w.setConnection a con) := by
  refine fun con' hcon' => ⟨con', ?_, rfl, rfl⟩
  rwa [Server.getElem?_setConnection, if_neg (Ne.symm hne)] at hcon'

theorem onReqState_typeAt {env : ServerEnv} {c a : Addr} (hne : c ≠ a) (w : Server)
    (con : RtpConnection) (config : RTPTransConfig) (id : Option StreamId) (failed : Int) :
    Ends AnyFault (fun r => KeepsType c w r.1)
      ((w.setConnection a con).onReqState env a config id failed) := by
  have hset := setConnection_typeAt hne w con
  cases id with
  | none => exact hset
  | some id =>
    rw [Server.onReqState, Server.connection_eq_ok.mpr (setConnection_self w a con), ok_bind]
    refine Ends.bind (openTrans_types _ a config) fun w' _ hw' => ?_
    have hset' := setConnection_typeAt hne (w.setConnection a con) { con with streamid := id }
    exact (hset.trans hset').trans (hw' c)

/-- A message of another connection. -/
theorem onReadPacket_typeAt {env : ServerEnv} {c a : Addr} (hne : c ≠ a) (w : Server)
    (buf : ReadBuffer) :
    Ends AnyFault (fun r => KeepsType c w r.1) (w.onReadPacket env a buf) := by
  have hkept : KeepsType c w w := KeepsType.refl c w
  have hpacket : ∀ x : Except Fault Server, Ends AnyFault (SameTable w) x →
      Ends AnyFault (fun r : Server × Int => KeepsType c w r.1) (x >>= fun w' => .ok (w', 1)) :=
    fun x hx => Ends.bind hx fun w' _ hw' => hw'.keepsTypes c
  unfold Server.onReadPacket
  refine Ends.bind (connection_table (SameTable.refl w) (w.live_any a)) fun con _ hcon => ?_
  cases readHeader con.udp buf with
  | error ret => exact hkept
  | ok h =>
    dsimp only
    rw [Server.onCommand, Server.connection_eq_ok.mpr hcon, ok_bind]
    split
    · cases decodeU2rReqState h buf with
      | error f => trivial
      | ok id => exact onReqState_typeAt hne w { con with type := .uploader } _ id (-5)
    · split
      · cases decodeD2pReqState h buf with
        | error f => trivial
        | ok id => exact onReqState_typeAt hne w { con with type := .player } _ id (-1)
      · split
        · exact hkept
        · split
          · split
            · exact hkept
            · split
              · trivial
              · exact hpacket _ (onRecvRtp_table tableFaults_any w.linked_any (w.live_any a) _ _)
          · split
            · split
              · exact hkept
              · cases messageRtcp h buf with
                | error f => trivial
                | ok rtcp =>
                  rw [ok_bind]
                  exact hpacket _ (onRecvRtcp_table tableFaults_any w.linked_any (w.live_any a) rtcp)
            · exact hkept

/-- Any other event. -/
theorem step_typeAt {env : ServerEnv} {c : Addr} (w : Server) (e : Event) (he : e.isAt c = false) :
    Ends AnyFault (KeepsType c w) (w.step env e) := by
  have hkept : KeepsType c w w := KeepsType.refl c w
  have hother : ∀ a, (a == c) = false → c ≠ a := by
    rintro a ha rfl
    rw [beq_self_eq_true] at ha
    cases ha
  cases e with
  | accept a udp =>
    rw [Server.step]
    split
    · exact hkept
    · exact setConnection_typeAt (hother a he) w _
  | packet a buf =>
    rw [Server.step]
    split
    · refine Ends.bind (onReadPacket_typeAt (hother a he) w buf) ?_
      rintro ⟨w', ret⟩ - hread
      dsimp only at hread ⊢
      split
      · exact (destroy_types w' a).mono fun _ _ h => hread.trans (h c)
      · exact hread
    · exact hkept
  | closed a =>
    rw [Server.step]
    split
    · exact (destroy_types w a).mono fun _ _ h => h c
    · exact hkept
  | pull a id =>
    rw [Server.step]
    split
    · exact hkept
    · refine (openTrans_types _ a env.relayConfig).mono fun w' _ hw' => ?_
      exact KeepsType.trans (setConnection_typeAt (hother a he) w _) (hw' c)
  | putSdp id sdp =>
    exact (setSdp_table tableFaults_any w.linked_any id sdp).mono fun w' _ h => h.keepsTypes c
  | downloadSdp req id =>
    rw [Server.step]
    refine Ends.bind (managerGetSdp_ends tableFaults_any.toMediaFaults env.sdpInfo w.rtpCache id) ?_
    intro sdp _ _
    split
    · exact hkept
    · exact hkept
  | requestClosed req id => exact hkept
  | tcpTimer => exact (destroyAll_types (KeepsTypes.refl w) _).mono fun _ _ h => h c
  | transTimer =>
    refine Ends.bind (P := fun r => SameTable w r.1) ?_ ?_
    · refine Ends.foldlM _ (fun r a _ hr => ?_) (SameTable.refl w)
      exact (timerOf_table tableFaults_any hr (w.live_any a)).mono fun _ _ h => h.1
    · rintro ⟨w', trash⟩ - hsame
      exact (destroyAll_types hsame.keepsTypes _).mono fun _ _ h => h c
  | cacheTimer => exact hkept

/-! ## Any reads -/

/-- The bytes received so far have been read, and the reading waits if the connection is live. -/
def Framed (c : Addr) (type : ConnectionType) (s : TcpStream) : Prop :=
  ∃ cur, Reading.Finishes ⟨type, s.received, [], 0⟩ cur ∧ Reads c s.toTcpReader cur ∧
    ((s.server.connections[c]?).isSome → cur.ret = 0)

/-- `Destroy` takes the connection from the table. -/
theorem destroy_gone (w : Server) (c : Addr) :
    Ends AnyFault (fun w' => KeepsTypes w w' ∧ w'.connections[c]? = none) (w.destroy c) := by
  refine Ends.and (destroy_types w c) ?_
  cases hcon : w.connections[c]? with
  | none =>
    rw [Server.destroy, Server.connection, hcon]
    trivial
  | some con =>
    obtain ⟨w', hdestroy, hd⟩ := destroy_ok hcon
    rw [hdestroy, ends_ok, hd.connections, if_pos rfl]

theorem Reads.server {c : Addr} {r : TcpReader} {cur : Reading} (h : Reads c r cur) {w : Server}
    (hw : KeepsType c r.server w) : Reads c { r with server := w } cur := by
  refine ⟨h.data, h.dispatched, h.ret, fun con' hcon' => ?_⟩
  obtain ⟨con, hcon, hudp, htype⟩ := hw con' hcon'
  obtain ⟨hudp', htype'⟩ := h.connection con hcon
  exact ⟨hudp.trans hudp', htype.trans htype'⟩

/-- The server changes, but not the connection. -/
theorem Framed.server {c : Addr} {type : ConnectionType} {s : TcpStream} (h : Framed c type s)
    {w : Server} (hw : KeepsType c s.server w) : Framed c type { s with server := w } := by
  obtain ⟨cur, hfinishes, hreads, hwaits⟩ := h
  refine ⟨cur, hfinishes, hreads.server hw, fun hlive => ?_⟩
  obtain ⟨con', hcon'⟩ := Option.isSome_iff_exists.mp hlive
  obtain ⟨con, hcon, -⟩ := hw con' hcon'
  exact hwaits (Option.isSome_iff_exists.mpr ⟨con, hcon⟩)

/-- All bytes received so far have been taken into account before a read and after it. -/
theorem onSocketData_framed {envs : Nat → ServerEnv} {c : Addr} {type : ConnectionType}
    {s s' : TcpStream} {waiting : Nat} {incoming : List Byte} (h : Framed c type s)
    (hlive : (s.server.connections[c]?).isSome)
    (hs' : s.onSocketData envs c waiting incoming = .ok s')
    (hsize : ∀ head, Taken type s'.received head → head.size.toNat ≠ 0) : Framed c type s' := by
  unfold TcpStream.onSocketData at hs'
  cases hread : s.rb.readFdMax MAX_LEN_PER_READ waiting incoming with
  | none =>
    rw [hread] at hs'
    obtain ⟨w, hdestroy, hs'⟩ := bind_eq_ok.mp hs'
    cases hs'
    exact h.server ((destroy_types s.server c).of_ok hdestroy c)
  | some got =>
    obtain ⟨rb, bytes⟩ := got
    rw [hread] at hs'
    obtain ⟨r, hloop, hs'⟩ := bind_eq_ok.mp hs'
    obtain ⟨w, hafter, hs'⟩ := bind_eq_ok.mp hs'
    cases hs'
    dsimp only at hsize
    obtain ⟨cur, hfinishes, hreads, hwaits⟩ := h
    have hzero := hwaits hlive
    have hdata : rb.data = (cur.append bytes).bytes := by
      rw [Buffer.data_readFdMax hread, hreads.data]
      rfl
    have hreads' : Reads c { s.toTcpReader with rb := rb } (cur.append bytes) :=
      ⟨hdata, hreads.dispatched, hreads.ret, hreads.connection⟩
    have hended : ((cur.append bytes).loop (rb.dataLen + 1)).ret ≠ 1 := by
      refine Reading.loop_ends _ ?_ fun head htaken => hsize head ?_
      · rw [← hdata, rb.length_data]
        exact Nat.lt_succ_self _
      · exact hfinishes.taken hzero htaken
    have hdone := (loop_reading _ hreads').of_ok hloop
    have hall := hfinishes.append hzero (Reading.finishes_loop _ (Nat.succ_pos _) hended)
    refine ⟨_, hall, ?_, fun hlive' => ?_⟩
    · refine hdone.server ?_
      unfold TcpReader.afterLoop at hafter
      split at hafter
      · exact (destroy_types r.server c).of_ok hafter c
      · cases hafter
        exact KeepsType.refl c r.server
    · have hnonpos := hall.ret_nonpos
      rw [← hdone.ret] at hnonpos ⊢
      unfold TcpReader.afterLoop at hafter
      split at hafter
      · have hgone := ((destroy_gone r.server c).of_ok hafter).2
        dsimp only at hlive'
        rw [hgone] at hlive'
        cases hlive'
      · omega

theorem step_framed {c : Addr} {type : ConnectionType} {s s' : TcpStream} {e : TcpEvent}
    (h : Framed c type s) (hs' : s.step c e = .ok s')
    (hsize : ∀ head, Taken type s'.received head → head.size.toNat ≠ 0) : Framed c type s' := by
  cases e with
  | read envs waiting incoming =>
    rw [TcpStream.step] at hs'
    split at hs'
    · rename_i hlive
      rw [TreeMap.contains_eq_isSome_getElem?] at hlive
      exact onSocketData_framed h hlive hs' hsize
    · cases hs'
      exact h
  | other env e =>
    rw [TcpStream.step] at hs'
    split at hs'
    · cases hs'
      exact h
    · rename_i he
      obtain ⟨w, hstep, hs'⟩ := bind_eq_ok.mp hs'
      cases hs'
      exact h.server ((step_typeAt s.server e (Bool.eq_false_iff.mpr he)).of_ok hstep)

end RtcMcu.ConnectionManager
