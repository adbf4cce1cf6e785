import Mathlib.Data.List.Basic
import RtcMcu.ConnectionManager.Framing
import RtcMcu.Lib.Along

/-!
# Decoding the requests

`decode_rtp_u2r_req_state` and `decode_rtp_d2p_req_state` of `cmd_protocol/proto.c` assert that the
buffer is long enough, the first for the header it reads, the second for the whole request. What
`OnReadPacket` has made sure of when it calls them is that the buffer holds as many bytes as the
header declares. That is enough for the first. A D2P request that declares less than its structure
fails the assertion of the second, unless bytes of other messages stand behind it
(`decodes_iff`, `requests_decode_iff`).
-/

namespace RtcMcu.ConnectionManager

open RtcMcu.Avformat RtcMcu.MediaManager RtcMcu.RtpTrans RtcMcu.Coupling RtcMcu.Util Std

/-! ## One call -/

/-- What a decoder has to do with a message: decode it or return an error, refuse it if it declares
less than the structure of `len` bytes, and use nothing behind it. -/
structure Decodes (len : Nat) (decode : ProtoHeader → ReadBuffer → Except Fault (Option StreamId))
    (h : ProtoHeader) (buf : ReadBuffer) : Prop where
  answers : ∃ r, decode h buf = .ok r
  refuses : h.size.toNat < protoHeaderLen + len → decode h buf = .ok none
  within : ∀ id, decode h buf = .ok (some id) → protoHeaderLen + len ≤ h.size.toNat ∧
    h.size.toNat ≤ buf.dataLen ∧
    decode h { mem := buf.mem.take h.size.toNat, dataLen := h.size.toNat } = .ok (some id)

/-- The request that `OnReadPacket` decodes, if it comes to one, is decoded as it should. -/
def RequestDecodes (udp : Bool) (buf : ReadBuffer) : Prop :=
  ∀ h, readHeader udp buf = .ok h →
    (h.cmd = CMD_RTP_U2R_REQ_STATE → Decodes u2rReqStateLen decodeU2rReqState h buf) ∧
    (h.cmd = CMD_RTP_D2P_REQ_STATE → Decodes d2pReqStateLen decodeD2pReqState h buf)

/-- A D2P request in a buffer that holds less than the structure of one. -/
def ShortRequest (udp : Bool) (buf : ReadBuffer) : Prop :=
  ∃ h, readHeader udp buf = .ok h ∧ h.cmd = CMD_RTP_D2P_REQ_STATE ∧
    buf.dataLen < protoHeaderLen + d2pReqStateLen

/-- A stream id is read from sixteen bytes. -/
theorem readStreamId_take {m : List Byte} {i n : Nat} (h : i + 16 ≤ n) :
    readStreamId (m.take n) i = readStreamId m i := by
  refine List.foldr_ext _ _ _ fun j hj acc => ?_
  have hlt := List.mem_range.mp hj
  rw [byteAt_take (by omega)]

theorem decodeU2r_decodes {udp : Bool} {buf : ReadBuffer} {h : ProtoHeader}
    (hread : readHeader udp buf = .ok h) : Decodes u2rReqStateLen decodeU2rReqState h buf := by
  obtain ⟨hlen, hsize⟩ := readHeader_complete hread
  have hopen : ¬ buf.dataLen < protoHeaderLen := Nat.not_lt.mpr hlen
  by_cases hshort : h.size.toNat < protoHeaderLen + u2rReqStateLen
  · have hnone : decodeU2rReqState h buf = .ok none := by
      rw [decodeU2rReqState, if_neg hopen, if_pos (.inr hshort)]
    refine ⟨⟨none, hnone⟩, fun _ => hnone, fun id hid => ?_⟩
    rw [hnone] at hid
    cases hid
  · have hlong := Nat.le_of_not_lt hshort
    have hall : ¬ (buf.dataLen < protoHeaderLen + u2rReqStateLen ∨
        h.size.toNat < protoHeaderLen + u2rReqStateLen) := by omega
    have hsome : decodeU2rReqState h buf =
        .ok (some (readStreamId buf.mem (protoHeaderLen + 4))) := by
      rw [decodeU2rReqState, if_neg hopen, if_neg hall]
    refine ⟨⟨_, hsome⟩, fun hlt => absurd hlt hshort, fun id hid => ⟨hlong, hsize, ?_⟩⟩
    have hopen' : ¬ h.size.toNat < protoHeaderLen := by omega
    have hin : protoHeaderLen + 4 + 16 ≤ protoHeaderLen + u2rReqStateLen := by decide
    have hall' : ¬ (h.size.toNat < protoHeaderLen + u2rReqStateLen ∨
        h.size.toNat < protoHeaderLen + u2rReqStateLen) := by omega
    rw [← hid, hsome, decodeU2rReqState, if_neg hopen', if_neg hall']
    rw [readStreamId_take (Nat.le_trans hin hlong)]

theorem decodeD2p_decodes {udp : Bool} {buf : ReadBuffer} {h : ProtoHeader}
    (hread : readHeader udp buf = .ok h) (hlen : protoHeaderLen + d2pReqStateLen ≤ buf.dataLen) :
    Decodes d2pReqStateLen decodeD2pReqState h buf := by
  obtain ⟨-, hsize⟩ := readHeader_complete hread
  have hopen : ¬ buf.dataLen < protoHeaderLen + d2pReqStateLen := Nat.not_lt.mpr hlen
  by_cases hshort : h.size.toNat < protoHeaderLen + d2pReqStateLen
  · have hnone : decodeD2pReqState h buf = .ok none := by
      rw [decodeD2pReqState, if_neg hopen, if_pos hshort]
    refine ⟨⟨none, hnone⟩, fun _ => hnone, fun id hid => ?_⟩
    rw [hnone] at hid
    cases hid
  · have hlong := Nat.le_of_not_lt hshort
    have hsome : decodeD2pReqState h buf =
        .ok (some (readStreamId buf.mem (protoHeaderLen + 4))) := by
      rw [decodeD2pReqState, if_neg hopen, if_neg hshort]
    refine ⟨⟨_, hsome⟩, fun hlt => absurd hlt hshort, fun id hid => ⟨hlong, hsize, ?_⟩⟩
    have hin : protoHeaderLen + 4 + 16 ≤ protoHeaderLen + d2pReqStateLen := by decide
    rw [← hid, hsome, decodeD2pReqState, if_neg hshort, if_neg hshort]
    rw [readStreamId_take (Nat.le_trans hin hlong)]

/-- A call comes to an assertion that fails exactly on a short D2P request. -/
theorem decodes_iff (udp : Bool) (buf : ReadBuffer) :
    RequestDecodes udp buf ↔ ¬ ShortRequest udp buf := by
  constructor
  · rintro hdecodes ⟨h, hread, hcmd, hshort⟩
    obtain ⟨r, hr⟩ := ((hdecodes h hread).2 hcmd).answers
    rw [decodeD2pReqState, if_pos hshort] at hr
    cases hr
  · intro hnot h hread
    refine ⟨fun _ => decodeU2r_decodes hread, fun hcmd => decodeD2p_decodes hread ?_⟩
    exact Nat.le_of_not_lt fun hshort => hnot ⟨h, hread, hcmd, hshort⟩

/-- The server faults on it. -/
theorem onReadPacket_short {env : ServerEnv} {w : Server} {c : Addr} {con : RtpConnection}
    (hc : w.connections[c]? = some con) {buf : ReadBuffer} (hshort : ShortRequest con.udp buf) :
    w.onReadPacket env c buf = .error .assertFailed := by
  obtain ⟨h, hread, hcmd, hlen⟩ := hshort
  have hother : h.cmd ≠ CMD_RTP_U2R_REQ_STATE := by
    rw [hcmd]
    decide
  rw [Server.onReadPacket, Server.connection_eq_ok.mpr hc, ok_bind, hread]
  dsimp only
  rw [Server.onCommand, Server.connection_eq_ok.mpr hc, ok_bind, if_neg hother, if_pos hcmd,
    decodeD2pReqState, if_pos hlen]
  rfl

theorem step_short {env : ServerEnv} {w : Server} {c : Addr} {con : RtpConnection}
    (hc : w.connections[c]? = some con) {buf : ReadBuffer} (hshort : ShortRequest con.udp buf) :
    w.step env (.packet c buf) = .error .assertFailed := by
  have hlive : w.connections.contains c = true := by
    rw [TreeMap.contains_eq_isSome_getElem?, hc]
    rfl
  rw [Server.step, if_pos hlive, onReadPacket_short hc hshort]
  rfl

/-! ## Runs -/

/-- `P` holds of what `OnReadPacket` sees at an event. -/
def AtPacket (P : Bool → ReadBuffer → Prop) (w : Server) (e : ServerEnv × Event) : Prop :=
  match e.2 with
  | .packet c buf => ∀ con, w.connections[c]? = some con → P con.udp buf
  | _ => True

/-- `P` holds of what each call of `OnReadPacket` in the loop sees. -/
def TcpReader.EachTurn (P : ReadBuffer → Prop) (envs : Nat → ServerEnv) (c : Addr) :
    Nat → TcpReader → Prop
  | 0, _ => True
  | n + 1, r => P (view r.rb) ∧
      ∀ r', r.turn (envs n) c = .ok r' → r'.ret = 1 → r'.EachTurn P envs c n

/-- `P` holds of what the calls of `OnReadPacket` at a read see. -/
def AtRead (P : ReadBuffer → Prop) (c : Addr) (s : TcpStream) (e : TcpEvent) : Prop :=
  match e with
  | .read envs waiting incoming => s.server.connections.contains c = true →
    ∀ rb bytes, s.rb.readFdMax MAX_LEN_PER_READ waiting incoming = some (rb, bytes) →
      { s.toTcpReader with rb := rb }.EachTurn P envs c (rb.dataLen + 1)
  | .other _ _ => True

theorem eachTurn_congr {P Q : ReadBuffer → Prop} (hPQ : ∀ buf, P buf ↔ Q buf)
    (envs : Nat → ServerEnv) (c : Addr) (n : Nat) (r : TcpReader) :
    r.EachTurn P envs c n ↔ r.EachTurn Q envs c n := by
  induction n generalizing r with
  | zero => exact Iff.rfl
  | succ n ih =>
    refine and_congr (hPQ _) ?_
    exact forall_congr' fun r' => imp_congr_right fun _ => imp_congr_right fun _ => ih r'

/-- Whatever the server is sent on any connections, and whatever reads the bytes of a TCP connection
come in: the requests are decoded as they should exactly if no short D2P request stands in a
buffer. -/
theorem requests_decode_iff (events : List (ServerEnv × Event)) (c : Addr) (w : Server)
    (reads : List TcpEvent) :
    (Along (fun w e => w.step e.1 e.2) (AtPacket RequestDecodes) Server.new events ↔
      Along (fun w e => w.step e.1 e.2) (AtPacket fun udp buf => ¬ ShortRequest udp buf)
        Server.new events) ∧
    (Along (TcpStream.step c) (AtRead (RequestDecodes false) c) (TcpStream.accepted w) reads ↔
      Along (TcpStream.step c) (AtRead (fun buf => ¬ ShortRequest false buf) c)
        (TcpStream.accepted w) reads) := by
  constructor
  · refine Along.congr (fun w e => ?_) events
    obtain ⟨env, e⟩ := e
    cases e with
    | packet c buf => exact forall_congr' fun con => imp_congr_right fun _ => decodes_iff con.udp buf
    | _ => exact Iff.rfl
  · refine Along.congr (fun s e => ?_) reads
    cases e with
    | other env e => exact Iff.rfl
    | read envs waiting incoming =>
      refine imp_congr_right fun _ => forall_congr' fun rb => forall_congr' fun bytes =>
        imp_congr_right fun _ => ?_
      exact eachTurn_congr (decodes_iff false) envs c _ _

/-- The first datagram of a connection is a header, and asks for a stream without saying which. -/
theorem short_request_asserts :
    (Server.new.accept 1 (RtpConnection.new true 0)).step firstSecond
        (.packet 1 (exactly (headerBytes CMD_RTP_D2P_REQ_STATE 8))) = .error .assertFailed ∧
      ¬ RequestDecodes true (exactly (headerBytes CMD_RTP_D2P_REQ_STATE 8)) := by
  have hshort : ShortRequest true (exactly (headerBytes CMD_RTP_D2P_REQ_STATE 8)) :=
    ⟨⟨0xff, VER_1, CMD_RTP_D2P_REQ_STATE, 8⟩, by decide, rfl, by decide⟩
  have hc : (Server.new.accept 1 (RtpConnection.new true 0)).connections[(1 : Addr)]? =
      some (RtpConnection.new true 0) := setConnection_self _ _ _
  exact ⟨step_short hc hshort, fun h => (decodes_iff _ _).mp h hshort⟩

end RtcMcu.ConnectionManager
