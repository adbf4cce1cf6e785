import RtcMcu.ConnectionManager.PlayerPackets
import RtcMcu.ConnectionManager.Framing
import RtcMcu.RtpTrans.PacketLengths

/-!
# Lengths of packets

What `OnReadPacket` hands on of a message: it takes 24 from the size in the header, which was not
compared with 24, and cuts the length of an RTP packet to 16 bits (`message_body_exact_iff`).

`SendRtp` puts 24 bytes before a packet, in a buffer of 2048. The packets it is given come from
messages, from the cache, from the FEC of the players and from recoveries; for each of the four it is
said which fit (`send_rtp_fits_iff`).
-/

namespace RtcMcu.ConnectionManager

open RtcMcu.Avformat RtcMcu.MediaManager RtcMcu.Fragment RtcMcu.RtpTrans RtcMcu.Coupling
  RtcMcu.Parity Std

/-! ## Messages -/

/-- The length an RTP packet is given, as a number. -/
theorem messageRtp_len (h : ProtoHeader) (buf : ReadBuffer) :
    (messageRtp h buf).2 = (h.size.toNat + (2 ^ 32 - packetHeadLen)) % 2 ^ 16 := by
  have hsize := h.size.isLt
  simp only [messageRtp, packetHeadLen, BitVec.toNat_setWidth, BitVec.toNat_sub, BitVec.toNat_ofNat]
  omega

/-- A UDP message is the whole datagram. -/
theorem readHeader_udp {buf : ReadBuffer} {h : ProtoHeader} (hread : readHeader true buf = .ok h) :
    h.size.toNat = buf.dataLen ∧ h.size.toNat < bufferMax true := by
  unfold readHeader at hread
  split at hread
  · cases hread
  · cases hdecode : decodeHeader buf.mem with
    | none =>
      rw [hdecode] at hread
      cases hread
    | some h' =>
      rw [hdecode] at hread
      dsimp only at hread
      split at hread
      · cases hread
      · rename_i hmax
        rw [if_pos rfl] at hread
        split at hread
        · cases hread
        · rename_i hsize
          cases hread
          exact ⟨(not_not.mp hsize).symm, Nat.lt_of_not_le hmax⟩

/-- A message that is a header and nothing else, at the front of a larger block. -/
def bareMessage (cmd : BitVec 16) : ReadBuffer where
  mem := headerBytes cmd 8 ++ List.replicate 56 0
  dataLen := 8

def bareHeader (cmd : BitVec 16) : ProtoHeader where
  magic := 0xff
  version := VER_1
  cmd := cmd
  size := 8

/-- `SendRtp` stays inside its buffer. -/
theorem sendRtp_fits_iff (w : Server) (purpose : Purpose) (c : Addr) (rtp : Rtp) (len : Nat)
    (ssrc : BitVec 32) :
    (∃ w', w.sendRtp purpose c rtp len ssrc = .ok w') ↔ packetHeadLen + len ≤ 2048 := by
  unfold Server.sendRtp
  by_cases h : 2048 < packetHeadLen + len
  · rw [if_pos h]
    constructor
    · rintro ⟨w', hw'⟩
      cases hw'
    · intro hle
      omega
  · rw [if_neg h]
    exact ⟨fun _ => Nat.le_of_not_lt h, fun _ => ⟨_, rfl⟩⟩

theorem sendFecs_fits_iff (c : Addr) (sent : List Sent) (w : Server) :
    (∃ w', w.sendFecs c sent = .ok w') ↔ ∀ s ∈ sent, packetHeadLen + s.2 ≤ 2048 := by
  induction sent generalizing w with
  | nil =>
    constructor
    · intro _ s hs
      cases hs
    · exact fun _ => ⟨w, rfl⟩
  | cons s sent ih =>
    have hhead := sendRtp_fits_iff w .fec c s.1 s.2 0
    rw [Server.sendFecs, List.foldlM_cons]
    constructor
    · rintro ⟨w', hw'⟩
      obtain ⟨w₁, hsend, hrest⟩ := bind_eq_ok.mp hw'
      intro s' hs'
      rcases List.mem_cons.mp hs' with rfl | hs'
      · exact hhead.mp ⟨w₁, hsend⟩
      · exact (ih w₁).mp ⟨w', hrest⟩ s' hs'
    · intro hall
      obtain ⟨w₁, hsend⟩ := hhead.mpr (hall s List.mem_cons_self)
      obtain ⟨w', hrest⟩ := (ih w₁).mpr fun s' hs' => hall s' (List.mem_cons_of_mem s hs')
      exact ⟨w', bind_eq_ok.mpr ⟨w₁, hsend, hrest⟩⟩

/-- The packet of an accepted message fits: over UDP, if the message has a head; over TCP, by its
size less 24 modulo 2 ^ 16. -/
theorem message_fits_iff {udp : Bool} {buf : ReadBuffer} {h : ProtoHeader}
    (hread : readHeader udp buf = .ok h) :
    packetHeadLen + (messageRtp h buf).2 ≤ 2048 ↔
      if udp then packetHeadLen ≤ h.size.toNat
      else (h.size.toNat + (2 ^ 16 - packetHeadLen)) % 2 ^ 16 ≤ 2048 - packetHeadLen := by
  have hsize := h.size.isLt
  rw [messageRtp_len]
  cases udp with
  | true =>
    obtain ⟨-, hmax⟩ := readHeader_udp hread
    simp only [bufferMax, packetHeadLen, if_true] at hmax ⊢
    omega
  | false =>
    simp only [packetHeadLen, Bool.false_eq_true, if_false]
    omega

/-- A player is forwarded a packet, and its FEC packets, in frames that fit. -/
theorem forwardTo_fits_iff {env : ServerEnv} {w : Server} {c : Addr} {con : RtpConnection}
    {t : RTPSendTrans} (hc : w.connections[c]? = some con) (hplayer : con.type = .player)
    (htrans : con.trans = some (.send t)) {rtp : Rtp} {len : Nat} {r : RTPSendTrans × List Sent}
    (hfec : t.onHandleRtp (w.rtpCache.getRtpBySeq con.streamid) env.now (con.outgoing rtp) len =
      .ok r) :
    (∃ r, w.forwardTo env rtp len c = .ok r) ↔ packetHeadLen + len ≤ 2048 ∧
      t.FecWithin (w.rtpCache.getRtpBySeq con.streamid) (con.outgoing rtp)
        (2048 - packetHeadLen) := by
  obtain ⟨t', sent⟩ := r
  have hle : (∀ e ∈ sent, packetHeadLen + e.2 ≤ 2048) ↔
      t.FecWithin (w.rtpCache.getRtpBySeq con.streamid) (con.outgoing rtp)
        (2048 - packetHeadLen) := by
    rw [← RTPSendTrans.onHandleRtp_le_iff hfec (by decide)]
    refine forall₂_congr fun e _ => ?_
    simp only [packetHeadLen]
    omega
  have hisPlayer : con.isPlayer = true := by
    rw [RtpConnection.isPlayer, hplayer]
    rfl
  rw [← hle, Server.forwardTo, Server.connection_eq_ok.mpr hc, ok_bind, if_pos hisPlayer]
  show (∃ r, (w.sendRtp .forward c (con.outgoing rtp) len 0 >>= _) = .ok r) ↔ _
  constructor
  · rintro ⟨r, hr⟩
    obtain ⟨w₁, hsend, hr⟩ := bind_eq_ok.mp hr
    have hlen := (sendRtp_fits_iff w .forward c (con.outgoing rtp) len 0).mp ⟨w₁, hsend⟩
    refine ⟨hlen, ?_⟩
    rw [Server.sendRtp, if_neg (Nat.not_lt.mpr hlen)] at hsend
    cases hsend
    rw [htrans] at hr
    obtain ⟨w₂, hplay, -⟩ := bind_eq_ok.mp hr
    obtain ⟨⟨t₂, sent₂⟩, hhandle, hplay⟩ := bind_eq_ok.mp hplay
    cases hfec.symm.trans hhandle
    exact (sendFecs_fits_iff c sent _).mp ⟨w₂, hplay⟩
  · rintro ⟨hlen, hsent⟩
    rw [Server.sendRtp, if_neg (Nat.not_lt.mpr hlen), ok_bind, htrans]
    dsimp only
    rw [Server.sendTransOnHandleRtp]
    show ∃ r, ((t.onHandleRtp (w.rtpCache.getRtpBySeq con.streamid) env.now (con.outgoing rtp) len
      >>= _) >>= _) = .ok r
    rw [hfec, ok_bind]
    obtain ⟨w₂, hplay⟩ := (sendFecs_fits_iff c sent _).mpr hsent
    exact ⟨_, bind_eq_ok.mpr ⟨w₂, hplay, rfl⟩⟩

/-- A packet of the cache is sent again in a frame that fits. -/
theorem sendNackRtp_fits_iff {w : Server} {c : Addr} {con : RtpConnection} (hudp : con.udp = true)
    (hplayer : con.type = .player) {video : Bool} {seq : Seq} {rtp : Rtp} {len : Nat}
    (hget : w.rtpCache.getRtpBySeq con.streamid video seq = .ok (some rtp, len)) :
    (∃ w', w.sendNackRtp c con video seq = .ok w') ↔ packetHeadLen + len ≤ 2048 := by
  have hcond : (con.udp && con.isPlayer) = true := by
    rw [hudp, RtpConnection.isPlayer, hplayer]
    rfl
  rw [Server.sendNackRtp, if_pos hcond, hget, ok_bind]
  exact sendRtp_fits_iff _ _ _ _ _ _

/-- What is sent to a player stays inside the frame buffer exactly if it is no longer than 2024 bytes:
a packet that is forwarded, with the packets that its FEC packets protect shorter by what FEC adds; a
packet of the cache that is sent again; the packet of a message, by the size it declares; and a
recovered packet, by the xor of the lengths it is recovered from. -/
theorem send_rtp_fits_iff {env : ServerEnv} {w : Server} {c : Addr} {con : RtpConnection}
    {t : RTPSendTrans} (hc : w.connections[c]? = some con) (hplayer : con.type = .player)
    (htrans : con.trans = some (.send t)) :
    (∀ rtp len r,
      t.onHandleRtp (w.rtpCache.getRtpBySeq con.streamid) env.now (con.outgoing rtp) len = .ok r →
      ((∃ r, w.forwardTo env rtp len c = .ok r) ↔ packetHeadLen + len ≤ 2048 ∧
        t.FecWithin (w.rtpCache.getRtpBySeq con.streamid) (con.outgoing rtp)
          (2048 - packetHeadLen))) ∧
    (∀ video seq rtp len, con.udp = true →
      w.rtpCache.getRtpBySeq con.streamid video seq = .ok (some rtp, len) →
      ((∃ w', w.sendNackRtp c con video seq = .ok w') ↔ packetHeadLen + len ≤ 2048)) ∧
    (∀ udp buf h, readHeader udp buf = .ok h →
      (packetHeadLen + (messageRtp h buf).2 ≤ 2048 ↔
        if udp then packetHeadLen ≤ h.size.toNat
        else (h.size.toNat + (2 ^ 16 - packetHeadLen)) % 2 ^ 16 ≤ 2048 - packetHeadLen)) ∧
    ∀ get s s' seq ref len length,
      RTPRecvSession.recoverOne get s seq ref len = .ok (s', some length) →
      (packetHeadLen + length ≤ 2048 ↔
        packetHeadLen + (s.recoveredLength get seq ref).toNat ≤ 2048) := by
  refine ⟨fun rtp len r hfec => forwardTo_fits_iff hc hplayer htrans hfec,
    fun video seq rtp len hudp hget => sendNackRtp_fits_iff hudp hplayer hget,
    fun udp buf h hread => message_fits_iff hread, ?_⟩
  intro get s s' seq ref len length hrecover
  rw [RTPRecvSession.recoverOne_length hrecover]

/-! ### A video packet, short and long -/

/-- An SDP with video only. -/
def videoSecond : ServerEnv :=
  { firstSecond with sdpInfo := { mediaInfos := fun _ => [⟨RTP_AV_H264, 90000⟩], getSdpStr := id } }

/-- An uploader, reached by UDP or by TCP, sends a video packet, and a player comes. -/
def videoThenPlayer (udp : Bool) : List (ServerEnv × Event) :=
  [.accept 1 udp, .packet 1 (reqMessage CMD_RTP_U2R_REQ_STATE 5 69), .putSdp 5 [],
    .packet 1 (rtpMessage CMD_RTP_U2R_PACKET (videoByte 8 6)), .accept 2 true,
    .packet 2 (reqMessage CMD_RTP_D2P_REQ_STATE 5 189)].map (videoSecond, ·)

/-- The player then, with its trans. -/
def playerOf (w : Server) : Except Fault (RtpConnection × RTPSendTrans) := do
  let con ← w.connection 2
  match con.trans with
  | some (.send t) => .ok (con, t)
  | _ => .error .wrongClass

theorem playerOf_ok {w : Server} {con : RtpConnection} {t : RTPSendTrans}
    (h : playerOf w = .ok (con, t)) :
    w.connections[(2 : Addr)]? = some con ∧ con.trans = some (.send t) := by
  obtain ⟨con', hcon, h⟩ := bind_eq_ok.mp h
  cases htrans : con'.trans with
  | none =>
    rw [htrans] at h
    cases h
  | some any =>
    cases any with
    | recv t' =>
      rw [htrans] at h
      cases h
    | send t' =>
      rw [htrans] at h
      cases h
      exact ⟨Server.connection_eq_ok.mp hcon, htrans⟩

/-- A mask FEC packet for one packet of 13 bytes. -/
def oneVideoFec : Rtp :=
  { Rtp.zero with
    version := 2
    payload := RTP_AV_FEC
    data := (FecHeader.mk 8 13 RTP_AV_H264 1 1 0).bytes ++ [0, 0] }

theorem oneVideoFec_recovers : ∃ s', RTPRecvSession.recoverOne (fun _ _ => .ok (none, 0))
    RTPRecvSession.new 8 (.ext oneVideoFec) 26 = .ok (s', some 13) := ⟨_, rfl⟩

/-- The player is given another packet, and looks up the first. -/
def playerGiven : Except Fault (Server × (RtpConnection × RTPSendTrans) ×
    (RTPSendTrans × List Sent) × (Option Rtp × Nat)) := do
  let w ← Server.new.run (videoThenPlayer true)
  let player ← playerOf w
  let get := w.rtpCache.getRtpBySeq player.1.streamid
  let r ← player.2.onHandleRtp get videoSecond.now (player.1.outgoing (videoByte 9 6)) 13
  let found ← get true 8
  .ok (w, player, r, found)

theorem send_rtp_fits_iff_video : ∃ w con t rtp len s',
    Server.new.run (videoThenPlayer true) = .ok w ∧
    ((∃ r, w.forwardTo videoSecond (videoByte 9 6) 13 2 = .ok r) ↔ packetHeadLen + 13 ≤ 2048 ∧
      RTPSendTrans.FecWithin (w.rtpCache.getRtpBySeq con.streamid) t (con.outgoing (videoByte 9 6))
        (2048 - packetHeadLen)) ∧
    w.rtpCache.getRtpBySeq con.streamid true 8 = .ok (some rtp, len) ∧
    ((∃ w', w.sendNackRtp 2 con true 8 = .ok w') ↔ packetHeadLen + len ≤ 2048) ∧
    (packetHeadLen + (messageRtp (bareHeader CMD_RTP_U2R_PACKET) (bareMessage CMD_RTP_U2R_PACKET)).2
        ≤ 2048 ↔ packetHeadLen ≤ 8) ∧
    RTPRecvSession.recoverOne (fun _ _ => .ok (none, 0)) RTPRecvSession.new 8 (.ext oneVideoFec) 26 =
      .ok (s', some 13) ∧
    (packetHeadLen + 13 ≤ 2048 ↔ packetHeadLen + (RTPRecvSession.new.recoveredLength
      (fun _ _ => .ok (none, 0)) 8 (.ext oneVideoFec)).toNat ≤ 2048) := by
  have hcheck : playerGiven.toOption.any (fun (_, (con, _), _, found) =>
      con.type == .player && con.udp && found.1.isSome) = true := by
    decide +kernel
  cases hgiven : playerGiven with
  | error f =>
    rw [hgiven] at hcheck
    cases hcheck
  | ok given =>
    obtain ⟨w, ⟨con, t⟩, r, rtp, len⟩ := given
    rw [hgiven] at hcheck
    simp only [Except.toOption, Option.any_some, Bool.and_eq_true, beq_iff_eq] at hcheck
    obtain ⟨⟨hplayer, hudp⟩, hfound⟩ := hcheck
    obtain ⟨rtp, rfl⟩ := Option.isSome_iff_exists.mp hfound
    obtain ⟨w₁, hrun, hgiven⟩ := bind_eq_ok.mp hgiven
    obtain ⟨⟨con₁, t₁⟩, hof, hgiven⟩ := bind_eq_ok.mp hgiven
    obtain ⟨r₁, hfec, hgiven⟩ := bind_eq_ok.mp hgiven
    obtain ⟨found₁, hget, hgiven⟩ := bind_eq_ok.mp hgiven
    cases hgiven
    obtain ⟨hc, htrans⟩ := playerOf_ok hof
    obtain ⟨s', hrecover⟩ := oneVideoFec_recovers
    obtain ⟨hforward, hnack, hmessage, hrecovered⟩ :=
      @send_rtp_fits_iff videoSecond w 2 con t hc hplayer htrans
    exact ⟨w, con, t, rtp, len, s', hrun, hforward _ 13 _ hfec, hget, hnack true 8 rtp len hudp hget,
      hmessage true _ (bareHeader CMD_RTP_U2R_PACKET) (by rfl), hrecover,
      hrecovered _ _ s' 8 _ 26 13 hrecover⟩

/-- A video packet of 2025 bytes, one more than fits. -/
def longVideo : Rtp := { videoByte 9 6 with data := List.replicate 2013 0 }

def longVideoHeader : ProtoHeader where
  magic := 0xff
  version := VER_1
  cmd := CMD_RTP_U2R_PACKET
  size := 2049

/-- An uploader reached by TCP sends it, and a player of the stream is to be sent it. -/
theorem long_video_overflows : ¬ ∀ events w, Server.new.run events = .ok w →
    ∀ (c : Addr) con, w.connections[c]? = some con → con.type = .uploader →
    ∀ buf h, readHeader con.udp buf = .ok h → h.cmd = CMD_RTP_U2R_PACKET →
      packetHeadLen + (messageRtp h buf).2 = h.size.toNat →
    ∀ a ∈ w.members con.streamid, ∀ player, w.connections[a]? = some player →
      player.type = .player →
      ∃ w', w.sendRtp .forward a (messageRtp h buf).1 (messageRtp h buf).2 0 = .ok w' := by
  intro hall
  have hcheck : (Server.new.run (videoThenPlayer false)).toOption.any (fun w =>
      (w.connections[(1 : Addr)]?).any (fun con => con.type == .uploader && !con.udp &&
        (w.members con.streamid).contains 2) &&
      (w.connections[(2 : Addr)]?).any fun player => player.type == .player) = true := by
    decide +kernel
  cases hrun : Server.new.run (videoThenPlayer false) with
  | error f =>
    rw [hrun] at hcheck
    cases hcheck
  | ok w =>
    rw [hrun] at hcheck
    simp only [Except.toOption, Option.any_some, Bool.and_eq_true, Option.any_eq_true, beq_iff_eq,
      Bool.not_eq_true', List.contains_iff_mem] at hcheck
    obtain ⟨⟨con, hc, ⟨htype, hudp⟩, hmem⟩, player, hc', htype'⟩ := hcheck
    have hread : readHeader con.udp (rtpMessage CMD_RTP_U2R_PACKET longVideo) =
        .ok longVideoHeader := by
      rw [hudp]
      decide +kernel
    have hsend := hall _ w hrun 1 con hc htype _ _ hread rfl (by decide) 2 hmem player hc' htype'
    rw [sendRtp_fits_iff] at hsend
    revert hsend
    decide

end RtcMcu.ConnectionManager
