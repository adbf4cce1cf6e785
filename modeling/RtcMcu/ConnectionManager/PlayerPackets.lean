import RtcMcu.ConnectionManager.ConnectionTable
import RtcMcu.ConnectionManager.Forwarding

/-!
# Packets from players

In every run a connection has the trans its type asks for, and stands in the group of its stream
(`Server.Fits`), whatever requests it sent before. So what a player's packet does follows from the
message alone: RTCP and FEC packets change neither a cache nor what is forwarded, but
`OnReadPacket` goes by the command and not by the type, so that a media packet of a player is stored
and forwarded like one of the uploader (`player_packet_iff`). `OnRecvRtcp` does ask for the type.
-/

namespace RtcMcu.ConnectionManager

open RtcMcu.Avformat RtcMcu.MediaManager RtcMcu.RtpTrans RtcMcu.Coupling Std

/-! ## Types and transes -/

/-- The mode of the trans a connection of a type has, once it is open. -/
def ConnectionType.mode : ConnectionType → Option RTPTransMode
  | .unknown => none
  | .player => some .sender
  | .uploader => some .receiver

theorem uploader_ne_unknown : ConnectionType.uploader ≠ .unknown := by decide

theorem player_ne_unknown : ConnectionType.player ≠ .unknown := by decide

/-- The connection at `c`, if there is one, has the trans of its type and is in its group. -/
def Server.FitsAt (w : Server) (c : Addr) : Prop :=
  ∀ con, w.connections[c]? = some con →
    con.mode = con.type.mode ∧ (con.type ≠ .unknown → c ∈ w.members con.streamid)

def Server.Fits (w : Server) : Prop := ∀ c, w.FitsAt c

theorem Server.FitsAt.mono {w w' : Server} {c : Addr} (h : w.FitsAt c)
    (hconn : ∀ con, w'.connections[c]? = some con → w.connections[c]? = some con)
    (hgroup : ∀ key, c ∈ w.group key → c ∈ w'.group key) : w'.FitsAt c := by
  intro con hcon
  obtain ⟨hmode, hmem⟩ := h con (hconn con hcon)
  exact ⟨hmode, fun htype => hgroup _ (hmem htype)⟩

theorem SameTable.fitsAt {w w' : Server} (h : SameTable w w') {c : Addr} (hc : w.FitsAt c) :
    w'.FitsAt c := by
  intro con' hcon'
  obtain ⟨con, hcon, hentry⟩ := h.symm.connection hcon'
  obtain ⟨htype, hid, hmode⟩ := RtpConnection.entry_eq hentry
  obtain ⟨hfit, hmem⟩ := hc con hcon
  rw [← hmode, ← htype, ← hid, Server.members, h.group]
  exact ⟨hfit, hmem⟩

theorem SameTable.fits {w w' : Server} (h : SameTable w w') (hw : w.Fits) : w'.Fits :=
  fun c => h.fitsAt (hw c)

/-! ### Opening and closing -/

/-- `Destroy` leaves the others as they are. -/
theorem destroy_fits (w : Server) (c : Addr) :
    Ends AnyFault (fun w' => ∀ a, (a ≠ c → w.FitsAt a) → w'.FitsAt a) (w.destroy c) := by
  cases hcon : w.connections[c]? with
  | none =>
    rw [Server.destroy, Server.connection, hcon]
    trivial
  | some con =>
    obtain ⟨w', hdestroy, hd⟩ := destroy_ok hcon
    rw [hdestroy]
    intro a ha conA hA
    obtain ⟨hne, hA'⟩ := hd.connection hA
    obtain ⟨hmode, hmem⟩ := ha hne conA hA'
    exact ⟨hmode, fun htype => hd.group.mpr ⟨hmem htype, fun h => hne h.2.2⟩⟩

theorem destroyAll_fits {w : Server} (hw : w.Fits) (cs : List Addr) :
    Ends AnyFault Server.Fits (cs.foldlM Server.destroy w) :=
  Ends.foldlM cs
    (fun w' c _ hw' => (destroy_fits w' c).mono fun _ _ h a => h a fun _ => hw' a) hw

/-- The loop over the uploaders destroys connections and does nothing else. -/
theorem destroyUploaders_fits (id : StreamId) (w : Server) (cs : List Addr) :
    Ends AnyFault (fun w' => (∀ a, w.FitsAt a → w'.FitsAt a) ∧
      ∀ (a : Addr) con, w'.connections[a]? = some con → w.connections[a]? = some con)
      (Server.destroyUploaders id w cs) := by
  induction cs generalizing w with
  | nil => exact ⟨fun _ h => h, fun _ _ h => h⟩
  | cons c cs ih =>
    rw [Server.destroyUploaders]
    cases hcon : w.connections[c]? with
    | none =>
      rw [Server.connection, hcon]
      trivial
    | some con =>
      rw [Server.connection_eq_ok.mpr hcon, ok_bind]
      split
      · obtain ⟨w₁, hdestroy, hd⟩ := destroy_ok hcon
        have hfits := destroy_fits w c
        rw [hdestroy] at hfits ⊢
        rw [ok_bind]
        split
        · refine (ih w₁).mono ?_
          rintro w' - ⟨hkept, hback⟩
          exact ⟨fun a ha => hkept a (hfits a fun _ => ha),
            fun a conA hA => (hd.connection (hback a conA hA)).2⟩
        · trivial
      · exact ih w

/-- A connection that joins its group with the right trans fits. -/
theorem join_fits {w : Server} {c : Addr} {con : RtpConnection} {t : AnyTrans}
    (hothers : ∀ a, a ≠ c → w.FitsAt a) (hmode : some t.mode = con.type.mode) :
    (w.join c con t).Fits := by
  intro a conA hA
  have hconns : (w.join c con t).connections[a]? =
      if c = a then some { con with trans := some t } else w.connections[a]? :=
    Server.getElem?_setConnection w c { con with trans := some t } a
  rw [hconns] at hA
  split at hA
  · rename_i hca
    subst hca
    cases hA
    exact ⟨hmode, fun _ => mem_group_join.mpr (Or.inr ⟨rfl, rfl⟩)⟩
  · rename_i hne
    obtain ⟨hfit, hmem⟩ := hothers a (Ne.symm hne) conA hA
    exact ⟨hfit, fun htype => mem_group_join.mpr (Or.inl (hmem htype))⟩

/-- A connection that `_open_trans` has opened fits. -/
theorem openTrans_fits {env : ServerEnv} {w : Server} {c : Addr} (con : RtpConnection)
    (hc : w.connections[c]? = some con) (htype : con.type ≠ .unknown)
    (hothers : ∀ a, a ≠ c → w.FitsAt a) (config : RTPTransConfig) :
    Ends AnyFault Server.Fits (w.openTrans env c config) := by
  rw [Server.openTrans, Server.connection_eq_ok.mpr hc, ok_bind]
  by_cases hplayer : con.isPlayer = true
  · rw [if_pos hplayer, Server.openPlayer, Server.connection_eq_ok.mpr hc, ok_bind]
    simp only [RtpConnection.isPlayer, beq_iff_eq] at hplayer
    refine Ends.bind (managerGetSdp_ends tableFaults_any.toMediaFaults env.sdpInfo w.rtpCache
      con.streamid) ?_
    intro sdp _ _
    refine join_fits hothers ?_
    dsimp only
    rw [hplayer]
    rfl
  · rw [if_neg hplayer, Server.openUploader, Server.connection_eq_ok.mpr hc, ok_bind]
    simp only [RtpConnection.isPlayer, beq_iff_eq] at hplayer
    refine Ends.bind (destroyUploaders_fits con.streamid w (w.members con.streamid)) ?_
    rintro w₁ - ⟨hkept, hback⟩
    cases hcon₁ : w₁.connections[c]? with
    | none =>
      rw [Server.connection, hcon₁]
      trivial
    | some con₁ =>
      rw [Server.connection_eq_ok.mpr hcon₁, ok_bind]
      cases hc.symm.trans (hback c con₁ hcon₁)
      refine join_fits (fun a ha => hkept a (hothers a ha)) ?_
      revert htype hplayer
      cases con.type <;> intro htype hplayer
      · exact absurd rfl htype
      · exact absurd rfl hplayer
      · rfl

/-! ### Steps and runs -/

/-- After `OnReadPacket` all fit, but for a connection that is to be destroyed. -/
def ReadFits (c : Addr) (r : Server × Int) : Prop :=
  if r.2 < 0 then ∀ a, a ≠ c → r.1.FitsAt a else r.1.Fits

theorem setConnection_fitsAt {w : Server} {c a : Addr} (hne : a ≠ c) (con : RtpConnection)
    (ha : w.FitsAt a) : (w.setConnection c con).FitsAt a := by
  refine ha.mono (fun conA hA => ?_) fun _ h => h
  rwa [Server.getElem?_setConnection, if_neg (Ne.symm hne)] at hA

theorem onReqState_fits {env : ServerEnv} {w : Server} (hw : w.Fits) (c : Addr)
    (con : RtpConnection) (htype : con.type ≠ .unknown) (config : RTPTransConfig)
    (id : Option StreamId) {failed : Int} (hfailed : failed < 0) :
    Ends AnyFault (ReadFits c) ((w.setConnection c con).onReqState env c config id failed) := by
  have hothers : ∀ a, a ≠ c → (w.setConnection c con).FitsAt a :=
    fun a ha => setConnection_fitsAt ha con (hw a)
  cases id with
  | none =>
    refine (?_ : ReadFits c _)
    rw [ReadFits, if_pos hfailed]
    exact hothers
  | some id =>
    have hc : (w.setConnection c con).connections[c]? = some con := by
      rw [Server.getElem?_setConnection, if_pos rfl]
    rw [Server.onReqState, Server.connection_eq_ok.mpr hc, ok_bind]
    refine Ends.bind (openTrans_fits { con with streamid := id } ?_ htype
      (fun a ha => setConnection_fitsAt ha _ (hothers a ha)) config) ?_
    · rw [Server.getElem?_setConnection, if_pos rfl]
    · intro w' _ hw'
      exact hw'

theorem onReadPacket_fits {env : ServerEnv} {w : Server} (hw : w.Fits) (c : Addr)
    (buf : ReadBuffer) : Ends AnyFault (ReadFits c) (w.onReadPacket env c buf) := by
  have hkept : ∀ ret, ReadFits c (w, ret) := by
    intro ret
    rw [ReadFits]
    split
    · exact fun a _ => hw a
    · exact hw
  have hdone : ∀ w' : Server, SameTable w w' → ReadFits c (w', 1) := fun w' h => h.fits hw
  cases hcon : w.connections[c]? with
  | none =>
    rw [Server.onReadPacket, Server.connection, hcon]
    trivial
  | some con =>
    rw [Server.onReadPacket, Server.connection_eq_ok.mpr hcon, ok_bind]
    cases readHeader con.udp buf with
    | error ret => exact hkept ret
    | ok h =>
      dsimp only
      rw [Server.onCommand, Server.connection_eq_ok.mpr hcon, ok_bind]
      split
      · cases decodeU2rReqState h buf with
        | error f => trivial
        | ok id => exact onReqState_fits hw c { con with type := .uploader } uploader_ne_unknown _ id (by decide)
      · split
        · cases decodeD2pReqState h buf with
          | error f => trivial
          | ok id => exact onReqState_fits hw c { con with type := .player } player_ne_unknown _ id (by decide)
        · split
          · exact hkept 1
          · split
            · split
              · exact hkept (-5)
              · split
                · trivial
                · exact Ends.bind (onRecvRtp_table tableFaults_any w.linked_any (w.live_any c) _ _)
                    fun w' _ hw' => hdone w' hw'
            · split
              · split
                · exact hkept (-5)
                · cases messageRtcp h buf with
                  | error f => trivial
                  | ok rtcp =>
                    rw [ok_bind]
                    exact Ends.bind (onRecvRtcp_table tableFaults_any w.linked_any (w.live_any c)
                      rtcp) fun w' _ hw' => hdone w' hw'
              · exact hkept (-6)

theorem accept_fitsAt {w : Server} {c a : Addr} (hne : a ≠ c) (con : RtpConnection)
    (ha : w.FitsAt a) : (w.accept c con).FitsAt a :=
  (setConnection_fitsAt hne con ha).mono (fun _ h => h) fun _ h => h

/-- One event. -/
theorem step_fits {env : ServerEnv} {w : Server} (hw : w.Fits) (e : Event) :
    Ends AnyFault Server.Fits (w.step env e) := by
  cases e with
  | accept c udp =>
    rw [Server.step]
    split
    · exact hw
    · intro a
      by_cases hac : a = c
      · subst hac
        intro con hcon
        have hnew : (w.accept a (RtpConnection.new udp env.time)).connections[a]? =
            some (RtpConnection.new udp env.time) :=
          (Server.getElem?_setConnection w a _ a).trans (if_pos rfl)
        cases hnew.symm.trans hcon
        exact ⟨rfl, fun h => absurd rfl h⟩
      · exact accept_fitsAt hac _ (hw a)
  | packet c buf =>
    rw [Server.step]
    split
    · refine Ends.bind (onReadPacket_fits hw c buf) ?_
      rintro ⟨w', ret⟩ - hread
      rw [ReadFits] at hread
      dsimp only at hread ⊢
      split at hread
      · rename_i hret
        rw [if_pos hret]
        exact (destroy_fits w' c).mono fun _ _ h a => h a (hread a)
      · rename_i hret
        rw [if_neg hret]
        exact hread
    · exact hw
  | closed c =>
    rw [Server.step]
    split
    · exact (destroy_fits w c).mono fun _ _ h a => h a fun _ => hw a
    · exact hw
  | pull c id =>
    rw [Server.step]
    split
    · exact hw
    · let con : RtpConnection := { RtpConnection.new false env.time with
        streamid := id, type := .uploader, relayPull := true }
      have hcon : (w.accept c con).connections[c]? = some con :=
        (Server.getElem?_setConnection w c con c).trans (if_pos rfl)
      exact openTrans_fits con hcon uploader_ne_unknown (fun a ha => accept_fitsAt ha con (hw a)) env.relayConfig
  | putSdp id sdp =>
    exact (setSdp_table tableFaults_any w.linked_any id sdp).mono fun w' _ h => h.fits hw
  | downloadSdp req id =>
    rw [Server.step]
    refine Ends.bind (managerGetSdp_ends tableFaults_any.toMediaFaults env.sdpInfo w.rtpCache id) ?_
    intro sdp _ _
    split
    · exact hw
    · exact hw
  | requestClosed req id => exact hw
  | tcpTimer => exact destroyAll_fits hw _
  | transTimer =>
    refine Ends.bind (P := fun r => SameTable w r.1) ?_ ?_
    · refine Ends.foldlM _ (fun r c _ hr => ?_) (SameTable.refl w)
      exact (timerOf_table tableFaults_any hr (w.live_any c)).mono fun _ _ h => h.1
    · rintro ⟨w', trash⟩ - hsame
      exact destroyAll_fits (hsame.fits hw) _
  | cacheTimer => exact hw

theorem fits_new : Server.new.Fits := by
  intro c con hcon
  simp only [Server.new, TreeMap.getElem?_emptyc, reduceCtorEq] at hcon

/-- In every run the connections fit. -/
theorem run_fits (events : List (ServerEnv × Event)) :
    Ends AnyFault Server.Fits (Server.new.run events) :=
  Ends.foldlM events (fun w e _ hw => step_fits hw e.2) fits_new

/-! ## What a player can do -/

/-- The media packet a message carries, if it is one. -/
def mediaOf (udp : Bool) (buf : ReadBuffer) : Option (Rtp × Nat) :=
  match readHeader udp buf with
  | .error _ => none
  | .ok h =>
    if h.cmd = CMD_RTP_D2P_PACKET ∨ h.cmd = CMD_RTP_U2R_PACKET then
      if isFec (messageRtp h buf).1.payload then none else some (messageRtp h buf)
    else none

/-- A FEC packet of a player is fed to its trans, and that is all. -/
theorem onRecvRtp_fec_media {env : ServerEnv} {w : Server} {c : Addr} {con : RtpConnection}
    (hc : w.connections[c]? = some con) (hmode : con.mode = some .sender) {rtp : Rtp}
    (hfec : isFec rtp.payload = true) (len : Nat) :
    Ends AnyFault (SameMedia w) (w.onRecvRtp env c rtp len) := by
  rw [Server.onRecvRtp, Server.connection_eq_ok.mpr hc, ok_bind, Server.storeMedia, if_pos hfec,
    ok_bind]
  have htrans : Ends AnyFault (SameMedia w) (w.transOnHandleRtp env c con rtp len) := by
    unfold Server.transOnHandleRtp
    unfold RtpConnection.mode at hmode
    revert hmode
    cases con.trans with
    | none =>
      intro
      trivial
    | some t =>
      cases t with
      | recv t =>
        intro hmode
        cases hmode
      | send t =>
        intro
        exact sendTransOnHandleRtp_media (SameMedia.refl w) c con t rtp len
  refine Ends.bind htrans fun w' _ hw' => ?_
  rw [Server.forwardMedia, if_pos hfec]
  exact hw'

/-- A media packet of a player is forwarded to the players of the stream, of which it is one. -/
theorem onRecvRtp_media_forwarded {env : ServerEnv} {w : Server} {c : Addr} {con : RtpConnection}
    (hc : w.connections[c]? = some con) (hmode : con.mode = some .sender) {rtp : Rtp}
    (hmedia : isFec rtp.payload = false) (len : Nat) :
    Ends AnyFault (fun w' => w'.forwarded = w.forwarded ++ w.copies con.streamid rtp len)
      (w.onRecvRtp env c rtp len) := by
  rw [Server.onRecvRtp, Server.connection_eq_ok.mpr hc, ok_bind, Server.storeMedia, hmedia]
  simp only [Bool.false_eq_true, ↓reduceIte]
  refine Ends.bind (P := fun w₁ => SameTable w w₁ ∧ w₁.connections = w.connections ∧
    w₁.forwarded = w.forwarded) ?_ ?_
  · exact Ends.bind (managerSetRtp_ends tableFaults_any.toMediaFaults w.rtpCache env.time _ rtp len)
      fun cache _ _ => ⟨(SameTable.refl w).setCache cache, rfl, rfl⟩
  rintro w₁ - ⟨htable₁, hconns, hforwarded₁⟩
  have hc₁ : w₁.connections[c]? = some con := by rw [hconns, hc]
  refine Ends.bind (P := fun w₂ => SameTable w₁ w₂ ∧ SameMedia w₁ w₂) ?_ ?_
  · unfold Server.transOnHandleRtp
    unfold RtpConnection.mode at hmode
    cases htrans : con.trans with
    | none => trivial
    | some t =>
      cases t with
      | recv t =>
        rw [htrans] at hmode
        cases hmode
      | send t =>
        exact (sendTransOnHandleRtp_table tableFaults_any (SameTable.refl w₁) hc₁ htrans rtp len).and
          (sendTransOnHandleRtp_media (SameMedia.refl w₁) c con t rtp len)
  · rintro w₂ - ⟨htable₂, hmedia₂⟩
    rw [Server.forwardMedia, hmedia]
    simp only [Bool.false_eq_true, ↓reduceIte]
    refine Ends.bind (forwardRtp_forwarded w₂ con.streamid rtp len) ?_
    rintro ⟨w₃, rtp'⟩ - ⟨h, -⟩
    show w₃.forwarded = _
    rw [h.forwarded, (htable₁.trans htable₂).copies, hmedia₂.forwarded, hforwarded₁]

/-- An RTCP packet of a player is fed to its trans, and that is all. -/
theorem onRecvRtcp_player_media {env : ServerEnv} {w : Server} {c : Addr} {con : RtpConnection}
    (hc : w.connections[c]? = some con) (hplayer : con.type = .player) (rtcp : List Byte) :
    Ends AnyFault (SameMedia w) (w.onRecvRtcp env c rtcp) := by
  have hplays : con.isPlayer = true := beq_iff_eq.mpr hplayer
  rw [Server.onRecvRtcp, Server.connection_eq_ok.mpr hc, ok_bind]
  refine Ends.bind (transOnHandleRtcp_media (SameMedia.refl w) c con _) fun w' _ hw' => ?_
  rw [if_pos hplays]
  exact hw'

/-- A message of a player that is no request changes no cache and is not forwarded if and only if
it carries no media packet. -/
theorem player_packet_iff {events : List (ServerEnv × Event)} {w : Server}
    (hrun : Server.new.run events = .ok w) {c : Addr} {con : RtpConnection}
    (hc : w.connections[c]? = some con) (hplayer : con.type = .player) {buf : ReadBuffer}
    (hreq : requestOf con.udp buf = none) {env : ServerEnv} {w' : Server} {ret : Int}
    (hread : w.onReadPacket env c buf = .ok (w', ret)) :
    (w'.rtpCache = w.rtpCache ∧ w'.forwarded = w.forwarded) ↔ mediaOf con.udp buf = none := by
  obtain ⟨hmode, hmem⟩ := (run_fits events).of_ok hrun c con hc
  rw [hplayer] at hmode hmem
  have hsame : SameMedia w w' → mediaOf con.udp buf = none →
      ((w'.rtpCache = w.rtpCache ∧ w'.forwarded = w.forwarded) ↔ mediaOf con.udp buf = none) :=
    fun h hnone => iff_of_true ⟨h.rtpCache, h.forwarded⟩ hnone
  rw [Server.onReadPacket, Server.connection_eq_ok.mpr hc, ok_bind] at hread
  cases hheader : readHeader con.udp buf with
  | error r =>
    rw [hheader] at hread
    cases hread
    exact hsame (SameMedia.refl w) (by rw [mediaOf, hheader])
  | ok h =>
    rw [hheader] at hread
    dsimp only at hread
    rw [Server.onCommand, Server.connection_eq_ok.mpr hc, ok_bind] at hread
    simp only [requestOf, hheader] at hreq
    simp only [mediaOf, hheader] at hsame ⊢
    by_cases hu2r : h.cmd = CMD_RTP_U2R_REQ_STATE
    · rw [if_pos hu2r] at hread hreq
      cases hdecode : decodeU2rReqState h buf with
      | error f =>
        rw [hdecode] at hread
        cases hread
      | ok id =>
        rw [hdecode] at hread hreq
        cases id with
        | some id => cases hreq
        | none =>
          cases hread
          refine hsame ((SameMedia.refl w).setConnection c _) (if_neg ?_)
          rw [hu2r]
          decide
    rw [if_neg hu2r] at hread hreq
    by_cases hd2p : h.cmd = CMD_RTP_D2P_REQ_STATE
    · rw [if_pos hd2p] at hread hreq
      cases hdecode : decodeD2pReqState h buf with
      | error f =>
        rw [hdecode] at hread
        cases hread
      | ok id =>
        rw [hdecode] at hread hreq
        cases id with
        | some id => cases hreq
        | none =>
          cases hread
          refine hsame ((SameMedia.refl w).setConnection c _) (if_neg ?_)
          rw [hd2p]
          decide
    rw [if_neg hd2p] at hread
    by_cases hrsp : h.cmd = CMD_RTP_D2P_RSP_STATE ∨ h.cmd = CMD_RTP_U2R_RSP_STATE
    · rw [if_pos hrsp] at hread
      cases hread
      refine hsame (SameMedia.refl w) (if_neg ?_)
      rcases hrsp with hrsp | hrsp <;> rw [hrsp] <;> decide
    rw [if_neg hrsp] at hread
    have hknown : ¬ con.type = .unknown := by
      rw [hplayer]
      exact player_ne_unknown
    by_cases hrtp : h.cmd = CMD_RTP_D2P_PACKET ∨ h.cmd = CMD_RTP_U2R_PACKET
    · rw [if_pos hrtp, if_neg hknown] at hread
      simp only [if_pos hrtp] at hsame ⊢
      split at hread
      · cases hread
      obtain ⟨w₁, hrecv, hret⟩ := bind_eq_ok.mp hread
      cases hret
      by_cases hfec : isFec (messageRtp h buf).1.payload = true
      · exact hsame ((onRecvRtp_fec_media hc hmode hfec _).of_ok hrecv) (if_pos hfec)
      · have hout := (onRecvRtp_media_forwarded hc hmode (Bool.eq_false_iff.mpr hfec) _).of_ok hrecv
        refine iff_of_false ?_ ?_
        · rintro ⟨-, hforwarded⟩
          rw [hout] at hforwarded
          have hplays : con.isPlayer = true := beq_iff_eq.mpr hplayer
          exact copies_ne_nil hc hplays (hmem player_ne_unknown) _ _ (List.append_right_eq_self.mp hforwarded)
        · rw [if_neg hfec]
          exact Option.some_ne_none _
    rw [if_neg hrtp] at hread hsame ⊢
    by_cases hrtcp : h.cmd = CMD_RTCP_U2R_PACKET ∨ h.cmd = CMD_RTCP_D2P_PACKET
    · rw [if_pos hrtcp, if_neg hknown] at hread
      obtain ⟨rtcp, -, hread⟩ := bind_eq_ok.mp hread
      obtain ⟨w₁, hrecv, hret⟩ := bind_eq_ok.mp hread
      cases hret
      exact hsame ((onRecvRtcp_player_media hc hplayer rtcp).of_ok hrecv) rfl
    · rw [if_neg hrtcp] at hread
      cases hread
      exact hsame (SameMedia.refl w) rfl

/-! ### A player that uploads -/

/-- A message with an RTP packet. -/
def rtpMessage (cmd : BitVec 16) (rtp : Rtp) : ReadBuffer where
  mem := [0xff, VER_1] ++ be16 cmd ++ be32 (BitVec.ofNat 32 (packetHeadLen + rtp.len)) ++
    List.replicate 16 0 ++ rtp.bytes
  dataLen := packetHeadLen + rtp.len

/-- A video packet of one byte. -/
def videoByte (seq : Seq) (byte : Byte) : Rtp :=
  { Rtp.zero with version := 2, payload := RTP_AV_H264, seq := seq, ssrc := 3, data := [byte] }

/-- An uploader and a player of one stream have come. -/
def uploaderAndPlayerOpen : List (ServerEnv × Event) := uploaderAndPlayer.take 4

/-- The player sends a video packet. -/
def playerVideo : ReadBuffer := rtpMessage CMD_RTP_D2P_PACKET (videoByte 8 6)

/-- The server and the connection of the player before it sends the packet, and what comes of it. -/
def playerSends : Except Fault (Server × RtpConnection × Server × Int) := do
  let w ← Server.new.run uploaderAndPlayerOpen
  let con ← w.connection 2
  let r ← w.onReadPacket firstSecond 2 playerVideo
  .ok (w, con, r)

theorem playerSends_forwarded : ∃ w con w' ret,
    Server.new.run uploaderAndPlayerOpen = .ok w ∧ w.connections[(2 : Addr)]? = some con ∧
      w.onReadPacket firstSecond 2 playerVideo = .ok (w', ret) ∧ con.type = .player ∧
      requestOf con.udp playerVideo = none ∧ w'.forwarded ≠ w.forwarded := by
  have hcheck : playerSends.toOption.any (fun (w, con, w', _) => con.type == .player &&
      (requestOf con.udp playerVideo).isNone && decide (w'.forwarded ≠ w.forwarded)) = true := by
    decide +kernel
  cases hsends : playerSends with
  | error f =>
    rw [hsends] at hcheck
    cases hcheck
  | ok r =>
    obtain ⟨w, con, w', ret⟩ := r
    rw [hsends] at hcheck
    simp only [Except.toOption, Option.any_some, Bool.and_eq_true, beq_iff_eq,
      Option.isNone_iff_eq_none, decide_eq_true_eq] at hcheck
    obtain ⟨w₁, hrun, hsends⟩ := bind_eq_ok.mp hsends
    obtain ⟨con₁, hcon, hsends⟩ := bind_eq_ok.mp hsends
    obtain ⟨r, hread, hsends⟩ := bind_eq_ok.mp hsends
    cases hsends
    exact ⟨w, con, w', ret, hrun, Server.connection_eq_ok.mp hcon, hread, hcheck.1.1, hcheck.1.2,
      hcheck.2⟩

theorem player_packet_iff_video : ∃ w con w' ret,
    Server.new.run uploaderAndPlayerOpen = .ok w ∧ w.connections[(2 : Addr)]? = some con ∧
      w.onReadPacket firstSecond 2 playerVideo = .ok (w', ret) ∧
      ((w'.rtpCache = w.rtpCache ∧ w'.forwarded = w.forwarded) ↔
        mediaOf con.udp playerVideo = none) := by
  obtain ⟨w, con, w', ret, hrun, hc, hread, hplayer, hreq, -⟩ := playerSends_forwarded
  exact ⟨w, con, w', ret, hrun, hc, hread, player_packet_iff hrun hc hplayer hreq hread⟩

/-- The player's packet is forwarded. -/
theorem player_video_forwarded : ¬ ∀ events w, Server.new.run events = .ok w →
    ∀ (c : Addr) con, w.connections[c]? = some con → con.type = .player →
    ∀ buf, requestOf con.udp buf = none →
    ∀ env w' ret, w.onReadPacket env c buf = .ok (w', ret) →
      w'.rtpCache = w.rtpCache ∧ w'.forwarded = w.forwarded := by
  intro h
  obtain ⟨w, con, w', ret, hrun, hc, hread, hplayer, hreq, hforwarded⟩ := playerSends_forwarded
  exact hforwarded (h _ w hrun 2 con hc hplayer _ hreq _ w' ret hread).2

end RtcMcu.ConnectionManager
