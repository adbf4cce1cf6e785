import RtcMcu.ConnectionManager.SameTable

/-!
# What ForwardRtp sends

A packet that is forwarded goes once to each player of the stream's group, in the order of the
group, with the player's own ssrc (`forwardRtp_forwarded`). Nothing else forwards: the FEC packets a
player's session sends, retransmissions and sender reports are other outputs (`SameMedia`).
-/

namespace RtcMcu.ConnectionManager

open RtcMcu.Avformat RtcMcu.MediaManager RtcMcu.RtpTrans RtcMcu.Coupling Std

/-! ## Forwarded packets -/

/-- A packet that `ForwardRtp` sent. -/
def Output.isForward : Output → Bool
  | .rtp .forward _ _ _ => true
  | _ => false

/-- What was forwarded, in order. -/
def Server.forwarded (w : Server) : List Output := w.outputs.filter Output.isForward

/-- A packet that `ForwardRtp` sent, or one that a receiver session recovered. -/
def Output.isRelay : Output → Bool
  | .recovered _ _ _ _ => true
  | o => o.isForward

/-- What was recovered and what was forwarded, in order. -/
def Server.relayed (w : Server) : List Output := w.outputs.filter Output.isRelay

theorem isRelay_of_isForward {o : Output} (h : o.isForward = true) : o.isRelay = true := by
  cases o with
  | recovered => rfl
  | _ => exact h

theorem Server.forwarded_eq (w : Server) : w.forwarded = w.relayed.filter Output.isForward := by
  rw [Server.forwarded, Server.relayed, List.filter_filter]
  refine List.filter_congr fun o _ => ?_
  cases hforward : o.isForward with
  | false => rfl
  | true => rw [isRelay_of_isForward hforward]; rfl

/-- A packet as a player gets it, with the player's ssrc for its payload type. -/
def RtpConnection.outgoing (con : RtpConnection) (rtp : Rtp) : Rtp :=
  rtp.setSsrc (if rtp.payload = RTP_AV_H264 then con.videoSsrc else con.audioSsrc)

/-- What a member of the group is forwarded. -/
def Server.copyFor (w : Server) (rtp : Rtp) (len : Nat) (c : Addr) : List Output :=
  match w.connections[c]? with
  | none => []
  | some con => if con.isPlayer then [.rtp .forward c (con.outgoing rtp) len] else []

/-- What the group of a stream is forwarded. -/
def Server.copies (w : Server) (id : StreamId) (rtp : Rtp) (len : Nat) : List Output :=
  (w.members id).flatMap (w.copyFor rtp len)

/-- The players of a group are those of its table. -/
theorem SameTable.copyFor {w w' : Server} (h : SameTable w w') (rtp : Rtp) (len : Nat) (c : Addr) :
    w'.copyFor rtp len c = w.copyFor rtp len c := by
  have hentry := h.entries c
  unfold Server.copyFor
  cases hcon : w.connections[c]? with
  | none =>
    rw [hcon, Option.map_none, Option.map_eq_none_iff] at hentry
    rw [hentry]
  | some con =>
    obtain ⟨con', hcon', heq⟩ := h.connection hcon
    simp only [RtpConnection.entry, Prod.mk.injEq, RtpConnection.mk.injEq] at heq
    obtain ⟨⟨-, -, htype, -, -, haudio, hvideo, -⟩, -⟩ := heq
    rw [hcon']
    simp only [RtpConnection.isPlayer, RtpConnection.outgoing, htype, haudio, hvideo]
    rfl

theorem SameTable.copies {w w' : Server} (h : SameTable w w') (id : StreamId) (rtp : Rtp)
    (len : Nat) : w'.copies id rtp len = w.copies id rtp len := by
  have hcopy : w'.copyFor rtp len = w.copyFor rtp len := funext (h.copyFor rtp len)
  rw [Server.copies, Server.copies, Server.members, h.group, hcopy]
  rfl

/-- Copies are forwarded packets. -/
theorem copies_isForward (w : Server) (id : StreamId) (rtp : Rtp) (len : Nat) :
    (w.copies id rtp len).filter Output.isForward = w.copies id rtp len := by
  refine List.filter_eq_self.mpr fun o ho => ?_
  obtain ⟨c, -, hc⟩ := List.mem_flatMap.mp ho
  unfold Server.copyFor at hc
  cases hcon : w.connections[c]? with
  | none =>
    rw [hcon] at hc
    cases hc
  | some con =>
    rw [hcon] at hc
    dsimp only at hc
    split at hc
    · cases List.mem_singleton.mp hc
      rfl
    · cases hc

/-- The ssrc a packet has when it is forwarded does not matter. -/
theorem outgoing_congr {rtp rtp' : Rtp} (h : rtp.setSsrc 0 = rtp'.setSsrc 0) (con : RtpConnection) :
    con.outgoing rtp = con.outgoing rtp' := by
  have hpayload : (rtp.setSsrc 0).payload = (rtp'.setSsrc 0).payload := by rw [h]
  have hset : ∀ ssrc, (rtp.setSsrc 0).setSsrc ssrc = (rtp'.setSsrc 0).setSsrc ssrc := by
    intro ssrc
    rw [h]
  unfold RtpConnection.outgoing
  rw [show rtp.payload = rtp'.payload from hpayload]
  exact hset _

/-- A group with a player in it is forwarded something. -/
theorem copies_ne_nil {w : Server} {c : Addr} {con : RtpConnection}
    (hc : w.connections[c]? = some con) (hplayer : con.isPlayer) {id : StreamId}
    (hmem : c ∈ w.members id) (rtp : Rtp) (len : Nat) : w.copies id rtp len ≠ [] := by
  intro hnil
  have hcopy := List.flatMap_eq_nil_iff.mp hnil c hmem
  rw [Server.copyFor, hc] at hcopy
  dsimp only at hcopy
  rw [if_pos hplayer] at hcopy
  cases hcopy

/-! ## What neither stores nor forwards -/

/-- The caches are the same, and nothing more was recovered or forwarded. -/
structure SameMedia (w w' : Server) : Prop where
  rtpCache : w'.rtpCache = w.rtpCache
  relayed : w'.relayed = w.relayed

theorem SameMedia.refl (w : Server) : SameMedia w w := ⟨rfl, rfl⟩

theorem SameMedia.forwarded {w w' : Server} (h : SameMedia w w') : w'.forwarded = w.forwarded := by
  rw [w'.forwarded_eq, h.relayed, ← w.forwarded_eq]

section SameMedia

variable {w₀ : Server}

theorem SameMedia.setConnection {w : Server} (h : SameMedia w₀ w) (c : Addr) (con : RtpConnection) :
    SameMedia w₀ (w.setConnection c con) := ⟨h.rtpCache, h.relayed⟩

theorem SameMedia.emit {w : Server} (h : SameMedia w₀ w) {out : List Output}
    (hout : out.filter Output.isRelay = []) : SameMedia w₀ (w.emit out) where
  rtpCache := h.rtpCache
  relayed := by
    rw [Server.relayed, Server.emit_outputs, List.filter_append, hout, List.append_nil]
    exact h.relayed

theorem sendRtp_media {w : Server} (h : SameMedia w₀ w) {purpose : Purpose}
    (hpurpose : purpose ≠ .forward) (c : Addr) (rtp : Rtp) (len : Nat) (ssrc : BitVec 32) :
    Ends AnyFault (SameMedia w₀) (w.sendRtp purpose c rtp len ssrc) := by
  unfold Server.sendRtp
  split
  · trivial
  · refine h.emit ?_
    cases purpose with
    | forward => exact absurd rfl hpurpose
    | fec => rfl
    | retransmit => rfl

theorem sendFecs_media {w : Server} (h : SameMedia w₀ w) (c : Addr) (sent : List Sent) :
    Ends AnyFault (SameMedia w₀) (w.sendFecs c sent) :=
  Ends.foldlM sent (fun _ s _ hw => sendRtp_media hw (by decide) c s.1 s.2 0) h

theorem sendTransOnHandleRtp_media {env : ServerEnv} {w : Server} (h : SameMedia w₀ w) (c : Addr)
    (con : RtpConnection) (t : RTPSendTrans) (rtp : Rtp) (len : Nat) :
    Ends AnyFault (SameMedia w₀) (w.sendTransOnHandleRtp env c con t rtp len) := by
  have hget := managerGetRtpBySeq_ends tableFaults_any.toMediaFaults w.rtpCache con.streamid
  refine Ends.bind (RTPSendTrans.onHandleRtp_ends hget tableFaults_any.toMediaFaults env.now t rtp
    len) ?_
  rintro ⟨t', sent⟩ - -
  exact sendFecs_media (h.setConnection c _) c sent

/-- RTCP packets make a player's trans send packets again, and forward nothing. -/
theorem transOnHandleRtcp_media {env : ServerEnv} {w : Server} (h : SameMedia w₀ w) (c : Addr)
    (con : RtpConnection) (info : RTCPPacketInformation) :
    Ends AnyFault (SameMedia w₀) (w.transOnHandleRtcp env c con info) := by
  unfold Server.transOnHandleRtcp
  cases con.trans with
  | none => trivial
  | some t =>
    cases t with
    | recv t => exact h.setConnection c _
    | send t =>
      have hget := managerGetRtpBySeq_ends tableFaults_any.toMediaFaults w.rtpCache con.streamid
      refine Ends.bind (RTPSendTrans.onHandleRtcp_ends hget env.rttMs t info env.now) ?_
      rintro ⟨t', again⟩ - -
      refine Ends.foldlM again (fun w' e _ hw' => ?_) (h.setConnection c _)
      obtain ⟨video, seq⟩ := e
      dsimp only
      unfold Server.sendNackRtp
      split
      · have hget' := managerGetRtpBySeq_ends tableFaults_any.toMediaFaults w'.rtpCache con.streamid
        refine Ends.bind (hget' video seq) fun found _ _ => ?_
        obtain ⟨rtp, len⟩ := found
        cases rtp with
        | none => trivial
        | some rtp => exact sendRtp_media hw' (by decide) c rtp len _
      · exact hw'

end SameMedia

/-! ## ForwardRtp -/

/-- What a call of `ForwardRtp` has done to the state it began in: the copies were sent, the table
and the caches are the same. -/
structure Forwarded (w : Server) (out : List Output) (w' : Server) : Prop where
  table : SameTable w w'
  rtpCache : w'.rtpCache = w.rtpCache
  relayed : w'.relayed = w.relayed ++ out

theorem Forwarded.refl (w : Server) : Forwarded w [] w :=
  ⟨SameTable.refl w, rfl, (List.append_nil _).symm⟩

theorem Forwarded.trans {w₁ w₂ w₃ : Server} {out out' : List Output} (h : Forwarded w₁ out w₂)
    (h' : Forwarded w₂ out' w₃) : Forwarded w₁ (out ++ out') w₃ where
  table := h.table.trans h'.table
  rtpCache := h'.rtpCache.trans h.rtpCache
  relayed := by rw [h'.relayed, h.relayed, List.append_assoc]

theorem Forwarded.forwarded {w w' : Server} {id : StreamId} {rtp : Rtp} {len : Nat}
    (h : Forwarded w (w.copies id rtp len) w') :
    w'.forwarded = w.forwarded ++ w.copies id rtp len := by
  rw [w'.forwarded_eq, h.relayed, List.filter_append, copies_isForward, ← w.forwarded_eq]

/-- One member of the group. -/
theorem forwardTo_forwarded {env : ServerEnv} (w : Server) (rtp : Rtp) (len : Nat) (c : Addr) :
    Ends AnyFault (fun r => Forwarded w (w.copyFor rtp len c) r.1 ∧ r.2.setSsrc 0 = rtp.setSsrc 0)
      (w.forwardTo env rtp len c) := by
  have hmedia : Ends AnyFault (fun r => (r.1.rtpCache = w.rtpCache ∧
      r.1.relayed = w.relayed ++ w.copyFor rtp len c) ∧ r.2.setSsrc 0 = rtp.setSsrc 0)
      (w.forwardTo env rtp len c) := by
    unfold Server.forwardTo Server.copyFor
    cases hcon : w.connections[c]? with
    | none =>
      rw [Server.connection, hcon]
      trivial
    | some con =>
      rw [Server.connection_eq_ok.mpr hcon, ok_bind]
      dsimp only
      by_cases hplayer : con.isPlayer = true
      · rw [if_pos hplayer, if_pos hplayer]
        refine Ends.bind (P := fun w' => w'.rtpCache = w.rtpCache ∧
          w'.relayed = w.relayed ++ [.rtp .forward c (con.outgoing rtp) len]) ?_ ?_
        · unfold Server.sendRtp
          split
          · trivial
          · refine ⟨rfl, ?_⟩
            rw [Server.relayed, Server.emit_outputs, List.filter_append]
            rfl
        rintro w' - ⟨hcache, hrelayed⟩
        cases con.trans with
        | none => trivial
        | some t =>
          cases t with
          | recv t => trivial
          | send t =>
            refine Ends.bind (sendTransOnHandleRtp_media (SameMedia.refl w') c con t _ len) ?_
            intro w'' _ hw''
            exact ⟨⟨hw''.rtpCache.trans hcache, hw''.relayed.trans hrelayed⟩, rfl⟩
      · rw [if_neg hplayer, if_neg hplayer]
        exact ⟨⟨rfl, (List.append_nil _).symm⟩, rfl⟩
  refine ((forwardTo_table tableFaults_any (SameTable.refl w) rtp len (w.live_any c)).and
    hmedia).mono ?_
  rintro r - ⟨htable, ⟨hcache, hrelayed⟩, hssrc⟩
  exact ⟨⟨htable, hcache, hrelayed⟩, hssrc⟩

/-- `ForwardRtp` sends the packet to each player of the group once. -/
theorem forwardRtp_forwarded {env : ServerEnv} (w : Server) (id : StreamId) (rtp : Rtp)
    (len : Nat) :
    Ends AnyFault
      (fun r => Forwarded w (w.copies id rtp len) r.1 ∧ r.2.setSsrc 0 = rtp.setSsrc 0)
      (w.forwardRtp env id rtp len) := by
  unfold Server.forwardRtp Server.copies
  generalize w.members id = cs
  induction cs generalizing w rtp with
  | nil => exact ⟨Forwarded.refl w, rfl⟩
  | cons c cs ih =>
    rw [List.foldlM_cons, List.flatMap_cons]
    refine Ends.bind (forwardTo_forwarded w rtp len c) ?_
    rintro ⟨w', rtp'⟩ - ⟨hone, hssrc⟩
    refine (ih w' rtp').mono ?_
    rintro r - ⟨hrest, hssrc'⟩
    have hcopies : w'.copyFor rtp' len = w.copyFor rtp len := by
      funext a
      rw [hone.table.copyFor]
      unfold Server.copyFor
      cases w.connections[a]? with
      | none => rfl
      | some con => simp only [outgoing_congr hssrc con]
    rw [hcopies] at hrest
    exact ⟨hone.trans hrest, hssrc'.trans hssrc⟩

end RtcMcu.ConnectionManager
