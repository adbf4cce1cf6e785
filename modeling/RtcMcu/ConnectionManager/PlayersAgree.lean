import RtcMcu.ConnectionManager.RecoveredPackets

/-!
# Players of a stream get the same packets

`ForwardRtp` walks over the group of a stream for each packet, and a player's session may send other
packets in between. Two players that are in the same groups while a run lasts are forwarded the same
packets in the same order, up to their own ssrcs, and every media packet that comes for a group they
are in is among them (`players_agree`).
-/

namespace RtcMcu.ConnectionManager

open RtcMcu.Avformat RtcMcu.MediaManager RtcMcu.RtpTrans RtcMcu.Coupling Std

/-! ## What a connection is forwarded -/

/-- A packet without the ssrc it is sent with. -/
def unsigned (r : Sent) : Sent := (r.1.setSsrc 0, r.2)

/-- The packet, if it was forwarded to `c`. -/
def Output.receivedBy (c : Addr) : Output → Option Sent
  | .rtp .forward dest pkt len => if dest = c then some (unsigned (pkt, len)) else none
  | _ => none

/-- What was forwarded to `c`, in order. -/
def Server.received (w : Server) (c : Addr) : List Sent := w.relayed.filterMap (Output.receivedBy c)

/-- `c` is a player. -/
def Server.plays (w : Server) (c : Addr) : Bool := (w.connections[c]?).any (·.isPlayer)

/-- What is forwarded to the group of a stream comes to `c`. -/
def Server.hears (w : Server) (c : Addr) (id : StreamId) : Bool :=
  (w.members id).contains c && w.plays c

/-- A packet forwarded to a stream, as it comes to `c`. -/
def Server.share (w : Server) (c : Addr) (id : StreamId) (rtp : Rtp) (len : Nat) : List Sent :=
  if w.hears c id then [unsigned (rtp, len)] else []

theorem members_nodup (w : Server) (id : StreamId) : (w.members id).Nodup := by
  rw [Server.members, Server.group]
  cases w.streamGroups[get32bitStreamId id]? with
  | none => exact List.nodup_nil
  | some group =>
    exact TreeSet.distinct_toList.imp fun h heq => h (Nat.compare_eq_eq.mpr heq)

/-- The copy of a member comes to that member. -/
theorem copyFor_received (w : Server) (rtp : Rtp) (len : Nat) (a c : Addr) :
    (w.copyFor rtp len a).filterMap (Output.receivedBy c) =
      if a = c ∧ w.plays c then [unsigned (rtp, len)] else [] := by
  rw [Server.copyFor, Server.plays]
  by_cases hac : a = c
  · subst hac
    cases w.connections[a]? with
    | none => simp
    | some con =>
      rw [Option.any_some]
      by_cases hplayer : con.isPlayer = true
      · simp [hplayer, Output.receivedBy, unsigned, RtpConnection.outgoing, Rtp.setSsrc]
      · simp [hplayer]
  · rw [if_neg fun h => hac h.1]
    cases w.connections[a]? with
    | none => rfl
    | some con =>
      dsimp only
      split
      · simp [Output.receivedBy, hac]
      · rfl

/-- Of the copies for a group one comes to `c`, if it is a player of it. -/
theorem copies_received (w : Server) (c : Addr) (id : StreamId) (rtp : Rtp) (len : Nat) :
    (w.copies id rtp len).filterMap (Output.receivedBy c) = w.share c id rtp len := by
  have hnodup := members_nodup w id
  rw [Server.copies, Server.share, Server.hears]
  revert hnodup
  generalize w.members id = members
  intro hnodup
  induction members with
  | nil => rfl
  | cons a cs ih =>
    obtain ⟨hnotin, hnodup⟩ := List.nodup_cons.mp hnodup
    rw [List.flatMap_cons, List.filterMap_append, copyFor_received, ih hnodup, List.contains_cons]
    by_cases hac : a = c
    · subst hac
      simp [hnotin]
    · have hne : (c == a) = false := beq_eq_false_iff_ne.mpr (Ne.symm hac)
      simp [hac, hne]

/-- Forwarding a packet to a stream. -/
theorem Forwarded.received {w w' : Server} {id : StreamId} {rtp : Rtp} {len : Nat}
    (h : Forwarded w (w.copies id rtp len) w') (c : Addr) :
    w'.received c = w.received c ++ w.share c id rtp len := by
  rw [Server.received, h.relayed, List.filterMap_append, copies_received]
  rfl

/-! ## Two players -/

/-- Two connections are in the same groups, and both are players or none is. -/
structure Server.Together (w : Server) (c₁ c₂ : Addr) : Prop where
  group : ∀ key, c₁ ∈ w.group key ↔ c₂ ∈ w.group key
  plays : w.plays c₁ = w.plays c₂

theorem Server.Together.share {w : Server} {c₁ c₂ : Addr} (h : w.Together c₁ c₂) (id : StreamId)
    (rtp : Rtp) (len : Nat) : w.share c₁ id rtp len = w.share c₂ id rtp len := by
  have hmem : (w.members id).contains c₁ = (w.members id).contains c₂ := by
    rw [Bool.eq_iff_iff, List.contains_iff_mem, List.contains_iff_mem]
    exact h.group _
  rw [Server.share, Server.share, Server.hears, Server.hears, hmem, h.plays]

theorem SameTable.plays {w w' : Server} (h : SameTable w w') (c : Addr) : w'.plays c = w.plays c := by
  rw [Server.plays, Server.plays]
  cases hcon : w.connections[c]? with
  | none =>
    have hentry := h.entries c
    rw [hcon, Option.map_none, Option.map_eq_none_iff] at hentry
    rw [hentry]
  | some con =>
    obtain ⟨con', hcon', heq⟩ := h.connection hcon
    rw [hcon', Option.any_some, Option.any_some, RtpConnection.isPlayer, RtpConnection.isPlayer,
      (RtpConnection.entry_eq heq).1]

theorem SameTable.together {w w' : Server} (h : SameTable w w') {c₁ c₂ : Addr}
    (ht : w.Together c₁ c₂) : w'.Together c₁ c₂ where
  group key := by
    rw [h.group]
    exact ht.group key
  plays := by rw [h.plays, h.plays, ht.plays]

theorem SameTable.share {w w' : Server} (h : SameTable w w') (c : Addr) (id : StreamId) (rtp : Rtp)
    (len : Nat) : w'.share c id rtp len = w.share c id rtp len := by
  rw [Server.share, Server.share, Server.hears, Server.hears, h.plays, Server.members, h.group]
  rfl

/-- `Together` is a matter of the groups there are. -/
theorem Server.together_iff {w : Server} {c₁ c₂ : Addr} : w.Together c₁ c₂ ↔
    (∀ e ∈ w.streamGroups.toList, e.2.contains c₁ = e.2.contains c₂) ∧ w.plays c₁ = w.plays c₂ := by
  constructor
  · rintro ⟨hgroup, hplays⟩
    refine ⟨?_, hplays⟩
    rintro ⟨key, group⟩ he
    have hkey := TreeMap.mem_toList_iff_getElem?_eq_some.mp he
    have hmem : ∀ c, c ∈ w.group key ↔ c ∈ group := by
      intro c
      rw [Server.group, hkey]
      exact TreeSet.mem_toList
    rw [Bool.eq_iff_iff, ← TreeSet.mem_iff_contains, ← TreeSet.mem_iff_contains, ← hmem, ← hmem]
    exact hgroup key
  · rintro ⟨hgroup, hplays⟩
    refine ⟨fun key => ?_, hplays⟩
    rw [Server.mem_group, Server.mem_group]
    refine exists_congr fun group => and_congr_right fun hkey => ?_
    rw [TreeSet.mem_iff_contains, TreeSet.mem_iff_contains,
      hgroup (key, group) (TreeMap.mem_toList_iff_getElem?_eq_some.mpr hkey)]

instance (w : Server) (c₁ c₂ : Addr) : Decidable (w.Together c₁ c₂) :=
  decidable_of_iff _ Server.together_iff.symm

/-- The two were forwarded the same packets since `w`, `brought` among them. -/
def InStep (c₁ c₂ : Addr) (w : Server) (brought : List Sent) (w' : Server) : Prop :=
  ∃ recs, w'.received c₁ = w.received c₁ ++ recs ∧ w'.received c₂ = w.received c₂ ++ recs ∧
    brought.Sublist recs

section InStep

variable {c₁ c₂ : Addr} {w w₁ w₂ : Server} {brought brought' : List Sent}

theorem InStep.of_same (h : w₁.relayed = w.relayed) : InStep c₁ c₂ w [] w₁ :=
  ⟨[], by rw [Server.received, h, List.append_nil]; rfl,
    by rw [Server.received, h, List.append_nil]; rfl, List.nil_sublist _⟩

theorem InStep.trans (h : InStep c₁ c₂ w brought w₁) (h' : InStep c₁ c₂ w₁ brought' w₂) :
    InStep c₁ c₂ w (brought ++ brought') w₂ := by
  obtain ⟨recs, h₁, h₂, hin⟩ := h
  obtain ⟨recs', h₁', h₂', hin'⟩ := h'
  refine ⟨recs ++ recs', ?_, ?_, hin.append hin'⟩
  · rw [h₁', h₁, List.append_assoc]
  · rw [h₂', h₂, List.append_assoc]

theorem InStep.congr (h : InStep c₁ c₂ w brought w₁) (hsame : w₂.relayed = w₁.relayed) :
    InStep c₁ c₂ w brought w₂ := by
  have h' := h.trans (InStep.of_same hsame)
  rwa [List.append_nil] at h'

/-- A packet is forwarded to a stream. -/
theorem Forwarded.inStep {id : StreamId} {rtp : Rtp} {len : Nat}
    (h : Forwarded w (w.copies id rtp len) w₁) (ht : w.Together c₁ c₂) :
    InStep c₁ c₂ w (w.share c₁ id rtp len) w₁ := by
  refine ⟨w.share c₁ id rtp len, h.received c₁, ?_, List.Sublist.refl _⟩
  rw [h.received c₂, ht.share]

end InStep

/-! ## OnRecvRtp -/

section Received

variable {env : ServerEnv} {c₁ c₂ : Addr} {w : Server}

/-- What a receiver session reaches while it handles a packet, for two players. -/
theorem host_inStep (env : ServerEnv) (c : Addr) (id : StreamId) (ht : w.Together c₁ c₂) :
    (Server.host env c id).Keeps AnyFault
      (fun w' => SameTable w w' ∧ InStep c₁ c₂ w [] w') where
  get w' _ := managerGetRtpBySeq_ends tableFaults_any.toMediaFaults w'.rtpCache id
  setRtp w' rtp len h :=
    Ends.bind (managerSetRtp_ends tableFaults_any.toMediaFaults w'.rtpCache env.time id rtp len)
      fun cache _ _ => ⟨h.1.setCache cache, h.2.congr rfl⟩
  forwardRtp w' rtp len h := by
    refine (forwardRtp_forwarded w' id rtp len).mono ?_
    rintro r - ⟨hforwarded, -⟩
    obtain ⟨recs, h₁, h₂, -⟩ := h.2.trans (hforwarded.inStep (h.1.together ht))
    exact ⟨h.1.trans hforwarded.table, recs, h₁, h₂, List.nil_sublist _⟩
  recovered w' s len h := by
    refine ⟨h.1.emit _, ?_⟩
    obtain ⟨recs, h₁, h₂, hin⟩ := h.2
    have hnote : ∀ c', ((Server.host env c id).recovered w' s len).received c' = w'.received c' := by
      intro c'
      rw [Server.received, Server.relayed, Server.host, Server.emit_outputs, List.filter_append,
        List.filterMap_append]
      show _ ++ [] = _
      rw [List.append_nil]
      rfl
    exact ⟨recs, by rw [hnote, h₁], by rw [hnote, h₂], hin⟩

theorem transOnHandleRtp_inStep {c : Addr} {con : RtpConnection}
    (hc : w.connections[c]? = some con) (ht : w.Together c₁ c₂) (rtp : Rtp) (len : Nat) :
    Ends AnyFault (fun w' => SameTable w w' ∧ InStep c₁ c₂ w [] w')
      (w.transOnHandleRtp env c con rtp len) := by
  refine (transOnHandleRtp_table tableFaults_any (SameTable.refl w) hc w.linked_any rtp len).and ?_
  unfold Server.transOnHandleRtp
  cases con.trans with
  | none => trivial
  | some t =>
    cases t with
    | send t =>
      exact (sendTransOnHandleRtp_media (SameMedia.refl w) c con t rtp len).mono
        fun _ _ h => InStep.of_same h.relayed
    | recv t =>
      refine Ends.bind (RTPRecvTrans.onHandleRtp_ends tableFaults_any.toSessionFaults
        (host_inStep env c con.streamid ht) env.fuel env.now
        ⟨SameTable.refl w, InStep.of_same rfl⟩ t rtp len) ?_
      intro r _ hr
      exact hr.2.congr rfl

/-- `OnRecvRtp`: the packet that came is the last one to be forwarded. -/
theorem onRecvRtp_inStep {c : Addr} {con : RtpConnection} (hc : w.connections[c]? = some con)
    (ht : w.Together c₁ c₂) (rtp : Rtp) (len : Nat) :
    Ends AnyFault
      (InStep c₁ c₂ w (if isFec rtp.payload then [] else w.share c₁ con.streamid rtp len))
      (w.onRecvRtp env c rtp len) := by
  rw [Server.onRecvRtp, Server.connection_eq_ok.mpr hc, ok_bind]
  refine Ends.bind (P := fun w₁ => SameTable w w₁ ∧ InStep c₁ c₂ w [] w₁ ∧
    w₁.connections = w.connections) ?_ ?_
  · unfold Server.storeMedia
    split
    · exact ⟨SameTable.refl w, InStep.of_same rfl, rfl⟩
    · exact Ends.bind
        (managerSetRtp_ends tableFaults_any.toMediaFaults w.rtpCache env.time _ rtp len)
        fun cache _ _ => ⟨(SameTable.refl w).setCache cache, InStep.of_same rfl, rfl⟩
  rintro w₁ - ⟨htable₁, hstored, hconns⟩
  have hc₁ : w₁.connections[c]? = some con := by rw [hconns, hc]
  refine Ends.bind (transOnHandleRtp_inStep hc₁ (htable₁.together ht) rtp len) ?_
  rintro w₂ - ⟨htable₂, hhandled⟩
  have htable := htable₁.trans htable₂
  unfold Server.forwardMedia
  split
  · exact hstored.trans hhandled
  · refine Ends.bind (forwardRtp_forwarded w₂ con.streamid rtp len) ?_
    rintro r - ⟨hforwarded, -⟩
    have hall := (hstored.trans hhandled).trans (hforwarded.inStep (htable.together ht))
    rw [htable.share] at hall
    exact hall

end Received

/-! ## Steps -/

section Steps

variable {env : ServerEnv} {w : Server} {P : Server → Prop}

/-- A message hands a packet to `OnRecvRtp`, or nothing is relayed. -/
theorem onReadPacket_relayed {c : Addr} {con : RtpConnection} (hc : w.connections[c]? = some con)
    {buf : ReadBuffer} (hsame : con.brings buf = [] → ∀ w', w'.relayed = w.relayed → P w')
    (hrecv : ∀ rtp len, con.brings buf = (if isFec rtp.payload then [] else [(rtp, len)]) →
      Ends AnyFault P (w.onRecvRtp env c rtp len)) :
    Ends AnyFault (fun r => P r.1) (w.onReadPacket env c buf) := by
  rw [Server.onReadPacket, Server.connection_eq_ok.mpr hc, ok_bind]
  cases hheader : readHeader con.udp buf with
  | error ret =>
    refine hsame ?_ w rfl
    rw [RtpConnection.brings, mediaOf, hheader]
    split <;> rfl
  | ok h =>
    have hnone : ¬ (h.cmd = CMD_RTP_D2P_PACKET ∨ h.cmd = CMD_RTP_U2R_PACKET) →
        ∀ w', w'.relayed = w.relayed → P w' := by
      refine fun hcmd => hsame ?_
      simp only [RtpConnection.brings, mediaOf, hheader, if_neg hcmd]
      split <;> rfl
    dsimp only
    rw [Server.onCommand, Server.connection_eq_ok.mpr hc, ok_bind]
    by_cases hu2r : h.cmd = CMD_RTP_U2R_REQ_STATE
    · rw [if_pos hu2r]
      have hcmd := hnone (by rw [hu2r]; decide)
      refine Ends.bind (ends_any _) fun id _ _ => ?_
      exact (onReqState_relayed rfl c _ id _).mono fun r _ hr => hcmd r.1 hr
    rw [if_neg hu2r]
    by_cases hd2p : h.cmd = CMD_RTP_D2P_REQ_STATE
    · rw [if_pos hd2p]
      have hcmd := hnone (by rw [hd2p]; decide)
      refine Ends.bind (ends_any _) fun id _ _ => ?_
      exact (onReqState_relayed rfl c _ id _).mono fun r _ hr => hcmd r.1 hr
    rw [if_neg hd2p]
    by_cases hrsp : h.cmd = CMD_RTP_D2P_RSP_STATE ∨ h.cmd = CMD_RTP_U2R_RSP_STATE
    · rw [if_pos hrsp]
      exact hnone (by rcases hrsp with hrsp | hrsp <;> rw [hrsp] <;> decide) w rfl
    rw [if_neg hrsp]
    by_cases hrtp : h.cmd = CMD_RTP_D2P_PACKET ∨ h.cmd = CMD_RTP_U2R_PACKET
    · rw [if_pos hrtp]
      by_cases hunknown : con.type = .unknown
      · rw [if_pos hunknown]
        exact hsame (if_pos hunknown) w rfl
      · rw [if_neg hunknown]
        split
        · trivial
        · refine Ends.bind (hrecv (messageRtp h buf).1 (messageRtp h buf).2 ?_) fun w' _ hw' => hw'
          simp only [RtpConnection.brings, if_neg hunknown, mediaOf, hheader, if_pos hrtp]
          split <;> rfl
    rw [if_neg hrtp]
    split
    · split
      · exact hnone hrtp w rfl
      · refine Ends.bind (ends_any _) fun rtcp _ _ => ?_
        exact Ends.bind (onRecvRtcp_relayed w c rtcp) fun w' _ hw' => hnone hrtp w' hw'
    · exact hnone hrtp w rfl

/-- An event is a message that hands a packet to `OnRecvRtp`, or nothing is relayed. -/
theorem step_relayed {e : Event}
    (hsame : (∀ c buf con, e = .packet c buf → w.connections[c]? = some con →
      con.brings buf = []) → ∀ w', w'.relayed = w.relayed → P w')
    (hrecv : ∀ c buf con rtp len, e = .packet c buf → w.connections[c]? = some con →
      con.brings buf = (if isFec rtp.payload then [] else [(rtp, len)]) →
      Ends AnyFault (fun w₁ => ∀ w', w'.relayed = w₁.relayed → P w')
        (w.onRecvRtp env c rtp len)) :
    Ends AnyFault P (w.step env e) := by
  have hother : (∀ c buf, e ≠ .packet c buf) → ∀ w', w'.relayed = w.relayed → P w' :=
    fun hne => hsame fun c buf _ he _ => absurd he (hne c buf)
  cases e with
  | packet c buf =>
    rw [Server.step]
    cases hc : w.connections[c]? with
    | none =>
      rw [if_neg (by rw [TreeMap.contains_eq_isSome_getElem?, hc]; exact Bool.false_ne_true)]
      refine hsame ?_ w rfl
      rintro c' buf' con he hcon
      cases he
      cases hc.symm.trans hcon
    | some con =>
      rw [if_pos (by rw [TreeMap.contains_eq_isSome_getElem?, hc]; rfl)]
      have hread : Ends AnyFault (fun r => ∀ w', w'.relayed = r.1.relayed → P w')
          (w.onReadPacket env c buf) := by
        refine onReadPacket_relayed hc (P := fun w₁ => ∀ w', w'.relayed = w₁.relayed → P w') ?_
          fun rtp len hbrings => hrecv c buf con rtp len rfl hc hbrings
        intro hnone w₁ hw₁ w' hw'
        refine hsame ?_ w' (hw'.trans hw₁)
        rintro c' buf' con' he hcon'
        cases he
        cases hc.symm.trans hcon'
        exact hnone
      refine Ends.bind hread ?_
      rintro ⟨w₁, ret⟩ - hw₁
      dsimp only at hw₁ ⊢
      split
      · exact (destroy_relayed rfl c).mono fun w' _ hw' => hw₁ w' hw'
      · exact hw₁ w₁ rfl
  | accept c udp =>
    rw [Server.step]
    split
    · exact hother (by rintro _ _ ⟨⟩) w rfl
    · exact hother (by rintro _ _ ⟨⟩) _ rfl
  | closed c =>
    rw [Server.step]
    split
    · exact (destroy_relayed rfl c).mono fun w' _ hw' => hother (by rintro _ _ ⟨⟩) w' hw'
    · exact hother (by rintro _ _ ⟨⟩) w rfl
  | pull c id =>
    rw [Server.step]
    split
    · exact hother (by rintro _ _ ⟨⟩) w rfl
    · have haccept : (w.accept c { RtpConnection.new false env.time with
          streamid := id, type := .uploader, relayPull := true }).relayed = w.relayed := rfl
      exact (openTrans_relayed haccept c env.relayConfig).mono fun w' _ hw' => hother (by rintro _ _ ⟨⟩) w' hw'
  | putSdp id sdp => exact (setSdp_relayed w id sdp).mono fun w' _ hw' => hother (by rintro _ _ ⟨⟩) w' hw'
  | downloadSdp req id =>
    refine Ends.bind (ends_any _) fun sdp _ _ => ?_
    split
    · exact hother (by rintro _ _ ⟨⟩) _ rfl
    · exact hother (by rintro _ _ ⟨⟩) _ (emit_relayed rfl)
  | requestClosed req id => exact hother (by rintro _ _ ⟨⟩) _ rfl
  | tcpTimer => exact (destroyAll_relayed _ rfl).mono fun w' _ hw' => hother (by rintro _ _ ⟨⟩) w' hw'
  | transTimer => exact (onTimer_relayed w).mono fun w' _ hw' => hother (by rintro _ _ ⟨⟩) w' hw'
  | cacheTimer => exact hother (by rintro _ _ ⟨⟩) _ rfl

end Steps

/-! ## Runs -/

/-- The media packets an event brings, as they are to come to `a`. -/
def Server.broughtTo (w : Server) (a : Addr) : Event → List Sent
  | .packet c buf =>
    match w.connections[c]? with
    | none => []
    | some con => (con.brings buf).flatMap fun r => w.share a con.streamid r.1 r.2
  | _ => []

/-- The media packets a run brings, as they are to come to `a`. -/
def Server.brought (a : Addr) : Server → List (ServerEnv × Event) → List Sent
  | _, [] => []
  | w, e :: events => w.broughtTo a e.2 ++
      match w.step e.1 e.2 with
      | .ok w' => Server.brought a w' events
      | .error _ => []

/-- One event. -/
theorem step_inStep {env : ServerEnv} {w : Server} {c₁ c₂ : Addr} (ht : w.Together c₁ c₂)
    (e : Event) : Ends AnyFault (InStep c₁ c₂ w (w.broughtTo c₁ e)) (w.step env e) := by
  refine step_relayed ?_ ?_
  · intro hnone w' hw'
    have hbrought : w.broughtTo c₁ e = [] := by
      cases e with
      | packet c buf =>
        rw [Server.broughtTo]
        cases hc : w.connections[c]? with
        | none => rfl
        | some con =>
          dsimp only
          rw [hnone c buf con rfl hc]
          rfl
      | _ => rfl
    rw [hbrought]
    exact InStep.of_same hw'
  · rintro c buf con rtp len rfl hc hbrings
    have hbrought : w.broughtTo c₁ (.packet c buf) =
        if isFec rtp.payload then [] else w.share c₁ con.streamid rtp len := by
      rw [Server.broughtTo, hc]
      dsimp only
      rw [hbrings]
      split
      · rfl
      · exact List.flatMap_singleton _ _
    rw [hbrought]
    exact (onRecvRtp_inStep hc ht rtp len).mono fun _ _ h _ hsame => h.congr hsame

/-- Two players that stay in the same groups are forwarded the same packets in the same order, and
no media packet that comes for a group they are in is left out. -/
theorem players_agree {c₁ c₂ : Addr} {events : List (ServerEnv × Event)} {w w' : Server}
    (htogether : Along (fun w e => w.step e.1 e.2) (fun w _ => w.Together c₁ c₂) w events)
    (hrun : w.run events = .ok w') :
    ∃ recs, w'.received c₁ = w.received c₁ ++ recs ∧ w'.received c₂ = w.received c₂ ++ recs ∧
      (Server.brought c₁ w events).Sublist recs := by
  induction events generalizing w with
  | nil =>
    cases hrun
    exact InStep.of_same rfl
  | cons e events ih =>
    rw [Server.run, List.foldlM_cons, bind_eq_ok] at hrun
    obtain ⟨w₁, hstep, hrest⟩ := hrun
    have hone := (step_inStep htogether.1 e.2).of_ok hstep
    rw [Server.brought, hstep]
    exact InStep.trans hone (ih (htogether.2 w₁ hstep) hrest)

/-- An uploader and two players of one stream have come. -/
def twoPlayersOpen : List (ServerEnv × Event) :=
  uploaderAndPlayerOpen ++
    [.accept 3 true, .packet 3 (reqMessage CMD_RTP_D2P_REQ_STATE 5 189)].map (firstSecond, ·)

/-- The uploader sends two video packets. -/
def twoVideos : List (ServerEnv × Event) :=
  [.packet 1 (rtpMessage CMD_RTP_U2R_PACKET (videoByte 8 6)),
    .packet 1 (rtpMessage CMD_RTP_U2R_PACKET (videoByte 9 6))].map (firstSecond, ·)

theorem players_agree_two : ∃ w w' recs, Server.new.run twoPlayersOpen = .ok w ∧
    w.run twoVideos = .ok w' ∧ w'.received 2 = w.received 2 ++ recs ∧
      w'.received 3 = w.received 3 ++ recs ∧ (Server.brought 2 w twoVideos).Sublist recs ∧
      (Server.brought 2 w twoVideos).length = 2 := by
  have hcheck : (Server.new.run twoPlayersOpen).toOption.any (fun w =>
      alongCheck (fun (w : Server) (e : ServerEnv × Event) => w.step e.1 e.2)
        (fun w _ => decide (w.Together 2 3)) w twoVideos && (w.run twoVideos).isOk &&
      (Server.brought 2 w twoVideos).length == 2) = true := by
    decide +kernel
  cases hopen : Server.new.run twoPlayersOpen with
  | error f =>
    rw [hopen] at hcheck
    cases hcheck
  | ok w =>
    rw [hopen] at hcheck
    simp only [Except.toOption, Option.any_some, Bool.and_eq_true, beq_iff_eq] at hcheck
    obtain ⟨⟨htogether, hok⟩, htwo⟩ := hcheck
    cases hrun : w.run twoVideos with
    | error f =>
      rw [hrun] at hok
      cases hok
    | ok w' =>
      have halong : Along (fun w e => w.step e.1 e.2) (fun w _ => w.Together 2 3) w twoVideos :=
        Along.of_check (fun _ _ => of_decide_eq_true) twoVideos htogether
      obtain ⟨recs, h₁, h₂, hin⟩ := players_agree halong hrun
      exact ⟨w, w', recs, rfl, hrun, h₁, h₂, hin, htwo⟩

end RtcMcu.ConnectionManager
