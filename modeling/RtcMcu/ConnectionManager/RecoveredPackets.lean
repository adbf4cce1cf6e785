import RtcMcu.ConnectionManager.PlayerPackets
import RtcMcu.Lib.Along
import RtcMcu.RtpTrans.Arrivals

/-!
# What becomes of a recovered packet

A packet that a session recovers comes back through `recv_rtp` and is forwarded from `_pkt_data`,
after the session has handled it. As long as handling it tries no other recovery, the packet is
still there, and goes to each player of the stream once (`recovered_passed_on`). Another attempt
clears `_pkt_data` first, whether it succeeds or not: what is forwarded then is what lies there.
-/

namespace RtcMcu.ConnectionManager

open RtcMcu.Avformat RtcMcu.MediaManager RtcMcu.RtpTrans RtcMcu.Coupling Std

/-! ## What is relayed -/

/-- A recovered packet is a media packet and sets off no other recovery. -/
def Output.calm : Output → Bool
  | .recovered _ pkt _ quiet => !isFec pkt.payload && quiet
  | _ => true

/-- All that was recovered was calm. -/
def Server.Calm (w : Server) : Prop := ∀ o ∈ w.relayed, o.calm = true

/-- Packets that sessions of `c` recovered, each with its copies for the players of the stream. -/
def Server.relays (w : Server) (c : Addr) (id : StreamId) (recs : List Sent) : List Output :=
  recs.flatMap fun r => .recovered c r.1 r.2 true :: w.copies id r.1 r.2

/-- What sessions of `c` recovered was relayed, and `out` after it. -/
structure Relays (c : Addr) (id : StreamId) (w : Server) (out : List Output) (w' : Server) :
    Prop where
  table : SameTable w w'
  grows : w.relayed <+: w'.relayed
  relayed : w'.Calm → ∃ recs, w'.relayed = w.relayed ++ (w.relays c id recs ++ out)

theorem Server.Calm.of_prefix {w w' : Server} (h : w'.Calm) (hgrows : w.relayed <+: w'.relayed) :
    w.Calm := fun o ho => h o (hgrows.subset ho)

section Relays

variable {c : Addr} {id : StreamId} {w w₁ w₂ : Server} {out : List Output}

theorem SameTable.relays (h : SameTable w w₁) (recs : List Sent) :
    w₁.relays c id recs = w.relays c id recs := by
  unfold Server.relays
  simp only [h.copies]

/-- Nothing is recovered. -/
theorem Relays.only (htable : SameTable w w₁) (hrelayed : w₁.relayed = w.relayed ++ out) :
    Relays c id w out w₁ where
  table := htable
  grows := ⟨out, hrelayed.symm⟩
  relayed _ := ⟨[], hrelayed⟩

theorem Relays.same (htable : SameTable w w₁) (hrelayed : w₁.relayed = w.relayed) :
    Relays c id w [] w₁ := Relays.only htable (hrelayed.trans (List.append_nil _).symm)

theorem Relays.refl (c : Addr) (id : StreamId) (w : Server) : Relays c id w [] w :=
  Relays.same (SameTable.refl w) rfl

theorem Relays.trans (h : Relays c id w [] w₁) (h' : Relays c id w₁ out w₂) :
    Relays c id w out w₂ where
  table := h.table.trans h'.table
  grows := h.grows.trans h'.grows
  relayed hcalm := by
    obtain ⟨recs, hrecs⟩ := h.relayed (hcalm.of_prefix h'.grows)
    obtain ⟨recs', hrecs'⟩ := h'.relayed hcalm
    refine ⟨recs ++ recs', ?_⟩
    rw [hrecs', hrecs, h.table.relays, List.append_nil, Server.relays, Server.relays, Server.relays,
      List.flatMap_append, List.append_assoc, List.append_assoc]

end Relays

/-! ### The calls of a session -/

/-- What a receiver session reaches only adds to what was relayed. -/
theorem host_grows (env : ServerEnv) (c : Addr) (id : StreamId) (w₀ : Server) :
    (Server.host env c id).Keeps AnyFault
      (fun w => SameTable w₀ w ∧ w₀.relayed <+: w.relayed) where
  get w _ := managerGetRtpBySeq_ends tableFaults_any.toMediaFaults w.rtpCache id
  setRtp w rtp len h :=
    Ends.bind (managerSetRtp_ends tableFaults_any.toMediaFaults w.rtpCache env.time id rtp len)
      fun cache _ _ => ⟨h.1.setCache cache, h.2⟩
  forwardRtp w rtp len h := by
    refine (forwardRtp_forwarded w id rtp len).mono ?_
    rintro r - ⟨hforwarded, -⟩
    refine ⟨h.1.trans hforwarded.table, h.2.trans ?_⟩
    rw [hforwarded.relayed]
    exact List.prefix_append _ _
  recovered w s len h := by
    refine ⟨h.1.emit _, h.2.trans ?_⟩
    rw [Server.relayed, Server.relayed, Server.host, Server.emit_outputs, List.filter_append]
    exact List.prefix_append _ _

theorem onRecvRtp_grows (env : ServerEnv) (c : Addr) (id : StreamId) (renv : RecvEnv) (fuel : Nat)
    (w : Server) (s : RTPRecvSession) (ref : PktRef) (len : Nat) :
    Ends AnyFault (fun r => SameTable w r.1 ∧ w.relayed <+: r.1.relayed)
      (onRecvRtp (Server.host env c id) renv fuel w s ref len) := by
  have hsame : (w = w) ∧ SameTable w w ∧ w.relayed <+: w.relayed :=
    ⟨rfl, SameTable.refl w, List.prefix_rfl⟩
  refine (onRecvRtp_coupled tableFaults_any.toSessionFaults (host_grows env c id w).coupled renv
    fuel hsame s ref len).ends.mono ?_
  intro r _ hr
  exact hr.1.2

/-- A calm packet in `_pkt_data` is forwarded from there. -/
theorem onRecvRtp_calm (env : ServerEnv) (c : Addr) (id : StreamId) (renv : RecvEnv) (fuel : Nat)
    (w : Server) {s : RTPRecvSession} (hmedia : isFec s.pktData.payload = false)
    (hmarked : s.pktHistory s.pktData.seq = true)
    (hquiet : (s.clearAtWrap s.pktData.seq).quiet s.pktData.seq = true) (len : Nat) :
    Ends AnyFault (fun r => r.1.relayed = w.relayed ++ w.copies id s.pktData len)
      (onRecvRtp (Server.host env c id) renv fuel w s .own len) := by
  cases fuel with
  | zero => trivial
  | succ fuel =>
    rw [onRecvRtp, RTPRecvSession.deref_own, StreamHost.storeMedia, hmedia,
      if_neg Bool.false_ne_true]
    refine Ends.bind (P := fun w₁ => SameTable w w₁ ∧ w₁.relayed = w.relayed) ?_ ?_
    · exact Ends.bind
        (managerSetRtp_ends tableFaults_any.toMediaFaults w.rtpCache env.time id s.pktData len)
        fun cache _ _ => ⟨(SameTable.refl w).setCache cache, rfl⟩
    rintro w₁ - ⟨htable, hrelayed⟩
    refine Ends.bind (RTPRecvSession.onHandleRtp_quiet trivial _ renv fuel w₁ hmedia hmarked hquiet
      len) ?_
    rintro ⟨w₂, s₂⟩ - ⟨rfl, hdata⟩
    dsimp only at hdata ⊢
    rw [if_neg Bool.false_ne_true, RTPRecvSession.deref_own, hdata]
    refine Ends.bind (forwardRtp_forwarded w₂ id s.pktData len) ?_
    rintro ⟨w₃, rtp⟩ - ⟨hforwarded, -⟩
    show w₃.relayed = _
    rw [hforwarded.relayed, hrelayed, htable.copies]

/-- `recv_rtp` relays what it is given. -/
theorem recvRtp_relays (env : ServerEnv) (c : Addr) (id : StreamId) (renv : RecvEnv) (fuel : Nat)
    (w : Server) (s : RTPRecvSession) (len : Nat) :
    Ends AnyFault (fun r => Relays c id w [] r.1)
      (((Server.host env c id).parent renv fuel).recvRtp w (s.mark s.pktData.seq) len) := by
  let s₁ := s.mark s.pktData.seq
  let quiet := (s₁.clearAtWrap s.pktData.seq).quiet s.pktData.seq
  let w₁ := w.emit [.recovered c s.pktData len quiet]
  have hnote : w₁.relayed = w.relayed ++ [.recovered c s.pktData len quiet] := by
    rw [Server.relayed, Server.emit_outputs, List.filter_append]
    rfl
  have hgrows := onRecvRtp_grows env c id renv fuel w₁ s₁ .own len
  by_cases hcalm : isFec s.pktData.payload = false ∧ quiet = true
  · obtain ⟨hmedia, hquiet⟩ := hcalm
    have hmarked : s₁.pktHistory s₁.pktData.seq = true := by
      show (s.pktData.seq == s.pktData.seq || _) = true
      rw [beq_self_eq_true, Bool.true_or]
    refine (hgrows.and (onRecvRtp_calm env c id renv fuel w₁ (s := s₁) hmedia hmarked
      hquiet len)).mono ?_
    rintro r - ⟨⟨htable, -⟩, hrelayed⟩
    have hone : r.1.relayed = w.relayed ++ (w.relays c id [(s.pktData, len)] ++ []) := by
      rw [hrelayed, hnote, hquiet, List.append_assoc, List.append_nil]
      exact congrArg (w.relayed ++ ·) (List.append_nil _).symm
    refine ⟨((SameTable.refl w).emit _).trans htable, ⟨_, hone.symm⟩, fun _ => ⟨_, hone⟩⟩
  · refine hgrows.mono ?_
    rintro r - ⟨htable, hprefix⟩
    have hmem : Output.recovered c s.pktData len quiet ∈ r.1.relayed := by
      refine hprefix.subset ?_
      rw [hnote]
      exact List.mem_append_right _ List.mem_cons_self
    refine ⟨((SameTable.refl w).emit _).trans htable, ?_, fun hall => ?_⟩
    · refine List.IsPrefix.trans ?_ hprefix
      rw [hnote]
      exact List.prefix_append _ _
    · refine absurd ?_ hcalm
      have hone := hall _ hmem
      rw [Output.calm, Bool.and_eq_true, Bool.not_eq_true'] at hone
      exact hone

section Calls

variable {p : Parent Server} {c : Addr} {id : StreamId}

/-- What a parent's `recv_rtp` is given is relayed. -/
def RelaysEach (p : Parent Server) (c : Addr) (id : StreamId) : Prop :=
  ∀ (w : Server) (s : RTPRecvSession) (len : Nat),
    Ends AnyFault (fun r => Relays c id w [] r.1) (p.recvRtp w (s.mark s.pktData.seq) len)

theorem scanPending_relays (hrecv : RelaysEach p c id) (seq : Seq) (w : Server) (s : RTPRecvSession)
    (kept pending : List Fragment.RTPBlock) :
    Ends AnyFault (fun r => Relays c id w [] r.1) (s.scanPending p seq w kept pending) := by
  induction pending generalizing s kept with
  | nil => exact Relays.refl c id w
  | cons block rest ih =>
    rw [RTPRecvSession.scanPending]
    rcases block.get with ⟨_ | fec, len⟩
    · trivial
    · dsimp only
      split
      · exact ih s kept
      · refine Ends.bind (ends_any _) ?_
        rintro ⟨s₁, attempt⟩ - -
        cases attempt with
        | notYet => exact ih s₁ (kept ++ [block])
        | useless => exact ih s₁ kept
        | recovered length =>
          exact Ends.bind (hrecv w { s₁ with pendingFec := kept ++ rest } length)
            fun r _ hr => hr

/-- The loop goes on as long as packets are recovered. -/
theorem fecLoop_relays (hrecv : RelaysEach p c id) (fuel : Nat) (w : Server) (s : RTPRecvSession)
    (ref : PktRef) (len : Nat) :
    Ends AnyFault (fun r => Relays c id w [] r.1) (s.fecLoop p fuel w ref len) := by
  induction fuel generalizing w s ref with
  | zero => trivial
  | succ fuel ih =>
    rw [RTPRecvSession.fecLoop]
    split
    · refine Ends.bind (ends_any _) ?_
      rintro ⟨s₁, attempt⟩ - -
      cases attempt with
      | notYet => exact Relays.refl c id w
      | useless => exact Relays.refl c id w
      | recovered length =>
        refine Ends.bind (hrecv w s₁ length) fun r _ hr => ?_
        exact (ih r.1 r.2 .own).mono fun _ _ h => hr.trans h
    · refine Ends.bind (scanPending_relays hrecv _ w _ _ _) ?_
      rintro ⟨w₁, s₁, again⟩ - hscan
      cases again with
      | true => exact (ih w₁ s₁ .own).mono fun _ _ h => Relays.trans hscan h
      | false => exact hscan

theorem onHandleRtp_relays (hrecv : RelaysEach p c id) (renv : RecvEnv) (fuel : Nat) (w : Server)
    (s : RTPRecvSession) (ref : PktRef) (len : Nat) :
    Ends AnyFault (fun r => Relays c id w [] r.1) (s.onHandleRtp p renv fuel w ref len) := by
  refine Ends.bind (fecLoop_relays hrecv fuel w _ ref len) fun r _ hr => ?_
  dsimp only
  split
  · exact hr
  · exact hr

end Calls

/-! ## OnRecvRtp -/

theorem transOnHandleRtp_relays {env : ServerEnv} {w : Server} {c : Addr} {con : RtpConnection}
    (hc : w.connections[c]? = some con) (rtp : Rtp) (len : Nat) :
    Ends AnyFault (Relays c con.streamid w []) (w.transOnHandleRtp env c con rtp len) := by
  have htable : Ends AnyFault (SameTable w) (w.transOnHandleRtp env c con rtp len) :=
    transOnHandleRtp_table tableFaults_any (SameTable.refl w) hc w.linked_any rtp len
  revert htable
  unfold Server.transOnHandleRtp
  cases htrans : con.trans with
  | none =>
    intro
    trivial
  | some t =>
    cases t with
    | send t =>
      intro htable
      exact (htable.and (sendTransOnHandleRtp_media (SameMedia.refl w) c con t rtp len)).mono
        fun w' _ h => Relays.same h.1 h.2.relayed
    | recv t =>
      intro htable
      have hsession : Ends AnyFault (fun r => Relays c con.streamid w [] r.1)
          (RTPRecvTrans.onHandleRtp (Server.host env c con.streamid) env.fuel env.now w t rtp
            len) := by
        unfold RTPRecvTrans.onHandleRtp
        split
        · exact Relays.refl c con.streamid w
        · dsimp only
          split
          · exact Relays.refl c con.streamid w
          · exact Ends.bind (onHandleRtp_relays
              (fun w s len => recvRtp_relays env c con.streamid _ env.fuel w s len) _ _ w _ _ len)
              fun r _ hr => hr
      refine (htable.and (Ends.bind (P := fun r => Relays c con.streamid w [] r.1)
        (Q := fun w' => ∃ w₁, Relays c con.streamid w [] w₁ ∧ w'.relayed = w₁.relayed) hsession
        fun r _ hr => ⟨r.1, hr, rfl⟩)).mono ?_
      rintro w' - ⟨htable', w₁, hrelays, hsame⟩
      refine ⟨htable', hsame ▸ hrelays.grows, fun hcalm => ?_⟩
      rw [hsame]
      exact hrelays.relayed fun o ho => hcalm o (hsame ▸ ho)

/-- `OnRecvRtp` relays what it is given, after what is recovered with it. -/
theorem onRecvRtp_relays {env : ServerEnv} {w : Server} {c : Addr} {con : RtpConnection}
    (hc : w.connections[c]? = some con) (rtp : Rtp) (len : Nat) :
    Ends AnyFault
      (Relays c con.streamid w (if isFec rtp.payload then [] else w.copies con.streamid rtp len))
      (w.onRecvRtp env c rtp len) := by
  rw [Server.onRecvRtp, Server.connection_eq_ok.mpr hc, ok_bind]
  refine Ends.bind (P := fun w₁ => Relays c con.streamid w [] w₁ ∧
    w₁.connections = w.connections) ?_ ?_
  · unfold Server.storeMedia
    split
    · exact ⟨Relays.refl c con.streamid w, rfl⟩
    · exact Ends.bind
        (managerSetRtp_ends tableFaults_any.toMediaFaults w.rtpCache env.time _ rtp len)
        fun cache _ _ => ⟨Relays.same ((SameTable.refl w).setCache cache) rfl, rfl⟩
  rintro w₁ - ⟨hstored, hconns⟩
  have hc₁ : w₁.connections[c]? = some con := by rw [hconns, hc]
  refine Ends.bind (transOnHandleRtp_relays hc₁ rtp len) fun w₂ _ hhandled => ?_
  have hboth := hstored.trans hhandled
  unfold Server.forwardMedia
  split
  · exact hboth
  · refine Ends.bind (forwardRtp_forwarded w₂ con.streamid rtp len) ?_
    rintro r - ⟨hforwarded, -⟩
    rw [← hboth.table.copies]
    exact hboth.trans (Relays.only hforwarded.table hforwarded.relayed)

/-! ## What relays nothing -/

section Nothing

variable {env : ServerEnv} {w w₁ : Server}

theorem emit_relayed {out : List Output} (hout : out.filter Output.isRelay = []) :
    (w.emit out).relayed = w.relayed := by
  rw [Server.relayed, Server.emit_outputs, List.filter_append, hout, List.append_nil]
  rfl

theorem destroy_relayed (h : w₁.relayed = w.relayed) (c : Addr) :
    Ends AnyFault (fun w' => w'.relayed = w.relayed) (w₁.destroy c) := by
  refine Ends.bind (ends_any _) fun con _ _ => ?_
  unfold Server.closeTrans
  cases con.trans with
  | none => exact h
  | some t => exact h

theorem destroyAll_relayed (cs : List Addr) (h : w₁.relayed = w.relayed) :
    Ends AnyFault (fun w' => w'.relayed = w.relayed) (cs.foldlM Server.destroy w₁) :=
  Ends.foldlM cs (fun _ c _ h' => destroy_relayed h' c) h

theorem destroyUploaders_relayed (id : StreamId) (cs : List Addr) (h : w₁.relayed = w.relayed) :
    Ends AnyFault (fun w' => w'.relayed = w.relayed) (Server.destroyUploaders id w₁ cs) := by
  induction cs generalizing w₁ with
  | nil => exact h
  | cons c cs ih =>
    rw [Server.destroyUploaders]
    refine Ends.bind (ends_any _) fun con _ _ => ?_
    split
    · refine Ends.bind (destroy_relayed h c) fun w₂ _ h₂ => ?_
      split
      · exact ih h₂
      · trivial
    · exact ih h

theorem openTrans_relayed (h : w₁.relayed = w.relayed) (c : Addr) (config : RTPTransConfig) :
    Ends AnyFault (fun w' => w'.relayed = w.relayed) (w₁.openTrans env c config) := by
  refine Ends.bind (ends_any _) fun con _ _ => ?_
  split
  · refine Ends.bind (ends_any _) fun con' _ _ => ?_
    exact Ends.bind (ends_any _) fun sdp _ _ => h
  · refine Ends.bind (ends_any _) fun con' _ _ => ?_
    refine Ends.bind (destroyUploaders_relayed con'.streamid _ h) fun w₂ _ h₂ => ?_
    exact Ends.bind (ends_any _) fun con'' _ _ => h₂

theorem onReqState_relayed (h : w₁.relayed = w.relayed) (c : Addr) (config : RTPTransConfig)
    (id : Option StreamId) (failed : Int) :
    Ends AnyFault (fun r => r.1.relayed = w.relayed) (w₁.onReqState env c config id failed) := by
  cases id with
  | none => exact h
  | some id =>
    refine Ends.bind (ends_any _) fun con _ _ => ?_
    have hset : (w₁.setConnection c { con with streamid := id }).relayed = w.relayed := h
    refine Ends.bind (openTrans_relayed hset c config) fun w₂ _ h₂ => ?_
    exact (emit_relayed rfl).trans h₂

theorem forwardRtcp_relayed (id : StreamId) (type : RTPAVType) (info : RTCPPacketInformation)
    (h : w₁.relayed = w.relayed) :
    Ends AnyFault (fun w' => w'.relayed = w.relayed) (w₁.forwardRtcp env id type info) := by
  refine Ends.foldlM _ (fun w₂ c _ h₂ => ?_) h
  refine Ends.bind (ends_any _) fun con _ _ => ?_
  split
  · cases con.trans with
    | none => trivial
    | some t =>
      cases t with
      | recv t => trivial
      | send t =>
        refine (emit_relayed ?_).trans h₂
        rw [List.filter_map, List.map_eq_nil_iff]
        exact List.filter_false _
  · exact h₂

theorem onRecvRtcp_relayed (w : Server) (c : Addr) (rtcp : List Byte) :
    Ends AnyFault (fun w' => w'.relayed = w.relayed) (w.onRecvRtcp env c rtcp) := by
  refine Ends.bind (ends_any _) fun con _ _ => ?_
  refine Ends.bind (transOnHandleRtcp_media (SameMedia.refl w) c con _) fun w₂ _ h₂ => ?_
  split
  · exact h₂.relayed
  · split
    · refine Ends.bind (ends_any _) fun con' _ _ => ?_
      cases con'.trans with
      | none => trivial
      | some t =>
        dsimp only
        split
        · exact h₂.relayed
        · exact forwardRtcp_relayed _ _ _ h₂.relayed
    · exact h₂.relayed

theorem setSdp_relayed (w : Server) (id : StreamId) (sdp : SdpText) :
    Ends AnyFault (fun w' => w'.relayed = w.relayed) (w.setSdp env id sdp) := by
  have hsdp : ({ w with rtpCache := w.rtpCache.setSdp env.sdpInfo env.time id sdp }.onSdp id
      sdp).relayed = w.relayed := by
    unfold Server.onSdp
    dsimp only
    split
    · rfl
    · refine emit_relayed ?_
      rw [List.filter_map, List.map_eq_nil_iff]
      exact List.filter_false _
  refine Ends.foldlM _ (fun w₂ c _ h₂ => ?_) hsdp
  refine Ends.bind (ends_any _) fun con _ _ => ?_
  cases con.trans with
  | none => trivial
  | some t => exact h₂

theorem onTimer_relayed (w : Server) :
    Ends AnyFault (fun w' => w'.relayed = w.relayed) (w.onTimer env) := by
  refine Ends.bind (P := fun r => r.1.relayed = w.relayed) ?_ ?_
  · refine Ends.foldlM _ (fun r c _ hr => ?_) rfl
    refine Ends.bind (ends_any _) fun con _ _ => ?_
    cases con.trans with
    | none => trivial
    | some t => exact hr
  · rintro ⟨w₂, trash⟩ - h₂
    exact destroyAll_relayed _ h₂

end Nothing

/-! ## Steps -/

/-- The media packet that `OnReadPacket` takes from a message. -/
def RtpConnection.brings (con : RtpConnection) (buf : ReadBuffer) : List Sent :=
  if con.type = .unknown then [] else (mediaOf con.udp buf).toList

/-- What a message of `c` relays: the packets `recs` that are recovered with it, and its own. -/
def Server.relaysOf (w : Server) (e : Event) (recs : List Sent) : List Output :=
  match e with
  | .packet c buf =>
    match w.connections[c]? with
    | none => []
    | some con => w.relays c con.streamid recs ++
        (con.brings buf).flatMap fun r => w.copies con.streamid r.1 r.2
  | _ => []

/-- The step passes on what is recovered, each packet to each player of the stream once, and
relays nothing else but what the event brings. -/
def Server.PassesOn (w : Server) (e : ServerEnv × Event) : Prop :=
  ∀ w', w.step e.1 e.2 = .ok w' → ∃ recs, w'.relayed = w.relayed ++ w.relaysOf e.2 recs

/-- As long as what is recovered is calm, it is passed on. -/
structure Passed (w : Server) (e : Event) (w' : Server) : Prop where
  grows : w.relayed <+: w'.relayed
  relayed : w'.Calm → ∃ recs, w'.relayed = w.relayed ++ w.relaysOf e recs

section Steps

variable {env : ServerEnv} {w w₁ : Server}

/-- Nothing is relayed where the event brings nothing. -/
theorem Passed.of_same {e : Event} (hnone : w.relaysOf e [] = []) (h : w₁.relayed = w.relayed) :
    Passed w e w₁ where
  grows := h ▸ List.prefix_rfl
  relayed _ := ⟨[], by rw [h, hnone, List.append_nil]⟩

theorem Passed.congr {e : Event} {w₂ : Server} (h : Passed w e w₁)
    (hsame : w₂.relayed = w₁.relayed) : Passed w e w₂ where
  grows := hsame ▸ h.grows
  relayed hcalm := by
    rw [hsame]
    exact h.relayed fun o ho => hcalm o (hsame ▸ ho)

/-- A message without a media packet brings nothing. -/
theorem relaysOf_none {c : Addr} {con : RtpConnection} (hc : w.connections[c]? = some con)
    {buf : ReadBuffer} (hnone : con.type ≠ .unknown → mediaOf con.udp buf = none) :
    w.relaysOf (.packet c buf) [] = [] := by
  have hbrings : con.brings buf = [] := by
    unfold RtpConnection.brings
    split
    · rfl
    · next htype => rw [hnone htype]; rfl
  simp only [Server.relaysOf, hc, hbrings]
  rfl

/-- `OnReadPacket`. -/
theorem onReadPacket_passed {c : Addr} {con : RtpConnection} (hc : w.connections[c]? = some con)
    (buf : ReadBuffer) :
    Ends AnyFault (fun r => Passed w (.packet c buf) r.1) (w.onReadPacket env c buf) := by
  rw [Server.onReadPacket, Server.connection_eq_ok.mpr hc, ok_bind]
  cases hheader : readHeader con.udp buf with
  | error ret =>
    refine Passed.of_same (relaysOf_none hc fun _ => ?_) rfl
    rw [mediaOf, hheader]
  | ok h =>
    have hnone : ¬ (h.cmd = CMD_RTP_D2P_PACKET ∨ h.cmd = CMD_RTP_U2R_PACKET) →
        ∀ w', w'.relayed = w.relayed → Passed w (.packet c buf) w' := by
      intro hcmd w' hw'
      refine Passed.of_same (relaysOf_none hc fun _ => ?_) hw'
      simp only [mediaOf, hheader, if_neg hcmd]
    dsimp only
    rw [Server.onCommand, Server.connection_eq_ok.mpr hc, ok_bind]
    by_cases hu2r : h.cmd = CMD_RTP_U2R_REQ_STATE
    · rw [if_pos hu2r]
      have hcmd := hnone (by rw [hu2r]; decide)
      refine Ends.bind (ends_any _) fun id _ _ => ?_
      exact (onReqState_relayed rfl c _ id _).mono fun r _ hr => hcmd r.1 hr
    rw [if_neg hu2r]
    by_cases hd2p : h.cmd = CMD_RTP_D2P_REQ_STATE
    · rw [if_pos hd2p]
      have hcmd := hnone (by rw [hd2p]; decide)
      refine Ends.bind (ends_any _) fun id _ _ => ?_
      exact (onReqState_relayed rfl c _ id _).mono fun r _ hr => hcmd r.1 hr
    rw [if_neg hd2p]
    by_cases hrsp : h.cmd = CMD_RTP_D2P_RSP_STATE ∨ h.cmd = CMD_RTP_U2R_RSP_STATE
    · rw [if_pos hrsp]
      exact hnone (by rcases hrsp with hrsp | hrsp <;> rw [hrsp] <;> decide) w rfl
    rw [if_neg hrsp]
    by_cases hrtp : h.cmd = CMD_RTP_D2P_PACKET ∨ h.cmd = CMD_RTP_U2R_PACKET
    · rw [if_pos hrtp]
      split
      · next hunknown =>
        exact Passed.of_same (relaysOf_none hc fun hknown => absurd hunknown hknown) rfl
      · next hknown =>
        split
        · trivial
        · refine Ends.bind (onRecvRtp_relays hc _ _) fun w' _ hw' => ?_
          have hmedia : con.brings buf =
              if isFec (messageRtp h buf).1.payload then [] else [messageRtp h buf] := by
            simp only [RtpConnection.brings, if_neg hknown, mediaOf, hheader, if_pos hrtp]
            split <;> rfl
          refine ⟨hw'.grows, fun hcalm => ?_⟩
          obtain ⟨recs, hrecs⟩ := hw'.relayed hcalm
          have hmessage : w'.relayed = w.relayed ++ (w.relays c con.streamid recs ++
              if isFec (messageRtp h buf).1.payload then []
              else w.copies con.streamid (messageRtp h buf).1 (messageRtp h buf).2) := hrecs
          refine ⟨recs, hmessage.trans ?_⟩
          simp only [Server.relaysOf, hc, hmedia]
          split
          · rfl
          · rw [List.flatMap_singleton]
    rw [if_neg hrtp]
    split
    · split
      · exact hnone hrtp w rfl
      · refine Ends.bind (ends_any _) fun rtcp _ _ => ?_
        exact Ends.bind (onRecvRtcp_relayed w c rtcp) fun w' _ hw' => hnone hrtp w' hw'
    · exact hnone hrtp w rfl

/-- One event. -/
theorem step_passed (env : ServerEnv) (w : Server) (e : Event) :
    Ends AnyFault (Passed w e) (w.step env e) := by
  cases e with
  | accept c udp =>
    rw [Server.step]
    split
    · exact Passed.of_same rfl rfl
    · exact Passed.of_same rfl rfl
  | packet c buf =>
    rw [Server.step]
    cases hc : w.connections[c]? with
    | none =>
      rw [if_neg (by rw [TreeMap.contains_eq_isSome_getElem?, hc]; exact Bool.false_ne_true)]
      exact Passed.of_same (by simp only [Server.relaysOf, hc]) rfl
    | some con =>
      rw [if_pos (by rw [TreeMap.contains_eq_isSome_getElem?, hc]; rfl)]
      refine Ends.bind (onReadPacket_passed hc buf) ?_
      rintro ⟨w₁, ret⟩ - hread
      dsimp only at hread ⊢
      split
      · exact (destroy_relayed rfl c).mono fun w' _ hw' => hread.congr hw'
      · exact hread
  | closed c =>
    rw [Server.step]
    split
    · exact (destroy_relayed rfl c).mono fun w' _ hw' => Passed.of_same rfl hw'
    · exact Passed.of_same rfl rfl
  | pull c id =>
    rw [Server.step]
    split
    · exact Passed.of_same rfl rfl
    · have haccept : (w.accept c { RtpConnection.new false env.time with
          streamid := id, type := .uploader, relayPull := true }).relayed = w.relayed := rfl
      exact (openTrans_relayed haccept c env.relayConfig).mono
        fun w' _ hw' => Passed.of_same rfl hw'
  | putSdp id sdp => exact (setSdp_relayed w id sdp).mono fun w' _ hw' => Passed.of_same rfl hw'
  | downloadSdp req id =>
    refine Ends.bind (ends_any _) fun sdp _ _ => ?_
    split
    · exact Passed.of_same rfl rfl
    · exact Passed.of_same rfl (emit_relayed rfl)
  | requestClosed req id => exact Passed.of_same rfl rfl
  | tcpTimer => exact (destroyAll_relayed _ rfl).mono fun w' _ hw' => Passed.of_same rfl hw'
  | transTimer => exact (onTimer_relayed w).mono fun w' _ hw' => Passed.of_same rfl hw'
  | cacheTimer => exact Passed.of_same rfl rfl

theorem run_grows (w : Server) (events : List (ServerEnv × Event)) :
    Ends AnyFault (fun w' => w.relayed <+: w'.relayed) (w.run events) :=
  Ends.foldlM events (fun w₁ e _ h => (step_passed e.1 w₁ e.2).mono fun _ _ h' => h.trans h'.grows)
    List.prefix_rfl

end Steps

/-- In a run in which every recovered packet is a media packet and sets off no other recovery, each
is passed on. -/
theorem recovered_passed_on {events : List (ServerEnv × Event)} {w w' : Server}
    (hrun : w.run events = .ok w') (hcalm : w'.Calm) :
    Along (fun w e => w.step e.1 e.2) Server.PassesOn w events := by
  induction events generalizing w with
  | nil => trivial
  | cons e events ih =>
    rw [Server.run, List.foldlM_cons, bind_eq_ok] at hrun
    obtain ⟨w₁, hstep, hrest⟩ := hrun
    have hgrows := (run_grows w₁ events).of_ok hrest
    have hpassed := (step_passed e.1 w e.2).of_ok hstep
    refine ⟨fun w₂ hw₂ => ?_, fun w₂ hw₂ => ?_⟩
    · cases hstep.symm.trans hw₂
      exact hpassed.relayed (hcalm.of_prefix hgrows)
    · cases hstep.symm.trans hw₂
      exact ih hrest

/-! ### Two FEC packets that share a number -/

/-- A FEC packet for two numbers, with two bytes for their payload. -/
def pairFec (snBase : Seq) : Rtp :=
  { Rtp.zero with
    version := 2
    payload := RTP_AV_FEC
    seq := snBase + 1
    ssrc := 3
    data :=
      FecHeader.bytes
        { snBase := snBase, lengthRecovery := 0, payload := 0, e := 0, mask := 3,
          timestamp := 0 } ++ [0, 0, 0] }

/-- SDPs name H264, and there is fuel for nested calls. -/
def nestingSecond : ServerEnv :=
  { firstSecond with
    sdpInfo := { mediaInfos := fun _ => [⟨RTP_AV_H264, 90000⟩], getSdpStr := id }
    fuel := 9 }

/-- A packet of the uploader. -/
def uploads (rtp : Rtp) : ServerEnv × Event :=
  (nestingSecond, .packet 1 (rtpMessage CMD_RTP_U2R_PACKET rtp))

/-- An uploader and a player of one stream have come, and its SDP. -/
def videoOpen : List (ServerEnv × Event) :=
  uploaderAndPlayerOpen ++ [(nestingSecond, .putSdp 5 [])]

/-- With a FEC packet for 10 and 11 the video packet 10 gives 11. -/
def oneRecovered : List (ServerEnv × Event) :=
  videoOpen ++ [uploads (pairFec 10), uploads (videoByte 10 6)]

theorem recovered_passed_on_one : ∃ w',
    Server.new.run oneRecovered = .ok w' ∧ w'.forwarded.length < w'.relayed.length ∧ w'.Calm ∧
      Along (fun w e => w.step e.1 e.2) Server.PassesOn Server.new oneRecovered := by
  have hcheck : (Server.new.run oneRecovered).toOption.any (fun w' =>
      decide (w'.forwarded.length < w'.relayed.length) && w'.relayed.all Output.calm) = true := by
    decide +kernel
  cases hrun : Server.new.run oneRecovered with
  | error f =>
    rw [hrun] at hcheck
    cases hcheck
  | ok w' =>
    rw [hrun] at hcheck
    simp only [Except.toOption, Option.any_some, Bool.and_eq_true, decide_eq_true_eq] at hcheck
    have hcalm : w'.Calm := List.all_eq_true.mp hcheck.2
    exact ⟨w', rfl, hcheck.1, hcalm, recovered_passed_on hrun hcalm⟩

theorem isForward_of_mem_copies {w : Server} {id : StreamId} {rtp : Rtp} {len : Nat} {o : Output}
    (ho : o ∈ w.copies id rtp len) : o.isForward = true :=
  List.filter_eq_self.mp (copies_isForward w id rtp len) o ho

/-- A packet that is recovered is followed by a packet that is forwarded, if there is a player. -/
theorem relaysOf_second {w : Server} {c a : Addr} {con player : RtpConnection}
    (hc : w.connections[c]? = some con) (ha : w.connections[a]? = some player)
    (hplays : player.isPlayer) (hmem : a ∈ w.members con.streamid) {buf : ReadBuffer}
    {recs : List Sent} {o o' : Output} {rest : List Output}
    (h : w.relaysOf (.packet c buf) recs = o :: o' :: rest) (ho : o.isForward = false) :
    o'.isForward = true := by
  simp only [Server.relaysOf, hc] at h
  cases recs with
  | nil =>
    have hbrought : o ∈ (con.brings buf).flatMap fun r => w.copies con.streamid r.1 r.2 := by
      rw [show (con.brings buf).flatMap _ = _ from h]
      exact List.mem_cons_self
    obtain ⟨r, -, hr⟩ := List.mem_flatMap.mp hbrought
    exact absurd (isForward_of_mem_copies hr) (Bool.eq_false_iff.mp ho)
  | cons r recs =>
    rw [Server.relays, List.flatMap_cons, List.cons_append, List.cons_append] at h
    have htail := (List.cons.inj h).2
    cases hcopies : w.copies con.streamid r.1 r.2 with
    | nil => exact absurd hcopies (copies_ne_nil ha hplays hmem r.1 r.2)
    | cons o₁ os =>
      rw [hcopies, List.cons_append, List.cons_append] at htail
      rw [← (List.cons.inj htail).1]
      have hfirst : o₁ ∈ w.copies con.streamid r.1 r.2 := by
        rw [hcopies]
        exact List.mem_cons_self
      exact isForward_of_mem_copies hfirst

/-- FEC packets for 10 and 11 and for 11 and 12 wait. -/
def twoPending : List (ServerEnv × Event) :=
  videoOpen ++ [uploads (pairFec 10), uploads (pairFec 11)]

/-- The server with its connections before the video packet 10 comes, and after. -/
def chainedRecovery : Except Fault (Server × RtpConnection × RtpConnection × Server) := do
  let w ← Server.new.run twoPending
  let con ← w.connection 1
  let player ← w.connection 2
  let w' ← w.step nestingSecond (uploads (videoByte 10 6)).2
  .ok (w, con, player, w')

/-- The packet 11 is recovered, and 12 while it is handled, and is not forwarded. -/
theorem chained_not_passed_on : ¬ ∀ events w', Server.new.run events = .ok w' →
    Along (fun w e => w.step e.1 e.2) Server.PassesOn Server.new events := by
  intro hall
  have hcheck : chainedRecovery.toOption.any (fun (w, con, player, w') =>
      w.relayed.isEmpty && player.isPlayer && (w.members con.streamid).contains 2 &&
        w'.relayed.map Output.isForward == [false, false, true, true, true]) = true := by
    decide +kernel
  cases hchained : chainedRecovery with
  | error f =>
    rw [hchained] at hcheck
    cases hcheck
  | ok r =>
    obtain ⟨w, con, player, w'⟩ := r
    rw [hchained] at hcheck
    simp only [Except.toOption, Option.any_some, Bool.and_eq_true, List.isEmpty_iff,
      List.contains_iff_mem, beq_iff_eq] at hcheck
    obtain ⟨⟨⟨hempty, hplays⟩, hmem⟩, horder⟩ := hcheck
    obtain ⟨w₁, hrun, hchained⟩ := bind_eq_ok.mp hchained
    obtain ⟨con₁, hcon, hchained⟩ := bind_eq_ok.mp hchained
    obtain ⟨player₁, hplayer, hchained⟩ := bind_eq_ok.mp hchained
    obtain ⟨w₂, hstep, hchained⟩ := bind_eq_ok.mp hchained
    cases hchained
    have hwhole : Server.new.run (twoPending ++ [uploads (videoByte 10 6)]) = .ok w' := by
      rw [Server.run, List.foldlM_append]
      exact bind_eq_ok.mpr ⟨w, hrun, bind_eq_ok.mpr ⟨w', hstep, rfl⟩⟩
    obtain ⟨recs, hrecs⟩ := (hall _ w' hwhole).at_call rfl hrun w' hstep
    rw [hempty, List.nil_append] at hrecs
    rw [hrecs] at horder
    rcases hlist : w.relaysOf (uploads (videoByte 10 6)).2 recs with _ | ⟨o, _ | ⟨o', rest⟩⟩
    · rw [hlist] at horder
      cases horder
    · rw [hlist] at horder
      have hrest := (List.cons.inj horder).2
      cases hrest
    · rw [hlist, List.map_cons, List.map_cons] at horder
      have hfirst := (List.cons.inj horder).1
      have hsecond := (List.cons.inj (List.cons.inj horder).2).1
      have hforward := relaysOf_second (Server.connection_eq_ok.mp hcon)
        (Server.connection_eq_ok.mp hplayer) hplays hmem hlist hfirst
      exact Bool.false_ne_true (hsecond.symm.trans hforward)

end RtcMcu.ConnectionManager
