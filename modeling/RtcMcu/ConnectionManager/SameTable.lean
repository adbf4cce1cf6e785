import RtcMcu.ConnectionManager.RtpConnectionManager
import RtcMcu.RtpTrans.MediaFaults

/-!
# Packets leave the connection table alone

Two states have the same table if they have the same groups and the same connections, each with a
trans of the same mode, whatever goes on inside the transes. RTP and RTCP packets and SDPs keep the
table. The faults they can end in are those of the media path, a trans of the wrong class, and,
unless every pointer of a group leads to a live connection, the use of a destroyed one.
-/

namespace RtcMcu.ConnectionManager

open RtcMcu.Avformat RtcMcu.MediaManager RtcMcu.RtpTrans RtcMcu.Coupling Std

/-! ## The table -/

/-- `RTPTransMode`. -/
inductive RTPTransMode
  | sender
  | receiver
  deriving DecidableEq, Repr

/-- `get_mode`. -/
def AnyTrans.mode : AnyTrans → RTPTransMode
  | .recv _ => .receiver
  | .send _ => .sender

/-- The mode of the connection's trans, if it has one. -/
def RtpConnection.mode (con : RtpConnection) : Option RTPTransMode := con.trans.map AnyTrans.mode

/-- What the table knows of a connection: all but what is inside its trans. -/
def RtpConnection.entry (con : RtpConnection) : RtpConnection × Option RTPTransMode :=
  ({ con with trans := none }, con.mode)

/-- The table is the same, whatever happened inside the transes. -/
structure SameTable (w w' : Server) : Prop where
  groups : w'.streamGroups = w.streamGroups
  allocated : w'.allocated = w.allocated
  entries : ∀ c : Addr, (w'.connections[c]?).map RtpConnection.entry =
    (w.connections[c]?).map RtpConnection.entry

theorem SameTable.refl (w : Server) : SameTable w w := ⟨rfl, rfl, fun _ => rfl⟩

theorem SameTable.group {w w' : Server} (h : SameTable w w') (key : BitVec 32) :
    w'.group key = w.group key := by
  simp only [Server.group, h.groups]

/-- A connection of the one is in the other, with the same entry. -/
theorem SameTable.connection {w w' : Server} (h : SameTable w w') {c : Addr} {con : RtpConnection}
    (hc : w.connections[c]? = some con) :
    ∃ con', w'.connections[c]? = some con' ∧ con'.entry = con.entry := by
  have hentry := h.entries c
  rw [hc, Option.map_some, Option.map_eq_some_iff] at hentry
  exact hentry

theorem SameTable.symm {w w' : Server} (h : SameTable w w') : SameTable w' w :=
  ⟨h.groups.symm, h.allocated.symm, fun c => (h.entries c).symm⟩

theorem SameTable.trans {w₁ w₂ w₃ : Server} (h : SameTable w₁ w₂) (h' : SameTable w₂ w₃) :
    SameTable w₁ w₃ :=
  ⟨h'.groups.trans h.groups, h'.allocated.trans h.allocated,
    fun c => (h'.entries c).trans (h.entries c)⟩

theorem RtpConnection.entry_eq {con con' : RtpConnection} (h : con'.entry = con.entry) :
    con'.type = con.type ∧ con'.streamid = con.streamid ∧ con'.mode = con.mode := by
  simp only [RtpConnection.entry, Prod.mk.injEq, RtpConnection.mk.injEq] at h
  exact ⟨h.1.2.2.1, h.1.2.2.2.1, h.2⟩

/-- A connection that is open has a trans of some mode. -/
theorem RtpConnection.mode_isSome (con : RtpConnection) : con.mode.isSome = con.trans.isSome :=
  Option.isSome_map

theorem RtpConnection.isSome_of_entry_eq {con con' : RtpConnection} (h : con'.entry = con.entry) :
    con'.trans.isSome = con.trans.isSome := by
  rw [← con.mode_isSome, ← con'.mode_isSome, (RtpConnection.entry_eq h).2.2]

/-! ## Faults -/

/-- The faults of packets when all pointers lead to live connections. -/
structure TableFaults (E : Fault → Prop) : Prop extends MediaFaults E, SessionFaults E where
  wrongClass : E .wrongClass

/-- Unless the use of a destroyed connection is among the faults, the pointer leads to a live one. -/
def Server.Live (E : Fault → Prop) (w : Server) (c : Addr) : Prop :=
  E .usedAfterDestroy ∨ (w.connections[c]?).isSome

/-- So do all pointers in the groups. -/
def Server.Linked (E : Fault → Prop) (w : Server) : Prop := ∀ key, ∀ c ∈ w.group key, w.Live E c

theorem SameTable.live {E : Fault → Prop} {w w' : Server} (h : SameTable w w') {c : Addr}
    (hc : w.Live E c) : w'.Live E c := by
  rcases hc with hE | hc
  · exact Or.inl hE
  · obtain ⟨con, hcon⟩ := Option.isSome_iff_exists.mp hc
    obtain ⟨con', hcon', -⟩ := h.connection hcon
    exact Or.inr (Option.isSome_iff_exists.mpr ⟨con', hcon'⟩)

theorem SameTable.linked {E : Fault → Prop} {w w' : Server} (h : SameTable w w')
    (hw : w.Linked E) : w'.Linked E := by
  intro key c hc
  rw [h.group] at hc
  exact h.live (hw key c hc)

/-! ## Packets do not change the table -/

theorem AnyTrans.mode_onTimer (t : AnyTrans) (now : Nat) : (t.onTimer now).1.mode = t.mode := by
  cases t <;> rfl

theorem AnyTrans.mode_setTimeBase (t : AnyTrans) (audio video : BitVec 32) :
    (t.setTimeBase audio video).mode = t.mode := by
  cases t <;> rfl

section Packets

variable {E : Fault → Prop} (hE : TableFaults E) {w₀ : Server}

/-- A change inside a trans. -/
theorem SameTable.setTrans {w : Server} (h : SameTable w₀ w) {c : Addr} {con : RtpConnection}
    (hc : w₀.connections[c]? = some con) {t : AnyTrans} (htrans : con.trans = some t)
    (t' : AnyTrans) (hmode : t'.mode = t.mode) : SameTable w₀ (w.setTrans c con t') where
  groups := h.groups
  allocated := h.allocated
  entries := by
    intro a
    rw [Server.setTrans, Server.getElem?_setConnection]
    by_cases hca : c = a
    · subst hca
      rw [if_pos rfl, hc, Option.map_some, Option.map_some]
      simp only [RtpConnection.entry, RtpConnection.mode, htrans, Option.map_some, hmode]
    · rw [if_neg hca]
      exact h.entries a

theorem SameTable.emit {w : Server} (h : SameTable w₀ w) (out : List Output) :
    SameTable w₀ (w.emit out) := ⟨h.groups, h.allocated, h.entries⟩

theorem SameTable.setCache {w : Server} (h : SameTable w₀ w) (cache : RtpCacheManager) :
    SameTable w₀ { w with rtpCache := cache } := ⟨h.groups, h.allocated, h.entries⟩

/-- The connection `w` has at `c` now may be taken for the one it had. -/
theorem SameTable.setTransNow {w : Server} (h : SameTable w₀ w) {c : Addr} {con : RtpConnection}
    (hc : w.connections[c]? = some con) {t : AnyTrans} (htrans : con.trans = some t)
    (t' : AnyTrans) (hmode : t'.mode = t.mode) : SameTable w₀ (w.setTrans c con t') :=
  h.trans ((SameTable.refl w).setTrans hc htrans t' hmode)

include hE in
theorem sendRtp_table {w : Server} (h : SameTable w₀ w) (purpose : Purpose) (c : Addr) (rtp : Rtp)
    (len : Nat) (ssrc : BitVec 32) :
    Ends E (SameTable w₀) (w.sendRtp purpose c rtp len ssrc) := by
  unfold Server.sendRtp
  split
  · exact hE.outOfBounds
  · exact h.emit _

include hE in
theorem sendFecs_table {w : Server} (h : SameTable w₀ w) (c : Addr) (sent : List Sent) :
    Ends E (SameTable w₀) (w.sendFecs c sent) :=
  Ends.foldlM sent (fun _ s _ hw' => sendRtp_table hE hw' .fec c s.1 s.2 0) h

include hE in
theorem sendTransOnHandleRtp_table {env : ServerEnv} {w : Server} (h : SameTable w₀ w) {c : Addr}
    {con : RtpConnection} (hc : w.connections[c]? = some con) {t : RTPSendTrans}
    (htrans : con.trans = some (.send t)) (rtp : Rtp) (len : Nat) :
    Ends E (SameTable w₀) (w.sendTransOnHandleRtp env c con t rtp len) := by
  have hget := managerGetRtpBySeq_ends hE.toMediaFaults w.rtpCache con.streamid
  refine Ends.bind (RTPSendTrans.onHandleRtp_ends hget hE.toMediaFaults env.now t rtp len) ?_
  rintro ⟨t', sent⟩ - -
  exact sendFecs_table hE (h.setTransNow hc htrans (.send t') rfl) c sent

/-- A pointer to a connection of the table is followed safely. -/
theorem connection_table {w : Server} (h : SameTable w₀ w) {c : Addr}
    (hc : w₀.Live E c) : Ends E (fun con => w.connections[c]? = some con) (w.connection c) := by
  unfold Server.connection
  cases hcon : w.connections[c]? with
  | none =>
    refine (h.live hc).resolve_right fun hlive => ?_
    rw [hcon] at hlive
    cases hlive
  | some con => rfl

include hE in
theorem forwardTo_table {env : ServerEnv} {w : Server} (h : SameTable w₀ w) (rtp : Rtp) (len : Nat)
    {c : Addr} (hc : w₀.Live E c) :
    Ends E (fun r => SameTable w₀ r.1) (w.forwardTo env rtp len c) := by
  refine Ends.bind (connection_table h hc) fun con _ hcon => ?_
  split
  · dsimp only
    generalize rtp.setSsrc _ = rtp'
    refine Ends.bind (P := fun w' => SameTable w₀ w' ∧ w'.connections[c]? = some con) ?_ ?_
    · unfold Server.sendRtp
      split
      · exact hE.outOfBounds
      · exact ⟨h.emit _, hcon⟩
    rintro w' - ⟨hw', hcon'⟩
    cases htrans : con.trans with
    | none => exact hE.nullDeref
    | some t =>
      cases t with
      | recv t => exact hE.wrongClass
      | send t =>
        exact Ends.bind (sendTransOnHandleRtp_table hE hw' hcon' htrans rtp' len)
          fun w'' _ hw'' => hw''
  · exact h

include hE in
theorem forwardRtp_table {env : ServerEnv} {w : Server} (h : SameTable w₀ w) (hlinked : w₀.Linked E)
    (id : StreamId) (rtp : Rtp) (len : Nat) :
    Ends E (fun r => SameTable w₀ r.1) (w.forwardRtp env id rtp len) := by
  refine Ends.foldlM _ (fun b c hc hb => ?_) h
  have hmem : c ∈ w₀.members id := by
    rw [Server.members, ← h.group]
    exact hc
  exact forwardTo_table hE hb b.2 len (hlinked _ c hmem)

include hE in
theorem setRtp_table {env : ServerEnv} {w : Server} (h : SameTable w₀ w) (id : StreamId) (rtp : Rtp)
    (len : Nat) : Ends E (SameTable w₀) (w.setRtp env id rtp len) :=
  Ends.bind (managerSetRtp_ends hE.toMediaFaults w.rtpCache env.time id rtp len)
    fun cache _ _ => h.setCache cache

include hE in
/-- What a receiver session reaches leaves the table alone. -/
theorem host_table (env : ServerEnv) (c : Addr) (id : StreamId) (hlinked : w₀.Linked E) :
    (Server.host env c id).Keeps E (SameTable w₀) where
  get w _ := managerGetRtpBySeq_ends hE.toMediaFaults w.rtpCache id
  setRtp _ rtp len h := setRtp_table hE h id rtp len
  forwardRtp _ rtp len h := forwardRtp_table hE h hlinked id rtp len
  recovered _ _ _ h := h.emit _

include hE in
theorem transOnHandleRtp_table {env : ServerEnv} {w : Server} (h : SameTable w₀ w) {c : Addr}
    {con : RtpConnection} (hc : w.connections[c]? = some con)
    (hlinked : w₀.Linked E) (rtp : Rtp) (len : Nat) :
    Ends E (SameTable w₀) (w.transOnHandleRtp env c con rtp len) := by
  unfold Server.transOnHandleRtp
  cases htrans : con.trans with
  | none => exact hE.nullDeref
  | some t =>
    cases t with
    | recv t =>
      refine Ends.bind (RTPRecvTrans.onHandleRtp_ends hE.toSessionFaults
        (host_table hE env c con.streamid (h.linked hlinked)) env.fuel env.now (SameTable.refl w) t
        rtp len) ?_
      intro r _ hr
      exact h.trans (hr.setTrans hc htrans _ rfl)
    | send t => exact sendTransOnHandleRtp_table hE h hc htrans rtp len

include hE in
/-- `OnRecvRtp` leaves the table alone. -/
theorem onRecvRtp_table {env : ServerEnv} {w : Server} (hlinked : w.Linked E) {c : Addr}
    (hc : w.Live E c) (rtp : Rtp) (len : Nat) :
    Ends E (SameTable w) (w.onRecvRtp env c rtp len) := by
  refine Ends.bind (connection_table (SameTable.refl w) hc) fun con _ hcon => ?_
  refine Ends.bind (P := fun w' => SameTable w w' ∧ w'.connections[c]? = some con) ?_ ?_
  · unfold Server.storeMedia
    split
    · exact ⟨SameTable.refl w, hcon⟩
    · exact Ends.bind (managerSetRtp_ends hE.toMediaFaults w.rtpCache env.time _ rtp len)
        fun cache _ _ => ⟨(SameTable.refl w).setCache cache, hcon⟩
  rintro w₁ - ⟨h₁, hcon₁⟩
  refine Ends.bind (transOnHandleRtp_table hE h₁ hcon₁ hlinked rtp len) fun w₂ _ h₂ => ?_
  unfold Server.forwardMedia
  split
  · exact h₂
  · exact Ends.bind (forwardRtp_table hE h₂ hlinked _ rtp len) fun r _ hr => hr

include hE in
theorem transOnHandleRtcp_table {env : ServerEnv} {w : Server} {c : Addr} {con : RtpConnection}
    (hc : w.connections[c]? = some con) (info : RTCPPacketInformation) :
    Ends E (SameTable w) (w.transOnHandleRtcp env c con info) := by
  unfold Server.transOnHandleRtcp
  cases htrans : con.trans with
  | none => exact hE.nullDeref
  | some t =>
    cases t with
    | recv t => exact (SameTable.refl w).setTrans hc htrans _ rfl
    | send t =>
      have hget := managerGetRtpBySeq_ends hE.toMediaFaults w.rtpCache con.streamid
      refine Ends.bind (RTPSendTrans.onHandleRtcp_ends hget env.rttMs t info env.now) ?_
      intro r _ _
      refine Ends.foldlM _ (fun w' e _ hw' => ?_) ((SameTable.refl w).setTrans hc htrans _ rfl)
      obtain ⟨video, seq⟩ := e
      dsimp only
      unfold Server.sendNackRtp
      split
      · have hget' := managerGetRtpBySeq_ends hE.toMediaFaults w'.rtpCache con.streamid
        refine Ends.bind (hget' video seq) fun found _ _ => ?_
        obtain ⟨rtp, len⟩ := found
        cases rtp with
        | none => exact hE.nullDeref
        | some rtp => exact sendRtp_table hE hw' _ c rtp len _
      · exact hw'

include hE in
theorem forwardRtcp_table {env : ServerEnv} {w : Server} (h : SameTable w₀ w)
    (hlinked : w₀.Linked E) (id : StreamId) (type : RTPAVType) (info : RTCPPacketInformation) :
    Ends E (SameTable w₀) (w.forwardRtcp env id type info) := by
  refine Ends.foldlM _ (fun w' c hc hw' => ?_) h
  have hmem : c ∈ w₀.members id := by
    rw [Server.members, ← h.group]
    exact hc
  refine Ends.bind (connection_table hw' (hlinked _ c hmem)) fun con _ hcon => ?_
  split
  · cases htrans : con.trans with
    | none => exact hE.nullDeref
    | some t =>
      cases t with
      | recv t => exact hE.wrongClass
      | send t =>
        dsimp only
        generalize t.onUploaderNtp _ _ _ _ _ = reported
        obtain ⟨t', sent⟩ := reported
        exact (hw'.setTransNow hcon htrans (.send t') rfl).emit _
  · exact hw'

include hE in
/-- `OnRecvRtcp` leaves the table alone. -/
theorem onRecvRtcp_table {env : ServerEnv} {w : Server} (hlinked : w.Linked E) {c : Addr}
    (hc : w.Live E c) (rtcp : List Byte) :
    Ends E (SameTable w) (w.onRecvRtcp env c rtcp) := by
  refine Ends.bind (connection_table (SameTable.refl w) hc) fun con _ hcon => ?_
  refine Ends.bind (transOnHandleRtcp_table hE hcon _) fun w₁ _ h₁ => ?_
  split
  · exact h₁
  · split
    · refine Ends.bind (connection_table h₁ hc) fun con₁ _ hcon₁ => ?_
      cases con₁.trans with
      | none => exact hE.nullDeref
      | some t =>
        dsimp only
        split
        · exact h₁
        · exact forwardRtcp_table hE h₁ hlinked _ _ _
    · exact h₁

include hE in
/-- An SDP leaves the table alone. -/
theorem setSdp_table {env : ServerEnv} {w : Server} (hlinked : w.Linked E) (id : StreamId)
    (sdp : SdpText) :
    Ends E (SameTable w) (w.setSdp env id sdp) := by
  have hsdp : SameTable w
      ({ w with rtpCache := w.rtpCache.setSdp env.sdpInfo env.time id sdp }.onSdp id sdp) := by
    unfold Server.onSdp
    dsimp only
    split
    · exact (SameTable.refl w).setCache _
    · exact ⟨rfl, rfl, fun _ => rfl⟩
  refine Ends.foldlM _ (fun w' c hc hw' => ?_) hsdp
  have hmem : c ∈ w.members id := by
    rw [Server.members, ← hsdp.group]
    exact hc
  refine Ends.bind (connection_table hw' (hlinked _ c hmem)) fun con _ hcon => ?_
  cases htrans : con.trans with
  | none => exact hE.nullDeref
  | some t =>
    exact hw'.setTransNow hcon htrans _ (AnyTrans.mode_setTimeBase t _ _)

include hE in
/-- One connection of `OnTimerImpl`. -/
theorem timerOf_table {env : ServerEnv} {r : Server × TreeSet Addr} (h : SameTable w₀ r.1) {c : Addr}
    (hc : w₀.Live E c) :
    Ends E (fun r' => SameTable w₀ r'.1 ∧ ∀ a ∈ r'.2, a = c ∨ a ∈ r.2) (Server.timerOf env r c) := by
  obtain ⟨w, trash⟩ := r
  refine Ends.bind (connection_table h hc) fun con _ hcon => ?_
  cases htrans : con.trans with
  | none => exact hE.nullDeref
  | some t =>
    have hmode := t.mode_onTimer env.now
    dsimp only
    revert hmode
    generalize t.onTimer env.now = timed
    intro hmode
    obtain ⟨t', alive⟩ := timed
    refine ⟨h.setTransNow hcon htrans t' hmode, fun a ha => ?_⟩
    cases alive with
    | true => exact Or.inr ha
    | false =>
      rcases TreeSet.mem_insert.mp ha with hac | ha
      · exact Or.inl (Nat.compare_eq_eq.mp hac).symm
      · exact Or.inr ha

end Packets

/-! ## Any fault -/

/-- Where only the states that are reached matter, every fault is allowed. -/
def AnyFault (_ : Fault) : Prop := True

theorem tableFaults_any : TableFaults AnyFault where
  outOfBounds := trivial
  outOfFuel := trivial
  assertFailed := trivial
  nullDeref := trivial
  divideByZero := trivial
  wrongClass := trivial

theorem ends_any {α : Type} (x : Except Fault α) : Ends AnyFault (fun _ => True) x := by
  cases x with
  | ok a => trivial
  | error e => trivial

theorem coupled_any {α : Type} (x : Except Fault α) : Coupled AnyFault Eq x x := Coupled.same x

theorem Server.live_any (w : Server) (c : Addr) : w.Live AnyFault c := Or.inl trivial

theorem Server.linked_any (w : Server) : w.Linked AnyFault := fun _ c _ => w.live_any c

end RtcMcu.ConnectionManager
