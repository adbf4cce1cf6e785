import RtcMcu.ConnectionManager.Groups

/-!
# The connection table

The table is consistent when the groups are exactly the connections that have a trans, each in the
group of its stream, with at most one uploader in a group. Packets do not change the table
(`SameTable`), a request puts a connection into a group, `Destroy` takes one out.

Two requests break it. A second uploader makes `_open_trans` destroy the first one in the middle of
the walk over their group; the uploader that asks again, or a player of the stream that turns into
an uploader, is itself one it destroys. A request of a connection that is open for another stream
leaves it in both groups. In a run without them the table stays consistent, and no connection is
used after it was destroyed (`run_table`).
-/

namespace RtcMcu.ConnectionManager

open RtcMcu.Avformat RtcMcu.MediaManager RtcMcu.RtpTrans RtcMcu.Coupling Std

/-! ## Consistency -/

/-- The groups are the connections that have a trans, by stream, with one uploader at most. -/
structure Server.Consistent (w : Server) : Prop where
  /-- a live connection with a trans is in the group of its stream and in no other -/
  opened : ∀ (c : Addr) con, w.connections[c]? = some con → con.trans.isSome →
    ∀ key, c ∈ w.group key ↔ key = get32bitStreamId con.streamid
  /-- a member of a group is a live connection with a trans -/
  member : ∀ key c, c ∈ w.group key → ∃ con, w.connections[c]? = some con ∧ con.trans.isSome
  /-- a group has at most one uploader -/
  oneUploader : ∀ key a b conA conB, a ∈ w.group key → b ∈ w.group key →
    w.connections[a]? = some conA → w.connections[b]? = some conB →
    conA.isUploader → conB.isUploader → a = b

/-- A consistent table whose connections stand at addresses that were given out. -/
structure Server.Table (w : Server) : Prop extends w.Consistent where
  allocated : ∀ (c : Addr) con, w.connections[c]? = some con → c ∈ w.allocated

/-- A fault that neither uses a destroyed connection nor a stale iterator. -/
def SparesTable (f : Fault) : Prop := f ≠ .staleIterator ∧ f ≠ .usedAfterDestroy

theorem tableFaults_sparesTable : TableFaults SparesTable where
  outOfBounds := ⟨nofun, nofun⟩
  outOfFuel := ⟨nofun, nofun⟩
  assertFailed := ⟨nofun, nofun⟩
  nullDeref := ⟨nofun, nofun⟩
  divideByZero := ⟨nofun, nofun⟩
  wrongClass := ⟨nofun, nofun⟩

/-- Members of the groups of a consistent table are live. -/
theorem Server.Table.linked {w : Server} (hw : w.Table) : w.Linked SparesTable := by
  intro key c hc
  obtain ⟨con, hcon, -⟩ := hw.member key c hc
  exact Or.inr (Option.isSome_iff_exists.mpr ⟨con, hcon⟩)

/-- Consistency is a matter of the table. -/
theorem Server.Table.sameTable {w w' : Server} (hw : w.Table) (h : SameTable w w') : w'.Table where
  opened := by
    intro c con' hc hopen key
    obtain ⟨con, hcon, hentry⟩ := h.symm.connection hc
    rw [h.group, ← (RtpConnection.entry_eq hentry).2.1]
    exact hw.opened c con hcon (RtpConnection.isSome_of_entry_eq hentry ▸ hopen) key
  member := by
    intro key c hc
    rw [h.group] at hc
    obtain ⟨con, hcon, hopen⟩ := hw.member key c hc
    obtain ⟨con', hcon', hentry⟩ := h.connection hcon
    exact ⟨con', hcon', RtpConnection.isSome_of_entry_eq hentry ▸ hopen⟩
  oneUploader := by
    intro key a b conA conB ha hb hA hB hupA hupB
    rw [h.group] at ha hb
    obtain ⟨conA', hA', hentryA⟩ := h.symm.connection hA
    obtain ⟨conB', hB', hentryB⟩ := h.symm.connection hB
    refine hw.oneUploader key a b conA' conB' ha hb hA' hB' ?_ ?_
    · simpa only [RtpConnection.isUploader, (RtpConnection.entry_eq hentryA).1] using hupA
    · simpa only [RtpConnection.isUploader, (RtpConnection.entry_eq hentryB).1] using hupB
  allocated := by
    intro c con' hc
    obtain ⟨con, hcon, -⟩ := h.symm.connection hc
    rw [h.allocated]
    exact hw.allocated c con hcon

/-! ## Closing -/

/-- `Destroy` takes a connection out of a consistent table. -/
theorem Server.Table.destroy {w : Server} (hw : w.Table) {c : Addr} {con : RtpConnection}
    (hc : w.connections[c]? = some con) :
    ∃ w', w.destroy c = .ok w' ∧ w'.Table ∧ Destroyed w c con w' := by
  obtain ⟨w', hdestroy, hd⟩ := destroy_ok hc
  have hgroup : ∀ key a, a ∈ w'.group key ↔ a ∈ w.group key ∧ a ≠ c := by
    intro key a
    rw [hd.group]
    refine and_congr_right fun ha => ?_
    constructor
    · rintro h rfl
      obtain ⟨con', hcon', hopen⟩ := hw.member key a ha
      cases hc.symm.trans hcon'
      exact h ⟨hopen, (hw.opened a con hc hopen key).mp ha, rfl⟩
    · rintro hne ⟨-, -, rfl⟩
      exact hne rfl
  refine ⟨w', hdestroy, { opened := ?_, member := ?_, oneUploader := ?_, allocated := ?_ }, hd⟩
  · intro a conA hA hopen key
    obtain ⟨hne, hA⟩ := hd.connection hA
    exact (hgroup key a).trans
      ⟨fun h => (hw.opened a conA hA hopen key).mp h.1,
        fun h => ⟨(hw.opened a conA hA hopen key).mpr h, hne⟩⟩
  · intro key a ha
    obtain ⟨ha, hne⟩ := (hgroup key a).mp ha
    obtain ⟨conA, hA, hopen⟩ := hw.member key a ha
    exact ⟨conA, by rw [hd.connections, if_neg (Ne.symm hne), hA], hopen⟩
  · intro key a b conA conB ha hb hA hB hupA hupB
    exact hw.oneUploader key a b conA conB ((hgroup key a).mp ha).1 ((hgroup key b).mp hb).1
      (hd.connection hA).2 (hd.connection hB).2 hupA hupB
  · intro a conA hA
    rw [hd.allocated]
    exact hw.allocated a conA (hd.connection hA).2

/-- Connections that are live and distinct can be destroyed one after the other. -/
theorem Server.Table.destroyAll {w : Server} (hw : w.Table) (cs : List Addr) (hnodup : cs.Nodup)
    (hlive : ∀ c ∈ cs, (w.connections[c]?).isSome) :
    Ends SparesTable Server.Table (cs.foldlM Server.destroy w) := by
  induction cs generalizing w with
  | nil => exact hw
  | cons c cs ih =>
    obtain ⟨con, hcon⟩ := Option.isSome_iff_exists.mp (hlive c List.mem_cons_self)
    obtain ⟨w', hdestroy, hw', hd⟩ := hw.destroy hcon
    rw [List.foldlM_cons, hdestroy, ok_bind]
    obtain ⟨hnotin, hnodup⟩ := List.nodup_cons.mp hnodup
    refine ih hw' hnodup fun a ha => ?_
    have hne : c ≠ a := fun h => hnotin (h ▸ ha)
    rw [hd.connections, if_neg hne]
    exact hlive a (List.mem_cons_of_mem c ha)

/-! ## Opening -/

/-- A connection may join its group if it is in no other, and, as an uploader, if the group has none
besides it. -/
theorem Server.Table.join {w : Server} (hw : w.Table) {c : Addr} {con : RtpConnection}
    (hc : c ∈ w.allocated)
    (hstay : ∀ key, c ∈ w.group key → key = get32bitStreamId con.streamid)
    (hup : con.isUploader → ∀ a ∈ w.group (get32bitStreamId con.streamid), ∀ conA,
      w.connections[a]? = some conA → conA.isUploader → a = c)
    (t : AnyTrans) : (w.join c con t).Table := by
  have hconns : ∀ a : Addr, (w.join c con t).connections[a]? =
      if c = a then some { con with trans := some t } else w.connections[a]? :=
    Server.getElem?_setConnection w c { con with trans := some t }
  refine { opened := ?_, member := ?_, oneUploader := ?_, allocated := ?_ }
  · intro a conA hA hopen key
    rw [hconns] at hA
    rw [mem_group_join]
    split at hA
    · rename_i hca
      subst hca
      cases hA
      exact ⟨fun h => h.elim (hstay key) fun h => h.1, fun h => Or.inr ⟨h, rfl⟩⟩
    · rename_i hne
      rw [hw.opened a conA hA hopen key]
      exact ⟨fun h => h.elim id fun h => (hne h.2.symm).elim, Or.inl⟩
  · intro key a ha
    rw [hconns]
    split
    · exact ⟨_, rfl, rfl⟩
    · rename_i hne
      rcases mem_group_join.mp ha with ha | ⟨-, ha⟩
      · exact hw.member key a ha
      · exact (hne ha.symm).elim
  · intro key a b conA conB ha hb hA hB hupA hupB
    rw [hconns] at hA hB
    rw [mem_group_join] at ha hb
    split at hA
    · rename_i hca
      cases hA
      subst hca
      split at hB
      · assumption
      · rename_i hne
        rcases hb with hb | ⟨-, hb⟩
        · have hkey : key = get32bitStreamId con.streamid :=
            ha.elim (hstay key) fun h => h.1
          exact (hup hupA b (hkey ▸ hb) conB hB hupB).symm
        · exact (hne hb.symm).elim
    · rename_i hneA
      rcases ha with ha | ⟨-, ha⟩
      · split at hB
        · rename_i hcb
          cases hB
          subst hcb
          have hkey : key = get32bitStreamId con.streamid :=
            hb.elim (hstay key) fun h => h.1
          exact hup hupB a (hkey ▸ ha) conA hA hupA
        · rename_i hneB
          rcases hb with hb | ⟨-, hb⟩
          · exact hw.oneUploader key a b conA conB ha hb hA hB hupA hupB
          · exact (hneB hb.symm).elim
      · exact (hneA ha.symm).elim
  · intro a conA hA
    show a ∈ w.allocated
    rw [hconns] at hA
    split at hA
    · rename_i hca
      exact hca ▸ hc
    · exact hw.allocated a conA hA

/-- A connection changes its type and its stream. If it is open, it stays in its group and becomes
no uploader it was not. -/
theorem Server.Table.setConnection {w : Server} (hw : w.Table) {c : Addr}
    {con con' : RtpConnection} (hc : w.connections[c]? = some con) (htrans : con'.trans = con.trans)
    (hopen : con.trans.isSome → get32bitStreamId con'.streamid = get32bitStreamId con.streamid ∧
      (con'.isUploader → con.isUploader)) : (w.setConnection c con').Table := by
  refine { opened := ?_, member := ?_, oneUploader := ?_, allocated := ?_ }
  · intro a conA hA hopenA key
    rw [Server.getElem?_setConnection] at hA
    split at hA
    · rename_i hca
      subst hca
      cases hA
      rw [htrans] at hopenA
      rw [(hopen hopenA).1]
      exact hw.opened c con hc hopenA key
    · exact hw.opened a conA hA hopenA key
  · intro key a ha
    rw [Server.getElem?_setConnection]
    split
    · rename_i hca
      subst hca
      obtain ⟨con₁, hcon₁, hopen₁⟩ := hw.member key c ha
      cases hc.symm.trans hcon₁
      exact ⟨con', rfl, htrans ▸ hopen₁⟩
    · exact hw.member key a ha
  · intro key a b conA conB ha hb hA hB hupA hupB
    -- an uploader now was one before
    have hback : ∀ a ∈ w.group key, ∀ conA, (w.setConnection c con').connections[a]? = some conA →
        conA.isUploader → ∃ conA₀, w.connections[a]? = some conA₀ ∧ conA₀.isUploader := by
      intro a ha conA hA hupA
      rw [Server.getElem?_setConnection] at hA
      split at hA
      · rename_i hca
        subst hca
        cases hA
        obtain ⟨con₁, hcon₁, hopen₁⟩ := hw.member key c ha
        cases hc.symm.trans hcon₁
        exact ⟨con, hc, (hopen hopen₁).2 hupA⟩
      · exact ⟨conA, hA, hupA⟩
    obtain ⟨conA₀, hA₀, hupA₀⟩ := hback a ha conA hA hupA
    obtain ⟨conB₀, hB₀, hupB₀⟩ := hback b hb conB hB hupB
    exact hw.oneUploader key a b conA₀ conB₀ ha hb hA₀ hB₀ hupA₀ hupB₀
  · intro a conA hA
    show a ∈ w.allocated
    rw [Server.getElem?_setConnection] at hA
    split at hA
    · rename_i hca
      exact hca ▸ hw.allocated c con hc
    · exact hw.allocated a conA hA

/-- `_open_trans` of a player leaves a consistent table. -/
theorem Server.Table.openPlayer {env : ServerEnv} {w : Server} (hw : w.Table) {c : Addr}
    {con : RtpConnection} (hc : w.connections[c]? = some con) (hplayer : con.isPlayer)
    (config : RTPTransConfig) :
    Ends SparesTable Server.Table (w.openTrans env c config) := by
  rw [Server.openTrans, Server.connection_eq_ok.mpr hc, ok_bind, if_pos hplayer, Server.openPlayer,
    Server.connection_eq_ok.mpr hc, ok_bind]
  refine Ends.bind (managerGetSdp_ends tableFaults_sparesTable.toMediaFaults env.sdpInfo w.rtpCache con.streamid) ?_
  intro sdp _ _
  refine hw.join (hw.allocated c con hc) ?_ ?_ _
  · intro key hkey
    obtain ⟨con₁, hcon₁, hopen⟩ := hw.member key c hkey
    cases hc.symm.trans hcon₁
    exact (hw.opened c con hc hopen key).mp hkey
  · intro hup
    simp only [RtpConnection.isPlayer, beq_iff_eq] at hplayer
    simp only [RtpConnection.isUploader, hplayer] at hup
    cases hup

/-- `_open_trans` of the first uploader of a stream leaves a consistent table. -/
theorem Server.Table.openUploader {env : ServerEnv} {w : Server} (hw : w.Table) {c : Addr}
    {con : RtpConnection} (hc : w.connections[c]? = some con) (hplayer : con.isPlayer = false)
    (hclosed : con.trans = none) (hfree : w.hasUploader con.streamid = false)
    (config : RTPTransConfig) :
    Ends SparesTable Server.Table (w.openTrans env c config) := by
  have hmembers : ∀ a ∈ w.members con.streamid, ∃ conA, w.connections[a]? = some conA ∧
      conA.isUploader = false := by
    intro a ha
    obtain ⟨conA, hA, -⟩ := hw.member _ a ha
    refine ⟨conA, hA, ?_⟩
    have hnot := List.any_eq_false.mp hfree a ha
    rw [hA, Option.any_some] at hnot
    exact Bool.eq_false_iff.mpr hnot
  rw [Server.openTrans, Server.connection_eq_ok.mpr hc, ok_bind, hplayer]
  simp only [Bool.false_eq_true, ↓reduceIte]
  rw [Server.openUploader, Server.connection_eq_ok.mpr hc, ok_bind,
    destroyUploaders_none con.streamid _ hmembers, ok_bind, Server.connection_eq_ok.mpr hc, ok_bind]
  refine hw.join (hw.allocated c con hc) ?_ ?_ _
  · intro key hkey
    obtain ⟨con₁, hcon₁, hopen⟩ := hw.member key c hkey
    cases hc.symm.trans hcon₁
    rw [hclosed] at hopen
    cases hopen
  · intro _ a ha conA hA hupA
    obtain ⟨conA', hA', hnot⟩ := hmembers a ha
    cases hA.symm.trans hA'
    rw [hnot] at hupA
    cases hupA

/-! ## Timers -/

/-- `RTPTransManager::OnTimerImpl` leaves a consistent table. -/
theorem Server.Table.onTimer {env : ServerEnv} {w : Server} (hw : w.Table) :
    Ends SparesTable Server.Table (w.onTimer env) := by
  have hmembers : ∀ c ∈ w.streamGroups.toList.flatMap (fun e => e.2.toList),
      (w.connections[c]?).isSome := by
    intro c hc
    obtain ⟨⟨key, group⟩, hmem, hc⟩ := List.mem_flatMap.mp hc
    have hgroup := TreeMap.mem_toList_iff_getElem?_eq_some.mp hmem
    obtain ⟨con, hcon, -⟩ := hw.member key c
      (Server.mem_group.mpr ⟨group, hgroup, TreeSet.mem_toList.mp hc⟩)
    rw [hcon]
    rfl
  refine Ends.bind (P := fun r => SameTable w r.1 ∧ ∀ c ∈ r.2, (w.connections[c]?).isSome) ?_ ?_
  · refine Ends.foldlM _ (fun r c hc hr => ?_) ⟨SameTable.refl w, fun c hc => ?_⟩
    · refine (timerOf_table tableFaults_sparesTable hr.1 (Or.inr (hmembers c hc))).mono ?_
      rintro r' - ⟨hsame, htrash⟩
      refine ⟨hsame, fun a ha => ?_⟩
      rcases htrash a ha with rfl | ha
      · exact hmembers a hc
      · exact hr.2 a ha
    · exact absurd hc TreeSet.not_mem_emptyc
  · rintro ⟨w', trash⟩ - ⟨hsame, htrash⟩
    refine (hw.sameTable hsame).destroyAll trash.toList ?_ ?_
    · exact TreeSet.distinct_toList.imp fun h heq => h (Nat.compare_eq_eq.mpr heq)
    · intro c hc
      obtain ⟨con, hcon⟩ := Option.isSome_iff_exists.mp (htrash c (TreeSet.mem_toList.mp hc))
      obtain ⟨con', hcon', -⟩ := hsame.connection hcon
      rw [hcon']
      rfl

/-! ## Steps -/

/-- No request of the event breaks the table: an uploader opens a stream that has none, on a
connection not opened before, and a connection that is open asks for a stream of its own group. -/
def Server.orderly (w : Server) : Event → Bool
  | .packet c buf =>
    match w.connections[c]? with
    | none => true
    | some con =>
      match requestOf con.udp buf with
      | none => true
      | some (type, id) =>
        (type != .uploader || con.trans.isNone && !w.hasUploader id) &&
          (con.trans.isNone || get32bitStreamId id == get32bitStreamId con.streamid)
  | .pull c id => w.allocated.contains c || !w.hasUploader id
  | _ => true

theorem Server.orderly_packet {w : Server} {c : Addr} {buf : ReadBuffer} {con : RtpConnection}
    {type : ConnectionType} {id : StreamId} (h : w.orderly (.packet c buf) = true)
    (hc : w.connections[c]? = some con) (hreq : requestOf con.udp buf = some (type, id)) :
    (type = .uploader → con.trans = none ∧ w.hasUploader id = false) ∧
      (con.trans.isSome → get32bitStreamId id = get32bitStreamId con.streamid) := by
  simp only [Server.orderly, hc, hreq, Bool.and_eq_true, Bool.or_eq_true, bne_iff_ne, ne_eq,
    Option.isNone_iff_eq_none, Bool.not_eq_true', beq_iff_eq] at h
  refine ⟨fun htype => (h.1.resolve_left (fun hne => hne htype)), fun hopen => ?_⟩
  refine h.2.resolve_left fun hnone => ?_
  rw [hnone] at hopen
  cases hopen

theorem Server.Table.destroyEnds {w : Server} (hw : w.Table) {c : Addr} {con : RtpConnection}
    (hc : w.connections[c]? = some con) : Ends SparesTable Server.Table (w.destroy c) := by
  obtain ⟨w', hdestroy, hw', -⟩ := hw.destroy hc
  rw [hdestroy]
  exact hw'

/-- A connection whose type was changed by a request that could not be read is destroyed all the
same. -/
theorem Server.Table.destroyChanged {w : Server} (hw : w.Table) {c : Addr} {con : RtpConnection}
    (hc : w.connections[c]? = some con) (type : ConnectionType) :
    Ends SparesTable Server.Table
      ((w.setConnection c { con with type := type }).destroy c) := by
  obtain ⟨w₁, hdestroy₁, hw₁, hd₁⟩ := hw.destroy hc
  have hc' : (w.setConnection c { con with type := type }).connections[c]? =
      some { con with type := type } := by
    rw [Server.getElem?_setConnection, if_pos rfl]
  obtain ⟨w₂, hdestroy₂, hd₂⟩ := destroy_ok hc'
  rw [hdestroy₂]
  -- both destructions leave the same table
  have hgroups : w₂.streamGroups = w₁.streamGroups := by
    rw [hd₂.streamGroups, hd₁.streamGroups]
    unfold Server.closeTrans
    cases con.trans <;> rfl
  refine hw₁.sameTable ⟨hgroups, hd₂.allocated.trans hd₁.allocated.symm, fun a => ?_⟩
  rw [hd₂.connections, hd₁.connections, Server.getElem?_setConnection]
  by_cases hca : c = a
  · rw [if_pos hca, if_pos hca]
  · rw [if_neg hca, if_neg hca, if_neg hca]

/-- `HasUploader` looks at the members of the group only. -/
theorem hasUploader_congr {w w' : Server} {id : StreamId} (hgroups : w'.streamGroups = w.streamGroups)
    (h : ∀ a ∈ w.members id, w'.connections[a]? = w.connections[a]?) :
    w'.hasUploader id = w.hasUploader id := by
  have hmembers : w'.members id = w.members id := by
    simp only [Server.members, Server.group, hgroups]
  rw [Bool.eq_iff_iff, Server.hasUploader, Server.hasUploader, List.any_eq_true, List.any_eq_true,
    hmembers]
  exact exists_congr fun a => and_congr_right fun ha => by rw [h a ha]

theorem hasUploader_setConnection {w : Server} (hw : w.Table) {c : Addr} {con con' : RtpConnection}
    (hc : w.connections[c]? = some con) (hclosed : con.trans = none) (id : StreamId) :
    (w.setConnection c con').hasUploader id = w.hasUploader id := by
  refine hasUploader_congr rfl fun a ha => ?_
  rw [Server.getElem?_setConnection, if_neg]
  rintro rfl
  obtain ⟨con₁, hcon₁, hopen⟩ := hw.member _ c ha
  cases hc.symm.trans hcon₁
  rw [hclosed] at hopen
  cases hopen

/-- What is left to show of `OnReadPacket`: the table, or that the connection can be destroyed. -/
def ReadEnds (c : Addr) (r : Server × Int) : Prop :=
  if r.2 < 0 then Ends SparesTable Server.Table (r.1.destroy c) else r.1.Table

/-- A REQ_STATE. -/
theorem onReqState_table {env : ServerEnv} {w : Server} (hw : w.Table) {c : Addr}
    {con : RtpConnection} (hc : w.connections[c]? = some con) (type : ConnectionType)
    (config : RTPTransConfig) {id : Option StreamId} {failed : Int} (hfailed : failed < 0)
    (htype : type ≠ .unknown)
    (horderly : ∀ id', id = some id' →
      (type = .uploader → con.trans = none ∧ w.hasUploader id' = false) ∧
      (con.trans.isSome → get32bitStreamId id' = get32bitStreamId con.streamid)) :
    Ends SparesTable (ReadEnds c)
      ((w.setConnection c { con with type := type }).onReqState env c config id failed) := by
  cases id with
  | none =>
    refine (?_ : ReadEnds c _)
    rw [ReadEnds, if_pos hfailed]
    exact hw.destroyChanged hc type
  | some id =>
    obtain ⟨huploader, hstay⟩ := horderly id rfl
    have hc' : (w.setConnection c { con with type := type }).connections[c]? =
        some { con with type := type } := by
      rw [Server.getElem?_setConnection, if_pos rfl]
    have hsame : SameTable (w.setConnection c { con with type := type, streamid := id })
        ((w.setConnection c { con with type := type }).setConnection c
          { con with type := type, streamid := id }) := by
      refine ⟨rfl, rfl, fun a => ?_⟩
      rw [Server.getElem?_setConnection, Server.getElem?_setConnection,
        Server.getElem?_setConnection]
      by_cases hca : c = a
      · rw [if_pos hca, if_pos hca]
      · rw [if_neg hca, if_neg hca, if_neg hca]
    have hlast : ((w.setConnection c { con with type := type }).setConnection c
        { con with type := type, streamid := id }).connections[c]? =
        some { con with type := type, streamid := id } := by
      rw [Server.getElem?_setConnection, if_pos rfl]
    have htable : (w.setConnection c { con with type := type, streamid := id }).Table := by
      refine hw.setConnection hc rfl fun hopen => ⟨hstay hopen, fun hup => ?_⟩
      simp only [RtpConnection.isUploader, beq_iff_eq] at hup
      rw [(huploader hup).1] at hopen
      cases hopen
    have hopened : Ends SparesTable Server.Table
        (((w.setConnection c { con with type := type }).setConnection c
          { con with type := type, streamid := id }).openTrans env c config) := by
      cases type with
      | unknown => exact absurd rfl htype
      | player => exact (htable.sameTable hsame).openPlayer hlast rfl config
      | uploader =>
        obtain ⟨hclosed, hfree⟩ := huploader rfl
        refine (htable.sameTable hsame).openUploader hlast rfl hclosed ?_ config
        have hset : (w.setConnection c { con with type := .uploader }).Table :=
          hw.setConnection hc rfl fun hopen => by
            rw [hclosed] at hopen
            cases hopen
        rw [hasUploader_setConnection hset hc' hclosed, hasUploader_setConnection hw hc hclosed]
        exact hfree
    rw [Server.onReqState, Server.connection_eq_ok.mpr hc', ok_bind]
    refine Ends.bind hopened fun w' _ hw' => ?_
    exact hw'.sameTable ⟨rfl, rfl, fun _ => rfl⟩

/-- `OnReadPacket` of a packet without a request that breaks the table. -/
theorem onReadPacket_table {env : ServerEnv} {w : Server} (hw : w.Table) {c : Addr}
    {con : RtpConnection} (hc : w.connections[c]? = some con) {buf : ReadBuffer}
    (horderly : w.orderly (.packet c buf) = true) :
    Ends SparesTable (ReadEnds c) (w.onReadPacket env c buf) := by
  have hlive : (w.connections[c]?).isSome := by
    rw [hc]
    rfl
  have hfailed : ∀ ret : Int, ret < 0 → ReadEnds c (w, ret) := by
    intro ret hret
    rw [ReadEnds, if_pos hret]
    exact hw.destroyEnds hc
  have hdone : ∀ w' : Server, SameTable w w' → ReadEnds c (w', 1) := by
    intro w' h
    exact hw.sameTable h
  rw [Server.onReadPacket, Server.connection_eq_ok.mpr hc, ok_bind]
  cases hheader : readHeader con.udp buf with
  | error ret =>
    by_cases hret : ret < 0
    · exact hfailed ret hret
    · refine (?_ : ReadEnds c _)
      rw [ReadEnds, if_neg hret]
      exact hw
  | ok h =>
    dsimp only
    have hreq : ∀ type id, requestOf con.udp buf = some (type, id) →
        (type = .uploader → con.trans = none ∧ w.hasUploader id = false) ∧
        (con.trans.isSome → get32bitStreamId id = get32bitStreamId con.streamid) :=
      fun type id => Server.orderly_packet horderly hc
    simp only [requestOf, hheader] at hreq
    rw [Server.onCommand, Server.connection_eq_ok.mpr hc, ok_bind]
    by_cases hu2r : h.cmd = CMD_RTP_U2R_REQ_STATE
    · rw [if_pos hu2r]
      simp only [if_pos hu2r] at hreq
      cases hdecode : decodeU2rReqState h buf with
      | error f =>
        unfold decodeU2rReqState at hdecode
        split at hdecode
        · cases hdecode
          exact tableFaults_sparesTable.assertFailed
        · split at hdecode <;> cases hdecode
      | ok id =>
        rw [ok_bind]
        refine onReqState_table hw hc .uploader _ (by decide) nofun fun id' hid => ?_
        refine hreq .uploader id' ?_
        rw [hdecode, hid]
    · rw [if_neg hu2r]
      simp only [if_neg hu2r] at hreq
      by_cases hd2p : h.cmd = CMD_RTP_D2P_REQ_STATE
      · rw [if_pos hd2p]
        simp only [if_pos hd2p] at hreq
        cases hdecode : decodeD2pReqState h buf with
        | error f =>
          unfold decodeD2pReqState at hdecode
          split at hdecode
          · cases hdecode
            exact tableFaults_sparesTable.assertFailed
          · split at hdecode <;> cases hdecode
        | ok id =>
          rw [ok_bind]
          refine onReqState_table hw hc .player _ (by decide) nofun fun id' hid => ?_
          refine hreq .player id' ?_
          rw [hdecode, hid]
      · rw [if_neg hd2p]
        split
        · exact hdone w (SameTable.refl w)
        · split
          · split
            · exact hfailed (-5) (by decide)
            · split
              · exact tableFaults_sparesTable.outOfBounds
              · exact Ends.bind (onRecvRtp_table tableFaults_sparesTable hw.linked (Or.inr hlive) _ _) fun w' _ hw' => hdone w' hw'
          · split
            · split
              · exact hfailed (-5) (by decide)
              · refine Ends.bind (P := fun _ => True) ?_ fun rtcp _ _ => ?_
                · unfold messageRtcp
                  dsimp only
                  split
                  · exact tableFaults_sparesTable.outOfBounds
                  · trivial
                · exact Ends.bind (onRecvRtcp_table tableFaults_sparesTable hw.linked (Or.inr hlive) rtcp) fun w' _ hw' => hdone w' hw'
            · exact hfailed (-6) (by decide)

/-- A connection at a fresh address. -/
theorem Server.Table.accept {w : Server} (hw : w.Table) {c : Addr} (hfresh : c ∉ w.allocated)
    {con : RtpConnection} (hclosed : con.trans = none) : (w.accept c con).Table := by
  have hnone : ∀ (a : Addr) con', w.connections[a]? = some con' → c ≠ a :=
    fun a con' h hca => hfresh (hca ▸ hw.allocated a con' h)
  have hconns : ∀ a : Addr, (w.accept c con).connections[a]? =
      if c = a then some con else w.connections[a]? := Server.getElem?_setConnection w c con
  refine { opened := ?_, member := ?_, oneUploader := ?_, allocated := ?_ }
  · intro a conA hA hopen key
    rw [hconns] at hA
    split at hA
    · cases hA
      rw [hclosed] at hopen
      cases hopen
    · exact hw.opened a conA hA hopen key
  · intro key a ha
    obtain ⟨conA, hA, hopen⟩ := hw.member key a ha
    rw [hconns, if_neg (hnone a conA hA)]
    exact ⟨conA, hA, hopen⟩
  · intro key a b conA conB ha hb hA hB hupA hupB
    obtain ⟨conA', hA', -⟩ := hw.member key a ha
    obtain ⟨conB', hB', -⟩ := hw.member key b hb
    rw [hconns, if_neg (hnone a conA' hA')] at hA
    rw [hconns, if_neg (hnone b conB' hB')] at hB
    exact hw.oneUploader key a b conA conB ha hb hA hB hupA hupB
  · intro a conA hA
    show a ∈ w.allocated.insert c
    rw [hconns] at hA
    split at hA
    · rename_i hca
      exact TreeSet.mem_insert.mpr (Or.inl (Nat.compare_eq_eq.mpr hca))
    · exact TreeSet.mem_insert.mpr (Or.inr (hw.allocated a conA hA))

/-- One event. -/
theorem step_table {env : ServerEnv} {w : Server} (hw : w.Table) (e : Event)
    (horderly : w.orderly e = true) : Ends SparesTable Server.Table (w.step env e) := by
  cases e with
  | accept c udp =>
    rw [Server.step]
    split
    · exact hw
    · rename_i hfresh
      exact hw.accept (fun h => hfresh (TreeSet.contains_iff_mem.mpr h)) rfl
  | packet c buf =>
    rw [Server.step]
    split
    · rename_i hc
      obtain ⟨con, hcon⟩ := Option.isSome_iff_exists.mp
        (TreeMap.mem_iff_isSome_getElem?.mp (TreeMap.contains_iff_mem.mp hc))
      refine Ends.bind (onReadPacket_table hw hcon horderly) ?_
      rintro ⟨w', ret⟩ - hread
      rw [ReadEnds] at hread
      dsimp only at hread ⊢
      split
      · rename_i hret
        rwa [if_pos hret] at hread
      · rename_i hret
        rwa [if_neg hret] at hread
    · exact hw
  | closed c =>
    rw [Server.step]
    split
    · rename_i hc
      obtain ⟨con, hcon⟩ := Option.isSome_iff_exists.mp
        (TreeMap.mem_iff_isSome_getElem?.mp (TreeMap.contains_iff_mem.mp hc))
      exact hw.destroyEnds hcon
    · exact hw
  | pull c id =>
    rw [Server.step]
    split
    · exact hw
    · rename_i hfresh
      have hnotin : c ∉ w.allocated := fun h => hfresh (TreeSet.contains_iff_mem.mpr h)
      have hfree : w.hasUploader id = false := by
        rw [Server.orderly, Bool.or_eq_true, Bool.not_eq_true'] at horderly
        exact horderly.resolve_left hfresh
      have hstill : ∀ con, (w.accept c con).hasUploader id = false := by
        intro con
        have hsame : (w.accept c con).hasUploader id = w.hasUploader id := by
          refine hasUploader_congr rfl fun a ha => ?_
          obtain ⟨conA, hA, -⟩ := hw.member _ a ha
          have hne : c ≠ a := fun hca => hnotin (hca ▸ hw.allocated a conA hA)
          exact (Server.getElem?_setConnection w c con a).trans (if_neg hne)
        exact hsame.trans hfree
      exact (hw.accept hnotin rfl).openUploader
        ((Server.getElem?_setConnection w c _ c).trans (if_pos rfl)) rfl rfl (hstill _) _
  | putSdp id sdp =>
    exact (setSdp_table tableFaults_sparesTable hw.linked id sdp).mono fun w' _ h => hw.sameTable h
  | downloadSdp req id =>
    rw [Server.step]
    refine Ends.bind (managerGetSdp_ends tableFaults_sparesTable.toMediaFaults env.sdpInfo w.rtpCache id) ?_
    intro sdp _ _
    split
    · exact hw.sameTable ⟨rfl, rfl, fun _ => rfl⟩
    · exact hw.sameTable ⟨rfl, rfl, fun _ => rfl⟩
  | requestClosed req id => exact hw.sameTable ⟨rfl, rfl, fun _ => rfl⟩
  | tcpTimer =>
    obtain ⟨hnodup, hlive⟩ := addresses_live w fun e =>
      !e.2.udp && e.2.type == .unknown && decide (5 < env.time - e.2.createTime)
    exact hw.destroyAll _ hnodup hlive
  | transTimer => exact hw.onTimer
  | cacheTimer => exact hw.sameTable ⟨rfl, rfl, fun _ => rfl⟩

/-! ## Runs -/

/-- Every event of the run is orderly in the state it meets. -/
def Server.orderlyRun : Server → List (ServerEnv × Event) → Bool
  | _, [] => true
  | w, (env, e) :: events =>
    w.orderly e &&
      match w.step env e with
      | .ok w' => Server.orderlyRun w' events
      | .error _ => true

theorem table_new : Server.new.Table where
  opened _ _ h := by
    simp only [Server.new, TreeMap.getElem?_emptyc, reduceCtorEq] at h
  member _ _ h := by
    simp only [Server.group, Server.new, TreeMap.getElem?_emptyc, List.not_mem_nil] at h
  oneUploader _ _ _ _ _ h := by
    simp only [Server.group, Server.new, TreeMap.getElem?_emptyc, List.not_mem_nil] at h
  allocated _ _ h := by
    simp only [Server.new, TreeMap.getElem?_emptyc, reduceCtorEq] at h

theorem Server.Table.run {w : Server} (hw : w.Table) (events : List (ServerEnv × Event))
    (horderly : w.orderlyRun events = true) : Ends SparesTable Server.Table (w.run events) := by
  induction events generalizing w with
  | nil => exact hw
  | cons e events ih =>
    obtain ⟨env, e⟩ := e
    rw [Server.orderlyRun, Bool.and_eq_true] at horderly
    obtain ⟨hfirst, hrest⟩ := horderly
    rw [Server.run, List.foldlM_cons]
    refine Ends.bind (step_table hw e hfirst) fun w' hstep hw' => ih hw' ?_
    simpa only [hstep] using hrest

/-- In a run whose events are orderly the table is consistent in the end, and if the run faults, it
is not by a connection used after it was destroyed nor by a walk over a group that has changed. Every
state of a run is the end of a run. -/
theorem run_table (events : List (ServerEnv × Event))
    (horderly : Server.new.orderlyRun events = true) :
    Ends SparesTable Server.Consistent (Server.new.run events) :=
  (table_new.run events horderly).mono fun _ _ h => h.toConsistent

/-! ### Two runs -/

/-- A message with a request for the stream whose id begins with the byte `first`, and a length. -/
def reqMessage (cmd : BitVec 16) (first : Byte) (size : Nat) : ReadBuffer where
  mem := [0xff, VER_1] ++ be16 cmd ++ be32 (BitVec.ofNat 32 size) ++ [0, 0, 0, 1] ++
    first :: List.replicate (size - 13) 0
  dataLen := size

/-- The default configuration, one second after the start. -/
def firstSecond : ServerEnv where
  uploaderConfig := RTPTransConfig.default
  playerConfig := RTPTransConfig.default
  relayConfig := RTPTransConfig.default
  sdpInfo := { mediaInfos := fun _ => [], getSdpStr := id }
  parseRtcp := fun _ => ⟨0, false, false, false, 0, 0, 0, []⟩
  now := 1000
  time := 1
  audioRand := 7
  videoRand := 9
  rttMs := 0
  fuel := 3

/-- An uploader and a player of one stream come, and the uploader goes. -/
def uploaderAndPlayer : List (ServerEnv × Event) :=
  [.accept 1 true, .packet 1 (reqMessage CMD_RTP_U2R_REQ_STATE 5 69), .accept 2 true,
    .packet 2 (reqMessage CMD_RTP_D2P_REQ_STATE 5 189), .transTimer, .closed 1].map (firstSecond, ·)

theorem run_table_uploader_and_player :
    Server.new.orderlyRun uploaderAndPlayer = true ∧
      Ends SparesTable Server.Consistent (Server.new.run uploaderAndPlayer) :=
  ⟨by decide +kernel, run_table uploaderAndPlayer (by decide +kernel)⟩

/-- Two uploaders come for one stream. -/
def twoUploaders : List (ServerEnv × Event) :=
  [.accept 1 true, .packet 1 (reqMessage CMD_RTP_U2R_REQ_STATE 5 69), .accept 2 true,
    .packet 2 (reqMessage CMD_RTP_U2R_REQ_STATE 5 69)].map (firstSecond, ·)

/-- The second uploader of a stream leaves the walk over the group on the connection it destroys. -/
theorem second_uploader_stale_iterator :
    Server.new.run twoUploaders = .error .staleIterator ∧
      ¬ ∀ events, Ends SparesTable Server.Consistent (Server.new.run events) := by
  have hrun : Server.new.run twoUploaders = .error .staleIterator := rfl
  refine ⟨hrun, fun h => ?_⟩
  have hends := h twoUploaders
  rw [hrun] at hends
  exact hends.1 rfl

end RtcMcu.ConnectionManager
