import RtcMcu.ConnectionManager.SameTable

/-!
# Groups

What closing and opening a connection do to the groups: `_close_trans` takes a connection out of the
group of the stream it is on, `_open_trans` puts it into one. `Destroyed` is all that `Destroy` does.
-/

namespace RtcMcu.ConnectionManager

open RtcMcu.Avformat RtcMcu.MediaManager RtcMcu.RtpTrans RtcMcu.Coupling Std

/-! ## Closing -/

/-- A set without `c`, dropped when it is empty. -/
theorem mem_erased {group : Option (TreeSet Addr)} {c a : Addr} :
    (∃ rest, (group.map (·.erase c)).filter (fun rest => !rest.isEmpty) = some rest ∧ a ∈ rest) ↔
      (∃ all, group = some all ∧ a ∈ all) ∧ a ≠ c := by
  constructor
  · rintro ⟨rest, hrest, ha⟩
    rw [Option.filter_eq_some_iff, Option.map_eq_some_iff] at hrest
    obtain ⟨⟨all, hall, rfl⟩, -⟩ := hrest
    rw [TreeSet.mem_erase] at ha
    refine ⟨⟨all, hall, ha.2⟩, fun hac => ha.1 ?_⟩
    rw [hac]
    exact Nat.compare_eq_eq.mpr rfl
  · rintro ⟨⟨all, rfl, ha⟩, hne⟩
    have hmem : a ∈ all.erase c :=
      TreeSet.mem_erase.mpr ⟨fun h => hne (Nat.compare_eq_eq.mp h).symm, ha⟩
    have hempty : (all.erase c).isEmpty = false := TreeSet.isEmpty_eq_false_iff_exists_mem.mpr ⟨a, hmem⟩
    refine ⟨all.erase c, ?_, hmem⟩
    rw [Option.map_some, Option.filter_some, hempty]
    rfl

/-- `_close_trans` takes `c` out of the group of the stream it is on. -/
theorem mem_group_closeTrans {w : Server} {c : Addr} {con : RtpConnection} {key : BitVec 32}
    {a : Addr} : a ∈ (w.closeTrans c con).group key ↔
      a ∈ w.group key ∧ ¬ (con.trans.isSome ∧ key = get32bitStreamId con.streamid ∧ a = c) := by
  unfold Server.closeTrans
  cases con.trans with
  | none => simp only [Option.isSome_none, Bool.false_eq_true, false_and, not_false_eq_true, and_true]
  | some t =>
    simp only [Server.mem_group, TreeMap.getElem?_alter, Std.compare_eq_iff_eq, Option.isSome_some,
      true_and, not_and]
    by_cases hkey : get32bitStreamId con.streamid = key
    · rw [if_pos hkey, mem_erased, hkey]
      exact and_congr_right fun _ => ⟨fun h _ => h, fun h => h rfl⟩
    · rw [if_neg hkey]
      exact ⟨fun h => ⟨h, fun hk => (hkey hk.symm).elim⟩, fun h => h.1⟩

/-- What `Destroy` does to a connection of the table. -/
structure Destroyed (w : Server) (c : Addr) (con : RtpConnection) (w' : Server) : Prop where
  connections : ∀ a : Addr, w'.connections[a]? = if c = a then none else w.connections[a]?
  streamGroups : w'.streamGroups = (w.closeTrans c con).streamGroups
  allocated : w'.allocated = w.allocated

theorem destroy_ok {w : Server} {c : Addr} {con : RtpConnection}
    (hc : w.connections[c]? = some con) : ∃ w', w.destroy c = .ok w' ∧ Destroyed w c con w' := by
  refine ⟨{ w.closeTrans c con with connections := (w.closeTrans c con).connections.erase c }, ?_,
    { connections := ?_, streamGroups := rfl, allocated := ?_ }⟩
  · rw [Server.destroy, Server.connection_eq_ok.mpr hc, ok_bind]
  · intro a
    have hkeep : (w.closeTrans c con).connections = w.connections := by
      unfold Server.closeTrans
      cases con.trans <;> rfl
    dsimp only
    rw [hkeep, TreeMap.getElem?_erase]
    simp only [Nat.compare_eq_eq]
  · show (w.closeTrans c con).allocated = w.allocated
    unfold Server.closeTrans
    cases con.trans <;> rfl

section Destroyed

variable {w w' : Server} {c : Addr} {con : RtpConnection} (h : Destroyed w c con w')

include h in
theorem Destroyed.group {key : BitVec 32} {a : Addr} : a ∈ w'.group key ↔ a ∈ w.group key ∧
    ¬ (con.trans.isSome ∧ key = get32bitStreamId con.streamid ∧ a = c) := by
  rw [← mem_group_closeTrans]
  simp only [Server.group, h.streamGroups]

include h in
theorem Destroyed.connection {a : Addr} {conA : RtpConnection}
    (ha : w'.connections[a]? = some conA) : a ≠ c ∧ w.connections[a]? = some conA := by
  rw [h.connections] at ha
  split at ha
  · cases ha
  · rename_i hne
    exact ⟨Ne.symm hne, ha⟩

end Destroyed

/-! ## Opening -/

/-- `c` joins the group of the stream it is on. -/
theorem mem_group_join {w : Server} {c : Addr} {con : RtpConnection} {t : AnyTrans}
    {key : BitVec 32} {a : Addr} : a ∈ (w.join c con t).group key ↔
      a ∈ w.group key ∨ key = get32bitStreamId con.streamid ∧ a = c := by
  simp only [Server.join, Server.setTrans, Server.mem_group, TreeMap.getElem?_alter,
    Std.compare_eq_iff_eq]
  by_cases hkey : get32bitStreamId con.streamid = key
  · rw [if_pos hkey, hkey]
    simp only [Option.some.injEq, exists_eq_left', TreeSet.mem_insert, true_and, Nat.compare_eq_eq]
    cases w.streamGroups[key]? with
    | none =>
      simp only [Option.getD_none, TreeSet.not_mem_emptyc, or_false, reduceCtorEq, false_and,
        exists_false, false_or]
      exact eq_comm
    | some group =>
      simp only [Option.getD_some, Option.some.injEq, exists_eq_left']
      rw [or_comm, eq_comm]
  · rw [if_neg hkey]
    have hne : key ≠ get32bitStreamId con.streamid := Ne.symm hkey
    simp only [hne, false_and, or_false]

/-- If no member of a group is an uploader, the loop over it destroys nothing. -/
theorem destroyUploaders_none {w : Server} (id : StreamId) (cs : List Addr)
    (h : ∀ c ∈ cs, ∃ con, w.connections[c]? = some con ∧ con.isUploader = false) :
    Server.destroyUploaders id w cs = .ok w := by
  induction cs with
  | nil => rfl
  | cons c cs ih =>
    obtain ⟨con, hcon, hup⟩ := h c List.mem_cons_self
    rw [Server.destroyUploaders, Server.connection_eq_ok.mpr hcon, ok_bind, hup]
    exact ih fun a ha => h a (List.mem_cons_of_mem c ha)

/-! ## Addresses -/

/-- The addresses of some connections are live and distinct. -/
theorem addresses_live (w : Server) (p : Addr × RtpConnection → Bool) :
    ((w.connections.toList.filter p).map (·.1)).Nodup ∧
      ∀ c ∈ (w.connections.toList.filter p).map (·.1), (w.connections[c]?).isSome := by
  constructor
  · refine List.pairwise_map.mpr (List.Pairwise.filter p ?_)
    refine TreeMap.distinct_keys_toList.imp fun h heq => h ?_
    exact Nat.compare_eq_eq.mpr heq
  · intro c hc
    obtain ⟨⟨a, con⟩, hmem, rfl⟩ := List.mem_map.mp hc
    rw [TreeMap.mem_toList_iff_getElem?_eq_some.mp (List.mem_of_mem_filter hmem)]
    rfl

end RtcMcu.ConnectionManager
