import RtcMcu.ConnectionManager.PlayerPackets
import RtcMcu.Lib.Along

/-!
# Streams apart

The groups, the RTP caches and the SDP requests that wait are found under the low 32 bits of a
stream's id. As long as no other stream of a run shares them with `id`, and each connection asks for
one stream only, `id` does not notice the others: its players and downloaders get, and its cache
holds, what they would if only the events of `id` had happened (`stream_isolated`). The proof
compares the run with the one purged of the other streams' events (`Purged`).
-/

namespace RtcMcu.ConnectionManager

open RtcMcu.Avformat RtcMcu.MediaManager RtcMcu.RtpTrans RtcMcu.Coupling Std

/-! ## Streams and events -/

/-- The stream does not share the low 32 bits of `id`, unless it is `id`. -/
def Apart (id x : StreamId) : Prop := get32bitStreamId x = get32bitStreamId id → x = id

theorem apart_self (id : StreamId) : Apart id id := fun _ => rfl

/-- The stream an event is about, where `streamOf` tells that of each connection. -/
def Event.stream (streamOf : Addr → StreamId) : Event → Option StreamId
  | .accept c _ => some (streamOf c)
  | .packet c _ => some (streamOf c)
  | .closed c => some (streamOf c)
  | .pull _ id => some id
  | .putSdp id _ => some id
  | .downloadSdp _ id => some id
  | .requestClosed _ id => some id
  | .tcpTimer => none
  | .transTimer => none
  | .cacheTimer => none

/-- An event that happens for `id` as well: one of `id`, or a timer. -/
def Event.concerns (streamOf : Addr → StreamId) (id : StreamId) (e : Event) : Bool :=
  match e.stream streamOf with
  | none => true
  | some x => x == id

/-- What the players, the uploaders and the downloaders of `id` get. -/
def Output.isFor (streamOf : Addr → StreamId) (id : StreamId) : Output → Bool
  | .rtp _ dest _ _ => streamOf dest == id
  | .senderReport dest _ => streamOf dest == id
  | .response dest _ => streamOf dest == id
  | .sdp _ wanted _ => wanted == id
  | .recovered c _ _ _ => streamOf c == id

/-- A connection that asks for a stream, and the stream. -/
def Server.asks (w : Server) : Event → Option (Addr × StreamId)
  | .packet c buf => (w.connections[c]?).bind fun con => (requestOf con.udp buf).map fun r => (c, r.2)
  | .pull c id => some (c, id)
  | _ => none

/-- The event's stream is `id` or has other low 32 bits, and a connection asks for its own. -/
structure Server.Separate (streamOf : Addr → StreamId) (id : StreamId) (w : Server)
    (e : ServerEnv × Event) : Prop where
  apart : ∀ x ∈ e.2.stream streamOf, Apart id x
  asks : ∀ r ∈ w.asks e.2, r.2 = streamOf r.1

instance (id x : StreamId) : Decidable (Apart id x) :=
  inferInstanceAs (Decidable (get32bitStreamId x = get32bitStreamId id → x = id))

instance (streamOf : Addr → StreamId) (id : StreamId) (w : Server) (e : ServerEnv × Event) :
    Decidable (w.Separate streamOf id e) :=
  have := Option.decidableForallMem (o := e.2.stream streamOf) (p := Apart id)
  have := Option.decidableForallMem (o := w.asks e.2) (p := fun r => r.2 = streamOf r.1)
  decidable_of_iff ((∀ x ∈ e.2.stream streamOf, Apart id x) ∧ ∀ r ∈ w.asks e.2, r.2 = streamOf r.1)
    ⟨fun h => ⟨h.1, h.2⟩, fun h => ⟨h.apart, h.asks⟩⟩

theorem Server.Separate.request {streamOf : Addr → StreamId} {id : StreamId} {w : Server}
    {env : ServerEnv} {c : Addr} {buf : ReadBuffer}
    (h : w.Separate streamOf id (env, .packet c buf)) {con : RtpConnection}
    (hcon : w.connections[c]? = some con) (type : ConnectionType) (x : StreamId)
    (hx : requestOf con.udp buf = some (type, x)) : x = streamOf c := by
  refine h.asks (c, x) ?_
  simp only [Server.asks, hcon, Option.bind_some, hx, Option.map_some, Option.mem_def]

/-! ## The purged server -/

/-- `alone` is what `w` would be if only the stream `id` had been used. -/
structure Purged (streamOf : Addr → StreamId) (id : StreamId) (w alone : Server) : Prop where
  own : ∀ c : Addr, streamOf c = id → alone.connections[c]? = w.connections[c]?
  noConnection : ∀ c : Addr, streamOf c ≠ id → alone.connections[c]? = none
  allocated : ∀ c : Addr, streamOf c = id → (c ∈ alone.allocated ↔ c ∈ w.allocated)
  group : alone.streamGroups[get32bitStreamId id]? = w.streamGroups[get32bitStreamId id]?
  noGroup : ∀ key, key ≠ get32bitStreamId id → alone.streamGroups[key]? = none
  cache : alone.rtpCache.caches (get32bitStreamId id) = w.rtpCache.caches (get32bitStreamId id)
  requests : alone.sdpRequests[get32bitStreamId id]? = w.sdpRequests[get32bitStreamId id]?
  outputs : alone.outputs = w.outputs.filter (Output.isFor streamOf id)
  /-- members of a group are connections of its stream -/
  member : ∀ key c, c ∈ w.group key →
    key = get32bitStreamId (streamOf c) ∧ Apart id (streamOf c)
  /-- an open connection is on its stream -/
  stream : ∀ (c : Addr) con, w.connections[c]? = some con → con.trans.isSome →
    con.streamid = streamOf c ∧ Apart id (streamOf c)
  /-- a request that waits has its stream's key -/
  wanted : ∀ key requests (req : Nat) x, w.sdpRequests[key]? = some requests →
    requests[req]? = some x → get32bitStreamId x = key ∧ Apart id x

section Purged

variable {streamOf : Addr → StreamId} {id : StreamId} {w alone : Server}

/-! ### Looking at it -/

theorem Purged.members (h : Purged streamOf id w alone) : alone.members id = w.members id := by
  rw [Server.members, Server.members, Server.group, Server.group, h.group]

theorem Purged.mem_own (h : Purged streamOf id w alone) {c : Addr} (hc : c ∈ w.members id) :
    streamOf c = id := by
  obtain ⟨hkey, hapart⟩ := h.member _ c hc
  exact hapart hkey.symm

/-- Members of another stream's group are connections of that stream. -/
theorem Purged.mem_other (h : Purged streamOf id w alone) {key : BitVec 32}
    (hkey : key ≠ get32bitStreamId id) {c : Addr} (hc : c ∈ w.group key) :
    get32bitStreamId (streamOf c) ≠ get32bitStreamId id := (h.member key c hc).1 ▸ hkey

theorem ne_of_key {x : StreamId} (h : get32bitStreamId x ≠ get32bitStreamId id) : x ≠ id :=
  fun heq => h (by rw [heq])

theorem Purged.connection (h : Purged streamOf id w alone) {c : Addr} (hc : streamOf c = id) :
    alone.connection c = w.connection c := by
  rw [Server.connection, Server.connection, h.own c hc]

theorem Purged.getRtpBySeq (h : Purged streamOf id w alone) :
    alone.rtpCache.getRtpBySeq id = w.rtpCache.getRtpBySeq id := by
  unfold RtpCacheManager.getRtpBySeq
  rw [h.cache]

theorem Purged.getSdp (h : Purged streamOf id w alone) (info : SdpInfo) :
    alone.rtpCache.getSdp info id = w.rtpCache.getSdp info id := by
  unfold RtpCacheManager.getSdp
  rw [h.cache]

/-! ### Changing it -/

theorem Purged.emit (h : Purged streamOf id w alone) (out : List Output) :
    Purged streamOf id (w.emit out) (alone.emit (out.filter (Output.isFor streamOf id))) :=
  { h with
    outputs := by
      rw [Server.emit_outputs, Server.emit_outputs, List.filter_append, h.outputs] }

theorem Purged.emitOwn (h : Purged streamOf id w alone) {out : List Output}
    (hout : ∀ o ∈ out, o.isFor streamOf id = true) :
    Purged streamOf id (w.emit out) (alone.emit out) := by
  have hemit := h.emit out
  rwa [List.filter_eq_self.mpr hout] at hemit

theorem Purged.emitOther (h : Purged streamOf id w alone) {out : List Output}
    (hout : ∀ o ∈ out, o.isFor streamOf id = false) : Purged streamOf id (w.emit out) alone := by
  have hemit := h.emit out
  rw [List.filter_eq_nil_iff.mpr fun o ho => Bool.eq_false_iff.mp (hout o ho)] at hemit
  refine { hemit with outputs := ?_ }
  exact (List.append_nil _).symm.trans hemit.outputs

theorem Purged.setConnectionOwn (h : Purged streamOf id w alone) {c : Addr} (hc : streamOf c = id)
    {con : RtpConnection} (hcon : con.trans.isSome → con.streamid = id) :
    Purged streamOf id (w.setConnection c con) (alone.setConnection c con) :=
  { h with
    own := by
      intro a ha
      rw [Server.getElem?_setConnection, Server.getElem?_setConnection, h.own a ha]
    noConnection := by
      intro a ha
      rw [Server.getElem?_setConnection, if_neg fun hca : c = a => ha (hca ▸ hc)]
      exact h.noConnection a ha
    stream := by
      intro a conA hA hopen
      rw [Server.getElem?_setConnection] at hA
      split at hA
      · next hca =>
        cases hA
        rw [← hca, hc]
        exact ⟨hcon hopen, apart_self id⟩
      · exact h.stream a conA hA hopen }

theorem Purged.setConnectionOther (h : Purged streamOf id w alone) {c : Addr}
    (hc : get32bitStreamId (streamOf c) ≠ get32bitStreamId id) {con : RtpConnection}
    (hcon : con.trans.isSome → con.streamid = streamOf c) :
    Purged streamOf id (w.setConnection c con) alone :=
  { h with
    own := by
      intro a ha
      rw [Server.getElem?_setConnection, if_neg fun hca : c = a => hc (by rw [hca, ha])]
      exact h.own a ha
    stream := by
      intro a conA hA hopen
      rw [Server.getElem?_setConnection] at hA
      split at hA
      · next hca =>
        cases hA
        rw [← hca]
        exact ⟨hcon hopen, fun hkey => absurd hkey hc⟩
      · exact h.stream a conA hA hopen }

theorem Purged.setCacheOwn (h : Purged streamOf id w alone) {cache cache' : RtpCacheManager}
    (hcache : cache'.caches (get32bitStreamId id) = cache.caches (get32bitStreamId id)) :
    Purged streamOf id { w with rtpCache := cache } { alone with rtpCache := cache' } :=
  { h with cache := hcache }

theorem Purged.setCacheOther (h : Purged streamOf id w alone) {cache : RtpCacheManager}
    (hcache : cache.caches (get32bitStreamId id) = w.rtpCache.caches (get32bitStreamId id)) :
    Purged streamOf id { w with rtpCache := cache } alone :=
  { h with cache := h.cache.trans hcache.symm }

theorem Purged.eraseOwn (h : Purged streamOf id w alone) {c : Addr} (hc : streamOf c = id) :
    Purged streamOf id { w with connections := w.connections.erase c }
      { alone with connections := alone.connections.erase c } :=
  { h with
    own := by
      intro a ha
      rw [TreeMap.getElem?_erase, TreeMap.getElem?_erase, h.own a ha]
    noConnection := by
      intro a ha
      rw [TreeMap.getElem?_erase]
      split
      · rfl
      · exact h.noConnection a ha
    stream := by
      intro a conA hA
      rw [TreeMap.getElem?_erase] at hA
      split at hA
      · cases hA
      · exact h.stream a conA hA }

theorem Purged.eraseOther (h : Purged streamOf id w alone) {c : Addr} (hc : streamOf c ≠ id) :
    Purged streamOf id { w with connections := w.connections.erase c } alone :=
  { h with
    own := by
      intro a ha
      rw [TreeMap.getElem?_erase, if_neg fun hca : compare c a = .eq => hc
        (by rw [Nat.compare_eq_eq.mp hca, ha])]
      exact h.own a ha
    stream := by
      intro a conA hA
      rw [TreeMap.getElem?_erase] at hA
      split at hA
      · cases hA
      · exact h.stream a conA hA }

/-- The group of the stream changes. -/
theorem Purged.alterOwn (h : Purged streamOf id w alone)
    {f : Option (TreeSet Addr compare) → Option (TreeSet Addr compare)}
    (hf : ∀ group, f (w.streamGroups[get32bitStreamId id]?) = some group →
      ∀ c ∈ group, streamOf c = id) :
    Purged streamOf id { w with streamGroups := w.streamGroups.alter (get32bitStreamId id) f }
      { alone with streamGroups := alone.streamGroups.alter (get32bitStreamId id) f } :=
  { h with
    group := by rw [TreeMap.getElem?_alter, TreeMap.getElem?_alter, h.group]
    noGroup := by
      intro key hkey
      rw [TreeMap.getElem?_alter, if_neg fun heq : compare (get32bitStreamId id) key = .eq =>
        hkey (Std.compare_eq_iff_eq.mp heq).symm]
      exact h.noGroup key hkey
    member := by
      intro key c hmem
      obtain ⟨group, hgroup, hc⟩ := Server.mem_group.mp hmem
      rw [TreeMap.getElem?_alter] at hgroup
      split at hgroup
      · next heq =>
        have hown := hf group hgroup c hc
        rw [← Std.compare_eq_iff_eq.mp heq, hown]
        exact ⟨rfl, apart_self id⟩
      · exact h.member key c (Server.mem_group.mpr ⟨group, hgroup, hc⟩) }

/-- The group of another stream changes. -/
theorem Purged.alterOther (h : Purged streamOf id w alone) {key : BitVec 32}
    (hkey : key ≠ get32bitStreamId id) {f : Option (TreeSet Addr compare) → Option (TreeSet Addr compare)}
    (hf : ∀ group, f (w.streamGroups[key]?) = some group →
      ∀ c ∈ group, key = get32bitStreamId (streamOf c)) :
    Purged streamOf id { w with streamGroups := w.streamGroups.alter key f } alone :=
  { h with
    group := by
      rw [TreeMap.getElem?_alter, if_neg fun heq : compare key (get32bitStreamId id) = .eq =>
        hkey (Std.compare_eq_iff_eq.mp heq)]
      exact h.group
    member := by
      intro key' c hmem
      obtain ⟨group, hgroup, hc⟩ := Server.mem_group.mp hmem
      rw [TreeMap.getElem?_alter] at hgroup
      split at hgroup
      · next heq =>
        have hother := hf group hgroup c hc
        rw [← Std.compare_eq_iff_eq.mp heq]
        exact ⟨hother, fun hsame => absurd (hother.trans hsame) hkey⟩
      · exact h.member key' c (Server.mem_group.mpr ⟨group, hgroup, hc⟩) }

/-- What a group loses was in it, and what it gains is `c`. -/
theorem mem_of_erase {group : Option (TreeSet Addr)} {c a : Addr} {rest : TreeSet Addr}
    (hrest : (group.map (·.erase c)).filter (fun rest => !rest.isEmpty) = some rest)
    (ha : a ∈ rest) : ∃ all, group = some all ∧ a ∈ all := (mem_erased.mp ⟨rest, hrest, ha⟩).1

theorem mem_of_insert {group : Option (TreeSet Addr)} {c a : Addr} {all : TreeSet Addr}
    (hall : some ((group.getD ∅).insert c) = some all) (ha : a ∈ all) :
    a = c ∨ ∃ before, group = some before ∧ a ∈ before := by
  cases hall
  rcases TreeSet.mem_insert.mp ha with hac | ha
  · exact Or.inl (Nat.compare_eq_eq.mp hac).symm
  · cases group with
    | none => exact absurd ha TreeSet.not_mem_emptyc
    | some before => exact Or.inr ⟨before, rfl, ha⟩

end Purged

/-! ## Packets of the stream -/

section Own

variable {streamOf : Addr → StreamId} {id : StreamId} {w alone : Server} {env : ServerEnv} {c : Addr}

/-- The results are related, and the same packet comes back. -/
def PurgedWith {α : Type} (streamOf : Addr → StreamId) (id : StreamId) (r r' : Server × α) : Prop :=
  Purged streamOf id r.1 r'.1 ∧ r.2 = r'.2

theorem sendRtp_own (h : Purged streamOf id w alone) (hc : streamOf c = id) (purpose : Purpose)
    (rtp : Rtp) (len : Nat) (ssrc : BitVec 32) :
    Coupled AnyFault (Purged streamOf id) (w.sendRtp purpose c rtp len ssrc)
      (alone.sendRtp purpose c rtp len ssrc) := by
  unfold Server.sendRtp
  refine Coupled.ite (fun _ => coupled_error trivial) fun _ => h.emitOwn fun o ho => ?_
  rw [List.mem_singleton.mp ho]
  exact beq_iff_eq.mpr hc

theorem sendFecs_own (h : Purged streamOf id w alone) (hc : streamOf c = id) (sent : List Sent) :
    Coupled AnyFault (Purged streamOf id) (w.sendFecs c sent) (alone.sendFecs c sent) :=
  Coupled.foldlM sent (fun _ _ s _ h' => sendRtp_own h' hc .fec s.1 s.2 0) h

theorem sendTransOnHandleRtp_own (h : Purged streamOf id w alone) (hc : streamOf c = id)
    {con : RtpConnection} (hcon : con.streamid = id) (t : RTPSendTrans) (rtp : Rtp) (len : Nat) :
    Coupled AnyFault (Purged streamOf id) (w.sendTransOnHandleRtp env c con t rtp len)
      (alone.sendTransOnHandleRtp env c con t rtp len) := by
  unfold Server.sendTransOnHandleRtp
  rw [hcon, h.getRtpBySeq]
  refine Coupled.bind (coupled_any _) ?_
  rintro ⟨t', sent⟩ _ rfl
  have hset : Purged streamOf id (w.setTrans c con (.send t')) (alone.setTrans c con (.send t')) :=
    h.setConnectionOwn hc fun _ => hcon
  exact sendFecs_own hset hc sent

/-- A connection of the stream is found in both. -/
theorem connection_own (h : Purged streamOf id w alone) (hc : streamOf c = id) :
    Coupled AnyFault (fun con con' => con' = con ∧ w.connections[c]? = some con) (w.connection c)
      (alone.connection c) := by
  rw [h.connection hc]
  cases hcon : w.connections[c]? with
  | none =>
    rw [Server.connection, hcon]
    exact coupled_error trivial
  | some con =>
    rw [Server.connection_eq_ok.mpr hcon]
    exact ⟨rfl, rfl⟩

/-- An open connection of the stream is on it. -/
theorem Purged.streamid (h : Purged streamOf id w alone) (hc : streamOf c = id)
    {con : RtpConnection} (hcon : w.connections[c]? = some con) (hopen : con.trans.isSome) :
    con.streamid = id := (h.stream c con hcon hopen).1.trans hc

theorem forwardTo_own (h : Purged streamOf id w alone) (hc : streamOf c = id) (rtp : Rtp)
    (len : Nat) :
    Coupled AnyFault (PurgedWith streamOf id) (w.forwardTo env rtp len c)
      (alone.forwardTo env rtp len c) := by
  unfold Server.forwardTo
  refine Coupled.bind (connection_own h hc) ?_
  rintro _ con ⟨rfl, hcon⟩
  refine Coupled.ite (fun _ => ?_) fun _ => ⟨h, rfl⟩
  refine Coupled.bind (sendRtp_own h hc .forward _ len 0) fun w₁ alone₁ h₁ => ?_
  cases htrans : con.trans with
  | none => exact coupled_error trivial
  | some t =>
    cases t with
    | recv t => exact coupled_error trivial
    | send t =>
      have hid := h.streamid hc hcon (by rw [htrans]; rfl)
      exact Coupled.bind (sendTransOnHandleRtp_own h₁ hc hid t _ len) fun w₂ alone₂ h₂ => ⟨h₂, rfl⟩

theorem forwardRtp_own (h : Purged streamOf id w alone) (rtp : Rtp) (len : Nat) :
    Coupled AnyFault (PurgedWith streamOf id) (w.forwardRtp env id rtp len)
      (alone.forwardRtp env id rtp len) := by
  unfold Server.forwardRtp
  rw [h.members]
  refine Coupled.foldlM _ (fun r r' a ha hr => ?_) ⟨h, rfl⟩
  obtain ⟨w₁, rtp₁⟩ := r
  obtain ⟨alone₁, _⟩ := r'
  obtain ⟨h₁, rfl⟩ := hr
  exact forwardTo_own h₁ (h.mem_own ha) rtp₁ len

theorem forwardRtcp_own (h : Purged streamOf id w alone) (type : RTPAVType)
    (info : RTCPPacketInformation) :
    Coupled AnyFault (Purged streamOf id) (w.forwardRtcp env id type info)
      (alone.forwardRtcp env id type info) := by
  unfold Server.forwardRtcp
  rw [h.members]
  refine Coupled.foldlM _ (fun w₁ alone₁ a ha h₁ => ?_) h
  have hown := h.mem_own ha
  unfold Server.forwardSrTo
  refine Coupled.bind (connection_own h₁ hown) ?_
  rintro _ con ⟨rfl, hcon⟩
  refine Coupled.ite (fun _ => ?_) fun _ => h₁
  cases htrans : con.trans with
  | none => exact coupled_error trivial
  | some t =>
    cases t with
    | recv t => exact coupled_error trivial
    | send t =>
      have hid := h₁.streamid hown hcon (by rw [htrans]; rfl)
      dsimp only
      generalize t.onUploaderNtp _ _ _ _ _ = reported
      obtain ⟨t', sent⟩ := reported
      have hset : Purged streamOf id (w₁.setTrans a con (.send t'))
          (alone₁.setTrans a con (.send t')) := h₁.setConnectionOwn hown fun _ => hid
      refine hset.emitOwn fun o ho => ?_
      obtain ⟨sr, -, rfl⟩ := List.mem_map.mp ho
      exact beq_iff_eq.mpr hown

theorem sendNackRtp_own (h : Purged streamOf id w alone) (hc : streamOf c = id)
    {con : RtpConnection} (hcon : con.streamid = id) (video : Bool) (seq : Seq) :
    Coupled AnyFault (Purged streamOf id) (w.sendNackRtp c con video seq)
      (alone.sendNackRtp c con video seq) := by
  unfold Server.sendNackRtp
  rw [hcon, h.getRtpBySeq]
  refine Coupled.ite (fun _ => ?_) fun _ => h
  refine Coupled.bind (coupled_any _) ?_
  rintro ⟨rtp, len⟩ _ rfl
  cases rtp with
  | none => exact coupled_error trivial
  | some rtp => exact sendRtp_own h hc .retransmit rtp len _

theorem setRtp_own (h : Purged streamOf id w alone) (rtp : Rtp) (len : Nat) :
    Coupled AnyFault (Purged streamOf id) (w.setRtp env id rtp len)
      (alone.setRtp env id rtp len) := by
  unfold Server.setRtp RtpCacheManager.setRtp
  rw [h.cache]
  cases w.rtpCache.caches (get32bitStreamId id) with
  | none => exact h
  | some media =>
    dsimp only
    cases media.setRtp env.time rtp len with
    | error f => exact coupled_error trivial
    | ok r => exact h.setCacheOwn ((if_pos rfl).trans (if_pos rfl).symm)

/-- The receiver sessions of the stream are answered alike. -/
theorem host_own (hc : streamOf c = id) :
    (Server.host env c id).Coupled AnyFault (Purged streamOf id) (Server.host env c id) where
  get w alone h := ⟨h.getRtpBySeq.symm,
    managerGetRtpBySeq_ends tableFaults_any.toMediaFaults w.rtpCache id⟩
  setRtp w alone rtp len h := setRtp_own h rtp len
  forwardRtp w alone rtp len h := forwardRtp_own h rtp len
  recovered w alone s len h := by
    refine h.emitOwn fun o ho => ?_
    rw [List.mem_singleton.mp ho]
    exact beq_iff_eq.mpr hc

theorem transOnHandleRtp_own (h : Purged streamOf id w alone) (hc : streamOf c = id)
    {con : RtpConnection} (hcon : con.streamid = id) (rtp : Rtp) (len : Nat) :
    Coupled AnyFault (Purged streamOf id) (w.transOnHandleRtp env c con rtp len)
      (alone.transOnHandleRtp env c con rtp len) := by
  unfold Server.transOnHandleRtp
  cases con.trans with
  | none => exact coupled_error trivial
  | some t =>
    cases t with
    | send t => exact sendTransOnHandleRtp_own h hc hcon t rtp len
    | recv t =>
      dsimp only
      rw [hcon]
      refine Coupled.bind (RTPRecvTrans.onHandleRtp_coupled tableFaults_any.toSessionFaults
        (host_own hc) env.fuel env.now h t rtp len) ?_
      rintro ⟨w₁, t₁⟩ ⟨alone₁, _⟩ ⟨h₁, rfl⟩
      exact h₁.setConnectionOwn hc fun _ => hcon

theorem onRecvRtp_own (h : Purged streamOf id w alone) (hc : streamOf c = id)
    (hid : ∀ con, w.connections[c]? = some con → con.streamid = id) (rtp : Rtp) (len : Nat) :
    Coupled AnyFault (Purged streamOf id) (w.onRecvRtp env c rtp len)
      (alone.onRecvRtp env c rtp len) := by
  unfold Server.onRecvRtp
  refine Coupled.bind (connection_own h hc) ?_
  rintro _ con ⟨rfl, hcon⟩
  have hcon := hid con hcon
  refine Coupled.bind (R := Purged streamOf id) ?_ fun w₁ alone₁ h₁ => ?_
  · unfold Server.storeMedia
    rw [hcon]
    exact Coupled.ite (fun _ => h) fun _ => setRtp_own h rtp len
  refine Coupled.bind (transOnHandleRtp_own h₁ hc hcon rtp len) fun w₂ alone₂ h₂ => ?_
  unfold Server.forwardMedia
  rw [hcon]
  refine Coupled.ite (fun _ => h₂) fun _ => ?_
  exact Coupled.bind (forwardRtp_own h₂ rtp len) fun r r' hr => hr.1

theorem transOnHandleRtcp_own (h : Purged streamOf id w alone) (hc : streamOf c = id)
    {con : RtpConnection} (hcon : w.connections[c]? = some con) (info : RTCPPacketInformation) :
    Coupled AnyFault (Purged streamOf id) (w.transOnHandleRtcp env c con info)
      (alone.transOnHandleRtcp env c con info) := by
  unfold Server.transOnHandleRtcp
  cases htrans : con.trans with
  | none => exact coupled_error trivial
  | some t =>
    have hid := h.streamid hc hcon (by rw [htrans]; rfl)
    cases t with
    | recv t => exact h.setConnectionOwn hc fun _ => hid
    | send t =>
      dsimp only
      rw [hid, h.getRtpBySeq]
      refine Coupled.bind (coupled_any _) ?_
      rintro ⟨t', again⟩ _ rfl
      refine Coupled.foldlM again (fun w₁ alone₁ e _ h₁ => ?_) (h.setConnectionOwn hc fun _ => hid)
      obtain ⟨video, seq⟩ := e
      exact sendNackRtp_own h₁ hc hid video seq

theorem onRecvRtcp_own (h : Purged streamOf id w alone) (hc : streamOf c = id) (rtcp : List Byte) :
    Coupled AnyFault (Purged streamOf id) (w.onRecvRtcp env c rtcp)
      (alone.onRecvRtcp env c rtcp) := by
  unfold Server.onRecvRtcp
  refine Coupled.bind (connection_own h hc) ?_
  rintro _ con ⟨rfl, hcon⟩
  refine Coupled.bind (transOnHandleRtcp_own h hc hcon _) fun w₁ alone₁ h₁ => ?_
  refine Coupled.ite (fun _ => h₁) fun _ => Coupled.ite (fun _ => ?_) fun _ => h₁
  refine Coupled.bind (connection_own h₁ hc) ?_
  rintro _ con₁ ⟨rfl, hcon₁⟩
  cases htrans : con₁.trans with
  | none => exact coupled_error trivial
  | some t =>
    have hid := h₁.streamid hc hcon₁ (by rw [htrans]; rfl)
    dsimp only
    rw [hid]
    exact Coupled.ite (fun _ => h₁) fun _ => forwardRtcp_own h₁ _ _

/-! ### SDPs -/

theorem onSdp_own (h : Purged streamOf id w alone) (sdp : SdpText) :
    Purged streamOf id (w.onSdp id sdp) (alone.onSdp id sdp) := by
  unfold Server.onSdp
  rw [h.requests]
  cases hrequests : w.sdpRequests[get32bitStreamId id]? with
  | none => exact h
  | some requests =>
    have herase : Purged streamOf id
        { w with sdpRequests := w.sdpRequests.erase (get32bitStreamId id) }
        { alone with sdpRequests := alone.sdpRequests.erase (get32bitStreamId id) } :=
      { h with
        requests := by rw [TreeMap.getElem?_erase, TreeMap.getElem?_erase, h.requests]
        wanted := by
          intro key requests req x hkey
          rw [TreeMap.getElem?_erase] at hkey
          split at hkey
          · cases hkey
          · exact h.wanted key requests req x hkey }
    refine herase.emitOwn fun o ho => ?_
    obtain ⟨⟨req, wanted⟩, hmem, rfl⟩ := List.mem_map.mp ho
    obtain ⟨hkey, hapart⟩ := h.wanted _ _ _ _ hrequests
      (TreeMap.mem_toList_iff_getElem?_eq_some.mp hmem)
    exact beq_iff_eq.mpr (hapart hkey)

theorem setSdp_own (h : Purged streamOf id w alone) (sdp : SdpText) :
    Coupled AnyFault (Purged streamOf id) (w.setSdp env id sdp) (alone.setSdp env id sdp) := by
  have hcache : Purged streamOf id
      { w with rtpCache := w.rtpCache.setSdp env.sdpInfo env.time id sdp }
      { alone with rtpCache := alone.rtpCache.setSdp env.sdpInfo env.time id sdp } := by
    refine h.setCacheOwn ?_
    rw [RtpCacheManager.setSdp, RtpCacheManager.setSdp, h.cache]
    exact (if_pos rfl).trans (if_pos rfl).symm
  have hsdp := onSdp_own hcache sdp
  unfold Server.setSdp
  dsimp only
  generalize timeBases _ = bases
  obtain ⟨audio, video⟩ := bases
  dsimp only
  rw [hsdp.members]
  refine Coupled.foldlM _ (fun w₁ alone₁ a ha h₁ => ?_) hsdp
  have hown := hsdp.mem_own ha
  unfold Server.setTimeBaseOf
  refine Coupled.bind (connection_own h₁ hown) ?_
  rintro _ con ⟨rfl, hcon⟩
  cases htrans : con.trans with
  | none => exact coupled_error trivial
  | some t =>
    have hid := h₁.streamid hown hcon (by rw [htrans]; rfl)
    exact h₁.setConnectionOwn hown fun _ => hid

/-! ### Closing and opening -/

theorem closeTrans_own (h : Purged streamOf id w alone) {con : RtpConnection}
    (hcon : con.trans.isSome → con.streamid = id) :
    Purged streamOf id (w.closeTrans c con) (alone.closeTrans c con) := by
  unfold Server.closeTrans
  cases htrans : con.trans with
  | none => exact h
  | some t =>
    dsimp only
    rw [hcon (by rw [htrans]; rfl)]
    refine h.alterOwn fun group hgroup a ha => ?_
    obtain ⟨all, hall, ha⟩ := mem_of_erase hgroup ha
    exact h.mem_own (Server.mem_group.mpr ⟨all, hall, ha⟩)

theorem destroy_own (h : Purged streamOf id w alone) (hc : streamOf c = id) :
    Coupled AnyFault (Purged streamOf id) (w.destroy c) (alone.destroy c) := by
  unfold Server.destroy
  refine Coupled.bind (connection_own h hc) ?_
  rintro _ con ⟨rfl, hcon⟩
  exact (closeTrans_own h fun hopen => h.streamid hc hcon hopen).eraseOwn hc

theorem destroyUploaders_own (h : Purged streamOf id w alone) {cs : List Addr}
    (hcs : ∀ a ∈ cs, streamOf a = id) :
    Coupled AnyFault (Purged streamOf id) (Server.destroyUploaders id w cs)
      (Server.destroyUploaders id alone cs) := by
  induction cs generalizing w alone with
  | nil => exact h
  | cons a cs ih =>
    have ha := hcs a List.mem_cons_self
    have hrest := fun b hb => hcs b (List.mem_cons_of_mem a hb)
    rw [Server.destroyUploaders, Server.destroyUploaders]
    refine Coupled.bind (connection_own h ha) ?_
    rintro _ con ⟨rfl, -⟩
    refine Coupled.ite (fun _ => ?_) fun _ => ih h hrest
    refine Coupled.bind (destroy_own h ha) fun w₁ alone₁ h₁ => ?_
    rw [h₁.members]
    exact Coupled.ite (fun _ => ih h₁ hrest) fun _ => coupled_error trivial

theorem join_own (h : Purged streamOf id w alone) (hc : streamOf c = id) {con : RtpConnection}
    (hcon : con.streamid = id) (t : AnyTrans) :
    Purged streamOf id (w.join c con t) (alone.join c con t) := by
  have hset : Purged streamOf id (w.setTrans c con t) (alone.setTrans c con t) :=
    h.setConnectionOwn hc fun _ => hcon
  unfold Server.join
  rw [hcon]
  refine hset.alterOwn fun group hgroup a ha => ?_
  rcases mem_of_insert hgroup ha with rfl | ⟨before, hbefore, ha⟩
  · exact hc
  · exact hset.mem_own (Server.mem_group.mpr ⟨before, hbefore, ha⟩)

theorem openTrans_own (h : Purged streamOf id w alone) (hc : streamOf c = id)
    (hid : ∀ con, w.connections[c]? = some con → con.streamid = id) (config : RTPTransConfig) :
    Coupled AnyFault (Purged streamOf id) (w.openTrans env c config)
      (alone.openTrans env c config) := by
  unfold Server.openTrans
  refine Coupled.bind (connection_own h hc) ?_
  rintro _ con ⟨rfl, hcon⟩
  refine Coupled.ite (fun _ => ?_) fun _ => ?_
  · unfold Server.openPlayer
    refine Coupled.bind (connection_own h hc) ?_
    rintro _ con₁ ⟨rfl, hcon₁⟩
    rw [hid con₁ hcon₁, h.getSdp]
    refine Coupled.bind (coupled_any _) ?_
    rintro sdp _ rfl
    dsimp only
    generalize timeBases _ = bases
    obtain ⟨audio, video⟩ := bases
    exact join_own h hc rfl _
  · unfold Server.openUploader
    refine Coupled.bind (connection_own h hc) ?_
    rintro _ con₁ ⟨rfl, hcon₁⟩
    rw [hid con₁ hcon₁, h.members]
    refine Coupled.bind ((destroyUploaders_own h fun a ha => h.mem_own ha).and_left
      (destroyUploaders_fits id w (w.members id))) ?_
    rintro w₂ alone₂ ⟨h₂, -, hback⟩
    refine Coupled.bind (connection_own h₂ hc) ?_
    rintro _ con₂ ⟨rfl, hcon₂⟩
    exact join_own h₂ hc (hid con₂ (hback c con₂ hcon₂)) _

/-! ### Messages -/

theorem onReqState_own (h : Purged streamOf id w alone) (hc : streamOf c = id)
    (config : RTPTransConfig) {asked : Option StreamId} (hasked : ∀ x, asked = some x → x = id)
    (failed : Int) :
    Coupled AnyFault (PurgedWith streamOf id) (w.onReqState env c config asked failed)
      (alone.onReqState env c config asked failed) := by
  cases asked with
  | none => exact ⟨h, rfl⟩
  | some x =>
    obtain rfl := hasked x rfl
    unfold Server.onReqState
    refine Coupled.bind (connection_own h hc) ?_
    rintro _ con ⟨rfl, -⟩
    have hset : Purged streamOf x (w.setConnection c { con with streamid := x })
        (alone.setConnection c { con with streamid := x }) := h.setConnectionOwn hc fun _ => rfl
    refine Coupled.bind (openTrans_own hset hc (fun con' hcon' => ?_) config)
      fun w₁ alone₁ h₁ => ?_
    · rw [Server.getElem?_setConnection, if_pos rfl] at hcon'
      cases hcon'
      rfl
    · refine ⟨h₁.emitOwn fun o ho => ?_, rfl⟩
      rw [List.mem_singleton.mp ho]
      exact beq_iff_eq.mpr hc

/-- `OnReadPacket` for a connection of the stream. -/
theorem onReadPacket_own (h : Purged streamOf id w alone) (hc : streamOf c = id)
    (hfits : w.FitsAt c) {buf : ReadBuffer}
    (hreq : ∀ con, w.connections[c]? = some con → ∀ type x,
      requestOf con.udp buf = some (type, x) → x = id) :
    Coupled AnyFault (PurgedWith streamOf id) (w.onReadPacket env c buf)
      (alone.onReadPacket env c buf) := by
  unfold Server.onReadPacket
  refine Coupled.bind (connection_own h hc) ?_
  rintro _ con ⟨rfl, hcon⟩
  have hrequest := hreq con hcon
  have hstay : con.trans.isSome → con.streamid = id := h.streamid hc hcon
  have hset : ∀ type, Purged streamOf id (w.setConnection c { con with type := type })
      (alone.setConnection c { con with type := type }) :=
    fun type => h.setConnectionOwn hc hstay
  cases hheader : readHeader con.udp buf with
  | error ret => exact ⟨h, rfl⟩
  | ok header =>
    simp only [requestOf, hheader] at hrequest
    dsimp only
    unfold Server.onCommand
    rw [h.connection hc, Server.connection_eq_ok.mpr hcon, ok_bind, ok_bind]
    by_cases hu2r : header.cmd = CMD_RTP_U2R_REQ_STATE
    · rw [if_pos hu2r] at hrequest
      rw [if_pos hu2r, if_pos hu2r]
      cases hdecode : decodeU2rReqState header buf with
      | error f => exact coupled_error trivial
      | ok asked =>
        refine onReqState_own (hset .uploader) hc _ (fun x hx => ?_) _
        exact hrequest .uploader x (by rw [hdecode, hx])
    rw [if_neg hu2r] at hrequest
    rw [if_neg hu2r, if_neg hu2r]
    by_cases hd2p : header.cmd = CMD_RTP_D2P_REQ_STATE
    · rw [if_pos hd2p] at hrequest
      rw [if_pos hd2p, if_pos hd2p]
      cases hdecode : decodeD2pReqState header buf with
      | error f => exact coupled_error trivial
      | ok asked =>
        refine onReqState_own (hset .player) hc _ (fun x hx => ?_) _
        exact hrequest .player x (by rw [hdecode, hx])
    rw [if_neg hd2p, if_neg hd2p]
    have hid : con.type ≠ .unknown → con.streamid = id := by
      intro htype
      apply hstay
      rw [← con.mode_isSome, (hfits con hcon).1]
      cases hkind : con.type with
      | unknown => exact absurd hkind htype
      | player => rfl
      | uploader => rfl
    refine Coupled.ite (fun _ => ⟨h, rfl⟩) fun _ => ?_
    refine Coupled.ite (fun _ => ?_) fun _ => ?_
    · refine Coupled.ite (fun _ => ⟨h, rfl⟩) fun htype => ?_
      refine Coupled.ite (fun _ => coupled_error trivial) fun _ => ?_
      refine Coupled.bind (onRecvRtp_own h hc (fun con' hcon' => ?_) _ _)
        fun w₁ alone₁ h₁ => ⟨h₁, rfl⟩
      cases hcon.symm.trans hcon'
      exact hid htype
    · refine Coupled.ite (fun _ => ?_) fun _ => ⟨h, rfl⟩
      refine Coupled.ite (fun _ => ⟨h, rfl⟩) fun _ => ?_
      refine Coupled.bind (coupled_any _) ?_
      rintro rtcp _ rfl
      exact Coupled.bind (onRecvRtcp_own h hc rtcp) fun w₁ alone₁ h₁ => ⟨h₁, rfl⟩

end Own

/-! ## Packets of another stream -/

section Other

variable {streamOf : Addr → StreamId} {id : StreamId} {w alone : Server} {env : ServerEnv} {c : Addr}

theorem sendRtp_other (h : Purged streamOf id w alone) (hc : streamOf c ≠ id) (purpose : Purpose)
    (rtp : Rtp) (len : Nat) (ssrc : BitVec 32) :
    Ends AnyFault (Purged streamOf id · alone) (w.sendRtp purpose c rtp len ssrc) := by
  unfold Server.sendRtp
  split
  · trivial
  · refine h.emitOther fun o ho => ?_
    rw [List.mem_singleton.mp ho]
    exact beq_false_of_ne hc

theorem sendFecs_other (h : Purged streamOf id w alone) (hc : streamOf c ≠ id) (sent : List Sent) :
    Ends AnyFault (Purged streamOf id · alone) (w.sendFecs c sent) :=
  Ends.foldlM sent (fun _ s _ h' => sendRtp_other h' hc .fec s.1 s.2 0) h

theorem sendTransOnHandleRtp_other (h : Purged streamOf id w alone)
    (hc : get32bitStreamId (streamOf c) ≠ get32bitStreamId id) {con : RtpConnection}
    (hcon : con.streamid = streamOf c) (t : RTPSendTrans) (rtp : Rtp) (len : Nat) :
    Ends AnyFault (Purged streamOf id · alone) (w.sendTransOnHandleRtp env c con t rtp len) := by
  refine Ends.bind (ends_any _) ?_
  rintro ⟨t', sent⟩ - -
  have hset : Purged streamOf id (w.setTrans c con (.send t')) alone :=
    h.setConnectionOther hc fun _ => hcon
  exact sendFecs_other hset (ne_of_key hc) sent

/-- The connection is one of `w`. -/
theorem connection_ends (w : Server) (c : Addr) :
    Ends AnyFault (fun con => w.connections[c]? = some con) (w.connection c) :=
  connection_table (SameTable.refl w) (w.live_any c)

theorem forwardTo_other (h : Purged streamOf id w alone)
    (hc : get32bitStreamId (streamOf c) ≠ get32bitStreamId id) (rtp : Rtp) (len : Nat) :
    Ends AnyFault (fun r => Purged streamOf id r.1 alone) (w.forwardTo env rtp len c) := by
  refine Ends.bind (connection_ends w c) fun con _ hcon => ?_
  split
  · refine Ends.bind (sendRtp_other h (ne_of_key hc) .forward _ len 0) fun w₁ _ h₁ => ?_
    cases htrans : con.trans with
    | none => trivial
    | some t =>
      cases t with
      | recv t => trivial
      | send t =>
        have hid := (h.stream c con hcon (by rw [htrans]; rfl)).1
        exact Ends.bind (sendTransOnHandleRtp_other h₁ hc hid t _ len) fun w₂ _ h₂ => h₂
  · exact h

theorem forwardRtp_other (h : Purged streamOf id w alone) {x : StreamId}
    (hx : get32bitStreamId x ≠ get32bitStreamId id) (rtp : Rtp) (len : Nat) :
    Ends AnyFault (fun r => Purged streamOf id r.1 alone) (w.forwardRtp env x rtp len) :=
  Ends.foldlM _ (fun r _ ha hr => forwardTo_other hr (h.mem_other hx ha) r.2 len) h

theorem forwardRtcp_other (h : Purged streamOf id w alone) {x : StreamId}
    (hx : get32bitStreamId x ≠ get32bitStreamId id) (type : RTPAVType)
    (info : RTCPPacketInformation) :
    Ends AnyFault (Purged streamOf id · alone) (w.forwardRtcp env x type info) := by
  refine Ends.foldlM _ (fun w₁ a ha h₁ => ?_) h
  have hother := h.mem_other hx ha
  refine Ends.bind (connection_ends w₁ a) fun con _ hcon => ?_
  split
  · cases htrans : con.trans with
    | none => trivial
    | some t =>
      cases t with
      | recv t => trivial
      | send t =>
        have hid := (h₁.stream a con hcon (by rw [htrans]; rfl)).1
        dsimp only
        generalize t.onUploaderNtp _ _ _ _ _ = reported
        obtain ⟨t', sent⟩ := reported
        have hset : Purged streamOf id (w₁.setTrans a con (.send t')) alone :=
          h₁.setConnectionOther hother fun _ => hid
        refine hset.emitOther fun o ho => ?_
        obtain ⟨sr, -, rfl⟩ := List.mem_map.mp ho
        exact beq_false_of_ne (ne_of_key hother)
  · exact h₁

theorem sendNackRtp_other (h : Purged streamOf id w alone) (hc : streamOf c ≠ id)
    (con : RtpConnection) (video : Bool) (seq : Seq) :
    Ends AnyFault (Purged streamOf id · alone) (w.sendNackRtp c con video seq) := by
  unfold Server.sendNackRtp
  split
  · refine Ends.bind (ends_any _) ?_
    rintro ⟨rtp, len⟩ - -
    cases rtp with
    | none => trivial
    | some rtp => exact sendRtp_other h hc .retransmit rtp len _
  · exact h

theorem setRtp_other (h : Purged streamOf id w alone) {x : StreamId}
    (hx : get32bitStreamId x ≠ get32bitStreamId id) (rtp : Rtp) (len : Nat) :
    Ends AnyFault (Purged streamOf id · alone) (w.setRtp env x rtp len) := by
  unfold Server.setRtp RtpCacheManager.setRtp
  cases w.rtpCache.caches (get32bitStreamId x) with
  | none => exact h
  | some media =>
    dsimp only
    cases media.setRtp env.time rtp len with
    | error f => trivial
    | ok r => exact h.setCacheOther (if_neg (Ne.symm hx))

/-- The receiver sessions of another stream do not reach this one. -/
theorem host_other (hc : get32bitStreamId (streamOf c) ≠ get32bitStreamId id) :
    (Server.host env c (streamOf c)).Keeps AnyFault (Purged streamOf id · alone) where
  get w _ := managerGetRtpBySeq_ends tableFaults_any.toMediaFaults w.rtpCache (streamOf c)
  setRtp w rtp len h := setRtp_other h hc rtp len
  forwardRtp w rtp len h := forwardRtp_other h hc rtp len
  recovered w s len h := by
    refine h.emitOther fun o ho => ?_
    rw [List.mem_singleton.mp ho]
    exact beq_false_of_ne (ne_of_key hc)

theorem transOnHandleRtp_other (h : Purged streamOf id w alone)
    (hc : get32bitStreamId (streamOf c) ≠ get32bitStreamId id) {con : RtpConnection}
    (hcon : con.streamid = streamOf c) (rtp : Rtp) (len : Nat) :
    Ends AnyFault (Purged streamOf id · alone) (w.transOnHandleRtp env c con rtp len) := by
  unfold Server.transOnHandleRtp
  cases con.trans with
  | none => trivial
  | some t =>
    cases t with
    | send t => exact sendTransOnHandleRtp_other h hc hcon t rtp len
    | recv t =>
      dsimp only
      rw [hcon]
      refine Ends.bind (RTPRecvTrans.onHandleRtp_ends tableFaults_any.toSessionFaults
        (host_other hc) env.fuel env.now h t rtp len) ?_
      rintro ⟨w₁, t₁⟩ - h₁
      exact h₁.setConnectionOther hc fun _ => hcon

theorem onRecvRtp_other (h : Purged streamOf id w alone)
    (hc : get32bitStreamId (streamOf c) ≠ get32bitStreamId id)
    (hid : ∀ con, w.connections[c]? = some con → con.streamid = streamOf c) (rtp : Rtp)
    (len : Nat) : Ends AnyFault (Purged streamOf id · alone) (w.onRecvRtp env c rtp len) := by
  refine Ends.bind (connection_ends w c) fun con _ hcon => ?_
  have hcon := hid con hcon
  refine Ends.bind (P := (Purged streamOf id · alone)) ?_ fun w₁ _ h₁ => ?_
  · unfold Server.storeMedia
    rw [hcon]
    split
    · exact h
    · exact setRtp_other h hc rtp len
  refine Ends.bind (transOnHandleRtp_other h₁ hc hcon rtp len) fun w₂ _ h₂ => ?_
  unfold Server.forwardMedia
  rw [hcon]
  split
  · exact h₂
  · exact Ends.bind (forwardRtp_other h₂ hc rtp len) fun r _ hr => hr

theorem transOnHandleRtcp_other (h : Purged streamOf id w alone)
    (hc : get32bitStreamId (streamOf c) ≠ get32bitStreamId id) {con : RtpConnection}
    (hcon : w.connections[c]? = some con) (info : RTCPPacketInformation) :
    Ends AnyFault (Purged streamOf id · alone) (w.transOnHandleRtcp env c con info) := by
  unfold Server.transOnHandleRtcp
  cases htrans : con.trans with
  | none => trivial
  | some t =>
    have hid := (h.stream c con hcon (by rw [htrans]; rfl)).1
    cases t with
    | recv t => exact h.setConnectionOther hc fun _ => hid
    | send t =>
      refine Ends.bind (ends_any _) ?_
      rintro ⟨t', again⟩ - -
      refine Ends.foldlM again (fun w₁ e _ h₁ => ?_) (h.setConnectionOther hc fun _ => hid)
      obtain ⟨video, seq⟩ := e
      exact sendNackRtp_other h₁ (ne_of_key hc) con video seq

theorem onRecvRtcp_other (h : Purged streamOf id w alone)
    (hc : get32bitStreamId (streamOf c) ≠ get32bitStreamId id) (rtcp : List Byte) :
    Ends AnyFault (Purged streamOf id · alone) (w.onRecvRtcp env c rtcp) := by
  refine Ends.bind (connection_ends w c) fun con _ hcon => ?_
  refine Ends.bind (transOnHandleRtcp_other h hc hcon _) fun w₁ _ h₁ => ?_
  split
  · exact h₁
  · split
    · refine Ends.bind (connection_ends w₁ c) fun con₁ _ hcon₁ => ?_
      cases htrans : con₁.trans with
      | none => trivial
      | some t =>
        have hid := (h₁.stream c con₁ hcon₁ (by rw [htrans]; rfl)).1
        dsimp only
        rw [hid]
        split
        · exact h₁
        · exact forwardRtcp_other h₁ hc _ _
    · exact h₁

/-! ### SDPs -/

theorem onSdp_other (h : Purged streamOf id w alone) {x : StreamId}
    (hx : get32bitStreamId x ≠ get32bitStreamId id) (sdp : SdpText) :
    Purged streamOf id (w.onSdp x sdp) alone := by
  unfold Server.onSdp
  cases hrequests : w.sdpRequests[get32bitStreamId x]? with
  | none => exact h
  | some requests =>
    have herase : Purged streamOf id
        { w with sdpRequests := w.sdpRequests.erase (get32bitStreamId x) } alone :=
      { h with
        requests := by
          rw [TreeMap.getElem?_erase,
            if_neg fun heq : compare (get32bitStreamId x) (get32bitStreamId id) = .eq =>
              hx (Std.compare_eq_iff_eq.mp heq)]
          exact h.requests
        wanted := by
          intro key requests req y hkey
          rw [TreeMap.getElem?_erase] at hkey
          split at hkey
          · cases hkey
          · exact h.wanted key requests req y hkey }
    refine herase.emitOther fun o ho => ?_
    obtain ⟨⟨req, wanted⟩, hmem, rfl⟩ := List.mem_map.mp ho
    obtain ⟨hkey, -⟩ := h.wanted _ _ _ _ hrequests (TreeMap.mem_toList_iff_getElem?_eq_some.mp hmem)
    exact beq_false_of_ne (ne_of_key (hkey ▸ hx))

theorem setSdp_other (h : Purged streamOf id w alone) {x : StreamId}
    (hx : get32bitStreamId x ≠ get32bitStreamId id) (sdp : SdpText) :
    Ends AnyFault (Purged streamOf id · alone) (w.setSdp env x sdp) := by
  have hcache : Purged streamOf id
      { w with rtpCache := w.rtpCache.setSdp env.sdpInfo env.time x sdp } alone :=
    h.setCacheOther (if_neg (Ne.symm hx))
  have hsdp := onSdp_other hcache hx sdp
  refine Ends.foldlM _ (fun w₁ a ha h₁ => ?_) hsdp
  have hother := hsdp.mem_other hx ha
  refine Ends.bind (connection_ends w₁ a) fun con _ hcon => ?_
  cases htrans : con.trans with
  | none => trivial
  | some t =>
    have hid := (h₁.stream a con hcon (by rw [htrans]; rfl)).1
    exact h₁.setConnectionOther hother fun _ => hid

/-! ### Closing and opening -/

theorem closeTrans_other (h : Purged streamOf id w alone) (hc : streamOf c ≠ id)
    {con : RtpConnection} (hcon : w.connections[c]? = some con) :
    Purged streamOf id (w.closeTrans c con) alone := by
  unfold Server.closeTrans
  cases htrans : con.trans with
  | none => exact h
  | some t =>
    obtain ⟨hid, hapart⟩ := h.stream c con hcon (by rw [htrans]; rfl)
    have hkey : get32bitStreamId con.streamid ≠ get32bitStreamId id := by
      rw [hid]
      exact fun hsame => hc (hapart hsame)
    refine h.alterOther hkey fun group hgroup a ha => ?_
    obtain ⟨all, hall, ha⟩ := mem_of_erase hgroup ha
    exact (h.member _ a (Server.mem_group.mpr ⟨all, hall, ha⟩)).1

theorem destroy_other (h : Purged streamOf id w alone) (hc : streamOf c ≠ id) :
    Ends AnyFault (Purged streamOf id · alone) (w.destroy c) :=
  Ends.bind (connection_ends w c) fun _ _ hcon => (closeTrans_other h hc hcon).eraseOther hc

theorem destroyUploaders_other (h : Purged streamOf id w alone) (x : StreamId) {cs : List Addr}
    (hcs : ∀ a ∈ cs, streamOf a ≠ id) :
    Ends AnyFault (Purged streamOf id · alone) (Server.destroyUploaders x w cs) := by
  induction cs generalizing w with
  | nil => exact h
  | cons a cs ih =>
    have hrest := fun b hb => hcs b (List.mem_cons_of_mem a hb)
    rw [Server.destroyUploaders]
    refine Ends.bind (connection_ends w a) fun con _ _ => ?_
    split
    · refine Ends.bind (destroy_other h (hcs a List.mem_cons_self)) fun w₁ _ h₁ => ?_
      split
      · exact ih h₁ hrest
      · trivial
    · exact ih h hrest

theorem join_other (h : Purged streamOf id w alone)
    (hc : get32bitStreamId (streamOf c) ≠ get32bitStreamId id) {con : RtpConnection}
    (hcon : con.streamid = streamOf c) (t : AnyTrans) :
    Purged streamOf id (w.join c con t) alone := by
  have hset : Purged streamOf id (w.setTrans c con t) alone :=
    h.setConnectionOther hc fun _ => hcon
  unfold Server.join
  rw [hcon]
  refine hset.alterOther hc fun group hgroup a ha => ?_
  rcases mem_of_insert hgroup ha with rfl | ⟨before, hbefore, ha⟩
  · rfl
  · exact (hset.member _ a (Server.mem_group.mpr ⟨before, hbefore, ha⟩)).1

theorem openTrans_other (h : Purged streamOf id w alone)
    (hc : get32bitStreamId (streamOf c) ≠ get32bitStreamId id)
    (hid : ∀ con, w.connections[c]? = some con → con.streamid = streamOf c)
    (config : RTPTransConfig) :
    Ends AnyFault (Purged streamOf id · alone) (w.openTrans env c config) := by
  refine Ends.bind (connection_ends w c) fun con _ hcon => ?_
  split
  · refine Ends.bind (connection_ends w c) fun con₁ _ hcon₁ => ?_
    refine Ends.bind (ends_any _) fun sdp _ _ => ?_
    have hstream := hid con₁ hcon₁
    have hjoin : ∀ con', con'.streamid = con₁.streamid → ∀ t,
        Purged streamOf id (w.join c con' t) alone :=
      fun con' hsame t => join_other h hc (hsame.trans hstream) t
    generalize timeBases _ = bases
    obtain ⟨audio, video⟩ := bases
    refine hjoin _ ?_ _
    rfl
  · refine Ends.bind (connection_ends w c) fun con₁ _ hcon₁ => ?_
    have hstream := hid con₁ hcon₁
    have hmembers : ∀ a ∈ w.members con₁.streamid, streamOf a ≠ id :=
      fun a ha => ne_of_key (h.mem_other (hstream ▸ hc) ha)
    have huploaders := destroyUploaders_other h con₁.streamid hmembers
    refine Ends.bind (huploaders.and (destroyUploaders_fits con₁.streamid w _)) ?_
    rintro w₂ - ⟨h₂, -, hback⟩
    refine Ends.bind (connection_ends w₂ c) fun con₂ _ hcon₂ => ?_
    exact join_other h₂ hc (hid con₂ (hback c con₂ hcon₂)) _

/-! ### Messages -/

theorem onReqState_other (h : Purged streamOf id w alone)
    (hc : get32bitStreamId (streamOf c) ≠ get32bitStreamId id) (config : RTPTransConfig)
    {asked : Option StreamId} (hasked : ∀ x, asked = some x → x = streamOf c) (failed : Int) :
    Ends AnyFault (fun r => Purged streamOf id r.1 alone)
      (w.onReqState env c config asked failed) := by
  cases asked with
  | none => exact h
  | some x =>
    obtain rfl := hasked x rfl
    refine Ends.bind (connection_ends w c) fun con _ _ => ?_
    have hset : Purged streamOf id (w.setConnection c { con with streamid := streamOf c }) alone :=
      h.setConnectionOther hc fun _ => rfl
    refine Ends.bind (openTrans_other hset hc (fun con' hcon' => ?_) config) fun w₁ _ h₁ => ?_
    · rw [Server.getElem?_setConnection, if_pos rfl] at hcon'
      cases hcon'
      rfl
    · refine h₁.emitOther fun o ho => ?_
      rw [List.mem_singleton.mp ho]
      exact beq_false_of_ne (ne_of_key hc)

/-- `OnReadPacket` for a connection of another stream. -/
theorem onReadPacket_other (h : Purged streamOf id w alone)
    (hc : get32bitStreamId (streamOf c) ≠ get32bitStreamId id) (hfits : w.FitsAt c)
    {buf : ReadBuffer}
    (hreq : ∀ con, w.connections[c]? = some con → ∀ type x,
      requestOf con.udp buf = some (type, x) → x = streamOf c) :
    Ends AnyFault (fun r => Purged streamOf id r.1 alone) (w.onReadPacket env c buf) := by
  refine Ends.bind (connection_ends w c) fun con _ hcon => ?_
  have hrequest := hreq con hcon
  have hstay : con.trans.isSome → con.streamid = streamOf c := fun hopen =>
    (h.stream c con hcon hopen).1
  have hset : ∀ type, Purged streamOf id (w.setConnection c { con with type := type }) alone :=
    fun type => h.setConnectionOther hc hstay
  cases hheader : readHeader con.udp buf with
  | error ret => exact h
  | ok header =>
    simp only [requestOf, hheader] at hrequest
    dsimp only
    unfold Server.onCommand
    rw [Server.connection_eq_ok.mpr hcon, ok_bind]
    by_cases hu2r : header.cmd = CMD_RTP_U2R_REQ_STATE
    · rw [if_pos hu2r] at hrequest ⊢
      cases hdecode : decodeU2rReqState header buf with
      | error f => trivial
      | ok asked =>
        refine onReqState_other (hset .uploader) hc _ (fun x hx => ?_) _
        exact hrequest .uploader x (by rw [hdecode, hx])
    rw [if_neg hu2r] at hrequest ⊢
    by_cases hd2p : header.cmd = CMD_RTP_D2P_REQ_STATE
    · rw [if_pos hd2p] at hrequest ⊢
      cases hdecode : decodeD2pReqState header buf with
      | error f => trivial
      | ok asked =>
        refine onReqState_other (hset .player) hc _ (fun x hx => ?_) _
        exact hrequest .player x (by rw [hdecode, hx])
    rw [if_neg hd2p]
    have hid : con.type ≠ .unknown → con.streamid = streamOf c := by
      intro htype
      apply hstay
      rw [← con.mode_isSome, (hfits con hcon).1]
      cases hkind : con.type with
      | unknown => exact absurd hkind htype
      | player => rfl
      | uploader => rfl
    split
    · exact h
    · split
      · split
        · exact h
        · next htype =>
          split
          · trivial
          · refine Ends.bind (onRecvRtp_other h hc (fun con' hcon' => ?_) _ _) fun w₁ _ h₁ => h₁
            cases hcon.symm.trans hcon'
            exact hid htype
      · split
        · split
          · exact h
          · refine Ends.bind (ends_any _) fun rtcp _ _ => ?_
            exact Ends.bind (onRecvRtcp_other h hc rtcp) fun w₁ _ h₁ => h₁
        · exact h

end Other

/-! ## Timers -/

section Timers

variable {streamOf : Addr → StreamId} {id : StreamId} {w alone : Server} {env : ServerEnv}

/-- A map that holds the entries of some keys of another lists them in its order. -/
theorem toList_of_keys {α β : Type} [Ord α] [TransOrd α] [LawfulEqOrd α]
    {m m' : TreeMap α β compare} {p : α → Bool} (hpos : ∀ k, p k = true → m'[k]? = m[k]?)
    (hneg : ∀ k, p k = false → m'[k]? = none) :
    m'.toList = m.toList.filter fun e => p e.1 := by
  rw [← TreeMap.toList_filter (f := fun k _ => p k)]
  refine TreeMap.Equiv.toList_eq (TreeMap.Equiv.of_forall_constGet?_eq fun k => ?_)
  rw [TreeMap.getElem?_filter']
  cases hk : p k with
  | true =>
    rw [hpos k hk]
    cases m[k]? with
    | none => rfl
    | some v => rfl
  | false =>
    rw [hneg k hk]
    cases m[k]? with
    | none => rfl
    | some v => rfl

/-- Where `q` holds of all that comes from `a` or of none of it, as `p a` says. -/
theorem flatMap_filter {α β : Type} {f : α → List β} {p : α → Bool} {q : β → Bool} {l : List α}
    (h : ∀ a ∈ l, ∀ b ∈ f a, q b = p a) : (l.filter p).flatMap f = (l.flatMap f).filter q := by
  induction l with
  | nil => rfl
  | cons a l ih =>
    have ha := h a List.mem_cons_self
    rw [List.flatMap_cons, List.filter_append,
      ← ih fun b hb => h b (List.mem_cons_of_mem a hb)]
    cases hp : p a with
    | true =>
      rw [List.filter_cons_of_pos hp, List.flatMap_cons,
        List.filter_eq_self.mpr fun b hb => (ha b hb).trans hp]
    | false =>
      have hnone : (f a).filter q = [] := List.filter_eq_nil_iff.mpr fun b hb =>
        Bool.not_eq_true _ ▸ (ha b hb).trans hp
      rw [List.filter_cons_of_neg (by rw [hp]; exact Bool.false_ne_true), hnone, List.nil_append]

/-- Every member of a group, and those the purged server has. -/
theorem Purged.allMembers (h : Purged streamOf id w alone) :
    (alone.streamGroups.toList.flatMap fun e => e.2.toList) =
      (w.streamGroups.toList.flatMap fun e => e.2.toList).filter (streamOf · == id) := by
  rw [toList_of_keys (m := w.streamGroups) (p := (· == get32bitStreamId id))
    (fun key hkey => (beq_iff_eq.mp hkey) ▸ h.group) fun key hkey => h.noGroup key (beq_eq_false_iff_ne.mp hkey)]
  refine flatMap_filter fun e he c hc => ?_
  obtain ⟨key, group⟩ := e
  obtain ⟨hkey, hapart⟩ := h.member key c (Server.mem_group.mpr
    ⟨group, TreeMap.mem_toList_iff_getElem?_eq_some.mp he, TreeSet.mem_toList.mp hc⟩)
  rw [Bool.eq_iff_iff, beq_iff_eq, beq_iff_eq]
  refine ⟨fun hown => hkey.trans (by rw [hown]), fun hsame => hapart (hkey.symm.trans hsame)⟩

theorem Purged.member_apart (h : Purged streamOf id w alone) :
    ∀ c ∈ w.streamGroups.toList.flatMap (fun e => e.2.toList), Apart id (streamOf c) := by
  intro c hc
  obtain ⟨⟨key, group⟩, hmem, hc⟩ := List.mem_flatMap.mp hc
  exact (h.member key c (Server.mem_group.mpr
    ⟨group, TreeMap.mem_toList_iff_getElem?_eq_some.mp hmem, TreeSet.mem_toList.mp hc⟩)).2

/-- The servers are related, and of the connections found dead the purged one has its own. -/
def TimedAlike (streamOf : Addr → StreamId) (id : StreamId) (r r' : Server × TreeSet Addr) : Prop :=
  Purged streamOf id r.1 r'.1 ∧ ∀ a, a ∈ r'.2 ↔ a ∈ r.2 ∧ streamOf a = id

theorem timerOf_own {r r' : Server × TreeSet Addr} (h : TimedAlike streamOf id r r') {c : Addr}
    (hc : streamOf c = id) :
    Coupled AnyFault (TimedAlike streamOf id) (Server.timerOf env r c)
      (Server.timerOf env r' c) := by
  obtain ⟨w, trash⟩ := r
  obtain ⟨alone, trash'⟩ := r'
  obtain ⟨h, htrash⟩ := h
  refine Coupled.bind (connection_own h hc) ?_
  rintro _ con ⟨rfl, hcon⟩
  cases htrans : con.trans with
  | none => exact coupled_error trivial
  | some t =>
    have hid := h.streamid hc hcon (by rw [htrans]; rfl)
    dsimp only
    generalize t.onTimer env.now = timed
    obtain ⟨t', alive⟩ := timed
    refine ⟨h.setConnectionOwn hc fun _ => hid, fun a => ?_⟩
    cases alive with
    | true => exact htrash a
    | false =>
      dsimp only
      rw [if_neg Bool.false_ne_true, if_neg Bool.false_ne_true, TreeSet.mem_insert,
        TreeSet.mem_insert, Nat.compare_eq_eq, htrash a, or_and_right]
      refine or_congr (iff_self_and.mpr fun hca => ?_) Iff.rfl
      rw [← hca, hc]

theorem timerOf_other {r r' : Server × TreeSet Addr} (h : TimedAlike streamOf id r r') {c : Addr}
    (hc : get32bitStreamId (streamOf c) ≠ get32bitStreamId id) :
    Ends AnyFault (TimedAlike streamOf id · r') (Server.timerOf env r c) := by
  obtain ⟨w, trash⟩ := r
  obtain ⟨h, htrash⟩ := h
  refine Ends.bind (connection_ends w c) fun con _ hcon => ?_
  cases htrans : con.trans with
  | none => trivial
  | some t =>
    have hid := (h.stream c con hcon (by rw [htrans]; rfl)).1
    dsimp only
    generalize t.onTimer env.now = timed
    obtain ⟨t', alive⟩ := timed
    refine ⟨h.setConnectionOther hc fun _ => hid, fun a => ?_⟩
    cases alive with
    | true => exact htrash a
    | false =>
      dsimp only
      rw [if_neg Bool.false_ne_true, TreeSet.mem_insert, Nat.compare_eq_eq, htrash a, or_and_right]
      refine (or_iff_right fun hca => ?_).symm
      exact ne_of_key hc (hca.1 ▸ hca.2)

/-- Of the connections that are destroyed, the purged server has its own. -/
theorem destroyAll_alike (h : Purged streamOf id w alone) (cs : List Addr) :
    Leads (Purged streamOf id) (cs.foldlM Server.destroy w)
      ((cs.filter (streamOf · == id)).foldlM Server.destroy alone) := by
  refine Along.filter (E := AnyFault) (P := fun _ _ => True) ?_ ?_
    (Along.of_mem fun _ _ => trivial) h
  · exact fun w alone c h _ hc => (destroy_own h (beq_iff_eq.mp hc)).leads
  · exact fun w alone c h _ hc => destroy_other h (beq_eq_false_iff_ne.mp hc)

/-- `OnTimerImpl` of the manager. -/
theorem onTimer_alike (h : Purged streamOf id w alone) :
    Leads (Purged streamOf id) (w.onTimer env) (alone.onTimer env) := by
  unfold Server.onTimer
  dsimp only
  rw [h.allMembers]
  refine Leads.bind (R := TimedAlike streamOf id) ?_ ?_
  · refine Along.filter (E := AnyFault) (P := fun _ c => Apart id (streamOf c)) ?_ ?_
      (Along.of_mem h.member_apart) ⟨h, fun a => ?_⟩
    · exact fun r r' c hr _ hc => (timerOf_own hr (beq_iff_eq.mp hc)).leads
    · intro r r' c hr hapart hc
      exact timerOf_other hr fun hsame => beq_eq_false_iff_ne.mp hc (hapart hsame)
    · exact iff_of_false TreeSet.not_mem_emptyc fun h => TreeSet.not_mem_emptyc h.1
  · rintro ⟨w₁, trash⟩ ⟨alone₁, trash'⟩ ⟨h₁, htrash⟩
    have hown : trash'.toList = trash.toList.filter (streamOf · == id) := by
      rw [← TreeSet.toList_filter]
      refine TreeSet.Equiv.toList_eq (TreeSet.Equiv.of_forall_mem_iff fun a => ?_)
      rw [htrash a, TreeSet.mem_filter]
      refine ⟨fun ⟨hmem, ha⟩ => ⟨hmem, ?_⟩, fun ⟨hmem, ha⟩ => ⟨hmem, ?_⟩⟩
      · rw [TreeSet.get_eq]
        exact beq_iff_eq.mpr ha
      · rw [TreeSet.get_eq] at ha
        exact beq_iff_eq.mp ha
    dsimp only
    rw [hown]
    exact destroyAll_alike h₁ trash.toList

/-- `OnTimerImpl` of the TCP connections. -/
theorem tcpTimer_alike (h : Purged streamOf id w alone) :
    Leads (Purged streamOf id) (w.tcpTimer env) (alone.tcpTimer env) := by
  unfold Server.tcpTimer
  rw [toList_of_keys (m := w.connections) (p := (streamOf · == id))
    (fun c hc => h.own c (beq_iff_eq.mp hc)) fun c hc => h.noConnection c (beq_eq_false_iff_ne.mp hc),
    List.filter_comm]
  have hdestroy : ∀ cs : List (Addr × RtpConnection), Leads (Purged streamOf id)
      ((cs.map (·.1)).foldlM Server.destroy w)
      (((cs.filter (streamOf ·.1 == id)).map (·.1)).foldlM Server.destroy alone) := by
    intro cs
    have hcs := destroyAll_alike h (cs.map (·.1))
    rw [List.filter_map] at hcs
    exact hcs
  exact hdestroy _

end Timers

/-! ## Events -/

section Events

variable {streamOf : Addr → StreamId} {id : StreamId} {w alone : Server} {env : ServerEnv} {c : Addr}

theorem accept_own (h : Purged streamOf id w alone) (hc : streamOf c = id) {con : RtpConnection}
    (hcon : con.trans.isSome → con.streamid = id) :
    Purged streamOf id (w.accept c con) (alone.accept c con) :=
  { h.setConnectionOwn hc hcon with
    allocated := by
      intro a ha
      unfold Server.accept
      rw [TreeSet.mem_insert, TreeSet.mem_insert]
      exact or_congr Iff.rfl (h.allocated a ha) }

theorem accept_other (h : Purged streamOf id w alone)
    (hc : get32bitStreamId (streamOf c) ≠ get32bitStreamId id) {con : RtpConnection}
    (hcon : con.trans.isSome → con.streamid = streamOf c) :
    Purged streamOf id (w.accept c con) alone :=
  { h.setConnectionOther hc hcon with
    allocated := by
      intro a ha
      unfold Server.accept
      rw [TreeSet.mem_insert, Nat.compare_eq_eq, h.allocated a ha]
      refine (or_iff_right fun hca : c = a => ?_).symm
      exact ne_of_key hc (hca ▸ ha) }

/-- The requests that wait for the stream's SDP change. -/
theorem Purged.alterRequestsOwn (h : Purged streamOf id w alone)
    {f : Option (TreeMap Nat StreamId compare) → Option (TreeMap Nat StreamId compare)}
    (hf : ∀ requests, f (w.sdpRequests[get32bitStreamId id]?) = some requests →
      ∀ (req : Nat) x, requests[req]? = some x →
        get32bitStreamId x = get32bitStreamId id ∧ Apart id x) :
    Purged streamOf id { w with sdpRequests := w.sdpRequests.alter (get32bitStreamId id) f }
      { alone with sdpRequests := alone.sdpRequests.alter (get32bitStreamId id) f } :=
  { h with
    requests := by rw [TreeMap.getElem?_alter, TreeMap.getElem?_alter, h.requests]
    wanted := by
      intro key requests req x hkey
      rw [TreeMap.getElem?_alter] at hkey
      split at hkey
      · next heq =>
        rw [← Std.compare_eq_iff_eq.mp heq]
        exact hf requests hkey req x
      · exact h.wanted key requests req x hkey }

/-- Those that wait for another one's change. -/
theorem Purged.alterRequestsOther (h : Purged streamOf id w alone) {key : BitVec 32}
    (hkey : key ≠ get32bitStreamId id)
    {f : Option (TreeMap Nat StreamId compare) → Option (TreeMap Nat StreamId compare)}
    (hf : ∀ requests, f (w.sdpRequests[key]?) = some requests →
      ∀ (req : Nat) x, requests[req]? = some x → get32bitStreamId x = key) :
    Purged streamOf id { w with sdpRequests := w.sdpRequests.alter key f } alone :=
  { h with
    requests := by
      rw [TreeMap.getElem?_alter, if_neg fun heq : compare key (get32bitStreamId id) = .eq =>
        hkey (Std.compare_eq_iff_eq.mp heq)]
      exact h.requests
    wanted := by
      intro key' requests req x hkey'
      rw [TreeMap.getElem?_alter] at hkey'
      split at hkey'
      · next heq =>
        have hx := hf requests hkey' req x
        rw [← Std.compare_eq_iff_eq.mp heq]
        exact fun hreq => ⟨hx hreq, fun hsame => absurd ((hx hreq).symm.trans hsame) hkey⟩
      · exact h.wanted key' requests req x hkey' }

/-- The requests of a stream with one more are the ones before and the new one. -/
theorem request_of_insert {requests : Option (TreeMap Nat StreamId compare)} {req : Nat}
    {x : StreamId} {all : TreeMap Nat StreamId compare}
    (hall : some ((requests.getD ∅).insert req x) = some all) {r : Nat} {y : StreamId}
    (hy : all[r]? = some y) : y = x ∨ ∃ before, requests = some before ∧ before[r]? = some y := by
  cases hall
  rw [TreeMap.getElem?_insert] at hy
  split at hy
  · exact Or.inl (Option.some.inj hy).symm
  · cases requests with
    | none => simp only [Option.getD_none, TreeMap.getElem?_emptyc, reduceCtorEq] at hy
    | some before => exact Or.inr ⟨before, rfl, hy⟩

/-- The requests of a stream with one less were there before. -/
theorem request_of_erase {requests : Option (TreeMap Nat StreamId compare)} {req : Nat}
    {rest : TreeMap Nat StreamId compare}
    (hrest : (requests.map (·.erase req)).filter (fun rest => !rest.isEmpty) = some rest) {r : Nat}
    {y : StreamId} (hy : rest[r]? = some y) :
    ∃ before, requests = some before ∧ before[r]? = some y := by
  cases requests with
  | none => cases hrest
  | some before =>
    obtain ⟨heq, -⟩ := Option.filter_eq_some_iff.mp hrest
    cases heq
    rw [TreeMap.getElem?_erase] at hy
    split at hy
    · cases hy
    · exact ⟨before, rfl, hy⟩

/-- `HttpDownloadSdpHander` for the stream. -/
theorem downloadSdp_own (h : Purged streamOf id w alone) (req : Nat) :
    Coupled AnyFault (Purged streamOf id) (w.downloadSdp env req id)
      (alone.downloadSdp env req id) := by
  unfold Server.downloadSdp
  rw [h.getSdp]
  refine Coupled.bind (coupled_any _) ?_
  rintro sdp _ rfl
  refine Coupled.ite (fun _ => ?_) fun _ => h.emitOwn fun o ho => ?_
  · refine h.alterRequestsOwn fun requests hrequests r x hx => ?_
    rcases request_of_insert hrequests hx with rfl | ⟨before, hbefore, hx⟩
    · exact ⟨rfl, apart_self x⟩
    · exact h.wanted _ before r x hbefore hx
  · rw [List.mem_singleton.mp ho]
    exact beq_self_eq_true id

theorem downloadSdp_other (h : Purged streamOf id w alone) {x : StreamId}
    (hx : get32bitStreamId x ≠ get32bitStreamId id) (req : Nat) :
    Ends AnyFault (Purged streamOf id · alone) (w.downloadSdp env req x) := by
  refine Ends.bind (ends_any _) fun sdp _ _ => ?_
  split
  · refine h.alterRequestsOther hx fun requests hrequests r y hy => ?_
    rcases request_of_insert hrequests hy with rfl | ⟨before, hbefore, hy⟩
    · rfl
    · exact (h.wanted _ before r y hbefore hy).1
  · refine h.emitOther fun o ho => ?_
    rw [List.mem_singleton.mp ho]
    exact beq_false_of_ne (ne_of_key hx)

/-- The event's stream is `id`, or has other low 32 bits. -/
theorem Server.Separate.key {e : ServerEnv × Event} (h : w.Separate streamOf id e) {x : StreamId}
    (hx : e.2.stream streamOf = some x) (hne : (x == id) = false) :
    get32bitStreamId x ≠ get32bitStreamId id :=
  fun hsame => beq_eq_false_iff_ne.mp hne (h.apart x hx hsame)

theorem Purged.contains (h : Purged streamOf id w alone) (hc : streamOf c = id) :
    alone.connections.contains c = w.connections.contains c := by
  rw [TreeMap.contains_eq_isSome_getElem?, TreeMap.contains_eq_isSome_getElem?, h.own c hc]

theorem Purged.contains_allocated (h : Purged streamOf id w alone) (hc : streamOf c = id) :
    alone.allocated.contains c = w.allocated.contains c := by
  rw [Bool.eq_iff_iff, TreeSet.contains_iff_mem, TreeSet.contains_iff_mem, h.allocated c hc]

/-- An event that concerns `id` goes alike. -/
theorem step_alike {e : ServerEnv × Event} (h : Purged streamOf id w alone) (hw : w.Fits)
    (hsep : w.Separate streamOf id e) (he : e.2.concerns streamOf id = true) :
    Leads (Purged streamOf id) (w.step e.1 e.2) (alone.step e.1 e.2) := by
  obtain ⟨env, e⟩ := e
  cases e with
  | accept c udp =>
    have hc : streamOf c = id := beq_iff_eq.mp he
    simp only [Server.step]
    rw [h.contains_allocated hc]
    refine Coupled.leads (E := AnyFault) ?_
    exact Coupled.ite (fun _ => h) fun _ =>
      accept_own h hc fun hopen => absurd hopen Bool.false_ne_true
  | packet c buf =>
    have hc : streamOf c = id := beq_iff_eq.mp he
    have hread : Coupled AnyFault (PurgedWith streamOf id) (w.onReadPacket env c buf)
        (alone.onReadPacket env c buf) :=
      onReadPacket_own h hc (hw c) fun con hcon type x hx =>
        (hsep.request hcon type x hx).trans hc
    simp only [Server.step]
    rw [h.contains hc]
    refine Coupled.leads (E := AnyFault) ?_
    refine Coupled.ite (fun _ => Coupled.bind hread ?_) fun _ => h
    rintro ⟨w₁, ret⟩ ⟨alone₁, _⟩ ⟨h₁, rfl⟩
    exact Coupled.ite (fun _ => destroy_own h₁ hc) fun _ => h₁
  | closed c =>
    have hc : streamOf c = id := beq_iff_eq.mp he
    simp only [Server.step]
    rw [h.contains hc]
    refine Coupled.leads (E := AnyFault) ?_
    exact Coupled.ite (fun _ => destroy_own h hc) fun _ => h
  | pull c x =>
    obtain rfl : x = id := beq_iff_eq.mp he
    have hc := (hsep.asks (c, x) rfl).symm
    simp only [Server.step]
    rw [h.contains_allocated hc]
    refine Coupled.leads (E := AnyFault) ?_
    refine Coupled.ite (fun _ => h) fun _ => ?_
    refine openTrans_own (accept_own h hc fun _ => rfl) hc (fun con hcon => ?_) _
    cases ((Server.getElem?_setConnection w c _ c).trans (if_pos rfl)).symm.trans hcon
    rfl
  | putSdp x sdp =>
    obtain rfl : x = id := beq_iff_eq.mp he
    exact (setSdp_own h sdp).leads
  | downloadSdp req x =>
    obtain rfl : x = id := beq_iff_eq.mp he
    exact (downloadSdp_own h req).leads
  | requestClosed req x =>
    obtain rfl : x = id := beq_iff_eq.mp he
    refine Coupled.leads (E := AnyFault) (h.alterRequestsOwn fun rest hrest r y hy => ?_)
    obtain ⟨before, hbefore, hy⟩ := request_of_erase hrest hy
    exact h.wanted _ before r y hbefore hy
  | tcpTimer => exact tcpTimer_alike h
  | transTimer => exact onTimer_alike h
  | cacheTimer =>
    refine Coupled.leads (E := AnyFault) (h.setCacheOwn ?_)
    exact congrArg (Option.filter fun c => decide (env.time - c.pushActive ≤ 20)) h.cache

/-- An event of another stream changes nothing of `id`. -/
theorem step_other {e : ServerEnv × Event} (h : Purged streamOf id w alone) (hw : w.Fits)
    (hsep : w.Separate streamOf id e) (he : e.2.concerns streamOf id = false) :
    Ends AnyFault (Purged streamOf id · alone) (w.step e.1 e.2) := by
  obtain ⟨env, e⟩ := e
  cases e with
  | accept c udp =>
    have hc := hsep.key rfl he
    simp only [Server.step]
    split
    · exact h
    · exact accept_other h hc fun hopen => absurd hopen Bool.false_ne_true
  | packet c buf =>
    have hc := hsep.key rfl he
    simp only [Server.step]
    split
    · refine Ends.bind (onReadPacket_other h hc (hw c) fun con hcon type x hx =>
        hsep.request hcon type x hx) ?_
      rintro ⟨w₁, ret⟩ - h₁
      dsimp only
      split
      · exact destroy_other h₁ (ne_of_key hc)
      · exact h₁
    · exact h
  | closed c =>
    have hc := hsep.key rfl he
    simp only [Server.step]
    split
    · exact destroy_other h (ne_of_key hc)
    · exact h
  | pull c x =>
    have hx := hsep.key rfl he
    obtain rfl : x = streamOf c := hsep.asks (c, x) rfl
    simp only [Server.step]
    split
    · exact h
    · refine openTrans_other (accept_other h hx fun _ => rfl) hx (fun con hcon => ?_) _
      cases ((Server.getElem?_setConnection w c _ c).trans (if_pos rfl)).symm.trans hcon
      rfl
  | putSdp x sdp => exact setSdp_other h (hsep.key rfl he) sdp
  | downloadSdp req x => exact downloadSdp_other h (hsep.key rfl he) req
  | requestClosed req x =>
    refine h.alterRequestsOther (hsep.key rfl he) fun rest hrest r y hy => ?_
    obtain ⟨before, hbefore, hy⟩ := request_of_erase hrest hy
    exact (h.wanted _ before r y hbefore hy).1
  | tcpTimer => cases he
  | transTimer => cases he
  | cacheTimer => cases he

end Events

/-! ## Runs -/

theorem purged_new (streamOf : Addr → StreamId) (id : StreamId) :
    Purged streamOf id Server.new Server.new where
  own _ _ := rfl
  noConnection _ _ := TreeMap.getElem?_emptyc
  allocated _ _ := Iff.rfl
  group := rfl
  noGroup _ _ := TreeMap.getElem?_emptyc
  cache := rfl
  requests := rfl
  outputs := rfl
  member key c hmem := by
    obtain ⟨group, hgroup, -⟩ := Server.mem_group.mp hmem
    simp only [Server.new, TreeMap.getElem?_emptyc, reduceCtorEq] at hgroup
  stream c con hcon := by simp only [Server.new, TreeMap.getElem?_emptyc, reduceCtorEq] at hcon
  wanted key requests req x hkey := by
    simp only [Server.new, TreeMap.getElem?_emptyc, reduceCtorEq] at hkey

/-- In a run in which no other stream has the low 32 bits of `id`, and each connection asks for its
own stream only, the clients of `id` get what they would get without the other streams, and so do
those that look into its cache. -/
theorem stream_isolated (streamOf : Addr → StreamId) (id : StreamId)
    (events : List (ServerEnv × Event)) (w : Server) (hrun : Server.new.run events = .ok w)
    (hsep : Along (fun w e => w.step e.1 e.2) (Server.Separate streamOf id) Server.new events) :
    ∃ alone, Server.new.run (events.filter fun e => e.2.concerns streamOf id) = .ok alone ∧
      alone.outputs = w.outputs.filter (Output.isFor streamOf id) ∧
      (∀ video seq, alone.rtpCache.getRtpBySeq id video seq = w.rtpCache.getRtpBySeq id video seq) ∧
      ∀ info, alone.rtpCache.getSdp info id = w.rtpCache.getSdp info id := by
  have hleads : Leads (fun w alone => w.Fits ∧ Purged streamOf id w alone) (Server.new.run events)
      (Server.new.run (events.filter fun e => e.2.concerns streamOf id)) := by
    refine Along.filter (E := AnyFault) ?_ ?_ hsep ⟨fits_new, purged_new streamOf id⟩
    · rintro w alone e ⟨hw, h⟩ hsep he w' hw'
      obtain ⟨alone', halone', h'⟩ := step_alike h hw hsep he w' hw'
      exact ⟨alone', halone', (step_fits hw e.2).of_ok hw', h'⟩
    · rintro w alone e ⟨hw, h⟩ hsep he
      exact (step_fits hw e.2).and (step_other h hw hsep he)
  obtain ⟨alone, halone, -, h⟩ := hleads w hrun
  exact ⟨alone, halone, h.outputs, fun video seq => by rw [h.getRtpBySeq], h.getSdp⟩

/-- Connection 3 is on stream 6, the others on stream 5. -/
def twoStreams (c : Addr) : StreamId := if c = 3 then 6 else 5

/-- An uploader and a player of stream 5, an uploader of stream 6, and a packet on each stream. -/
def twoStreamsRun : List (ServerEnv × Event) :=
  uploaderAndPlayerOpen ++
    [.accept 3 true, .packet 3 (reqMessage CMD_RTP_U2R_REQ_STATE 6 69),
      .packet 3 (rtpMessage CMD_RTP_U2R_PACKET (videoByte 8 1)),
      .packet 1 (rtpMessage CMD_RTP_U2R_PACKET (videoByte 8 6))].map (firstSecond, ·)

theorem stream_isolated_two : ∃ w alone, Server.new.run twoStreamsRun = .ok w ∧
    Server.new.run (twoStreamsRun.filter fun e => e.2.concerns twoStreams 5) = .ok alone ∧
      alone.outputs = w.outputs.filter (Output.isFor twoStreams 5) := by
  have hok : (Server.new.run twoStreamsRun).isOk = true := by decide +kernel
  cases hrun : Server.new.run twoStreamsRun with
  | error f =>
    rw [hrun] at hok
    cases hok
  | ok w =>
    obtain ⟨alone, halone, hout, -⟩ := stream_isolated twoStreams 5 twoStreamsRun w hrun
      (Along.of_check (p := fun w e => decide (w.Separate twoStreams 5 e))
        (fun _ _ => of_decide_eq_true) twoStreamsRun (by decide +kernel))
    exact ⟨w, alone, rfl, halone, hout⟩

end RtcMcu.ConnectionManager
