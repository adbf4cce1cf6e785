import Mathlib.Data.List.Nodup
import RtcMcu.Lib.Coupling
import RtcMcu.Relay.RtpRelay

/-!
# The lifetime of a pull client

The clients that live are those the manager lists, one for each stream (`Registered`), whatever
happens. Requests in flight end with their client, but a posted task does not: `StopPull` leaves it
behind, and it then runs on a client that was deleted. Where no client is stopped while its task is
pending, every method runs on a client that lives (`pull_client_lifetime`).
-/

namespace RtcMcu.Relay

open RtcMcu.MediaManager RtcMcu.Coupling

namespace RtpPullTcpManager

variable {env : PullEnv} {w w' : RtpPullTcpManager}

/-! ## The clients that live -/

/-- The manager lists exactly the clients that live, each under its stream, and no stream twice. A
request is in flight on the connection of a client that lives. -/
structure Registered (w : RtpPullTcpManager) : Prop where
  keys : (w.clients.map Prod.fst).Nodup
  live : ∀ e ∈ w.clients, ∃ cl, w.heap e.2 = some cl ∧ cl.streamid = e.1
  owned : ∀ c cl, w.heap c = some cl → (cl.streamid, c) ∈ w.clients
  requests : ∀ r ∈ w.requests, ∃ cl, w.heap r.2 = some cl ∧ cl.httpCon = some r.1
  fresh : ∀ c, (w.heap c).isSome = true → c < w.nextAddr

/-- Each stream has at most one client that lives. -/
def OneClient (w : RtpPullTcpManager) : Prop :=
  ∀ c c' cl cl', w.heap c = some cl → w.heap c' = some cl' → cl.streamid = cl'.streamid → c = c'

theorem Registered.eq_of_key (h : Registered w) {e e' : StreamId × Nat} (he : e ∈ w.clients)
    (he' : e' ∈ w.clients) (heq : e.1 = e'.1) : e = e' :=
  List.inj_on_of_nodup_map h.keys he he' heq

theorem Registered.oneClient (h : Registered w) : OneClient w := by
  intro c c' cl cl' hc hc' heq
  exact congrArg Prod.snd (h.eq_of_key (h.owned c cl hc) (h.owned c' cl' hc') heq)

/-- The listed clients lie at different addresses. -/
theorem Registered.addrs (h : Registered w) : (w.clients.map Prod.snd).Nodup := by
  refine (List.Nodup.of_map _ h.keys).map_on ?_
  intro e he e' he' heq
  obtain ⟨cl, hcl, hid⟩ := h.live e he
  obtain ⟨cl', hcl', hid'⟩ := h.live e' he'
  rw [heq, hcl'] at hcl
  cases hcl
  exact h.eq_of_key he he' (hid.symm.trans hid')

theorem find_eq_some (h : Registered w) {id : StreamId} {c : Nat} :
    w.find id = some c ↔ (id, c) ∈ w.clients := by
  rw [find, Option.map_eq_some_iff]
  constructor
  · rintro ⟨e, he, rfl⟩
    have hid := List.find?_some he
    rw [decide_eq_true_eq] at hid
    rw [← hid]
    exact List.mem_of_find?_eq_some he
  · intro hmem
    cases hfind : w.clients.find? fun e => e.1 = id with
    | none =>
      have hnone := List.find?_eq_none.mp hfind (id, c) hmem
      exact absurd (decide_eq_true rfl) hnone
    | some e =>
      have hid := List.find?_some hfind
      rw [decide_eq_true_eq] at hid
      exact ⟨e, rfl, by rw [h.eq_of_key (List.mem_of_find?_eq_some hfind) hmem hid]⟩

theorem Registered.isSome_of_find (h : Registered w) {id : StreamId} {c : Nat}
    (hfind : w.find id = some c) : (w.heap c).isSome = true := by
  obtain ⟨cl, hcl, -⟩ := h.live _ ((find_eq_some h).mp hfind)
  rw [hcl]
  rfl

theorem client_ok {c : Nat} (h : (w.heap c).isSome = true) :
    ∃ cl, w.heap c = some cl ∧ w.client c = .ok cl := by
  obtain ⟨cl, hcl⟩ := Option.isSome_iff_exists.mp h
  exact ⟨cl, hcl, by rw [client, hcl]⟩

theorem Registered.httpCon_of_request (h : Registered w) {c : Nat} {cl : RtpPullClient}
    (hcl : w.heap c = some cl) : ∀ r ∈ w.requests, r.2 = c → cl.httpCon = some r.1 := by
  intro r hr heq
  obtain ⟨cl', hcl', hcon⟩ := h.requests r hr
  rw [heq, hcl] at hcl'
  cases hcl'
  exact hcon

/-! ## Steps that delete no client -/

/-- What a step that deletes no client leaves: the clients that lived live on, and a task it posted
is for a client that lives. -/
structure After (w w' : RtpPullTcpManager) : Prop where
  registered : Registered w'
  lives : ∀ c, (w.heap c).isSome = true → (w'.heap c).isSome = true
  posted : ∀ t ∈ w'.tasks, t ∈ w.tasks ∨ (w'.heap t.2).isSome = true

theorem After.refl (h : Registered w) : After w w where
  registered := h
  lives _ hc := hc
  posted _ ht := .inl ht

theorem After.trans {w'' : RtpPullTcpManager} (h : After w w') (h' : After w' w'') :
    After w w'' where
  registered := h'.registered
  lives c hc := h'.lives c (h.lives c hc)
  posted t ht := by
    rcases h'.posted t ht with ht | ht
    · rcases h.posted t ht with ht | ht
      · exact .inl ht
      · exact .inr (h'.lives _ ht)
    · exact .inr ht

/-- A step ends well, or on a group of connections that has changed. -/
abbrev EndsAfter (w : RtpPullTcpManager) (x : Except PullFault RtpPullTcpManager) : Prop :=
  Ends (· = .staleIterator) (After w) x

theorem EndsAfter.trans {x : Except PullFault RtpPullTcpManager} (h : After w w')
    (hx : EndsAfter w' x) : EndsAfter w x :=
  Ends.mono hx fun _ _ h' => h.trans h'

/-- A client's members change. Its requests stay those of its HTTP connection. -/
theorem setClient_after (h : Registered w) {c : Nat} {cl : RtpPullClient} (cl' : RtpPullClient)
    (hcl : w.heap c = some cl) (hid : cl'.streamid = cl.streamid)
    (hreq : ∀ r ∈ w.requests, r.2 = c → cl'.httpCon = some r.1) :
    After w (w.setClient c (some cl')) := by
  have hheap : ∀ a, (w.setClient c (some cl')).heap a = if a = c then some cl' else w.heap a :=
    fun _ => rfl
  have hlives : ∀ a, (w.heap a).isSome = true →
      ((w.setClient c (some cl')).heap a).isSome = true := by
    intro a ha
    rw [hheap]
    split
    · rfl
    · exact ha
  refine ⟨⟨h.keys, ?_, ?_, ?_, ?_⟩, hlives, fun t ht => .inl ht⟩
  · intro e he
    obtain ⟨cle, hcle, hide⟩ := h.live e he
    rw [hheap]
    split
    · next heq =>
      rw [heq, hcl] at hcle
      cases hcle
      exact ⟨cl', rfl, hid.trans hide⟩
    · exact ⟨cle, hcle, hide⟩
  · intro a cla ha
    rw [hheap] at ha
    split at ha
    · next heq =>
      cases ha
      rw [hid, heq]
      exact h.owned c cl hcl
    · exact h.owned a cla ha
  · intro r hr
    rw [hheap]
    split
    · next heq => exact ⟨cl', rfl, hreq r hr heq⟩
    · exact h.requests r hr
  · intro a ha
    rw [hheap] at ha
    split at ha
    · next heq => exact h.fresh a (by rw [heq, hcl]; rfl)
    · exact h.fresh a ha

/-- Dropping requests, and what the manager does with its connections, touches no client. -/
theorem Registered.congr (h : Registered w) (hclients : w'.clients = w.clients)
    (hheap : w'.heap = w.heap) (hreq : w'.requests ⊆ w.requests) (hnext : w.nextAddr ≤ w'.nextAddr) :
    Registered w' where
  keys := by
    rw [hclients]
    exact h.keys
  live e he := by
    rw [hclients] at he
    rw [hheap]
    exact h.live e he
  owned c cl hc := by
    rw [hheap] at hc
    rw [hclients]
    exact h.owned c cl hc
  requests r hr := by
    rw [hheap]
    exact h.requests r (hreq hr)
  fresh c hc := by
    rw [hheap] at hc
    exact Nat.lt_of_lt_of_le (h.fresh c hc) hnext

theorem freeHttp_registered (h : Registered w) (con : Option Nat) : Registered (w.freeHttp con) :=
  h.congr rfl rfl (fun _ hr => List.mem_of_mem_filter hr) (Nat.le_refl _)

/-- `GetNextNode` replaces the client's HTTP connection and its request. -/
theorem requestSdp_ends (h : Registered w) {c : Nat} (hc : (w.heap c).isSome = true) (made : Bool) :
    EndsAfter w (w.requestSdp env c made) := by
  obtain ⟨cl, hcl, hok⟩ := client_ok hc
  rw [requestSdp, hok, ok_bind]
  have hfreed : After w (w.freeHttp cl.httpCon) :=
    ⟨freeHttp_registered h _, fun _ ha => ha, fun _ ht => .inl ht⟩
  have hnone : ∀ r ∈ (w.freeHttp cl.httpCon).requests, r.2 ≠ c := by
    intro r hr heq
    obtain ⟨hmem, hne⟩ := List.mem_filter.mp hr
    rw [decide_eq_true_eq] at hne
    exact hne (h.httpCon_of_request hcl r hmem heq).symm
  have hset := setClient_after (w := w.freeHttp cl.httpCon) hfreed.registered
    { cl with lastRetryTime := BitVec.ofNat 32 env.time, httpCon := some w.nextAddr }
    hcl rfl fun r hr heq => absurd heq (hnone r hr)
  have hmade := hfreed.trans hset
  refine ⟨?_, hmade.lives, hmade.posted⟩
  refine ⟨hmade.registered.keys, hmade.registered.live, hmade.registered.owned, ?_, ?_⟩
  · intro r hr
    cases made with
    | false => exact hmade.registered.requests r hr
    | true =>
      rcases List.mem_append.mp hr with hr | hr
      · exact hmade.registered.requests r hr
      · rw [List.mem_singleton.mp hr]
        exact ⟨_, if_pos rfl, rfl⟩
  · exact fun a ha => Nat.lt_succ_of_lt (hmade.registered.fresh a ha)

/-- `Start` tries at once or posts a task for the client. -/
theorem startWith_ends {next : RtpPullTcpManager → Except PullFault RtpPullTcpManager} {c : Nat}
    (hnext : ∀ w', Registered w' → (w'.heap c).isSome = true → EndsAfter w' (next w'))
    (h : Registered w) (hc : (w.heap c).isSome = true) :
    EndsAfter w (startWith env next w c) := by
  obtain ⟨cl, hcl, hok⟩ := client_ok hc
  have hreq := h.httpCon_of_request hcl
  rw [startWith, hok, ok_bind]
  split
  · have hset := setClient_after h { cl with rtpConnection := none, retryDelay := 0 } hcl rfl hreq
    exact EndsAfter.trans hset (hnext _ hset.registered (hset.lives c hc))
  · have hset := setClient_after h
      { cl with rtpConnection := none, retryDelay := nextDelay cl.retryDelay } hcl rfl hreq
    refine ⟨hset.registered.congr rfl rfl (List.Subset.refl _) (Nat.le_refl _), hset.lives, ?_⟩
    intro t ht
    rcases List.mem_append.mp ht with ht | ht
    · exact .inl ht
    · rw [List.mem_singleton.mp ht]
      exact .inr (hset.lives c hc)

theorem getNextNode_ends {c : Nat} (failed : Nat) (h : Registered w)
    (hc : (w.heap c).isSome = true) : EndsAfter w (getNextNode env c failed w) := by
  induction failed generalizing w with
  | zero => exact requestSdp_ends h hc true
  | succ failed ih =>
    rw [getNextNode]
    refine Ends.bind (requestSdp_ends h hc false) fun w₁ _ h₁ => ?_
    exact EndsAfter.trans h₁
      (startWith_ends (fun w' hw' hc' => ih hw' hc') h₁.registered (h₁.lives c hc))

theorem start_ends {c : Nat} (h : Registered w) (hc : (w.heap c).isSome = true) :
    EndsAfter w (w.start env c) :=
  startWith_ends (fun _ hw' hc' => getNextNode_ends _ hw' hc') h hc

/-- A connection that closes starts a client the manager lists. -/
theorem destroyConnection_ends (h : Registered w) (con : Nat) :
    EndsAfter w (w.destroyConnection env con) := by
  rw [destroyConnection]
  split
  · exact After.refl h
  · next k _ =>
    dsimp only
    have hclosed : After w { w with opened := w.opened.filter (· ≠ con) } :=
      ⟨h.congr rfl rfl (List.Subset.refl _) (Nat.le_refl _), fun _ ha => ha, fun _ ht => .inl ht⟩
    split
    · exact hclosed
    · next c hfind =>
      exact EndsAfter.trans hclosed
        (start_ends hclosed.registered (hclosed.registered.isSome_of_find hfind))

theorem openTrans_ends (h : Registered w) (con : Nat) (id : StreamId) :
    EndsAfter w (w.openTrans env con id) := by
  rw [openTrans]
  split
  · split
    · rfl
    · exact After.refl h
  · exact Ends.bind (destroyConnection_ends h _) fun _ _ _ => rfl

theorem onSdp_ends {c : Nat} (h : Registered w) (hc : (w.heap c).isSome = true) :
    EndsAfter w (w.onSdp env c) := by
  obtain ⟨cl, hcl, hok⟩ := client_ok hc
  rw [onSdp, hok, ok_bind]
  split
  · rw [connectRtpServer, hok, ok_bind]
    split
    · exact start_ends h hc
    · split
      · exact start_ends h hc
      · have hmade : After w (w.createConnection cl.streamid) :=
          ⟨h.congr rfl rfl (List.Subset.refl _) (Nat.le_succ _), fun _ ha => ha,
            fun _ ht => .inl ht⟩
        have hreq := h.httpCon_of_request hcl
        have hset := setClient_after (w := w.createConnection cl.streamid) hmade.registered
          { cl with rtpConnection := some w.nextAddr } hcl rfl hreq
        exact EndsAfter.trans (hmade.trans hset) (openTrans_ends hset.registered _ _)
  · exact start_ends h hc

variable (env) in
/-- A new client is listed under a stream that had none. -/
theorem addClient_after (h : Registered w) {id : StreamId} (hfind : w.find id = none) :
    After w (w.addClient env id) ∧ ((w.addClient env id).heap w.nextAddr).isSome = true := by
  have hnew : w.heap w.nextAddr = none := by
    rw [← Option.not_isSome_iff_eq_none]
    exact fun hsome => Nat.lt_irrefl _ (h.fresh _ hsome)
  have hkey : id ∉ w.clients.map Prod.fst := by
    intro hmem
    obtain ⟨e, he, rfl⟩ := List.mem_map.mp hmem
    have hsome := (find_eq_some h).mpr he
    rw [hfind] at hsome
    cases hsome
  obtain ⟨cl, hid, hheap⟩ : ∃ cl : RtpPullClient, cl.streamid = id ∧
      ∀ a, (w.addClient env id).heap a = if a = w.nextAddr then some cl else w.heap a :=
    ⟨_, rfl, fun _ => rfl⟩
  have hold : ∀ {a cl'}, w.heap a = some cl' → (w.addClient env id).heap a = some cl' := by
    intro a cl' ha
    rw [hheap, if_neg]
    · exact ha
    · rintro rfl
      rw [hnew] at ha
      cases ha
  refine ⟨⟨⟨?_, ?_, ?_, ?_, ?_⟩, ?_, fun t ht => .inl ht⟩, by rw [hheap, if_pos rfl]; rfl⟩
  · change ((w.clients ++ [(id, w.nextAddr)]).map Prod.fst).Nodup
    rw [List.map_append, List.map_singleton]
    exact h.keys.append (List.nodup_singleton id) (by simpa using hkey)
  · intro e he
    rcases List.mem_append.mp he with he | he
    · obtain ⟨cl', hcl', hide⟩ := h.live e he
      exact ⟨cl', hold hcl', hide⟩
    · rw [List.mem_singleton.mp he]
      exact ⟨cl, by rw [hheap, if_pos rfl], hid⟩
  · intro a cl' ha
    rw [hheap] at ha
    split at ha
    · next heq =>
      cases ha
      rw [hid, heq]
      exact List.mem_append_right _ List.mem_cons_self
    · exact List.mem_append_left _ (h.owned a cl' ha)
  · intro r hr
    obtain ⟨cl', hcl', hcon⟩ := h.requests r hr
    exact ⟨cl', hold hcl', hcon⟩
  · intro a ha
    rw [hheap] at ha
    change a < w.nextAddr + 1
    split at ha
    · omega
    · exact Nat.lt_succ_of_lt (h.fresh a ha)
  · intro a ha
    rw [hheap]
    split
    · rfl
    · exact ha

theorem startPull_ends (h : Registered w) (id : StreamId) :
    EndsAfter w (w.startPull env id) := by
  rw [startPull]
  split
  · exact After.refl h
  · next hfind =>
    obtain ⟨hadded, hsome⟩ := addClient_after env h hfind
    exact EndsAfter.trans hadded (start_ends hadded.registered hsome)

/-! ## Stopping -/

/-- No task of the client is pending. -/
def quiet (w : RtpPullTcpManager) (c : Nat) : Bool := w.tasks.all fun t => t.2 ≠ c

/-- The connection of the client is still on the client's stream. -/
def atHome (w : RtpPullTcpManager) (cl : RtpPullClient) : Bool :=
  cl.rtpConnection.all fun con => (w.connections con).all fun k => k.streamid = cl.streamid

/-- The client of a stream is deleted. -/
theorem deleted_registered (h : Registered w) {id : StreamId} {c : Nat} {cl : RtpPullClient}
    (hmem : (id, c) ∈ w.clients) (hcl : w.heap c = some cl) :
    Registered ((({ w with clients := w.clients.filter fun e => e.1 ≠ id } :
      RtpPullTcpManager).freeHttp cl.httpCon).setClient c none) := by
  obtain ⟨cl', hcl', hid⟩ := h.live _ hmem
  rw [hcl] at hcl'
  cases hcl'
  refine ⟨?_, ?_, ?_, ?_, ?_⟩
  · exact h.keys.sublist (List.filter_sublist.map _)
  · intro e he
    obtain ⟨hme, hne⟩ := List.mem_filter.mp he
    rw [decide_eq_true_eq] at hne
    obtain ⟨cle, hcle, hide⟩ := h.live e hme
    refine ⟨cle, ?_, hide⟩
    change (if e.2 = c then none else w.heap e.2) = some cle
    rw [if_neg]
    · exact hcle
    · intro heq
      rw [heq, hcl] at hcle
      cases hcle
      exact hne (hide.symm.trans hid)
  · intro a cla ha
    change (if a = c then none else w.heap a) = some cla at ha
    split at ha
    · cases ha
    · next hne =>
      refine List.mem_filter.mpr ⟨h.owned a cla ha, ?_⟩
      rw [decide_eq_true_eq]
      intro heq
      exact hne (congrArg Prod.snd (h.eq_of_key (h.owned a cla ha) hmem heq))
  · intro r hr
    obtain ⟨hmr, hne⟩ := List.mem_filter.mp hr
    rw [decide_eq_true_eq] at hne
    obtain ⟨clr, hclr, hcon⟩ := h.requests r hmr
    refine ⟨clr, ?_, hcon⟩
    change (if r.2 = c then none else w.heap r.2) = some clr
    rw [if_neg]
    · exact hclr
    · intro heq
      rw [heq, hcl] at hclr
      cases hclr
      exact hne hcon.symm
  · intro a ha
    change (if a = c then none else w.heap a).isSome = true at ha
    split at ha
    · cases ha
    · exact h.fresh a ha

/-- What stopping a client leaves: the other clients live on, and a task it posted is for a client
that lives. -/
structure Stopped (w : RtpPullTcpManager) (c : Nat) (w' : RtpPullTcpManager) : Prop where
  registered : Registered w'
  lives : ∀ a, a ≠ c → (w.heap a).isSome = true → (w'.heap a).isSome = true
  posted : ∀ t ∈ w'.tasks, t ∈ w.tasks ∨ (w'.heap t.2).isSome = true

theorem stopPull_ends (h : Registered w) {id : StreamId} {c : Nat} (hfind : w.find id = some c) :
    Ends (· = .staleIterator) (Stopped w c) (w.stopPull env id) := by
  have hmem := (find_eq_some h).mp hfind
  obtain ⟨cl, hcl, hok⟩ := client_ok (h.isSome_of_find hfind)
  have hdel := deleted_registered h hmem hcl
  simp only [stopPull, hfind, hok, ok_bind]
  have hlives : ∀ a, a ≠ c → (w.heap a).isSome = true →
      ((((({ w with clients := w.clients.filter fun e => e.1 ≠ id } :
        RtpPullTcpManager).freeHttp cl.httpCon).setClient c none).heap a).isSome = true) := by
    intro a hne ha
    change (if a = c then none else w.heap a).isSome = true
    rw [if_neg hne]
    exact ha
  split
  · exact ⟨hdel, hlives, fun t ht => .inl ht⟩
  · next con _ =>
    refine Ends.mono (destroyConnection_ends hdel con) fun w' _ h' => ?_
    exact ⟨h'.registered, fun a hne ha => h'.lives a (hlives a hne ha), h'.posted⟩

variable (env) in
/-- A client whose connection is at home is stopped without starting another one. -/
theorem stopPull_home (h : Registered w) {c : Nat} {cl : RtpPullClient} (hcl : w.heap c = some cl)
    (hhome : w.atHome cl = true) :
    ∃ w', w.stopPull env cl.streamid = .ok w' ∧ Registered w' ∧ w'.tasks = w.tasks ∧
      w'.connections = w.connections ∧ ∀ a, w'.heap a = if a = c then none else w.heap a := by
  have hmem := h.owned c cl hcl
  have hfind := (find_eq_some h).mpr hmem
  have hok : w.client c = .ok cl := by rw [client, hcl]
  have hdel := deleted_registered h hmem hcl
  simp only [stopPull, hfind, hok, ok_bind]
  cases hrtp : cl.rtpConnection with
  | none => exact ⟨_, rfl, hdel, rfl, rfl, fun _ => rfl⟩
  | some con =>
    rw [atHome, hrtp, Option.all_some] at hhome
    simp only [destroyConnection]
    cases hk : w.connections con with
    | none =>
      have hk' : ((({ w with clients := w.clients.filter fun e => e.1 ≠ cl.streamid } :
        RtpPullTcpManager).freeHttp cl.httpCon).setClient c none).connections con = none := hk
      rw [hk']
      exact ⟨_, rfl, hdel, rfl, rfl, fun _ => rfl⟩
    | some k =>
      rw [hk, Option.all_some, decide_eq_true_eq] at hhome
      have hk' : ((({ w with clients := w.clients.filter fun e => e.1 ≠ cl.streamid } :
        RtpPullTcpManager).freeHttp cl.httpCon).setClient c none).connections con = some k := hk
      have hgone : ∀ {w₁ : RtpPullTcpManager},
          w₁.clients = w.clients.filter (fun e => e.1 ≠ cl.streamid) →
          w₁.find k.streamid = none := by
        intro w₁ hclients
        rw [find, hclients, hhome, Option.map_eq_none_iff, List.find?_eq_none]
        intro e he heq
        exact of_decide_eq_true (List.mem_filter.mp he).2 (of_decide_eq_true heq)
      rw [hk']
      dsimp only
      rw [hgone rfl]
      exact ⟨_, rfl, hdel.congr rfl rfl (List.Subset.refl _) (Nat.le_refl _), rfl, rfl,
        fun _ => rfl⟩

/-! ## The pull timer -/

variable (env) in
theorem trash_eq (h : Registered w) : ∃ trash, w.trash env = .ok trash ∧ trash.Nodup ∧
    ∀ c ∈ trash, ∃ cl, w.heap c = some cl ∧ (cl.streamid, c) ∈ w.clients ∧
      isUseless env cl = true := by
  have hround : ∀ (l : List (StreamId × Nat)), l ⊆ w.clients → ∀ acc : List Nat,
      ∃ trash, l.foldlM (fun trash e => do
          let cl ← w.client e.2
          .ok (if isUseless env cl then trash ++ [e.2] else trash)) acc = .ok (acc ++ trash) ∧
        trash.Sublist (l.map Prod.snd) ∧ ∀ c ∈ trash, ∃ cl, w.heap c = some cl ∧
          (cl.streamid, c) ∈ w.clients ∧ isUseless env cl = true := by
    intro l hl
    induction l with
    | nil => exact fun acc => ⟨[], by rw [List.append_nil]; rfl, List.Sublist.refl _,
        fun c hc => absurd hc List.not_mem_nil⟩
    | cons e l ih =>
      intro acc
      obtain ⟨cl, hcl, hid⟩ := h.live e (hl List.mem_cons_self)
      have hok : w.client e.2 = .ok cl := by rw [client, hcl]
      rw [List.foldlM_cons, hok, ok_bind, ok_bind]
      have hsub : l ⊆ w.clients := fun x hx => hl (List.mem_cons_of_mem _ hx)
      by_cases huse : isUseless env cl = true
      · obtain ⟨trash, hrun, hsubl, hall⟩ := ih hsub (acc ++ [e.2])
        refine ⟨e.2 :: trash, ?_, hsubl.cons_cons _, ?_⟩
        · rw [if_pos huse, hrun, List.append_assoc, List.singleton_append]
        · intro c hc
          rcases List.mem_cons.mp hc with rfl | hc
          · exact ⟨cl, hcl, h.owned _ cl hcl, huse⟩
          · exact hall c hc
      · obtain ⟨trash, hrun, hsubl, hall⟩ := ih hsub acc
        exact ⟨trash, by rw [if_neg huse, hrun], hsubl.cons _, hall⟩
  obtain ⟨trash, hrun, hsub, hall⟩ := hround w.clients (List.Subset.refl _) []
  exact ⟨trash, hrun, h.addrs.sublist hsub, hall⟩

/-- The timer's second loop. -/
theorem stopAll_registered (l : List Nat) (hl : l.Nodup) (h : Registered w)
    (hlive : ∀ c ∈ l, (w.heap c).isSome = true) :
    Ends (· = .staleIterator) Registered (l.foldlM (fun w c => do
      let cl ← w.client c
      w.stopPull env cl.streamid) w) := by
  induction l generalizing w with
  | nil => exact h
  | cons c l ih =>
    obtain ⟨hc, hl⟩ := List.nodup_cons.mp hl
    obtain ⟨cl, hcl, hok⟩ := client_ok (hlive c List.mem_cons_self)
    rw [List.foldlM_cons, hok, ok_bind]
    refine Ends.bind (stopPull_ends h ((find_eq_some h).mpr (h.owned c cl hcl))) fun w' _ h' => ?_
    apply ih hl h'.registered
    intro a ha
    exact h'.lives a (fun heq => hc (heq ▸ ha)) (hlive a (List.mem_cons_of_mem _ ha))

/-- Every posted task is for a client that lives. -/
def TasksLive (w : RtpPullTcpManager) : Prop := ∀ t ∈ w.tasks, (w.heap t.2).isSome = true

theorem After.tasksLive (h : After w w') (hw : TasksLive w) : TasksLive w' := by
  intro t ht
  rcases h.posted t ht with ht | ht
  · exact h.lives _ (hw t ht)
  · exact ht

theorem stopAll_tasksLive (l : List Nat) (hl : l.Nodup) (h : Registered w) (hw : TasksLive w)
    (hquiet : ∀ c ∈ l, ∃ cl, w.heap c = some cl ∧ w.quiet c = true ∧ w.atHome cl = true) :
    Ends (· = .staleIterator) TasksLive (l.foldlM (fun w c => do
      let cl ← w.client c
      w.stopPull env cl.streamid) w) := by
  induction l generalizing w with
  | nil => exact hw
  | cons c l ih =>
    obtain ⟨hc, hl⟩ := List.nodup_cons.mp hl
    obtain ⟨cl, hcl, hnone, hhome⟩ := hquiet c List.mem_cons_self
    obtain ⟨w', hstop, h', htasks, hcons, hheap⟩ := stopPull_home env h hcl hhome
    have hok : w.client c = .ok cl := by rw [client, hcl]
    rw [List.foldlM_cons, hok, ok_bind, hstop, ok_bind]
    apply ih hl h'
    · intro t ht
      rw [htasks] at ht
      have hne := List.all_eq_true.mp hnone t ht
      rw [hheap, if_neg (of_decide_eq_true hne)]
      exact hw t ht
    · intro a ha
      obtain ⟨cla, hcla, hquieta, hhomea⟩ := hquiet a (List.mem_cons_of_mem _ ha)
      refine ⟨cla, ?_, ?_, ?_⟩
      · have hne : a ≠ c := fun heq => hc (heq ▸ ha)
        rw [hheap, if_neg hne]
        exact hcla
      · rw [quiet, htasks]
        exact hquieta
      · rw [atHome, hcons]
        exact hhomea

/-! ## Events -/

theorem ends_any {ε α : Type} {E : ε → Prop} {P : α → Prop} {x : Except ε α} (h : Ends E P x) :
    Ends (fun _ => True) P x := by
  cases x with
  | ok a => exact h
  | error e => trivial

/-- A task runs on a client that was deleted. -/
theorem getNextNode_deleted {c : Nat} (hc : w.heap c = none) (failed : Nat) :
    getNextNode env c failed w = .error .deletedClient := by
  have hdead : w.client c = .error .deletedClient := by rw [client, hc]
  cases failed with
  | zero => rw [getNextNode, requestSdp, hdead, error_bind]
  | succ failed => rw [getNextNode, requestSdp, hdead, error_bind, error_bind]

variable (env) in
/-- Whatever happens, the manager lists the clients that live. -/
theorem step_registered (h : Registered w) (e : Event) :
    Ends (fun _ => True) Registered (w.step env e) := by
  have hafter : ∀ {x : Except PullFault RtpPullTcpManager}, EndsAfter w x →
      Ends (fun _ => True) Registered x :=
    fun hx => ends_any (Ends.mono hx fun _ _ h' => h'.registered)
  cases e with
  | startPull id => exact hafter (startPull_ends h id)
  | stopPull id =>
    rw [step]
    cases hfind : w.find id with
    | none =>
      simp only [stopPull, hfind]
      exact h
    | some c =>
      exact ends_any (Ends.mono (stopPull_ends h hfind) fun _ _ h' => h'.registered)
  | pullTimer =>
    obtain ⟨trash, htrash, hnodup, hall⟩ := trash_eq env h
    rw [step, onPullTimer, htrash, ok_bind]
    apply ends_any
    apply stopAll_registered trash hnodup h
    intro c hc
    obtain ⟨cl, hcl, -⟩ := hall c hc
    rw [hcl]
    rfl
  | closed con =>
    rw [step]
    split
    · exact hafter (destroyConnection_ends h con)
    · exact h
  | reqState con id uploader => exact h.congr rfl rfl (List.Subset.refl _) (Nat.le_refl _)
  | sdp i =>
    rw [step]
    split
    · exact h
    · next con c hreq =>
      obtain ⟨cl, hcl, -⟩ := h.requests _ (List.mem_of_getElem? hreq)
      have hrest : After w { w with requests := w.requests.eraseIdx i } :=
        ⟨h.congr rfl rfl (fun _ hr => List.mem_of_mem_eraseIdx hr) (Nat.le_refl _),
          fun _ ha => ha, fun _ ht => .inl ht⟩
      exact hafter (EndsAfter.trans hrest (onSdp_ends hrest.registered (by
        change (w.heap c).isSome = true
        rw [hcl]
        rfl)))
  | task i =>
    rw [step]
    split
    · exact h
    · next due c htask =>
      split
      · have hrest : After w { w with tasks := w.tasks.eraseIdx i } :=
          ⟨h.congr rfl rfl (List.Subset.refl _) (Nat.le_refl _), fun _ ha => ha,
            fun _ ht => .inl (List.mem_of_mem_eraseIdx ht)⟩
        cases hc : w.heap c with
        | none =>
          rw [getNextNode_deleted (w := { w with tasks := w.tasks.eraseIdx i }) hc]
          trivial
        | some cl =>
          exact hafter (EndsAfter.trans hrest (getNextNode_ends _ hrest.registered (by
            change (w.heap c).isSome = true
            rw [hc]
            rfl)))
      · exact h

/-- No client is stopped while a task of it is pending, and a client the timer stops has its
connection on its own stream, so that no other client is started in between. -/
def orderly (w : RtpPullTcpManager) (env : PullEnv) : Event → Bool
  | .stopPull id => (w.find id).all w.quiet
  | .pullTimer => w.clients.all fun e => (w.heap e.2).all fun cl =>
      !isUseless env cl || (w.quiet e.2 && w.atHome cl)
  | _ => true

/-- In an orderly step every task stays one of a client that lives, and no method runs on a client
that was deleted. -/
theorem step_tasksLive (h : Registered w) (hw : TasksLive w) (e : Event)
    (horderly : w.orderly env e = true) :
    Ends (· = .staleIterator) TasksLive (w.step env e) := by
  have hafter : ∀ {x : Except PullFault RtpPullTcpManager}, EndsAfter w x →
      Ends (· = .staleIterator) TasksLive x :=
    fun hx => Ends.mono hx fun _ _ h' => h'.tasksLive hw
  cases e with
  | startPull id => exact hafter (startPull_ends h id)
  | stopPull id =>
    rw [step]
    cases hfind : w.find id with
    | none =>
      simp only [stopPull, hfind]
      exact hw
    | some c =>
      rw [orderly, hfind, Option.all_some] at horderly
      refine Ends.mono (stopPull_ends h hfind) fun w' _ h' => ?_
      intro t ht
      rcases h'.posted t ht with ht | ht
      · have hne := List.all_eq_true.mp horderly t ht
        exact h'.lives _ (of_decide_eq_true hne) (hw t ht)
      · exact ht
  | pullTimer =>
    obtain ⟨trash, htrash, hnodup, hall⟩ := trash_eq env h
    rw [step, onPullTimer, htrash, ok_bind]
    apply stopAll_tasksLive trash hnodup h hw
    intro c hc
    obtain ⟨cl, hcl, hmem, huse⟩ := hall c hc
    have hboth := List.all_eq_true.mp horderly _ hmem
    simp only [hcl, Option.all_some, huse, Bool.not_true, Bool.false_or, Bool.and_eq_true] at hboth
    exact ⟨cl, hcl, hboth.1, hboth.2⟩
  | closed con =>
    rw [step]
    split
    · exact hafter (destroyConnection_ends h con)
    · exact hw
  | reqState con id uploader => exact hw
  | sdp i =>
    rw [step]
    split
    · exact hw
    · next con c hreq =>
      obtain ⟨cl, hcl, -⟩ := h.requests _ (List.mem_of_getElem? hreq)
      have hrest : After w { w with requests := w.requests.eraseIdx i } :=
        ⟨h.congr rfl rfl (fun _ hr => List.mem_of_mem_eraseIdx hr) (Nat.le_refl _),
          fun _ ha => ha, fun _ ht => .inl ht⟩
      exact hafter (EndsAfter.trans hrest (onSdp_ends hrest.registered (by
        change (w.heap c).isSome = true
        rw [hcl]
        rfl)))
  | task i =>
    rw [step]
    split
    · exact hw
    · next due c htask =>
      split
      · have hrest : After w { w with tasks := w.tasks.eraseIdx i } :=
          ⟨h.congr rfl rfl (List.Subset.refl _) (Nat.le_refl _), fun _ ha => ha,
            fun _ ht => .inl (List.mem_of_mem_eraseIdx ht)⟩
        exact hafter (EndsAfter.trans hrest
          (getNextNode_ends _ hrest.registered (hw _ (List.mem_of_getElem? htask))))
      · exact hw

/-! ## Runs -/

/-- Every event of the run is orderly in the state it meets. -/
def orderlyRun : RtpPullTcpManager → List (PullEnv × Event) → Bool
  | _, [] => true
  | w, (env, e) :: events =>
    w.orderly env e &&
      match w.step env e with
      | .ok w' => orderlyRun w' events
      | .error _ => true

theorem new_registered : Registered new where
  keys := List.nodup_nil
  live _ he := absurd he List.not_mem_nil
  owned _ _ hc := nomatch hc
  requests _ hr := absurd hr List.not_mem_nil
  fresh _ hc := nomatch hc

theorem run_registered (h : Registered w) (events : List (PullEnv × Event)) :
    Ends (fun _ => True) Registered (w.run events) :=
  Ends.foldlM events (fun _ e _ hw => step_registered e.1 hw e.2) h

theorem run_tasksLive (h : Registered w) (hw : TasksLive w) (events : List (PullEnv × Event))
    (horderly : w.orderlyRun events = true) :
    Ends (· = .staleIterator) TasksLive (w.run events) := by
  induction events generalizing w with
  | nil => exact hw
  | cons e events ih =>
    obtain ⟨env, e⟩ := e
    rw [orderlyRun, Bool.and_eq_true] at horderly
    obtain ⟨hfirst, hrest⟩ := horderly
    rw [run, List.foldlM_cons]
    refine Ends.bind (step_tasksLive h hw e hfirst) fun w' hstep hw' => ih ?_ hw' ?_
    · exact (step_registered env h e).of_ok hstep
    · simpa only [hstep] using hrest

/-- In every state of every run each stream has at most one client that lives. If the events of the
run are orderly, no method runs on a client that was deleted, and every task that is pending is for
a client that lives. Every state of a run is the end of a run. -/
theorem pull_client_lifetime (events : List (PullEnv × Event)) :
    Ends (fun _ => True) OneClient (new.run events) ∧
      (new.orderlyRun events = true →
        Ends (· ≠ .deletedClient) (fun w => OneClient w ∧ TasksLive w) (new.run events)) := by
  have hregistered := run_registered new_registered events
  have hone : Ends (fun _ => True) OneClient (new.run events) :=
    Ends.mono hregistered fun _ _ h => h.oneClient
  refine ⟨hone, fun horderly => ?_⟩
  have htasks := run_tasksLive new_registered (fun t ht => absurd ht List.not_mem_nil) events
    horderly
  cases hrun : new.run events with
  | ok w =>
    rw [hrun] at hone htasks
    exact ⟨hone, htasks⟩
  | error f =>
    rw [hrun] at htasks
    rw [ends_error] at htasks ⊢
    rw [htasks]
    decide

/-- At time `now` nobody watches, and what is asked for fails. -/
def unwatched (now : Nat) : PullEnv where
  now := now
  failedRequests := fun _ => 0
  hasPlayer := fun _ => false
  httpcode := 404
  content := []
  setSdpStr := -1
  fdSock := -1
  connected := false
  otherUploader := false

/-- A stream is pulled, the SDP cannot be had, the task tries again, and the client is stopped while
its request is in flight. -/
def stoppedAfterRetry : List (PullEnv × Event) :=
  [(unwatched 1000, .startPull 7), (unwatched 12000, .sdp 0), (unwatched 12001, .task 0),
    (unwatched 12001, .pullTimer)]

theorem pull_client_lifetime_retry :
    new.orderlyRun stoppedAfterRetry = true ∧
      Ends (· ≠ .deletedClient) (fun w => OneClient w ∧ TasksLive w)
        (new.run stoppedAfterRetry) :=
  ⟨rfl, (pull_client_lifetime stoppedAfterRetry).2 rfl⟩

/-- The same, but the client is stopped before the task is due. -/
def stoppedInBetween : List (PullEnv × Event) :=
  [(unwatched 1000, .startPull 7), (unwatched 12000, .sdp 0), (unwatched 12000, .pullTimer),
    (unwatched 12001, .task 0)]

/-- The task runs on the deleted client. -/
theorem task_outlives_client : new.run stoppedInBetween = .error .deletedClient := rfl

end RtpPullTcpManager

end RtcMcu.Relay
