import RtcMcu.RtpTrans.FecTermination
import RtcMcu.RtpTrans.NackSets
import RtcMcu.RtpTrans.NackTimer

/-!
# One packet at a session with a short queue

What `OnRecvRtp` does with one packet where at most one FEC packet waits: a media packet that sets
off no recovery, a FEC packet that waits or recovers at once, and a media packet with which the FEC
packet that waits recovers. What the session gets from its host is in `StreamHost.Remembers`.
-/

namespace RtcMcu.RtpTrans

open RtcMcu.Avformat RtcMcu.Fragment RtcMcu.Serial RtcMcu.Coupling

/-! ## Arrivals -/

/-- A packet that reaches the session, and what the call depends on then. -/
structure Arrival where
  env : RecvEnv
  pkt : Rtp
  len : Nat

/-- The packets reach the session one after the other. -/
def receiveAll {σ : Type} (host : StreamHost σ) (fuel : Nat) (st : σ) (s : RTPRecvSession)
    (arrivals : List Arrival) : Except Fault (σ × RTPRecvSession) :=
  arrivals.foldlM (fun r a => onRecvRtp host a.env fuel r.1 r.2 (.ext a.pkt) a.len) (st, s)

/-- What a session sees of its host: the states in which it is served, the packets that are stored
then, those it finds, and what `recv_rtp` was given so far. -/
structure HostView (σ : Type) where
  ready : σ → Prop
  accepts : Rtp → Prop
  cached : σ → Seq → Option Rtp
  handed : σ → List Sent

/-- What a session relies on in its host, for some numbers of one media: a packet that is stored is
found by its number, and forwarding changes nothing but the ssrc. -/
structure StreamHost.Remembers {σ : Type} (host : StreamHost σ) (video : Bool) (numbers : List Seq)
    (v : HostView σ) : Prop where
  get : ∀ st, v.ready st → ∀ seq ∈ numbers, host.getRtpBySeq st video seq =
    .ok ((v.cached st seq).elim (none, 0) fun p => (some p, p.len))
  setRtp : ∀ st p len, v.ready st → p.seq ∈ numbers → (p.payload == RTP_AV_H264) = video →
    v.accepts (p.copy len) → rtpHeaderLen ≤ len → len ≤ maxRtpLen → len ≤ p.len →
    v.cached st p.seq = none →
    ∃ st', host.setRtp st p len = .ok st' ∧ v.ready st' ∧ v.handed st' = v.handed st ∧
      ∀ seq ∈ numbers, v.cached st' seq = if seq = p.seq then some (p.copy len) else v.cached st seq
  forwardRtp : ∀ st p len, v.ready st → ∃ st' ssrc,
    host.forwardRtp st p len = .ok (st', p.setSsrc ssrc) ∧ v.ready st' ∧
      v.handed st' = v.handed st ∧ v.cached st' = v.cached st
  recovered : ∀ st s len, v.ready st → v.ready (host.recovered st s len) ∧
    v.handed (host.recovered st s len) = v.handed st ++ [(s.pktData.copy len, len)] ∧
    v.cached (host.recovered st s len) = v.cached st

/-! ## A packet that sets off no recovery -/

section Quiet

variable {σ : Type} {host : StreamHost σ} {video : Bool} {numbers : List Seq} {v : HostView σ}
  {st : σ} {s s₂ : RTPRecvSession}

/-- A media packet that was not stored yet. -/
structure Storable (video : Bool) (numbers : List Seq) (v : HostView σ) (stored : Seq → Option Rtp)
    (pkt : Rtp) (len : Nat) : Prop where
  number : pkt.seq ∈ numbers
  media : isFec pkt.payload = false
  kind : (pkt.payload == RTP_AV_H264) = video
  accepted : v.accepts (pkt.copy len)
  header : rtpHeaderLen ≤ len
  fits : len ≤ maxRtpLen
  whole : len ≤ pkt.len
  new : stored pkt.seq = none

/-- The session that a packet meets in `_on_handle_rtp_fec`. -/
def RTPRecvSession.met (s : RTPRecvSession) (pkt : Rtp) : RTPRecvSession :=
  RTPRecvSession.clearAtWrap { s with toRTPSession := s.toRTPSession.adopt pkt } pkt.seq

/-- The session once a media packet is marked. -/
def RTPRecvSession.arrived (s : RTPRecvSession) (pkt : Rtp) : RTPRecvSession :=
  (s.met pkt).mark pkt.seq

theorem adopt_pktData (s : RTPSession) (pkt : Rtp) : (s.adopt pkt).pktData = s.pktData := by
  unfold RTPSession.adopt
  dsimp only
  split <;> split <;> rfl

theorem clearAtWrap_pktData (s : RTPRecvSession) (seq : Seq) :
    (s.clearAtWrap seq).pktData = s.pktData := by
  unfold RTPRecvSession.clearAtWrap
  split <;> rfl

theorem arrived_pktData (s : RTPRecvSession) (pkt : Rtp) : (s.arrived pkt).pktData = s.pktData :=
  (clearAtWrap_pktData _ pkt.seq).trans (adopt_pktData s.toRTPSession pkt)

theorem deref_congr {s s' : RTPRecvSession} (h : s'.pktData = s.pktData) (ref : PktRef) :
    s'.deref ref = s.deref ref := by
  cases ref with
  | ext pkt => rfl
  | own => exact h

/-- A media packet whose walk over the queue recovers nothing is stored, marked, accounted for and
forwarded. -/
theorem onRecvRtp_quiet (h : host.Remembers video numbers v) (env : RecvEnv)
    (fuel : Nat) (hst : v.ready st) {ref : PktRef} {pkt : Rtp} {len : Nat}
    (href : s.deref ref = pkt) (hpkt : Storable video numbers v (v.cached st) pkt len)
    (hdata : s₂.pktData = s.pktData)
    (hscan : ∀ st₁, (s.arrived pkt).scanPending (host.parent env (fuel + 1)) pkt.seq st₁ []
      (s.arrived pkt).pendingFec = .ok (st₁, s₂, false)) :
    ∃ st' ssrc, onRecvRtp host env (fuel + 2) st s ref len =
        .ok (st', (s₂.onHandleRtpNack env pkt len).writeBack ref (pkt.setSsrc ssrc)) ∧
      v.ready st' ∧ v.handed st' = v.handed st ∧
      ∀ seq ∈ numbers, v.cached st' seq =
        if seq = pkt.seq then some (pkt.copy len) else v.cached st seq := by
  obtain ⟨st₁, hset, hready, hhanded, hcached⟩ :=
    h.setRtp st pkt len hst hpkt.number hpkt.kind hpkt.accepted hpkt.header hpkt.fits hpkt.whole
      hpkt.new
  obtain ⟨st₂, ssrc, hforward, hready', hhanded', hcached'⟩ := h.forwardRtp st₁ pkt len hready
  have hmedia := hpkt.media
  refine ⟨st₂, ssrc, ?_, hready', hhanded'.trans hhanded, fun seq hseq => ?_⟩
  · have hadopted : RTPRecvSession.deref { s with toRTPSession := s.toRTPSession.adopt pkt } ref =
        pkt := (deref_congr (adopt_pktData s.toRTPSession pkt) ref).trans href
    have hcleared : RTPRecvSession.deref (RTPRecvSession.clearAtWrap
        { s with toRTPSession := s.toRTPSession.adopt pkt } pkt.seq) ref = pkt :=
      (deref_congr (arrived_pktData s pkt) ref).trans href
    have hloop : RTPRecvSession.fecLoop (host.parent env (fuel + 1)) (fuel + 1) st₁
        (RTPRecvSession.clearAtWrap { s with toRTPSession := s.toRTPSession.adopt pkt } pkt.seq)
        ref len = .ok (st₁, s₂) := by
      rw [RTPRecvSession.fecLoop, hcleared, hmedia, if_neg Bool.false_ne_true]
      dsimp only
      refine (congrArg (fun x : Except Fault (σ × RTPRecvSession × Bool) => x >>= _)
        (hscan st₁)).trans ?_
      rfl
    have hcall : s.onHandleRtp (host.parent env (fuel + 1)) env (fuel + 1) st₁ ref len =
        .ok (st₁, s₂.onHandleRtpNack env pkt len) := by
      rw [RTPRecvSession.onHandleRtp]
      dsimp only
      rw [href, RTPRecvSession.onHandleRtpFec, hadopted, hloop, ok_bind]
      dsimp only
      rw [deref_congr hdata ref, href, hmedia, if_neg Bool.false_ne_true]
    have hafter : RTPRecvSession.deref (s₂.onHandleRtpNack env pkt len) ref = pkt :=
      (deref_congr ((onHandleRtpNack_sameFec s₂ env pkt len).pktData.trans hdata) ref).trans href
    rw [onRecvRtp, href, StreamHost.storeMedia, hmedia, if_neg Bool.false_ne_true, hset, ok_bind]
    refine (congrArg (fun x : Except Fault (σ × RTPRecvSession) => x >>= _) hcall).trans ?_
    rw [ok_bind]
    dsimp only
    rw [if_neg Bool.false_ne_true, hafter, hforward]
    rfl
  · rw [hcached', hcached seq hseq]

end Quiet

/-! ## A packet that is recovered -/

section Recovered

variable {σ : Type} {host : StreamHost σ} {video : Bool} {numbers : List Seq} {v : HostView σ}
  {st : σ} {s s₂ : RTPRecvSession}

theorem arrived_pendingFec (hqueue : s.pendingFec = []) (pkt : Rtp) :
    (s.arrived pkt).pendingFec = [] := by
  unfold RTPRecvSession.arrived RTPRecvSession.met RTPRecvSession.clearAtWrap
  split
  · rfl
  · exact hqueue

/-- The session with an empty queue and a packet in `_pkt_data` that was not stored yet. -/
structure Alone (video : Bool) (numbers : List Seq) (v : HostView σ) (stored : Seq → Option Rtp)
    (s : RTPRecvSession) (length : Nat) : Prop where
  queue : s.pendingFec = []
  own : Storable video numbers v stored s.pktData length

/-- The recovered packet comes back and recovers nothing more. -/
theorem handOver_alone (h : host.Remembers video numbers v) (env : RecvEnv)
    (fuel : Nat) (hst : v.ready st) {length : Nat}
    (hs : Alone video numbers v (v.cached st) s length) :
    ∃ st' s', s.handOver (host.parent env (fuel + 2)) st length = .ok (st', s') ∧
      v.ready st' ∧ v.handed st' = v.handed st ++ [(s.pktData.copy length, length)] ∧
      s'.pendingFec = [] ∧ isFec s'.pktData.payload = false := by
  obtain ⟨hready, hhanded, hcached⟩ := h.recovered st (s.mark s.pktData.seq) length hst
  have hown : Storable video numbers v (v.cached (host.recovered st (s.mark s.pktData.seq) length))
      s.pktData length := by
    rw [hcached]
    exact hs.own
  have hmarked : (s.mark s.pktData.seq).pendingFec = [] := hs.queue
  have hempty := arrived_pendingFec hmarked s.pktData
  have hscan : ∀ st₁, ((s.mark s.pktData.seq).arrived s.pktData).scanPending
      (host.parent env (fuel + 1)) s.pktData.seq st₁ []
      ((s.mark s.pktData.seq).arrived s.pktData).pendingFec =
        .ok (st₁, { (s.mark s.pktData.seq).arrived s.pktData with pendingFec := [] }, false) := by
    intro st₁
    rw [hempty]
    rfl
  have hown' : (s.mark s.pktData.seq).deref .own = s.pktData := rfl
  have hdata : RTPRecvSession.deref
      { (s.mark s.pktData.seq).arrived s.pktData with pendingFec := [] } .own =
        (s.mark s.pktData.seq).pktData := arrived_pktData (s.mark s.pktData.seq) s.pktData
  obtain ⟨st', ssrc, hcall, hready', hsame, -⟩ :=
    onRecvRtp_quiet h env fuel hready hown' hown hdata hscan
  refine ⟨st', _, hcall, hready', hsame.trans hhanded, ?_, hs.own.media⟩
  exact (onHandleRtpNack_sameFec _ env _ length).pendingFec

theorem fecLoop_alone (host : StreamHost σ) (env : RecvEnv) (fuel : Nat) (st : σ)
    (hqueue : s.pendingFec = []) (hmedia : isFec s.pktData.payload = false) (len : Nat) :
    s.fecLoop (host.parent env (fuel + 2)) (fuel + 1) st .own len =
      .ok (st, { s.mark s.pktData.seq with pendingFec := [] }) := by
  rw [RTPRecvSession.fecLoop, RTPRecvSession.deref_own, hmedia, if_neg Bool.false_ne_true]
  dsimp only
  rw [show (s.mark s.pktData.seq).pendingFec = [] from hqueue]
  rfl

/-- A FEC packet only goes through the loop. -/
theorem onRecvRtp_fec (host : StreamHost σ) (env : RecvEnv) (fuel : Nat) (st : σ) {fec : Rtp}
    {len : Nat} (hfec : isFec fec.payload = true) {r : σ × RTPRecvSession}
    (hloop : RTPRecvSession.fecLoop (host.parent env fuel) fuel st (s.met fec) (.ext fec) len =
      .ok r) :
    onRecvRtp host env (fuel + 1) st s (.ext fec) len = .ok r := by
  have hcall : s.onHandleRtp (host.parent env fuel) env fuel st (.ext fec) len = .ok r := by
    rw [RTPRecvSession.onHandleRtp, RTPRecvSession.deref_ext, RTPRecvSession.onHandleRtpFec,
      RTPRecvSession.deref_ext]
    refine (congrArg (fun x : Except Fault (σ × RTPRecvSession) => x >>= _) hloop).trans ?_
    rw [ok_bind]
    dsimp only
    rw [RTPRecvSession.deref_ext, hfec, if_pos rfl]
  rw [onRecvRtp, RTPRecvSession.deref_ext, StreamHost.storeMedia, hfec, if_pos rfl, ok_bind]
  refine (congrArg (fun x : Except Fault (σ × RTPRecvSession) => x >>= _) hcall).trans ?_
  rw [ok_bind]
  rfl

/-- A FEC packet that recovers at once. -/
theorem onRecvRtp_fec_recovers (h : host.Remembers video numbers v)
    (env : RecvEnv) (fuel : Nat) (hst : v.ready st) {fec : Rtp} {len length : Nat}
    (hfec : isFec fec.payload = true)
    (htry : (s.met fec).tryRecover (host.getRtpBySeq st) (.ext fec) len =
      .ok (s₂, .recovered length))
    (hs₂ : Alone video numbers v (v.cached st) s₂ length) :
    ∃ st' s', onRecvRtp host env (fuel + 3) st s (.ext fec) len = .ok (st', s') ∧
      v.handed st' = v.handed st ++ [(s₂.pktData.copy length, length)] := by
  obtain ⟨st', s', hover, -, hhanded, hqueue, hmedia⟩ := handOver_alone h env fuel hst hs₂
  refine ⟨st', { s'.mark s'.pktData.seq with pendingFec := [] },
    onRecvRtp_fec host env (fuel + 2) st hfec ?_, hhanded⟩
  rw [RTPRecvSession.fecLoop, RTPRecvSession.deref_ext, hfec, if_pos rfl]
  refine (congrArg (fun x : Except Fault (RTPRecvSession × Attempt) => x >>= _) htry).trans ?_
  rw [ok_bind]
  dsimp only
  rw [hover, ok_bind]
  exact fecLoop_alone host env fuel st' hqueue hmedia len

/-- A FEC packet that cannot be used yet waits. -/
theorem onRecvRtp_fec_waits (host : StreamHost σ) (env : RecvEnv) (fuel : Nat) (st : σ) {fec : Rtp}
    {len : Nat} (hfec : isFec fec.payload = true)
    (htry : (s.met fec).tryRecover (host.getRtpBySeq st) (.ext fec) len = .ok (s₂, .notYet)) :
    onRecvRtp host env (fuel + 2) st s (.ext fec) len = .ok (st, { s₂ with
      pendingFec := s₂.pendingFec ++ [RTPBlock.new (some fec) len] }) := by
  refine onRecvRtp_fec host env (fuel + 1) st hfec ?_
  rw [RTPRecvSession.fecLoop, RTPRecvSession.deref_ext, hfec, if_pos rfl]
  refine (congrArg (fun x : Except Fault (RTPRecvSession × Attempt) => x >>= _) htry).trans ?_
  rw [ok_bind]
  rfl

/-- A media packet with which a FEC packet that waits recovers. -/
theorem onRecvRtp_recovers (h : host.Remembers video numbers v) (env : RecvEnv)
    (fuel : Nat) (hst : v.ready st) {block : RTPBlock} {fec pkt again : Rtp}
    {len fecLen length : Nat} (hpkt : Storable video numbers v (v.cached st) pkt len)
    (hqueue : (s.arrived pkt).pendingFec = [block]) (hblock : block.get = (some fec, fecLen))
    (hlate : ¬ pkt.seq - fec.seq < 0x8000#16)
    (htry : ∀ st₁, v.ready st₁ →
      (∀ seq ∈ numbers, v.cached st₁ seq =
        if seq = pkt.seq then some (pkt.copy len) else v.cached st seq) →
      ∃ s₂, (s.arrived pkt).tryRecover (host.getRtpBySeq st₁) (.ext fec) fecLen =
          .ok (s₂, .recovered length) ∧ s₂.pktData.copy length = again ∧
        Storable video numbers v (v.cached st₁) s₂.pktData length) :
    ∃ st' s', onRecvRtp host env (fuel + 3) st s (.ext pkt) len = .ok (st', s') ∧
      v.handed st' = v.handed st ++ [(again, length)] := by
  obtain ⟨st₁, hset, hready, hhanded, hcached⟩ :=
    h.setRtp st pkt len hst hpkt.number hpkt.kind hpkt.accepted hpkt.header hpkt.fits hpkt.whole
      hpkt.new
  obtain ⟨s₂, hrecover, hagain, hown⟩ := htry st₁ hready hcached
  have halone : Alone video numbers v (v.cached st₁) { s₂ with pendingFec := [] } length :=
    ⟨rfl, hown⟩
  obtain ⟨st₂, s₃, hover, hready', hhanded', hqueue₃, hmedia₃⟩ :=
    handOver_alone h env fuel hready halone
  obtain ⟨st₃, ssrc, hforward, -, hhanded'', -⟩ := h.forwardRtp st₂ pkt len hready'
  have hmedia := hpkt.media
  have hscan : (s.arrived pkt).scanPending (host.parent env (fuel + 2)) pkt.seq st₁ []
      [block] = .ok (st₂, s₃, true) := by
    rw [RTPRecvSession.scanPending, hblock]
    dsimp only
    rw [if_neg hlate]
    refine (congrArg (fun x : Except Fault (RTPRecvSession × Attempt) => x >>= _)
      hrecover).trans ?_
    rw [ok_bind]
    dsimp only
    refine (congrArg (fun x : Except Fault (σ × RTPRecvSession) => x >>= _) hover).trans ?_
    rw [ok_bind]
  have hloop : RTPRecvSession.fecLoop (host.parent env (fuel + 2)) (fuel + 2) st₁
      (RTPRecvSession.clearAtWrap { s with toRTPSession := s.toRTPSession.adopt pkt } pkt.seq)
      (.ext pkt) len = .ok (st₂, { s₃.mark s₃.pktData.seq with pendingFec := [] }) := by
    rw [RTPRecvSession.fecLoop, RTPRecvSession.deref_ext, hmedia, if_neg Bool.false_ne_true]
    dsimp only
    have hwalk : (s.arrived pkt).scanPending (host.parent env (fuel + 2)) pkt.seq st₁ []
        (s.arrived pkt).pendingFec = .ok (st₂, s₃, true) := by
      rw [hqueue]
      exact hscan
    refine (congrArg (fun x : Except Fault (σ × RTPRecvSession × Bool) => x >>= _)
      hwalk).trans ?_
    exact fecLoop_alone host env fuel st₂ hqueue₃ hmedia₃ len
  have hcall : s.onHandleRtp (host.parent env (fuel + 2)) env (fuel + 2) st₁ (.ext pkt) len =
      .ok (st₂, RTPRecvSession.onHandleRtpNack env
        { s₃.mark s₃.pktData.seq with pendingFec := [] } pkt len) := by
    rw [RTPRecvSession.onHandleRtp]
    dsimp only
    rw [RTPRecvSession.deref_ext, RTPRecvSession.onHandleRtpFec, RTPRecvSession.deref_ext, hloop,
      ok_bind]
    dsimp only
    rw [RTPRecvSession.deref_ext, hmedia, if_neg Bool.false_ne_true]
  refine ⟨st₃, RTPRecvSession.onHandleRtpNack env
    { s₃.mark s₃.pktData.seq with pendingFec := [] } pkt len, ?_, ?_⟩
  · rw [onRecvRtp, RTPRecvSession.deref_ext, StreamHost.storeMedia, hmedia,
      if_neg Bool.false_ne_true, hset, ok_bind]
    refine (congrArg (fun x : Except Fault (σ × RTPRecvSession) => x >>= _) hcall).trans ?_
    rw [ok_bind]
    dsimp only
    rw [if_neg Bool.false_ne_true, RTPRecvSession.deref_ext, hforward]
    rfl
  · rw [hhanded'', hhanded', hhanded]
    exact congrArg (fun p => v.handed st ++ [(p, length)]) hagain

end Recovered

/-! ## What a packet leaves of the session -/

theorem adopt_same (s : RTPSession) (pkt : Rtp) :
    (s.adopt pkt).lastseq = s.lastseq ∧ (s.adopt pkt).pktHistory = s.pktHistory := by
  unfold RTPSession.adopt
  dsimp only
  split <;> split <;> exact ⟨rfl, rfl⟩

theorem adopt_payloadType (s : RTPSession) (pkt : Rtp) :
    (s.adopt pkt).payloadType =
      if s.payloadType = RTP_AV_NULL ∧ isFec pkt.payload = false then pkt.payload
      else s.payloadType := by
  unfold RTPSession.adopt
  dsimp only
  split <;> split <;> rfl

theorem adopt_ssrc (s : RTPSession) (pkt : Rtp) :
    (s.adopt pkt).ssrc = if s.ssrc = 0 then pkt.ssrc else s.ssrc := by
  unfold RTPSession.adopt
  dsimp only
  split <;> split <;> rfl

section Met

variable (s : RTPRecvSession) (pkt : Rtp)

theorem met_same : (s.met pkt).lastseq = s.lastseq ∧ (s.met pkt).hisNacks = s.hisNacks := by
  have h := clearAtWrap_same { s with toRTPSession := s.toRTPSession.adopt pkt } pkt.seq
  exact ⟨h.lastseq.trans (adopt_same s.toRTPSession pkt).1, h.hisNacks⟩

theorem met_payloadType : (s.met pkt).payloadType =
    if s.payloadType = RTP_AV_NULL ∧ isFec pkt.payload = false then pkt.payload
    else s.payloadType := by
  refine Eq.trans ?_ (adopt_payloadType s.toRTPSession pkt)
  unfold RTPRecvSession.met RTPRecvSession.clearAtWrap
  split <;> rfl

theorem met_ssrc : (s.met pkt).ssrc = if s.ssrc = 0 then pkt.ssrc else s.ssrc := by
  refine Eq.trans ?_ (adopt_ssrc s.toRTPSession pkt)
  unfold RTPRecvSession.met RTPRecvSession.clearAtWrap
  split <;> rfl

variable {s pkt}

theorem met_begins (h : BeginsTurn s.lastseq pkt.seq) :
    (s.met pkt).pendingFec = [] ∧ (s.met pkt).pktHistory = fun _ => false := by
  rw [← (adopt_same s.toRTPSession pkt).1] at h
  rw [RTPRecvSession.met, clearAtWrap_of_beginsTurn h]
  exact ⟨rfl, rfl⟩

theorem met_goes_on (h : ¬ BeginsTurn s.lastseq pkt.seq) :
    (s.met pkt).pendingFec = s.pendingFec ∧ (s.met pkt).pktHistory = s.pktHistory := by
  rw [← (adopt_same s.toRTPSession pkt).1] at h
  rw [RTPRecvSession.met, clearAtWrap_of_not h]
  exact ⟨rfl, (adopt_same s.toRTPSession pkt).2⟩

end Met

/-- `_lastseq` after `_on_handle_rtp_nack`: the packet's number, or as before for a duplicate and
for a number that is not newer. -/
theorem onHandleRtpNack_lastseq (s : RTPRecvSession) (env : RecvEnv) (pkt : Rtp) (len : Nat) :
    (s.onHandleRtpNack env pkt len).lastseq = pkt.seq ∨
      ((s.onHandleRtpNack env pkt len).lastseq = s.lastseq ∧
        (pkt.seq ∈ s.hisNacks ∨ newer pkt.seq s.lastseq = false)) := by
  have hwith : ∀ t : RTPRecvSession, t.lastseqWith pkt.seq = pkt.seq ∨
      (t.lastseqWith pkt.seq = t.lastseq ∧ newer pkt.seq t.lastseq = false) := by
    intro t
    unfold RTPRecvSession.lastseqWith
    rw [isNewerSeq_eq]
    cases hnewer : newer pkt.seq t.lastseq with
    | true => exact Or.inl rfl
    | false => exact Or.inr ⟨rfl, rfl⟩
  cases hjump : timestampJump (mediaTimeBase env.audioTimeBase env.videoTimeBase pkt)
      pkt.timestamp s.lastRtpTimestamp with
  | true =>
    have hstart := startNack_jump hjump
    have hnew : pkt.seq ∉ (s.started env pkt).hisNacks := by
      rw [RTPRecvSession.started, hstart]
      exact List.not_mem_nil
    have hlast : (s.started env pkt).lastseq = pkt.seq := by rw [RTPRecvSession.started, hstart]
    rw [(onHandleRtpNack_nacks len hnew).2.2]
    rcases hwith (s.started env pkt) with h | ⟨h, -⟩
    · exact Or.inl h
    · exact Or.inl (h.trans hlast)
  | false =>
    have hstart := startNack_go hjump
    have hhis : (s.started env pkt).hisNacks = s.hisNacks := by rw [RTPRecvSession.started, hstart]
    have hlast : (s.started env pkt).lastseq = if s.lastseq = 0 then pkt.seq else s.lastseq := by
      rw [RTPRecvSession.started, hstart]
    by_cases hdup : pkt.seq ∈ (s.started env pkt).hisNacks
    · rw [onHandleRtpNack_duplicate hdup, hlast]
      split
      · exact Or.inl rfl
      · exact Or.inr ⟨rfl, Or.inl (hhis ▸ hdup)⟩
    · rw [(onHandleRtpNack_nacks len hdup).2.2]
      rcases hwith (s.started env pkt) with h | ⟨h, hnewer⟩
      · exact Or.inl h
      · rw [h]
        rw [hlast] at hnewer ⊢
        split at hnewer
        · next hzero => exact Or.inl (if_pos hzero)
        · next hzero => exact Or.inr ⟨if_neg hzero, Or.inr hnewer⟩

/-! ## A session that has nothing more to recover -/

section Session

variable {σ : Type} {E : Fault → Prop} {s : RTPRecvSession}

/-- What decides whether a packet sets off a recovery. -/
theorem RTPRecvSession.quiet_congr {s' : RTPRecvSession} (hpending : s'.pendingFec = s.pendingFec)
    (hhistory : s'.pktHistory = s.pktHistory) (hdata : s'.pktData = s.pktData) (seq : Seq) :
    s'.quiet seq = s.quiet seq := by
  have hmissing : s'.missing = s.missing := by
    funext fec
    simp only [RTPRecvSession.missing, RTPRecvSession.historyAt, hhistory, hdata]
  rw [RTPRecvSession.quiet, RTPRecvSession.quiet, hpending, hmissing]

/-- The walk of a quiet packet goes over the queue and leaves `_pkt_data` alone. -/
theorem RTPRecvSession.scanPending_quiet (hE : E .outOfFuel) (p : Parent σ) (seq : Seq) (st : σ)
    (kept : List RTPBlock) {pending : List RTPBlock}
    (hquiet : RTPRecvSession.quiet { s with pendingFec := pending } seq = true) :
    Ends E (fun r => r.1 = st ∧ r.2.1.pktData = s.pktData ∧ r.2.2 = false)
      (s.scanPending p seq st kept pending) := by
  induction pending generalizing kept with
  | nil => exact ⟨rfl, rfl, rfl⟩
  | cons block rest ih =>
    rw [RTPRecvSession.quiet, List.all_cons, Bool.and_eq_true] at hquiet
    obtain ⟨hblock, hrest⟩ := hquiet
    rw [RTPRecvSession.scanPending]
    rcases hget : block.get with ⟨_ | fec, len⟩
    · exact hE
    · dsimp only
      split
      · exact ih kept hrest
      · next hbehind =>
        rw [hget] at hblock
        dsimp only at hblock
        rw [decide_eq_false hbehind, Bool.false_or, bne_iff_ne] at hblock
        have hlack : (s.missing (s.deref (.ext fec))).length ≠ 1 := hblock
        rcases RTPRecvSession.tryRecover_none (p.getRtpBySsrcSeq st) len hlack with hnone | hnone
        · rw [hnone, ok_bind]
          exact ih (kept ++ [block]) hrest
        · rw [hnone, ok_bind]
          exact ih kept hrest

/-- The packet in `_pkt_data`, once it is marked, meets the queue that `quiet` speaks of. -/
theorem RTPRecvSession.arrived_quiet (hmarked : s.pktHistory s.pktData.seq = true)
    (hquiet : (s.clearAtWrap s.pktData.seq).quiet s.pktData.seq = true) :
    (s.arrived s.pktData).quiet s.pktData.seq = true := by
  have hlastseq : (s.toRTPSession.adopt s.pktData).lastseq = s.lastseq := by
    unfold RTPSession.adopt
    dsimp only
    split <;> split <;> rfl
  have hhistory : (s.toRTPSession.adopt s.pktData).pktHistory = s.pktHistory := by
    unfold RTPSession.adopt
    dsimp only
    split <;> split <;> rfl
  unfold RTPRecvSession.arrived RTPRecvSession.met
  unfold RTPRecvSession.clearAtWrap at hquiet ⊢
  dsimp only at hquiet ⊢
  rw [hlastseq]
  by_cases hclear : s.pktData.seq < 50 ∧ 65500 < s.lastseq
  · rw [if_pos hclear]
    rfl
  · rw [if_neg hclear] at hquiet ⊢
    have hsame : (fun t => t == s.pktData.seq ||
        (s.toRTPSession.adopt s.pktData).pktHistory t) = s.pktHistory := by
      funext t
      rw [hhistory]
      by_cases ht : t = s.pktData.seq
      · rw [ht, hmarked, Bool.or_true]
      · rw [beq_false_of_ne ht, Bool.false_or]
    refine (RTPRecvSession.quiet_congr (s := s) ?_ ?_ ?_ _).trans hquiet
    · rfl
    · exact hsame
    · exact adopt_pktData s.toRTPSession s.pktData

/-- `on_handle_rtp` of a quiet packet in `_pkt_data` calls nobody and leaves it there. -/
theorem RTPRecvSession.onHandleRtp_quiet (hE : E .outOfFuel) (p : Parent σ) (env : RecvEnv)
    (fuel : Nat) (st : σ) (hmedia : isFec s.pktData.payload = false)
    (hmarked : s.pktHistory s.pktData.seq = true)
    (hquiet : (s.clearAtWrap s.pktData.seq).quiet s.pktData.seq = true) (len : Nat) :
    Ends E (fun r => r.1 = st ∧ r.2.pktData = s.pktData)
      (s.onHandleRtp p env fuel st .own len) := by
  cases fuel with
  | zero => exact hE
  | succ fuel =>
    have hadopted := adopt_pktData s.toRTPSession s.pktData
    have hmet : (s.met s.pktData).pktData = s.pktData := arrived_pktData s s.pktData
    have hscan := RTPRecvSession.scanPending_quiet (s := s.arrived s.pktData) hE p s.pktData.seq st
      [] (RTPRecvSession.arrived_quiet hmarked hquiet)
    refine Ends.bind (P := fun r => r.1 = st ∧ r.2.pktData = s.pktData) ?_ ?_
    · change Ends E _ (RTPRecvSession.fecLoop p (fuel + 1) st (RTPRecvSession.clearAtWrap
        { s with toRTPSession := s.toRTPSession.adopt s.pktData }
        (s.toRTPSession.adopt s.pktData).pktData.seq) .own len)
      rw [hadopted]
      change Ends E _ (RTPRecvSession.fecLoop p (fuel + 1) st (s.met s.pktData) .own len)
      rw [RTPRecvSession.fecLoop, RTPRecvSession.deref_own, hmet, hmedia,
        if_neg Bool.false_ne_true]
      refine Ends.bind hscan ?_
      rintro ⟨st', s', again⟩ - ⟨rfl, hdata, rfl⟩
      exact ⟨rfl, hdata.trans hmet⟩
    · rintro ⟨st', s'⟩ - ⟨rfl, hdata⟩
      dsimp only at hdata ⊢
      rw [RTPRecvSession.deref_own, hdata, hmedia, if_neg Bool.false_ne_true]
      exact ⟨rfl, (s'.onHandleRtpNack_queue env s.pktData len).2.trans hdata⟩

end Session

end RtcMcu.RtpTrans
