import RtcMcu.RtpTrans.FecTermination
import RtcMcu.RtpTrans.NackTimer

/-!
# A call is a run of steps

What `on_handle_rtp` does to a receiver session, the packets it recovers and hands to itself
included, is a run of the steps of `SessionOp`: the packets that arrive, the media packets it accounts
for, the numbers that are recovered or marked, and changes that leave both alone. So what holds of every
run of steps holds of every run of the session.
-/

namespace RtcMcu.RtpTrans

open RtcMcu.Avformat RtcMcu.Fragment RtcMcu.Coupling

/-- Steps lead from one session to another; the time of the last NACK stays. -/
def Steps (cfg : TimerConfig) (s s' : RTPRecvSession) : Prop :=
  ∃ ops, ∀ time, ({ s with lastProcessNackts := time } : TimedSession).run cfg ops =
    { s' with lastProcessNackts := time }

namespace Steps

variable {cfg : TimerConfig} {s s₁ s' : RTPRecvSession}

theorem refl (s : RTPRecvSession) : Steps cfg s s := ⟨[], fun _ => rfl⟩

theorem trans (h : Steps cfg s s₁) (h' : Steps cfg s₁ s') : Steps cfg s s' := by
  obtain ⟨ops, hops⟩ := h
  obtain ⟨ops', hops'⟩ := h'
  refine ⟨ops ++ ops', fun time => ?_⟩
  rw [TimedSession.run, List.foldl_append]
  exact (congrArg (fun t : TimedSession => t.run cfg ops') (hops time)).trans (hops' time)

/-- A change that leaves the NACKs alone. -/
theorem other (h : s' = s.withRest s'.rest) : Steps cfg s s' :=
  ⟨[.other s'.rest], fun time =>
    congrArg (fun t : RTPRecvSession => ({ t with lastProcessNackts := time } : TimedSession)) h.symm⟩

theorem arrive (s : RTPRecvSession) (seq : Seq) :
    Steps cfg s ((s.clearAtWrap seq).mark seq) := ⟨[.arrive seq], fun _ => rfl⟩

theorem wrap (s : RTPRecvSession) (seq : Seq) : Steps cfg s (s.clearAtWrap seq) :=
  ⟨[.wrap seq], fun _ => rfl⟩

theorem mark (s : RTPRecvSession) (seq : Seq) : Steps cfg s (s.mark seq) :=
  ⟨[.mark seq], fun _ => rfl⟩

theorem recovered (s : RTPRecvSession) (seq : Seq) :
    Steps cfg s ({ s with nacks := s.nacks.erase seq }.mark seq) :=
  ⟨[.recovered seq], fun _ => rfl⟩

theorem media (s : RTPRecvSession) (env : RecvEnv) (henv : env.cfg = cfg.toRTPTransConfig)
    (pkt : Rtp) (len : Nat) : Steps cfg s (s.onHandleRtpNack env pkt len) := by
  refine ⟨[.media env.audioTimeBase env.videoTimeBase env.now pkt len], fun time => ?_⟩
  have hsame : (⟨cfg.toRTPTransConfig, env.audioTimeBase, env.videoTimeBase, env.now⟩ : RecvEnv) =
      env := by rw [← henv]
  exact congrArg (fun e : RecvEnv => ({ s.onHandleRtpNack e pkt len with
    lastProcessNackts := time } : TimedSession)) hsame

end Steps

/-! ## Recovering -/

section Fec

variable {cfg : TimerConfig} {s s' : RTPRecvSession}

/-- The end of a recovery leaves the NACKs alone, or erases the number, which is then marked. -/
theorem finishRecovery_steps (cfg : TimerConfig) (s : RTPRecvSession) (seq : Seq) (acc : Recovering) :
    if (s.finishRecovery seq acc).2.isSome
    then Steps cfg s ((s.finishRecovery seq acc).1.mark (s.finishRecovery seq acc).1.pktData.seq)
    else Steps cfg s (s.finishRecovery seq acc).1 := by
  unfold RTPRecvSession.finishRecovery
  split
  · exact (Steps.recovered s seq).trans (Steps.other rfl)
  · exact Steps.other rfl

theorem recoverOne_steps (cfg : TimerConfig) {get : GetRtp} {seq : Seq} {ref : PktRef} {len : Nat}
    {length : Option Nat} (h : s.recoverOne get seq ref len = .ok (s', length)) :
    if length.isSome then Steps cfg s (s'.mark s'.pktData.seq) else Steps cfg s s' := by
  have hclear : Steps cfg s (s.clearPktData seq) := Steps.other rfl
  have hfinish : ∀ acc, (s.clearPktData seq).finishRecovery seq acc = (s', length) →
      if length.isSome then Steps cfg s (s'.mark s'.pktData.seq) else Steps cfg s s' := by
    intro acc heq
    have hend := finishRecovery_steps cfg (s.clearPktData seq) seq acc
    rw [heq] at hend
    revert hend
    cases length with
    | none => exact fun hend => hclear.trans hend
    | some n => exact fun hend => hclear.trans hend
  unfold RTPRecvSession.recoverOne at h
  split at h
  · obtain ⟨target, -, h⟩ := bind_eq_ok.mp h
    obtain ⟨acc, -, h⟩ := bind_eq_ok.mp h
    exact hfinish acc (Except.ok.inj h)
  · obtain ⟨target, -, h⟩ := bind_eq_ok.mp h
    obtain ⟨acc, -, h⟩ := bind_eq_ok.mp h
    exact hfinish acc (Except.ok.inj h)

/-- An attempt that recovers nothing leaves the NACKs alone; one that does is a run of steps once the
number is marked. -/
theorem tryRecover_steps (cfg : TimerConfig) {get : GetRtp} {ref : PktRef} {len : Nat}
    {attempt : Attempt} (h : s.tryRecover get ref len = .ok (s', attempt)) :
    match attempt with
    | .recovered _ => Steps cfg s (s'.mark s'.pktData.seq)
    | _ => Steps cfg s s' := by
  rcases RTPRecvSession.tryRecover_cases h with ⟨rfl, hnot⟩ | ⟨seq, length, -, hrecover, rfl⟩
  · cases attempt with
    | notYet => exact Steps.refl s'
    | useless => exact Steps.refl s'
    | recovered n => exact absurd rfl (hnot n)
  · have hone := recoverOne_steps cfg hrecover
    cases length with
    | none => exact hone
    | some n => exact hone

end Fec

/-! ## Calls -/

section Calls

variable {σ : Type} {cfg : TimerConfig} {p : Parent σ}

/-- What `recv_rtp` does to the session is a run of steps. -/
def Parent.DoesSteps (cfg : TimerConfig) (p : Parent σ) : Prop :=
  ∀ st s len r, p.recvRtp st s len = .ok r → Steps cfg s r.2

theorem scanPending_steps (h : p.DoesSteps cfg) (seq : Seq) (st : σ) (s : RTPRecvSession)
    (kept pending : List RTPBlock) {r : σ × RTPRecvSession × Bool}
    (hscan : s.scanPending p seq st kept pending = .ok r) : Steps cfg s r.2.1 := by
  induction pending generalizing s kept with
  | nil =>
    cases hscan
    exact Steps.other rfl
  | cons block rest ih =>
    simp only [RTPRecvSession.scanPending] at hscan
    revert hscan
    rcases block.get with ⟨_ | fec, len⟩
    · intro hscan
      cases hscan
    · intro hscan
      dsimp only at hscan
      split at hscan
      · exact ih s kept hscan
      · obtain ⟨⟨s₁, attempt⟩, htry, hscan⟩ := bind_eq_ok.mp hscan
        have hs₁ := tryRecover_steps cfg htry
        cases attempt with
        | notYet => exact hs₁.trans (ih s₁ _ hscan)
        | useless => exact hs₁.trans (ih s₁ kept hscan)
        | recovered length =>
          obtain ⟨⟨st₂, s₂⟩, hrecv, hscan⟩ := bind_eq_ok.mp hscan
          cases hscan
          have hqueue : Steps cfg (s₁.mark s₁.pktData.seq) (({ s₁ with
              pendingFec := kept ++ rest } : RTPRecvSession).mark s₁.pktData.seq) :=
            Steps.other rfl
          exact hs₁.trans (hqueue.trans (h st _ length _ hrecv))

/-- What the loop does to a media packet once it is marked. -/
theorem fecLoop_steps (h : p.DoesSteps cfg) (fuel : Nat) (st : σ) (s : RTPRecvSession)
    (ref : PktRef) (len : Nat) {r : σ × RTPRecvSession}
    (hloop : s.fecLoop p fuel st ref len = .ok r) :
    if isFec (s.deref ref).payload then Steps cfg s r.2
    else Steps cfg (s.mark (s.deref ref).seq) r.2 := by
  induction fuel generalizing st s ref with
  | zero => cases hloop
  | succ fuel ih =>
    have hagain : ∀ (st₂ : σ) (s₂ : RTPRecvSession),
        s₂.fecLoop p fuel st₂ .own len = .ok r → Steps cfg s₂ r.2 := by
      intro st₂ s₂ hrest
      have hown := ih st₂ s₂ .own hrest
      split at hown
      · exact hown
      · exact (Steps.mark s₂ _).trans hown
    simp only [RTPRecvSession.fecLoop] at hloop
    split at hloop
    · next hfec =>
      rw [if_pos hfec]
      obtain ⟨⟨s₁, attempt⟩, htry, hloop⟩ := bind_eq_ok.mp hloop
      have hs₁ := tryRecover_steps cfg htry
      cases attempt with
      | notYet =>
        cases hloop
        exact hs₁.trans (Steps.other rfl)
      | useless =>
        cases hloop
        exact hs₁.trans (Steps.other rfl)
      | recovered length =>
        obtain ⟨⟨st₂, s₂⟩, hrecv, hloop⟩ := bind_eq_ok.mp hloop
        exact hs₁.trans ((h st _ length _ hrecv).trans (hagain st₂ s₂ hloop))
    · next hfec =>
      rw [if_neg hfec]
      obtain ⟨⟨st₂, s₂, again⟩, hscan, hloop⟩ := bind_eq_ok.mp hloop
      have hs₂ := scanPending_steps h _ st _ [] _ hscan
      cases again with
      | true => exact hs₂.trans (hagain st₂ s₂ hloop)
      | false =>
        cases hloop
        exact hs₂

/-- `_on_handle_rtp_fec` begins with the arrival of the packet. -/
theorem onHandleRtpFec_steps (h : p.DoesSteps cfg) (fuel : Nat) (st : σ) (s : RTPRecvSession)
    (ref : PktRef) (len : Nat) {r : σ × RTPRecvSession}
    (hcall : s.onHandleRtpFec p fuel st ref len = .ok r) : Steps cfg s r.2 := by
  have hderef : (s.clearAtWrap (s.deref ref).seq).deref ref = s.deref ref := by
    cases ref with
    | ext pkt => rfl
    | own =>
      unfold RTPRecvSession.clearAtWrap
      split <;> rfl
  have hloop := fecLoop_steps h fuel st _ ref len hcall
  rw [hderef] at hloop
  split at hloop
  · exact (Steps.wrap s _).trans hloop
  · exact (Steps.arrive s _).trans hloop

/-- `on_handle_rtp` is a run of steps if `recv_rtp` is. -/
theorem onHandleRtp_steps (h : p.DoesSteps cfg) (env : RecvEnv)
    (henv : env.cfg = cfg.toRTPTransConfig) (fuel : Nat) (st : σ) (s : RTPRecvSession) (ref : PktRef)
    (len : Nat) {r : σ × RTPRecvSession} (hcall : s.onHandleRtp p env fuel st ref len = .ok r) :
    Steps cfg s r.2 := by
  obtain ⟨⟨st₁, s₁⟩, hfec, hcall⟩ := bind_eq_ok.mp hcall
  have hadopt : Steps cfg s { s with toRTPSession := s.toRTPSession.adopt (s.deref ref) } := by
    refine Steps.other ?_
    unfold RTPSession.adopt
    dsimp only
    split <;> split <;> rfl
  have hs₁ := hadopt.trans (onHandleRtpFec_steps h fuel st _ ref len hfec)
  dsimp only at hcall
  split at hcall
  · cases hcall
    exact hs₁
  · cases hcall
    exact hs₁.trans (Steps.media s₁ env henv _ len)

/-- `OnRecvRtp` in the session is a run of steps. -/
theorem onRecvRtp_steps (host : StreamHost σ) (env : RecvEnv)
    (henv : env.cfg = cfg.toRTPTransConfig) (fuel : Nat) (st : σ) (s : RTPRecvSession)
    (ref : PktRef) (len : Nat) {r : σ × RTPRecvSession}
    (hcall : onRecvRtp host env fuel st s ref len = .ok r) : Steps cfg s r.2 := by
  induction fuel generalizing st s ref len r with
  | zero => cases hcall
  | succ fuel ih =>
    obtain ⟨st₁, -, hcall⟩ := bind_eq_ok.mp hcall
    obtain ⟨⟨st₂, s₂⟩, hrtp, hcall⟩ := bind_eq_ok.mp hcall
    have hparent : (host.parent env fuel).DoesSteps cfg := fun _ s len _ hrecv =>
      ih _ s .own len hrecv
    have hs₂ : Steps cfg s s₂ :=
      onHandleRtp_steps hparent env henv fuel st₁ s ref len hrtp
    dsimp only at hcall
    split at hcall
    · cases hcall
      exact hs₂
    · obtain ⟨⟨st₃, rtp⟩, -, hcall⟩ := bind_eq_ok.mp hcall
      cases hcall
      refine hs₂.trans ?_
      unfold RTPRecvSession.writeBack
      cases ref with
      | ext pkt => exact Steps.refl s₂
      | own => exact Steps.other rfl

/-- In the server, every call of `on_handle_rtp` is a run of steps. -/
theorem host_onHandleRtp_steps (host : StreamHost σ) (env : RecvEnv)
    (henv : env.cfg = cfg.toRTPTransConfig) (fuel : Nat) (st : σ) (s : RTPRecvSession) (pkt : Rtp)
    (len : Nat) {r : σ × RTPRecvSession}
    (hcall : s.onHandleRtp (host.parent env fuel) env fuel st (.ext pkt) len = .ok r) :
    Steps cfg s r.2 :=
  onHandleRtp_steps (fun _ s len _ hrecv => onRecvRtp_steps host env henv fuel _ s .own len hrecv)
    env henv fuel st s (.ext pkt) len hcall

end Calls

end RtcMcu.RtpTrans
