import RtcMcu.Lib.Coupling
import RtcMcu.RtpTrans.RtpTrans

/-!
# What a session makes of its host

A receiver session sees the rest of the server only through its host: the packets it looks up, and
the calls it makes when it has recovered one. So two hosts that answer alike make the session do the
same, however deep recoveries nest (`onRecvRtp_coupled`). With one host on both sides this bounds
what a call can change and how it can fail (`onRecvRtp_ends`).
-/

namespace RtcMcu.RtpTrans

open RtcMcu.Avformat RtcMcu.Fragment RtcMcu.Coupling

/-- The faults a session can run into by itself. -/
structure SessionFaults (E : Fault → Prop) : Prop where
  outOfBounds : E .outOfBounds
  outOfFuel : E .outOfFuel

variable {E : Fault → Prop}

/-! ## An attempt with a FEC packet -/

/-- The recovery of either kind. -/
def RTPRecvSession.recoverOne (get : GetRtp) (s : RTPRecvSession) (seq : Seq) (ref : PktRef)
    (len : Nat) : Except Fault (RTPRecvSession × Option Nat) :=
  if (s.deref ref).payload = RTP_AV_FEC then s.recoverPacket get seq ref len
  else s.fRecoverPacket get seq ref len

/-- A FEC packet whose group lacks one number: that number is recovered, or not. -/
theorem RTPRecvSession.tryRecover_one {get : GetRtp} {s : RTPRecvSession} {ref : PktRef} {len : Nat}
    {seq : Seq} (h : s.missing (s.deref ref) = [seq]) :
    s.tryRecover get ref len = (do
      let (s, length) ← s.recoverOne get seq ref len
      .ok (s, Attempt.of length)) := by
  unfold RTPRecvSession.missing at h
  unfold RTPRecvSession.tryRecover RTPRecvSession.recoverOne
  by_cases hfec : (s.deref ref).payload = RTP_AV_FEC
  · rw [if_pos hfec] at h ⊢
    rw [if_pos hfec]
    obtain ⟨i, hi, hseq⟩ := List.map_eq_singleton_iff.mp h
    rw [RTPRecvSession.recoverWithFec, hi, ← hseq]
  · rw [if_neg hfec] at h ⊢
    rw [if_neg hfec]
    by_cases hmsk : (FFecHeader.read (s.deref ref).data).msk = 3
    · rw [if_pos hmsk] at h
      rw [RTPRecvSession.recoverWithFFec, if_pos hmsk, h]
    · rw [if_neg hmsk] at h
      cases h

/-- A mask-FEC packet whose group lacks none or several numbers is of no use yet. -/
theorem RTPRecvSession.tryRecover_notYet (get : GetRtp) {s : RTPRecvSession} {ref : PktRef}
    (len : Nat) (hfec : (s.deref ref).payload = RTP_AV_FEC)
    (h : (s.missing (s.deref ref)).length ≠ 1) : s.tryRecover get ref len = .ok (s, .notYet) := by
  unfold RTPRecvSession.missing at h
  rw [if_pos hfec, List.length_map] at h
  rw [RTPRecvSession.tryRecover, if_pos hfec, RTPRecvSession.recoverWithFec]
  revert h
  generalize List.filter _ (List.filter _ (List.range 24)) = l
  intro h
  rcases l with _ | ⟨i, _ | ⟨j, l⟩⟩
  · rfl
  · exact absurd rfl h
  · rfl

/-- A FEC packet whose group lacks none or several numbers leaves the session alone. -/
theorem RTPRecvSession.tryRecover_none (get : GetRtp) {s : RTPRecvSession} {ref : PktRef}
    (len : Nat) (h : (s.missing (s.deref ref)).length ≠ 1) :
    s.tryRecover get ref len = .ok (s, .notYet) ∨
      s.tryRecover get ref len = .ok (s, .useless) := by
  by_cases hfec : (s.deref ref).payload = RTP_AV_FEC
  · exact Or.inl (RTPRecvSession.tryRecover_notYet get len hfec h)
  · unfold RTPRecvSession.missing at h
    rw [if_neg hfec] at h
    rw [RTPRecvSession.tryRecover, if_neg hfec, RTPRecvSession.recoverWithFFec]
    by_cases hmsk : (FFecHeader.read (s.deref ref).data).msk = 3
    · rw [if_pos hmsk] at h
      rw [if_pos hmsk]
      revert h
      generalize List.filter _ (fFecMembers _) = l
      intro h
      rcases l with _ | ⟨i, _ | ⟨j, l⟩⟩
      · by_cases hm : (FFecHeader.read (s.deref ref).data).m = 0
        · exact Or.inl (by simp only [hm, ↓reduceIte])
        · exact Or.inr (by simp only [hm, ↓reduceIte])
      · exact absurd rfl h
      · exact Or.inl rfl
    · rw [if_neg hmsk]
      exact Or.inl rfl

theorem payloadBytes_ends (hE : E .outOfBounds) (t : Rtp) (tLen : Nat) :
    Ends E (fun _ => True) (payloadBytes t tLen) := by
  unfold payloadBytes
  split
  · exact hE
  · trivial

theorem Recovering.add_ends (hE : E .outOfBounds) (acc : Recovering) (t : Option Rtp) (tLen : Nat) :
    Ends E (fun _ => True) (acc.add t tLen) := by
  cases t with
  | none => trivial
  | some t =>
    refine Ends.bind (payloadBytes_ends hE t tLen) fun data _ _ => ?_
    trivial

theorem Recovering.addAll_ends (hE : E .outOfBounds) {get : GetRtp}
    (hget : ∀ video seq, Ends E (fun _ => True) (get video seq)) (video : Bool) (acc : Recovering)
    (members : List Seq) : Ends E (fun _ => True) (Recovering.addAll get video acc members) := by
  refine Ends.foldlM members (fun acc seq _ _ => ?_) trivial
  refine Ends.bind (hget video seq) fun r _ _ => ?_
  exact acc.add_ends hE r.1 r.2

theorem copyFecData_ends (hE : E .outOfBounds) (data : List Byte) (len headers : Nat) :
    Ends E (fun _ => True) (copyFecData data len headers) := by
  unfold copyFecData
  by_cases h : len < headers ∨ 2048 - rtpHeaderLen + 2048 < len - headers
  · rw [if_pos h]
    exact hE
  · rw [if_neg h]
    trivial

theorem RTPRecvSession.recoverPacket_ends (hE : E .outOfBounds) {get : GetRtp}
    (hget : ∀ video seq, Ends E (fun _ => True) (get video seq)) (s : RTPRecvSession) (seq : Seq)
    (ref : PktRef) (len : Nat) : Ends E (fun _ => True) (s.recoverPacket get seq ref len) := by
  refine Ends.bind (copyFecData_ends hE _ _ _) fun target _ _ => ?_
  exact Ends.bind (Recovering.addAll_ends hE hget _ _ _) fun acc _ _ => trivial

theorem RTPRecvSession.fRecoverPacket_ends (hE : E .outOfBounds) {get : GetRtp}
    (hget : ∀ video seq, Ends E (fun _ => True) (get video seq)) (s : RTPRecvSession) (seq : Seq)
    (ref : PktRef) (len : Nat) : Ends E (fun _ => True) (s.fRecoverPacket get seq ref len) := by
  refine Ends.bind (copyFecData_ends hE _ _ _) fun target _ _ => ?_
  exact Ends.bind (Recovering.addAll_ends hE hget _ _ _) fun acc _ _ => trivial

theorem RTPRecvSession.recoverOne_ends (hE : E .outOfBounds) {get : GetRtp}
    (hget : ∀ video seq, Ends E (fun _ => True) (get video seq)) (s : RTPRecvSession) (seq : Seq)
    (ref : PktRef) (len : Nat) : Ends E (fun _ => True) (s.recoverOne get seq ref len) := by
  unfold RTPRecvSession.recoverOne
  split
  · exact s.recoverPacket_ends hE hget seq ref len
  · exact s.fRecoverPacket_ends hE hget seq ref len

theorem RTPRecvSession.tryRecover_ends (hE : E .outOfBounds) {get : GetRtp}
    (hget : ∀ video seq, Ends E (fun _ => True) (get video seq)) (s : RTPRecvSession) (ref : PktRef)
    (len : Nat) : Ends E (fun _ => True) (s.tryRecover get ref len) := by
  by_cases hone : (s.missing (s.deref ref)).length = 1
  · obtain ⟨seq, hseq⟩ := List.length_eq_one_iff.mp hone
    rw [RTPRecvSession.tryRecover_one hseq]
    exact Ends.bind (s.recoverOne_ends hE hget seq ref len) fun r _ _ => trivial
  · rcases RTPRecvSession.tryRecover_none get len hone with h | h
    · rw [h]
      trivial
    · rw [h]
      trivial

/-! ## Parents that answer alike -/

section Coupled

variable {σ τ : Type}

/-- Related states are answered alike and stay related. -/
structure Parent.Coupled (E : Fault → Prop) (R : σ → τ → Prop) (p : Parent σ) (q : Parent τ) :
    Prop where
  get : ∀ st st', R st st' → p.getRtpBySsrcSeq st = q.getRtpBySsrcSeq st' ∧
    ∀ video seq, Ends E (fun _ => True) (p.getRtpBySsrcSeq st video seq)
  recvRtp : ∀ st st' s len, R st st' →
    Coupling.Coupled E (fun a b => R a.1 b.1 ∧ a.2 = b.2) (p.recvRtp st s len) (q.recvRtp st' s len)

variable {R : σ → τ → Prop} {p : Parent σ} {q : Parent τ}

theorem RTPRecvSession.scanPending_coupled (hE : SessionFaults E) (h : p.Coupled E R q) (seq : Seq)
    {st : σ} {st' : τ} (hst : R st st') (s : RTPRecvSession) (kept pending : List RTPBlock) :
    Coupled E (fun a b => R a.1 b.1 ∧ a.2 = b.2) (s.scanPending p seq st kept pending)
      (s.scanPending q seq st' kept pending) := by
  induction pending generalizing s kept with
  | nil => exact ⟨hst, rfl⟩
  | cons block rest ih =>
    simp only [RTPRecvSession.scanPending]
    rcases block.get with ⟨_ | fec, len⟩
    · exact coupled_error hE.outOfFuel
    · dsimp only
      split
      · exact ih s kept
      · obtain ⟨hget, hends⟩ := h.get st st' hst
        rw [← hget]
        refine Coupled.bind (s.tryRecover_ends hE.outOfBounds hends (.ext fec) len).coupled ?_
        rintro ⟨s₁, attempt⟩ _ ⟨rfl, -⟩
        cases attempt with
        | notYet => exact ih s₁ (kept ++ [block])
        | useless => exact ih s₁ kept
        | recovered length =>
          refine Coupled.bind (h.recvRtp st st' _ length hst) ?_
          rintro ⟨st₂, s₂⟩ ⟨st₂', _⟩ ⟨hst₂, rfl⟩
          exact ⟨hst₂, rfl⟩

theorem RTPRecvSession.fecLoop_coupled (hE : SessionFaults E) (h : p.Coupled E R q) (fuel : Nat)
    {st : σ} {st' : τ} (hst : R st st') (s : RTPRecvSession) (ref : PktRef) (len : Nat) :
    Coupled E (fun a b => R a.1 b.1 ∧ a.2 = b.2) (s.fecLoop p fuel st ref len)
      (s.fecLoop q fuel st' ref len) := by
  induction fuel generalizing st st' s ref with
  | zero => exact coupled_error hE.outOfFuel
  | succ fuel ih =>
    simp only [RTPRecvSession.fecLoop]
    split
    · obtain ⟨hget, hends⟩ := h.get st st' hst
      rw [← hget]
      refine Coupled.bind (s.tryRecover_ends hE.outOfBounds hends ref len).coupled ?_
      rintro ⟨s₁, attempt⟩ _ ⟨rfl, -⟩
      cases attempt with
      | notYet => exact ⟨hst, rfl⟩
      | useless => exact ⟨hst, rfl⟩
      | recovered length =>
        refine Coupled.bind (h.recvRtp st st' _ length hst) ?_
        rintro ⟨st₂, s₂⟩ ⟨st₂', _⟩ ⟨hst₂, rfl⟩
        exact ih hst₂ s₂ .own
    · refine Coupled.bind (RTPRecvSession.scanPending_coupled hE h _ hst _ _ _) ?_
      rintro ⟨st₂, s₂, again⟩ ⟨st₂', _⟩ ⟨hst₂, rfl⟩
      cases again with
      | true => exact ih hst₂ s₂ .own
      | false => exact ⟨hst₂, rfl⟩

theorem RTPRecvSession.onHandleRtp_coupled (hE : SessionFaults E) (h : p.Coupled E R q)
    (env : RecvEnv) (fuel : Nat) {st : σ} {st' : τ} (hst : R st st') (s : RTPRecvSession)
    (ref : PktRef) (len : Nat) :
    Coupled E (fun a b => R a.1 b.1 ∧ a.2 = b.2) (s.onHandleRtp p env fuel st ref len)
      (s.onHandleRtp q env fuel st' ref len) := by
  refine Coupled.bind (RTPRecvSession.fecLoop_coupled hE h fuel hst _ ref len) ?_
  rintro ⟨st₂, s₂⟩ ⟨st₂', _⟩ ⟨hst₂, rfl⟩
  dsimp only
  split
  · exact ⟨hst₂, rfl⟩
  · exact ⟨hst₂, rfl⟩

/-! ## Hosts that answer alike -/

/-- Related states of two hosts are answered alike and stay related. -/
structure StreamHost.Coupled (E : Fault → Prop) (R : σ → τ → Prop) (host : StreamHost σ)
    (other : StreamHost τ) : Prop where
  get : ∀ st st', R st st' → host.getRtpBySeq st = other.getRtpBySeq st' ∧
    ∀ video seq, Ends E (fun _ => True) (host.getRtpBySeq st video seq)
  setRtp : ∀ st st' rtp len, R st st' →
    Coupling.Coupled E R (host.setRtp st rtp len) (other.setRtp st' rtp len)
  forwardRtp : ∀ st st' rtp len, R st st' →
    Coupling.Coupled E (fun a b => R a.1 b.1 ∧ a.2 = b.2) (host.forwardRtp st rtp len)
      (other.forwardRtp st' rtp len)
  recovered : ∀ st st' s len, R st st' → R (host.recovered st s len) (other.recovered st' s len)

variable {host : StreamHost σ} {other : StreamHost τ}

theorem StreamHost.Coupled.storeMedia (h : host.Coupled E R other) {st : σ} {st' : τ}
    (hst : R st st') (rtp : Rtp) (len : Nat) :
    Coupling.Coupled E R (host.storeMedia st rtp len) (other.storeMedia st' rtp len) := by
  unfold StreamHost.storeMedia
  split
  · exact hst
  · exact h.setRtp st st' rtp len hst

/-- The calls nest as deep as the fuel allows; the induction is on it. -/
theorem onRecvRtp_coupled (hE : SessionFaults E) (h : host.Coupled E R other) (env : RecvEnv)
    (fuel : Nat) {st : σ} {st' : τ} (hst : R st st') (s : RTPRecvSession) (ref : PktRef)
    (len : Nat) :
    Coupled E (fun a b => R a.1 b.1 ∧ a.2 = b.2) (onRecvRtp host env fuel st s ref len)
      (onRecvRtp other env fuel st' s ref len) := by
  induction fuel generalizing st st' s ref len with
  | zero => exact coupled_error hE.outOfFuel
  | succ fuel ih =>
    have hparent : (host.parent env fuel).Coupled E R (other.parent env fuel) :=
      { get := h.get
        recvRtp := fun st st' s len hst => ih (h.recovered st st' s len hst) s .own len }
    rw [onRecvRtp, onRecvRtp]
    refine Coupled.bind (h.storeMedia hst _ len) ?_
    intro st₁ st₁' hst₁
    refine Coupled.bind (RTPRecvSession.onHandleRtp_coupled hE hparent env fuel hst₁ s ref len) ?_
    rintro ⟨st₂, s₂⟩ ⟨st₂', _⟩ ⟨hst₂, rfl⟩
    dsimp only
    split
    · exact ⟨hst₂, rfl⟩
    · refine Coupled.bind (h.forwardRtp st₂ st₂' _ len hst₂) ?_
      rintro ⟨st₃, rtp⟩ ⟨st₃', _⟩ ⟨hst₃, rfl⟩
      exact ⟨hst₃, rfl⟩

theorem StreamHost.Coupled.parent (hE : SessionFaults E) (h : host.Coupled E R other)
    (env : RecvEnv) (fuel : Nat) : (host.parent env fuel).Coupled E R (other.parent env fuel) where
  get := h.get
  recvRtp st st' s len hst := onRecvRtp_coupled hE h env fuel (h.recovered st st' s len hst) s .own len

/-- A whole receiver trans. -/
theorem RTPRecvTrans.onHandleRtp_coupled (hE : SessionFaults E) (h : host.Coupled E R other)
    (fuel now : Nat) {st : σ} {st' : τ} (hst : R st st') (t : RTPRecvTrans) (pkt : Rtp)
    (len : Nat) :
    Coupled E (fun a b => R a.1 b.1 ∧ a.2 = b.2) (RTPRecvTrans.onHandleRtp host fuel now st t pkt len)
      (RTPRecvTrans.onHandleRtp other fuel now st' t pkt len) := by
  unfold RTPRecvTrans.onHandleRtp
  split
  · exact ⟨hst, rfl⟩
  · dsimp only
    split
    · exact ⟨hst, rfl⟩
    · refine Coupled.bind (RTPRecvSession.onHandleRtp_coupled hE (h.parent hE _ fuel) _ fuel hst _ _
        len) ?_
      rintro ⟨st₂, s₂⟩ ⟨st₂', _⟩ ⟨hst₂, rfl⟩
      exact ⟨hst₂, rfl⟩

end Coupled

/-! ## One host -/

section Ends

variable {σ : Type}

/-- What is kept by the calls a session makes: `I` holds of the host's state after each. -/
structure StreamHost.Keeps (E : Fault → Prop) (I : σ → Prop) (host : StreamHost σ) : Prop where
  get : ∀ st, I st → ∀ video seq, Ends E (fun _ => True) (host.getRtpBySeq st video seq)
  setRtp : ∀ st rtp len, I st → Ends E I (host.setRtp st rtp len)
  forwardRtp : ∀ st rtp len, I st → Ends E (fun r => I r.1) (host.forwardRtp st rtp len)
  recovered : ∀ st s len, I st → I (host.recovered st s len)

theorem StreamHost.Keeps.coupled {I : σ → Prop} {host : StreamHost σ} (h : host.Keeps E I) :
    host.Coupled E (fun st st' => st = st' ∧ I st) host where
  get := by
    rintro st _ ⟨rfl, hst⟩
    exact ⟨rfl, h.get st hst⟩
  setRtp := by
    rintro st _ rtp len ⟨rfl, hst⟩
    exact (h.setRtp st rtp len hst).coupled
  forwardRtp := by
    rintro st _ rtp len ⟨rfl, hst⟩
    refine (h.forwardRtp st rtp len hst).coupled.mono ?_
    rintro a _ ⟨rfl, ha⟩
    exact ⟨⟨rfl, ha⟩, rfl⟩
  recovered := by
    rintro st _ s len ⟨rfl, hst⟩
    exact ⟨rfl, h.recovered st s len hst⟩

/-- What the host's calls keep, the trans keeps. -/
theorem RTPRecvTrans.onHandleRtp_ends (hE : SessionFaults E) {I : σ → Prop} {host : StreamHost σ}
    (h : host.Keeps E I) (fuel now : Nat) {st : σ} (hst : I st) (t : RTPRecvTrans) (pkt : Rtp)
    (len : Nat) :
    Ends E (fun r => I r.1) (RTPRecvTrans.onHandleRtp host fuel now st t pkt len) := by
  refine (RTPRecvTrans.onHandleRtp_coupled hE h.coupled fuel now ⟨rfl, hst⟩ t pkt len).ends.mono ?_
  intro r _ hr
  exact hr.1.2

end Ends

end RtcMcu.RtpTrans
