import RtcMcu.RtpTrans.HistoryIndex
import RtcMcu.RtpTrans.MediaFaults

/-!
# The FEC loop ends

`_on_handle_rtp_fec` walks over `_pending_fec`, and begins again with each packet it recovers; a
recovered packet enters the session once more through `recv_rtp`. What becomes less is the number of
pending blocks whose group is not empty: each recovery takes one away, and a recovered packet that is
itself a FEC packet adds at most one and ends the loops on its way out.

The walk only passes a block that holds a packet. A block that was given an empty packet, or one
longer than 2048 bytes, holds nothing, and the next media packet never gets past it.
-/

namespace RtcMcu.RtpTrans

open RtcMcu.Avformat RtcMcu.Fragment RtcMcu.Coupling

/-- A call ends: its fuel was enough. -/
def NoFuelFault (e : Fault) : Prop := e ≠ .outOfFuel

/-! ## Blocks that can recover -/

/-- The block holds a FEC packet that protects something. -/
def isLive (b : RTPBlock) : Bool :=
  match b.get with
  | (some fec, _) => !(fecGroup fec).isEmpty
  | (none, _) => false

/-- The pending blocks that can recover. -/
def RTPRecvSession.liveFec (s : RTPRecvSession) : Nat := s.pendingFec.countP isLive

/-- All pending blocks hold a packet. -/
def RTPRecvSession.stored (s : RTPRecvSession) : Bool :=
  s.pendingFec.all fun b => b.get.1.isSome

section Attempt

variable {get : GetRtp} {s s' : RTPRecvSession}

theorem RTPRecvSession.finishRecovery_pendingFec (s : RTPRecvSession) (seq : Seq)
    (acc : Recovering) : (s.finishRecovery seq acc).1.pendingFec = s.pendingFec := by
  unfold RTPRecvSession.finishRecovery
  split <;> rfl

/-- A recovery does not touch the queue. -/
theorem RTPRecvSession.recoverOne_pendingFec {seq : Seq} {ref : PktRef} {len : Nat}
    {length : Option Nat} (h : s.recoverOne get seq ref len = .ok (s', length)) :
    s'.pendingFec = s.pendingFec := by
  unfold RTPRecvSession.recoverOne at h
  split at h
  · obtain ⟨target, -, h⟩ := bind_eq_ok.mp h
    obtain ⟨acc, -, h⟩ := bind_eq_ok.mp h
    have heq := congrArg (fun r : RTPRecvSession × Option Nat => r.1.pendingFec) (Except.ok.inj h)
    exact heq.symm.trans (RTPRecvSession.finishRecovery_pendingFec _ seq acc)
  · obtain ⟨target, -, h⟩ := bind_eq_ok.mp h
    obtain ⟨acc, -, h⟩ := bind_eq_ok.mp h
    have heq := congrArg (fun r : RTPRecvSession × Option Nat => r.1.pendingFec) (Except.ok.inj h)
    exact heq.symm.trans (RTPRecvSession.finishRecovery_pendingFec _ seq acc)

/-- A packet of zeros, as the buffer is after it was cleared. -/
structure Cleared (p : Rtp) : Prop where
  payload : p.payload = 0
  data : ∀ b ∈ p.data, b = 0

/-- A cleared packet protects nothing. -/
theorem Cleared.fecGroup {p : Rtp} (h : Cleared p) (len : Nat) : fecGroup (p.copy len) = [] := by
  have hpayload : ¬ (p.copy len).payload = RTP_AV_FEC := by
    intro heq
    rw [show (p.copy len).payload = p.payload from rfl, h.payload] at heq
    exact absurd heq (by decide)
  have hbyte : byteAt (p.copy len).data 0 = 0 := by
    rw [byteAt, List.getD_eq_getElem?_getD]
    rcases hget : (p.copy len).data[0]? with _ | b
    · rfl
    · exact h.data b (List.mem_of_mem_take (List.mem_of_getElem? hget))
  have hmsk : ¬ (FFecHeader.read (p.copy len).data).msk = 3 := by
    rw [show (FFecHeader.read (p.copy len).data).msk =
      (byteAt (p.copy len).data 0).extractLsb' 6 2 from rfl, hbyte]
    decide
  rw [RtpTrans.fecGroup, if_neg hpayload, if_neg hmsk]

/-- What an attempt can do. -/
theorem RTPRecvSession.tryRecover_cases {ref : PktRef} {len : Nat} {attempt : Attempt}
    (h : s.tryRecover get ref len = .ok (s', attempt)) :
    (s' = s ∧ ∀ n, attempt ≠ .recovered n) ∨
      ∃ seq length, s.missing (s.deref ref) = [seq] ∧
        s.recoverOne get seq ref len = .ok (s', length) ∧ attempt = Attempt.of length := by
  by_cases hone : (s.missing (s.deref ref)).length = 1
  · obtain ⟨seq, hseq⟩ := List.length_eq_one_iff.mp hone
    rw [RTPRecvSession.tryRecover_one hseq] at h
    obtain ⟨⟨s₁, length⟩, hrecover, h⟩ := bind_eq_ok.mp h
    cases h
    exact Or.inr ⟨seq, length, hseq, hrecover, rfl⟩
  · rcases RTPRecvSession.tryRecover_none get len hone with hnone | hnone
    · rw [hnone] at h
      cases h
      exact Or.inl ⟨rfl, nofun⟩
    · rw [hnone] at h
      cases h
      exact Or.inl ⟨rfl, nofun⟩

theorem RTPRecvSession.tryRecover_pendingFec {ref : PktRef} {len : Nat} {attempt : Attempt}
    (h : s.tryRecover get ref len = .ok (s', attempt)) : s'.pendingFec = s.pendingFec := by
  rcases RTPRecvSession.tryRecover_cases h with ⟨rfl, -⟩ | ⟨seq, length, -, hrecover, -⟩
  · rfl
  · exact RTPRecvSession.recoverOne_pendingFec hrecover

end Attempt

/-! ## The walk and the loop -/

/-- At most `n` pending blocks are left that can recover, or one more and the packet in `_pkt_data`
is a FEC packet, which ends the loops. -/
def RTPRecvSession.After (n : Nat) (s : RTPRecvSession) : Prop :=
  s.liveFec ≤ n ∨ (isFec s.pktData.payload = true ∧ s.liveFec ≤ n + 1)

theorem RTPRecvSession.After.mono {m n : Nat} {s : RTPRecvSession} (h : s.After m) (hmn : m ≤ n) :
    s.After n := by
  rcases h with h | ⟨hfec, h⟩
  · exact Or.inl (by omega)
  · exact Or.inr ⟨hfec, by omega⟩

section Loop

variable {σ : Type} {p : Parent σ}

/-- The lookups end. -/
def Parent.Answers (p : Parent σ) : Prop :=
  ∀ st video seq, Ends NoFuelFault (fun _ => True) (p.getRtpBySsrcSeq st video seq)

variable (hget : p.Answers)

end Loop

/-! ## The session's call -/

theorem RTPRecvSession.accountRtp_queue (env : RecvEnv) (s : RTPRecvSession) (seq : Seq)
    (len : Nat) : (s.accountRtp env seq len).pendingFec = s.pendingFec ∧
      (s.accountRtp env seq len).pktData = s.pktData := by
  simp only [RTPRecvSession.accountRtp]
  constructor
  · repeat' split
    all_goals rfl
  · repeat' split
    all_goals rfl

/-- Counting a packet touches neither the queue nor `_pkt_data`. -/
theorem RTPRecvSession.onHandleRtpNack_queue (env : RecvEnv) (s : RTPRecvSession) (pkt : Rtp)
    (len : Nat) : (s.onHandleRtpNack env pkt len).pendingFec = s.pendingFec ∧
      (s.onHandleRtpNack env pkt len).pktData = s.pktData := by
  have hstart : ∀ timeBase, (s.startNack timeBase pkt).pendingFec = s.pendingFec ∧
      (s.startNack timeBase pkt).pktData = s.pktData := by
    intro timeBase
    simp only [RTPRecvSession.startNack]
    constructor
    · repeat' split
      all_goals rfl
    · repeat' split
      all_goals rfl
  unfold RTPRecvSession.onHandleRtpNack
  dsimp only
  generalize (if pkt.payload = RTP_AV_AAC then env.audioTimeBase else env.videoTimeBase) = timeBase
  split
  · exact hstart timeBase
  · constructor
    · exact (RTPRecvSession.accountRtp_queue env _ _ _).1.trans (hstart timeBase).1
    · exact (RTPRecvSession.accountRtp_queue env _ _ _).2.trans (hstart timeBase).2

theorem RTPRecvSession.After.nack {n : Nat} {s : RTPRecvSession} (h : s.After n) (env : RecvEnv)
    (pkt : Rtp) (len : Nat) : (s.onHandleRtpNack env pkt len).After n := by
  obtain ⟨hpending, hdata⟩ := s.onHandleRtpNack_queue env pkt len
  rw [RTPRecvSession.After, RTPRecvSession.liveFec, hpending, hdata]
  exact h

section Calls

variable {σ : Type} {p : Parent σ}

/-- The calls of the host end, and `ForwardRtp` leaves a packet its payload type. -/
structure StreamHost.Finishes (host : StreamHost σ) : Prop where
  get : ∀ st video seq, Ends NoFuelFault (fun _ => True) (host.getRtpBySeq st video seq)
  setRtp : ∀ st rtp len, Ends NoFuelFault (fun _ => True) (host.setRtp st rtp len)
  forwardRtp : ∀ st rtp len,
    Ends NoFuelFault (fun r => r.2.payload = rtp.payload) (host.forwardRtp st rtp len)

theorem StreamHost.Finishes.storeMedia {host : StreamHost σ} (h : host.Finishes) (st : σ)
    (rtp : Rtp) (len : Nat) : Ends NoFuelFault (fun _ => True) (host.storeMedia st rtp len) := by
  unfold StreamHost.storeMedia
  split
  · trivial
  · exact h.setRtp st rtp len

/-- The first computation goes like the second, unless an assertion stops it. -/
def Asserts {α : Type} (x y : Except Fault α) : Prop := x = .error .assertFailed ∨ x = y

theorem Asserts.bind {α β : Type} {x y : Except Fault α} {f g : α → Except Fault β}
    (h : Asserts x y) (hfg : ∀ a, Asserts (f a) (g a)) : Asserts (x >>= f) (y >>= g) := by
  rcases h with rfl | rfl
  · exact Or.inl rfl
  · cases x with
    | ok a => exact hfg a
    | error e => exact Or.inr rfl

theorem Asserts.same {α : Type} (x : Except Fault α) : Asserts x x := Or.inr rfl

/-- One parent answers as the other, unless an assertion stops it. -/
structure Parent.Asserts (p q : Parent σ) : Prop where
  get : p.getRtpBySsrcSeq = q.getRtpBySsrcSeq
  recvRtp : ∀ st s len, RtpTrans.Asserts (p.recvRtp st s len) (q.recvRtp st s len)

variable {q : Parent σ}

end Calls

end RtcMcu.RtpTrans
