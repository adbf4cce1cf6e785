import RtcMcu.RtpTrans.RtpTrans

/-!
# The age of a packet

Three places drop what is older than `max_packet_age` numbers: `isNacklistTooOld` the entries of
`_nacks`, `isHisNacklistTooOld` those of `_his_nacks`, and the NACK filter of the sender session the
numbers asked for. Each takes the difference of two `uint16_t`, which is an `int`, and casts it to
`uint32_t`. As long as the older number is the smaller one that is the distance between them
(`tooOld_iff`). Once the newer number has wrapped it is close to `2 ^ 32`, and whatever was sent
before the wrap is too old.
-/

namespace RtcMcu.RtpTrans

open RtcMcu.Serial

/-- `isHisNacklistTooOld`. -/
def RTPRecvSession.isHisNacklistTooOld (cfg : RTPTransConfig) (s : RTPRecvSession) (seq : Seq) :
    Bool :=
  match s.hisNacks with
  | [] => false
  | first :: _ => tooOld cfg seq first

/-- `drop` in `RTPSendSession::on_handle_rtcp`. -/
def RTPSendSession.dropsNack (cfg : RTPTransConfig) (s : RTPSendSession) (seqNum : Seq) : Bool :=
  tooOld cfg s.lastseq seqNum

/-- What the difference of the two numbers comes to. -/
theorem toNat_age (latest seq : Seq) :
    (latest.setWidth 32 - seq.setWidth 32).toNat =
      if seq.toNat ≤ latest.toNat then latest.toNat - seq.toNat
      else 2 ^ 32 + latest.toNat - seq.toNat := by
  have hlatest := latest.isLt
  have hseq := seq.isLt
  have hl : (latest.setWidth 32).toNat = latest.toNat := by
    rw [BitVec.toNat_setWidth, Nat.mod_eq_of_lt (by omega)]
  have hs : (seq.setWidth 32).toNat = seq.toNat := by
    rw [BitVec.toNat_setWidth, Nat.mod_eq_of_lt (by omega)]
  have hage := ahead_cases (seq.setWidth 32) (latest.setWidth 32)
  rw [hl, hs] at hage
  exact hage

/-- An entry is too old if its number is larger than the latest one, or smaller by more than
`max_packet_age`. -/
theorem tooOld_iff {cfg : RTPTransConfig} (hage : cfg.maxPacketAge.toNat < 2 ^ 31)
    (latest seq : Seq) :
    tooOld cfg latest seq = true ↔ cfg.maxPacketAge ≠ 0 ∧
      (latest.toNat < seq.toNat ∨ cfg.maxPacketAge.toNat < latest.toNat - seq.toNat) := by
  have hlatest := latest.isLt
  have hseq := seq.isLt
  rw [tooOld, Bool.and_eq_true, bne_iff_ne, decide_eq_true_eq, BitVec.lt_def, toNat_age]
  refine and_congr_right fun _ => ?_
  split <;> omega

/-! ## Ageing is modular except across the wrap -/

/-- At all three places an entry is too old exactly if its distance from the latest number is over
`max_packet_age`. -/
structure AgesModularly (cfg : RTPTransConfig) (latest seq : Seq) : Prop where
  nacks : ∀ (s : RTPSession) (info : NackRetransInfo) (rest : NackMap), s.lastseq = latest →
    s.nacks = (seq, info) :: rest →
    (s.isNacklistTooOld cfg = true ↔ cfg.maxPacketAge.toNat < ahead seq latest)
  hisNacks : ∀ (s : RTPRecvSession) (rest : List Seq), s.hisNacks = seq :: rest →
    (s.isHisNacklistTooOld cfg latest = true ↔ cfg.maxPacketAge.toNat < ahead seq latest)
  filter : ∀ s : RTPSendSession, s.lastseq = latest →
    (s.dropsNack cfg seq = true ↔ cfg.maxPacketAge.toNat < ahead seq latest)

/-- The three places compute one thing. -/
theorem agesModularly_iff_tooOld (cfg : RTPTransConfig) (latest seq : Seq) :
    AgesModularly cfg latest seq ↔
      (tooOld cfg latest seq = true ↔ cfg.maxPacketAge.toNat < ahead seq latest) := by
  constructor
  · intro h
    exact h.filter { RTPSendSession.new with lastseq := latest } rfl
  · intro h
    refine ⟨?_, ?_, ?_⟩
    · rintro s info rest rfl hnacks
      rw [RTPSession.isNacklistTooOld, hnacks]
      exact h
    · intro s rest hhis
      rw [RTPRecvSession.isHisNacklistTooOld, hhis]
      exact h
    · rintro s rfl
      exact h

/-- For every `max_packet_age` below half a turn and every number that is the latest one or older,
ageing is modular exactly if it is switched on, or the number is the latest one, and the number is
not larger than the latest one, or too old anyway. -/
theorem ages_modularly_iff (cfg : RTPTransConfig) (hage : cfg.maxPacketAge.toNat < 2 ^ 15)
    (latest seq : Seq) (holder : ahead seq latest < 2 ^ 15) :
    AgesModularly cfg latest seq ↔
      (cfg.maxPacketAge ≠ 0 ∨ seq = latest) ∧
        (seq ≤ latest ∨ cfg.maxPacketAge.toNat < ahead seq latest) := by
  have hzero : cfg.maxPacketAge = 0 ↔ cfg.maxPacketAge.toNat = 0 := by
    rw [← BitVec.toNat_inj]
    rfl
  have hself : seq = latest ↔ ahead seq latest = 0 := ahead_eq_zero.symm
  have hcases := ahead_cases seq latest
  rw [agesModularly_iff_tooOld, tooOld_iff (by omega), BitVec.le_def, Ne, hzero, hself]
  split at hcases <;> omega

/-- Across no wrap. -/
theorem ages_modularly_iff_default :
    AgesModularly RTPTransConfig.default 1000 900 ↔
      (RTPTransConfig.default.maxPacketAge ≠ 0 ∨ (900 : Seq) = 1000) ∧
        ((900 : Seq) ≤ 1000 ∨ RTPTransConfig.default.maxPacketAge.toNat < ahead (900 : Seq) 1000) :=
  ages_modularly_iff RTPTransConfig.default (by decide) 1000 900 (by decide)

/-- One number before the wrap, with the latest number just past it: it lies two numbers back, and
with a `max_packet_age` of 450 it is too old. -/
theorem not_ages_modularly_at_wrap :
    ahead (65535 : Seq) 1 = 2 ∧ tooOld RTPTransConfig.default 1 65535 = true ∧
      ¬ AgesModularly RTPTransConfig.default 1 65535 := by
  refine ⟨by decide, by decide, fun h => ?_⟩
  have hold := (h.filter { RTPSendSession.new with lastseq := 1 } rfl).mp (by decide)
  exact absurd hold (by decide)

end RtcMcu.RtpTrans
