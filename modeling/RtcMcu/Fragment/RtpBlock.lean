import RtcMcu.Avformat.Rtp

/-!
# RTPBlock

The slot of `fragment/rtp_block.cpp`: a copy of one packet of at most 2048 bytes, or nothing.
Lengths are `uint16_t` in the source; here they are naturals that the callers keep below `2 ^ 16`.
-/

namespace RtcMcu.Fragment

open RtcMcu.Avformat

/-- `MAX_RTP_LEN` of `rtp_block.cpp`. -/
def maxRtpLen : Nat := 2048

/-- `RTPBlock`: `_rtp_header` (null or the copied bytes) and `_rtp_len`. -/
structure RTPBlock where
  rtpHeader : Option Rtp
  rtpLen : Nat
  deriving DecidableEq, Repr

/-- `RTPBlock()`, also the state `finalize` leaves. -/
def RTPBlock.unset : RTPBlock := { rtpHeader := none, rtpLen := 0 }

/-- `RTPBlock::set`: refuses a null packet, an empty one and one that does not fit. -/
def RTPBlock.set (b : RTPBlock) (rtp : Option Rtp) (len : Nat) : RTPBlock :=
  match rtp with
  | none => b
  | some p =>
    if len = 0 ∨ maxRtpLen < len then b else { rtpHeader := some (p.copy len), rtpLen := len }

/-- `RTPBlock(rtp, len)`. -/
def RTPBlock.new (rtp : Option Rtp) (len : Nat) : RTPBlock := RTPBlock.unset.set rtp len

/-- `RTPBlock::is_valid`. -/
def RTPBlock.isValid (b : RTPBlock) : Bool := b.rtpLen != 0 && b.rtpHeader.isSome

/-- `RTPBlock::get`: the packet and its length, null and 0 for an unset block. -/
def RTPBlock.get (b : RTPBlock) : Option Rtp × Nat :=
  if b.rtpLen = 0 then (none, 0) else (b.rtpHeader, b.rtpLen)

/-- `RTPBlock::get_seq`, which dereferences `_rtp_header`. -/
def RTPBlock.getSeq (b : RTPBlock) : Except Fault Seq :=
  match b.rtpHeader with
  | none => .error .nullDeref
  | some p => .ok p.seq

/-! ## Blocks that hold a packet -/

/-- The block that holds `p`. -/
def RTPBlock.holding (p : Rtp) : RTPBlock := { rtpHeader := some p, rtpLen := p.len }

@[simp] theorem RTPBlock.isValid_holding (p : Rtp) : (RTPBlock.holding p).isValid = true := by
  simp [RTPBlock.isValid, RTPBlock.holding, Rtp.len, rtpHeaderLen]

@[simp] theorem RTPBlock.isValid_unset : RTPBlock.unset.isValid = false := rfl

@[simp] theorem RTPBlock.getSeq_holding (p : Rtp) : (RTPBlock.holding p).getSeq = .ok p.seq := rfl

@[simp] theorem RTPBlock.get_holding (p : Rtp) :
    (RTPBlock.holding p).get = (some p, p.len) := by
  simp [RTPBlock.get, RTPBlock.holding, Rtp.len, rtpHeaderLen]

/-- Copying the whole of a packet is the packet. -/
@[simp] theorem Rtp.copy_len (p : Rtp) : p.copy p.len = p := by
  have hlen : p.len - rtpHeaderLen = p.data.length := by
    simp only [Rtp.len]
    omega
  simp only [Rtp.copy, hlen, List.take_length]

/-- A packet that fits is held as it is. -/
theorem RTPBlock.set_fits (b : RTPBlock) {p : Rtp} (h : p.len ≤ maxRtpLen) :
    b.set (some p) p.len = RTPBlock.holding p := by
  have hpos : p.len ≠ 0 := by
    simp only [Rtp.len, rtpHeaderLen]
    omega
  have hcond : ¬ (p.len = 0 ∨ maxRtpLen < p.len) := by omega
  simp only [RTPBlock.set, if_neg hcond, Rtp.copy_len, RTPBlock.holding]

theorem RTPBlock.new_fits {p : Rtp} (h : p.len ≤ maxRtpLen) :
    RTPBlock.new (some p) p.len = RTPBlock.holding p := RTPBlock.set_fits _ h

end RtcMcu.Fragment
