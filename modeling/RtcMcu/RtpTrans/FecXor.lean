import RtcMcu.Lib.ByteMemory
import RtcMcu.RtpTrans.RtpSession

/-!
# fec_xor_64 in memory

`fec_xor_64` copies the source into `_xor_tmp_data`, behind which there are zeros, and goes over the
destination in words of eight bytes. The bytes of the destination are as `fecXor64` says. The number
of words is rounded up, and so the last one leaves a destination whose length is not a multiple of
eight: of the 2036 bytes behind the header in `_pkt_data` it writes 2040, the last four of them in
`_xor_tmp_data`.
-/

namespace RtcMcu.RtpTrans

open RtcMcu.ByteMemory RtcMcu.Parity

namespace FecXor

/-- The memory in the loop, its two pointers, and the addresses it has stored to. -/
structure XorLoop where
  mem : Memory
  psrc64 : Nat
  pdst64 : Nat
  stored : List Nat

/-- `*pdst64++ ^= x`. -/
def XorLoop.xorNext (s : XorLoop) (x : BitVec 64) : XorLoop :=
  { s with
    mem := store64 s.mem s.pdst64 (load64 s.mem s.pdst64 ^^^ x)
    pdst64 := s.pdst64 + 8
    stored := s.stored ++ (List.range 8).map (s.pdst64 + ·) }

/-- The body of the loop. -/
def XorLoop.round (srcLen : BitVec 32) (s : XorLoop) (j : Nat) : XorLoop :=
  if j < srcLen.toNat then
    { s.xorNext (load64 s.mem s.psrc64) with psrc64 := s.psrc64 + 8 }
  else s.xorNext 0

/-- `(std::max(src_len, dst_len) + 7) >> 3`. -/
def rounds (srcLen dstLen : BitVec 32) : Nat :=
  (((if srcLen.toNat < dstLen.toNat then dstLen else srcLen) + 7) >>> 3).toNat

/-- The memory before the loop: `tmp` is `_xor_tmp_data`. -/
def prepare (mem : Memory) (tmp src : Nat) (srcLen : BitVec 32) : Memory :=
  memcpy (memset mem tmp 0 2048) tmp src srcLen.toNat

/-- `fec_xor_64`. -/
def run (mem : Memory) (tmp src : Nat) (srcLen : BitVec 32) (dst : Nat) (dstLen : BitVec 32) :
    XorLoop :=
  (List.range (rounds srcLen dstLen)).foldl (XorLoop.round srcLen)
    { mem := prepare mem tmp src srcLen, psrc64 := tmp, pdst64 := dst, stored := [] }

/-! ## Where the loop stores -/

/-- The pointers and the addresses after `m` rounds. -/
theorem foldl_round_stored (srcLen : BitVec 32) (s : XorLoop) (m : Nat) :
    ((List.range m).foldl (XorLoop.round srcLen) s).pdst64 = s.pdst64 + 8 * m ∧
      ((List.range m).foldl (XorLoop.round srcLen) s).stored =
        s.stored ++ (List.range (8 * m)).map (s.pdst64 + ·) ∧
      (m ≤ srcLen.toNat →
        ((List.range m).foldl (XorLoop.round srcLen) s).psrc64 = s.psrc64 + 8 * m) := by
  induction m with
  | zero => exact ⟨rfl, (List.append_nil _).symm, fun _ => rfl⟩
  | succ m ih =>
    obtain ⟨hdst, hstored, hsrc⟩ := ih
    rw [List.range_succ, List.foldl_append, List.foldl_cons, List.foldl_nil]
    generalize List.foldl (XorLoop.round srcLen) s (List.range m) = t at hdst hstored hsrc ⊢
    have hnext : ∀ x, (t.xorNext x).stored =
        s.stored ++ (List.range (8 * (m + 1))).map (s.pdst64 + ·) := by
      intro x
      rw [XorLoop.xorNext, hstored, hdst, List.append_assoc, Nat.mul_succ, List.range_add,
        List.map_append, List.map_map]
      simp only [Function.comp_def, Nat.add_assoc]
    rw [XorLoop.round]
    split
    · next hlt =>
      refine ⟨?_, hnext (load64 t.mem t.psrc64), fun _ => ?_⟩
      · rw [XorLoop.xorNext, hdst, Nat.add_assoc, Nat.mul_succ]
      · rw [hsrc (Nat.le_of_lt hlt), Nat.add_assoc, Nat.mul_succ]
    · next hge =>
      refine ⟨?_, hnext 0, fun hle => absurd hle (by omega)⟩
      rw [XorLoop.xorNext, hdst, Nat.add_assoc, Nat.mul_succ]

/-- All words of the destination are stored to, the last one whole. -/
theorem run_stored (mem : Memory) (tmp src : Nat) (srcLen : BitVec 32) (dst : Nat)
    (dstLen : BitVec 32) :
    (run mem tmp src srcLen dst dstLen).stored =
      (List.range (8 * rounds srcLen dstLen)).map (dst + ·) :=
  (foldl_round_stored srcLen _ _).2.1

theorem rounds_eq {srcLen dstLen : BitVec 32} (h : max srcLen.toNat dstLen.toNat < 2 ^ 32 - 7) :
    rounds srcLen dstLen = (max srcLen.toNat dstLen.toNat + 7) / 8 := by
  have hmax : (if srcLen.toNat < dstLen.toNat then dstLen else srcLen).toNat =
      max srcLen.toNat dstLen.toNat := by
    split <;> omega
  have hseven : (7 : BitVec 32).toNat = 7 := rfl
  rw [rounds, BitVec.toNat_ushiftRight, BitVec.toNat_add, hmax, hseven, Nat.shiftRight_eq_div_pow]
  omega

/-- The loop stays in the destination if its length is a multiple of eight, and not below that of
the source. -/
theorem stored_within_iff (mem : Memory) (tmp src : Nat) {srcLen : BitVec 32} (dst : Nat)
    {dstLen : BitVec 32} (h : max srcLen.toNat dstLen.toNat < 2 ^ 32 - 7) :
    (∀ a ∈ (run mem tmp src srcLen dst dstLen).stored, dst ≤ a ∧ a < dst + dstLen.toNat) ↔
      dstLen.toNat % 8 = 0 ∧ srcLen.toNat ≤ dstLen.toNat := by
  rw [run_stored, rounds_eq h]
  constructor
  · intro hall
    have hreach : 8 * ((max srcLen.toNat dstLen.toNat + 7) / 8) ≤ dstLen.toNat := by
      by_contra hlt
      have hmem := List.mem_map_of_mem (f := (dst + ·)) (List.mem_range.mpr (Nat.lt_of_not_le hlt))
      exact Nat.lt_irrefl _ (hall (dst + dstLen.toNat) hmem).2
    omega
  · rintro ⟨hmod, hle⟩ a ha
    obtain ⟨i, hi, rfl⟩ := List.mem_map.mp ha
    rw [List.mem_range] at hi
    omega

/-! ## What it leaves in the destination -/

/-- A call for a destination of 2036 bytes. Neither the source nor the destination lies in
`_xor_tmp_data`. -/
structure XorCall where
  tmp : Nat
  src : Nat
  srcLen : BitVec 32
  dst : Nat
  srcLen_le : srcLen.toNat ≤ 2036
  src_apart : src + srcLen.toNat ≤ tmp ∨ tmp + 2048 ≤ src
  dst_apart : dst + 2036 ≤ tmp ∨ tmp + 2048 ≤ dst

/-- The call. -/
def XorCall.run (c : XorCall) (mem : Memory) : XorLoop :=
  FecXor.run mem c.tmp c.src c.srcLen c.dst 2036

variable (c : XorCall) (mem : Memory)

/-- Byte `i` of the source, or zero behind it. -/
def XorCall.padded (i : Nat) : Byte := if i < c.srcLen.toNat then mem (c.src + i) else 0

theorem prepare_tmp {i : Nat} (hi : i < 2048) :
    prepare mem c.tmp c.src c.srcLen (c.tmp + i) = c.padded mem i := by
  have hle := c.srcLen_le
  rw [prepare, memcpy, XorCall.padded, Nat.add_sub_cancel_left]
  by_cases hsrc : i < c.srcLen.toNat
  · have happart := c.src_apart
    rw [if_pos (by omega), if_pos hsrc, memset, if_neg (by omega)]
  · rw [if_neg (by omega), if_neg hsrc, memset, if_pos (by omega)]

theorem prepare_outside {a : Nat} (ha : a < c.tmp ∨ c.tmp + 2048 ≤ a) :
    prepare mem c.tmp c.src c.srcLen a = mem a := by
  have hle := c.srcLen_le
  rw [prepare, memcpy, if_neg (by omega), memset, if_neg (by omega)]

/-- The memory after `m` rounds. The words of `_xor_tmp_data` that are still to be read are as they
were before the loop: only the last round stores outside the destination. -/
theorem foldl_round_mem {m : Nat} (hm : m ≤ 255) (a : Nat) :
    ((List.range m).foldl (XorLoop.round c.srcLen)
      { mem := prepare mem c.tmp c.src c.srcLen, psrc64 := c.tmp, pdst64 := c.dst,
        stored := [] }).mem a =
      if c.dst ≤ a ∧ a < c.dst + 8 * m then
        prepare mem c.tmp c.src c.srcLen a ^^^ c.padded mem (a - c.dst)
      else prepare mem c.tmp c.src c.srcLen a := by
  induction m generalizing a with
  | zero => rw [if_neg (by omega)]; rfl
  | succ m ih =>
    have hrest := ih (by omega)
    obtain ⟨hdst, -, hsrc⟩ := foldl_round_stored c.srcLen
      { mem := prepare mem c.tmp c.src c.srcLen, psrc64 := c.tmp, pdst64 := c.dst, stored := [] } m
    rw [List.range_succ, List.foldl_append, List.foldl_cons, List.foldl_nil]
    generalize List.foldl (XorLoop.round c.srcLen) _ (List.range m) = t at hdst hsrc hrest ⊢
    change t.pdst64 = c.dst + 8 * m at hdst
    change m ≤ c.srcLen.toNat → t.psrc64 = c.tmp + 8 * m at hsrc
    have hround : (t.round c.srcLen m).mem a =
        if c.dst + 8 * m ≤ a ∧ a < c.dst + 8 * m + 8 then
          t.mem a ^^^ c.padded mem (a - c.dst) else t.mem a := by
      rw [XorLoop.round]
      split
      · next hlt =>
        change store64 t.mem t.pdst64 (load64 t.mem t.pdst64 ^^^ load64 t.mem t.psrc64) a = _
        rw [store64_xor, hdst, hsrc (Nat.le_of_lt hlt)]
        split
        · next hin =>
          have hword : t.mem (c.tmp + 8 * m + (a - (c.dst + 8 * m))) =
              c.padded mem (a - c.dst) := by
            have happart := c.dst_apart
            have hat : c.tmp + 8 * m + (a - (c.dst + 8 * m)) = c.tmp + (a - c.dst) := by omega
            rw [hat, hrest, if_neg (by omega), prepare_tmp c mem (by omega)]
          rw [extractLsb'_load64 _ _ (by omega), hword]
        · rfl
      · next hge =>
        change store64 t.mem t.pdst64 (load64 t.mem t.pdst64 ^^^ 0#64) a = _
        rw [store64_xor, hdst]
        split
        · next hin =>
          rw [BitVec.extractLsb'_zero, XorCall.padded, if_neg (by omega)]
          rfl
        · rfl
    rw [hround, hrest]
    by_cases hlast : c.dst + 8 * m ≤ a ∧ a < c.dst + 8 * m + 8
    · rw [if_pos hlast, if_neg (by omega), if_pos (by omega)]
    · rw [if_neg hlast]
      by_cases hbefore : c.dst ≤ a ∧ a < c.dst + 8 * m
      · rw [if_pos hbefore, if_pos (by omega)]
      · rw [if_neg hbefore, if_neg (by omega)]

theorem XorCall.rounds_eq : rounds c.srcLen 2036 = 255 := by
  have hle := c.srcLen_le
  have hlen : (2036 : BitVec 32).toNat = 2036 := rfl
  rw [FecXor.rounds_eq (by omega), hlen]
  omega

/-- The destination has become the xor of it and the source. -/
theorem run_mem {i : Nat} (hi : i < 2036) :
    (c.run mem).mem (c.dst + i) = mem (c.dst + i) ^^^ c.padded mem i := by
  have happart := c.dst_apart
  rw [XorCall.run, run, c.rounds_eq, foldl_round_mem c mem (Nat.le_refl 255), if_pos (by omega),
    prepare_outside c mem (by omega), Nat.add_sub_cancel_left]

/-- The bytes of the destination are those of `fecXor64`. -/
theorem run_eq_fecXor64 :
    (List.range 2036).map (fun i => (c.run mem).mem (c.dst + i)) =
      fecXor64 ((List.range c.srcLen.toNat).map fun i => mem (c.src + i))
        ((List.range 2036).map fun i => mem (c.dst + i)) 2036 := by
  rw [fecXor64_eq]
  apply ext_getD
  · rw [length_xorInto, List.length_map, List.length_map]
  · intro i hi
    rw [List.length_map, List.length_range] at hi
    rw [getD_xorInto (by rwa [List.length_map, List.length_range])]
    simp only [List.getD_eq_getElem?_getD, List.getElem?_map, List.getElem?_range hi,
      Option.map_some, Option.getD_some]
    rw [run_mem c mem hi, XorCall.padded]
    split
    · next hsrc => rw [List.getElem?_range hsrc, Option.map_some, Option.getD_some]
    · next hsrc =>
      rw [List.getElem?_eq_none (by rw [List.length_range]; omega), Option.map_none,
        Option.getD_none]

/-- The call xors the source into the destination and stores nowhere else. -/
structure XorsWithin : Prop where
  xored : ∀ i, i < c.srcLen.toNat → (c.run mem).mem (c.dst + i) = mem (c.dst + i) ^^^ mem (c.src + i)
  kept : ∀ i, c.srcLen.toNat ≤ i → i < 2036 → (c.run mem).mem (c.dst + i) = mem (c.dst + i)
  within : ∀ a ∈ (c.run mem).stored, c.dst ≤ a ∧ a < c.dst + 2036

/-- A call xors the source into the destination, and stores behind it. -/
theorem fec_xor_64_leaves_destination :
    (∀ i, i < c.srcLen.toNat →
        (c.run mem).mem (c.dst + i) = mem (c.dst + i) ^^^ mem (c.src + i)) ∧
      (∀ i, c.srcLen.toNat ≤ i → i < 2036 → (c.run mem).mem (c.dst + i) = mem (c.dst + i)) ∧
      ¬ XorsWithin c mem := by
  have hle := c.srcLen_le
  refine ⟨fun i hi => ?_, fun i hi hlt => ?_, fun h => ?_⟩
  · rw [run_mem c mem (by omega), XorCall.padded, if_pos hi]
  · rw [run_mem c mem hlt, XorCall.padded, if_neg (by omega)]
    exact BitVec.xor_zero
  · have hlen : (2036 : BitVec 32).toNat = 2036 := rfl
    have hwithin := (stored_within_iff mem c.tmp c.src c.dst (by omega)).mp h.within
    rw [hlen] at hwithin
    omega

/-- The call for one byte, with the destination behind the header in `_pkt_data` and
`_xor_tmp_data` behind `_pkt_data`. -/
def inSession : XorCall where
  tmp := 2048
  src := 8192
  srcLen := 1
  dst := 12
  srcLen_le := by decide
  src_apart := by decide
  dst_apart := by decide

/-- It stores to the first byte of `_xor_tmp_data`. -/
theorem last_word_leaves_destination :
    2048 ∈ (inSession.run fun _ => 0).stored ∧ ¬ XorsWithin inSession fun _ => 0 := by
  have hmem : 2048 ∈ (inSession.run fun _ => 0).stored := by
    rw [XorCall.run, run_stored, inSession.rounds_eq]
    exact List.mem_map.mpr ⟨2036, List.mem_range.mpr (by decide), rfl⟩
  refine ⟨hmem, fun h => ?_⟩
  have hlt := (h.within 2048 hmem).2
  exact absurd hlt (by decide)

end FecXor

end RtcMcu.RtpTrans
