import RtcMcu.Avformat.Rtp
import RtcMcu.Lib.Coupling

/-!
# NAL units of a frame

A frame holds its NAL units either behind start codes (`0 0 1`) or each behind its size in four
bytes. `ff_avc_find_startcode` of `avcodec/h264.cpp` is here by its result: it compares the bytes in
an order that depends on their alignment, and finds the first start code.
-/

namespace RtcMcu.Avcodec

open RtcMcu.Avformat (byteAt rdBe32)
open RtcMcu.Coupling

def NAL_SLICE_IDR : Byte := 5
def NAL_SPS : Byte := 7
def NAL_PPS : Byte := 8

/-- The five bits of the type, `*(r) & 0x1f`. -/
def nalType (header : Byte) : Byte := header &&& 0x1f

/-- `h264_split_code`. -/
def h264SplitCode : List Byte := [0, 0, 0, 1]

/-- `ff_avc_find_startcode_internal`: the first start code from `p` on that has a byte behind it, or
the end. -/
def findStartcodeInternal (m : List Byte) (p : Nat) : Nat :=
  (((List.range (m.length - 3 - p)).map (p + ·)).find? fun i =>
    byteAt m i == 0 && byteAt m (i + 1) == 0 && byteAt m (i + 2) == 1).getD m.length

/-- `ff_avc_find_startcode`, which takes a zero in front of the start code with it. -/
def findStartcode (m : List Byte) (p : Nat) : Nat :=
  let out := findStartcodeInternal m p
  if p < out ∧ out < m.length ∧ byteAt m (out - 1) = 0 then out - 1 else out

/-- `while (!*(r++));`: behind the next byte that is not zero. -/
def behindZeros (m : List Byte) (r : Nat) : Nat :=
  r + ((m.drop r).takeWhile (· == 0)).length + 1

/-- The bytes from `start` on that a copy of `size` bytes reads. -/
def slice (m : List Byte) (start size : Nat) : Except Fault (List Byte) :=
  if start + size ≤ m.length then .ok ((m.drop start).take size) else .error .outOfBounds

/-- A NAL unit: its first byte, and what a copy of it reads. -/
structure NalUnit where
  header : Byte
  bytes : Except Fault (List Byte)

section Scan

variable {σ : Type}

/-- The loop over the units behind start codes, from the start code at `r` on. It stops when `stop`
holds. -/
def scanCodes (m : List Byte) (f : σ → NalUnit → Except Fault σ) (stop : σ → Bool) :
    Nat → Nat → σ → Except Fault σ
  | 0, _, s => .ok s
  | fuel + 1, r, s =>
    if r < m.length then do
      let start := behindZeros m r
      let next := findStartcode m start
      let s ← f s { header := byteAt m start, bytes := slice m start (next - start) }
      if stop s then .ok s else scanCodes m f stop fuel next s
    else .ok s

/-- The loop over the units behind their sizes. A size that leads behind the end ends it. The size
and the type are read before the test that would show that they are there. -/
def scanSizes (m : List Byte) (f : σ → NalUnit → Except Fault σ) (stop : σ → Bool) :
    Nat → Nat → σ → Except Fault σ
  | 0, _, s => .ok s
  | fuel + 1, r, s =>
    if r < m.length then
      if m.length < r + 4 then .error .outOfBounds
      else
        let size := (rdBe32 m r).toNat
        if m.length < r + size then .ok s
        else if m.length ≤ r + 4 then .error .outOfBounds
        else do
          let s ← f s { header := byteAt m (r + 4), bytes := slice m (r + 4) size }
          if stop s then .ok s else scanSizes m f stop fuel (r + 4 + size) s
    else .ok s

/-- The frame starts with a split code. -/
def startsWithCode (m : List Byte) : Bool :=
  byteAt m 0 == 0 && byteAt m 1 == 0 && byteAt m 2 == 0 && byteAt m 3 == 1

/-- The loops over the NAL units of a frame. Every unit is longer than its start code or its size, so
the fuel is the length of the frame. -/
def scanNals (m : List Byte) (f : σ → NalUnit → Except Fault σ) (stop : σ → Bool) (s : σ) :
    Except Fault σ :=
  if startsWithCode m then scanCodes m f stop m.length (findStartcode m 0) s
  else scanSizes m f stop m.length 0 s

/-! ### What the loops keep -/

variable {E : Fault → Prop} {P : σ → Prop} {f : σ → NalUnit → Except Fault σ} {stop : σ → Bool}

theorem length_of_slice {m bytes : List Byte} {start size : Nat}
    (h : slice m start size = .ok bytes) : bytes.length = size := by
  unfold slice at h
  split at h
  · next hle =>
    cases h
    rw [List.length_take, List.length_drop]
    omega
  · cases h

theorem slice_ends (hE : E .outOfBounds) (m : List Byte) (start size : Nat) :
    Ends E (fun _ => True) (slice m start size) := by
  unfold slice
  split
  · trivial
  · exact hE

theorem scanCodes_ends (hE : E .outOfBounds)
    (hf : ∀ s nal, Ends E (fun _ => True) nal.bytes → P s → Ends E P (f s nal)) (m : List Byte)
    (fuel r : Nat) {s : σ} (hs : P s) : Ends E P (scanCodes m f stop fuel r s) := by
  induction fuel generalizing r s with
  | zero => exact hs
  | succ fuel ih =>
    unfold scanCodes
    split
    · refine Ends.bind (hf s _ (slice_ends hE _ _ _) hs) fun s' _ hs' => ?_
      split
      · exact hs'
      · exact ih _ hs'
    · exact hs

theorem scanSizes_ends (hE : E .outOfBounds)
    (hf : ∀ s nal, Ends E (fun _ => True) nal.bytes → P s → Ends E P (f s nal)) (m : List Byte)
    (fuel r : Nat) {s : σ} (hs : P s) : Ends E P (scanSizes m f stop fuel r s) := by
  induction fuel generalizing r s with
  | zero => exact hs
  | succ fuel ih =>
    unfold scanSizes
    split
    · split
      · exact hE
      · dsimp only
        split
        · exact hs
        · split
          · exact hE
          · refine Ends.bind (hf s _ (slice_ends hE _ _ _) hs) fun s' _ hs' => ?_
            split
            · exact hs'
            · exact ih _ hs'
    · exact hs

/-- What every NAL unit keeps, a scan keeps; beyond the faults of the units it may run out of the
frame. -/
theorem scanNals_ends (hE : E .outOfBounds)
    (hf : ∀ s nal, Ends E (fun _ => True) nal.bytes → P s → Ends E P (f s nal)) (m : List Byte)
    {s : σ} (hs : P s) : Ends E P (scanNals m f stop s) := by
  unfold scanNals
  split
  · exact scanCodes_ends hE hf m _ _ hs
  · exact scanSizes_ends hE hf m _ _ hs

/-! ### Two scans of one frame -/

variable {R : σ → σ → Prop}

theorem scanCodes_coupled
    (hf : ∀ s t nal, R s t → Coupled (fun _ => True) R (f s nal) (f t nal))
    (hstop : ∀ s t, R s t → stop s = stop t) (m : List Byte) (fuel r : Nat) {s t : σ} (h : R s t) :
    Coupled (fun _ => True) R (scanCodes m f stop fuel r s) (scanCodes m f stop fuel r t) := by
  induction fuel generalizing r s t with
  | zero => exact h
  | succ fuel ih =>
    unfold scanCodes
    refine Coupled.ite (fun _ => ?_) fun _ => h
    refine Coupled.bind (hf s t _ h) fun s' t' h' => ?_
    rw [hstop s' t' h']
    exact Coupled.ite (fun _ => h') fun _ => ih _ h'

theorem scanSizes_coupled
    (hf : ∀ s t nal, R s t → Coupled (fun _ => True) R (f s nal) (f t nal))
    (hstop : ∀ s t, R s t → stop s = stop t) (m : List Byte) (fuel r : Nat) {s t : σ} (h : R s t) :
    Coupled (fun _ => True) R (scanSizes m f stop fuel r s) (scanSizes m f stop fuel r t) := by
  induction fuel generalizing r s t with
  | zero => exact h
  | succ fuel ih =>
    unfold scanSizes
    refine Coupled.ite (fun _ => ?_) fun _ => h
    refine Coupled.ite (fun _ => coupled_error trivial) fun _ => ?_
    refine Coupled.ite (fun _ => h) fun _ => ?_
    refine Coupled.ite (fun _ => coupled_error trivial) fun _ => ?_
    refine Coupled.bind (hf s t _ h) fun s' t' h' => ?_
    rw [hstop s' t' h']
    exact Coupled.ite (fun _ => h') fun _ => ih _ h'

/-- Scans whose units keep a relation, and stop alike, keep it. -/
theorem scanNals_coupled
    (hf : ∀ s t nal, R s t → Coupled (fun _ => True) R (f s nal) (f t nal))
    (hstop : ∀ s t, R s t → stop s = stop t) (m : List Byte) {s t : σ} (h : R s t) :
    Coupled (fun _ => True) R (scanNals m f stop s) (scanNals m f stop t) := by
  unfold scanNals
  refine Coupled.ite (fun _ => ?_) fun _ => ?_
  · exact scanCodes_coupled hf hstop m _ _ h
  · exact scanSizes_coupled hf hstop m _ _ h

end Scan

end RtcMcu.Avcodec
