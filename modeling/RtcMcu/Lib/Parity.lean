import Mathlib.Data.List.Nodup
import Mathlib.Tactic.Common

/-!
# Parity

The xor of a bit-vector field over a list, and of a list of words over another, the shorter one
padded with zeros. Parity is a code for one erasure: the xor over all members and the xor over all
but one give the missing one (`parity_erase`). A list of words is its words at all positions, so
for lists it is the same fact position by position (`getD_xorInto`).

`xorChunks` is the xor done chunk by chunk, which a machine does word by word on memory;
`xorChunks_eq` says that enough chunks are the whole.
-/

namespace RtcMcu.Parity

variable {α : Type} {w : Nat}

/-! ## One field -/

/-- The xor of `f` over the members. -/
def parity (f : α → BitVec w) : List α → BitVec w
  | [] => 0
  | x :: xs => f x ^^^ parity f xs

@[simp] theorem parity_nil (f : α → BitVec w) : parity f [] = 0 := rfl

@[simp] theorem parity_cons (f : α → BitVec w) (x : α) (xs : List α) :
    parity f (x :: xs) = f x ^^^ parity f xs := rfl

@[simp] theorem parity_append (f : α → BitVec w) (xs ys : List α) :
    parity f (xs ++ ys) = parity f xs ^^^ parity f ys := by
  induction xs with
  | nil => exact BitVec.zero_xor.symm
  | cons x xs ih => rw [List.cons_append, parity_cons, ih, parity_cons, BitVec.xor_assoc]

theorem parity_map {β : Type} (f : α → BitVec w) (h : β → α) (xs : List β) :
    parity f (xs.map h) = parity (fun x => f (h x)) xs := by
  induction xs with
  | nil => rfl
  | cons x xs ih => rw [List.map_cons, parity_cons, ih, parity_cons]

/-- What is zero for every member has parity zero. -/
theorem parity_eq_zero {f : α → BitVec w} {xs : List α} (h : ∀ x ∈ xs, f x = 0) :
    parity f xs = 0 := by
  induction xs with
  | nil => rfl
  | cons x xs ih =>
    rw [parity_cons, h x List.mem_cons_self, ih fun y hy => h y (List.mem_cons_of_mem x hy)]
    exact BitVec.xor_zero

/-- A slice of a parity is the parity of the slices. -/
theorem extractLsb'_parity (f : α → BitVec w) (start len : Nat) (xs : List α) :
    (parity f xs).extractLsb' start len = parity (fun x => (f x).extractLsb' start len) xs := by
  induction xs with
  | nil => exact BitVec.extractLsb'_zero
  | cons x xs ih => rw [parity_cons, BitVec.extractLsb'_xor, ih, parity_cons]

/-- The parity over all members and over all but one give the one. -/
theorem parity_erase (f : α → BitVec w) (xs ys : List α) (m : α) :
    parity f (xs ++ m :: ys) ^^^ parity f (xs ++ ys) = f m := by
  rw [parity_append, parity_cons, parity_append, BitVec.xor_comm (parity f xs),
    BitVec.xor_assoc (f m), BitVec.xor_comm (parity f ys), BitVec.xor_assoc (f m),
    BitVec.xor_self, BitVec.xor_zero]

/-- The same over a list without duplicates, with the one filtered out. -/
theorem parity_filter_ne [DecidableEq α] (f : α → BitVec w) {xs : List α} (hnodup : xs.Nodup)
    {m : α} (hm : m ∈ xs) : parity f xs ^^^ parity f (xs.filter (· ≠ m)) = f m := by
  obtain ⟨ys, zs, rfl⟩ := List.append_of_mem hm
  have hout : m ∉ ys ++ zs := (List.nodup_cons.mp (List.nodup_middle.mp hnodup)).1
  have hself : ∀ l : List α, m ∉ l → l.filter (· ≠ m) = l := by
    intro l hl
    refine List.filter_eq_self.mpr fun x hx => decide_eq_true ?_
    rintro rfl
    exact hl hx
  rw [List.filter_append, List.filter_cons_of_neg (by simp),
    hself ys fun h => hout (List.mem_append_left _ h),
    hself zs fun h => hout (List.mem_append_right _ h)]
  exact parity_erase f ys zs m

/-- `src` xored over `dst`, as far as `dst` goes. -/
def xorInto (dst src : List (BitVec w)) : List (BitVec w) :=
  dst.mapIdx fun i b => b ^^^ src.getD i 0

@[simp] theorem length_xorInto (dst src : List (BitVec w)) :
    (xorInto dst src).length = dst.length := List.length_mapIdx

theorem getD_xorInto {dst src : List (BitVec w)} {i : Nat} (h : i < dst.length) :
    (xorInto dst src).getD i 0 = dst.getD i 0 ^^^ src.getD i 0 := by
  simp only [xorInto, List.getD_eq_getElem?_getD, List.getElem?_mapIdx, List.getElem?_eq_getElem h,
    Option.map_some, Option.getD_some]

/-- Two lists of one length are equal when they are at every position. -/
theorem ext_getD {xs ys : List (BitVec w)} (hlen : xs.length = ys.length)
    (h : ∀ i, i < xs.length → xs.getD i 0 = ys.getD i 0) : xs = ys := by
  refine List.ext_getElem hlen fun i hx hy => ?_
  have hi := h i hx
  rwa [List.getD_eq_getElem?_getD, List.getD_eq_getElem?_getD, List.getElem?_eq_getElem hx,
    List.getElem?_eq_getElem hy] at hi

/-- `src` copied over the head of `dst`, as far as `dst` goes. -/
def copyOver (dst src : List (BitVec w)) : List (BitVec w) :=
  src.take dst.length ++ dst.drop src.length

/-- Over zeros, copying is adding. -/
theorem copyOver_zeros (n : Nat) (src : List (BitVec w)) :
    copyOver (List.replicate n 0) src = xorInto (List.replicate n 0) src := by
  have hlen : (copyOver (List.replicate n (0 : BitVec w)) src).length = n := by
    simp only [copyOver, List.length_append, List.length_take, List.length_drop,
      List.length_replicate]
    omega
  refine ext_getD (by rw [hlen, length_xorInto, List.length_replicate]) fun i hi => ?_
  rw [hlen] at hi
  rw [getD_xorInto (by rwa [List.length_replicate]), copyOver]
  simp only [List.getD_eq_getElem?_getD, List.length_replicate, List.drop_replicate]
  rw [List.getElem?_append, List.length_take, List.getElem?_take, List.getElem?_replicate,
    List.getElem?_replicate, if_pos hi, if_pos hi]
  by_cases hsrc : i < src.length
  · rw [if_pos (by omega)]
    exact BitVec.zero_xor.symm
  · rw [if_neg (by omega), if_pos (by omega), List.getElem?_eq_none (by omega)]
    exact BitVec.zero_xor.symm

/-! ## Chunk by chunk -/

/-- `src` xored over chunk `j` of `dst`, chunks of `k` words. -/
def xorChunk (k : Nat) (src : List (BitVec w)) (dst : List (BitVec w)) (j : Nat) :
    List (BitVec w) :=
  dst.mapIdx fun i b => if i / k = j then b ^^^ src.getD i 0 else b

@[simp] theorem length_xorChunk (k : Nat) (src dst : List (BitVec w)) (j : Nat) :
    (xorChunk k src dst j).length = dst.length := List.length_mapIdx

theorem getD_xorChunk (k : Nat) (src : List (BitVec w)) {dst : List (BitVec w)} (j : Nat)
    {i : Nat} (h : i < dst.length) :
    (xorChunk k src dst j).getD i 0 =
      if i / k = j then dst.getD i 0 ^^^ src.getD i 0 else dst.getD i 0 := by
  simp only [xorChunk, List.getD_eq_getElem?_getD, List.getElem?_mapIdx,
    List.getElem?_eq_getElem h, Option.map_some, Option.getD_some]

/-- The first `n` chunks, those below `m`. -/
theorem getD_foldl_xorChunk (k : Nat) (src : List (BitVec w)) (m n : Nat)
    {dst : List (BitVec w)} {i : Nat} (h : i < dst.length) :
    ((List.range n).foldl (fun acc j => if j < m then xorChunk k src acc j else acc) dst).getD i 0 =
        (if i / k < n ∧ i / k < m then dst.getD i 0 ^^^ src.getD i 0 else dst.getD i 0) ∧
      ((List.range n).foldl (fun acc j => if j < m then xorChunk k src acc j else acc) dst).length =
        dst.length := by
  induction n with
  | zero => exact ⟨(if_neg fun hlt => absurd hlt.1 (Nat.not_lt_zero _)).symm, rfl⟩
  | succ n ih =>
    obtain ⟨hword, hlen⟩ := ih
    rw [List.range_succ, List.foldl_append, List.foldl_cons, List.foldl_nil]
    by_cases hn : n < m
    · rw [if_pos hn]
      refine ⟨?_, (length_xorChunk k src _ n).trans hlen⟩
      rw [getD_xorChunk k src n (by rwa [hlen]), hword]
      by_cases hi : i / k = n
      · rw [if_pos hi, if_neg (by omega), if_pos (by omega)]
      · rw [if_neg hi]
        by_cases hlt : i / k < n ∧ i / k < m
        · rw [if_pos hlt, if_pos (by omega)]
        · rw [if_neg hlt, if_neg (by omega)]
    · rw [if_neg hn]
      refine ⟨?_, hlen⟩
      rw [hword]
      by_cases hlt : i / k < n ∧ i / k < m
      · rw [if_pos hlt, if_pos (by omega)]
      · rw [if_neg hlt, if_neg (by omega)]

/-- Chunks that reach past the words of `src` add up to the whole of it. -/
theorem xorChunks_eq (k : Nat) (src : List (BitVec w)) (m n : Nat) (dst : List (BitVec w))
    (hm : ∀ i, m ≤ i / k → src.getD i 0 = 0) (hn : ∀ i, n ≤ i / k → src.getD i 0 = 0) :
    (List.range n).foldl (fun acc j => if j < m then xorChunk k src acc j else acc) dst =
      xorInto dst src := by
  cases hdst : dst with
  | nil =>
    have hlen : ∀ n, ((List.range n).foldl
        (fun acc j => if j < m then xorChunk k src acc j else acc) ([] : List (BitVec w))) = [] := by
      intro n
      induction n with
      | zero => rfl
      | succ n ih =>
        rw [List.range_succ, List.foldl_append, ih, List.foldl_cons, List.foldl_nil]
        split <;> rfl
    rw [hlen n]
    rfl
  | cons b bs =>
    rw [← hdst]
    have hpos : 0 < dst.length := by
      rw [hdst]
      exact Nat.succ_pos _
    have hlen := (getD_foldl_xorChunk k src m n hpos).2
    refine ext_getD (by rw [hlen, length_xorInto]) fun i hi => ?_
    rw [hlen] at hi
    rw [(getD_foldl_xorChunk k src m n hi).1, getD_xorInto hi]
    by_cases hlt : i / k < n ∧ i / k < m
    · rw [if_pos hlt]
    · have hzero : src.getD i 0 = 0 := by
        by_cases hik : i / k < n
        · exact hm i (by omega)
        · exact hn i (by omega)
      rw [if_neg hlt, hzero]
      exact BitVec.xor_zero.symm

end RtcMcu.Parity
