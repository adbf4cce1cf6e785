import Mathlib.Tactic.Common

/-!
# A memory of bytes and its words

A memory maps addresses to bytes. `memset` and `memcpy` write a range of it, and `store64` writes a
word of eight bytes, the lowest in front. What each leaves is known byte by byte.
-/

namespace RtcMcu.ByteMemory

/-- A memory. -/
abbrev Memory := Nat → BitVec 8

/-- `len` bytes from `dst` on become `b`. -/
def memset (mem : Memory) (dst : Nat) (b : BitVec 8) (len : Nat) : Memory :=
  fun a => if dst ≤ a ∧ a < dst + len then b else mem a

/-- `len` bytes are copied from `src` to `dst`. -/
def memcpy (mem : Memory) (dst src len : Nat) : Memory :=
  fun a => if dst ≤ a ∧ a < dst + len then mem (src + (a - dst)) else mem a

/-- The word at an address. -/
def load64 (mem : Memory) (a : Nat) : BitVec 64 :=
  mem (a + 7) ++ mem (a + 6) ++ mem (a + 5) ++ mem (a + 4) ++ mem (a + 3) ++ mem (a + 2) ++
    mem (a + 1) ++ mem a

/-- A word is written. -/
def store64 (mem : Memory) (dst : Nat) (x : BitVec 64) : Memory :=
  fun a => if dst ≤ a ∧ a < dst + 8 then x.extractLsb' (8 * (a - dst)) 8 else mem a

/-- The bytes of a word with one more byte at its low end. -/
theorem byte_append {n : Nat} (x : BitVec n) (b : BitVec 8) (k : Nat) :
    (x ++ b).extractLsb' (8 * k) 8 = if k = 0 then b else x.extractLsb' (8 * (k - 1)) 8 := by
  apply BitVec.eq_of_getLsbD_eq
  intro i hi
  by_cases hk : k = 0
  · simp [BitVec.getLsbD_append, hi, hk]
  · have hpos : 8 * k + i - 8 = 8 * (k - 1) + i := by omega
    have hhigh : ¬ 8 * k + i < 8 := by omega
    simp [BitVec.getLsbD_append, hi, hk, hpos, hhigh]

theorem extractLsb'_load64 (mem : Memory) (a : Nat) {k : Nat} (hk : k < 8) :
    (load64 mem a).extractLsb' (8 * k) 8 = mem (a + k) := by
  rw [load64]
  simp only [byte_append]
  match k, hk with
  | 0, _ | 1, _ | 2, _ | 3, _ | 4, _ | 5, _ | 6, _ => rfl
  | 7, _ => exact BitVec.extractLsb'_eq_self

/-- `*dst ^= x` for words, byte by byte. -/
theorem store64_xor (mem : Memory) (dst : Nat) (x : BitVec 64) (a : Nat) :
    store64 mem dst (load64 mem dst ^^^ x) a =
      if dst ≤ a ∧ a < dst + 8 then mem a ^^^ x.extractLsb' (8 * (a - dst)) 8 else mem a := by
  rw [store64]
  split
  · next h =>
    rw [BitVec.extractLsb'_xor, extractLsb'_load64 mem dst (by omega), Nat.add_sub_cancel' h.1]
  · rfl

end RtcMcu.ByteMemory
